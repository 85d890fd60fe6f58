/-
The sign bit of the packed formats. In every format the top bit of a code is its sign. Two codes that differ in it alone
move the reference by the same distance, one up and one down, except at the fourth step size of the three bit format:
there the table reads the whole code, so that a code with the sign set moves by the largest distance.
-/
import Z486.Clocked.Bits
import Z486.Sound.Adpcm

namespace Z486.Sound

open Clocked

/-! ## What a code does -/

/-- The registers that decoding carries from code to code. -/
structure AdpcmState where
  step : BitVec 3
  reference : BitVec 8
  deriving DecidableEq, Repr

def Decoder.state (d : Decoder) : AdpcmState := ⟨d.adpcmStep, d.adpcmReference⟩

namespace Adpcm

def adjust (t : Adpcm) (step : BitVec 3) (sample : BitVec 8) : BitVec 8 :=
  match t with
  | .none => 0
  | .twoBit => adpcm2bitReferenceAdjust step (adpcm2bitSample sample)
  | .threeBit => adpcm3bitReferenceAdjust step (adpcm3bitSample sample)
  | .fourBit => adpcm4bitReferenceAdjust step (adpcm4bitSample sample)

def stepNext (t : Adpcm) (step : BitVec 3) (sample : BitVec 8) : BitVec 3 :=
  match t with
  | .none => step
  | .twoBit => adpcm2bitStepNext step (adpcm2bitSample sample)
  | .threeBit => adpcm3bitStepNext step (adpcm3bitSample sample)
  | .fourBit => adpcm4bitStepNext step (adpcm4bitSample sample)

/-- One code, at the top of the byte. -/
def decode (t : Adpcm) (s : AdpcmState) (sample : BitVec 8) : AdpcmState where
  step := t.stepNext s.step sample
  reference := adpcmReferenceNext s.reference (t.adjust s.step sample) (sample.getLsbD 7)

/-- The signed distance that a code moves the reference by. -/
def move (t : Adpcm) (step : BitVec 3) (sample : BitVec 8) : Int :=
  if sample.getLsbD 7 then -(t.adjust step sample).toNat else (t.adjust step sample).toNat

end Adpcm

/-! ## The reference -/

/-- The reference is cut off to the byte, at either end. -/
theorem adpcmReferenceNext_toNat (reference adjust : BitVec 8) (sign : Bool) :
    ((adpcmReferenceNext reference adjust sign).toNat : Int) =
      max 0 (min 255 (reference.toNat + if sign then -(adjust.toNat : Int) else adjust.toNat)) := by
  have hr := reference.isLt
  have ha := adjust.isLt
  have hsum : (reference.setWidth 9 + adjust.setWidth 9).toNat = reference.toNat + adjust.toNat := by
    rw [BitVec.toNat_add, BitVec.toNat_setWidth, BitVec.toNat_setWidth]; omega
  have hsub : (reference.setWidth 9 - adjust.setWidth 9).toNat = (512 - adjust.toNat + reference.toNat) % 512 := by
    rw [BitVec.toNat_sub, BitVec.toNat_setWidth, BitVec.toNat_setWidth]; omega
  unfold adpcmReferenceNext
  have hcarry : ∀ x : BitVec 9, x.getLsbD 8 = decide (256 ≤ x.toNat) := getLsbD_top
  simp only [hcarry, hsum, hsub]
  cases sign with
  | true =>
    by_cases hborrow : reference.toNat < adjust.toNat
    · rw [if_pos (by simp only [Bool.true_and, decide_eq_true_eq]; omega), if_pos rfl]
      show ((0 : Nat) : Int) = _
      omega
    · rw [if_neg (by simp only [Bool.true_and, decide_eq_true_eq]; omega), if_pos rfl, if_pos rfl,
        BitVec.toNat_setWidth, hsub]
      omega
  | false =>
    rw [if_neg (by simp), if_neg Bool.false_ne_true, if_neg Bool.false_ne_true]
    by_cases hcarry : 256 ≤ reference.toNat + adjust.toNat
    · rw [if_pos (decide_eq_true hcarry)]
      show ((255 : Nat) : Int) = _
      omega
    · rw [if_neg (by simpa using hcarry), BitVec.toNat_setWidth, hsum]
      omega

namespace Adpcm

variable (t : Adpcm) (s : AdpcmState) (sample : BitVec 8)

/-- A code that cuts nothing off. -/
def Unsaturated : Prop := 0 ≤ s.reference.toNat + t.move s.step sample ∧ s.reference.toNat + t.move s.step sample ≤ 255

theorem decode_reference :
    ((t.decode s sample).reference.toNat : Int) = max 0 (min 255 (s.reference.toNat + t.move s.step sample)) :=
  adpcmReferenceNext_toNat _ _ _

theorem decode_reference_of_unsaturated (h : t.Unsaturated s sample) :
    ((t.decode s sample).reference.toNat : Int) = s.reference.toNat + t.move s.step sample := by
  rw [decode_reference, min_eq_right h.2, max_eq_right h.1]

/-! ## Signs -/

/-- The code with the other sign. -/
def mirror (sample : BitVec 8) : BitVec 8 := sample ^^^ 0x80

/-- Two codes that differ in the sign alone move the reference by the same distance in opposite directions and lead to
the same step size. -/
def SignSymmetric : Prop :=
  t.move s.step (mirror sample) = -t.move s.step sample ∧
    t.stepNext s.step (mirror sample) = t.stepNext s.step sample

/-- The table of the three bit format is not read at its fourth step size with a code less than the largest. -/
def Clear : Prop := ¬ (t = .threeBit ∧ s.step = 4 ∧ (adpcm3bitSample sample).extractLsb' 0 2 ≠ 3)

theorem mirror_sign : (mirror sample).getLsbD 7 = !sample.getLsbD 7 := by
  simp [mirror]

theorem mirror_2bitSample : adpcm2bitSample (mirror sample) = adpcm2bitSample sample ^^^ 2 := by
  unfold adpcm2bitSample mirror; rw [BitVec.extractLsb'_xor]; rfl

theorem mirror_3bitSample : adpcm3bitSample (mirror sample) = adpcm3bitSample sample ^^^ 4 := by
  unfold adpcm3bitSample mirror; rw [BitVec.extractLsb'_xor]; rfl

theorem mirror_4bitSample : adpcm4bitSample (mirror sample) = adpcm4bitSample sample ^^^ 8 := by
  unfold adpcm4bitSample mirror; rw [BitVec.extractLsb'_xor]; rfl

theorem magnitude_2bit (code : BitVec 2) : (code ^^^ 2).extractLsb' 0 1 = code.extractLsb' 0 1 := by
  rw [BitVec.extractLsb'_xor]; exact BitVec.xor_zero

theorem magnitude_3bit (code : BitVec 3) : (code ^^^ 4).extractLsb' 0 2 = code.extractLsb' 0 2 := by
  rw [BitVec.extractLsb'_xor]; exact BitVec.xor_zero

theorem magnitude_4bit (code : BitVec 4) : (code ^^^ 8).extractLsb' 0 3 = code.extractLsb' 0 3 := by
  rw [BitVec.extractLsb'_xor]; exact BitVec.xor_zero

theorem stepNext_mirror (step : BitVec 3) : t.stepNext step (mirror sample) = t.stepNext step sample := by
  cases t with
  | none => rfl
  | twoBit =>
    have hbit : (adpcm2bitSample sample ^^^ 2).getLsbD 0 = (adpcm2bitSample sample).getLsbD 0 := by simp
    show adpcm2bitStepNext _ _ = adpcm2bitStepNext _ _
    rw [mirror_2bitSample, adpcm2bitStepNext, adpcm2bitStepNext, hbit]
  | threeBit =>
    show adpcm3bitStepNext _ _ = adpcm3bitStepNext _ _
    rw [mirror_3bitSample, adpcm3bitStepNext, adpcm3bitStepNext, magnitude_3bit]
  | fourBit =>
    show adpcm4bitStepNext _ _ = adpcm4bitStepNext _ _
    rw [mirror_4bitSample, adpcm4bitStepNext, adpcm4bitStepNext, magnitude_4bit]

/-- At the fourth step size the distance is 5, 15, 25 or 35 without the sign, and 35 with it. -/
theorem adpcm3bitReferenceAdjust_mirror_iff (step : BitVec 3) (code : BitVec 3) :
    adpcm3bitReferenceAdjust step (code ^^^ 4) = adpcm3bitReferenceAdjust step code ↔
      ¬ (step = 4 ∧ code.extractLsb' 0 2 ≠ 3) := by
  by_cases h4 : step = 4
  · subst h4
    revert code
    decide
  · have hne : (step == 4) = false := beq_false_of_ne h4
    unfold adpcm3bitReferenceAdjust
    rw [magnitude_3bit, hne]
    simp only [Bool.false_and, Bool.false_eq_true, if_false]
    exact iff_of_true trivial fun h => h4 h.1

theorem adjust_mirror_iff (step : BitVec 3) : t.adjust step (mirror sample) = t.adjust step sample ↔
    ¬ (t = .threeBit ∧ step = 4 ∧ (adpcm3bitSample sample).extractLsb' 0 2 ≠ 3) := by
  cases t with
  | none => exact iff_of_true rfl fun h => absurd h.1 (by decide)
  | twoBit =>
    refine iff_of_true ?_ fun h => absurd h.1 (by decide)
    show adpcm2bitReferenceAdjust _ _ = adpcm2bitReferenceAdjust _ _
    rw [mirror_2bitSample]
    unfold adpcm2bitReferenceAdjust
    rw [magnitude_2bit]
  | threeBit =>
    show adpcm3bitReferenceAdjust _ _ = adpcm3bitReferenceAdjust _ _ ↔ _
    rw [mirror_3bitSample, adpcm3bitReferenceAdjust_mirror_iff]
    simp only [true_and]
  | fourBit =>
    refine iff_of_true ?_ fun h => absurd h.1 (by decide)
    show adpcm4bitReferenceAdjust _ _ = adpcm4bitReferenceAdjust _ _
    rw [mirror_4bitSample]
    unfold adpcm4bitReferenceAdjust
    rw [magnitude_4bit]

theorem move_mirror_iff (step : BitVec 3) :
    t.move step (mirror sample) = -t.move step sample ↔ t.adjust step (mirror sample) = t.adjust step sample := by
  rw [← BitVec.toNat_inj]
  unfold move
  rw [mirror_sign]
  cases sample.getLsbD 7
  · simp only [Bool.not_false, if_true, Bool.false_eq_true, if_false]; omega
  · simp only [Bool.not_true, if_true, Bool.false_eq_true, if_false]; omega

theorem signSymmetric_iff_clear : t.SignSymmetric s sample ↔ t.Clear s sample := by
  unfold SignSymmetric Clear
  rw [move_mirror_iff, adjust_mirror_iff, and_iff_left (stepNext_mirror t sample s.step)]

/-! ## Streams -/

/-- `P` of every code of a stream, in the state in which it is decoded. -/
def Along (P : AdpcmState → BitVec 8 → Prop) : AdpcmState → List (BitVec 8) → Prop
  | _, [] => True
  | s, sample :: rest => P s sample ∧ Along P (t.decode s sample) rest

/-- The references after each code of a stream: what is played. -/
def outputs : AdpcmState → List (BitVec 8) → List (BitVec 8)
  | _, [] => []
  | s, sample :: rest => (t.decode s sample).reference :: outputs (t.decode s sample) rest

/-- One code and its mirror image, decoded with the same step size, leave the same step size and references whose middle
is where it was. -/
theorem decode_mirror {t : Adpcm} {s s' : AdpcmState} {sample : BitVec 8} (hstep : s'.step = s.step)
    (hclear : t.Clear s sample) (hs : t.Unsaturated s sample) (hs' : t.Unsaturated s' (mirror sample)) :
    (t.decode s' (mirror sample)).step = (t.decode s sample).step ∧
      ((t.decode s' (mirror sample)).reference.toNat : Int) + (t.decode s sample).reference.toNat =
        s'.reference.toNat + s.reference.toNat := by
  obtain ⟨hmove, hnext⟩ := (signSymmetric_iff_clear t s sample).2 hclear
  constructor
  · show t.stepNext s'.step _ = t.stepNext s.step _
    rw [hstep, hnext]
  · rw [decode_reference_of_unsaturated _ _ _ hs, decode_reference_of_unsaturated _ _ _ hs', hstep, hmove]
    omega

theorem outputs_mirror {t : Adpcm} {samples : List (BitVec 8)} : ∀ {s s' : AdpcmState}, s'.step = s.step →
    t.Along t.Clear s samples → t.Along t.Unsaturated s samples → t.Along t.Unsaturated s' (samples.map mirror) →
    (t.outputs s' (samples.map mirror)).map (fun r => (r.toNat : Int)) =
      (t.outputs s samples).map (fun r => s'.reference.toNat + s.reference.toNat - (r.toNat : Int)) := by
  induction samples with
  | nil => intros; rfl
  | cons sample rest ih =>
    intro s s' hstep hclear hs hs'
    obtain ⟨hstep', hmiddle⟩ := decode_mirror hstep hclear.1 hs.1 hs'.1
    have hrest := ih hstep' hclear.2 hs.2 hs'.2
    rw [hmiddle] at hrest
    have hfirst : ((t.decode s' (mirror sample)).reference.toNat : Int) =
        s'.reference.toNat + s.reference.toNat - (t.decode s sample).reference.toNat := by omega
    show _ :: _ = _ :: _
    rw [hrest]
    exact congrArg (· :: _) hfirst

/-- A stream and its mirror image, decoded from one state, are mirrored at the reference they start from. -/
def StreamsMirror (s : AdpcmState) : Prop :=
  ∀ samples, t.Along t.Clear s samples → t.Along t.Unsaturated s samples →
    t.Along t.Unsaturated s (samples.map mirror) →
    (t.outputs s (samples.map mirror)).map (fun r => (r.toNat : Int)) =
      (t.outputs s samples).map (fun r => 2 * s.reference.toNat - (r.toNat : Int))

end Adpcm

/-! ## The decoder -/

/-- In a clock in which a code is decoded, the registers and the value played are what the code makes of them. -/
theorem Decoder.decodes {d : Decoder} {i : DecoderIn} (hrst : i.rstN = true) (hsw : i.swReset = false)
    (hactive : d.adpcmActive = true) (htype : i.adpcmType ≠ .none) :
    (d.step i).state = i.adpcmType.decode d.state d.adpcmSample ∧
      d.adpcmActiveValue i = (i.adpcmType.decode d.state d.adpcmSample).reference := by
  -- the sign of a sample is the top bit of the byte whatever the packing
  have hsign2 : (adpcm2bitSample d.adpcmSample).getLsbD 1 = d.adpcmSample.getLsbD 7 := by simp [adpcm2bitSample]
  have hsign3 : (adpcm3bitSample d.adpcmSample).getLsbD 2 = d.adpcmSample.getLsbD 7 := by simp [adpcm3bitSample]
  have hsign4 : (adpcm4bitSample d.adpcmSample).getLsbD 3 = d.adpcmSample.getLsbD 7 := by simp [adpcm4bitSample]
  have hstep : (d.step i).adpcmStep = i.adpcmType.stepNext d.adpcmStep d.adpcmSample := by
    show d.adpcmStepNext i = _
    unfold Decoder.adpcmStepNext
    rw [hrst, hsw, hactive]
    cases ht : i.adpcmType with
    | none => exact absurd ht htype
    | twoBit => rfl
    | threeBit => rfl
    | fourBit => rfl
  have hreference : (d.step i).adpcmReference = (i.adpcmType.decode d.state d.adpcmSample).reference := by
    show d.adpcmReferenceNext i = Z486.Sound.adpcmReferenceNext _ _ _
    unfold Decoder.adpcmReferenceNext adpcm2bitReferenceNext adpcm3bitReferenceNext adpcm4bitReferenceNext
    rw [hrst, hsw, hactive, hsign2, hsign3, hsign4]
    cases ht : i.adpcmType with
    | none => exact absurd ht htype
    | twoBit => rfl
    | threeBit => rfl
    | fourBit => rfl
  have hvalue : d.adpcmActiveValue i = (d.step i).adpcmReference := by
    show _ = d.adpcmReferenceNext i
    unfold Decoder.adpcmReferenceNext Decoder.adpcmActiveValue
    rw [hrst, hsw, hactive]
    cases ht : i.adpcmType with
    | none => exact absurd ht htype
    | twoBit => rfl
    | threeBit => rfl
    | fourBit => rfl
  refine ⟨?_, hvalue.trans hreference⟩
  show AdpcmState.mk _ _ = AdpcmState.mk _ _
  rw [hstep, hreference]
  rfl

/-- The sign is a sign for every code but those the table of the three bit format misreads; and so long as a stream has
no such code, its mirror image is played as its mirror image. -/
theorem Adpcm.signSymmetric (t : Adpcm) (s : AdpcmState) :
    (∀ sample, ((t.decode s sample).reference.toNat : Int) =
      max 0 (min 255 (s.reference.toNat + t.move s.step sample))) ∧
    (∀ sample, t.SignSymmetric s sample ↔ t.Clear s sample) ∧ t.StreamsMirror s := by
  refine ⟨t.decode_reference s, t.signSymmetric_iff_clear s, fun samples hclear hs hs' => ?_⟩
  rw [Adpcm.outputs_mirror rfl hclear hs hs', Int.two_mul]

/-- A time constant of one tick, command 77h with a length, and then the DMA's bytes: the reference 80h and the codes
3, 3 and 2, then 3, 3 and 0. -/
def threeBitTransfer (t : Nat) : DspIn × BitVec 8 :=
  let writes (value : BitVec 8) : DspIn := ⟨true, 1000000, 0xC, false, true, value, false, false, false, false⟩
  match t with
  | 0 => (⟨false, 1000000, 0, false, false, 0, false, false, false, false⟩, 0)
  | 1 => (writes 0x40, 0)
  | 2 => (writes 0xFF, 0)
  | 5 => (writes 0x77, 0)
  | 6 => (writes 0x10, 0)
  | 7 => (writes 0x00, 0)
  | t => (⟨true, 1000000, 0, false, false, 0, true, false, false, false⟩,
      if t = 12 then 0x80 else if t = 14 then 0x6D else 0x6C)

/-- At the fourth step size code 0 moves the reference up by 5, and code 4, the same with the sign, down by 35. -/
theorem threeBit_not_signSymmetric : ¬ ∀ (inp : Nat → DspIn × BitVec 8) (t : Nat),
    (run Dsp.decoding (default, default) inp t).2.adpcmActive = true →
    (run Dsp.decoding (default, default) inp t).1.adpcmType.SignSymmetric
      (run Dsp.decoding (default, default) inp t).2.state (run Dsp.decoding (default, default) inp t).2.adpcmSample := by
  intro h
  have hactive : (run Dsp.decoding (default, default) threeBitTransfer 21).2.adpcmActive = true := by decide +kernel
  have hmove := (h threeBitTransfer 21 hactive).1
  have hne : ¬ (run Dsp.decoding (default, default) threeBitTransfer 21).1.adpcmType.move
      (run Dsp.decoding (default, default) threeBitTransfer 21).2.adpcmStep
      (Adpcm.mirror (run Dsp.decoding (default, default) threeBitTransfer 21).2.adpcmSample) =
      -(run Dsp.decoding (default, default) threeBitTransfer 21).1.adpcmType.move
      (run Dsp.decoding (default, default) threeBitTransfer 21).2.adpcmStep
      (run Dsp.decoding (default, default) threeBitTransfer 21).2.adpcmSample := by decide +kernel
  exact hne hmove

end Z486.Sound
