/-
The dry mix of the sound sources (z486_mister.sv): the speaker, the CMS, the Sound Blaster, the OPL, the GUS, the CD and
the MT-32 are added in seventeen bits, and the sum is cut to sixteen by its top two bits. That is right so long as the
sum needs no more than seventeen bits; with three sources at full scale it does.
-/
import Z486.Clocked.Bits
import Z486.Clocked.Run

namespace Z486.Sound

open Clocked

/-! ## Registers -/

inductive Side
  | left
  | right
  deriving DecidableEq, Repr

/-- The sources of one side, after their volumes. -/
structure MixSources where
  sampleCms : BitVec 9
  sb : BitVec 16
  opl : BitVec 16
  sampleGus : BitVec 16
  cd : BitVec 16
  mt32 : BitVec 16

structure MixIn where
  speakerOutAudio : Bool
  /-- `status[19:18]` -/
  speakerLevel : BitVec 2
  volSpk : BitVec 2
  sbVolumeValid : Bool
  /-- `status[56]` -/
  sbSwap : Bool
  volEn : BitVec 5
  mt32Mute : Bool
  sources : Side → MixSources

structure Mixer where
  spk : BitVec 17
  spkOut : BitVec 17
  mixTmp : Side → BitVec 17
  mixDry : Side → BitVec 16

namespace MixIn

variable (i : MixIn) (side : Side)

def other : Side → Side
  | .left => .right
  | .right => .left

/-- `sb_l_swap` and `sb_r_swap`. -/
def sbSwapped : BitVec 16 := if i.sbSwap then (i.sources (other side)).sb else (i.sources side).sb

def cdEn : Bool := match side with
  | .left => i.volEn.getLsbD 2
  | .right => i.volEn.getLsbD 1

end MixIn

/-- `{2'b00, sample_cms, sample_cms[8:4]}` -/
def cmsScaled (sampleCms : BitVec 9) : BitVec 16 := 0#2 ++ sampleCms ++ sampleCms.extractLsb' 4 5

/-- The sum of the sources of a side, as it is added up. -/
def mixSum (spkOut : BitVec 17) (i : MixIn) (side : Side) : BitVec 17 :=
  spkOut + (cmsScaled (i.sources side).sampleCms).setWidth 17 + (i.sbSwapped side).signExtend 17 +
    (i.sources side).opl.signExtend 17 + (i.sources side).sampleGus.signExtend 17 +
    (if i.cdEn side then (i.sources side).cd.signExtend 17 else 0) +
    (if i.mt32Mute then 0 else (i.sources side).mt32.signExtend 17)

/-- Sixteen bits of seventeen: the largest or the smallest of them when the top two bits differ. -/
def mixClip (mixTmp : BitVec 17) : BitVec 16 :=
  if mixTmp.getLsbD 16 ^^ mixTmp.getLsbD 15 then 
    BitVec.ofBool (mixTmp.getLsbD 16) ++ (if mixTmp.getLsbD 15 then BitVec.allOnes 15 else 0)
  else mixTmp.setWidth 16

namespace Mixer

variable (s : Mixer) (i : MixIn)

def step : Mixer where
  spk := 0#2 ++ ((0#3 ++ BitVec.ofBool i.speakerOutAudio) <<< i.speakerLevel) ++ 0#11
  spkOut := s.spk >>> ~~~i.volSpk
  mixTmp := fun side => if i.sbVolumeValid then mixSum s.spkOut i side else s.mixTmp side
  mixDry := fun side => mixClip (s.mixTmp side)

end Mixer

/-! ## The exact sum -/

/-- The sum of the sources, not cut to any width. -/
def mixExact (spkOut : BitVec 17) (i : MixIn) (side : Side) : Int :=
  spkOut.toNat + (cmsScaled (i.sources side).sampleCms).toNat + (i.sbSwapped side).toInt +
    (i.sources side).opl.toInt + (i.sources side).sampleGus.toInt +
    (if i.cdEn side then (i.sources side).cd.toInt else 0) +
    (if i.mt32Mute then 0 else (i.sources side).mt32.toInt)

/-- The signed sixteen bit number nearest to `x`. -/
def clamp16 (x : Int) : Int := max (-32768) (min 32767 x)

/-! ## The cut -/

/-- The cut is right for every number of seventeen bits. -/
theorem mixClip_toInt (x : BitVec 17) : (mixClip x).toInt = clamp16 x.toInt := by
  have hx := x.isLt
  have h16 : x.getLsbD 16 = decide (65536 ≤ x.toNat) := getLsbD_top x
  have h15 : x.getLsbD 15 = decide (x.toNat / 32768 % 2 = 1) := getLsbD_eq_decide x _
  unfold mixClip clamp16
  rw [BitVec.toInt_eq_toNat_cond x, h16, h15]
  by_cases hhigh : 65536 ≤ x.toNat
  · by_cases hlow : x.toNat / 32768 % 2 = 1
    · rw [decide_eq_true hhigh, decide_eq_true hlow, if_neg (by decide), BitVec.toInt_eq_toNat_cond,
        BitVec.toNat_setWidth]
      omega
    · rw [decide_eq_true hhigh, decide_eq_false hlow]
      show (-32768 : Int) = _
      omega
  · by_cases hlow : x.toNat / 32768 % 2 = 1
    · rw [decide_eq_false hhigh, decide_eq_true hlow]
      show (32767 : Int) = _
      omega
    · rw [decide_eq_false hhigh, decide_eq_false hlow, if_neg (by decide), BitVec.toInt_eq_toNat_cond,
        BitVec.toNat_setWidth]
      omega

/-! ## The sum -/

theorem signExtend_of (b : Bool) (x : BitVec 16) :
    (if b then x.signExtend 17 else 0) = BitVec.ofInt 17 (if b then x.toInt else 0) := by
  cases b <;> rfl

theorem mixSum_eq (spkOut : BitVec 17) (i : MixIn) (side : Side) :
    mixSum spkOut i side = BitVec.ofInt 17 (mixExact spkOut i side) := by
  have hspk : spkOut = BitVec.ofInt 17 spkOut.toNat := by rw [BitVec.ofInt_natCast, BitVec.ofNat_toNat]; simp
  have hcms : (cmsScaled (i.sources side).sampleCms).setWidth 17 =
      BitVec.ofInt 17 (cmsScaled (i.sources side).sampleCms).toNat := by
    rw [BitVec.ofInt_natCast, BitVec.ofNat_toNat]
  have hmt32 : (if i.mt32Mute then 0 else (i.sources side).mt32.signExtend 17) =
      BitVec.ofInt 17 (if i.mt32Mute then 0 else (i.sources side).mt32.toInt) := by
    cases i.mt32Mute <;> rfl
  unfold mixSum mixExact
  rw [signExtend_of, hmt32, hcms]
  conv_lhs => rw [hspk]
  simp only [BitVec.ofInt_add]
  rfl

/-- The sum is the exact one but for multiples of 131072. -/
theorem mixSum_toInt (spkOut : BitVec 17) (i : MixIn) (side : Side) :
    (mixSum spkOut i side).toInt = (mixExact spkOut i side).bmod 131072 := by
  rw [mixSum_eq, BitVec.toInt_ofInt]

theorem toInt_bounds (x : BitVec 16) : -32768 ≤ x.toInt ∧ x.toInt ≤ 32767 := by
  have hx := x.isLt
  rw [BitVec.toInt_eq_toNat_cond]
  split <;> omega

theorem cmsScaled_toNat (sampleCms : BitVec 9) :
    (cmsScaled sampleCms).toNat = sampleCms.toNat * 32 + sampleCms.toNat / 16 := by
  revert sampleCms
  decide

/-- What the sources can add up to when the speaker is at most at 4000h. -/
theorem mixExact_bounds {spkOut : BitVec 17} (hspk : spkOut.toNat ≤ 16384) (i : MixIn) (side : Side) :
    -163840 ≤ mixExact spkOut i side ∧ mixExact spkOut i side ≤ 196603 := by
  have hcms := (i.sources side).sampleCms.isLt
  have hscaled := cmsScaled_toNat (i.sources side).sampleCms
  have hsb := toInt_bounds (i.sbSwapped side)
  have hopl := toInt_bounds (i.sources side).opl
  have hgus := toInt_bounds (i.sources side).sampleGus
  have hcd := toInt_bounds (i.sources side).cd
  have hmt32 := toInt_bounds (i.sources side).mt32
  unfold mixExact
  split_ifs <;> omega

/-- The exact sum fits into seventeen bits, or comes round to the right end again. -/
def MixFits (x : Int) : Prop := -65536 ≤ x ∧ x ≤ 65535 ∨ 163839 ≤ x ∨ x ≤ -163840

/-- No source of the first mix is above that of the second. -/
structure MixLe (spkOut : BitVec 17) (i : MixIn) (spkOut' : BitVec 17) (i' : MixIn) (side : Side) : Prop where
  speaker : spkOut.toNat ≤ spkOut'.toNat
  cms : (i.sources side).sampleCms.toNat ≤ (i'.sources side).sampleCms.toNat
  sb : (i.sbSwapped side).toInt ≤ (i'.sbSwapped side).toInt
  opl : (i.sources side).opl.toInt ≤ (i'.sources side).opl.toInt
  gus : (i.sources side).sampleGus.toInt ≤ (i'.sources side).sampleGus.toInt
  cd : (i.sources side).cd.toInt ≤ (i'.sources side).cd.toInt
  mt32 : (i.sources side).mt32.toInt ≤ (i'.sources side).mt32.toInt
  cdEn : i.cdEn side = i'.cdEn side
  mute : i.mt32Mute = i'.mt32Mute

theorem mixExact_mono {spkOut spkOut' : BitVec 17} {i i' : MixIn} {side : Side} (h : MixLe spkOut i spkOut' i' side) :
    mixExact spkOut i side ≤ mixExact spkOut' i' side := by
  obtain ⟨hspk, hcms, hsb, hopl, hgus, hcd, hmt32, hen, hmute⟩ := h
  have hscaled := cmsScaled_toNat (i.sources side).sampleCms
  have hscaled' := cmsScaled_toNat (i'.sources side).sampleCms
  unfold mixExact
  rw [hen, hmute]
  split_ifs <;> omega

theorem clamp16_bmod_iff {x : Int} (h : -163840 ≤ x ∧ x ≤ 196603) : clamp16 (x.bmod 131072) = clamp16 x ↔ MixFits x := by
  unfold clamp16 MixFits
  have hmod : x.bmod 131072 = if x % 131072 < 65536 then x % 131072 else x % 131072 - 131072 := by
    rw [Int.bmod_def]; rfl
  rw [hmod]
  split_ifs <;> omega

theorem clamp16_mono {x y : Int} (h : x ≤ y) : clamp16 x ≤ clamp16 y := by
  unfold clamp16; omega

/-! ## Runs -/

namespace Mixer

variable (s₀ : Mixer) (inp : Nat → MixIn)

theorem speaker_le (speakerOutAudio : Bool) (level : BitVec 2) :
    (0#2 ++ ((0#3 ++ BitVec.ofBool speakerOutAudio) <<< level) ++ 0#11).toNat ≤ 16384 := by
  revert level
  cases speakerOutAudio <;> decide

/-- From the second clock on the speaker is at most at 4000h. -/
theorem spkOut_le (t : Nat) : (run step s₀ inp (t + 2)).spkOut.toNat ≤ 16384 := by
  have hspk : (run step s₀ inp (t + 1)).spk.toNat ≤ 16384 := by
    rw [run_succ]
    exact speaker_le _ _
  rw [run_succ]
  show ((run step s₀ inp (t + 1)).spk >>> ~~~(inp (t + 1)).volSpk).toNat ≤ _
  rw [BitVec.ushiftRight_eq', BitVec.toNat_ushiftRight, Nat.shiftRight_eq_div_pow]
  exact (Nat.div_le_self _ _).trans hspk

/-- The mix of the sources of clock `t` is there two clocks later. -/
theorem mixDry_run {t : Nat} (hvalid : (inp t).sbVolumeValid = true) (side : Side) :
    ((run step s₀ inp (t + 2)).mixDry side).toInt =
      clamp16 ((mixExact (run step s₀ inp t).spkOut (inp t) side).bmod 131072) := by
  have htmp : (run step s₀ inp (t + 1)).mixTmp side = mixSum (run step s₀ inp t).spkOut (inp t) side := by
    rw [run_succ]
    show (if (inp t).sbVolumeValid then _ else _) = _
    rw [if_pos hvalid]
  rw [run_succ]
  show (mixClip _).toInt = _
  rw [htmp, mixClip_toInt, mixSum_toInt]

/-- The sum that is added up in clock `t`. -/
def exact (t : Nat) (side : Side) : Int := mixExact (run step s₀ inp t).spkOut (inp t) side

/-- The mix of clock `t` is the exact sum, cut to sixteen bits. -/
def MixesExactly (t : Nat) (side : Side) : Prop :=
  ((run step s₀ inp (t + 2)).mixDry side).toInt = clamp16 (exact s₀ inp t side)

/-- The mix is the exact sum, cut to sixteen bits, just when the sum fits; and where it fits, a louder source never makes
the mix less. -/
theorem mixesExactly_iff {t : Nat} (hvalid : (inp (t + 2)).sbVolumeValid = true) (side : Side) :
    (MixesExactly s₀ inp (t + 2) side ↔ MixFits (exact s₀ inp (t + 2) side)) ∧
    ∀ (s₁ : Mixer) (inp' : Nat → MixIn) (u : Nat), (inp' (u + 2)).sbVolumeValid = true →
      MixFits (exact s₀ inp (t + 2) side) → MixFits (exact s₁ inp' (u + 2) side) →
      MixLe (run step s₀ inp (t + 2)).spkOut (inp (t + 2)) (run step s₁ inp' (u + 2)).spkOut (inp' (u + 2)) side →
      ((run step s₀ inp (t + 4)).mixDry side).toInt ≤ ((run step s₁ inp' (u + 4)).mixDry side).toInt := by
  have hiff : ∀ (s₁ : Mixer) (inp' : Nat → MixIn) (u : Nat), (inp' (u + 2)).sbVolumeValid = true →
      (MixesExactly s₁ inp' (u + 2) side ↔ MixFits (exact s₁ inp' (u + 2) side)) := by
    intro s₁ inp' u hu
    unfold MixesExactly
    rw [mixDry_run s₁ inp' hu side]
    exact clamp16_bmod_iff (mixExact_bounds (spkOut_le s₁ inp' u) _ _)
  refine ⟨hiff s₀ inp t hvalid, fun s₁ inp' u hu hfits hfits' hle => ?_⟩
  rw [(hiff s₀ inp t hvalid).2 hfits, (hiff s₁ inp' u hu).2 hfits']
  exact clamp16_mono (mixExact_mono hle)

end Mixer

/-- Three sources at full scale. -/
def fullScale : MixIn where
  speakerOutAudio := false
  speakerLevel := 0
  volSpk := 0
  sbVolumeValid := true
  sbSwap := false
  volEn := 0
  mt32Mute := true
  sources := fun _ => ⟨0, 0x7FFF, 0x7FFF, 0x7FFF, 0, 0⟩

def silent : Mixer := ⟨0, 0, fun _ => 0, fun _ => 0⟩

/-- Full scale is kept within the sum. -/
theorem Mixer.mixesExactly_iff_fullScale :
    MixesExactly silent (fun _ => { fullScale with sources := fun _ => ⟨0, 0x7FFF, 0, 0x7FFF, 0, 0⟩ }) 2 .left :=
  (mixesExactly_iff silent (fun _ => { fullScale with sources := fun _ => ⟨0, 0x7FFF, 0, 0x7FFF, 0, 0⟩ }) (t := 0) rfl
    .left).1.2 (Or.inl (by decide))

/-- With the Sound Blaster, the OPL and the GUS at full scale the mix is the smallest number. -/
theorem Mixer.fullScale_wraps : ¬ ∀ (s₀ : Mixer) (inp : Nat → MixIn) (t : Nat) (side : Side),
    (inp t).sbVolumeValid = true → MixesExactly s₀ inp t side := by
  intro h
  have hmix : ((run Mixer.step silent (fun _ => fullScale) 4).mixDry .left).toInt = -32768 := by decide
  have hexact : clamp16 (Mixer.exact silent (fun _ => fullScale) 2 .left) = 32767 := by decide
  have hclaim := h silent (fun _ => fullScale) 2 .left rfl
  rw [MixesExactly, hmix, hexact] at hclaim
  exact absurd hclaim (by decide)

end Z486.Sound
