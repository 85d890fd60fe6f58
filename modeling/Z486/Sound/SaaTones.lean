/-
The tones of the SAA1099 (src/soc/sound/saa1099.sv). Half a period of a channel is as many enables as its frequency and its
octave say when it begins; a register that is written in the middle of it counts from the next half on.
-/
import Z486.Clocked.Pulse
import Z486.Clocked.Reload
import Z486.Sound.SaaSound

namespace Z486.Sound

open Clocked

/-! ## A generator -/

structure SaaToneIn where
  rst : Bool
  ce : Bool
  octave : BitVec 3
  freq : BitVec 8

/-- The enables of half a period. -/
def SaaToneIn.half (i : SaaToneIn) : Nat := (511 - i.freq.toNat) * 2 ^ (8 - i.octave.toNat)

theorem SaaToneIn.half_pos (i : SaaToneIn) : 0 < i.half :=
  Nat.mul_pos (by have := i.freq.isLt; omega) (Nat.two_pow_pos _)

/-- The count is one less, and fits its seventeen bits. -/
theorem SaaTone.fcount_toNat (i : SaaToneIn) : (fcount i.octave i.freq).toNat + 1 = i.half := by
  have hfreq := i.freq.isLt
  have hpow : 2 ^ (8 - i.octave.toNat) ≤ 2 ^ 8 := Nat.pow_le_pow_right (by decide) (Nat.sub_le _ _)
  have hdiff : (511#17 - i.freq.setWidth 17).toNat = 511 - i.freq.toNat := by
    rw [BitVec.toNat_sub_of_le, BitVec.toNat_setWidth, BitVec.toNat_ofNat, Nat.mod_eq_of_lt (by omega),
      Nat.mod_eq_of_lt (by omega)]
    rw [BitVec.le_def, BitVec.toNat_setWidth, BitVec.toNat_ofNat]
    omega
  have hfits : i.half < 2 ^ 17 := by
    have := Nat.mul_le_mul (Nat.sub_le 511 i.freq.toNat) hpow
    unfold SaaToneIn.half
    omega
  have hshift : ((511#17 - i.freq.setWidth 17) <<< (8 - i.octave.toNat)).toNat = i.half := by
    rw [BitVec.toNat_shiftLeft, hdiff, Nat.shiftLeft_eq]
    exact Nat.mod_eq_of_lt hfits
  have hpos := i.half_pos
  unfold fcount
  rw [BitVec.toNat_sub_of_le, hshift]
  · exact Nat.sub_add_cancel hpos
  · rw [BitVec.le_def, hshift]
    exact hpos

structure SaaToneRun where
  start : SaaTone
  inputs : Nat → SaaToneIn

namespace SaaToneRun

variable (r : SaaToneRun)

def state : Nat → SaaTone :=
  run (fun s i => SaaTone.step s i.rst i.ce i.octave i.freq) r.start r.inputs

/-- The generator turns over. -/
def flips (t : Nat) : Bool := !(r.inputs t).rst && ((r.inputs t).ce && (r.state t).count == 0)

/-- Half a period begins with a reset or where the generator turns over. -/
def Begins (t : Nat) : Prop := (r.inputs t).rst = true ∨ r.flips t = true

def ce (t : Nat) : Bool := (r.inputs t).ce

theorem state_succ (t : Nat) : r.state (t + 1) =
    SaaTone.step (r.state t) (r.inputs t).rst (r.inputs t).ce (r.inputs t).octave (r.inputs t).freq := rfl

theorem out_succ (t : Nat) :
    (r.state (t + 1)).out = (!(r.inputs t).rst && ((r.state t).out ^^ r.flips t)) ∧ (r.state (t + 1)).pulse = r.flips t := by
  rw [state_succ]
  unfold SaaTone.step flips
  cases (r.inputs t).rst <;> cases (r.inputs t).ce <;> cases (r.state t).count == 0 <;> simp

theorem count_begins {t : Nat} (h : r.Begins t) : (r.state (t + 1)).count.toNat + 1 = (r.inputs t).half := by
  rw [← SaaTone.fcount_toNat, state_succ]
  congr 2
  unfold Begins flips at h
  unfold SaaTone.step
  revert h
  cases (r.inputs t).rst <;> cases (r.inputs t).ce <;> cases (r.state t).count == 0 <;> simp

theorem count_goes {t : Nat} (hrst : (r.inputs t).rst = false) (hno : r.flips t = false) :
    (r.state (t + 1)).count.toNat = (if r.ce t then (r.state t).count.toNat - 1 else (r.state t).count.toNat) ∧
      (r.ce t = true → 0 < (r.state t).count.toNat) := by
  unfold flips at hno
  rw [hrst] at hno
  rw [state_succ]
  unfold SaaTone.step ce
  rw [hrst, if_neg Bool.false_ne_true]
  cases hce : (r.inputs t).ce with
  | false => exact ⟨rfl, nofun⟩
  | true =>
    rw [hce] at hno
    have hne : (r.state t).count ≠ 0 := by simpa using hno
    have hpos : 0 < (r.state t).count.toNat := by
      rw [Nat.pos_iff_ne_zero]
      exact fun hzero => hne (BitVec.eq_of_toNat_eq hzero)
    rw [if_pos rfl, if_pos rfl, if_neg (by simpa using hne)]
    refine ⟨?_, fun _ => hpos⟩
    show ((r.state t).count - 1).toNat = _
    rw [BitVec.toNat_sub_of_le (by rw [BitVec.le_def]; exact hpos)]
    rfl

/-- The generator turns over next when the half period that has begun is full, by the registers of its beginning. -/
theorem flips_iff {a b : Nat} (hbegins : r.Begins a) (hab : a < b)
    (hrst : ∀ u, a < u → u ≤ b → (r.inputs u).rst = false) (hfirst : ∀ u, a < u → u < b → r.flips u = false) :
    r.flips b = true ↔ r.ce b = true ∧ pulses r.ce (a + 1) b + 1 = (r.inputs a).half := by
  have hzero : (r.state b).count.toNat = 0 ↔ pulses r.ce (a + 1) b + 1 = (r.inputs a).half :=
    @countdown_zero_iff (fun u => (r.state u).count.toNat) _ _ _ _ hab (r.count_begins hbegins)
      (fun u hau hub => (r.count_goes (hrst u hau (Nat.le_of_lt hub)) (hfirst u hau hub)).1)
      fun u hau hub => (r.count_goes (hrst u hau (Nat.le_of_lt hub)) (hfirst u hau hub)).2
  rw [← hzero]
  unfold flips ce
  rw [hrst b hab (Nat.le_refl b), Bool.not_false, Bool.true_and, Bool.and_eq_true, beq_iff_eq]
  refine and_congr_right fun _ => ⟨fun hcount => ?_, fun hcount => BitVec.eq_of_toNat_eq hcount⟩
  rw [hcount]
  rfl

/-- While the registers are held, the tone is a square wave of the enables. -/
theorem steady {a b : Nat} (hreset : (r.inputs a).rst = true) (hab : a < b)
    (hrst : ∀ u, a < u → u < b → (r.inputs u).rst = false)
    (hheld : ∀ u, a < u → u < b → (r.inputs u).half = (r.inputs a).half) :
    (r.state b).out = decide (pulses r.ce (a + 1) b / (r.inputs a).half % 2 = 1) ∧
      (r.state b).count.toNat + pulses r.ce (a + 1) b % (r.inputs a).half + 1 = (r.inputs a).half := by
  have hpos := (r.inputs a).half_pos
  induction b, hab using Nat.le_induction with
  | base =>
    have hcount := r.count_begins (.inl hreset)
    rw [(r.out_succ a).1, hreset, pulses_self, Nat.zero_div, Nat.zero_mod]
    exact ⟨rfl, hcount⟩
  | succ b hab ih =>
    obtain ⟨hout, hleft⟩ := ih (fun u hau hub => hrst u hau (by omega)) fun u hau hub => hheld u hau (by omega)
    have hle : a + 1 ≤ b := hab
    have hno := hrst b hab (Nat.lt_succ_self b)
    have hhalf := hheld b hab (Nat.lt_succ_self b)
    rw [(r.out_succ b).1, hno, Bool.not_false, Bool.true_and, hout, pulses_succ r.ce hle]
    cases hflips : r.flips b with
    | false =>
      obtain ⟨hcount, hmore⟩ := r.count_goes hno hflips
      rw [hcount, Bool.xor_false]
      cases hce : r.ce b with
      | false =>
        rw [if_neg Bool.false_ne_true, if_neg Bool.false_ne_true, Nat.add_zero]
        exact ⟨rfl, hleft⟩
      | true =>
        have hsome := hmore hce
        have hround : pulses r.ce (a + 1) b % (r.inputs a).half + 1 ≠ (r.inputs a).half := by omega
        rw [if_pos rfl, if_pos rfl, succ_div_round hpos, succ_mod hpos, if_neg hround, if_neg hround]
        exact ⟨rfl, by omega⟩
    | true =>
      have hcount := r.count_begins (.inr hflips)
      have hgo : r.ce b = true ∧ (r.state b).count = 0 := by
        unfold flips at hflips
        rw [hno, Bool.not_false, Bool.true_and, Bool.and_eq_true, beq_iff_eq] at hflips
        exact hflips
      have hround : pulses r.ce (a + 1) b % (r.inputs a).half + 1 = (r.inputs a).half := by
        rw [hgo.2] at hleft
        simpa using hleft
      rw [if_pos hgo.1, succ_div_round hpos, succ_mod hpos, if_pos hround, if_pos hround, Bool.xor_true]
      refine ⟨?_, by omega⟩
      generalize pulses r.ce (a + 1) b / (r.inputs a).half = turns
      rw [← decide_not]
      exact decide_eq_decide.2 (by omega)

/-- What a generator plays, whatever its registers are set to and when. -/
structure Plays : Prop where
  out : ∀ t, (r.state (t + 1)).out = (!(r.inputs t).rst && ((r.state t).out ^^ r.flips t))
  next : ∀ a b, r.Begins a → a < b → (∀ u, a < u → u ≤ b → (r.inputs u).rst = false) →
    (∀ u, a < u → u < b → r.flips u = false) →
    (r.flips b = true ↔ r.ce b = true ∧ pulses r.ce (a + 1) b + 1 = (r.inputs a).half)
  steady : ∀ a b, (r.inputs a).rst = true → a < b → (∀ u, a < u → u < b → (r.inputs u).rst = false) →
    (∀ u, a < u → u < b → (r.inputs u).half = (r.inputs a).half) →
    (r.state b).out = decide (pulses r.ce (a + 1) b / (r.inputs a).half % 2 = 1)

end SaaToneRun

/-! ## The tones of the chip -/

namespace SaaRun

variable (r : SaaRun)

/-- The triplets, and what they are given. -/
def triplet (lower : Bool) (t : Nat) : SaaTriplet := if lower then (r.state t).bottom else (r.state t).top

def tripletIn (lower : Bool) (t : Nat) : SaaTripletIn :=
  if lower then (r.state t).bottomIn (r.inputs t) else (r.state t).topIn (r.inputs t)

theorem triplet_succ (lower : Bool) (t : Nat) :
    r.triplet lower (t + 1) = (r.triplet lower t).step (r.tripletIn lower t) := by
  cases lower <;> rfl

/-- A generator of the chip. -/
def tone (lower : Bool) (k : Fin 3) : SaaToneRun where
  start := (r.triplet lower 0).tone k
  inputs := fun t =>
    ⟨(r.tripletIn lower t).rst, (r.tripletIn lower t).ce, (r.tripletIn lower t).octave k, (r.tripletIn lower t).freq k⟩

/-- Each of the six channels plays half periods of `(511 - freq) * 2 ^ (8 - octave)` enables. -/
theorem tones (lower : Bool) (k : Fin 3) :
    (∀ t, (r.triplet lower t).tone k = (r.tone lower k).state t) ∧ (r.tone lower k).Plays := by
  refine ⟨fun t => ?_, fun t => ((r.tone lower k).out_succ t).1,
    fun a b hbegins hab hrst hfirst => (r.tone lower k).flips_iff hbegins hab hrst hfirst,
    fun a b hreset hab hrst hheld => ((r.tone lower k).steady hreset hab hrst hheld).1⟩
  induction t with
  | zero => rfl
  | succ t ih =>
    rw [triplet_succ, SaaToneRun.state_succ, ← ih]
    rfl

end SaaRun

end Z486.Sound
