/-
Gray codes between two clocks. A counter kept as a Gray code in one clock domain changes in one bit at
a time, so a register of the other domain that samples it while it moves, each changing bit being seen
as it was or as it becomes, holds the code of the counter before or after the move.
-/
import Mathlib.Algebra.Group.Nat.Defs
import Mathlib.Data.Nat.Bits
import Mathlib.Tactic.Common

namespace Clocked

variable {w : Nat}

/-! ## Sampling a word that changes -/

/-- What a register takes from a word that changes from `old` to `new` at its edge: the bits of `mask`
are seen new, the others old. -/
def mix (mask old new : BitVec w) : BitVec w := (mask &&& new) ||| (~~~mask &&& old)

theorem mix_getLsbD (mask old new : BitVec w) {i : Nat} (hi : i < w) :
    (mix mask old new).getLsbD i = if mask.getLsbD i then new.getLsbD i else old.getLsbD i := by
  rw [mix, BitVec.getLsbD_or, BitVec.getLsbD_and, BitVec.getLsbD_and, BitVec.getLsbD_not]
  cases mask.getLsbD i
  · simp [hi]
  · simp

@[simp] theorem mix_self (mask x : BitVec w) : mix mask x x = x := by
  refine BitVec.eq_of_getLsbD_eq fun i hi => ?_
  rw [mix_getLsbD _ _ _ hi, ite_self]

/-- A word that changes in one bit is seen as it was or as it becomes. -/
theorem mix_of_one {mask old new : BitVec w}
    (h : ∀ i j, i < w → j < w → old.getLsbD i ≠ new.getLsbD i → old.getLsbD j ≠ new.getLsbD j → i = j) :
    mix mask old new = old ∨ mix mask old new = new := by
  by_cases hseen : ∃ i, i < w ∧ old.getLsbD i ≠ new.getLsbD i ∧ mask.getLsbD i = true
  · obtain ⟨i, hi, hdiff, hmask⟩ := hseen
    refine .inr (BitVec.eq_of_getLsbD_eq fun j hj => ?_)
    rw [mix_getLsbD _ _ _ hj]
    by_cases hj' : old.getLsbD j = new.getLsbD j
    · rw [hj', ite_self]
    · rw [← h i j hi hj hdiff hj', hmask, if_pos rfl]
  · refine .inl (BitVec.eq_of_getLsbD_eq fun j hj => ?_)
    rw [mix_getLsbD _ _ _ hj]
    by_cases hj' : old.getLsbD j = new.getLsbD j
    · rw [hj', ite_self]
    · rw [if_neg fun hmask => hseen ⟨j, hj, hj', hmask⟩]

/-! ## Gray codes -/

/-- The Gray code of a counter. -/
def gray (x : BitVec w) : BitVec w := x ^^^ (x >>> 1)

theorem gray_getLsbD (x : BitVec w) (i : Nat) : (gray x).getLsbD i = (x.getLsbD i ^^ x.getLsbD (i + 1)) := by
  simp [gray, Nat.add_comm]

/-- A bit of a counter flips at a step when the bits below it are all ones. -/
theorem getLsbD_succ (x : BitVec w) {i : Nat} (hi : i < w) :
    (x + 1).getLsbD i = (x.getLsbD i ^^ decide (2 ^ i ∣ x.toNat + 1)) := by
  have hone : (1 : BitVec w).toNat = 1 := by
    rw [show (1 : BitVec w) = BitVec.ofNat w 1 from rfl, BitVec.toNat_ofNat]
    exact Nat.mod_eq_of_lt (Nat.one_lt_two_pow (by omega))
  rw [BitVec.getLsbD, BitVec.getLsbD, BitVec.toNat_add, hone, Nat.testBit_mod_two_pow, decide_eq_true hi,
    Bool.true_and, Nat.testBit_eq_decide_div_mod_eq, Nat.testBit_eq_decide_div_mod_eq, Nat.succ_div]
  by_cases hdvd : 2 ^ i ∣ x.toNat + 1
  · rcases Nat.mod_two_eq_zero_or_one (x.toNat / 2 ^ i) with hb | hb
    · simp [hdvd, hb, Nat.add_mod]
    · simp [hdvd, hb, Nat.add_mod]
  · simp [hdvd]

/-- The one bit in which the codes of a counter and its successor differ: the highest that flips. -/
theorem gray_succ_differs (x : BitVec w) {i : Nat} (hi : i < w)
    (h : (gray x).getLsbD i ≠ (gray (x + 1)).getLsbD i) :
    2 ^ i ∣ x.toNat + 1 ∧ (i + 1 < w → ¬ 2 ^ (i + 1) ∣ x.toNat + 1) := by
  rw [gray_getLsbD, gray_getLsbD, getLsbD_succ x hi] at h
  by_cases hw : i + 1 < w
  · rw [getLsbD_succ x hw] at h
    by_cases hup : 2 ^ (i + 1) ∣ x.toNat + 1
    · have hlow : 2 ^ i ∣ x.toNat + 1 := Nat.dvd_trans (Nat.pow_dvd_pow 2 (Nat.le_succ i)) hup
      simp [hup, hlow] at h
    · by_cases hlow : 2 ^ i ∣ x.toNat + 1
      · exact ⟨hlow, fun _ => hup⟩
      · simp [hup, hlow] at h
  · rw [BitVec.getLsbD_of_ge x (i + 1) (by omega), BitVec.getLsbD_of_ge (x + 1) (i + 1) (by omega)] at h
    by_cases hlow : 2 ^ i ∣ x.toNat + 1
    · exact ⟨hlow, fun hlt => absurd hlt hw⟩
    · simp [hlow] at h

/-- A counter that counts up is seen before or after the count. -/
theorem mix_gray_succ (mask x : BitVec w) :
    mix mask (gray x) (gray (x + 1)) = gray x ∨ mix mask (gray x) (gray (x + 1)) = gray (x + 1) := by
  refine mix_of_one fun i j hi hj hdi hdj => ?_
  obtain ⟨hi1, hi2⟩ := gray_succ_differs x hi hdi
  obtain ⟨hj1, hj2⟩ := gray_succ_differs x hj hdj
  rcases Nat.lt_trichotomy i j with hlt | heq | hgt
  · exact absurd (Nat.dvd_trans (Nat.pow_dvd_pow 2 hlt) hj1) (hi2 (by omega))
  · exact heq
  · exact absurd (Nat.dvd_trans (Nat.pow_dvd_pow 2 hgt) hi1) (hj2 (by omega))

end Clocked
