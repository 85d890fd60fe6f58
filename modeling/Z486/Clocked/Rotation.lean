/-
Rotating priorities. Of `2 ^ w` levels in a circle one has the lowest priority, and the level behind it the highest;
the rank of a level is the number of levels that go before it. To move the lowest priority on is to turn the circle:
the distances between the levels stay, and the level that is made the lowest goes behind all others.
-/
import Mathlib.Tactic.Common

namespace Clocked.Rotation

variable {w : Nat}

/-- The number of levels that go before level `k`. -/
def rank (lowest k : BitVec w) : BitVec w := k - lowest - 1

variable {lowest j k : BitVec w}

theorem rank_add (lowest r : BitVec w) : rank lowest (lowest + r + 1) = r := by
  unfold rank
  grind

theorem add_rank (lowest k : BitVec w) : lowest + rank lowest k + 1 = k := by
  unfold rank
  grind

theorem rank_inj (h : rank lowest j = rank lowest k) : j = k := by
  rw [← add_rank lowest j, h, add_rank]

theorem rank_lt_of_le (hne : j ≠ k) (h : rank lowest j ≤ rank lowest k) : rank lowest j < rank lowest k :=
  BitVec.lt_of_le_ne h fun heq => hne (rank_inj heq)

/-- The distance between two levels does not depend on where the circle begins. -/
theorem rank_sub (lowest j k : BitVec w) : rank lowest j - rank lowest k = j - k := by
  unfold rank
  grind

/-! ## Turning the circle -/

theorem rank_lowest (lowest : BitVec w) : rank lowest lowest = BitVec.allOnes w := by
  unfold rank
  rw [BitVec.sub_self, BitVec.zero_sub]
  exact BitVec.neg_one_eq_allOnes

/-- The level that is made the lowest goes behind every other. -/
theorem rank_lt_lowest (hne : k ≠ lowest) : rank lowest k < rank lowest lowest := by
  refine rank_lt_of_le hne ?_
  rw [rank_lowest, BitVec.le_def, BitVec.toNat_allOnes]
  have hlt := (rank lowest k).isLt
  omega

theorem rank_succ (lowest k : BitVec w) : rank (lowest + 1) k = rank lowest k - 1 := by
  unfold rank
  grind

theorem rank_eq_zero : rank lowest k = 0 ↔ k = lowest + 1 := by
  constructor
  · intro h
    have hadd := add_rank lowest k
    rw [h] at hadd
    rw [← hadd]
    grind
  · rintro rfl
    unfold rank
    grind

/-- When the first level is made the lowest, two others keep their order. -/
theorem rank_lt_succ (hne : k ≠ lowest + 1) (h : rank lowest k < rank lowest j) :
    rank (lowest + 1) k < rank (lowest + 1) j := by
  have hk : rank lowest k ≠ 0 := fun h0 => hne (rank_eq_zero.1 h0)
  have hpred : ∀ {x : BitVec w}, x ≠ 0 → (x - 1).toNat = x.toNat - 1 := by
    intro x hx
    have hpos : x.toNat ≠ 0 := fun h0 => hx (BitVec.eq_of_toNat_eq (by simpa using h0))
    have hone : (1 : BitVec w).toNat = 1 := by
      rw [BitVec.ofNat_eq_ofNat, BitVec.toNat_ofNat]
      have hlt := x.isLt
      exact Nat.mod_eq_of_lt (show 1 < 2 ^ w by omega)
    rw [BitVec.toNat_sub_of_le (by rw [BitVec.le_def, hone]; omega), hone]
  have hj : rank lowest j ≠ 0 := by
    intro h0
    rw [h0, BitVec.lt_def] at h
    simp at h
  rw [rank_succ, rank_succ, BitVec.lt_def, hpred hk, hpred hj]
  rw [BitVec.lt_def] at h
  have hpos : (rank lowest k).toNat ≠ 0 := fun h0 => hk (BitVec.eq_of_toNat_eq (by simpa using h0))
  omega

end Clocked.Rotation
