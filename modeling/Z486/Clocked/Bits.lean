/-
Words as the values they stand for: single bits, and words that count.
-/
import Mathlib.Data.Nat.Bitwise

namespace Clocked

variable {w : Nat}

/-- The numerals of `Fin 4`, for what comes in fours: the channels of a controller, the bytes of a dword. -/
instance fourNeZero : NeZero 4 := ⟨by decide⟩

/-! ## Bits -/

theorem getLsbD_eq_decide (x : BitVec w) (i : Nat) : x.getLsbD i = decide (x.toNat / 2 ^ i % 2 = 1) := by
  rw [BitVec.getLsbD, Nat.testBit_eq_decide_div_mod_eq]

theorem getLsbD_zero_eq (x : BitVec w) : x.getLsbD 0 = decide (x.toNat % 2 = 1) := by
  rw [getLsbD_eq_decide, Nat.pow_zero, Nat.div_one]

/-- The top bit, the sign of a number in two's complement. -/
theorem getLsbD_top (x : BitVec (w + 1)) : x.getLsbD w = decide (2 ^ w ≤ x.toNat) := by
  show x.getLsbD (w + 1 - 1) = _
  rw [← BitVec.msb_eq_getLsbD_last, BitVec.msb_eq_decide]
  rfl

theorem append_inj {v : Nat} {a c : BitVec v} {b d : BitVec w} : a ++ b = c ++ d ↔ a = c ∧ b = d := by
  constructor
  · intro h
    have hhigh := congrArg (BitVec.extractLsb' w v) h
    have hlow := congrArg (BitVec.extractLsb' 0 w) h
    rw [BitVec.extractLsb'_append_eq_left, BitVec.extractLsb'_append_eq_left] at hhigh
    rw [BitVec.extractLsb'_append_eq_right, BitVec.extractLsb'_append_eq_right] at hlow
    exact ⟨hhigh, hlow⟩
  · rintro ⟨rfl, rfl⟩
    rfl

/-! ## Counts -/

variable {m n : Nat}

theorem ofNat_succ (n : Nat) : BitVec.ofNat w (n + 1) = BitVec.ofNat w n + 1 := by
  rw [BitVec.ofNat_add]
  rfl

/-- A count that the width has room for. -/
theorem toNat_succ {x : BitVec w} (h : x.toNat + 1 < 2 ^ w) : (x + 1).toNat = x.toNat + 1 := by
  have hsucc := ofNat_succ (w := w) x.toNat
  rw [BitVec.ofNat_toNat, BitVec.setWidth_eq] at hsucc
  rw [← hsucc, BitVec.toNat_ofNat, Nat.mod_eq_of_lt h]

/-- The difference of two counters is that of their counts. -/
theorem ofNat_sub (h : m ≤ n) : BitVec.ofNat w n - BitVec.ofNat w m = BitVec.ofNat w (n - m) := by
  calc BitVec.ofNat w n - BitVec.ofNat w m
      = BitVec.ofNat w (n - m) + BitVec.ofNat w m - BitVec.ofNat w m := by
        rw [← BitVec.ofNat_add, Nat.sub_add_cancel h]
    _ = BitVec.ofNat w (n - m) := BitVec.add_sub_cancel _ _

theorem toNat_ofNat_sub (h : m ≤ n) (hclose : n < m + 2 ^ w) :
    (BitVec.ofNat w n - BitVec.ofNat w m).toNat = n - m := by
  rw [ofNat_sub h, BitVec.toNat_ofNat, Nat.mod_eq_of_lt (by omega)]

/-- Two counts that are less than a turn of the counter apart are told apart by it. -/
theorem ofNat_inj_of_close (h : m ≤ n) (hclose : n < m + 2 ^ w) (heq : BitVec.ofNat w m = BitVec.ofNat w n) : m = n := by
  have hzero := toNat_ofNat_sub h hclose
  rw [heq, BitVec.sub_self] at hzero
  have : n - m = 0 := hzero.symm.trans BitVec.toNat_zero
  omega

theorem ofNat_ne_ofNat (hm : m < 2 ^ w) (hn : n < 2 ^ w) (hne : m ≠ n) : BitVec.ofNat w m ≠ BitVec.ofNat w n := by
  intro heq
  have hnat := congrArg BitVec.toNat heq
  rw [BitVec.toNat_ofNat, BitVec.toNat_ofNat, Nat.mod_eq_of_lt hm, Nat.mod_eq_of_lt hn] at hnat
  exact hne hnat

end Clocked
