/-
DDR3 as the masters of its port see it: bytes, read and written in 64-bit words with byte enables.
-/
import Mathlib.Tactic.Common

namespace Z486.Memory

/-- DDR3 by byte address. -/
abbrev Bytes := BitVec 32 → BitVec 8

/-- The dword `d`, that is the bytes `4 d` to `4 d + 3`. -/
def readDword (mem : Bytes) (d : BitVec 30) : BitVec 32 :=
  mem (d ++ 3#2) ++ mem (d ++ 2#2) ++ mem (d ++ 1#2) ++ mem (d ++ 0#2)

/-- The 64-bit word `a`. -/
def readWord (mem : Bytes) (a : BitVec 29) : BitVec 64 := readDword mem (a ++ 1#1) ++ readDword mem (a ++ 0#1)

/-- Write the bytes of word `a` that `be` enables. -/
def writeWord (mem : Bytes) (a : BitVec 29) (be : BitVec 8) (din : BitVec 64) : Bytes := fun x =>
  let lane := (x.extractLsb' 0 3).toNat
  if x.extractLsb' 3 29 = a ∧ be.getLsbD lane = true then din.extractLsb' (8 * lane) 8 else mem x

/-! ## Bytes of a word -/

theorem lane_cases (l : BitVec 3) : l = 0 ∨ l = 1 ∨ l = 2 ∨ l = 3 ∨ l = 4 ∨ l = 5 ∨ l = 6 ∨ l = 7 := by
  revert l; decide

/-- The bytes of a word put together from two dwords. -/
theorem halves_byte (f : BitVec 3 → BitVec 8) (l : BitVec 3) :
    ((f 7 ++ f 6 ++ f 5 ++ f 4) ++ (f 3 ++ f 2 ++ f 1 ++ f 0)).extractLsb' (8 * l.toNat) 8 = f l := by
  rcases lane_cases l with rfl | rfl | rfl | rfl | rfl | rfl | rfl | rfl
  all_goals
    simp (disch := decide) only [BitVec.extractLsb'_append_eq_of_le, BitVec.extractLsb'_append_eq_of_add_le]
  all_goals simp

theorem readWord_byte (mem : Bytes) (a : BitVec 29) (l : BitVec 3) :
    (readWord mem a).extractLsb' (8 * l.toNat) 8 = mem (a ++ l) := by
  have hshape : ∀ (h : BitVec 1) (p : BitVec 2), (a ++ h) ++ p = a ++ (h ++ p) := by
    intro h p
    rw [BitVec.append_assoc]; rfl
  have h := halves_byte (fun l => mem (a ++ l)) l
  rw [← h]
  unfold readWord readDword
  rw [hshape, hshape, hshape, hshape, hshape, hshape, hshape, hshape]
  rfl

/-- Two words with the same bytes are the same. -/
theorem eq_of_bytes {x y : BitVec 64} (h : ∀ l : BitVec 3, x.extractLsb' (8 * l.toNat) 8 = y.extractLsb' (8 * l.toNat) 8) :
    x = y := by
  apply BitVec.eq_of_getLsbD_eq
  intro j hj
  have hlane : (BitVec.ofNat 3 (j / 8)).toNat = j / 8 := by
    rw [BitVec.toNat_ofNat]; omega
  have hbit := congrArg (fun b => b.getLsbD (j % 8)) (h (BitVec.ofNat 3 (j / 8)))
  simp only [BitVec.getLsbD_extractLsb', hlane, Nat.div_add_mod, show j % 8 < 8 by omega, decide_true,
    Bool.true_and] at hbit
  exact hbit

theorem writeWord_at (mem : Bytes) (a b : BitVec 29) (be : BitVec 8) (din : BitVec 64) (l : BitVec 3) :
    writeWord mem a be din (b ++ l) =
      if b = a ∧ be.getLsbD l.toNat = true then din.extractLsb' (8 * l.toNat) 8 else mem (b ++ l) := by
  have hword : (b ++ l).extractLsb' 3 29 = b := BitVec.extractLsb'_append_eq_left
  have hlane : (b ++ l).extractLsb' 0 3 = l := BitVec.extractLsb'_append_eq_right
  unfold writeWord
  rw [hword, hlane]

/-- A write leaves the other words. -/
theorem readWord_writeWord_of_ne {a b : BitVec 29} (h : b ≠ a) (mem : Bytes) (be : BitVec 8) (din : BitVec 64) :
    readWord (writeWord mem a be din) b = readWord mem b := by
  apply eq_of_bytes
  intro l
  rw [readWord_byte, readWord_byte, writeWord_at, if_neg fun hand => h hand.1]

end Z486.Memory
