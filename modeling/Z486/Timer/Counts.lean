/-
The counts of the 8254: what a register of 16 bits stands for in binary and in BCD, where 0 is the largest count, and what
the decrements and the loads of the counting element do to it.
-/
import Z486.Clocked.Bits
import Z486.Timer.PitCounter

namespace Z486.Timer

/-! ## Values -/

/-- Four decimal digits. -/
def decimal (n : Nat) : Nat := n % 16 + 10 * (n / 16 % 16) + 100 * (n / 16 / 16 % 16) + 1000 * (n / 16 / 16 / 16)

def value (bcd : Bool) (x : BitVec 16) : Nat := if bcd then decimal x.toNat else x.toNat

def modulus (bcd : Bool) : Nat := if bcd then 10000 else 65536

/-- The count that a register stands for. -/
def count (bcd : Bool) (x : BitVec 16) : Nat := if x = 0 then modulus bcd else value bcd x

/-- In BCD every digit is one. -/
def Valid (bcd : Bool) (x : BitVec 16) : Prop :=
  bcd = true → x.toNat % 16 < 10 ∧ x.toNat / 16 % 16 < 10 ∧ x.toNat / 16 / 16 % 16 < 10 ∧ x.toNat / 16 / 16 / 16 < 10

variable {bcd : Bool} {x : BitVec 16}

theorem value_mod_two (bcd : Bool) (x : BitVec 16) : value bcd x % 2 = x.toNat % 2 := by
  unfold value decimal
  split <;> omega

theorem value_eq_zero : value bcd x = 0 ↔ x = 0 := by
  have hlt := x.isLt
  constructor
  · intro h
    refine BitVec.eq_of_toNat_eq ?_
    show x.toNat = 0
    unfold value decimal at h
    split at h <;> omega
  · rintro rfl
    cases bcd <;> rfl

theorem modulus_mod_two (bcd : Bool) : modulus bcd % 2 = 0 := by
  cases bcd <;> rfl

theorem count_mod_two (bcd : Bool) (x : BitVec 16) : count bcd x % 2 = x.toNat % 2 := by
  unfold count
  split
  · next h =>
    subst h
    exact modulus_mod_two bcd
  · exact value_mod_two bcd x

theorem count_pos (bcd : Bool) (x : BitVec 16) : 0 < count bcd x := by
  unfold count
  split
  · cases bcd <;> simp [modulus]
  · next h => exact Nat.pos_of_ne_zero fun h0 => h (value_eq_zero.1 h0)

theorem count_of_ne_zero (h : x ≠ 0) : count bcd x = value bcd x := if_neg h

/-- A count of one digit. -/
theorem Valid.count_eq (h : Valid bcd x) {c : Nat} (hpos : 0 < c) (hdigit : c < 10) :
    count bcd x = c ↔ x = BitVec.ofNat 16 c := by
  have hlt := x.isLt
  have hto : (BitVec.ofNat 16 c).toNat = c := by
    rw [BitVec.toNat_ofNat]
    omega
  rw [← BitVec.toNat_inj, hto]
  by_cases h0 : x = 0
  · rw [count, if_pos h0, h0]
    have hlarge : 10000 ≤ modulus bcd := by cases bcd <;> decide
    show modulus bcd = c ↔ 0 = c
    omega
  · rw [count_of_ne_zero h0]
    unfold value decimal
    split <;> omega

/-! ## Decrements -/

namespace PitCounter

variable {s : PitCounter}

theorem counterMinus1_binary (h : s.bcd = false) : s.counterMinus1.toNat = (s.counter.toNat + 65535) % 65536 := by
  unfold counterMinus1
  simp only [h, Bool.false_and, Bool.false_eq_true, if_false]
  bv_omega

theorem append_toNat {v w : Nat} (hi : BitVec v) (lo : BitVec w) : (hi ++ lo).toNat = hi.toNat * 2 ^ w + lo.toNat := by
  rw [BitVec.toNat_append, ← Nat.shiftLeft_add_eq_or_of_lt lo.isLt, Nat.shiftLeft_eq]

theorem low_eq_zero (x : BitVec 16) (k : Nat) : (x.extractLsb' 0 k == 0) = decide (x.toNat % 2 ^ k = 0) := by
  rw [beq_eq_decide]
  congr 1
  rw [← BitVec.toNat_inj, BitVec.extractLsb'_toNat, Nat.shiftRight_zero]
  simp

/-- The borrow of the decimal digits. -/
theorem counterMinus1_decimal (h : s.bcd = true) : s.counterMinus1.toNat =
    if s.counter.toNat = 0 then 0x9999
    else if s.counter.toNat % 4096 = 0 then s.counter.toNat - 4096 + 0x999
    else if s.counter.toNat % 256 = 0 then s.counter.toNat - 256 + 0x99
    else if s.counter.toNat % 16 = 0 then s.counter.toNat - 16 + 9 else s.counter.toNat - 1 := by
  have hlt := s.counter.isLt
  have hzero : (s.counter == 0) = decide (s.counter.toNat = 0) := by
    rw [beq_eq_decide]
    congr 1
    rw [← BitVec.toNat_inj]
    rfl
  have hhigh : ∀ a k, a + k = 16 → (s.counter.extractLsb' a k).toNat = s.counter.toNat / 2 ^ a := by
    intro a k hak
    rw [BitVec.extractLsb'_toNat, Nat.shiftRight_eq_div_pow, Nat.mod_eq_of_lt]
    rw [Nat.div_lt_iff_lt_mul (Nat.two_pow_pos a), ← Nat.pow_add, Nat.add_comm k, hak]
    exact hlt
  have h12 := hhigh 12 4 rfl
  have h8 := hhigh 8 8 rfl
  have h4 := hhigh 4 12 rfl
  unfold counterMinus1
  rw [h, hzero, low_eq_zero, low_eq_zero, low_eq_zero]
  simp only [Bool.true_and, decide_eq_true_eq, Nat.reducePow]
  split_ifs with h0 h1 h2 h3
  · rfl
  · rw [append_toNat]
    bv_omega
  · rw [append_toNat]
    bv_omega
  · rw [append_toNat]
    bv_omega
  · bv_omega

/-- A decrement, of 0 as of the largest count. -/
theorem value_counterMinus1 (h : Valid s.bcd s.counter) :
    value s.bcd s.counterMinus1 = count s.bcd s.counter - 1 ∧ Valid s.bcd s.counterMinus1 := by
  have hlt := s.counter.isLt
  have hzero : s.counter = 0 ↔ s.counter.toNat = 0 := by
    rw [← BitVec.toNat_inj]
    rfl
  unfold Valid at *
  cases hb : s.bcd with
  | false =>
    refine ⟨?_, nofun⟩
    unfold count value modulus
    simp only [Bool.false_eq_true, if_false, counterMinus1_binary hb, hzero]
    split <;> omega
  | true =>
    obtain ⟨h0, h1, h2, h3⟩ := h hb
    have hto := counterMinus1_decimal hb
    unfold count value modulus decimal
    simp only [if_true, hzero]
    split_ifs at hto ⊢ <;> omega

/-- A decrement by two of an even count. -/
theorem value_counterMinus2 (h : Valid s.bcd s.counter) (heven : s.counter.toNat % 2 = 0) :
    value s.bcd (s.counterMinus1 - 1) = count s.bcd s.counter - 2 ∧ Valid s.bcd (s.counterMinus1 - 1) := by
  obtain ⟨hvalue, hvalid⟩ := value_counterMinus1 h
  have hlt := s.counterMinus1.isLt
  have hpos := count_pos s.bcd s.counter
  have hodd : s.counterMinus1.toNat % 2 = 1 := by
    rw [← count_mod_two s.bcd] at heven
    rw [← value_mod_two s.bcd, hvalue]
    omega
  have hpred : (s.counterMinus1 - 1).toNat = s.counterMinus1.toNat - 1 := by bv_omega
  unfold Valid value decimal at *
  cases hb : s.bcd with
  | false =>
    refine ⟨?_, nofun⟩
    simp only [hb, Bool.false_eq_true, if_false] at hvalue ⊢
    omega
  | true =>
    obtain ⟨h0, h1, h2, h3⟩ := hvalid hb
    simp only [hb, if_true] at hvalue ⊢
    rw [hpred]
    omega

/-! ## Loads -/

/-- The count register. -/
def stored (s : PitCounter) : BitVec 16 := s.counterM ++ s.counterL

theorem stored_odd : s.counterL.getLsbD 0 = decide (s.stored.toNat % 2 = 1) := by
  have hto := append_toNat s.counterM s.counterL
  rw [Clocked.getLsbD_zero_eq]
  congr 1
  unfold stored
  rw [hto]
  apply propext
  omega

theorem loadValue_eq (h : s.modeLow ≠ 3) : s.loadValue = s.stored := by
  have hsplit : ∀ x : BitVec 8, x.extractLsb' 1 7 ++ BitVec.ofBool (x.getLsbD 0) = x := by decide
  unfold loadValue stored
  rw [bne_iff_ne.2 h, Bool.and_true, hsplit]

/-- In mode 3 a load drops the low bit of an odd count. -/
theorem loadValue_toNat (h : s.modeLow = 3) : s.loadValue.toNat = s.stored.toNat - s.stored.toNat % 2 := by
  have hlow : s.counterL.toNat % 256 = s.counterL.toNat := Nat.mod_eq_of_lt s.counterL.isLt
  unfold loadValue stored
  rw [h, show ((3 : BitVec 2) != 3) = false from rfl, Bool.and_false, append_toNat, append_toNat, append_toNat,
    BitVec.extractLsb'_toNat, Nat.shiftRight_eq_div_pow]
  simp only [Nat.reducePow, BitVec.toNat_ofBool, Bool.toNat_false]
  omega

theorem value_loadValue (h : s.modeLow = 3) (hv : Valid s.bcd s.stored) :
    value s.bcd s.loadValue = value s.bcd s.stored - s.stored.toNat % 2 ∧ Valid s.bcd s.loadValue := by
  have hto := loadValue_toNat h
  have hlt := s.stored.isLt
  unfold Valid value decimal at *
  cases hb : s.bcd with
  | false =>
    refine ⟨?_, nofun⟩
    simp only [Bool.false_eq_true, if_false]
    exact hto
  | true =>
    obtain ⟨h0, h1, h2, h3⟩ := hv hb
    simp only [if_true]
    rw [hto]
    omega

end PitCounter

end Z486.Timer
