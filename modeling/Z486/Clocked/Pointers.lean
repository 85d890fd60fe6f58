/-
Pointers of queues between two clocks. Each side keeps its own pointer as a counter with one bit more than the slots need,
and knows the other's as a Gray code some registers of its own behind. What it sees is a count of the other's past, so a
queue that looks full or empty by it may have more room or more entries, never less.
-/
import Z486.Clocked.Bits
import Z486.Clocked.Gray

namespace Clocked

variable {w : Nat}

/-! ## Codes of counts -/

theorem gray_inj {x y : BitVec w} (h : gray x = gray y) : x = y := by
  have hbits : ∀ k i, w ≤ i + k → x.getLsbD i = y.getLsbD i := by
    intro k
    induction k with
    | zero =>
      intro i hi
      rw [BitVec.getLsbD_of_ge x i hi, BitVec.getLsbD_of_ge y i hi]
    | succ k ih =>
      intro i hi
      have hbit := congrArg (BitVec.getLsbD · i) h
      simp only [gray_getLsbD, ih (i + 1) (by omega)] at hbit
      exact Bool.xor_left_inj.1 hbit
  exact BitVec.eq_of_getLsbD_eq fun i _ => hbits w i (Nat.le_add_left w i)

/-- The code of a pointer that has counted to `n`. -/
def code (w n : Nat) : BitVec w := gray (BitVec.ofNat w n)

theorem code_inj_of_close {m n : Nat} (hle : m ≤ n) (hclose : n < m + 2 ^ w) (h : code w m = code w n) : m = n :=
  ofNat_inj_of_close hle hclose (gray_inj h)

/-- A pointer that stays or counts on is seen as one of its counts. -/
theorem mix_code (mask : BitVec w) {n n' : Nat} (h : n' = n ∨ n' = n + 1) :
    ∃ k, mix mask (code w n) (code w n') = code w k ∧ n ≤ k ∧ k ≤ n' := by
  rcases h with rfl | rfl
  · exact ⟨n', mix_self mask _, Nat.le_refl _, Nat.le_refl _⟩
  · unfold code
    rw [ofNat_succ]
    rcases mix_gray_succ mask (BitVec.ofNat w n) with hold | hnew
    · exact ⟨n, hold, Nat.le_refl _, Nat.le_succ n⟩
    · exact ⟨n + 1, by rw [hnew, ← ofNat_succ], Nat.le_succ n, Nat.le_refl _⟩

/-! ## Half a turn -/

section Half

variable {n : Nat}

theorem half_getLsbD (x : BitVec (2 + n)) {i : Nat} (hi : i < 2 + n) :
    (x + BitVec.ofNat (2 + n) (2 ^ (1 + n))).getLsbD i = (x.getLsbD i ^^ decide (i = 1 + n)) := by
  have hhalf : (BitVec.ofNat (2 + n) (2 ^ (1 + n))).toNat = 2 ^ (1 + n) := by
    rw [BitVec.toNat_ofNat, Nat.mod_eq_of_lt (Nat.pow_lt_pow_right (by decide) (by omega))]
  rw [BitVec.getLsbD, BitVec.getLsbD, BitVec.toNat_add, hhalf, Nat.testBit_mod_two_pow, decide_eq_true hi, Bool.true_and,
    Nat.add_comm]
  by_cases htop : i = 1 + n
  · rw [htop, Nat.testBit_two_pow_add_eq, decide_eq_true rfl, Bool.xor_true]
  · rw [Nat.testBit_two_pow_add_gt (by omega), decide_eq_false htop, Bool.xor_false]

/-- Half a turn on, the two top bits of the code are the other way, and no others. -/
theorem gray_half (x : BitVec (2 + n)) :
    gray (x + BitVec.ofNat (2 + n) (2 ^ (1 + n))) = ~~~((gray x).extractLsb' n 2) ++ (gray x).extractLsb' 0 n := by
  refine BitVec.eq_of_getLsbD_eq fun i hi => ?_
  rw [gray_getLsbD, half_getLsbD x hi, BitVec.getLsbD_append]
  rcases (by omega : i < n ∨ i = n ∨ i = n + 1) with hlow | rfl | rfl
  · rw [if_pos hlow, BitVec.getLsbD_extractLsb', decide_eq_true hlow, half_getLsbD x (by omega), gray_getLsbD,
      decide_eq_false (show ¬ i = 1 + n by omega), decide_eq_false (show ¬ i + 1 = 1 + n by omega), Bool.xor_false,
      Bool.xor_false, Nat.zero_add]
    rfl
  · rw [if_neg (Nat.lt_irrefl i), Nat.sub_self, BitVec.getLsbD_not, BitVec.getLsbD_extractLsb', half_getLsbD x (by omega),
      gray_getLsbD, decide_eq_false (show ¬ i = 1 + i by omega), decide_eq_true (Nat.add_comm i 1)]
    simp
  · rw [if_neg (by omega), Nat.add_sub_cancel_left, BitVec.getLsbD_not, BitVec.getLsbD_extractLsb', gray_getLsbD,
      decide_eq_true (Nat.add_comm n 1), BitVec.getLsbD_of_ge _ _ (show 2 + n ≤ n + 1 + 1 by omega),
      BitVec.getLsbD_of_ge x _ (show 2 + n ≤ n + 1 + 1 by omega)]
    simp

theorem code_half (k : Nat) :
    code (2 + n) (k + 2 ^ (1 + n)) = ~~~((code (2 + n) k).extractLsb' n 2) ++ (code (2 + n) k).extractLsb' 0 n := by
  unfold code
  rw [BitVec.ofNat_add, gray_half]

end Half

theorem code_turn (k : Nat) : code w (k + 2 ^ w) = code w k := by
  have hturn : BitVec.ofNat w (k + 2 ^ w) = BitVec.ofNat w k := by
    apply BitVec.eq_of_toNat_eq
    rw [BitVec.toNat_ofNat, BitVec.toNat_ofNat, Nat.add_mod_right]
  unfold code
  rw [hturn]

/-! ## What is seen of the other pointer -/

/-- Two registers hold counts of the other's past from `lo` on, which by now is at `hi`. -/
def Seen (first second : BitVec w) (lo hi : Nat) : Prop :=
  ∃ n₁ n₂, first = code w n₁ ∧ second = code w n₂ ∧ lo ≤ n₂ ∧ n₂ ≤ n₁ ∧ n₁ ≤ hi

namespace Seen

variable {first second g : BitVec w} {lo hi hi' : Nat}

theorem mono (h : Seen first second lo hi) (hle : hi ≤ hi') : Seen first second lo hi' := by
  obtain ⟨n₁, n₂, h1, h2, hlo, hn, hhi⟩ := h
  exact ⟨n₁, n₂, h1, h2, hlo, hn, hhi.trans hle⟩

theorem shift (h : Seen first second lo hi) (hg : ∃ k, g = code w k ∧ hi ≤ k ∧ k ≤ hi') : Seen g first lo hi' := by
  obtain ⟨n₁, n₂, h1, -, hlo, hn, hhi⟩ := h
  obtain ⟨k, hk, hle, hle'⟩ := hg
  exact ⟨k, n₁, hk, h1, hlo.trans hn, hhi.trans hle, hle'⟩

end Seen

end Clocked
