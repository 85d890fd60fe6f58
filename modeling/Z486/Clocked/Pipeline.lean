/-
Pipelines: circuits that move only in the clocks of an enable, and the delay line in a circular memory, in which each
word is written at a pointer that goes round and is read a number of words later at the same place, into a register.
-/
import Z486.Clocked.Run
import Z486.Clocked.Bits

namespace Clocked

/-! ## Clock enables -/

section Enabled

variable {σ ι : Type*} (step : σ → ι → σ) (s₀ : σ) (ce : Nat → Bool) (x : Nat → ι)

def enabled (s : σ) : Option ι → σ
  | none => s
  | some i => step s i

/-- The stream that offers the next item of `x` in each enabled clock. -/
def offered (t : Nat) : Option ι := if ce t = true then some (x (pulses ce 0 t)) else none

/-- The clocks between the enables make no difference. -/
theorem run_enabled (t : Nat) : run (enabled step) s₀ (offered ce x) t = run step s₀ x (pulses ce 0 t) := by
  induction t with
  | zero => rw [pulses_self]; rfl
  | succ t ih =>
    rw [run_succ, ih, pulses_succ ce (Nat.zero_le t), offered]
    cases ce t with
    | true => rfl
    | false => rfl

end Enabled

/-! ## Delay lines -/

structure DelayLine (w : Nat) (α : Type*) where
  mem : BitVec w → α
  wr : BitVec w
  q : α

namespace DelayLine

variable {w : Nat} {α : Type*} (d : BitVec w) (s₀ : DelayLine w α) (x : Nat → α)

def step (s : DelayLine w α) (word : α) : DelayLine w α where
  mem := Function.update s.mem s.wr word
  wr := s.wr + 1
  q := s.mem (s.wr - d)

theorem wr_run (n : Nat) : (run (step d) s₀ x n).wr = s₀.wr + BitVec.ofNat w n := by
  induction n with
  | zero => exact (BitVec.add_zero s₀.wr).symm
  | succ n ih =>
    rw [run_succ, ofNat_succ, ← BitVec.add_assoc, ← ih]
    rfl

/-- A word stays where it was written until the pointer comes round. -/
theorem mem_run {k n : Nat} (hkn : k < n) (hn : n ≤ k + 2 ^ w) :
    (run (step d) s₀ x n).mem (s₀.wr + BitVec.ofNat w k) = x k := by
  induction n, Nat.succ_le_of_lt hkn using Nat.le_induction with
  | base =>
    rw [← wr_run d s₀ x k]
    exact Function.update_self _ _ _
  | succ n hle ih =>
    have hother : s₀.wr + BitVec.ofNat w k ≠ (run (step d) s₀ x n).wr := by
      rw [wr_run]
      intro heq
      have hsame := ofNat_inj_of_close (Nat.le_of_succ_le hle) (by omega) ((BitVec.add_right_inj _).1 heq)
      omega
    rw [run_succ]
    exact (Function.update_of_ne hother _ _).trans (ih hle (by omega))

/-- The word that leaves is the one written `d` words before. -/
theorem q_run {d : BitVec w} (hd : 0 < d.toNat) (k : Nat) : (run (step d) s₀ x (k + d.toNat + 1)).q = x k := by
  have hlt := d.isLt
  have hback : (run (step d) s₀ x (k + d.toNat)).wr - d = s₀.wr + BitVec.ofNat w k := by
    rw [wr_run, BitVec.ofNat_add, BitVec.ofNat_toNat, BitVec.setWidth_eq, ← BitVec.add_assoc, BitVec.add_sub_cancel]
  rw [run_succ]
  show (run (step d) s₀ x (k + d.toNat)).mem ((run (step d) s₀ x (k + d.toNat)).wr - d) = _
  rw [hback]
  exact mem_run d s₀ x (by omega) (by omega)

end DelayLine

end Clocked
