/-
Multiplication by shifting and adding. In every step the multiplicand is doubled and the multiplier halved, and the
multiplicand goes to the sum where the multiplier is odd. What the sum will come to does not change from step to step.
-/
import Mathlib.Algebra.Group.Basic

namespace Clocked

variable {M : Type*} [AddCommMonoid M]

structure Multiplier (M : Type*) where
  sum : M
  a : M
  b : Nat

namespace Multiplier

variable (m : Multiplier M)

def step : Multiplier M where
  sum := if m.b % 2 = 1 then m.sum + m.a else m.sum
  a := m.a + m.a
  b := m.b / 2

/-- What the sum comes to. -/
def total : M := m.sum + m.b • m.a

theorem total_step : m.step.total = m.total := by
  have hdouble : (m.b / 2) • (m.a + m.a) = (2 * (m.b / 2)) • m.a := by
    rw [← two_nsmul, ← mul_nsmul]
  unfold total step
  rw [hdouble]
  by_cases hodd : m.b % 2 = 1
  · have hb : m.b = 2 * (m.b / 2) + 1 := by omega
    rw [if_pos hodd, add_assoc, add_comm m.a, ← succ_nsmul, ← hb]
  · have hb : m.b = 2 * (m.b / 2) := by omega
    rw [if_neg hodd, ← hb]

theorem total_done (h : m.b = 0) : m.total = m.sum := by
  rw [total, h, zero_nsmul, add_zero]

end Multiplier

end Clocked
