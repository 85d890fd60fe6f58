/-
Minimum distances between events of a run. A rule of the form "at least `d` clocks from a `P` to a `Q`"
is checked where a `Q` happens, against all the `P`s before it.
-/
import Mathlib.Tactic.Common

namespace Clocked

variable {P : Nat → Prop} {t d k : Nat}

/-- Every `P` before clock `t` is at least `d` clocks old. -/
def Quiet (P : Nat → Prop) (t d : Nat) : Prop := ∀ u, u < t → P u → u + d ≤ t

theorem Quiet.mono (h : Quiet P t d) {d' : Nat} (hle : d' ≤ d) : Quiet P t d' := by
  intro u hu hP
  exact Nat.le_trans (Nat.add_le_add_left hle u) (h u hu hP)

theorem Quiet.of_none (h : ∀ u, u < t → ¬ P u) : Quiet P t d := by
  intro u hu hP
  exact absurd hP (h u hu)

/-- The `P`s before clock `t + k` are those up to clock `t` and those after it. -/
theorem Quiet.of_round (hbefore : ∀ u, u ≤ t → P u → u + d ≤ t + k)
    (hround : ∀ j, 1 ≤ j → j < k → P (t + j) → j + d ≤ k) : Quiet P (t + k) d := by
  intro u hu hP
  rcases Nat.lt_or_ge t u with h | h
  · obtain ⟨j, rfl⟩ := Nat.exists_eq_add_of_lt h
    have hj := hround (j + 1) (by omega) (by omega) (by rw [← Nat.add_assoc]; exact hP)
    omega
  · exact hbefore u h hP

/-- A round without `P`s ages those before it. -/
theorem Quiet.add (h : Quiet P (t + 1) d) (hround : ∀ j, 1 ≤ j → j ≤ k → ¬ P (t + j)) : Quiet P (t + k + 1) (d + k) := by
  refine Quiet.of_round (k := k + 1) ?_ ?_
  · intro u hu hP
    have := h u (by omega) hP
    omega
  · intro j h1 hj hP
    exact absurd hP (hround j h1 (by omega))

end Clocked
