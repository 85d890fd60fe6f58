/-
Memories that are updated through a pipeline. What is read for a visit comes back changed some clocks later; when the visits
of one entry are further apart than that, the memory holds what it would if each visit changed its entry at once.
-/
import Mathlib.Logic.Function.Basic
import Z486.Clocked.Run

namespace Clocked

variable {X S : Type*} [DecidableEq X]

/-- A memory whose entries are visited, and a visit's change that is written `d` clocks after it was read. -/
structure ReadModifyWrite (d : Nat) (mem : Nat → X → S) (visit : Nat → Option X) (change : Nat → S → S) : Prop where
  early : ∀ t, t ≤ d → mem t = mem 0
  none : ∀ t, visit t = .none → mem (t + d + 1) = mem (t + d)
  some : ∀ t x, visit t = .some x → mem (t + d + 1) = Function.update (mem (t + d)) x (change t (mem t x))
  apart : ∀ t u x, visit t = .some x → visit u = .some x → t < u → t + d < u

/-- The entries when each visit changes its entry at once. -/
def atOnce (visit : Nat → Option X) (change : Nat → S → S) (m₀ : X → S) : Nat → X → S
  | 0 => m₀
  | t + 1 =>
    match visit t with
    | none => atOnce visit change m₀ t
    | some x => Function.update (atOnce visit change m₀ t) x (change t (atOnce visit change m₀ t x))

variable {d : Nat} {mem : Nat → X → S} {visit : Nat → Option X} {change : Nat → S → S} {m₀ : X → S}

theorem atOnce_none {t : Nat} (h : visit t = none) : atOnce visit change m₀ (t + 1) = atOnce visit change m₀ t := by
  rw [atOnce, h]

theorem atOnce_some {t : Nat} {x : X} (h : visit t = some x) : atOnce visit change m₀ (t + 1) =
    Function.update (atOnce visit change m₀ t) x (change t (atOnce visit change m₀ t x)) := by
  rw [atOnce, h]

/-- An entry changes with its own visits alone. -/
theorem atOnce_stays {t u : Nat} (htu : t ≤ u) {x : X} (h : ∀ v, t ≤ v → v < u → visit v ≠ some x) :
    atOnce visit change m₀ u x = atOnce visit change m₀ t x := by
  induction u, htu using Nat.le_induction with
  | base => rfl
  | succ u htu ih =>
    rw [← ih fun v hv hlt => h v hv (by omega)]
    cases hvisit : visit u with
    | none => rw [atOnce_none hvisit]
    | some y =>
      have hne : x ≠ y := by
        rintro rfl
        exact h u htu (Nat.lt_succ_self u) hvisit
      rw [atOnce_some hvisit, Function.update_of_ne hne]

namespace ReadModifyWrite

/-- A visit finds its entry as it should be, when the writes so far were right. -/
theorem read_eq (h : ReadModifyWrite d mem visit change) {t : Nat}
    (hbefore : ∀ u, u ≤ t → mem (u + d) = atOnce visit change (mem 0) u) {x : X} (hx : visit t = .some x) :
    mem t x = atOnce visit change (mem 0) t x := by
  have hlast : ∀ u, u < t → visit u = .some x → u + d < t := fun u hu hux => h.apart u t x hux hx hu
  rcases Nat.lt_or_ge d t with hlt | hge
  · have hlate := hbefore (t - d) (Nat.sub_le t d)
    rw [Nat.sub_add_cancel (Nat.le_of_lt hlt)] at hlate
    rw [hlate, atOnce_stays (Nat.sub_le t d) fun u hge hu hux => by have := hlast u hu hux; omega]
  · rw [h.early t hge, atOnce_stays (Nat.zero_le t) fun u _ hu hux => by have := hlast u hu hux; omega]
    rfl

/-- The memory is as many clocks late as the pipeline is long. -/
theorem eq_atOnce (h : ReadModifyWrite d mem visit change) (t : Nat) : mem (t + d) = atOnce visit change (mem 0) t := by
  induction t using Nat.strong_induction_on with
  | _ t ih =>
    cases t with
    | zero =>
      rw [Nat.zero_add, h.early d (Nat.le_refl d)]
      rfl
    | succ t =>
      have hprev := ih t (Nat.lt_succ_self t)
      rw [Nat.add_right_comm]
      cases hvisit : visit t with
      | none => rw [h.none t hvisit, atOnce_none hvisit, hprev]
      | some x =>
        have hread := h.read_eq (fun u hu => ih u (Nat.lt_succ_of_le hu)) hvisit
        rw [h.some t x hvisit, atOnce_some hvisit, hprev, hread]

/-- Each visit finds its entry as it should be. -/
theorem visit_eq (h : ReadModifyWrite d mem visit change) {t : Nat} {x : X} (hx : visit t = .some x) :
    mem t x = atOnce visit change (mem 0) t x := h.read_eq (fun u _ => h.eq_atOnce u) hx

end ReadModifyWrite

end Clocked
