/-
Devices that answer in order. Such a device keeps what it still has to answer in a queue: in each
clock it may hand out the head, and what arrives in that clock goes to the end. Over a run, what has
arrived is what was handed out followed by what still waits, also for the elements of one kind.
-/
import Mathlib.Data.Nat.Init
import Mathlib.Order.Basic
import Mathlib.Tactic.Common

namespace Clocked

variable {α β : Type*}

/-- What is handed out in a clock. -/
def fifoOut (q : List α) (pop : Bool) : Option α := if pop then q.head? else none

/-- The queue after a clock. -/
def fifoStep (q : List α) (pop : Bool) (push : List α) : List α := (if pop then q.tail else q) ++ push

theorem fifoOut_append (q : List α) (pop : Bool) (push : List α) :
    (fifoOut q pop).toList ++ fifoStep q pop push = q ++ push := by
  cases pop <;> cases q <;> simp [fifoOut, fifoStep]

theorem length_rest_le (q : List α) (pop : Bool) : (if pop then q.tail else q).length ≤ q.length := by
  cases pop with
  | false => exact Nat.le_refl _
  | true => exact (List.tail_sublist q).length_le

theorem length_fifoStep_le (q : List α) (pop : Bool) (push : List α) :
    (fifoStep q pop push).length ≤ q.length + push.length := by
  rw [fifoStep, List.length_append]
  exact Nat.add_le_add_right (length_rest_le q pop) _

/-- The elements of the clocks before `t`, in order. -/
def journal (f : Nat → List α) (t : Nat) : List α := (List.range t).flatMap f

@[simp] theorem journal_zero (f : Nat → List α) : journal f 0 = [] := rfl

theorem journal_succ (f : Nat → List α) (t : Nat) : journal f (t + 1) = journal f t ++ f t := by
  simp [journal, List.range_succ]

/-- The first clock, and those after it. -/
theorem journal_cons (f : Nat → List α) (t : Nat) : journal f (t + 1) = f 0 ++ journal (fun u => f (u + 1)) t := by
  rw [journal, journal, List.range_succ_eq_map, List.flatMap_cons, List.flatMap_map]

theorem journal_congr {f g : Nat → List α} {t : Nat} (h : ∀ u, u < t → f u = g u) : journal f t = journal g t := by
  induction t with
  | zero => rfl
  | succ t ih => rw [journal_succ, journal_succ, ih fun u hu => h u (by omega), h t (by omega)]

/-- Clocks that add nothing. -/
theorem journal_quiet {f : Nat → List α} {t u : Nat} (htu : t ≤ u) (h : ∀ v, t ≤ v → v < u → f v = []) :
    journal f u = journal f t := by
  induction u, htu using Nat.le_induction with
  | base => rfl
  | succ u htu ih => rw [journal_succ, ih fun v hv hlt => h v hv (by omega), h u htu (by omega), List.append_nil]

theorem journal_mono (f : Nat → List α) {t u : Nat} (h : t ≤ u) : journal f t <+: journal f u := by
  induction u, h using Nat.le_induction with
  | base => exact List.prefix_refl _
  | succ u _ ih =>
    rw [journal_succ]
    exact ih.trans (List.prefix_append _ _)

theorem journal_filterMap (g : α → Option β) (f : Nat → List α) (t : Nat) :
    (journal f t).filterMap g = journal (fun u => (f u).filterMap g) t := by
  induction t with
  | zero => rfl
  | succ t ih => rw [journal_succ, journal_succ, List.filterMap_append, ih]

/-- What waits at first and what arrives is handed out, in order, or still waits. -/
theorem append_journal_fifo {q : Nat → List α} {pop : Nat → Bool} {push : Nat → List α} (t : Nat)
    (hstep : ∀ u, u < t → q (u + 1) = fifoStep (q u) (pop u) (push u)) :
    q 0 ++ journal push t = journal (fun u => (fifoOut (q u) (pop u)).toList) t ++ q t := by
  induction t with
  | zero => exact List.append_nil _
  | succ t ih =>
    rw [journal_succ, journal_succ, ← List.append_assoc, ih fun u hu => hstep u (by omega), hstep t (by omega),
      List.append_assoc, List.append_assoc, fifoOut_append]

/-- What has arrived has been handed out, in order, or still waits. -/
theorem journal_fifo {q : Nat → List α} {pop : Nat → Bool} {push : Nat → List α} (h0 : q 0 = []) (t : Nat)
    (hstep : ∀ u, u < t → q (u + 1) = fifoStep (q u) (pop u) (push u)) :
    journal push t = journal (fun u => (fifoOut (q u) (pop u)).toList) t ++ q t := by
  rw [← append_journal_fifo t hstep, h0, List.nil_append]

/-- When something that waits is handed out again and again, all that has arrived is handed out. -/
theorem exists_drained {arrived out waiting : Nat → List α} (hsplit : ∀ t, arrived t = out t ++ waiting t)
    (hmono : ∀ t u, t ≤ u → arrived t <+: arrived u)
    (hgo : ∀ t, waiting t ≠ [] → ∃ u, t ≤ u ∧ (out t).length < (out u).length) (t : Nat) :
    ∃ u, t ≤ u ∧ arrived t <+: out u := by
  have henough : ∀ n v, t ≤ v → (arrived t).length - (out v).length = n →
      ∃ u, t ≤ u ∧ (arrived t).length ≤ (out u).length := by
    intro n
    induction n using Nat.strong_induction_on with
    | _ n ih =>
      intro v hv hn
      by_cases hdone : (arrived t).length ≤ (out v).length
      · exact ⟨v, hv, hdone⟩
      · have hlength := (hmono t v hv).length_le
        rw [hsplit v, List.length_append] at hlength
        obtain ⟨u, hu, hmore⟩ := hgo v fun hnil => by
          rw [hnil, List.length_nil] at hlength
          omega
        exact ih _ (by omega) u (Nat.le_trans hv hu) rfl
  obtain ⟨u, hu, hle⟩ := henough _ t (Nat.le_refl t) rfl
  refine ⟨u, hu, List.prefix_of_prefix_length_le (hmono t u hu) ?_ hle⟩
  rw [hsplit u]
  exact List.prefix_append _ _

end Clocked
