/-
Queues of bounded length. In a clock the oldest element may be taken out, and after that a new one may be put in behind
the others, if there is room for it. Over a run the elements leave in the order in which they came in.
-/
import Z486.Clocked.Fifo

namespace Clocked

/-- A queue of at most `cap` elements, the oldest first. -/
@[ext]
structure BoundedQueue (cap : Nat) (α : Type*) where
  items : List α
  bound : items.length ≤ cap

namespace BoundedQueue

variable {cap : Nat} {α : Type*}

def nil : BoundedQueue cap α := ⟨[], Nat.zero_le cap⟩

variable (q : BoundedQueue cap α)

/-- The oldest element is taken out, if there is one. -/
def dequeue : BoundedQueue cap α := ⟨q.items.tail, Nat.le_trans (List.tail_sublist q.items).length_le q.bound⟩

/-- An element is put in, if there is room. -/
def enqueue (x : α) : BoundedQueue cap α :=
  if h : q.items.length < cap then ⟨q.items ++ [x], by rw [List.length_append]; exact h⟩ else q

/-- A clock: what is taken out leaves its room to what is put in. -/
def next (rd : Bool) (wr : Option α) : BoundedQueue cap α :=
  let rest := if rd then q.dequeue else q
  wr.elim rest rest.enqueue

/-- What is put in in a clock. -/
def admitted (rd : Bool) (wr : Option α) : List α :=
  if (if rd then q.dequeue else q).items.length < cap then wr.toList else []

variable {q} {rd : Bool} {wr : Option α}

theorem items_enqueue (x : α) : (q.enqueue x).items = q.items ++ if q.items.length < cap then [x] else [] := by
  unfold enqueue
  split
  · rfl
  · exact (List.append_nil _).symm

theorem items_next : (q.next rd wr).items = fifoStep q.items rd (q.admitted rd wr) := by
  have hrest : (if rd then q.dequeue else q).items = if rd then q.items.tail else q.items := by
    cases rd <;> rfl
  unfold next admitted fifoStep
  rw [← hrest]
  cases wr with
  | none => simp
  | some x => exact items_enqueue x

/-- An element that comes while another one leaves finds room. -/
theorem admitted_of_read (hcap : 0 < cap) : q.admitted true wr = wr.toList := by
  refine if_pos ?_
  show q.items.tail.length < cap
  have hbound := q.bound
  rw [List.length_tail]
  omega

theorem admitted_of_room (h : q.items.length < cap) : q.admitted false wr = wr.toList := if_pos h

theorem admitted_of_full (h : q.items.length = cap) : q.admitted false wr = [] :=
  if_neg (Nat.not_lt.2 (Nat.le_of_eq h.symm))

/-- What waits at first and what is put in is taken out, in order, or still waits. -/
theorem order {q : Nat → BoundedQueue cap α} {rd : Nat → Bool} {wr : Nat → Option α} (t : Nat)
    (hstep : ∀ u, u < t → q (u + 1) = (q u).next (rd u) (wr u)) :
    (q 0).items ++ journal (fun u => (q u).admitted (rd u) (wr u)) t =
      journal (fun u => (fifoOut (q u).items (rd u)).toList) t ++ (q t).items :=
  append_journal_fifo (q := fun u => (q u).items) t fun u hu => (congrArg items (hstep u hu)).trans items_next

end BoundedQueue

end Clocked
