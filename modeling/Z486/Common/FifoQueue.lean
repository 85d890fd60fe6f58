/-
The queue of the peripherals is a bounded queue (src/common/simple_fifo.v): beside every run of the circuit from reset
on goes a run of a queue of at most `2 ^ w` elements with the same requests, and the outputs show that queue.
-/
import Z486.Clocked.BoundedQueue
import Z486.Clocked.Run
import Z486.Common.SimpleFifo

namespace Z486.Common

open Clocked

namespace SimpleFifo

variable {w : Nat} {α : Type}

/-- The inputs of a clock. -/
structure Request (α : Type) where
  rstN : Bool
  sclr : Bool
  rdreq : Bool
  wrreq : Bool
  data : α

namespace Request

def clear (r : Request α) : Bool := !r.rstN || r.sclr

def write (r : Request α) : Option α := if r.wrreq then some r.data else none

end Request

/-- What a request means to a queue. -/
def serve {cap : Nat} (Q : BoundedQueue cap α) (r : Request α) : BoundedQueue cap α :=
  if r.clear then .nil else Q.next r.rdreq r.write

variable (f : SimpleFifo w α) (r : Request α)

def clock : SimpleFifo w α := f.step r.clear r.rdreq r.wrreq r.data

/-- The registers that a reset or `sclr` leaves; the memory may hold anything. Before the first one `full` and `usedw`
have no value in the source. -/
structure Cleared : Prop where
  rdIndex : f.rdIndex = 0
  wrIndex : f.wrIndex = 0
  full : f.full = false
  usedw : f.usedw = 0

/-- What is written in a clock. -/
def written : List α := if r.wrreq && (!f.full || r.rdreq) then [r.data] else []

/-- What is read in a clock. -/
def readOut : List α := if r.rdreq && !f.empty then [f.q] else []

/-- The queue that the registers stand for. -/
def toQueue : BoundedQueue (2 ^ w) α := ⟨f.contents, length_contents.trans_le count_le⟩

/-! ## Outputs -/

/-- The outputs show a queue. -/
structure Shows (Q : BoundedQueue (2 ^ w) α) : Prop where
  q : Q.items ≠ [] → Q.items.head? = some f.q
  empty : f.empty = true ↔ Q.items.length = 0
  full : f.full = true ↔ Q.items.length = 2 ^ w
  usedw : f.usedw.toNat = Q.items.length % 2 ^ w

variable {f r}

theorem usedw_eq_count (hf : f.Wf) : f.usedw.toNat = f.count % 2 ^ w := by
  unfold count
  cases h : f.full with
  | true =>
    rw [hf.usedw h, if_pos rfl, Nat.mod_self]
    exact BitVec.toNat_zero
  | false =>
    rw [if_neg Bool.false_ne_true]
    exact (Nat.mod_eq_of_lt f.usedw.isLt).symm

theorem shows_toQueue (hf : f.Wf) : f.Shows f.toQueue where
  q hne := head?_contents (contents_ne_nil.1 hne)
  empty := by
    rw [← count_eq_zero, ← length_contents]
    rfl
  full := by
    rw [full_iff_count, ← length_contents]
    rfl
  usedw := by
    rw [usedw_eq_count hf, ← length_contents]
    rfl

/-! ## Clocks -/

/-- A clock with a reset or `sclr`, whatever the registers were. -/
theorem cleared_clock (h : r.clear = true) : (f.clock r).Cleared := by
  unfold clock
  rw [h]
  exact ⟨rfl, rfl, rfl, rfl⟩

theorem Cleared.count (h : f.Cleared) : f.count = 0 := by
  unfold SimpleFifo.count
  rw [h.full, h.usedw]
  exact BitVec.toNat_zero

theorem Cleared.wf (h : f.Cleared) : f.Wf where
  index := by
    rw [h.wrIndex, h.rdIndex, h.count]
    exact (BitVec.add_zero _).symm
  usedw _ := h.usedw

theorem Cleared.toQueue (h : f.Cleared) : f.toQueue = .nil := by
  refine BoundedQueue.ext (List.eq_nil_of_length_eq_zero ?_)
  exact length_contents.trans h.count

/-- What a queue admits is what the circuit writes. -/
theorem admitted_toQueue : f.toQueue.admitted r.rdreq r.write = f.written r := by
  have hwrite : r.write.toList = if r.wrreq then [r.data] else [] := by
    unfold Request.write
    cases r.wrreq <;> rfl
  unfold written
  cases hrd : r.rdreq with
  | true => rw [BoundedQueue.admitted_of_read (Nat.two_pow_pos w), hwrite, Bool.or_true, Bool.and_true]
  | false =>
    rw [Bool.or_false]
    cases hfull : f.full with
    | true =>
      rw [Bool.not_true, Bool.and_false]
      exact BoundedQueue.admitted_of_full (length_contents.trans (full_iff_count.1 hfull))
    | false =>
      rw [Bool.not_false, Bool.and_true, ← hwrite]
      exact BoundedQueue.admitted_of_room (length_contents.trans_lt (count_lt hfull))

/-- What a queue hands out is what the circuit shows. -/
theorem fifoOut_toQueue : (fifoOut f.toQueue.items r.rdreq).toList = f.readOut r := by
  show (fifoOut f.contents r.rdreq).toList = _
  unfold readOut fifoOut
  cases he : f.empty with
  | true =>
    rw [contents_eq_nil.2 he, Bool.not_true, Bool.and_false]
    cases r.rdreq <;> rfl
  | false =>
    rw [head?_contents he, Bool.not_false, Bool.and_true]
    cases r.rdreq <;> rfl

/-- The circuit serves a request as a queue does. -/
theorem toQueue_clock (hw : 0 < w) (hf : f.Wf) : (f.clock r).toQueue = serve f.toQueue r := by
  apply BoundedQueue.ext
  have hcontents : (f.clock r).toQueue.items = _ := contents_step hw hf r.clear r.rdreq r.wrreq r.data
  rw [hcontents]
  unfold serve
  by_cases hclear : r.clear = true
  · rw [if_pos hclear, if_pos hclear]
    rfl
  · rw [if_neg hclear, if_neg hclear, BoundedQueue.items_next, admitted_toQueue, pushed, if_neg hclear]
    rfl

/-- A write that finds the queue full, or a read that finds it empty, with no request of the other kind. -/
def Refuses (f : SimpleFifo w α) (r : Request α) : Prop :=
  f.full = true ∧ r.wrreq = true ∧ r.rdreq = false ∨ f.empty = true ∧ r.rdreq = true ∧ r.wrreq = false

/-- A refused request changes no register. -/
theorem clock_of_refuses (hclear : r.clear = false) (h : f.Refuses r) : f.clock r = f := by
  unfold clock
  rcases h with ⟨hfull, hwr, hrd⟩ | ⟨hempty, hrd, hwr⟩
  · have hstep : f.step false false true r.data = { f with full := true } := by
      simp [step, hfull]
    rw [hclear, hrd, hwr, hstep, ← hfull]
  · have hfull : f.full = false := by
      simp only [empty, Bool.and_eq_true, Bool.not_eq_true'] at hempty
      exact hempty.2
    have hstep : f.step false true false r.data = { f with full := false } := by
      simp [step, hempty, hfull]
    rw [hclear, hrd, hwr, hstep, ← hfull]

/-! ## Runs -/

/-- A run of the circuit, and of the queue beside it. -/
structure RunsAs (f : Nat → SimpleFifo w α) (req : Nat → Request α) (Q : Nat → BoundedQueue (2 ^ w) α) : Prop where
  shows : ∀ t, (f t).Shows (Q t)
  refused : ∀ t, (req t).clear = false → (f t).Refuses (req t) → f (t + 1) = f t
  replaced : ∀ t, (req t).clear = false → (req t).rdreq = true → (req t).wrreq = true →
    (Q (t + 1)).items = (Q t).items.tail ++ [(req t).data]
  order : ∀ t k, (∀ i, i < k → (req (t + i)).clear = false) →
    (Q t).items ++ journal (fun i => (f (t + i)).written (req (t + i))) k =
      journal (fun i => (f (t + i)).readOut (req (t + i))) k ++ (Q (t + k)).items

section Runs

variable {f₀ : SimpleFifo w α} (hw : 0 < w) (h0 : f₀.Cleared) (req : Nat → Request α)
include hw h0

/-- The queue of the registers runs as a queue does. -/
theorem toQueue_run (t : Nat) : (run clock f₀ req t).Wf ∧
    (run clock f₀ req t).toQueue = run serve .nil req t := by
  induction t with
  | zero => exact ⟨h0.wf, h0.toQueue⟩
  | succ t ih =>
    obtain ⟨hwf, hqueue⟩ := ih
    constructor
    · exact hwf.step hw _ _ _ _
    · rw [run_succ, run_succ, toQueue_clock hw hwf, hqueue]

/-- From reset on the circuit is a queue of at most `2 ^ w` elements. The source counts by `{ {widthu-1{1'b0}}, 1'b1 }`,
so `widthu` is at least one. -/
theorem runsAsQueue : RunsAs (run clock f₀ req) req (run serve .nil req) := by
  have hrun := toQueue_run hw h0 req
  have hserve : ∀ t, (req t).clear = false →
      run serve (.nil : BoundedQueue (2 ^ w) α) req (t + 1) = (run serve .nil req t).next (req t).rdreq (req t).write :=
    fun t hclear => if_neg (Bool.eq_false_iff.1 hclear)
  refine ⟨?_, ?_, ?_, ?_⟩
  · intro t
    rw [← (hrun t).2]
    exact shows_toQueue (hrun t).1
  · intro t hclear h
    exact clock_of_refuses hclear h
  · intro t hclear hrd hwr
    rw [hserve t hclear, BoundedQueue.items_next, hrd, BoundedQueue.admitted_of_read (Nat.two_pow_pos w), Request.write,
      hwr]
    rfl
  · intro t k hclear
    have horder := BoundedQueue.order (q := fun i => run serve (.nil : BoundedQueue (2 ^ w) α) req (t + i)) k
      fun i hi => hserve (t + i) (hclear i hi)
    simp only [← (hrun _).2] at horder ⊢
    rw [journal_congr fun i _ => admitted_toQueue, journal_congr fun i _ => fifoOut_toQueue] at horder
    exact horder

end Runs

/-- A full queue of two elements loses its oldest one to a new one, is emptied, and is written and read at once. -/
def traffic (t : Nat) : Request (BitVec 8) :=
  match t with
  | 0 => ⟨true, false, false, true, 0x11⟩
  | 1 => ⟨true, false, false, true, 0x22⟩
  | 2 => ⟨true, false, true, true, 0x33⟩
  | 3 => ⟨true, false, true, false, 0⟩
  | 4 => ⟨true, false, true, false, 0⟩
  | _ => ⟨true, false, true, true, 0x44⟩

/-- Registers of before a reset. -/
def unset : SimpleFifo 1 (BitVec 8) := ⟨fun _ => 0xFF, 1, 0, true, 1⟩

theorem traffic_runsAsQueue : ((run serve (.nil : BoundedQueue (2 ^ 1) (BitVec 8)) traffic 3).items = [0x22, 0x33] ∧
      (run serve (.nil : BoundedQueue (2 ^ 1) (BitVec 8)) traffic 5).items = []) ∧
    RunsAs (run clock (unset.clock ⟨false, false, true, true, 0⟩) traffic) traffic (run serve .nil traffic) := by
  refine ⟨by decide, ?_⟩
  exact runsAsQueue (by decide) (cleared_clock rfl) traffic

end SimpleFifo

end Z486.Common
