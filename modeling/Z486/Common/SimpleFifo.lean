/-
The queue of the peripherals (src/common/simple_fifo.v), of any depth and for elements of any type: its registers, and
the list of what it holds.
-/
import Z486.Clocked.Bits
import Z486.Clocked.Fifo
import Mathlib.Tactic.Common

namespace Z486.Common

/-- A `simple_fifo` of `2 ^ w` elements. -/
structure SimpleFifo (w : Nat) (α : Type) where
  mem : BitVec w → α
  rdIndex : BitVec w
  wrIndex : BitVec w
  full : Bool
  usedw : BitVec w

namespace SimpleFifo

variable {w : Nat} {α : Type} (f : SimpleFifo w α)

def empty : Bool := f.usedw == 0 && !f.full

def q : α := f.mem f.rdIndex

/-- A clock; `clear` stands for a reset or for `sclr`. -/
def step (clear rdreq wrreq : Bool) (data : α) : SimpleFifo w α where
  mem := if wrreq && (!f.full || rdreq) then Function.update f.mem f.wrIndex data else f.mem
  rdIndex := if clear then 0 else if rdreq && !f.empty then f.rdIndex + 1 else f.rdIndex
  wrIndex := if clear then 0 else if wrreq && (!f.full || rdreq) then f.wrIndex + 1 else f.wrIndex
  full :=
    if clear then false
    else if rdreq && !wrreq && f.full then false
    else if !rdreq && wrreq && !f.full && f.usedw == -1 then true
    else f.full
  usedw :=
    if clear then 0
    else if rdreq && !wrreq && !f.empty then f.usedw - 1
    else if !rdreq && wrreq && !f.full then f.usedw + 1
    else if rdreq && wrreq && f.empty then 1
    else f.usedw

@[simp] theorem step_idle (data : α) : f.step false false false data = f := by
  simp [step]

/-! ## Contents -/

/-- The number of elements. -/
def count : Nat := if f.full then 2 ^ w else f.usedw.toNat

/-- What the queue holds, from its head on. -/
def contents : List α := (List.range f.count).map fun i => f.mem (f.rdIndex + BitVec.ofNat w i)

/-- The indices are apart by the number of elements. -/
structure Wf : Prop where
  index : f.wrIndex = f.rdIndex + BitVec.ofNat w f.count
  usedw : f.full = true → f.usedw = 0

/-- What an accepted write adds. -/
def pushed (clear rdreq wrreq : Bool) (data : α) : List α :=
  if clear then [] else if wrreq && (!f.full || rdreq) then [data] else []

variable {f}

@[simp] theorem length_contents : f.contents.length = f.count := by
  simp [contents]

theorem count_eq_zero : f.count = 0 ↔ f.empty = true := by
  have hpos : 0 < 2 ^ w := Nat.two_pow_pos w
  unfold count empty
  cases f.full with
  | true => simp
  | false => simp [BitVec.toNat_eq]

theorem contents_eq_nil : f.contents = [] ↔ f.empty = true := by
  rw [← List.length_eq_zero_iff, length_contents, count_eq_zero]

theorem contents_ne_nil : f.contents ≠ [] ↔ f.empty = false := by
  rw [Ne, contents_eq_nil, Bool.not_eq_true]

/-- The output is the head. -/
theorem head?_contents (h : f.empty = false) : f.contents.head? = some f.q := by
  have hpos : f.count ≠ 0 := by
    rw [Ne, count_eq_zero, h]
    simp
  obtain ⟨n, hn⟩ := Nat.exists_eq_succ_of_ne_zero hpos
  unfold contents q
  rw [hn, List.range_succ_eq_map]
  simp

theorem count_le : f.count ≤ 2 ^ w := by
  unfold count
  split
  · exact Nat.le_refl _
  · exact Nat.le_of_lt f.usedw.isLt

theorem full_iff_count : f.full = true ↔ f.count = 2 ^ w := by
  have hlt := f.usedw.isLt
  unfold count
  cases f.full with
  | true => exact iff_of_true rfl (if_pos rfl)
  | false =>
    refine iff_of_false Bool.false_ne_true ?_
    rw [if_neg Bool.false_ne_true]
    exact Nat.ne_of_lt hlt

theorem count_lt (h : f.full = false) : f.count < 2 ^ w := by
  refine Nat.lt_of_le_of_ne count_le fun heq => ?_
  rw [full_iff_count.2 heq] at h
  exact nomatch h

/-! ## Windows of the memory -/

/-- `n` elements of a memory from an index on. -/
def window (mem : BitVec w → α) (rd : BitVec w) (n : Nat) : List α :=
  (List.range n).map fun i => mem (rd + BitVec.ofNat w i)

@[simp] theorem window_zero (mem : BitVec w → α) (rd : BitVec w) : window mem rd 0 = [] := rfl

theorem window_succ (mem : BitVec w → α) (rd : BitVec w) (n : Nat) :
    window mem rd (n + 1) = mem rd :: window mem (rd + 1) n := by
  unfold window
  rw [List.range_succ_eq_map, List.map_cons, List.map_map]
  congr 1
  · simp
  · apply List.map_congr_left
    intro i _
    show mem (rd + BitVec.ofNat w (i + 1)) = mem (rd + 1 + BitVec.ofNat w i)
    rw [BitVec.ofNat_add, BitVec.add_comm (BitVec.ofNat w i), BitVec.add_assoc]
    rfl

/-- A write behind a window makes it longer. -/
theorem window_update (mem : BitVec w → α) (rd : BitVec w) {n : Nat} (h : n < 2 ^ w) (d : α) :
    window (Function.update mem (rd + BitVec.ofNat w n) d) rd (n + 1) = window mem rd n ++ [d] := by
  unfold window
  rw [List.range_succ, List.map_append, List.map_singleton, Function.update_self]
  congr 1
  apply List.map_congr_left
  intro i hi
  rw [List.mem_range] at hi
  rw [Function.update_of_ne]
  exact fun heq => Clocked.ofNat_ne_ofNat (by omega) h (by omega) ((BitVec.add_right_inj rd).1 heq)

/-- The oldest element is taken out. -/
theorem window_tail {mem : BitVec w → α} {rd : BitVec w} {l : List α} (h : window mem rd l.length = l) (hne : l ≠ []) :
    l.head? = some (mem rd) ∧ window mem (rd + 1) l.tail.length = l.tail ∧
      rd + BitVec.ofNat w l.length = rd + 1 + BitVec.ofNat w l.tail.length := by
  obtain ⟨x, v, rfl⟩ := List.exists_cons_of_ne_nil hne
  rw [List.length_cons, window_succ] at h
  obtain ⟨hx, hv⟩ := List.cons.inj h
  refine ⟨congrArg some hx.symm, hv, ?_⟩
  rw [List.tail_cons, List.length_cons, Clocked.ofNat_succ, BitVec.add_assoc, BitVec.add_comm 1]

/-- A new one is put in. -/
theorem window_push {mem : BitVec w → α} {rd : BitVec w} {l : List α} (h : window mem rd l.length = l)
    (hlength : l.length < 2 ^ w) (d : α) :
    window (Function.update mem (rd + BitVec.ofNat w l.length) d) rd (l ++ [d]).length = l ++ [d] := by
  rw [List.length_append]
  exact (window_update mem rd hlength d).trans (congrArg (· ++ [d]) h)

/-- A clock of a queue in a circular memory: its head may leave, and a new element may come in behind it. -/
theorem window_step {mem : BitVec w → α} {rd wr : BitVec w} {l : List α} (h : window mem rd l.length = l)
    (hwr : wr = rd + BitVec.ofNat w l.length) {pop push : Bool} (hpop : pop = true → l ≠ [])
    (hpush : push = true → (if pop then l.tail else l).length < 2 ^ w) (d : α) :
    let rd' := if pop then rd + 1 else rd
    let l' := Clocked.fifoStep l pop (if push then [d] else [])
    window (if push then Function.update mem wr d else mem) rd' l'.length = l' ∧
      (if push then wr + 1 else wr) = rd' + BitVec.ofNat w l'.length := by
  intro rd' l'
  -- what is left when the head has gone, and from where
  obtain ⟨v, hv, hcontents, hindex⟩ : ∃ v, v = (if pop then l.tail else l) ∧ window mem rd' v.length = v ∧
      wr = rd' + BitVec.ofNat w v.length := by
    refine ⟨_, rfl, ?_⟩
    cases hp : pop with
    | false => exact ⟨by simpa [rd', hp] using h, by simpa [rd', hp] using hwr⟩
    | true =>
      obtain ⟨-, htail, hback⟩ := window_tail h (hpop hp)
      exact ⟨by simpa [rd', hp] using htail, by simpa [rd', hp] using hwr.trans hback⟩
  have hl' : l' = v ++ if push then [d] else [] := by rw [hv]; rfl
  rw [hl']
  cases hp : push with
  | false =>
    rw [if_neg Bool.false_ne_true, if_neg Bool.false_ne_true, if_neg Bool.false_ne_true, List.append_nil]
    exact ⟨hcontents, hindex⟩
  | true =>
    rw [if_pos rfl, if_pos rfl, if_pos rfl, hindex]
    refine ⟨window_push hcontents (hv ▸ hpush hp) d, ?_⟩
    rw [List.length_append, List.length_singleton, Clocked.ofNat_succ, BitVec.add_assoc]

/-! ## A clock -/

theorem contents_eq_window : f.contents = window f.mem f.rdIndex f.count := rfl

/-- The number of elements after a clock. -/
theorem count_step (hw : 0 < w) (hf : f.Wf) (rdreq wrreq : Bool) (data : α) :
    (f.step false rdreq wrreq data).count =
      (if rdreq then f.count - 1 else f.count) + if wrreq && (!f.full || rdreq) then 1 else 0 := by
  have hlt := f.usedw.isLt
  have hone : 1 < 2 ^ w := Nat.one_lt_two_pow (by omega)
  have hmod : 1 % 2 ^ w = 1 := Nat.mod_eq_of_lt hone
  have h1 : (1 : BitVec w).toNat = 1 := by
    show (BitVec.ofNat w 1).toNat = 1
    rw [BitVec.toNat_ofNat, hmod]
  have hmax : f.usedw = -1 ↔ f.usedw.toNat = 2 ^ w - 1 := by
    rw [← BitVec.toNat_inj, BitVec.toNat_neg, h1, Nat.mod_eq_of_lt (by omega)]
  have hzero : f.usedw = 0 ↔ f.usedw.toNat = 0 := by
    rw [← BitVec.toNat_inj]
    simp
  have hsucc : (f.usedw + 1).toNat = if f.usedw.toNat = 2 ^ w - 1 then 0 else f.usedw.toNat + 1 := by
    rw [BitVec.toNat_add, h1]
    split
    · rw [show f.usedw.toNat + 1 = 2 ^ w by omega, Nat.mod_self]
    · exact Nat.mod_eq_of_lt (by omega)
  have hpred : (f.usedw - 1).toNat = if f.usedw.toNat = 0 then 2 ^ w - 1 else f.usedw.toNat - 1 := by
    rw [BitVec.toNat_sub, h1]
    split
    · rw [Nat.mod_eq_of_lt (by omega)]
      omega
    · rw [show 2 ^ w - 1 + f.usedw.toNat = 2 ^ w + (f.usedw.toNat - 1) by omega, Nat.add_mod_left,
        Nat.mod_eq_of_lt (by omega)]
  have hfull := hf.usedw
  simp only [count, step, empty, Bool.false_eq_true, if_false]
  cases rdreq <;> cases wrreq <;> grind

theorem wf_clear (f : SimpleFifo w α) (rdreq wrreq : Bool) (data : α) : (f.step true rdreq wrreq data).Wf := by
  refine ⟨?_, fun h => nomatch h⟩
  show (0 : BitVec w) = 0 + BitVec.ofNat w (BitVec.toNat 0)
  simp

section Serving

variable (hw : 0 < w) (hf : f.Wf) (rdreq wrreq : Bool) (data : α)

/-- What a clock without a reset leaves in the queue. -/
def served (f : SimpleFifo w α) (rdreq wrreq : Bool) (data : α) : List α :=
  (if rdreq then f.contents.tail else f.contents) ++ f.pushed false rdreq wrreq data

/-- A read of an empty queue takes nothing from it. -/
theorem served_eq_fifoStep : f.served rdreq wrreq data =
    Clocked.fifoStep f.contents (rdreq && !f.empty) (f.pushed false rdreq wrreq data) := by
  unfold served Clocked.fifoStep
  cases he : f.empty with
  | false => rw [Bool.not_false, Bool.and_true]
  | true =>
    rw [contents_eq_nil.2 he, Bool.not_true, Bool.and_false]
    cases rdreq <;> rfl

include hw hf in
theorem count_eq_length : (f.step false rdreq wrreq data).count = (f.served rdreq wrreq data).length := by
  rw [count_step hw hf, served, List.length_append]
  congr 1
  · cases rdreq with
    | false => exact length_contents.symm
    | true => rw [if_pos rfl, if_pos rfl, List.length_tail, length_contents]
  · rw [pushed, if_neg Bool.false_ne_true]
    split <;> rfl

include hf in
/-- The memory and the indices after a clock without a reset. -/
theorem window_served :
    window (f.step false rdreq wrreq data).mem (f.step false rdreq wrreq data).rdIndex
        (f.served rdreq wrreq data).length = f.served rdreq wrreq data ∧
      (f.step false rdreq wrreq data).wrIndex =
        (f.step false rdreq wrreq data).rdIndex + BitVec.ofNat w (f.served rdreq wrreq data).length := by
  have hwindow : window f.mem f.rdIndex f.contents.length = f.contents := by
    rw [length_contents]
    rfl
  have hindex : f.wrIndex = f.rdIndex + BitVec.ofNat w f.contents.length := by
    rw [length_contents]
    exact hf.index
  have hpop : (rdreq && !f.empty) = true → f.contents ≠ [] := fun h =>
    contents_ne_nil.2 (Bool.not_eq_true' _ ▸ (Bool.and_eq_true_iff.1 h).2)
  have hpush : (wrreq && (!f.full || rdreq)) = true →
      (if rdreq && !f.empty then f.contents.tail else f.contents).length < 2 ^ w := by
    intro h
    have hle := count_le (f := f)
    cases hpopped : rdreq && !f.empty with
    | true =>
      -- what leaves makes room
      have hpos := List.length_pos_iff.2 (hpop hpopped)
      rw [length_contents] at hpos
      rw [if_pos rfl, List.length_tail, length_contents]
      omega
    | false =>
      rw [if_neg Bool.false_ne_true, length_contents]
      cases hfull : f.full with
      | false => exact count_lt hfull
      | true =>
        -- a full queue takes an element only with a read, and it is not empty
        have hempty : f.empty = false := by simp [empty, hfull]
        rw [hfull, Bool.not_true, Bool.false_or] at h
        rw [(Bool.and_eq_true_iff.1 h).2, hempty] at hpopped
        exact nomatch hpopped
  rw [served_eq_fifoStep]
  exact window_step hwindow hindex hpop hpush data

end Serving

/-- The indices and the flag stay those of the number of elements. -/
theorem Wf.step (hw : 0 < w) (hf : f.Wf) (clear rdreq wrreq : Bool) (data : α) :
    (f.step clear rdreq wrreq data).Wf := by
  cases clear with
  | true => exact wf_clear f rdreq wrreq data
  | false =>
    constructor
    · rw [count_eq_length hw hf]
      exact (window_served hf rdreq wrreq data).2
    · have hused := hf.usedw
      have hwrap : (-1 : BitVec w) + 1 = 0 := by
        rw [BitVec.add_comm]
        exact BitVec.add_right_neg 1
      simp only [SimpleFifo.step, empty, Bool.false_eq_true, if_false]
      cases rdreq <;> cases wrreq <;> grind

/-- What the queue holds after a clock. -/
theorem contents_step (hw : 0 < w) (hf : f.Wf) (clear rdreq wrreq : Bool) (data : α) :
    (f.step clear rdreq wrreq data).contents =
      if clear then [] else (if rdreq then f.contents.tail else f.contents) ++ f.pushed clear rdreq wrreq data := by
  cases clear with
  | true => rfl
  | false =>
    rw [contents_eq_window, count_eq_length hw hf, (window_served hf rdreq wrreq data).1]
    rfl

end SimpleFifo

end Z486.Common
