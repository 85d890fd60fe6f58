/-
The clocks of a read or write command of the floppy controller that moves its data by DMA: the states in their order and
the queue of 1024 bytes that every sector goes through.
-/
import Z486.Common.SimpleFifo
import Z486.Disk.FloppyBusy

namespace Z486.Disk

open Common (SimpleFifo)

/-! ## The queue -/

namespace Fifo

/-- The queue is the common one. -/
def toSimple (f : Fifo) : SimpleFifo 10 (BitVec 8) where
  mem := f.mem
  rdIndex := f.rdIndex
  wrIndex := f.wrIndex
  full := f.full
  usedw := f.usedw

variable {f : Fifo}

theorem toSimple_step (clear rdreq wrreq : Bool) (data : BitVec 8) :
    (f.step clear rdreq wrreq data).toSimple = f.toSimple.step clear rdreq wrreq data := by
  have hmem : (fun a => if a = f.wrIndex then data else f.mem a) = Function.update f.mem f.wrIndex data := by
    funext a
    rw [Function.update_apply]
  unfold toSimple Fifo.step SimpleFifo.step
  simp only [hmem]
  rfl

def contents (f : Fifo) : List (BitVec 8) := f.toSimple.contents

def Wf (f : Fifo) : Prop := f.toSimple.Wf

theorem contents_eq_nil : f.contents = [] ↔ f.empty = true := SimpleFifo.contents_eq_nil

theorem head?_contents (h : f.empty = false) : f.contents.head? = some f.q := SimpleFifo.head?_contents h

theorem Wf.step (h : f.Wf) (clear rdreq wrreq : Bool) (data : BitVec 8) : (f.step clear rdreq wrreq data).Wf := by
  unfold Wf
  rw [toSimple_step]
  exact SimpleFifo.Wf.step (by omega) h _ _ _ _

theorem contents_step (h : f.Wf) (rdreq wrreq : Bool) (data : BitVec 8) (hfull : f.contents.length < 1024) :
    (f.step false rdreq wrreq data).contents =
      (if rdreq then f.contents.tail else f.contents) ++ if wrreq then [data] else [] := by
  have hno : f.toSimple.full = false := by
    by_contra hf
    rw [Bool.not_eq_false] at hf
    rw [contents, SimpleFifo.length_contents, SimpleFifo.count, hf] at hfull
    simp at hfull
  rw [contents, toSimple_step, SimpleFifo.contents_step (by omega) h, SimpleFifo.pushed, hno]
  simp [contents]

theorem contents_clear (rdreq wrreq : Bool) (data : BitVec 8) : (f.step true rdreq wrreq data).contents = [] := rfl

theorem wf_clear (rdreq wrreq : Bool) (data : BitVec 8) : (f.step true rdreq wrreq data).Wf := by
  unfold Wf
  rw [toSimple_step]
  exact SimpleFifo.wf_clear _ _ _ _

/-- Bit 9 of the count tells of a whole sector. -/
theorem usedw_nine (h : f.contents.length ≤ 512) : f.usedw.getLsbD 9 = true ↔ f.contents.length = 512 := by
  have hbit : ∀ n : Nat, n ≤ 512 → (n.testBit 9 = true ↔ n = 512) := by
    intro n hn
    rw [Nat.testBit_eq_decide_div_mod_eq, decide_eq_true_iff]
    omega
  have hlen : f.contents.length = if f.full then 1024 else f.usedw.toNat := SimpleFifo.length_contents
  have hfull : f.full = false := by
    by_contra hf
    rw [hlen, if_pos (by simpa using hf)] at h
    omega
  rw [hfull] at hlen
  rw [hlen] at h ⊢
  exact hbit _ h

end Fifo

namespace Floppy

variable (s : Floppy) (i : FloppyIn)

/-! ## A clock of a transfer -/

/-- The requests to the host: bit 1 to take a sector, bit 0 to give one. -/
def request : BitVec 2 :=
  if s.state == .sdReadWaitForData || s.state == .sdWriteWaitForEmptyFifo || s.state == .sdFormatWaitForFill then
    BitVec.ofBool (s.cmdWriteNormalInProgress || s.cmdFormatInProgress) ++ BitVec.ofBool s.cmdReadNormalInProgress
  else 0

/-- The host and the DMA controller do what they are asked for, and the guest does not reset the controller or close its
gate to the DMA controller. -/
structure Asked : Prop where
  rstN : i.rstN = true
  noReset : s.swReset i = false
  gate : i.writes 2 = true → i.ioWritedata.getLsbD 3 = true
  acks : i.dmaAck = true → s.dmaReq { i with dmaAck := false } = true
  gives : i.fifoWrite = true → s.request.getLsbD 0 = true ∧ s.fifoFull = false
  takes : i.fifoRead = true → s.request.getLsbD 1 = true ∧ s.fifo.empty = false

/-- The states of a transfer that writes to the disk, or of one that reads from it. -/
def statesOf (w : Bool) : List FloppyState :=
  [.prepareCount, .countLogical, .prepare, .sdControl, .updateSector, .wait, .checkTc] ++
    if w then [.waitForFullWriteFifo, .sdWriteWaitForEmptyFifo] else [.sdReadWaitForData, .waitForEmptyReadFifo]

/-- The state after a clock of a transfer. -/
def transferNext (w : Bool) : FloppyState :=
  match s.state with
  | .prepareCount => .countLogical
  | .countLogical => if s.multB == 0 then if w then .waitForFullWriteFifo else .prepare else .countLogical
  | .prepare => .sdControl
  | .sdControl => if w then .sdWriteWaitForEmptyFifo else .sdReadWaitForData
  | .sdReadWaitForData => if s.fifoFull then .waitForEmptyReadFifo else .sdReadWaitForData
  | .waitForEmptyReadFifo => if s.fifo.empty then .updateSector else .waitForEmptyReadFifo
  | .waitForFullWriteFifo => if s.fifoFull then .prepare else .waitForFullWriteFifo
  | .sdWriteWaitForEmptyFifo => if s.fifo.empty then .updateSector else .sdWriteWaitForEmptyFifo
  | .updateSector => .wait
  | .wait => if s.commandWaitCounter == 0 then .checkTc else .wait
  | .checkTc => if s.dmaHasTerminated then .idle else .prepareCount
  | state => state

/-- How many bytes the queue can hold in a state. -/
def levels (w : Bool) (n : Nat) : FloppyState → Prop
  | .sdReadWaitForData | .waitForEmptyReadFifo | .waitForFullWriteFifo | .sdWriteWaitForEmptyFifo => n ≤ 512
  | .prepare | .sdControl => n = if w then 512 else 0
  | _ => n = 0

/-- A read or write command is under way. -/
structure Transfers (w : Bool) : Prop where
  code : s.pendingCommand.extractLsb' 0 5 = if w then 0x05 else 0x06
  ndma : s.executeNdma = false
  left : s.commandLeft = 0
  state : s.state ∈ statesOf w
  wf : s.fifo.Wf
  level : levels w s.fifo.contents.length s.state

variable {s i} in
theorem length_lt (hlevel : s.fifo.contents.length ≤ 512) (hfull : s.fifoFull = false) :
    s.fifo.contents.length < 512 := by
  refine Nat.lt_of_le_of_ne hlevel fun he => ?_
  rw [fifoFull, (Fifo.usedw_nine hlevel).2 he] at hfull
  cases hfull

namespace Transfers

variable {s i} {w : Bool} (h : s.Transfers w)
include h

theorem ne_idle : s.state ≠ .idle := by
  intro he
  have hin := h.state
  rw [he] at hin
  revert hin
  cases w <;> decide

theorem inProgress_eq (code : BitVec 5) : s.inProgress code = ((if w then 0x05 else 0x06) == code) := by
  rw [inProgress, h.code]

theorem readInProgress : s.cmdReadNormalInProgress = !w := by
  rw [cmdReadNormalInProgress, h.inProgress_eq]
  cases w <;> decide

theorem writeInProgress : s.cmdWriteNormalInProgress = w := by
  rw [cmdWriteNormalInProgress, h.inProgress_eq]
  cases w <;> decide

theorem formatInProgress : s.cmdFormatInProgress = false := by
  rw [cmdFormatInProgress, h.inProgress_eq]
  cases w <;> decide

theorem readIdInProgress : s.cmdReadIdInProgress = false := by
  rw [cmdReadIdInProgress, h.inProgress_eq]
  cases w <;> decide

theorem readIdFinished : s.cmdReadIdFinished = false := by
  rw [cmdReadIdFinished, h.readIdInProgress, Bool.and_false]

theorem ne_formatInput : s.state ≠ .waitForFormatInput := by
  intro he
  have hin := h.state
  rw [he] at hin
  revert hin
  cases w <;> decide

theorem formatInputFinish : s.formatInputFinish = false := by
  rw [Floppy.formatInputFinish, beq_false_of_ne h.ne_formatInput, Bool.false_and]

theorem readWriteFinish : s.cmdReadWriteFinish = s.dmaHasTerminated := by
  rw [cmdReadWriteFinish, h.readInProgress, h.writeInProgress, h.ndma]
  cases w <;> simp

theorem checkTcFinish_eq : s.checkTcFinish = (s.state == .checkTc && s.dmaHasTerminated) := by
  rw [checkTcFinish, cmdFormatFinish, h.readWriteFinish, h.formatInProgress, Bool.false_and, Bool.or_false]

theorem transferEnds_eq : s.transferEnds = (s.state == .checkTc && s.dmaHasTerminated) := by
  rw [transferEnds, h.checkTcFinish_eq, h.formatInputFinish, h.readIdFinished, Bool.or_false, Bool.or_false]

theorem noStart : NoStart s i := .of_not_idle h.ne_idle

theorem stateNext_eq (hr : i.rstN = true) : s.stateNext i = s.transferNext w := by
  unfold stateNext
  rw [h.noStart.last.readWriteOk, h.noStart.last.formatOk, h.noStart.last.readIdOk, hr, h.readInProgress,
    h.writeInProgress, h.formatInProgress, h.readIdInProgress, h.readIdFinished, h.formatInputFinish, h.checkTcFinish_eq]
  unfold transferNext
  have hin := h.state
  -- the states of the other commands, and of a transfer the other way, do not occur
  cases hs : s.state <;> cases w <;> first | (exfalso; rw [hs] at hin; revert hin; decide) | simp

/-! ### What the host and the DMA controller may do -/

theorem request_eq : s.request =
    if s.state == .sdReadWaitForData || s.state == .sdWriteWaitForEmptyFifo then
      BitVec.ofBool w ++ BitVec.ofBool (!w) else 0 := by
  have hno : (s.state == .sdFormatWaitForFill) = false := by
    rw [beq_eq_false_iff_ne]
    intro he
    have hin := h.state
    rw [he] at hin
    revert hin
    cases w <;> decide
  rw [request, hno, h.writeInProgress, h.formatInProgress, h.readInProgress, Bool.or_false, Bool.or_false]

theorem ne_of_write (hw : w = true) : s.state ≠ .sdReadWaitForData ∧ s.state ≠ .waitForEmptyReadFifo := by
  have hin := h.state
  constructor <;>
    · intro he
      rw [he, hw] at hin
      revert hin
      decide

theorem ne_of_read (hw : w = false) : s.state ≠ .sdWriteWaitForEmptyFifo ∧ s.state ≠ .waitForFullWriteFifo := by
  have hin := h.state
  constructor <;>
    · intro he
      rw [he, hw] at hin
      revert hin
      decide

theorem request_zero : s.request.getLsbD 0 = true ↔ w = false ∧ s.state = .sdReadWaitForData := by
  have hbits : ∀ c w : Bool, (if c then BitVec.ofBool w ++ BitVec.ofBool (!w) else 0).getLsbD 0 = (c && !w) := by decide
  rw [h.request_eq, hbits]
  cases w with
  | true => simp
  | false => simp [(h.ne_of_read rfl).1]

theorem request_one : s.request.getLsbD 1 = true ↔ w = true ∧ s.state = .sdWriteWaitForEmptyFifo := by
  have hbits : ∀ c w : Bool, (if c then BitVec.ofBool w ++ BitVec.ofBool (!w) else 0).getLsbD 1 = (c && w) := by decide
  rw [h.request_eq, hbits]
  cases w with
  | true => simp [(h.ne_of_write rfl).1]
  | false => simp

/-- The host gives a byte only to a read that waits for it. -/
theorem gives_state (ha : s.Asked i) (hg : i.fifoWrite = true) :
    w = false ∧ s.state = .sdReadWaitForData ∧ s.fifo.contents.length < 512 := by
  obtain ⟨hreq, hfull⟩ := ha.gives hg
  obtain ⟨hw, hs⟩ := h.request_zero.1 hreq
  have hlevel := h.level
  rw [hs] at hlevel
  exact ⟨hw, hs, length_lt hlevel hfull⟩

/-- The host takes a byte only from a write that waits for it. -/
theorem takes_state (ha : s.Asked i) (ht : i.fifoRead = true) :
    w = true ∧ s.state = .sdWriteWaitForEmptyFifo ∧ s.fifo.empty = false := by
  obtain ⟨hreq, hempty⟩ := ha.takes ht
  obtain ⟨hw, hs⟩ := h.request_one.1 hreq
  exact ⟨hw, hs, hempty⟩

/-- The DMA controller moves a byte only where one waits for it, or there is room for one. -/
theorem acks_state (ha : s.Asked i) (hack : i.dmaAck = true) : s.dmaHasTerminated = false ∧ s.dmaIrqEnable = true ∧
    ((w = false ∧ s.state = .waitForEmptyReadFifo ∧ s.fifo.empty = false) ∨
      (w = true ∧ s.state = .waitForFullWriteFifo ∧ s.fifo.contents.length < 512)) := by
  have hreq := ha.acks hack
  simp only [dmaReq, h.readInProgress, h.writeInProgress, h.formatInProgress, Bool.and_eq_true, Bool.or_eq_true,
    Bool.not_eq_true', Bool.false_and, Bool.or_false, beq_iff_eq] at hreq
  obtain ⟨⟨⟨⟨-, hterm⟩, hgate⟩, -⟩, ⟨⟨hw, hempty⟩, hs⟩ | ⟨⟨hw, hfull⟩, hs⟩⟩ := hreq
  · exact ⟨hterm, hgate, .inl ⟨hw, hs, hempty⟩⟩
  · have hlevel := h.level
    rw [hs] at hlevel
    exact ⟨hterm, hgate, .inr ⟨hw, hs, length_lt hlevel hfull⟩⟩

/-! In every other state nothing moves. -/

theorem no_give (ha : s.Asked i) (hs : s.state ≠ .sdReadWaitForData) : i.fifoWrite = false := by
  by_contra hg
  exact hs (h.gives_state ha (by simpa using hg)).2.1

theorem no_take (ha : s.Asked i) (hs : s.state ≠ .sdWriteWaitForEmptyFifo) : i.fifoRead = false := by
  by_contra ht
  exact hs (h.takes_state ha (by simpa using ht)).2.1

theorem no_ack (ha : s.Asked i) (hr : s.state ≠ .waitForEmptyReadFifo) (hw : s.state ≠ .waitForFullWriteFifo) :
    i.dmaAck = false := by
  by_contra hack
  rcases (h.acks_state ha (by simpa using hack)).2.2 with ⟨-, hs, -⟩ | ⟨-, hs, -⟩
  · exact hr hs
  · exact hw hs

/-! ### The queue -/

theorem length_le : s.fifo.contents.length ≤ 512 := by
  have hlevel := h.level
  revert hlevel
  unfold levels
  cases s.state <;> cases w <;> simp only [Bool.false_eq_true, if_false, if_true] <;> omega

/-- What the queue holds after a clock of a read: what the host has given goes in, and what DMA takes comes out. -/
theorem contents_read (ha : s.Asked i) (hw : w = false) : (s.step i).fifo.contents =
    (if i.dmaAck then s.fifo.contents.tail else s.fifo.contents) ++
      if i.fifoWrite then [i.mgmtWritedata.extractLsb' 0 8] else [] := by
  have hlen := h.length_le
  show (s.fifoNext i).contents = _
  unfold fifoNext fifoPcRd ndmaRead
  simp only [ha.rstN, beq_false_of_ne h.ne_idle, beq_false_of_ne (h.ne_of_read hw).2, h.ndma, Bool.not_true, Bool.or_self,
    Bool.and_false, Bool.false_and, Bool.not_false, Bool.true_and, Bool.false_or, Bool.false_eq_true, if_false]
  rw [Fifo.contents_step h.wf _ _ _ (by omega)]
  by_cases hs : s.state = .waitForEmptyReadFifo
  · simp [hs]
  · simp [hs, h.no_ack ha hs (h.ne_of_read hw).2, h.no_take ha (h.ne_of_read hw).1]

/-- What the queue holds after a clock of a write: what DMA gives goes in, after the terminal count zeros up to a whole
sector, and what the host takes comes out. -/
theorem contents_write (ha : s.Asked i) (hw : w = true) : (s.step i).fifo.contents =
    (if i.fifoRead then s.fifo.contents.tail else s.fifo.contents) ++
      if s.dmaHasTerminated then if s.state == .waitForFullWriteFifo && !s.fifoFull then [0] else []
      else if i.dmaAck then [i.dmaReaddata] else [] := by
  have hlen := h.length_le
  show (s.fifoNext i).contents = _
  unfold fifoNext fifoPcWr ndmaWrite
  simp only [ha.rstN, beq_false_of_ne h.ne_idle, beq_false_of_ne (h.ne_of_write hw).2, h.ndma, Bool.not_true, Bool.or_self,
    Bool.and_false, Bool.false_and, Bool.not_false, Bool.true_and, Bool.false_or, Bool.false_eq_true, if_false]
  rw [Fifo.contents_step h.wf _ _ _ (by omega)]
  have hno := h.no_give ha (h.ne_of_write hw).1
  by_cases hs : s.state = .waitForFullWriteFifo
  · cases hack : i.dmaAck with
    | false => cases ht : s.dmaHasTerminated <;> simp [hs]
    | true =>
      obtain ⟨ht, -, ⟨-, h1, -⟩ | ⟨-, -, hlt⟩⟩ := h.acks_state ha hack
      · exact absurd (h1.symm.trans hs) (by simp)
      · have hfull : s.fifoFull = false := by
          by_contra hf
          have h512 := (Fifo.usedw_nine (by omega)).1 (by simpa [fifoFull] using hf)
          omega
        simp [hs, ht, hfull]
  · simp [hs, h.no_ack ha (h.ne_of_write hw).2 hs, hno]

/-! ### The next clock -/

theorem fifoFull_iff : s.fifoFull = true ↔ s.fifo.contents.length = 512 := Fifo.usedw_nine h.length_le

/-- A clock in which the queue stays as it is. -/
theorem level_same : levels w s.fifo.contents.length (s.transferNext w) := by
  have hlevel := h.level
  have hfull := h.fifoFull_iff
  have hempty : s.fifo.empty = true ↔ s.fifo.contents.length = 0 := by
    rw [← Fifo.contents_eq_nil, List.length_eq_zero_iff]
  have hin := h.state
  generalize s.fifo.contents.length = n at hlevel hfull hempty ⊢
  unfold transferNext
  cases hs : s.state <;> cases w <;> first | (exfalso; rw [hs] at hin; revert hin; decide) | skip
  all_goals
    rw [hs] at hlevel
    simp only [levels, Bool.false_eq_true, if_false, if_true] at hlevel
    simp only [Bool.false_eq_true, if_false, if_true]
    repeat' split
    all_goals simp_all [levels]

/-- The level of the queue in the next clock. -/
theorem level_step (ha : s.Asked i) : levels w (s.step i).fifo.contents.length (s.transferNext w) := by
  have hmoves : ∀ n, n ≤ 512 → (s.state = .waitForEmptyReadFifo ∧ s.fifo.empty = false ∨
      s.state = .waitForFullWriteFifo ∧ s.fifoFull = false ∨ s.state = .sdReadWaitForData ∧ s.fifoFull = false ∨
      s.state = .sdWriteWaitForEmptyFifo ∧ s.fifo.empty = false) → levels w n (s.transferNext w) := by
    -- a byte moves only in the states that the transfer then stays in
    rintro n hn (⟨hs, hno⟩ | ⟨hs, hno⟩ | ⟨hs, hno⟩ | ⟨hs, hno⟩) <;>
      simpa [transferNext, hs, hno, levels] using hn
  have hfull : s.fifo.contents.length < 512 → s.fifoFull = false := fun hlt => by
    by_contra hf
    have h512 := h.fifoFull_iff.1 (by simpa using hf)
    omega
  cases w with
  | false =>
    rw [h.contents_read ha rfl]
    by_cases hack : i.dmaAck = true
    · obtain ⟨-, -, ⟨-, hs, hempty⟩ | ⟨hw, -⟩⟩ := h.acks_state ha hack
      · rw [hack, h.no_give ha (by simp [hs])]
        refine hmoves _ ?_ (.inl ⟨hs, hempty⟩)
        have hlen := h.length_le
        simp
        omega
      · cases hw
    · rw [Bool.not_eq_true] at hack
      rw [hack]
      by_cases hg : i.fifoWrite = true
      · obtain ⟨-, hs, hlt⟩ := h.gives_state ha hg
        rw [hg]
        refine hmoves _ ?_ (.inr (.inr (.inl ⟨hs, hfull hlt⟩)))
        simp
        omega
      · rw [Bool.not_eq_true] at hg
        rw [hg]
        simpa using h.level_same
  | true =>
    rw [h.contents_write ha rfl]
    by_cases ht : i.fifoRead = true
    · obtain ⟨-, hs, hempty⟩ := h.takes_state ha ht
      rw [ht, h.no_ack ha (by simp [hs]) (by simp [hs]), hs]
      refine hmoves _ ?_ (.inr (.inr (.inr ⟨hs, hempty⟩)))
      have hlen := h.length_le
      simp
      omega
    · rw [Bool.not_eq_true] at ht
      rw [ht]
      cases hterm : s.dmaHasTerminated with
      | true =>
        by_cases hpush : (s.state == .waitForFullWriteFifo && !s.fifoFull) = true
        · rw [hpush]
          simp only [Bool.and_eq_true, beq_iff_eq, Bool.not_eq_true'] at hpush
          refine hmoves _ ?_ (.inr (.inl hpush))
          have hlt := length_lt h.length_le hpush.2
          simp
          omega
        · rw [Bool.not_eq_true] at hpush
          rw [hpush]
          simpa using h.level_same
      | false =>
        by_cases hack : i.dmaAck = true
        · obtain ⟨-, -, ⟨hw, -⟩ | ⟨-, hs, hlt⟩⟩ := h.acks_state ha hack
          · cases hw
          · rw [hack]
            refine hmoves _ ?_ (.inr (.inl ⟨hs, hfull hlt⟩))
            simp
            omega
        · rw [Bool.not_eq_true] at hack
          rw [hack]
          simpa using h.level_same

theorem enterResultPhase_eq : s.enterResultPhase i = (s.state == .checkTc && s.dmaHasTerminated) :=
  h.noStart.enterResultPhase.trans h.transferEnds_eq

theorem commandLeft_step (hr : i.rstN = true) : (s.step i).commandLeft = 0 := by
  have hn : s.commandNext i = false := by
    unfold commandNext
    rw [beq_false_of_ne h.ne_idle, Bool.and_false, Bool.false_and]
  show s.commandLeftNext i = 0
  unfold commandLeftNext
  rw [hr, h.noStart.first, hn]
  exact h.left

theorem mem_statesOf (hend : (s.state == .checkTc && s.dmaHasTerminated) = false) :
    s.transferNext w ∈ statesOf w := by
  have hmem : ∀ {c : Prop} [Decidable c] {x y : FloppyState}, x ∈ statesOf w → y ∈ statesOf w →
      (if c then x else y) ∈ statesOf w := by
    intro c _ x y hx hy
    split
    · exact hx
    · exact hy
  rw [transferNext]
  rcases List.mem_append.1 h.state with hin | hin
  · -- what a write and a read have in common
    simp only [List.mem_cons, List.not_mem_nil, or_false] at hin
    rcases hin with hs | hs | hs | hs | hs | hs | hs <;> rw [hs] <;> dsimp only
    · exact List.mem_append_left _ (by decide)
    · refine hmem ?_ (List.mem_append_left _ (by decide))
      cases w <;> decide
    · exact List.mem_append_left _ (by decide)
    · cases w <;> decide
    · exact List.mem_append_left _ (by decide)
    · exact hmem (List.mem_append_left _ (by decide)) (List.mem_append_left _ (by decide))
    · rw [hs] at hend
      have hgoes : s.dmaHasTerminated = false := hend
      rw [hgoes]
      exact List.mem_append_left _ (by decide)
  · cases w <;> simp only [if_true, Bool.false_eq_true, if_false, List.mem_cons, List.not_mem_nil, or_false] at hin <;>
      rcases hin with hs | hs <;> rw [hs] <;> exact hmem (by decide) (by decide)

/-- A transfer that does not end in a clock goes on in the next. -/
theorem step (ha : s.Asked i) (hend : (s.state == .checkTc && s.dmaHasTerminated) = false) :
    (s.step i).Transfers w := by
  have hres : s.enterResultPhase i = false := h.enterResultPhase_eq.trans hend
  have hstate : (s.step i).state = s.transferNext w := h.stateNext_eq ha.rstN
  refine ⟨?_, ?_, h.commandLeft_step ha.rstN, ?_, ?_, ?_⟩
  · have hkeep : s.pendingCommandNext i = s.pendingCommand := by
      have hrecal : s.cmdRecalibrateStart i = false := h.noStart.last _ _ _
      unfold pendingCommandNext
      rw [ha.rstN, ha.noReset, h.noStart.last.readWriteOk, h.noStart.last.formatOk, h.noStart.last.readIdOk, hrecal, hres]
      rfl
    show (s.pendingCommandNext i).extractLsb' 0 5 = _
    rw [hkeep]
    exact h.code
  · show s.executeNdmaNext i = false
    unfold executeNdmaNext
    rw [ha.rstN, h.noStart.last.readWriteOk, h.noStart.last.formatOk, hres]
    exact h.ndma
  · rw [hstate]
    exact h.mem_statesOf hend
  · exact h.wf.step _ _ _ _
  · rw [hstate]
    exact h.level_step ha

theorem dmaHasTerminated_step (hr : i.rstN = true) :
    (s.step i).dmaHasTerminated = (i.dmaTc || s.dmaHasTerminated) := by
  show (if !i.rstN then false else if s.state == .idle then false else if i.dmaTc then true else s.dmaHasTerminated) = _
  rw [hr, beq_false_of_ne h.ne_idle]
  cases i.dmaTc <;> rfl

end Transfers

theorem dmaIrqEnable_step (ha : s.Asked i) (h : s.dmaIrqEnable = true) : (s.step i).dmaIrqEnable = true := by
  show (if !i.rstN then true else if i.writes 2 then i.ioWritedata.getLsbD 3 else s.dmaIrqEnable) = true
  rw [ha.rstN, h]
  cases hw : i.writes 2 with
  | false => rfl
  | true => simpa using ha.gate hw

/-! ## The result of a transfer -/

/-- The result phase of a transfer, with its interrupt and `n` result bytes left. -/
structure Results (n : Nat) : Prop where
  idle : s.state = .idle
  left : s.commandLeft = 0
  busy : s.busy = true
  replies : s.replyLeft.toNat = n

variable {s i}

/-- A transfer that has come to its end enters the result phase. -/
theorem Transfers.result {w : Bool} (h : s.Transfers w) (ha : s.Asked i) (hgate : s.dmaIrqEnable = true)
    (hend : (s.state == .checkTc && s.dmaHasTerminated) = true) :
    (s.step i).Results 7 ∧ (s.step i).irq = true := by
  have hres : s.enterResultPhase i = true := h.enterResultPhase_eq.trans hend
  have hfinish : s.checkTcFinish = true := h.checkTcFinish_eq.trans hend
  have hno := h.noStart (i := i)
  have hnone : ∀ size low code, s.lastByte i size low code = false := hno.last
  refine ⟨⟨?_, h.commandLeft_step ha.rstN, ?_, ?_⟩, ?_⟩
  · rw [Bool.and_eq_true, beq_iff_eq] at hend
    show s.stateNext i = .idle
    rw [h.stateNext_eq ha.rstN, transferNext, hend.1, hend.2]
    rfl
  · show s.busyNext i = true
    unfold busyNext cmdRecalibrateStart cmdSeekStart cmdSpecifyStart cmdConfigureModeStart cmdPerpendicularModeStart
    simp only [ha.rstN, ha.noReset, hno.first, hnone, hres, Bool.not_true, Bool.or_self, Bool.false_eq_true, if_false,
      if_true]
  · show (s.replyLeftNext i).toNat = 7
    unfold replyLeftNext cmdInvalidStart cmdWriteNormalStart cmdFormatTrackStart
    rw [ha.rstN, ha.noReset, hno.first, hno.last.readWrite, hnone, hnone, hfinish]
    rfl
  · show s.irqNext i = true
    have hraise : s.raiseInterrupt i = true := by
      unfold raiseInterrupt
      simp only [hgate, hfinish, Bool.or_true, Bool.true_or, Bool.and_self]
    have hndma : s.ndmaWrite i = false ∧ s.ndmaRead i = false := by
      unfold ndmaWrite ndmaRead
      rw [h.ndma]
      simp
    unfold irqNext
    rw [ha.rstN, ha.noReset, hndma.1, hndma.2, hraise]
    cases !s.oldEnable && s.enable <;> simp

namespace Results

variable {n : Nat} (h : s.Results (n + 1))
include h

theorem noStart : NoStart s i := by
  constructor
  · unfold commandFirst
    rw [h.busy, Bool.not_true, Bool.and_false]
  · apply NoLast.of_not_next
    unfold commandNext
    rw [h.left]
    exact Bool.and_false _

/-- The state and the parameters stay as they are. -/
theorem rest (hr : i.rstN = true) : (s.step i).state = .idle ∧ (s.step i).commandLeft = 0 := by
  have hn : s.commandNext i = false := by
    unfold commandNext
    rw [h.left]
    exact Bool.and_false _
  refine ⟨(h.noStart.last.stateNext_idle_iff hr).2 (.inl h.idle), ?_⟩
  show s.commandLeftNext i = 0
  unfold commandLeftNext
  rw [hr, h.noStart.first, hn]
  exact h.left

theorem busyNext_eq (hr : i.rstN = true) (hs : s.swReset i = false) :
    (s.step i).busy = !(i.reads 5 && decide (n = 0)) := by
  have hres : s.enterResultPhase i = false := h.noStart.enterResultPhase.trans (transferEnds_of_idle h.idle)
  have hone : (s.replyLeft == 1) = decide (n = 0) := by
    have hlen := h.replies
    rw [Bool.eq_iff_iff, beq_iff_eq, decide_eq_true_iff, ← BitVec.toNat_inj, hlen]
    show n + 1 = 1 ↔ n = 0
    omega
  show s.busyNext i = _
  rw [busyNext_of_quiet hr hs h.noStart hres, hone, h.busy]
  cases i.reads 5 && decide (n = 0) <;> rfl

theorem replies_step (hr : i.rstN = true) (hs : s.swReset i = false) :
    (s.step i).replyLeft.toNat = if i.reads 5 then n else n + 1 := by
  have hres : s.enterResultPhase i = false := h.noStart.enterResultPhase.trans (transferEnds_of_idle h.idle)
  have hlen := h.replies
  have hne : (s.replyLeft != 0) = true := by
    rw [bne_iff_ne]
    intro he
    rw [he] at hlen
    exact absurd hlen (by simp)
  show (s.replyLeftNext i).toNat = _
  rw [replyLeft_of_no_result hr hs hres, hne, Bool.and_true]
  split
  · bv_omega
  · exact hlen

/-- The result waits until it is read. -/
theorem wait (hr : i.rstN = true) (hs : s.swReset i = false) (hread : i.reads 5 = false) :
    (s.step i).Results (n + 1) := by
  have hbusy := h.busyNext_eq hr hs
  have hreplies := h.replies_step hr hs
  rw [hread] at hbusy hreplies
  exact ⟨(h.rest hr).1, (h.rest hr).2, hbusy, hreplies⟩

/-- A result byte is read, which is not the last. -/
theorem read {m : Nat} (hm : n = m + 1) (hr : i.rstN = true) (hs : s.swReset i = false) (hread : i.reads 5 = true) :
    (s.step i).Results n := by
  have hbusy := h.busyNext_eq hr hs
  have hreplies := h.replies_step hr hs
  rw [hread] at hbusy hreplies
  refine ⟨(h.rest hr).1, (h.rest hr).2, ?_, hreplies⟩
  rw [hbusy, hm]
  rfl

/-- After the last one the next byte at the data port is the first one of a command. -/
theorem last (hn : n = 0) (hr : i.rstN = true) (hs : s.swReset i = false) (hread : i.reads 5 = true) (j : FloppyIn)
    (hj : j.writes 5 = true) : (s.step i).commandFirst j = true := by
  have hbusy := h.busyNext_eq hr hs
  rw [hread, hn] at hbusy
  unfold Floppy.commandFirst
  rw [hj, (h.rest hr).1, (h.rest hr).2, hbusy]
  rfl

end Results

end Floppy

end Z486.Disk
