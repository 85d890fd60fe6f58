/-
The end of a DMA transfer of the floppy controller, which the terminal count announces one clock behind the acknowledge
of a byte: what becomes of the sector that the byte belongs to.
-/
import Z486.Clocked.Fifo
import Z486.Disk.FloppyTransfer

namespace Z486.Disk

open Clocked

/-! ## Transfers -/

namespace FloppyRun

/-- The command that was accepted in clock `a` has not ended before clock `t`. -/
def Under (r : FloppyRun) (a t : Nat) : Prop := a < t ∧ ∀ u, a < u → u ≤ t → (r.regs u).state ≠ .idle

end FloppyRun

namespace Floppy

/-- The host gives and takes a byte when it is asked for one. -/
structure Served (s : Floppy) (i : FloppyIn) : Prop where
  gives : s.request.getLsbD 0 = true → s.fifoFull = false → i.fifoWrite = true
  takes : s.request.getLsbD 1 = true → s.fifo.empty = false → i.fifoRead = true

end Floppy

/-- A read or write command that is accepted in clock `accept` and whose data DMA moves. The last byte is acknowledged
in clock `last`, and the terminal count comes in the clock behind it. -/
structure FloppyTransfer extends FloppyRun where
  accept : Nat
  last : Nat
  started : (inp accept).rstN = true
  accepted : (toFloppyRun.regs accept).cmdReadWriteOkAtStart (inp accept) = true
  byDma : (toFloppyRun.regs accept).ndma = false
  asked : ∀ t, toFloppyRun.Under accept t → (toFloppyRun.regs t).Asked (inp t)
  served : ∀ t, ∃ u, t ≤ u ∧ (toFloppyRun.Under accept u → (toFloppyRun.regs u).Served (inp u))
  later : accept < last
  ack : (inp last).dmaAck = true
  once : (inp (last + 1)).dmaAck = false
  tc : (inp (last + 1)).dmaTc = true
  noTc : ∀ t, accept < t → t ≤ last → (inp t).dmaTc = false

namespace FloppyTransfer

variable (x : FloppyTransfer)

/-- The registers and the inputs `n` clocks after the command was accepted. -/
def state (n : Nat) : Floppy := x.regs (x.accept + 1 + n)

def input (n : Nat) : FloppyIn := x.inp (x.accept + 1 + n)

/-- The clock of the last acknowledge, counted in the same way. -/
def lastAck : Nat := x.last - x.accept - 1

def isWrite : Bool := (x.regs x.accept).cmdWriteNormalStart (x.inp x.accept)

/-- The bytes that the host has given. -/
def given : Nat → List (BitVec 8) :=
  journal fun u => if (x.input u).fifoWrite then [(x.input u).mgmtWritedata.extractLsb' 0 8] else []

/-- The bytes that DMA has taken, from `dma_writedata`. -/
def handed : Nat → List (BitVec 8) := journal fun u => if (x.input u).dmaAck then [(x.state u).fifo.q] else []

/-- The bytes that DMA has given. -/
def received : Nat → List (BitVec 8) := journal fun u => if (x.input u).dmaAck then [(x.input u).dmaReaddata] else []

/-- The bytes that the host has taken, as they stand in `mgmt_readdata` in the clock behind. -/
def stored : Nat → List (BitVec 8) :=
  journal fun u => if (x.input u).fifoRead then [(x.state (u + 1)).fifoReaddata] else []

/-- When seven result bytes have been read, the next byte at the data port is the first one of a command. -/
def AcceptsFrom (n : Nat) : Prop :=
  ∀ m, n ≤ m → (∀ u, n ≤ u → u ≤ m → (x.input u).rstN = true ∧ (x.state u).swReset (x.input u) = false) →
    pulses (fun u => (x.input u).reads 5) n m = 6 → (x.input m).reads 5 = true →
      ∀ j : FloppyIn, j.writes 5 = true → (x.state (m + 1)).commandFirst j = true

/-- In clock `n` the command has ended as it should. -/
structure EndsWell (n : Nat) : Prop where
  after : x.lastAck + 1 < n
  results : (x.state n).Results 7
  irq : (x.state n).irq = true
  accepts : x.AcceptsFrom n
  reads : x.isWrite = false → x.handed n <+: x.given n
  writes : x.isWrite = true →
    ∃ z, z < 512 ∧ x.stored n = x.received n ++ List.replicate z 0 ∧ 512 ∣ (x.stored n).length

def Completes : Prop := ∃ n, x.EndsWell n

/-- The command is a write, or the terminal count comes behind the last byte of a sector. -/
def SectorDone : Prop := x.isWrite = true ∨ 512 ∣ (x.handed (x.lastAck + 1)).length

/-! ## The start -/

variable {x}

theorem state_succ (n : Nat) : x.state (n + 1) = (x.state n).step (x.input n) := rfl

theorem lastAck_eq : x.accept + 1 + x.lastAck = x.last := by
  have hlater := x.later
  unfold lastAck
  omega

end FloppyTransfer

namespace Floppy

variable {s : Floppy} {i : FloppyIn}

/-- The code of a command is in the low bits of its first byte. -/
theorem code_of_first (x : BitVec 72) (b : Nat) : (x.extractLsb' b 8).extractLsb' 0 5 = x.extractLsb' b 5 :=
  BitVec.eq_of_getLsbD_eq fun n hn => by
    simp only [BitVec.getLsbD_extractLsb', Nat.zero_add, decide_eq_true hn, Bool.true_and,
      decide_eq_true (show n < 8 by omega)]

/-- A read or a write starts with the last byte of its command. -/
theorem lastByte_of_start (h : s.cmdReadWriteStart i = true) :
    s.commandSize = 8 ∧ s.commandNext i = true ∧ s.commandLeft = 1 := by
  unfold cmdReadWriteStart cmdReadNormalStart cmdWriteNormalStart lastByte at h
  simp only [Bool.or_eq_true, Bool.and_eq_true, beq_iff_eq] at h
  rcases h with ⟨⟨⟨h1, h2⟩, h3⟩, -⟩ | ⟨⟨⟨h1, h2⟩, h3⟩, -⟩ <;> exact ⟨h1, h2, h3⟩

theorem code_of_start (h : s.cmdReadWriteStart i = true) :
    s.command.extractLsb' 56 5 = if s.cmdWriteNormalStart i then 0x05 else 0x06 := by
  cases hwrite : s.cmdWriteNormalStart i with
  | true =>
    unfold cmdWriteNormalStart lastByte at hwrite
    simp only [Bool.and_eq_true, beq_iff_eq] at hwrite
    exact hwrite.2
  | false =>
    rw [cmdReadWriteStart, hwrite, Bool.or_false] at h
    unfold cmdReadNormalStart lastByte at h
    simp only [Bool.and_eq_true, beq_iff_eq] at h
    exact h.2

/-- An accepted command is under way in the next clock. -/
theorem transfers_start (hr : i.rstN = true) (hok : s.cmdReadWriteOkAtStart i = true) (hdma : s.ndma = false)
    (hndma : s.state = .idle → s.executeNdma = false) :
    (s.step i).Transfers (s.cmdWriteNormalStart i) ∧ (s.step i).dmaHasTerminated = false ∧
      (s.step i).fifo.contents = [] ∧ (s.step i).state = .prepareCount := by
  have hstart : s.cmdReadWriteStart i = true := by
    unfold cmdReadWriteOkAtStart at hok
    simp only [Bool.and_eq_true] at hok
    exact hok.1.1.1.1
  obtain ⟨-, hnext, hleft⟩ := lastByte_of_start hstart
  have hidle := (commandNext_left hnext).1
  have hsw := swReset_of_write (s := s) (writes_of_next hnext)
  have hfirst := commandFirst_of_next hnext
  have hcode := code_of_start hstart
  -- the transfer starts with an empty queue
  have hstate : (s.step i).state = .prepareCount := by
    show s.stateNext i = _
    unfold stateNext
    rw [hr, hidle, hok]
    rfl
  have hclear : (s.step i).fifo.contents = [] ∧ (s.step i).fifo.Wf := by
    show (s.fifoNext i).contents = [] ∧ (s.fifoNext i).Wf
    unfold fifoNext
    rw [hidle, hr]
    exact ⟨Fifo.contents_clear _ _ _, Fifo.wf_clear _ _ _⟩
  refine ⟨⟨?_, ?_, ?_, ?_, hclear.2, ?_⟩, ?_, hclear.1, hstate⟩
  · show (s.pendingCommandNext i).extractLsb' 0 5 = _
    unfold pendingCommandNext
    rw [hr, hsw, hok, ← hcode]
    exact code_of_first _ 56
  · show s.executeNdmaNext i = false
    unfold executeNdmaNext
    rw [hr, hdma, hndma hidle]
    simp
  · show s.commandLeftNext i = 0
    unfold commandLeftNext
    rw [hr, hfirst, hnext, hleft]
    rfl
  · rw [hstate]
    cases s.cmdWriteNormalStart i <;> decide
  · rw [hstate, hclear.1]
    rfl
  · show (if !i.rstN then false else if s.state == .idle then false else if i.dmaTc then true else s.dmaHasTerminated) = _
    rw [hidle, hr]
    rfl

end Floppy

namespace FloppyTransfer

variable {x : FloppyTransfer}

/-! ## The clocks of a transfer -/

/-- The command ends in clock `n`. -/
def ends (x : FloppyTransfer) (n : Nat) : Bool := (x.state n).state == .checkTc && (x.state n).dmaHasTerminated

theorem accept_pos (x : FloppyTransfer) : 0 < x.accept := by
  by_contra hzero
  have hreset := x.reset
  have hstarted := x.started
  rw [show x.accept = 0 by omega, hreset] at hstarted
  cases hstarted

theorem start (x : FloppyTransfer) : (x.state 0).Transfers x.isWrite ∧ (x.state 0).dmaHasTerminated = false ∧
    (x.state 0).fifo.contents = [] ∧ (x.state 0).state = .prepareCount :=
  Floppy.transfers_start x.started x.accepted x.byDma (FloppyRun.ndma_of_idle x.accept_pos)

/-- The command is under way as long as it has not ended. -/
theorem transfers {n : Nat} (hn : ∀ m, m < n → x.ends m = false) :
    (x.state n).Transfers x.isWrite ∧ x.Under x.accept (x.accept + 1 + n) := by
  induction n with
  | zero =>
    refine ⟨x.start.1, by omega, fun u h1 h2 => ?_⟩
    obtain rfl : u = x.accept + 1 := by omega
    exact x.start.1.ne_idle
  | succ n ih =>
    obtain ⟨htransfers, hunder⟩ := ih fun m hm => hn m (by omega)
    have hnext : (x.state (n + 1)).Transfers x.isWrite :=
      htransfers.step (x.asked _ hunder) (hn n (by omega))
    refine ⟨hnext, by omega, fun u h1 h2 => ?_⟩
    rcases Nat.lt_or_ge u (x.accept + 1 + (n + 1)) with hlt | hge
    · exact hunder.2 u h1 (by omega)
    · obtain rfl : u = x.accept + 1 + (n + 1) := by omega
      exact hnext.ne_idle

/-- Clock `n` belongs to the transfer. -/
def Going (x : FloppyTransfer) (n : Nat) : Prop := ∀ m, m < n → x.ends m = false

namespace Going

variable {n : Nat} (h : x.Going n)
include h

theorem transfers : (x.state n).Transfers x.isWrite := (FloppyTransfer.transfers h).1

theorem asked : (x.state n).Asked (x.input n) := x.asked _ (FloppyTransfer.transfers h).2

theorem of_le {m : Nat} (hm : m ≤ n) : x.Going m := fun k hk => h k (by omega)

theorem terminated_succ : (x.state (n + 1)).dmaHasTerminated = ((x.input n).dmaTc || (x.state n).dmaHasTerminated) :=
  h.transfers.dmaHasTerminated_step h.asked.rstN

theorem succ (hn : x.ends n = false) : x.Going (n + 1) := by
  intro m hm
  rcases Nat.lt_succ_iff_lt_or_eq.1 hm with hlt | rfl
  · exact h m hlt
  · exact hn

end Going

/-- Until the terminal count comes the transfer goes on. -/
theorem before {n : Nat} (hn : n ≤ x.lastAck + 1) : x.Going n ∧ (x.state n).dmaHasTerminated = false := by
  induction n with
  | zero => exact ⟨fun m hm => absurd hm (by omega), x.start.2.1⟩
  | succ n ih =>
    obtain ⟨hgoing, hterm⟩ := ih (by omega)
    have hends : x.ends n = false := by rw [ends, hterm, Bool.and_false]
    have hlast := x.lastAck_eq
    refine ⟨hgoing.succ hends, ?_⟩
    rw [hgoing.terminated_succ, hterm, Bool.or_false]
    exact x.noTc _ (by omega) (by omega)

/-- From the clock behind the terminal count on the controller knows of it. -/
theorem terminated {n : Nat} (hn : x.lastAck + 2 ≤ n) (h : x.Going n) : (x.state n).dmaHasTerminated = true := by
  induction n, hn using Nat.le_induction with
  | base =>
    obtain ⟨hgoing, -⟩ := before (x := x) le_rfl
    have htc : (x.input (x.lastAck + 1)).dmaTc = true := by
      have hlast := x.lastAck_eq
      rw [input, show x.accept + 1 + (x.lastAck + 1) = x.last + 1 by omega]
      exact x.tc
    rw [hgoing.terminated_succ, htc, Bool.true_or]
  | succ n hn ih =>
    have hn' : x.Going n := h.of_le (by omega)
    rw [hn'.terminated_succ, ih hn', Bool.or_true]

/-! ## The bytes -/

/-- The bytes in the queue. -/
def queue (x : FloppyTransfer) (n : Nat) : List (BitVec 8) := (x.state n).fifo.contents

/-- The bytes that a write puts into the queue: those of DMA, and zeros after the terminal count. -/
def filled (x : FloppyTransfer) : Nat → List (BitVec 8) :=
  journal fun u =>
    if (x.state u).dmaHasTerminated then
      if (x.state u).state == .waitForFullWriteFifo && !(x.state u).fifoFull then [0] else []
    else if (x.input u).dmaAck then [(x.input u).dmaReaddata] else []

theorem fifoOut_eq {f : Fifo} {pop : Bool} (h : pop = true → f.empty = false) :
    (fifoOut f.contents pop).toList = if pop then [f.q] else [] := by
  cases pop with
  | false => rfl
  | true =>
    rw [fifoOut, if_pos rfl, Fifo.head?_contents (h rfl)]
    rfl

namespace Going

variable {n : Nat} (h : x.Going n)
include h

theorem given_eq (hw : x.isWrite = false) : x.given n = x.handed n ++ x.queue n := by
  have hfifo : x.given n = journal (fun u => (fifoOut (x.queue u) (x.input u).dmaAck).toList) n ++ x.queue n :=
    journal_fifo x.start.2.2.1 n fun u hu => (h.of_le hu.le).transfers.contents_read (h.of_le hu.le).asked hw
  refine hfifo.trans (congrArg (· ++ _) (journal_congr fun u hu => fifoOut_eq fun hack => ?_))
  obtain ⟨-, -, ⟨-, -, hempty⟩ | ⟨hw', -⟩⟩ := (h.of_le hu.le).transfers.acks_state (h.of_le hu.le).asked hack
  · exact hempty
  · exact absurd (hw.symm.trans hw') (by simp)

theorem filled_eq (hw : x.isWrite = true) : x.filled n = x.stored n ++ x.queue n := by
  have hfifo : x.filled n = journal (fun u => (fifoOut (x.queue u) (x.input u).fifoRead).toList) n ++ x.queue n :=
    journal_fifo x.start.2.2.1 n fun u hu => (h.of_le hu.le).transfers.contents_write (h.of_le hu.le).asked hw
  refine hfifo.trans (congrArg (· ++ _) (journal_congr fun u hu => ?_))
  have hu' := h.of_le hu.le
  show (fifoOut (x.state u).fifo.contents (x.input u).fifoRead).toList = _
  rw [fifoOut_eq fun ht => (hu'.transfers.takes_state hu'.asked ht).2.2]
  -- the byte stands in `fifo_readdata` in the next clock
  have hdata : (x.state (u + 1)).fifoReaddata = (x.state u).fifo.q := by
    show (if !(x.input u).rstN then 0 else if (x.state u).cmdFormatInProgress then (x.state u).formatFillerByte
      else (x.state u).fifo.q) = _
    rw [hu'.asked.rstN, hu'.transfers.formatInProgress]
    rfl
  rw [hdata]

end Going

/-! ## Sectors -/

/-- The state in which a sector is filled into the queue. -/
def fillState (w : Bool) : FloppyState := if w then .waitForFullWriteFifo else .sdReadWaitForData

/-- A byte comes out of the queue, or goes in. -/
def pops (x : FloppyTransfer) (n : Nat) : Bool := if x.isWrite then (x.input n).fifoRead else (x.input n).dmaAck

def pushes (x : FloppyTransfer) (n : Nat) : Bool :=
  if x.isWrite then
    if (x.state n).dmaHasTerminated then (x.state n).state == .waitForFullWriteFifo && !(x.state n).fifoFull
    else (x.input n).dmaAck
  else (x.input n).fifoWrite

/-- The bytes that have come out, and those that have gone in. -/
def outs (x : FloppyTransfer) (n : Nat) : Nat := if x.isWrite then (x.stored n).length else (x.handed n).length

def ins (x : FloppyTransfer) (n : Nat) : Nat := if x.isWrite then (x.filled n).length else (x.given n).length

theorem outs_succ (n : Nat) : x.outs (n + 1) = x.outs n + if x.pops n then 1 else 0 := by
  unfold outs pops stored handed
  rw [journal_succ, journal_succ]
  cases x.isWrite with
  | true =>
    simp only [if_true, List.length_append]
    split <;> rfl
  | false =>
    simp only [Bool.false_eq_true, if_false, List.length_append]
    split <;> rfl

theorem ins_succ (n : Nat) : x.ins (n + 1) = x.ins n + if x.pushes n then 1 else 0 := by
  unfold ins pushes filled given
  rw [journal_succ, journal_succ]
  cases x.isWrite with
  | true =>
    simp only [if_true, List.length_append]
    cases (x.state n).dmaHasTerminated <;> simp only [if_true, Bool.false_eq_true, if_false] <;> split <;> rfl
  | false =>
    simp only [Bool.false_eq_true, if_false, List.length_append]
    split <;> rfl

namespace Going

variable {n : Nat} (h : x.Going n)
include h

theorem ins_eq : x.ins n = x.outs n + (x.queue n).length := by
  unfold ins outs
  cases hw : x.isWrite with
  | true => rw [if_pos rfl, if_pos rfl, h.filled_eq hw, List.length_append]
  | false => rw [if_neg (by simp), if_neg (by simp), h.given_eq hw, List.length_append]

/-- A byte comes out only when the queue is not being filled. -/
theorem ne_of_pops (hp : x.pops n = true) : (x.state n).state ≠ fillState x.isWrite := by
  unfold pops at hp
  cases hw : x.isWrite with
  | true =>
    rw [hw, if_pos rfl] at hp
    rw [(h.transfers.takes_state h.asked hp).2.1]
    decide
  | false =>
    rw [hw, if_neg (by simp)] at hp
    obtain ⟨-, -, ⟨-, hs, -⟩ | ⟨hw', -⟩⟩ := h.transfers.acks_state h.asked hp
    · rw [hs]
      decide
    · exact absurd (hw.symm.trans hw') (by simp)

/-- A byte goes in only while the queue is being filled. -/
theorem eq_of_pushes (hp : x.pushes n = true) :
    (x.state n).state = fillState x.isWrite ∧ (x.queue n).length < 512 := by
  unfold pushes at hp
  cases hw : x.isWrite with
  | true =>
    rw [hw, if_pos rfl] at hp
    split at hp
    · simp only [Bool.and_eq_true, beq_iff_eq, Bool.not_eq_true'] at hp
      exact ⟨hp.1, Floppy.length_lt h.transfers.length_le hp.2⟩
    · obtain ⟨-, -, ⟨hw', -⟩ | ⟨-, hs, hlt⟩⟩ := h.transfers.acks_state h.asked hp
      · exact absurd (hw.symm.trans hw') (by simp)
      · exact ⟨hs, hlt⟩
  | false =>
    rw [hw, if_neg (by simp)] at hp
    exact (h.transfers.gives_state h.asked hp).2

theorem outs_fill (hs : (x.state n).state = fillState x.isWrite) : x.outs (n + 1) = x.outs n := by
  rw [outs_succ, if_neg fun hp => h.ne_of_pops hp hs, Nat.add_zero]

theorem ins_keep (hs : (x.state n).state ≠ fillState x.isWrite ∨ (x.queue n).length = 512) :
    x.ins (n + 1) = x.ins n := by
  rw [ins_succ, if_neg, Nat.add_zero]
  intro hp
  obtain ⟨hfill, hlt⟩ := h.eq_of_pushes hp
  rcases hs with hs | hs
  · exact hs hfill
  · omega

/-- Filling goes on until the queue holds a sector. -/
theorem fill_succ (hs : (x.state n).state = fillState x.isWrite) :
    (x.state (n + 1)).state = fillState x.isWrite ↔ (x.queue n).length ≠ 512 := by
  have hnext : (x.state (n + 1)).state = (x.state n).transferNext x.isWrite := h.transfers.stateNext_eq h.asked.rstN
  rw [Ne, queue, ← h.transfers.fifoFull_iff, hnext, Floppy.transferNext, hs, fillState]
  cases x.isWrite <;> cases (x.state n).fifoFull <;> simp

/-- The queue is empty when filling begins. -/
theorem empty_of_fill (hs : (x.state n).state ≠ fillState x.isWrite)
    (hnext : (x.state (n + 1)).state = fillState x.isWrite) : (x.queue n).length = 0 := by
  have hlevel := h.transfers.level
  have hin := h.transfers.state
  rw [show (x.state (n + 1)).state = (x.state n).transferNext x.isWrite from
    h.transfers.stateNext_eq h.asked.rstN] at hnext
  unfold queue
  revert hlevel hnext hs hin
  unfold Floppy.transferNext
  cases x.isWrite <;> cases (x.state n).state <;> simp [fillState, Floppy.levels, Floppy.statesOf]
  all_goals
    intro hnext
    split at hnext <;> cases hnext

/-- Whole sectors come out before the next one is filled in, and whole ones have been filled in when it is not. -/
theorem sectors : 512 ∣ if (x.state n).state = fillState x.isWrite then x.outs n else x.ins n := by
  induction n with
  | zero =>
    have hne : (x.state 0).state ≠ fillState x.isWrite := by
      rw [x.start.2.2.2]
      cases x.isWrite <;> decide
    have hzero : x.ins 0 = 0 := by
      unfold ins filled given
      cases x.isWrite <;> rfl
    rw [if_neg hne, hzero]
    exact Nat.dvd_zero 512
  | succ n ih =>
    have hn : x.Going n := h.of_le (by omega)
    have hdvd := ih hn
    have heq := hn.ins_eq
    have heq' := h.ins_eq
    by_cases hs : (x.state n).state = fillState x.isWrite
    · rw [if_pos hs] at hdvd
      have hiff := hn.fill_succ hs
      have houts := hn.outs_fill hs
      by_cases hnext : (x.state (n + 1)).state = fillState x.isWrite
      · rwa [if_pos hnext, houts]
      · -- the fill ends only with a full sector
        have hfull : (x.queue n).length = 512 := by
          by_contra hno
          exact hnext (hiff.2 hno)
        rw [if_neg hnext, hn.ins_keep (.inr hfull), heq, hfull]
        exact Nat.dvd_add hdvd (Nat.dvd_refl 512)
    · rw [if_neg hs] at hdvd
      have hins := hn.ins_keep (.inl hs)
      by_cases hnext : (x.state (n + 1)).state = fillState x.isWrite
      · -- and starts with an empty queue
        have hempty := hn.empty_of_fill hs hnext
        have houts := x.outs_succ (n := n)
        rw [if_pos hnext, show x.outs (n + 1) = x.ins n by omega]
        exact hdvd
      · rwa [if_neg hnext, hins]

end Going

/-! ## Behind the terminal count -/

theorem acked (x : FloppyTransfer) : (x.input x.lastAck).dmaAck = true := by
  rw [input, lastAck_eq]
  exact x.ack

/-- The last byte has been acknowledged in the state that asks for it. -/
theorem ack_state (x : FloppyTransfer) :
    (x.isWrite = false ∧ (x.state x.lastAck).state = .waitForEmptyReadFifo ∧ (x.state x.lastAck).fifo.empty = false) ∨
      (x.isWrite = true ∧ (x.state x.lastAck).state = .waitForFullWriteFifo ∧ (x.queue x.lastAck).length < 512) := by
  have hgoing : x.Going x.lastAck := (before (by omega)).1
  exact (hgoing.transfers.acks_state hgoing.asked x.acked).2.2

/-- The gate to the DMA controller stays open. -/
theorem gate {n : Nat} (hn : x.lastAck ≤ n) (h : x.Going n) : (x.state n).dmaIrqEnable = true := by
  induction n, hn using Nat.le_induction with
  | base =>
    exact (h.transfers.acks_state h.asked x.acked).2.1
  | succ n hn ih =>
    have hn' : x.Going n := h.of_le (by omega)
    exact Floppy.dmaIrqEnable_step _ _ hn'.asked (ih hn')

/-- No byte is acknowledged behind the last one. -/
theorem no_ack {n : Nat} (hn : x.lastAck < n) (h : x.Going n) : (x.input n).dmaAck = false := by
  by_cases heq : n = x.lastAck + 1
  · have hlast := x.lastAck_eq
    rw [heq, input, show x.accept + 1 + (x.lastAck + 1) = x.last + 1 by omega]
    exact x.once
  · by_contra hack
    have hterm := (h.transfers.acks_state h.asked (by simpa using hack)).1
    rw [terminated (by omega) h] at hterm
    cases hterm

end FloppyTransfer

end Z486.Disk
