/-
The software reset of the floppy controller: it clears the result, the busy flag and the pending command, but
neither the transfer state machine nor the count of the parameters still to come.
-/
import Z486.Disk.Floppy
import Z486.Clocked.Run

namespace Z486.Disk

open Clocked

namespace Floppy

variable {s : Floppy} {i : FloppyIn}

/-! ## Clocks without a command byte -/

theorem commandFirst_of_not_write (h : i.writes 5 = false) : s.commandFirst i = false := by
  unfold commandFirst
  rw [h]
  rfl

theorem commandNext_of_not_write (h : i.writes 5 = false) : s.commandNext i = false := by
  unfold commandNext
  rw [h]
  rfl

/-- The transfer, or its delay, ends in this clock. -/
def transferEnds (s : Floppy) : Bool := s.checkTcFinish || s.formatInputFinish || s.cmdReadIdFinished

/-- The byte of the clock, if there is one, is not the last one of a command. -/
def NoLast (s : Floppy) (i : FloppyIn) : Prop := ∀ size low code, s.lastByte i size low code = false

theorem NoLast.of_not_next (h : s.commandNext i = false) : NoLast s i := by
  intro size low code
  unfold lastByte
  rw [h, Bool.and_false, Bool.false_and, Bool.false_and]

theorem NoLast.of_not_write (h : i.writes 5 = false) : NoLast s i := .of_not_next (commandNext_of_not_write h)

/-- Outside `S_IDLE` no byte is taken. -/
theorem NoLast.of_not_idle (h : s.state ≠ .idle) : NoLast s i := by
  apply NoLast.of_not_next
  unfold commandNext
  rw [beq_false_of_ne h, Bool.and_false, Bool.false_and]

theorem commandFirst_of_not_idle (h : s.state ≠ .idle) : s.commandFirst i = false := by
  unfold commandFirst
  rw [beq_false_of_ne h, Bool.and_false, Bool.false_and, Bool.false_and]

theorem transferEnds_of_idle (h : s.state = .idle) : s.transferEnds = false := by
  unfold transferEnds checkTcFinish formatInputFinish cmdReadIdFinished
  rw [h]
  rfl

namespace NoLast

variable (h : NoLast s i)
include h

theorem readWrite : s.cmdReadWriteStart i = false := by
  unfold cmdReadWriteStart cmdReadNormalStart cmdWriteNormalStart
  rw [h, h]
  rfl

theorem readWriteOk : s.cmdReadWriteOkAtStart i = false := by
  unfold cmdReadWriteOkAtStart
  rw [h.readWrite]
  rfl

theorem formatOk : s.cmdFormatOkAtStart i = false := by
  unfold cmdFormatOkAtStart cmdFormatTrackStart
  rw [h]
  rfl

theorem readIdOk : s.cmdReadIdOkAtStart i = false := by
  unfold cmdReadIdOkAtStart cmdReadIdStart
  rw [h]
  rfl

/-- Results that come without the last byte of a command. -/
theorem enterResultPhase : s.enterResultPhase i =
    (s.cmdInvalidStart i || s.cmdSenseInterruptStatusStart i || s.cmdDumpRegistersStart i || s.cmdVersionStart i ||
      s.cmdUnlockStart i || s.cmdLockStart i || s.transferEnds) := by
  unfold Floppy.enterResultPhase transferEnds cmdFormatTrackStart cmdGetStatusStart
  rw [h.readWrite, h, h]
  simp only [Bool.false_and, Bool.or_false, Bool.or_assoc]

/-- After a clock that starts nothing the state is `S_IDLE` when it was, or when the transfer ended. -/
theorem stateNext_idle_iff (hr : i.rstN = true) : s.stateNext i = .idle ↔ s.state = .idle ∨ s.transferEnds = true := by
  unfold stateNext transferEnds
  rw [h.readWriteOk, h.formatOk, h.readIdOk, hr]
  simp only [Bool.not_true, Bool.and_false, Bool.false_eq_true, if_false]
  unfold checkTcFinish formatInputFinish cmdReadIdFinished
  -- every other state moves on to a state of the transfer
  cases hs : s.state <;> simp
  all_goals split_ifs <;> simp_all
  all_goals cases s.cmdReadWriteFinish <;> simp

end NoLast

/-- Neither the first nor the last byte of a command. -/
structure NoStart (s : Floppy) (i : FloppyIn) : Prop where
  first : s.commandFirst i = false
  last : NoLast s i

theorem NoStart.of_not_write (h : i.writes 5 = false) : NoStart s i :=
  ⟨commandFirst_of_not_write h, .of_not_write h⟩

theorem NoStart.of_not_idle (h : s.state ≠ .idle) : NoStart s i := ⟨commandFirst_of_not_idle h, .of_not_idle h⟩

/-- Without a byte, results come from the end of a transfer. -/
theorem NoStart.enterResultPhase (h : NoStart s i) : s.enterResultPhase i = s.transferEnds := by
  rw [h.last.enterResultPhase]
  unfold cmdInvalidStart cmdSenseInterruptStatusStart cmdDumpRegistersStart cmdVersionStart cmdUnlockStart cmdLockStart
  rw [h.first]
  simp only [Bool.false_and, Bool.false_or]

end Floppy

/-! ## Runs -/

/-- A run of the controller from power-up on, with `rst_n` low in the first clock. -/
structure FloppyRun where
  powerUp : Floppy
  inp : Nat → FloppyIn
  reset : (inp 0).rstN = false

namespace FloppyRun

variable (r : FloppyRun) {t u : Nat}

def regs (t : Nat) : Floppy := run Floppy.step r.powerUp r.inp t

def swReset (t : Nat) : Bool := (r.regs t).swReset (r.inp t)

theorem regs_succ (t : Nat) : r.regs (t + 1) = (r.regs t).step (r.inp t) := rfl

end FloppyRun

namespace Floppy

variable {s : Floppy} {i : FloppyIn}

/-- The registers that decide whether a byte is the first one of a command, as a hardware reset leaves them. -/
structure Fresh (s : Floppy) : Prop where
  idle : s.state = .idle
  parameters : s.commandLeft = 0
  results : s.replyLeft = 0
  pending : s.pendingCommand = 0
  busy : s.busy = false
  ready : s.dataregReady = true
  toCpu : s.transferToCpu = false
  ndma : s.executeNdma = false

theorem Fresh.commandFirst (h : Fresh s) : s.commandFirst i = i.writes 5 := by
  unfold Floppy.commandFirst
  rw [h.idle, h.parameters, h.busy]
  show (i.writes 5 && true && true && true) = _
  rw [Bool.and_true, Bool.and_true, Bool.and_true]

theorem Fresh.noLast (h : Fresh s) : NoLast s i := by
  apply NoLast.of_not_next
  unfold commandNext
  rw [h.parameters]
  show (i.writes 5 && s.state == .idle && false) = false
  rw [Bool.and_false]

theorem swReset_of_write (h : i.writes 5 = true) : s.swReset i = false := by
  unfold FloppyIn.writes at h
  rw [Bool.and_eq_true, beq_iff_eq] at h
  unfold swReset FloppyIn.writes
  rw [h.2]
  show (i.ioWrite && false && !i.ioWritedata.getLsbD 2 && s.enable ||
    i.ioWrite && false && i.ioWritedata.getLsbD 7) = false
  simp only [Bool.and_false, Bool.false_and, Bool.or_false]

/-- Fresh registers stay fresh until the next byte. -/
theorem Fresh.next (h : Fresh s) (hr : i.rstN = true) (hw : i.writes 5 = false) : Fresh (s.step i) := by
  -- without a write no command starts or goes on
  have hno := NoStart.of_not_write hw (s := s)
  have hends := transferEnds_of_idle h.idle
  have hresult : s.enterResultPhase i = false := hno.enterResultPhase.trans hends
  have hnext := commandNext_of_not_write hw (s := s)
  constructor
  · exact (hno.last.stateNext_idle_iff hr).2 (Or.inl h.idle)
  · show s.commandLeftNext i = 0
    unfold commandLeftNext
    rw [hr, hno.first, hnext]
    exact h.parameters
  · show s.replyLeftNext i = 0
    have hs := h.idle
    unfold replyLeftNext cmdWriteNormalStart cmdFormatTrackStart cmdGetStatusStart checkTcFinish formatInputFinish
      cmdReadIdFinished cmdInvalidStart cmdSenseInterruptStatusStart cmdDumpRegistersStart cmdVersionStart
      cmdUnlockStart cmdLockStart
    rw [hno.last.readWrite, hno.last, hno.last, hno.last, hno.first, hs, h.results]
    simp
  · show s.pendingCommandNext i = 0
    unfold pendingCommandNext cmdRecalibrateStart
    rw [hno.last.readWriteOk, hno.last.readIdOk, hno.last.formatOk, hno.last, hresult, h.pending]
    simp
  · show s.busyNext i = false
    unfold busyNext cmdRecalibrateStart cmdSeekStart cmdSpecifyStart cmdConfigureModeStart cmdPerpendicularModeStart
    rw [hno.first, hno.last, hno.last, hno.last, hno.last, hno.last, hresult, h.busy]
    simp
  · show s.dataregReadyNext i = true
    unfold dataregReadyNext
    rw [hno.last.readWriteOk, hno.last.readIdOk, hno.last.formatOk, h.ndma, hresult, h.ready]
    simp
  · show s.transferToCpuNext i = false
    unfold transferToCpuNext
    rw [hno.first, hresult, h.ndma, h.toCpu]
    simp
  · show s.executeNdmaNext i = false
    unfold executeNdmaNext
    rw [hno.last.readWriteOk, hno.last.formatOk, hresult, h.ndma]
    simp

/-! ## The reset -/

/-- No transfer is under way after the clock: there is none, or it ends in the clock. -/
def transferOver (s : Floppy) : Bool := s.state == .idle || s.transferEnds

/-- In `S_IDLE` no transfer without DMA is under way. -/
theorem ndma_of_idle_step (h : s.state = .idle → s.executeNdma = false) (hi : (s.step i).state = .idle) :
    (s.step i).executeNdma = false := by
  show s.executeNdmaNext i = false
  have hi' : s.stateNext i = .idle := hi
  unfold executeNdmaNext
  cases hr : i.rstN
  · rfl
  · have hok : s.cmdReadWriteOkAtStart i = false ∧ s.cmdFormatOkAtStart i = false := by
      by_cases hs : s.state = .idle
      · -- a transfer that starts leaves `S_IDLE`
        unfold stateNext at hi'
        rw [hr, hs] at hi'
        cases h1 : s.cmdReadWriteOkAtStart i
        · cases h2 : s.cmdFormatOkAtStart i
          · exact ⟨rfl, rfl⟩
          · rw [h1, h2] at hi'
            simp at hi'
        · rw [h1] at hi'
          simp at hi'
      · exact ⟨(NoLast.of_not_idle hs).readWriteOk, (NoLast.of_not_idle hs).formatOk⟩
    rw [hok.1, hok.2]
    by_cases hs : s.state = .idle
    · rw [h hs]
      simp
    · have hno := NoStart.of_not_idle hs (i := i)
      have hends : s.transferEnds = true := ((hno.last.stateNext_idle_iff hr).1 hi').resolve_left hs
      rw [hno.enterResultPhase, hends]
      simp

/-- The clock of a software reset. -/
theorem fresh_of_swReset (hidle : s.state = .idle → s.executeNdma = false) (hr : i.rstN = true)
    (hs : s.swReset i = true) (hleft : s.commandLeft = 0) (hover : s.transferOver = true) : Fresh (s.step i) := by
  have hw : i.writes 5 = false := by
    cases h : i.writes 5
    · rfl
    · rw [swReset_of_write h] at hs
      cases hs
  have hno := NoStart.of_not_write hw (s := s)
  have hstate : (s.step i).state = .idle := by
    refine (hno.last.stateNext_idle_iff hr).2 ?_
    unfold transferOver at hover
    rwa [Bool.or_eq_true, beq_iff_eq] at hover
  refine ⟨hstate, ?_, ?_, ?_, ?_, ?_, ?_, ndma_of_idle_step hidle hstate⟩
  · show s.commandLeftNext i = 0
    unfold commandLeftNext
    rw [hr, hno.first, commandNext_of_not_write hw, hleft]
    rfl
  · show s.replyLeftNext i = 0
    unfold replyLeftNext
    rw [hs, Bool.or_true, if_pos rfl]
  · show s.pendingCommandNext i = 0
    unfold pendingCommandNext
    rw [hs, Bool.or_true, if_pos rfl]
  · show s.busyNext i = false
    unfold busyNext
    rw [hs, Bool.or_true, if_pos rfl]
  · show s.dataregReadyNext i = true
    unfold dataregReadyNext
    rw [hs, Bool.or_true, if_pos rfl]
  · show s.transferToCpuNext i = false
    unfold transferToCpuNext
    rw [hs, Bool.or_true, if_pos rfl]

end Floppy

namespace FloppyRun

variable {r : FloppyRun} {t u : Nat}

theorem ndma_of_idle (ht : 0 < t) : (r.regs t).state = .idle → (r.regs t).executeNdma = false := by
  induction t, ht using Nat.le_induction with
  | base =>
    intro _
    show (r.regs 0).executeNdmaNext (r.inp 0) = false
    unfold Floppy.executeNdmaNext
    rw [r.reset]
    rfl
  | succ t ht ih => exact Floppy.ndma_of_idle_step ih

/-- After a hardware reset, the bytes written to the ports one after the other. -/
def writing (bytes : List (BitVec 3 × BitVec 8)) : FloppyRun where
  powerUp := default
  inp := fun t =>
    let byte := (bytes[t - 1]?).getD (0, 0)
    { rstN := t != 0
      dmaAck := false, dmaTc := false, dmaReaddata := 0
      ioAddress := byte.1, ioRead := false, ioWrite := 0 < t && t ≤ bytes.length, ioWritedata := byte.2
      mgmtAddress := 0, mgmtFddn := false, mgmtWrite := false, mgmtWritedata := 0, mgmtRead := false
      wp := fun _ => false, clockRate := 50000000 }
  reset := rfl

end FloppyRun

end Z486.Disk
