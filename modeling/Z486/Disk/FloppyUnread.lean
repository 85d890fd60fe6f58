/-
Registers of the floppy controller that are written before they are read again. A command that is complete leaves its bytes
behind, and a transfer leaves its counters, its sector and its flags; whatever they hold, the controller goes on, and looks
from outside, as it would with any other values in them.
-/
import Z486.Disk.FloppyTransfer

namespace Z486.Disk

open Clocked

/-- Controllers with equal registers are equal. Lean can derive this, but with so many registers it takes long. -/
theorem Floppy.ext {s t : Floppy}
    (clkRate : s.clkRate = t.clkRate) (mediaPresent : s.mediaPresent = t.mediaPresent) (wpSys : s.wpSys = t.wpSys)
    (mediaCylinders : s.mediaCylinders = t.mediaCylinders)
    (mediaSectorsPerTrack : s.mediaSectorsPerTrack = t.mediaSectorsPerTrack)
    (mediaSectorCount : s.mediaSectorCount = t.mediaSectorCount) (mediaHeads : s.mediaHeads = t.mediaHeads)
    (ioReaddata : s.ioReaddata = t.ioReaddata) (selectedDriveR : s.selectedDriveR = t.selectedDriveR)
    (motorEnable : s.motorEnable = t.motorEnable) (oldMotorEnable : s.oldMotorEnable = t.oldMotorEnable)
    (dmaIrqEnable : s.dmaIrqEnable = t.dmaIrqEnable) (enable : s.enable = t.enable)
    (dataRate : s.dataRate = t.dataRate) (dataregReady : s.dataregReady = t.dataregReady)
    (executeNdma : s.executeNdma = t.executeNdma) (ndmaIrqTo : s.ndmaIrqTo = t.ndmaIrqTo)
    (ndmaIrq : s.ndmaIrq = t.ndmaIrq) (transferToCpu : s.transferToCpu = t.transferToCpu) (busy : s.busy = t.busy)
    (change : s.change = t.change) (inSeekMode : s.inSeekMode = t.inSeekMode) (command : s.command = t.command)
    (commandSize : s.commandSize = t.commandSize) (commandLeft : s.commandLeft = t.commandLeft)
    (pendingCommand : s.pendingCommand = t.pendingCommand)
    (cmdReadWriteMultitrack : s.cmdReadWriteMultitrack = t.cmdReadWriteMultitrack)
    (cmdReadWriteWasNdmaTerminal : s.cmdReadWriteWasNdmaTerminal = t.cmdReadWriteWasNdmaTerminal)
    (specifySrt : s.specifySrt = t.specifySrt) (specifyHut : s.specifyHut = t.specifyHut)
    (specifyHlt : s.specifyHlt = t.specifyHlt) (ndma : s.ndma = t.ndma) (oldEnable : s.oldEnable = t.oldEnable)
    (irq : s.irq = t.irq) (resetSensei : s.resetSensei = t.resetSensei)
    (pendingInterrupt : s.pendingInterrupt = t.pendingInterrupt)
    (pendingInterruptLast : s.pendingInterruptLast = t.pendingInterruptLast)
    (delaySteps : s.delaySteps = t.delaySteps) (delaySrt : s.delaySrt = t.delaySrt)
    (delayAdderR : s.delayAdderR = t.delayAdderR) (delayRate : s.delayRate = t.delayRate)
    (statusReg0Temp : s.statusReg0Temp = t.statusReg0Temp) (configConfig : s.configConfig = t.configConfig)
    (configPretrk : s.configPretrk = t.configPretrk) (perpMode : s.perpMode = t.perpMode) (lock : s.lock = t.lock)
    (formatData : s.formatData = t.formatData) (formatDataCount : s.formatDataCount = t.formatDataCount)
    (formatFillerByte : s.formatFillerByte = t.formatFillerByte)
    (formatSectorCount : s.formatSectorCount = t.formatSectorCount) (replyLeft : s.replyLeft = t.replyLeft)
    (reply : s.reply = t.reply) (state : s.state = t.state)
    (commandWaitCounter : s.commandWaitCounter = t.commandWaitCounter) (multA : s.multA = t.multA)
    (multB : s.multB = t.multB) (logicalSector : s.logicalSector = t.logicalSector)
    (cylinder : s.cylinder = t.cylinder) (head : s.head = t.head) (sector : s.sector = t.sector) (eot : s.eot = t.eot)
    (formatCounter : s.formatCounter = t.formatCounter) (sdSector : s.sdSector = t.sdSector)
    (dmaHasTerminated : s.dmaHasTerminated = t.dmaHasTerminated) (fifoReaddata : s.fifoReaddata = t.fifoReaddata)
    (fifo : s.fifo = t.fifo) : s = t := by
  obtain ⟨⟩ := s
  obtain ⟨⟩ := t
  rw [Floppy.mk.injEq]
  exact ⟨
    clkRate, mediaPresent, wpSys, mediaCylinders, mediaSectorsPerTrack, mediaSectorCount, mediaHeads, ioReaddata,
    selectedDriveR, motorEnable, oldMotorEnable, dmaIrqEnable, enable, dataRate, dataregReady, executeNdma,
    ndmaIrqTo, ndmaIrq, transferToCpu, busy, change, inSeekMode, command, commandSize, commandLeft, pendingCommand,
    cmdReadWriteMultitrack, cmdReadWriteWasNdmaTerminal, specifySrt, specifyHut, specifyHlt, ndma, oldEnable, irq,
    resetSensei, pendingInterrupt, pendingInterruptLast, delaySteps, delaySrt, delayAdderR, delayRate,
    statusReg0Temp, configConfig, configPretrk, perpMode, lock, formatData, formatDataCount, formatFillerByte,
    formatSectorCount, replyLeft, reply, state, commandWaitCounter, multA, multB, logicalSector, cylinder, head,
    sector, eot, formatCounter, sdSector, dmaHasTerminated, fifoReaddata, fifo⟩

/-! ## What shows -/

/-- What the controller shows in a clock: the byte that a read of its ports gives, its interrupt, its request to the DMA
controller and the byte for it, and its request to the host with the sector it is about and the byte that is handed over. -/
structure FloppyOut where
  readdata : BitVec 8
  irq : Bool
  dmaReq : Bool
  dmaWritedata : BitVec 8
  request : BitVec 2
  sector : Option (BitVec 16)
  fifoByte : BitVec 8

namespace Floppy

variable {s : Floppy} {i : FloppyIn}

/-- The states in which the host is asked for a sector. -/
def askingStates : List FloppyState := [.sdReadWaitForData, .sdWriteWaitForEmptyFifo, .sdFormatWaitForFill]

def out (s : Floppy) (i : FloppyIn) : FloppyOut where
  readdata := s.ioReaddataPrepare i
  irq := s.irq
  dmaReq := s.dmaReq i
  dmaWritedata := s.fifo.q
  request := s.request
  sector :=
    if s.state ∈ askingStates then some (BitVec.ofBool (s.selectedDrive i) ++ s.sdSector.extractLsb' 0 15) else none
  fifoByte := if s.cmdFormatInProgress then s.formatFillerByte else s.fifo.q

/-! ## The bytes of a command -/

theorem NoLast.of_complete (h : s.commandLeft = 0) : NoLast s i := by
  apply NoLast.of_not_next
  unfold commandNext
  rw [h]
  exact Bool.and_false _

def withCommand (s : Floppy) (c : BitVec 72) (size : BitVec 4) : Floppy := { s with command := c, commandSize := size }

namespace NoLast

section Starts

variable (h : NoLast s i)
include h

theorem specify : s.cmdSpecifyStart i = false := h _ _ _

theorem getStatus : s.cmdGetStatusStart i = false := h _ _ _

theorem recalibrate : s.cmdRecalibrateStart i = false := h _ _ _

theorem seek : s.cmdSeekStart i = false := h _ _ _

theorem readId : s.cmdReadIdStart i = false := h _ _ _

theorem formatTrack : s.cmdFormatTrackStart i = false := h _ _ _

theorem writeNormal : s.cmdWriteNormalStart i = false := h _ _ _

theorem perpendicular : s.cmdPerpendicularModeStart i = false := h _ _ _

theorem configure : s.cmdConfigureModeStart i = false := h _ _ _

end Starts

section Command

variable {c : BitVec 72} {size : BitVec 4} (hno : NoLast s i) (hno' : NoLast (s.withCommand c size) i)
include hno hno'

theorem drive_withCommand : (s.withCommand c size).selectedDrive i = s.selectedDrive i := by
  unfold selectedDrive
  rw [hno.recalibrate, hno'.recalibrate, hno.seek, hno'.seek, hno.readId, hno'.readId, hno.formatTrack,
    hno'.formatTrack, hno.readWrite, hno'.readWrite]
  rfl

theorem enterResultPhase_withCommand : (s.withCommand c size).enterResultPhase i = s.enterResultPhase i := by
  rw [hno.enterResultPhase, hno'.enterResultPhase]
  rfl

theorem raiseInterrupt_withCommand : (s.withCommand c size).raiseInterrupt i = s.raiseInterrupt i := by
  unfold raiseInterrupt
  rw [hno.readWrite, hno'.readWrite, hno.writeNormal, hno'.writeNormal, hno.formatTrack, hno'.formatTrack]
  simp only [Bool.false_and]
  rfl

theorem dataregReadyNext_withCommand : (s.withCommand c size).dataregReadyNext i = s.dataregReadyNext i := by
  unfold dataregReadyNext
  rw [hno.readWriteOk, hno'.readWriteOk, hno.readIdOk, hno'.readIdOk, hno.formatOk, hno'.formatOk,
    hno.enterResultPhase_withCommand hno']
  rfl

theorem executeNdmaNext_withCommand : (s.withCommand c size).executeNdmaNext i = s.executeNdmaNext i := by
  unfold executeNdmaNext
  rw [hno.readWriteOk, hno'.readWriteOk, hno.formatOk, hno'.formatOk, hno.enterResultPhase_withCommand hno']
  rfl

theorem transferToCpuNext_withCommand : (s.withCommand c size).transferToCpuNext i = s.transferToCpuNext i := by
  unfold transferToCpuNext
  rw [hno.enterResultPhase_withCommand hno']
  rfl

theorem busyNext_withCommand : (s.withCommand c size).busyNext i = s.busyNext i := by
  unfold busyNext
  rw [hno.recalibrate, hno'.recalibrate, hno.seek, hno'.seek, hno.specify, hno'.specify, hno.configure,
    hno'.configure, hno.perpendicular, hno'.perpendicular, hno.enterResultPhase_withCommand hno']
  rfl

theorem changeNext_withCommand : (s.withCommand c size).changeNext i = s.changeNext i := by
  unfold changeNext resetChangeline incrementCylinder incrementOnlySector
  rw [hno.drive_withCommand hno', hno.readWriteOk, hno'.readWriteOk, hno.recalibrate, hno'.recalibrate, hno.seek,
    hno'.seek]
  rfl

theorem inSeekModeNext_withCommand : (s.withCommand c size).inSeekModeNext i = s.inSeekModeNext i := by
  unfold inSeekModeNext
  rw [hno.recalibrate, hno'.recalibrate, hno.seek, hno'.seek]
  rfl

theorem pendingCommandNext_withCommand : (s.withCommand c size).pendingCommandNext i = s.pendingCommandNext i := by
  unfold pendingCommandNext
  rw [hno.readWriteOk, hno'.readWriteOk, hno.readIdOk, hno'.readIdOk, hno.formatOk, hno'.formatOk, hno.recalibrate,
    hno'.recalibrate, hno.enterResultPhase_withCommand hno']
  simp only [Bool.false_eq_true, if_false]
  rfl

theorem irqNext_withCommand : (s.withCommand c size).irqNext i = s.irqNext i := by
  unfold irqNext
  rw [hno.raiseInterrupt_withCommand hno']
  rfl

theorem resetSenseiNext_withCommand : (s.withCommand c size).resetSenseiNext i = s.resetSenseiNext i := by
  unfold resetSenseiNext
  rw [hno.raiseInterrupt_withCommand hno']
  rfl

theorem pendingInterruptNext_withCommand : (s.withCommand c size).pendingInterruptNext i = s.pendingInterruptNext i := by
  unfold pendingInterruptNext
  rw [hno.raiseInterrupt_withCommand hno']
  rfl

theorem delayStepsNext_withCommand : (s.withCommand c size).delayStepsNext i = s.delayStepsNext i := by
  unfold delayStepsNext
  rw [hno.recalibrate, hno'.recalibrate, hno.seek, hno'.seek]
  simp only [Bool.false_eq_true, if_false]
  rfl

theorem delaySrtNext_withCommand : (s.withCommand c size).delaySrtNext i = s.delaySrtNext i := by
  unfold delaySrtNext
  rw [hno.recalibrate, hno'.recalibrate, hno.seek, hno'.seek]
  rfl

theorem delayAdderRNext_withCommand : (s.withCommand c size).delayAdderRNext i = s.delayAdderRNext i := by
  unfold delayAdderRNext
  rw [hno.recalibrate, hno'.recalibrate, hno.seek, hno'.seek]
  rfl

theorem delayRateNext_withCommand : (s.withCommand c size).delayRateNext i = s.delayRateNext i := by
  unfold delayRateNext
  rw [hno.recalibrate, hno'.recalibrate, hno.seek, hno'.seek]
  rfl

theorem formatSectorCountNext_withCommand : (s.withCommand c size).formatSectorCountNext i = s.formatSectorCountNext i := by
  unfold formatSectorCountNext
  rw [hno.formatOk, hno'.formatOk]
  rfl

theorem replyLeftNext_withCommand : (s.withCommand c size).replyLeftNext i = s.replyLeftNext i := by
  unfold replyLeftNext
  rw [hno.readWrite, hno'.readWrite, hno.writeNormal, hno'.writeNormal, hno.formatTrack, hno'.formatTrack,
    hno.getStatus, hno'.getStatus]
  simp only [Bool.false_and, Bool.false_eq_true, if_false]
  rfl

theorem replyNext_withCommand : (s.withCommand c size).replyNext i = s.replyNext i := by
  unfold replyNext result7 driveByte
  rw [hno.drive_withCommand hno', hno.readWrite, hno'.readWrite, hno.writeNormal, hno'.writeNormal, hno.formatTrack,
    hno'.formatTrack, hno.getStatus, hno'.getStatus]
  simp only [Bool.false_and, Bool.false_eq_true, if_false]
  rfl

theorem stateNext_withCommand : (s.withCommand c size).stateNext i = s.stateNext i := by
  unfold stateNext
  rw [hno.readWriteOk, hno'.readWriteOk, hno.formatOk, hno'.formatOk, hno.readIdOk, hno'.readIdOk]
  rfl

theorem multANext_withCommand : (s.withCommand c size).multANext i = s.multANext i := by
  unfold multANext
  rw [hno.drive_withCommand hno']
  rfl

theorem multBNext_withCommand : (s.withCommand c size).multBNext i = s.multBNext i := by
  unfold multBNext
  rw [hno.drive_withCommand hno']
  rfl

theorem logicalSectorNext_withCommand : (s.withCommand c size).logicalSectorNext i = s.logicalSectorNext i := by
  unfold logicalSectorNext
  rw [hno.drive_withCommand hno']
  rfl

theorem cylinderNext_withCommand : (s.withCommand c size).cylinderNext i = s.cylinderNext i := by
  unfold cylinderNext incrementCylinder incrementOnlySector
  rw [hno.drive_withCommand hno', hno.readWrite, hno'.readWrite, hno.readWriteOk, hno'.readWriteOk, hno.recalibrate,
    hno'.recalibrate, hno.seek, hno'.seek]
  simp only [Bool.false_and, Bool.false_eq_true, if_false]
  rfl

theorem headNext_withCommand : (s.withCommand c size).headNext i = s.headNext i := by
  unfold headNext incrementOnlySector
  rw [hno.drive_withCommand hno', hno.readWrite, hno'.readWrite, hno.formatTrack, hno'.formatTrack, hno.readWriteOk,
    hno'.readWriteOk, hno.formatOk, hno'.formatOk, hno.getStatus, hno'.getStatus, hno.seek, hno'.seek, hno.readId,
    hno'.readId]
  rfl

theorem sectorNext_withCommand : (s.withCommand c size).sectorNext i = s.sectorNext i := by
  unfold sectorNext incrementOnlySector
  rw [hno.drive_withCommand hno', hno.readWrite, hno'.readWrite, hno.readWriteOk, hno'.readWriteOk]
  rfl

theorem eotNext_withCommand : (s.withCommand c size).eotNext i = s.eotNext i := by
  unfold eotNext
  rw [hno.drive_withCommand hno', hno.readWriteOk, hno'.readWriteOk]
  rfl

theorem wasNdmaTerminalNext_withCommand : (s.withCommand c size).wasNdmaTerminalNext i = s.wasNdmaTerminalNext i := by
  unfold wasNdmaTerminalNext
  rw [hno.drive_withCommand hno']
  rfl

theorem sdSectorNext_withCommand : (s.withCommand c size).sdSectorNext i = s.sdSectorNext i := by
  unfold sdSectorNext
  rw [hno.drive_withCommand hno']
  rfl

theorem ioReaddataPrepare_withCommand : (s.withCommand c size).ioReaddataPrepare i = s.ioReaddataPrepare i := by
  unfold ioReaddataPrepare
  rw [hno.drive_withCommand hno']
  rfl
end Command

end NoLast

section Command

variable {c : BitVec 72} {size : BitVec 4} (h : s.commandLeft = 0)

include h

/-- A clock later the two differ in the bytes of a command at most. -/
theorem step_withCommand : (s.withCommand c size).step i =
    (s.step i).withCommand ((s.withCommand c size).commandRegNext i) ((s.withCommand c size).commandSizeNext i) := by
  have hno : NoLast s i := .of_complete h
  have hno' : NoLast (s.withCommand c size) i := .of_complete h
  apply Floppy.ext
  case ioReaddata => exact hno.ioReaddataPrepare_withCommand hno'
  case selectedDriveR => exact hno.drive_withCommand hno'
  case dataregReady => exact hno.dataregReadyNext_withCommand hno'
  case executeNdma => exact hno.executeNdmaNext_withCommand hno'
  case transferToCpu => exact hno.transferToCpuNext_withCommand hno'
  case busy => exact hno.busyNext_withCommand hno'
  case change => exact hno.changeNext_withCommand hno'
  case inSeekMode => exact hno.inSeekModeNext_withCommand hno'
  case pendingCommand => exact hno.pendingCommandNext_withCommand hno'
  case irq => exact hno.irqNext_withCommand hno'
  case resetSensei => exact hno.resetSenseiNext_withCommand hno'
  case pendingInterrupt => exact hno.pendingInterruptNext_withCommand hno'
  case delaySteps => exact hno.delayStepsNext_withCommand hno'
  case delaySrt => exact hno.delaySrtNext_withCommand hno'
  case delayAdderR => exact hno.delayAdderRNext_withCommand hno'
  case delayRate => exact hno.delayRateNext_withCommand hno'
  case formatSectorCount => exact hno.formatSectorCountNext_withCommand hno'
  case replyLeft => exact hno.replyLeftNext_withCommand hno'
  case reply => exact hno.replyNext_withCommand hno'
  case state => exact hno.stateNext_withCommand hno'
  case multA => exact hno.multANext_withCommand hno'
  case multB => exact hno.multBNext_withCommand hno'
  case logicalSector => exact hno.logicalSectorNext_withCommand hno'
  case cylinder => exact hno.cylinderNext_withCommand hno'
  case head => exact hno.headNext_withCommand hno'
  case sector => exact hno.sectorNext_withCommand hno'
  case eot => exact hno.eotNext_withCommand hno'
  case cmdReadWriteWasNdmaTerminal => exact hno.wasNdmaTerminalNext_withCommand hno'
  case sdSector => exact hno.sdSectorNext_withCommand hno'
  case cmdReadWriteMultitrack =>
    show (if _ then _ else if (s.withCommand c size).cmdReadWriteOkAtStart i then _ else _) =
      (if _ then _ else if s.cmdReadWriteOkAtStart i then _ else _)
    rw [hno.readWriteOk, hno'.readWriteOk]
    rfl
  case formatFillerByte =>
    show (if _ then _ else if (s.withCommand c size).cmdFormatOkAtStart i then _ else _) =
      (if _ then _ else if s.cmdFormatOkAtStart i then _ else _)
    rw [hno.formatOk, hno'.formatOk]
    rfl
  case specifySrt | specifyHut | specifyHlt | ndma =>
    show (if _ then _ else if (s.withCommand c size).cmdSpecifyStart i then _ else _) =
      (if _ then _ else if s.cmdSpecifyStart i then _ else _)
    rw [hno.specify, hno'.specify]
    rfl
  case configConfig | configPretrk =>
    show (if _ then _ else if (s.withCommand c size).cmdConfigureModeStart i then _ else _) =
      (if _ then _ else if s.cmdConfigureModeStart i then _ else _)
    rw [hno.configure, hno'.configure]
    rfl
  case perpMode =>
    show (if _ then _ else if (s.withCommand c size).cmdPerpendicularModeStart i then _ else _) =
      (if _ then _ else if s.cmdPerpendicularModeStart i then _ else _)
    rw [hno.perpendicular, hno'.perpendicular]
    rfl
  all_goals rfl

theorem out_withCommand : (s.withCommand c size).out i = s.out i := by
  have hno : NoLast s i := .of_complete h
  have hno' : NoLast (s.withCommand c size) i := .of_complete h
  unfold out
  rw [hno.ioReaddataPrepare_withCommand hno', hno.drive_withCommand hno']
  rfl

end Command

/-- The two differ in the bytes of a command that is complete at most. -/
def SameCommand (s s' : Floppy) : Prop := s' = s ∨ s.commandLeft = 0 ∧ ∃ c size, s' = s.withCommand c size

namespace SameCommand

variable {s' : Floppy}

theorem out_eq (h : SameCommand s s') : s'.out i = s.out i := by
  rcases h with rfl | ⟨hleft, c, size, rfl⟩
  · rfl
  · exact out_withCommand hleft

theorem step (h : SameCommand s s') : SameCommand (s.step i) (s'.step i) := by
  rcases h with rfl | ⟨hleft, c, size, rfl⟩
  · exact .inl rfl
  · rw [step_withCommand hleft]
    have hno : s.commandNext i = false := by
      unfold commandNext
      rw [hleft]
      exact Bool.and_false _
    have hfirst : (s.withCommand c size).commandFirst i = s.commandFirst i := rfl
    cases hbegins : s.commandFirst i && i.commandAtFirst != 0 with
    | false =>
      refine .inr ⟨?_, _, _, rfl⟩
      show s.commandLeftNext i = 0
      unfold commandLeftNext
      rw [hbegins, hno, hleft]
      simp only [Bool.false_eq_true, if_false, ite_self]
    | true =>
      -- a command with parameters begins, and its first byte takes the place of the last command
      have hbyte : s.commandFirst i = true := (Bool.and_eq_true _ _ ▸ hbegins).1
      have hcommand : (s.withCommand c size).commandRegNext i = s.commandRegNext i := by
        unfold commandRegNext
        rw [hfirst, hbyte]
        rfl
      have hsize : (s.withCommand c size).commandSizeNext i = s.commandSizeNext i := by
        unfold commandSizeNext
        rw [hfirst, hbegins]
        rfl
      rw [hcommand, hsize]
      exact .inl rfl

end SameCommand

end Floppy

/-! ## The states of a transfer -/

/-- The states that can follow a state. -/
def FloppyState.follows : FloppyState → List FloppyState
  | .idle => [.idle, .prepareCount, .waitForFormatInput, .wait]
  | .prepareCount => [.countLogical]
  | .countLogical => [.countLogical, .prepare, .waitForFullWriteFifo]
  | .prepare => [.sdControl]
  | .sdControl => [.sdControl, .sdReadWaitForData, .sdWriteWaitForEmptyFifo, .sdFormatWaitForFill]
  | .sdReadWaitForData => [.sdReadWaitForData, .waitForEmptyReadFifo]
  | .waitForEmptyReadFifo => [.waitForEmptyReadFifo, .updateSector]
  | .updateSector => [.wait]
  | .checkTc => [.idle, .waitForFormatInput, .prepareCount]
  | .wait => [.wait, .idle, .checkTc]
  | .waitForFullWriteFifo => [.waitForFullWriteFifo, .prepare]
  | .sdWriteWaitForEmptyFifo => [.sdWriteWaitForEmptyFifo, .updateSector]
  | .waitForFormatInput => [.waitForFormatInput, .idle, .prepareCount]
  | .sdFormatWaitForFill => [.sdFormatWaitForFill, .wait]

namespace Floppy

variable {s : Floppy} {i : FloppyIn}

/-- The states of the data of a read or a write. -/
def dataStates : List FloppyState :=
  [.sdReadWaitForData, .waitForEmptyReadFifo, .updateSector, .waitForFullWriteFifo, .sdWriteWaitForEmptyFifo]

/-- The states behind the sectors of a transfer. -/
def endStates : List FloppyState := [.sdFormatWaitForFill, .wait, .checkTc]

/-- A normal read or write is under way. -/
def readsOrWrites (s : Floppy) : Bool := s.cmdReadNormalInProgress || s.cmdWriteNormalInProgress

theorem stateNext_follows (s : Floppy) {i : FloppyIn} (hr : i.rstN = true) : s.stateNext i ∈ s.state.follows := by
  unfold stateNext formatInputFinish cmdReadIdFinished checkTcFinish
  rw [hr]
  cases hs : s.state <;> simp [FloppyState.follows]
  all_goals grind

end Floppy

/-! ## What a transfer leaves behind -/

/-- The registers that a transfer writes before it reads them, and the two output registers of the data. -/
structure Leftover where
  cmdReadWriteMultitrack : Bool
  cmdReadWriteWasNdmaTerminal : Bool
  multA : BitVec 16
  multB : BitVec 8
  logicalSector : BitVec 16
  sdSector : BitVec 16
  formatData : BitVec 32
  formatDataCount : BitVec 3
  formatSectorCount : BitVec 8
  formatFillerByte : BitVec 8
  dmaHasTerminated : Bool
  commandWaitCounter : BitVec 16
  ioReaddata : BitVec 8
  fifoReaddata : BitVec 8

namespace Floppy

variable {s : Floppy} {i : FloppyIn}

def leftover (s : Floppy) : Leftover where
  cmdReadWriteMultitrack := s.cmdReadWriteMultitrack
  cmdReadWriteWasNdmaTerminal := s.cmdReadWriteWasNdmaTerminal
  multA := s.multA
  multB := s.multB
  logicalSector := s.logicalSector
  sdSector := s.sdSector
  formatData := s.formatData
  formatDataCount := s.formatDataCount
  formatSectorCount := s.formatSectorCount
  formatFillerByte := s.formatFillerByte
  dmaHasTerminated := s.dmaHasTerminated
  commandWaitCounter := s.commandWaitCounter
  ioReaddata := s.ioReaddata
  fifoReaddata := s.fifoReaddata

def withLeftover (s : Floppy) (x : Leftover) : Floppy :=
  { s with
    cmdReadWriteMultitrack := x.cmdReadWriteMultitrack
    cmdReadWriteWasNdmaTerminal := x.cmdReadWriteWasNdmaTerminal
    multA := x.multA
    multB := x.multB
    logicalSector := x.logicalSector
    sdSector := x.sdSector
    formatData := x.formatData
    formatDataCount := x.formatDataCount
    formatSectorCount := x.formatSectorCount
    formatFillerByte := x.formatFillerByte
    dmaHasTerminated := x.dmaHasTerminated
    commandWaitCounter := x.commandWaitCounter
    ioReaddata := x.ioReaddata
    fifoReaddata := x.fifoReaddata }

/-- The values `x` are those of the controller wherever they are going to be read before they are written. -/
structure Unread (s : Floppy) (x : Leftover) : Prop where
  multitrack : s.readsOrWrites = true ∨ s.state ∈ dataStates →
    x.cmdReadWriteMultitrack = s.cmdReadWriteMultitrack
  terminal : s.readsOrWrites = true → s.state ∈ endStates →
    x.cmdReadWriteWasNdmaTerminal = s.cmdReadWriteWasNdmaTerminal
  mult : s.state = .countLogical → x.multA = s.multA ∧ x.multB = s.multB
  logical : s.state ∈ [FloppyState.countLogical, .waitForFullWriteFifo, .prepare] → x.logicalSector = s.logicalSector
  sector : s.state ∈ FloppyState.sdControl :: askingStates → x.sdSector = s.sdSector
  input : s.state = .waitForFormatInput → x.formatDataCount = s.formatDataCount ∧
    ∀ k, k < 8 * s.formatDataCount.toNat → x.formatData.getLsbD k = s.formatData.getLsbD k
  format : s.cmdFormatInProgress = true →
    x.formatSectorCount = s.formatSectorCount ∧ x.formatFillerByte = s.formatFillerByte
  terminated : s.state ≠ .idle → x.dmaHasTerminated = s.dmaHasTerminated
  counter : s.state = .wait → x.commandWaitCounter = s.commandWaitCounter

/-! ### What is read later -/

section Later

/-- The command of the next clock, with its low bits: one that starts, or the one under way. -/
theorem pending_step (code : BitVec 5) (hcode : code ≠ 0) (hr : i.rstN = true)
    (hnext : (s.step i).inProgress code = true) :
    s.cmdReadWriteOkAtStart i = true ∧ (code = 0x05 ∨ code = 0x06) ∨
      s.cmdReadWriteOkAtStart i = false ∧ s.cmdReadIdOkAtStart i = true ∧ code = 0x0A ∨
      s.cmdFormatOkAtStart i = true ∧ code = 0x0D ∨ code = 0x07 ∨
      s.cmdReadIdOkAtStart i = false ∧ s.inProgress code = true := by
  have hlow : ∀ (y : BitVec 72) (low : Nat), (y.extractLsb' low 8).extractLsb' 0 5 = y.extractLsb' low 5 := by
    intro y low
    refine BitVec.eq_of_getLsbD_eq fun k hk => ?_
    rw [BitVec.getLsbD_extractLsb', BitVec.getLsbD_extractLsb', BitVec.getLsbD_extractLsb', Nat.zero_add,
      decide_eq_true hk, decide_eq_true (by omega : k < 8), Bool.true_and]
  have hlast : ∀ (size : BitVec 4) (low : Nat) (k : BitVec 5), s.lastByte i size low k = true →
      s.command.extractLsb' low 5 = k := by
    intro size low k hl
    unfold lastByte at hl
    rw [Bool.and_eq_true, beq_iff_eq] at hl
    exact hl.2
  change ((s.pendingCommandNext i).extractLsb' 0 5 == code) = true at hnext
  rw [beq_iff_eq] at hnext
  unfold pendingCommandNext at hnext
  rw [hr] at hnext
  split_ifs at hnext with h0 h1 h2 h3 h4 h5
  · exact absurd hnext.symm hcode
  · refine .inl ⟨h1, ?_⟩
    have hstart : s.cmdReadWriteStart i = true := by
      unfold cmdReadWriteOkAtStart at h1
      simp only [Bool.and_eq_true] at h1
      exact h1.1.1.1.1
    unfold cmdReadWriteStart at hstart
    rw [hlow] at hnext
    rcases (Bool.or_eq_true _ _).mp hstart with hread | hwrite
    · exact .inr (hnext.symm.trans (hlast 8 56 0x06 hread))
    · exact .inl (hnext.symm.trans (hlast 8 56 0x05 hwrite))
  · exact .inr (.inl ⟨Bool.eq_false_iff.2 h1, h2, hnext.symm⟩)
  · have hstart : s.cmdFormatTrackStart i = true := by
      unfold cmdFormatOkAtStart at h3
      simp only [Bool.and_eq_true] at h3
      exact h3.1.1
    rw [hlow] at hnext
    exact .inr (.inr (.inl ⟨h3, hnext.symm.trans (hlast 5 32 0x0D hstart)⟩))
  · exact .inr (.inr (.inr (.inl hnext.symm)))
  · exact absurd hnext.symm hcode
  · exact .inr (.inr (.inr (.inr ⟨Bool.eq_false_iff.2 h2, beq_iff_eq.2 hnext⟩)))

theorem readsOrWrites_step (hr : i.rstN = true) (hok : s.cmdReadWriteOkAtStart i = false)
    (hnext : (s.step i).readsOrWrites = true) : s.readsOrWrites = true ∧ s.cmdReadIdOkAtStart i = false := by
  unfold readsOrWrites cmdReadNormalInProgress cmdWriteNormalInProgress at hnext ⊢
  rcases (Bool.or_eq_true _ _).mp hnext with h | h
  · rcases pending_step 0x06 (by decide) hr h with ⟨h', -⟩ | ⟨-, -, hcode⟩ | ⟨-, hcode⟩ | hcode | ⟨hno, hkept⟩
    · rw [hok] at h'
      cases h'
    · exact absurd hcode (by decide)
    · exact absurd hcode (by decide)
    · exact absurd hcode (by decide)
    · exact ⟨by rw [hkept, Bool.true_or], hno⟩
  · rcases pending_step 0x05 (by decide) hr h with ⟨h', -⟩ | ⟨-, -, hcode⟩ | ⟨-, hcode⟩ | hcode | ⟨hno, hkept⟩
    · rw [hok] at h'
      cases h'
    · exact absurd hcode (by decide)
    · exact absurd hcode (by decide)
    · exact absurd hcode (by decide)
    · exact ⟨by rw [hkept, Bool.or_true], hno⟩

theorem format_step (hr : i.rstN = true) (hok : s.cmdFormatOkAtStart i = false)
    (hnext : (s.step i).cmdFormatInProgress = true) : s.cmdFormatInProgress = true := by
  rcases pending_step 0x0D (by decide) hr hnext with ⟨-, hcode⟩ | ⟨-, -, hcode⟩ | ⟨hok', -⟩ | hcode | ⟨-, hkept⟩
  · exact absurd hcode (by decide)
  · exact absurd hcode (by decide)
  · rw [hok] at hok'
    cases hok'
  · exact absurd hcode (by decide)
  · exact hkept

/-! ### Where the states come from -/

theorem dataStates_of_next (hr : i.rstN = true) (hrw : s.readsOrWrites = false) (hnext : s.stateNext i ∈ dataStates) :
    s.state ∈ dataStates := by
  unfold readsOrWrites at hrw
  rw [Bool.or_eq_false_iff] at hrw
  unfold stateNext formatInputFinish cmdReadIdFinished checkTcFinish at hnext
  rw [hr, hrw.1, hrw.2] at hnext
  cases hs : s.state <;> simp [hs, dataStates] at hnext ⊢
  all_goals grind

theorem endStates_of_next (hr : i.rstN = true) (hrw : s.readsOrWrites = true) (hid : s.cmdReadIdOkAtStart i = false)
    (hnext : s.stateNext i ∈ endStates) : s.state = .updateSector ∨ s.state ∈ endStates := by
  unfold readsOrWrites at hrw
  rw [Bool.or_eq_true] at hrw
  unfold stateNext formatInputFinish cmdReadIdFinished checkTcFinish at hnext
  rw [hr, hid] at hnext
  cases hs : s.state <;> simp [hs, endStates] at hnext ⊢
  all_goals grind

theorem follows_cases (hr : i.rstN = true) :
    (s.stateNext i = .countLogical → s.state = .prepareCount ∨ s.state = .countLogical) ∧
      (s.stateNext i ∈ [FloppyState.countLogical, .waitForFullWriteFifo, .prepare] →
        s.state = .prepareCount ∨ s.state ∈ [FloppyState.countLogical, .waitForFullWriteFifo]) ∧
      (s.stateNext i ∈ FloppyState.sdControl :: askingStates →
        s.state = .prepare ∨ s.state ∈ FloppyState.sdControl :: askingStates) := by
  have hfollows := s.stateNext_follows hr
  cases hs : s.state <;> rw [hs] at hfollows <;> simp [FloppyState.follows, askingStates] at hfollows ⊢
  all_goals grind

end Later

namespace Unread

variable {x : Leftover} (h : Unread s x)

section Signals

include h

theorem readWriteFinish : (s.state == .checkTc && (s.withLeftover x).cmdReadWriteFinish) =
    (s.state == .checkTc && s.cmdReadWriteFinish) := by
  cases hs : s.state == .checkTc with
  | false => rfl
  | true =>
    rw [beq_iff_eq] at hs
    show (true && (s.readsOrWrites && ((!s.executeNdma && x.dmaHasTerminated) ||
      (s.executeNdma && x.cmdReadWriteWasNdmaTerminal)))) = (true && (s.readsOrWrites && _))
    rw [h.terminated (by rw [hs]; decide)]
    cases hrw : s.readsOrWrites with
    | false => rfl
    | true => rw [h.terminal hrw (by rw [hs]; decide)]

theorem formatFinish : (s.state == .checkTc && (s.withLeftover x).cmdFormatFinish) =
    (s.state == .checkTc && s.cmdFormatFinish) := by
  cases hs : s.state == .checkTc with
  | false => rfl
  | true =>
    rw [beq_iff_eq] at hs
    show (true && (s.cmdFormatInProgress && ((!s.executeNdma && x.dmaHasTerminated) ||
      (s.executeNdma && x.formatSectorCount == 0)))) = (true && (s.cmdFormatInProgress && _))
    rw [h.terminated (by rw [hs]; decide)]
    cases hformat : s.cmdFormatInProgress with
    | false => rfl
    | true =>
      rw [(h.format hformat).1]
      rfl

theorem checkTcFinish : (s.withLeftover x).checkTcFinish = s.checkTcFinish := by
  show (s.state == .checkTc && (_ || _)) = (s.state == .checkTc && (_ || _))
  rw [Bool.and_or_distrib_left, h.readWriteFinish, h.formatFinish, ← Bool.and_or_distrib_left]

theorem formatInputFinish : (s.withLeftover x).formatInputFinish = s.formatInputFinish := by
  show (s.state == .waitForFormatInput && (!s.executeNdma && x.dmaHasTerminated)) =
    (s.state == .waitForFormatInput && _)
  cases hs : s.state == .waitForFormatInput with
  | false => rfl
  | true =>
    rw [beq_iff_eq] at hs
    rw [h.terminated (by rw [hs]; decide)]
    rfl

theorem cmdReadIdFinished : (s.withLeftover x).cmdReadIdFinished = s.cmdReadIdFinished := by
  show (s.state == .wait && x.commandWaitCounter == 0 && s.cmdReadIdInProgress) = (s.state == .wait && _ && _)
  cases hs : s.state == .wait with
  | false => rfl
  | true => rw [h.counter (beq_iff_eq.1 hs)]

theorem enterResultPhase : (s.withLeftover x).enterResultPhase i = s.enterResultPhase i := by
  unfold Floppy.enterResultPhase
  rw [h.checkTcFinish, h.formatInputFinish, h.cmdReadIdFinished]
  rfl

theorem raiseInterrupt : (s.withLeftover x).raiseInterrupt i = s.raiseInterrupt i := by
  unfold Floppy.raiseInterrupt
  rw [h.checkTcFinish, h.formatInputFinish, h.cmdReadIdFinished]
  rfl

/-- The bytes of a sector's address are complete. -/
theorem inputFull : (s.state == .waitForFormatInput && (s.withLeftover x).formatDataCount == 4) =
    (s.state == .waitForFormatInput && s.formatDataCount == 4) := by
  cases hs : s.state == .waitForFormatInput with
  | false => rfl
  | true =>
    show (true && x.formatDataCount == 4) = _
    rw [(h.input (beq_iff_eq.1 hs)).1]

theorem incrementCylinder : (s.state == .updateSector && (s.withLeftover x).incrementCylinder i) =
    (s.state == .updateSector && s.incrementCylinder i) := by
  cases hs : s.state == .updateSector with
  | false => rfl
  | true =>
    show (true && (!s.incrementOnlySector i && (!x.cmdReadWriteMultitrack || s.head (s.selectedDrive i)))) = _
    rw [h.multitrack (.inr (by rw [beq_iff_eq.1 hs]; decide))]
    rfl

theorem formatDataCount_eq (hs : s.state = .waitForFormatInput) :
    (s.withLeftover x).formatDataCount = s.formatDataCount := (h.input hs).1

theorem multEnd : (s.state == .countLogical && (s.withLeftover x).multB == 0) =
    (s.state == .countLogical && s.multB == 0) := by
  cases hs : s.state == .countLogical with
  | false => rfl
  | true =>
    show (true && x.multB == 0) = _
    rw [(h.mult (beq_iff_eq.1 hs)).2]

theorem waitEnd : (s.state == .wait && (s.withLeftover x).commandWaitCounter == 0) =
    (s.state == .wait && s.commandWaitCounter == 0) := by
  cases hs : s.state == .wait with
  | false => rfl
  | true =>
    show (true && x.commandWaitCounter == 0) = _
    rw [h.counter (beq_iff_eq.1 hs)]

/-- The address that is complete is the same. -/
theorem formatData_eq (hfull : (s.state == .waitForFormatInput && s.formatDataCount == 4) = true) :
    (s.withLeftover x).formatData = s.formatData := by
  rw [Bool.and_eq_true, beq_iff_eq, beq_iff_eq] at hfull
  refine BitVec.eq_of_getLsbD_eq fun k hk => (h.input hfull.1).2 k ?_
  rw [hfull.2]
  exact hk

/-! ### The registers of the next clock -/

theorem dataregReadyNext : (s.withLeftover x).dataregReadyNext i = s.dataregReadyNext i := by
  unfold Floppy.dataregReadyNext
  rw [h.enterResultPhase]
  by_cases hs : s.state = .waitForFormatInput
  · rw [h.formatDataCount_eq hs]
    rfl
  · have hno : (s.state == .waitForFormatInput) = false := beq_false_of_ne hs
    have hno' : ((s.withLeftover x).state == .waitForFormatInput) = false := hno
    rw [hno, hno']
    simp only [Bool.and_false, Bool.false_and, Bool.false_eq_true, if_false]
    rfl

theorem ndmaIrqNext : (s.withLeftover x).ndmaIrqNext i = s.ndmaIrqNext i := by
  unfold Floppy.ndmaIrqNext
  by_cases hs : s.state = .waitForFormatInput
  · rw [h.formatDataCount_eq hs]
    rfl
  · have hno : (s.state == .waitForFormatInput) = false := beq_false_of_ne hs
    have hno' : ((s.withLeftover x).state == .waitForFormatInput) = false := hno
    rw [hno, hno']
    simp only [Bool.false_and, Bool.false_eq_true, if_false]
    rfl

theorem executeNdmaNext : (s.withLeftover x).executeNdmaNext i = s.executeNdmaNext i := by
  unfold Floppy.executeNdmaNext
  rw [h.enterResultPhase]
  rfl

theorem transferToCpuNext : (s.withLeftover x).transferToCpuNext i = s.transferToCpuNext i := by
  unfold Floppy.transferToCpuNext
  rw [h.enterResultPhase]
  rfl

theorem busyNext : (s.withLeftover x).busyNext i = s.busyNext i := by
  unfold Floppy.busyNext
  rw [h.enterResultPhase]
  rfl

theorem changeNext : (s.withLeftover x).changeNext i = s.changeNext i := by
  unfold Floppy.changeNext Floppy.resetChangeline
  rw [show ((s.withLeftover x).state == .updateSector && (s.withLeftover x).incrementCylinder i) = _ from h.incrementCylinder]
  rfl

theorem pendingCommandNext : (s.withLeftover x).pendingCommandNext i = s.pendingCommandNext i := by
  unfold Floppy.pendingCommandNext
  rw [h.enterResultPhase]
  rfl

theorem irqNext : (s.withLeftover x).irqNext i = s.irqNext i := by
  unfold Floppy.irqNext
  rw [h.raiseInterrupt]
  rfl

theorem resetSenseiNext : (s.withLeftover x).resetSenseiNext i = s.resetSenseiNext i := by
  unfold Floppy.resetSenseiNext
  rw [h.raiseInterrupt]
  rfl

theorem pendingInterruptNext : (s.withLeftover x).pendingInterruptNext i = s.pendingInterruptNext i := by
  unfold Floppy.pendingInterruptNext
  rw [h.raiseInterrupt]
  rfl

theorem replyLeftNext : (s.withLeftover x).replyLeftNext i = s.replyLeftNext i := by
  unfold Floppy.replyLeftNext
  rw [h.checkTcFinish, h.formatInputFinish, h.cmdReadIdFinished]
  rfl

theorem replyNext : (s.withLeftover x).replyNext i = s.replyNext i := by
  unfold Floppy.replyNext
  rw [show ((s.withLeftover x).state == .checkTc && (s.withLeftover x).cmdReadWriteFinish) = _ from h.readWriteFinish,
    show ((s.withLeftover x).state == .checkTc && (s.withLeftover x).cmdFormatFinish) = _ from h.formatFinish,
    h.formatInputFinish, h.cmdReadIdFinished]
  rfl

theorem stateNext : (s.withLeftover x).stateNext i = s.stateNext i := by
  unfold Floppy.stateNext
  rw [show ((s.withLeftover x).state == .countLogical && (s.withLeftover x).multB == 0) = _ from h.multEnd,
    show ((s.withLeftover x).state == .waitForFormatInput && (s.withLeftover x).formatDataCount == 4) = _ from h.inputFull,
    show ((s.withLeftover x).state == .wait && (s.withLeftover x).commandWaitCounter == 0) = _ from h.waitEnd,
    h.formatInputFinish, h.cmdReadIdFinished, h.checkTcFinish]
  rfl

theorem cylinderNext : (s.withLeftover x).cylinderNext i = s.cylinderNext i := by
  unfold Floppy.cylinderNext
  rw [show ((s.withLeftover x).state == .updateSector && (s.withLeftover x).incrementCylinder i) = _ from
      h.incrementCylinder,
    show ((s.withLeftover x).state == .waitForFormatInput && (s.withLeftover x).formatDataCount == 4) = _ from h.inputFull]
  cases hfull : s.state == .waitForFormatInput && s.formatDataCount == 4 with
  | false => rfl
  | true =>
    rw [h.formatData_eq hfull]
    rfl

theorem headNext : (s.withLeftover x).headNext i = s.headNext i := by
  unfold Floppy.headNext
  have hturn : ((s.withLeftover x).state == .updateSector && !(s.withLeftover x).incrementOnlySector i &&
      (s.withLeftover x).cmdReadWriteMultitrack) =
      (s.state == .updateSector && !s.incrementOnlySector i && s.cmdReadWriteMultitrack) := by
    show (s.state == .updateSector && !s.incrementOnlySector i && x.cmdReadWriteMultitrack) = _
    cases hs : s.state == .updateSector with
    | false => rfl
    | true => rw [h.multitrack (.inr (by rw [beq_iff_eq.1 hs]; decide))]
  rw [hturn]
  rfl

theorem sectorNext : (s.withLeftover x).sectorNext i = s.sectorNext i := by
  unfold Floppy.sectorNext
  rw [show ((s.withLeftover x).state == .waitForFormatInput && (s.withLeftover x).formatDataCount == 4) = _ from
    h.inputFull]
  cases hfull : s.state == .waitForFormatInput && s.formatDataCount == 4 with
  | false => rfl
  | true =>
    rw [h.formatData_eq hfull]
    rfl

theorem fifoNext : (s.withLeftover x).fifoNext i = s.fifoNext i := by
  unfold Floppy.fifoNext
  by_cases hs : s.state = .waitForFullWriteFifo
  · have hdma : (s.withLeftover x).dmaHasTerminated = s.dmaHasTerminated := h.terminated (by rw [hs]; decide)
    unfold Floppy.fifoPcWr
    rw [hdma]
    rfl
  · have hno : (s.state == .waitForFullWriteFifo) = false := beq_false_of_ne hs
    have hno' : ((s.withLeftover x).state == .waitForFullWriteFifo) = false := hno
    rw [hno, hno']
    rfl

theorem dmaReq : (s.withLeftover x).dmaReq i = s.dmaReq i := by
  unfold Floppy.dmaReq
  by_cases hs : s.state = .idle
  · have hidle : ∀ y : FloppyState, y ≠ .idle → (s.state == y) = false := fun y hy =>
      beq_false_of_ne (by rw [hs]; exact hy.symm)
    have hidle' : ∀ y : FloppyState, y ≠ .idle → ((s.withLeftover x).state == y) = false := hidle
    rw [hidle _ (by decide), hidle _ (by decide), hidle _ (by decide), hidle' _ (by decide), hidle' _ (by decide),
      hidle' _ (by decide)]
    simp only [Bool.and_false, Bool.or_false]
  · rw [show (s.withLeftover x).dmaHasTerminated = s.dmaHasTerminated from h.terminated hs]
    by_cases hinput : s.state = .waitForFormatInput
    · rw [h.formatDataCount_eq hinput]
      rfl
    · have hno : (s.state == .waitForFormatInput) = false := beq_false_of_ne hinput
      have hno' : ((s.withLeftover x).state == .waitForFormatInput) = false := hno
      rw [hno, hno', Bool.and_false, Bool.and_false]
      rfl

/-- The leftovers do not show. -/
theorem out_eq : (s.withLeftover x).out i = s.out i := by
  unfold out
  rw [h.dmaReq]
  congr 1
  · show (if s.state ∈ askingStates then some (_ ++ x.sdSector.extractLsb' 0 15) else none) =
      (if s.state ∈ askingStates then some (_ ++ s.sdSector.extractLsb' 0 15) else none)
    refine ite_congr rfl (fun hs => ?_) fun _ => rfl
    rw [h.sector (List.mem_cons_of_mem _ hs)]
    rfl
  · show (if s.cmdFormatInProgress then x.formatFillerByte else s.fifo.q) =
      (if s.cmdFormatInProgress then s.formatFillerByte else s.fifo.q)
    exact ite_congr rfl (fun hf => (h.format hf).2) fun _ => rfl

/-- A clock later they are leftovers again. -/
theorem step_eq : (s.withLeftover x).step i = (s.step i).withLeftover ((s.withLeftover x).step i).leftover := by
  apply Floppy.ext
  case dataregReady => exact h.dataregReadyNext
  case executeNdma => exact h.executeNdmaNext
  case ndmaIrq => exact h.ndmaIrqNext
  case transferToCpu => exact h.transferToCpuNext
  case busy => exact h.busyNext
  case change => exact h.changeNext
  case pendingCommand => exact h.pendingCommandNext
  case irq => exact h.irqNext
  case resetSensei => exact h.resetSenseiNext
  case pendingInterrupt => exact h.pendingInterruptNext
  case replyLeft => exact h.replyLeftNext
  case reply => exact h.replyNext
  case state => exact h.stateNext
  case cylinder => exact h.cylinderNext
  case head => exact h.headNext
  case sector => exact h.sectorNext
  case fifo => exact h.fifoNext
  all_goals rfl

theorem next_multitrack (hread : (s.step i).readsOrWrites = true ∨ s.stateNext i ∈ dataStates) :
    ((s.withLeftover x).step i).cmdReadWriteMultitrack = (s.step i).cmdReadWriteMultitrack := by
  show (if !i.rstN then false else if s.cmdReadWriteOkAtStart i then s.command.getLsbD 63 else x.cmdReadWriteMultitrack) =
    (if !i.rstN then false else if s.cmdReadWriteOkAtStart i then s.command.getLsbD 63 else s.cmdReadWriteMultitrack)
  cases hr : i.rstN with
  | false => rfl
  | true =>
    cases hok : s.cmdReadWriteOkAtStart i with
    | true => rfl
    | false =>
      refine h.multitrack ?_
      cases hrw : s.readsOrWrites with
      | true => exact .inl rfl
      | false =>
        rcases hread with hnext | hnext
        · rw [(readsOrWrites_step hr hok hnext).1] at hrw
          cases hrw
        · exact .inr (dataStates_of_next hr hrw hnext)

theorem next_terminal (hrw : (s.step i).readsOrWrites = true) (hs : s.stateNext i ∈ endStates) :
    ((s.withLeftover x).step i).cmdReadWriteWasNdmaTerminal = (s.step i).cmdReadWriteWasNdmaTerminal := by
  show (s.withLeftover x).wasNdmaTerminalNext i = s.wasNdmaTerminalNext i
  unfold wasNdmaTerminalNext
  cases hr : i.rstN with
  | false => rfl
  | true =>
    by_cases hupdate : s.state = .updateSector
    · have hyes : (s.state == .updateSector) = true := beq_iff_eq.2 hupdate
      have hyes' : ((s.withLeftover x).state == .updateSector) = true := hyes
      rw [hyes, hyes']
      rfl
    · have hno : (s.state == .updateSector) = false := beq_false_of_ne hupdate
      have hno' : ((s.withLeftover x).state == .updateSector) = false := hno
      rw [hno, hno']
      cases hok : s.cmdReadWriteOkAtStart i with
      | true =>
        -- a transfer that starts is not at its end
        have hidle : s.state = .idle := by
          by_contra hne
          rw [(NoLast.of_not_idle hne).readWriteOk] at hok
          cases hok
        have hstart : s.stateNext i = .prepareCount := by
          unfold Floppy.stateNext
          rw [hr, hidle, hok]
          rfl
        rw [hstart] at hs
        exact absurd hs (by decide)
      | false =>
        obtain ⟨hnow, hid⟩ := readsOrWrites_step hr hok hrw
        exact h.terminal hnow ((endStates_of_next hr hnow hid hs).resolve_left hupdate)

theorem next_mult (hs : s.stateNext i = .countLogical) : ((s.withLeftover x).step i).multA = (s.step i).multA ∧
    ((s.withLeftover x).step i).multB = (s.step i).multB := by
  show (s.withLeftover x).multANext i = s.multANext i ∧ (s.withLeftover x).multBNext i = s.multBNext i
  unfold multANext multBNext
  cases hr : i.rstN with
  | false => exact ⟨rfl, rfl⟩
  | true =>
    rcases (follows_cases hr).1 hs with hp | hc
    · have hyes : (s.state == .prepareCount) = true := beq_iff_eq.2 hp
      have hyes' : ((s.withLeftover x).state == .prepareCount) = true := hyes
      rw [hyes, hyes']
      exact ⟨rfl, rfl⟩
    · rw [show (s.withLeftover x).multA = s.multA from (h.mult hc).1,
        show (s.withLeftover x).multB = s.multB from (h.mult hc).2]
      exact ⟨rfl, rfl⟩

theorem next_logical (hs : s.stateNext i ∈ [FloppyState.countLogical, .waitForFullWriteFifo, .prepare]) :
    ((s.withLeftover x).step i).logicalSector = (s.step i).logicalSector := by
  show (s.withLeftover x).logicalSectorNext i = s.logicalSectorNext i
  unfold logicalSectorNext
  cases hr : i.rstN with
  | false => rfl
  | true =>
    rcases (follows_cases hr).2.1 hs with hp | hc
    · have hyes : (s.state == .prepareCount) = true := beq_iff_eq.2 hp
      have hyes' : ((s.withLeftover x).state == .prepareCount) = true := hyes
      rw [hyes, hyes']
      rfl
    · have hlogical : (s.withLeftover x).logicalSector = s.logicalSector :=
        h.logical (List.mem_append_left [FloppyState.prepare] hc)
      rw [hlogical]
      by_cases hcount : s.state = .countLogical
      · rw [show (s.withLeftover x).multA = s.multA from (h.mult hcount).1,
          show (s.withLeftover x).multB = s.multB from (h.mult hcount).2]
        rfl
      · have hno : (s.state == .countLogical) = false := beq_false_of_ne hcount
        have hno' : ((s.withLeftover x).state == .countLogical) = false := hno
        rw [hno, hno']
        rfl

theorem next_sector (hs : s.stateNext i ∈ FloppyState.sdControl :: askingStates) :
    ((s.withLeftover x).step i).sdSector = (s.step i).sdSector := by
  show (s.withLeftover x).sdSectorNext i = s.sdSectorNext i
  unfold sdSectorNext
  cases hr : i.rstN with
  | false => rfl
  | true =>
    rcases (follows_cases hr).2.2 hs with hp | hc
    · rw [show (s.withLeftover x).logicalSector = s.logicalSector from h.logical (by rw [hp]; decide)]
      have hyes : (s.state == .prepare) = true := beq_iff_eq.2 hp
      have hyes' : ((s.withLeftover x).state == .prepare) = true := hyes
      rw [hyes, hyes']
      rfl
    · have hno : (s.state == .prepare) = false := beq_false_of_ne fun heq => by
        rw [heq] at hc
        exact absurd hc (by decide)
      have hno' : ((s.withLeftover x).state == .prepare) = false := hno
      rw [show (s.withLeftover x).sdSector = s.sdSector from h.sector hc, hno, hno']
      rfl

theorem next_input : ((s.withLeftover x).step i).formatDataCount = (s.step i).formatDataCount ∧
      ∀ k, k < 8 * (s.step i).formatDataCount.toNat →
        ((s.withLeftover x).step i).formatData.getLsbD k = (s.step i).formatData.getLsbD k := by
  show (s.withLeftover x).formatDataCountNext i = s.formatDataCountNext i ∧
    ∀ k, k < 8 * (s.formatDataCountNext i).toNat →
      ((s.withLeftover x).formatDataNext i).getLsbD k = (s.formatDataNext i).getLsbD k
  unfold formatDataCountNext formatDataNext
  cases hr : i.rstN with
  | false => exact ⟨rfl, fun _ _ => rfl⟩
  | true =>
    by_cases hinput : s.state = .waitForFormatInput
    · obtain ⟨hcount, hbits⟩ := h.input hinput
      have hno : (s.state != .waitForFormatInput) = false := bne_eq_false_iff_eq.2 hinput
      have hno' : ((s.withLeftover x).state != .waitForFormatInput) = false := hno
      rw [hno, hno', h.formatDataCount_eq hinput]
      refine ⟨rfl, fun k hk => ?_⟩
      have hpush : ∀ b : BitVec 8, s.formatDataCount < 4 → k < 8 * (s.formatDataCount + 1).toNat →
          ((s.withLeftover x).formatData.extractLsb' 0 24 ++ b).getLsbD k =
            (s.formatData.extractLsb' 0 24 ++ b).getLsbD k := by
        intro b hroom hk
        have hplus : (s.formatDataCount + 1).toNat = s.formatDataCount.toNat + 1 := by
          have : s.formatDataCount.toNat < 4 := hroom
          rw [BitVec.toNat_add]
          exact Nat.mod_eq_of_lt (by show _ + 1 < 8; omega)
        rw [BitVec.getLsbD_append, BitVec.getLsbD_append]
        split
        · rfl
        · rw [BitVec.getLsbD_extractLsb', BitVec.getLsbD_extractLsb', Nat.zero_add]
          exact congrArg _ (hbits (k - 8) (by omega))
      have hsame : (s.withLeftover x).ndmaWrite i = s.ndmaWrite i := rfl
      rw [hsame]
      by_cases hroom : s.formatDataCount < 4
      · rw [decide_eq_true hroom, Bool.and_true] at hk ⊢
        cases hw : s.ndmaWrite i with
        | true =>
          rw [hw] at hk
          exact hpush _ hroom hk
        | false =>
          cases ha : i.dmaAck with
          | true =>
            rw [hw, ha] at hk
            exact hpush _ hroom hk
          | false =>
            rw [hw, ha] at hk
            exact hbits k hk
      · rw [decide_eq_false hroom, Bool.and_false] at hk ⊢
        rw [Bool.and_false]
        exact hbits k hk
    · have hyes : (s.state != .waitForFormatInput) = true := bne_iff_ne.2 hinput
      have hyes' : ((s.withLeftover x).state != .waitForFormatInput) = true := hyes
      rw [hyes, hyes']
      exact ⟨rfl, fun k hk => absurd hk (Nat.not_lt_zero k)⟩

theorem next_format (hf : (s.step i).cmdFormatInProgress = true) :
    ((s.withLeftover x).step i).formatSectorCount = (s.step i).formatSectorCount ∧
      ((s.withLeftover x).step i).formatFillerByte = (s.step i).formatFillerByte := by
  show (s.withLeftover x).formatSectorCountNext i = s.formatSectorCountNext i ∧
    (if !i.rstN then 0 else if s.cmdFormatOkAtStart i then i.ioWritedata else x.formatFillerByte) =
      (if !i.rstN then 0 else if s.cmdFormatOkAtStart i then i.ioWritedata else s.formatFillerByte)
  unfold formatSectorCountNext
  have hsame : (s.withLeftover x).cmdFormatOkAtStart i = s.cmdFormatOkAtStart i := rfl
  rw [hsame]
  cases hr : i.rstN with
  | false => exact ⟨rfl, rfl⟩
  | true =>
    cases hok : s.cmdFormatOkAtStart i with
    | true => exact ⟨rfl, rfl⟩
    | false =>
      obtain ⟨hcount, hfiller⟩ := h.format (format_step hr hok hf)
      rw [show (s.withLeftover x).formatSectorCount = s.formatSectorCount from hcount, hfiller]
      exact ⟨rfl, rfl⟩

theorem next_terminated : ((s.withLeftover x).step i).dmaHasTerminated = (s.step i).dmaHasTerminated := by
  show (if !i.rstN then false else if s.state == .idle then false else if i.dmaTc then true else x.dmaHasTerminated) =
    (if !i.rstN then false else if s.state == .idle then false else if i.dmaTc then true else s.dmaHasTerminated)
  cases hs : s.state == .idle with
  | true => rfl
  | false => rw [h.terminated (by simpa using hs)]

theorem next_counter : ((s.withLeftover x).step i).commandWaitCounter = (s.step i).commandWaitCounter := by
  show (s.withLeftover x).commandWaitCounterNext i = s.commandWaitCounterNext i
  unfold commandWaitCounterNext
  by_cases hs : s.state = .wait
  · rw [show (s.withLeftover x).commandWaitCounter = s.commandWaitCounter from h.counter hs]
    rfl
  · have hyes : (s.state != .wait) = true := bne_iff_ne.2 hs
    have hyes' : ((s.withLeftover x).state != .wait) = true := hyes
    rw [hyes, hyes']
    rfl

theorem next : Unread (s.step i) ((s.withLeftover x).step i).leftover where
  multitrack := h.next_multitrack
  terminal := h.next_terminal
  mult := h.next_mult
  logical := h.next_logical
  sector := h.next_sector
  input _ := h.next_input
  format := h.next_format
  terminated _ := h.next_terminated
  counter _ := h.next_counter

end Signals
end Unread

/-! ## Two controllers -/

/-- The two controllers are the same but for what is written before it is read. -/
def Alike (s s' : Floppy) : Prop := ∃ x, Unread s x ∧ SameCommand (s.withLeftover x) s'

namespace Alike

variable {s' : Floppy}

theorem out_eq (h : Alike s s') : s'.out i = s.out i := by
  obtain ⟨x, hx, hc⟩ := h
  exact hc.out_eq.trans hx.out_eq

theorem step (h : Alike s s') : Alike (s.step i) (s'.step i) := by
  obtain ⟨x, hx, hc⟩ := h
  refine ⟨((s.withLeftover x).step i).leftover, hx.next, ?_⟩
  rw [← hx.step_eq]
  exact hc.step

/-- They go on alike, whatever comes. -/
theorem run (h : Alike s s') (inp : Nat → FloppyIn) (n : Nat) :
    Alike (Clocked.run Floppy.step s inp n) (Clocked.run Floppy.step s' inp n) := by
  induction n with
  | zero => exact h
  | succ n ih => exact ih.step

end Alike

end Floppy

end Z486.Disk
