/-
The floppy controller (src/soc/floppy.v): a command is collected byte by byte at the data port, checked
when its last parameter arrives, carried out by the transfer state machine and answered by result bytes.
Every register has its own clocked block; each is a definition here, and `step` puts them together.
-/
import Mathlib.Tactic.Common

namespace Z486.Disk

/-! ## Ports and registers -/

structure FloppyIn where
  rstN : Bool
  dmaAck : Bool
  dmaTc : Bool
  dmaReaddata : BitVec 8
  ioAddress : BitVec 3
  ioRead : Bool
  ioWrite : Bool
  ioWritedata : BitVec 8
  mgmtAddress : BitVec 4
  mgmtFddn : Bool
  mgmtWrite : Bool
  mgmtWritedata : BitVec 16
  mgmtRead : Bool
  wp : Bool → Bool
  clockRate : BitVec 28

/-- The states of the transfer. -/
inductive FloppyState
  | idle
  | prepareCount
  | countLogical
  | prepare
  | sdControl
  | sdReadWaitForData
  | waitForEmptyReadFifo
  | updateSector
  | checkTc
  | wait
  | waitForFullWriteFifo
  | sdWriteWaitForEmptyFifo
  | waitForFormatInput
  | sdFormatWaitForFill
  deriving DecidableEq, Repr, Inhabited

/-- `simple_fifo` of 1024 bytes. -/
structure Fifo where
  mem : BitVec 10 → BitVec 8
  rdIndex : BitVec 10
  wrIndex : BitVec 10
  full : Bool
  usedw : BitVec 10
  deriving Inhabited

/-- The registers; those of a drive are functions of its number. -/
structure Floppy where
  clkRate : BitVec 28
  mediaPresent : Bool → Bool
  wpSys : Bool → Bool
  mediaCylinders : Bool → BitVec 8
  mediaSectorsPerTrack : Bool → BitVec 8
  mediaSectorCount : Bool → BitVec 16
  mediaHeads : Bool → BitVec 2
  ioReaddata : BitVec 8
  selectedDriveR : Bool
  motorEnable : Bool → Bool
  oldMotorEnable : Bool → Bool
  dmaIrqEnable : Bool
  enable : Bool
  dataRate : BitVec 2
  dataregReady : Bool
  executeNdma : Bool
  ndmaIrqTo : BitVec 3
  ndmaIrq : Bool
  transferToCpu : Bool
  busy : Bool
  change : Bool → Bool
  inSeekMode : BitVec 4
  command : BitVec 72
  commandSize : BitVec 4
  commandLeft : BitVec 4
  pendingCommand : BitVec 8
  cmdReadWriteMultitrack : Bool
  cmdReadWriteWasNdmaTerminal : Bool
  specifySrt : BitVec 4
  specifyHut : BitVec 4
  specifyHlt : BitVec 7
  ndma : Bool
  oldEnable : Bool
  irq : Bool
  resetSensei : BitVec 3
  pendingInterrupt : Bool
  pendingInterruptLast : Bool
  delaySteps : BitVec 8
  delaySrt : BitVec 4
  delayAdderR : BitVec 28
  delayRate : BitVec 28
  statusReg0Temp : BitVec 8
  configConfig : BitVec 8
  configPretrk : BitVec 8
  perpMode : BitVec 8
  lock : Bool
  formatData : BitVec 32
  formatDataCount : BitVec 3
  formatFillerByte : BitVec 8
  formatSectorCount : BitVec 8
  replyLeft : BitVec 4
  reply : BitVec 80
  state : FloppyState
  commandWaitCounter : BitVec 16
  multA : BitVec 16
  multB : BitVec 8
  logicalSector : BitVec 16
  cylinder : Bool → BitVec 8
  head : Bool → Bool
  sector : Bool → BitVec 8
  eot : Bool → BitVec 8
  formatCounter : BitVec 9
  sdSector : BitVec 16
  dmaHasTerminated : Bool
  fifoReaddata : BitVec 8
  fifo : Fifo
  deriving Inhabited

/-! ## Fifo -/

namespace Fifo

variable (f : Fifo)

def empty : Bool := f.usedw == 0 && !f.full

def q : BitVec 8 := f.mem f.rdIndex

def step (clear rdreq wrreq : Bool) (data : BitVec 8) : Fifo where
  mem := if wrreq && (!f.full || rdreq) then fun a => if a = f.wrIndex then data else f.mem a else f.mem
  rdIndex := if clear then 0 else if rdreq && !f.empty then f.rdIndex + 1 else f.rdIndex
  wrIndex := if clear then 0 else if wrreq && (!f.full || rdreq) then f.wrIndex + 1 else f.wrIndex
  full :=
    if clear then false
    else if rdreq && !wrreq && f.full then false
    else if !rdreq && wrreq && !f.full && f.usedw == 1023 then true
    else f.full
  usedw :=
    if clear then 0
    else if rdreq && !wrreq && !f.empty then f.usedw - 1
    else if !rdreq && wrreq && !f.full then f.usedw + 1
    else if rdreq && wrreq && f.empty then 1
    else f.usedw

end Fifo

/-- `drive ? {x[1] <= v} : {x[0] <= v}` -/
def setDrive {α : Type} (x : Bool → α) (drive : Bool) (v : α) : Bool → α := fun d => if d = drive then v else x d

/-- The parameters that follow the first byte of a command. -/
def parametersOf (code : BitVec 5) : BitVec 4 :=
  if code == 0x03 then 2 -- specify
  else if code == 0x04 then 1 -- get status
  else if code == 0x07 then 1 -- recalibrate
  else if code == 0x0F then 2 -- seek
  else if code == 0x0A then 1 -- read ID
  else if code == 0x0D then 5 -- format track
  else if code == 0x05 then 8 -- write normal data
  else if code == 0x06 then 8 -- read normal data
  else if code == 0x12 then 1 -- perpendicular mode
  else if code == 0x13 then 3 -- configure
  else 0

namespace FloppyIn

variable (i : FloppyIn)

/-- A byte is written to the port. -/
def writes (address : BitVec 3) : Bool := i.ioWrite && i.ioAddress == address

def reads (address : BitVec 3) : Bool := i.ioRead && i.ioAddress == address

/-- The low bits of the byte, which name a command. -/
def code : BitVec 5 := i.ioWritedata.extractLsb' 0 5

def fifoRead : Bool := i.mgmtRead && i.mgmtAddress == 15

def fifoWrite : Bool := i.mgmtWrite && i.mgmtAddress == 15

def commandAtFirst : BitVec 4 := parametersOf i.code

end FloppyIn

namespace Floppy

variable (s : Floppy) (i : FloppyIn)

/-! ## Commands -/

def swReset : Bool := (i.writes 2 && !i.ioWritedata.getLsbD 2 && s.enable) || (i.writes 4 && i.ioWritedata.getLsbD 7)

def commandFirst : Bool := i.writes 5 && s.state == .idle && s.commandLeft == 0 && !s.busy

def commandNext : Bool := i.writes 5 && s.state == .idle && s.commandLeft != 0

/-- The byte is the last one of a command of `size` parameters whose first byte has the low bits `code`. -/
def lastByte (size : BitVec 4) (low : Nat) (code : BitVec 5) : Bool :=
  s.commandSize == size && s.commandNext i && s.commandLeft == 1 && s.command.extractLsb' low 5 == code

def cmdSenseInterruptStatusStart : Bool := s.commandFirst i && i.code == 0x08
def cmdDumpRegistersStart : Bool := s.commandFirst i && i.code == 0x0E
def cmdVersionStart : Bool := s.commandFirst i && i.code == 0x10
def cmdUnlockStart : Bool := s.commandFirst i && i.ioWritedata == 0x14
def cmdLockStart : Bool := s.commandFirst i && i.ioWritedata == 0x94

def cmdSpecifyStart : Bool := s.lastByte i 2 8 0x03
def cmdGetStatusStart : Bool := s.lastByte i 1 0 0x04
def cmdRecalibrateStart : Bool := s.lastByte i 1 0 0x07
def cmdSeekStart : Bool := s.lastByte i 2 8 0x0F
def cmdReadIdStart : Bool := s.lastByte i 1 0 0x0A
def cmdFormatTrackStart : Bool := s.lastByte i 5 32 0x0D
def cmdWriteNormalStart : Bool := s.lastByte i 8 56 0x05
def cmdReadNormalStart : Bool := s.lastByte i 8 56 0x06
def cmdPerpendicularModeStart : Bool := s.lastByte i 1 0 0x12
def cmdConfigureModeStart : Bool := s.lastByte i 3 16 0x13

def cmdInvalidStart : Bool :=
  s.commandFirst i && i.code != 0x03 && i.code != 0x04 && i.code != 0x05 && i.code != 0x06 && i.code != 0x07 &&
    i.code != 0x08 && i.code != 0x0A && i.code != 0x0D && i.code != 0x0E && i.code != 0x0F && i.code != 0x10 &&
    i.code != 0x12 && i.code != 0x13 && i.code != 0x14

def cmdReadWriteStart : Bool := s.cmdReadNormalStart i || s.cmdWriteNormalStart i

def inProgress (code : BitVec 5) : Bool := s.pendingCommand.extractLsb' 0 5 == code

def cmdReadNormalInProgress : Bool := s.inProgress 0x06
def cmdWriteNormalInProgress : Bool := s.inProgress 0x05
def cmdFormatInProgress : Bool := s.inProgress 0x0D
def cmdRecalibrateInProgress : Bool := s.inProgress 0x07
def cmdReadIdInProgress : Bool := s.inProgress 0x0A

/-- `selected_drive[0]`; bit 1 is always 0. -/
def selectedDrive : Bool :=
  i.rstN &&
    (if i.writes 2 then i.ioWritedata.getLsbD 0
    else if s.cmdRecalibrateStart i then i.ioWritedata.getLsbD 0
    else if s.cmdSeekStart i then s.command.getLsbD 0
    else if s.cmdReadIdStart i then i.ioWritedata.getLsbD 0
    else if s.cmdFormatTrackStart i then s.command.getLsbD 24
    else if s.cmdReadWriteStart i then s.command.getLsbD 48
    else s.selectedDriveR)

/-- `selected_drive` as a byte. -/
def driveByte : BitVec 8 := BitVec.setWidth 8 (BitVec.ofBool (s.selectedDrive i))

def mediaWriteprotected (drive : Bool) : Bool := s.wpSys drive || i.wp drive

/-! ### Read and write -/

def cmdReadWriteHangAtStart : Bool :=
  let d := s.selectedDrive i
  !s.motorEnable d || !s.mediaPresent d || s.command.extractLsb' 16 8 != 0x02 ||
    decide (s.mediaCylinders d ≤ s.command.extractLsb' 40 8)

def cmdReadWriteIncorrectHeadAtStart : Bool :=
  let d := s.selectedDrive i
  s.motorEnable d && (s.command.getLsbD 50 != s.command.getLsbD 32 || (s.command.getLsbD 32 && s.mediaHeads d == 1))

def cmdReadWriteIncorrectSectorAtStart : Bool :=
  !s.cmdReadWriteHangAtStart i &&
    (decide (s.mediaSectorsPerTrack (s.selectedDrive i) < s.command.extractLsb' 24 8) ||
      decide (s.command.extractLsb' 8 8 < s.command.extractLsb' 24 8))

def cmdWriteAndWriteprotectedAtStart : Bool :=
  !s.cmdReadWriteHangAtStart i && !s.cmdReadWriteIncorrectSectorAtStart i && s.cmdWriteNormalStart i &&
    s.mediaWriteprotected i (s.selectedDrive i)

def cmdReadWriteOkAtStart : Bool :=
  s.cmdReadWriteStart i && !s.cmdReadWriteHangAtStart i && !s.cmdReadWriteIncorrectHeadAtStart i &&
    !s.cmdReadWriteIncorrectSectorAtStart i && !s.cmdWriteAndWriteprotectedAtStart i

def cmdReadWriteFinish : Bool :=
  (s.cmdReadNormalInProgress || s.cmdWriteNormalInProgress) &&
    ((!s.executeNdma && s.dmaHasTerminated) || (s.executeNdma && s.cmdReadWriteWasNdmaTerminal))

/-! ### Read ID -/

def cmdReadIdHangAtStart : Bool := !s.motorEnable (s.selectedDrive i) || !s.mediaPresent (s.selectedDrive i)

def cmdReadIdOkAtStart : Bool := s.cmdReadIdStart i && !s.cmdReadIdHangAtStart i

def cmdReadIdFinished : Bool := s.state == .wait && s.commandWaitCounter == 0 && s.cmdReadIdInProgress

/-! ### Format -/

def cmdFormatHangOnStart : Bool :=
  let d := s.selectedDrive i
  !s.motorEnable d || !s.mediaPresent d || s.command.extractLsb' 16 8 != 0x02 ||
    s.command.extractLsb' 8 8 != s.mediaSectorsPerTrack d

def cmdFormatWriteprotectedAtStart : Bool :=
  !s.cmdFormatHangOnStart i && s.cmdFormatTrackStart i && s.mediaWriteprotected i (s.selectedDrive i)

def cmdFormatOkAtStart : Bool :=
  s.cmdFormatTrackStart i && !s.cmdFormatWriteprotectedAtStart i && !s.cmdFormatHangOnStart i

def cmdFormatInInputFinish : Bool := !s.executeNdma && s.dmaHasTerminated

def cmdFormatFinish : Bool :=
  s.cmdFormatInProgress && (s.cmdFormatInInputFinish || (s.executeNdma && s.formatSectorCount == 0))

/-! ### Results -/

/-- The transfer has come to its end. -/
def checkTcFinish : Bool := s.state == .checkTc && (s.cmdReadWriteFinish || s.cmdFormatFinish)

def formatInputFinish : Bool := s.state == .waitForFormatInput && s.cmdFormatInInputFinish

def delayLastCycle : Bool := s.delaySteps == 0 && s.delaySrt == 0 && s.delayRate == 1

def enterResultPhase : Bool :=
  s.cmdInvalidStart i || s.cmdSenseInterruptStatusStart i || s.cmdDumpRegistersStart i || s.cmdVersionStart i ||
    s.cmdUnlockStart i || s.cmdLockStart i ||
    (s.cmdReadWriteStart i && (s.cmdReadWriteIncorrectHeadAtStart i || s.cmdReadWriteIncorrectSectorAtStart i ||
      s.cmdWriteAndWriteprotectedAtStart i)) ||
    s.checkTcFinish || (s.cmdFormatTrackStart i && s.cmdFormatWriteprotectedAtStart i) || s.formatInputFinish ||
    s.cmdGetStatusStart i || s.cmdReadIdFinished

def raiseInterrupt : Bool :=
  s.dmaIrqEnable &&
    ((s.cmdReadWriteStart i && (s.cmdReadWriteIncorrectHeadAtStart i || s.cmdReadWriteIncorrectSectorAtStart i)) ||
      (s.cmdWriteNormalStart i && s.cmdWriteAndWriteprotectedAtStart i) || s.checkTcFinish ||
      (s.cmdFormatTrackStart i && s.cmdFormatWriteprotectedAtStart i) || s.formatInputFinish || s.delayLastCycle ||
      s.cmdReadIdFinished)

/-! ### Location -/

def incrementOnlySector : Bool :=
  let d := s.selectedDrive i
  decide (s.sector d < s.eot d) && decide (s.sector d < s.mediaSectorsPerTrack d)

def incrementCylinder : Bool :=
  !s.incrementOnlySector i && (!s.cmdReadWriteMultitrack || s.head (s.selectedDrive i))

def resetChangeline : Bool :=
  let d := s.selectedDrive i
  s.cmdReadWriteOkAtStart i || (s.state == .updateSector && s.incrementCylinder i) ||
    (s.cmdRecalibrateStart i && s.cylinder d != 0) || (s.cmdSeekStart i && s.cylinder d != i.ioWritedata) ||
    (s.oldMotorEnable d && !s.motorEnable d)

/-! ### Data -/

def fifoFull : Bool := s.fifo.usedw.getLsbD 9

def ndmaRead : Bool := i.reads 5 && s.executeNdma && s.cmdReadNormalInProgress

def ndmaWrite : Bool := i.writes 5 && s.executeNdma && (s.cmdWriteNormalInProgress || s.cmdFormatInProgress)

def fifoPcWr : Bool :=
  (s.ndmaWrite i || (!s.executeNdma && i.dmaAck) || (!s.executeNdma && s.dmaHasTerminated)) && !s.fifoFull

def fifoPcRd : Bool := s.ndmaRead i || (!s.executeNdma && i.dmaAck)

/-- The byte an I/O read returns. -/
def ioReaddataPrepare : BitVec 8 :=
  if i.ioAddress == 2 then
    0#2 ++ BitVec.ofBool (s.motorEnable true) ++ BitVec.ofBool (s.motorEnable false) ++ BitVec.ofBool s.dmaIrqEnable ++
      BitVec.ofBool s.enable ++ 0#1 ++ BitVec.ofBool (s.selectedDrive i)
  else if i.ioAddress == 4 then
    BitVec.ofBool s.dataregReady ++ BitVec.ofBool s.transferToCpu ++ BitVec.ofBool s.executeNdma ++
      BitVec.ofBool s.busy ++ s.inSeekMode
  else if s.ndmaRead i then s.fifo.q
  else if i.ioAddress == 5 then s.reply.extractLsb' 0 8
  else if i.ioAddress == 7 then BitVec.ofBool (s.change (s.selectedDrive i)) ++ 0x7F#7
  else 0

def dmaReq : Bool :=
  !s.executeNdma && !s.dmaHasTerminated && s.dmaIrqEnable && !i.dmaAck &&
    ((s.cmdReadNormalInProgress && !s.fifo.empty && s.state == .waitForEmptyReadFifo) ||
      (s.cmdWriteNormalInProgress && !s.fifoFull && s.state == .waitForFullWriteFifo) ||
      (s.cmdFormatInProgress && decide (s.formatDataCount < 4) && s.state == .waitForFormatInput))

/-! ## The registers of the next clock -/

def dataregReadyNext : Bool :=
  if !i.rstN || s.swReset i then true
  else if s.cmdReadWriteOkAtStart i then false
  else if s.cmdReadIdOkAtStart i then false
  else if s.cmdFormatOkAtStart i then false
  else if s.executeNdma && s.state == .waitForEmptyReadFifo && s.ndmaRead i then false
  else if s.executeNdma && s.state == .waitForEmptyReadFifo && !s.fifo.empty then true
  else if s.executeNdma && s.state == .waitForFullWriteFifo && s.ndmaWrite i then false
  else if s.executeNdma && s.state == .waitForFullWriteFifo then !s.fifoFull
  else if s.executeNdma && s.state == .waitForFormatInput && s.ndmaWrite i then false
  else if s.executeNdma && s.state == .waitForFormatInput then decide (s.formatDataCount < 4)
  else if s.enterResultPhase i then true
  else s.dataregReady

def executeNdmaNext : Bool :=
  if !i.rstN then false
  else if s.cmdReadWriteOkAtStart i && s.ndma then true
  else if s.cmdFormatOkAtStart i && s.ndma then true
  else if s.enterResultPhase i then false
  else s.executeNdma

def ndmaIrqToNext : BitVec 3 :=
  if s.ndmaRead i || s.ndmaWrite i || !s.executeNdma then 0
  else if s.ndmaIrqTo != 7 then s.ndmaIrqTo + 1
  else s.ndmaIrqTo

def ndmaIrqNext : Bool :=
  if !i.rstN || s.swReset i then false
  else if !s.executeNdma then false
  else if s.state == .waitForEmptyReadFifo && s.ndmaRead i then false
  else if s.state == .waitForEmptyReadFifo && !s.fifo.empty && s.ndmaIrqTo == 7 then true
  else if s.state == .waitForFullWriteFifo && s.ndmaWrite i then false
  else if s.state == .waitForFullWriteFifo && !s.fifoFull && s.ndmaIrqTo == 7 then true
  else if s.state == .waitForFormatInput && s.ndmaWrite i then false
  else if s.state == .waitForFormatInput && decide (s.formatDataCount < 4) && s.ndmaIrqTo == 7 then true
  else s.ndmaIrq

def transferToCpuNext : Bool :=
  if !i.rstN || s.swReset i then false
  else if s.commandFirst i && !s.enterResultPhase i then false
  else if s.executeNdma && s.state == .waitForEmptyReadFifo then true
  else if s.enterResultPhase i then true
  else if i.reads 5 && s.replyLeft == 1 then false
  else s.transferToCpu

def busyNext : Bool :=
  if !i.rstN || s.swReset i then false
  else if s.commandFirst i then true
  else if s.cmdRecalibrateStart i then false
  else if s.cmdSeekStart i then false
  else if s.cmdSpecifyStart i then false
  else if s.cmdConfigureModeStart i then false
  else if s.cmdPerpendicularModeStart i then false
  else if s.enterResultPhase i then true
  else if i.reads 5 && s.replyLeft == 1 then false
  else s.busy

def changeNext : Bool → Bool := fun d =>
  if !i.rstN then true
  else if !s.mediaPresent d then true
  else if s.resetChangeline i && s.selectedDrive i == d && s.mediaPresent d then false
  else s.change d

/-- `4'b0001 << drive` -/
def seekBit (drive : Bool) : BitVec 4 := if drive then 2 else 1

def inSeekModeNext : BitVec 4 :=
  if !i.rstN || s.swReset i then 0
  else if s.cmdRecalibrateStart i then seekBit (i.ioWritedata.getLsbD 0)
  else if s.cmdSeekStart i then seekBit (s.command.getLsbD 0)
  else s.inSeekMode

def commandRegNext : BitVec 72 :=
  if !i.rstN then 0
  else if s.commandFirst i then BitVec.setWidth 72 i.ioWritedata
  else if s.commandNext i then s.command.extractLsb' 0 64 ++ i.ioWritedata
  else s.command

def commandSizeNext : BitVec 4 :=
  if !i.rstN then 0
  else if s.commandFirst i && i.commandAtFirst != 0 then i.commandAtFirst
  else s.commandSize

def commandLeftNext : BitVec 4 :=
  if !i.rstN then 0
  else if s.commandFirst i && i.commandAtFirst != 0 then i.commandAtFirst
  else if s.commandNext i then s.commandLeft - 1
  else s.commandLeft

def pendingCommandNext : BitVec 8 :=
  if !i.rstN || s.swReset i then 0
  else if s.cmdReadWriteOkAtStart i then s.command.extractLsb' 56 8
  else if s.cmdReadIdOkAtStart i then 0x0A
  else if s.cmdFormatOkAtStart i then s.command.extractLsb' 32 8
  else if s.cmdRecalibrateStart i then 0x07
  else if s.enterResultPhase i then 0
  else s.pendingCommand

def irqNext : Bool :=
  if !i.rstN || s.swReset i then false
  else if !s.oldEnable && s.enable then true
  else if s.ndmaWrite i || s.ndmaRead i then false
  else if s.ndmaIrq || s.raiseInterrupt i then true
  else if i.reads 5 && !s.ndmaRead i then false
  else s.irq

def resetSenseiNext : BitVec 3 :=
  if !i.rstN then 0
  else if s.swReset i then 4
  else if s.raiseInterrupt i then 0
  else if s.cmdSenseInterruptStatusStart i && s.resetSensei != 0 then s.resetSensei - 1
  else s.resetSensei

def resetSenseiDrive : BitVec 2 :=
  if s.resetSensei == 4 then 0 else if s.resetSensei == 3 then 1 else if s.resetSensei == 2 then 2 else 3

def pendingInterruptNext : Bool :=
  if !i.rstN then false else if s.raiseInterrupt i then true else if !s.irq then false else s.pendingInterrupt

/-! ### Recalibrate and seek -/

def delayStepsNext : BitVec 8 :=
  let c := s.cylinder (s.selectedDrive i)
  if !i.rstN then 0
  else if s.cmdRecalibrateStart i then if c == 0 then 0 else c - 1
  else if s.cmdSeekStart i then
    if c == i.ioWritedata then 0
    else if i.ioWritedata < c then c - i.ioWritedata - 1
    else i.ioWritedata - c - 1
  else if s.delayRate == 0 && s.delaySrt == 0 && s.delaySteps != 0 then s.delaySteps - 1
  else s.delaySteps

def delaySrtNext : BitVec 4 :=
  if !i.rstN then 0
  else if s.cmdRecalibrateStart i then s.specifySrt
  else if s.cmdSeekStart i then s.specifySrt
  else if s.delayRate == 0 && s.delaySrt != 0 then s.delaySrt - 1
  else if s.delayRate == 0 && s.delaySteps != 0 then s.specifySrt
  else s.delaySrt

def delayAdder : BitVec 28 :=
  if s.dataRate == 0 then 1000 else if s.dataRate == 1 then 600 else if s.dataRate == 2 then 500 else 2000

def delayAdderRNext : BitVec 28 :=
  if s.cmdRecalibrateStart i then s.delayAdder
  else if s.cmdSeekStart i then s.delayAdder
  else if s.delaySrt != 0 || s.delaySteps != 0 then s.delayAdder
  else s.delayAdderR

def delayRateNext : BitVec 28 :=
  if !i.rstN then 0
  else if s.cmdRecalibrateStart i then s.delayAdder
  else if s.cmdSeekStart i then s.delayAdder
  else if s.clkRate ≤ s.delayRate then 1
  else if s.delayRate == 1 then 0
  else if s.delayRate != 0 then s.delayRate + s.delayAdderR
  else if s.delaySrt != 0 || s.delaySteps != 0 then s.delayAdder
  else s.delayRate

def statusReg0TempNext : BitVec 8 :=
  if !i.rstN then 0
  else if s.pendingInterrupt && !s.pendingInterruptLast then s.reply.extractLsb' 0 8
  else if s.cmdSenseInterruptStatusStart i && s.resetSensei != 0 then 0xC#4 ++ 0#2 ++ s.resetSenseiDrive
  else s.statusReg0Temp

/-! ### Format -/

def formatDataNext : BitVec 32 :=
  if !i.rstN then 0
  else if s.ndmaWrite i && decide (s.formatDataCount < 4) then s.formatData.extractLsb' 0 24 ++ i.ioWritedata
  else if i.dmaAck && decide (s.formatDataCount < 4) then s.formatData.extractLsb' 0 24 ++ i.dmaReaddata
  else s.formatData

def formatDataCountNext : BitVec 3 :=
  if !i.rstN then 0
  else if s.state != .waitForFormatInput then 0
  else if (s.ndmaWrite i || i.dmaAck) && decide (s.formatDataCount < 4) then s.formatDataCount + 1
  else s.formatDataCount

def formatSectorCountNext : BitVec 8 :=
  if !i.rstN then 0
  else if s.cmdFormatOkAtStart i then s.command.extractLsb' 8 8
  else if s.state == .sdFormatWaitForFill && s.formatCounter == 511 && i.fifoRead then s.formatSectorCount - 1
  else s.formatSectorCount

/-! ### Results -/

def replyLeftNext : BitVec 4 :=
  if !i.rstN || s.swReset i then 0
  else if s.cmdInvalidStart i then 1
  else if s.cmdReadWriteStart i && s.cmdReadWriteIncorrectHeadAtStart i then 7
  else if s.cmdReadWriteStart i && s.cmdReadWriteIncorrectSectorAtStart i then 7
  else if s.cmdWriteNormalStart i && s.cmdWriteAndWriteprotectedAtStart i then 7
  else if s.cmdFormatTrackStart i && s.cmdFormatWriteprotectedAtStart i then 7
  else if s.checkTcFinish then 7
  else if s.formatInputFinish then 7
  else if s.cmdReadIdFinished then 7
  else if s.cmdGetStatusStart i then 1
  else if s.cmdSenseInterruptStatusStart i then 2
  else if s.cmdDumpRegistersStart i then 10
  else if s.cmdVersionStart i then 1
  else if s.cmdUnlockStart i || s.cmdLockStart i then 1
  else if i.reads 5 && s.replyLeft != 0 then s.replyLeft - 1
  else s.replyLeft

/-- The seven bytes of a read, write, format or read-ID result. -/
def result7 (sector : BitVec 8) (head : Bool) (cylinder st2 st1 st0 : BitVec 8) : BitVec 80 :=
  0#24 ++ 2#8 ++ sector ++ 0#7 ++ BitVec.ofBool head ++ cylinder ++ st2 ++ st1 ++
    (st0 ||| (0#5 ++ BitVec.ofBool head ++ 0#2) ||| s.driveByte i)

def replyNext : BitVec 80 :=
  let d := s.selectedDrive i
  let keep (b : BitVec 8) : BitVec 80 := s.reply.extractLsb' 8 72 ++ b
  let headBit : BitVec 8 := 0#5 ++ BitVec.ofBool (s.head d) ++ 0#2
  if !i.rstN || s.swReset i then 0
  else if s.cmdInvalidStart i then keep 0x80
  else if s.delayLastCycle && s.cmdRecalibrateInProgress then
    keep (0x20 ||| s.driveByte i ||| (if !s.motorEnable d then 0x50 else 0))
  else if s.delayLastCycle then keep (0x20 ||| (headBit ||| s.driveByte i))
  else if s.cmdReadWriteStart i && s.cmdReadWriteIncorrectHeadAtStart i then
    s.result7 i (s.sector d) (s.head d) (s.cylinder d) 0x00 0x04 0x40
  else if s.cmdReadWriteStart i && s.cmdReadWriteIncorrectSectorAtStart i then
    s.result7 i (s.command.extractLsb' 24 8) (s.command.getLsbD 32) (s.command.extractLsb' 40 8) 0x00 0x04 0x40
  else if s.cmdWriteNormalStart i && s.cmdWriteAndWriteprotectedAtStart i then
    s.result7 i (s.command.extractLsb' 24 8) (s.command.getLsbD 32) (s.command.extractLsb' 40 8) 0x31 0x27 0x40
  else if s.cmdFormatTrackStart i && s.cmdFormatWriteprotectedAtStart i then
    s.result7 i (s.sector d) (s.command.getLsbD 26) (s.cylinder d) 0x31 0x27 0x40
  else if s.state == .checkTc && s.cmdReadWriteFinish then
    s.result7 i (s.sector d) (s.head d) (s.cylinder d) 0x00 0x00 0x00
  else if s.state == .checkTc && s.cmdFormatFinish then
    s.result7 i (s.sector d) (s.head d) (s.cylinder d) 0x00 0x00 0x00
  else if s.formatInputFinish then s.result7 i (s.sector d) (s.head d) (s.cylinder d) 0x00 0x00 0x40
  else if s.cmdReadIdFinished then s.result7 i (s.sector d) (s.head d) (s.cylinder d) 0x00 0x00 0x00
  else if s.cmdGetStatusStart i then
    0#72 ++ 0#1 ++ BitVec.ofBool (s.mediaWriteprotected i (i.ioWritedata.getLsbD 0)) ++ 1#1 ++
      BitVec.ofBool (s.cylinder (i.ioWritedata.getLsbD 0) == 0) ++ 1#1 ++ BitVec.ofBool (i.ioWritedata.getLsbD 2) ++
      0#1 ++ BitVec.ofBool (i.ioWritedata.getLsbD 0)
  else if s.cmdSenseInterruptStatusStart i && s.resetSensei != 0 then
    0#64 ++ s.cylinder d ++ 0xC#4 ++ 0#2 ++ s.resetSenseiDrive
  else if s.cmdSenseInterruptStatusStart i && s.pendingInterrupt then 0#64 ++ s.cylinder d ++ s.statusReg0Temp
  else if s.cmdSenseInterruptStatusStart i && !s.pendingInterrupt then 0#64 ++ s.cylinder d ++ 0x80#8
  else if s.cmdDumpRegistersStart i then
    s.configPretrk ++ s.configConfig ++ BitVec.ofBool s.lock ++ s.perpMode.extractLsb' 0 7 ++ s.eot d ++
      s.specifyHlt ++ BitVec.ofBool s.ndma ++ s.specifySrt ++ s.specifyHut ++ 0#8 ++ 0#8 ++ 0#8 ++ s.cylinder d
  else if s.cmdVersionStart i then 0#72 ++ 0x90#8
  else if s.cmdUnlockStart i then 0
  else if s.cmdLockStart i then 0#72 ++ 0x10#8
  else if i.reads 5 then 0#8 ++ s.reply.extractLsb' 8 72
  else s.reply

/-! ### The transfer -/

def stateNext : FloppyState :=
  if !i.rstN then .idle
  else if s.state == .idle && s.cmdReadWriteOkAtStart i then .prepareCount
  else if s.state == .countLogical && s.multB == 0 && s.cmdReadNormalInProgress then .prepare
  else if s.state == .sdControl && s.cmdReadNormalInProgress then .sdReadWaitForData
  else if s.state == .sdReadWaitForData && s.fifoFull then .waitForEmptyReadFifo
  else if s.state == .waitForEmptyReadFifo && s.fifo.empty then .updateSector
  else if s.state == .countLogical && s.multB == 0 && s.cmdWriteNormalInProgress then .waitForFullWriteFifo
  else if s.state == .waitForFullWriteFifo && s.fifoFull then .prepare
  else if s.state == .sdControl && s.cmdWriteNormalInProgress then .sdWriteWaitForEmptyFifo
  else if s.state == .sdWriteWaitForEmptyFifo && s.fifo.empty then .updateSector
  else if s.state == .idle && s.cmdFormatOkAtStart i then .waitForFormatInput
  else if s.formatInputFinish then .idle
  else if s.state == .waitForFormatInput && s.formatDataCount == 4 then .prepareCount
  else if s.state == .countLogical && s.multB == 0 && s.cmdFormatInProgress then .prepare
  else if s.state == .sdControl && s.cmdFormatInProgress then .sdFormatWaitForFill
  else if s.state == .sdFormatWaitForFill && s.formatCounter == 511 && i.fifoRead then .wait
  else if s.state == .idle && s.cmdReadIdOkAtStart i then .wait
  else if s.cmdReadIdFinished then .idle
  else if s.state == .prepareCount then .countLogical
  else if s.state == .prepare then .sdControl
  else if s.state == .updateSector then .wait
  else if s.state == .wait && s.commandWaitCounter == 0 && !s.cmdReadIdInProgress then .checkTc
  else if s.checkTcFinish then .idle
  else if s.state == .checkTc && s.cmdFormatInProgress then .waitForFormatInput
  else if s.state == .checkTc then .prepareCount
  else s.state

def commandWaitCounterNext : BitVec 16 :=
  if !i.rstN then 0
  else if s.state != .wait then 4000
  else if s.commandWaitCounter != 0 then s.commandWaitCounter - 1
  else s.commandWaitCounter

def multANext : BitVec 16 :=
  let spt := s.mediaSectorsPerTrack (s.selectedDrive i)
  if !i.rstN then 0
  else if s.state == .prepareCount then
    if s.mediaHeads (s.selectedDrive i) == 2 then 0#7 ++ spt ++ 0#1 else 0#8 ++ spt
  else if s.state == .countLogical then s.multA.extractLsb' 0 15 ++ 0#1
  else s.multA

def multBNext : BitVec 8 :=
  if !i.rstN then 0
  else if s.state == .prepareCount then s.cylinder (s.selectedDrive i)
  else if s.state == .countLogical then 0#1 ++ s.multB.extractLsb' 1 7
  else s.multB

def logicalSectorNext : BitVec 16 :=
  let d := s.selectedDrive i
  if !i.rstN then 0
  else if s.state == .prepareCount then
    (if s.head d then 0#8 ++ s.mediaSectorsPerTrack d else 0) + (0#8 ++ s.sector d) - 1
  else if s.state == .countLogical && s.multB.getLsbD 0 then s.logicalSector + s.multA
  else s.logicalSector

def cylinderNext : Bool → BitVec 8 :=
  let d := s.selectedDrive i
  if !i.rstN || s.swReset i then fun _ => 0
  else if s.cmdReadWriteStart i && (s.cmdReadWriteIncorrectSectorAtStart i || s.cmdWriteAndWriteprotectedAtStart i) then
    setDrive s.cylinder d (s.command.extractLsb' 40 8)
  else if s.cmdReadWriteOkAtStart i then setDrive s.cylinder d (s.command.extractLsb' 40 8)
  else if s.cmdRecalibrateStart i then setDrive s.cylinder d 0
  else if s.cmdSeekStart i then setDrive s.cylinder d i.ioWritedata
  else if s.state == .updateSector && s.incrementCylinder i then
    setDrive s.cylinder d (if s.mediaCylinders d ≤ s.cylinder d then s.mediaCylinders d - 1 else s.cylinder d + 1)
  else if s.state == .waitForFormatInput && s.formatDataCount == 4 then
    setDrive s.cylinder d (s.formatData.extractLsb' 24 8)
  else s.cylinder

def headNext : Bool → Bool :=
  let d := s.selectedDrive i
  if !i.rstN || s.swReset i then fun _ => false
  else if s.cmdReadWriteStart i && (s.cmdReadWriteIncorrectSectorAtStart i || s.cmdWriteAndWriteprotectedAtStart i) then
    setDrive s.head d (s.command.getLsbD 32)
  else if s.cmdFormatTrackStart i && s.cmdFormatWriteprotectedAtStart i then setDrive s.head d (s.command.getLsbD 26)
  else if s.cmdReadWriteOkAtStart i then setDrive s.head d (s.command.getLsbD 32)
  else if s.cmdFormatOkAtStart i then setDrive s.head d (s.command.getLsbD 26)
  else if s.cmdGetStatusStart i then setDrive s.head d (i.ioWritedata.getLsbD 2)
  else if s.cmdSeekStart i then setDrive s.head d (s.command.getLsbD 2)
  else if s.cmdReadIdStart i then setDrive s.head d (i.ioWritedata.getLsbD 2)
  else if s.state == .updateSector && !s.incrementOnlySector i && s.cmdReadWriteMultitrack then
    setDrive s.head d (!s.head d)
  else s.head

def sectorNext : Bool → BitVec 8 :=
  let d := s.selectedDrive i
  if !i.rstN || s.swReset i then fun _ => 1
  else if s.cmdReadWriteStart i && (s.cmdReadWriteIncorrectSectorAtStart i || s.cmdWriteAndWriteprotectedAtStart i) then
    setDrive s.sector d (s.command.extractLsb' 24 8)
  else if s.cmdReadWriteOkAtStart i then setDrive s.sector d (s.command.extractLsb' 24 8)
  else if s.state == .updateSector && s.incrementOnlySector i then setDrive s.sector d (s.sector d + 1)
  else if s.state == .updateSector && !s.incrementOnlySector i then setDrive s.sector d 1
  else if s.state == .waitForFormatInput && s.formatDataCount == 4 then
    setDrive s.sector d (s.formatData.extractLsb' 8 8)
  else s.sector

def eotNext : Bool → BitVec 8 :=
  let d := s.selectedDrive i
  if !i.rstN || s.swReset i then fun _ => 0
  else if s.cmdReadWriteOkAtStart i then
    setDrive s.eot d (if s.command.extractLsb' 8 8 == 0 then s.mediaSectorsPerTrack d else s.command.extractLsb' 8 8)
  else s.eot

def wasNdmaTerminalNext : Bool :=
  let d := s.selectedDrive i
  if !i.rstN then false
  else if s.state == .updateSector && s.sector d == s.eot d &&
      (0#1 ++ BitVec.ofBool (s.head d)) == s.mediaHeads d - 1 then true
  else if s.state == .updateSector then false
  else s.cmdReadWriteWasNdmaTerminal

def sdSectorNext : BitVec 16 :=
  let count := s.mediaSectorCount (s.selectedDrive i)
  if !i.rstN then 0
  else if s.state == .prepare then if count ≤ s.logicalSector then count - 1 else s.logicalSector
  else s.sdSector

def fifoNext : Fifo :=
  let fromPc := s.state == .waitForFullWriteFifo
  let toPc := s.state == .waitForEmptyReadFifo
  s.fifo.step (!i.rstN || s.state == .idle) (if toPc then s.fifoPcRd i else i.fifoRead)
    (if fromPc then s.fifoPcWr i else i.fifoWrite)
    (if fromPc then if s.executeNdma then i.ioWritedata else if s.dmaHasTerminated then 0 else i.dmaReaddata
    else i.mgmtWritedata.extractLsb' 0 8)

/-- The management port sets `x` of a drive at `address`. -/
def mgmtSet {α : Type} (address : BitVec 4) (x : Bool → α) (v : α) : Bool → α :=
  if i.mgmtWrite && i.mgmtAddress == address then setDrive x i.mgmtFddn v else x

def step : Floppy where
  clkRate := i.clockRate
  mediaPresent := mgmtSet i 0 s.mediaPresent (i.mgmtWritedata.getLsbD 0)
  wpSys := mgmtSet i 1 s.wpSys (i.mgmtWritedata.getLsbD 0)
  mediaCylinders := mgmtSet i 2 s.mediaCylinders (i.mgmtWritedata.extractLsb' 0 8)
  mediaSectorsPerTrack := mgmtSet i 3 s.mediaSectorsPerTrack (i.mgmtWritedata.extractLsb' 0 8)
  mediaSectorCount := mgmtSet i 4 s.mediaSectorCount i.mgmtWritedata
  mediaHeads := mgmtSet i 5 s.mediaHeads (i.mgmtWritedata.extractLsb' 0 2)
  ioReaddata := s.ioReaddataPrepare i
  selectedDriveR := s.selectedDrive i
  motorEnable := fun d =>
    if !i.rstN then false
    else if i.writes 2 then if d then i.ioWritedata.getLsbD 5 else i.ioWritedata.getLsbD 4
    else s.motorEnable d
  oldMotorEnable := s.motorEnable
  dmaIrqEnable := if !i.rstN then true else if i.writes 2 then i.ioWritedata.getLsbD 3 else s.dmaIrqEnable
  enable := if !i.rstN then true else if i.writes 2 then i.ioWritedata.getLsbD 2 else s.enable
  dataRate :=
    if !i.rstN then 2 else if i.writes 4 || i.writes 7 then i.ioWritedata.extractLsb' 0 2 else s.dataRate
  dataregReady := s.dataregReadyNext i
  executeNdma := s.executeNdmaNext i
  ndmaIrqTo := s.ndmaIrqToNext i
  ndmaIrq := s.ndmaIrqNext i
  transferToCpu := s.transferToCpuNext i
  busy := s.busyNext i
  change := s.changeNext i
  inSeekMode := s.inSeekModeNext i
  command := s.commandRegNext i
  commandSize := s.commandSizeNext i
  commandLeft := s.commandLeftNext i
  pendingCommand := s.pendingCommandNext i
  cmdReadWriteMultitrack :=
    if !i.rstN then false else if s.cmdReadWriteOkAtStart i then s.command.getLsbD 63 else s.cmdReadWriteMultitrack
  cmdReadWriteWasNdmaTerminal := s.wasNdmaTerminalNext i
  specifySrt := if !i.rstN then 0 else if s.cmdSpecifyStart i then s.command.extractLsb' 4 4 else s.specifySrt
  specifyHut := if !i.rstN then 0 else if s.cmdSpecifyStart i then s.command.extractLsb' 0 4 else s.specifyHut
  specifyHlt := if !i.rstN then 0 else if s.cmdSpecifyStart i then i.ioWritedata.extractLsb' 1 7 else s.specifyHlt
  ndma := if !i.rstN then false else if s.cmdSpecifyStart i then i.ioWritedata.getLsbD 0 else s.ndma
  oldEnable := s.enable
  irq := s.irqNext i
  resetSensei := s.resetSenseiNext i
  pendingInterrupt := s.pendingInterruptNext i
  pendingInterruptLast := s.pendingInterrupt
  delaySteps := s.delayStepsNext i
  delaySrt := s.delaySrtNext i
  delayAdderR := s.delayAdderRNext i
  delayRate := s.delayRateNext i
  statusReg0Temp := s.statusReg0TempNext i
  configConfig :=
    if !i.rstN then 0x20 else if s.cmdConfigureModeStart i then s.command.extractLsb' 0 8 else s.configConfig
  configPretrk := if !i.rstN then 0 else if s.cmdConfigureModeStart i then i.ioWritedata else s.configPretrk
  perpMode := if !i.rstN then 0 else if s.cmdPerpendicularModeStart i then i.ioWritedata else s.perpMode
  lock := if !i.rstN then false else if s.cmdUnlockStart i then false else if s.cmdLockStart i then true else s.lock
  formatData := s.formatDataNext i
  formatDataCount := s.formatDataCountNext i
  formatFillerByte :=
    if !i.rstN then 0 else if s.cmdFormatOkAtStart i then i.ioWritedata else s.formatFillerByte
  formatSectorCount := s.formatSectorCountNext i
  replyLeft := s.replyLeftNext i
  reply := s.replyNext i
  state := s.stateNext i
  commandWaitCounter := s.commandWaitCounterNext i
  multA := s.multANext i
  multB := s.multBNext i
  logicalSector := s.logicalSectorNext i
  cylinder := s.cylinderNext i
  head := s.headNext i
  sector := s.sectorNext i
  eot := s.eotNext i
  formatCounter := if s.state == .idle then 0 else if i.fifoRead then s.formatCounter + 1 else s.formatCounter
  sdSector := s.sdSectorNext i
  dmaHasTerminated :=
    if !i.rstN then false else if s.state == .idle then false else if i.dmaTc then true else s.dmaHasTerminated
  fifoReaddata := if !i.rstN then 0 else if s.cmdFormatInProgress then s.formatFillerByte else s.fifo.q
  fifo := s.fifoNext i

end Floppy

end Z486.Disk
