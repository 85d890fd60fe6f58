/-
The PS/2 controller (src/soc/ps2.v): the registers and commands of an 8042 over the serial ports of a keyboard and of a
mouse, with a queue for the bytes of each of them.
-/
import Z486.Common.SimpleFifo
import Z486.Ps2.Port

namespace Z486.Ps2

open Common (SimpleFifo)

/-! ## Registers and ports -/

structure Controller where
  irqKeyb : Bool
  irqMouse : Bool
  ioReaddata : BitVec 8
  outputA20Enable : Bool
  outputResetN : Bool
  ioReadLast : Bool
  statusKeyboardparityerror : Bool
  statusTimeout : Bool
  statusLastcommand : Bool
  translate : Bool
  disableMouse : Bool
  disableMouseVisible : Bool
  disableKeyboard : Bool
  statusSystem : Bool
  allowIrqMouse : Bool
  allowIrqKeyb : Bool
  statusMousebufferfull : Bool
  statusOutputbufferfull : Bool
  expectingPort60h : Bool
  lastCommand : BitVec 8
  keybReply : BitVec 8
  keybReplyValid : Bool
  mouseReply : BitVec 8
  mouseReplyValid : Bool
  statusInputbufferfull : Bool
  inputWriteDone : Bool
  inputForMouse : Bool
  inputbuffer : BitVec 8
  keyb : Port
  keybTranslateEscape : Bool
  trans : BitVec 8
  keybFifoQLast : BitVec 8
  keybFifo : SimpleFifo 6 (BitVec 8)
  mouse : Port
  mouseFifo : SimpleFifo 6 (BitVec 8)

/-- The inputs of a clock. -/
structure ControllerIn where
  rstN : Bool
  ioAddress : BitVec 4
  ioRead : Bool
  ioWrite : Bool
  ioWritedata : BitVec 8
  ioCs : Bool
  ctlCs : Bool
  ps2Kbclk : Bool
  ps2Kbdat : Bool
  ps2Mouseclk : Bool
  ps2Mousedat : Bool
deriving DecidableEq, Repr

/-- The codes of scan code set 1 for the first 144 codes of set 2. -/
def transTable : List (BitVec 8) :=
  [0xFF, 0x43, 0x41, 0x3F, 0x3D, 0x3B, 0x3C, 0x58, 0x64, 0x44, 0x42, 0x40, 0x3E, 0x0F, 0x29, 0x59,
   0x65, 0x38, 0x2A, 0x70, 0x1D, 0x10, 0x02, 0x5A, 0x66, 0x71, 0x2C, 0x1F, 0x1E, 0x11, 0x03, 0x5B,
   0x67, 0x2E, 0x2D, 0x20, 0x12, 0x05, 0x04, 0x5C, 0x68, 0x39, 0x2F, 0x21, 0x14, 0x13, 0x06, 0x5D,
   0x69, 0x31, 0x30, 0x23, 0x22, 0x15, 0x07, 0x5E, 0x6A, 0x72, 0x32, 0x24, 0x16, 0x08, 0x09, 0x5F,
   0x6B, 0x33, 0x25, 0x17, 0x18, 0x0B, 0x0A, 0x60, 0x6C, 0x34, 0x35, 0x26, 0x27, 0x19, 0x0C, 0x61,
   0x6D, 0x73, 0x28, 0x74, 0x1A, 0x0D, 0x62, 0x6E, 0x3A, 0x36, 0x1C, 0x1B, 0x75, 0x2B, 0x63, 0x76,
   0x55, 0x56, 0x77, 0x78, 0x79, 0x7A, 0x0E, 0x7B, 0x7C, 0x4F, 0x7D, 0x4B, 0x47, 0x7E, 0x7F, 0x6F,
   0x52, 0x53, 0x50, 0x4C, 0x4D, 0x48, 0x01, 0x45, 0x57, 0x4E, 0x51, 0x4A, 0x37, 0x49, 0x46, 0x54,
   0x80, 0x81, 0x82, 0x41, 0x54, 0x85, 0x86, 0x87, 0x88, 0x89, 0x8A, 0x8B, 0x8C, 0x8D, 0x8E, 0x8F]

namespace Controller

variable (s : Controller) (i : ControllerIn)

/-! ## Accesses and commands -/

def ioMRead : Bool := i.ioRead && i.ioCs
def ioMWrite : Bool := i.ioWrite && i.ioCs
def sysctlWrite : Bool := i.ioWrite && i.ctlCs

def ioReadValid : Bool := ioMRead i && !s.ioReadLast

/-- The guest reads port 60h, or port 64h. -/
def reads60 : Bool := s.ioReadValid i && i.ioAddress.extractLsb' 0 3 == 0
def reads64 : Bool := s.ioReadValid i && i.ioAddress.extractLsb' 0 3 == 4

/-- The guest writes port 60h, or port 64h. -/
def writes60 : Bool := ioMWrite i && i.ioAddress.extractLsb' 0 3 == 0
def writes64 : Bool := ioMWrite i && i.ioAddress.extractLsb' 0 3 == 4

def cmdWithParamFirstByte : Bool :=
  writes64 i && (i.ioWritedata == 0x60 || i.ioWritedata == 0xCB || i.ioWritedata == 0xD1 || i.ioWritedata == 0xD3 ||
    i.ioWritedata == 0xD4 || i.ioWritedata == 0xD2)

def cmdWithParam : Bool := writes60 i && s.expectingPort60h && !s.statusInputbufferfull
def cmdWithoutParam : Bool := writes64 i && !cmdWithParamFirstByte i

/-- The parameter of the command `c` is written. -/
def param (c : BitVec 8) : Bool := s.cmdWithParam i && s.lastCommand == c

/-- The command `c` is written, which has no parameter. -/
def command (c : BitVec 8) : Bool := cmdWithoutParam i && i.ioWritedata == c

def cmdWriteCommandByte : Bool := s.param i 0x60
def cmdWriteOutputPort : Bool := s.param i 0xD1
def cmdWriteToKeybOutput : Bool := s.param i 0xD2
def cmdWriteToMouseOutput : Bool := s.param i 0xD3
def cmdWriteToMouse : Bool := s.param i 0xD4

def cmdReadCommandByte : Bool := command i 0x20
def cmdDisableMouse : Bool := command i 0xA7
def cmdEnableMouse : Bool := command i 0xA8
def cmdTestMousePort : Bool := command i 0xA9
def cmdSelfTest : Bool := command i 0xAA
def cmdInterfaceTest : Bool := command i 0xAB
def cmdDisableKeyb : Bool := command i 0xAD
def cmdEnableKeyb : Bool := command i 0xAE
def cmdReadInputPort : Bool := command i 0xC0
def cmdReadControllerMode : Bool := command i 0xCA
def cmdReadOutputPort : Bool := command i 0xD0
def cmdDisableA20 : Bool := command i 0xDD
def cmdEnableA20 : Bool := command i 0xDF
def cmdReset : Bool := command i 0xFE

def commandByte : BitVec 8 :=
  0#1 ++ BitVec.ofBool s.translate ++ BitVec.ofBool s.disableMouseVisible ++ BitVec.ofBool s.disableKeyboard ++ 0#1 ++
    BitVec.ofBool s.statusSystem ++ BitVec.ofBool s.allowIrqMouse ++ BitVec.ofBool s.allowIrqKeyb

def outputPort : BitVec 8 :=
  0#2 ++ BitVec.ofBool s.irqMouse ++ BitVec.ofBool s.irqKeyb ++ 0#2 ++ BitVec.ofBool s.outputA20Enable ++ 1#1

def writeToKeyb : Bool := writes60 i && !s.expectingPort60h && !s.statusInputbufferfull
def writeToMouse : Bool := s.cmdWriteToMouse i

/-- A byte for a device is accepted. -/
def accepts : Bool := s.writeToKeyb i || s.writeToMouse i

/-! ## Reads -/

/-- The queue of the keyboard keeps its last byte in front when it is empty. -/
def keybFifoQFinal : BitVec 8 := if s.keybFifo.empty then s.keybFifoQLast else s.keybFifo.q

def statusByte : BitVec 8 :=
  BitVec.ofBool s.statusKeyboardparityerror ++ BitVec.ofBool s.statusTimeout ++ BitVec.ofBool (!s.mouseFifo.empty) ++
    1#1 ++ BitVec.ofBool s.statusLastcommand ++ BitVec.ofBool s.statusSystem ++
    BitVec.ofBool s.statusInputbufferfull ++ BitVec.ofBool s.statusOutputbufferfull

def ioReaddataNext : BitVec 8 :=
  if s.reads64 i then s.statusByte
  else if s.statusMousebufferfull then s.mouseFifo.q
  else s.keybFifoQFinal

def sysctlReaddataNext : BitVec 8 :=
  if i.ioAddress == 2 then 0#6 ++ BitVec.ofBool s.outputA20Enable ++ 0#1 else 0xFF

def outputbufferIdle : Bool := !s.statusMousebufferfull && !s.statusOutputbufferfull

/-! ## Queues -/

/-- The number of bytes in a queue, as `{full, usedw}`. -/
def fifoCounter (f : SimpleFifo 6 (BitVec 8)) : BitVec 7 := BitVec.ofBool f.full ++ f.usedw

def keybReplyDone : Bool := s.keybReplyValid && decide (fifoCounter s.keybFifo < 60) && !s.keyb.recvFinal

def mouseReplyDone : Bool := s.mouseReplyValid && decide (fifoCounter s.mouseFifo < 60) && !s.mouse.recvFinal

def keybFifoWrreq : Bool := s.keybReplyDone || (s.keyb.recvFinal && (!s.translate || s.keyb.recvBuffer != 0xF0))

def keybFifoData : BitVec 8 :=
  if s.keybReplyDone then s.keybReply
  else if s.translate then (BitVec.ofBool s.keybTranslateEscape ++ 0#7) ||| s.trans
  else s.keyb.recvBuffer

def keybFifoRdreq : Bool := s.reads60 i && s.statusOutputbufferfull && !s.statusMousebufferfull

def mouseFifoWrreq : Bool := s.mouseReplyDone || s.mouse.recvFinal

def mouseFifoData : BitVec 8 := if s.mouseReplyDone then s.mouseReply else s.mouse.recvBuffer

def mouseFifoRdreq : Bool := s.reads60 i && s.statusMousebufferfull

/-! ## Serial ports -/

/-- A byte waits to be sent. -/
def pending : Bool := s.statusInputbufferfull && !s.inputWriteDone

def keybIn : PortIn where
  rstN := i.rstN
  clkLine := i.ps2Kbclk
  datLine := i.ps2Kbdat
  pending := s.pending && !s.inputForMouse
  inputbuffer0 := s.inputbuffer.getLsbD 0
  disabled := s.disableKeyboard
  nearlyFull := decide (fifoCounter s.keybFifo ≥ 60)

def mouseIn : PortIn where
  rstN := i.rstN
  clkLine := i.ps2Mouseclk
  datLine := i.ps2Mousedat
  pending := s.pending && s.inputForMouse
  inputbuffer0 := s.inputbuffer.getLsbD 0
  disabled := s.disableMouse
  nearlyFull := decide (fifoCounter s.mouseFifo ≥ 60)

/-! ## A clock -/

/-- The registers after a reset; the memories keep what they hold, and `io_readdata` has no reset. -/
def reset : Controller where
  irqKeyb := false
  irqMouse := false
  ioReaddata := if i.ioCs then s.ioReaddataNext i else s.sysctlReaddataNext i
  outputA20Enable := true
  outputResetN := true
  ioReadLast := false
  statusKeyboardparityerror := false
  statusTimeout := false
  statusLastcommand := true
  translate := true
  disableMouse := false
  disableMouseVisible := false
  disableKeyboard := false
  statusSystem := false
  allowIrqMouse := true
  allowIrqKeyb := true
  statusMousebufferfull := false
  statusOutputbufferfull := false
  expectingPort60h := false
  lastCommand := 0
  keybReply := 0
  keybReplyValid := false
  mouseReply := 0
  mouseReplyValid := false
  statusInputbufferfull := false
  inputWriteDone := false
  inputForMouse := false
  inputbuffer := 0
  keyb := Port.reset
  keybTranslateEscape := false
  trans := 0
  keybFifoQLast := 0
  keybFifo := s.keybFifo.step true (s.keybFifoRdreq i) s.keybFifoWrreq s.keybFifoData
  mouse := Port.reset
  mouseFifo := s.mouseFifo.step true (s.mouseFifoRdreq i) s.mouseFifoWrreq s.mouseFifoData

/-- The registers after a clock without a reset. -/
def running : Controller where
  irqKeyb :=
    if s.reads60 i && s.statusOutputbufferfull && !s.statusMousebufferfull then false
    else if s.allowIrqKeyb && s.statusOutputbufferfull && !s.statusMousebufferfull then true
    else s.irqKeyb
  irqMouse :=
    if s.reads60 i && s.statusMousebufferfull then false
    else if s.allowIrqMouse && s.statusMousebufferfull then true
    else s.irqMouse
  ioReaddata := if i.ioCs then s.ioReaddataNext i else s.sysctlReaddataNext i
  outputA20Enable :=
    if s.cmdWriteOutputPort i then i.ioWritedata.getLsbD 1
    else if cmdDisableA20 i then false
    else if cmdEnableA20 i then true
    else if sysctlWrite i && i.ioAddress == 2 then i.ioWritedata.getLsbD 1
    else s.outputA20Enable
  outputResetN :=
    if s.cmdWriteOutputPort i then i.ioWritedata.getLsbD 0
    else if cmdReset i then false
    else if sysctlWrite i && i.ioAddress == 2 then !i.ioWritedata.getLsbD 0
    else s.outputResetN
  ioReadLast := if s.ioReadLast then false else ioMRead i
  statusKeyboardparityerror :=
    if s.keyb.recvParityErr || s.mouse.recvParityErr then true
    else if s.reads64 i then false
    else s.statusKeyboardparityerror
  statusTimeout :=
    if s.keyb.timeoutReset || s.mouse.timeoutReset then true
    else if s.reads64 i then false
    else s.statusTimeout
  statusLastcommand := if writes60 i then false else if writes64 i then true else s.statusLastcommand
  translate := if s.cmdWriteCommandByte i then i.ioWritedata.getLsbD 6 else s.translate
  disableMouse :=
    if s.cmdWriteCommandByte i then i.ioWritedata.getLsbD 5
    else if cmdDisableMouse i then true
    else if cmdEnableMouse i then false
    else if s.writeToMouse i then false
    else s.disableMouse
  disableMouseVisible :=
    if s.cmdWriteCommandByte i then i.ioWritedata.getLsbD 5
    else if cmdDisableMouse i then true
    else if cmdEnableMouse i then false
    else s.disableMouseVisible
  disableKeyboard :=
    if s.cmdWriteCommandByte i then i.ioWritedata.getLsbD 4
    else if cmdDisableKeyb i then true
    else if cmdEnableKeyb i then false
    else if s.writeToKeyb i then false
    else s.disableKeyboard
  statusSystem :=
    if s.cmdWriteCommandByte i then i.ioWritedata.getLsbD 2 else if cmdSelfTest i then true else s.statusSystem
  allowIrqMouse := if s.cmdWriteCommandByte i then i.ioWritedata.getLsbD 1 else s.allowIrqMouse
  allowIrqKeyb := if s.cmdWriteCommandByte i then i.ioWritedata.getLsbD 0 else s.allowIrqKeyb
  statusMousebufferfull :=
    if s.reads60 i then false
    else if s.outputbufferIdle && !s.mouseFifo.empty then true
    else s.statusMousebufferfull
  statusOutputbufferfull :=
    if s.reads60 i then false
    else if s.outputbufferIdle && (!s.mouseFifo.empty || !s.keybFifo.empty) then true
    else s.statusOutputbufferfull
  expectingPort60h :=
    if writes60 i then false
    else if cmdWithParamFirstByte i then true
    else if writes64 i then false
    else s.expectingPort60h
  lastCommand := if writes64 i then i.ioWritedata else s.lastCommand
  keybReply :=
    if s.cmdWriteToKeybOutput i then i.ioWritedata
    else if cmdReadCommandByte i then s.commandByte
    else if cmdTestMousePort i then 0x00
    else if cmdSelfTest i then 0x55
    else if cmdInterfaceTest i then 0x00
    else if cmdReadInputPort i then 0x80
    else if cmdReadControllerMode i then 0x01
    else if cmdReadOutputPort i then s.outputPort
    else s.keybReply
  keybReplyValid :=
    if s.cmdWriteToKeybOutput i || cmdReadCommandByte i || cmdTestMousePort i || cmdSelfTest i || cmdInterfaceTest i ||
      cmdReadInputPort i || cmdReadControllerMode i || cmdReadOutputPort i then true
    else if s.keybReplyDone then false
    else s.keybReplyValid
  mouseReply := if s.cmdWriteToMouseOutput i then i.ioWritedata else s.mouseReply
  mouseReplyValid :=
    if s.cmdWriteToMouseOutput i then true else if s.mouseReplyDone then false else s.mouseReplyValid
  statusInputbufferfull :=
    if s.accepts i then true
    else if s.inputWriteDone && s.statusOutputbufferfull then false
    else s.statusInputbufferfull
  inputWriteDone :=
    if s.accepts i then false else if s.keyb.writeDone || s.mouse.writeDone then true else s.inputWriteDone
  inputForMouse := if s.writeToKeyb i then false else if s.writeToMouse i then true else s.inputForMouse
  inputbuffer :=
    if s.accepts i then i.ioWritedata
    else if s.keyb.writeShift || s.mouse.writeShift then 0#1 ++ s.inputbuffer.extractLsb' 1 7
    else s.inputbuffer
  keyb := s.keyb.step (s.keybIn i)
  keybTranslateEscape :=
    if s.keyb.timeoutReset then false
    else if s.keyb.recvOk && !s.keybTranslateEscape then s.translate && s.keyb.recvBuffer == 0xF0
    else if s.keyb.recvFinal && s.keyb.recvBuffer != 0xF0 then false
    else s.keybTranslateEscape
  trans := (transTable[s.keyb.recvBuffer.toNat]?).getD s.keyb.recvBuffer
  keybFifoQLast := if !s.keybFifo.empty then s.keybFifo.q else s.keybFifoQLast
  keybFifo := s.keybFifo.step (cmdSelfTest i) (s.keybFifoRdreq i) s.keybFifoWrreq s.keybFifoData
  mouse := s.mouse.step (s.mouseIn i)
  mouseFifo := s.mouseFifo.step (cmdSelfTest i) (s.mouseFifoRdreq i) s.mouseFifoWrreq s.mouseFifoData

def step : Controller := if !i.rstN then s.reset i else s.running i

end Controller

/-! ## Runs -/

structure Ps2Run where
  start : Controller
  inputs : Nat → ControllerIn

namespace Ps2Run

variable (r : Ps2Run)

/-- The registers in clock `t`. -/
def state : Nat → Controller := Clocked.run Controller.step r.start r.inputs

theorem state_succ (t : Nat) : r.state (t + 1) = (r.state t).step (r.inputs t) := Clocked.run_succ _ _ _ _

/-- The guest reads port 60h. -/
def reads60 (t : Nat) : Bool := (r.state t).reads60 (r.inputs t)

/-- No reset from clock `t` to clock `u`. -/
def Running (t u : Nat) : Prop := ∀ v, t ≤ v → v < u → (r.inputs v).rstN = true

end Ps2Run

end Z486.Ps2
