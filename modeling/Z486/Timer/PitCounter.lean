/-
A counter of the 8254 interval timer (src/soc/pit_counter.v): the registers that the processor programs and reads, the
flags of the loads, and the counting element with its output. Every register has its own clocked block; each is a field
of `step`.
-/
import Z486.Clocked.Run

namespace Z486.Timer

/-! ## Registers and ports -/

structure PitCounter where
  clockLast : Bool
  gateLast : Bool
  writeLast : Bool
  readLast : Bool
  bcd : Bool
  mode : BitVec 3
  rwMode : BitVec 2
  writeSeqMsb : Bool
  readSeqMsb : Bool
  counterL : BitVec 8
  counterM : BitVec 8
  outputL : BitVec 8
  outputM : BitVec 8
  outputLatched : Bool
  nullCount : Bool
  status : BitVec 8
  statusLatched : Bool
  written : Bool
  writtenSampled : Bool
  armed : Bool
  trigger : Bool
  triggerSampled : Bool
  gateLevelSampled : Bool
  out : Bool
  terminalCount : Bool
  loaded : Bool
  loadedImm : Bool
  counter : BitVec 16

/-- The inputs of a clock, and the parameters of the instance. -/
structure PitIn where
  resetMode : BitVec 3
  resetRwMode : BitVec 2
  rstN : Bool
  clock : Bool
  gate : Bool
  dataIn : BitVec 8
  setControlMode : Bool
  latchCount : Bool
  latchStatus : Bool
  write : Bool
  read : Bool

namespace PitCounter

variable (s : PitCounter) (i : PitIn)

/-! ## Edges -/

def clockRise : Bool := !s.clockLast && i.clock
def clockFall : Bool := s.clockLast && !i.clock

def gateRise : Bool := !s.gateLast && i.gate
def gateFall : Bool := s.gateLast && !i.gate

def writeDone : Bool := s.writeLast && !i.write
def readDone : Bool := s.readLast && !i.read

/-- `mode[1:0]` -/
def modeLow : BitVec 2 := s.mode.extractLsb' 0 2

/-! ## Reads and writes -/

def writeSeqDone : Bool := s.writeDone i && (s.rwMode != 3 || s.writeSeqMsb)
def readSeqDone : Bool := s.readDone i && (s.rwMode != 3 || s.readSeqMsb)

def writeLsb : Bool := i.write && s.rwMode != 2 && !s.writeSeqMsb
def writeMsb : Bool := i.write && (s.rwMode == 2 || s.writeSeqMsb)

/-- The status that a read-back command latches. -/
def statusByte : BitVec 8 :=
  BitVec.ofBool s.out ++ BitVec.ofBool s.nullCount ++ s.rwMode ++ s.mode ++ BitVec.ofBool s.bcd

def dataOut : BitVec 8 :=
  if s.statusLatched then s.status else if s.rwMode == 2 || s.readSeqMsb then s.outputM else s.outputL

/-! ## Loads -/

def triggerAllowed : Bool := (s.armed && s.modeLow == 1) || (s.loaded && s.mode.getLsbD 1)

def loadWritten : Bool := s.clockFall i && s.writtenSampled

def loadTrigger : Bool := s.clockFall i && s.triggerSampled

def loadTerminal : Bool := s.clockFall i && s.mode.getLsbD 1 && s.terminalCount && s.loaded && s.gateLevelSampled

def load : Bool := s.loadWritten i || s.loadTrigger i || s.loadTerminal i

def enable : Bool :=
  s.clockFall i && !s.load i && (s.modeLow == 1 || s.gateLevelSampled) && !(s.mode == 0 && s.writeSeqMsb)

def loadWrittenImm : Bool := s.writeSeqDone i && s.modeLow != 1

def loadTriggerImm : Bool := s.gateRise i && s.triggerAllowed

def loadImm : Bool :=
  (s.loadWrittenImm i && !s.loadedImm) || s.loadTriggerImm i || (s.loadWritten i && s.loadedImm) || s.loadTerminal i

def enableImm : Bool :=
  s.enable i && (s.modeLow == 0 || !((s.trigger || s.triggerSampled) && s.triggerAllowed))

/-- What a load puts into the counting element: in mode 3 an even count. -/
def loadValue : BitVec 16 :=
  s.counterM ++ (s.counterL.extractLsb' 1 7 ++ BitVec.ofBool (s.counterL.getLsbD 0 && s.modeLow != 3))

def counterMinus1 : BitVec 16 :=
  if s.bcd && s.counter == 0 then 0x9999
  else if s.bcd && s.counter.extractLsb' 0 12 == 0 then (s.counter.extractLsb' 12 4 - 1) ++ 0x999#12
  else if s.bcd && s.counter.extractLsb' 0 8 == 0 then (s.counter.extractLsb' 8 8 - 1) ++ 0x99#8
  else if s.bcd && s.counter.extractLsb' 0 4 == 0 then (s.counter.extractLsb' 4 12 - 1) ++ 0x9#4
  else s.counter - 1

/-- The value of the counting element that ends a count in the modes 2 and 3. -/
def terminalValue : BitVec 16 :=
  0#14 ++ (BitVec.ofBool (!(s.counterL.getLsbD 0 && s.out) && s.mode.getLsbD 0) ++ BitVec.ofBool (!s.mode.getLsbD 0))

def outNext : Bool :=
  if s.mode == 0 then
    if s.writeDone i && !s.writeSeqMsb then false else if s.counter == 1 && s.enable i then true else s.out
  else if s.mode == 1 then
    if s.load i then false else if s.counter == 1 && s.enable i then true else s.out
  else if s.mode == 2 || s.mode == 6 then
    if s.load i || s.gateFall i then true else if s.counter == 2 && s.enable i then false else s.out
  else if s.mode == 3 || s.mode == 7 then
    if s.gateFall i then true else if s.load i && s.loaded && !s.triggerSampled then !s.out else s.out
  else
    if s.counter == 1 && s.enable i then false else if s.counter == 0 && s.enable i then true else s.out

/-! ## A clock -/

def step : PitCounter where
  clockLast := i.clock
  gateLast := i.gate
  writeLast := i.write
  readLast := i.read
  bcd := if !i.rstN then false else if i.setControlMode then i.dataIn.getLsbD 0 else s.bcd
  mode := if !i.rstN then i.resetMode else if i.setControlMode then i.dataIn.extractLsb' 1 3 else s.mode
  rwMode := if !i.rstN then i.resetRwMode else if i.setControlMode then i.dataIn.extractLsb' 4 2 else s.rwMode
  writeSeqMsb :=
    if !i.rstN || i.setControlMode then false
    else if s.writeDone i && s.rwMode == 3 then !s.writeSeqMsb else s.writeSeqMsb
  readSeqMsb :=
    if !i.rstN || i.setControlMode then false
    else if s.readDone i && s.rwMode == 3 && !s.statusLatched then !s.readSeqMsb else s.readSeqMsb
  counterL :=
    if !i.rstN then 0
    else if i.write && s.rwMode == 2 then 0
    else if s.writeLsb i then i.dataIn else s.counterL
  counterM :=
    if !i.rstN then 0
    else if i.write && s.rwMode == 1 then 0
    else if s.writeMsb i then i.dataIn else s.counterM
  outputL := if !i.rstN then 0 else if !s.outputLatched then s.counter.extractLsb' 0 8 else s.outputL
  outputM := if !i.rstN then 0 else if !s.outputLatched then s.counter.extractLsb' 8 8 else s.outputM
  outputLatched :=
    if !i.rstN || i.setControlMode then false
    else if i.latchCount then true else if s.readSeqDone i then false else s.outputLatched
  nullCount :=
    if !i.rstN then false
    else if i.setControlMode then true
    else if s.writeSeqDone i then true else if s.load i then false else s.nullCount
  status := if !i.rstN then 0 else if i.latchStatus && !s.statusLatched then s.statusByte else s.status
  statusLatched :=
    if !i.rstN || i.setControlMode then false
    else if i.latchStatus then true else if s.readDone i then false else s.statusLatched
  written :=
    if !i.rstN || i.setControlMode then false
    else if s.writeSeqDone i && s.modeLow != 1 && !(s.mode.getLsbD 1 && s.loaded) then true
    else if s.load i then false else s.written
  writtenSampled :=
    if !i.rstN || i.setControlMode then false else if s.clockRise i then s.written else s.writtenSampled
  armed :=
    if !i.rstN || i.setControlMode then false else if s.writeSeqDone i && s.modeLow == 1 then true else s.armed
  trigger :=
    if !i.rstN || i.setControlMode then false
    else if s.gateRise i && s.triggerAllowed then true else if s.clockRise i then false else s.trigger
  triggerSampled :=
    if !i.rstN || i.setControlMode then false else if s.clockRise i then s.trigger else s.triggerSampled
  gateLevelSampled := if !i.rstN then false else if s.clockRise i then i.gate else s.gateLevelSampled
  out := if !i.rstN then true else if i.setControlMode then decide (i.dataIn.extractLsb' 1 3 > 0) else s.outNext i
  terminalCount := s.counter == s.terminalValue
  loaded := if !i.rstN || i.setControlMode then false else if s.load i then true else s.loaded
  loadedImm := if !i.rstN || i.setControlMode then false else if s.loadImm i then true else s.loadedImm
  counter :=
    if !i.rstN then 0
    else if s.loadImm i then s.loadValue
    else if s.enableImm i then s.counterMinus1 - (if s.modeLow == 3 then 1 else 0) else s.counter

end PitCounter

/-! ## Runs -/

structure PitRun where
  start : PitCounter
  inputs : Nat → PitIn

namespace PitRun

variable (r : PitRun)

/-- The registers in clock `t`. -/
def state : Nat → PitCounter := Clocked.run PitCounter.step r.start r.inputs

theorem state_succ (t : Nat) : r.state (t + 1) = (r.state t).step (r.inputs t) := Clocked.run_succ _ _ _ _

end PitRun

end Z486.Timer
