/-
One of the two serial ports of the PS/2 controller (src/soc/ps2.v): its lines, its timers and the state machine that
sends a byte to a device or receives one. The ports of the keyboard and of the mouse are the same circuit.
-/
import Z486.Clocked.Run

namespace Z486.Ps2

/-- The states of the state machine. -/
inductive PortState where
  | idle
  | sendInhibit
  | sendInhibitWait
  | sendDataLow
  | sendClockRelease
  | sendBits
  | sendWaitForAck
  | sendWaitForIdle
  | sendFinished
  | recvStart
  | recvBits
  | recvWaitForStop
  | recvWaitForIdle
  | waitStart
  | wait
  | waitFinish
deriving DecidableEq, Repr

/-- The registers of a port. -/
structure Port where
  clkEna : Bool
  datEna : Bool
  datHost : Bool
  clkMv : BitVec 16
  clkMvWait : Bool
  wasClk : Bool
  clk : Bool
  dat : Bool
  timeout : BitVec 26
  timer : BitVec 13
  bitCounter : BitVec 4
  parity : Bool
  recvBuffer : BitVec 8
  recvResult : Bool
  state : PortState
deriving DecidableEq, Repr

/-- What a port sees in a clock: its lines, a byte that waits to be sent with its lowest bit, and whether it must not
receive. -/
structure PortIn where
  rstN : Bool
  clkLine : Bool
  datLine : Bool
  pending : Bool
  inputbuffer0 : Bool
  disabled : Bool
  nearlyFull : Bool
deriving DecidableEq, Repr

namespace Port

/-- The registers after a reset. -/
def reset : Port :=
  { clkEna := false, datEna := false, datHost := false, clkMv := 0, clkMvWait := false, wasClk := false, clk := true
    dat := true, timeout := 0, timer := 0, bitCounter := 0, parity := false, recvBuffer := 0, recvResult := false
    state := .idle }

variable (p : Port) (i : PortIn)

def clkOut : Bool := !p.clkEna

def datOut : Bool := !p.datEna || p.datHost

def timeoutReset : Bool := p.timeout == 1

def writeShift : Bool := p.state == .sendBits && p.wasClk

def writeDone : Bool := p.state == .sendFinished

def recv : Bool := p.state == .recvBits && p.wasClk

def recvOk : Bool := p.recv && p.bitCounter == 8 && (!p.parity) == p.dat

def recvParityErr : Bool := p.recv && p.bitCounter == 8 && (!p.parity) != p.dat

def recvFinal : Bool := p.state == .recvWaitForIdle && p.clk && p.dat && p.recvResult

def stateNext : PortState :=
  if p.timeoutReset then .idle
  else
    let blocked := i.nearlyFull || i.disabled
    match p.state with
    | .idle =>
      if blocked then .waitStart
      else if i.pending then .sendInhibit
      else if p.wasClk && !p.dat then .recvStart
      else .idle
    | .waitStart => .wait
    | .wait =>
      if p.timer == 1 && i.pending && !i.disabled then .sendInhibit
      else if p.timer == 1 && blocked then .waitStart
      else if p.timer == 1 then .waitFinish
      else .wait
    | .waitFinish => .idle
    | .sendInhibit => .sendInhibitWait
    | .sendInhibitWait =>
      if p.timer == 8 then .sendDataLow else if p.timer == 1 then .sendClockRelease else .sendInhibitWait
    | .sendDataLow => .sendInhibitWait
    | .sendClockRelease => .sendBits
    | .sendBits => if p.writeShift && p.bitCounter == 9 then .sendWaitForAck else .sendBits
    | .sendWaitForAck => if p.wasClk && !p.dat then .sendWaitForIdle else .sendWaitForAck
    | .sendWaitForIdle => if p.clk && p.dat then .sendFinished else .sendWaitForIdle
    | .sendFinished => .idle
    | .recvStart => .recvBits
    | .recvBits => if p.recvOk || p.recvParityErr then .recvWaitForStop else .recvBits
    | .recvWaitForStop => if p.wasClk && p.dat then .recvWaitForIdle else .recvWaitForStop
    | .recvWaitForIdle => if p.clk && p.dat then .idle else .recvWaitForIdle

/-- A falling edge of the clock that has settled. -/
def falls : Bool := !p.clkMvWait && p.clkMv.extractLsb' 12 4 == 0b1111 && p.clkMv.extractLsb' 0 4 == 0

def step : Port :=
  if !i.rstN then reset
  else
    { clkEna :=
        if p.timeoutReset then false
        else if p.state == .sendInhibit || p.state == .waitStart then true
        else if p.state == .sendClockRelease || p.state == .waitFinish then false
        else p.clkEna
      datEna :=
        if p.timeoutReset then false
        else if p.state == .sendDataLow then true
        else if p.writeShift && p.bitCounter == 9 then false
        else p.datEna
      datHost :=
        if p.state == .sendDataLow then false
        else if p.writeShift && decide (p.bitCounter < 8) then i.inputbuffer0
        else if p.writeShift && p.bitCounter == 8 then !p.parity
        else p.datHost
      clkMv := p.clkMv.extractLsb' 0 15 ++ BitVec.ofBool p.clk
      clkMvWait := if p.falls then true else if p.clkMvWait && p.clkMv == 0 then false else p.clkMvWait
      wasClk := p.falls
      clk := i.clkLine
      dat := i.datLine
      timeout :=
        if p.state == .sendInhibit || p.state == .recvStart then 0x3FFFFFF
        else if p.state == .idle then 0
        else if p.timeout > 0 then p.timeout - 1
        else p.timeout
      timer :=
        if p.timeoutReset then 0
        else if p.state == .sendInhibit then 8191
        else if p.state == .waitStart then 8191
        else if p.timer > 0 then p.timer - 1
        else p.timer
      bitCounter :=
        if p.timeoutReset then 0
        else if p.state == .sendClockRelease then 0
        else if p.writeShift then p.bitCounter + 1
        else if p.state == .recvStart then 0
        else if p.recv then p.bitCounter + 1
        else p.bitCounter
      parity :=
        if p.state == .sendClockRelease then false
        else if p.writeShift then p.parity ^^ i.inputbuffer0
        else if p.state == .recvStart then false
        else if p.recv then p.parity ^^ p.dat
        else p.parity
      recvBuffer :=
        if p.recv && decide (p.bitCounter < 8) then BitVec.ofBool p.dat ++ p.recvBuffer.extractLsb' 1 7 else p.recvBuffer
      recvResult := if p.state == .recvBits then p.recvOk else p.recvResult
      state := p.stateNext i }

end Port

end Z486.Ps2
