/-
The I/O bus adapter (src/iobus_adapter.sv): an I/O cycle of the CPU, of one to four bytes, becomes one cycle
for each enabled byte on the bus of the peripherals, or one wide cycle on the data port of an IDE channel.
The states of the bytes differ in the byte only.
-/
import Z486.Clocked.Bits
import Mathlib.Tactic.Common

namespace Z486.IoBus

/-- The states of the state machine; those of a byte carry its lane. -/
inductive AdapterState where
  | idle
  | issue (k : Fin 4)
  | wait (k : Fin 4)
  | cap (k : Fin 4)
  | done
  | ide32
  | ide32w
deriving DecidableEq, Repr

structure Adapter where
  state : AdapterState
  byteAddr : BitVec 32
  activeBe : BitVec 4
  isRead : Bool
  writeData : BitVec 32
  readAccum : BitVec 32
  wasActive : Bool
  cpuDout : BitVec 32
  cpuIoReady : Bool
  ioAddress : BitVec 16
  ioRead : Bool
  ioWrite : Bool
  ioWritedata : BitVec 8
  ideAddress : BitVec 4
  ideRead : Bool
  ideWrite : Bool
  ideWritedata : BitVec 32
  ide32 : Bool
deriving DecidableEq, Repr

/-- The CPU's side of a clock. -/
structure CpuIo where
  cpuAddr : BitVec 30
  cpuBe : BitVec 4
  cpuDin : BitVec 32
  cpuIoRd : Bool
  cpuIoWr : Bool
deriving DecidableEq, Repr

/-- The peripherals' side of a clock. -/
structure Peripheral where
  ioReaddata : BitVec 8
  ioWait : Bool
  ideReaddata : BitVec 32
  ideHold : Bool
deriving DecidableEq, Repr

namespace CpuIo

variable (c : CpuIo)

/-- The port of byte lane 0. -/
def basePort : BitVec 16 := c.cpuAddr.extractLsb' 0 14 ++ 0#2

/-- The data port of the primary or of the secondary IDE channel. -/
def ideDataPort : Bool := (c.basePort == 0x01F0 || c.basePort == 0x0170) && c.cpuBe.getLsbD 0

end CpuIo

namespace Adapter

variable (s : Adapter) (c : CpuIo) (p : Peripheral)

/-- A cycle of the CPU is taken: none has been answered since the CPU last let go of its strobes. -/
def takes : Bool := s.state == .idle && !s.wasActive && (c.cpuIoRd || c.cpuIoWr)

/-- The port of lane `k` of the cycle. -/
def lanePort (k : Fin 4) : BitVec 16 := s.byteAddr.extractLsb' 0 16 + BitVec.ofNat 16 k

/-- Whether `io_address` loads at the next edge. -/
def ioAddressLoad : Bool :=
  match s.state with
  | .idle => !s.wasActive && (c.cpuIoRd || c.cpuIoWr)
  | .issue k => s.activeBe.getLsbD k
  | _ => false

/-- What it loads. -/
def ioAddressNext : BitVec 16 :=
  match s.state with
  | .idle => if !s.wasActive && (c.cpuIoRd || c.cpuIoWr) then c.basePort else s.ioAddress
  | .issue k => if s.activeBe.getLsbD k then s.lanePort k else s.ioAddress
  | _ => s.ioAddress

/-- The state that follows lane `k`. -/
def afterLane (k : Fin 4) : AdapterState := if h : k.val + 1 < 4 then .issue ⟨k + 1, h⟩ else .done

/-- The word `w` with byte `b` in lane `k`. -/
def setLane (w : BitVec 32) (k : Fin 4) (b : BitVec 8) : BitVec 32 :=
  match k with
  | 0 => w.extractLsb' 8 24 ++ b
  | 1 => w.extractLsb' 16 16 ++ b ++ w.extractLsb' 0 8
  | 2 => w.extractLsb' 24 8 ++ b ++ w.extractLsb' 0 16
  | 3 => b ++ w.extractLsb' 0 24

/-- The idle state. -/
def idleNext (n : Adapter) : Adapter :=
  if s.wasActive && (c.cpuIoRd || c.cpuIoWr) then { n with wasActive := true }
  else if s.wasActive then { n with wasActive := false }
  else if c.cpuIoRd || c.cpuIoWr then
    let n := { n with
      byteAddr := 0#16 ++ c.basePort, activeBe := c.cpuBe, isRead := c.cpuIoRd, writeData := c.cpuDin
      readAccum := 0xFFFFFFFF }
    if c.ideDataPort then
      let n := { n with ideAddress := 0, ide32 := c.cpuBe == 0b1111, state := .ide32 }
      if c.cpuIoRd then { n with ideRead := true } else { n with ideWrite := true, ideWritedata := c.cpuDin }
    else { n with state := .issue 0 }
  else n

/-- The strobe of lane `k`, when it is enabled. -/
def issueNext (k : Fin 4) (n : Adapter) : Adapter :=
  if s.activeBe.getLsbD k then
    let n := { n with state := .wait k }
    if s.isRead then { n with ioRead := true }
    else { n with ioWrite := true, ioWritedata := s.writeData.extractLsb' (8 * k) 8 }
  else { n with state := afterLane k }

/-- A clock. -/
def step (resetN : Bool) : Adapter :=
  let n := { s with ioAddress := if s.ioAddressLoad c then s.ioAddressNext c else s.ioAddress }
  if !resetN then
    { n with
      state := .idle, cpuIoReady := false, ioRead := false, ioWrite := false, ideRead := false, ideWrite := false
      wasActive := false }
  else
    let n := { n with ioRead := false, ioWrite := false, ideRead := false, ideWrite := false, cpuIoReady := false }
    match s.state with
    | .idle => s.idleNext c n
    | .issue k => s.issueNext k n
    | .wait k => if !p.ioWait then { n with state := if s.isRead then .cap k else afterLane k } else n
    | .cap k => { n with readAccum := setLane s.readAccum k p.ioReaddata, state := afterLane k }
    | .done => { n with cpuDout := s.readAccum, cpuIoReady := true, wasActive := true, state := .idle }
    | .ide32 => if !p.ideHold then { n with state := .ide32w } else n
    | .ide32w =>
      { n with
        cpuDout := if s.isRead then p.ideReaddata else s.cpuDout
        cpuIoReady := true, wasActive := true, state := .idle }

end Adapter

end Z486.IoBus
