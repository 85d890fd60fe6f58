/-
The 8237 DMA controller (src/soc/dma.v, module i8237): four channels with their programmed registers, one transfer
engine that they share, and the registers that the processor reads and writes.
-/
import Z486.Clocked.Bits
import Z486.Clocked.Run

namespace Z486.Dma

/-! ## Registers and ports -/

/-- The states of the transfer engine, 0 to 7. -/
inductive EngineState where
  | idle
  | granted
  | read
  | readWait
  | update
  | done
  | write
  | verify
deriving DecidableEq, Repr

structure I8237 where
  readdata : BitVec 8
  dmaAddress : BitVec 16
  dmaWrite : Bool
  dmaWritedata : BitVec 16
  dmaRead : Bool
  chTc : BitVec 4
  disabled : Bool
  mask : BitVec 4
  flipFlop : Bool
  baseAddress : Fin 4 → BitVec 16
  currentAddress : Fin 4 → BitVec 16
  baseCounter : Fin 4 → BitVec 16
  currentCounter : Fin 4 → BitVec 16
  dec : Fin 4 → Bool
  auto : Fin 4 → Bool
  transfer : Fin 4 → BitVec 2
  state : EngineState
  active : Fin 4
  ackR : Bool
  ackData : BitVec 16
  readLast : Bool
  pending : BitVec 4
  terminated : BitVec 4

/-- The inputs of a clock. -/
structure I8237In where
  rstN : Bool
  address : BitVec 4
  write : Bool
  writedata : BitVec 8
  read : Bool
  dmaReaddata : BitVec 16
  dmaReaddatavalid : Bool
  dmaWaitrequest : Bool
  chReq : BitVec 4
  chWritedata : Fin 4 → BitVec 16
  chPending : BitVec 4

namespace I8237

variable (s : I8237) (i : I8237In)

/-! ## The transfer engine -/

/-- A master clear. -/
def masterClear : Bool := i.write && i.address == 0xD

def actAddress : BitVec 16 := s.currentAddress s.active

def actCounter : BitVec 16 := s.currentCounter s.active

def actAddressNext : BitVec 16 := if s.dec s.active then s.actAddress - 1 else s.actAddress + 1

def update : Bool := s.state == .update

def actTc : Bool := s.update && s.actCounter == 0

/-- Bit `c` of `tc`. -/
def tc (c : Fin 4) : Bool := s.actTc && s.active == c

def reqData : BitVec 16 := i.chWritedata s.active

/-- Bit `c` of `busy`. -/
def busy (c : Fin 4) : Bool := s.state != .idle && s.active == c

def ack (c : Fin 4) : Bool := s.ackR && s.active == c

def req : BitVec 4 := s.pending &&& ~~~s.mask

def grants : Bool := s.state == .idle && i.chReq != 0

def stateNext : EngineState :=
  match s.state with
  | .idle => if i.chReq != 0 then .granted else .idle
  | .granted => if s.transfer s.active == 2 then .read else if s.transfer s.active == 1 then .write else .verify
  | .read => if !i.dmaWaitrequest then .readWait else .read
  | .readWait => if i.dmaReaddatavalid then .update else .readWait
  | .update => .done
  | .done => .idle
  | .write => if !i.dmaWaitrequest then .update else .write
  | .verify => .update

def activeNext : Fin 4 :=
  if i.chReq.getLsbD 0 then 0 else if i.chReq.getLsbD 1 then 1 else if i.chReq.getLsbD 2 then 2 else 3

/-! ## The programmed registers -/

/-- A register of 16 bits that is written a byte at a time. -/
def writeByte (x : BitVec 16) : BitVec 16 :=
  if s.flipFlop then i.writedata ++ x.extractLsb' 0 8 else x.extractLsb' 8 8 ++ i.writedata

def writesAddress (c : Fin 4) : Bool := i.write && i.address == BitVec.ofNat 4 (2 * c)

def writesCounter (c : Fin 4) : Bool := i.write && i.address == BitVec.ofNat 4 (2 * c + 1)

def writesMode (c : Fin 4) : Bool := i.write && i.address == 11 && i.writedata.extractLsb' 0 2 == BitVec.ofFin c

def readValid : Bool := i.read && !s.readLast

/-- The status register is read, and the bits of the terminal counts in it are cleared. -/
def readsStatus : Bool := s.readValid i && i.address == 8

def selAddress : BitVec 16 := s.currentAddress ⟨(i.address.extractLsb' 1 2).toNat, BitVec.isLt _⟩

def selCounter : BitVec 16 := s.currentCounter ⟨(i.address.extractLsb' 1 2).toNat, BitVec.isLt _⟩

def byteOf (x : BitVec 16) : BitVec 8 := if s.flipFlop then x.extractLsb' 8 8 else x.extractLsb' 0 8

def readdataNext : BitVec 8 :=
  if !i.address.getLsbD 3 && !i.address.getLsbD 0 then s.byteOf (s.selAddress i)
  else if !i.address.getLsbD 3 then s.byteOf (s.selCounter i)
  else if i.address == 8 then s.pending ++ s.terminated
  else if i.address == 15 then 0xF#4 ++ s.mask
  else 0

def writedataBits : BitVec 4 := 1#4 <<< i.writedata.extractLsb' 0 2

/-- The bits of the terminal count of a clock, of every channel or of those that do not begin again. -/
def tcBits : BitVec 4 := if s.actTc then 1#4 <<< s.active.val else 0

def autoBits : BitVec 4 :=
  BitVec.ofBool (s.auto 3) ++ BitVec.ofBool (s.auto 2) ++ BitVec.ofBool (s.auto 1) ++ BitVec.ofBool (s.auto 0)

/-! ## A clock -/

def step : I8237 where
  readdata := if s.readValid i then s.readdataNext i else s.readdata
  dmaAddress := if s.state == .idle then 0 else if s.state == .granted then s.actAddress else s.dmaAddress
  dmaWrite :=
    if s.state == .idle then false
    else if s.state == .granted && s.transfer s.active == 1 then true
    else if s.state == .write && !i.dmaWaitrequest then false
    else s.dmaWrite
  dmaWritedata :=
    if s.state == .idle then 0
    else if s.state == .granted && s.transfer s.active == 1 then s.reqData i
    else s.dmaWritedata
  dmaRead :=
    if s.state == .idle then false
    else if s.state == .granted && s.transfer s.active == 2 then true
    else if s.state == .read && !i.dmaWaitrequest then false
    else s.dmaRead
  chTc := s.tcBits
  disabled :=
    if !i.rstN || masterClear i then false
    else if i.write && i.address == 8 then i.writedata.getLsbD 2
    else s.disabled
  mask :=
    if !i.rstN || masterClear i then 0xF
    else if i.write && i.address == 0xE then 0
    else if i.write && i.address == 0xF then i.writedata.extractLsb' 0 4
    else if i.write && i.address == 0xA && i.writedata.getLsbD 2 then s.mask ||| writedataBits i
    else if i.write && i.address == 0xA && !i.writedata.getLsbD 2 then s.mask &&& ~~~writedataBits i
    else s.mask ||| (s.tcBits &&& ~~~s.autoBits)
  flipFlop :=
    if !i.rstN || masterClear i then false
    else if i.write && i.address == 12 then false
    else if (s.readValid i || i.write) && !i.address.getLsbD 3 then !s.flipFlop
    else s.flipFlop
  baseAddress c :=
    if !i.rstN then 0 else if writesAddress i c then s.writeByte i (s.baseAddress c) else s.baseAddress c
  currentAddress c :=
    if !i.rstN then 0
    else if writesAddress i c then s.writeByte i (s.currentAddress c)
    else if s.tc c && s.auto c then s.baseAddress c
    else if s.update && s.active == c then s.actAddressNext
    else s.currentAddress c
  baseCounter c :=
    if !i.rstN then 0 else if writesCounter i c then s.writeByte i (s.baseCounter c) else s.baseCounter c
  currentCounter c :=
    if !i.rstN then 0
    else if writesCounter i c then s.writeByte i (s.currentCounter c)
    else if s.tc c && s.auto c then s.baseCounter c
    else if s.update && s.active == c then s.actCounter - 1
    else s.currentCounter c
  dec c := if !i.rstN then false else if writesMode i c then i.writedata.getLsbD 5 else s.dec c
  auto c := if !i.rstN then false else if writesMode i c then i.writedata.getLsbD 4 else s.auto c
  transfer c := if !i.rstN then 0 else if writesMode i c then i.writedata.extractLsb' 2 2 else s.transfer c
  state := if !i.rstN || masterClear i then .idle else s.stateNext i
  active := if !i.rstN || masterClear i then s.active else if s.grants i then activeNext i else s.active
  ackR :=
    if !i.rstN then false
    else if s.state == .readWait && i.dmaReaddatavalid then true
    else if s.state == .write && !i.dmaWaitrequest then true
    else if s.state == .verify then true
    else false
  ackData := if s.state == .readWait && i.dmaReaddatavalid then i.dmaReaddata else s.ackData
  readLast := if !i.rstN then false else if s.readLast then false else i.read
  pending :=
    if !i.rstN || masterClear i then 0
    else if i.write && i.address == 9 && i.writedata.getLsbD 2 then s.pending ||| writedataBits i
    else if i.write && i.address == 9 && !i.writedata.getLsbD 2 then s.pending &&& ~~~writedataBits i
    else i.chPending
  terminated :=
    if !i.rstN || masterClear i then 0 else if s.readsStatus i then 0 else s.terminated ||| s.tcBits

/-- The registers after a reset of some clocks. -/
def reset : I8237 :=
  { s with
    dmaAddress := 0, dmaWrite := false, dmaWritedata := 0, dmaRead := false, chTc := 0, disabled := false, mask := 0xF
    flipFlop := false, baseAddress := fun _ => 0, currentAddress := fun _ => 0, baseCounter := fun _ => 0
    currentCounter := fun _ => 0, dec := fun _ => false, auto := fun _ => false, transfer := fun _ => 0, state := .idle
    ackR := false, readLast := false, pending := 0, terminated := 0 }

end I8237

/-! ## Runs -/

structure I8237Run where
  start : I8237
  inputs : Nat → I8237In

namespace I8237Run

variable (r : I8237Run)

/-- The registers in clock `t`. -/
def state : Nat → I8237 := Clocked.run I8237.step r.start r.inputs

theorem state_succ (t : Nat) : r.state (t + 1) = (r.state t).step (r.inputs t) := Clocked.run_succ _ _ _ _

end I8237Run

end Z486.Dma
