/-
The 8259 interrupt controller pair (src/soc/pic.v): one `i8259` with its registers, request logic
and next state, and `pic`, the master and the slave cascaded on level 2.
-/
import Mathlib.Tactic.Common

namespace Z486.Interrupt

/-! ## Registers and ports of one controller -/

/-- The registers of an `i8259`. -/
structure I8259 where
  ioReadLast : Bool
  interruptLast : BitVec 8
  polled : Bool
  readRegSelect : Bool
  specialMask : Bool
  inInit : Bool
  initRequires4 : Bool
  ltim : Bool
  initByteExpected : BitVec 3
  lowestPriority : BitVec 3
  imr : BitVec 8
  irr : BitVec 8
  isr : BitVec 8
  interruptOffset : BitVec 5
  autoEoi : Bool
  irrSlave : BitVec 8
  rotateOnAeoi : Bool
  interruptDo : Bool
  spurious : Bool
  slaveActive : Bool
  interruptVector : BitVec 8

/-- The inputs of an `i8259` in one clock. -/
structure I8259In where
  rstN : Bool
  ioAddress : Bool
  ioRead : Bool
  ioWrite : Bool
  ioWritedata : BitVec 8
  interruptInput : BitVec 8
  interruptDone : Bool

namespace I8259

/-- The values all registers take while `rst_n` is low. -/
def reset : I8259 where
  ioReadLast := false
  interruptLast := 0
  polled := false
  readRegSelect := false
  specialMask := false
  inInit := false
  initRequires4 := false
  ltim := false
  initByteExpected := 0
  lowestPriority := 7
  imr := 0xFF
  irr := 0
  isr := 0
  interruptOffset := 0x0E
  autoEoi := false
  irrSlave := 0
  rotateOnAeoi := false
  interruptDo := false
  spurious := false
  slaveActive := false
  interruptVector := 0

/-! ## Request selection -/

variable (s : I8259) (i : I8259In)

def ioReadValid : Bool := i.ioRead && !s.ioReadLast

def initIcw1 : Bool := i.ioWrite && !i.ioAddress && i.ioWritedata.getLsbD 4
def initIcw2 : Bool := i.ioWrite && i.ioAddress && s.inInit && s.initByteExpected == 2
def initIcw3 : Bool := i.ioWrite && i.ioAddress && s.inInit && s.initByteExpected == 3
def initIcw4 : Bool := i.ioWrite && i.ioAddress && s.inInit && s.initByteExpected == 4

def ocw1 : Bool := !s.inInit && i.ioWrite && i.ioAddress
def ocw2 : Bool := i.ioWrite && !i.ioAddress && i.ioWritedata.extractLsb' 3 2 == 0
def ocw3 : Bool := i.ioWrite && !i.ioAddress && i.ioWritedata.extractLsb' 3 2 == 1

def edgeDetect : BitVec 8 := i.interruptInput &&& ~~~s.interruptLast

/-- The requests that enter IRR at this edge: rising ones, or all in level mode. -/
def newRequests : BitVec 8 := if !s.ltim then s.edgeDetect i else i.interruptInput

def writedataMask : BitVec 8 := 1#8 <<< i.ioWritedata.extractLsb' 0 3

def selectectedPrepare : BitVec 8 := s.irr &&& ~~~s.imr &&& ~~~s.isr

/-- `{x[0], x, x[7:1]} >> lowest_priority`: the level after the lowest one comes to bit 0. -/
def shifted (x : BitVec 8) (lowestPriority : BitVec 3) : BitVec 16 :=
  (x.extractLsb' 0 1 ++ x ++ x.extractLsb' 1 7) >>> lowestPriority

/-- The index of the first of the eight low bits that is set; 7 when none of the first seven is. -/
def first (x : BitVec 16) : BitVec 3 :=
  if x.getLsbD 0 then 0 else if x.getLsbD 1 then 1 else if x.getLsbD 2 then 2 else if x.getLsbD 3 then 3
  else if x.getLsbD 4 then 4 else if x.getLsbD 5 then 5 else if x.getLsbD 6 then 6 else 7

def selectectedShifted : BitVec 16 := shifted s.selectectedPrepare s.lowestPriority
def selectectedShiftedIsr : BitVec 16 := shifted s.isr s.lowestPriority

def selectectedShiftedIsrFirst : BitVec 3 := first s.selectectedShiftedIsr
def selectectedShiftedIsrFirstNorm : BitVec 3 := s.lowestPriority + s.selectectedShiftedIsrFirst + 1
def selectectedShiftedIsrFirstBits : BitVec 8 := 1#8 <<< s.selectectedShiftedIsrFirstNorm

def selectectedIndex : BitVec 3 := first s.selectectedShifted

def irq : Bool :=
  s.selectectedPrepare != 0 && (s.specialMask || decide (s.selectectedIndex ≤ s.selectectedShiftedIsrFirst))

def irqValue : BitVec 3 := s.lowestPriority + s.selectectedIndex + 1

def ioReaddata : BitVec 8 :=
  if s.polled then BitVec.ofBool s.interruptDo ++ (0 : BitVec 4) ++ s.irqValue
  else if !i.ioAddress && !s.readRegSelect then s.irr
  else if !i.ioAddress && s.readRegSelect then s.isr
  else s.imr

/-! ## Acknowledge -/

def acknowledgeNotSpurious : Bool := (s.polled && s.ioReadValid i) || (i.interruptDone && !s.spurious)
def acknowledge : Bool := (s.polled && s.ioReadValid i) || i.interruptDone

def spuriousStart : Bool := s.interruptDo && !i.interruptDone && !s.irq

/-- The level in the vector register. -/
def vectorLevel : BitVec 3 := s.interruptVector.extractLsb' 0 3

def interruptVectorBits : BitVec 8 := 1#8 <<< s.vectorLevel

def isrClear : Bool :=
  (s.polled && s.ioReadValid i) ||
    (ocw2 i && (i.ioWritedata == 0x20 || i.ioWritedata == 0xA0))

/-- `{io_writedata[7:3], 3'b000}`: the command of an OCW2 that names a level. -/
def ocw2Command : BitVec 8 := i.ioWritedata.extractLsb' 3 5 ++ (0 : BitVec 3)

/-! ## Next state -/

/-- The registers after an edge with `rst_n` high, one field for each `always` block. -/
def next : I8259 where
  ioReadLast := if s.ioReadLast then false else i.ioRead
  interruptLast := i.interruptInput
  polled :=
    if s.polled && s.ioReadValid i then false
    else if ocw3 i then i.ioWritedata.getLsbD 2 else s.polled
  readRegSelect :=
    if initIcw1 i then false
    else if ocw3 i && !i.ioWritedata.getLsbD 2 && i.ioWritedata.getLsbD 1 then i.ioWritedata.getLsbD 0
    else s.readRegSelect
  specialMask :=
    if initIcw1 i then false
    else if ocw3 i && !i.ioWritedata.getLsbD 2 && i.ioWritedata.getLsbD 6 then i.ioWritedata.getLsbD 5
    else s.specialMask
  inInit :=
    if initIcw1 i then true
    else if s.initIcw3 i && !s.initRequires4 then false
    else if s.initIcw4 i then false else s.inInit
  initRequires4 := if initIcw1 i then i.ioWritedata.getLsbD 0 else s.initRequires4
  ltim := if initIcw1 i then i.ioWritedata.getLsbD 3 else s.ltim
  initByteExpected :=
    if initIcw1 i then 2
    else if s.initIcw2 i then 3
    else if s.initIcw3 i && s.initRequires4 then 4 else s.initByteExpected
  lowestPriority :=
    if initIcw1 i then 7
    else if ocw2 i && i.ioWritedata == 0xA0 then s.lowestPriority + 1
    else if ocw2 i && ocw2Command i == 0xC0 then i.ioWritedata.extractLsb' 0 3
    else if ocw2 i && ocw2Command i == 0xE0 then i.ioWritedata.extractLsb' 0 3
    else if s.acknowledgeNotSpurious i && s.autoEoi && s.rotateOnAeoi then s.lowestPriority + 1
    else s.lowestPriority
  imr := if initIcw1 i then 0 else if s.ocw1 i then i.ioWritedata else s.imr
  irr :=
    if initIcw1 i then 0
    else if s.acknowledgeNotSpurious i then
      (s.irr &&& i.interruptInput &&& ~~~s.interruptVectorBits) ||| s.newRequests i
    else (s.irr &&& i.interruptInput) ||| s.newRequests i
  isr :=
    if initIcw1 i then 0
    else if ocw2 i && ocw2Command i == 0x60 then s.isr &&& ~~~writedataMask i
    else if ocw2 i && ocw2Command i == 0xE0 then s.isr &&& ~~~writedataMask i
    else if s.isrClear i then s.isr &&& ~~~s.selectectedShiftedIsrFirstBits
    else if s.acknowledgeNotSpurious i && !s.autoEoi then s.isr ||| s.interruptVectorBits
    else s.isr
  interruptOffset := if s.initIcw2 i then i.ioWritedata.extractLsb' 3 5 else s.interruptOffset
  autoEoi := if initIcw1 i then false else if s.initIcw4 i then i.ioWritedata.getLsbD 1 else s.autoEoi
  irrSlave := if s.initIcw3 i then i.ioWritedata else s.irrSlave
  rotateOnAeoi :=
    if initIcw1 i then false
    else if ocw2 i && i.ioWritedata.extractLsb' 0 7 == 0 then i.ioWritedata.getLsbD 7 else s.rotateOnAeoi
  interruptDo :=
    if initIcw1 i then false else if s.acknowledge i then false else s.irq
  spurious :=
    if initIcw1 i then false
    else if s.spuriousStart i then true
    else if s.acknowledge i || s.irq then false else s.spurious
  slaveActive :=
    if initIcw1 i then false
    else if s.acknowledge i then false
    else if s.irq || s.interruptDo then s.irrSlave.getLsbD s.irqValue.toNat else s.slaveActive
  interruptVector :=
    if initIcw1 i then 0
    else if s.irq || s.interruptDo then s.interruptOffset ++ s.irqValue else s.interruptVector

def step : I8259 := if i.rstN then s.next i else reset

end I8259

/-! ## The pair -/

/-- The registers of `pic`. -/
structure Pic where
  mas : I8259
  sla : I8259
  ioReaddata : BitVec 8

/-- The inputs of `pic` in one clock. -/
structure PicIn where
  rstN : Bool
  ioAddress : Bool
  ioRead : Bool
  ioWrite : Bool
  ioWritedata : BitVec 8
  ioMasterCs : Bool
  ioSlaveCs : Bool
  interruptInput : BitVec 16
  interruptDone : Bool

namespace Pic

def reset : Pic := ⟨.reset, .reset, 0⟩

variable (p : Pic) (i : PicIn)

def slaSelect : Bool := p.mas.slaveActive && p.mas.vectorLevel == 2

def interruptDo : Bool := p.mas.interruptDo

def interruptVector : BitVec 8 :=
  if p.slaSelect then p.sla.interruptVector else p.mas.interruptVector

/-- The ports of `pic_mas`: the slave's request replaces input 2. -/
def masIn : I8259In where
  rstN := i.rstN
  ioAddress := i.ioAddress
  ioRead := i.ioRead && i.ioMasterCs
  ioWrite := i.ioWrite && i.ioMasterCs
  ioWritedata := i.ioWritedata
  interruptInput :=
    i.interruptInput.extractLsb' 3 5 ++ BitVec.ofBool p.sla.interruptDo ++ i.interruptInput.extractLsb' 0 2
  interruptDone := i.interruptDone

/-- The ports of `pic_sla`: it is acknowledged when the master's vector is the cascade's. -/
def slaIn : I8259In where
  rstN := i.rstN
  ioAddress := i.ioAddress
  ioRead := i.ioRead && i.ioSlaveCs
  ioWrite := i.ioWrite && i.ioSlaveCs
  ioWritedata := i.ioWritedata
  interruptInput := i.interruptInput.extractLsb' 8 8
  interruptDone := p.slaSelect && i.interruptDone

def step : Pic where
  mas := p.mas.step (p.masIn i)
  sla := p.sla.step (p.slaIn i)
  ioReaddata := if i.ioMasterCs then p.mas.ioReaddata (p.masIn i) else p.sla.ioReaddata (p.slaIn i)

end Pic

end Z486.Interrupt
