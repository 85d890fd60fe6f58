/-
The DMA system (src/soc/dma.v, module dma, and its port to the memory in src/system.sv): two 8237 controllers, the page
registers, the arbiter that grants one channel at a time, the registers of the request to the memory, and the hold
register that keeps a request until the memory accepts it.
-/
import Z486.Clocked.Fifo
import Z486.Dma.I8237

namespace Z486.Dma

/-! ## Ports and registers -/

/-- The slave has the channels 0 to 3 of 8 bits, the master the channels 5 to 7 of 16 bits. -/
inductive Chip where
  | sla
  | mas
deriving DecidableEq, Repr

/-- The inputs of a clock. A bit 0 of `masReq` stands for an input of the master that nothing is connected to. -/
structure DmaIn where
  rstN : Bool
  ioAddress : BitVec 5
  ioRead : Bool
  ioWrite : Bool
  ioWritedata : BitVec 8
  ioMasterCs : Bool
  ioSlaveCs : Bool
  ioPageCs : Bool
  slaReq : BitVec 4
  masReq : BitVec 4
  slaWritedata : Fin 4 → BitVec 8
  masWritedata : Fin 4 → BitVec 16
  memReady : Bool
  memRespValid : Bool
  memDout : BitVec 32

structure DmaSystem where
  sla : I8237
  mas : I8237
  page : Chip → Fin 4 → BitVec 8
  memAddress : BitVec 24
  mem16bit : Bool
  memRead : Bool
  memWrite : Bool
  memWritedata : BitVec 16
  heldValid : Bool
  heldWr : Bool
  heldAddr : BitVec 24
  heldData : BitVec 16
  held16bit : Bool
  memWr : Bool

/-- A request on the memory's port. -/
structure MemRequest where
  addr : BitVec 24
  be : BitVec 4
  din : BitVec 32
  write : Bool
deriving DecidableEq, Repr

/-- What a channel asks of the memory. -/
structure MemOp where
  addr : BitVec 24
  wide : Bool
  write : Bool
  data : BitVec 16
deriving DecidableEq, Repr

namespace MemOp

variable (o : MemOp)

def request : MemRequest where
  addr := o.addr
  be := if o.wide then if o.addr.getLsbD 1 then 0b1100 else 0b0011 else 1#4 <<< o.addr.extractLsb' 0 2
  din :=
    if o.wide then if o.addr.getLsbD 1 then o.data ++ 0#16 else 0#16 ++ o.data
    else (0#24 ++ o.data.extractLsb' 0 8) <<< (o.addr.extractLsb' 0 2 ++ 0#3)
  write := o.write

/-- The byte or the word of the memory's answer that the address selects. -/
def lane (dout : BitVec 32) : BitVec 16 :=
  if o.wide then if o.addr.getLsbD 1 then dout.extractLsb' 16 16 else dout.extractLsb' 0 16
  else if o.addr.getLsbD 1 then 0#8 ++ if o.addr.getLsbD 0 then dout.extractLsb' 24 8 else dout.extractLsb' 16 8
  else 0#8 ++ if o.addr.getLsbD 0 then dout.extractLsb' 8 8 else dout.extractLsb' 0 8

end MemOp

namespace DmaIn

variable (i : DmaIn)

/-- The address of the page register of a channel. -/
def pageAddress : Chip → Fin 4 → BitVec 4
  | .sla, 0 => 0x7
  | .sla, 1 => 0x3
  | .sla, 2 => 0x1
  | .sla, 3 => 0x2
  | .mas, 0 => 0xF
  | .mas, 1 => 0xB
  | .mas, 2 => 0x9
  | .mas, 3 => 0xA

def writesPage (k : Chip) (c : Fin 4) : Bool :=
  i.ioWrite && i.ioPageCs && i.ioAddress.extractLsb' 0 4 == pageAddress k c

/-- The data of a channel for the memory. -/
def chWritedata : Chip → Fin 4 → BitVec 16
  | .sla, c => (i.slaWritedata c).setWidth 16
  | .mas, c => i.masWritedata c

end DmaIn

namespace DmaSystem

variable (s : DmaSystem) (i : DmaIn)

def chip : Chip → I8237
  | .sla => s.sla
  | .mas => s.mas

/-! ## The arbiter -/

/-- A transfer of the chip is under way. -/
def busy (k : Chip) : Bool := (s.chip k).state != .idle

def slaMute : Bool := s.sla.disabled || s.mas.disabled || s.mas.mask.getLsbD 0

def masMute : Bool := s.mas.disabled

def chReq : BitVec 8 :=
  if s.busy .sla || s.busy .mas then 0b00000000
  else if s.sla.req.getLsbD 0 && !s.slaMute then 0b00000001
  else if s.sla.req.getLsbD 1 && !s.slaMute then 0b00000010
  else if s.sla.req.getLsbD 2 && !s.slaMute then 0b00000100
  else if s.sla.req.getLsbD 3 && !s.slaMute then 0b00001000
  else if s.mas.req.getLsbD 1 && !s.masMute then 0b00100000
  else if s.mas.req.getLsbD 2 && !s.masMute then 0b01000000
  else if s.mas.req.getLsbD 3 && !s.masMute then 0b10000000
  else 0b00000000

/-! ## The memory's port -/

/-- What the hold register asks for. -/
def held : MemOp where
  addr := s.heldAddr
  wide := s.held16bit
  write := s.heldWr
  data := s.heldData

def waitrequest : Bool := s.heldValid && !i.memReady

def readdatavalid : Bool := i.memRespValid && !s.memWr

def readdata : BitVec 16 := s.held.lane i.memDout

/-- The inputs of a chip. -/
def chipIn : Chip → I8237In
  | .sla => {
      rstN := i.rstN
      address := i.ioAddress.extractLsb' 0 4
      write := i.ioWrite && i.ioSlaveCs
      writedata := i.ioWritedata
      read := i.ioRead && i.ioSlaveCs
      dmaReaddata := s.readdata i
      dmaReaddatavalid := s.readdatavalid i
      dmaWaitrequest := s.waitrequest i
      chReq := s.chReq.extractLsb' 0 4
      chWritedata := i.chWritedata .sla
      chPending := i.slaReq }
  | .mas => {
      rstN := i.rstN
      address := i.ioAddress.extractLsb' 1 4
      write := i.ioWrite && i.ioMasterCs
      writedata := i.ioWritedata
      read := i.ioRead && i.ioMasterCs
      dmaReaddata := s.readdata i
      dmaReaddatavalid := s.readdatavalid i
      dmaWaitrequest := s.waitrequest i
      chReq := s.chReq.extractLsb' 4 4
      chWritedata := i.chWritedata .mas
      chPending := i.masReq }

/-! ## A clock -/

/-- The hold register takes a request. -/
def captures : Bool := !(s.heldValid && i.memReady) && (s.memRead || s.memWrite) && !s.heldValid

/-- The page of the channel that is being served; channel 0 of the master is never. -/
def masPage : BitVec 7 :=
  if s.mas.active == 1 then (s.page .mas 1).extractLsb' 1 7
  else if s.mas.active == 2 then (s.page .mas 2).extractLsb' 1 7
  else if s.mas.active == 3 then (s.page .mas 3).extractLsb' 1 7
  else s.memAddress.extractLsb' 17 7

def step : DmaSystem where
  sla := s.sla.step (s.chipIn i .sla)
  mas := s.mas.step (s.chipIn i .mas)
  page k c := if !i.rstN then 0 else if i.writesPage k c then i.ioWritedata else s.page k c
  memAddress :=
    if s.busy .mas then s.masPage ++ (s.mas.dmaAddress ++ 0#1)
    else if s.busy .sla then s.page .sla s.sla.active ++ s.sla.dmaAddress
    else s.memAddress
  mem16bit := if s.busy .mas then true else if s.busy .sla then false else s.mem16bit
  memRead := if s.busy .mas then s.mas.dmaRead else if s.busy .sla then s.sla.dmaRead else false
  memWrite := if s.busy .mas then s.mas.dmaWrite else if s.busy .sla then s.sla.dmaWrite else false
  memWritedata :=
    if s.busy .mas then s.mas.dmaWritedata else if s.busy .sla then s.sla.dmaWritedata else s.memWritedata
  heldValid :=
    if !i.rstN then false
    else if s.heldValid && i.memReady then false
    else if (s.memRead || s.memWrite) && !s.heldValid then true
    else s.heldValid
  heldWr := if i.rstN && s.captures i then s.memWrite else s.heldWr
  heldAddr := if i.rstN && s.captures i then s.memAddress else s.heldAddr
  heldData := if i.rstN && s.captures i then s.memWritedata else s.heldData
  held16bit := if i.rstN && s.captures i then s.mem16bit else s.held16bit
  memWr := if !i.rstN then false else if i.memReady then s.heldWr else s.memWr

/-- The registers after a reset of some clocks. -/
def reset : DmaSystem :=
  { s with
    sla := s.sla.reset
    mas := s.mas.reset
    page := fun _ _ => 0
    memRead := false
    memWrite := false
    heldValid := false
    memWr := false }

end DmaSystem

end Z486.Dma
