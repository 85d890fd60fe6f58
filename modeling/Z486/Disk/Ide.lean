/-
An IDE channel (src/soc/ide.v): the task file, which the guest and the host both write, and the sector buffer
between them, two RAMs of 4096 words that hold the even and the odd words. Each side has a pointer, which moves
on when its strobe falls.
-/
import Mathlib.Logic.Function.Basic
import Mathlib.Tactic.Common

namespace Z486.Disk

/-! ## A dual-port RAM -/

/-- A RAM of 4096 words with two registered ports (src/common/dpram.v). -/
structure IdeRam where
  mem : BitVec 12 → BitVec 16
  qA : BitVec 16
  qB : BitVec 16

/-- One port in a clock. -/
structure RamPort where
  address : BitVec 12
  data : BitVec 16
  wren : Bool
deriving DecidableEq, Repr

def IdeRam.step (s : IdeRam) (a b : RamPort) : IdeRam where
  mem :=
    let m := if a.wren then Function.update s.mem a.address a.data else s.mem
    if b.wren then Function.update m b.address b.data else m
  qA := if a.wren then s.qA else s.mem a.address
  qB := if b.wren then s.qB else s.mem b.address

/-! ## The channel -/

structure Ide where
  irq : Bool
  ioReaddata : BitVec 32
  ioWait : Bool
  request : BitVec 3
  mgmtReaddata : BitVec 16
  features : BitVec 8
  blkSize : BitVec 16
  error : BitVec 8
  sectorCount : BitVec 16
  sector : BitVec 16
  cylinder : BitVec 32
  drvAddr : BitVec 8
  cmd : BitVec 8
  status : BitVec 8
  lastRead : Bool
  fastRead : Bool
  hobEna : BitVec 2
  present : BitVec 2
  useWait : Bool
  disableIrq : Bool
  swReset : Bool
  hobPre : Bool
  hob : Bool
  ioCnt : BitVec 14
  oldStb : Bool
  r32 : Bool
  mgmtCnt : BitVec 14
  oldWr : Bool
  oldRd : Bool
  nDataR : BitVec 2
  ioBuf0 : IdeRam
  ioBuf1 : IdeRam

/-- The guest's side of a clock. -/
structure IdeIo where
  ioAddress : BitVec 4
  ioRead : Bool
  ioWrite : Bool
  ioWritedata : BitVec 32
  io32 : Bool
  useFast : Bool
deriving DecidableEq, Repr

/-- The host's side of a clock. -/
structure IdeMgmt where
  mgmtAddress : BitVec 4
  mgmtWrite : Bool
  mgmtWritedata : BitVec 16
  mgmtRead : Bool
deriving DecidableEq, Repr

/-- The host writes its register `a`. -/
def IdeMgmt.writes (h : IdeMgmt) (a : BitVec 4) : Bool := h.mgmtWrite && h.mgmtAddress == a

/-- The host writes a word of the buffer. -/
def IdeMgmt.writesData (h : IdeMgmt) : Bool := h.mgmtWrite && h.mgmtAddress == 15

namespace Ide

variable (s : Ide) (g : IdeIo) (h : IdeMgmt) (rstN : Bool)

def drq : Bool := s.status.getLsbD 3

def ioWr : Bool := g.ioWrite && s.present != 0

def reset : Bool := !rstN || s.swReset

/-- The guest writes its register `a`. -/
def guestWrites (a : BitVec 4) : Bool := s.ioWr g && g.ioAddress == a

def bufQ : BitVec 32 := s.ioBuf1.qB ++ s.ioBuf0.qB

def bufReaddata : BitVec 32 := s.ioBuf1.qA ++ s.ioBuf0.qA

/-! ### The data port -/

def writeDataIo : Bool := s.ioWr g && g.ioAddress == 0 && s.drq

def readDataIo : Bool := g.ioRead && g.ioAddress == 0 && s.drq

def ioDone : Bool := s.blkSize != 0 && s.blkSize.ule (s.ioCnt.setWidth 16)

def ioStb : Bool := s.readDataIo g || s.writeDataIo g

def ioCntNext : BitVec 14 :=
  if s.reset rstN then 0
  else if h.writes 5 then 0
  else if s.oldStb && !s.ioStb g then s.ioCnt + 1 + (BitVec.ofBool s.r32).setWidth 14
  else s.ioCnt

/-- A strobe of the host falls. -/
def mgmtFalls : Bool := (s.oldWr && !h.mgmtWrite) || (s.oldRd && !h.mgmtRead)

def mgmtCntNext : BitVec 14 :=
  if !rstN then 0
  else if s.mgmtFalls h then if h.mgmtAddress == 15 then s.mgmtCnt + 1 else 0
  else s.mgmtCnt

/-- The guest's pair of words is not in the buffer yet. -/
def nData : Bool := (s.mgmtCnt.extractLsb' 1 13).ule (s.ioCnt.extractLsb' 1 13) && s.drq && s.fastRead

def noData : Bool := s.nData || s.nDataR != 0

/-- The ports of the RAM of the even words, and of that of the odd ones. -/
def hostPort (odd : Bool) : RamPort where
  address := s.mgmtCnt.extractLsb' 1 12
  data := h.mgmtWritedata
  wren := h.writesData && s.mgmtCnt.getLsbD 0 == odd

def guestPort0 : RamPort where
  address := s.ioCnt.extractLsb' 1 12
  data := g.ioWritedata.extractLsb' 0 16
  wren := s.writeDataIo g && (g.io32 || !s.ioCnt.getLsbD 0)

def guestPort1 : RamPort where
  address := s.ioCnt.extractLsb' 1 12
  data := if g.io32 then g.ioWritedata.extractLsb' 16 16 else g.ioWritedata.extractLsb' 0 16
  wren := s.writeDataIo g && (g.io32 || s.ioCnt.getLsbD 0)

/-! ### The registers that the guest reads -/

/-- A byte of a two byte register. -/
def hobByte (w : BitVec 16) : BitVec 32 :=
  (if s.hob then w.extractLsb' 8 8 else w.extractLsb' 0 8).setWidth 32

/-- The data port: a pair of words, or the odd one in both halves. -/
def dataWord (io32 : Bool) : BitVec 32 :=
  s.ioBuf1.qB ++ if !io32 && s.ioCnt.getLsbD 0 then s.ioBuf1.qB else s.ioBuf0.qB

def ioReaddataNext : BitVec 32 :=
  if !g.ioRead then s.ioReaddata
  else if s.present = 0 then 0xFFFFFFFF
  else
    match g.ioAddress.toNat with
    | 0 => if s.status.getLsbD 3 then s.dataWord g.io32 else 0
    | 1 => s.error.setWidth 32
    | 2 => s.hobByte s.sectorCount
    | 3 => s.hobByte s.sector
    | 4 => (if s.hob then s.cylinder.extractLsb' 16 8 else s.cylinder.extractLsb' 0 8).setWidth 32
    | 5 => (if s.hob then s.cylinder.extractLsb' 24 8 else s.cylinder.extractLsb' 8 8).setWidth 32
    | 6 => s.drvAddr.setWidth 32
    | 7 => s.status.setWidth 32
    | 14 => s.status.setWidth 32
    | 15 => (0b10#2 ++ ~~~(s.drvAddr.extractLsb' 0 4) ++ ~~~(s.drvAddr.extractLsb' 4 1) ++
        s.drvAddr.extractLsb' 4 1).setWidth 32
    | _ => 0

/-! ### The registers that the host reads -/

def mgmtReaddataNext : BitVec 16 :=
  match h.mgmtAddress.toNat with
  | 0 => s.features ++ 0#6 ++ BitVec.ofBool g.useFast ++ BitVec.ofBool s.ioDone
  | 1 => s.sector.extractLsb' 0 8 ++ s.sectorCount.extractLsb' 0 8
  | 2 => s.cylinder.extractLsb' 0 16
  | 3 => s.sector.extractLsb' 8 8 ++ s.sectorCount.extractLsb' 8 8
  | 4 => s.cylinder.extractLsb' 16 16
  | 5 => s.cmd ++ s.drvAddr
  | _ => if s.mgmtCnt.getLsbD 0 then s.bufReaddata.extractLsb' 16 16 else s.bufReaddata.extractLsb' 0 16

/-! ### The task file -/

def featuresNext : BitVec 8 :=
  if !rstN then 0 else if s.guestWrites g 1 then g.ioWritedata.extractLsb' 0 8 else s.features

def blkSizeNext : BitVec 16 :=
  if !rstN then 0
  else if h.writes 0 then h.mgmtWritedata.extractLsb' 0 8 ++ 0#8
  else if h.writes 4 && s.blkSize.getLsbD 15 then h.mgmtWritedata
  else s.blkSize

def errorNext : BitVec 8 :=
  if !rstN then 0 else if h.writes 0 then h.mgmtWritedata.extractLsb' 8 8 else s.error

def sectorCountNext : BitVec 16 :=
  if !rstN then 1
  else if h.writes 1 then s.sectorCount.extractLsb' 8 8 ++ h.mgmtWritedata.extractLsb' 0 8
  else if h.writes 3 then h.mgmtWritedata.extractLsb' 0 8 ++ s.sectorCount.extractLsb' 0 8
  else if s.guestWrites g 2 then s.sectorCount.extractLsb' 0 8 ++ g.ioWritedata.extractLsb' 0 8
  else s.sectorCount

def sectorNext : BitVec 16 :=
  if !rstN then 1
  else if h.writes 1 then s.sector.extractLsb' 8 8 ++ h.mgmtWritedata.extractLsb' 8 8
  else if h.writes 3 then h.mgmtWritedata.extractLsb' 8 8 ++ s.sector.extractLsb' 0 8
  else if s.guestWrites g 3 then s.sector.extractLsb' 0 8 ++ g.ioWritedata.extractLsb' 0 8
  else s.sector

/-- Bytes 3 to 0 of the cylinder. -/
def cylinderOf (b3 b2 b1 b0 : BitVec 8) : BitVec 32 := b3 ++ b2 ++ b1 ++ b0

def cylinderNext : BitVec 32 :=
  let byte := fun k => s.cylinder.extractLsb' (8 * k) 8
  if !rstN then 0xFFFFFFFF
  else if h.writes 2 then s.cylinder.extractLsb' 16 16 ++ h.mgmtWritedata
  else if h.writes 4 then h.mgmtWritedata ++ s.cylinder.extractLsb' 0 16
  else if s.guestWrites g 4 then cylinderOf (byte 3) (byte 0) (byte 1) (g.ioWritedata.extractLsb' 0 8)
  else if s.guestWrites g 5 then cylinderOf (byte 1) (byte 2) (g.ioWritedata.extractLsb' 0 8) (byte 0)
  else s.cylinder

def drvAddrNext : BitVec 8 :=
  if !rstN then 0
  else if h.writes 5 then h.mgmtWritedata.extractLsb' 0 8
  else if s.guestWrites g 6 then g.ioWritedata.extractLsb' 0 8
  else s.drvAddr

def cmdNext : BitVec 8 :=
  if !rstN then 0 else if s.guestWrites g 7 then g.ioWritedata.extractLsb' 0 8 else s.cmd

/-- The status that the host writes. -/
def hostStatus : BitVec 8 :=
  h.mgmtWritedata.extractLsb' 14 2 ++ 0#1 ++ h.mgmtWritedata.extractLsb' 11 2 ++ 0#2 ++ h.mgmtWritedata.extractLsb' 8 1

def statusNext : BitVec 8 :=
  if s.reset rstN then 0x80
  else if h.writes 5 then hostStatus h
  else if s.guestWrites g 7 then 0x80
  else if s.ioDone && s.drq && s.lastRead then 0x40
  else if s.ioDone && s.drq then 0x80
  else s.status

def lastReadNext : Bool :=
  if s.reset rstN then false
  else if h.writes 5 then h.mgmtWritedata.getLsbD 9
  else if s.ioDone && s.drq then false
  else s.lastRead

def fastReadNext : Bool :=
  if s.reset rstN then false
  else if h.writes 5 then h.mgmtWritedata.getLsbD 13
  else if s.ioDone && s.drq then false
  else s.fastRead

def ioWaitNext : Bool :=
  if !rstN then false
  else if s.swReset then s.useWait
  else if h.writes 5 then false
  else if s.guestWrites g 7 then s.useWait
  else if s.ioDone && s.drq then s.useWait
  else s.ioWait

def requestNext : BitVec 3 :=
  if s.reset rstN then 0b110
  else if h.writes 5 then 0
  else if s.guestWrites g 7 then 0b100
  else if s.ioDone && s.drq && !s.lastRead then 0b101
  else s.request

def irqNext : Bool :=
  if s.reset rstN then false
  else if h.writes 5 && h.mgmtWritedata.getLsbD 10 && !s.disableIrq then true
  else if (g.ioRead || s.ioWr g) && g.ioAddress == 7 then false
  else s.irq

/-- The flag of each drive that the host sets for it, at bit `k` of its word. -/
def driveFlags (flags : BitVec 2) (k : Nat) : BitVec 2 :=
  let d0 := h.writes 6 && h.mgmtWritedata.getLsbD 3
  let d1 := h.writes 6 && h.mgmtWritedata.getLsbD 7
  BitVec.ofBool (if d1 then h.mgmtWritedata.getLsbD (k + 4) else flags.getLsbD 1) ++
    BitVec.ofBool (if d0 then h.mgmtWritedata.getLsbD k else flags.getLsbD 0)

def step : Ide where
  irq := s.irqNext g h rstN
  ioReaddata := s.ioReaddataNext g
  ioWait := s.ioWaitNext g h rstN
  request := s.requestNext g h rstN
  mgmtReaddata := s.mgmtReaddataNext g h
  features := s.featuresNext g rstN
  blkSize := s.blkSizeNext h rstN
  error := s.errorNext h rstN
  sectorCount := s.sectorCountNext g h rstN
  sector := s.sectorNext g h rstN
  cylinder := s.cylinderNext g h rstN
  drvAddr := s.drvAddrNext g h rstN
  cmd := s.cmdNext g rstN
  status := s.statusNext g h rstN
  lastRead := s.lastReadNext h rstN
  fastRead := s.fastReadNext h rstN
  hobEna := driveFlags h s.hobEna 1
  present := driveFlags h s.present 0
  useWait := if h.writes 6 && h.mgmtWritedata.getLsbD 9 then h.mgmtWritedata.getLsbD 8 else s.useWait
  disableIrq := if s.reset rstN then false else if s.guestWrites g 14 then g.ioWritedata.getLsbD 1 else s.disableIrq
  swReset := if !rstN then false else if s.guestWrites g 14 then g.ioWritedata.getLsbD 2 else s.swReset
  hobPre := if s.reset rstN then false else if s.guestWrites g 14 then g.ioWritedata.getLsbD 7 else s.hobPre
  hob := s.hobPre && s.hobEna.getLsbD (if s.drvAddr.getLsbD 4 then 1 else 0)
  ioCnt := s.ioCntNext g h rstN
  oldStb := s.ioStb g
  r32 := if s.ioStb g then g.io32 else s.r32
  mgmtCnt := s.mgmtCntNext h rstN
  oldWr := h.mgmtWrite
  oldRd := h.mgmtRead
  nDataR := s.nDataR.extractLsb' 0 1 ++ BitVec.ofBool s.nData
  ioBuf0 := s.ioBuf0.step (s.hostPort h false) (s.guestPort0 g)
  ioBuf1 := s.ioBuf1.step (s.hostPort h true) (s.guestPort1 g)

end Ide

end Z486.Disk
