/-
An access of the guest to the data port of an IDE channel, clock by clock. The block is seen here as an access leaves
it: the words of the buffer, the pointers, and the registers that the end of a block changes. From the port at rest an
access has its strobe up in the next clock, the pointer moves on when the strobe falls, and a block that is done is
closed a clock after that.
-/
import Z486.IoBus.Cycles
import Z486.Disk.IdeReads

namespace Z486.Disk

open IoBus (Adapter AdapterState CpuIo Peripheral)

/-! ## The block and its accesses -/

/-- The buffer with the pointers into it, and what changes when the block is done. -/
@[ext]
structure IdeBlock where
  even : BitVec 12 → BitVec 16
  odd : BitVec 12 → BitVec 16
  ioCnt : BitVec 14
  mgmtCnt : BitVec 14
  blkSize : BitVec 16
  status : BitVec 8
  request : BitVec 3
  lastRead : Bool
  fastRead : Bool
  ioWait : Bool
  useWait : Bool

/-- An access of the guest to the data port: a read, or a write of `data`. -/
structure DataAccess where
  wide : Bool
  write : Bool
  data : BitVec 32
deriving DecidableEq, Repr

def DataAccess.cpuBe (x : DataAccess) : BitVec 4 := if x.wide then 0b1111 else 0b0011

/-- The CPU's cycle is the access `x`. -/
structure DataAccess.AskedBy (x : DataAccess) (c : CpuIo) : Prop where
  port : c.basePort = 0x01F0
  be : c.cpuBe = x.cpuBe
  rd : c.cpuIoRd = !x.write
  din : x.write = true → c.cpuDin = x.data

namespace IdeBlock

variable (b : IdeBlock) (x : DataAccess)

def drq : Bool := b.status.getLsbD 3

def done : Bool := b.blkSize != 0 && b.blkSize.ule (b.ioCnt.setWidth 16)

/-- The pair of words that the guest's pointer is in, and whether it is at the second one. -/
def pair : BitVec 12 := b.ioCnt.extractLsb' 1 12

def atOdd : Bool := b.ioCnt.getLsbD 0

/-- A read would get ahead of the host. -/
def ahead : Bool := (b.mgmtCnt.extractLsb' 1 13).ule (b.ioCnt.extractLsb' 1 13) && b.drq && b.fastRead

/-- The word that a read finds on the data port. -/
def answer : BitVec 32 :=
  if b.drq then b.odd b.pair ++ if !x.wide && b.atOdd then b.odd b.pair else b.even b.pair else 0

def stores : IdeBlock :=
  if x.write then
    { b with
      even := if x.wide || !b.atOdd then Function.update b.even b.pair (x.data.extractLsb' 0 16) else b.even
      odd :=
        if x.wide || b.atOdd then
          Function.update b.odd b.pair (if x.wide then x.data.extractLsb' 16 16 else x.data.extractLsb' 0 16)
        else b.odd }
  else b

def moves : IdeBlock := { b with ioCnt := b.ioCnt + 1 + (BitVec.ofBool x.wide).setWidth 14 }

/-- A block that is done is closed. -/
def closes : IdeBlock :=
  if b.done && b.drq then
    { b with
      status := if b.lastRead then 0x40 else 0x80
      lastRead := false
      fastRead := false
      ioWait := b.useWait
      request := if b.lastRead then b.request else 0b101 }
  else b

/-- What an access makes of the block. -/
def access : IdeBlock := if b.drq then ((b.stores x).moves x).closes else b

/-- The words and the pointers stay when a block is closed. -/
theorem closes_words : b.closes.even = b.even ∧ b.closes.odd = b.odd ∧ b.closes.ioCnt = b.ioCnt ∧
    b.closes.mgmtCnt = b.mgmtCnt ∧ b.closes.blkSize = b.blkSize ∧ b.closes.useWait = b.useWait := by
  rw [closes]
  split <;> exact ⟨rfl, rfl, rfl, rfl, rfl, rfl⟩

end IdeBlock

/-- The block of a channel. -/
def Ide.block (s : Ide) : IdeBlock where
  even := s.ioBuf0.mem
  odd := s.ioBuf1.mem
  ioCnt := s.ioCnt
  mgmtCnt := s.mgmtCnt
  blkSize := s.blkSize
  status := s.status
  request := s.request
  lastRead := s.lastRead
  fastRead := s.fastRead
  ioWait := s.ioWait
  useWait := s.useWait

/-! ## One clock of the channel -/

namespace Ide

variable {s : Ide} {g : IdeIo} {h : IdeMgmt}

/-- The host does nothing, and the guest nothing but accesses to the data port of a drive that is there. -/
structure DataCycle (s : Ide) (g : IdeIo) (h : IdeMgmt) : Prop where
  noWrite : h.mgmtWrite = false
  noRead : h.mgmtRead = false
  oldWr : s.oldWr = false
  oldRd : s.oldRd = false
  noSwReset : s.swReset = false
  present : s.present ≠ 0
  address : g.ioWrite = true → g.ioAddress = 0

namespace DataCycle

variable (hd : s.DataCycle g h)
include hd

theorem writes (a : BitVec 4) : h.writes a = false := by
  rw [IdeMgmt.writes, hd.noWrite]
  rfl

theorem ioWr : s.ioWr g = g.ioWrite := by
  rw [Ide.ioWr, bne_iff_ne.2 hd.present, Bool.and_true]

theorem guestWrites {a : BitVec 4} (ha : a ≠ 0) : s.guestWrites g a = false := by
  rw [Ide.guestWrites, hd.ioWr]
  cases hw : g.ioWrite with
  | false => rfl
  | true => rw [hd.address hw, beq_eq_false_iff_ne.2 ha.symm, Bool.and_false]

theorem reset : s.reset true = false := by
  rw [Ide.reset, hd.noSwReset]
  rfl

theorem mgmtCnt_step : (s.step g h true).mgmtCnt = s.mgmtCnt := by
  rw [Ide.mgmtCnt_step hd.noRead hd.oldRd, hd.oldWr]
  rfl

/-- The registers of a block are closed when it is done, whatever the guest does. -/
theorem closes_step : (s.step g h true).status = s.block.closes.status ∧
    (s.step g h true).request = s.block.closes.request ∧ (s.step g h true).lastRead = s.block.closes.lastRead ∧
    (s.step g h true).fastRead = s.block.closes.fastRead ∧ (s.step g h true).ioWait = s.block.closes.ioWait := by
  have hstatus : (s.step g h true).status = s.statusNext g h true := rfl
  have hrequest : (s.step g h true).request = s.requestNext g h true := rfl
  have hlast : (s.step g h true).lastRead = s.lastReadNext h true := rfl
  have hfast : (s.step g h true).fastRead = s.fastReadNext h true := rfl
  have hwait : (s.step g h true).ioWait = s.ioWaitNext g h true := rfl
  have hover : (s.block.done && s.block.drq) = (s.ioDone && s.drq) := rfl
  rw [hstatus, hrequest, hlast, hfast, hwait, statusNext, requestNext, lastReadNext, fastReadNext, ioWaitNext, hd.reset,
    hd.writes 5, hd.guestWrites (show (7 : BitVec 4) ≠ 0 by decide), hd.noSwReset, IdeBlock.closes, hover]
  cases s.ioDone && s.drq with
  | false => exact ⟨rfl, rfl, rfl, rfl, rfl⟩
  | true =>
    cases hl : s.lastRead with
    | false => simp [Ide.block, hl]
    | true => simp [Ide.block, hl]

/-- What never changes. -/
theorem stays : (s.step g h true).present = s.present ∧ (s.step g h true).swReset = false ∧
    (s.step g h true).blkSize = s.blkSize ∧ (s.step g h true).useWait = s.useWait ∧
    (s.step g h true).oldWr = false ∧ (s.step g h true).oldRd = false := by
  refine ⟨driveFlags_of_no_write (hd.writes 6) _ _, ?_, ?_, ?_, hd.noWrite, hd.noRead⟩
  · show (if !true then false else if s.guestWrites g 14 then g.ioWritedata.getLsbD 2 else s.swReset) = false
    rw [hd.guestWrites (by decide), hd.noSwReset]
    rfl
  · show s.blkSizeNext h true = s.blkSize
    rw [blkSizeNext, hd.writes 0, hd.writes 4]
    rfl
  · show (if h.writes 6 && h.mgmtWritedata.getLsbD 9 then h.mgmtWritedata.getLsbD 8 else s.useWait) = s.useWait
    rw [hd.writes 6]
    rfl

/-- The words after a clock, and what the RAMs put out for the guest. -/
theorem words_step : (s.step g h true).ioBuf0.mem = (if (s.guestPort0 g).wren then
      Function.update s.ioBuf0.mem (s.guestPort0 g).address (s.guestPort0 g).data else s.ioBuf0.mem) ∧
    (s.step g h true).ioBuf1.mem = (if (s.guestPort1 g).wren then
      Function.update s.ioBuf1.mem (s.guestPort1 g).address (s.guestPort1 g).data else s.ioBuf1.mem) := by
  have hhost : ∀ odd, (s.hostPort h odd).wren = false := by
    intro odd
    show (h.mgmtWrite && _ && _) = false
    rw [hd.noWrite]
    rfl
  have h0 : (s.step g h true).ioBuf0 = s.ioBuf0.step (s.hostPort h false) (s.guestPort0 g) := rfl
  have h1 : (s.step g h true).ioBuf1 = s.ioBuf1.step (s.hostPort h true) (s.guestPort1 g) := rfl
  rw [h0, h1, IdeRam.step, IdeRam.step, hhost, hhost]
  exact ⟨rfl, rfl⟩

/-- A clock without a strobe. -/
theorem block_idle (hread : g.ioRead = false) (hwrite : g.ioWrite = false) : (s.step g h true).block =
      (if s.oldStb then s.block.closes.moves ⟨s.r32, false, 0⟩ else s.block.closes) ∧
    (s.step g h true).oldStb = false ∧ (s.step g h true).ioReaddata = s.ioReaddata ∧
    (s.step g h true).ioBuf0.qB = s.block.even s.block.pair ∧ (s.step g h true).ioBuf1.qB = s.block.odd s.block.pair := by
  have hwr : s.writeDataIo g = false := by rw [writeDataIo, hd.ioWr, hwrite]; rfl
  have hrd : s.readDataIo g = false := by rw [readDataIo, hread]; rfl
  have hstb : s.ioStb g = false := by rw [ioStb, hrd, hwr]; rfl
  have hw0 : (s.guestPort0 g).wren = false := by rw [guestPort0, hwr]; rfl
  have hw1 : (s.guestPort1 g).wren = false := by rw [guestPort1, hwr]; rfl
  obtain ⟨heven, hodd⟩ := hd.words_step
  obtain ⟨hstatus, hrequest, hlast, hfast, hwait⟩ := hd.closes_step
  obtain ⟨-, -, hblk, huse, -, -⟩ := hd.stays
  have hcnt : (s.step g h true).ioCnt = if s.oldStb then s.ioCnt + 1 + (BitVec.ofBool s.r32).setWidth 14 else s.ioCnt := by
    show s.ioCntNext g h true = _
    rw [ioCntNext, hd.reset, hd.writes 5, hstb, Bool.not_false, Bool.and_true]
    rfl
  refine ⟨?_, ?_, ?_, ?_, ?_⟩
  · obtain ⟨heven', hodd', hcnt', hmgmt', hblk', huse'⟩ := IdeBlock.closes_words s.block
    rw [Ide.block, heven, hodd, hw0, hw1, hcnt, hd.mgmtCnt_step, hblk, hstatus, hrequest, hlast, hfast, hwait, huse]
    cases s.oldStb with
    | false => exact IdeBlock.ext heven'.symm hodd'.symm hcnt'.symm hmgmt'.symm hblk'.symm rfl rfl rfl rfl rfl huse'.symm
    | true =>
      refine IdeBlock.ext heven'.symm hodd'.symm ?_ hmgmt'.symm hblk'.symm rfl rfl rfl rfl rfl huse'.symm
      show _ = s.block.closes.ioCnt + 1 + _
      rw [hcnt']
      rfl
  · exact hstb
  · show s.ioReaddataNext g = _
    rw [ioReaddataNext, hread]
    rfl
  · show (if (s.guestPort0 g).wren = true then _ else _) = _
    rw [hw0]
    rfl
  · show (if (s.guestPort1 g).wren = true then _ else _) = _
    rw [hw1]
    rfl

/-- The strobe of an access, in a block that is not done. -/
theorem block_strobe (x : DataAccess) (hread : g.ioRead = !x.write) (hwrite : g.ioWrite = x.write)
    (haddress : g.ioAddress = 0) (hwide : g.io32 = x.wide) (hdata : x.write = true → g.ioWritedata = x.data)
    (hold : s.oldStb = false) (hopen : (s.block.done && s.block.drq) = false) :
    (s.step g h true).block = (if s.block.drq then s.block.stores x else s.block) ∧
      (s.step g h true).oldStb = s.block.drq ∧ (s.block.drq = true → (s.step g h true).r32 = x.wide) ∧
      (x.write = false → s.ioBuf0.qB = s.block.even s.block.pair → s.ioBuf1.qB = s.block.odd s.block.pair →
        (s.step g h true).ioReaddata = s.block.answer x) := by
  have hwr : s.writeDataIo g = (x.write && s.block.drq) := by
    rw [writeDataIo, hd.ioWr, hwrite, haddress]
    show (x.write && true && _) = _
    rw [Bool.and_true]
    rfl
  have hstb : s.ioStb g = s.block.drq := by
    rw [ioStb, hwr, readDataIo, hread, haddress]
    show (!x.write && true && s.block.drq || _) = _
    cases x.write <;> simp
  have hcloses : s.block.closes = s.block := by
    rw [IdeBlock.closes, hopen]
    rfl
  obtain ⟨heven, hodd⟩ := hd.words_step
  obtain ⟨hstatus, hrequest, hlast, hfast, hwait⟩ := hd.closes_step
  rw [hcloses] at hstatus hrequest hlast hfast hwait
  obtain ⟨-, -, hblk, huse, -, -⟩ := hd.stays
  have hcnt : (s.step g h true).ioCnt = s.ioCnt := by
    show s.ioCntNext g h true = _
    rw [ioCntNext, hd.reset, hd.writes 5, hold]
    rfl
  have hr32 : (s.step g h true).r32 = if s.ioStb g then g.io32 else s.r32 := rfl
  refine ⟨?_, hstb, fun hdrq => ?_, fun hw h0 h1 => ?_⟩
  · have hw0 : (s.guestPort0 g).wren = (x.write && s.block.drq && (x.wide || !s.block.atOdd)) := by
      rw [guestPort0, hwr, hwide]
      rfl
    have hw1 : (s.guestPort1 g).wren = (x.write && s.block.drq && (x.wide || s.block.atOdd)) := by
      rw [guestPort1, hwr, hwide]
      rfl
    have hd0 : x.write = true → (s.guestPort0 g).data = x.data.extractLsb' 0 16 := by
      intro hw
      rw [guestPort0, hdata hw]
    have hd1 : x.write = true →
        (s.guestPort1 g).data = if x.wide then x.data.extractLsb' 16 16 else x.data.extractLsb' 0 16 := by
      intro hw
      rw [guestPort1, hwide, hdata hw]
    have hstay : (s.step g h true).block =
        { s.block with even := (s.step g h true).ioBuf0.mem, odd := (s.step g h true).ioBuf1.mem } :=
      IdeBlock.ext rfl rfl hcnt hd.mgmtCnt_step hblk hstatus hrequest hlast hfast hwait huse
    rw [hstay, heven, hodd, hw0, hw1, IdeBlock.stores]
    cases hw : x.write with
    | false => cases s.block.drq <;> rfl
    | true =>
      rw [hd0 hw, hd1 hw]
      cases s.block.drq <;> rfl
  · rw [hr32, hstb, hdrq, hwide]
    rfl
  · show s.ioReaddataNext g = _
    rw [ioReaddataNext, hread, hw, if_neg (by simp), if_neg hd.present, haddress]
    show (if s.block.drq = true then s.dataWord g.io32 else 0) = _
    rw [dataWord, hwide, h0, h1]
    rfl

end DataCycle

end Ide

/-! ## One clock of the port -/

/-- Nothing is reset, and the host does nothing. -/
structure IdePortIn.Silent (i : IdePortIn) : Prop where
  rstN : i.rstN = true
  ide0ResetN : i.ide0ResetN = true
  noWrite : i.mgmt.mgmtWrite = false
  noRead : i.mgmt.mgmtRead = false

namespace IdePort

/-- What holds throughout: a drive is there, the host is at rest, and no strobe is held. -/
structure Calm (s : IdePort) : Prop where
  wait0 : s.ide0Wait = false
  wait1 : s.ide1Wait = false
  noSwReset : s.ide0.swReset = false
  present : s.ide0.present ≠ 0
  oldWr : s.ide0.oldWr = false
  oldRd : s.ide0.oldRd = false

/-- No cycle is under way, and the block is open or closed for good. -/
structure AtRest (s : IdePort) (b : IdeBlock) : Prop extends Calm s where
  idle : s.adapter.state = .idle
  noStrobe : NoStrobe s.adapter
  oldStb : s.ide0.oldStb = false
  block : s.ide0.block = b
  settled : (b.done && b.drq) = false

/-- The access `x` has its strobe up. -/
structure Strobes (s : IdePort) (x : DataAccess) (b : IdeBlock) : Prop extends Calm s where
  state : s.adapter.state = .ide32
  ioRead : s.adapter.ioRead = false
  ioWrite : s.adapter.ioWrite = false
  ideRead : s.adapter.ideRead = !x.write
  ideWrite : s.adapter.ideWrite = x.write
  ideAddress : s.adapter.ideAddress = 0
  ide32 : s.adapter.ide32 = x.wide
  isRead : s.adapter.isRead = !x.write
  data : x.write = true → s.adapter.ideWritedata = x.data
  cs0 : s.ide0Cs = true
  cs1 : s.ide1Cs = false
  oldStb : s.ide0.oldStb = false
  even : s.ide0.ioBuf0.qB = b.even b.pair
  odd : s.ide0.ioBuf1.qB = b.odd b.pair
  block : s.ide0.block = b
  settled : (b.done && b.drq) = false

/-- The strobe of `x` falls. -/
structure Falls (s : IdePort) (x : DataAccess) (b : IdeBlock) : Prop extends Calm s where
  state : s.adapter.state = .ide32w
  noStrobe : NoStrobe s.adapter
  isRead : s.adapter.isRead = !x.write
  cs0 : s.ide0Cs = true
  oldStb : s.ide0.oldStb = b.drq
  r32 : b.drq = true → s.ide0.r32 = x.wide
  answer : x.write = false → s.ide0.ioReaddata = b.answer x
  block : s.ide0.block = if b.drq then b.stores x else b
  settled : (b.done && b.drq) = false

/-- The access `x` is answered. -/
structure Answered (s : IdePort) (x : DataAccess) (b : IdeBlock) : Prop extends Calm s where
  ready : s.adapter.cpuIoReady = true
  answer : x.write = false → s.adapter.cpuDout = b.answer x
  idle : s.adapter.state = .idle
  active : s.adapter.wasActive = true
  noStrobe : NoStrobe s.adapter
  oldStb : s.ide0.oldStb = false
  block : s.ide0.block = if b.drq then (b.stores x).moves x else b

/-- No read is ahead of the host. -/
structure Unheld (s : IdePort) : Prop where
  now : s.ide0.block.ahead = false
  before : s.ide0.nDataR = 0

variable {s : IdePort} {i : IdePortIn} {x : DataAccess} {b : IdeBlock}

theorem Calm.dataCycle (hc : s.Calm) (hi : i.Silent) (haddress : s.ide0Io.ioWrite = true → s.ide0Io.ioAddress = 0) :
    s.ide0.DataCycle s.ide0Io i.mgmt :=
  ⟨hi.noWrite, hi.noRead, hc.oldWr, hc.oldRd, hc.noSwReset, hc.present, haddress⟩

theorem ide0_step (hi : i.Silent) : (s.step i).ide0 = s.ide0.step s.ide0Io i.mgmt true := by
  rw [step, hi.ide0ResetN]

theorem adapter_step (hi : i.Silent) : (s.step i).adapter = s.adapter.step i.cpu (s.peripheral i) true := by
  rw [step, hi.rstN]

/-- A clock in which no read is held leaves the port calm. -/
theorem Calm.step (hc : s.Calm) (hi : i.Silent) (haddress : s.ide0Io.ioWrite = true → s.ide0Io.ioAddress = 0)
    (h0 : (s.adapter.ideRead && s.ide0Nodata) = false) (h1 : (s.adapter.ideRead && s.ide1Cs) = false) :
    (s.step i).Calm := by
  have hd := hc.dataCycle hi haddress
  obtain ⟨hpresent, hsw, -, -, hwr, hrd⟩ := hd.stays
  rw [← ide0_step hi] at hpresent hsw hwr hrd
  refine ⟨?_, ?_, hsw, ?_, hwr, hrd⟩
  · show s.waitNext s.ide0Wait s.ide0Cs s.ide0Nodata = false
    rw [waitNext, hc.wait0]
    cases hn : s.ide0Nodata with
    | false => rfl
    | true =>
      rw [hn, Bool.and_true] at h0
      rw [h0]
      rfl
  · show s.waitNext s.ide1Wait s.ide1Cs i.ide1Nodata = false
    rw [waitNext, hc.wait1, h1]
    cases i.ide1Nodata <;> rfl
  · rw [hpresent]
    exact hc.present

/-- Without a strobe the channel sees none. -/
theorem Calm.io_down (hc : s.Calm) (hno : NoStrobe s.adapter) : s.ide0Io.ioRead = false ∧ s.ide0Io.ioWrite = false := by
  constructor
  · show (s.adapter.ioRead && _ || s.adapter.ideRead && _ || s.ide0Wait) = false
    rw [hno.ioRead, hno.ideRead, hc.wait0]
    rfl
  · show (s.adapter.ioWrite && _ || s.adapter.ideWrite && _) = false
    rw [hno.ioWrite, hno.ideWrite]
    rfl

theorem Calm.step_down (hc : s.Calm) (hi : i.Silent) (hno : NoStrobe s.adapter) : (s.step i).Calm := by
  obtain ⟨-, hwrite⟩ := hc.io_down hno
  exact hc.step hi (fun h => absurd (hwrite.symm.trans h) nofun) (by rw [hno.ideRead]; rfl) (by rw [hno.ideRead]; rfl)

/-- What a clock without a strobe makes of the block. -/
theorem Calm.block_down (hc : s.Calm) (hi : i.Silent) (hno : NoStrobe s.adapter) : (s.step i).ide0.block =
      (if s.ide0.oldStb then s.ide0.block.closes.moves ⟨s.ide0.r32, false, 0⟩ else s.ide0.block.closes) ∧
    (s.step i).ide0.oldStb = false ∧ (s.step i).ide0.ioReaddata = s.ide0.ioReaddata ∧
    (s.step i).ide0.ioBuf0.qB = s.ide0.block.even s.ide0.block.pair ∧
    (s.step i).ide0.ioBuf1.qB = s.ide0.block.odd s.ide0.block.pair := by
  obtain ⟨hread, hwrite⟩ := hc.io_down hno
  rw [ide0_step hi]
  exact (hc.dataCycle hi fun h => absurd (hwrite.symm.trans h) nofun).block_idle hread hwrite

theorem nDataR_step (hi : i.Silent) :
    (s.step i).ide0.nDataR = s.ide0.nDataR.extractLsb' 0 1 ++ BitVec.ofBool s.ide0.block.ahead := by
  rw [ide0_step hi]
  rfl

/-- A read stays free to go while its block is in the buffer. -/
theorem Unheld.step (hu : s.Unheld) (hi : i.Silent) (hahead : (s.step i).ide0.block.ahead = false) :
    (s.step i).Unheld := by
  refine ⟨hahead, ?_⟩
  rw [nDataR_step hi, hu.now, hu.before]
  rfl

theorem Unheld.ide0Nodata (hu : s.Unheld) : s.ide0Nodata = false := by
  have hn : s.ide0.nData = false := hu.now
  show (s.ide0.nData || s.ide0.nDataR != 0) = false
  rw [hn, hu.before]
  rfl

/-! ## An access, clock by clock -/

/-- Between accesses the block stays as it is. -/
theorem AtRest.rests (h : s.AtRest b) (hi : i.Silent) (ht : s.adapter.takes i.cpu = false) : (s.step i).AtRest b := by
  obtain ⟨hidle, hno, -⟩ := step_of_not_takes (p := s.peripheral i) h.idle ht
  rw [← adapter_step hi] at hidle hno
  obtain ⟨hblock, hold, -⟩ := h.toCalm.block_down hi h.noStrobe
  refine ⟨h.toCalm.step_down hi h.noStrobe, hidle, hno, hold, ?_, h.settled⟩
  rw [hblock, h.oldStb, h.block, IdeBlock.closes, h.settled]
  rfl

/-- The adapter takes an access. -/
theorem step_of_takes_data {a : Adapter} {c : CpuIo} {p : Peripheral} (ht : a.takes c = true)
    (hport : c.ideDataPort = true) : (a.step c p true).state = .ide32 ∧ (a.step c p true).ioRead = false ∧
      (a.step c p true).ioWrite = false ∧ (a.step c p true).ideRead = c.cpuIoRd ∧
      (a.step c p true).ideWrite = !c.cpuIoRd ∧ (a.step c p true).ideAddress = 0 ∧
      (a.step c p true).ide32 = (c.cpuBe == 0b1111) ∧ (a.step c p true).isRead = c.cpuIoRd ∧
      (c.cpuIoRd = false → (a.step c p true).ideWritedata = c.cpuDin) := by
  simp only [Adapter.takes, Bool.and_eq_true, beq_iff_eq, Bool.not_eq_true'] at ht
  obtain ⟨⟨hstate, hactive⟩, hcycle⟩ := ht
  simp only [Adapter.step, hstate, Adapter.idleNext, hactive, hport, hcycle]
  cases hrd : c.cpuIoRd with
  | false => exact ⟨rfl, rfl, rfl, rfl, rfl, rfl, rfl, rfl, fun _ => rfl⟩
  | true => exact ⟨rfl, rfl, rfl, rfl, rfl, rfl, rfl, rfl, fun hw => Bool.noConfusion hw⟩

/-- The access is taken: its strobe comes up. -/
theorem AtRest.takes (h : s.AtRest b) (hi : i.Silent) (ht : s.adapter.takes i.cpu = true) (hx : x.AskedBy i.cpu) :
    (s.step i).Strobes x b := by
  have hport : i.cpu.ideDataPort = true := by
    rw [CpuIo.ideDataPort, hx.port, hx.be, DataAccess.cpuBe]
    cases x.wide <;> rfl
  obtain ⟨hstate, hir, hiw, hread, hwrite, haddress, h32, hisRead, hdata⟩ :=
    step_of_takes_data (p := s.peripheral i) ht hport
  rw [← adapter_step hi] at hstate hir hiw hread hwrite haddress h32 hisRead hdata
  obtain ⟨hblock, hold, -, heven, hodd⟩ := h.toCalm.block_down hi h.noStrobe
  have hnext : s.adapter.ioAddressNext i.cpu = 0x01F0 ∧ s.adapter.ioAddressLoad i.cpu = true := by
    simp only [Adapter.takes, Bool.and_eq_true, beq_iff_eq] at ht
    obtain ⟨⟨hstate, hactive⟩, hcycle⟩ := ht
    rw [Adapter.ioAddressNext, Adapter.ioAddressLoad, hstate]
    exact ⟨(if_pos ((Bool.and_eq_true _ _).mpr ⟨hactive, hcycle⟩)).trans hx.port,
      (Bool.and_eq_true _ _).mpr ⟨hactive, hcycle⟩⟩
  rw [h.block] at heven hodd
  refine ⟨h.toCalm.step_down hi h.noStrobe, hstate, hir, hiw, hread.trans hx.rd, ?_, haddress, ?_, hisRead.trans hx.rd,
    ?_, ?_, ?_, hold, heven, hodd, ?_, h.settled⟩
  · rw [hwrite, hx.rd, Bool.not_not]
  · rw [h32, hx.be, DataAccess.cpuBe]
    cases x.wide <;> rfl
  · intro hw
    rw [hdata (by rw [hx.rd, hw]; rfl), hx.din hw]
  · show (if s.adapter.ioAddressLoad i.cpu = true then ide0Select (s.adapter.ioAddressNext i.cpu) else _) = true
    rw [hnext.1, hnext.2, if_pos rfl]
    decide
  · show (if s.adapter.ioAddressLoad i.cpu = true then ide1Select (s.adapter.ioAddressNext i.cpu) else _) = false
    rw [hnext.1, hnext.2, if_pos rfl]
    decide
  · rw [hblock, h.oldStb, h.block, IdeBlock.closes, h.settled]
    rfl

/-- What the channel sees of a strobe. -/
theorem Strobes.io (h : s.Strobes x b) : s.ide0Io.ioRead = (!x.write) ∧ s.ide0Io.ioWrite = x.write ∧
    s.ide0Io.ioAddress = 0 ∧ s.ide0Io.io32 = x.wide ∧ (x.write = true → s.ide0Io.ioWritedata = x.data) := by
  have hwide : s.ide0Wide = true := by
    rw [ide0Wide, h.ideRead, h.ideWrite, h.wait0]
    cases x.write <;> rfl
  refine ⟨?_, ?_, ?_, ?_, fun hw => ?_⟩
  · show (s.adapter.ioRead && _ || s.adapter.ideRead && s.ide0Cs || s.ide0Wait) = _
    rw [h.ioRead, h.ideRead, h.cs0, h.wait0]
    cases x.write <;> rfl
  · show (s.adapter.ioWrite && _ || s.adapter.ideWrite && s.ide0Cs) = _
    rw [h.ioWrite, h.ideWrite, h.cs0]
    cases x.write <;> rfl
  · show (if s.ide0Wide = true then s.adapter.ideAddress else _) = 0
    rw [hwide, if_pos rfl, h.ideAddress]
  · show (s.ide0Wide && s.adapter.ide32) = _
    rw [hwide, h.ide32, Bool.true_and]
  · show (if s.ide0Wide = true then s.adapter.ideWritedata else _) = _
    rw [hwide, if_pos rfl, h.data hw]

/-- The strobe of an access stores its words or reads its answer. -/
theorem Strobes.falls (h : s.Strobes x b) (hi : i.Silent) (hfree : x.write = false → s.Unheld) :
    (s.step i).Falls x b := by
  obtain ⟨hread, hwrite, haddress, hwide, hdata⟩ := h.io
  have hd := h.toCalm.dataCycle hi fun _ => haddress
  have hnot : (s.adapter.ideRead && s.ide0Nodata) = false := by
    rw [h.ideRead]
    cases hw : x.write with
    | false => exact (hfree hw).ide0Nodata
    | true => rfl
  have hhold : (s.peripheral i).ideHold = false := by
    show (s.ide0Wait || s.ide1Wait || (s.adapter.ideRead && (s.ide0Cs && s.ide0Nodata || s.ide1Cs && _))) = false
    simp only [h.wait0, h.wait1, h.cs0, h.cs1, Bool.true_and, Bool.false_and, Bool.or_false, Bool.false_or]
    exact hnot
  have hblock := h.block
  obtain ⟨hnext, hold, hr32, hanswer⟩ := hd.block_strobe x hread hwrite haddress hwide hdata h.oldStb
    (by rw [h.block]; exact h.settled)
  rw [h.block, ← ide0_step hi] at hnext hold hr32 hanswer
  obtain ⟨hstate, hno, -, -, hisRead, -⟩ := step_of_ide32 (c := i.cpu) (p := s.peripheral i) h.state
  rw [← adapter_step hi] at hstate hno hisRead
  refine ⟨h.toCalm.step hi (fun _ => haddress) hnot (by rw [h.cs1, Bool.and_false]), ?_, hno, hisRead.trans h.isRead, ?_,
    hold, hr32, fun hw => hanswer hw h.even h.odd, hnext, h.settled⟩
  · rw [hstate, hhold]
    rfl
  · show (if s.adapter.ioAddressLoad i.cpu = true then _ else s.ide0Cs) = true
    rw [Adapter.ioAddressLoad, h.state, if_neg (by simp), h.cs0]

/-- The pointer moves on, and the access is answered. -/
theorem Falls.answered (h : s.Falls x b) (hi : i.Silent) : (s.step i).Answered x b := by
  obtain ⟨hblock, hold, hdata, -⟩ := h.toCalm.block_down hi h.noStrobe
  have hopen : s.ide0.block.closes = s.ide0.block := by
    have hsettled := h.settled
    rw [h.block, IdeBlock.closes]
    cases hdrq : b.drq with
    | false =>
      show (if b.done && b.drq then _ else b) = b
      rw [hsettled]
      rfl
    | true =>
      show (if (b.stores x).done && (b.stores x).drq then _ else b.stores x) = b.stores x
      rw [show ((b.stores x).done && (b.stores x).drq) = (b.done && b.drq) by rw [IdeBlock.stores]; split <;> rfl,
        hsettled]
      rfl
  have hnext : (s.adapter.step i.cpu (s.peripheral i) true).state = .idle ∧
      NoStrobe (s.adapter.step i.cpu (s.peripheral i) true) ∧
      (s.adapter.step i.cpu (s.peripheral i) true).cpuIoReady = true ∧
      (s.adapter.step i.cpu (s.peripheral i) true).wasActive = true ∧
      (s.adapter.step i.cpu (s.peripheral i) true).cpuDout =
        if s.adapter.isRead then (s.peripheral i).ideReaddata else s.adapter.cpuDout := by
    simp only [Adapter.step, h.state]
    exact ⟨rfl, ⟨rfl, rfl, rfl, rfl⟩, rfl, rfl, rfl⟩
  obtain ⟨hidle, hno, hready, hactive, hdout⟩ := hnext
  rw [← adapter_step hi] at hidle hno hready hactive hdout
  refine ⟨h.toCalm.step_down hi h.noStrobe, hready, fun hw => ?_, hidle, hactive, hno, hold, ?_⟩
  · rw [hdout, h.isRead, hw]
    show (if s.ide0Cs = true then s.ide0.ioReaddata else _) = _
    rw [h.cs0, if_pos rfl, h.answer hw]
  · rw [hblock, h.oldStb, hopen, h.block]
    cases hdrq : b.drq with
    | false => rfl
    | true =>
      rw [h.r32 hdrq]
      rfl

theorem closes_settled (b : IdeBlock) : (b.closes.done && b.closes.drq) = false := by
  cases hover : b.done && b.drq with
  | false => rw [IdeBlock.closes, hover]; exact hover
  | true =>
    rw [IdeBlock.closes, hover]
    refine (Bool.and_eq_false_iff).2 (.inr ?_)
    show (if b.lastRead then (0x40 : BitVec 8) else 0x80).getLsbD 3 = false
    cases b.lastRead <;> rfl

/-- After the answer the port is at rest again. -/
theorem Answered.rests (h : s.Answered x b) (hi : i.Silent) (hopen : (b.done && b.drq) = false) :
    (s.step i).AtRest (b.access x) := by
  obtain ⟨hblock, hold, -⟩ := h.toCalm.block_down hi h.noStrobe
  have ht : s.adapter.takes i.cpu = false := by
    rw [Adapter.takes, h.active]
    simp
  obtain ⟨hidle, hno, -⟩ := step_of_not_takes (p := s.peripheral i) h.idle ht
  rw [← adapter_step hi] at hidle hno
  have haccess : s.ide0.block.closes = b.access x := by
    rw [h.block, IdeBlock.access]
    cases hdrq : b.drq with
    | false =>
      show b.closes = b
      rw [IdeBlock.closes, hopen]
      rfl
    | true => rfl
  rw [h.oldStb, haccess] at hblock
  exact ⟨h.toCalm.step_down hi h.noStrobe, hidle, hno, hold, hblock, haccess ▸ closes_settled _⟩

end IdePort

end Z486.Disk
