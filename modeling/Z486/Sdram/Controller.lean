/-
The SDRAM controller (src/memory/sdram.v): three request ports, one state machine that opens a row for
each request, closes it by auto-precharge and returns to `IDLE`, and a refresh request from a
free-running counter. The pins are registers: a command decided in one clock is on them in the next.
-/
import Z486.Sdram.Timing

namespace Z486.Sdram

/-! ## Ports -/

inductive Port
  | cpu
  | dma
  | aux
  deriving DecidableEq, Repr, Inhabited

/-- A request; a write is one dword, a read a burst. -/
structure SdramReq where
  wr : Bool
  addr : BitVec 27
  din : BitVec 32
  be : BitVec 4
  burstCnt : BitVec 4
  burstWrap : Bool

structure SdramIn where
  resetn : Bool
  nce : Bool
  refreshAllowed : Bool
  /-- the end of the power-up delay -/
  cfgNow : Bool
  valid : Port → Bool
  req : Port → SdramReq
  dqIn : BitVec 16

/-! ## Registers -/

inductive SdramState
  | init
  | config
  | idle
  | read
  | rmwRead
  | write
  | refresh
  | rmwAct
  deriving DecidableEq, Repr, Inhabited

inductive Cmd
  | setModeReg
  | autoRefresh
  | preCharge
  | bankActivate
  | write
  | read
  | nop
  deriving DecidableEq, Repr, Inhabited

structure Controller where
  state : SdramState
  /-- counts the clocks since the command that began the access, up to 31 -/
  cycle : Nat
  cmd : Cmd
  a : BitVec 13
  ba : BitVec 2
  nCs : Bool
  dqmMask : BitVec 2
  dqOen : Bool
  dqOut : BitVec 16
  dqR : BitVec 16
  busyBuf : Bool
  readyPulse : Option Port
  doutBuf : Port → BitVec 32
  doutWord : BitVec 32
  dataRespPulse : Bool
  burstDonePulse : Bool
  addrBuf : BitVec 27
  dinBuf : BitVec 32
  beBuf : BitVec 4
  reqIdBuf : Port
  reqLargeBuf : Bool
  reqChipBuf : Bool
  initChip : Bool
  refreshCnt : Nat
  needRefresh : Bool
  rdTotalHalfs : Nat
  rdIssued : Nat
  rdReceived : Nat
  rdColBase : BitVec 9
  rdWrap : Bool
  rdLo16 : BitVec 16
  rmwIssued : Nat
  rmwReceived : Nat
  rmwTotalReads : Nat
  rmwReadHalfs : BitVec 2
  rmwOldData : BitVec 32
  wrHalfs : BitVec 2
  deriving Inhabited

/-! ## Addresses -/

/-- 64 MB chips: 13 row bits, 10 column bits; a 32 MB chip has 9. -/
def SdramParams.large (p : SdramParams) : Bool := p.sdramSize.getLsbD 1

/-- 128 MB are two 64 MB chips. -/
def SdramParams.twoChips (p : SdramParams) : Bool := p.sdramSize == 3

def bankOf (large : Bool) (addr : BitVec 27) : BitVec 2 := if large then addr.extractLsb' 24 2 else addr.extractLsb' 23 2

def rowOf (large : Bool) (addr : BitVec 27) : BitVec 13 := if large then addr.extractLsb' 11 13 else addr.extractLsb' 10 13

/-- The dword column: 256 of them in a row of a 32 MB chip, 512 in one of a 64 MB chip. -/
def columnOf (large : Bool) (addr : BitVec 27) : BitVec 9 :=
  if large then addr.extractLsb' 2 9 else 0#1 ++ addr.extractLsb' 2 8

def SdramParams.chipOf (p : SdramParams) (addr : BitVec 27) : Bool := p.twoChips && addr.getLsbD 26

/-- The address pins of a column command: A10 is auto-precharge. -/
def columnPins (large ap : Bool) (col16 : BitVec 10) : BitVec 13 :=
  if large then 0#2 ++ BitVec.ofBool ap ++ col16 else 0#2 ++ BitVec.ofBool ap ++ 0#1 ++ col16.extractLsb' 0 9

def byteMerge (oldData newData : BitVec 32) (be : BitVec 4) : BitVec 32 :=
  (if be.getLsbD 3 then newData.extractLsb' 24 8 else oldData.extractLsb' 24 8) ++
    (if be.getLsbD 2 then newData.extractLsb' 16 8 else oldData.extractLsb' 16 8) ++
    (if be.getLsbD 1 then newData.extractLsb' 8 8 else oldData.extractLsb' 8 8) ++
    (if be.getLsbD 0 then newData.extractLsb' 0 8 else oldData.extractLsb' 0 8)

/-- The dwords of a read. -/
def SdramReq.effBurst (q : SdramReq) : Nat := if q.burstCnt == 0 then 1 else q.burstCnt.toNat

/-- The halves of the dword a write touches, without DQM. -/
def halvesOf (be : BitVec 4) : BitVec 2 :=
  if be.extractLsb' 0 2 != 0 && be.extractLsb' 2 2 == 0 then 1
  else if be.extractLsb' 2 2 != 0 && be.extractLsb' 0 2 == 0 then 2
  else 3

namespace Controller

variable (p : SdramParams) (s : Controller) (i : SdramIn)

/-! ## The state machine -/

/-- What every clock does before the state has its say. -/
def tick : Controller :=
  { s with
    cmd := .nop, dqmMask := 0, dataRespPulse := false, burstDonePulse := false, readyPulse := none
    cycle := if s.cycle = 31 then s.cycle else s.cycle + 1
    refreshCnt := (s.refreshCnt + 1) % 2 ^ p.refreshCntW
    needRefresh :=
      if s.refreshCnt = 0 then false else if s.refreshCnt = p.refreshCycles then true else s.needRefresh
    dqR := i.dqIn }

def initNext : Controller :=
  let b := { s.tick p i with busyBuf := true, dqOen := true }
  if i.cfgNow then { b with state := .config, cycle := 0 } else b

/-- The mode register: the CAS latency, sequential bursts of one. -/
def modeReg : BitVec 11 := 0#4 ++ BitVec.ofNat 3 p.cas ++ 0#4

def configNext : Controller :=
  let b := { s.tick p i with nCs := s.initChip }
  let b := if s.cycle = 0 then { b with cmd := .preCharge, a := b.a ||| 0x400#13 } else b
  let b := if s.cycle = p.tRp then { b with cmd := .autoRefresh } else b
  let b := if s.cycle = p.tRp + p.tRc then { b with cmd := .autoRefresh } else b
  let b :=
    if s.cycle = p.tRp + p.tRc + p.tRc then { b with cmd := .setModeReg, a := b.a.extractLsb' 11 2 ++ modeReg p } else b
  if s.cycle = p.tRp + p.tRc + p.tRc + tMrd then
    if p.twoChips && !s.initChip then { b with initChip := true, cycle := 0 }
    else { b with initChip := false, nCs := false, state := .idle, busyBuf := false, refreshCnt := 0 }
  else b

/-- DMA before the CPU, then the auxiliary port. -/
def grant : Option Port :=
  if i.valid .dma then some .dma
  else if i.valid .cpu then some .cpu
  else if i.valid .aux then some .aux
  else none

/-- `IDLE` of a write: which halves, and whether the old dword must be read first. -/
def beginWrite (q : SdramReq) (b : Controller) : Controller :=
  if !p.hasDqm && q.be == 0x3 then { b with wrHalfs := 1, state := .write }
  else if !p.hasDqm && q.be == 0xC then { b with wrHalfs := 2, state := .write }
  else if !p.hasDqm && q.be != 0xF then
    { b with
      rmwIssued := 0, rmwReceived := 0, rmwOldData := 0, rmwReadHalfs := halvesOf q.be
      rmwTotalReads := if halvesOf q.be == 3 then 2 else 1, wrHalfs := halvesOf q.be, state := .rmwRead }
  else { b with wrHalfs := 3, state := .write }

def beginRead (q : SdramReq) (b : Controller) : Controller :=
  { b with
    rdColBase := columnOf p.large q.addr, rdWrap := q.burstWrap && q.burstCnt == 4
    rdTotalHalfs := 2 * q.effBurst, rdIssued := 0, rdReceived := 0, state := .read }

/-- `IDLE`: activate the row of a request. -/
def accept (port : Port) (q : SdramReq) (b : Controller) : Controller :=
  let b := { b with
    addrBuf := q.addr, dinBuf := q.din, beBuf := q.be, reqIdBuf := port, reqLargeBuf := p.large
    reqChipBuf := p.chipOf q.addr, readyPulse := some port, cmd := .bankActivate, nCs := p.chipOf q.addr
    ba := bankOf p.large q.addr, a := rowOf p.large q.addr, busyBuf := true, cycle := 1 }
  if q.wr then beginWrite p q b else beginRead p q b

def idleNext : Controller :=
  if i.nce then s.tick p i
  else
    let b := { s.tick p i with busyBuf := false }
    if s.needRefresh && i.refreshAllowed then
      { b with cmd := .autoRefresh, nCs := false, refreshCnt := 0, busyBuf := true, cycle := 1, state := .refresh }
    else match grant i with
      | some port => accept p port (i.req port) b
      | none => b

/-- The 16-bit column of read number `rdIssued`. -/
def readColumn : BitVec 10 :=
  if s.rdWrap then
    s.rdColBase.extractLsb' 2 7 ++ (s.rdColBase.extractLsb' 0 2 + BitVec.ofNat 2 (s.rdIssued / 2)) ++
      BitVec.ofNat 1 s.rdIssued
  else (s.rdColBase + BitVec.ofNat 9 (s.rdIssued / 2)) ++ BitVec.ofNat 1 s.rdIssued

/-- `READ`: a column read in each clock. -/
def readIssue (b : Controller) : Controller :=
  if p.tRcd ≤ s.cycle ∧ s.rdIssued < s.rdTotalHalfs then
    { b with
      cmd := .read, nCs := s.reqChipBuf, ba := bankOf s.reqLargeBuf s.addrBuf
      a := columnPins s.reqLargeBuf (s.rdIssued + 1 == s.rdTotalHalfs) s.readColumn, rdIssued := s.rdIssued + 1 }
  else b

/-- `READ`: the halves come back after the CAS latency, one clock later for the capture register. -/
def readCapture (b : Controller) : Controller :=
  if p.tRcd + p.cas + 2 ≤ s.cycle ∧ s.rdReceived < s.rdIssued then
    let b := { b with rdReceived := s.rdReceived + 1 }
    if s.rdReceived % 2 = 0 then { b with rdLo16 := s.dqR }
    else
      let word := s.dqR ++ s.rdLo16
      let b := { b with
        doutWord := word, dataRespPulse := true
        doutBuf := fun port => if port = s.reqIdBuf then word else s.doutBuf port }
      if s.rdReceived + 1 = s.rdTotalHalfs then { b with burstDonePulse := true, busyBuf := false, state := .idle }
      else b
  else b

def readNext : Controller := s.readCapture p (s.readIssue p (s.tick p i))

/-- The half a read of the old dword is for. -/
def rmwHalf (k : Nat) : Bool :=
  if s.rmwReadHalfs == 2 then true else if s.rmwReadHalfs == 1 then false else k % 2 == 1

def rmwIssue (b : Controller) : Controller :=
  if p.tRcd ≤ s.cycle ∧ s.rmwIssued < s.rmwTotalReads then
    { b with
      cmd := .read, nCs := s.reqChipBuf, ba := bankOf s.reqLargeBuf s.addrBuf
      a := columnPins s.reqLargeBuf (s.rmwIssued + 1 == s.rmwTotalReads)
        (columnOf s.reqLargeBuf s.addrBuf ++ BitVec.ofBool (s.rmwHalf s.rmwIssued))
      rmwIssued := s.rmwIssued + 1 }
  else b

/-- The old dword with the half that comes in. -/
def rmwWord : BitVec 32 :=
  if s.rmwHalf s.rmwReceived then s.dqR ++ s.rmwOldData.extractLsb' 0 16 else s.rmwOldData.extractLsb' 16 16 ++ s.dqR

def rmwCapture (b : Controller) : Controller :=
  if p.tRcd + p.cas + 2 ≤ s.cycle ∧ s.rmwReceived < s.rmwIssued then
    let b := { b with rmwOldData := s.rmwWord, rmwReceived := s.rmwReceived + 1 }
    if s.rmwReceived + 1 = s.rmwTotalReads then
      { b with
        dinBuf := byteMerge s.rmwWord s.dinBuf s.beBuf
        beBuf := if s.wrHalfs == 1 then 0x3 else if s.wrHalfs == 2 then 0xC else 0xF
        state := .rmwAct, cycle := 0 }
    else b
  else b

def rmwReadNext : Controller := s.rmwCapture p (s.rmwIssue p (s.tick p i))

/-- `RMW_ACT`: open the row again. -/
def rmwActNext : Controller :=
  if s.cycle = 0 then
    { s.tick p i with
      cmd := .bankActivate, nCs := s.reqChipBuf, ba := bankOf s.reqLargeBuf s.addrBuf
      a := rowOf s.reqLargeBuf s.addrBuf, cycle := 1, state := .write }
  else s.tick p i

/-- `WRITE`: a half of the dword on the pins. -/
def writeHalf (high ap : Bool) (b : Controller) : Controller :=
  { b with
    cmd := .write, nCs := s.reqChipBuf, ba := bankOf s.reqLargeBuf s.addrBuf
    a := columnPins s.reqLargeBuf ap (columnOf s.reqLargeBuf s.addrBuf ++ BitVec.ofBool high)
    dqmMask := if high then ~~~s.beBuf.extractLsb' 2 2 else ~~~s.beBuf.extractLsb' 0 2
    dqOut := if high then s.dinBuf.extractLsb' 16 16 else s.dinBuf.extractLsb' 0 16, dqOen := false }

def writeNext : Controller :=
  let b := s.tick p i
  let b := if s.cycle = p.tRcd ∧ s.wrHalfs.getLsbD 0 then s.writeHalf false (!s.wrHalfs.getLsbD 1) b else b
  let b :=
    if (s.cycle = p.tRcd ∧ !s.wrHalfs.getLsbD 0 ∧ s.wrHalfs.getLsbD 1) ∨ (s.cycle = p.tRcd + 1 ∧ s.wrHalfs = 3) then
      s.writeHalf true true b
    else b
  let b :=
    if (s.cycle = p.tRcd + 1 ∧ s.wrHalfs ≠ 3) ∨ (s.cycle = p.tRcd + 2 ∧ s.wrHalfs = 3) then { b with dqOen := true }
    else b
  if (s.wrHalfs = 3 ∧ s.cycle = p.tRcd + p.tDal) ∨ (s.wrHalfs ≠ 3 ∧ s.cycle = p.tRcd + p.tDal - 1) then
    { b with busyBuf := false, state := .idle }
  else b

def refreshNext : Controller :=
  let b := s.tick p i
  let b := if s.cycle = 1 ∧ p.twoChips then { b with cmd := .autoRefresh, nCs := true } else b
  if s.cycle = p.tRc then { b with nCs := false, state := .idle, busyBuf := false } else b

/-- The registers `resetn` sets; the others keep their values. -/
def reset : Controller :=
  { s with
    state := .init, busyBuf := true, dqOen := true, dqmMask := 0, ba := 0, nCs := false, a := 0, cmd := .nop, cycle := 0
    refreshCnt := 0, needRefresh := false, rmwIssued := 0, rmwReceived := 0, rmwTotalReads := 0, rmwReadHalfs := 0
    rmwOldData := 0, wrHalfs := 3, reqLargeBuf := false, reqChipBuf := false, initChip := false, readyPulse := none
    doutBuf := fun _ => 0, rdTotalHalfs := 0, rdIssued := 0, rdReceived := 0, dataRespPulse := false
    burstDonePulse := false }

def next : Controller :=
  match s.state with
  | .init => s.initNext p i
  | .config => s.configNext p i
  | .idle => s.idleNext p i
  | .read => s.readNext p i
  | .rmwRead => s.rmwReadNext p i
  | .write => s.writeNext p i
  | .refresh => s.refreshNext p i
  | .rmwAct => s.rmwActNext p i

def step : Controller := if i.resetn then s.next p i else (s.next p i).reset

/-! ## Outputs -/

/-- The port whose request the clock accepts. -/
def accepts : Option Port :=
  if s.state == .idle && !i.nce && !(s.needRefresh && i.refreshAllowed) then grant i else none

def ready (port : Port) : Bool := s.readyPulse == some port

def respValid (port : Port) : Bool := s.reqIdBuf == port && s.dataRespPulse

def dout (port : Port) : BitVec 32 := if s.respValid port then s.doutWord else s.doutBuf port

def burstDone (port : Port) : Bool := s.reqIdBuf == port && s.burstDonePulse

/-! ## Edges -/

section Edges

variable {p s i} {port : Port}

theorem state_of_accepts (h : s.accepts i = some port) : s.state = .idle := by
  unfold accepts at h
  by_contra hs
  rw [if_neg (by simp [hs])] at h
  cases h

/-- The edge of a clock that accepts a request. -/
theorem next_of_accepts (h : s.accepts i = some port) :
    s.next p i = accept p port (i.req port) { s.tick p i with busyBuf := false } := by
  have hs := state_of_accepts h
  unfold accepts at h
  obtain ⟨⟨⟨-, hn⟩, hr⟩, hg⟩ : ((s.state = .idle ∧ i.nce = false) ∧ (s.needRefresh && i.refreshAllowed) = false) ∧
      grant i = some port := by
    split at h
    · rename_i hc
      simp only [Bool.and_eq_true, beq_iff_eq, Bool.not_eq_true'] at hc
      exact ⟨hc, h⟩
    · cases h
  unfold next
  rw [hs]
  simp only [idleNext, hn, hr, hg, Bool.false_eq_true, if_false]

end Edges

end Controller

end Z486.Sdram
