/-
The dot-clock control: it asks for the family of dot clocks the VGA block wants, has the PLL's
reconfiguration core programmed with the family's values, and lets the raster follow the PLL once it
has settled. The core itself is not modelled: what it drives, its wait request and the PLL's lock, are
inputs of every clock.
-/
import Z486.Clocked.Fifo
import Z486.Clocked.Run

namespace Z486.Video

/-! ## The families -/

/-- The fraction of M of a family. -/
def dotMFrac (r : BitVec 3) : BitVec 32 :=
  if r = 0 || r = 1 then 543827773
  else if r = 2 then 902671093
  else if r = 3 then 2852920957
  else if r = 4 then 841685013
  else 24806179

/-- Half the count of the output counter C0 of a family. -/
def dotC0Half (r : BitVec 3) : BitVec 8 :=
  if r = 0 then 18
  else if r = 1 then 16
  else if r = 2 then 14
  else if r = 3 then 13
  else if r = 4 then 7
  else 6

/-! ## The table machine -/

/-- A write to a register of the reconfiguration core. -/
structure MgmtWrite where
  address : BitVec 6
  writedata : BitVec 32
deriving DecidableEq, Repr

def modeReg : BitVec 6 := 0
def startReg : BitVec 6 := 2
def nReg : BitVec 6 := 3
def mReg : BitVec 6 := 4
def cReg : BitVec 6 := 5
def dsmReg : BitVec 6 := 7

structure DotPllCfg where
  mgmtWrite : Bool
  mgmtAddress : BitVec 6
  mgmtWritedata : BitVec 32
  step : BitVec 5
  reqD : Bool
  c0HiR : BitVec 8
  c0LoR : BitVec 8
  kR : BitVec 32
  busy : Bool
  pending : Bool
deriving DecidableEq, Repr

namespace DotPllCfg

/-- The write of a step of the table. -/
def table (c : DotPllCfg) : Option MgmtWrite :=
  match c.step.toNat with
  | 1 => some ⟨modeReg, 0⟩
  | 3 => some ⟨nReg, 0x00010000⟩
  | 5 => some ⟨mReg, 0x00000909⟩
  | 7 => some ⟨dsmReg, c.kR⟩
  | 9 => some ⟨cReg, (0 : BitVec 14) ++ (0 : BitVec 2) ++ c.c0HiR ++ c.c0LoR⟩
  | 11 => some ⟨startReg, 0⟩
  | _ => none

/-- A clock of the table machine, but for the request. -/
def advance (c : DotPllCfg) (mgmtWaitrequest : Bool) : DotPllCfg :=
  let c' := { c with mgmtWrite := false }
  if c.step = 0 then
    if c.pending && !mgmtWaitrequest then { c' with pending := false, step := 1 }
    else if !c.pending then { c' with busy := false }
    else c'
  else if !mgmtWaitrequest then
    let c' := { c' with step := if c.step = 12 then 0 else c.step + 1 }
    match c.table with
    | some m => { c' with mgmtAddress := m.address, mgmtWritedata := m.writedata, mgmtWrite := true }
    | none => c'
  else c'

/-- A clock of `dot_pll_cfg`. The request comes last, so that busy rises even when the idle branch
clears it. -/
def next (c : DotPllCfg) (req : Bool) (c0Hi c0Lo : BitVec 8) (mFrac : BitVec 32) (mgmtWaitrequest : Bool) :
    DotPllCfg :=
  let c' := { c.advance mgmtWaitrequest with reqD := req }
  if req && !c.reqD then { c' with c0HiR := c0Hi, c0LoR := c0Lo, kR := mFrac, pending := true, busy := true } else c'

/-- The write on the core's port. -/
def issued (c : DotPllCfg) : List MgmtWrite := if c.mgmtWrite then [⟨c.mgmtAddress, c.mgmtWritedata⟩] else []

end DotPllCfg

/-! ## The control -/

structure DotClock where
  rateS1 : BitVec 3
  rateS2 : BitVec 3
  rateS3 : BitVec 3
  initDone : Bool
  reqCnt : BitVec 3
  settle : BitVec 16
  dotCfgRate : BitVec 3
  dotCfgReq : Bool
  dotclkValid : Bool
  cfg : DotPllCfg
deriving DecidableEq, Repr

/-- The inputs of a clock: the family the VGA block wants, the PLL's lock and the core's wait request. -/
structure DotClockIn where
  coreDotRate : BitVec 3
  pllDotLocked : Bool
  mgmtWaitrequest : Bool
deriving DecidableEq, Repr

namespace DotClock

/-- The control asks for the family of the third synchroniser stage. -/
def asks (s : DotClock) (i : DotClockIn) : Bool :=
  !i.mgmtWaitrequest && !s.cfg.busy && s.reqCnt = 0 && i.pllDotLocked && s.rateS3 = s.rateS2 &&
    (!s.initDone || s.rateS3 ≠ s.dotCfgRate)

/-- The PLL is not to be followed yet. -/
def unsettled (s : DotClock) (i : DotClockIn) : Bool := !i.pllDotLocked || s.cfg.busy || s.reqCnt ≠ 0

def step (s : DotClock) (i : DotClockIn) : DotClock where
  rateS1 := i.coreDotRate
  rateS2 := s.rateS1
  rateS3 := s.rateS2
  initDone := s.asks i || s.initDone
  reqCnt := if s.asks i then 4 else if s.reqCnt ≠ 0 then s.reqCnt - 1 else s.reqCnt
  settle := if s.unsettled i then 50000 else if s.settle ≠ 0 then s.settle - 1 else s.settle
  dotCfgRate := if s.asks i then s.rateS3 else s.dotCfgRate
  dotCfgReq := s.reqCnt ≠ 0
  dotclkValid :=
    if s.unsettled i then false
    else if s.settle ≠ 0 then s.dotclkValid
    else s.initDone && s.dotCfgRate = s.rateS3
  cfg := s.cfg.next s.dotCfgReq (dotC0Half s.dotCfgRate) (dotC0Half s.dotCfgRate) (dotMFrac s.dotCfgRate)
    i.mgmtWaitrequest

/-- At power-up; the registers that hold a request's values are not initialised. -/
def powerUp (c0HiR c0LoR : BitVec 8) (kR : BitVec 32) : DotClock where
  rateS1 := 1
  rateS2 := 1
  rateS3 := 1
  initDone := false
  reqCnt := 0
  settle := 50000
  dotCfgRate := 1
  dotCfgReq := false
  dotclkValid := false
  cfg := { mgmtWrite := false, mgmtAddress := 0, mgmtWritedata := 0, step := 0, reqD := false, c0HiR := c0HiR,
           c0LoR := c0LoR, kR := kR, busy := false, pending := false }

end DotClock

/-! ## Runs -/

/-- The control from power-up on, with any wanted families, any lock and any wait request. -/
structure DotClockRun where
  c0HiR : BitVec 8
  c0LoR : BitVec 8
  kR : BitVec 32
  inputs : Nat → DotClockIn

namespace DotClockRun

/-- The registers in clock `t`. -/
def state (r : DotClockRun) : Nat → DotClock :=
  Clocked.run DotClock.step (DotClock.powerUp r.c0HiR r.c0LoR r.kR) r.inputs

theorem state_succ (r : DotClockRun) (t : Nat) : r.state (t + 1) = (r.state t).step (r.inputs t) :=
  Clocked.run_succ _ _ _ _

/-- The reconfiguration core: in which clocks it takes the write on its port. It takes one that is
issued in the clock after its wait request was low. -/
structure Core (r : DotClockRun) where
  accepts : Nat → Bool
  accepts_of_ready : ∀ t, (r.inputs t).mgmtWaitrequest = false → (r.state (t + 1)).cfg.mgmtWrite = true →
    accepts (t + 1) = true

/-- The writes the core has taken before clock `t`. -/
def Core.writes {r : DotClockRun} (core : r.Core) (t : Nat) : List MgmtWrite :=
  Clocked.journal (fun u => if core.accepts u then (r.state u).cfg.issued else []) t

end DotClockRun

end Z486.Video
