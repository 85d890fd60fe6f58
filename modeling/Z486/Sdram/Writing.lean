/-
Write accesses of the SDRAM controller, clock by clock: the row is opened, one or both halves of the
dword are written, the last of them with auto-precharge, and the bank is given the time to close. A
board without DQM reads the old dword first where a write does not fill its halves.
-/
import Z486.Sdram.Reading

namespace Z486.Sdram

/-! ## The course of a write -/

/-- A dword write: where, what, which bytes, and which 16-bit halves go to the chip. -/
structure WriteJob where
  addr : BitVec 27
  din : BitVec 32
  be : BitVec 4
  halfs : BitVec 2
  some_half : halfs ≠ 0

/-- The half on the pins `k` clocks after the clock that opens the row. -/
def WriteJob.halfAt (p : SdramParams) (j : WriteJob) (k : Nat) : Option Bool :=
  if k = p.tRcd + 1 then some (!j.halfs.getLsbD 0) else if k = p.tRcd + 2 ∧ j.halfs = 3 then some true else none

/-- The clocks a write takes. -/
def WriteJob.clocks (p : SdramParams) (j : WriteJob) : Nat :=
  if j.halfs = 3 then p.tRcd + p.tDal + 1 else p.tRcd + p.tDal

def WriteJob.bus (p : SdramParams) (j : WriteJob) (k : Nat) : BusCmd :=
  if k = 1 then .activate (p.chipOf j.addr) (bankOf p.large j.addr) (rowOf p.large j.addr)
  else match j.halfAt p k with
    | some high => .write (p.chipOf j.addr) (bankOf p.large j.addr)
        (chipColumn p.large (columnOf p.large j.addr ++ BitVec.ofBool high)) (high || !j.halfs.getLsbD 1)
    | none => .nop

/-- The registers `k` clocks after the clock that opens the row for a write. -/
structure Writing (p : SdramParams) (port : Port) (j : WriteJob) (pulse : Option Port) (k : Nat) (s : Controller) :
    Prop where
  state : s.state = if k < j.clocks p then .write else .idle
  cycle : s.cycle = k
  addr : s.addrBuf = j.addr
  din : s.dinBuf = j.din
  be : s.beBuf = j.be
  halfs : s.wrHalfs = j.halfs
  large : s.reqLargeBuf = p.large
  chip : s.reqChipBuf = p.chipOf j.addr
  id : s.reqIdBuf = port
  bus : s.bus p = j.bus p k
  data : ∀ high, j.halfAt p k = some high →
    s.dqOut = (if high then j.din.extractLsb' 16 16 else j.din.extractLsb' 0 16) ∧
      s.dqmMask = (if high then ~~~j.be.extractLsb' 2 2 else ~~~j.be.extractLsb' 0 2)
  hiZ : s.dqOen = (j.halfAt p k).isNone
  ready : s.readyPulse = if k = 1 then pulse else none
  resp : s.dataRespPulse = false
  done : s.burstDonePulse = false

namespace WriteJob

variable {p : SdramParams} (j : WriteJob)

theorem halfs_cases : j.halfs = 1 ∨ j.halfs = 2 ∨ j.halfs = 3 := by
  have hcases : ∀ h : BitVec 2, h ≠ 0 → h = 1 ∨ h = 2 ∨ h = 3 := by decide
  exact hcases _ j.some_half

theorem clocks_le : j.clocks p ≤ 9 := by
  have hf := p.fits
  have h1 := hf.rcd
  have h2 := hf.wr
  have h3 := p.tRp_eq
  unfold clocks SdramParams.tDal
  split <;> omega

theorem lt_clocks : p.tRcd + 2 ≤ j.clocks p := by
  have hf := p.fits
  have h1 := hf.rcd
  have h2 := hf.wr
  have h3 := p.tRp_eq
  unfold clocks SdramParams.tDal
  split <;> omega

end WriteJob

section Next

variable {p : SdramParams} {port : Port} {j : WriteJob} {pulse : Option Port} {k : Nat} {s : Controller} {i : SdramIn}

namespace Writing

variable (h : Writing p port j pulse k s)
include h

/-- The conditions of `WRITE` in terms of the half that comes next. -/
theorem low_iff : s.cycle = p.tRcd ∧ s.wrHalfs.getLsbD 0 = true ↔ j.halfAt p (k + 1) = some false := by
  rw [h.cycle, h.halfs]
  unfold WriteJob.halfAt
  rcases j.halfs_cases with hj | hj | hj
  all_goals
    rw [hj]
    by_cases hk : k = p.tRcd
    · simp [hk]
    · by_cases hk' : k + 1 = p.tRcd + 2 <;> simp [hk, hk']

theorem high_iff : (s.cycle = p.tRcd ∧ (!s.wrHalfs.getLsbD 0) = true ∧ s.wrHalfs.getLsbD 1 = true) ∨
    (s.cycle = p.tRcd + 1 ∧ s.wrHalfs = 3) ↔ j.halfAt p (k + 1) = some true := by
  rw [h.cycle, h.halfs]
  unfold WriteJob.halfAt
  rcases j.halfs_cases with hj | hj | hj
  all_goals
    rw [hj]
    by_cases hk : k = p.tRcd
    · simp [hk]
    · by_cases hk' : k = p.tRcd + 1 <;> simp [hk, hk']

theorem release_iff : (s.cycle = p.tRcd + 1 ∧ s.wrHalfs ≠ 3) ∨ (s.cycle = p.tRcd + 2 ∧ s.wrHalfs = 3) ↔
    (j.halfAt p k).isSome = true ∧ j.halfAt p (k + 1) = none := by
  rw [h.cycle, h.halfs]
  unfold WriteJob.halfAt
  rcases j.halfs_cases with hj | hj | hj
  all_goals
    rw [hj]
    by_cases hk : k = p.tRcd + 1
    · simp [hk]
    · by_cases hk' : k = p.tRcd + 2
      · simp [hk']
      · simp [hk, hk']

theorem ends_iff : (s.wrHalfs = 3 ∧ s.cycle = p.tRcd + p.tDal) ∨ (s.wrHalfs ≠ 3 ∧ s.cycle = p.tRcd + p.tDal - 1) ↔
    k + 1 = j.clocks p := by
  have hf := p.fits.rcd
  rw [h.cycle, h.halfs]
  unfold WriteJob.clocks
  by_cases hj : j.halfs = 3
  · rw [if_pos hj]
    simp only [hj, true_and, ne_eq, not_true_eq_false, false_and, or_false]
    omega
  · rw [if_neg hj]
    simp only [hj, false_and, ne_eq, not_false_eq_true, true_and, false_or]
    omega

variable (hk : 1 ≤ k) (hlt : k < j.clocks p)
include hlt

/-- The edge of a clock of a write. -/
theorem next_eq : s.next p i =
    let b := { s.tick p i with state := if k + 1 = j.clocks p then .idle else .write
                               busyBuf := if k + 1 = j.clocks p then false else s.busyBuf }
    match j.halfAt p (k + 1) with
    | some high => s.writeHalf high (high || !j.halfs.getLsbD 1) b
    | none => { b with dqOen := if (j.halfAt p k).isSome then true else s.dqOen } := by
  have hs : s.state = .write := by rw [h.state, if_pos hlt]
  have hnext : s.next p i = s.writeNext p i := by
    unfold Controller.next
    rw [hs]
  have hlow := h.low_iff
  have hhigh := h.high_iff
  have hrel := h.release_iff
  have hends := h.ends_iff
  rw [hnext]
  unfold Controller.writeNext
  simp only [hlow, hhigh, hrel, hends]
  cases hc : j.halfAt p (k + 1) with
  | none =>
    by_cases he : k + 1 = j.clocks p
    · cases hp : (j.halfAt p k).isSome <;> simp [he, Controller.tick]
    · cases hp : (j.halfAt p k).isSome <;> simp [he, hs, Controller.tick]
  | some high =>
    have hbit : s.wrHalfs = j.halfs := h.halfs
    by_cases he : k + 1 = j.clocks p
    · cases high <;> simp [he, hbit, Controller.writeHalf]
    · cases high <;> simp [he, hs, hbit, Controller.writeHalf, Controller.tick]

include hk

/-- A write goes on as `Writing` says. -/
theorem next : Writing p port j pulse (k + 1) (s.next p i) := by
  have hle := j.clocks_le (p := p)
  -- the write is over with the recovery after its last half
  have hstate : (if k + 1 = j.clocks p then SdramState.idle else .write) =
      if k + 1 < j.clocks p then .write else .idle := by
    by_cases he : k + 1 = j.clocks p
    · rw [if_pos he, if_neg (by omega)]
    · rw [if_neg he, if_pos (by omega)]
  have hcycle : (if s.cycle = 31 then s.cycle else s.cycle + 1) = k + 1 := by
    rw [h.cycle, if_neg (by omega)]
  have hready : (none : Option Port) = if k + 1 = 1 then pulse else none := by rw [if_neg (by omega)]
  rw [h.next_eq hlt]
  cases hc : j.halfAt p (k + 1) with
  | none =>
    refine ⟨hstate, hcycle, h.addr, h.din, h.be, h.halfs, h.large, h.chip, h.id, ?_, ?_, ?_, hready, rfl, rfl⟩
    · unfold WriteJob.bus
      rw [if_neg (by omega : ¬ k + 1 = 1), hc]
      rfl
    · intro high hh
      rw [hc] at hh
      cases hh
    · show (if (j.halfAt p k).isSome then true else s.dqOen) = _
      rw [h.hiZ, hc]
      cases j.halfAt p k <;> rfl
  | some high =>
    refine ⟨hstate, hcycle, h.addr, h.din, h.be, h.halfs, h.large, h.chip, h.id, ?_, ?_, ?_, hready, rfl, rfl⟩
    · unfold WriteJob.bus
      rw [if_neg (by omega : ¬ k + 1 = 1), hc]
      show BusCmd.write s.reqChipBuf (bankOf s.reqLargeBuf s.addrBuf)
        (pinColumn p.large (columnPins s.reqLargeBuf _ (columnOf s.reqLargeBuf s.addrBuf ++ BitVec.ofBool high)))
        ((columnPins s.reqLargeBuf (high || !j.halfs.getLsbD 1) _).getLsbD 10) = _
      rw [columnPins_ap, h.large, pinColumn_columnPins, h.chip, h.addr]
    · intro high' hh
      rw [hc] at hh
      cases hh
      constructor
      · show (if high then s.dinBuf.extractLsb' 16 16 else s.dinBuf.extractLsb' 0 16) = _
        rw [h.din]
      · show (if high then ~~~s.beBuf.extractLsb' 2 2 else ~~~s.beBuf.extractLsb' 0 2) = _
        rw [h.be]
    · rw [hc]
      rfl

end Writing

end Next

/-! ## Old dwords -/

/-- A write that leaves bytes of its halves alone, on a board without DQM. -/
def SdramReq.needsOld (p : SdramParams) (q : SdramReq) : Bool := !p.hasDqm && q.be != 0x3 && q.be != 0xC && q.be != 0xF

/-- The halves a write goes to. -/
def SdramReq.halfs (p : SdramParams) (q : SdramReq) : BitVec 2 := if p.hasDqm then 3 else halvesOf q.be

theorem SdramReq.halfs_ne (p : SdramParams) (q : SdramReq) : q.halfs p ≠ 0 := by
  unfold SdramReq.halfs
  split
  · decide
  · have hne : ∀ be : BitVec 4, halvesOf be ≠ 0 := by decide
    exact hne _

/-- The halves read first. -/
def SdramReq.oldHalfs (p : SdramParams) (q : SdramReq) : Nat := if q.halfs p == 3 then 2 else 1

/-- The clocks from the accepted request to the clock that opens the row again. -/
def SdramParams.rmwClocks (p : SdramParams) (q : SdramReq) : Nat := p.readStart + q.oldHalfs p

/-- Which half is read `m`-th. -/
def SdramReq.oldHalf (p : SdramParams) (q : SdramReq) (m : Nat) : Bool :=
  if q.halfs p == 2 then true else if q.halfs p == 1 then false else m % 2 == 1

def rmwBus (p : SdramParams) (q : SdramReq) (k : Nat) : BusCmd :=
  if k = 1 then .activate (p.chipOf q.addr) (bankOf p.large q.addr) (rowOf p.large q.addr)
  else if p.tRcd < k ∧ k ≤ p.tRcd + q.oldHalfs p then
    .read (p.chipOf q.addr) (bankOf p.large q.addr)
      (chipColumn p.large (columnOf p.large q.addr ++ BitVec.ofBool (q.oldHalf p (k - 1 - p.tRcd))))
      (k = p.tRcd + q.oldHalfs p)
  else .nop

/-- The byte enables of the merged write. -/
def fullHalfs (halfs : BitVec 2) : BitVec 4 := if halfs == 1 then 0x3 else if halfs == 2 then 0xC else 0xF

/-- The registers `k` clocks after a write that needs the old dword was accepted; `old` is what has come
of it. -/
structure OldReading (p : SdramParams) (port : Port) (q : SdramReq) (old : BitVec 32) (k : Nat) (s : Controller) :
    Prop where
  state : s.state = if k < p.rmwClocks q then .rmwRead else .rmwAct
  cycle : s.cycle = if k < p.rmwClocks q then k else 0
  issued : s.rmwIssued = min (q.oldHalfs p) (k - p.tRcd)
  received : s.rmwReceived = k - p.readStart
  total : s.rmwTotalReads = q.oldHalfs p
  readHalfs : s.rmwReadHalfs = q.halfs p
  halfs : s.wrHalfs = q.halfs p
  old_eq : s.rmwOldData = old
  addr : s.addrBuf = q.addr
  large : s.reqLargeBuf = p.large
  chip : s.reqChipBuf = p.chipOf q.addr
  id : s.reqIdBuf = port
  din : s.dinBuf = if k < p.rmwClocks q then q.din else byteMerge old q.din q.be
  be : s.beBuf = if k < p.rmwClocks q then q.be else fullHalfs (q.halfs p)
  bus : s.bus p = rmwBus p q k
  ready : s.readyPulse = if k = 1 then some port else none
  resp : s.dataRespPulse = false
  done : s.burstDonePulse = false
  hiZ : s.dqOen = true

/-- The merged write. -/
def SdramReq.mergedJob (p : SdramParams) (q : SdramReq) (old : BitVec 32) : WriteJob :=
  ⟨q.addr, byteMerge old q.din q.be, fullHalfs (q.halfs p), q.halfs p, q.halfs_ne p⟩

/-- The write of a request that needs no old dword. -/
def SdramReq.job (p : SdramParams) (q : SdramReq) : WriteJob := ⟨q.addr, q.din, q.be, q.halfs p, q.halfs_ne p⟩

section Old

variable {p : SdramParams} {port : Port} {q : SdramReq} {old : BitVec 32} {k : Nat} {s : Controller} {i : SdramIn}

theorem SdramReq.oldHalfs_le (p : SdramParams) (q : SdramReq) : 1 ≤ q.oldHalfs p ∧ q.oldHalfs p ≤ 2 := by
  unfold SdramReq.oldHalfs
  split <;> omega

namespace Controller

variable (b : Controller)

theorem rmwIssue_keeps : (s.rmwIssue p b).state = b.state ∧ (s.rmwIssue p b).cycle = b.cycle ∧
    (s.rmwIssue p b).rmwReceived = b.rmwReceived ∧ (s.rmwIssue p b).rmwTotalReads = b.rmwTotalReads ∧
    (s.rmwIssue p b).rmwReadHalfs = b.rmwReadHalfs ∧ (s.rmwIssue p b).wrHalfs = b.wrHalfs ∧
    (s.rmwIssue p b).rmwOldData = b.rmwOldData ∧ (s.rmwIssue p b).addrBuf = b.addrBuf ∧
    (s.rmwIssue p b).reqLargeBuf = b.reqLargeBuf ∧ (s.rmwIssue p b).reqChipBuf = b.reqChipBuf ∧
    (s.rmwIssue p b).reqIdBuf = b.reqIdBuf ∧ (s.rmwIssue p b).dinBuf = b.dinBuf ∧ (s.rmwIssue p b).beBuf = b.beBuf ∧
    (s.rmwIssue p b).readyPulse = b.readyPulse ∧ (s.rmwIssue p b).dataRespPulse = b.dataRespPulse ∧
    (s.rmwIssue p b).burstDonePulse = b.burstDonePulse ∧ (s.rmwIssue p b).dqOen = b.dqOen := by
  unfold rmwIssue
  split <;> exact ⟨rfl, rfl, rfl, rfl, rfl, rfl, rfl, rfl, rfl, rfl, rfl, rfl, rfl, rfl, rfl, rfl, rfl⟩

theorem rmwCapture_keeps : (s.rmwCapture p b).bus p = b.bus p ∧ (s.rmwCapture p b).rmwIssued = b.rmwIssued ∧
    (s.rmwCapture p b).rmwTotalReads = b.rmwTotalReads ∧ (s.rmwCapture p b).rmwReadHalfs = b.rmwReadHalfs ∧
    (s.rmwCapture p b).wrHalfs = b.wrHalfs ∧ (s.rmwCapture p b).addrBuf = b.addrBuf ∧
    (s.rmwCapture p b).reqLargeBuf = b.reqLargeBuf ∧ (s.rmwCapture p b).reqChipBuf = b.reqChipBuf ∧
    (s.rmwCapture p b).reqIdBuf = b.reqIdBuf ∧ (s.rmwCapture p b).readyPulse = b.readyPulse ∧
    (s.rmwCapture p b).dataRespPulse = b.dataRespPulse ∧ (s.rmwCapture p b).burstDonePulse = b.burstDonePulse ∧
    (s.rmwCapture p b).dqOen = b.dqOen := by
  unfold rmwCapture
  split
  · dsimp only
    split <;> exact ⟨rfl, rfl, rfl, rfl, rfl, rfl, rfl, rfl, rfl, rfl, rfl, rfl, rfl⟩
  · exact ⟨rfl, rfl, rfl, rfl, rfl, rfl, rfl, rfl, rfl, rfl, rfl, rfl, rfl⟩

end Controller

namespace OldReading

variable (h : OldReading p port q old k s) (hk : 1 ≤ k) (hlt : k < p.rmwClocks q)
include h hlt

theorem issues_iff : p.tRcd ≤ s.cycle ∧ s.rmwIssued < s.rmwTotalReads ↔ p.tRcd ≤ k ∧ k < p.tRcd + q.oldHalfs p := by
  have hf := p.fits.rcd
  rw [h.cycle, if_pos hlt, h.issued, h.total]
  omega

theorem captures_iff : p.tRcd + p.cas + 2 ≤ s.cycle ∧ s.rmwReceived < s.rmwIssued ↔ p.readStart ≤ k := by
  have hf := p.fits
  have hrcd := hf.rcd
  have hcas := hf.cas
  have he := q.oldHalfs_le p
  rw [h.cycle, if_pos hlt, h.received, h.issued]
  unfold SdramParams.rmwClocks at hlt
  unfold SdramParams.readStart at hlt ⊢
  omega

include hk

/-- The pins and the issue counter of the next clock. -/
theorem issue_next : (s.rmwIssue p (s.tick p i)).bus p = rmwBus p q (k + 1) ∧
    (s.rmwIssue p (s.tick p i)).rmwIssued = min (q.oldHalfs p) (k + 1 - p.tRcd) := by
  have hf := p.fits.rcd
  have hcond := h.issues_iff hlt
  unfold Controller.rmwIssue rmwBus
  rw [if_neg (by omega : ¬ k + 1 = 1)]
  by_cases hi : p.tRcd ≤ k ∧ k < p.tRcd + q.oldHalfs p
  · rw [if_pos (hcond.2 hi), if_pos (by omega : p.tRcd < k + 1 ∧ k + 1 ≤ p.tRcd + q.oldHalfs p)]
    have hiss : s.rmwIssued = k - p.tRcd := by rw [h.issued]; omega
    have hhalf : s.rmwHalf s.rmwIssued = q.oldHalf p (k + 1 - 1 - p.tRcd) := by
      unfold Controller.rmwHalf SdramReq.oldHalf
      rw [h.readHalfs, hiss, Nat.add_sub_cancel]
    have hap : (s.rmwIssued + 1 == s.rmwTotalReads) = decide (k + 1 = p.tRcd + q.oldHalfs p) := by
      rw [hiss, h.total, Bool.eq_iff_iff, beq_iff_eq, decide_eq_true_eq]
      omega
    constructor
    · show BusCmd.read s.reqChipBuf (bankOf s.reqLargeBuf s.addrBuf) (pinColumn p.large _) _ = _
      rw [columnPins_ap, h.large, pinColumn_columnPins, hhalf, hap, h.chip, h.addr]
    · show s.rmwIssued + 1 = _
      omega
  · rw [if_neg (fun hc => hi (hcond.1 hc)), if_neg (by omega)]
    constructor
    · rfl
    · show s.rmwIssued = _
      rw [h.issued]
      omega

omit hk in
/-- What the capture adds in the next clock. -/
theorem capture_next {b : Controller} (hst : b.state = .rmwRead) (hcyc : b.cycle = k + 1)
    (hrec : b.rmwReceived = s.rmwReceived) (hold : b.rmwOldData = s.rmwOldData) (hdin : b.dinBuf = s.dinBuf)
    (hbe : b.beBuf = s.beBuf) :
    (s.rmwCapture p b).state = (if k + 1 < p.rmwClocks q then .rmwRead else .rmwAct) ∧
      (s.rmwCapture p b).cycle = (if k + 1 < p.rmwClocks q then k + 1 else 0) ∧
      (s.rmwCapture p b).rmwReceived = k + 1 - p.readStart ∧
      (s.rmwCapture p b).rmwOldData = (if p.readStart ≤ k then s.rmwWord else old) ∧
      (s.rmwCapture p b).dinBuf = (if k + 1 < p.rmwClocks q then q.din else
        byteMerge (if p.readStart ≤ k then s.rmwWord else old) q.din q.be) ∧
      (s.rmwCapture p b).beBuf = (if k + 1 < p.rmwClocks q then q.be else fullHalfs (q.halfs p)) := by
  have he := q.oldHalfs_le p
  have hcap := h.captures_iff hlt
  have hs := h.received
  have htot := h.total
  have hdin' : s.dinBuf = q.din := by rw [h.din, if_pos hlt]
  have hbe' : s.beBuf = q.be := by rw [h.be, if_pos hlt]
  have hn : p.rmwClocks q = p.readStart + q.oldHalfs p := rfl
  unfold Controller.rmwCapture
  by_cases hc : p.readStart ≤ k
  · rw [if_pos (hcap.2 hc), if_pos hc]
    by_cases hlast : s.rmwReceived + 1 = s.rmwTotalReads
    · have hend : ¬ k + 1 < p.rmwClocks q := by omega
      simp only [hlast, if_true, hend, if_false, hdin', hbe']
      refine ⟨trivial, trivial, by omega, trivial, trivial, ?_⟩
      rw [h.halfs]
      rfl
    · have hend : k + 1 < p.rmwClocks q := by omega
      simp only [hlast, if_false, hend, if_true, hst, hcyc, hdin.trans hdin', hbe.trans hbe', true_and, and_true]
      omega
  · have hend : k + 1 < p.rmwClocks q := by omega
    rw [if_neg fun h' => hc (hcap.1 h'), if_neg hc, if_pos hend, if_pos hend, if_pos hend, if_pos hend]
    exact ⟨hst, hcyc, by omega, hold.trans h.old_eq, hdin.trans hdin', hbe.trans hbe'⟩

/-- The reading of the old dword goes on as `OldReading` says. -/
theorem next : OldReading p port q (if p.readStart ≤ k then s.rmwWord else old) (k + 1) (s.next p i) := by
  obtain ⟨hbus, hissued⟩ := h.issue_next (i := i) hk hlt
  have hs : s.state = .rmwRead := by rw [h.state, if_pos hlt]
  have hnext : s.next p i = s.rmwCapture p (s.rmwIssue p (s.tick p i)) := by
    unfold Controller.next
    rw [hs]
    rfl
  have hcycle : (s.tick p i).cycle = k + 1 := by
    have hf := p.fits
    have hrcd := hf.rcd
    have hcas := hf.cas
    have he := q.oldHalfs_le p
    have hn : p.rmwClocks q = p.tRcd + p.cas + 2 + q.oldHalfs p := rfl
    show (if s.cycle = 31 then s.cycle else s.cycle + 1) = _
    rw [h.cycle, if_pos hlt, if_neg (by omega)]
  obtain ⟨i1, i2, i3, i4, i5, i6, i7, i8, i9, i10, i11, i12, i13, i14, i15, i16, i17⟩ :=
    Controller.rmwIssue_keeps (p := p) (s := s) (s.tick p i)
  obtain ⟨c1, c2, c3, c4, c5, c6, c7, c8, c9, c10, c11, c12, c13⟩ :=
    Controller.rmwCapture_keeps (p := p) (s := s) (s.rmwIssue p (s.tick p i))
  obtain ⟨hstate, hcyc, hrec, hold, hdin, hbe⟩ := h.capture_next hlt (i1.trans hs) (i2.trans hcycle) i3 i7 i12 i13
  rw [hnext]
  refine ⟨hstate, hcyc, c2.trans hissued, hrec, (c3.trans i4).trans h.total, (c4.trans i5).trans h.readHalfs,
    (c5.trans i6).trans h.halfs, hold, (c6.trans i8).trans h.addr, (c7.trans i9).trans h.large,
    (c8.trans i10).trans h.chip, (c9.trans i11).trans h.id, hdin, hbe, c1.trans hbus, ?_, c11.trans i15,
    c12.trans i16, (c13.trans i17).trans h.hiZ⟩
  rw [c10, i14, if_neg (by omega)]
  rfl

end OldReading

/-- When the old dword is there the row is opened again. -/
theorem OldReading.reopen (h : OldReading p port q old (p.rmwClocks q) s) :
    Writing p port (q.mergedJob p old) none 1 (s.next p i) := by
  have hf := p.fits.rcd
  have hlt := (q.mergedJob p old).lt_clocks (p := p)
  have hs : s.state = .rmwAct := by rw [h.state, if_neg (lt_irrefl _)]
  have hc : s.cycle = 0 := by rw [h.cycle, if_neg (lt_irrefl _)]
  have hhalf : (q.mergedJob p old).halfAt p 1 = none := by
    unfold WriteJob.halfAt
    rw [if_neg (by omega), if_neg (by omega)]
  have hnext : s.next p i = { s.tick p i with
      cmd := .bankActivate, nCs := s.reqChipBuf, ba := bankOf s.reqLargeBuf s.addrBuf
      a := rowOf s.reqLargeBuf s.addrBuf, cycle := 1, state := .write } := by
    unfold Controller.next
    rw [hs]
    simp only [Controller.rmwActNext, hc, if_true]
  rw [hnext]
  refine ⟨(if_pos (by omega)).symm, rfl, h.addr, ?_, ?_, h.halfs, h.large, h.chip, h.id, ?_, ?_, ?_, rfl, rfl, rfl⟩
  · exact h.din.trans (if_neg (lt_irrefl _))
  · exact h.be.trans (if_neg (lt_irrefl _))
  · show BusCmd.activate s.reqChipBuf (bankOf s.reqLargeBuf s.addrBuf) (rowOf s.reqLargeBuf s.addrBuf) = _
    rw [h.large, h.chip, h.addr]
    rfl
  · rw [hhalf]
    intro high hh
    cases hh
  · rw [hhalf]
    exact h.hiZ

/-- `IDLE` of a write in terms of its halves. -/
theorem beginWrite_eq (b : Controller) : Controller.beginWrite p q b =
    if q.needsOld p then
      { b with
        rmwIssued := 0, rmwReceived := 0, rmwOldData := 0, rmwReadHalfs := q.halfs p, rmwTotalReads := q.oldHalfs p
        wrHalfs := q.halfs p, state := .rmwRead }
    else { b with wrHalfs := q.halfs p, state := .write } := by
  unfold Controller.beginWrite SdramReq.needsOld SdramReq.oldHalfs SdramReq.halfs
  cases p.hasDqm
  · by_cases h3 : q.be = 0x3
    · rw [h3]
      rfl
    · by_cases hc : q.be = 0xC
      · rw [hc]
        rfl
      · by_cases hf : q.be = 0xF
        · rw [hf]
          rfl
        · have e3 : (q.be == 0x3) = false := beq_eq_false_iff_ne.2 h3
          have ec : (q.be == 0xC) = false := beq_eq_false_iff_ne.2 hc
          have ef : (q.be == 0xF) = false := beq_eq_false_iff_ne.2 hf
          simp only [bne, e3, ec, ef, Bool.not_false, Bool.and_false, Bool.and_true, Bool.false_eq_true, if_false,
            if_true]
  · rfl

/-- The clock that accepts a write that needs no old dword. -/
theorem Writing.start (hz : s.dqOen = true) (ha : s.accepts i = some port) (hw : (i.req port).wr = true)
    (hn : (i.req port).needsOld p = false) : Writing p port ((i.req port).job p) (some port) 1 (s.next p i) := by
  have hf := p.fits.rcd
  have hlt := ((i.req port).job p).lt_clocks (p := p)
  have hhalf : ((i.req port).job p).halfAt p 1 = none := by
    unfold WriteJob.halfAt
    rw [if_neg (by omega), if_neg (by omega)]
  rw [Controller.next_of_accepts ha]
  unfold Controller.accept
  rw [hw, if_pos rfl, beginWrite_eq, if_neg (by rw [hn]; decide)]
  refine ⟨(if_pos (by omega)).symm, rfl, rfl, rfl, rfl, rfl, rfl, rfl, rfl, rfl, ?_, ?_, rfl, rfl, rfl⟩
  · rw [hhalf]
    intro high hh
    cases hh
  · rw [hhalf]
    exact hz

/-- The clock that accepts a write that needs the old dword. -/
theorem OldReading.start (hz : s.dqOen = true) (ha : s.accepts i = some port) (hw : (i.req port).wr = true)
    (hn : (i.req port).needsOld p = true) : OldReading p port (i.req port) 0 1 (s.next p i) := by
  have hf := p.fits.rcd
  have hlt : 1 < p.rmwClocks (i.req port) := by
    unfold SdramParams.rmwClocks SdramParams.readStart
    omega
  have hstart : 1 ≤ p.readStart := by
    unfold SdramParams.readStart
    omega
  rw [Controller.next_of_accepts ha]
  unfold Controller.accept
  rw [hw, if_pos rfl, beginWrite_eq, if_pos hn]
  refine ⟨(if_pos hlt).symm, (if_pos hlt).symm, ?_, ?_, rfl, rfl, rfl, rfl, rfl, rfl, rfl, rfl, (if_pos hlt).symm,
    (if_pos hlt).symm, rfl, rfl, rfl, rfl, hz⟩
  · show 0 = _
    omega
  · show 0 = _
    omega

end Old

end Z486.Sdram
