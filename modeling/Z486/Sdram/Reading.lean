/-
Read accesses of the SDRAM controller, clock by clock. From the clock that accepts a read on, its
registers are known functions of the clocks gone by: the column reads follow each other once the row is
open, the halves come back a fixed number of clocks later, and the last one ends the access.
-/
import Z486.Sdram.Bus

namespace Z486.Sdram

/-! ## The course of a read -/

/-- The clocks from the accepted request to the capture of the first half. -/
def SdramParams.readStart (p : SdramParams) : Nat := p.tRcd + p.cas + 2

/-- The clocks a read takes. -/
def SdramParams.readClocks (p : SdramParams) (q : SdramReq) : Nat := p.readStart + 2 * q.effBurst

/-- A read that wraps within its line of four dwords. -/
def SdramReq.wraps (q : SdramReq) : Bool := q.burstWrap && q.burstCnt == 4

/-- The 16-bit column of the `j`-th half of a read. -/
def SdramReq.halfColumn (p : SdramParams) (q : SdramReq) (j : Nat) : BitVec 10 :=
  let base := columnOf p.large q.addr
  if q.wraps then base.extractLsb' 2 7 ++ (base.extractLsb' 0 2 + BitVec.ofNat 2 (j / 2)) ++ BitVec.ofNat 1 j
  else (base + BitVec.ofNat 9 (j / 2)) ++ BitVec.ofNat 1 j

/-- The command on the pins `k` clocks after a read was accepted. -/
def readBus (p : SdramParams) (q : SdramReq) (k : Nat) : BusCmd :=
  if k = 1 then .activate (p.chipOf q.addr) (bankOf p.large q.addr) (rowOf p.large q.addr)
  else if p.tRcd < k ∧ k ≤ p.tRcd + 2 * q.effBurst then
    .read (p.chipOf q.addr) (bankOf p.large q.addr) (chipColumn p.large (q.halfColumn p (k - 1 - p.tRcd)))
      (k = p.tRcd + 2 * q.effBurst)
  else .nop

/-- The registers `k` clocks after a read was accepted. -/
structure Reading (p : SdramParams) (port : Port) (q : SdramReq) (k : Nat) (s : Controller) : Prop where
  state : s.state = if k < p.readClocks q then .read else .idle
  cycle : s.cycle = min k 31
  issued : s.rdIssued = min (2 * q.effBurst) (k - p.tRcd)
  received : s.rdReceived = k - p.readStart
  total : s.rdTotalHalfs = 2 * q.effBurst
  base : s.rdColBase = columnOf p.large q.addr
  wrap : s.rdWrap = q.wraps
  addr : s.addrBuf = q.addr
  large : s.reqLargeBuf = p.large
  chip : s.reqChipBuf = p.chipOf q.addr
  id : s.reqIdBuf = port
  bus : s.bus p = readBus p q k
  ready : s.readyPulse = if k = 1 then some port else none
  resp : s.dataRespPulse = decide (p.readStart + 2 ≤ k ∧ (k - p.readStart) % 2 = 0)
  done : s.burstDonePulse = decide (k = p.readClocks q)
  hiZ : s.dqOen = true

theorem SdramReq.effBurst_pos (q : SdramReq) : 1 ≤ q.effBurst := by
  unfold SdramReq.effBurst
  split
  · exact le_rfl
  · rename_i h
    rw [beq_iff_eq, ← BitVec.toNat_inj] at h
    exact Nat.one_le_iff_ne_zero.2 h

theorem SdramReq.effBurst_le (q : SdramReq) : q.effBurst ≤ 15 := by
  unfold SdramReq.effBurst
  split
  · decide
  · omega

namespace Controller

variable {p : SdramParams} {s : Controller} (b : Controller)

/-- A capture changes nothing but the counter of the halves received and what leads to the port. -/
theorem readCapture_keeps : (s.readCapture p b).bus p = b.bus p ∧ (s.readCapture p b).cycle = b.cycle ∧
    (s.readCapture p b).rdIssued = b.rdIssued ∧ (s.readCapture p b).rdTotalHalfs = b.rdTotalHalfs ∧
    (s.readCapture p b).rdColBase = b.rdColBase ∧ (s.readCapture p b).rdWrap = b.rdWrap ∧
    (s.readCapture p b).addrBuf = b.addrBuf ∧ (s.readCapture p b).reqLargeBuf = b.reqLargeBuf ∧
    (s.readCapture p b).reqChipBuf = b.reqChipBuf ∧ (s.readCapture p b).reqIdBuf = b.reqIdBuf ∧
    (s.readCapture p b).readyPulse = b.readyPulse ∧ (s.readCapture p b).dqOen = b.dqOen := by
  unfold readCapture
  split
  · dsimp only
    split
    · exact ⟨rfl, rfl, rfl, rfl, rfl, rfl, rfl, rfl, rfl, rfl, rfl, rfl⟩
    · split <;> exact ⟨rfl, rfl, rfl, rfl, rfl, rfl, rfl, rfl, rfl, rfl, rfl, rfl⟩
  · exact ⟨rfl, rfl, rfl, rfl, rfl, rfl, rfl, rfl, rfl, rfl, rfl, rfl⟩

/-- The issue changes nothing but the pins and its counter. -/
theorem readIssue_keeps : (s.readIssue p b).state = b.state ∧ (s.readIssue p b).cycle = b.cycle ∧
    (s.readIssue p b).rdReceived = b.rdReceived ∧ (s.readIssue p b).rdTotalHalfs = b.rdTotalHalfs ∧
    (s.readIssue p b).rdColBase = b.rdColBase ∧ (s.readIssue p b).rdWrap = b.rdWrap ∧
    (s.readIssue p b).addrBuf = b.addrBuf ∧ (s.readIssue p b).reqLargeBuf = b.reqLargeBuf ∧
    (s.readIssue p b).reqChipBuf = b.reqChipBuf ∧ (s.readIssue p b).reqIdBuf = b.reqIdBuf ∧
    (s.readIssue p b).readyPulse = b.readyPulse ∧ (s.readIssue p b).dataRespPulse = b.dataRespPulse ∧
    (s.readIssue p b).burstDonePulse = b.burstDonePulse ∧ (s.readIssue p b).dqOen = b.dqOen := by
  unfold readIssue
  split <;> exact ⟨rfl, rfl, rfl, rfl, rfl, rfl, rfl, rfl, rfl, rfl, rfl, rfl, rfl, rfl⟩

end Controller

section Next

variable {p : SdramParams} {port : Port} {q : SdramReq} {k : Nat} {s : Controller} {i : SdramIn}

namespace Reading

variable (h : Reading p port q k s) (hk : 1 ≤ k) (hlt : k < p.readClocks q)
include h

theorem issues_iff : p.tRcd ≤ s.cycle ∧ s.rdIssued < s.rdTotalHalfs ↔
    p.tRcd ≤ k ∧ k < p.tRcd + 2 * q.effBurst := by
  have hf := p.fits.rcd
  rw [h.cycle, h.issued, h.total]
  omega

include hlt in
theorem captures_iff : p.tRcd + p.cas + 2 ≤ s.cycle ∧ s.rdReceived < s.rdIssued ↔ p.readStart ≤ k := by
  have hf := p.fits
  have hrcd := hf.rcd
  have hcas := hf.cas
  have he := q.effBurst_pos
  rw [h.cycle, h.received, h.issued]
  unfold SdramParams.readClocks at hlt
  unfold SdramParams.readStart at hlt ⊢
  omega

include hk

/-- The pins and the issue counter of the next clock. -/
theorem issue_next : (s.readIssue p (s.tick p i)).bus p = readBus p q (k + 1) ∧
    (s.readIssue p (s.tick p i)).rdIssued = min (2 * q.effBurst) (k + 1 - p.tRcd) := by
  have hf := p.fits.rcd
  unfold Controller.readIssue readBus
  rw [if_neg (by omega : ¬ k + 1 = 1)]
  by_cases hi : p.tRcd ≤ k ∧ k < p.tRcd + 2 * q.effBurst
  · rw [if_pos (h.issues_iff.2 hi), if_pos (by omega : p.tRcd < k + 1 ∧ k + 1 ≤ p.tRcd + 2 * q.effBurst)]
    have hiss : s.rdIssued = k - p.tRcd := by rw [h.issued]; omega
    have hcol : s.readColumn = q.halfColumn p (k + 1 - 1 - p.tRcd) := by
      unfold Controller.readColumn SdramReq.halfColumn
      rw [h.wrap, h.base, hiss, Nat.add_sub_cancel]
    have hap : (s.rdIssued + 1 == s.rdTotalHalfs) = decide (k + 1 = p.tRcd + 2 * q.effBurst) := by
      rw [hiss, h.total, Bool.eq_iff_iff, beq_iff_eq, decide_eq_true_eq]
      omega
    constructor
    · show BusCmd.read s.reqChipBuf (bankOf s.reqLargeBuf s.addrBuf) (pinColumn p.large _) _ = _
      rw [columnPins_ap, h.large, pinColumn_columnPins, hcol, hap, h.chip, h.addr]
    · show s.rdIssued + 1 = _
      omega
  · rw [if_neg (fun hc => hi (h.issues_iff.1 hc)), if_neg (by omega)]
    constructor
    · rfl
    · show s.rdIssued = _
      rw [h.issued]
      omega

include hlt

omit hk in
/-- What the capture adds in the next clock. -/
theorem capture_next {b : Controller} (hst : b.state = .read) (hrec : b.rdReceived = s.rdReceived)
    (hresp : b.dataRespPulse = false) (hdone : b.burstDonePulse = false) :
    (s.readCapture p b).state = (if k + 1 < p.readClocks q then .read else .idle) ∧
      (s.readCapture p b).rdReceived = k + 1 - p.readStart ∧
      (s.readCapture p b).dataRespPulse = decide (p.readStart + 2 ≤ k + 1 ∧ (k + 1 - p.readStart) % 2 = 0) ∧
      (s.readCapture p b).burstDonePulse = decide (k + 1 = p.readClocks q) := by
  have he := q.effBurst_pos
  have hcap := h.captures_iff hlt
  have hs := h.received
  have htot := h.total
  have hn : p.readClocks q = p.readStart + 2 * q.effBurst := rfl
  unfold Controller.readCapture
  by_cases hc : p.readStart ≤ k
  · rw [if_pos (hcap.2 hc)]
    by_cases hpar : s.rdReceived % 2 = 0
    · simp only [hpar, if_true, hst, hresp, hdone]
      refine ⟨?_, by omega, ?_, ?_⟩
      · rw [if_pos (by omega)]
      · exact (decide_eq_false (by omega)).symm
      · exact (decide_eq_false (by omega)).symm
    · by_cases hlast : s.rdReceived + 1 = s.rdTotalHalfs
      · simp only [hpar, if_false, hlast, if_true]
        refine ⟨?_, by omega, ?_, ?_⟩
        · rw [if_neg (by omega)]
        · exact (decide_eq_true (by omega)).symm
        · exact (decide_eq_true (by omega)).symm
      · simp only [hpar, if_false, hlast, hst, hdone]
        refine ⟨?_, by omega, ?_, ?_⟩
        · rw [if_pos (by omega)]
        · exact (decide_eq_true (by omega)).symm
        · exact (decide_eq_false (by omega)).symm
  · rw [if_neg fun h' => hc (hcap.1 h')]
    refine ⟨?_, by omega, ?_, ?_⟩
    · rw [hst, if_pos (by omega)]
    · rw [hresp]
      exact (decide_eq_false (by omega)).symm
    · rw [hdone]
      exact (decide_eq_false (by omega)).symm

/-- A read goes on as `Reading` says. -/
theorem next : Reading p port q (k + 1) (s.next p i) := by
  obtain ⟨hbus, hissued⟩ := h.issue_next (i := i) hk
  have hs : s.state = .read := by rw [h.state, if_pos hlt]
  have hnext : s.next p i = s.readCapture p (s.readIssue p (s.tick p i)) := by
    unfold Controller.next
    rw [hs]
    rfl
  have hcycle : (s.tick p i).cycle = min (k + 1) 31 := by
    show (if s.cycle = 31 then s.cycle else s.cycle + 1) = _
    rw [h.cycle]
    split <;> omega
  obtain ⟨i1, i2, i3, i4, i5, i6, i7, i8, i9, i10, i11, i12, i13, i14⟩ :=
    Controller.readIssue_keeps (p := p) (s := s) (s.tick p i)
  obtain ⟨c1, c2, c3, c4, c5, c6, c7, c8, c9, c10, c11, c12⟩ :=
    Controller.readCapture_keeps (p := p) (s := s) (s.readIssue p (s.tick p i))
  obtain ⟨hstate, hrec, hresp, hdone⟩ := h.capture_next hlt (i1.trans hs) i3 i12 i13
  rw [hnext]
  refine ⟨hstate, c2.trans (i2.trans hcycle), c3.trans hissued, hrec, (c4.trans i4).trans h.total,
    (c5.trans i5).trans h.base, (c6.trans i6).trans h.wrap, (c7.trans i7).trans h.addr, (c8.trans i8).trans h.large,
    (c9.trans i9).trans h.chip, (c10.trans i10).trans h.id, c1.trans hbus, ?_, hresp, hdone, (c12.trans i14).trans h.hiZ⟩
  rw [c11, i11, if_neg (by omega)]
  rfl

omit h hk hlt in
/-- The clock that accepts a read. -/
theorem start (hz : s.dqOen = true) (ha : s.accepts i = some port)
    (hr : (i.req port).wr = false) : Reading p port (i.req port) 1 (s.next p i) := by
  have hf := p.fits
  have hrcd := hf.rcd
  have hcas := hf.cas
  have he := (i.req port).effBurst_pos
  have hn : p.readStart = p.tRcd + p.cas + 2 := rfl
  have hn' : p.readClocks (i.req port) = p.readStart + 2 * (i.req port).effBurst := rfl
  rw [Controller.next_of_accepts ha]
  unfold Controller.accept
  rw [hr, if_neg (by decide)]
  refine ⟨?_, rfl, ?_, ?_, rfl, rfl, rfl, rfl, rfl, rfl, rfl, rfl, rfl, ?_, ?_, hz⟩
  · rw [if_pos (by omega)]
    rfl
  · show 0 = _
    omega
  · show 0 = _
    omega
  · exact (decide_eq_false (by omega)).symm
  · exact (decide_eq_false (by omega)).symm

end Reading

end Next

end Z486.Sdram
