/-
Runs of the GUS sample memory. Whatever the port does, the module answers every request once, and what it answers is what
a megabyte of bytes would: the bytes of DDR3 are those of the megabyte at every clock, and the kept word is a word of
DDR3.
-/
import Z486.Gus.SampleMemory

namespace Z486.Gus

open Clocked Memory Ddr3

/-! ## What holds at every clock -/

/-- The module with DDR3, in a clock with the request `r`. -/
structure Coherent (s : SampleMemory) (r : GusReq) : Prop where
  ack : s.chip.memAck = true → s.chip.state = .idle
  req : s.chip.state ≠ .idle → r.memReq = true
  loaded : s.chip.state ≠ .idle → Loaded s.chip r
  we : s.chip.state ≠ .idle → r.memWe = decide (s.chip.state = .wr)
  pending : s.pending = if s.chip.state = .rdw then some (readWord s.mem s.chip.ddrAddr) else none
  kept : s.chip.tagValid = true → s.chip.kept = readWord s.mem (sampleWord s.chip.tag)

/-- The three kinds of clocks: nothing is answered, a read is, or a write is. -/
inductive Edge (s : SampleMemory) (r : GusReq) (s' : SampleMemory) : Prop
  | quiet (ack : s'.chip.memAck = false) (mem : s'.mem = s.mem)
  | reads (asked : r.memReq = true ∧ s.chip.memAck = false) (ack : s'.chip.memAck = true) (mem : s'.mem = s.mem)
      (we : r.memWe = false)
      (rdata : s'.chip.memRdata = (ramOf s.mem).word r.memAddr)
  | writes (asked : r.memReq = true ∧ s.chip.memAck = false) (ack : s'.chip.memAck = true) (we : r.memWe = true)
      (loaded : Loaded s.chip r)
      (mem : s'.mem = writeWord s.mem s.chip.ddrAddr s.chip.ddrBe s.chip.ddrDin)

namespace Coherent

variable {s : SampleMemory} {i : SampleIn} {r' : GusReq}

theorem no_ack (h : Coherent s i.req) (hstate : s.chip.state ≠ .idle) : s.chip.memAck = false :=
  Bool.eq_false_iff.2 fun hack => hstate (h.ack hack)

/-- Without a command accepted DDR3 keeps its bytes, and without a read it has nothing to answer. -/
theorem ddr_idle (h : Coherent s i.req) (hstate : s.chip.state = .idle) :
    (s.step i).mem = s.mem ∧ (s.step i).pending = none := by
  have hrd : s.chip.ddrRd = false := by unfold GusDdr.ddrRd; rw [hstate]; rfl
  have hwe : s.chip.ddrWe = false := by unfold GusDdr.ddrWe; rw [hstate]; rfl
  have hpending : s.pending = none := by rw [h.pending, hstate]; rfl
  constructor
  · show (if s.chip.ddrWe && !i.busy then _ else s.mem) = _
    rw [hwe]; rfl
  · show (if s.chip.ddrRd && !i.busy then _ else if i.answers then none else s.pending) = _
    rw [hrd, hpending]
    cases i.answers <;> rfl

theorem step_idle (h : Coherent s i.req) (hreset : i.reset = false) (hstate : s.chip.state = .idle)
    (hheld : i.req.memReq = true → s.chip.memAck = false → r' = i.req) :
    Edge s i.req (s.step i) ∧ Coherent (s.step i) r' := by
  obtain ⟨hmem, hpending⟩ := h.ddr_idle hstate
  have hchip : (s.step i).chip = s.chip.idleNext i.req i.startOk := by
    show GusDdr.step _ _ _ _ _ _ (!i.reset) = _
    unfold GusDdr.step
    rw [hreset, hstate]
    rfl
  -- a clock that leaves the module idle with the kept word it has
  have hstays : ∀ c : GusDdr, (s.step i).chip = c → c.state = .idle → c.tagValid = s.chip.tagValid →
      c.tag = s.chip.tag → c.kept = s.chip.kept → Coherent (s.step i) r' := by
    intro c hc hidle hvalid htag hkept
    have hnot : ¬ (s.step i).chip.state ≠ .idle := by rw [hc, hidle]; exact fun h => h rfl
    refine ⟨fun _ => by rw [hc, hidle], fun h => absurd h hnot, fun h => absurd h hnot, fun h => absurd h hnot, ?_, ?_⟩
    · rw [hpending, hc, hidle]; rfl
    · rw [hc, hvalid, htag, hkept, hmem]
      exact h.kept
  by_cases hasked : i.req.memReq = true ∧ s.chip.memAck = false
  · have hcond : (i.req.memReq && !s.chip.memAck) = true := by rw [hasked.1, hasked.2]; rfl
    by_cases hhit : (!i.req.memWe && s.chip.hit i.req) = true
    · -- answered from the kept word
      have hnext : (s.step i).chip = { s.chip with
          memRdata := GusDdr.lane i.req.memAddr s.chip.kept, memAck := true } := by
        rw [hchip]; unfold GusDdr.idleNext; rw [if_pos hcond, if_pos hhit]
      simp only [Bool.and_eq_true, Bool.not_eq_true', GusDdr.hit, beq_iff_eq] at hhit
      obtain ⟨hwe, hvalid, htag⟩ := hhit
      refine ⟨.reads hasked (by rw [hnext]) hmem hwe ?_, hstays _ hnext hstate rfl rfl rfl⟩
      rw [hnext]
      show GusDdr.lane _ s.chip.kept = _
      rw [h.kept hvalid, htag, lane_readWord]
    · by_cases hstart : i.startOk = true
      · have hnext : (s.step i).chip = { s.chip with
            memAck := false, aR := i.req.memAddr, dR := i.req.memWdata, wR := i.req.memWord
            state := if i.req.memWe then .wr else .rd } := by
          rw [hchip]; unfold GusDdr.idleNext; rw [if_pos hcond, if_neg hhit, if_pos hstart]
        have hr' := hheld hasked.1 hasked.2
        refine ⟨.quiet (by rw [hnext]) hmem, ?_⟩
        have hstate' : (s.step i).chip.state = if i.req.memWe then .wr else .rd := by rw [hnext]
        refine ⟨fun hack => by rw [hnext] at hack; exact absurd hack Bool.false_ne_true, fun _ => hr' ▸ hasked.1,
          fun _ => hr' ▸ (by rw [hnext]; exact ⟨rfl, rfl, rfl⟩), fun _ => ?_, ?_, ?_⟩
        · rw [hr', hstate']; cases i.req.memWe <;> rfl
        · rw [hpending, hstate']; cases i.req.memWe <;> rfl
        · rw [hnext, hmem]; exact h.kept
      · have hnext : (s.step i).chip = { s.chip with memAck := false } := by
          rw [hchip]; unfold GusDdr.idleNext; rw [if_pos hcond, if_neg hhit, if_neg hstart]
        exact ⟨.quiet (by rw [hnext]) hmem, hstays _ hnext hstate rfl rfl rfl⟩
  · have hcond : ¬ (i.req.memReq && !s.chip.memAck) = true := by
      rw [Bool.and_eq_true, Bool.not_eq_true']; exact hasked
    have hnext : (s.step i).chip = { s.chip with memAck := false } := by
      rw [hchip]; unfold GusDdr.idleNext; rw [if_neg hcond]
    exact ⟨.quiet (by rw [hnext]) hmem, hstays _ hnext hstate rfl rfl rfl⟩

/-- A clock in which the transfer on the port goes on. -/
theorem waits (h : Coherent s i.req) (hne : s.chip.state ≠ .idle) (hr' : r' = i.req)
    (hchip : (s.step i).chip = { s.chip with memAck := false }) (hmem : (s.step i).mem = s.mem)
    (hpending : (s.step i).pending = s.pending) : Edge s i.req (s.step i) ∧ Coherent (s.step i) r' := by
  refine ⟨.quiet (by rw [hchip]) hmem, ⟨fun hack => ?_, fun _ => hr' ▸ h.req hne, fun _ => ?_, fun _ => ?_, ?_, ?_⟩⟩
  · rw [hchip] at hack
    exact absurd hack Bool.false_ne_true
  · rw [hr', hchip]
    exact ⟨(h.loaded hne).addr, (h.loaded hne).data, (h.loaded hne).word⟩
  · rw [hr', hchip]
    exact h.we hne
  · rw [hpending, hchip, hmem]
    exact h.pending
  · rw [hchip, hmem]
    exact h.kept

/-- A read is on the port. -/
theorem step_rd (h : Coherent s i.req) (hreset : i.reset = false) (hstate : s.chip.state = .rd)
    (hheld : i.req.memReq = true → s.chip.memAck = false → r' = i.req) :
    Edge s i.req (s.step i) ∧ Coherent (s.step i) r' := by
  have hne : s.chip.state ≠ .idle := by rw [hstate]; decide
  have hr' := hheld (h.req hne) (h.no_ack hne)
  have hwe : s.chip.ddrWe = false := by unfold GusDdr.ddrWe; rw [hstate]; rfl
  have hrd : s.chip.ddrRd = true := by unfold GusDdr.ddrRd; rw [hstate]; rfl
  have hmem : (s.step i).mem = s.mem := by
    show (if s.chip.ddrWe && !i.busy then _ else s.mem) = _
    rw [hwe]; rfl
  have hchip : (s.step i).chip = s.chip.rdNext i.busy := by
    show GusDdr.step _ _ _ _ _ _ (!i.reset) = _
    unfold GusDdr.step
    rw [hreset, hstate]
    rfl
  have hnone : s.pending = none := by rw [h.pending, hstate]; rfl
  have hpending : (s.step i).pending = if i.busy then none else some (readWord s.mem s.chip.ddrAddr) := by
    show (if s.chip.ddrRd && !i.busy then _ else if i.answers then none else s.pending) = _
    rw [hrd, hnone]
    cases i.busy <;> cases i.answers <;> rfl
  cases hbusy : i.busy with
  | true =>
    rw [hbusy, if_pos rfl, ← hnone] at hpending
    exact h.waits hne hr' (by rw [hchip, hbusy]; rfl) hmem hpending
  | false =>
    rw [hbusy, if_neg Bool.false_ne_true] at hpending
    have hnext : (s.step i).chip = { s.chip with memAck := false, state := .rdw } := by rw [hchip, hbusy]; rfl
    refine ⟨.quiet (by rw [hnext]) hmem, ⟨fun hack => ?_, fun _ => hr' ▸ h.req hne, fun _ => ?_, fun _ => ?_, ?_, ?_⟩⟩
    · rw [hnext] at hack
      exact absurd hack Bool.false_ne_true
    · rw [hr', hnext]
      exact ⟨(h.loaded hne).addr, (h.loaded hne).data, (h.loaded hne).word⟩
    · rw [hr', hnext, h.we hne, hstate]; rfl
    · rw [hpending, hnext, hmem]; rfl
    · rw [hnext, hmem]
      exact h.kept

/-- The word of a read is waited for. -/
theorem step_rdw (h : Coherent s i.req) (hreset : i.reset = false) (hstate : s.chip.state = .rdw)
    (hheld : i.req.memReq = true → s.chip.memAck = false → r' = i.req) :
    Edge s i.req (s.step i) ∧ Coherent (s.step i) r' := by
  have hne : s.chip.state ≠ .idle := by rw [hstate]; decide
  have hr' := hheld (h.req hne) (h.no_ack hne)
  have hwe : s.chip.ddrWe = false := by unfold GusDdr.ddrWe; rw [hstate]; rfl
  have hrd : s.chip.ddrRd = false := by unfold GusDdr.ddrRd; rw [hstate]; rfl
  have hmem : (s.step i).mem = s.mem := by
    show (if s.chip.ddrWe && !i.busy then _ else s.mem) = _
    rw [hwe]; rfl
  have hword : s.pending = some (readWord s.mem s.chip.ddrAddr) := by rw [h.pending, hstate]; rfl
  have hpending : (s.step i).pending = if i.answers then none else s.pending := by
    show (if s.chip.ddrRd && !i.busy then _ else if i.answers then none else s.pending) = _
    rw [hrd]; rfl
  have hchip : (s.step i).chip = s.chip.rdwNext i.req i.answers (readWord s.mem s.chip.ddrAddr) := by
    show GusDdr.step _ _ _ _ _ _ (!i.reset) = _
    unfold GusDdr.step
    rw [hreset, hstate, hword]
    rfl
  have haddr : s.chip.ddrAddr = sampleWord (i.req.memAddr.extractLsb' 3 17) := by
    rw [ddrAddr_eq, (h.loaded hne).addr]
  cases hanswers : i.answers with
  | false =>
    rw [hanswers, if_neg Bool.false_ne_true] at hpending
    exact h.waits hne hr' (by rw [hchip, hanswers]; rfl) hmem hpending
  | true =>
    rw [hanswers, if_pos rfl] at hpending
    -- the word of the sample address is kept, with its tag
    have hnext : (s.step i).chip = { s.chip with
        kept := readWord s.mem s.chip.ddrAddr, tag := i.req.memAddr.extractLsb' 3 17, tagValid := true
        memRdata := GusDdr.lane i.req.memAddr (readWord s.mem s.chip.ddrAddr), memAck := true, state := .idle } := by
      rw [hchip, hanswers]; rfl
    have hidle : (s.step i).chip.state = .idle := by rw [hnext]
    have hread : i.req.memWe = false := by rw [h.we hne, hstate]; rfl
    refine ⟨.reads ⟨h.req hne, h.no_ack hne⟩ (by rw [hnext]) hmem hread ?_, ?_⟩
    · rw [hnext]
      show GusDdr.lane _ (readWord s.mem s.chip.ddrAddr) = _
      rw [haddr, lane_readWord]
    · refine ⟨fun _ => hidle, fun h => absurd hidle h, fun h => absurd hidle h, fun h => absurd hidle h, ?_, ?_⟩
      · rw [hpending, hidle]; rfl
      · rw [hnext, hmem, ← haddr]; exact fun _ => rfl

/-- A write is on the port; when it is accepted it goes into the kept word too. -/
theorem step_wr (h : Coherent s i.req) (hreset : i.reset = false) (hstate : s.chip.state = .wr)
    (hheld : i.req.memReq = true → s.chip.memAck = false → r' = i.req) :
    Edge s i.req (s.step i) ∧ Coherent (s.step i) r' := by
  have hne : s.chip.state ≠ .idle := by rw [hstate]; decide
  have hr' := hheld (h.req hne) (h.no_ack hne)
  have hwe : s.chip.ddrWe = true := by unfold GusDdr.ddrWe; rw [hstate]; rfl
  have hrd : s.chip.ddrRd = false := by unfold GusDdr.ddrRd; rw [hstate]; rfl
  have hnone : s.pending = none := by rw [h.pending, hstate]; rfl
  have hpending : (s.step i).pending = none := by
    show (if s.chip.ddrRd && !i.busy then _ else if i.answers then none else s.pending) = _
    rw [hrd, hnone]
    cases i.answers <;> rfl
  have hchip : (s.step i).chip = s.chip.wrNext i.req i.busy := by
    show GusDdr.step _ _ _ _ _ _ (!i.reset) = _
    unfold GusDdr.step
    rw [hreset, hstate]
    rfl
  cases hbusy : i.busy with
  | true =>
    -- DDR3 is busy: the write is held
    have hmem : (s.step i).mem = s.mem := by
      show (if s.chip.ddrWe && !i.busy then _ else s.mem) = _
      rw [hbusy, Bool.not_true, Bool.and_false]; rfl
    exact h.waits hne hr' (by rw [hchip, hbusy]; rfl) hmem (hpending.trans hnone.symm)
  | false =>
    -- DDR3 takes the write, and the kept word follows when it is the one written
    have hmem : (s.step i).mem = writeWord s.mem s.chip.ddrAddr s.chip.ddrBe s.chip.ddrDin := by
      show (if s.chip.ddrWe && !i.busy then _ else s.mem) = _
      rw [hwe, hbusy]; rfl
    have hnext : (s.step i).chip = { s.chip with
        kept := if s.chip.hit i.req then byteMerge64 s.chip.kept s.chip.ddrDin s.chip.ddrBe else s.chip.kept
        memAck := true, state := .idle } := by
      rw [hchip, hbusy]; rfl
    have hidle : (s.step i).chip.state = .idle := by rw [hnext]
    have hwrite : i.req.memWe = true := by rw [h.we hne, hstate]; rfl
    have haddr : s.chip.ddrAddr = sampleWord (i.req.memAddr.extractLsb' 3 17) := by
      rw [ddrAddr_eq, (h.loaded hne).addr]
    refine ⟨.writes ⟨h.req hne, h.no_ack hne⟩ (by rw [hnext]) hwrite (h.loaded hne) hmem, ?_⟩
    refine ⟨fun _ => hidle, fun h => absurd hidle h, fun h => absurd hidle h, fun h => absurd hidle h, ?_, ?_⟩
    · rw [hpending, hidle]; rfl
    · rw [hnext, hmem]
      intro hvalid
      have hkept := h.kept hvalid
      by_cases hhit : s.chip.hit i.req = true
      · have htag : s.chip.tag = i.req.memAddr.extractLsb' 3 17 := by
          simp only [GusDdr.hit, Bool.and_eq_true, beq_iff_eq] at hhit
          exact hhit.2
        show (if s.chip.hit i.req then _ else _) = readWord _ (sampleWord s.chip.tag)
        rw [if_pos hhit, htag, ← haddr, readWord_writeWord, hkept, htag, haddr]
      · have htag : s.chip.tag ≠ i.req.memAddr.extractLsb' 3 17 := by
          intro htag
          refine hhit ?_
          have hvalid' : s.chip.tagValid = true := hvalid
          rw [GusDdr.hit, hvalid', htag, Bool.true_and, beq_self_eq_true]
        show (if s.chip.hit i.req then _ else s.chip.kept) = readWord _ (sampleWord s.chip.tag)
        rw [if_neg hhit, haddr, readWord_writeWord_of_ne (mt sampleWord_inj.1 htag), hkept]

/-- One clock: at most one request is answered, as the megabyte would, and DDR3 and the kept word stay coherent. -/
theorem step (h : Coherent s i.req) (hreset : i.reset = false)
    (hheld : i.req.memReq = true → s.chip.memAck = false → r' = i.req) :
    Edge s i.req (s.step i) ∧ Coherent (s.step i) r' := by
  cases hstate : s.chip.state with
  | idle => exact h.step_idle hreset hstate hheld
  | rd => exact h.step_rd hreset hstate hheld
  | rdw => exact h.step_rdw hreset hstate hheld
  | wr => exact h.step_wr hreset hstate hheld

end Coherent

end Z486.Gus
