/-
A block of samples that goes out. While it is under way the length counter, the waits of the packed formats and the
halves of a stereo pair keep in step with the number of samples taken; what is still to come becomes less with every
interrupt of the timer without a request and with every acknowledge of a request.
-/
import Z486.Sound.SampleClock

namespace Z486.Sound.Dsp

variable {s : Dsp} {i : DspIn} {n N : Nat} {ref : Bool}

/-! ## Clocks without a start -/

/-- A sample is taken for the request of a transfer. -/
def sampleTaken (s : Dsp) (i : DspIn) : Bool := s.dmaNormalReq && s.dmaAckF i && !s.dmaIdActive

theorem start_of_idle (hc : s.dmaCommand = .idle) :
    s.dmaSingleStart i = false ∧ s.dmaAutoStart i = false ∧ s.dmaNewStart i = false ∧ s.dmaStart i = false := by
  unfold dmaStart dmaSingleStart dmaAutoStart dmaNewStart
  rw [hc]
  simp [DmaCommand.single, DmaCommand.auto, DmaCommand.new]

namespace Quiet

variable (h : s.Quiet i)
include h

theorem dmaCommand_step : (s.step i).dmaCommand = if s.dmaStart i then .idle else s.dmaCommand := by
  show s.dmaCommandNext i = _
  unfold dmaCommandNext
  simp only [h.rstN, h.swReset, h.ordered, Bool.not_true, Bool.false_eq_true, if_false]

theorem pauseActive_step : (s.step i).pauseActive = if s.pauseFinished then false else s.pauseActive := by
  show s.pauseActiveNext i = _
  unfold pauseActiveNext
  simp only [h.rstN, h.swReset, h.pauseDac, Bool.not_true, Bool.false_eq_true, if_false]

theorem dmaIdActive_step (hid : s.dmaIdActive = false) : (s.step i).dmaIdActive = false := by
  show s.dmaIdActiveNext i = false
  unfold dmaIdActiveNext cmdDmaId
  rw [h.rstN, h.swReset, h.cmd, hid]
  simp

theorem dmaNormalReq_step : (s.step i).dmaNormalReq =
    if s.dmaValid i then false
    else if s.dmaInProgress && s.timer0Isr && s.adpcmWait == 0 && !s.pauseActive then true else s.dmaNormalReq := by
  show s.dmaNormalReqNext i = _
  unfold dmaNormalReqNext
  simp only [h.rstN, h.swReset, h.highspeedReset, Bool.not_true, Bool.or_self, Bool.false_eq_true, if_false]

theorem dmaInProgress_step : (s.step i).dmaInProgress =
    if s.dmaFinished i then false else if s.dmaStart i then true else s.dmaInProgress := by
  show s.dmaInProgressNext i = _
  unfold dmaInProgressNext
  simp only [h.rstN, h.swReset, h.highspeedReset, h.pauseStart, h.pauseEnd, Bool.not_true, Bool.or_self, Bool.false_or,
    Bool.false_eq_true, if_false]

theorem timerBit_step (bit : Bool) : s.timerBitNext i bit =
    if s.pauseFinished || s.dmaFinished i then false else if s.dmaStart i then true else bit := by
  unfold timerBitNext
  simp only [h.rstN, h.swReset, h.highspeedReset, h.pauseStart, h.pauseEnd, h.pauseDac, Bool.not_true, Bool.or_self,
    Bool.false_or, Bool.false_eq_true, if_false]

theorem dmaFormat_step : (s.step i).dmaFormat =
    if s.dmaNewStart i then BitVec.ofBool (s.cmdCurr.getLsbD 4) ++ 0#1 ++ s.writeBuffer.extractLsb' 20 2
    else if s.dmaStart i then 0#1 ++ BitVec.ofBool i.sbpStereo ++ 0#2 else s.dmaFormat := by
  show s.dmaFormatNext i = _
  unfold dmaFormatNext
  simp only [h.rstN, h.swReset, Bool.not_true, Bool.or_self, Bool.false_eq_true, if_false]

end Quiet

/-! ## A block under way -/

/-- A block with the given format goes out. -/
structure Active (s : Dsp) (format : BitVec 4) (packed : Adpcm) : Prop where
  inProgress : s.dmaInProgress = true
  tr0 : s.tr0 = true
  et0 : s.et0 = true
  once : s.dmaAutoinit = false
  output : s.dmaIsInput = false
  noId : s.dmaIdActive = false
  command : s.dmaCommand = .idle
  unpaused : s.pauseActive = false
  format : s.dmaFormat = format
  packed : s.adpcmType = packed

/-- The block has come to its end. -/
structure Over (s : Dsp) : Prop where
  inProgress : s.dmaInProgress = false
  noId : s.dmaIdActive = false
  command : s.dmaCommand = .idle
  unpaused : s.pauseActive = false

section Active

variable {format : BitVec 4} {packed : Adpcm} (h : s.Active format packed)
include h

theorem Active.pauseFinished : s.pauseFinished = false := by
  rw [Dsp.pauseFinished, pauseDecrement, h.unpaused]
  rfl

theorem Active.dmaFinished : s.dmaFinished i = s.blockEnds i := by
  rw [Dsp.dmaFinished, h.inProgress, h.once]
  rfl

/-- The interrupt is the one of the end of the block. -/
theorem Active.raises : s.raises i = s.blockEnds i := by
  rw [Dsp.raises, h.dmaFinished, h.pauseFinished, dmaAutoRestart, h.once, Bool.and_false, Bool.false_and, Bool.or_false,
    Bool.or_false]

theorem Active.dmaReq : s.dmaReq = s.dmaNormalReq := by
  rw [Dsp.dmaReq, h.noId]
  rfl

theorem Active.sampleTaken (ha : i.dmaAck = true → s.dmaReq = true) : s.sampleTaken i = s.dmaAckF i := by
  rw [Dsp.sampleTaken, h.noId]
  cases hack : i.dmaAck with
  | true => rw [← h.dmaReq, ha hack, Bool.true_and, Bool.not_false, Bool.and_true]
  | false =>
    rw [dmaAckF, hack]
    simp

theorem Active.dmaValid (ha : i.dmaAck = true → s.dmaReq = true) :
    s.dmaValid i = (s.sampleTaken i && (!format.getLsbD 1 || s.sampleLr)) := by
  rw [Dsp.dmaValid, dmaAckW, h.noId, h.format, ← h.sampleTaken ha]
  cases htaken : s.sampleTaken i with
  | true =>
    unfold Dsp.sampleTaken at htaken
    simp only [Bool.and_eq_true] at htaken
    rw [htaken.1.1]
    simp
  | false => simp

theorem Active.any_taken (ha : i.dmaAck = true → s.dmaReq = true) :
    (s.dmaValid i || s.dmaAckStereo i) = s.sampleTaken i := by
  rw [h.dmaValid ha, dmaAckStereo, h.format, ← h.sampleTaken ha]
  cases s.sampleTaken i <;> cases format.getLsbD 1 <;> cases s.sampleLr <;> rfl

theorem Active.step (hq : s.Quiet i) (hend : s.blockEnds i = false) : (s.step i).Active format packed := by
  obtain ⟨hsingle, hauto, hnew, hstart⟩ := start_of_idle (i := i) h.command
  have hfinish : s.dmaFinished i = false := h.dmaFinished.trans hend
  refine ⟨?_, ?_, ?_, ?_, ?_, hq.dmaIdActive_step h.noId, ?_, ?_, ?_, ?_⟩
  · rw [hq.dmaInProgress_step, hfinish, hstart]
    exact h.inProgress
  · refine (hq.timerBit_step s.tr0).trans ?_
    rw [h.pauseFinished, hfinish, hstart]
    exact h.tr0
  · refine (hq.timerBit_step s.et0).trans ?_
    rw [h.pauseFinished, hfinish, hstart]
    exact h.et0
  · show s.dmaAutoinitNext i = false
    unfold dmaAutoinitNext cmdAutoDmaExit cmdAutoDmaContinue
    rw [hq.rstN, hq.swReset, hq.highspeedReset, hsingle, hauto, hq.cmd]
    exact h.once
  · show s.dmaIsInputNext i = false
    unfold dmaIsInputNext
    rw [hq.rstN, hq.swReset, hq.highspeedReset, hstart]
    exact h.output
  · rw [hq.dmaCommand_step, hstart]
    exact h.command
  · rw [hq.pauseActive_step, h.pauseFinished]
    exact h.unpaused
  · rw [hq.dmaFormat_step, hnew, hstart]
    exact h.format
  · show s.adpcmTypeNext i = packed
    unfold adpcmTypeNext
    rw [hq.rstN, hq.swReset, hstart, hfinish]
    exact h.packed

theorem Active.over (hq : s.Quiet i) (hend : s.blockEnds i = true) : (s.step i).Over := by
  obtain ⟨-, -, -, hstart⟩ := start_of_idle (i := i) h.command
  refine ⟨?_, hq.dmaIdActive_step h.noId, ?_, ?_⟩
  · rw [hq.dmaInProgress_step, h.dmaFinished, hend]
    rfl
  · rw [hq.dmaCommand_step, hstart]
    exact h.command
  · rw [hq.pauseActive_step, h.pauseFinished]
    exact h.unpaused

theorem Active.dmaNormalReq_step (hq : s.Quiet i) : (s.step i).dmaNormalReq =
    if s.dmaValid i then false else if s.timer0Isr && s.adpcmWait == 0 then true else s.dmaNormalReq := by
  rw [hq.dmaNormalReq_step, h.inProgress, h.unpaused, Bool.true_and, Bool.not_false, Bool.and_true]

theorem Active.lenLeft_step (hq : s.Quiet i) (ha : i.dmaAck = true → s.dmaReq = true) :
    (s.step i).lenLeft.toNat = s.lenLeft.toNat - (s.sampleTaken i).toNat := by
  obtain ⟨hsingle, hauto, -, -⟩ := start_of_idle (i := i) h.command
  have hrestart : s.dmaAutoRestart i = false := by
    rw [dmaAutoRestart, h.once, Bool.and_false]
    rfl
  have hdecrement : s.pauseDecrement = false := by
    rw [pauseDecrement, h.unpaused]
    rfl
  have hnext : (s.step i).lenLeft = if s.sampleTaken i && s.lenLeft != 0 then s.lenLeft - 1
      else if s.blockEnds i then 0 else s.lenLeft := by
    show s.lenLeftNext i = _
    unfold lenLeftNext
    simp only [hq.rstN, hq.swReset, hq.highspeedReset, hsingle, hauto, hrestart, hq.highspeedStart, hq.pauseDac,
      h.any_taken ha, h.pauseFinished, h.dmaFinished, hdecrement, Bool.not_true, Bool.or_self, Bool.false_or,
      Bool.false_and, Bool.false_eq_true, if_false]
  rw [hnext]
  by_cases hzero : s.lenLeft = 0
  · rw [hzero]
    simp
  · have hno : s.blockEnds i = false := by
      rw [blockEnds, beq_false_of_ne hzero]
      rfl
    rw [hno, bne_iff_ne.2 hzero, Bool.and_true]
    cases s.sampleTaken i with
    | true =>
      have hpos : 0 < s.lenLeft.toNat := Nat.pos_of_ne_zero fun he => hzero (BitVec.eq_of_toNat_eq he)
      simp only [if_true, Bool.toNat_true]
      bv_omega
    | false => rfl

theorem Active.adpcmWait_step (hq : s.Quiet i) : (s.step i).adpcmWait =
    if s.adpcmReferenceAwaiting && s.dmaValid i then 0
    else if s.dmaValid i && packed == .twoBit then 3
    else if s.dmaValid i && packed == .threeBit then 2
    else if s.dmaValid i && packed == .fourBit then 1
    else if s.timer0Isr && s.adpcmWait != 0 then s.adpcmWait - 1
    else s.adpcmWait := by
  obtain ⟨-, -, -, hstart⟩ := start_of_idle (i := i) h.command
  show s.adpcmWaitNext i = _
  unfold adpcmWaitNext dmaOutput adpcmOutput
  simp only [hq.rstN, hq.swReset, hstart, h.output, h.packed, Bool.not_true, Bool.not_false, Bool.true_and,
    Bool.false_eq_true, if_false, Bool.and_assoc, Bool.and_self]

theorem Active.adpcmReferenceAwaiting_step (hq : s.Quiet i) (hend : s.blockEnds i = false) :
    (s.step i).adpcmReferenceAwaiting = (s.adpcmReferenceAwaiting && !s.dmaValid i) := by
  obtain ⟨-, -, -, hstart⟩ := start_of_idle (i := i) h.command
  show s.adpcmReferenceAwaitingNext i = _
  unfold adpcmReferenceAwaitingNext dmaOutput
  rw [hq.rstN, hq.swReset, hstart, h.output, h.dmaFinished, hend]
  cases s.adpcmReferenceAwaiting <;> cases s.dmaValid i <;> rfl

end Active

/-! ## Counting -/

/-- The samples that a packed block takes at least: one, and the reference. -/
def atLeast (ref : Bool) : Nat := 1 + ref.toNat

/-- The samples that a block takes whose counter starts at `N`. -/
def blockSamples (packed : Adpcm) (ref : Bool) (N : Nat) : Nat :=
  if packed = .none then N + 1 else max (atLeast ref) N

/-- The state of a block of which `n` samples have been taken. -/
structure Counts (s : Dsp) (ref : Bool) (N n : Nat) : Prop where
  left : s.lenLeft.toNat = N - n
  requests : s.dmaNormalReq = true → s.adpcmWait = 0
  awaiting : s.adpcmReferenceAwaiting = (ref && n == 0)
  plain : s.adpcmType = .none → ref = false ∧ n ≤ N ∧ s.adpcmWait = 0
  stereo : s.dmaFormat.getLsbD 1 = true → s.adpcmType = .none ∧ n % 2 = (s.dmaNormalReq && s.sampleLr).toNat
  packed : s.adpcmType ≠ .none → n ≤ max (atLeast ref) N ∧ (s.adpcmWait ≠ 0 → atLeast ref ≤ n) ∧
    (s.adpcmWait = 0 → atLeast ref ≤ n → n < N)

/-- What is still to come: the samples, and for each the interrupts of the timer and the acknowledges. -/
def toCome (s : Dsp) (ref : Bool) (N n : Nat) : Nat :=
  6 * (blockSamples s.adpcmType ref N - n) +
    if s.dmaNormalReq then (if s.dmaHcnt then 0 else 1) else 2 + s.adpcmWait.toNat

/-- Something happens: a request is acknowledged, or the timer overflows without a request. -/
def moves (s : Dsp) (i : DspIn) : Bool := if s.dmaNormalReq then i.dmaAck else s.timer0Isr

section Counts

variable {format : BitVec 4} {packed : Adpcm} (h : s.Active format packed) (hc : s.Counts ref N n)
include h hc

omit h in
theorem Counts.lt_blockSamples (hreq : s.dmaNormalReq = true) : n < blockSamples s.adpcmType ref N := by
  unfold blockSamples
  by_cases hplain : s.adpcmType = .none
  · rw [if_pos hplain]
    have hle := (hc.plain hplain).2.1
    omega
  · rw [if_neg hplain]
    obtain ⟨hle, -, hlt⟩ := hc.packed hplain
    by_cases hfirst : atLeast ref ≤ n
    · have hless := hlt (hc.requests hreq) hfirst
      omega
    · omega

/-- In a packed block the samples are not halves of pairs. -/
theorem Counts.valid_of_packed (hpacked : s.adpcmType ≠ .none) (ha : i.dmaAck = true → s.dmaReq = true) :
    s.dmaValid i = s.sampleTaken i := by
  have hmono : format.getLsbD 1 = false := by
    by_contra hstereo
    rw [Bool.not_eq_false, ← h.format] at hstereo
    exact hpacked (hc.stereo hstereo).1
  rw [h.dmaValid ha, hmono]
  simp

omit h hc in
/-- The wait of a packed format after a sample is not zero. -/
theorem wait_ne (hpacked : packed ≠ .none) (w : BitVec 2) :
    (if packed == .twoBit then 3 else if packed == .threeBit then 2 else if packed == .fourBit then 1 else w) ≠
      (0 : BitVec 2) := by
  cases packed with
  | none => exact absurd rfl hpacked
  | fourBit =>
    show (1 : BitVec 2) ≠ 0
    decide
  | threeBit =>
    show (2 : BitVec 2) ≠ 0
    decide
  | twoBit =>
    show (3 : BitVec 2) ≠ 0
    decide

omit hc in
theorem Active.blockEnds_plain (hplain : packed = .none) (ha : i.dmaAck = true → s.dmaReq = true) :
    s.blockEnds i = (s.lenLeft == 0 && s.sampleTaken i) := by
  rw [blockEnds, h.any_taken ha, h.packed, hplain]
  cases s.sampleTaken i <;> rfl

omit hc in
theorem Active.blockEnds_packed (hpacked : packed ≠ .none) :
    s.blockEnds i = (s.lenLeft == 0 && (s.timer0Isr && s.adpcmWait == 1)) := by
  have hone : ∀ (b : Bool) (w : BitVec 2), (b && w != 0 && w == 1) = (b && w == 1) := by decide
  rw [blockEnds, h.packed, beq_false_of_ne hpacked, bne_iff_ne.2 hpacked, adpcmOutput, Bool.true_and, Bool.false_and,
    Bool.false_or, hone]

omit h hc in
theorem request_of_taken (htaken : s.sampleTaken i = true) : s.dmaNormalReq = true := by
  unfold Dsp.sampleTaken at htaken
  simp only [Bool.and_eq_true] at htaken
  exact htaken.1.1

/-- A clock of a plain block. -/
theorem Counts.step_plain (hplain : packed = .none) (hq : s.Quiet i) (ha : i.dmaAck = true → s.dmaReq = true)
    (hend : s.blockEnds i = false) : (s.step i).Counts ref N (n + (s.sampleTaken i).toNat) := by
  have hnext := h.step hq hend
  obtain ⟨href, hle, hwait⟩ := hc.plain (h.packed.trans hplain)
  have hleft := hc.left
  have hwait' : (s.step i).adpcmWait = 0 := by
    rw [h.adpcmWait_step hq, hwait, hplain]
    cases s.adpcmReferenceAwaiting <;> cases s.dmaValid i <;> cases s.timer0Isr <;> rfl
  refine ⟨?_, fun _ => hwait', ?_, fun _ => ⟨href, ?_, hwait'⟩, fun hstereo => ⟨hnext.packed.trans hplain, ?_⟩,
    fun hpacked => absurd (hnext.packed.trans hplain) hpacked⟩
  · rw [h.lenLeft_step hq ha, hleft, Nat.sub_sub]
  · rw [h.adpcmReferenceAwaiting_step hq hend, hc.awaiting, href]
    rfl
  · -- the counter is not at zero when a sample is taken that is not the last one
    rw [h.blockEnds_plain hplain ha] at hend
    cases htaken : s.sampleTaken i with
    | false => exact hle
    | true =>
      rw [htaken, Bool.and_true, beq_eq_false_iff_ne] at hend
      have hpos : s.lenLeft.toNat ≠ 0 := fun he => hend (BitVec.eq_of_toNat_eq he)
      show n + 1 ≤ N
      omega
  · -- the first sample of a pair keeps the request, the second one clears it
    rw [hnext.format] at hstereo
    have hpair := (hc.stereo (h.format ▸ hstereo)).2
    have hlr : (s.step i).sampleLr = (s.dmaNormalReq && (s.sampleLr ^^ s.sampleTaken i)) := by
      show (s.dmaReq && (s.sampleLr ^^ (s.dmaAckF i && s.dmaFormat.getLsbD 1))) = _
      rw [h.dmaReq, h.format, hstereo, Bool.and_true, h.sampleTaken ha]
    rw [h.dmaNormalReq_step hq, hlr, h.dmaValid ha, hstereo, hwait, Nat.add_mod, hpair]
    cases hreq : s.dmaNormalReq with
    | false =>
      have hno : s.sampleTaken i = false := by
        by_contra hyes
        rw [Bool.not_eq_false] at hyes
        rw [request_of_taken hyes] at hreq
        cases hreq
      rw [hno]
      simp
    | true => cases s.sampleTaken i <;> cases s.sampleLr <;> cases s.timer0Isr <;> rfl

/-- A clock of a packed block with a byte. -/
theorem Counts.step_packed_taken (hpacked : packed ≠ .none) (hq : s.Quiet i) (ha : i.dmaAck = true → s.dmaReq = true)
    (hend : s.blockEnds i = false) (htaken : s.sampleTaken i = true) : (s.step i).Counts ref N (n + 1) := by
  have hnext := h.step hq hend
  have hpacked' : s.adpcmType ≠ .none := by
    rw [h.packed]
    exact hpacked
  obtain ⟨hle, hfirst, hless⟩ := hc.packed hpacked'
  have hzero := hc.requests (request_of_taken htaken)
  have hlenLeft := h.lenLeft_step hq ha
  have hvalid := hc.valid_of_packed h hpacked' ha
  have hawaiting := h.adpcmReferenceAwaiting_step hq hend
  have hreq := h.dmaNormalReq_step hq
  have hwait := h.adpcmWait_step hq
  have hmono : (s.step i).dmaFormat.getLsbD 1 ≠ true := fun hstereo => by
    rw [hnext.format, ← h.format] at hstereo
    exact hpacked' (hc.stereo hstereo).1
  rw [hvalid, htaken] at hawaiting hreq hwait
  rw [htaken] at hlenLeft
  rw [Bool.not_true, Bool.and_false] at hawaiting
  simp only [Bool.and_true, Bool.true_and, if_true] at hreq hwait
  refine ⟨?_, fun he => ?_, ?_, fun he => absurd (hnext.packed.symm.trans he) hpacked, fun he => absurd he hmono,
    fun _ => ?_⟩
  · rw [hlenLeft, hc.left, Nat.sub_sub]
    rfl
  · rw [hreq] at he
    cases he
  · rw [hawaiting]
    simp
  · rw [hwait, hc.awaiting]
    unfold atLeast at hfirst hless ⊢
    by_cases hreference : (ref && n == 0) = true
    · -- the reference is taken, and is not played
      rw [if_pos hreference]
      simp only [Bool.and_eq_true, beq_iff_eq] at hreference
      rw [hreference.1, hreference.2, Bool.toNat_true]
      refine ⟨by omega, fun he => absurd rfl he, fun _ hn => ?_⟩
      omega
    · have hn : 1 + ref.toNat ≤ n + 1 := by
        cases ref with
        | false => simp
        | true =>
          simp only [Bool.true_and, beq_iff_eq] at hreference
          rw [Bool.toNat_true]
          omega
      rw [if_neg hreference, hzero]
      refine ⟨?_, fun _ => hn, fun he => absurd he ?_⟩
      · by_cases hn' : 1 + ref.toNat ≤ n
        · have hlt := hless hzero hn'
          omega
        · omega
      · rw [show (s.timer0Isr && (0 : BitVec 2) != 0) = false by simp]
        exact wait_ne hpacked 0

/-- A clock of a packed block without one. -/
theorem Counts.step_packed_kept (hpacked : packed ≠ .none) (hq : s.Quiet i) (ha : i.dmaAck = true → s.dmaReq = true)
    (hend : s.blockEnds i = false) (htaken : s.sampleTaken i = false) : (s.step i).Counts ref N n := by
  have hnext := h.step hq hend
  have hpacked' : s.adpcmType ≠ .none := by
    rw [h.packed]
    exact hpacked
  obtain ⟨hle, hfirst, hless⟩ := hc.packed hpacked'
  have hlenLeft := h.lenLeft_step hq ha
  have hvalid := hc.valid_of_packed h hpacked' ha
  have hawaiting := h.adpcmReferenceAwaiting_step hq hend
  have hreq := h.dmaNormalReq_step hq
  have hwait := h.adpcmWait_step hq
  have hmono : (s.step i).dmaFormat.getLsbD 1 ≠ true := fun hstereo => by
    rw [hnext.format, ← h.format] at hstereo
    exact hpacked' (hc.stereo hstereo).1
  rw [hvalid, htaken] at hawaiting hreq hwait
  rw [Bool.not_false, Bool.and_true, hc.awaiting] at hawaiting
  simp only [Bool.and_false, Bool.false_and, Bool.false_eq_true, if_false] at hreq hwait
  rw [h.blockEnds_packed hpacked] at hend
  rw [htaken, Bool.toNat_false, Nat.sub_zero] at hlenLeft
  refine ⟨hlenLeft.trans hc.left, fun he => ?_, hawaiting, fun he => absurd (hnext.packed.symm.trans he) hpacked,
    fun he => absurd he hmono, fun _ => ⟨hle, fun he => hfirst fun hzero => ?_, fun he hn => ?_⟩⟩
  · rw [hreq] at he
    have hzero : s.adpcmWait = 0 := by
      by_cases hzero : s.adpcmWait = 0
      · exact hzero
      · rw [beq_false_of_ne hzero, Bool.and_false] at he
        exact hc.requests he
    rw [hwait, hzero]
    simp
  · refine he ?_
    rw [hwait, hzero]
    simp
  · -- the last wait has been counted down, and the block has not ended
    by_cases hzero : s.adpcmWait = 0
    · exact hless hzero hn
    · have hone : s.timer0Isr = true ∧ s.adpcmWait = 1 := by
        rw [hwait, bne_iff_ne.2 hzero, Bool.and_true] at he
        cases hisr : s.timer0Isr with
        | false =>
          rw [hisr] at he
          exact absurd he hzero
        | true =>
          rw [hisr, if_pos rfl] at he
          exact ⟨rfl, by bv_omega⟩
      rw [hone.1, hone.2] at hend
      have hpos : s.lenLeft.toNat ≠ 0 := by
        intro he'
        rw [BitVec.eq_of_toNat_eq (y := 0) he'] at hend
        cases hend
      have hleft := hc.left
      omega

/-- A clock of a block that is not its last one. -/
theorem Counts.step (hq : s.Quiet i) (ha : i.dmaAck = true → s.dmaReq = true) (hend : s.blockEnds i = false) :
    (s.step i).Counts ref N (n + (s.sampleTaken i).toNat) := by
  by_cases hplain : packed = .none
  · exact hc.step_plain h hplain hq ha hend
  · cases htaken : s.sampleTaken i with
    | true => exact hc.step_packed_taken h hplain hq ha hend htaken
    | false => exact hc.step_packed_kept h hplain hq ha hend htaken

/-- The last clock of a block: all its samples have been taken, and the request is cleared but for the second half of a
pair. -/
theorem Counts.ends (hq : s.Quiet i) (ha : i.dmaAck = true → s.dmaReq = true) (hend : s.blockEnds i = true) :
    n + (s.sampleTaken i).toNat = blockSamples packed ref N ∧
      (s.step i).dmaNormalReq = (format.getLsbD 1 && N % 2 == 0) := by
  have hreq := h.dmaNormalReq_step hq
  have hleft := hc.left
  by_cases hplain : packed = .none
  · -- a plain block ends with the acknowledge of its last sample
    obtain ⟨-, hle, hwait⟩ := hc.plain (h.packed.trans hplain)
    rw [h.blockEnds_plain hplain ha] at hend
    simp only [Bool.and_eq_true, beq_iff_eq] at hend
    obtain ⟨hzero, htaken⟩ := hend
    have hn : n = N := by
      rw [hzero] at hleft
      have hleft : 0 = N - n := hleft
      omega
    subst hn
    refine ⟨?_, ?_⟩
    · rw [htaken, blockSamples, if_pos hplain]
      rfl
    · rw [hreq, h.dmaValid ha, htaken, request_of_taken htaken]
      cases hstereo : format.getLsbD 1 with
      | false => rfl
      | true =>
        have hpair := (hc.stereo (h.format ▸ hstereo)).2
        rw [request_of_taken htaken] at hpair
        rw [hpair]
        cases s.sampleLr <;> cases s.timer0Isr <;> cases s.adpcmWait == 0 <;> rfl
  · have hpacked : s.adpcmType ≠ .none := by
      rw [h.packed]
      exact hplain
    -- a packed one when its last byte has been played, with nothing asked for
    obtain ⟨hle, hfirst, -⟩ := hc.packed hpacked
    rw [h.blockEnds_packed hplain] at hend
    simp only [Bool.and_eq_true, beq_iff_eq] at hend
    obtain ⟨hzero, -, hone⟩ := hend
    have hnone : s.dmaNormalReq = false := by
      by_contra hyes
      rw [Bool.not_eq_false] at hyes
      rw [hc.requests hyes] at hone
      exact absurd hone (by decide)
    have htaken : s.sampleTaken i = false := by
      rw [Dsp.sampleTaken, hnone]
      rfl
    have hmono : format.getLsbD 1 = false := by
      by_contra hstereo
      rw [Bool.not_eq_false, ← h.format] at hstereo
      exact hpacked (hc.stereo hstereo).1
    have hn := hfirst (by
      rw [hone]
      decide)
    refine ⟨?_, ?_⟩
    · rw [hzero] at hleft
      have hleft : 0 = N - n := hleft
      rw [htaken, blockSamples, if_neg hplain, Bool.toNat_false]
      omega
    · rw [hreq, hc.valid_of_packed h hpacked ha, htaken, hnone, hone, hmono]
      cases s.timer0Isr <;> rfl

/-- With every clock in which something happens, less is to come. -/
theorem Counts.toCome_step (hq : s.Quiet i) (ha : i.dmaAck = true → s.dmaReq = true) (hend : s.blockEnds i = false) :
    (s.step i).toCome ref N (n + (s.sampleTaken i).toNat) ≤ s.toCome ref N n ∧
      (s.moves i = true → (s.step i).toCome ref N (n + (s.sampleTaken i).toNat) < s.toCome ref N n) := by
  have hreq := h.dmaNormalReq_step hq
  have hwait := h.adpcmWait_step hq
  have hcnt : (s.step i).dmaHcnt = (s.dmaReq && (s.dmaHcnt ^^ i.dmaAck)) := rfl
  have hpacked : (s.step i).adpcmType = s.adpcmType := (h.step hq hend).packed.trans h.packed.symm
  unfold toCome moves
  rw [hpacked]
  cases htaken : s.sampleTaken i with
  | true =>
    have hlt := hc.lt_blockSamples (request_of_taken htaken)
    have hbound : (if (s.step i).dmaNormalReq then (if (s.step i).dmaHcnt then 0 else 1)
        else 2 + (s.step i).adpcmWait.toNat) ≤ 5 := by
      have hsmall := (s.step i).adpcmWait.isLt
      split_ifs <;> omega
    rw [Bool.toNat_true]
    omega
  | false =>
    have hvalid : s.dmaValid i = false := by
      rw [h.dmaValid ha, htaken]
      rfl
    rw [hvalid] at hreq hwait
    simp only [Bool.and_false, Bool.false_and, Bool.false_eq_true, if_false] at hreq hwait
    rw [hreq, hwait, hcnt, h.dmaReq]
    rw [h.sampleTaken ha] at htaken
    cases hr : s.dmaNormalReq with
    | true =>
      cases hack : i.dmaAck with
      | true =>
        -- the first half of a sample
        have hhalf : s.dmaHcnt = false := by
          unfold dmaAckF at htaken
          rw [hack, Bool.true_and, Bool.or_eq_false_iff, Bool.or_eq_false_iff] at htaken
          exact htaken.1.1
        rw [hhalf]
        simp
      | false =>
        rw [Bool.xor_false]
        simp
    | false =>
      cases hisr : s.timer0Isr with
      | true =>
        by_cases hzero : s.adpcmWait = 0
        · rw [hzero]
          simp
        · have hpos : s.adpcmWait.toNat ≠ 0 := fun he => hzero (BitVec.eq_of_toNat_eq he)
          rw [beq_false_of_ne hzero, bne_iff_ne.2 hzero]
          simp only [Bool.and_self, Bool.true_and, Bool.false_eq_true, if_false, if_true, Bool.toNat_false]
          have hless : (s.adpcmWait - 1).toNat = s.adpcmWait.toNat - 1 := by bv_omega
          omega
      | false => simp

omit hc in
/-- A request stays until something happens, and so does its absence. -/
theorem Active.request_kept (hq : s.Quiet i) (hrest : s.moves i = false) :
    (s.step i).dmaNormalReq = s.dmaNormalReq := by
  unfold moves at hrest
  rw [h.dmaNormalReq_step hq]
  cases hreq : s.dmaNormalReq with
  | true =>
    rw [hreq, if_pos rfl] at hrest
    have hvalid : s.dmaValid i = false := by
      rw [Dsp.dmaValid, dmaAckW, dmaAckF, hrest]
      simp
    rw [hvalid]
    simp
  | false =>
    rw [hreq] at hrest
    simp only [Bool.false_eq_true, if_false] at hrest
    rw [hrest]
    simp

end Counts

end Z486.Sound.Dsp
