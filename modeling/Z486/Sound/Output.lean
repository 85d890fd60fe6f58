/-
The single-cycle output transfers of the DSP. A command with a length of `L` asks for `L + 1` samples; how many are taken
from the DMA depends on the format. Plain samples end with the counter at zero, but in the stereo format of the Sound
Blaster 16 the block can end within a pair; a packed block looks at the counter after it has been counted down.
-/
import Z486.Sound.Transfers

namespace Z486.Sound

open Clocked

namespace Dsp

variable {s : Dsp} {i : DspIn} {k : DmaCommand}

/-! ## The start -/

theorem starts_single (hpossible : s.dmaRestartPossible i = true) (hk : s.dmaCommand = k) (hsingle : k.single = true) :
    s.dmaSingleStart i = true ∧ s.dmaStart i = true ∧ s.dmaNewStart i = k.new := by
  unfold dmaStart dmaSingleStart dmaNewStart
  rw [hpossible, hk, hsingle]
  exact ⟨rfl, rfl, Bool.true_and _⟩

/-- The block that a command starts, when no silence goes on and no earlier block ends. -/
theorem started (hq : s.Quiet i) (hpossible : s.dmaRestartPossible i = true) (hk : s.dmaCommand = k)
    (hsingle : k.single = true) (houtput : k.input = false) (hcalm : (s.step i).dmaReq = false)
    (hpause : s.pauseActive = false) (hfinish : s.dmaFinished i = false) :
    (s.step i).Active (s.step i).dmaFormat k.adpcm := by
  obtain ⟨hstarts, hstart, -⟩ := starts_single hpossible hk hsingle
  have hnever : s.pauseFinished = false := by
    rw [pauseFinished, pauseDecrement, hpause]
    rfl
  have hnoId : (s.step i).dmaIdActive = false := by
    unfold dmaReq at hcalm
    exact (Bool.or_eq_false_iff.1 hcalm).1
  refine ⟨?_, ?_, ?_, ?_, ?_, hnoId, ?_, ?_, rfl, ?_⟩
  · rw [hq.dmaInProgress_step, hfinish, hstart]
    rfl
  · refine (hq.timerBit_step s.tr0).trans ?_
    rw [hnever, hfinish, hstart]
    rfl
  · refine (hq.timerBit_step s.et0).trans ?_
    rw [hnever, hfinish, hstart]
    rfl
  · show s.dmaAutoinitNext i = false
    unfold dmaAutoinitNext
    rw [hq.rstN, hq.swReset, hq.highspeedReset, hstarts]
    rfl
  · show s.dmaIsInputNext i = false
    unfold dmaIsInputNext
    rw [hq.rstN, hq.swReset, hq.highspeedReset, hstart, hk]
    exact houtput
  · rw [hq.dmaCommand_step, hstart]
    rfl
  · rw [hq.pauseActive_step, hnever]
    exact hpause
  · show s.adpcmTypeNext i = k.adpcm
    unfold adpcmTypeNext
    rw [hq.rstN, hq.swReset, hstart, hk]
    rfl

/-- Only the new commands have pairs. -/
theorem started_stereo (hq : s.Quiet i) (hpossible : s.dmaRestartPossible i = true) (hk : s.dmaCommand = k)
    (hsingle : k.single = true) (houtput : k.input = false) :
    (s.step i).dmaFormat.getLsbD 1 = (k == .outSingleNew && s.writeBuffer.getLsbD 21) := by
  obtain ⟨-, hstart, hnew⟩ := starts_single hpossible hk hsingle
  have hbit : (BitVec.ofBool (s.cmdCurr.getLsbD 4) ++ 0#1 ++ s.writeBuffer.extractLsb' 20 2).getLsbD 1 =
      s.writeBuffer.getLsbD 21 := by
    rw [BitVec.getLsbD_append, if_pos (by decide), BitVec.getLsbD_extractLsb']
    rfl
  have hmono : ∀ b, (0#1 ++ BitVec.ofBool b ++ 0#2).getLsbD 1 = false := by decide
  have hkind : k.new = (k == .outSingleNew) := by
    cases k <;> first | rfl | exact absurd hsingle (by decide) | exact absurd houtput (by decide)
  rw [hq.dmaFormat_step, hstart, hnew, hkind]
  cases k == .outSingleNew with
  | true => exact hbit
  | false => exact hmono _

theorem started_counts (hq : s.Quiet i) (hpossible : s.dmaRestartPossible i = true) (hk : s.dmaCommand = k)
    (hsingle : k.single = true) (houtput : k.input = false) (hcalm : (s.step i).dmaReq = false) :
    (s.step i).Counts k.ref (s.step i).lenLeft.toNat 0 := by
  obtain ⟨-, hstart, -⟩ := starts_single hpossible hk hsingle
  have hreq : (s.step i).dmaNormalReq = false := by
    unfold dmaReq at hcalm
    exact (Bool.or_eq_false_iff.1 hcalm).2
  have hwait : (s.step i).adpcmWait = 0 := by
    show s.adpcmWaitNext i = 0
    unfold adpcmWaitNext
    rw [hq.rstN, hq.swReset, hstart]
    rfl
  have hpacked : (s.step i).adpcmType = k.adpcm := by
    show s.adpcmTypeNext i = k.adpcm
    unfold adpcmTypeNext
    rw [hq.rstN, hq.swReset, hstart, hk]
    rfl
  have hrefs : ∀ c : DmaCommand, c.adpcm = .none → c.ref = false := by
    intro c hc
    cases c <;> first | rfl | cases hc
  refine ⟨rfl, fun _ => hwait, ?_, fun hplain => ⟨hrefs k (hpacked ▸ hplain), Nat.zero_le _, hwait⟩, fun hstereo => ?_,
    fun _ => ⟨Nat.zero_le _, fun hne => absurd hwait hne, fun _ hn => ?_⟩⟩
  · show s.adpcmReferenceAwaitingNext i = _
    unfold adpcmReferenceAwaitingNext
    rw [hq.rstN, hq.swReset, hstart, hk]
    exact (Bool.and_true _).symm
  · rw [started_stereo hq hpossible hk hsingle houtput, Bool.and_eq_true, beq_iff_eq] at hstereo
    rw [hpacked, hstereo.1, hreq]
    exact ⟨rfl, rfl⟩
  · unfold atLeast at hn
    omega

/-! ## Clocks without requests -/

/-- No request is made in this clock. -/
def Unasked (s : Dsp) : Prop := (s.dmaInProgress && s.timer0Isr && !s.pauseActive) = false

theorem Unasked.step (h : s.Unasked) (hq : s.Quiet i) (hcalm : s.dmaReq = false) : (s.step i).dmaReq = false := by
  unfold dmaReq at hcalm ⊢
  obtain ⟨hid, hreq⟩ := Bool.or_eq_false_iff.1 hcalm
  unfold Unasked at h
  have hno : (s.dmaInProgress && s.timer0Isr && s.adpcmWait == 0 && !s.pauseActive) = false := by
    rw [Bool.and_right_comm, h]
    rfl
  rw [hq.dmaIdActive_step hid, hq.dmaNormalReq_step, hno, hreq]
  cases s.dmaValid i <;> rfl

theorem taken_of_calm (hcalm : s.dmaReq = false) : s.sampleTaken i = false := by
  unfold dmaReq at hcalm
  rw [sampleTaken, (Bool.or_eq_false_iff.1 hcalm).2]
  rfl

/-- A block that will not ask: silence goes on, or the timer has been stopped, or the block has been ended. -/
structure Muted (s : Dsp) : Prop where
  command : s.dmaCommand = .idle
  cause : s.pauseActive = true ∨ s.tr0 = false ∨ s.dmaInProgress = false

theorem Muted.unasked (h : s.Muted) : s.Unasked := by
  unfold Unasked
  rcases h.cause with hpause | htimer | hended
  · rw [hpause]
    exact Bool.and_false _
  · rw [timer0Isr, tf0, timer0Tick, htimer]
    simp
  · rw [hended]
    rfl

theorem Muted.step (h : s.Muted) (hq : s.Quiet i) : (s.step i).Muted := by
  obtain ⟨-, -, -, hstart⟩ := start_of_idle (i := i) h.command
  have htr0 : (s.step i).tr0 = _ := hq.timerBit_step s.tr0
  refine ⟨?_, ?_⟩
  · rw [hq.dmaCommand_step, hstart]
    exact h.command
  · rw [hq.pauseActive_step, hq.dmaInProgress_step, htr0, hstart]
    rcases h.cause with hpause | htimer | hended
    · -- the end of the silence stops the timer
      rw [hpause]
      cases s.pauseFinished with
      | true => exact .inr (.inl rfl)
      | false => exact .inl rfl
    · rw [htimer]
      refine .inr (.inl ?_)
      simp
    · rw [hended]
      refine .inr (.inr ?_)
      simp

/-- When silence goes on, or an earlier block ends in the clock of the start, the new block does not ask. -/
theorem started_muted (hq : s.Quiet i) (hpossible : s.dmaRestartPossible i = true) (hk : s.dmaCommand = k)
    (hsingle : k.single = true) (hbusy : ¬ (s.pauseActive = false ∧ s.dmaFinished i = false)) : (s.step i).Muted := by
  obtain ⟨-, hstart, -⟩ := starts_single hpossible hk hsingle
  have htr0 : (s.step i).tr0 = _ := hq.timerBit_step s.tr0
  refine ⟨?_, ?_⟩
  · rw [hq.dmaCommand_step, hstart]
    rfl
  · rw [hq.pauseActive_step, hq.dmaInProgress_step, htr0]
    cases hfinish : s.dmaFinished i with
    | true => exact .inr (.inr rfl)
    | false =>
      cases hpause : s.pauseActive with
      | true =>
        cases s.pauseFinished with
        | true => exact .inr (.inl rfl)
        | false => exact .inl rfl
      | false => exact absurd ⟨hpause, hfinish⟩ hbusy

theorem Over.muted (h : s.Over) : s.Muted := ⟨h.command, .inr (.inr h.inProgress)⟩

theorem Over.step (h : s.Over) (hq : s.Quiet i) : (s.step i).Over := by
  obtain ⟨-, -, -, hstart⟩ := start_of_idle (i := i) h.command
  have hfinish : s.dmaFinished i = false := by
    rw [dmaFinished, h.inProgress]
    rfl
  have hpause : s.pauseFinished = false := by
    rw [pauseFinished, pauseDecrement, h.unpaused]
    rfl
  refine ⟨?_, hq.dmaIdActive_step h.noId, ?_, ?_⟩
  · rw [hq.dmaInProgress_step, hfinish, hstart]
    exact h.inProgress
  · rw [hq.dmaCommand_step, hstart]
    exact h.command
  · rw [hq.pauseActive_step, hpause]
    exact h.unpaused

theorem Over.raises (h : s.Over) : s.raises i = false := by
  rw [Dsp.raises, dmaFinished, dmaAutoRestart, h.inProgress, pauseFinished, pauseDecrement, h.unpaused]
  rfl

/-- The interrupt is the one of the 16-bit or of the 8-bit transfers. -/
theorem irq_step (hq : s.Quiet i) (hraises : s.raises i = true) :
    (if s.dma16Req then (s.step i).irq16 else (s.step i).irq8) = true := by
  cases h16 : s.dma16Req with
  | true =>
    show s.irq16Next i = true
    unfold irq16Next
    rw [hq.rstN, hq.swReset, hraises, h16]
    rfl
  | false =>
    show s.irq8Next i = true
    unfold irq8Next
    rw [hq.rstN, hq.swReset, hraises, h16]
    rfl

/-- A command sets the high-speed mode if it is a high-speed one. -/
theorem highspeedStart_of_ordered (hk : s.ordered i = some k) (hsingle : k.single = true) (houtput : k.input = false) :
    s.cmd ≠ 0 ∧ s.highspeedStart = (k == .outSingleHigh) := by
  have hall : ((s.ordered i).all fun c =>
      !c.single || c.input || (s.cmd != 0 && s.highspeedStart == (c == .outSingleHigh))) = true := by
    -- a statement about the command byte and the model of the DSP
    unfold ordered cmdNewDma highspeedStart
    unfold cmdHighSingleDmaOut cmdHighAutoDmaOut cmdHighSingleDmaInput cmdHighAutoDmaInput
    generalize s.cmd = c
    generalize i.sbp = b
    revert b c
    decide
  rw [hk] at hall
  simpa [hsingle, houtput] using hall

end Dsp

namespace DspRun

variable {r : DspRun} {a t : Nat}

/-- Where no request is made from a clock on, none is there. -/
theorem calm_of_unasked (hq : r.QuietFrom a) (hcalm : (r.regs a).dmaReq = false)
    (hno : ∀ u, a ≤ u → (r.regs u).Unasked) (ht : a ≤ t) : (r.regs t).dmaReq = false := by
  induction t, ht using Nat.le_induction with
  | base => exact hcalm
  | succ t ht ih => exact (hno t ht).step (hq t ht) ih

theorem over_of_over (hq : r.QuietFrom a) (hover : (r.regs a).Over) (ht : a ≤ t) : (r.regs t).Over := by
  induction t, ht using Nat.le_induction with
  | base => exact hover
  | succ t ht ih => exact ih.step (hq t ht)

/-- After the end of a block there is no further request. -/
theorem calm_of_over (hq : r.QuietFrom a) (hover : (r.regs a).Over) (hcalm : (r.regs a).dmaReq = false) (ht : a ≤ t) :
    (r.regs t).dmaReq = false :=
  calm_of_unasked hq hcalm (fun _ hu => (over_of_over hq hover hu).muted.unasked) ht

end DspRun

/-! ## Transfers -/

/-- A single-cycle output transfer: the command is complete in clock `command`, and the block starts in clock `start`,
when the DSP comes to it. No other command is given, no request of an earlier transfer is left over, and the DMA
acknowledges requests alone, and every one of them. -/
structure OutputTransfer extends DspRun where
  command : Nat
  kind : DmaCommand
  ordered : (toDspRun.regs command).ordered (inp command) = some kind
  single : kind.single = true
  output : kind.input = false
  ready : (toDspRun.regs command).highspeedMode = false
  alone : ∀ t, command ≤ t → (inp t).Alone
  start : Nat
  after : command < start
  waits : ∀ t, command < t → t < start → (toDspRun.regs t).dmaRestartPossible (inp t) = false
  starts : (toDspRun.regs start).dmaRestartPossible (inp start) = true
  calm : (toDspRun.regs (start + 1)).dmaReq = false
  acks : ∀ t, start < t → (inp t).dmaAck = true → (toDspRun.regs t).dmaReq = true
  served : ∀ t, start < t → (toDspRun.regs t).dmaReq = true → ∃ u, t ≤ u ∧ (inp u).dmaAck = true

namespace OutputTransfer

variable (x : OutputTransfer)

/-- The length that the command gives, or for a high-speed command the size of a block. -/
def length : Nat :=
  (if x.kind = .outSingleHigh then (x.regs x.command).blockSize else (x.regs x.command).lengthBytes).toNat

/-- The counter of the length, when the block has been started. -/
def loaded : Nat := (x.regs (x.start + 1)).lenLeft.toNat

/-- The mode byte of a new command asks for pairs. -/
def stereo : Bool := x.kind == .outSingleNew && (x.regs x.command).writeBuffer.getLsbD 21

/-- The samples taken before clock `t`. -/
def consumed (t : Nat) : Nat := pulses (fun u => (x.regs u).sampleTaken (x.inp u)) (x.start + 1) t

/-- In clock `e` the DSP raises its only interrupt, all the samples having been taken, and then it does not ask again. -/
structure EndsAt (e : Nat) : Prop where
  after : x.start < e
  raises : (x.regs e).raises (x.inp e) = true
  irq : (if (x.regs e).dma16Req then (x.regs (e + 1)).irq16 else (x.regs (e + 1)).irq8) = true
  once : ∀ t, x.start < t → (x.regs t).raises (x.inp t) = true → t = e
  consumed : x.consumed (e + 1) = x.length + 1
  stops : ∀ t, e < t → (x.regs t).dmaReq = false

def Consumes : Prop := ∃ e, x.EndsAt e

/-- The sample clock has a rate, no silence goes on and no earlier block ends in the clock of the start, and the counter of
a high-speed block is untouched. In the stereo format the number of samples is even, and a packed block has only the
reference and one more sample. -/
structure Suits : Prop where
  clocked : (x.regs x.start).clkSmp ≠ 0
  free : (x.regs x.start).pauseActive = false ∧ (x.regs x.start).dmaFinished (x.inp x.start) = false
  highspeed : x.kind = .outSingleHigh → x.loaded = x.length
  pairs : x.stereo = true → x.length % 2 = 1
  packed : x.kind.adpcm ≠ .none → x.length = x.kind.ref.toNat

variable {x} {t : Nat}

/-! ## From the command to the start -/

theorem quietFrom (x : OutputTransfer) : x.QuietFrom (x.command + 1) := by
  refine DspRun.quietFrom_of_alone x.alone ?_
  have hne := (Dsp.highspeedStart_of_ordered x.ordered x.single x.output).1
  unfold Dsp.cmd Dsp.cmdFinish at hne
  by_contra hrecv
  rw [Bool.not_eq_false] at hrecv
  rw [hrecv] at hne
  simp at hne

theorem writeBuffer_eq (x : OutputTransfer) (ht : x.command ≤ t) :
    (x.regs t).writeBuffer = (x.regs x.command).writeBuffer := by
  induction t, ht using Nat.le_induction with
  | base => rfl
  | succ t ht ih =>
    have halone := x.alone t ht
    refine Eq.trans ?_ ih
    show (x.regs t).writeBufferNext (x.inp t) = _
    unfold Dsp.writeBufferNext Dsp.swReset Dsp.cmdStart Dsp.cmdCont
    rw [halone.rstN, halone.reset, halone.command]
    simp

theorem dmaCommand_eq (x : OutputTransfer) (ht : x.command < t) (hs : t ≤ x.start) :
    (x.regs t).dmaCommand = x.kind := by
  induction t, Nat.succ_le_of_lt ht using Nat.le_induction with
  | base =>
    have halone := x.alone x.command le_rfl
    show (x.regs x.command).dmaCommandNext (x.inp x.command) = _
    unfold Dsp.dmaCommandNext Dsp.swReset
    rw [halone.rstN, halone.reset, x.ordered]
    rfl
  | succ t ht' ih =>
    have hno := x.waits t ht' (by omega)
    rw [DspRun.regs_succ, (x.quietFrom t ht').dmaCommand_step, Dsp.dmaStart, Dsp.dmaSingleStart, Dsp.dmaAutoStart, hno]
    exact ih ht' (by omega)

theorem highspeedMode_eq (x : OutputTransfer) (hkind : x.kind ≠ .outSingleHigh) (ht : x.command ≤ t) :
    (x.regs t).highspeedMode = false := by
  induction t, ht using Nat.le_induction with
  | base => exact x.ready
  | succ t ht ih =>
    have halone := x.alone t ht
    have hstart : (x.regs t).highspeedStart = false := by
      rcases Nat.eq_or_lt_of_le ht with rfl | hlt
      · rw [(Dsp.highspeedStart_of_ordered x.ordered x.single x.output).2]
        exact beq_false_of_ne hkind
      · exact (x.quietFrom t hlt).highspeedStart
    show (x.regs t).highspeedModeNext (x.inp t) = false
    unfold Dsp.highspeedModeNext Dsp.swReset Dsp.highspeedReset
    rw [halone.rstN, halone.reset, hstart, ih]
    simp

/-- The counter is loaded with the length of the command. -/
theorem loaded_eq (x : OutputTransfer) (hkind : x.kind ≠ .outSingleHigh) : x.loaded = x.length := by
  have hquiet := x.quietFrom x.start x.after
  obtain ⟨hstarts, -, -⟩ := Dsp.starts_single x.starts (x.dmaCommand_eq x.after le_rfl) x.single
  have hload : (x.regs (x.start + 1)).lenLeft = (x.regs x.start).lengthBytes := by
    show (x.regs x.start).lenLeftNext (x.inp x.start) = _
    unfold Dsp.lenLeftNext
    rw [hquiet.rstN, hquiet.swReset, hquiet.highspeedReset, hstarts, x.highspeedMode_eq hkind x.after.le]
    rfl
  rw [loaded, length, if_neg hkind, hload, Dsp.lengthBytes, x.writeBuffer_eq x.after.le]
  rfl

theorem stereo_eq (x : OutputTransfer) : (x.regs (x.start + 1)).dmaFormat.getLsbD 1 = x.stereo := by
  have hformat := Dsp.started_stereo (x.quietFrom x.start x.after) x.starts (x.dmaCommand_eq x.after le_rfl) x.single
    x.output
  rw [x.writeBuffer_eq x.after.le] at hformat
  exact hformat

/-! ## A block that does not ask -/

theorem consumed_succ (ht : x.start < t) :
    x.consumed (t + 1) = x.consumed t + ((x.regs t).sampleTaken (x.inp t)).toNat := by
  rw [consumed, pulses_succ _ (Nat.succ_le_of_lt ht)]
  cases (x.regs t).sampleTaken (x.inp t) <;> rfl

theorem not_consumes_of_unasked (hno : ∀ u, x.start < u → (x.regs u).Unasked) : ¬ x.Consumes := by
  rintro ⟨e, hend⟩
  have hafter := x.after
  have hnone : x.consumed (e + 1) = 0 := pulses_eq_zero fun u hu _ =>
    Dsp.taken_of_calm (DspRun.calm_of_unasked (x.quietFrom.mono (by omega)) x.calm hno hu)
  have hall := hend.consumed
  omega

theorem not_consumes_of_muted (hmuted : (x.regs (x.start + 1)).Muted) : ¬ x.Consumes := by
  have hafter := x.after
  have hrun : ∀ u, x.start + 1 ≤ u → (x.regs u).Muted := by
    intro u hu
    induction u, hu using Nat.le_induction with
    | base => exact hmuted
    | succ u hu ih => exact ih.step (x.quietFrom u (by omega))
  exact not_consumes_of_unasked fun u hu => (hrun u hu).unasked

theorem not_consumes_of_stopped (hrate : (x.regs x.start).clkSmp = 0) : ¬ x.Consumes := by
  have hafter := x.after
  refine not_consumes_of_unasked fun u hu => ?_
  have hsample := DspRun.ceSmp_zero (by omega) (x.quietFrom.mono (by omega)) hrate hu
  rw [Dsp.Unasked, Dsp.timer0Isr, Dsp.tf0, Dsp.timer0Tick, hsample]
  simp

/-! ## A block that goes out -/

/-- A clock of the block. -/
structure At (x : OutputTransfer) (t : Nat) : Prop where
  active : (x.regs t).Active (x.regs (x.start + 1)).dmaFormat x.kind.adpcm
  counts : (x.regs t).Counts x.kind.ref x.loaded (x.consumed t)

/-- The block has not ended before clock `t`. -/
def Going (x : OutputTransfer) (t : Nat) : Prop := ∀ u, x.start < u → u < t → (x.regs u).blockEnds (x.inp u) = false

theorem at_of_going
    (hfree : (x.regs x.start).pauseActive = false ∧ (x.regs x.start).dmaFinished (x.inp x.start) = false)
    (ht : x.start < t) (hgo : x.Going t) : x.At t := by
  have hafter := x.after
  have hkind := x.dmaCommand_eq x.after le_rfl
  have hquiet := x.quietFrom x.start x.after
  induction t, Nat.succ_le_of_lt ht using Nat.le_induction with
  | base =>
    refine ⟨Dsp.started hquiet x.starts hkind x.single x.output x.calm hfree.1 hfree.2, ?_⟩
    rw [consumed, pulses_self]
    exact Dsp.started_counts hquiet x.starts hkind x.single x.output x.calm
  | succ t ht' ih =>
    have hat := ih ht' fun u h1 h2 => hgo u h1 (by omega)
    have hend := hgo t ht' (Nat.lt_succ_self t)
    have hq := x.quietFrom t (by omega)
    refine ⟨hat.active.step hq hend, ?_⟩
    rw [consumed_succ ht']
    exact hat.counts.step hat.active hq (x.acks t ht') hend

/-- A block that asks comes to its end: the timer overflows while there is no request, and each request is
acknowledged. -/
theorem exists_end (hfree : (x.regs x.start).pauseActive = false ∧ (x.regs x.start).dmaFinished (x.inp x.start) = false)
    (hrate : (x.regs x.start).clkSmp ≠ 0) :
    ∃ e, x.start < e ∧ (x.regs e).blockEnds (x.inp e) = true ∧ x.Going e := by
  have hafter := x.after
  have hquiet : x.QuietFrom (x.start + 1) := x.quietFrom.mono (by omega)
  have hended : ∀ k, (¬ ∃ v, x.start < v ∧ v ≤ x.start + 1 + k ∧ (x.regs v).blockEnds (x.inp v) = true) →
      x.At (x.start + 1 + k) ∧ (x.regs (x.start + 1 + k)).blockEnds (x.inp (x.start + 1 + k)) = false := by
    intro k hno
    have hfalse : ∀ v, x.start < v → v ≤ x.start + 1 + k → (x.regs v).blockEnds (x.inp v) = false :=
      fun v h1 h2 => Bool.eq_false_of_not_eq_true fun he => hno ⟨v, h1, h2, he⟩
    exact ⟨at_of_going hfree (by omega) fun u h1 h2 => hfalse u h1 (by omega), hfalse _ (by omega) le_rfl⟩
  have hprogress := exists_of_progress
    (P := fun k => ∃ v, x.start < v ∧ v ≤ x.start + 1 + k ∧ (x.regs v).blockEnds (x.inp v) = true)
    (W := fun k => (x.regs (x.start + 1 + k)).moves (x.inp (x.start + 1 + k)) = false)
    (fun k => (x.regs (x.start + 1 + k)).toCome x.kind.ref x.loaded (x.consumed (x.start + 1 + k)))
    (fun k hno _ => ?_) (fun k hno hmove => ?_) (fun k => ?_) 0
  · obtain ⟨k, -, v, hv, -, hend⟩ := hprogress
    obtain ⟨e, he, hfirst, hbefore⟩ := exists_first (P := fun u => (x.regs u).blockEnds (x.inp u) = true)
      ⟨v, Nat.succ_le_of_lt hv, hend⟩
    exact ⟨e, he, hfirst, fun u h1 h2 => Bool.eq_false_of_not_eq_true (hbefore u h1 h2)⟩
  · obtain ⟨hat, hend⟩ := hended k hno
    have hstep := hat.counts.toCome_step hat.active (hquiet _ (by omega)) (x.acks _ (by omega)) hend
    rw [← DspRun.regs_succ, ← consumed_succ (by omega)] at hstep
    exact hstep.1
  · obtain ⟨hat, hend⟩ := hended k hno
    have hstep := hat.counts.toCome_step hat.active (hquiet _ (by omega)) (x.acks _ (by omega)) hend
    rw [← DspRun.regs_succ, ← consumed_succ (by omega)] at hstep
    exact hstep.2 (Bool.eq_true_of_not_eq_false hmove)
  · by_contra hnever
    push Not at hnever
    have hgo : ∀ u, x.start + 1 + k ≤ u → x.At u ∧ (x.regs u).moves (x.inp u) = false := by
      intro u hu
      obtain ⟨hno, hrest⟩ := hnever (u - x.start - 1) (by omega)
      rw [show x.start + 1 + (u - x.start - 1) = u by omega] at hno hrest
      have hat := (hended (u - x.start - 1) (by
        rintro ⟨v, h1, h2, he⟩
        exact hno v h1 (by omega) he)).1
      rw [show x.start + 1 + (u - x.start - 1) = u by omega] at hat
      exact ⟨hat, hrest⟩
    have hkept : ∀ u, x.start + 1 + k ≤ u →
        (x.regs u).dmaNormalReq = (x.regs (x.start + 1 + k)).dmaNormalReq := by
      intro u hu
      induction u, hu using Nat.le_induction with
      | base => rfl
      | succ u hu ih =>
        obtain ⟨hat, hrest⟩ := hgo u hu
        exact (hat.active.request_kept (hquiet u (by omega)) hrest).trans ih
    cases hreq : (x.regs (x.start + 1 + k)).dmaNormalReq with
    | true =>
      -- the request is acknowledged
      have hdma := (hgo _ le_rfl).1.active.dmaReq.trans hreq
      obtain ⟨u, hu, hack⟩ := x.served _ (by omega) hdma
      have hrest := (hgo u hu).2
      rw [Dsp.moves, (hkept u hu).trans hreq, if_pos rfl, hack] at hrest
      cases hrest
    | false =>
      -- the timer overflows
      have hclk : (x.regs (x.start + 1 + k)).clkSmp ≠ 0 := by
        rw [DspRun.clkSmp_eq (a := x.start) (x.quietFrom.mono (by omega)) (by omega)]
        exact hrate
      obtain ⟨u, hu, hisr⟩ := DspRun.exists_isr (P := fun _ => False) (by omega) (hquiet.mono (by omega)) hclk
        (fun u hu _ => ⟨(hgo u hu).1.active.tr0, (hgo u hu).1.active.et0⟩) le_rfl
      have hrest := (hgo u hu).2
      rw [Dsp.moves, (hkept u hu).trans hreq] at hrest
      simp only [Bool.false_eq_true, if_false] at hrest
      rcases hisr with hno | hisr
      · exact hno
      · rw [hisr] at hrest
        cases hrest

/-- The end of a block that asks. -/
structure Last (x : OutputTransfer) (e : Nat) : Prop where
  after : x.start < e
  raises : (x.regs e).raises (x.inp e) = true
  once : ∀ t, x.start < t → (x.regs t).raises (x.inp t) = true → t = e
  consumed : x.consumed (e + 1) = Dsp.blockSamples x.kind.adpcm x.kind.ref x.loaded
  request : (x.regs (e + 1)).dmaReq = (x.stereo && x.loaded % 2 == 0)
  rested : ∀ t, e < t → (x.regs t).Over

theorem exists_last
    (hfree : (x.regs x.start).pauseActive = false ∧ (x.regs x.start).dmaFinished (x.inp x.start) = false)
    (hrate : (x.regs x.start).clkSmp ≠ 0) : ∃ e, x.Last e := by
  have hafter := x.after
  obtain ⟨e, he, hend, hgo⟩ := exists_end hfree hrate
  have hat := at_of_going hfree he hgo
  have hq := x.quietFrom e (by omega)
  have hover : ∀ t, e < t → (x.regs t).Over := fun t ht =>
    DspRun.over_of_over (a := e + 1) (x.quietFrom.mono (by omega)) (hat.active.over hq hend) ht
  obtain ⟨hsamples, hrequest⟩ := hat.counts.ends hat.active hq (x.acks e he) hend
  rw [x.stereo_eq] at hrequest
  refine ⟨e, he, hat.active.raises.trans hend, fun t ht hraises => ?_, (consumed_succ he).trans hsamples, ?_, hover⟩
  · rcases Nat.lt_trichotomy t e with hlt | heq | hgt
    · have hbefore := at_of_going hfree ht fun u h1 h2 => hgo u h1 (by omega)
      rw [hbefore.active.raises, hgo t ht hlt] at hraises
      cases hraises
    · exact heq
    · rw [(hover t hgt).raises] at hraises
      cases hraises
  · rw [Dsp.dmaReq, (hover (e + 1) (Nat.lt_succ_self e)).noId]
    exact hrequest

/-- The last clock is a good one if as many samples have been taken as were asked for, and no half of a pair is left. -/
theorem Last.endsAt_iff {e : Nat} (h : x.Last e) : x.EndsAt e ↔
    Dsp.blockSamples x.kind.adpcm x.kind.ref x.loaded = x.length + 1 ∧ (x.stereo = true → x.loaded % 2 = 1) := by
  have hafter := x.after
  have hstart := h.after
  have hpair : (x.stereo && x.loaded % 2 == 0) = false ↔ (x.stereo = true → x.loaded % 2 = 1) := by
    cases x.stereo with
    | true =>
      simp only [Bool.true_and, beq_eq_false_iff_ne, forall_const]
      omega
    | false => simp
  rw [← h.consumed, ← hpair, ← h.request]
  constructor
  · intro hgood
    exact ⟨hgood.consumed, hgood.stops _ (Nat.lt_succ_self e)⟩
  · rintro ⟨hsamples, hcalm⟩
    exact ⟨hstart, h.raises, Dsp.irq_step (x.quietFrom e (by omega)) h.raises, h.once, hsamples,
      fun t ht => DspRun.calm_of_over (x.quietFrom.mono (by omega)) (h.rested _ (Nat.lt_succ_self e)) hcalm ht⟩

/-- The transfer consumes as many samples as it asks for exactly when it is a plain one, without a half pair at its end,
or one of the two packed ones whose counter comes out right. -/
theorem consumes_iff (x : OutputTransfer) : x.Consumes ↔ x.Suits := by
  have hafter := x.after
  by_cases hrate : (x.regs x.start).clkSmp = 0
  · exact ⟨fun h => absurd h (not_consumes_of_stopped hrate), fun h => absurd hrate h.clocked⟩
  by_cases hfree : (x.regs x.start).pauseActive = false ∧ (x.regs x.start).dmaFinished (x.inp x.start) = false
  · obtain ⟨e, hlast⟩ := exists_last hfree hrate
    have hsame : x.Consumes ↔ x.EndsAt e := by
      constructor
      · rintro ⟨e', hend⟩
        rwa [hend.once e hlast.after hlast.raises]
      · exact fun hend => ⟨e, hend⟩
    have hhigh : x.kind = .outSingleHigh → x.kind.adpcm = .none ∧ x.stereo = false := by
      intro hkind
      rw [stereo, hkind]
      exact ⟨rfl, rfl⟩
    have hloaded := x.loaded_eq
    have href := Bool.toNat_lt x.kind.ref
    rw [hsame, hlast.endsAt_iff, Dsp.blockSamples]
    constructor
    · rintro ⟨hsamples, hpairs⟩
      refine ⟨hrate, hfree, fun hkind => ?_, fun hstereo => ?_, fun hpacked => ?_⟩
      · rw [if_pos (hhigh hkind).1] at hsamples
        omega
      · rw [← hloaded fun hkind => ?_]
        · exact hpairs hstereo
        · rw [(hhigh hkind).2] at hstereo
          cases hstereo
      · rw [if_neg hpacked, hloaded fun hkind => hpacked (hhigh hkind).1, Dsp.atLeast] at hsamples
        omega
    · intro hsuits
      have hlength : x.loaded = x.length := by
        by_cases hkind : x.kind = .outSingleHigh
        · exact hsuits.highspeed hkind
        · exact hloaded hkind
      rw [hlength]
      refine ⟨?_, hsuits.pairs⟩
      split_ifs with hplain
      · rfl
      · have hone := hsuits.packed hplain
        rw [Dsp.atLeast]
        omega
  · have hmuted := Dsp.started_muted (x.quietFrom x.start x.after) x.starts (x.dmaCommand_eq x.after le_rfl) x.single
      hfree
    exact ⟨fun h => absurd h (not_consumes_of_muted hmuted), fun h => absurd h.free hfree⟩

/-! ## A packed block of two bytes -/

/-- The bytes of a time constant, and of the command for 4-bit samples with a length of 1. -/
def shortBytes : List (BitVec 8) := [0x40, 0xFF, 0, 0, 0x74, 1, 0]

/-- The DMA gives one byte. -/
def shortIn (t : Nat) : DspIn :=
  { rstN := t != 0, clockRate := 0x100000, ioAddress := 0xC, ioRead := false
    ioWrite := decide (t = 1 ∨ t = 2 ∨ (5 ≤ t ∧ t ≤ 7)), ioWritedata := (shortBytes[t - 1]?).getD 0
    dmaAck := t == 13, dma16En := false, sbp := false, sbpStereo := false }

def shortRun : DspRun where
  powerUp := default
  inp := shortIn
  reset := rfl
  clockRate := 0x100000
  steady _ := rfl
  rateLow := by decide
  rateHigh := by decide

theorem shortIn_alone (ht : 9 ≤ t) : (shortIn t).Alone := by
  have hwrite : (shortIn t).ioWrite = false := decide_eq_false (by omega)
  have hwrites : ∀ a, (shortIn t).writes a = false := fun a => by rw [DspIn.writes, hwrite, Bool.false_and]
  refine ⟨?_, hwrites 6, hwrites 0xC⟩
  show (t != 0) = true
  rw [bne_iff_ne]
  omega

/-- There is no request after the end of the block in clock 14. -/
theorem shortRun_calm (ht : 15 ≤ t) : (shortRun.regs t).dmaReq = false := by
  have hquiet : shortRun.QuietFrom 15 :=
    (DspRun.quietFrom_of_alone (a := 9) (fun _ hu => shortIn_alone hu) (by decide)).mono (by omega)
  exact DspRun.calm_of_over hquiet ⟨by decide, by decide, by decide, by decide⟩
    (by decide) ht

def shortTransfer : OutputTransfer where
  toDspRun := shortRun
  command := 9
  kind := .outSingle4Bit
  ordered := by decide
  single := rfl
  output := rfl
  ready := by decide
  alone _ ht := shortIn_alone ht
  start := 10
  after := by decide
  waits _ h1 h2 := absurd h1 (by omega)
  starts := by decide
  calm := by decide
  acks t _ hack := by
    have ht : t = 13 := beq_iff_eq.1 hack
    subst ht
    decide
  served t _ hreq := by
    by_cases hearly : t ≤ 13
    · exact ⟨13, hearly, rfl⟩
    · exfalso
      rcases Nat.lt_or_ge t 15 with hlt | hge
      · have ht : t = 14 := by omega
        subst ht
        revert hreq
        decide
      · rw [shortRun_calm hge] at hreq
        cases hreq

/-- One byte is consumed of two. -/
theorem shortTransfer_not_consumes : ¬ shortTransfer.Consumes := by
  rintro ⟨e, hend⟩
  have he : 14 = e := hend.once 14 (by decide) (by decide)
  have hconsumed := hend.consumed
  rw [← he] at hconsumed
  revert hconsumed
  decide

end OutputTransfer

end Z486.Sound
