/-
The software reset of the floppy controller against a hardware reset in the same clock. When no parameter is outstanding and
neither a transfer nor the delay of a recalibrate or a seek runs, the two differ in the settings that a software reset keeps,
and in nothing that is read again.
-/
import Z486.Disk.FloppyUnread

namespace Z486.Disk

open Clocked

namespace Floppy

variable {s : Floppy} {i : FloppyIn}

/-! ## What a software reset leaves -/

/-- The controller after a hardware reset in the clock, with what a software reset keeps by design: the drive, its motors
and the changelines, the settings of the digital output and data rate registers and of the specify, configure,
perpendicular mode and lock commands, the interrupt status (with the four drives that a software reset has to report), and
the data buffer, which `S_IDLE` clears. -/
def afresh (s : Floppy) (i : FloppyIn) : Floppy :=
  let kept := s.step i
  { s.step { i with rstN := false } with
    selectedDriveR := kept.selectedDriveR
    motorEnable := kept.motorEnable
    change := kept.change
    dmaIrqEnable := kept.dmaIrqEnable
    enable := kept.enable
    dataRate := kept.dataRate
    specifySrt := kept.specifySrt
    specifyHut := kept.specifyHut
    specifyHlt := kept.specifyHlt
    ndma := kept.ndma
    configConfig := kept.configConfig
    configPretrk := kept.configPretrk
    perpMode := kept.perpMode
    lock := kept.lock
    resetSensei := kept.resetSensei
    pendingInterrupt := kept.pendingInterrupt
    statusReg0Temp := kept.statusReg0Temp
    fifo := kept.fifo }

/-- No byte is written to the data port, and no hardware reset comes, in the first `n` clocks. -/
def Untouched (inp : Nat → FloppyIn) (n : Nat) : Prop := ∀ k, k < n → (inp k).rstN = true ∧ (inp k).writes 5 = false

/-- What the software reset of a clock has to bring about. Until the next byte at the data port the controller is idle and
has neither parameters to take nor results to give, and that byte is the first one of a command; whatever comes, what it
shows is what it would show after a hardware reset. -/
structure Ready (s : Floppy) (i : FloppyIn) : Prop where
  idle : ∀ inp n, Untouched inp n → (run Floppy.step (s.step i) inp n).state = .idle
  parameters : ∀ inp n, Untouched inp n → (run Floppy.step (s.step i) inp n).commandLeft = 0
  results : ∀ inp n, Untouched inp n → (run Floppy.step (s.step i) inp n).replyLeft = 0
  buffer : ∀ inp n, Untouched inp n → (run Floppy.step (s.step i) inp (n + 1)).fifo.empty = true
  first : ∀ inp n, Untouched inp n → (inp n).writes 5 = true →
    (run Floppy.step (s.step i) inp n).commandFirst (inp n) = true
  same : ∀ inp n, (run Floppy.step (s.step i) inp n).out (inp n) = (run Floppy.step (s.afresh i) inp n).out (inp n)

/-- No delay of a recalibrate or a seek runs, or it has come to its last cycle. -/
def delayOver (s : Floppy) : Bool := s.delaySteps == 0 && s.delaySrt == 0 && (s.delayRate == 0 || s.delayRate == 1)

/-! ## A reset that leaves nothing -/

theorem Fresh.run (h : Fresh s) {inp : Nat → FloppyIn} {n : Nat} (hq : Untouched inp n) :
    Fresh (Clocked.run Floppy.step s inp n) := by
  induction n with
  | zero => exact h
  | succ n ih =>
    obtain ⟨hr, hw⟩ := hq n (Nat.lt_succ_self n)
    exact (ih fun k hk => hq k (Nat.lt_succ_of_lt hk)).next hr hw

/-- In `S_IDLE` the data buffer is emptied. -/
theorem empty_of_idle (h : s.state = .idle) : (s.step i).fifo.empty = true := by
  show (s.fifoNext i).empty = true
  unfold fifoNext
  rw [h, beq_self_eq_true, Bool.or_true]
  rfl

/-- In `S_IDLE`, with no command, nothing that a transfer leaves behind is read. -/
theorem Fresh.unread (h : Fresh s) (x : Leftover) : Unread s x := by
  have hcode : ∀ code : BitVec 5, (0 == code) = false → s.inProgress code = false := fun code hne => by
    unfold inProgress
    rw [h.pending]
    exact hne
  have hrw : s.readsOrWrites = false := by
    unfold readsOrWrites cmdReadNormalInProgress cmdWriteNormalInProgress
    rw [hcode _ (by decide), hcode _ (by decide)]
    rfl
  have hformat : s.cmdFormatInProgress = false := hcode _ (by decide)
  refine ⟨fun hread => ?_, fun hread => ?_, fun hs => ?_, fun hs => ?_, fun hs => ?_, fun hs => ?_, fun hf => ?_,
    fun hs => absurd h.idle hs, fun hs => ?_⟩
  · rw [hrw, h.idle] at hread
    exact absurd hread (by decide)
  · rw [hrw] at hread
    cases hread
  · rw [h.idle] at hs
    cases hs
  · rw [h.idle] at hs
    exact absurd hs (by decide)
  · rw [h.idle] at hs
    exact absurd hs (by decide)
  · rw [h.idle] at hs
    cases hs
  · rw [hformat] at hf
    cases hf
  · rw [h.idle] at hs
    cases hs

/-- No delay runs after the clock. -/
structure DelaysCleared (s : Floppy) : Prop where
  steps : s.delaySteps = 0
  srt : s.delaySrt = 0
  rate : s.delayRate = 0

theorem delaysCleared_step (h : s.delayOver = true) (hno : NoLast s i) (hclk : 2 ≤ s.clkRate.toNat) :
    DelaysCleared (s.step i) := by
  unfold delayOver at h
  rw [Bool.and_eq_true, Bool.and_eq_true, beq_iff_eq, beq_iff_eq, Bool.or_eq_true, beq_iff_eq, beq_iff_eq] at h
  obtain ⟨⟨hsteps, hsrt⟩, hrate⟩ := h
  refine ⟨?_, ?_, ?_⟩
  · show s.delayStepsNext i = 0
    unfold delayStepsNext
    rw [hno.recalibrate, hno.seek, hsteps, hsrt]
    simp
  · show s.delaySrtNext i = 0
    unfold delaySrtNext
    rw [hno.recalibrate, hno.seek, hsteps, hsrt]
    simp
  · have hlow : ¬ s.clkRate ≤ s.delayRate := by
      rw [BitVec.le_def]
      rcases hrate with hrate | hrate <;> rw [hrate]
      · exact Nat.not_le.2 (Nat.lt_of_lt_of_le (by decide) hclk)
      · exact Nat.not_le.2 (Nat.lt_of_lt_of_le (by decide) hclk)
    show s.delayRateNext i = 0
    unfold delayRateNext
    rw [hno.recalibrate, hno.seek, hsteps, hsrt, if_neg hlow]
    rcases hrate with hrate | hrate <;> rw [hrate] <;> simp

/-- After a software reset that finds nothing under way, the controller differs from one after a hardware reset in what it
keeps by design and in what is not read again. -/
theorem afresh_eq (hf : Fresh (s.step i)) (hs : s.swReset i = true) (hd : DelaysCleared (s.step i)) :
    s.afresh i = ((s.step i).withLeftover (s.afresh i).leftover).withCommand 0 0 := by
  have hclear : ∀ {α : Type} (a b : α), (if !i.rstN || s.swReset i then a else b) = a := fun a b => by
    rw [hs, Bool.or_true, if_pos rfl]
  apply Floppy.ext
  case state => exact hf.idle.symm
  case commandLeft => exact hf.parameters.symm
  case replyLeft => exact hf.results.symm
  case pendingCommand => exact hf.pending.symm
  case busy => exact hf.busy.symm
  case dataregReady => exact hf.ready.symm
  case transferToCpu => exact hf.toCpu.symm
  case executeNdma => exact hf.ndma.symm
  case delaySteps => exact hd.steps.symm
  case delaySrt => exact hd.srt.symm
  case delayRate => exact hd.rate.symm
  case ndmaIrq | inSeekMode | irq | reply | cylinder | head | sector | eot => exact (hclear _ _).symm
  all_goals rfl

theorem afresh_alike (hf : Fresh (s.step i)) (hs : s.swReset i = true) (hd : DelaysCleared (s.step i)) :
    Alike (s.step i) (s.afresh i) :=
  ⟨(s.afresh i).leftover, hf.unread _, .inr ⟨hf.parameters, 0, 0, afresh_eq hf hs hd⟩⟩

theorem not_write_of_swReset (hs : s.swReset i = true) : i.writes 5 = false := by
  cases h : i.writes 5 with
  | false => rfl
  | true =>
    rw [swReset_of_write h] at hs
    cases hs

theorem ready_of_over (hidle : s.state = .idle → s.executeNdma = false) (hclk : 2 ≤ s.clkRate.toNat)
    (hr : i.rstN = true) (hs : s.swReset i = true) (hleft : s.commandLeft = 0) (hover : s.transferOver = true)
    (hdelay : s.delayOver = true) : s.Ready i := by
  have hf := fresh_of_swReset hidle hr hs hleft hover
  have hd := delaysCleared_step hdelay (.of_not_write (not_write_of_swReset hs)) hclk
  refine ⟨fun inp n hq => (hf.run hq).idle, fun inp n hq => (hf.run hq).parameters, fun inp n hq => (hf.run hq).results,
    fun inp n hq => empty_of_idle (hf.run hq).idle, fun inp n hq hw => (hf.run hq).commandFirst.trans hw, fun inp n => ?_⟩
  exact ((afresh_alike hf hs hd).run inp n).out_eq.symm

/-! ## A delay that goes on -/

/-- The delay of a recalibrate or a seek runs. -/
def Delays (s : Floppy) : Prop := ¬ (s.delaySteps = 0 ∧ s.delaySrt = 0 ∧ s.delayRate = 0)

theorem delayAdder_cases (s : Floppy) : 500 ≤ s.delayAdder.toNat ∧ s.delayAdder.toNat ≤ 2000 := by
  unfold delayAdder
  split_ifs <;> decide

theorem delayAdder_ne_zero (s : Floppy) : s.delayAdder ≠ 0 := fun h => by
  have hcases := s.delayAdder_cases
  rw [h] at hcases
  exact absurd hcases.1 (by decide)

section Delay

variable (hno : NoLast s i) (hr : i.rstN = true)
include hno hr

theorem delayStepsNext_eq : s.delayStepsNext i =
    if s.delayRate = 0 ∧ s.delaySrt = 0 ∧ s.delaySteps ≠ 0 then s.delaySteps - 1 else s.delaySteps := by
  unfold delayStepsNext
  rw [hno.recalibrate, hno.seek, hr]
  simp [and_assoc]

theorem delaySrtNext_eq : s.delaySrtNext i =
    if s.delayRate = 0 ∧ s.delaySrt ≠ 0 then s.delaySrt - 1
    else if s.delayRate = 0 ∧ s.delaySteps ≠ 0 then s.specifySrt else s.delaySrt := by
  unfold delaySrtNext
  rw [hno.recalibrate, hno.seek, hr]
  simp

theorem delayRateNext_eq : s.delayRateNext i =
    if s.clkRate ≤ s.delayRate then 1 else if s.delayRate = 1 then 0
    else if s.delayRate ≠ 0 then s.delayRate + s.delayAdderR
    else if s.delaySrt ≠ 0 ∨ s.delaySteps ≠ 0 then s.delayAdder else s.delayRate := by
  unfold delayRateNext
  rw [hno.recalibrate, hno.seek, hr]
  simp

/-- A delay goes on until its last cycle. -/
theorem Delays.next (h : s.Delays) (hlast : s.delayLastCycle = false)
    (hsum : s.delayRate ≠ 0 → s.delayRate ≠ 1 → s.delayRate < s.clkRate → s.delayRate + s.delayAdderR ≠ 0) :
    (s.step i).Delays := by
  rintro ⟨hsteps, hsrt, hrate⟩
  change s.delayStepsNext i = 0 at hsteps
  change s.delaySrtNext i = 0 at hsrt
  change s.delayRateNext i = 0 at hrate
  rw [delayRateNext_eq hno hr] at hrate
  by_cases hle : s.clkRate ≤ s.delayRate
  · rw [if_pos hle] at hrate
    exact absurd hrate (by decide)
  · rw [if_neg hle] at hrate
    by_cases hone : s.delayRate = 1
    · -- the steps that are left stay
      have hne : s.delayRate ≠ 0 := by rw [hone]; decide
      rw [delayStepsNext_eq hno hr, if_neg fun hc => hne hc.1] at hsteps
      rw [delaySrtNext_eq hno hr, if_neg fun hc => hne hc.1, if_neg fun hc => hne hc.1] at hsrt
      unfold delayLastCycle at hlast
      rw [hsteps, hsrt, hone] at hlast
      exact absurd hlast (by decide)
    · rw [if_neg hone] at hrate
      by_cases hzero : s.delayRate = 0
      · rw [if_neg (not_not.2 hzero)] at hrate
        split_ifs at hrate with hmore
        · exact s.delayAdder_ne_zero hrate
        · push Not at hmore
          exact h ⟨hmore.2, hmore.1, hzero⟩
      · rw [if_pos hzero] at hrate
        exact hsum hzero hone (BitVec.not_le.1 hle) hrate

/-- How far a delay is from its last cycle, when a cycle is counted in as few clocks as can be. -/
def delayLeft (s : Floppy) : Nat :=
  48 * s.delaySteps.toNat + 3 * s.delaySrt.toNat + if s.delayRate = 0 then 0 else if s.delayRate = 1 then 1 else 2

theorem delayLeft_step (h : s.Delays) (hclk : s.clkRate = 2) :
    (s.step i).delayLeft < s.delayLeft := by
  have hsteps : (s.step i).delaySteps = _ := delayStepsNext_eq hno hr
  have hsrt : (s.step i).delaySrt = _ := delaySrtNext_eq hno hr
  have hrate : (s.step i).delayRate = _ := delayRateNext_eq hno hr
  have hlow : s.clkRate ≤ s.delayRate ↔ 2 ≤ s.delayRate.toNat := by
    rw [hclk]
    exact BitVec.le_def
  by_cases hzero : s.delayRate = 0
  · have hmore : s.delaySrt ≠ 0 ∨ s.delaySteps ≠ 0 := by
      by_contra hnone
      push Not at hnone
      exact h ⟨hnone.2, hnone.1, hzero⟩
    have hnow : s.delayLeft = 48 * s.delaySteps.toNat + 3 * s.delaySrt.toNat := by
      unfold delayLeft
      rw [if_pos hzero, Nat.add_zero]
    have hnext : (s.step i).delayLeft ≤ 48 * (s.step i).delaySteps.toNat + 3 * (s.step i).delaySrt.toNat + 2 := by
      unfold delayLeft
      split_ifs <;> omega
    by_cases hfew : s.delaySrt = 0
    · have hsome : s.delaySteps ≠ 0 := hmore.resolve_left (not_not.2 hfew)
      rw [if_pos ⟨hzero, hfew, hsome⟩] at hsteps
      rw [if_neg fun hc => hc.2 hfew, if_pos ⟨hzero, hsome⟩] at hsrt
      have hpos : s.delaySteps.toNat ≠ 0 := fun hc => hsome (BitVec.eq_of_toNat_eq hc)
      have hminus : (s.step i).delaySteps.toNat = s.delaySteps.toNat - 1 := by
        rw [hsteps]
        exact BitVec.toNat_sub_of_le (BitVec.le_def.2 (Nat.one_le_iff_ne_zero.2 hpos))
      have hsmall := (s.step i).delaySrt.isLt
      omega
    · rw [if_neg fun hc => hfew hc.2.1] at hsteps
      rw [if_pos ⟨hzero, hfew⟩] at hsrt
      have hpos : s.delaySrt.toNat ≠ 0 := fun hc => hfew (BitVec.eq_of_toNat_eq hc)
      have hminus : (s.step i).delaySrt.toNat = s.delaySrt.toNat - 1 := by
        rw [hsrt]
        exact BitVec.toNat_sub_of_le (BitVec.le_def.2 (Nat.one_le_iff_ne_zero.2 hpos))
      rw [hsteps] at hnext
      omega
  · rw [if_neg fun hc => hzero hc.1] at hsteps
    rw [if_neg fun hc => hzero hc.1, if_neg fun hc => hzero hc.1] at hsrt
    by_cases hone : s.delayRate = 1
    · have hnot : ¬ s.clkRate ≤ s.delayRate := by
        rw [hlow, hone]
        decide
      rw [if_neg hnot, if_pos hone] at hrate
      unfold delayLeft
      rw [hsteps, hsrt, hrate, if_pos rfl, if_neg hzero, if_pos hone]
      omega
    · have hpos : s.delayRate.toNat ≠ 0 := fun hc => hzero (BitVec.eq_of_toNat_eq hc)
      have hmany : s.delayRate.toNat ≠ 1 := fun hc => hone (BitVec.eq_of_toNat_eq hc)
      rw [if_pos (hlow.2 (by omega))] at hrate
      unfold delayLeft
      rw [hsteps, hsrt, hrate, if_neg (by decide), if_pos rfl, if_neg hzero, if_neg hone]
      omega

end Delay

/-! ### A command that meets the delay -/

/-- A clock in which nothing is done, with the least clock rate. -/
def silent : FloppyIn where
  rstN := true
  dmaAck := false
  dmaTc := false
  dmaReaddata := 0
  ioAddress := 0
  ioRead := false
  ioWrite := false
  ioWritedata := 0
  mgmtAddress := 0
  mgmtFddn := false
  mgmtWrite := false
  mgmtWritedata := 0
  mgmtRead := false
  wp := fun _ => false
  clockRate := 2

/-- The byte of the version command. -/
def version : FloppyIn := { silent with ioWrite := true, ioAddress := 5, ioWritedata := 0x10 }

/-- Its result is read. -/
def takeResult : FloppyIn := { silent with ioRead := true, ioAddress := 5 }

/-- The version command after `n` clocks. -/
def askVersion (n k : Nat) : FloppyIn := if k < n then silent else if k = n then version else takeResult

theorem untouched_askVersion (n : Nat) : Untouched (askVersion n) n := by
  intro k hk
  rw [askVersion, if_pos hk]
  exact ⟨rfl, rfl⟩

/-- With the least clock rate a delay comes to its last cycle. -/
theorem Delays.exists_last (h : s.Delays) (hclk : s.clkRate = 2) :
    ∃ n, (Clocked.run Floppy.step s (fun _ => silent) n).delayLastCycle = true := by
  generalize hm : s.delayLeft = m
  induction m using Nat.strong_induction_on generalizing s with
  | _ m ih =>
    by_cases hlast : s.delayLastCycle = true
    · exact ⟨0, hlast⟩
    · have hno : NoLast s silent := .of_not_write rfl
      have hnext : (s.step silent).Delays := h.next hno rfl (Bool.eq_false_iff.2 hlast) fun hzero hone hlow => by
        have hpos : s.delayRate.toNat ≠ 0 := fun hc => hzero (BitVec.eq_of_toNat_eq hc)
        have hmany : s.delayRate.toNat ≠ 1 := fun hc => hone (BitVec.eq_of_toNat_eq hc)
        have hlt : s.delayRate.toNat < s.clkRate.toNat := hlow
        rw [hclk] at hlt
        change _ < 2 at hlt
        omega
      obtain ⟨n, hn⟩ := ih _ (hm ▸ delayLeft_step hno rfl h hclk) hnext rfl rfl
      refine ⟨1 + n, ?_⟩
      rw [run_add]
      exact hn

/-- In the last cycle of a delay the result of the version command is lost. -/
theorem version_reply (hf : Fresh s) :
    ((s.step version).reply.extractLsb' 0 8).getLsbD 5 = s.delayLastCycle := by
  have hno : NoLast s version := hf.noLast
  have hrecal : s.cmdRecalibrateInProgress = false := by
    unfold cmdRecalibrateInProgress inProgress
    rw [hf.pending]
    rfl
  have hfirst : s.commandFirst version = true := hf.commandFirst
  have hcode : version.code = 0x10 := rfl
  have hinvalid : s.cmdInvalidStart version = false := by
    unfold cmdInvalidStart
    rw [hfirst, hcode]
    rfl
  have hstate : ∀ y : FloppyState, y ≠ .idle → (s.state == y) = false := fun y hy =>
    beq_false_of_ne (by rw [hf.idle]; exact hy.symm)
  show ((s.replyNext version).extractLsb' 0 8).getLsbD 5 = _
  unfold replyNext formatInputFinish cmdReadIdFinished cmdSenseInterruptStatusStart cmdDumpRegistersStart cmdVersionStart
  rw [swReset_of_write rfl, hinvalid, hrecal, hno.readWrite, hno.writeNormal, hno.formatTrack, hno.getStatus,
    hstate _ (by decide), hstate _ (by decide), hstate _ (by decide), hfirst, hcode,
    show (!version.rstN || false) = false from rfl]
  cases hlast : s.delayLastCycle with
  | true =>
    -- the bit of a seek that has ended
    have hbit : ∀ (x : BitVec 72) (y : BitVec 8), (x ++ (0x20 ||| y)).getLsbD 5 = true := fun x y => by
      rw [BitVec.getLsbD_append]
      simp
    simp
    exact hbit _ _
  | false => simp

theorem readdata_takeResult (hndma : s.executeNdma = false) : (s.out takeResult).readdata = s.reply.extractLsb' 0 8 := by
  show s.ioReaddataPrepare takeResult = _
  unfold ioReaddataPrepare ndmaRead
  rw [hndma, Bool.and_false, Bool.false_and]
  rfl

/-- Without a delay there is no last cycle of one. -/
theorem DelaysCleared.no_last (hd : DelaysCleared s) (hclk : 2 ≤ s.clkRate.toNat) (n : Nat) :
    (Clocked.run Floppy.step s (fun _ => silent) n).delayLastCycle = false := by
  have hall : DelaysCleared (Clocked.run Floppy.step s (fun _ => silent) n) ∧
      2 ≤ (Clocked.run Floppy.step s (fun _ => silent) n).clkRate.toNat := by
    induction n with
    | zero => exact ⟨hd, hclk⟩
    | succ n ih =>
      refine ⟨delaysCleared_step ?_ (.of_not_write rfl) ih.2, Nat.le_refl 2⟩
      unfold delayOver
      rw [ih.1.steps, ih.1.srt, ih.1.rate]
      rfl
  unfold delayLastCycle
  rw [hall.1.rate]
  exact Bool.and_false _

/-- A delay that has come to its last cycle shows in the result of the version command. -/
theorem not_ready_of_last {n : Nat} (hf : Fresh (s.step i)) (hf' : Fresh (s.afresh i))
    (hlast : (Clocked.run Floppy.step (s.step i) (fun _ => silent) n).delayLastCycle = true)
    (hnone : (Clocked.run Floppy.step (s.afresh i) (fun _ => silent) n).delayLastCycle = false) : ¬ s.Ready i := by
  intro h
  have hquiet : ∀ s₀ : Floppy, Clocked.run Floppy.step s₀ (askVersion n) n = Clocked.run Floppy.step s₀ (fun _ => silent) n :=
    fun s₀ => run_congr fun k hk => if_pos hk
  have hask : askVersion n n = version := by
    rw [askVersion, if_neg (Nat.lt_irrefl n), if_pos rfl]
  have htake : askVersion n (n + 1) = takeResult := by
    rw [askVersion, if_neg (by omega), if_neg (by omega)]
  have hreads : ∀ s₀ : Floppy, Fresh s₀ →
      ((Clocked.run Floppy.step s₀ (askVersion n) (n + 1)).out takeResult).readdata.getLsbD 5 =
        (Clocked.run Floppy.step s₀ (fun _ => silent) n).delayLastCycle := by
    intro s₀ hs₀
    have hfresh := hs₀.run (untouched_askVersion n)
    have hno : NoLast (Clocked.run Floppy.step s₀ (askVersion n) n) version := hfresh.noLast
    have hndma : ((Clocked.run Floppy.step s₀ (askVersion n) n).step version).executeNdma = false := by
      show executeNdmaNext _ version = false
      unfold executeNdmaNext
      rw [hno.readWriteOk, hno.formatOk, hfresh.ndma]
      simp
    rw [run_succ, hask, readdata_takeResult hndma, version_reply hfresh, hquiet]
  have hsame := congrArg (fun o => o.readdata.getLsbD 5) (h.same (askVersion n) (n + 1))
  simp only [htake] at hsame
  rw [hreads _ hf, hreads _ hf', hlast, hnone] at hsame
  cases hsame

end Floppy

/-! ## Runs -/

namespace FloppyRun

variable {r : FloppyRun} {t : Nat}

/-- The clock rate is one that the delays can be counted with. -/
def RateFits (r : FloppyRun) : Prop := ∀ u, 2 ≤ (r.inp u).clockRate.toNat ∧ (r.inp u).clockRate.toNat + 2000 < 2 ^ 28

theorem clkRate_eq (ht : 0 < t) : (r.regs t).clkRate = (r.inp (t - 1)).clockRate := by
  obtain ⟨u, rfl⟩ : ∃ u, t = u + 1 := ⟨t - 1, by omega⟩
  rfl

/-- While a delay is counted, the count goes on in steps of 2000 at most. -/
theorem delayAdderR_le (hrate : r.RateFits) (ht : 0 < t) : (r.regs t).delayRate = 0 ∨ (r.regs t).delayAdderR.toNat ≤ 2000 := by
  induction t, ht using Nat.le_induction with
  | base =>
    refine .inl ?_
    show (r.regs 0).delayRateNext (r.inp 0) = 0
    unfold Floppy.delayRateNext
    rw [r.reset]
    rfl
  | succ t ht ih =>
    have hclk := (hrate (t - 1)).1
    rw [← clkRate_eq ht] at hclk
    have hadder := (r.regs t).delayAdder_cases.2
    have hlow : (r.regs t).delayRate = 0 → ¬ (r.regs t).clkRate ≤ (r.regs t).delayRate := fun hzero => by
      rw [hzero, BitVec.le_def]
      exact Nat.not_le.2 (Nat.lt_of_lt_of_le (by decide) hclk)
    show (r.regs t).delayRateNext (r.inp t) = 0 ∨ ((r.regs t).delayAdderRNext (r.inp t)).toNat ≤ 2000
    unfold Floppy.delayRateNext Floppy.delayAdderRNext
    cases (r.regs t).cmdRecalibrateStart (r.inp t) with
    | true => exact .inr hadder
    | false =>
      cases (r.regs t).cmdSeekStart (r.inp t) with
      | true => exact .inr hadder
      | false =>
        cases hmore : (r.regs t).delaySrt != 0 || (r.regs t).delaySteps != 0 with
        | true => exact .inr hadder
        | false =>
          rcases ih with hzero | hle
          · refine .inl ?_
            rw [if_neg (hlow hzero), hzero]
            simp
          · exact .inr hle

theorem rate_adds (hrate : r.RateFits) (ht : 0 < t) (hne : (r.regs t).delayRate ≠ 0)
    (hlow : (r.regs t).delayRate < (r.regs t).clkRate) : (r.regs t).delayRate + (r.regs t).delayAdderR ≠ 0 := by
  have hfits := (hrate (t - 1)).2
  rw [← clkRate_eq ht] at hfits
  have hadder := (delayAdderR_le hrate ht).resolve_left hne
  have hlt : (r.regs t).delayRate.toNat < (r.regs t).clkRate.toNat := hlow
  have hpos : (r.regs t).delayRate.toNat ≠ 0 := fun hc => hne (BitVec.eq_of_toNat_eq hc)
  intro hsum
  have hnat := congrArg BitVec.toNat hsum
  rw [BitVec.toNat_add, Nat.mod_eq_of_lt (by omega)] at hnat
  change _ = 0 at hnat
  omega

theorem not_ready_of_delay (hrate : r.RateFits) (ht : 0 < t) (hr : (r.inp t).rstN = true) (hs : r.swReset t = true)
    (hleft : (r.regs t).commandLeft = 0) (hover : (r.regs t).transferOver = true)
    (hdelay : (r.regs t).delayOver = false) : ¬ (r.regs t).Ready (r.inp t) := by
  have hf : Floppy.Fresh (r.regs (t + 1)) := Floppy.fresh_of_swReset (ndma_of_idle ht) hr hs hleft hover
  have hf' : Floppy.Fresh ((r.regs t).afresh (r.inp t)) := ⟨rfl, rfl, rfl, rfl, rfl, rfl, rfl, rfl⟩
  have hnone : ∀ n, (run Floppy.step ((r.regs t).afresh (r.inp t)) (fun _ => Floppy.silent) n).delayLastCycle = false :=
    fun n => Floppy.DelaysCleared.no_last ⟨rfl, rfl, rfl⟩ (hrate t).1 n
  have hno : Floppy.NoLast (r.regs t) (r.inp t) := .of_not_write (Floppy.not_write_of_swReset hs)
  have hrest : (r.regs t).Delays ∧ (r.regs t).delayLastCycle = false := by
    unfold Floppy.delayOver at hdelay
    refine ⟨fun ⟨h1, h2, h3⟩ => ?_, Bool.eq_false_iff.2 fun hlast => ?_⟩
    · rw [h1, h2, h3] at hdelay
      exact absurd hdelay (by decide)
    · unfold Floppy.delayLastCycle at hlast
      rw [Bool.and_eq_true] at hlast
      rw [hlast.1, hlast.2, Bool.or_true] at hdelay
      exact absurd hdelay (by decide)
  have hgoes : (r.regs (t + 1)).Delays := hrest.1.next hno hr hrest.2 fun hzero _ => rate_adds hrate ht hzero
  cases hlast : (r.regs (t + 1)).delayLastCycle with
  | true => exact Floppy.not_ready_of_last (n := 0) hf hf' hlast (hnone 0)
  | false =>
    have hagain : ((r.regs (t + 1)).step Floppy.silent).Delays :=
      hgoes.next (.of_not_write rfl) rfl hlast fun hzero _ => rate_adds hrate (Nat.succ_pos t) hzero
    obtain ⟨n, hn⟩ := hagain.exists_last rfl
    refine Floppy.not_ready_of_last (n := 1 + n) hf hf' ?_ (hnone (1 + n))
    show (run Floppy.step (r.regs (t + 1)) _ (1 + n)).delayLastCycle = true
    rw [run_add]
    exact hn

/-- A software reset makes the controller ready when it comes neither between the bytes of a command, nor during a transfer,
nor during the delay of a recalibrate or a seek, and only then. -/
theorem swReset_ready_iff (r : FloppyRun) (hrate : r.RateFits) (ht : 0 < t) (hr : (r.inp t).rstN = true)
    (hs : r.swReset t = true) :
    (r.regs t).Ready (r.inp t) ↔
      (r.regs t).commandLeft = 0 ∧ (r.regs t).transferOver = true ∧ (r.regs t).delayOver = true := by
  have hclk := (hrate (t - 1)).1
  rw [← clkRate_eq ht] at hclk
  constructor
  · intro h
    have hno := Floppy.NoStart.of_not_write (Floppy.not_write_of_swReset hs) (s := r.regs t)
    have hnone : ∀ inp : Nat → FloppyIn, Floppy.Untouched inp 0 := fun _ k hk => absurd hk (Nat.not_lt_zero k)
    have hleft : (r.regs t).commandLeft = 0 := by
      have hnext : (r.regs t).commandLeftNext (r.inp t) = 0 := h.parameters (fun _ => Floppy.silent) 0 (hnone _)
      unfold Floppy.commandLeftNext at hnext
      rw [hr, hno.first, Floppy.commandNext_of_not_write (Floppy.not_write_of_swReset hs)] at hnext
      exact hnext
    have hover : (r.regs t).transferOver = true := by
      unfold Floppy.transferOver
      rw [Bool.or_eq_true, beq_iff_eq]
      exact (hno.last.stateNext_idle_iff hr).1 (h.idle (fun _ => Floppy.silent) 0 (hnone _))
    refine ⟨hleft, hover, ?_⟩
    by_contra hdelay
    exact not_ready_of_delay hrate ht hr hs hleft hover (Bool.eq_false_iff.2 hdelay) h
  · rintro ⟨hleft, hover, hdelay⟩
    exact Floppy.ready_of_over (ndma_of_idle ht) hclk hr hs hleft hover hdelay

theorem writing_rateFits (bytes : List (BitVec 3 × BitVec 8)) : (writing bytes).RateFits := fun _ => by
  show 2 ≤ 50000000 ∧ 50000000 + 2000 < 2 ^ 28
  decide

/-- A reset through the data rate register while the result of a version command waits to be read. -/
theorem resetInResult_ready : ((writing [(5, 0x10), (4, 0x80)]).regs 2).replyLeft = 1 ∧
    ((writing [(5, 0x10), (4, 0x80)]).regs 2).Ready ((writing [(5, 0x10), (4, 0x80)]).inp 2) :=
  ⟨by decide +kernel, (swReset_ready_iff _ (writing_rateFits _) (by decide) rfl (by decide +kernel)).2
    ⟨by decide +kernel, by decide +kernel, by decide +kernel⟩⟩

/-- The same reset after the first byte of a specify command, whose parameters are still expected, and during the delay of a
seek, whose end takes the place of a result. -/
theorem resetInCommand_not_ready :
    ((writing [(5, 0x03), (4, 0x80)]).swReset 2 = true ∧
      ¬ ((writing [(5, 0x03), (4, 0x80)]).regs 2).Ready ((writing [(5, 0x03), (4, 0x80)]).inp 2)) ∧
    (writing [(5, 0x0F), (5, 0), (5, 5), (4, 0x80)]).swReset 4 = true ∧
      ¬ ((writing [(5, 0x0F), (5, 0), (5, 5), (4, 0x80)]).regs 4).Ready
        ((writing [(5, 0x0F), (5, 0), (5, 5), (4, 0x80)]).inp 4) := by
  refine ⟨⟨by decide +kernel, fun h => ?_⟩, by decide +kernel, ?_⟩
  · have hleft : ((writing [(5, 0x03), (4, 0x80)]).regs 3).commandLeft = 2 := by decide +kernel
    have hzero : ((writing [(5, 0x03), (4, 0x80)]).regs 3).commandLeft = 0 :=
      h.parameters (fun _ => Floppy.silent) 0 fun k hk => absurd hk (Nat.not_lt_zero k)
    rw [hleft] at hzero
    exact absurd hzero (by decide)
  · exact not_ready_of_delay (writing_rateFits _) (by decide) rfl (by decide +kernel) (by decide +kernel)
      (by decide +kernel) (by decide +kernel)

end FloppyRun

end Z486.Disk
