/-
The sample clock and the timer of the DSP. While no command is carried out, a sample clock with a rate other than zero
ticks again and again, and a timer that runs overflows again and again.
-/
import Z486.Clocked.Accumulator
import Z486.Sound.Dsp

namespace Z486.Sound

open Clocked

/-! ## Clocks without commands -/

/-- No reset, and nothing is written to the reset port and the command port. -/
structure DspIn.Alone (i : DspIn) : Prop where
  rstN : i.rstN = true
  reset : i.writes 6 = false
  command : i.writes 0xC = false

namespace Dsp

variable {s : Dsp} {i : DspIn}

/-- A clock in which no command is carried out. -/
structure Quiet (s : Dsp) (i : DspIn) : Prop where
  alone : i.Alone
  cmd : s.cmd = 0

namespace Quiet

variable (h : s.Quiet i)
include h

theorem rstN : i.rstN = true := h.alone.rstN

theorem swReset : s.swReset i = false := by
  rw [Dsp.swReset, h.alone.reset]
  rfl

theorem highspeedReset : s.highspeedReset i = false := by
  rw [Dsp.highspeedReset, h.alone.reset]
  rfl

theorem highspeedStart : s.highspeedStart = false := by
  unfold Dsp.highspeedStart cmdHighAutoDmaOut cmdHighSingleDmaOut cmdHighAutoDmaInput cmdHighSingleDmaInput
  rw [h.cmd]
  rfl

theorem newDma : s.cmdNewDma i = false := by
  rw [cmdNewDma, h.cmd]
  rfl

theorem ordered : s.ordered i = none := by
  unfold Dsp.ordered cmdHighAutoDmaOut cmdHighSingleDmaOut cmdHighAutoDmaInput cmdHighSingleDmaInput
  rw [h.newDma, h.cmd]
  rfl

theorem pauseDac : s.cmdPauseDac = false := by
  rw [cmdPauseDac, h.cmd]
  rfl

theorem pauseStart : s.cmdDmaPauseStart i = false := by
  rw [cmdDmaPauseStart, h.cmd]
  rfl

theorem pauseEnd : s.cmdDmaPauseEnd i = false := by
  rw [cmdDmaPauseEnd, h.cmd]
  rfl

theorem setTimeConstant : s.cmdSetTimeConstant = false := by
  rw [cmdSetTimeConstant, h.cmd]
  rfl

theorem setSampleRate : s.cmdSetSampleRate i = false := by
  rw [cmdSetSampleRate, h.cmd]
  rfl

theorem clkSmp_step : (s.step i).clkSmp = s.clkSmp := by
  show s.clkSmpNext i = _
  unfold clkSmpNext
  simp only [h.rstN, h.swReset, h.setTimeConstant, h.setSampleRate, Bool.not_true, Bool.or_self, Bool.false_eq_true,
    if_false]

theorem tl0_step : (s.step i).tl0 =
    if s.sampleRateActive then 0xFF else if s.tf0 then s.th0 else if s.timer0Tick then s.tl0 + 1 else s.tl0 := by
  show s.tl0Next i = _
  unfold tl0Next
  simp only [h.rstN, h.swReset, h.highspeedReset, h.setTimeConstant, Bool.not_true, Bool.false_eq_true, if_false]

/-- Between two overflows the timer comes nearer to the next one with every tick of the sample clock. -/
theorem tl0_rises (hno : s.tf0 = false) :
    255 - (s.step i).tl0.toNat ≤ 255 - s.tl0.toNat ∧
      (s.timer0Tick = true → 255 - (s.step i).tl0.toNat < 255 - s.tl0.toNat) := by
  have hlt : s.tl0.toNat < 256 := s.tl0.isLt
  have hbelow : s.timer0Tick = true → s.tl0.toNat ≠ 255 := by
    intro htick he
    rw [tf0, htick, Bool.true_and, beq_eq_false_iff_ne] at hno
    exact hno (BitVec.eq_of_toNat_eq he)
  rw [h.tl0_step, hno]
  cases s.sampleRateActive with
  | true =>
    rw [if_pos rfl]
    refine ⟨Nat.zero_le _, fun htick => ?_⟩
    have hne := hbelow htick
    show 0 < _
    omega
  | false =>
    cases htick : s.timer0Tick with
    | true =>
      have hne := hbelow htick
      have hsucc : (s.tl0 + 1).toNat = s.tl0.toNat + 1 := by
        rw [BitVec.toNat_add]
        show (_ + 1) % 256 = _
        omega
      simp only [Bool.false_eq_true, if_false, if_true, hsucc]
      omega
    | false => exact ⟨le_rfl, nofun⟩

end Quiet

/-- The enabled timer does not overflow without an interrupt. -/
theorem not_tf0 (het0 : s.et0 = true) (hno : s.timer0Isr ≠ true) : s.tf0 = false := by
  rw [timer0Isr, het0, Bool.and_true] at hno
  exact Bool.eq_false_of_not_eq_true hno

end Dsp

/-! ## Runs -/

/-- A run of the DSP, in a system whose clock has a steady rate. -/
structure DspRun where
  powerUp : Dsp
  inp : Nat → DspIn
  reset : (inp 0).rstN = false
  clockRate : BitVec 28
  steady : ∀ t, (inp t).clockRate = clockRate
  rateLow : 2 ^ 20 ≤ clockRate.toNat
  rateHigh : clockRate.toNat + 2 ^ 20 ≤ 2 ^ 28

namespace DspRun

variable (r : DspRun)

def regs (t : Nat) : Dsp := run Dsp.step r.powerUp r.inp t

theorem regs_succ (t : Nat) : r.regs (t + 1) = (r.regs t).step (r.inp t) := run_succ _ _ _ _

/-- No command is carried out from clock `a` on. -/
def QuietFrom (a : Nat) : Prop := ∀ t, a ≤ t → (r.regs t).Quiet (r.inp t)

section Quiet

variable {r} {a t : Nat}

theorem cmdRecv_eq (halone : ∀ t, a ≤ t → (r.inp t).Alone) (hrecv : (r.regs a).cmdRecv = false) (ht : a ≤ t) :
    (r.regs t).cmdRecv = false := by
  induction t, ht using Nat.le_induction with
  | base => exact hrecv
  | succ t ht ih =>
    have hal := halone t ht
    show (r.regs t).cmdRecvNext (r.inp t) = false
    unfold Dsp.cmdRecvNext Dsp.swReset Dsp.cmdStart
    rw [hal.rstN, hal.reset, hal.command, ih]
    simp

/-- When no byte is written any more, the command in clock `a` is the last one. -/
theorem quietFrom_of_alone (halone : ∀ t, a ≤ t → (r.inp t).Alone) (hrecv : (r.regs a).cmdRecv = false) :
    r.QuietFrom (a + 1) := by
  intro t ht
  obtain ⟨u, rfl⟩ := Nat.exists_eq_add_of_le' (Nat.le_trans (Nat.le_add_left 1 _) ht)
  refine ⟨halone _ (by omega), ?_⟩
  have hrecvD : (r.regs (u + 1)).cmdRecvD = false := by
    show (if !(r.inp u).rstN then false else if (r.regs u).swReset (r.inp u) then false else (r.regs u).cmdRecv) = false
    rw [cmdRecv_eq halone hrecv (by omega)]
    simp
  rw [Dsp.cmd, Dsp.cmdFinish, hrecvD]
  rfl

theorem QuietFrom.mono {b : Nat} (h : r.QuietFrom a) (hab : a ≤ b) : r.QuietFrom b := fun t ht => h t (hab.trans ht)

end Quiet

/-! ## The sample clock -/

/-- The sum is below the rate of the clock, and the rate of the samples is one that can be set. -/
structure Phased (t : Nat) : Prop where
  sum : (r.regs t).smpSum.toNat < r.clockRate.toNat
  rate : (r.regs t).clkSmp.toNat ≤ 2 ^ 20

variable {r} {a t : Nat}

theorem clkSmpNext_le {s : Dsp} {i : DspIn} (h : s.clkSmp.toNat ≤ 2 ^ 20) : (s.clkSmpNext i).toNat ≤ 2 ^ 20 := by
  unfold Dsp.clkSmpNext
  split_ifs
  · decide
  · have hbytes := (s.writeBuffer.extractLsb' 0 16).isLt
    rw [BitVec.toNat_setWidth]
    omega
  · exact h

theorem Phased.smpSumUp_toNat (h : r.Phased t) :
    (r.regs t).smpSumUp.toNat = (r.regs t).smpSum.toNat + (r.regs t).clkSmp.toNat := by
  have hsum := h.sum
  have hrate := h.rate
  have hhigh := r.rateHigh
  rw [Dsp.smpSumUp, BitVec.toNat_add]
  omega

theorem Phased.ticks_iff (h : r.Phased t) : r.clockRate ≤ (r.regs t).smpSumUp ↔
    Accumulator.Ticks (r.regs t).clkSmp.toNat r.clockRate.toNat (r.regs t).smpSum.toNat := by
  rw [BitVec.le_def, h.smpSumUp_toNat]
  rfl

theorem Phased.smpSum_succ (h : r.Phased t) (hr : (r.inp t).rstN = true) : (r.regs (t + 1)).smpSum.toNat =
    Accumulator.next (r.regs t).clkSmp.toNat r.clockRate.toNat (r.regs t).smpSum.toNat := by
  show ((r.regs t).smpSumNext (r.inp t)).toNat = _
  unfold Dsp.smpSumNext
  rw [hr, r.steady]
  simp only [Bool.not_true, Bool.false_eq_true, if_false]
  by_cases htick : r.clockRate ≤ (r.regs t).smpSumUp
  · rw [if_pos htick, Accumulator.next, if_pos (h.ticks_iff.1 htick), BitVec.toNat_sub_of_le htick, h.smpSumUp_toNat]
  · rw [if_neg htick, Accumulator.next, if_neg fun hn => htick (h.ticks_iff.2 hn), h.smpSumUp_toNat]

theorem phased_succ (h : (r.inp t).rstN = true → r.Phased t) : r.Phased (t + 1) := by
  have hlow := r.rateLow
  cases hr : (r.inp t).rstN with
  | false =>
    refine ⟨?_, ?_⟩
    · show ((r.regs t).smpSumNext (r.inp t)).toNat < _
      rw [Dsp.smpSumNext, hr]
      show 0 < _
      omega
    · show ((r.regs t).clkSmpNext (r.inp t)).toNat ≤ _
      rw [Dsp.clkSmpNext, hr]
      show (1000000#28).toNat ≤ _
      decide
  | true =>
    have hphased := h hr
    refine ⟨?_, clkSmpNext_le hphased.rate⟩
    rw [hphased.smpSum_succ hr]
    exact Accumulator.next_lt hphased.sum (hphased.rate.trans hlow)

theorem phased (r : DspRun) (ht : 0 < t) : r.Phased t := by
  induction t with
  | zero => exact absurd ht (Nat.lt_irrefl 0)
  | succ t ih =>
    refine phased_succ fun hr => ih ?_
    by_contra hzero
    rw [Nat.eq_zero_of_not_pos hzero, r.reset] at hr
    cases hr

theorem clkSmp_eq (hq : r.QuietFrom a) (ht : a ≤ t) : (r.regs t).clkSmp = (r.regs a).clkSmp := by
  induction t, ht using Nat.le_induction with
  | base => rfl
  | succ t ht ih => exact (hq t ht).clkSmp_step.trans ih

theorem ceSmp_succ (ht : 0 < t) (hr : (r.inp t).rstN = true) : (r.regs (t + 1)).ceSmp = true ↔
    Accumulator.Ticks (r.regs t).clkSmp.toNat r.clockRate.toNat (r.regs t).smpSum.toNat := by
  rw [← (r.phased ht).ticks_iff]
  show (r.regs t).ceSmpNext (r.inp t) = true ↔ _
  rw [Dsp.ceSmpNext, hr, r.steady]
  exact decide_eq_true_iff

/-- A sample clock with a rate ticks again and again. -/
theorem exists_sample (ha : 0 < a) (hq : r.QuietFrom a) (hrate : (r.regs a).clkSmp ≠ 0) (ht : a ≤ t) :
    ∃ u, t ≤ u ∧ (r.regs u).ceSmp = true := by
  have hpos : 0 < (r.regs a).clkSmp.toNat := Nat.pos_of_ne_zero fun he => hrate (BitVec.eq_of_toNat_eq he)
  obtain ⟨u, hu, htick⟩ := Accumulator.exists_tick (f := fun k => (r.regs k).smpSum.toNat) hpos
    (fun k hk => (r.phased (by omega)).sum)
    (fun k hk => by rw [(r.phased (by omega)).smpSum_succ (hq k hk).rstN, clkSmp_eq hq hk]) ht
  refine ⟨u + 1, by omega, (ceSmp_succ (by omega) (hq u (by omega)).rstN).2 ?_⟩
  rwa [clkSmp_eq hq (by omega)]

/-- One without a rate does not tick. -/
theorem ceSmp_zero (ha : 0 < a) (hq : r.QuietFrom a) (hrate : (r.regs a).clkSmp = 0) (ht : a < t) :
    (r.regs t).ceSmp = false := by
  obtain ⟨u, rfl⟩ := Nat.exists_eq_add_of_le' (Nat.succ_le_of_lt (lt_of_le_of_lt (Nat.zero_le a) ht))
  have hu : a ≤ u := by omega
  rw [← Bool.not_eq_true, ceSmp_succ (by omega) (hq u hu).rstN, clkSmp_eq hq hu, hrate]
  exact Accumulator.not_ticks_zero (r.phased (by omega)).sum

/-! ## The timer -/

/-- A timer that runs overflows, unless it is stopped. -/
theorem exists_isr {P : Nat → Prop} (ha : 0 < a) (hq : r.QuietFrom a) (hrate : (r.regs a).clkSmp ≠ 0)
    (hruns : ∀ u, a ≤ u → ¬ P u → (r.regs u).tr0 = true ∧ (r.regs u).et0 = true) (ht : a ≤ t) :
    ∃ u, t ≤ u ∧ (P u ∨ (r.regs u).timer0Isr = true) := by
  have hprogress := exists_of_progress (P := fun k => P (a + k) ∨ (r.regs (a + k)).timer0Isr = true)
    (W := fun k => (r.regs (a + k)).ceSmp = false) (fun k => 255 - (r.regs (a + k)).tl0.toNat)
    (fun k hno _ => ?_) (fun k hno hsample => ?_) (fun k => ?_) (t - a)
  · obtain ⟨k, hk, hmeets⟩ := hprogress
    exact ⟨a + k, by omega, hmeets⟩
  · push Not at hno
    obtain ⟨-, het0⟩ := hruns (a + k) (Nat.le_add_right _ _) hno.1
    exact ((hq (a + k) (Nat.le_add_right _ _)).tl0_rises (Dsp.not_tf0 het0 hno.2)).1
  · push Not at hno
    obtain ⟨htr0, het0⟩ := hruns (a + k) (Nat.le_add_right _ _) hno.1
    refine ((hq (a + k) (Nat.le_add_right _ _)).tl0_rises (Dsp.not_tf0 het0 hno.2)).2 ?_
    rw [Dsp.timer0Tick, htr0, Bool.and_true]
    exact Bool.eq_true_of_not_eq_false hsample
  · obtain ⟨u, hu, hsample⟩ := exists_sample ha hq hrate (Nat.le_add_right a k)
    refine ⟨u - a, by omega, .inr ?_⟩
    rw [Nat.add_sub_cancel' (by omega), hsample]
    exact Bool.noConfusion

end DspRun

end Z486.Sound
