/-
The timers of the OPL3 (src/soc/sound/opl3/timer.sv, timers.sv). A timer counts ticks from the value of its register up
to 255 and begins again; the tick in which it overflows raises a flag, which a register write clears.

A timer that is stopped does not stand still if it is stopped in the clock of a tick: the tick then stays, and it counts
every clock.
-/
import Z486.Sound.OplRegs

namespace Z486.Sound

open Clocked

/-! ## One timer -/

/-- The registers of timer.sv, and the start bit of the clock before. -/
structure OplTimer where
  tickCounter : Nat
  timer : BitVec 8
  timerOverflowPulse : Bool
  startLast : Bool

namespace OplTimer

variable (s : OplTimer) (ticks : Nat) (timerReg : BitVec 8) (start : Bool)

def powerUp : OplTimer := ⟨0, 0, false, false⟩

/-- `start_timer_set_pulse` -/
def startSetPulse : Bool := start && !s.startLast

def tickPulse : Bool := s.tickCounter == ticks - 1

/-- The tick in which the timer is full. -/
def full : Bool := s.timer == 255 && s.tickPulse ticks

def step : OplTimer where
  tickCounter :=
    if start then if s.tickPulse ticks || s.startSetPulse start then 0 else s.tickCounter + 1 else s.tickCounter
  timer :=
    if s.startSetPulse start then timerReg
    else if s.tickPulse ticks then if s.timer = 255 then timerReg else s.timer + 1
    else s.timer
  timerOverflowPulse := s.full ticks
  startLast := start

end OplTimer

/-! ## Both timers -/

/-- The registers of timers.sv; those of a timer are functions of it. -/
structure OplTimers where
  timerReg : Fin 2 → BitVec 8
  mt : Fin 2 → Bool
  st : Fin 2 → Bool
  irqRst : Bool
  timer : Fin 2 → OplTimer
  ft : Fin 2 → Bool
  irqN : Bool

structure OplTimersIn where
  reset : Bool
  wr : OplRegWr
  forceTimerOverflow : Bool

/-- `TICK_TIMER_COUNT_VALUE`: the clocks of 80 and of 320 microseconds. -/
def timerTicks (k : Fin 2) : Nat := if k = 0 then 1966 else 7864

namespace OplTimers

variable (s : OplTimers) (i : OplTimersIn)

def powerUp : OplTimers where
  timerReg := fun _ => 0
  mt := fun _ => false
  st := fun _ => false
  irqRst := false
  timer := fun _ => .powerUp
  ft := fun _ => false
  irqN := false

def irq : Bool := s.ft 0 || s.ft 1

def status : BitVec 8 := BitVec.ofBool s.irq ++ BitVec.ofBool (s.ft 0) ++ BitVec.ofBool (s.ft 1) ++ 0#5

/-- The flag of a timer is to be set; `force_timer_overflow` stands for the first one's overflow. -/
def raises (k : Fin 2) : Bool := ((s.timer k).timerOverflowPulse || (k == 0 && i.forceTimerOverflow)) && !s.mt k

def clears : Bool := i.reset || s.irqRst

def step : OplTimers where
  timerReg k := if i.reset then 0 else regNext false (if k = 0 then 2 else 3) id (s.timerReg k) i.wr
  mt k := if i.reset then false else regNext false 4 (·.getLsbD (if k = 0 then 6 else 5)) (s.mt k) i.wr
  st k := if i.reset then false else regNext false 4 (·.getLsbD (if k = 0 then 0 else 1)) (s.st k) i.wr
  irqRst := if i.reset then false else regNext false 4 (·.getLsbD 7) s.irqRst i.wr
  timer k := (s.timer k).step (timerTicks k) (s.timerReg k) (s.st k)
  ft k := if s.clears i then false else if s.raises i k then true else s.ft k
  irqN := !s.irq

end OplTimers

/-! ## A run -/

/-- The timers from power-up on, with any register writes. -/
structure OplTimersRun where
  inputs : Nat → OplTimersIn

namespace OplTimersRun

variable (r : OplTimersRun)

def state (t : Nat) : OplTimers := run OplTimers.step .powerUp r.inputs t

def timer (k : Fin 2) (t : Nat) : OplTimer := (r.state t).timer k

def start (k : Fin 2) (t : Nat) : Bool := (r.state t).st k

def raises (k : Fin 2) (t : Nat) : Bool := (r.state t).raises (r.inputs t) k

def clears (t : Nat) : Bool := (r.state t).clears (r.inputs t)

/-- The timer takes the value of its register: it has been started, or it is full. -/
def loads (k : Fin 2) (t : Nat) : Bool :=
  r.start k t && ((r.timer k t).startSetPulse (r.start k t) || (r.timer k t).full (timerTicks k))

/-- The clocks that the value in the register stands for. -/
def period (k : Fin 2) (t : Nat) : Nat := timerTicks k * (256 - ((r.state t).timerReg k).toNat)

variable {r} {k : Fin 2} {t u : Nat}

theorem timer_succ : r.timer k (t + 1) = (r.timer k t).step (timerTicks k) ((r.state t).timerReg k) (r.start k t) := rfl

theorem start_kept (hreset : (r.inputs t).reset = false) (hwr : (r.inputs t).wr.valid = false) :
    r.start k (t + 1) = r.start k t := by
  show (if (r.inputs t).reset then false else regNext _ _ _ _ (r.inputs t).wr) = _
  unfold regNext
  rw [hreset, hwr]
  rfl

/-! ## Counting -/

theorem timerTicks_pos (k : Fin 2) : 0 < timerTicks k := by
  revert k
  decide

/-- `d` clocks after a load. -/
structure Counts (ticks : Nat) (v : BitVec 8) (d : Nat) (s : OplTimer) : Prop where
  tickCounter : s.tickCounter = d % ticks
  timer : s.timer.toNat = v.toNat + d / ticks
  startLast : s.startLast = true

theorem counts_load (hload : r.loads k t = true) :
    Counts (timerTicks k) ((r.state t).timerReg k) 0 (r.timer k (t + 1)) := by
  unfold loads at hload
  rw [Bool.and_eq_true, Bool.or_eq_true] at hload
  obtain ⟨hstart, hload⟩ := hload
  rw [hstart] at hload
  rw [timer_succ, hstart]
  generalize r.timer k t = s at hload
  by_cases hset : s.startSetPulse true = true
  · refine ⟨?_, ?_, rfl⟩
    · simp only [OplTimer.step, hset, Bool.or_true, if_true, Nat.zero_mod]
    · simp only [OplTimer.step, hset, if_true, Nat.zero_div, Nat.add_zero]
  · have hfull := hload.resolve_left hset
    unfold OplTimer.full at hfull
    rw [Bool.and_eq_true, beq_iff_eq] at hfull
    refine ⟨?_, ?_, rfl⟩
    · simp only [OplTimer.step, hfull.2, Bool.true_or, if_true, Nat.zero_mod]
    · simp only [OplTimer.step, hset, hfull.1, hfull.2, if_true, if_false, Bool.false_eq_true, Nat.zero_div,
        Nat.add_zero]

theorem Counts.step {ticks d : Nat} {v : BitVec 8} {s : OplTimer} (h : Counts ticks v d s) (hpos : 0 < ticks)
    (hroom : d + 1 < ticks * (256 - v.toNat)) (timerReg : BitVec 8) :
    Counts ticks v (d + 1) (s.step ticks timerReg true) := by
  have hset : s.startSetPulse true = false := by
    unfold OplTimer.startSetPulse
    rw [h.startLast]
    rfl
  have hdiv := Nat.div_add_mod d ticks
  have hlt := Nat.mod_lt d hpos
  by_cases htick : s.tickPulse ticks = true
  · have hlast : d % ticks = ticks - 1 := by
      unfold OplTimer.tickPulse at htick
      rw [beq_iff_eq, h.tickCounter] at htick
      exact htick
    have hnext : d + 1 = ticks * (d / ticks + 1) := by
      rw [Nat.mul_add, Nat.mul_one]
      omega
    have hmore : d / ticks + 1 < 256 - v.toNat := by
      rw [hnext] at hroom
      exact Nat.lt_of_mul_lt_mul_left hroom
    have hnotfull : s.timer ≠ 255 := by
      intro hfull
      have htimer := h.timer
      rw [hfull] at htimer
      have : (255 : BitVec 8).toNat = 255 := rfl
      omega
    refine ⟨?_, ?_, rfl⟩
    · rw [hnext, Nat.mul_mod_right]
      simp only [OplTimer.step, htick, Bool.true_or, if_true]
    · rw [hnext, Nat.mul_div_cancel_left _ hpos]
      simp only [OplTimer.step, hset, htick, hnotfull, if_true, if_false, Bool.false_eq_true]
      rw [BitVec.toNat_add, h.timer, show BitVec.toNat (1 : BitVec 8) = 1 from rfl, Nat.mod_eq_of_lt (by omega)]
      omega
  · have hmid : d % ticks ≠ ticks - 1 := by
      intro hlast
      refine htick ?_
      unfold OplTimer.tickPulse
      rw [beq_iff_eq, h.tickCounter]
      exact hlast
    rw [Bool.not_eq_true] at htick
    have hnext : d + 1 = ticks * (d / ticks) + (d % ticks + 1) := by omega
    refine ⟨?_, ?_, rfl⟩
    · rw [hnext, Nat.mul_add_mod, Nat.mod_eq_of_lt (by omega)]
      simp only [OplTimer.step, hset, htick, Bool.or_false, if_true, if_false, Bool.false_eq_true]
      rw [h.tickCounter]
    · rw [hnext, Nat.mul_add_div hpos, Nat.div_eq_of_lt (show d % ticks + 1 < ticks by omega), Nat.add_zero]
      simp only [OplTimer.step, hset, htick, if_false, Bool.false_eq_true]
      exact h.timer

theorem counts_run (hload : r.loads k t = true) {d : Nat} (hroom : d < r.period k t)
    (hstart : ∀ w, t ≤ w → w ≤ t + d → r.start k w = true) :
    Counts (timerTicks k) ((r.state t).timerReg k) d (r.timer k (t + 1 + d)) := by
  induction d with
  | zero => exact counts_load hload
  | succ d ih =>
    have hnext := (ih (by omega) fun w hle hlt => hstart w hle (by omega)).step (timerTicks_pos k) hroom
      ((r.state (t + 1 + d)).timerReg k)
    rw [← Nat.add_assoc, timer_succ, hstart (t + 1 + d) (by omega) (by omega)]
    exact hnext

/-- A timer is full when its period is over. -/
theorem Counts.full_iff {ticks d : Nat} {v : BitVec 8} {s : OplTimer} (h : Counts ticks v d s) (hpos : 0 < ticks) :
    s.full ticks = true ↔ d + 1 = ticks * (256 - v.toNat) := by
  have hv := v.isLt
  have hdiv := Nat.div_add_mod d ticks
  have hlt := Nat.mod_lt d hpos
  have htimer : s.timer = 255 ↔ v.toNat + d / ticks = 255 := by
    rw [← h.timer, ← BitVec.toNat_inj]
    rfl
  unfold OplTimer.full OplTimer.tickPulse
  rw [Bool.and_eq_true, beq_iff_eq, beq_iff_eq, htimer, h.tickCounter]
  constructor
  · rintro ⟨hlast, htick⟩
    rw [show 256 - v.toNat = d / ticks + 1 by omega, Nat.mul_add, Nat.mul_one]
    omega
  · intro hend
    have hmod : (d + 1) % ticks = 0 := by
      rw [hend, Nat.mul_mod_right]
    have htick : d % ticks = ticks - 1 := by
      by_contra hmid
      rw [show d + 1 = ticks * (d / ticks) + (d % ticks + 1) by omega, Nat.mul_add_mod,
        Nat.mod_eq_of_lt (by omega)] at hmod
      omega
    have hcount : ticks * (d / ticks + 1) = ticks * (256 - v.toNat) := by
      rw [← hend, Nat.mul_add, Nat.mul_one]
      omega
    have := Nat.eq_of_mul_eq_mul_left hpos hcount
    exact ⟨by omega, htick⟩

/-- Until a timer is stopped, it is full once after a load, at the end of its period. -/
theorem full_iff (hload : r.loads k t = true) (hstart : ∀ w, t ≤ w → w < u → r.start k w = true) (htu : t < u)
    (hend : u ≤ t + r.period k t) : (r.timer k u).full (timerTicks k) = true ↔ u = t + r.period k t := by
  obtain ⟨d, rfl⟩ := Nat.exists_eq_add_of_le (Nat.succ_le_of_lt htu)
  have hcounts := counts_run hload (d := d) (by omega) fun w hle hlt => hstart w hle (by omega)
  have hfull := hcounts.full_iff (timerTicks_pos k)
  unfold period
  rw [show t.succ + d = t + 1 + d from rfl, hfull]
  omega

/-! ## Flags -/

theorem ft_succ : (r.state (t + 1)).ft k =
    if r.clears t then false else if r.raises k t then true else (r.state t).ft k := rfl

/-- A flag is up when it has been raised, and not been cleared in that clock or later. -/
theorem ft_iff : (r.state t).ft k = true ↔
    ∃ u, u < t ∧ r.raises k u = true ∧ ∀ w, u ≤ w → w < t → r.clears w = false := by
  induction t with
  | zero => exact iff_of_false (fun h => nomatch h) fun ⟨u, hu, _⟩ => nomatch hu
  | succ t ih =>
    rw [ft_succ]
    by_cases hclear : r.clears t = true
    · rw [if_pos hclear]
      refine iff_of_false (fun h => nomatch h) fun ⟨u, hu, _, hno⟩ => ?_
      rw [hno t (by omega) (by omega)] at hclear
      exact nomatch hclear
    · rw [if_neg hclear]
      rw [Bool.not_eq_true] at hclear
      by_cases hraise : r.raises k t = true
      · rw [if_pos hraise]
        refine iff_of_true rfl ⟨t, Nat.lt_succ_self t, hraise, fun w hle hlt => ?_⟩
        rwa [show w = t by omega]
      · rw [if_neg hraise, ih]
        constructor
        · rintro ⟨u, hu, hraised, hno⟩
          refine ⟨u, by omega, hraised, fun w hle hlt => ?_⟩
          by_cases hw : w = t
          · rwa [hw]
          · exact hno w hle (by omega)
        · rintro ⟨u, hu, hraised, hno⟩
          have hne : u ≠ t := by
            rintro rfl
            exact hraise hraised
          exact ⟨u, by omega, hraised, fun w hle hlt => hno w hle (by omega)⟩

/-- A timer that is stopped counts every clock if it is stopped in a tick, and else stands still. -/
theorem stopped (hstop : ∀ w, t ≤ w → w ≤ u → r.start k w = false) (htu : t ≤ u) :
    (r.timer k (u + 1)).timer =
      if (r.timer k t).tickPulse (timerTicks k) then
        if (r.timer k u).timer = 255 then (r.state u).timerReg k else (r.timer k u).timer + 1
      else (r.timer k u).timer := by
  have hkept : (r.timer k u).tickCounter = (r.timer k t).tickCounter := by
    induction u, htu using Nat.le_induction with
    | base => rfl
    | succ u hu ih =>
      rw [timer_succ, OplTimer.step, hstop u hu (by omega)]
      exact ih fun w hle hlt => hstop w hle (by omega)
  have htick : (r.timer k u).tickPulse (timerTicks k) = (r.timer k t).tickPulse (timerTicks k) := by
    unfold OplTimer.tickPulse
    rw [hkept]
  rw [timer_succ, OplTimer.step, hstop u htu (Nat.le_refl u), ← htick]
  rfl

/-- A timer overflows at the end of its period and not before; a flag is up from what raises it to what clears it. -/
theorem overflows_once (r : OplTimersRun) (k : Fin 2) (t : Nat) (hload : r.loads k t = true)
    (hstart : ∀ w, t ≤ w → w < t + r.period k t → r.start k w = true) :
    (∀ d, d < r.period k t →
      (r.timer k (t + d + 2)).timerOverflowPulse = decide (d + 1 = r.period k t)) ∧
    ∀ u, (r.state u).ft k = true ↔
      ∃ v, v < u ∧ r.raises k v = true ∧ ∀ w, v ≤ w → w < u → r.clears w = false := by
  refine ⟨fun d hd => ?_, fun u => ft_iff⟩
  have hpulse : (r.timer k (t + d + 2)).timerOverflowPulse = (r.timer k (t + d + 1)).full (timerTicks k) := rfl
  have hfull := full_iff (u := t + d + 1) hload (fun w hle hlt => hstart w hle (by omega)) (by omega) (by omega)
  rw [hpulse, Bool.eq_iff_iff, decide_eq_true_eq, hfull]
  omega

/-! ## A timer of two ticks -/

/-- 254 is written to the first timer's register, and its start bit is set. -/
def twoTicks : OplTimersRun where
  inputs t :=
    ⟨false, if t = 0 then ⟨true, false, 2, 254⟩ else if t = 1 then ⟨true, false, 4, 1⟩ else ⟨false, false, 4, 1⟩, false⟩

theorem twoTicks_start (d : Nat) : twoTicks.start 0 (2 + d) = true := by
  induction d with
  | zero => rfl
  | succ d ih =>
    have hwr : (twoTicks.inputs (2 + d)).wr.valid = false := by
      unfold twoTicks
      simp only [show 2 + d ≠ 0 by omega, show 2 + d ≠ 1 by omega, if_false]
    rw [← Nat.add_assoc, start_kept rfl hwr]
    exact ih

/-- It overflows every 3932 clocks. -/
theorem twoTicks_overflows : twoTicks.period 0 2 = 3932 ∧
    ∀ d, d < 3932 → (twoTicks.timer 0 (2 + d + 2)).timerOverflowPulse = decide (d + 1 = 3932) := by
  refine ⟨rfl, (overflows_once twoTicks 0 2 rfl fun w hle _ => ?_).1⟩
  obtain ⟨d, rfl⟩ := Nat.exists_eq_add_of_le hle
  exact twoTicks_start d

end OplTimersRun

end Z486.Sound
