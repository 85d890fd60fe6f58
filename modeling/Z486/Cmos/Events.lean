/-
The events of register C of the RTC. A tick sets the flag of its event, and a read of the register clears all flags,
also one whose event ticks in the clock of the read.
-/
import Z486.Cmos.Rtc

namespace Z486.Cmos

/-! ## Events and reads -/

/-- The events that have a flag in register C. -/
inductive Event where
  | periodic
  | alarm
  | update
deriving DecidableEq, Repr

namespace Event

/-- The bit of the event in register C. -/
def bit : Event → Nat
  | periodic => 6
  | alarm => 5
  | update => 4

def flag (s : Rtc) : Event → Bool
  | periodic => s.periodicInterrupt
  | alarm => s.alarmInterrupt
  | update => s.updateInterrupt

def tick (s : Rtc) : Event → Bool
  | periodic => s.periodicTick
  | alarm => s.alarmTick
  | update => s.updateTick

end Event

namespace RtcRun

variable (r : RtcRun)

def flag (e : Event) (t : Nat) : Bool := e.flag (r.state t)

/-- The event occurs in clock `t`. -/
def tick (e : Event) (t : Nat) : Bool := e.tick (r.state t)

/-- The guest reads register C in clock `t`. -/
def readsC (t : Nat) : Bool := (r.state t).readsC (r.inputs t)

/-- The read of clock `t` returns the flag of the event set. -/
def returns (e : Event) (t : Nat) : Bool := (r.state (t + 1)).ioReaddata.getLsbD e.bit

/-- No reset from clock `t` to clock `u`. -/
def Running (t u : Nat) : Prop := ∀ v, t ≤ v → v < u → (r.inputs v).rstN = true

/-- The first read after clock `t` is in clock `u`. -/
structure NextRead (t u : Nat) : Prop where
  lt : t < u
  reads : r.readsC u = true
  first : ∀ v, t < v → v < u → r.readsC v = false

/-- No event is lost: its flag is set until a read returns it, and that of an event in the clock of a read is returned by
that read or by the next one. -/
structure NoneLost : Prop where
  held : ∀ e t u, r.tick e t = true → r.readsC t = false → t < u → r.Running t u →
    (∀ v, t < v → v < u → r.readsC v = true → r.returns e v = false) → r.flag e u = true
  returned : ∀ e t u, r.tick e t = true → r.readsC t = true → r.NextRead t u → r.Running t u →
    r.returns e t = true ∨ r.returns e u = true

/-- An event in the clock of a read finds its flag set, or comes again before the next read. -/
def ReadsApart : Prop :=
  ∀ e t u, r.tick e t = true → r.readsC t = true → r.NextRead t u → r.Running t u →
    r.flag e t = true ∨ ∃ v, t < v ∧ v < u ∧ r.tick e v = true

/-! ## One clock -/

variable {r}

theorem flag_succ (e : Event) (t : Nat) :
    r.flag e (t + 1) = (r.state t).flagNext (r.inputs t) (r.flag e t) (r.tick e t) := by
  unfold flag tick
  rw [state_succ]
  cases e <;> rfl

/-- A tick sets the flag, and the flag stays, unless register C is read. -/
theorem flag_set {e : Event} {t : Nat} (hrun : (r.inputs t).rstN = true) (hread : r.readsC t = false) :
    r.flag e (t + 1) = (r.tick e t || r.flag e t) := by
  rw [readsC] at hread
  rw [flag_succ, Rtc.flagNext, hrun, hread]
  cases r.tick e t <;> rfl

theorem flag_clear {e : Event} {t : Nat} (hread : r.readsC t = true) : r.flag e (t + 1) = false := by
  rw [readsC] at hread
  rw [flag_succ, Rtc.flagNext, hread]
  simp

theorem registerC_bit (s : Rtc) (e : Event) : s.registerC.getLsbD e.bit = e.flag s := by
  have hbits : ∀ q p a u : Bool, let c := BitVec.ofBool q ++ BitVec.ofBool p ++ BitVec.ofBool a ++ BitVec.ofBool u ++ 0#4
      c.getLsbD 6 = p ∧ c.getLsbD 5 = a ∧ c.getLsbD 4 = u := by decide
  obtain ⟨hp, ha, hu⟩ := hbits s.irq s.periodicInterrupt s.alarmInterrupt s.updateInterrupt
  cases e with
  | periodic => exact hp
  | alarm => exact ha
  | update => exact hu

/-- A read returns the flags as they are before it. -/
theorem returns_eq {e : Event} {t : Nat} (hread : r.readsC t = true) : r.returns e t = r.flag e t := by
  simp only [readsC, Rtc.readsC, Bool.and_eq_true, beq_iff_eq] at hread
  obtain ⟨⟨-, haddr⟩, hram⟩ := hread
  have hdata : (r.state (t + 1)).ioReaddata = (r.state t).registerC := by
    rw [state_succ]
    show Rtc.ioReaddataNext _ _ _ = _
    rw [Rtc.ioReaddataNext, haddr, hram]
    rfl
  rw [returns, hdata, registerC_bit]
  rfl

/-! ## The flag between reads -/

/-- A flag that is set stays until a read returns it. -/
theorem flag_stays {e : Event} {t u : Nat} (hset : r.flag e t = true) (htu : t ≤ u) (hrun : r.Running t u)
    (hread : ∀ v, t ≤ v → v < u → r.readsC v = true → r.returns e v = false) : r.flag e u = true := by
  induction u, htu using Nat.le_induction with
  | base => exact hset
  | succ u hu ih =>
    have hflag := ih (fun v h1 h2 => hrun v h1 (by omega)) fun v h1 h2 => hread v h1 (by omega)
    have hquiet : r.readsC u = false := by
      by_contra hr
      rw [Bool.not_eq_false] at hr
      have hno := hread u hu (by omega) hr
      rw [returns_eq hr, hflag] at hno
      cases hno
    rw [flag_set (hrun u hu (by omega)) hquiet, hflag, Bool.or_true]

/-- A flag that is clear stays so until its event. -/
theorem flag_rests {e : Event} {t u : Nat} (hclear : r.flag e t = false) (htu : t ≤ u)
    (htick : ∀ v, t ≤ v → v < u → r.tick e v = false) : r.flag e u = false := by
  induction u, htu using Nat.le_induction with
  | base => exact hclear
  | succ u hu ih =>
    have hflag := ih fun v h1 h2 => htick v h1 (by omega)
    rw [flag_succ, Rtc.flagNext, htick u hu (by omega), hflag]
    simp

/-- The event of a clock without a read stays in its flag. -/
theorem held (e : Event) (t u : Nat) (htick : r.tick e t = true) (hread : r.readsC t = false) (htu : t < u)
    (hrun : r.Running t u) (hno : ∀ v, t < v → v < u → r.readsC v = true → r.returns e v = false) :
    r.flag e u = true := by
  have hset : r.flag e (t + 1) = true := by
    rw [flag_set (hrun t le_rfl htu) hread, htick, Bool.true_or]
  exact flag_stays hset htu (fun v h1 h2 => hrun v (by omega) h2) fun v h1 h2 => hno v (by omega) h2

/-- No event is lost if and only if none is in the clock of a read that finds its flag clear, without another one before
the next read. -/
theorem noneLost_iff (r : RtcRun) : r.NoneLost ↔ r.ReadsApart := by
  constructor
  · intro h e t u htick hread hnext hrun
    rcases h.returned e t u htick hread hnext hrun with hnow | hlater
    · exact .inl (by rwa [returns_eq hread] at hnow)
    · right
      by_contra hnone
      push Not at hnone
      rw [returns_eq hnext.reads] at hlater
      rw [flag_rests (flag_clear hread) hnext.lt fun v h1 h2 => by simpa using hnone v (by omega) h2] at hlater
      cases hlater
  · intro h
    refine ⟨held, fun e t u htick hread hnext hrun => ?_⟩
    rcases h e t u htick hread hnext hrun with hset | ⟨v, htv, hvu, hagain⟩
    · exact .inl (by rwa [returns_eq hread])
    · right
      rw [returns_eq hnext.reads]
      refine held e v u hagain (hnext.first v htv hvu) hvu (fun w h1 h2 => hrun w (by omega) h2) fun w h1 h2 hr => ?_
      rw [hnext.first w (by omega) h2] at hr
      cases hr

/-- A guest that reads register C in the clock of an update, and again two clocks later. -/
def pollC : RtcRun where
  fpuPresent := true
  start :=
    { clkRate := 90000000, ce8192hz := true, ce8192hzSum := 0
      mgmtExtMemLsb := 0, mgmtExtMemMsb := 0x3C, mgmtEquipment := 0, mgmtChecksum := 0
      ioReadLast := false, ioReaddata := 0, irq := false, secondMajor := 0, updateInterrupt := false
      time := ⟨0, 0, 0, 1, 1, 1, 0, 0x20⟩, alarmSecond := 0, alarmMinute := 0, alarmHour := 0, alarmInterrupt := false
      crb := ⟨false, false, false, true, false, true, false⟩, divider := 2, periodicRate := 0, periodicMajor := 0
      periodicInterrupt := false, ramAddress := 0x0C, ram := fun _ => 0, rdaddr := 0x0C }
  inputs t :=
    { rstN := true, ioAddress := true, ioRead := t == 0 || t == 2, ioWrite := false, ioWritedata := 0, bootcfg := 0
      ramSize := 0, fpuOff := false, mgmtAddress := 0, mgmtWrite := false, mgmtWritedata := 0, clockRate := 90000000 }

theorem pollC_lost : ¬ pollC.NoneLost := by
  intro h
  have hnext : pollC.NextRead 0 2 := by
    refine ⟨by omega, by decide, fun v h1 h2 => ?_⟩
    obtain rfl : v = 1 := by omega
    decide
  have hreturned := h.returned .update 0 2 (by decide) (by decide) hnext fun _ _ _ => rfl
  revert hreturned
  decide

end RtcRun

end Z486.Cmos
