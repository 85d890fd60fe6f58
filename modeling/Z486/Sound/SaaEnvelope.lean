/-
The envelopes of the SAA1099 (src/soc/sound/saa1099.sv). An envelope goes through ramps of sixteen levels, or of the eight
even ones, and stops at the end of the last or starts again. A pass keeps the settings with which it began; new ones are
taken at the end of a pass, and by an envelope that has stopped with its next pulse. The step alone is that of the register
in every clock, so that a pass in which it is written goes by no wave; one that begins with new data does again.

After the single attack the envelope stays at its highest level. An envelope that is switched on begins with the settings
that the register held before, and takes the new ones with the next pass.
-/
import Mathlib.Tactic.IntervalCases
import Z486.Clocked.Bits
import Z486.Sound.SaaTones

namespace Z486.Sound

open Clocked

/-! ## The purpose of an envelope -/

inductive SaaRamp
  | zero
  | maximum
  | decay
  | attack
deriving DecidableEq, Repr

/-- The level `j` steps into a ramp, of which the highest is `16 - d`. -/
def SaaRamp.level (d j : Nat) : SaaRamp → Nat
  | .zero => 0
  | .maximum => 16 - d
  | .decay => 16 - d - d * j
  | .attack => d * j

/-- The ramps of a shape; odd shapes start again after the last. -/
def saaRamps (shape : Nat) : List SaaRamp :=
  match shape with
  | 0 => [.zero]
  | 1 => [.maximum]
  | 2 => [.decay]
  | 3 => [.decay]
  | 4 => [.attack, .decay]
  | 5 => [.attack, .decay]
  | 6 => [.attack]
  | _ => [.attack]

/-- The pulses that a pass takes. -/
def saaPass (shape d : Nat) : Nat := (saaRamps shape).length * (16 / d)

/-- The level after `k` pulses: a pass that is over stays where it ended. -/
def saaWave (shape d k : Nat) : Nat :=
  let place := min k (saaPass shape d - 1)
  ((saaRamps shape).getD (place / (16 / d)) .zero).level d (place % (16 / d))

example : (List.range 12).map (saaWave 3 2) = [14, 12, 10, 8, 6, 4, 2, 0, 0, 0, 0, 0] := by decide

/-! ## One clock -/

namespace SaaAmp

/-- The levels that a step of a ramp takes. -/
def stride (envreg : BitVec 8) : Nat := 1 + (resolution envreg).toNat

/-- The steps of the pass so far. -/
def place (s : SaaAmp) (d : Nat) : Nat := s.phase.toNat * (16 / d) + s.counter.toNat / d

/-- The counter stands on a step, or at the end of the last ramp. -/
structure Aligned (s : SaaAmp) (d : Nat) : Prop where
  phase : s.phase = true → phases s.shape = true
  counter : s.counter.toNat % d = 0 ∨ s.shape.getLsbD 0 = false ∧ phases s.shape ≤ s.phase ∧ s.counter = 15

/-- The settings are taken from the register. -/
def loads (s : SaaAmp) (i : SaaAmpIn) : Bool :=
  (i.rst || !enable i.envreg) ||
    (s.pulse i && s.counter ||| mask i.envreg == 15 && decide (phases s.shape ≤ s.phase) && (s.newData || s.shape.getLsbD 0))

theorem saaPass_eq (shape : BitVec 3) (d : Nat) :
    saaPass shape.toNat d = ((phases shape).toNat + 1) * (16 / d) := by
  unfold saaPass
  congr 1
  revert shape
  decide

theorem mask_full (counter : BitVec 4) (envreg : BitVec 8) :
    (counter ||| mask envreg == 15) = decide (counter.toNat / stride envreg + 1 = 16 / stride envreg) := by
  unfold mask stride
  cases resolution envreg <;> revert counter <;> decide

theorem next_toNat (counter : BitVec 4) (envreg : BitVec 8) :
    (counter + (BitVec.ofBool (resolution envreg)).setWidth 4 + 1).toNat = (counter.toNat + stride envreg) % 16 := by
  unfold stride
  cases resolution envreg <;> revert counter <;> decide

theorem stride_cases (envreg : BitVec 8) : stride envreg = 1 ∨ stride envreg = 2 := by
  unfold stride
  cases resolution envreg
  · exact .inl rfl
  · exact .inr rfl

theorem saaPass_pos (shape : BitVec 3) (envreg : BitVec 8) : 0 < saaPass shape.toNat (stride envreg) := by
  rw [saaPass_eq]
  refine Nat.mul_pos (Nat.succ_pos _) ?_
  rcases stride_cases envreg with hd | hd <;> rw [hd] <;> decide

variable {s : SaaAmp} {i : SaaAmpIn}

/-- A pulse loads at the end of a pass, when there are new data or the shape repeats. -/
theorem loads_iff (hrst : i.rst = false) (henable : enable i.envreg = true) (hphase : s.phase = true → phases s.shape = true) :
    s.loads i = true ↔ s.pulse i = true ∧ s.place (stride i.envreg) + 1 = saaPass s.shape.toNat (stride i.envreg) ∧
      (s.newData = true ∨ s.shape.getLsbD 0 = true) := by
  have hcounter : s.counter.toNat / stride i.envreg < 16 / stride i.envreg := by
    have := s.counter.isLt
    rcases stride_cases i.envreg with hd | hd <;> rw [hd] <;> omega
  unfold loads place
  rw [hrst, henable, saaPass_eq, mask_full]
  simp only [Bool.not_true, Bool.or_false, Bool.false_or, Bool.and_eq_true, Bool.or_eq_true, decide_eq_true_eq, and_assoc]
  refine and_congr_right fun _ => ?_
  rw [← and_assoc]
  refine and_congr_left fun _ => ?_
  revert hphase hcounter
  generalize s.counter.toNat / stride i.envreg = step
  generalize 16 / stride i.envreg = steps
  cases s.phase <;> cases phases s.shape <;> simp [Bool.le_iff_imp]
  all_goals omega

/-- What a pulse that does not load does: the envelope stops, or a ramp goes over into the next, or goes on. -/
theorem step_cases (hrst : i.rst = false) (henable : enable i.envreg = true) (hno : s.loads i = false)
    (hpulse : s.pulse i = true) :
    let next := s.counter + (BitVec.ofBool (resolution i.envreg)).setWidth 4 + 1
    (s.counter.toNat / stride i.envreg + 1 = 16 / stride i.envreg ∧ phases s.shape ≤ s.phase ∧
        s.shape.getLsbD 0 = false ∧ s.step i = { s with newData := s.newData || i.wrData, counter := 15 }) ∨
      (s.counter.toNat / stride i.envreg + 1 = 16 / stride i.envreg ∧ ¬ phases s.shape ≤ s.phase ∧
        s.step i = { s with newData := s.newData || i.wrData, counter := next, phase := true }) ∨
      (s.counter.toNat / stride i.envreg + 1 ≠ 16 / stride i.envreg ∧
        s.step i = { s with newData := s.newData || i.wrData, counter := next }) := by
  have hfull := mask_full s.counter i.envreg
  unfold loads at hno
  rw [hrst, henable, hpulse, hfull] at hno
  unfold step
  rw [hrst, henable, hpulse, hfull]
  by_cases hend : s.counter.toNat / stride i.envreg + 1 = 16 / stride i.envreg
  · rw [decide_eq_true hend] at hno ⊢
    by_cases hlast : phases s.shape ≤ s.phase
    · rw [decide_eq_true hlast] at hno
      have hstops : s.newData = false ∧ s.shape.getLsbD 0 = false := by simpa using hno
      refine .inl ⟨hend, hlast, hstops.2, ?_⟩
      simp only [hlast, hstops.1, hstops.2, Bool.not_true, Bool.or_self, Bool.false_eq_true, if_true, if_false]
    · refine .inr (.inl ⟨hend, hlast, ?_⟩)
      simp [hlast]
  · refine .inr (.inr ⟨hend, ?_⟩)
    simp [hend]

/-- A pulse that does not load goes one step on, or stays at the end of the last ramp. -/
theorem pulse_step (hrst : i.rst = false) (henable : enable i.envreg = true) (hno : s.loads i = false)
    (hpulse : s.pulse i = true) (h : s.Aligned (stride i.envreg)) :
    (s.step i).Aligned (stride i.envreg) ∧ (s.step i).place (stride i.envreg) =
      min (s.place (stride i.envreg) + 1) (saaPass s.shape.toNat (stride i.envreg) - 1) := by
  have hd := stride_cases i.envreg
  have hnext := next_toNat s.counter i.envreg
  have hlt := s.counter.isLt
  obtain ⟨hphase, hcounter⟩ := h
  rw [saaPass_eq]
  unfold place
  obtain ⟨hend, hlast, hstops, hstep⟩ | ⟨hend, hmore, hstep⟩ | ⟨hgoes, hstep⟩ := step_cases hrst henable hno hpulse <;>
    rw [hstep]
  · have hsame : s.phase = phases s.shape := by
      revert hphase hlast
      cases s.phase <;> cases phases s.shape <;> simp [Bool.le_iff_imp]
    refine ⟨⟨hphase, .inr ⟨hstops, hlast, rfl⟩⟩, ?_⟩
    show s.phase.toNat * _ + 15 / _ = _
    rw [← hsame]
    rcases hd with hd | hd <;> rw [hd] at hend ⊢ <;> omega
  · have hfirst : s.phase = false ∧ phases s.shape = true := by
      revert hmore
      cases s.phase <;> cases phases s.shape <;> simp [Bool.le_iff_imp]
    have hstep0 : s.counter.toNat % stride i.envreg = 0 := hcounter.resolve_right fun h => hmore h.2.1
    have hzero : (s.counter + (BitVec.ofBool (resolution i.envreg)).setWidth 4 + 1).toNat = 0 := by
      rw [hnext]
      rcases hd with hd | hd <;> rw [hd] at hend hstep0 ⊢ <;> omega
    refine ⟨⟨fun _ => hfirst.2, .inl ?_⟩, ?_⟩
    · dsimp only
      rw [hzero, Nat.zero_mod]
    · dsimp only
      rw [hzero, hfirst.1, hfirst.2, Nat.zero_div]
      rcases hd with hd | hd <;> rw [hd] at hend ⊢ <;> simp <;> omega
  · have hstep0 : s.counter.toNat % stride i.envreg = 0 := by
      refine hcounter.resolve_right fun h => hgoes ?_
      rw [h.2.2]
      rcases hd with hd | hd <;> rw [hd] <;> rfl
    have hplus : (s.counter + (BitVec.ofBool (resolution i.envreg)).setWidth 4 + 1).toNat =
        s.counter.toNat + stride i.envreg := by
      rw [hnext]
      rcases hd with hd | hd <;> rw [hd] at hgoes hstep0 ⊢ <;> omega
    have hwithin : s.phase.toNat ≤ (phases s.shape).toNat := by
      revert hphase
      cases s.phase <;> cases phases s.shape <;> simp
    refine ⟨⟨hphase, .inl ?_⟩, ?_⟩
    · dsimp only
      rw [hplus, Nat.add_mod_right, hstep0]
    · dsimp only
      rw [hplus]
      rcases hd with hd | hd <;> rw [hd] at hgoes hstep0 ⊢ <;> omega

theorem rest_step (hrst : i.rst = false) (henable : enable i.envreg = true) (hpulse : s.pulse i = false) :
    s.step i = { s with newData := s.newData || i.wrData } := by
  unfold step
  rw [hrst, henable, hpulse]
  rfl

/-- Settings stay until they are taken again, and new data are remembered. -/
theorem step_keeps (hrst : i.rst = false) (henable : enable i.envreg = true) (hno : s.loads i = false) :
    (s.step i).shape = s.shape ∧ (s.step i).stereo = s.stereo ∧ (s.step i).clock = s.clock ∧
      (s.step i).newData = (s.newData || i.wrData) := by
  cases hpulse : s.pulse i with
  | true =>
    obtain ⟨-, -, -, hstep⟩ | ⟨-, -, hstep⟩ | ⟨-, hstep⟩ := step_cases hrst henable hno hpulse <;> rw [hstep] <;>
      exact ⟨rfl, rfl, rfl, rfl⟩
  | false =>
    rw [rest_step hrst henable hpulse]
    exact ⟨rfl, rfl, rfl, rfl⟩

/-- New data are taken with the counter at zero, wherever it stood. -/
theorem loads_new (h : s.loads i = true) (hnew : s.newData = true) : s.step i = loaded i.envreg 0 := by
  unfold loads at h
  unfold step
  cases hoff : i.rst || !enable i.envreg with
  | true => rfl
  | false =>
    rw [hoff] at h
    simp only [Bool.false_or, Bool.and_eq_true, decide_eq_true_eq] at h
    obtain ⟨⟨⟨hpulse, hend⟩, hlast⟩, -⟩ := h
    rw [hpulse, hend]
    simp only [Bool.false_eq_true, if_true, if_false, hlast, hnew, Bool.true_or]

/-- A shape that starts again does so with the counter back at zero. -/
theorem loads_step (h : s.loads i = true)
    (haligned : i.rst = false → enable i.envreg = true → s.Aligned (stride i.envreg)) :
    s.step i = loaded i.envreg 0 := by
  cases hnew : s.newData with
  | true => exact loads_new h hnew
  | false =>
    cases hoff : i.rst || !enable i.envreg with
    | true =>
      unfold step
      rw [hoff]
      rfl
    | false =>
      obtain ⟨hrst, henable⟩ : i.rst = false ∧ enable i.envreg = true := by simpa using hoff
      have hcounter := (haligned hrst henable).counter
      have hnext := next_toNat s.counter i.envreg
      have hfull := mask_full s.counter i.envreg
      have hlt := s.counter.isLt
      unfold loads at h
      rw [hoff, hfull, hnew] at h
      simp only [Bool.false_or, Bool.and_eq_true, decide_eq_true_eq] at h
      obtain ⟨⟨⟨hpulse, hend⟩, hlast⟩, hrepeats⟩ := h
      have hstep0 : s.counter.toNat % stride i.envreg = 0 :=
        hcounter.resolve_right fun h => by rw [hrepeats] at h; exact Bool.true_eq_false_eq_False h.1
      have hzero : s.counter + (BitVec.ofBool (resolution i.envreg)).setWidth 4 + 1 = 0 := by
        refine BitVec.eq_of_toNat_eq ?_
        rw [hnext]
        rcases stride_cases i.envreg with hd | hd <;> rw [hd] at hend hstep0 ⊢ <;> simp <;> omega
      unfold step
      rw [hoff, hpulse, hfull, decide_eq_true hend]
      simp only [Bool.false_eq_true, if_true, if_false, hlast]
      rw [hnew, hrepeats, hzero]
      rfl

theorem aligned_loaded (envreg : BitVec 8) (d : Nat) : (loaded envreg 0).Aligned d :=
  ⟨fun h => absurd h Bool.false_ne_true, .inl (Nat.zero_mod d)⟩

/-! ## The level -/

theorem levels_eq (shape : BitVec 3) (phase : Bool) (counter : BitVec 4) (fine : Bool)
    (h : phase = true → phases shape = true) :
    (levels (env shape phase) counter &&& ~~~((BitVec.ofBool fine).setWidth 4)).toNat =
      ((saaRamps shape.toNat).getD phase.toNat .zero).level (1 + fine.toNat) (counter.toNat / (1 + fine.toNat)) := by
  revert shape phase counter fine
  decide +kernel

/-- The other side of a stereo envelope is as much below the highest level as the first is above silence. -/
theorem inverted (x : BitVec 4) (fine : Bool) :
    ((15 &&& ~~~((BitVec.ofBool fine).setWidth 4)) - (x &&& ~~~((BitVec.ofBool fine).setWidth 4))).toNat =
      16 - (1 + fine.toNat) - (x &&& ~~~((BitVec.ofBool fine).setWidth 4)).toNat := by
  revert x fine
  decide

theorem envL_toNat (envreg : BitVec 8) (h : s.phase = true → phases s.shape = true) {k : Nat}
    (hplace : s.place (stride envreg) = min k (saaPass s.shape.toNat (stride envreg) - 1)) :
    (s.envL envreg).toNat = saaWave s.shape.toNat (stride envreg) k := by
  have hcounter : s.counter.toNat / stride envreg < 16 / stride envreg := by
    have := s.counter.isLt
    rcases stride_cases envreg with hd | hd <;> rw [hd] <;> omega
  have hsteps : 0 < 16 / stride envreg := Nat.zero_lt_of_lt hcounter
  unfold saaWave
  dsimp only
  rw [← hplace]
  unfold place
  rw [Nat.mul_comm, Nat.mul_add_div hsteps, Nat.mul_add_mod, Nat.div_eq_of_lt hcounter, Nat.mod_eq_of_lt hcounter, Nat.add_zero]
  exact levels_eq _ _ _ _ h

end SaaAmp

/-! ## Runs -/

structure SaaAmpRun where
  start : SaaAmp
  inputs : Nat → SaaAmpIn

namespace SaaAmpRun

open SaaAmp

variable (r : SaaAmpRun)

def state : Nat → SaaAmp := run SaaAmp.step r.start r.inputs

theorem state_succ (t : Nat) : r.state (t + 1) = (r.state t).step (r.inputs t) := rfl

/-- The settings are taken in clock `t`. -/
def loads (t : Nat) : Bool := (r.state t).loads (r.inputs t)

/-- The envelope is off, or the chip is in reset. -/
def off (t : Nat) : Bool := (r.inputs t).rst || !enable (r.inputs t).envreg

def stride (t : Nat) : Nat := SaaAmp.stride (r.inputs t).envreg

def shape (a : Nat) : Nat := ((r.inputs a).envreg.extractLsb' 1 3).toNat

/-- The pulses of the clock that was chosen in clock `a`. -/
def pulse (a t : Nat) : Bool := if (r.inputs a).envreg.getLsbD 5 then (r.inputs t).wrAddr else (r.inputs t).pulseEnvelope

/-- A pass begins in clock `t` with what the register holds: the envelope is off, or it takes new data. -/
def begins (t : Nat) : Bool := r.off t || (r.loads t && (r.state t).newData)

theorem loads_of_off {t : Nat} (h : r.off t = true) : r.loads t = true := by
  unfold off at h
  unfold loads SaaAmp.loads
  rw [h, Bool.true_or]

theorem on_of_off {t : Nat} (h : r.off t = false) : (r.inputs t).rst = false ∧ enable (r.inputs t).envreg = true := by
  unfold off at h
  simpa using h

theorem loaded_of_begins {t : Nat} (h : r.begins t = true) : r.state (t + 1) = loaded (r.inputs t).envreg 0 := by
  unfold begins at h
  rw [Bool.or_eq_true, Bool.and_eq_true] at h
  obtain hoff | ⟨hloads, hnew⟩ := h
  · unfold off at hoff
    rw [state_succ, SaaAmp.step, hoff, if_pos rfl]
  · exact loads_new hloads hnew

/-- An envelope keeps to its steps when the step has been the same since a pass began. -/
theorem aligned {a₀ b t : Nat} (hbegins : r.begins a₀ = true)
    (hstride : ∀ u, a₀ < u → u ≤ b → r.stride u = r.stride b) (ht : a₀ < t) (htb : t ≤ b) :
    (r.state t).Aligned (r.stride b) := by
  induction t, ht using Nat.le_induction with
  | base =>
    rw [r.loaded_of_begins hbegins]
    exact aligned_loaded _ _
  | succ t ht ih =>
    have hsame : r.stride t = r.stride b := hstride t ht (Nat.le_of_succ_le htb)
    have hlast := ih (Nat.le_of_succ_le htb)
    rw [← hsame] at hlast ⊢
    rw [state_succ]
    cases hloads : r.loads t with
    | true =>
      rw [loads_step hloads fun _ _ => hlast]
      exact aligned_loaded _ _
    | false =>
      have hon : r.off t = false := by
        by_contra hne
        rw [r.loads_of_off (Bool.not_eq_false _ ▸ hne)] at hloads
        exact Bool.false_ne_true hloads.symm
      obtain ⟨hrst, henable⟩ := r.on_of_off hon
      cases hpulse : (r.state t).pulse (r.inputs t) with
      | true => exact (pulse_step hrst henable hloads hpulse hlast).1
      | false =>
        rw [rest_step hrst henable hpulse]
        exact ⟨hlast.phase, hlast.counter⟩

/-- Where an envelope stands in clock `t`, when its settings were taken in clock `a`. -/
structure Stands (a t d : Nat) : Prop where
  shape : (r.state t).shape = (r.inputs a).envreg.extractLsb' 1 3
  stereo : (r.state t).stereo = (r.inputs a).envreg.getLsbD 0
  clock : (r.state t).clock = (r.inputs a).envreg.getLsbD 5
  newData : (r.state t).newData = true ↔ ∃ u, a < u ∧ u < t ∧ (r.inputs u).wrData = true
  place : (r.state t).place d = min (pulses (r.pulse a) (a + 1) t) (saaPass (r.shape a) d - 1)

theorem off_of_loads {t : Nat} (h : r.loads t = false) : r.off t = false := by
  cases hoff : r.off t with
  | false => rfl
  | true => rw [← r.loads_of_off hoff, h]

theorem stands {a₀ a b t : Nat} (hbegins : r.begins a₀ = true) (ha : a₀ ≤ a)
    (hstride : ∀ u, a₀ < u → u ≤ b → r.stride u = r.stride b) (hloads : r.loads a = true)
    (hno : ∀ u, a < u → u < b → r.loads u = false) (hat : a < t) (htb : t ≤ b) : r.Stands a t (r.stride b) := by
  induction t, hat using Nat.le_induction with
  | base =>
    have hload : r.state (a + 1) = loaded (r.inputs a).envreg 0 := by
      rcases Nat.eq_or_lt_of_le ha with rfl | hlt
      · exact r.loaded_of_begins hbegins
      · have haligned := r.aligned hbegins hstride hlt (Nat.le_of_succ_le htb)
        rw [← hstride a hlt (Nat.le_of_succ_le htb)] at haligned
        exact loads_step hloads fun _ _ => haligned
    refine ⟨?_, ?_, ?_, ?_, ?_⟩
    · rw [hload]; rfl
    · rw [hload]; rfl
    · rw [hload]; rfl
    · rw [hload]
      exact iff_of_false Bool.false_ne_true fun ⟨u, hau, hut, _⟩ => by omega
    · rw [hload, pulses_self, Nat.zero_min]
      show 0 * _ + 0 / _ = 0
      rw [Nat.zero_mul, Nat.zero_div]
  | succ t hat ih =>
    have hle : a + 1 ≤ t := hat
    have hlast := ih (Nat.le_of_succ_le htb)
    have hsame : r.stride t = r.stride b := hstride t (Nat.lt_of_le_of_lt ha hat) (Nat.le_of_succ_le htb)
    have hloads' := hno t hat htb
    have haligned := r.aligned hbegins hstride (Nat.lt_of_le_of_lt ha hat) (Nat.le_of_succ_le htb)
    obtain ⟨hrst, henable⟩ := r.on_of_off (r.off_of_loads hloads')
    have hpulse : (r.state t).pulse (r.inputs t) = r.pulse a t := by
      unfold SaaAmp.pulse pulse
      rw [hlast.clock]
    obtain ⟨hshape, hstereo, hclock, hnew⟩ := step_keeps hrst henable hloads'
    refine ⟨hshape.trans hlast.shape, hstereo.trans hlast.stereo, hclock.trans hlast.clock, ?_, ?_⟩
    · rw [state_succ, hnew, Bool.or_eq_true, hlast.newData]
      constructor
      · rintro (⟨u, hau, hut, hu⟩ | ht)
        · exact ⟨u, hau, Nat.lt_succ_of_lt hut, hu⟩
        · exact ⟨t, hat, Nat.lt_succ_self t, ht⟩
      · rintro ⟨u, hau, hut, hu⟩
        rcases Nat.lt_succ_iff_lt_or_eq.1 hut with hlt | rfl
        · exact .inl ⟨u, hau, hlt, hu⟩
        · exact .inr hu
    · rw [pulses_succ _ hle, state_succ, ← hsame]
      rw [← hsame] at haligned hlast
      cases hp : r.pulse a t with
      | true =>
        obtain ⟨-, hgoes⟩ := pulse_step hrst henable hloads' (hpulse.trans hp) haligned
        have hpass : saaPass (r.state t).shape.toNat (SaaAmp.stride (r.inputs t).envreg) = saaPass (r.shape a) (r.stride t) := by
          rw [hlast.shape]
          rfl
        have hplace : (r.state t).place (SaaAmp.stride (r.inputs t).envreg) = _ := hlast.place
        rw [hpass, hplace] at hgoes
        rw [if_pos rfl]
        exact hgoes.trans (by omega)
      | false =>
        rw [rest_step hrst henable (hpulse.trans hp), if_neg Bool.false_ne_true]
        exact hlast.place

/-- An envelope from the clock in which its settings were taken: the level is that of the wave of its shape after the pulses
since, on the right upside down in stereo, and the settings are taken again with the pulse that ends a pass, when the shape
starts again or new data have come. -/
theorem wave {a₀ a b : Nat} (hbegins : r.begins a₀ = true) (ha : a₀ ≤ a) (hab : a < b)
    (hstride : ∀ u, a₀ < u → u ≤ b → r.stride u = r.stride b) (hloads : r.loads a = true)
    (hno : ∀ u, a < u → u < b → r.loads u = false) :
    ((r.state b).envL (r.inputs b).envreg).toNat =
        saaWave (r.shape a) (r.stride b) (pulses (r.pulse a) (a + 1) b) ∧
      ((r.state b).envR (r.inputs b).envreg).toNat =
        (if (r.inputs a).envreg.getLsbD 0 then
          16 - r.stride b - saaWave (r.shape a) (r.stride b) (pulses (r.pulse a) (a + 1) b)
        else saaWave (r.shape a) (r.stride b) (pulses (r.pulse a) (a + 1) b)) ∧
      (r.loads b = true ↔ r.off b = true ∨ r.pulse a b = true ∧
        saaPass (r.shape a) (r.stride b) ≤ pulses (r.pulse a) (a + 1) b + 1 ∧
        ((∃ u, a < u ∧ u < b ∧ (r.inputs u).wrData = true) ∨ r.shape a % 2 = 1)) := by
  have hstands := r.stands hbegins ha hstride hloads hno hab (Nat.le_refl b)
  have haligned := r.aligned hbegins hstride (Nat.lt_of_le_of_lt ha hab) (Nat.le_refl b)
  have hshape : (r.state b).shape.toNat = r.shape a := by
    rw [hstands.shape]
    rfl
  have hlevel : ((r.state b).envL (r.inputs b).envreg).toNat =
      saaWave (r.shape a) (r.stride b) (pulses (r.pulse a) (a + 1) b) := by
    rw [← hshape]
    refine envL_toNat _ haligned.phase ?_
    rw [hshape]
    exact hstands.place
  refine ⟨hlevel, ?_, ?_⟩
  · rw [← hlevel]
    unfold envR
    rw [hstands.stereo]
    split
    · exact inverted _ _
    · rfl
  · cases hon : r.off b with
    | true => exact iff_of_true (r.loads_of_off hon) (.inl rfl)
    | false =>
      obtain ⟨hrst, henable⟩ := r.on_of_off hon
      have hplace := hstands.place
      have hpulse : (r.state b).pulse (r.inputs b) = r.pulse a b := by
        unfold SaaAmp.pulse pulse
        rw [hstands.clock]
      unfold loads
      rw [loads_iff hrst henable haligned.phase, hpulse, hstands.newData, hshape, getLsbD_zero_eq, hshape,
        decide_eq_true_eq]
      simp only [Bool.false_eq_true, false_or]
      refine and_congr Iff.rfl (and_congr ?_ Iff.rfl)
      have hpass : 0 < saaPass (r.shape a) (r.stride b) := saaPass_pos _ _
      change (r.state b).place (r.stride b) + 1 = saaPass (r.shape a) (r.stride b) ↔ _
      omega

end SaaAmpRun

/-! ## The envelopes of the chip -/

namespace SaaRun

variable (r : SaaRun)

/-- The envelope of a triplet. -/
def envelope (lower : Bool) : SaaAmpRun where
  start := (r.triplet lower 0).amp (Fin.last 2)
  inputs := fun t => (r.triplet lower t).ampIn (r.tripletIn lower t) (Fin.last 2)

theorem envelope_state (lower : Bool) (t : Nat) : (r.envelope lower).state t = (r.triplet lower t).amp 2 := by
  induction t with
  | zero => rfl
  | succ t ih =>
    rw [triplet_succ, SaaAmpRun.state_succ, ih]
    rfl

/-- The third channel of a triplet follows the wave of its envelope register, whenever that was written: a pass keeps the
settings with which it began, and the step has been held since one began with what the register held. -/
theorem envelopes (lower : Bool) {a₀ a b : Nat} (hbegins : (r.envelope lower).begins a₀ = true) (ha : a₀ ≤ a)
    (hab : a < b) (hstride : ∀ u, a₀ < u → u ≤ b → (r.envelope lower).stride u = (r.envelope lower).stride b)
    (hloads : (r.envelope lower).loads a = true) (hno : ∀ u, a < u → u < b → (r.envelope lower).loads u = false) :
    let e := r.envelope lower
    let level := saaWave (e.shape a) (e.stride b) (pulses (e.pulse a) (a + 1) b)
    (((r.triplet lower b).amp 2).envL (r.tripletIn lower b).env).toNat = level ∧
      (((r.triplet lower b).amp 2).envR (r.tripletIn lower b).env).toNat =
        (if (e.inputs a).envreg.getLsbD 0 then 16 - e.stride b - level else level) ∧
      (e.loads b = true ↔ e.off b = true ∨ e.pulse a b = true ∧
        saaPass (e.shape a) (e.stride b) ≤ pulses (e.pulse a) (a + 1) b + 1 ∧
        ((∃ u, a < u ∧ u < b ∧ (e.inputs u).wrData = true) ∨ e.shape a % 2 = 1)) := by
  have hwave := (r.envelope lower).wave hbegins ha hab hstride hloads hno
  rw [envelope_state] at hwave
  exact hwave

/-- The envelope is switched on in clock 0, and a pulse of the second tone comes in clock 1. -/
def attack : SaaRun where
  start :=
    { regs := { SaaRegs.reset with envelope0 := 0x0E }, addr := 0x18, oldWr := true, wr := false
      top := ⟨fun _ => ⟨0, false, false⟩, ⟨0, 0⟩, fun _ => ⟨0, false, 0, false, false, false⟩, 0, 0⟩
      bottom := ⟨fun _ => ⟨0, false, false⟩, ⟨0, 0⟩, fun _ => ⟨0, false, 0, false, false, false⟩, 0, 0⟩
      outmixL := ⟨false, 0⟩, outmixR := ⟨false, 0⟩ }
  inputs := fun t => ⟨t == 0, true, t != 0, false, t != 0, 0x8E⟩

/-- The first step of an attack. -/
theorem attack_envelopes : (((attack.triplet false 2).amp 2).envL (attack.tripletIn false 2).env).toNat = 1 := by
  have hstep := (@envelopes attack false 0 0 2 (by decide) (by decide) (by decide)
    (fun u _ hu => by interval_cases u <;> decide) (by decide) (fun u _ hu => by interval_cases u; decide)).1
  rw [hstep]
  decide

end SaaRun

end Z486.Sound
