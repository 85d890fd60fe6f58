/-
The axes of the game port (src/soc/joystick.v). A write begins a measurement: each axis is given a count by its position, one
axis in each of the four clocks after the write, and its bit is high until that many ticks, or reads, have gone by.

A read that ends in the clock in which an axis is mapped takes the mapping back, and the axis goes on from the placeholder.
The ticks leave the four clocks free.
-/
import Mathlib.Data.Fin.VecNotation
import Mathlib.Tactic.FinCases
import Z486.Clocked.Bits
import Z486.Clocked.Reload
import Z486.Gameport.Joystick

namespace Z486.Gameport

open Clocked

structure JoystickRun where
  clockRate : Nat
  start : Joystick
  inputs : Nat → JoystickIn

namespace JoystickRun

open Joystick

variable (r : JoystickRun)

def state : Nat → Joystick := run (fun s i => Joystick.step s i r.clockRate) r.start r.inputs

theorem state_succ (t : Nat) : r.state (t + 1) = (r.state t).step (r.inputs t) r.clockRate := rfl

/-- The countdowns go on. -/
def counts (t : Nat) : Bool := (r.state t).counts (r.inputs t)

/-- What an axis is given after a write in clock `a`. -/
def given (a : Nat) (k : Fin 4) : BitVec 11 :=
  axisCount (r.inputs (a + 1 + k)).timed ((r.state (a + 1 + k)).axisPos (r.inputs (a + 1 + k)) k)

/-- The chip runs on from clock `a`, without a further write. -/
structure Goes (a b : Nat) : Prop where
  rstN : ∀ u, a ≤ u → u < b → (r.inputs u).rstN = true
  write : ∀ u, a < u → u < b → (r.inputs u).write = false

/-! ## One clock -/

variable {r} {a b t : Nat}

theorem step_eq (hrst : (r.inputs t).rstN = true) :
    (r.state (t + 1)).mapLeft = (if (r.inputs t).write then 4
        else if (r.state t).mapLeft != 0 then (r.state t).mapLeft - 1 else (r.state t).mapLeft) ∧
      (r.state (t + 1)).mapAxis = (if (r.inputs t).write then 0
        else if (r.state t).mapLeft != 0 then (r.state t).mapAxis + 1 else (r.state t).mapAxis) ∧
      (r.state (t + 1)).readLast = (r.inputs t).read ∧
      ∀ k, (r.state (t + 1)).axis k =
        if r.counts t && (r.state t).axis k != 0 then (r.state t).axis k - 1 else (r.state t).mapped (r.inputs t) k := by
  rw [state_succ]
  unfold step
  rw [hrst]
  exact ⟨rfl, rfl, rfl, fun _ => rfl⟩

/-- The axes are mapped one after the other. -/
theorem mapping (hwrite : (r.inputs a).write = true) (hgoes : r.Goes a b) {j : Nat} (hj : j ≤ 4) (hjb : a + 1 + j ≤ b) :
    (r.state (a + 1 + j)).mapLeft = BitVec.ofNat 3 (4 - j) ∧ (r.state (a + 1 + j)).mapAxis = BitVec.ofNat 2 j := by
  induction j with
  | zero =>
    obtain ⟨hleft, haxis, -, -⟩ := step_eq (hgoes.rstN a (Nat.le_refl a) (by omega))
    rw [hwrite, if_pos rfl] at hleft haxis
    exact ⟨hleft, haxis⟩
  | succ j ih =>
    obtain ⟨hleft, haxis⟩ := ih (by omega) (by omega)
    obtain ⟨hleft', haxis', -, -⟩ := step_eq (hgoes.rstN (a + 1 + j) (by omega) (by omega))
    rw [hgoes.write (a + 1 + j) (by omega) (by omega), hleft, if_neg Bool.false_ne_true] at hleft' haxis'
    rw [haxis] at haxis'
    rw [← Nat.add_assoc, hleft', haxis']
    have hcases : j = 0 ∨ j = 1 ∨ j = 2 ∨ j = 3 := by omega
    rcases hcases with rfl | rfl | rfl | rfl <;> exact ⟨rfl, rfl⟩

/-- When all are mapped, none is mapped until the next write. -/
theorem mapping_done (hwrite : (r.inputs a).write = true) (hgoes : r.Goes a b) (hat : a + 5 ≤ t) (htb : t ≤ b) :
    (r.state t).mapLeft = 0 := by
  induction t, hat using Nat.le_induction with
  | base => exact (mapping hwrite hgoes (Nat.le_refl 4) htb).1
  | succ t hat ih =>
    obtain ⟨hleft, -, -, -⟩ := step_eq (hgoes.rstN t (by omega) (by omega))
    rw [hgoes.write t (by omega) (by omega), ih (by omega)] at hleft
    exact hleft

/-- The mapping of an axis in one of the four clocks. -/
theorem mapped_eq (hwrite : (r.inputs a).write = true) (hgoes : r.Goes a b) {j : Nat} (hj : j < 4) (hjb : a + 1 + j < b)
    (k : Fin 4) :
    (r.state (a + 1 + j)).mapped (r.inputs (a + 1 + j)) k = if k.val = j then r.given a k else (r.state (a + 1 + j)).axis k := by
  obtain ⟨hleft, haxis⟩ := mapping hwrite hgoes (Nat.le_of_lt hj) (Nat.le_of_lt hjb)
  have hmaps : (r.state (a + 1 + j)).mapsAxis = ⟨j, hj⟩ := by
    refine Fin.ext ?_
    show (r.state (a + 1 + j)).mapAxis.toNat = j
    rw [haxis, BitVec.toNat_ofNat, Nat.mod_eq_of_lt hj]
  have hmore : ((r.state (a + 1 + j)).mapLeft != 0) = true := by
    rw [hleft]
    have hcases : j = 0 ∨ j = 1 ∨ j = 2 ∨ j = 3 := by omega
    rcases hcases with rfl | rfl | rfl | rfl <;> rfl
  unfold mapped
  rw [hgoes.write _ (by omega) hjb, if_neg Bool.false_ne_true, hmore, if_pos rfl, hmaps]
  split
  case isTrue heq =>
    obtain rfl : (⟨j, hj⟩ : Fin 4) = k := Fin.ext heq.symm
    exact Function.update_self _ _ _
  case isFalse hne => exact Function.update_of_ne (fun h => hne (congrArg Fin.val h)) _ _

/-- From the clock after its mapping on an axis counts down. -/
theorem axis_goes (hwrite : (r.inputs a).write = true) (hgoes : r.Goes a b) (k : Fin 4) (hat : a + 2 + k ≤ t) (htb : t < b) :
    ((r.state (t + 1)).axis k).toNat =
      if r.counts t then ((r.state t).axis k).toNat - 1 else ((r.state t).axis k).toNat := by
  obtain ⟨-, -, -, haxis⟩ := step_eq (hgoes.rstN t (by omega) htb)
  have hstays : (r.state t).mapped (r.inputs t) k = (r.state t).axis k := by
    rcases Nat.lt_or_ge t (a + 5) with hlow | hhigh
    · obtain ⟨j, rfl⟩ := Nat.exists_eq_add_of_le (show a + 1 ≤ t by omega)
      rw [mapped_eq hwrite hgoes (by omega) htb, if_neg (by omega)]
    · unfold mapped
      rw [hgoes.write t (by omega) htb, mapping_done hwrite hgoes hhigh (Nat.le_of_lt htb)]
      rfl
  rw [haxis, hstays]
  cases r.counts t with
  | false => rfl
  | true =>
    rw [Bool.true_and, if_pos rfl]
    by_cases hzero : (r.state t).axis k = 0
    · rw [hzero]
      rfl
    · have hpos : 1 ≤ ((r.state t).axis k).toNat :=
        Nat.pos_of_ne_zero fun h => hzero (BitVec.eq_of_toNat_eq h)
      rw [if_pos (bne_iff_ne.2 hzero), BitVec.toNat_sub_of_le (by rw [BitVec.le_def]; exact hpos)]
      rfl

theorem axis_given (hwrite : (r.inputs a).write = true) (hgoes : r.Goes a b) (k : Fin 4) (hab : a + 2 + k ≤ b)
    (hquiet : r.counts (a + 1 + k) = false) : (r.state (a + 2 + k)).axis k = r.given a k := by
  obtain ⟨-, -, -, haxis⟩ := step_eq (hgoes.rstN (a + 1 + k) (by omega) (by omega))
  rw [show a + 2 + k.val = a + 1 + k + 1 by omega, haxis, hquiet, mapped_eq hwrite hgoes k.isLt (by omega), if_pos rfl]
  rfl

/-! ## The ticks -/

/-- The carry and the sum of a phase accumulator. -/
theorem phaseSum_eq (phase inc : BitVec 32) :
    ((phaseSum phase inc).setWidth 32).toNat + (if (phaseSum phase inc).getLsbD 32 then 2 ^ 32 else 0) =
      phase.toNat + inc.toNat := by
  have hphase := phase.isLt
  have hinc := inc.isLt
  have hsum : (phaseSum phase inc).toNat = phase.toNat + inc.toNat := by
    unfold phaseSum
    rw [BitVec.toNat_add, BitVec.toNat_setWidth, BitVec.toNat_setWidth]
    omega
  rw [getLsbD_top, BitVec.toNat_setWidth, hsum]
  by_cases hcarry : 2 ^ 32 ≤ phase.toNat + inc.toNat
  · rw [decide_eq_true hcarry, if_pos rfl]
    omega
  · rw [decide_eq_false hcarry, if_neg Bool.false_ne_true]
    omega

def tick (r : JoystickRun) (t : Nat) : Bool := (r.state t).tick1100ns

theorem timed_step (t : Nat) :
    (r.state (t + 1)).phaseTimed = (if (r.inputs t).write then 0
        else phaseSum (r.state t).phaseTimed (timedInc r.clockRate) : BitVec 33).setWidth 32 ∧
      r.tick (t + 1) = (if (r.inputs t).write then 0
        else phaseSum (r.state t).phaseTimed (timedInc r.clockRate) : BitVec 33).getLsbD 32 := by
  unfold tick
  rw [state_succ]
  unfold step
  cases (r.inputs t).rstN <;> exact ⟨rfl, rfl⟩

/-- A write begins the ticks anew. -/
theorem ticks_sum (hwrite : (r.inputs a).write = true) (hgoes : r.Goes a b) {n : Nat} (hn : a + 1 + n ≤ b) :
    (r.state (a + 1 + n)).phaseTimed.toNat + pulses r.tick (a + 1) (a + 2 + n) * 2 ^ 32 =
      n * (timedInc r.clockRate).toNat := by
  induction n with
  | zero =>
    obtain ⟨hphase, htick⟩ := timed_step (r := r) a
    rw [hwrite, if_pos rfl] at hphase htick
    rw [Nat.add_zero, Nat.add_zero, hphase, pulses_succ _ (Nat.le_refl _), pulses_self, htick, Nat.zero_mul]
    rfl
  | succ n ih =>
    obtain ⟨hphase, htick⟩ := timed_step (r := r) (a + 1 + n)
    rw [hgoes.write (a + 1 + n) (by omega) (by omega), if_neg Bool.false_ne_true] at hphase htick
    have hsum := phaseSum_eq (r.state (a + 1 + n)).phaseTimed (timedInc r.clockRate)
    have hbefore := ih (by omega)
    rw [← hphase, ← htick] at hsum
    rw [show a + 2 + (n + 1) = a + 2 + n + 1 by omega, pulses_succ _ (by omega), Nat.succ_mul, ← hbefore, ← Nat.add_assoc,
      show a + 2 + n = a + 1 + n + 1 by omega]
    cases htick' : r.tick (a + 1 + n + 1) with
    | false =>
      rw [htick', if_neg Bool.false_ne_true] at hsum
      rw [if_neg Bool.false_ne_true]
      omega
    | true =>
      rw [htick', if_pos rfl] at hsum
      rw [if_pos rfl, Nat.add_mul, Nat.one_mul, Nat.add_left_comm, hsum, ← Nat.add_assoc,
        Nat.add_comm (pulses r.tick (a + 1) (a + 1 + n + 1) * 2 ^ 32)]

theorem ticks (hwrite : (r.inputs a).write = true) (hgoes : r.Goes a b) {n : Nat} (hn : a + 1 + n ≤ b) :
    pulses r.tick (a + 1) (a + 2 + n) = n * (timedInc r.clockRate).toNat / 2 ^ 32 := by
  have hsum := ticks_sum hwrite hgoes hn
  have hlt := (r.state (a + 1 + n)).phaseTimed.isLt
  omega

/-- The ticks come too late for the four clocks of the mapping. -/
theorem tick_mapping (hrate : (timedInc r.clockRate).toNat * 4 < 2 ^ 32) (hwrite : (r.inputs a).write = true)
    (hgoes : r.Goes a b) {n : Nat} (hn : n ≤ 3) (hb : a + 1 + n ≤ b) :
    pulses r.tick (a + 1) (a + 2 + n) = 0 := by
  rw [ticks hwrite hgoes hb]
  have hle := Nat.mul_le_mul_right (timedInc r.clockRate).toNat hn
  exact Nat.div_eq_of_lt (by omega)

/-- When everything is timed, a measurement has counted the ticks since the write. -/
theorem counts_timed (hrate : (timedInc r.clockRate).toNat * 4 < 2 ^ 32) (hwrite : (r.inputs a).write = true)
    (hgoes : r.Goes a b) (htimed : ∀ u, a < u → u < b → (r.inputs u).timed = 0) {n : Nat} (hn : n ≤ 3) (hb : a + 2 + n ≤ b) :
    pulses r.counts (a + 2 + n) b = (b - a - 2) * (timedInc r.clockRate).toNat / 2 ^ 32 := by
  have hsplit := pulses_add r.tick (show a + 1 ≤ a + 2 + n by omega) hb
  have htotal := ticks hwrite hgoes (n := b - a - 2) (by omega)
  rw [show a + 2 + (b - a - 2) = b by omega] at htotal
  rw [tick_mapping hrate hwrite hgoes hn (by omega), Nat.zero_add, htotal] at hsplit
  rw [hsplit]
  refine pulses_congr fun u hu hub => ?_
  unfold counts Joystick.counts tick
  rw [htimed u (by omega) hub]
  rfl

/-! ## What is read -/

/-- A stick is disabled. -/
def disabled (i : JoystickIn) (k : Fin 4) : Bool := i.dis.getLsbD (k.val / 2)

theorem low_bits (b7 b6 b5 b4 b3 b2 b1 b0 : Bool) (k : Fin 4) :
    (BitVec.ofBool b7 ++ BitVec.ofBool b6 ++ BitVec.ofBool b5 ++ BitVec.ofBool b4 ++ BitVec.ofBool b3 ++
      BitVec.ofBool b2 ++ BitVec.ofBool b1 ++ BitVec.ofBool b0).getLsbD k = ![b0, b1, b2, b3] k := by
  revert b7 b6 b5 b4 b3 b2 b1 b0 k
  decide

theorem readdata_axis (k : Fin 4) (t : Nat) :
    (r.state (t + 1)).readdata.getLsbD k =
      ((r.inputs t).mode == 3 || (r.state t).axis k != 0 || disabled (r.inputs t) k) := by
  have hread : (r.state (t + 1)).readdata =
      if (r.inputs t).mode == 3 then 0xff else (r.state t).pins ||| (r.inputs t).disMask := by
    rw [state_succ]
    unfold step
    cases (r.inputs t).rstN <;> rfl
  rw [hread]
  cases (r.inputs t).mode == 3 with
  | true =>
    rw [if_pos rfl, Bool.true_or, Bool.true_or]
    exact (by decide : ∀ k : Fin 4, (0xff#8).getLsbD k = true) k
  | false =>
    rw [if_neg Bool.false_ne_true, BitVec.getLsbD_or, Bool.false_or]
    unfold pins JoystickIn.disMask
    rw [low_bits, low_bits]
    fin_cases k <;> rfl

/-! ## Measurements -/

/-- The count of a position: in ticks for the IBM formula, of which 1000 stand for the whole range, or in reads. -/
def axisSteps (timed pos : Nat) : Nat :=
  match timed with
  | 0 => 22 + if pos = 255 then 1000 else 4 * pos - pos / 16 - pos / 64
  | 1 => 8 + pos / 2 + pos / 16 - 2 * (pos / 128)
  | 2 => pos
  | _ => 6 + pos

theorem axisCount_toNat (timed : BitVec 2) (pos : BitVec 8) :
    (axisCount timed pos).toNat = axisSteps timed.toNat pos.toNat := by
  revert timed pos
  decide +kernel

/-- The ticks of a position are less than two away from `22 + 1000 / 255 * pos`. -/
theorem axisSteps_near (pos : BitVec 8) :
    255 * axisSteps 0 pos.toNat < 255 * 22 + 1000 * pos.toNat + 510 ∧
      255 * 22 + 1000 * pos.toNat < 255 * axisSteps 0 pos.toNat + 510 := by
  have hpos := pos.isLt
  have hsteps : axisSteps 0 pos.toNat =
      22 + if pos.toNat = 255 then 1000 else 4 * pos.toNat - pos.toNat / 16 - pos.toNat / 64 := rfl
  rw [hsteps]
  split <;> omega

/-- The position of axis `k` when it is mapped after a write in clock `a`. -/
def position (r : JoystickRun) (a : Nat) (k : Fin 4) : BitVec 8 :=
  (r.state (a + 1 + k)).axisPos (r.inputs (a + 1 + k)) k

theorem quiet (hrate : (timedInc r.clockRate).toNat * 4 < 2 ^ 32) (hwrite : (r.inputs a).write = true)
    (hgoes : r.Goes a b) (k : Fin 4) (hab : a + 2 + k ≤ b)
    (hread : (r.inputs (a + 1 + k)).timed = 0 ∨ (r.inputs (a + k)).read = false) : r.counts (a + 1 + k) = false := by
  obtain ⟨-, -, hlast, -⟩ := step_eq (hgoes.rstN (a + k) (by omega) (by omega))
  have hnone := tick_mapping hrate hwrite hgoes (n := k) (by omega) (by omega)
  rw [show a + 2 + k.val = a + 1 + k + 1 by omega, pulses_succ _ (by omega)] at hnone
  have htick : r.tick (a + 1 + k) = false := by
    cases htick : r.tick (a + 1 + k) with
    | false => rfl
    | true =>
      rw [htick, if_pos rfl] at hnone
      omega
  unfold counts Joystick.counts
  rcases hread with htimed | hread
  · rw [htimed]
    exact htick
  · rw [show a + 1 + k.val = a + k + 1 by omega] at htick ⊢
    rw [hlast, hread]
    split
    · exact htick
    · rfl

/-- A bit of an axis is high until as many ticks, or reads, have gone by as the position says; the ticks by the clock. -/
theorem measures (k : Fin 4) (hrate : (timedInc r.clockRate).toNat * 4 < 2 ^ 32) (hwrite : (r.inputs a).write = true)
    (hgoes : r.Goes a b) (hab : a + 2 + k ≤ b)
    (hread : (r.inputs (a + 1 + k)).timed = 0 ∨ (r.inputs (a + k)).read = false) (hmode : (r.inputs b).mode ≠ 3)
    (henabled : disabled (r.inputs b) k = false) :
    (r.state (b + 1)).readdata.getLsbD k =
        decide (pulses r.counts (a + 2 + k) b <
          axisSteps (r.inputs (a + 1 + k)).timed.toNat (r.position a k).toNat) ∧
      ((∀ u, a < u → u < b → (r.inputs u).timed = 0) →
        pulses r.counts (a + 2 + k) b = (b - a - 2) * (timedInc r.clockRate).toNat / 2 ^ 32 ∧
          255 * axisSteps 0 (r.position a k).toNat < 255 * 22 + 1000 * (r.position a k).toNat + 510 ∧
          255 * 22 + 1000 * (r.position a k).toNat < 255 * axisSteps 0 (r.position a k).toNat + 510) := by
  refine ⟨?_, fun htimed => ⟨counts_timed hrate hwrite hgoes htimed (by omega) hab, axisSteps_near _⟩⟩
  have hgiven := axis_given hwrite hgoes k hab (quiet hrate hwrite hgoes k hab hread)
  have hleft : ((r.state b).axis k).toNat = ((r.state (a + 2 + k)).axis k).toNat - pulses r.counts (a + 2 + k) b :=
    @countdown_floor (fun u => ((r.state u).axis k).toNat) _ _ _ hab fun u hu hub => axis_goes hwrite hgoes k hu hub
  have hsteps : (r.given a k).toNat = axisSteps (r.inputs (a + 1 + k)).timed.toNat (r.position a k).toNat :=
    axisCount_toNat _ _
  rw [hgiven, hsteps] at hleft
  have hhigh : ((r.state b).axis k != 0) = decide (((r.state b).axis k).toNat ≠ 0) := by
    by_cases hzero : (r.state b).axis k = 0
    · rw [hzero]
      rfl
    · rw [bne_iff_ne.2 hzero]
      exact (decide_eq_true (show ((r.state b).axis k).toNat ≠ 0 from fun h => hzero (BitVec.eq_of_toNat_eq h))).symm
  rw [readdata_axis, henabled, hhigh, hleft, beq_eq_false_iff_ne.2 hmode, Bool.false_or, Bool.or_false]
  exact decide_eq_decide.2 (by omega)

/-- A measurement by reads with the first stick one step from its left: a write in clock 0, and a read in clock 4. -/
def leftStick : JoystickRun where
  clockRate := 85000000
  start := ⟨false, false, 0, false, 0, fun _ => 0, true, true, true, true, 0, false, false, true, false, 0, 0, 0, 0⟩
  inputs := fun t => ⟨true, 0, 0, 0x0081, 0, 0, 2, 0, t == 4, t == 0⟩

/-- The one read takes the bit of the axis down. -/
theorem leftStick_measures : (leftStick.state 7).readdata.getLsbD 0 = false := by
  have hlow := (@measures leftStick 0 6 0 (by decide) rfl ⟨fun _ _ _ => rfl, fun u hu _ => by
    show (u == 0) = false
    exact beq_eq_false_iff_ne.2 (by omega)⟩ (by decide) (.inr rfl) (by decide) rfl).1
  exact hlow.trans (by decide)

end JoystickRun

end Z486.Gameport
