/-
The clock of the GF1 (src/soc/sound/gus/gus.sv). A phase accumulator says when a transition of the chip's clock is due;
what is due while the chip waits for its memory is owed and delivered afterwards, at most every other system clock.
-/
import Z486.Clocked.Accumulator

namespace Z486.Gus

open Clocked

/-! ## Registers -/

/-- `TICK2`: two transitions for each cycle of 9,878,400 Hz. -/
def tick2 : BitVec 28 := 19756800

structure ChipClock where
  acc : BitVec 28
  owed : BitVec 8
  gf1Clk2 : Bool
  spaced : Bool

namespace ChipClock

variable (clkRate : Nat) (s : ChipClock) (stall : Bool)

def accSum : BitVec 29 := s.acc.setWidth 29 + tick2.setWidth 29

def tick : Bool := decide (clkRate ≤ s.accSum.toNat)

def deliver : Bool := s.owed != 0 && !stall && !s.spaced

def step : ChipClock where
  acc := if s.tick clkRate then s.accSum.setWidth 28 - BitVec.ofNat 28 clkRate else s.accSum.setWidth 28
  owed :=
    match s.tick clkRate, s.deliver stall with
    | true, false => if s.owed == BitVec.allOnes 8 then s.owed else s.owed + 1
    | false, true => s.owed - 1
    | _, _ => s.owed
  gf1Clk2 := if s.deliver stall then !s.gf1Clk2 else s.gf1Clk2
  spaced := s.deliver stall

/-- The registers as they are when the clock begins. -/
def initial : ChipClock := ⟨0, 0, false, false⟩

/-! ## One clock -/

variable {clkRate s stall}

theorem accSum_toNat : s.accSum.toNat = s.acc.toNat + 19756800 := by
  have hacc := s.acc.isLt
  unfold accSum
  rw [BitVec.toNat_add, BitVec.toNat_setWidth]
  show (s.acc.toNat % 2 ^ 29 + 19756800) % 2 ^ 29 = _
  omega

theorem tick_eq : s.tick clkRate = decide (Accumulator.Ticks 19756800 clkRate s.acc.toNat) := by
  unfold tick Accumulator.Ticks
  rw [accSum_toNat]
  rfl

/-- The accumulator does not leave its 28 bits. -/
theorem step_acc (hhigh : clkRate < 2 ^ 28) (hacc : s.acc.toNat < clkRate) :
    (s.step clkRate stall).acc.toNat = Accumulator.next 19756800 clkRate s.acc.toNat := by
  show (if s.tick clkRate then _ else _ : BitVec 28).toNat = _
  rw [tick_eq, Accumulator.next]
  by_cases htick : Accumulator.Ticks 19756800 clkRate s.acc.toNat
  · rw [if_pos (decide_eq_true htick), if_pos htick, BitVec.toNat_sub, BitVec.toNat_setWidth, accSum_toNat,
      BitVec.toNat_ofNat]
    unfold Accumulator.Ticks at htick
    omega
  · rw [if_neg (by simpa using htick), if_neg htick, BitVec.toNat_setWidth, accSum_toNat]
    unfold Accumulator.Ticks at htick
    omega

/-- What was owed and what is due is owed or delivered, unless the debt is full. -/
theorem step_owed (hroom : s.owed ≠ BitVec.allOnes 8) :
    (s.step clkRate stall).owed.toNat + (if s.deliver stall = true then 1 else 0) =
      s.owed.toNat + (if s.tick clkRate = true then 1 else 0) := by
  have hlt := s.owed.isLt
  have hmax : s.owed.toNat ≠ 255 := fun h => hroom (BitVec.eq_of_toNat_eq h)
  show (match s.tick clkRate, s.deliver stall with
    | true, false => if s.owed == BitVec.allOnes 8 then s.owed else s.owed + 1
    | false, true => s.owed - 1
    | _, _ => s.owed).toNat + _ = _
  cases htick : s.tick clkRate with
  | true =>
    cases hdeliver : s.deliver stall with
    | true => rfl
    | false =>
      rw [beq_false_of_ne hroom]
      show (s.owed + 1).toNat + 0 = s.owed.toNat + 1
      rw [BitVec.toNat_add]
      show (s.owed.toNat + 1) % 2 ^ 8 + 0 = _
      omega
  | false =>
    cases hdeliver : s.deliver stall with
    | true =>
      have hpos : s.owed.toNat ≠ 0 := by
        intro hzero
        rw [deliver, BitVec.eq_of_toNat_eq (y := 0#8) hzero] at hdeliver
        exact absurd hdeliver (by simp)
      show (s.owed - 1).toNat + 1 = s.owed.toNat + 0
      rw [BitVec.toNat_sub]
      show (2 ^ 8 - 1 + s.owed.toNat) % 2 ^ 8 + 1 = _
      omega
    | false => rfl

/-! ## Runs -/

section Run

variable (clkRate : Nat) (stall : Nat → Bool)

/-- The registers in clock `t`, with a stall in the clocks that `stall` says. -/
def state (t : Nat) : ChipClock := run (ChipClock.step clkRate) initial stall t

def due (t : Nat) : Bool := (state clkRate stall t).tick clkRate

/-- The chip's clock changes at the end of clock `t`. -/
def transition (t : Nat) : Bool := (state clkRate stall (t + 1)).gf1Clk2 != (state clkRate stall t).gf1Clk2

variable {clkRate stall}

theorem state_succ (t : Nat) : state clkRate stall (t + 1) = (state clkRate stall t).step clkRate (stall t) := rfl

theorem transition_eq (t : Nat) : transition clkRate stall t = (state clkRate stall t).deliver (stall t) := by
  unfold transition
  rw [state_succ]
  show ((if (state clkRate stall t).deliver (stall t) then _ else _) != _) = _
  cases (state clkRate stall t).deliver (stall t)
  · exact bne_self_eq_false _
  · cases (state clkRate stall t).gf1Clk2 <;> rfl

theorem acc_lt (hlow : 19756800 ≤ clkRate) (hhigh : clkRate < 2 ^ 28) :
    ∀ t, (state clkRate stall t).acc.toNat < clkRate
  | 0 => by
    show 0 < clkRate
    omega
  | t + 1 => by
    rw [state_succ, step_acc hhigh (acc_lt hlow hhigh t)]
    exact Accumulator.next_lt (acc_lt hlow hhigh t) hlow

/-- The accumulator overflows as often as the rates say. -/
theorem pulses_due (hlow : 19756800 ≤ clkRate) (hhigh : clkRate < 2 ^ 28) (n : Nat) :
    pulses (due clkRate stall) 0 n = n * 19756800 / clkRate := by
  have hdue : due clkRate stall =
      fun t => decide (Accumulator.Ticks 19756800 clkRate (state clkRate stall t).acc.toNat) :=
    funext fun _ => tick_eq
  rw [hdue]
  exact Accumulator.pulses_ticks (f := fun t => (state clkRate stall t).acc.toNat) rfl
    (fun t => step_acc hhigh (acc_lt hlow hhigh t)) hlow (by omega) n

/-- Until the debt is full, what was due is delivered or owed. -/
theorem conserved (n : Nat) (hroom : ∀ t, t < n → (state clkRate stall t).owed ≠ BitVec.allOnes 8) :
    pulses (transition clkRate stall) 0 n + (state clkRate stall n).owed.toNat = pulses (due clkRate stall) 0 n := by
  induction n with
  | zero => rfl
  | succ n ih =>
    have hstep := @step_owed clkRate _ (stall n) (hroom n (Nat.lt_succ_self n))
    rw [← state_succ, ← transition_eq] at hstep
    rw [pulses_succ _ (Nat.zero_le n), pulses_succ _ (Nat.zero_le n), ← ih fun t ht => hroom t (by omega)]
    show _ = _ + if (state clkRate stall n).tick clkRate = true then 1 else 0
    omega

end Run

/-- A clock that keeps time. The overflows of the accumulator are the exact number; what of them is not delivered is owed,
until the debt is full; and the transitions keep out of stalls and two clocks apart. -/
structure KeepsTime (clkRate : Nat) (stall : Nat → Bool) : Prop where
  overflows : ∀ n, pulses (due clkRate stall) 0 n = n * 19756800 / clkRate
  delivered : ∀ n, (∀ t, t < n → (state clkRate stall t).owed ≠ BitVec.allOnes 8) →
    pulses (transition clkRate stall) 0 n + (state clkRate stall n).owed.toNat = n * 19756800 / clkRate
  waits : ∀ t, transition clkRate stall t = true → stall t = false
  apart : ∀ t, transition clkRate stall t = true → transition clkRate stall (t + 1) = false

theorem keepsTime {clkRate : Nat} (hlow : 19756800 ≤ clkRate) (hhigh : clkRate < 2 ^ 28) (stall : Nat → Bool) :
    KeepsTime clkRate stall where
  overflows := pulses_due hlow hhigh
  delivered n hroom := (conserved n hroom).trans (pulses_due hlow hhigh n)
  waits := by
    intro t htransition
    rw [transition_eq, deliver, Bool.and_eq_true, Bool.and_eq_true, Bool.not_eq_true'] at htransition
    exact htransition.1.2
  apart := by
    intro t htransition
    have hspaced : (state clkRate stall (t + 1)).spaced = true := (transition_eq t).symm.trans htransition
    rw [transition_eq, deliver, hspaced, Bool.not_true, Bool.and_false]

/-- The rate of the system clock. -/
theorem keepsTime_85MHz : KeepsTime 85000000 fun _ => false :=
  keepsTime (by decide) (by decide) _

end ChipClock

end Z486.Gus
