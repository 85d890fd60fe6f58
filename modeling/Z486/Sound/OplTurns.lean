/-
The turns of the operators of the OPL3: a sample every 494 clocks, and in it the 36 operators one after the other, two
clocks apart, from the clock after its pulse on.
-/
import Z486.Sound.OplOperators

namespace Z486.Sound

open Clocked Opl

/-! ## Where the turns are -/

/-- The operator of turn `n`, of 36 in each sample. -/
def oplSlot (n : Nat) : OplSlot :=
  ⟨decide (18 ≤ n % 36), if n % 36 < 18 then BitVec.ofNat 5 (n % 36) else BitVec.ofNat 5 (n % 36 - 18)⟩

/-- The clock in which turn `n` begins. -/
def oplTurn (n : Nat) : Nat := 494 * (n / 36 + 1) + 1 + 2 * (n % 36)

/-- The turns that have begun before a clock. -/
def oplTurns (t : Nat) : Nat := if t < 494 then 0 else 36 * (t / 494 - 1) + min (t % 494 / 2) 36

/-- The counter of the turns in a clock. -/
def oplState (t : Nat) : Nat := if 494 ≤ t ∧ 1 ≤ t % 494 ∧ t % 494 ≤ 72 then (t % 494 + 1) / 2 else 0

theorem oplTurn_strict {m n : Nat} (h : m < n) : oplTurn m < oplTurn n := by
  unfold oplTurn
  omega

/-- An operator has its turn once a sample. -/
theorem oplSlot_inj {m n : Nat} (h : oplSlot m = oplSlot n) : m % 36 = n % 36 := by
  have hop := congrArg (fun x => x.op.toNat) h
  have hbank := congrArg OplSlot.bank h
  simp only [oplSlot, decide_eq_decide] at hop hbank
  split at hop <;> split at hop <;> rw [BitVec.toNat_ofNat, BitVec.toNat_ofNat] at hop <;> omega

theorem oplTurn_apart {m n : Nat} (h : oplSlot m = oplSlot n) (hlt : m < n) : oplTurn m + 494 ≤ oplTurn n := by
  have hmod := oplSlot_inj h
  unfold oplTurn
  omega

namespace OplSequencer

/-! ## The counters -/

def powerUp : OplSequencer := ⟨0, false, 0, 0⟩

/-- The counters in clock `t`. -/
structure At (s : OplSequencer) (t : Nat) : Prop where
  counter : s.counter.toNat = t % 494
  clkEn : s.clkEn = decide (494 ≤ t ∧ t % 494 = 0)
  state : s.state.toNat = oplState t
  delay_le : s.delayCounter.toNat ≤ 1
  delay : 0 < oplState t → s.delayCounter.toNat = (t % 494 + 1) % 2

variable {s : OplSequencer} {t : Nat}

theorem oplState_le : oplState t ≤ 36 := by
  unfold oplState
  split <;> omega

theorem At.state_eq_iff (h : s.At t) {k : Nat} (hk : k ≤ 36) : s.state = BitVec.ofNat 6 k ↔ oplState t = k := by
  rw [← BitVec.toNat_inj, h.state, BitVec.toNat_ofNat, Nat.mod_eq_of_lt (by omega)]

theorem oplState_first (h : 494 ≤ t ∧ t % 494 = 0) : oplState t = 0 ∧ oplState (t + 1) = 1 := by
  unfold oplState
  constructor <;> split <;> omega

theorem oplState_rests (h : ¬(494 ≤ t ∧ t % 494 = 0)) (hzero : oplState t = 0) : oplState (t + 1) = 0 := by
  unfold oplState at *
  split at hzero <;> split <;> omega

theorem oplState_succ (hpos : 0 < oplState t) :
    oplState (t + 1) = if (t % 494 + 1) % 2 = 1 then if oplState t = 36 then 0 else oplState t + 1 else oplState t := by
  unfold oplState at *
  split at hpos
  case isFalse => exact absurd hpos (Nat.lt_irrefl 0)
  case isTrue hactive =>
    rw [if_pos hactive]
    split <;> split <;> (try split) <;> omega

theorem At.delay_eq_one (h : s.At t) (hpos : 0 < oplState t) : s.delayCounter = 1 ↔ (t % 494 + 1) % 2 = 1 := by
  rw [← h.delay hpos, ← BitVec.toNat_inj]
  rfl

theorem At.nextState (h : s.At t) : s.nextState.toNat = oplState (t + 1) := by
  have hzero : s.state = 0 ↔ oplState t = 0 := h.state_eq_iff (Nat.zero_le 36)
  have hlast : s.state = 36 ↔ oplState t = 36 := h.state_eq_iff (Nat.le_refl 36)
  unfold OplSequencer.nextState
  rw [h.clkEn]
  by_cases hrest : oplState t = 0
  · rw [if_pos (hzero.2 hrest)]
    by_cases hfirst : 494 ≤ t ∧ t % 494 = 0
    · rw [decide_eq_true hfirst, if_pos rfl, (oplState_first hfirst).2]
      rfl
    · rw [decide_eq_false hfirst, if_neg Bool.false_ne_true, oplState_rests hfirst hrest]
      rfl
  · have hpos := Nat.pos_of_ne_zero hrest
    have hle := @oplState_le t
    rw [if_neg fun hstate => hrest (hzero.1 hstate), oplState_succ hpos]
    simp only [h.delay_eq_one hpos, hlast]
    split
    · split
      · rfl
      · rw [BitVec.toNat_add, h.state]
        show (oplState t + 1) % 64 = oplState t + 1
        omega
    · exact h.state

theorem At.step (h : s.At t) : s.step.At (t + 1) := by
  have hcounter := h.counter
  have hlt := Nat.mod_lt t (show 0 < 494 by decide)
  have hend : s.counter = 494 - 1 ↔ t % 494 = 493 := by
    rw [← hcounter, ← BitVec.toNat_inj]
    rfl
  have hnext := h.nextState
  have hsame : s.nextState = s.state ↔ oplState (t + 1) = oplState t := by
    rw [← BitVec.toNat_inj, hnext, h.state]
  have hone : s.delayCounter = 1 ↔ s.delayCounter.toNat = 1 := by
    rw [← BitVec.toNat_inj]
    rfl
  have hle := h.delay_le
  have hgo : ¬s.delayCounter = 1 → (s.delayCounter + 1).toNat = 1 := fun hne => by
    rw [BitVec.toNat_add]
    show (s.delayCounter.toNat + 1) % 4 = 1
    rw [hone] at hne
    omega
  refine ⟨?_, ?_, hnext, ?_, fun hpos => ?_⟩
  · show (if s.counter = 494 - 1 then (0 : BitVec 9) else s.counter + 1).toNat = (t + 1) % 494
    simp only [hend]
    split
    · show 0 = (t + 1) % 494
      omega
    · rw [BitVec.toNat_add, hcounter]
      show (t % 494 + 1) % 512 = (t + 1) % 494
      omega
  · show (s.counter == 494 - 1) = decide (494 ≤ t + 1 ∧ (t + 1) % 494 = 0)
    rw [Bool.eq_iff_iff, beq_iff_eq, decide_eq_true_eq, hend]
    omega
  · show (if s.nextState ≠ s.state then (0 : BitVec 2)
      else if s.delayCounter = 1 then 0 else s.delayCounter + 1).toNat ≤ 1
    split
    · exact Nat.zero_le 1
    · split
      · exact Nat.zero_le 1
      · rw [hgo (by assumption)]
  · show (if s.nextState ≠ s.state then (0 : BitVec 2)
      else if s.delayCounter = 1 then 0 else s.delayCounter + 1).toNat = _
    have hdelay := h.delay
    simp only [ne_eq, hsame]
    by_cases hrest : oplState t = 0
    · have hfirst : 494 ≤ t ∧ t % 494 = 0 := by
        by_contra hnot
        rw [oplState_rests hnot hrest] at hpos
        exact Nat.lt_irrefl 0 hpos
      rw [if_pos (by rw [hrest]; omega)]
      show 0 = _
      omega
    · have hactive := Nat.pos_of_ne_zero hrest
      have hmod : oplState t ≤ 36 := oplState_le
      have hsucc := oplState_succ hactive
      have hplace : t % 494 ≤ 72 := by
        unfold oplState at hactive
        split at hactive <;> omega
      by_cases hlate : (t % 494 + 1) % 2 = 1
      · rw [if_pos hlate] at hsucc
        rw [if_pos (by rw [hsucc]; split <;> omega)]
        show 0 = _
        omega
      · rw [if_neg hlate] at hsucc
        have hne : ¬s.delayCounter = 1 := fun hd => hlate ((h.delay_eq_one hactive).1 hd)
        rw [if_neg (by rw [hsucc]; exact fun hn => hn rfl), if_neg hne, hgo hne]
        omega

theorem powerUp_at : powerUp.At 0 := ⟨rfl, rfl, rfl, Nat.zero_le 1, fun h => absurd h (by decide)⟩

/-! ## The turns -/

theorem oplTurns_turn (n : Nat) : oplTurns (oplTurn n) = n := by
  unfold oplTurns oplTurn
  rw [if_neg (by omega)]
  omega

/-- A clock begins a turn in the first 71 of a sample, each other clock. -/
theorem eq_oplTurn_iff : t = oplTurn (oplTurns t) ↔ 494 ≤ t ∧ t % 494 ≤ 71 ∧ t % 494 % 2 = 1 := by
  unfold oplTurns oplTurn
  split <;> omega

theorem oplTurns_succ : oplTurns (t + 1) = if t = oplTurn (oplTurns t) then oplTurns t + 1 else oplTurns t := by
  simp only [eq_oplTurn_iff]
  unfold oplTurns
  split <;> split <;> split <;> omega

theorem At.en_iff (h : s.At t) : s.opSampleClkEn = true ↔ t = oplTurn (oplTurns t) := by
  have hzero : s.state = 0 ↔ oplState t = 0 := h.state_eq_iff (Nat.zero_le 36)
  have hdelay : s.delayCounter = 0 ↔ s.delayCounter.toNat = 0 := by
    rw [← BitVec.toNat_inj]
    rfl
  rw [eq_oplTurn_iff, opSampleClkEn, Bool.and_eq_true, bne_iff_ne, ne_eq, beq_iff_eq, hzero, hdelay]
  have hgo := h.delay
  constructor
  · rintro ⟨hpos, hfirst⟩
    rw [hgo (Nat.pos_of_ne_zero hpos)] at hfirst
    unfold oplState at hpos
    split at hpos <;> omega
  · rintro ⟨hafter, hplace, hodd⟩
    have hactive : oplState t = (t % 494 + 1) / 2 := if_pos ⟨hafter, by omega, by omega⟩
    rw [hgo (by omega), hactive]
    omega

theorem At.slot (h : s.At t) {n : Nat} (ht : t = oplTurn n) : s.slot = oplSlot n := by
  have hstate : s.state = BitVec.ofNat 6 (n % 36 + 1) := by
    rw [h.state_eq_iff (by omega)]
    subst ht
    unfold oplState oplTurn
    rw [if_pos (by omega)]
    omega
  have hlt := Nat.mod_lt n (show 0 < 36 by decide)
  unfold OplSequencer.slot bankNum opNum oplSlot
  rw [hstate]
  generalize n % 36 = k at hlt
  revert k
  decide

end OplSequencer

end Z486.Sound
