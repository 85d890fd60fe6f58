/-
Time sharing: one unit serves `n` channels in turn, one in each clock, and shifts its results into a register with a
lane for each channel. When the turn has come round, every lane holds the result of its own channel.
-/
import Z486.Clocked.Run

namespace Clocked

/-! ## Turns -/

/-- The turn passes to the next of `n` channels, and from the last one to the first. -/
def nextTurn (n c : Nat) : Nat := if c = n - 1 then 0 else c + 1

variable {n : Nat} {turn : Nat → Nat}

theorem nextTurn_eq_mod {c : Nat} (hc : c < n) : nextTurn n c = (c + 1) % n := by
  unfold nextTurn
  by_cases hlast : c = n - 1
  · rw [if_pos hlast, show c + 1 = n by omega, Nat.mod_self]
  · rw [if_neg hlast, Nat.mod_eq_of_lt (by omega)]

theorem turn_lt (hnext : ∀ t, turn (t + 1) = nextTurn n (turn t)) (h0 : turn 0 < n) (t : Nat) : turn t < n := by
  induction t with
  | zero => exact h0
  | succ t ih =>
    rw [hnext, nextTurn_eq_mod ih]
    exact Nat.mod_lt _ (Nat.zero_lt_of_lt ih)

theorem turn_add (hnext : ∀ t, turn (t + 1) = nextTurn n (turn t)) (h0 : turn 0 < n) (t k : Nat) :
    turn (t + k) = (turn t + k) % n := by
  have hlt := turn_lt hnext h0
  induction k with
  | zero => exact (Nat.mod_eq_of_lt (hlt t)).symm
  | succ k ih => rw [← Nat.add_assoc, hnext, nextTurn_eq_mod (hlt _), ih, Nat.mod_add_mod, Nat.add_assoc]

/-- The channel that has its turn `n - k` clocks before the first one is channel `k`. -/
theorem turn_eq (hnext : ∀ t, turn (t + 1) = nextTurn n (turn t)) (h0 : turn 0 < n) {t k : Nat} (hk : k < n)
    (hfirst : turn (t + (n - k)) = 0) : turn t = k := by
  have hlt := turn_lt hnext h0 t
  rw [turn_add hnext h0] at hfirst
  obtain ⟨q, hq⟩ := Nat.dvd_of_mod_eq_zero hfirst
  -- the sum is positive and less than two rounds
  have hone : q = 1 := by
    rcases Nat.lt_trichotomy q 1 with hlow | heq | hhigh
    · rw [Nat.lt_one_iff.1 hlow, Nat.mul_zero] at hq
      omega
    · exact heq
    · have := Nat.mul_le_mul_left n (show 2 ≤ q from hhigh)
      omega
  rw [hone] at hq
  omega

/-- A signal that is up in the clock after each turn of the first channel is up once in any `n` clocks together. -/
theorem pulses_turn (hnext : ∀ t, turn (t + 1) = nextTurn n (turn t)) (h0 : turn 0 < n) {p : Nat → Bool}
    (hp : ∀ t, p (t + 1) = decide (turn t = 0)) (t : Nat) : pulses p (t + 1) (t + 1 + n) = 1 := by
  have hat : ∀ k, turn (t + k) = (turn t + k) % n := turn_add hnext h0 t
  have hlt := turn_lt hnext h0 t
  -- the clocks that it is away from the turn of the first channel
  obtain ⟨k, hk, hround⟩ : ∃ k < n, turn t + k = 0 ∨ turn t + k = n := by
    rcases Nat.eq_zero_or_pos (turn t) with hzero | hpos
    · exact ⟨0, Nat.zero_lt_of_lt h0, .inl (by omega)⟩
    · exact ⟨n - turn t, by omega, .inr (by omega)⟩
  refine pulses_eq_one (r := t + k + 1) (by omega) (by omega) ?_ fun u htu hu hne => ?_
  · rw [hp, hat]
    rcases hround with hzero | hfull
    · rw [hzero, Nat.zero_mod]
      rfl
    · rw [hfull, Nat.mod_self]
      rfl
  · obtain ⟨j, rfl⟩ := Nat.exists_eq_add_of_le htu
    rw [Nat.add_right_comm, hp, hat]
    refine decide_eq_false ?_
    rcases Nat.lt_or_ge (turn t + j) n with hlow | hhigh
    · rw [Nat.mod_eq_of_lt hlow]
      omega
    · rw [Nat.mod_eq_sub_mod hhigh, Nat.mod_eq_of_lt (by omega)]
      omega

/-! ## Lanes -/

variable {w : Nat}

/-- Lane `k` of a word of lanes of `w` bits. -/
def lane (w k : Nat) {m : Nat} (x : BitVec m) : BitVec w := x.extractLsb' (w * k) w

/-- The word moves down by a lane, and a new value comes in at the top. -/
def shiftIn (x : BitVec (n * w)) (v : BitVec w) : BitVec (n * w) := (v ++ x.extractLsb' w (n * w - w)).setWidth (n * w)

theorem lane_shiftIn_top (x : BitVec (n * w)) (v : BitVec w) {k : Nat} (hk : k + 1 = n) :
    lane w k (shiftIn x v) = v := by
  have hwidth : n * w - w = w * k := by rw [← hk, Nat.succ_mul, Nat.add_sub_cancel, Nat.mul_comm]
  have htop : n * w = w * k + w := by rw [← hk, Nat.succ_mul, Nat.mul_comm]
  refine BitVec.eq_of_getLsbD_eq fun i hi => ?_
  unfold lane shiftIn
  rw [BitVec.getLsbD_extractLsb', BitVec.getLsbD_setWidth, BitVec.getLsbD_append, hwidth,
    if_neg (by omega), Nat.add_sub_cancel_left, decide_eq_true hi, decide_eq_true (by omega : w * k + i < n * w)]
  rfl

theorem lane_shiftIn (x : BitVec (n * w)) (v : BitVec w) {k : Nat} (hk : k + 1 < n) :
    lane w k (shiftIn x v) = lane w (k + 1) x := by
  have hle : w * (k + 2) ≤ w * n := Nat.mul_le_mul_left w hk
  rw [Nat.mul_add, Nat.mul_two, Nat.mul_comm w n] at hle
  refine BitVec.eq_of_getLsbD_eq fun i hi => ?_
  unfold lane shiftIn
  rw [BitVec.getLsbD_extractLsb', BitVec.getLsbD_setWidth, BitVec.getLsbD_append,
    if_pos (by omega), BitVec.getLsbD_extractLsb', BitVec.getLsbD_extractLsb', decide_eq_true hi,
    decide_eq_true (by omega : w * k + i < n * w), decide_eq_true (by omega : w * k + i < n * w - w),
    Nat.mul_succ, Nat.add_comm (w * k) w, Nat.add_assoc]
  rfl

/-- A value that came in has moved down by one lane with each value after it. -/
theorem lane_run {out : Nat → BitVec (n * w)} {v : Nat → BitVec w} (hout : ∀ t, out (t + 1) = shiftIn (out t) (v t))
    {t k j : Nat} (hj : j + k + 1 = n) : lane w k (out (t + 1 + j)) = v t := by
  induction j generalizing k with
  | zero => exact (congrArg (lane w k) (hout t)).trans (lane_shiftIn_top _ _ (by omega))
  | succ j ih =>
    rw [← Nat.add_assoc, hout, lane_shiftIn _ _ (by omega)]
    exact ih (by omega)

/-- The register a clock after the turn has come to the first channel: a result is ready in the clock after the turn
of its channel, and every lane holds the result of its own. -/
theorem lane_of_first {out : Nat → BitVec (n * w)} {f : Nat → BitVec w}
    (hnext : ∀ t, turn (t + 1) = nextTurn n (turn t)) (h0 : turn 0 < n)
    (hout : ∀ t, out (t + 2) = shiftIn (out (t + 1)) (f (turn t))) {t : Nat} (ht : n ≤ t) (hfirst : turn t = 0)
    {k : Nat} (hk : k < n) : lane w k (out (t + 1)) = f k := by
  obtain ⟨s, rfl⟩ := Nat.exists_eq_add_of_le' (show n - k ≤ t by omega)
  have hturn : turn s = k := turn_eq hnext h0 hk hfirst
  have hlane : lane w k (out (s + 1 + (n - k - 1) + 1)) = f (turn s) :=
    @lane_run n w (fun u => out (u + 1)) (fun u => f (turn u)) hout s k (n - k - 1) (by omega)
  rwa [hturn, show s + 1 + (n - k - 1) = s + (n - k) by omega] at hlane

end Clocked
