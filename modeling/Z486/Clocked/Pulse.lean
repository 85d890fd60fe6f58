/-
Pulses of a signal that goes by a counter: it is set at one place of the counter and cleared at a later one, as a sync, a
gate or a window is. Between the two it is high, and low at the other places, in every round of the counter.
-/
import Mathlib.Tactic.Common
import Mathlib.Data.Nat.Basic

namespace Clocked

/-! ## Counters that go round -/

section Rounds

variable {a k n : Nat}

theorem succ_mod (hn : 0 < n) : (k + 1) % n = if k % n + 1 = n then 0 else k % n + 1 := by
  have hlt := Nat.mod_lt k hn
  rw [← Nat.mod_add_mod]
  split
  case isTrue heq => rw [heq, Nat.mod_self]
  case isFalse hne => exact Nat.mod_eq_of_lt (by omega)

theorem succ_div_round (hn : 0 < n) : (k + 1) / n = if k % n + 1 = n then k / n + 1 else k / n := by
  have hdvd : n ∣ k + 1 ↔ k % n + 1 = n := by
    rw [Nat.dvd_iff_mod_eq_zero, succ_mod hn]
    split
    case isTrue heq => exact iff_of_true rfl heq
    case isFalse hne => exact iff_of_false (Nat.succ_ne_zero _) hne
  rw [Nat.succ_div]
  by_cases hround : k % n + 1 = n
  · rw [if_pos (hdvd.2 hround), if_pos hround]
  · rw [if_neg fun h => hround (hdvd.1 h), if_neg hround, Nat.add_zero]

/-- A counter is back where it was after whole rounds. -/
theorem add_mod_eq_iff (ha : a < n) : (a + k) % n = a ↔ k % n = 0 := by
  have hlt := Nat.mod_lt k (Nat.zero_lt_of_lt ha)
  rw [Nat.add_mod, Nat.mod_eq_of_lt ha]
  by_cases hround : a + k % n < n
  · rw [Nat.mod_eq_of_lt hround]
    omega
  · rw [Nat.mod_eq_sub_mod (by omega), Nat.mod_eq_of_lt (by omega)]
    omega

end Rounds

/-! ## Pulses -/

/-- Where the signal is high. -/
def high (start width place : Nat) : Bool := decide (start < place ∧ place ≤ start + width)

/-- The signal `S`, set where the counter is at `start` and cleared `width` places later. -/
structure Pulse (place : Nat → Nat) (S : Nat → Bool) (n start width : Nat) : Prop where
  within : ∀ k, place k < n
  goes : ∀ k, place (k + 1) = if place k + 1 = n then 0 else place k + 1
  pos : 0 < width
  fits : start + width < n
  set : ∀ k, place k = start → S (k + 1) = true
  stays : ∀ k, start < place k → place k < start + width → S (k + 1) = S k
  clears : ∀ k, place k = start + width → S (k + 1) = false
  rests : ∀ k, place k < start ∨ start + width < place k → S k = false → S (k + 1) = false

namespace Pulse

variable {place : Nat → Nat} {S : Nat → Bool} {n start width : Nat}

theorem wave_succ (h : Pulse place S n start width) {k : Nat} (hk : S k = high start width (place k)) :
    S (k + 1) = high start width (place (k + 1)) := by
  have hpos := h.pos
  have hfits := h.fits
  have hlt := h.within k
  have hsucc := h.goes k
  unfold high at *
  rcases Nat.lt_trichotomy (place k) start with hbefore | hat | hafter
  · rw [h.rests k (.inl hbefore) (hk.trans (decide_eq_false (by omega)))]
    rw [if_neg (by omega)] at hsucc
    exact (decide_eq_false (by omega)).symm
  · rw [h.set k hat]
    rw [if_neg (by omega)] at hsucc
    exact (decide_eq_true (by omega)).symm
  · rcases Nat.lt_trichotomy (place k) (start + width) with hwithin | hend | hpast
    · rw [h.stays k hafter hwithin, hk]
      rw [if_neg (by omega)] at hsucc
      rw [decide_eq_true (by omega)]
      exact (decide_eq_true (by omega)).symm
    · rw [h.clears k hend]
      split at hsucc <;> exact (decide_eq_false (by omega)).symm
    · rw [h.rests k (.inr hpast) (hk.trans (decide_eq_false (by omega)))]
      split at hsucc <;> exact (decide_eq_false (by omega)).symm

/-- Once it is as it should be it always is. -/
theorem wave (h : Pulse place S n start width) {m : Nat} (h₀ : S m = high start width (place m)) {k : Nat}
    (hk : m ≤ k) : S k = high start width (place k) := by
  induction k, hk using Nat.le_induction with
  | base => exact h₀
  | succ k _ ih => exact h.wave_succ ih

/-- It is as it should be after the place where it is cleared, whatever it was before. -/
theorem wave_of_clears (h : Pulse place S n start width) {m : Nat} (h₀ : place m = start + width) {k : Nat}
    (hk : m < k) : S k = high start width (place k) := by
  refine h.wave (m := m + 1) ?_ hk
  have hgoes := h.goes m
  rw [h.clears m h₀]
  unfold high
  split at hgoes <;> exact (decide_eq_false (by omega)).symm

end Pulse

end Clocked
