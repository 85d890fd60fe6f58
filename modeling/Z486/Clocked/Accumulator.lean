/-
Phase accumulators. A rate is added to a sum in every clock; when the sum reaches the modulus, the modulus is taken off
and there is a tick. The sum stays below the modulus, and with a rate other than zero there is always a further tick.
-/
import Z486.Clocked.Run

namespace Clocked.Accumulator

variable (rate modulus : Nat)

/-- Adding the rate brings a tick. -/
def Ticks (sum : Nat) : Prop := modulus ≤ sum + rate

instance (sum : Nat) : Decidable (Ticks rate modulus sum) := inferInstanceAs (Decidable (_ ≤ _))

def next (sum : Nat) : Nat := if Ticks rate modulus sum then sum + rate - modulus else sum + rate

variable {rate modulus}

theorem next_lt {sum : Nat} (hsum : sum < modulus) (hrate : rate ≤ modulus) : next rate modulus sum < modulus := by
  by_cases htick : Ticks rate modulus sum
  · rw [next, if_pos htick]
    unfold Ticks at htick
    omega
  · rw [next, if_neg htick]
    exact Nat.not_le.1 htick

/-- Without a rate there is no tick. -/
theorem not_ticks_zero {sum : Nat} (hsum : sum < modulus) : ¬ Ticks 0 modulus sum := Nat.not_le.2 hsum

theorem next_add (sum : Nat) : next rate modulus sum + (if Ticks rate modulus sum then modulus else 0) = sum + rate := by
  unfold next
  by_cases htick : Ticks rate modulus sum
  · rw [if_pos htick, if_pos htick]
    exact Nat.sub_add_cancel htick
  · rw [if_neg htick, if_neg htick, Nat.add_zero]

/-- The ticks take a modulus each out of what was added. -/
theorem pulses_ticks_mul {f : Nat → Nat} (hnext : ∀ t, f (t + 1) = next rate modulus (f t)) (n : Nat) :
    pulses (fun t => decide (Ticks rate modulus (f t))) 0 n * modulus + f n = f 0 + n * rate := by
  induction n with
  | zero => simp
  | succ n ih =>
    have hadd := @next_add rate modulus (f n)
    rw [pulses_succ _ (Nat.zero_le n), hnext, Nat.succ_mul]
    simp only [decide_eq_true_eq]
    split_ifs at hadd ⊢
    · rw [Nat.succ_mul]; omega
    · rw [Nat.add_zero]; omega

/-- The number of ticks in `n` clocks from an empty sum on. -/
theorem pulses_ticks {f : Nat → Nat} (hzero : f 0 = 0) (hnext : ∀ t, f (t + 1) = next rate modulus (f t))
    (hrate : rate ≤ modulus) (hmodulus : 0 < modulus) (n : Nat) :
    pulses (fun t => decide (Ticks rate modulus (f t))) 0 n = n * rate / modulus := by
  have hlt : ∀ t, f t < modulus := by
    intro t
    induction t with
    | zero => rwa [hzero]
    | succ t ih => rw [hnext]; exact next_lt ih hrate
  have hmul := pulses_ticks_mul hnext n
  rw [hzero, Nat.zero_add] at hmul
  exact (Nat.div_eq_of_lt_le (by omega) (by rw [Nat.succ_mul]; have := hlt n; omega)).symm

/-- What is missing to the modulus becomes less until the next tick. -/
theorem exists_tick {f : Nat → Nat} {t₀ : Nat} (hrate : 0 < rate) (hlt : ∀ t, t₀ ≤ t → f t < modulus)
    (hnext : ∀ t, t₀ ≤ t → f (t + 1) = next rate modulus (f t)) {t : Nat} (ht : t₀ ≤ t) :
    ∃ u, t ≤ u ∧ Ticks rate modulus (f u) := by
  have hprogress := exists_of_progress (P := fun k => Ticks rate modulus (f (t₀ + k))) (W := fun _ => False)
    (fun k => modulus - f (t₀ + k)) (fun _ _ hw => hw.elim) (fun k hno _ => ?_) (fun k => ⟨k, le_rfl, .inr not_false⟩)
    (t - t₀)
  · obtain ⟨k, hk, htick⟩ := hprogress
    exact ⟨t₀ + k, by omega, htick⟩
  · have hbelow := hlt (t₀ + k) (Nat.le_add_right _ _)
    show modulus - f (t₀ + k + 1) < _
    rw [hnext _ (Nat.le_add_right _ _), next, if_neg hno]
    omega

end Clocked.Accumulator
