/-
A counter that is set to one less than a number of enables and counts down with them: it stands at zero, and an enable
comes, when that enable makes the number full.
-/
import Z486.Clocked.Run

namespace Clocked

variable {count : Nat → Nat} {ce : Nat → Bool} {a b n : Nat}

/-- Until an enable finds it at zero, what is left and the enables so far make up the number. -/
theorem countdown_left (hab : a ≤ b) (h₀ : count a + 1 = n)
    (hstep : ∀ u, a ≤ u → u < b → count (u + 1) = if ce u then count u - 1 else count u)
    (hmore : ∀ u, a ≤ u → u < b → ce u = true → 0 < count u) : count b + pulses ce a b + 1 = n := by
  induction b, hab using Nat.le_induction with
  | base => rwa [pulses_self, Nat.add_zero]
  | succ b hab ih =>
    have hbefore := ih (fun u hu hlt => hstep u hu (by omega)) fun u hu hlt => hmore u hu (by omega)
    rw [hstep b hab (Nat.lt_succ_self b), pulses_succ ce hab]
    cases hce : ce b with
    | false =>
      rw [if_neg Bool.false_ne_true, if_neg Bool.false_ne_true]
      exact hbefore
    | true =>
      have hpos := hmore b hab (Nat.lt_succ_self b) hce
      rw [if_pos rfl, if_pos rfl]
      omega

/-- An enable finds the counter at zero when it makes the number full. -/
theorem countdown_zero_iff (hab : a ≤ b) (h₀ : count a + 1 = n)
    (hstep : ∀ u, a ≤ u → u < b → count (u + 1) = if ce u then count u - 1 else count u)
    (hmore : ∀ u, a ≤ u → u < b → ce u = true → 0 < count u) : count b = 0 ↔ pulses ce a b + 1 = n := by
  have := countdown_left hab h₀ hstep hmore
  omega

/-- A counter that goes down with the enables and stays at zero. -/
theorem countdown_floor (hab : a ≤ b)
    (hstep : ∀ u, a ≤ u → u < b → count (u + 1) = if ce u then count u - 1 else count u) :
    count b = count a - pulses ce a b := by
  induction b, hab using Nat.le_induction with
  | base => rw [pulses_self, Nat.sub_zero]
  | succ b hab ih =>
    rw [hstep b hab (Nat.lt_succ_self b), pulses_succ ce hab, ih fun u hu hlt => hstep u hu (by omega)]
    split <;> omega

end Clocked
