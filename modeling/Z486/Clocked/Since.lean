/-
The time since an event: a counter that the event sets back to 0, without the width that a register gives it.
-/
import Z486.Clocked.Run

namespace Clocked

variable {e p : Nat → Bool} {t u v k d : Nat}

/-- The clocks from the last event before clock `t`, or from the start, up to clock `t`. -/
def since (e : Nat → Bool) : Nat → Nat
  | 0 => 0
  | t + 1 => if e t = true then 0 else since e t + 1

theorem since_event (h : e t = true) : since e (t + 1) = 0 := if_pos h

theorem since_quiet (h : e t = false) : since e (t + 1) = since e t + 1 := if_neg (Bool.eq_false_iff.1 h)

theorem since_add (h : ∀ w, t ≤ w → w < t + k → e w = false) : since e (t + k) = since e t + k := by
  induction k with
  | zero => rfl
  | succ k ih =>
    rw [← Nat.add_assoc, since_quiet (h (t + k) (Nat.le_add_right t k) (Nat.lt_succ_self _)),
      ih fun w hle hlt => h w hle (Nat.lt_succ_of_lt hlt)]
    rfl

/-- The time since the event in clock `v`, when none has come after it. -/
theorem since_of_last (hv : e v = true) (hvt : v < t) (h : ∀ w, v < w → w < t → e w = false) :
    since e t = t - v - 1 := by
  obtain ⟨k, rfl⟩ := Nat.exists_eq_add_of_lt hvt
  rw [Nat.add_right_comm, since_add fun w hle hlt => h w hle (by omega), since_event hv]
  omega

/-- It grows with the clocks until the next event. -/
theorem since_mono (hut : u ≤ t) (h : ∀ w, u ≤ w → w < t → e w = false) : since e u ≤ since e t := by
  obtain ⟨k, rfl⟩ := Nat.exists_eq_add_of_le hut
  rw [since_add h]
  exact Nat.le_add_right _ k

/-- When the events keep coming within `d` clocks, as many clocks have passed as that many spans take. -/
theorem span_le (hvt : v < t) (h : ∀ u, v < u → u < t → e u = true → p u = true ∧ since e u + 1 ≤ d) :
    t - v - 1 ≤ pulses p (v + 1) t * d + since e t := by
  induction t, Nat.succ_le_of_lt hvt using Nat.le_induction with
  | base =>
    rw [Nat.succ_sub (Nat.le_refl v), Nat.sub_self]
    exact Nat.zero_le _
  | succ t hle ih =>
    have hbefore := ih hle fun u hvu hut => h u hvu (Nat.lt_succ_of_lt hut)
    rw [pulses_succ p (show v + 1 ≤ t from hle)]
    cases hevent : e t with
    | false =>
      have hgrow : pulses p (v + 1) t * d ≤ (pulses p (v + 1) t + if p t = true then 1 else 0) * d :=
        Nat.mul_le_mul_right d (Nat.le_add_right _ _)
      rw [since_quiet hevent]
      omega
    | true =>
      obtain ⟨hp, hspan⟩ := h t hle (Nat.lt_succ_self t) hevent
      rw [since_event hevent, if_pos hp, Nat.add_mul, Nat.one_mul]
      omega

end Clocked
