/-
Runs of a synchronous circuit. A circuit is a next-state function: at every rising edge its
registers take the value computed from the registers and the inputs of the clock before. A run is
driven by a stream of inputs, one for each clock; the rules here reduce a property of all clocks of
a run to a property of one edge.
-/
import Mathlib.Data.Nat.Count
import Mathlib.Tactic.Common

namespace Clocked

variable {σ τ ι ε : Type*}

/-! ## Runs -/

/-- The registers in clock `t` of the run that starts in `s₀` and reads `inp u` in clock `u`. -/
def run (step : σ → ι → σ) (s₀ : σ) (inp : Nat → ι) : Nat → σ
  | 0 => s₀
  | t + 1 => step (run step s₀ inp t) (inp t)

@[simp] theorem run_zero (step : σ → ι → σ) (s₀ : σ) (inp : Nat → ι) : run step s₀ inp 0 = s₀ := rfl

theorem run_succ (step : σ → ι → σ) (s₀ : σ) (inp : Nat → ι) (t : Nat) :
    run step s₀ inp (t + 1) = step (run step s₀ inp t) (inp t) := rfl

/-- A register is set to the same value either way. -/
theorem ite_keeps (reg : σ → τ) {c : Prop} [Decidable c] {x y : σ} {v : τ} (hx : reg x = v) (hy : reg y = v) :
    reg (if c then x else y) = v := by
  split
  · exact hx
  · exact hy

/-- A run seen from clock `t` on is the run from the registers of clock `t`. -/
theorem run_add (step : σ → ι → σ) (s₀ : σ) (inp : Nat → ι) (t u : Nat) :
    run step s₀ inp (t + u) = run step (run step s₀ inp t) (fun k => inp (t + k)) u := by
  induction u with
  | zero => rfl
  | succ u ih => rw [← Nat.add_assoc, run_succ, run_succ, ih]

/-- A run depends on the inputs before it alone. -/
theorem run_congr {step : σ → ι → σ} {s₀ : σ} {inp inp' : Nat → ι} {t : Nat} (h : ∀ u, u < t → inp u = inp' u) :
    run step s₀ inp t = run step s₀ inp' t := by
  induction t with
  | zero => rfl
  | succ t ih => rw [run_succ, run_succ, ih fun u hu => h u (by omega), h t (by omega)]

/-- A run whose inputs are computed from its own registers. -/
theorem run_feedback (step : σ → ι → σ) (f : σ → ι) (s₀ : σ) (t : Nat) :
    run step s₀ (fun u => f (run (fun s (_ : Unit) => step s (f s)) s₀ (fun _ => ()) u)) t =
      run (fun s (_ : Unit) => step s (f s)) s₀ (fun _ => ()) t := by
  induction t with
  | zero => rfl
  | succ t ih => rw [run_succ, run_succ, ih]

/-! ## Invariants -/

section Invariant

variable {step : σ → ι → σ} {s₀ : σ} {inp : Nat → ι}

/-- What holds at the start and is kept by every edge of the run holds in every clock. -/
theorem run_invariant {I : σ → Prop} (h0 : I s₀)
    (hstep : ∀ t, I (run step s₀ inp t) → I (step (run step s₀ inp t) (inp t))) :
    ∀ t, I (run step s₀ inp t)
  | 0 => h0
  | t + 1 => hstep t (run_invariant h0 hstep t)

end Invariant

/-! ## Rounds -/

/-- `n` clocks from `t` on: `J` holds in each of them, and `I` in the clock after. -/
structure Round (I J : Nat → Prop) (t n : Nat) : Prop where
  pos : 0 < n
  during : ∀ k, k < n → J (t + k)
  after : I (t + n)

/-- When every clock in which `I` holds begins a round, the rounds cover the run. -/
theorem rounds {I J : Nat → Prop} (h0 : I 0) (hround : ∀ t, I t → ∃ n, Round I J t n) (t : Nat) : J t := by
  have hcover : ∃ s n, s ≤ t ∧ t < s + n ∧ Round I J s n := by
    induction t with
    | zero =>
      obtain ⟨n, hn⟩ := hround 0 h0
      have hpos := hn.pos
      exact ⟨0, n, le_rfl, by omega, hn⟩
    | succ t ih =>
      obtain ⟨s, n, hs, hlt, hn⟩ := ih
      by_cases hin : t + 1 < s + n
      · exact ⟨s, n, by omega, hin, hn⟩
      · obtain ⟨m, hm⟩ := hround (s + n) hn.after
        have hpos := hm.pos
        exact ⟨s + n, m, by omega, by omega, hm⟩
  obtain ⟨s, n, hs, hlt, hn⟩ := hcover
  have h := hn.during (t - s) (by omega)
  rwa [Nat.add_sub_cancel' hs] at h

/-! ## Progress -/

/-- The first clock from `t` on in which `P` holds. -/
theorem exists_first {P : Nat → Prop} {t : Nat} (h : ∃ u, t ≤ u ∧ P u) :
    ∃ u, t ≤ u ∧ P u ∧ ∀ v, t ≤ v → v < u → ¬ P v := by
  classical
  exact ⟨Nat.find h, (Nat.find_spec h).1, (Nat.find_spec h).2, fun v hv hlt hp => Nat.find_min h hlt ⟨hv, hp⟩⟩

/-- A count that goes up by at most one at a time takes every value it passes. -/
theorem exists_level {f : Nat → Nat} {l m : Nat} (h0 : f 0 ≤ l) (hstep : ∀ k, k < m → f (k + 1) ≤ f k + 1)
    (hl : l ≤ f m) : ∃ k, k ≤ m ∧ f k = l := by
  induction m with
  | zero => exact ⟨0, Nat.le_refl 0, Nat.le_antisymm h0 hl⟩
  | succ m ih =>
    by_cases hle : l ≤ f m
    · obtain ⟨k, hk, heq⟩ := ih (fun k hk => hstep k (Nat.lt_succ_of_lt hk)) hle
      exact ⟨k, Nat.le_succ_of_le hk, heq⟩
    · have := hstep m (Nat.lt_succ_self m)
      exact ⟨m + 1, Nat.le_refl _, by omega⟩

/-- A measure that falls in every clock that neither waits nor meets `P`, and does not rise in a
waiting one, brings `P` about when no wait is for ever. -/
theorem exists_of_progress {P W : Nat → Prop} (μ : Nat → Nat)
    (hwait : ∀ u, ¬ P u → W u → μ (u + 1) ≤ μ u) (hgo : ∀ u, ¬ P u → ¬ W u → μ (u + 1) < μ u)
    (hfair : ∀ u, ∃ v, u ≤ v ∧ (P v ∨ ¬ W v)) (t : Nat) : ∃ u, t ≤ u ∧ P u := by
  generalize hm : μ t = m
  induction m using Nat.strong_induction_on generalizing t with
  | _ m ih =>
    obtain ⟨v, htv, hv, hbefore⟩ := exists_first (hfair t)
    have hle : ∀ w, t ≤ w → w ≤ v → μ w ≤ m := by
      intro w hw
      induction w, hw using Nat.le_induction with
      | base => exact fun _ => hm.le
      | succ w hw ih' =>
        intro hwv
        have hn := hbefore w hw (by omega)
        push Not at hn
        exact (hwait w hn.1 hn.2).trans (ih' (by omega))
    rcases Classical.em (P v) with hp | hp
    · exact ⟨v, htv, hp⟩
    · have hlt := hgo v hp (hv.resolve_left hp)
      obtain ⟨u, hvu, hu⟩ := ih (μ (v + 1)) (lt_of_lt_of_le hlt (hle v htv le_rfl)) (v + 1) rfl
      exact ⟨u, by omega, hu⟩

/-- What stands still until its turn comes, and whose turn comes again and again, gets its turn. -/
theorem exists_turn {f : Nat → τ} {g : τ → Nat → Prop} (hfair : ∀ x t, ∃ u, t ≤ u ∧ g x u)
    (hwait : ∀ t, ¬ g (f t) t → f (t + 1) = f t) (t : Nat) : ∃ u, t ≤ u ∧ f u = f t ∧ g (f u) u := by
  obtain ⟨u, htu, hgo, hbefore⟩ := exists_first (hfair (f t) t)
  have hstays : ∀ v, t ≤ v → v ≤ u → f v = f t := by
    intro v htv
    induction v, htv using Nat.le_induction with
    | base => exact fun _ => rfl
    | succ v htv ih =>
      intro hvu
      have hsame := ih (by omega)
      rw [hwait v (by rw [hsame]; exact hbefore v htv (by omega)), hsame]
  have hsame := hstays u htu le_rfl
  exact ⟨u, htu, hsame, hsame ▸ hgo⟩

/-! ## Counting pulses -/

/-- The number of clocks `u` with `a ≤ u < b` in which `p` is high. -/
def pulses (p : Nat → Bool) (a b : Nat) : Nat :=
  Nat.count (fun k => p (a + k) = true) (b - a)

@[simp] theorem pulses_self (p : Nat → Bool) (a : Nat) : pulses p a a = 0 := by
  simp [pulses]

theorem pulses_succ (p : Nat → Bool) {a b : Nat} (h : a ≤ b) :
    pulses p a (b + 1) = pulses p a b + (if p b = true then 1 else 0) := by
  unfold pulses
  rw [show b + 1 - a = (b - a) + 1 by omega, Nat.count_succ, show a + (b - a) = b by omega]

theorem pulses_add (p : Nat → Bool) {a b c : Nat} (hab : a ≤ b) (hbc : b ≤ c) :
    pulses p a c = pulses p a b + pulses p b c := by
  induction c, hbc using Nat.le_induction with
  | base => simp
  | succ c hbc ih => rw [pulses_succ p (hab.trans hbc), pulses_succ p hbc, ih, Nat.add_assoc]

theorem pulses_eq_zero {p : Nat → Bool} {a b : Nat} (h : ∀ u, a ≤ u → u < b → p u = false) :
    pulses p a b = 0 := by
  by_cases hab : a ≤ b
  · induction b, hab using Nat.le_induction with
    | base => simp
    | succ b hab ih =>
      rw [pulses_succ p hab, ih fun u h1 h2 => h u h1 (by omega), h b hab (by omega)]
      simp
  · unfold pulses
    rw [show b - a = 0 by omega]
    rfl

theorem pulses_congr {p q : Nat → Bool} {a b : Nat} (h : ∀ u, a ≤ u → u < b → p u = q u) : pulses p a b = pulses q a b := by
  by_cases hab : a ≤ b
  · induction b, hab using Nat.le_induction with
    | base => rw [pulses_self, pulses_self]
    | succ b hab ih =>
      rw [pulses_succ p hab, pulses_succ q hab, ih fun u h1 h2 => h u h1 (by omega), h b hab (by omega)]
  · unfold pulses
    rw [show b - a = 0 by omega]
    rfl

theorem pulses_always (t : Nat) : pulses (fun _ => true) 0 t = t := by
  induction t with
  | zero => exact pulses_self _ _
  | succ t ih => rw [pulses_succ _ (Nat.zero_le t), ih, if_pos rfl]

/-- A signal high in clock `r` alone pulses once. -/
theorem pulses_eq_one {p : Nat → Bool} {a r b : Nat} (har : a ≤ r) (hrb : r < b) (hr : p r = true)
    (h : ∀ u, a ≤ u → u < b → u ≠ r → p u = false) : pulses p a b = 1 := by
  rw [pulses_add p har hrb.le, pulses_eq_zero fun u h1 h2 => h u h1 (by omega) (by omega),
    pulses_add p (Nat.le_succ r) hrb, pulses_succ p (le_refl r),
    pulses_eq_zero fun u h1 h2 => h u (by omega) h2 (by omega)]
  simp [hr]

/-- The pulses from the one with the number `a` to the one before that with the number `b`. -/
theorem pulses_ranked (p : Nat → Bool) (a b : Nat) {o t : Nat} (hot : o ≤ t) :
    pulses (fun v => p v && decide (a ≤ pulses p o v ∧ pulses p o v < b)) o t =
      min (pulses p o t) b - min (pulses p o t) a := by
  induction t, hot using Nat.le_induction with
  | base => rw [pulses_self, pulses_self, Nat.zero_min, Nat.zero_min]
  | succ t hot ih =>
    rw [pulses_succ _ hot, pulses_succ p hot, ih]
    cases p t with
    | false => rfl
    | true =>
      rw [Bool.true_and, if_pos rfl]
      by_cases hin : a ≤ pulses p o t ∧ pulses p o t < b
      · rw [if_pos (decide_eq_true hin)]
        omega
      · rw [if_neg fun h => hin (of_decide_eq_true h)]
        omega

end Clocked
