/-
Walks through the calendar: the days of a month and the months of a year from any date on, the weekday after so many
days, and the Sundays that every walk comes to.
-/
import Z486.Calendar.Date

namespace Calendar

namespace Date

/-! ## Days -/

/-- The weekday after `k` days. -/
theorem dayofweek_walk (d : Date) (k : Nat) : (next^[k] d).dayofweek = (d.dayofweek - 1 + k) % 7 + 1 := by
  have hd := d.dayofweek_valid
  induction k with
  | zero => simp only [Function.iterate_zero, id_eq]; omega
  | succ k ih =>
    have hstep : (next^[k] d).next.dayofweek =
        if (next^[k] d).dayofweek = 7 then 1 else (next^[k] d).dayofweek + 1 := rfl
    rw [Function.iterate_succ_apply', hstep, ih]
    split <;> omega

/-- The next days of a month. -/
theorem walk_within (d : Date) {k : Nat} (h : d.day + k ≤ daysIn d.year d.month) :
    (next^[k] d).day = d.day + k ∧ (next^[k] d).month = d.month ∧ (next^[k] d).year = d.year := by
  induction k with
  | zero => exact ⟨rfl, rfl, rfl⟩
  | succ k ih =>
    obtain ⟨hday, hmonth, hyear⟩ := ih (by omega)
    have hlast : ¬ (next^[k] d).lastDay := by
      unfold lastDay
      rw [hday, hmonth, hyear]
      omega
    rw [Function.iterate_succ_apply']
    refine ⟨?_, ?_, ?_⟩
    · show (if _ then _ else _) = _
      rw [if_neg hlast, hday, Nat.add_assoc]
    · show (if _ then _ else _) = _
      rw [if_neg hlast, hmonth]
    · show (if _ then _ else _) = _
      rw [if_neg (fun h => hlast h.1), hyear]

/-! ## Months -/

/-- The year and the month after. -/
def nextMonth (m : Nat × Nat) : Nat × Nat := if m.2 = 12 then (if m.1 = 99 then 0 else m.1 + 1, 1) else (m.1, m.2 + 1)

/-- The days of `j` months. -/
def daysOf (m : Nat × Nat) : Nat → Nat
  | 0 => 0
  | j + 1 => daysOf m j + daysIn (nextMonth^[j] m).1 (nextMonth^[j] m).2

theorem nextMonth_month (m : Nat × Nat) (h : 1 ≤ m.2 ∧ m.2 ≤ 12) (j : Nat) :
    (nextMonth^[j] m).2 = (m.2 - 1 + j) % 12 + 1 := by
  induction j with
  | zero => simp only [Function.iterate_zero, id_eq]; omega
  | succ j ih =>
    rw [Function.iterate_succ_apply', nextMonth]
    split <;> simp only <;> omega

/-- The first day of the next month. -/
theorem walk_month (d : Date) : let e := next^[daysIn d.year d.month - d.day + 1] d
    e.day = 1 ∧ (e.year, e.month) = nextMonth (d.year, d.month) := by
  have hday := d.day_valid.2
  obtain ⟨hlast, hmonth, hyear⟩ := walk_within d (k := daysIn d.year d.month - d.day) (by omega)
  have hend : (next^[daysIn d.year d.month - d.day] d).lastDay := by
    unfold lastDay
    rw [hlast, hmonth, hyear]
    omega
  intro e
  have he : e = (next^[daysIn d.year d.month - d.day] d).next := Function.iterate_succ_apply' _ _ _
  rw [he]
  refine ⟨if_pos hend, ?_⟩
  show (ite _ _ _, ite _ _ _) = _
  unfold nextMonth
  simp only [hend, true_and, if_true, hmonth, hyear]
  split <;> rfl

/-- The first day of the month `j` months later. -/
theorem walk_months (d : Date) (h : d.day = 1) (j : Nat) : let e := next^[daysOf (d.year, d.month) j] d
    e.day = 1 ∧ (e.year, e.month) = nextMonth^[j] (d.year, d.month) := by
  induction j with
  | zero => exact ⟨h, rfl⟩
  | succ j ih =>
    obtain ⟨hday, hmonth⟩ := ih
    have hstep := walk_month (next^[daysOf (d.year, d.month) j] d)
    rw [hday, hmonth] at hstep
    have hle := (daysIn_le (nextMonth^[j] (d.year, d.month)).1 (nextMonth^[j] (d.year, d.month)).2).1
    have hyear : (next^[daysOf (d.year, d.month) j] d).year = (nextMonth^[j] (d.year, d.month)).1 :=
      congrArg Prod.fst hmonth
    have hmon : (next^[daysOf (d.year, d.month) j] d).month = (nextMonth^[j] (d.year, d.month)).2 :=
      congrArg Prod.snd hmonth
    rw [hyear, hmon, Nat.sub_add_cancel (by omega), ← Function.iterate_add_apply, Nat.add_comm] at hstep
    rw [Function.iterate_succ_apply']
    exact hstep

/-- A year has 365 or 366 days. -/
theorem daysOf_year (y : Nat) : daysOf (y, 10) 12 = 365 ∨ daysOf (y, 10) 12 = 366 := by
  have hnov : nextMonth (y, 10) = (y, 11) := rfl
  simp only [daysOf, Function.iterate_succ_apply', Function.iterate_zero, id_eq, hnov]
  simp only [nextMonth]
  norm_num [daysIn]
  split <;> split <;> simp

/-! ## The last Sundays of October -/

theorem exists_october (d : Date) : ∃ k, (next^[k] d).day = 1 ∧ (next^[k] d).month = 10 := by
  obtain ⟨hday, -⟩ := walk_month d
  generalize daysIn d.year d.month - d.day + 1 = n at hday
  obtain ⟨hfirst, hmonth⟩ := walk_months (next^[n] d) hday ((22 - (next^[n] d).month) % 12)
  have hvalid := (next^[n] d).month_valid
  refine ⟨daysOf ((next^[n] d).year, (next^[n] d).month) ((22 - (next^[n] d).month) % 12) + n, ?_, ?_⟩
  · rw [Function.iterate_add_apply]
    exact hfirst
  · rw [Function.iterate_add_apply, show Date.month _ = _ from congrArg Prod.snd hmonth, nextMonth_month _ hvalid]
    simp only
    omega

/-- From a first of October to the next one. -/
theorem october_again (d : Date) (hday : d.day = 1) (hmonth : d.month = 10) :
    ∃ k, (next^[k] d).day = 1 ∧ (next^[k] d).month = 10 ∧ (k = 365 ∨ k = 366) := by
  obtain ⟨hfirst, hagain⟩ := walk_months d hday 12
  have hlen := daysOf_year d.year
  rw [hmonth] at hfirst hagain
  generalize daysOf (d.year, 10) 12 = n at hfirst hagain hlen
  refine ⟨n, hfirst, ?_, hlen⟩
  have hsnd : (next^[n] d).month = (nextMonth^[12] (d.year, 10)).2 := congrArg Prod.snd hagain
  rw [hsnd, nextMonth_month (d.year, 10) (by simp)]
  show (10 - 1 + 12) % 12 + 1 = 10
  rfl

/-- When October begins from Sunday to Thursday, a Sunday is from the 25th to the 29th. -/
theorem october_sunday (d : Date) (hday : d.day = 1) (hmonth : d.month = 10) (hw : d.dayofweek ≤ 5) :
    ∃ k, (next^[k] d).month = 10 ∧ (next^[k] d).dayofweek = 1 ∧ 25 ≤ (next^[k] d).day ∧ (next^[k] d).day ≤ 29 := by
  have hvalid := d.dayofweek_valid
  have hlen : daysIn d.year d.month = 31 := by
    rw [hmonth]
    rfl
  obtain ⟨hd, hm, -⟩ := walk_within d (k := 29 - d.dayofweek) (by omega)
  refine ⟨29 - d.dayofweek, by rw [hm, hmonth], ?_, by omega, by omega⟩
  rw [dayofweek_walk]
  omega

/-- Every walk comes to a Sunday from the 25th to the 29th of October. -/
theorem exists_autumn_sunday (d : Date) :
    ∃ k, (next^[k] d).month = 10 ∧ (next^[k] d).dayofweek = 1 ∧ 25 ≤ (next^[k] d).day ∧ (next^[k] d).day ≤ 29 := by
  -- the first of October moves by one or two weekdays a year, and is no Friday or Saturday a third time
  have hyear : ∀ e : Date, e.day = 1 → e.month = 10 → 6 ≤ e.dayofweek →
      ∃ k, (next^[k] e).day = 1 ∧ (next^[k] e).month = 10 ∧
        ((next^[k] e).dayofweek ≤ 5 ∨ e.dayofweek = 6 ∧ (next^[k] e).dayofweek = 7) := by
    intro e hday hmonth hw
    obtain ⟨k, hk, hm, hlen⟩ := october_again e hday hmonth
    have hvalid := e.dayofweek_valid
    refine ⟨k, hk, hm, ?_⟩
    rw [dayofweek_walk]
    omega
  have hlift : ∀ (e : Date) (n : Nat), (∃ k, (next^[k] (next^[n] e)).month = 10 ∧
      (next^[k] (next^[n] e)).dayofweek = 1 ∧ 25 ≤ (next^[k] (next^[n] e)).day ∧ (next^[k] (next^[n] e)).day ≤ 29) →
      ∃ k, (next^[k] e).month = 10 ∧ (next^[k] e).dayofweek = 1 ∧ 25 ≤ (next^[k] e).day ∧ (next^[k] e).day ≤ 29 := by
    rintro e n ⟨k, hk⟩
    refine ⟨k + n, ?_⟩
    rw [Function.iterate_add_apply]
    exact hk
  obtain ⟨n, hday, hmonth⟩ := exists_october d
  apply hlift d n
  rcases Nat.lt_or_ge 5 (next^[n] d).dayofweek with hw | hw
  · obtain ⟨m, hday', hmonth', hw'⟩ := hyear _ hday hmonth hw
    apply hlift _ m
    rcases hw' with hw' | ⟨-, hw'⟩
    · exact october_sunday _ hday' hmonth' hw'
    · obtain ⟨p, hday'', hmonth'', hw''⟩ := hyear _ hday' hmonth' (by omega)
      apply hlift _ p
      exact october_sunday _ hday'' hmonth'' (by omega)
  · exact october_sunday _ hday hmonth hw

end Date

end Calendar
