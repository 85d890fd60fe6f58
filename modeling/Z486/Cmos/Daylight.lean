/-
Daylight saving in the RTC. On the Sunday that the code designates in October the hour after one o'clock is one o'clock
again, and no register tells the second of these hours from the first.
-/
import Z486.Cmos.TimeOfDay
import Z486.Calendar.Walk

namespace Z486.Cmos

open Calendar (Date DateTime daysIn)

/-! ## The calendar with daylight saving -/

/-- The Sunday in April on which the clock is set forward. -/
def SpringSunday (b : ControlB) (d : Date) : Prop :=
  d.dayofweek = 1 ∧ d.month = 4 ∧ if b.binarymode then 24 ≤ d.day else 2 ≤ d.day / 10 ∧ 4 ≤ d.day % 10

/-- The Sunday in October on which it is set back. -/
def AutumnSunday (b : ControlB) (d : Date) : Prop :=
  d.dayofweek = 1 ∧ d.month = 10 ∧ if b.binarymode then 25 ≤ d.day else 2 ≤ d.day / 10 ∧ 5 ≤ d.day % 10

instance (b : ControlB) (d : Date) : Decidable (SpringSunday b d) := inferInstanceAs (Decidable (_ ∧ _ ∧ _))
instance (b : ControlB) (d : Date) : Decidable (AutumnSunday b d) := inferInstanceAs (Decidable (_ ∧ _ ∧ _))

/-- The hour `h` of a day begins. -/
def beginHour (d : Date) (h : Nat) (hh : h < 24) : DateTime where
  toDate := d
  second := 0
  minute := 0
  hour := h
  second_valid := by omega
  minute_valid := by omega
  hour_valid := hh

/-- The second that the RTC has after `d`. -/
def summerNext (b : ControlB) (d : DateTime) : DateTime :=
  if d.endOfHour ∧ d.hour = 1 ∧ SpringSunday b d.toDate then beginHour d.toDate 3 (by omega)
  else if d.endOfHour ∧ d.hour = 1 ∧ AutumnSunday b d.toDate then beginHour d.toDate 1 (by omega)
  else d.next

theorem april_code : ∀ (binary : Bool) (m : Fin 13), (code binary m == 4) = decide (m.val = 4) := by
  decide

theorem october_code : ∀ (binary : Bool) (m : Fin 13), ((binary && code binary m == 10) ||
    (!binary && (code binary m).extractLsb' 4 4 == 1 && (code binary m).extractLsb' 0 4 == 0)) =
      decide (m.val = 10) := by
  decide

theorem spring_code : ∀ (binary : Bool) (n : Fin 32), ((binary && decide (code binary n ≥ 24)) ||
    (!binary && decide ((code binary n).extractLsb' 4 4 ≥ 2) && decide ((code binary n).extractLsb' 0 4 ≥ 4))) =
      if binary then decide (24 ≤ n.val) else decide (2 ≤ n.val / 10 ∧ 4 ≤ n.val % 10) := by
  decide

theorem autumn_code : ∀ (binary : Bool) (n : Fin 32), ((binary && decide (code binary n ≥ 25)) ||
    (!binary && decide ((code binary n).extractLsb' 4 4 ≥ 2) && decide ((code binary n).extractLsb' 0 4 ≥ 5))) =
      if binary then decide (25 ≤ n.val) else decide (2 ≤ n.val / 10 ∧ 5 ≤ n.val % 10) := by
  decide

theorem sunday_code : ∀ (binary : Bool) (n : Fin 8), (code binary n == 1) = decide (n.val = 1) := by
  decide

theorem one_code : ∀ (binary : Bool) (n : Fin 24), (code binary n == 1) = decide (n.val = 1) := by
  decide

section Encode

variable {b : ControlB} (d : DateTime)

theorem dstApril_encode (hdst : b.daylightsaving = true) (h24 : b.hour24 = true) :
    (encode b d).dstApril b = decide (d.hour = 1 ∧ SpringSunday b d.toDate) := by
  have hw := sunday_code b.binarymode ⟨d.dayofweek, by have := d.dayofweek_valid; omega⟩
  have hm := april_code b.binarymode ⟨d.month, by have := d.month_valid; omega⟩
  have hd := spring_code b.binarymode ⟨d.day, by have := d.day_le; omega⟩
  have hh := one_code b.binarymode ⟨d.hour, d.hour_valid⟩
  simp only [Time.dstApril, encode, hourCode, hdst, h24, if_true, hw, hm, hd, hh, SpringSunday]
  rw [Bool.eq_iff_iff]
  rcases Bool.eq_false_or_eq_true b.binarymode with hb | hb <;> simp [hb] <;> tauto

theorem dstOctober_encode (hdst : b.daylightsaving = true) (h24 : b.hour24 = true) :
    (encode b d).dstOctober b = decide (d.hour = 1 ∧ AutumnSunday b d.toDate) := by
  have hw := sunday_code b.binarymode ⟨d.dayofweek, by have := d.dayofweek_valid; omega⟩
  have hm := october_code b.binarymode ⟨d.month, by have := d.month_valid; omega⟩
  have hd := autumn_code b.binarymode ⟨d.day, by have := d.day_le; omega⟩
  have hh := one_code b.binarymode ⟨d.hour, d.hour_valid⟩
  simp only [Time.dstOctober, encode, hourCode, hdst, h24, if_true, hw, hm, hd, hh, AutumnSunday]
  rw [Bool.eq_iff_iff]
  rcases Bool.eq_false_or_eq_true b.binarymode with hb | hb <;> simp [hb] <;> tauto

/-- Register B without daylight saving. -/
def ControlB.standard (b : ControlB) : ControlB := { b with daylightsaving := false }

/-- Away from the two adjustments an update is that of a clock without daylight saving. -/
theorem update_standard (t : Time) (h : t.hourUpdate b = true → t.dstApril b = false ∧ t.dstOctober b = false) :
    t.update b = t.update b.standard := by
  refine Time.ext rfl rfl ?_ rfl rfl rfl rfl rfl
  show (if t.hourUpdate b then t.nextHour b else t.hour) =
    if t.hourUpdate b then t.nextHour b.standard else t.hour
  cases hu : t.hourUpdate b with
  | false => rfl
  | true =>
    obtain ⟨ha, ho⟩ := h hu
    unfold Time.nextHour
    rw [ha, ho]
    rfl

/-- An update that goes from one o'clock to the hour `k`. -/
theorem update_adjusts (h24 : b.hour24 = true) (hend : d.endOfHour) (h1 : d.hour = 1) {k : Nat} (hk : k < 24)
    (hnext : (encode b d).nextHour b = code b.binarymode k) :
    (encode b d).update b = encode b (beginHour d.toDate k hk) := by
  have hmax : (encode b d).maxHour b = false := by
    have hcode := maxHour_code b.binarymode true ⟨d.hour, d.hour_valid⟩ (.inl rfl)
    simp only [h1] at hcode
    refine Eq.trans ?_ (hcode.trans (by decide))
    unfold Time.maxHour
    simp only [encode, h24, h1]
    rfl
  have hday : (encode b d).dayUpdate b = false := by rw [Time.dayUpdate, hmax, Bool.and_false]
  have hmonth : (encode b d).monthUpdate b = false := by rw [Time.monthUpdate, hday, Bool.false_and]
  have hyear : (encode b d).yearUpdate b = false := by rw [Time.yearUpdate, hmonth, Bool.false_and]
  have hcentury : (encode b d).centuryUpdate b = false := by rw [Time.centuryUpdate, hyear, Bool.false_and]
  refine Time.ext ?_ ?_ ?_ ?_ ?_ ?_ ?_ ?_
  · show (encode b d).nextSecond b = code _ 0
    rw [nextSecond_encode, if_pos hend.1]
  · show (if _ then _ else _) = code _ 0
    rw [minuteUpdate_encode, decide_eq_true (show d.endOfMinute from hend.1), if_pos rfl, nextMinute_encode,
      if_pos hend.2]
  · show (if _ then _ else _) = hourCode _ _ k
    rw [hourUpdate_encode, decide_eq_true hend, if_pos rfl, hnext, hourCode, h24, if_pos rfl]
  · simp only [Time.update, hday]
    rfl
  · simp only [Time.update, hday]
    rfl
  · simp only [Time.update, hmonth]
    rfl
  · simp only [Time.update, hyear]
    rfl
  · simp only [Time.update, hcentury]
    rfl

/-- An update with daylight saving. -/
theorem update_encode_summer (hdst : b.daylightsaving = true) (h24 : b.hour24 = true) :
    (encode b d).update b = encode b (summerNext b d) := by
  have ha := dstApril_encode d hdst h24
  have ho := dstOctober_encode d hdst h24
  unfold summerNext
  split
  · rename_i hspring
    refine update_adjusts d h24 hspring.1 hspring.2.1 (by omega) ?_
    rw [Time.nextHour, ha, decide_eq_true hspring.2, if_pos rfl]
    cases b.binarymode <;> rfl
  · rename_i hspring
    split
    · rename_i hautumn
      refine update_adjusts d h24 hautumn.1 hautumn.2.1 (by omega) ?_
      have hno : ¬ (d.hour = 1 ∧ SpringSunday b d.toDate) := fun h => hspring ⟨hautumn.1, h⟩
      rw [Time.nextHour, ha, decide_eq_false hno, ho, decide_eq_true hautumn.2, if_neg (by simp), if_pos rfl]
      cases b.binarymode <;> rfl
    · rename_i hautumn
      rw [update_standard]
      · exact update_encode b.standard d rfl fun hwrong => absurd hwrong.1 (by rw [ControlB.standard, h24]; simp)
      · intro hhour
        rw [hourUpdate_encode, decide_eq_true_eq] at hhour
        rw [ha, ho]
        exact ⟨decide_eq_false fun h => hspring ⟨hhour, h⟩, decide_eq_false fun h => hautumn ⟨hhour, h⟩⟩

end Encode

/-! ## Days -/

section Days

variable (b : ControlB) {d : DateTime}

/-- The hour that the clock does not leave. -/
def Stuck (d : DateTime) : Prop := AutumnSunday b d.toDate ∧ d.hour = 1

theorem AutumnSunday.not_spring {e : Date} (h : AutumnSunday b e) : ¬ SpringSunday b e := by
  intro hs
  have h4 := hs.2.1
  rw [h.2.1] at h4
  omega

/-- The time goes on within the day. -/
theorem next_within (h : ¬ d.endOfDay) : d.next.toDate = d.toDate ∧ d.seconds < d.next.seconds ∧ d.hour ≤ d.next.hour := by
  have hmin := d.minute_valid
  have hsec := d.second_valid
  refine ⟨if_neg h, ?_, ?_⟩
  · unfold DateTime.seconds
    by_cases hs : d.second = 59 <;> by_cases hm : d.minute = 59 <;> by_cases hh : d.hour = 23 <;>
      simp [DateTime.next, DateTime.endOfMinute, DateTime.endOfHour, DateTime.endOfDay, hs, hm, hh] at h ⊢ <;> omega
  · by_cases hs : d.second = 59 <;> by_cases hm : d.minute = 59 <;> by_cases hh : d.hour = 23 <;>
      simp [DateTime.next, DateTime.endOfHour, DateTime.endOfDay, hs, hm, hh] at h ⊢

theorem Stuck.next (h : Stuck b d) : Stuck b (summerNext b d) := by
  obtain ⟨hsunday, hhour⟩ := h
  have hday : ¬ d.endOfDay := fun hend => absurd hend.2.2 (by omega)
  unfold summerNext
  rw [if_neg fun hs => (AutumnSunday.not_spring b hsunday) hs.2.2]
  split
  · exact ⟨hsunday, rfl⟩
  · rename_i hend
    have hno : ¬ d.endOfHour := fun he => hend ⟨he, hhour, hsunday⟩
    refine ⟨by rw [(next_within hday).1]; exact hsunday, ?_⟩
    show (if d.endOfHour then _ else d.hour) = 1
    rw [if_neg hno, hhour]

/-- The clock does not come to the end of its day. -/
def Doomed (d : DateTime) : Prop := AutumnSunday b d.toDate ∧ d.hour ≤ 1

theorem summer_within (h : ¬ d.endOfDay) (hs : ¬ Stuck b d) :
    (summerNext b d).toDate = d.toDate ∧ d.seconds < (summerNext b d).seconds ∧ d.hour ≤ (summerNext b d).hour := by
  unfold summerNext
  split
  · rename_i hspring
    obtain ⟨hend, hhour, -⟩ := hspring
    refine ⟨rfl, ?_, ?_⟩
    · have hmin := d.minute_valid
      have hsec := d.second_valid
      show 3600 * d.hour + 60 * d.minute + d.second < 3600 * 3 + 60 * 0 + 0
      omega
    · show d.hour ≤ 3
      omega
  · rw [if_neg fun ha => hs ⟨ha.2.2, ha.2.1⟩]
    exact next_within h

/-- At its end a day is followed by the next one. -/
theorem summer_midnight (h : d.endOfDay) : summerNext b d = beginHour d.toDate.next 0 (by omega) := by
  obtain ⟨hs, hm, hh⟩ := h
  unfold summerNext
  rw [if_neg (by omega), if_neg (by omega)]
  have hdate : d.next.toDate = d.toDate.next := if_pos ⟨hs, hm, hh⟩
  simp [DateTime.next, DateTime.nextDate, beginHour, DateTime.endOfDay, DateTime.endOfHour, DateTime.endOfMinute, hs,
    hm, hh]

theorem seconds_lt (d : DateTime) : d.seconds < 86400 := by
  have hh := d.hour_valid
  have hm := d.minute_valid
  have hs := d.second_valid
  unfold DateTime.seconds
  omega

/-- A day that the clock comes to the end of. -/
theorem exists_midnight (h : ¬ Doomed b d) : ∃ n, (summerNext b)^[n] d = beginHour d.toDate.next 0 (by omega) := by
  generalize hμ : 86400 - d.seconds = μ
  induction μ using Nat.strong_induction_on generalizing d with
  | _ μ ih =>
    by_cases hend : d.endOfDay
    · exact ⟨1, summer_midnight b hend⟩
    · have hfree : ¬ Stuck b d := fun hs => h ⟨hs.1, hs.2.le⟩
      obtain ⟨hdate, hsec, hhour⟩ := summer_within b hend hfree
      have hlt := seconds_lt (summerNext b d)
      have hon : ¬ Doomed b (summerNext b d) := by
        rintro ⟨hsunday, hle⟩
        rw [hdate] at hsunday
        exact h ⟨hsunday, hhour.trans hle⟩
      obtain ⟨n, hn⟩ := ih (86400 - (summerNext b d).seconds) (by omega) hon rfl
      refine ⟨n + 1, ?_⟩
      rw [Function.iterate_succ_apply, hn]
      simp only [hdate]

/-- From midnight to one o'clock of the designated Sunday. -/
theorem exists_stuck_of_doomed (h : Doomed b d) : ∃ n, Stuck b ((summerNext b)^[n] d) := by
  generalize hμ : 86400 - d.seconds = μ
  induction μ using Nat.strong_induction_on generalizing d with
  | _ μ ih =>
    by_cases hone : d.hour = 1
    · exact ⟨0, h.1, hone⟩
    · have hzero : d.hour = 0 := by have := h.2; omega
      have hend : ¬ d.endOfDay := fun he => absurd he.2.2 (by omega)
      obtain ⟨hdate, hsec, -⟩ := summer_within b hend fun hs => hone hs.2
      have hlt := seconds_lt (summerNext b d)
      have hnext : summerNext b d = d.next := by
        unfold summerNext
        rw [if_neg (fun hs => hone hs.2.1), if_neg (fun hs => hone hs.2.1)]
      have hhour : d.next.hour ≤ 1 := by
        show (if d.endOfHour then if d.hour = 23 then 0 else d.hour + 1 else d.hour) ≤ 1
        rw [hzero]
        split <;> simp
      obtain ⟨n, hn⟩ := ih (86400 - (summerNext b d).seconds) (by omega)
        ⟨by rw [hdate]; exact h.1, by rw [hnext]; exact hhour⟩ rfl
      exact ⟨n + 1, by rwa [Function.iterate_succ_apply]⟩

theorem exists_stuck_of_sunday {k : Nat} (e : Date) (h : AutumnSunday b (Date.next^[k] e)) :
    ∃ n, Stuck b ((summerNext b)^[n] (beginHour e 0 (by omega))) := by
  induction k generalizing e with
  | zero => exact exists_stuck_of_doomed b ⟨h, Nat.zero_le _⟩
  | succ k ih =>
    by_cases hsunday : AutumnSunday b e
    · exact exists_stuck_of_doomed b ⟨hsunday, Nat.zero_le _⟩
    · obtain ⟨m, hm⟩ := exists_midnight b (d := beginHour e 0 (by omega)) fun hd => hsunday hd.1
      rw [Function.iterate_succ_apply] at h
      obtain ⟨n, hn⟩ := ih e.next h
      refine ⟨n + m, ?_⟩
      rw [Function.iterate_add_apply, hm]
      exact hn

/-- From every second on the clock comes to the hour that it does not leave. -/
theorem exists_stuck (d : DateTime) : ∃ n, ∀ m, n ≤ m → Stuck b ((summerNext b)^[m] d) := by
  have hstuck : ∃ n, Stuck b ((summerNext b)^[n] d) := by
    by_cases hd : Doomed b d
    · exact exists_stuck_of_doomed b hd
    · obtain ⟨m, hm⟩ := exists_midnight b hd
      obtain ⟨k, hmonth, hw, hlo, hhi⟩ := d.toDate.next.exists_autumn_sunday
      have hsunday : AutumnSunday b (Date.next^[k] d.toDate.next) := by
        refine ⟨hw, hmonth, ?_⟩
        split
        · exact hlo
        · omega
      obtain ⟨n, hn⟩ := exists_stuck_of_sunday b _ hsunday
      refine ⟨n + m, ?_⟩
      rw [Function.iterate_add_apply, hm]
      exact hn
  obtain ⟨n, hn⟩ := hstuck
  refine ⟨n, fun m hm => ?_⟩
  induction m, hm using Nat.le_induction with
  | base => exact hn
  | succ m _ ih =>
    rw [Function.iterate_succ_apply']
    exact ih.next

end Days

/-! ## Runs -/

namespace RtcRun

variable (r : RtcRun)

/-- The updates of the second before clock `t`. -/
def updates (t : Nat) : Nat := Clocked.pulses (fun u => (r.state u).secondUpdate) 0 t

/-- A run with daylight saving in the format of 24 hours, from `d` on: the time is not written, and the updates do not
end. -/
structure Summer (d : DateTime) : Prop where
  time : r.start.time = encode r.start.crb d
  hour24 : r.start.crb.hour24 = true
  daylightsaving : r.start.crb.daylightsaving = true
  unwritten : ∀ t, (r.state t).Unwritten (r.inputs t)
  endless : ∀ n, ∃ t, n ≤ r.updates t

/-- An update makes it midnight. -/
def Midnight (t : Nat) : Prop :=
  (r.state t).secondUpdate = true ∧ (r.state t).time.hour ≠ 0 ∧ (r.state (t + 1)).time.hour = 0

def NewYear (t : Nat) : Prop := (r.state t).secondUpdate = true ∧ (r.state t).time.yearUpdate (r.state t).crb = true

/-- An update sets the clock back, or forward. -/
def SetsBack (t : Nat) : Prop :=
  (r.state t).secondUpdate = true ∧ (r.state t).time.hourUpdate (r.state t).crb = true ∧
    (r.state t).time.dstOctober (r.state t).crb = true

def SetsForward (t : Nat) : Prop :=
  (r.state t).secondUpdate = true ∧ (r.state t).time.hourUpdate (r.state t).crb = true ∧
    (r.state t).time.dstApril (r.state t).crb = true

/-- A year goes from clock `t` to clock `u`. -/
structure Year (t u : Nat) : Prop where
  lt : t < u
  begins : r.NewYear t
  ends : r.NewYear u
  within : ∀ v, t < v → v < u → ¬ r.NewYear v

/-- The clock makes progress: midnight comes within 25 hours, each year has one adjustment back and one forward, and
every other second is that of a clock without daylight saving. -/
structure Progresses : Prop where
  midnights : ∀ t, ∃ u, t ≤ u ∧ r.Midnight u ∧ r.updates u ≤ r.updates t + 25 * 3600
  back : ∀ t u, r.Year t u → ∃! v, t < v ∧ v < u ∧ r.SetsBack v
  forward : ∀ t u, r.Year t u → ∃! v, t < v ∧ v < u ∧ r.SetsForward v
  others : ∀ t, (r.state t).secondUpdate = true → ¬ r.SetsBack t → ¬ r.SetsForward t →
    (r.state (t + 1)).time = (r.state t).time.update (r.state t).crb.standard

variable {r}

/-- The time in the registers is that of the updates. -/
theorem Summer.time_eq {d : DateTime} (h : r.Summer d) (t : Nat) : (r.state t).crb = r.start.crb ∧
    (r.state t).time = encode r.start.crb ((summerNext r.start.crb)^[r.updates t] d) := by
  induction t with
  | zero => exact ⟨rfl, h.time⟩
  | succ t ih =>
    obtain ⟨hcrb, htime⟩ := ih
    obtain ⟨hnext, hkeep⟩ := (h.unwritten t).time r.fpuPresent
    have hcount : r.updates (t + 1) = r.updates t + if (r.state t).secondUpdate = true then 1 else 0 :=
      Clocked.pulses_succ _ (Nat.zero_le t)
    rw [state_succ, hkeep, hnext, hcount]
    refine ⟨hcrb, ?_⟩
    unfold Rtc.timeUpdate
    split
    · rw [hcrb, htime, Function.iterate_succ_apply', update_encode_summer _ h.daylightsaving h.hour24]
    · exact htime

theorem updates_mono {t u : Nat} (h : t ≤ u) : r.updates t ≤ r.updates u := by
  unfold updates
  rw [Clocked.pulses_add _ (Nat.zero_le t) h]
  omega

/-- In every run the clock comes to an hour that it does not leave. -/
theorem Summer.exists_stuck {d : DateTime} (h : r.Summer d) :
    ∃ t, ∀ u, t ≤ u → (r.state u).time.hour = 1 := by
  obtain ⟨n, hn⟩ := Cmos.exists_stuck r.start.crb d
  obtain ⟨t, ht⟩ := h.endless n
  refine ⟨t, fun u hu => ?_⟩
  have hhour := (hn (r.updates u) (ht.trans (updates_mono hu))).2
  rw [(h.time_eq u).2]
  simp only [encode, hourCode, h.hour24, hhour, if_true, code_one]

/-- There is a last midnight. -/
theorem Summer.midnights_end {d : DateTime} (h : r.Summer d) : ∃ t, ∀ u, t ≤ u → ¬ r.Midnight u := by
  obtain ⟨t, ht⟩ := h.exists_stuck
  refine ⟨t, fun u hu hmid => ?_⟩
  have hzero := hmid.2.2
  rw [ht (u + 1) (by omega)] at hzero
  exact absurd hzero (by decide)

/-- With daylight saving the clock makes progress in no run. -/
theorem Summer.not_progresses {d : DateTime} (h : r.Summer d) : ¬ r.Progresses := by
  intro hprog
  obtain ⟨t, ht⟩ := h.midnights_end
  obtain ⟨u, hu, hmid, -⟩ := hprog.midnights t
  exact ht u hu hmid

/-- The last second of the hour from one o'clock on, on Sunday, the 29th of October 2000. -/
def octoberSunday : DateTime :=
  { leapDay with
    dayofweek := 1
    month := 10
    hour := 1
    dayofweek_valid := by decide
    day_valid := by decide
    month_valid := by decide
    hour_valid := by decide }

/-- A clock of 8192 Hz that nobody reads or writes. -/
def fastRun : RtcRun where
  fpuPresent := true
  start := { ticking { format false true with daylightsaving := true } octoberSunday with clkRate := 8192 }
  inputs _ := { noAccess with clockRate := 8192 }

theorem fastRun_unwritten (t : Nat) : (fastRun.state t).Unwritten (fastRun.inputs t) :=
  ⟨fun _ _ => rfl, rfl⟩

/-- It ticks in every clock. -/
structure Ticks (s : Rtc) : Prop where
  clkRate : s.clkRate = 8192
  sum : s.ce8192hzSum = 0
  ce8192hz : s.ce8192hz = true
  running : s.crb.freeze = false ∧ s.divider = 2

theorem fastRun_ticks (t : Nat) : Ticks (fastRun.state t) := by
  induction t with
  | zero => exact ⟨rfl, rfl, rfl, rfl, rfl⟩
  | succ t ih =>
    rw [state_succ]
    refine ⟨rfl, ?_, ?_, ?_, ih.running.2⟩
    · show (if (fastRun.state t).ce8192hzSum + 8192 ≥ (fastRun.state t).clkRate then _ else _) = 0
      rw [ih.sum, ih.clkRate]
      rfl
    · show decide ((fastRun.state t).ce8192hzSum + 8192 ≥ (fastRun.state t).clkRate) = true
      rw [ih.sum, ih.clkRate]
      rfl
    · exact ih.running.1

theorem Ticks.clockRunning {s : Rtc} (h : Ticks s) : s.clockRunning = true := by
  unfold Rtc.clockRunning
  rw [h.running.1, h.running.2]
  rfl

/-- An update comes when `second_major` has counted down. -/
theorem fastRun_update {n t : Nat} (h : (fastRun.state t).secondMajor.toNat = n) :
    (fastRun.state (t + n)).secondUpdate = true := by
  have hticks := fastRun_ticks t
  induction n generalizing t with
  | zero =>
    have hzero : (fastRun.state t).secondMajor = 0 := BitVec.eq_of_toNat_eq h
    show (_ && _ && _) = true
    rw [Nat.add_zero, hticks.clockRunning, hticks.ce8192hz, hzero]
    rfl
  | succ n ih =>
    have hne : (fastRun.state t).secondMajor ≠ 0 := by bv_omega
    have hdown : (fastRun.state (t + 1)).secondMajor = (fastRun.state t).secondMajor - 1 := by
      rw [state_succ]
      simp only [Rtc.step, hticks.clockRunning, hticks.ce8192hz, if_neg hne]
      rfl
    have hupdate := ih (t := t + 1) (by rw [hdown]; bv_omega) (fastRun_ticks (t + 1))
    rwa [Nat.add_assoc, Nat.add_comm 1 n] at hupdate

theorem fastRun_summer : fastRun.Summer octoberSunday := by
  refine ⟨rfl, rfl, rfl, fastRun_unwritten, fun n => ?_⟩
  induction n with
  | zero => exact ⟨0, Nat.zero_le _⟩
  | succ n ih =>
    obtain ⟨t, ht⟩ := ih
    have hmore := updates_mono (r := fastRun) (Nat.le_add_right t (fastRun.state t).secondMajor.toNat)
    refine ⟨t + (fastRun.state t).secondMajor.toNat + 1, ?_⟩
    rw [updates, Clocked.pulses_succ _ (Nat.zero_le _), if_pos (fastRun_update rfl)]
    have hle := ht.trans hmore
    unfold updates at hle
    omega

theorem fastRun_not_progresses : ¬ fastRun.Progresses := fastRun_summer.not_progresses

/-- A Sunday in October on which the clock is not set back once. -/
theorem october_not_progresses : ¬ ∀ (r : RtcRun) (d : DateTime), r.Summer d → r.Progresses := by
  intro h
  obtain ⟨t, ht⟩ := fastRun_summer.midnights_end
  obtain ⟨u, hu, hmid, -⟩ := (h fastRun octoberSunday fastRun_summer).midnights t
  exact ht u hu hmid

end RtcRun

end Z486.Cmos
