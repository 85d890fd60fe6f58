/-
The time of day and the date in the registers of the RTC, in the four formats that register B selects: what an update
makes of the codes of a second, and where it leaves the calendar.
-/
import Z486.Cmos.Rtc
import Z486.Calendar.Date
import Mathlib.Tactic.IntervalCases

namespace Z486.Cmos

open Calendar (Date DateTime daysIn)

/-! ## Codes -/

/-- The code of a number below 100. -/
def code (binary : Bool) (n : Nat) : BitVec 8 := BitVec.ofNat 8 (if binary then n else n / 10 * 16 + n % 10)

/-- The code of an hour: of 24, or of 12 with the flag of the afternoon. Midnight and noon are 12. -/
def hourCode (binary hour24 : Bool) (h : Nat) : BitVec 8 :=
  if hour24 then code binary h
  else (if h < 12 then 0x00 else 0x80) ||| code binary (if h % 12 = 0 then 12 else h % 12)

/-- The registers in the format of register B. -/
def encode (b : ControlB) (d : DateTime) : Time where
  second := code b.binarymode d.second
  minute := code b.binarymode d.minute
  hour := hourCode b.binarymode b.hour24 d.hour
  dayofweek := code b.binarymode d.dayofweek
  dayofmonth := code b.binarymode d.day
  month := code b.binarymode d.month
  year := code b.binarymode d.year
  century := code b.binarymode d.century

/-! ## The registers one by one -/

theorem increment_code : ∀ (binary : Bool) (n : Fin 99), increment binary (code binary n) = code binary (n + 1) := by
  decide

/-- The limits that the registers are compared with. -/
theorem atLeast_code : ∀ m ∈ [12, 28, 29, 30, 31, 59, 99], ∀ (binary : Bool) (n : Fin 100),
    atLeast binary (code binary n) (BitVec.ofNat 8 m) (BitVec.ofNat 4 (m / 10)) (BitVec.ofNat 4 (m % 10)) =
      decide (m ≤ n) := by
  decide

theorem leap_code : ∀ (binary : Bool) (y : Fin 100),
    ((binary && (code binary y).extractLsb' 0 2 == 0) ||
      (!binary && (((code binary y).extractLsb' 0 2 == 0 && !(code binary y).getLsbD 4) ||
        ((code binary y).extractLsb' 0 2 == 2 && (code binary y).getLsbD 4)))) = decide (y.val % 4 = 0) := by
  decide

theorem dayofweek_code : ∀ (binary : Bool) (n : Fin 8), 1 ≤ n.val →
    (if decide (code binary n ≥ 7) then (1 : BitVec 8) else code binary n + 1) =
      code binary (if n.val = 7 then 1 else n + 1) := by
  decide

theorem month_code : ∀ k ∈ [2, 3, 4, 5, 6, 7, 8, 9, 10, 11], ∀ (binary : Bool) (m : Fin 13),
    (if binary then code binary m == BitVec.ofNat 8 k else code binary m == BitVec.ofNat 8 (k / 10 * 16 + k % 10)) =
      decide (m.val = k) := by
  decide

theorem month_code_le : ∀ (binary : Bool) (m : Fin 13), decide (code binary m ≤ 1) = decide (m.val ≤ 1) := by
  decide

theorem month_code_ge : ∀ (binary : Bool) (m : Fin 13),
    (if binary then decide (code binary m ≥ 12) else decide (code binary m ≥ 0x12)) = decide (12 ≤ m.val) := by
  decide

@[simp] theorem code_zero (binary : Bool) : code binary 0 = 0 := by
  cases binary <;> rfl

@[simp] theorem code_one (binary : Bool) : code binary 1 = 1 := by
  cases binary <;> rfl

/-- A register counts up to its limit `m`, and begins again. -/
theorem next_code {m n : Nat} (hm : m ∈ [12, 28, 29, 30, 31, 59, 99]) (binary : Bool) (first : Nat) (h : n ≤ m) :
    (if atLeast binary (code binary n) (BitVec.ofNat 8 m) (BitVec.ofNat 4 (m / 10)) (BitVec.ofNat 4 (m % 10)) then
      code binary first else increment binary (code binary n)) = code binary (if n = m then first else n + 1) := by
  have hle : m ≤ 99 := by
    simp only [List.mem_cons, List.not_mem_nil, or_false] at hm
    omega
  rw [atLeast_code m hm binary ⟨n, by omega⟩]
  rcases Nat.lt_or_eq_of_le h with hlt | rfl
  · have hinc := increment_code binary ⟨n, by omega⟩
    rw [decide_eq_false (by simpa using hlt), if_neg (by simp), hinc, if_neg (by omega)]
  · simp

section Registers

variable (b : ControlB) (d : DateTime)

theorem maxSecond_encode : (encode b d).maxSecond b = decide (d.second = 59) := by
  refine (atLeast_code 59 (by decide) b.binarymode ⟨d.second, by have := d.second_valid; omega⟩).trans ?_
  exact decide_eq_decide.2 (by have := d.second_valid; show 59 ≤ d.second ↔ _; omega)

theorem maxMinute_encode : (encode b d).maxMinute b = decide (d.minute = 59) := by
  refine (atLeast_code 59 (by decide) b.binarymode ⟨d.minute, by have := d.minute_valid; omega⟩).trans ?_
  exact decide_eq_decide.2 (by have := d.minute_valid; show 59 ≤ d.minute ↔ _; omega)

theorem maxMonth_encode : (encode b d).maxMonth b = decide (d.month = 12) := by
  refine (atLeast_code 12 (by decide) b.binarymode ⟨d.month, by have := d.month_valid; omega⟩).trans ?_
  exact decide_eq_decide.2 (by have := d.month_valid; show 12 ≤ d.month ↔ _; omega)

theorem maxYear_encode : (encode b d).maxYear b = decide (d.year = 99) := by
  refine (atLeast_code 99 (by decide) b.binarymode ⟨d.year, d.year_valid⟩).trans ?_
  exact decide_eq_decide.2 (by have := d.year_valid; show 99 ≤ d.year ↔ _; omega)

theorem leapYear_encode : (encode b d).leapYear b = decide (d.year % 4 = 0) :=
  leap_code b.binarymode ⟨d.year, d.year_valid⟩

theorem isMonth_encode {k : Nat} (hk : k ∈ [2, 3, 4, 5, 6, 7, 8, 9, 10, 11]) :
    (encode b d).isMonth b (BitVec.ofNat 8 k) (BitVec.ofNat 8 (k / 10 * 16 + k % 10)) = decide (d.month = k) :=
  month_code k hk b.binarymode ⟨d.month, by have := d.month_valid; omega⟩

theorem dayAtLeast_encode {k : Nat} (hk : k ∈ [12, 28, 29, 30, 31, 59, 99]) :
    (encode b d).dayAtLeast b (BitVec.ofNat 8 k) (BitVec.ofNat 4 (k / 10)) (BitVec.ofNat 4 (k % 10)) =
      decide (k ≤ d.day) :=
  atLeast_code k hk b.binarymode ⟨d.day, by have := d.day_le; omega⟩

theorem maxDayofmonth_encode : (encode b d).maxDayofmonth b = decide d.lastDay := by
  have hmonth := d.month_valid
  have hday := d.day_valid.2
  have hfirst : decide ((encode b d).month ≤ 1) = decide (d.month ≤ 1) :=
    month_code_le b.binarymode ⟨d.month, by omega⟩
  have hlast : (if b.binarymode then decide ((encode b d).month ≥ 12) else decide ((encode b d).month ≥ 0x12)) =
      decide (12 ≤ d.month) := month_code_ge b.binarymode ⟨d.month, by omega⟩
  have h28 : (encode b d).dayAtLeast b 28 2 8 = decide (28 ≤ d.day) := dayAtLeast_encode b d (k := 28) (by decide)
  have h29 : (encode b d).dayAtLeast b 29 2 9 = decide (29 ≤ d.day) := dayAtLeast_encode b d (k := 29) (by decide)
  have h30 : (encode b d).dayAtLeast b 30 3 0 = decide (30 ≤ d.day) := dayAtLeast_encode b d (k := 30) (by decide)
  have h31 : (encode b d).dayAtLeast b 31 3 1 = decide (31 ≤ d.day) := dayAtLeast_encode b d (k := 31) (by decide)
  unfold Time.maxDayofmonth
  rw [leapYear_encode, hfirst, hlast, h28, h29, h30, h31,
    show (encode b d).isMonth b 2 0x02 = _ from isMonth_encode b d (k := 2) (by decide),
    show (encode b d).isMonth b 3 0x03 = _ from isMonth_encode b d (k := 3) (by decide),
    show (encode b d).isMonth b 4 0x04 = _ from isMonth_encode b d (k := 4) (by decide),
    show (encode b d).isMonth b 5 0x05 = _ from isMonth_encode b d (k := 5) (by decide),
    show (encode b d).isMonth b 6 0x06 = _ from isMonth_encode b d (k := 6) (by decide),
    show (encode b d).isMonth b 7 0x07 = _ from isMonth_encode b d (k := 7) (by decide),
    show (encode b d).isMonth b 8 0x08 = _ from isMonth_encode b d (k := 8) (by decide),
    show (encode b d).isMonth b 9 0x09 = _ from isMonth_encode b d (k := 9) (by decide),
    show (encode b d).isMonth b 10 0x10 = _ from isMonth_encode b d (k := 10) (by decide),
    show (encode b d).isMonth b 11 0x11 = _ from isMonth_encode b d (k := 11) (by decide)]
  rw [Bool.eq_iff_iff]
  simp only [Bool.or_eq_true, Bool.and_eq_true, decide_eq_true_eq, Bool.not_eq_true', decide_eq_false_iff_not]
  unfold Date.lastDay
  generalize d.month = m at hmonth hday ⊢
  rcases Classical.em (d.year % 4 = 0) with hleap | hleap
  · obtain ⟨h1, h12⟩ := hmonth
    interval_cases m <;> simp [daysIn, hleap] at hday ⊢ <;> omega
  · obtain ⟨h1, h12⟩ := hmonth
    interval_cases m <;> simp [daysIn, hleap] at hday ⊢ <;> omega

theorem nextSecond_encode : (encode b d).nextSecond b = code b.binarymode (if d.second = 59 then 0 else d.second + 1) := by
  rw [← next_code (m := 59) (by decide) b.binarymode 0 (by have := d.second_valid; omega), code_zero]
  rfl

theorem nextMinute_encode : (encode b d).nextMinute b = code b.binarymode (if d.minute = 59 then 0 else d.minute + 1) := by
  rw [← next_code (m := 59) (by decide) b.binarymode 0 (by have := d.minute_valid; omega), code_zero]
  rfl

theorem nextDayofweek_encode : (encode b d).nextDayofweek =
    code b.binarymode (if d.dayofweek = 7 then 1 else d.dayofweek + 1) :=
  dayofweek_code b.binarymode ⟨d.dayofweek, by have := d.dayofweek_valid; omega⟩ d.dayofweek_valid.1

theorem nextDayofmonth_encode : (encode b d).nextDayofmonth b =
    code b.binarymode (if d.lastDay then 1 else d.day + 1) := by
  have hday := d.day_le
  unfold Time.nextDayofmonth
  rw [maxDayofmonth_encode]
  by_cases h : d.lastDay
  · simp [h]
  · simp only [h, decide_false, Bool.false_eq_true, if_false]
    exact increment_code b.binarymode ⟨d.day, by omega⟩

theorem nextMonth_encode : (encode b d).nextMonth b = code b.binarymode (if d.month = 12 then 1 else d.month + 1) := by
  rw [← next_code (m := 12) (by decide) b.binarymode 1 d.month_valid.2, code_one]
  rfl

theorem nextYear_encode : (encode b d).nextYear b = code b.binarymode (if d.year = 99 then 0 else d.year + 1) := by
  rw [← next_code (m := 99) (by decide) b.binarymode 0 (by have := d.year_valid; omega), code_zero]
  rfl

theorem nextCentury_encode : (encode b d).nextCentury b =
    code b.binarymode (if d.century = 99 then 0 else d.century + 1) := by
  rw [← next_code (m := 99) (by decide) b.binarymode 0 (by have := d.century_valid; omega), code_zero]
  rfl

end Registers

/-! ## Hours -/

/-- The hours that are not followed by the next one in the format of 12 hours. -/
def turningHours : List Nat := [0, 11, 12, 23]

/-- The end of an hour whose successor has another code than the one it is given. -/
def TurnsWrong (b : ControlB) (d : DateTime) : Prop :=
  b.hour24 = false ∧ d.second = 59 ∧ d.minute = 59 ∧ d.hour ∈ turningHours

instance (b : ControlB) (d : DateTime) : Decidable (TurnsWrong b d) := inferInstanceAs (Decidable (_ ∧ _))

/-- Registers with an hour in them. -/
def atHour (h : BitVec 8) : Time := ⟨0, 0, h, 0, 0, 0, 0, 0⟩

/-- Register B with a format in it. -/
def format (binary hour24 : Bool) : ControlB := ⟨false, false, false, false, binary, hour24, false⟩

theorem nextHour_code : ∀ (binary hour24 : Bool) (h : Fin 24),
    (atHour (hourCode binary hour24 h)).nextHour (format binary hour24) =
      hourCode binary hour24 (if h.val = 23 then 0 else h + 1) ↔ (hour24 = true ∨ h.val ∉ turningHours) := by
  decide

theorem maxHour_code : ∀ (binary hour24 : Bool) (h : Fin 24), (hour24 = true ∨ h.val ∉ turningHours) →
    (atHour (hourCode binary hour24 h)).maxHour (format binary hour24) = decide (h.val = 23) := by
  decide

section Update

variable (b : ControlB) (d : DateTime)

/-- Without daylight saving the next hour is one of the hour and of the format alone. -/
theorem nextHour_standard (t : Time) (h : b.daylightsaving = false) :
    t.nextHour b = (atHour t.hour).nextHour (format b.binarymode b.hour24) := by
  unfold Time.nextHour Time.dstApril Time.dstOctober
  rw [h]
  rfl

theorem nextHour_encode (h : b.daylightsaving = false) :
    (encode b d).nextHour b = hourCode b.binarymode b.hour24 (if d.hour = 23 then 0 else d.hour + 1) ↔
      (b.hour24 = true ∨ d.hour ∉ turningHours) := by
  rw [nextHour_standard b _ h]
  exact nextHour_code b.binarymode b.hour24 ⟨d.hour, d.hour_valid⟩

theorem minuteUpdate_encode : (encode b d).minuteUpdate b = decide d.endOfMinute := maxSecond_encode b d

theorem hourUpdate_encode : (encode b d).hourUpdate b = decide d.endOfHour := by
  rw [Time.hourUpdate, minuteUpdate_encode, maxMinute_encode, ← Bool.decide_and]
  rfl

/-- The carries into the date, at an hour that does not turn wrong. -/
theorem dayUpdate_encode (h : ¬ TurnsWrong b d) : (encode b d).dayUpdate b = decide d.endOfDay := by
  rw [Time.dayUpdate, hourUpdate_encode]
  by_cases hend : d.endOfHour
  · have hok : b.hour24 = true ∨ d.hour ∉ turningHours := by
      by_contra hno
      push Not at hno
      exact h ⟨by simpa using hno.1, hend.1, hend.2, hno.2⟩
    rw [show (encode b d).maxHour b = decide (d.hour = 23) from
      maxHour_code b.binarymode b.hour24 ⟨d.hour, d.hour_valid⟩ hok, ← Bool.decide_and]
    exact decide_eq_decide.2 ⟨fun hb => ⟨hb.1.1, hb.1.2, hb.2⟩, fun hb => ⟨⟨hb.1, hb.2.1⟩, hb.2.2⟩⟩
  · have hday : ¬ d.endOfDay := fun hb => hend ⟨hb.1, hb.2.1⟩
    simp [hend, hday]

theorem monthUpdate_encode (h : ¬ TurnsWrong b d) :
    (encode b d).monthUpdate b = decide (d.endOfDay ∧ d.lastDay) := by
  rw [Time.monthUpdate, dayUpdate_encode b d h, maxDayofmonth_encode, ← Bool.decide_and]

theorem yearUpdate_encode (h : ¬ TurnsWrong b d) :
    (encode b d).yearUpdate b = decide ((d.endOfDay ∧ d.lastDay) ∧ d.month = 12) := by
  rw [Time.yearUpdate, monthUpdate_encode b d h, maxMonth_encode, ← Bool.decide_and]

theorem centuryUpdate_encode (h : ¬ TurnsWrong b d) :
    (encode b d).centuryUpdate b = decide (((d.endOfDay ∧ d.lastDay) ∧ d.month = 12) ∧ d.year = 99) := by
  rw [Time.centuryUpdate, yearUpdate_encode b d h, maxYear_encode, ← Bool.decide_and]

/-- An update leaves the code of the next second, unless the hour turns wrong. -/
theorem update_encode (hstd : b.daylightsaving = false) (h : ¬ TurnsWrong b d) :
    (encode b d).update b = encode b d.next := by
  have hday := dayUpdate_encode b d h
  have hmonth := monthUpdate_encode b d h
  have hyear := yearUpdate_encode b d h
  have hcentury := centuryUpdate_encode b d h
  refine Time.ext ?_ ?_ ?_ ?_ ?_ ?_ ?_ ?_
  · exact nextSecond_encode b d
  · show (if _ then _ else _) = code _ (if _ then _ else _)
    rw [minuteUpdate_encode, nextMinute_encode]
    by_cases hend : d.endOfMinute <;> simp [hend, encode]
  · show (if _ then _ else _) = hourCode _ _ (if _ then _ else _)
    rw [hourUpdate_encode]
    by_cases hend : d.endOfHour
    · have hok : b.hour24 = true ∨ d.hour ∉ turningHours := by
        by_contra hno
        push Not at hno
        exact h ⟨by simpa using hno.1, hend.1, hend.2, hno.2⟩
      simp only [hend, decide_true, if_true]
      exact (nextHour_encode b d hstd).2 hok
    · simp [hend, encode]
  · show (if _ then _ else _) = code _ d.nextDate.dayofweek
    rw [hday, nextDayofweek_encode]
    by_cases hend : d.endOfDay <;> simp [hend, DateTime.nextDate, Date.next, encode]
  · show (if _ then _ else _) = code _ d.nextDate.day
    rw [hday, nextDayofmonth_encode]
    by_cases hend : d.endOfDay <;> simp [hend, DateTime.nextDate, Date.next, encode]
  · show (if _ then _ else _) = code _ d.nextDate.month
    rw [hmonth, nextMonth_encode]
    by_cases hend : d.endOfDay <;> by_cases hlast : d.lastDay <;>
      simp [hend, hlast, DateTime.nextDate, Date.next, encode]
  · show (if _ then _ else _) = code _ d.nextDate.year
    rw [hyear, nextYear_encode]
    by_cases hend : d.endOfDay <;> by_cases hlast : d.lastDay ∧ d.month = 12 <;>
      simp [hend, hlast, DateTime.nextDate, Date.next, encode]
  · show (if _ then _ else _) = code _ d.nextDate.century
    rw [hcentury, nextCentury_encode]
    by_cases hend : d.endOfDay <;> by_cases hlast : d.lastDay ∧ d.month = 12 ∧ d.year = 99 <;>
      simp [hend, hlast, and_assoc, DateTime.nextDate, Date.next, encode]

/-- An hour that turns wrong has another code than that of the next hour. -/
theorem update_encode_ne (hstd : b.daylightsaving = false) (h : TurnsWrong b d) :
    (encode b d).update b ≠ encode b d.next := by
  obtain ⟨h12, hsec, hmin, hhour⟩ := h
  have hend : d.endOfHour := ⟨hsec, hmin⟩
  intro heq
  have hfield : (if (encode b d).hourUpdate b then (encode b d).nextHour b else (encode b d).hour) =
      hourCode b.binarymode b.hour24 (if d.endOfHour then if d.hour = 23 then 0 else d.hour + 1 else d.hour) :=
    congrArg Time.hour heq
  rw [hourUpdate_encode, decide_eq_true hend, if_pos rfl, if_pos hend, nextHour_encode b d hstd, h12] at hfield
  simp [hhour] at hfield

end Update

/-! ## An update in the RTC -/

/-- Neither the host nor the guest writes a register of the time, or register B. -/
structure Rtc.Unwritten (s : Rtc) (i : RtcIn) : Prop where
  registers : ∀ a ∈ [0x00, 0x02, 0x04, 0x06, 0x07, 0x08, 0x09, 0x0B], s.written i a = none
  century : s.writtenCentury i = none

/-- The second is updated, without daylight saving. -/
structure Rtc.Updates (s : Rtc) (i : RtcIn) : Prop extends s.Unwritten i where
  second : s.secondUpdate = true
  standard : s.crb.daylightsaving = false

theorem Rtc.Unwritten.time {s : Rtc} {i : RtcIn} (h : s.Unwritten i) (fpuPresent : Bool) :
    (s.step fpuPresent i).time = s.timeUpdate ∧ (s.step fpuPresent i).crb = s.crb := by
  have hw := h.registers
  simp only [List.forall_mem_cons, List.not_mem_nil, false_implies, implies_true, and_true] at hw
  obtain ⟨h0, h2, h4, h6, h7, h8, h9, hb⟩ := hw
  simp only [Rtc.step, Rtc.timeNext, h.century, h0, h2, h4, h6, h7, h8, h9, hb, Option.getD_none, Option.map_none,
    and_self]

/-- The RTC leaves the code of the next second in the same format if and only if the hour does not turn wrong. -/
theorem Rtc.Updates.encodes_iff {s : Rtc} {i : RtcIn} {d : DateTime} (h : s.Updates i) (ht : s.time = encode s.crb d)
    (fpuPresent : Bool) :
    ((s.step fpuPresent i).time = encode s.crb d.next ∧ (s.step fpuPresent i).crb = s.crb) ↔ ¬ TurnsWrong s.crb d := by
  obtain ⟨htime, hcrb⟩ := h.time fpuPresent
  rw [Rtc.timeUpdate, h.second, if_pos rfl] at htime
  rw [htime, ht]
  constructor
  · rintro ⟨heq, -⟩ hwrong
    exact update_encode_ne _ _ h.standard hwrong heq
  · intro hright
    exact ⟨update_encode _ _ h.standard hright, hcrb⟩

/-- The RTC with a time in it, when its second is updated. -/
def ticking (b : ControlB) (d : DateTime) : Rtc :=
  { clkRate := 0, ce8192hz := true, ce8192hzSum := 0
    mgmtExtMemLsb := 0, mgmtExtMemMsb := 0x3C, mgmtEquipment := 0, mgmtChecksum := 0
    ioReadLast := false, ioReaddata := 0, irq := false, secondMajor := 0, updateInterrupt := false
    time := encode b d, alarmSecond := 0, alarmMinute := 0, alarmHour := 0, alarmInterrupt := false
    crb := b, divider := 2, periodicRate := 0, periodicMajor := 0
    periodicInterrupt := false, ramAddress := 0, ram := fun _ => 0, rdaddr := 0 }

/-- A clock without reads or writes. -/
def noAccess : RtcIn :=
  { rstN := true, ioAddress := true, ioRead := false, ioWrite := false, ioWritedata := 0, bootcfg := 0
    ramSize := 0, fpuOff := false, mgmtAddress := 0, mgmtWrite := false, mgmtWritedata := 0, clockRate := 90000000 }

/-- The last second of Tuesday, the 29th of February 2000. -/
def leapDay : DateTime where
  dayofweek := 3
  day := 29
  month := 2
  year := 0
  century := 20
  second := 59
  minute := 59
  hour := 23
  dayofweek_valid := by decide
  day_valid := by decide
  month_valid := by decide
  year_valid := by decide
  century_valid := by decide
  second_valid := by decide
  minute_valid := by decide
  hour_valid := by decide

theorem leapDay_encodes : let s := ticking (format false true) leapDay
    (s.step true noAccess).time = encode s.crb leapDay.next ∧ (s.step true noAccess).crb = s.crb :=
  (Rtc.Updates.encodes_iff (s := ticking (format false true) leapDay) (d := leapDay)
    ⟨⟨by decide, rfl⟩, rfl, rfl⟩ rfl true).2 (by decide)

/-- In the format of 12 hours 11:59:59 in the evening is followed by noon of the same day. -/
theorem evening_not_encodes : ¬ ∀ (s : Rtc) (i : RtcIn) (d : DateTime), s.Updates i → s.time = encode s.crb d →
    (s.step true i).time = encode s.crb d.next := by
  intro h
  have heq := h (ticking (format false false) leapDay) noAccess leapDay ⟨⟨by decide, rfl⟩, rfl, rfl⟩ rfl
  revert heq
  decide

end Z486.Cmos
