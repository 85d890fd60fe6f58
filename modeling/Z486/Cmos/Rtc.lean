/-
The real-time clock with its CMOS RAM (src/soc/rtc.v, src/common/simple_ram.v). The registers of the time of day and
of the date are kept together, and so are the bits of register B; the increments of these registers differ in their
limits only.
-/
import Z486.Clocked.Run

namespace Z486.Cmos

/-! ## Registers and ports -/

/-- The time of day and the date. -/
@[ext]
structure Time where
  second : BitVec 8
  minute : BitVec 8
  hour : BitVec 8
  dayofweek : BitVec 8
  dayofmonth : BitVec 8
  month : BitVec 8
  year : BitVec 8
  century : BitVec 8
deriving DecidableEq, Repr

/-- Register B. -/
structure ControlB where
  freeze : Bool
  intPeriodicEna : Bool
  intAlarmEna : Bool
  intUpdateEna : Bool
  binarymode : Bool
  hour24 : Bool
  daylightsaving : Bool
deriving DecidableEq, Repr

structure Rtc where
  clkRate : BitVec 28
  ce8192hz : Bool
  ce8192hzSum : BitVec 28
  mgmtExtMemLsb : BitVec 8
  mgmtExtMemMsb : BitVec 8
  mgmtEquipment : BitVec 8
  mgmtChecksum : BitVec 16
  ioReadLast : Bool
  ioReaddata : BitVec 8
  irq : Bool
  secondMajor : BitVec 13
  updateInterrupt : Bool
  time : Time
  alarmSecond : BitVec 8
  alarmMinute : BitVec 8
  alarmHour : BitVec 8
  alarmInterrupt : Bool
  crb : ControlB
  divider : BitVec 3
  periodicRate : BitVec 4
  periodicMajor : BitVec 13
  periodicInterrupt : Bool
  ramAddress : BitVec 7
  ram : BitVec 7 → BitVec 8
  rdaddr : BitVec 7

/-- The inputs of a clock. -/
structure RtcIn where
  rstN : Bool
  ioAddress : Bool
  ioRead : Bool
  ioWrite : Bool
  ioWritedata : BitVec 8
  bootcfg : BitVec 6
  ramSize : BitVec 2
  fpuOff : Bool
  mgmtAddress : BitVec 8
  mgmtWrite : Bool
  mgmtWritedata : BitVec 8
  clockRate : BitVec 28
deriving DecidableEq, Repr

/-! ## The update of the time of day and of the date -/

/-- A register has come to a value: to `n` as a binary number, to the digits `tens` and `ones` as a decimal one. -/
def atLeast (binary : Bool) (r n : BitVec 8) (tens ones : BitVec 4) : Bool :=
  (binary && decide (r ≥ n)) ||
    (!binary && (decide (r.extractLsb' 4 4 > tens) ||
      (r.extractLsb' 4 4 == tens && decide (r.extractLsb' 0 4 ≥ ones))))

/-- The value after `r`, in binary or in decimal digits. -/
def increment (binary : Bool) (r : BitVec 8) : BitVec 8 :=
  if !binary && decide (r.extractLsb' 0 4 ≥ 9) then (r.extractLsb' 4 4 + 1) ++ 0#4 else r + 1

namespace Time

variable (t : Time) (b : ControlB)

def maxSecond : Bool := atLeast b.binarymode t.second 59 5 9
def nextSecond : BitVec 8 := if t.maxSecond b then 0 else increment b.binarymode t.second

def maxMinute : Bool := atLeast b.binarymode t.minute 59 5 9
def nextMinute : BitVec 8 := if t.maxMinute b then 0 else increment b.binarymode t.minute

def dstApril : Bool :=
  b.daylightsaving && t.dayofweek == 1 && t.month == 4 &&
    ((b.binarymode && decide (t.dayofmonth ≥ 24)) ||
      (!b.binarymode && decide (t.dayofmonth.extractLsb' 4 4 ≥ 2) && decide (t.dayofmonth.extractLsb' 0 4 ≥ 4))) &&
    t.hour == 1

def dstOctober : Bool :=
  b.daylightsaving && t.dayofweek == 1 &&
    ((b.binarymode && t.month == 10) ||
      (!b.binarymode && t.month.extractLsb' 4 4 == 1 && t.month.extractLsb' 0 4 == 0)) &&
    ((b.binarymode && decide (t.dayofmonth ≥ 25)) ||
      (!b.binarymode && decide (t.dayofmonth.extractLsb' 4 4 ≥ 2) && decide (t.dayofmonth.extractLsb' 0 4 ≥ 5))) &&
    t.hour == 1

def maxHour : Bool :=
  (!b.hour24 && b.binarymode && t.hour.getLsbD 7 && decide (t.hour.extractLsb' 0 7 ≥ 12)) ||
  (b.hour24 && b.binarymode && decide (t.hour ≥ 23)) ||
  (!b.hour24 && !b.binarymode && t.hour.getLsbD 7 &&
    (decide (t.hour.extractLsb' 4 3 ≥ 2) || (t.hour.extractLsb' 4 3 == 1 && decide (t.hour.extractLsb' 0 4 ≥ 2)))) ||
  (b.hour24 && !b.binarymode &&
    (decide (t.hour.extractLsb' 4 4 ≥ 3) || (t.hour.extractLsb' 4 4 == 2 && decide (t.hour.extractLsb' 0 4 ≥ 3))))

def nextHour : BitVec 8 :=
  if t.dstApril b then 3
  else if t.dstOctober b then 1
  else if !b.hour24 && t.maxHour b then 1
  else if b.hour24 && t.maxHour b then 0
  else if !b.hour24 && b.binarymode && decide (t.hour.extractLsb' 0 7 ≥ 12) then 0x81
  else if !b.hour24 && !b.binarymode && t.hour.extractLsb' 4 3 == 1 && decide (t.hour.extractLsb' 0 4 ≥ 2) then 0x81
  else if !b.hour24 && !b.binarymode && t.hour.extractLsb' 4 3 == 0 && decide (t.hour.extractLsb' 0 4 ≥ 9) then
    t.hour.extractLsb' 7 1 ++ 1#3 ++ 0#4
  else if b.hour24 && !b.binarymode && decide (t.hour.extractLsb' 0 4 ≥ 9) then (t.hour.extractLsb' 4 4 + 1) ++ 0#4
  else t.hour + 1

def maxDayofweek : Bool := decide (t.dayofweek ≥ 7)
def nextDayofweek : BitVec 8 := if t.maxDayofweek then 1 else t.dayofweek + 1

/-- The year is a multiple of four. -/
def leapYear : Bool :=
  (b.binarymode && t.year.extractLsb' 0 2 == 0) ||
    (!b.binarymode && ((t.year.extractLsb' 0 2 == 0 && !t.year.getLsbD 4) ||
      (t.year.extractLsb' 0 2 == 2 && t.year.getLsbD 4)))

/-- The month with the number `n`, or with the digits `bcd`. -/
def isMonth (n bcd : BitVec 8) : Bool := if b.binarymode then t.month == n else t.month == bcd

/-- The day of the month has come to a limit. -/
def dayAtLeast (n : BitVec 8) (tens ones : BitVec 4) : Bool := atLeast b.binarymode t.dayofmonth n tens ones

def maxDayofmonth : Bool :=
  (decide (t.month ≤ 1) && t.dayAtLeast b 31 3 1) ||
  (t.isMonth b 2 0x02 && ((!t.leapYear b && t.dayAtLeast b 28 2 8) || (t.leapYear b && t.dayAtLeast b 29 2 9))) ||
  (t.isMonth b 3 0x03 && t.dayAtLeast b 31 3 1) ||
  (t.isMonth b 4 0x04 && t.dayAtLeast b 30 3 0) ||
  (t.isMonth b 5 0x05 && t.dayAtLeast b 31 3 1) ||
  (t.isMonth b 6 0x06 && t.dayAtLeast b 30 3 0) ||
  (t.isMonth b 7 0x07 && t.dayAtLeast b 31 3 1) ||
  (t.isMonth b 8 0x08 && t.dayAtLeast b 31 3 1) ||
  (t.isMonth b 9 0x09 && t.dayAtLeast b 30 3 0) ||
  (t.isMonth b 10 0x10 && t.dayAtLeast b 31 3 1) ||
  (t.isMonth b 11 0x11 && t.dayAtLeast b 30 3 0) ||
  ((if b.binarymode then decide (t.month ≥ 12) else decide (t.month ≥ 0x12)) && t.dayAtLeast b 31 3 1)

def nextDayofmonth : BitVec 8 := if t.maxDayofmonth b then 1 else increment b.binarymode t.dayofmonth

def maxMonth : Bool := atLeast b.binarymode t.month 12 1 2
def nextMonth : BitVec 8 := if t.maxMonth b then 1 else increment b.binarymode t.month

def maxYear : Bool := atLeast b.binarymode t.year 99 9 9
def nextYear : BitVec 8 := if t.maxYear b then 0 else increment b.binarymode t.year

def maxCentury : Bool := atLeast b.binarymode t.century 99 9 9
def nextCentury : BitVec 8 := if t.maxCentury b then 0 else increment b.binarymode t.century

/-- The carries of an update: of the second into the minute, and so on. -/
def minuteUpdate : Bool := t.maxSecond b
def hourUpdate : Bool := t.minuteUpdate b && t.maxMinute b
def dayUpdate : Bool := t.hourUpdate b && t.maxHour b
def monthUpdate : Bool := t.dayUpdate b && t.maxDayofmonth b
def yearUpdate : Bool := t.monthUpdate b && t.maxMonth b
def centuryUpdate : Bool := t.yearUpdate b && t.maxYear b

/-- The registers after the update of a second. -/
def update : Time where
  second := t.nextSecond b
  minute := if t.minuteUpdate b then t.nextMinute b else t.minute
  hour := if t.hourUpdate b then t.nextHour b else t.hour
  dayofweek := if t.dayUpdate b then t.nextDayofweek else t.dayofweek
  dayofmonth := if t.dayUpdate b then t.nextDayofmonth b else t.dayofmonth
  month := if t.monthUpdate b then t.nextMonth b else t.month
  year := if t.yearUpdate b then t.nextYear b else t.year
  century := if t.centuryUpdate b then t.nextCentury b else t.century

end Time

/-! ## Reads -/

namespace Rtc

variable (fpuPresent : Bool) (s : Rtc) (i : RtcIn)

def clockRunning : Bool := !(s.crb.freeze || s.divider.extractLsb' 1 2 == 3)

def updateInProgress : Bool := s.clockRunning && decide (s.secondMajor ≤ 1)

def secondUpdate : Bool := s.clockRunning && s.ce8192hz && s.secondMajor == 0

/-- The KiB above 1 MB. -/
def configuredExtMem : BitVec 16 :=
  if i.ramSize = 0 then 0x3C00 else if i.ramSize = 1 then 0x7C00 else if i.ramSize = 2 then 0xFC00 else 0xFFFF

/-- The blocks of 64 KB above 16 MB. -/
def configuredExtMem64k : BitVec 16 :=
  if i.ramSize = 0 then 0x0000 else if i.ramSize = 1 then 0x0100 else if i.ramSize = 2 then 0x0300 else 0x0700

def configuredChecksum : BitVec 16 :=
  s.mgmtChecksum + (0#8 ++ (configuredExtMem i).extractLsb' 0 8) + (0#8 ++ (configuredExtMem i).extractLsb' 8 8)
    - (0#8 ++ s.mgmtExtMemLsb) - (0#8 ++ s.mgmtExtMemMsb)

def fpuReported : Bool := fpuPresent && !i.fpuOff

def configuredEquipment : BitVec 8 :=
  s.mgmtEquipment.extractLsb' 3 5 ++ 1#1 ++ BitVec.ofBool (fpuReported fpuPresent i) ++ s.mgmtEquipment.extractLsb' 0 1

def configuredChecksumWithEquipment : BitVec 16 :=
  s.configuredChecksum i + (0#13 ++ 1#1 ++ BitVec.ofBool (fpuReported fpuPresent i) ++ 0#1)
    - (0#13 ++ s.mgmtEquipment.extractLsb' 1 2 ++ 0#1)

def ioReadValid : Bool := i.ioRead && !s.ioReadLast

def ramQ : BitVec 8 := s.ram s.rdaddr

def registerA : BitVec 8 := BitVec.ofBool s.updateInProgress ++ s.divider ++ s.periodicRate

def registerB : BitVec 8 :=
  BitVec.ofBool s.crb.freeze ++ BitVec.ofBool s.crb.intPeriodicEna ++ BitVec.ofBool s.crb.intAlarmEna ++
    BitVec.ofBool s.crb.intUpdateEna ++ 0#1 ++ BitVec.ofBool s.crb.binarymode ++ BitVec.ofBool s.crb.hour24 ++
    BitVec.ofBool s.crb.daylightsaving

def registerC : BitVec 8 :=
  BitVec.ofBool s.irq ++ BitVec.ofBool s.periodicInterrupt ++ BitVec.ofBool s.alarmInterrupt ++
    BitVec.ofBool s.updateInterrupt ++ 0#4

def ioReaddataNext : BitVec 8 :=
  if !i.ioAddress then 0xFF
  else if s.ramAddress = 0x00 then s.time.second
  else if s.ramAddress = 0x01 then s.alarmSecond
  else if s.ramAddress = 0x02 then s.time.minute
  else if s.ramAddress = 0x03 then s.alarmMinute
  else if s.ramAddress = 0x04 then s.time.hour
  else if s.ramAddress = 0x05 then s.alarmHour
  else if s.ramAddress = 0x06 then s.time.dayofweek
  else if s.ramAddress = 0x07 then s.time.dayofmonth
  else if s.ramAddress = 0x08 then s.time.month
  else if s.ramAddress = 0x09 then s.time.year
  else if s.ramAddress = 0x0A then s.registerA
  else if s.ramAddress = 0x0B then s.registerB
  else if s.ramAddress = 0x0C then s.registerC
  else if s.ramAddress = 0x0D then 0x80
  else if s.ramAddress = 0x38 then 0#2 ++ i.bootcfg.extractLsb' 4 2 ++ 1#4
  else if s.ramAddress = 0x3D then 0#2 ++ i.bootcfg.extractLsb' 2 2 ++ 0#2 ++ i.bootcfg.extractLsb' 0 2
  else if s.ramAddress = 0x32 then s.time.century
  else if s.ramAddress = 0x37 then s.time.century
  else if s.ramAddress = 0x14 then s.configuredEquipment fpuPresent i
  else if s.ramAddress = 0x17 then (configuredExtMem i).extractLsb' 0 8
  else if s.ramAddress = 0x18 then (configuredExtMem i).extractLsb' 8 8
  else if s.ramAddress = 0x2E then (s.configuredChecksumWithEquipment fpuPresent i).extractLsb' 8 8
  else if s.ramAddress = 0x2F then (s.configuredChecksumWithEquipment fpuPresent i).extractLsb' 0 8
  else if s.ramAddress = 0x30 then (configuredExtMem i).extractLsb' 0 8
  else if s.ramAddress = 0x31 then (configuredExtMem i).extractLsb' 8 8
  else if s.ramAddress = 0x34 then (configuredExtMem64k i).extractLsb' 0 8
  else if s.ramAddress = 0x35 then (configuredExtMem64k i).extractLsb' 8 8
  else s.ramQ

/-! ## Writes -/

/-- What the host, or else the guest, writes to the register at `a`. -/
def written (a : BitVec 7) : Option (BitVec 8) :=
  if i.mgmtWrite && i.mgmtAddress == 0#1 ++ a then some i.mgmtWritedata
  else if i.ioWrite && i.ioAddress && s.ramAddress == a then some i.ioWritedata
  else none

/-- The guest writes the century at 37h too. -/
def writtenCentury : Option (BitVec 8) :=
  if i.mgmtWrite && i.mgmtAddress == 0x32 then some i.mgmtWritedata
  else if i.ioWrite && i.ioAddress && (s.ramAddress == 0x32 || s.ramAddress == 0x37) then some i.ioWritedata
  else none

/-- A second of the clock, when it is updated. -/
def timeUpdate : Time := if s.secondUpdate then s.time.update s.crb else s.time

def timeNext : Time where
  second := (s.written i 0x00).getD s.timeUpdate.second
  minute := (s.written i 0x02).getD s.timeUpdate.minute
  hour := (s.written i 0x04).getD s.timeUpdate.hour
  dayofweek := (s.written i 0x06).getD s.timeUpdate.dayofweek
  dayofmonth := (s.written i 0x07).getD s.timeUpdate.dayofmonth
  month := (s.written i 0x08).getD s.timeUpdate.month
  year := (s.written i 0x09).getD s.timeUpdate.year
  century := (s.writtenCentury i).getD s.timeUpdate.century

/-- A byte in register B. -/
def crbOf (w : BitVec 8) : ControlB where
  freeze := w.getLsbD 7
  intPeriodicEna := w.getLsbD 6
  intAlarmEna := w.getLsbD 5
  intUpdateEna := !w.getLsbD 7 && w.getLsbD 4
  binarymode := w.getLsbD 2
  hour24 := w.getLsbD 1
  daylightsaving := w.getLsbD 0

/-- What the host writes to the CMOS RAM at `a`. -/
def mgmtWritten (a : BitVec 8) (old : BitVec 8) : BitVec 8 :=
  if i.mgmtWrite && i.mgmtAddress == a then i.mgmtWritedata else old

def ramNext : BitVec 7 → BitVec 8 :=
  if i.mgmtWrite && !i.mgmtAddress.getLsbD 7 then Function.update s.ram (i.mgmtAddress.extractLsb' 0 7) i.mgmtWritedata
  else if i.ioWrite && i.ioAddress then Function.update s.ram s.ramAddress i.ioWritedata
  else s.ram

/-! ## Interrupts -/

/-- The guest reads register C, which clears it. -/
def readsC : Bool := s.ioReadValid i && i.ioAddress && s.ramAddress == 0x0C

def interruptStart : Bool :=
  !s.irq && ((s.crb.intPeriodicEna && s.periodicInterrupt) || (s.crb.intAlarmEna && s.alarmInterrupt) ||
    (s.crb.intUpdateEna && s.updateInterrupt))

/-- The time is that of the alarm; a byte with its two upper bits set is any time. -/
def alarmInterruptActivate : Bool :=
  (s.alarmSecond.extractLsb' 6 2 == 3 || (s.secondUpdate && s.timeUpdate.second == s.alarmSecond)) &&
  (s.alarmMinute.extractLsb' 6 2 == 3 || s.timeUpdate.minute == s.alarmMinute) &&
  (s.alarmHour.extractLsb' 6 2 == 3 || s.timeUpdate.hour == s.alarmHour)

def periodicEnabled : Bool := s.divider.extractLsb' 1 2 != 0 && s.periodicRate != 0

def periodicStart : Bool :=
  s.periodicEnabled && ((s.ce8192hz && s.periodicMajor == 0) || (s.ce8192hz && s.periodicMajor == 1))

/-- One bit for each rate; the rates 1 and 2 are those of 8 and 9. -/
def periodicMajorInitial : BitVec 13 :=
  if s.periodicRate = 0 then 0
  else if s.periodicRate = 1 then 1#13 <<< 5
  else if s.periodicRate = 2 then 1#13 <<< 6
  else 1#13 <<< (s.periodicRate.toNat - 3)

def updateTick : Bool := s.secondUpdate
def alarmTick : Bool := s.secondUpdate && s.alarmInterruptActivate
def periodicTick : Bool := s.periodicEnabled && s.ce8192hz && s.periodicMajor == 1

/-- A flag of register C: a tick sets it, and a read clears it. -/
def flagNext (flag tick : Bool) : Bool :=
  if !i.rstN then false else if s.readsC i then false else if tick then true else flag

/-! ## A clock -/

def step : Rtc where
  clkRate := i.clockRate
  ce8192hz := decide (s.ce8192hzSum + 8192 ≥ s.clkRate)
  ce8192hzSum := if s.ce8192hzSum + 8192 ≥ s.clkRate then s.ce8192hzSum + 8192 - s.clkRate else s.ce8192hzSum + 8192
  mgmtExtMemLsb := mgmtWritten i 0x17 s.mgmtExtMemLsb
  mgmtExtMemMsb := mgmtWritten i 0x18 s.mgmtExtMemMsb
  mgmtEquipment := mgmtWritten i 0x14 s.mgmtEquipment
  mgmtChecksum :=
    mgmtWritten i 0x2E (s.mgmtChecksum.extractLsb' 8 8) ++ mgmtWritten i 0x2F (s.mgmtChecksum.extractLsb' 0 8)
  ioReadLast := if !i.rstN then false else if s.ioReadLast then false else i.ioRead
  ioReaddata := s.ioReaddataNext fpuPresent i
  irq := if !i.rstN then false else if s.readsC i then false else if s.interruptStart then true else s.irq
  secondMajor :=
    if !i.rstN then 8191 else if !s.clockRunning then 8191
    else if s.ce8192hz then if s.secondMajor = 0 then 8191 else s.secondMajor - 1
    else s.secondMajor
  updateInterrupt := s.flagNext i s.updateInterrupt s.updateTick
  time := s.timeNext i
  alarmSecond := (s.written i 0x01).getD s.alarmSecond
  alarmMinute := (s.written i 0x03).getD s.alarmMinute
  alarmHour := (s.written i 0x05).getD s.alarmHour
  alarmInterrupt := s.flagNext i s.alarmInterrupt s.alarmTick
  crb := ((s.written i 0x0B).map crbOf).getD s.crb
  divider := ((s.written i 0x0A).map (·.extractLsb' 4 3)).getD s.divider
  periodicRate := ((s.written i 0x0A).map (·.extractLsb' 0 4)).getD s.periodicRate
  periodicMajor :=
    if !i.rstN then 0 else if !s.periodicEnabled then 0
    else if s.periodicStart then s.periodicMajorInitial
    else if s.periodicEnabled && s.periodicMajor != 0 && s.ce8192hz then s.periodicMajor - 1
    else s.periodicMajor
  periodicInterrupt := s.flagNext i s.periodicInterrupt s.periodicTick
  ramAddress :=
    if !i.rstN then 0 else if i.ioWrite && !i.ioAddress then i.ioWritedata.extractLsb' 0 7 else s.ramAddress
  ram := s.ramNext i
  rdaddr := if i.ioWrite && !i.ioAddress then i.ioWritedata.extractLsb' 0 7 else s.ramAddress

end Rtc

/-! ## Runs -/

structure RtcRun where
  fpuPresent : Bool
  start : Rtc
  inputs : Nat → RtcIn

namespace RtcRun

variable (r : RtcRun)

/-- The registers in clock `t`. -/
def state : Nat → Rtc := Clocked.run (Rtc.step r.fpuPresent) r.start r.inputs

theorem state_succ (t : Nat) : r.state (t + 1) = (r.state t).step r.fpuPresent (r.inputs t) := Clocked.run_succ _ _ _ _

/-- The guest selects a byte of the CMOS RAM. -/
def selects (t : Nat) : Bool := (r.inputs t).ioWrite && !(r.inputs t).ioAddress

/-- The guest selects byte `a` in clock `t` and reads it in clock `u`; it gets `b`. -/
structure GuestReads (a : BitVec 7) (t u : Nat) (b : BitVec 8) : Prop where
  lt : t < u
  select : r.selects t = true ∧ (r.inputs t).ioWritedata.extractLsb' 0 7 = a
  last : ∀ v, t < v → v < u → r.selects v = false
  running : ∀ v, t ≤ v → v < u → (r.inputs v).rstN = true
  read : (r.inputs u).ioRead = true ∧ (r.inputs u).ioAddress = true
  byte : (r.state (u + 1)).ioReaddata = b

variable {r}

/-- A read returns what is selected. -/
theorem GuestReads.selected {a : BitVec 7} {t u : Nat} {b : BitVec 8} (h : r.GuestReads a t u b) :
    (r.state u).ramAddress = a ∧ (r.state u).rdaddr = a := by
  have hsel : ∀ v, t + 1 ≤ v → v ≤ u → (r.state v).ramAddress = a ∧ (r.state v).rdaddr = a := by
    intro v hv
    induction v, hv using Nat.le_induction with
    | base =>
      intro hle
      obtain ⟨hs, ha⟩ := h.select
      have hrst := h.running t le_rfl h.lt
      rw [selects] at hs
      rw [state_succ]
      simp only [Rtc.step, hs, hrst, ha, Bool.not_true, Bool.false_eq_true, if_true, if_false, and_self]
    | succ v hv ih =>
      intro hle
      obtain ⟨hram, hrd⟩ := ih (by omega)
      have hs := h.last v (by omega) (by omega)
      have hrst := h.running v (by omega) (by omega)
      rw [selects] at hs
      rw [state_succ]
      simp only [Rtc.step, hs, hrst, hram, Bool.not_true, Bool.false_eq_true, if_false, and_self]
  exact hsel u h.lt le_rfl

theorem GuestReads.byte_eq {a : BitVec 7} {t u : Nat} {b : BitVec 8} (h : r.GuestReads a t u b) :
    b = (r.state u).ioReaddataNext r.fpuPresent (r.inputs u) := by
  rw [← h.byte, state_succ]
  rfl

end RtcRun

end Z486.Cmos
