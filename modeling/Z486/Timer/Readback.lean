/-
Reading the 8254 back. To the processor the port of a counter is a store: a latched status, then the bytes of a latched
count, then the live count. The counter keeps that store in two latches and a flip-flop, and it keeps it faithfully as
long as no status is read while a count is latched, unless two bytes of the count are still to come.
-/
import Z486.Timer.Counts

namespace Z486.Timer

open Clocked

/-! ## What the port is for -/

/-- What a counter has in store for the next reads: a status, the bytes of a count, and whether a count that is not
latched goes on with its high byte. -/
structure Readback where
  status : Option (BitVec 8)
  count : List (BitVec 8)
  msb : Bool

namespace PitCounter

variable (s : PitCounter)

/-- The bytes of a count that are to be read in the access mode of the counter. -/
def bytes (msb : Bool) (v : BitVec 16) : List (BitVec 8) :=
  if s.rwMode == 2 || msb then [v.extractLsb' 8 8]
  else if s.rwMode == 3 then [v.extractLsb' 0 8, v.extractLsb' 8 8] else [v.extractLsb' 0 8]

/-- The byte of the live count that comes next. -/
def liveByte (msb : Bool) (v : BitVec 16) : BitVec 8 :=
  if s.rwMode == 2 || msb then v.extractLsb' 8 8 else v.extractLsb' 0 8

end PitCounter

/-- A clock: a control word empties the store, a latch command puts the count or the status of this clock into it when
there is none yet, and the end of a read takes out what has been read. -/
def Readback.step (p : Readback) (s : PitCounter) (i : PitIn) : Readback :=
  if i.setControlMode then ⟨none, [], false⟩
  else
    { status :=
        if i.latchStatus then some (p.status.getD s.statusByte) else if s.readDone i then none else p.status
      count :=
        if i.latchCount then (if p.count.isEmpty then s.bytes p.msb s.counter else p.count)
        else if s.readDone i && p.status.isNone then p.count.tail else p.count
      msb := if s.readDone i && p.status.isNone && s.rwMode == 3 then !p.msb else p.msb }

/-! ## Runs -/

/-- The processor accesses the counter. -/
def PitIn.access (i : PitIn) : Bool := i.setControlMode || i.latchCount || i.latchStatus || i.write || i.read

/-- A run in which nothing is latched at first. The strobes are those of the I/O bus: of one clock, one at a time, and
with two clocks behind a read. -/
structure ReadbackRun extends PitRun where
  running : ∀ t, (inputs t).rstN = true
  unlatched : start.statusLatched = false ∧ start.outputLatched = false ∧ start.readLast = false
  follows : start.outputM ++ start.outputL = start.counter
  single : ∀ t, (inputs t).read = true →
    (inputs t).setControlMode = false ∧ (inputs t).latchCount = false ∧ (inputs t).latchStatus = false
  apart : ∀ t, (inputs t).access = true → (inputs (t + 1)).access = false
  apart2 : ∀ t, (inputs t).read = true → (inputs (t + 2)).access = false

namespace ReadbackRun

variable (r : ReadbackRun)

/-- The store in clock `t`. -/
def store : Nat → Readback
  | 0 => ⟨none, [], r.start.readSeqMsb⟩
  | t + 1 => (store t).step (r.state t) (r.inputs t)

/-- The byte that is due to a read in clock `t`; the live count is that of the clock before. -/
def due (t : Nat) : BitVec 8 :=
  match (r.store t).status, (r.store t).count with
  | some b, _ => b
  | none, b :: _ => b
  | none, [] => (r.state t).liveByte (r.store t).msb (r.state (t - 1)).counter

/-- Every read returns the byte that is due. -/
def Reads : Prop := ∀ t, (r.inputs t).read = true → (r.state t).dataOut = r.due t

/-- No status is read while a count is latched, unless both bytes of the count are to come. -/
def Kept : Prop := ∀ t, (r.inputs t).read = true → (r.state t).statusLatched = true →
  (r.state t).outputLatched = true → (r.state t).rwMode = 3 ∧ (r.state t).readSeqMsb = false

/-- The latches hold the store. -/
structure Tracks (p : Readback) (s : PitCounter) : Prop where
  msb : p.msb = s.readSeqMsb
  status : p.status = if s.statusLatched then some s.status else none
  count : p.count = if s.outputLatched then s.bytes s.readSeqMsb (s.outputM ++ s.outputL) else []

end ReadbackRun

/-! ## A clock of the latches -/

namespace PitCounter

variable {s : PitCounter} {i : PitIn}

theorem append_bytes (m l : BitVec 8) : (m ++ l).extractLsb' 8 8 = m ∧ (m ++ l).extractLsb' 0 8 = l :=
  ⟨BitVec.extractLsb'_append_eq_left, BitVec.extractLsb'_append_eq_right⟩

theorem split_bytes (v : BitVec 16) : v.extractLsb' 8 8 ++ v.extractLsb' 0 8 = v := by
  refine BitVec.eq_of_getLsbD_eq fun n hn => ?_
  rw [BitVec.getLsbD_append]
  by_cases hlow : n < 8
  · rw [if_pos hlow, BitVec.getLsbD_extractLsb', decide_eq_true hlow, Bool.true_and, Nat.zero_add]
  · rw [if_neg hlow, BitVec.getLsbD_extractLsb', decide_eq_true (show n - 8 < 8 by omega), Bool.true_and]
    congr 1
    omega

section Clock

variable (hr : i.rstN = true) (hc : i.setControlMode = false)
include hr

theorem output_step : (s.step i).outputM ++ (s.step i).outputL =
    if s.outputLatched then s.outputM ++ s.outputL else s.counter := by
  have hm : (s.step i).outputM = if s.outputLatched then s.outputM else s.counter.extractLsb' 8 8 := by
    show (if !i.rstN then 0 else if !s.outputLatched then _ else _) = _
    rw [hr]
    cases s.outputLatched <;> rfl
  have hl : (s.step i).outputL = if s.outputLatched then s.outputL else s.counter.extractLsb' 0 8 := by
    show (if !i.rstN then 0 else if !s.outputLatched then _ else _) = _
    rw [hr]
    cases s.outputLatched <;> rfl
  rw [hm, hl]
  cases s.outputLatched
  · exact split_bytes s.counter
  · rfl

include hc

theorem rwMode_step : (s.step i).rwMode = s.rwMode := by
  show (if !i.rstN then _ else if i.setControlMode then _ else s.rwMode) = _
  rw [hr, hc]
  rfl

theorem readSeqMsb_step : (s.step i).readSeqMsb =
    if s.readDone i && !s.statusLatched && s.rwMode == 3 then !s.readSeqMsb else s.readSeqMsb := by
  show (if !i.rstN || i.setControlMode then false
    else if s.readDone i && s.rwMode == 3 && !s.statusLatched then _ else _) = _
  rw [hr, hc, Bool.and_right_comm]
  rfl

theorem statusLatched_step : (s.step i).statusLatched =
    if i.latchStatus then true else if s.readDone i then false else s.statusLatched := by
  show (if !i.rstN || i.setControlMode then false else _) = _
  rw [hr, hc]
  rfl

theorem outputLatched_step : (s.step i).outputLatched =
    if i.latchCount then true else if s.readSeqDone i then false else s.outputLatched := by
  show (if !i.rstN || i.setControlMode then false else _) = _
  rw [hr, hc]
  rfl

theorem bytes_step (msb : Bool) (v : BitVec 16) : (s.step i).bytes msb v = s.bytes msb v := by
  rw [bytes, bytes, rwMode_step hr hc]

omit hc in
theorem status_step : (s.step i).status = if i.latchStatus && !s.statusLatched then s.statusByte else s.status := by
  show (if !i.rstN then 0 else _) = _
  rw [hr]
  rfl

end Clock

end PitCounter

theorem PitCounter.bytes_isEmpty (s : PitCounter) (msb : Bool) (v : BitVec 16) : (s.bytes msb v).isEmpty = false := by
  unfold PitCounter.bytes
  split_ifs <;> rfl

namespace ReadbackRun

variable {s : PitCounter} {i : PitIn} {p : Readback}

/-- A clock in which no read ends. -/
theorem Tracks.step_idle (h : Tracks p s) (hr : i.rstN = true) (hdone : s.readDone i = false) :
    Tracks (p.step s i) (s.step i) := by
  cases hc : i.setControlMode with
  | true =>
    have hmsb : (s.step i).readSeqMsb = false := by
      show (if !i.rstN || i.setControlMode then false else _) = _
      rw [hc, Bool.or_true]
      rfl
    have hstatus : (s.step i).statusLatched = false := by
      show (if !i.rstN || i.setControlMode then false else _) = _
      rw [hc, Bool.or_true]
      rfl
    have hcount : (s.step i).outputLatched = false := by
      show (if !i.rstN || i.setControlMode then false else _) = _
      rw [hc, Bool.or_true]
      rfl
    rw [Readback.step, hc, if_pos rfl]
    exact ⟨hmsb.symm, by rw [hstatus]; rfl, by rw [hcount]; rfl⟩
  | false =>
    have hmsb := PitCounter.readSeqMsb_step (s := s) hr hc
    have hseq : s.readSeqDone i = false := by rw [PitCounter.readSeqDone, hdone]; rfl
    rw [hdone, Bool.false_and, Bool.false_and, if_neg (by simp)] at hmsb
    rw [Readback.step, hc, if_neg (by simp)]
    constructor
    · rw [hmsb, hdone]
      exact h.msb
    · show (if i.latchStatus then some (p.status.getD s.statusByte) else if s.readDone i then none else p.status) = _
      rw [PitCounter.statusLatched_step hr hc, PitCounter.status_step hr, hdone, h.status]
      cases i.latchStatus <;> cases s.statusLatched <;> rfl
    · show (if i.latchCount then (if p.count.isEmpty then s.bytes p.msb s.counter else p.count)
        else if s.readDone i && p.status.isNone then p.count.tail else p.count) = _
      rw [PitCounter.outputLatched_step hr hc, PitCounter.output_step hr, PitCounter.bytes_step hr hc, hmsb, hdone,
        hseq, h.count, h.msb, Bool.false_and]
      cases s.outputLatched with
      | false => cases i.latchCount <;> rfl
      | true =>
        rw [if_pos rfl, PitCounter.bytes_isEmpty]
        cases i.latchCount <;> rfl

/-- The end of a read. -/
theorem Tracks.step_done (h : Tracks p s) (hr : i.rstN = true) (hdone : s.readDone i = true)
    (hidle : i.setControlMode = false ∧ i.latchCount = false ∧ i.latchStatus = false)
    (hkept : s.statusLatched = true → s.outputLatched = true → s.rwMode = 3 ∧ s.readSeqMsb = false) :
    Tracks (p.step s i) (s.step i) := by
  obtain ⟨hc, hcount, hstatus⟩ := hidle
  have hmsb' := PitCounter.readSeqMsb_step (s := s) hr hc
  have hstatus' := PitCounter.statusLatched_step (s := s) hr hc
  have hcount' := PitCounter.outputLatched_step (s := s) hr hc
  have hbytes := PitCounter.output_step (s := s) hr
  rw [hstatus, if_neg (by simp), hdone, if_pos rfl] at hstatus'
  rw [hcount, if_neg (by simp), PitCounter.readSeqDone, hdone, Bool.true_and] at hcount'
  rw [hdone, Bool.true_and] at hmsb'
  rw [Readback.step, hc, if_neg (by simp), hstatus, hcount, hdone, if_neg (by simp), if_pos rfl, if_neg (by simp),
    Bool.true_and]
  cases hs : s.statusLatched with
  | true =>
    -- the status has been read, and a latched count stays
    have hp : p.status.isNone = false := by rw [h.status, hs]; rfl
    rw [hs, Bool.not_true, Bool.false_and, if_neg (by simp)] at hmsb'
    constructor
    · rw [hp, hmsb']
      exact h.msb
    · rw [hstatus']
      rfl
    · show (if p.status.isNone then p.count.tail else p.count) = _
      rw [hp, if_neg (by simp), hcount', hbytes, PitCounter.bytes_step hr hc, hmsb', h.count]
      cases ho : s.outputLatched with
      | false =>
        rw [ite_self]
        rfl
      | true =>
        obtain ⟨hrw, hm⟩ := hkept hs ho
        rw [hrw, hm]
        rfl
  | false =>
    have hp : p.status.isNone = true := by rw [h.status, hs]; rfl
    rw [hs, Bool.not_false, Bool.true_and] at hmsb'
    constructor
    · show (if p.status.isNone && s.rwMode == 3 then !p.msb else p.msb) = _
      rw [hp, Bool.true_and, hmsb', h.msb]
    · rw [hstatus']
      rfl
    · show (if p.status.isNone then p.count.tail else p.count) = _
      rw [hp, if_pos rfl, hcount', hbytes, PitCounter.bytes_step hr hc, hmsb', h.count]
      cases ho : s.outputLatched with
      | false =>
        rw [ite_self]
        rfl
      | true =>
        rw [if_pos rfl, if_pos rfl, PitCounter.bytes, PitCounter.bytes]
        cases hm : s.readSeqMsb <;> cases h2 : s.rwMode == 2 <;> cases h3 : s.rwMode == 3 <;>
          simp_all [bne]

variable {r : ReadbackRun} {t : Nat}

theorem read_access (h : (r.inputs t).read = true) : (r.inputs t).access = true := by
  rw [PitIn.access, h, Bool.or_true]

theorem quiet_of_not_access (h : (r.inputs t).access = false) :
    (r.inputs t).setControlMode = false ∧ (r.inputs t).latchCount = false ∧ (r.inputs t).latchStatus = false ∧
      (r.inputs t).read = false := by
  unfold PitIn.access at h
  simp only [Bool.or_eq_false_iff] at h
  exact ⟨h.1.1.1.1, h.1.1.1.2, h.1.1.2, h.2⟩

theorem readLast_succ (t : Nat) : (r.state (t + 1)).readLast = (r.inputs t).read := by
  rw [PitRun.state_succ]
  rfl

/-- A read ends in the clock behind its strobe, in which nothing else comes. -/
theorem read_of_done (h : (r.state t).readDone (r.inputs t) = true) :
    ∃ u, t = u + 1 ∧ (r.inputs u).read = true ∧ (r.inputs t).access = false := by
  have hlast := (Bool.and_eq_true_iff.1 h).1
  cases t with
  | zero =>
    have hno : r.start.readLast = true := hlast
    rw [r.unlatched.2.2] at hno
    cases hno
  | succ u =>
    rw [readLast_succ] at hlast
    exact ⟨u, rfl, hlast, r.apart u (read_access hlast)⟩

/-- No read ends in the clock of a strobe. -/
theorem not_done_of_access (h : (r.inputs t).access = true) : (r.state t).readDone (r.inputs t) = false := by
  by_contra hdone
  rw [Bool.not_eq_false] at hdone
  obtain ⟨u, -, -, hno⟩ := read_of_done hdone
  rw [h] at hno
  cases hno

/-- As long as no latched count is lost the latches hold the store. -/
theorem tracks (hk : r.Kept) (t : Nat) : Tracks (r.store t) (r.state t) := by
  induction t with
  | zero =>
    obtain ⟨hstatus, hcount, -⟩ := r.unlatched
    refine ⟨rfl, ?_, ?_⟩
    · show none = if r.start.statusLatched then some r.start.status else none
      rw [hstatus]
      rfl
    · show [] = if r.start.outputLatched then _ else []
      rw [hcount]
      rfl
  | succ t ih =>
    rw [PitRun.state_succ]
    cases hdone : (r.state t).readDone (r.inputs t) with
    | false => exact ih.step_idle (r.running t) hdone
    | true =>
      obtain ⟨u, rfl, hread, hno⟩ := read_of_done hdone
      obtain ⟨hc, hcount, hstatus, -⟩ := quiet_of_not_access hno
      refine ih.step_done (r.running _) hdone ⟨hc, hcount, hstatus⟩ fun hs ho => ?_
      -- in the clock of the strobe the latches were the same
      obtain ⟨hc', hcount', hstatus'⟩ := r.single u hread
      have hidle := not_done_of_access (read_access hread)
      rw [PitRun.state_succ] at hs ho ⊢
      rw [PitCounter.statusLatched_step (r.running u) hc', hstatus', hidle] at hs
      rw [PitCounter.outputLatched_step (r.running u) hc', hcount', PitCounter.readSeqDone, hidle] at ho
      rw [PitCounter.rwMode_step (r.running u) hc', PitCounter.readSeqMsb_step (r.running u) hc', hidle]
      exact hk u hread hs ho

/-- Without a latched count the latches follow the counter. -/
theorem live (hread : (r.inputs t).read = true) (hno : (r.state t).outputLatched = false) :
    (r.state t).outputM ++ (r.state t).outputL = (r.state (t - 1)).counter := by
  cases t with
  | zero => exact r.follows
  | succ u =>
    rw [Nat.add_sub_cancel, PitRun.state_succ, PitCounter.output_step (r.running u)]
    have hfree : (r.state u).outputLatched = false := by
      by_contra hlatched
      rw [Bool.not_eq_false] at hlatched
      have hquiet : (r.inputs u).access = false := by
        by_contra haccess
        have hnext := r.apart u (by simpa using haccess)
        rw [read_access hread] at hnext
        cases hnext
      obtain ⟨hc, hcount, -, -⟩ := quiet_of_not_access hquiet
      rw [PitRun.state_succ, PitCounter.outputLatched_step (r.running u) hc, hcount, hlatched] at hno
      cases hdone : (r.state u).readDone (r.inputs u) with
      | false =>
        rw [PitCounter.readSeqDone, hdone] at hno
        cases hno
      | true =>
        obtain ⟨v, rfl, hread', -⟩ := read_of_done hdone
        have hfar := r.apart2 v hread'
        rw [read_access hread] at hfar
        cases hfar
    rw [hfree]
    rfl

/-- When no latched count is lost every read returns what is due. -/
theorem reads_of_kept (r : ReadbackRun) (hk : r.Kept) : r.Reads := by
  intro t hread
  have htracks := tracks hk t
  rw [PitCounter.dataOut, due, htracks.status, htracks.count, htracks.msb]
  cases hs : (r.state t).statusLatched with
  | true => rfl
  | false =>
    rw [if_neg (by simp)]
    obtain ⟨hm, hl⟩ := PitCounter.append_bytes (r.state t).outputM (r.state t).outputL
    cases ho : (r.state t).outputLatched with
    | true =>
      rw [PitCounter.bytes, hm, hl]
      cases (r.state t).rwMode == 2 || (r.state t).readSeqMsb with
      | true => rfl
      | false => cases (r.state t).rwMode == 3 <;> rfl
    | false =>
      have hlive := live hread ho
      show _ = (r.state t).liveByte (r.state t).readSeqMsb (r.state (t - 1)).counter
      rw [PitCounter.liveByte, ← hlive, hm, hl]

/-! ## Status and count latched by one command -/

/-- An input clock of four clocks; a read-back command latches count and status in clock 1, and three reads follow. -/
def readbackIn (t : Nat) : PitIn :=
  { resetMode := 2, resetRwMode := 3, rstN := true, clock := decide (2 ≤ t % 4), gate := true, dataIn := 0
    setControlMode := false, latchCount := t == 1, latchStatus := t == 1, write := false
    read := t == 4 || t == 8 || t == 12 }

/-- A rate generator that counts down from 20h, in an access mode. -/
def countingFrom32 (rwMode : BitVec 2) : PitCounter :=
  { clockLast := false, gateLast := true, writeLast := false, readLast := false, bcd := false, mode := 2
    rwMode := rwMode, writeSeqMsb := false, readSeqMsb := false, counterL := 0x20, counterM := 0, outputL := 0x20
    outputM := 0, outputLatched := false, nullCount := false, status := 0, statusLatched := false, written := false
    writtenSampled := false, armed := false, trigger := false, triggerSampled := false, gateLevelSampled := true
    out := true, terminalCount := false, loaded := true, loadedImm := true, counter := 0x20 }

theorem readbackIn_access {t : Nat} (h : (readbackIn t).access = true) : t = 1 ∨ t = 4 ∨ t = 8 ∨ t = 12 := by
  simp only [PitIn.access, readbackIn, Bool.or_eq_true, beq_iff_eq, Bool.false_eq_true, or_false, false_or] at h
  omega

theorem readbackIn_read {t : Nat} (h : (readbackIn t).read = true) : t = 4 ∨ t = 8 ∨ t = 12 := by
  simp only [readbackIn, Bool.or_eq_true, beq_iff_eq] at h
  omega

def latchedBoth (rwMode : BitVec 2) : ReadbackRun where
  start := countingFrom32 rwMode
  inputs := readbackIn
  running t := rfl
  unlatched := ⟨rfl, rfl, rfl⟩
  follows := PitCounter.split_bytes 0x20
  single t h := by
    obtain rfl | rfl | rfl := readbackIn_read h <;> exact ⟨rfl, rfl, rfl⟩
  apart t h := by
    obtain rfl | rfl | rfl | rfl := readbackIn_access h <;> rfl
  apart2 t h := by
    obtain rfl | rfl | rfl := readbackIn_read h <;> rfl

/-- With both bytes to come the status is read in clock 4, and the latched count 0020h in the clocks 8 and 12. -/
theorem latchedBoth_reads : (latchedBoth 3).Reads := by
  refine reads_of_kept (latchedBoth 3) fun t h hstatus _ => ?_
  obtain rfl | rfl | rfl := readbackIn_read (t := t) h
  · decide
  all_goals exact absurd hstatus (by decide)

/-- With access to the low byte the read of the status releases the count 20h, and the next read returns 1Fh. -/
theorem latchedLow_not_reads : ¬ (latchedBoth 1).Reads := by
  intro h
  have hbyte := h 8 (by decide)
  revert hbyte
  decide

end ReadbackRun

end Z486.Timer
