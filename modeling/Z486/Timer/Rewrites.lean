/-
Rewriting the count of the 8254 in mode 3, at any moment of a half period. A reload takes the count that is stored then,
but the end of a half period is found by the parity of the stored count, not of the loaded one: a high half period that
comes to its extra input clock with an even count stored misses its end and runs through the whole range of the counter.
-/
import Z486.Timer.Periods

namespace Z486.Timer

open Clocked

/-- A run of a counter in mode 3, in binary, with the gate high and an input clock that goes on. In clock 0 the counter
has just been loaded with `first`. The processor may write counts at any time. -/
structure SquareRun extends PitRun where
  first : BitVec 16
  steady : ∀ t, (inputs t).Steady
  counting : start.Counting
  square : start.mode.getLsbD 0 = true
  binary : start.bcd = false
  fresh : start.clockLast = false
  counter : start.counter.toNat = first.toNat - first.toNat % 2
  ticks : ∀ t, ∃ u, t ≤ u ∧ (toPitRun.state u).clockFall (inputs u) = true

namespace SquareRun

variable (r : SquareRun)

def falls (t : Nat) : Bool := (r.state t).clockFall (r.inputs t)

def loads (t : Nat) : Bool := (r.state t).load (r.inputs t)

/-- A half period begins in clock `a`, loaded with the count `n`. -/
def Begins (a : Nat) (n : BitVec 16) : Prop :=
  (a = 0 ∧ n = r.first) ∨ ∃ b, a = b + 1 ∧ r.loads b = true ∧ n = (r.state b).stored

/-- The half period of clock `a` goes on until clock `t`. -/
def Goes (a t : Nat) : Prop := a ≤ t ∧ ∀ u, a ≤ u → u < t → r.loads u = false

/-- The input clocks of the half period that have ended. -/
def elapsed (a t : Nat) : Nat := pulses r.falls a t

/-- Each reload takes the stored count and toggles the output, and a half period is not longer than half its count,
rounded up, and one input clock: no more than that rounded half has ended while it goes on. -/
structure Toggles : Prop where
  reload : ∀ t, r.loads t = true →
    (r.state (t + 1)).counter.toNat = (r.state t).stored.toNat - (r.state t).stored.toNat % 2 ∧
      (r.state (t + 1)).out = !(r.state t).out
  hold : ∀ t, r.loads t = false → (r.state (t + 1)).out = (r.state t).out
  half : ∀ a n t, r.Begins a n → r.Goes a t → r.elapsed a t ≤ (count false n + 1) / 2

/-- When a high half period comes to its extra input clock an odd count is stored, and no low half period begins with a
count of 1 (which only the two bytes of different counts make). -/
structure InTime : Prop where
  high : ∀ a n t, r.Begins a n → r.Goes a t → (r.state a).out = true → r.falls t = true →
    r.elapsed a t = count false n / 2 → (r.state (t - 1)).counterL.getLsbD 0 = true
  low : ∀ a n, r.Begins a n → (r.state a).out = false → n ≠ 1

variable {r} {a t u : Nat} {n : BitVec 16}

theorem kept (t : Nat) : (r.state t).Counting ∧ (r.state t).mode.getLsbD 0 = true ∧ (r.state t).bcd = false := by
  induction t with
  | zero => exact ⟨r.counting, r.square, r.binary⟩
  | succ t ih =>
    obtain ⟨hcounting, hmode, hbcd⟩ := ih
    have hi := r.steady t
    rw [PitRun.state_succ]
    refine ⟨hcounting.step hi, ?_, ?_⟩
    · show (if !(r.inputs t).rstN then (r.inputs t).resetMode
        else if (r.inputs t).setControlMode then (r.inputs t).dataIn.extractLsb' 1 3
        else (r.state t).mode).getLsbD 0 = true
      rw [hi.running, hi.control]
      exact hmode
    · show (if !(r.inputs t).rstN then false
        else if (r.inputs t).setControlMode then (r.inputs t).dataIn.getLsbD 0 else (r.state t).bcd) = false
      rw [hi.running, hi.control]
      exact hbcd

theorem modeLow_eq (t : Nat) : (r.state t).modeLow = 3 := by
  have hall : ∀ m : BitVec 3, m.getLsbD 1 = true → m.getLsbD 0 = true → m.extractLsb' 0 2 = 3 := by decide
  obtain ⟨hcounting, hmode, -⟩ := kept (r := r) t
  exact hall _ hcounting.periodic hmode

theorem loads_eq (t : Nat) : r.loads t = (r.falls t && (r.state t).terminalCount) :=
  (kept t).1.load_eq

theorem out_succ (t : Nat) : (r.state (t + 1)).out = if r.loads t then !(r.state t).out else (r.state t).out := by
  obtain ⟨hcounting, hmode, -⟩ := kept (r := r) t
  rw [PitRun.state_succ, hcounting.out_step (r.steady t), hmode, if_pos rfl, loads_eq]
  rfl

theorem counter_succ (t : Nat) : (r.state (t + 1)).counter =
    if r.loads t then (r.state t).loadValue
    else if r.falls t then (r.state t).counter - 2 else (r.state t).counter := by
  obtain ⟨hcounting, -, hbcd⟩ := kept (r := r) t
  have hminus : (r.state t).counterMinus1 = (r.state t).counter - 1 := by
    unfold PitCounter.counterMinus1
    rw [hbcd]
    rfl
  have hfall : (r.state t).clockFall (r.inputs t) = r.falls t := rfl
  rw [PitRun.state_succ, hcounting.counter_step (r.steady t), modeLow_eq, loads_eq, hminus, hfall]
  cases r.falls t <;> cases (r.state t).terminalCount
  · rfl
  · rfl
  · show (r.state t).counter - 1 - 1 = (r.state t).counter - 2
    grind
  · rfl

/-- A half period begins with the input clock low. -/
theorem Begins.clockLast (h : r.Begins a n) : (r.state a).clockLast = false := by
  rcases h with ⟨rfl, -⟩ | ⟨b, rfl, hload, -⟩
  · exact r.fresh
  · rw [loads_eq] at hload
    have hfall := (Bool.and_eq_true_iff.1 hload).1
    have hclock := (Bool.and_eq_true_iff.1 hfall).2
    rw [Bool.not_eq_true'] at hclock
    rw [PitRun.state_succ]
    exact hclock

theorem Begins.counter (h : r.Begins a n) : (r.state a).counter.toNat = n.toNat - n.toNat % 2 := by
  rcases h with ⟨rfl, rfl⟩ | ⟨b, rfl, hload, rfl⟩
  · exact r.counter
  · rw [counter_succ, hload, if_pos rfl]
    exact PitCounter.loadValue_toNat (modeLow_eq b)

theorem Goes.mono (h : r.Goes a t) (ha : a ≤ u) (hu : u ≤ t) : r.Goes a u :=
  ⟨ha, fun v h1 h2 => h.2 v h1 (by omega)⟩

theorem Goes.succ (h : r.Goes a t) (hload : r.loads t = false) : r.Goes a (t + 1) := by
  refine ⟨by have := h.1; omega, fun v h1 h2 => ?_⟩
  rcases Nat.lt_succ_iff_lt_or_eq.1 h2 with hlt | rfl
  · exact h.2 v h1 hlt
  · exact hload

theorem elapsed_succ (h : a ≤ t) : r.elapsed a (t + 1) = r.elapsed a t + if r.falls t = true then 1 else 0 :=
  pulses_succ _ h

/-- Within a half period the output holds, and every input clock takes two from the counter. -/
theorem Goes.state (h : r.Goes a t) : (r.state t).out = (r.state a).out ∧
    (r.state t).counter = (r.state a).counter - BitVec.ofNat 16 (2 * r.elapsed a t) := by
  obtain ⟨hle, hno⟩ := h
  induction t, hle using Nat.le_induction with
  | base =>
    rw [elapsed, pulses_self]
    exact ⟨rfl, (BitVec.sub_zero _).symm⟩
  | succ t hle ih =>
    obtain ⟨hout, hcounter⟩ := ih fun v h1 h2 => hno v h1 (by omega)
    have hload := hno t hle (by omega)
    rw [out_succ, counter_succ, hload, elapsed_succ hle]
    refine ⟨hout, ?_⟩
    rw [if_neg (by simp), hcounter]
    cases r.falls t
    · rfl
    · show _ - BitVec.ofNat 16 (2 * r.elapsed a t) - 2 = _ - BitVec.ofNat 16 (2 * (r.elapsed a t + 1))
      rw [Nat.mul_add, BitVec.ofNat_add]
      grind

/-- The end of a half period is found with the count that is stored one clock before. -/
theorem Goes.terminal (h : r.Goes a t) (hb : r.Begins a n) (hf : r.falls t = true) :
    r.loads t = ((r.state t).counter == if (r.state (t - 1)).counterL.getLsbD 0 && (r.state a).out then 0 else 2) := by
  have hlast : (r.state t).clockLast = true := (Bool.and_eq_true_iff.1 hf).1
  have hlt : a < t := by
    refine Nat.lt_of_le_of_ne h.1 fun heq => ?_
    subst heq
    rw [hb.clockLast] at hlast
    cases hlast
  obtain ⟨v, rfl⟩ : ∃ v, t = v + 1 := ⟨t - 1, by omega⟩
  obtain ⟨hcounting, hmode, -⟩ := kept (r := r) v
  have hclock : (r.inputs v).clock = true := hlast
  obtain ⟨hcounter, -, hterminal⟩ := hcounting.terminal_step (r.steady v) hclock
  have hout := (h.mono (u := v) (by omega) (by omega)).state.1
  rw [loads_eq, hf, Bool.true_and, PitRun.state_succ, hterminal, hcounter, PitCounter.terminalValue_eq, hmode,
    if_pos rfl, hout]
  rfl

/-- The counter stands at what the elapsed input clocks leave of its count. -/
theorem Goes.counter_eq (h : r.Goes a t) (hb : r.Begins a n) {k : Nat}
    (hk : 2 * r.elapsed a t + k = count false n - n.toNat % 2) : (r.state t).counter.toNat = k % 65536 := by
  have hn := n.isLt
  have hstart := hb.counter
  rw [h.state.2, BitVec.toNat_sub, BitVec.toNat_ofNat]
  by_cases h0 : n = 0
  · subst h0
    have hfull : count false 0#16 = 65536 := rfl
    change 2 * r.elapsed a t + k = count false 0#16 - 0 at hk
    change (r.state a).counter.toNat = 0 at hstart
    rw [hfull] at hk
    omega
  · have hvalue : count false n = n.toNat := count_of_ne_zero h0
    omega

theorem terminal_of (h : r.Goes a t) (hb : r.Begins a n) (hf : r.falls t = true) {c : BitVec 16}
    (hc : (r.state t).counter = c) :
    r.loads t = (c == if (r.state (t - 1)).counterL.getLsbD 0 && (r.state a).out then 0 else 2) := by
  rw [h.terminal hb hf, hc]

/-! ## Half periods in time -/

/-- A low half period is over with the last of its input clocks. -/
theorem InTime.low_half (hr : r.InTime) (hb : r.Begins a n) (hlow : (r.state a).out = false) (h : r.Goes a t) :
    r.elapsed a t + 1 ≤ count false n / 2 := by
  have htwo : 2 ≤ count false n := by
    have hpos := count_pos false n
    have hvalid : Valid false n := nofun
    have hne := (not_congr (hvalid.count_eq (c := 1) (by omega) (by omega))).2 (hr.low a n hb hlow)
    omega
  have hmod := count_mod_two false n
  obtain ⟨hle, hno⟩ := h
  induction t, hle using Nat.le_induction with
  | base =>
    rw [elapsed, pulses_self]
    omega
  | succ t hle ih =>
    have hgoes : r.Goes a t := ⟨hle, fun v h1 h2 => hno v h1 (by omega)⟩
    have hload := hno t hle (by omega)
    have hprev := ih hgoes.2
    rw [elapsed_succ hle]
    cases hf : r.falls t with
    | false => exact hprev
    | true =>
      rw [if_pos rfl]
      by_contra hover
      have hcounter : (r.state t).counter = 2 := by
        refine BitVec.eq_of_toNat_eq ?_
        rw [hgoes.counter_eq hb (k := 2) (by omega)]
        rfl
      rw [terminal_of hgoes hb hf hcounter, hlow, Bool.and_false] at hload
      cases hload

/-- A high half period is over with the last of its input clocks, or with one more. -/
theorem InTime.high_half (hr : r.InTime) (hb : r.Begins a n) (hhigh : (r.state a).out = true) (h : r.Goes a t) :
    r.elapsed a t ≤ count false n / 2 := by
  have hmod := count_mod_two false n
  obtain ⟨hle, hno⟩ := h
  induction t, hle using Nat.le_induction with
  | base =>
    rw [elapsed, pulses_self]
    omega
  | succ t hle ih =>
    have hgoes : r.Goes a t := ⟨hle, fun v h1 h2 => hno v h1 (by omega)⟩
    have hload := hno t hle (by omega)
    have hprev := ih hgoes.2
    rw [elapsed_succ hle]
    cases hf : r.falls t with
    | false => exact hprev
    | true =>
      rw [if_pos rfl]
      by_contra hover
      have hcounter : (r.state t).counter = 0 := by
        refine BitVec.eq_of_toNat_eq ?_
        rw [hgoes.counter_eq hb (k := 0) (by omega)]
        rfl
      have hodd := hr.high a n t hb hgoes hhigh hf (by omega)
      rw [terminal_of hgoes hb hf hcounter, hodd, hhigh] at hload
      cases hload

/-! ## Missed ends -/

/-- The next end of an input clock. -/
theorem Goes.next_fall (h : r.Goes a t) :
    ∃ u, t ≤ u ∧ r.falls u = true ∧ r.Goes a u ∧ r.elapsed a u = r.elapsed a t ∧
      (r.state u).counter = (r.state t).counter := by
  obtain ⟨u, htu, hf, hbefore⟩ := exists_first (r.ticks t)
  have hno : ∀ v, t ≤ v → v < u → r.falls v = false := fun v h1 h2 => by simpa [falls] using hbefore v h1 h2
  have hgoes : r.Goes a u := by
    refine ⟨by have := h.1; omega, fun v h1 h2 => ?_⟩
    by_cases hv : v < t
    · exact h.2 v h1 hv
    · rw [loads_eq, hno v (by omega) h2]
      rfl
  have hsame : r.elapsed a u = r.elapsed a t := by
    rw [elapsed, pulses_add r.falls h.1 htu, pulses_eq_zero hno]
    rfl
  refine ⟨u, htu, hf, hgoes, hsame, ?_⟩
  rw [hgoes.state.2, h.state.2, hsame]

/-- Once the counter is past its end, the half period goes on for another input clock. -/
theorem Goes.missed (h : r.Goes a t) (hb : r.Begins a n) (hf : r.falls t = true) (hcounter : (r.state t).counter = 0)
    (hmiss : r.loads t = false) : ∃ u, r.Goes a u ∧ r.elapsed a u = r.elapsed a t + 2 := by
  have hgoes := h.succ hmiss
  have helapsed := elapsed_succ (r := r) h.1
  rw [hf, if_pos rfl] at helapsed
  have hpast : (r.state (t + 1)).counter = 0xFFFE := by
    rw [counter_succ, hmiss, hf, hcounter]
    rfl
  obtain ⟨u, -, hfu, hgoesu, hsame, hcounteru⟩ := hgoes.next_fall
  have hload : r.loads u = false := by
    rw [terminal_of hgoesu hb hfu (hcounteru.trans hpast)]
    cases (r.state (u - 1)).counterL.getLsbD 0 && (r.state a).out <;> rfl
  refine ⟨u + 1, hgoesu.succ hload, ?_⟩
  rw [elapsed_succ hgoesu.1, hfu, if_pos rfl, hsame, helapsed]

/-- Rewriting the count never makes the output miss a toggle if and only if it comes in time. -/
theorem toggles_iff (r : SquareRun) : r.Toggles ↔ r.InTime := by
  constructor
  · intro h
    constructor
    · intro a n t hb hgoes hhigh hf helapsed
      have hmod := count_mod_two false n
      by_contra heven
      rw [Bool.not_eq_true] at heven
      have hcounter : (r.state t).counter = 0 := by
        refine BitVec.eq_of_toNat_eq ?_
        rw [hgoes.counter_eq hb (k := 0) (by omega)]
        rfl
      have hmiss : r.loads t = false := by
        rw [terminal_of hgoes hb hf hcounter, heven]
        rfl
      obtain ⟨u, hgoesu, hu⟩ := hgoes.missed hb hf hcounter hmiss
      have hbound := h.half a n u hb hgoesu
      omega
    · rintro a n hb hlow rfl
      have hgoes : r.Goes a a := ⟨le_rfl, fun v h1 h2 => by omega⟩
      have hstart : r.elapsed a a = 0 := pulses_self _ _
      obtain ⟨t, -, hf, hgoest, hsame, -⟩ := hgoes.next_fall
      have hone : count false 1 = 1 := rfl
      have hcounter : (r.state t).counter = 0 := by
        refine BitVec.eq_of_toNat_eq ?_
        rw [hgoest.counter_eq hb (k := 0) (by rw [hsame, hstart, hone]; rfl)]
        rfl
      have hmiss : r.loads t = false := by
        rw [terminal_of hgoest hb hf hcounter, hlow, Bool.and_false]
        rfl
      obtain ⟨u, hgoesu, hu⟩ := hgoest.missed hb hf hcounter hmiss
      have hbound := h.half a 1 u hb hgoesu
      rw [hone] at hbound
      omega
  · intro h
    refine ⟨fun t hload => ⟨?_, ?_⟩, fun t hload => ?_, fun a n t hb hgoes => ?_⟩
    · rw [counter_succ, hload, if_pos rfl]
      exact PitCounter.loadValue_toNat (modeLow_eq t)
    · rw [out_succ, hload, if_pos rfl]
    · rw [out_succ, hload, if_neg (by simp)]
    · cases hout : (r.state a).out with
      | false =>
        have hlow := h.low_half hb hout hgoes
        omega
      | true =>
        have hhigh := h.high_half hb hout hgoes
        omega

/-! ## A missed toggle -/

/-- A clock of an input clock of four clocks, in which the processor writes 4 in clock 5. -/
def rewriteIn (t : Nat) : PitIn :=
  { resetMode := 3, resetRwMode := 1, rstN := true, clock := decide (2 ≤ t % 4), gate := true, dataIn := 4
    setControlMode := false, latchCount := false, latchStatus := false, write := t == 5, read := false }

/-- A counter in mode 3 with access to the low byte, which has just been loaded with 3 and whose output is high. -/
def loadedWithThree : PitCounter :=
  { clockLast := false, gateLast := true, writeLast := false, readLast := false, bcd := false, mode := 3, rwMode := 1
    writeSeqMsb := false, readSeqMsb := false, counterL := 3, counterM := 0, outputL := 0, outputM := 0
    outputLatched := false, nullCount := false, status := 0, statusLatched := false, written := false
    writtenSampled := false, armed := false, trigger := false, triggerSampled := false, gateLevelSampled := true
    out := true, terminalCount := false, loaded := true, loadedImm := true, counter := 2 }

def rewrittenLate : SquareRun where
  start := loadedWithThree
  inputs := rewriteIn
  first := 3
  steady t := ⟨rfl, rfl, rfl⟩
  counting := ⟨rfl, rfl, rfl, rfl, rfl, rfl, nofun⟩
  square := rfl
  binary := rfl
  fresh := rfl
  counter := rfl
  ticks t := by
    have hhigh : (rewriteIn (4 * t + 3)).clock = true := decide_eq_true (by omega)
    have hlow : (rewriteIn (4 * t + 3 + 1)).clock = false := decide_eq_false (by omega)
    refine ⟨4 * t + 3 + 1, by omega, ?_⟩
    rw [PitRun.state_succ, PitCounter.clockFall, hlow]
    show ((rewriteIn (4 * t + 3)).clock && !false) = true
    rw [hhigh]
    rfl

/-- The high half of the count 3 has two input clocks; 4 is written in the second, and a third one ends within it. -/
theorem rewrittenLate_not_toggles : ¬ rewrittenLate.Toggles := by
  intro h
  have hbound := h.half 0 3 13 (.inl ⟨rfl, rfl⟩) ⟨by omega, by decide⟩
  revert hbound
  decide

end SquareRun

end Z486.Timer
