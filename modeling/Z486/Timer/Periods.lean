/-
The periods of the 8254: a counter that has been programmed in mode 2 or 3 and is then left alone, with its gate high,
gives its output the two phases of a countdown for ever, in binary and in BCD and for even and odd counts.
-/
import Z486.Clocked.Countdown
import Z486.Timer.Counts

namespace Z486.Timer

open Clocked

/-- A clock without a reset or a control word and with the gate high. -/
structure PitIn.Steady (i : PitIn) : Prop where
  running : i.rstN = true
  gate : i.gate = true
  control : i.setControlMode = false

/-- Nothing is written either. -/
structure PitIn.Quiet (i : PitIn) : Prop extends i.Steady where
  write : i.write = false

namespace PitCounter

variable {s : PitCounter} {i : PitIn}

/-! ## A clock of a loaded counter -/

/-- The counter is loaded in mode 2 or 3, and neither a count nor a rise of the gate waits. -/
structure Counting (s : PitCounter) : Prop where
  periodic : s.mode.getLsbD 1 = true
  loaded : s.loaded = true
  loadedImm : s.loadedImm = true
  gate : s.gateLast = true
  trigger : s.trigger = false
  written : s.written = false
  sampled : s.clockLast = true → s.gateLevelSampled = true ∧ s.writtenSampled = false ∧ s.triggerSampled = false

namespace Counting

variable (h : s.Counting) (hi : i.Steady)

include h in
theorem modeLow_ne : s.modeLow ≠ 0 ∧ s.modeLow ≠ 1 ∧ s.mode ≠ 0 := by
  have hall : ∀ m : BitVec 3, m.getLsbD 1 = true → m.extractLsb' 0 2 ≠ 0 ∧ m.extractLsb' 0 2 ≠ 1 ∧ m ≠ 0 := by decide
  exact hall s.mode h.periodic

include h in
/-- Only the terminal count loads. -/
theorem load_eq : s.load i = (s.clockFall i && s.terminalCount) := by
  unfold load loadWritten loadTrigger loadTerminal
  cases hf : s.clockFall i with
  | false => rfl
  | true =>
    obtain ⟨hl, hw, ht⟩ := h.sampled (Bool.and_eq_true_iff.1 hf).1
    rw [hl, hw, ht, h.periodic, h.loaded]
    simp

include h in
theorem enableImm_eq : s.enableImm i = s.enable i := by
  unfold enableImm
  cases hf : s.clockFall i with
  | false => simp [enable, hf]
  | true =>
    rw [h.trigger, (h.sampled (Bool.and_eq_true_iff.1 hf).1).2.2]
    simp

include h in
theorem enable_eq : s.enable i = (s.clockFall i && !s.terminalCount) := by
  obtain ⟨-, hne, hmode⟩ := h.modeLow_ne
  unfold enable
  rw [h.load_eq, beq_eq_false_iff_ne.2 hne, beq_eq_false_iff_ne.2 hmode]
  cases hf : s.clockFall i with
  | false => rfl
  | true =>
    rw [(h.sampled (Bool.and_eq_true_iff.1 hf).1).1]
    simp

include h hi

theorem gate_eq : s.gateRise i = false ∧ s.gateFall i = false := by
  unfold gateRise gateFall
  rw [h.gate, hi.gate]
  exact ⟨rfl, rfl⟩

theorem loadImm_eq : s.loadImm i = s.load i := by
  have hl := h.load_eq (i := i)
  unfold load at hl
  unfold load loadImm loadTriggerImm
  rw [(h.gate_eq hi).1, h.loadedImm, Bool.false_and, Bool.not_true, Bool.and_false, Bool.false_or, Bool.false_or,
    Bool.and_true]
  cases hf : s.clockFall i with
  | false => simp [loadTrigger, hf]
  | true =>
    have ht := (h.sampled (Bool.and_eq_true_iff.1 hf).1).2.2
    rw [loadTrigger, ht, Bool.and_false, Bool.or_false]

/-- The counting element after a clock. -/
theorem counter_step : (s.step i).counter = if s.clockFall i then
    (if s.terminalCount then s.loadValue else s.counterMinus1 - (if s.modeLow == 3 then 1 else 0)) else s.counter := by
  show (if !i.rstN then 0 else if s.loadImm i then s.loadValue
    else if s.enableImm i then s.counterMinus1 - (if s.modeLow == 3 then 1 else 0) else s.counter) = _
  rw [hi.running, h.loadImm_eq hi, h.enableImm_eq, h.enable_eq, h.load_eq]
  cases s.clockFall i <;> cases s.terminalCount <;> rfl

/-- The output after a clock: in mode 2 it is low while the counter stands at 1, in mode 3 each load toggles it. -/
theorem out_step : (s.step i).out = if s.mode.getLsbD 0 then (if s.clockFall i && s.terminalCount then !s.out else s.out)
    else if s.clockFall i && s.terminalCount then true
    else if s.counter == 2 && s.clockFall i then false else s.out := by
  have hall : ∀ m : BitVec 3, m.getLsbD 1 = true → (m == 0) = false ∧ (m == 1) = false ∧
      (m == 2 || m == 6) = !m.getLsbD 0 ∧ (m == 3 || m == 7) = m.getLsbD 0 := by decide
  obtain ⟨h0, h1, h2, h3⟩ := hall s.mode h.periodic
  show (if !i.rstN then true else if i.setControlMode then _ else s.outNext i) = _
  rw [hi.running, hi.control]
  unfold outNext
  rw [h0, h1, h2, h3, (h.gate_eq hi).2, h.load_eq, h.enable_eq, h.loaded]
  cases hm : s.mode.getLsbD 0 with
  | false => cases s.clockFall i <;> cases s.terminalCount <;> simp
  | true =>
    cases hf : s.clockFall i with
    | false => rfl
    | true =>
      rw [(h.sampled (Bool.and_eq_true_iff.1 hf).1).2.2]
      cases s.terminalCount <;> rfl

theorem step : (s.step i).Counting where
  periodic := by
    show (if !i.rstN then i.resetMode else if i.setControlMode then i.dataIn.extractLsb' 1 3
      else s.mode).getLsbD 1 = true
    rw [hi.running, hi.control]
    exact h.periodic
  loaded := by
    show (if !i.rstN || i.setControlMode then false else if s.load i then true else s.loaded) = true
    rw [hi.running, hi.control, h.loaded]
    exact ite_self _
  loadedImm := by
    show (if !i.rstN || i.setControlMode then false else if s.loadImm i then true else s.loadedImm) = true
    rw [hi.running, hi.control, h.loadedImm]
    exact ite_self _
  gate := hi.gate
  trigger := by
    show (if !i.rstN || i.setControlMode then false else if s.gateRise i && s.triggerAllowed then true
      else if s.clockRise i then false else s.trigger) = false
    rw [hi.running, hi.control, (h.gate_eq hi).1, h.trigger]
    exact ite_self _
  written := by
    show (if !i.rstN || i.setControlMode then false
      else if s.writeSeqDone i && s.modeLow != 1 && !(s.mode.getLsbD 1 && s.loaded) then true
      else if s.load i then false else s.written) = false
    rw [hi.running, hi.control, h.periodic, h.loaded, h.written, Bool.and_self, Bool.not_true, Bool.and_false]
    exact ite_self _
  sampled := by
    intro hclock
    change i.clock = true at hclock
    have hhigh : s.clockRise i = false → s.clockLast = true := by
      intro hrise
      unfold clockRise at hrise
      rw [hclock, Bool.and_true, Bool.not_eq_false'] at hrise
      exact hrise
    show (if !i.rstN then false else if s.clockRise i then i.gate else s.gateLevelSampled) = true ∧
      (if !i.rstN || i.setControlMode then false else if s.clockRise i then s.written else s.writtenSampled) = false ∧
      (if !i.rstN || i.setControlMode then false else if s.clockRise i then s.trigger else s.triggerSampled) = false
    rw [hi.running, hi.control]
    cases hrise : s.clockRise i with
    | true => exact ⟨hi.gate, h.written, h.trigger⟩
    | false => exact h.sampled (hhigh hrise)

/-- While the input clock is high the detection of the terminal count catches up. -/
theorem terminal_step (hclock : i.clock = true) : (s.step i).counter = s.counter ∧ (s.step i).out = s.out ∧
    (s.step i).terminalCount = (s.counter == s.terminalValue) := by
  have hno : s.clockFall i = false := by rw [clockFall, hclock, Bool.not_true, Bool.and_false]
  refine ⟨?_, ?_, rfl⟩
  · rw [h.counter_step hi, hno]
    rfl
  · rw [h.out_step hi, hno]
    simp

end Counting

/-! ## The phases -/

/-- The lengths of the phases, in input clocks. -/
def len (s : PitCounter) (b : Bool) : Nat :=
  let n := count s.bcd s.stored
  if s.mode.getLsbD 0 then (if b then (n + 1) / 2 else n / 2) else if b then n - 1 else 1

/-- A count other than 1, in BCD of decimal digits. -/
structure Programmed (s : PitCounter) : Prop where
  valid : Valid s.bcd s.stored
  ne_one : s.stored ≠ 1

/-- The counter has `left` input clocks to go: in mode 2 it stands one higher while the output is high, in mode 3 it
counts twos, and an odd count has one more for the high phase. -/
def Left (s : PitCounter) (left : Nat) : Prop :=
  if s.mode.getLsbD 0 then
    if s.counterL.getLsbD 0 && s.out then value s.bcd s.counter = 2 * (left - 1) else count s.bcd s.counter = 2 * left
  else count s.bcd s.counter = left + if s.out then 1 else 0

/-- The counter is in a phase of its countdown. -/
structure InPhase (s : PitCounter) (p : Countdown.Phase) : Prop where
  counting : s.Counting
  programmed : s.Programmed
  terminal : s.clockLast = true → s.terminalCount = (s.counter == s.terminalValue)
  valid : Valid s.bcd s.counter
  level : s.out = p.level
  pos : 0 < p.left
  single : s.mode.getLsbD 0 = false → p.level = false → p.left = 1
  left : s.Left p.left

theorem Programmed.two_le (h : s.Programmed) : 2 ≤ count s.bcd s.stored := by
  have hpos := count_pos s.bcd s.stored
  have hne := (not_congr (h.valid.count_eq (c := 1) (by omega) (by omega))).2 h.ne_one
  omega

theorem Programmed.len_pos (h : s.Programmed) (b : Bool) : 0 < s.len b := by
  have htwo := h.two_le
  unfold len
  dsimp only
  split_ifs <;> omega

theorem terminalValue_eq : s.terminalValue =
    if s.mode.getLsbD 0 then (if s.counterL.getLsbD 0 && s.out then 0 else 2) else 1 := by
  unfold terminalValue
  cases s.mode.getLsbD 0 <;> cases (s.counterL.getLsbD 0 && s.out) <;> rfl

theorem quiet_step (hi : i.Quiet) : (s.step i).stored = s.stored ∧ (s.step i).bcd = s.bcd ∧
    (s.step i).mode = s.mode ∧ (s.step i).counterL = s.counterL := by
  have hl : (s.step i).counterL = s.counterL := by
    show (if !i.rstN then 0 else if i.write && s.rwMode == 2 then 0 else if s.writeLsb i then _ else _) = _
    rw [hi.running, hi.write, writeLsb, hi.write]
    rfl
  have hm : (s.step i).counterM = s.counterM := by
    show (if !i.rstN then 0 else if i.write && s.rwMode == 1 then 0 else if s.writeMsb i then _ else _) = _
    rw [hi.running, hi.write, writeMsb, hi.write]
    rfl
  refine ⟨by rw [stored, stored, hl, hm], ?_, ?_, hl⟩
  · show (if !i.rstN then false else if i.setControlMode then _ else s.bcd) = _
    rw [hi.running, hi.control]
    rfl
  · show (if !i.rstN then i.resetMode else if i.setControlMode then _ else s.mode) = _
    rw [hi.running, hi.control]
    rfl

/-- What a load in mode 3 leaves to go. -/
theorem Programmed.loadValue_left (h : s.Programmed) (hlow : s.modeLow = 3) (hm : s.mode.getLsbD 0 = true) (b : Bool) :
    if s.counterL.getLsbD 0 && b then value s.bcd s.loadValue = 2 * (s.len b - 1)
    else count s.bcd s.loadValue = 2 * s.len b := by
  have htwo := h.two_le
  have hvalue := (value_loadValue hlow h.valid).1
  have hmod := count_mod_two s.bcd s.stored
  have hlen : s.len b = if b then (count s.bcd s.stored + 1) / 2 else count s.bcd s.stored / 2 := by
    unfold len
    rw [hm]
    rfl
  rw [stored_odd, hlen]
  rcases Nat.mod_two_eq_zero_or_one s.stored.toNat with heven | hodd
  · have hload : s.loadValue = s.stored := BitVec.eq_of_toNat_eq (by rw [loadValue_toNat hlow, heven, Nat.sub_zero])
    rw [heven, show decide (0 = 1) = false from rfl, Bool.false_and, if_neg (by simp), hload]
    cases b
    · show count s.bcd s.stored = 2 * (count s.bcd s.stored / 2)
      omega
    · show count s.bcd s.stored = 2 * ((count s.bcd s.stored + 1) / 2)
      omega
  · have hne : s.stored ≠ 0 := fun h0 => by
      rw [h0] at hodd
      cases hodd
    have hcount := @count_of_ne_zero s.bcd _ hne
    rw [hodd, show decide (1 = 1) = true from rfl, Bool.true_and]
    cases b
    · have hload : s.loadValue ≠ 0 := fun h0 => by
        have hzero : value s.bcd s.loadValue = 0 := value_eq_zero.2 h0
        omega
      show count s.bcd s.loadValue = 2 * (count s.bcd s.stored / 2)
      rw [count_of_ne_zero hload]
      omega
    · show value s.bcd s.loadValue = 2 * ((count s.bcd s.stored + 1) / 2 - 1)
      omega

namespace InPhase

variable {p p' : Countdown.Phase} (h : s.InPhase p) (hi : i.Quiet)
include h hi

theorem next (hvalid : Valid s.bcd (s.step i).counter) (hlevel : (s.step i).out = p'.level) (hpos : 0 < p'.left)
    (hsingle : s.mode.getLsbD 0 = false → p'.level = false → p'.left = 1) (hleft : (s.step i).Left p'.left) :
    (s.step i).InPhase p' := by
  obtain ⟨hstored, hbcd, hmode, hl⟩ := quiet_step (s := s) hi
  constructor
  · exact h.counting.step hi.toSteady
  · exact ⟨by rw [hstored, hbcd]; exact h.programmed.valid, by rw [hstored]; exact h.programmed.ne_one⟩
  · intro hclock
    obtain ⟨hcounter, hout, hterminal⟩ := h.counting.terminal_step hi.toSteady hclock
    rw [hterminal, hcounter, terminalValue_eq, terminalValue_eq, hmode, hl, hout]
  · rw [hbcd]
    exact hvalid
  · exact hlevel
  · exact hpos
  · rw [hmode]
    exact hsingle
  · exact hleft

/-- Between the falls of the input clock nothing changes. -/
theorem still (hf : s.clockFall i = false) : (s.step i).InPhase p := by
  obtain ⟨hstored, hbcd, hmode, hl⟩ := quiet_step (s := s) hi
  have hcounter : (s.step i).counter = s.counter := by
    rw [h.counting.counter_step hi.toSteady, hf]
    rfl
  have hout : (s.step i).out = s.out := by
    rw [h.counting.out_step hi.toSteady, hf]
    simp
  refine h.next hi ?_ ?_ h.pos h.single ?_
  · rw [hcounter]
    exact h.valid
  · rw [hout]
    exact h.level
  · have hleft := h.left
    unfold Left at hleft ⊢
    rw [hcounter, hout, hmode, hl, hbcd]
    exact hleft

/-- A fall in mode 2. -/
theorem rate (hf : s.clockFall i = true) (hm : s.mode.getLsbD 0 = false) :
    (s.step i).InPhase (Countdown.tick s.len p) := by
  obtain ⟨hstored, hbcd, hmode, hl⟩ := quiet_step (s := s) hi
  have hlow : s.modeLow = 2 := by
    have hall : ∀ m : BitVec 3, m.getLsbD 1 = true → m.getLsbD 0 = false → m.extractLsb' 0 2 = 2 := by decide
    exact hall s.mode h.counting.periodic hm
  have hleft := h.left
  have htwo := h.programmed.two_le
  have hpos := h.pos
  have hterminal := h.terminal (Bool.and_eq_true_iff.1 hf).1
  rw [terminalValue_eq, hm, if_neg (by simp)] at hterminal
  have hcounter : (s.step i).counter = if s.terminalCount then s.stored else s.counterMinus1 := by
    rw [h.counting.counter_step hi.toSteady, hf, hlow, loadValue_eq (by rw [hlow]; decide), if_pos rfl]
    exact if_congr Iff.rfl rfl (BitVec.sub_zero _)
  have hout := h.counting.out_step hi.toSteady
  rw [hm, if_neg (by simp), hf, Bool.true_and, Bool.and_true] at hout
  rw [Left, hm, if_neg (by simp), h.level] at hleft
  have hone := h.valid.count_eq (c := 1) (by omega) (by omega)
  have hcount2 := h.valid.count_eq (c := 2) (by omega) (by omega)
  have hnewLeft : ∀ n, (s.step i).Left n ↔
      count s.bcd (s.step i).counter = n + if (s.step i).out then 1 else 0 := fun n => by
    rw [Left, hmode, hm, if_neg (by simp), hbcd]
  cases hlevel : p.level with
  | false =>
    -- the counter stands at 1 and is loaded
    rw [hlevel] at hleft
    have hsingle := h.single hm hlevel
    have hc : s.counter = 1 := hone.1 (by rw [hleft, hsingle]; rfl)
    rw [hc, beq_self_eq_true] at hterminal
    rw [hterminal, if_pos rfl] at hcounter hout
    rw [Countdown.tick_one hsingle, hlevel, Bool.not_false]
    have hlen : s.len true = count s.bcd s.stored - 1 := by
      unfold len
      rw [hm]
      rfl
    refine h.next hi ?_ hout (h.programmed.len_pos true) nofun ?_
    · rw [hcounter]
      exact h.programmed.valid
    · rw [hnewLeft, hcounter, hout]
      show count s.bcd s.stored = s.len true + 1
      rw [hlen]
      omega
  | true =>
    rw [hlevel] at hleft
    have hcount : count s.bcd s.counter = p.left + 1 := hleft
    have hc : (s.counter == 1) = false := by
      refine beq_eq_false_iff_ne.2 fun heq => ?_
      have h1 := hone.2 heq
      omega
    rw [hc] at hterminal
    rw [hterminal, if_neg (by simp)] at hcounter
    rw [hterminal, if_neg (by simp)] at hout
    obtain ⟨hvalue, hvalid⟩ := value_counterMinus1 h.valid
    have hne : s.counterMinus1 ≠ 0 := by
      intro h0
      rw [h0, show value s.bcd 0 = 0 from value_eq_zero.2 rfl] at hvalue
      omega
    have hcount' : count s.bcd (s.step i).counter = p.left := by
      rw [hcounter, count_of_ne_zero hne, hvalue]
      omega
    by_cases hlast : p.left = 1
    · have h2 : s.counter = 2 := hcount2.1 (by omega)
      rw [h2, beq_self_eq_true, if_pos rfl] at hout
      rw [Countdown.tick_one hlast, hlevel, Bool.not_true]
      have hlen : s.len false = 1 := by
        unfold len
        rw [hm]
        rfl
      refine h.next hi ?_ hout (h.programmed.len_pos false) (fun _ _ => hlen) ?_
      · rw [hcounter]
        exact hvalid
      · rw [hnewLeft, hout, hcount', hlast]
        exact hlen.symm
    · have h2 : (s.counter == 2) = false := by
        refine beq_eq_false_iff_ne.2 fun heq => ?_
        have h1 := hcount2.2 heq
        omega
      rw [h2, if_neg (by simp), h.level, hlevel] at hout
      rw [Countdown.tick_more hlast, hlevel]
      refine h.next hi ?_ hout (show 0 < p.left - 1 by omega) nofun ?_
      · rw [hcounter]
        exact hvalid
      · rw [hnewLeft, hout, hcount']
        show p.left = p.left - 1 + 1
        omega

omit hi in
/-- In mode 3 the terminal count is the end of the phase. -/
theorem terminal_eq (hf : s.clockFall i = true) (hm : s.mode.getLsbD 0 = true) :
    s.terminalCount = decide (p.left = 1) := by
  have hpos := h.pos
  have hleft := h.left
  have htwo := h.valid.count_eq (c := 2) (by omega) (by omega)
  rw [h.terminal (Bool.and_eq_true_iff.1 hf).1, terminalValue_eq, hm, if_pos rfl, beq_eq_decide]
  rw [Left, hm, if_pos rfl] at hleft
  congr 1
  apply propext
  cases hx : s.counterL.getLsbD 0 && s.out with
  | true =>
    rw [hx, if_pos rfl] at hleft
    rw [if_pos rfl]
    constructor
    · intro h0
      have hzero : value s.bcd s.counter = 0 := value_eq_zero.2 h0
      omega
    · intro h1
      exact value_eq_zero.1 (by rw [hleft, h1])
  | false =>
    rw [hx, if_neg (by simp)] at hleft
    rw [if_neg (by simp)]
    constructor
    · intro h2
      have hcount := htwo.2 h2
      omega
    · intro h1
      exact htwo.1 (by rw [hleft, h1])

/-- A fall in mode 3. -/
theorem square (hf : s.clockFall i = true) (hm : s.mode.getLsbD 0 = true) :
    (s.step i).InPhase (Countdown.tick s.len p) := by
  obtain ⟨hstored, hbcd, hmode, hl⟩ := quiet_step (s := s) hi
  have hlow : s.modeLow = 3 := by
    have hall : ∀ m : BitVec 3, m.getLsbD 1 = true → m.getLsbD 0 = true → m.extractLsb' 0 2 = 3 := by decide
    exact hall s.mode h.counting.periodic hm
  have hleft := h.left
  have hpos := h.pos
  have hterminal := h.terminal_eq hf hm
  have hcounter : (s.step i).counter = if s.terminalCount then s.loadValue else s.counterMinus1 - 1 := by
    rw [h.counting.counter_step hi.toSteady, hf, hlow, if_pos rfl]
    rfl
  have hout : (s.step i).out = if s.terminalCount then !s.out else s.out := by
    rw [h.counting.out_step hi.toSteady, hm, if_pos rfl, hf, Bool.true_and]
  rw [Left, hm, if_pos rfl] at hleft
  have hnewLeft : ∀ n, (s.step i).Left n ↔ if s.counterL.getLsbD 0 && (s.step i).out then
      value s.bcd (s.step i).counter = 2 * (n - 1) else count s.bcd (s.step i).counter = 2 * n := fun n => by
    rw [Left, hmode, hm, if_pos rfl, hbcd, hl]
  have hsingle : ∀ p' : Countdown.Phase, s.mode.getLsbD 0 = false → p'.level = false → p'.left = 1 := fun _ hno => by
    rw [hm] at hno
    cases hno
  by_cases hlast : p.left = 1
  · -- the end of the phase: the stored value again, and the other level
    rw [hterminal, hlast, decide_eq_true rfl, if_pos rfl] at hcounter hout
    rw [Countdown.tick_one hlast]
    refine h.next hi ?_ (by rw [hout, h.level]; rfl) (h.programmed.len_pos _) (hsingle _) ?_
    · rw [hcounter]
      exact (value_loadValue hlow h.programmed.valid).2
    · rw [hnewLeft, hcounter, hout, h.level]
      exact h.programmed.loadValue_left hlow hm _
  · rw [hterminal, decide_eq_false hlast, if_neg (by simp)] at hcounter hout
    rw [Countdown.tick_more hlast]
    -- on the way down by twos the count stays even
    have heven : s.counter.toNat % 2 = 0 := by
      split at hleft
      · rw [← value_mod_two s.bcd, hleft]
        omega
      · rw [← count_mod_two s.bcd, hleft]
        omega
    obtain ⟨hvalue, hvalid⟩ := value_counterMinus2 h.valid heven
    refine h.next hi ?_ (hout.trans h.level) (show 0 < p.left - 1 by omega) (hsingle _) ?_
    · rw [hcounter]
      exact hvalid
    · rw [hnewLeft, hcounter, hout]
      split at hleft
      · next hx =>
        have hne : s.counter ≠ 0 := fun h0 => by
          have hzero : value s.bcd s.counter = 0 := value_eq_zero.2 h0
          omega
        rw [if_pos hx, hvalue, count_of_ne_zero hne, hleft]
        show 2 * (p.left - 1) - 2 = 2 * (p.left - 1 - 1)
        omega
      · next hx =>
        have hne : s.counterMinus1 - 1 ≠ 0 := fun h0 => by
          have hzero : value s.bcd (s.counterMinus1 - 1) = 0 := value_eq_zero.2 h0
          omega
        rw [if_neg hx, count_of_ne_zero hne, hvalue, hleft]
        show 2 * p.left - 2 = 2 * (p.left - 1)
        omega

/-- Each fall of the input clock is a tick of the countdown. -/
theorem step : (s.step i).InPhase (if s.clockFall i then Countdown.tick s.len p else p) := by
  cases hf : s.clockFall i with
  | false => exact h.still hi hf
  | true =>
    rw [if_pos rfl]
    cases hm : s.mode.getLsbD 0 with
    | false => exact h.rate hi hf hm
    | true => exact h.square hi hf hm

end InPhase

/-- In mode 2 a load makes the output high. -/
theorem out_of_load (hi : i.Steady) (hperiodic : s.mode.getLsbD 1 = true) (hm : s.mode.getLsbD 0 = false)
    (hload : s.load i = true) : (s.step i).out = true := by
  have hall : ∀ m : BitVec 3, m.getLsbD 1 = true → m.getLsbD 0 = false → (m == 0) = false ∧ (m == 1) = false ∧
      (m == 2 || m == 6) = true := by decide
  obtain ⟨h0, h1, h2⟩ := hall s.mode hperiodic hm
  show (if !i.rstN then true else if i.setControlMode then _ else s.outNext i) = _
  rw [hi.running, hi.control, outNext, h0, h1, h2, hload]
  rfl

section Reload

variable (hi : i.Quiet) (hload : s.loadTerminal i = true)
include hload

/-- The reload at the end of a period comes with a fall of the clock, in a periodic mode. -/
theorem fall_of_reload : i.clock = false ∧ s.mode.getLsbD 1 = true := by
  unfold loadTerminal at hload
  simp only [Bool.and_eq_true] at hload
  obtain ⟨⟨⟨⟨hf, hperiodic⟩, -⟩, -⟩, -⟩ := hload
  obtain ⟨-, hclock⟩ := Bool.and_eq_true_iff.1 hf
  rw [Bool.not_eq_true'] at hclock
  exact ⟨hclock, hperiodic⟩

theorem modeLow_of_reload : s.modeLow = if s.mode.getLsbD 0 then 3 else 2 := by
  have hall : ∀ m : BitVec 3, m.getLsbD 1 = true → m.extractLsb' 0 2 = if m.getLsbD 0 then 3 else 2 := by decide
  exact hall s.mode (fall_of_reload hload).2

include hi

/-- The counter takes the stored value, and goes on counting. -/
theorem counter_of_reload : (s.step i).counter = s.loadValue := by
  have himm : s.loadImm i = true := by rw [loadImm, hload, Bool.or_true]
  show (if !i.rstN then 0 else if s.loadImm i then s.loadValue else _) = _
  rw [hi.running, himm]
  rfl

theorem counting_of_reload (hgate : s.gateLast = true) (htrigger : s.trigger = false) (hwrite : s.writeLast = false) :
    (s.step i).Counting := by
  obtain ⟨-, -, hmode, -⟩ := quiet_step (s := s) hi
  obtain ⟨hclock, hperiodic⟩ := fall_of_reload hload
  have hl' : s.load i = true := by rw [load, hload, Bool.or_true]
  have himm : s.loadImm i = true := by rw [loadImm, hload, Bool.or_true]
  have hrise : s.gateRise i = false := by rw [gateRise, hgate]; rfl
  have hdone : s.writeSeqDone i = false := by rw [writeSeqDone, writeDone, hwrite]; rfl
  constructor
  · rw [hmode]
    exact hperiodic
  · show (if !i.rstN || i.setControlMode then false else if s.load i then true else s.loaded) = true
    rw [hi.running, hi.control, hl']
    rfl
  · show (if !i.rstN || i.setControlMode then false else if s.loadImm i then true else s.loadedImm) = true
    rw [hi.running, hi.control, himm]
    rfl
  · exact hi.gate
  · show (if !i.rstN || i.setControlMode then false else if s.gateRise i && s.triggerAllowed then true
      else if s.clockRise i then false else s.trigger) = false
    rw [hi.running, hi.control, hrise, htrigger]
    exact ite_self _
  · show (if !i.rstN || i.setControlMode then false
      else if s.writeSeqDone i && s.modeLow != 1 && !(s.mode.getLsbD 1 && s.loaded) then true
      else if s.load i then false else s.written) = false
    rw [hi.running, hi.control, hdone, hl']
    rfl
  · intro h
    change i.clock = true at h
    rw [hclock] at h
    cases h

theorem out_of_reload (hm : s.mode.getLsbD 0 = false) : (s.step i).out = true := by
  have hl' : s.load i = true := by rw [load, hload, Bool.or_true]
  exact out_of_load hi.toSteady (fall_of_reload hload).2 hm hl'

theorem left_of_reload (hp : s.Programmed) : (s.step i).Left (s.len (s.step i).out) := by
  obtain ⟨-, hbcd, hmode, hl⟩ := quiet_step (s := s) hi
  have hlow := modeLow_of_reload hload
  have htwo := hp.two_le
  rw [Left, hmode, hbcd, hl, counter_of_reload hi hload]
  cases hm : s.mode.getLsbD 0 with
  | false =>
    rw [hm] at hlow
    have hlen : s.len true = count s.bcd s.stored - 1 := by
      unfold len
      rw [hm]
      rfl
    rw [out_of_reload hi hload hm, loadValue_eq (by rw [hlow]; decide), hlen]
    show count s.bcd s.stored = count s.bcd s.stored - 1 + 1
    omega
  | true =>
    rw [hm] at hlow
    exact hp.loadValue_left hlow hm _

/-- A terminal reload begins a phase. -/
theorem inPhase_of_reload (hgate : s.gateLast = true) (htrigger : s.trigger = false)
    (hwrite : s.writeLast = false) (hp : s.Programmed) :
    (s.step i).InPhase (.first s.len (s.step i).out) := by
  obtain ⟨hstored, hbcd, hmode, -⟩ := quiet_step (s := s) hi
  obtain ⟨hclock, -⟩ := fall_of_reload hload
  have hlow := modeLow_of_reload hload
  constructor
  · exact counting_of_reload hi hload hgate htrigger hwrite
  · exact ⟨by rw [hstored, hbcd]; exact hp.valid, by rw [hstored]; exact hp.ne_one⟩
  · intro h
    change i.clock = true at h
    rw [hclock] at h
    cases h
  · rw [hbcd, counter_of_reload hi hload]
    cases hm : s.mode.getLsbD 0 with
    | false =>
      rw [loadValue_eq (by rw [hlow, hm]; decide)]
      exact hp.valid
    | true => exact (value_loadValue (by rw [hlow, hm]; rfl) hp.valid).2
  · rfl
  · exact hp.len_pos _
  · intro hm hlevel
    rw [hmode] at hm
    rw [Countdown.Phase.first, out_of_reload hi hload hm] at hlevel
    cases hlevel
  · exact left_of_reload hi hload hp

end Reload

end PitCounter

/-! ## Runs -/

/-- A run of a counter in mode 2 or 3 that has been programmed with a count other than 1. The gate is high, its rise has
been seen, and nothing is written any more. In clock `reload` the terminal count loads the counter. -/
structure PeriodicRun extends PitRun where
  quiet : ∀ t, (inputs t).Quiet
  gate : start.gateLast = true
  trigger : start.trigger = false
  done : start.writeLast = false
  programmed : start.Programmed
  reload : Nat
  reloads : (toPitRun.state reload).loadTerminal (inputs reload) = true

namespace PeriodicRun

variable (r : PeriodicRun)

/-- The count that has been programmed, where 0 stands for 65536, or for 10000 in BCD. -/
def period : Nat := count r.start.bcd r.start.stored

/-- The input clocks that have ended between the reload and clock `t`. -/
def ticks (t : Nat) : Nat := pulses (fun u => (r.state u).clockFall (r.inputs u)) (r.reload + 1) t

/-- The output from the reload on: in mode 2 it is low for the last of every `period` input clocks; in mode 3 it is high
for the larger half of them and low for the smaller one. -/
structure Divides : Prop where
  rate : r.start.mode.getLsbD 0 = false → ∀ t, r.reload < t →
    (r.state t).out = decide (r.ticks t % r.period < r.period - 1)
  square : r.start.mode.getLsbD 0 = true → ∀ t, r.reload < t →
    let half : Bool → Nat := fun b => if b then (r.period + 1) / 2 else r.period / 2
    let first := (r.state (r.reload + 1)).out
    (r.state t).out = if r.ticks t % r.period < half first then first else !first

variable {r}

theorem kept (t : Nat) : (r.state t).gateLast = true ∧ (r.state t).trigger = false ∧ (r.state t).writeLast = false ∧
    (r.state t).stored = r.start.stored ∧ (r.state t).bcd = r.start.bcd ∧ (r.state t).mode = r.start.mode := by
  induction t with
  | zero => exact ⟨r.gate, r.trigger, r.done, rfl, rfl, rfl⟩
  | succ t ih =>
    obtain ⟨hgate, htrigger, -, hstored, hbcd, hmode⟩ := ih
    obtain ⟨hstored', hbcd', hmode', -⟩ := PitCounter.quiet_step (s := r.state t) (r.quiet t)
    have hrise : (r.state t).gateRise (r.inputs t) = false := by rw [PitCounter.gateRise, hgate]; rfl
    rw [PitRun.state_succ]
    refine ⟨(r.quiet t).gate, ?_, (r.quiet t).write, hstored'.trans hstored, hbcd'.trans hbcd, hmode'.trans hmode⟩
    show (if !(r.inputs t).rstN || (r.inputs t).setControlMode then false
      else if (r.state t).gateRise (r.inputs t) && (r.state t).triggerAllowed then true
      else if (r.state t).clockRise (r.inputs t) then false else (r.state t).trigger) = false
    rw [(r.quiet t).running, (r.quiet t).control, hrise, htrigger]
    exact ite_self _

theorem len_eq (t : Nat) : (r.state t).len = r.start.len := by
  obtain ⟨-, -, -, hstored, hbcd, hmode⟩ := kept (r := r) t
  unfold PitCounter.len
  rw [hstored, hbcd, hmode]

/-- From the reload on the counter is in the phase that its input clocks have brought it to. -/
theorem inPhase (n : Nat) : (r.state (r.reload + 1 + n)).InPhase
    ((Countdown.tick r.start.len)^[r.ticks (r.reload + 1 + n)] (.first r.start.len (r.state (r.reload + 1)).out)) := by
  induction n with
  | zero =>
    obtain ⟨hgate, htrigger, hdone, hstored, hbcd, -⟩ := kept (r := r) r.reload
    have hp : (r.state r.reload).Programmed :=
      ⟨by rw [hstored, hbcd]; exact r.programmed.valid, by rw [hstored]; exact r.programmed.ne_one⟩
    have hphase := PitCounter.inPhase_of_reload (r.quiet r.reload) r.reloads hgate htrigger hdone hp
    rw [← PitRun.state_succ, len_eq] at hphase
    rw [Nat.add_zero, ticks, pulses_self]
    exact hphase
  | succ n ih =>
    have hstep := ih.step (r.quiet (r.reload + 1 + n))
    rw [← PitRun.state_succ, len_eq] at hstep
    have hticks := pulses_succ (fun u => (r.state u).clockFall (r.inputs u))
      (show r.reload + 1 ≤ r.reload + 1 + n by omega)
    have hcount : r.ticks (r.reload + 1 + (n + 1)) = r.ticks (r.reload + 1 + n) +
        if (r.state (r.reload + 1 + n)).clockFall (r.inputs (r.reload + 1 + n)) = true then 1 else 0 := hticks
    rw [hcount]
    split at hstep
    · next hf =>
      rw [if_pos hf, Function.iterate_succ_apply']
      exact hstep
    · next hf =>
      rw [if_neg hf]
      exact hstep

theorem out_eq {t : Nat} (h : r.reload < t) : (r.state t).out =
    (Countdown.within r.start.len (r.state (r.reload + 1)).out (r.ticks t % Countdown.period r.start.len)).level := by
  obtain ⟨n, rfl⟩ : ∃ n, t = r.reload + 1 + n := ⟨t - (r.reload + 1), by omega⟩
  rw [(inPhase n).level, Countdown.tick_iterate r.programmed.len_pos]

theorem period_eq : Countdown.period r.start.len = r.period := by
  have htwo := r.programmed.two_le
  unfold Countdown.period PitCounter.len period
  cases r.start.mode.getLsbD 0 with
  | false =>
    show count _ _ - 1 + 1 = count _ _
    omega
  | true =>
    show (count _ _ + 1) / 2 + count _ _ / 2 = count _ _
    omega

/-- For every count, in binary and in BCD, the output has the period of the count for ever. -/
theorem divides (r : PeriodicRun) : r.Divides := by
  constructor
  · intro hm t ht
    have hload := r.reloads
    obtain ⟨-, -, -, -, -, hmode⟩ := kept (r := r) r.reload
    have hperiodic : (r.state r.reload).mode.getLsbD 1 = true := by
      unfold PitCounter.loadTerminal at hload
      simp only [Bool.and_eq_true] at hload
      exact hload.1.1.1.2
    have hfirst : (r.state (r.reload + 1)).out = true := by
      rw [PitRun.state_succ]
      refine PitCounter.out_of_load (r.quiet r.reload).toSteady hperiodic (by rw [hmode]; exact hm) ?_
      rw [PitCounter.load, hload, Bool.or_true]
    have hlen : r.start.len true = r.period - 1 := by
      unfold PitCounter.len
      rw [hm]
      rfl
    rw [out_eq ht, period_eq, hfirst, Countdown.within, hlen]
    split
    · next h => rw [decide_eq_true h]
    · next h => rw [decide_eq_false h, Bool.not_true]
  · intro hm t ht half first
    have hlen : r.start.len = half := by
      funext b
      unfold PitCounter.len
      rw [hm]
      rfl
    rw [out_eq ht, period_eq, hlen]
    unfold Countdown.within
    split <;> rfl

/-- The inputs of a counter that gets the control word of mode 3 and the count 5 after a reset. -/
def squareIn (t : Nat) : PitIn where
  resetMode := 3
  resetRwMode := 3
  rstN := t != 0
  clock := t / 2 % 2 == 1
  gate := true
  dataIn := if t = 1 then 0x36 else if t = 2 then 5 else 0
  setControlMode := t == 1
  latchCount := false
  latchStatus := false
  write := t == 2 || t == 4
  read := false

def cleared : PitCounter where
  clockLast := false
  gateLast := false
  writeLast := false
  readLast := false
  bcd := false
  mode := 0
  rwMode := 0
  writeSeqMsb := false
  readSeqMsb := false
  counterL := 0
  counterM := 0
  outputL := 0
  outputM := 0
  outputLatched := false
  nullCount := false
  status := 0
  statusLatched := false
  written := false
  writtenSampled := false
  armed := false
  trigger := false
  triggerSampled := false
  gateLevelSampled := false
  out := false
  terminalCount := false
  loaded := false
  loadedImm := false
  counter := 0

/-- From the seventh clock on the count is programmed and nothing is written any more. -/
def squareFive : PeriodicRun where
  start := Clocked.run PitCounter.step cleared squareIn 7
  inputs t := squareIn (t + 7)
  quiet t := by
    have hwrite : (squareIn (t + 7)).write = false := by
      show (t + 7 == 2 || t + 7 == 4) = false
      simp
    exact ⟨⟨by simp [squareIn], rfl, by simp [squareIn]⟩, hwrite⟩
  gate := by decide +kernel
  trigger := by decide +kernel
  done := by decide +kernel
  programmed := ⟨fun h => absurd h (by decide +kernel), by decide +kernel⟩
  reload := 13
  reloads := by decide +kernel

theorem squareFive_divides : squareFive.period = 5 ∧ squareFive.start.mode = 3 ∧ squareFive.Divides :=
  ⟨by decide +kernel, by decide +kernel, divides squareFive⟩

end PeriodicRun

end Z486.Timer
