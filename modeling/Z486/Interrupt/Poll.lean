/-
Polling the 8259: a poll command, and the read that follows it after any time and any requests. The read is wired as an
acknowledge and as an end of interrupt at once, and the end comes first: it never puts a level into service.
-/
import Z486.Interrupt.Turns

namespace Z486.Interrupt

open Clocked

/-- A poll command in clock 0, and the read that follows it `wait` clocks later. -/
structure PolledRead extends I8259Run where
  wait : Nat
  command : I8259.ocw3 (inputs 0) = true ∧ (inputs 0).ioWritedata.getLsbD 2 = true ∧ (inputs 0).ioRead = false
  running : ∀ t, t ≤ wait + 1 → (inputs t).rstN = true
  between : ∀ t, 0 < t → t ≤ wait → (inputs t).ioRead = false ∧ (inputs t).ioWrite = false
  read : (inputs (wait + 1)).ioRead = true ∧ (inputs (wait + 1)).ioWrite = false

namespace I8259

variable (s : I8259) (i : I8259In)

/-- The request of level `k` is in IRR and stays there unless it is acknowledged. -/
def pends (k : BitVec 3) : Bool :=
  s.irr.getLsbD k.toNat && i.interruptInput.getLsbD k.toNat && !(s.newRequests i).getLsbD k.toNat

end I8259

namespace PolledRead

variable (p : PolledRead)

/-- The registers in the clock of the read, and in the clock after it. -/
def before : I8259 := p.state (p.wait + 1)

def after : I8259 := p.state (p.wait + 2)

def input : I8259In := p.inputs (p.wait + 1)

/-- The byte that the read returns. -/
def byte : BitVec 8 := p.before.ioReaddata p.input

/-- What the requests alone make of IRR. -/
def requests : BitVec 8 := (p.before.irr &&& p.input.interruptInput) ||| p.before.newRequests p.input

/-- With bit 7 the level in the low bits goes from IRR into ISR, without it none does; nothing else changes. -/
structure Acknowledges : Prop where
  taken : p.byte.getLsbD 7 = true →
    p.after.irr = ((p.before.irr &&& p.input.interruptInput &&& ~~~(1#8 <<< p.byte.extractLsb' 0 3)) |||
      p.before.newRequests p.input) ∧ p.after.isr = p.before.isr ||| 1#8 <<< p.byte.extractLsb' 0 3
  none : p.byte.getLsbD 7 = false → p.after.irr = p.requests ∧ p.after.isr = p.before.isr

/-- No interrupt is signalled, no level is in service, and the level of the vector register does not request. -/
structure Quiet : Prop where
  signal : p.before.interruptDo = false
  service : p.before.isr = 0
  vector : p.before.pends p.input p.before.vectorLevel = false

variable {p}

/-- The poll command waits for the read. -/
theorem polled (t : Nat) (ht : t ≤ p.wait) :
    (p.state (t + 1)).polled = true ∧ (p.state (t + 1)).ioReadLast = false := by
  induction t with
  | zero =>
    obtain ⟨hocw3, hbit, hread⟩ := p.command
    have hno : (p.state 0).ioReadValid (p.inputs 0) = false := by rw [I8259.ioReadValid, hread]; rfl
    rw [I8259Run.state_succ, I8259.step, if_pos (p.running 0 (by omega))]
    constructor
    · show (if (p.state 0).polled && (p.state 0).ioReadValid (p.inputs 0) then false
        else if I8259.ocw3 (p.inputs 0) then (p.inputs 0).ioWritedata.getLsbD 2 else _) = true
      rw [hno, hocw3, Bool.and_false]
      exact hbit
    · show (if (p.state 0).ioReadLast then false else (p.inputs 0).ioRead) = false
      rw [hread]
      exact ite_self _
  | succ t ih =>
    obtain ⟨hpolled, -⟩ := ih (by omega)
    obtain ⟨hread, hwrite⟩ := p.between (t + 1) (by omega) ht
    have hno : (p.state (t + 1)).ioReadValid (p.inputs (t + 1)) = false := by rw [I8259.ioReadValid, hread]; rfl
    have hocw3 : I8259.ocw3 (p.inputs (t + 1)) = false := by rw [I8259.ocw3, hwrite]; rfl
    rw [I8259Run.state_succ, I8259.step, if_pos (p.running (t + 1) (by omega))]
    constructor
    · show (if (p.state (t + 1)).polled && (p.state (t + 1)).ioReadValid (p.inputs (t + 1)) then false
        else if I8259.ocw3 (p.inputs (t + 1)) then (p.inputs (t + 1)).ioWritedata.getLsbD 2 else _) = true
      rw [hno, hocw3, Bool.and_false]
      exact hpolled
    · show (if (p.state (t + 1)).ioReadLast then false else (p.inputs (t + 1)).ioRead) = false
      rw [hread]
      exact ite_self _

/-- What the read returns and does. -/
theorem read_step : p.byte = BitVec.ofBool p.before.interruptDo ++ (0 : BitVec 4) ++ p.before.irqValue ∧
    p.after.irr = ((p.before.irr &&& p.input.interruptInput &&& ~~~(1#8 <<< p.before.vectorLevel)) |||
      p.before.newRequests p.input) ∧
    p.after.isr = p.before.isr &&& ~~~p.before.selectectedShiftedIsrFirstBits := by
  obtain ⟨hpolled, hlast⟩ := polled (p := p) p.wait le_rfl
  obtain ⟨hread, hwrite⟩ := p.read
  change p.before.polled = true at hpolled
  change p.before.ioReadLast = false at hlast
  change p.input.ioRead = true at hread
  change p.input.ioWrite = false at hwrite
  have hvalid : (p.before.polled && p.before.ioReadValid p.input) = true := by
    rw [I8259.ioReadValid, hpolled, hread, hlast]
    rfl
  have hicw1 : I8259.initIcw1 p.input = false := by rw [I8259.initIcw1, hwrite]; rfl
  have hocw2 : I8259.ocw2 p.input = false := by rw [I8259.ocw2, hwrite]; rfl
  have hack : p.before.acknowledgeNotSpurious p.input = true := by
    rw [I8259.acknowledgeNotSpurious, hvalid, Bool.true_or]
  have hclear : p.before.isrClear p.input = true := by rw [I8259.isrClear, hvalid, Bool.true_or]
  have hafter : p.after = p.before.next p.input := by
    unfold after
    rw [I8259Run.state_succ, I8259.step, if_pos (p.running (p.wait + 1) le_rfl)]
    rfl
  refine ⟨?_, ?_, ?_⟩
  · rw [byte, I8259.ioReaddata, hpolled, if_pos rfl]
  · rw [hafter]
    simp [I8259.next, hicw1, hack, I8259.interruptVectorBits]
  · rw [hafter]
    simp [I8259.next, hicw1, hocw2, hclear]

theorem byte_signal : p.byte.getLsbD 7 = p.before.interruptDo := by
  have hbit : ∀ (b : Bool) (v : BitVec 3), (BitVec.ofBool b ++ (0 : BitVec 4) ++ v).getLsbD 7 = b := by decide
  rw [← hbit p.before.interruptDo p.before.irqValue]
  exact congrArg (·[7]) read_step.1

/-- The bit of a level in what is left of a register without the bit of level `v`. -/
theorem without_get (x : BitVec 8) (v k : BitVec 3) :
    (x &&& ~~~(1#8 <<< v)).getLsbD k.toNat = (x.getLsbD k.toNat && !decide (k = v)) := by
  have hbit : ∀ v k : BitVec 3, (1#8 <<< v).getLsbD k.toNat = decide (k = v) := by decide
  have hk := k.isLt
  rw [BitVec.getLsbD_and, BitVec.getLsbD_not, hbit]
  simp [hk]

/-- The read takes the first level out of service, where there is one. -/
theorem isr_iff : p.after.isr = p.before.isr ↔ p.before.isr = 0 := by
  rw [read_step.2.2, I8259.selectectedShiftedIsrFirstBits]
  constructor
  · intro h
    by_contra hne
    obtain ⟨k, hk⟩ := I8259.ne_zero_iff.1 hne
    have hmem : p.before.isr.getLsbD p.before.selectectedShiftedIsrFirstNorm.toNat = true :=
      (I8259.isrFirst_first hk).mem
    rw [← h, without_get, decide_eq_true rfl, Bool.not_true, Bool.and_false] at hmem
    cases hmem
  · intro h
    rw [h]
    exact BitVec.zero_and

/-- It takes the request of the vector register's level. -/
theorem irr_iff : p.after.irr = p.requests ↔ p.before.pends p.input p.before.vectorLevel = false := by
  rw [read_step.2.1, requests]
  constructor
  · intro h
    have hbit := congrArg (BitVec.getLsbD · p.before.vectorLevel.toNat) h
    rw [BitVec.getLsbD_or, BitVec.getLsbD_or, without_get, decide_eq_true rfl, Bool.not_true, Bool.and_false,
      Bool.false_or, BitVec.getLsbD_and] at hbit
    unfold I8259.pends
    cases hnew : (p.before.newRequests p.input).getLsbD p.before.vectorLevel.toNat with
    | true => rw [Bool.not_true, Bool.and_false]
    | false =>
      rw [hnew, Bool.or_false] at hbit
      rw [← hbit, Bool.false_and]
  · intro h
    refine BitVec.eq_of_getLsbD_eq fun n hn => ?_
    have hlevel : n = (BitVec.ofNat 3 n).toNat := by rw [BitVec.toNat_ofNat, Nat.mod_eq_of_lt hn]
    rw [hlevel, BitVec.getLsbD_or, BitVec.getLsbD_or, without_get]
    by_cases hv : BitVec.ofNat 3 n = p.before.vectorLevel
    · rw [hv, BitVec.getLsbD_and, decide_eq_true rfl, Bool.not_true, Bool.and_false, Bool.false_or]
      unfold I8259.pends at h
      cases hnew : (p.before.newRequests p.input).getLsbD p.before.vectorLevel.toNat with
      | true => rw [Bool.or_true]
      | false =>
        rw [hnew, Bool.not_false, Bool.and_true] at h
        rw [h]
        rfl
    · rw [decide_eq_false hv, Bool.not_false, Bool.and_true]

/-- A polled read never puts a level into service. -/
theorem not_taken (k : BitVec 3) : p.after.isr ≠ p.before.isr ||| 1#8 <<< k := by
  intro h
  have hbit : ∀ k : BitVec 3, (1#8 <<< k).getLsbD k.toNat = true := by decide
  have hin : (p.before.isr ||| 1#8 <<< k).getLsbD k.toNat = true := by
    rw [BitVec.getLsbD_or, hbit, Bool.or_true]
  rw [← h, read_step.2.2, I8259.selectectedShiftedIsrFirstBits, without_get] at hin
  have hmem := (I8259.isrFirst_first (k := k) (Bool.and_eq_true_iff.1 hin).1).mem
  -- the first level in service is taken out, and it is not put back
  have hfirst : (p.before.isr ||| 1#8 <<< k).getLsbD p.before.selectectedShiftedIsrFirstNorm.toNat = true := by
    rw [BitVec.getLsbD_or, show p.before.isr.getLsbD _ = true from hmem, Bool.true_or]
  rw [← h, read_step.2.2, I8259.selectectedShiftedIsrFirstBits, without_get, decide_eq_true rfl, Bool.not_true,
    Bool.and_false] at hfirst
  cases hfirst

/-- A polled read acts as an acknowledge if and only if there is nothing to acknowledge or to end. -/
theorem acknowledges_iff (p : PolledRead) : p.Acknowledges ↔ p.Quiet := by
  constructor
  · intro h
    have hsignal : p.before.interruptDo = false := by
      rw [← byte_signal]
      by_contra htrue
      exact not_taken _ (h.taken (by simpa using htrue)).2
    obtain ⟨hirr, hisr⟩ := h.none (byte_signal.trans hsignal)
    exact ⟨hsignal, isr_iff.1 hisr, irr_iff.1 hirr⟩
  · intro h
    refine ⟨fun htrue => ?_, fun _ => ⟨irr_iff.2 h.vector, isr_iff.2 h.service⟩⟩
    rw [byte_signal, h.signal] at htrue
    cases htrue

/-- Level 3 requests and is signalled, with no level in service, when the processor polls. -/
def thirdPolled : PolledRead where
  start := { I8259.reset with imr := 0, irr := 8, interruptLast := 8, interruptDo := true, interruptVector := 3 }
  inputs t :=
    { rstN := true, ioAddress := false, ioRead := t == 1, ioWrite := t == 0, ioWritedata := 0x0C
      interruptInput := 8, interruptDone := false }
  wait := 0
  command := by decide
  running _ _ := rfl
  between t h0 h1 := by omega
  read := by decide

/-- The read returns level 3 and takes its request, and level 3 does not go into service. -/
theorem thirdPolled_not_acknowledges : ¬ thirdPolled.Acknowledges := by
  intro h
  have hisr := (h.taken (by decide)).2
  revert hisr
  decide

end PolledRead

end Z486.Interrupt
