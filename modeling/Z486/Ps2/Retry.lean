/-
A device that stops clocking in the middle of a frame. The controller times out after 2^26 clocks and begins again, with
what the first attempt has left of the byte.
-/
import Z486.Ps2.Frames

namespace Z486.Ps2

/-! ## The clock line -/

/-- The registers that look for the edges of the clock line. -/
structure Wire where
  clk : Bool
  clkMv : BitVec 16
  clkMvWait : Bool
  wasClk : Bool
deriving DecidableEq, Repr

namespace Wire

def falls (w : Wire) : Bool := !w.clkMvWait && w.clkMv.extractLsb' 12 4 == 0b1111 && w.clkMv.extractLsb' 0 4 == 0

def next (w : Wire) (line : Bool) : Wire :=
  { clk := line
    clkMv := w.clkMv.extractLsb' 0 15 ++ BitVec.ofBool w.clk
    clkMvWait := if w.falls then true else if w.clkMvWait && w.clkMv == 0 then false else w.clkMvWait
    wasClk := w.falls }

/-- The line has been high for a while. -/
def rest : Wire := { clk := true, clkMv := 0xFFFF, clkMvWait := false, wasClk := false }

end Wire

def Port.wire (p : Port) : Wire :=
  { clk := p.clk, clkMv := p.clkMv, clkMvWait := p.clkMvWait, wasClk := p.wasClk }

theorem Port.step_wire {p : Port} {i : PortIn} (h : i.rstN = true) : (p.step i).wire = p.wire.next i.clkLine := by
  unfold Port.step
  rw [h]
  rfl

/-- The line in the clocks of a block of 64: low in the first half, or high. -/
def blockLine (pulse : Bool) (k : Nat) : Bool := !(pulse && decide (k < 32))

theorem Wire.block_wasClk : ∀ pulse : Bool, ∀ k < 64,
    (Clocked.run Wire.next Wire.rest (blockLine pulse) k).wasClk = (pulse && k == 6) := by
  decide

theorem Wire.block_rest : ∀ pulse : Bool, Clocked.run Wire.next Wire.rest (blockLine pulse) 64 = Wire.rest := by
  decide +kernel

/-! ## An attempt -/

/-- The state of a port in clock `k` after it has begun to send. -/
def attemptState (k : Nat) : PortState :=
  if k < 8185 then .sendInhibitWait
  else if k = 8185 then .sendDataLow
  else if k < 8192 then .sendInhibitWait
  else if k = 8192 then .sendClockRelease
  else .sendBits

theorem attemptState_of_lt {k : Nat} (h : k < 8192) (hne : k ≠ 8185) : attemptState k = .sendInhibitWait := by
  unfold attemptState
  by_cases hlt : k < 8185
  · rw [if_pos hlt]
  · rw [if_neg hlt, if_neg hne, if_pos h]

theorem attemptState_of_gt {k : Nat} (h : 8192 < k) : attemptState k = .sendBits := by
  unfold attemptState
  rw [if_neg (by omega), if_neg (by omega), if_neg (by omega), if_neg (by omega)]

theorem lt_of_attemptState {k : Nat} (h : attemptState k = .sendBits) : 8192 < k := by
  unfold attemptState at h
  revert h
  (repeat' split) <;> simp
  omega

theorem attemptState_cases (k : Nat) :
    attemptState k ∈ [PortState.sendInhibitWait, .sendDataLow, .sendClockRelease, .sendBits] := by
  unfold attemptState
  (repeat' split) <;> simp

/-- The states that an attempt is not in. -/
theorem attemptState_sending (k : Nat) :
    (attemptState k).sending = true ∧ attemptState k ≠ .sendFinished ∧ attemptState k ≠ .recvWaitForIdle ∧
      attemptState k ≠ .idle ∧ attemptState k ≠ .recvStart ∧ attemptState k ≠ .sendInhibit ∧
      attemptState k ≠ .waitStart := by
  have hall : ∀ s ∈ [PortState.sendInhibitWait, .sendDataLow, .sendClockRelease, .sendBits], s.sending = true ∧
      s ≠ .sendFinished ∧ s ≠ .recvWaitForIdle ∧ s ≠ .idle ∧ s ≠ .recvStart ∧ s ≠ .sendInhibit ∧ s ≠ .waitStart := by
    decide
  exact hall _ (attemptState_cases k)

namespace Port

variable {p : Port} {i : PortIn} {k : Nat}

/-- A port in clock `k` after it has begun to send, before it has timed out or sent the frame. -/
structure Attempt (p : Port) (k : Nat) : Prop where
  state : p.state = attemptState k
  timeout : p.timeout.toNat = 0x4000000 - k
  timer : k ≤ 8192 → p.timer.toNat = 8192 - k

theorem attempt_start (hrst : i.rstN = true) (hs : p.state = .sendInhibit) (ht : p.timeoutReset = false) :
    (p.step i).Attempt 1 := by
  refine ⟨?_, ?_, fun _ => ?_⟩
  · rw [step_of_rstN hrst, stateNext, ht, hs]
    rfl
  · simp [step, hrst, hs]
  · simp [step, hrst, hs, ht]

namespace Attempt

theorem timeoutReset_eq (h : p.Attempt k) (hk : k < 0x3FFFFFF) : p.timeoutReset = false := by
  rw [timeoutReset, beq_eq_false_iff_ne]
  intro he
  have htimeout := h.timeout
  rw [he] at htimeout
  have hone : (1 : BitVec 26).toNat = 1 := by decide
  omega

theorem state_succ (h : p.Attempt k) (hk : k < 0x3FFFFFF) (hrst : i.rstN = true)
    (hlast : (p.writeShift && p.bitCounter == 9) = false) : (p.step i).state = attemptState (k + 1) := by
  have hstate := h.state
  have ht := h.timeoutReset_eq hk
  rw [step_of_rstN hrst]
  -- the timer tells how far the port has come before the clock line is released
  have htimer : ∀ n : Nat, n < 8192 → k ≤ 8192 → ((p.timer == BitVec.ofNat 13 n) = true ↔ 8192 - k = n) := by
    intro n hn hle
    rw [beq_iff_eq, ← BitVec.toNat_inj, h.timer hle, BitVec.toNat_ofNat, Nat.mod_eq_of_lt (by omega)]
  have hwait : k < 8192 → k ≠ 8185 → p.stateNext i =
      if 8192 - k = 8 then .sendDataLow else if 8192 - k = 1 then .sendClockRelease else .sendInhibitWait := by
    intro hlt hne
    have h8 : (p.timer == 8) = true ↔ 8192 - k = 8 := htimer 8 (by omega) (by omega)
    have h1 : (p.timer == 1) = true ↔ 8192 - k = 1 := htimer 1 (by omega) (by omega)
    rw [stateNext, ht, hstate, attemptState_of_lt hlt hne]
    simp only [h8, h1, Bool.false_eq_true, if_false]
  rcases Nat.lt_trichotomy k 8192 with hlt | rfl | hgt
  · by_cases hlow : k = 8185
    · rw [attemptState_of_lt (by omega) (by omega), stateNext, ht, hstate, hlow]
      rfl
    · rw [hwait hlt hlow]
      by_cases h8 : k = 8184
      · rw [if_pos (by omega), h8]
        rfl
      · rw [if_neg (by omega)]
        by_cases h1 : k = 8191
        · rw [if_pos (by omega), h1]
          rfl
        · rw [if_neg (by omega), attemptState_of_lt (by omega) (by omega)]
  · rw [stateNext, ht, hstate]
    rfl
  · rw [attemptState_of_gt (by omega), stateNext, ht, hstate, attemptState_of_gt hgt, hlast]
    rfl

/-- A clock of an attempt that neither times out nor ends the frame. -/
theorem step (h : p.Attempt k) (hk : k < 0x3FFFFFF) (hrst : i.rstN = true)
    (hlast : (p.writeShift && p.bitCounter == 9) = false) : (p.step i).Attempt (k + 1) := by
  have ht := h.timeoutReset_eq hk
  obtain ⟨-, -, -, hidle, hrecv, hinhibit, hwait⟩ := attemptState_sending k
  rw [← h.state] at hidle hrecv hinhibit hwait
  refine ⟨h.state_succ hk hrst hlast, ?_, fun hle => ?_⟩
  · have hnext : (p.step i).timeout = if p.timeout > 0 then p.timeout - 1 else p.timeout := by
      simp [Port.step, hrst, hidle, hrecv, hinhibit]
    have hdown : (p.step i).timeout.toNat = p.timeout.toNat - 1 := by
      rw [hnext]
      split <;> bv_omega
    rw [hdown, h.timeout]
    omega
  · have hnext : (p.step i).timer = if p.timer > 0 then p.timer - 1 else p.timer := by
      simp [Port.step, hrst, ht, hinhibit, hwait]
    have hdown : (p.step i).timer.toNat = p.timer.toNat - 1 := by
      rw [hnext]
      split <;> bv_omega
    rw [hdown, h.timer (by omega)]
    omega

/-- The bits that have been sent. -/
theorem bitCounter_succ (h : p.Attempt k) (hk : k < 0x3FFFFFF) (hrst : i.rstN = true) : (p.step i).bitCounter =
    if k = 8192 then 0 else if p.writeShift then p.bitCounter + 1 else p.bitCounter := by
  have ht := h.timeoutReset_eq hk
  obtain ⟨hsend, -, -, -, hrecv, -, -⟩ := attemptState_sending k
  rw [← h.state] at hsend hrecv
  have hno : p.recv = false := by
    rw [recv, Bool.and_eq_false_iff]
    refine .inl (beq_eq_false_iff_ne.2 fun he => ?_)
    rw [he] at hsend
    cases hsend
  have hrelease : p.state = .sendClockRelease ↔ k = 8192 := by
    rw [h.state, attemptState]
    repeat' split
    all_goals simp; try omega
  by_cases hc : k = 8192
  · simp [Port.step, hrst, ht, hc, hrelease.2 hc]
  · have hne : p.state ≠ .sendClockRelease := fun he => hc (hrelease.1 he)
    simp [Port.step, hrst, ht, hc, hne, hno, hrecv]

/-- The port gives up. -/
theorem timesOut (h : p.Attempt k) (hk : k = 0x3FFFFFF) (hrst : i.rstN = true) :
    (p.step i).state = .idle ∧ (p.step i).timeout = 0 := by
  have hone : p.timeout = 1 := by
    apply BitVec.eq_of_toNat_eq
    rw [h.timeout, hk]
    rfl
  obtain ⟨-, -, -, hidle, hrecv, hinhibit, -⟩ := attemptState_sending k
  rw [← h.state] at hidle hrecv hinhibit
  have ht : p.timeoutReset = true := by rw [timeoutReset, hone]; rfl
  constructor
  · rw [step_of_rstN hrst, stateNext, if_pos ht]
  · simp [Port.step, hrst, hidle, hrecv, hinhibit, hone]

end Attempt

end Port

namespace ResetRun

/-! ## The run -/

/-- The blocks in which the keyboard pulses its clock: once in the first attempt, and from then on in the second. -/
def pulse (b : Nat) : Bool := b == 129 || decide (1048705 ≤ b)

def keybLine (t : Nat) : Bool := blockLine (pulse (t / 64)) (t % 64)

/-- The guest writes FFh to the keyboard. -/
def stalled : ResetRun :=
  runFrom fun t => { writeIn (if t = 0 then some (0, 0xFF) else none) with ps2Kbclk := keybLine t }

theorem stalled_rstN (t : Nat) : (stalled.inputs t).rstN = true := rfl

theorem stalled_ioCs {t : Nat} (h : 0 < t) : (stalled.inputs t).ioCs = false := by
  have hne : t ≠ 0 := by omega
  simp [stalled, runFrom, writeIn, hne]

theorem stalled_wire (t : Nat) :
    (stalled.port .keyboard t).wire = Clocked.run Wire.next Port.reset.wire keybLine t := by
  induction t with
  | zero => rfl
  | succ t ih =>
    rw [port_succ (stalled_rstN t), Port.step_wire ((Controller.portIn_rstN _).trans (stalled_rstN t)), ih]
    rfl

/-- The line over a block. -/
theorem keybLine_block (b : Nat) {k : Nat} (hk : k < 64) : keybLine (64 * b + k) = blockLine (pulse b) k := by
  rw [keybLine, show (64 * b + k) / 64 = b by omega, show (64 * b + k) % 64 = k by omega]

theorem stalled_block (b : Nat) : Clocked.run Wire.next Port.reset.wire keybLine (64 * (b + 1)) = Wire.rest := by
  induction b with
  | zero => decide +kernel
  | succ b ih =>
    rw [show 64 * (b + 1 + 1) = 64 * (b + 1) + 64 by omega, Clocked.run_add, ih,
      Clocked.run_congr fun k hk => keybLine_block (b + 1) hk]
    exact Wire.block_rest _

/-- The clocks in which the controller sees the keyboard's clock fall. -/
theorem stalled_wasClk {t : Nat} (h : 64 ≤ t) :
    (stalled.port .keyboard t).wasClk = (pulse (t / 64) && t % 64 == 6) := by
  obtain ⟨b, k, hk, rfl⟩ : ∃ b k, k < 64 ∧ t = 64 * (b + 1) + k := ⟨t / 64 - 1, t % 64, by omega, by omega⟩
  show (stalled.port .keyboard (64 * (b + 1) + k)).wire.wasClk = _
  rw [stalled_wire, Clocked.run_add, stalled_block,
    Clocked.run_congr fun j hj => keybLine_block (b + 1) (show j < 64 by omega), Wire.block_wasClk _ _ hk,
    show (64 * (b + 1) + k) / 64 = b + 1 by omega, show (64 * (b + 1) + k) % 64 = k by omega]

/-- Pulses in blocks that come one after another. -/
theorem pulses_blocks {p : Nat → Bool} {b : Nat} (hp : ∀ t, 64 * b ≤ t → p t = (t % 64 == 6)) (j : Nat) :
    Clocked.pulses p (64 * b) (64 * (b + j)) = j := by
  induction j with
  | zero => simp
  | succ j ih =>
    rw [Clocked.pulses_add p (b := 64 * (b + j)) (by omega) (by omega), ih,
      Clocked.pulses_eq_one (r := 64 * (b + j) + 6) (by omega) (by omega)]
    · rw [hp _ (by omega), beq_iff_eq]
      omega
    · intro u h1 h2 hne
      rw [hp u (by omega), beq_eq_false_iff_ne]
      omega

/-! ## The controller while the byte waits -/

/-- The byte waits for the keyboard, and nothing keeps it from being sent. -/
structure Waiting (s : Controller) : Prop where
  full : s.statusInputbufferfull = true
  undone : s.inputWriteDone = false
  keyb : s.inputForMouse = false
  enabled : s.disableKeyboard = false
  noReply : s.keybReplyValid = false
  used : s.keybFifo.usedw = 0
  room : s.keybFifo.full = false

namespace Waiting

variable {s : Controller} {i : ControllerIn}

theorem step (h : Waiting s) (hserves : s.Serves) (hcs : i.ioCs = false) (hfin : s.keyb.state ≠ .sendFinished)
    (hrecv : s.keyb.state ≠ .recvWaitForIdle) : Waiting (s.running i) := by
  have hpend : s.pending = true := by simp [Controller.pending, h.full, h.undone]
  have ht : s.target = .keyboard := by simp [Controller.target, h.keyb]
  obtain ⟨hk, hm⟩ := hserves.writeDone_of ht hfin
  have hno := Controller.not_accepts h.full i
  have hwrite : Controller.ioMWrite i = false := by simp [Controller.ioMWrite, hcs]
  have hread : Controller.ioMRead i = false := by simp [Controller.ioMRead, hcs]
  have hfinal : s.keyb.recvFinal = false := by simp [Port.recvFinal, hrecv]
  have hcmd : ∀ c, Controller.command i c = false := fun c => by
    simp [Controller.command, Controller.cmdWithoutParam, Controller.writes64, hwrite]
  have hparam : ∀ c, s.param i c = false := fun c => by
    simp [Controller.param, Controller.cmdWithParam, Controller.writes60, hwrite]
  have hpending := Controller.pending_running (i := i) hpend hk hm
  rw [Controller.pending, Bool.and_eq_true, Bool.not_eq_true'] at hpending
  rw [Controller.accepts, Bool.or_eq_false_iff] at hno
  have hfifo : (s.running i).keybFifo = s.keybFifo := by
    show s.keybFifo.step (Controller.command i 0xAA) (s.keybFifoRdreq i) s.keybFifoWrreq s.keybFifoData = s.keybFifo
    have hrd : s.keybFifoRdreq i = false := by
      simp [Controller.keybFifoRdreq, Controller.reads60, Controller.ioReadValid, hread]
    have hwr : s.keybFifoWrreq = false := by
      simp [Controller.keybFifoWrreq, Controller.keybReplyDone, h.noReply, hfinal]
    rw [hcmd, hrd, hwr, Common.SimpleFifo.step_idle]
  refine ⟨hpending.1, hpending.2, ?_, ?_, ?_, ?_, ?_⟩
  · simpa [Controller.running, hno] using h.keyb
  · simpa [Controller.running, hno, Controller.cmdWriteCommandByte, hparam, Controller.cmdDisableKeyb, hcmd,
      Controller.cmdEnableKeyb] using h.enabled
  · simp [Controller.running, Controller.cmdWriteToKeybOutput, hparam, Controller.cmdReadCommandByte,
      Controller.cmdTestMousePort, Controller.cmdSelfTest, Controller.cmdInterfaceTest, Controller.cmdReadInputPort,
      Controller.cmdReadControllerMode, Controller.cmdReadOutputPort, hcmd, h.noReply]
  · rw [hfifo, h.used]
  · rw [hfifo, h.room]

theorem nearlyFull_eq (h : Waiting s) : (s.keybIn i).nearlyFull = false := by
  simp [Controller.keybIn, Controller.fifoCounter, h.used, h.room]

/-- An idle port takes the byte up. -/
theorem idle_step (h : Waiting s) (hrst : i.rstN = true) (hs : s.keyb.state = .idle) (ht : s.keyb.timeoutReset = false) :
    ((s.running i).port .keyboard).state = .sendInhibit := by
  have hpend : (s.keybIn i).pending = true := by simp [Controller.keybIn, Controller.pending, h.full, h.undone, h.keyb]
  have hdis : (s.keybIn i).disabled = false := h.enabled
  rw [Controller.running_port]
  show (s.keyb.step (s.keybIn i)).state = _
  rw [Port.step_of_rstN hrst, Port.stateNext, ht, hs, h.nearlyFull_eq, hdis, hpend]
  rfl

end Waiting

/-! ## The two attempts -/

/-- The signal that the keyboard's clock falls. -/
def stalledFalls (t : Nat) : Bool := (stalled.port .keyboard t).wasClk

theorem pulses_mono {p : Nat → Bool} {a b c : Nat} (hbc : b ≤ c) : Clocked.pulses p a b ≤ Clocked.pulses p a c := by
  unfold Clocked.pulses
  exact Nat.count_monotone _ (by omega)

/-- A clock `k` of an attempt that begins in clock `s`. -/
structure AttemptAt (s k : Nat) : Prop where
  waiting : Waiting (stalled.state (s + k))
  attempt : (stalled.port .keyboard (s + k)).Attempt k
  counter : 8192 < k →
    (stalled.port .keyboard (s + k)).bitCounter.toNat = Clocked.pulses stalledFalls (s + 8193) (s + k)

/-- An attempt goes on until its last bit has been sent, or to the time limit. -/
theorem attemptAt {s : Nat} (hs : 0 < s) (hstate : (stalled.port .keyboard s).state = .sendInhibit)
    (ht : (stalled.port .keyboard s).timeoutReset = false) (hwait : Waiting (stalled.state s)) (k : Nat) (hk1 : 1 ≤ k)
    (hk : k ≤ 0x3FFFFFF) (hpulses : Clocked.pulses stalledFalls (s + 8193) (s + k) ≤ 9) : AttemptAt s k := by
  have hin : ∀ t, ((stalled.state t).portIn (stalled.inputs t) .keyboard).rstN = true :=
    fun t => (Controller.portIn_rstN _).trans (stalled_rstN t)
  induction k, hk1 using Nat.le_induction with
  | base =>
    refine ⟨?_, ?_, by omega⟩
    · rw [Ps2Run.running_succ (stalled_rstN s)]
      exact hwait.step (stalled.serves s) (stalled_ioCs hs)
        (by rw [show (stalled.state s).keyb.state = _ from hstate]; simp)
        (by rw [show (stalled.state s).keyb.state = _ from hstate]; simp)
    · rw [port_succ (stalled_rstN s)]
      exact Port.attempt_start (hin s) hstate ht
  | succ k hk1 ih =>
    have hle : Clocked.pulses stalledFalls (s + 8193) (s + k) ≤ 9 := (pulses_mono (by omega)).trans hpulses
    have h := ih (by omega) hle
    obtain ⟨-, hfin, hrecv, -⟩ := attemptState_sending k
    rw [← h.attempt.state] at hfin hrecv
    have hnext := Clocked.pulses_succ stalledFalls (a := s + 8193) (b := s + k)
    -- the device has not clocked all ten bits out
    have hlast : ((stalled.port .keyboard (s + k)).writeShift && (stalled.port .keyboard (s + k)).bitCounter == 9) =
        false := by
      by_contra hno
      simp only [Port.writeShift, Bool.and_eq_true, beq_iff_eq, Bool.not_eq_false] at hno
      obtain ⟨⟨hbits, hfalls⟩, hnine⟩ := hno
      have hlt := lt_of_attemptState (h.attempt.state.symm.trans hbits)
      have hcount := h.counter hlt
      rw [hnine] at hcount
      rw [← Nat.add_assoc, hnext (by omega), ← hcount,
        if_pos (show stalledFalls (s + k) = true from hfalls)] at hpulses
      exact absurd hpulses (by decide)
    refine ⟨?_, ?_, fun hlt => ?_⟩
    · rw [← Nat.add_assoc, Ps2Run.running_succ (stalled_rstN (s + k))]
      exact h.waiting.step (stalled.serves (s + k)) (stalled_ioCs (by omega)) hfin hrecv
    · rw [← Nat.add_assoc, port_succ (stalled_rstN (s + k))]
      exact h.attempt.step (by omega) (hin (s + k)) hlast
    · rw [← Nat.add_assoc, port_succ (stalled_rstN (s + k)), h.attempt.bitCounter_succ (by omega) (hin (s + k))]
      by_cases hrelease : k = 8192
      · rw [if_pos hrelease, hrelease]
        simp
      · have hcount := h.counter (by omega)
        have hshift : (stalled.port .keyboard (s + k)).writeShift = stalledFalls (s + k) := by
          simp [Port.writeShift, stalledFalls, h.attempt.state, attemptState_of_gt (show 8192 < k by omega)]
        rw [if_neg hrelease, hnext (by omega), hshift, ← hcount]
        cases stalledFalls (s + k) with
        | false => rfl
        | true =>
          simp only [if_true]
          bv_omega

theorem stalledFalls_eq {t : Nat} (h : 64 ≤ t) :
    stalledFalls t = decide (t % 64 = 6 ∧ (t / 64 = 129 ∨ 1048705 ≤ t / 64)) := by
  rw [stalledFalls, stalled_wasClk h, pulse, Bool.eq_iff_iff]
  simp
  tauto

/-- The first attempt sees one edge. -/
theorem pulses_first {t : Nat} (h : t ≤ 67117120) : Clocked.pulses stalledFalls 8195 t ≤ 1 := by
  refine (pulses_mono h).trans_eq (Clocked.pulses_eq_one (r := 8262) (by omega) (by omega) ?_ ?_)
  · rw [stalledFalls_eq (by omega)]
    decide
  · intro u h1 h2 hne
    rw [stalledFalls_eq (by omega), decide_eq_false_iff_not]
    omega

/-- The second attempt sees as many as it needs. -/
theorem pulses_second : Clocked.pulses stalledFalls 67117060 67117702 = 9 := by
  have hnone : ∀ a b, 64 ≤ a → (∀ u, a ≤ u → u < b → ¬(u % 64 = 6 ∧ (u / 64 = 129 ∨ 1048705 ≤ u / 64))) →
      Clocked.pulses stalledFalls a b = 0 := by
    intro a b ha hno
    refine Clocked.pulses_eq_zero fun u h1 h2 => ?_
    rw [stalledFalls_eq (by omega), decide_eq_false_iff_not]
    exact hno u h1 h2
  have hblocks := pulses_blocks (p := stalledFalls) (b := 1048705) (fun t h => by
    rw [stalledFalls_eq (by omega), Bool.eq_iff_iff, decide_eq_true_iff, beq_iff_eq]
    omega) 9
  rw [show 64 * 1048705 = 67117120 by omega, show 64 * (1048705 + 9) = 67117696 by omega] at hblocks
  calc Clocked.pulses stalledFalls 67117060 67117702
      = Clocked.pulses stalledFalls 67117060 67117120 + (Clocked.pulses stalledFalls 67117120 67117696 +
          Clocked.pulses stalledFalls 67117696 67117702) := by
        rw [← Clocked.pulses_add stalledFalls (by omega) (by omega),
          ← Clocked.pulses_add stalledFalls (by omega) (by omega)]
    _ = 9 := by
        rw [hnone 67117060 67117120 (by omega) (by omega), hnone 67117696 67117702 (by omega) (by omega), hblocks]

theorem firstAttempt {k : Nat} (hk1 : 1 ≤ k) (hk : k ≤ 0x3FFFFFF) : AttemptAt 2 k := by
  have hwait : Waiting (stalled.state 2) := by
    constructor <;> decide
  exact attemptAt (by omega) (by decide) (by decide) hwait k hk1 hk
    ((pulses_first (t := 2 + k) (by omega)).trans (by omega))

/-- An attempt that is not ended in time is begun again. -/
theorem begins_again {s k : Nat} (h : AttemptAt s k) (hs : 0 < s) (hk : k = 0x3FFFFFF) :
    (stalled.port .keyboard (s + k + 2)).state = .sendInhibit ∧
      (stalled.port .keyboard (s + k + 2)).timeoutReset = false ∧ Waiting (stalled.state (s + k + 2)) := by
  have hin : ∀ t, ((stalled.state t).portIn (stalled.inputs t) .keyboard).rstN = true :=
    fun t => (Controller.portIn_rstN _).trans (stalled_rstN t)
  obtain ⟨-, hfin, hrecv, -⟩ := attemptState_sending k
  rw [← h.attempt.state] at hfin hrecv
  have hidle := h.attempt.timesOut hk (hin (s + k))
  rw [← port_succ (stalled_rstN (s + k))] at hidle
  have hwait := h.waiting.step (stalled.serves (s + k)) (stalled_ioCs (t := s + k) (by omega)) hfin hrecv
  rw [← Ps2Run.running_succ (stalled_rstN (s + k))] at hwait
  have hreset : (stalled.port .keyboard (s + k + 1)).timeoutReset = false := by
    rw [Port.timeoutReset, hidle.2]
    rfl
  have hstate : (stalled.state (s + k + 1)).keyb.state = .idle := hidle.1
  refine ⟨?_, ?_, ?_⟩
  · rw [Ps2Run.port, Ps2Run.running_succ (stalled_rstN (s + k + 1))]
    exact hwait.idle_step (stalled_rstN (s + k + 1)) hstate hreset
  · rw [port_succ (stalled_rstN (s + k + 1))]
    simp [Port.step, Port.timeoutReset, hin, hidle.1]
  · rw [Ps2Run.running_succ (stalled_rstN (s + k + 1))]
    exact hwait.step (stalled.serves (s + k + 1)) (stalled_ioCs (by omega)) (by rw [hstate]; simp) (by rw [hstate]; simp)

theorem secondAttempt {k : Nat} (hk1 : 1 ≤ k) (hk : k ≤ 8835) : AttemptAt 67108867 k := by
  obtain ⟨hstate, ht, hwait⟩ := begins_again (firstAttempt (k := 0x3FFFFFF) (by omega) le_rfl) (by omega) rfl
  rw [show 2 + 0x3FFFFFF + 2 = 67108867 by omega] at hstate ht hwait
  exact attemptAt (by omega) hstate ht hwait k hk1 (by omega)
    ((pulses_mono (c := 67117702) (by omega)).trans pulses_second.le)

theorem stalled_frame : stalled.Frame .keyboard 67117059 643 := by
  refine ⟨?_, fun m h1 h2 => ?_, ?_⟩
  · exact (secondAttempt (k := 8192) (by omega) (by omega)).attempt.state
  · rw [show 67117059 + m = 67108867 + (8192 + m) by omega, (secondAttempt (by omega) (by omega)).attempt.state]
    exact attemptState_of_gt (by omega)
  · have h := secondAttempt (k := 8835) (by omega) le_rfl
    have hcount : (stalled.port .keyboard (67108867 + 8835)).bitCounter = 9 :=
      BitVec.eq_of_toNat_eq ((h.counter (by omega)).trans pulses_second)
    have hfalls : (stalled.port .keyboard (67108867 + 8835)).wasClk = true := by
      rw [← stalledFalls, stalledFalls_eq (by omega)]
      decide
    have hbits : (stalled.port .keyboard (67108867 + 8835)).state = .sendBits := h.attempt.state
    show (stalled.port .keyboard (67108867 + 8835 + 1)).state = _
    rw [port_succ (stalled_rstN _), Port.step_of_rstN ((Controller.portIn_rstN _).trans (stalled_rstN _)), Port.stateNext,
      h.attempt.timeoutReset_eq (by omega), Port.writeShift, hcount, hfalls, hbits]
    rfl

theorem stalled_sends : stalled.Sends 0 .keyboard 0xFF .keyboard 67117059 643 where
  writes := ⟨rfl, rfl, by decide, rfl⟩
  later := by omega
  last v hv _ := by
    have hno : Controller.ioMWrite (stalled.inputs v) = false := by simp [Controller.ioMWrite, stalled_ioCs hv]
    simp [Controller.accepts, Controller.writeToKeyb, Controller.writeToMouse, Controller.cmdWriteToMouse,
      Controller.param, Controller.cmdWithParam, Controller.writes60, hno]
  running v _ _ := stalled_rstN v
  frame := stalled_frame

end ResetRun

namespace Ps2Run

variable {r : Ps2Run}

/-- A bit that is shifted out is counted. -/
theorem shiftsTo_pos {a m n : Nat} (hm : m < n) (h : (r.state (a + m + 1)).shifts = true) : 0 < r.shiftsTo a n := by
  induction n, hm using Nat.le_induction with
  | base =>
    rw [shiftsTo, h, if_pos rfl]
    omega
  | succ n hn ih =>
    rw [shiftsTo]
    omega

end Ps2Run

namespace ResetRun

/-- After a device has stopped in the middle of a frame, the next frame carries another byte. -/
theorem stalled_not_framesRight : ¬ stalled.FramesRight := by
  intro h
  have hsends := stalled_sends
  obtain ⟨-, hframe⟩ := h _ _ _ _ _ _ hsends
  rw [(frame_of_sends hsends).2] at hframe
  have hshift : (stalled.state (2 + 8260)).shifts = true := by
    have hfirst := (firstAttempt (k := 8260) (by omega) (by omega)).attempt.state
    have hfalls : (stalled.port .keyboard (2 + 8260)).wasClk = true := by
      rw [← stalledFalls, stalledFalls_eq (by omega)]
      decide
    have hw : (stalled.state (2 + 8260)).keyb.writeShift = true := by
      show (stalled.port .keyboard (2 + 8260)).writeShift = true
      rw [Port.writeShift, hfirst, hfalls, attemptState_of_gt (by omega)]
      rfl
    rw [Controller.shifts, hw, Bool.true_or]
  rw [show 2 + 8260 = 0 + 8261 + 1 by omega] at hshift
  have hpos : 0 < stalled.shiftsTo 0 (67117059 - 0 - 1) := Ps2Run.shiftsTo_pos (m := 8261) (by omega) hshift
  rcases shiftRight_eq_self.1 (frameOf_injective hframe) with hzero | hzero
  · omega
  · exact absurd hzero (by decide)

end ResetRun

end Z486.Ps2
