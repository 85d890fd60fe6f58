/-
The frames that the PS/2 controller sends. The bytes for both devices are shifted out of one register, which is not
loaded again when a transmission has to be begun again.
-/
import Z486.Ps2.OutputBuffer

namespace Z486.Ps2

/-! ## Frames -/

/-- The parity of the bits below `j`. -/
def xorTo (b : BitVec 8) : Nat → Bool
  | 0 => false
  | j + 1 => xorTo b j ^^ b.getLsbD j

/-- A start bit, the bits of a byte from the lowest on, and a bit that makes their parity odd. -/
def sent (b : BitVec 8) : List Bool := false :: (List.range 8).map b.getLsbD ++ [!xorTo b 8]

/-- A frame, with its stop bit. -/
def frameOf (b : BitVec 8) : List Bool := sent b ++ [true]

/-- A byte is being sent. -/
def PortState.sending : PortState → Bool
  | .sendInhibit | .sendInhibitWait | .sendDataLow | .sendClockRelease | .sendBits | .sendWaitForAck | .sendWaitForIdle
  | .sendFinished => true
  | _ => false

namespace Controller

variable (s : Controller) (i : ControllerIn)

def port : Device → Port
  | .keyboard => s.keyb
  | .mouse => s.mouse

def portIn : Device → PortIn
  | .keyboard => s.keybIn i
  | .mouse => s.mouseIn i

/-- The device that the byte in the input buffer is for. -/
def target : Device := if s.inputForMouse then .mouse else .keyboard

/-- A bit is shifted out of the input buffer. -/
def shifts : Bool := s.keyb.writeShift || s.mouse.writeShift

end Controller

namespace Ps2Run

variable (r : Ps2Run)

def port (d : Device) (t : Nat) : Port := (r.state t).port d

/-- The bits on the data line in those of the `n` clocks after clock `c` in which the device's clock falls. -/
def shiftBits (d : Device) (c : Nat) : Nat → List Bool
  | 0 => []
  | n + 1 => shiftBits d c n ++ if (r.port d (c + n + 1)).writeShift then [(r.port d (c + n + 1)).datOut] else []

/-- The port has released the clock line in clock `c`, sends bits in the `n` clocks after it, and then waits for the
device to acknowledge the frame. -/
structure Frame (d : Device) (c n : Nat) : Prop where
  releases : (r.port d c).state = .sendClockRelease
  sends : ∀ m, 0 < m → m ≤ n → (r.port d (c + m)).state = .sendBits
  ends : (r.port d (c + n + 1)).state = .sendWaitForAck

/-- What the device gets of a frame. -/
def frame (d : Device) (c n : Nat) : List Bool := r.shiftBits d c n ++ [(r.port d (c + n + 1)).datOut]

/-- The guest writes the byte `b` for device `d`, with the input buffer empty. -/
structure Writes (a : Nat) (d : Device) (b : BitVec 8) : Prop where
  running : (r.inputs a).rstN = true
  empty : (r.state a).statusInputbufferfull = false
  accepts : (match d with
    | .keyboard => (r.state a).writeToKeyb (r.inputs a)
    | .mouse => (r.state a).writeToMouse (r.inputs a)) = true
  byte : (r.inputs a).ioWritedata = b

/-- A frame that port `e` sends for the write of clock `a`. -/
structure Sends (a : Nat) (d : Device) (b : BitVec 8) (e : Device) (c n : Nat) : Prop where
  writes : r.Writes a d b
  later : a < c
  last : ∀ v, a < v → v < c → (r.state v).accepts (r.inputs v) = false
  running : r.Running a (c + n + 1)
  frame : r.Frame e c n

/-- The bits that have been shifted out between clock `a` and clock `c`. -/
def shiftsTo (a : Nat) : Nat → Nat
  | 0 => 0
  | n + 1 => shiftsTo a n + if (r.state (a + n + 1)).shifts then 1 else 0

/-- Every frame carries the byte that was written, to the device that it was written for. -/
def FramesRight : Prop := ∀ a d b e c n, r.Sends a d b e c n → e = d ∧ r.frame e c n = frameOf b

/-- No bit of a byte other than 0 has been shifted out before a frame that carries it begins. -/
def Unshifted : Prop := ∀ a d b e c n, r.Sends a d b e c n → r.shiftsTo a (c - a - 1) = 0 ∨ b = 0

end Ps2Run

/-! ## One clock of a port -/

namespace Port

variable {p : Port} {i : PortIn}

theorem step_of_rstN (h : i.rstN = true) : (p.step i).state = p.stateNext i := by
  unfold step
  rw [h]
  rfl

/-- A port sends because it has sent, or because a byte waits. -/
theorem sending_step (h : i.rstN = true) (hs : (p.step i).state.sending = true) :
    (p.state.sending = true ∧ p.state ≠ .sendFinished) ∨ (p.state.sending = false ∧ i.pending = true) := by
  rw [step_of_rstN h] at hs
  by_cases hp : p.state.sending = true
  · refine .inl ⟨hp, fun hfin => ?_⟩
    rw [stateNext, hfin] at hs
    split at hs <;> exact nomatch hs
  · rw [Bool.not_eq_true] at hp
    refine .inr ⟨hp, ?_⟩
    by_contra hno
    rw [Bool.not_eq_true] at hno
    -- without a byte the other states lead to one another
    unfold stateNext at hs
    rw [hno] at hs
    revert hs
    split
    · simp [PortState.sending]
    · cases hstate : p.state <;> rw [hstate] at hp <;> simp only [PortState.sending, Bool.true_eq_false] at hp
      all_goals
        simp only [Bool.and_false, Bool.false_and, Bool.false_eq_true, if_false]
        repeat' split
        all_goals simp [PortState.sending]

/-- The data line is low from the start bit on. -/
structure Held (p : Port) : Prop where
  wait : p.state = .sendInhibitWait → 8 ≤ p.timer.toNat ∨ (p.datEna = true ∧ p.datHost = false ∧ p.timer.toNat < 8)
  low : p.state = .sendDataLow → p.timer = 7
  release : p.state = .sendClockRelease → p.datEna = true ∧ p.datHost = false

/-- What a clock of a port that is not about to time out leaves in it. -/
theorem step_timer (h : i.rstN = true) (ht : p.timeoutReset = false) (hs : p.state = .sendInhibitWait) :
    (p.step i).timer = (if p.timer > 0 then p.timer - 1 else p.timer) ∧ (p.step i).datEna = p.datEna ∧
      (p.step i).datHost = p.datHost := by
  simp [step, h, ht, hs, writeShift]

/-- A port that may time out is idle then. -/
theorem timeoutReset_of_ne (h : i.rstN = true) (hs : (p.step i).state ≠ .idle) : p.timeoutReset = false := by
  rw [step_of_rstN h] at hs
  by_contra ht
  rw [Bool.not_eq_false] at ht
  exact hs (by rw [stateNext, if_pos ht])

theorem state_of_inhibitWait (h : i.rstN = true) (ht : p.timeoutReset = false)
    (hs : (p.step i).state = .sendInhibitWait) :
    p.state = .sendInhibit ∨ p.state = .sendDataLow ∨ (p.state = .sendInhibitWait ∧ p.timer ≠ 8 ∧ p.timer ≠ 1) := by
  rw [step_of_rstN h, stateNext, ht] at hs
  revert hs
  cases hstate : p.state <;> simp only [Bool.false_eq_true, if_false] <;> (repeat' split) <;> simp_all

theorem state_of_dataLow (h : i.rstN = true) (ht : p.timeoutReset = false) (hs : (p.step i).state = .sendDataLow) :
    p.state = .sendInhibitWait ∧ p.timer = 8 := by
  rw [step_of_rstN h, stateNext, ht] at hs
  revert hs
  cases hstate : p.state <;> simp only [Bool.false_eq_true, if_false] <;> (repeat' split) <;> simp_all

theorem state_of_clockRelease (h : i.rstN = true) (ht : p.timeoutReset = false)
    (hs : (p.step i).state = .sendClockRelease) : p.state = .sendInhibitWait ∧ p.timer = 1 := by
  rw [step_of_rstN h, stateNext, ht] at hs
  revert hs
  cases hstate : p.state <;> simp only [Bool.false_eq_true, if_false] <;> (repeat' split) <;> simp_all

theorem Held.step (hp : p.Held) (h : i.rstN = true) : (p.step i).Held := by
  refine ⟨fun hs => ?_, fun hs => ?_, fun hs => ?_⟩
  · have ht := timeoutReset_of_ne h (by rw [hs]; simp)
    rcases state_of_inhibitWait h ht hs with hfrom | hfrom | ⟨hfrom, h8, h1⟩
    · have htimer : (p.step i).timer = 8191 := by simp [Port.step, h, ht, hfrom]
      exact .inl (by rw [htimer]; decide)
    · have hlow : (p.step i).timer = 6 ∧ (p.step i).datEna = true ∧ (p.step i).datHost = false := by
        simp [Port.step, h, ht, hfrom, hp.low hfrom]
      exact .inr ⟨hlow.2.1, hlow.2.2, by rw [hlow.1]; decide⟩
    · obtain ⟨htimer, hena, hhost⟩ := step_timer h ht hfrom
      have h8' : p.timer.toNat ≠ 8 := fun he => h8 (BitVec.eq_of_toNat_eq he)
      have hless : (p.step i).timer.toNat = p.timer.toNat - 1 := by
        rw [htimer]
        split <;> bv_omega
      rw [hless, hena, hhost]
      rcases hp.wait hfrom with hge | ⟨he, hh, hlt⟩
      · exact .inl (by omega)
      · exact .inr ⟨he, hh, by omega⟩
  · have ht := timeoutReset_of_ne h (by rw [hs]; simp)
    obtain ⟨hfrom, h8⟩ := state_of_dataLow h ht hs
    rw [(step_timer h ht hfrom).1, h8]
    rfl
  · have ht := timeoutReset_of_ne h (by rw [hs]; simp)
    obtain ⟨hfrom, h1⟩ := state_of_clockRelease h ht hs
    obtain ⟨-, hena, hhost⟩ := step_timer h ht hfrom
    rw [hena, hhost]
    rcases hp.wait hfrom with hge | ⟨he, hh, -⟩
    · rw [h1] at hge
      exact absurd hge (by decide)
    · exact ⟨he, hh⟩

theorem held_reset : reset.Held := ⟨nofun, nofun, nofun⟩

end Port

/-! ## One clock of the controller -/

namespace Controller

variable {s : Controller} {i : ControllerIn}

theorem running_port (d : Device) : (s.running i).port d = (s.port d).step (s.portIn i d) := by
  cases d <;> rfl

theorem portIn_rstN (d : Device) : (s.portIn i d).rstN = i.rstN := by
  cases d <;> rfl

theorem portIn_pending (d : Device) : (s.portIn i d).pending = true ↔ s.pending = true ∧ s.target = d := by
  cases d <;> simp [portIn, keybIn, mouseIn, target]

/-- A port sends only while a byte for its device waits; the data line is low from the start bit on. -/
structure Serves (s : Controller) : Prop where
  waits : ∀ d, (s.port d).state.sending = true → s.pending = true ∧ s.target = d
  held : ∀ d, (s.port d).Held

/-- No byte is accepted while one waits. -/
theorem not_accepts (h : s.statusInputbufferfull = true) (i : ControllerIn) : s.accepts i = false := by
  simp [accepts, writeToKeyb, writeToMouse, cmdWriteToMouse, param, cmdWithParam, h]

theorem full_of_pending (h : s.pending = true) : s.statusInputbufferfull = true := by
  rw [pending, Bool.and_eq_true] at h
  exact h.1

theorem target_running (h : s.accepts i = false) : (s.running i).target = s.target := by
  rw [accepts, Bool.or_eq_false_iff] at h
  show (if (if s.writeToKeyb i then false else if s.writeToMouse i then true else s.inputForMouse) then
    Device.mouse else Device.keyboard) = _
  rw [h.1, h.2]
  rfl

/-- A byte waits until a port has sent it. -/
theorem pending_running (h : s.pending = true) (hk : s.keyb.writeDone = false) (hm : s.mouse.writeDone = false) :
    (s.running i).pending = true := by
  have hno := not_accepts (full_of_pending h) i
  rw [pending, Bool.and_eq_true, Bool.not_eq_true'] at h
  simp [running, pending, hno, hk, hm, h]

theorem Serves.writeDone_of (h : s.Serves) {d : Device} (ht : s.target = d) (hd : (s.port d).state ≠ .sendFinished) :
    s.keyb.writeDone = false ∧ s.mouse.writeDone = false := by
  have hall : ∀ e, (s.port e).state ≠ .sendFinished := by
    intro e he
    have hte := (h.waits e (by rw [he]; rfl)).2
    rw [← ht, hte] at hd
    exact hd he
  exact ⟨beq_eq_false_iff_ne.2 (hall .keyboard), beq_eq_false_iff_ne.2 (hall .mouse)⟩

theorem Serves.step (h : s.Serves) (hrst : i.rstN = true) : (s.running i).Serves := by
  have hin : ∀ d, (s.portIn i d).rstN = true := fun d => (portIn_rstN d).trans hrst
  refine ⟨fun d hs => ?_, fun d => ?_⟩
  · rw [running_port] at hs
    obtain ⟨hpend, ht, hd⟩ : s.pending = true ∧ s.target = d ∧ (s.port d).state ≠ .sendFinished := by
      rcases Port.sending_step (hin d) hs with ⟨hsend, hne⟩ | ⟨hsend, hpend⟩
      · exact ⟨(h.waits d hsend).1, (h.waits d hsend).2, hne⟩
      · exact ⟨((portIn_pending d).1 hpend).1, ((portIn_pending d).1 hpend).2, fun he => by rw [he] at hsend; cases hsend⟩
    obtain ⟨hk, hm⟩ := h.writeDone_of ht hd
    exact ⟨pending_running hpend hk hm, (target_running (not_accepts (full_of_pending hpend) i)).trans ht⟩
  · rw [running_port]
    exact (h.held d).step (hin d)

theorem serves_reset (s : Controller) (i : ControllerIn) : (s.reset i).Serves := by
  refine ⟨fun d hs => ?_, fun d => ?_⟩
  · cases d <;> exact nomatch hs
  · cases d <;> exact Port.held_reset

/-- Only the port of the byte's device shifts. -/
theorem Serves.shifts_eq (h : s.Serves) (d : Device) (ht : s.target = d) : s.shifts = (s.port d).writeShift := by
  have hother : ∀ e, e ≠ d → (s.port e).writeShift = false := by
    intro e he
    by_contra hno
    simp only [Port.writeShift, Bool.and_eq_true, beq_iff_eq, Bool.not_eq_false] at hno
    exact he ((h.waits e (by rw [hno.1]; rfl)).2.symm.trans ht)
  cases d with
  | keyboard =>
    have hm := hother .mouse (by simp)
    rw [shifts, show s.mouse.writeShift = false from hm, Bool.or_false]
    rfl
  | mouse =>
    have hk := hother .keyboard (by simp)
    rw [shifts, show s.keyb.writeShift = false from hk, Bool.false_or]
    rfl

theorem inputbuffer_running (h : s.accepts i = false) :
    (s.running i).inputbuffer = if s.shifts then s.inputbuffer >>> 1 else s.inputbuffer := by
  have hshift : ∀ x : BitVec 8, (0#1 ++ x.extractLsb' 1 7 : BitVec 8) = x >>> 1 := by decide
  show (if s.accepts i then i.ioWritedata else if s.shifts then (0#1 ++ s.inputbuffer.extractLsb' 1 7 : BitVec 8) else
    s.inputbuffer) = _
  rw [h, hshift]
  rfl

end Controller

/-! ## A frame, bit by bit -/

theorem sent_getElem? {b : BitVec 8} {j : Nat} (h : j < 8) : (sent b)[j + 1]? = some (b.getLsbD j) := by
  simp [sent, List.getElem?_append, h]

theorem sent_getElem?_last (b : BitVec 8) : (sent b)[9]? = some (!xorTo b 8) := by
  simp [sent]

theorem sent_injective {b c : BitVec 8} (h : sent b = sent c) : b = c := by
  apply BitVec.eq_of_getLsbD_eq
  intro j hj
  have hb := sent_getElem? (b := b) hj
  rw [h, sent_getElem? hj, Option.some_inj] at hb
  exact hb.symm

theorem frameOf_injective {b c : BitVec 8} (h : frameOf b = frameOf c) : b = c :=
  sent_injective (List.append_cancel_right h)

/-- `j` bits of the byte `b` have been shifted out of a register that holds `x` now. -/
structure Port.Shifted (p : Port) (b x : BitVec 8) (j : Nat) : Prop where
  le : j ≤ 9
  counter : p.bitCounter = BitVec.ofNat 4 j
  parity : p.parity = xorTo b j
  enabled : p.datEna = true
  shows : (sent b)[j]? = some p.datHost
  left : x = b >>> j

namespace Port.Shifted

variable {p : Port} {i : PortIn} {b x : BitVec 8} {j : Nat}

theorem datOut_eq (h : p.Shifted b x j) : (sent b)[j]? = some p.datOut := by
  rw [h.shows, Port.datOut, h.enabled]
  rfl

theorem counter_eq (h : p.Shifted b x j) {k : Nat} (hk : k ≤ 9) : p.bitCounter = BitVec.ofNat 4 k ↔ j = k := by
  have hle := h.le
  rw [h.counter, ← BitVec.toNat_inj, BitVec.toNat_ofNat, BitVec.toNat_ofNat]
  omega

/-- A clock in which the device's clock does not fall. -/
theorem hold (h : p.Shifted b x j) (hrst : i.rstN = true) (ht : p.timeoutReset = false) (hs : p.state = .sendBits)
    (hw : p.writeShift = false) : (p.step i).Shifted b x j := by
  have hrecv : p.recv = false := by simp [recv, hs]
  refine ⟨h.le, ?_, ?_, ?_, ?_, h.left⟩
  · rw [← h.counter]
    simp [Port.step, hrst, ht, hs, hw, hrecv]
  · rw [← h.parity]
    simp [Port.step, hrst, hs, hw, hrecv]
  · rw [← h.enabled]
    simp [Port.step, hrst, ht, hs, hw]
  · rw [h.shows]
    simp [Port.step, hrst, hs, hw]

/-- A clock in which the device's clock falls. -/
theorem shift (h : p.Shifted b x j) (hrst : i.rstN = true) (ht : p.timeoutReset = false) (hs : p.state = .sendBits)
    (hw : p.writeShift = true) (hj : j ≠ 9) (hx : i.inputbuffer0 = x.getLsbD 0) :
    (p.step i).Shifted b (x >>> 1) (j + 1) := by
  have hle := h.le
  have hbit : i.inputbuffer0 = b.getLsbD j := by
    rw [hx, h.left]
    simp
  have hnine : p.bitCounter ≠ 9 := fun he => hj ((h.counter_eq (k := 9) le_rfl).1 he)
  refine ⟨by omega, ?_, ?_, ?_, ?_, ?_⟩
  · have hcount : (p.step i).bitCounter = p.bitCounter + 1 := by simp [Port.step, hrst, ht, hs, hw]
    rw [hcount, h.counter]
    apply BitVec.eq_of_toNat_eq
    simp
  · have hpar : (p.step i).parity = (p.parity ^^ i.inputbuffer0) := by simp [Port.step, hrst, hs, hw]
    rw [hpar, h.parity, hbit]
    rfl
  · simp [Port.step, hrst, ht, hs, hw]
    exact ⟨hnine, h.enabled⟩
  · by_cases hlt : j < 8
    · have hless : p.bitCounter < 8 := by
        rw [h.counter, BitVec.lt_def, BitVec.toNat_ofNat]
        show j % 16 < 8
        omega
      have hhost : (p.step i).datHost = i.inputbuffer0 := by
        unfold Port.step
        simp only [hrst, hw, decide_eq_true hless, Bool.not_true, Bool.and_true, Bool.false_eq_true, if_false, if_true]
        rw [if_neg (by simp [hs])]
      rw [sent_getElem? hlt, hhost, hbit]
    · have hj8 : j = 8 := by omega
      have height : p.bitCounter = 8 := (h.counter_eq (k := 8) (by omega)).2 hj8
      rw [hj8, sent_getElem?_last, ← hj8, ← h.parity]
      simp [Port.step, hrst, hs, hw, height]
  · rw [h.left, BitVec.shiftRight_add]

/-- The clock after the parity bit. -/
theorem finish (h : p.Shifted b x j) (hrst : i.rstN = true) (ht : p.timeoutReset = false)
    (hs : (p.step i).state = .sendWaitForAck) (hfrom : p.state = .sendBits) :
    p.writeShift = true ∧ j = 9 ∧ (p.step i).datOut = true := by
  rw [step_of_rstN hrst, stateNext, ht, hfrom] at hs
  have hlast : p.writeShift = true ∧ p.bitCounter = 9 := by
    by_contra hno
    rw [← beq_iff_eq (a := p.bitCounter), ← Bool.and_eq_true, Bool.not_eq_true] at hno
    simp only [hno, Bool.false_eq_true, if_false] at hs
    cases hs
  refine ⟨hlast.1, (h.counter_eq (k := 9) le_rfl).1 hlast.2, ?_⟩
  simp [Port.step, hrst, ht, hfrom, hlast, datOut]

end Port.Shifted

/-! ## Runs -/

namespace ResetRun

variable {r : ResetRun}

theorem serves (r : ResetRun) : ∀ t, (r.state t).Serves
  | 0 => by
    rw [show r.state 0 = r.before.reset r.resetIn from r.start_eq]
    exact Controller.serves_reset _ _
  | t + 1 => by
    rw [Ps2Run.state_succ, Controller.step]
    split
    · exact Controller.serves_reset _ _
    · rename_i hrst
      exact (serves r t).step (by simpa using hrst)

theorem port_succ {t : Nat} (hrst : (r.inputs t).rstN = true) (d : Device) :
    r.port d (t + 1) = (r.port d t).step ((r.state t).portIn (r.inputs t) d) := by
  rw [Ps2Run.port, Ps2Run.running_succ hrst, Controller.running_port]
  rfl

/-- What becomes of the input buffer while a port sends. -/
theorem inputbuffer_succ {t : Nat} {d : Device} (hrst : (r.inputs t).rstN = true)
    (hs : (r.port d t).state.sending = true) : (r.state (t + 1)).inputbuffer =
      if (r.port d t).writeShift then (r.state t).inputbuffer >>> 1 else (r.state t).inputbuffer := by
  obtain ⟨hpend, htarget⟩ := (r.serves t).waits d hs
  rw [Ps2Run.running_succ hrst,
    Controller.inputbuffer_running (Controller.not_accepts (Controller.full_of_pending hpend) _),
    (r.serves t).shifts_eq d htarget]
  rfl

section Frame

variable {d : Device} {c n : Nat} (h : r.Frame d c n) (hrun : ∀ v, c ≤ v → v ≤ c + n → (r.inputs v).rstN = true)
include h hrun

/-- What a frame has shifted out in each of its clocks. -/
theorem frame_bits (m : Nat) (hm : m < n) : ∃ j,
    (r.port d (c + m + 1)).Shifted (r.state c).inputbuffer (r.state (c + m + 1)).inputbuffer j ∧
      r.shiftBits d c m = (sent (r.state c).inputbuffer).take j := by
  induction m with
  | zero =>
    have hrst := hrun c le_rfl (by omega)
    have hin := (Controller.portIn_rstN (s := r.state c) (i := r.inputs c) d).trans hrst
    have hnext := h.sends 1 (by omega) (by omega)
    have hsucc := port_succ hrst d
    have ht : (r.port d c).timeoutReset = false :=
      Port.timeoutReset_of_ne hin (by rw [← hsucc, hnext]; simp)
    have hw : (r.port d c).writeShift = false := by simp [Port.writeShift, h.releases]
    obtain ⟨hena, hhost⟩ : (r.port d c).datEna = true ∧ (r.port d c).datHost = false :=
      ((r.serves c).held d).release h.releases
    refine ⟨0, ⟨by omega, ?_, ?_, ?_, ?_, ?_⟩, rfl⟩
    · rw [Nat.add_zero, hsucc]
      simp [Port.step, hin, ht, h.releases]
    · rw [Nat.add_zero, hsucc]
      simp [Port.step, hin, h.releases, xorTo]
    · rw [Nat.add_zero, hsucc]
      simpa [Port.step, hin, ht, h.releases, hw] using hena
    · have hlow : (r.port d (c + 1)).datHost = false := by
        rw [hsucc]
        simpa [Port.step, hin, h.releases, hw] using hhost
      rw [Nat.add_zero, hlow]
      rfl
    · rw [Nat.add_zero, inputbuffer_succ (d := d) hrst (by rw [h.releases]; rfl), hw]
      simp
  | succ m ih =>
    obtain ⟨j, hj, hbits⟩ := ih (by omega)
    have hrst := hrun (c + m + 1) (by omega) (by omega)
    have hin := (Controller.portIn_rstN (s := r.state (c + m + 1)) (i := r.inputs (c + m + 1)) d).trans hrst
    have hsucc := port_succ hrst d
    have hs : (r.port d (c + m + 1)).state = .sendBits := h.sends (m + 1) (by omega) (by omega)
    have hnext : (r.port d (c + m + 1 + 1)).state = .sendBits := h.sends (m + 2) (by omega) (by omega)
    have ht : (r.port d (c + m + 1)).timeoutReset = false :=
      Port.timeoutReset_of_ne hin (by rw [← hsucc, hnext]; simp)
    have hbuf := inputbuffer_succ (d := d) hrst (by rw [hs]; rfl)
    rw [← Nat.add_assoc c m 1, Ps2Run.shiftBits, hbits]
    cases hw : (r.port d (c + m + 1)).writeShift with
    | false =>
      refine ⟨j, ?_, by simp⟩
      rw [hsucc, hbuf, hw]
      exact hj.hold hin ht hs hw
    | true =>
      have hne : j ≠ 9 := by
        rintro rfl
        rw [hsucc, Port.step_of_rstN hin, Port.stateNext, ht, hs, hw, (hj.counter_eq (k := 9) le_rfl).2 rfl] at hnext
        cases hnext
      refine ⟨j + 1, ?_, ?_⟩
      · rw [hsucc, hbuf, hw]
        exact hj.shift hin ht hs hw hne (by cases d <;> rfl)
      · rw [List.take_add_one, hj.datOut_eq]
        rfl

/-- A frame carries what was in the input buffer when the clock line was released. -/
theorem frame_eq : r.frame d c n = frameOf (r.state c).inputbuffer := by
  obtain ⟨m, rfl⟩ : ∃ m, n = m + 1 := by
    cases n with
    | zero =>
      -- the clock after the release is not that of an acknowledge
      have hrst := hrun c le_rfl (by omega)
      have hin := (Controller.portIn_rstN (s := r.state c) (i := r.inputs c) d).trans hrst
      have hends := h.ends
      rw [Nat.add_zero, port_succ hrst d, Port.step_of_rstN hin, Port.stateNext, h.releases] at hends
      split at hends <;> cases hends
    | succ m => exact ⟨m, rfl⟩
  obtain ⟨j, hj, hbits⟩ := frame_bits h hrun m (by omega)
  have hrst := hrun (c + m + 1) (by omega) (by omega)
  have hin := (Controller.portIn_rstN (s := r.state (c + m + 1)) (i := r.inputs (c + m + 1)) d).trans hrst
  have hsucc := port_succ hrst d
  have hends : (r.port d (c + m + 1 + 1)).state = .sendWaitForAck := h.ends
  have ht : (r.port d (c + m + 1)).timeoutReset = false :=
    Port.timeoutReset_of_ne hin (by rw [← hsucc, hends]; simp)
  rw [hsucc] at hends
  obtain ⟨hw, rfl, hout⟩ := hj.finish hin ht hends (h.sends (m + 1) (by omega) le_rfl)
  have htake : (sent (r.state c).inputbuffer).take 9 ++ [(r.port d (c + m + 1)).datOut] =
      sent (r.state c).inputbuffer := by
    calc (sent (r.state c).inputbuffer).take 9 ++ [(r.port d (c + m + 1)).datOut]
        = (sent (r.state c).inputbuffer).take (9 + 1) := by
          rw [List.take_add_one (i := 9), hj.datOut_eq]
          rfl
      _ = sent (r.state c).inputbuffer := List.take_of_length_le (by simp [sent])
  rw [Ps2Run.frame, Ps2Run.shiftBits, ← Nat.add_assoc c m 1, hw, if_pos rfl, hbits, htake, hsucc, hout]
  rfl

end Frame

/-- What a write leaves of its byte until the next one. -/
theorem inputbuffer_of_writes {a n : Nat} {d : Device} {b : BitVec 8} (h : r.Writes a d b)
    (hlast : ∀ v, a < v → v < a + n + 1 → (r.state v).accepts (r.inputs v) = false)
    (hrun : ∀ v, a ≤ v → v < a + n + 1 → (r.inputs v).rstN = true) :
    (r.state (a + n + 1)).inputbuffer = b >>> r.shiftsTo a n ∧ (r.state (a + n + 1)).target = d := by
  induction n with
  | zero =>
    have haccepts := h.accepts
    rw [Nat.add_zero, Ps2Run.running_succ h.running]
    constructor
    · have hany : (r.state a).accepts (r.inputs a) = true := by
        cases d <;> simp only at haccepts <;> simp [Controller.accepts, haccepts]
      show (if (r.state a).accepts (r.inputs a) then (r.inputs a).ioWritedata else _) = _
      rw [hany, if_pos rfl, h.byte]
      simp [Ps2Run.shiftsTo]
    · cases d with
      | keyboard =>
        simp only at haccepts
        simp [Controller.running, Controller.target, haccepts]
      | mouse =>
        simp only at haccepts
        have hno : (r.state a).writeToKeyb (r.inputs a) = false := by
          simp only [Controller.writeToMouse, Controller.cmdWriteToMouse, Controller.param, Controller.cmdWithParam,
            Bool.and_eq_true] at haccepts
          simp [Controller.writeToKeyb, haccepts.1.1.2]
        simp [Controller.running, Controller.target, haccepts, hno]
  | succ n ih =>
    obtain ⟨hbuf, htarget⟩ := ih (fun v h1 h2 => hlast v h1 (by omega)) fun v h1 h2 => hrun v h1 (by omega)
    have hno := hlast (a + n + 1) (by omega) (by omega)
    rw [← Nat.add_assoc a n 1, Ps2Run.running_succ (hrun (a + n + 1) (by omega) (by omega)),
      Controller.inputbuffer_running hno, Controller.target_running hno, hbuf, Ps2Run.shiftsTo]
    refine ⟨?_, htarget⟩
    split
    · rw [BitVec.shiftRight_add]
    · rfl

/-- A frame carries what the frames before it have left of the byte that was written. -/
theorem frame_of_sends {a : Nat} {d : Device} {b : BitVec 8} {e : Device} {c n : Nat} (h : r.Sends a d b e c n) :
    e = d ∧ r.frame e c n = frameOf (b >>> r.shiftsTo a (c - a - 1)) := by
  have hrun := h.running
  have hac := h.later
  have hc : a + (c - a - 1) + 1 = c := by omega
  obtain ⟨hbuf, htarget⟩ := inputbuffer_of_writes (n := c - a - 1) h.writes (by rw [hc]; exact h.last)
    (by rw [hc]; exact fun v h1 h2 => hrun v h1 (by omega))
  rw [hc] at hbuf htarget
  have hsend : ((r.state c).port e).state.sending = true := by
    rw [show ((r.state c).port e).state = .sendClockRelease from h.frame.releases]
    rfl
  rw [frame_eq h.frame fun v h1 h2 => hrun v (by omega) (by omega), hbuf]
  exact ⟨((r.serves c).waits e hsend).2.symm.trans htarget, rfl⟩

/-- A shift leaves no byte but 0 as it is. -/
theorem shiftRight_eq_self {b : BitVec 8} {k : Nat} : b >>> k = b ↔ k = 0 ∨ b = 0 := by
  constructor
  · intro h
    by_contra hno
    push Not at hno
    have hpos : 0 < b.toNat := Nat.pos_of_ne_zero fun he => hno.2 (BitVec.eq_of_toNat_eq he)
    have hlt : b.toNat / 2 ^ k < b.toNat := Nat.div_lt_self hpos (Nat.one_lt_two_pow hno.1)
    rw [← Nat.shiftRight_eq_div_pow, ← BitVec.toNat_ushiftRight, h] at hlt
    omega
  · rintro (rfl | rfl)
    · rfl
    · simp

/-- Every frame carries the byte that was written if and only if none begins after bits of the byte have been shifted
out, but for the byte 0. -/
theorem framesRight_iff (r : ResetRun) : r.FramesRight ↔ r.Unshifted := by
  constructor
  · intro h a d b e c n hs
    obtain ⟨-, hframe⟩ := h a d b e c n hs
    rw [(frame_of_sends hs).2] at hframe
    exact shiftRight_eq_self.1 (frameOf_injective hframe)
  · intro h a d b e c n hs
    obtain ⟨he, hframe⟩ := frame_of_sends hs
    rw [hframe, shiftRight_eq_self.2 (h a d b e c n hs)]
    exact ⟨he, rfl⟩

end ResetRun

end Z486.Ps2
