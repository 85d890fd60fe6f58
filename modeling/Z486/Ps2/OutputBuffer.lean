/-
The output buffer of the PS/2 controller: which queue the next read of port 60h takes its byte from, what the status
byte tells of it, and what becomes of the bytes of a queue.
-/
import Z486.Clocked.Fifo
import Z486.Ps2.Controller

namespace Z486.Ps2

open Common (SimpleFifo)

/-! ## Devices -/

inductive Device where
  | keyboard
  | mouse
deriving DecidableEq, Repr

namespace Controller

variable (s : Controller) (i : ControllerIn)

def fifo : Device → SimpleFifo 6 (BitVec 8)
  | .keyboard => s.keybFifo
  | .mouse => s.mouseFifo

def fifoWrreq : Device → Bool
  | .keyboard => s.keybFifoWrreq
  | .mouse => s.mouseFifoWrreq

def fifoData : Device → BitVec 8
  | .keyboard => s.keybFifoData
  | .mouse => s.mouseFifoData

def fifoRdreq : Device → Bool
  | .keyboard => s.keybFifoRdreq i
  | .mouse => s.mouseFifoRdreq i

/-- The queue that the next read of port 60h takes its byte from. -/
def source : Device := if s.statusMousebufferfull then .mouse else .keyboard

/-- A reset or a self test empties the queues. -/
def clears : Bool := !i.rstN || cmdSelfTest i

end Controller

/-! ## Runs from a reset -/

/-- A run that begins after a clock of reset. -/
structure ResetRun extends Ps2Run where
  before : Controller
  resetIn : ControllerIn
  start_eq : start = before.reset resetIn

namespace Ps2Run

variable (r : Ps2Run)

def outputFull (t : Nat) : Bool := (r.state t).statusOutputbufferfull

def source (t : Nat) : Device := (r.state t).source

def fifo (d : Device) (t : Nat) : SimpleFifo 6 (BitVec 8) := (r.state t).fifo d

def clears (t : Nat) : Bool := Controller.clears (r.inputs t)

/-- The first read of port 60h from clock `t` on is in clock `u`. -/
structure NextRead (t u : Nat) : Prop where
  le : t ≤ u
  reads : r.reads60 u = true
  first : ∀ v, t ≤ v → v < u → r.reads60 v = false
  running : r.Running t u

/-! ## What the claims of the status byte are -/

/-- Bit 5 of the status byte tells whose byte the next read of port 60h returns. -/
structure Tells : Prop where
  shows : ∀ t, r.outputFull t = true → ((r.state t).statusByte.getLsbD 5 = true ↔ r.source t = .mouse)
  next : ∀ t u, r.outputFull t = true → r.NextRead t u → r.source u = r.source t

/-- A byte of the keyboard, or of the controller, is or comes into the output buffer, and none of the mouse waits. -/
def keybTurn (t : Nat) : Prop :=
  (r.outputFull t = true ∧ r.source t = .keyboard) ∨
    (r.outputFull t = false ∧ (r.fifo .mouse t).empty = true ∧ (r.fifo .keyboard t).empty = false)

/-- A byte of the mouse is or comes into the output buffer. -/
def mouseTurn (t : Nat) : Prop :=
  (r.outputFull t = true ∧ r.source t = .mouse) ∨ (r.outputFull t = false ∧ (r.fifo .mouse t).empty = false)

/-- No byte of the mouse arrives while one of the keyboard is in the output buffer, and no self test is made while one of
the mouse is, but in the clock of a read. -/
def Undisturbed : Prop :=
  ∀ t, (r.inputs t).rstN = true → r.reads60 t = false →
    (r.keybTurn t → (r.state t).mouseFifoWrreq = true → Controller.cmdSelfTest (r.inputs t) = true) ∧
      (r.mouseTurn t → Controller.cmdSelfTest (r.inputs t) = false)

/-- The byte that a read from the output buffer returns. -/
def delivered (d : Device) (t : Nat) : List (BitVec 8) :=
  if r.reads60 t && r.outputFull t && r.source t == d then [(r.state (t + 1)).ioReaddata] else []

/-- The byte that is placed in a queue. -/
def placed (d : Device) (t : Nat) : List (BitVec 8) :=
  (r.fifo d t).pushed (r.clears t) ((r.state t).fifoRdreq (r.inputs t) d) ((r.state t).fifoWrreq d) ((r.state t).fifoData d)

/-- The bytes of a queue are read once and in order until it is cleared, and no read from the output buffer finds its
queue empty. -/
structure Delivers : Prop where
  ready : ∀ t, r.outputFull t = true → (r.fifo (r.source t) t).empty = false
  next : ∀ t u, r.outputFull t = true → r.NextRead t u → r.source u = r.source t
  stream : ∀ d a n, (∀ u, u < n → r.clears (a + u) = false) →
    (r.fifo d a).contents ++ Clocked.journal (fun u => r.placed d (a + u)) n =
      Clocked.journal (fun u => r.delivered d (a + u)) n ++ (r.fifo d (a + n)).contents
  fills : ∀ t d, (r.inputs t).rstN = true → r.outputFull t = false → (r.fifo d t).empty = false → r.reads60 t = false →
    r.outputFull (t + 1) = true

/-- A self test finds the output buffer and the queues empty, or it comes in the clock of a read. -/
def TestsApart : Prop :=
  ∀ t, (r.inputs t).rstN = true → Controller.cmdSelfTest (r.inputs t) = true → r.reads60 t = false →
    r.outputFull t = false ∧ ∀ d, (r.fifo d t).empty = true

/-! ## One clock -/

variable {r}

theorem fifo_succ (d : Device) (t : Nat) : r.fifo d (t + 1) = (r.fifo d t).step (r.clears t)
    ((r.state t).fifoRdreq (r.inputs t) d) ((r.state t).fifoWrreq d) ((r.state t).fifoData d) := by
  unfold fifo clears Controller.clears
  rw [state_succ, Controller.step]
  cases (r.inputs t).rstN <;> cases d <;> rfl

theorem reset_outputFull {t : Nat} (h : (r.inputs t).rstN = false) : r.outputFull (t + 1) = false := by
  rw [outputFull, state_succ, Controller.step, h]
  rfl

theorem running_succ {t : Nat} (h : (r.inputs t).rstN = true) : r.state (t + 1) = (r.state t).running (r.inputs t) := by
  rw [state_succ, Controller.step, h]
  rfl

end Ps2Run

namespace Ps2Run

variable {r : Ps2Run}

/-- The output buffer after a clock. -/
theorem outputFull_succ {t : Nat} (h : (r.inputs t).rstN = true) : r.outputFull (t + 1) =
    (!r.reads60 t && (((r.state t).outputbufferIdle && (!(r.fifo .mouse t).empty || !(r.fifo .keyboard t).empty)) ||
      r.outputFull t)) := by
  rw [outputFull, running_succ h]
  show (if r.reads60 t then false else if (r.state t).outputbufferIdle &&
    (!(r.fifo .mouse t).empty || !(r.fifo .keyboard t).empty) then true else r.outputFull t) = _
  cases r.reads60 t with
  | true => rfl
  | false =>
    cases (r.state t).outputbufferIdle && (!(r.fifo .mouse t).empty || !(r.fifo .keyboard t).empty) <;> rfl

theorem mouseFull_succ {t : Nat} (h : (r.inputs t).rstN = true) : (r.state (t + 1)).statusMousebufferfull =
    (!r.reads60 t && (((r.state t).outputbufferIdle && !(r.fifo .mouse t).empty) ||
      (r.state t).statusMousebufferfull)) := by
  rw [running_succ h]
  show (if r.reads60 t then false else if (r.state t).outputbufferIdle && !(r.fifo .mouse t).empty then true
    else (r.state t).statusMousebufferfull) = _
  cases r.reads60 t with
  | true => rfl
  | false => cases (r.state t).outputbufferIdle && !(r.fifo .mouse t).empty <;> rfl

/-- Without a read of port 60h no queue is read. -/
theorem fifoRdreq_quiet {t : Nat} (h : r.reads60 t = false) (d : Device) :
    (r.state t).fifoRdreq (r.inputs t) d = false := by
  rw [reads60] at h
  cases d with
  | keyboard => simp [Controller.fifoRdreq, Controller.keybFifoRdreq, h]
  | mouse => simp [Controller.fifoRdreq, Controller.mouseFifoRdreq, h]

/-! ## Every run from a reset -/

/-- The flag of the mouse is up only while the output buffer is full; the queues are those of their registers. -/
structure Sound (r : Ps2Run) (t : Nat) : Prop where
  full : (r.state t).statusMousebufferfull = true → r.outputFull t = true
  wf : ∀ d, (r.fifo d t).Wf

namespace Sound

variable {t : Nat}

theorem idle_iff (h : r.Sound t) : (r.state t).outputbufferIdle = !r.outputFull t := by
  have hfull := h.full
  unfold Controller.outputbufferIdle outputFull at *
  cases hm : (r.state t).statusMousebufferfull with
  | true => simp [hfull hm]
  | false => simp

theorem step (h : r.Sound t) : r.Sound (t + 1) := by
  refine ⟨?_, fun d => ?_⟩
  · cases hrst : (r.inputs t).rstN with
    | false =>
      rw [state_succ, Controller.step, hrst]
      exact fun hm => nomatch hm
    | true =>
      rw [mouseFull_succ hrst, outputFull_succ hrst]
      have hfull := h.full
      cases r.reads60 t with
      | true => exact fun hm => nomatch hm
      | false =>
        simp only [Bool.not_false, Bool.true_and, Bool.or_eq_true, Bool.and_eq_true]
        rintro (⟨hidle, hm⟩ | hm)
        · exact .inl ⟨hidle, .inl hm⟩
        · exact .inr (hfull hm)
  · rw [fifo_succ]
    exact (h.wf d).step (by omega) _ _ _ _

/-- The contents of a queue after a clock without a read. -/
theorem contents_quiet (h : r.Sound t) (hread : r.reads60 t = false) (d : Device) : (r.fifo d (t + 1)).contents =
    if r.clears t then [] else (r.fifo d t).contents ++ r.placed d t := by
  rw [fifo_succ, SimpleFifo.contents_step (by omega) (h.wf d), fifoRdreq_quiet hread]
  unfold placed
  rw [fifoRdreq_quiet hread]
  rfl

/-- A queue that has a byte keeps it in a clock that neither reads nor clears it. -/
theorem nonempty_quiet (h : r.Sound t) (hread : r.reads60 t = false) (hclear : r.clears t = false) {d : Device}
    (hne : (r.fifo d t).empty = false) : (r.fifo d (t + 1)).empty = false := by
  rw [← SimpleFifo.contents_ne_nil] at hne ⊢
  rw [h.contents_quiet hread, hclear]
  simp [hne]

theorem empty_of_clears (h : r.Sound t) (hclear : r.clears t = true) (d : Device) : (r.fifo d (t + 1)).empty = true := by
  rw [← SimpleFifo.contents_eq_nil, fifo_succ, SimpleFifo.contents_step (by omega) (h.wf d), hclear]
  rfl

/-- The output buffer after a clock without a read. -/
theorem outputFull_quiet (h : r.Sound t) (hrst : (r.inputs t).rstN = true) (hread : r.reads60 t = false) :
    r.outputFull (t + 1) = true ↔
      r.outputFull t = true ∨ (r.fifo .mouse t).empty = false ∨ (r.fifo .keyboard t).empty = false := by
  rw [outputFull_succ hrst, hread, h.idle_iff]
  cases r.outputFull t <;> simp

theorem source_eq_mouse {u : Nat} : r.source u = .mouse ↔ (r.state u).statusMousebufferfull = true := by
  unfold source Controller.source
  split <;> simp_all

/-- The queue of the next read after a clock without one. -/
theorem source_quiet (h : r.Sound t) (hrst : (r.inputs t).rstN = true) (hread : r.reads60 t = false) :
    r.source (t + 1) = .mouse ↔ r.mouseTurn t := by
  unfold mouseTurn
  rw [source_eq_mouse, source_eq_mouse, mouseFull_succ hrst, hread, h.idle_iff]
  have hfull := h.full
  cases hout : r.outputFull t with
  | true => simp
  | false =>
    have hno : (r.state t).statusMousebufferfull = false := by
      rw [hout] at hfull
      simpa using hfull
    simp [hno]

/-- A byte stays in the output buffer, and the queue is that of the byte, until it is read. -/
theorem stays (h : r.Sound t) (hrst : (r.inputs t).rstN = true) (hread : r.reads60 t = false)
    (hout : r.outputFull t = true) : r.outputFull (t + 1) = true ∧ r.source (t + 1) = r.source t := by
  refine ⟨(h.outputFull_quiet hrst hread).2 (.inl hout), ?_⟩
  have hsame : r.source (t + 1) = .mouse ↔ r.source t = .mouse := by
    rw [h.source_quiet hrst hread, mouseTurn, hout]
    simp
  cases hs : r.source t with
  | mouse => exact hsame.2 hs
  | keyboard =>
    cases hn : r.source (t + 1) with
    | keyboard => rfl
    | mouse => exact absurd (hsame.1 hn) (by rw [hs]; simp)

end Sound

end Ps2Run

namespace ResetRun

variable (r : ResetRun)

theorem soundAt : ∀ t, r.Sound t
  | 0 => by
    have hstart : r.state 0 = r.before.reset r.resetIn := r.start_eq
    refine ⟨fun hm => ?_, fun d => ?_⟩
    · rw [hstart] at hm
      exact nomatch hm
    · unfold Ps2Run.fifo
      rw [hstart]
      cases d <;> exact SimpleFifo.wf_clear _ _ _ _
  | t + 1 => (soundAt t).step

variable {r}

/-- The next read takes its byte from the queue that the output buffer is full with. -/
theorem source_next {t u : Nat} (hout : r.outputFull t = true) (h : r.NextRead t u) : r.source u = r.source t := by
  have hstays : ∀ v, t ≤ v → v ≤ u → r.outputFull v = true ∧ r.source v = r.source t := by
    intro v hv
    induction v, hv using Nat.le_induction with
    | base => exact fun _ => ⟨hout, rfl⟩
    | succ v hv ih =>
      intro hle
      obtain ⟨hfull, hsource⟩ := ih (by omega)
      obtain ⟨hfull', hsource'⟩ :=
        (r.soundAt v).stays (h.running v hv (by omega)) (h.first v hv (by omega)) hfull
      exact ⟨hfull', hsource'.trans hsource⟩
  exact (hstays u h.le le_rfl).2

/-- What holds of a full output buffer is shown from one quiet clock to the next: reset and a read empty it. -/
theorem outputFull_invariant {P : Nat → Prop}
    (hstep : ∀ t, (r.inputs t).rstN = true → r.reads60 t = false → (r.outputFull t = true → P t) →
      r.outputFull (t + 1) = true → P (t + 1)) (t : Nat) : r.outputFull t = true → P t := by
  induction t with
  | zero =>
    intro hout
    have hstart : r.state 0 = r.before.reset r.resetIn := r.start_eq
    rw [Ps2Run.outputFull, hstart] at hout
    exact nomatch hout
  | succ t ih =>
    intro hout
    cases hrst : (r.inputs t).rstN with
    | false =>
      rw [Ps2Run.reset_outputFull hrst] at hout
      cases hout
    | true =>
      cases hread : r.reads60 t with
      | true =>
        rw [Ps2Run.outputFull_succ hrst, hread] at hout
        cases hout
      | false => exact hstep t hrst hread ih hout

/-! ## The status byte -/

theorem statusByte_bit5 (t : Nat) :
    (r.state t).statusByte.getLsbD 5 = true ↔ (r.fifo .mouse t).empty = false := by
  have hbits : ∀ a b c d e f g : Bool, (BitVec.ofBool a ++ BitVec.ofBool b ++ BitVec.ofBool c ++ 1#1 ++ BitVec.ofBool d ++
      BitVec.ofBool e ++ BitVec.ofBool f ++ BitVec.ofBool g).getLsbD 5 = c := by decide
  rw [Controller.statusByte, hbits, Bool.not_eq_true']
  rfl

theorem source_cases (t : Nat) : r.source t = .mouse ∨ r.source t = .keyboard := by
  cases r.source t <;> simp

/-- A byte is placed only when it is written. -/
theorem wrreq_of_placed {d : Device} {t : Nat} (h : r.placed d t ≠ []) : (r.state t).fifoWrreq d = true := by
  unfold Ps2Run.placed SimpleFifo.pushed at h
  split at h
  · exact absurd rfl h
  · split at h
    · rename_i hw
      exact (Bool.and_eq_true _ _ ▸ hw).1
    · exact absurd rfl h

/-- A byte that is written to an empty queue is placed in it. -/
theorem placed_of_empty {d : Device} {t : Nat} (hempty : (r.fifo d t).empty = true)
    (hw : (r.state t).fifoWrreq d = true) (hclear : r.clears t = false) :
    r.placed d t = [(r.state t).fifoData d] := by
  have hfull : (r.fifo d t).full = false := by
    simp only [SimpleFifo.empty, Bool.and_eq_true, Bool.not_eq_true'] at hempty
    exact hempty.2
  simp [Ps2Run.placed, SimpleFifo.pushed, hclear, hw, hfull]

/-- What the status byte shows in the next clock when it is right in this one. -/
theorem shows_succ {t : Nat} (hrst : (r.inputs t).rstN = true) (hread : r.reads60 t = false)
    (hshows : r.outputFull t = true → ((r.fifo .mouse t).empty = false ↔ r.source t = .mouse))
    (hkeyb : r.keybTurn t → (r.state t).mouseFifoWrreq = true → Controller.cmdSelfTest (r.inputs t) = true)
    (hmouse : r.mouseTurn t → Controller.cmdSelfTest (r.inputs t) = false) (hout : r.outputFull (t + 1) = true) :
    (r.fifo .mouse (t + 1)).empty = false ↔ r.source (t + 1) = .mouse := by
  have hsound := r.soundAt t
  rw [hsound.source_quiet hrst hread]
  constructor
  · intro hne
    by_contra hturn
    -- a byte of the keyboard comes or stays in the output buffer, and the queue of the mouse is empty
    obtain ⟨hempty, hturn⟩ : (r.fifo .mouse t).empty = true ∧ r.keybTurn t := by
      cases hfull : r.outputFull t with
      | true =>
        have hs : r.source t = .keyboard := (source_cases t).resolve_left fun hm => hturn (.inl ⟨hfull, hm⟩)
        have hiff := hshows hfull
        rw [hs] at hiff
        exact ⟨by simpa using hiff, .inl ⟨hfull, hs⟩⟩
      | false =>
        have hempty : (r.fifo .mouse t).empty = true := by
          by_contra hno
          exact hturn (.inr ⟨hfull, by simpa using hno⟩)
        have hkeyb : (r.fifo .keyboard t).empty = false := by
          rcases (hsound.outputFull_quiet hrst hread).1 hout with h | h | h
          · rw [hfull] at h
            cases h
          · rw [hempty] at h
            cases h
          · exact h
        exact ⟨hempty, .inr ⟨hfull, hempty, hkeyb⟩⟩
    rw [← SimpleFifo.contents_ne_nil, hsound.contents_quiet hread, SimpleFifo.contents_eq_nil.2 hempty] at hne
    cases hclear : r.clears t with
    | true => simp [hclear] at hne
    | false =>
      rw [hclear, if_neg (by simp), List.nil_append] at hne
      have htest := hkeyb hturn (wrreq_of_placed hne)
      rw [Ps2Run.clears, Controller.clears, htest, Bool.or_true] at hclear
      cases hclear
  · intro hturn
    have hclear : r.clears t = false := by
      show (!(r.inputs t).rstN || Controller.cmdSelfTest (r.inputs t)) = false
      rw [hrst, hmouse hturn]
      rfl
    refine hsound.nonempty_quiet hread hclear ?_
    rcases hturn with ⟨hfull, hsource⟩ | ⟨-, hne⟩
    · exact (hshows hfull).2 hsource
    · exact hne

/-! ### What a status byte that is right says of the self test -/

section Shows

variable {t : Nat}
  (hshows : ∀ u, r.outputFull u = true → ((r.fifo .mouse u).empty = false ↔ r.source u = .mouse))
  (hrst : (r.inputs t).rstN = true) (hread : r.reads60 t = false)
include hshows hrst hread

/-- A byte of the mouse that comes behind one of the keyboard is taken away. -/
theorem selfTest_of_keybTurn (hturn : r.keybTurn t) (hw : (r.state t).mouseFifoWrreq = true) :
    Controller.cmdSelfTest (r.inputs t) = true := by
  by_contra htest
  rw [Bool.not_eq_true] at htest
  have hsound := r.soundAt t
  have hclear : r.clears t = false := by simp [Ps2Run.clears, Controller.clears, hrst, htest]
  have hempty : (r.fifo .mouse t).empty = true := by
    rcases hturn with ⟨hout, hs⟩ | ⟨-, hempty, -⟩
    · have hiff := hshows t hout
      rw [hs] at hiff
      simpa using hiff
    · exact hempty
  have hnot : ¬ r.mouseTurn t := by
    rintro (⟨hout, hs⟩ | ⟨-, hne⟩)
    · rw [← hshows t hout, hempty] at hs
      cases hs
    · rw [hempty] at hne
      cases hne
  have hout : r.outputFull (t + 1) = true := by
    rw [hsound.outputFull_quiet hrst hread]
    rcases hturn with ⟨hout, -⟩ | ⟨-, -, hkeyb⟩
    · exact .inl hout
    · exact .inr (.inr hkeyb)
  -- otherwise it is in the queue of the mouse behind the keyboard's turn
  have hne : (r.fifo .mouse (t + 1)).empty = false := by
    rw [← SimpleFifo.contents_ne_nil, hsound.contents_quiet hread, hclear, placed_of_empty hempty hw hclear]
    simp
  rw [hshows (t + 1) hout, hsound.source_quiet hrst hread] at hne
  exact hnot hne

/-- The byte of the mouse is not taken away in its turn. -/
theorem no_selfTest_of_mouseTurn (hturn : r.mouseTurn t) : Controller.cmdSelfTest (r.inputs t) = false := by
  by_contra htest
  rw [Bool.not_eq_false] at htest
  have hsound := r.soundAt t
  have hclear : r.clears t = true := by simp [Ps2Run.clears, Controller.clears, htest]
  have hout : r.outputFull (t + 1) = true := by
    rw [hsound.outputFull_quiet hrst hread]
    rcases hturn with ⟨hout, -⟩ | ⟨-, hne⟩
    · exact .inl hout
    · exact .inr (.inl hne)
  have hmouse := (hsound.source_quiet hrst hread).2 hturn
  rw [← hshows (t + 1) hout, hsound.empty_of_clears hclear] at hmouse
  cases hmouse

end Shows

theorem shows_of_undisturbed (h : r.Undisturbed) :
    ∀ t, r.outputFull t = true → ((r.fifo .mouse t).empty = false ↔ r.source t = .mouse) := by
  refine outputFull_invariant fun t hrst hread ih hout => ?_
  obtain ⟨hkeyb, hmouse⟩ := h t hrst hread
  exact shows_succ hrst hread ih hkeyb hmouse hout

/-- Bit 5 of the status byte is right in every clock if and only if no byte of the mouse comes behind one of the
keyboard, and no self test takes the byte of the mouse away. -/
theorem tells_iff (r : ResetRun) : r.Tells ↔ r.Undisturbed := by
  constructor
  · intro h t hrst hread
    have hshows : ∀ u, r.outputFull u = true → ((r.fifo .mouse u).empty = false ↔ r.source u = .mouse) := by
      intro u hout
      rw [← h.shows u hout, statusByte_bit5]
    exact ⟨selfTest_of_keybTurn hshows hrst hread, no_selfTest_of_mouseTurn hshows hrst hread⟩
  · intro h
    refine ⟨fun t hout => ?_, fun t u hout hnext => source_next hout hnext⟩
    rw [statusByte_bit5, shows_of_undisturbed h t hout]

/-! ## The bytes of a queue -/

/-- A queue is read when the guest reads its byte from the output buffer. -/
theorem fifoRdreq_eq (d : Device) (t : Nat) : (r.state t).fifoRdreq (r.inputs t) d =
    (r.reads60 t && r.outputFull t && r.source t == d) := by
  have hfull := (r.soundAt t).full
  unfold Ps2Run.reads60 Ps2Run.outputFull Ps2Run.source Controller.source at *
  cases hm : (r.state t).statusMousebufferfull with
  | true => cases d <;> simp [Controller.fifoRdreq, Controller.keybFifoRdreq, Controller.mouseFifoRdreq, hm, hfull hm]
  | false => cases d <;> simp [Controller.fifoRdreq, Controller.keybFifoRdreq, Controller.mouseFifoRdreq, hm]

/-- A read from the output buffer returns the head of its queue. -/
theorem ioReaddata_succ {t : Nat} (hread : r.reads60 t = true) (hrst : (r.inputs t).rstN = true)
    (hne : (r.fifo (r.source t) t).empty = false) :
    (r.state (t + 1)).ioReaddata = (r.fifo (r.source t) t).q := by
  have haccess := hread
  simp only [Ps2Run.reads60, Controller.reads60, Controller.ioReadValid, Controller.ioMRead, Bool.and_eq_true,
    beq_iff_eq] at haccess
  obtain ⟨⟨⟨-, hcs⟩, -⟩, haddr⟩ := haccess
  have h64 : (r.state t).reads64 (r.inputs t) = false := by simp [Controller.reads64, haddr]
  rw [Ps2Run.running_succ hrst]
  show (if (r.inputs t).ioCs then (r.state t).ioReaddataNext (r.inputs t) else _) = _
  rw [hcs, if_pos rfl, Controller.ioReaddataNext, h64]
  unfold Ps2Run.source Controller.source Ps2Run.fifo at hne ⊢
  cases hm : (r.state t).statusMousebufferfull with
  | true => rfl
  | false =>
    rw [hm] at hne
    simp only [Bool.false_eq_true, if_false, Controller.fifo] at hne ⊢
    rw [Controller.keybFifoQFinal, hne]
    rfl

/-- A clock hands out the head of a queue, or none, and places a byte behind it. -/
theorem stream_step {d : Device} {t : Nat} (hclear : r.clears t = false)
    (hready : r.outputFull t = true → (r.fifo (r.source t) t).empty = false) :
    (r.fifo d t).contents ++ r.placed d t = r.delivered d t ++ (r.fifo d (t + 1)).contents := by
  have hrst : (r.inputs t).rstN = true := by
    simp only [Ps2Run.clears, Controller.clears, Bool.or_eq_false_iff, Bool.not_eq_false'] at hclear
    exact hclear.1
  rw [Ps2Run.fifo_succ, SimpleFifo.contents_step (by omega) ((r.soundAt t).wf d), hclear, if_neg (by simp)]
  have hplaced : (r.fifo d t).pushed false ((r.state t).fifoRdreq (r.inputs t) d) ((r.state t).fifoWrreq d)
      ((r.state t).fifoData d) = r.placed d t := by rw [Ps2Run.placed, hclear]
  rw [hplaced, fifoRdreq_eq, Ps2Run.delivered]
  cases hpop : r.reads60 t && r.outputFull t && r.source t == d with
  | false => rfl
  | true =>
    simp only [Bool.and_eq_true, beq_iff_eq] at hpop
    obtain ⟨⟨hread, hout⟩, rfl⟩ := hpop
    have hne := hready hout
    rw [if_pos rfl, if_pos rfl, ioReaddata_succ hread hrst hne, ← List.append_assoc]
    congr 1
    obtain ⟨b, rest, hlist⟩ := List.exists_cons_of_ne_nil (SimpleFifo.contents_ne_nil.2 hne)
    have hhead := SimpleFifo.head?_contents hne
    rw [hlist, List.head?_cons, Option.some_inj] at hhead
    rw [hlist, hhead]
    rfl

theorem stream (hready : ∀ t, r.outputFull t = true → (r.fifo (r.source t) t).empty = false) (d : Device) (a n : Nat)
    (hclear : ∀ u, u < n → r.clears (a + u) = false) :
    (r.fifo d a).contents ++ Clocked.journal (fun u => r.placed d (a + u)) n =
      Clocked.journal (fun u => r.delivered d (a + u)) n ++ (r.fifo d (a + n)).contents := by
  induction n with
  | zero => simp
  | succ n ih =>
    rw [Clocked.journal_succ, Clocked.journal_succ, ← List.append_assoc, ih fun u hu => hclear u (by omega),
      List.append_assoc, stream_step (hclear n (by omega)) (hready (a + n)), List.append_assoc]
    rfl

/-- The queue of the output buffer in the next clock. -/
theorem ready_succ {t : Nat} (hrst : (r.inputs t).rstN = true) (hread : r.reads60 t = false)
    (hready : r.outputFull t = true → (r.fifo (r.source t) t).empty = false)
    (htest : Controller.cmdSelfTest (r.inputs t) = true →
      r.outputFull t = false ∧ ∀ d, (r.fifo d t).empty = true) (hout : r.outputFull (t + 1) = true) :
    (r.fifo (r.source (t + 1)) (t + 1)).empty = false := by
  have hsound := r.soundAt t
  have hfrom := (hsound.outputFull_quiet hrst hread).1 hout
  -- a self test would find a byte that is in the buffer or comes into it
  have hclear : r.clears t = false := by
    by_contra hc
    simp only [Ps2Run.clears, Controller.clears, hrst, Bool.not_true, Bool.false_or, Bool.not_eq_false] at hc
    obtain ⟨hno, hempty⟩ := htest hc
    rw [hno, hempty, hempty] at hfrom
    simp at hfrom
  apply hsound.nonempty_quiet hread hclear
  cases hfull : r.outputFull t with
  | true =>
    rw [(hsound.stays hrst hread hfull).2]
    exact hready hfull
  | false =>
    rw [hfull] at hfrom
    -- the byte comes from the mouse when it has one
    rcases source_cases (r := r) (t + 1) with hs | hs
    · rw [hs]
      rw [hsound.source_quiet hrst hread] at hs
      rcases hs with ⟨h, -⟩ | ⟨-, h⟩
      · rw [hfull] at h
        cases h
      · exact h
    · rw [hs]
      have hmouse : (r.fifo .mouse t).empty = true := by
        by_contra hno
        have hm := (hsound.source_quiet hrst hread).2 (.inr ⟨hfull, by simpa using hno⟩)
        rw [hs] at hm
        cases hm
      simpa [hmouse] using hfrom

/-- The bytes of the queues reach the guest if and only if no self test takes a byte away that is in the output buffer
or comes into it. -/
theorem delivers_iff (r : ResetRun) : r.Delivers ↔ r.TestsApart := by
  constructor
  · intro h t hrst htest hread
    have hsound := r.soundAt t
    have hclear : r.clears t = true := by simp [Ps2Run.clears, Controller.clears, htest]
    have hnot : ¬ r.outputFull (t + 1) = true := by
      intro hout
      have hne := h.ready (t + 1) hout
      rw [hsound.empty_of_clears hclear] at hne
      cases hne
    rw [hsound.outputFull_quiet hrst hread] at hnot
    simp only [not_or, Bool.not_eq_true, Bool.not_eq_false] at hnot
    refine ⟨hnot.1, fun d => ?_⟩
    cases d with
    | keyboard => exact hnot.2.2
    | mouse => exact hnot.2.1
  · intro h
    have hready : ∀ t, r.outputFull t = true → (r.fifo (r.source t) t).empty = false :=
      outputFull_invariant fun t hrst hread ih hout => ready_succ hrst hread ih (fun htest => h t hrst htest hread) hout
    refine ⟨hready, fun t u hout hnext => source_next hout hnext, fun d a n hclear => stream hready d a n hclear, ?_⟩
    intro t d hrst _ hne hread
    rw [(r.soundAt t).outputFull_quiet hrst hread]
    cases d with
    | keyboard => exact .inr (.inr hne)
    | mouse => exact .inr (.inl hne)

/-- A controller before its reset. -/
def unset : Controller :=
  { irqKeyb := false, irqMouse := false, ioReaddata := 0, outputA20Enable := false, outputResetN := false
    ioReadLast := false, statusKeyboardparityerror := false, statusTimeout := false, statusLastcommand := false
    translate := false, disableMouse := false, disableMouseVisible := false, disableKeyboard := false
    statusSystem := false, allowIrqMouse := false, allowIrqKeyb := false, statusMousebufferfull := false
    statusOutputbufferfull := false, expectingPort60h := false, lastCommand := 0, keybReply := 0
    keybReplyValid := false, mouseReply := 0, mouseReplyValid := false, statusInputbufferfull := false
    inputWriteDone := false, inputForMouse := false, inputbuffer := 0, keyb := Port.reset, keybTranslateEscape := false
    trans := 0, keybFifoQLast := 0, keybFifo := ⟨fun _ => 0, 0, 0, false, 0⟩, mouse := Port.reset
    mouseFifo := ⟨fun _ => 0, 0, 0, false, 0⟩ }

/-- A clock in which the guest writes a port, or does nothing; the devices are silent. -/
def writeIn (w : Option (BitVec 4 × BitVec 8)) : ControllerIn :=
  { rstN := true, ioAddress := (w.map Prod.fst).getD 0, ioRead := false, ioWrite := w.isSome
    ioWritedata := (w.map Prod.snd).getD 0, ioCs := w.isSome, ctlCs := false
    ps2Kbclk := true, ps2Kbdat := true, ps2Mouseclk := true, ps2Mousedat := true }

/-- The controller is reset, and then sees the inputs. -/
def runFrom (inputs : Nat → ControllerIn) : ResetRun where
  start := unset.reset (writeIn none)
  before := unset
  resetIn := writeIn none
  start_eq := rfl
  inputs := inputs

/-- A guest that makes the writes of a list, one in a clock. -/
def writeRun (ws : List (Option (BitVec 4 × BitVec 8))) : ResetRun :=
  runFrom fun t => writeIn ((ws[t]?).getD none)

/-- A byte is written to the output buffer of the keyboard, and while it waits one to that of the mouse. -/
def bothBytes : ResetRun :=
  writeRun [some (4, 0xD2), some (0, 0x11), none, none, some (4, 0xD3), some (0, 0x22)]

theorem bothBytes_not_tells : ¬ bothBytes.Tells := by
  intro h
  have hshows := (h.shows 7 (by decide)).1 (by decide)
  revert hshows
  decide

/-- A self test while a byte of the mouse is in the output buffer. -/
def testFull : ResetRun :=
  writeRun [some (4, 0xD3), some (0, 0x22), none, none, some (4, 0xAA)]

theorem testFull_not_delivers : ¬ testFull.Delivers := by
  intro h
  have hready := h.ready 5 (by decide)
  revert hready
  decide

end ResetRun

end Z486.Ps2
