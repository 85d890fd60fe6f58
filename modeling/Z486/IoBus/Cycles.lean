/-
A cycle of the CPU on the byte bus: one strobe for each enabled lane, in ascending order, each followed by the
wait states of its peripheral, and one answer. The loop over the lanes is described by the lane it has come to.
-/
import Z486.IoBus.Adapter
import Z486.Clocked.Run

namespace Z486.IoBus

/-! ## Strobes and lanes -/

/-- A strobe on the byte bus. -/
inductive Strobe where
  | read (address : BitVec 16)
  | write (address : BitVec 16) (data : BitVec 8)
deriving DecidableEq, Repr

/-- The strobes that are up. -/
def Adapter.strobe (s : Adapter) : List Strobe :=
  (if s.ioRead then [.read s.ioAddress] else []) ++ if s.ioWrite then [.write s.ioAddress s.ioWritedata] else []

/-- Byte lane `k` of a word. -/
def lane (w : BitVec 32) (k : Nat) : BitVec 8 := w.extractLsb' (8 * k) 8

namespace CpuIo

variable (c : CpuIo)

def asks : Bool := c.cpuIoRd || c.cpuIoWr

/-- The strobe of lane `k`. -/
def laneStrobe (k : Nat) : Strobe :=
  if c.cpuIoRd then .read (c.basePort + BitVec.ofNat 16 k)
  else .write (c.basePort + BitVec.ofNat 16 k) (lane c.cpuDin k)

/-- The strobes of the enabled lanes below `k`, in ascending order. -/
def strobesTo : Nat → List Strobe
  | 0 => []
  | k + 1 => strobesTo k ++ if c.cpuBe.getLsbD k then [c.laneStrobe k] else []

/-- The strobes of a cycle. -/
def strobes : List Strobe := c.strobesTo 4

end CpuIo

/-! ## Runs -/

structure AdapterRun where
  start : Adapter
  cpu : Nat → CpuIo
  peripheral : Nat → Peripheral

namespace AdapterRun

variable (r : AdapterRun)

/-- The registers in clock `t`. -/
def state : Nat → Adapter :=
  Clocked.run (fun s (i : CpuIo × Peripheral) => s.step i.1 i.2 true) r.start fun t => (r.cpu t, r.peripheral t)

def ready (t : Nat) : Bool := (r.state t).cpuIoReady

def takes (t : Nat) : Bool := (r.state t).takes (r.cpu t)

/-- The strobes of the `n` clocks after clock `a`. -/
def strobesSince (a : Nat) : Nat → List Strobe
  | 0 => []
  | n + 1 => strobesSince a n ++ (r.state (a + n + 1)).strobe

/-- The strobe of lane `k` comes in clock `s`, and in each clock from there to clock `t` the peripheral waits. -/
structure Strobed (a k s t : Nat) : Prop where
  later : a < s
  le : s ≤ t
  strobe : (r.state s).strobe = [(r.cpu a).laneStrobe k]
  waits : ∀ v, s ≤ v → v < t → (r.peripheral v).ioWait = true

/-- Lane `k` is read: its strobe comes in clock `s`, its wait states end in clock `w`, and the byte `b` is on the bus in
the clock after. -/
structure Reads (a k s w : Nat) (b : BitVec 8) : Prop extends r.Strobed a k s w where
  ends : (r.peripheral w).ioWait = false
  byte : (r.peripheral (w + 1)).ioReaddata = b

/-- What the lanes of a word are `n` clocks after clock `a`: of the enabled ones below `k` the byte that was read, of the
others FF. -/
def Assembled (a n k : Nat) (w : BitVec 32) : Prop :=
  ∀ j, j < 4 → if (r.cpu a).cpuBe.getLsbD j ∧ j < k then ∃ s e, e + 1 < a + n ∧ r.Reads a j s e (lane w j)
    else lane w j = 0xFF

/-- The cycle that is taken in clock `a` goes on `n` clocks later: it has not been answered. -/
structure Open (a n : Nat) : Prop where
  taken : r.takes a = true
  silent : ∀ m, 0 < m → m ≤ n → r.ready (a + m) = false

/-- The cycle that is taken in clock `a` is answered `n` clocks later. -/
structure Answers (a n : Nat) : Prop where
  pos : 0 < n
  before : r.Open a (n - 1)
  ready : r.ready (a + n) = true

/-- The answer of a cycle on the byte bus: it comes after one strobe for each enabled lane. -/
structure Completes (a n : Nat) : Prop extends r.Answers a n where
  strobes : r.strobesSince a n = (r.cpu a).strobes
  result : (r.cpu a).cpuIoRd = true → r.Assembled a n 4 (r.state (a + n)).cpuDout

/-- A run from a reset in which the CPU holds each request until it is answered. -/
structure Obeys : Prop where
  idle : r.start.state = .idle
  noStrobe : r.start.strobe = []
  inactive : r.start.wasActive = false
  silent : r.start.cpuIoReady = false
  hold : ∀ t, (r.cpu t).asks = true → r.ready t = false → (r.cpu (t + 1)).asks = true

/-- A request of the CPU is taken when it rises, and answered once. On the byte bus it makes one strobe for each enabled
lane; no strobe is up but in such a cycle, nor in two clocks on end. The address of the next clock and the selects that
are registered with it are those of the address on the bus. -/
structure Sequences : Prop where
  taken : ∀ t, r.takes t = true ↔ (r.cpu t).asks = true ∧ (t = 0 ∨ (r.cpu (t - 1)).asks = false)
  sofar : ∀ a n, r.Open a n → (r.cpu a).ideDataPort = false → r.strobesSince a n <+: (r.cpu a).strobes
  answered : ∀ a, r.takes a = true → (r.cpu a).ideDataPort = false →
    (∀ t, ∃ u, t ≤ u ∧ (r.peripheral u).ioWait = false) → ∃ n, r.Completes a n
  answers : ∀ t, r.ready t = true → ∃ a n, t = a + n ∧ r.Answers a n
  completes : ∀ a n, r.Answers a n → (r.cpu a).ideDataPort = false → r.Completes a n
  within : ∀ t, (r.state t).strobe ≠ [] → ∃ a n, t = a + n ∧ r.Open a n ∧ (r.cpu a).ideDataPort = false
  apart : ∀ t, (r.state t).strobe ≠ [] → (r.state (t + 1)).strobe = []
  address : ∀ t, (r.state t).ioAddressLoad (r.cpu t) = true →
    (r.state (t + 1)).ioAddress = (r.state t).ioAddressNext (r.cpu t)
  selects : ∀ (decode : BitVec 16 → Bool) (cs : Nat → Bool),
    (∀ t, cs (t + 1) = if (r.state t).ioAddressLoad (r.cpu t) then decode ((r.state t).ioAddressNext (r.cpu t)) else cs t) →
    ∀ t u, (r.state t).ioAddressLoad (r.cpu t) = true → t < u → cs u = decode (r.state u).ioAddress

end AdapterRun

/-! ## One clock of the adapter -/

/-- The state in which lane `k` is begun. -/
def laneState (k : Nat) : AdapterState := if h : k < 4 then .issue ⟨k, h⟩ else .done

/-- A cycle of the wide bus. -/
def AdapterState.wide (q : AdapterState) : Bool := q == .ide32 || q == .ide32w

namespace Adapter

variable {s : Adapter} {c : CpuIo} {p : Peripheral} {k : Fin 4}

/-- The adapter with its strobes down. -/
def quiet (s : Adapter) : Adapter :=
  { s with ioRead := false, ioWrite := false, ideRead := false, ideWrite := false, cpuIoReady := false }

theorem step_skip (h : s.state = .issue k) (hbe : s.activeBe.getLsbD k = false) :
    s.step c p true = { s.quiet with state := laneState (k + 1) } := by
  simp only [step, ioAddressLoad, h, hbe, issueNext]
  rfl

theorem step_issue (h : s.state = .issue k) (hbe : s.activeBe.getLsbD k = true) :
    s.step c p true = { s.quiet with
      state := .wait k, ioAddress := s.lanePort k, ioRead := s.isRead, ioWrite := !s.isRead
      ioWritedata := if s.isRead then s.ioWritedata else s.writeData.extractLsb' (8 * k) 8 } := by
  simp only [step, ioAddressLoad, ioAddressNext, h, hbe, issueNext, if_true]
  cases hread : s.isRead <;> simp [quiet, hread]

theorem step_wait (h : s.state = .wait k) : s.step c p true = { s.quiet with
    state := if p.ioWait then .wait k else if s.isRead then .cap k else laneState (k + 1) } := by
  simp only [step, ioAddressLoad, h]
  cases p.ioWait with
  | false => rfl
  | true =>
    rw [quiet, ← h]
    rfl

theorem step_cap (h : s.state = .cap k) : s.step c p true =
    { s.quiet with readAccum := setLane s.readAccum k p.ioReaddata, state := laneState (k + 1) } := by
  simp only [step, ioAddressLoad, h]
  rfl

theorem step_done (h : s.state = .done) : s.step c p true =
    { s.quiet with cpuDout := s.readAccum, cpuIoReady := true, wasActive := true, state := .idle } := by
  simp only [step, ioAddressLoad, h]
  rfl

theorem step_ide32 (h : s.state = .ide32) : s.step c p true =
    { s.quiet with state := if p.ideHold then .ide32 else .ide32w } := by
  simp only [step, ioAddressLoad, h]
  cases p.ideHold with
  | false => rfl
  | true =>
    rw [quiet, ← h]
    rfl

theorem step_ide32w (h : s.state = .ide32w) : s.step c p true =
    { s.quiet with
      cpuDout := if s.isRead then p.ideReaddata else s.cpuDout
      cpuIoReady := true, wasActive := true, state := .idle } := by
  simp only [step, ioAddressLoad, h]
  rfl

theorem step_idle (h : s.state = .idle) (ht : s.takes c = false) :
    s.step c p true = { s.quiet with wasActive := s.wasActive && c.asks } := by
  have hno : s.wasActive = false → (c.cpuIoRd || c.cpuIoWr) = false := by
    intro ha
    rw [takes, h, ha] at ht
    simpa using ht
  simp only [step, ioAddressLoad, h, idleNext, CpuIo.asks]
  cases ha : s.wasActive with
  | false =>
    simp only [hno ha]
    rw [quiet, ← h]
    simp
  | true =>
    rw [quiet, ← h]
    cases hc : c.cpuIoRd || c.cpuIoWr <;> simp

/-- A cycle of the byte bus is taken. -/
theorem step_takes (ht : s.takes c = true) (hport : c.ideDataPort = false) : s.step c p true = { s.quiet with
    byteAddr := 0#16 ++ c.basePort, activeBe := c.cpuBe, isRead := c.cpuIoRd, writeData := c.cpuDin
    readAccum := 0xFFFFFFFF, state := .issue 0, ioAddress := c.basePort } := by
  simp only [takes, Bool.and_eq_true, beq_iff_eq, Bool.not_eq_true'] at ht
  obtain ⟨⟨h, hactive⟩, hcycle⟩ := ht
  simp [step, ioAddressLoad, ioAddressNext, h, idleNext, hactive, hcycle, hport, quiet]

/-- A cycle of the wide bus is taken. -/
theorem step_takes_wide (ht : s.takes c = true) (hport : c.ideDataPort = true) :
    (s.step c p true).state = .ide32 ∧ (s.step c p true).strobe = [] ∧ (s.step c p true).cpuIoReady = false := by
  simp only [takes, Bool.and_eq_true, beq_iff_eq, Bool.not_eq_true'] at ht
  obtain ⟨⟨h, hactive⟩, hcycle⟩ := ht
  cases hread : c.cpuIoRd <;> simp_all [step, ioAddressLoad, ioAddressNext, idleNext, strobe]

theorem step_ioAddress : (s.step c p true).ioAddress = if s.ioAddressLoad c then s.ioAddressNext c else s.ioAddress := by
  simp only [step]
  cases s.state <;> simp only [idleNext, issueNext] <;> (repeat' split) <;> rfl

end Adapter

end Z486.IoBus
