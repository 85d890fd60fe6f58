/-
The MPU-401 in its UART mode (src/system.sv): the bytes that the guest writes to port 330h go through a queue of 256 to
the serial line. Bit 6 of the status at 331h says that the queue is full, so a guest that finds it clear may write.

But while the acknowledge of a command waits to be read, the status is 00h, also of a full queue.
-/
import Z486.Common.SimpleFifo
import Z486.Common.UartTx

namespace Z486.Sound

open Clocked Common Common.SimpleFifo

/-! ## Registers -/

/-- A clock of the bus: its strobes with the select and the lowest address bit of the port. -/
structure MpuIn where
  reset : Bool
  iobusWrite : Bool
  iobusRead : Bool
  mpuCs : Bool
  iobusAddress0 : Bool
  iobusWritedataByte : BitVec 8

structure Mpu (txClkMax : Nat) where
  fifo : BitVec 8 → BitVec 8
  fifoWr : BitVec 8
  fifoRd : BitVec 8
  fifoCount : BitVec 9
  txData : BitVec 8
  txWr : Bool
  ackPending : Bool
  uart : UartTx txClkMax

namespace MpuIn

variable (i : MpuIn)

/-- The guest writes a byte to port 330h. -/
def writesData : Bool := i.iobusWrite && i.mpuCs && !i.iobusAddress0

/-- The status at 331h is on the bus. -/
def showsStatus : Bool := i.mpuCs && i.iobusAddress0

def cmdWrite : Bool := i.iobusWrite && i.mpuCs && i.iobusAddress0

def dataRead : Bool := i.iobusRead && i.mpuCs && !i.iobusAddress0

end MpuIn

namespace Mpu

variable {txClkMax : Nat} (s : Mpu txClkMax) (i : MpuIn)

def fifoFull : Bool := s.fifoCount == 256

def fifoEmpty : Bool := s.fifoCount == 0

def dataWrite : Bool := i.iobusWrite && i.mpuCs && !i.iobusAddress0 && !s.fifoFull

def dequeue : Bool := !s.uart.txBusy && !s.fifoEmpty && !s.txWr

def readdata : BitVec 8 :=
  if i.iobusAddress0 then if s.ackPending then 0x00 else if s.fifoFull then 0xC0 else 0x80 else 0xFE

def fifoCountNext : BitVec 9 :=
  match s.dataWrite i, s.dequeue with
  | true, false => s.fifoCount + 1
  | false, true => s.fifoCount - 1
  | _, _ => s.fifoCount

def step : Mpu txClkMax where
  fifo := if !i.reset && s.dataWrite i then Function.update s.fifo s.fifoWr i.iobusWritedataByte else s.fifo
  fifoWr := if i.reset then 0 else if s.dataWrite i then s.fifoWr + 1 else s.fifoWr
  fifoRd := if i.reset then 0 else if s.dequeue then s.fifoRd + 1 else s.fifoRd
  fifoCount := if i.reset then 0 else s.fifoCountNext i
  txData := if i.reset then 0 else if s.dequeue then s.fifo s.fifoRd else s.txData
  txWr := !i.reset && s.dequeue
  ackPending :=
    if i.reset then false
    else if i.dataRead && s.ackPending then false
    else if i.cmdWrite then true
    else s.ackPending
  uart := s.uart.step ⟨s.txData, s.txWr⟩

/-! ## What waits -/

/-- The bytes that wait in the queue, in order. -/
structure Holds (s : Mpu txClkMax) (w : List (BitVec 8)) : Prop where
  contents : window s.fifo s.fifoRd w.length = w
  fifoWr : s.fifoWr = s.fifoRd + BitVec.ofNat 8 w.length
  fifoCount : s.fifoCount.toNat = w.length
  length : w.length ≤ 256

variable {s i} {w : List (BitVec 8)}

theorem Holds.full_iff (h : Holds s w) : s.fifoFull = true ↔ w.length = 256 := by
  rw [fifoFull, beq_iff_eq, ← BitVec.toNat_inj, h.fifoCount]
  exact Iff.rfl

theorem Holds.empty_iff (h : Holds s w) : s.fifoEmpty = true ↔ w = [] := by
  rw [fifoEmpty, beq_iff_eq, ← BitVec.toNat_inj, h.fifoCount, ← List.length_eq_zero_iff]
  exact Iff.rfl

/-- What waits after a clock. -/
def waitNext (s : Mpu txClkMax) (i : MpuIn) (w : List (BitVec 8)) : List (BitVec 8) :=
  fifoStep w s.dequeue (if s.dataWrite i then [i.iobusWritedataByte] else [])

theorem Holds.nonempty (h : Holds s w) (hdequeue : s.dequeue = true) : w ≠ [] := by
  have hsome := (Bool.and_eq_true_iff.1 (Bool.and_eq_true_iff.1 hdequeue).1).2
  intro hw
  rw [h.empty_iff.2 hw] at hsome
  exact Bool.false_ne_true hsome

theorem Holds.room (h : Holds s w) (hwrite : s.dataWrite i = true) : w.length < 256 := by
  have hfull := (Bool.and_eq_true_iff.1 hwrite).2
  have hne : w.length ≠ 256 := fun heq => by
    rw [h.full_iff.2 heq] at hfull
    exact Bool.false_ne_true hfull
  exact Nat.lt_of_le_of_ne h.length hne

theorem Holds.fifoCountNext (h : Holds s w) : (s.fifoCountNext i).toNat = (waitNext s i w).length := by
  have hcount := h.fifoCount
  have hlength := h.length
  unfold Mpu.fifoCountNext waitNext fifoStep
  rw [List.length_append]
  cases hwrite : s.dataWrite i with
  | false =>
    cases hdequeue : s.dequeue with
    | false => exact hcount
    | true =>
      have hpos := List.length_pos_iff.2 (h.nonempty hdequeue)
      show (s.fifoCount - 1).toNat = w.tail.length + 0
      rw [List.length_tail, BitVec.toNat_sub_of_le, hcount]
      · rfl
      · rw [BitVec.le_def, hcount]
        exact hpos
  | true =>
    have hroom := h.room hwrite
    cases hdequeue : s.dequeue with
    | false =>
      show (s.fifoCount + 1).toNat = w.length + 1
      rw [toNat_succ (by omega), hcount]
    | true =>
      have hpos := List.length_pos_iff.2 (h.nonempty hdequeue)
      show s.fifoCount.toNat = w.tail.length + 1
      rw [List.length_tail, hcount, Nat.sub_add_cancel hpos]

theorem Holds.step (h : Holds s w) (hrun : i.reset = false) : Holds (s.step i) (waitNext s i w) := by
  have hcount : (s.step i).fifoCount.toNat = (waitNext s i w).length := by
    show (if i.reset then 0 else s.fifoCountNext i).toNat = _
    rw [hrun, ← h.fifoCountNext]
    rfl
  have hlength : (waitNext s i w).length ≤ 256 := by
    refine (length_fifoStep_le _ _ _).trans ?_
    cases hwrite : s.dataWrite i with
    | false => exact h.length
    | true => exact h.room hwrite
  obtain ⟨hcontents, hindex⟩ := window_step h.contents h.fifoWr h.nonempty
    (fun hwrite => Nat.lt_of_le_of_lt (length_rest_le w s.dequeue) (h.room hwrite)) i.iobusWritedataByte
  have hfifo : (s.step i).fifo =
      if s.dataWrite i then Function.update s.fifo s.fifoWr i.iobusWritedataByte else s.fifo := by
    show (if !i.reset && s.dataWrite i then _ else _) = _
    rw [hrun, Bool.not_false, Bool.true_and]
  have hrd : (s.step i).fifoRd = if s.dequeue then s.fifoRd + 1 else s.fifoRd := by
    show (if i.reset then 0 else _) = _
    rw [hrun]
    rfl
  have hwr : (s.step i).fifoWr = if s.dataWrite i then s.fifoWr + 1 else s.fifoWr := by
    show (if i.reset then 0 else _) = _
    rw [hrun]
    rfl
  exact ⟨by rw [hfifo, hrd]; exact hcontents, by rw [hwr, hrd]; exact hindex, hcount, hlength⟩

/-- An acknowledge waits until port 330h is read. -/
theorem ackPending_step (hrun : i.reset = false) (hread : i.dataRead = false) (h : s.ackPending = true) :
    (s.step i).ackPending = true := by
  show (if i.reset then false else if i.dataRead && s.ackPending then false else if i.cmdWrite then true
    else s.ackPending) = true
  rw [hrun, hread, h]
  exact ite_self true

/-- A byte goes to the transmitter only when that is free. -/
theorem idle_of_txWr (htxWr : (s.step i).txWr = true) : (s.step i).uart.state = .idle := by
  have hdequeue := (Bool.and_eq_true_iff.1 htxWr).2
  obtain ⟨hfree, hquiet⟩ := Bool.and_eq_true_iff.1 hdequeue
  have hidle : s.uart.state = .idle := by
    have hbusy := (Bool.and_eq_true_iff.1 hfree).1
    rw [UartTx.txBusy, bne, Bool.not_not] at hbusy
    exact eq_of_beq hbusy
  rw [Bool.not_eq_true'] at hquiet
  show UartTx.stateNext s.uart ⟨s.txData, s.txWr⟩ = _
  rw [UartTx.stateNext, hidle, hquiet]
  rfl

end Mpu

/-! ## Runs -/

/-- The transmitter's setting of the bit clock. -/
def mpuClkMax (sysFreq : Nat) : Nat := sysFreq / 31250 - 1

/-- A run of the port from the last clock of a reset. The transmitter has no reset of its own: the reset lasts until it is
free, as at power-up. -/
structure MpuRun (sysFreq : Nat) where
  powerUp : Mpu (mpuClkMax sysFreq)
  inp : Nat → MpuIn
  ready : powerUp.uart.Ready
  quiet : powerUp.txWr = false
  reset : (inp 0).reset = true
  running : ∀ t, 0 < t → (inp t).reset = false

namespace MpuRun

variable {sysFreq : Nat} (r : MpuRun sysFreq)

def regs (t : Nat) : Mpu (mpuClkMax sysFreq) := run Mpu.step r.powerUp r.inp t

theorem regs_succ (t : Nat) : r.regs (t + 1) = (r.regs t).step (r.inp t) := run_succ _ _ _ _

def line (t : Nat) : Bool := (r.regs t).uart.txP

def accepts (t : Nat) : Bool := !(r.inp t).reset && (r.regs t).dataWrite (r.inp t)

def takes (t : Nat) : Bool := !(r.inp t).reset && (r.regs t).dequeue

/-- The bytes that the guest has written to port 330h before clock `t`. -/
def written (t : Nat) : List (BitVec 8) :=
  journal (fun u => if (r.inp u).writesData then [(r.inp u).iobusWritedataByte] else []) t

/-- The bytes that have gone into the queue before clock `t`. -/
def accepted (t : Nat) : List (BitVec 8) :=
  journal (fun u => if r.accepts u then [(r.inp u).iobusWritedataByte] else []) t

/-- The bytes that have been taken out of the queue before clock `t`. -/
def taken (t : Nat) : List (BitVec 8) :=
  journal (fun u => if r.takes u then [(r.regs u).fifo (r.regs u).fifoRd] else []) t

/-- The guest reads the status from clock `u` on, and finds bit 6 clear in clock `v`; it writes a byte in clock `t`, and
none between. -/
structure Precedes (u v t : Nat) : Prop where
  strobe : (r.inp u).iobusRead = true ∧ (r.inp u).showsStatus = true
  sample : u ≤ v ∧ v < t ∧ (r.inp v).showsStatus = true
  clear : ((r.regs v).readdata (r.inp v)).getLsbD 6 = false
  write : (r.inp t).writesData = true
  first : ∀ w, u ≤ w → w < t → (r.inp w).writesData = false

/-- The guest finds bit 6 of the status clear before each byte that it writes. -/
def Polled : Prop := ∀ t, (r.inp t).writesData = true → ∃ u v, r.Precedes u v t

/-- After a status that showed an acknowledge, the guest writes no byte to a full queue. -/
def Spares : Prop := ∀ u v t, r.Precedes u v t → (r.regs v).ackPending = true → (r.regs t).fifoFull = false

/-- The line carries the bytes that the guest writes, and the level of the queue is what has gone in but not out. -/
structure Sends : Prop where
  carries : Carries r.line (mpuClkMax sysFreq + 1) r.written
  level : ∀ t, 0 < t → (r.regs t).fifoCount.toNat ≤ 256 ∧
    (r.regs t).fifoCount.toNat + (r.taken t).length = (r.accepted t).length

/-! ### The queue -/

/-- What waits in the queue in clock `t`. -/
def waits : Nat → List (BitVec 8)
  | 0 => []
  | t + 1 => fifoStep (waits t) (r.takes t) (if r.accepts t then [(r.inp t).iobusWritedataByte] else [])

variable {r}

theorem holds (t : Nat) : (r.regs (t + 1)).Holds (r.waits (t + 1)) := by
  induction t with
  | zero =>
    have hwaits : r.waits 1 = [] := by
      show fifoStep [] (!(r.inp 0).reset && _) (if !(r.inp 0).reset && _ then _ else _) = _
      rw [r.reset]
      rfl
    have hstep : r.regs 1 = r.powerUp.step (r.inp 0) := rfl
    rw [hwaits, hstep]
    refine ⟨rfl, ?_, ?_, Nat.zero_le _⟩
    · show (if (r.inp 0).reset then 0 else _) = (if (r.inp 0).reset then 0 else _) + _
      rw [r.reset]
      rfl
    · show (if (r.inp 0).reset then 0 else _ : BitVec 9).toNat = _
      rw [r.reset]
      rfl
  | succ t ih =>
    have hrun := r.running (t + 1) (Nat.succ_pos t)
    have hwaits : r.waits (t + 2) = (r.regs (t + 1)).waitNext (r.inp (t + 1)) (r.waits (t + 1)) := by
      show fifoStep _ (!(r.inp (t + 1)).reset && _) (if !(r.inp (t + 1)).reset && _ then _ else _) = _
      rw [hrun]
      rfl
    rw [hwaits, regs_succ]
    exact ih.step hrun

theorem fifoOut_takes (u : Nat) :
    (fifoOut (r.waits u) (r.takes u)).toList = if r.takes u then [(r.regs u).fifo (r.regs u).fifoRd] else [] := by
  cases htakes : r.takes u with
  | false => rfl
  | true =>
    obtain ⟨hrun, hdequeue⟩ := Bool.and_eq_true_iff.1 htakes
    obtain _ | u := u
    · rw [r.reset] at hrun
      exact absurd hrun nofun
    · have hhead := (window_tail (r.holds u).contents ((r.holds u).nonempty hdequeue)).1
      show (r.waits (u + 1)).head?.toList = _
      rw [hhead]
      rfl

/-- What has gone into the queue has come out, in order, or waits. -/
theorem accepted_eq (t : Nat) : r.accepted t = r.taken t ++ r.waits t := by
  have hout : r.taken t = journal (fun u => (fifoOut (r.waits u) (r.takes u)).toList) t :=
    journal_congr fun u _ => (fifoOut_takes u).symm
  rw [hout]
  exact journal_fifo rfl t fun u _ => rfl

theorem level (t : Nat) : 0 < t → (r.regs t).fifoCount.toNat ≤ 256 ∧
    (r.regs t).fifoCount.toNat + (r.taken t).length = (r.accepted t).length := by
  rintro ht
  obtain ⟨t, rfl⟩ := Nat.exists_eq_succ_of_ne_zero ht.ne'
  have hholds := r.holds t
  rw [hholds.fifoCount, accepted_eq, List.length_append]
  exact ⟨hholds.length, Nat.add_comm _ _⟩

/-! ### The transmitter -/

def uartIn (r : MpuRun sysFreq) (t : Nat) : UartTxIn := ⟨(r.regs t).txData, (r.regs t).txWr⟩

theorem uart_eq (t : Nat) : (r.regs t).uart = UartTx.regs r.powerUp.uart r.uartIn t := by
  induction t with
  | zero => rfl
  | succ t ih =>
    show (r.regs t).uart.step _ = (UartTx.regs r.powerUp.uart r.uartIn t).step _
    rw [ih]
    rfl

/-- The bytes whose frames start in a clock. -/
def starts (r : MpuRun sysFreq) : Nat → Option (BitVec 8) := UartTx.starts r.powerUp.uart r.uartIn

theorem serial (r : MpuRun sysFreq) : Serial r.line (mpuClkMax sysFreq + 1) r.starts := by
  have hline : r.line = UartTx.line r.powerUp.uart r.uartIn := by
    funext t
    exact congrArg UartTx.txP (uart_eq t)
  rw [hline]
  exact UartTx.serial r.ready

theorem idle_of_wrEn (t : Nat) (hwr : (r.uartIn t).wrEn = true) :
    (UartTx.regs r.powerUp.uart r.uartIn t).state = .idle := by
  obtain _ | t := t
  · exact absurd (r.quiet.symm.trans hwr) nofun
  · rw [← uart_eq, regs_succ]
    exact Mpu.idle_of_txWr hwr

/-- A byte that comes out of the queue goes to the transmitter a clock later, and from there onto the line. -/
theorem taken_eq (t : Nat) :
    r.taken t = begun r.starts (t + 2) ++ (UartTx.regs r.powerUp.uart r.uartIn (t + 1)).pending := by
  have hwrites : journal (fun u => if (r.uartIn u).wrEn then [(r.uartIn u).din] else []) (t + 1) = r.taken t := by
    have hfirst : (r.uartIn 0).wrEn = false := r.quiet
    rw [journal_cons, hfirst]
    refine journal_congr fun u _ => ?_
    show (if !(r.inp u).reset && (r.regs u).dequeue then
      [if (r.inp u).reset then 0 else if (r.regs u).dequeue then _ else _] else []) = if !(r.inp u).reset && _ then _ else _
    cases (r.inp u).reset with
    | true => rfl
    | false => cases (r.regs u).dequeue <;> rfl
  rw [← hwrites]
  exact UartTx.journal_begun r.ready idle_of_wrEn (t + 1)

theorem txWr_succ (t : Nat) : (r.uartIn (t + 1)).wrEn = r.takes t := rfl

/-- While something waits, a frame begins. -/
theorem exists_begins {t : Nat} (h : (UartTx.regs r.powerUp.uart r.uartIn (t + 1)).pending ++ r.waits t ≠ []) :
    ∃ u, t + 1 ≤ u ∧ (UartTx.regs r.powerUp.uart r.uartIn u).begins = true := by
  by_contra hnone
  have hstart : ∀ v, t + 1 ≤ v → (UartTx.regs r.powerUp.uart r.uartIn v).state ≠ .start := by
    intro v hv hstate
    obtain ⟨u, hu, hbegins⟩ := UartTx.exists_begins r.ready hstate
    exact hnone ⟨u, hv.trans hu, hbegins⟩
  have hwr : ∀ v, t + 1 ≤ v → (r.uartIn v).wrEn = false := by
    intro v hv
    exact Bool.eq_false_iff.2 fun hwr => hstart (v + 1) (by omega) (UartTx.state_of_write (idle_of_wrEn v hwr) hwr)
  -- so the queue keeps what it holds
  have hwaits : ∀ v, t ≤ v → r.waits v ≠ [] := by
    intro v hv
    induction v, hv using Nat.le_induction with
    | base => rwa [UartTx.pending_of_ne (hstart (t + 1) le_rfl), List.nil_append] at h
    | succ v hv ih =>
      show fifoStep (r.waits v) (r.takes v) _ ≠ []
      rw [← txWr_succ, hwr (v + 1) (by omega)]
      exact List.append_ne_nil_of_left_ne_nil ih _
  -- until the transmitter is free
  obtain ⟨u, hu, hrests⟩ : ∃ u, t + 1 ≤ u ∧ (UartTx.regs r.powerUp.uart r.uartIn u).Rests :=
    UartTx.exists_rests r.ready (t + 1)
  have hidle := hrests.state.resolve_right fun hs => hstart u hu hs.1
  have htakes : r.takes u = true := by
    obtain ⟨u, rfl⟩ := Nat.exists_eq_succ_of_ne_zero (show u ≠ 0 by omega)
    have hbusy : (r.regs (u + 1)).uart.txBusy = false := by
      rw [UartTx.txBusy, uart_eq, hidle]
      rfl
    have hempty : (r.regs (u + 1)).fifoEmpty = false :=
      Bool.eq_false_iff.2 fun hempty => hwaits (u + 1) (by omega) ((r.holds u).empty_iff.1 hempty)
    have hquiet : (r.regs (u + 1)).txWr = false := hwr (u + 1) hu
    show (!(r.inp (u + 1)).reset && (!(r.regs (u + 1)).uart.txBusy && !(r.regs (u + 1)).fifoEmpty && !(r.regs (u + 1)).txWr)) = true
    rw [r.running (u + 1) (Nat.succ_pos u), hbusy, hempty, hquiet]
    rfl
  rw [← txWr_succ, hwr (u + 1) (by omega)] at htakes
  exact absurd htakes nofun

/-- What has gone into the queue has begun its frame, in order, or waits for it. -/
theorem accepted_split (r : MpuRun sysFreq) (t : Nat) : r.accepted t = begun r.starts (t + 2) ++
    ((UartTx.regs r.powerUp.uart r.uartIn (t + 1)).pending ++ r.waits t) := by
  rw [accepted_eq, taken_eq, List.append_assoc]

theorem begun_prefix (r : MpuRun sysFreq) (t : Nat) : begun r.starts t <+: r.accepted t := by
  rw [accepted_split]
  exact (journal_mono _ (by omega)).trans (List.prefix_append _ _)

/-- The line carries what goes into the queue. -/
theorem carries_accepted (r : MpuRun sysFreq) : Carries r.line (mpuClkMax sysFreq + 1) r.accepted := by
  have hgo : ∀ t, (UartTx.regs r.powerUp.uart r.uartIn (t + 1)).pending ++ r.waits t ≠ [] →
      ∃ u, t ≤ u ∧ (begun r.starts (t + 2)).length < (begun r.starts (u + 2)).length := by
    intro t hwaiting
    obtain ⟨u, hu, hbegins⟩ := exists_begins hwaiting
    have hbegun : begun r.starts (u + 2) = begun r.starts (u + 1) ++ (r.starts (u + 1)).toList := journal_succ _ _
    have hsome : r.starts (u + 1) = some _ := if_pos hbegins
    have hle : (begun r.starts (t + 2)).length ≤ (begun r.starts (u + 1)).length :=
      (journal_mono _ (by omega)).length_le
    rw [hsome] at hbegun
    refine ⟨u, by omega, ?_⟩
    rw [hbegun, List.length_append]
    exact Nat.lt_succ_of_le hle
  refine ⟨r.starts, r.serial, r.begun_prefix, fun t => ?_⟩
  obtain ⟨u, hu, hcarried⟩ := exists_drained r.accepted_split (fun _ _ => journal_mono _) hgo t
  exact ⟨u + 2, by omega, hcarried⟩

/-! ### The guest -/

theorem accepts_le {t : Nat} (h : r.accepts t = true) : (r.inp t).writesData = true :=
  (Bool.and_eq_true_iff.1 (Bool.and_eq_true_iff.1 h).2).1

/-- While the guest writes nothing, no more waits. -/
theorem length_waits_le {u t : Nat} (hut : u ≤ t) (h : ∀ w, u ≤ w → w < t → (r.inp w).writesData = false) :
    (r.waits t).length ≤ (r.waits u).length := by
  induction t, hut using Nat.le_induction with
  | base => exact Nat.le_refl _
  | succ t hut ih =>
    have hnone : r.accepts t = false := by
      refine Bool.eq_false_iff.2 fun haccepts => ?_
      have hwrites := accepts_le haccepts
      rw [h t hut (Nat.lt_succ_self t)] at hwrites
      exact Bool.false_ne_true hwrites
    have hle := length_fifoStep_le (r.waits t) (r.takes t) (if r.accepts t then [(r.inp t).iobusWritedataByte] else [])
    rw [hnone] at hle
    refine Nat.le_trans ?_ (ih fun w hw hlt => h w hw (Nat.lt_succ_of_lt hlt))
    show (fifoStep _ _ (if r.accepts t then _ else _)).length ≤ _
    rw [hnone]
    exact hle

/-- A status whose bit 6 is clear shows an acknowledge, or a queue with room. -/
theorem room_of_clear {u v t : Nat} (h : r.Precedes u v t) (hack : (r.regs v).ackPending = false) :
    (r.waits v).length < 256 := by
  obtain _ | v := v
  · exact Nat.zero_lt_succ _
  · have hfull : (r.regs (v + 1)).fifoFull = false := by
      have hclear := h.clear
      rw [Mpu.readdata, (Bool.and_eq_true_iff.1 h.sample.2.2).2, hack] at hclear
      refine Bool.eq_false_iff.2 fun hfull => ?_
      have hset : (0xC0#8).getLsbD 6 = true := rfl
      rw [hfull] at hclear
      exact absurd (hset.symm.trans hclear) nofun
    have hne : (r.waits (v + 1)).length ≠ 256 := by
      intro heq
      rw [(r.holds v).full_iff.2 heq] at hfull
      exact absurd hfull nofun
    exact Nat.lt_of_le_of_ne (r.holds v).length hne

theorem fifoFull_eq_false {u v t : Nat} (h : r.Precedes u v t) (hspares : r.Spares) : (r.regs t).fifoFull = false := by
  cases hack : (r.regs v).ackPending with
  | true => exact hspares u v t h hack
  | false =>
    have hroom := room_of_clear h hack
    have hle := length_waits_le h.sample.2.1.le fun w hw hlt => h.first w (h.sample.1.trans hw) hlt
    obtain _ | t := t
    · exact absurd h.sample.2.1 (Nat.not_lt_zero v)
    · refine Bool.eq_false_iff.2 fun hfull => ?_
      have heq := (r.holds t).full_iff.1 hfull
      omega

/-- A guest that finds bit 6 clear, and that after an acknowledge writes no byte to a full queue, has its bytes sent. -/
theorem sends (hpolled : r.Polled) (hspares : r.Spares) : r.Sends where
  carries := by
    have haccepts : ∀ t, r.accepts t = (r.inp t).writesData := by
      intro t
      refine Bool.eq_iff_iff.2 ⟨accepts_le, fun hwrites => ?_⟩
      obtain ⟨u, v, hprecedes⟩ := hpolled t hwrites
      have hrun := r.running t (Nat.zero_lt_of_lt hprecedes.sample.2.1)
      have hroom := fifoFull_eq_false hprecedes hspares
      show (!(r.inp t).reset && ((r.inp t).writesData && !(r.regs t).fifoFull)) = true
      rw [hrun, hwrites, hroom]
      rfl
    have hwritten : r.written = r.accepted := by
      funext t
      exact journal_congr fun u _ => by rw [haccepts]
    rw [hwritten]
    exact r.carries_accepted
  level := level

/-! ### Two guests -/

/-- The port at power-up. -/
def atPowerUp (txClkMax : Nat) : Mpu txClkMax :=
  ⟨fun _ => 0, 0, 0, 0, 0, false, false, ⟨0, 0, .idle, 0, true⟩⟩

theorem atPowerUp_ready (txClkMax : Nat) : (atPowerUp txClkMax).uart.Ready :=
  ⟨rfl, rfl, BitVec.toNat_zero.le.trans (Nat.zero_le _)⟩

def noAccess : MpuIn := ⟨false, false, false, false, false, 0⟩

/-- The guest reads the status and writes a byte. -/
def one : MpuRun 85000000 where
  powerUp := atPowerUp _
  inp
    | 0 => { noAccess with reset := true }
    | 1 => { noAccess with iobusRead := true, mpuCs := true, iobusAddress0 := true }
    | 2 => { noAccess with iobusWrite := true, mpuCs := true, iobusWritedataByte := 0x90 }
    | _ => noAccess
  ready := atPowerUp_ready _
  quiet := rfl
  reset := rfl
  running
    | 1, _ => rfl
    | 2, _ => rfl
    | _ + 3, _ => rfl

theorem one_sends : one.Sends := by
  have hwrites : ∀ t, (one.inp t).writesData = true → t = 2
    | 0, h => absurd h nofun
    | 1, h => absurd h nofun
    | 2, _ => rfl
    | _ + 3, h => absurd h nofun
  refine sends (fun t ht => ?_) fun u v t h _ => ?_
  · obtain rfl := hwrites t ht
    refine ⟨1, 1, ⟨rfl, rfl⟩, ⟨le_rfl, by decide, rfl⟩, rfl, rfl, fun w hw hlt => ?_⟩
    obtain rfl : w = 1 := by omega
    rfl
  · obtain rfl := hwrites t h.write
    rfl

/-- The guest writes a command and leaves its acknowledge; then it writes 260 bytes, and reads the status before each. -/
def overrunIn (t : Nat) : MpuIn :=
  if t = 0 then { noAccess with reset := true }
  else if t = 1 then { noAccess with iobusWrite := true, mpuCs := true, iobusAddress0 := true, iobusWritedataByte := 0xFF }
  else if 2600 ≤ t then noAccess
  else if t % 10 = 4 then { noAccess with iobusRead := true, mpuCs := true, iobusAddress0 := true }
  else if t % 10 = 5 then { noAccess with mpuCs := true, iobusAddress0 := true }
  else if t % 10 = 9 then { noAccess with iobusWrite := true, mpuCs := true, iobusWritedataByte := 0x90 }
  else noAccess

def overrun : MpuRun 85000000 where
  powerUp := atPowerUp _
  inp := overrunIn
  ready := atPowerUp_ready _
  quiet := rfl
  reset := rfl
  running t ht := by
    unfold overrunIn
    rw [if_neg ht.ne']
    split_ifs <;> rfl

theorem overrunIn_writesData (t : Nat) : (overrunIn t).writesData = decide (t < 2600 ∧ t % 10 = 9) := by
  unfold overrunIn
  split_ifs <;> simp [MpuIn.writesData, noAccess] <;> omega

theorem overrunIn_dataRead (t : Nat) : (overrunIn t).dataRead = false := by
  unfold overrunIn
  split_ifs <;> rfl

/-- The acknowledge is never read. -/
theorem overrun_ackPending (t : Nat) : (overrun.regs (t + 2)).ackPending = true := by
  induction t with
  | zero => rfl
  | succ t ih =>
    exact Mpu.ackPending_step (overrun.running (t + 2) (by omega)) (overrunIn_dataRead (t + 2)) ih

theorem overrun_polled : overrun.Polled := by
  intro t ht
  have hwrite : t < 2600 ∧ t % 10 = 9 := of_decide_eq_true ((overrunIn_writesData t).symm.trans ht)
  obtain ⟨u, rfl⟩ := Nat.exists_eq_add_of_le' (show 5 ≤ t by omega)
  have hstrobe : (overrunIn u).iobusRead = true ∧ (overrunIn u).showsStatus = true := by
    unfold overrunIn
    rw [if_neg (show u ≠ 0 by omega), if_neg (show u ≠ 1 by omega), if_neg (show ¬ 2600 ≤ u by omega),
      if_pos (show u % 10 = 4 by omega)]
    exact ⟨rfl, rfl⟩
  have hsample : (overrunIn (u + 1)).showsStatus = true := by
    unfold overrunIn
    rw [if_neg (show u + 1 ≠ 0 by omega), if_neg (show u + 1 ≠ 1 by omega), if_neg (show ¬ 2600 ≤ u + 1 by omega),
      if_neg (show (u + 1) % 10 ≠ 4 by omega), if_pos (show (u + 1) % 10 = 5 by omega)]
    rfl
  refine ⟨u, u + 1, hstrobe, ⟨by omega, by omega, hsample⟩, ?_, ht, fun w hw hlt => ?_⟩
  · have hack : (overrun.regs (u + 1)).ackPending = true := by
      obtain ⟨k, rfl⟩ := Nat.exists_eq_add_of_le' (show 1 ≤ u by omega)
      exact overrun_ackPending k
    have hread : (overrun.regs (u + 1)).readdata (overrunIn (u + 1)) = 0 := by
      rw [Mpu.readdata, (Bool.and_eq_true_iff.1 hsample).2, hack]
      rfl
    show ((overrun.regs (u + 1)).readdata (overrunIn (u + 1))).getLsbD 6 = false
    rw [hread]
    exact BitVec.getLsbD_zero
  · refine (overrunIn_writesData w).trans (decide_eq_false ?_)
    omega

/-- No frame has begun when the guest has written its last byte. -/
theorem overrun_begun : begun overrun.starts 2602 = [] := by
  refine (journal_quiet (Nat.zero_le 2602) fun v _ hv => ?_).trans (journal_zero _)
  have hnone : overrun.starts v = none := by
    obtain _ | v := v
    · rfl
    · refine if_neg (Bool.eq_false_iff.1 ?_)
      obtain _ | v := v
      · rfl
      · have hcnt : (UartTx.regs overrun.powerUp.uart overrun.uartIn (0 + (v + 1))).txClkcnt.toNat = _ :=
          UartTx.txClkcnt_add overrun.ready 0 (v + 1)
        have hzero : (UartTx.regs overrun.powerUp.uart overrun.uartIn 0).txClkcnt.toNat = 0 := BitVec.toNat_zero
        have hperiod : v + 1 < mpuClkMax 85000000 + 1 := Nat.lt_of_lt_of_le (show v + 1 < 2720 by omega) (by decide)
        rw [hzero, Nat.zero_add, Nat.mod_eq_of_lt hperiod] at hcnt
        show (_ && UartTx.txClk (UartTx.regs overrun.powerUp.uart overrun.uartIn (v + 1))) = false
        rw [UartTx.txClk_eq, hcnt]
        exact Bool.and_false _
  rw [hnone]
  rfl

theorem overrun_accepted {t : Nat} (ht : 2600 ≤ t) : (overrun.accepted t).length ≤ 257 := by
  have hsame : overrun.accepted t = overrun.accepted 2600 := by
    refine journal_quiet ht fun v hv _ => if_neg fun haccepts => ?_
    have hwrite := of_decide_eq_true ((overrunIn_writesData v).symm.trans (accepts_le haccepts))
    omega
  have hpending := UartTx.length_pending_le (UartTx.regs overrun.powerUp.uart overrun.uartIn (2600 + 1))
  have hwaits : (overrun.waits 2600).length ≤ 256 := (overrun.holds 2599).length
  rw [hsame, accepted_split, overrun_begun, List.nil_append, List.length_append]
  omega

theorem overrun_not_sends : overrun.Polled ∧ ¬ overrun.Sends := by
  refine ⟨overrun_polled, fun h => ?_⟩
  obtain ⟨starts, hserial, -, hall⟩ := h.carries
  obtain ⟨u, hu, hcarried⟩ := hall 2600
  -- a receiver finds the frames that the transmitter begins
  rw [hserial.unique (Nat.succ_pos _) overrun.serial] at hcarried
  have hwritten : (overrun.written 2600).length = 260 := by decide +kernel
  have hle := (hcarried.trans (overrun.begun_prefix u)).length_le
  have haccepted := overrun_accepted hu
  omega

end MpuRun

end Z486.Sound
