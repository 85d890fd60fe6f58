/-
The CD audio buffer (src/soc/cdda.v): the host sends frames of both channels a sector at a time, when the request is up,
and one is played with each tick of the 44.1 kHz clock.

A frame lands in the memory a clock after its strobe and is read a clock after that: a tick in the clock after a frame
has landed in the empty buffer plays what was in the memory before. The request is up while a sector fits beside the
frames that the memory holds, but the buffer takes one frame less than the memory; and a frame in flight is not counted.
-/
import Z486.Clocked.Fifo
import Z486.Clocked.Run
import Z486.Common.SimpleFifo

namespace Z486.Sound

open Clocked Common.SimpleFifo

/-! ## Registers -/

/-- A clock of the buffer: the host's strobe and frame, and the 44.1 kHz clock, which comes from another domain. -/
structure CddaIn where
  cddaWr : Bool
  cddaData : BitVec 32
  clk44100 : Bool

structure Cdda where
  wrReq : Bool
  audioL : BitVec 16
  audioR : BitVec 16
  readAddr : BitVec 11
  writeAddr : BitVec 11
  filledCnt : BitVec 12
  oldClk : Bool
  clkD1 : Bool
  clkD2 : Bool
  oldWr : Bool
  rdReq : Bool
  cddaReq : Bool
  buffer : BitVec 11 → BitVec 32
  bufferQ : BitVec 32

namespace Cdda

variable (s : Cdda) (i : CddaIn)

/-- The frames of a sector of 2352 bytes. -/
def sectorSize : Nat := 588

def bufferSize : Nat := 2048

def strobed : Bool := !s.oldWr && i.cddaWr

/-- A frame is taken: the buffer holds all but one of the memory's words otherwise. -/
def takes : Bool := s.strobed i && s.writeAddr + 1 != s.readAddr

/-- A tick of the 44.1 kHz clock. -/
def tick : Bool := s.clkD2 == s.clkD1 && s.oldClk && !s.clkD2

def plays : Bool := s.tick && s.readAddr != s.writeAddr

def step : Cdda where
  wrReq := s.takes i
  audioL := if s.tick then if s.readAddr == s.writeAddr then 0 else s.bufferQ.extractLsb' 0 16 else s.audioL
  audioR := if s.tick then if s.readAddr == s.writeAddr then 0 else s.bufferQ.extractLsb' 16 16 else s.audioR
  readAddr := if s.plays then s.readAddr + 1 else s.readAddr
  writeAddr := if s.wrReq then s.writeAddr + 1 else s.writeAddr
  filledCnt := s.filledCnt + BitVec.ofNat 12 s.wrReq.toNat - BitVec.ofNat 12 s.rdReq.toNat
  oldClk := if s.clkD2 == s.clkD1 then s.clkD2 else s.oldClk
  clkD1 := i.clk44100
  clkD2 := s.clkD1
  oldWr := i.cddaWr
  rdReq := s.plays
  cddaReq := decide (BitVec.ofNat 12 sectorSize ≤ BitVec.ofNat 12 bufferSize - s.filledCnt)
  buffer := if s.wrReq then Function.update s.buffer s.writeAddr i.cddaData else s.buffer
  bufferQ := s.buffer s.readAddr

theorem cddaReq_step : (s.step i).cddaReq =
    decide (BitVec.ofNat 12 sectorSize ≤ BitVec.ofNat 12 bufferSize - s.filledCnt) := by
  simp only [step]

/-- The registers at power-up, with any memory. -/
structure PowerUp (s : Cdda) : Prop where
  wrReq : s.wrReq = false
  readAddr : s.readAddr = 0
  writeAddr : s.writeAddr = 0
  filledCnt : s.filledCnt = 0
  oldWr : s.oldWr = false
  rdReq : s.rdReq = false
  cddaReq : s.cddaReq = false

/-! ## What waits -/

/-- The frames that wait in the buffer, in order. -/
structure Holds (s : Cdda) (w : List (BitVec 32)) : Prop where
  contents : window s.buffer s.readAddr w.length = w
  writeAddr : s.writeAddr = s.readAddr + BitVec.ofNat 11 w.length
  length : w.length ≤ 2047

/-- Besides, a frame in flight has its place, and the level counts the frames with that of the last clock. -/
structure Level (s : Cdda) (w : List (BitVec 32)) : Prop extends Holds s w where
  flight : s.wrReq = true → s.oldWr = true ∧ w.length ≤ 2046
  filled : s.filledCnt = BitVec.ofNat 12 (w.length + s.rdReq.toNat)

variable {s i} {w : List (BitVec 32)}

theorem Holds.readAddr_eq_iff (h : Holds s w) : s.readAddr = s.writeAddr ↔ w = [] := by
  have hlength := h.length
  rw [h.writeAddr, ← List.length_eq_zero_iff]
  constructor
  · intro heq
    have hzero : BitVec.ofNat 11 0 = BitVec.ofNat 11 w.length := by
      refine (BitVec.add_right_inj s.readAddr).1 ?_
      rw [← heq]
      exact BitVec.add_zero s.readAddr
    exact (ofNat_inj_of_close (Nat.zero_le _) (by omega) hzero).symm
  · intro hzero
    rw [hzero]
    exact (BitVec.add_zero s.readAddr).symm

theorem Holds.full_iff (h : Holds s w) : s.writeAddr + 1 = s.readAddr ↔ w.length = 2047 := by
  have hlength := h.length
  rw [h.writeAddr, BitVec.add_assoc, ← ofNat_succ]
  constructor
  · intro heq
    have hzero : BitVec.ofNat 11 (w.length + 1) = 0 := by
      refine (BitVec.add_right_inj s.readAddr).1 ?_
      rw [heq]
      exact (BitVec.add_zero s.readAddr).symm
    have hnat := congrArg BitVec.toNat hzero
    rw [BitVec.toNat_ofNat] at hnat
    replace hnat : (w.length + 1) % 2048 = 0 := hnat
    omega
  · intro heq
    rw [heq]
    exact BitVec.add_zero s.readAddr

theorem Holds.plays_iff (h : Holds s w) : s.plays = true ↔ s.tick = true ∧ w ≠ [] := by
  unfold plays
  rw [Bool.and_eq_true, bne_iff_ne, Ne, h.readAddr_eq_iff]

/-- What waits after a clock. -/
def waitNext (s : Cdda) (i : CddaIn) (w : List (BitVec 32)) : List (BitVec 32) :=
  (if s.plays then w.tail else w) ++ if s.wrReq then [i.cddaData] else []

theorem length_waitNext (h : Holds s w) :
    (waitNext s i w).length + s.plays.toNat = w.length + s.wrReq.toNat := by
  unfold waitNext
  rw [List.length_append]
  cases hplays : s.plays with
  | false => cases s.wrReq <;> rfl
  | true =>
    have hpos := List.length_pos_iff.2 (h.plays_iff.1 hplays).2
    rw [if_pos rfl, List.length_tail]
    cases s.wrReq with
    | false =>
      show w.length - 1 + 0 + 1 = w.length + 0
      omega
    | true =>
      show w.length - 1 + 1 + 1 = w.length + 1
      omega

theorem Level.holds_step (h : Level s w) : Holds (s.step i) (waitNext s i w) := by
  have hmore := length_waitNext (i := i) h.toHolds
  have hlength := h.length
  have hroom : s.wrReq = true → w.length ≤ 2046 := fun hwr => (h.flight hwr).2
  obtain ⟨hcontents, hindex⟩ := window_step h.contents h.writeAddr (fun hplays => (h.plays_iff.1 hplays).2)
    (fun hwr => Nat.lt_of_le_of_lt ((length_rest_le w s.plays).trans (hroom hwr)) (by decide)) i.cddaData
  refine ⟨hcontents, hindex, ?_⟩
  cases hwr : s.wrReq with
  | false =>
    rw [hwr] at hmore
    replace hmore : (waitNext s i w).length + s.plays.toNat = w.length := hmore
    omega
  | true =>
    have hfew := hroom hwr
    rw [hwr] at hmore
    replace hmore : (waitNext s i w).length + s.plays.toNat = w.length + 1 := hmore
    omega

theorem Level.step (h : Level s w) : Level (s.step i) (waitNext s i w) := by
  have hmore := length_waitNext (i := i) h.toHolds
  have hlength := h.length
  refine ⟨h.holds_step, fun hnext => ?_, ?_⟩
  · -- a strobe that rises follows a clock without one, so no frame is in flight
    replace hnext : s.takes i = true := hnext
    obtain ⟨hstrobed, hroom⟩ := Bool.and_eq_true_iff.1 hnext
    obtain ⟨hold, hwr⟩ := Bool.and_eq_true_iff.1 hstrobed
    have hland : s.wrReq = false := by
      refine Bool.eq_false_iff.2 fun hland => ?_
      rw [(h.flight hland).1] at hold
      exact Bool.false_ne_true hold
    have hnotFull : w.length ≠ 2047 := fun hfull => (bne_iff_ne.1 hroom) (h.full_iff.2 hfull)
    rw [hland] at hmore
    replace hmore : (waitNext s i w).length + s.plays.toNat = w.length := hmore
    exact ⟨hwr, by omega⟩
  · show s.filledCnt + BitVec.ofNat 12 s.wrReq.toNat - BitVec.ofNat 12 s.rdReq.toNat = BitVec.ofNat 12 (_ + s.plays.toNat)
    rw [h.filled, hmore, BitVec.ofNat_add w.length s.rdReq.toNat, BitVec.add_assoc,
      BitVec.add_comm (BitVec.ofNat 12 s.rdReq.toNat), ← BitVec.add_assoc, BitVec.add_sub_cancel, ← BitVec.ofNat_add]

/-! ## Runs -/

section Runs

variable (s₀ : Cdda) (inp : Nat → CddaIn)

/-- The registers in clock `t`. -/
def state (t : Nat) : Cdda := run step s₀ inp t

/-- The host's strobe rises in clock `t`. -/
def sends (t : Nat) : Bool := (state s₀ inp t).strobed (inp t)

/-- The frames that the host has sent before clock `t`. -/
def sent (t : Nat) : List (BitVec 32) := journal (fun u => if sends s₀ inp u then [(inp u).cddaData] else []) t

/-- The frames that have been played before clock `t`, as they came out. -/
def played (t : Nat) : List (BitVec 32) :=
  journal (fun u => if (state s₀ inp u).plays
    then [(state s₀ inp (u + 1)).audioR ++ (state s₀ inp (u + 1)).audioL] else []) t

/-- The frames in the buffer and in flight. -/
def waiting (s : Cdda) : Nat := (s.writeAddr - s.readAddr).toNat + s.wrReq.toNat

/-- The sector that frame `e` belongs to was begun in clock `h`, in which the host found the request up; of its frames as
many are before `e`. -/
structure OfSector (starts : Nat → Bool) (h e : Nat) : Prop where
  start : starts h = true
  before : h < e
  last : ∀ u, h < u → u < e → starts u = false

/-- The host sends a sector at most for each time that it finds the request up, and holds a frame for a clock after its
strobe has risen, as the port to the host does. -/
structure HostSends (starts : Nat → Bool) : Prop where
  request : ∀ h, starts h = true → (state s₀ inp h).cddaReq = true
  sector : ∀ e, sends s₀ inp e = true → ∃ h, OfSector starts h e ∧ pulses (sends s₀ inp) h e < sectorSize
  held : ∀ e, sends s₀ inp e = true → (inp (e + 1)).cddaData = (inp e).cddaData

/-- Of a sector that was requested with so many frames waiting that it does not fit beside them, the last frames are sent
only when as many have been played. -/
def InTime (starts : Nat → Bool) : Prop :=
  ∀ h e, OfSector starts h e → sends s₀ inp e = true →
    waiting (state s₀ inp h) = 1460 ∨ waiting (state s₀ inp h) = 1461 →
      waiting (state s₀ inp h) + pulses (sends s₀ inp) h e + 1 ≤ 2047 + pulses (fun u => (state s₀ inp u).plays) h e

/-- No tick comes in the clock after a frame has landed in the empty buffer. -/
def Settled : Prop :=
  ∀ t, (state s₀ inp (t + 1)).tick = true → (state s₀ inp t).wrReq = true →
    (state s₀ inp t).readAddr ≠ (state s₀ inp t).writeAddr

/-- No frame is dropped; each is played once, in order; the level is the number of frames between when none is in flight;
a tick plays a frame if one has landed, and is silent otherwise. -/
structure Streams : Prop where
  kept : ∀ e, sends s₀ inp e = true → (state s₀ inp (e + 1)).wrReq = true
  order : ∀ t, played s₀ inp t <+: sent s₀ inp t
  level : ∀ t, (state s₀ inp t).wrReq = false → (state s₀ inp t).rdReq = false →
    (played s₀ inp t).length + (state s₀ inp t).filledCnt.toNat = (sent s₀ inp t).length
  sounds : ∀ t, (state s₀ inp t).tick = true →
    (played s₀ inp t).length + (state s₀ inp t).wrReq.toNat < (sent s₀ inp t).length →
      (played s₀ inp (t + 1)).length = (played s₀ inp t).length + 1
  silent : ∀ t, (state s₀ inp t).tick = true →
    (played s₀ inp t).length + (state s₀ inp t).wrReq.toNat = (sent s₀ inp t).length →
      (state s₀ inp (t + 1)).audioL = 0 ∧ (state s₀ inp (t + 1)).audioR = 0 ∧
        (state s₀ inp (t + 1)).readAddr = (state s₀ inp t).readAddr

/-- The frames in the buffer before clock `t`. -/
def waits : Nat → List (BitVec 32)
  | 0 => []
  | t + 1 => waitNext (state s₀ inp t) (inp t) (waits t)

variable {s₀ inp}

theorem level_powerUp (h : PowerUp s₀) : Level s₀ [] where
  contents := rfl
  writeAddr := by rw [h.writeAddr, h.readAddr]; rfl
  length := Nat.zero_le _
  flight hwr := absurd (h.wrReq.symm.trans hwr) Bool.false_ne_true
  filled := by rw [h.filledCnt, h.rdReq]; rfl

theorem level_run (h : PowerUp s₀) (inp : Nat → CddaIn) (t : Nat) : Level (state s₀ inp t) (waits s₀ inp t) := by
  induction t with
  | zero => exact level_powerUp h
  | succ t ih => exact ih.step

/-- A strobe rises in a clock in which no frame lands. -/
theorem Level.not_flight (h : Level s w) (hsend : s.strobed i = true) : s.wrReq = false := by
  obtain ⟨hold, -⟩ := Bool.and_eq_true_iff.1 hsend
  refine Bool.eq_false_iff.2 fun hland => ?_
  rw [(h.flight hland).1] at hold
  exact Bool.false_ne_true hold

theorem Level.waiting_eq (h : Level s w) : waiting s = w.length + s.wrReq.toNat := by
  have hlength := h.length
  unfold waiting
  rw [h.writeAddr, BitVec.add_comm, BitVec.add_sub_cancel, BitVec.toNat_ofNat, Nat.mod_eq_of_lt (by omega)]

/-! ## No frame is dropped -/

/-- With the request up, no more than 1461 frames are waiting. -/
theorem waiting_of_request (hup : PowerUp s₀) {h : Nat} (hreq : (state s₀ inp h).cddaReq = true) :
    waiting (state s₀ inp h) ≤ 1461 := by
  cases h with
  | zero => exact absurd (hup.cddaReq.symm.trans hreq) Bool.false_ne_true
  | succ t =>
    have hlevel := level_run hup inp t
    have hlength := hlevel.length
    have hread := (state s₀ inp t).rdReq.toNat_le
    have hmore := length_waitNext (i := inp t) hlevel.toHolds
    have hfilled : (state s₀ inp t).filledCnt.toNat = (waits s₀ inp t).length + (state s₀ inp t).rdReq.toNat := by
      rw [hlevel.filled, BitVec.toNat_ofNat, Nat.mod_eq_of_lt (by omega)]
    have hfew : (waits s₀ inp t).length ≤ 1460 := by
      have hle := cddaReq_step (state s₀ inp t) (inp t)
      rw [show ((state s₀ inp t).step (inp t)).cddaReq = true from hreq, eq_comm, decide_eq_true_iff, BitVec.le_def, BitVec.toNat_sub, hfilled] at hle
      replace hle : 588 ≤ (4096 - ((waits s₀ inp t).length + (state s₀ inp t).rdReq.toNat) + 2048) % 4096 := hle
      omega
    rw [(level_run hup inp (t + 1)).waiting_eq]
    show (waitNext (state s₀ inp t) (inp t) (waits s₀ inp t)).length + ((state s₀ inp t).takes (inp t)).toNat ≤ 1461
    cases htakes : (state s₀ inp t).takes (inp t) with
    | false =>
      have := (state s₀ inp t).wrReq.toNat_le
      rw [Bool.toNat_false]
      omega
    | true =>
      rw [hlevel.not_flight (Bool.and_eq_true_iff.1 htakes).1, Bool.toNat_false] at hmore
      rw [Bool.toNat_true]
      omega

/-- While none is dropped, what is waiting grows with the frames that are sent and falls with those that are played. -/
theorem waiting_balance (hup : PowerUp s₀) {a b : Nat} (hab : a ≤ b)
    (hkept : ∀ e, e < b → sends s₀ inp e = true → (state s₀ inp e).takes (inp e) = true) :
    waiting (state s₀ inp b) + pulses (fun u => (state s₀ inp u).plays) a b =
      waiting (state s₀ inp a) + pulses (sends s₀ inp) a b := by
  induction b, hab using Nat.le_induction with
  | base => rw [pulses_self, pulses_self]
  | succ t hle ih =>
    have hbefore := ih fun e he => hkept e (Nat.lt_succ_of_lt he)
    have hlevel := level_run hup inp t
    have hmore := length_waitNext (i := inp t) hlevel.toHolds
    have htakes : (state s₀ inp t).takes (inp t) = sends s₀ inp t := by
      cases hsend : sends s₀ inp t with
      | true => exact hkept t (Nat.lt_succ_self t) hsend
      | false =>
        unfold takes
        rw [show (state s₀ inp t).strobed (inp t) = false from hsend, Bool.false_and]
    have hnext : waiting (state s₀ inp (t + 1)) =
        (waitNext (state s₀ inp t) (inp t) (waits s₀ inp t)).length + (sends s₀ inp t).toNat := by
      rw [(level_run hup inp (t + 1)).waiting_eq, ← htakes]
      rfl
    rw [hlevel.waiting_eq] at hbefore
    rw [pulses_succ _ hle, pulses_succ _ hle, hnext]
    have hplays : (if (state s₀ inp t).plays = true then 1 else 0) = (state s₀ inp t).plays.toNat := by
      cases (state s₀ inp t).plays <;> rfl
    have hsends : (if sends s₀ inp t = true then 1 else 0) = (sends s₀ inp t).toNat := by
      cases sends s₀ inp t <;> rfl
    rw [hplays, hsends]
    omega

/-- A sector fits that is requested at a lower level, and at the highest where its last frames wait for those before
them to be played. -/
theorem takes_of_sends {starts : Nat → Bool} (hup : PowerUp s₀) (hhost : HostSends s₀ inp starts)
    (htime : InTime s₀ inp starts) (e : Nat) (hsend : sends s₀ inp e = true) :
    (state s₀ inp e).takes (inp e) = true := by
  induction e using Nat.strong_induction_on with
  | _ e ih =>
    have hlevel := level_run hup inp e
    obtain ⟨h, hsector, hcount⟩ := hhost.sector e hsend
    have hbalance := waiting_balance hup (Nat.le_of_lt hsector.before) fun e' he' hs => ih e' he' hs
    have hrequest := waiting_of_request hup (hhost.request h hsector.start)
    rw [hlevel.waiting_eq, hlevel.not_flight hsend, Bool.toNat_false, Nat.add_zero] at hbalance
    have hroom : (waits s₀ inp e).length ≤ 2046 := by
      by_cases hhigh : waiting (state s₀ inp h) = 1460 ∨ waiting (state s₀ inp h) = 1461
      · have := htime h e hsector hsend hhigh
        omega
      · replace hcount : pulses (sends s₀ inp) h e < 588 := hcount
        omega
    refine Bool.and_eq_true_iff.2 ⟨hsend, bne_iff_ne.2 fun hfull => ?_⟩
    have := hlevel.full_iff.1 hfull
    omega

/-! ## Each is played once -/

theorem not_tick_twice (h : s.tick = true) : (s.step i).tick = false := by
  obtain ⟨hboth, hlow⟩ := Bool.and_eq_true_iff.1 h
  obtain ⟨hsame, -⟩ := Bool.and_eq_true_iff.1 hboth
  have hold : (s.step i).oldClk = false := by
    show (if s.clkD2 == s.clkD1 then s.clkD2 else s.oldClk) = false
    rw [hsame, if_pos rfl]
    exact (Bool.not_eq_true' _).mp hlow
  unfold tick
  rw [hold, Bool.and_false, Bool.false_and]

theorem audio_played (h : s.plays = true) : (s.step i).audioR ++ (s.step i).audioL = s.bufferQ := by
  obtain ⟨htick, hne⟩ := Bool.and_eq_true_iff.1 h
  have hbusy : (s.readAddr == s.writeAddr) = false := beq_false_of_ne (bne_iff_ne.1 hne)
  simp only [step, htick, hbusy, if_true, Bool.false_eq_true, if_false]
  exact BitVec.extractLsb'_append_extractLsb'

theorem audio_silent (h : s.tick = true) (hempty : s.readAddr = s.writeAddr) :
    (s.step i).audioL = 0 ∧ (s.step i).audioR = 0 ∧ (s.step i).readAddr = s.readAddr := by
  have hbusy : (s.readAddr == s.writeAddr) = true := beq_iff_eq.2 hempty
  have hplays : s.plays = false := by
    unfold plays
    rw [bne, hbusy, Bool.not_true, Bool.and_false]
  simp only [step, h, hbusy, hplays, if_true, Bool.false_eq_true, if_false, and_self]

/-- The frame that a tick plays is the oldest: it has been fetched, as it was there in the clock before. -/
theorem bufferQ_head (hup : PowerUp s₀) (hsettled : Settled s₀ inp) {t : Nat}
    (hplays : (state s₀ inp t).plays = true) : (waits s₀ inp t).head? = some (state s₀ inp t).bufferQ := by
  obtain ⟨htick, hne⟩ := (level_run hup inp t).plays_iff.1 hplays
  cases t with
  | zero => exact absurd rfl hne
  | succ u =>
    have hlevel := level_run hup inp u
    have hquiet : (state s₀ inp u).plays = false := by
      unfold plays
      refine Bool.and_eq_false_iff.2 (.inl (Bool.eq_false_iff.2 fun hbefore => ?_))
      exact Bool.eq_false_iff.1 (not_tick_twice hbefore) htick
    have hnext : waits s₀ inp (u + 1) =
        waits s₀ inp u ++ if (state s₀ inp u).wrReq then [(inp u).cddaData] else [] := by
      show waitNext _ _ _ = _
      unfold waitNext
      rw [hquiet]
      rfl
    have hthere : waits s₀ inp u ≠ [] := by
      intro hnil
      rw [hnext, hnil] at hne
      cases hland : (state s₀ inp u).wrReq with
      | false =>
        rw [hland] at hne
        exact hne rfl
      | true => exact hsettled u htick hland (hlevel.readAddr_eq_iff.2 hnil)
    rw [hnext, List.head?_append, (window_tail hlevel.contents hthere).1]
    rfl

/-- The frame in flight. -/
def flight (s : Cdda) (i : CddaIn) : List (BitVec 32) := if s.wrReq then [i.cddaData] else []

/-- What has been sent has been played, or waits, or is in flight. -/
theorem sent_split (hup : PowerUp s₀) {starts : Nat → Bool} (hhost : HostSends s₀ inp starts)
    (htime : InTime s₀ inp starts) (hsettled : Settled s₀ inp) (t : Nat) :
    sent s₀ inp t = played s₀ inp t ++ (waits s₀ inp t ++ flight (state s₀ inp t) (inp t)) := by
  induction t with
  | zero =>
    have hnone : (state s₀ inp 0).wrReq = false := hup.wrReq
    unfold flight
    rw [hnone]
    rfl
  | succ t ih =>
    have hflight : flight (state s₀ inp (t + 1)) (inp (t + 1)) = if sends s₀ inp t then [(inp t).cddaData] else [] := by
      unfold flight
      show (if (state s₀ inp t).takes (inp t) then _ else _) = _
      cases hsend : sends s₀ inp t with
      | true => rw [takes_of_sends hup hhost htime t hsend, if_pos rfl, hhost.held t hsend, if_pos rfl]
      | false =>
        unfold takes
        rw [show (state s₀ inp t).strobed (inp t) = false from hsend]
        rfl
    have hplayed : played s₀ inp (t + 1) ++ (if (state s₀ inp t).plays then (waits s₀ inp t).tail else waits s₀ inp t) =
        played s₀ inp t ++ waits s₀ inp t := by
      unfold played
      rw [journal_succ, List.append_assoc]
      cases hplays : (state s₀ inp t).plays with
      | false => rfl
      | true =>
        obtain ⟨htick, hne⟩ := (level_run hup inp t).plays_iff.1 hplays
        have hword : (state s₀ inp (t + 1)).audioR ++ (state s₀ inp (t + 1)).audioL = (state s₀ inp t).bufferQ :=
          audio_played hplays
        obtain ⟨x, v, hv⟩ := List.exists_cons_of_ne_nil hne
        have hhead := bufferQ_head hup hsettled hplays
        rw [hv] at hhead ⊢
        rw [if_pos rfl, if_pos rfl, hword, ← Option.some.inj hhead]
        rfl
    have hwaits : waits s₀ inp (t + 1) =
        (if (state s₀ inp t).plays then (waits s₀ inp t).tail else waits s₀ inp t) ++
          flight (state s₀ inp t) (inp t) := rfl
    have hsent : sent s₀ inp (t + 1) = sent s₀ inp t ++ if sends s₀ inp t then [(inp t).cddaData] else [] :=
      journal_succ _ t
    rw [hsent, ih, hflight, hwaits]
    simp only [← List.append_assoc, hplayed]

end Runs

/-- From power-up, where the frames come as the request allows, no sector outruns the ticks at the highest level and no
tick comes upon a frame that has just landed in the empty buffer: the buffer plays what it is sent. -/
theorem streams (s₀ : Cdda) (inp : Nat → CddaIn) (starts : Nat → Bool) (hup : PowerUp s₀)
    (hhost : HostSends s₀ inp starts) (htime : InTime s₀ inp starts) (hsettled : Settled s₀ inp) :
    Streams s₀ inp := by
  have hsplit := sent_split hup hhost htime hsettled
  have hlength : ∀ t, (sent s₀ inp t).length =
      (played s₀ inp t).length + ((waits s₀ inp t).length + (state s₀ inp t).wrReq.toNat) := by
    intro t
    rw [hsplit t, List.length_append, List.length_append]
    unfold flight
    cases (state s₀ inp t).wrReq <;> rfl
  refine ⟨fun e hsend => takes_of_sends hup hhost htime e hsend, fun t => ?_, fun t hwr hrd => ?_,
    fun t htick hmore => ?_, fun t htick hnone => ?_⟩
  · rw [hsplit t]
    exact List.prefix_append _ _
  · have hlevel := level_run hup inp t
    have hfew := hlevel.length
    rw [hlength, hlevel.filled, hwr, hrd, BitVec.toNat_ofNat, Bool.toNat_false, Nat.add_zero,
      Nat.mod_eq_of_lt (by omega)]
  · have hne : waits s₀ inp t ≠ [] := by
      intro hnil
      have := hlength t
      rw [hnil, List.length_nil] at this
      omega
    have hplays := (level_run hup inp t).plays_iff.2 ⟨htick, hne⟩
    unfold played
    rw [journal_succ, hplays, List.length_append]
    rfl
  · have hnil : waits s₀ inp t = [] := by
      have := hlength t
      exact List.length_eq_zero_iff.1 (by omega)
    exact audio_silent htick ((level_run hup inp t).readAddr_eq_iff.2 hnil)

/-! ## Some frames -/

/-- The registers at power-up, with an empty memory. -/
def dark : Cdda := ⟨false, 0, 0, 0, 0, 0, false, false, false, false, false, false, fun _ => 0, 0⟩

theorem dark_powerUp : PowerUp dark := ⟨rfl, rfl, rfl, rfl, rfl, rfl, rfl⟩

/-- Three frames, sent in clocks 4, 6 and 8, and a 44.1 kHz clock that falls in every twentieth clock. -/
def framesIn (t : Nat) : CddaIn :=
  ⟨t == 4 || t == 6 || t == 8, if t < 6 then 0xDEADBEEF else if t < 8 then 0x12345678 else 0x0BADCAFE,
    decide (t % 20 < 10)⟩

theorem sends_frames {e : Nat} (h : sends dark framesIn e = true) : e = 4 ∨ e = 6 ∨ e = 8 := by
  have hwr : (e == 4 || e == 6 || e == 8) = true := (Bool.and_eq_true_iff.1 h).2
  simpa [or_assoc] using hwr

theorem hostSends_frames : HostSends dark framesIn (fun h => decide (h = 2)) where
  request h hstart := of_decide_eq_true hstart ▸ (by decide : (state dark framesIn 2).cddaReq = true)
  sector e hsend := by
    refine ⟨2, ⟨rfl, ?_, fun u hlo _ => decide_eq_false (by omega)⟩, ?_⟩
    · rcases sends_frames hsend with rfl | rfl | rfl <;> decide
    · rcases sends_frames hsend with rfl | rfl | rfl <;> decide
  held e hsend := by rcases sends_frames hsend with rfl | rfl | rfl <;> rfl

/-- They are played in order, with the ticks in clocks 12, 32 and 52. -/
theorem streams_frames : Streams dark framesIn ∧ played dark framesIn 60 = [0xDEADBEEF, 0x12345678, 0x0BADCAFE] := by
  refine ⟨streams dark framesIn (fun h => decide (h = 2)) dark_powerUp hostSends_frames ?_ ?_, by decide +kernel⟩
  · intro h e hsector _ hhigh
    have hstart : h = 2 := of_decide_eq_true hsector.start
    rw [hstart] at hhigh
    exact absurd hhigh (by decide)
  · intro t htick hland
    cases t with
    | zero => exact absurd hland (by decide)
    | succ t =>
      have hsend : sends dark framesIn t = true := (Bool.and_eq_true_iff.1 hland).1
      rcases sends_frames hsend with rfl | rfl | rfl <;> exact absurd htick (by decide)

/-- A frame that is sent in clock 4, and a 44.1 kHz clock that falls in clock `fall`. -/
def frameIn (fall t : Nat) : CddaIn := ⟨decide (t = 4), 0xDEADBEEF, decide (t < fall)⟩

variable {fall : Nat}

theorem sends_frame {e : Nat} (h : sends dark (frameIn fall) e = true) : e = 4 :=
  of_decide_eq_true (Bool.and_eq_true_iff.1 h).2

theorem hostSends_frame (hreq : (state dark (frameIn fall) 2).cddaReq = true)
    (hcount : pulses (sends dark (frameIn fall)) 2 4 < sectorSize) :
    HostSends dark (frameIn fall) (fun h => decide (h = 2)) where
  request h hstart := of_decide_eq_true hstart ▸ hreq
  sector e hsend := by
    obtain rfl := sends_frame hsend
    exact ⟨2, ⟨rfl, by decide, fun u hlo _ => decide_eq_false (by omega)⟩, hcount⟩
  held _ _ := rfl

/-- With the tick in clock 6 the frame has landed, and what is played is the word that the memory held before. -/
theorem stale_not_streams : PowerUp dark ∧ HostSends dark (frameIn 4) (fun h => decide (h = 2)) ∧
    ¬Streams dark (frameIn 4) := by
  refine ⟨dark_powerUp, hostSends_frame (by decide) (by decide), fun h => ?_⟩
  exact absurd (h.order 7) (by decide)

end Cdda

end Z486.Sound
