/-
The transmitter of a serial line (src/common/uart_tx_V2.v). The bit clock runs on its own: a byte is taken in the clock
of its strobe, and waits for the next tick of the bit clock with its start bit.
-/
import Mathlib.Data.Nat.Log
import Z486.Clocked.Bits
import Z486.Clocked.Run
import Z486.Clocked.SerialLine
import Z486.Clocked.TimeShare

namespace Z486.Common

open Clocked

inductive UartState
  | idle
  | start
  | data
  | stop
  deriving DecidableEq, Repr

structure UartTxIn where
  din : BitVec 8
  wrEn : Bool

/-- The registers; a bit period takes `txClkMax + 1` clocks. -/
structure UartTx (txClkMax : Nat) where
  data : BitVec 8
  bitpos : BitVec 3
  state : UartState
  txClkcnt : BitVec (Nat.clog 2 (txClkMax + 1) + 2)
  txP : Bool

namespace UartTx

variable {txClkMax : Nat} (s : UartTx txClkMax) (i : UartTxIn)

def txClk : Bool := s.txClkcnt == 0

def txBusy : Bool := s.state != .idle

def stateNext : UartState :=
  match s.state with
  | .idle => if i.wrEn then .start else .idle
  | .start => if s.txClk then .data else .start
  | .data => if s.txClk && s.bitpos == 7 then .stop else .data
  | .stop => if s.txClk then .idle else .stop

def bitposNext : BitVec 3 :=
  match s.state with
  | .idle => if i.wrEn then 0 else s.bitpos
  | .data => if s.txClk && s.bitpos != 7 then s.bitpos + 1 else s.bitpos
  | _ => s.bitpos

def txPNext : Bool :=
  match s.state with
  | .idle => s.txP
  | .start => if s.txClk then false else s.txP
  | .data => if s.txClk then s.data.getLsbD s.bitpos.toNat else s.txP
  | .stop => if s.txClk then true else s.txP

def step : UartTx txClkMax where
  data := if s.state == .idle && i.wrEn then i.din else s.data
  bitpos := s.bitposNext i
  state := s.stateNext i
  txClkcnt := if txClkMax ≤ s.txClkcnt.toNat then 0 else s.txClkcnt + 1
  txP := s.txPNext

/-! ## A bit period -/

/-- Between two frames. -/
structure Rests (s : UartTx txClkMax) : Prop where
  state : s.state = .idle ∨ s.state = .start ∧ s.bitpos = 0
  txP : s.txP = true

/-- The frame of a byte starts with the tick that it waits for. -/
def begins : Bool := s.state == .start && s.txClk

/-- Period `k` of the frame of `b`, but for the stop bit. -/
structure Sends (s : UartTx txClkMax) (b : BitVec 8) (k : Nat) : Prop where
  state : s.state = if k < 8 then .data else .stop
  data : s.data = b
  bitpos : k < 8 → s.bitpos = BitVec.ofNat 3 k
  txP : s.txP = frameBit b k

variable {s i} {b : BitVec 8} {k : Nat}

theorem Rests.step (h : s.Rests) (hbegins : s.begins = false) : (s.step i).Rests := by
  obtain ⟨hstate | ⟨hstate, hbitpos⟩, hline⟩ := h
  · refine ⟨?_, ?_⟩
    · show s.stateNext i = _ ∨ s.stateNext i = _ ∧ s.bitposNext i = _
      rw [stateNext, bitposNext, hstate]
      cases i.wrEn with
      | false => exact .inl rfl
      | true => exact .inr ⟨rfl, rfl⟩
    · show s.txPNext = true
      rw [txPNext, hstate]
      exact hline
  · have htick : s.txClk = false := by rwa [begins, hstate] at hbegins
    refine ⟨.inr ⟨?_, ?_⟩, ?_⟩
    · show s.stateNext i = _
      rw [stateNext, hstate, htick]
      rfl
    · show s.bitposNext i = _
      rw [bitposNext, hstate]
      exact hbitpos
    · show s.txPNext = true
      rw [txPNext, hstate, htick]
      exact hline

theorem Rests.sends_start (h : s.Rests) (hbegins : s.begins = true) : (s.step i).Sends s.data 0 := by
  obtain ⟨hstate, htick⟩ := Bool.and_eq_true_iff.1 hbegins
  rw [beq_iff_eq] at hstate
  have hbitpos : s.bitpos = 0 := by
    rcases h.state with hidle | hstart
    · exact absurd (hidle.symm.trans hstate) nofun
    · exact hstart.2
  refine ⟨?_, ?_, fun _ => ?_, ?_⟩
  · show s.stateNext i = _
    rw [stateNext, hstate, htick]
    rfl
  · show (if s.state == .idle && i.wrEn then i.din else s.data) = _
    rw [hstate]
    rfl
  · show s.bitposNext i = _
    rw [bitposNext, hstate]
    exact hbitpos
  · show s.txPNext = _
    rw [txPNext, hstate, htick]
    rfl

theorem Sends.busy (h : s.Sends b k) : s.state = .data ∨ s.state = .stop := by
  rw [h.state]
  rcases Nat.lt_or_ge k 8 with hlt | hge
  · exact .inl (if_pos hlt)
  · exact .inr (if_neg (Nat.not_lt.2 hge))

/-- A byte that is being sent is not replaced. -/
theorem Sends.data_step (h : s.Sends b k) : (s.step i).data = b := by
  show (if s.state == .idle && i.wrEn then i.din else s.data) = b
  rcases h.busy with hstate | hstate
  · rw [hstate]
    exact h.data
  · rw [hstate]
    exact h.data

/-- Within a bit period nothing changes. -/
theorem Sends.hold (h : s.Sends b k) (htick : s.txClk = false) : (s.step i).Sends b k := by
  have hsame : s.stateNext i = s.state ∧ s.bitposNext i = s.bitpos ∧ s.txPNext = s.txP := by
    unfold stateNext bitposNext txPNext
    rcases h.busy with hstate | hstate
    · rw [hstate, htick]
      exact ⟨rfl, rfl, rfl⟩
    · rw [hstate, htick]
      exact ⟨rfl, rfl, rfl⟩
  obtain ⟨hstate, hbitpos, htxP⟩ := hsame
  exact ⟨hstate.trans h.state, h.data_step, fun hk => hbitpos.trans (h.bitpos hk), htxP.trans h.txP⟩

/-- With the tick the next bit goes onto the line. -/
theorem Sends.next (h : s.Sends b k) (hk : k < 8) (htick : s.txClk = true) : (s.step i).Sends b (k + 1) := by
  have hstate : s.state = .data := by rw [h.state, if_pos hk]
  have hbitpos := h.bitpos hk
  have hvalue : s.bitpos.toNat = k := by
    rw [hbitpos, BitVec.toNat_ofNat]
    exact Nat.mod_eq_of_lt hk
  have hlast : (s.bitpos == 7) = decide (k = 7) := by
    rw [hbitpos]
    exact (by decide : ∀ k : Fin 8, (BitVec.ofNat 3 k == 7) = decide (k.val = 7)) ⟨k, hk⟩
  refine ⟨?_, h.data_step, fun hk' => ?_, ?_⟩
  · show s.stateNext i = _
    rw [stateNext, hstate, htick, hlast]
    by_cases h7 : k = 7
    · rw [h7]
      rfl
    · rw [decide_eq_false h7]
      exact (if_pos (show k + 1 < 8 by omega)).symm
  · show s.bitposNext i = _
    rw [bitposNext, hstate, htick, bne, hlast, decide_eq_false (by omega), hbitpos, ofNat_succ]
    rfl
  · show s.txPNext = _
    rw [txPNext, hstate, htick, hvalue, h.data, frameBit_data b hk]
    rfl

/-- With the tick after the last bit the line goes high, and the transmitter is free. -/
theorem rests_of_stop (hstate : s.state = .stop) (htick : s.txClk = true) : (s.step i).Rests := by
  refine ⟨.inl ?_, ?_⟩
  · show s.stateNext i = _
    rw [stateNext, hstate, htick]
    rfl
  · show s.txPNext = _
    rw [txPNext, hstate, htick]
    rfl

/-- The transmitter comes to rest with the line high. -/
theorem rests_step (h : s.state = .idle ∨ s.state = .start → s.Rests)
    (hnext : (s.step i).state = .idle ∨ (s.step i).state = .start) : (s.step i).Rests := by
  change s.stateNext i = _ ∨ s.stateNext i = _ at hnext
  cases hstate : s.state with
  | idle => exact (h (.inl hstate)).step (by rw [begins, hstate]; rfl)
  | start =>
    cases htick : s.txClk with
    | false => exact (h (.inr hstate)).step (by rw [begins, htick, Bool.and_false])
    | true =>
      rw [stateNext, hstate, htick] at hnext
      exact absurd hnext nofun
  | data =>
    rw [stateNext, hstate] at hnext
    cases hlast : s.txClk && s.bitpos == 7 with
    | false => rw [hlast] at hnext; exact absurd hnext nofun
    | true => rw [hlast] at hnext; exact absurd hnext nofun
  | stop =>
    cases htick : s.txClk with
    | false => rw [stateNext, hstate, htick] at hnext; exact absurd hnext nofun
    | true => exact rests_of_stop hstate htick

/-! ## Runs -/

/-- The transmitter is free, the line is high, and the bit clock stands anywhere in its period. -/
structure Ready (s : UartTx txClkMax) : Prop where
  state : s.state = .idle
  txP : s.txP = true
  phase : s.txClkcnt.toNat ≤ txClkMax

section Runs

variable (s₀ : UartTx txClkMax) (inp : Nat → UartTxIn)

/-- The registers in clock `t`. -/
def regs (t : Nat) : UartTx txClkMax := run step s₀ inp t

def line (t : Nat) : Bool := (regs s₀ inp t).txP

/-- The bytes whose frames start in a clock. -/
def starts : Nat → Option (BitVec 8)
  | 0 => none
  | t + 1 => if (regs s₀ inp t).begins then some (regs s₀ inp t).data else none

/-- A byte that has been taken, and whose frame has not started. -/
def pending (s : UartTx txClkMax) : List (BitVec 8) := if s.state == .start then [s.data] else []

variable {s₀ inp}

/-! ### The bit clock -/

theorem txClkcnt_step (hle : s.txClkcnt.toNat < txClkMax + 1) :
    (s.step i).txClkcnt.toNat = nextTurn (txClkMax + 1) s.txClkcnt.toNat := by
  have hwidth : txClkMax + 1 < 2 ^ (Nat.clog 2 (txClkMax + 1) + 2) :=
    Nat.lt_of_le_of_lt (Nat.le_pow_clog (by decide) _) (Nat.pow_lt_pow_right (by decide) (by omega))
  show (if txClkMax ≤ s.txClkcnt.toNat then 0 else s.txClkcnt + 1).toNat = _
  unfold nextTurn
  by_cases hlast : txClkMax ≤ s.txClkcnt.toNat
  · rw [if_pos hlast, if_pos (by omega)]
    exact BitVec.toNat_zero
  · rw [if_neg hlast, if_neg (by omega)]
    exact toNat_succ (by omega)

theorem txClkcnt_lt (h : s₀.Ready) (t : Nat) : (regs s₀ inp t).txClkcnt.toNat < txClkMax + 1 := by
  refine run_invariant (I := fun s : UartTx txClkMax => s.txClkcnt.toNat < txClkMax + 1)
    (Nat.lt_succ_of_le h.phase) (fun t ih => ?_) t
  show (step _ _).txClkcnt.toNat < _
  rw [txClkcnt_step ih, nextTurn_eq_mod ih]
  exact Nat.mod_lt _ (Nat.succ_pos _)

theorem txClk_eq (s : UartTx txClkMax) : s.txClk = decide (s.txClkcnt.toNat = 0) := by
  rw [txClk, beq_eq_decide]
  exact decide_eq_decide.2 BitVec.toNat_eq

theorem txClkcnt_add (h : s₀.Ready) (a j : Nat) :
    (regs s₀ inp (a + j)).txClkcnt.toNat = ((regs s₀ inp a).txClkcnt.toNat + j) % (txClkMax + 1) :=
  @turn_add (txClkMax + 1) (fun t => (regs s₀ inp t).txClkcnt.toNat)
    (fun t => txClkcnt_step (txClkcnt_lt h t)) (Nat.lt_succ_of_le h.phase) a j

/-- The ticks are a bit period apart. -/
theorem txClk_add (h : s₀.Ready) {a : Nat} (ha : (regs s₀ inp a).txClk = true) (j : Nat) :
    (regs s₀ inp (a + j)).txClk = decide (j % (txClkMax + 1) = 0) := by
  rw [txClk_eq, decide_eq_true_iff] at ha
  rw [txClk_eq, txClkcnt_add h, ha, Nat.zero_add]

/-! ### Frames -/

theorem rests_of_state (h : s₀.Ready) (t : Nat) :
    (regs s₀ inp t).state = .idle ∨ (regs s₀ inp t).state = .start → (regs s₀ inp t).Rests :=
  run_invariant (I := fun s : UartTx txClkMax => s.state = .idle ∨ s.state = .start → s.Rests)
    (fun _ => ⟨.inl h.state, h.txP⟩) (fun _ ih hnext => rests_step ih hnext) t

section Frame

variable (h : s₀.Ready) {a n : Nat} (ha : (regs s₀ inp a).begins = true)
include h ha

/-- The clocks of a frame that are ticks. -/
theorem txClk_frame : (regs s₀ inp (a + 1 + n)).txClk = decide ((n + 1) % (txClkMax + 1) = 0) := by
  rw [Nat.add_assoc, Nat.add_comm 1]
  exact txClk_add h (Bool.and_eq_true_iff.1 ha).2 (n + 1)

/-- The start bit and the data bits. -/
theorem sends_frame (hn : n < 9 * (txClkMax + 1)) :
    (regs s₀ inp (a + 1 + n)).Sends (regs s₀ inp a).data (n / (txClkMax + 1)) := by
  induction n with
  | zero =>
    rw [Nat.zero_div]
    exact (rests_of_state h a (.inr (beq_iff_eq.1 (Bool.and_eq_true_iff.1 ha).1))).sends_start ha
  | succ n ih =>
    have hbefore := ih (by omega)
    have htick := txClk_frame h ha (n := n)
    rw [← Nat.add_assoc]
    show ((regs s₀ inp (a + 1 + n)).step _).Sends _ _
    by_cases hdvd : txClkMax + 1 ∣ n + 1
    · rw [Nat.mod_eq_zero_of_dvd hdvd] at htick
      have hlt : (n + 1) / (txClkMax + 1) < 9 := Nat.div_lt_of_lt_mul (by omega)
      rw [Nat.succ_div_of_dvd hdvd] at hlt ⊢
      exact hbefore.next (by omega) htick
    · rw [Nat.succ_div_of_not_dvd hdvd]
      exact hbefore.hold (by rw [htick, decide_eq_false fun hzero => hdvd (Nat.dvd_of_mod_eq_zero hzero)])

/-- Within the stop bit there is no tick. -/
theorem no_tick_stop (hlow : 9 * (txClkMax + 1) ≤ n) (hhigh : n + 1 < 10 * (txClkMax + 1)) :
    (regs s₀ inp (a + 1 + n)).txClk = false := by
  rw [txClk_frame h ha]
  refine decide_eq_false fun hzero => ?_
  obtain ⟨c, hc⟩ := Nat.dvd_of_mod_eq_zero hzero
  have h9 : 9 < c := Nat.lt_of_mul_lt_mul_left (a := txClkMax + 1) (by omega)
  have h10 : c < 10 := Nat.lt_of_mul_lt_mul_left (a := txClkMax + 1) (by omega)
  omega

/-- The stop bit. -/
theorem rests_frame (hlow : 9 * (txClkMax + 1) ≤ n) (hhigh : n < 10 * (txClkMax + 1)) :
    (regs s₀ inp (a + 1 + n)).Rests := by
  induction n, hlow using Nat.le_induction with
  | base =>
    obtain ⟨m, hm⟩ : ∃ m, 9 * (txClkMax + 1) = m + 1 := ⟨9 * txClkMax + 8, by omega⟩
    have htick := txClk_frame h ha (n := m)
    rw [← hm, Nat.mul_mod_left] at htick
    have hlast := sends_frame h ha (n := m) (by omega)
    have hperiod : m / (txClkMax + 1) = 8 := Nat.div_eq_of_lt_le (by omega) (by omega)
    rw [hperiod] at hlast
    rw [hm]
    exact rests_of_stop hlast.state htick
  | succ n hlow ih =>
    refine (ih (by omega)).step ?_
    show (_ && UartTx.txClk (regs s₀ inp (a + 1 + n))) = false
    rw [no_tick_stop h ha hlow hhigh, Bool.and_false]

theorem frame_line : Frame (line s₀ inp) (txClkMax + 1) (a + 1) (regs s₀ inp a).data := by
  intro k r hk hr
  have hdiv : (k * (txClkMax + 1) + r) / (txClkMax + 1) = k := by
    rw [Nat.mul_comm, Nat.mul_add_div (Nat.succ_pos _), Nat.div_eq_of_lt hr, Nat.add_zero]
  rw [Nat.add_assoc]
  rcases Nat.lt_or_ge k 9 with hlt | hge
  · have hle : (k + 1) * (txClkMax + 1) ≤ 9 * (txClkMax + 1) := Nat.mul_le_mul_right _ hlt
    rw [Nat.succ_mul] at hle
    have hsends := sends_frame h ha (n := k * (txClkMax + 1) + r) (by omega)
    rw [hdiv] at hsends
    exact hsends.txP
  · obtain rfl : k = 9 := by omega
    exact (rests_frame h ha (by omega) (by omega)).txP

/-- No other frame starts in a frame. -/
theorem begins_apart {c : Nat} (hc : (regs s₀ inp c).begins = true) (hac : a < c) : a + 10 * (txClkMax + 1) ≤ c := by
  by_contra hlt
  obtain ⟨n, rfl⟩ := Nat.exists_eq_add_of_lt hac
  rw [Nat.add_right_comm] at hc hlt
  obtain ⟨hstate, htick⟩ := Bool.and_eq_true_iff.1 hc
  rw [beq_iff_eq] at hstate
  rcases Nat.lt_or_ge n (9 * (txClkMax + 1)) with hsends | hstop
  · rcases (sends_frame h ha hsends).busy with hbusy | hbusy
    · exact absurd (hbusy.symm.trans hstate) nofun
    · exact absurd (hbusy.symm.trans hstate) nofun
  · rw [no_tick_stop h ha hstop (by omega)] at htick
    exact absurd htick nofun

end Frame

/-- In every clock the line rests, or a frame is being sent. -/
theorem rests_or_sends (h : s₀.Ready) (t : Nat) :
    (regs s₀ inp t).Rests ∨ ∃ a n, (regs s₀ inp a).begins = true ∧ n < 9 * (txClkMax + 1) ∧ t = a + 1 + n := by
  induction t with
  | zero => exact .inl ⟨.inl h.state, h.txP⟩
  | succ t ih =>
    rcases ih with hrests | ⟨a, n, ha, hn, rfl⟩
    · cases hbegins : (regs s₀ inp t).begins with
      | false => exact .inl (hrests.step hbegins)
      | true => exact .inr ⟨t, 0, hbegins, by omega, rfl⟩
    · rcases Nat.lt_or_eq_of_le (Nat.succ_le_of_lt hn) with hlt | heq
      · exact .inr ⟨a, n + 1, ha, hlt, rfl⟩
      · exact .inl (rests_frame h ha (n := n + 1) (by omega) (by omega))

theorem starts_succ (t : Nat) : (starts s₀ inp (t + 1)).isSome = (regs s₀ inp t).begins := by
  show (if _ then _ else _ : Option (BitVec 8)).isSome = _
  cases (regs s₀ inp t).begins <;> rfl

/-- The line has a frame for each byte that begins, and is high between them. -/
theorem serial (h : s₀.Ready) : Serial (line s₀ inp) (txClkMax + 1) (starts s₀ inp) where
  frame := by
    rintro (_ | a) b hb
    · exact absurd hb nofun
    · have hbegins : (regs s₀ inp a).begins = true := by rw [← starts_succ, hb]; rfl
      have hdata : starts s₀ inp (a + 1) = some (regs s₀ inp a).data := if_pos hbegins
      rw [hdata] at hb
      rw [← Option.some.inj hb]
      exact frame_line h hbegins
  apart := by
    rintro (_ | a) (_ | c) ha hc hlt
    · exact absurd ha nofun
    · exact absurd ha nofun
    · exact absurd hc nofun
    · rw [starts_succ] at ha hc
      have := begins_apart h ha hc (by omega)
      omega
  quiet := by
    intro u hlow
    rcases rests_or_sends h u with hrests | ⟨a, n, ha, hn, rfl⟩
    · exact absurd (hrests.txP.symm.trans hlow) nofun
    · exact ⟨a + 1, by rw [starts_succ, ha], by omega, by omega⟩

/-! ### Bytes -/

theorem state_of_write (hstate : s.state = .idle) (hwr : i.wrEn = true) : (s.step i).state = .start := by
  show s.stateNext i = _
  rw [stateNext, hstate, hwr]
  rfl

theorem state_start (hstate : s.state = .start) (htick : s.txClk = false) : (s.step i).state = .start := by
  show s.stateNext i = _
  rw [stateNext, hstate, htick]
  rfl

theorem pending_of_start (hstate : s.state = .start) : s.pending = [s.data] := by
  rw [pending, hstate]
  rfl

theorem pending_of_ne (hstate : s.state ≠ .start) : s.pending = [] := by
  rw [pending, beq_false_of_ne hstate]
  rfl

theorem length_pending_le (s : UartTx txClkMax) : s.pending.length ≤ 1 := by
  unfold pending
  split
  · exact le_rfl
  · exact Nat.zero_le 1

/-- A byte that is written when the transmitter is free waits for its frame, and leaves with the tick that begins it. -/
theorem pending_step (hidle : i.wrEn = true → s.state = .idle) :
    s.pending ++ (if i.wrEn then [i.din] else []) = (if s.begins then [s.data] else []) ++ (s.step i).pending := by
  have hstep : (s.step i).state = s.stateNext i := rfl
  cases hwr : i.wrEn with
  | true =>
    have hstate := hidle hwr
    have hbegins : s.begins = false := by rw [begins, hstate]; rfl
    have hdata : (s.step i).data = i.din := by
      show (if s.state == .idle && i.wrEn then i.din else s.data) = _
      rw [hstate, hwr]
      rfl
    rw [pending_of_ne (by rw [hstate]; exact nofun), pending_of_start (state_of_write hstate hwr), hdata, hbegins]
    rfl
  | false =>
    have hdata : (s.step i).data = s.data := by
      show (if s.state == .idle && i.wrEn then i.din else s.data) = _
      rw [hwr, Bool.and_false]
      rfl
    by_cases hstate : s.state = .start
    · rw [pending_of_start hstate, begins, hstate]
      cases htick : s.txClk with
      | true =>
        have hsends : (s.step i).state = .data := by rw [hstep, stateNext, hstate, htick]; rfl
        rw [pending_of_ne (by rw [hsends]; exact nofun)]
        rfl
      | false =>
        rw [pending_of_start (state_start hstate htick), hdata]
        rfl
    · have hstays : (s.step i).state ≠ .start := by
        rw [hstep, stateNext, hwr]
        cases hs : s.state with
        | idle => exact nofun
        | start => exact absurd hs hstate
        | data =>
          show (if _ then _ else _ : UartState) ≠ _
          split <;> exact nofun
        | stop =>
          show (if _ then _ else _ : UartState) ≠ _
          split <;> exact nofun
      rw [pending_of_ne hstate, pending_of_ne hstays, begins, beq_false_of_ne hstate]
      rfl

/-- The bytes that are written when the transmitter is free begin their frames in order. -/
theorem journal_begun (h : s₀.Ready) (hidle : ∀ t, (inp t).wrEn = true → (regs s₀ inp t).state = .idle) (t : Nat) :
    journal (fun u => if (inp u).wrEn then [(inp u).din] else []) t =
      begun (starts s₀ inp) (t + 1) ++ (regs s₀ inp t).pending := by
  induction t with
  | zero =>
    have hpending : s₀.pending = [] := pending_of_ne (by rw [h.state]; exact nofun)
    exact hpending.symm
  | succ t ih =>
    have hbegun : begun (starts s₀ inp) (t + 2) =
        begun (starts s₀ inp) (t + 1) ++ if (regs s₀ inp t).begins then [(regs s₀ inp t).data] else [] := by
      rw [begun, journal_succ]
      show _ ++ (if _ then _ else _ : Option (BitVec 8)).toList = _
      cases (regs s₀ inp t).begins <;> rfl
    rw [journal_succ, ih, hbegun, List.append_assoc, List.append_assoc, pending_step (hidle t)]
    rfl

/-- A byte that waits for its frame is sent. -/
theorem exists_begins (h : s₀.Ready) {t : Nat} (hstart : (regs s₀ inp t).state = .start) :
    ∃ u, t ≤ u ∧ (regs s₀ inp u).begins = true := by
  -- the first tick
  have htick : ∃ u, t ≤ u ∧ (regs s₀ inp u).txClk = true := by
    have hlt : (regs s₀ inp t).txClkcnt.toNat < txClkMax + 1 := txClkcnt_lt h t
    refine ⟨t + (txClkMax + 1 - (regs s₀ inp t).txClkcnt.toNat), by omega, ?_⟩
    rw [txClk_eq, txClkcnt_add h, Nat.add_sub_cancel' hlt.le, Nat.mod_self]
    rfl
  obtain ⟨u, htu, hu, hbefore⟩ := exists_first htick
  have hstays : ∀ v, t ≤ v → v ≤ u → (regs s₀ inp v).state = .start := by
    intro v htv
    induction v, htv using Nat.le_induction with
    | base => exact fun _ => hstart
    | succ v htv ih =>
      exact fun hvu => state_start (ih (by omega)) (Bool.eq_false_iff.2 (hbefore v htv (by omega)))
  exact ⟨u, htu, Bool.and_eq_true_iff.2 ⟨beq_iff_eq.2 (hstays u htu le_rfl), hu⟩⟩

/-- The transmitter becomes free again. -/
theorem exists_rests (h : s₀.Ready) (t : Nat) : ∃ u, t ≤ u ∧ (regs s₀ inp u).Rests := by
  rcases rests_or_sends h t with hrests | ⟨a, n, ha, hn, rfl⟩
  · exact ⟨t, le_rfl, hrests⟩
  · exact ⟨a + 1 + 9 * (txClkMax + 1), by omega, rests_frame h ha (by omega) (by omega)⟩

end Runs

end UartTx

end Z486.Common
