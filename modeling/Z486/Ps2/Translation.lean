/-
The bytes of the keyboard on their way into its queue. A frame is received bit by bit; its byte is translated from scan
code set 2 to set 1, and the byte F0h, which announces the release of a key, becomes bit 7 of the code after it. The
replies of the controller go into the same queue.
-/
import Z486.Ps2.Frames

namespace Z486.Ps2

open Clocked (journal journal_succ)
open Common (SimpleFifo)

/-! ## The translation of a stream -/

/-- The code of scan code set 1 for a byte of set 2. -/
def setOne (b : BitVec 8) : BitVec 8 := (transTable[b.toNat]?).getD b

/-- What a byte becomes, directly after F0h or not. -/
def entry (released : Bool) (b : BitVec 8) : List (BitVec 8) :=
  if b = 0xF0 then [] else [if released then 0x80 ||| setOne b else setOne b]

/-- What a stream of bytes becomes; `released` when F0h comes directly before it. -/
def translated : Bool → List (BitVec 8) → List (BitVec 8)
  | _, [] => []
  | released, b :: bs => entry released b ++ translated (b == 0xF0) bs

/-- F0h is the last byte of a stream. -/
def endsReleased (bs : List (BitVec 8)) : Bool := bs.getLast? == some 0xF0

theorem translated_concat (released : Bool) (bs : List (BitVec 8)) (b : BitVec 8) : translated released (bs ++ [b]) =
    translated released bs ++ entry (if bs = [] then released else endsReleased bs) b := by
  induction bs generalizing released with
  | nil => simp [translated]
  | cons c bs ih =>
    rw [List.cons_append, translated, translated, ih, List.append_assoc, if_neg (List.cons_ne_nil c bs)]
    congr 2
    cases bs with
    | nil => simp [endsReleased]
    | cons c' bs => simp [endsReleased, List.getLast?_cons_cons]

/-- The byte whose bits come on the line from the lowest on. -/
def byteOf (bits : List Bool) : BitVec 8 := (BitVec.ofBoolListLE bits).setWidth 8

theorem getLsbD_byteOf (bits : List Bool) {k : Nat} (hk : k < 8) : (byteOf bits).getLsbD k = bits.getD k false := by
  rw [byteOf, BitVec.getLsbD_setWidth, BitVec.getLsbD_ofBoolListLE, decide_eq_true hk, Bool.true_and]

/-! ## What is received and what is queued -/

namespace Ps2Run

variable (r : Ps2Run)

/-- The bits of the frame that the keyboard is sending, or has sent last: the data line in the clocks in which the
device's clock falls. -/
def lineBits : Nat → List Bool
  | 0 => []
  | t + 1 =>
    if (r.state t).keyb.state = .recvStart then []
    else lineBits t ++ if (r.state t).keyb.recv then [(r.state t).keyb.dat] else []

/-- A frame has been received, and both lines are high again. -/
def finishes (t : Nat) : Bool :=
  (r.state t).keyb.state == .recvWaitForIdle && (r.state t).keyb.clk && (r.state t).keyb.dat

/-- The bytes of the keyboard that have been received before clock `t`. -/
def received (t : Nat) : List (BitVec 8) := journal (fun u => if r.finishes u then [byteOf (r.lineBits u)] else []) t

/-- What has been placed in the queue of the keyboard before clock `t`, but for the replies of the controller. -/
def deviceEntries (t : Nat) : List (BitVec 8) :=
  journal (fun u => if (r.state u).keybReplyDone then [] else r.placed .keyboard u) t

/-- A clock without an error of the keyboard, in which nothing is reset, cleared or untranslated. -/
structure Clean (t : Nat) : Prop where
  running : (r.inputs t).rstN = true
  keeps : Controller.cmdSelfTest (r.inputs t) = false
  translate : (r.state t).translate = true
  parity : (r.state t).keyb.recvParityErr = false
  timeout : (r.state t).keyb.timeoutReset = false

/-- The entries of the keyboard are its bytes, translated; each is written once, and a reply of the controller is written
as it is, in a clock of its own. -/
structure Translates (t : Nat) : Prop where
  device : r.deviceEntries t = translated false (r.received t)
  reply : ∀ u, u < t → (r.state u).keybReplyDone = true → r.placed .keyboard u = [(r.state u).keybReply]
  apart : ∀ u, u < t → r.finishes u = true → (r.state u).keybReplyDone = false

end Ps2Run

/-! ## A frame, bit by bit -/

namespace Port

variable {p : Port} {i : PortIn} {bits : List Bool}

/-- All bits of a frame but the stop bit have been received. -/
def late (p : Port) : Bool := p.state == .recvWaitForStop || p.state == .recvWaitForIdle

/-- The bits that have been received of a frame. -/
structure Receiving (p : Port) (bits : List Bool) : Prop where
  count : p.state = .recvBits → bits.length ≤ 8 ∧ p.bitCounter = BitVec.ofNat 4 bits.length
  sofar : p.state = .recvBits → ∀ k, k < bits.length →
    p.recvBuffer.getLsbD (8 - bits.length + k) = bits.getD k false
  byte : p.late = true → p.recvBuffer = byteOf bits
  right : p.late = true → p.recvResult = true

/-- The bits after a clock. -/
def bitsNext (p : Port) (bits : List Bool) : List Bool :=
  if p.state = .recvStart then [] else bits ++ if p.recv then [p.dat] else []

theorem receiving_of_idle (h : p.state = .idle) : p.Receiving [] := by
  have hlate : p.late = false := by rw [late, h]; rfl
  refine ⟨fun hs => absurd (h.symm.trans hs) nofun, fun _ k hk => absurd hk (Nat.not_lt_zero k), fun hl => ?_, fun hl => ?_⟩
  · exact absurd (hlate.symm.trans hl) nofun
  · exact absurd (hlate.symm.trans hl) nofun

/-- Where the state machine has been a clock before it receives bits. -/
theorem state_of_recvBits (ht : p.timeoutReset = false) (h : p.stateNext i = .recvBits) :
    p.state = .recvStart ∨ p.state = .recvBits ∧ (p.recvOk || p.recvParityErr) = false := by
  rw [stateNext, ht] at h
  revert h
  cases hstate : p.state <;> simp only [Bool.false_eq_true, if_false] <;> (repeat' split) <;> simp_all

theorem state_of_late (ht : p.timeoutReset = false)
    (h : (p.stateNext i == .recvWaitForStop || p.stateNext i == .recvWaitForIdle) = true) :
    p.state = .recvBits ∧ (p.recvOk || p.recvParityErr) = true ∨ p.late = true := by
  unfold late
  rw [stateNext, ht] at h
  revert h
  cases hstate : p.state <;> simp only [Bool.false_eq_true, if_false] <;> (repeat' split) <;> simp_all

/-- A bit that is not the parity. -/
theorem recv_of_bits (hopen : (p.recvOk || p.recvParityErr) = false) (hrecv : p.recv = true) : p.bitCounter ≠ 8 := by
  rintro heq
  rw [recvOk, recvParityErr, hrecv, heq] at hopen
  revert hopen
  cases p.parity <;> cases p.dat <;> decide

/-- A bit is shifted in from above. -/
theorem getLsbD_shifted (d : Bool) (w : BitVec 8) {k : Nat} (hk : k < 8) :
    (BitVec.ofBool d ++ w.extractLsb' 1 7 : BitVec 8).getLsbD k = if k = 7 then d else w.getLsbD (k + 1) := by
  rw [BitVec.getLsbD_append]
  by_cases h7 : k = 7
  · subst h7
    simp
  · rw [if_pos (by omega), if_neg h7, BitVec.getLsbD_extractLsb', decide_eq_true (by omega), Bool.true_and, Nat.add_comm]

/-- What is left of a frame's bits when the next one comes in. -/
theorem Receiving.bit (h : p.Receiving bits) (hs : p.state = .recvBits) (hopen : (p.recvOk || p.recvParityErr) = false)
    (hrecv : p.recv = true) : bits.length < 8 ∧ ∀ k, k < bits.length + 1 →
      (BitVec.ofBool p.dat ++ p.recvBuffer.extractLsb' 1 7 : BitVec 8).getLsbD (8 - (bits.length + 1) + k) =
        (bits ++ [p.dat]).getD k false := by
  obtain ⟨hle, hcount⟩ := h.count hs
  have hsofar := h.sofar hs
  have hlt : bits.length < 8 := by
    refine lt_of_le_of_ne hle fun heq => recv_of_bits hopen hrecv ?_
    rw [hcount, heq]
    rfl
  refine ⟨hlt, fun k hk => ?_⟩
  rw [getLsbD_shifted _ _ (by omega)]
  rcases Nat.lt_succ_iff_lt_or_eq.1 hk with hbefore | rfl
  · rw [if_neg (by omega), List.getD_append _ _ _ _ hbefore, ← hsofar k hbefore]
    congr 1
    omega
  · rw [if_pos (by omega), List.getD_append_right _ _ _ _ le_rfl, Nat.sub_self]
    rfl

/-- The byte of a frame is whole when its parity comes. -/
theorem Receiving.whole (h : p.Receiving bits) (hs : p.state = .recvBits) (hok : p.recvOk = true) :
    p.bitCounter = 8 ∧ p.recvBuffer = byteOf (bits ++ [p.dat]) := by
  obtain ⟨hle, hcount⟩ := h.count hs
  have hsofar := h.sofar hs
  have height : p.bitCounter = 8 := by
    rw [recvOk, Bool.and_eq_true, Bool.and_eq_true, beq_iff_eq] at hok
    exact hok.1.2
  have hlength : bits.length = 8 := by
    have hnat := congrArg BitVec.toNat (hcount.symm.trans height)
    rw [BitVec.toNat_ofNat] at hnat
    change bits.length % 16 = 8 at hnat
    omega
  refine ⟨height, BitVec.eq_of_getLsbD_eq fun k hk => ?_⟩
  rw [getLsbD_byteOf _ hk, List.getD_append _ _ _ _ (by omega), ← hsofar k (by omega)]
  congr 1
  omega

/-- What a clock leaves in the receive registers. -/
theorem recv_step (hrst : i.rstN = true) (ht : p.timeoutReset = false) :
    (p.step i).recvBuffer = (if p.recv && decide (p.bitCounter < 8) then
      BitVec.ofBool p.dat ++ p.recvBuffer.extractLsb' 1 7 else p.recvBuffer) ∧
    (p.step i).recvResult = (if p.state == .recvBits then p.recvOk else p.recvResult) ∧
    (p.state = .recvStart → (p.step i).bitCounter = 0) ∧
    (p.state = .recvBits → (p.step i).bitCounter = if p.recv then p.bitCounter + 1 else p.bitCounter) := by
  refine ⟨?_, ?_, fun hs => ?_, fun hs => ?_⟩
  · simp [Port.step, hrst]
  · simp [Port.step, hrst]
  · simp [Port.step, hrst, ht, hs, writeShift]
  · simp [Port.step, hrst, ht, hs, writeShift]

theorem Receiving.step (h : p.Receiving bits) (hrst : i.rstN = true) (ht : p.timeoutReset = false)
    (hparity : p.recvParityErr = false) : (p.step i).Receiving (p.bitsNext bits) := by
  obtain ⟨hbuffer, hresult, hstart, hcounter⟩ := recv_step hrst ht
  have hstate : (p.step i).state = p.stateNext i := by
    rw [Port.step, hrst]
    rfl
  have hbits : (p.step i).state = .recvBits →
      (p.bitsNext bits).length ≤ 8 ∧ (p.step i).bitCounter = BitVec.ofNat 4 (p.bitsNext bits).length ∧
        ∀ k, k < (p.bitsNext bits).length → (p.step i).recvBuffer.getLsbD (8 - (p.bitsNext bits).length + k) =
          (p.bitsNext bits).getD k false := by
    intro hs
    rw [hstate] at hs
    rcases state_of_recvBits ht hs with hfrom | ⟨hfrom, hopen⟩
    · rw [bitsNext, if_pos hfrom]
      exact ⟨by simp, hstart hfrom, fun k hk => absurd hk (Nat.not_lt_zero k)⟩
    · obtain ⟨hle, hcount⟩ := h.count hfrom
      rw [bitsNext, if_neg (by simp [hfrom]), hcounter hfrom, hbuffer]
      cases hrecv : p.recv with
      | false =>
        rw [if_neg Bool.false_ne_true, List.append_nil]
        exact ⟨hle, hcount, h.sofar hfrom⟩
      | true =>
        obtain ⟨hlt, hnext⟩ := h.bit hfrom hopen hrecv
        have hless : p.bitCounter < 8 := by
          rw [hcount, BitVec.lt_def, BitVec.toNat_ofNat]
          show bits.length % 16 < 8
          omega
        rw [if_pos rfl, if_pos rfl, decide_eq_true hless, Bool.true_and, if_pos rfl, List.length_append, List.length_singleton]
        refine ⟨hlt, ?_, hnext⟩
        rw [hcount, BitVec.ofNat_add]
        rfl
  have hlate : (p.step i).late = true →
      (p.step i).recvBuffer = byteOf (p.bitsNext bits) ∧ (p.step i).recvResult = true := by
    intro hl
    rw [late, hstate] at hl
    rw [hbuffer, hresult]
    rcases state_of_late ht hl with ⟨hfrom, hends⟩ | hfrom
    · rw [hparity, Bool.or_false] at hends
      obtain ⟨height, hbyte⟩ := h.whole hfrom hends
      have hrecv : p.recv = true := by
        rw [recvOk, Bool.and_eq_true, Bool.and_eq_true] at hends
        exact hends.1.1
      have hlast : decide (p.bitCounter < 8) = false := by
        rw [height]
        rfl
      simp only [bitsNext, hfrom, hrecv, hlast, Bool.and_false, Bool.false_eq_true, reduceCtorEq, beq_self_eq_true,
        if_false, if_true]
      exact ⟨hbyte, hends⟩
    · have hbyte := h.byte hfrom
      have hright := h.right hfrom
      have hother : p.state ≠ .recvStart ∧ p.state ≠ .recvBits := by
        rw [late, Bool.or_eq_true, beq_iff_eq, beq_iff_eq] at hfrom
        rcases hfrom with hs | hs <;> simp [hs]
      have hrecv : p.recv = false := by
        rw [recv, beq_eq_false_iff_ne.2 hother.2]
        rfl
      simp only [bitsNext, hother.1, hrecv, beq_eq_false_iff_ne.2 hother.2, Bool.false_and, Bool.false_eq_true, if_false,
        List.append_nil]
      exact ⟨hbyte, hright⟩
  exact ⟨fun hs => ⟨(hbits hs).1, (hbits hs).2.1⟩, fun hs => (hbits hs).2.2, fun hl => (hlate hl).1, fun hl => (hlate hl).2⟩

/-- What a frame whose bits have come leaves as it is. -/
theorem buffer_of_late (hrst : i.rstN = true) (ht : p.timeoutReset = false) (hparity : p.recvParityErr = false)
    (hl : (p.step i).late = true) : (p.step i).recvBuffer = p.recvBuffer ∧ (p.recvOk = true ∨ p.late = true) := by
  obtain ⟨hbuffer, -⟩ := recv_step hrst ht
  have hstate : (p.step i).state = p.stateNext i := by
    rw [Port.step, hrst]
    rfl
  rw [late, hstate] at hl
  rw [hbuffer]
  rcases state_of_late ht hl with ⟨-, hends⟩ | hfrom
  · rw [hparity, Bool.or_false] at hends
    have hok := hends
    rw [recvOk, Bool.and_eq_true, Bool.and_eq_true, beq_iff_eq] at hok
    have hlast : decide (p.bitCounter < 8) = false := by
      rw [hok.1.2]
      rfl
    rw [hlast, Bool.and_false]
    exact ⟨rfl, .inl hends⟩
  · have hrecv : p.recv = false := by
      rw [late, Bool.or_eq_true, beq_iff_eq, beq_iff_eq] at hfrom
      rcases hfrom with hs | hs <;> rw [recv, hs] <;> rfl
    rw [hrecv, Bool.false_and]
    exact ⟨rfl, .inr hfrom⟩

/-- Where a frame goes on to when its parity has come. -/
theorem late_step (hrst : i.rstN = true) (ht : p.timeoutReset = false) :
    (p.recvOk = true → (p.step i).late = true) ∧
      (p.late = true → (p.step i).late = !(p.state == .recvWaitForIdle && p.clk && p.dat)) := by
  have hstate : (p.step i).state = p.stateNext i := by
    rw [Port.step, hrst]
    rfl
  rw [late, late, hstate, stateNext, ht]
  constructor
  · intro hok
    have hbits : p.state = .recvBits := by
      rw [recvOk, recv, Bool.and_eq_true, Bool.and_eq_true, Bool.and_eq_true, beq_iff_eq] at hok
      exact hok.1.1.1
    rw [hbits, hok]
    rfl
  · intro hl
    rw [Bool.or_eq_true, beq_iff_eq, beq_iff_eq] at hl
    rcases hl with hs | hs
    · rw [hs]
      cases p.wasClk && p.dat <;> rfl
    · rw [hs]
      cases p.clk <;> cases p.dat <;> rfl

/-- A frame is being received. -/
def receives (p : Port) : Bool := p.state == .recvStart || p.state == .recvBits || p.late

theorem receives_of_late (h : p.late = true) : p.receives = true := by
  rw [receives, h, Bool.or_true]

/-- A frame begins only when the queue has room. -/
theorem receives_step (hrst : i.rstN = true) (ht : p.timeoutReset = false) (h : (p.step i).receives = true) :
    p.receives = true ∨ i.nearlyFull = false := by
  have hstate : (p.step i).state = p.stateNext i := by
    rw [Port.step, hrst]
    rfl
  rw [receives, late, hstate, stateNext, ht] at h
  rw [receives, late]
  revert h
  cases i.nearlyFull with
  | false => exact fun _ => .inr rfl
  | true => cases hs : p.state <;> simp only [Bool.false_eq_true, if_false, Bool.true_or, if_true] <;> (repeat' split) <;> simp

end Port

/-! ## The queue of the keyboard -/

/-- The level of a queue, as the controller compares it. -/
theorem fifoCounter_toNat {f : SimpleFifo 6 (BitVec 8)} (hf : f.Wf) : (Controller.fifoCounter f).toNat = f.count := by
  rw [Controller.fifoCounter, BitVec.toNat_append, SimpleFifo.count]
  cases hfull : f.full with
  | false => simp
  | true =>
    rw [hf.usedw hfull]
    rfl

theorem fifoCounter_lt {f : SimpleFifo 6 (BitVec 8)} (hf : f.Wf) : Controller.fifoCounter f < 60 ↔ f.count < 60 := by
  rw [BitVec.lt_def, fifoCounter_toNat hf]
  rfl

theorem full_of_count {f : SimpleFifo 6 (BitVec 8)} (h : f.count ≤ 60) : f.full = false := by
  rw [SimpleFifo.count] at h
  cases hfull : f.full with
  | false => rfl
  | true =>
    rw [hfull, if_pos rfl] at h
    omega

namespace Ps2Run

variable {r : Ps2Run} {t : Nat}

/-- What the registers of the keyboard hold: the bits that have come, the flag of the byte F0h, the code of a byte whose
bits have all come, and room in the queue for the byte that is being received. -/
structure Relays (r : Ps2Run) (t : Nat) : Prop where
  receiving : (r.state t).keyb.Receiving (r.lineBits t)
  escape : (r.state t).keybTranslateEscape =
    (endsReleased (r.received t) || ((r.state t).keyb.late && (r.state t).keyb.recvBuffer == 0xF0))
  trans : (r.state t).keyb.late = true → (r.state t).trans = setOne (r.state t).keyb.recvBuffer
  room : (r.fifo .keyboard t).count ≤ 61
  open' : (r.state t).keyb.receives = true → (r.fifo .keyboard t).count ≤ 60
  device : r.deviceEntries t = translated false (r.received t)

theorem Clean.clears (h : r.Clean t) : r.clears t = false := by
  rw [Ps2Run.clears, Controller.clears, h.running, h.keeps]
  rfl

theorem Clean.keyb_succ (h : r.Clean t) : (r.state (t + 1)).keyb = (r.state t).keyb.step ((r.state t).keybIn (r.inputs t)) := by
  rw [running_succ h.running]
  rfl

theorem Clean.keybIn_rstN (h : r.Clean t) : ((r.state t).keybIn (r.inputs t)).rstN = true := h.running

theorem received_succ (t : Nat) : r.received (t + 1) =
    r.received t ++ if r.finishes t then [byteOf (r.lineBits t)] else [] := journal_succ _ t

theorem deviceEntries_succ (t : Nat) : r.deviceEntries (t + 1) =
    r.deviceEntries t ++ if (r.state t).keybReplyDone then [] else r.placed .keyboard t := journal_succ _ t

theorem late_of_finishes (h : r.finishes t = true) : (r.state t).keyb.late = true := by
  rw [finishes, Bool.and_eq_true, Bool.and_eq_true] at h
  rw [Port.late, h.1.1, Bool.or_true]

/-- A frame that has been received without an error is passed on when the lines are high again. -/
theorem Relays.recvFinal_eq (h : r.Relays t) : (r.state t).keyb.recvFinal = r.finishes t := by
  have hfinal : (r.state t).keyb.recvFinal = (r.finishes t && (r.state t).keyb.recvResult) := rfl
  rw [hfinal]
  cases hf : r.finishes t with
  | false => rfl
  | true => rw [h.receiving.right (late_of_finishes hf), Bool.and_self]

/-- A frame that ends leaves the port idle. -/
theorem Clean.finished (hc : r.Clean t) (hf : r.finishes t = true) : (r.state (t + 1)).keyb.state = .idle := by
  rw [finishes, Bool.and_eq_true, Bool.and_eq_true, beq_iff_eq] at hf
  obtain ⟨⟨hs, hclk⟩, hdat⟩ := hf
  rw [hc.keyb_succ, Port.step, hc.keybIn_rstN]
  show (r.state t).keyb.stateNext _ = .idle
  rw [Port.stateNext, hc.timeout, hs, hclk, hdat]
  rfl

/-- The flag of the byte F0h in the next clock. -/
theorem Relays.escape_succ (h : r.Relays t) (hc : r.Clean t) : (r.state (t + 1)).keybTranslateEscape =
    (endsReleased (r.received (t + 1)) ||
      ((r.state (t + 1)).keyb.late && (r.state (t + 1)).keyb.recvBuffer == 0xF0)) := by
  have hnext : (r.state (t + 1)).keybTranslateEscape =
      if (r.state t).keyb.recvOk && !(r.state t).keybTranslateEscape then (r.state t).keyb.recvBuffer == 0xF0
      else if r.finishes t && (r.state t).keyb.recvBuffer != 0xF0 then false
      else (r.state t).keybTranslateEscape := by
    rw [running_succ hc.running]
    show (if (r.state t).keyb.timeoutReset then false else _) = _
    rw [hc.timeout, hc.translate, h.recvFinal_eq]
    rfl
  have hkeyb := hc.keyb_succ
  rw [hnext, received_succ, h.escape]
  obtain ⟨hok, hlate⟩ := Port.late_step (i := (r.state t).keybIn (r.inputs t)) hc.keybIn_rstN hc.timeout
  rw [← hkeyb] at hok hlate
  cases hf : r.finishes t with
  | true =>
    -- the frame ends, and its byte is the one that the next byte follows
    have hl := late_of_finishes hf
    have hnot : (r.state t).keyb.recvOk = false := by
      rw [finishes, Bool.and_eq_true, Bool.and_eq_true, beq_iff_eq] at hf
      rw [Port.recvOk, Port.recv, hf.1.1]
      rfl
    have hidle : (r.state (t + 1)).keyb.late = false := by
      rw [Port.late, hc.finished hf]
      rfl
    rw [hnot, hidle, hl, if_pos rfl, ← h.receiving.byte hl]
    have hlast : endsReleased (r.received t ++ [(r.state t).keyb.recvBuffer]) = ((r.state t).keyb.recvBuffer == 0xF0) := by
      rw [endsReleased, List.getLast?_concat]
      rfl
    rw [hlast, bne]
    generalize ((r.state t).keyb.recvBuffer == 0xF0) = prefixed
    cases prefixed <;> cases endsReleased (r.received t) <;> rfl
  | false =>
    simp only [Bool.false_and, Bool.false_eq_true, if_false, List.append_nil]
    cases hl : (r.state t).keyb.late with
    | true =>
      -- the byte stays
      have hnot : (r.state t).keyb.recvOk = false := by
        rw [Port.late, Bool.or_eq_true, beq_iff_eq, beq_iff_eq] at hl
        rcases hl with hs | hs <;> rw [Port.recvOk, Port.recv, hs] <;> rfl
      have hl' : (r.state (t + 1)).keyb.late = true := by
        rw [hlate hl, show ((r.state t).keyb.state == .recvWaitForIdle && _ && _) = r.finishes t from rfl, hf]
        rfl
      have hbuffer := (Port.buffer_of_late hc.keybIn_rstN hc.timeout hc.parity (hkeyb ▸ hl')).1
      rw [← hkeyb] at hbuffer
      rw [hnot, hl', hbuffer]
      simp
    | false =>
      cases ho : (r.state t).keyb.recvOk with
      | true =>
        -- the parity comes, and with it the flag
        have hl' := hok ho
        have hbuffer := (Port.buffer_of_late hc.keybIn_rstN hc.timeout hc.parity (hkeyb ▸ hl')).1
        rw [← hkeyb] at hbuffer
        rw [hl', hbuffer]
        cases endsReleased (r.received t) with
        | true => simp
        | false => simp
      | false =>
        have hl' : (r.state (t + 1)).keyb.late = false := by
          by_contra hlate'
          rw [Bool.not_eq_false] at hlate'
          rcases (Port.buffer_of_late hc.keybIn_rstN hc.timeout hc.parity (hkeyb ▸ hlate')).2 with h' | h'
          · exact absurd (ho.symm.trans h') Bool.false_ne_true
          · exact absurd (hl.symm.trans h') Bool.false_ne_true
        rw [hl']
        simp

/-- What a clock places in the queue. -/
theorem Relays.placed_eq (h : r.Relays t) (hc : r.Clean t) (hwf : (r.fifo .keyboard t).Wf) : r.placed .keyboard t =
    if (r.state t).keybReplyDone then [(r.state t).keybReply]
    else if r.finishes t then entry (endsReleased (r.received t)) (byteOf (r.lineBits t))
    else [] := by
  have hwrreq : (r.state t).keybFifoWrreq =
      ((r.state t).keybReplyDone || (r.finishes t && (r.state t).keyb.recvBuffer != 0xF0)) := by
    rw [Controller.keybFifoWrreq, h.recvFinal_eq, hc.translate]
    rfl
  have hplaced : r.placed .keyboard t = if (r.state t).keybFifoWrreq && (!(r.fifo .keyboard t).full ||
      (r.state t).keybFifoRdreq (r.inputs t)) then [(r.state t).keybFifoData] else [] := by
    rw [placed, SimpleFifo.pushed, hc.clears]
    rfl
  rw [hplaced, hwrreq]
  cases hreply : (r.state t).keybReplyDone with
  | true =>
    have hroom : (r.fifo .keyboard t).count < 60 := by
      rw [Controller.keybReplyDone, Bool.and_eq_true, Bool.and_eq_true, decide_eq_true_iff] at hreply
      exact (fifoCounter_lt hwf).1 hreply.1.2
    rw [full_of_count (by omega), Controller.keybFifoData, hreply]
    rfl
  | false =>
    cases hf : r.finishes t with
    | false => rfl
    | true =>
      have hl := late_of_finishes hf
      rw [full_of_count (h.open' (Port.receives_of_late hl)), ← h.receiving.byte hl, entry, Controller.keybFifoData, hreply,
        hc.translate, h.trans hl, h.escape, hl]
      cases hbyte : (r.state t).keyb.recvBuffer == 0xF0 with
      | true =>
        rw [if_pos (beq_iff_eq.1 hbyte), bne, hbyte]
        rfl
      | false =>
        rw [if_neg (beq_eq_false_iff_ne.1 hbyte), bne, hbyte, Bool.and_false, Bool.or_false]
        cases endsReleased (r.received t) with
        | true => rfl
        | false => simp

/-- The level of the queue in the next clock: a byte of the keyboard finds room, and a reply waits for it. -/
theorem Relays.room_succ (h : r.Relays t) (hc : r.Clean t) (hwf : (r.fifo .keyboard t).Wf) :
    (r.fifo .keyboard (t + 1)).count ≤ 61 ∧
      ((r.state (t + 1)).keyb.receives = true → (r.fifo .keyboard (t + 1)).count ≤ 60) := by
  have hcount : (r.fifo .keyboard (t + 1)).count =
      (if (r.state t).keybFifoRdreq (r.inputs t) then (r.fifo .keyboard t).count - 1 else (r.fifo .keyboard t).count) +
        if (r.state t).keybFifoWrreq && (!(r.fifo .keyboard t).full || (r.state t).keybFifoRdreq (r.inputs t)) then 1
        else 0 := by
    rw [fifo_succ, hc.clears]
    exact SimpleFifo.count_step (by omega) hwf _ _ _
  have hread : ∀ rd : Bool, (if rd then (r.fifo .keyboard t).count - 1 else (r.fifo .keyboard t).count) ≤
      (r.fifo .keyboard t).count := by
    intro rd
    cases rd with
    | false => exact le_rfl
    | true => exact Nat.sub_le _ _
  have hle := hread ((r.state t).keybFifoRdreq (r.inputs t))
  have hwrite : ∀ w : Bool, (if w then 1 else 0 : Nat) ≤ 1 := by decide
  cases hreply : (r.state t).keybReplyDone with
  | true =>
    have hroom : (r.fifo .keyboard t).count < 60 := by
      rw [Controller.keybReplyDone, Bool.and_eq_true, Bool.and_eq_true, decide_eq_true_iff] at hreply
      exact (fifoCounter_lt hwf).1 hreply.1.2
    have hone := hwrite ((r.state t).keybFifoWrreq &&
      (!(r.fifo .keyboard t).full || (r.state t).keybFifoRdreq (r.inputs t)))
    exact ⟨by omega, fun _ => by omega⟩
  | false =>
    cases hf : r.finishes t with
    | true =>
      have hopen := h.open' (Port.receives_of_late (late_of_finishes hf))
      have hone := hwrite ((r.state t).keybFifoWrreq &&
        (!(r.fifo .keyboard t).full || (r.state t).keybFifoRdreq (r.inputs t)))
      refine ⟨by omega, fun hreceives => ?_⟩
      rw [Port.receives, Port.late, hc.finished hf] at hreceives
      exact absurd hreceives nofun
    | false =>
      have hno : (r.state t).keybFifoWrreq = false := by
        rw [Controller.keybFifoWrreq, hreply, h.recvFinal_eq, hf]
        rfl
      simp only [hno, Bool.false_and, Bool.false_eq_true, if_false, Nat.add_zero] at hcount
      have hroom := h.room
      refine ⟨by omega, fun hreceives => ?_⟩
      rw [hc.keyb_succ] at hreceives
      rcases Port.receives_step hc.keybIn_rstN hc.timeout hreceives with hbefore | hfree
      · have hopen := h.open' hbefore
        omega
      · have hless : (r.fifo .keyboard t).count < 60 := by
          refine (fifoCounter_lt hwf).1 ?_
          have hnot := of_decide_eq_false hfree
          rw [BitVec.lt_def]
          rw [ge_iff_le, BitVec.le_def] at hnot
          exact Nat.lt_of_not_le hnot
        omega

theorem Relays.step (h : r.Relays t) (hc : r.Clean t) (hwf : (r.fifo .keyboard t).Wf) : r.Relays (t + 1) := by
  obtain ⟨hroom, hopen⟩ := h.room_succ hc hwf
  refine ⟨?_, h.escape_succ hc, fun hl => ?_, hroom, hopen, ?_⟩
  · rw [hc.keyb_succ]
    exact h.receiving.step hc.keybIn_rstN hc.timeout hc.parity
  · have hbuffer := (Port.buffer_of_late hc.keybIn_rstN hc.timeout hc.parity (hc.keyb_succ ▸ hl)).1
    rw [← hc.keyb_succ] at hbuffer
    rw [hbuffer, running_succ hc.running]
    rfl
  · rw [deviceEntries_succ, received_succ, h.placed_eq hc hwf, h.device]
    cases hf : r.finishes t with
    | false =>
      simp only [Bool.false_eq_true, if_false, List.append_nil]
      cases (r.state t).keybReplyDone <;> exact List.append_nil _
    | true =>
      have hreply : (r.state t).keybReplyDone = false := by
        rw [Controller.keybReplyDone, h.recvFinal_eq, hf]
        exact Bool.and_false _
      have hempty : (if r.received t = [] then false else endsReleased (r.received t)) = endsReleased (r.received t) := by
        split
        · rename_i hnil
          rw [hnil]
          rfl
        · rfl
      simp only [hreply, Bool.false_eq_true, if_false, if_true, translated_concat, hempty]

end Ps2Run

/-! ## Runs from a reset -/

namespace ResetRun

variable {r : ResetRun} {t : Nat}

theorem relays (h : ∀ u, u < t → r.Clean u) : r.Relays t := by
  induction t with
  | zero =>
    have hstart : r.state 0 = r.before.reset r.resetIn := r.start_eq
    have hidle : (r.state 0).keyb.state = .idle := by
      rw [hstart]
      rfl
    have hlate : (r.state 0).keyb.late = false := by
      rw [Port.late, hidle]
      rfl
    have hcount : (r.fifo .keyboard 0).count = 0 := by
      rw [SimpleFifo.count_eq_zero, Ps2Run.fifo, hstart]
      rfl
    refine ⟨Port.receiving_of_idle hidle, ?_, fun hl => absurd (hlate.symm.trans hl) nofun, by omega, fun _ => by omega, rfl⟩
    rw [hlate, hstart]
    rfl
  | succ t ih => exact (ih fun u hu => h u (by omega)).step (h t (by omega)) ((r.soundAt t).wf .keyboard)

/-- While no frame goes wrong the keyboard's entries are its bytes, translated. -/
theorem translates (r : ResetRun) (t : Nat) (h : ∀ u, u < t → r.Clean u) : r.Translates t := by
  refine ⟨(relays h).device, fun u hu hreply => ?_, fun u hu hf => ?_⟩
  · have hbefore : r.Relays u := relays fun v hv => h v (by omega)
    rw [hbefore.placed_eq (h u hu) ((r.soundAt u).wf .keyboard), hreply, if_pos rfl]
  · have hbefore : r.Relays u := relays fun v hv => h v (by omega)
    rw [Controller.keybReplyDone, hbefore.recvFinal_eq, hf]
    exact Bool.and_false _

/-! ## A key -/

/-- What the keyboard and the guest do in a clock: the lines of the one, and the write of the other, if it makes one. -/
abbrev KeyClock := (Bool × Bool) × Option (BitVec 4 × BitVec 8)

def keyIn (x : KeyClock) : ControllerIn := { writeIn x.2 with ps2Kbclk := x.1.1, ps2Kbdat := x.1.2 }

/-- The lines while a byte is sent: in each bit the clock is high for 4 clocks and low for 17. -/
def keyLines (b : BitVec 8) : List (Bool × Bool) :=
  (frameOf b).flatMap (fun d => List.replicate 4 (true, d) ++ List.replicate 17 (false, d)) ++ List.replicate 6 (true, true)

/-- A keyboard and a guest that do what a list says. -/
def keyRun (clocks : List KeyClock) : ResetRun :=
  runFrom fun t => keyIn ((clocks[t]?).getD ((true, true), none))

/-- The controller after what a list says, when no frame goes wrong. -/
def passes : List KeyClock → Controller → Option Controller
  | [], s => some s
  | x :: xs, s =>
    if s.translate && !s.keyb.recvParityErr && !s.keyb.timeoutReset && !Controller.cmdSelfTest (keyIn x) then
      passes xs (s.step (keyIn x))
    else none

theorem clean_of_passes {clocks : List KeyClock} {s : Controller} (h : passes clocks (keyRun clocks).start = some s) :
    (∀ u, u < clocks.length → (keyRun clocks).Clean u) ∧ (keyRun clocks).state clocks.length = s := by
  have hinput : ∀ v (hv : v < clocks.length), (keyRun clocks).inputs v = keyIn clocks[v] := by
    intro v hv
    show keyIn ((clocks[v]?).getD _) = _
    rw [List.getElem?_eq_getElem hv]
    rfl
  have hdrop : ∀ u, u ≤ clocks.length → passes (clocks.drop u) ((keyRun clocks).state u) = some s ∧
      ∀ v, v < u → (keyRun clocks).Clean v := by
    intro u
    induction u with
    | zero => exact fun _ => ⟨h, fun v hv => absurd hv (Nat.not_lt_zero v)⟩
    | succ u ih =>
      intro hu
      obtain ⟨hpasses, hclean⟩ := ih (Nat.le_of_succ_le hu)
      rw [List.drop_eq_getElem_cons hu, passes, Option.ite_none_right_eq_some] at hpasses
      obtain ⟨hright, hrest⟩ := hpasses
      simp only [Bool.and_eq_true, Bool.not_eq_true'] at hright
      obtain ⟨⟨⟨htranslate, hparity⟩, htimeout⟩, hkeeps⟩ := hright
      refine ⟨?_, fun v hv => ?_⟩
      · rw [Ps2Run.state_succ, hinput u hu]
        exact hrest
      · rcases Nat.lt_succ_iff_lt_or_eq.1 hv with hlt | rfl
        · exact hclean v hlt
        · refine ⟨?_, ?_, htranslate, hparity, htimeout⟩
          · rw [hinput v hu]
            rfl
          · rw [hinput v hu]
            exact hkeeps
  obtain ⟨hend, hclean⟩ := hdrop clocks.length (Nat.le_refl _)
  rw [List.drop_length] at hend
  exact ⟨hclean, Option.some_inj.1 hend⟩

/-- The key A is released. In the clock before F0h is there the guest asks for the command byte. -/
def keyUp : List KeyClock :=
  ([0xF0, 0x1C] : List (BitVec 8)).flatMap keyLines |>.zipIdx.map fun (line, k) =>
    (line, if k = 231 then some (4, 0x20) else none)

/-- The reply comes before the code of the key. -/
theorem key_translates : (keyRun keyUp).Translates 474 ∧
    [0, 1].map ((keyRun keyUp).state 474).keybFifo.mem = [0x43, 0x9E] ∧
      ((keyRun keyUp).state 474).keybFifo.wrIndex = 2 := by
  have hpasses : ((passes keyUp (keyRun keyUp).start).map fun s => ([0, 1].map s.keybFifo.mem, s.keybFifo.wrIndex)) =
      some ([0x43, 0x9E], 2) := by decide +kernel
  have hlength : keyUp.length = 474 := by decide +kernel
  obtain ⟨s, hs, hqueue⟩ := Option.map_eq_some_iff.1 hpasses
  obtain ⟨hclean, hstate⟩ := clean_of_passes hs
  rw [hlength] at hclean hstate
  rw [hstate]
  exact ⟨translates (keyRun keyUp) 474 hclean, congrArg Prod.fst hqueue, congrArg Prod.snd hqueue⟩

end ResetRun

end Z486.Ps2
