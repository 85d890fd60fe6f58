/-
The host port of the OPL3 (src/soc/sound/opl3/host_if.sv) and the decoder of its detection helper
(src/soc/sound/opl3/trick_sw_detection.sv). Each access that the host begins goes into the queue between the two clocks, as
an address or as data, and the chip's side decodes what it takes out of it into register writes. The helper decodes the
same accesses on the host's clock. Both are the one sequential decoding of what the host wrote, the chip's some entries later.

The runs begin after the reset; the status read is left out.
-/
import Z486.Sound.Afifo

namespace Z486.Sound

open Clocked

/-! ## Decoding -/

/-- An access of the host: the address of the port and the byte. -/
structure OplAccess where
  address : BitVec 2
  din : BitVec 8
deriving DecidableEq, Repr

/-- `opl3_reg_wr_t` -/
structure OplRegWr where
  valid : Bool
  bankNum : Bool
  address : BitVec 8
  data : BitVec 8
deriving DecidableEq, Repr

/-- The registers of a decoder: the register write and `opl3_mode`. -/
structure OplDecoder where
  regWr : OplRegWr
  mode : Bool
deriving DecidableEq, Repr

namespace OplDecoder

variable (d : OplDecoder)

/-- A clock, with an access or without. -/
def clock : Option OplAccess → OplDecoder
  | none => { d with regWr := { d.regWr with valid := false } }
  | some a =>
    if !a.address.getLsbD 0 then
      { d with
        regWr := { d.regWr with
          valid := false, bankNum := a.address.getLsbD 1 && (d.mode || a.din == 0x05), address := a.din } }
    else
      { regWr := { d.regWr with valid := true, data := a.din }
        mode := if d.regWr.bankNum && d.regWr.address == 0x05 then a.din.getLsbD 0 else d.mode }

def reset : OplDecoder := ⟨⟨false, false, 0, 0⟩, false⟩

/-- The register write that a clock has made. -/
def made : List OplRegWr := if d.regWr.valid then [d.regWr] else []

end OplDecoder

/-! ## The port -/

/-- The registers of the host's clock in front of the queue. -/
structure OplHostSide where
  csP1N : Bool
  wrP1N : Bool
  addressP1 : BitVec 2
  dinP1 : BitVec 8
  wrP2 : Bool
deriving DecidableEq, Repr

/-- What the host's clock samples. -/
structure OplSample where
  csN : Bool
  wrN : Bool
  address : BitVec 2
  din : BitVec 8
deriving DecidableEq, Repr

def OplSample.wr (x : OplSample) : Bool := !x.csN && !x.wrN

namespace OplHostSide

variable (h : OplHostSide)

def wrP1 : Bool := !h.csP1N && !h.wrP1N

/-- What is written into the queue: `i_wr` with `i_wr_data`. -/
def access : Option OplAccess := if h.wrP1 && !h.wrP2 then some ⟨h.addressP1, h.dinP1⟩ else none

def clock (x : OplSample) : OplHostSide := ⟨x.csN, x.wrN, x.address, x.din, h.wrP1⟩

def reset : OplHostSide := ⟨true, true, 0, 0, false⟩

end OplHostSide

structure OplHost where
  host : OplHostSide
  afifo : Afifo 5 OplAccess
  chip : OplDecoder
  helper : OplDecoder

/-- What a moment brings: the clocks that have an edge, the host's pins, and what chance decides in the queue. -/
structure OplEdge where
  wclk : Bool
  rclk : Bool
  sample : OplSample
  rgraySeen : BitVec (2 + 5)
  wgraySeen : BitVec (2 + 5)
  clash : OplAccess

namespace OplHost

variable (s : OplHost) (i : OplEdge)

def fifoEdge : AfifoEdge 5 OplAccess where
  wclk := i.wclk
  rclk := i.rclk
  wr := s.host.access
  rd := !s.afifo.oRdEmpty
  rgraySeen := i.rgraySeen
  wgraySeen := i.wgraySeen
  clash := i.clash

def step : OplHost where
  host := if i.wclk then s.host.clock i.sample else s.host
  afifo := s.afifo.step (s.fifoEdge i)
  chip := if i.rclk then s.chip.clock (if s.afifo.oRdEmpty then none else some s.afifo.oRdData) else s.chip
  helper := if i.wclk then s.helper.clock s.host.access else s.helper

def powerUp (mem : BitVec (1 + 5) → OplAccess) (oRdData : OplAccess) : OplHost where
  host := OplHostSide.reset
  afifo := Afifo.powerUp mem oRdData
  chip := OplDecoder.reset
  helper := OplDecoder.reset

/-- The queue is full when an access comes. -/
def refuses : Bool := i.wclk && s.host.access.isSome && s.afifo.oWrFull

end OplHost

/-! ## The purpose of the port -/

/-- The accesses that a host begins, in the samples of its clock: one wherever the strobe goes on. -/
def accessesOf (before : Bool) : List OplSample → List OplAccess
  | [] => []
  | x :: xs => (if x.wr && !before then [⟨x.address, x.din⟩] else []) ++ accessesOf x.wr xs

/-- The register writes of some accesses, decoded one after the other. -/
def writesOf (d : OplDecoder) : List OplAccess → List OplRegWr
  | [] => []
  | a :: as => (d.clock (some a)).made ++ writesOf (d.clock (some a)) as

/-- The strobe in the last sample. -/
def strobeAfter (before : Bool) (xs : List OplSample) : Bool := xs.foldl (fun _ x => x.wr) before

/-- The decoder after some accesses. -/
def OplDecoder.after (d : OplDecoder) (as : List OplAccess) : OplDecoder := as.foldl (fun d a => d.clock (some a)) d

theorem OplDecoder.after_append (d : OplDecoder) (as bs : List OplAccess) : d.after (as ++ bs) = (d.after as).after bs :=
  List.foldl_append

theorem accessesOf_append (before : Bool) (xs ys : List OplSample) :
    accessesOf before (xs ++ ys) = accessesOf before xs ++ accessesOf (strobeAfter before xs) ys := by
  induction xs generalizing before with
  | nil => rfl
  | cons x xs ih =>
    rw [List.cons_append, accessesOf, accessesOf, ih, List.append_assoc]
    rfl

theorem writesOf_append (d : OplDecoder) (as bs : List OplAccess) :
    writesOf d (as ++ bs) = writesOf d as ++ writesOf (d.after as) bs := by
  induction as generalizing d with
  | nil => rfl
  | cons a as ih =>
    rw [List.cons_append, writesOf, writesOf, ih, List.append_assoc]
    rfl

theorem writesOf_prefix (d : OplDecoder) {as bs : List OplAccess} (h : as <+: bs) : writesOf d as <+: writesOf d bs := by
  obtain ⟨rest, rfl⟩ := h
  rw [writesOf_append]
  exact List.prefix_append _ _

/-- An access makes one register write at most. -/
theorem length_writesOf_le (d : OplDecoder) (as : List OplAccess) : (writesOf d as).length ≤ as.length := by
  induction as generalizing d with
  | nil => exact Nat.le_refl 0
  | cons a as ih =>
    have hone : (d.clock (some a)).made.length ≤ 1 := by
      unfold OplDecoder.made
      split
      · exact Nat.le_refl 1
      · exact Nat.zero_le 1
    have hrest := ih (d.clock (some a))
    rw [writesOf, List.length_append, List.length_cons]
    omega

/-- A decoder whose clock has an edge now and then makes the register writes of the accesses at the edges: what a clock
without an access takes back, the next access sets again. -/
theorem decodes {d : Nat → OplDecoder} {edge : Nat → Bool} {access : Nat → Option OplAccess}
    (hzero : d 0 = OplDecoder.reset) (hstep : ∀ u, d (u + 1) = if edge u then (d u).clock (access u) else d u) (t : Nat) :
    journal (fun u => if edge u then (d (u + 1)).made else []) t =
      writesOf OplDecoder.reset (journal (fun u => if edge u then (access u).toList else []) t) := by
  have hboth : journal (fun u => if edge u then (d (u + 1)).made else []) t =
      writesOf OplDecoder.reset (journal (fun u => if edge u then (access u).toList else []) t) ∧
      ∀ a, (d t).clock (some a) =
        (OplDecoder.reset.after (journal (fun u => if edge u then (access u).toList else []) t)).clock (some a) := by
    induction t with
    | zero => exact ⟨rfl, fun a => by rw [hzero]; rfl⟩
    | succ t ih =>
      obtain ⟨hwrites, hagrees⟩ := ih
      rw [journal_succ, journal_succ, hwrites, hstep t]
      cases hedge : edge t with
      | false => exact ⟨by rw [if_neg Bool.false_ne_true, if_neg Bool.false_ne_true, List.append_nil, List.append_nil],
          fun a => by rw [if_neg Bool.false_ne_true, if_neg Bool.false_ne_true, List.append_nil, hagrees a]⟩
      | true =>
        rw [if_pos rfl, if_pos rfl, if_pos rfl]
        cases hacc : access t with
        | none =>
          rw [Option.toList_none, List.append_nil]
          refine ⟨List.append_nil _, fun a => ?_⟩
          rw [← hagrees a]
          rfl
        | some b =>
          rw [Option.toList_some, writesOf_append, OplDecoder.after_append, hagrees b]
          refine ⟨?_, fun a => rfl⟩
          rw [writesOf, writesOf, List.append_nil]
  exact hboth.1

/-! ## Runs -/

/-- The two clocks from the reset on, with any edges and any samples of the host's pins. -/
structure OplRun where
  mem : BitVec (1 + 5) → OplAccess
  oRdData : OplAccess
  edges : Nat → OplEdge

namespace OplRun

variable (r : OplRun)

def state : Nat → OplHost := run OplHost.step (OplHost.powerUp r.mem r.oRdData) r.edges

/-- What the host's clock has sampled before moment `t`. -/
def samples (t : Nat) : List OplSample := journal (fun u => if (r.edges u).wclk then [(r.edges u).sample] else []) t

/-- The accesses that came to the queue before moment `t`. -/
def offered (t : Nat) : List OplAccess :=
  journal (fun u => if (r.edges u).wclk then (r.state u).host.access.toList else []) t

/-- Those of them that the queue took. -/
def accepted (t : Nat) : List OplAccess :=
  journal (fun u => if (r.edges u).wclk && !(r.state u).refuses (r.edges u) then (r.state u).host.access.toList else []) t

/-- The register writes of the chip's side before moment `t`, and of the helper. -/
def made (t : Nat) : List OplRegWr := journal (fun u => if (r.edges u).rclk then (r.state (u + 1)).chip.made else []) t

def detected (t : Nat) : List OplRegWr :=
  journal (fun u => if (r.edges u).wclk then (r.state (u + 1)).helper.made else []) t

/-- No access before moment `t` found the queue full. -/
def Accepts (t : Nat) : Prop := ∀ u, u < t → (r.state u).refuses (r.edges u) = false

def fifo : AfifoRun 5 OplAccess := ⟨r.mem, r.oRdData, fun u => (r.state u).fifoEdge (r.edges u)⟩

theorem state_afifo (t : Nat) : (r.state t).afifo = r.fifo.state t := by
  induction t with
  | zero => rfl
  | succ t ih =>
    show (r.state t).afifo.step _ = (r.fifo.state t).step _
    rw [ih]
    rfl

/-- The host's registers are one sample behind. -/
theorem accessesOf_samples (t : Nat) :
    accessesOf false (r.samples t) = r.offered t ++ (r.state t).host.access.toList ∧
      strobeAfter false (r.samples t) = (r.state t).host.wrP1 := by
  induction t with
  | zero => exact ⟨rfl, rfl⟩
  | succ t ih =>
    obtain ⟨haccesses, hstrobe⟩ := ih
    have hhost : (r.state (t + 1)).host =
        if (r.edges t).wclk then (r.state t).host.clock (r.edges t).sample else (r.state t).host := rfl
    unfold samples offered at *
    rw [journal_succ, journal_succ, hhost]
    cases (r.edges t).wclk with
    | false =>
      rw [if_neg Bool.false_ne_true, if_neg Bool.false_ne_true, if_neg Bool.false_ne_true, List.append_nil, List.append_nil]
      exact ⟨haccesses, hstrobe⟩
    | true =>
      rw [if_pos rfl, if_pos rfl, if_pos rfl, accessesOf_append, haccesses, hstrobe]
      constructor
      · congr 1
        rw [accessesOf, accessesOf, List.append_nil]
        show _ = (if (r.edges t).sample.wr && !(r.state t).host.wrP1 then _ else none : Option OplAccess).toList
        split <;> rfl
      · unfold strobeAfter
        rw [List.foldl_append]
        rfl

theorem detected_eq (t : Nat) : r.detected t = writesOf OplDecoder.reset (r.offered t) :=
  decodes (d := fun u => (r.state u).helper) rfl (fun _ => rfl) t

theorem made_eq (t : Nat) : r.made t = writesOf OplDecoder.reset (r.fifo.taken t) := by
  have htaken : r.fifo.taken t = journal (fun u => if (r.edges u).rclk then
      (if (r.state u).afifo.oRdEmpty then none else some (r.state u).afifo.oRdData).toList else []) t := by
    refine journal_congr fun u _ => ?_
    show (Afifo.taken (r.fifo.state u) ((r.state u).fifoEdge (r.edges u))).toList = _
    unfold Afifo.taken OplHost.fifoEdge
    rw [← state_afifo]
    cases (r.edges u).rclk <;> cases (r.state u).afifo.oRdEmpty <;> rfl
  rw [htaken]
  exact decodes (d := fun u => (r.state u).chip) rfl (fun _ => rfl) t

theorem written_eq (t : Nat) : r.fifo.written t = r.accepted t := by
  refine journal_congr fun u _ => ?_
  show (Afifo.written (r.fifo.state u) ((r.state u).fifoEdge (r.edges u))).toList = _
  unfold Afifo.written OplHost.fifoEdge OplHost.refuses
  rw [← state_afifo]
  cases (r.edges u).wclk <;> cases (r.state u).afifo.oWrFull <;> cases (r.state u).host.access <;> rfl

theorem accepted_eq {t : Nat} (h : r.Accepts t) : r.accepted t = r.offered t := by
  refine journal_congr fun u hu => ?_
  rw [h u hu, Bool.not_false, Bool.and_true]

/-- What the port does by moment `t`, whatever it has refused. -/
structure Relays (t : Nat) : Prop where
  helper : ∃ late, late.length ≤ 1 ∧
    writesOf OplDecoder.reset (accessesOf false (r.samples t)) = r.detected t ++ late
  chip : ∃ late, late.length ≤ 65 ∧ writesOf OplDecoder.reset (r.accepted t) = r.made t ++ late
  delivers : ∀ u, t ≤ u → 67 ≤ pulses (fun v => (r.edges v).rclk) t u →
    writesOf OplDecoder.reset (r.accepted t) <+: r.made u
  same : r.Accepts t → writesOf OplDecoder.reset (r.accepted t) = r.detected t
  refuses : (r.state t).refuses (r.edges t) = true →
    ∃ u, u ≤ t ∧ pulses (fun v => (r.edges v).wclk) u t ≤ 2 ∧ (r.fifo.taken u).length + 64 ≤ (r.accepted t).length

theorem taken_prefix (t : Nat) : r.fifo.taken t <+: r.fifo.written t ∧
    (r.fifo.written t).length ≤ (r.fifo.taken t).length + 65 := r.fifo.order t

/-- A queue that looks full held 64 accesses two edges of the host's clock ago, or less. -/
theorem refused {t : Nat} (h : (r.state t).refuses (r.edges t) = true) :
    ∃ u, u ≤ t ∧ pulses (fun v => (r.edges v).wclk) u t ≤ 2 ∧ (r.fifo.taken u).length + 64 ≤ (r.accepted t).length := by
  have hfull : (r.fifo.state t).oWrFull = true := by
    unfold OplHost.refuses at h
    rw [Bool.and_eq_true, state_afifo] at h
    exact h.2
  -- the edges of the queue's write clock are those of the host's
  obtain ⟨u, hu, hage, hposition⟩ := r.fifo.full_since hfull
  have htaken : (r.fifo.taken u).length ≤ r.fifo.position u := by
    rw [r.fifo.taken_eq, List.length_take]
    exact (Nat.min_le_left _ _).trans (Nat.sub_le _ _)
  rw [show 2 ^ (1 + 5) = 64 from rfl, r.written_eq] at hposition
  exact ⟨u, hu, hage, by omega⟩

/-- The accesses that the queue takes become the chip's register writes in order, each once, and those that the helper sees
are the same, whatever the two clocks do; only a queue that holds 64 accesses refuses one. -/
theorem relays_accesses (t : Nat) : r.Relays t := by
  refine ⟨?_, ?_, fun u htu hedges => ?_, fun haccepts => ?_, fun hrefuses => r.refused hrefuses⟩
  · obtain ⟨haccesses, -⟩ := r.accessesOf_samples t
    rw [haccesses, writesOf_append, r.detected_eq]
    refine ⟨_, (length_writesOf_le _ _).trans ?_, rfl⟩
    cases (r.state t).host.access with
    | none => exact Nat.zero_le 1
    | some a => exact Nat.le_refl 1
  · obtain ⟨⟨rest, hrest⟩, hlength⟩ := r.taken_prefix t
    rw [← hrest, List.length_append] at hlength
    rw [r.made_eq, ← r.written_eq, ← hrest, writesOf_append]
    exact ⟨_, (length_writesOf_le _ _).trans (by omega), rfl⟩
  · rw [r.made_eq, ← r.written_eq]
    refine writesOf_prefix _ (r.fifo.delivers_within (fun v _ hready => ?_) htu hedges)
    show (!(r.state v).afifo.oRdEmpty) = true
    rw [state_afifo, hready]
    rfl
  · rw [r.detected_eq, r.accepted_eq haccepts]

end OplRun

end Z486.Sound
