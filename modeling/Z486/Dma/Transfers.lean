/-
The transfers of the DMA system: whatever the memory's latency, every grant becomes one operation of the memory and one
acknowledge, in the order of the grants.
-/
import Z486.Dma.System
import Z486.Dma.TerminalCount

namespace Z486.Dma

open Clocked

/-! ## The engine of a chip -/

namespace I8237

variable {s : I8237} {j : I8237In}

/-- The registers that follow the state of the engine. -/
structure Working (s : I8237) : Prop where
  read : s.dmaRead = (s.state == .read)
  write : s.dmaWrite = (s.state == .write)
  ack : s.ackR = (s.state == .update)
  never : s.state ≠ .verify
  fresh : s.state = .granted ∨ s.state = .read ∨ s.state = .readWait → s.dmaWritedata = 0
  reading : s.state = .read ∨ s.state = .readWait → s.transfer s.active = 2
  writing : s.state = .write → s.transfer s.active = 1

theorem idle_step (hr : j.rstN = true) (hs : s.state = .idle) :
    (s.step j).state = (if !masterClear j && j.chReq != 0 then .granted else .idle) ∧
      ((s.step j).state = .granted → (s.step j).active = activeNext j) := by
  have hstate : (s.step j).state = if masterClear j then .idle else s.stateNext j := by
    show (if !j.rstN || masterClear j then .idle else s.stateNext j) = _
    rw [hr]
    rfl
  have hactive : (s.step j).active =
      if masterClear j then s.active else if s.grants j then activeNext j else s.active := by
    show (if !j.rstN || masterClear j then s.active else if s.grants j then activeNext j else s.active) = _
    rw [hr]
    rfl
  rw [hstate, hactive, stateNext, hs, grants, hs]
  cases masterClear j <;> cases hreq : (j.chReq != 0) <;> simp

theorem busy_step (hr : j.rstN = true) (hb : s.state ≠ .idle) (hc : masterClear j = false) :
    (s.step j).state = s.stateNext j ∧ (s.step j).active = s.active := by
  have hno : s.grants j = false := by
    rw [grants, beq_eq_false_iff_ne.2 hb, Bool.false_and]
  constructor
  · show (if !j.rstN || masterClear j then .idle else s.stateNext j) = _
    rw [hr, hc]
    rfl
  · show (if !j.rstN || masterClear j then s.active else if s.grants j then activeNext j else s.active) = _
    rw [hr, hc, hno]
    rfl

theorem transfer_step (hr : j.rstN = true) {c : Fin 4} (hm : writesMode j c = false) :
    (s.step j).transfer c = s.transfer c := by
  show (if !j.rstN then 0 else if writesMode j c then j.writedata.extractLsb' 2 2 else s.transfer c) = _
  rw [hr, hm]
  rfl

theorem Working.step_idle (hr : j.rstN = true) (hs : s.state = .idle) : (s.step j).Working := by
  have hread : (s.step j).dmaRead = false := by
    show (if s.state == .idle then false else _) = _
    rw [hs]
    rfl
  have hwrite : (s.step j).dmaWrite = false := by
    show (if s.state == .idle then false else _) = _
    rw [hs]
    rfl
  have hack : (s.step j).ackR = false := by
    show (if !j.rstN then false else if s.state == .readWait && j.dmaReaddatavalid then true
      else if s.state == .write && !j.dmaWaitrequest then true else if s.state == .verify then true else false) = _
    rw [hs]
    simp
  have hdata : (s.step j).dmaWritedata = 0 := by
    show (if s.state == .idle then 0 else _) = _
    rw [hs]
    rfl
  have hstate := (idle_step hr hs).1
  rcases Bool.eq_false_or_eq_true (!masterClear j && j.chReq != 0) with hgo | hgo <;> rw [hgo] at hstate
  · constructor <;> simp [hstate, hread, hwrite, hack, hdata]
  · constructor <;> simp [hstate, hread, hwrite, hack]

/-- A clock of a transfer that the processor leaves alone. -/
theorem Working.step_busy (h : s.Working) (hr : j.rstN = true) (hb : s.state ≠ .idle) (hc : masterClear j = false)
    (hm : writesMode j s.active = false)
    (hgo : s.state = .granted → s.transfer s.active = 1 ∨ s.transfer s.active = 2) : (s.step j).Working := by
  obtain ⟨hstate, hactive⟩ := busy_step hr hb hc
  have htransfer : (s.step j).transfer (s.step j).active = s.transfer s.active := by
    rw [hactive, transfer_step hr hm]
  have hread : (s.step j).dmaRead = if s.state == .granted && s.transfer s.active == 2 then true
      else if s.state == .read && !j.dmaWaitrequest then false else s.dmaRead := by
    show (if s.state == .idle then false else _) = _
    rw [beq_eq_false_iff_ne.2 hb]
    rfl
  have hwrite : (s.step j).dmaWrite = if s.state == .granted && s.transfer s.active == 1 then true
      else if s.state == .write && !j.dmaWaitrequest then false else s.dmaWrite := by
    show (if s.state == .idle then false else _) = _
    rw [beq_eq_false_iff_ne.2 hb]
    rfl
  have hdata : (s.step j).dmaWritedata =
      if s.state == .granted && s.transfer s.active == 1 then s.reqData j else s.dmaWritedata := by
    show (if s.state == .idle then 0 else _) = _
    rw [beq_eq_false_iff_ne.2 hb]
    rfl
  have hack : (s.step j).ackR =
      (s.state == .readWait && j.dmaReaddatavalid || s.state == .write && !j.dmaWaitrequest) := by
    show (if !j.rstN then false else if s.state == .readWait && j.dmaReaddatavalid then true
      else if s.state == .write && !j.dmaWaitrequest then true else if s.state == .verify then true else false) = _
    rw [hr, beq_eq_false_iff_ne.2 h.never]
    cases s.state == .readWait && j.dmaReaddatavalid <;> cases s.state == .write && !j.dmaWaitrequest <;> rfl
  have hr' := h.read
  have hw' := h.write
  rw [stateNext] at hstate
  cases hs : s.state with
  | idle => exact absurd hs hb
  | verify => exact absurd hs h.never
  | granted =>
    have hfresh := h.fresh (.inl hs)
    rw [hs] at hstate hread hwrite hdata hack hr' hw'
    rcases hgo hs with ht | ht <;> rw [ht] at hstate hread hwrite hdata htransfer
    · constructor <;> simp_all [beq_eq_decide]
    · constructor <;> simp_all [beq_eq_decide]
  | read =>
    have hfresh := h.fresh (.inr (.inl hs))
    have ht := h.reading (.inl hs)
    rw [hs] at hstate hread hwrite hdata hack hr' hw'
    cases hwait : j.dmaWaitrequest <;> rw [hwait] at hstate hread hwrite hack
    · constructor <;> simp_all [beq_eq_decide]
    · constructor <;> simp_all [beq_eq_decide]
  | readWait =>
    have hfresh := h.fresh (.inr (.inr hs))
    have ht := h.reading (.inr hs)
    rw [hs] at hstate hread hwrite hdata hack hr' hw'
    cases hvalid : j.dmaReaddatavalid <;> rw [hvalid] at hstate hack
    · constructor <;> simp_all [beq_eq_decide]
    · constructor <;> simp_all [beq_eq_decide]
  | write =>
    have ht := h.writing hs
    rw [hs] at hstate hread hwrite hdata hack hr' hw'
    cases hwait : j.dmaWaitrequest <;> rw [hwait] at hstate hread hwrite hack
    · constructor <;> simp_all [beq_eq_decide]
    · constructor <;> simp_all [beq_eq_decide]
  | update =>
    rw [hs] at hstate hread hwrite hdata hack hr' hw'
    constructor <;> simp_all [beq_eq_decide]
  | done =>
    rw [hs] at hstate hread hwrite hdata hack hr' hw'
    constructor <;> simp_all [beq_eq_decide]

end I8237

/-! ## The arbiter -/

namespace DmaSystem

variable {s : DmaSystem} {i : DmaIn}

/-- Channel `c` of chip `k` is the one that is granted. -/
structure Arbitrates (s : DmaSystem) (i : DmaIn) (k : Chip) (c : Fin 4) : Prop where
  free : ∀ k, s.busy k = false
  grant : (s.chipIn i k).chReq ≠ 0
  channel : I8237.activeNext (s.chipIn i k) = c
  alone : ∀ k', k' ≠ k → (s.chipIn i k').chReq = 0
  req : (s.chip k).req.getLsbD c.val = true
  cascade : k = .mas → c ≠ 0

theorem chReq_cases (s : DmaSystem) : s.chReq = 0 ∨ s.busy .sla = false ∧ s.busy .mas = false ∧
    ((∃ c : Fin 4, s.sla.req.getLsbD c.val = true ∧ s.chReq = 1#8 <<< c.val) ∨
      ∃ c : Fin 4, c ≠ 0 ∧ s.mas.req.getLsbD c.val = true ∧ s.chReq = 1#8 <<< (c.val + 4)) := by
  generalize hreq : s.chReq = req
  unfold chReq at hreq
  by_cases hbusy : (s.busy .sla || s.busy .mas) = true
  · rw [if_pos hbusy] at hreq
    exact .inl hreq.symm
  · rw [if_neg hbusy] at hreq
    rw [Bool.not_eq_true, Bool.or_eq_false_iff] at hbusy
    obtain ⟨hsla, hmas⟩ := hbusy
    -- the channels in the order of their priority
    split_ifs at hreq with h0 h1 h2 h3 h5 h6 h7
    · exact .inr ⟨hsla, hmas, .inl ⟨0, (Bool.and_eq_true_iff.1 h0).1, hreq.symm⟩⟩
    · exact .inr ⟨hsla, hmas, .inl ⟨1, (Bool.and_eq_true_iff.1 h1).1, hreq.symm⟩⟩
    · exact .inr ⟨hsla, hmas, .inl ⟨2, (Bool.and_eq_true_iff.1 h2).1, hreq.symm⟩⟩
    · exact .inr ⟨hsla, hmas, .inl ⟨3, (Bool.and_eq_true_iff.1 h3).1, hreq.symm⟩⟩
    · exact .inr ⟨hsla, hmas, .inr ⟨1, by decide, (Bool.and_eq_true_iff.1 h5).1, hreq.symm⟩⟩
    · exact .inr ⟨hsla, hmas, .inr ⟨2, by decide, (Bool.and_eq_true_iff.1 h6).1, hreq.symm⟩⟩
    · exact .inr ⟨hsla, hmas, .inr ⟨3, by decide, (Bool.and_eq_true_iff.1 h7).1, hreq.symm⟩⟩
    · exact .inl hreq.symm

/-- In a clock one channel is granted, or none. -/
theorem arbiter (s : DmaSystem) (i : DmaIn) :
    (∀ k, (s.chipIn i k).chReq = 0) ∨ ∃ k c, s.Arbitrates i k c := by
  -- the one-hot request of a chip picks its channel
  have hlow : ∀ c : Fin 4, (1#8 <<< c.val).extractLsb' 0 4 ≠ 0 ∧ (1#8 <<< c.val).extractLsb' 4 4 = 0 ∧
      (1#8 <<< (c.val + 4)).extractLsb' 4 4 = (1#8 <<< c.val).extractLsb' 0 4 ∧
      (1#8 <<< (c.val + 4)).extractLsb' 0 4 = 0 := by decide
  have hpick : ∀ c : Fin 4, (if ((1#8 <<< c.val).extractLsb' 0 4).getLsbD 0 then (0 : Fin 4)
      else if ((1#8 <<< c.val).extractLsb' 0 4).getLsbD 1 then 1
      else if ((1#8 <<< c.val).extractLsb' 0 4).getLsbD 2 then 2
      else 3) = c := by decide
  have hsla : (s.chipIn i .sla).chReq = s.chReq.extractLsb' 0 4 := rfl
  have hmas : (s.chipIn i .mas).chReq = s.chReq.extractLsb' 4 4 := rfl
  rcases s.chReq_cases with h0 | ⟨hs, hm, ⟨c, hreq, hc⟩ | ⟨c, hne, hreq, hc⟩⟩
  · refine .inl fun k => ?_
    cases k
    · rw [hsla, h0]
      rfl
    · rw [hmas, h0]
      rfl
  · refine .inr ⟨.sla, c, ?_, ?_, ?_, ?_, hreq, nofun⟩
    · rintro (_ | _)
      · exact hs
      · exact hm
    · rw [hsla, hc]
      exact (hlow c).1
    · rw [I8237.activeNext, hsla, hc]
      exact hpick c
    · rintro (_ | _) hk
      · exact absurd rfl hk
      · rw [hmas, hc]
        exact (hlow c).2.1
  · refine .inr ⟨.mas, c, ?_, ?_, ?_, ?_, hreq, fun _ => hne⟩
    · rintro (_ | _)
      · exact hs
      · exact hm
    · rw [hmas, hc, (hlow c).2.2.1]
      exact (hlow c).1
    · rw [I8237.activeNext, hmas, hc, (hlow c).2.2.1]
      exact hpick c
    · rintro (_ | _) hk
      · rw [hsla, hc]
        exact (hlow c).2.2.2
      · exact absurd rfl hk

end DmaSystem

/-! ## Operations -/

/-- Both chips. -/
def Chip.all : List Chip := [.sla, .mas]

/-- `{page[7:0], addr}` for the channels of 8 bits, `{page[7:1], addr, 0}` for those of 16 bits. -/
def fullAddress (page : BitVec 8) (addr : BitVec 16) : Chip → BitVec 24
  | .sla => page ++ addr
  | .mas => page.extractLsb' 1 7 ++ (addr ++ 0#1)

namespace DmaSystem

section Definitions

variable (s : DmaSystem) (i : DmaIn)

/-- The operation of the channel that a chip has granted, in the clock after the grant. -/
def op (k : Chip) : MemOp where
  addr := fullAddress (s.page k (s.chip k).active) (s.chip k).actAddress k
  wide := k == .mas
  write := (s.chip k).transfer (s.chip k).active == 1
  data := if (s.chip k).transfer (s.chip k).active == 1 then i.chWritedata k (s.chip k).active else 0

/-- The same from the registers of the chip, until it is on the memory's port. -/
def engineOp (k : Chip) : MemOp where
  addr := fullAddress (s.page k (s.chip k).active) (s.chip k).dmaAddress k
  wide := k == .mas
  write := (s.chip k).transfer (s.chip k).active == 1
  data := (s.chip k).dmaWritedata

/-- What the request registers hold. -/
def memOp : MemOp where
  addr := s.memAddress
  wide := s.mem16bit
  write := s.memWrite
  data := s.memWritedata

/-- The processor writes a register of a channel: its address, its count, its mode, its page or its mask bit. -/
def touches (k : Chip) (c : Fin 4) : Bool :=
  let j := s.chipIn i k
  I8237.writesAddress j c || I8237.writesCounter j c || I8237.writesMode j c || i.writesPage k c ||
    (j.write && (j.address == 0xE || j.address == 0xF || (j.address == 0xA && I8237.selects j c)))

/-- The memory takes the request in the hold register. -/
def performs : Bool := s.heldValid && i.memReady

/-- Channels are programmed for reads or writes, and the processor leaves a transfer that is under way alone. -/
structure Kept : Prop where
  running : i.rstN = true
  programmed : ∀ k, (s.chip k).state = .granted →
    (s.chip k).transfer (s.chip k).active = 1 ∨ (s.chip k).transfer (s.chip k).active = 2
  kept : ∀ k, s.busy k = true → I8237.masterClear (s.chipIn i k) = false
  untouched : ∀ k, s.busy k = true → s.touches i k (s.chip k).active = false

/-- Where a transfer stands, with what the request registers and the hold register have to do with it. -/
def Phase (k : Chip) : Prop :=
  match (s.chip k).state with
  | .granted => s.memRead = false ∧ s.memWrite = false
  | .read => s.memWrite = false ∧ (s.memRead = true → s.heldValid = true)
  | .readWait => s.memWrite = false ∧
      if s.memRead then s.heldValid = false ∧ s.memOp = s.engineOp k else s.held = s.engineOp k
  | .write => s.memRead = false ∧ (s.memWrite = true → s.heldValid = true)
  | .update => s.memRead = false ∧ (s.memWrite = true → s.heldValid = false ∧ s.memOp = s.engineOp k)
  | .done => s.memRead = false ∧ s.memWrite = false
  | _ => False

/-- Chip `k` is at work on a transfer. -/
structure Serving (k : Chip) : Prop where
  busy : s.busy k = true
  alone : ∀ k', k' ≠ k → s.busy k' = false
  channel : k = .mas → (s.chip k).active ≠ 0
  phase : s.Phase k

/-- Chip `k` waits for the answer of the memory, which has taken its read. -/
structure Reading (k : Chip) : Prop where
  state : (s.chip k).state = .readWait
  issued : s.memRead = false
  taken : s.heldValid = false

/-- The operation of chip `k` is not yet in the hold register. -/
def uncaptured (k : Chip) : Bool :=
  match (s.chip k).state with
  | .read | .write => true
  | .readWait => s.memRead
  | .update => s.memWrite
  | _ => false

/-- The transfer of chip `k` is not yet acknowledged. -/
def unacked (k : Chip) : Bool :=
  match (s.chip k).state with
  | .read | .readWait | .write | .update => true
  | _ => false

/-- The operations that are on their way: in the hold register, and in an engine. -/
def inHold : List MemOp := if s.heldValid then [s.held] else []

def inEngine : List MemOp := Chip.all.flatMap fun k => if s.uncaptured k then [s.engineOp k] else []

/-- The channels that are still to be acknowledged. -/
def toAck : List (Chip × Fin 4) := Chip.all.flatMap fun k => if s.unacked k then [(k, (s.chip k).active)] else []

/-! What happens in a clock: the grants, with their operations, the operations of the memory, and the acknowledges. -/

def grants : List (Chip × Fin 4 × MemOp) :=
  Chip.all.flatMap fun k => if (s.chip k).state == .granted then [(k, (s.chip k).active, s.op i k)] else []

def memOps : List MemOp := if s.performs i then [s.held] else []

def acks : List (Chip × Fin 4) :=
  Chip.all.flatMap fun k => ((List.finRange 4).filter (s.chip k).ack).map fun c => (k, c)

/-- No transfer is under way. -/
structure Resting : Prop where
  free : ∀ k, s.busy k = false
  read : s.memRead = false
  write : s.memWrite = false

end Definitions

variable {s : DmaSystem} {i : DmaIn} {k : Chip}

theorem chip_step (s : DmaSystem) (i : DmaIn) (k : Chip) : (s.step i).chip k = (s.chip k).step (s.chipIn i k) := by
  cases k <;> rfl

theorem chipIn_rstN (s : DmaSystem) (i : DmaIn) (k : Chip) : (s.chipIn i k).rstN = i.rstN := by
  cases k <;> rfl

theorem busy_iff : s.busy k = true ↔ (s.chip k).state ≠ .idle := by
  rw [busy, bne_iff_ne]

theorem not_busy_iff : s.busy k = false ↔ (s.chip k).state = .idle := by
  rw [busy, bne_eq_false_iff_eq]

/-- While a transfer is under way no other is granted. -/
theorem no_grant (h : s.busy k = true) (k' : Chip) : (s.chipIn i k').chReq = 0 := by
  rcases s.arbiter i with hno | ⟨_, _, ha⟩
  · exact hno k'
  · rw [ha.free k] at h
    cases h

theorem idle_stays (h : s.busy k = true) (hr : i.rstN = true) {k' : Chip} (hk : s.busy k' = false) :
    (s.step i).busy k' = false := by
  rw [not_busy_iff] at hk ⊢
  rw [chip_step, (I8237.idle_step ((chipIn_rstN s i k').trans hr) hk).1, no_grant h]
  simp

theorem working_step (h : ∀ k, (s.chip k).Working) (hk : s.Kept i) (k : Chip) : ((s.step i).chip k).Working := by
  rw [chip_step]
  have hr : (s.chipIn i k).rstN = true := (chipIn_rstN s i k).trans hk.running
  by_cases hidle : (s.chip k).state = .idle
  · exact I8237.Working.step_idle hr hidle
  · have hmode := hk.untouched k (busy_iff.2 hidle)
    unfold touches at hmode
    simp only [Bool.or_eq_false_iff] at hmode
    exact (h k).step_busy hr hidle (hk.kept k (busy_iff.2 hidle)) hmode.1.1.2 (hk.programmed k)

theorem heldValid_step (hr : i.rstN = true) :
    (s.step i).heldValid = if s.heldValid then !i.memReady else s.memRead || s.memWrite := by
  show (if !i.rstN then false else if s.heldValid && i.memReady then false
    else if (s.memRead || s.memWrite) && !s.heldValid then true else s.heldValid) = _
  rw [hr]
  cases s.heldValid <;> cases i.memReady <;> cases s.memRead <;> cases s.memWrite <;> rfl

theorem held_step (hr : i.rstN = true) :
    (s.step i).held = if !s.heldValid && (s.memRead || s.memWrite) then s.memOp else s.held := by
  have hcaptures : s.captures i = (!s.heldValid && (s.memRead || s.memWrite)) := by
    unfold captures
    cases s.heldValid <;> cases i.memReady <;> cases s.memRead <;> cases s.memWrite <;> rfl
  unfold held step
  simp only [hr, Bool.true_and, hcaptures]
  split <;> rfl

namespace Serving

variable (h : s.Serving k)
include h

theorem memRead_step : (s.step i).memRead = (s.chip k).dmaRead := by
  show (if s.busy .mas then s.mas.dmaRead else if s.busy .sla then s.sla.dmaRead else false) = _
  cases k with
  | sla => rw [h.alone .mas (by simp), h.busy]; rfl
  | mas => rw [h.busy]; rfl

theorem memWrite_step : (s.step i).memWrite = (s.chip k).dmaWrite := by
  show (if s.busy .mas then s.mas.dmaWrite else if s.busy .sla then s.sla.dmaWrite else false) = _
  cases k with
  | sla => rw [h.alone .mas (by simp), h.busy]; rfl
  | mas => rw [h.busy]; rfl

theorem masPage_eq (hk : k = .mas) : s.masPage = (s.page .mas s.mas.active).extractLsb' 1 7 := by
  have hne := h.channel hk
  subst hk
  have hcases : ∀ a : Fin 4, a ≠ 0 → a = 1 ∨ a = 2 ∨ a = 3 := by decide
  unfold masPage
  rcases hcases s.mas.active hne with ha | ha | ha <;> rw [ha] <;> rfl

theorem memOp_step : (s.step i).memOp = { s.engineOp k with write := (s.chip k).dmaWrite } := by
  have hwrite := h.memWrite_step (i := i)
  cases k with
  | sla =>
    have hmas := h.alone .mas (by simp)
    unfold memOp engineOp
    rw [hwrite]
    unfold step
    simp only [hmas, h.busy, Bool.false_eq_true, if_false, if_true]
    rfl
  | mas =>
    unfold memOp engineOp
    rw [hwrite]
    unfold step
    simp only [h.busy, if_true, h.masPage_eq rfl]
    rfl

theorem busy_step (hk : s.Kept i) : ((s.step i).chip k).state = (s.chip k).stateNext (s.chipIn i k) ∧
    ((s.step i).chip k).active = (s.chip k).active := by
  rw [chip_step]
  exact I8237.busy_step ((chipIn_rstN s i k).trans hk.running) (busy_iff.1 h.busy) (hk.kept k h.busy)

theorem page_step (hk : s.Kept i) :
    (s.step i).page k (s.chip k).active = s.page k (s.chip k).active := by
  have hno := hk.untouched k h.busy
  unfold touches at hno
  simp only [Bool.or_eq_false_iff] at hno
  show (if !i.rstN then 0 else if i.writesPage k (s.chip k).active then i.ioWritedata
    else s.page k (s.chip k).active) = _
  rw [hk.running, hno.1.2]
  rfl

theorem transfer_step (hk : s.Kept i) :
    ((s.step i).chip k).transfer (s.chip k).active = (s.chip k).transfer (s.chip k).active := by
  have hno := hk.untouched k h.busy
  unfold touches at hno
  simp only [Bool.or_eq_false_iff] at hno
  rw [chip_step, I8237.transfer_step ((chipIn_rstN s i k).trans hk.running) hno.1.1.2]

/-- The operation stands in the registers of the engine from the clock after the grant on. -/
theorem engineOp_granted (hk : s.Kept i) (hw : (s.chip k).Working) (hs : (s.chip k).state = .granted) :
    (s.step i).engineOp k = s.op i k := by
  have haddr : ((s.step i).chip k).dmaAddress = (s.chip k).actAddress := by
    rw [chip_step]
    show (if (s.chip k).state == .idle then 0 else if (s.chip k).state == .granted then (s.chip k).actAddress
      else (s.chip k).dmaAddress) = _
    rw [hs]
    rfl
  have hdata : ((s.step i).chip k).dmaWritedata =
      if (s.chip k).transfer (s.chip k).active == 1 then i.chWritedata k (s.chip k).active else 0 := by
    rw [chip_step]
    show (if (s.chip k).state == .idle then 0
      else if (s.chip k).state == .granted && (s.chip k).transfer (s.chip k).active == 1
      then (s.chip k).reqData (s.chipIn i k) else (s.chip k).dmaWritedata) = _
    rw [hs, hw.fresh (.inl hs)]
    cases k <;> rfl
  unfold engineOp op
  rw [(h.busy_step hk).2, h.page_step hk, h.transfer_step hk, haddr, hdata]

theorem engineOp_step (hk : s.Kept i) (hs : (s.chip k).state ≠ .granted) :
    (s.step i).engineOp k = s.engineOp k := by
  have hidle : ((s.chip k).state == .idle) = false := beq_eq_false_iff_ne.2 (busy_iff.1 h.busy)
  have hgranted : ((s.chip k).state == .granted) = false := beq_eq_false_iff_ne.2 hs
  have haddr : ((s.step i).chip k).dmaAddress = (s.chip k).dmaAddress := by
    rw [chip_step]
    show (if (s.chip k).state == .idle then 0 else if (s.chip k).state == .granted then (s.chip k).actAddress
      else (s.chip k).dmaAddress) = _
    rw [hidle, hgranted]
    rfl
  have hdata : ((s.step i).chip k).dmaWritedata = (s.chip k).dmaWritedata := by
    rw [chip_step]
    show (if (s.chip k).state == .idle then 0
      else if (s.chip k).state == .granted && (s.chip k).transfer (s.chip k).active == 1
      then (s.chip k).reqData (s.chipIn i k) else (s.chip k).dmaWritedata) = _
    rw [hidle, hgranted]
    rfl
  unfold engineOp
  rw [(h.busy_step hk).2, h.page_step hk, h.transfer_step hk, haddr, hdata]

/-- While a transfer goes on the next clock has only to see to its phase. -/
theorem next (hk : s.Kept i) (hne : (s.chip k).stateNext (s.chipIn i k) ≠ .idle) (hphase : (s.step i).Phase k) :
    (s.step i).Serving k := by
  obtain ⟨hstate, hactive⟩ := h.busy_step hk
  refine ⟨?_, ?_, ?_, hphase⟩
  · rw [busy_iff, hstate]
    exact hne
  · intro k' hk'
    exact idle_stays h.busy hk.running (h.alone k' hk')
  · intro hmas
    rw [hactive]
    exact h.channel hmas

/-- Only the chip that is at work contributes. -/
theorem flatMap_eq {α : Type} {f : Chip → List α} (hf : ∀ k', s.busy k' = false → f k' = []) :
    Chip.all.flatMap f = f k := by
  unfold Chip.all
  cases k with
  | sla => simp [hf .mas (h.alone .mas (by simp))]
  | mas => simp [hf .sla (h.alone .sla (by simp))]

theorem inEngine_eq : s.inEngine = if s.uncaptured k then [s.engineOp k] else [] :=
  h.flatMap_eq fun k' hk' => by rw [uncaptured, not_busy_iff.1 hk']; rfl

theorem toAck_eq : s.toAck = if s.unacked k then [(k, (s.chip k).active)] else [] :=
  h.flatMap_eq fun k' hk' => by rw [unacked, not_busy_iff.1 hk']; rfl

theorem grants_eq : s.grants i =
    if (s.chip k).state == .granted then [(k, (s.chip k).active, s.op i k)] else [] :=
  h.flatMap_eq fun k' hk' => by rw [not_busy_iff.1 hk']; rfl

theorem acks_eq (hw : ∀ k, (s.chip k).Working) :
    s.acks = if (s.chip k).state == .update then [(k, (s.chip k).active)] else [] := by
  have hone : ∀ a : Fin 4, (List.finRange 4).filter (fun c => a == c) = [a] := by decide
  have hfilter : ∀ k, ((List.finRange 4).filter (s.chip k).ack).map (fun c => (k, c)) =
      if (s.chip k).state == .update then [(k, (s.chip k).active)] else [] := by
    intro k
    have hack : (s.chip k).ack = fun c => (s.chip k).state == .update && (s.chip k).active == c := by
      funext c
      rw [I8237.ack, (hw k).ack]
    rw [hack]
    cases hu : (s.chip k).state == .update with
    | false => simp
    | true => simp [hone]
  unfold acks
  simp only [hfilter]
  exact h.flatMap_eq fun k' hk' => by rw [not_busy_iff.1 hk']; rfl

end Serving

/-- A clock in which nothing enters the hold register. -/
theorem inHold_keep (hr : i.rstN = true) (hno : s.heldValid = true ∨ s.memRead = false ∧ s.memWrite = false) :
    s.inHold = s.memOps i ++ (s.step i).inHold := by
  unfold inHold memOps performs
  rw [heldValid_step hr, held_step hr]
  rcases hno with hv | ⟨h1, h2⟩
  · rw [hv]
    cases i.memReady <;> rfl
  · rw [h1, h2]
    cases s.heldValid <;> cases i.memReady <;> rfl

/-- A clock in which an operation enters it. -/
theorem inHold_capture (hr : i.rstN = true) (hv : s.heldValid = false) (hgo : (s.memRead || s.memWrite) = true) :
    s.inHold = [] ∧ s.memOps i = [] ∧ (s.step i).inHold = [s.memOp] := by
  unfold inHold memOps performs
  rw [heldValid_step hr, held_step hr, hv, hgo]
  exact ⟨rfl, rfl, rfl⟩

/-- When the request in an engine need not wait any more, the hold register is free. -/
theorem heldValid_free (hr : i.rstN = true) (hno : s.heldValid = true ∨ s.memRead = false ∧ s.memWrite = false)
    (hfree : s.waitrequest i = false) : (s.step i).heldValid = false := by
  rw [heldValid_step hr]
  unfold waitrequest at hfree
  rcases hno with hv | ⟨h1, h2⟩
  · rw [hv] at hfree ⊢
    exact hfree
  · rw [h1, h2]
    cases hv : s.heldValid with
    | false => rfl
    | true =>
      rw [hv] at hfree
      exact hfree

theorem heldValid_wait (hr : i.rstN = true) (hwait : s.waitrequest i = true) : (s.step i).heldValid = true := by
  obtain ⟨hv, hready⟩ := Bool.and_eq_true_iff.1 hwait
  rw [heldValid_step hr, hv]
  exact hready

namespace Serving

variable (h : s.Serving k) (hw : ∀ k, (s.chip k).Working) (hk : s.Kept i)
include h hw hk

theorem granted_next (hs : (s.chip k).state = .granted) : (s.step i).Serving k ∧ s.uncaptured k = false ∧
    (s.step i).uncaptured k = true ∧ s.inHold = s.memOps i ++ (s.step i).inHold := by
  have hphase := h.phase
  have hread : (s.step i).memRead = false := by rw [h.memRead_step, (hw k).read, hs]; rfl
  have hwrite : (s.step i).memWrite = false := by rw [h.memWrite_step, (hw k).write, hs]; rfl
  rw [Phase, hs] at hphase
  have hnext : (s.chip k).stateNext (s.chipIn i k) = .read ∨ (s.chip k).stateNext (s.chipIn i k) = .write := by
    rw [I8237.stateNext, hs]
    rcases hk.programmed k hs with ht | ht <;> rw [ht]
    · exact .inr rfl
    · exact .inl rfl
  have hstate := (h.busy_step hk).1
  refine ⟨?_, by rw [uncaptured, hs], ?_, inHold_keep hk.running (.inr hphase)⟩
  · rcases hnext with hn | hn
    · refine h.next hk (by rw [hn]; simp) ?_
      rw [Phase, hstate, hn]
      exact ⟨hwrite, fun hm => absurd (hread.symm.trans hm) (by simp)⟩
    · refine h.next hk (by rw [hn]; simp) ?_
      rw [Phase, hstate, hn]
      exact ⟨hread, fun hm => absurd (hwrite.symm.trans hm) (by simp)⟩
  · rcases hnext with hn | hn <;> rw [uncaptured, hstate, hn]

/-- A read stays in the engine until the hold register is free, and is then on the request registers. -/
theorem read_next (hs : (s.chip k).state = .read) : (s.step i).Serving k ∧ s.uncaptured k = true ∧
    (s.step i).uncaptured k = true ∧ s.inHold = s.memOps i ++ (s.step i).inHold := by
  have hphase := h.phase
  have hread : (s.step i).memRead = true := by rw [h.memRead_step, (hw k).read, hs]; rfl
  have hwrite : (s.step i).memWrite = false := by rw [h.memWrite_step, (hw k).write, hs]; rfl
  rw [Phase, hs] at hphase
  have hwait : (s.chipIn i k).dmaWaitrequest = s.waitrequest i := by cases k <;> rfl
  have hnext : (s.chip k).stateNext (s.chipIn i k) = if !s.waitrequest i then .readWait else .read := by
    rw [I8237.stateNext, hs, hwait]
  have hstate := (h.busy_step hk).1
  rw [hnext] at hstate
  have hkeep : s.heldValid = true ∨ s.memRead = false ∧ s.memWrite = false := by
    cases hm : s.memRead with
    | true => exact .inl (hphase.2 hm)
    | false => exact .inr ⟨rfl, hphase.1⟩
  cases hfree : s.waitrequest i with
  | true =>
    rw [hfree] at hstate hnext
    refine ⟨h.next hk (by rw [hnext]; simp) ?_, by rw [uncaptured, hs], by rw [uncaptured, hstate]; rfl,
      inHold_keep hk.running hkeep⟩
    rw [Phase, hstate]
    exact ⟨hwrite, fun _ => heldValid_wait hk.running hfree⟩
  | false =>
    rw [hfree] at hstate hnext
    refine ⟨h.next hk (by rw [hnext]; simp) ?_, by rw [uncaptured, hs], by rw [uncaptured, hstate]; exact hread,
      inHold_keep hk.running hkeep⟩
    rw [Phase, hstate]
    refine ⟨hwrite, ?_⟩
    rw [hread, h.memOp_step, h.engineOp_step hk (by rw [hs]; simp), (hw k).write, hs, engineOp,
      (hw k).reading (.inl hs)]
    exact ⟨heldValid_free hk.running hkeep hfree, rfl⟩

/-- So does a write, which is acknowledged as soon as it leaves the engine. -/
theorem write_next (hs : (s.chip k).state = .write) : (s.step i).Serving k ∧ s.uncaptured k = true ∧
    (s.step i).uncaptured k = true ∧ s.inHold = s.memOps i ++ (s.step i).inHold := by
  have hphase := h.phase
  have hread : (s.step i).memRead = false := by rw [h.memRead_step, (hw k).read, hs]; rfl
  have hwrite : (s.step i).memWrite = true := by rw [h.memWrite_step, (hw k).write, hs]; rfl
  rw [Phase, hs] at hphase
  have hwait : (s.chipIn i k).dmaWaitrequest = s.waitrequest i := by cases k <;> rfl
  have hnext : (s.chip k).stateNext (s.chipIn i k) = if !s.waitrequest i then .update else .write := by
    rw [I8237.stateNext, hs, hwait]
  have hstate := (h.busy_step hk).1
  rw [hnext] at hstate
  have hkeep : s.heldValid = true ∨ s.memRead = false ∧ s.memWrite = false := by
    cases hm : s.memWrite with
    | true => exact .inl (hphase.2 hm)
    | false => exact .inr ⟨hphase.1, rfl⟩
  cases hfree : s.waitrequest i with
  | true =>
    rw [hfree] at hstate hnext
    refine ⟨h.next hk (by rw [hnext]; simp) ?_, by rw [uncaptured, hs], by rw [uncaptured, hstate]; rfl,
      inHold_keep hk.running hkeep⟩
    rw [Phase, hstate]
    exact ⟨hread, fun _ => heldValid_wait hk.running hfree⟩
  | false =>
    rw [hfree] at hstate hnext
    refine ⟨h.next hk (by rw [hnext]; simp) ?_, by rw [uncaptured, hs], by rw [uncaptured, hstate]; exact hwrite,
      inHold_keep hk.running hkeep⟩
    rw [Phase, hstate]
    refine ⟨hread, fun _ => ?_⟩
    rw [h.memOp_step, h.engineOp_step hk (by rw [hs]; simp), (hw k).write, hs, engineOp, (hw k).writing hs]
    exact ⟨heldValid_free hk.running hkeep hfree, rfl⟩

/-- A read that enters the hold register. -/
theorem readWait_issue (hs : (s.chip k).state = .readWait) (hno : i.memRespValid = false) (hm : s.memRead = true) :
    (s.step i).Serving k ∧ (s.step i).uncaptured k = false ∧ s.inHold = [] ∧ s.memOps i = [] ∧
      (s.step i).inHold = [s.engineOp k] := by
  have hphase := h.phase
  have hread : (s.step i).memRead = false := by rw [h.memRead_step, (hw k).read, hs]; rfl
  have hwrite : (s.step i).memWrite = false := by rw [h.memWrite_step, (hw k).write, hs]; rfl
  rw [Phase, hs] at hphase
  dsimp only at hphase
  rw [hm, if_pos rfl] at hphase
  obtain ⟨-, hv, hop⟩ := hphase
  have hvalid : (s.chipIn i k).dmaReaddatavalid = false := by
    have hdef : (s.chipIn i k).dmaReaddatavalid = (i.memRespValid && !s.memWr) := by cases k <;> rfl
    rw [hdef, hno]
    rfl
  have hnext : (s.chip k).stateNext (s.chipIn i k) = .readWait := by
    rw [I8237.stateNext, hs, hvalid]
    rfl
  have hstate := (h.busy_step hk).1
  rw [hnext] at hstate
  have hcapture := inHold_capture hk.running hv (show (s.memRead || s.memWrite) = true by rw [hm]; rfl)
  rw [hop] at hcapture
  refine ⟨h.next hk (by rw [hnext]; simp) ?_, by rw [uncaptured, hstate]; exact hread, hcapture⟩
  rw [Phase, hstate]
  refine ⟨hwrite, ?_⟩
  rw [hread, if_neg (by simp), held_step hk.running, hv, hm, h.engineOp_step hk (by rw [hs]; simp)]
  exact hop

/-- A read that waits for the memory. -/
theorem readWait_wait (hs : (s.chip k).state = .readWait) (hm : s.memRead = false) : (s.step i).Serving k ∧
    (s.step i).uncaptured k = false ∧ s.inHold = s.memOps i ++ (s.step i).inHold := by
  have hphase := h.phase
  have hread : (s.step i).memRead = false := by rw [h.memRead_step, (hw k).read, hs]; rfl
  have hwrite : (s.step i).memWrite = false := by rw [h.memWrite_step, (hw k).write, hs]; rfl
  rw [Phase, hs] at hphase
  dsimp only at hphase
  rw [hm, if_neg (by simp)] at hphase
  obtain ⟨hmw, hheld⟩ := hphase
  have hnext : (s.chip k).stateNext (s.chipIn i k) =
      if (s.chipIn i k).dmaReaddatavalid then .update else .readWait := by
    rw [I8237.stateNext, hs]
  have hstate := (h.busy_step hk).1
  rw [hnext] at hstate
  have hkeep := inHold_keep hk.running (.inr ⟨hm, hmw⟩)
  have hheld' : (s.step i).held = (s.step i).engineOp k := by
    rw [held_step hk.running, hm, hmw, h.engineOp_step hk (by rw [hs]; simp)]
    cases s.heldValid <;> exact hheld
  cases hvalid : (s.chipIn i k).dmaReaddatavalid with
  | true =>
    rw [hvalid] at hstate hnext
    refine ⟨h.next hk (by rw [hnext]; simp) ?_, by rw [uncaptured, hstate]; exact hwrite, hkeep⟩
    rw [Phase, hstate]
    exact ⟨hread, fun hm' => absurd (hwrite.symm.trans hm') (by simp)⟩
  | false =>
    rw [hvalid] at hstate hnext
    refine ⟨h.next hk (by rw [hnext]; simp) ?_, by rw [uncaptured, hstate]; exact hread, hkeep⟩
    rw [Phase, hstate]
    refine ⟨hwrite, ?_⟩
    rw [hread, if_neg (by simp)]
    exact hheld'

theorem update_next (hs : (s.chip k).state = .update) : (s.step i).Serving k ∧ (s.step i).uncaptured k = false ∧
    s.inHold ++ (if s.uncaptured k then [s.engineOp k] else []) = s.memOps i ++ (s.step i).inHold := by
  have hphase := h.phase
  have hread : (s.step i).memRead = false := by rw [h.memRead_step, (hw k).read, hs]; rfl
  have hwrite : (s.step i).memWrite = false := by rw [h.memWrite_step, (hw k).write, hs]; rfl
  rw [Phase, hs] at hphase
  have hnext : (s.chip k).stateNext (s.chipIn i k) = .done := by rw [I8237.stateNext, hs]
  have hstate := (h.busy_step hk).1
  rw [hnext] at hstate
  have hout : s.uncaptured k = s.memWrite := by rw [uncaptured, hs]
  refine ⟨h.next hk (by rw [hnext]; simp) ?_, by rw [uncaptured, hstate], ?_⟩
  · rw [Phase, hstate]
    exact ⟨hread, hwrite⟩
  · rw [hout]
    cases hm : s.memWrite with
    | true =>
      obtain ⟨hv, hop⟩ := hphase.2 hm
      obtain ⟨h1, h2, h3⟩ := inHold_capture hk.running hv (show (s.memRead || s.memWrite) = true by rw [hm]; simp)
      rw [h1, h2, h3, hop]
      rfl
    | false =>
      rw [inHold_keep hk.running (.inr ⟨hphase.1, hm⟩)]
      simp

theorem done_next (hs : (s.chip k).state = .done) : (s.step i).Resting ∧
    s.inHold = s.memOps i ++ (s.step i).inHold := by
  have hphase := h.phase
  rw [Phase, hs] at hphase
  have hstate := (h.busy_step hk).1
  rw [I8237.stateNext, hs] at hstate
  refine ⟨⟨fun k' => ?_, ?_, ?_⟩, inHold_keep hk.running (.inr hphase)⟩
  · by_cases hk' : k' = k
    · rw [hk', not_busy_iff]
      exact hstate
    · exact idle_stays h.busy hk.running (h.alone k' hk')
  · rw [h.memRead_step, (hw k).read, hs]
    rfl
  · rw [h.memWrite_step, (hw k).write, hs]
    rfl

end Serving

namespace Resting

variable (h : s.Resting) (hr : i.rstN = true)
include h hr

/-- A clock without a transfer: one is granted, or not. -/
theorem next : (s.step i).Resting ∨ ∃ k, (s.step i).Serving k ∧ ((s.step i).chip k).state = .granted := by
  have hread : (s.step i).memRead = false := by
    show (if s.busy .mas then s.mas.dmaRead else if s.busy .sla then s.sla.dmaRead else false) = _
    rw [h.free, h.free]
    rfl
  have hwrite : (s.step i).memWrite = false := by
    show (if s.busy .mas then s.mas.dmaWrite else if s.busy .sla then s.sla.dmaWrite else false) = _
    rw [h.free, h.free]
    rfl
  have hstep : ∀ k, ((s.step i).chip k).state =
      if !I8237.masterClear (s.chipIn i k) && (s.chipIn i k).chReq != 0 then .granted else .idle := fun k => by
    rw [chip_step]
    exact (I8237.idle_step ((chipIn_rstN s i k).trans hr) (not_busy_iff.1 (h.free k))).1
  have hno : ∀ k, (s.chipIn i k).chReq = 0 → (s.step i).busy k = false := fun k hzero => by
    rw [not_busy_iff, hstep, hzero]
    simp
  rcases s.arbiter i with hnone | ⟨k, c, ha⟩
  · exact .inl ⟨fun k => hno k (hnone k), hread, hwrite⟩
  · have hother : ∀ k', k' ≠ k → (s.step i).busy k' = false := fun k' hk' => hno k' (ha.alone k' hk')
    cases hclear : I8237.masterClear (s.chipIn i k) with
    | true =>
      refine .inl ⟨fun k' => ?_, hread, hwrite⟩
      by_cases hk' : k' = k
      · rw [hk', not_busy_iff, hstep, hclear]
        rfl
      · exact hother k' hk'
    | false =>
      have hgranted : ((s.step i).chip k).state = .granted := by
        rw [hstep, hclear, bne_iff_ne.2 ha.grant]
        rfl
      have hactive : ((s.step i).chip k).active = c := by
        rw [chip_step] at hgranted ⊢
        rw [(I8237.idle_step ((chipIn_rstN s i k).trans hr) (not_busy_iff.1 (h.free k))).2 hgranted, ha.channel]
      refine .inr ⟨k, ⟨?_, hother, ?_, ?_⟩, hgranted⟩
      · rw [busy_iff, hgranted]
        simp
      · rw [hactive]
        exact ha.cascade
      · rw [Phase, hgranted]
        exact ⟨hread, hwrite⟩

end Resting

end DmaSystem

end Z486.Dma
