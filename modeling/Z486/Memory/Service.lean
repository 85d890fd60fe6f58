/-
Accesses outside SDRAM are served one by one: each request the CPU presents is dispatched from
`IDLE`, acknowledged once, answered by as many responses as it asked for, and leaves the state
machine of `main_memory` in `IDLE` again, whatever the timing of DDR3.

`owed` counts the responses the machine still has to give in a state. An edge outside `IDLE` gives
what it takes from `owed`, and every state but the two that wait for DDR3 moves `rank` down.
-/
import Z486.Clocked.Run
import Z486.Memory.MainMemory

namespace Z486.Memory

open Clocked

/-- The responses a request asks for. -/
def CpuReq.asked (c : CpuReq) : Nat := if c.write then 0 else max 1 c.burstcount.toNat

namespace MainMemory

variable {mailbox : Bool} {s : MainMemory} {i : MainMemoryIn}

/-! ## One edge -/

/-- The responses still to come for the access being served. -/
def owed (s : MainMemory) : Nat :=
  match s.state with
  | .idle | .vgaWrite | .fbWrite | .sharedDrop => 0
  | .vgaRead => 1
  | .unmappedRead => max 1 s.vgaBcnt.toNat
  | .fbRead | .fbReadWait => if s.fbShared then max 1 s.sharedReadLeft.toNat else 1

/-- An upper bound on the clocks to `IDLE` in which the machine does not wait for DDR3. -/
def rank (s : MainMemory) : Nat :=
  match s.state with
  | .idle => 0
  | .fbWrite | .sharedDrop => 1
  | .fbRead => 2 * s.owed + 1
  | .fbReadWait => 2 * s.owed
  | .unmappedRead => s.owed
  | .vgaRead => 2 * s.vgaBcnt.toNat + s.vgaRead.toNat + 1
  | .vgaWrite => 2 * s.vgaBe.toNat + s.vgaWrite.toNat + 1

/-- The machine waits for DDR3 at this edge. -/
def stalled (s : MainMemory) (i : MainMemoryIn) : Bool :=
  match s.state with
  | .fbWrite | .fbRead => i.fbDdramBusy
  | .fbReadWait => !i.fbDdramDoutReady
  | _ => false

/-- What an edge outside `IDLE` does, apart from data: it acknowledges nothing, each response it
gives is one of those owed, and it comes closer to `IDLE` unless it waits. -/
structure Serves (s n : MainMemory) (waits : Bool) : Prop where
  accepted : n.vgaAccepted = false
  owed : n.vgaDoutReady.toNat + n.owed = s.owed
  busy : s.vgaBusy = true → n.vgaBusy = (n.state != .idle)
  wait : waits = true → n.state = s.state ∧ n.rank = s.rank
  go : waits = false → n.rank < s.rank

theorem unmappedRead_serves (h : s.state = .unmappedRead) : Serves s s.unmappedReadNext false := by
  have hlt : s.vgaBcnt.toNat < 8 := s.vgaBcnt.isLt
  unfold unmappedReadNext
  by_cases hb : s.vgaBcnt ≤ 1
  · have h1 : s.vgaBcnt.toNat ≤ 1 := hb
    have ho : s.owed = 1 := by simp only [owed, h]; omega
    simp only [hb, if_true]
    exact ⟨rfl, by simp [owed, h]; omega, fun _ => rfl, by simp, fun _ => by simp [rank, h, ho]⟩
  · have h1 : 1 < s.vgaBcnt.toNat := by
      have h2 : ¬ s.vgaBcnt.toNat ≤ 1 := hb
      omega
    have hsub : (s.vgaBcnt - 1).toNat = s.vgaBcnt.toNat - 1 := by
      rw [BitVec.toNat_sub_of_le (by exact h1.le)]; rfl
    simp only [hb, if_false]
    refine ⟨rfl, ?_, fun hbusy => ?_, by simp, fun _ => ?_⟩
    · simp only [owed, clearPulses, h, hsub, Bool.toNat_true]; omega
    · simp [clearPulses, hbusy, h]
    · simp only [rank, owed, clearPulses, h, hsub]; omega

theorem sharedDrop_serves (h : s.state = .sharedDrop) : Serves s s.sharedDropNext false :=
  ⟨rfl, by simp [sharedDropNext, clearPulses, owed, h], fun _ => rfl, by simp,
    fun _ => by simp [sharedDropNext, rank, h]⟩

theorem fbWrite_serves (h : s.state = .fbWrite) : Serves s (s.fbWriteNext i) i.fbDdramBusy := by
  unfold fbWriteNext
  cases i.fbDdramBusy
  · exact ⟨rfl, by simp [clearPulses, owed, h], fun _ => rfl, by simp, fun _ => by simp [rank, h]⟩
  · exact ⟨rfl, by simp [clearPulses, owed], fun hb => by simp [clearPulses, hb, h],
      fun _ => ⟨rfl, by simp [clearPulses, rank, h]⟩, by simp⟩

theorem fbRead_serves (h : s.state = .fbRead) : Serves s (s.fbReadNext i) i.fbDdramBusy := by
  unfold fbReadNext
  cases i.fbDdramBusy
  · exact ⟨rfl, by simp [clearPulses, owed, h], fun hb => by simp [clearPulses, hb], by simp,
      fun _ => by simp [rank, owed, clearPulses, h]⟩
  · exact ⟨rfl, by simp [clearPulses, owed], fun hb => by simp [clearPulses, hb, h],
      fun _ => ⟨rfl, by simp [clearPulses, rank, owed, h]⟩, by simp⟩

theorem fbReadWait_serves (h : s.state = .fbReadWait) : Serves s (s.fbReadWaitNext i) (!i.fbDdramDoutReady) := by
  unfold fbReadWaitNext
  cases i.fbDdramDoutReady
  · exact ⟨rfl, by simp [clearPulses, owed], fun hb => by simp [clearPulses, hb, h],
      fun _ => ⟨rfl, by simp [clearPulses, rank, owed, h]⟩, by simp⟩
  · by_cases hmore : (s.fbShared && decide (1 < s.sharedReadLeft)) = true
    · obtain ⟨hsh, hl⟩ : s.fbShared = true ∧ 1 < s.sharedReadLeft := by simpa using hmore
      have h1 : 1 < s.sharedReadLeft.toNat := hl
      have hsub : (s.sharedReadLeft - 1).toNat = s.sharedReadLeft.toNat - 1 := by
        rw [BitVec.toNat_sub_of_le (by exact h1.le)]; rfl
      simp only [if_true, hmore]
      refine ⟨rfl, ?_, fun hb => ?_, by simp, fun _ => ?_⟩
      · simp only [clearPulses, owed, h, hsh, hsub, if_true, Bool.toNat_true]; omega
      · simp [clearPulses, hb]
      · simp only [clearPulses, rank, owed, h, hsh, hsub, if_true]; omega
    · have ho : s.owed = 1 := by
        simp only [owed, h]
        cases hsh : s.fbShared
        · rfl
        · have h1 : s.sharedReadLeft.toNat ≤ 1 := by
            have h2 : s.sharedReadLeft ≤ 1 := by simpa [hsh] using hmore
            exact h2
          simp only [if_true]; omega
      simp only [if_true, hmore]
      exact ⟨rfl, by simp [owed, h] at ho ⊢; omega, fun _ => rfl, by simp, fun _ => by simp [rank, h, ho]⟩

theorem vgaRead_serves (h : s.state = .vgaRead) : Serves s (s.vgaReadNext i) false := by
  unfold vgaReadNext
  cases hr : s.vgaRead
  · by_cases hb : s.vgaBcnt = 0
    · simp only [hb, beq_self_eq_true, Bool.not_false, if_true]
      exact ⟨rfl, by simp [owed, h], fun _ => rfl, by simp, fun _ => by simp [rank, h]⟩
    · have hpos : 1 ≤ s.vgaBcnt.toNat := Nat.pos_of_ne_zero fun h0 => hb (BitVec.eq_of_toNat_eq h0)
      have hsub : (s.vgaBcnt - 1).toNat = s.vgaBcnt.toNat - 1 := by
        rw [BitVec.toNat_sub_of_le (by exact hpos)]; rfl
      simp only [beq_eq_false_iff_ne.2 hb, Bool.not_false, if_true, Bool.false_eq_true, if_false]
      refine ⟨rfl, by simp [owed, clearPulses, h], fun hbusy => by simp [clearPulses, hbusy, h], by simp, fun _ => ?_⟩
      have := Bool.toNat_lt (s.vgaBe.getLsbD 0)
      simp only [rank, clearPulses, h, hsub, hr, Bool.toNat_false]
      omega
  · exact ⟨rfl, by simp [owed, clearPulses, h], fun hbusy => by simp [clearPulses, hbusy, h], by simp,
      fun _ => by simp [rank, clearPulses, h, hr]⟩

theorem vgaWrite_serves (h : s.state = .vgaWrite) : Serves s s.vgaWriteNext false := by
  unfold vgaWriteNext
  cases hw : s.vgaWrite
  · by_cases hb : s.vgaBe = 0
    · simp only [hb, beq_self_eq_true, Bool.not_false, if_true]
      exact ⟨rfl, by simp [owed, clearPulses, h], fun _ => rfl, by simp, fun _ => by simp [rank, h]⟩
    · have hpos : 1 ≤ s.vgaBe.toNat := Nat.pos_of_ne_zero fun h0 => hb (BitVec.eq_of_toNat_eq h0)
      have hshift : ∀ be : BitVec 4, (0#1 ++ be.extractLsb' 1 3).toNat = be.toNat / 2 := by decide
      simp only [beq_eq_false_iff_ne.2 hb, Bool.not_false, if_true, Bool.false_eq_true, if_false]
      refine ⟨rfl, by simp [owed, clearPulses, h], fun hbusy => by simp [clearPulses, hbusy, h], by simp, fun _ => ?_⟩
      have := Bool.toNat_lt (s.vgaBe.getLsbD 0)
      simp only [rank, clearPulses, h, hshift, hw, Bool.toNat_false]
      omega
  · exact ⟨rfl, by simp [owed, clearPulses, h], fun hbusy => by simp [clearPulses, hbusy, h], by simp,
      fun _ => by simp [rank, clearPulses, h, hw]⟩

/-- Every edge outside `IDLE` serves the access it is in. -/
theorem step_serves (hr : i.reset = false) (h : s.state ≠ .idle) : Serves s (s.step mailbox i) (s.stalled i) := by
  have hn : Serves s (s.next mailbox i) (s.stalled i) := by
    unfold next stalled
    cases hs : s.state with
    | idle => exact absurd hs h
    | vgaRead => exact vgaRead_serves hs
    | vgaWrite => exact vgaWrite_serves hs
    | fbWrite => exact fbWrite_serves hs
    | fbRead => exact fbRead_serves hs
    | fbReadWait => exact fbReadWait_serves hs
    | unmappedRead => exact unmappedRead_serves hs
    | sharedDrop => exact sharedDrop_serves hs
  rw [step_of_not_reset hr]
  exact ⟨hn.accepted, hn.owed, hn.busy, hn.wait, hn.go⟩

/-! ## Dispatch -/

/-- The part of `cpu_ready` that acknowledges unmapped accesses in the clock they are presented. -/
def unmappedReady (mailbox : Bool) (s : MainMemory) (i : MainMemoryIn) : Bool :=
  i.cpu.valid && !s.vgaRgn i && !i.cpu.lfbRgn && !i.cpu.sharedRgn mailbox &&
    !ramAddressInRange i.cpu.addr i.ramSize && s.state == .idle

/-- What the dispatch of a request does, apart from data: it acknowledges the request now or in
the next clock, and owes the responses asked for. -/
structure Dispatches (c : CpuReq) (ready : Bool) (n : MainMemory) : Prop where
  quiet : n.vgaDoutReady = false
  owed : n.owed = c.asked
  ready : (ready = true ∧ n.vgaAccepted = false) ∨ (ready = false ∧ n.vgaAccepted = true ∧ n.state ≠ .idle)
  busy : n.vgaBusy = (n.state != .idle)

theorem bcnt_toNat {c : CpuReq} (h : c.burstcount.toNat ≤ 7) : c.bcnt.toNat = max 1 c.burstcount.toNat := by
  unfold CpuReq.bcnt
  by_cases h0 : c.burstcount = 0
  · simp [h0]
  · have hpos : 1 ≤ c.burstcount.toNat := Nat.pos_of_ne_zero fun h => h0 (BitVec.eq_of_toNat_eq h)
    rw [if_neg (by simpa using h0), BitVec.extractLsb'_toNat, Nat.shiftRight_zero,
      Nat.mod_eq_of_lt (by omega), max_eq_right hpos]

theorem acceptShared_dispatches {c : CpuReq} (hc : c.write = false → c.burstcount.toNat ≤ 7)
    (hq : s.vgaDoutReady = false) : Dispatches c false (s.acceptShared c) := by
  unfold acceptShared
  cases hw : c.write
  · by_cases hl : (!s.sharedEnabled && !c.sharedUnlock) = true
    · simp only [hl, if_true, Bool.false_eq_true, if_false]
      exact ⟨hq, by simp [owed, CpuReq.asked, hw, bcnt_toNat (hc hw)], .inr ⟨rfl, rfl, by simp⟩, rfl⟩
    · simp only [hl, Bool.false_eq_true, if_false]
      refine ⟨hq, ?_, .inr ⟨rfl, rfl, by simp⟩, rfl⟩
      simp only [owed, CpuReq.asked, hw, if_true, Bool.false_eq_true, if_false]
      by_cases h0 : c.burstcount = 0#8 <;> simp [h0]
  · by_cases hl : (!s.sharedEnabled && !c.sharedUnlock) = true
    · simp only [hl, if_true]
      exact ⟨hq, by simp [owed, CpuReq.asked, hw], .inr ⟨rfl, rfl, by simp⟩, rfl⟩
    · simp only [hl, Bool.false_eq_true, if_false, if_true]
      exact ⟨hq, by simp [owed, CpuReq.asked, hw], .inr ⟨rfl, rfl, by simp⟩, rfl⟩

theorem acceptLinear_dispatches {c : CpuReq} (hc : c.write = false → c.burstcount.toNat ≤ 1)
    (hq : s.vgaDoutReady = false) (hsh : s.fbShared = false) : Dispatches c false (s.acceptLinear c) := by
  unfold acceptLinear
  cases hw : c.write
  · refine ⟨hq, ?_, .inr ⟨rfl, rfl, by simp⟩, rfl⟩
    have := hc hw
    simp [owed, CpuReq.asked, hw, hsh]; omega
  · exact ⟨hq, by simp [owed, CpuReq.asked, hw], .inr ⟨rfl, rfl, by simp⟩, rfl⟩

theorem acceptVga_dispatches {c : CpuReq} {v : VgaModeIn} (hc : c.write = false → c.burstcount.toNat ≤ 1)
    (hq : s.vgaDoutReady = false) (hsh : s.fbShared = false) : Dispatches c false (s.acceptVga c v) := by
  unfold acceptVga acceptBanked
  cases hw : c.write
  · have hask : c.asked = 1 := by
      have := hc hw
      simp [CpuReq.asked, hw]; omega
    cases hfb : v.fbEn
    · exact ⟨hq, by simp [owed, hask], .inr ⟨rfl, rfl, by simp⟩, rfl⟩
    · exact ⟨hq, by simp [owed, hsh, hask], .inr ⟨rfl, rfl, by simp⟩, rfl⟩
  · have hask : c.asked = 0 := by simp [CpuReq.asked, hw]
    cases hfb : v.fbEn
    · simp only [Bool.false_eq_true, Bool.not_true, if_false]
      split
      all_goals exact ⟨hq, by simp [owed, hask], .inr ⟨rfl, rfl, by simp⟩, rfl⟩
    · simp only [if_true, Bool.not_true, Bool.false_eq_true, if_false]
      split
      all_goals exact ⟨hq, by simp [owed, hask], .inr ⟨rfl, rfl, by simp⟩, rfl⟩

/-- What the dispatch knows of a request in each class. -/
def AccessIs (mailbox : Bool) (s : MainMemory) (i : MainMemoryIn) : Access → Prop
  | .shared => i.cpu.sharedRgn mailbox = true
  | .unmappedRead => i.cpu.sharedRgn mailbox = false ∧ i.cpu.write = false ∧ s.vgaRgn i = false ∧
      i.cpu.lfbRgn = false ∧ ramAddressInRange i.cpu.addr i.ramSize = false
  | .vgaBurst => i.cpu.write = false ∧ (s.vgaRgn i = true ∨ i.cpu.lfbRgn = true)
  | .linear => i.cpu.lfbRgn = true ∧ (i.cpu.write = false → i.cpu.burstcount.toNat ≤ 1)
  | .vga => s.vgaRgn i = true ∧ (i.cpu.write = false → i.cpu.burstcount.toNat ≤ 1)
  | .none => i.cpu.sharedRgn mailbox = false ∧ s.vgaRgn i = false ∧ i.cpu.lfbRgn = false ∧
      (i.cpu.write = true ∨ ramAddressInRange i.cpu.addr i.ramSize = true)

theorem access_is (hv : i.cpu.valid = true) : AccessIs mailbox s i (s.access mailbox i) := by
  have hle : (i.cpu.burstcount ≤ 1#8) = (i.cpu.burstcount.toNat ≤ 1) := rfl
  unfold access
  simp only [hv, Bool.true_and]
  split_ifs with h1 h2 h3 h4 h5
  all_goals simp_all [AccessIs]
  exact (Bool.eq_false_or_eq_true i.cpu.write).imp_right h2

/-- A request outside SDRAM is dispatched in the first clock of `IDLE` it is presented in. -/
theorem idle_dispatches (hs : s.state = .idle) (hb : s.vgaBusy = false) (hv : i.cpu.valid = true)
    (hm : s.memValid mailbox i = false) (hc : i.cpu.write = false → i.cpu.burstcount.toNat ≤ 7) :
    Dispatches i.cpu (s.unmappedReady mailbox i) (s.idle mailbox i) := by
  have hacc : AccessIs mailbox s i (s.access mailbox i) := access_is hv
  cases ha : s.access mailbox i with
  | shared =>
    simp only [ha, AccessIs] at hacc
    have hu : s.unmappedReady mailbox i = false := by simp [unmappedReady, hacc]
    simp only [idle, ha, hu]
    exact acceptShared_dispatches hc prepare_vgaDoutReady
  | unmappedRead =>
    simp only [ha, AccessIs] at hacc
    obtain ⟨hsh, hw, hvr, hl, hr⟩ := hacc
    have hu : s.unmappedReady mailbox i = true := by simp [unmappedReady, hv, hsh, hvr, hl, hr, hs]
    simp only [idle, ha, hu]
    exact ⟨prepare_vgaDoutReady, by simp [owed, CpuReq.asked, hw, bcnt_toNat (hc hw)],
      .inl ⟨rfl, prepare_vgaAccepted⟩, rfl⟩
  | vgaBurst =>
    simp only [ha, AccessIs] at hacc
    obtain ⟨hw, hr⟩ := hacc
    have hu : s.unmappedReady mailbox i = false := by
      rcases hr with hr | hr <;> simp [unmappedReady, hr]
    have hc := hc hw
    simp only [idle, ha, hu]
    refine ⟨prepare_vgaDoutReady, ?_, .inr ⟨rfl, rfl, by simp⟩, rfl⟩
    simp only [owed, CpuReq.asked, hw, BitVec.extractLsb'_toNat, Nat.shiftRight_zero, Bool.false_eq_true, if_false]
    rw [Nat.mod_eq_of_lt (by omega)]
  | linear =>
    simp only [ha, AccessIs] at hacc
    have hu : s.unmappedReady mailbox i = false := by simp [unmappedReady, hacc.1]
    simp only [idle, ha, hu]
    exact acceptLinear_dispatches hacc.2 prepare_vgaDoutReady prepare_fbShared
  | vga =>
    simp only [ha, AccessIs] at hacc
    have hu : s.unmappedReady mailbox i = false := by simp [unmappedReady, hacc.1]
    simp only [idle, ha, hu]
    exact acceptVga_dispatches hacc.2 prepare_vgaDoutReady prepare_fbShared
  | none =>
    -- only a write can be left: a read in range would be for SDRAM
    simp only [ha, AccessIs] at hacc
    obtain ⟨hsh, hvr, hl, hw⟩ := hacc
    have hr : ramAddressInRange i.cpu.addr i.ramSize = false := by
      simpa [memValid, hv, hvr, hsh, hb] using hm
    have hw : i.cpu.write = true := hw.resolve_right (by simp [hr])
    have hu : s.unmappedReady mailbox i = true := by simp [unmappedReady, hv, hsh, hvr, hl, hr, hs]
    simp only [idle, ha, hu]
    exact ⟨prepare_vgaDoutReady, by simp [owed, hs, CpuReq.asked, hw], .inl ⟨rfl, prepare_vgaAccepted⟩,
      by simp [hs, hb]⟩

/-- Without a request `IDLE` stays as it is and answers nothing. -/
theorem idle_of_not_valid (hv : i.cpu.valid = false) : s.idle mailbox i = s.prepare i := by
  have ha : s.access mailbox i = .none := by simp [access, hv]
  simp only [idle, ha]

end MainMemory

/-! ## Runs -/

/-- A run of `main_memory` from reset on. -/
structure ServiceRun where
  mailbox : Bool
  start : MainMemory
  inp : Nat → MainMemoryIn

namespace ServiceRun

variable (R : ServiceRun)

/-- The registers in clock `t`. -/
def regs (t : Nat) : MainMemory := run (MainMemory.step R.mailbox) R.start.reset R.inp t

def cpu (t : Nat) : CpuReq := (R.inp t).cpu

def ready (t : Nat) : Bool := (R.regs t).cpuReady R.mailbox (R.inp t)

def resp (t : Nat) : Bool := (R.regs t).cpuRespValid (R.inp t)

/-- What the rest of the system promises on a run of accesses outside SDRAM: the CPU holds a request
until it is acknowledged and asks for at most seven dwords; SDRAM, never asked, answers nothing; DDR3
is not busy for ever and answers the reads it accepted. -/
structure Outside : Prop where
  noReset : ∀ t, (R.inp t).reset = false
  held : ∀ t, (R.cpu t).valid = true → R.ready t = false → R.cpu (t + 1) = R.cpu t
  burst : ∀ t, (R.cpu t).valid = true → (R.cpu t).write = false → (R.cpu t).burstcount.toNat ≤ 7
  notSdram : ∀ t, (R.regs t).memValid R.mailbox (R.inp t) = false
  sdramQuiet : ∀ t, (R.inp t).memReady = false ∧ (R.inp t).memRespValid = false
  ddrAccepts : ∀ t, ∃ u, t ≤ u ∧ (R.inp u).fbDdramBusy = false
  ddrAnswers : ∀ t, (R.regs t).state = .fbReadWait → ∃ u, t ≤ u ∧ (R.inp u).fbDdramDoutReady = true

/-- The CPU presents a new request in clock `a`. -/
def Starts (a : Nat) : Prop :=
  (R.cpu a).valid = true ∧ ∀ k, a = k + 1 → (R.cpu k).valid = false ∨ R.ready k = true

/-- The request presented in clock `a` is dispatched in clock `d` and acknowledged in clock `r`, and
the machine is in `IDLE` again in clock `b`. -/
structure Served (a d r b : Nat) : Prop where
  order : a ≤ d ∧ d ≤ r ∧ r < b
  same : ∀ u, a ≤ u → u ≤ r → R.cpu u = R.cpu a
  dispatched : (R.regs d).state = .idle
  alone : ∀ u, d < u → u < b → (R.regs u).vgaBusy = true
  acknowledged : R.ready r = true ∧ pulses R.ready a b = 1
  answered : pulses R.resp (d + 1) (b + 1) = (R.cpu a).asked
  idleAgain : (R.regs b).state = .idle ∧ (R.regs b).vgaBusy = false

variable {R}

theorem regs_succ (t : Nat) : R.regs (t + 1) = (R.regs t).step R.mailbox (R.inp t) := rfl

namespace Outside

variable (h : R.Outside)
include h

theorem serves {t : Nat} (ht : (R.regs t).state ≠ .idle) :
    MainMemory.Serves (R.regs t) (R.regs (t + 1)) ((R.regs t).stalled (R.inp t)) :=
  MainMemory.step_serves (h.noReset t) ht

/-- The registers after a clock of `IDLE`, apart from the window. -/
theorem regs_succ_idle {t : Nat} (ht : (R.regs t).state = .idle) :
    R.regs (t + 1) = ((R.regs t).idle R.mailbox (R.inp t)).setWindow (R.inp t).vga.memmode := by
  rw [regs_succ, MainMemory.step_of_not_reset (h.noReset t)]
  simp only [MainMemory.next, ht]

theorem dispatches {t : Nat} (ht : (R.regs t).state = .idle) (hb : (R.regs t).vgaBusy = false)
    (hv : (R.cpu t).valid = true) :
    MainMemory.Dispatches (R.cpu t) ((R.regs t).unmappedReady R.mailbox (R.inp t)) (R.regs (t + 1)) := by
  have hd := MainMemory.idle_dispatches ht hb hv (h.notSdram t) (h.burst t hv)
  rw [h.regs_succ_idle ht]
  exact ⟨hd.quiet, hd.owed, hd.ready, hd.busy⟩

/-- Without a request `IDLE` is left neither busy nor with anything to answer. -/
theorem rests {t : Nat} (ht : (R.regs t).state = .idle) (hv : (R.cpu t).valid = false) :
    (R.regs (t + 1)).state = .idle ∧ (R.regs (t + 1)).vgaBusy = (R.regs t).vgaBusy ∧
      (R.regs (t + 1)).vgaAccepted = false ∧ (R.regs (t + 1)).vgaDoutReady = false := by
  rw [h.regs_succ_idle ht, MainMemory.idle_of_not_valid hv]
  exact ⟨by simp [MainMemory.setWindow, ht], by simp [MainMemory.setWindow], MainMemory.prepare_vgaAccepted,
    MainMemory.prepare_vgaDoutReady⟩

/-- `vga_busy` is high exactly outside `IDLE`, where alone a request is acknowledged late. -/
theorem busy_iff (t : Nat) : (R.regs t).vgaBusy = ((R.regs t).state != .idle) ∧
    ((R.regs t).state = .idle → (R.regs t).vgaAccepted = false) := by
  induction t with
  | zero => exact ⟨rfl, fun _ => rfl⟩
  | succ t ih =>
    by_cases hs : (R.regs t).state = .idle
    · have hb : (R.regs t).vgaBusy = false := by rw [ih.1, hs]; rfl
      cases hv : (R.cpu t).valid
      · obtain ⟨h1, h2, h3, -⟩ := h.rests hs hv
        exact ⟨by rw [h1, h2, hb]; rfl, fun _ => h3⟩
      · have hd := h.dispatches hs hb hv
        refine ⟨hd.busy, fun hn => ?_⟩
        rcases hd.ready with ⟨-, hacc⟩ | ⟨-, -, hne⟩
        · exact hacc
        · exact absurd hn hne
    · have hsv := h.serves hs
      have hb : (R.regs t).vgaBusy = true := by rw [ih.1]; simpa using hs
      exact ⟨hsv.busy hb, fun _ => hsv.accepted⟩

theorem busy_of {t : Nat} (ht : (R.regs t).state ≠ .idle) : (R.regs t).vgaBusy = true := by
  rw [(h.busy_iff t).1]; simpa using ht

theorem not_busy_of {t : Nat} (ht : (R.regs t).state = .idle) : (R.regs t).vgaBusy = false := by
  rw [(h.busy_iff t).1, ht]; rfl

theorem ready_eq (t : Nat) :
    R.ready t = ((R.regs t).vgaAccepted || (R.regs t).unmappedReady R.mailbox (R.inp t)) := by
  simp only [ready, MainMemory.cpuReady, (h.sdramQuiet t).1, Bool.false_or, MainMemory.unmappedReady]

theorem resp_eq (t : Nat) : R.resp t = (R.regs t).vgaDoutReady := by
  simp only [resp, MainMemory.cpuRespValid, (h.sdramQuiet t).2, Bool.false_or]

theorem ready_of_busy {t : Nat} (ht : (R.regs t).state ≠ .idle) : R.ready t = (R.regs t).vgaAccepted := by
  have hs : ((R.regs t).state == .idle) = false := by simpa using ht
  rw [h.ready_eq, MainMemory.unmappedReady, hs, Bool.and_false, Bool.or_false]

/-- No wait is for ever. -/
theorem stall_ends (t : Nat) :
    ∃ u, t ≤ u ∧ ((R.regs u).state = .idle ∨ ¬ (R.regs u).stalled (R.inp u) = true) := by
  by_contra hall
  push Not at hall
  -- a wait for ever would be one in the same state
  have hst : ∀ v, t ≤ v → (R.regs v).state = (R.regs t).state := by
    intro v hv
    induction v, hv using Nat.le_induction with
    | base => rfl
    | succ v hv ih => rw [((h.serves (hall v hv).1).wait (hall v hv).2).1, ih]
  have hstall : ∀ v, t ≤ v → (R.regs v).stalled (R.inp v) = true := fun v hv => (hall v hv).2
  simp only [MainMemory.stalled] at hstall
  cases hs : (R.regs t).state with
  | fbWrite =>
    obtain ⟨v, hv, hf⟩ := h.ddrAccepts t
    exact absurd (hstall v hv) (by simp [hst v hv, hs, hf])
  | fbRead =>
    obtain ⟨v, hv, hf⟩ := h.ddrAccepts t
    exact absurd (hstall v hv) (by simp [hst v hv, hs, hf])
  | fbReadWait =>
    obtain ⟨v, hv, hf⟩ := h.ddrAnswers t hs
    exact absurd (hstall v hv) (by simp [hst v hv, hs, hf])
  | idle | vgaRead | vgaWrite | unmappedRead | sharedDrop => exact absurd (hstall t le_rfl) (by simp [hs])

/-- Every access ends: DDR3 is the only thing the machine waits for. -/
theorem exists_idle (t : Nat) : ∃ b, t ≤ b ∧ (R.regs b).state = .idle := by
  have hwait : ∀ u, ¬ (R.regs u).state = .idle → (R.regs u).stalled (R.inp u) = true →
      (R.regs (u + 1)).rank ≤ (R.regs u).rank := fun u hu hw => ((h.serves hu).wait hw).2.le
  have hgo : ∀ u, ¬ (R.regs u).state = .idle → ¬ (R.regs u).stalled (R.inp u) = true →
      (R.regs (u + 1)).rank < (R.regs u).rank := fun u hu hw => (h.serves hu).go (by simpa using hw)
  exact exists_of_progress (fun u => (R.regs u).rank) hwait hgo h.stall_ends t

/-- From a clock outside `IDLE` to the next one in it the machine gives what it owes and
acknowledges nothing. -/
theorem drain {u b : Nat} (hub : u ≤ b) (hbusy : ∀ v, u ≤ v → v < b → (R.regs v).state ≠ .idle) :
    pulses R.resp (u + 1) (b + 1) + (R.regs b).owed = (R.regs u).owed ∧
      ∀ v, u < v → v ≤ b → (R.regs v).vgaAccepted = false := by
  induction b, hub using Nat.le_induction with
  | base => exact ⟨by simp, fun v h1 h2 => by omega⟩
  | succ b hub ih =>
    obtain ⟨h1, h2⟩ := ih fun v hv hlt => hbusy v hv (by omega)
    have hsv := h.serves (hbusy b hub (by omega))
    refine ⟨?_, fun v hv hle => ?_⟩
    · rw [pulses_succ R.resp (by omega), h.resp_eq, ← h1, ← hsv.owed]
      cases (R.regs (b + 1)).vgaDoutReady
      · simp
      · simp only [Bool.toNat_true, if_true]; omega
    · rcases Nat.lt_or_ge v (b + 1) with hlt | hge
      · exact h2 v hv (by omega)
      · rw [show v = b + 1 by omega]
        exact hsv.accepted

/-- A new request finds no acknowledge of an earlier one. -/
theorem starts_quiet {a : Nat} (ha : R.Starts a) : (R.regs a).vgaAccepted = false := by
  cases a with
  | zero => rfl
  | succ k =>
    by_cases hs : (R.regs k).state = .idle
    · cases hv : (R.cpu k).valid
      · exact (h.rests hs hv).2.2.1
      · have hr : R.ready k = true := (ha.2 k rfl).resolve_left (by simp [hv])
        rw [h.ready_eq, (h.busy_iff k).2 hs, Bool.false_or] at hr
        have hd := (h.dispatches hs (h.not_busy_of hs) hv).ready
        rw [hr] at hd
        rcases hd with ⟨-, hacc⟩ | ⟨hf, -⟩
        · exact hacc
        · exact absurd hf (by simp)
    · exact (h.serves hs).accepted

section Request

variable {a d : Nat} (ha : R.Starts a) (had : a ≤ d) (hwait : ∀ u, a ≤ u → u < d → (R.regs u).state ≠ .idle)
include ha had hwait

/-- Until it is dispatched the request waits for the access before it. -/
theorem quiet_until {u : Nat} (hu : a ≤ u) (hud : u < d) : R.ready u = false := by
  rw [h.ready_of_busy (hwait u hu hud)]
  rcases Nat.eq_or_lt_of_le hu with rfl | hlt
  · exact h.starts_quiet ha
  · exact (h.drain had hwait).2 u hlt hud.le

theorem same_until {u : Nat} (hu : a ≤ u) (hud : u ≤ d) : R.cpu u = R.cpu a := by
  induction u, hu using Nat.le_induction with
  | base => rfl
  | succ u hu ih =>
    have hu' := ih (by omega)
    rw [h.held u (by rw [hu']; exact ha.1) (h.quiet_until ha had hwait hu (by omega)), hu']

end Request

section Access

variable {d b : Nat} (hd : (R.regs d).state = .idle) (hv : (R.cpu d).valid = true) (hdb : d + 1 ≤ b)
  (hb : (R.regs b).state = .idle) (hbusy : ∀ u, d + 1 ≤ u → u < b → (R.regs u).state ≠ .idle)
include hd hv hdb hb hbusy

/-- From the dispatch on what the request asks for drains. -/
theorem answers_dispatched : pulses R.resp (d + 1) (b + 1) = (R.cpu d).asked := by
  have hdisp := h.dispatches hd (h.not_busy_of hd) hv
  have hresp := (h.drain hdb hbusy).1
  have h0 : R.resp (d + 1) = false := by rw [h.resp_eq, hdisp.quiet]
  have hob : (R.regs b).owed = 0 := by simp only [MainMemory.owed, hb]
  have hod := hdisp.owed
  rw [pulses_add R.resp (show d + 1 ≤ d + 1 + 1 by omega) (by omega), pulses_succ R.resp (le_refl (d + 1)), h0]
  simp only [pulses_self, Bool.false_eq_true, if_false]
  omega

/-- The acknowledge comes in the clock of the dispatch or in the next one, and not again. -/
theorem ready_dispatched : ∃ r, (r = d ∨ r = d + 1) ∧ r < b ∧ R.ready r = true ∧
    ∀ u, d ≤ u → u < b → u ≠ r → R.ready u = false := by
  have hready : R.ready d = (R.regs d).unmappedReady R.mailbox (R.inp d) := by
    rw [h.ready_eq, (h.busy_iff d).2 hd, Bool.false_or]
  have hlate : ∀ v, d + 1 < v → v < b → R.ready v = false := by
    intro v hv hvb
    rw [h.ready_of_busy (hbusy v (by omega) hvb)]
    exact (h.drain hdb hbusy).2 v hv (by omega)
  rcases (h.dispatches hd (h.not_busy_of hd) hv).ready with ⟨hnow, hnext⟩ | ⟨hnow, hnext, hne⟩
  · refine ⟨d, .inl rfl, hdb, by rw [hready, hnow], fun u h1 h2 h3 => ?_⟩
    rcases Nat.eq_or_lt_of_le (show d + 1 ≤ u by omega) with rfl | hlt
    · rw [h.ready_of_busy (hbusy _ le_rfl h2), hnext]
    · exact hlate u hlt h2
  · have hdb' : d + 1 < b := by
      rcases Nat.eq_or_lt_of_le hdb with heq | hlt
      · exact absurd (heq ▸ hb) hne
      · exact hlt
    refine ⟨d + 1, .inr rfl, hdb', by rw [h.ready_eq, hnext, Bool.true_or], fun u h1 h2 h3 => ?_⟩
    rcases Nat.eq_or_lt_of_le h1 with rfl | hlt
    · rw [hready, hnow]
    · exact hlate u (by omega) h2

end Access

end Outside

/-- Each request outside SDRAM is served once: one acknowledge, as many responses as it asks for, and
back to `IDLE`; and clocks in which no access is served bring neither. -/
theorem served_once (h : R.Outside) :
    (∀ a, R.Starts a → ∃ d r b, R.Served a d r b) ∧
      ∀ t, (R.regs t).state = .idle → (R.cpu t).valid = false →
        R.ready t = false ∧ R.resp (t + 1) = false ∧ (R.regs (t + 1)).state = .idle := by
  refine ⟨fun a ha => ?_, fun t hs hv => ?_⟩
  · -- the access before it ends in clock `d`, its own in clock `b`
    obtain ⟨d, had, hd, hwait⟩ := exists_first (h.exists_idle a)
    obtain ⟨b, hdb, hb, hbusy⟩ := exists_first (h.exists_idle (d + 1))
    have hsame : ∀ u, a ≤ u → u ≤ d → R.cpu u = R.cpu a := fun u => h.same_until ha had hwait
    have hvd : (R.cpu d).valid = true := by rw [hsame d had le_rfl]; exact ha.1
    obtain ⟨r, hrd, hrb, hr, hother⟩ := h.ready_dispatched hd hvd hdb hb hbusy
    refine ⟨d, r, b, ⟨had, by omega, hrb⟩, fun u h1 h2 => ?_, hd, fun u h1 h2 => h.busy_of (hbusy u h1 h2), ⟨hr, ?_⟩,
      ?_, hb, h.not_busy_of hb⟩
    · rcases Nat.lt_or_ge d u with hlt | hle
      · obtain ⟨rfl, rfl⟩ : u = d + 1 ∧ r = d + 1 := by omega
        rw [h.held d hvd (hother d le_rfl (by omega) (by omega)), hsame d had le_rfl]
      · exact hsame u h1 hle
    · refine pulses_eq_one (by omega) hrb hr fun u h1 h2 h3 => ?_
      rcases Nat.lt_or_ge u d with hlt | hge
      · exact h.quiet_until ha had hwait h1 hlt
      · exact hother u hge h2 h3
    · rw [h.answers_dispatched hd hvd hdb hb hbusy, hsame d had le_rfl]
  · have hrest := h.rests hs hv
    refine ⟨?_, by rw [h.resp_eq, hrest.2.2.2], hrest.1⟩
    have hu : (R.regs t).unmappedReady R.mailbox (R.inp t) = false := by
      have hv' : (R.inp t).cpu.valid = false := hv
      simp [MainMemory.unmappedReady, hv']
    rw [h.ready_eq, hu, (h.busy_iff t).2 hs, Bool.false_or]

/-- Line fills of four dwords from above the RAM, one after the other, with DDR3 always ready. -/
def lineFills : ServiceRun where
  mailbox := true
  start := .cleared
  inp := fun _ =>
    { reset := false, cpu := ⟨true, false, 0x02000000, 0, 0xF, 4⟩, ramSize := 0, memDout := 0, memRespValid := false
      memReady := false, vgaReaddata := 0, vga := ⟨4, false, 0, 0, false, false, 0, 0, 0⟩, fbDdramDout := 0
      fbDdramDoutReady := true, fbDdramBusy := false }

theorem lineFills_served : ∃ d r b, lineFills.Served 0 d r b := by
  have hrange : ramAddressInRange 0x02000000 0 = false := by decide
  refine (served_once (R := lineFills) ⟨fun _ => rfl, fun _ _ _ => rfl, fun t _ _ => ?_, fun t => ?_,
    fun _ => ⟨rfl, rfl⟩, fun t => ⟨t, le_rfl, rfl⟩, fun t _ => ⟨t, le_rfl, rfl⟩⟩).1 0 ⟨rfl, fun k hk => by omega⟩
  · show (4#8).toNat ≤ 7
    decide
  · simp only [MainMemory.memValid, lineFills, hrange, Bool.and_false]

end ServiceRun

end Z486.Memory
