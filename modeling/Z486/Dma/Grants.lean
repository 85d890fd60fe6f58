/-
The runs of the DMA system: the operations that the memory performs are those of the grants, one for each and in their
order, and so are the acknowledges; whatever its latency, the memory comes to perform every one.
-/
import Z486.Dma.Transfers

namespace Z486.Dma

open Clocked

/-! ## A clock of any stage -/

namespace DmaSystem

variable {s : DmaSystem} {i : DmaIn}

/-- The read of chip `k` is in the hold register, or has left it. -/
def Waiting (s : DmaSystem) (k : Chip) : Prop := (s.chip k).state = .readWait ∧ s.memRead = false

/-- What holds in every clock. -/
structure Sound (s : DmaSystem) : Prop where
  working : ∀ k, (s.chip k).Working
  stage : s.Resting ∨ ∃ k, s.Serving k
  posted : s.heldValid = true → s.heldWr = true ∨ ∃ k, s.Waiting k
  answer : ∀ k, s.Reading k → s.memWr = false

/-- What is granted is performed and acknowledged, or on its way. -/
structure Moves (s : DmaSystem) (i : DmaIn) : Prop where
  ops : s.inHold ++ s.inEngine ++ (s.grants i).map (fun g => g.2.2) =
    s.memOps i ++ ((s.step i).inHold ++ (s.step i).inEngine)
  acks : s.toAck ++ (s.grants i).map (fun g => (g.1, g.2.1)) = s.acks ++ (s.step i).toAck

theorem Resting.flatMap_eq (h : s.Resting) {α : Type} {f : Chip → List α} (hf : ∀ k, s.busy k = false → f k = []) :
    Chip.all.flatMap f = [] := by
  unfold Chip.all
  simp [hf .sla (h.free .sla), hf .mas (h.free .mas)]

theorem Resting.inEngine_eq (h : s.Resting) : s.inEngine = [] :=
  h.flatMap_eq fun k hk => by rw [uncaptured, not_busy_iff.1 hk]; rfl

theorem Resting.toAck_eq (h : s.Resting) : s.toAck = [] :=
  h.flatMap_eq fun k hk => by rw [unacked, not_busy_iff.1 hk]; rfl

theorem Resting.grants_eq (h : s.Resting) : s.grants i = [] :=
  h.flatMap_eq fun k hk => by rw [not_busy_iff.1 hk]; rfl

theorem Resting.acks_eq (h : s.Resting) (hw : ∀ k, (s.chip k).Working) : s.acks = [] :=
  h.flatMap_eq fun k hk => by
    have hack : (s.chip k).ack = fun _ => false := by
      funext c
      rw [I8237.ack, (hw k).ack, not_busy_iff.1 hk]
      rfl
    rw [hack]
    simp

theorem Resting.moves (h : s.Resting) (hw : ∀ k, (s.chip k).Working) (hr : i.rstN = true) : s.Moves i := by
  have hkeep := inHold_keep hr (.inr ⟨h.read, h.write⟩)
  have hnext : (s.step i).inEngine = [] ∧ (s.step i).toAck = [] := by
    rcases h.next hr with hrest | ⟨k, hserving, hs⟩
    · exact ⟨hrest.inEngine_eq, hrest.toAck_eq⟩
    · rw [hserving.inEngine_eq, hserving.toAck_eq, uncaptured, unacked, hs]
      exact ⟨rfl, rfl⟩
  constructor
  · rw [h.inEngine_eq, h.grants_eq, hnext.1, hkeep]
    simp
  · rw [h.toAck_eq, h.grants_eq, h.acks_eq hw, hnext.2]
    rfl

namespace Serving

variable {k : Chip} (h : s.Serving k) (hw : ∀ k, (s.chip k).Working) (hk : s.Kept i)
include h

theorem eq_of_reading {k' : Chip} (hr : (s.chip k').state = .readWait) : k' = k := by
  by_contra hne
  have hidle := not_busy_iff.1 (h.alone k' hne)
  rw [hr] at hidle
  cases hidle

include hw hk

/-- The next clock of a transfer. -/
theorem step_stage (howed : i.memRespValid = true → ∃ k, s.Reading k) :
    (s.step i).Resting ∨ (s.step i).Serving k := by
  cases hs : (s.chip k).state with
  | idle => exact absurd hs (busy_iff.1 h.busy)
  | verify => exact absurd hs (hw k).never
  | granted => exact .inr (h.granted_next hw hk hs).1
  | read => exact .inr (h.read_next hw hk hs).1
  | write => exact .inr (h.write_next hw hk hs).1
  | update => exact .inr (h.update_next hw hk hs).1
  | done => exact .inl (h.done_next hw hk hs).1
  | readWait =>
    cases hm : s.memRead with
    | false => exact .inr (h.readWait_wait hw hk hs hm).1
    | true =>
      refine .inr (h.readWait_issue hw hk hs ?_ hm).1
      by_contra hresp
      obtain ⟨k', hreading⟩ := howed (by simpa using hresp)
      exact absurd (hm.symm.trans hreading.issued) (by simp)

theorem moves_ops (howed : i.memRespValid = true → ∃ k, s.Reading k) :
    s.inHold ++ s.inEngine ++ (s.grants i).map (fun g => g.2.2) =
      s.memOps i ++ ((s.step i).inHold ++ (s.step i).inEngine) := by
  have hengine : (s.step i).Serving k → (s.step i).inEngine =
      if (s.step i).uncaptured k then [(s.step i).engineOp k] else [] := fun hserving => hserving.inEngine_eq
  rw [h.inEngine_eq, h.grants_eq]
  cases hs : (s.chip k).state with
  | idle => exact absurd hs (busy_iff.1 h.busy)
  | verify => exact absurd hs (hw k).never
  | granted =>
    obtain ⟨hserving, hno, hyes, hkeep⟩ := h.granted_next hw hk hs
    rw [hengine hserving, hno, hyes, hkeep, h.engineOp_granted hk (hw k) hs]
    simp
  | read =>
    obtain ⟨hserving, hno, hyes, hkeep⟩ := h.read_next hw hk hs
    rw [hengine hserving, hno, hyes, hkeep, h.engineOp_step hk (by rw [hs]; simp)]
    simp
  | write =>
    obtain ⟨hserving, hno, hyes, hkeep⟩ := h.write_next hw hk hs
    rw [hengine hserving, hno, hyes, hkeep, h.engineOp_step hk (by rw [hs]; simp)]
    simp
  | update =>
    obtain ⟨hserving, hno, hkeep⟩ := h.update_next hw hk hs
    rw [hengine hserving, hno, hkeep]
    simp
  | done =>
    obtain ⟨hrest, hkeep⟩ := h.done_next hw hk hs
    rw [hrest.inEngine_eq, hkeep, uncaptured, hs]
    simp
  | readWait =>
    cases hm : s.memRead with
    | false =>
      obtain ⟨hserving, hno, hkeep⟩ := h.readWait_wait hw hk hs hm
      rw [hengine hserving, hno, hkeep, uncaptured, hs, hm]
      simp
    | true =>
      -- the read has just been issued: no answer to it yet
      have hquiet : i.memRespValid = false := by
        by_contra hresp
        obtain ⟨k', hreading⟩ := howed (by simpa using hresp)
        exact absurd (hm.symm.trans hreading.issued) (by simp)
      obtain ⟨hserving, hno, h1, h2, h3⟩ := h.readWait_issue hw hk hs hquiet hm
      rw [hengine hserving, hno, h1, h2, h3, uncaptured, hs, hm]
      simp

theorem moves_acks (howed : i.memRespValid = true → ∃ k, s.Reading k) :
    s.toAck ++ (s.grants i).map (fun g => (g.1, g.2.1)) = s.acks ++ (s.step i).toAck := by
  obtain ⟨hstate, hactive⟩ := h.busy_step hk
  have hnext : (s.step i).toAck = if (s.step i).unacked k then [(k, (s.chip k).active)] else [] := by
    rcases h.step_stage hw hk howed with hrest | hserving
    · rw [hrest.toAck_eq, unacked, not_busy_iff.1 (hrest.free k)]
      rfl
    · rw [hserving.toAck_eq, hactive]
  rw [hnext, h.toAck_eq, h.grants_eq, h.acks_eq hw, unacked, unacked, hstate, I8237.stateNext]
  cases hs : (s.chip k).state with
  | idle => exact absurd hs (busy_iff.1 h.busy)
  | verify => exact absurd hs (hw k).never
  | granted => rcases hk.programmed k hs with ht | ht <;> rw [ht] <;> rfl
  | read => cases (s.chipIn i k).dmaWaitrequest <;> rfl
  | readWait => cases (s.chipIn i k).dmaReaddatavalid <;> rfl
  | write => cases (s.chipIn i k).dmaWaitrequest <;> rfl
  | update => rfl
  | done => rfl

/-- A read that waits goes on to wait until the memory answers it. -/
theorem waiting_step (hwait : s.Waiting k) : (s.step i).memRead = false ∧ (s.step i).heldWr = s.heldWr ∧
    s.heldWr = false ∧ (s.step i).heldValid = (s.heldValid && !i.memReady) ∧
      ((s.step i).chip k).state = if i.memRespValid && !s.memWr then .update else .readWait := by
  obtain ⟨hs, hm⟩ := hwait
  have hphase := h.phase
  rw [Phase, hs] at hphase
  dsimp only at hphase
  rw [hm, if_neg (by simp)] at hphase
  obtain ⟨hmw, hheld⟩ := hphase
  have hvalid : (s.chipIn i k).dmaReaddatavalid = (i.memRespValid && !s.memWr) := by cases k <;> rfl
  have hsame : (s.step i).held = s.held := by
    rw [held_step hk.running, hm, hmw]
    simp
  refine ⟨?_, congrArg MemOp.write hsame, ?_, ?_, ?_⟩
  · rw [h.memRead_step, (hw k).read, hs]
    rfl
  · have hwrite := congrArg MemOp.write hheld
    rw [engineOp, (hw k).reading (.inr hs)] at hwrite
    exact hwrite
  · rw [heldValid_step hk.running, hm, hmw]
    cases s.heldValid <;> rfl
  · rw [(h.busy_step hk).1, I8237.stateNext, hs, hvalid]

/-- A read waits only after it has waited, or has just been issued. -/
theorem readWait_of_next (hstate : ((s.step i).chip k).state = .readWait) (hissued : (s.step i).memRead = false) :
    (s.chip k).state = .readWait := by
  have hnext := (h.busy_step hk).1
  rw [hstate, I8237.stateNext] at hnext
  cases hs : (s.chip k).state with
  | readWait => rfl
  | read =>
    rw [h.memRead_step, (hw k).read, hs] at hissued
    cases hissued
  | _ =>
    rw [hs] at hnext
    (try dsimp only at hnext)
    (repeat' split at hnext) <;> cases hnext

/-- A read that waits with nothing held left the holding register at this edge, or waited before. -/
theorem reading_of_next (hanswer : ∀ k, s.Reading k → s.memWr = false) (hreading : (s.step i).Reading k) :
    s.performs i = true ∧ s.heldWr = false ∨ s.Reading k ∧ i.memRespValid = false := by
  obtain ⟨hstate, hissued, htaken⟩ := hreading
  have hs := h.readWait_of_next hw hk hstate hissued
  cases hm : s.memRead with
  | true =>
    have hphase := h.phase
    rw [Phase, hs] at hphase
    dsimp only at hphase
    rw [hm, if_pos rfl] at hphase
    rw [heldValid_step hk.running, hphase.2.1, hm] at htaken
    cases htaken
  | false =>
    obtain ⟨-, -, hwr, hheld, hnext⟩ := h.waiting_step hw hk ⟨hs, hm⟩
    rw [htaken] at hheld
    rw [hstate] at hnext
    cases hv : s.heldValid with
    | true =>
      rw [hv] at hheld
      refine .inl ⟨?_, hwr⟩
      rw [performs, hv]
      simpa using hheld.symm
    | false =>
      have hreading : s.Reading k := ⟨hs, hm, hv⟩
      refine .inr ⟨hreading, ?_⟩
      by_contra hresp
      rw [Bool.not_eq_false] at hresp
      rw [hresp, hanswer k hreading] at hnext
      cases hnext

theorem reading_next (hwait : s.Waiting k) (hheld : (s.heldValid && !i.memReady) = false)
    (hquiet : i.memRespValid = false) : (s.step i).Reading k := by
  obtain ⟨hissued, -, -, hvalid, hnext⟩ := h.waiting_step hw hk hwait
  rw [hquiet] at hnext
  exact ⟨hnext, hissued, hvalid.trans hheld⟩

end Serving

/-- The chip whose read waits is the one served. -/
theorem Sound.serving_of_readWait (h : s.Sound) (hs : (s.chip k).state = .readWait) : s.Serving k := by
  rcases h.stage with hrest | ⟨k', hserving⟩
  · have hidle := not_busy_iff.1 (hrest.free k)
    rw [hs] at hidle
    cases hidle
  · obtain rfl := hserving.eq_of_reading hs
    exact hserving

theorem serving_of_next (h : s.Sound) (hk : s.Kept i) (hstate : ((s.step i).chip k).state = .readWait) :
    s.Serving k := by
  rcases h.stage with hrest | ⟨k', hserving⟩
  · rw [chip_step,
      (I8237.idle_step ((chipIn_rstN s i k).trans hk.running) (not_busy_iff.1 (hrest.free k))).1] at hstate
    split at hstate <;> cases hstate
  · have hbusy : s.busy k = true := by
      by_contra hidle
      rw [Bool.not_eq_true] at hidle
      have hstill := not_busy_iff.1 (idle_stays hserving.busy hk.running hidle)
      rw [hstill] at hstate
      cases hstate
    obtain rfl : k = k' := by
      by_contra hne
      rw [hserving.alone k hne] at hbusy
      cases hbusy
    exact hserving

/-- The memory answers exactly the reads that wait for it. -/
theorem reading_step (h : s.Sound) (hk : s.Kept i) (howed : i.memRespValid = true → ∃ k, s.Reading k) :
    (∃ k, (s.step i).Reading k) ↔
      s.performs i = true ∧ s.heldWr = false ∨ (∃ k, s.Reading k) ∧ i.memRespValid = false := by
  constructor
  · rintro ⟨k, hreading⟩
    have hserving := serving_of_next h hk hreading.state
    rcases hserving.reading_of_next h.working hk h.answer hreading with hperforms | ⟨hbefore, hquiet⟩
    · exact .inl hperforms
    · exact .inr ⟨⟨k, hbefore⟩, hquiet⟩
  · rintro (⟨hp, hwr⟩ | ⟨⟨k, hreading⟩, hresp⟩)
    · obtain ⟨hv, hready⟩ := Bool.and_eq_true_iff.1 hp
      have hquiet : i.memRespValid = false := by
        by_contra hresp
        obtain ⟨k, hreading⟩ := howed (by simpa using hresp)
        rw [hreading.taken] at hv
        cases hv
      rcases h.posted hv with hwr' | ⟨k, hwait⟩
      · rw [hwr] at hwr'
        cases hwr'
      · refine ⟨k, (h.serving_of_readWait hwait.1).reading_next h.working hk hwait ?_ hquiet⟩
        rw [hready, Bool.not_true, Bool.and_false]
    · have hserving := h.serving_of_readWait hreading.state
      refine ⟨k, hserving.reading_next h.working hk ⟨hreading.state, hreading.issued⟩ ?_ hresp⟩
      rw [hreading.taken, Bool.false_and]

end DmaSystem

/-! ## Runs -/

structure DmaRun where
  start : DmaSystem
  inputs : Nat → DmaIn

namespace DmaRun

variable (r : DmaRun)

/-- The registers in clock `t` after the reset. -/
def state : Nat → DmaSystem := run DmaSystem.step r.start.reset r.inputs

theorem state_succ (t : Nat) : r.state (t + 1) = (r.state t).step (r.inputs t) := run_succ _ _ _ _

/-- The grants before clock `t`: the chip, the channel and the operation that it asks for. -/
def granted : Nat → List (Chip × Fin 4 × MemOp) := journal fun u => (r.state u).grants (r.inputs u)

/-- The operations of the memory before clock `t`. -/
def performed : Nat → List MemOp := journal fun u => (r.state u).memOps (r.inputs u)

/-- The acknowledges before clock `t`. -/
def acked : Nat → List (Chip × Fin 4) := journal fun u => (r.state u).acks

/-- The memory has taken a read that it has not answered yet. -/
def Owes (t : Nat) : Prop := ∃ u, u < t ∧ (r.state u).performs (r.inputs u) = true ∧ (r.state u).heldWr = false ∧
  ∀ v, u < v → v < t → (r.inputs v).memRespValid = false

end DmaRun

/-- A run in which the channels are programmed for reads or writes, the processor leaves a transfer alone that is under
way, and the memory takes every request and answers every read, each once and after any time. -/
structure DmaTransfers extends DmaRun where
  kept : ∀ t, (toDmaRun.state t).Kept (inputs t)
  takes : ∀ t, (toDmaRun.state t).heldValid = true → ∃ u, t ≤ u ∧ (inputs u).memReady = true
  answers : ∀ t, (toDmaRun.state t).performs (inputs t) = true → (toDmaRun.state t).heldWr = false →
    ∃ u, t < u ∧ (inputs u).memRespValid = true
  owed : ∀ t, (inputs t).memRespValid = true → toDmaRun.Owes t

namespace DmaRun

variable {r : DmaRun}

theorem owes_zero : ¬ r.Owes 0 := by
  rintro ⟨u, hu, -⟩
  omega

theorem owes_succ {t : Nat} : r.Owes (t + 1) ↔
    (r.state t).performs (r.inputs t) = true ∧ (r.state t).heldWr = false ∨
      r.Owes t ∧ (r.inputs t).memRespValid = false := by
  constructor
  · rintro ⟨u, hu, hp, hwr, hno⟩
    rcases Nat.lt_succ_iff_lt_or_eq.1 hu with hlt | rfl
    · exact .inr ⟨⟨u, hlt, hp, hwr, fun v h1 h2 => hno v h1 (by omega)⟩, hno t hlt (by omega)⟩
    · exact .inl ⟨hp, hwr⟩
  · rintro (⟨hp, hwr⟩ | ⟨⟨u, hu, hp, hwr, hno⟩, hquiet⟩)
    · exact ⟨t, by omega, hp, hwr, fun v h1 h2 => by omega⟩
    · refine ⟨u, by omega, hp, hwr, fun v h1 h2 => ?_⟩
      rcases Nat.lt_succ_iff_lt_or_eq.1 h2 with hlt | rfl
      · exact hno v h1 hlt
      · exact hquiet

end DmaRun

end Z486.Dma
