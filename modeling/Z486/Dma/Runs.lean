/-
The order of the transfers over a run of the DMA system: what is granted is performed and acknowledged in the order of
the grants, nothing else is, and nothing stays behind.
-/
import Z486.Dma.Grants

namespace Z486.Dma

open Clocked

namespace DmaSystem

variable {s : DmaSystem} {i : DmaIn}

/-! ## The invariant -/

theorem readWait_of_issued {k : Chip} (h : s.Serving k) (hm : s.memRead = true) (hv : s.heldValid = false) :
    (s.chip k).state = .readWait := by
  have hphase := h.phase
  unfold Phase at hphase
  cases hs : (s.chip k).state with
  | readWait => rfl
  | idle | verify =>
    rw [hs] at hphase
    exact hphase.elim
  | granted | update | done | write =>
    rw [hs] at hphase
    rw [hphase.1] at hm
    cases hm
  | read =>
    rw [hs] at hphase
    rw [hphase.2 hm] at hv
    cases hv

theorem posted_step (h : s.Sound) (hk : s.Kept i) (howed : i.memRespValid = true → ∃ k, s.Reading k)
    (hvalid : (s.step i).heldValid = true) : (s.step i).heldWr = true ∨ ∃ k, (s.step i).Waiting k := by
  have hheld := held_step (s := s) hk.running
  rw [heldValid_step hk.running] at hvalid
  cases hv : s.heldValid with
  | true =>
    -- what is held stays held, and a read goes on waiting for it
    have hsame : (s.step i).heldWr = s.heldWr := by
      rw [hv] at hheld
      exact congrArg MemOp.write hheld
    rcases h.posted hv with hwr | ⟨k, hwait⟩
    · exact .inl (hsame.trans hwr)
    · rcases h.stage with hrest | ⟨k', hserving⟩
      · have hidle := not_busy_iff.1 (hrest.free k)
        rw [hwait.1] at hidle
        cases hidle
      · obtain rfl := hserving.eq_of_reading hwait.1
        obtain ⟨hread, -, -, -, hstate⟩ := hserving.waiting_step h.working hk hwait
        have hquiet : i.memRespValid = false := by
          by_contra hresp
          obtain ⟨k', hreading⟩ := howed (by simpa using hresp)
          rw [hreading.taken] at hv
          cases hv
        rw [hquiet] at hstate
        exact .inr ⟨k, hstate, hread⟩
  | false =>
    rw [hv] at hvalid hheld
    -- what is captured is a write, or the read the chip has just issued
    have hgo : (s.memRead || s.memWrite) = true := hvalid
    have hop : (s.step i).heldWr = s.memWrite := by
      rw [hgo] at hheld
      exact congrArg MemOp.write hheld
    cases hw : s.memWrite with
    | true => exact .inl (hop.trans hw)
    | false =>
      have hm : s.memRead = true := by
        rwa [hw, Bool.or_false] at hgo
      rcases h.stage with hrest | ⟨k, hserving⟩
      · rw [hrest.read] at hm
        cases hm
      · have hs := readWait_of_issued hserving hm hv
        have hquiet : i.memRespValid = false := by
          by_contra hresp
          obtain ⟨k', hreading⟩ := howed (by simpa using hresp)
          exact absurd (hm.symm.trans hreading.issued) (by simp)
        have hstate : ((s.step i).chip k).state = .readWait := by
          have hdef : (s.chipIn i k).dmaReaddatavalid = (i.memRespValid && !s.memWr) := by cases k <;> rfl
          rw [(hserving.busy_step hk).1, I8237.stateNext, hs, hdef, hquiet]
          rfl
        refine .inr ⟨k, hstate, ?_⟩
        rw [hserving.memRead_step, (h.working k).read, hs]
        rfl

theorem answer_step (h : s.Sound) (hk : s.Kept i) (howed : i.memRespValid = true → ∃ k, s.Reading k) {k : Chip}
    (hreading : (s.step i).Reading k) : (s.step i).memWr = false := by
  have hnext : (s.step i).memWr = if i.memReady then s.heldWr else s.memWr := by
    show (if !i.rstN then false else if i.memReady then s.heldWr else s.memWr) = _
    rw [hk.running]
    rfl
  rw [hnext]
  rcases (reading_step h hk howed).1 ⟨k, hreading⟩ with ⟨hperforms, hwr⟩ | ⟨⟨k', hbefore⟩, -⟩
  · rw [(Bool.and_eq_true_iff.1 hperforms).2]
    exact hwr
  · cases i.memReady with
    | false => exact h.answer k' hbefore
    | true =>
      rcases h.stage with hrest | ⟨k'', hserving⟩
      · have hidle := not_busy_iff.1 (hrest.free k')
        rw [hbefore.state] at hidle
        cases hidle
      · obtain rfl := hserving.eq_of_reading hbefore.state
        exact (hserving.waiting_step h.working hk ⟨hbefore.state, hbefore.issued⟩).2.2.1

theorem Sound.step (h : s.Sound) (hk : s.Kept i) (howed : i.memRespValid = true → ∃ k, s.Reading k) :
    (s.step i).Sound := by
  refine ⟨working_step h.working hk, ?_, posted_step h hk howed, fun k => answer_step h hk howed⟩
  rcases h.stage with hrest | ⟨k, hserving⟩
  · rcases hrest.next hk.running with hrest' | ⟨k, hserving, -⟩
    · exact .inl hrest'
    · exact .inr ⟨k, hserving⟩
  · rcases hserving.step_stage h.working hk howed with hrest | hserving'
    · exact .inl hrest
    · exact .inr ⟨k, hserving'⟩

theorem Sound.moves (h : s.Sound) (hk : s.Kept i) (howed : i.memRespValid = true → ∃ k, s.Reading k) : s.Moves i := by
  rcases h.stage with hrest | ⟨k, hserving⟩
  · exact hrest.moves h.working hk.running
  · exact ⟨hserving.moves_ops h.working hk howed, hserving.moves_acks h.working hk howed⟩

theorem reset_resting (s : DmaSystem) : s.reset.Resting :=
  ⟨fun k => by cases k <;> rfl, rfl, rfl⟩

theorem reset_sound (s : DmaSystem) : s.reset.Sound := by
  have hidle : ∀ k, (s.reset.chip k).state = .idle := fun k => not_busy_iff.1 (s.reset_resting.free k)
  refine ⟨fun k => ?_, .inl s.reset_resting, nofun, fun k hreading => ?_⟩
  · cases k <;> constructor <;> first | rfl | nofun
  · have hstate := hreading.state
    rw [hidle] at hstate
    cases hstate

end DmaSystem

/-! ## Runs -/

namespace DmaTransfers

variable (x : DmaTransfers)

theorem start_resting : (x.state 0).Resting := DmaSystem.reset_resting _

theorem sound_owes (t : Nat) : (x.state t).Sound ∧ (x.Owes t ↔ ∃ k, (x.state t).Reading k) := by
  induction t with
  | zero =>
    refine ⟨DmaSystem.reset_sound _, ⟨fun h => absurd h DmaRun.owes_zero, ?_⟩⟩
    rintro ⟨k, hreading⟩
    have hstate := hreading.state
    rw [DmaSystem.not_busy_iff.1 (x.start_resting.free k)] at hstate
    cases hstate
  | succ t ih =>
    obtain ⟨hsound, howes⟩ := ih
    have howed : (x.inputs t).memRespValid = true → ∃ k, (x.state t).Reading k := fun h => howes.1 (x.owed t h)
    rw [DmaRun.state_succ, DmaRun.owes_succ, howes, DmaSystem.reading_step hsound (x.kept t) howed]
    exact ⟨hsound.step (x.kept t) howed, Iff.rfl⟩

theorem soundAt (t : Nat) : (x.state t).Sound := (x.sound_owes t).1

theorem owed_reading {t : Nat} (h : (x.inputs t).memRespValid = true) : ∃ k, (x.state t).Reading k :=
  (x.sound_owes t).2.1 (x.owed t h)

theorem moves (t : Nat) : (x.state t).Moves (x.inputs t) :=
  (x.soundAt t).moves (x.kept t) x.owed_reading

/-- What has been granted has been performed, in order, or is on its way. -/
theorem granted_ops (t : Nat) : (x.granted t).map (fun g => g.2.2) =
    x.performed t ++ ((x.state t).inHold ++ (x.state t).inEngine) := by
  induction t with
  | zero =>
    show [] = [] ++ ((x.state 0).inHold ++ (x.state 0).inEngine)
    rw [show (x.state 0).inHold = [] from rfl, x.start_resting.inEngine_eq]
    rfl
  | succ t ih =>
    rw [DmaRun.granted, DmaRun.performed, journal_succ, journal_succ, List.map_append, List.append_assoc, x.state_succ,
      ← (x.moves t).ops, ← List.append_assoc]
    exact congrArg (· ++ _) ih

/-- What has been granted has been acknowledged, in order, or is still to be. -/
theorem granted_acks (t : Nat) : (x.granted t).map (fun g => (g.1, g.2.1)) = x.acked t ++ (x.state t).toAck := by
  induction t with
  | zero =>
    show [] = [] ++ (x.state 0).toAck
    rw [x.start_resting.toAck_eq]
    rfl
  | succ t ih =>
    rw [DmaRun.granted, DmaRun.acked, journal_succ, journal_succ, List.map_append, List.append_assoc, x.state_succ,
      ← (x.moves t).acks, ← List.append_assoc]
    exact congrArg (· ++ _) ih

/-! ## Every transfer comes to its end -/

variable {x} {t : Nat} {k : Chip}

theorem serving (hs : ((x.state t).chip k).state ≠ .idle) : (x.state t).Serving k := by
  rcases (x.soundAt t).stage with hrest | ⟨k', hserving⟩
  · exact absurd (DmaSystem.not_busy_iff.1 (hrest.free k)) hs
  · by_cases hk : k = k'
    · rwa [hk]
    · exact absurd (DmaSystem.not_busy_iff.1 (hserving.alone k hk)) hs

theorem heldValid_succ (t : Nat) : (x.state (t + 1)).heldValid = if (x.state t).heldValid then !(x.inputs t).memReady
    else (x.state t).memRead || (x.state t).memWrite :=
  DmaSystem.heldValid_step (x.kept t).running

/-- A request in the hold register is taken by the memory. -/
theorem exists_performs (hv : (x.state t).heldValid = true) : ∃ u, t ≤ u ∧ (x.state u).performs (x.inputs u) = true ∧
    ∀ v, t ≤ v → v ≤ u → (x.state v).heldValid = true := by
  obtain ⟨u, hu, hready, hfirst⟩ := exists_first (x.takes t hv)
  have hstays : ∀ v, t ≤ v → v ≤ u → (x.state v).heldValid = true := by
    intro v htv
    induction v, htv using Nat.le_induction with
    | base => exact fun _ => hv
    | succ v htv ih =>
      intro hvu
      rw [heldValid_succ, ih (by omega), if_pos rfl, Bool.not_eq_true']
      exact Bool.eq_false_of_not_eq_true (hfirst v htv (by omega))
  refine ⟨u, hu, ?_, hstays⟩
  rw [DmaSystem.performs, hstays u hu le_rfl, hready]
  rfl

/-- A request in an engine comes to the hold register. -/
theorem exists_held (hout : (x.state t).uncaptured k = true) : ∃ u, t ≤ u ∧ (x.state u).heldValid = true := by
  cases hv : (x.state t).heldValid with
  | true => exact ⟨t, le_rfl, hv⟩
  | false =>
    have hne : ((x.state t).chip k).state ≠ .idle := by
      intro hidle
      rw [DmaSystem.uncaptured, hidle] at hout
      cases hout
    have hserving := serving hne
    have hphase := hserving.phase
    have hw := (x.soundAt t).working k
    have hissued : ((x.state t).memRead || (x.state t).memWrite) = true →
        ∃ u, t ≤ u ∧ (x.state u).heldValid = true := by
      intro hgo
      refine ⟨t + 1, by omega, ?_⟩
      rw [heldValid_succ, hv]
      exact hgo
    -- a request that is only now issued is in the hold register two clocks later
    have hissues : ((x.state t).memRead || (x.state t).memWrite) = false →
        ((x.state (t + 1)).memRead || (x.state (t + 1)).memWrite) = true →
          ∃ u, t ≤ u ∧ (x.state u).heldValid = true := by
      intro hno hgo
      refine ⟨t + 2, by omega, ?_⟩
      rw [heldValid_succ, heldValid_succ, hv, if_neg Bool.false_ne_true, hno, if_neg Bool.false_ne_true]
      exact hgo
    rw [DmaSystem.uncaptured] at hout
    rw [DmaSystem.Phase] at hphase
    have hread := hserving.memRead_step (i := x.inputs t)
    have hwrite := hserving.memWrite_step (i := x.inputs t)
    rw [← x.state_succ] at hread hwrite
    cases hs : ((x.state t).chip k).state with
    | read =>
      rw [hs] at hphase
      refine hissues ?_ ?_
      · rw [hphase.1, Bool.or_false]
        by_contra hm
        rw [hphase.2 (by simpa using hm)] at hv
        cases hv
      · rw [hread, hw.read, hs]
        rfl
    | write =>
      rw [hs] at hphase
      refine hissues ?_ ?_
      · rw [hphase.1, Bool.false_or]
        by_contra hm
        rw [hphase.2 (by simpa using hm)] at hv
        cases hv
      · rw [hwrite, hw.write, hs]
        exact Bool.or_true _
    | readWait =>
      rw [hs] at hout
      refine hissued ?_
      rw [show (x.state t).memRead = true from hout]
      rfl
    | update =>
      rw [hs] at hout
      refine hissued ?_
      rw [show (x.state t).memWrite = true from hout]
      exact Bool.or_true _
    | idle | granted | done | verify =>
      rw [hs] at hout
      cases hout

/-- Everything that is granted is performed. -/
theorem exists_performed (x : DmaTransfers) (t : Nat) :
    ∃ u, t ≤ u ∧ (x.granted t).map (fun g => g.2.2) <+: x.performed u := by
  refine exists_drained x.granted_ops (fun t u htu => (journal_mono _ htu).map _) (fun v hwaits => ?_) t
  obtain ⟨w, hvw, hheld⟩ : ∃ w, v ≤ w ∧ (x.state w).heldValid = true := by
    by_cases hheld : (x.state v).heldValid = true
    · exact ⟨v, le_rfl, hheld⟩
    · rcases (x.soundAt v).stage with hrest | ⟨k, hserving⟩
      · rw [hrest.inEngine_eq, DmaSystem.inHold, if_neg hheld] at hwaits
        exact absurd rfl hwaits
      · refine exists_held (k := k) ?_
        by_contra hout
        rw [hserving.inEngine_eq, if_neg hout, DmaSystem.inHold, if_neg hheld] at hwaits
        exact hwaits rfl
  obtain ⟨u, hwu, hperforms, -⟩ := exists_performs hheld
  refine ⟨u + 1, by omega, ?_⟩
  have hmore : (x.performed (u + 1)).length = (x.performed u).length + 1 := by
    rw [DmaRun.performed, journal_succ, List.length_append, DmaSystem.memOps, hperforms]
    rfl
  have hless : (x.performed v).length ≤ (x.performed u).length := (journal_mono _ (hvw.trans hwu)).length_le
  omega

theorem state_busy (hs : ((x.state t).chip k).state ≠ .idle) :
    ((x.state (t + 1)).chip k).state = ((x.state t).chip k).stateNext ((x.state t).chipIn (x.inputs t) k) ∧
      ((x.state (t + 1)).chip k).active = ((x.state t).chip k).active := by
  rw [x.state_succ]
  exact (serving hs).busy_step (x.kept t)

/-- An engine does not wait for the hold register for ever. -/
theorem exists_free {e : EngineState} (he : e = .read ∨ e = .write) (hs : ((x.state t).chip k).state = e) :
    ∃ u, t ≤ u ∧ ((x.state u).chip k).state = e ∧ (x.state u).waitrequest (x.inputs u) = false := by
  have hsome : ∃ u, t ≤ u ∧ (x.state u).waitrequest (x.inputs u) = false := by
    cases hv : (x.state t).heldValid with
    | false =>
      refine ⟨t, le_rfl, ?_⟩
      rw [DmaSystem.waitrequest, hv]
      rfl
    | true =>
      obtain ⟨u, hu, hperforms, -⟩ := exists_performs hv
      refine ⟨u, hu, ?_⟩
      rw [DmaSystem.waitrequest, (Bool.and_eq_true_iff.1 hperforms).2]
      exact Bool.and_false _
  obtain ⟨u, hu, hfree, hfirst⟩ := exists_first hsome
  refine ⟨u, hu, ?_, hfree⟩
  have hstays : ∀ v, t ≤ v → v ≤ u → ((x.state v).chip k).state = e := by
    intro v htv
    induction v, htv using Nat.le_induction with
    | base => exact fun _ => hs
    | succ v htv ih =>
      intro hvu
      have hsv := ih (by omega)
      have hwait : ((x.state v).chipIn (x.inputs v) k).dmaWaitrequest = (x.state v).waitrequest (x.inputs v) := by
        cases k <;> rfl
      have hbusy : ((x.state v).chip k).state ≠ .idle := by
        rw [hsv]
        rcases he with rfl | rfl <;> simp
      rw [(state_busy hbusy).1, I8237.stateNext, hsv, hwait,
        Bool.eq_true_of_not_eq_false (hfirst v htv (by omega))]
      rcases he with rfl | rfl <;> rfl
  exact hstays u hu le_rfl

/-- A read that is issued is in the hold register in the next clock, or has left it. -/
theorem waiting_of_readWait (hs : ((x.state t).chip k).state = .readWait) :
    ∃ u, t ≤ u ∧ (x.state u).Waiting k := by
  cases hm : (x.state t).memRead with
  | false => exact ⟨t, le_rfl, hs, hm⟩
  | true =>
    have hbusy : ((x.state t).chip k).state ≠ .idle := by
      rw [hs]
      simp
    have hserving := serving hbusy
    have hquiet : (x.inputs t).memRespValid = false := by
      by_contra hresp
      obtain ⟨k', hreading⟩ := x.owed_reading (by simpa using hresp)
      exact absurd (hm.symm.trans hreading.issued) (by simp)
    refine ⟨t + 1, by omega, ?_, ?_⟩
    · have hdef : ((x.state t).chipIn (x.inputs t) k).dmaReaddatavalid =
          ((x.inputs t).memRespValid && !(x.state t).memWr) := by cases k <;> rfl
      rw [(state_busy hbusy).1, I8237.stateNext, hs, hdef, hquiet]
      rfl
    · rw [x.state_succ, hserving.memRead_step, ((x.soundAt t).working k).read, hs]
      rfl

theorem waiting_succ (hwait : (x.state t).Waiting k) : (x.state (t + 1)).memRead = false ∧
    (x.state (t + 1)).heldValid = ((x.state t).heldValid && !(x.inputs t).memReady) ∧
      ((x.state (t + 1)).chip k).state =
        if (x.inputs t).memRespValid && !(x.state t).memWr then .update else .readWait := by
  have hbusy : ((x.state t).chip k).state ≠ .idle := by
    rw [hwait.1]
    simp
  obtain ⟨h1, -, -, h2, h3⟩ := (serving hbusy).waiting_step (x.soundAt t).working (x.kept t) hwait
  rw [x.state_succ]
  exact ⟨h1, h2, h3⟩

/-- The memory takes the read. -/
theorem exists_reading (hwait : (x.state t).Waiting k) : ∃ u, t ≤ u ∧ (x.state u).Reading k := by
  cases hv : (x.state t).heldValid with
  | false => exact ⟨t, le_rfl, hwait.1, hwait.2, hv⟩
  | true =>
    obtain ⟨u, hu, hperforms, hheld⟩ := exists_performs hv
    have hgoes : ∀ v, (x.state v).Waiting k → (x.state v).heldValid = true → (x.state (v + 1)).Waiting k := by
      intro v hw hvv
      obtain ⟨hread, -, hstate⟩ := waiting_succ hw
      have hquiet : (x.inputs v).memRespValid = false := by
        by_contra hresp
        obtain ⟨k', hreading⟩ := x.owed_reading (by simpa using hresp)
        exact absurd (hvv.symm.trans hreading.taken) (by simp)
      rw [hquiet] at hstate
      exact ⟨hstate, hread⟩
    have hstays : ∀ v, t ≤ v → v ≤ u → (x.state v).Waiting k := by
      intro v htv
      induction v, htv using Nat.le_induction with
      | base => exact fun _ => hwait
      | succ v htv ih => exact fun hvu => hgoes v (ih (by omega)) (hheld v htv (by omega))
    have hlast := hstays u hu le_rfl
    obtain ⟨hread, hempty, -⟩ := waiting_succ hlast
    rw [(Bool.and_eq_true_iff.1 hperforms).2, Bool.not_true, Bool.and_false] at hempty
    exact ⟨u + 1, by omega, (hgoes u hlast (hheld u hu le_rfl)).1, hread, hempty⟩

/-- The memory answers it. -/
theorem exists_answer (hreading : (x.state t).Reading k) :
    ∃ u, t ≤ u ∧ ((x.state u).chip k).state = .update := by
  obtain ⟨w, hw, hperforms, hwr, hno⟩ := (x.sound_owes t).2.2 ⟨k, hreading⟩
  obtain ⟨v, hv, hresp⟩ := x.answers w hperforms hwr
  have hlate : t ≤ v := by
    by_contra hearly
    rw [hno v hv (by omega)] at hresp
    cases hresp
  obtain ⟨u, hu, hanswer, hfirst⟩ := exists_first (P := fun v => (x.inputs v).memRespValid = true) ⟨v, hlate, hresp⟩
  have hstays : ∀ v, t ≤ v → v ≤ u → (x.state v).Reading k := by
    intro v htv
    induction v, htv using Nat.le_induction with
    | base => exact fun _ => hreading
    | succ v htv ih =>
      intro hvu
      have hr := ih (by omega)
      obtain ⟨hread, hheld, hstate⟩ := waiting_succ ⟨hr.state, hr.issued⟩
      rw [Bool.eq_false_of_not_eq_true (hfirst v htv (by omega))] at hstate
      rw [hr.taken] at hheld
      exact ⟨hstate, hread, hheld⟩
  have hr := hstays u hu le_rfl
  obtain ⟨-, -, hstate⟩ := waiting_succ ⟨hr.state, hr.issued⟩
  rw [hanswer, (x.soundAt u).answer k hr] at hstate
  exact ⟨u + 1, by omega, hstate⟩

theorem exists_update_of_readWait (hs : ((x.state t).chip k).state = .readWait) :
    ∃ u, t ≤ u ∧ ((x.state u).chip k).state = .update := by
  obtain ⟨u, hu, hwait⟩ := waiting_of_readWait hs
  obtain ⟨v, hv, hreading⟩ := exists_reading hwait
  obtain ⟨w, hw, hupdate⟩ := exists_answer hreading
  exact ⟨w, by omega, hupdate⟩

/-- An engine comes to acknowledge its transfer. -/
theorem exists_update (hun : (x.state t).unacked k = true) :
    ∃ u, t ≤ u ∧ ((x.state u).chip k).state = .update := by
  have hwaits : ∀ u, ((x.state u).chipIn (x.inputs u) k).dmaWaitrequest = (x.state u).waitrequest (x.inputs u) := by
    intro u
    cases k <;> rfl
  rw [DmaSystem.unacked] at hun
  cases hs : ((x.state t).chip k).state with
  | idle | granted | done | verify =>
    rw [hs] at hun
    cases hun
  | update => exact ⟨t, le_rfl, hs⟩
  | readWait => exact exists_update_of_readWait hs
  | read =>
    obtain ⟨u, hu, hsu, hfree⟩ := exists_free (.inl rfl) hs
    have hnext := (state_busy (k := k) (t := u) (by rw [hsu]; simp)).1
    rw [I8237.stateNext, hsu, hwaits, hfree] at hnext
    obtain ⟨v, hv, hupdate⟩ := exists_update_of_readWait hnext
    exact ⟨v, by omega, hupdate⟩
  | write =>
    obtain ⟨u, hu, hsu, hfree⟩ := exists_free (.inr rfl) hs
    have hnext := (state_busy (k := k) (t := u) (by rw [hsu]; simp)).1
    rw [I8237.stateNext, hsu, hwaits, hfree] at hnext
    exact ⟨u + 1, by omega, hnext⟩

/-- Everything that is granted is acknowledged. -/
theorem exists_acked (x : DmaTransfers) (t : Nat) :
    ∃ u, t ≤ u ∧ (x.granted t).map (fun g => (g.1, g.2.1)) <+: x.acked u := by
  refine exists_drained x.granted_acks (fun t u htu => (journal_mono _ htu).map _) (fun v hwaits => ?_) t
  rcases (x.soundAt v).stage with hrest | ⟨k, hserving⟩
  · exact absurd hrest.toAck_eq hwaits
  · rw [hserving.toAck_eq] at hwaits
    obtain ⟨u, hvu, hupdate⟩ := exists_update (k := k) (t := v) (by
      by_contra hno
      rw [if_neg hno] at hwaits
      exact hwaits rfl)
    have hacks := (serving (k := k) (t := u) (by rw [hupdate]; simp)).acks_eq (x.soundAt u).working
    rw [hupdate] at hacks
    refine ⟨u + 1, by omega, ?_⟩
    have hmore : (x.acked (u + 1)).length = (x.acked u).length + 1 := by
      rw [DmaRun.acked, journal_succ, List.length_append, hacks]
      rfl
    have hless : (x.acked v).length ≤ (x.acked u).length := (journal_mono _ hvu).length_le
    omega

end DmaTransfers

end Z486.Dma
