/-
What the DMA system does for its channels: every grant becomes one operation of the memory and one acknowledge, and the
transfers of a channel make up the blocks it is programmed with, unless the processor masks another channel in the clock
of a terminal count.
-/
import Z486.Dma.Counting

namespace Z486.Dma

open Clocked

namespace DmaRun

variable (r : DmaRun)

/-- What the memory answers to a read is handed to the channel that asked for it, in the clock after the answer. -/
def HandsOut : Prop := ∀ t k c, ((r.state (t + 1)).chip k).ack c = true → ((r.state (t + 1)).chip k).transfer c = 2 →
  ∃ o, (r.granted t).getLast? = some (k, c, o) ∧ r.performed t = (r.granted t).map (fun g => g.2.2) ∧
    (r.inputs t).memRespValid = true ∧ ((r.state (t + 1)).chip k).ackData = o.lane (r.inputs t).memDout

/-- Every grant is one operation of the memory and one acknowledge of its channel, in the order of the grants, and there
are no others; the grants of a channel go along the blocks that it is programmed with. -/
structure Performs : Prop where
  operations : ∀ t, r.performed t <+: (r.granted t).map (fun g => g.2.2)
  complete : ∀ t, ∃ u, t ≤ u ∧ (r.granted t).map (fun g => g.2.2) <+: r.performed u
  acknowledges : ∀ t, r.acked t <+: (r.granted t).map (fun g => (g.1, g.2.1))
  acknowledged : ∀ t, ∃ u, t ≤ u ∧ (r.granted t).map (fun g => (g.1, g.2.1)) <+: r.acked u
  reads : r.HandsOut
  blocks : ∀ k c a b, a ≤ b → r.Spared k c a b → r.Counted k c a b

/-- No terminal count is lost in a mask register. -/
def KeepsMasks : Prop := ∀ t k c, r.KeepsMask k c t

end DmaRun

namespace DmaTransfers

variable {x : DmaTransfers} {t : Nat} {k : Chip} {c : Fin 4}

/-! ## The data of a read -/

/-- The engine is at work on what was granted last. -/
theorem granted_last (hun : (x.state t).unacked k = true) :
    (x.granted t).getLast? = some (k, ((x.state t).chip k).active, (x.state t).engineOp k) := by
  induction t with
  | zero =>
    rw [DmaSystem.unacked, DmaSystem.not_busy_iff.1 (x.start_resting.free k)] at hun
    cases hun
  | succ t ih =>
    rw [unacked_succ, Bool.or_eq_true, beq_iff_eq, Bool.and_eq_true] at hun
    have hbusy : ((x.state t).chip k).state ≠ .idle := by
      rcases hun with hs | ⟨hun, -⟩
      · rw [hs]
        simp
      · intro hs
        rw [DmaSystem.unacked, hs] at hun
        cases hun
    have hserving := serving hbusy
    rw [(state_busy hbusy).2, DmaRun.granted, journal_succ, hserving.grants_eq, x.state_succ]
    by_cases hs : ((x.state t).chip k).state = .granted
    · rw [hs, hserving.engineOp_granted (x.kept t) ((x.soundAt t).working k) hs]
      simp
    · rw [beq_eq_false_iff_ne.2 hs, if_neg Bool.false_ne_true, List.append_nil, hserving.engineOp_step (x.kept t) hs]
      exact ih (hun.resolve_left hs).1

theorem handsOut (x : DmaTransfers) : x.HandsOut := by
  intro t k c hack htransfer
  rw [ack_eq, I8237.updates, I8237.update, Bool.and_eq_true, beq_iff_eq, beq_iff_eq] at hack
  obtain ⟨hupdate, hactive⟩ := hack
  have hbusy : ((x.state t).chip k).state ≠ .idle := by
    intro hidle
    have hnext := (I8237.idle_step (running (x := x) (t := t) (k := k)) hidle).1
    rw [← DmaSystem.chip_step, ← x.state_succ, hupdate] at hnext
    split_ifs at hnext
  have hserving := serving hbusy
  have hw := (x.soundAt t).working k
  obtain ⟨hstate, hsame⟩ := state_busy hbusy
  rw [hupdate, I8237.stateNext] at hstate
  rw [hactive] at hsame
  have hread : ((x.state t).chip k).transfer ((x.state t).chip k).active = 2 := by
    rw [← hserving.transfer_step (x.kept t), ← x.state_succ, ← hsame]
    exact htransfer
  have hdef : ((x.state t).chipIn (x.inputs t) k).dmaReaddatavalid =
      ((x.inputs t).memRespValid && !(x.state t).memWr) := by cases k <;> rfl
  -- the engine has waited for the answer of the memory
  have hwait : ((x.state t).chip k).state = .readWait ∧
      ((x.inputs t).memRespValid && !(x.state t).memWr) = true := by
    cases hs : ((x.state t).chip k).state with
    | idle => exact absurd hs hbusy
    | verify => exact absurd hs hw.never
    | write =>
      rw [hw.writing hs] at hread
      exact absurd hread (by decide)
    | readWait =>
      rw [hs, hdef] at hstate
      refine ⟨rfl, ?_⟩
      by_contra hno
      rw [if_neg hno] at hstate
      cases hstate
    | granted | read | update | done =>
      rw [hs] at hstate
      dsimp only at hstate
      (repeat' split at hstate) <;> cases hstate
  obtain ⟨hs, hvalid⟩ := hwait
  obtain ⟨k', hreading⟩ := x.owed_reading (Bool.and_eq_true_iff.1 hvalid).1
  obtain rfl := hserving.eq_of_reading hreading.state
  have hheld : (x.state t).held = (x.state t).engineOp k' := by
    have hphase := hserving.phase
    rw [DmaSystem.Phase, hs] at hphase
    dsimp only at hphase
    rw [hreading.issued, if_neg Bool.false_ne_true] at hphase
    exact hphase.2
  refine ⟨(x.state t).engineOp k', ?_, ?_, (Bool.and_eq_true_iff.1 hvalid).1, ?_⟩
  · rw [hsame]
    refine granted_last ?_
    rw [DmaSystem.unacked, hs]
  · rw [x.granted_ops, DmaSystem.inHold, hreading.taken, hserving.inEngine_eq, DmaSystem.uncaptured, hs,
      hreading.issued]
    simp
  · have hdata : ((x.state t).chipIn (x.inputs t) k').dmaReaddata = (x.state t).held.lane (x.inputs t).memDout := by
      cases k' <;> rfl
    rw [x.state_succ, DmaSystem.chip_step, ← hheld, ← hdata]
    show (if ((x.state t).chip k').state == .readWait && ((x.state t).chipIn (x.inputs t) k').dmaReaddatavalid
      then _ else _) = _
    rw [hs, hdef, hvalid]
    rfl

/-! ## The blocks -/

variable {a b : Nat}

theorem counted (hab : a ≤ b) (hspared : x.Spared k c a b) (hkeeps : ∀ t, a ≤ t → t < b → x.KeepsMask k c t) :
    x.Counted k c a b := by
  have hgoing : ∀ t, a ≤ t → t ≤ b → x.Going k c a t := fun t h1 h2 =>
    going h1 (hspared.mono h2) fun u h3 h4 => hkeeps u h3 (by omega)
  have hlast := hgoing b hab le_rfl
  refine ⟨fun t h1 h2 => (hgoing t h1 (by omega)).op_eq, hlast.fits.imp_right fun hfits => ?_, hlast.signals,
    fun hauto => ?_, fun t h1 h2 hopen hmask => ?_⟩
  · rw [hlast.begun]
    cases hinside : (x.state b).inside k c with
    | false =>
      rw [if_neg Bool.false_ne_true]
      omega
    | true =>
      rw [hinside, Bool.or_true, if_pos rfl] at hfits
      exact hfits
  · exact hlast.masked.resolve_left (by rw [hauto]; simp)
  · -- the mask is set by the guest, or by the last transfer of the block
    have h := hgoing t h1 (by omega)
    have hclear : I8237.clearsMask ((x.state t).chipIn (x.inputs t) k) c = false := by
      by_contra hclear
      rw [x.state_succ, DmaSystem.chip_step,
        I8237.mask_clears running (hspared.kept t h1 h2) (by simpa using hclear)] at hmask
      cases hmask
    rw [x.state_succ, DmaSystem.chip_step, I8237.mask_step running (hspared.kept t h1 h2) hclear, hopen,
      Bool.false_or, Bool.or_eq_true, Bool.or_eq_true] at hmask
    rcases hmask with (hall | hone) | hend
    · rw [I8237.setsMask, (Bool.and_eq_true_iff.1 hall).1, (Bool.and_eq_true_iff.1 hall).2]
      exact .inl rfl
    · simp only [Bool.and_eq_true] at hone
      rw [I8237.setsMask, hone.1.1, hone.1.2, hone.2]
      exact .inl (Bool.or_true _)
    · simp only [Bool.and_eq_true, Bool.not_eq_true'] at hend
      obtain ⟨⟨-, htc⟩, hauto⟩ := hend
      rw [h.auto] at hauto
      obtain ⟨hup, hwalked⟩ := h.tc_iff.1 htc
      refine .inr ⟨hauto, ?_⟩
      rw [hauto] at hwalked
      rw [DmaRun.done_succ h1, ack_eq, hup, if_pos rfl]
      exact congrArg (· + 1) hwalked

/-! ## Lost terminal counts -/

/-- A transfer that is under way has been granted, and has not been acknowledged since. -/
theorem exists_begins (hinside : (x.state t).inside k c = true) : ∃ g, g < t ∧ (x.state g).begins k c = true ∧
    ∀ v, g < v → v < t → (x.state v).inside k c = true ∧ ((x.state v).chip k).updates c = false := by
  induction t with
  | zero =>
    rw [DmaSystem.inside, DmaSystem.unacked, DmaSystem.not_busy_iff.1 (x.start_resting.free k)] at hinside
    cases hinside
  | succ t ih =>
    rw [inside_succ, Bool.or_eq_true, Bool.and_eq_true, Bool.not_eq_true'] at hinside
    rcases hinside with hbegins | ⟨hinside, hup⟩
    · exact ⟨t, by omega, hbegins, fun v h1 h2 => absurd h2 (by omega)⟩
    · obtain ⟨g, hg, hbegins, hsince⟩ := ih hinside
      refine ⟨g, by omega, hbegins, fun v h1 h2 => ?_⟩
      rcases Nat.lt_succ_iff_lt_or_eq.1 h2 with hlt | rfl
      · exact hsince v h1 hlt
      · exact ⟨hinside, hup⟩

/-- A terminal count that is lost leaves a channel unmasked whose block is at its end. -/
theorem keepsMask_of_performs (h : x.Performs) : x.KeepsMask k c t := by
  intro htc hauto hother
  have hup : ((x.state t).chip k).updates c = true := by
    rw [I8237.tc_eq] at htc
    exact (Bool.and_eq_true_iff.1 htc).1
  -- the transfer that ends began in clock `g`, and its channel is left alone since
  obtain ⟨g, hg, hbegins, hsince⟩ := exists_begins (inside_of_updates hup)
  have halone : ∀ v, g ≤ v → v < t + 1 → (x.state v).touches (x.inputs v) k c = false ∧
      I8237.masterClear ((x.state v).chipIn (x.inputs v) k) = false := by
    intro v h1 h2
    refine left_alone ?_
    rcases h1.eq_or_lt with rfl | hlt
    · exact .inl hbegins
    · rcases Nat.lt_succ_iff_lt_or_eq.1 h2 with hlt' | rfl
      · exact .inr (hsince v hlt hlt').1
      · exact .inr (inside_of_updates hup)
  have hquiet : ∀ v, g ≤ v → v < t → ((x.state v).chip k).updates c = false := by
    intro v h1 h2
    rcases h1.eq_or_lt with rfl | hlt
    · by_contra hno
      have hin := inside_of_updates (by simpa using hno)
      rw [not_inside_of_begins hbegins] at hin
      cases hin
    · exact (hsince v hlt h2).2
  have hprograms : ∀ v, g ≤ v → v < t + 1 → (x.state v).programs (x.inputs v) k c = false := by
    intro v h1 h2
    have hno := (halone v h1 h2).1
    unfold DmaSystem.touches at hno
    rw [Bool.or_eq_false_iff] at hno
    exact hno.1
  have hkeeps : ∀ v, g ≤ v → v < t → x.KeepsMask k c v := by
    intro v h1 h2 hend
    rw [I8237.tc_eq, hquiet v h1 h2] at hend
    cases hend
  -- autoinit is off for all of it
  have hautos : ((x.state g).chip k).auto c = false := by
    have hsame : ∀ v, g ≤ v → v ≤ t → ((x.state v).chip k).auto c = ((x.state g).chip k).auto c := by
      intro v hv
      induction v, hv using Nat.le_induction with
      | base => exact fun _ => rfl
      | succ v hv ih =>
        intro hvt
        rw [x.state_succ, DmaSystem.chip_step, (untouched (hprograms v hv (by omega))).auto_step]
        exact ih (by omega)
    rw [← hsame t hg.le le_rfl]
    exact hauto
  have hspared : x.Spared k c g (t + 1) := by
    refine ⟨not_inside_of_begins hbegins, fun hyes => ?_, hprograms, fun v h1 h2 => (halone v h1 h2).2,
      fun v h1 h2 hclear => ?_⟩
    · rw [hautos] at hyes
      cases hyes
    · rw [clearsMask_of_alone (halone v h1 h2).1] at hclear
      cases hclear
  have hgoing := going hg.le (hspared.mono (by omega)) hkeeps
  have hnone : x.done k c g t = 0 := pulses_eq_zero fun v h1 h2 => by rw [ack_eq, hquiet v h1 h2]
  -- it is the last transfer of its block
  have hdone : x.done k c g (t + 1) = (x.block k c g).count.toNat + 1 := by
    have hwalked := (hgoing.tc_iff.1 htc).2
    rw [hautos, hnone] at hwalked
    rw [DmaRun.done_succ hg.le, hnone, ack_eq, hup, if_pos rfl, ← hwalked]
    rfl
  have hmask := (h.blocks k c g (t + 1) (by omega) hspared).masked hautos hdone
  obtain ⟨htouches, hclear⟩ := halone t hg.le (by omega)
  rw [x.state_succ, DmaSystem.chip_step] at hmask
  exact (I8237.mask_of_tc running hclear (clearsMask_of_alone htouches) htc hauto).1 hmask hother

/-- The DMA system performs the blocks of its channels if and only if no terminal count is lost. -/
theorem performs_iff (x : DmaTransfers) : x.Performs ↔ x.KeepsMasks := by
  constructor
  · intro h t k c
    exact keepsMask_of_performs h
  · intro h
    exact {
      operations := fun t => ⟨_, (x.granted_ops t).symm⟩
      complete := x.exists_performed
      acknowledges := fun t => ⟨_, (x.granted_acks t).symm⟩
      acknowledged := x.exists_acked
      reads := x.handsOut
      blocks := fun k c a b hab hspared => counted hab hspared fun t _ _ => h t k c }

end DmaTransfers

/-! ## A terminal count that is lost -/

namespace DmaSystem

variable {s : DmaSystem} {i : DmaIn}

/-- Nothing is under way, and no channel asks for a transfer. -/
structure Inert (s : DmaSystem) : Prop where
  resting : s.Resting
  quiet : ∀ k, (s.chip k).pending = 0
  taken : s.heldValid = false

theorem Inert.step (h : s.Inert) (hr : i.rstN = true) (hw : i.ioWrite = false) (hsla : i.slaReq = 0)
    (hmas : i.masReq = 0) : (s.step i).Inert := by
  have hno : ∀ k, (s.chipIn i k).chReq = 0 := by
    rcases s.arbiter i with hno | ⟨k, c, ha⟩
    · exact hno
    · have hreq := ha.req
      rw [I8237.req, h.quiet k] at hreq
      simp at hreq
  have hidle : ∀ k, ((s.step i).chip k).state = .idle := by
    intro k
    rw [chip_step, (I8237.idle_step ((chipIn_rstN s i k).trans hr) (not_busy_iff.1 (h.resting.free k))).1, hno k]
    simp
  have hrest := h.resting
  refine ⟨⟨fun k => not_busy_iff.2 (hidle k), ?_, ?_⟩, fun k => ?_, ?_⟩
  · show (if s.busy .mas then s.mas.dmaRead else if s.busy .sla then s.sla.dmaRead else false) = _
    rw [hrest.free .mas, hrest.free .sla]
    rfl
  · show (if s.busy .mas then s.mas.dmaWrite else if s.busy .sla then s.sla.dmaWrite else false) = _
    rw [hrest.free .mas, hrest.free .sla]
    rfl
  · have hwrite : (s.chipIn i k).write = false := by
      cases k <;> simp [chipIn, hw]
    have hpending : (s.chipIn i k).chPending = 0 := by
      cases k
      · exact hsla
      · exact hmas
    rw [chip_step]
    unfold I8237.step I8237.masterClear
    simp only [hwrite, hpending, (chipIn_rstN s i k).trans hr, Bool.false_and, Bool.not_true, Bool.or_self,
      Bool.false_eq_true, if_false]
  · rw [heldValid_step hr, h.taken, hrest.read, hrest.write]
    rfl

theorem Inert.kept (h : s.Inert) (hr : i.rstN = true) : s.Kept i := by
  have hfree : ∀ k, s.busy k = true → False := fun k hbusy => by
    rw [h.resting.free k] at hbusy
    cases hbusy
  refine ⟨hr, fun k hs => ?_, fun k hbusy => (hfree k hbusy).elim, fun k hbusy => (hfree k hbusy).elim⟩
  rw [not_busy_iff.1 (h.resting.free k)] at hs
  cases hs

end DmaSystem

namespace DmaRun

/-- A clock in which the processor writes a register of the slave, or of the master, or does nothing. -/
def writeIn (w : Option (Chip × BitVec 4 × BitVec 8)) (req : BitVec 4) : DmaIn where
  rstN := true
  ioAddress := match w with
    | some (.sla, a, _) => 0#1 ++ a
    | some (.mas, a, _) => a ++ 0#1
    | none => 0
  ioRead := false
  ioWrite := w.isSome
  ioWritedata := (w.map fun v => v.2.2).getD 0
  ioMasterCs := w.map Prod.fst == some .mas
  ioSlaveCs := w.map Prod.fst == some .sla
  ioPageCs := false
  slaReq := req
  masReq := 0
  slaWritedata := fun _ => 0
  masWritedata := fun _ => 0
  memReady := true
  memRespValid := false
  memDout := 0

/-- A system before its reset. -/
def unset : DmaSystem where
  sla := I8237Run.unset
  mas := I8237Run.unset
  page := fun _ _ => 0
  memAddress := 0
  mem16bit := false
  memRead := false
  memWrite := false
  memWritedata := 0
  heldValid := false
  heldWr := false
  heldAddr := 0
  heldData := 0
  held16bit := false
  memWr := false

/-- Channel 2 transfers one byte to the memory; while it reaches its terminal count, the processor masks channel 1. -/
def maskedLate : DmaRun where
  start := unset
  inputs t := match t with
    | 0 => writeIn (some (.mas, 0xA, 0)) 0
    | 1 => writeIn (some (.sla, 0xA, 2)) 0
    | 2 => writeIn (some (.sla, 0xB, 0x46)) 0
    | 3 => writeIn none 4
    | 7 => writeIn (some (.sla, 0xA, 5)) 0
    | _ => writeIn none 0

theorem maskedLate_inert {t : Nat} (ht : 9 ≤ t) : (maskedLate.state t).Inert := by
  induction t, ht using Nat.le_induction with
  | base =>
    refine ⟨⟨?_, by decide, by decide⟩, ?_, by decide⟩
    all_goals
      rintro (_ | _)
      all_goals decide
  | succ t ht ih =>
    have hin : maskedLate.inputs t = writeIn none 0 := by
      obtain ⟨n, rfl⟩ := Nat.exists_eq_add_of_le' ht
      rfl
    rw [state_succ, hin]
    exact ih.step rfl rfl rfl rfl

theorem maskedLate_kept (t : Nat) : (maskedLate.state t).Kept (maskedLate.inputs t) := by
  have hrun : (maskedLate.inputs t).rstN = true := by
    unfold maskedLate
    dsimp only
    split <;> rfl
  rcases Nat.lt_or_ge t 9 with hlt | hge
  · have hall : ∀ t, t < 9 → ∀ k ∈ Chip.all,
        (((maskedLate.state t).chip k).state = .granted →
          ((maskedLate.state t).chip k).transfer ((maskedLate.state t).chip k).active = 1) ∧
        ((maskedLate.state t).busy k = true →
          I8237.masterClear ((maskedLate.state t).chipIn (maskedLate.inputs t) k) = false ∧
          (maskedLate.state t).touches (maskedLate.inputs t) k ((maskedLate.state t).chip k).active = false) := by
      decide
    have hmem : ∀ k, k ∈ Chip.all := by
      rintro (_ | _) <;> decide
    exact ⟨hrun, fun k hs => .inl ((hall t hlt k (hmem k)).1 hs), fun k hb => ((hall t hlt k (hmem k)).2 hb).1,
      fun k hb => ((hall t hlt k (hmem k)).2 hb).2⟩
  · exact (maskedLate_inert hge).kept hrun

end DmaRun

/-- The memory takes every request at once; nothing is read. -/
def maskedLateTransfers : DmaTransfers where
  toDmaRun := DmaRun.maskedLate
  kept := DmaRun.maskedLate_kept
  takes t _ := ⟨t, le_rfl, by
    show (DmaRun.maskedLate.inputs t).memReady = true
    unfold DmaRun.maskedLate
    dsimp only
    split <;> rfl⟩
  answers t hperforms hread := by
    rcases Nat.lt_or_ge t 9 with hlt | hge
    · have hall : ∀ t, t < 9 → (DmaRun.maskedLate.state t).performs (DmaRun.maskedLate.inputs t) = true →
          (DmaRun.maskedLate.state t).heldWr = true := by decide
      exact absurd (hread.symm.trans (hall t hlt hperforms)) Bool.false_ne_true
    · rw [DmaSystem.performs, (DmaRun.maskedLate_inert hge).taken] at hperforms
      cases hperforms
  owed t hresp := by
    have hno : (DmaRun.maskedLate.inputs t).memRespValid = false := by
      unfold DmaRun.maskedLate
      dsimp only
      split <;> rfl
    rw [hno] at hresp
    cases hresp

theorem maskedLate_not_performs : ¬ maskedLateTransfers.Performs := by
  intro h
  have hspared : DmaRun.maskedLate.Spared .sla 2 4 8 := by
    have hall : ∀ t, t < 8 → 4 ≤ t →
        (DmaRun.maskedLate.state t).programs (DmaRun.maskedLate.inputs t) .sla 2 = false ∧
        I8237.masterClear ((DmaRun.maskedLate.state t).chipIn (DmaRun.maskedLate.inputs t) .sla) = false ∧
        I8237.clearsMask ((DmaRun.maskedLate.state t).chipIn (DmaRun.maskedLate.inputs t) .sla) 2 = false := by
      decide
    have hauto : ((DmaRun.maskedLate.state 4).chip .sla).auto 2 = false := by decide
    refine ⟨by decide, fun hyes => ?_, fun t h1 h2 => (hall t h2 h1).1, fun t h1 h2 => (hall t h2 h1).2.1,
      fun t h1 h2 hclear => ?_⟩
    · exact absurd (hauto.symm.trans hyes) Bool.false_ne_true
    · exact absurd ((hall t h2 h1).2.2.symm.trans hclear) Bool.false_ne_true
  have hmask := (h.blocks .sla 2 4 8 (by omega) hspared).masked (by decide) (by decide)
  have hlost : ((DmaRun.maskedLate.state 8).chip .sla).mask.getLsbD 2 = false := by decide
  exact absurd (hlost.symm.trans hmask) Bool.false_ne_true

end Z486.Dma
