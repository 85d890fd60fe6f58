/-
Runs of the DDR3 arbiter after boot. As long as no master is turned off with beats still to come, each
request reaches DDR3 once and as the master holds it, and the beats of a master's reads come back to
it, all of them and in order. A fetcher turned off in the middle of a burst leaves its beats to the
next reader.
-/
import Z486.Ddr3.Routing

namespace Z486.Ddr3

open Clocked Memory

/-! ## Requests -/

/-- The master is on in this clock. -/
def Ddr3In.turnedOn (i : Ddr3In) : Master → Bool
  | .fetcher => i.enable
  | .gus => i.gusOn
  | .mainMemory => true

namespace Ddr3System

variable {s : Ddr3System} {i : Ddr3In}

/-- A request that is not issued is held. -/
theorem request_held (h : s.Inv) (hr : i.ports.reset = false) {m : Master} (hon : i.turnedOn m = true)
    (hm : (s.request m).isSome = true) (hn : s.issued i m = none) : (s.step i).request m = s.request m := by
  cases m with
  | fetcher =>
    have hrd : s.lf.ddrRd = true := by
      cases hrd : s.lf.ddrRd
      · simp [request, hrd] at hm
      · rfl
    obtain ⟨h1, h2, h3⟩ : (s.step i).lf.ddrRd = true ∧ (s.step i).lf.ddrAddr = s.lf.ddrAddr ∧
        (s.step i).lf.ddrBurstcnt = s.lf.ddrBurstcnt := by
      have hon' : i.enable = true := hon
      simp only [step, hon']
      exact (LineFetcher.step_issue (h.lf.issue hrd) h.lf (lf_busy_of hn)).2.2 hrd
    simp only [request, h1, h2, h3, hrd]
  | gus =>
    have hst : s.gus.state = .rd ∨ s.gus.state = .wr := by
      by_contra hno
      rw [not_or] at hno
      simp [request, GusDdr.ddrRd, GusDdr.ddrWe, hno] at hm
    have hb : s.gusBusy i = true := by
      cases hb : s.gusBusy i
      · rw [issued, busy, hb] at hn
        simp [show s.request .gus = none from hn] at hm
      · rfl
    obtain ⟨h1, h2, h3, h4⟩ : (s.step i).gus.state = s.gus.state ∧ (s.step i).gus.aR = s.gus.aR ∧
        (s.step i).gus.dR = s.gus.dR ∧ (s.step i).gus.wR = s.gus.wR := by
      have hon' : i.gusOn = true := hon
      simp only [step, hon']
      exact GusDdr.step_held hst hb
    simp only [request, GusDdr.ddrRd, GusDdr.ddrWe, GusDdr.ddrAddr, GusDdr.ddrDin, GusDdr.ddrBe, h1, h2, h3, h4]
  | mainMemory =>
    have hst : s.mm.state = .fbRead ∨ s.mm.state = .fbWrite := by
      by_contra hno
      rw [not_or] at hno
      simp [request, fbDdramRd_eq, fbDdramWe_eq, hno] at hm
    have hb : (s.mmIn i).fbDdramBusy = true := by
      cases hb : s.mmBusyIn i
      · rw [issued, busy, hb] at hn
        simp [show s.request .mainMemory = none from hn] at hm
      · exact hb
    obtain ⟨h1, h2, h3, h4⟩ : (s.step i).mm.state = s.mm.state ∧ (s.step i).mm.fbDdramAddr = s.mm.fbDdramAddr ∧
        (s.step i).mm.fbDdramDin = s.mm.fbDdramDin ∧ (s.step i).mm.fbDdramBe = s.mm.fbDdramBe :=
      mm_held (i := s.mmIn i) hr hst hb
    rcases hst with hst | hst <;> simp [request, fbDdramRd_eq, fbDdramWe_eq, h1, h2, h3, h4, hst]

/-- A request that is issued is gone in the next clock. -/
theorem request_once (h : s.Inv) (hr : i.ports.reset = false) {m : Master} (hm : (s.issued i m).isSome = true) :
    (s.step i).request m = none := by
  have hb : s.busy i m = false := by
    cases hb : s.busy i m
    · rfl
    · simp [issued, hb] at hm
  have hq : (s.request m).isSome = true := by simpa [issued, hb] using hm
  cases m with
  | fetcher =>
    have hrd : s.lf.ddrRd = true := by
      cases hrd : s.lf.ddrRd
      · simp [request, hrd] at hq
      · rfl
    have h1 : (s.step i).lf.ddrRd = false := by
      simp only [step]
      cases i.enable
      · simp [LineFetcher.step_disabled, LineFetcher.reset]
      · exact (LineFetcher.step_accepted h.lf hrd hb).2.1
    simp [request, h1]
  | gus =>
    have hst : s.gus.state = .rd ∨ s.gus.state = .wr := by
      by_contra hno
      rw [not_or] at hno
      simp [request, GusDdr.ddrRd, GusDdr.ddrWe, hno] at hq
    have h1 : (s.step i).gus.state ≠ .rd ∧ (s.step i).gus.state ≠ .wr := by
      simp only [step]
      cases i.gusOn
      · simp [GusDdr.step_off, GusDdr.reset]
      · have hb' : s.gusBusy i = false := hb
        rw [GusDdr.step_accepted hst hb']
        split <;> simp
    simp [request, GusDdr.ddrRd, GusDdr.ddrWe, h1]
  | mainMemory =>
    have hst : s.mm.state = .fbRead ∨ s.mm.state = .fbWrite := by
      by_contra hno
      rw [not_or] at hno
      simp [request, fbDdramRd_eq, fbDdramWe_eq, hno] at hq
    have h1 : (s.step i).mm.state = _ := mm_accepted (i := s.mmIn i) hr hst hb
    simp only [request, fbDdramRd_eq, fbDdramWe_eq, h1]
    split <;> simp

end Ddr3System

/-! ## Runs -/

/-- A run from the end of boot, where only the other registers of the reset masters and the state of
`main_memory`, which has not read yet, are open. -/
structure Ddr3Run where
  lf₀ : LineFetcher
  gus₀ : GusDdr
  mm₀ : MainMemory
  mem₀ : Bytes
  inp : Nat → Ddr3In
  notReading : mm₀.state ≠ .fbReadWait
  noReset : ∀ t, (inp t).ports.reset = false

namespace Ddr3Run

variable (R : Ddr3Run)

def regs (t : Nat) : Ddr3System :=
  run Ddr3System.step ⟨R.lf₀.reset, R.gus₀.reset, R.mm₀, false, R.mem₀, []⟩ R.inp t

/-- The words the master's reads issued before clock `t` ask for. -/
def asked (m : Master) (t : Nat) : List (BitVec 64) :=
  journal (fun u => (((R.regs u).issued (R.inp u) m).map (DdrCommand.beats (R.regs u).mem)).getD []) t

/-- The beats the master took before clock `t`. -/
def got (m : Master) (t : Nat) : List (BitVec 64) := journal (fun u => ((R.regs u).taken (R.inp u) m).toList) t

/-- The beats DDR3 has for the master. -/
def waiting (m : Master) (t : Nat) : List (BitVec 64) :=
  (R.regs t).queue.filterMap fun b => if b.master = some m then some b.data else none

/-- The port serves each master as if it was alone. -/
structure Delivers : Prop where
  routed : ∀ t, (R.regs t).Routed (R.inp t)
  held : ∀ t m, (R.inp t).turnedOn m = true → ((R.regs t).request m).isSome = true →
    (R.regs t).issued (R.inp t) m = none → (R.regs (t + 1)).request m = (R.regs t).request m
  once : ∀ t m, ((R.regs t).issued (R.inp t) m).isSome = true → (R.regs (t + 1)).request m = none
  beats : ∀ t m, R.asked m t = R.got m t ++ R.waiting m t

variable {R}

theorem inv (hkeep : ∀ t, (R.regs t).dropsInFlight (R.inp t) = false) (t : Nat) : (R.regs t).Inv := by
  refine run_invariant (I := Ddr3System.Inv) ⟨LineFetcher.reset_wf, ?_, none, ?_⟩ (fun t h => ?_) t
  · exact (beq_eq_false_iff_ne.2 R.notReading).symm
  · exact .none rfl (by simp [LineFetcher.reset]) (by simp [GusDdr.reset]) R.notReading
  · exact Ddr3System.inv_step h (R.noReset t) (hkeep t)

/-- The part of the port's beats that is a master's. -/
theorem asked_eq (h : ∀ t, (R.regs t).Inv) (m : Master) (t : Nat) : R.asked m t =
    (journal (fun u => (R.regs u).pushed (R.inp u)) t).filterMap fun b =>
      if b.master = some m then some b.data else none := by
  rw [journal_filterMap]
  refine journal_congr fun u _ => ?_
  have hfilter : ∀ (n : Option Master) (ds : List (BitVec 64)), (ds.map (Beat.mk n)).filterMap
      (fun b => if b.master = some m then some b.data else none) = if n = some m then ds else [] := by
    intro n ds
    induction ds with
    | nil => simp
    | cons d ds ih => by_cases hn : n = some m <;> simp_all
  cases hc : (R.regs u).accepted (R.inp u) with
  | none => simp [Ddr3System.pushed, hc, Ddr3System.not_issued hc (h u)]
  | some c =>
    have hiss := Ddr3System.issued_iff (i := R.inp u) (h u) m
    simp only [Ddr3System.pushed, hc, hfilter]
    rw [Ddr3System.issuer_eq (h u) hc]
    by_cases hm : m = if (R.regs u).lf.owner then .fetcher else if (R.regs u).gus.active then .gus else .mainMemory
    · rw [(hiss c).2 ⟨hm, hc⟩, ← hm]
      simp
    · have hnone : (R.regs u).issued (R.inp u) m = none := by
        by_contra hne
        obtain ⟨c', hc'⟩ := Option.ne_none_iff_exists'.1 hne
        exact hm ((hiss c').1 hc').1
      rw [hnone, if_neg fun heq => hm (Option.some.inj heq).symm]
      rfl

theorem got_eq (h : ∀ t, (R.regs t).Inv) (m : Master) (t : Nat) : R.got m t =
    (journal (fun u => ((R.regs u).returned (R.inp u)).toList) t).filterMap
      fun b => if b.master = some m then some b.data else none := by
  rw [journal_filterMap]
  refine journal_congr fun u _ => ?_
  have hr := (Ddr3System.routed (i := R.inp u) (h u)).taken m
  cases hb : (R.regs u).returned (R.inp u) with
  | none =>
    have hnone : (R.regs u).taken (R.inp u) m = none := by
      by_contra hne
      obtain ⟨d, hd⟩ := Option.ne_none_iff_exists'.1 hne
      simpa [hb] using (hr d).1 hd
    simp [hnone]
  | some b =>
    obtain ⟨n, d⟩ := b
    by_cases hn : n = some m
    · rw [(hr d).2 (by rw [hb, hn])]
      simp [hn]
    · have hnone : (R.regs u).taken (R.inp u) m = none := by
        by_contra hne
        obtain ⟨d', hd'⟩ := Option.ne_none_iff_exists'.1 hne
        have := (hr d').1 hd'
        rw [hb] at this
        simp only [Option.some.injEq, Beat.mk.injEq] at this
        exact hn this.1
      simp [hnone, hn]

/-- If no master is turned off while DDR3 has beats for it, every request and every beat goes between its
master and DDR3, once. -/
theorem delivers (R : Ddr3Run) (hkeep : ∀ t, (R.regs t).dropsInFlight (R.inp t) = false) : R.Delivers := by
  have h := inv hkeep
  refine ⟨fun t => Ddr3System.routed (h t), fun t m hon hm hn => ?_, fun t m hm => ?_, fun t m => ?_⟩
  · exact Ddr3System.request_held (h t) (R.noReset t) hon hm hn
  · exact Ddr3System.request_once (h t) (R.noReset t) hm
  · have hfifo : journal (fun u => (R.regs u).pushed (R.inp u)) t =
        journal (fun u => ((R.regs u).returned (R.inp u)).toList) t ++ (R.regs t).queue :=
      journal_fifo (q := fun t => (R.regs t).queue) rfl t fun _ _ => Ddr3System.queue_step
    rw [asked_eq h, got_eq h, hfifo, List.filterMap_append]
    rfl

end Ddr3Run

/-! ## A burst cut short -/

/-- The fetcher always wants a line of eight words, and the CPU reads the linear framebuffer. -/
def demand (enable answers : Bool) : Ddr3In where
  enable := enable
  gusOn := true
  fetch := ⟨0, true, 0, false, 0, 8, 8⟩
  gusReq := ⟨false, false, false, 0, 0⟩
  ports :=
    { reset := false, cpu := ⟨true, false, 0x0F800000, 0, 0xF, 1⟩, ramSize := 0, memDout := 0, memRespValid := false
      memReady := false, vgaReaddata := 0, vga := ⟨4, false, 0, 0, false, false, 0, 0, 0⟩, fbDdramDout := 0
      fbDdramDoutReady := false, fbDdramBusy := false }
  ddramBusy := false
  answers := answers

/-- A run with all masters on in the clocks in which `enable` says so. -/
def demandRun (enable answers : Nat → Bool) : Ddr3Run where
  lf₀ := ⟨.idle, 0, false, 0, 0, 0, 0, false, false, 0, 0, 0⟩
  gus₀ := ⟨.idle, 0, false, 0, 0, 0, false, 0, false⟩
  mm₀ := .cleared
  mem₀ := fun _ => 0
  inp := fun t => demand (enable t) (answers t)
  notReading := by decide
  noReset := fun _ => rfl

/-- With the fetcher always on its first burst comes back to it. -/
theorem steadyDemand_delivers : (demandRun (fun _ => true) fun _ => true).Delivers ∧
    ((demandRun (fun _ => true) fun _ => true).got .fetcher 11).length = 8 :=
  ⟨Ddr3Run.delivers _ fun _ => rfl, by decide⟩

/-- Turned off in the clock after DDR3 took its burst, the fetcher leaves the first beat to `main_memory`. -/
theorem cutBurst_not_delivers : ¬ (demandRun (fun t => t < 3) fun t => 5 ≤ t).Delivers := by
  intro h
  have hr := (h.routed 5).taken .mainMemory 0
  have htaken : ((demandRun (fun t => t < 3) fun t => 5 ≤ t).regs 5).taken
      ((demandRun (fun t => t < 3) fun t => 5 ≤ t).inp 5) .mainMemory = some 0 := by decide
  have hbeat : (((demandRun (fun t => t < 3) fun t => 5 ≤ t).regs 5).returned
      ((demandRun (fun t => t < 3) fun t => 5 ≤ t).inp 5)).map Beat.master = some (some .fetcher) := by decide
  rw [hr.1 htaken] at hbeat
  exact absurd hbeat (by decide)

end Z486.Ddr3
