/-
Each beat goes to the master that asked for it. DDR3 has beats to return for at most one master at a
time, and that master's state says for how many: the invariant of the arbiter and its three masters.
It is kept by every edge that does not turn off a master whose beats are still to come; the beats of
a fetcher or a GUS memory turned off earlier reach whoever waits next.
-/
import Z486.Ddr3.Arbiter

namespace Z486.Ddr3

open Clocked Memory

/-! ## `main_memory` on the port -/

section MainMemory

variable {mailbox : Bool} {s : MainMemory} {i : MainMemoryIn}

theorem idle_state (hs : s.state = .idle) : (s.idle mailbox i).state ≠ .fbReadWait := by
  unfold MainMemory.idle
  cases s.access mailbox i with
  | shared => simp only [MainMemory.acceptShared]; split_ifs <;> simp
  | unmappedRead | vgaBurst => simp
  | linear => simp only [MainMemory.acceptLinear]; split_ifs <;> simp
  | vga => simp only [MainMemory.acceptVga, MainMemory.acceptBanked]; split_ifs <;> simp
  | none => simp [hs]

/-- `main_memory` waits for a beat from the clock after DDR3 took its read until the beat comes. -/
theorem mm_waits (hr : i.reset = false) : (s.step mailbox i).state = .fbReadWait ↔
    (s.state = .fbRead ∧ i.fbDdramBusy = false) ∨ (s.state = .fbReadWait ∧ i.fbDdramDoutReady = false) := by
  rw [MainMemory.step_of_not_reset hr]
  simp only [MainMemory.setWindow, MainMemory.next]
  cases hs : s.state with
  | idle => simpa using idle_state hs
  | vgaRead =>
    simp only [MainMemory.vgaReadNext, MainMemory.clearPulses]
    split_ifs <;> simp [hs]
  | vgaWrite =>
    simp only [MainMemory.vgaWriteNext, MainMemory.clearPulses]
    split_ifs <;> simp [hs]
  | fbWrite =>
    simp only [MainMemory.fbWriteNext, MainMemory.clearPulses]
    split_ifs <;> simp [hs]
  | fbRead =>
    simp only [MainMemory.fbReadNext, MainMemory.clearPulses]
    cases i.fbDdramBusy <;> simp [hs]
  | fbReadWait =>
    simp only [MainMemory.fbReadWaitNext, MainMemory.clearPulses]
    cases i.fbDdramDoutReady
    · simp [hs]
    · simp only [if_true]
      split_ifs <;> simp
  | unmappedRead =>
    simp only [MainMemory.unmappedReadNext, MainMemory.clearPulses]
    split_ifs <;> simp [hs]
  | sharedDrop => simp [MainMemory.sharedDropNext]

/-- A command DDR3 does not take stays on the port. -/
theorem mm_held (hr : i.reset = false) (hs : s.state = .fbRead ∨ s.state = .fbWrite) (hb : i.fbDdramBusy = true) :
    (s.step mailbox i).state = s.state ∧ (s.step mailbox i).fbDdramAddr = s.fbDdramAddr ∧
      (s.step mailbox i).fbDdramDin = s.fbDdramDin ∧ (s.step mailbox i).fbDdramBe = s.fbDdramBe := by
  rw [MainMemory.step_of_not_reset hr]
  rcases hs with hs | hs
  · simp [MainMemory.setWindow, MainMemory.next, hs, MainMemory.fbReadNext, hb, MainMemory.clearPulses]
  · simp [MainMemory.setWindow, MainMemory.next, hs, MainMemory.fbWriteNext, hb, MainMemory.clearPulses]

theorem mm_accepted (hr : i.reset = false) (hs : s.state = .fbRead ∨ s.state = .fbWrite) (hb : i.fbDdramBusy = false) :
    (s.step mailbox i).state = if s.state = .fbRead then .fbReadWait else .idle := by
  rw [MainMemory.step_of_not_reset hr]
  rcases hs with hs | hs
  · simp [MainMemory.setWindow, MainMemory.next, hs, MainMemory.fbReadNext, hb]
  · simp [MainMemory.setWindow, MainMemory.next, hs, MainMemory.fbWriteNext, hb]

end MainMemory

/-! ## The invariant -/

/-- For whom DDR3 still has beats to return. -/
inductive Ddr3System.Waits (s : Ddr3System) : Option Master → Prop
  | none : s.queue = [] → s.lf.state ≠ .data → s.gus.state ≠ .rdw → s.mm.state ≠ .fbReadWait → s.Waits none
  | fetcher : (∃ ds : List (BitVec 64), s.queue = ds.map (Beat.mk (some .fetcher)) ∧ ds.length = s.lf.burstLeft.toNat) →
      s.lf.state = .data → s.gus.state ≠ .rdw → s.mm.state ≠ .fbReadWait → s.Waits (some .fetcher)
  | gus : (∃ d, s.queue = [⟨some .gus, d⟩]) → s.lf.state = .idle → s.gus.state = .rdw → s.mm.state ≠ .fbReadWait →
      s.Waits (some .gus)
  | mainMemory : (∃ d, s.queue = [⟨some .mainMemory, d⟩]) → s.lf.state = .idle → s.gus.state = .idle →
      s.mm.state = .fbReadWait → s.Waits (some .mainMemory)

structure Ddr3System.Inv (s : Ddr3System) : Prop where
  lf : s.lf.Wf
  pending : s.mmRdPending = (s.mm.state == .fbReadWait)
  waits : ∃ m, s.Waits m

namespace Ddr3System

/-- In this clock commands and beats go between DDR3 and one master, and the right one. -/
structure Routed (s : Ddr3System) (i : Ddr3In) : Prop where
  /-- DDR3 takes exactly the commands the masters take for accepted -/
  accepted : ∀ c, s.accepted i = some c ↔ ∃ m, s.issued i m = some c
  /-- and they are those of one master -/
  one : ∀ m m', (s.issued i m).isSome = true → (s.issued i m').isSome = true → m = m'
  /-- a returned beat is taken by the master whose read it belongs to, and by no other -/
  taken : ∀ m d, s.taken i m = some d ↔ s.returned i = some ⟨some m, d⟩
  marked : ∀ b, s.returned i = some b → b.master ≠ none

variable {s : Ddr3System} {i : Ddr3In}

theorem fbDdramRd_eq : s.mm.fbDdramRd = (s.mm.state == .fbRead) := rfl

theorem fbDdramWe_eq : s.mm.fbDdramWe = (s.mm.state == .fbWrite) := rfl

theorem owner_of_rd (h : s.Inv) (hrd : s.lf.ddrRd = true) : s.lf.owner = true := by
  simp [LineFetcher.owner, h.lf.issue hrd]

/-- Who issues in a clock: the fetcher while it owns the port, the GUS memory while it is active, else
`main_memory`. -/
theorem issued_eq (h : s.Inv) (m : Master) : s.issued i m =
    if i.ddramBusy then none
    else match m with
      | .fetcher => if s.lf.owner then s.request .fetcher else none
      | .gus => if s.lf.owner then none else s.request .gus
      | .mainMemory => if s.lf.owner || s.gus.active then none else s.request .mainMemory := by
  unfold issued
  cases m with
  | fetcher =>
    simp only [busy, lfBusy, request]
    cases hrd : s.lf.ddrRd
    · simp
    · simp [owner_of_rd h hrd]
  | gus => cases hb : i.ddramBusy <;> cases ho : s.lf.owner <;> simp [busy, gusBusy, hb, ho]
  | mainMemory =>
    cases hb : i.ddramBusy <;> cases ho : s.lf.owner <;> cases ha : s.gus.active <;> simp [busy, mmBusyIn, hb, ho, ha]

theorem accepted_eq : s.accepted i =
    if i.ddramBusy then none
    else s.request (if s.lf.owner then .fetcher else if s.gus.active then .gus else .mainMemory) := by
  unfold accepted ddramRd ddramWe ddramAddr ddramBurstcnt ddramDin ddramBe
  cases i.ddramBusy
  · cases ho : s.lf.owner
    · cases s.gus.active <;> simp [request]
    · simp [request]
  · simp

theorem issued_iff (h : s.Inv) (m : Master) (c : DdrCommand) : s.issued i m = some c ↔
    m = (if s.lf.owner then .fetcher else if s.gus.active then .gus else .mainMemory) ∧ s.accepted i = some c := by
  rw [issued_eq h, accepted_eq]
  cases i.ddramBusy
  · cases s.lf.owner
    · cases ha : s.gus.active
      · have hidle := GusDdr.active_eq_false.1 ha
        cases m <;> simp [request, GusDdr.ddrRd, GusDdr.ddrWe, hidle]
      · cases m <;> simp
    · cases m <;> simp
  · simp

theorem issuer_eq (h : s.Inv) {c : DdrCommand} (hc : s.accepted i = some c) : s.issuer i =
    some (if s.lf.owner then .fetcher else if s.gus.active then .gus else .mainMemory) := by
  have hm := (issued_iff h _ c).2 ⟨rfl, hc⟩
  have hother : ∀ m, m ≠ (if s.lf.owner then .fetcher else if s.gus.active then .gus else .mainMemory) →
      s.issued i m = none := by
    intro m hne
    by_contra hsome
    obtain ⟨c', hc'⟩ := Option.ne_none_iff_exists'.1 hsome
    exact hne ((issued_iff h m c').1 hc').1
  unfold issuer
  cases ho : s.lf.owner
  · cases ha : s.gus.active
    · simp only [ho, ha, Bool.false_eq_true, if_false] at hm hother ⊢
      simp [hm, hother .fetcher (by decide), hother .gus (by decide)]
    · simp only [ho, ha, Bool.false_eq_true, if_false, if_true] at hm hother ⊢
      simp [hm, hother .fetcher (by decide)]
  · simp only [ho, if_true] at hm ⊢
    simp [hm]

/-! ### Every clock is routed -/

theorem returned_nil (hq : s.queue = []) : s.returned i = none := by
  simp [returned, fifoOut, hq]

/-- The beat of a clock is for the master that DDR3 has beats for. -/
theorem returned_of_waits {m : Option Master} (h : s.Waits m) {b : Beat} (hb : s.returned i = some b) :
    b.master = m ∧ m ≠ none := by
  cases h with
  | none hq => simp [returned_nil hq] at hb
  | fetcher hq =>
    obtain ⟨ds, hq, -⟩ := hq
    rcases ds with _ | ⟨d, ds⟩
    · simp [returned, fifoOut, hq] at hb
    · simp only [returned, fifoOut, hq, List.map_cons, List.head?_cons, Option.ite_none_right_eq_some,
        Option.some.injEq] at hb
      simp [← hb.2]
  | gus hq | mainMemory hq =>
    obtain ⟨d, hq⟩ := hq
    simp only [returned, fifoOut, hq, List.head?_cons, Option.ite_none_right_eq_some, Option.some.injEq] at hb
    simp [← hb.2]

/-- In a clock with a beat the master that takes it is the one DDR3 has beats for. -/
theorem taken_of_waits {m : Option Master} (h : s.Waits m) (n : Master) (d : BitVec 64) :
    s.taken i n = some d ↔ m = some n ∧ s.doutReady i = true ∧ s.dout i = d := by
  cases h with
  | none _ hl hg hm => cases n <;> simp [taken, hl, hg, hm]
  | fetcher _ hl hg hm =>
    have ho : s.lf.owner = true := by simp [LineFetcher.owner, hl]
    cases n <;> simp [taken, hl, ho]
  | gus _ hl hg hm =>
    have ho : s.lf.owner = false := LineFetcher.owner_eq_false.2 hl
    cases n <;> simp [taken, hl, hg, hm, ho]
  | mainMemory _ hl hg hm =>
    have ho : s.lf.owner = false := LineFetcher.owner_eq_false.2 hl
    have ha : s.gus.active = false := GusDdr.active_eq_false.2 hg
    cases n <;> simp [taken, hl, hg, hm, ho, ha]

theorem routed (h : s.Inv) : s.Routed i := by
  obtain ⟨w, hw⟩ := h.waits
  refine ⟨fun c => ?_, fun m m' hm hm' => ?_, fun m d => ?_, fun b hb => ?_⟩
  · exact ⟨fun hc => ⟨_, (issued_iff h _ c).2 ⟨rfl, hc⟩⟩, fun ⟨m, hm⟩ => ((issued_iff h m c).1 hm).2⟩
  · obtain ⟨c, hc⟩ := Option.isSome_iff_exists.1 hm
    obtain ⟨c', hc'⟩ := Option.isSome_iff_exists.1 hm'
    exact ((issued_iff h m c).1 hc).1.trans ((issued_iff h m' c').1 hc').1.symm
  · rw [taken_of_waits hw, doutReady, dout]
    cases hr : s.returned i with
    | none => simp
    | some b =>
      obtain ⟨hb, hne⟩ := returned_of_waits hw hr
      obtain ⟨master, data⟩ := b
      simp only [Option.isSome_some, Option.map_some, Option.getD_some, true_and, Option.some.injEq, Beat.mk.injEq]
      rw [← hb]
  · obtain ⟨hm, hne⟩ := returned_of_waits hw hb
    rw [hm]
    exact hne

/-! ### The invariant is kept -/

theorem lf_idle_kept (hl : s.lf.state = .idle) (hb : s.lfBusy i = true) : (s.step i).lf.state = .idle := by
  simp only [step]
  cases i.enable
  · rfl
  · exact (LineFetcher.step_idle hl).2.resolve_right fun h => by simp [hb] at h

theorem lf_not_data (h : s.Inv) (hl : s.lf.state ≠ .data) (hrd : s.lf.ddrRd = true → s.lfBusy i = true) :
    (s.step i).lf.state ≠ .data := by
  simp only [step]
  cases i.enable
  · simp [LineFetcher.step_disabled, LineFetcher.reset]
  · cases hs : s.lf.state with
    | idle => exact LineFetcher.step_idle_ne hs
    | issue => exact (LineFetcher.step_issue hs h.lf hrd).1
    | data => exact absurd hs hl

theorem gus_idle_kept (hg : s.gus.state = .idle) (hb : s.gusStartOk = false) : (s.step i).gus.state = .idle := by
  simp only [step]
  cases i.gusOn
  · rfl
  · exact (GusDdr.step_idle hg).2 hb

theorem gus_not_rdw (hg : s.gus.state ≠ .rdw) (hrd : s.gus.state = .rd → s.gusBusy i = true) :
    (s.step i).gus.state ≠ .rdw := by
  simp only [step]
  cases i.gusOn
  · simp [GusDdr.step_off, GusDdr.reset]
  · cases hs : s.gus.state with
    | idle => exact (GusDdr.step_idle hs).1
    | rd =>
      rw [(GusDdr.step_held (.inl hs) (hrd hs)).1, hs]
      simp
    | rdw => exact absurd hs hg
    | wr =>
      cases hb : s.gusBusy i
      · rw [GusDdr.step_accepted (.inr hs) rfl, hs]
        simp
      · rw [(GusDdr.step_held (.inr hs) rfl).1, hs]
        simp

theorem mm_not_waiting (hr : i.ports.reset = false) (hm : s.mm.state ≠ .fbReadWait)
    (hrd : s.mm.state = .fbRead → s.mmBusyIn i = true) : (s.step i).mm.state ≠ .fbReadWait := by
  intro hw
  rcases (mm_waits (i := s.mmIn i) hr).1 hw with ⟨hs, hb⟩ | ⟨hs, -⟩
  · have hb' : s.mmBusyIn i = false := hb
    simp [hrd hs] at hb'
  · exact hm hs

theorem pending_step (h : s.Inv) (hr : i.ports.reset = false) :
    (s.step i).mmRdPending = ((s.step i).mm.state == .fbReadWait) := by
  have hw : (s.mm.step true (s.mmIn i)).state = .fbReadWait ↔ _ := mm_waits (i := s.mmIn i) hr
  have hbusy : (s.mmIn i).fbDdramBusy = s.mmBusyIn i := rfl
  have hready : (s.mmIn i).fbDdramDoutReady = (s.doutReady i && !s.lf.owner && !s.gus.active) := rfl
  rw [hbusy, hready, mmBusyIn] at hw
  rw [Bool.eq_iff_iff, beq_iff_eq, show (s.step i).mm = s.mm.step true (s.mmIn i) from rfl, hw]
  simp only [step, hr, Bool.false_eq_true, if_false, fbDdramRd_eq, h.pending]
  by_cases hrd : s.mm.state = .fbRead
  · cases i.ddramBusy <;> cases s.lf.owner <;> cases s.gus.active <;> simp [hrd]
  · by_cases hwt : s.mm.state = .fbReadWait
    · cases s.doutReady i <;> cases s.lf.owner <;> cases s.gus.active <;> simp [hwt]
    · simp [hrd, hwt]

theorem queue_step : (s.step i).queue = fifoStep s.queue i.answers (s.pushed i) := rfl

theorem pushed_none (hc : s.accepted i = none) : s.pushed i = [] := by
  simp [pushed, hc]

/-- A master whose command DDR3 does not take goes on as if DDR3 was busy. -/
theorem not_issued (hc : s.accepted i = none) (h : s.Inv) (m : Master) : s.issued i m = none := by
  by_contra hne
  obtain ⟨c, hm⟩ := Option.ne_none_iff_exists'.1 hne
  rw [((issued_iff h m c).1 hm).2] at hc
  exact absurd hc (by simp)

theorem lf_busy_of (h : s.issued i .fetcher = none) : s.lf.ddrRd = true → s.lfBusy i = true := by
  intro hrd
  simpa [issued, busy, request, hrd] using h

theorem gus_busy_of (h : s.issued i .gus = none) : s.gus.state = .rd → s.gusBusy i = true := by
  intro hrd
  simpa [issued, busy, request, GusDdr.ddrRd, hrd] using h

theorem mm_busy_of (h : s.issued i .mainMemory = none) : s.mm.state = .fbRead → s.mmBusyIn i = true := by
  intro hrd
  simpa [issued, busy, request, fbDdramRd_eq, hrd] using h

/-- With nothing in flight a clock in which DDR3 takes nothing leaves it so. -/
theorem waits_none (h : s.Inv) (hr : i.ports.reset = false) (hq : s.queue = []) (hl : s.lf.state ≠ .data)
    (hg : s.gus.state ≠ .rdw) (hm : s.mm.state ≠ .fbReadWait) (hc : s.accepted i = none) : (s.step i).Waits none := by
  refine .none ?_ (lf_not_data h hl (lf_busy_of (not_issued hc h _)))
    (gus_not_rdw hg (gus_busy_of (not_issued hc h _))) (mm_not_waiting hr hm (mm_busy_of (not_issued hc h _)))
  rw [queue_step, pushed_none hc, hq]
  cases i.answers <;> rfl

section Accepted

variable {c : DdrCommand} (hc : s.accepted i = some c) (hq : s.queue = [])
include hc

theorem not_busy_of_accepted : i.ddramBusy = false := by
  cases hb : i.ddramBusy
  · rfl
  · simp [accepted, hb] at hc

include hq

theorem queue_accepted : (s.step i).queue = (c.beats s.mem).map (Beat.mk (s.issuer i)) := by
  rw [queue_step, pushed, hc, hq]
  cases i.answers <;> simp [fifoStep]

variable (h : s.Inv)
include h

/-- The line fetcher owns the bus. -/
theorem fetcher_waits (hr : i.ports.reset = false) (hon : i.enable = true) (ho : s.lf.owner = true)
    (hg : s.gus.state ≠ .rdw) (hm : s.mm.state ≠ .fbReadWait) : ∃ m, (s.step i).Waits m := by
  have hbusy := not_busy_of_accepted hc
  have hissuer := issuer_eq h hc
  have hiss : s.issued i .fetcher = some c := (issued_iff h _ c).2 ⟨by simp [ho], hc⟩
  have hrd : s.lf.ddrRd = true := by
    cases hrd : s.lf.ddrRd
    · simp [issued, request, hrd] at hiss
    · rfl
  have hlb : s.lfBusy i = false := by simp [lfBusy, hbusy, ho]
  have hqueue := queue_accepted hc hq
  obtain ⟨hst, -, hleft⟩ := LineFetcher.step_accepted h.lf hrd hlb
  rw [ho, if_pos rfl] at hissuer
  have hread : DdrCommand.read s.lf.ddrAddr s.lf.ddrBurstcnt = c := by
    simpa [issued, request, hrd, busy, hlb] using hiss
  refine ⟨_, .fetcher ⟨_, hissuer ▸ hqueue, ?_⟩ ?_ (gus_not_rdw hg fun _ => by simp [gusBusy, ho])
    (mm_not_waiting hr hm fun _ => by simp [mmBusyIn, ho])⟩
  · simp only [step, hon]
    rw [hleft, ← hread]
    simp [DdrCommand.beats]
  · simp only [step, hon]
    exact hst

/-- The Gravis port has it. -/
theorem gus_waits (hr : i.ports.reset = false) (hkeep : i.gusOn = true ∨ s.gus.state ≠ .rd)
    (ho : s.lf.owner = false) (ha : s.gus.active = true) (hg : s.gus.state ≠ .rdw) (hm : s.mm.state ≠ .fbReadWait) :
    ∃ m, (s.step i).Waits m := by
  have hbusy := not_busy_of_accepted hc
  have hissuer := issuer_eq h hc
  have hiss : s.issued i .gus = some c := (issued_iff h _ c).2 ⟨by simp [ho, ha], hc⟩
  have hgb : s.gusBusy i = false := by simp [gusBusy, hbusy, ho]
  have hgst : s.gus.state = .rd ∨ s.gus.state = .wr := by
    by_contra hno
    rw [not_or] at hno
    simp [issued, request, GusDdr.ddrRd, GusDdr.ddrWe, hno] at hiss
  have hlf := lf_idle_kept (i := i) (LineFetcher.owner_eq_false.1 ho) (by simp [lfBusy, ha, ho])
  have hmm := mm_not_waiting (i := i) hr hm fun _ => by simp [mmBusyIn, ha]
  have hqueue := queue_accepted hc hq
  simp only [issued, request, GusDdr.ddrRd, GusDdr.ddrWe] at hiss
  rcases hgst with hgs | hgs
  · have hon : i.gusOn = true := hkeep.resolve_right fun hne => hne hgs
    have hread : DdrCommand.read s.gus.ddrAddr 1 = c := by simpa [hgs, busy, hgb] using hiss
    simp only [ho, ha, Bool.false_eq_true, if_false, if_true] at hissuer
    rw [hissuer, ← hread] at hqueue
    refine ⟨_, .gus ⟨_, hqueue⟩ hlf ?_ hmm⟩
    simp only [step, hon]
    rw [GusDdr.step_accepted (.inl hgs) hgb, if_pos hgs]
  · have hwrite : DdrCommand.write s.gus.ddrAddr s.gus.ddrDin s.gus.ddrBe = c := by
      simpa [hgs, busy, hgb] using hiss
    rw [← hwrite] at hqueue
    exact ⟨_, .none hqueue (by simp [hlf]) (gus_not_rdw hg fun h => by simp [hgs] at h) hmm⟩

/-- Neither has: the command is `main_memory`'s. -/
theorem mainMemory_waits (hr : i.ports.reset = false) (ho : s.lf.owner = false) (ha : s.gus.active = false) :
    ∃ m, (s.step i).Waits m := by
  have hbusy := not_busy_of_accepted hc
  have hissuer := issuer_eq h hc
  have hiss : s.issued i .mainMemory = some c := (issued_iff h _ c).2 ⟨by simp [ho, ha], hc⟩
  have hmb : (s.mmIn i).fbDdramBusy = false := show s.mmBusyIn i = false by simp [mmBusyIn, hbusy, ho, ha]
  have hmst : s.mm.state = .fbRead ∨ s.mm.state = .fbWrite := by
    by_contra hno
    rw [not_or] at hno
    simp [issued, request, fbDdramRd_eq, fbDdramWe_eq, hno] at hiss
  have hact : s.mmActive = true := by rcases hmst with h | h <;> simp [mmActive, fbDdramRd_eq, fbDdramWe_eq, h]
  have hlf := lf_idle_kept (i := i) (LineFetcher.owner_eq_false.1 ho) (by simp [lfBusy, hact, ho])
  have hgus := gus_idle_kept (i := i) (GusDdr.active_eq_false.1 ha) (by simp [gusStartOk, hact])
  have hnext : (s.step i).mm.state = _ := mm_accepted (i := s.mmIn i) hr hmst hmb
  have hqueue := queue_accepted hc hq
  simp only [issued, request, fbDdramRd_eq, fbDdramWe_eq] at hiss
  rcases hmst with hms | hms
  · rw [hms, if_pos rfl] at hnext
    have hread : DdrCommand.read s.mm.fbDdramAddr 1 = c := by
      simpa [hms, busy, show s.mmBusyIn i = false from hmb] using hiss
    simp only [ho, ha, Bool.false_eq_true, if_false] at hissuer
    rw [hissuer, ← hread] at hqueue
    exact ⟨_, .mainMemory ⟨_, hqueue⟩ hlf hgus hnext⟩
  · rw [hms, if_neg (by decide)] at hnext
    have hwrite : DdrCommand.write s.mm.fbDdramAddr s.mm.fbDdramDin s.mm.fbDdramBe = c := by
      simpa [hms, busy, show s.mmBusyIn i = false from hmb] using hiss
    rw [← hwrite] at hqueue
    exact ⟨_, .none hqueue (by simp [hlf]) (by simp [hgus]) (by simp [hnext])⟩

end Accepted

/-- With nothing in flight DDR3 has beats for the master whose read it takes. -/
theorem waits_accepted (h : s.Inv) (hr : i.ports.reset = false) (hkeep : s.dropsInFlight i = false) (hq : s.queue = [])
    (hg : s.gus.state ≠ .rdw) (hm : s.mm.state ≠ .fbReadWait) {c : DdrCommand}
    (hc : s.accepted i = some c) : ∃ m, (s.step i).Waits m := by
  have hbusy := not_busy_of_accepted hc
  simp only [dropsInFlight, Bool.or_eq_false_iff, Bool.and_eq_false_iff] at hkeep
  cases ho : s.lf.owner with
  | true =>
    have hiss : s.issued i .fetcher = some c := (issued_iff h _ c).2 ⟨by simp [ho], hc⟩
    exact fetcher_waits hc hq h hr (by simpa [hiss] using hkeep.1) ho hg hm
  | false =>
    cases ha : s.gus.active with
    | true =>
      have hgb : s.gusBusy i = false := by simp [gusBusy, hbusy, ho]
      refine gus_waits hc hq h hr ?_ ho ha hg hm
      by_cases hgs : s.gus.state = .rd
      · exact .inl (by simpa [hgs, hgb] using hkeep.2)
      · exact .inr hgs
    | false => exact mainMemory_waits hc hq h hr ho ha

/-- While a master waits for its beats DDR3 takes no command. -/
theorem accepted_none (h : s.Inv) {m : Master} (hw : s.Waits (some m)) : s.accepted i = none := by
  rw [accepted_eq]
  cases hw with
  | fetcher _ hl =>
    have hrd : s.lf.ddrRd = false := Bool.eq_false_iff.2 fun hrd => by simp [h.lf.issue hrd] at hl
    simp [LineFetcher.owner, hl, request, hrd]
  | gus _ hl hg => simp [LineFetcher.owner, hl, GusDdr.active, hg, request, GusDdr.ddrRd, GusDdr.ddrWe]
  | mainMemory _ hl hg hm =>
    simp [LineFetcher.owner, hl, GusDdr.active, hg, request, fbDdramRd_eq, fbDdramWe_eq, hm]

section Waiting

variable (h : s.Inv) (hr : i.ports.reset = false) (hkeep : s.dropsInFlight i = false)
include h hr hkeep

/-- A beat of the fetcher's burst brings it one beat nearer to the end. -/
theorem waits_fetcher (hw : s.Waits (some .fetcher)) : ∃ m, (s.step i).Waits m := by
  have hc := accepted_none (i := i) h hw
  obtain ⟨⟨ds, hq, hlen⟩, hl, hg, hm⟩ : (∃ ds : List (BitVec 64), s.queue = ds.map (Beat.mk (some .fetcher)) ∧
      ds.length = s.lf.burstLeft.toNat) ∧ s.lf.state = .data ∧ s.gus.state ≠ .rdw ∧ s.mm.state ≠ .fbReadWait := by
    cases hw with
    | fetcher hq hl hg hm => exact ⟨hq, hl, hg, hm⟩
  have hne := h.lf.some_left (.inr hl)
  have ho : s.lf.owner = true := by simp [LineFetcher.owner, hl]
  have hgus := gus_not_rdw (i := i) hg fun _ => by simp [gusBusy, ho]
  have hmm := mm_not_waiting (i := i) hr hm fun _ => by simp [mmBusyIn, ho]
  have hqueue : (s.step i).queue = (if i.answers then ds.tail else ds).map (Beat.mk (some .fetcher)) := by
    rw [queue_step, pushed_none hc, hq]
    cases i.answers <;> simp [fifoStep]
  have hready : s.doutReady i = i.answers := by
    rcases ds with _ | ⟨d, ds⟩
    · exact absurd (BitVec.eq_of_toNat_eq hlen.symm) hne
    · cases ha : i.answers <;> simp [doutReady, returned, fifoOut, hq, ha]
  by_cases hlast : i.answers = true ∧ s.lf.burstLeft = 1
  · -- the last beat ends the burst, also for a fetcher turned off in this clock
    have htail : ds.tail = [] := by
      rw [← List.length_eq_zero_iff, List.length_tail, hlen, hlast.2]
      rfl
    refine ⟨_, .none (by rw [hqueue, if_pos hlast.1, htail]; rfl) ?_ hgus hmm⟩
    simp only [step]
    cases i.enable
    · simp [LineFetcher.step_disabled, LineFetcher.reset]
    · rw [(LineFetcher.step_data hl h.lf).2.2, hready, if_pos ⟨by simp [hlast.1, ho], hlast.2⟩]
      decide
  · have hon : i.enable = true := by
      simp only [dropsInFlight, Bool.or_eq_false_iff, Bool.and_eq_false_iff] at hkeep
      rcases hkeep.1 with hon | hon
      · simpa using hon
      · exact absurd (by simpa [hl, hready] using hon.2) hlast
    refine ⟨_, .fetcher ⟨_, hqueue, ?_⟩ ?_ hgus hmm⟩
    · simp only [step, hon]
      rw [(LineFetcher.step_data hl h.lf).2.1, hready, ho, Bool.and_true]
      cases i.answers
      · simp [hlen]
      · have hsub : ∀ x : BitVec 8, x ≠ 0 → (x - 1#8).toNat = x.toNat - 1 := by decide
        simp only [if_true, List.length_tail, hlen]
        exact (hsub _ hne).symm
    · simp only [step, hon]
      rw [(LineFetcher.step_data hl h.lf).2.2, hready, ho, Bool.and_true, if_neg hlast]

theorem waits_gus (hw : s.Waits (some .gus)) : ∃ m, (s.step i).Waits m := by
  have hc := accepted_none (i := i) h hw
  obtain ⟨⟨d, hq⟩, hl, hg, hm⟩ : (∃ d, s.queue = [⟨some .gus, d⟩]) ∧ s.lf.state = .idle ∧ s.gus.state = .rdw ∧
      s.mm.state ≠ .fbReadWait := by
    cases hw with
    | gus hq hl hg hm => exact ⟨hq, hl, hg, hm⟩
  have ho : s.lf.owner = false := LineFetcher.owner_eq_false.2 hl
  have hready : s.doutReady i = i.answers := by cases ha : i.answers <;> simp [doutReady, returned, fifoOut, hq, ha]
  have hlf := lf_idle_kept (i := i) hl (by simp [lfBusy, GusDdr.active, hg, ho])
  have hmm := mm_not_waiting (i := i) hr hm fun _ => by simp [mmBusyIn, GusDdr.active, hg]
  have hqueue : (s.step i).queue = if i.answers then [] else s.queue := by
    rw [queue_step, pushed_none hc, hq]
    cases i.answers <;> rfl
  have hgus : (s.step i).gus.state = if i.answers then .idle else .rdw := by
    simp only [step, hready, ho, Bool.not_false, Bool.and_true]
    cases hon : i.gusOn
    · simp only [dropsInFlight, Bool.or_eq_false_iff, Bool.and_eq_false_iff] at hkeep
      have : i.answers = true := by simpa [hon, hg, hready, ho] using hkeep.2
      simp [this, GusDdr.step_off, GusDdr.reset]
    · exact GusDdr.step_rdw hg
  cases ha : i.answers
  · rw [ha] at hqueue hgus
    exact ⟨_, .gus ⟨d, hqueue.trans hq⟩ hlf hgus hmm⟩
  · rw [ha] at hqueue hgus
    exact ⟨_, .none hqueue (by simp [hlf]) (by simp [hgus]) hmm⟩

omit hkeep in
theorem waits_mainMemory (hw : s.Waits (some .mainMemory)) : ∃ m, (s.step i).Waits m := by
  have hc := accepted_none (i := i) h hw
  obtain ⟨⟨d, hq⟩, hl, hg, hm⟩ : (∃ d, s.queue = [⟨some .mainMemory, d⟩]) ∧ s.lf.state = .idle ∧
      s.gus.state = .idle ∧ s.mm.state = .fbReadWait := by
    cases hw with
    | mainMemory hq hl hg hm => exact ⟨hq, hl, hg, hm⟩
  have ho : s.lf.owner = false := LineFetcher.owner_eq_false.2 hl
  have hact : s.mmActive = true := by simp [mmActive, h.pending, hm]
  have hready : s.doutReady i = i.answers := by cases ha : i.answers <;> simp [doutReady, returned, fifoOut, hq, ha]
  have hlf := lf_idle_kept (i := i) hl (by simp [lfBusy, hact, ho])
  have hgus := gus_idle_kept (i := i) hg (by simp [gusStartOk, hact])
  have hqueue : (s.step i).queue = if i.answers then [] else s.queue := by
    rw [queue_step, pushed_none hc, hq]
    cases i.answers <;> rfl
  have hmm : (s.step i).mm.state = .fbReadWait ↔ _ := mm_waits (i := s.mmIn i) hr
  simp only [hm, mmIn, hready, ho, GusDdr.active_eq_false.2 hg] at hmm
  cases ha : i.answers
  · rw [ha] at hqueue hmm
    exact ⟨_, .mainMemory ⟨d, hqueue.trans hq⟩ hlf hgus (hmm.2 (by simp))⟩
  · rw [ha] at hqueue hmm
    exact ⟨_, .none hqueue (by simp [hlf]) (by simp [hgus]) fun hw => by simp [hw] at hmm⟩

/-- Each edge that does not turn off a master with beats to come keeps the invariant. -/
theorem inv_step : (s.step i).Inv := by
  refine ⟨LineFetcher.step_wf h.lf _, pending_step h hr, ?_⟩
  obtain ⟨w, hw⟩ := h.waits
  match w, hw with
  | none, .none hq hl hg hm =>
    cases hc : s.accepted i with
    | none => exact ⟨_, waits_none h hr hq hl hg hm hc⟩
    | some c => exact waits_accepted h hr hkeep hq hg hm hc
  | some .fetcher, hw => exact waits_fetcher h hr hkeep hw
  | some .gus, hw => exact waits_gus h hr hkeep hw
  | some .mainMemory, hw => exact waits_mainMemory h hr hw

end Waiting

end Ddr3System

end Z486.Ddr3
