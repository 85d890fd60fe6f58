/-
The blocks of the channels over a run of the DMA system: as long as the processor leaves the registers of a channel
alone, its transfers go along the block that they were programmed with, one after the other, and end with it.
-/
import Z486.Dma.Blocks
import Z486.Dma.Runs

namespace Z486.Dma

open Clocked

/-! ## Counts -/

namespace DmaSystem

section Definitions

variable (s : DmaSystem) (i : DmaIn)

/-- The processor writes the address, the count, the mode or the page of a channel. -/
def programs (k : Chip) (c : Fin 4) : Bool :=
  let j := s.chipIn i k
  I8237.writesAddress j c || I8237.writesCounter j c || I8237.writesMode j c || i.writesPage k c

/-- Chip `k` has granted channel `c`. -/
def begins (k : Chip) (c : Fin 4) : Bool := (s.chip k).state == .granted && (s.chip k).active == c

/-- The transfer of channel `c` is under way, and is not yet acknowledged. -/
def inside (k : Chip) (c : Fin 4) : Bool := s.unacked k && (s.chip k).active == c

end Definitions

end DmaSystem

namespace DmaRun

variable (r : DmaRun) (k : Chip) (c : Fin 4) (a b : Nat)

/-- The transfers of a channel that are granted from clock `a` on, before clock `b`. -/
def begun : Nat := pulses (fun t => (r.state t).begins k c) a b

/-- The transfers that are acknowledged. -/
def done : Nat := pulses (fun t => ((r.state t).chip k).ack c) a b

/-- The terminal counts that are signalled, in the clock after they are reached. -/
def signalled : Nat := pulses (fun t => ((r.state (t + 1)).chip k).chTc.getLsbD c.val) a b

/-- The block that a channel is programmed with. -/
def block : Block := ((r.state a).chip k).current c

/-- What channel `c` asks the memory for in its transfer number `n` of a block, from clock `a` on. -/
def asks (i : DmaIn) (n : Nat) : MemOp where
  addr := fullAddress ((r.state a).page k c) (Block.walk (((r.state a).chip k).dec c) (r.block k c a).address
    (Block.walked (((r.state a).chip k).auto c) (r.block k c a) n)) k
  wide := k == .mas
  write := ((r.state a).chip k).transfer c == 1
  data := if ((r.state a).chip k).transfer c == 1 then i.chWritedata k c else 0

/-- From clock `a` to clock `b` a channel is at work on the block it is programmed with. The processor may mask it and
unmask it again, as long as the block is not at its end. -/
structure Spared : Prop where
  fresh : (r.state a).inside k c = false
  loaded : ((r.state a).chip k).auto c = true → ((r.state a).chip k).base c = r.block k c a
  untouched : ∀ t, a ≤ t → t < b → (r.state t).programs (r.inputs t) k c = false
  kept : ∀ t, a ≤ t → t < b → I8237.masterClear ((r.state t).chipIn (r.inputs t) k) = false
  unmasked : ∀ t, a ≤ t → t < b → I8237.clearsMask ((r.state t).chipIn (r.inputs t) k) c = true →
    ((r.state a).chip k).auto c = true ∨ r.done k c a t ≤ (r.block k c a).count.toNat

/-- The transfers of a block with a count of `N`: their addresses follow each other; without autoinitialize there are
`N + 1` of them, and only then the channel is masked; each time the count ends, it is signalled once. -/
structure Counted : Prop where
  op : ∀ t, a ≤ t → t < b → (r.state t).begins k c = true →
    (r.state t).op (r.inputs t) k = r.asks k c a (r.inputs t) (r.begun k c a t)
  count : ((r.state a).chip k).auto c = true ∨ r.begun k c a b ≤ (r.block k c a).count.toNat + 1
  signals : r.signalled k c a b =
    Block.terminals (((r.state a).chip k).auto c) (r.block k c a) (r.done k c a b)
  masked : ((r.state a).chip k).auto c = false → r.done k c a b = (r.block k c a).count.toNat + 1 →
    ((r.state b).chip k).mask.getLsbD c.val = true
  unmasked : ∀ t, a ≤ t → t < b → ((r.state t).chip k).mask.getLsbD c.val = false →
    ((r.state (t + 1)).chip k).mask.getLsbD c.val = true → I8237.setsMask ((r.state t).chipIn (r.inputs t) k) c = true ∨
      ((r.state a).chip k).auto c = false ∧ r.done k c a (t + 1) = (r.block k c a).count.toNat + 1

/-- When a channel that does not begin again reaches its terminal count in clock `t`, the mask bit of another channel of
its chip is not written, unless it is masked already. -/
def KeepsMask (t : Nat) : Prop :=
  ((r.state t).chip k).tc c = true → ((r.state t).chip k).auto c = false →
    I8237.masksOther ((r.state t).chipIn (r.inputs t) k) c = true → ((r.state t).chip k).mask.getLsbD c.val = true

variable {r k c a b}

theorem Spared.mono (h : r.Spared k c a b) {b' : Nat} (hle : b' ≤ b) : r.Spared k c a b' :=
  ⟨h.fresh, h.loaded, fun t h1 h2 => h.untouched t h1 (by omega), fun t h1 h2 => h.kept t h1 (by omega),
    fun t h1 h2 => h.unmasked t h1 (by omega)⟩

theorem begun_succ (h : a ≤ b) :
    r.begun k c a (b + 1) = r.begun k c a b + if (r.state b).begins k c then 1 else 0 := pulses_succ _ h

theorem done_succ (h : a ≤ b) :
    r.done k c a (b + 1) = r.done k c a b + if ((r.state b).chip k).ack c then 1 else 0 := pulses_succ _ h

theorem signalled_succ (h : a ≤ b) :
    r.signalled k c a (b + 1) = r.signalled k c a b + if ((r.state b).chip k).tc c then 1 else 0 := by
  have htc : ((r.state (b + 1)).chip k).chTc.getLsbD c.val = ((r.state b).chip k).tc c := by
    rw [r.state_succ, DmaSystem.chip_step]
    exact I8237.tcBits_get c
  rw [← htc]
  exact pulses_succ _ h

end DmaRun

/-! ## A clock of a channel -/

namespace DmaTransfers

variable {x : DmaTransfers} {t : Nat} {k : Chip} {c : Fin 4}

theorem running : ((x.state t).chipIn (x.inputs t) k).rstN = true :=
  (DmaSystem.chipIn_rstN _ _ k).trans (x.kept t).running

theorem ack_eq : ((x.state t).chip k).ack c = ((x.state t).chip k).updates c := by
  rw [I8237.ack, ((x.soundAt t).working k).ack]
  rfl

/-- A transfer that is granted, or not yet acknowledged, goes on until it is. -/
theorem unacked_succ : (x.state (t + 1)).unacked k =
    (((x.state t).chip k).state == .granted || (x.state t).unacked k && !((x.state t).chip k).update) := by
  by_cases hidle : ((x.state t).chip k).state = .idle
  · have hnext := (I8237.idle_step (running (x := x) (t := t) (k := k)) hidle).1
    rw [DmaSystem.unacked, DmaSystem.unacked, x.state_succ, DmaSystem.chip_step, hnext, hidle]
    split_ifs <;> rfl
  · have hnext := (state_busy hidle).1
    rw [DmaSystem.unacked, DmaSystem.unacked, hnext, I8237.stateNext, I8237.update]
    cases hs : ((x.state t).chip k).state with
    | idle => exact absurd hs hidle
    | verify => exact absurd hs ((x.soundAt t).working k).never
    | granted => rcases (x.kept t).programmed k hs with ht | ht <;> rw [ht] <;> rfl
    | read => cases ((x.state t).chipIn (x.inputs t) k).dmaWaitrequest <;> rfl
    | readWait => cases ((x.state t).chipIn (x.inputs t) k).dmaReaddatavalid <;> rfl
    | write => cases ((x.state t).chipIn (x.inputs t) k).dmaWaitrequest <;> rfl
    | update => rfl
    | done => rfl

theorem inside_succ : (x.state (t + 1)).inside k c =
    ((x.state t).begins k c || (x.state t).inside k c && !((x.state t).chip k).updates c) := by
  unfold DmaSystem.inside DmaSystem.begins I8237.updates
  rw [unacked_succ]
  by_cases hidle : ((x.state t).chip k).state = .idle
  · rw [DmaSystem.unacked, hidle]
    rfl
  · rw [(state_busy hidle).2]
    cases ((x.state t).chip k).state == .granted <;> cases (x.state t).unacked k <;>
      cases ((x.state t).chip k).update <;> cases ((x.state t).chip k).active == c <;> rfl

theorem inside_of_updates (h : ((x.state t).chip k).updates c = true) : (x.state t).inside k c = true := by
  unfold I8237.updates I8237.update at h
  rw [Bool.and_eq_true, beq_iff_eq] at h
  unfold DmaSystem.inside DmaSystem.unacked
  rw [h.1, h.2]
  rfl

theorem not_inside_of_begins (h : (x.state t).begins k c = true) : (x.state t).inside k c = false := by
  unfold DmaSystem.begins at h
  rw [Bool.and_eq_true, beq_iff_eq] at h
  unfold DmaSystem.inside DmaSystem.unacked
  rw [h.1]
  rfl

/-- A channel that is granted or at work is left alone. -/
theorem left_alone (h : (x.state t).begins k c = true ∨ (x.state t).inside k c = true) :
    (x.state t).touches (x.inputs t) k c = false ∧
      I8237.masterClear ((x.state t).chipIn (x.inputs t) k) = false := by
  have hbusy : (x.state t).busy k = true ∧ ((x.state t).chip k).active = c := by
    rw [DmaSystem.busy_iff]
    rcases h with h | h
    · unfold DmaSystem.begins at h
      rw [Bool.and_eq_true, beq_iff_eq, beq_iff_eq] at h
      exact ⟨by rw [h.1]; simp, h.2⟩
    · unfold DmaSystem.inside at h
      rw [Bool.and_eq_true, beq_iff_eq] at h
      refine ⟨fun hidle => ?_, h.2⟩
      rw [DmaSystem.unacked, hidle] at h
      exact Bool.false_ne_true h.1
  rw [← hbusy.2]
  exact ⟨(x.kept t).untouched k hbusy.1, (x.kept t).kept k hbusy.1⟩

/-- Only a channel that is not masked is granted, by an engine that is idle. -/
theorem unmasked_of_begins (h : (x.state (t + 1)).begins k c = true) :
    ((x.state t).chip k).state = .idle ∧ ((x.state t).chip k).mask.getLsbD c.val = false := by
  unfold DmaSystem.begins at h
  rw [Bool.and_eq_true, beq_iff_eq, beq_iff_eq] at h
  obtain ⟨hgranted, hactive⟩ := h
  by_cases hidle : ((x.state t).chip k).state = .idle
  · have hstep := I8237.idle_step (running (x := x) (t := t) (k := k)) hidle
    rw [← DmaSystem.chip_step, ← x.state_succ, hgranted, hactive] at hstep
    obtain ⟨hstate, hchannel⟩ := hstep
    rcases (x.state t).arbiter (x.inputs t) with hno | ⟨k', c', ha⟩
    · rw [hno k] at hstate
      simp at hstate
    · by_cases hk : k = k'
      · subst hk
        obtain rfl : c = c' := (hchannel rfl).trans ha.channel
        have hreq := ha.req
        unfold I8237.req at hreq
        refine ⟨hidle, ?_⟩
        by_contra hmask
        rw [Bool.not_eq_false] at hmask
        rw [BitVec.getLsbD_and, BitVec.getLsbD_not, hmask] at hreq
        simp at hreq
      · rw [ha.alone k hk] at hstate
        simp at hstate
  · have hnext := (state_busy hidle).1
    rw [hgranted, I8237.stateNext] at hnext
    cases hs : ((x.state t).chip k).state <;> rw [hs] at hnext
    case idle => exact absurd hs hidle
    all_goals
      dsimp only at hnext
      (repeat' split at hnext) <;> cases hnext

/-! ## The clocks of a block -/

/-- Where the block of a channel stands in clock `b`. -/
structure Going (x : DmaTransfers) (k : Chip) (c : Fin 4) (a b : Nat) : Prop where
  base : ((x.state b).chip k).base c = ((x.state a).chip k).base c
  dec : ((x.state b).chip k).dec c = ((x.state a).chip k).dec c
  auto : ((x.state b).chip k).auto c = ((x.state a).chip k).auto c
  transfer : ((x.state b).chip k).transfer c = ((x.state a).chip k).transfer c
  page : (x.state b).page k c = (x.state a).page k c
  current : ((x.state b).chip k).current c = Block.after (((x.state a).chip k).dec c) (((x.state a).chip k).auto c)
    (x.block k c a) (x.done k c a b)
  begun : x.begun k c a b = x.done k c a b + if (x.state b).inside k c then 1 else 0
  fits : ((x.state a).chip k).auto c = true ∨
    x.done k c a b + (if (x.state b).begins k c || (x.state b).inside k c then 1 else 0) ≤
      (x.block k c a).count.toNat + 1
  masked : ((x.state a).chip k).auto c = true ∨
    (x.done k c a b = (x.block k c a).count.toNat + 1 → ((x.state b).chip k).mask.getLsbD c.val = true)
  signals : x.signalled k c a b =
    Block.terminals (((x.state a).chip k).auto c) (x.block k c a) (x.done k c a b)

variable {a b : Nat}

theorem Going.start (hfresh : (x.state a).inside k c = false) : x.Going k c a a := by
  have hdone : x.done k c a a = 0 := pulses_self _ a
  have hbegun : x.begun k c a a = 0 := pulses_self _ a
  have hsignalled : x.signalled k c a a = 0 := pulses_self _ a
  refine ⟨rfl, rfl, rfl, rfl, rfl, ?_, ?_, .inr ?_, .inr ?_, ?_⟩
  · rw [hdone, Block.after_zero]
    rfl
  · rw [hdone, hbegun, hfresh]
    rfl
  · rw [hdone]
    split_ifs <;> omega
  · rw [hdone]
    intro h
    exact absurd h (by omega)
  · rw [hdone, hsignalled, Block.terminals_zero]

/-- The processor leaves the registers of the channel alone in clock `t`. -/
theorem untouched (h : (x.state t).programs (x.inputs t) k c = false) :
    I8237.Untouched ((x.state t).chipIn (x.inputs t) k) c := by
  unfold DmaSystem.programs at h
  simp only [Bool.or_eq_false_iff] at h
  exact ⟨running, h.1.1.1, h.1.1.2, h.1.2⟩

theorem page_succ (h : (x.state t).programs (x.inputs t) k c = false) :
    (x.state (t + 1)).page k c = (x.state t).page k c := by
  unfold DmaSystem.programs at h
  simp only [Bool.or_eq_false_iff] at h
  rw [x.state_succ]
  show (if !(x.inputs t).rstN then 0 else if (x.inputs t).writesPage k c then (x.inputs t).ioWritedata
    else (x.state t).page k c) = _
  rw [(x.kept t).running, h.2]
  rfl

/-- The registers follow the block. -/
theorem Going.current_succ (h : x.Going k c a b) (hloaded : ((x.state a).chip k).auto c = true →
    ((x.state a).chip k).base c = x.block k c a) (hab : a ≤ b)
    (hun : (x.state b).programs (x.inputs b) k c = false) :
    ((x.state (b + 1)).chip k).current c = Block.after (((x.state a).chip k).dec c) (((x.state a).chip k).auto c)
      (x.block k c a) (x.done k c a (b + 1)) := by
  rw [x.state_succ, DmaSystem.chip_step, (untouched hun).current_step, DmaRun.done_succ hab, ack_eq, h.current, h.dec,
    h.auto, h.base]
  cases hup : ((x.state b).chip k).updates c with
  | false => rfl
  | true =>
    have hfits := h.fits
    rw [inside_of_updates hup, Bool.or_true, if_pos rfl] at hfits
    rw [if_pos rfl, if_pos rfl, ← Block.next_after (hfits.imp_right fun hle => by omega)]
    cases hauto : ((x.state a).chip k).auto c with
    | false => rfl
    | true => rw [hloaded hauto]

theorem Going.begun_succ (h : x.Going k c a b) (hab : a ≤ b) : x.begun k c a (b + 1) =
    x.done k c a (b + 1) + if (x.state (b + 1)).inside k c then 1 else 0 := by
  rw [DmaRun.begun_succ hab, DmaRun.done_succ hab, ack_eq, inside_succ, h.begun]
  cases hbegins : (x.state b).begins k c with
  | true =>
    have hno : ((x.state b).chip k).updates c = false := by
      by_contra hup
      have hinside := inside_of_updates (by simpa using hup)
      rw [not_inside_of_begins hbegins] at hinside
      cases hinside
    rw [not_inside_of_begins hbegins, hno]
    rfl
  | false =>
    cases hup : ((x.state b).chip k).updates c with
    | true =>
      rw [inside_of_updates hup]
      rfl
    | false => cases (x.state b).inside k c <;> rfl

/-- A channel whose block is at its end is masked, and is not granted any more. -/
theorem Going.fits_succ (h : x.Going k c a b) (hab : a ≤ b) : ((x.state a).chip k).auto c = true ∨
    x.done k c a (b + 1) +
      (if (x.state (b + 1)).begins k c || (x.state (b + 1)).inside k c then 1 else 0) ≤
        (x.block k c a).count.toNat + 1 := by
  refine h.fits.elim .inl fun hfits => h.masked.elim .inl fun hmasked => .inr ?_
  rw [DmaRun.done_succ hab, ack_eq]
  cases hbegins : (x.state (b + 1)).begins k c with
  | true =>
    obtain ⟨hidle, hmask⟩ := unmasked_of_begins hbegins
    have hno : ((x.state b).chip k).updates c = false := by
      rw [I8237.updates, I8237.update, hidle]
      rfl
    have hne : x.done k c a b ≠ (x.block k c a).count.toNat + 1 := fun hdone => by
      rw [hmasked hdone] at hmask
      cases hmask
    rw [hno, Bool.true_or, if_pos rfl]
    simp only [Bool.false_eq_true, if_false]
    omega
  | false =>
    rw [inside_succ, Bool.false_or]
    cases hup : ((x.state b).chip k).updates c with
    | true =>
      have hbefore : (x.state b).begins k c = false := by
        by_contra hbegins
        have hinside := inside_of_updates hup
        rw [not_inside_of_begins (by simpa using hbegins)] at hinside
        cases hinside
      rw [inside_of_updates hup, Bool.or_true, if_pos rfl] at hfits
      rw [hbefore, Bool.not_true, Bool.and_false]
      exact hfits
    | false =>
      rw [Bool.not_false, Bool.and_true]
      exact hfits

/-- A terminal count is that of a transfer at the end of the count. -/
theorem Going.tc_iff (h : x.Going k c a b) : ((x.state b).chip k).tc c = true ↔
    ((x.state b).chip k).updates c = true ∧
      Block.walked (((x.state a).chip k).auto c) (x.block k c a) (x.done k c a b) =
        (x.block k c a).count.toNat := by
  rw [I8237.tc_eq, Bool.and_eq_true, beq_iff_eq, h.current]
  refine and_congr_right fun hup => ?_
  have hfits := h.fits
  rw [inside_of_updates hup, Bool.or_true, if_pos rfl] at hfits
  exact Block.count_after (Block.walked_le (hfits.imp_right fun hle => by omega))

theorem Going.signals_succ (h : x.Going k c a b) (hab : a ≤ b) : x.signalled k c a (b + 1) =
    Block.terminals (((x.state a).chip k).auto c) (x.block k c a) (x.done k c a (b + 1)) := by
  rw [DmaRun.signalled_succ hab, DmaRun.done_succ hab, ack_eq, h.signals]
  simp only [h.tc_iff]
  cases hup : ((x.state b).chip k).updates c with
  | false => simp
  | true =>
    have hfits := h.fits
    rw [inside_of_updates hup, Bool.or_true, if_pos rfl] at hfits
    rw [if_pos rfl, Block.terminals_succ (hfits.imp_right fun hle => by omega)]
    simp only [true_and]

theorem clearsMask_of_alone (h : (x.state t).touches (x.inputs t) k c = false) :
    I8237.clearsMask ((x.state t).chipIn (x.inputs t) k) c = false := by
  unfold DmaSystem.touches at h
  simp only [Bool.or_eq_false_iff] at h
  have hno := h.2
  unfold I8237.clearsMask
  cases hw : ((x.state t).chipIn (x.inputs t) k).write with
  | false => rfl
  | true =>
    rw [hw, Bool.true_and, Bool.or_eq_false_iff, Bool.or_eq_false_iff] at hno
    obtain ⟨⟨hall, hbits⟩, hone⟩ := hno
    rw [hall, hbits]
    cases haddr : ((x.state t).chipIn (x.inputs t) k).address == 0xA with
    | false => rfl
    | true =>
      rw [haddr, Bool.true_and] at hone
      rw [hone]
      simp

/-- The mask bit is set with the last transfer of the block, and stays so. -/
theorem Going.masked_succ (h : x.Going k c a b) (hspared : x.Spared k c a (b + 1)) (hkeeps : x.KeepsMask k c b)
    (hab : a ≤ b) : ((x.state a).chip k).auto c = true ∨
      (x.done k c a (b + 1) = (x.block k c a).count.toNat + 1 →
        ((x.state (b + 1)).chip k).mask.getLsbD c.val = true) := by
  refine h.fits.elim .inl fun hfits => h.masked.elim .inl fun hmasked => ?_
  cases hauto : ((x.state a).chip k).auto c with
  | true => exact .inl rfl
  | false =>
    refine .inr fun hend => ?_
    rw [DmaRun.done_succ hab, ack_eq] at hend
    rw [x.state_succ, DmaSystem.chip_step]
    cases hup : ((x.state b).chip k).updates c with
    | true =>
      have hinside := inside_of_updates hup
      obtain ⟨halone, hclear⟩ := left_alone (.inr hinside)
      rw [hup, if_pos rfl] at hend
      refine (I8237.mask_of_tc running hclear (clearsMask_of_alone halone) ?_ (h.auto.trans hauto)).2
        (hkeeps ?_ (h.auto.trans hauto))
      all_goals
        rw [h.tc_iff, hauto]
        exact ⟨hup, by unfold Block.walked; simp only [Bool.false_eq_true, if_false]; omega⟩
    | false =>
      rw [hup, if_neg Bool.false_ne_true, Nat.add_zero] at hend
      refine I8237.mask_stays ?_ (hmasked hend)
      by_contra hclear
      rw [Bool.not_eq_false] at hclear
      rcases hspared.unmasked b hab (by omega) hclear with hauto' | hle
      · rw [hauto] at hauto'
        cases hauto'
      · omega

theorem Going.step (h : x.Going k c a b) (hspared : x.Spared k c a (b + 1)) (hkeeps : x.KeepsMask k c b)
    (hab : a ≤ b) : x.Going k c a (b + 1) := by
  have hun := hspared.untouched b hab (by omega)
  refine ⟨?_, ?_, ?_, ?_, (page_succ hun).trans h.page, h.current_succ hspared.loaded hab hun, h.begun_succ hab,
    h.fits_succ hab, h.masked_succ hspared hkeeps hab, h.signals_succ hab⟩
  all_goals rw [x.state_succ, DmaSystem.chip_step]
  · rw [(untouched hun).base_step, h.base]
  · rw [(untouched hun).dec_step, h.dec]
  · rw [(untouched hun).auto_step, h.auto]
  · rw [I8237.transfer_step running (untouched hun).mode, h.transfer]

/-- The channel goes along its block as long as no mask bit is lost. -/
theorem going (hab : a ≤ b) (hspared : x.Spared k c a b)
    (hkeeps : ∀ t, a ≤ t → t < b → x.KeepsMask k c t) : x.Going k c a b := by
  induction b, hab using Nat.le_induction with
  | base => exact Going.start hspared.fresh
  | succ b hab ih =>
    exact (ih (hspared.mono (by omega)) fun t h1 h2 => hkeeps t h1 (by omega)).step hspared
      (hkeeps b hab (by omega)) hab

theorem Going.op_eq (h : x.Going k c a b) (hbegins : (x.state b).begins k c = true) :
    (x.state b).op (x.inputs b) k = x.asks k c a (x.inputs b) (x.begun k c a b) := by
  have hactive : ((x.state b).chip k).active = c := by
    unfold DmaSystem.begins at hbegins
    rw [Bool.and_eq_true, beq_iff_eq, beq_iff_eq] at hbegins
    exact hbegins.2
  have haddr := congrArg Block.address h.current
  have hcount : x.begun k c a b = x.done k c a b := by
    rw [h.begun, not_inside_of_begins hbegins]
    rfl
  unfold DmaSystem.op DmaRun.asks I8237.actAddress
  rw [hactive, h.page, h.transfer, hcount]
  rw [show ((x.state b).chip k).currentAddress c = _ from haddr]
  rfl

end DmaTransfers

end Z486.Dma
