/-
What the boot loader copies. Each acknowledge moves the write phase on, but the port follows the
phase one clock later. SDRAM is slow enough for that: after it accepted a write it is not ready for
the next one before the port shows it. The mailbox is not: where it takes the stale write in the hole
of the low window once more in phase 2, its acknowledge is counted for a mirror write that was never
made. Apart from that the copy is right whatever the timing of DDR3 and SDRAM.
-/
import Z486.Boot.Writer

namespace Z486.Boot

open Clocked Memory

/-! ## The writer's invariant -/

/-- The mailbox takes a write while the phase is already that of a mirror write. -/
def Writer.late (w : Writer) (hole : Bool) : Bool := w.dispatches hole && 2#2 ≤ w.phase

/-- In the copy an acknowledge is for the phase's own write, and a port that still shows the phase
before finds SDRAM not ready or the mailbox. -/
structure Writer.InStep (w : Writer) (hole : Bool) : Prop where
  acceptedBusy : w.accepted = true → w.mmBusy = true
  accepted : w.accepted = true → w.bootState = .writeCopy ∧ hole = true ∧ w.phase ≤ 1#2
  acknowledged : w.cool = 3 → w.bootState = .writeCopy ∧ ¬ (hole = true ∧ w.phase ≤ 1#2)
  port : w.bootState = .writeCopy → w.write = true →
    w.portPhase = w.phase ∨ (w.portPhase + 1 = w.phase ∧ w.portPhase < w.phase ∧
      (w.cool = 2 ∨ (hole = true ∧ w.portPhase ≤ 1#2)))
  outside : w.bootState ≠ .writeCopy → w.write = true → w.cool = 2
  coolLe : w.cool ≤ 3

namespace Writer.InStep

variable {w : Writer} {hole : Bool} (h : w.InStep hole)
include h

/-- SDRAM accepts the write of the phase, and not in a clock with an acknowledge. -/
theorem accepts {e : WriterIn} (ha : w.accepts hole e = true) :
    w.bootState = .writeCopy ∧ w.portPhase = w.phase ∧ ¬ (hole = true ∧ w.phase ≤ 1#2) ∧ w.ready = false := by
  simp only [Writer.accepts, Bool.and_eq_true, Bool.not_eq_true', beq_iff_eq] at ha
  obtain ⟨⟨⟨⟨hw, hm⟩, hb⟩, hc⟩, -⟩ := ha
  have hacc : w.accepted = false := Bool.eq_false_iff.2 fun hacc => absurd (h.acceptedBusy hacc) (by simp [hb])
  have hs : w.bootState = .writeCopy := by
    by_contra hs
    have := h.outside hs hw
    omega
  have hm' : ¬ (hole = true ∧ w.portPhase ≤ 1#2) := by simpa [Writer.mailbox, hs] using hm
  have hp : w.portPhase = w.phase := by
    rcases h.port hs hw with hp | ⟨-, -, hc2 | hmb⟩
    · exact hp
    · omega
    · exact absurd hmb hm'
  exact ⟨hs, hp, hp ▸ hm', by simp [Writer.ready, hc, hacc]⟩

/-- An acknowledge in the copy is SDRAM's for the phase's write, or the mailbox's for one in the hole. -/
theorem of_ready (hr : w.ready = true) : w.bootState = .writeCopy ∧
    (w.cool = 3 ∧ ¬ (hole = true ∧ w.phase ≤ 1#2) ∨ hole = true ∧ w.phase ≤ 1#2) := by
  rcases Bool.or_eq_true_iff.1 hr with hc | ha
  · have hc' := h.acknowledged (by simpa using hc)
    exact ⟨hc'.1, .inl ⟨by simpa using hc, hc'.2⟩⟩
  · have ha' := h.accepted ha
    exact ⟨ha'.1, .inr ha'.2⟩

theorem cool_step (e : WriterIn) (last : Bool) :
    (w.step hole last e).cool ≤ 3 ∧ ((w.step hole last e).cool = 3 → w.accepts hole e = true) := by
  have hle := h.coolLe
  simp only [Writer.step]
  cases w.accepts hole e
  · simp only [Bool.false_eq_true, if_false]; omega
  · simp

/-- A mailbox write that is not late is one of the phase's own, in a clock without an acknowledge. -/
theorem dispatches (hlate : w.late hole = false) (hd : w.dispatches hole = true) :
    w.bootState = .writeCopy ∧ hole = true ∧ w.phase ≤ 1#2 ∧ w.mmBusy = false ∧ w.ready = false := by
  have hp : w.phase ≤ 1#2 := by
    have h2 : ∀ p : BitVec 2, decide (2#2 ≤ p) = false → p ≤ 1#2 := by decide
    exact h2 w.phase (by simpa [Writer.late, hd] using hlate)
  simp only [Writer.dispatches, Writer.mailbox, Bool.and_eq_true, Bool.not_eq_true', beq_iff_eq] at hd
  obtain ⟨⟨-, ⟨hh, hs⟩, -⟩, hb⟩ := hd
  have hacc : w.accepted = false := Bool.eq_false_iff.2 fun hacc => absurd (h.acceptedBusy hacc) (by simp [hb])
  have hc : w.cool ≠ 3 := fun hc => (h.acknowledged hc).2 ⟨hh, hp⟩
  exact ⟨hs, hh, hp, hb, by simp [Writer.ready, hc, hacc]⟩

/-- Without late mailbox writes the writer stays in step. -/
theorem step {e : WriterIn} (hlate : w.late hole = false) (hole' last : Bool)
    (hh : w.bootState = .writeCopy → w.advances = false → hole' = hole) : (w.step hole last e).InStep hole' := by
  obtain ⟨hle, hcool⟩ := h.cool_step e last
  have hbusy : (w.step hole last e).accepted = true → (w.step hole last e).mmBusy = true := by
    intro ha
    have hd : w.dispatches hole = true := ha
    simp [Writer.step, hd, (h.dispatches hlate hd).2.2.2.1]
  by_cases hs : w.bootState = .writeCopy
  · -- the port takes the phase's write; the phase moves on with an acknowledge
    have hw' : (w.step hole last e).portPhase = w.phase := by simp [Writer.step, hs]
    have hnot : w.ready = false → (w.step hole last e).bootState = .writeCopy ∧
        (w.step hole last e).phase = w.phase ∧ hole' = hole := by
      intro hr
      exact ⟨by simp [Writer.step, Writer.nextState, hs, hr], by simp [Writer.step, hs, hr],
        hh hs (by simp [Writer.advances, hr])⟩
    have hmoves : w.ready = true → w.phase ≠ 3#2 → (w.step hole last e).bootState = .writeCopy ∧
        (w.step hole last e).phase = w.phase + 1 ∧ hole' = hole := by
      intro hr hp
      exact ⟨by simp [Writer.step, Writer.nextState, hs, hr, hp], by simp [Writer.step, hs, hr, hp],
        hh hs (by simp [Writer.advances, hp])⟩
    have hcool2 : w.cool = 3 → (w.step hole last e).cool = 2 := fun hc => by
      simp [Writer.step, Writer.accepts, hc]
    refine ⟨hbusy, fun ha => ?_, fun hc => ?_, fun hs' _ => ?_, fun hs' _ => ?_, hle⟩
    · obtain ⟨-, hh1, hp, -, hr⟩ := h.dispatches hlate ha
      obtain ⟨h1, h2, h3⟩ := hnot hr
      exact ⟨h1, h3.trans hh1, by rw [h2]; exact hp⟩
    · obtain ⟨-, -, hn, hr⟩ := h.accepts (hcool hc)
      obtain ⟨h1, h2, h3⟩ := hnot hr
      exact ⟨h1, by rw [h2, h3]; exact hn⟩
    · rw [hw']
      cases hr : w.ready
      · exact .inl (hnot hr).2.1.symm
      · have hp : w.phase ≠ 3#2 := by
          intro hp
          cases last <;> simp [Writer.step, Writer.nextState, hs, hr, hp] at hs'
        obtain ⟨-, h2, h3⟩ := hmoves hr hp
        have hlt : ∀ p : BitVec 2, p ≠ 3#2 → p < p + 1 := by decide
        rw [h2, h3]
        refine .inr ⟨rfl, hlt _ hp, ?_⟩
        rcases (h.of_ready hr).2 with ⟨hc, -⟩ | hmb
        · exact .inl (hcool2 hc)
        · exact .inr hmb
    · have hr : w.ready = true := by
        cases hr : w.ready
        · exact absurd (hnot hr).1 hs'
        · rfl
      have hp : w.phase = 3#2 := by
        by_contra hp
        exact hs' (hmoves hr hp).1
      rcases (h.of_ready hr).2 with ⟨hc, -⟩ | ⟨-, hp1⟩
      · exact hcool2 hc
      · rw [hp] at hp1
        exact absurd hp1 (by decide)
  · -- outside the copy nothing is accepted or dispatched
    exact ⟨hbusy, fun ha => absurd (h.dispatches hlate ha).1 hs, fun hc => absurd (h.accepts (hcool hc)).1 hs,
      fun _ hw => by simp [Writer.step, hs] at hw, fun _ hw => by simp [Writer.step, hs] at hw, hle⟩

end Writer.InStep

/-! ## Cells and image dwords -/

theorem sdramDword_inj {x y : BitVec 32} (hx : x.toNat < 0x1000000) (hy : y.toNat < 0x1000000) :
    sdramDword x = sdramDword y ↔ x.toNat / 4 = y.toNat / 4 := by
  rw [← BitVec.toNat_inj, sdramDword, sdramDword, BitVec.extractLsb'_toNat, BitVec.extractLsb'_toNat,
    Nat.shiftRight_eq_div_pow, Nat.shiftRight_eq_div_pow]
  omega

/-- Bytes of one eight-byte group lie in one word of DDR3. -/
theorem ddramAddr_group {a i : BitVec 32} (hi : i.toNat < 0x40000) (h8 : a.toNat % 8 = 0)
    (hai : a.toNat ≤ i.toNat) (hia : i.toNat < a.toNat + 8) : BootLoader.ddramAddr i = BootLoader.ddramAddr a := by
  unfold BootLoader.ddramAddr
  congr 1
  apply BitVec.eq_of_toNat_eq
  rw [BitVec.extractLsb'_toNat, BitVec.extractLsb'_toNat, BitVec.toNat_add, BitVec.toNat_add,
    Nat.shiftRight_eq_div_pow, Nat.shiftRight_eq_div_pow, BitVec.toNat_ofNat]
  omega

theorem bit2_eq (i : BitVec 32) : i.getLsbD 2 = decide (i.toNat / 4 % 2 = 1) := by
  rw [BitVec.getLsbD, Nat.testBit_eq_decide_div_mod_eq]

/-- The phase that writes the dword of `i` to the low window, or to the mirror. -/
def phaseOf (mirror : Bool) (i : BitVec 32) : BitVec 2 := BitVec.ofBool mirror ++ BitVec.ofBool (i.getLsbD 2)

theorem phaseOf_le (mirror : Bool) (i : BitVec 32) : phaseOf mirror i ≤ 1#2 ↔ mirror = false := by
  have h : ∀ m b : Bool, BitVec.ofBool m ++ BitVec.ofBool b ≤ 1#2 ↔ m = false := by decide
  exact h mirror (i.getLsbD 2)

theorem phaseOf_bit (mirror : Bool) (i : BitVec 32) : (phaseOf mirror i).getLsbD 0 = i.getLsbD 2 := by
  have h : ∀ m b : Bool, (BitVec.ofBool m ++ BitVec.ofBool b).getLsbD 0 = b := by decide
  exact h mirror (i.getLsbD 2)

theorem phaseOf_cell {a i : BitVec 32} (hi : i.toNat < 0x40000) (h8 : a.toNat % 8 = 0)
    (hai : a.toNat ≤ i.toNat) (hia : i.toNat < a.toNat + 8) (mirror : Bool) :
    sdramDword ((if mirror then biosMirrorBase else 0x000C0000#32) + i) =
      sdramDword (writeAddress a (phaseOf mirror i)) := by
  have hn := writeAddress_toNat (a := a) (by omega) (phaseOf mirror i)
  have hb := bit2_eq i
  have hle := phaseOf_le mirror i
  have h0 := phaseOf_bit mirror i
  have hi' : ((if mirror then biosMirrorBase else 0x000C0000#32) + i).toNat =
      (if mirror then 0xFC0000 else 0xC0000) + i.toNat := by
    cases mirror <;> simp only [biosMirrorBase, if_true, Bool.false_eq_true, if_false, BitVec.toNat_add,
      BitVec.toNat_ofNat] <;> omega
  rw [h0, hb] at hn
  rw [sdramDword_inj (by rw [hi']; split <;> omega) (by rw [hn]; split <;> split <;> omega), hi', hn]
  cases mirror
  · rw [if_pos (hle.2 rfl)]
    simp only [Bool.false_eq_true, if_false, decide_eq_true_eq]
    split <;> omega
  · rw [if_neg (fun h => absurd (hle.1 h) (by simp))]
    simp only [if_true, decide_eq_true_eq]
    split <;> omega

/-! ## Copied so far -/

/-- The dword of a phase has arrived, if it is for SDRAM. -/
def Landed (ddr : BitVec 29 → BitVec 64) (mem : BitVec 25 → BitVec 32) (a : BitVec 32) (phase : BitVec 2) : Prop :=
  ¬ (inHole a = true ∧ phase ≤ 1#2) →
    mem (sdramDword (writeAddress a phase)) = writeData (ddr (BootLoader.ddramAddr a)) phase

/-- When all four phases have landed, both windows hold the eight bytes. -/
theorem dwordCopied_of_landed {ddr : BitVec 29 → BitVec 64} {mem : BitVec 25 → BitVec 32} {a i : BitVec 32}
    (hi : i.toNat < 0x40000) (h8 : a.toNat % 8 = 0) (hai : a.toNat ≤ i.toNat) (hia : i.toNat < a.toNat + 8)
    (h : ∀ phase, Landed ddr mem a phase) : DwordCopied ddr mem i := by
  have himage : ∀ mirror, writeData (ddr (BootLoader.ddramAddr a)) (phaseOf mirror i) = imageDword ddr i := by
    intro mirror
    rw [writeData, phaseOf_bit, imageDword, ddramAddr_group hi h8 hai hia]
  have hland : ∀ mirror, ¬ (inHole a = true ∧ phaseOf mirror i ≤ 1#2) →
      mem (sdramDword ((if mirror then biosMirrorBase else 0x000C0000#32) + i)) = imageDword ddr i := by
    intro mirror hn
    rw [phaseOf_cell hi h8 hai hia, h _ hn, himage]
  refine ⟨hland true fun hn => absurd ((phaseOf_le true i).1 hn.2) (by simp), fun hres => hland false fun hn => ?_⟩
  have hhole : inHole a = true := hn.1
  have hadd : (0x000C0000#32 + i).toNat = 0xC0000 + i.toNat := by
    rw [BitVec.toNat_add, BitVec.toNat_ofNat]; omega
  simp only [inHole, Bool.and_eq_true, decide_eq_true_eq] at hhole
  simp only [reservedHole, Bool.and_eq_false_iff, decide_eq_false_iff_not, BitVec.le_def, hadd] at hres
  have h1 : (0x000CE000 : BitVec 32).toNat = 0xCE000 := rfl
  have h2 : (0x000CFFFF : BitVec 32).toNat = 0xCFFFF := rfl
  omega

/-- The copy at a clock of boot: what was copied in the groups before, and in this one. -/
structure Copying (ddr : BitVec 29 → BitVec 64) (w : Writer) (s : BootSystem) : Prop where
  below : ∀ i : BitVec 32, i.toNat < (if w.bootState = .complete then 0x40000 else s.boot.bootAddr.toNat) →
    DwordCopied ddr s.sdram.mem i
  phases : w.bootState = .writeCopy → ∀ phase, phase < w.phase → Landed ddr s.sdram.mem s.boot.bootAddr phase
  acknowledged : w.cool = 3 → Landed ddr s.sdram.mem s.boot.bootAddr w.phase

theorem byteMerge_all (old new : BitVec 32) : byteMerge old new 0xF = new := by
  show new.extractLsb' 24 8 ++ new.extractLsb' 16 8 ++ new.extractLsb' 8 8 ++ new.extractLsb' 0 8 = new
  apply BitVec.eq_of_getLsbD_eq
  intro j hj
  simp only [BitVec.getLsbD_append, BitVec.getLsbD_extractLsb', Nat.zero_add]
  rcases (by omega : j < 8 ∨ 8 ≤ j ∧ j < 16 ∨ 16 ≤ j ∧ j < 24 ∨ 24 ≤ j) with h | h | h | h
  · simp [h]
  · simp [show ¬ j < 8 by omega, show j - 8 < 8 by omega, show 8 + (j - 8) = j by omega]
  · simp [show ¬ j < 8 by omega, show ¬ j - 8 < 8 by omega, show j - 8 - 8 < 8 by omega,
      show 16 + (j - 8 - 8) = j by omega]
  · simp [show ¬ j < 8 by omega, show ¬ j - 8 < 8 by omega, show ¬ j - 8 - 8 < 8 by omega,
      show j - 8 - 8 - 8 < 8 by omega, show 24 + (j - 8 - 8 - 8) = j by omega]

namespace Tracks

variable {ddr : BitVec 29 → BitVec 64} {w : Writer} {s : BootSystem} {i : BootSystemIn} (h : Tracks ddr w s)
include h

/-- The only write SDRAM accepts is that of the phase. -/
theorem mem_step (hin : w.InStep (inHole s.boot.bootAddr)) (x : BitVec 25) :
    (s.step ddr i).sdram.mem x =
      if w.accepts (inHole s.boot.bootAddr) (s.writerIn i) = true ∧ x = sdramDword (writeAddress s.boot.bootAddr w.phase)
      then writeData (ddr (BootLoader.ddramAddr s.boot.bootAddr)) w.phase else s.sdram.mem x := by
  simp only [BootSystem.step, SdramPort.step, h.accepts]
  cases hacc : w.accepts (inHole s.boot.bootAddr) (s.writerIn i)
  · simp
  · obtain ⟨hs, hp, -, -⟩ := hin.accepts hacc
    have hw : w.write = true := by
      simp only [Writer.accepts, Bool.and_eq_true] at hacc
      exact hacc.1.1.1.1
    obtain ⟨a, -, -, haddr, hbe, -, hcopy⟩ := h.port hw
    obtain ⟨ha, hdata⟩ := hcopy hs
    rw [ha, hp] at haddr
    rw [hp, (h.data hs).1] at hdata
    simp only [h.mmReq, haddr, hbe, hdata, byteMerge_all, Bool.and_self, Bool.true_and, beq_iff_eq, true_and]

theorem addr_step (hr : i.ports.reset = false) : (s.step ddr i).boot.bootAddr =
    if w.bootState = .idle ∧ i.memBusy = false then 0
    else if w.advances = true ∧ isLast s.boot.bootAddr = false then s.boot.bootAddr + 8#32 else s.boot.bootAddr := by
  have hrst : (s.bootIn i).rst = false := hr
  have hboot : (s.step ddr i).boot = s.boot.next (s.bootIn i) := by
    simp only [BootSystem.step, BootLoader.step, hrst, Bool.false_eq_true, if_false]
  have hbs := h.bootState
  rw [hboot]
  cases hs : w.bootState with
  | idle =>
    rw [hs] at hbs
    cases hm : i.memBusy <;> simp [BootLoader.next, hbs, Writer.advances, hs, BootSystem.bootIn, hm]
  | ddrReq =>
    rw [hs] at hbs
    simp only [BootLoader.next, hbs, Writer.advances, hs]
    split <;> simp
  | ddrWait =>
    rw [hs] at hbs
    simp only [BootLoader.next, hbs, Writer.advances, hs]
    split <;> simp
  | complete =>
    rw [hs] at hbs
    simp [BootLoader.next, hbs, Writer.advances, hs]
  | writeCopy =>
    rw [hs] at hbs
    simp only [BootLoader.next, hbs, Writer.advances, hs, BootLoader.writeCopy, BootSystem.bootIn, h.mmReady, h.phase,
      isLast]
    cases w.ready
    · simp
    · by_cases hp : w.phase = 3#2
      · by_cases hl : s.boot.bootAddr = 0x0003FFF8#32 <;> simp [hp, hl]
      · simp [hp]

end Tracks

theorem phase_differs : ∀ p q : BitVec 2, p ≠ q →
    (decide (p ≤ 1#2)).toNat ≠ (decide (q ≤ 1#2)).toNat ∨ (p.getLsbD 0).toNat ≠ (q.getLsbD 0).toNat := by decide

/-- `writeAddress` without cases. -/
theorem writeAddress_linear {a : BitVec 32} (ha : a.toNat < 0x40000) (phase : BitVec 2) :
    (writeAddress a phase).toNat + 0xF00000 * (decide (phase ≤ 1#2)).toNat =
      0xFC0000 + a.toNat + 4 * (phase.getLsbD 0).toNat := by
  rw [writeAddress_toNat ha]
  have hbit : (if phase.getLsbD 0 then 4 else 0) = 4 * (phase.getLsbD 0).toNat := by cases phase.getLsbD 0 <;> rfl
  rw [hbit]
  by_cases h1 : phase ≤ 1#2
  · rw [if_pos h1, decide_eq_true h1, Bool.toNat_true]; omega
  · rw [if_neg h1, decide_eq_false h1, Bool.toNat_false]; omega

theorem writeAddress_lt {a : BitVec 32} (ha : a.toNat < 0x40000 ∧ a.toNat % 8 = 0) (phase : BitVec 2) :
    (writeAddress a phase).toNat < 0x1000000 := by
  have h := writeAddress_linear ha.1 phase
  have hb := Bool.toNat_lt (phase.getLsbD 0)
  omega

namespace Copying

variable {ddr : BitVec 29 → BitVec 64} {w : Writer} {s : BootSystem} {i : BootSystemIn}

/-- A write of this group leaves the other cells as they are. -/
theorem kept (ht : Tracks ddr w s) (hin : w.InStep (inHole s.boot.bootAddr)) {x : BitVec 32} (hx : x.toNat < 0x1000000)
    (hne : x.toNat / 4 ≠ (writeAddress s.boot.bootAddr w.phase).toNat / 4) :
    (s.step ddr i).sdram.mem (sdramDword x) = s.sdram.mem (sdramDword x) := by
  have hlt := writeAddress_lt ht.addr w.phase
  have hcell : ¬ sdramDword x = sdramDword (writeAddress s.boot.bootAddr w.phase) := by
    rw [sdramDword_inj hx hlt]
    exact hne
  rw [ht.mem_step hin, if_neg fun h => hcell h.2]

/-- Groups copied before stay copied. -/
theorem below_kept (ht : Tracks ddr w s) (hin : w.InStep (inHole s.boot.bootAddr)) {k : BitVec 32}
    (hk : k.toNat < s.boot.bootAddr.toNat) (h : DwordCopied ddr s.sdram.mem k) :
    DwordCopied ddr (s.step ddr i).sdram.mem k := by
  obtain ⟨ha, h8⟩ := ht.addr
  have hw := writeAddress_linear ha w.phase
  have hb := Bool.toNat_lt (w.phase.getLsbD 0)
  have hc := Bool.toNat_lt (decide (w.phase ≤ 1#2))
  have hm : (biosMirrorBase + k).toNat = 0xFC0000 + k.toNat := by
    simp only [biosMirrorBase, BitVec.toNat_add, BitVec.toNat_ofNat]; omega
  have hl : (0x000C0000#32 + k).toNat = 0xC0000 + k.toNat := by
    simp only [BitVec.toNat_add, BitVec.toNat_ofNat]; omega
  refine ⟨?_, fun hres => ?_⟩
  · rw [kept ht hin (by omega) (by omega)]
    exact h.1
  · rw [kept ht hin (by omega) (by omega)]
    exact h.2 hres

/-- A phase that has landed stays so. -/
theorem landed_kept (ht : Tracks ddr w s) (hin : w.InStep (inHole s.boot.bootAddr)) {phase : BitVec 2}
    (h : Landed ddr s.sdram.mem s.boot.bootAddr phase) :
    Landed ddr (s.step ddr i).sdram.mem s.boot.bootAddr phase := by
  intro hn
  by_cases hp : phase = w.phase
  · subst hp
    rw [ht.mem_step hin]
    split
    · rfl
    · exact h hn
  · obtain ⟨ha, h8⟩ := ht.addr
    have h1 := writeAddress_linear ha phase
    have h2 := writeAddress_linear ha w.phase
    have hb := Bool.toNat_lt (phase.getLsbD 0)
    have hb' := Bool.toNat_lt (w.phase.getLsbD 0)
    have hd := phase_differs _ _ hp
    rw [kept ht hin (writeAddress_lt ⟨ha, h8⟩ phase) (by omega)]
    exact h hn

/-- An acknowledged phase has landed. -/
theorem landed_ready (h : Copying ddr w s) (hin : w.InStep (inHole s.boot.bootAddr)) (hr : w.ready = true) :
    Landed ddr s.sdram.mem s.boot.bootAddr w.phase := by
  rcases (hin.of_ready hr).2 with ⟨hc, -⟩ | hhole
  · exact h.acknowledged hc
  · exact fun hn => absurd hhole hn

section Step

variable (h : Copying ddr w s) (ht : Tracks ddr w s) (hin : w.InStep (inHole s.boot.bootAddr))
  (hr : i.ports.reset = false)
include h ht hin

/-- The groups below the one in progress. -/
theorem below_step (hc : w.bootState ≠ .complete) {k : BitVec 32} (hk : k.toNat < s.boot.bootAddr.toNat) :
    DwordCopied ddr (s.step ddr i).sdram.mem k := by
  refine below_kept ht hin hk (h.below k ?_)
  rw [if_neg hc]
  exact hk

/-- With the acknowledge of the last phase the whole group has landed. -/
theorem group_step (hs : w.bootState = .writeCopy) (hready : w.ready = true) (hp : w.phase = 3#2) {k : BitVec 32}
    (hk : k.toNat < s.boot.bootAddr.toNat + 8) : DwordCopied ddr (s.step ddr i).sdram.mem k := by
  have hall : ∀ p, Landed ddr (s.step ddr i).sdram.mem s.boot.bootAddr p := by
    intro p
    by_cases hp3 : p = 3#2
    · exact landed_kept ht hin (hp3 ▸ hp ▸ h.landed_ready hin hready)
    · have hlt : ∀ p : BitVec 2, p ≠ 3#2 → p < 3#2 := by decide
      exact landed_kept ht hin (h.phases hs p (hp ▸ hlt p hp3))
  rcases Nat.lt_or_ge k.toNat s.boot.bootAddr.toNat with hlt | hge
  · exact below_step h ht hin (by rw [hs]; decide) hlt
  · obtain ⟨ha, h8⟩ := ht.addr
    exact dwordCopied_of_landed (by omega) h8 hge hk hall

include hr

theorem step_last (hs : w.bootState = .writeCopy) (hadv : w.advances = true) :
    Copying ddr (w.step (inHole s.boot.bootAddr) (isLast s.boot.bootAddr) (s.writerIn i)) (s.step ddr i) := by
  obtain ⟨hready, hp⟩ : w.ready = true ∧ w.phase = 3#2 := by simpa [Writer.advances, hs] using hadv
  have haddr := ht.addr_step hr
  have h8 := ht.addr.2
  have hstate : (w.step (inHole s.boot.bootAddr) (isLast s.boot.bootAddr) (s.writerIn i)).bootState =
      if isLast s.boot.bootAddr then .complete else .ddrReq := by
    simp [Writer.step, Writer.nextState, hs, hready, hp]
  have hcool : (w.step (inHole s.boot.bootAddr) (isLast s.boot.bootAddr) (s.writerIn i)).cool ≠ 3 := by
    intro hc3
    have := (hin.accepts ((hin.cool_step _ _).2 hc3)).2.2.2
    simp [hready] at this
  refine ⟨fun k hk => ?_, fun hs' => ?_, fun hc3 => absurd hc3 hcool⟩
  · -- the address goes on by a group, or the copy is complete
    rw [hstate] at hk
    cases hl : isLast s.boot.bootAddr
    · have hnotidle : ¬ (w.bootState = .idle ∧ i.memBusy = false) := fun hi => by simp [hs] at hi
      rw [hl, if_neg (by simp)] at hk
      rw [haddr, if_neg hnotidle, if_pos ⟨hadv, hl⟩, BitVec.toNat_add, BitVec.toNat_ofNat] at hk
      exact group_step h ht hin hs hready hp (by omega)
    · have heq : s.boot.bootAddr = 0x0003FFF8#32 := by simpa [isLast] using hl
      rw [hl, if_pos rfl, if_pos rfl] at hk
      have hn : s.boot.bootAddr.toNat = 0x3FFF8 := by rw [heq]; rfl
      exact group_step h ht hin hs hready hp (by omega)
  · rw [hstate] at hs'
    cases hl : isLast s.boot.bootAddr <;> simp [hl] at hs'

theorem step_phase (hs : w.bootState = .writeCopy) (hadv : w.advances = false) :
    Copying ddr (w.step (inHole s.boot.bootAddr) (isLast s.boot.bootAddr) (s.writerIn i)) (s.step ddr i) := by
  have hc : w.bootState ≠ .complete := by rw [hs]; decide
  have hphases : ∀ p, p < w.phase → Landed ddr (s.step ddr i).sdram.mem s.boot.bootAddr p :=
    fun p hp => landed_kept ht hin (h.phases hs p hp)
  have hsame : (s.step ddr i).boot.bootAddr = s.boot.bootAddr := by
    rw [ht.addr_step hr, if_neg fun hi => by simp [hs] at hi, if_neg fun hx => by simp [hadv] at hx]
  have hstate : (w.step (inHole s.boot.bootAddr) (isLast s.boot.bootAddr) (s.writerIn i)).bootState = .writeCopy := by
    simp only [Writer.advances, hs, beq_self_eq_true, Bool.true_and] at hadv
    simp only [Writer.step, Writer.nextState, hs, hadv, Bool.false_eq_true, if_false]
  refine ⟨fun k hk => ?_, fun _ p hp => ?_, fun hc3 => ?_⟩
  · rw [hstate, if_neg (by decide), hsame] at hk
    exact below_step h ht hin hc hk
  · -- a phase is behind the next one when it was behind this one, or is this one and is acknowledged
    rw [hsame]
    cases hrdy : w.ready
    · have hph : (w.step (inHole s.boot.bootAddr) (isLast s.boot.bootAddr) (s.writerIn i)).phase = w.phase := by
        simp [Writer.step, hs, hrdy]
      exact hphases p (hph ▸ hp)
    · have hp3 : w.phase ≠ 3#2 := by
        intro hp3
        simp [Writer.advances, hs, hrdy, hp3] at hadv
      have hph : (w.step (inHole s.boot.bootAddr) (isLast s.boot.bootAddr) (s.writerIn i)).phase = w.phase + 1 := by
        simp [Writer.step, hs, hrdy, hp3]
      have hcases : ∀ p q : BitVec 2, q ≠ 3#2 → p < q + 1 → p < q ∨ p = q := by decide
      rcases hcases p w.phase hp3 (hph ▸ hp) with hlt | heq
      · exact hphases p hlt
      · rw [heq]
        exact landed_kept ht hin (h.landed_ready hin hrdy)
  · -- SDRAM accepted the phase's write at this edge
    have hacc := (hin.cool_step _ _).2 hc3
    have hrdy := (hin.accepts hacc).2.2.2
    have hph : (w.step (inHole s.boot.bootAddr) (isLast s.boot.bootAddr) (s.writerIn i)).phase = w.phase := by
      simp [Writer.step, hs, hrdy]
    rw [hsame, hph]
    intro _
    rw [ht.mem_step hin, if_pos ⟨hacc, rfl⟩]

/-- Outside the copy nothing lands, and a group begins with phase 0. -/
theorem step_outside (hc : w.bootState ≠ .complete) (hs : w.bootState ≠ .writeCopy) :
    Copying ddr (w.step (inHole s.boot.bootAddr) (isLast s.boot.bootAddr) (s.writerIn i)) (s.step ddr i) := by
  have hcool : (w.step (inHole s.boot.bootAddr) (isLast s.boot.bootAddr) (s.writerIn i)).cool ≠ 3 :=
    fun hc3 => hs (hin.accepts ((hin.cool_step _ _).2 hc3)).1
  have hnoadv : ¬ (w.advances = true ∧ isLast s.boot.bootAddr = false) := fun hx => by
    simp [Writer.advances, hs] at hx
  refine ⟨fun k hk => ?_, fun hs' p hp => ?_, fun hc3 => absurd hc3 hcool⟩
  · have hstate : (w.step (inHole s.boot.bootAddr) (isLast s.boot.bootAddr) (s.writerIn i)).bootState ≠ .complete := by
      simp only [Writer.step, Writer.nextState]
      cases hs₀ : w.bootState with
      | writeCopy => exact absurd hs₀ hs
      | complete => exact absurd hs₀ hc
      | idle | ddrReq | ddrWait => simp only; split <;> simp
    rw [if_neg hstate, ht.addr_step hr, if_neg hnoadv] at hk
    split at hk
    · exact absurd hk (Nat.not_lt_zero _)
    · exact below_step h ht hin hc hk
  · have hph : (w.step (inHole s.boot.bootAddr) (isLast s.boot.bootAddr) (s.writerIn i)).phase = 0 := by
      simp only [Writer.step, Writer.nextState] at hs' ⊢
      cases hs₀ : w.bootState with
      | writeCopy => exact absurd hs₀ hs
      | complete => exact absurd hs₀ hc
      | idle | ddrReq => simp only [hs₀] at hs'; split at hs' <;> simp at hs'
      | ddrWait =>
        simp only [hs₀] at hs'
        split at hs'
        · rename_i hans
          simp [hans]
        · simp at hs'
    rw [hph] at hp
    exact absurd hp (by simp)

/-- Each edge of a boot without late mailbox writes keeps the copy right. -/
theorem step (hc : w.bootState ≠ .complete) :
    Copying ddr (w.step (inHole s.boot.bootAddr) (isLast s.boot.bootAddr) (s.writerIn i)) (s.step ddr i) := by
  by_cases hs : w.bootState = .writeCopy
  · cases hadv : w.advances with
    | true => exact step_last h ht hin hr hs hadv
    | false => exact step_phase h ht hin hr hs hadv
  · exact step_outside h ht hin hr hc hs

end Step

end Copying

/-! ## Runs -/

/-- A boot: the contents of DDR3, the registers before reset, what SDRAM held, and the clocks. -/
structure BootRun where
  ddr : BitVec 29 → BitVec 64
  mm₀ : MainMemory
  mem₀ : BitVec 25 → BitVec 32
  inp : Nat → BootSystemIn
  noReset : ∀ t, (inp t).ports.reset = false

namespace BootRun

variable (R : BootRun)

def regs (t : Nat) : BootSystem := run (BootSystem.step R.ddr) (BootSystem.afterReset R.mm₀ R.mem₀) R.inp t

/-- `main_memory` takes a write for the mailbox while the write phase is already that of the mirror. -/
def lateMailbox (t : Nat) : Bool :=
  (R.regs t).boot.bootState == .writeCopy && 2#2 ≤ (R.regs t).boot.bootWritePhase &&
    (R.regs t).mm.state == .idle && (R.regs t).mm.access true ((R.regs t).mmIn (R.inp t)) == .shared

variable {R}

theorem regs_succ (t : Nat) : R.regs (t + 1) = (R.regs t).step R.ddr (R.inp t) := rfl

theorem late_eq {w : Writer} {t : Nat} (ht : Tracks R.ddr w (R.regs t)) :
    w.late (inHole (R.regs t).boot.bootAddr) = R.lateMailbox t := by
  rw [lateMailbox, ht.bootState, ht.phase, ht.access, Writer.late, Writer.dispatches]
  rcases ht.mmState with ⟨hb, hst⟩ | ⟨hb, hst | hst⟩
  · rw [hb, hst]
    cases hw : w.write
    · simp
    · cases hm : w.mailbox (inHole (R.regs t).boot.bootAddr)
      · simp
      · simp only [Writer.mailbox, Bool.and_eq_true, beq_iff_eq] at hm
        simp [hm.1.2]
  · simp [hb, hst]
  · simp [hb, hst]

/-- `boot_done` rises in the clock after `BOOT_COMPLETE` is entered, and stays up. -/
theorem done_succ (t : Nat) : (R.regs (t + 1)).boot.bootDone =
    ((R.regs t).boot.bootDone || (R.regs t).boot.bootState == .complete) := by
  have hrst : ((R.regs t).bootIn (R.inp t)).rst = false := R.noReset t
  rw [regs_succ]
  simp only [BootSystem.step, BootLoader.step, hrst, Bool.false_eq_true, if_false, BootLoader.next]
  cases hs : (R.regs t).boot.bootState with
  | writeCopy =>
    simp only [BootLoader.writeCopy]
    split
    · split
      · simp
      · split <;> simp
    · simp
  | complete => simp
  | idle | ddrReq | ddrWait => simp only; split <;> simp

theorem tracks_zero : Tracks R.ddr ⟨.idle, false, 0, false, 0, false, false, 0⟩ (R.regs 0) := by
  refine ⟨rfl, rfl, rfl, by simp, rfl, rfl, ⟨show (0#32).toNat < 0x40000 by decide,
    show (0#32).toNat % 8 = 0 by decide⟩, by simp, by simp, rfl, rfl, rfl, .inl ⟨rfl, rfl⟩, rfl,
    by simp, rfl⟩

/-- A boot without late mailbox writes has copied, at each clock, what the loader has passed. -/
theorem copying (hlate : ∀ t, R.lateMailbox t = false) (t : Nat) (hd : (R.regs t).boot.bootDone = false) :
    ∃ w, Tracks R.ddr w (R.regs t) ∧ w.InStep (inHole (R.regs t).boot.bootAddr) ∧ Copying R.ddr w (R.regs t) := by
  induction t with
  | zero =>
    refine ⟨_, tracks_zero, ⟨by simp, by simp, by simp, by simp, by simp, by simp⟩, ⟨fun k hk => ?_, by simp, by simp⟩⟩
    exact absurd hk (Nat.not_lt_zero _)
  | succ t ih =>
    rw [done_succ, Bool.or_eq_false_iff] at hd
    obtain ⟨w, ht, hin, hc⟩ := ih hd.1
    have hne : w.bootState ≠ .complete := by
      rw [← ht.bootState]
      simpa using hd.2
    refine ⟨_, ht.step (R.noReset t) hne, hin.step (by rw [late_eq ht, hlate]) _ _ fun hs hadv => ?_,
      hc.step ht hin (R.noReset t) hne⟩
    rw [regs_succ, ht.addr_step (R.noReset t), if_neg fun hi => by simp [hs] at hi, if_neg fun hi => by simp [hadv] at hi]

/-- When the boot loader raises `boot_done`, both windows hold the image, if `main_memory` never took a
mailbox write in a mirror phase. -/
theorem image_copied (R : BootRun) (hlate : ∀ t, R.lateMailbox t = false) (t : Nat)
    (hd : (R.regs t).boot.bootDone = false) (hd' : (R.regs (t + 1)).boot.bootDone = true) (i : BitVec 32)
    (hi : i.toNat < 0x40000) : DwordCopied R.ddr (R.regs (t + 1)).sdram.mem i := by
  obtain ⟨w, ht, hin, hc⟩ := copying hlate t hd
  have hs : w.bootState = .complete := by
    rw [done_succ, hd, Bool.false_or, ht.bootState] at hd'
    simpa using hd'
  have hsame : (R.regs (t + 1)).sdram.mem = (R.regs t).sdram.mem := by
    funext x
    rw [regs_succ, ht.mem_step hin, if_neg fun hx => by simp [(hin.accepts hx.1).1] at hs]
  rw [hsame]
  exact hc.below i (by rw [if_pos hs]; exact hi)

end BootRun

end Z486.Boot
