/-
Boots that complete. With memories that take every request at once the loader reaches
`BOOT_COMPLETE` whatever the image. For an image that leaves the mailbox locked it then has skipped
one of the two mirror dwords of every group in the hole; for one that unlocks the mailbox, and a
DDR3 that is busy for a clock, it has copied everything.
-/
import Z486.Boot.Copy

namespace Z486.Boot

open Clocked Memory

/-! ## Memories that answer at once -/

/-- Every request is taken at once; if `patient`, DDR3 is busy in the first clock of a mailbox access. -/
def atOnce (patient : Bool) (s : BootSystem) : BootSystemIn where
  memBusy := false
  ddramBusy := patient && s.mm.vgaAccepted
  ddramAnswers := true
  granted := true
  ports :=
    { reset := false, cpu := ⟨false, false, 0, 0, 0, 0⟩, ramSize := 0, memDout := 0, memRespValid := false
      memReady := false, vgaReaddata := 0, vga := ⟨4, false, 0, 0, false, false, 0, 0, 0⟩, fbDdramDout := 0
      fbDdramDoutReady := false, fbDdramBusy := false }

/-- The boot of the image `ddr` with such memories, SDRAM cleared. -/
def bootAtOnce (patient : Bool) (ddr : BitVec 29 → BitVec 64) : BootRun where
  ddr := ddr
  mm₀ := .cleared
  mem₀ := fun _ => 0
  inp := fun u => atOnce patient
    (run (fun s (_ : Unit) => s.step ddr (atOnce patient s)) (.afterReset .cleared fun _ => 0) (fun _ => ()) u)
  noReset := fun _ => rfl

theorem bootAtOnce_inp (patient : Bool) (ddr : BitVec 29 → BitVec 64) (t : Nat) :
    (bootAtOnce patient ddr).inp t = atOnce patient ((bootAtOnce patient ddr).regs t) := by
  rw [BootRun.regs]
  exact congrArg (atOnce patient) (run_feedback (BootSystem.step ddr) (atOnce patient) _ t).symm

namespace Writer

/-- What the writer sees of them. -/
def atOnce (patient : Bool) (w : Writer) : WriterIn := ⟨false, patient && w.accepted, true, true, !(patient && w.accepted)⟩

/-- The writer after `n` clocks in one group. -/
def goes (patient hole : Bool) (w : Writer) : Nat → Writer
  | 0 => w
  | n + 1 => (goes patient hole w n).step hole false ((goes patient hole w n).atOnce patient)

/-- The clocks from the read of a group to its last acknowledge. -/
def copyClocks (patient hole : Bool) : Nat := if hole then (if patient then 12 else 8) else 14

def start : Writer := ⟨.idle, false, 0, false, 0, false, false, 0⟩

/-- The eight bytes of a group have been read. -/
def entry : Writer := ⟨.writeCopy, false, 0, false, 0, false, false, 0⟩

/-- The last acknowledge of a group has been counted. -/
def left : Writer := ⟨.ddrReq, false, 3, true, 3, false, false, 2⟩

def finished : Writer := ⟨.complete, false, 3, true, 3, false, false, 2⟩

/-- Every state of the writer while it is in a group, in the order it passes through them. -/
def path (patient hole : Bool) : List Writer :=
  (List.range 4).map (start.goes patient hole) ++ (List.range 3).map (left.goes patient hole) ++
    (List.range (copyClocks patient hole + 1)).map (entry.goes patient hole) ++ [finished]

/-- How many states are still ahead. -/
def ahead (patient hole : Bool) (w : Writer) : Nat := (path patient hole).length - (path patient hole).idxOf w

theorem path_step (patient hole hole' last : Bool) : ∀ w ∈ path patient hole, w.bootState ≠ .complete →
    (w.advances = false → hole' = hole) →
    w.step hole last (w.atOnce patient) ∈ path patient hole' ∧ (w.step hole last (w.atOnce patient)).bootState ≠ .idle ∧
      (w.advances = false → ahead patient hole' (w.step hole last (w.atOnce patient)) < ahead patient hole w) := by
  revert patient hole hole' last; decide +kernel

end Writer

/-! ## Boots reach the end -/

/-- The boot goes through the groups along the writer's path. -/
structure Goes (patient : Bool) (ddr : BitVec 29 → BitVec 64) (w : Writer) (s : BootSystem) : Prop where
  tracks : Tracks ddr w s
  onPath : w ∈ Writer.path patient (inHole s.boot.bootAddr)
  idle : w.bootState = .idle → s.boot.bootAddr = 0

/-- The writer's state after the clock in which the system is in `s`. -/
def Writer.after (patient : Bool) (w : Writer) (s : BootSystem) : Writer :=
  w.step (inHole s.boot.bootAddr) (isLast s.boot.bootAddr) (w.atOnce patient)

namespace Goes

variable {patient : Bool} {ddr : BitVec 29 → BitVec 64} {w : Writer} {s : BootSystem} (h : Goes patient ddr w s)
include h

/-- The loader's address moves on when a group is over. -/
theorem addr_step : (s.step ddr (atOnce patient s)).boot.bootAddr =
    if w.advances = true ∧ isLast s.boot.bootAddr = false then s.boot.bootAddr + 8#32 else s.boot.bootAddr := by
  rw [h.tracks.addr_step (i := atOnce patient s) rfl]
  split
  · rename_i hi
    rw [h.idle hi.1, if_neg fun hx => by simp [Writer.advances, hi.1] at hx]
  · rfl

/-- What the writer sees, if no mailbox write is dropped by a patient DDR3. -/
theorem writerIn_eq (hdrop : patient = true → s.mm.state ≠ .sharedDrop) :
    s.writerIn (atOnce patient s) = w.atOnce patient := by
  simp only [BootSystem.writerIn, Boot.atOnce, Writer.atOnce, h.tracks.accepted, WriterIn.mk.injEq, true_and]
  cases patient
  · simp
  · simp [hdrop rfl]

theorem path_step (hc : w.bootState ≠ .complete) :
    w.after patient s ∈ Writer.path patient (inHole (s.step ddr (atOnce patient s)).boot.bootAddr) ∧
      (w.after patient s).bootState ≠ .idle ∧
      (w.advances = false → (w.after patient s).ahead patient (inHole (s.step ddr (atOnce patient s)).boot.bootAddr) <
        w.ahead patient (inHole s.boot.bootAddr)) :=
  Writer.path_step patient _ _ _ w h.onPath hc fun hadv => by rw [h.addr_step, if_neg fun hx => by simp [hadv] at hx]

/-- The state after one clock. -/
theorem step (hc : w.bootState ≠ .complete) (hdrop : patient = true → s.mm.state ≠ .sharedDrop) :
    Goes patient ddr (w.after patient s) (s.step ddr (atOnce patient s)) := by
  have hs := h.tracks.step (i := atOnce patient s) rfl hc
  rw [h.writerIn_eq hdrop] at hs
  obtain ⟨hpath, hidle, -⟩ := h.path_step hc
  exact ⟨hs, hpath, fun hi => absurd hi hidle⟩

/-- Each clock brings the end of the boot nearer. -/
theorem measure_lt (hc : w.bootState ≠ .complete) (hc' : (w.after patient s).bootState ≠ .complete) :
    64 * (0x40000 - (s.step ddr (atOnce patient s)).boot.bootAddr.toNat) +
        (w.after patient s).ahead patient (inHole (s.step ddr (atOnce patient s)).boot.bootAddr) <
      64 * (0x40000 - s.boot.bootAddr.toNat) + w.ahead patient (inHole s.boot.bootAddr) := by
  obtain ⟨-, -, hahead⟩ := h.path_step hc
  obtain ⟨ha, h8⟩ := h.tracks.addr
  have haddr := h.addr_step
  cases hadv : w.advances
  · rw [haddr, if_neg fun hx => by simp [hadv] at hx] at hahead ⊢
    have := hahead hadv
    omega
  · have hlast : isLast s.boot.bootAddr = false := by
      cases hl : isLast s.boot.bootAddr
      · rfl
      · simp only [Writer.advances, Bool.and_eq_true, beq_iff_eq] at hadv
        simp [Writer.after, Writer.step, Writer.nextState, hadv, hl] at hc'
    have hlong : ∀ patient hole, (Writer.path patient hole).length ≤ 64 := by decide
    have hle : (w.after patient s).ahead patient (inHole (s.step ddr (atOnce patient s)).boot.bootAddr) ≤ 64 :=
      (Nat.sub_le _ _).trans (hlong _ _)
    have hne : s.boot.bootAddr.toNat ≠ 0x3FFF8 := fun heq => by
      have heq' : s.boot.bootAddr = 0x0003FFF8#32 := BitVec.eq_of_toNat_eq heq
      simp [isLast, heq'] at hlast
    have hadd : (s.boot.bootAddr + 8#32).toNat = s.boot.bootAddr.toNat + 8 := by
      rw [BitVec.toNat_add, BitVec.toNat_ofNat]; omega
    rw [if_pos ⟨hadv, hlast⟩] at haddr
    rw [haddr] at hle ⊢
    rw [hadd]
    omega

end Goes

section Run

variable {patient : Bool} {ddr : BitVec 29 → BitVec 64}

theorem bootAtOnce_succ (t : Nat) : (bootAtOnce patient ddr).regs (t + 1) =
    ((bootAtOnce patient ddr).regs t).step ddr (atOnce patient ((bootAtOnce patient ddr).regs t)) := by
  rw [BootRun.regs_succ, bootAtOnce_inp]
  rfl

theorem goes_zero : Goes patient ddr .start ((bootAtOnce patient ddr).regs 0) := by
  refine ⟨(bootAtOnce patient ddr).tracks_zero, ?_, fun _ => rfl⟩
  have hin : ∀ patient hole, Writer.start ∈ Writer.path patient hole := by decide
  exact hin patient _

section Invariant

variable {I : Writer → BootSystem → Prop} (h0 : I .start ((bootAtOnce patient ddr).regs 0))
  (hdrop : ∀ w s, I w s → patient = true → s.mm.state ≠ .sharedDrop)
  (hstep : ∀ w s, Goes patient ddr w s → w.bootState ≠ .complete → I w s →
    I (w.after patient s) (s.step ddr (atOnce patient s)))
include h0 hdrop hstep

/-- A boot with an invariant that rules out drops where DDR3 is patient stays on the path. -/
theorem goes_of_invariant (t : Nat) (hd : ((bootAtOnce patient ddr).regs t).boot.bootDone = false) :
    ∃ w, Goes patient ddr w ((bootAtOnce patient ddr).regs t) ∧ I w ((bootAtOnce patient ddr).regs t) := by
  induction t with
  | zero => exact ⟨_, goes_zero, h0⟩
  | succ t ih =>
    rw [BootRun.done_succ, Bool.or_eq_false_iff] at hd
    obtain ⟨w, hw, hi⟩ := ih hd.1
    have hc : w.bootState ≠ .complete := by
      rw [← hw.tracks.bootState]
      simpa using hd.2
    rw [bootAtOnce_succ]
    exact ⟨_, hw.step hc (hdrop _ _ hi), hstep _ _ hw hc hi⟩

omit h0 in
theorem exists_complete {t : Nat} {w : Writer} (hw : Goes patient ddr w ((bootAtOnce patient ddr).regs t))
    (hi : I w ((bootAtOnce patient ddr).regs t)) :
    ∃ u, ((bootAtOnce patient ddr).regs u).boot.bootState = .complete := by
  -- by induction on what is still ahead
  generalize hm : 64 * (0x40000 - ((bootAtOnce patient ddr).regs t).boot.bootAddr.toNat) +
    w.ahead patient (inHole ((bootAtOnce patient ddr).regs t).boot.bootAddr) = m
  induction m using Nat.strong_induction_on generalizing t w with
  | _ m ih =>
    by_cases hc : w.bootState = .complete
    · exact ⟨t, hw.tracks.bootState.trans hc⟩
    · have hw' := hw.step hc (hdrop _ _ hi)
      have hi' := hstep _ _ hw hc hi
      by_cases hc' : (w.after patient ((bootAtOnce patient ddr).regs t)).bootState = .complete
      · exact ⟨t + 1, by rw [bootAtOnce_succ, hw'.tracks.bootState, hc']⟩
      · have hlt := hw.measure_lt hc hc'
        rw [← bootAtOnce_succ] at hw' hi' hlt
        exact ih _ (hm ▸ hlt) hw' hi' rfl

/-- Such a boot raises `boot_done`. -/
theorem exists_done : ∃ t, ((bootAtOnce patient ddr).regs t).boot.bootDone = false ∧
    ((bootAtOnce patient ddr).regs (t + 1)).boot.bootDone = true := by
  obtain ⟨u, hu⟩ := exists_complete hdrop hstep goes_zero h0
  have hdone : ((bootAtOnce patient ddr).regs (u + 1)).boot.bootDone = true := by
    rw [BootRun.done_succ, hu]; simp
  obtain ⟨v, -, hv, hbefore⟩ := exists_first (P := fun t => ((bootAtOnce patient ddr).regs t).boot.bootDone = true)
    ⟨u + 1, Nat.zero_le _, hdone⟩
  obtain ⟨t, rfl⟩ : ∃ t, v = t + 1 := Nat.exists_eq_succ_of_ne_zero fun hz => by
    rw [hz, goes_zero.tracks.notDone] at hv
    exact absurd hv (by simp)
  exact ⟨t, by simpa using hbefore t (Nat.zero_le _) (Nat.lt_succ_self t), hv⟩

end Invariant

end Run

/-! ## An image that leaves the mailbox locked -/

/-- In the hole the locked mailbox takes the place of SDRAM for one mirror write of a group. -/
theorem locked_path (hole : Bool) : ∀ w ∈ Writer.path false hole, w.accepts hole (w.atOnce false) = true →
    w.bootState = .writeCopy ∧ ¬ (hole = true ∧ w.portPhase = 3#2) := by
  revert hole; decide

theorem phase_last : ∀ p : BitVec 2, (decide (p ≤ 1#2)).toNat = 0 → (p.getLsbD 0).toNat = 1 → p = 3#2 := by decide

/-- The second dword of the mirror's first group in the hole is not written. -/
theorem skipped_kept {ddr : BitVec 29 → BitVec 64} {w : Writer} {s : BootSystem} (h : Goes false ddr w s) :
    (s.step ddr (atOnce false s)).sdram.mem (sdramDword (biosMirrorBase + 0xE004#32)) =
      s.sdram.mem (sdramDword (biosMirrorBase + 0xE004#32)) := by
  simp only [BootSystem.step, SdramPort.step]
  rw [h.tracks.accepts, h.writerIn_eq (by simp)]
  cases hacc : w.accepts (inHole s.boot.bootAddr) (w.atOnce false)
  · simp
  · obtain ⟨hs, hp⟩ := locked_path _ w h.onPath hacc
    have hw : w.write = true := by
      simp only [Writer.accepts, Bool.and_eq_true] at hacc
      exact hacc.1.1.1.1
    obtain ⟨a, ha, h8, haddr, -, -, hcopy⟩ := h.tracks.port hw
    obtain ⟨rfl, -⟩ := hcopy hs
    have hreq : (s.mmReq (atOnce false s)).addr = writeAddress s.boot.bootAddr w.portPhase := by
      rw [h.tracks.mmReq]; exact haddr
    have hcell : ¬ sdramDword (biosMirrorBase + 0xE004#32) = sdramDword (writeAddress s.boot.bootAddr w.portPhase) := by
      have hx : (biosMirrorBase + 0xE004#32).toNat = 0xFCE004 := rfl
      rw [sdramDword_inj (by rw [hx]; decide) (writeAddress_lt h.tracks.addr _), hx]
      have hwa := writeAddress_linear ha w.portPhase
      have hb := Bool.toNat_lt (w.portPhase.getLsbD 0)
      have hc := Bool.toNat_lt (decide (w.portPhase ≤ 1#2))
      intro heq
      refine hp ⟨?_, phase_last _ (by omega) (by omega)⟩
      simp only [inHole, Bool.and_eq_true, decide_eq_true_eq]
      omega
    simp only [hreq, beq_eq_false_iff_ne.2 hcell, Bool.and_false, Bool.false_eq_true, if_false]

/-- With a locked mailbox the loader raises `boot_done` although the mirror lacks a dword of the image. -/
theorem lockedMailbox_not_copied :
    ∃ t, ((bootAtOnce false fun _ => 0x0000000200000001#64).regs t).boot.bootDone = false ∧
      ((bootAtOnce false fun _ => 0x0000000200000001#64).regs (t + 1)).boot.bootDone = true ∧
      ¬ DwordCopied (fun _ => 0x0000000200000001#64)
        ((bootAtOnce false fun _ => 0x0000000200000001#64).regs (t + 1)).sdram.mem 0xE004#32 := by
  have hstep : ∀ w s, Goes false (fun _ => 0x0000000200000001#64) w s → w.bootState ≠ .complete →
      s.sdram.mem (sdramDword (biosMirrorBase + 0xE004#32)) = 0 →
      (s.step (fun _ => 0x0000000200000001#64) (atOnce false s)).sdram.mem (sdramDword (biosMirrorBase + 0xE004#32)) = 0 :=
    fun w s h _ hi => by rw [skipped_kept h, hi]
  obtain ⟨t, hd, hd'⟩ := exists_done (I := fun _ s => s.sdram.mem (sdramDword (biosMirrorBase + 0xE004#32)) = 0) rfl
    (by simp) hstep
  obtain ⟨w, hw, hi⟩ := goes_of_invariant (I := fun _ s => s.sdram.mem (sdramDword (biosMirrorBase + 0xE004#32)) = 0) rfl
    (by simp) hstep t hd
  refine ⟨t, hd, hd', fun hcopied => ?_⟩
  have hmirror := hcopied.1
  rw [bootAtOnce_succ, skipped_kept hw, hi] at hmirror
  exact absurd hmirror (by decide)

/-! ## An image that unlocks it -/

/-- What the mailbox does in one clock of a boot. -/
theorem Tracks.mailbox_step {ddr : BitVec 29 → BitVec 64} {w : Writer} {s : BootSystem} {i : BootSystemIn}
    (h : Tracks ddr w s) (hr : i.ports.reset = false) :
    (s.step ddr i).mm.sharedEnabled = (s.mm.sharedEnabled ||
        (w.dispatches (inHole s.boot.bootAddr) && (s.mmReq i).sharedUnlock)) ∧
      ((s.step ddr i).mm.state = .sharedDrop → s.mm.state ≠ .sharedDrop →
        w.dispatches (inHole s.boot.bootAddr) = true ∧ (s.mm.sharedEnabled || (s.mmReq i).sharedUnlock) = false) := by
  have hreq : (s.mmIn i).cpu = s.mmReq i := rfl
  have hwr : (s.mmReq i).write = true := by rw [h.mmReq]
  have hbusy : (s.mmIn i).fbDdramBusy = i.ddramBusy := rfl
  have hmm : (s.step ddr i).mm = (s.mm.next true (s.mmIn i)).setWindow i.ports.vga.memmode :=
    MainMemory.step_of_not_reset (i := s.mmIn i) hr
  have hprep : (s.mm.prepare (s.mmIn i)).sharedEnabled = s.mm.sharedEnabled := by
    unfold MainMemory.prepare MainMemory.pointVga; split_ifs <;> rfl
  rw [hmm]
  simp only [Writer.dispatches, MainMemory.setWindow]
  rcases h.mmState with ⟨hb, hst⟩ | ⟨hb, hst | hst⟩
  · simp only [MainMemory.next, hst, hb, MainMemory.idle, h.access, Bool.not_false, Bool.and_true]
    cases w.write && w.mailbox (inHole s.boot.bootAddr)
    · simp [hst, hprep]
    · simp only [if_true, MainMemory.acceptShared, hreq, hwr, hprep]
      cases s.mm.sharedEnabled <;> cases (s.mmReq i).sharedUnlock <;> simp
  · simp [MainMemory.next, hst, MainMemory.sharedDropNext, hb, MainMemory.clearPulses]
  · simp only [MainMemory.next, hst, MainMemory.fbWriteNext, hb, hbusy]
    cases i.ddramBusy <;> simp [MainMemory.clearPulses, hst]

/-- An image of the mailbox's unlocking dword. -/
def unlockImage : BitVec 29 → BitVec 64 := fun _ => 0x000000020000A345#64

/-- With a patient DDR3 the port shows the write of the phase when the mailbox takes it. -/
theorem patient_path (hole : Bool) : ∀ w ∈ Writer.path true hole, w.late hole = false ∧
    (w.dispatches hole = true → w.portPhase = w.phase) ∧
    (hole = true → w.bootState = .writeCopy → w.phase = 0 → w.accepted = false → w.ready = false) := by
  revert hole; decide

/-- The mailbox is open, or its first word has not been written yet. -/
def Unlocks (w : Writer) (s : BootSystem) : Prop :=
  s.mm.state ≠ .sharedDrop ∧ (s.mm.sharedEnabled = true ∨ s.boot.bootAddr.toNat < 0xE000 ∨
    s.boot.bootAddr = 0xE000#32 ∧ (w.bootState = .writeCopy → w.phase = 0 ∧ w.accepted = false))

/-- The first write to the mailbox unlocks it. -/
theorem unlocks_first {w : Writer} {s : BootSystem} (h : Goes true unlockImage w s)
    (hd : w.dispatches (inHole s.boot.bootAddr) = true) (hu : Unlocks w s) :
    (s.mm.sharedEnabled || (s.mmReq (atOnce true s)).sharedUnlock) = true := by
  have hd' := hd
  simp only [Writer.dispatches, Writer.mailbox, Bool.and_eq_true, Bool.not_eq_true', beq_iff_eq] at hd'
  obtain ⟨⟨hw, ⟨hhole, hs⟩, -⟩, -⟩ := hd'
  rcases hu.2 with he | hlt | ⟨ha, hp⟩
  · simp [he]
  · simp only [inHole, Bool.and_eq_true, decide_eq_true_eq] at hhole
    omega
  · have hphase := ((patient_path _ w h.onPath).2.1 hd).trans (hp hs).1
    obtain ⟨a, -, -, haddr, hbe, -, hcopy⟩ := h.tracks.port hw
    obtain ⟨rfl, hdata⟩ := hcopy hs
    rw [hphase, ha] at haddr
    rw [hphase, (h.tracks.data hs).1] at hdata
    rw [h.tracks.mmReq, haddr, hdata, hbe, unlockImage]
    simp only [CpuReq.sharedUnlock, Bool.or_eq_true]
    right
    decide

/-- The address and the state of the writer around the mailbox's first word. -/
theorem unlocks_before {w : Writer} {s : BootSystem} (h : Goes true unlockImage w s)
    (hd : w.dispatches (inHole s.boot.bootAddr) = false) (ha : s.boot.bootAddr.toNat < 0xE000 ∨
      s.boot.bootAddr = 0xE000#32 ∧ (w.bootState = .writeCopy → w.phase = 0 ∧ w.accepted = false)) :
    (s.step unlockImage (atOnce true s)).boot.bootAddr.toNat < 0xE000 ∨
      (s.step unlockImage (atOnce true s)).boot.bootAddr = 0xE000#32 ∧
        ((w.after true s).bootState = .writeCopy → (w.after true s).phase = 0 ∧ (w.after true s).accepted = false) := by
  have haddr := h.addr_step
  have hacc : (w.after true s).accepted = false := hd
  rcases ha with hlt | ⟨ha, hp⟩
  · -- below the mailbox's group the copy may go on to it, not past it
    cases hadv : w.advances
    · rw [haddr, if_neg fun hx => by simp [hadv] at hx]
      exact .inl hlt
    · have hlast : isLast s.boot.bootAddr = false := by
        simp only [isLast, beq_eq_false_iff_ne]
        rintro heq
        rw [heq] at hlt
        exact absurd hlt (by decide)
      have hadd : (s.boot.bootAddr + 8#32).toNat = s.boot.bootAddr.toNat + 8 := by
        rw [BitVec.toNat_add, BitVec.toNat_ofNat]; omega
      rw [haddr, if_pos ⟨hadv, hlast⟩, hadd]
      have h8 := h.tracks.addr.2
      rcases Nat.lt_or_ge (s.boot.bootAddr.toNat + 8) 0xE000 with h | h
      · exact .inl h
      · refine .inr ⟨BitVec.eq_of_toNat_eq (by rw [hadd]; show _ = 0xE000; omega), fun hs => ?_⟩
        simp only [Writer.advances, Bool.and_eq_true, beq_iff_eq] at hadv
        simp [Writer.after, Writer.step, Writer.nextState, hadv, hlast] at hs
  · -- in it nothing is acknowledged before the first write is dispatched
    have hhole : inHole s.boot.bootAddr = true := by rw [ha]; decide
    have hready : w.bootState = .writeCopy → w.ready = false := fun hs =>
      (patient_path _ w h.onPath).2.2 hhole hs (hp hs).1 (hp hs).2
    have hadv : w.advances = false := by
      cases hadv : w.advances
      · rfl
      · simp only [Writer.advances, Bool.and_eq_true, beq_iff_eq] at hadv
        rw [hready hadv.1.1] at hadv
        simp at hadv
    rw [haddr, if_neg fun hx => by simp [hadv] at hx]
    refine .inr ⟨ha, fun hs' => ⟨?_, hacc⟩⟩
    cases hs : w.bootState with
    | writeCopy => simp [Writer.after, Writer.step, hs, hready hs, hp hs]
    | ddrWait => simp [Writer.after, Writer.step, hs, Writer.atOnce]
    | idle | complete => simp [Writer.after, Writer.step, Writer.nextState, hs, Writer.atOnce] at hs'
    | ddrReq =>
      simp only [Writer.after, Writer.step, Writer.nextState, hs] at hs'
      split at hs' <;> simp at hs'

theorem unlocks_step {w : Writer} {s : BootSystem} (h : Goes true unlockImage w s) (hu : Unlocks w s) :
    Unlocks (w.after true s) (s.step unlockImage (atOnce true s)) := by
  obtain ⟨hen, hdrop⟩ := h.tracks.mailbox_step (i := atOnce true s) rfl
  have hopen := fun hd => unlocks_first h hd hu
  refine ⟨fun hst => ?_, ?_⟩
  · obtain ⟨hd, hlocked⟩ := hdrop hst hu.1
    rw [hopen hd] at hlocked
    exact absurd hlocked (by simp)
  · rw [hen]
    cases hd : w.dispatches (inHole s.boot.bootAddr)
    · rcases hu.2 with he | ha
      · simp [he]
      · exact .inr (unlocks_before h hd ha)
    · simpa using Or.inl (hopen hd)

/-- After boot the loader stays in `BOOT_COMPLETE`. -/
theorem BootRun.complete_of_done (R : BootRun) (t : Nat) (hd : (R.regs t).boot.bootDone = true) :
    (R.regs t).boot.bootState = .complete := by
  induction t with
  | zero => exact absurd hd (by simp [BootRun.tracks_zero.notDone])
  | succ t ih =>
    have hrst : ((R.regs t).bootIn (R.inp t)).rst = false := R.noReset t
    have hs : (R.regs t).boot.bootState = .complete := by
      rw [BootRun.done_succ, Bool.or_eq_true] at hd
      rcases hd with hd | hs
      · exact ih hd
      · simpa using hs
    rw [BootRun.regs_succ]
    simp only [BootSystem.step, BootLoader.step, hrst, Bool.false_eq_true, if_false, BootLoader.next, hs]

/-- A boot that unlocks the mailbox with its first word, over a patient DDR3, copies the image. -/
theorem unlockImage_copied :
    ∃ t, ((bootAtOnce true unlockImage).regs (t + 1)).boot.bootDone = true ∧
      DwordCopied unlockImage ((bootAtOnce true unlockImage).regs (t + 1)).sdram.mem 0xE004#32 := by
  have h0 : Unlocks .start ((bootAtOnce true unlockImage).regs 0) :=
    ⟨by decide, .inr (.inl (by decide))⟩
  have hdrop : ∀ w s, Unlocks w s → true = true → s.mm.state ≠ .sharedDrop := fun w s hu _ => hu.1
  have hstep : ∀ w s, Goes true unlockImage w s → w.bootState ≠ .complete → Unlocks w s →
      Unlocks (w.after true s) (s.step unlockImage (atOnce true s)) := fun w s h _ hu => unlocks_step h hu
  obtain ⟨t, hd, hd'⟩ := exists_done h0 hdrop hstep
  refine ⟨t, hd', BootRun.image_copied _ (fun u => ?_) t hd hd' 0xE004#32 (by decide)⟩
  cases hu : ((bootAtOnce true unlockImage).regs u).boot.bootDone
  · obtain ⟨w, hw, -⟩ := goes_of_invariant h0 hdrop hstep u hu
    rw [← BootRun.late_eq hw.tracks]
    exact (patient_path _ w hw.onPath).1
  · simp [BootRun.lateMailbox, BootRun.complete_of_done _ u hu]

end Z486.Boot
