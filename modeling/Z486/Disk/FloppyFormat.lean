/-
The sectors that a format command of the floppy controller overwrites. For each sector the guest gives an ID of four
bytes: cylinder, head, sector and size. The controller takes the ID for the address of the sector: its cylinder and its
sector go to the registers of the location, while the head is the one of the command.
-/
import Z486.Clocked.Fifo
import Z486.Disk.FloppyLocation
import Z486.Disk.FloppyTerminal

namespace Z486.Disk

open Clocked

namespace Floppy

variable {s : Floppy} {i : FloppyIn} {d : Bool}

/-! ## IDs -/

/-- A byte of an ID is taken. -/
def takesId (s : Floppy) (i : FloppyIn) : Bool :=
  s.state == .waitForFormatInput && (s.ndmaWrite i || i.dmaAck) && decide (s.formatDataCount < 4)

def idByte (s : Floppy) (i : FloppyIn) : BitVec 8 := if s.ndmaWrite i then i.ioWritedata else i.dmaReaddata

/-- The last `n` bytes that have been shifted into a word, the first one first. -/
def lastBytes (n : Nat) (word : BitVec 32) : List (BitVec 8) :=
  (List.range n).reverse.map fun k => word.extractLsb' (8 * k) 8

theorem lastBytes_shift {n : Nat} (hn : n < 4) (word : BitVec 32) (b : BitVec 8) :
    lastBytes (n + 1) (word.extractLsb' 0 24 ++ b) = lastBytes n word ++ [b] := by
  have hlow : (word.extractLsb' 0 24 ++ b).extractLsb' 0 8 = b := BitVec.extractLsb'_append_eq_right
  have hhigh : ∀ k, k < 3 → (word.extractLsb' 0 24 ++ b).extractLsb' (8 * (k + 1)) 8 = word.extractLsb' (8 * k) 8 := by
    intro k hk
    rw [BitVec.extractLsb'_append_eq_of_le (by omega), BitVec.extractLsb'_extractLsb'_of_le (by omega)]
    congr 1
  unfold lastBytes
  rw [List.range_succ_eq_map, List.reverse_cons, List.map_append, List.map_singleton, hlow, ← List.map_reverse,
    List.map_map]
  congr 1
  refine List.map_congr_left fun k hk => ?_
  rw [List.mem_reverse, List.mem_range] at hk
  exact hhigh k (by omega)

/-- A format command that is accepted. -/
theorem formatStarted (hr : i.rstN = true) (hok : s.cmdFormatOkAtStart i = true) :
    (s.step i).Runs .format ∧ (s.step i).state = .waitForFormatInput ∧ (s.step i).formatDataCount = 0 ∧
      (s.step i).head (s.selectedDrive i) = s.command.getLsbD 26 := by
  have hok' := hok
  unfold cmdFormatOkAtStart at hok'
  simp only [Bool.and_eq_true, Bool.not_eq_true'] at hok'
  obtain ⟨⟨hstart, hprotected⟩, -⟩ := hok'
  have hbyte := hstart
  unfold cmdFormatTrackStart lastByte at hbyte
  simp only [Bool.and_eq_true, beq_iff_eq] at hbyte
  obtain ⟨⟨⟨hsize, hnext⟩, -⟩, hcode⟩ := hbyte
  have hidle := (commandNext_left hnext).1
  have hsw : s.swReset i = false := swReset_of_write (writes_of_next hnext)
  -- it is the last byte of a format, and of no other command
  have hread : s.cmdReadWriteStart i = false := by
    unfold cmdReadWriteStart cmdReadNormalStart cmdWriteNormalStart lastByte
    rw [hsize]
    rfl
  have hreadOk : s.cmdReadWriteOkAtStart i = false := by
    unfold cmdReadWriteOkAtStart
    rw [hread]
    rfl
  have hreadId : s.cmdReadIdOkAtStart i = false := by
    unfold cmdReadIdOkAtStart cmdReadIdStart lastByte
    rw [hsize]
    rfl
  have hstate : (s.step i).state = .waitForFormatInput := by
    show s.stateNext i = _
    unfold stateNext
    rw [hr, hidle, hreadOk, hok]
    rfl
  refine ⟨⟨?_, ?_⟩, hstate, ?_, ?_⟩
  · show (s.pendingCommandNext i).extractLsb' 0 5 = _
    unfold pendingCommandNext
    rw [hr, hsw, hreadOk, hreadId, hok]
    exact (code_of_first _ 32).trans hcode
  · rw [hstate]
    decide
  · show s.formatDataCountNext i = 0
    unfold formatDataCountNext
    rw [hr, hidle]
    rfl
  · show s.headNext i (s.selectedDrive i) = _
    unfold headNext
    simp only [hr, hsw, hread, hreadOk, hstart, hprotected, hok, Bool.not_true, Bool.or_self, Bool.false_and,
      Bool.and_false, Bool.false_eq_true, if_false, if_true]
    exact if_pos rfl

end Floppy

/-! ## Format commands -/

/-- A format command that is accepted in clock `accept`, for a disk that stays in its drive. -/
structure FormatTrack extends FloppyRun where
  accept : Nat
  begun : (inp accept).rstN = true
  accepted : (toFloppyRun.regs accept).cmdFormatOkAtStart (inp accept) = true
  mounted : (toFloppyRun.regs accept).Mounted ((toFloppyRun.regs accept).selectedDrive (inp accept))
  keepsDisk : (inp accept).KeepsDisk ((toFloppyRun.regs accept).selectedDrive (inp accept))
  undisturbed : ∀ t, toFloppyRun.Under accept t → (toFloppyRun.regs t).Undisturbed (inp t)

namespace FormatTrack

variable (x : FormatTrack)

def drive : Bool := (x.regs x.accept).selectedDrive (x.inp x.accept)

/-- The head of the command. -/
def head : Bool := (x.regs x.accept).command.getLsbD 26

/-- The track that the command addresses: the cylinder of the drive, and the head of the command. -/
def track : Nat :=
  ((x.regs x.accept).cylinder x.drive).toNat * ((x.regs x.accept).mediaHeads x.drive).toNat + x.head.toNat

/-- The bytes of the IDs that have been taken before clock `t`. -/
def supplied : Nat → List (BitVec 8) :=
  journal fun u => if decide (x.accept < u) && (x.regs u).takesId (x.inp u) then [(x.regs u).idByte (x.inp u)] else []

/-- A sector is overwritten. -/
def Overwrites (t : Nat) : Prop := x.Under x.accept t ∧ (x.regs t).request ≠ 0

/-- `[c, h, s, n]` is the last ID that has been supplied. -/
def LastId (t : Nat) (c h s n : BitVec 8) : Prop := ∃ l, 4 ∣ l.length ∧ x.supplied t = l ++ [c, h, s, n]

/-- Every sector overwritten is on the track of the command, and it is the one of its ID. -/
def KeepsTrack : Prop := ∀ t c h s n, x.Overwrites t → x.LastId t c h s n →
  1 ≤ s.toNat ∧ s.toNat ≤ ((x.regs t).mediaSectorsPerTrack x.drive).toNat ∧
    (x.regs t).asked.toNat = x.track * ((x.regs t).mediaSectorsPerTrack x.drive).toNat + (s.toNat - 1)

/-- A sector that is overwritten is one of the image. It has an ID, and when the ID and the head of the command are of
the disk, it is the sector at the cylinder of the ID, the head of the command and the sector of the ID; the host sees its
low 15 bits. -/
structure Formats (t : Nat) : Prop where
  inside : (x.regs t).asked.toNat < ((x.regs t).mediaSectorCount x.drive).toNat
  supplied : ∃ c h s n, x.LastId t c h s n
  sector : ∀ c h s n, x.LastId t c h s n → c < (x.regs t).mediaCylinders x.drive →
    x.head.toNat < ((x.regs t).mediaHeads x.drive).toNat → 1 ≤ s.toNat →
    s ≤ (x.regs t).mediaSectorsPerTrack x.drive →
      (x.regs t).asked.toNat = ((c.toNat * ((x.regs t).mediaHeads x.drive).toNat + x.head.toNat) *
        ((x.regs t).mediaSectorsPerTrack x.drive).toNat + (s.toNat - 1)) % 32768

def FormatsSupplied : Prop := ∀ t, x.Overwrites t → x.Formats t

/-- The bytes of the IDs, as far as the registers hold them. -/
def Held (x : FormatTrack) (t : Nat) : Prop :=
  match (x.regs t).state with
  | .waitForFormatInput => ∃ l, 4 ∣ l.length ∧
      x.supplied t = l ++ Floppy.lastBytes (x.regs t).formatDataCount.toNat (x.regs t).formatData
  | .prepareCount | .countLogical | .prepare | .sdControl | .sdFormatWaitForFill =>
    ∃ h n, x.LastId t ((x.regs t).cylinder x.drive) h ((x.regs t).sector x.drive) n
  | _ => 4 ∣ (x.supplied t).length

/-- A clock of the command. -/
structure At (x : FormatTrack) (t : Nat) : Prop where
  runs : (x.regs t).Runs .format
  drive : (x.regs t).selectedDriveR = x.drive
  mounted : (x.regs t).Mounted x.drive
  located : (x.regs t).Located x.drive
  head : (x.regs t).head x.drive = x.head
  count : (x.regs t).state = .waitForFormatInput → (x.regs t).formatDataCount ≤ 4
  held : x.Held t

variable {x} {t : Nat}

theorem supplied_succ (ht : x.accept < t) : x.supplied (t + 1) =
    x.supplied t ++ if (x.regs t).takesId (x.inp t) then [(x.regs t).idByte (x.inp t)] else [] := by
  rw [supplied, journal_succ, decide_eq_true ht, Bool.true_and]

theorem supplied_none (t : Nat) (ht : t ≤ x.accept + 1) : x.supplied t = [] := by
  unfold supplied
  induction t with
  | zero => rfl
  | succ t ih =>
    rw [journal_succ, ih (by omega), decide_eq_false (show ¬ x.accept < t by omega)]
    rfl

theorem at_first (x : FormatTrack) : x.At (x.accept + 1) := by
  obtain ⟨hruns, hstate, hcount, hhead⟩ := Floppy.formatStarted x.begun x.accepted
  have hstate : (x.regs (x.accept + 1)).state = .waitForFormatInput := hstate
  have hcount : (x.regs (x.accept + 1)).formatDataCount = 0 := hcount
  refine ⟨hruns, rfl, x.mounted.congr (Floppy.sameDisk x.keepsDisk), ?_, hhead, fun _ => ?_, ?_⟩
  · unfold Floppy.Located
    rw [hstate]
    trivial
  · rw [hcount]
    decide
  · unfold Held
    rw [hstate, hcount, supplied_none _ le_rfl]
    exact ⟨[], Nat.dvd_zero 4, rfl⟩

/-- Outside the input of an ID no byte is taken. -/
theorem supplied_kept (ht : x.accept < t) (hs : (x.regs t).state ≠ .waitForFormatInput) :
    x.supplied (t + 1) = x.supplied t := by
  rw [supplied_succ ht, Floppy.takesId, beq_false_of_ne hs]
  exact List.append_nil _

theorem At.ne_update (h : x.At t) : (x.regs t).state ≠ .updateSector := by
  intro he
  have hin := h.runs.state
  rw [he] at hin
  revert hin
  decide

/-- A clock in which an ID is put in. -/
theorem At.held_input (h : x.At t) (hut : x.Under x.accept t) (hs : (x.regs t).state = .waitForFormatInput)
    (hend : (x.regs (t + 1)).state ≠ .idle) : x.Held (t + 1) := by
  have hund := x.undisturbed t hut
  have hr := hund.rstN
  have hstate : (x.regs (t + 1)).state = (x.regs t).runNext (x.inp t) .format := h.runs.stateNext_eq hr
  have hle : (x.regs t).formatDataCount.toNat ≤ 4 := h.count hs
  have hheld := h.held
  unfold Held at hheld
  rw [hs] at hheld
  obtain ⟨l, hdvd, hl⟩ := hheld
  have hfinish : (x.regs t).formatInputFinish = false := by
    by_contra hyes
    rw [Bool.not_eq_false] at hyes
    rw [hstate, Floppy.runNext, hs, hyes] at hend
    exact hend rfl
  unfold Floppy.runNext at hstate
  rw [hs, hfinish] at hstate
  by_cases hfour : (x.regs t).formatDataCount = 4
  · -- the ID is complete and goes to the registers of the location
    have hno : (x.regs t).takesId (x.inp t) = false := by
      rw [Floppy.takesId, hfour]
      exact Bool.and_false _
    have hc := h.runs.cylinder_step hund
    have hsec := h.runs.sector_step hund
    rw [h.drive, beq_false_of_ne h.ne_update, hs, hfour] at hc hsec
    have hc : (x.regs (t + 1)).cylinder x.drive = (x.regs t).formatData.extractLsb' 24 8 := hc
    have hsec : (x.regs (t + 1)).sector x.drive = (x.regs t).formatData.extractLsb' 8 8 := hsec
    rw [hfour] at hstate hl
    unfold Held
    rw [hstate]
    refine ⟨(x.regs t).formatData.extractLsb' 16 8, (x.regs t).formatData.extractLsb' 0 8, l, hdvd, ?_⟩
    rw [supplied_succ hut.1, hno, hl, hc, hsec]
    exact List.append_nil _
  · -- a byte of the ID that comes is the last of those held
    have hlt : (x.regs t).formatDataCount.toNat < 4 :=
      Nat.lt_of_le_of_ne hle fun he => hfour (BitVec.eq_of_toNat_eq he)
    have hlt' : (x.regs t).formatDataCount < 4 := hlt
    rw [beq_false_of_ne hfour] at hstate
    have hcount : (x.regs (t + 1)).formatDataCount =
        if (x.regs t).takesId (x.inp t) then (x.regs t).formatDataCount + 1 else (x.regs t).formatDataCount := by
      show (x.regs t).formatDataCountNext (x.inp t) = _
      unfold Floppy.formatDataCountNext Floppy.takesId
      rw [hr, hs]
      rfl
    have hdata : (x.regs (t + 1)).formatData = if (x.regs t).takesId (x.inp t) then
        (x.regs t).formatData.extractLsb' 0 24 ++ (x.regs t).idByte (x.inp t) else (x.regs t).formatData := by
      show (x.regs t).formatDataNext (x.inp t) = _
      unfold Floppy.formatDataNext Floppy.takesId Floppy.idByte
      rw [hr, hs, decide_eq_true hlt']
      cases (x.regs t).ndmaWrite (x.inp t) <;> cases (x.inp t).dmaAck <;> rfl
    unfold Held
    rw [hstate]
    refine ⟨l, hdvd, ?_⟩
    rw [supplied_succ hut.1, hl, hcount, hdata]
    cases (x.regs t).takesId (x.inp t) with
    | false => exact List.append_nil _
    | true =>
      have hsucc : ((x.regs t).formatDataCount + 1).toNat = (x.regs t).formatDataCount.toNat + 1 := by
        rw [BitVec.toNat_add]
        show (_ + 1) % 8 = _
        omega
      rw [if_pos rfl, if_pos rfl, if_pos rfl, hsucc, Floppy.lastBytes_shift hlt, List.append_assoc]

theorem LastId.dvd {c h s n : BitVec 8} (hid : x.LastId t c h s n) : 4 ∣ (x.supplied t).length := by
  obtain ⟨l, hdvd, hl⟩ := hid
  rw [hl, List.length_append]
  exact Nat.dvd_add hdvd (Nat.dvd_refl 4)

/-- A clock in which no ID is put in. -/
theorem At.held_other (h : x.At t) (hut : x.Under x.accept t) (hs : (x.regs t).state ≠ .waitForFormatInput)
    (hend : (x.regs (t + 1)).state ≠ .idle) : x.Held (t + 1) := by
  have hund := x.undisturbed t hut
  have hstate : (x.regs (t + 1)).state = (x.regs t).runNext (x.inp t) .format := h.runs.stateNext_eq hund.rstN
  have hkept := supplied_kept hut.1 hs
  have hplace := h.runs.samePlace hund h.ne_update fun he => absurd he hs
  rw [h.drive] at hplace
  have hplace : Floppy.SamePlace (x.regs t) (x.regs (t + 1)) x.drive := hplace
  have hheld := h.held
  have hid : (∃ h n, x.LastId t ((x.regs t).cylinder x.drive) h ((x.regs t).sector x.drive) n) →
      ∃ h n, x.LastId (t + 1) ((x.regs (t + 1)).cylinder x.drive) h ((x.regs (t + 1)).sector x.drive) n := by
    rintro ⟨h, n, l, hdvd, hl⟩
    exact ⟨h, n, l, hdvd, by rw [hkept, hl, hplace.cylinder, hplace.sector]⟩
  unfold Held at hheld ⊢
  rw [hstate] at hend ⊢
  unfold Floppy.runNext at hend ⊢
  cases hst : (x.regs t).state with
  | waitForFormatInput => exact absurd hst hs
  | idle => exact absurd hst h.runs.ne_idle
  | prepareCount =>
    rw [hst] at hheld
    exact hid hheld
  | countLogical =>
    rw [hst] at hheld
    dsimp only [DiskCommand.counted]
    split_ifs
    · exact hid hheld
    · exact hid hheld
  | prepare =>
    rw [hst] at hheld
    exact hid hheld
  | sdControl =>
    rw [hst] at hheld
    exact hid hheld
  | sdFormatWaitForFill =>
    rw [hst] at hheld
    dsimp only
    split_ifs
    · obtain ⟨h, n, hlast⟩ := hheld
      rw [hkept]
      exact hlast.dvd
    · exact hid hheld
  | wait =>
    rw [hst] at hheld
    dsimp only
    split_ifs
    · rw [hkept]
      exact hheld
    · rw [hkept]
      exact hheld
  | checkTc =>
    rw [hst] at hheld hend
    dsimp only at hend ⊢
    have hzero : (x.regs (t + 1)).formatDataCount = 0 := by
      show (x.regs t).formatDataCountNext (x.inp t) = 0
      unfold Floppy.formatDataCountNext
      rw [hund.rstN, hst]
      rfl
    split_ifs at hend ⊢
    · exact absurd rfl hend
    · refine ⟨x.supplied (t + 1), by rw [hkept]; exact hheld, ?_⟩
      rw [hzero]
      exact (List.append_nil _).symm
  | sdReadWaitForData | waitForEmptyReadFifo | updateSector | waitForFullWriteFifo | sdWriteWaitForEmptyFifo =>
    -- the states of the other commands do not occur
    have hin := h.runs.state
    rw [hst] at hin
    exact absurd hin (by decide)

theorem At.step (h : x.At t) (hu : x.Under x.accept (t + 1)) (hut : x.Under x.accept t) : x.At (t + 1) := by
  have hund := x.undisturbed t hut
  have hend : (x.regs (t + 1)).state ≠ .idle := hu.2 (t + 1) (Nat.lt_succ_of_lt hut.1) le_rfl
  have hdisk : Floppy.SameDisk (x.regs t) (x.regs (t + 1)) x.drive := Floppy.sameDisk (h.drive ▸ hund.disk)
  have hdrive : (x.regs (t + 1)).selectedDriveR = x.drive := (h.runs.selectedDriveR_step hund).trans h.drive
  have hlocated : (x.regs (t + 1)).Located x.drive := by
    have hstep := Floppy.Located.step h.runs hund (h.drive.symm ▸ h.located)
    rwa [h.drive] at hstep
  have hhead : (x.regs (t + 1)).head x.drive = x.head := by
    have hstep := h.runs.head_step hund
    rw [h.drive, beq_false_of_ne h.ne_update] at hstep
    exact Eq.trans hstep h.head
  refine ⟨h.runs.step hund hend, hdrive, h.mounted.congr hdisk, hlocated, hhead, fun _ => ?_, ?_⟩
  · show (x.regs t).formatDataCountNext (x.inp t) ≤ 4
    unfold Floppy.formatDataCountNext
    by_cases hs : (x.regs t).state = .waitForFormatInput
    · have hle := h.count hs
      simp only [hund.rstN, hs, Bool.not_true, Bool.false_eq_true, if_false, bne_self_eq_false]
      split_ifs with htake
      · simp only [Bool.and_eq_true, decide_eq_true_eq] at htake
        have hlt := htake.2
        bv_omega
      · exact hle
    · rw [hund.rstN, bne_iff_ne.2 hs]
      exact Nat.zero_le 4
  · by_cases hs : (x.regs t).state = .waitForFormatInput
    · exact h.held_input hut hs hend
    · exact h.held_other hut hs hend

theorem at_of_under (hu : x.Under x.accept t) : x.At t := by
  obtain ⟨n, rfl⟩ := Nat.exists_eq_add_of_le (Nat.succ_le_of_lt hu.1)
  induction n with
  | zero => exact x.at_first
  | succ n ih =>
    have hbefore : x.Under x.accept (x.accept + 1 + n) := ⟨by omega, fun w h1 h2 => hu.2 w h1 (by omega)⟩
    exact (ih hbefore).step hu hbefore

/-- While a sector is overwritten, the registers hold its ID and its sector. -/
theorem overwrites_state (ht : x.Overwrites t) : (x.regs t).state = .sdFormatWaitForFill := by
  have hin := (at_of_under ht.1).runs.state
  have hreq := ht.2
  unfold Floppy.request at hreq
  cases hs : (x.regs t).state <;> rw [hs] at hreq hin
  all_goals first | rfl | exact absurd rfl hreq | exact absurd hin (by decide)

theorem LastId.inj {c h s n c' h' s' n' : BitVec 8} (hid : x.LastId t c h s n) (hid' : x.LastId t c' h' s' n') :
    c = c' ∧ s = s' := by
  obtain ⟨l, -, hl⟩ := hid
  obtain ⟨l', -, hl'⟩ := hid'
  have heq := (List.append_inj' (hl.symm.trans hl') rfl).2
  simp only [List.cons.injEq] at heq
  exact ⟨heq.1, heq.2.2.1⟩

/-- Every sector overwritten is the one of its ID, under the head of the command. -/
theorem formats (x : FormatTrack) : x.FormatsSupplied := by
  intro t ht
  have hat := at_of_under ht.1
  have hstate := overwrites_state ht
  have hlocated := hat.located
  have hheld := hat.held
  unfold Floppy.Located at hlocated
  unfold Held at hheld
  rw [hstate] at hlocated hheld
  have hlocated : (x.regs t).sdSector = (x.regs t).clamped x.drive ((x.regs t).location x.drive) := hlocated
  obtain ⟨h', n', hid'⟩ := hheld
  have hasked : (x.regs t).asked.toNat = (x.regs t).sdSector.toNat % 32768 := by
    rw [Floppy.asked, BitVec.extractLsb'_toNat, Nat.shiftRight_zero]
  refine ⟨?_, ⟨_, _, _, _, hid'⟩, fun c h s n hid hc hh hs1 hs2 => ?_⟩
  · have hlt := hat.mounted.clamped_lt ((x.regs t).location x.drive)
    rw [hasked, hlocated]
    omega
  · obtain ⟨hcylinder, hsector⟩ := hid.inj hid'
    subst hcylinder hsector
    have htrack : (x.regs t).track x.drive =
        ((x.regs t).cylinder x.drive).toNat * ((x.regs t).mediaHeads x.drive).toNat + x.head.toNat := by
      rw [Floppy.track, hat.head]
    have hon : (x.regs t).track x.drive < (x.regs t).tracks x.drive := by
      have hle := Nat.mul_le_mul_right ((x.regs t).mediaHeads x.drive).toNat (Nat.succ_le_of_lt hc)
      rw [Nat.succ_mul] at hle
      rw [htrack, Floppy.tracks]
      omega
    have heq := (hat.mounted.clamped_location hon (by omega) hs2).1
    rw [← hlocated, Floppy.lba, htrack] at heq
    rw [hasked]
    omega

/-! ## An ID of another cylinder -/

/-- The bytes that start the motor and give the command to format the track of cylinder 0 and head 0. -/
def strayBytes : List (BitVec 3 × BitVec 8) :=
  [(2, 0x1C), (5, 0x4D), (5, 0), (5, 2), (5, 18), (5, 0x1B), (5, 0xF6)]

/-- The first ID is the one of sector 1 of cylinder 1. -/
def strayIn (t : Nat) : FloppyIn :=
  let byte := (strayBytes[t - 1]?).getD (0, 0)
  let mgmt := ([(0, 1), (2, 80), (3, 18), (4, 2880), (5, 2)][t - 1]?).getD ((0, 0) : BitVec 4 × BitVec 16)
  { rstN := t != 0
    dmaAck := decide (8 ≤ t ∧ t ≤ 11), dmaTc := false, dmaReaddata := ([1, 0, 1, 2][t - 8]?).getD 0
    ioAddress := byte.1, ioRead := false, ioWrite := decide (1 ≤ t ∧ t ≤ 7), ioWritedata := byte.2
    mgmtAddress := mgmt.1, mgmtFddn := false, mgmtWrite := decide (1 ≤ t ∧ t ≤ 5), mgmtWritedata := mgmt.2
    mgmtRead := false, wp := fun _ => false, clockRate := 50000000 }

theorem strayIn_undisturbed {s : Floppy} (ht : 7 < t) : s.Undisturbed (strayIn t) := by
  have hio : (strayIn t).ioWrite = false := decide_eq_false (by omega)
  have hmgmt : (strayIn t).mgmtWrite = false := decide_eq_false (by omega)
  have hwrites : ∀ a, (strayIn t).writes a = false := fun a => by rw [FloppyIn.writes, hio, Bool.false_and]
  refine ⟨?_, ?_, fun hw => ?_, fun hw => ?_⟩
  · show (t != 0) = true
    simp
    omega
  · rw [Floppy.swReset, hwrites, hwrites]
    rfl
  · rw [hwrites] at hw
    cases hw
  · rw [hmgmt] at hw
    cases hw

def stray : FormatTrack where
  powerUp := default
  inp := strayIn
  reset := rfl
  accept := 7
  begun := rfl
  accepted := by decide
  mounted := ⟨by decide, by decide, by decide, by decide⟩
  keepsDisk := nofun
  undisturbed t ht := strayIn_undisturbed ht.1

/-- The first sector of cylinder 1 is overwritten. -/
theorem stray_not_keepsTrack : ¬ stray.KeepsTrack := by
  intro h
  have hbusy : ∀ n, n < 11 → (stray.regs (8 + n)).state ≠ .idle := by decide
  have hunder : stray.Under 7 18 := by
    refine ⟨by omega, fun u h1 h2 => ?_⟩
    obtain ⟨n, rfl⟩ := Nat.exists_eq_add_of_le (Nat.succ_le_of_lt h1)
    exact hbusy n (by omega)
  have hlast : stray.LastId 18 1 0 1 2 := ⟨[], Nat.dvd_zero 4, by decide⟩
  have hsector := (h 18 1 0 1 2 ⟨hunder, by decide +kernel⟩ hlast).2.2
  revert hsector
  decide +kernel

end FormatTrack

end Z486.Disk
