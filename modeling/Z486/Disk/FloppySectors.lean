/-
The sectors that a read or write command of the floppy controller asks the host for. They are those of the location as
long as the location is on the disk: the checks of a command let sector 0 of the first track through, and at the end of
the last track the controller goes on to a track behind it.
-/
import Z486.Disk.FloppyLocation
import Z486.Disk.FloppyTerminal

namespace Z486.Disk

namespace Floppy

variable {s : Floppy} {i : FloppyIn} {d : Bool} {k : DiskCommand}

/-! ## An accepted command -/

/-- What the checks of an accepted read or write command have found. -/
structure Checked (s : Floppy) (i : FloppyIn) : Prop where
  idle : s.state = .idle
  writes : i.writes 5 = true
  start : s.cmdReadWriteStart i = true
  cylinder : s.command.extractLsb' 40 8 < s.mediaCylinders (s.selectedDrive i)
  head : s.command.getLsbD 32 = true → s.mediaHeads (s.selectedDrive i) ≠ 1
  sector : s.command.extractLsb' 24 8 ≤ s.mediaSectorsPerTrack (s.selectedDrive i)

theorem checked (hok : s.cmdReadWriteOkAtStart i = true) : Checked s i := by
  unfold cmdReadWriteOkAtStart at hok
  simp only [Bool.and_eq_true, Bool.not_eq_true'] at hok
  obtain ⟨⟨⟨⟨hstart, hhang⟩, hhead⟩, hsector⟩, -⟩ := hok
  obtain ⟨-, hnext, -⟩ := lastByte_of_start hstart
  unfold cmdReadWriteIncorrectSectorAtStart at hsector
  rw [hhang] at hsector
  unfold cmdReadWriteHangAtStart at hhang
  unfold cmdReadWriteIncorrectHeadAtStart at hhead
  simp only [Bool.or_eq_false_iff, Bool.not_eq_false', decide_eq_false_iff_not] at hhang
  simp only [Bool.not_false, Bool.true_and, Bool.or_eq_false_iff, decide_eq_false_iff_not, BitVec.not_lt] at hsector
  refine ⟨(commandNext_left hnext).1, writes_of_next hnext, hstart, BitVec.not_le.1 hhang.2, fun hbit hone => ?_, hsector.1⟩
  simp [-BitVec.getLsbD_eq_getElem, hhang.1.1.1, hbit, hone] at hhead

/-- The command that an accepted one is. -/
def readOrWrite (s : Floppy) (i : FloppyIn) : DiskCommand := if s.cmdWriteNormalStart i then .write else .read

/-- An accepted command is under way in the next clock, at the location of its parameters. -/
structure Started (k : DiskCommand) (s : Floppy) (d : Bool) (s' : Floppy) : Prop where
  runs : s'.Runs k
  state : s'.state = .prepareCount
  drive : s'.selectedDriveR = d
  cylinder : s'.cylinder d = s.command.extractLsb' 40 8
  head : s'.head d = s.command.getLsbD 32
  sector : s'.sector d = s.command.extractLsb' 24 8

theorem started (hr : i.rstN = true) (hok : s.cmdReadWriteOkAtStart i = true) :
    Started (s.readOrWrite i) s (s.selectedDrive i) (s.step i) := by
  have hchecked := checked hok
  have hsw : s.swReset i = false := swReset_of_write hchecked.writes
  have hstate : (s.step i).state = .prepareCount := by
    show s.stateNext i = _
    unfold stateNext
    rw [hr, hchecked.idle, hok]
    rfl
  -- the command is the one on the last byte
  have hcode : s.command.extractLsb' 56 5 = (s.readOrWrite i).code := by
    rw [code_of_start hchecked.start, readOrWrite]
    cases s.cmdWriteNormalStart i <;> rfl
  -- and is neither refused nor a format
  have hplain : (s.cmdReadWriteStart i &&
      (s.cmdReadWriteIncorrectSectorAtStart i || s.cmdWriteAndWriteprotectedAtStart i)) = false := by
    unfold cmdReadWriteOkAtStart at hok
    simp only [Bool.and_eq_true, Bool.not_eq_true'] at hok
    rw [hok.1.2, hok.2, Bool.or_self, Bool.and_false]
  have hformat : s.cmdFormatTrackStart i = false := by
    unfold cmdFormatTrackStart lastByte
    rw [(lastByte_of_start hchecked.start).1]
    rfl
  refine ⟨⟨?_, ?_⟩, hstate, rfl, ?_, ?_, ?_⟩
  · show (s.pendingCommandNext i).extractLsb' 0 5 = _
    unfold pendingCommandNext
    rw [hr, hsw, hok, ← hcode]
    exact code_of_first _ 56
  · rw [hstate]
    unfold readOrWrite
    cases s.cmdWriteNormalStart i <;> decide
  · show s.cylinderNext i (s.selectedDrive i) = _
    unfold cylinderNext
    simp only [hr, hsw, hplain, hok, Bool.not_true, Bool.or_self, Bool.false_eq_true, if_false, if_true]
    exact if_pos rfl
  · show s.headNext i (s.selectedDrive i) = _
    unfold headNext
    simp only [hr, hsw, hplain, hformat, hok, Bool.not_true, Bool.or_self, Bool.false_and, Bool.false_eq_true, if_false,
      if_true]
    exact if_pos rfl
  · show s.sectorNext i (s.selectedDrive i) = _
    unfold sectorNext
    simp only [hr, hsw, hplain, hok, Bool.not_true, Bool.or_self, Bool.false_eq_true, if_false, if_true]
    exact if_pos rfl

/-- For a location on the disk the host is asked for its sector. -/
theorem Mounted.asked_eq (hm : s.Mounted d) (hon : s.OnDisk d)
    (hs : (s.sector d).toNat ≤ (s.mediaSectorsPerTrack d).toNat) (hsd : s.sdSector = s.clamped d (s.location d)) :
    (s.asked.toNat : Int) = s.lba d ∧ s.asked.toNat < (s.mediaSectorCount d).toNat := by
  obtain ⟨heq, hlt⟩ := hm.clamped_location hon.track hon.sector hs
  have hnamed := hon.named
  unfold lba at heq
  unfold asked lba
  rw [BitVec.extractLsb'_toNat, Nat.shiftRight_zero, hsd]
  omega

/-- A location whose sector the host is asked for is on the disk. -/
theorem Mounted.onDisk (hm : s.Mounted d) (hs : (s.sector d).toNat = 0 → s.track d < s.tracks d)
    (heq : (s.asked.toNat : Int) = s.lba d) (hlt : s.asked.toNat < (s.mediaSectorCount d).toNat) : s.OnDisk d := by
  have hasked : s.asked.toNat < 32768 := s.asked.isLt
  have hcount := hm.sectorCount
  unfold lba at heq
  refine ⟨?_, fun hzero => ?_, by omega⟩
  · by_contra hge
    have hle := Nat.mul_le_mul_right (s.mediaSectorsPerTrack d).toNat (Nat.le_of_not_lt hge)
    exact hge (hs (by omega))
  · by_contra hfirst
    rw [Nat.eq_zero_of_not_pos hfirst, hzero] at heq
    omega

end Floppy

/-! ## Transfers -/

/-- A read or write command that is accepted in clock `accept`, for a disk that stays in its drive. -/
structure SectorTransfer extends FloppyRun where
  accept : Nat
  begun : (inp accept).rstN = true
  accepted : (toFloppyRun.regs accept).cmdReadWriteOkAtStart (inp accept) = true
  mounted : (toFloppyRun.regs accept).Mounted ((toFloppyRun.regs accept).selectedDrive (inp accept))
  keepsDisk : (inp accept).KeepsDisk ((toFloppyRun.regs accept).selectedDrive (inp accept))
  undisturbed : ∀ t, toFloppyRun.Under accept t → (toFloppyRun.regs t).Undisturbed (inp t)

namespace SectorTransfer

variable (x : SectorTransfer)

def drive : Bool := (x.regs x.accept).selectedDrive (x.inp x.accept)

def command : DiskCommand := (x.regs x.accept).readOrWrite (x.inp x.accept)

/-- The command asks the host for a sector. -/
def Asks (t : Nat) : Prop := x.Under x.accept t ∧ (x.regs t).request ≠ 0

/-- A sector ends in clock `u`, and no other between the clocks `t` and `v`. -/
structure OneSector (t u v : Nat) : Prop where
  after : t < u
  before : u < v
  update : (x.regs u).state = .updateSector
  alone : ∀ w, t < w → w < v → (x.regs w).state = .updateSector → w = u

/-- Every sector that the host is asked for is the one of the location and one of the disk, and within a track the next
sector is the following one. -/
structure Addresses : Prop where
  sector : ∀ t, x.Asks t → ((x.regs t).asked.toNat : Int) = (x.regs t).lba x.drive ∧
    (x.regs t).asked.toNat < ((x.regs t).mediaSectorCount x.drive).toNat
  next : ∀ t u v, x.Asks t → x.Asks v → x.OneSector t u v → (x.regs u).incrementOnlySector (x.inp u) = true →
    (x.regs v).asked.toNat = (x.regs t).asked.toNat + 1

variable {x} {t u v : Nat}

/-- A clock of the command. -/
structure At (x : SectorTransfer) (t : Nat) : Prop where
  runs : (x.regs t).Runs x.command
  drive : (x.regs t).selectedDriveR = x.drive
  mounted : (x.regs t).Mounted x.drive
  located : (x.regs t).Located x.drive
  sector_le : ((x.regs t).sector x.drive).toNat ≤ ((x.regs t).mediaSectorsPerTrack x.drive).toNat
  first : ((x.regs t).sector x.drive).toNat = 0 → (x.regs t).track x.drive < (x.regs t).tracks x.drive

theorem command_ne_format (x : SectorTransfer) : x.command ≠ .format := by
  unfold command Floppy.readOrWrite
  cases (x.regs x.accept).cmdWriteNormalStart (x.inp x.accept) <;> nofun

theorem At.ne_formatInput (h : x.At t) : (x.regs t).state ≠ .waitForFormatInput := by
  intro he
  have hin := h.runs.state
  have hno := x.command_ne_format
  rw [he] at hin
  cases hk : x.command with
  | format => exact hno hk
  | read =>
    rw [hk] at hin
    revert hin
    decide
  | write =>
    rw [hk] at hin
    revert hin
    decide

theorem at_first (x : SectorTransfer) : x.At (x.accept + 1) := by
  have hchecked := Floppy.checked x.accepted
  have hstarted := Floppy.started x.begun x.accepted
  have hdisk := Floppy.sameDisk (s := x.regs x.accept) x.keepsDisk
  have hcylinders : (x.regs (x.accept + 1)).mediaCylinders x.drive = (x.regs x.accept).mediaCylinders x.drive :=
    hdisk.cylinders
  have hheads : (x.regs (x.accept + 1)).mediaHeads x.drive = (x.regs x.accept).mediaHeads x.drive := hdisk.heads
  have hspt : (x.regs (x.accept + 1)).mediaSectorsPerTrack x.drive = (x.regs x.accept).mediaSectorsPerTrack x.drive :=
    hdisk.sectorsPerTrack
  have hc : (x.regs (x.accept + 1)).cylinder x.drive = (x.regs x.accept).command.extractLsb' 40 8 := hstarted.cylinder
  have hh : (x.regs (x.accept + 1)).head x.drive = (x.regs x.accept).command.getLsbD 32 := hstarted.head
  have hs : (x.regs (x.accept + 1)).sector x.drive = (x.regs x.accept).command.extractLsb' 24 8 := hstarted.sector
  refine ⟨hstarted.runs, hstarted.drive, x.mounted.congr hdisk, ?_, ?_, fun _ => ?_⟩
  · have hstate : (x.regs (x.accept + 1)).state = .prepareCount := hstarted.state
    unfold Floppy.Located
    rw [hstate]
    trivial
  · rw [hs, hspt]
    exact hchecked.sector
  · -- a track that the checks let through is one of the disk
    unfold Floppy.track Floppy.tracks
    rw [hc, hh, hcylinders, hheads]
    have hlt : ((x.regs x.accept).command.extractLsb' 40 8).toNat <
      ((x.regs x.accept).mediaCylinders x.drive).toNat := hchecked.cylinder
    have hhead := hchecked.head
    rcases x.mounted.heads with hone | htwo
    · have hbit : (x.regs x.accept).command.getLsbD 32 = false := by
        by_contra hbit
        exact hhead (by simpa using hbit) hone
      have hone' : (x.regs x.accept).mediaHeads x.drive = 1 := hone
      rw [hbit, hone']
      show _ * 1 + 0 < _ * 1
      omega
    · have htwo' : (x.regs x.accept).mediaHeads x.drive = 2 := htwo
      have hbit := Bool.toNat_lt ((x.regs x.accept).command.getLsbD 32)
      rw [htwo']
      show _ * 2 + _ < _ * 2
      omega

theorem sector_succ (hlt : (x.regs t).sector x.drive < (x.regs t).mediaSectorsPerTrack x.drive) :
    ((x.regs t).sector x.drive + 1).toNat = ((x.regs t).sector x.drive).toNat + 1 := by
  have hlt : ((x.regs t).sector x.drive).toNat < ((x.regs t).mediaSectorsPerTrack x.drive).toNat := hlt
  have hspt := ((x.regs t).mediaSectorsPerTrack x.drive).isLt
  rw [BitVec.toNat_add]
  show (_ + 1) % 256 = _
  omega

theorem incrementOnlySector_eq (h : x.At t) (hu : x.Under x.accept t) :
    (x.regs t).incrementOnlySector (x.inp t) = (decide ((x.regs t).sector x.drive < (x.regs t).eot x.drive) &&
      decide ((x.regs t).sector x.drive < (x.regs t).mediaSectorsPerTrack x.drive)) := by
  unfold Floppy.incrementOnlySector
  rw [h.runs.selectedDrive_eq (x.undisturbed t hu), h.drive]

theorem At.step (h : x.At t) (hu : x.Under x.accept (t + 1)) (hut : x.Under x.accept t) : x.At (t + 1) := by
  have hund := x.undisturbed t hut
  have hend : (x.regs (t + 1)).state ≠ .idle := hu.2 (t + 1) (Nat.lt_succ_of_lt hut.1) le_rfl
  have hdisk : Floppy.SameDisk (x.regs t) (x.regs (t + 1)) x.drive := Floppy.sameDisk (h.drive ▸ hund.disk)
  have hdrive : (x.regs (t + 1)).selectedDriveR = x.drive := (h.runs.selectedDriveR_step hund).trans h.drive
  have hlocated : (x.regs (t + 1)).Located x.drive := by
    have hstep := Floppy.Located.step h.runs hund (h.drive.symm ▸ h.located)
    rwa [h.drive] at hstep
  -- the sector counts up behind a sector and starts again with a track
  have hsector := h.runs.sector_step hund
  rw [h.drive, beq_false_of_ne h.ne_formatInput, Bool.false_and, ← FloppyRun.regs_succ] at hsector
  simp only [Bool.false_eq_true, if_false] at hsector
  refine ⟨h.runs.step hund hend, hdrive, h.mounted.congr hdisk, hlocated, ?_, ?_⟩
  · rw [hdisk.sectorsPerTrack]
    rw [hsector]
    split_ifs with hupdate hinc
    · rw [incrementOnlySector_eq h hut] at hinc
      simp only [Bool.and_eq_true, decide_eq_true_eq] at hinc
      rw [sector_succ hinc.2]
      exact hinc.2
    · exact h.mounted.sectorsPerTrack
    · exact h.sector_le
  · intro hzero
    by_cases hupdate : (x.regs t).state = .updateSector
    · -- behind a sector comes a sector with a number
      exfalso
      rw [hsector, if_pos (by simp [hupdate])] at hzero
      split_ifs at hzero with hinc
      · rw [incrementOnlySector_eq h hut] at hinc
        simp only [Bool.and_eq_true, decide_eq_true_eq] at hinc
        rw [sector_succ hinc.2] at hzero
        cases hzero
      · cases hzero
    · have hplace := h.runs.samePlace hund hupdate fun he => absurd he h.ne_formatInput
      rw [h.drive] at hplace
      have hplace : Floppy.SamePlace (x.regs t) (x.regs (t + 1)) x.drive := hplace
      rw [hplace.sector] at hzero
      unfold Floppy.track Floppy.tracks
      rw [hplace.cylinder, hplace.head, hdisk.cylinders, hdisk.heads]
      exact h.first hzero

theorem at_of_under (hu : x.Under x.accept t) : x.At t := by
  obtain ⟨n, rfl⟩ := Nat.exists_eq_add_of_le (Nat.succ_le_of_lt hu.1)
  induction n with
  | zero => exact x.at_first
  | succ n ih =>
    have hbefore : x.Under x.accept (x.accept + 1 + n) := ⟨by omega, fun w h1 h2 => hu.2 w h1 (by omega)⟩
    exact (ih hbefore).step hu hbefore

theorem Under.of_le (hu : x.Under x.accept t) (ha : x.accept < v) (hv : v ≤ t) : x.Under x.accept v :=
  ⟨ha, fun w h1 h2 => hu.2 w h1 (by omega)⟩

/-- Between the ends of sectors the location and its sector stay. -/
theorem lba_eq (hu : x.Under x.accept v) (ha : x.accept < t) (htv : t ≤ v)
    (hno : ∀ w, t ≤ w → w < v → (x.regs w).state ≠ .updateSector) :
    (x.regs v).lba x.drive = (x.regs t).lba x.drive := by
  induction v, htv using Nat.le_induction with
  | base => rfl
  | succ v htv ih =>
    have hbefore := Under.of_le hu (show x.accept < v by omega) (Nat.le_succ v)
    have h := at_of_under hbefore
    have hund := x.undisturbed v hbefore
    have hplace := h.runs.samePlace hund (hno v htv (Nat.lt_succ_self v)) fun he => absurd he h.ne_formatInput
    have hdisk : Floppy.SameDisk (x.regs v) (x.regs (v + 1)) x.drive := Floppy.sameDisk (h.drive ▸ hund.disk)
    rw [h.drive] at hplace
    have hplace : Floppy.SamePlace (x.regs v) (x.regs (v + 1)) x.drive := hplace
    rw [← ih hbefore fun w h1 h2 => hno w h1 (by omega)]
    unfold Floppy.lba Floppy.track
    rw [hplace.cylinder, hplace.head, hplace.sector, hdisk.heads, hdisk.sectorsPerTrack]

/-- Within a track the next location is that of the following sector. -/
theorem lba_succ (hu : x.Under x.accept (u + 1)) (ha : x.accept < u) (hs : (x.regs u).state = .updateSector)
    (hinc : (x.regs u).incrementOnlySector (x.inp u) = true) :
    (x.regs (u + 1)).lba x.drive = (x.regs u).lba x.drive + 1 := by
  have hut := Under.of_le hu ha (Nat.le_succ u)
  have h := at_of_under hut
  have hund := x.undisturbed u hut
  have hcylinder := h.runs.cylinder_step hund
  have hhead := h.runs.head_step hund
  have hsector := h.runs.sector_step hund
  have hdisk : Floppy.SameDisk (x.regs u) (x.regs (u + 1)) x.drive := Floppy.sameDisk (h.drive ▸ hund.disk)
  have hlt := hinc
  rw [incrementOnlySector_eq h hut] at hlt
  simp only [Bool.and_eq_true, decide_eq_true_eq] at hlt
  rw [h.drive] at hcylinder hhead hsector
  rw [Floppy.incrementCylinder, hinc, hs] at hcylinder
  rw [hinc, hs] at hhead hsector
  have hc : (x.regs (u + 1)).cylinder x.drive = (x.regs u).cylinder x.drive := hcylinder
  have hh : (x.regs (u + 1)).head x.drive = (x.regs u).head x.drive := hhead
  have hsec : (x.regs (u + 1)).sector x.drive = (x.regs u).sector x.drive + 1 := hsector
  unfold Floppy.lba Floppy.track
  rw [hc, hh, hsec, hdisk.heads, hdisk.sectorsPerTrack, sector_succ hlt.2]
  push_cast
  omega

/-- While the host is asked, the sector asked for is computed from the location. -/
theorem sdSector_eq (ht : x.Asks t) :
    (x.regs t).sdSector = (x.regs t).clamped x.drive ((x.regs t).location x.drive) := by
  have hlocated := (at_of_under ht.1).located
  have hask := ht.2
  unfold Floppy.request at hask
  unfold Floppy.Located at hlocated
  cases hs : (x.regs t).state <;> rw [hs] at hask hlocated
  all_goals first | exact hlocated | exact absurd rfl hask

/-- A command asks for the sectors of its locations exactly when they are on the disk. -/
theorem addresses_iff (x : SectorTransfer) : x.Addresses ↔ ∀ t, x.Asks t → (x.regs t).OnDisk x.drive := by
  constructor
  · intro h t ht
    obtain ⟨heq, hlt⟩ := h.sector t ht
    have hat := at_of_under ht.1
    exact hat.mounted.onDisk hat.first heq hlt
  · intro hon
    have hsector : ∀ t, x.Asks t → ((x.regs t).asked.toNat : Int) = (x.regs t).lba x.drive ∧
        (x.regs t).asked.toNat < ((x.regs t).mediaSectorCount x.drive).toNat := fun t ht =>
      have hat := at_of_under ht.1
      hat.mounted.asked_eq (hon t ht) hat.sector_le (sdSector_eq ht)
    refine ⟨hsector, fun t u v ht hv hone hinc => ?_⟩
    have hfirst := (hsector t ht).1
    have hlast := (hsector v hv).1
    have ha := ht.1.1
    have hafter := hone.after
    have hbefore := hone.before
    have hsame : (x.regs u).lba x.drive = (x.regs t).lba x.drive := by
      refine lba_eq (Under.of_le hv.1 (by omega) hbefore.le) ha hafter.le fun w h1 h2 he => ?_
      rcases Nat.eq_or_lt_of_le h1 with rfl | hlt
      · exact ht.2 (by rw [Floppy.request, he]; rfl)
      · have heq := hone.alone w hlt (by omega) he
        omega
    have hnext := lba_succ (Under.of_le hv.1 (by omega) hbefore) (by omega) hone.update hinc
    have hsame' : (x.regs v).lba x.drive = (x.regs (u + 1)).lba x.drive := by
      refine lba_eq hv.1 (by omega) hbefore fun w h1 h2 he => ?_
      have heq := hone.alone w (by omega) h2 he
      omega
    omega

/-! ## Sector 0 of the first track -/

/-- The bytes that start the motor and give the command to read from sector 0 of the first track on. -/
def sectorZeroBytes : List (BitVec 3 × BitVec 8) :=
  [(2, 0x1C), (5, 0x46), (5, 0), (5, 0), (5, 0), (5, 0), (5, 2), (5, 18), (5, 0x1B), (5, 0xFF)]

/-- The bytes for a disk of 80 cylinders with 2 heads and 18 sectors. -/
def sectorZeroIn (t : Nat) : FloppyIn :=
  let byte := (sectorZeroBytes[t - 1]?).getD (0, 0)
  let mgmt := ([(0, 1), (2, 80), (3, 18), (4, 2880), (5, 2)][t - 1]?).getD ((0, 0) : BitVec 4 × BitVec 16)
  { rstN := t != 0
    dmaAck := false, dmaTc := false, dmaReaddata := 0
    ioAddress := byte.1, ioRead := false, ioWrite := decide (1 ≤ t ∧ t ≤ 10), ioWritedata := byte.2
    mgmtAddress := mgmt.1, mgmtFddn := false, mgmtWrite := decide (1 ≤ t ∧ t ≤ 5), mgmtWritedata := mgmt.2
    mgmtRead := false, wp := fun _ => false, clockRate := 50000000 }

theorem sectorZeroIn_undisturbed {s : Floppy} (ht : 10 < t) : s.Undisturbed (sectorZeroIn t) := by
  have hio : (sectorZeroIn t).ioWrite = false := decide_eq_false (by omega)
  have hmgmt : (sectorZeroIn t).mgmtWrite = false := decide_eq_false (by omega)
  have hwrites : ∀ a, (sectorZeroIn t).writes a = false := fun a => by rw [FloppyIn.writes, hio, Bool.false_and]
  refine ⟨?_, ?_, fun hw => ?_, fun hw => ?_⟩
  · show (t != 0) = true
    simp
    omega
  · rw [Floppy.swReset, hwrites, hwrites]
    rfl
  · rw [hwrites] at hw
    cases hw
  · rw [hmgmt] at hw
    cases hw

def sectorZero : SectorTransfer where
  powerUp := default
  inp := sectorZeroIn
  reset := rfl
  accept := 10
  begun := rfl
  accepted := by decide
  mounted := ⟨by decide, by decide, by decide, by decide⟩
  keepsDisk := nofun
  undisturbed t ht := sectorZeroIn_undisturbed ht.1

/-- It asks for the last sector of the image. -/
theorem sectorZero_not_addresses : ¬ sectorZero.Addresses := by
  intro h
  have hbusy : ∀ n, n < 5 → (sectorZero.regs (11 + n)).state ≠ .idle := by decide
  have hunder : sectorZero.Under 10 15 := by
    refine ⟨by omega, fun u h1 h2 => ?_⟩
    obtain ⟨n, rfl⟩ := Nat.exists_eq_add_of_le (Nat.succ_le_of_lt h1)
    exact hbusy n (by omega)
  have hsector := (h.sector 15 ⟨hunder, by decide⟩).1
  revert hsector
  decide

end SectorTransfer

end Z486.Disk
