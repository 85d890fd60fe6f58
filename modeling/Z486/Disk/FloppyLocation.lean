/-
Where on the disk the floppy controller goes: the registers of the location, and the sector that the controller computes
from them and asks the host for. A multiplication by shifting and adding takes a clock for each bit of the cylinder.
-/
import Mathlib.Data.BitVec
import Z486.Clocked.Multiply
import Z486.Disk.FloppyReset

namespace Z486.Disk

open Clocked

/-! ## Commands under way -/

/-- The commands that go to the disk. -/
inductive DiskCommand
  | read
  | write
  | format
  deriving DecidableEq, Repr

namespace DiskCommand

def code : DiskCommand → BitVec 5
  | .read => 0x06
  | .write => 0x05
  | .format => 0x0D

/-- The states of the command. -/
def states : DiskCommand → List FloppyState
  | .read => [.prepareCount, .countLogical, .prepare, .sdControl, .sdReadWaitForData, .waitForEmptyReadFifo,
      .updateSector, .wait, .checkTc]
  | .write => [.prepareCount, .countLogical, .waitForFullWriteFifo, .prepare, .sdControl, .sdWriteWaitForEmptyFifo,
      .updateSector, .wait, .checkTc]
  | .format => [.waitForFormatInput, .prepareCount, .countLogical, .prepare, .sdControl, .sdFormatWaitForFill, .wait,
      .checkTc]

/-- The state behind the computation of the sector, and the state in which the host is asked. -/
def counted : DiskCommand → FloppyState
  | .read => .prepare
  | .write => .waitForFullWriteFifo
  | .format => .prepare

def asks : DiskCommand → FloppyState
  | .read => .sdReadWaitForData
  | .write => .sdWriteWaitForEmptyFifo
  | .format => .sdFormatWaitForFill

/-- The state in which the command goes on with the next sector. -/
def again : DiskCommand → FloppyState
  | .read => .prepareCount
  | .write => .prepareCount
  | .format => .waitForFormatInput

end DiskCommand

/-- The host does not write the geometry of the disk in a drive. -/
def FloppyIn.KeepsDisk (i : FloppyIn) (d : Bool) : Prop :=
  i.mgmtWrite = true → i.mgmtFddn = d →
    i.mgmtAddress ≠ 2 ∧ i.mgmtAddress ≠ 3 ∧ i.mgmtAddress ≠ 4 ∧ i.mgmtAddress ≠ 5

namespace Floppy

variable (s : Floppy) (i : FloppyIn) (d : Bool)

/-- The command is under way. -/
structure Runs (k : DiskCommand) : Prop where
  code : s.pendingCommand.extractLsb' 0 5 = k.code
  state : s.state ∈ k.states

/-- The guest neither resets the controller nor selects the other drive, and the host does not change the disk. -/
structure Undisturbed : Prop where
  rstN : i.rstN = true
  noReset : s.swReset i = false
  drive : i.writes 2 = true → i.ioWritedata.getLsbD 0 = s.selectedDriveR
  disk : i.KeepsDisk s.selectedDriveR

/-! ## The sector computed -/

/-- `mult_a` at the start: the sectors of a cylinder. -/
def cylinderSectors : BitVec 16 :=
  if s.mediaHeads d == 2 then 0#7 ++ s.mediaSectorsPerTrack d ++ 0#1 else 0#8 ++ s.mediaSectorsPerTrack d

/-- `logical_sector` at the start: the sector within the cylinder. -/
def sectorInCylinder : BitVec 16 :=
  (if s.head d then 0#8 ++ s.mediaSectorsPerTrack d else 0) + (0#8 ++ s.sector d) - 1

/-- The registers of the multiplication. -/
def multiplier : Multiplier (BitVec 16) := ⟨s.logicalSector, s.multA, s.multB.toNat⟩

/-- What the multiplication comes to for the location of the drive. -/
def location : BitVec 16 := (Multiplier.mk (s.sectorInCylinder d) (s.cylinderSectors d) (s.cylinder d).toNat).total

/-- The sector of the host's image, which is at most the last one. -/
def clamped (x : BitVec 16) : BitVec 16 := if s.mediaSectorCount d ≤ x then s.mediaSectorCount d - 1 else x

/-- What the registers hold of the sector computed, state by state. -/
def Located : Prop :=
  match s.state with
  | .countLogical => s.multiplier.total = s.location d
  | .waitForFullWriteFifo | .prepare => s.logicalSector = s.location d
  | .sdControl | .sdReadWaitForData | .waitForEmptyReadFifo | .sdWriteWaitForEmptyFifo | .sdFormatWaitForFill
  | .updateSector => s.sdSector = s.clamped d (s.location d)
  | _ => True

variable {s i d} {k : DiskCommand}

namespace Runs

variable (h : s.Runs k)
include h

theorem ne_idle : s.state ≠ .idle := by
  intro he
  have hin := h.state
  rw [he] at hin
  revert hin
  cases k <;> decide

theorem noStart : NoStart s i := .of_not_idle h.ne_idle

theorem inProgress_eq (code : BitVec 5) : s.inProgress code = (k.code == code) := by
  rw [inProgress, h.code]

theorem readInProgress : s.cmdReadNormalInProgress = (k == .read) := by
  rw [cmdReadNormalInProgress, h.inProgress_eq]
  cases k <;> decide

theorem writeInProgress : s.cmdWriteNormalInProgress = (k == .write) := by
  rw [cmdWriteNormalInProgress, h.inProgress_eq]
  cases k <;> decide

theorem formatInProgress : s.cmdFormatInProgress = (k == .format) := by
  rw [cmdFormatInProgress, h.inProgress_eq]
  cases k <;> decide

theorem readIdInProgress : s.cmdReadIdInProgress = false := by
  rw [cmdReadIdInProgress, h.inProgress_eq]
  cases k <;> decide

theorem readIdFinished : s.cmdReadIdFinished = false := by
  rw [cmdReadIdFinished, h.readIdInProgress, Bool.and_false]

end Runs

/-- The state after a clock of a command. -/
def runNext (s : Floppy) (i : FloppyIn) (k : DiskCommand) : FloppyState :=
  match s.state with
  | .prepareCount => .countLogical
  | .countLogical => if s.multB == 0 then k.counted else .countLogical
  | .waitForFullWriteFifo => if s.fifoFull then .prepare else .waitForFullWriteFifo
  | .prepare => .sdControl
  | .sdControl => k.asks
  | .sdReadWaitForData => if s.fifoFull then .waitForEmptyReadFifo else .sdReadWaitForData
  | .waitForEmptyReadFifo => if s.fifo.empty then .updateSector else .waitForEmptyReadFifo
  | .sdWriteWaitForEmptyFifo => if s.fifo.empty then .updateSector else .sdWriteWaitForEmptyFifo
  | .sdFormatWaitForFill => if s.formatCounter == 511 && i.fifoRead then .wait else .sdFormatWaitForFill
  | .updateSector => .wait
  | .wait => if s.commandWaitCounter == 0 then .checkTc else .wait
  | .checkTc => if s.checkTcFinish then .idle else k.again
  | .waitForFormatInput =>
    if s.formatInputFinish then .idle else if s.formatDataCount == 4 then .prepareCount else .waitForFormatInput
  | .idle => .idle

theorem Runs.stateNext_eq (h : s.Runs k) (hr : i.rstN = true) : s.stateNext i = s.runNext i k := by
  unfold stateNext
  rw [h.noStart.last.readWriteOk, h.noStart.last.formatOk, h.noStart.last.readIdOk, hr, h.readInProgress,
    h.writeInProgress, h.formatInProgress, h.readIdInProgress, h.readIdFinished]
  unfold runNext formatInputFinish checkTcFinish
  have hin := h.state
  -- the states of the other commands do not occur
  cases hs : s.state <;> cases k <;> first | (exfalso; rw [hs] at hin; revert hin; decide) | skip
  all_goals simp [DiskCommand.counted, DiskCommand.asks, DiskCommand.again]

/-- A command that does not end goes on. -/
theorem Runs.step (h : s.Runs k) (hu : s.Undisturbed i) (hend : (s.step i).state ≠ .idle) : (s.step i).Runs k := by
  have hr := hu.rstN
  have hno := h.noStart (i := i)
  have hstate : (s.step i).state = s.runNext i k := h.stateNext_eq hr
  constructor
  · have hres : s.enterResultPhase i = false := by
      rw [hno.enterResultPhase]
      by_contra hends
      exact hend ((hno.last.stateNext_idle_iff hr).2 (.inr (by simpa using hends)))
    have hrecal : s.cmdRecalibrateStart i = false := hno.last _ _ _
    have hkeep : s.pendingCommandNext i = s.pendingCommand := by
      unfold pendingCommandNext
      rw [hr, hu.noReset, hno.last.readWriteOk, hno.last.formatOk, hno.last.readIdOk, hrecal, hres]
      rfl
    show (s.pendingCommandNext i).extractLsb' 0 5 = _
    rw [hkeep]
    exact h.code
  · rw [hstate] at hend ⊢
    have hin := h.state
    revert hend
    unfold runNext
    cases hs : s.state <;> cases k <;> first | (exfalso; rw [hs] at hin; revert hin; decide) | skip
    all_goals
      dsimp only [DiskCommand.counted, DiskCommand.asks, DiskCommand.again]
      try split_ifs
      all_goals simp [DiskCommand.states]

/-! ## The registers of the location -/

namespace Runs

variable (h : s.Runs k) (hu : s.Undisturbed i)
include h hu

theorem selectedDrive_eq : s.selectedDrive i = s.selectedDriveR := by
  have hnone : ∀ size low code, s.lastByte i size low code = false := h.noStart.last
  unfold selectedDrive cmdRecalibrateStart cmdSeekStart cmdReadIdStart cmdFormatTrackStart
  simp only [hu.rstN, hnone, h.noStart.last.readWrite, Bool.true_and, Bool.false_eq_true, if_false]
  cases hw : i.writes 2 with
  | true => exact hu.drive hw
  | false => rfl

theorem selectedDriveR_step : (s.step i).selectedDriveR = s.selectedDriveR := h.selectedDrive_eq hu

theorem cylinder_step : (s.step i).cylinder s.selectedDriveR =
    if s.state == .updateSector && s.incrementCylinder i then
      if s.mediaCylinders s.selectedDriveR ≤ s.cylinder s.selectedDriveR then s.mediaCylinders s.selectedDriveR - 1
      else s.cylinder s.selectedDriveR + 1
    else if s.state == .waitForFormatInput && s.formatDataCount == 4 then s.formatData.extractLsb' 24 8
    else s.cylinder s.selectedDriveR := by
  have hnone : ∀ size low code, s.lastByte i size low code = false := h.noStart.last
  show s.cylinderNext i s.selectedDriveR = _
  unfold cylinderNext cmdRecalibrateStart cmdSeekStart
  simp only [hu.rstN, hu.noReset, hnone, h.noStart.last.readWrite, h.noStart.last.readWriteOk, h.selectedDrive_eq hu,
    Bool.not_true, Bool.or_self, Bool.false_and, Bool.false_eq_true, if_false]
  split_ifs <;> simp [setDrive]

theorem head_step : (s.step i).head s.selectedDriveR =
    if s.state == .updateSector && !s.incrementOnlySector i && s.cmdReadWriteMultitrack then !s.head s.selectedDriveR
    else s.head s.selectedDriveR := by
  have hnone : ∀ size low code, s.lastByte i size low code = false := h.noStart.last
  show s.headNext i s.selectedDriveR = _
  unfold headNext cmdFormatTrackStart cmdGetStatusStart cmdSeekStart cmdReadIdStart
  simp only [hu.rstN, hu.noReset, hnone, h.noStart.last.readWrite, h.noStart.last.readWriteOk, h.noStart.last.formatOk,
    h.selectedDrive_eq hu, Bool.not_true, Bool.or_self, Bool.false_and, Bool.false_eq_true, if_false]
  split_ifs <;> simp [setDrive]

theorem sector_step : (s.step i).sector s.selectedDriveR =
    if s.state == .updateSector then if s.incrementOnlySector i then s.sector s.selectedDriveR + 1 else 1
    else if s.state == .waitForFormatInput && s.formatDataCount == 4 then s.formatData.extractLsb' 8 8
    else s.sector s.selectedDriveR := by
  show s.sectorNext i s.selectedDriveR = _
  unfold sectorNext
  simp only [hu.rstN, hu.noReset, h.noStart.last.readWrite, h.noStart.last.readWriteOk, h.selectedDrive_eq hu,
    Bool.not_true, Bool.or_self, Bool.false_and, Bool.false_eq_true, if_false]
  cases s.state == .updateSector with
  | true => cases s.incrementOnlySector i <;> simp [setDrive]
  | false => split_ifs <;> simp_all [setDrive]

end Runs

theorem mgmtSet_same (hi : i.KeepsDisk d) {α : Type} {a : BitVec 4} (ha : a = 2 ∨ a = 3 ∨ a = 4 ∨ a = 5)
    (x : Bool → α) (v : α) : mgmtSet i a x v d = x d := by
  unfold mgmtSet setDrive
  by_cases hw : (i.mgmtWrite && i.mgmtAddress == a) = true
  · rw [if_pos hw]
    simp only [Bool.and_eq_true, beq_iff_eq] at hw
    obtain ⟨hw, haddr⟩ := hw
    refine if_neg fun hd => ?_
    obtain ⟨h2, h3, h4, h5⟩ := hi hw hd.symm
    rcases ha with rfl | rfl | rfl | rfl
    · exact h2 haddr
    · exact h3 haddr
    · exact h4 haddr
    · exact h5 haddr
  · rw [if_neg hw]

/-- The registers that say where the drive is and what is in it are the same. -/
structure SamePlace (s s' : Floppy) (d : Bool) : Prop where
  cylinder : s'.cylinder d = s.cylinder d
  head : s'.head d = s.head d
  sector : s'.sector d = s.sector d

structure SameDisk (s s' : Floppy) (d : Bool) : Prop where
  cylinders : s'.mediaCylinders d = s.mediaCylinders d
  sectorsPerTrack : s'.mediaSectorsPerTrack d = s.mediaSectorsPerTrack d
  sectorCount : s'.mediaSectorCount d = s.mediaSectorCount d
  heads : s'.mediaHeads d = s.mediaHeads d

theorem sameDisk (hi : i.KeepsDisk d) : SameDisk s (s.step i) d :=
  ⟨mgmtSet_same hi (by decide) _ _, mgmtSet_same hi (by decide) _ _, mgmtSet_same hi (by decide) _ _,
    mgmtSet_same hi (by decide) _ _⟩

/-- The location stays but when a sector has been moved, and when an ID has come. -/
theorem Runs.samePlace (h : s.Runs k) (hu : s.Undisturbed i) (hupdate : s.state ≠ .updateSector)
    (hid : s.state = .waitForFormatInput → s.formatDataCount ≠ 4) : SamePlace s (s.step i) s.selectedDriveR := by
  have hno : (s.state == .waitForFormatInput && s.formatDataCount == 4) = false := by
    by_contra hyes
    simp only [Bool.not_eq_false, Bool.and_eq_true, beq_iff_eq] at hyes
    exact hid hyes.1 hyes.2
  refine ⟨?_, ?_, ?_⟩
  · rw [h.cylinder_step hu, beq_false_of_ne hupdate, hno]
    rfl
  · rw [h.head_step hu, beq_false_of_ne hupdate]
    rfl
  · rw [h.sector_step hu, beq_false_of_ne hupdate, hno]
    rfl

theorem location_congr {s' : Floppy} (hp : SamePlace s s' d) (hd : SameDisk s s' d) : s'.location d = s.location d := by
  unfold location cylinderSectors sectorInCylinder
  rw [hp.cylinder, hp.head, hp.sector, hd.sectorsPerTrack, hd.heads]

theorem clamped_congr {s' : Floppy} (hd : SameDisk s s' d) (x : BitVec 16) : s'.clamped d x = s.clamped d x := by
  unfold clamped
  rw [hd.sectorCount]

/-! ## A clock of the computation -/

section Clock

variable (h : s.Runs k) (hu : s.Undisturbed i)
include h hu

omit h in
theorem multiplier_step (hs : s.state = .countLogical) : (s.step i).multiplier = s.multiplier.step := by
  have hdouble : ∀ a : BitVec 16, a.extractLsb' 0 15 ++ 0#1 = a + a := by
    intro a
    refine BitVec.eq_of_toNat_eq ?_
    rw [BitVec.toNat_append, BitVec.extractLsb'_toNat, Nat.shiftRight_zero, BitVec.toNat_add,
      ← Nat.shiftLeft_add_eq_or_of_lt]
    · rw [Nat.shiftLeft_eq]
      show _ + 0 = _
      omega
    · exact Nat.two_pow_pos 1
  have hhalf : ∀ b : BitVec 8, (0#1 ++ b.extractLsb' 1 7).toNat = b.toNat / 2 ∧
      (b.getLsbD 0 = true ↔ b.toNat % 2 = 1) := by
    decide
  have hsum : s.logicalSectorNext i = if s.multB.toNat % 2 = 1 then s.logicalSector + s.multA else s.logicalSector := by
    unfold logicalSectorNext
    simp only [hu.rstN, hs, Bool.not_true, Bool.false_eq_true, if_false, beq_self_eq_true, Bool.true_and,
      (hhalf s.multB).2, show (FloppyState.countLogical == .prepareCount) = false from rfl]
  have ha : s.multANext i = s.multA + s.multA := by
    unfold multANext
    rw [hu.rstN, hs]
    exact hdouble s.multA
  have hb : (s.multBNext i).toNat = s.multB.toNat / 2 := by
    unfold multBNext
    rw [hu.rstN, hs]
    exact (hhalf s.multB).1
  show Multiplier.mk (s.logicalSectorNext i) (s.multANext i) (s.multBNext i).toNat = _
  rw [hsum, ha, hb]
  rfl

theorem multiplier_start (hs : s.state = .prepareCount) : (s.step i).multiplier =
    ⟨s.sectorInCylinder s.selectedDriveR, s.cylinderSectors s.selectedDriveR, (s.cylinder s.selectedDriveR).toNat⟩ := by
  show Multiplier.mk (s.logicalSectorNext i) (s.multANext i) (s.multBNext i).toNat = _
  unfold logicalSectorNext multANext multBNext
  rw [hu.rstN, hs, h.selectedDrive_eq hu]
  rfl

omit h in
theorem logicalSector_step (h1 : s.state ≠ .prepareCount) (h2 : s.state ≠ .countLogical) :
    (s.step i).logicalSector = s.logicalSector := by
  show s.logicalSectorNext i = _
  unfold logicalSectorNext
  rw [hu.rstN, beq_false_of_ne h1, beq_false_of_ne h2]
  rfl

theorem sdSector_step : (s.step i).sdSector =
    if s.state = .prepare then s.clamped s.selectedDriveR s.logicalSector else s.sdSector := by
  show s.sdSectorNext i = _
  unfold sdSectorNext clamped
  rw [hu.rstN, h.selectedDrive_eq hu]
  simp

/-- The registers hold the sector of the location from clock to clock. -/
theorem Located.step (hl : s.Located s.selectedDriveR) : (s.step i).Located s.selectedDriveR := by
  have hstate : (s.step i).state = s.runNext i k := h.stateNext_eq hu.rstN
  have hdisk := sameDisk (s := s) hu.disk
  have hplace (h1 : s.state ≠ .updateSector) (h2 : s.state ≠ .waitForFormatInput) :
      (s.step i).location s.selectedDriveR = s.location s.selectedDriveR :=
    location_congr (h.samePlace hu h1 fun he => absurd he h2) hdisk
  have hsd := sdSector_step h hu
  unfold Located at hl ⊢
  rw [hstate]
  unfold runNext
  cases hs : s.state with
  | idle => exact absurd hs h.ne_idle
  | prepareCount =>
    rw [hplace (by simp [hs]) (by simp [hs])]
    show (s.step i).multiplier.total = _
    rw [multiplier_start h hu hs]
    rfl
  | countLogical =>
    rw [hs] at hl
    have hl : s.multiplier.total = s.location s.selectedDriveR := hl
    have hmult := multiplier_step hu hs
    have htotal : (s.step i).multiplier.total = s.location s.selectedDriveR := by rw [hmult, Multiplier.total_step, hl]
    rw [hplace (by simp [hs]) (by simp [hs])]
    by_cases hzero : s.multB = 0
    · have hb : (s.step i).multiplier.b = 0 := by
        rw [hmult]
        show s.multB.toNat / 2 = 0
        rw [hzero]
        rfl
      have hsum : (s.step i).logicalSector = s.location s.selectedDriveR :=
        (Multiplier.total_done _ hb).symm.trans htotal
      rw [hzero]
      cases k with
      | read => exact hsum
      | write => exact hsum
      | format => exact hsum
    · dsimp only
      rw [beq_false_of_ne hzero]
      exact htotal
  | waitForFullWriteFifo =>
    rw [hs] at hl
    rw [hplace (by simp [hs]) (by simp [hs]), logicalSector_step hu (by simp [hs]) (by simp [hs])]
    dsimp only
    split_ifs
    · exact hl
    · exact hl
  | prepare =>
    rw [hs] at hl
    rw [if_pos hs] at hsd
    rw [hplace (by simp [hs]) (by simp [hs]), clamped_congr hdisk, hsd]
    exact congrArg _ hl
  | sdControl =>
    rw [hs] at hl
    rw [if_neg (by simp [hs])] at hsd
    rw [hplace (by simp [hs]) (by simp [hs]), clamped_congr hdisk, hsd]
    cases k with
    | read => exact hl
    | write => exact hl
    | format => exact hl
  | sdReadWaitForData | waitForEmptyReadFifo | sdWriteWaitForEmptyFifo | sdFormatWaitForFill =>
    rw [hs] at hl
    rw [if_neg (by simp [hs])] at hsd
    rw [hplace (by simp [hs]) (by simp [hs]), clamped_congr hdisk, hsd]
    dsimp only
    split_ifs
    all_goals first | exact hl | exact trivial
  | updateSector => exact trivial
  | wait =>
    dsimp only
    split_ifs
    · exact trivial
    · exact trivial
  | checkTc =>
    cases k with
    | read => dsimp only; split_ifs <;> exact trivial
    | write => dsimp only; split_ifs <;> exact trivial
    | format => dsimp only; split_ifs <;> exact trivial
  | waitForFormatInput =>
    dsimp only
    split_ifs
    all_goals exact trivial

end Clock

/-! ## The sector of a location -/

/-- The tracks of the disk are counted from the first cylinder on, those of a cylinder by their head. -/
def track (s : Floppy) (d : Bool) : Nat := (s.cylinder d).toNat * (s.mediaHeads d).toNat + (s.head d).toNat

def tracks (s : Floppy) (d : Bool) : Nat := (s.mediaCylinders d).toNat * (s.mediaHeads d).toNat

/-- The sector of the image at the location of the drive; the sectors of a track are counted from 1 on. -/
def lba (s : Floppy) (d : Bool) : Int := s.track d * (s.mediaSectorsPerTrack d).toNat + (s.sector d).toNat - 1

/-- A disk with one or two heads, whose image has all of its sectors. -/
structure Mounted (s : Floppy) (d : Bool) : Prop where
  cylinders : 0 < (s.mediaCylinders d).toNat
  heads : s.mediaHeads d = 1 ∨ s.mediaHeads d = 2
  sectorsPerTrack : 0 < (s.mediaSectorsPerTrack d).toNat
  sectorCount : (s.mediaSectorCount d).toNat = s.tracks d * (s.mediaSectorsPerTrack d).toNat

theorem Mounted.congr {s' : Floppy} (hm : s.Mounted d) (hd : SameDisk s s' d) : s'.Mounted d := by
  refine ⟨?_, ?_, ?_, ?_⟩
  · rw [hd.cylinders]
    exact hm.cylinders
  · rw [hd.heads]
    exact hm.heads
  · rw [hd.sectorsPerTrack]
    exact hm.sectorsPerTrack
  · rw [hd.sectorCount, hd.sectorsPerTrack, tracks, hd.cylinders, hd.heads]
    exact hm.sectorCount

theorem Mounted.location_toNat (hm : s.Mounted d) : (s.location d).toNat =
    (s.track d * (s.mediaSectorsPerTrack d).toNat + (s.sector d).toNat + 65535) % 65536 := by
  have hwide : ∀ x : BitVec 8, (0#8 ++ x).toNat = x.toNat ∧ (0#7 ++ x ++ 0#1).toNat = 2 * x.toNat := by decide
  have hcylinder : (s.cylinderSectors d).toNat = (s.mediaHeads d).toNat * (s.mediaSectorsPerTrack d).toNat := by
    unfold cylinderSectors
    rcases hm.heads with hone | htwo
    · rw [hone]
      exact (hwide _).1.trans (Nat.one_mul _).symm
    · rw [htwo]
      exact (hwide _).2
  have hhead : (if s.head d then 0#8 ++ s.mediaSectorsPerTrack d else 0).toNat =
      (s.head d).toNat * (s.mediaSectorsPerTrack d).toNat := by
    cases s.head d with
    | true => exact (hwide _).1.trans (Nat.one_mul _).symm
    | false => exact (Nat.zero_mul _).symm
  have hsector : (s.sectorInCylinder d).toNat =
      ((s.head d).toNat * (s.mediaSectorsPerTrack d).toNat + (s.sector d).toNat + 65535) % 65536 := by
    unfold sectorInCylinder
    rw [BitVec.toNat_sub, BitVec.toNat_add, hhead, (hwide _).1]
    show (65536 - 1 + _ % 65536) % 65536 = _
    omega
  unfold location Multiplier.total
  dsimp only
  rw [BitVec.toNat_add, nsmul_eq_mul, BitVec.toNat_mul, hsector, hcylinder, track, Nat.add_mul, Nat.mul_assoc]
  generalize (s.mediaHeads d).toNat * (s.mediaSectorsPerTrack d).toNat = a
  have hcast : ((s.cylinder d).toNat : BitVec 16).toNat = (s.cylinder d).toNat % 65536 := by
    rw [BitVec.natCast_eq_ofNat, BitVec.toNat_ofNat]
  rw [hcast]
  simp only [Nat.reducePow, Nat.mod_mul_mod, Nat.add_mod_mod, Nat.mod_add_mod]
  omega

/-- The sector that the host is asked for, as it stands in `mgmt_readdata`. -/
def asked (s : Floppy) : BitVec 15 := s.sdSector.extractLsb' 0 15

/-- The location is a sector of the disk: the track is one of the disk, the sector is not the one before the first, and
it is one of those that 15 bits can name. -/
structure OnDisk (s : Floppy) (d : Bool) : Prop where
  track : s.track d < s.tracks d
  sector : (s.sector d).toNat = 0 → 0 < s.track d
  named : s.track d * (s.mediaSectorsPerTrack d).toNat + (s.sector d).toNat ≤ 32768

theorem Mounted.sector_lt (hm : s.Mounted d) (htrack : s.track d < s.tracks d)
    (hzero : (s.sector d).toNat = 0 → 0 < s.track d) (hs : (s.sector d).toNat ≤ (s.mediaSectorsPerTrack d).toNat) :
    s.track d * (s.mediaSectorsPerTrack d).toNat + (s.sector d).toNat ≤ (s.mediaSectorCount d).toNat ∧
      0 < s.track d * (s.mediaSectorsPerTrack d).toNat + (s.sector d).toNat := by
  have hle := Nat.mul_le_mul_right (s.mediaSectorsPerTrack d).toNat htrack
  rw [Nat.succ_mul, ← hm.sectorCount] at hle
  refine ⟨by omega, ?_⟩
  rcases Nat.eq_zero_or_pos (s.sector d).toNat with hfirst | hpos
  · exact Nat.add_pos_left (Nat.mul_pos (hzero hfirst) hm.sectorsPerTrack) _
  · exact Nat.add_pos_right _ hpos

/-- For a sector of the disk the sector computed is that of the location. -/
theorem Mounted.clamped_location (hm : s.Mounted d) (htrack : s.track d < s.tracks d)
    (hzero : (s.sector d).toNat = 0 → 0 < s.track d) (hs : (s.sector d).toNat ≤ (s.mediaSectorsPerTrack d).toNat) :
    ((s.clamped d (s.location d)).toNat : Int) = s.lba d ∧
      (s.clamped d (s.location d)).toNat < (s.mediaSectorCount d).toNat := by
  obtain ⟨hle, hpos⟩ := hm.sector_lt htrack hzero hs
  have hcount : (s.mediaSectorCount d).toNat < 65536 := (s.mediaSectorCount d).isLt
  have hlocation := hm.location_toNat
  have hlt : (s.location d).toNat < (s.mediaSectorCount d).toNat := by omega
  have hinside : ¬ s.mediaSectorCount d ≤ s.location d := Nat.not_le.2 hlt
  unfold clamped lba
  rw [if_neg hinside]
  refine ⟨?_, hlt⟩
  omega

/-- No sector behind the image is computed. -/
theorem Mounted.clamped_lt (hm : s.Mounted d) (a : BitVec 16) :
    (s.clamped d a).toNat < (s.mediaSectorCount d).toNat := by
  have hpos : 0 < (s.mediaSectorCount d).toNat := by
    have hheads : 0 < (s.mediaHeads d).toNat := by
      rcases hm.heads with hone | htwo
      · rw [hone]
        decide
      · rw [htwo]
        decide
    rw [hm.sectorCount, tracks]
    exact Nat.mul_pos (Nat.mul_pos hm.cylinders hheads) hm.sectorsPerTrack
  unfold clamped
  split_ifs with hbehind
  · bv_omega
  · exact Nat.not_le.1 hbehind

end Floppy

end Z486.Disk
