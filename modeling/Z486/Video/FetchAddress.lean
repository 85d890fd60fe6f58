/-
The addresses from which the VGA fetches a picture (src/soc/vga.v): the address counter, which a scanline loads with the
start of its row and which goes on with each character, and the row of the character or of the doubled scanline. A row
starts again at the line compare, and the start address is that of the last vertical retrace.

The on-demand mode of the VGA, in which a request loads the start address and doubled rows are left out, is not modelled.
-/
import Z486.Video.RasterFrame

namespace Z486.Video

open Clocked Scanlines

/-! ## Registers -/

structure FetchRegs where
  raster : RasterRegs
  verticalDoublescan : Bool
  rowMax : BitVec 5
  rowPreset : BitVec 5
  addressOffset : BitVec 9
  lineCompare : BitVec 11
  addressDoubleword : Bool
  addressByte : Bool
  addressBit0 : Bool
  addressBit13 : Bool
  addressBit14 : Bool
deriving DecidableEq, Repr

/-- The registers that the vertical retrace latches. -/
structure StartIn where
  addressStart : BitVec 16
  addressBytePanning : BitVec 2
deriving DecidableEq, Repr

structure Fetch where
  raster : Raster
  stepPreFirst : Bool
  stepPre : Bool
  stepA : Bool
  stepB : Bool
  startLine : BitVec 16
  rowScanReg : BitVec 5
  rowScanDouble : Bool
  addressStartReg : BitVec 16
  address : BitVec 16
  rowScan : BitVec 5
  addressRegFinal : BitVec 16
deriving DecidableEq, Repr

def StartIn.start (i : StartIn) : BitVec 16 := i.addressStart + i.addressBytePanning.setWidth 16

namespace FetchRegs

variable (r : FetchRegs)

/-- `vertical_doublescan` -/
def linesDoubled : Bool := r.verticalDoublescan || r.rowMax == 1

/-- The row at which the picture starts again. -/
def splitRow : BitVec 11 := r.lineCompare + (BitVec.ofBool (!r.linesDoubled || r.lineCompare.getLsbD 0)).setWidth 11

/-- `{ 1'b0, seq_dotclock_divided, ~(seq_8dot_char & seq_dotclock_divided), seq_8dot_char ~^ seq_dotclock_divided }` -/
def loadDot : BitVec 4 :=
  BitVec.ofBool false ++ BitVec.ofBool r.raster.seqDotclockDivided ++
    BitVec.ofBool (!(r.raster.seq8dotChar && r.raster.seqDotclockDivided)) ++
    BitVec.ofBool (r.raster.seq8dotChar == r.raster.seqDotclockDivided)

/-- The address counter as the address mode turns it. -/
def addressStep1 (address : BitVec 16) : BitVec 16 :=
  if r.addressDoubleword then address.extractLsb' 0 14 ++ address.extractLsb' 14 2
  else if r.addressByte then address
  else if r.addressBit0 then address.extractLsb' 0 15 ++ address.extractLsb' 15 1
  else address.extractLsb' 0 15 ++ address.extractLsb' 13 1

/-- The address of the planes: two of its bits may be those of the row. -/
def addressStep2 (address : BitVec 16) (rowScan : BitVec 5) : BitVec 16 :=
  BitVec.ofBool ((r.addressStep1 address).getLsbD 15) ++
    BitVec.ofBool (if r.addressBit14 then (r.addressStep1 address).getLsbD 14 else rowScan.getLsbD 1) ++
    BitVec.ofBool (if r.addressBit13 then (r.addressStep1 address).getLsbD 13 else rowScan.getLsbD 0) ++
    (r.addressStep1 address).extractLsb' 0 13

end FetchRegs

/-! ## An enable -/

namespace Fetch

variable (f : Fetch) (r : FetchRegs) (i : StartIn)

def dotMemoryLoadDotCnt : Bool := f.raster.dotCntEnable r.raster && f.raster.dotCnt == r.loadDot

def horizLineFetch : Bool :=
  f.raster.horiz2ndToLastCnt r.raster || f.raster.horizLastCnt r.raster || f.raster.hde r.raster

def dotMemoryLoadActive : Bool := f.horizLineFetch r && f.raster.vde r.raster

def dotMemoryLoad : Bool := f.dotMemoryLoadDotCnt r && f.dotMemoryLoadActive r

def dotMemoryLoadFirstInLine : Bool :=
  f.dotMemoryLoadDotCnt r && f.raster.horiz2ndToLastCnt r.raster && f.raster.vde r.raster

def dotMemoryLoadFirstInFrame : Bool := f.dotMemoryLoadFirstInLine r && f.raster.lines.vertCnt == 0

def dotMemoryLoadFirstInLineMatched : Bool := f.dotMemoryLoadFirstInLine r && f.raster.lines.vertCnt == r.splitRow

/-- `memory_row_scan_double` -/
def rowScanDoubleNext : Bool :=
  if r.verticalDoublescan && (f.dotMemoryLoadFirstInFrame r || f.dotMemoryLoadFirstInLineMatched r) then true
  else if r.verticalDoublescan && f.dotMemoryLoadFirstInLine r && !f.raster.lines.vzRep then !f.rowScanDouble
  else if !r.verticalDoublescan || f.raster.dotMemoryLoadVerticalRetraceStart then false
  else f.rowScanDouble

/-- `memory_address` -/
def addressNext : BitVec 16 :=
  if f.dotMemoryLoadFirstInLineMatched r then 0
  else if f.dotMemoryLoadFirstInFrame r then f.addressStartReg
  else if f.dotMemoryLoadFirstInLine r then
    if f.raster.lines.vzRep || (f.rowScanDouble || decide (f.rowScanReg < r.rowMax)) then f.startLine
    else f.startLine + (BitVec.ofNat 6 0 ++ r.addressOffset ++ BitVec.ofNat 1 0)
  else if f.dotMemoryLoad r then f.address + 1
  else f.address

/-- `memory_row_scan` -/
def rowScanNext : BitVec 5 :=
  if f.dotMemoryLoadFirstInLineMatched r then 0
  else if f.dotMemoryLoadFirstInFrame r then if r.rowPreset ≤ r.rowMax then r.rowPreset else 0
  else if f.dotMemoryLoadFirstInLine r then
    if f.raster.lines.vzRep || f.rowScanDouble then f.rowScanReg
    else if f.rowScanReg == r.rowMax then 0
    else f.rowScanReg + 1
  else f.rowScan

def next : Fetch where
  raster := f.raster.next r.raster
  stepPreFirst := f.dotMemoryLoadFirstInFrame r || f.dotMemoryLoadFirstInLineMatched r || f.dotMemoryLoadFirstInLine r
  stepPre := f.dotMemoryLoad r
  stepA := f.stepPre
  stepB := f.stepA
  startLine := if f.stepPreFirst then f.address else f.startLine
  rowScanReg := if f.stepPreFirst then f.rowScan else f.rowScanReg
  rowScanDouble := f.rowScanDoubleNext r
  addressStartReg := if f.raster.dotMemoryLoadVerticalRetraceStart then i.start else f.addressStartReg
  address := f.addressNext r
  rowScan := f.rowScanNext r
  addressRegFinal := if f.stepPre then f.address else f.addressRegFinal

end Fetch

/-! ## The rows of a picture -/

namespace FetchRegs

variable (r : FetchRegs) (row : Nat)

/-- The enables of a character until its columns are fetched. -/
def loadPhase : Nat :=
  if r.raster.seqDotclockDivided then if r.raster.seq8dotChar then 11 else 13
  else if r.raster.seq8dotChar then 2 else 3

/-- The scanlines since the picture, or its lower part, began. -/
def scanlinesFrom : Nat := if r.splitRow.toNat ≤ row then row - r.splitRow.toNat else row

/-- The rows of pixels since then, and those before the first one of the character. -/
def pixelRows : Nat :=
  (if r.splitRow.toNat ≤ row then 0 else if r.rowPreset ≤ r.rowMax then r.rowPreset.toNat else 0) +
    if r.verticalDoublescan then r.scanlinesFrom row / 2 else r.scanlinesFrom row

/-- The address with which a scanline begins, and its row of the characters. -/
def base (start : BitVec 16) : BitVec 16 :=
  (if r.splitRow.toNat ≤ row then 0 else start) +
    BitVec.ofNat 16 (2 * r.addressOffset.toNat * (r.pixelRows row / (r.rowMax.toNat + 1)))

def scanOf : BitVec 5 := BitVec.ofNat 5 (r.pixelRows row % (r.rowMax.toNat + 1))

/-- The scanline is the first of the two of its row. -/
def firstOfTwo : Bool := r.verticalDoublescan && r.scanlinesFrom row % 2 == 0

variable {r row}

theorem offset_toNat (v : BitVec 9) : BitVec.ofNat 6 0 ++ v ++ BitVec.ofNat 1 0 = BitVec.ofNat 16 (2 * v.toNat) := by
  refine BitVec.eq_of_toNat_eq ?_
  have := v.isLt
  rw [BitVec.toNat_append, BitVec.toNat_append, BitVec.toNat_ofNat]
  simp [Nat.shiftLeft_eq]
  omega

theorem scanOf_toNat : (r.scanOf row).toNat = r.pixelRows row % (r.rowMax.toNat + 1) := by
  have := r.rowMax.isLt
  have := Nat.mod_lt (r.pixelRows row) (show 0 < r.rowMax.toNat + 1 by omega)
  unfold scanOf
  rw [BitVec.toNat_ofNat, Nat.mod_eq_of_lt (by omega)]

theorem ge_split_succ (hsplit : row + 1 ≠ r.splitRow.toNat) : r.splitRow.toNat ≤ row + 1 ↔ r.splitRow.toNat ≤ row := by
  omega

theorem pixelRows_le_of_first (hfirst : row = 0 ∨ row = r.splitRow.toNat) : r.pixelRows row ≤ r.rowMax.toNat := by
  unfold pixelRows scanlinesFrom
  rcases hfirst with rfl | rfl
  · rw [Nat.zero_sub, ite_self, Nat.zero_div, ite_self, Nat.add_zero]
    split
    · exact Nat.zero_le _
    · split
      case isTrue hle => exact hle
      · exact Nat.zero_le _
  · rw [if_pos (Nat.le_refl _), if_pos (Nat.le_refl _), Nat.sub_self, Nat.zero_div, ite_self]
    exact Nat.zero_le _

/-- Where the picture begins, and where it begins again. -/
theorem base_first (start : BitVec 16) (hfirst : row = 0 ∨ row = r.splitRow.toNat) :
    r.base row start = if row = r.splitRow.toNat then 0 else start := by
  unfold base
  rw [Nat.div_eq_of_lt (Nat.lt_succ_of_le (pixelRows_le_of_first hfirst)), Nat.mul_zero]
  refine (BitVec.add_zero _).trans (if_congr ⟨fun hle => ?_, fun h => by omega⟩ rfl rfl)
  omega

/-- On the second scanline of a row, and on a scanline of a row of one, the next row of pixels follows. -/
theorem pixelRows_succ (hsplit : row + 1 ≠ r.splitRow.toNat) :
    r.pixelRows (row + 1) = if r.firstOfTwo row then r.pixelRows row else r.pixelRows row + 1 := by
  have hge := ge_split_succ hsplit
  have hfrom : r.scanlinesFrom (row + 1) = r.scanlinesFrom row + 1 := by
    unfold scanlinesFrom
    rw [if_congr hge rfl rfl]
    split <;> omega
  unfold pixelRows firstOfTwo
  rw [if_congr hge rfl rfl, hfrom]
  cases r.verticalDoublescan with
  | false => rfl
  | true =>
    rw [Bool.true_and, if_pos rfl, if_pos rfl, if_congr beq_iff_eq rfl rfl]
    generalize r.scanlinesFrom row = k
    rcases Nat.mod_two_eq_zero_or_one k with heven | hodd
    · rw [if_pos heven, show (k + 1) / 2 = k / 2 by omega]
    · rw [if_neg (show ¬ k % 2 = 0 by omega), show (k + 1) / 2 = k / 2 + 1 by omega]
      rfl

theorem firstOfTwo_succ (hsplit : row + 1 ≠ r.splitRow.toNat) :
    r.firstOfTwo (row + 1) = (r.verticalDoublescan && !r.firstOfTwo row) := by
  have hfrom : r.scanlinesFrom (row + 1) = r.scanlinesFrom row + 1 := by
    unfold scanlinesFrom
    rw [if_congr (ge_split_succ hsplit) rfl rfl]
    split <;> omega
  unfold firstOfTwo
  rw [hfrom]
  cases r.verticalDoublescan with
  | false => rfl
  | true =>
    rcases Nat.mod_two_eq_zero_or_one (r.scanlinesFrom row) with heven | hodd
    · rw [heven, show (r.scanlinesFrom row + 1) % 2 = 1 by omega]
      rfl
    · rw [hodd, show (r.scanlinesFrom row + 1) % 2 = 0 by omega]
      rfl

theorem base_succ (start : BitVec 16) (hsplit : row + 1 ≠ r.splitRow.toNat) :
    r.base (row + 1) start =
      if r.firstOfTwo row || decide (r.scanOf row < r.rowMax) then r.base row start
      else r.base row start + BitVec.ofNat 16 (2 * r.addressOffset.toNat) := by
  have hscan : (r.scanOf row).toNat = _ := scanOf_toNat
  unfold base
  rw [if_congr (ge_split_succ hsplit) rfl rfl, pixelRows_succ hsplit]
  cases r.firstOfTwo row with
  | true => rfl
  | false =>
    rw [if_neg Bool.false_ne_true, Bool.false_or, Nat.succ_div]
    have hmod := succ_mod (k := r.pixelRows row) (show 0 < r.rowMax.toNat + 1 by omega)
    by_cases hlast : r.rowMax.toNat + 1 ∣ r.pixelRows row + 1
    · have hzero := Nat.mod_eq_zero_of_dvd hlast
      have hnot : ¬ r.scanOf row < r.rowMax := by
        rw [BitVec.lt_def]
        split at hmod <;> omega
      rw [if_pos hlast, decide_eq_false hnot, if_neg Bool.false_ne_true, Nat.mul_succ, BitVec.ofNat_add, BitVec.add_assoc]
    · have hpos := mt Nat.dvd_of_mod_eq_zero hlast
      rw [if_neg hlast, Nat.add_zero, if_pos (decide_eq_true (BitVec.lt_def.2 ?_))]
      have := Nat.mod_lt (r.pixelRows row) (show 0 < r.rowMax.toNat + 1 by omega)
      split at hmod <;> omega

theorem scanOf_succ (hsplit : row + 1 ≠ r.splitRow.toNat) :
    r.scanOf (row + 1) =
      if r.firstOfTwo row then r.scanOf row else if r.scanOf row == r.rowMax then 0 else r.scanOf row + 1 := by
  have hscan : (r.scanOf row).toNat = _ := scanOf_toNat
  have hnext : (r.scanOf (row + 1)).toNat = _ := scanOf_toNat
  have hmax := r.rowMax.isLt
  rw [pixelRows_succ hsplit] at hnext
  refine BitVec.eq_of_toNat_eq ?_
  rw [hnext]
  cases r.firstOfTwo row with
  | true => exact hscan.symm
  | false =>
    have heq : (r.scanOf row == r.rowMax) = true ↔ r.pixelRows row % (r.rowMax.toNat + 1) = r.rowMax.toNat := by
      rw [beq_iff_eq, ← BitVec.toNat_inj, hscan]
    rw [if_neg Bool.false_ne_true, if_neg Bool.false_ne_true, if_congr heq rfl rfl,
      succ_mod (show 0 < r.rowMax.toNat + 1 by omega)]
    by_cases hlast : r.pixelRows row % (r.rowMax.toNat + 1) = r.rowMax.toNat
    · rw [if_pos hlast, if_pos (by omega)]
      rfl
    · have := Nat.mod_lt (r.pixelRows row) (show 0 < r.rowMax.toNat + 1 by omega)
      rw [if_neg hlast, if_neg (by omega), toNat_succ (by omega), hscan]

end FetchRegs

/-! ## The first load of a scanline -/

namespace Fetch

variable {f : Fetch} {r : FetchRegs} {i : StartIn} {start : BitVec 16} {row : Nat}

/-- What a scanline leaves for the next one. -/
structure Left (f : Fetch) (r : FetchRegs) (start : BitVec 16) (row : Nat) : Prop where
  startLine : f.startLine = r.base row start
  rowScanReg : f.rowScanReg = r.scanOf row
  double : f.rowScanDouble = r.firstOfTwo row

/-- The scanline is loaded. -/
structure Begun (f : Fetch) (r : FetchRegs) (start : BitVec 16) (row : Nat) : Prop where
  address : f.address = r.base row start
  rowScan : f.rowScan = r.scanOf row
  double : f.rowScanDouble = r.firstOfTwo row

theorem rowScanDoubleNext_first (hload : f.dotMemoryLoadFirstInLine r = true)
    (hfirst : (f.raster.lines.vertCnt == 0 || f.raster.lines.vertCnt == r.splitRow) = true) :
    f.rowScanDoubleNext r = r.verticalDoublescan := by
  unfold rowScanDoubleNext dotMemoryLoadFirstInFrame dotMemoryLoadFirstInLineMatched
  rw [hload, Bool.true_and, Bool.true_and, hfirst, Bool.and_true]
  cases r.verticalDoublescan <;> rfl

/-- The picture begins, or begins again. -/
theorem begun_first (row : Nat) (hload : f.dotMemoryLoadFirstInLine r = true) (hrow : f.raster.lines.vertCnt.toNat = row)
    (hfirst : row = 0 ∨ row = r.splitRow.toNat) : Begun (f.next r i) r f.addressStartReg row := by
  have hsplit : (f.raster.lines.vertCnt == r.splitRow) = true ↔ row = r.splitRow.toNat := by
    rw [beq_iff_eq, ← BitVec.toNat_inj, hrow]
  have hzero : (f.raster.lines.vertCnt == 0) = true ↔ row = 0 := by
    rw [beq_iff_eq, ← BitVec.toNat_inj, hrow]
    rfl
  have hor : (f.raster.lines.vertCnt == 0 || f.raster.lines.vertCnt == r.splitRow) = true := by
    rw [Bool.or_eq_true, hsplit, hzero]
    exact hfirst
  have hmatched : f.dotMemoryLoadFirstInLineMatched r = true ↔ row = r.splitRow.toNat := by
    unfold dotMemoryLoadFirstInLineMatched
    rw [hload, Bool.true_and, hsplit]
  have hframe : f.dotMemoryLoadFirstInFrame r = true ↔ row = 0 := by
    unfold dotMemoryLoadFirstInFrame
    rw [hload, Bool.true_and, hzero]
  have hfrom : r.scanlinesFrom row = 0 := by
    unfold FetchRegs.scanlinesFrom
    split <;> omega
  refine ⟨?_, ?_, ?_⟩
  · show f.addressNext r = _
    unfold addressNext
    rw [FetchRegs.base_first _ hfirst, if_congr hmatched rfl rfl]
    by_cases hat : row = r.splitRow.toNat
    · rw [if_pos hat, if_pos hat]
    · rw [if_neg hat, if_neg hat, if_pos (hframe.2 (hfirst.resolve_right hat))]
  · show f.rowScanNext r = _
    unfold rowScanNext
    refine BitVec.eq_of_toNat_eq ?_
    rw [FetchRegs.scanOf_toNat, Nat.mod_eq_of_lt (Nat.lt_succ_of_le (FetchRegs.pixelRows_le_of_first hfirst)),
      FetchRegs.pixelRows, hfrom, Nat.zero_div, ite_self, Nat.add_zero, if_congr hmatched rfl rfl]
    by_cases hat : row = r.splitRow.toNat
    · rw [if_pos hat, if_pos hat.ge]
      rfl
    · have hzero := hfirst.resolve_right hat
      rw [if_neg hat, if_pos (hframe.2 hzero), if_neg (show ¬ r.splitRow.toNat ≤ row by omega)]
      split <;> rfl
  · show f.rowScanDoubleNext r = _
    rw [rowScanDoubleNext_first hload hor, FetchRegs.firstOfTwo, hfrom]
    exact (Bool.and_true _).symm

section Later

variable (hzero : f.raster.lines.vertCnt ≠ 0) (hsplit : f.raster.lines.vertCnt ≠ r.splitRow)
include hzero hsplit

theorem not_first : f.dotMemoryLoadFirstInLineMatched r = false ∧ f.dotMemoryLoadFirstInFrame r = false := by
  unfold dotMemoryLoadFirstInLineMatched dotMemoryLoadFirstInFrame
  rw [beq_eq_false_iff_ne.2 hzero, beq_eq_false_iff_ne.2 hsplit, Bool.and_false]
  exact ⟨rfl, rfl⟩

variable (hload : f.dotMemoryLoadFirstInLine r = true)
include hload

/-- A scanline that the zoom repeats. -/
theorem Left.begun_held (h : f.Left r start row) (hheld : f.raster.lines.vzRep = true)
    (hretrace : f.raster.dotMemoryLoadVerticalRetraceStart = false) : Begun (f.next r i) r start row := by
  obtain ⟨hmatched, hframe⟩ := not_first hzero hsplit
  refine ⟨?_, ?_, ?_⟩
  · show f.addressNext r = _
    unfold addressNext
    rw [hmatched, hframe, hload, hheld, Bool.true_or, h.startLine]
    rfl
  · show f.rowScanNext r = _
    unfold rowScanNext
    rw [hmatched, hframe, hload, hheld, Bool.true_or, h.rowScanReg]
    rfl
  · show f.rowScanDoubleNext r = _
    unfold rowScanDoubleNext
    rw [hmatched, hframe, hheld, hretrace, h.double, FetchRegs.firstOfTwo]
    cases r.verticalDoublescan <;> simp

/-- The scanline after the last one. -/
theorem Left.begun_next (h : f.Left r start row) (hrow : row + 1 ≠ r.splitRow.toNat) (hnew : f.raster.lines.vzRep = false) :
    Begun (f.next r i) r start (row + 1) := by
  obtain ⟨hmatched, hframe⟩ := not_first hzero hsplit
  refine ⟨?_, ?_, ?_⟩
  · show f.addressNext r = _
    unfold addressNext
    rw [hmatched, hframe, hload, hnew, h.double, h.rowScanReg, h.startLine, FetchRegs.base_succ _ hrow,
      FetchRegs.offset_toNat]
    rfl
  · show f.rowScanNext r = _
    unfold rowScanNext
    rw [hmatched, hframe, hload, hnew, h.double, h.rowScanReg, FetchRegs.scanOf_succ hrow]
    rfl
  · show f.rowScanDoubleNext r = _
    unfold rowScanDoubleNext
    rw [hmatched, hframe, hload, hnew, h.double, FetchRegs.firstOfTwo_succ hrow]
    cases r.verticalDoublescan <;> simp

end Later

end Fetch

end Z486.Video
