/-
The dots of a column on the VGA (src/soc/vga.v). The bytes of the planes and the row of the font are latched one after the
other, and the shift registers then hand out the eight dots of the column, and a ninth that repeats the eighth in an
underline and in the line graphics, and is background elsewhere.

At the full dot clock the next column is latched before the ninth dot is taken, and the underline of the ninth dot goes by
the attribute of that one.
-/
import Z486.Video.Dots
import Z486.Video.FetchFrame

namespace Z486.Video

open Clocked

/-! ## Columns -/

/-- What is read for a column; `nextAttr` is the attribute that the ninth dot is underlined by. -/
structure Cell where
  bytes : Fin 4 → BitVec 8
  font : BitVec 8
  address : BitVec 16
  nextAttr : BitVec 8

namespace Cell

variable (x : Cell) (r : DotRegs) (blink : BitVec 6) (scan : BitVec 5)

def text : BitVec 8 := r.txtShiftValue (x.bytes 1) blink x.address scan x.font

/-- The dots of the bytes, or of the row of the font. -/
def byteDot (j : Nat) : BitVec 4 :=
  if r.attribGraphicMode then
    nibble ((planeShiftValue r.graphShiftMode x.bytes 3).getMsbD j) ((planeShiftValue r.graphShiftMode x.bytes 2).getMsbD j)
      ((planeShiftValue r.graphShiftMode x.bytes 1).getMsbD j) ((planeShiftValue r.graphShiftMode x.bytes 0).getMsbD j)
  else if (x.text r blink scan).getMsbD j then r.foreground (x.bytes 1)
  else r.background (x.bytes 1)

def dot (j : Nat) : BitVec 4 :=
  if j < 8 then x.byteDot r blink scan j
  else if (r.attrib9bitSameAs8bit && DotRegs.lineGraphicChar (x.bytes 0)) || r.underlined x.nextAttr scan then
    x.byteDot r blink scan 7
  else r.background (x.bytes 1)

end Cell

/-! ## Shift registers -/

theorem shifted_getMsbD (v : BitVec 8) (j : Nat) : (shifted v).getMsbD j = v.getMsbD (j + 1) := by
  unfold shifted
  rw [BitVec.getMsbD_eq_getLsbD, BitVec.getMsbD_eq_getLsbD, BitVec.getLsbD_append, BitVec.getLsbD_extractLsb']
  by_cases hj : j < 7
  · rw [if_neg (by omega), decide_eq_true (by omega), decide_eq_true (by omega), decide_eq_true (by omega), Nat.zero_add]
    congr 2
  · rw [decide_eq_false (show ¬ j + 1 < 8 by omega), Bool.false_and]
    by_cases hlast : j = 7
    · subst hlast
      rfl
    · rw [decide_eq_false (by omega), Bool.false_and]

/-- The dots in a shift register of ten: the new one is at place 8. -/
theorem pelShift_next (reg : BitVec 40) (pel : BitVec 4) {b : Nat} (hb : b < 9) :
    (BitVec.ofNat 4 0 ++ pel ++ reg.extractLsb' 4 32).extractLsb' (4 * b) 4 =
      if b = 8 then pel else reg.extractLsb' (4 * (b + 1)) 4 := by
  refine BitVec.eq_of_getLsbD_eq fun j hj => ?_
  rw [BitVec.getLsbD_extractLsb', BitVec.getLsbD_append, decide_eq_true hj, Bool.true_and]
  by_cases hnew : b = 8
  · subst hnew
    rw [if_pos rfl, if_neg (by omega), BitVec.getLsbD_append, if_pos (by omega)]
    congr 1
    omega
  · rw [if_neg hnew, if_pos (by omega), BitVec.getLsbD_extractLsb', BitVec.getLsbD_extractLsb', decide_eq_true hj,
      decide_eq_true (by omega)]
    congr 2
    omega

namespace DotRegs

variable (r : DotRegs)

/-- The shifts of the first `i` enables of a column. -/
def shiftsBefore (i : Nat) : Nat := if r.fetch.raster.seqDotclockDivided then (i + 1) / 2 else i

end DotRegs

namespace Dots

variable {s : Dots} {r : DotRegs} {i : DotIn} {x : Cell} {blink : BitVec 6} {scan : BitVec 5} {n : Nat}

/-- The shift registers `n` enables after they were loaded. -/
structure Shifting (s : Dots) (r : DotRegs) (x : Cell) (blink : BitVec 6) (scan : BitVec 5) (n : Nat) : Prop where
  cnt : s.planeShiftCnt = BitVec.ofNat 6 (n + 1)
  plane : ∀ p j, (s.planeShift p).getMsbD j = (planeShiftValue r.graphShiftMode x.bytes p).getMsbD (j + r.shiftsBefore n)
  text : ∀ j, s.planeTxtShift.getMsbD j = (x.text r blink scan).getMsbD (j + r.shiftsBefore n)
  foreground : s.txtForeground = r.foreground (x.bytes 1)
  background : s.txtBackground = r.background (x.bytes 1)
  ram : n + 1 < r.fetch.raster.charTime → s.planeRam = x.bytes
  last : 0 < r.shiftsBefore n → s.pelInputLast = x.dot r blink scan (r.shiftsBefore n - 1) ∧
    s.pelLineGraphicChar = DotRegs.lineGraphicChar (x.bytes 0) ∧ s.pelBackground = r.background (x.bytes 1)

theorem Shifting.enable (h : s.Shifting r x blink scan n) (hn : n < r.fetch.raster.charTime) :
    s.planeShiftEnable r = decide (r.fetch.raster.seqDotclockDivided = true → n % 2 = 0) := by
  have htime := r.fetch.raster.charTime_le
  have hcnt : s.planeShiftCnt.toNat = n + 1 := by
    rw [h.cnt, BitVec.toNat_ofNat, Nat.mod_eq_of_lt (by omega)]
  have hpos : decide (1 ≤ s.planeShiftCnt) = true := decide_eq_true (BitVec.le_def.2 (by rw [hcnt]; exact Nat.succ_pos n))
  unfold planeShiftEnable
  rw [hpos, getLsbD_zero_eq, hcnt]
  cases r.fetch.raster.seqDotclockDivided with
  | false => simp
  | true =>
    rw [Bool.not_true, Bool.false_and, Bool.false_or, Bool.true_and, Bool.true_and, decide_eq_decide]
    exact ⟨fun hodd _ => by omega, fun heven => by have := heven rfl; omega⟩

theorem Shifting.pelInput (h : s.Shifting r x blink scan n) (hn : n < r.fetch.raster.charTime)
    (henable : s.planeShiftEnable r = true)
    (hunder : 8 ≤ r.shiftsBefore n → r.underlined (s.planeRam 1) s.fetch.rowScanReg = r.underlined x.nextAttr scan) :
    s.pelInput r = x.dot r blink scan (r.shiftsBefore n) := by
  have htime := r.fetch.raster.charTime_le
  have heven := of_decide_eq_true ((h.enable hn).symm.trans henable)
  have hninth : s.planeShift9dot r = true ↔ ¬ r.shiftsBefore n < 8 := by
    have hcnt : ∀ v : BitVec 6, (s.planeShiftCnt == v) = true ↔ n + 1 = v.toNat := fun v => by
      rw [beq_iff_eq, h.cnt, ← BitVec.toNat_inj, BitVec.toNat_ofNat, Nat.mod_eq_of_lt (by omega)]
    unfold planeShift9dot DotRegs.shiftsBefore
    rw [henable, Bool.or_eq_true, Bool.and_eq_true, Bool.and_eq_true, Bool.and_eq_true, Bool.and_eq_true, hcnt, hcnt]
    unfold RasterRegs.charTime RasterRegs.charDots at hn
    cases hdivided : r.fetch.raster.seqDotclockDivided <;> cases hdots : r.fetch.raster.seq8dotChar <;>
      simp [hdivided, hdots] at hn heven ⊢ <;> omega
  unfold Dots.pelInput Cell.dot
  by_cases hbyte : r.shiftsBefore n < 8
  · have hno := Bool.eq_false_of_not_eq_true (fun hyes => hninth.1 hyes hbyte)
    have htop : ∀ v : BitVec 8, v.getLsbD 7 = v.getMsbD 0 := fun v => rfl
    rw [hno, Bool.false_and, if_neg Bool.false_ne_true, if_neg Bool.false_ne_true, if_pos hbyte, Cell.byteDot]
    simp only [htop, h.plane, h.text, Nat.zero_add, h.foreground, h.background]
  · have hpos : 0 < r.shiftsBefore n := by omega
    obtain ⟨hlast, hgraphic, hback⟩ := h.last hpos
    have hseven : r.shiftsBefore n - 1 = 7 := by
      unfold DotRegs.shiftsBefore at hbyte ⊢
      unfold RasterRegs.charTime RasterRegs.charDots at hn
      cases hdivided : r.fetch.raster.seqDotclockDivided <;> cases hdots : r.fetch.raster.seq8dotChar <;>
        simp [hdivided, hdots] at hn heven hbyte ⊢ <;> omega
    rw [hninth.2 hbyte, Bool.true_and, if_neg hbyte, hunder (Nat.not_lt.1 hbyte), hgraphic, hback, hlast, hseven, if_pos rfl]
    rfl

theorem shiftsBefore_succ (n : Nat) :
    r.shiftsBefore (n + 1) =
      if r.fetch.raster.seqDotclockDivided = true → n % 2 = 0 then r.shiftsBefore n + 1 else r.shiftsBefore n := by
  unfold DotRegs.shiftsBefore
  cases r.fetch.raster.seqDotclockDivided with
  | false => simp
  | true =>
    simp only [if_pos, true_implies]
    split <;> omega

/-- Until the last enable of the column. -/
theorem Shifting.next (h : s.Shifting r x blink scan n) (hn : n + 1 < r.fetch.raster.charTime)
    (hload : s.fetch.stepB = false) (hram : n + 2 < r.fetch.raster.charTime → s.fetch.stepA = false)
    (hunder : 8 ≤ r.shiftsBefore n → r.underlined (s.planeRam 1) s.fetch.rowScanReg = r.underlined x.nextAttr scan) :
    (s.next r i).Shifting r x blink scan (n + 1) := by
  have htime := r.fetch.raster.charTime_le
  have henable := h.enable (Nat.lt_of_succ_lt hn)
  have hsucc := shiftsBefore_succ (r := r) n
  refine ⟨?_, fun p j => ?_, fun j => ?_, ?_, ?_, fun hlate => ?_, fun hpos => ?_⟩
  · show (if s.fetch.stepB then _ else if s.planeShiftCnt == 34 then _ else if s.planeShiftCnt != 0 then _ else _) = _
    have hlast : BitVec.ofNat 6 (n + 1) ≠ 34 := ofNat_ne_ofNat (n := 34) (by omega) (by decide) (by omega)
    have hnone : BitVec.ofNat 6 (n + 1) ≠ 0 := ofNat_ne_ofNat (n := 0) (by omega) (by decide) (by omega)
    rw [hload, if_neg Bool.false_ne_true, h.cnt, if_neg (mt beq_iff_eq.1 hlast), if_pos (bne_iff_ne.2 hnone), ← ofNat_succ]
  · show (if s.fetch.stepB then _ else if s.planeShiftEnable r then _ else _ : BitVec 8).getMsbD j = _
    rw [hload, if_neg Bool.false_ne_true, henable, hsucc]
    split
    case isTrue hyes => rw [if_pos (of_decide_eq_true hyes), shifted_getMsbD, h.plane, Nat.add_assoc, Nat.add_comm 1]
    case isFalse hno => rw [if_neg (mt decide_eq_true hno), h.plane]
  · show (if s.fetch.stepB then _ else if s.planeShiftEnable r then _ else _ : BitVec 8).getMsbD j = _
    rw [hload, if_neg Bool.false_ne_true, henable, hsucc]
    split
    case isTrue hyes => rw [if_pos (of_decide_eq_true hyes), shifted_getMsbD, h.text, Nat.add_assoc, Nat.add_comm 1]
    case isFalse hno => rw [if_neg (mt decide_eq_true hno), h.text]
  · show (if s.fetch.stepB then _ else s.txtForeground) = _
    rw [hload, if_neg Bool.false_ne_true, h.foreground]
  · show (if s.fetch.stepB then _ else s.txtBackground) = _
    rw [hload, if_neg Bool.false_ne_true, h.background]
  · show (if s.fetch.stepA then _ else s.planeRam) = _
    rw [hram hlate, if_neg Bool.false_ne_true, h.ram hn]
  · show (if s.planeShiftEnable r then _ else s.pelInputLast) = _ ∧
      (if s.planeShiftEnable r then _ else s.pelLineGraphicChar) = _ ∧
      (if s.planeShiftEnable r then _ else s.pelBackground) = _
    rw [hsucc] at hpos ⊢
    by_cases hyes : r.fetch.raster.seqDotclockDivided = true → n % 2 = 0
    · have hon : s.planeShiftEnable r = true := henable.trans (decide_eq_true hyes)
      rw [if_pos hyes, hon, if_pos rfl, if_pos rfl, if_pos rfl, Nat.add_sub_cancel, h.ram hn, h.background,
        h.pelInput (Nat.lt_of_succ_lt hn) hon hunder]
      exact ⟨rfl, rfl, rfl⟩
    · have hoff : s.planeShiftEnable r = false := henable.trans (decide_eq_false hyes)
      rw [if_neg hyes] at hpos ⊢
      rw [hoff, if_neg Bool.false_ne_true, if_neg Bool.false_ne_true, if_neg Bool.false_ne_true]
      exact h.last hpos

/-- A column about to be loaded into the shift registers. -/
structure Latched (s : Dots) (x : Cell) (blink : BitVec 6) (scan : BitVec 5) : Prop where
  load : s.fetch.stepB = true
  again : s.fetch.stepA = false
  bytes : s.planeRam = x.bytes
  font : s.planeRamQ 2 = x.font
  address : s.fetch.addressRegFinal = x.address
  blink : s.blinkCnt = blink
  scan : s.fetch.rowScanReg = scan

theorem Latched.shifting (h : s.Latched x blink scan) : (s.next r i).Shifting r x blink scan 0 := by
  have hnone : r.shiftsBefore 0 = 0 := by
    unfold DotRegs.shiftsBefore
    split <;> rfl
  refine ⟨?_, fun p j => ?_, fun j => ?_, ?_, ?_, fun _ => ?_, fun hpos => absurd hnone (Nat.pos_iff_ne_zero.1 hpos)⟩
  · show (if s.fetch.stepB then _ else _) = _
    rw [h.load]
    rfl
  · show (if s.fetch.stepB then _ else _ : BitVec 8).getMsbD j = _
    rw [h.load, if_pos rfl, h.bytes, hnone, Nat.add_zero]
  · show (if s.fetch.stepB then _ else _ : BitVec 8).getMsbD j = _
    rw [h.load, if_pos rfl, h.bytes, h.blink, h.address, h.scan, h.font, hnone, Nat.add_zero]
    rfl
  · show (if s.fetch.stepB then _ else _) = _
    rw [h.load, if_pos rfl, h.bytes]
  · show (if s.fetch.stepB then _ else _) = _
    rw [h.load, if_pos rfl, h.bytes]
  · show (if s.fetch.stepA then _ else _) = _
    rw [h.again, if_neg Bool.false_ne_true, h.bytes]

end Dots

end Z486.Video
