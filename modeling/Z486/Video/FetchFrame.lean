/-
The addresses fetched over the frames of the VGA (src/soc/vga.v). Each scanline of the picture is loaded two characters
before the first of its characters is displayed, with the address its row asks for; from then on the address goes on by one
for each character until the last one that can be panned into the picture, and the next scanline finds what this one has
left. All scanlines of a frame are of the start address that was latched with the vertical retrace before it.
-/
import Z486.Clocked.Pipeline
import Z486.Video.FetchAddress

namespace Z486.Video

open Clocked Scanlines

/-! ## The loads of a line -/

namespace FetchRegs

variable (r : FetchRegs)

/-- The picture ends before the retraces, and two characters are left before it to fill the pipeline. -/
structure Fits : Prop where
  ordered : Raster.Ordered r.raster
  porch : r.raster.retraceChar + 2 ≤ r.raster.lastChar

/-- The enables from the retrace of a line to the first load of the next. -/
def fetchTime : Nat := (r.raster.lastChar - 2 - r.raster.retraceChar) * r.raster.charTime + r.loadPhase + 1

/-- The columns that are fetched of a scanline. -/
def columns : Nat := r.raster.horizontalDisplaySize.toNat + 2

theorem loadPhase_lt : r.loadPhase + 5 ≤ r.raster.charTime := by
  unfold loadPhase RasterRegs.charTime RasterRegs.charDots
  cases r.raster.seq8dotChar <;> cases r.raster.seqDotclockDivided <;> decide

end FetchRegs

namespace Fetch

variable {r : FetchRegs}

theorem dotMemoryLoadDotCnt_iff {f : Fetch} (h : f.raster.Within r.raster) :
    f.dotMemoryLoadDotCnt r = true ↔ f.raster.phase r.raster = r.loadPhase := by
  have hdot := h.dot
  have heq : ∀ v : BitVec 4, (f.raster.dotCnt == v) = true ↔ f.raster.dotCnt.toNat = v.toNat := fun v => by
    rw [beq_iff_eq, BitVec.toNat_inj]
  unfold dotMemoryLoadDotCnt Raster.dotCntEnable Raster.phase FetchRegs.loadPhase FetchRegs.loadDot
  unfold Raster.lastDot at hdot
  rw [Bool.and_eq_true, heq]
  cases hdots : r.raster.seq8dotChar <;> cases hdivided : r.raster.seqDotclockDivided <;>
    cases hdiv : f.raster.dotCntDiv <;> simp [hdots] at hdot ⊢ <;> omega

/-- The load dot of a character is there for one enable. -/
theorem loadDot_once {f : Fetch} (h : f.raster.Within r.raster) (i : StartIn) (hdot : f.dotMemoryLoadDotCnt r = true) :
    (f.next r i).dotMemoryLoadDotCnt r = false := by
  have hphase := r.loadPhase_lt
  have hat := (dotMemoryLoadDotCnt_iff h).1 hdot
  refine Bool.eq_false_of_not_eq_true fun hagain => ?_
  have hnext : (f.raster.next r.raster).phase r.raster = r.loadPhase := (dotMemoryLoadDotCnt_iff h.next).1 hagain
  rw [h.phase_next, if_neg (mt h.characterLastDot_iff.1 (by omega))] at hnext
  omega

/-! ## The fetch after `n` enables -/

/-- The fetch after `n` enables, with the registers held but for the start address. -/
def after (f₀ : Fetch) (r : FetchRegs) (inp : Nat → StartIn) (n : Nat) : Fetch := run (fun f i => f.next r i) f₀ inp n

theorem raster_after (f₀ : Fetch) (r : FetchRegs) (inp : Nat → StartIn) (n : Nat) :
    (f₀.after r inp n).raster = f₀.raster.after r.raster n := by
  induction n with
  | zero => rfl
  | succ n ih =>
    show ((f₀.after r inp n).raster).next r.raster = _
    rw [ih]
    rfl

section Frame

variable {f₀ : Fetch} (inp : Nat → StartIn) (h : f₀.raster.Wraps r.raster) (hr : r.Fits)
include h hr

/-- Where the raster is `e` enables after the first load for line `k`. -/
theorem pos_at (k e : Nat) :
    (f₀.after r inp (k * r.raster.lineTime + r.fetchTime + e)).raster.pos r.raster =
      ((r.raster.lastChar - 1) * r.raster.charTime + (r.loadPhase + e)) % r.raster.lineTime := by
  have hporch := hr.porch
  have hge := Raster.advanceTime_ge (r := r.raster)
  have hsum : r.raster.advanceTime - 1 + (k * r.raster.lineTime + r.fetchTime + e) =
      r.raster.lineTime * k + ((r.raster.lastChar - 1) * r.raster.charTime + (r.loadPhase + e)) := by
    have hchars : (r.raster.lastChar - 1) * r.raster.charTime =
        r.raster.advanceTime + (r.raster.lastChar - 2 - r.raster.retraceChar) * r.raster.charTime := by
      unfold RasterRegs.advanceTime
      rw [← Nat.add_mul]
      congr 1
      omega
    rw [hchars, Nat.mul_comm]
    unfold FetchRegs.fetchTime
    omega
  rw [raster_after, h.pos_after, hsum, Nat.mul_add_mod]

theorem loadDot_at (k e : Nat) :
    (f₀.after r inp (k * r.raster.lineTime + r.fetchTime + e)).dotMemoryLoadDotCnt r = decide (e % r.raster.charTime = 0) := by
  have hphase := r.loadPhase_lt
  have hw : (f₀.after r inp (k * r.raster.lineTime + r.fetchTime + e)).raster.Within r.raster := by
    rw [raster_after]
    exact (h.latched_after _).toWithin
  rw [Bool.eq_iff_iff, decide_eq_true_iff, dotMemoryLoadDotCnt_iff hw, ← hw.pos_mod, pos_at _ h hr,
    RasterRegs.lineTime, Nat.mod_mod_of_dvd _ (Nat.dvd_mul_left _ _), Nat.mul_comm (r.raster.lastChar - 1),
    Nat.mul_add_mod, add_mod_eq_iff (by omega)]

/-- Column `c` is fetched within its character. -/
theorem horizCnt_at (k c : Nat) {d : Nat} (hd : r.loadPhase + d < r.raster.charTime) :
    (f₀.after r inp (k * r.raster.lineTime + r.fetchTime + (c * r.raster.charTime + d))).raster.horizCnt.toNat =
      (r.raster.lastChar - 1 + c) % (r.raster.lastChar + 1) := by
  have hw : (f₀.after r inp (k * r.raster.lineTime + r.fetchTime + (c * r.raster.charTime + d))).raster.Within
      r.raster := by
    rw [raster_after]
    exact (h.latched_after _).toWithin
  have hsum : (r.raster.lastChar - 1) * r.raster.charTime + (r.loadPhase + (c * r.raster.charTime + d)) =
      r.raster.charTime * (r.raster.lastChar - 1 + c) + (r.loadPhase + d) := by
    rw [Nat.mul_add, Nat.mul_comm c, Nat.mul_comm (r.raster.lastChar - 1)]
    omega
  rw [← hw.pos_div, pos_at _ h hr, RasterRegs.lineTime, hsum, Nat.mul_comm (r.raster.lastChar + 1),
    Nat.mod_mul_right_div_self, Nat.mul_add_div (by omega), Nat.div_eq_of_lt hd, Nat.add_zero]

/-- The scanline counter stays where it is while the columns are fetched. -/
theorem lines_at (k : Nat) {e : Nat} (he : e ≤ (r.raster.horizontalDisplaySize.toNat + 1) * r.raster.charTime + 4) :
    (f₀.after r inp (k * r.raster.lineTime + r.fetchTime + e)).raster.lines = line r.raster.scanlines k := by
  have hporch := hr.porch
  have hphase := r.loadPhase_lt
  have hchars := hr.ordered.chars
  have hline := h.lineTime_ge
  have hsum : k * r.raster.lineTime + r.fetchTime + e =
      k * r.raster.lineTime + ((r.raster.lastChar - 2 - r.raster.retraceChar) * r.raster.charTime + r.loadPhase + e) + 1 := by
    unfold FetchRegs.fetchTime
    omega
  have hlt : (r.raster.lastChar - 2 - r.raster.retraceChar) * r.raster.charTime + r.loadPhase + e < r.raster.lineTime := by
    have hle : (r.raster.lastChar - 2 - r.raster.retraceChar) * r.raster.charTime +
        (r.raster.horizontalDisplaySize.toNat + 1) * r.raster.charTime ≤ r.raster.lastChar * r.raster.charTime := by
      rw [← Nat.add_mul]
      exact Nat.mul_le_mul_right _ (by omega)
    unfold RasterRegs.lineTime
    rw [Nat.succ_mul]
    omega
  rw [raster_after, hsum, h.lines_after, Nat.mul_comm, Nat.mul_add_div (by omega), Nat.div_eq_of_lt hlt, Nat.add_zero]

/-- The row of line `k` is within the picture. -/
def Shown (r : FetchRegs) (k : Nat) : Prop := (line r.raster.scanlines k).vde r.raster.scanlines = true

theorem horizCnt_column (k : Nat) {c d : Nat} (hc : c ≤ r.raster.lastChar) (hd : r.loadPhase + d < r.raster.charTime) :
    let f := f₀.after r inp (k * r.raster.lineTime + r.fetchTime + (c * r.raster.charTime + d))
    (f.raster.horiz2ndToLastCnt r.raster = true ↔ c = 0) ∧ (f.horizLineFetch r = true ↔ c < r.columns) := by
  intro f
  have hcnt : f.raster.horizCnt.toNat = _ := horizCnt_at _ h hr k c hd
  have hporch := hr.porch
  have hchars := hr.ordered.chars
  have hlast : f.raster.horizLastCnt r.raster = true ↔ f.raster.horizCnt.toNat = r.raster.lastChar := by
    unfold Raster.horizLastCnt RasterRegs.lastChar
    rw [beq_iff_eq, BitVec.toNat_inj]
  have h2nd : f.raster.horiz2ndToLastCnt r.raster = true ↔ f.raster.horizCnt.toNat = r.raster.lastChar - 1 := by
    have hpred : (r.raster.horizTotal - 1).toNat = r.raster.lastChar - 1 := by
      have hlt := r.raster.horizTotal.isLt
      unfold RasterRegs.lastChar at *
      rw [BitVec.toNat_sub]
      show (2 ^ 9 - 1 + _) % _ = _
      omega
    unfold Raster.horiz2ndToLastCnt
    rw [beq_iff_eq, ← hpred, BitVec.toNat_inj]
  have hde : f.raster.hde r.raster = true ↔ f.raster.horizCnt.toNat < r.raster.horizontalDisplaySize.toNat := by
    unfold Raster.hde
    rw [decide_eq_true_iff, BitVec.lt_def, BitVec.toNat_setWidth_of_le (by omega)]
  have hmod : (r.raster.lastChar - 1 + c) % (r.raster.lastChar + 1) =
      if c < 2 then r.raster.lastChar - 1 + c else c - 2 := by
    split
    · exact Nat.mod_eq_of_lt (by omega)
    · rw [Nat.mod_eq_sub_mod (by omega), Nat.mod_eq_of_lt (by omega)]
      omega
  unfold FetchRegs.columns horizLineFetch
  rw [hmod] at hcnt
  rw [Bool.or_eq_true, Bool.or_eq_true, h2nd, hlast, hde]
  split at hcnt <;> omega

/-- The planes are read while a column is fetched. -/
theorem active_at (k : Nat) {c d : Nat} (hc : c < r.columns) (hd : d ≤ 4) (hshown : Shown r k) :
    (f₀.after r inp (k * r.raster.lineTime + r.fetchTime + (c * r.raster.charTime + d))).dotMemoryLoadActive r = true := by
  have hphase := r.loadPhase_lt
  have hporch := hr.porch
  have hchars := hr.ordered.chars
  unfold FetchRegs.columns at hc
  have hcol := (horizCnt_column inp h hr k (c := c) (d := d) (by omega) (by omega)).2
  have hle : c * r.raster.charTime ≤ (r.raster.horizontalDisplaySize.toNat + 1) * r.raster.charTime :=
    Nat.mul_le_mul_right _ (by omega)
  unfold dotMemoryLoadActive Raster.vde
  rw [hcol.2 hc, lines_at _ h hr k (by omega), Bool.true_and]
  exact hshown

theorem first_at (k : Nat) {e : Nat} (he : e < r.raster.lineTime) (hshown : Shown r k) :
    (f₀.after r inp (k * r.raster.lineTime + r.fetchTime + e)).dotMemoryLoadFirstInLine r = decide (e = 0) := by
  have hphase := r.loadPhase_lt
  unfold dotMemoryLoadFirstInLine
  rw [loadDot_at _ h hr]
  by_cases hdot : e % r.raster.charTime = 0
  · obtain ⟨c, rfl⟩ := Nat.dvd_of_mod_eq_zero hdot
    rw [Nat.mul_comm] at *
    have hc : c ≤ r.raster.lastChar := Nat.le_of_lt_succ (Nat.lt_of_mul_lt_mul_right he)
    have hcol := (horizCnt_column inp h hr k (d := 0) hc (by omega)).1
    rw [Nat.add_zero] at hcol
    rw [decide_eq_true hdot, Bool.true_and]
    by_cases hzero : c = 0
    · subst hzero
      have hvde : (f₀.after r inp (k * r.raster.lineTime + r.fetchTime + 0 * r.raster.charTime)).raster.vde r.raster = true := by
        unfold Raster.vde
        rw [lines_at _ h hr k (by omega)]
        exact hshown
      rw [hcol.2 rfl, hvde, Nat.zero_mul]
      rfl
    · rw [Bool.eq_false_of_not_eq_true (mt hcol.1 hzero), Bool.false_and]
      refine (decide_eq_false (Nat.pos_iff_ne_zero.1 ?_)).symm
      exact Nat.mul_pos (Nat.pos_of_ne_zero hzero) (by omega)
  · rw [decide_eq_false hdot, Bool.false_and, Bool.false_and]
    exact (decide_eq_false fun hzero : e = 0 => hdot (by rw [hzero, Nat.zero_mod])).symm

theorem load_at (k : Nat) {e : Nat} (he : e < r.raster.lineTime) (hshown : Shown r k) :
    (f₀.after r inp (k * r.raster.lineTime + r.fetchTime + e)).dotMemoryLoad r =
      decide (e % r.raster.charTime = 0 ∧ e / r.raster.charTime < r.columns) := by
  have hphase := r.loadPhase_lt
  unfold dotMemoryLoad
  rw [loadDot_at _ h hr, Bool.decide_and]
  by_cases hdot : e % r.raster.charTime = 0
  · obtain ⟨c, rfl⟩ := Nat.dvd_of_mod_eq_zero hdot
    rw [Nat.mul_comm] at *
    have hc : c ≤ r.raster.lastChar := Nat.le_of_lt_succ (Nat.lt_of_mul_lt_mul_right he)
    rw [decide_eq_true hdot, Bool.true_and, Bool.true_and, Nat.mul_div_cancel _ (by omega)]
    by_cases hin : c < r.columns
    · have hactive := active_at inp h hr k hin (Nat.zero_le 4) hshown
      rw [Nat.add_zero] at hactive
      rw [hactive, decide_eq_true hin]
    · have hcol := (horizCnt_column inp h hr k (d := 0) hc (by omega)).2
      rw [Nat.add_zero] at hcol
      unfold dotMemoryLoadActive
      rw [Bool.eq_false_of_not_eq_true (mt hcol.1 hin), Bool.false_and, decide_eq_false hin]
  · rw [decide_eq_false hdot, Bool.false_and, Bool.false_and]

/-- A scanline begins to be loaded at its own time only, and within the picture only. -/
theorem first_only {n : Nat} (hfirst : (f₀.after r inp n).dotMemoryLoadFirstInLine r = true) :
    ∃ k, n = k * r.raster.lineTime + r.fetchTime ∧ Shown r k := by
  have hphase := r.loadPhase_lt
  have hporch := hr.porch
  have hline := h.lineTime_ge
  have hge := Raster.advanceTime_ge (r := r.raster)
  have hw : (f₀.after r inp n).raster.Within r.raster := by
    rw [raster_after]
    exact (h.latched_after _).toWithin
  unfold dotMemoryLoadFirstInLine at hfirst
  rw [Bool.and_eq_true, Bool.and_eq_true] at hfirst
  obtain ⟨⟨hdot, h2nd⟩, hvde⟩ := hfirst
  have hchar : (f₀.after r inp n).raster.horizCnt.toNat = r.raster.lastChar - 1 := by
    have hlt := r.raster.horizTotal.isLt
    unfold Raster.horiz2ndToLastCnt at h2nd
    unfold RasterRegs.lastChar at *
    rw [eq_of_beq h2nd, BitVec.toNat_sub]
    show (2 ^ 9 - 1 + _) % _ = _
    omega
  have hpos := (hw.at_iff (c := r.raster.lastChar - 1) (p := r.loadPhase) (by omega)).2
    ⟨hchar, (dotMemoryLoadDotCnt_iff hw).1 hdot⟩
  rw [raster_after, h.pos_after] at hpos
  have hsplit := Nat.div_add_mod (r.raster.advanceTime - 1 + n) r.raster.lineTime
  rw [hpos] at hsplit
  have hchars : (r.raster.lastChar - 1) * r.raster.charTime =
      r.raster.advanceTime + (r.raster.lastChar - 2 - r.raster.retraceChar) * r.raster.charTime := by
    unfold RasterRegs.advanceTime
    rw [← Nat.add_mul]
    congr 1
    omega
  refine ⟨(r.raster.advanceTime - 1 + n) / r.raster.lineTime, ?_, ?_⟩
  · rw [hchars] at hsplit
    rw [Nat.mul_comm]
    unfold FetchRegs.fetchTime
    omega
  · have hn : n = (r.raster.advanceTime - 1 + n) / r.raster.lineTime * r.raster.lineTime + r.fetchTime := by
      rw [hchars] at hsplit
      rw [Nat.mul_comm]
      unfold FetchRegs.fetchTime
      omega
    have hlines := lines_at inp h hr ((r.raster.advanceTime - 1 + n) / r.raster.lineTime) (e := 0) (Nat.zero_le _)
    rw [Nat.add_zero, ← hn] at hlines
    unfold Raster.vde at hvde
    rw [hlines] at hvde
    exact hvde

end Frame

/-! ## A scanline -/

/-- A scanline of row `row`, `e` enables after its first load. -/
structure Loaded (f : Fetch) (r : FetchRegs) (start : BitVec 16) (row e : Nat) : Prop where
  address : f.address =
    r.base row start + BitVec.ofNat 16 (min ((e - 1) / r.raster.charTime) (r.raster.horizontalDisplaySize.toNat + 1))
  rowScan : f.rowScan = r.scanOf row
  double : f.rowScanDouble = r.firstOfTwo row
  startReg : f.addressStartReg = start
  preFirst : f.stepPreFirst = decide (e = 1)
  startLine : 2 ≤ e → f.startLine = r.base row start
  rowScanReg : 2 ≤ e → f.rowScanReg = r.scanOf row

section Scanline

variable {f : Fetch} {i : StartIn} {start : BitVec 16} {row e : Nat}

theorem Begun.loaded (h : Begun (f.next r i) r start row) (hload : f.dotMemoryLoadFirstInLine r = true)
    (hstart : f.addressStartReg = start) (hretrace : f.raster.dotMemoryLoadVerticalRetraceStart = false) :
    Loaded (f.next r i) r start row 1 := by
  refine ⟨?_, h.rowScan, h.double, ?_, ?_, fun hlate => absurd hlate (by decide), fun hlate => absurd hlate (by decide)⟩
  · rw [h.address, Nat.sub_self, Nat.zero_div, Nat.zero_min]
    exact (BitVec.add_zero _).symm
  · show (if f.raster.dotMemoryLoadVerticalRetraceStart then i.start else f.addressStartReg) = _
    rw [hretrace, hstart]
    rfl
  · show (f.dotMemoryLoadFirstInFrame r || f.dotMemoryLoadFirstInLineMatched r || f.dotMemoryLoadFirstInLine r) = true
    rw [hload, Bool.or_true]

theorem Loaded.left (h : Loaded f r start row e) (he : 2 ≤ e) : f.Left r start row :=
  ⟨h.startLine he, h.rowScanReg he, h.double⟩

theorem Loaded.next (h : Loaded f r start row e) (he : 1 ≤ e) (hfirst : f.dotMemoryLoadFirstInLine r = false)
    (hload : f.dotMemoryLoad r = decide (e % r.raster.charTime = 0 ∧ e / r.raster.charTime < r.columns))
    (hretrace : f.raster.dotMemoryLoadVerticalRetraceStart = false) : Loaded (f.next r i) r start row (e + 1) := by
  have hmatched : f.dotMemoryLoadFirstInLineMatched r = false := by
    unfold dotMemoryLoadFirstInLineMatched
    rw [hfirst, Bool.false_and]
  have hframe : f.dotMemoryLoadFirstInFrame r = false := by
    unfold dotMemoryLoadFirstInFrame
    rw [hfirst, Bool.false_and]
  have hone : e = 1 → f.address = r.base row start := by
    intro hone
    rw [h.address, hone, Nat.sub_self, Nat.zero_div, Nat.zero_min]
    exact BitVec.add_zero _
  refine ⟨?_, ?_, ?_, ?_, ?_, fun _ => ?_, fun _ => ?_⟩
  · show f.addressNext r = _
    unfold addressNext
    obtain ⟨k, rfl⟩ : ∃ k, e = k + 1 := ⟨e - 1, by omega⟩
    rw [hmatched, hframe, hfirst, hload, h.address, Nat.add_sub_cancel, Nat.add_sub_cancel, Nat.succ_div,
      if_neg Bool.false_ne_true, if_neg Bool.false_ne_true, if_neg Bool.false_ne_true]
    unfold FetchRegs.columns
    by_cases hdot : r.raster.charTime ∣ k + 1
    · rw [Nat.mod_eq_zero_of_dvd hdot, if_pos hdot]
      by_cases hcol : k / r.raster.charTime + 1 < r.raster.horizontalDisplaySize.toNat + 2
      · rw [decide_eq_true ⟨rfl, hcol⟩, if_pos rfl, Nat.min_eq_left (by omega), Nat.min_eq_left (by omega), ofNat_succ,
          BitVec.add_assoc]
      · rw [decide_eq_false fun hboth => hcol hboth.2, if_neg Bool.false_ne_true, Nat.min_eq_right (by omega),
          Nat.min_eq_right (by omega)]
    · rw [decide_eq_false fun hboth => hdot (Nat.dvd_of_mod_eq_zero hboth.1), if_neg Bool.false_ne_true, if_neg hdot]
      rfl
  · show f.rowScanNext r = _
    unfold rowScanNext
    rw [hmatched, hframe, hfirst, if_neg Bool.false_ne_true, if_neg Bool.false_ne_true, if_neg Bool.false_ne_true, h.rowScan]
  · show f.rowScanDoubleNext r = _
    unfold rowScanDoubleNext
    rw [hmatched, hframe, hfirst, hretrace, h.double, FetchRegs.firstOfTwo]
    cases r.verticalDoublescan <;> rfl
  · show (if f.raster.dotMemoryLoadVerticalRetraceStart then i.start else f.addressStartReg) = _
    rw [hretrace, h.startReg]
    rfl
  · show (f.dotMemoryLoadFirstInFrame r || f.dotMemoryLoadFirstInLineMatched r || f.dotMemoryLoadFirstInLine r) = _
    rw [hframe, hmatched, hfirst]
    exact (decide_eq_false (by omega)).symm
  · show (if f.stepPreFirst then f.address else f.startLine) = _
    rw [h.preFirst]
    by_cases h1 : e = 1
    · rw [decide_eq_true h1, if_pos rfl, hone h1]
    · rw [decide_eq_false h1, if_neg Bool.false_ne_true, h.startLine (by omega)]
  · show (if f.stepPreFirst then f.rowScan else f.rowScanReg) = _
    rw [h.preFirst]
    by_cases h1 : e = 1
    · rw [decide_eq_true h1, if_pos rfl, h.rowScan]
    · rw [decide_eq_false h1, if_neg Bool.false_ne_true, h.rowScanReg (by omega)]

end Scanline

/-! ## The scanlines of a frame -/

section Frame

variable {f₀ : Fetch} (inp : Nat → StartIn) (h : f₀.raster.Wraps r.raster) (hr : r.Fits)
include h hr

omit h in
theorem fetchTime_le : r.fetchTime ≤ r.raster.lineTime := by
  have hphase := r.loadPhase_lt
  have hporch := hr.porch
  have hle := Nat.mul_le_mul_right r.raster.charTime
    (show r.raster.lastChar - 2 - r.raster.retraceChar ≤ r.raster.lastChar by omega)
  unfold FetchRegs.fetchTime RasterRegs.lineTime
  rw [Nat.succ_mul]
  omega

/-- While the rows are within the picture the vertical retrace does not start. -/
theorem no_retraceStart {k n : Nat} (hk : ∀ j, j ≤ k → Shown r j) (hpos : 0 < n) (hn : n < (k + 2) * r.raster.lineTime) :
    (f₀.after r inp n).raster.dotMemoryLoadVerticalRetraceStart = false := by
  have hline := h.lineTime_ge
  have hsize := BitVec.lt_def.1 hr.ordered.picture
  obtain ⟨n, rfl⟩ : ∃ m, n = m + 1 := ⟨n - 1, by omega⟩
  refine Bool.eq_false_of_not_eq_true fun hstart => ?_
  rw [raster_after] at hstart
  obtain ⟨⟨q, hq⟩, hrow⟩ := h.retraceStart_row hstart
  have hqk : q ≤ k + 1 := by
    rw [hq, Nat.mul_comm] at hn
    exact Nat.le_of_lt_succ (Nat.lt_of_mul_lt_mul_right hn)
  have hqk' : n / r.raster.lineTime ≤ k := by
    refine Nat.le_of_lt_succ ((Nat.div_lt_iff_lt_mul (by omega)).2 ?_)
    have := Nat.mul_le_mul_left r.raster.lineTime hqk
    rw [Nat.mul_comm]
    show n < r.raster.lineTime * (k + 1)
    omega
  have hle := vde_iff.1 (hk _ hqk')
  have hdisplay : r.raster.scanlines.displaySize.toNat = r.raster.verticalDisplaySize.toNat := rfl
  omega

/-- The start address for the frame is the one that the register holds when it begins. -/
theorem startReg_at {n : Nat} (hshown : Shown r 0) (hpos : 0 < n) (hn : n ≤ r.fetchTime) :
    (f₀.after r inp n).addressStartReg = (f₀.after r inp 1).addressStartReg := by
  have hfetch := fetchTime_le hr
  have hline := h.lineTime_ge
  induction n, hpos using Nat.le_induction with
  | base => rfl
  | succ n hpos ih =>
    rw [← ih (by omega)]
    show (if (f₀.after r inp n).raster.dotMemoryLoadVerticalRetraceStart then _ else _) = _
    rw [no_retraceStart _ h hr (k := 0) (fun j hj => Nat.le_zero.1 hj ▸ hshown) hpos (by omega)]
    rfl

/-- What is loaded at the start of a scanline stays for the whole of it. -/
theorem loaded_along {start : BitVec 16} {row k e : Nat} (hk : ∀ j, j ≤ k → Shown r j)
    (hone : Loaded (f₀.after r inp (k * r.raster.lineTime + r.fetchTime + 1)) r start row 1) (hpos : 1 ≤ e)
    (he : e ≤ r.raster.lineTime) : Loaded (f₀.after r inp (k * r.raster.lineTime + r.fetchTime + e)) r start row e := by
  have hfetch := fetchTime_le hr
  induction e, hpos using Nat.le_induction with
  | base => exact hone
  | succ e hpos ih =>
    refine (ih (by omega)).next hpos ?_ ?_ ?_
    · rw [first_at _ h hr k (by omega) (hk k (Nat.le_refl k))]
      exact decide_eq_false (by omega)
    · exact load_at _ h hr k (by omega) (hk k (Nat.le_refl k))
    · refine no_retraceStart _ h hr hk (by omega) ?_
      rw [Nat.add_mul]
      omega

/-- The row of line `k`. -/
def rowAt (r : FetchRegs) (k : Nat) : Nat := (line r.raster.scanlines k).vertCnt.toNat

omit h in
/-- From a line of the picture to the next the row stays or goes on by one. -/
theorem rowAt_succ {k : Nat} (hlast : k + 1 < r.raster.frameLines) (hk : Shown r k) :
    rowAt r (k + 1) = rowAt r k ∨ rowAt r (k + 1) = rowAt r k + 1 := by
  have hpicture := BitVec.lt_def.1 hr.ordered.picture
  have hrows := r.raster.verticalRetraceStart.isLt
  have halong := hr.ordered.frame.line_along (Nat.lt_of_succ_lt hlast)
  have hnot := Bool.eq_false_of_not_eq_true (mt (hr.ordered.frame.last_iff halong).1 (by omega))
  have hin := vde_iff.1 hk
  have hdisplay : r.raster.scanlines.displaySize.toNat = r.raster.verticalDisplaySize.toNat := rfl
  rcases advance_row hnot (by omega) with hnext | hheld
  · exact .inr hnext
  · exact .inl (congrArg BitVec.toNat hheld.1)

theorem loaded_at {k e : Nat} (hlast : k < r.raster.frameLines) (hk : ∀ j, j ≤ k → Shown r j) (hpos : 1 ≤ e)
    (he : e ≤ r.raster.lineTime) :
    Loaded (f₀.after r inp (k * r.raster.lineTime + r.fetchTime + e)) r (f₀.after r inp 1).addressStartReg (rowAt r k) e := by
  have hfetch := fetchTime_le hr
  have hline := h.lineTime_ge
  have hpicture := BitVec.lt_def.1 hr.ordered.picture
  have hrows := r.raster.verticalRetraceStart.isLt
  induction k generalizing e with
  | zero =>
    refine loaded_along _ h hr hk ?_ hpos he
    have hpos : 0 < r.fetchTime := Nat.succ_pos _
    have hload := first_at inp h hr 0 (e := 0) (by omega) (hk 0 (Nat.le_refl 0))
    have hrow := lines_at inp h hr 0 (e := 0) (Nat.zero_le _)
    rw [Nat.zero_mul, Nat.zero_add, Nat.add_zero] at hload hrow
    have hbegun := begun_first 0 (i := inp r.fetchTime) hload (by rw [hrow]; rfl) (.inl rfl)
    rw [startReg_at _ h hr (hk 0 (Nat.le_refl 0)) hpos (Nat.le_refl _)] at hbegun
    rw [Nat.zero_mul, Nat.zero_add]
    exact hbegun.loaded hload (startReg_at _ h hr (hk 0 (Nat.le_refl 0)) hpos (Nat.le_refl _))
      (no_retraceStart _ h hr (k := 0) hk hpos (by omega))
  | succ k ih =>
    have hk' : ∀ j, j ≤ k → Shown r j := fun j hj => hk j (Nat.le_succ_of_le hj)
    refine loaded_along _ h hr hk ?_ hpos he
    have hbefore := ih (Nat.lt_of_succ_lt hlast) hk' (e := r.raster.lineTime) (by omega) (Nat.le_refl _)
    have hload := first_at inp h hr (k + 1) (e := 0) (by omega) (hk (k + 1) (Nat.le_refl _))
    have hrow := lines_at inp h hr (k + 1) (e := 0) (Nat.zero_le _)
    have hsame : k * r.raster.lineTime + r.fetchTime + r.raster.lineTime = (k + 1) * r.raster.lineTime + r.fetchTime := by
      rw [Nat.succ_mul]
      omega
    rw [Nat.add_zero] at hload hrow
    rw [hsame] at hbefore
    have hretrace := no_retraceStart inp h hr hk (n := (k + 1) * r.raster.lineTime + r.fetchTime) (by omega) (by
      show _ < (k + 1 + 2) * _
      rw [Nat.add_mul (k + 1)]
      omega)
    -- the first scanlines of the two parts of the picture do not go by the one before
    have hbegun : Begun ((f₀.after r inp ((k + 1) * r.raster.lineTime + r.fetchTime)).next r
        (inp ((k + 1) * r.raster.lineTime + r.fetchTime))) r (f₀.after r inp 1).addressStartReg (rowAt r (k + 1)) := by
      by_cases hfirst : rowAt r (k + 1) = 0 ∨ rowAt r (k + 1) = r.splitRow.toNat
      · have hbegun := begun_first (rowAt r (k + 1)) (i := inp ((k + 1) * r.raster.lineTime + r.fetchTime)) hload
          (by rw [hrow]; rfl) hfirst
        rwa [hbefore.startReg] at hbegun
      · obtain ⟨hzero, hsplit⟩ := not_or.1 hfirst
        have hzero' : (line r.raster.scanlines (k + 1)).vertCnt ≠ 0 := fun heq => hzero (by unfold rowAt; rw [heq]; rfl)
        have hsplit' : (line r.raster.scanlines (k + 1)).vertCnt ≠ r.splitRow := fun heq =>
          hsplit (by unfold rowAt; rw [heq])
        rw [← hrow] at hzero' hsplit'
        have hgo : line r.raster.scanlines (k + 1) = (line r.raster.scanlines k).advance r.raster.scanlines := rfl
        have halong := hr.ordered.frame.line_along (Nat.lt_of_succ_lt hlast)
        have hnot := Bool.eq_false_of_not_eq_true (mt (hr.ordered.frame.last_iff halong).1 (by omega))
        have hin := vde_iff.1 (hk k (Nat.le_succ k))
        have hdisplay : r.raster.scanlines.displaySize.toNat = r.raster.verticalDisplaySize.toNat := rfl
        cases hrep : (line r.raster.scanlines k).vzRepNext r.raster.scanlines with
        | true =>
          rw [Scanlines.advance_held hnot hrep] at hgo
          have hsamerow : rowAt r (k + 1) = rowAt r k := by
            unfold rowAt
            rw [hgo]
          rw [hsamerow]
          exact (hbefore.left (by omega)).begun_held hzero' hsplit' hload (by rw [hrow, hgo]) hretrace
        | false =>
          rw [Scanlines.advance_next hnot hrep] at hgo
          have hnextrow : rowAt r (k + 1) = rowAt r k + 1 := by
            unfold rowAt
            rw [hgo]
            exact toNat_succ (by omega)
          rw [hnextrow]
          exact (hbefore.left (by omega)).begun_next hzero' hsplit' hload (hnextrow ▸ hsplit) (by rw [hrow, hgo])
    exact hbegun.loaded hload hbefore.startReg hretrace

/-! ## The start address -/

omit h hr in
theorem startReg_next (n : Nat) :
    (f₀.after r inp (n + 1)).addressStartReg =
      if (f₀.raster.after r.raster n).dotMemoryLoadVerticalRetraceStart then (inp n).start
      else (f₀.after r inp n).addressStartReg := by
  rw [← raster_after f₀ r inp]
  rfl

/-- The next frame has the start address that the registers held when the vertical retrace started. -/
theorem startReg_next_frame :
    (f₀.after r inp (r.raster.frameTime + 1)).addressStartReg = (inp r.raster.retraceTime).start := by
  obtain ⟨⟨hframe, hpicture, hroom, -, -⟩, hrows⟩ := hr.ordered
  have hle : r.raster.retraceTime < r.raster.frameTime := by
    have hline := h.lineTime_ge
    exact Nat.mul_lt_mul_of_pos_right (by unfold RasterRegs.retraceLines at hroom; omega) (by omega)
  have hkeeps : ∀ n, r.raster.retraceTime < n → n ≤ r.raster.frameTime + 1 →
      (f₀.after r inp n).addressStartReg = (inp r.raster.retraceTime).start := by
    intro n hn
    induction n, hn using Nat.le_induction with
    | base =>
      intro _
      rw [startReg_next, h.retraceStart_at hframe hpicture hrows hroom, if_pos rfl]
    | succ n hn ih =>
      intro hend
      rw [startReg_next, h.no_retraceStart hframe hpicture hn (by omega), if_neg Bool.false_ne_true]
      exact ih (by omega)
  exact hkeeps _ (by omega) (Nat.le_refl _)

omit h hr in
theorem after_add (f₀ : Fetch) (r : FetchRegs) (inp : Nat → StartIn) (m n : Nat) :
    f₀.after r inp (m + n) = (f₀.after r inp m).after r (fun u => inp (m + u)) n :=
  run_add _ f₀ inp m n

/-! ## What is fetched -/

omit h hr in
/-- Column `c` of a scanline of row `row` is about to be read from the planes. -/
structure Fetches (f : Fetch) (r : FetchRegs) (start : BitVec 16) (row c : Nat) : Prop where
  reads : f.stepPre = true
  address : f.address = r.base row start + BitVec.ofNat 16 c
  rowScan : f.rowScan = r.scanOf row

omit h hr in
/-- The enables of a frame until column `c` of line `k` is read. -/
def readTime (r : FetchRegs) (k c : Nat) : Nat := k * r.raster.lineTime + r.fetchTime + c * r.raster.charTime + 1

theorem fetches_at {k c : Nat} (hlast : k < r.raster.frameLines) (hk : ∀ j, j ≤ k → Shown r j) (hc : c < r.columns) :
    Fetches (f₀.after r inp (readTime r k c)) r (f₀.after r inp 1).addressStartReg (rowAt r k) c := by
  have htime := r.raster.charTime_ge
  have hchars := hr.ordered.chars
  have hporch := hr.porch
  have hwithin : c * r.raster.charTime < r.raster.lineTime := by
    unfold FetchRegs.columns at hc
    exact Nat.mul_lt_mul_of_pos_right (by omega) (by omega)
  have hloaded := loaded_at inp h hr hlast hk (e := c * r.raster.charTime + 1) (by omega) (by omega)
  refine ⟨?_, ?_, hloaded.rowScan⟩
  · show (f₀.after r inp (k * r.raster.lineTime + r.fetchTime + c * r.raster.charTime)).dotMemoryLoad r = true
    rw [load_at _ h hr k hwithin (hk k (Nat.le_refl k)), Nat.mul_mod_left, Nat.mul_div_cancel _ (by omega)]
    exact decide_eq_true ⟨rfl, hc⟩
  · have haddress := hloaded.address
    rw [Nat.add_sub_cancel, Nat.mul_div_cancel _ (by omega), Nat.min_eq_left (by unfold FetchRegs.columns at hc; omega)]
      at haddress
    exact haddress

end Frame

/-- Frame after frame, whatever the start address does in between: each column of each scanline of the picture is read at
the address of its row, from the start address of the vertical retrace before. -/
theorem run_fetches {f₀ : Fetch} (h : f₀.raster.Wraps r.raster) (hr : r.Fits) (ce : Nat → Bool) (inp : Nat → StartIn)
    {q k c t : Nat} (hlast : k < r.raster.frameLines) (hk : ∀ j, j ≤ k → Shown r j) (hc : c < r.columns)
    (ht : pulses ce 0 t = (q + 1) * r.raster.frameTime + readTime r k c) :
    Fetches (run (enabled fun f i => f.next r i) f₀ (offered ce inp) t) r
      (inp (q * r.raster.frameTime + r.raster.retraceTime)).start (rowAt r k) c := by
  rw [run_enabled, ht]
  show Fetches (f₀.after r inp _) r _ _ _
  have hwraps : ∀ m, (f₀.after r inp (m * r.raster.frameTime)).raster.Wraps r.raster := fun m => by
    rw [raster_after]
    exact h.again hr.ordered.frame m
  have hfetch := fetches_at (fun u => inp ((q + 1) * r.raster.frameTime + u)) (hwraps (q + 1)) hr hlast hk hc
  have hstart := startReg_next_frame (fun u => inp (q * r.raster.frameTime + u)) (hwraps q) hr
  rw [← after_add] at hfetch hstart
  rw [← after_add] at hfetch
  rw [← Nat.add_assoc, ← Nat.succ_mul] at hstart
  rwa [hstart] at hfetch

/-- The text mode, of 80 columns and 25 rows. -/
def textFetch : FetchRegs where
  raster := Raster.textRaster
  verticalDoublescan := false
  rowMax := 15
  rowPreset := 0
  addressOffset := 40
  lineCompare := 1023
  addressDoubleword := false
  addressByte := false
  addressBit0 := true
  addressBit13 := true
  addressBit14 := true

def textFetchEnd : Fetch := ⟨Raster.textFrameEnd, false, false, false, false, 0, 15, false, 0, 0, 15, 0⟩

theorem textFetch_fits : textFetch.Fits := ⟨Raster.textRaster_ordered, by decide⟩

/-- The second row of the text, after the page was turned. -/
theorem text_fetches :
    Fetches (run (enabled fun f i => f.next textFetch i) textFetchEnd (offered (fun _ => true) fun _ => ⟨2000, 0⟩)
      (1 * textFetch.raster.frameTime + readTime textFetch 16 0)) textFetch 2000 (rowAt textFetch 16) 0 :=
  run_fetches (q := 0) Raster.textFrameEnd_wraps textFetch_fits (fun _ => true) (fun _ => ⟨2000, 0⟩)
    (by decide) (by unfold Shown; decide) (by decide) (pulses_always _)

end Fetch

end Z486.Video
