/-
The picture that the VGA makes of its planes (src/soc/vga.v). Each place of a scanline within the display window shows the
dot that the columns of its row have there, moved by the panning: the address comes from the row, the bytes from the
planes at the time they are read, and the registers that the vertical retrace latches are those of the frame.
-/
import Z486.Video.Cells

namespace Z486.Video

open Clocked Scanlines

/-! ## What a frame keeps -/

namespace DotRegs

variable (r : DotRegs)

/-- The panning of a row, when the frame began with `pan`. -/
def panAt (pan : BitVec 4) (row : Nat) : BitVec 4 :=
  if r.attribPanningAfterCompareMatch = true ∧ r.fetch.splitRow.toNat ≤ row then 0 else pan

theorem panAt_zero (pan : BitVec 4) :
    r.panAt pan 0 = if 0 = r.fetch.splitRow.toNat ∧ r.attribPanningAfterCompareMatch = true then 0 else pan :=
  if_congr (by rw [and_comm, Nat.le_zero, eq_comm]) rfl rfl

theorem panAt_next (pan : BitVec 4) {row row' : Nat} (hrow : row' = row ∨ row' = row + 1) :
    r.panAt pan row' =
      if row' = r.fetch.splitRow.toNat ∧ r.attribPanningAfterCompareMatch = true then 0 else r.panAt pan row := by
  unfold panAt
  cases r.attribPanningAfterCompareMatch with
  | false => simp
  | true =>
    simp only [true_and, and_true]
    by_cases hat : row' = r.fetch.splitRow.toNat
    · rw [if_pos hat, if_pos (Nat.le_of_eq hat.symm)]
    · rw [if_neg hat]
      exact if_congr (by omega) rfl rfl

end DotRegs

namespace Dots

variable {r : DotRegs}

/-- The dots after `n` enables, with the registers held but for those that the retrace latches. -/
def after (s₀ : Dots) (r : DotRegs) (inp : Nat → DotIn) (n : Nat) : Dots := run (fun s i => s.next r i) s₀ inp n

theorem fetch_after (s₀ : Dots) (r : DotRegs) (inp : Nat → DotIn) (n : Nat) :
    (s₀.after r inp n).fetch = s₀.fetch.after r.fetch (fun u => (inp u).start) n := by
  induction n with
  | zero => rfl
  | succ n ih =>
    show ((s₀.after r inp n).fetch).next r.fetch (inp n).start = _
    rw [ih]
    rfl

/-- The registers of the dots in a row that is shown. -/
structure Kept (s : Dots) (r : DotRegs) (pan : BitVec 4) (blink : BitVec 6) : Prop where
  charMapA : s.charMapA = r.seqCharMapA
  charMapB : s.charMapB = r.seqCharMapB
  panning : s.panningReg = pan
  blink : s.blinkCnt = blink

theorem Kept.next {s : Dots} {i : DotIn} {pan : BitVec 4} {blink : BitVec 6} (h : s.Kept r pan blink)
    (hfirst : s.fetch.dotMemoryLoadFirstInLine r.fetch = false)
    (hretrace : s.fetch.raster.dotMemoryLoadVerticalRetraceEnd = false) : (s.next r i).Kept r pan blink := by
  have hmatched : s.fetch.dotMemoryLoadFirstInLineMatched r.fetch = false := by
    unfold Fetch.dotMemoryLoadFirstInLineMatched
    rw [hfirst, Bool.false_and]
  refine ⟨?_, ?_, ?_, ?_⟩
  · show (if s.newRow r then r.seqCharMapA else s.charMapA) = _
    rw [h.charMapA, ite_self]
  · show (if s.newRow r then r.seqCharMapB else s.charMapB) = _
    rw [h.charMapB, ite_self]
  · show (if s.fetch.dotMemoryLoadFirstInLineMatched r.fetch && r.attribPanningAfterCompareMatch then _
      else if s.fetch.raster.dotMemoryLoadVerticalRetraceEnd then _ else s.panningReg) = _
    rw [hmatched, hretrace, h.panning]
    rfl
  · show (if s.fetch.raster.dotMemoryLoadVerticalRetraceEnd then _ else s.blinkCnt) = _
    rw [hretrace, h.blink]
    rfl

/-- At the first load of a row the fonts are latched, if they are not yet, and the panning ends at the line compare. -/
theorem kept_first {s : Dots} {i : DotIn} {pan : BitVec 4} {blink : BitVec 6} (row : Nat)
    (hfirst : s.fetch.dotMemoryLoadFirstInLine r.fetch = true)
    (hretrace : s.fetch.raster.dotMemoryLoadVerticalRetraceEnd = false) (hrow : s.fetch.raster.lines.vertCnt.toNat = row)
    (hmaps : row = 0 ∨ s.charMapA = r.seqCharMapA ∧ s.charMapB = r.seqCharMapB) (hpan : s.panningReg = pan)
    (hblink : s.blinkCnt = blink) :
    (s.next r i).Kept r
      (if row = r.fetch.splitRow.toNat ∧ r.attribPanningAfterCompareMatch = true then 0 else pan) blink := by
  have hsplit : (s.fetch.raster.lines.vertCnt == r.fetch.splitRow) = true ↔ row = r.fetch.splitRow.toNat := by
    rw [beq_iff_eq, ← BitVec.toNat_inj, hrow]
  have hnew : row = 0 → s.newRow r = true := by
    intro hzero
    unfold newRow Fetch.dotMemoryLoadFirstInFrame
    rw [hfirst, show s.fetch.raster.lines.vertCnt = 0 from BitVec.eq_of_toNat_eq (hrow.trans hzero)]
    rfl
  refine ⟨?_, ?_, ?_, ?_⟩
  · show (if s.newRow r then r.seqCharMapA else s.charMapA) = _
    rcases hmaps with hzero | ⟨hmap, -⟩
    · rw [hnew hzero, if_pos rfl]
    · rw [hmap, ite_self]
  · show (if s.newRow r then r.seqCharMapB else s.charMapB) = _
    rcases hmaps with hzero | ⟨-, hmap⟩
    · rw [hnew hzero, if_pos rfl]
    · rw [hmap, ite_self]
  · show (if s.fetch.dotMemoryLoadFirstInLineMatched r.fetch && r.attribPanningAfterCompareMatch then _
      else if s.fetch.raster.dotMemoryLoadVerticalRetraceEnd then _ else s.panningReg) = _
    unfold Fetch.dotMemoryLoadFirstInLineMatched
    rw [hfirst, hretrace, Bool.true_and, if_congr ((Bool.and_eq_true _ _).to_iff.trans (and_congr hsplit Iff.rfl)) rfl rfl,
      hpan]
    rfl
  · show (if s.fetch.raster.dotMemoryLoadVerticalRetraceEnd then _ else s.blinkCnt) = _
    rw [hretrace, hblink]
    rfl

section Frame

variable {s₀ : Dots} (inp : Nat → DotIn) (h : s₀.fetch.raster.Wraps r.fetch.raster) (hr : r.fetch.Fits)
  (hoff : s₀.fetch.raster.vertSync = false)
include h hr hoff

omit h hoff in
theorem shown_lt {k : Nat} (hlast : k < r.fetch.raster.frameLines) (hk : Fetch.Shown r.fetch k) :
    k < r.fetch.raster.retraceLine := by
  have hsize := BitVec.lt_def.1 hr.ordered.picture
  have hin := vde_iff.1 hk
  have hdisplay : r.fetch.raster.scanlines.displaySize.toNat = r.fetch.raster.verticalDisplaySize.toNat := rfl
  have hrows := hr.ordered.frame.row_iff hsize hlast
  unfold RasterRegs.retraceLine
  omega

/-- In the picture the vertical retrace does not end. -/
theorem no_retraceEnd {k n : Nat} (hlast : k < r.fetch.raster.frameLines) (hk : Fetch.Shown r.fetch k) (hpos : 0 < n)
    (hn : n < (k + 2) * r.fetch.raster.lineTime) :
    (s₀.after r inp n).fetch.raster.dotMemoryLoadVerticalRetraceEnd = false := by
  obtain ⟨⟨hframe, hpicture, hroom, -, -⟩, hrows⟩ := hr.ordered
  have hline := h.lineTime_ge
  have hbefore := shown_lt hr hlast hk
  obtain ⟨n, rfl⟩ : ∃ m, n = m + 1 := ⟨n - 1, by omega⟩
  refine Bool.eq_false_of_not_eq_true fun hend => ?_
  rw [fetch_after, Fetch.raster_after] at hend
  obtain ⟨-, hrow⟩ := (h.retraceEnd_iff hframe hpicture hroom hoff n).1 hend
  have hle : n / r.fetch.raster.lineTime < k + 2 := (Nat.div_lt_iff_lt_mul (by omega)).2 (by omega)
  have hwidth : 0 < r.fetch.raster.retraceLines := Nat.succ_pos _
  rw [Nat.mod_eq_of_lt (by omega)] at hrow
  omega

/-- Up to the first load the frame has the panning and the blink count with which it begins. -/
theorem kept_before {n : Nat} (hshown : Fetch.Shown r.fetch 0) (hpos : 0 < n) (hn : n ≤ r.fetch.fetchTime) :
    (s₀.after r inp n).panningReg = (s₀.after r inp 1).panningReg ∧
      (s₀.after r inp n).blinkCnt = (s₀.after r inp 1).blinkCnt := by
  have hfetch := Fetch.fetchTime_le hr
  have hline := h.lineTime_ge
  have hframe : 0 < r.fetch.raster.frameLines := by have := hr.ordered.vertRetrace; omega
  induction n, hpos using Nat.le_induction with
  | base => exact ⟨rfl, rfl⟩
  | succ n hpos ih =>
    have hretrace := no_retraceEnd inp h hr hoff hframe hshown hpos (by omega)
    have hfirst : (s₀.after r inp n).fetch.dotMemoryLoadFirstInLine r.fetch = false := by
      refine Bool.eq_false_of_not_eq_true fun hfirst => ?_
      rw [fetch_after] at hfirst
      obtain ⟨k, hk, -⟩ := Fetch.first_only _ h hr hfirst
      omega
    rw [← (ih (by omega)).1, ← (ih (by omega)).2]
    constructor
    · show (if (s₀.after r inp n).fetch.dotMemoryLoadFirstInLineMatched r.fetch && r.attribPanningAfterCompareMatch then _
        else if (s₀.after r inp n).fetch.raster.dotMemoryLoadVerticalRetraceEnd then _
        else (s₀.after r inp n).panningReg) = _
      unfold Fetch.dotMemoryLoadFirstInLineMatched
      rw [hfirst, hretrace]
      rfl
    · show (if (s₀.after r inp n).fetch.raster.dotMemoryLoadVerticalRetraceEnd then _ else _) = _
      rw [hretrace]
      rfl

/-- The state `e` enables after the first load for line `k`. -/
theorem kept_along {pan : BitVec 4} {blink : BitVec 6} {k e : Nat} (hlast : k < r.fetch.raster.frameLines)
    (hk : Fetch.Shown r.fetch k)
    (hone : (s₀.after r inp (k * r.fetch.raster.lineTime + r.fetch.fetchTime + 1)).Kept r pan blink) (hpos : 1 ≤ e)
    (he : e ≤ r.fetch.raster.lineTime) :
    (s₀.after r inp (k * r.fetch.raster.lineTime + r.fetch.fetchTime + e)).Kept r pan blink := by
  have hfetch := Fetch.fetchTime_le hr
  induction e, hpos using Nat.le_induction with
  | base => exact hone
  | succ e hpos ih =>
    refine (ih (by omega)).next ?_ ?_
    · rw [fetch_after, Fetch.first_at _ h hr k (by omega) hk]
      exact decide_eq_false (by omega)
    · refine no_retraceEnd _ h hr hoff hlast hk (by omega) ?_
      rw [Nat.add_mul]
      omega

theorem kept_at {k e : Nat} (hlast : k < r.fetch.raster.frameLines) (hk : ∀ j, j ≤ k → Fetch.Shown r.fetch j) (hpos : 1 ≤ e)
    (he : e ≤ r.fetch.raster.lineTime) :
    (s₀.after r inp (k * r.fetch.raster.lineTime + r.fetch.fetchTime + e)).Kept r
      (r.panAt (s₀.after r inp 1).panningReg (Fetch.rowAt r.fetch k)) (s₀.after r inp 1).blinkCnt := by
  have hfetch := Fetch.fetchTime_le hr
  have hline := h.lineTime_ge
  -- at the first load of a line
  have hfirst : ∀ k, k < r.fetch.raster.frameLines → Fetch.Shown r.fetch k →
      (s₀.after r inp (k * r.fetch.raster.lineTime + r.fetch.fetchTime)).fetch.dotMemoryLoadFirstInLine r.fetch = true ∧
      (s₀.after r inp (k * r.fetch.raster.lineTime + r.fetch.fetchTime)).fetch.raster.lines =
        line r.fetch.raster.scanlines k ∧
      (s₀.after r inp (k * r.fetch.raster.lineTime + r.fetch.fetchTime)).fetch.raster.dotMemoryLoadVerticalRetraceEnd =
        false := by
    intro k hlast hk
    refine ⟨?_, ?_, no_retraceEnd _ h hr hoff hlast hk (Nat.lt_of_lt_of_le (Nat.succ_pos _) (Nat.le_add_left _ _)) ?_⟩
    · rw [fetch_after]
      exact Fetch.first_at _ h hr k (e := 0) (by omega) hk
    · rw [fetch_after]
      exact Fetch.lines_at _ h hr k (e := 0) (Nat.zero_le _)
    · rw [Nat.add_mul]
      omega
  induction k generalizing e with
  | zero =>
    obtain ⟨hload, hlines, hretrace⟩ := hfirst 0 hlast (hk 0 (Nat.le_refl 0))
    have hfetchpos : 0 < r.fetch.fetchTime := Nat.succ_pos _
    obtain ⟨hpan, hblink⟩ := kept_before inp h hr hoff (n := 0 * r.fetch.raster.lineTime + r.fetch.fetchTime)
      (hk 0 (Nat.le_refl 0)) (by omega) (by omega)
    have hbegun := kept_first 0 (i := inp (0 * r.fetch.raster.lineTime + r.fetch.fetchTime)) hload hretrace
      (by rw [hlines]; rfl) (.inl rfl) hpan hblink
    rw [← r.panAt_zero] at hbegun
    exact kept_along _ h hr hoff hlast (hk 0 (Nat.le_refl 0)) hbegun hpos he
  | succ k ih =>
    obtain ⟨hload, hlines, hretrace⟩ := hfirst (k + 1) hlast (hk (k + 1) (Nat.le_refl _))
    have hbefore := ih (Nat.lt_of_succ_lt hlast) (fun j hj => hk j (Nat.le_succ_of_le hj)) (e := r.fetch.raster.lineTime)
      (by omega) (Nat.le_refl _)
    have hsame : k * r.fetch.raster.lineTime + r.fetch.fetchTime + r.fetch.raster.lineTime =
        (k + 1) * r.fetch.raster.lineTime + r.fetch.fetchTime := by
      rw [Nat.succ_mul]
      omega
    rw [hsame] at hbefore
    have hbegun := kept_first (Fetch.rowAt r.fetch (k + 1)) (i := inp ((k + 1) * r.fetch.raster.lineTime + r.fetch.fetchTime))
      hload hretrace (by rw [hlines]; rfl) (.inr ⟨hbefore.charMapA, hbefore.charMapB⟩)
      hbefore.panning hbefore.blink
    rw [← r.panAt_next _ (Fetch.rowAt_succ hr hlast (hk k (Nat.le_succ k)))] at hbegun
    exact kept_along _ h hr hoff hlast (hk (k + 1) (Nat.le_refl _)) hbegun hpos he

end Frame

/-! ## The columns of a line -/

/-- The bytes of column `c` of line `k`, of the planes at the enable in which they are read. -/
def bytesAt (r : DotRegs) (inp : Nat → DotIn) (start : BitVec 16) (k c : Nat) (p : Fin 4) : BitVec 8 :=
  (inp (Fetch.readTime r.fetch k c)).planes p
    (r.fetch.addressStep2 (r.fetch.base (Fetch.rowAt r.fetch k) start + BitVec.ofNat 16 c)
      (r.fetch.scanOf (Fetch.rowAt r.fetch k)))

def cellAt (r : DotRegs) (inp : Nat → DotIn) (start : BitVec 16) (k c : Nat) : Cell where
  bytes := bytesAt r inp start k c
  font := (inp (Fetch.readTime r.fetch k c + 1)).planes 2
    (r.txtAddress (bytesAt r inp start k c 1) r.seqCharMapA r.seqCharMapB (bytesAt r inp start k c 0)
      (r.fetch.scanOf (Fetch.rowAt r.fetch k)))
  address := r.fetch.base (Fetch.rowAt r.fetch k) start + BitVec.ofNat 16 c
  nextAttr :=
    if r.fetch.raster.seqDotclockDivided || decide (c + 1 = r.fetch.columns) then bytesAt r inp start k c 1
    else bytesAt r inp start k (c + 1) 1

theorem nextAttr_own {inp : Nat → DotIn} {start : BitVec 16} {k c : Nat}
    (h : r.fetch.raster.seqDotclockDivided = true ∨ c + 1 = r.fetch.columns) :
    (cellAt r inp start k c).nextAttr = bytesAt r inp start k c 1 := by
  refine if_pos ?_
  rw [Bool.or_eq_true, decide_eq_true_iff]
  exact h

theorem nextAttr_next {inp : Nat → DotIn} {start : BitVec 16} {k c : Nat}
    (hfull : r.fetch.raster.seqDotclockDivided = false) (hc : c + 1 ≠ r.fetch.columns) :
    (cellAt r inp start k c).nextAttr = bytesAt r inp start k (c + 1) 1 := by
  refine if_neg ?_
  rw [hfull, Bool.false_or, decide_eq_true_iff]
  exact hc

section Columns

variable {s₀ : Dots} (inp : Nat → DotIn) (h : s₀.fetch.raster.Wraps r.fetch.raster) (hr : r.fetch.Fits)
  (hoff : s₀.fetch.raster.vertSync = false) (hon : r.seqScreenDisable = false)
include h hr

/-- The loads of a line, and the steps of the pipeline one, two and three enables after them. -/
theorem steps_at {k e : Nat} (hk : Fetch.Shown r.fetch k) (he : e < r.fetch.raster.lineTime) :
    let t := k * r.fetch.raster.lineTime + r.fetch.fetchTime + e
    let load := decide (e % r.fetch.raster.charTime = 0 ∧ e / r.fetch.raster.charTime < r.fetch.columns)
    (s₀.after r inp (t + 1)).fetch.stepPre = load ∧ (s₀.after r inp (t + 2)).fetch.stepA = load ∧
      (s₀.after r inp (t + 3)).fetch.stepB = load := by
  intro t load
  have hpre : (s₀.after r inp (t + 1)).fetch.stepPre = load := by
    have hload := Fetch.load_at (fun u => (inp u).start) h hr k he hk
    rw [← fetch_after] at hload
    exact hload
  exact ⟨hpre, hpre, hpre⟩

omit h in
theorem columns_le {c : Nat} (hc : c < r.fetch.columns) :
    (c + 1) * r.fetch.raster.charTime + r.fetch.raster.charTime ≤ r.fetch.raster.lineTime := by
  have hporch := hr.porch
  have hchars := hr.ordered.chars
  unfold FetchRegs.columns at hc
  unfold RasterRegs.lineTime
  rw [← Nat.succ_mul]
  exact Nat.mul_le_mul_right _ (by omega)

/-- The step before the first read of a column is not the second of another. -/
theorem stepA_read (k c : Nat) :
    (s₀.after r inp (k * r.fetch.raster.lineTime + r.fetch.fetchTime + (c * r.fetch.raster.charTime + 1))).fetch.stepA =
      false := by
  obtain ⟨m, hm⟩ : ∃ m, k * r.fetch.raster.lineTime + r.fetch.fetchTime + c * r.fetch.raster.charTime = m + 1 := by
    have hpos : 0 < r.fetch.fetchTime := Nat.succ_pos _
    exact ⟨k * r.fetch.raster.lineTime + r.fetch.fetchTime + c * r.fetch.raster.charTime - 1, by omega⟩
  rw [← Nat.add_assoc, hm]
  show (s₀.after r inp m).fetch.dotMemoryLoad r.fetch = false
  have hdot := Fetch.loadDot_at (fun u => (inp u).start) h hr k (c * r.fetch.raster.charTime)
  rw [hm, Nat.mul_mod_left, decide_eq_true rfl] at hdot
  refine Bool.eq_false_of_not_eq_true fun hload => ?_
  unfold Fetch.dotMemoryLoad at hload
  have hw : (s₀.after r inp m).fetch.raster.Within r.fetch.raster := by
    rw [fetch_after, Fetch.raster_after]
    exact (h.latched_after m).toWithin
  have honce := Fetch.loadDot_once hw (inp m).start ((Bool.and_eq_true _ _).mp hload).1
  rw [fetch_after] at honce
  exact absurd hdot (ne_true_of_eq_false honce)

include hoff hon in
theorem latched_at {k c : Nat} (hlast : k < r.fetch.raster.frameLines) (hk : ∀ j, j ≤ k → Fetch.Shown r.fetch j)
    (hc : c < r.fetch.columns) :
    (s₀.after r inp (k * r.fetch.raster.lineTime + r.fetch.fetchTime + (c * r.fetch.raster.charTime + 3))).Latched
      (cellAt r inp (s₀.after r inp 1).fetch.addressStartReg k c) (s₀.after r inp 1).blinkCnt
      (r.fetch.scanOf (Fetch.rowAt r.fetch k)) := by
  have htime := r.fetch.raster.charTime_ge
  have hcol := columns_le hr hc
  rw [Nat.succ_mul] at hcol
  have hshown := hk k (Nat.le_refl k)
  obtain ⟨hreads, haddress, hscan⟩ := Fetch.fetches_at (fun u => (inp u).start) h hr hlast hk hc
  have hloaded := Fetch.loaded_at (fun u => (inp u).start) (e := c * r.fetch.raster.charTime + 2) h hr hlast hk
    (by omega) (by omega)
  have hloaded' := Fetch.loaded_at (fun u => (inp u).start) (e := c * r.fetch.raster.charTime + 3) h hr hlast hk
    (by omega) (by omega)
  have hkept := kept_at inp (e := c * r.fetch.raster.charTime + 2) h hr hoff hlast hk (by omega) (by omega)
  have hkept' := kept_at inp (e := c * r.fetch.raster.charTime + 3) h hr hoff hlast hk (by omega) (by omega)
  have hactive := fun d => Fetch.active_at (fun u => (inp u).start) (d := d) h hr k hc
  have hno := stepA_read inp h hr k c
  -- the load, and no other with it
  obtain ⟨-, hstepA, hstepB⟩ := steps_at inp h hr hshown (e := c * r.fetch.raster.charTime) (by omega)
  obtain ⟨hpre', hstepA', -⟩ := steps_at inp h hr hshown (e := c * r.fetch.raster.charTime + 1) (by omega)
  rw [Nat.mul_mod_left, Nat.mul_div_cancel _ (by omega), decide_eq_true ⟨rfl, hc⟩] at hstepA hstepB
  rw [decide_eq_false] at hpre' hstepA'
  rotate_left
  · intro hboth
    rw [Nat.mul_comm, Nat.mul_add_mod, Nat.mod_eq_of_lt (by omega)] at hboth
    exact absurd hboth.1 (by decide)
  · intro hboth
    rw [Nat.mul_comm, Nat.mul_add_mod, Nat.mod_eq_of_lt (by omega)] at hboth
    exact absurd hboth.1 (by decide)
  simp only [← fetch_after] at hreads haddress hscan hloaded hloaded' hactive
  have hbytes : ∀ p, (s₀.after r inp (Fetch.readTime r.fetch k c + 1)).planeRamQ p =
      bytesAt r inp (s₀.after r inp 1).fetch.addressStartReg k c p := by
    intro p
    have hvideo : (s₀.after r inp (Fetch.readTime r.fetch k c)).videoAddress r p = r.fetch.addressStep2
        (s₀.after r inp (Fetch.readTime r.fetch k c)).fetch.address
        (s₀.after r inp (Fetch.readTime r.fetch k c)).fetch.rowScan :=
      if_neg fun hboth => absurd hboth.2 (ne_true_of_eq_false hno)
    show (if (s₀.after r inp (Fetch.readTime r.fetch k c)).fetch.dotMemoryLoadActive r.fetch && !r.seqScreenDisable then
      (inp (Fetch.readTime r.fetch k c)).planes p ((s₀.after r inp (Fetch.readTime r.fetch k c)).videoAddress r p)
      else _) = _
    rw [show (s₀.after r inp (Fetch.readTime r.fetch k c)).fetch.dotMemoryLoadActive r.fetch = true from
      hactive 1 (by decide) hshown, hon, hvideo, haddress, hscan]
    rfl
  have hfont : (s₀.after r inp (Fetch.readTime r.fetch k c + 2)).planeRamQ 2 =
      (cellAt r inp (s₀.after r inp 1).fetch.addressStartReg k c).font := by
    have hvideo : (s₀.after r inp (Fetch.readTime r.fetch k c + 1)).videoAddress r 2 = r.txtAddress
        ((s₀.after r inp (Fetch.readTime r.fetch k c + 1)).planeRamQ 1)
        (s₀.after r inp (Fetch.readTime r.fetch k c + 1)).charMapA
        (s₀.after r inp (Fetch.readTime r.fetch k c + 1)).charMapB
        ((s₀.after r inp (Fetch.readTime r.fetch k c + 1)).planeRamQ 0)
        (s₀.after r inp (Fetch.readTime r.fetch k c + 1)).fetch.rowScanReg :=
      if_pos ⟨rfl, hstepA⟩
    show (if (s₀.after r inp (Fetch.readTime r.fetch k c + 1)).fetch.dotMemoryLoadActive r.fetch && !r.seqScreenDisable then
      (inp (Fetch.readTime r.fetch k c + 1)).planes 2 ((s₀.after r inp (Fetch.readTime r.fetch k c + 1)).videoAddress r 2)
      else _) = _
    rw [show (s₀.after r inp (Fetch.readTime r.fetch k c + 1)).fetch.dotMemoryLoadActive r.fetch = true from
      hactive 2 (by decide) hshown, hon, hvideo, hbytes, hbytes,
      show (s₀.after r inp (Fetch.readTime r.fetch k c + 1)).charMapA = _ from hkept.charMapA,
      show (s₀.after r inp (Fetch.readTime r.fetch k c + 1)).charMapB = _ from hkept.charMapB,
      show (s₀.after r inp (Fetch.readTime r.fetch k c + 1)).fetch.rowScanReg = _ from hloaded.rowScanReg (by omega)]
    rfl
  refine ⟨hstepB, hstepA', ?_, hfont, ?_, hkept'.blink, hloaded'.rowScanReg (by omega)⟩
  · show (if (s₀.after r inp (Fetch.readTime r.fetch k c + 1)).fetch.stepA then
      (s₀.after r inp (Fetch.readTime r.fetch k c + 1)).planeRamQ else _) = _
    rw [show (s₀.after r inp (Fetch.readTime r.fetch k c + 1)).fetch.stepA = true from hstepA, if_pos rfl]
    exact funext hbytes
  · show (if (s₀.after r inp (Fetch.readTime r.fetch k c + 1)).fetch.stepPre then _ else
      if (s₀.after r inp (Fetch.readTime r.fetch k c)).fetch.stepPre then
        (s₀.after r inp (Fetch.readTime r.fetch k c)).fetch.address else _) = _
    rw [show (s₀.after r inp (Fetch.readTime r.fetch k c + 1)).fetch.stepPre = false from hpre', hreads,
      if_neg Bool.false_ne_true, if_pos rfl, haddress]
    rfl

omit h hr in
theorem loads_none {c i : Nat} (hi : i + 1 < r.fetch.raster.charTime) :
    decide ((c * r.fetch.raster.charTime + i + 1) % r.fetch.raster.charTime = 0 ∧
      (c * r.fetch.raster.charTime + i + 1) / r.fetch.raster.charTime < r.fetch.columns) = false := by
  refine decide_eq_false fun hboth => ?_
  rw [Nat.add_assoc, Nat.mul_comm, Nat.mul_add_mod, Nat.mod_eq_of_lt hi] at hboth
  exact absurd hboth.1 (Nat.succ_ne_zero i)

omit h hr in
theorem shiftsBefore_lt {i : Nat} (hfull : r.fetch.raster.seqDotclockDivided = false)
    (hi : i + 1 < r.fetch.raster.charTime) : r.shiftsBefore i < 8 := by
  unfold DotRegs.shiftsBefore
  unfold RasterRegs.charTime RasterRegs.charDots at hi
  rw [hfull, if_neg Bool.false_ne_true] at *
  split at hi <;> omega

include hoff hon in
theorem shifting_at {k c i : Nat} (hlast : k < r.fetch.raster.frameLines) (hk : ∀ j, j ≤ k → Fetch.Shown r.fetch j)
    (hc : c < r.fetch.columns) (hi : i < r.fetch.raster.charTime) :
    (s₀.after r inp (k * r.fetch.raster.lineTime + r.fetch.fetchTime + (c * r.fetch.raster.charTime + i + 4))).Shifting r
      (cellAt r inp (s₀.after r inp 1).fetch.addressStartReg k c) (s₀.after r inp 1).blinkCnt
      (r.fetch.scanOf (Fetch.rowAt r.fetch k)) i := by
  have htime := r.fetch.raster.charTime_ge
  have hcol := columns_le hr hc
  rw [Nat.succ_mul] at hcol
  have hshown := hk k (Nat.le_refl k)
  induction i with
  | zero => exact (latched_at _ h hr hoff hon hlast hk hc).shifting
  | succ i ih =>
    have hbefore := ih (Nat.lt_of_succ_lt hi)
    obtain ⟨-, -, hstepB⟩ := steps_at inp h hr hshown (e := c * r.fetch.raster.charTime + i + 1) (by omega)
    rw [loads_none hi] at hstepB
    refine hbefore.next hi hstepB (fun hi' => ?_) fun hninth => ?_
    · obtain ⟨-, hstepA, -⟩ := steps_at inp h hr hshown (e := c * r.fetch.raster.charTime + (i + 1) + 1) (by omega)
      rw [loads_none hi'] at hstepA
      exact hstepA
    · have hloaded := Fetch.loaded_at (fun u => (inp u).start) (e := c * r.fetch.raster.charTime + i + 4) h hr hlast hk
        (by omega) (by omega)
      rw [← fetch_after] at hloaded
      rw [hbefore.ram hi, hloaded.rowScanReg (by omega)]
      cases hdivided : r.fetch.raster.seqDotclockDivided with
      | false => exact absurd hninth (Nat.not_le.2 (shiftsBefore_lt hdivided hi))
      | true => rw [nextAttr_own (.inl hdivided)]; rfl

include hoff hon in
/-- The attribute of the ninth dot is that of the next column at the full dot clock. -/
theorem ninth_at {k c i : Nat}
    (hlast : k < r.fetch.raster.frameLines) (hk : ∀ j, j ≤ k → Fetch.Shown r.fetch j) (hc : c < r.fetch.columns)
    (hi : i < r.fetch.raster.charTime) (heven : r.fetch.raster.seqDotclockDivided = true → i % 2 = 0)
    (hninth : 8 ≤ r.shiftsBefore i) :
    (s₀.after r inp (k * r.fetch.raster.lineTime + r.fetch.fetchTime + (c * r.fetch.raster.charTime + i + 4))).planeRam 1 =
      (cellAt r inp (s₀.after r inp 1).fetch.addressStartReg k c).nextAttr := by
  have htime := r.fetch.raster.charTime_ge
  have hcol := columns_le hr hc
  rw [Nat.succ_mul] at hcol
  have hshift := shifting_at inp h hr hoff hon hlast hk hc hi
  cases hdivided : r.fetch.raster.seqDotclockDivided with
  | true =>
    have hi' : i + 1 < r.fetch.raster.charTime := by
      have heven := heven hdivided
      unfold RasterRegs.charTime at hi ⊢
      rw [hdivided, if_pos rfl] at hi ⊢
      omega
    rw [hshift.ram hi', nextAttr_own (.inl hdivided)]
    rfl
  | false =>
    have hfull : i + 1 = r.fetch.raster.charTime := by
      by_contra hne
      exact absurd hninth (Nat.not_le.2 (shiftsBefore_lt hdivided (by omega)))
    by_cases hnext : c + 1 < r.fetch.columns
    · have hlatched := latched_at inp h hr hoff hon hlast hk hnext
      rw [show (c + 1) * r.fetch.raster.charTime + 3 = c * r.fetch.raster.charTime + i + 4 by
        rw [Nat.succ_mul]
        omega] at hlatched
      rw [hlatched.bytes, nextAttr_next hdivided (Nat.ne_of_lt hnext)]
      rfl
    · obtain ⟨m, rfl⟩ : ∃ m, i = m + 1 := ⟨i - 1, by omega⟩
      have hram := (shifting_at inp h hr hoff hon hlast hk hc (Nat.lt_of_succ_lt hi)).ram (by omega)
      obtain ⟨-, hstepA, -⟩ := steps_at inp h hr (hk k (Nat.le_refl k))
        (e := c * r.fetch.raster.charTime + (m + 1) + 1) (by omega)
      rw [decide_eq_false (by
        rw [Nat.add_assoc, hfull, Nat.add_div_right _ (by omega), Nat.mul_div_cancel _ (by omega)]
        exact fun hboth => hnext hboth.2)] at hstepA
      show (if (s₀.after r inp (k * r.fetch.raster.lineTime + r.fetch.fetchTime +
        (c * r.fetch.raster.charTime + m + 4))).fetch.stepA then _ else (s₀.after r inp (k * r.fetch.raster.lineTime +
          r.fetch.fetchTime + (c * r.fetch.raster.charTime + m + 4))).planeRam) 1 = _
      rw [show (s₀.after r inp (k * r.fetch.raster.lineTime + r.fetch.fetchTime +
        (c * r.fetch.raster.charTime + m + 4))).fetch.stepA = false from hstepA, if_neg Bool.false_ne_true, hram,
        nextAttr_own (.inr (by omega))]
      rfl

include hoff hon in
/-- The dot that is shifted out. -/
theorem pelInput_at {k c i : Nat} (hlast : k < r.fetch.raster.frameLines) (hk : ∀ j, j ≤ k → Fetch.Shown r.fetch j)
    (hc : c < r.fetch.columns) (hi : i < r.fetch.raster.charTime)
    (heven : r.fetch.raster.seqDotclockDivided = true → i % 2 = 0) :
    (s₀.after r inp (k * r.fetch.raster.lineTime + r.fetch.fetchTime + (c * r.fetch.raster.charTime + i + 4))).pelInput r =
      (cellAt r inp (s₀.after r inp 1).fetch.addressStartReg k c).dot r (s₀.after r inp 1).blinkCnt
        (r.fetch.scanOf (Fetch.rowAt r.fetch k)) (r.shiftsBefore i) := by
  have htime := r.fetch.raster.charTime_ge
  have hcol := columns_le hr hc
  rw [Nat.succ_mul] at hcol
  have hshift := shifting_at inp h hr hoff hon hlast hk hc hi
  have hloaded := Fetch.loaded_at (fun u => (inp u).start) (e := c * r.fetch.raster.charTime + i + 4) h hr hlast hk
    (by omega) (by omega)
  rw [← fetch_after] at hloaded
  refine hshift.pelInput hi ((hshift.enable hi).trans (decide_eq_true heven)) fun hninth => ?_
  rw [ninth_at _ h hr hoff hon hlast hk hc hi heven hninth, hloaded.rowScanReg (by omega)]

end Columns

/-! ## The dots of a line -/

/-- Dot `m` of line `k`, from the first dot of the first column. -/
def pelAt (r : DotRegs) (inp : Nat → DotIn) (start : BitVec 16) (blink : BitVec 6) (k m : Nat) : BitVec 4 :=
  r.afterBlink blink ((cellAt r inp start k (m / r.fetch.raster.charDots)).dot r blink
    (r.fetch.scanOf (Fetch.rowAt r.fetch k)) (m % r.fetch.raster.charDots))

section Line

variable {s₀ : Dots} (inp : Nat → DotIn) (h : s₀.fetch.raster.Wraps r.fetch.raster) (hr : r.fetch.Fits)
  (hoff : s₀.fetch.raster.vertSync = false) (hon : r.seqScreenDisable = false)

theorem shiftsBefore_column (c i : Nat) :
    r.shiftsBefore (c * r.fetch.raster.charTime + i) = c * r.fetch.raster.charDots + r.shiftsBefore i := by
  unfold DotRegs.shiftsBefore RasterRegs.charTime
  cases r.fetch.raster.seqDotclockDivided with
  | false => rfl
  | true =>
    rw [if_pos rfl, if_pos rfl, if_pos rfl, Nat.mul_left_comm, Nat.add_assoc, Nat.mul_add_div (by decide)]

theorem shiftsBefore_lt_dots {i : Nat} (hi : i < r.fetch.raster.charTime)
    (heven : r.fetch.raster.seqDotclockDivided = true → i % 2 = 0) : r.shiftsBefore i < r.fetch.raster.charDots := by
  unfold DotRegs.shiftsBefore
  unfold RasterRegs.charTime at hi
  cases hdivided : r.fetch.raster.seqDotclockDivided with
  | false =>
    rw [hdivided] at hi
    exact hi
  | true =>
    have heven := heven hdivided
    rw [hdivided, if_pos rfl] at hi
    rw [if_pos rfl]
    omega

include h hr hoff hon

/-- The shift register holds the last nine dots, the newest at place 8. -/
theorem pelShiftReg_at {k v b : Nat} (hlast : k < r.fetch.raster.frameLines) (hk : ∀ j, j ≤ k → Fetch.Shown r.fetch j)
    (hv : v ≤ r.fetch.columns * r.fetch.raster.charTime) (hb : b < 9) (hfull : 9 ≤ r.shiftsBefore v + b) :
    (s₀.after r inp (k * r.fetch.raster.lineTime + r.fetch.fetchTime + (v + 4))).pelShiftReg.extractLsb' (4 * b) 4 =
      pelAt r inp (s₀.after r inp 1).fetch.addressStartReg (s₀.after r inp 1).blinkCnt k (r.shiftsBefore v + b - 9) := by
  have htime := r.fetch.raster.charTime_ge
  induction v generalizing b with
  | zero =>
    have hnone : r.shiftsBefore 0 = 0 := by
      unfold DotRegs.shiftsBefore
      split <;> rfl
    omega
  | succ v ih =>
    have hparts := Nat.div_add_mod v r.fetch.raster.charTime
    have hi := Nat.mod_lt v (show 0 < r.fetch.raster.charTime by omega)
    have hc : v / r.fetch.raster.charTime < r.fetch.columns := (Nat.div_lt_iff_lt_mul (by omega)).2 hv
    have hcol := columns_le hr hc
    rw [Nat.succ_mul, Nat.mul_comm] at hcol
    have hshift := shifting_at inp h hr hoff hon hlast hk hc hi
    have hpel := fun heven => pelInput_at inp h hr hoff hon hlast hk hc hi heven
    have hkept := kept_at inp (e := v + 4) h hr hoff hlast hk (by omega) (by omega)
    have hbefore := shiftsBefore_column (r := r) (v / r.fetch.raster.charTime) (v % r.fetch.raster.charTime)
    rw [Nat.mul_comm] at hparts
    rw [hparts] at hshift hpel hbefore
    have heven : (r.fetch.raster.seqDotclockDivided = true → v % r.fetch.raster.charTime % 2 = 0) ↔
        (r.fetch.raster.seqDotclockDivided = true → v % 2 = 0) := by
      refine forall_congr' fun hdivided => ?_
      unfold RasterRegs.charTime
      rw [hdivided, if_pos rfl, Nat.mod_mul_right_mod]
    have henable := hshift.enable hi
    have hsucc := shiftsBefore_succ (r := r) v
    have hgo : (s₀.after r inp (k * r.fetch.raster.lineTime + r.fetch.fetchTime + (v + 1 + 4))).pelShiftReg =
        if (s₀.after r inp (k * r.fetch.raster.lineTime + r.fetch.fetchTime + (v + 4))).planeShiftEnable r then
          BitVec.ofNat 4 0 ++ r.afterBlink
            (s₀.after r inp (k * r.fetch.raster.lineTime + r.fetch.fetchTime + (v + 4))).blinkCnt
            ((s₀.after r inp (k * r.fetch.raster.lineTime + r.fetch.fetchTime + (v + 4))).pelInput r) ++
            (s₀.after r inp (k * r.fetch.raster.lineTime + r.fetch.fetchTime + (v + 4))).pelShiftReg.extractLsb' 4 32
        else (s₀.after r inp (k * r.fetch.raster.lineTime + r.fetch.fetchTime + (v + 4))).pelShiftReg := by
      rw [Nat.add_right_comm v 1 4]
      rfl
    rw [hgo, henable]
    by_cases hyes : r.fetch.raster.seqDotclockDivided = true → v % 2 = 0
    · rw [if_pos hyes] at hsucc
      rw [hsucc] at hfull ⊢
      rw [decide_eq_true (heven.2 hyes), if_pos rfl, pelShift_next _ _ hb]
      by_cases hnew : b = 8
      · have hlt := shiftsBefore_lt_dots hi (heven.2 hyes)
        have hat : r.shiftsBefore v + 1 + b - 9 = r.shiftsBefore v := by omega
        rw [if_pos hnew, hkept.blink, hpel (heven.2 hyes), hat, pelAt, hbefore, Nat.mul_comm,
          Nat.mul_add_div (by omega), Nat.div_eq_of_lt hlt, Nat.add_zero, Nat.mul_add_mod, Nat.mod_eq_of_lt hlt]
      · rw [if_neg hnew, ih (by omega) (by omega) (by omega)]
        congr 1
        omega
    · rw [if_neg hyes] at hsucc
      rw [hsucc] at hfull ⊢
      rw [decide_eq_false (mt heven.1 hyes), if_neg Bool.false_ne_true]
      exact ih (by omega) hb hfull

end Line

/-! ## The display window -/

/-- The place in the shift register that the panning shows. -/
def panPlace (pan : BitVec 4) : Nat := if pan.getLsbD 3 then 0 else pan.toNat + 1

/-- The enables of a dot. -/
def dotTime (r : DotRegs) : Nat := if r.fetch.raster.seqDotclockDivided then 2 else 1

/-- The enables of a frame until place `x` of line `k` is displayed. -/
def displayTime (r : DotRegs) (k x : Nat) : Nat :=
  k * r.fetch.raster.lineTime + (r.fetch.raster.lastChar - r.fetch.raster.retraceChar) * r.fetch.raster.charTime + x

/-- Dot `m` of line `k` is at place `x` of the display window. -/
def shownDot (r : DotRegs) (pan : BitVec 4) (k x : Nat) : Nat :=
  r.fetch.raster.charDots + x / dotTime r + panPlace (r.panAt pan (Fetch.rowAt r.fetch k)) - 9

theorem pelPlace_eq {s : Dots} {pan : BitVec 4} (hpan : s.panningReg = pan) :
    (if s.panningReg.getLsbD 3 then 0 else 4 * (s.panningReg + 1).toNat) = 4 * panPlace pan := by
  unfold panPlace
  rw [hpan]
  split
  · rfl
  case isFalse hlow =>
    have hlt : pan.toNat < 8 := by
      rw [getLsbD_top, decide_eq_true_iff] at hlow
      omega
    rw [toNat_succ (by omega)]

theorem pelAfterPanning_low {s : Dots} {pan : BitVec 4} (hpan : s.panningReg = pan) :
    s.pelAfterPanning.extractLsb' 0 4 = s.pelShiftReg.extractLsb' (4 * panPlace pan) 4 := by
  unfold pelAfterPanning
  rw [pelPlace_eq hpan]
  refine BitVec.eq_of_getLsbD_eq fun j hj => ?_
  rw [BitVec.getLsbD_extractLsb', BitVec.getLsbD_extractLsb', BitVec.getLsbD_extractLsb', decide_eq_true hj,
    decide_eq_true (by omega), Nat.zero_add]
  rfl

section Window

variable {s₀ : Dots} (inp : Nat → DotIn) (h : s₀.fetch.raster.Wraps r.fetch.raster) (hr : r.fetch.Fits)
  (hoff : s₀.fetch.raster.vertSync = false) (hon : r.seqScreenDisable = false)

/-- The enables from the first column of a line to the palette read for place `x`. -/
theorem displayTime_eq (hr : r.fetch.Fits) (k x : Nat) :
    displayTime r k x = k * r.fetch.raster.lineTime + r.fetch.fetchTime +
      (2 * r.fetch.raster.charTime - r.fetch.loadPhase - 6 + x + 4) + 1 := by
  have hporch := hr.porch
  have hphase := r.fetch.loadPhase_lt
  have hchars : (r.fetch.raster.lastChar - r.fetch.raster.retraceChar) * r.fetch.raster.charTime =
      (r.fetch.raster.lastChar - 2 - r.fetch.raster.retraceChar) * r.fetch.raster.charTime +
        2 * r.fetch.raster.charTime := by
    rw [← Nat.add_mul]
    congr 1
    omega
  unfold displayTime FetchRegs.fetchTime
  omega

theorem shiftsBefore_display (x : Nat) :
    r.shiftsBefore (2 * r.fetch.raster.charTime - r.fetch.loadPhase - 6 + x) =
      r.fetch.raster.charDots + x / dotTime r := by
  unfold DotRegs.shiftsBefore dotTime RasterRegs.charTime RasterRegs.charDots FetchRegs.loadPhase
  cases r.fetch.raster.seqDotclockDivided <;> cases r.fetch.raster.seq8dotChar <;> simp <;> omega

include h hr hoff hon

/-- The dot that the palette is read with. -/
theorem shown_at {k x : Nat} (hlast : k < r.fetch.raster.frameLines) (hk : ∀ j, j ≤ k → Fetch.Shown r.fetch j)
    (hx : x < (r.fetch.raster.horizontalDisplaySize.toNat + 1) * r.fetch.raster.charTime)
    (hpan : r.fetch.raster.seq8dotChar = true →
      panPlace (r.panAt (s₀.after r inp 1).panningReg (Fetch.rowAt r.fetch k)) ≠ 0) :
    (s₀.after r inp (k * r.fetch.raster.lineTime + r.fetch.fetchTime +
      (2 * r.fetch.raster.charTime - r.fetch.loadPhase - 6 + x + 4))).pelAfterPanning.extractLsb' 0 4 =
      pelAt r inp (s₀.after r inp 1).fetch.addressStartReg (s₀.after r inp 1).blinkCnt k
        (shownDot r (s₀.after r inp 1).panningReg k x) := by
  have htime := r.fetch.raster.charTime_ge
  have hphase := r.fetch.loadPhase_lt
  have hcol := columns_le hr (c := r.fetch.raster.horizontalDisplaySize.toNat + 1) (Nat.lt_succ_self _)
  have hroom : r.fetch.raster.charTime ≤ r.fetch.loadPhase + 7 := by
    unfold RasterRegs.charTime RasterRegs.charDots FetchRegs.loadPhase
    cases r.fetch.raster.seqDotclockDivided <;> cases r.fetch.raster.seq8dotChar <;> decide
  have hcols : r.fetch.columns * r.fetch.raster.charTime =
      (r.fetch.raster.horizontalDisplaySize.toNat + 1) * r.fetch.raster.charTime + r.fetch.raster.charTime :=
    Nat.succ_mul _ _
  have hcols' : (r.fetch.raster.horizontalDisplaySize.toNat + 1 + 1) * r.fetch.raster.charTime =
      (r.fetch.raster.horizontalDisplaySize.toNat + 1) * r.fetch.raster.charTime + r.fetch.raster.charTime :=
    Nat.succ_mul _ _
  have hend : 2 * r.fetch.raster.charTime - r.fetch.loadPhase - 6 + x ≤ r.fetch.columns * r.fetch.raster.charTime := by
    omega
  have hkept := kept_at inp (e := 2 * r.fetch.raster.charTime - r.fetch.loadPhase - 6 + x + 4) h hr hoff hlast hk
    (by omega) (by omega)
  have hplace : panPlace (r.panAt (s₀.after r inp 1).panningReg (Fetch.rowAt r.fetch k)) < 9 := by
    unfold panPlace
    split
    · decide
    case isFalse hlow =>
      rw [getLsbD_top, decide_eq_true_iff] at hlow
      omega
  have hdots : 9 ≤ r.fetch.raster.charDots + x / dotTime r +
      panPlace (r.panAt (s₀.after r inp 1).panningReg (Fetch.rowAt r.fetch k)) := by
    generalize x / dotTime r = y
    unfold RasterRegs.charDots
    split
    case isTrue height =>
      have := Nat.pos_of_ne_zero (hpan height)
      omega
    · omega
  rw [pelAfterPanning_low hkept.panning, pelShiftReg_at _ h hr hoff hon hlast hk hend hplace (by
    rw [shiftsBefore_display]
    exact hdots), shiftsBefore_display]
  rfl

end Window

end Dots

end Z486.Video
