/-
The frame of the scanline counter in TV mode (src/soc/vga.v). Line `k` of a frame is row `r` of the raster with `k - r`
lines repeated before it, so the total the counter is compared with, which leaves the repeated lines out, makes the
frame end at the same line wherever the zoom has got to: at 524 or at the programmed number of lines with the repeats,
and one line later where the parity asks for it.

That holds as long as the total and the repeats fit the eleven bits they are added in.
-/
import Z486.Video.Scanlines

namespace Z486.Video

open Clocked

namespace Scanlines

/-! ## The lines of a frame -/

/-- The counter after its last line. -/
def frameStart : Scanlines := ⟨0, false, 0, 0⟩

/-- Line `k` of the frame, with the registers and options of `i`. -/
def line (i : ScanlineIn) : Nat → Scanlines
  | 0 => frameStart
  | k + 1 => (line i k).advance i

/-- The programmed last row. -/
def lastRow (i : ScanlineIn) : Nat := i.verticalTotal.toNat + 1

/-- How many lines the zoom shows again: every fifth of the picture. -/
def repeats (i : ScanlineIn) : Nat := if vzActive i then (i.displaySize.toNat + 1) / 5 else 0

/-- The number of the last line, for `natural` lines before it and a frame that is odd or even. -/
def frameEnd (natural : Nat) (odd : Bool) : Nat :=
  if (max natural 523 + 1) % 2 = odd.toNat then max natural 523 else max natural 523 + 1

theorem frameEnd_parity (natural : Nat) (odd : Bool) : (frameEnd natural odd + 1) % 2 = odd.toNat := by
  have hodd := odd.toNat_lt
  unfold frameEnd
  split <;> omega

theorem le_frameEnd (natural : Nat) (odd : Bool) : natural ≤ frameEnd natural odd ∧ 523 ≤ frameEnd natural odd := by
  unfold frameEnd
  split <;> omega

theorem frameEnd_le (natural : Nat) (odd : Bool) : frameEnd natural odd ≤ max natural 523 + 1 := by
  unfold frameEnd
  split <;> omega

/-! ## Where line `k` is -/

/-- The counter at line `k` of a frame: the rows and the repeated lines make up `k`, the repeats keep to every fifth row
of the picture, and after the picture all of them have been. -/
structure Along (i : ScanlineIn) (k : Nat) (s : Scanlines) : Prop where
  lines : s.vertCnt.toNat + s.vzIns.toNat = k
  zoomed : vzActive i = true → s.vertCnt.toNat ≤ i.displaySize.toNat →
    s.vzIns.toNat = s.vertCnt.toNat / 5 + s.vzRep.toNat ∧ s.vzCnt.toNat = s.vertCnt.toNat % 5 ∧
      (s.vzRep = true → s.vertCnt.toNat % 5 = 4)
  rest : (vzActive i = true → i.displaySize.toNat < s.vertCnt.toNat) → s.vzRep = false ∧ s.vzIns.toNat = repeats i

variable {i : ScanlineIn} {s : Scanlines} {k : Nat}

theorem vde_iff : s.vde i = true ↔ s.vertCnt.toNat ≤ i.displaySize.toNat := by
  unfold vde
  rw [decide_eq_true_iff, BitVec.le_def]

theorem displaySize_lt (hactive : vzActive i = true) : i.displaySize.toNat < 460 := by
  unfold vzActive at hactive
  rw [Bool.and_eq_true, decide_eq_true_iff, BitVec.lt_def] at hactive
  exact hactive.2

theorem repeats_active (hactive : vzActive i = true) : repeats i = (i.displaySize.toNat + 1) / 5 := if_pos hactive

theorem repeats_le : repeats i ≤ 92 := by
  unfold repeats
  split
  case isTrue hactive =>
    have := displaySize_lt hactive
    omega
  case isFalse => exact Nat.zero_le _

theorem along_frameStart : Along i 0 frameStart where
  lines := rfl
  zoomed _ _ := ⟨rfl, rfl, fun h => absurd h Bool.false_ne_true⟩
  rest h := by
    refine ⟨rfl, (if_neg fun hactive => ?_).symm⟩
    exact absurd (h hactive) (Nat.not_lt_zero _)

theorem vzRepNext_iff :
    s.vzRepNext i = true ↔
      vzActive i = true ∧ s.vertCnt.toNat ≤ i.displaySize.toNat ∧ s.vzRep = false ∧ s.vzCnt = 4 := by
  unfold vzRepNext
  rw [Bool.and_eq_true, Bool.and_eq_true, Bool.and_eq_true, vde_iff, Bool.not_eq_true', beq_iff_eq]
  tauto

theorem vzCnt_eq_four (x : BitVec 3) : x = 4 ↔ x.toNat = 4 := ⟨fun h => h ▸ rfl, fun h => BitVec.eq_of_toNat_eq h⟩

/-- A line that is shown again. -/
theorem Along.advance_held (h : Along i k s) (hlast : s.vertLastCnt i = false) (hrep : s.vzRepNext i = true) :
    Along i (k + 1) (s.advance i) := by
  obtain ⟨hactive, hrow, hfirst, hfour⟩ := vzRepNext_iff.1 hrep
  obtain ⟨hins, hcnt, -⟩ := h.zoomed hactive hrow
  have hsize := displaySize_lt hactive
  rw [hfirst, Bool.toNat_false] at hins
  have hinc : (s.vzIns + 1).toNat = s.vzIns.toNat + 1 := by
    rw [BitVec.toNat_add]
    show (_ + 1) % 256 = _
    omega
  have hlines := h.lines
  rw [Scanlines.advance_held hlast hrep]
  refine ⟨?_, fun _ _ => ⟨?_, hcnt, fun _ => ?_⟩, fun hpast => ?_⟩
  · show s.vertCnt.toNat + (s.vzIns + 1).toNat = k + 1
    omega
  · show (s.vzIns + 1).toNat = s.vertCnt.toNat / 5 + 1
    omega
  · rw [hfour] at hcnt
    exact hcnt.symm
  · exact absurd (hpast hactive) (Nat.not_lt.2 hrow)

/-- A line with a row of its own. -/
theorem Along.advance_next (h : Along i k s) (hlast : s.vertLastCnt i = false) (hrep : s.vzRepNext i = false)
    (hfit : s.vertCnt.toNat < 2047) : Along i (k + 1) (s.advance i) := by
  have hinc : (s.vertCnt + 1).toNat = s.vertCnt.toNat + 1 := by
    rw [BitVec.toNat_add]
    show (_ + 1) % 2048 = _
    omega
  have hlines := h.lines
  rw [Scanlines.advance_next hlast hrep]
  have hsum : (s.vertCnt + 1).toNat + s.vzIns.toNat = k + 1 := by omega
  by_cases hpast : vzActive i = true → i.displaySize.toNat < s.vertCnt.toNat
  · -- past the picture, or without the zoom
    obtain ⟨hfirst, hins⟩ := h.rest hpast
    refine ⟨hsum, fun hactive hrow => ?_, fun _ => ⟨rfl, hins⟩⟩
    have := hpast hactive
    have hrow : (s.vertCnt + 1).toNat ≤ i.displaySize.toNat := hrow
    omega
  · -- within the picture the fifth row goes on only when it has been repeated
    rw [Classical.not_imp, Nat.not_lt] at hpast
    obtain ⟨hactive, hrow⟩ := hpast
    obtain ⟨hins, hcnt, hagain⟩ := h.zoomed hactive hrow
    have hcount : s.vzIns.toNat = (s.vertCnt.toNat + 1) / 5 ∧
        (s.vzCntNext i).toNat = (s.vertCnt.toNat + 1) % 5 := by
      unfold vzCntNext
      rw [vde_iff.2 hrow, Bool.not_true, Bool.or_false]
      cases hshown : s.vzRep with
      | true =>
        have hfour := hagain hshown
        rw [hshown, Bool.toNat_true] at hins
        rw [if_pos (beq_iff_eq.2 ((vzCnt_eq_four _).2 (hcnt.trans hfour)))]
        show s.vzIns.toNat = _ ∧ 0 = _
        omega
      | false =>
        have hnot : s.vzCnt ≠ 4 := fun hfour =>
          absurd hrep (ne_false_of_eq_true (vzRepNext_iff.2 ⟨hactive, hrow, hshown, hfour⟩))
        have hnat := mt (vzCnt_eq_four _).2 hnot
        rw [hshown, Bool.toNat_false] at hins
        rw [if_neg (mt beq_iff_eq.1 hnot), BitVec.toNat_add]
        show s.vzIns.toNat = _ ∧ (s.vzCnt.toNat + 1) % 8 = _
        omega
    refine ⟨hsum, fun _ _ => ⟨?_, ?_, fun h => absurd h Bool.false_ne_true⟩, fun hpast => ⟨rfl, ?_⟩⟩
    · show s.vzIns.toNat = (s.vertCnt + 1).toNat / 5 + 0
      rw [hinc, Nat.add_zero, hcount.1]
    · show (s.vzCntNext i).toNat = (s.vertCnt + 1).toNat % 5
      rw [hinc, hcount.2]
    · have hlt : i.displaySize.toNat < (s.vertCnt + 1).toNat := hpast hactive
      have heq : i.displaySize.toNat = s.vertCnt.toNat := by omega
      show s.vzIns.toNat = repeats i
      rw [repeats_active hactive, heq, hcount.1]

theorem Along.advance (h : Along i k s) (hlast : s.vertLastCnt i = false) (hfit : s.vertCnt.toNat < 2047) :
    Along i (k + 1) (s.advance i) := by
  cases hrep : s.vzRepNext i with
  | true => exact h.advance_held hlast hrep
  | false => exact h.advance_next hlast hrep hfit

theorem Along.ins_le (h : Along i k s) : s.vzIns.toNat ≤ repeats i := by
  by_cases hpast : vzActive i = true → i.displaySize.toNat < s.vertCnt.toNat
  · exact Nat.le_of_eq (h.rest hpast).2
  · rw [Classical.not_imp, Nat.not_lt] at hpast
    obtain ⟨hactive, hrow⟩ := hpast
    obtain ⟨hins, -, hagain⟩ := h.zoomed hactive hrow
    rw [repeats_active hactive]
    cases hshown : s.vzRep with
    | true =>
      have := hagain hshown
      rw [hshown, Bool.toNat_true] at hins
      omega
    | false =>
      rw [hshown, Bool.toNat_false] at hins
      omega

/-! ## Where the frame ends -/

section Fits

/-- The rows and the repeats of the frame can be counted, with the line that makes the frame odd. -/
def Fits (i : ScanlineIn) : Prop := lastRow i + repeats i ≤ 2047 ∧ ¬(lastRow i = 2047 ∧ i.vodd = true)

variable (hstretch : i.vstretch = true) (hsize : i.displaySize.toNat < lastRow i) (hfits : Fits i)
include hstretch hfits

theorem Along.vertTotal_add (h : Along i k s) :
    (s.vertTotal i).toNat + s.vzIns.toNat = frameEnd (lastRow i + s.vzIns.toNat) i.vodd := by
  have hins := h.ins_le
  have hle := repeats_le (i := i)
  obtain ⟨hsum, hodd⟩ := hfits
  have hcrtc : (vertTotalCrtc i).toNat = lastRow i := by
    unfold vertTotalCrtc lastRow
    unfold lastRow at hsum
    rw [BitVec.toNat_add]
    show (_ + 1) % 2048 = _
    omega
  have hpad : (s.vertTotalPad i).toNat + s.vzIns.toNat = max (lastRow i + s.vzIns.toNat) 523 := by
    rw [vertTotalPad_toNat hstretch, hcrtc, Nat.mod_eq_of_lt (by omega)]
    split <;> omega
  rw [vertTotal_toNat hstretch, hpad]
  unfold frameEnd
  split
  case isTrue => exact hpad
  case isFalse hparity =>
    have hroom : (s.vertTotalPad i).toNat < 2047 := by
      have := (s.vertTotalPad i).isLt
      by_contra hfull
      have hfull : lastRow i = 2047 := by omega
      have heven : i.vodd = false := Bool.eq_false_of_not_eq_true fun h => hodd ⟨hfull, h⟩
      rw [heven, Bool.toNat_false] at hparity
      omega
    omega

include hsize

/-- The counter finds the last line where the frame has its number of lines, and nowhere before. -/
theorem Along.last_iff (h : Along i k s) :
    s.vertLastCnt i = true ↔ k = frameEnd (lastRow i + repeats i) i.vodd := by
  have htotal := h.vertTotal_add hstretch hfits
  have hlines := h.lines
  have hins := h.ins_le
  have hend := (le_frameEnd (lastRow i + repeats i) i.vodd).1
  have heq : s.vertLastCnt i = true ↔ s.vertCnt.toNat = (s.vertTotal i).toNat := by
    unfold vertLastCnt
    rw [beq_iff_eq, BitVec.toNat_inj]
  rw [heq]
  by_cases hpast : vzActive i = true → i.displaySize.toNat < s.vertCnt.toNat
  · rw [(h.rest hpast).2] at htotal
    have := (h.rest hpast).2
    omega
  · rw [Classical.not_imp, Nat.not_lt] at hpast
    have := (le_frameEnd (lastRow i + s.vzIns.toNat) i.vodd).1
    have := hpast.2
    omega

theorem Along.row_lt (h : Along i k s) (hk : k < frameEnd (lastRow i + repeats i) i.vodd) : s.vertCnt.toNat < 2047 := by
  have htotal := h.vertTotal_add hstretch hfits
  have hlines := h.lines
  have hlt := (s.vertTotal i).isLt
  have hsum := hfits.1
  by_cases hpast : vzActive i = true → i.displaySize.toNat < s.vertCnt.toNat
  · rw [(h.rest hpast).2] at htotal
    have := (h.rest hpast).2
    omega
  · rw [Classical.not_imp, Nat.not_lt] at hpast
    have := hpast.2
    omega

theorem line_along (hk : k ≤ frameEnd (lastRow i + repeats i) i.vodd) : Along i k (line i k) := by
  induction k with
  | zero => exact along_frameStart
  | succ k ih =>
    have h := ih (Nat.le_of_succ_le hk)
    refine h.advance (Bool.eq_false_of_not_eq_true fun hlast => ?_) (h.row_lt hstretch hsize hfits hk)
    exact absurd ((h.last_iff hstretch hsize hfits).1 hlast) (Nat.ne_of_lt hk)

end Fits

/-! ## The frame -/

/-- A frame of `n` lines as the TV needs it: it has the parity of `vodd` and at least 524 lines, and no more than it
takes where the picture leaves room; the rows come in order, each programmed row is there, and a line more of a row is
one the zoom repeats within the picture; the rows after the programmed ones are outside the picture. -/
structure SteadyFrame (i : ScanlineIn) (n : Nat) : Prop where
  last : ∀ k, k < n → ((line i k).vertLastCnt i = true ↔ k + 1 = n)
  parity : n % 2 = i.vodd.toNat
  atLeast : 524 ≤ n
  exact : lastRow i + 1 + repeats i < 524 → n ≤ 525
  inOrder : ∀ k, k + 1 < n → (line i (k + 1)).vertCnt.toNat = (line i k).vertCnt.toNat + 1 ∨
    (line i (k + 1)).vertCnt = (line i k).vertCnt ∧ (line i (k + 1)).vzRep = true ∧ (line i k).vde i = true
  every : ∀ row, row ≤ lastRow i → ∃ k, k < n ∧ (line i k).vertCnt.toNat = row
  blanked : ∀ k, k < n → lastRow i < (line i k).vertCnt.toNat → (line i k).vde i = false

/-- The frame after it is the same. -/
theorem SteadyFrame.again {n : Nat} (h : SteadyFrame i n) (k : Nat) : line i (n + k) = line i k := by
  induction k with
  | zero =>
    have hpos := h.atLeast
    obtain ⟨m, rfl⟩ : ∃ m, n = m + 1 := ⟨n - 1, by omega⟩
    have hlast := (h.last m (Nat.lt_succ_self m)).2 rfl
    show (line i m).advance i = frameStart
    rw [Scanlines.advance, if_pos hlast]
    rfl
  | succ k ih =>
    show (line i (n + k)).advance i = (line i k).advance i
    rw [ih]

theorem advance_row (hlast : s.vertLastCnt i = false) (hfit : s.vertCnt.toNat < 2047) :
    (s.advance i).vertCnt.toNat = s.vertCnt.toNat + 1 ∨
      (s.advance i).vertCnt = s.vertCnt ∧ (s.advance i).vzRep = true ∧ s.vde i = true := by
  cases hrep : s.vzRepNext i with
  | true =>
    rw [Scanlines.advance_held hlast hrep]
    exact .inr ⟨rfl, rfl, vde_iff.2 (vzRepNext_iff.1 hrep).2.1⟩
  | false =>
    rw [Scanlines.advance_next hlast hrep]
    refine .inl ?_
    show (s.vertCnt + 1).toNat = _
    rw [BitVec.toNat_add]
    show (_ + 1) % 2048 = _
    omega

theorem steadyFrame_of_fits (hstretch : i.vstretch = true) (hsize : i.displaySize.toNat < lastRow i) (hfits : Fits i) :
    SteadyFrame i (frameEnd (lastRow i + repeats i) i.vodd + 1) := by
  generalize hn : frameEnd (lastRow i + repeats i) i.vodd = n
  have halong : ∀ k, k ≤ n → Along i k (line i k) := fun k hk => line_along hstretch hsize hfits (hn ▸ hk)
  have hlast : ∀ k, k ≤ n → ((line i k).vertLastCnt i = true ↔ k = n) := fun k hk =>
    hn ▸ (halong k hk).last_iff hstretch hsize hfits
  have horder : ∀ k, k < n → _ := fun k hk =>
    advance_row (Bool.eq_false_of_not_eq_true (mt (hlast k (Nat.le_of_lt hk)).1 (Nat.ne_of_lt hk)))
      ((halong k (Nat.le_of_lt hk)).row_lt hstretch hsize hfits (hn ▸ hk))
  have hend := le_frameEnd (lastRow i + repeats i) i.vodd
  have hend' := frameEnd_le (lastRow i + repeats i) i.vodd
  refine ⟨fun k hk => ?_, hn ▸ frameEnd_parity _ _, by omega, fun hshort => by omega, fun k hk => horder k (by omega),
    fun row hrow => ?_, fun k hk hpast => ?_⟩
  · rw [hlast k (by omega)]
    omega
  · have hreach : row ≤ (line i n).vertCnt.toNat := by
      have := (halong n (Nat.le_refl n)).lines
      have := (halong n (Nat.le_refl n)).ins_le
      omega
    obtain ⟨k, hk, heq⟩ := exists_level (f := fun k => (line i k).vertCnt.toNat) (Nat.zero_le row)
      (fun k hk => by
        rcases horder k hk with h | ⟨h, -⟩
        · exact Nat.le_of_eq h
        · exact Nat.le_succ_of_le (Nat.le_of_eq (congrArg BitVec.toNat h))) hreach
    exact ⟨k, by omega, heq⟩
  · refine Bool.eq_false_of_not_eq_true fun hshown => ?_
    have := vde_iff.1 hshown
    omega

/-! ## Where the sums do not fit -/

/-- With the repeats the total passes the range of the sum, and is taken for a short frame's. -/
theorem vertTotal_short (hstretch : i.vstretch = true) (hcrtc : (vertTotalCrtc i).toNat = lastRow i)
    (hins : s.vzIns.toNat = repeats i) (hfull : 2048 ≤ lastRow i + repeats i) : (s.vertTotal i).toNat ≤ 524 := by
  have hle := repeats_le (i := i)
  have hlt := (vertTotalCrtc i).isLt
  have hpad : (s.vertTotalPad i).toNat = 523 - repeats i := by
    rw [vertTotalPad_toNat hstretch, hcrtc, hins, if_pos (by omega)]
  rw [vertTotal_toNat hstretch, hpad]
  split <;> omega

/-- The counter then runs past the last row without meeting the total. -/
theorem not_steadyFrame_of_repeats (hstretch : i.vstretch = true) (hsize : i.displaySize.toNat < lastRow i)
    (hfull : 2048 ≤ lastRow i + repeats i) {n : Nat} : ¬ SteadyFrame i n := by
  intro h
  obtain ⟨k, hk, hrow⟩ := h.every (lastRow i) (Nat.le_refl _)
  have hlt := (line i k).vertCnt.isLt
  have hle := repeats_le (i := i)
  have hcrtc : (vertTotalCrtc i).toNat = lastRow i := by
    unfold vertTotalCrtc lastRow
    unfold lastRow at hrow
    rw [BitVec.toNat_add]
    show (_ + 1) % 2048 = _
    omega
  -- past the picture the rows are in order
  have horder : ∀ j, j + 1 < n → i.displaySize.toNat < (line i j).vertCnt.toNat →
      (line i (j + 1)).vertCnt.toNat = (line i j).vertCnt.toNat + 1 := by
    intro j hj hpast
    refine (h.inOrder j hj).resolve_right fun hheld => ?_
    exact absurd (vde_iff.1 hheld.2.2) (Nat.not_le.2 hpast)
  -- so the count of lines is along the rows up to there
  have halong : ∀ j, j < n → Along i j (line i j) := by
    intro j
    induction j with
    | zero => exact fun _ => along_frameStart
    | succ j ih =>
      intro hj
      refine (ih (Nat.lt_of_succ_lt hj)).advance (Bool.eq_false_of_not_eq_true fun hlast => ?_) ?_
      · have := (h.last j (Nat.lt_of_succ_lt hj)).1 hlast
        omega
      · have := (line i j).vertCnt.isLt
        have := (line i (j + 1)).vertCnt.isLt
        by_contra hfull
        have := horder j hj (by omega)
        omega
  -- and never meets the total, which is 2048 short
  have hruns : ∀ m, k + m < n ∧ (line i (k + m)).vertCnt.toNat = lastRow i + m := by
    intro m
    induction m with
    | zero => exact ⟨hk, hrow⟩
    | succ m ih =>
      obtain ⟨hm, hrow⟩ := ih
      have hshort := vertTotal_short hstretch hcrtc ((halong _ hm).rest fun _ => by omega).2 hfull
      have hnot : k + m + 1 ≠ n := by
        intro heq
        have hmet := (h.last _ hm).2 heq
        unfold vertLastCnt at hmet
        rw [beq_iff_eq] at hmet
        rw [← hmet] at hshort
        omega
      have hnext := horder (k + m) (by omega) (by omega)
      exact ⟨by omega, by rw [← Nat.add_assoc, hnext, hrow, Nat.add_assoc]⟩
  have := (line i (k + 2048)).vertCnt.isLt
  have := (hruns 2048).2
  omega

/-- With 2048 rows the line that makes the frame odd is row 2048, which the counter takes for row 0. -/
theorem vertLastCnt_frameStart (hstretch : i.vstretch = true) (hrows : i.verticalTotal = 2046) (hodd : i.vodd = true) :
    frameStart.vertLastCnt i = true := by
  have hpad : frameStart.vertTotalPad i = 2047 := by
    unfold vertTotalPad vertTotalCrtc
    rw [hrows, hstretch]
    rfl
  unfold vertLastCnt vertTotal vertParEven
  rw [hpad, hstretch, hodd]
  rfl

theorem not_steadyFrame_of_odd (hstretch : i.vstretch = true) (hrows : i.verticalTotal = 2046) (hodd : i.vodd = true)
    {n : Nat} : ¬ SteadyFrame i n := by
  intro h
  have hmany := h.atLeast
  have hone := (h.last 0 (by omega)).1 (vertLastCnt_frameStart hstretch hrows hodd)
  omega

/-- In TV mode the counter makes steady frames of every programming whose rows and repeats fit the counter. -/
theorem steadyFrame_iff (i : ScanlineIn) (hstretch : i.vstretch = true) (hsize : i.displaySize.toNat < lastRow i) :
    (∃ n, SteadyFrame i n) ↔ lastRow i + repeats i ≤ 2047 ∧ ¬(lastRow i = 2047 ∧ i.vodd = true) := by
  constructor
  · rintro ⟨n, h⟩
    refine ⟨?_, fun hodd => ?_⟩
    · by_contra hfull
      exact not_steadyFrame_of_repeats hstretch hsize (by omega) h
    · have hrows : i.verticalTotal = 2046 := by
        refine BitVec.eq_of_toNat_eq ?_
        have := hodd.1
        unfold lastRow at this
        show _ = 2046
        omega
      exact not_steadyFrame_of_odd hstretch hrows hodd.2 h
  · exact fun hfits => ⟨_, steadyFrame_of_fits hstretch hsize hfits⟩

/-- The 70 Hz text mode, zoomed and made odd. -/
theorem steadyFrame_text : ∃ n, SteadyFrame ⟨true, true, true, true, 399, 447⟩ n :=
  (steadyFrame_iff ⟨true, true, true, true, 399, 447⟩ rfl (by decide)).2 (by decide)

/-- Of 2048 rows and an odd frame the first is the last. -/
theorem oddRows_not_steady : ¬ ∃ n, SteadyFrame ⟨true, false, true, true, 399, 2046⟩ n := by
  rintro ⟨n, h⟩
  have hmany := h.atLeast
  have hone := (h.last 0 (by omega)).1 (by decide)
  omega

/-! ## The clocks of a line -/

/-- A run with the registers and options held: the counter goes on by a line with each horizontal retrace. -/
theorem run_line (inp : Nat → ScanlineIn) (hheld : ∀ t, { inp t with hsync := i.hsync } = i) (t : Nat) :
    run step frameStart inp t = line i (pulses (fun u => (inp u).hsync) 0 t) := by
  induction t with
  | zero => rw [pulses_self]; rfl
  | succ t ih =>
    have hsame : ∀ s : Scanlines, s.advance (inp t) = s.advance i := by
      intro s
      rw [← hheld t]
      rfl
    rw [run_succ, ih, pulses_succ _ (Nat.zero_le t)]
    unfold step
    cases (inp t).hsync with
    | false => rfl
    | true => exact hsame _

end Scanlines

end Z486.Video
