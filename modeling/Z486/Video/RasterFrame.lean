/-
The frame of the VGA raster (src/soc/vga.v). With the registers held a line takes the same number of enables each time
and the scanline counter goes on once in it, so the frame is told by two counters: the enables of the line and the lines
of the frame. From these the syncs and the display window are closed forms: the vertical sync starts once in each frame,
at its own row, and lasts as many lines as the low bits of the retrace end say.
-/
import Z486.Clocked.Pulse
import Z486.Video.Raster
import Z486.Video.TvFrame

namespace Z486.Video

open Clocked Scanlines

/-! ## The lines of a frame -/

namespace RasterRegs

variable (r : RasterRegs)

def scanlines : ScanlineIn := r.scanlineIn true

/-- The lines of a frame, with those the zoom repeats and those the TV output adds. -/
def frameLines : Nat :=
  if r.vstretch then frameEnd (lastRow r.scanlines + repeats r.scanlines) r.vodd + 1
  else lastRow r.scanlines + repeats r.scanlines + 1

/-- The picture ends before the frame does, and the counter has room for the rows. -/
structure FrameFits : Prop where
  size : r.verticalDisplaySize.toNat < lastRow r.scanlines
  tv : r.vstretch = true → Fits r.scanlines
  plain : r.vstretch = false → lastRow r.scanlines ≤ 2047

/-- The line of the frame in which the vertical retrace starts. -/
def retraceLine : Nat := r.verticalRetraceStart.toNat + repeats r.scanlines

/-- The characters of the horizontal retrace. -/
def retraceChars : Nat :=
  ((r.horizontalRetraceEnd + r.horizontalRetraceSkew.setWidth 5).toNat + 31 - r.retraceChar % 32) % 32 + 1

/-- The enables of a frame, and those until its vertical retrace has started. -/
def frameTime : Nat := r.frameLines * r.lineTime

def retraceTime : Nat := (r.retraceLine + 1) * r.lineTime

/-- The lines of the vertical retrace. -/
def retraceLines : Nat := (r.verticalRetraceEnd.toNat + 15 - r.verticalRetraceStart.toNat % 16) % 16 + 1

/-- The enables of a frame until its vertical retrace has ended. -/
def retraceEndTime : Nat := (r.retraceLine + r.retraceLines + 1) * r.lineTime

end RasterRegs

section Lines

variable {r : RasterRegs} {k : Nat} {s : Scanlines}

/-- Without the TV options the last line is the programmed one. -/
theorem Scanlines.Along.plain_last_iff (h : Along r.scanlines k s) (hplain : r.vstretch = false)
    (hsize : r.verticalDisplaySize.toNat < lastRow r.scanlines) (hrows : lastRow r.scanlines ≤ 2047) :
    s.vertLastCnt r.scanlines = true ↔ k = lastRow r.scanlines + repeats r.scanlines := by
  have hstretch : r.scanlines.vstretch = false := hplain
  have htotal : (s.vertTotal r.scanlines).toNat = lastRow r.scanlines := by
    unfold vertTotal vertTotalPad
    rw [hstretch, Bool.false_and, if_neg Bool.false_ne_true, Bool.false_and, if_neg Bool.false_ne_true]
    exact toNat_succ (by unfold lastRow at hrows; omega)
  have hlines := h.lines
  have hins := h.ins_le
  have heq : s.vertLastCnt r.scanlines = true ↔ s.vertCnt.toNat = lastRow r.scanlines := by
    unfold vertLastCnt
    rw [beq_iff_eq, ← BitVec.toNat_inj, htotal]
  rw [heq]
  by_cases hpast : vzActive r.scanlines = true → r.scanlines.displaySize.toNat < s.vertCnt.toNat
  · have := (h.rest hpast).2
    omega
  · rw [Classical.not_imp, Nat.not_lt] at hpast
    have hrow : s.vertCnt.toNat ≤ r.verticalDisplaySize.toNat := hpast.2
    omega

variable (hfits : r.FrameFits)
include hfits

theorem RasterRegs.FrameFits.last_iff (h : Along r.scanlines k s) :
    s.vertLastCnt r.scanlines = true ↔ k + 1 = r.frameLines := by
  unfold RasterRegs.frameLines
  cases hstretch : r.vstretch with
  | false =>
    rw [if_neg Bool.false_ne_true, h.plain_last_iff hstretch hfits.size (hfits.plain hstretch)]
    omega
  | true =>
    have hlast := h.last_iff hstretch hfits.size (hfits.tv hstretch)
    rw [if_pos rfl, hlast]
    exact (Nat.add_left_inj (n := 1)).symm

theorem RasterRegs.FrameFits.row_lt (h : Along r.scanlines k s) (hk : k + 1 < r.frameLines) : s.vertCnt.toNat < 2047 := by
  unfold RasterRegs.frameLines at hk
  cases hstretch : r.vstretch with
  | false =>
    rw [hstretch, if_neg Bool.false_ne_true] at hk
    have hrows := hfits.plain hstretch
    have hsize := hfits.size
    have hlines := h.lines
    by_cases hpast : vzActive r.scanlines = true → r.scanlines.displaySize.toNat < s.vertCnt.toNat
    · have := (h.rest hpast).2
      omega
    · rw [Classical.not_imp, Nat.not_lt] at hpast
      have hrow : s.vertCnt.toNat ≤ r.verticalDisplaySize.toNat := hpast.2
      omega
  | true =>
    rw [hstretch, if_pos rfl] at hk
    exact h.row_lt hstretch hfits.size (hfits.tv hstretch) (by show k < frameEnd _ r.vodd; omega)

/-- The lines of a frame are along the rows, and the last is the last of the frame. -/
theorem RasterRegs.FrameFits.line_along (hk : k < r.frameLines) : Along r.scanlines k (line r.scanlines k) := by
  induction k with
  | zero => exact along_frameStart
  | succ k ih =>
    have h := ih (Nat.lt_of_succ_lt hk)
    refine h.advance (Bool.eq_false_of_not_eq_true fun hlast => ?_) (hfits.row_lt h hk)
    exact absurd ((hfits.last_iff h).1 hlast) (Nat.ne_of_lt hk)

theorem RasterRegs.FrameFits.line_again (k : Nat) : line r.scanlines (r.frameLines + k) = line r.scanlines k := by
  induction k with
  | zero =>
    obtain ⟨m, hm⟩ : ∃ m, r.frameLines = m + 1 := by
      unfold RasterRegs.frameLines
      split <;> exact ⟨_, rfl⟩
    have hlast := (hfits.last_iff (hfits.line_along (k := m) (by omega))).2 hm.symm
    rw [hm]
    show (line r.scanlines m).advance r.scanlines = Scanlines.frameStart
    rw [Scanlines.advance, if_pos hlast]
    rfl
  | succ k ih =>
    show (line r.scanlines (r.frameLines + k)).advance r.scanlines = (line r.scanlines k).advance r.scanlines
    rw [ih]

/-- The frames are all the same. -/
theorem RasterRegs.FrameFits.line_mod (k : Nat) : line r.scanlines (k % r.frameLines) = line r.scanlines k := by
  have hagain : ∀ q m, line r.scanlines (r.frameLines * q + m) = line r.scanlines m := by
    intro q m
    induction q with
    | zero => rw [Nat.mul_zero, Nat.zero_add]
    | succ q ih => rw [Nat.mul_succ, Nat.add_assoc, Nat.add_left_comm, hfits.line_again, ih]
  conv_rhs => rw [← Nat.div_add_mod k r.frameLines, hagain]

/-- Past the picture the rows are the lines without the repeats; `first` is a row past it. -/
theorem RasterRegs.FrameFits.row_iff {first : Nat} (hfirst : r.verticalDisplaySize.toNat < first) (hk : k < r.frameLines) :
    (line r.scanlines k).vertCnt.toNat =
        k - repeats r.scanlines ∧ first ≤ (line r.scanlines k).vertCnt.toNat ∧ first + repeats r.scanlines ≤ k ∨
      (line r.scanlines k).vertCnt.toNat < first ∧ k < first + repeats r.scanlines := by
  have h := hfits.line_along hk
  have hlines := h.lines
  have hins := h.ins_le
  by_cases hpast : vzActive r.scanlines = true → r.scanlines.displaySize.toNat < (line r.scanlines k).vertCnt.toNat
  · have := (h.rest hpast).2
    omega
  · rw [Classical.not_imp, Nat.not_lt] at hpast
    have hrow : (line r.scanlines k).vertCnt.toNat ≤ r.verticalDisplaySize.toNat := hpast.2
    omega

/-- Each of the first rows is there, before the repeats come to more than they do in the picture. -/
theorem RasterRegs.FrameFits.exists_row (row : Nat) (hrow : row + repeats r.scanlines < r.frameLines) :
    ∃ k, k ≤ row + repeats r.scanlines ∧ (line r.scanlines k).vertCnt.toNat = row := by
  have h := hfits.line_along hrow
  have hlines := h.lines
  have hins := h.ins_le
  refine exists_level (f := fun k => (line r.scanlines k).vertCnt.toNat) (Nat.zero_le row) (fun k hk => ?_) (by omega)
  have hk := hfits.line_along (show k < r.frameLines by omega)
  rcases advance_row (Bool.eq_false_of_not_eq_true (mt (hfits.last_iff hk).1 (by omega))) (hfits.row_lt hk (by omega)) with
    hnext | hheld
  · exact Nat.le_of_eq hnext
  · exact Nat.le_succ_of_le (Nat.le_of_eq (congrArg BitVec.toNat hheld.1))

end Lines

/-! ## The raster after `n` enables -/

namespace Raster

/-- The raster after `n` enables with the registers held. -/
def after (s₀ : Raster) (r : RasterRegs) : Nat → Raster
  | 0 => s₀
  | n + 1 => (after s₀ r n).next r

theorem run_step (s₀ : Raster) (r : RasterRegs) (ce : Nat → Bool) (t : Nat) :
    run (fun s e => s.step r e) s₀ ce t = s₀.after r (pulses ce 0 t) := by
  induction t with
  | zero => rw [pulses_self]; rfl
  | succ t ih =>
    rw [run_succ, ih, pulses_succ ce (Nat.zero_le t)]
    cases ce t with
    | true => rfl
    | false => rfl

/-- The enable with which a frame ends: the horizontal retrace of the last line. -/
structure Wraps (s : Raster) (r : RasterRegs) : Prop where
  latched : s.Latched r
  retrace : r.retraceChar ≤ r.lastChar
  advances : s.advances r = true
  last : s.lines.vertLastCnt r.scanlines = true

section Frame

variable {s₀ : Raster} {r : RasterRegs} (h : s₀.Wraps r)
include h

theorem Wraps.latched_after (n : Nat) : (s₀.after r n).Latched r := by
  induction n with
  | zero => exact h.latched
  | succ n ih => exact ih.next

theorem Wraps.advanceTime_le : r.advanceTime ≤ r.lineTime :=
  Nat.mul_le_mul_right _ (Nat.succ_le_succ h.retrace)

omit h in
theorem advanceTime_ge : 8 ≤ r.advanceTime :=
  r.charTime_ge.trans (Nat.le_mul_of_pos_left _ (Nat.succ_pos _))

theorem Wraps.pos_after (n : Nat) : (s₀.after r n).pos r = (r.advanceTime - 1 + n) % r.lineTime := by
  have hle := h.advanceTime_le
  have hge := advanceTime_ge (r := r)
  induction n with
  | zero =>
    have hpos := h.latched.advances_iff.1 h.advances
    rw [Nat.add_zero, Nat.mod_eq_of_lt (by omega)]
    show s₀.pos r = _
    omega
  | succ n ih =>
    have hnext := (h.latched_after n).toWithin.pos_next
    rw [ih] at hnext
    rw [← Nat.add_assoc, succ_mod (by omega)]
    exact hnext

/-- The scanline counter goes on once a line. -/
theorem Wraps.advances_after (n : Nat) : (s₀.after r n).advances r = true ↔ n % r.lineTime = 0 := by
  have hle := h.advanceTime_le
  have hge := advanceTime_ge (r := r)
  rw [(h.latched_after n).advances_iff, h.pos_after, ← add_mod_eq_iff (show r.advanceTime - 1 < r.lineTime by omega)]
  omega

theorem Wraps.sync_after (n : Nat) :
    ((s₀.after r n).vgaprepDotTiming r && (s₀.after r n).hss) = true ↔ (n + 1) % r.lineTime = 0 := by
  have hle := h.advanceTime_le
  have hge := advanceTime_ge (r := r)
  have hsucc := succ_mod (k := r.advanceTime - 1 + n) (show 0 < r.lineTime by omega)
  have hlt := Nat.mod_lt (r.advanceTime - 1 + n) (show 0 < r.lineTime by omega)
  rw [(h.latched_after n).sync_iff, h.pos_after, ← add_mod_eq_iff (show r.advanceTime - 1 < r.lineTime by omega),
    ← Nat.add_assoc, hsucc]
  split <;> omega

theorem Wraps.lineTime_ge : 8 ≤ r.lineTime := (advanceTime_ge (r := r)).trans h.advanceTime_le

/-- The line of the frames that the raster is in. -/
theorem Wraps.lines_after (n : Nat) : (s₀.after r (n + 1)).lines = line r.scanlines (n / r.lineTime) := by
  have htime := h.lineTime_ge
  have hgo : ∀ m, (s₀.after r (m + 1)).lines =
      if m % r.lineTime = 0 then (s₀.after r m).lines.advance r.scanlines else (s₀.after r m).lines := by
    intro m
    show (if (s₀.after r m).advances r = true then _ else _) = _
    rw [if_congr (h.advances_after m) rfl rfl]
    rfl
  induction n with
  | zero =>
    rw [hgo, if_pos (Nat.zero_mod _), Nat.zero_div]
    show s₀.lines.advance r.scanlines = Scanlines.frameStart
    rw [Scanlines.advance, if_pos h.last]
    rfl
  | succ n ih =>
    rw [hgo, ih, Nat.succ_div]
    by_cases hline : r.lineTime ∣ n + 1
    · rw [if_pos hline, if_pos (Nat.mod_eq_zero_of_dvd hline)]
      rfl
    · rw [if_neg hline, if_neg (mt Nat.dvd_of_mod_eq_zero hline), Nat.add_zero]

/-! ## The vertical sync -/

omit h in
/-- The vertical sync after the retrace of a line. -/
def vertSyncNext (r : RasterRegs) (row : BitVec 11) (on : Bool) : Bool :=
  if row == r.verticalRetraceStart then true else if row.setWidth 4 == r.verticalRetraceEnd && on then false else on

omit h in
theorem vertSyncNext_eq (row : BitVec 11) (on : Bool) :
    vertSyncNext r row on =
      if row.toNat = r.verticalRetraceStart.toNat then true
      else if row.toNat % 16 = r.verticalRetraceEnd.toNat then false else on := by
  have hstart : (row == r.verticalRetraceStart) = true ↔ row.toNat = r.verticalRetraceStart.toNat := by
    rw [beq_iff_eq, BitVec.toNat_inj]
  have hend : (row.setWidth 4 == r.verticalRetraceEnd) = true ↔ row.toNat % 16 = r.verticalRetraceEnd.toNat := by
    rw [beq_iff_eq, ← BitVec.toNat_inj, BitVec.toNat_setWidth]
  unfold vertSyncNext
  rw [if_congr hstart rfl rfl]
  by_cases hover : row.toNat % 16 = r.verticalRetraceEnd.toNat
  · rw [if_pos hover, hend.2 hover, Bool.true_and]
    cases on <;> rfl
  · rw [if_neg hover, Bool.eq_false_of_not_eq_true (mt hend.1 hover), Bool.false_and, if_neg Bool.false_ne_true]

omit h in
/-- The vertical sync after `k` lines. -/
def vertSyncAt (s₀ : Raster) (r : RasterRegs) : Nat → Bool
  | 0 => s₀.vertSync
  | k + 1 => vertSyncNext r (line r.scanlines k).vertCnt (vertSyncAt s₀ r k)

theorem Wraps.vertSync_after (n : Nat) : (s₀.after r n).vertSync = vertSyncAt s₀ r (n / r.lineTime) := by
  have htime := h.lineTime_ge
  induction n with
  | zero => rw [Nat.zero_div]; rfl
  | succ n ih =>
    have hgo : (s₀.after r (n + 1)).vertSync =
        if (s₀.after r n).vgaprepDotTiming r && (s₀.after r n).hss then
          vertSyncNext r (s₀.after r n).lines.vertCnt (s₀.after r n).vertSync
        else (s₀.after r n).vertSync := rfl
    rw [hgo, ih, Nat.succ_div]
    by_cases hline : r.lineTime ∣ n + 1
    · have hmod := Nat.mod_eq_zero_of_dvd hline
      obtain ⟨m, rfl⟩ : ∃ m, n = m + 1 := by
        refine ⟨n - 1, ?_⟩
        have := Nat.le_of_dvd (Nat.succ_pos n) hline
        omega
      -- the line is still the one whose retrace this is
      have hsame : (m + 1) / r.lineTime = m / r.lineTime := by
        rw [Nat.succ_div, if_neg, Nat.add_zero]
        intro hdvd
        have := (Nat.dvd_add_right hdvd).1 hline
        have := Nat.le_of_dvd Nat.one_pos this
        omega
      rw [if_pos ((h.sync_after (m + 1)).2 hmod), if_pos hline, h.lines_after, hsame]
      rfl
    · rw [if_neg (mt (h.sync_after n).1 (mt Nat.dvd_of_mod_eq_zero hline)), if_neg hline, Nat.add_zero]

/-- The vertical retrace starts with the retrace of its own row. -/
theorem Wraps.retraceStart_row {n : Nat} (hstart : (s₀.after r (n + 1)).dotMemoryLoadVerticalRetraceStart = true) :
    r.lineTime ∣ n + 1 ∧ (line r.scanlines (n / r.lineTime)).vertCnt.toNat = r.verticalRetraceStart.toNat := by
  have hlast : (s₀.after r (n + 1)).vertSyncLast = (s₀.after r n).vertSync := rfl
  unfold dotMemoryLoadVerticalRetraceStart at hstart
  rw [hlast, h.vertSync_after, h.vertSync_after, Bool.and_eq_true, Bool.not_eq_true', Nat.succ_div] at hstart
  obtain ⟨hon, hoff⟩ := hstart
  by_cases hline : r.lineTime ∣ n + 1
  · rw [if_pos hline] at hon
    refine ⟨hline, by_contra fun hrow => ?_⟩
    have hnext : vertSyncNext r _ _ = true := hon
    rw [vertSyncNext_eq, if_neg hrow, hoff, ite_self] at hnext
    exact Bool.false_ne_true hnext
  · rw [if_neg hline, Nat.add_zero, hoff] at hon
    exact absurd hon Bool.false_ne_true

variable (hfits : r.FrameFits) (hrow : r.verticalDisplaySize < r.verticalRetraceStart)
  (hfirst : 16 ≤ r.verticalRetraceStart.toNat) (hroom : r.retraceLine + r.retraceLines < r.frameLines)

omit h in
include hfits hrow hroom in
/-- The vertical sync is a pulse of the lines of a frame. -/
theorem vertSync_pulse (s₀ : Raster) :
    Pulse (· % r.frameLines) (vertSyncAt s₀ r) r.frameLines r.retraceLine r.retraceLines := by
  have hsize := BitVec.lt_def.1 hrow
  have hlow := r.verticalRetraceEnd.isLt
  have hgo : ∀ k, vertSyncAt s₀ r (k + 1) = _ := fun k => vertSyncNext_eq (line r.scanlines k).vertCnt (vertSyncAt s₀ r k)
  have hrows := fun k => hfits.row_iff (k := k % r.frameLines) hsize (Nat.mod_lt k (by omega))
  simp only [hfits.line_mod] at hrows
  unfold RasterRegs.retraceLine RasterRegs.retraceLines at *
  refine ⟨fun k => Nat.mod_lt k (by omega), fun k => succ_mod (by omega), Nat.succ_pos _, hroom, fun k hk => ?_,
    fun k hk hk' => ?_, fun k hk => ?_, fun k hk hoff => ?_⟩
  · have hrow := hrows k
    rw [hgo, if_pos (by omega)]
  · have hrow := hrows k
    rw [hgo, if_neg (by omega), if_neg (by omega)]
  · have hrow := hrows k
    rw [hgo, if_neg (by omega), if_pos (by omega)]
  · have hrow := hrows k
    rw [hgo, if_neg (by omega), hoff, ite_self]

omit h in
include hfits hrow hfirst hroom in
/-- Whatever it was before, the vertical sync is low at its row. -/
theorem vertSyncAt_retraceLine (s₀ : Raster) : vertSyncAt s₀ r r.retraceLine = false := by
  have hlow := r.verticalRetraceEnd.isLt
  have hpulse := vertSync_pulse hfits hrow hroom s₀
  obtain ⟨k, hk, hend⟩ := hfits.exists_row r.verticalRetraceEnd.toNat
    (by unfold RasterRegs.retraceLine RasterRegs.retraceLines at hroom; omega)
  have hbefore : k < r.retraceLine := by unfold RasterRegs.retraceLine; omega
  have hcleared : vertSyncAt s₀ r (k + 1) = false := by
    show vertSyncNext r _ _ = _
    rw [vertSyncNext_eq, if_neg (by omega), if_pos (by omega)]
  refine Nat.le_induction (P := fun m _ => m ≤ r.retraceLine → vertSyncAt s₀ r m = false) (fun _ => hcleared)
    (fun m hm ih hle => ?_) r.retraceLine hbefore (Nat.le_refl _)
  refine hpulse.rests m (.inl ?_) (ih (Nat.le_of_succ_le hle))
  show m % r.frameLines < _
  rw [Nat.mod_eq_of_lt (by omega)]
  omega

/-! ## The characters of a line -/

omit hfits hrow hfirst hroom

/-- The character in which the raster is, counted on from the one in which it begins. -/
theorem Wraps.horizCnt_after (n : Nat) :
    (s₀.after r n).horizCnt.toNat = (n + r.advanceTime - 1) / r.charTime % (r.lastChar + 1) := by
  have htime := r.charTime_ge
  have hge := advanceTime_ge (r := r)
  rw [← (h.latched_after n).toWithin.pos_div, h.pos_after, RasterRegs.lineTime, Nat.mul_comm,
    Nat.mod_mul_right_div_self]
  congr 2
  omega

omit h in
/-- At the timing dot of the character after the `n / charTime` ones. -/
theorem place_of_dvd {n : Nat} (hchar : r.charTime ∣ n + 1) :
    (n + r.advanceTime - 1) / r.charTime = n / r.charTime + r.retraceChar + 1 ∧
      (n + 1 + r.advanceTime) / r.charTime = n / r.charTime + r.retraceChar + 2 := by
  have htime := r.charTime_ge
  obtain ⟨q, hq⟩ := hchar
  obtain ⟨m, rfl⟩ : ∃ m, q = m + 1 := by
    refine Nat.exists_eq_succ_of_ne_zero ?_
    rintro rfl
    omega
  have hn : n = r.charTime * m + (r.charTime - 1) := by
    rw [Nat.mul_succ] at hq
    omega
  have hle := Nat.le_mul_of_pos_right r.charTime (Nat.succ_pos r.retraceChar)
  have hbefore : n + r.advanceTime - 1 = r.charTime * (m + r.retraceChar + 1) + (r.charTime - 2) := by
    unfold RasterRegs.advanceTime
    rw [hn, Nat.add_assoc m, Nat.mul_add _ m, Nat.mul_comm (r.retraceChar + 1)]
    omega
  have hafter : n + 1 + r.advanceTime = r.charTime * (m + r.retraceChar + 2) := by
    unfold RasterRegs.advanceTime
    rw [hq, Nat.mul_comm (r.retraceChar + 1), ← Nat.mul_add]
    congr 1
    omega
  rw [hbefore, hafter, Nat.mul_add_div (by omega), Nat.div_eq_of_lt (by omega), Nat.mul_div_cancel_left _ (by omega), hn,
    Nat.mul_add_div (by omega), Nat.div_eq_of_lt (by omega)]
  exact ⟨rfl, rfl⟩

theorem Wraps.phase_after (n : Nat) : (s₀.after r n).phase r = (n + (r.charTime - 1)) % r.charTime := by
  have htime := r.charTime_ge
  have hsum : r.advanceTime - 1 + n = r.charTime * r.retraceChar + (n + (r.charTime - 1)) := by
    unfold RasterRegs.advanceTime
    rw [Nat.succ_mul, Nat.mul_comm]
    omega
  rw [← (h.latched_after n).toWithin.pos_mod, h.pos_after, RasterRegs.lineTime,
    Nat.mod_mod_of_dvd _ (Nat.dvd_mul_left _ _), hsum, Nat.mul_add_mod]

theorem Wraps.timing_after (n : Nat) : (s₀.after r n).vgaprepDotTiming r = true ↔ r.charTime ∣ n + 1 := by
  have htime := r.charTime_ge
  have hnext := succ_mod (k := n) (show 0 < r.charTime by omega)
  have hback := succ_mod (k := n + (r.charTime - 1)) (show 0 < r.charTime by omega)
  have hlt := Nat.mod_lt (n + (r.charTime - 1)) (show 0 < r.charTime by omega)
  rw [Nat.add_assoc, Nat.sub_add_cancel (by omega), Nat.add_mod_right] at hback
  rw [(h.latched_after n).toWithin.vgaprepDotTiming_iff, h.phase_after, Nat.dvd_iff_mod_eq_zero, hnext]
  split at hback <;> split <;> omega

/-! ## The horizontal sync -/

omit h in
/-- The horizontal sync after the timing dot of a character. -/
def horizSyncNext (r : RasterRegs) (char : Nat) (on : Bool) : Bool :=
  if char = r.retraceChar then true
  else if char % 32 = (r.horizontalRetraceEnd + r.horizontalRetraceSkew.setWidth 5).toNat then false else on

omit h in
/-- The horizontal sync after `k` characters, the first of them the one after the retrace has begun. -/
def horizSyncAt (s₀ : Raster) (r : RasterRegs) : Nat → Bool
  | 0 => s₀.horizSync
  | k + 1 => horizSyncNext r ((k + r.retraceChar + 1) % (r.lastChar + 1)) (horizSyncAt s₀ r k)

omit h in
theorem Latched.horizSync_next {s : Raster} (hs : s.Latched r) :
    (s.next r).horizSync = if s.vgaprepDotTiming r then horizSyncNext r s.horizCnt.toNat s.horizSync else s.horizSync := by
  have hend : s.hse = true ↔
      s.horizCnt.toNat % 32 = (r.horizontalRetraceEnd + r.horizontalRetraceSkew.setWidth 5).toNat := by
    unfold hse
    rw [hs.hre, hs.hrskew, beq_iff_eq, ← BitVec.toNat_inj, BitVec.toNat_setWidth]
  show (if s.vgaprepDotTiming r then if s.hss then true else if s.hse && s.horizSync then false else s.horizSync
    else s.horizSync) = _
  unfold horizSyncNext
  rw [if_congr hs.hss_iff rfl rfl]
  by_cases hover : s.hse = true
  · rw [if_pos (hend.1 hover), hover, Bool.true_and]
    cases s.horizSync <;> rfl
  · rw [if_neg (mt hend.2 hover), Bool.eq_false_of_not_eq_true hover, Bool.false_and, if_neg Bool.false_ne_true]

theorem Wraps.horizSync_after (n : Nat) : (s₀.after r n).horizSync = horizSyncAt s₀ r (n / r.charTime) := by
  have htime := r.charTime_ge
  induction n with
  | zero => rw [Nat.zero_div]; rfl
  | succ n ih =>
    show ((s₀.after r n).next r).horizSync = _
    rw [(h.latched_after n).horizSync_next, ih, Nat.succ_div]
    by_cases hchar : r.charTime ∣ n + 1
    · rw [if_pos ((h.timing_after n).2 hchar), if_pos hchar, h.horizCnt_after, (place_of_dvd hchar).1]
      rfl
    · rw [if_neg (mt (h.timing_after n).1 hchar), if_neg hchar, Nat.add_zero]

omit h in
/-- The horizontal sync is a pulse of the characters of a line. -/
theorem horizSync_pulse (hroom : r.retraceChar + r.retraceChars ≤ r.lastChar) (s₀ : Raster) :
    Pulse (fun k => (k + r.retraceChar + 1) % (r.lastChar + 1)) (horizSyncAt s₀ r) (r.lastChar + 1) r.retraceChar
      r.retraceChars := by
  have hlow := (r.horizontalRetraceEnd + r.horizontalRetraceSkew.setWidth 5).isLt
  have hgo : ∀ k, horizSyncAt s₀ r (k + 1) = horizSyncNext r _ _ := fun k => rfl
  unfold RasterRegs.retraceChars at *
  refine ⟨fun k => Nat.mod_lt _ (Nat.succ_pos _), fun k => ?_, Nat.succ_pos _, by omega, fun k hk => ?_,
    fun k hk hk' => ?_, fun k hk => ?_, fun k hk hoff => ?_⟩
  · rw [Nat.add_right_comm k, Nat.add_assoc]
    exact succ_mod (Nat.succ_pos _)
  · rw [hgo, horizSyncNext, if_pos hk]
  · rw [hgo, horizSyncNext, if_neg (by omega), if_neg (by omega)]
  · rw [hgo, horizSyncNext, if_neg (by omega), if_pos (by omega)]
  · rw [hgo, horizSyncNext, if_neg (by omega), hoff, ite_self]

/-! ## The display window -/

omit h in
/-- The place in a line, counted from the first dot that is displayed. -/
def column (r : RasterRegs) (n : Nat) : Nat := (n + r.advanceTime) % r.lineTime

omit h in
/-- The display window: the characters of the display size and the one before them. -/
def window (r : RasterRegs) (n : Nat) : Bool :=
  decide (column r n < (r.horizontalDisplaySize.toNat + 1) * r.charTime) && (line r.scanlines (n / r.lineTime)).vde r.scanlines

variable (hsize : r.horizontalDisplaySize.toNat ≤ r.retraceChar) (hfront : r.retraceChar < r.lastChar)

omit h in
include hsize hfront in
theorem column_of_dvd {n : Nat} (hline : r.lineTime ∣ n) :
    (r.horizontalDisplaySize.toNat + 1) * r.charTime ≤ column r n := by
  have htime := r.charTime_ge
  have hlt : r.advanceTime < r.lineTime := Nat.mul_lt_mul_of_pos_right (by omega) (by omega)
  unfold column
  obtain ⟨q, rfl⟩ := hline
  rw [Nat.mul_add_mod, Nat.mod_eq_of_lt hlt]
  exact Nat.mul_le_mul_right _ (by omega)

omit h in
theorem column_lt_iff (n : Nat) :
    column r n < (r.horizontalDisplaySize.toNat + 1) * r.charTime ↔
      (n + r.advanceTime) / r.charTime % (r.lastChar + 1) ≤ r.horizontalDisplaySize.toNat := by
  have htime := r.charTime_ge
  rw [← Nat.div_lt_iff_lt_mul (by omega), column, RasterRegs.lineTime, Nat.mul_comm (r.lastChar + 1),
    Nat.mod_mul_right_div_self, Nat.lt_succ_iff]

include hsize hfront in
/-- At the timing dot of a character it is decided whether the next one is displayed. -/
theorem Wraps.notDisplaying_timing {n : Nat} (hn : r.charTime ∣ n + 1) :
    (s₀.after r (n + 1)).notDisplaying = !window r (n + 1) := by
  have htime := r.charTime_ge
  have hgo : (s₀.after r (n + 1)).notDisplaying =
      !(((s₀.after r n).horizLastCnt r || (s₀.after r n).hde r) && (s₀.after r n).vde r) := by
    show (if (s₀.after r n).vgaprepDotTiming r then _ else _) = _
    rw [if_pos ((h.timing_after n).2 hn)]
  obtain ⟨hplace, hnext⟩ := place_of_dvd hn
  have hcnt := h.horizCnt_after n
  have hchar : ((s₀.after r n).horizLastCnt r || (s₀.after r n).hde r) =
      decide (column r (n + 1) < (r.horizontalDisplaySize.toNat + 1) * r.charTime) := by
    have hlast : (s₀.after r n).horizLastCnt r = decide ((s₀.after r n).horizCnt.toNat = r.lastChar) := by
      rw [Bool.eq_iff_iff, horizLastCnt, beq_iff_eq, decide_eq_true_iff, ← BitVec.toNat_inj]
      rfl
    have hde : (s₀.after r n).hde r = decide ((s₀.after r n).horizCnt.toNat < r.horizontalDisplaySize.toNat) := by
      have hwide : (r.horizontalDisplaySize.setWidth 9).toNat = r.horizontalDisplaySize.toNat :=
        BitVec.toNat_setWidth_of_le (by omega)
      rw [← hwide]
      rfl
    have hsucc := succ_mod (k := n / r.charTime + r.retraceChar + 1) (show 0 < r.lastChar + 1 by omega)
    have hlt := Nat.mod_lt (n / r.charTime + r.retraceChar + 1) (show 0 < r.lastChar + 1 by omega)
    rw [hplace] at hcnt
    rw [hlast, hde, ← Bool.decide_or, decide_eq_decide, column_lt_iff, hnext, hcnt, hsucc]
    split <;> omega
  rw [hgo, hchar]
  unfold window
  by_cases hin : column r (n + 1) < (r.horizontalDisplaySize.toNat + 1) * r.charTime
  · -- within the window the line is the same before and after the timing dot
    have hline : ¬ r.lineTime ∣ n + 1 := fun hdvd => by
      have := column_of_dvd hsize hfront hdvd
      omega
    obtain ⟨m, rfl⟩ : ∃ m, n = m + 1 := ⟨n - 1, by have := Nat.le_of_dvd (Nat.succ_pos n) hn; omega⟩
    have hline' : ¬ r.lineTime ∣ m + 1 := fun hdvd => by
      have hboth := (Nat.dvd_add_right (Nat.dvd_trans (Nat.dvd_mul_left _ _) hdvd)).1 hn
      have := Nat.le_of_dvd Nat.one_pos hboth
      omega
    have hvde : (s₀.after r (m + 1)).vde r = (line r.scanlines (m / r.lineTime)).vde r.scanlines := by
      unfold Raster.vde
      rw [h.lines_after]
      rfl
    rw [hvde, Nat.succ_div, if_neg hline, Nat.succ_div, if_neg hline']
    rfl
  · rw [decide_eq_false hin, Bool.false_and, Bool.false_and]

include hsize hfront in
theorem Wraps.notDisplaying_after {n : Nat} (hn : r.charTime ≤ n) : (s₀.after r n).notDisplaying = !window r n := by
  have htime := r.charTime_ge
  induction n, hn using Nat.le_induction with
  | base =>
    obtain ⟨m, hm⟩ : ∃ m, r.charTime = m + 1 := ⟨r.charTime - 1, by omega⟩
    rw [hm]
    exact h.notDisplaying_timing hsize hfront (hm ▸ Nat.dvd_refl _)
  | succ n hle ih =>
    by_cases hchar : r.charTime ∣ n + 1
    · exact h.notDisplaying_timing hsize hfront hchar
    · have hgo : (s₀.after r (n + 1)).notDisplaying = (s₀.after r n).notDisplaying := by
        show (if (s₀.after r n).vgaprepDotTiming r then _ else _) = _
        rw [if_neg (mt (h.timing_after n).1 hchar)]
      have hline : ¬ r.lineTime ∣ n + 1 := mt (Nat.dvd_trans (Nat.dvd_mul_left _ _)) hchar
      have hplace : (n + 1 + r.advanceTime) / r.charTime = (n + r.advanceTime) / r.charTime := by
        rw [Nat.add_right_comm, Nat.succ_div, if_neg, Nat.add_zero]
        rw [Nat.add_right_comm]
        exact mt (Nat.dvd_add_iff_left (Nat.dvd_mul_left _ _)).2 hchar
      rw [hgo, ih]
      unfold window
      rw [Nat.succ_div, if_neg hline]
      simp only [Nat.add_zero, column_lt_iff, hplace]

end Frame

/-! ## Frame after frame -/

section Frames

variable {s₀ : Raster} {r : RasterRegs} (h : s₀.Wraps r)
include h

/-- Each frame ends as the one before did. -/
theorem Wraps.again (hfits : r.FrameFits) (q : Nat) : (s₀.after r (q * r.frameTime)).Wraps r := by
  have hline := h.lineTime_ge
  refine ⟨h.latched_after _, h.retrace, (h.advances_after _).2 ?_, ?_⟩
  · unfold RasterRegs.frameTime
    rw [← Nat.mul_assoc, Nat.mul_mod_left]
  · obtain ⟨m, hm⟩ : ∃ m, r.frameLines = m + 1 := by
      unfold RasterRegs.frameLines
      split <;> exact ⟨_, rfl⟩
    cases q with
    | zero => rw [Nat.zero_mul]; exact h.last
    | succ q =>
      have hsum : (q + 1) * r.frameTime =
          r.lineTime * (q * r.frameLines + m) + (r.lineTime - 1) + 1 := by
        unfold RasterRegs.frameTime
        rw [hm, ← Nat.mul_assoc, Nat.mul_comm r.lineTime, Nat.succ_mul q, ← Nat.add_assoc, Nat.succ_mul (q * (m + 1) + m)]
        omega
      rw [hsum, h.lines_after, Nat.mul_add_div (by omega), Nat.div_eq_of_lt (by omega), Nat.add_zero, ← hfits.line_mod,
        Nat.mul_comm q, Nat.mul_add_mod, Nat.mod_eq_of_lt (by omega)]
      exact (hfits.last_iff (hfits.line_along (by omega))).2 hm.symm

/-- The enable before the vertical retrace is the last one of the line of its row. -/
theorem Wraps.before_retrace :
    ∃ m, r.retraceTime = m + 1 ∧ m / r.lineTime = r.retraceLine ∧ (m + 1) / r.lineTime = r.retraceLine + 1 := by
  have hline := h.lineTime_ge
  obtain ⟨m, hm⟩ : ∃ m, r.retraceTime = m + 1 := by
    refine ⟨r.retraceTime - 1, ?_⟩
    have := Nat.mul_le_mul_left (r.retraceLine + 1) hline
    unfold RasterRegs.retraceTime
    omega
  have hdiv : (m + 1) / r.lineTime = r.retraceLine + 1 := by
    rw [← hm]
    exact Nat.mul_div_cancel _ (by omega)
  refine ⟨m, hm, ?_, hdiv⟩
  have hsucc := Nat.succ_div (a := m) (b := r.lineTime)
  rw [if_pos (hm ▸ Nat.dvd_mul_left _ _)] at hsucc
  omega

variable (hfits : r.FrameFits) (hrow : r.verticalDisplaySize < r.verticalRetraceStart)
  (hfirst : 16 ≤ r.verticalRetraceStart.toNat) (hroom : r.retraceLine + r.retraceLines < r.frameLines)
include hfits hrow

include hfirst hroom in
/-- The vertical retrace starts after the line of its row. -/
theorem Wraps.retraceStart_at : (s₀.after r r.retraceTime).dotMemoryLoadVerticalRetraceStart = true := by
  obtain ⟨m, hm, hbefore, hdiv⟩ := h.before_retrace
  have hlast : (s₀.after r (m + 1)).vertSyncLast = (s₀.after r m).vertSync := rfl
  have hpulse := vertSync_pulse hfits hrow hroom s₀
  unfold dotMemoryLoadVerticalRetraceStart
  rw [hm, hlast, h.vertSync_after, h.vertSync_after, hdiv, hbefore, vertSyncAt_retraceLine hfits hrow hfirst hroom,
    hpulse.set r.retraceLine (Nat.mod_eq_of_lt (by omega))]
  rfl

/-- It starts with the end of a line of its row only. -/
theorem Wraps.retraceStart_line {n : Nat} (hstart : (s₀.after r (n + 1)).dotMemoryLoadVerticalRetraceStart = true) :
    ∃ k, n + 1 = r.lineTime * (k + 1) ∧ k % r.frameLines = r.retraceLine := by
  have hline := h.lineTime_ge
  have hsize := BitVec.lt_def.1 hrow
  obtain ⟨⟨q, hq⟩, hat⟩ := h.retraceStart_row hstart
  obtain ⟨k, rfl⟩ : ∃ k, q = k + 1 := by
    refine ⟨q - 1, (Nat.sub_add_cancel (Nat.pos_of_ne_zero fun hzero => ?_)).symm⟩
    rw [hzero, Nat.mul_zero] at hq
    exact Nat.succ_ne_zero n hq
  refine ⟨k, hq, ?_⟩
  have hdiv : n / r.lineTime = k := by
    have hsum : n = r.lineTime * k + (r.lineTime - 1) := by
      rw [Nat.mul_succ] at hq
      omega
    rw [hsum, Nat.mul_add_div (by omega), Nat.div_eq_of_lt (by omega), Nat.add_zero]
  have hmod : k % r.frameLines < r.frameLines := by
    refine Nat.mod_lt k ?_
    unfold RasterRegs.frameLines
    split <;> exact Nat.succ_pos _
  have hrows := hfits.row_iff hsize hmod
  rw [hdiv, ← hfits.line_mod] at hat
  unfold RasterRegs.retraceLine
  omega

/-- And not again before the frame ends. -/
theorem Wraps.no_retraceStart {n : Nat} (hafter : r.retraceTime < n) (hend : n ≤ r.frameTime) :
    (s₀.after r n).dotMemoryLoadVerticalRetraceStart = false := by
  have hline := h.lineTime_ge
  obtain ⟨n, rfl⟩ : ∃ m, n = m + 1 := ⟨n - 1, by omega⟩
  refine Bool.eq_false_of_not_eq_true fun hstart => ?_
  obtain ⟨k, hk, hmod⟩ := h.retraceStart_line hfits hrow hstart
  unfold RasterRegs.retraceTime at hafter
  unfold RasterRegs.frameTime at hend
  rw [hk, Nat.mul_comm] at hafter hend
  have hlate := Nat.lt_of_mul_lt_mul_left hafter
  have hearly := Nat.le_of_mul_le_mul_right hend (by omega)
  rw [Nat.mod_eq_of_lt (by omega)] at hmod
  omega

variable (hoff : s₀.vertSync = false)

omit h in
include hroom hoff in
/-- With the vertical sync low at the start of a frame it is as it should be from there on. -/
theorem vertSyncAt_eq (k : Nat) : vertSyncAt s₀ r k = high r.retraceLine r.retraceLines (k % r.frameLines) := by
  refine (vertSync_pulse hfits hrow hroom s₀).wave (m := 0) ?_ (Nat.zero_le k)
  show s₀.vertSync = high _ _ (0 % r.frameLines)
  rw [hoff, Nat.zero_mod]
  exact (decide_eq_false fun hhigh => Nat.not_lt_zero _ hhigh.1).symm

include hroom hoff in
theorem Wraps.vertSync_again (q : Nat) : (s₀.after r (q * r.frameTime)).vertSync = false := by
  have hline := h.lineTime_ge
  unfold RasterRegs.frameTime
  rw [h.vertSync_after, ← Nat.mul_assoc, Nat.mul_div_cancel _ (by omega), vertSyncAt_eq hfits hrow hroom hoff,
    Nat.mul_mod_left]
  exact decide_eq_false fun hhigh => Nat.not_lt_zero _ hhigh.1

include hroom hoff in
/-- The vertical retrace ends with the line that its last row says. -/
theorem Wraps.retraceEnd_iff (n : Nat) : (s₀.after r (n + 1)).dotMemoryLoadVerticalRetraceEnd = true ↔
    r.lineTime ∣ n + 1 ∧ n / r.lineTime % r.frameLines = r.retraceLine + r.retraceLines := by
  have hlast : (s₀.after r (n + 1)).vertSyncLast = (s₀.after r n).vertSync := rfl
  have hwave := vertSyncAt_eq hfits hrow hroom hoff
  have hpulse := vertSync_pulse hfits hrow hroom s₀
  unfold dotMemoryLoadVerticalRetraceEnd
  rw [hlast, h.vertSync_after, h.vertSync_after, Bool.and_eq_true, Bool.not_eq_true', Nat.succ_div]
  by_cases hline : r.lineTime ∣ n + 1
  · rw [if_pos hline]
    constructor
    · rintro ⟨hnext, hon⟩
      refine ⟨hline, by_contra fun hne => ?_⟩
      rw [hwave] at hon
      have hhigh := of_decide_eq_true hon
      have hsucc := succ_mod (k := n / r.lineTime) (show 0 < r.frameLines by omega)
      rw [hwave] at hnext
      refine of_decide_eq_false hnext ?_
      rw [hsucc, if_neg (by omega)]
      omega
    · rintro ⟨-, hrow⟩
      refine ⟨hpulse.clears _ hrow, ?_⟩
      rw [hwave, hrow]
      exact decide_eq_true ⟨Nat.lt_add_of_pos_right hpulse.pos, Nat.le_refl _⟩
  · rw [if_neg hline, Nat.add_zero]
    refine ⟨fun hboth => ?_, fun hboth => absurd hboth.1 hline⟩
    rw [hboth.1] at hboth
    exact absurd hboth.2 Bool.false_ne_true

end Frames

/-! ## The timing of a raster -/

/-- The syncs and the display window after `n` enables: counters of the lines of a frame, of the characters of a line
and of the enables of a line. -/
structure Timing (r : RasterRegs) (s : Raster) (n : Nat) : Prop where
  vertSync : s.vertSync = high r.retraceLine r.retraceLines (n / r.lineTime % r.frameLines)
  horizSync : s.horizSync = high r.retraceChar r.retraceChars ((n + r.advanceTime) / r.charTime % (r.lastChar + 1))
  display : s.notDisplaying = !(decide (column r n < (r.horizontalDisplaySize.toNat + 1) * r.charTime) &&
    (line r.scanlines (n / r.lineTime % r.frameLines)).vde r.scanlines)

/-- The retraces come after the picture and end within the line and the frame. -/
structure Placed (r : RasterRegs) : Prop where
  frame : r.FrameFits
  picture : r.verticalDisplaySize < r.verticalRetraceStart
  vertRetrace : r.retraceLine + r.retraceLines < r.frameLines
  chars : r.horizontalDisplaySize.toNat ≤ r.retraceChar
  horizRetrace : r.retraceChar + r.retraceChars ≤ r.lastChar

/-- Besides, a row before the vertical retrace ends one that began before the frame. -/
structure Ordered (r : RasterRegs) : Prop extends Placed r where
  rows : 16 ≤ r.verticalRetraceStart.toNat

/-- From the first vertical retrace of a frame on, whatever the syncs were before. -/
theorem Wraps.timing {s₀ : Raster} {r : RasterRegs} (h : s₀.Wraps r) (hr : Placed r) {n : Nat} (hn : r.retraceTime ≤ n) :
    Timing r (s₀.after r n) n := by
  have htime := r.charTime_ge
  have hline := h.lineTime_ge
  have hchars := hr.horizRetrace
  have hlines : r.retraceLine + 1 ≤ n / r.lineTime := (Nat.le_div_iff_mul_le (by omega)).2 hn
  have hlong : r.lineTime ≤ n := (Nat.le_mul_of_pos_left _ (Nat.succ_pos _)).trans hn
  have hwidth : 0 < r.retraceChars := Nat.succ_pos _
  have hchar : (r.lastChar + 1) ≤ n / r.charTime := (Nat.le_div_iff_mul_le (by omega)).2 hlong
  refine ⟨?_, ?_, ?_⟩
  · have hpulse := vertSync_pulse hr.frame hr.picture hr.vertRetrace s₀
    have hlt := hr.vertRetrace
    have hmod : r.retraceLine % r.frameLines = r.retraceLine := Nat.mod_eq_of_lt (by omega)
    have hfirst := hpulse.set r.retraceLine hmod
    have hhigh : high r.retraceLine r.retraceLines ((r.retraceLine + 1) % r.frameLines) = true := by
      rw [Nat.mod_eq_of_lt (by have := hpulse.pos; omega)]
      exact decide_eq_true ⟨Nat.lt_succ_self _, Nat.add_le_add_left hpulse.pos _⟩
    rw [h.vertSync_after]
    exact hpulse.wave (hfirst.trans hhigh.symm) hlines
  · have hplace : (n + r.advanceTime) / r.charTime = n / r.charTime + r.retraceChar + 1 := by
      unfold RasterRegs.advanceTime
      rw [Nat.add_mul_div_right _ _ (by omega)]
      rfl
    rw [h.horizSync_after, hplace]
    refine (horizSync_pulse hchars s₀).wave_of_clears (m := r.retraceChars - 1) ?_ (by omega)
    show (r.retraceChars - 1 + r.retraceChar + 1) % _ = _
    rw [Nat.mod_eq_of_lt (by omega)]
    omega
  · have hshort : r.charTime ≤ r.lineTime := Nat.le_mul_of_pos_left _ (Nat.succ_pos _)
    rw [h.notDisplaying_after hr.chars (by omega) (by omega)]
    unfold window
    rw [hr.frame.line_mod]

/-- The 70 Hz text mode, padded for a TV. -/
def textRaster : RasterRegs where
  seq8dotChar := false
  seqDotclockDivided := false
  horizontalTotal := 95
  horizontalDisplaySize := 79
  horizontalRetraceStart := 85
  horizontalRetraceSkew := 0
  horizontalRetraceEnd := 1
  verticalTotal := 447
  verticalDisplaySize := 399
  verticalRetraceStart := 412
  verticalRetraceEnd := 14
  vzoom := false
  vstretch := true
  vodd := false

/-- The last enable of its frame. -/
def textFrameEnd : Raster := ⟨false, 8, 85, 85, 0, 1, ⟨523, false, 0, 0⟩, true, false, false, true⟩

theorem textFrameEnd_wraps : textFrameEnd.Wraps textRaster :=
  ⟨⟨⟨by decide, by decide⟩, rfl, rfl, rfl⟩, by decide, by decide, by decide⟩

theorem textRaster_ordered : Ordered textRaster :=
  ⟨⟨⟨by decide, fun _ => ⟨by decide, by decide⟩, fun h => absurd h (by decide)⟩, by decide, by decide, by decide, by decide⟩,
    by decide⟩

end Raster

end Z486.Video
