/-
The start of the VGA raster (src/soc/vga.v). Wherever its counters stand when the registers are set, the raster comes to the
end of a line, with which the registers of the horizontal retrace are latched, and then to the end of a frame: the scanline
counter goes on once in each line, and no line is held twice. From there on the frames are those of the registers.
-/
import Z486.Video.RasterFrame

namespace Z486.Video

open Clocked Scanlines

/-! ## The last line -/

namespace Scanlines

variable {i : ScanlineIn} {s : Scanlines}

/-- A line that is shown again brings the last row nearer by one at most. -/
theorem vertTotal_held (hroom : i.vstretch = true → lastRow i + 255 ≤ 2047) :
    (s.vertTotal i).toNat ≤ (({ s with vzRep := true, vzIns := s.vzIns + 1 } : Scanlines).vertTotal i).toNat + 1 := by
  cases hstretch : i.vstretch with
  | false =>
    have hplain : ∀ u : Scanlines, u.vertTotal i = vertTotalCrtc i := fun u => by
      unfold vertTotal vertTotalPad
      rw [hstretch, Bool.false_and, Bool.false_and, if_neg Bool.false_ne_true, if_neg Bool.false_ne_true]
    rw [hplain, hplain]
    exact Nat.le_succ _
  | true =>
    have hrows := hroom hstretch
    have hcrtc : (vertTotalCrtc i).toNat = lastRow i := toNat_succ (by unfold lastRow at hrows; omega)
    have hins := s.vzIns.isLt
    have hnext : (s.vzIns + 1).toNat = (s.vzIns.toNat + 1) % 256 := BitVec.toNat_add _ _
    have hodd := i.vodd.toNat_lt
    rw [vertTotal_toNat hstretch, vertTotal_toNat hstretch, vertTotalPad_toNat hstretch, vertTotalPad_toNat hstretch, hcrtc]
    dsimp only
    rw [hnext]
    split <;> split <;> split <;> split <;> omega

/-- What is left of the rows before the last, those of a whole frame when it has been passed. -/
def toEnd (i : ScanlineIn) (s : Scanlines) : Nat :=
  2 * (2048 - s.vertCnt.toNat) + (!s.vzRep).toNat + if s.vertCnt.toNat ≤ (s.vertTotal i).toNat then 0 else 4096

/-- Each line but the last leaves less: a row is held for one line at most. -/
theorem toEnd_advance (hroom : i.vstretch = true → lastRow i + 255 ≤ 2047) (hlast : s.vertLastCnt i = false) :
    (s.advance i).toEnd i < s.toEnd i := by
  have hne : s.vertCnt.toNat ≠ (s.vertTotal i).toNat := by
    unfold vertLastCnt at hlast
    rw [beq_eq_false_iff_ne] at hlast
    exact fun heq => hlast (BitVec.eq_of_toNat_eq heq)
  have hcnt := s.vertCnt.isLt
  have htotal := (s.vertTotal i).isLt
  cases hrep : s.vzRepNext i with
  | true =>
    have hheld := vertTotal_held (s := s) hroom
    have hfirst : s.vzRep = false := by
      unfold vzRepNext at hrep
      simp only [Bool.and_eq_true, Bool.not_eq_true'] at hrep
      exact hrep.1.2
    rw [advance_held hlast hrep]
    unfold toEnd
    dsimp only
    rw [hfirst]
    simp only [Bool.not_true, Bool.not_false, Bool.toNat_true, Bool.toNat_false]
    split <;> split <;> omega
  | false =>
    have hsame : (({ s with vertCnt := s.vertCnt + 1, vzRep := false, vzCnt := s.vzCntNext i } : Scanlines).vertTotal i) =
        s.vertTotal i := rfl
    have hnext : (s.vertCnt + 1).toNat = (s.vertCnt.toNat + 1) % 2048 := BitVec.toNat_add _ _
    have hrep := (!s.vzRep).toNat_lt
    rw [advance_next hlast ‹_›]
    unfold toEnd
    rw [hsame]
    dsimp only
    rw [hnext, Bool.not_false, Bool.toNat_true]
    split <;> split <;> omega

end Scanlines

/-! ## The end of a frame -/

namespace Raster

variable {s : Raster} {r : RasterRegs}

theorem after_add (s₀ : Raster) (r : RasterRegs) (m n : Nat) : s₀.after r (m + n) = (s₀.after r m).after r n := by
  induction n with
  | zero => rfl
  | succ n ih =>
    show (s₀.after r (m + n)).next r = ((s₀.after r m).after r n).next r
    rw [ih]

theorem Within.after (h : s.Within r) (n : Nat) : (s.after r n).Within r := by
  induction n with
  | zero => exact h
  | succ n ih => exact ih.next

theorem Within.pos_after (h : s.Within r) (n : Nat) : (s.after r n).pos r = (s.pos r + n) % r.lineTime := by
  have hlt := h.pos_lt
  induction n with
  | zero => exact (Nat.mod_eq_of_lt hlt).symm
  | succ n ih =>
    have hnext := (h.after n).pos_next
    rw [ih] at hnext
    rw [← Nat.add_assoc, succ_mod (by omega)]
    exact hnext

/-- Each place of a line is come to again and again. -/
theorem Within.exists_pos (h : s.Within r) {p : Nat} (hp : p < r.lineTime) (m : Nat) :
    ∃ n, m ≤ n ∧ (s.after r n).pos r = p := by
  have hlt := h.pos_lt
  have hlong : m ≤ r.lineTime * m := Nat.le_mul_of_pos_left _ (by omega)
  refine ⟨r.lineTime * m + (r.lineTime - s.pos r) + p, by omega, ?_⟩
  rw [h.pos_after, show s.pos r + (r.lineTime * m + (r.lineTime - s.pos r) + p) = p + r.lineTime * (m + 1) by
    rw [Nat.mul_succ]; omega, Nat.add_mul_mod_self_left, Nat.mod_eq_of_lt hp]

/-- With the last enable of a line the registers of the horizontal retrace are taken over. -/
theorem Within.latched_next (h : s.Within r) (hend : s.pos r + 1 = r.lineTime) : (s.next r).Latched r := by
  have htime := r.charTime_ge
  have hplace : s.pos r = r.lastChar * r.charTime + (r.charTime - 1) := by
    unfold RasterRegs.lineTime at hend
    rw [Nat.succ_mul] at hend
    omega
  obtain ⟨hchar, hphase⟩ := (h.at_iff (by omega)).1 hplace
  have hload : (s.characterLastDot r && s.horizLastCnt r) = true := by
    rw [h.characterLastDot_iff.2 (by omega), Bool.true_and]
    exact beq_iff_eq.2 (BitVec.eq_of_toNat_eq hchar)
  exact ⟨h.next, if_pos hload, if_pos hload, if_pos hload⟩

theorem Latched.after (h : s.Latched r) (n : Nat) : (s.after r n).Latched r := by
  induction n with
  | zero => exact h
  | succ n ih => exact ih.next

/-- The frame comes to its end. -/
theorem Latched.exists_wraps (h : s.Latched r) (hretrace : r.retraceChar ≤ r.lastChar)
    (hroom : r.vstretch = true → lastRow r.scanlines + 255 ≤ 2047) : ∃ n, (s.after r n).Wraps r := by
  have hgo : ∀ n, (s.after r (n + 1)).lines =
      if (s.after r n).advances r = true then (s.after r n).lines.advance r.scanlines else (s.after r n).lines := by
    intro n
    show (if (s.after r n).advances r = true then _ else _) = _
    split <;> rfl
  have hfair : ∀ m, ∃ n, m ≤ n ∧ (s.after r n).advances r = true := by
    intro m
    have hle : r.advanceTime ≤ r.lineTime := Nat.mul_le_mul_right _ (Nat.succ_le_succ hretrace)
    have hge := advanceTime_ge (r := r)
    obtain ⟨n, hm, hpos⟩ := h.toWithin.exists_pos (p := r.advanceTime - 1) (by omega) m
    exact ⟨n, hm, (h.after n).advances_iff.2 (by omega)⟩
  -- the lines go on with the retrace of each line, and wait in between
  obtain ⟨n, -, hadvances, hlast⟩ := exists_of_progress
    (P := fun n => (s.after r n).advances r = true ∧ (s.after r n).lines.vertLastCnt r.scanlines = true)
    (W := fun n => (s.after r n).advances r = false) (fun n => (s.after r n).lines.toEnd r.scanlines)
    (fun n _ hwait => by rw [hgo, hwait, if_neg Bool.false_ne_true])
    (fun n hno hnow => by
      rw [Bool.not_eq_false] at hnow
      rw [hgo, if_pos hnow]
      exact toEnd_advance hroom (Bool.eq_false_of_not_eq_true fun hlast => hno ⟨hnow, hlast⟩))
    (fun m => by
      obtain ⟨n, hm, hnow⟩ := hfair m
      exact ⟨n, hm, .inr (ne_false_of_eq_true hnow)⟩) 0
  exact ⟨n, h.after n, hretrace, hadvances, hlast⟩

theorem Within.exists_wraps (h : s.Within r) (hretrace : r.retraceChar ≤ r.lastChar)
    (hroom : r.vstretch = true → lastRow r.scanlines + 255 ≤ 2047) : ∃ n, (s.after r n).Wraps r := by
  have hlt := h.pos_lt
  obtain ⟨m, -, hpos⟩ := h.exists_pos (p := r.lineTime - 1) (by omega) 0
  obtain ⟨n, hn⟩ := ((h.after m).latched_next (by omega)).exists_wraps hretrace hroom
  refine ⟨m + 1 + n, ?_⟩
  rw [after_add]
  exact hn

/-! ## The timing of a raster -/

/-- Wherever its counters stand and whenever the enables come, the raster comes to the end of a frame, and from the vertical
retrace after it on it is the raster of the registers, counted from there. -/
theorem run_timing {s₀ : Raster} (h : s₀.Within r) (hr : Placed r)
    (hroom : r.vstretch = true → lastRow r.scanlines + 255 ≤ 2047) :
    ∃ n₀, ∀ (ce : Nat → Bool) (t : Nat), n₀ + r.retraceTime ≤ pulses ce 0 t →
      Timing r (run (fun s e => s.step r e) s₀ ce t) (pulses ce 0 t - n₀) := by
  have hchars := hr.horizRetrace
  obtain ⟨n₀, hwraps⟩ := h.exists_wraps (by omega) hroom
  refine ⟨n₀, fun ce t ht => ?_⟩
  have hsplit : s₀.after r (pulses ce 0 t) = (s₀.after r n₀).after r (pulses ce 0 t - n₀) := by
    rw [← after_add, Nat.add_sub_cancel' (by omega)]
  rw [run_step, hsplit]
  exact hwraps.timing hr (by omega)

/-- All counters at zero, and other registers of the retrace than those of the mode. -/
def atZero : Raster := ⟨false, 0, 0, 0, 0, 0, ⟨0, false, 0, 0⟩, false, false, false, true⟩

/-- The text mode from there on. -/
theorem text_timing : ∃ n₀, ∀ (ce : Nat → Bool) (t : Nat), n₀ + textRaster.retraceTime ≤ pulses ce 0 t →
    Timing textRaster (run (fun s e => s.step textRaster e) atZero ce t) (pulses ce 0 t - n₀) :=
  run_timing ⟨by decide, by decide⟩ textRaster_ordered.toPlaced (by decide)

end Raster

end Z486.Video
