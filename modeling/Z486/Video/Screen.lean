/-
The picture of the VGA frame after frame (src/soc/vga.v), in the two ways in which dots become colours: each dot looks up
the internal palette, or two dots make a pixel of 256 colours. Each frame is of the start address that the registers held
when the vertical retrace before it began and of the panning they held when it ended; the blink count goes on by one a frame.
-/
import Z486.Clocked.Pipeline
import Z486.Video.Picture

namespace Z486.Video

open Clocked Scanlines

namespace Dots

variable {r : DotRegs}

/-! ## From frame to frame -/

section Frames

variable {s₀ : Dots} (inp : Nat → DotIn) (h : s₀.fetch.raster.Wraps r.fetch.raster) (hr : r.fetch.Fits)
  (hoff : s₀.fetch.raster.vertSync = false)
include h hr

/-- After the vertical retrace nothing is loaded before the frame ends. -/
theorem no_load {n : Nat} (hafter : r.fetch.raster.retraceEndTime ≤ n) (hend : n ≤ r.fetch.raster.frameTime) :
    (s₀.after r inp n).fetch.dotMemoryLoadFirstInLineMatched r.fetch = false := by
  have hline := h.lineTime_ge
  have hfetch := Fetch.fetchTime_le hr
  have hpos : 0 < r.fetch.fetchTime := Nat.succ_pos _
  unfold Fetch.dotMemoryLoadFirstInLineMatched
  refine Bool.and_eq_false_imp.2 fun hfirst => absurd hfirst ?_
  rw [fetch_after]
  intro hfirst
  obtain ⟨k, rfl, hk⟩ := Fetch.first_only _ h hr hfirst
  unfold RasterRegs.retraceEndTime at hafter
  unfold RasterRegs.frameTime at hend
  have hlast : k < r.fetch.raster.frameLines :=
    Nat.lt_of_mul_lt_mul_right (a := r.fetch.raster.lineTime) (by omega)
  have hlate : r.fetch.raster.retraceLine + r.fetch.raster.retraceLines + 1 ≤ k + 1 := by
    refine Nat.le_of_mul_le_mul_right (hafter.trans ?_) (show 0 < r.fetch.raster.lineTime by omega)
    rw [Nat.succ_mul]
    omega
  have := shown_lt hr hlast hk
  omega

include hoff

/-- The retrace ends once a frame. -/
theorem retraceEnd_at {n : Nat} (hpos : 0 < n) (hend : n ≤ r.fetch.raster.frameTime) :
    (s₀.after r inp n).fetch.raster.dotMemoryLoadVerticalRetraceEnd = true ↔ n = r.fetch.raster.retraceEndTime := by
  obtain ⟨⟨hframe, hpicture, hroom, -, -⟩, hrows⟩ := hr.ordered
  have hline := h.lineTime_ge
  obtain ⟨n, rfl⟩ : ∃ m, n = m + 1 := ⟨n - 1, by omega⟩
  rw [fetch_after, Fetch.raster_after, h.retraceEnd_iff hframe hpicture hroom hoff]
  unfold RasterRegs.frameTime at hend
  unfold RasterRegs.retraceEndTime
  have hlt : n / r.fetch.raster.lineTime < r.fetch.raster.frameLines := (Nat.div_lt_iff_lt_mul (by omega)).2 hend
  rw [Nat.mod_eq_of_lt hlt]
  constructor
  · rintro ⟨⟨q, hq⟩, hrow⟩
    have hsucc := Nat.succ_div (a := n) (b := r.fetch.raster.lineTime)
    rw [if_pos ⟨q, hq⟩, hrow, hq, Nat.mul_div_cancel_left _ (by omega)] at hsucc
    rw [hq, hsucc, Nat.mul_comm]
  · intro heq
    have hdvd : r.fetch.raster.lineTime ∣ n + 1 := ⟨_, heq.trans (Nat.mul_comm _ _)⟩
    have hsucc := Nat.succ_div (a := n) (b := r.fetch.raster.lineTime)
    rw [if_pos hdvd, heq, Nat.mul_div_cancel _ (by omega)] at hsucc
    exact ⟨hdvd, by omega⟩

/-- What the next frame has of the retrace. -/
theorem latches_next_frame :
    (s₀.after r inp (r.fetch.raster.frameTime + 1)).panningReg = (inp r.fetch.raster.retraceEndTime).attribPanningValue ∧
      (s₀.after r inp (r.fetch.raster.frameTime + 1)).blinkCnt = (s₀.after r inp 1).blinkCnt + 1 := by
  have hroom := hr.ordered.vertRetrace
  have hline := h.lineTime_ge
  have hle : r.fetch.raster.retraceEndTime ≤ r.fetch.raster.frameTime := Nat.mul_le_mul_right _ (by omega)
  have hpos : 0 < r.fetch.raster.retraceEndTime := Nat.mul_pos (Nat.succ_pos _) (by omega)
  have hblink : ∀ n, (s₀.after r inp (n + 1)).blinkCnt =
      if (s₀.after r inp n).fetch.raster.dotMemoryLoadVerticalRetraceEnd then (s₀.after r inp n).blinkCnt + 1
      else (s₀.after r inp n).blinkCnt := fun _ => rfl
  have hbefore : ∀ n, 0 < n → n ≤ r.fetch.raster.retraceEndTime → (s₀.after r inp n).blinkCnt = (s₀.after r inp 1).blinkCnt := by
    intro n hn
    induction n, hn using Nat.le_induction with
    | base => exact fun _ => rfl
    | succ n hn ih =>
      intro hlate
      rw [hblink, if_neg (mt (retraceEnd_at _ h hr hoff hn (by omega)).1 (by omega))]
      exact ih (by omega)
  have hkeeps : ∀ n, r.fetch.raster.retraceEndTime + 1 ≤ n → n ≤ r.fetch.raster.frameTime + 1 →
      (s₀.after r inp n).panningReg = (inp r.fetch.raster.retraceEndTime).attribPanningValue ∧
        (s₀.after r inp n).blinkCnt = (s₀.after r inp 1).blinkCnt + 1 := by
    intro n hn
    induction n, hn using Nat.le_induction with
    | base =>
      intro _
      have hend := (retraceEnd_at inp h hr hoff hpos hle).2 rfl
      have hload := no_load inp h hr (Nat.le_refl _) hle
      constructor
      · show (if (s₀.after r inp _).fetch.dotMemoryLoadFirstInLineMatched r.fetch && _ then _
          else if (s₀.after r inp _).fetch.raster.dotMemoryLoadVerticalRetraceEnd then _ else _) = _
        rw [hload, hend]
        rfl
      · rw [hblink, hend, if_pos rfl, hbefore _ hpos (Nat.le_refl _)]
    | succ n hn ih =>
      intro hlate
      obtain ⟨hpan, hcount⟩ := ih (by omega)
      have hend : (s₀.after r inp n).fetch.raster.dotMemoryLoadVerticalRetraceEnd = false :=
        Bool.eq_false_of_not_eq_true (mt (retraceEnd_at _ h hr hoff (by omega) (by omega)).1 (by omega))
      have hload := no_load inp (n := n) h hr (by omega) (by omega)
      constructor
      · show (if (s₀.after r inp n).fetch.dotMemoryLoadFirstInLineMatched r.fetch && _ then _
          else if (s₀.after r inp n).fetch.raster.dotMemoryLoadVerticalRetraceEnd then _
          else (s₀.after r inp n).panningReg) = _
        rw [hload, hend, hpan]
        rfl
      · rw [hblink, hend, if_neg Bool.false_ne_true, hcount]
  exact hkeeps _ (by omega) (Nat.le_refl _)

end Frames

/-! ## What the retrace of a frame latches -/

theorem after_add (s₀ : Dots) (r : DotRegs) (inp : Nat → DotIn) (m n : Nat) :
    s₀.after r inp (m + n) = (s₀.after r inp m).after r (fun u => inp (m + u)) n :=
  run_add _ s₀ inp m n

/-- The start address for the frame after frame `q`. -/
def latchedStart (r : DotRegs) (inp : Nat → DotIn) (q : Nat) : BitVec 16 :=
  (inp (q * r.fetch.raster.frameTime + r.fetch.raster.retraceTime)).start.start

/-- The panning for the frame after frame `q`. -/
def latchedPan (r : DotRegs) (inp : Nat → DotIn) (q : Nat) : BitVec 4 :=
  (inp (q * r.fetch.raster.frameTime + r.fetch.raster.retraceEndTime)).attribPanningValue

/-- The blink count in frame `q`. -/
def blinkAt (s₀ : Dots) (r : DotRegs) (inp : Nat → DotIn) (q : Nat) : BitVec 6 :=
  (s₀.after r inp 1).blinkCnt + BitVec.ofNat 6 q

/-- Dot `m` of line `k` in the frame after frame `q`. -/
def frameDot (s₀ : Dots) (r : DotRegs) (inp : Nat → DotIn) (q k m : Nat) : BitVec 4 :=
  pelAt r (fun u => inp ((q + 1) * r.fetch.raster.frameTime + u)) (latchedStart r inp q) (blinkAt s₀ r inp (q + 1)) k m

section Latches

variable {s₀ : Dots} (inp : Nat → DotIn) (h : s₀.fetch.raster.Wraps r.fetch.raster) (hr : r.fetch.Fits)
include h hr

theorem wraps_again (q : Nat) : (s₀.after r inp (q * r.fetch.raster.frameTime)).fetch.raster.Wraps r.fetch.raster := by
  rw [fetch_after, Fetch.raster_after]
  exact h.again hr.ordered.frame q

theorem start_latched (q : Nat) :
    (s₀.after r inp ((q + 1) * r.fetch.raster.frameTime + 1)).fetch.addressStartReg = latchedStart r inp q := by
  have hstart := Fetch.startReg_next_frame (fun u => (inp (q * r.fetch.raster.frameTime + u)).start)
    (wraps_again inp h hr q) hr
  have hrun := after_add s₀ r inp (q * r.fetch.raster.frameTime) (r.fetch.raster.frameTime + 1)
  rw [← Nat.add_assoc, ← Nat.succ_mul] at hrun
  rw [hrun, fetch_after]
  exact hstart

variable (hoff : s₀.fetch.raster.vertSync = false)
include hoff

theorem vertSync_again (q : Nat) : (s₀.after r inp (q * r.fetch.raster.frameTime)).fetch.raster.vertSync = false := by
  obtain ⟨⟨hframe, hpicture, hroom, -, -⟩, -⟩ := hr.ordered
  rw [fetch_after, Fetch.raster_after]
  exact h.vertSync_again hframe hpicture hroom hoff q

theorem pan_latched (q : Nat) :
    (s₀.after r inp ((q + 1) * r.fetch.raster.frameTime + 1)).panningReg = latchedPan r inp q ∧
      (s₀.after r inp ((q + 1) * r.fetch.raster.frameTime + 1)).blinkCnt = blinkAt s₀ r inp (q + 1) := by
  induction q with
  | zero =>
    obtain ⟨hpan, hblink⟩ := latches_next_frame inp h hr hoff
    rw [Nat.zero_add, Nat.one_mul, latchedPan, Nat.zero_mul, Nat.zero_add]
    exact ⟨hpan, hblink⟩
  | succ q ih =>
    obtain ⟨hpan, hblink⟩ := latches_next_frame (fun u => inp ((q + 1) * r.fetch.raster.frameTime + u))
      (wraps_again inp h hr (q + 1)) hr (vertSync_again _ h hr hoff (q + 1))
    rw [← after_add, ← after_add, ih.2] at hblink
    rw [← after_add] at hpan
    rw [← Nat.add_assoc, ← Nat.succ_mul] at hpan hblink
    refine ⟨hpan, ?_⟩
    rw [hblink, blinkAt, blinkAt, BitVec.add_assoc, ← ofNat_succ]

end Latches

/-! ## Sixteen colours -/

/-- Frame after frame, whatever the registers of the retrace, the planes and the palette do in between: each place of the
display window shows the entry of the internal palette for its dot. -/
theorem run_shows {s₀ : Dots} (h : s₀.fetch.raster.Wraps r.fetch.raster) (hr : r.fetch.Fits)
    (hoff : s₀.fetch.raster.vertSync = false) (hon : r.seqScreenDisable = false) (hpas : r.attribPas = true)
    (hdots : r.attribPelclockDiv2 = false) (ce : Nat → Bool) (inp : Nat → DotIn) {q k x t : Nat}
    (hlast : k < r.fetch.raster.frameLines) (hk : ∀ j, j ≤ k → Fetch.Shown r.fetch j)
    (hx : x < (r.fetch.raster.horizontalDisplaySize.toNat + 1) * r.fetch.raster.charTime)
    (hpan : r.fetch.raster.seq8dotChar = true → panPlace (r.panAt (latchedPan r inp q) (Fetch.rowAt r.fetch k)) ≠ 0)
    (hblank : (inp ((q + 1) * r.fetch.raster.frameTime + (displayTime r k x - 1))).vgaregBlank = false)
    (ht : pulses ce 0 t = (q + 1) * r.fetch.raster.frameTime + displayTime r k x) :
    (run (enabled fun s i => s.next r i) s₀ (offered ce inp) t).pelColorIndex r =
      r.paletteIndex ((inp ((q + 1) * r.fetch.raster.frameTime + (displayTime r k x - 1))).internalPalette
        (frameDot s₀ r inp q k (shownDot r (latchedPan r inp q) k x))) := by
  have hstart := start_latched inp h hr q
  obtain ⟨hpanning, hblink⟩ := pan_latched inp h hr hoff q
  rw [after_add] at hstart hpanning hblink
  have hshown := shown_at (fun u => inp ((q + 1) * r.fetch.raster.frameTime + u)) (wraps_again inp h hr (q + 1))
    hr (vertSync_again _ h hr hoff (q + 1)) hon hlast hk hx (by rw [hpanning]; exact hpan)
  rw [hstart, hpanning, hblink, ← after_add] at hshown
  rw [displayTime_eq hr, Nat.add_sub_cancel] at hblank ⊢
  rw [run_enabled, ht, displayTime_eq hr, ← Nat.add_assoc]
  show Dots.pelColorIndex (s₀.after r inp (_ + 1)) r = _
  unfold pelColorIndex
  rw [hdots, if_neg Bool.false_ne_true]
  congr 1
  show (if r.attribPas && !r.seqScreenDisable && !DotIn.vgaregBlank (inp _) then _ else _) = _
  rw [hpas, hon, hblank]
  exact congrArg _ hshown

/-- The text mode in sixteen colours. -/
def textDots : DotRegs where
  fetch := Fetch.textFetch
  seqCharMapA := 0
  seqCharMapB := 0
  seqAccess256kb := true
  seqScreenDisable := false
  rowUnderline := 31
  cursorOff := false
  cursorRowStart := 13
  cursorRowEnd := 14
  cursorSkew := 0
  addressCursor := 0
  graphShiftMode := 0
  attribPas := true
  attribPanningAfterCompareMatch := false
  attribBlinking := true
  attrib9bitSameAs8bit := true
  attribMonoEmulation := false
  attribGraphicMode := false
  attribPelclockDiv2 := false
  attribColorBit54Enable := false
  attribColorBit76Value := 0
  attribColorBit54Value := 0
  attribMask := 15

def textDotsEnd : Dots where
  fetch := Fetch.textFetchEnd
  charMapA := 0
  charMapB := 0
  panningReg := 8
  blinkCnt := 0
  planeRamQ := fun _ => 0
  planeRam := fun _ => 0
  planeShiftCnt := 0
  planeShift := fun _ => 0
  planeTxtShift := 0
  txtForeground := 0
  txtBackground := 0
  pelInputLast := 0
  pelLineGraphicChar := false
  pelBackground := 0
  pelShiftReg := 0
  planeShiftEnableLast := false
  pelColor8bitCnt := false
  pelColor8bitBuffer := 0
  pelPalette := 0

/-- A page of the letter A, with the first palette of the BIOS. -/
def textIn : DotIn where
  start := ⟨0, 0⟩
  attribPanningValue := 8
  planes := fun p _ => if p = 0 then 65 else if p = 1 then 7 else 0x3C
  internalPalette := fun pel => pel.setWidth 6
  vgaregBlank := false

/-- A dot of the second row of the text. -/
theorem text_shows :
    (run (enabled fun s i => s.next textDots i) textDotsEnd (offered (fun _ => true) fun _ => textIn)
      (1 * Fetch.textFetch.raster.frameTime + displayTime textDots 16 7)).pelColorIndex textDots =
      textDots.paletteIndex ((frameDot textDotsEnd textDots (fun _ => textIn) 0 16
        (shownDot textDots 8 16 7)).setWidth 6) :=
  run_shows (q := 0) Raster.textFrameEnd_wraps Fetch.textFetch_fits rfl rfl rfl rfl (fun _ => true) (fun _ => textIn)
    (by decide) (by unfold Fetch.Shown; decide) (by decide) (fun h => absurd h (by decide)) rfl (pulses_always _)

end Dots

end Z486.Video
