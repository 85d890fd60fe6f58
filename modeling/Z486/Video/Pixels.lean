/-
The 256 colours of the VGA (src/soc/vga.v): every second dot two dots of the shift register become a pixel. The divider
that says which dots belong together starts with the first dot of each line, once the shift counter has come to rest, so
the pixels are the same pairs of dots on every line.
-/
import Z486.Video.Screen

namespace Z486.Video

open Clocked Scanlines

/-! ## Between the lines -/

/-- After the last column of a line nothing is loaded until the next line. -/
theorem Fetch.no_load_late {r : FetchRegs} {f₀ : Fetch} (inp : Nat → StartIn) (h : f₀.raster.Wraps r.raster) (hr : r.Fits)
    (k : Nat) {e : Nat} (he : e < r.raster.lineTime) (hcol : r.columns ≤ e / r.raster.charTime) :
    (f₀.after r inp (k * r.raster.lineTime + r.fetchTime + e)).dotMemoryLoad r = false := by
  have hphase := r.loadPhase_lt
  unfold dotMemoryLoad
  rw [loadDot_at _ h hr]
  by_cases hdot : e % r.raster.charTime = 0
  · obtain ⟨c, rfl⟩ := Nat.dvd_of_mod_eq_zero hdot
    rw [Nat.mul_div_cancel_left _ (by omega)] at hcol
    rw [Nat.mul_comm] at *
    have hc : c ≤ r.raster.lastChar := Nat.le_of_lt_succ (Nat.lt_of_mul_lt_mul_right he)
    have hfetch := (horizCnt_column inp h hr k (d := 0) hc (by omega)).2
    rw [Nat.add_zero] at hfetch
    unfold dotMemoryLoadActive
    rw [Bool.eq_false_of_not_eq_true (mt hfetch.1 (Nat.not_lt.2 hcol)), Bool.false_and, Bool.and_false]
  · rw [decide_eq_false hdot, Bool.false_and]

namespace Dots

variable {r : DotRegs}

/-- The enables until the shift counter is at rest. -/
def shiftsLeft (cnt : BitVec 6) : Nat :=
  if cnt = 0 then 0 else if cnt.toNat ≤ 34 then 35 - cnt.toNat else 64 - cnt.toNat

theorem shiftsLeft_le (cnt : BitVec 6) : shiftsLeft cnt ≤ 34 := by
  revert cnt
  decide

theorem shiftsLeft_next {s : Dots} {i : DotIn} (hload : s.fetch.stepB = false) :
    shiftsLeft (s.next r i).planeShiftCnt = shiftsLeft s.planeShiftCnt - 1 := by
  have hcount : ∀ cnt : BitVec 6,
      shiftsLeft (if cnt == 34 then 0 else if cnt != 0 then cnt + 1 else cnt) = shiftsLeft cnt - 1 := by decide
  rw [← hcount]
  show shiftsLeft (if s.fetch.stepB then _ else _) = _
  rw [hload]
  rfl

section Idle

variable {s₀ : Dots} (inp : Nat → DotIn) (h : s₀.fetch.raster.Wraps r.fetch.raster) (hr : r.fetch.Fits)
  (hrest : r.fetch.raster.horizontalDisplaySize.toNat + 6 ≤ r.fetch.raster.lastChar)
include h hr hrest

/-- Before the first column of a line the shift counter is at rest. -/
theorem shiftCnt_idle (k : Nat) :
    (s₀.after r inp ((k + 1) * r.fetch.raster.lineTime + r.fetch.fetchTime + 3)).planeShiftCnt = 0 := by
  have htime := r.fetch.raster.charTime_ge
  have hsize : r.fetch.raster.lineTime = r.fetch.raster.lastChar * r.fetch.raster.charTime + r.fetch.raster.charTime :=
    Nat.succ_mul _ _
  have hlong : 6 * r.fetch.raster.charTime ≤ r.fetch.raster.lastChar * r.fetch.raster.charTime :=
    Nat.mul_le_mul_right _ (by omega)
  have hnext : (k + 1) * r.fetch.raster.lineTime = k * r.fetch.raster.lineTime + r.fetch.raster.lineTime := Nat.succ_mul _ _
  have hfalls : ∀ n, n ≤ 34 → shiftsLeft (s₀.after r inp (k * r.fetch.raster.lineTime + r.fetch.fetchTime +
      (r.fetch.raster.lineTime - 34 + n) + 3)).planeShiftCnt ≤ 34 - n := by
    intro n
    induction n with
    | zero => exact fun _ => shiftsLeft_le _
    | succ n ih =>
      intro hn
      have hload : (s₀.after r inp (k * r.fetch.raster.lineTime + r.fetch.fetchTime +
          (r.fetch.raster.lineTime - 34 + n) + 3)).fetch.stepB = false := by
        show (s₀.after r inp _).fetch.dotMemoryLoad r.fetch = false
        rw [fetch_after]
        refine Fetch.no_load_late _ h hr k (by omega) ((Nat.le_div_iff_mul_le (by omega)).2 ?_)
        have hcols : (r.fetch.raster.horizontalDisplaySize.toNat + 2) * r.fetch.raster.charTime +
            4 * r.fetch.raster.charTime ≤ r.fetch.raster.lastChar * r.fetch.raster.charTime := by
          rw [← Nat.add_mul]
          exact Nat.mul_le_mul_right _ (by omega)
        unfold FetchRegs.columns
        omega
      have hfall := shiftsLeft_next (r := r) (i := inp (k * r.fetch.raster.lineTime + r.fetch.fetchTime +
        (r.fetch.raster.lineTime - 34 + n) + 3)) hload
      have hbefore := ih (by omega)
      refine (Nat.le_of_eq (hfall : _ = _)).trans ?_
      omega
  have hend := hfalls 34 (Nat.le_refl _)
  rw [show k * r.fetch.raster.lineTime + r.fetch.fetchTime + (r.fetch.raster.lineTime - 34 + 34) =
    (k + 1) * r.fetch.raster.lineTime + r.fetch.fetchTime by omega] at hend
  generalize (s₀.after r inp _).planeShiftCnt = cnt at hend
  unfold shiftsLeft at hend
  have := cnt.isLt
  split at hend
  · assumption
  · split at hend <;> omega

end Idle

/-! ## Pairs of dots -/

theorem pelAfterPanning_eq {s : Dots} {pan : BitVec 4} (hpan : s.panningReg = pan) :
    s.pelAfterPanning =
      s.pelShiftReg.extractLsb' (4 * (panPlace pan + 1)) 4 ++ s.pelShiftReg.extractLsb' (4 * panPlace pan) 4 := by
  unfold pelAfterPanning
  rw [pelPlace_eq hpan]
  exact (BitVec.extractLsb'_append_extractLsb'_eq_extractLsb' (Nat.mul_succ 4 _)).symm

section Pairs

variable {s₀ : Dots} (inp : Nat → DotIn) (h : s₀.fetch.raster.Wraps r.fetch.raster) (hr : r.fetch.Fits)
  (hoff : s₀.fetch.raster.vertSync = false) (hon : r.seqScreenDisable = false)
  (hfull : r.fetch.raster.seqDotclockDivided = false) {k : Nat} (hlast : k < r.fetch.raster.frameLines)
  (hk : ∀ j, j ≤ k → Fetch.Shown r.fetch j)
include h hr hoff hon hfull hlast hk

theorem shiftEnable_at {v : Nat} (hv : v < r.fetch.columns * r.fetch.raster.charTime) :
    (s₀.after r inp (k * r.fetch.raster.lineTime + r.fetch.fetchTime + (v + 4))).planeShiftEnable r = true := by
  have htime := r.fetch.raster.charTime_ge
  have hi := Nat.mod_lt v (show 0 < r.fetch.raster.charTime by omega)
  have hshift := shifting_at inp h hr hoff hon hlast hk ((Nat.div_lt_iff_lt_mul (by omega)).2 hv) hi
  have henable := hshift.enable hi
  rw [Nat.div_add_mod', hfull] at henable
  exact henable.trans (decide_eq_true fun hdivided => absurd hdivided Bool.false_ne_true)

variable (hidle : (s₀.after r inp (k * r.fetch.raster.lineTime + r.fetch.fetchTime + 3)).planeShiftCnt = 0)
include hidle

/-- The pairs of dots begin with the first dot of the line. -/
theorem pairing_at {v : Nat} (hv : v < r.fetch.columns * r.fetch.raster.charTime) :
    (s₀.after r inp (k * r.fetch.raster.lineTime + r.fetch.fetchTime + (v + 5))).pelColor8bitCnt = decide (v % 2 = 1) := by
  have henable := fun v => shiftEnable_at inp (v := v) h hr hoff hon hfull hlast hk
  induction v with
  | zero =>
    have hnone : (s₀.after r inp (k * r.fetch.raster.lineTime + r.fetch.fetchTime + 3)).planeShiftEnable r = false := by
      unfold planeShiftEnable
      rw [hidle, hfull]
      rfl
    show (if (s₀.after r inp (k * r.fetch.raster.lineTime + r.fetch.fetchTime + (0 + 4))).planeShiftEnable r &&
      !(s₀.after r inp (k * r.fetch.raster.lineTime + r.fetch.fetchTime + 3)).planeShiftEnable r then false else _) = _
    rw [henable 0 hv, hnone]
    rfl
  | succ v ih =>
    show (if (s₀.after r inp (k * r.fetch.raster.lineTime + r.fetch.fetchTime + (v + 1 + 4))).planeShiftEnable r &&
      !(s₀.after r inp (k * r.fetch.raster.lineTime + r.fetch.fetchTime + (v + 4))).planeShiftEnable r then false
      else !(s₀.after r inp (k * r.fetch.raster.lineTime + r.fetch.fetchTime + (v + 5))).pelColor8bitCnt) = _
    rw [henable (v + 1) hv, henable v (Nat.lt_of_succ_lt hv), ih (Nat.lt_of_succ_lt hv)]
    show (!decide (v % 2 = 1)) = _
    rw [← decide_not, decide_eq_decide]
    omega

/-- A pair is latched when its second dot is there, and held while the next one comes. -/
theorem pixelBuffer_at {y : Nat} (hy : y + 2 ≤ r.fetch.columns * r.fetch.raster.charTime) :
    (s₀.after r inp (k * r.fetch.raster.lineTime + r.fetch.fetchTime + (y + 7))).pelColor8bitBuffer =
      (s₀.after r inp (k * r.fetch.raster.lineTime + r.fetch.fetchTime + (2 * (y / 2) + 6))).pelAfterPanning := by
  have hpairing := fun v => pairing_at _ (v := v) h hr hoff hon hfull hlast hk hidle
  have hgo : ∀ y, (s₀.after r inp (k * r.fetch.raster.lineTime + r.fetch.fetchTime + (y + 7))).pelColor8bitBuffer =
      if (s₀.after r inp (k * r.fetch.raster.lineTime + r.fetch.fetchTime + (y + 1 + 5))).pelColor8bitCnt then
        (s₀.after r inp (k * r.fetch.raster.lineTime + r.fetch.fetchTime + (y + 6))).pelAfterPanning
      else (s₀.after r inp (k * r.fetch.raster.lineTime + r.fetch.fetchTime + (y + 6))).pelColor8bitBuffer := fun _ => rfl
  have heven : ∀ i, 2 * i + 2 ≤ r.fetch.columns * r.fetch.raster.charTime →
      (s₀.after r inp (k * r.fetch.raster.lineTime + r.fetch.fetchTime + (2 * i + 7))).pelColor8bitBuffer =
        (s₀.after r inp (k * r.fetch.raster.lineTime + r.fetch.fetchTime + (2 * i + 6))).pelAfterPanning := by
    intro i hi
    rw [hgo, hpairing _ (by omega), decide_eq_true (by omega), if_pos rfl]
  rcases Nat.even_or_odd' y with ⟨i, rfl | rfl⟩
  · rw [Nat.mul_div_cancel_left i (by decide)]
    exact heven i hy
  · rw [hgo, show (2 * i + 1) / 2 = i by omega]
    have hheld := heven i (by omega)
    by_cases hmore : 2 * i + 1 + 1 < r.fetch.columns * r.fetch.raster.charTime
    · rw [hpairing _ hmore, decide_eq_false (by omega), if_neg Bool.false_ne_true]
      exact hheld
    · omega

variable (hchar : r.fetch.raster.seq8dotChar = true)
include hchar

/-- The pixel of 256 colours at place `x`. -/
theorem pixel_at {x : Nat} (hx : x < (r.fetch.raster.horizontalDisplaySize.toNat + 1) * r.fetch.raster.charTime)
    (hpan : panPlace (r.panAt (s₀.after r inp 1).panningReg (Fetch.rowAt r.fetch k)) - 1 < 7)
    (hpos : panPlace (r.panAt (s₀.after r inp 1).panningReg (Fetch.rowAt r.fetch k)) ≠ 0) :
    let m := 2 * (x / 2) + (panPlace (r.panAt (s₀.after r inp 1).panningReg (Fetch.rowAt r.fetch k)) - 1)
    (s₀.after r inp (displayTime r k x)).pelColor8bitBuffer =
      pelAt r inp (s₀.after r inp 1).fetch.addressStartReg (s₀.after r inp 1).blinkCnt k (m + 1) ++
        pelAt r inp (s₀.after r inp 1).fetch.addressStartReg (s₀.after r inp 1).blinkCnt k m := by
  intro m
  have htime : r.fetch.raster.charTime = 8 := by
    unfold RasterRegs.charTime RasterRegs.charDots
    rw [hfull, hchar]
    rfl
  have hphase : r.fetch.loadPhase = 2 := by
    unfold FetchRegs.loadPhase
    rw [hfull, hchar]
    rfl
  have hdots : ∀ v, r.shiftsBefore v = v := fun v => by
    unfold DotRegs.shiftsBefore
    rw [hfull]
    rfl
  have hcol := columns_le hr (c := r.fetch.raster.horizontalDisplaySize.toNat + 1) (Nat.lt_succ_self _)
  have hcols : r.fetch.columns * r.fetch.raster.charTime =
      (r.fetch.raster.horizontalDisplaySize.toNat + 1) * r.fetch.raster.charTime + r.fetch.raster.charTime :=
    Nat.succ_mul _ _
  have hcols' : (r.fetch.raster.horizontalDisplaySize.toNat + 1 + 1) * r.fetch.raster.charTime =
      (r.fetch.raster.horizontalDisplaySize.toNat + 1) * r.fetch.raster.charTime + r.fetch.raster.charTime :=
    Nat.succ_mul _ _
  have hkept := kept_at inp (e := 2 * (x / 2) + 8 + 4) h hr hoff hlast hk (by omega) (by omega)
  have hshown := fun b => pelShiftReg_at inp (v := 2 * (x / 2) + 8) (b := b) h hr hoff hon hlast hk (by omega)
  have hat : displayTime r k x = k * r.fetch.raster.lineTime + r.fetch.fetchTime + (x + 6 + 7) := by
    rw [displayTime_eq hr, htime, hphase]
    omega
  rw [hat, pixelBuffer_at _ h hr hoff hon hfull hlast hk hidle (by omega),
    show 2 * ((x + 6) / 2) + 6 = 2 * (x / 2) + 8 + 4 by omega, pelAfterPanning_eq hkept.panning,
    hshown _ (by omega) (by rw [hdots]; omega), hshown _ (by omega) (by rw [hdots]; omega), hdots]
  congr 2 <;> omega

end Pairs

/-! ## 256 colours -/

/-- The first of the two dots whose pixel is at place `x`. -/
def pairStart (r : DotRegs) (pan : BitVec 4) (k x : Nat) : Nat :=
  2 * (x / 2) + (panPlace (r.panAt pan (Fetch.rowAt r.fetch k)) - 1)

/-- What the registers say for 256 colours: the pairs of dots, at the full dot clock, and a blanking in which the shift
counter comes to rest. -/
structure Paired (r : DotRegs) : Prop where
  fits : r.fetch.Fits
  on : r.seqScreenDisable = false
  full : r.fetch.raster.seqDotclockDivided = false
  char : r.fetch.raster.seq8dotChar = true
  div2 : r.attribPelclockDiv2 = true
  rest : r.fetch.raster.horizontalDisplaySize.toNat + 6 ≤ r.fetch.raster.lastChar

/-- Frame after frame each place of the display window shows the pixel of its pair of dots, wherever the divider stood
when the frame began. -/
theorem run_shows_pixels {s₀ : Dots} (h : s₀.fetch.raster.Wraps r.fetch.raster) (hr : Paired r)
    (hoff : s₀.fetch.raster.vertSync = false) (ce : Nat → Bool) (inp : Nat → DotIn) {q k x t : Nat}
    (hlast : k < r.fetch.raster.frameLines) (hk : ∀ j, j ≤ k → Fetch.Shown r.fetch j)
    (hx : x < (r.fetch.raster.horizontalDisplaySize.toNat + 1) * r.fetch.raster.charTime)
    (hpan : latchedPan r inp q < 7)
    (ht : pulses ce 0 t = (q + 1) * r.fetch.raster.frameTime + displayTime r k x) :
    (run (enabled fun s i => s.next r i) s₀ (offered ce inp) t).pelColorIndex r =
      r.pixelIndex (frameDot s₀ r inp q k (pairStart r (latchedPan r inp q) k x + 1) ++
        frameDot s₀ r inp q k (pairStart r (latchedPan r inp q) k x)) := by
  obtain ⟨hfits, hon, hfull, hchar, hdiv2, hrest⟩ := hr
  have hstart := start_latched inp h hfits q
  obtain ⟨hpanning, hblink⟩ := pan_latched inp h hfits hoff q
  have hplace : panPlace (r.panAt (latchedPan r inp q) (Fetch.rowAt r.fetch k)) ≠ 0 ∧
      panPlace (r.panAt (latchedPan r inp q) (Fetch.rowAt r.fetch k)) - 1 < 7 := by
    have hsmall : ∀ pan : BitVec 4, pan < 7 → panPlace pan ≠ 0 ∧ panPlace pan - 1 < 7 := by decide
    refine hsmall _ ?_
    unfold DotRegs.panAt
    split
    · decide
    · exact hpan
  -- at rest before each line of the run, counted from its start
  have hidle := shiftCnt_idle inp h hfits hrest ((q + 1) * r.fetch.raster.frameLines + k - 1)
  have hlines : ((q + 1) * r.fetch.raster.frameLines + k - 1 + 1) * r.fetch.raster.lineTime =
      (q + 1) * r.fetch.raster.frameTime + k * r.fetch.raster.lineTime := by
    have hpos : 0 < (q + 1) * r.fetch.raster.frameLines := Nat.mul_pos (Nat.succ_pos q) (by omega)
    unfold RasterRegs.frameTime
    rw [Nat.sub_add_cancel (by omega), Nat.add_mul, Nat.mul_assoc]
  rw [hlines, Nat.add_assoc, Nat.add_assoc, ← Nat.add_assoc (k * _), after_add] at hidle
  rw [after_add] at hstart hpanning hblink
  have hpixel := pixel_at (fun u => inp ((q + 1) * r.fetch.raster.frameTime + u))
    (wraps_again inp h hfits (q + 1)) hfits (vertSync_again _ h hfits hoff (q + 1)) hon hfull hlast hk hidle hchar hx
    (by rw [hpanning]; exact hplace.2) (by rw [hpanning]; exact hplace.1)
  rw [hstart, hpanning, hblink, ← after_add] at hpixel
  rw [run_enabled, ht]
  unfold pelColorIndex
  rw [hdiv2, if_pos rfl]
  exact congrArg r.pixelIndex hpixel

/-- The mode of 320 by 200 pixels in 256 colours. -/
def mode13Raster : RasterRegs where
  seq8dotChar := true
  seqDotclockDivided := false
  horizontalTotal := 95
  horizontalDisplaySize := 79
  horizontalRetraceStart := 84
  horizontalRetraceSkew := 0
  horizontalRetraceEnd := 0
  verticalTotal := 447
  verticalDisplaySize := 399
  verticalRetraceStart := 412
  verticalRetraceEnd := 14
  vzoom := false
  vstretch := false
  vodd := false

def mode13Fetch : FetchRegs where
  raster := mode13Raster
  verticalDoublescan := false
  rowMax := 1
  rowPreset := 0
  addressOffset := 40
  lineCompare := 1023
  addressDoubleword := true
  addressByte := false
  addressBit0 := true
  addressBit13 := true
  addressBit14 := true

def mode13 : DotRegs :=
  { textDots with
    fetch := mode13Fetch
    graphShiftMode := 2
    attribBlinking := false
    attribGraphicMode := true
    attribPelclockDiv2 := true }

/-- The last enable of its frame. -/
def mode13End : Dots :=
  { textDotsEnd with
    fetch := ⟨⟨false, 7, 84, 84, 0, 0, ⟨448, false, 0, 0⟩, true, false, false, true⟩, false, false, false, false, 0, 1, false, 0,
      0, 1, 0⟩ }

theorem mode13End_wraps : mode13End.fetch.raster.Wraps mode13.fetch.raster :=
  ⟨⟨⟨by decide, by decide⟩, rfl, rfl, rfl⟩, by decide, by decide, by decide⟩

theorem mode13_paired : Paired mode13 :=
  ⟨⟨⟨⟨⟨by decide, fun h => absurd h (by decide), fun _ => by decide⟩, by decide, by decide, by decide, by decide⟩,
    by decide⟩, by decide⟩, rfl, rfl, rfl, rfl, by decide⟩

def mode13In : DotIn := { textIn with attribPanningValue := 0 }

/-- Pixel 5 of the second row. -/
theorem mode13_shows :
    (run (enabled fun s i => s.next mode13 i) mode13End (offered (fun _ => true) fun _ => mode13In)
      (1 * mode13.fetch.raster.frameTime + displayTime mode13 2 11)).pelColorIndex mode13 =
      mode13.pixelIndex (frameDot mode13End mode13 (fun _ => mode13In) 0 2 (pairStart mode13 0 2 11 + 1) ++
        frameDot mode13End mode13 (fun _ => mode13In) 0 2 (pairStart mode13 0 2 11)) :=
  run_shows_pixels (q := 0) mode13End_wraps mode13_paired rfl (fun _ => true) (fun _ => mode13In) (by decide)
    (by unfold Fetch.Shown; decide) (by decide) (by decide) (pulses_always _)

end Dots

end Z486.Video
