/-
The output of the VGA from the DAC on (src/soc/vga.v), without the on-demand scanout: the palette RAM and the bypass of
16 bpp pixels, the blanking, the syncs, and the delay line that pixels and blanking cross together. Everything moves with
the dot enable `render_ce`.

The palette RAM is enabled by the blanking of the dot before the one whose index it is given. So the first dot after a
blanked one is not looked up, and is shown with the entry that was read last: that of the dot with which the blanking
began.
-/
import Mathlib.Tactic.IntervalCases
import Z486.Clocked.Pipeline

namespace Z486.Video

open Clocked

/-! ## Dots and modes -/

/-- What the raster has for a dot. -/
structure RasterDot where
  notDisplaying : Bool
  blankNoWraparound : Bool
  blankWraparound : Bool
  vertStretch : Bool
  horizSync : Bool
  vertSync : Bool
  pelColorIndex : BitVec 8
  fbPixel : BitVec 8
  fbRgb : BitVec 24

/-- The registers and options that a mode sets, with the palette. -/
structure DacMode where
  dacRam : BitVec 8 → BitVec 18
  dacMask : BitVec 8
  attribColorOverscan : BitVec 8
  attribPas : Bool
  seqScreenDisable : Bool
  seq8dotChar : Bool
  seqDotclockDivided : Bool
  crtcTimingEnable : Bool
  generalHsync : Bool
  generalVsync : Bool
  vgaBorder : Bool
  vgaTvmode : Bool
  fbNative : Bool
  fbNative16 : Bool
  fbNative24 : Bool

namespace RasterDot

variable (d : RasterDot)

def vgaprepBlank : Bool := d.blankNoWraparound || d.blankWraparound

/-- Blanked for the DAC. -/
def blanked : Bool := d.vgaprepBlank || d.vertStretch

end RasterDot

namespace DacMode

variable (m : DacMode) (d : RasterDot)

def pelDacIndex : BitVec 8 :=
  if d.notDisplaying then m.attribColorOverscan
  else if m.fbNative then d.fbPixel
  else if !m.attribPas then 0
  else d.pelColorIndex

def hideOverscan : Bool := !m.vgaBorder || m.vgaTvmode

/-- The scaler's blanking, which leaves out that of the top and the left. -/
def blankN : Bool := !(d.blankNoWraparound || d.vertStretch || (m.hideOverscan && d.notDisplaying))

def hsync : Bool := if d.horizSync && m.crtcTimingEnable then !m.generalHsync else m.generalHsync

def vsync : Bool := if d.vertSync && m.crtcTimingEnable then !m.generalVsync else m.generalVsync

def vidDelay : BitVec 8 :=
  (if m.fbNative24 then 46 else (if m.seq8dotChar then 16 else 27) <<< m.seqDotclockDivided.toNat) - 1

/-- The palette entry of a dot. -/
def entry : BitVec 18 := m.dacRam (m.pelDacIndex d &&& m.dacMask)

/-- The dot is a 16 bpp pixel of the display window. -/
def bypassed : Bool := m.fbNative16 && !d.notDisplaying

end DacMode

/-- Six bits of a colour as eight. -/
def expand (c : BitVec 18) : BitVec 24 :=
  c.extractLsb' 12 6 ++ c.extractLsb' 16 2 ++ c.extractLsb' 6 6 ++ c.extractLsb' 10 2 ++ c.extractLsb' 0 6 ++
    c.extractLsb' 4 2

/-! ## Registers -/

structure DacOutput where
  dacColor : BitVec 18
  vgaregBlank : Bool
  vgaregBlankN : Bool
  vgaBlankNPre : Bool
  vgaregHorizSync : Bool
  vgaregVertSync : Bool
  vgaHorizSync : Bool
  vgaVertSync : Bool
  fbRgbQ : BitVec 24
  fbBypassQ : Bool
  ndDly24 : BitVec 2
  blDly24 : BitVec 2
  vgaPre : BitVec 24
  vidDly : BitVec 8 → BitVec 25
  vidWr : BitVec 8
  vidQ : BitVec 25
  vidBlank24 : Bool
  vidBlank24b : Bool
  vgaRgb : BitVec 24
  vgaBlankN : Bool

namespace DacOutput

variable (m : DacMode) (s : DacOutput) (d : RasterDot)

def ndGate : Bool := if m.fbNative24 then s.ndDly24.getLsbD 1 else d.notDisplaying

def blGate : Bool := if m.fbNative24 then s.blDly24.getLsbD 1 else s.vgaregBlank

def vgaNxt : BitVec 24 :=
  if m.seqScreenDisable || s.blGate m then 0 else if s.fbBypassQ then s.fbRgbQ else expand s.dacColor

/-- A word of the delay line: a pixel and its blanking. -/
def vidWord : BitVec 25 := s.vgaPre ++ BitVec.ofBool s.vgaBlankNPre

/-- One dot. -/
def step : DacOutput where
  dacColor := if !m.seqScreenDisable && !s.vgaregBlank then m.entry d else s.dacColor
  vgaregBlank := d.blanked
  vgaregBlankN := m.blankN d
  vgaBlankNPre := s.vgaregBlankN
  vgaregHorizSync := m.hsync d
  vgaregVertSync := m.vsync d
  vgaHorizSync := s.vgaregHorizSync
  vgaVertSync := s.vgaregVertSync
  fbRgbQ := d.fbRgb
  fbBypassQ := m.fbNative16 && !s.ndGate m d
  ndDly24 := s.ndDly24.extractLsb' 0 1 ++ BitVec.ofBool d.notDisplaying
  blDly24 := s.blDly24.extractLsb' 0 1 ++ BitVec.ofBool s.vgaregBlank
  vgaPre := s.vgaNxt m
  vidDly := Function.update s.vidDly s.vidWr s.vidWord
  vidWr := s.vidWr + 1
  vidQ := s.vidDly (s.vidWr - m.vidDelay)
  vidBlank24 := s.vidQ.getLsbD 0
  vidBlank24b := s.vidBlank24
  vgaRgb := s.vidQ.extractLsb' 1 24
  vgaBlankN := if m.fbNative24 then s.vidBlank24b else s.vidQ.getLsbD 0

/-- One clock: the dot that the raster has in it, if it is enabled. -/
def clock : DacOutput → Option RasterDot → DacOutput := enabled (step m)

/-! ## The stages -/

def line : DelayLine 8 (BitVec 25) := ⟨s.vidDly, s.vidWr, s.vidQ⟩

variable {m} (s₀ : DacOutput) (dots : Nat → RasterDot)

theorem line_run (n : Nat) : (run (step m) s₀ dots n).line =
    run (DelayLine.step m.vidDelay) s₀.line (fun k => (run (step m) s₀ dots k).vidWord) n := by
  induction n with
  | zero => rfl
  | succ n ih =>
    rw [run_succ, run_succ, ← ih]
    rfl

theorem vidDelay_pos : 0 < m.vidDelay.toNat := by
  unfold DacMode.vidDelay
  cases m.fbNative24 <;> cases m.seq8dotChar <;> cases m.seqDotclockDivided <;> decide

/-- The delay line gives back the word of `vid_delay` dots before. -/
theorem vidQ_run (n : Nat) :
    (run (step m) s₀ dots (n + m.vidDelay.toNat + 1)).vidQ = (run (step m) s₀ dots n).vidWord :=
  (congrArg DelayLine.q (line_run s₀ dots _)).trans (DelayLine.q_run s₀.line _ vidDelay_pos n)

section Modes

variable (h24 : m.fbNative24 = false)
include h24

theorem vgaNxt_run (n : Nat) : (run (step m) s₀ dots (n + 1)).vgaNxt m =
    if m.seqScreenDisable || (dots n).blanked then 0
    else if m.bypassed (dots n) then (dots n).fbRgb else expand (run (step m) s₀ dots (n + 1)).dacColor := by
  have hblank : (run (step m) s₀ dots (n + 1)).blGate m = (dots n).blanked := by
    unfold blGate
    rw [h24]
    rfl
  have hbypass : (run (step m) s₀ dots (n + 1)).fbBypassQ = m.bypassed (dots n) := by
    show (m.fbNative16 && !(run (step m) s₀ dots n).ndGate m (dots n)) = _
    unfold ndGate
    rw [h24]
    rfl
  unfold vgaNxt
  rw [hblank, hbypass]
  rfl

/-- The colour that leaves is that of the dot `vid_delay` and four before. -/
theorem vgaRgb_run (n : Nat) : (run (step m) s₀ dots (n + m.vidDelay.toNat + 4)).vgaRgb =
    if m.seqScreenDisable || (dots n).blanked then 0
    else if m.bypassed (dots n) then (dots n).fbRgb else expand (run (step m) s₀ dots (n + 1)).dacColor := by
  have hword : (run (step m) s₀ dots (n + m.vidDelay.toNat + 4)).vgaRgb =
      (run (step m) s₀ dots (n + 2)).vidWord.extractLsb' 1 24 := by
    rw [← vidQ_run s₀ dots (n + 2), Nat.add_right_comm n 2]
    rfl
  rw [hword, ← vgaNxt_run s₀ dots h24]
  exact BitVec.extractLsb'_append_eq_left

theorem vgaBlankN_run (n : Nat) :
    (run (step m) s₀ dots (n + m.vidDelay.toNat + 4)).vgaBlankN = m.blankN (dots n) := by
  have hword : (run (step m) s₀ dots (n + m.vidDelay.toNat + 4)).vgaBlankN =
      (run (step m) s₀ dots (n + 2)).vidWord.getLsbD 0 := by
    show (if m.fbNative24 then _ else (run (step m) s₀ dots (n + m.vidDelay.toNat + 3)).vidQ.getLsbD 0) = _
    rw [h24, if_neg Bool.false_ne_true, ← vidQ_run s₀ dots (n + 2), Nat.add_right_comm n 2]
  rw [hword]
  show ((run (step m) s₀ dots (n + 2)).vgaPre ++ BitVec.ofBool (m.blankN (dots n))).getLsbD 0 = _
  rw [BitVec.getLsbD_append, if_pos Nat.zero_lt_one]
  cases m.blankN (dots n) <;> rfl

end Modes

/-! ## What the palette RAM holds -/

section Palette

/-- The dot before dot `n` was blanked. -/
def blankedBefore (s₀ : DacOutput) (dots : Nat → RasterDot) : Nat → Bool
  | 0 => s₀.vgaregBlank
  | n + 1 => (dots n).blanked

/-- The blanking that reaches up to dot `n` began with dot `j`. -/
structure BlankedFrom (s₀ : DacOutput) (dots : Nat → RasterDot) (j n : Nat) : Prop where
  lt : j < n
  first : blankedBefore s₀ dots j = false
  blanked : ∀ k, j ≤ k → k < n → (dots k).blanked = true

/-- The dots before dot `n` were all blanked, from before the first. -/
structure BlankedSoFar (s₀ : DacOutput) (dots : Nat → RasterDot) (n : Nat) : Prop where
  before : s₀.vgaregBlank = true
  blanked : ∀ k, k < n → (dots k).blanked = true

theorem vgaregBlank_run (n : Nat) : (run (step m) s₀ dots n).vgaregBlank = blankedBefore s₀ dots n := by
  cases n <;> rfl

variable (hon : m.seqScreenDisable = false) {s₀ dots}
include hon

theorem dacColor_looked {n : Nat} (h : blankedBefore s₀ dots n = false) :
    (run (step m) s₀ dots (n + 1)).dacColor = m.entry (dots n) := by
  show (if !m.seqScreenDisable && !(run (step m) s₀ dots n).vgaregBlank then _ else _) = _
  rw [vgaregBlank_run, hon, h]
  rfl

theorem dacColor_held {n : Nat} (h : blankedBefore s₀ dots n = true) :
    (run (step m) s₀ dots (n + 1)).dacColor = (run (step m) s₀ dots n).dacColor := by
  show (if !m.seqScreenDisable && !(run (step m) s₀ dots n).vgaregBlank then _ else _) = _
  rw [vgaregBlank_run, hon, h]
  rfl

theorem dacColor_blanked {j n : Nat} (h : BlankedFrom s₀ dots j n) :
    (run (step m) s₀ dots (n + 1)).dacColor = m.entry (dots j) := by
  obtain ⟨hlt, hfirst, hblanked⟩ := h
  induction n, Nat.succ_le_of_lt hlt using Nat.le_induction with
  | base =>
    rw [dacColor_held (n := j + 1) hon (hblanked j (Nat.le_refl j) (Nat.lt_succ_self j))]
    exact dacColor_looked hon hfirst
  | succ n hle ih =>
    rw [dacColor_held (n := n + 1) hon (hblanked n (Nat.le_of_succ_le hle) (Nat.lt_succ_self n))]
    exact ih hle fun k hjk hkn => hblanked k hjk (Nat.lt_succ_of_lt hkn)

theorem dacColor_soFar {n : Nat} (h : BlankedSoFar s₀ dots n) :
    (run (step m) s₀ dots (n + 1)).dacColor = s₀.dacColor := by
  obtain ⟨hbefore, hblanked⟩ := h
  induction n with
  | zero => exact dacColor_held hon hbefore
  | succ n ih =>
    rw [dacColor_held (n := n + 1) hon (hblanked n (Nat.lt_succ_self n))]
    exact ih fun k hk => hblanked k (Nat.lt_succ_of_lt hk)

end Palette

theorem blanked_cases {s₀ : DacOutput} {dots : Nat → RasterDot} {n : Nat} (h : blankedBefore s₀ dots n = true) :
    (∃ j, BlankedFrom s₀ dots j n) ∨ BlankedSoFar s₀ dots n := by
  induction n with
  | zero => exact .inr ⟨h, fun k hk => absurd hk (Nat.not_lt_zero k)⟩
  | succ n ih =>
    have hall : ∀ {j}, (∀ k, j ≤ k → k < n → (dots k).blanked = true) →
        ∀ k, j ≤ k → k < n + 1 → (dots k).blanked = true := by
      intro j hbefore k hjk hkn
      rcases Nat.lt_succ_iff_lt_or_eq.1 hkn with hlt | rfl
      · exact hbefore k hjk hlt
      · exact h
    cases hbefore : blankedBefore s₀ dots n with
    | false => exact .inl ⟨n, Nat.lt_succ_self n, hbefore, hall fun k hnk hkn => absurd hkn (Nat.not_lt.2 hnk)⟩
    | true =>
      rcases ih hbefore with ⟨j, hlt, hfirst, hblanked⟩ | ⟨hstart, hblanked⟩
      · exact .inl ⟨j, Nat.lt_succ_of_lt hlt, hfirst, hall hblanked⟩
      · exact .inr ⟨hstart, fun k hk => hall (j := 0) (fun k _ hk => hblanked k hk) k (Nat.zero_le k) hk⟩

/-! ## What leaves -/

theorem expand_injective : Function.Injective expand := by
  intro c c' h
  have hback : ∀ x : BitVec 18,
      (expand x).extractLsb' 18 6 ++ (expand x).extractLsb' 10 6 ++ (expand x).extractLsb' 2 6 = x := by
    intro x
    refine BitVec.eq_of_getLsbD_eq fun i hi => ?_
    simp only [expand, BitVec.getLsbD_append, BitVec.getLsbD_extractLsb']
    interval_cases i <;> simp
  rw [← hback c, h, hback c']

/-- The first dot after a blanking, if its colour comes from the palette, has the entry of the dot with which the
blanking began. -/
def LookedUp (m : DacMode) (s₀ : DacOutput) (dots : Nat → RasterDot) (n : Nat) : Prop :=
  m.seqScreenDisable = false → (dots n).blanked = false → m.bypassed (dots n) = false →
    blankedBefore s₀ dots n = true →
      (∃ j, BlankedFrom s₀ dots j n ∧ m.entry (dots j) = m.entry (dots n)) ∨
        BlankedSoFar s₀ dots n ∧ s₀.dacColor = m.entry (dots n)

theorem lookedUp_iff {n : Nat} : LookedUp m s₀ dots n ↔
    (m.seqScreenDisable = false → (dots n).blanked = false → m.bypassed (dots n) = false →
      (run (step m) s₀ dots (n + 1)).dacColor = m.entry (dots n)) := by
  constructor
  · intro h hon hshown hpalette
    cases hbefore : blankedBefore s₀ dots n with
    | false => exact dacColor_looked hon hbefore
    | true =>
      rcases h hon hshown hpalette hbefore with ⟨j, hfrom, hsame⟩ | ⟨hsofar, hsame⟩
      · exact (dacColor_blanked hon hfrom).trans hsame
      · exact (dacColor_soFar hon hsofar).trans hsame
  · intro h hon hshown hpalette hbefore
    have hcolor := h hon hshown hpalette
    rcases blanked_cases hbefore with ⟨j, hfrom⟩ | hsofar
    · exact .inl ⟨j, hfrom, (dacColor_blanked hon hfrom).symm.trans hcolor⟩
    · exact .inr ⟨hsofar, (dacColor_soFar hon hsofar).symm.trans hcolor⟩

/-- The output in clock `t` of a run in which the raster has the dots `dots`, one with each enable `ce`. -/
def output (m : DacMode) (s₀ : DacOutput) (ce : Nat → Bool) (dots : Nat → RasterDot) (t : Nat) : DacOutput :=
  run (clock m) s₀ (offered ce dots) t

/-- Dot `n` leaves: its syncs in the enable after its own; `vid_delay` and two enables later, in one step, its blanking
and its colour, black where it is blanked, and otherwise its own pixel in the 16 bpp window and its palette entry
elsewhere. -/
structure Leaves (m : DacMode) (s₀ : DacOutput) (ce : Nat → Bool) (dots : Nat → RasterDot) (n : Nat) : Prop where
  sync : ∀ t, pulses ce 0 t = n + 2 →
    (output m s₀ ce dots t).vgaHorizSync = m.hsync (dots n) ∧ (output m s₀ ce dots t).vgaVertSync = m.vsync (dots n)
  blanking : ∀ t, pulses ce 0 t = n + 2 + (m.vidDelay.toNat + 2) →
    (output m s₀ ce dots t).vgaBlankN = m.blankN (dots n)
  black : ∀ t, pulses ce 0 t = n + 2 + (m.vidDelay.toNat + 2) → (dots n).blanked = true →
    (output m s₀ ce dots t).vgaRgb = 0
  pixel : ∀ t, pulses ce 0 t = n + 2 + (m.vidDelay.toNat + 2) → (dots n).blanked = false →
    m.seqScreenDisable = false → m.bypassed (dots n) = true → (output m s₀ ce dots t).vgaRgb = (dots n).fbRgb
  palette : ∀ t, pulses ce 0 t = n + 2 + (m.vidDelay.toNat + 2) → (dots n).blanked = false →
    m.seqScreenDisable = false → m.bypassed (dots n) = false →
      (output m s₀ ce dots t).vgaRgb = expand (m.entry (dots n))

theorem output_run {m : DacMode} {s₀ : DacOutput} {ce : Nat → Bool} {dots : Nat → RasterDot} {t k : Nat}
    (ht : pulses ce 0 t = k) : output m s₀ ce dots t = run (step m) s₀ dots k :=
  (run_enabled (step m) s₀ ce dots t).trans (congrArg _ ht)

/-- In every mode but native 24 bpp a dot that comes to the output leaves it as it should exactly if it is not the first
after a blanking, or shows no palette entry, or its entry is that of the dot with which the blanking began. -/
theorem leaves_iff (m : DacMode) (h24 : m.fbNative24 = false) (s₀ : DacOutput) (ce : Nat → Bool) (dots : Nat → RasterDot)
    (n : Nat) (hleaves : ∃ t, pulses ce 0 t = n + 2 + (m.vidDelay.toNat + 2)) :
    Leaves m s₀ ce dots n ↔ LookedUp m s₀ dots n := by
  have hstep : n + 2 + (m.vidDelay.toNat + 2) = n + m.vidDelay.toNat + 4 := by omega
  have hrgb := vgaRgb_run s₀ dots h24 n
  rw [lookedUp_iff]
  constructor
  · intro h hon hshown hpalette
    obtain ⟨t, ht⟩ := hleaves
    have hcolor := h.palette t ht hshown hon hpalette
    rw [output_run (ht.trans hstep), hrgb, hon, hshown, hpalette] at hcolor
    exact expand_injective hcolor
  · intro h
    refine ⟨fun t ht => ?_, fun t ht => ?_, fun t ht hblank => ?_, fun t ht hshown hon hpixel => ?_,
      fun t ht hshown hon hpalette => ?_⟩
    · rw [output_run ht]
      exact ⟨rfl, rfl⟩
    · rw [output_run (ht.trans hstep)]
      exact vgaBlankN_run s₀ dots h24 n
    · rw [output_run (ht.trans hstep), hrgb, hblank, Bool.or_true, if_pos rfl]
    · rw [output_run (ht.trans hstep), hrgb, hon, hshown, hpixel]
      rfl
    · rw [output_run (ht.trans hstep), hrgb, hon, hshown, hpalette, h hon hshown hpalette]
      rfl

/-- The text modes' delay, without overscan, and a palette in which entry 1 is white and the others are black. -/
def textMode : DacMode where
  dacRam i := if i = 1 then 0x3FFFF else 0
  dacMask := 0xFF
  attribColorOverscan := 0
  attribPas := true
  seqScreenDisable := false
  seq8dotChar := false
  seqDotclockDivided := false
  crtcTimingEnable := true
  generalHsync := false
  generalVsync := false
  vgaBorder := false
  vgaTvmode := false
  fbNative := false
  fbNative16 := false
  fbNative24 := false

/-- A dot of index 1 in the picture, or a blanked one of index 0. -/
def inkDot (blank : Bool) : RasterDot where
  notDisplaying := blank
  blankNoWraparound := blank
  blankWraparound := false
  vertStretch := false
  horizSync := false
  vertSync := false
  pelColorIndex := if blank then 0 else 1
  fbPixel := 0
  fbRgb := 0

def dark : DacOutput :=
  ⟨0, false, false, false, false, false, false, false, 0, false, 0, 0, 0, fun _ => 0, 0, 0, false, false, 0, false⟩

/-- Without blanking every dot is looked up. -/
theorem leaves_picture : Leaves textMode dark (fun _ => true) (fun _ => inkDot false) 3 :=
  (leaves_iff textMode rfl dark (fun _ => true) (fun _ => inkDot false) 3 ⟨33, pulses_always 33⟩).2
    fun _ _ _ hblank => absurd hblank Bool.false_ne_true

/-- The first dot of a line, after a blanked one, is shown in the colour of that. -/
theorem first_not_leaves :
    ¬Leaves textMode dark (fun _ => true) (fun n => inkDot (decide (n = 1))) 2 := by
  intro h
  have hcolor := h.palette 32 (pulses_always 32) rfl rfl rfl
  rw [output_run (pulses_always 32)] at hcolor
  have hstale := vgaRgb_run dark (fun n => inkDot (decide (n = 1))) (m := textMode) rfl 2
  exact absurd (hstale.symm.trans hcolor) (by decide)

end DacOutput

end Z486.Video
