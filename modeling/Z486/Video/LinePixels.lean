/-
What the line buffer shows at each dot enable of the display window. Address, byte select and dot phase
are registered at the enable before, so the enables are counted here from the inputs alone, and the
registers are described by that count.
-/
import Z486.Video.SvgaLinebuf

namespace Z486.Video

/-! ## The enables of a raster -/

namespace LinebufIn

variable (i : LinebufIn)

/-- A dot enable inside the display window. -/
def displayed : Bool := i.cePix && !i.notDisplaying

/-- A dot enable outside of it. -/
def blank : Bool := i.cePix && i.notDisplaying

end LinebufIn

section Raster

variable (inputs : Nat → LinebufIn)

/-- The number of enables in the display window so far: the one in clock `t` is the `dotIndex t`-th. -/
def dotIndex : Nat → Nat
  | 0 => 0
  | t + 1 => if (inputs t).blank then 0 else if (inputs t).displayed then dotIndex t + 1 else dotIndex t

/-- The number of enables since the display window closed; the reset counts for two. -/
def blankIndex : Nat → Nat
  | 0 => 2
  | t + 1 => if (inputs t).blank then blankIndex t + 1 else if (inputs t).displayed then 0 else blankIndex t

/-- The vertical sync starts in clock `t`. -/
def frameStart : Nat → Bool
  | 0 => (inputs 0).vsync
  | t + 1 => (inputs (t + 1)).vsync && !(inputs t).vsync

end Raster

/-- Byte `k` of half `h` of the buffer. -/
def byteOf (lb : BitVec 10 → BitVec 64) (h : Bool) (k : Nat) : BitVec 8 :=
  (lb (BitVec.ofBool h ++ BitVec.ofNat 9 (k / 8))).extractLsb' (8 * (k % 8)) 8

/-- Half-word `k` of half `h` of the buffer. -/
def halfWordOf (lb : BitVec 10 → BitVec 64) (h : Bool) (k : Nat) : BitVec 16 :=
  (lb (BitVec.ofBool h ++ BitVec.ofNat 9 (k / 4))).extractLsb' (16 * (k % 4)) 16

/-- Bytes `k` to `k + 2` of half `h` of the buffer, the first one lowest. -/
def threeBytesOf (lb : BitVec 10 → BitVec 64) (h : Bool) (k : Nat) : BitVec 24 :=
  byteOf lb h (k + 2) ++ byteOf lb h (k + 1) ++ byteOf lb h k

/-! ## Runs -/

/-- The raster side from its reset on, in one mode, with any dot enables, any display windows with at least two
enables of blanking between them that fit a half of the buffer, and any acknowledges of the engine. -/
structure PixelRun where
  start : LineDots
  taken : Nat → Bool
  inputs : Nat → LinebufIn
  bpp : BitVec 2
  fmt16 : BitVec 2
  dotdiv : Bool
  steady : ∀ t, (inputs t).bpp = bpp ∧ (inputs t).fmt16 = fmt16 ∧ (inputs t).dotdiv = dotdiv
  blanking : ∀ t, (inputs t).displayed = true → dotIndex inputs t = 0 → 2 ≤ blankIndex inputs t
  fits : ∀ t, (inputs t).displayed = true →
    (bpp = 0 → dotIndex inputs t / (if dotdiv then 2 else 1) + 1 ≤ 4096) ∧
    (bpp = 1 → 2 * (dotIndex inputs t / (if dotdiv then 2 else 1) + 1) ≤ 4096) ∧
    (bpp = 2 → 3 * (dotIndex inputs t / 3 + 1) ≤ 4096)

namespace PixelRun

variable (r : PixelRun)

/-- The registers of the requests in clock `t`. -/
def requests : Nat → LineRequests :=
  Clocked.run (fun s (i : LinebufIn × Bool) => s.step i.1 i.2) LineRequests.reset fun t => (r.inputs t, r.taken t)

/-- The registers of the dots in clock `t`, over the buffer `lb`. -/
def dots (lb : BitVec 10 → BitVec 64) : Nat → LineDots
  | 0 => r.start.reset
  | t + 1 => (dots lb t).step (r.inputs t) ((r.requests t).firstDot (r.inputs t)) (r.requests t).yPar
      (lb (dots lb t).lbRdAddr)

/-- What the module shows in clock `t`. -/
def pixel (lb : BitVec 10 → BitVec 64) (t : Nat) : BitVec 8 := (r.dots lb t).pixel (lb (r.dots lb t).lbRdAddr)

def rgb (lb : BitVec 10 → BitVec 64) (t : Nat) : BitVec 24 := (r.dots lb t).rgb (r.inputs t) (lb (r.dots lb t).lbRdAddr)

/-- A pixel of the 24bpp mode is started in clock `t`. -/
def startsPixel (lb : BitVec 10 → BitVec 64) (t : Nat) : Bool :=
  (r.inputs t).cePix && (r.dots lb t).px24Adv ((r.requests t).firstDot (r.inputs t))

/-- The enables that a dot lasts. -/
def enablesPerDot : Nat := if r.dotdiv then 2 else 1

/-- At the `j`-th enable of every display window the module shows byte, or half-word, `j / d` of the half that is being
displayed; in 24bpp the colour of the pixel that starts at enable `3 * x` is assembled of bytes `3 * x` to `3 * x + 2`
three clocks later, and stays until the next one is. -/
structure Shows (lb : BitVec 10 → BitVec 64) : Prop where
  bytes : r.bpp = 0 → ∀ t, (r.inputs t).displayed = true →
    r.pixel lb t = byteOf lb (r.requests t).yPar (dotIndex r.inputs t / r.enablesPerDot)
  halfWords : r.bpp = 1 → ∀ t, (r.inputs t).displayed = true →
    r.rgb lb t = rgb16 r.fmt16 (halfWordOf lb (r.requests t).yPar (dotIndex r.inputs t / r.enablesPerDot))
  colours : r.bpp = 2 → ∀ t x, (r.inputs t).displayed = true → dotIndex r.inputs t = 3 * x →
    ∀ u, t + 3 ≤ u → (∀ v, t < v → v + 3 ≤ u → r.startsPixel lb v = false) →
      r.rgb lb u = LineDots.colour24 (r.fmt16.getLsbD 1) (threeBytesOf lb (r.requests t).yPar (3 * x))

/-- Since the last enable a frame start has turned the display from half 1 to half 0. -/
def crossed : Nat → Bool
  | 0 => false
  | t + 1 => (frameStart r.inputs t && (r.requests t).yPar) || (!(r.inputs t).cePix && crossed t)

/-- The runs on which the dots come out: no divided dot clock in 8 and 16bpp but for windows of one enable, at most
2048 bytes in 8bpp and at most 1024 pixels in 24bpp, and no frame start between an enable and the next dot of a
window while half 1 is displayed. -/
structure Plain : Prop where
  undivided : r.dotdiv = true → r.bpp = 0 ∨ r.bpp = 1 → ∀ t, (r.inputs t).displayed = true → dotIndex r.inputs t = 0
  bytes : r.bpp = 0 → ∀ t, (r.inputs t).displayed = true → dotIndex r.inputs t < 2048
  colours : r.bpp = 2 → ∀ t, (r.inputs t).displayed = true → dotIndex r.inputs t < 3 * 1024
  uncrossed : r.bpp = 0 ∨ r.bpp = 1 → ∀ t, (r.inputs t).displayed = true → r.crossed t = false

end PixelRun

/-! ## One clock of the requests -/

namespace LineRequests

variable (s : LineRequests) (i : LinebufIn) (reqTaken : Bool)

theorem onTaken_keeps (n : LineRequests) (doublescan : Bool) : (s.onTaken n doublescan).vsD = n.vsD ∧
    (s.onTaken n doublescan).ndD = n.ndD ∧ (s.onTaken n doublescan).yPar = n.yPar := by
  unfold onTaken
  split <;> exact ⟨rfl, rfl, rfl⟩

theorem vsD_step : (s.step i reqTaken).vsD = i.vsync := by
  unfold step
  extract_lets n₀ n₁ n₂ n₃
  have h₁ : n₁.vsD = i.vsync := Clocked.ite_keeps vsD (s.onTaken_keeps n₀ i.doublescan).1 rfl
  have h₂ : n₂.vsD = i.vsync := Clocked.ite_keeps vsD h₁ h₁
  have h₃ : n₃.vsD = i.vsync := Clocked.ite_keeps vsD h₂ h₂
  exact Clocked.ite_keeps vsD h₃ h₃

theorem ndD_step : (s.step i reqTaken).ndD = if i.cePix then i.notDisplaying else s.ndD := by
  unfold step
  extract_lets n₀ n₁ n₂ n₃
  have h₁ : n₁.ndD = s.ndD := Clocked.ite_keeps ndD (s.onTaken_keeps n₀ i.doublescan).2.1 rfl
  have h₂ : n₂.ndD = if i.cePix then i.notDisplaying else s.ndD := (apply_ite ndD _ _ _).trans (by rw [h₁])
  have h₃ : n₃.ndD = if i.cePix then i.notDisplaying else s.ndD := Clocked.ite_keeps ndD h₂ h₂
  exact Clocked.ite_keeps ndD h₃ h₃

theorem yPar_step : (s.step i reqTaken).yPar =
    if s.vsStart i then false else if s.lineEnd i then !s.yPar else s.yPar := by
  unfold step
  extract_lets n₀ n₁ n₂ n₃
  have h₁ : n₁.yPar = s.yPar := Clocked.ite_keeps yPar (s.onTaken_keeps n₀ i.doublescan).2.2 rfl
  have h₂ : n₂.yPar = s.yPar := Clocked.ite_keeps yPar h₁ h₁
  have h₃ : n₃.yPar = if s.lineEnd i then !s.yPar else s.yPar := (apply_ite yPar _ _ _).trans (by rw [h₂]; rfl)
  exact (apply_ite yPar _ _ _).trans (by rw [h₃]; rfl)

end LineRequests

/-! ## One clock of the dots -/

/-- The byte, or half-word, that the code has counted to at the `j`-th enable of a window. -/
def unitAt (dotdiv : Bool) (j : Nat) : Nat := if dotdiv then (j + 1) / 2 else j

namespace LineDots

variable {s : LineDots} {i : LinebufIn} {firstDot yPar : Bool} {lbRdQ : BitVec 64} {j : Nat}

/-- The dot counter and its phase before the `j`-th enable of a window. -/
structure Counted (s : LineDots) (dotdiv : Bool) (j : Nat) : Prop where
  pending : s.rd2Pending = false
  count : s.xCnt = BitVec.ofNat 11 (unitAt dotdiv j)
  phase : dotdiv = true → 0 < j → s.dotPh = decide (j % 2 = 0)

theorem step_of_no_enable (hce : i.cePix = false) : s.step i firstDot yPar lbRdQ = s.readNext i lbRdQ := by
  rw [step, hce]
  rfl

/-- A read that is not under way leaves the address alone. -/
theorem readNext_of_not_pending (h : s.rd2Pending = false) (i : LinebufIn) (lbRdQ : BitVec 64) :
    (s.readNext i lbRdQ).rd2Pending = false ∧ (s.readNext i lbRdQ).lbRdAddr = s.lbRdAddr := by
  simp only [readNext, h, Bool.false_eq_true, if_false]
  constructor <;> split_ifs <;> rfl

/-- The counters are left alone by the read. -/
theorem readNext_counters (s : LineDots) (i : LinebufIn) (lbRdQ : BitVec 64) :
    (s.readNext i lbRdQ).xCnt = s.xCnt ∧ (s.readNext i lbRdQ).dotPh = s.dotPh ∧
    (s.readNext i lbRdQ).px24 = s.px24 ∧ (s.readNext i lbRdQ).ph24 = s.ph24 ∧
    (s.readNext i lbRdQ).byteSel = s.byteSel ∧ (s.readNext i lbRdQ).hwSel = s.hwSel ∧
    (s.readNext i lbRdQ).b24Sel = s.b24Sel := by
  simp only [readNext]
  split_ifs <;> exact ⟨rfl, rfl, rfl, rfl, rfl, rfl, rfl⟩

/-- An enable in 16bpp. -/
theorem step_of_halfWords (hce : i.cePix = true) (hbpp : i.bpp = 1) : s.step i firstDot yPar lbRdQ =
    { s.readNext i lbRdQ with
      xCnt := s.xNext i firstDot
      dotPh := if firstDot then false else !s.dotPh
      lbRdAddr := BitVec.ofBool yPar ++ (s.xNext i firstDot).extractLsb' 2 9
      hwSel := (s.xNext i firstDot).extractLsb' 0 2
      pixCe := s.dotAdv i firstDot } := by
  simp [step, modeNext, hce, hbpp]

/-- An enable in 8bpp. -/
theorem step_of_bytes (hce : i.cePix = true) (hbpp : i.bpp = 0) : s.step i firstDot yPar lbRdQ =
    { s.readNext i lbRdQ with
      xCnt := s.xNext i firstDot
      dotPh := if firstDot then false else !s.dotPh
      lbRdAddr := BitVec.ofBool yPar ++ 0#1 ++ (s.xNext i firstDot).extractLsb' 3 8
      byteSel := (s.xNext i firstDot).extractLsb' 0 3
      pixCe := s.dotAdv i firstDot } := by
  simp [step, modeNext, hce, hbpp]

/-- The count at the next enable of a window: under a divided dot clock it moves on at the first dot, and then at
every other one. -/
theorem Counted.xNext_eq (h : s.Counted i.dotdiv j) (hshown : i.notDisplaying = false)
    (hfirst : firstDot = decide (j = 0)) : s.xNext i firstDot = BitVec.ofNat 11 (unitAt i.dotdiv (j + 1)) := by
  have hadd : ∀ n, BitVec.ofNat 11 n + 1 = BitVec.ofNat 11 (n + 1) := fun n => by
    rw [BitVec.ofNat_add]
    rfl
  rw [xNext, hshown, if_neg nofun, dotAdv, hfirst, h.count, hadd]
  cases hdiv : i.dotdiv with
  | false => rfl
  | true =>
    by_cases hj : j = 0
    · subst hj
      rw [if_pos (by simp)]
      rfl
    · rw [h.phase hdiv (by omega)]
      by_cases heven : j % 2 = 0
      · simp only [heven, decide_true, Bool.or_true, Bool.true_or, if_true, unitAt]
        congr 1
        omega
      · simp only [heven, hj, decide_false, Bool.or_false, Bool.not_true, Bool.false_eq_true, if_false, if_true, unitAt]
        congr 1
        omega

theorem xNext_of_blank (hblank : i.notDisplaying = true) (dotdiv : Bool) :
    s.xNext i firstDot = BitVec.ofNat 11 (unitAt dotdiv 0) := by
  rw [xNext, hblank, if_pos rfl]
  cases dotdiv <;> rfl

/-- The count of the dots in 8 and 16bpp through an enable. -/
theorem Counted.step (h : s.Counted i.dotdiv j) (hce : i.cePix = true) (hbpp : i.bpp = 0 ∨ i.bpp = 1)
    (hfirst : firstDot = (!i.notDisplaying && decide (j = 0))) :
    (s.step i firstDot yPar lbRdQ).Counted i.dotdiv (if i.notDisplaying then 0 else j + 1) := by
  have hcount : s.xNext i firstDot = BitVec.ofNat 11 (unitAt i.dotdiv (if i.notDisplaying then 0 else j + 1)) := by
    cases hnd : i.notDisplaying with
    | true => exact xNext_of_blank hnd _
    | false =>
      rw [hnd] at hfirst
      exact h.xNext_eq hnd (by simpa using hfirst)
  have hphase : i.dotdiv = true → 0 < (if i.notDisplaying then 0 else j + 1) →
      (if firstDot then false else !s.dotPh) = decide ((if i.notDisplaying then 0 else j + 1) % 2 = 0) := by
    intro hdiv hpos
    cases hnd : i.notDisplaying with
    | true => simp [hnd] at hpos
    | false =>
      rw [hfirst, hnd]
      by_cases hj : j = 0
      · subst hj
        rfl
      · rw [h.phase hdiv (by omega)]
        simp only [hj, decide_false, Bool.and_false, Bool.false_eq_true, if_false]
        rw [← decide_not]
        exact decide_eq_decide.mpr (by omega)
  have hpending := (readNext_of_not_pending h.pending i lbRdQ).1
  rcases hbpp with hbpp | hbpp
  · rw [step_of_bytes hce hbpp]
    exact ⟨hpending, hcount, hphase⟩
  · rw [step_of_halfWords hce hbpp]
    exact ⟨hpending, hcount, hphase⟩

theorem Counted.step_of_no_enable (h : s.Counted i.dotdiv j) (hce : i.cePix = false) :
    (s.step i firstDot yPar lbRdQ).Counted i.dotdiv j := by
  obtain ⟨hx, hph, -⟩ := readNext_counters s i lbRdQ
  rw [LineDots.step_of_no_enable hce]
  exact ⟨(readNext_of_not_pending h.pending i lbRdQ).1, hx.trans h.count, fun hdiv hj => hph.trans (h.phase hdiv hj)⟩

/-! ## A pixel of three bytes -/

/-- The pixel counter and its phase before the `j`-th enable of a window. -/
structure Phased (s : LineDots) (j : Nat) : Prop where
  parked : j = 0 → s.px24 = 0x3FF
  pixel : 0 < j → s.px24 = BitVec.ofNat 10 ((j - 1) / 3)
  phase : 0 < j → s.ph24 = BitVec.ofNat 2 (j % 3)

/-- The registers after an enable in 24bpp. -/
theorem step_of_colours (hce : i.cePix = true) (hbpp : i.bpp = 2) (s : LineDots) (firstDot yPar : Bool)
    (lbRdQ : BitVec 64) :
    (s.step i firstDot yPar lbRdQ).ph24 = (if firstDot then 1 else if s.ph24 = 2 then 0 else s.ph24 + 1) ∧
      (s.step i firstDot yPar lbRdQ).px24 =
        (if i.notDisplaying then 0x3FF else if s.px24Adv firstDot then s.px24New i else s.px24) ∧
      (s.step i firstDot yPar lbRdQ).rd2Pending = s.px24Adv firstDot ∧
      (s.px24Adv firstDot = true →
        (s.step i firstDot yPar lbRdQ).lbRdAddr = BitVec.ofBool yPar ++ (s.b24Off i).extractLsb' 3 9 ∧
          (s.step i firstDot yPar lbRdQ).b24Sel = (s.b24Off i).extractLsb' 0 3) := by
  have hpending : (s.readNext i lbRdQ).rd2Pending = false := by
    simp only [readNext]
    split_ifs <;> rfl
  simp only [step, modeNext, hce, hbpp, if_true]
  cases s.px24Adv firstDot with
  | true => exact ⟨rfl, rfl, rfl, fun _ => ⟨rfl, rfl⟩⟩
  | false => exact ⟨rfl, rfl, hpending, nofun⟩

/-- No enable starts a pixel: the read goes on. -/
theorem step_of_no_start (hbpp : i.bpp = 2) (h : (i.cePix && s.px24Adv firstDot) = false) (yPar : Bool)
    (lbRdQ : BitVec 64) :
    (s.step i firstDot yPar lbRdQ).rd2Pending = false ∧
      (s.step i firstDot yPar lbRdQ).lbRdAddr = (s.readNext i lbRdQ).lbRdAddr ∧
      (s.step i firstDot yPar lbRdQ).b24Sel = s.b24Sel := by
  have hpending : (s.readNext i lbRdQ).rd2Pending = false := by
    simp only [readNext]
    split_ifs <;> rfl
  have hsel : (s.readNext i lbRdQ).b24Sel = s.b24Sel := (readNext_counters s i lbRdQ).2.2.2.2.2.2
  cases hce : i.cePix with
  | false =>
    rw [step_of_no_enable hce]
    exact ⟨hpending, rfl, hsel⟩
  | true =>
    have hadv : s.px24Adv firstDot = false := by simpa [hce] using h
    simp only [step, modeNext, hce, hbpp, if_true, hadv]
    exact ⟨hpending, rfl, hsel⟩

/-- The registers of the capture. -/
def capture (s : LineDots) : Bool × BitVec 64 × BitVec 24 := (s.rd2Capture, s.q0, s.rgb24)

/-- No mode touches the capture. -/
theorem capture_step (s : LineDots) (i : LinebufIn) (firstDot yPar : Bool) (lbRdQ : BitVec 64) :
    (s.step i firstDot yPar lbRdQ).capture = (s.readNext i lbRdQ).capture := by
  have hmode : ∀ n : LineDots, (s.modeNext i firstDot yPar n).capture = n.capture := fun n =>
    Clocked.ite_keeps capture rfl (Clocked.ite_keeps capture (Clocked.ite_keeps capture rfl rfl) rfl)
  unfold step
  extract_lets r n₁ n₂
  have h₂ : n₂.capture = r.capture := hmode n₁
  exact Clocked.ite_keeps capture (Clocked.ite_keeps capture h₂ h₂) rfl

/-- The capture goes on in any clock. -/
theorem step_read (s : LineDots) (i : LinebufIn) (firstDot yPar : Bool) (lbRdQ : BitVec 64) :
    (s.step i firstDot yPar lbRdQ).rd2Capture = s.rd2Pending ∧
      (s.step i firstDot yPar lbRdQ).q0 = (if s.rd2Pending then lbRdQ else s.q0) ∧
      (s.step i firstDot yPar lbRdQ).rgb24 =
        (if s.rd2Capture then colour24 (i.fmt16.getLsbD 1) (s.p24 lbRdQ) else s.rgb24) := by
  have hread : (s.readNext i lbRdQ).rd2Capture = s.rd2Pending ∧
      (s.readNext i lbRdQ).q0 = (if s.rd2Pending then lbRdQ else s.q0) ∧
      (s.readNext i lbRdQ).rgb24 =
        (if s.rd2Capture then colour24 (i.fmt16.getLsbD 1) (s.p24 lbRdQ) else s.rgb24) := by
    simp only [readNext]
    split_ifs <;> exact ⟨rfl, rfl, rfl⟩
  have hsame := s.capture_step i firstDot yPar lbRdQ
  simp only [capture, Prod.mk.injEq] at hsame
  exact ⟨hsame.1.trans hread.1, hsame.2.1.trans hread.2.1, hsame.2.2.trans hread.2.2⟩

theorem readNext_address (s : LineDots) (i : LinebufIn) (lbRdQ : BitVec 64) :
    (s.readNext i lbRdQ).lbRdAddr = if s.rd2Pending then s.lbRdAddr + 1 else s.lbRdAddr := by
  simp only [readNext]
  split_ifs <;> rfl

/-- The byte offset is three times the pixel: its word, and the byte in that word. -/
theorem b24Off_split (s : LineDots) (i : LinebufIn) :
    (s.b24Off i).extractLsb' 3 9 = BitVec.ofNat 9 (3 * (s.px24New i).toNat / 8) ∧
      ((s.b24Off i).extractLsb' 0 3).toNat = 3 * (s.px24New i).toNat % 8 := by
  have hoff : (s.b24Off i).toNat = 3 * (s.px24New i).toNat := by
    have hlt : (s.px24New i).toNat < 1024 := BitVec.isLt _
    rw [b24Off, BitVec.toNat_add, BitVec.toNat_append, BitVec.toNat_append, BitVec.toNat_setWidth]
    simp
    omega
  constructor
  · apply BitVec.eq_of_toNat_eq
    rw [BitVec.extractLsb'_toNat, BitVec.toNat_ofNat, hoff, Nat.shiftRight_eq_div_pow]
  · rw [BitVec.extractLsb'_toNat, hoff]
    rfl

theorem Phased.starts (h : s.Phased j) (hfirst : firstDot = decide (j = 0)) :
    s.px24Adv firstDot = decide (j % 3 = 0) := by
  rw [px24Adv, hfirst]
  by_cases hj : j = 0
  · simp [hj]
  · rw [h.phase (by omega)]
    obtain h3 | h3 | h3 : j % 3 = 0 ∨ j % 3 = 1 ∨ j % 3 = 2 := by omega
    all_goals simp [h3, hj]

/-- The pixel that the `j`-th enable of a window starts. -/
theorem Phased.px24New_eq (h : s.Phased j) (hshown : i.notDisplaying = false) (h3 : j % 3 = 0) :
    s.px24New i = BitVec.ofNat 10 (j / 3) := by
  rw [px24New, hshown, if_neg nofun]
  by_cases hj : j = 0
  · rw [h.parked hj, hj]
    rfl
  · rw [h.pixel (by omega), show j / 3 = (j - 1) / 3 + 1 by omega, BitVec.ofNat_add]
    rfl

theorem Phased.step (h : s.Phased j) (hce : i.cePix = true) (hbpp : i.bpp = 2)
    (hfirst : firstDot = (!i.notDisplaying && decide (j = 0))) :
    (s.step i firstDot yPar lbRdQ).Phased (if i.notDisplaying then 0 else j + 1) := by
  obtain ⟨hph, hpx, -⟩ := step_of_colours hce hbpp s firstDot yPar lbRdQ
  cases hnd : i.notDisplaying with
  | true =>
    rw [hnd] at hpx
    exact ⟨fun _ => hpx, fun hpos => absurd hpos (lt_irrefl _), fun hpos => absurd hpos (lt_irrefl _)⟩
  | false =>
    rw [hnd] at hfirst hpx
    have hfirst' : firstDot = decide (j = 0) := by simpa using hfirst
    rw [if_neg Bool.false_ne_true]
    refine ⟨fun hj => absurd hj (Nat.succ_ne_zero j), fun _ => ?_, fun _ => ?_⟩
    · rw [hpx, if_neg nofun, h.starts hfirst']
      by_cases h3 : j % 3 = 0
      · rw [if_pos (by simpa using h3), h.px24New_eq hnd h3]
        rfl
      · rw [if_neg (by simpa using h3), h.pixel (by omega)]
        exact congrArg (BitVec.ofNat 10) (show (j - 1) / 3 = j / 3 by omega)
    · rw [hph, hfirst']
      by_cases hj : j = 0
      · subst hj
        rfl
      · rw [if_neg (by simpa using hj), h.phase (by omega)]
        obtain h3 | h3 | h3 : j % 3 = 0 ∨ j % 3 = 1 ∨ j % 3 = 2 := by omega
        · rw [h3, show (j + 1) % 3 = 1 by omega]
          rfl
        · rw [h3, show (j + 1) % 3 = 2 by omega]
          rfl
        · rw [h3, show (j + 1) % 3 = 0 by omega]
          rfl

theorem Phased.step_of_no_enable (h : s.Phased j) (hce : i.cePix = false) :
    (s.step i firstDot yPar lbRdQ).Phased j := by
  obtain ⟨-, -, hpx, hph, -⟩ := readNext_counters s i lbRdQ
  rw [LineDots.step_of_no_enable hce]
  exact ⟨fun hj => hpx.trans (h.parked hj), fun hj => hpx.trans (h.pixel hj), fun hj => hph.trans (h.phase hj)⟩

end LineDots

/-! ## Bytes, half-words and pixels of the buffer -/

variable (lb : BitVec 10 → BitVec 64) (h : Bool)

theorem byteOf_count (n : Nat) : (lb (BitVec.ofBool h ++ 0#1 ++ (BitVec.ofNat 11 n).extractLsb' 3 8)).extractLsb'
    (((BitVec.ofNat 11 n).extractLsb' 0 3).toNat * 8) 8 = byteOf lb h (n % 2048) := by
  have hsel : ((BitVec.ofNat 11 n).extractLsb' 0 3).toNat * 8 = 8 * (n % 2048 % 8) := by
    simp [BitVec.extractLsb'_toNat]
    omega
  have haddr : BitVec.ofBool h ++ 0#1 ++ (BitVec.ofNat 11 n).extractLsb' 3 8 =
      BitVec.ofBool h ++ BitVec.ofNat 9 (n % 2048 / 8) := by
    have hword : 0#1 ++ (BitVec.ofNat 11 n).extractLsb' 3 8 = BitVec.ofNat 9 (n % 2048 / 8) := by
      apply BitVec.eq_of_toNat_eq
      rw [BitVec.toNat_append, BitVec.extractLsb'_toNat, BitVec.toNat_ofNat, BitVec.toNat_ofNat, BitVec.toNat_ofNat,
        Nat.shiftRight_eq_div_pow]
      simp
      omega
    rw [← hword]
    exact BitVec.append_assoc'.symm
  rw [byteOf, hsel, haddr]

theorem halfWordOf_count (n : Nat) : (lb (BitVec.ofBool h ++ (BitVec.ofNat 11 n).extractLsb' 2 9)).extractLsb'
    (((BitVec.ofNat 11 n).extractLsb' 0 2).toNat * 16) 16 = halfWordOf lb h (n % 2048) := by
  have hsel : ((BitVec.ofNat 11 n).extractLsb' 0 2).toNat * 16 = 16 * (n % 2048 % 4) := by
    simp [BitVec.extractLsb'_toNat]
    omega
  have haddr : (BitVec.ofNat 11 n).extractLsb' 2 9 = BitVec.ofNat 9 (n % 2048 / 4) := by
    apply BitVec.eq_of_toNat_eq
    simp [BitVec.extractLsb'_toNat, Nat.shiftRight_eq_div_pow]
  rw [halfWordOf, hsel, haddr]

/-- The address of the next word of a half. -/
theorem address_succ {k : Nat} (hk : k + 1 < 512) :
    BitVec.ofBool h ++ BitVec.ofNat 9 k + 1 = BitVec.ofBool h ++ BitVec.ofNat 9 (k + 1) := by
  apply BitVec.eq_of_toNat_eq
  have hle : ∀ n, n < 512 → (BitVec.ofBool h ++ BitVec.ofNat 9 n).toNat = h.toNat * 512 + n := fun n hn => by
    rw [BitVec.toNat_append, ← Nat.shiftLeft_add_eq_or_of_lt (BitVec.isLt _), Nat.shiftLeft_eq, BitVec.toNat_ofBool,
      BitVec.toNat_ofNat, Nat.mod_eq_of_lt hn]
  have hbit : h.toNat ≤ 1 := Bool.toNat_le h
  rw [BitVec.toNat_add, hle k (by omega), hle (k + 1) hk]
  have hone : (1 : BitVec (1 + 9)).toNat = 1 := rfl
  rw [hone]
  omega

theorem extractLsb'_bytes {w : Nat} (x : BitVec w) (k : Nat) : x.extractLsb' k (8 + 8 + 8) =
    x.extractLsb' (k + 8 * 2) 8 ++ x.extractLsb' (k + 8 * 1) 8 ++ x.extractLsb' k 8 := by
  ext b hb
  simp only [BitVec.getElem_append, BitVec.getElem_extractLsb']
  split_ifs
  · rfl
  · congr 1
    omega
  · congr 1
    omega

/-- A pixel of three bytes in its two words. -/
theorem threeBytesOf_words {k : Nat} (hk : k + 2 < 4096) :
    (lb (BitVec.ofBool h ++ BitVec.ofNat 9 (k / 8) + 1) ++ lb (BitVec.ofBool h ++ BitVec.ofNat 9 (k / 8))).extractLsb'
      (8 * (k % 8)) 24 = threeBytesOf lb h k := by
  have hbyte : ∀ m, m ≤ 2 → (lb (BitVec.ofBool h ++ BitVec.ofNat 9 (k / 8) + 1) ++
      lb (BitVec.ofBool h ++ BitVec.ofNat 9 (k / 8))).extractLsb' (8 * (k % 8) + 8 * m) 8 = byteOf lb h (k + m) := by
    intro m hm
    rw [byteOf]
    by_cases hin : k % 8 + m < 8
    · rw [show (k + m) / 8 = k / 8 by omega, show 8 * ((k + m) % 8) = 8 * (k % 8) + 8 * m by omega]
      ext b hb
      simp only [BitVec.getElem_extractLsb', BitVec.getLsbD_append]
      rw [if_pos (by omega)]
    · -- the pixel straddles the two words
      rw [address_succ h (by omega), show (k + m) / 8 = k / 8 + 1 by omega]
      ext b hb
      simp only [BitVec.getElem_extractLsb', BitVec.getLsbD_append]
      rw [if_neg (by omega)]
      congr 1
      omega
  calc _ = _ := extractLsb'_bytes _ _
    _ = _ := by rw [threeBytesOf, ← hbyte 2 (le_refl 2), ← hbyte 1 (by omega)]; exact congrArg _ (hbyte 0 (by omega))

end Z486.Video
