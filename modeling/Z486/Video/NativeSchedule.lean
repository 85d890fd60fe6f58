/-
The lines of the framebuffer that a frame shows (src/soc/svga_linebuf.sv and src/soc/vga.v). The fetcher asks for line 0 at
the vertical retrace and for line 1 when that is taken; when line `n` is done it asks for line `n + 2`, which goes to the
half that line `n` has used. By the number of windows that have closed, the half in use, the count of the lines and what is
in the mailbox are closed forms, and the request before the last is that of the line on the screen. A line that is fetched
within a line's time is complete when its window opens, and its half is left alone until it has closed.
-/
import Z486.Video.NativeVideo

namespace Z486.Video

open Clocked Scanlines
open Ddr3 (fbBaseWords)

/-! ## What a frame should show -/

/-- The line of the framebuffer that the raster shows after `d` distinct lines: each line once, or twice. -/
def framebufferLine (doubled : Bool) (d : Nat) : Nat := if doubled then d / 2 else d

/-- Line `n` of the framebuffer that begins at `start`, in half `half`, with the stride and the width of a clock. -/
def NativeIn.lineJob (i : NativeIn) (start : BitVec 20) (n : Nat) (half : Bool) : LineJob where
  base := fbBaseWords + (0#10 ++ start.extractLsb' 1 19) + BitVec.ofNat 29 n * i.strideWords.setWidth 29
  words := (if i.bpp == 1 then i.widthWords.extractLsb' 0 8 ++ 0#1 else i.widthWords).toNat
  buf := half

namespace NativeRun

variable (r : NativeRun)

/-- A frame of the registers `regs` begins with its vertical retrace in clock `t₀`, and lasts until clock `t₁` at least. -/
structure Frame (regs : RasterRegs) (t₀ t₁ : Nat) : Prop where
  held : ∀ t, t₀ ≤ t → t ≤ t₁ → (r.inputs t).regs.raster = regs
  retrace : ∃ w : Raster, w.Wraps regs ∧ (r.state t₀).raster = w.after regs regs.retraceTime
  vsStart : (r.requests t₀).vsStart (r.linebufIn t₀) = true
  blank : (r.requests t₀).ndD = true
  whole : r.enables t₀ t₁ < regs.frameTime

/-- And its lines are doubled throughout, or not at all. -/
structure SteadyFrame (regs : RasterRegs) (doubled : Bool) (t₀ t₁ : Nat) : Prop extends r.Frame regs t₀ t₁ where
  doubles : ∀ t, t₀ ≤ t → t ≤ t₁ → (r.inputs t).regs.linesDoubled = doubled

/-- The line `q.1` that is asked for in clock `t` is taken in clock `a` and in half `q.2` by clock `u`, within a line. -/
structure Fetched (regs : RasterRegs) (q : BitVec 10 × Bool) (t a u : Nat) : Prop where
  later : t < a
  taken : r.accepts a = true
  waits : (r.requests a).Waits q
  longer : a < u
  released : r.owner u = false
  within : r.enables t u < regs.lineTime

/-- Each line fetch completes within a line. -/
def InTime (regs : RasterRegs) (t₀ t₁ : Nat) : Prop :=
  ∀ t q, t₀ ≤ t → t < t₁ → r.asked t = some q → ∃ a u, r.Fetched regs q t a u

/-- Half `half` holds line `n` of the framebuffer in clock `t`: the engine has taken it after clock `t₀`, and each word is
what DDR3 had at its address in a clock since then. The start address is that of clock `t₀`. -/
def Holds (t₀ t n : Nat) (half : Bool) : Prop :=
  ∃ a, t₀ < a ∧ a < t ∧ r.accepts a = true ∧
    ∀ k, k < ((r.inputs a).lineJob (r.inputs t₀).startAddr n half).words → ∃ u, a < u ∧ u < t ∧
      (r.state t).linebuf.lb (((r.inputs a).lineJob (r.inputs t₀).startAddr n half).slot k) =
        (r.inputs u).mem (((r.inputs a).lineJob (r.inputs t₀).startAddr n half).address k)

/-- A display window is open, or closes. -/
def displays (t : Nat) : Bool := !(r.linebufIn t).notDisplaying || !(r.requests t).ndD

/-- Line `n` of the raster is displayed in clock `t`, from a half that holds its line of the framebuffer, and where its
window closes the flag tells whether line `n + 2` repeats line `n + 1`. The row of the raster counts the distinct lines
in eleven bits, the fetcher in ten. -/
structure Shows (regs : RasterRegs) (doubled : Bool) (t₀ t n : Nat) : Prop where
  lines : (r.state t).raster.lines = line regs.scanlines n
  row : (r.state t).raster.lines.vertCnt.toNat = distinctLines regs.scanlines n
  half : (r.requests t).yPar = decide (n % 2 = 1)
  holds : r.Holds t₀ t (framebufferLine doubled (distinctLines regs.scanlines n % 1024)) (r.requests t).yPar
  rep2 : (r.requests t).lineEnd (r.linebufIn t) = true → (r.linebufIn t).rep2 = (line regs.scanlines (n + 2)).vzRep

def ShowsFrame (regs : RasterRegs) (doubled : Bool) (t₀ t₁ : Nat) : Prop :=
  ∀ t, t₀ < t → t ≤ t₁ → r.displays t = true → ∃ n, n < regs.pictureLines ∧ r.Shows regs doubled t₀ t n

end NativeRun

/-! ## The distinct lines -/

namespace Scanlines

variable {i : ScanlineIn}

end Scanlines

/-- The line and the half that are asked for to show line `k` of the raster. -/
def lineRequest (i : ScanlineIn) (doubled : Bool) (k : Nat) : BitVec 10 × Bool :=
  (if doubled then 0#1 ++ (BitVec.ofNat 10 (distinctLines i k)).extractLsb' 1 9 else BitVec.ofNat 10 (distinctLines i k),
    decide (k % 2 = 1))

/-- The request is for the line of the framebuffer, counted in ten bits. -/
theorem lineRequest_line (i : ScanlineIn) (doubled : Bool) (k : Nat) :
    (lineRequest i doubled k).1.setWidth 29 = BitVec.ofNat 29 (framebufferLine doubled (distinctLines i k % 1024)) := by
  have hhalf : ∀ b : BitVec 10, (0#1 ++ b.extractLsb' 1 9).toNat = b.toNat / 2 := by decide
  apply BitVec.eq_of_toNat_eq
  unfold lineRequest framebufferLine
  cases doubled with
  | false =>
    rw [if_neg Bool.false_ne_true, if_neg Bool.false_ne_true, BitVec.toNat_setWidth, BitVec.toNat_ofNat,
      BitVec.toNat_ofNat]
  | true => rw [if_pos rfl, if_pos rfl, BitVec.toNat_setWidth, hhalf, BitVec.toNat_ofNat, BitVec.toNat_ofNat]

/-! ## A clock of the requests -/

namespace LineRequests

variable {s : LineRequests} {i : LinebufIn}

end LineRequests

namespace NativeRun

variable {r : NativeRun} {regs : RasterRegs} {doubled : Bool} {t₀ t₁ : Nat}

/-! ## The raster of a frame -/

/-- The enables of clock `t` since the beginning of the frame before. -/
def place (r : NativeRun) (regs : RasterRegs) (t₀ t : Nat) : Nat := regs.retraceTime + r.enables t₀ t

section Places

variable (h : r.Frame regs t₀ t₁)

theorem place_start : r.place regs t₀ t₀ = regs.retraceTime := by
  unfold place enables
  rw [pulses_self, Nat.add_zero]

theorem place_succ (r : NativeRun) (regs : RasterRegs) {t₀ t : Nat} (ht : t₀ ≤ t) :
    r.place regs t₀ (t + 1) = r.place regs t₀ t + if (r.inputs t).renderCe then 1 else 0 := by
  unfold place
  rw [enables_succ ht, Nat.add_assoc]

include h

end Places

/-! ## The events of a frame -/

section Events

variable (h : r.SteadyFrame regs doubled t₀ t₁) (hregs : regs.Ahead) {w : Raster} (hw : w.Wraps regs)
  (hraster : ∀ t, t₀ ≤ t → t ≤ t₁ → (r.state t).raster = w.after regs (r.place regs t₀ t))
include h hregs hw hraster

omit hregs hw in
/-- The display enable at the enable before. -/
theorem ndD_eq {t : Nat} (ht : t₀ ≤ t) (ht₁ : t ≤ t₁) : (r.requests t).ndD =
    if r.place regs t₀ t = regs.retraceTime then true else (w.after regs (r.place regs t₀ t - 1)).notDisplaying := by
  induction t, ht using Nat.le_induction with
  | base => rw [if_pos place_start, h.blank]
  | succ t ht ih =>
    have hplace : regs.retraceTime ≤ r.place regs t₀ t := Nat.le_add_right _ _
    rw [requests_succ, LineRequests.ndD_step, place_succ r regs ht]
    show (if (r.inputs t).renderCe then (r.state t).raster.notDisplaying else _) = _
    cases hce : (r.inputs t).renderCe with
    | false => exact ih (by omega)
    | true => rw [if_pos rfl, if_pos rfl, if_neg (by omega), Nat.add_sub_cancel, hraster t ht (by omega)]

end Events

/-! ## The schedule -/

section Schedule

variable (h : r.SteadyFrame regs doubled t₀ t₁) (hregs : regs.Ahead) {w : Raster} (hw : w.Wraps regs)
  (hraster : ∀ t, t₀ ≤ t → t ≤ t₁ → (r.state t).raster = w.after regs (r.place regs t₀ t)) {t m : Nat}

include h hregs hw hraster

end Schedule

/-! ## A line in its half -/

/-- What the engine fetches when it takes the request for line `n` of the raster. -/
theorem job_eq {a n : Nat} (hwaits : (r.requests a).Waits (lineRequest regs.scanlines doubled n))
    (hstart : (r.requests a).startLat = (r.inputs t₀).startAddr) :
    r.fetchRun.job a = (r.inputs a).lineJob (r.inputs t₀).startAddr
      (framebufferLine doubled (distinctLines regs.scanlines n % 1024)) (lineRequest regs.scanlines doubled n).2 := by
  have hline := lineRequest_line regs.scanlines doubled n
  show LineJob.mk (fbBaseWords + (0#10 ++ (r.requests a).startLat.extractLsb' 1 19) +
    (r.requests a).reqLine.setWidth 29 * (r.inputs a).strideWords.setWidth 29) _ (r.requests a).reqBuf = _
  rw [hstart, hwaits.line, hwaits.buf, hline]
  rfl

/-- A line that is fetched stays in its half while the other half is filled. -/
theorem Fetched.holds {T a u t n : Nat} (hf : r.Fetched regs (lineRequest regs.scanlines doubled n) T a u) (hT : t₀ ≤ T)
    (hstart : (r.requests a).startLat = (r.inputs t₀).startAddr) (hut : u ≤ t)
    (hother : ∀ b, a < b → b < t → r.accepts b = true →
      (r.requests b).reqBuf = !(lineRequest regs.scanlines doubled n).2) :
    r.Holds t₀ t (framebufferLine doubled (distinctLines regs.scanlines n % 1024))
      (lineRequest regs.scanlines doubled n).2 := by
  have hlater := hf.later
  have hlonger := hf.longer
  have hreleased : (r.fetchRun.state u).engine.owner = false := by
    rw [fetchRun_state]
    exact hf.released
  obtain ⟨d, hd, hdu, hthrough⟩ := FetchRun.through_of_released hf.taken hf.longer hreleased
  have hkept : r.fetchRun.Keeps (lineRequest regs.scanlines doubled n).2 (a + d) t :=
    FetchRun.half_kept (by omega) hthrough.released fun b hb hbt hgo => hother b (by omega) hbt hgo
  refine ⟨a, by omega, by omega, hf.taken, fun k hk => ?_⟩
  have hstored := hthrough.stored
  rw [job_eq hf.waits hstart] at hstored
  obtain ⟨x, hax, hxd, hword⟩ := hstored k hk
  refine ⟨x, hax, by omega, ?_⟩
  have hsame := hkept.same k
  rw [fetchRun_state, fetchRun_state] at hsame
  rw [fetchRun_state] at hword
  exact hsame.trans hword

/-! ## The lines on the screen -/

section Shown

variable (h : r.SteadyFrame regs doubled t₀ t₁) (hregs : regs.Ahead) {w : Raster} (hw : w.Wraps regs)
  (hraster : ∀ t, t₀ ≤ t → t ≤ t₁ → (r.state t).raster = w.after regs (r.place regs t₀ t))
  {a₀ u₀ : Nat} (hfirst : r.Fetched regs (0, false) t₀ a₀ u₀) {t : Nat}
include h hregs hw hraster hfirst

end Shown

end NativeRun

end Z486.Video
