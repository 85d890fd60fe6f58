/-
The lines ahead of the one that is displayed (src/soc/vga.v). The fetcher of the framebuffer asks for the line after the
next one when a line's display window closes, so the VGA tells it in each line whether that line repeats the one before it.
The flag is computed from the scanline counter of the line in progress, and the counter goes on with the horizontal retrace:
where that comes after the window, the flag is that of the right line. The places of the windows in a frame, counted from
the vertical retrace before it, are closed forms.
-/
import Z486.Video.RasterStart

namespace Z486.Video

open Clocked Scanlines

/-! ## The repeats to come -/

namespace Scanlines

section Line

variable (s : Scanlines) (i : ScanlineIn)

def vdeNext : Bool := decide (s.vertCnt + 1 ≤ i.displaySize)

/-- `vga_lf_rep2`: line `n + 2` repeats line `n + 1`. -/
def lfRep2 : Bool := vzActive i && !s.vzRepNext i && s.vdeNext i && s.vzCntNext i == 4

end Line

variable {s : Scanlines} {i : ScanlineIn}

/-- The lines after the first that do not repeat the one before, up to line `k`. -/
def distinctLines (i : ScanlineIn) (k : Nat) : Nat := pulses (fun j => !(line i (j + 1)).vzRep) 0 k

end Scanlines

namespace RasterRegs

variable (r : RasterRegs)

/-- The lines of the picture, with those that are shown again. -/
def pictureLines : Nat := r.verticalDisplaySize.toNat + 1 + repeats r.scanlines

/-- The picture fits the frame, and there is a whole line between the vertical retrace and the next frame; the horizontal
retrace comes after the display window and before the last character. -/
structure Ahead : Prop where
  frame : r.FrameFits
  picture : r.verticalDisplaySize < r.verticalRetraceStart
  line : r.retraceLine + 1 < r.frameLines
  chars : r.horizontalDisplaySize.toNat ≤ r.retraceChar
  front : r.retraceChar < r.lastChar

variable {r} {k : Nat}

/-- The lines of the picture are the first ones of the frame. -/
theorem FrameFits.vde_iff (hfits : r.FrameFits) (hk : k < r.frameLines) :
    (Scanlines.line r.scanlines k).vde r.scanlines = true ↔ k < r.pictureLines := by
  have hrows := hfits.row_iff (Nat.lt_add_one r.verticalDisplaySize.toNat) hk
  have hsize : r.scanlines.displaySize.toNat = r.verticalDisplaySize.toNat := rfl
  rw [Scanlines.vde_iff, hsize]
  unfold pictureLines
  omega

namespace Ahead

variable (h : r.Ahead)
include h

theorem pictureLines_le : r.pictureLines ≤ r.retraceLine := by
  have hpicture := BitVec.lt_def.1 h.picture
  unfold pictureLines retraceLine
  omega

end Ahead

end RasterRegs

/-! ## The windows -/

namespace Raster

variable {w : Raster} {r : RasterRegs}

end Raster

end Z486.Video
