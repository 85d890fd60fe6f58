/-
The scanline counter of the VGA (src/soc/vga.v) in TV mode: the zoom holds every fifth line of the picture for one line
more, short frames are padded with lines after the picture, and one line is added where the number of lines of the frame
has the wrong parity. The on-demand mode of the VGA, in which the counter is loaded with requested rows, is left out.
-/
import Z486.Clocked.Bits
import Z486.Clocked.Run

namespace Z486.Video

open Clocked

/-! ## The scanline counter -/

/-- The inputs of a clock: the enable of the counter, once a line at the start of the horizontal retrace
(`render_ce && character_last_dot && hss`), and the registers and options it goes by. -/
structure ScanlineIn where
  hsync : Bool
  vzoom : Bool
  vstretch : Bool
  vodd : Bool
  displaySize : BitVec 11
  verticalTotal : BitVec 11
deriving DecidableEq, Repr

structure Scanlines where
  vertCnt : BitVec 11
  vzRep : Bool
  vzCnt : BitVec 3
  vzIns : BitVec 8
deriving DecidableEq, Repr

namespace Scanlines

variable (s : Scanlines) (i : ScanlineIn)

def vzActive : Bool := i.vzoom && decide (i.displaySize < 460)

def vertTotalCrtc : BitVec 11 := i.verticalTotal + 1

def vertTotalPad : BitVec 11 :=
  if i.vstretch && decide (vertTotalCrtc i + s.vzIns.setWidth 11 < 523) then 523 - s.vzIns.setWidth 11
  else vertTotalCrtc i

def vertParEven : Bool := (s.vertTotalPad i).getLsbD 0 ^^ s.vzIns.getLsbD 0

def vertTotal : BitVec 11 :=
  if i.vstretch && s.vertParEven i == i.vodd then s.vertTotalPad i + 1 else s.vertTotalPad i

def vde : Bool := decide (s.vertCnt ≤ i.displaySize)

def vertLastCnt : Bool := s.vertCnt == s.vertTotal i

/-- Line `n + 1` repeats line `n`. -/
def vzRepNext : Bool := vzActive i && s.vde i && !s.vzRep && s.vzCnt == 4

def vzCntNext : BitVec 3 := if s.vzCnt == 4 || !s.vde i then 0 else s.vzCnt + 1

/-- The next line. -/
def advance : Scanlines :=
  if s.vertLastCnt i then ⟨0, false, 0, 0⟩
  else if s.vzRepNext i then { s with vzRep := true, vzIns := s.vzIns + 1 }
  else { s with vertCnt := s.vertCnt + 1, vzRep := false, vzCnt := s.vzCntNext i }

def step : Scanlines := if i.hsync then s.advance i else s

variable {s i}

theorem advance_held (hlast : s.vertLastCnt i = false) (hrep : s.vzRepNext i = true) :
    s.advance i = { s with vzRep := true, vzIns := s.vzIns + 1 } := by
  rw [advance, hlast, if_neg Bool.false_ne_true, if_pos hrep]

theorem advance_next (hlast : s.vertLastCnt i = false) (hrep : s.vzRepNext i = false) :
    s.advance i = { s with vertCnt := s.vertCnt + 1, vzRep := false, vzCnt := s.vzCntNext i } := by
  rw [advance, hlast, if_neg Bool.false_ne_true, hrep, if_neg Bool.false_ne_true]

/-- Where no carry is lost, the last line is the one the comments say: the 524th, or the programmed one, without the
lines inserted before it. -/
theorem vertTotalPad_toNat (hstretch : i.vstretch = true) :
    (s.vertTotalPad i).toNat =
      if ((vertTotalCrtc i).toNat + s.vzIns.toNat) % 2048 < 523 then 523 - s.vzIns.toNat else (vertTotalCrtc i).toNat := by
  have hins := s.vzIns.isLt
  have hext : (s.vzIns.setWidth 11).toNat = s.vzIns.toNat := by
    rw [BitVec.toNat_setWidth]
    omega
  have hsum : (vertTotalCrtc i + s.vzIns.setWidth 11).toNat = ((vertTotalCrtc i).toNat + s.vzIns.toNat) % 2048 := by
    rw [BitVec.toNat_add, hext]
  unfold vertTotalPad
  rw [hstretch, Bool.true_and]
  by_cases hpad : ((vertTotalCrtc i).toNat + s.vzIns.toNat) % 2048 < 523
  · rw [if_pos hpad, if_pos (decide_eq_true (BitVec.lt_def.2 (by rw [hsum]; exact hpad))), BitVec.toNat_sub, hext]
    show (2048 - s.vzIns.toNat + 523) % 2048 = _
    omega
  · rw [if_neg hpad, if_neg fun h => hpad ?_]
    rw [← hsum]
    exact BitVec.lt_def.1 (of_decide_eq_true h)

theorem vertTotal_toNat (hstretch : i.vstretch = true) :
    (s.vertTotal i).toNat =
      if ((s.vertTotalPad i).toNat + s.vzIns.toNat + 1) % 2 = i.vodd.toNat then (s.vertTotalPad i).toNat
      else ((s.vertTotalPad i).toNat + 1) % 2048 := by
  have hpar : s.vertParEven i = decide (((s.vertTotalPad i).toNat + s.vzIns.toNat) % 2 = 1) := by
    unfold vertParEven
    rw [getLsbD_zero_eq, getLsbD_zero_eq]
    rcases Nat.mod_two_eq_zero_or_one (s.vertTotalPad i).toNat with hp | hp <;>
      rcases Nat.mod_two_eq_zero_or_one s.vzIns.toNat with hi | hi <;> simp [hp, hi, Nat.add_mod]
  have hodd := i.vodd.toNat_lt
  have hwrong : (s.vertParEven i == i.vodd) = true ↔ ((s.vertTotalPad i).toNat + s.vzIns.toNat) % 2 = i.vodd.toNat := by
    rw [hpar, beq_iff_eq]
    cases i.vodd with
    | true => rw [decide_eq_true_iff, Bool.toNat_true]
    | false => rw [decide_eq_false_iff_not, Bool.toNat_false]; omega
  unfold vertTotal
  rw [hstretch, Bool.true_and]
  by_cases hright : ((s.vertTotalPad i).toNat + s.vzIns.toNat + 1) % 2 = i.vodd.toNat
  · rw [if_pos hright, if_neg fun h => ?_]
    have := hwrong.1 h
    omega
  · rw [if_neg hright, if_pos (hwrong.2 (by omega)), BitVec.toNat_add]
    rfl

end Scanlines

end Z486.Video
