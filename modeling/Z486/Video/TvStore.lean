/-
The line store of the 15 kHz stage (src/soc/vga_tv15.sv): one line in two of the input is captured into one half of the
store while the line captured before it is replayed from the other, with every pixel twice as wide. The phase of the
lines restarts at the output's vsync.
-/
import Z486.Clocked.Run

namespace Z486.Video

open Clocked

/-! ## Registers -/

/-- The inputs of the store, among them the edge of hsync, the placement of the vsync and the clocks that the porch of
the output takes. -/
structure TvStoreIn where
  reset : Bool
  hsRise : Bool
  fire : Bool
  ilace : Bool
  ce : Bool
  de : Bool
  rgb : BitVec 24
  actCyc : BitVec 13

structure TvStore where
  /-- The two halves of the store. -/
  lb : Bool → BitVec 10 → BitVec 24
  capPhase : Bool
  capBuf : Bool
  capIdx : BitVec 10
  repBuf : Bool
  capLen : BitVec 11
  outStart : Bool
  vsLines : BitVec 3
  hsRiseD : Bool
  vsPend : Bool
  outCyc : BitVec 13
  outRun : Bool
  repLen : BitVec 11
  repBank : Bool
  repIdx : BitVec 10
  repHalf : Bool
  repOn : Bool
  repDone : Bool
  lbQ : BitVec 24
  convHsA : Bool
  convDeA : Bool
  convHsB : Bool
  convDeB : Bool
  convVsB : Bool

namespace TvStore

variable (s : TvStore) (i : TvStoreIn)

/-! ## Capture -/

/-- A pixel of the line in progress is captured. -/
def captures : Bool := i.ce && i.de && s.capPhase

/-- The line that ends was captured. -/
def handsOver : Bool := s.hsRiseD && s.capPhase

/-- A progressive vsync restarts the phase of the lines. -/
def restarts : Bool := i.fire && !i.ilace

/-- The vsync that waits starts with the output line. -/
def vsStarts : Bool := s.vsPend && s.capPhase && !i.fire

def capPhaseNext : Bool :=
  if s.hsRiseD then if restarts i then true else !s.capPhase else s.capPhase

def capIdxNext : BitVec 10 :=
  if s.captures i && s.capIdx != 0x3FF then s.capIdx + 1 else if s.hsRiseD then 0 else s.capIdx

def vsLinesNext : BitVec 3 :=
  if s.hsRiseD then
    if i.fire && i.ilace then 6
    else if s.vsStarts i then 6
    else if s.vsLines != 0 then s.vsLines - 1 else s.vsLines
  else s.vsLines

def vsPendNext : Bool :=
  if s.hsRiseD then
    if i.fire && i.ilace then s.vsPend
    else if s.vsStarts i then false
    else if restarts i then true else s.vsPend
  else s.vsPend

/-! ## Replay -/

/-- The picture starts on the first pixel enable after the porch. -/
def begins : Bool := i.ce && !s.repDone && decide (i.actCyc ≤ s.outCyc)

/-- A pixel enable within the picture. -/
def advances : Bool := i.ce && !(!s.repDone && decide (i.actCyc ≤ s.outCyc)) && s.repOn

/-- The second enable of the last pixel. -/
def ends : Bool := s.advances i && s.repHalf && s.repIdx + 1 == s.repLen.setWidth 10

def repOnNext : Bool :=
  if s.outStart then false
  else if s.outRun then if s.begins i then s.repLen != 0 else if s.ends i then false else s.repOn
  else s.repOn

def repIdxNext : BitVec 10 :=
  if s.outStart then 0
  else if s.outRun && s.advances i && s.repHalf && s.repIdx + 1 != s.repLen.setWidth 10 then s.repIdx + 1
  else s.repIdx

def repHalfNext : Bool :=
  if s.outStart then false else if s.outRun && s.advances i then !s.repHalf else s.repHalf

/-- 4.7 us at 85 MHz. -/
def hsCyc : BitVec 13 := 399

def outCycNext : BitVec 13 :=
  if s.outStart then 0 else if s.outRun && s.outCyc != 0x1FFF then s.outCyc + 1 else s.outCyc

def step : TvStore where
  lb := if !i.reset && s.captures i then Function.update s.lb s.capBuf (Function.update (s.lb s.capBuf) s.capIdx i.rgb)
    else s.lb
  capPhase := if i.reset then false else s.capPhaseNext i
  capBuf := if i.reset then false else if s.handsOver then !s.capBuf else s.capBuf
  capIdx := if i.reset then 0 else s.capIdxNext i
  repBuf := if !i.reset && s.handsOver then s.capBuf else s.repBuf
  capLen := if !i.reset && s.handsOver then s.capIdx.setWidth 11 else s.capLen
  outStart := !i.reset && s.handsOver
  vsLines := if i.reset then 0 else s.vsLinesNext i
  hsRiseD := i.hsRise
  vsPend := if i.reset then false else s.vsPendNext i
  outCyc := if i.reset then 0 else s.outCycNext
  outRun := if i.reset then false else s.outStart || s.outRun
  repLen := if !i.reset && s.outStart then s.capLen else s.repLen
  repBank := if !i.reset && s.outStart then s.repBuf else s.repBank
  repIdx := if i.reset then 0 else s.repIdxNext i
  repHalf := if i.reset then false else s.repHalfNext i
  repOn := if i.reset then false else s.repOnNext i
  repDone := if i.reset then true else if s.outStart then false else s.repDone || s.outRun && s.begins i
  lbQ := s.lb s.repBank s.repIdx
  convHsA := s.outRun && decide (s.outCyc < hsCyc)
  convDeA := s.repOn && s.vsLines == 0
  convHsB := s.convHsA
  convDeB := s.convDeA
  convVsB := s.vsLines != 0

def idle : TvStore :=
  ⟨fun _ _ => 0, false, false, 0, false, 0, false, 0, false, false, 0, false, 0, false, 0, false, false, false, 0, false,
    false, false, false, false⟩

end TvStore

/-! ## Runs -/

def TvStoreIn.pixel (i : TvStoreIn) : List (BitVec 24) := if i.ce && i.de then [i.rgb] else []

/-- The pixels of the input line in progress, up to clock `t`. A line goes up to the clock after the edge of hsync. -/
def lineSoFar (inp : Nat → TvStoreIn) : Nat → List (BitVec 24)
  | 0 => []
  | t + 1 => if t ≠ 0 ∧ (inp (t - 1)).hsRise = true then [] else lineSoFar inp t ++ (inp t).pixel

/-- The store from a reset on, for input lines as the stage takes them: the edge of hsync is a clock long, a line
has at most 1023 pixels, and of the clocks around the edge the display enable is low at least in the one after it. -/
structure TvStoreRun where
  inp : Nat → TvStoreIn
  state : Nat → TvStore
  next : ∀ t, state (t + 1) = (state t).step (inp t)
  resets : (inp 0).reset = true
  running : ∀ t, 0 < t → (inp t).reset = false
  edge : ∀ t, (inp t).hsRise = true → (inp (t + 1)).hsRise = false
  blanked : ∀ t, (inp t).hsRise = true → (inp (t + 1)).de = false
  short : ∀ t, (lineSoFar inp t).length ≤ 1023

end Z486.Video
