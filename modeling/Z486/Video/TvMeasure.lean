/-
The measurement of the 15 kHz stage (src/soc/vga_tv15.sv), and what it chooses: the converted raster while the input has
been good for two frames, a raster of the stage's own otherwise. The clock is 85 MHz.

In a clock with the edges of both syncs the judgement of the frame comes after that of the line and has the last word,
so the line that ends with the frame is not held to its length where the frame is good. Nor is one of `lineHi + 1`
clocks, which the counter, from 0 on, counts as `lineHi`, or one that takes the counter once round.
-/
import Z486.Clocked.Since
import Z486.Video.TvStage

namespace Z486.Video

open Clocked

/-! ## Constants -/

def clkRate : Nat := 85000000

/-- A VGA line at 31.469 kHz, in clocks. -/
def lineNom : Nat := clkRate / 31469

def lineLo : Nat := lineNom - lineNom / 20

def lineHi : Nat := lineNom + lineNom / 20

def linesLo : Nat := 400

def linesHi : Nat := 560

/-- 25 ms without a vsync. -/
def frameMax : Nat := clkRate / 40

def actCycNom : Nat := clkRate / 10000 * 113 / 1000

def hsCycNom : Nat := clkRate / 212766

/-! ## Measurement -/

structure TvMeasureIn where
  reset : Bool
  hsRise : Bool
  vsRise : Bool
  frameLines : BitVec 11

/-- The clocks of the line and of the frame in progress, the shortest and the longest line of the frame, how many frames
in a row were good, and whether the picture is converted. -/
structure TvMeasure where
  cycCnt : BitVec 16
  lineMin : BitVec 16
  lineMax : BitVec 16
  frameCyc : BitVec 24
  okCnt : BitVec 2
  convert : Bool
deriving DecidableEq, Repr

namespace TvMeasure

variable (s : TvMeasure) (i : TvMeasureIn)

def frameOk : Bool :=
  decide (BitVec.ofNat 16 lineLo ≤ s.lineMin) && decide (s.lineMax ≤ BitVec.ofNat 16 lineHi) &&
    decide (BitVec.ofNat 11 linesLo ≤ i.frameLines) && decide (i.frameLines ≤ BitVec.ofNat 11 linesHi)

/-- The line in progress would have the wrong length if it ended here. -/
def lineOut : Bool := decide (s.cycCnt < BitVec.ofNat 16 lineLo) || decide (BitVec.ofNat 16 lineHi < s.cycCnt)

def timeOut : Bool :=
  decide (2 * BitVec.ofNat 32 lineHi < s.cycCnt.setWidth 32) || decide (BitVec.ofNat 24 frameMax < s.frameCyc)

/-- `ok_cnt` and `convert` after the judgement of the line. -/
def judgeLine : BitVec 2 × Bool := if i.hsRise && s.lineOut then (0, false) else (s.okCnt, s.convert)

/-- They after the judgement of the frame, which writes over that of the line. -/
def judgeFrame : BitVec 2 × Bool :=
  if i.vsRise then
    if s.frameOk i then
      (if s.okCnt != 3 then s.okCnt + 1 else (s.judgeLine i).1, if s.okCnt != 0 then true else (s.judgeLine i).2)
    else (0, false)
  else s.judgeLine i

def judge : BitVec 2 × Bool := if s.timeOut then (0, false) else s.judgeFrame i

def lineMinNext : BitVec 16 :=
  if i.vsRise then 0xFFFF else if i.hsRise && decide (s.cycCnt < s.lineMin) then s.cycCnt else s.lineMin

def lineMaxNext : BitVec 16 :=
  if i.vsRise then 0 else if i.hsRise && decide (s.lineMax < s.cycCnt) then s.cycCnt else s.lineMax

def step : TvMeasure where
  cycCnt := if i.reset then 0 else if i.hsRise then 0 else s.cycCnt + 1
  lineMin := if i.reset then 0xFFFF else s.lineMinNext i
  lineMax := if i.reset then 0 else s.lineMaxNext i
  frameCyc := if i.reset then 0 else if i.vsRise then 0 else s.frameCyc + 1
  okCnt := if i.reset then 0 else (s.judge i).1
  convert := if i.reset then false else (s.judge i).2

end TvMeasure

/-! ## The raster of the stage's own -/

structure TvSafe where
  sCyc : BitVec 13
  sLine : BitVec 9

namespace TvSafe

variable (s : TvSafe)

def safeLine : Nat := clkRate / 15734

def safeAct1 : Nat := actCycNom + clkRate / 20000

def step (reset : Bool) : TvSafe :=
  if reset then ⟨0, 0⟩
  else if s.sCyc == BitVec.ofNat 13 safeLine - 1 then ⟨0, if s.sLine == 262 - 1 then 0 else s.sLine + 1⟩
  else ⟨s.sCyc + 1, s.sLine⟩

def hs : Bool := decide (s.sCyc < BitVec.ofNat 13 hsCycNom)

def vs : Bool := decide (s.sLine < 3)

def de : Bool :=
  decide (BitVec.ofNat 13 actCycNom ≤ s.sCyc) && decide (s.sCyc < BitVec.ofNat 13 safeAct1) &&
    decide (20 ≤ s.sLine) && decide (s.sLine < 260)

end TvSafe

/-! ## The output -/

/-- The pins of the stage. -/
structure TvAlt where
  hs : Bool
  vs : Bool
  de : Bool
  rgb : BitVec 24

def TvStore.picture (s : TvStore) : TvAlt := ⟨s.convHsB, s.convVsB, s.convDeB, if s.convDeB then s.lbQ else 0⟩

def TvSafe.picture (s : TvSafe) : TvAlt := ⟨s.hs, s.vs, s.de, if s.de then 0x205030 else 0⟩

structure Tv15 where
  stage : TvStage
  measure : TvMeasure
  safe : TvSafe
  alt : TvAlt

namespace Tv15

variable (s : Tv15) (i : TvIn)

def measureIn : TvMeasureIn := ⟨i.reset, s.stage.hsRise i, s.stage.vsRise i, s.stage.frameLines⟩

def step : Tv15 where
  stage := s.stage.step i
  measure := s.measure.step (s.measureIn i)
  safe := s.safe.step i.reset
  alt := if s.measure.convert then s.stage.store.picture else s.safe.picture

end Tv15

end Z486.Video
