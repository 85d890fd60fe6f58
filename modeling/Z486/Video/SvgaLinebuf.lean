/-
The line fetcher of the SVGA modes (src/soc/svga_linebuf.sv): a double line buffer of two halves of 512
words, the raster side that asks for each line ahead of time and reads the buffer at every dot, and the
fetch engine, which is one of the masters of the DDR3 port. The registers of the raster side are those
of the line requests and those of the dot that is being displayed.
-/
import Z486.Ddr3.Masters
import Z486.Clocked.Run
import Mathlib.Logic.Function.Basic

namespace Z486.Video

open Ddr3 (FetchReq LineFetcher)

/-- The inputs of a clock, but for those of the DDR3 port. -/
structure LinebufIn where
  bpp : BitVec 2
  fmt16 : BitVec 2
  cePix : Bool
  notDisplaying : Bool
  vsync : Bool
  doublescan : Bool
  rep2 : Bool
  dotdiv : Bool
  startAddr : BitVec 20
  strideWords : BitVec 9
  widthWords : BitVec 9
deriving DecidableEq, Repr

/-! ## The requests -/

/-- The registers of the raster side that the requests depend on. -/
structure LineRequests where
  ndD : Bool
  vsD : Bool
  yPar : Bool
  visLine : BitVec 10
  reqValid : Bool
  reqLine : BitVec 10
  reqBuf : Bool
  reqLine1 : Bool
  startLat : BitVec 20
deriving DecidableEq, Repr

namespace LineRequests

variable (s : LineRequests) (i : LinebufIn)

def reset : LineRequests where
  ndD := true
  vsD := false
  yPar := false
  visLine := 0
  reqValid := false
  reqLine := 0
  reqBuf := false
  reqLine1 := false
  startLat := 0

def vsStart : Bool := i.vsync && !s.vsD

/-- The display window has just closed. -/
def lineEnd : Bool := i.cePix && i.notDisplaying && !s.ndD

/-- The first dot of the display window. -/
def firstDot : Bool := !i.notDisplaying && s.ndD

/-- The line that raster line `n + 2` shows, at the end of raster line `n`. -/
def lineN2 : BitVec 10 := if i.rep2 then s.visLine + 1 else s.visLine + 2

/-- The engine has taken the request. -/
def onTaken (n : LineRequests) (doublescan : Bool) : LineRequests :=
  if s.reqLine1 then
    { n with reqValid := true, reqLine := if doublescan then 0 else 1, reqBuf := true, reqLine1 := false }
  else { n with reqValid := false }

/-- Line `n` is done: raster line `n + 2` goes to the half line `n` used. -/
def onLineEnd (n : LineRequests) : LineRequests :=
  { n with
    reqValid := true
    reqLine := if i.doublescan then 0#1 ++ (s.lineN2 i).extractLsb' 1 9 else s.lineN2 i
    reqBuf := s.yPar
    yPar := !s.yPar
    visLine := if !i.rep2 then s.visLine + 1 else n.visLine }

/-- Frame start: line 0 goes to half 0, and line 1 to half 1 right after. -/
def onVsStart (n : LineRequests) : LineRequests :=
  { n with
    visLine := 0, yPar := false, startLat := i.startAddr, reqValid := true, reqLine := 0, reqBuf := false
    reqLine1 := true }

/-- A clock; what comes later wins. -/
def step (reqTaken : Bool) : LineRequests :=
  let n := { s with vsD := i.vsync }
  let n := if reqTaken then s.onTaken n i.doublescan else n
  let n := if i.cePix then { n with ndD := i.notDisplaying } else n
  let n := if s.lineEnd i then s.onLineEnd i n else n
  if s.vsStart i then onVsStart i n else n

/-- What the engine is shown. -/
def request : FetchReq where
  bpp := i.bpp
  reqValid := s.reqValid
  reqLine := s.reqLine
  reqBuf := s.reqBuf
  startLat := s.startLat
  strideWords := i.strideWords
  widthWords := i.widthWords

end LineRequests

/-! ## The dots -/

/-- The registers of the raster side that the colour of a dot depends on. -/
structure LineDots where
  xCnt : BitVec 11
  dotPh : Bool
  lbRdAddr : BitVec 10
  byteSel : BitVec 3
  hwSel : BitVec 2
  b24Sel : BitVec 3
  rd2Pending : Bool
  rd2Capture : Bool
  q0 : BitVec 64
  rgb24 : BitVec 24
  px24 : BitVec 10
  ph24 : BitVec 2
  pixCe : Bool
deriving DecidableEq, Repr

namespace LineDots

variable (s : LineDots) (i : LinebufIn) (firstDot yPar : Bool) (lbRdQ : BitVec 64)

def reset : LineDots :=
  { s with
    xCnt := 0, dotPh := false, lbRdAddr := 0, byteSel := 0, hwSel := 0, b24Sel := 0, rd2Pending := false
    rd2Capture := false, rgb24 := 0, px24 := 0x3FF, ph24 := 0, pixCe := true }

/-- A dot that starts a pixel in 24bpp. -/
def px24Adv : Bool := s.ph24 == 0 || firstDot

def px24New : BitVec 10 := if i.notDisplaying then 0 else s.px24 + 1

/-- The byte offset of that pixel. -/
def b24Off : BitVec 12 := (0#1 ++ s.px24New i ++ 0#1) + (s.px24New i).setWidth 12

/-- This enable starts a new dot. -/
def dotAdv : Bool := !i.dotdiv || s.dotPh || firstDot

def xNext : BitVec 11 :=
  if i.notDisplaying then 0 else if s.dotAdv i firstDot then s.xCnt + 1 else s.xCnt

/-- The three bytes of a 24bpp pixel in its two words. -/
def p24 : BitVec 24 := (lbRdQ ++ s.q0).extractLsb' (s.b24Sel.toNat * 8) 24

def colour24 (bgr : Bool) (p : BitVec 24) : BitVec 24 :=
  if bgr then p else p.extractLsb' 0 8 ++ p.extractLsb' 8 8 ++ p.extractLsb' 16 8

/-- The two-cycle read of a 24bpp pixel. -/
def readNext : LineDots :=
  let n := { s with rd2Pending := false, rd2Capture := s.rd2Pending }
  let n := if s.rd2Pending then { n with lbRdAddr := s.lbRdAddr + 1, q0 := lbRdQ } else n
  if s.rd2Capture then { n with rgb24 := colour24 (i.fmt16.getLsbD 1) (s.p24 lbRdQ) } else n

/-- What a dot clock enable does in the mode of `bpp`. -/
def modeNext (n : LineDots) : LineDots :=
  if i.bpp = 1 then
    { n with
      lbRdAddr := BitVec.ofBool yPar ++ (s.xNext i firstDot).extractLsb' 2 9
      hwSel := (s.xNext i firstDot).extractLsb' 0 2
      pixCe := s.dotAdv i firstDot }
  else if i.bpp = 2 then
    let n := { n with
      ph24 := if firstDot then 1 else if s.ph24 = 2 then 0 else s.ph24 + 1
      px24 := if i.notDisplaying then 0x3FF else if s.px24Adv firstDot then s.px24New i else s.px24
      pixCe := s.px24Adv firstDot }
    if s.px24Adv firstDot then
      { n with
        lbRdAddr := BitVec.ofBool yPar ++ (s.b24Off i).extractLsb' 3 9
        b24Sel := (s.b24Off i).extractLsb' 0 3
        rd2Pending := true }
    else n
  else
    { n with
      lbRdAddr := BitVec.ofBool yPar ++ 0#1 ++ (s.xNext i firstDot).extractLsb' 3 8
      byteSel := (s.xNext i firstDot).extractLsb' 0 3 }

/-- A clock. -/
def step : LineDots :=
  let n := s.readNext i lbRdQ
  if i.cePix then
    let n := { n with xCnt := s.xNext i firstDot, dotPh := if firstDot then false else !s.dotPh }
    let n := s.modeNext i firstDot yPar n
    if i.bpp = 0 then { n with pixCe := s.dotAdv i firstDot } else n
  else n

end LineDots

/-- A 16bpp word as a colour, top bits replicated. -/
def rgb16 (fmt16 : BitVec 2) (w : BitVec 16) : BitVec 24 :=
  let a : BitVec 5 := if fmt16.getLsbD 0 then w.extractLsb' 10 5 else w.extractLsb' 11 5
  let b : BitVec 6 :=
    if fmt16.getLsbD 0 then w.extractLsb' 5 5 ++ w.extractLsb' 9 1 else w.extractLsb' 5 6
  let c : BitVec 5 := w.extractLsb' 0 5
  if fmt16.getLsbD 1 then
    a ++ a.extractLsb' 2 3 ++ b ++ b.extractLsb' 4 2 ++ c ++ c.extractLsb' 2 3
  else c ++ c.extractLsb' 2 3 ++ b ++ b.extractLsb' 4 2 ++ a ++ a.extractLsb' 2 3

namespace LineDots

variable (s : LineDots) (i : LinebufIn) (lbRdQ : BitVec 64)

/-- 8bpp: the DAC index of the dot being displayed. -/
def pixel : BitVec 8 := lbRdQ.extractLsb' (s.byteSel.toNat * 8) 8

/-- 16 and 24bpp: the colour of the dot being displayed. -/
def rgb : BitVec 24 :=
  if i.bpp = 2 then s.rgb24 else rgb16 i.fmt16 (lbRdQ.extractLsb' (s.hwSel.toNat * 16) 16)

end LineDots

/-! ## The module -/

structure SvgaLinebuf where
  requests : LineRequests
  dots : LineDots
  engine : LineFetcher
  lb : BitVec 10 → BitVec 64

/-- The DDR3 port in a clock. -/
structure LinebufDdr where
  ddrBusy : Bool
  ddrDoutReady : Bool
  ddrDout : BitVec 64
deriving DecidableEq, Repr

namespace SvgaLinebuf

variable (s : SvgaLinebuf) (i : LinebufIn) (d : LinebufDdr)

/-- The word at the read address. -/
def lbRdQ : BitVec 64 := s.lb s.dots.lbRdAddr

def pixel : BitVec 8 := s.dots.pixel s.lbRdQ

def rgb : BitVec 24 := s.dots.rgb i s.lbRdQ

/-- The state after a clock; `on` while the module is enabled and not reset. -/
def step (on : Bool) : SvgaLinebuf where
  requests := if on then s.requests.step i s.engine.reqTaken else LineRequests.reset
  dots := if on then s.dots.step i (s.requests.firstDot i) s.requests.yPar s.lbRdQ else s.dots.reset
  engine := s.engine.step (s.requests.request i) d.ddrBusy d.ddrDoutReady d.ddrDout on
  lb := if s.engine.lbWe then Function.update s.lb s.engine.lbWrAddrQ s.engine.lbWrData else s.lb

/-- The registers after a clock in which the module is reset or not enabled. -/
def reset : SvgaLinebuf where
  requests := LineRequests.reset
  dots := s.dots.reset
  engine := s.engine.reset
  lb := s.lb

end SvgaLinebuf

/-! ## Runs -/

/-- The module from the clock on in which it is enabled. -/
structure LinebufRun where
  start : SvgaLinebuf
  inputs : Nat → LinebufIn
  ddr : Nat → LinebufDdr

namespace LinebufRun

variable (r : LinebufRun)

/-- The registers in clock `t`. -/
def state : Nat → SvgaLinebuf :=
  Clocked.run (fun s (i : LinebufIn × LinebufDdr) => s.step i.1 i.2 true) r.start.reset fun t => (r.inputs t, r.ddr t)

theorem state_succ (t : Nat) : r.state (t + 1) = (r.state t).step (r.inputs t) (r.ddr t) true :=
  Clocked.run_succ _ _ _ _

end LinebufRun

end Z486.Video
