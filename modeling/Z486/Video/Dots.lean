/-
The dots of the VGA (src/soc/vga.v), from the bytes of the planes to the index of the palette: the read of the planes and
of the font, the shift registers with the three ways in which they take the bytes, the text attributes with cursor,
underline and blinking, the ninth dot, the panning and the pairs of dots that make a 256-colour pixel.

The module's default is modelled for its two options: the attribute bit that selects the font stays part of the colour, and
the colour select register is used as the ET4000 does. The blanking, which holds the palette, is an input.
-/
import Z486.Video.FetchAddress

namespace Z486.Video

open Clocked

/-! ## Registers -/

structure DotRegs where
  fetch : FetchRegs
  seqCharMapA : BitVec 3
  seqCharMapB : BitVec 3
  seqAccess256kb : Bool
  seqScreenDisable : Bool
  rowUnderline : BitVec 5
  cursorOff : Bool
  cursorRowStart : BitVec 5
  cursorRowEnd : BitVec 5
  cursorSkew : BitVec 2
  addressCursor : BitVec 20
  graphShiftMode : BitVec 2
  attribPas : Bool
  attribPanningAfterCompareMatch : Bool
  attribBlinking : Bool
  attrib9bitSameAs8bit : Bool
  attribMonoEmulation : Bool
  attribGraphicMode : Bool
  attribPelclockDiv2 : Bool
  attribColorBit54Enable : Bool
  attribColorBit76Value : BitVec 2
  attribColorBit54Value : BitVec 2
  attribMask : BitVec 4
deriving DecidableEq, Repr

/-- What may change from an enable to the next: the registers that the vertical retrace latches, the planes, the palette
and the blanking. -/
structure DotIn where
  start : StartIn
  attribPanningValue : BitVec 4
  planes : Fin 4 → BitVec 16 → BitVec 8
  internalPalette : BitVec 4 → BitVec 6
  vgaregBlank : Bool

structure Dots where
  fetch : Fetch
  charMapA : BitVec 3
  charMapB : BitVec 3
  panningReg : BitVec 4
  blinkCnt : BitVec 6
  planeRamQ : Fin 4 → BitVec 8
  planeRam : Fin 4 → BitVec 8
  planeShiftCnt : BitVec 6
  planeShift : Fin 4 → BitVec 8
  planeTxtShift : BitVec 8
  txtForeground : BitVec 4
  txtBackground : BitVec 4
  pelInputLast : BitVec 4
  pelLineGraphicChar : Bool
  pelBackground : BitVec 4
  pelShiftReg : BitVec 40
  planeShiftEnableLast : Bool
  pelColor8bitCnt : Bool
  pelColor8bitBuffer : BitVec 8
  pelPalette : BitVec 6

/-! ## The bytes of a column -/

/-- The bytes of the four planes as the shift registers take them. -/
def planeShiftValue (mode : BitVec 2) (ram : Fin 4 → BitVec 8) : Fin 4 → BitVec 8
  | 3 =>
    if mode == 0 then ram 3
    else if mode == 1 then
      BitVec.ofBoolListBE [(ram 2).getLsbD 7, (ram 2).getLsbD 5, (ram 2).getLsbD 3, (ram 2).getLsbD 1,
        (ram 3).getLsbD 7, (ram 3).getLsbD 5, (ram 3).getLsbD 3, (ram 3).getLsbD 1]
    else
      BitVec.ofBoolListBE [(ram 0).getLsbD 7, (ram 0).getLsbD 3, (ram 1).getLsbD 7, (ram 1).getLsbD 3,
        (ram 2).getLsbD 7, (ram 2).getLsbD 3, (ram 3).getLsbD 7, (ram 3).getLsbD 3]
  | 2 =>
    if mode == 0 then ram 2
    else if mode == 1 then
      BitVec.ofBoolListBE [(ram 2).getLsbD 6, (ram 2).getLsbD 4, (ram 2).getLsbD 2, (ram 2).getLsbD 0,
        (ram 3).getLsbD 6, (ram 3).getLsbD 4, (ram 3).getLsbD 2, (ram 3).getLsbD 0]
    else
      BitVec.ofBoolListBE [(ram 0).getLsbD 6, (ram 0).getLsbD 2, (ram 1).getLsbD 6, (ram 1).getLsbD 2,
        (ram 2).getLsbD 6, (ram 2).getLsbD 2, (ram 3).getLsbD 6, (ram 3).getLsbD 2]
  | 1 =>
    if mode == 0 then ram 1
    else if mode == 1 then
      BitVec.ofBoolListBE [(ram 0).getLsbD 7, (ram 0).getLsbD 5, (ram 0).getLsbD 3, (ram 0).getLsbD 1,
        (ram 1).getLsbD 7, (ram 1).getLsbD 5, (ram 1).getLsbD 3, (ram 1).getLsbD 1]
    else
      BitVec.ofBoolListBE [(ram 0).getLsbD 5, (ram 0).getLsbD 1, (ram 1).getLsbD 5, (ram 1).getLsbD 1,
        (ram 2).getLsbD 5, (ram 2).getLsbD 1, (ram 3).getLsbD 5, (ram 3).getLsbD 1]
  | 0 =>
    if mode == 0 then ram 0
    else if mode == 1 then
      BitVec.ofBoolListBE [(ram 0).getLsbD 6, (ram 0).getLsbD 4, (ram 0).getLsbD 2, (ram 0).getLsbD 0,
        (ram 1).getLsbD 6, (ram 1).getLsbD 4, (ram 1).getLsbD 2, (ram 1).getLsbD 0]
    else
      BitVec.ofBoolListBE [(ram 0).getLsbD 4, (ram 0).getLsbD 0, (ram 1).getLsbD 4, (ram 1).getLsbD 0,
        (ram 2).getLsbD 4, (ram 2).getLsbD 0, (ram 3).getLsbD 4, (ram 3).getLsbD 0]

/-- A dot of the four planes. -/
def nibble (b3 b2 b1 b0 : Bool) : BitVec 4 := BitVec.ofBoolListBE [b3, b2, b1, b0]

/-- A shift register after a dot. -/
def shifted (v : BitVec 8) : BitVec 8 := v.extractLsb' 0 7 ++ BitVec.ofNat 1 0

namespace DotRegs

variable (r : DotRegs) (attr : BitVec 8)

/-- `txt_mono_non_display` -/
def monoNonDisplay : Bool := attr.extractLsb' 4 3 == 0 && attr.extractLsb' 0 3 == 0

/-- `txt_mono_reverse_video` -/
def monoReverseVideo : Bool := attr.extractLsb' 4 3 == 7 && attr.extractLsb' 0 3 == 0

/-- `txt_foreground`, of an attribute byte. -/
def foreground : BitVec 4 :=
  if r.attribMonoEmulation then
    BitVec.ofBool (attr.getLsbD 3 && !monoNonDisplay attr) ++
      (if !monoNonDisplay attr && !monoReverseVideo attr then (7 : BitVec 3) else 0)
  else attr.extractLsb' 0 4

/-- `txt_background` -/
def background : BitVec 4 :=
  if r.attribMonoEmulation then
    BitVec.ofBool (!r.attribBlinking && attr.getLsbD 7 && monoReverseVideo attr) ++
      (if monoReverseVideo attr then (7 : BitVec 3) else 0)
  else BitVec.ofBool (!r.attribBlinking && attr.getLsbD 7) ++ attr.extractLsb' 4 3

/-- `txt_underline_enable` -/
def underlined (rowScan : BitVec 5) : Bool := attr.extractLsb' 0 3 == 1 && r.rowUnderline == rowScan

/-- `txt_cursor_enable` -/
def cursor (blinkCnt : BitVec 6) (address : BitVec 16) (rowScan : BitVec 5) : Bool :=
  !r.cursorOff && blinkCnt.getLsbD 4 && address.setWidth 20 == r.addressCursor + r.cursorSkew.setWidth 20 &&
    decide (r.cursorRowStart ≤ rowScan) && decide (rowScan ≤ r.cursorRowEnd)

/-- `plane_txt_shift_value` -/
def txtShiftValue (blinkCnt : BitVec 6) (address : BitVec 16) (rowScan : BitVec 5) (font : BitVec 8) : BitVec 8 :=
  if r.attribBlinking && attr.getLsbD 7 && blinkCnt.getLsbD 5 then 0
  else if r.underlined attr rowScan || r.cursor blinkCnt address rowScan then 0xFF
  else font

/-- `memory_txt_address` -/
def txtAddress (charMapA charMapB : BitVec 3) (char : BitVec 8) (rowScan : BitVec 5) : BitVec 16 :=
  let mapNumber := if charMapA != charMapB then if attr.getLsbD 3 then charMapB else charMapA else 0
  let fontSel := if r.seqAccess256kb then mapNumber else BitVec.ofBool (mapNumber.getLsbD 2) ++ (0 : BitVec 2)
  fontSel.extractLsb' 0 2 ++ BitVec.ofBool (fontSel.getLsbD 2) ++ char ++ rowScan

/-- `txt_line_graphic_char` -/
def lineGraphicChar (char : BitVec 8) : Bool := char.extractLsb' 5 3 == 6

/-- `pel_after_blink` of a dot. -/
def afterBlink (blinkCnt : BitVec 6) (pel : BitVec 4) : BitVec 4 :=
  let enabled := r.attribMask &&& pel
  if r.attribGraphicMode && r.attribBlinking && blinkCnt.getLsbD 5 then BitVec.ofBool true ++ enabled.extractLsb' 0 3
  else if r.attribGraphicMode && r.attribBlinking then enabled ^^^ 8
  else enabled

/-- `pel_color_index` of two dots, the first in the low half. -/
def pixelIndex (dots : BitVec 8) : BitVec 8 :=
  (if r.attribColorBit54Enable then r.attribColorBit76Value ++ r.attribColorBit54Value else dots.extractLsb' 0 4) ++
    dots.extractLsb' 4 4

/-- `pel_color_index` of an entry of the internal palette. -/
def paletteIndex (entry : BitVec 6) : BitVec 8 :=
  (if r.attribColorBit54Enable then r.attribColorBit76Value ++ r.attribColorBit54Value
    else (0 : BitVec 2) ++ entry.extractLsb' 4 2) ++ entry.extractLsb' 0 4

end DotRegs

/-! ## An enable -/

namespace Dots

variable (s : Dots) (r : DotRegs) (i : DotIn)

def planeShiftEnable : Bool :=
  (!r.fetch.raster.seqDotclockDivided && decide (1 ≤ s.planeShiftCnt)) ||
    (r.fetch.raster.seqDotclockDivided && decide (1 ≤ s.planeShiftCnt) && s.planeShiftCnt.getLsbD 0)

def planeShift9dot : Bool :=
  (!r.fetch.raster.seq8dotChar && s.planeShiftEnable r && (!r.fetch.raster.seqDotclockDivided && s.planeShiftCnt == 9)) ||
    (r.fetch.raster.seqDotclockDivided && s.planeShiftCnt == 17)

/-- The dot that is shifted out. -/
def pelInput : BitVec 4 :=
  if s.planeShift9dot r &&
      ((r.attrib9bitSameAs8bit && s.pelLineGraphicChar) || r.underlined (s.planeRam 1) s.fetch.rowScanReg) then
    s.pelInputLast
  else if s.planeShift9dot r then s.pelBackground
  else if r.attribGraphicMode then
    nibble ((s.planeShift 3).getLsbD 7) ((s.planeShift 2).getLsbD 7) ((s.planeShift 1).getLsbD 7)
      ((s.planeShift 0).getLsbD 7)
  else if s.planeTxtShift.getLsbD 7 then s.txtForeground
  else s.txtBackground

def pelAfterPanning : BitVec 8 :=
  s.pelShiftReg.extractLsb' (if s.panningReg.getLsbD 3 then 0 else 4 * (s.panningReg + 1).toNat) 8

def pelColorIndex : BitVec 8 :=
  if r.attribPelclockDiv2 then r.pixelIndex s.pelColor8bitBuffer else r.paletteIndex s.pelPalette

/-- A new row of characters begins. -/
def newRow : Bool :=
  s.fetch.dotMemoryLoadFirstInFrame r.fetch || s.fetch.dotMemoryLoadFirstInLineMatched r.fetch ||
    (s.fetch.dotMemoryLoadFirstInLine r.fetch && s.fetch.rowScan == 0)

/-- The read port of a plane. -/
def videoAddress (plane : Fin 4) : BitVec 16 :=
  if plane = 2 ∧ s.fetch.stepA then
    r.txtAddress (s.planeRamQ 1) s.charMapA s.charMapB (s.planeRamQ 0) s.fetch.rowScanReg
  else r.fetch.addressStep2 s.fetch.address s.fetch.rowScan

def next : Dots where
  fetch := s.fetch.next r.fetch i.start
  charMapA := if s.newRow r then r.seqCharMapA else s.charMapA
  charMapB := if s.newRow r then r.seqCharMapB else s.charMapB
  panningReg :=
    if s.fetch.dotMemoryLoadFirstInLineMatched r.fetch && r.attribPanningAfterCompareMatch then 0
    else if s.fetch.raster.dotMemoryLoadVerticalRetraceEnd then i.attribPanningValue
    else s.panningReg
  blinkCnt := if s.fetch.raster.dotMemoryLoadVerticalRetraceEnd then s.blinkCnt + 1 else s.blinkCnt
  planeRamQ := fun p =>
    if s.fetch.dotMemoryLoadActive r.fetch && !r.seqScreenDisable then i.planes p (s.videoAddress r p) else s.planeRamQ p
  planeRam := if s.fetch.stepA then s.planeRamQ else s.planeRam
  planeShiftCnt :=
    if s.fetch.stepB then 1
    else if s.planeShiftCnt == 34 then 0
    else if s.planeShiftCnt != 0 then s.planeShiftCnt + 1
    else s.planeShiftCnt
  planeShift := fun p =>
    if s.fetch.stepB then planeShiftValue r.graphShiftMode s.planeRam p
    else if s.planeShiftEnable r then shifted (s.planeShift p)
    else s.planeShift p
  planeTxtShift :=
    if s.fetch.stepB then
      r.txtShiftValue (s.planeRam 1) s.blinkCnt s.fetch.addressRegFinal s.fetch.rowScanReg (s.planeRamQ 2)
    else if s.planeShiftEnable r then shifted s.planeTxtShift
    else s.planeTxtShift
  txtForeground := if s.fetch.stepB then r.foreground (s.planeRam 1) else s.txtForeground
  txtBackground := if s.fetch.stepB then r.background (s.planeRam 1) else s.txtBackground
  pelInputLast := if s.planeShiftEnable r then s.pelInput r else s.pelInputLast
  pelLineGraphicChar :=
    if s.planeShiftEnable r then DotRegs.lineGraphicChar (s.planeRam 0) else s.pelLineGraphicChar
  pelBackground := if s.planeShiftEnable r then s.txtBackground else s.pelBackground
  pelShiftReg :=
    if s.planeShiftEnable r then
      BitVec.ofNat 4 0 ++ r.afterBlink s.blinkCnt (s.pelInput r) ++ s.pelShiftReg.extractLsb' 4 32
    else s.pelShiftReg
  planeShiftEnableLast := s.planeShiftEnable r
  pelColor8bitCnt := if s.planeShiftEnable r && !s.planeShiftEnableLast then false else !s.pelColor8bitCnt
  pelColor8bitBuffer := if s.pelColor8bitCnt then s.pelAfterPanning else s.pelColor8bitBuffer
  pelPalette :=
    if r.attribPas && !r.seqScreenDisable && !i.vgaregBlank then i.internalPalette (s.pelAfterPanning.extractLsb' 0 4)
    else s.pelPalette

end Dots

end Z486.Video
