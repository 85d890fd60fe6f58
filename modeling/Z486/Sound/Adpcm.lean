/-
The decoder of the packed formats of the DSP (src/soc/sound/sound_dsp.v): the byte whose codes are shifted out, the
reference and the step size. What starts a transfer and what paces it is in `Dsp`; the decoder reads its wires.
-/
import Z486.Clocked.Run
import Z486.Sound.Dsp

namespace Z486.Sound

open Clocked

/-! ## Decoding a code -/

/-- The next reference: the adjustment is added or taken off, and what leaves the byte is cut off. -/
def adpcmReferenceNext (reference adjust : BitVec 8) (sign : Bool) : BitVec 8 :=
  let sum := reference.setWidth 9 + adjust.setWidth 9
  let sub := reference.setWidth 9 - adjust.setWidth 9
  if sign && sub.getLsbD 8 then 0
  else if sign then sub.setWidth 8
  else if sum.getLsbD 8 then 255
  else sum.setWidth 8

/-- The next step size: up to a limit, down to zero. -/
def adpcmStepNext (step limit : BitVec 3) (up down : Bool) : BitVec 3 :=
  if step < limit && up then step + 1 else if 0 < step && down then step - 1 else step

def adpcm2bitSample (sample : BitVec 8) : BitVec 2 := sample.extractLsb' 6 2

def adpcm2bitReferenceAdjust (step : BitVec 3) (code : BitVec 2) : BitVec 8 :=
  if step == 0 then 0#7 ++ code.extractLsb' 0 1
  else if step == 1 then 0#6 ++ code.extractLsb' 0 1 ++ 0b1#1
  else if step == 2 then 0#5 ++ code.extractLsb' 0 1 ++ 0b10#2
  else if step == 3 then 0#4 ++ code.extractLsb' 0 1 ++ 0b100#3
  else if step == 4 then 0#3 ++ code.extractLsb' 0 1 ++ 0b1000#4
  else 0#2 ++ code.extractLsb' 0 1 ++ 0b10000#5

def adpcm2bitReferenceNext (reference : BitVec 8) (step : BitVec 3) (code : BitVec 2) : BitVec 8 :=
  adpcmReferenceNext reference (adpcm2bitReferenceAdjust step code) (code.getLsbD 1)

def adpcm2bitStepNext (step : BitVec 3) (code : BitVec 2) : BitVec 3 :=
  adpcmStepNext step 5 (code.getLsbD 0) !code.getLsbD 0

def adpcm3bitSample (sample : BitVec 8) : BitVec 3 := sample.extractLsb' 5 3

def adpcm3bitReferenceAdjust (step : BitVec 3) (code : BitVec 3) : BitVec 8 :=
  if step == 0 then 0#6 ++ code.extractLsb' 0 2
  else if step == 1 then 0#5 ++ code.extractLsb' 0 2 ++ 0b1#1
  else if step == 2 then 0#4 ++ code.extractLsb' 0 2 ++ 0b10#2
  else if step == 3 then 0#3 ++ code.extractLsb' 0 2 ++ 0b100#3
  -- here the whole code is compared, the sign with it
  else if step == 4 && code == 0 then 5
  else if step == 4 && code == 1 then 15
  else if step == 4 && code == 2 then 25
  else 35

def adpcm3bitReferenceNext (reference : BitVec 8) (step : BitVec 3) (code : BitVec 3) : BitVec 8 :=
  adpcmReferenceNext reference (adpcm3bitReferenceAdjust step code) (code.getLsbD 2)

def adpcm3bitStepNext (step : BitVec 3) (code : BitVec 3) : BitVec 3 :=
  adpcmStepNext step 4 (code.extractLsb' 0 2 == 3) (code.extractLsb' 0 2 == 0)

def adpcm4bitSample (sample : BitVec 8) : BitVec 4 := sample.extractLsb' 4 4

def adpcm4bitReferenceAdjust (step : BitVec 3) (code : BitVec 4) : BitVec 8 :=
  if step == 0 then 0#5 ++ code.extractLsb' 0 3
  else if step == 1 then 0#4 ++ code.extractLsb' 0 3 ++ 0b1#1
  else if step == 2 then 0#3 ++ code.extractLsb' 0 3 ++ 0b10#2
  else 0#2 ++ code.extractLsb' 0 3 ++ 0b100#3

def adpcm4bitReferenceNext (reference : BitVec 8) (step : BitVec 3) (code : BitVec 4) : BitVec 8 :=
  adpcmReferenceNext reference (adpcm4bitReferenceAdjust step code) (code.getLsbD 3)

def adpcm4bitStepNext (step : BitVec 3) (code : BitVec 4) : BitVec 3 :=
  adpcmStepNext step 3 (5 ≤ code.extractLsb' 0 3) (code.extractLsb' 0 3 == 0)

/-! ## Registers -/

structure DecoderIn where
  rstN : Bool
  swReset : Bool
  adpcmReferenceAwaiting : Bool
  dmaOutput : Bool
  adpcmOutput : Bool
  adpcmType : Adpcm
  dmaReaddata : BitVec 8

structure Decoder where
  adpcmSample : BitVec 8
  adpcmActive : Bool
  adpcmStep : BitVec 3
  adpcmReference : BitVec 8
  deriving DecidableEq, Repr, Inhabited

def DecoderIn.adpcmActiveNext (i : DecoderIn) : Bool :=
  if !i.rstN then false
  else if i.swReset then false
  else if i.adpcmReferenceAwaiting && i.dmaOutput then false
  else if i.adpcmType != .none && i.dmaOutput then true
  else i.adpcmOutput

namespace Decoder

variable (d : Decoder) (i : DecoderIn)

def adpcmSampleNext : BitVec 8 :=
  if !i.rstN then 0
  else if i.swReset then 0
  else if i.dmaOutput then i.dmaReaddata
  else if i.adpcmOutput && i.adpcmType == .twoBit then d.adpcmSample.extractLsb' 0 6 ++ 0#2
  else if i.adpcmOutput && i.adpcmType == .threeBit then d.adpcmSample.extractLsb' 0 5 ++ 0#3
  else if i.adpcmOutput && i.adpcmType == .fourBit then d.adpcmSample.extractLsb' 0 4 ++ 0#4
  else d.adpcmSample

def adpcmStepNext : BitVec 3 :=
  if !i.rstN then 0
  else if i.swReset then 0
  else if d.adpcmActive && i.adpcmType == .twoBit then adpcm2bitStepNext d.adpcmStep (adpcm2bitSample d.adpcmSample)
  else if d.adpcmActive && i.adpcmType == .threeBit then adpcm3bitStepNext d.adpcmStep (adpcm3bitSample d.adpcmSample)
  else if d.adpcmActive && i.adpcmType == .fourBit then adpcm4bitStepNext d.adpcmStep (adpcm4bitSample d.adpcmSample)
  else if i.adpcmReferenceAwaiting && i.dmaOutput then 0
  else d.adpcmStep

def adpcmReferenceNext : BitVec 8 :=
  if !i.rstN then 0
  else if i.swReset then 0
  else if d.adpcmActive && i.adpcmType == .twoBit then
    adpcm2bitReferenceNext d.adpcmReference d.adpcmStep (adpcm2bitSample d.adpcmSample)
  else if d.adpcmActive && i.adpcmType == .threeBit then
    adpcm3bitReferenceNext d.adpcmReference d.adpcmStep (adpcm3bitSample d.adpcmSample)
  else if d.adpcmActive && i.adpcmType == .fourBit then
    adpcm4bitReferenceNext d.adpcmReference d.adpcmStep (adpcm4bitSample d.adpcmSample)
  else if i.adpcmReferenceAwaiting && i.dmaOutput then i.dmaReaddata
  else d.adpcmReference

def step : Decoder where
  adpcmSample := d.adpcmSampleNext i
  adpcmActive := i.adpcmActiveNext
  adpcmStep := d.adpcmStepNext i
  adpcmReference := d.adpcmReferenceNext i

/-- `adpcm_active_value`: the value played while a code is decoded. -/
def adpcmActiveValue : BitVec 8 :=
  if i.adpcmType == .twoBit then
    adpcm2bitReferenceNext d.adpcmReference d.adpcmStep (adpcm2bitSample d.adpcmSample)
  else if i.adpcmType == .threeBit then
    adpcm3bitReferenceNext d.adpcmReference d.adpcmStep (adpcm3bitSample d.adpcmSample)
  else adpcm4bitReferenceNext d.adpcmReference d.adpcmStep (adpcm4bitSample d.adpcmSample)

end Decoder

/-- The wires from the DSP to its decoder. -/
def Dsp.decoderIn (s : Dsp) (i : DspIn) (dmaReaddata : BitVec 8) : DecoderIn where
  rstN := i.rstN
  swReset := s.swReset i
  adpcmReferenceAwaiting := s.adpcmReferenceAwaiting
  dmaOutput := s.dmaOutput i
  adpcmOutput := s.adpcmOutput
  adpcmType := s.adpcmType
  dmaReaddata := dmaReaddata

/-- The DSP with its decoder: one clock, with the byte that the DMA hands over. -/
def Dsp.decoding (s : Dsp × Decoder) (i : DspIn × BitVec 8) : Dsp × Decoder :=
  (s.1.step i.1, s.2.step (s.1.decoderIn i.1 i.2))

end Z486.Sound
