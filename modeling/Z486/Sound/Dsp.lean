/-
The DSP of the Sound Blaster (src/soc/sound/sound_dsp.v): the reception of commands, the sample clock and the timer, the
requests and the lengths of DMA transfers, the packed formats and the interrupts. The values of the samples, the replies
to the processor and the busy flag are left out. Every register has its own clocked block; each is a definition here, and
`step` puts them together.
-/
import Mathlib.Tactic.Common

namespace Z486.Sound

/-! ## Ports and registers -/

structure DspIn where
  rstN : Bool
  clockRate : BitVec 28
  ioAddress : BitVec 4
  ioRead : Bool
  ioWrite : Bool
  ioWritedata : BitVec 8
  dmaAck : Bool
  dma16En : Bool
  sbp : Bool
  sbpStereo : Bool

/-- The packed formats: `ADPCM_NONE`, `ADPCM_4BIT`, `ADPCM_3BIT` and `ADPCM_2BIT`. -/
inductive Adpcm
  | none
  | fourBit
  | threeBit
  | twoBit
  deriving DecidableEq, Repr, Inhabited

/-- The transfers that a command can ask for. -/
inductive DmaCommand
  | idle
  | outSingle8Bit
  | outSingle4Bit
  | outSingle3Bit
  | outSingle2Bit
  | outSingle4BitRef
  | outSingle3BitRef
  | outSingle2BitRef
  | outAuto8Bit
  | outAuto4BitRef
  | outAuto3BitRef
  | outAuto2BitRef
  | inSingle
  | inAuto
  | outSingleHigh
  | outAutoHigh
  | inSingleHigh
  | inAutoHigh
  | outSingleNew
  | outAutoNew
  | inSingleNew
  | inAutoNew
  deriving DecidableEq, Repr, Inhabited

structure Dsp where
  ioReadLast : Bool
  highspeedMode : Bool
  midiUartMode : Bool
  resetReg : Bool
  cmdRecv : Bool
  cmdRecvD : Bool
  writeLeft : BitVec 2
  cmdCurr : BitVec 8
  writeBuffer : BitVec 24
  dmaIdActive : Bool
  blockSize : BitVec 16
  pauseActive : Bool
  ceSmp : Bool
  smpSum : BitVec 28
  clkSmp : BitVec 28
  sampleRateActive : Bool
  irq8 : Bool
  trgIrq8 : Bool
  trgCnt : BitVec 8
  irq16 : Bool
  dmaCommand : DmaCommand
  dmaNormalReq : Bool
  lenLeft : BitVec 16
  dmaInProgress : Bool
  dmaIsInput : Bool
  dmaAutoinit : Bool
  timeConstant : BitVec 8
  th0 : BitVec 8
  tl0 : BitVec 8
  tr0 : Bool
  et0 : Bool
  dmaFormat : BitVec 4
  sampleLr : Bool
  dmaHcnt : Bool
  adpcmReferenceAwaiting : Bool
  adpcmWait : BitVec 2
  adpcmType : Adpcm
  deriving Inhabited

/-! ## Transfers -/

namespace DmaCommand

def single : DmaCommand → Bool
  | outSingle8Bit | outSingle4Bit | outSingle3Bit | outSingle2Bit => true
  | outSingle4BitRef | outSingle3BitRef | outSingle2BitRef => true
  | inSingle | outSingleHigh | inSingleHigh | outSingleNew | inSingleNew => true
  | _ => false

def auto : DmaCommand → Bool
  | outAuto8Bit | outAuto4BitRef | outAuto3BitRef | outAuto2BitRef => true
  | inAuto | outAutoHigh | inAutoHigh | outAutoNew | inAutoNew => true
  | _ => false

def new : DmaCommand → Bool
  | outSingleNew | inSingleNew | outAutoNew | inAutoNew => true
  | _ => false

def input : DmaCommand → Bool
  | inSingle | inAuto | inSingleHigh | inAutoHigh | inSingleNew | inAutoNew => true
  | _ => false

def ref : DmaCommand → Bool
  | outSingle2BitRef | outSingle3BitRef | outSingle4BitRef => true
  | outAuto2BitRef | outAuto3BitRef | outAuto4BitRef => true
  | _ => false

def adpcm : DmaCommand → Adpcm
  | outSingle2BitRef | outSingle2Bit | outAuto2BitRef => .twoBit
  | outSingle3BitRef | outSingle3Bit | outAuto3BitRef => .threeBit
  | outSingle4BitRef | outSingle4Bit | outAuto4BitRef => .fourBit
  | _ => .none

end DmaCommand

namespace DspIn

variable (i : DspIn)

def writes (address : BitVec 4) : Bool := i.ioWrite && i.ioAddress == address

end DspIn

/-- `dsp_cmd_len`: the number of bytes that follow a command. -/
def dspCmdLen (command : BitVec 8) : BitVec 2 :=
  if command.extractLsb' 4 4 == 0xB || command.extractLsb' 4 4 == 0xC then 3
  else match command.toNat with
    | 0x04 | 0x08 | 0x0F | 0x10 | 0x38 | 0x40 | 0xE0 | 0xE2 | 0xE4 | 0xF9 => 1
    | 0x05 | 0x0E | 0x14 | 0x15 | 0x16 | 0x17 | 0x24 | 0x41 | 0x42 | 0x48 => 2
    | 0x74 | 0x75 | 0x76 | 0x77 | 0x80 | 0xFA => 2
    | _ => 0

namespace Dsp

variable (s : Dsp) (i : DspIn)

/-! ## Commands -/

def ioReadValid : Bool := i.ioRead && !s.ioReadLast

def highspeedReset : Bool := i.writes 6 && s.highspeedMode

def midiUartReset : Bool := i.writes 6 && !s.highspeedMode && s.midiUartMode && s.resetReg && !i.ioWritedata.getLsbD 0

def swReset : Bool := i.writes 6 && !s.highspeedMode && !s.midiUartMode && s.resetReg && !i.ioWritedata.getLsbD 0

def cmdStart : Bool := s.writeLeft == 0 && i.writes 0xC && (!s.midiUartMode && !s.highspeedMode)

def cmdCont : Bool := s.writeLeft != 0 && i.writes 0xC

def cmdFinish : Bool := s.cmdRecvD && !s.cmdRecv

/-- The command whose last byte has come. -/
def cmd : BitVec 8 := if s.cmdFinish then s.cmdCurr else 0

def cmdHighAutoDmaOut : Bool := s.cmd &&& 0xF9 == 0x90
def cmdHighSingleDmaOut : Bool := s.cmd &&& 0xF9 == 0x91
def cmdHighAutoDmaInput : Bool := s.cmd &&& 0xF9 == 0x98
def cmdHighSingleDmaInput : Bool := s.cmd &&& 0xF9 == 0x99

def cmdNewDma : Bool := (s.cmd.extractLsb' 4 4 == 0xB || s.cmd.extractLsb' 4 4 == 0xC) && !i.sbp

def cmdMidiUart : Bool := s.cmd.extractLsb' 2 6 ++ 0#2 == 0x34
def cmdSetTimeConstant : Bool := s.cmd == 0x40
def cmdSetSampleRate : Bool := (s.cmd == 0x41 || s.cmd == 0x42) && !i.sbp
def cmdAutoDmaContinue : Bool := (s.cmd == 0x45 || s.cmd == 0x47) && !i.sbp
def cmdSetBlockSize : Bool := s.cmd == 0x48
def cmdPauseDac : Bool := s.cmd == 0x80
def cmdDmaPauseStart : Bool := s.cmd == 0xD0 || (s.cmd == 0xD5 && !i.sbp)
def cmdDmaPauseEnd : Bool := s.cmd == 0xD4 || (s.cmd == 0xD6 && !i.sbp)
def cmdAutoDmaExit : Bool := s.cmd == 0xDA || (s.cmd == 0xD9 && !i.sbp)
def cmdDmaId : Bool := s.cmd == 0xE2
def cmdTriggerIrq8 : Bool := s.cmd == 0xF2
def cmdTriggerIrq16 : Bool := s.cmd == 0xF3 && !i.sbp

def highspeedStart : Bool :=
  s.cmdHighAutoDmaOut || s.cmdHighSingleDmaOut || s.cmdHighAutoDmaInput || s.cmdHighSingleDmaInput

/-- The transfer that the command asks for, if it is one for a transfer. -/
def ordered : Option DmaCommand :=
  if s.cmd == 0x14 then some .outSingle8Bit
  else if s.cmd == 0x74 then some .outSingle4Bit
  else if s.cmd == 0x76 then some .outSingle3Bit
  else if s.cmd == 0x16 then some .outSingle2Bit
  else if s.cmd == 0x75 then some .outSingle4BitRef
  else if s.cmd == 0x77 then some .outSingle3BitRef
  else if s.cmd == 0x17 then some .outSingle2BitRef
  else if s.cmd == 0x1C then some .outAuto8Bit
  else if s.cmd == 0x7D then some .outAuto4BitRef
  else if s.cmd == 0x7F then some .outAuto3BitRef
  else if s.cmd == 0x1F then some .outAuto2BitRef
  else if s.cmd == 0x24 then some .inSingle
  else if s.cmd == 0x2C then some .inAuto
  else if s.cmdHighSingleDmaOut then some .outSingleHigh
  else if s.cmdHighAutoDmaOut then some .outAutoHigh
  else if s.cmdHighSingleDmaInput then some .inSingleHigh
  else if s.cmdHighAutoDmaInput then some .inAutoHigh
  else if s.cmdNewDma i then
    some (if s.cmd.getLsbD 3 then if s.cmd.getLsbD 2 then .inAutoNew else .inSingleNew
      else if s.cmd.getLsbD 2 then .outAutoNew else .outSingleNew)
  else none

/-- Two bytes of parameters, the low one first. -/
def lengthBytes : BitVec 16 := s.writeBuffer.extractLsb' 0 8 ++ s.writeBuffer.extractLsb' 8 8

/-! ## Timer and requests -/

def timer0Tick : Bool := s.ceSmp && s.tr0

def tf0 : Bool := s.timer0Tick && s.tl0 == 0xFF

def timer0Isr : Bool := s.tf0 && s.et0

def dma16Req : Bool := s.dmaFormat.getLsbD 3

def dmaReq : Bool := s.dmaIdActive || s.dmaNormalReq

/-- A whole sample: 16 bits over an 8-bit channel take two acknowledges. -/
def dmaAckF : Bool := i.dmaAck && (s.dmaHcnt || i.dma16En || !s.dma16Req)

def dmaAckW : Bool := s.dmaAckF i && (!s.dmaFormat.getLsbD 1 || s.sampleLr)

def dmaAckStereo : Bool := s.dmaAckF i && (s.dmaFormat.getLsbD 1 && !s.sampleLr)

def dmaValid : Bool := s.dmaNormalReq && s.dmaAckW i && !s.dmaIdActive

def dmaOutput : Bool := !s.dmaIsInput && s.dmaValid i

def adpcmOutput : Bool := s.timer0Isr && s.adpcmWait != 0

/-- The last sample of a block. -/
def blockEnds : Bool :=
  s.lenLeft == 0 && ((s.adpcmType == .none && (s.dmaValid i || s.dmaAckStereo i)) ||
    (s.adpcmType != .none && s.adpcmOutput && s.adpcmWait == 1))

def dmaFinished : Bool := s.dmaInProgress && !s.dmaAutoinit && s.blockEnds i

def dmaAutoRestart : Bool := s.dmaInProgress && s.dmaAutoinit && s.blockEnds i

def dmaRestartPossible : Bool :=
  !s.tr0 || ((s.adpcmWait == 0 || (s.adpcmType != .none && s.adpcmWait == 1)) &&
    (!s.dmaInProgress || s.dmaAutoRestart i))

def dmaSingleStart : Bool := s.dmaRestartPossible i && s.dmaCommand.single
def dmaAutoStart : Bool := s.dmaRestartPossible i && s.dmaCommand.auto
def dmaNewStart : Bool := s.dmaRestartPossible i && s.dmaCommand.new

/-- A transfer starts, of one block or of blocks for ever. -/
def dmaStart : Bool := s.dmaSingleStart i || s.dmaAutoStart i

def pauseDecrement : Bool := s.pauseActive && s.timer0Isr
def pauseFinished : Bool := s.pauseDecrement && s.lenLeft == 0

/-- What raises an interrupt. -/
def raises : Bool := s.dmaFinished i || s.pauseFinished || s.dmaAutoRestart i

/-! ## Registers -/

def highspeedModeNext : Bool :=
  if !i.rstN then false
  else if s.swReset i || s.highspeedReset i then false
  else if s.highspeedStart then true
  else if s.dmaFinished i then false
  else s.highspeedMode

def midiUartModeNext : Bool :=
  if !i.rstN then false
  else if s.midiUartReset i then false
  else if s.cmdMidiUart then true
  else s.midiUartMode

def resetRegNext : Bool :=
  if !i.rstN then false
  else if i.writes 6 && !s.highspeedMode then i.ioWritedata.getLsbD 0
  else s.resetReg

def cmdRecvNext : Bool :=
  if !i.rstN then false
  else if s.swReset i then false
  else if s.cmdStart i then true
  else if s.writeLeft == 0 then false
  else s.cmdRecv

def writeLeftNext : BitVec 2 :=
  if !i.rstN then 0
  else if s.swReset i then 0
  else if s.cmdStart i then dspCmdLen i.ioWritedata
  else if s.cmdCont i then s.writeLeft - 1
  else s.writeLeft

def cmdCurrNext : BitVec 8 :=
  if !i.rstN then 0
  else if s.swReset i then 0
  else if s.cmdStart i then i.ioWritedata
  else s.cmdCurr

def writeBufferNext : BitVec 24 :=
  if !i.rstN then 0
  else if s.swReset i then 0
  else if s.cmdStart i then 0
  else if s.cmdCont i then s.writeBuffer.extractLsb' 0 16 ++ i.ioWritedata
  else s.writeBuffer

def dmaIdActiveNext : Bool :=
  if !i.rstN then false
  else if s.swReset i then false
  else if s.cmdDmaId then true
  else if s.dmaAckW i then false
  else s.dmaIdActive

def blockSizeNext : BitVec 16 :=
  if !i.rstN then 0x07FF
  else if s.swReset i then 0
  else if s.cmdSetBlockSize || s.cmdNewDma i then s.lengthBytes
  else s.blockSize

def pauseActiveNext : Bool :=
  if !i.rstN then false
  else if s.swReset i then false
  else if s.pauseFinished then false
  else if s.cmdPauseDac then true
  else s.pauseActive

/-- The sum of the sample clock before the rate of the clock is taken off. -/
def smpSumUp : BitVec 28 := s.smpSum + s.clkSmp

def smpSumNext : BitVec 28 :=
  if !i.rstN then 0
  else if i.clockRate ≤ s.smpSumUp then s.smpSumUp - i.clockRate
  else s.smpSumUp

def ceSmpNext : Bool := if !i.rstN then s.ceSmp else decide (i.clockRate ≤ s.smpSumUp)

def clkSmpNext : BitVec 28 :=
  if !i.rstN || s.swReset i || s.cmdSetTimeConstant then 1000000
  else if s.cmdSetSampleRate i then BitVec.setWidth 28 (s.writeBuffer.extractLsb' 0 16)
  else s.clkSmp

def sampleRateActiveNext : Bool :=
  if !i.rstN || s.swReset i || s.cmdSetTimeConstant then false
  else if s.cmdSetSampleRate i then true
  else s.sampleRateActive

def irq8Next : Bool :=
  if !i.rstN || s.swReset i then false
  else if s.raises i && !s.dma16Req then true
  else if s.trgIrq8 then true
  else if s.ioReadValid i && i.ioAddress == 0xE then false
  else s.irq8

def trgCntNext : BitVec 8 :=
  if !i.rstN || s.swReset i then 0
  else if s.cmdTriggerIrq8 then 1
  else if s.ioReadValid i && i.ioAddress == 0xE && s.irq8 then 0
  else if s.trgCnt != 0 then s.trgCnt + 1
  else s.trgCnt

def irq16Next : Bool :=
  if !i.rstN || s.swReset i then false
  else if s.raises i && s.dma16Req then true
  else if s.cmdTriggerIrq16 i then true
  else if s.ioReadValid i && i.ioAddress == 0xF then false
  else s.irq16

def dmaCommandNext : DmaCommand :=
  if !i.rstN then .idle
  else if s.swReset i then .idle
  else match s.ordered i with
    | some c => c
    | none => if s.dmaStart i then .idle else s.dmaCommand

def dmaNormalReqNext : Bool :=
  if !i.rstN then false
  else if s.swReset i || s.highspeedReset i then false
  else if s.dmaValid i then false
  else if s.dmaInProgress && s.timer0Isr && s.adpcmWait == 0 && !s.pauseActive then true
  else s.dmaNormalReq

def lenLeftNext : BitVec 16 :=
  if !i.rstN then 0
  else if s.swReset i || s.highspeedReset i then 0
  else if (s.dmaSingleStart i && !s.highspeedMode) || s.cmdPauseDac then s.lengthBytes
  else if s.dmaAutoStart i || s.dmaAutoRestart i || s.highspeedStart then s.blockSize
  else if (s.dmaValid i || s.dmaAckStereo i) && s.lenLeft != 0 then s.lenLeft - 1
  else if s.pauseDecrement && s.lenLeft != 0 then s.lenLeft - 1
  else if s.pauseFinished || s.dmaFinished i then 0
  else s.lenLeft

def dmaInProgressNext : Bool :=
  if !i.rstN then false
  else if s.swReset i || s.highspeedReset i then false
  else if s.cmdDmaPauseStart i || s.dmaFinished i then false
  else if s.cmdDmaPauseEnd i || s.dmaStart i then true
  else s.dmaInProgress

def dmaIsInputNext : Bool :=
  if !i.rstN then false
  else if s.swReset i || s.highspeedReset i then false
  else if s.dmaStart i then s.dmaCommand.input
  else s.dmaIsInput

def dmaAutoinitNext : Bool :=
  if !i.rstN then false
  else if s.swReset i || s.highspeedReset i then false
  else if s.dmaSingleStart i then false
  else if s.dmaAutoStart i then true
  else if s.cmdAutoDmaExit i then false
  else if s.cmdAutoDmaContinue i then true
  else s.dmaAutoinit

def timeConstantNext : BitVec 8 :=
  if !i.rstN then 0x9C
  else if s.swReset i then 0x9C
  else if s.cmdSetTimeConstant then s.writeBuffer.extractLsb' 0 8
  else s.timeConstant

def th0Next : BitVec 8 :=
  if !i.rstN then 0x9C
  else if s.swReset i then 0x9C
  else if s.highspeedReset i then s.timeConstant
  else if s.cmdSetTimeConstant then s.writeBuffer.extractLsb' 0 8
  else s.th0

def tl0Next : BitVec 8 :=
  if !i.rstN then 0x9C
  else if s.swReset i then 0x9C
  else if s.highspeedReset i then s.timeConstant
  else if s.sampleRateActive then 0xFF
  else if s.cmdSetTimeConstant then s.writeBuffer.extractLsb' 0 8
  else if s.tf0 then s.th0
  else if s.timer0Tick then s.tl0 + 1
  else s.tl0

/-- The run and the enable bit of the timer are set and cleared together. -/
def timerBitNext (bit : Bool) : Bool :=
  if !i.rstN then false
  else if s.swReset i || s.highspeedReset i then false
  else if s.cmdDmaPauseStart i || s.pauseFinished || s.dmaFinished i then false
  else if s.cmdDmaPauseEnd i || s.cmdPauseDac || s.dmaStart i then true
  else bit

def dmaFormatNext : BitVec 4 :=
  if !i.rstN || s.swReset i then 0
  else if s.dmaNewStart i then BitVec.ofBool (s.cmdCurr.getLsbD 4) ++ 0#1 ++ s.writeBuffer.extractLsb' 20 2
  else if s.dmaStart i then 0#1 ++ BitVec.ofBool i.sbpStereo ++ 0#2
  else s.dmaFormat

def adpcmReferenceAwaitingNext : Bool :=
  if !i.rstN then false
  else if s.swReset i then false
  else if s.dmaStart i then s.dmaCommand.ref
  else if s.adpcmReferenceAwaiting && s.dmaOutput i then false
  else if s.dmaFinished i then false
  else s.adpcmReferenceAwaiting

def adpcmWaitNext : BitVec 2 :=
  if !i.rstN then 0
  else if s.swReset i then 0
  else if s.dmaStart i then 0
  else if s.adpcmReferenceAwaiting && s.dmaOutput i then 0
  else if s.dmaOutput i && s.adpcmType == .twoBit then 3
  else if s.dmaOutput i && s.adpcmType == .threeBit then 2
  else if s.dmaOutput i && s.adpcmType == .fourBit then 1
  else if s.adpcmOutput && s.adpcmWait != 0 then s.adpcmWait - 1
  else s.adpcmWait

def adpcmTypeNext : Adpcm :=
  if !i.rstN then .none
  else if s.swReset i then .none
  else if s.dmaStart i then s.dmaCommand.adpcm
  else if s.dmaFinished i then .none
  else s.adpcmType

def step : Dsp where
  ioReadLast := if !i.rstN then false else if s.ioReadLast then false else i.ioRead
  highspeedMode := s.highspeedModeNext i
  midiUartMode := s.midiUartModeNext i
  resetReg := s.resetRegNext i
  cmdRecv := s.cmdRecvNext i
  cmdRecvD := if !i.rstN then false else if s.swReset i then false else s.cmdRecv
  writeLeft := s.writeLeftNext i
  cmdCurr := s.cmdCurrNext i
  writeBuffer := s.writeBufferNext i
  dmaIdActive := s.dmaIdActiveNext i
  blockSize := s.blockSizeNext i
  pauseActive := s.pauseActiveNext i
  ceSmp := s.ceSmpNext i
  smpSum := s.smpSumNext i
  clkSmp := s.clkSmpNext i
  sampleRateActive := s.sampleRateActiveNext i
  irq8 := s.irq8Next i
  trgIrq8 := s.trgCnt == 0xFF
  trgCnt := s.trgCntNext i
  irq16 := s.irq16Next i
  dmaCommand := s.dmaCommandNext i
  dmaNormalReq := s.dmaNormalReqNext i
  lenLeft := s.lenLeftNext i
  dmaInProgress := s.dmaInProgressNext i
  dmaIsInput := s.dmaIsInputNext i
  dmaAutoinit := s.dmaAutoinitNext i
  timeConstant := s.timeConstantNext i
  th0 := s.th0Next i
  tl0 := s.tl0Next i
  tr0 := s.timerBitNext i s.tr0
  et0 := s.timerBitNext i s.et0
  dmaFormat := s.dmaFormatNext i
  sampleLr := s.dmaReq && (s.sampleLr ^^ (s.dmaAckF i && s.dmaFormat.getLsbD 1))
  dmaHcnt := s.dmaReq && (s.dmaHcnt ^^ i.dmaAck)
  adpcmReferenceAwaiting := s.adpcmReferenceAwaitingNext i
  adpcmWait := s.adpcmWaitNext i
  adpcmType := s.adpcmTypeNext i

end Dsp

end Z486.Sound
