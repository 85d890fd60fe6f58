/-
The SAA1099 of the Creative Music System (src/soc/sound/saa1099.sv): two triplets of a tone generator for each channel, a
noise generator and an envelope, and the output mixers. The tones count enables of the chip's clock; each channel takes its
tone, the noise or both, and the third channel of a triplet can be driven by its envelope instead.
-/
import Mathlib.Data.Fin.VecNotation
import Z486.Clocked.Run

namespace Z486.Sound

/-! ## Tones and noise -/

structure SaaTone where
  count : BitVec 17
  out : Bool
  pulse : Bool
deriving DecidableEq, Repr

namespace SaaTone

/-- `fcount`, the enables of half a period less one. -/
def fcount (octave : BitVec 3) (freq : BitVec 8) : BitVec 17 :=
  ((511#17 - freq.setWidth 17) <<< (8 - octave.toNat)) - 1

def step (s : SaaTone) (rst ce : Bool) (octave : BitVec 3) (freq : BitVec 8) : SaaTone :=
  if rst then ⟨fcount octave freq, false, false⟩
  else if ce then
    if s.count == 0 then ⟨fcount octave freq, !s.out, true⟩ else ⟨s.count - 1, s.out, false⟩
  else { s with pulse := false }

end SaaTone

structure SaaNoise where
  lfsr : BitVec 17
  count : BitVec 11
deriving DecidableEq, Repr

namespace SaaNoise

def newLfsr (lfsr : BitVec 17) : BitVec 17 :=
  BitVec.ofBool ((lfsr.getLsbD 0 ^^ lfsr.getLsbD 2) ^^ lfsr == 0) ++ lfsr.extractLsb' 1 16

def fcount (noiseFreq : BitVec 2) : BitVec 11 := (256#11 <<< noiseFreq.toNat) - 1

def step (s : SaaNoise) (rst ce pulseNoise : Bool) (noiseFreq : BitVec 2) : SaaNoise :=
  if rst then { s with count := fcount noiseFreq }
  else if noiseFreq != 3 then
    if ce then
      if s.count == 0 then ⟨newLfsr s.lfsr, fcount noiseFreq⟩ else { s with count := s.count - 1 }
    else s
  else if pulseNoise then { s with lfsr := newLfsr s.lfsr } else s

def out (s : SaaNoise) : Bool := s.lfsr.getLsbD 0

end SaaNoise

/-! ## Envelopes and amplitudes -/

/-- What the envelope takes from its register, and where it stands. -/
structure SaaAmp where
  shape : BitVec 3
  stereo : Bool
  counter : BitVec 4
  phase : Bool
  clock : Bool
  newData : Bool
deriving DecidableEq, Repr

structure SaaAmpIn where
  rst : Bool
  envreg : BitVec 8
  wrAddr : Bool
  wrData : Bool
  pulseEnvelope : Bool
deriving DecidableEq, Repr

namespace SaaAmp

/-- `phases`: the shapes with a second phase. -/
def phases (shape : BitVec 3) : Bool := shape == 4 || shape == 5

/-- `env`: which of the `levels` a phase takes. -/
def env (shape : BitVec 3) (phase : Bool) : BitVec 2 :=
  match shape.toNat, phase with
  | 0, _ => 0
  | 1, _ => 1
  | 2, false => 2
  | 3, false => 2
  | 4, false => 3
  | 4, true => 2
  | 5, false => 3
  | 5, true => 2
  | 6, false => 3
  | 7, false => 3
  | _, _ => 0

def levels (table : BitVec 2) (counter : BitVec 4) : BitVec 4 :=
  match table.toNat with
  | 0 => 0
  | 1 => 15
  | 2 => 15 - counter
  | _ => counter

def resolution (envreg : BitVec 8) : Bool := envreg.getLsbD 4

def enable (envreg : BitVec 8) : Bool := envreg.getLsbD 7

def mask (envreg : BitVec 8) : BitVec 4 := (BitVec.ofBool (resolution envreg)).setWidth 4

variable (s : SaaAmp)

/-- The registers that take the bits of the envelope register. -/
def loaded (envreg : BitVec 8) (counter : BitVec 4) : SaaAmp where
  shape := envreg.extractLsb' 1 3
  stereo := envreg.getLsbD 0
  counter := counter
  phase := false
  clock := envreg.getLsbD 5
  newData := false

/-- A pulse of the clock that the envelope goes by. -/
def pulse (i : SaaAmpIn) : Bool := if s.clock then i.wrAddr else i.pulseEnvelope

def step (i : SaaAmpIn) : SaaAmp :=
  if i.rst || !enable i.envreg then loaded i.envreg 0
  else
    let next := s.counter + (BitVec.ofBool (resolution i.envreg)).setWidth 4 + 1
    let pending := { s with newData := s.newData || i.wrData }
    if s.pulse i then
      if s.counter ||| mask i.envreg == 15 then
        if phases s.shape ≤ s.phase then
          let last := if s.shape.getLsbD 0 then next else 15
          if s.newData || s.shape.getLsbD 0 then loaded i.envreg (if s.newData then 0 else last)
          else { pending with counter := last }
        else { pending with counter := next, phase := true }
      else { pending with counter := next }
    else pending

def envL (envreg : BitVec 8) : BitVec 4 := levels (env s.shape s.phase) s.counter &&& ~~~(mask envreg)

def envR (envreg : BitVec 8) : BitVec 4 :=
  if s.stereo then (15 &&& ~~~(mask envreg)) - s.envL envreg else s.envL envreg

/-- `outmix`: the high bit and the low one. -/
def outmix (mixmode : BitVec 2) (tone noise : Bool) : Bool × Bool :=
  match mixmode.toNat with
  | 0 => (false, false)
  | 1 => (tone, false)
  | 2 => (noise, false)
  | _ => (tone && !noise, tone && noise)

def volMix (vol : BitVec 4) (enable low : Bool) : BitVec 9 :=
  (vol.extractLsb' 1 3 ++ BitVec.ofBool (vol.getLsbD 0 && !enable) ++ 0#5) >>> low.toNat

/-- `saa1099_mul_env` -/
def mulEnv (vol : BitVec 5) (env : BitVec 4) : BitVec 9 :=
  (if env.getLsbD 0 then vol.setWidth 9 else 0) + (if env.getLsbD 1 then (vol ++ 0#1).setWidth 9 else 0) +
    (if env.getLsbD 2 then (vol ++ 0#2).setWidth 9 else 0) + (if env.getLsbD 3 then (vol ++ 0#3).setWidth 9 else 0)

/-- One side of a channel. -/
def side (enable : Bool) (outmix : Bool × Bool) (vol env : BitVec 4) : BitVec 9 :=
  let mixed := volMix vol enable outmix.2
  match enable, outmix with
  | true, (false, _) => mulEnv (mixed.extractLsb' 4 5) env
  | false, (false, true) => mixed
  | false, (true, false) => mixed
  | _, _ => 0

def outL (envreg vol : BitVec 8) (mixmode : BitVec 2) (tone noise : Bool) : BitVec 9 :=
  side (enable envreg) (outmix mixmode tone noise) (vol.extractLsb' 0 4) (s.envL envreg)

def outR (envreg vol : BitVec 8) (mixmode : BitVec 2) (tone noise : Bool) : BitVec 9 :=
  side (enable envreg) (outmix mixmode tone noise) (vol.extractLsb' 4 4) (s.envR envreg)

end SaaAmp

/-! ## Triplets -/

structure SaaTriplet where
  tone : Fin 3 → SaaTone
  noise : SaaNoise
  amp : Fin 3 → SaaAmp
  /-- `out[10:0]` and `out[21:11]` -/
  outL : BitVec 11
  outR : BitVec 11

structure SaaTripletIn where
  rst : Bool
  ce : Bool
  vol : Fin 3 → BitVec 8
  env : BitVec 8
  freq : Fin 3 → BitVec 8
  octave : Fin 3 → BitVec 3
  freqEn : BitVec 3
  noiseEn : BitVec 3
  noiseFreq : BitVec 2
  wrAddr : Bool
  wrData : Bool

namespace SaaTriplet

variable (s : SaaTriplet) (i : SaaTripletIn)

/-- The register of the envelope, which the third channel has. -/
def envreg (k : Fin 3) : BitVec 8 := if k = 2 then i.env else 0

def mixmode (k : Fin 3) : BitVec 2 :=
  BitVec.ofBool (i.noiseEn.getLsbD k) ++ BitVec.ofBool (i.freqEn.getLsbD k)

def ampIn (k : Fin 3) : SaaAmpIn := ⟨i.rst, envreg i k, i.wrAddr, i.wrData, (s.tone 1).pulse⟩

def channelL (k : Fin 3) : BitVec 9 :=
  (s.amp k).outL (envreg i k) (i.vol k) (mixmode i k) (s.tone k).out s.noise.out

def channelR (k : Fin 3) : BitVec 9 :=
  (s.amp k).outR (envreg i k) (i.vol k) (mixmode i k) (s.tone k).out s.noise.out

def step : SaaTriplet where
  tone := fun k => (s.tone k).step i.rst i.ce (i.octave k) (i.freq k)
  noise := s.noise.step i.rst i.ce (s.tone 0).pulse i.noiseFreq
  amp := fun k => (s.amp k).step (s.ampIn i k)
  outL := if i.rst then 0
    else (s.channelL i 0).setWidth 11 + (s.channelL i 1).setWidth 11 + (s.channelL i 2).setWidth 11
  outR := if i.rst then 0
    else (s.channelR i 0).setWidth 11 + (s.channelR i 1).setWidth 11 + (s.channelR i 2).setWidth 11

end SaaTriplet

/-! ## The chip -/

structure SaaRegs where
  amplit : Fin 6 → BitVec 8
  freq : Fin 6 → BitVec 8
  oct10 : BitVec 8
  oct32 : BitVec 8
  oct54 : BitVec 8
  freqenable : BitVec 8
  noiseenable : BitVec 8
  noisegen : BitVec 8
  envelope0 : BitVec 8
  envelope1 : BitVec 8
  ctrl : BitVec 8

namespace SaaRegs

def reset : SaaRegs := ⟨fun _ => 0, fun _ => 0, 0, 0, 0, 0, 0, 0, 0, 0, 0⟩

def store (g : SaaRegs) (addr : BitVec 5) (din : BitVec 8) : SaaRegs :=
  match addr.toNat with
  | 0x00 => { g with amplit := Function.update g.amplit 0 din }
  | 0x01 => { g with amplit := Function.update g.amplit 1 din }
  | 0x02 => { g with amplit := Function.update g.amplit 2 din }
  | 0x03 => { g with amplit := Function.update g.amplit 3 din }
  | 0x04 => { g with amplit := Function.update g.amplit 4 din }
  | 0x05 => { g with amplit := Function.update g.amplit 5 din }
  | 0x08 => { g with freq := Function.update g.freq 0 din }
  | 0x09 => { g with freq := Function.update g.freq 1 din }
  | 0x0A => { g with freq := Function.update g.freq 2 din }
  | 0x0B => { g with freq := Function.update g.freq 3 din }
  | 0x0C => { g with freq := Function.update g.freq 4 din }
  | 0x0D => { g with freq := Function.update g.freq 5 din }
  | 0x10 => { g with oct10 := din }
  | 0x11 => { g with oct32 := din }
  | 0x12 => { g with oct54 := din }
  | 0x14 => { g with freqenable := din }
  | 0x15 => { g with noiseenable := din }
  | 0x16 => { g with noisegen := din }
  | 0x18 => { g with envelope0 := din }
  | 0x19 => { g with envelope1 := din }
  | 0x1C => { g with ctrl := din }
  | _ => g

end SaaRegs

/-- `saa1099_output_mixer` -/
structure SaaOutput where
  ced : Bool
  out : BitVec 8
deriving DecidableEq, Repr

def SaaOutput.step (s : SaaOutput) (ce en : Bool) (in0 in1 : BitVec 11) : SaaOutput where
  ced := ce
  out := if s.ced then if !en then 0 else (91#18 * (in0.setWidth 18 + in1.setWidth 18)).extractLsb' 10 8 else s.out

structure Saa1099 where
  regs : SaaRegs
  addr : BitVec 5
  oldWr : Bool
  wr : Bool
  top : SaaTriplet
  bottom : SaaTriplet
  outmixL : SaaOutput
  outmixR : SaaOutput

structure SaaIn where
  ce : Bool
  rstN : Bool
  csN : Bool
  a0 : Bool
  wrN : Bool
  din : BitVec 8

namespace Saa1099

variable (s : Saa1099) (i : SaaIn)

def rst : Bool := !i.rstN || s.regs.ctrl.getLsbD 1

/-- A write of the processor begins. -/
def writes : Bool := i.rstN && (!i.csN && s.oldWr && !i.wrN)

def topIn : SaaTripletIn where
  rst := s.rst i
  ce := i.ce
  vol := ![s.regs.amplit 0, s.regs.amplit 1, s.regs.amplit 2]
  env := s.regs.envelope0
  freq := ![s.regs.freq 0, s.regs.freq 1, s.regs.freq 2]
  octave := ![s.regs.oct10.extractLsb' 0 3, s.regs.oct10.extractLsb' 4 3, s.regs.oct32.extractLsb' 0 3]
  freqEn := s.regs.freqenable.extractLsb' 0 3
  noiseEn := s.regs.noiseenable.extractLsb' 0 3
  noiseFreq := s.regs.noisegen.extractLsb' 0 2
  wrAddr := s.wr && i.a0 && i.din.extractLsb' 0 5 == 0x18
  wrData := s.wr && !i.a0 && s.addr == 0x18

def bottomIn : SaaTripletIn where
  rst := s.rst i
  ce := i.ce
  vol := ![s.regs.amplit 3, s.regs.amplit 4, s.regs.amplit 5]
  env := s.regs.envelope1
  freq := ![s.regs.freq 3, s.regs.freq 4, s.regs.freq 5]
  octave := ![s.regs.oct32.extractLsb' 4 3, s.regs.oct54.extractLsb' 0 3, s.regs.oct54.extractLsb' 4 3]
  freqEn := s.regs.freqenable.extractLsb' 3 3
  noiseEn := s.regs.noiseenable.extractLsb' 3 3
  noiseFreq := s.regs.noisegen.extractLsb' 4 2
  wrAddr := s.wr && i.a0 && i.din.extractLsb' 0 5 == 0x19
  wrData := s.wr && !i.a0 && s.addr == 0x19

def step : Saa1099 where
  regs := if !i.rstN then SaaRegs.reset else if s.writes i && !i.a0 then s.regs.store s.addr i.din else s.regs
  addr := if !i.rstN then 0 else if s.writes i && i.a0 then i.din.extractLsb' 0 5 else s.addr
  oldWr := i.wrN
  wr := s.writes i
  top := s.top.step (s.topIn i)
  bottom := s.bottom.step (s.bottomIn i)
  outmixL := s.outmixL.step i.ce (s.regs.ctrl.getLsbD 0) s.top.outL s.bottom.outL
  outmixR := s.outmixR.step i.ce (s.regs.ctrl.getLsbD 0) s.top.outR s.bottom.outR

end Saa1099

end Z486.Sound
