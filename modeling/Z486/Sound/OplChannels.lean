/-
The channels of the OPL3 (src/soc/sound/opl3/channels.sv, and dac_prep.sv without a clock of its own for the DAC): the
outputs of the operators are kept in a memory as they come, and when the last one of a sample is there, the channels of two
operators are added up one after the other, then those of four, and the sums are clamped. The memory of the channels'
registers is an input: what it holds in each clock.
-/
import Z486.Sound.OplOperators

namespace Z486.Sound

/-- The registers of a channel: its outputs, and whether its first operator is heard. -/
structure OplChannel where
  cha : Bool
  chb : Bool
  chc : Bool
  chd : Bool
  cnt : Bool

inductive OplMixState
  | idle
  | load2OpSecond0 | load2OpSecond1 | load2OpFirst
  | load4OpThird0 | load4OpThird1 | load4OpSecond | load4OpFirst
  | done
deriving DecidableEq, Repr

/-- `self` of channels.sv -/
structure OplMixSelf where
  cntSecond : Bool
  operatorOutThird : BitVec 13
  operatorOutSecond : BitVec 13
  bankNum : Bool
  opNum : BitVec 5
  channelNum : BitVec 4
  channelLAcc : BitVec 20
  channelRAcc : BitVec 20

structure OplMixer where
  state : OplMixState
  self : OplMixSelf
  mem : OplSlot → BitVec 13
  dob : Bool → BitVec 13
  bankP1 : Bool
  channelL : BitVec 16
  channelR : BitVec 16
  channelValid : Bool
  sampleL : BitVec 16
  sampleR : BitVec 16
  sampleValid : Bool

structure OplMixIn where
  sampleClkEn : Bool
  opsDonePulse : Bool
  operatorOut : Option (OplSlot × BitVec 13)
  globals : OplGlobals
  channels : Bool → BitVec 4 → OplChannel

namespace Opl

/-- An output of a channel of two operators is added. -/
def add2 (g : OplGlobals) (bank : Bool) (channel : BitVec 4) (on : Bool) : Bool :=
  if channel < 3 then
    if !bank then !g.isNew || (on && !g.connectionSel.getLsbD channel.toNat)
    else on && !g.connectionSel.getLsbD (channel.toNat + 3)
  else if channel < 6 then
    if !bank then !g.isNew || (on && !g.connectionSel.getLsbD (channel.toNat - 3))
    else on && !g.connectionSel.getLsbD channel.toNat
  else (!bank && !g.isNew) || on

/-- An output of a channel of four operators is added. -/
def add4 (g : OplGlobals) (bank : Bool) (channel : BitVec 4) (on : Bool) : Bool :=
  on && g.connectionSel.getLsbD (if !bank then channel.toNat else channel.toNat + 3)

/-- `channel_out` of two operators -/
def channelOut2 (ryt bank : Bool) (channel : BitVec 4) (cnt : Bool) (first second : BitVec 13) : BitVec 15 :=
  if ryt && !bank && channel == 6 then second.signExtend 15 * 2
  else if ryt && !bank && (channel == 7 || channel == 8) then (first.signExtend 15 + second.signExtend 15) * 2
  else if cnt then first.signExtend 15 + second.signExtend 15
  else second.signExtend 15

/-- `channel_out` of four operators, with the one that was read last. -/
def channelOut4 (cnt cntSecond : Bool) (read second third : BitVec 13) : BitVec 15 :=
  if !cnt && !cntSecond then third.signExtend 15
  else if cnt && cntSecond then read.signExtend 15 + second.signExtend 15 + third.signExtend 15
  else read.signExtend 15 + third.signExtend 15

def accumulate (acc : BitVec 20) (one two : Bool) (out : BitVec 15) : BitVec 20 :=
  if one && two then acc + out.signExtend 20 * 2
  else if one || two then acc + out.signExtend 20
  else acc

def clampChannel (acc : BitVec 20) : BitVec 16 :=
  if 32767 < acc.toInt then 32767
  else if acc.toInt < -32768 then -32768
  else acc.setWidth 16

end Opl

open Opl

namespace OplMixSelf

variable (s : OplMixSelf)

def reset : OplMixSelf := ⟨false, 0, 0, false, 0, 0, 0, 0⟩

/-- `LOAD_2_OP_FIRST_AND_ACCUMULATE`: what is added. -/
def accumulate2 (g : OplGlobals) (c : OplChannel) (first : BitVec 13) : OplMixSelf :=
  { s with
    channelLAcc := accumulate s.channelLAcc (add2 g s.bankNum s.channelNum c.cha) (add2 g s.bankNum s.channelNum c.chc)
      (channelOut2 g.ryt s.bankNum s.channelNum c.cnt first s.operatorOutSecond)
    channelRAcc := accumulate s.channelRAcc (add2 g s.bankNum s.channelNum c.chb) (add2 g s.bankNum s.channelNum c.chd)
      (channelOut2 g.ryt s.bankNum s.channelNum c.cnt first s.operatorOutSecond) }

/-- `LOAD_2_OP_FIRST_AND_ACCUMULATE`: the next channel. -/
def next2 : OplMixSelf :=
  if s.channelNum = 9 - 1 then { s with opNum := 0, channelNum := 0, bankNum := !s.bankNum }
  else
    { s with
      opNum := if s.channelNum = 2 then 6 else if s.channelNum = 5 then 12 else s.opNum + 1
      channelNum := s.channelNum + 1 }

/-- `LOAD_4_OP_FIRST_AND_ACCUMULATE`: what is added. -/
def accumulate4 (g : OplGlobals) (c : OplChannel) (read : BitVec 13) : OplMixSelf :=
  { s with
    channelLAcc := accumulate s.channelLAcc (add4 g s.bankNum s.channelNum c.cha) (add4 g s.bankNum s.channelNum c.chc)
      (channelOut4 c.cnt s.cntSecond read s.operatorOutSecond s.operatorOutThird)
    channelRAcc := accumulate s.channelRAcc (add4 g s.bankNum s.channelNum c.chb) (add4 g s.bankNum s.channelNum c.chd)
      (channelOut4 c.cnt s.cntSecond read s.operatorOutSecond s.operatorOutThird) }

/-- `LOAD_4_OP_FIRST_AND_ACCUMULATE`: the next channel. -/
def next4 : OplMixSelf :=
  if s.channelNum = 2 then if s.bankNum then s else { s with channelNum := 0, bankNum := true }
  else { s with channelNum := s.channelNum + 1 }

end OplMixSelf

namespace OplMixer

variable (s : OplMixer)

def powerUp : OplMixer where
  state := .idle
  self := .reset
  mem := fun _ => 0
  dob := fun _ => 0
  bankP1 := false
  channelL := 0
  channelR := 0
  channelValid := false
  sampleL := 0
  sampleR := 0
  sampleValid := false

def operatorMemOut : BitVec 13 := s.dob s.bankP1

def nextState (opsDonePulse : Bool) : OplMixState :=
  match s.state with
  | .idle => if opsDonePulse then .load2OpSecond0 else .idle
  | .load2OpSecond0 => .load2OpSecond1
  | .load2OpSecond1 => .load2OpFirst
  | .load2OpFirst => if s.self.channelNum = 9 - 1 ∧ s.self.bankNum = true then .load4OpThird0 else .load2OpSecond0
  | .load4OpThird0 => .load4OpThird1
  | .load4OpThird1 => .load4OpSecond
  | .load4OpSecond => .load4OpFirst
  | .load4OpFirst => if s.self.channelNum = 2 ∧ s.self.bankNum = true then .done else .load4OpThird0
  | .done => .idle

/-- The registers of the channel that the state reads. -/
def channel (i : OplMixIn) : OplChannel :=
  match s.state with
  | .load2OpFirst => i.channels s.self.bankNum s.self.channelNum
  | .load4OpThird1 => i.channels s.self.bankNum (s.self.channelNum + 3)
  | .load4OpSecond => i.channels s.self.bankNum s.self.channelNum
  | .load4OpFirst => i.channels s.self.bankNum s.self.channelNum
  | _ => i.channels s.self.bankNum 0

/-- `op_mem_op_num`, when the memory is read. -/
def opMemRd (i : OplMixIn) : Option (BitVec 5) :=
  match s.state with
  | .load2OpSecond0 => some (s.self.opNum + 3)
  | .load2OpSecond1 => some s.self.opNum
  | .load4OpThird0 => some (s.self.channelNum.setWidth 5 + 9)
  | .load4OpThird1 => some (s.self.channelNum.setWidth 5 + 6)
  | .load4OpSecond =>
    some (if !(s.channel i).cnt && s.self.cntSecond then s.self.channelNum.setWidth 5 + 3
      else s.self.channelNum.setWidth 5)
  | _ => none

def nextSelf (i : OplMixIn) : OplMixSelf :=
  match s.state with
  | .load2OpSecond1 => { s.self with operatorOutSecond := s.operatorMemOut }
  | .load2OpFirst => (s.self.accumulate2 i.globals (s.channel i) s.operatorMemOut).next2
  | .load4OpThird1 => { s.self with operatorOutThird := s.operatorMemOut, cntSecond := (s.channel i).cnt }
  | .load4OpSecond => { s.self with operatorOutSecond := s.operatorMemOut }
  | .load4OpFirst => (s.self.accumulate4 i.globals (s.channel i) s.operatorMemOut).next4
  | .done => .reset
  | _ => s.self

variable {s} {i : OplMixIn}

theorem nextSelf_load2OpFirst (h : s.state = .load2OpFirst) : s.nextSelf i =
    (s.self.accumulate2 i.globals (i.channels s.self.bankNum s.self.channelNum) s.operatorMemOut).next2 := by
  unfold nextSelf channel
  rw [h]

theorem nextSelf_load4OpThird1 (h : s.state = .load4OpThird1) : s.nextSelf i =
    { s.self with
      operatorOutThird := s.operatorMemOut
      cntSecond := (i.channels s.self.bankNum (s.self.channelNum + 3)).cnt } := by
  unfold nextSelf channel
  rw [h]

theorem nextSelf_load4OpFirst (h : s.state = .load4OpFirst) : s.nextSelf i =
    (s.self.accumulate4 i.globals (i.channels s.self.bankNum s.self.channelNum) s.operatorMemOut).next4 := by
  unfold nextSelf channel
  rw [h]

variable (s)

def step (i : OplMixIn) : OplMixer where
  state := if i.sampleClkEn then .idle else s.nextState i.opsDonePulse
  self := if i.sampleClkEn then .reset else s.nextSelf i
  mem :=
    match i.operatorOut with
    | none => s.mem
    | some (x, v) => Function.update s.mem x v
  dob :=
    match s.opMemRd i with
    | none => s.dob
    | some op => Function.update s.dob s.self.bankNum (s.mem ⟨s.self.bankNum, op⟩)
  bankP1 := s.self.bankNum
  channelL := if s.state = .done then clampChannel s.self.channelLAcc else s.channelL
  channelR := if s.state = .done then clampChannel s.self.channelRAcc else s.channelR
  channelValid := s.state == .done
  sampleL := s.channelL
  sampleR := s.channelR
  sampleValid := s.channelValid

theorem step_mem_none (h : i.operatorOut = none) : (s.step i).mem = s.mem := by
  unfold step
  rw [h]

theorem step_mem_some {x : OplSlot} {v : BitVec 13} (h : i.operatorOut = some (x, v)) :
    (s.step i).mem = Function.update s.mem x v := by
  unfold step
  rw [h]

end OplMixer

end Z486.Sound
