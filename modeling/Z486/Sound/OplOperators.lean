/-
The operators of the OPL3 (src/soc/sound/opl3: clk_div.sv, control_operators.sv, operator.sv and the modules in it): one
pipeline of six stages that all 36 operators go through in turn once a sample, two clocks apart. The copies that the
modules keep of the same delayed signals are one here. The register memories of control_operators.sv are inputs: what
they hold for each operator in each clock.
-/
import Mathlib.Logic.Function.Basic
import Z486.Sound.OplVoice

namespace Z486.Sound

open Opl

/-! ## Turns -/

/-- clk_div.sv, and the counters of control_operators.sv. -/
structure OplSequencer where
  counter : BitVec 9
  clkEn : Bool
  state : BitVec 6
  delayCounter : BitVec 2
deriving DecidableEq, Repr

namespace OplSequencer

variable (s : OplSequencer)

def bankNum : Bool := decide (18 < s.state)

def opNum : BitVec 5 :=
  if s.state = 0 then 0
  else if 18 < s.state then (s.state - 18 - 1).setWidth 5
  else (s.state - 1).setWidth 5

def slot : OplSlot := ⟨s.bankNum, s.opNum⟩

def opSampleClkEn : Bool := s.state != 0 && s.delayCounter == 0

def nextState : BitVec 6 :=
  if s.state = 0 then if s.clkEn then 1 else 0
  else if s.delayCounter = 1 then if s.state = 36 then 0 else s.state + 1
  else s.state

def step : OplSequencer where
  counter := if s.counter = 494 - 1 then 0 else s.counter + 1
  clkEn := s.counter == 494 - 1
  state := s.nextState
  delayCounter :=
    if s.nextState ≠ s.state then 0
    else if s.delayCounter = 1 then 0
    else s.delayCounter + 1

/-- The operator whose turn begins in this clock. -/
def visit : Option OplSlot := if s.opSampleClkEn then some s.slot else none

end OplSequencer

/-! ## Stages -/

/-- pipeline_sr.sv -/
def pipelineSr {α : Type} (start : Nat) (x : α) (out : Nat → α) (i : Nat) : α := if i = start then x else out (i - 1)

/-- The operator that is in a stage, if it is one's turn. -/
structure OplTag where
  en : Bool
  slot : OplSlot
deriving DecidableEq, Repr

def OplTag.visit (x : OplTag) : Option OplSlot := if x.en then some x.slot else none

/-- A write of mem_multi_bank.sv. -/
def OplTag.write {α : Type} (x : OplTag) (mem : OplSlot → α) (dia : α) : OplSlot → α :=
  if x.en then Function.update mem x.slot dia else mem

/-- `dob_p1` of the banks of mem_multi_bank.sv. -/
def OplTag.read {α : Type} (x : OplTag) (dob : Bool → α) (word : α) : Bool → α :=
  if x.en then Function.update dob x.slot.bank word else dob

/-- calc_envelope_shift.sv -/
structure OplEnvelopeShift where
  timer : EgTimer
  rateP1 : BitVec 7
  requestedRateNotZeroP1 : Bool
  rateHiP2 : BitVec 4
  envShiftP2 : BitVec 2

def OplEnvelopeShift.step (s : OplEnvelopeShift) (last : Bool) (ks requested : BitVec 4) : OplEnvelopeShift where
  timer := if last then s.timer.next else s.timer
  rateP1 := rate ks requested
  requestedRateNotZeroP1 := requested != 0
  rateHiP2 := rateHi s.rateP1
  envShiftP2 := envShift s.requestedRateNotZeroP1 s.rateP1 s.timer

/-- ksl_add_rom.sv -/
structure OplKslAdd where
  romOutP1 : BitVec 7
  tmp0P1 : BitVec 6
  kslP1 : BitVec 2
  kslAddP2 : BitVec 8

def OplKslAdd.step (s : OplKslAdd) (p : OplParams) : OplKslAdd where
  romOutP1 := kslRom ((p.fnum >>> 6).setWidth 4)
  tmp0P1 := kslBlock p.block
  kslP1 := p.ksl
  kslAddP2 := kslAdd s.kslP1 s.romOutP1 s.tmp0P1

/-- tremolo.sv -/
structure OplTremolo where
  indexP1 : BitVec 14
  damP1 : Bool
  amValP2 : BitVec 6

def OplTremolo.step (s : OplTremolo) (first dam : Bool) : OplTremolo where
  indexP1 := if first then tremoloNext s.indexP1 else s.indexP1
  damP1 := dam
  amValP2 := amVal s.damP1 s.indexP1

/-- envelope_generator.sv -/
structure OplEnvelope where
  stateMem : OplSlot → OplEgState
  envIntMem : OplSlot → BitVec 9
  stateP1 : OplEgState
  stateP2 : OplEgState
  stateP3 : OplEgState
  envIntNewP3 : BitVec 9
  envP3 : BitVec 11
  tlP : Nat → BitVec 6
  slP : Nat → BitVec 4
  envIntP : Nat → BitVec 9
  keyOnP : Nat → Bool
  egResetP : Nat → Bool
  shift : OplEnvelopeShift
  ksl : OplKslAdd
  tremolo : OplTremolo

/-- The first operator and the last in a sample. -/
def OplSlot.first : OplSlot := ⟨false, 0⟩

def OplSlot.last : OplSlot := ⟨true, 17⟩

namespace OplEnvelope

variable (s : OplEnvelope)

def newP2 : BitVec 9 :=
  envIntPre s.stateP2 (s.envIntP 2) (s.egResetP 2) s.shift.rateHiP2 +
    egInc s.stateP2 (s.envIntP 2) (s.egResetP 2) (s.keyOnP 2) (s.slP 2) s.shift.rateHiP2 s.shift.envShiftP2

def step (now : OplTag) (p3 : OplTag) (g : OplGlobals) (p : OplParams) : OplEnvelope where
  stateMem := p3.write s.stateMem s.stateP3
  envIntMem := p3.write s.envIntMem s.envIntNewP3
  stateP1 := s.stateMem now.slot
  stateP2 := s.stateP1
  stateP3 := nextState s.stateP2 (s.envIntP 2) (s.egResetP 2) (s.keyOnP 2) (s.slP 2)
  envIntNewP3 := s.newP2
  -- the tremolo is that of the operator whose turn it is, two stages on
  envP3 := finalEnv (s.envIntP 2) (s.tlP 2) s.ksl.kslAddP2 p.am s.tremolo.amValP2
  tlP := pipelineSr 1 p.tl s.tlP
  slP := pipelineSr 1 p.sl s.slP
  envIntP := pipelineSr 1 (s.envIntMem now.slot) s.envIntP
  keyOnP := pipelineSr 1 (keyOn g now.slot p) s.keyOnP
  egResetP := pipelineSr 1 (egReset (keyOn g now.slot p) (s.stateMem now.slot)) s.egResetP
  shift := s.shift.step (p3.en && p3.slot == .last) (ks g.nts p)
    (requestedRate p (keyOn g now.slot p) (s.stateMem now.slot))
  ksl := s.ksl.step p
  tremolo := s.tremolo.step (now.en && now.slot == .first) g.dam

end OplEnvelope

/-- calc_phase_inc.sv and vibrato.sv -/
structure OplPhaseInc where
  preMultP1 : BitVec 17
  multiplierP1 : BitVec 5
  postMultP2 : BitVec 20
  vibP : Nat → Bool
  vibratoIndexP1 : BitVec 13
  fnumP1 : BitVec 10
  dvbP1 : Bool
  vibValP2 : BitVec 3

namespace OplPhaseInc

variable (s : OplPhaseInc)

def phaseIncP2 : BitVec 20 := phaseInc (s.vibP 2) s.postMultP2 s.vibValP2

def step (en : Bool) (dvb : Bool) (p : OplParams) : OplPhaseInc where
  preMultP1 := preMult p.fnum p.block
  multiplierP1 := multiplier p.mult
  postMultP2 := postMult s.preMultP1 s.multiplierP1
  vibP := pipelineSr 1 p.vib s.vibP
  vibratoIndexP1 := if en then s.vibratoIndexP1 + 1 else s.vibratoIndexP1
  fnumP1 := p.fnum
  dvbP1 := dvb
  vibValP2 := vibVal s.fnumP1 s.dvbP1 s.vibratoIndexP1

end OplPhaseInc

/-- calc_rhythm_phase.sv -/
structure OplRhythm where
  hhPhaseFriend : BitVec 10
  tcPhaseFriend : BitVec 10
  rhythmPhaseP3 : BitVec 10
  randNum : BitVec 24

def OplRhythm.step (s : OplRhythm) (first : Bool) (p2 : OplTag) (type : OplOpType) (phase : BitVec 10) : OplRhythm where
  hhPhaseFriend := if p2.en && p2.slot == ⟨false, 13⟩ then phase else s.hhPhaseFriend
  tcPhaseFriend := if p2.en && p2.slot == ⟨false, 17⟩ then phase else s.tcPhaseFriend
  rhythmPhaseP3 := rhythmPhase type phase s.hhPhaseFriend s.tcPhaseFriend s.randNum
  randNum := if first then randNext s.randNum else s.randNum

/-- phase_generator.sv -/
structure OplPhase where
  phaseAccMem : OplSlot → BitVec 20
  dobP1 : Bool → BitVec 20
  dobP2 : Bool → BitVec 20
  phaseAccP3 : BitVec 20
  opTypeP : Nat → OplOpType
  wsPostOplP : Nat → BitVec 3
  modulationP : Nat → BitVec 13
  finalPhaseP : Nat → BitVec 10
  logSinOutP4 : BitVec 12
  envShiftedP4 : BitVec 14
  levelP5 : BitVec 13
  expOutP5 : BitVec 10
  negP5 : BitVec 13
  outP6 : BitVec 13
  rhythm : OplRhythm

namespace OplPhase

variable (s : OplPhase)

def finalPhaseP3 : BitVec 10 := finalPhase s.rhythm.rhythmPhaseP3 (s.modulationP 3)

def postGainP4 : BitVec 15 :=
  postGain (preGain (s.wsPostOplP 4) (s.finalPhaseP 4) s.logSinOutP4) s.envShiftedP4

def step (now p2 p3 : OplTag) (type : OplOpType) (ws : BitVec 3) (modulationP1 : BitVec 13) (phaseIncP2 : BitVec 20)
    (pgResetP2 : Bool) (envP3 : BitVec 11) : OplPhase where
  phaseAccMem := p3.write s.phaseAccMem s.phaseAccP3
  dobP1 := now.read s.dobP1 (s.phaseAccMem now.slot)
  dobP2 := s.dobP1
  phaseAccP3 := if pgResetP2 then 0 else s.dobP2 p2.slot.bank + phaseIncP2
  opTypeP := pipelineSr 1 type s.opTypeP
  wsPostOplP := pipelineSr 1 ws s.wsPostOplP
  modulationP := pipelineSr 2 modulationP1 s.modulationP
  finalPhaseP := pipelineSr 4 s.finalPhaseP3 s.finalPhaseP
  logSinOutP4 := logSine (theta (s.wsPostOplP 3) s.finalPhaseP3)
  envShiftedP4 := envP3.setWidth 14 <<< 3
  levelP5 := level s.postGainP4
  expOutP5 := exp (~~~(s.postGainP4.setWidth 8))
  negP5 := neg (s.wsPostOplP 4) (s.finalPhaseP 4)
  outP6 := out s.expOutP5 s.levelP5 s.negP5
  rhythm := s.rhythm.step (now.en && now.slot == .first) p2 (s.opTypeP 2) (phaseShifted (s.dobP2 p2.slot.bank))

end OplPhase

/-! ## All operators -/

structure OplOps where
  seq : OplSequencer
  tag : Nat → OplTag
  env : OplEnvelope
  inc : OplPhaseInc
  phase : OplPhase
  feedbackMem : OplSlot → BitVec 13 × BitVec 13
  feedbackDob : Bool → BitVec 13 × BitVec 13
  feedbackP : Nat → BitVec 13 × BitVec 13
  useFeedbackP1 : Bool
  connectionSelP1 : BitVec 6
  rytP1 : Bool
  fbCnt0Dob : Bool → BitVec 3 × Bool
  cnt1Dob : Bool → Bool
  modulationOutP1 : BitVec 13
  opsDonePulse : Bool

/-- What the operators are given in a clock. -/
structure OplIn where
  globals : OplGlobals
  params : OplSlot → OplParams

namespace OplOps

variable (s : OplOps)

def now : OplTag := ⟨s.seq.opSampleClkEn, s.seq.slot⟩

/-- `modulation_p1` of control_operators.sv -/
def modulationP1 : BitVec 13 :=
  modulation s.connectionSelP1 s.rytP1 (s.tag 1).slot (s.fbCnt0Dob (s.tag 1).slot.bank).2
    (s.cnt1Dob (s.tag 1).slot.bank) s.modulationOutP1

def feedbackResultP1 : BitVec 13 :=
  feedbackResult (s.fbCnt0Dob (s.tag 1).slot.bank).1 (s.feedbackDob (s.tag 1).slot.bank)

def step (i : OplIn) : OplOps :=
  let p := i.params s.now.slot
  { seq := s.seq.step
    tag := pipelineSr 1 s.now s.tag
    env := s.env.step s.now (s.tag 3) i.globals p
    inc := s.inc.step s.now.en i.globals.dvb p
    phase := s.phase.step s.now (s.tag 2) (s.tag 3) (opType i.globals s.now.slot) (wsPostOpl i.globals.isNew p.ws)
      (if s.useFeedbackP1 then s.feedbackResultP1 else s.modulationP1) s.inc.phaseIncP2 (s.env.egResetP 2) s.env.envP3
    feedbackMem := (s.tag 6).write s.feedbackMem (s.phase.outP6, (s.feedbackP 6).1)
    feedbackDob := s.now.read s.feedbackDob (s.feedbackMem s.now.slot)
    feedbackP := pipelineSr 2 (s.feedbackDob (s.tag 1).slot.bank) s.feedbackP
    useFeedbackP1 := useFeedback i.globals s.now.slot
    connectionSelP1 := i.globals.connectionSel
    rytP1 := i.globals.ryt
    fbCnt0Dob := s.now.read s.fbCnt0Dob (p.fb, p.cnt0)
    cnt1Dob := s.now.read s.cnt1Dob p.cnt1
    modulationOutP1 := s.phase.outP6
    opsDonePulse := (s.tag 6).en && (s.tag 6).slot == .last }

/-- `operator_out` -/
def operatorOut : Option (OplSlot × BitVec 13) := if (s.tag 6).en then some ((s.tag 6).slot, s.phase.outP6) else none

end OplOps

end Z486.Sound
