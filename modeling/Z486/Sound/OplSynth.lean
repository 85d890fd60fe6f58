/-
The synthesizer that the operators of the OPL3 are: the operators take their turns one after the other, and each turn
takes its operator a sample on at once. What an operator plays modulates the operator three turns later, and itself a
sample later.
-/
import Z486.Sound.OplTurns

namespace Z486.Sound

open Clocked Opl

/-- What is kept of an operator's note from sample to sample. -/
structure OplVoice where
  state : OplEgState
  env : BitVec 9
  phase : BitVec 20

@[ext]
structure OplSynth where
  voice : OplSlot → OplVoice
  /-- What an operator played in its last two samples, the last one first. -/
  feedback : OplSlot → BitVec 13 × BitVec 13
  timer : EgTimer
  tremolo : BitVec 14
  vibrato : BitVec 13
  rand : BitVec 24
  hhFriend : BitVec 10
  tcFriend : BitVec 10

/-- What is given to the operator whose turn it is. -/
structure OplGiven where
  globals : OplGlobals
  params : OplParams
  /-- The tremolo's switch, which is the next operator's. -/
  am : Bool

namespace OplVoice

variable (v : OplVoice) (x : OplSlot) (g : OplGlobals) (p : OplParams)

def reset : Bool := egReset (keyOn g x p) v.state

def rate : BitVec 7 := Opl.rate (ks g.nts p) (requestedRate p (keyOn g x p) v.state)

def shift (timer : EgTimer) : BitVec 2 :=
  envShift (requestedRate p (keyOn g x p) v.state != 0) (v.rate x g p) timer

def next (timer : EgTimer) (vibrato : BitVec 13) : OplVoice where
  state := nextState v.state v.env (v.reset x g p) (keyOn g x p) p.sl
  env :=
    envIntPre v.state v.env (v.reset x g p) (rateHi (v.rate x g p)) +
      egInc v.state v.env (v.reset x g p) (keyOn g x p) p.sl (rateHi (v.rate x g p)) (v.shift x g p timer)
  phase :=
    if v.reset x g p then 0
    else v.phase + phaseInc p.vib (postMult (preMult p.fnum p.block) (multiplier p.mult)) (vibVal p.fnum g.dvb vibrato)

/-- The level of the envelope. -/
def level (am : Bool) (tremolo : BitVec 14) : BitVec 11 :=
  finalEnv v.env p.tl (kslAdd p.ksl (kslRom ((p.fnum >>> 6).setWidth 4)) (kslBlock p.block)) am (amVal g.dam tremolo)

end OplVoice

namespace Opl

/-- The modulation of an operator, by itself or by what is ready. -/
def modulated (x : OplSlot) (g : OplGlobals) (p : OplParams) (feedback : BitVec 13 × BitVec 13) (ready : BitVec 13) :
    BitVec 13 :=
  if useFeedback g x then feedbackResult p.fb feedback
  else modulation g.connectionSel g.ryt x p.cnt0 p.cnt1 ready

/-- The wave of an operator at a phase and a level. -/
def wave (ws : BitVec 3) (phase : BitVec 10) (level : BitVec 11) : BitVec 13 :=
  let gain := postGain (preGain ws phase (logSine (theta ws phase))) (level.setWidth 14 <<< 3)
  out (exp (~~~(gain.setWidth 8))) (Opl.level gain) (neg ws phase)

end Opl

/-- The operator whose output modulates this one. -/
def OplSlot.modulator (x : OplSlot) : OplSlot := ⟨x.bank, x.op - 3⟩

namespace OplSynth

variable (s : OplSynth) (x : OplSlot) (i : OplGiven)

def powerUp : OplSynth where
  voice := fun _ => ⟨.release, 511, 0⟩
  feedback := fun _ => (0, 0)
  timer := ⟨0, false, 0, 0⟩
  tremolo := 0
  vibrato := 0
  rand := 1
  hhFriend := 0
  tcFriend := 0

/-- The low-frequency oscillators and the noise, as a turn begins. -/
def tick : OplSynth :=
  { s with
    tremolo := if x = .first then tremoloNext s.tremolo else s.tremolo
    vibrato := s.vibrato + 1
    rand := if x = .first then randNext s.rand else s.rand }

/-- What the operator plays. -/
def plays : BitVec 13 :=
  wave (wsPostOpl i.globals.isNew i.params.ws)
    (finalPhase
      (rhythmPhase (opType i.globals x) (phaseShifted (s.voice x).phase) s.hhFriend s.tcFriend (s.tick x).rand)
      (modulated x i.globals i.params (s.feedback x) (s.feedback x.modulator).1))
    ((s.voice x).level i.globals i.params i.am (s.tick x).tremolo)

/-- A turn. -/
def play : OplSynth where
  voice := Function.update s.voice x ((s.voice x).next x i.globals i.params s.timer (s.tick x).vibrato)
  feedback := Function.update s.feedback x (s.plays x i, (s.feedback x).1)
  timer := if x = .last then s.timer.next else s.timer
  tremolo := (s.tick x).tremolo
  vibrato := (s.tick x).vibrato
  rand := (s.tick x).rand
  hhFriend := if x = ⟨false, 13⟩ then phaseShifted (s.voice x).phase else s.hhFriend
  tcFriend := if x = ⟨false, 17⟩ then phaseShifted (s.voice x).phase else s.tcFriend

/-- What an operator has played is kept. -/
theorem feedback_play : (s.play x i).feedback x = (s.plays x i, (s.feedback x).1) := Function.update_self ..

end OplSynth

end Z486.Sound
