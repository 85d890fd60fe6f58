/-
What an operator of the OPL3 computes in one visit (src/soc/sound/opl3: calc_envelope_shift.sv, envelope_generator.sv,
ksl_add_rom.sv, tremolo.sv, calc_phase_inc.sv, vibrato.sv, calc_rhythm_phase.sv, phase_generator.sv, operator.sv,
control_operators.sv, opl3_log_sine_lut.sv, opl3_exp_lut.sv): the functions between the registers of the pipeline.
-/
import Z486.Clocked.Run

namespace Z486.Sound

/-! ## Operators and their registers -/

structure OplSlot where
  bank : Bool
  op : BitVec 5
deriving DecidableEq, Repr

/-- What the register memories hold for an operator and its channel. -/
structure OplParams where
  am : Bool
  vib : Bool
  egt : Bool
  ksr : Bool
  mult : BitVec 4
  ksl : BitVec 2
  tl : BitVec 6
  ar : BitVec 4
  dr : BitVec 4
  sl : BitVec 4
  rr : BitVec 4
  ws : BitVec 3
  fnum : BitVec 10
  block : BitVec 3
  kon : Bool
  fb : BitVec 3
  cnt0 : Bool
  cnt1 : Bool

/-- The registers for all operators. -/
structure OplGlobals where
  connectionSel : BitVec 6
  isNew : Bool
  ryt : Bool
  nts : Bool
  dvb : Bool
  dam : Bool
  bd : Bool
  sd : Bool
  tom : Bool
  tc : Bool
  hh : Bool

inductive OplOpType
  | normal | bassDrum | hiHat | tomTom | snareDrum | topCymbal
deriving DecidableEq, Repr

inductive OplEgState
  | attack | decay | sustain | release
deriving DecidableEq, Repr

namespace Opl

/-- `op_type_p0` -/
def opType (g : OplGlobals) (x : OplSlot) : OplOpType :=
  if !x.bank && g.ryt then
    if x.op = 12 ∨ x.op = 15 then .bassDrum
    else if x.op = 13 then .hiHat
    else if x.op = 14 then .tomTom
    else if x.op = 16 then .snareDrum
    else if x.op = 17 then .topCymbal
    else .normal
  else .normal

/-- `key_on_p0` -/
def keyOn (g : OplGlobals) (x : OplSlot) (p : OplParams) : Bool :=
  match opType g x with
  | .normal => p.kon
  | .bassDrum => g.bd
  | .hiHat => g.hh
  | .tomTom => g.tom
  | .snareDrum => g.sd
  | .topCymbal => g.tc

/-! ## The rate of an envelope -/

def egReset (keyOn : Bool) (s : OplEgState) : Bool := keyOn && s == .release

def requestedRate (p : OplParams) (keyOn : Bool) (s : OplEgState) : BitVec 4 :=
  if egReset keyOn s then p.ar
  else
    match s with
    | .attack => p.ar
    | .decay => p.dr
    | .sustain => if !p.egt then p.rr else 0
    | .release => p.rr

/-- `ksv_p0`, `ks_p0` -/
def ks (nts : Bool) (p : OplParams) : BitVec 4 :=
  let split := if nts then p.fnum.getLsbD 8 else p.fnum.getLsbD 9
  let ksv := (p.block.setWidth 4 <<< 1) ||| (BitVec.ofBool split).setWidth 4
  if p.ksr then ksv else ksv >>> 2

def rate (ks requested : BitVec 4) : BitVec 7 := ks.setWidth 7 + (requested.setWidth 7 <<< 2)

def rateHi (rate : BitVec 7) : BitVec 4 :=
  if rate.getLsbD 6 then 0xF else (rate >>> 2).setWidth 4

def rateLo (rate : BitVec 7) : BitVec 2 := rate.setWidth 2

/-- `EG_INC_STEP`, from index 0 on. -/
def egIncStep (rateLo egTimerLo : BitVec 2) : Bool :=
  ([0b1110, 0b1010, 0b1000, 0b0000] : List (BitVec 4)).getD rateLo.toNat 0 |>.getLsbD egTimerLo.toNat

/-- The registers of calc_envelope_shift.sv that go on once a sample. -/
structure EgTimer where
  egTimer : BitVec 13
  egState : Bool
  egAdd : BitVec 4
  egTimerLo : BitVec 2
deriving DecidableEq, Repr

/-- The place after the lowest bit that is set. -/
def egAddNext (egTimer : BitVec 13) : BitVec 4 :=
  match (List.range 13).find? fun i => egTimer.getLsbD i with
  | some i => BitVec.ofNat 4 (i + 1)
  | none => 0

def EgTimer.next (t : EgTimer) : EgTimer :=
  if t.egState then
    { egTimer := t.egTimer + 1, egState := false, egAdd := egAddNext t.egTimer, egTimerLo := t.egTimer.setWidth 2 }
  else { t with egState := true }

/-- `env_shift_p2` -/
def envShift (requestedRateNotZero : Bool) (rate : BitVec 7) (t : EgTimer) : BitVec 2 :=
  if !requestedRateNotZero then 0
  else if rateHi rate < 12 then
    if t.egState then
      match (rateHi rate).toNat + t.egAdd.toNat with
      | 12 => 1
      | 13 => (BitVec.ofBool (rate.getLsbD 1)).setWidth 2
      | 14 => (BitVec.ofBool (rate.getLsbD 0)).setWidth 2
      | _ => 0
    else 0
  else
    let pre := ((rateHi rate).setWidth 2).setWidth 3 + (BitVec.ofBool (egIncStep (rateLo rate) t.egTimerLo)).setWidth 3
    if pre = 0 then (BitVec.ofBool t.egState).setWidth 2
    else if pre.getLsbD 2 then 3
    else pre.setWidth 2

/-! ## The envelope -/

/-- `eg_off_p2` -/
def egOff (env : BitVec 9) : Bool := env &&& 0x1F8 == 0x1F8

/-- `env_int_pre_p2` -/
def envIntPre (s : OplEgState) (env : BitVec 9) (reset : Bool) (rateHi : BitVec 4) : BitVec 9 :=
  if s != .attack && !reset && egOff env then 511
  else if reset && rateHi == 0xF then 0
  else env

def slIncreased (sl : BitVec 4) : BitVec 5 := if sl = 0xF then 0x1F else sl.setWidth 5

def sustained (env : BitVec 9) (sl : BitVec 4) : Bool := (env >>> 4).setWidth 5 == slIncreased sl

/-- The step of an envelope that goes down: `eg_inc_p2` of the states after the attack. -/
def fall (env : BitVec 9) (reset : Bool) (shift : BitVec 2) : BitVec 9 :=
  if !egOff env && !reset && 0 < shift then 1 <<< (shift.toNat - 1) else 0

/-- `eg_inc_p2` -/
def egInc (s : OplEgState) (env : BitVec 9) (reset keyOn : Bool) (sl rateHi : BitVec 4) (shift : BitVec 2) : BitVec 9 :=
  match s with
  | .attack =>
    if env = 0 then 0
    else if keyOn && 0 < shift && rateHi != 0xF then (~~~(env.setWidth 12) >>> (4 - shift.toNat)).setWidth 9
    else 0
  | .decay => if sustained env sl then 0 else fall env reset shift
  | .sustain => fall env reset shift
  | .release => fall env reset shift

/-- `next_state_p2` -/
def nextState (s : OplEgState) (env : BitVec 9) (reset keyOn : Bool) (sl : BitVec 4) : OplEgState :=
  if !keyOn then .release
  else if reset then .attack
  else
    match s with
    | .attack => if env = 0 then .decay else .attack
    | .decay => if sustained env sl then .sustain else .decay
    | .sustain => .sustain
    | .release => .release

/-! ## Levels -/

/-- `rom_out_p1` -/
def kslRom (fnumShifted : BitVec 4) : BitVec 7 :=
  ([0, 32, 40, 45, 48, 51, 53, 55, 56, 58, 59, 60, 61, 62, 63, 64] : List (BitVec 7)).getD fnumShifted.toNat 0

/-- `tmp0_p1` -/
def kslBlock (block : BitVec 3) : BitVec 6 := block.setWidth 6 - 8

/-- `ksl_add_p2` -/
def kslAdd (ksl : BitVec 2) (romOut : BitVec 7) (tmp0 : BitVec 6) : BitVec 8 :=
  let tmp1 : BitVec 8 := (romOut + (tmp0.setWidth 7 <<< 3)).signExtend 8
  if ksl = 0 ∨ tmp1.toInt ≤ 0 then 0
  else if ksl = 1 then tmp1 <<< 1
  else if ksl = 2 then tmp1
  else tmp1 <<< 2

def tremoloNext (index : BitVec 14) : BitVec 14 := if index = 13 * 1024 - 1 then 0 else index + 1

/-- `am_val_p2` -/
def amVal (dam : Bool) (index : BitVec 14) : BitVec 6 :=
  let tmp0 : BitVec 6 := (index >>> 8).setWidth 6
  let tmp1 := if 26 < tmp0 then 2 * 26 + ~~~tmp0 else tmp0
  if dam then tmp1 else tmp1 >>> 2

/-- `env_p3` -/
def finalEnv (env : BitVec 9) (tl : BitVec 6) (kslAdd : BitVec 8) (am : Bool) (amVal : BitVec 6) : BitVec 11 :=
  env.setWidth 11 + (tl.setWidth 8 <<< 2).setWidth 11 + kslAdd.setWidth 11 + if am then amVal.setWidth 11 else 0

/-! ## The phase -/

def preMult (fnum : BitVec 10) (block : BitVec 3) : BitVec 17 := (fnum.setWidth 17 <<< block.toNat) >>> 1

def multiplier (mult : BitVec 4) : BitVec 5 :=
  ([1, 2, 4, 6, 8, 10, 12, 14, 16, 18, 20, 20, 24, 24, 30, 30] : List (BitVec 5)).getD mult.toNat 0

def postMult (preMult : BitVec 17) (multiplier : BitVec 5) : BitVec 20 :=
  (preMult.setWidth 20 * multiplier.setWidth 20) >>> 1

/-- `vib_val_p2` -/
def vibVal (fnum : BitVec 10) (dvb : Bool) (index : BitVec 13) : BitVec 3 :=
  let delta0 : BitVec 3 := (fnum >>> 7).setWidth 3
  let delta1 := if index.getLsbD 10 && index.getLsbD 11 then delta0 >>> 1 else delta0
  let delta2 := if !dvb then delta1 >>> 1 else delta1
  if index.getLsbD 12 then ~~~delta2 else delta2

/-- `phase_inc_p2` -/
def phaseInc (vib : Bool) (postMult : BitVec 20) (vibVal : BitVec 3) : BitVec 20 :=
  if vib then postMult + vibVal.setWidth 20 else postMult

/-- `phase_acc_shifted_p2` -/
def phaseShifted (phase : BitVec 20) : BitVec 10 := (phase >>> 9).setWidth 10

def randNext (rand : BitVec 24) : BitVec 24 :=
  if rand.getLsbD 0 then (rand ^^^ 0x800302) >>> 1 else rand >>> 1

/-- `rm_xor_p2` -/
def rmXor (hh tc : BitVec 10) : Bool :=
  (hh.getLsbD 2 ^^ hh.getLsbD 7) || (hh.getLsbD 3 ^^ tc.getLsbD 5) || (tc.getLsbD 3 ^^ tc.getLsbD 5)

/-- `rhythm_phase_p3` -/
def rhythmPhase (type : OplOpType) (phase hhFriend tcFriend : BitVec 10) (rand : BitVec 24) : BitVec 10 :=
  let hh := if type = .hiHat then phase else hhFriend
  let tc := if type = .topCymbal then phase else tcFriend
  match type with
  | .hiHat =>
    ((BitVec.ofBool (rmXor hh tc)).setWidth 10 <<< 9) ||| if rmXor hh tc ^^ rand.getLsbD 0 then 0xD0 else 0x34
  | .snareDrum =>
    ((BitVec.ofBool (hh.getLsbD 8)).setWidth 10 <<< 9) |||
      ((BitVec.ofBool (hh.getLsbD 8 ^^ rand.getLsbD 0)).setWidth 10 <<< 8)
  | .topCymbal => ((BitVec.ofBool (rmXor hh tc)).setWidth 10 <<< 9) ||| 0x80
  | _ => phase

/-- `final_phase_p3` -/
def finalPhase (rhythmPhase : BitVec 10) (modulation : BitVec 13) : BitVec 10 := rhythmPhase + modulation.setWidth 10

/-! ## The waveform -/

/-- `ws_post_opl_p0` -/
def wsPostOpl (isNew : Bool) (ws : BitVec 3) : BitVec 3 :=
  BitVec.ofBool (ws.getLsbD 2 && isNew) ++ ws.extractLsb' 0 2

/-- `theta_p3` -/
def theta (ws : BitVec 3) (phase : BitVec 10) : BitVec 8 :=
  let low : BitVec 8 := phase.setWidth 8
  if ws < 3 then if phase.getLsbD 8 then low ^^^ 0xFF else low
  else if ws = 4 ∨ ws = 5 then if phase.getLsbD 7 then (low ^^^ 0xFF) <<< 1 else low <<< 1
  else low

def logSineTable : List Nat :=
  [2137, 1731, 1543, 1419, 1326, 1252, 1190, 1137, 1091, 1050, 1013, 979, 949, 920, 894, 869, 846, 825, 804, 785, 767,
   749, 732, 717, 701, 687, 672, 659, 646, 633, 621, 609, 598, 587, 576, 566, 556, 546, 536, 527, 518, 509, 501, 492,
   484, 476, 468, 461, 453, 446, 439, 432, 425, 418, 411, 405, 399, 392, 386, 380, 375, 369, 363, 358, 352, 347, 341,
   336, 331, 326, 321, 316, 311, 307, 302, 297, 293, 289, 284, 280, 276, 271, 267, 263, 259, 255, 251, 248, 244, 240,
   236, 233, 229, 226, 222, 219, 215, 212, 209, 205, 202, 199, 196, 193, 190, 187, 184, 181, 178, 175, 172, 169, 167,
   164, 161, 159, 156, 153, 151, 148, 146, 143, 141, 138, 136, 134, 131, 129, 127, 125, 122, 120, 118, 116, 114, 112,
   110, 108, 106, 104, 102, 100, 98, 96, 94, 92, 91, 89, 87, 85, 83, 82, 80, 78, 77, 75, 74, 72, 70, 69, 67, 66, 64,
   63, 62, 60, 59, 57, 56, 55, 53, 52, 51, 49, 48, 47, 46, 45, 43, 42, 41, 40, 39, 38, 37, 36, 35, 34, 33, 32, 31, 30,
   29, 28, 27, 26, 25, 24, 23, 23, 22, 21, 20, 20, 19, 18, 17, 17, 16, 15, 15, 14, 13, 13, 12, 12, 11, 10, 10, 9, 9,
   8, 8, 7, 7, 7, 6, 6, 5, 5, 5, 4, 4, 4, 3, 3, 3, 2, 2, 2, 2, 1, 1, 1, 1, 1, 1, 1, 0, 0, 0, 0, 0, 0, 0, 0]

/-- opl3_log_sine_lut.sv -/
def logSine (theta : BitVec 8) : BitVec 12 := BitVec.ofNat 12 (logSineTable.getD theta.toNat 0)

/-- `pre_gain_p4` -/
def preGain (ws : BitVec 3) (phase : BitVec 10) (logSin : BitVec 12) : BitVec 13 :=
  if ws = 0 ∨ ws = 2 then logSin.setWidth 13
  else if ws = 3 then if phase.getLsbD 8 then 0x1000 else logSin.setWidth 13
  else if ws = 6 then 0
  else if ws = 7 then
    (if phase.getLsbD 9 then (phase.setWidth 9 ^^^ 0x1FF).setWidth 13 else phase.setWidth 13) <<< 3
  else if phase.getLsbD 9 then 0x1000
  else logSin.setWidth 13

/-- `post_gain_p4` -/
def postGain (preGain : BitVec 13) (envShifted : BitVec 14) : BitVec 15 := preGain.setWidth 15 + envShifted.setWidth 15

/-- `level_p4` -/
def level (postGain : BitVec 15) : BitVec 13 := if 0x1FFF < postGain then 0x1FFF else postGain.setWidth 13

def expTable : List Nat :=
  [0, 3, 6, 8, 11, 14, 17, 20, 22, 25, 28, 31, 34, 37, 40, 42, 45, 48, 51, 54, 57, 60, 63, 66, 69, 72, 75, 78, 81, 84,
   87, 90, 93, 96, 99, 102, 105, 108, 111, 114, 117, 120, 123, 126, 130, 133, 136, 139, 142, 145, 148, 152, 155, 158,
   161, 164, 168, 171, 174, 177, 181, 184, 187, 190, 194, 197, 200, 204, 207, 210, 214, 217, 220, 224, 227, 231, 234,
   237, 241, 244, 248, 251, 255, 258, 262, 265, 268, 272, 276, 279, 283, 286, 290, 293, 297, 300, 304, 308, 311, 315,
   318, 322, 326, 329, 333, 337, 340, 344, 348, 352, 355, 359, 363, 367, 370, 374, 378, 382, 385, 389, 393, 397, 401,
   405, 409, 412, 416, 420, 424, 428, 432, 436, 440, 444, 448, 452, 456, 460, 464, 468, 472, 476, 480, 484, 488, 492,
   496, 501, 505, 509, 513, 517, 521, 526, 530, 534, 538, 542, 547, 551, 555, 560, 564, 568, 572, 577, 581, 585, 590,
   594, 599, 603, 607, 612, 616, 621, 625, 630, 634, 639, 643, 648, 652, 657, 661, 666, 670, 675, 680, 684, 689, 693,
   698, 703, 708, 712, 717, 722, 726, 731, 736, 741, 745, 750, 755, 760, 765, 770, 774, 779, 784, 789, 794, 799, 804,
   809, 814, 819, 824, 829, 834, 839, 844, 849, 854, 859, 864, 869, 874, 880, 885, 890, 895, 900, 906, 911, 916, 921,
   927, 932, 937, 942, 948, 953, 959, 964, 969, 975, 980, 986, 991, 996, 1002, 1007, 1013, 1018]

/-- opl3_exp_lut.sv -/
def exp (x : BitVec 8) : BitVec 10 := BitVec.ofNat 10 (expTable.getD x.toNat 0)

/-- `neg_p5` -/
def neg (ws : BitVec 3) (phase : BitVec 10) : BitVec 13 :=
  if ws = 0 ∨ ws = 6 ∨ ws = 7 then if phase.getLsbD 9 then BitVec.allOnes 13 else 0
  else if ws = 4 then if !phase.getLsbD 9 && phase.getLsbD 8 then BitVec.allOnes 13 else 0
  else 0

/-- `out_p6` -/
def out (exp : BitVec 10) (level neg : BitVec 13) : BitVec 13 :=
  ((((exp.setWidth 13 ||| 0x400) <<< 1) >>> (level >>> 8).toNat)) ^^^ neg

/-! ## Feedback and modulation -/

/-- `feedback_result_p1` -/
def feedbackResult (fb : BitVec 3) (feedback : BitVec 13 × BitVec 13) : BitVec 13 :=
  let tmp : BitVec 22 := if fb = 0 then 0 else (feedback.1.signExtend 22 + feedback.2.signExtend 22) <<< fb.toNat
  (tmp.sshiftRight 9).setWidth 13

/-- The channel of the operator is one of four operators. -/
def fourOp (connectionSel : BitVec 6) (x : OplSlot) : Bool :=
  if x.op = 6 ∨ x.op = 9 then if !x.bank then connectionSel.getLsbD 0 else connectionSel.getLsbD 3
  else if x.op = 7 ∨ x.op = 10 then if !x.bank then connectionSel.getLsbD 1 else connectionSel.getLsbD 4
  else if x.op = 8 ∨ x.op = 11 then if !x.bank then connectionSel.getLsbD 2 else connectionSel.getLsbD 5
  else false

/-- `use_feedback_p1` -/
def useFeedback (g : OplGlobals) (x : OplSlot) : Bool :=
  if x.op < 3 ∨ x.op = 12 then true
  else if x.op = 6 ∨ x.op = 7 ∨ x.op = 8 then !fourOp g.connectionSel x
  else if x.op = 13 ∨ x.op = 14 then !(!x.bank && g.ryt)
  else false

/-- `modulation_p1` of control_operators.sv, with the output that is ready. -/
def modulation (connectionSel : BitVec 6) (ryt : Bool) (x : OplSlot) (cnt0 cnt1 : Bool) (ready : BitVec 13) :
    BitVec 13 :=
  if x.op < 3 ∨ x.op = 12 ∨ x.op = 13 ∨ x.op = 14 then 0
  else if x.op < 6 ∨ x.op = 15 then if cnt0 then 0 else ready
  else if x.op < 9 then
    if fourOp connectionSel x then if !cnt0 && cnt1 then 0 else ready else 0
  else if x.op < 12 then
    if fourOp connectionSel x then if cnt0 && cnt1 then 0 else ready else if cnt0 then 0 else ready
  else if cnt0 || (ryt && !x.bank) then 0
  else ready

end Opl

end Z486.Sound
