/-
The 15 kHz stage (src/soc/vga_tv15.sv): the edges of the input's syncs, the count of its lines, the placement of the
output's vsync and the line store. The measurement of the line period and the fixed raster that stands in for pictures
out of range are left out; they choose what leaves the stage and feed nothing back.
-/
import Z486.Video.TvStore

namespace Z486.Video

/-! ## Vertical placement -/

structure TvPlaceIn where
  reset : Bool
  hsRise : Bool
  vsRise : Bool
  de : Bool
  frameLines : BitVec 11
  vofs : BitVec 11

/-- The lines of a frame as they are counted and as the last frame had them, the placement that is computed from these,
and the lines that the vsync still waits. -/
structure TvPlace where
  firstDe : BitVec 11
  deLines : BitVec 11
  firstDeL : BitVec 11
  deLinesL : BitVec 11
  frameL : BitVec 11
  deInLine : Bool
  deSeen : Bool
  mul : BitVec 19
  target : BitVec 11
  dlt : BitVec 11
  dltF : BitVec 11
  calcReg : BitVec 3
  delayReg : BitVec 11
  vsWait : BitVec 11
  armed : Bool
  fire : Bool
deriving DecidableEq, Repr

namespace TvPlace

variable (s : TvPlace) (i : TvPlaceIn)

/-- The line that ends had display enable. -/
def endsShown : Bool := i.hsRise && s.deInLine

/-- `target` of the placement, from 138 times the lines of the frame. -/
def targetOf (mul : BitVec 19) (vofs deLinesL : BitVec 11) : BitVec 11 :=
  if (deLinesL >>> 1) < mul.extractLsb' 8 11 + vofs then mul.extractLsb' 8 11 + vofs - (deLinesL >>> 1) else 0

def fireNext : Bool :=
  i.hsRise && if i.vsRise then s.delayReg == 0 else s.armed && s.vsWait == 0

def armedNext : Bool :=
  if i.hsRise then
    if i.vsRise then if s.delayReg == 0 then s.armed else true
    else s.armed && s.vsWait != 0
  else s.armed

def vsWaitNext : BitVec 11 :=
  if i.hsRise then
    if i.vsRise then if s.delayReg == 0 then s.vsWait else s.delayReg - 1
    else if s.armed && s.vsWait != 0 then s.vsWait - 1 else s.vsWait
  else s.vsWait

def calcNext : BitVec 3 :=
  if i.vsRise then 1
  else
    match s.calcReg with
    | 1 => 2
    | 2 => 3
    | 3 => 4
    | 4 => 0
    | c => c

def step : TvPlace where
  firstDe := if i.reset then 0 else if s.endsShown i && !s.deSeen then i.frameLines else s.firstDe
  deLines := if i.reset then 0 else if i.vsRise then 0 else if s.endsShown i then s.deLines + 1 else s.deLines
  firstDeL := if !i.reset && i.vsRise then if s.deSeen then s.firstDe else 0 else s.firstDeL
  deLinesL := if !i.reset && i.vsRise then s.deLines + (if s.endsShown i then 1 else 0) else s.deLinesL
  frameL := if !i.reset && i.vsRise then i.frameLines + (if i.hsRise then 1 else 0) else s.frameL
  deInLine := if i.reset then false else if i.hsRise then false else i.de || s.deInLine
  deSeen := if i.reset then false else if i.vsRise then false else s.endsShown i || s.deSeen
  mul := if !i.reset && !i.vsRise && s.calcReg == 1 then s.frameL.setWidth 19 * 138 else s.mul
  target := if !i.reset && !i.vsRise && s.calcReg == 2 then targetOf s.mul i.vofs s.deLinesL else s.target
  dlt := if !i.reset && !i.vsRise && s.calcReg == 3 then s.firstDeL - s.target else s.dlt
  dltF := if !i.reset && !i.vsRise && s.calcReg == 3 then s.firstDeL - s.target + s.frameL else s.dltF
  calcReg := if i.reset then 0 else s.calcNext i
  delayReg :=
    if i.reset then 0
    else if !i.vsRise && s.calcReg == 4 then
      if s.deLinesL == 0 then 0 else if s.target ≤ s.firstDeL then s.dlt else s.dltF
    else s.delayReg
  vsWait := if i.reset then 0 else s.vsWaitNext i
  armed := if i.reset then false else s.armedNext i
  fire := !i.reset && s.fireNext i

/-- What is counted by lines stays as it is between their edges. -/
structure Kept (s s' : TvPlace) : Prop where
  firstDe : s'.firstDe = s.firstDe
  deLines : s'.deLines = s.deLines
  deSeen : s'.deSeen = s.deSeen
  firstDeL : s'.firstDeL = s.firstDeL
  deLinesL : s'.deLinesL = s.deLinesL
  frameL : s'.frameL = s.frameL
  vsWait : s'.vsWait = s.vsWait
  armed : s'.armed = s.armed

theorem Kept.refl : Kept s s := ⟨rfl, rfl, rfl, rfl, rfl, rfl, rfl, rfl⟩

variable {s i}

theorem Kept.trans {s₁ s₂ s₃ : TvPlace} (h : Kept s₁ s₂) (h' : Kept s₂ s₃) : Kept s₁ s₃ :=
  ⟨h'.firstDe.trans h.firstDe, h'.deLines.trans h.deLines, h'.deSeen.trans h.deSeen, h'.firstDeL.trans h.firstDeL,
    h'.deLinesL.trans h.deLinesL, h'.frameL.trans h.frameL, h'.vsWait.trans h.vsWait, h'.armed.trans h.armed⟩

theorem step_quiet (hreset : i.reset = false) (hhs : i.hsRise = false) (hvs : i.vsRise = false) :
    Kept s (s.step i) ∧ (s.step i).deInLine = (i.de || s.deInLine) ∧ (s.step i).fire = false := by
  have hends : s.endsShown i = false := by
    unfold endsShown
    rw [hhs, Bool.false_and]
  refine ⟨⟨?_, ?_, ?_, ?_, ?_, ?_, ?_, ?_⟩, ?_, ?_⟩
  · show (if i.reset then _ else if s.endsShown i && !s.deSeen then _ else _) = _
    rw [hreset, hends, Bool.false_and, if_neg Bool.false_ne_true, if_neg Bool.false_ne_true]
  · show (if i.reset then _ else if i.vsRise then _ else if s.endsShown i then _ else _) = _
    rw [hreset, hvs, hends, if_neg Bool.false_ne_true, if_neg Bool.false_ne_true, if_neg Bool.false_ne_true]
  · show (if i.reset then _ else if i.vsRise then _ else s.endsShown i || s.deSeen) = _
    rw [hreset, hvs, hends, if_neg Bool.false_ne_true, if_neg Bool.false_ne_true, Bool.false_or]
  · show (if !i.reset && i.vsRise then _ else _) = _
    rw [hvs, Bool.and_false, if_neg Bool.false_ne_true]
  · show (if !i.reset && i.vsRise then _ else _) = _
    rw [hvs, Bool.and_false, if_neg Bool.false_ne_true]
  · show (if !i.reset && i.vsRise then _ else _) = _
    rw [hvs, Bool.and_false, if_neg Bool.false_ne_true]
  · show (if i.reset then _ else if i.hsRise then _ else _) = _
    rw [hreset, hhs, if_neg Bool.false_ne_true, if_neg Bool.false_ne_true]
  · show (if i.reset then _ else if i.hsRise then _ else _) = _
    rw [hreset, hhs, if_neg Bool.false_ne_true, if_neg Bool.false_ne_true]
  · show (if i.reset then _ else if i.hsRise then _ else _) = _
    rw [hreset, hhs, if_neg Bool.false_ne_true, if_neg Bool.false_ne_true]
  · show (!i.reset && (i.hsRise && _)) = _
    rw [hhs, Bool.false_and, Bool.and_false]

/-! ## The computation -/

/-- The lines of the frame that the placement is computed from. -/
structure Latched (s s' : TvPlace) : Prop where
  firstDeL : s'.firstDeL = s.firstDeL
  deLinesL : s'.deLinesL = s.deLinesL
  frameL : s'.frameL = s.frameL

theorem Latched.trans {s₁ s₂ s₃ : TvPlace} (h : Latched s₁ s₂) (h' : Latched s₂ s₃) : Latched s₁ s₃ :=
  ⟨h'.firstDeL.trans h.firstDeL, h'.deLinesL.trans h.deLinesL, h'.frameL.trans h.frameL⟩

/-- The delay of a frame with `frameL` lines, `deLinesL` of them displayed, from line `firstDeL` on. -/
def placement (frameL deLinesL firstDeL vofs : BitVec 11) : BitVec 11 :=
  let target := targetOf (frameL.setWidth 19 * 138) vofs deLinesL
  if deLinesL == 0 then 0
  else if target ≤ firstDeL then firstDeL - target else firstDeL - target + frameL

theorem step_latched (hvs : i.vsRise = false) : Latched s (s.step i) := by
  refine ⟨?_, ?_, ?_⟩
  · show (if !i.reset && i.vsRise then _ else _) = _
    rw [hvs, Bool.and_false, if_neg Bool.false_ne_true]
  · show (if !i.reset && i.vsRise then _ else _) = _
    rw [hvs, Bool.and_false, if_neg Bool.false_ne_true]
  · show (if !i.reset && i.vsRise then _ else _) = _
    rw [hvs, Bool.and_false, if_neg Bool.false_ne_true]

theorem calcReg_step (hreset : i.reset = false) : (s.step i).calcReg = s.calcNext i := by
  show (if i.reset then 0 else s.calcNext i) = _
  rw [hreset, if_neg Bool.false_ne_true]

section Compute

variable (hreset : i.reset = false) (hvs : i.vsRise = false)
include hreset hvs

theorem step_mul (hcalc : s.calcReg = 1) :
    (s.step i).calcReg = 2 ∧ (s.step i).mul = s.frameL.setWidth 19 * 138 := by
  refine ⟨?_, ?_⟩
  · rw [calcReg_step hreset]
    unfold calcNext
    rw [hvs, if_neg Bool.false_ne_true, hcalc]
    rfl
  · show (if !i.reset && !i.vsRise && s.calcReg == 1 then _ else _) = _
    rw [hreset, hvs, hcalc]
    rfl

theorem step_target (hcalc : s.calcReg = 2) :
    (s.step i).calcReg = 3 ∧ (s.step i).target = targetOf s.mul i.vofs s.deLinesL := by
  refine ⟨?_, ?_⟩
  · rw [calcReg_step hreset]
    unfold calcNext
    rw [hvs, if_neg Bool.false_ne_true, hcalc]
    rfl
  · show (if !i.reset && !i.vsRise && s.calcReg == 2 then _ else _) = _
    rw [hreset, hvs, hcalc]
    rfl

theorem step_dlt (hcalc : s.calcReg = 3) :
    (s.step i).calcReg = 4 ∧ (s.step i).target = s.target ∧ (s.step i).dlt = s.firstDeL - s.target ∧
      (s.step i).dltF = s.firstDeL - s.target + s.frameL := by
  refine ⟨?_, ?_, ?_, ?_⟩
  · rw [calcReg_step hreset]
    unfold calcNext
    rw [hvs, if_neg Bool.false_ne_true, hcalc]
    rfl
  · show (if !i.reset && !i.vsRise && s.calcReg == 2 then _ else _) = _
    rw [hreset, hvs, hcalc]
    rfl
  · show (if !i.reset && !i.vsRise && s.calcReg == 3 then _ else _) = _
    rw [hreset, hvs, hcalc]
    rfl
  · show (if !i.reset && !i.vsRise && s.calcReg == 3 then _ else _) = _
    rw [hreset, hvs, hcalc]
    rfl

theorem step_delay (hcalc : s.calcReg = 4) :
    (s.step i).calcReg = 0 ∧ (s.step i).delayReg =
      if s.deLinesL == 0 then 0 else if s.target ≤ s.firstDeL then s.dlt else s.dltF := by
  refine ⟨?_, ?_⟩
  · rw [calcReg_step hreset]
    unfold calcNext
    rw [hvs, if_neg Bool.false_ne_true, hcalc]
    rfl
  · show (if i.reset then 0 else if !i.vsRise && s.calcReg == 4 then _ else _) = _
    rw [hreset, hvs, hcalc]
    rfl

theorem step_idle (hcalc : s.calcReg = 0) : (s.step i).calcReg = 0 ∧ (s.step i).delayReg = s.delayReg := by
  refine ⟨?_, ?_⟩
  · rw [calcReg_step hreset]
    unfold calcNext
    rw [hvs, if_neg Bool.false_ne_true, hcalc]
    rfl
  · show (if i.reset then 0 else if !i.vsRise && s.calcReg == 4 then _ else _) = _
    rw [hreset, hvs, hcalc]
    rfl

end Compute

end TvPlace

/-! ## The stage -/

structure TvIn where
  reset : Bool
  hpos : BitVec 3
  vpos : BitVec 3
  ilaceEn : Bool
  doublescan : Bool
  ce : Bool
  rgb : BitVec 24
  hs : Bool
  vs : Bool
  de : Bool

/-- The left edge of the picture at 85 MHz, in clocks from the start of the output line: 11.3 us, and half
microseconds from there. -/
def TvIn.actCyc (i : TvIn) : BitVec 13 :=
  match i.hpos with
  | 1 => 960 + 42
  | 2 => 960 - 42
  | 3 => 960 - 85
  | 4 => 960 - 85 - 42
  | 5 => 960 - 170
  | 6 => 960 - 170 - 42
  | 7 => 960 - 255
  | _ => 960

/-- The vertical position in input lines, negative ones modulo 2048. -/
def vofsOf (vpos : BitVec 3) : BitVec 11 :=
  match vpos with
  | 1 => 8
  | 2 => 16
  | 3 => 24
  | 4 => 32
  | 5 => 0x7F8
  | 6 => 0x7F0
  | 7 => 0x7E8
  | _ => 0

structure TvStage where
  hsR : Bool
  vsR : Bool
  frameLines : BitVec 11
  actCyc : BitVec 13
  vofs : BitVec 11
  place : TvPlace
  store : TvStore

namespace TvStage

variable (s : TvStage) (i : TvIn)

def hsRise : Bool := i.hs && !s.hsR

def vsRise : Bool := i.vs && !s.vsR

def ilace : Bool := i.ilaceEn && !i.doublescan && decide (350 ≤ s.place.deLinesL)

def frameLinesNext : BitVec 11 :=
  if s.vsRise i then 0 else if s.hsRise i && s.frameLines != 0x7FF then s.frameLines + 1 else s.frameLines

def placeIn : TvPlaceIn := ⟨i.reset, s.hsRise i, s.vsRise i, i.de, s.frameLines, s.vofs⟩

def storeIn : TvStoreIn := ⟨i.reset, s.hsRise i, s.place.fire, s.ilace i, i.ce, i.de, i.rgb, s.actCyc⟩

def step : TvStage where
  hsR := i.hs
  vsR := i.vs
  frameLines := if i.reset then 0 else s.frameLinesNext i
  actCyc := i.actCyc
  vofs := vofsOf i.vpos
  place := s.place.step (s.placeIn i)
  store := s.store.step (s.storeIn i)

end TvStage

/-! ## The delay in lines -/

/-- The vertical position in input lines. -/
def vofsLines (vpos : BitVec 3) : Int :=
  match vpos with
  | 1 => 8
  | 2 => 16
  | 3 => 24
  | 4 => 32
  | 5 => -8
  | 6 => -16
  | 7 => -24
  | _ => 0

theorem vofsOf_toNat : ∀ vpos : BitVec 3, -24 ≤ vofsLines vpos ∧ vofsLines vpos ≤ 32 ∧
    (((vofsOf vpos).toNat : Int) = vofsLines vpos ∨ ((vofsOf vpos).toNat : Int) = vofsLines vpos + 2048) := by
  decide

/-- The line of the output frame that the picture is to start in: centred, and moved by the vertical position. -/
def targetLine (lines deLines : Nat) (vpos : BitVec 3) : Int :=
  max 0 (138 * lines / 256 + vofsLines vpos - deLines / 2)

/-- The lines from the vsync of the input to that of the output, for a picture that starts in line `first`. -/
def delayLines (lines deLines first : Nat) (vpos : BitVec 3) : Nat :=
  (((first : Int) - targetLine lines deLines vpos) % lines).toNat

/-- The offset is added modulo 2048, to a sum that is past it. -/
theorem offset_mod {m v : Nat} {o : Int} (hm : 200 ≤ m ∧ m ≤ 400) (hlo : -24 ≤ o) (hhi : o ≤ 32)
    (hv : (v : Int) = o ∨ (v : Int) = o + 2048) : (((m + v) % 2048 : Nat) : Int) = m + o := by
  omega

section Delay

variable {frameL deLinesL firstDeL : BitVec 11} (vpos : BitVec 3) (hlo : 400 ≤ frameL.toNat) (hhi : frameL.toNat ≤ 560)
include hlo hhi

theorem targetOf_toNat :
    ((TvPlace.targetOf (frameL.setWidth 19 * 138) (vofsOf vpos) deLinesL).toNat : Int) =
      targetLine frameL.toNat deLinesL.toNat vpos := by
  obtain ⟨hvlo, hvhi, hvofs⟩ := vofsOf_toNat vpos
  have hmul : ((frameL.setWidth 19 * 138).extractLsb' 8 11).toNat = 138 * frameL.toNat / 256 := by
    rw [BitVec.extractLsb'_toNat, BitVec.toNat_mul, BitVec.toNat_setWidth, Nat.shiftRight_eq_div_pow]
    show (frameL.toNat % 524288 * 138 % 524288) / 256 % 2048 = _
    rw [Nat.mod_eq_of_lt (show frameL.toNat < 524288 by omega), Nat.mod_eq_of_lt (by omega), Nat.mul_comm,
      Nat.mod_eq_of_lt (by omega)]
  have hhalf : (deLinesL >>> 1).toNat = deLinesL.toNat / 2 := by
    rw [BitVec.toNat_ushiftRight, Nat.shiftRight_eq_div_pow]
  have hsum : (((frameL.setWidth 19 * 138).extractLsb' 8 11 + vofsOf vpos).toNat : Int) =
      138 * frameL.toNat / 256 + vofsLines vpos := by
    rw [BitVec.toNat_add, hmul]
    exact offset_mod (by omega) hvlo hvhi hvofs
  unfold TvPlace.targetOf targetLine
  generalize (frameL.setWidth 19 * 138).extractLsb' 8 11 + vofsOf vpos = sum at hsum
  by_cases hlt : deLinesL >>> 1 < sum
  · rw [if_pos hlt, BitVec.toNat_sub_of_le (BitVec.le_of_lt hlt), hhalf]
    rw [BitVec.lt_def, hhalf] at hlt
    omega
  · rw [if_neg hlt]
    rw [BitVec.lt_def, hhalf] at hlt
    show (0 : Int) = _
    omega

theorem placement_toNat (hpos : 0 < deLinesL.toNat) (hle : deLinesL.toNat ≤ frameL.toNat)
    (hfirst : firstDeL.toNat < frameL.toNat) :
    (TvPlace.placement frameL deLinesL firstDeL (vofsOf vpos)).toNat =
      delayLines frameL.toNat deLinesL.toNat firstDeL.toNat vpos := by
  have htarget := @targetOf_toNat frameL deLinesL vpos hlo hhi
  obtain ⟨hvlo, hvhi, -⟩ := vofsOf_toNat vpos
  have hbound : targetLine frameL.toNat deLinesL.toNat vpos < frameL.toNat := by
    unfold targetLine
    omega
  have hnot : ¬ (deLinesL == 0) = true := by
    intro h
    rw [beq_iff_eq] at h
    rw [h] at hpos
    exact absurd hpos (by decide)
  unfold TvPlace.placement delayLines
  rw [if_neg hnot, ← htarget]
  generalize TvPlace.targetOf (frameL.setWidth 19 * 138) (vofsOf vpos) deLinesL = target at htarget
  rw [← htarget] at hbound
  by_cases hge : target ≤ firstDeL
  · rw [if_pos hge, BitVec.toNat_sub_of_le hge]
    rw [BitVec.le_def] at hge
    rw [Int.emod_eq_of_lt (by omega) (by omega)]
    omega
  · rw [if_neg hge, BitVec.toNat_add, BitVec.toNat_sub]
    rw [BitVec.le_def] at hge
    rw [← Int.add_emod_right, Int.emod_eq_of_lt (by omega) (by omega)]
    show (((2048 - target.toNat + firstDeL.toNat) % 2048 + frameL.toNat) % 2048 : Nat) = _
    omega

end Delay

end Z486.Video
