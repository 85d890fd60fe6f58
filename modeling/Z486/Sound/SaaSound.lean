/-
The sound of the SAA1099 (src/soc/sound/saa1099.sv): the levels of the six channels of a side are added up and scaled to
eight bits. The scale is the largest for which the sum of six channels at full volume still fits, so nothing wraps whatever
the processor writes, and with whatever the registers held before.
-/
import Mathlib.Algebra.BigOperators.Fin
import Mathlib.Tactic.FinCases
import Z486.Sound.Saa1099

namespace Z486.Sound

open Clocked

/-! ## The level of a channel -/

/-- The level of a channel by its volume, its mix and its envelope, which the amplitude of even volume scales. -/
def saaLevel (enable : Bool) (outmix : Bool × Bool) (vol env : Nat) : Nat :=
  match enable, outmix with
  | true, (false, low) => (vol / 2 * 2) * (if low then 1 else 2) * env
  | false, (false, true) => 16 * vol
  | false, (true, false) => 32 * vol
  | _, _ => 0

namespace SaaAmp

theorem volMix_toNat (vol : BitVec 4) (enable low : Bool) :
    (volMix vol enable low).toNat = (if enable then vol.toNat / 2 * 2 else vol.toNat) * if low then 16 else 32 := by
  revert vol enable low
  decide

/-- The product of five bits and four fits nine bits. -/
theorem mulEnv_toNat (vol : BitVec 5) (env : BitVec 4) : (mulEnv vol env).toNat = vol.toNat * env.toNat := by
  revert vol env
  decide +kernel

theorem side_toNat (enable : Bool) (outmix : Bool × Bool) (vol env : BitVec 4) :
    (side enable outmix vol env).toNat = saaLevel enable outmix vol.toNat env.toNat := by
  have hvol := vol.isLt
  obtain ⟨high, low⟩ := outmix
  unfold side saaLevel
  cases enable <;> cases high <;> cases low <;> simp only [mulEnv_toNat, volMix_toNat]
  all_goals simp [BitVec.extractLsb'_toNat, volMix_toNat, Nat.shiftRight_eq_div_pow]
  all_goals omega

theorem saaLevel_le (enable : Bool) (outmix : Bool × Bool) (vol env : BitVec 4) :
    saaLevel enable outmix vol.toNat env.toNat ≤ 480 := by
  have hvol := vol.isLt
  have henv : env.toNat ≤ 15 := Nat.le_of_lt_succ env.isLt
  obtain ⟨high, low⟩ := outmix
  have hamplitude : vol.toNat / 2 * 2 * (if low then 1 else 2) ≤ 28 := by
    cases low <;> simp <;> omega
  unfold saaLevel
  cases enable <;> cases high
  case true.false => exact (Nat.mul_le_mul hamplitude henv).trans (by omega)
  all_goals cases low <;> dsimp only <;> omega

end SaaAmp

/-! ## The sum -/

namespace SaaTriplet

variable (s : SaaTriplet) (i : SaaTripletIn)

/-- The levels of the channels of a triplet, on the left and on the right. -/
def levelL (k : Fin 3) : Nat :=
  saaLevel (SaaAmp.enable (envreg i k)) (SaaAmp.outmix (mixmode i k) (s.tone k).out s.noise.out)
    ((i.vol k).extractLsb' 0 4).toNat ((s.amp k).envL (envreg i k)).toNat

def levelR (k : Fin 3) : Nat :=
  saaLevel (SaaAmp.enable (envreg i k)) (SaaAmp.outmix (mixmode i k) (s.tone k).out s.noise.out)
    ((i.vol k).extractLsb' 4 4).toNat ((s.amp k).envR (envreg i k)).toNat

/-- What the channels sound like together; nothing in reset. -/
def soundL : Nat := if i.rst then 0 else ∑ k, s.levelL i k

def soundR : Nat := if i.rst then 0 else ∑ k, s.levelR i k

theorem soundL_le : s.soundL i ≤ 1440 := by
  have hlevel : ∀ k, s.levelL i k ≤ 480 := fun k => SaaAmp.saaLevel_le _ _ _ _
  unfold soundL
  split
  · exact Nat.zero_le _
  · rw [Fin.sum_univ_three]
    exact Nat.add_le_add (Nat.add_le_add (hlevel 0) (hlevel 1)) (hlevel 2)

theorem soundR_le : s.soundR i ≤ 1440 := by
  have hlevel : ∀ k, s.levelR i k ≤ 480 := fun k => SaaAmp.saaLevel_le _ _ _ _
  unfold soundR
  split
  · exact Nat.zero_le _
  · rw [Fin.sum_univ_three]
    exact Nat.add_le_add (Nat.add_le_add (hlevel 0) (hlevel 1)) (hlevel 2)

/-- Three levels of nine bits fit eleven. -/
theorem sum_toNat (a b c : BitVec 9) :
    (a.setWidth 11 + b.setWidth 11 + c.setWidth 11).toNat = a.toNat + b.toNat + c.toNat := by
  have ha := a.isLt
  have hb := b.isLt
  have hc := c.isLt
  simp only [BitVec.toNat_add, BitVec.toNat_setWidth]
  omega

theorem outL_step : (s.step i).outL.toNat = s.soundL i := by
  show (if i.rst then 0 else _ : BitVec 11).toNat = _
  unfold soundL
  split
  · rfl
  · rw [sum_toNat, Fin.sum_univ_three]
    unfold channelL SaaAmp.outL
    rw [SaaAmp.side_toNat, SaaAmp.side_toNat, SaaAmp.side_toNat]
    rfl

theorem outR_step : (s.step i).outR.toNat = s.soundR i := by
  show (if i.rst then 0 else _ : BitVec 11).toNat = _
  unfold soundR
  split
  · rfl
  · rw [sum_toNat, Fin.sum_univ_three]
    unfold channelR SaaAmp.outR
    rw [SaaAmp.side_toNat, SaaAmp.side_toNat, SaaAmp.side_toNat]
    rfl

end SaaTriplet

/-- Sums of two triplets are scaled without a carry out of the eighteen bits. -/
theorem SaaOutput.out_step (s : SaaOutput) (ce en : Bool) {in0 in1 : BitVec 11} (h0 : in0.toNat ≤ 1440)
    (h1 : in1.toNat ≤ 1440) :
    (s.step ce en in0 in1).out.toNat =
      if s.ced then if en then 91 * (in0.toNat + in1.toNat) / 1024 else 0 else s.out.toNat := by
  have hscaled : (91#18 * (in0.setWidth 18 + in1.setWidth 18)).toNat = 91 * (in0.toNat + in1.toNat) := by
    rw [BitVec.toNat_mul, BitVec.toNat_add, BitVec.toNat_setWidth, BitVec.toNat_setWidth]
    simp only [BitVec.toNat_ofNat]
    omega
  show (if s.ced then if !en then 0 else _ else s.out : BitVec 8).toNat = _
  cases s.ced with
  | false => rfl
  | true =>
    cases en with
    | false => rfl
    | true =>
      rw [if_pos rfl, if_pos rfl, if_pos rfl, Bool.not_true, if_neg Bool.false_ne_true, BitVec.extractLsb'_toNat, hscaled,
        Nat.shiftRight_eq_div_pow]
      omega

/-! ## Runs -/

/-- The chip with anything in its registers at first, and any accesses. -/
structure SaaRun where
  start : Saa1099
  inputs : Nat → SaaIn

namespace SaaRun

variable (r : SaaRun)

def state : Nat → Saa1099 := run Saa1099.step r.start r.inputs

/-- The sound of the six channels in clock `t`. -/
def soundL (t : Nat) : Nat :=
  (r.state t).top.soundL ((r.state t).topIn (r.inputs t)) + (r.state t).bottom.soundL ((r.state t).bottomIn (r.inputs t))

def soundR (t : Nat) : Nat :=
  (r.state t).top.soundR ((r.state t).topIn (r.inputs t)) + (r.state t).bottom.soundR ((r.state t).bottomIn (r.inputs t))

/-- An enable gives the output the sound of its clock, scaled, when the output is on in the clock after. -/
theorem sounds (t : Nat) :
    (r.state (t + 2)).outmixL.out.toNat =
        (if (r.inputs t).ce then if (r.state (t + 1)).regs.ctrl.getLsbD 0 then 91 * r.soundL t / 1024 else 0
          else (r.state (t + 1)).outmixL.out.toNat) ∧
      (r.state (t + 2)).outmixR.out.toNat =
        (if (r.inputs t).ce then if (r.state (t + 1)).regs.ctrl.getLsbD 0 then 91 * r.soundR t / 1024 else 0
          else (r.state (t + 1)).outmixR.out.toNat) ∧
      91 * r.soundL t < 2 ^ 18 ∧ 91 * r.soundR t < 2 ^ 18 := by
  have htopL := (r.state t).top.outL_step ((r.state t).topIn (r.inputs t))
  have htopR := (r.state t).top.outR_step ((r.state t).topIn (r.inputs t))
  have hbottomL := (r.state t).bottom.outL_step ((r.state t).bottomIn (r.inputs t))
  have hbottomR := (r.state t).bottom.outR_step ((r.state t).bottomIn (r.inputs t))
  have htopL_le := (r.state t).top.soundL_le ((r.state t).topIn (r.inputs t))
  have htopR_le := (r.state t).top.soundR_le ((r.state t).topIn (r.inputs t))
  have hbottomL_le := (r.state t).bottom.soundL_le ((r.state t).bottomIn (r.inputs t))
  have hbottomR_le := (r.state t).bottom.soundR_le ((r.state t).bottomIn (r.inputs t))
  refine ⟨?_, ?_, ?_, ?_⟩
  · have hout := SaaOutput.out_step (r.state (t + 1)).outmixL (r.inputs (t + 1)).ce
      ((r.state (t + 1)).regs.ctrl.getLsbD 0) (htopL.trans_le htopL_le) (hbottomL.trans_le hbottomL_le)
    rw [htopL, hbottomL] at hout
    exact hout
  · have hout := SaaOutput.out_step (r.state (t + 1)).outmixR (r.inputs (t + 1)).ce
      ((r.state (t + 1)).regs.ctrl.getLsbD 0) (htopR.trans_le htopR_le) (hbottomR.trans_le hbottomR_le)
    rw [htopR, hbottomR] at hout
    exact hout
  · unfold soundL
    omega
  · unfold soundR
    omega

end SaaRun

end Z486.Sound
