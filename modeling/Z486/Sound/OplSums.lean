/-
The arithmetic of the channels of the OPL3: what the words of channels.sv stand for as numbers. An output of a channel
fits its word whatever its operators play, and so do the sums of all of them.
-/
import Mathlib.Algebra.BigOperators.Group.Finset.Basic
import Z486.Sound.OplChannels

namespace Z486.Sound.Opl

/-! ## Words as numbers -/

section Words

variable {w : Nat} {x y : BitVec w} {a b : Int}

theorem toInt_add_of_fits (hx : x.toInt = a) (hy : y.toInt = b) (hlo : -2 ^ (w - 1) ≤ a + b) (hhi : a + b < 2 ^ (w - 1))
    (hw : 0 < w) : (x + y).toInt = a + b := by
  obtain ⟨n, rfl⟩ := Nat.exists_eq_add_of_le' hw
  rw [Nat.add_sub_cancel] at hlo hhi
  rw [BitVec.toInt_add, hx, hy]
  refine Int.bmod_eq_of_le ?_ ?_
  · push_cast
    rw [pow_succ]
    omega
  · push_cast
    rw [pow_succ]
    omega

theorem toInt_double_of_fits (hx : x.toInt = a) (hlo : -2 ^ (w - 1) ≤ 2 * a) (hhi : 2 * a < 2 ^ (w - 1)) (hw : 0 < w) :
    (x * 2).toInt = 2 * a := by
  rw [show x * 2 = x + x from BitVec.mul_two, Int.two_mul]
  exact toInt_add_of_fits hx hx (by omega) (by omega) hw

end Words

/-- The outputs of the channels of two operators, as numbers. -/
def pairOut (ryt bank : Bool) (channel : BitVec 4) (cnt : Bool) (first second : Int) : Int :=
  if ryt && !bank && channel == 6 then 2 * second
  else if ryt && !bank && (channel == 7 || channel == 8) then 2 * (first + second)
  else if cnt then first + second
  else second

/-- The outputs of the channels of four operators. -/
def quadOut (cnt cntSecond : Bool) (read second third : Int) : Int :=
  if !cnt && !cntSecond then third
  else if cnt && cntSecond then read + second + third
  else read + third

/-- How many of two outputs an operator is added to. -/
def times (one two : Bool) : Int := (if one then 1 else 0) + if two then 1 else 0

/-- What the sample of 16 bits is for a sum. -/
def clamp (sum : Int) : Int := max (-32768) (min 32767 sum)

theorem note_bounds (x : BitVec 13) : -4096 ≤ x.toInt ∧ x.toInt < 4096 :=
  ⟨BitVec.le_toInt (w := 13) x, BitVec.toInt_lt (w := 13)⟩

theorem pairOut_bounds (ryt bank : Bool) (channel : BitVec 4) (cnt : Bool) (first second : BitVec 13) :
    -16384 ≤ pairOut ryt bank channel cnt first.toInt second.toInt ∧
      pairOut ryt bank channel cnt first.toInt second.toInt ≤ 16384 := by
  have hfirst := note_bounds first
  have hsecond := note_bounds second
  unfold pairOut
  split
  · omega
  · split
    · omega
    · split <;> omega

/-- A channel that is no drum is not doubled. -/
theorem pairOut_plain {bank : Bool} {channel : BitVec 4}
    (h : (!bank && (channel == 6 || channel == 7 || channel == 8)) = false) (ryt cnt : Bool)
    (first second : BitVec 13) :
    -8192 ≤ pairOut ryt bank channel cnt first.toInt second.toInt ∧
      pairOut ryt bank channel cnt first.toInt second.toInt ≤ 8192 := by
  have hfirst := note_bounds first
  have hsecond := note_bounds second
  have hbass : (ryt && !bank && channel == 6) = false := by
    revert h
    cases ryt <;> cases bank <;> cases channel == 6 <;> simp
  have hdrums : (ryt && !bank && (channel == 7 || channel == 8)) = false := by
    revert h
    cases ryt <;> cases bank <;> cases channel == 6 <;> simp
  unfold pairOut
  rw [hbass, hdrums, if_neg Bool.false_ne_true, if_neg Bool.false_ne_true]
  split <;> omega

theorem quadOut_bounds (cnt cntSecond : Bool) (read second third : BitVec 13) :
    -12288 ≤ quadOut cnt cntSecond read.toInt second.toInt third.toInt ∧
      quadOut cnt cntSecond read.toInt second.toInt third.toInt ≤ 12288 := by
  have hread := note_bounds read
  have hsecond := note_bounds second
  have hthird := note_bounds third
  unfold quadOut
  split
  · omega
  · split <;> omega

theorem toInt_note {n : Nat} (x : BitVec 13) (h : 13 ≤ n) : (x.signExtend n).toInt = x.toInt :=
  BitVec.toInt_signExtend_of_le h

section Outputs

variable (ryt bank : Bool) (channel : BitVec 4) (cnt cntSecond : Bool) (first second third : BitVec 13)

theorem channelOut2_toInt : (channelOut2 ryt bank channel cnt first second).toInt =
    pairOut ryt bank channel cnt first.toInt second.toInt := by
  have hfirst := note_bounds first
  have hsecond := note_bounds second
  have hone : (second.signExtend 15).toInt = second.toInt := toInt_note second (by decide)
  have htwo : (first.signExtend 15 + second.signExtend 15).toInt = first.toInt + second.toInt :=
    toInt_add_of_fits (toInt_note first (by decide)) hone (by omega) (by omega) (by decide)
  unfold channelOut2 pairOut
  split
  · exact toInt_double_of_fits hone (by omega) (by omega) (by decide)
  · split
    · exact toInt_double_of_fits htwo (by omega) (by omega) (by decide)
    · split
      · exact htwo
      · exact hone

theorem channelOut4_toInt : (channelOut4 cnt cntSecond first second third).toInt =
    quadOut cnt cntSecond first.toInt second.toInt third.toInt := by
  have hfirst := note_bounds first
  have hsecond := note_bounds second
  have hthird := note_bounds third
  have hread : (first.signExtend 15).toInt = first.toInt := toInt_note first (by decide)
  have hlast : (third.signExtend 15).toInt = third.toInt := toInt_note third (by decide)
  have htwo : (first.signExtend 15 + second.signExtend 15).toInt = first.toInt + second.toInt :=
    toInt_add_of_fits hread (toInt_note second (by decide)) (by omega) (by omega) (by decide)
  unfold channelOut4 quadOut
  split
  · exact hlast
  · split
    · exact toInt_add_of_fits htwo hlast (by omega) (by omega) (by decide)
    · exact toInt_add_of_fits hread hlast (by omega) (by omega) (by decide)

end Outputs

theorem accumulate_toInt {acc : BitVec 20} {out : BitVec 15} (one two : Bool) {a o : Int} (hacc : acc.toInt = a)
    (hout : out.toInt = o) (hlo : -524288 ≤ a + times one two * o) (hhi : a + times one two * o < 524288) :
    (accumulate acc one two out).toInt = a + times one two * o := by
  have hbounds : -16384 ≤ o ∧ o < 16384 := by
    rw [← hout]
    exact ⟨BitVec.le_toInt (w := 15) out, BitVec.toInt_lt (w := 15)⟩
  have hone : (out.signExtend 20).toInt = o := (BitVec.toInt_signExtend_of_le (by decide)).trans hout
  have htwo : (out.signExtend 20 * 2).toInt = 2 * o := toInt_double_of_fits hone (by omega) (by omega) (by decide)
  cases one <;> cases two
  · rw [show times false false = 0 from rfl, Int.zero_mul, Int.add_zero]
    exact hacc
  · rw [show times false true = 1 from rfl, Int.one_mul] at *
    exact toInt_add_of_fits hacc hone hlo hhi (by decide)
  · rw [show times true false = 1 from rfl, Int.one_mul] at *
    exact toInt_add_of_fits hacc hone hlo hhi (by decide)
  · rw [show times true true = 2 from rfl] at *
    exact toInt_add_of_fits hacc htwo hlo hhi (by decide)

theorem clampChannel_toInt {acc : BitVec 20} {a : Int} (hacc : acc.toInt = a) :
    (clampChannel acc).toInt = clamp a := by
  unfold clampChannel clamp
  rw [hacc]
  split
  · rw [min_eq_left (by omega), max_eq_right (by decide)]
    decide
  · split
    · rw [min_eq_right (by omega), max_eq_left (by omega)]
      decide
    · have hword : (acc.setWidth 16).toInt = a.bmod (2 ^ 16) := by
        rw [BitVec.toInt_setWidth, ← hacc, BitVec.toInt_eq_toNat_bmod, Int.bmod_bmod_of_dvd (by decide)]
      rw [min_eq_right (by omega), max_eq_right (by omega), hword]
      exact Int.bmod_eq_of_le (by omega) (by omega)

end Z486.Sound.Opl
