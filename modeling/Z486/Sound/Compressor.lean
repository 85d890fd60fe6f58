/-
The compressor of the sound output (`acompr` in z486_mister.sv): two straight lines over the absolute value, steep up to
a knee and flat above it, with the sign put back at the end. The knee is rounded up, so that the flat line ends above
full scale: the loudest samples leave the signed sixteen bit range and come back with the other sign.
-/
import Mathlib.Tactic.Cases
import Z486.Clocked.Bits
import Z486.Clocked.Run

namespace Z486.Sound

open Clocked

/-! ## Registers -/

/-- The end of the steep line, for the slopes `a` and `1/f`. -/
def compX (f a : Nat) : Nat := 32767 * (f - 1) / (f * a - 1) + 1

/-- The level at the end of the steep line. -/
def compB (f a : Nat) : Nat := compX f a * a

def compF1 : Nat := 4
def compA1 : Nat := 2
def compF2 : Nat := 8
def compA2 : Nat := 4

def compLines (f a : Nat) (v : BitVec 16) : BitVec 16 :=
  if v < BitVec.ofNat 16 (compX f a) then v * BitVec.ofNat 16 a
  else (v - BitVec.ofNat 16 (compX f a)) / BitVec.ofNat 16 f + BitVec.ofNat 16 (compB f a)

structure AcomprIn where
  mode : Bool
  inp : BitVec 16

structure Acompr where
  v : BitVec 16
  vs : Bool
  v1 : BitVec 16
  v2 : BitVec 16
  vs1 : Bool
  v3 : BitVec 16
  vs3 : Bool
  out : BitVec 16

def Acompr.step (s : Acompr) (i : AcomprIn) : Acompr where
  v := if i.inp.getLsbD 15 then -i.inp else i.inp
  vs := i.inp.getLsbD 15
  v1 := compLines compF1 compA1 s.v
  v2 := compLines compF2 compA2 s.v
  vs1 := s.vs
  v3 := if i.mode then s.v2 else s.v1
  vs3 := s.vs1
  out := if s.vs3 then -s.v3 else s.v3

/-! ## The curve -/

/-- What the compressor makes of a sample, with the mode two clocks later. -/
def acompr (mode : Bool) (inp : BitVec 16) : BitVec 16 :=
  let v := if inp.getLsbD 15 then -inp else inp
  let v3 := if mode then compLines compF2 compA2 v else compLines compF1 compA1 v
  if inp.getLsbD 15 then -v3 else v3

theorem Acompr.out_run (s₀ : Acompr) (inp : Nat → AcomprIn) (t : Nat) :
    (run Acompr.step s₀ inp (t + 4)).out = acompr (inp (t + 2)).mode (inp t).inp := rfl

/-- The two lines over the whole numbers. -/
def compLevel (mode : Bool) (n : Nat) : Nat :=
  if mode then if n < 7400 then n * 4 else (n - 7400) / 8 + 29600
  else if n < 14044 then n * 2 else (n - 14044) / 4 + 28088

theorem compLines_toNat {f a x b : Nat} {v : BitVec 16} (hx : compX f a = x) (hb : compB f a = b) (ha : a < 65536)
    (hf : f < 65536) (hxlt : x < 65536) (hblt : b < 32768) (hv : v.toNat ≤ 32768) (hknee : x * a ≤ 32768) :
    (compLines f a v).toNat = if v.toNat < x then v.toNat * a else (v.toNat - x) / f + b := by
  have hxn : (BitVec.ofNat 16 x).toNat = x := Nat.mod_eq_of_lt hxlt
  have han : (BitVec.ofNat 16 a).toNat = a := Nat.mod_eq_of_lt ha
  have hfn : (BitVec.ofNat 16 f).toNat = f := Nat.mod_eq_of_lt hf
  have hbn : (BitVec.ofNat 16 b).toNat = b := Nat.mod_eq_of_lt (by omega)
  unfold compLines
  rw [hx, hb]
  by_cases hlt : v.toNat < x
  · have hle : v.toNat * a ≤ x * a := Nat.mul_le_mul_right a hlt.le
    rw [if_pos hlt, if_pos (BitVec.lt_def.2 (by rwa [hxn])), BitVec.toNat_mul, han]
    exact Nat.mod_eq_of_lt (by omega)
  · have hsub : (v - BitVec.ofNat 16 x).toNat = v.toNat - x := by
      rw [BitVec.toNat_sub_of_le (BitVec.le_def.2 (by rw [hxn]; omega)), hxn]
    have hle : (v.toNat - x) / f ≤ v.toNat - x := Nat.div_le_self _ _
    rw [if_neg hlt, if_neg (fun h => hlt (by rwa [BitVec.lt_def, hxn] at h)), BitVec.toNat_add, BitVec.toNat_udiv,
      hsub, hfn, hbn]
    exact Nat.mod_eq_of_lt (by omega)

/-- The absolute value of a sample; that of the smallest one is 8000h. -/
theorem abs_toNat (x : BitVec 16) : (if x.getLsbD 15 then -x else x).toNat = x.toInt.natAbs ∧
    x.getLsbD 15 = decide (x.toInt < 0) := by
  have hx := x.isLt
  have hbit : x.getLsbD 15 = decide (32768 ≤ x.toNat) := getLsbD_top x
  rw [hbit, BitVec.toInt_eq_toNat_cond]
  by_cases hneg : 32768 ≤ x.toNat
  · rw [decide_eq_true hneg, if_pos rfl, if_neg (by omega), BitVec.toNat_neg]
    refine ⟨by omega, (decide_eq_true ?_).symm⟩
    omega
  · rw [decide_eq_false hneg, if_neg Bool.false_ne_true, if_pos (by omega)]
    refine ⟨by omega, (decide_eq_false ?_).symm⟩
    omega

/-- The level of a sample fits into sixteen bits without a sign. -/
theorem compLevel_lt {mode : Bool} {n : Nat} (hn : n ≤ 32768) : compLevel mode n < 65536 := by
  unfold compLevel
  split_ifs <;> omega

theorem compLines_eq (mode : Bool) {v : BitVec 16} (hv : v.toNat ≤ 32768) :
    (if mode then compLines compF2 compA2 v else compLines compF1 compA1 v).toNat = compLevel mode v.toNat := by
  cases mode with
  | true =>
    rw [if_pos rfl, compLevel, if_pos rfl]
    exact compLines_toNat (by decide) (by decide) (by decide) (by decide) (by decide) (by decide) hv (by decide)
  | false =>
    rw [if_neg Bool.false_ne_true, compLevel, if_neg Bool.false_ne_true]
    exact compLines_toNat (by decide) (by decide) (by decide) (by decide) (by decide) (by decide) hv (by decide)

/-- The compressor's value: the level with its sign, in what sixteen bits hold of it. -/
theorem acompr_toInt (mode : Bool) (x : BitVec 16) :
    (acompr mode x).toInt =
      if x.toInt < 0 then (-(compLevel mode x.toInt.natAbs : Int)).bmod 65536
      else (compLevel mode x.toInt.natAbs : Int).bmod 65536 := by
  obtain ⟨habs, hsign⟩ := abs_toNat x
  have hlow := BitVec.le_toInt x
  have hhigh := BitVec.toInt_lt (x := x)
  have hv3 := compLines_eq mode (v := if x.getLsbD 15 then -x else x) (by rw [habs]; omega)
  rw [habs] at hv3
  unfold acompr
  simp only
  generalize (if mode then compLines compF2 compA2 _ else compLines compF1 compA1 _) = v3 at hv3 ⊢
  have hint : v3 = BitVec.ofInt 16 (compLevel mode x.toInt.natAbs) := by
    rw [← hv3, BitVec.ofInt_natCast, BitVec.ofNat_toNat]; simp
  by_cases hneg : x.toInt < 0
  · rw [if_pos hneg, hsign, decide_eq_true hneg, if_pos rfl, hint, ← BitVec.ofInt_neg, BitVec.toInt_ofInt]
  · rw [if_neg hneg, hsign, decide_eq_false hneg, if_neg Bool.false_ne_true, hint, BitVec.toInt_ofInt]

/-! ## Full scale -/

/-- The loudest samples whose level is within the signed range. -/
def loudest (mode : Bool) : Nat := if mode then 32743 else 32763

theorem compLevel_le_iff {mode : Bool} {n : Nat} : compLevel mode n ≤ 32767 ↔ n ≤ loudest mode := by
  unfold compLevel loudest
  cases mode
  · simp only [Bool.false_eq_true, if_false]; split_ifs <;> omega
  · simp only [if_true]; split_ifs <;> omega

theorem compLevel_mono (mode : Bool) {m n : Nat} (h : m ≤ n) : compLevel mode m ≤ compLevel mode n := by
  unfold compLevel
  split_ifs <;> omega

theorem compLevel_zero (mode : Bool) : compLevel mode 0 = 0 := by
  cases mode <;> rfl

theorem compLevel_pos (mode : Bool) {n : Nat} (h : 0 < n) : 0 < compLevel mode n := by
  unfold compLevel
  split_ifs <;> omega

/-- The level with the sign of the sample. -/
def signedLevel (mode : Bool) (x : Int) : Int := if x < 0 then -(compLevel mode x.natAbs : Int) else compLevel mode x.natAbs

theorem signedLevel_mono (mode : Bool) {x y : Int} (h : x ≤ y) : signedLevel mode x ≤ signedLevel mode y := by
  unfold signedLevel
  by_cases hx : x < 0
  · by_cases hy : y < 0
    · have := compLevel_mono mode (show y.natAbs ≤ x.natAbs by omega)
      rw [if_pos hx, if_pos hy]
      omega
    · rw [if_pos hx, if_neg hy]
      omega
  · have := compLevel_mono mode (show x.natAbs ≤ y.natAbs by omega)
    rw [if_neg hx, if_neg (by omega)]
    omega

theorem signedLevel_neg (mode : Bool) (x : Int) : signedLevel mode (-x) = -signedLevel mode x := by
  unfold signedLevel
  rw [Int.natAbs_neg]
  by_cases hzero : x = 0
  · subst hzero
    rw [if_neg (by decide), if_neg (by decide)]
    show (compLevel mode 0 : Int) = -(compLevel mode 0 : Int)
    rw [compLevel_zero]
    rfl
  · split_ifs <;> omega

/-- Up to the loudest samples nothing is lost. -/
theorem acompr_of_le {mode : Bool} {x : BitVec 16} (h : x.toInt.natAbs ≤ loudest mode) :
    (acompr mode x).toInt = signedLevel mode x.toInt := by
  have hlevel := compLevel_le_iff.2 h
  rw [acompr_toInt, signedLevel]
  split_ifs
  · exact Int.bmod_eq_of_le (by omega) (by omega)
  · exact Int.bmod_eq_of_le (by omega) (by omega)

/-- A compressor that does not wrap, at the sample `x`: the sign is kept, the level is not cut, the curve is odd up to
one, and it does not fall between the samples that are no louder. -/
structure Faithful (mode : Bool) (x : BitVec 16) : Prop where
  zero : x.toInt = 0 → (acompr mode x).toInt = 0
  pos : 0 < x.toInt → 0 < (acompr mode x).toInt
  neg : x.toInt < 0 → (acompr mode x).toInt < 0
  unwrapped : (acompr mode x).toInt = signedLevel mode x.toInt
  odd : ((acompr mode (-x)).toInt + (acompr mode x).toInt).natAbs ≤ 1
  mono : ∀ y : BitVec 16, y.toInt.natAbs ≤ x.toInt.natAbs →
    (y.toInt ≤ x.toInt → (acompr mode y).toInt ≤ (acompr mode x).toInt) ∧
    (x.toInt ≤ y.toInt → (acompr mode x).toInt ≤ (acompr mode y).toInt)

theorem neg_toInt {x : BitVec 16} (h : x.toInt ≠ -32768) : (-x).toInt = -x.toInt := by
  have hlow := BitVec.le_toInt x
  have hhigh := BitVec.toInt_lt (x := x)
  rw [BitVec.toInt_neg]
  exact Int.bmod_eq_of_le (by omega) (by omega)

theorem loudest_le (mode : Bool) : loudest mode ≤ 32763 := by
  cases mode <;> decide

theorem faithful_of_le {mode : Bool} {x : BitVec 16} (h : x.toInt.natAbs ≤ loudest mode) : Faithful mode x := by
  have hbound := loudest_le mode
  have hneg := neg_toInt (x := x) (by omega)
  have hout := acompr_of_le h
  refine ⟨fun hx => ?_, fun hx => ?_, fun hx => ?_, hout, ?_, fun y hy => ?_⟩
  · rw [hout, hx]
    exact congrArg Int.ofNat (compLevel_zero mode)
  · have := compLevel_pos mode (show 0 < x.toInt.natAbs by omega)
    rw [hout, signedLevel, if_neg (by omega)]
    omega
  · have := compLevel_pos mode (show 0 < x.toInt.natAbs by omega)
    rw [hout, signedLevel, if_pos hx]
    omega
  · have hother : (-x).toInt.natAbs ≤ loudest mode := by rw [hneg]; omega
    rw [hout, acompr_of_le hother, hneg, signedLevel_neg]
    omega
  · rw [hout, acompr_of_le (hy.trans h)]
    exact ⟨fun hle => signedLevel_mono mode hle, fun hle => signedLevel_mono mode hle⟩

/-- Above them the positive sample comes back negative. -/
theorem acompr_wraps {mode : Bool} {x : BitVec 16} (hpos : 0 < x.toInt) (h : loudest mode < x.toInt.natAbs) :
    (acompr mode x).toInt < 0 := by
  have hhigh := BitVec.toInt_lt (x := x)
  have hlevel : ¬ compLevel mode x.toInt.natAbs ≤ 32767 := fun hle => absurd (compLevel_le_iff.1 hle) (by omega)
  have hlt : compLevel mode x.toInt.natAbs < 65536 := compLevel_lt (by omega)
  rw [acompr_toInt, if_neg (by omega), Int.bmod_def]
  split_ifs <;> omega

/-- The compressor is faithful at the samples up to the loudest, and at no others. -/
theorem faithful_iff (mode : Bool) (x : BitVec 16) : Faithful mode x ↔ x.toInt.natAbs ≤ loudest mode := by
  refine ⟨fun h => ?_, faithful_of_le⟩
  by_contra hloud
  rcases Int.lt_or_le 0 x.toInt with hpos | hle
  · have hwraps : (acompr mode x).toInt < 0 := acompr_wraps hpos (by omega)
    exact absurd (h.pos hpos) (by omega)
  · have hout := h.neg (by omega)
    by_cases hsmallest : x.toInt = -32768
    · have hpositive : 0 < (acompr mode x).toInt := by
        rw [acompr_toInt, hsmallest]
        cases mode <;> decide
      omega
    · -- the sample of the other sign wraps, so the two do not cancel
      have hother := neg_toInt hsmallest
      have hwraps := @acompr_wraps mode (-x) (by omega) (by rw [hother]; omega)
      have hodd := h.odd
      omega

/-- What comes out of the compressor is its curve of the sample four clocks before; the curve is faithful up to the
loudest samples and no further. -/
theorem acompr_faithful_iff (s₀ : Acompr) (inp : Nat → AcomprIn) :
    (∀ t, (run Acompr.step s₀ inp (t + 4)).out = acompr (inp (t + 2)).mode (inp t).inp) ∧
    ∀ (mode : Bool) (x : BitVec 16), Faithful mode x ↔ x.toInt.natAbs ≤ loudest mode :=
  ⟨Acompr.out_run s₀ inp, faithful_iff⟩

/-- The largest sample comes out as the smallest. -/
theorem acompr_fullScale_wraps : ¬ ∀ (mode : Bool) (x : BitVec 16), Faithful mode x := by
  intro h
  have hout : (acompr false 0x7FFF).toInt = -32768 := by decide
  have hpos := (h false 0x7FFF).pos (by decide)
  omega

end Z486.Sound
