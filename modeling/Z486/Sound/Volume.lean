/-
The volume control (sb_volume in src/soc/sound/sound.v): one multiplier scales the samples of all channels in turn. The
gain and the sample of a channel are registered, and the product goes into the lane of the channel a clock later.
-/
import Mathlib.Data.Nat.Log
import Z486.Clocked.Bits
import Z486.Clocked.TimeShare

namespace Z486.Sound

open Clocked

/-! ## Gains -/

/-- The gains of the SBPro volumes 0 to 7, from -46 dB to 0 dB in steps of about 4 dB, the highest first. -/
def sbpGainLut : BitVec 128 :=
  0xFFFF#16 ++ 0xB53C#16 ++ 0x725A#16 ++ 0x4827#16 ++ 0x2893#16 ++ 0x1456#16 ++ 0x0A31#16 ++ 0x0148#16

/-- The gains of the SB16 volumes 0 to 31, from -62 dB to 0 dB in steps of 2 dB, the highest first. -/
def sb16GainLut : BitVec 512 :=
  0xFFFF#16 ++ 0xCB59#16 ++ 0xA186#16 ++ 0x804E#16 ++ 0x65EA#16 ++ 0x50F4#16 ++ 0x404E#16 ++ 0x3314#16 ++
  0x2893#16 ++ 0x203A#16 ++ 0x199A#16 ++ 0x1456#16 ++ 0x1027#16 ++ 0x0CD5#16 ++ 0x0A31#16 ++ 0x0818#16 ++
  0x066E#16 ++ 0x051C#16 ++ 0x040F#16 ++ 0x0339#16 ++ 0x028F#16 ++ 0x0209#16 ++ 0x019E#16 ++ 0x0148#16 ++
  0x0105#16 ++ 0x00CF#16 ++ 0x00A5#16 ++ 0x0083#16 ++ 0x0068#16 ++ 0x0053#16 ++ 0x0042#16 ++ 0x0034#16

def sbpGain (volume3bit : BitVec 3) : BitVec 16 := lane 16 volume3bit.toNat sbpGainLut

def sb16Gain (volume5bit : BitVec 5) : BitVec 16 := lane 16 volume5bit.toNat sb16GainLut

/-- The gain of a volume, in parts of 65536: the top volume has a gain of one in both modes. -/
def volumeGain (sbp : Bool) (volume5bit : BitVec 5) : BitVec 17 :=
  if volume5bit = 31 then 0x10000
  else if sbp then (sbpGain (volume5bit.extractLsb' 1 3)).setWidth 17
  else (sb16Gain volume5bit).setWidth 17

theorem volumeGain_top (sbp : Bool) : volumeGain sbp 31 = 0x10000 := if_pos rfl

theorem volumeGain_lt (sbp : Bool) {volume5bit : BitVec 5} (h : volume5bit ≠ 31) :
    (volumeGain sbp volume5bit).toNat < 65536 := by
  have hword : ∀ x : BitVec 16, (x.setWidth 17).toNat < 65536 := by
    intro x
    rw [BitVec.toNat_setWidth_of_le (by omega)]
    exact x.isLt
  unfold volumeGain
  rw [if_neg h]
  split
  · exact hword _
  · exact hword _

theorem volumeGain_le (sbp : Bool) (volume5bit : BitVec 5) : (volumeGain sbp volume5bit).toNat ≤ 65536 := by
  by_cases h : volume5bit = 31
  · rw [h, volumeGain_top]
    exact le_rfl
  · exact (volumeGain_lt sbp h).le

/-! ## The product -/

def gainProduct (gain : BitVec 17) (sample : BitVec 16) : BitVec 34 :=
  (0#1 ++ gain).signExtend 34 * sample.signExtend 34

/-- The part of the product that is a sample again. -/
def scaled (gain : BitVec 17) (sample : BitVec 16) : BitVec 16 := (gainProduct gain sample).extractLsb' 16 16

/-- A gain up to `c` takes the samples into `c` times their range. -/
theorem gain_mul_mem {gain : BitVec 17} {c : Nat} (h : gain.toNat ≤ c) (sample : BitVec 16) :
    -(32768 * c : Int) ≤ gain.toNat * sample.toInt ∧ gain.toNat * sample.toInt ≤ (32767 * c : Int) := by
  have hlow : -32768 ≤ sample.toInt := sample.le_toInt
  have hhigh : sample.toInt ≤ 32767 := Int.le_of_lt_add_one sample.toInt_lt
  have h1 := Int.mul_le_mul_of_nonneg_left hlow (Int.natCast_nonneg gain.toNat)
  have h2 := Int.mul_le_mul_of_nonneg_left hhigh (Int.natCast_nonneg gain.toNat)
  omega

theorem toInt_gainProduct (gain : BitVec 17) (sample : BitVec 16) :
    (gainProduct gain sample).toInt = gain.toNat * sample.toInt := by
  have hgain : (0#1 ++ gain).toInt = gain.toNat := by
    rw [BitVec.toInt_append, if_neg (by decide), BitVec.toInt_zero, Int.mul_zero, Int.zero_add]
  obtain ⟨hlow, hhigh⟩ := gain_mul_mem gain.isLt.le sample
  rw [gainProduct, BitVec.toInt_mul, BitVec.toInt_signExtend_of_le (by omega),
    BitVec.toInt_signExtend_of_le (by omega), hgain]
  exact Int.bmod_eq_of_le (by omega) (by omega)

/-- The upper part of a number of 32 bits is the number, divided and rounded down. -/
theorem toInt_upper {x : BitVec 34} (hlow : -2 ^ 31 ≤ x.toInt) (hhigh : x.toInt < 2 ^ 31) :
    (x.extractLsb' 16 16).toInt = x.toInt / 65536 := by
  rw [BitVec.toInt_eq_toNat_cond] at hlow hhigh ⊢
  rw [BitVec.toInt_eq_toNat_cond, BitVec.extractLsb'_toNat, Nat.shiftRight_eq_div_pow]
  have hlt := x.isLt
  split at hlow <;> split <;> omega

section Scaled

variable {gain : BitVec 17} (h : gain.toNat ≤ 65536) (sample : BitVec 16)
include h

theorem toInt_scaled : (scaled gain sample).toInt = gain.toNat * sample.toInt / 65536 := by
  have hproduct := toInt_gainProduct gain sample
  obtain ⟨hlow, hhigh⟩ := gain_mul_mem h sample
  rw [scaled, toInt_upper (by omega) (by omega), hproduct]

/-- What comes out lies between the sample and 0. -/
theorem scaled_mem : min 0 sample.toInt ≤ (scaled gain sample).toInt ∧
    (scaled gain sample).toInt ≤ max 0 sample.toInt := by
  have hgain : (gain.toNat : Int) ≤ 65536 := by omega
  rw [toInt_scaled h]
  rcases Int.le_total 0 sample.toInt with hpos | hneg
  · have h1 := Int.mul_nonneg (Int.natCast_nonneg gain.toNat) hpos
    have h2 := Int.mul_le_mul_of_nonneg_right hgain hpos
    omega
  · have h1 := Int.mul_nonpos_of_nonneg_of_nonpos (Int.natCast_nonneg gain.toNat) hneg
    have h2 := Int.mul_le_mul_of_nonpos_right hgain hneg
    omega

end Scaled

theorem scaled_top (sample : BitVec 16) : scaled 0x10000 sample = sample := by
  refine BitVec.eq_of_toInt_eq ?_
  rw [toInt_scaled (by decide)]
  show (65536 * sample.toInt) / 65536 = _
  exact Int.mul_ediv_cancel_left _ (by decide)

/-! ## The circuit -/

/-- The volumes and samples of `numCh` channels, packed with channel 0 at the bottom. -/
structure SbVolumeIn (numCh : Nat) where
  sbp : Bool
  volumesIn : BitVec (numCh * 5)
  samplesIn : BitVec (numCh * 16)

structure SbVolume (numCh : Nat) where
  ch : BitVec (Nat.clog 2 numCh)
  gain : BitVec 17
  sample : BitVec 16
  samplesOut : BitVec (numCh * 16)
  valid : Bool

variable {numCh : Nat}

namespace SbVolumeIn

variable (i : SbVolumeIn numCh) (k : Nat)

def volume : BitVec 5 := lane 5 k i.volumesIn

def sample : BitVec 16 := lane 16 k i.samplesIn

def gain : BitVec 17 := volumeGain i.sbp (i.volume k)

end SbVolumeIn

namespace SbVolume

variable (s : SbVolume numCh) (i : SbVolumeIn numCh)

def step : SbVolume numCh where
  ch := if s.ch.toNat = numCh - 1 then 0 else s.ch + 1
  gain := i.gain s.ch.toNat
  sample := i.sample s.ch.toNat
  samplesOut := shiftIn s.samplesOut (scaled s.gain s.sample)
  valid := decide (s.ch.toNat = 0)

theorem ch_step (h : s.ch.toNat < numCh) : (s.step i).ch.toNat = nextTurn numCh s.ch.toNat := by
  show (if s.ch.toNat = numCh - 1 then 0 else s.ch + 1).toNat = _
  unfold nextTurn
  split
  · exact BitVec.toNat_zero
  · have hwidth := Nat.le_pow_clog (b := 2) (by decide) numCh
    exact toNat_succ (by omega)

/-- What lane `k` of the output is to hold, and how far it can be from the sample. -/
structure OwnLane (out : BitVec (numCh * 16)) (k : Nat) : Prop where
  scaled : (lane 16 k out).toInt = (i.gain k).toNat * (i.sample k).toInt / 65536
  top : i.volume k = 31 → (i.gain k).toNat = 65536 ∧ lane 16 k out = i.sample k
  below : i.volume k ≠ 31 → (i.gain k).toNat < 65536
  range : min 0 (i.sample k).toInt ≤ (lane 16 k out).toInt ∧ (lane 16 k out).toInt ≤ max 0 (i.sample k).toInt

theorem OwnLane.of_eq {i : SbVolumeIn numCh} {out : BitVec (numCh * 16)} {k : Nat}
    (h : lane 16 k out = Sound.scaled (i.gain k) (i.sample k)) : OwnLane i out k where
  scaled := by
    rw [h]
    exact toInt_scaled (volumeGain_le _ _) _
  top htop := by
    have hgain : i.gain k = 0x10000 := by
      unfold SbVolumeIn.gain
      rw [htop, volumeGain_top]
    constructor
    · rw [hgain]
      rfl
    · rw [h, hgain, scaled_top]
  below hne := volumeGain_lt _ hne
  range := by
    rw [h]
    exact scaled_mem (volumeGain_le _ _) _

/-! ## Rounds -/

section Runs

variable {s₀ : SbVolume numCh} (hphase : s₀.ch.toNat < numCh)
include hphase

theorem ch_lt (t : Nat) : (run step s₀ (fun _ => i) t).ch.toNat < numCh := by
  refine run_invariant (I := fun s : SbVolume numCh => s.ch.toNat < numCh) hphase (fun t ih => ?_) t
  show (step _ i).ch.toNat < numCh
  rw [ch_step _ i ih, nextTurn_eq_mod ih]
  exact Nat.mod_lt _ (Nat.zero_lt_of_lt hphase)

theorem ch_next (t : Nat) : (run step s₀ (fun _ => i) (t + 1)).ch.toNat =
    nextTurn numCh (run step s₀ (fun _ => i) t).ch.toNat := ch_step _ i (ch_lt i hphase t)

/-- With its inputs held, the circuit has every channel in its own lane whenever `valid` is up, once in a round. -/
theorem scales : (∀ t, 2 * numCh < t → (run step s₀ (fun _ => i) t).valid = true →
      ∀ k, k < numCh → OwnLane i (run step s₀ (fun _ => i) t).samplesOut k) ∧
    ∀ t, 0 < t → pulses (fun u => (run step s₀ (fun _ => i) u).valid) t (t + numCh) = 1 := by
  have hnext := ch_next i hphase
  constructor
  · rintro (_ | t) ht hvalid k hk
    · exact absurd ht (Nat.not_lt_zero _)
    · -- the gain and the sample of a channel are registered in the clock of its turn, and shifted in after it
      have hlane : lane 16 k (run step s₀ (fun _ => i) (t + 1)).samplesOut = Sound.scaled (i.gain k) (i.sample k) :=
        @lane_of_first numCh (fun u => (run step s₀ (fun _ => i) u).ch.toNat) 16
          (fun u => (run step s₀ (fun _ => i) u).samplesOut) (fun k => Sound.scaled (i.gain k) (i.sample k)) hnext hphase
          (fun u => rfl) t (by omega) (of_decide_eq_true hvalid) k hk
      exact .of_eq hlane
  · rintro (_ | t) ht
    · exact absurd ht (Nat.lt_irrefl 0)
    · exact @pulses_turn numCh (fun u => (run step s₀ (fun _ => i) u).ch.toNat) hnext hphase
        (fun u => (run step s₀ (fun _ => i) u).valid) (fun u => rfl) t

end Runs

/-- Three channels: the lowest sample at the top volume, another one in the middle, and the highest at the bottom. -/
def threeIn : SbVolumeIn 3 where
  sbp := false
  volumesIn := 0#5 ++ 16#5 ++ 31#5
  samplesIn := 0x7FFF#16 ++ 0x03E8#16 ++ 0x8000#16

def lastTurn : SbVolume 3 := ⟨2, 0, 0, 0, false⟩

theorem three_scales : (run step lastTurn (fun _ => threeIn) 8).valid = true ∧
    (∀ k, k < 3 → OwnLane threeIn (run step lastTurn (fun _ => threeIn) 8).samplesOut k) ∧
    ∀ t, 0 < t → pulses (fun u => (run step lastTurn (fun _ => threeIn) u).valid) t (t + 3) = 1 := by
  have hphase : lastTurn.ch.toNat < 3 := by decide
  have hvalid : (run step lastTurn (fun _ => threeIn) 8).valid = true := by decide
  obtain ⟨hlanes, hrounds⟩ := scales threeIn hphase
  exact ⟨hvalid, hlanes 8 (by decide) hvalid, hrounds⟩

end SbVolume

end Z486.Sound
