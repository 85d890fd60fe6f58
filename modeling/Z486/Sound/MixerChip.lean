/-
The mixer chip of the Sound Blaster (src/soc/sound/sound.v) in its two personalities: the CT1345 of the SBPro and the
CT1745 of the SB16. Both keep their volumes in five bits and take them from the common volume registers in their own
way, and the SB16 has registers for the five bits. A volume stays when the personality changes.

In the SBPro the read-back of a volume below 17 is level 0, but the gain goes by bits 3 to 1 of any volume.
-/
import Z486.Sound.Mixer
import Z486.Sound.Volume

namespace Z486.Sound

open Clocked
open BitVec (ofBool)

/-! ## Registers -/

/-- A clock of the mixer chip: an access to the ports of the card, and the two interrupt flags that it shows. -/
structure MixerChipIn where
  rstN : Bool
  write : Bool
  sbCs : Bool
  address : BitVec 4
  writedata : BitVec 8
  irq8 : Bool
  irq16 : Bool

inductive VolChannel
  | master
  | voice
  | midi
  | cd
  | line
  deriving DecidableEq, Repr

structure MixerChip where
  mixerReg : BitVec 8
  dma16En : Bool
  irq7En : Bool
  irq10En : Bool
  sbp : Bool
  sbpStereo : Bool
  sbpOutputLpfBypass : Bool
  sbpInputLpfBypass : Bool
  sbpInputLpfFreq : Bool
  sbpInputSource : BitVec 2
  vol : VolChannel → Side → BitVec 5
  volMic : BitVec 5
  volSpk : BitVec 2
  volEn : BitVec 5
  recEn : Side → BitVec 7
  inputGain : Side → BitVec 2
  outputGain : Side → BitVec 2
  inputAgc : Bool
  treble : Side → BitVec 4
  bass : Side → BitVec 4
  mixerVal : BitVec 8

namespace VolChannel

/-- The register for both sides of a volume. -/
def reg : VolChannel → BitVec 8
  | master => 0x22
  | voice => 0x04
  | midi => 0x26
  | cd => 0x28
  | line => 0x2E

/-- The SB16 register for one side of it. -/
def sb16Reg : VolChannel → Side → BitVec 8
  | master, .left => 0x30
  | master, .right => 0x31
  | voice, .left => 0x32
  | voice, .right => 0x33
  | midi, .left => 0x34
  | midi, .right => 0x35
  | cd, .left => 0x36
  | cd, .right => 0x37
  | line, .left => 0x38
  | line, .right => 0x39

end VolChannel

namespace MixerChip

variable (s : MixerChip) (i : MixerChipIn)

/-! ## Writes -/

def writes (reg : BitVec 8) : Bool := i.write && i.sbCs && i.address == 5 && s.mixerReg == reg

def sbpWrites (reg : BitVec 8) : Bool := s.writes i reg && s.sbp

def sb16Writes (reg : BitVec 8) : Bool := s.writes i reg && !s.sbp

/-- The registers of the chip are set back by a reset, and by a write to register 00h. -/
def resets : Bool := !i.rstN || s.writes i 0x00

/-- A register of the chip with its value after a reset, its strobe and the value written. -/
def next {α : Type} (initial : α) (strobe : Bool) (value old : α) : α :=
  if s.resets i then initial else if strobe then value else old

/-- The byte of a common volume register, as five bits for each side. -/
def volMapped : Side → BitVec 5
  | .left => if s.sbp then 1#1 ++ i.writedata.extractLsb' 5 3 ++ 1#1 else i.writedata.extractLsb' 4 4 ++ 1#1
  | .right => if s.sbp then 1#1 ++ i.writedata.extractLsb' 1 3 ++ 1#1 else i.writedata.extractLsb' 0 4 ++ 1#1

def volNext (c : VolChannel) (side : Side) : BitVec 5 :=
  s.next i 29 (s.writes i c.reg || s.sb16Writes i (c.sb16Reg side))
    (if s.writes i c.reg then s.volMapped i side else i.writedata.extractLsb' 3 5) (s.vol c side)

def volMicMapped : BitVec 5 :=
  if s.sbp then 1#1 ++ i.writedata.extractLsb' 1 2 ++ 3#2
  else 10 + (i.writedata.extractLsb' 0 3 ++ 0#1).setWidth 5 + (i.writedata.extractLsb' 0 3).setWidth 5

def volMicNext : BitVec 5 :=
  s.next i 0 (s.writes i 0x0A || s.sb16Writes i 0x3A)
    (if s.writes i 0x0A then s.volMicMapped i else i.writedata.extractLsb' 3 5) s.volMic

/-- A register of the SB16 for each side, at two addresses. -/
def sidesNext {w : Nat} (initial : Side → BitVec w) (left right : BitVec 8) (value : BitVec w) (old : Side → BitVec w) :
    Side → BitVec w
  | .left => s.next i (initial .left) (s.sb16Writes i left) value (old .left)
  | .right => s.next i (initial .right) (s.sb16Writes i right) value (old .right)

def recEnInitial : Side → BitVec 7
  | .left => 0b0010101
  | .right => 0b0001011

/-- The personality is chosen by two values that register 80h does not take for its interrupt lines. -/
def selectsSbp : Bool := s.writes i 0x80 && i.writedata == 0xAD

def selectsSb16 : Bool := s.writes i 0x80 && i.writedata == 0xAE

def irqWrite : Bool := s.writes i 0x80 && i.writedata != 0xAD && i.writedata != 0xAE

/-! ## Read-back -/

/-- The SBPro level of a volume. -/
def sbpLevel (v : BitVec 5) : BitVec 3 := if v < 17 then 0 else v.extractLsb' 1 3

def volVal (c : VolChannel) : BitVec 8 :=
  if s.sbp then sbpLevel (s.vol c .left) ++ 1#1 ++ sbpLevel (s.vol c .right) ++ 1#1
  else (s.vol c .left).extractLsb' 1 4 ++ (s.vol c .right).extractLsb' 1 4

/-- The microphone volume above its lowest level, times eleven. -/
def volMicSum : BitVec 8 :=
  ((s.volMic - 10) ++ 0#3) + ((s.volMic - 10) ++ 0#1).setWidth 8 + (s.volMic.setWidth 8 - 10)

def volMicVal : BitVec 8 :=
  if s.sbp then 0#5 ++ (if s.volMic < 19 then 0 else s.volMic.extractLsb' 2 2) ++ 0#1
  else 0#5 ++ if s.volMic < 10 then 0 else s.volMicSum.extractLsb' 5 3

/-- Registers that only the SBPro shows. -/
def sbpVal (x : BitVec 8) : BitVec 8 := if s.sbp then x else 0

/-- Registers that only the SB16 shows. -/
def sb16Val (x : BitVec 8) : BitVec 8 := if s.sbp then 0 else x

/-- What register `reg` shows. -/
def valOf : BitVec 8 → BitVec 8
  | 0x04 => s.volVal .voice
  | 0x22 => s.volVal .master
  | 0x26 => s.volVal .midi
  | 0x28 => s.volVal .cd
  | 0x2E => s.volVal .line
  | 0x0A => s.volMicVal
  | 0x0C => s.sbpVal (0#2 ++ ofBool s.sbpInputLpfBypass ++ 0#1 ++ ofBool s.sbpInputLpfFreq ++ s.sbpInputSource ++ 1#1)
  | 0x0E => s.sbpVal (0#2 ++ ofBool s.sbpOutputLpfBypass ++ 1#1 ++ 0#2 ++ ofBool s.sbpStereo ++ 1#1)
  | 0x30 => s.sb16Val (s.vol .master .left ++ 0#3)
  | 0x31 => s.sb16Val (s.vol .master .right ++ 0#3)
  | 0x32 => s.sb16Val (s.vol .voice .left ++ 0#3)
  | 0x33 => s.sb16Val (s.vol .voice .right ++ 0#3)
  | 0x34 => s.sb16Val (s.vol .midi .left ++ 0#3)
  | 0x35 => s.sb16Val (s.vol .midi .right ++ 0#3)
  | 0x36 => s.sb16Val (s.vol .cd .left ++ 0#3)
  | 0x37 => s.sb16Val (s.vol .cd .right ++ 0#3)
  | 0x38 => s.sb16Val (s.vol .line .left ++ 0#3)
  | 0x39 => s.sb16Val (s.vol .line .right ++ 0#3)
  | 0x3A => s.sb16Val (s.volMic ++ 0#3)
  | 0x3B => s.sb16Val (s.volSpk ++ 0#6)
  | 0x3C => s.sb16Val (0#3 ++ s.volEn)
  | 0x3D => s.sb16Val (0#1 ++ s.recEn .left)
  | 0x3E => s.sb16Val (0#1 ++ s.recEn .right)
  | 0x3F => s.sb16Val (s.inputGain .left ++ 0#6)
  | 0x40 => s.sb16Val (s.inputGain .right ++ 0#6)
  | 0x41 => s.sb16Val (s.outputGain .left ++ 0#6)
  | 0x42 => s.sb16Val (s.outputGain .right ++ 0#6)
  | 0x43 => s.sb16Val (0#7 ++ ofBool s.inputAgc)
  | 0x44 => s.sb16Val (s.treble .left ++ 0#4)
  | 0x45 => s.sb16Val (s.treble .right ++ 0#4)
  | 0x46 => s.sb16Val (s.bass .left ++ 0#4)
  | 0x47 => s.sb16Val (s.bass .right ++ 0#4)
  | 0x80 => s.sb16Val (15#4 ++ ofBool s.irq10En ++ ofBool s.irq7En ++ ofBool (!s.irq7En && !s.irq10En) ++ 0#1)
  | 0x81 => s.sb16Val (0#2 ++ ofBool s.dma16En ++ 2#5)
  | 0x82 => s.sb16Val (2#4 ++ 0#2 ++ ofBool i.irq16 ++ ofBool i.irq8)
  | _ => 0

/-! ## The chip -/

def step : MixerChip where
  mixerReg := if !i.rstN then 0 else if i.write && i.sbCs && i.address == 4 then i.writedata else s.mixerReg
  dma16En := if !i.rstN then true else if s.writes i 0x81 then i.writedata.getLsbD 5 else s.dma16En
  irq7En := if !i.rstN then false else if s.irqWrite i then i.writedata.extractLsb' 2 2 == 1 else s.irq7En
  irq10En := if !i.rstN then false else if s.irqWrite i then i.writedata.extractLsb' 2 2 == 2 else s.irq10En
  sbp := if !i.rstN then false else if s.selectsSbp i then true else if s.selectsSb16 i then false else s.sbp
  sbpStereo := s.next i false (s.sbpWrites i 0x0E) (i.writedata.getLsbD 1) s.sbpStereo
  sbpOutputLpfBypass := s.next i false (s.sbpWrites i 0x0E) (i.writedata.getLsbD 5) s.sbpOutputLpfBypass
  sbpInputLpfBypass := s.next i false (s.sbpWrites i 0x0C) (i.writedata.getLsbD 5) s.sbpInputLpfBypass
  sbpInputLpfFreq := s.next i false (s.sbpWrites i 0x0C) (i.writedata.getLsbD 3) s.sbpInputLpfFreq
  sbpInputSource := s.next i 0 (s.sbpWrites i 0x0C) (i.writedata.extractLsb' 1 2) s.sbpInputSource
  vol := s.volNext i
  volMic := s.volMicNext i
  volSpk := s.next i 3 (s.sb16Writes i 0x3B) (i.writedata.extractLsb' 6 2) s.volSpk
  volEn := s.next i 0b11111 (s.sb16Writes i 0x3C) (i.writedata.extractLsb' 0 5) s.volEn
  recEn := s.sidesNext i recEnInitial 0x3D 0x3E (i.writedata.extractLsb' 0 7) s.recEn
  inputGain := s.sidesNext i (fun _ => 0) 0x3F 0x40 (i.writedata.extractLsb' 6 2) s.inputGain
  outputGain := s.sidesNext i (fun _ => 0) 0x41 0x42 (i.writedata.extractLsb' 6 2) s.outputGain
  inputAgc := s.next i false (s.sb16Writes i 0x43) (i.writedata.getLsbD 0) s.inputAgc
  treble := s.sidesNext i (fun _ => 8) 0x44 0x45 (i.writedata.extractLsb' 4 4) s.treble
  bass := s.sidesNext i (fun _ => 8) 0x46 0x47 (i.writedata.extractLsb' 4 4) s.bass
  mixerVal := s.valOf i s.mixerReg

/-! ## Levels and gains -/

/-- The level of a side in the byte of a common volume register. -/
def levelOf (val : BitVec 8) : Side → BitVec 3
  | .left => val.extractLsb' 5 3
  | .right => val.extractLsb' 1 3

/-- The gain of a level of the SBPro, or the gain of one at the top level. -/
def Applies (gain : BitVec 17) (level : BitVec 3) : Prop :=
  gain = (sbpGain level).setWidth 17 ∨ level = 7 ∧ gain = 0x10000

instance (gain : BitVec 17) (level : BitVec 3) : Decidable (Applies gain level) :=
  inferInstanceAs (Decidable (_ ∨ _))

/-- A volume that the SBPro does not take for a higher level than it shows. -/
def Fits (v : BitVec 5) : Prop := v ≤ 1 ∨ 16 ≤ v

instance (v : BitVec 5) : Decidable (Fits v) := inferInstanceAs (Decidable (_ ∨ _))

theorem applies_iff (v : BitVec 5) : Applies (volumeGain true v) (sbpLevel v) ↔ Fits v := by
  revert v
  decide

theorem volumeGain_mono {v v' : BitVec 5} (h : Fits v) (h' : Fits v') (hle : v ≤ v') :
    volumeGain true v ≤ volumeGain true v' := by
  revert v v'
  decide

variable {s i}

theorem levelOf_packed (l r : BitVec 3) (side : Side) :
    levelOf (l ++ 1#1 ++ r ++ 1#1) side = match side with | .left => l | .right => r := by
  cases side <;> (revert l r; decide)

/-- What a guest reads of a volume in the SBPro is its level. -/
theorem levelOf_valOf (h : s.sbp = true) (c : VolChannel) (side : Side) :
    levelOf (s.valOf i c.reg) side = sbpLevel (s.vol c side) := by
  have hread : s.valOf i c.reg = s.volVal c := by cases c <;> rfl
  have hval : s.volVal c = sbpLevel (s.vol c .left) ++ 1#1 ++ sbpLevel (s.vol c .right) ++ 1#1 := if_pos h
  rw [hread, hval, levelOf_packed]
  cases side <;> rfl

/-! ## The volumes of the SBPro -/

/-- All volumes fit but for that of the line input, which the SBPro has no part in. -/
def VolumesFit (s : MixerChip) : Prop := ∀ c side, c ≠ .line → Fits (s.vol c side)

theorem fits_volMapped (hsbp : s.sbp = true) (side : Side) : Fits (s.volMapped i side) := by
  have hodd : ∀ x : BitVec 3, Fits (1#1 ++ x ++ 1#1) := by decide
  cases side with
  | left =>
    have hmapped : s.volMapped i .left = 1#1 ++ i.writedata.extractLsb' 5 3 ++ 1#1 := if_pos hsbp
    rw [hmapped]
    exact hodd _
  | right =>
    have hmapped : s.volMapped i .right = 1#1 ++ i.writedata.extractLsb' 1 3 ++ 1#1 := if_pos hsbp
    rw [hmapped]
    exact hodd _

/-- In the SBPro the guest can store no other volumes. -/
theorem volumesFit_step (hsbp : s.sbp = true) (h : s.VolumesFit) : (s.step i).VolumesFit := by
  intro c side hc
  show Fits (s.volNext i c side)
  have h16 : s.sb16Writes i (c.sb16Reg side) = false := by rw [sb16Writes, hsbp, Bool.not_true, Bool.and_false]
  rw [volNext, next, h16, Bool.or_false]
  split
  · exact .inr (by decide)
  · split
    · exact fits_volMapped hsbp side
    · exact h c side hc

/-- A write to register 80h leaves the volumes as they are. -/
theorem vol_step_of_select (hrst : i.rstN = true) (h : s.selectsSbp i = true) : (s.step i).vol = s.vol := by
  rw [selectsSbp, writes, Bool.and_eq_true, Bool.and_eq_true, beq_iff_eq] at h
  have hwrites : ∀ reg, reg ≠ 0x80 → s.writes i reg = false := by
    intro reg hne
    rw [writes, h.1.2, beq_false_of_ne hne.symm, Bool.and_false]
  funext c side
  have hreg : c.reg ≠ 0x80 := by cases c <;> decide
  have hside : c.sb16Reg side ≠ 0x80 := by cases c <;> cases side <;> decide
  show s.volNext i c side = _
  rw [volNext, next, resets, hrst, hwrites 0x00 (by decide), sb16Writes, hwrites _ hreg, hwrites _ hside]
  rfl

theorem sbp_step : (s.step i).sbp = true ↔
    i.rstN = true ∧ (s.selectsSbp i = true ∨ s.selectsSb16 i = false ∧ s.sbp = true) := by
  show (if !i.rstN then false else if s.selectsSbp i then true else if s.selectsSb16 i then false else s.sbp) = true ↔ _
  cases i.rstN <;> cases s.selectsSbp i <;> cases s.selectsSb16 i <;> simp

end MixerChip

/-! ## Runs -/

/-- A run of the mixer chip from a reset. -/
structure MixerRun where
  powerUp : MixerChip
  inp : Nat → MixerChipIn
  reset : (inp 0).rstN = false

namespace MixerRun

variable (r : MixerRun)

def regs (t : Nat) : MixerChip := run MixerChip.step r.powerUp r.inp t

theorem regs_succ (t : Nat) : r.regs (t + 1) = (r.regs t).step (r.inp t) := run_succ _ _ _ _

/-- The guest chooses the SBPro. -/
def SelectsSbp (t : Nat) : Prop := (r.inp t).rstN = true ∧ (r.regs t).selectsSbp (r.inp t) = true

def gain (t : Nat) (c : VolChannel) (side : Side) : BitVec 17 := volumeGain (r.regs t).sbp ((r.regs t).vol c side)

/-- The level that the guest reads of a channel. -/
def level (t : Nat) (c : VolChannel) (side : Side) : BitVec 3 :=
  MixerChip.levelOf ((r.regs t).valOf (r.inp t) c.reg) side

/-- In the SBPro every channel has the gain of the level that is read of it, and a higher volume no lower gain. -/
structure GainsAgree : Prop where
  read : ∀ t, 0 < t → (r.regs t).sbp = true → ∀ c side, c ≠ .line → MixerChip.Applies (r.gain t c side) (r.level t c side)
  mono : ∀ t u, 0 < t → 0 < u → (r.regs t).sbp = true → (r.regs u).sbp = true →
    ∀ c side d side', c ≠ .line → d ≠ .line →
      (r.regs t).vol c side ≤ (r.regs u).vol d side' → r.gain t c side ≤ r.gain u d side'

variable {r} {t : Nat}

theorem applies_iff (h : (r.regs t).sbp = true) (c : VolChannel) (side : Side) :
    MixerChip.Applies (r.gain t c side) (r.level t c side) ↔ MixerChip.Fits ((r.regs t).vol c side) := by
  rw [gain, level, h, MixerChip.levelOf_valOf h]
  exact MixerChip.applies_iff _

theorem volumesFit (h : ∀ t, r.SelectsSbp t → (r.regs t).VolumesFit) :
    ∀ t, 0 < t → (r.regs t).sbp = true → (r.regs t).VolumesFit := by
  intro t
  induction t with
  | zero => exact fun ht => absurd ht (Nat.lt_irrefl 0)
  | succ t ih =>
    intro _ hsbp
    rw [regs_succ] at hsbp ⊢
    obtain ⟨hrst, hselect | ⟨-, hstays⟩⟩ := MixerChip.sbp_step.1 hsbp
    · rw [MixerChip.VolumesFit, MixerChip.vol_step_of_select hrst hselect]
      exact h t ⟨hrst, hselect⟩
    · have ht : 0 < t := by
        refine Nat.pos_of_ne_zero fun hzero => ?_
        rw [hzero, r.reset] at hrst
        exact absurd hrst nofun
      exact MixerChip.volumesFit_step hstays (ih ht hstays)

/-- The gains are those of the levels if and only if every volume is 0, 1 or at least 16 whenever the guest chooses the
SBPro. -/
theorem gainsAgree_iff : r.GainsAgree ↔ ∀ t, r.SelectsSbp t → (r.regs t).VolumesFit := by
  constructor
  · rintro hagree t ⟨hrst, hselect⟩ c side hc
    have hsbp : (r.regs (t + 1)).sbp = true := by
      rw [regs_succ]
      exact MixerChip.sbp_step.2 ⟨hrst, .inl hselect⟩
    have hfits := (applies_iff hsbp c side).1 (hagree.read (t + 1) (Nat.succ_pos t) hsbp c side hc)
    rwa [regs_succ, MixerChip.vol_step_of_select hrst hselect] at hfits
  · intro h
    have hfit := volumesFit h
    constructor
    · intro t ht hsbp c side hc
      exact (applies_iff hsbp c side).2 (hfit t ht hsbp c side hc)
    · intro t u ht hu hsbp hsbp' c side d side' hc hd hle
      rw [gain, gain, hsbp, hsbp']
      exact MixerChip.volumeGain_mono (hfit t ht hsbp c side hc) (hfit u hu hsbp' d side' hd) hle

/-- After the reset the guest writes 78h to the SB16 register of the left master volume, and chooses the SBPro. -/
def loweredIn : Nat → MixerChipIn
  | 0 => ⟨false, false, false, 0, 0, false, false⟩
  | 1 => ⟨true, true, true, 4, 0x30, false, false⟩
  | 2 => ⟨true, true, true, 5, 0x78, false, false⟩
  | 3 => ⟨true, true, true, 4, 0x80, false, false⟩
  | 4 => ⟨true, true, true, 5, 0xAD, false, false⟩
  | _ => ⟨true, false, false, 0, 0, false, false⟩

def lowered : MixerRun where
  powerUp := ⟨0, false, false, false, false, false, false, false, false, 0, fun _ _ => 0, 0, 0, 0, fun _ => 0,
    fun _ => 0, fun _ => 0, false, fun _ => 0, fun _ => 0, 0⟩
  inp := loweredIn
  reset := rfl

/-- The volume 15 is read as level 0, and has the gain of level 7. -/
theorem lowered_not_gainsAgree : ¬ lowered.GainsAgree := by
  intro h
  have hread := h.read 5 (by decide) (by decide) .master .left (by decide)
  have hgain : lowered.gain 5 .master .left = 0xFFFF := by decide
  have hlevel : lowered.level 5 .master .left = 0 := by decide
  rw [hgain, hlevel] at hread
  exact absurd hread (by decide)

end MixerRun

end Z486.Sound
