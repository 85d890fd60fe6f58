/-
The raster of the VGA (src/soc/vga.v): the dots of a character, the characters of a line and the scanline counter, the
syncs and the display enable that are taken from them. Everything moves with the dot enable `render_ce`. The on-demand
mode of the VGA and the blanking are left out.
-/
import Z486.Clocked.Run
import Z486.Video.Scanlines

namespace Z486.Video

open Clocked

/-! ## Registers -/

/-- The registers of the sequencer and of the CRTC that the raster goes by, and the options of the TV output. -/
structure RasterRegs where
  seq8dotChar : Bool
  seqDotclockDivided : Bool
  horizontalTotal : BitVec 9
  horizontalDisplaySize : BitVec 8
  horizontalRetraceStart : BitVec 9
  horizontalRetraceSkew : BitVec 2
  horizontalRetraceEnd : BitVec 5
  verticalTotal : BitVec 11
  verticalDisplaySize : BitVec 11
  verticalRetraceStart : BitVec 11
  verticalRetraceEnd : BitVec 4
  vzoom : Bool
  vstretch : Bool
  vodd : Bool
deriving DecidableEq, Repr

structure Raster where
  dotCntDiv : Bool
  dotCnt : BitVec 4
  horizCnt : BitVec 9
  hrsLine : BitVec 9
  hrskewLine : BitVec 2
  hreLine : BitVec 5
  lines : Scanlines
  horizSync : Bool
  vertSync : Bool
  vertSyncLast : Bool
  notDisplaying : Bool
deriving DecidableEq, Repr

namespace RasterRegs

variable (r : RasterRegs)

def horizTotal : BitVec 9 := r.horizontalTotal + 4

/-- What the scanline counter reads of the registers. -/
def scanlineIn (hsync : Bool) : ScanlineIn where
  hsync := hsync
  vzoom := r.vzoom
  vstretch := r.vstretch
  vodd := r.vodd
  displaySize := r.verticalDisplaySize
  verticalTotal := r.verticalTotal

/-- The dots of a character. -/
def charDots : Nat := if r.seq8dotChar then 8 else 9

/-- The enables that a character takes. -/
def charTime : Nat := if r.seqDotclockDivided then 2 * r.charDots else r.charDots

/-- The last character of a line. -/
def lastChar : Nat := r.horizTotal.toNat

/-- The enables that a line takes. -/
def lineTime : Nat := (r.lastChar + 1) * r.charTime

/-- The character with which the horizontal retrace starts. -/
def retraceChar : Nat := (r.horizontalRetraceStart + r.horizontalRetraceSkew.setWidth 9).toNat

/-- The enables of a line until the scanline counter has gone on. -/
def advanceTime : Nat := (r.retraceChar + 1) * r.charTime

end RasterRegs

/-! ## An enable -/

namespace Raster

variable (s : Raster) (r : RasterRegs)

def dotCntEnable : Bool := !r.seqDotclockDivided || s.dotCntDiv

/-- `{ ~seq_8dot_char, {3{seq_8dot_char}} }` -/
def lastDot : BitVec 4 := if r.seq8dotChar then 7 else 8

def characterLastDot : Bool := s.dotCntEnable r && s.dotCnt == lastDot r

def horizLastCnt : Bool := s.horizCnt == r.horizTotal

def horiz2ndToLastCnt : Bool := s.horizCnt == r.horizTotal - 1

def hde : Bool := decide (s.horizCnt < r.horizontalDisplaySize.setWidth 9)

def vde : Bool := s.lines.vde (r.scanlineIn false)

def hss : Bool := s.horizCnt == s.hrsLine + s.hrskewLine.setWidth 9

def hse : Bool := s.horizCnt.setWidth 5 == s.hreLine + s.hrskewLine.setWidth 5

def vss : Bool := s.lines.vertCnt == r.verticalRetraceStart

def vse : Bool := s.lines.vertCnt.setWidth 4 == r.verticalRetraceEnd

/-- `{ ~seq_8dot_char & seq_dotclock_divided, {2{seq_8dot_char | ~seq_dotclock_divided}}, seq_8dot_char ~^ seq_dotclock_divided }` -/
def timingDot : BitVec 4 :=
  BitVec.ofBool (!r.seq8dotChar && r.seqDotclockDivided) ++
    (BitVec.ofBool (r.seq8dotChar || !r.seqDotclockDivided) ++ BitVec.ofBool (r.seq8dotChar || !r.seqDotclockDivided)) ++
    BitVec.ofBool (r.seq8dotChar == r.seqDotclockDivided)

def vgaprepDotTiming : Bool := (r.seqDotclockDivided ^^ s.dotCntEnable r) && s.dotCnt == timingDot r

/-- The scanline counter goes on. -/
def advances : Bool := s.characterLastDot r && s.hss

def dotMemoryLoadVerticalRetraceStart : Bool := s.vertSync && !s.vertSyncLast

def dotMemoryLoadVerticalRetraceEnd : Bool := !s.vertSync && s.vertSyncLast

/-- An enable. -/
def next : Raster where
  dotCntDiv := !s.dotCntDiv
  dotCnt := if s.dotCntEnable r then if s.characterLastDot r then 0 else s.dotCnt + 1 else s.dotCnt
  horizCnt := if s.characterLastDot r then if s.horizLastCnt r then 0 else s.horizCnt + 1 else s.horizCnt
  hrsLine := if s.characterLastDot r && s.horizLastCnt r then r.horizontalRetraceStart else s.hrsLine
  hrskewLine := if s.characterLastDot r && s.horizLastCnt r then r.horizontalRetraceSkew else s.hrskewLine
  hreLine := if s.characterLastDot r && s.horizLastCnt r then r.horizontalRetraceEnd else s.hreLine
  lines := s.lines.step (r.scanlineIn (s.advances r))
  horizSync :=
    if s.vgaprepDotTiming r then if s.hss then true else if s.hse && s.horizSync then false else s.horizSync
    else s.horizSync
  vertSync :=
    if s.vgaprepDotTiming r && s.hss then
      if s.vss r then true else if s.vse r && s.vertSync then false else s.vertSync
    else s.vertSync
  vertSyncLast := s.vertSync
  notDisplaying :=
    if s.vgaprepDotTiming r then !((s.horizLastCnt r || s.hde r) && s.vde r) else s.notDisplaying

/-- A clock. -/
def step (ce : Bool) : Raster := if ce then s.next r else s

/-! ## Where in a character -/

/-- The enables since the character began. -/
def phase : Nat := if r.seqDotclockDivided then 2 * s.dotCnt.toNat + s.dotCntDiv.toNat else s.dotCnt.toNat

/-- The enables since the line began. -/
def pos : Nat := s.horizCnt.toNat * r.charTime + s.phase r

/-- The counters are within the character and the line. -/
structure Within : Prop where
  dot : s.dotCnt.toNat ≤ (lastDot r).toNat
  char : s.horizCnt.toNat ≤ r.lastChar

end Raster

theorem RasterRegs.charDots_ge (r : RasterRegs) : 8 ≤ r.charDots := by
  unfold charDots
  split <;> omega

theorem RasterRegs.charTime_ge (r : RasterRegs) : 8 ≤ r.charTime := by
  have := r.charDots_ge
  unfold charTime
  split <;> omega

theorem RasterRegs.charTime_le (r : RasterRegs) : r.charTime ≤ 18 := by
  unfold charTime charDots
  split <;> split <;> decide

namespace Raster

variable {s : Raster} {r : RasterRegs}

theorem lastDot_toNat : (lastDot r).toNat + 1 = r.charDots := by
  unfold lastDot RasterRegs.charDots
  cases r.seq8dotChar <;> rfl

theorem Within.phase_lt (h : s.Within r) : s.phase r < r.charTime := by
  have hdot := h.dot
  have hlast := lastDot_toNat (r := r)
  have hdiv := s.dotCntDiv.toNat_lt
  unfold phase RasterRegs.charTime
  split <;> omega

theorem Within.characterLastDot_iff (h : s.Within r) : s.characterLastDot r = true ↔ s.phase r + 1 = r.charTime := by
  have hdot := h.dot
  have hlast := lastDot_toNat (r := r)
  have heq : (s.dotCnt == lastDot r) = true ↔ s.dotCnt.toNat = (lastDot r).toNat := by
    rw [beq_iff_eq, BitVec.toNat_inj]
  unfold characterLastDot dotCntEnable phase RasterRegs.charTime
  rw [Bool.and_eq_true, heq]
  cases r.seqDotclockDivided with
  | false =>
    simp only [Bool.not_false, Bool.true_or, true_and, if_neg Bool.false_ne_true]
    omega
  | true =>
    cases s.dotCntDiv <;> simp <;> omega

/-- Where the phase goes within a character. -/
theorem Within.phase_next (h : s.Within r) :
    (s.next r).phase r = if s.characterLastDot r = true then 0 else s.phase r + 1 := by
  have hdot := h.dot
  have hlast := lastDot_toNat (r := r)
  have hdots : r.charDots ≤ 9 := by
    unfold RasterRegs.charDots
    split <;> omega
  have hinc : (s.dotCnt + 1).toNat = s.dotCnt.toNat + 1 := toNat_succ (by omega)
  by_cases hlastdot : s.characterLastDot r = true
  · have henable : s.dotCntEnable r = true := (Bool.and_eq_true _ _ ▸ hlastdot).1
    rw [if_pos hlastdot]
    unfold phase next
    rw [if_pos henable, if_pos hlastdot]
    unfold dotCntEnable at henable
    cases hd : r.seqDotclockDivided with
    | false => rfl
    | true =>
      rw [hd, Bool.not_true, Bool.false_or] at henable
      rw [henable]
      rfl
  · rw [if_neg hlastdot]
    have hnext : (s.next r).phase r = if r.seqDotclockDivided then
        2 * (if s.dotCntEnable r then s.dotCnt + 1 else s.dotCnt).toNat + (!s.dotCntDiv).toNat
      else (if s.dotCntEnable r then s.dotCnt + 1 else s.dotCnt).toNat := by
      unfold phase next
      rw [if_neg hlastdot]
    rw [hnext]
    unfold phase dotCntEnable
    cases r.seqDotclockDivided with
    | false => exact hinc
    | true =>
      cases s.dotCntDiv with
      | false => rfl
      | true => show 2 * (s.dotCnt + 1).toNat + 0 = _; rw [hinc]; rfl

theorem Within.next (h : s.Within r) : (s.next r).Within r := by
  have hdot := h.dot
  have hchar := h.char
  have hlast := lastDot_toNat (r := r)
  have hlt := r.horizTotal.isLt
  unfold RasterRegs.lastChar at hchar
  constructor
  · show (if s.dotCntEnable r then if s.characterLastDot r then 0 else s.dotCnt + 1 else s.dotCnt).toNat ≤ _
    split
    case isTrue henable =>
      split
      · exact Nat.zero_le _
      case isFalse hnot =>
        unfold characterLastDot at hnot
        rw [henable, Bool.true_and, beq_iff_eq, ← BitVec.toNat_inj] at hnot
        have := toNat_succ (x := s.dotCnt) (by have := (lastDot r).isLt; omega)
        omega
    · exact hdot
  · show (if s.characterLastDot r then if s.horizLastCnt r then 0 else s.horizCnt + 1 else s.horizCnt).toNat ≤ _
    unfold RasterRegs.lastChar
    split
    · split
      · exact Nat.zero_le _
      case isFalse hnot =>
        unfold horizLastCnt at hnot
        rw [beq_iff_eq, ← BitVec.toNat_inj] at hnot
        have := toNat_succ (x := s.horizCnt) (by omega)
        omega
    · exact hchar

theorem Within.pos_lt (h : s.Within r) : s.pos r < r.lineTime := by
  have hphase := h.phase_lt
  have hchar := h.char
  calc s.horizCnt.toNat * r.charTime + s.phase r
      < s.horizCnt.toNat * r.charTime + r.charTime := by omega
    _ = (s.horizCnt.toNat + 1) * r.charTime := (Nat.succ_mul _ _).symm
    _ ≤ (r.lastChar + 1) * r.charTime := Nat.mul_le_mul_right _ (by omega)

/-- The character and the place in it are those of the position in the line. -/
theorem Within.pos_div (h : s.Within r) : s.pos r / r.charTime = s.horizCnt.toNat := by
  have hphase := h.phase_lt
  unfold pos
  rw [Nat.mul_comm, Nat.mul_add_div (by omega), Nat.div_eq_of_lt hphase, Nat.add_zero]

theorem Within.pos_mod (h : s.Within r) : s.pos r % r.charTime = s.phase r := by
  unfold pos
  rw [Nat.mul_comm, Nat.mul_add_mod, Nat.mod_eq_of_lt h.phase_lt]

/-- The raster is at character `c`, `p` enables into it. -/
theorem Within.at_iff (h : s.Within r) {c p : Nat} (hp : p < r.charTime) :
    s.pos r = c * r.charTime + p ↔ s.horizCnt.toNat = c ∧ s.phase r = p := by
  constructor
  · intro heq
    rw [← h.pos_div, ← h.pos_mod, heq, Nat.mul_comm, Nat.mul_add_div (by omega), Nat.div_eq_of_lt hp, Nat.mul_add_mod,
      Nat.mod_eq_of_lt hp]
    exact ⟨Nat.add_zero c, rfl⟩
  · rintro ⟨hc, hphase⟩
    unfold pos
    rw [hc, hphase]

theorem Within.pos_next (h : s.Within r) :
    (s.next r).pos r = if s.pos r + 1 = r.lineTime then 0 else s.pos r + 1 := by
  have hchar := h.char
  have hphase := h.phase_lt
  have hlt := r.horizTotal.isLt
  have hcnt : (s.next r).horizCnt =
      if s.characterLastDot r = true then if s.horizLastCnt r = true then 0 else s.horizCnt + 1 else s.horizCnt := rfl
  have hline : s.horizLastCnt r = true ↔ s.horizCnt.toNat = r.lastChar := by
    unfold horizLastCnt RasterRegs.lastChar
    rw [beq_iff_eq, BitVec.toNat_inj]
  unfold RasterRegs.lineTime
  rw [pos, h.phase_next, hcnt]
  by_cases hlast : s.characterLastDot r = true
  · have htime := h.characterLastDot_iff.1 hlast
    have hpos : s.pos r + 1 = (s.horizCnt.toNat + 1) * r.charTime := by
      rw [pos, Nat.add_assoc, htime, Nat.succ_mul]
    rw [if_pos hlast, if_pos hlast, hpos, Nat.add_zero]
    by_cases hend : s.horizLastCnt r = true
    · rw [if_pos hend, if_pos (by rw [hline.1 hend])]
      exact Nat.zero_mul _
    · have hroom : s.horizCnt.toNat + 1 < 2 ^ 9 := by
        have := mt hline.2 hend
        unfold RasterRegs.lastChar at *
        omega
      rw [if_neg hend, toNat_succ hroom, if_neg]
      intro heq
      have := Nat.eq_of_mul_eq_mul_right (Nat.zero_lt_of_lt hphase) heq
      exact hend (hline.2 (by omega))
  · have htime := mt h.characterLastDot_iff.2 hlast
    rw [if_neg hlast, if_neg hlast, if_neg]
    · exact (Nat.add_assoc _ _ _).symm
    · intro heq
      have hmod : (s.horizCnt.toNat * r.charTime + (s.phase r + 1)) % r.charTime = 0 := by
        rw [← Nat.add_assoc]
        exact heq ▸ Nat.mul_mod_left _ _
      rw [Nat.mul_comm, Nat.mul_add_mod, Nat.mod_eq_of_lt (by omega)] at hmod
      exact absurd hmod (Nat.succ_ne_zero _)

/-! ## The retrace registers -/

/-- The registers of the horizontal retrace are those of the line before. -/
structure Latched (s : Raster) (r : RasterRegs) : Prop extends s.Within r where
  hrs : s.hrsLine = r.horizontalRetraceStart
  hrskew : s.hrskewLine = r.horizontalRetraceSkew
  hre : s.hreLine = r.horizontalRetraceEnd

theorem Latched.next (h : s.Latched r) : (s.next r).Latched r := by
  refine ⟨h.toWithin.next, ?_, ?_, ?_⟩
  · show (if _ then r.horizontalRetraceStart else s.hrsLine) = _
    rw [h.hrs, ite_self]
  · show (if _ then r.horizontalRetraceSkew else s.hrskewLine) = _
    rw [h.hrskew, ite_self]
  · show (if _ then r.horizontalRetraceEnd else s.hreLine) = _
    rw [h.hre, ite_self]

theorem Latched.hss_iff (h : s.Latched r) : s.hss = true ↔ s.horizCnt.toNat = r.retraceChar := by
  unfold hss RasterRegs.retraceChar
  rw [h.hrs, h.hrskew, beq_iff_eq, BitVec.toNat_inj]

/-- The scanline counter goes on with the last enable of the retrace's first character. -/
theorem Latched.advances_iff (h : s.Latched r) : s.advances r = true ↔ s.pos r + 1 = r.advanceTime := by
  have htime := r.charTime_ge
  unfold advances RasterRegs.advanceTime
  rw [Bool.and_eq_true, h.hss_iff, h.characterLastDot_iff, Nat.succ_mul,
    show s.pos r + 1 = r.retraceChar * r.charTime + r.charTime ↔
      s.pos r = r.retraceChar * r.charTime + (r.charTime - 1) by omega, h.at_iff (by omega)]
  omega

theorem Within.vgaprepDotTiming_iff (h : s.Within r) : s.vgaprepDotTiming r = true ↔ s.phase r + 2 = r.charTime := by
  have hdot := h.dot
  have heq : ∀ v : BitVec 4, (s.dotCnt == v) = true ↔ s.dotCnt.toNat = v.toNat := fun v => by
    rw [beq_iff_eq, BitVec.toNat_inj]
  unfold vgaprepDotTiming dotCntEnable phase RasterRegs.charTime RasterRegs.charDots timingDot
  unfold lastDot at hdot
  rw [Bool.and_eq_true, heq]
  cases hdots : r.seq8dotChar <;> cases hdivided : r.seqDotclockDivided <;> cases hdiv : s.dotCntDiv <;>
    simp [hdots] at hdot ⊢ <;> omega

theorem Latched.sync_iff (h : s.Latched r) :
    (s.vgaprepDotTiming r && s.hss) = true ↔ s.pos r + 2 = r.advanceTime := by
  have htime := r.charTime_ge
  unfold RasterRegs.advanceTime
  rw [Bool.and_eq_true, h.hss_iff, h.vgaprepDotTiming_iff, Nat.succ_mul,
    show s.pos r + 2 = r.retraceChar * r.charTime + r.charTime ↔
      s.pos r = r.retraceChar * r.charTime + (r.charTime - 2) by omega, h.at_iff (by omega)]
  omega

end Raster

end Z486.Video
