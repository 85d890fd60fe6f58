/-
When the 15 kHz stage converts (src/soc/vga_tv15.sv): the last two frames of the input were in range, with each of their
lines, each line since has been, and no time-out has run out. The invariant sets the registers of the measurement
against the edges of the syncs: the counters are the clocks since an edge, the shortest and the longest line bound the
lines of the frame, and a count of good frames stands for frames that were good.
-/
import Z486.Clocked.Bits
import Z486.Video.TvMeasure

namespace Z486.Video

open Clocked

/-! ## The syncs of the input -/

/-- The resets and the edges of the syncs that the stage sees, clock by clock. -/
structure SyncEdges where
  reset : Nat → Bool
  hsync : Nat → Bool
  vsync : Nat → Bool

namespace SyncEdges

variable (e : SyncEdges)

/-- A line starts at an edge of hsync, the first one with the reset. -/
def lineStart (t : Nat) : Bool := e.reset t || e.hsync t

def frameStart (t : Nat) : Bool := e.reset t || e.vsync t

/-- The whole clocks of the line in progress before clock `t`. -/
def lineClocks (t : Nat) : Nat := since e.lineStart t

def frameClocks (t : Nat) : Nat := since e.frameStart t

/-- The line that ends with clock `t` is in range. -/
def LineGood (t : Nat) : Prop := lineLo ≤ e.lineClocks t + 1 ∧ e.lineClocks t + 1 ≤ lineHi

def LinesGood (v t : Nat) : Prop := ∀ u, v < u → u < t → e.hsync u = true → e.LineGood u

/-- A frame from the edge in clock `v`, or the reset, to that in clock `w`, with a number of lines in range. -/
structure Frame (v w : Nat) : Prop where
  start : e.frameStart v = true
  running : e.reset w = false
  ends : e.vsync w = true
  order : v < w
  inside : ∀ u, v < u → u < w → e.frameStart u = false
  atLeast : linesLo ≤ pulses e.hsync (v + 1) w
  atMost : pulses e.hsync (v + 1) w ≤ linesHi

/-- The last two frames before clock `t`, from `v₀` to `v₁` and from there to `v₂`, were in range; so were their lines
and the lines since, and no time-out has run out. -/
structure Steady (t v₀ v₁ v₂ : Nat) : Prop where
  first : e.Frame v₀ v₁
  second : e.Frame v₁ v₂
  last : v₂ < t
  current : ∀ u, v₂ < u → u < t → e.frameStart u = false
  lines : e.LinesGood v₀ t
  lineTime : ∀ u, v₀ < u → u < t → e.lineClocks u ≤ 2 * lineHi
  frameTime : ∀ u, v₀ < u → u < t → e.frameClocks u ≤ frameMax

variable {e} {t v w : Nat}

theorem LinesGood.succ (h : e.LinesGood v t) (ht : e.hsync t = true → e.LineGood t) : e.LinesGood v (t + 1) := by
  intro u hlo hhi hhs
  rcases Nat.lt_succ_iff_lt_or_eq.1 hhi with hlt | rfl
  · exact h u hlo hlt hhs
  · exact ht hhs

theorem LinesGood.of_le (h : e.LinesGood v t) (hvw : v ≤ w) : e.LinesGood w t :=
  fun u hlo hhi hhs => h u (Nat.lt_of_le_of_lt hvw hlo) hhi hhs

/-! ## Times within good lines -/

/-- A line in progress is shorter than the one that it ends up as, or it is the last. -/
theorem LinesGood.lineTime (h : e.LinesGood v t) (hreset : ∀ u, v < u → u < t → e.reset u = false)
    (hlast : e.lineClocks t ≤ 2 * lineHi + 1) {u : Nat} (hvu : v < u) (hut : u < t) : e.lineClocks u ≤ 2 * lineHi := by
  by_cases hend : ∃ w, u ≤ w ∧ w < t ∧ e.lineStart w = true
  · obtain ⟨w, huw, ⟨hwt, hstart⟩, hbefore⟩ := exists_first hend
    have hhs : e.hsync w = true := by
      have hrun := hreset w (Nat.lt_of_lt_of_le hvu huw) hwt
      rwa [lineStart, hrun, Bool.false_or] at hstart
    have hmono : e.lineClocks u ≤ e.lineClocks w := since_mono huw fun x hux hxw =>
      Bool.eq_false_of_not_eq_true fun hx => hbefore x hux hxw ⟨Nat.lt_trans hxw hwt, hx⟩
    have := (h w (Nat.lt_of_lt_of_le hvu huw) hwt hhs).2
    omega
  · have hquiet : ∀ x, u ≤ x → x < u + (t - u) → e.lineStart x = false := fun x hux hxt =>
      Bool.eq_false_of_not_eq_true fun hx => hend ⟨x, hux, by omega, hx⟩
    have hgrow : e.lineClocks (u + (t - u)) = e.lineClocks u + (t - u) := since_add hquiet
    rw [Nat.add_sub_cancel' (Nat.le_of_lt hut)] at hgrow
    omega

/-- A frame of no more lines than are allowed, none of them too long, is no longer than a picture may wait. -/
theorem Frame.frameTime (h : e.Frame v w) (hlines : e.LinesGood v w)
    (hline : ∀ u, v < u → u ≤ w → e.lineClocks u ≤ 2 * lineHi) {u : Nat} (hvu : v < u) (huw : u ≤ w) :
    e.frameClocks u ≤ frameMax := by
  have hspan : u - v - 1 ≤ pulses e.hsync (v + 1) u * lineHi + e.lineClocks u := by
    refine span_le hvu fun x hvx hxu hstart => ?_
    have hrun := h.inside x hvx (Nat.lt_of_lt_of_le hxu huw)
    rw [frameStart, Bool.or_eq_false_iff] at hrun
    rw [lineStart, hrun.1, Bool.false_or] at hstart
    exact ⟨hstart, (hlines x hvx (Nat.lt_of_lt_of_le hxu huw) hstart).2⟩
  have hframe : e.frameClocks u = u - v - 1 :=
    since_of_last h.start hvu fun x hvx hxu => h.inside x hvx (Nat.lt_of_lt_of_le hxu huw)
  have hcount : pulses e.hsync (v + 1) u * lineHi ≤ linesHi * lineHi := by
    refine Nat.mul_le_mul_right _ (Nat.le_trans ?_ h.atMost)
    rw [pulses_add e.hsync (Nat.succ_le_of_lt hvu) huw]
    exact Nat.le_add_right _ _
  have hline := hline u hvu huw
  have hroom : linesHi * lineHi + 2 * lineHi ≤ frameMax := by decide
  omega

end SyncEdges

/-- The syncs of a run of the stage. -/
def Tv15.edges (s₀ : Tv15) (inp : Nat → TvIn) : SyncEdges where
  reset t := (inp t).reset
  hsync t := !(inp t).reset && (run Tv15.step s₀ inp t).stage.hsRise (inp t)
  vsync t := !(inp t).reset && (run Tv15.step s₀ inp t).stage.vsRise (inp t)

/-! ## One clock of the judgement -/

namespace TvMeasure

variable {s : TvMeasure} {i : TvMeasureIn}

/-- What it takes for a count of frames or the conversion to be left after a clock. -/
theorem judge_cases (h : (s.judge i).1 ≠ 0 ∨ (s.judge i).2 = true) :
    s.timeOut = false ∧
      (i.vsRise = true ∧ s.frameOk i = true ∧ ((s.judge i).2 = true → s.okCnt ≠ 0 ∨ s.convert = true) ∨
        i.vsRise = false ∧ (i.hsRise = true → s.lineOut = false) ∧ s.judge i = (s.okCnt, s.convert)) := by
  have hnone : ¬((0 : BitVec 2) ≠ 0 ∨ false = true) := fun h => h.elim (fun h => h rfl) Bool.false_ne_true
  cases htime : s.timeOut with
  | true =>
    rw [judge, if_pos htime] at h
    exact absurd h hnone
  | false =>
    have hjudge : s.judge i = s.judgeFrame i := if_neg (Bool.eq_false_iff.1 htime)
    rw [hjudge] at h ⊢
    refine ⟨rfl, ?_⟩
    unfold judgeFrame at h ⊢
    cases hvs : i.vsRise with
    | true =>
      rw [hvs, if_pos rfl] at h
      cases hok : s.frameOk i with
      | false =>
        rw [hok, if_neg Bool.false_ne_true] at h
        exact absurd h hnone
      | true =>
        refine .inl ⟨rfl, rfl, fun hconv => ?_⟩
        rw [if_pos rfl, if_pos rfl] at hconv
        by_cases hzero : s.okCnt = 0
        · right
          rw [hzero] at hconv
          replace hconv : (s.judgeLine i).2 = true := hconv
          unfold judgeLine at hconv
          split at hconv
          case isTrue => exact absurd hconv Bool.false_ne_true
          case isFalse => exact hconv
        · exact .inl hzero
    | false =>
      rw [hvs, if_neg Bool.false_ne_true] at h
      rw [if_neg Bool.false_ne_true]
      unfold judgeLine at h ⊢
      cases hbad : i.hsRise && s.lineOut with
      | true =>
        rw [hbad, if_pos rfl] at h
        exact absurd h hnone
      | false =>
        refine .inr ⟨rfl, fun hhs => ?_, if_neg Bool.false_ne_true⟩
        rwa [hhs, Bool.true_and] at hbad

theorem frameOk_iff : s.frameOk i = true ↔
    lineLo ≤ s.lineMin.toNat ∧ s.lineMax.toNat ≤ lineHi ∧ linesLo ≤ i.frameLines.toNat ∧ i.frameLines.toNat ≤ linesHi := by
  unfold frameOk
  rw [Bool.and_eq_true, Bool.and_eq_true, Bool.and_eq_true, decide_eq_true_iff, decide_eq_true_iff, decide_eq_true_iff,
    decide_eq_true_iff, BitVec.le_def, BitVec.le_def, BitVec.le_def, BitVec.le_def, and_assoc, and_assoc]
  rfl

theorem lineOut_eq_false_iff : s.lineOut = false ↔ lineLo ≤ s.cycCnt.toNat ∧ s.cycCnt.toNat ≤ lineHi := by
  unfold lineOut
  rw [Bool.or_eq_false_iff, decide_eq_false_iff_not, decide_eq_false_iff_not, BitVec.not_lt, BitVec.not_lt,
    BitVec.le_def, BitVec.le_def]
  rfl

theorem timeOut_eq_false_iff :
    s.timeOut = false ↔ s.cycCnt.toNat ≤ 2 * lineHi ∧ s.frameCyc.toNat ≤ frameMax := by
  have hcyc := s.cycCnt.isLt
  unfold timeOut
  rw [Bool.or_eq_false_iff, decide_eq_false_iff_not, decide_eq_false_iff_not, BitVec.not_lt, BitVec.not_lt,
    BitVec.le_def, BitVec.le_def, BitVec.toNat_setWidth, Nat.mod_eq_of_lt (by omega)]
  rfl

end TvMeasure

/-! ## The registers and the edges -/

namespace Tv15

variable {e : SyncEdges} {t f : Nat} {s : Tv15} {i : TvIn}

/-- The measurement before clock `t` of a frame that began in clock `f`. -/
structure Counts (e : SyncEdges) (t f : Nat) (s : Tv15) : Prop where
  lt : f < t
  start : e.frameStart f = true
  current : ∀ u, f < u → u < t → e.frameStart u = false
  cycCnt : s.measure.cycCnt = BitVec.ofNat 16 (e.lineClocks t)
  frameCyc : s.measure.frameCyc = BitVec.ofNat 24 (e.frameClocks t)
  frameLines : s.stage.frameLines.toNat = min 2047 (pulses e.hsync (f + 1) t)
  bounds : ∀ u, f < u → u < t → e.hsync u = true →
    s.measure.lineMin.toNat ≤ e.lineClocks u % 2 ^ 16 ∧ e.lineClocks u % 2 ^ 16 ≤ s.measure.lineMax.toNat

/-- The edges of clock `t` are those that the stage in state `s` sees. -/
structure Sees (e : SyncEdges) (t : Nat) (s : Tv15) (i : TvIn) : Prop where
  reset : e.reset t = i.reset
  hsync : e.hsync t = (!i.reset && s.stage.hsRise i)
  vsync : e.vsync t = (!i.reset && s.stage.vsRise i)

theorem Sees.lineStart (h : Sees e t s i) : e.lineStart t = (i.reset || s.stage.hsRise i) := by
  unfold SyncEdges.lineStart
  rw [h.reset, h.hsync]
  cases i.reset <;> rfl

theorem Sees.frameStart (h : Sees e t s i) : e.frameStart t = (i.reset || s.stage.vsRise i) := by
  unfold SyncEdges.frameStart
  rw [h.reset, h.vsync]
  cases i.reset <;> rfl

theorem cycCnt_step (h : Sees e t s i) (hcnt : s.measure.cycCnt = BitVec.ofNat 16 (e.lineClocks t)) :
    (s.step i).measure.cycCnt = BitVec.ofNat 16 (e.lineClocks (t + 1)) := by
  have hstep : (s.step i).measure.cycCnt = if e.lineStart t then 0 else s.measure.cycCnt + 1 := by
    rw [h.lineStart]
    show (if i.reset then 0 else if s.stage.hsRise i then 0 else s.measure.cycCnt + 1) = _
    cases i.reset <;> rfl
  rw [hstep]
  unfold SyncEdges.lineClocks at hcnt ⊢
  cases hstart : e.lineStart t with
  | true => rw [since_event hstart]; rfl
  | false =>
    rw [since_quiet hstart, ofNat_succ, hcnt]
    rfl

theorem frameCyc_step (h : Sees e t s i) (hcnt : s.measure.frameCyc = BitVec.ofNat 24 (e.frameClocks t)) :
    (s.step i).measure.frameCyc = BitVec.ofNat 24 (e.frameClocks (t + 1)) := by
  have hstep : (s.step i).measure.frameCyc = if e.frameStart t then 0 else s.measure.frameCyc + 1 := by
    rw [h.frameStart]
    show (if i.reset then 0 else if s.stage.vsRise i then 0 else s.measure.frameCyc + 1) = _
    cases i.reset <;> rfl
  rw [hstep]
  unfold SyncEdges.frameClocks at hcnt ⊢
  cases hstart : e.frameStart t with
  | true => rw [since_event hstart]; rfl
  | false =>
    rw [since_quiet hstart, ofNat_succ, hcnt]
    rfl

theorem frameLines_start (h : Sees e t s i) (hstart : e.frameStart t = true) : (s.step i).stage.frameLines = 0 := by
  rw [h.frameStart] at hstart
  show (if i.reset then 0 else s.stage.frameLinesNext i) = _
  cases hreset : i.reset with
  | true => rfl
  | false =>
    rw [hreset, Bool.false_or] at hstart
    exact if_pos hstart

theorem frameLines_step (h : Sees e t s i) (hstart : e.frameStart t = false) {n : Nat}
    (hlines : s.stage.frameLines.toNat = min 2047 n) :
    (s.step i).stage.frameLines.toNat = min 2047 (n + if e.hsync t = true then 1 else 0) := by
  rw [h.frameStart, Bool.or_eq_false_iff] at hstart
  have hstep : (s.step i).stage.frameLines =
      if s.stage.hsRise i && s.stage.frameLines != 0x7FF then s.stage.frameLines + 1 else s.stage.frameLines := by
    show (if i.reset then 0 else s.stage.frameLinesNext i) = _
    rw [hstart.1, if_neg Bool.false_ne_true]
    unfold TvStage.frameLinesNext
    rw [hstart.2, if_neg Bool.false_ne_true]
  rw [hstep, h.hsync, hstart.1, Bool.not_false, Bool.true_and]
  cases s.stage.hsRise i with
  | false =>
    rw [Bool.false_and, if_neg Bool.false_ne_true, if_neg Bool.false_ne_true]
    exact hlines
  | true =>
    rw [Bool.true_and, if_pos rfl]
    by_cases hfull : s.stage.frameLines = 0x7FF
    · rw [hfull] at hlines ⊢
      replace hlines : 2047 = min 2047 n := hlines
      show 2047 = _
      omega
    · have hlt := s.stage.frameLines.isLt
      have hne : s.stage.frameLines.toNat ≠ 2047 := fun heq => hfull (BitVec.eq_of_toNat_eq heq)
      rw [if_pos (bne_iff_ne.2 hfull), BitVec.toNat_add]
      show (_ + 1) % 2048 = _
      omega

/-- The shortest and the longest line take in the line that ends. -/
theorem bounds_step (h : Sees e t s i) (hstart : e.frameStart t = false) :
    (s.step i).measure.lineMin.toNat ≤ s.measure.lineMin.toNat ∧
      s.measure.lineMax.toNat ≤ (s.step i).measure.lineMax.toNat ∧
      (e.hsync t = true → (s.step i).measure.lineMin.toNat ≤ s.measure.cycCnt.toNat ∧
        s.measure.cycCnt.toNat ≤ (s.step i).measure.lineMax.toNat) := by
  rw [h.frameStart, Bool.or_eq_false_iff] at hstart
  have hmin : (s.step i).measure.lineMin =
      if s.stage.hsRise i && decide (s.measure.cycCnt < s.measure.lineMin) then s.measure.cycCnt
      else s.measure.lineMin := by
    show (if i.reset then 0xFFFF else if s.stage.vsRise i then 0xFFFF else _) = _
    rw [hstart.1, hstart.2, if_neg Bool.false_ne_true, if_neg Bool.false_ne_true]
    rfl
  have hmax : (s.step i).measure.lineMax =
      if s.stage.hsRise i && decide (s.measure.lineMax < s.measure.cycCnt) then s.measure.cycCnt
      else s.measure.lineMax := by
    show (if i.reset then 0 else if s.stage.vsRise i then 0 else _) = _
    rw [hstart.1, hstart.2, if_neg Bool.false_ne_true, if_neg Bool.false_ne_true]
    rfl
  rw [hmin, hmax, h.hsync, hstart.1, Bool.not_false, Bool.true_and]
  cases s.stage.hsRise i with
  | false => exact ⟨Nat.le_refl _, Nat.le_refl _, fun hhs => absurd hhs Bool.false_ne_true⟩
  | true =>
    rw [Bool.true_and, Bool.true_and]
    refine ⟨?_, ?_, fun _ => ⟨?_, ?_⟩⟩
    all_goals split
    all_goals simp only [decide_eq_true_eq, BitVec.lt_def] at *
    all_goals omega

theorem Counts.step (h : Counts e t f s) (hsees : Sees e t s i) :
    Counts e (t + 1) (if e.frameStart t then t else f) (s.step i) := by
  have hcyc := cycCnt_step hsees h.cycCnt
  have hframe := frameCyc_step hsees h.frameCyc
  cases hstart : e.frameStart t with
  | true =>
    rw [if_pos rfl]
    refine ⟨Nat.lt_succ_self t, hstart, fun u hlo hhi => absurd hhi (by omega), hcyc, hframe, ?_,
      fun u hlo hhi => absurd hhi (by omega)⟩
    rw [frameLines_start hsees hstart, pulses_self]
    rfl
  | false =>
    rw [if_neg Bool.false_ne_true]
    obtain ⟨hmin, hmax, hline⟩ := bounds_step hsees hstart
    have hnat : s.measure.cycCnt.toNat = e.lineClocks t % 2 ^ 16 := by rw [h.cycCnt, BitVec.toNat_ofNat]
    refine ⟨Nat.lt_succ_of_lt h.lt, h.start, fun u hlo hhi => ?_, hcyc, hframe, ?_, fun u hlo hhi hhs => ?_⟩
    · rcases Nat.lt_succ_iff_lt_or_eq.1 hhi with hlt | rfl
      · exact h.current u hlo hlt
      · exact hstart
    · rw [pulses_succ _ h.lt]
      exact frameLines_step hsees hstart h.frameLines
    · rcases Nat.lt_succ_iff_lt_or_eq.1 hhi with hlt | rfl
      · obtain ⟨hge, hle⟩ := h.bounds u hlo hlt hhs
        exact ⟨hmin.trans hge, hle.trans hmax⟩
      · rw [← hnat]
        exact hline hhs

/-! ## Good frames -/

/-- The frame before that of clock `f` was in range, and its lines and those since. -/
def OneGood (e : SyncEdges) (t f : Nat) : Prop := ∃ v, e.Frame v f ∧ e.LinesGood v t

def TwoGood (e : SyncEdges) (t f : Nat) : Prop := ∃ v w, e.Frame v w ∧ e.Frame w f ∧ e.LinesGood v t

/-- What a count of good frames and the conversion stand for before clock `t`. A time-out is seen only where the counter
has not come round, which the line in progress has not once a line has ended in a good frame. -/
structure Judged (e : SyncEdges) (t f : Nat) (s : Tv15) : Prop where
  one : s.measure.okCnt ≠ 0 → OneGood e t f
  two : s.measure.convert = true → TwoGood e t f
  frameTime : s.measure.okCnt ≠ 0 ∨ s.measure.convert = true → e.frameClocks t ≤ frameMax + 1
  lineTime : s.measure.okCnt ≠ 0 ∧ s.stage.frameLines ≠ 0 ∨ s.measure.convert = true →
    e.lineClocks t ≤ 2 * lineHi + 1

/-- A line longer than the longest allowed is not counted as one in range. -/
def CountedOut (e : SyncEdges) (t : Nat) : Prop :=
  lineHi < e.lineClocks t + 1 → ¬(lineLo ≤ e.lineClocks t % 2 ^ 16 ∧ e.lineClocks t % 2 ^ 16 ≤ lineHi)

/-- Then a line that is counted as one in range is in range. -/
theorem lineGood_of_counted (hcounted : CountedOut e t) (hlo : lineLo ≤ e.lineClocks t % 2 ^ 16)
    (hhi : e.lineClocks t % 2 ^ 16 ≤ lineHi) : e.LineGood t := by
  have hshort : e.lineClocks t + 1 ≤ lineHi := by
    by_contra hlong
    exact hcounted (Nat.lt_of_not_le hlong) ⟨hlo, hhi⟩
  have hword : lineHi < 2 ^ 16 := by decide
  rw [Nat.mod_eq_of_lt (Nat.lt_trans hshort hword)] at hlo
  exact ⟨Nat.le_succ_of_le hlo, hshort⟩

/-- A frame that the stage takes for good was. -/
theorem frame_of_ok (hcounts : Counts e t f s) (hcounted : ∀ u, e.hsync u = true → CountedOut e u)
    (hreset : e.reset t = false) (hvs : e.vsync t = true) (hok : s.measure.frameOk (s.measureIn i) = true) :
    e.Frame f t ∧ e.LinesGood f t := by
  obtain ⟨hmin, hmax, hlo, hhi⟩ := TvMeasure.frameOk_iff.1 hok
  replace hlo : linesLo ≤ s.stage.frameLines.toNat := hlo
  replace hhi : s.stage.frameLines.toNat ≤ linesHi := hhi
  rw [hcounts.frameLines] at hlo hhi
  have hfull : linesLo ≤ 2047 ∧ linesHi < 2047 := by decide
  refine ⟨⟨hcounts.start, hreset, hvs, hcounts.lt, hcounts.current, by omega, by omega⟩, fun u hfu hut hhs => ?_⟩
  obtain ⟨hge, hle⟩ := hcounts.bounds u hfu hut hhs
  exact lineGood_of_counted (hcounted u hhs) (hmin.trans hge) (hle.trans hmax)

/-- A line time-out that the counter shows. -/
theorem lineTime_succ (hcounts : Counts e t f s) (htime : s.measure.timeOut = false)
    (h : e.lineClocks t ≤ 2 * lineHi + 1) : e.lineClocks (t + 1) ≤ 2 * lineHi + 1 := by
  have hle := (TvMeasure.timeOut_eq_false_iff.1 htime).1
  have hword : 2 * lineHi + 1 < 2 ^ 16 := by decide
  rw [hcounts.cycCnt, BitVec.toNat_ofNat, Nat.mod_eq_of_lt (Nat.lt_of_le_of_lt h hword)] at hle
  cases hstart : e.lineStart t with
  | true => exact (since_event hstart).trans_le (Nat.zero_le _)
  | false => exact (since_quiet hstart).trans_le (Nat.succ_le_succ hle)

theorem frameTime_succ (hcounts : Counts e t f s) (htime : s.measure.timeOut = false)
    (h : e.frameClocks t ≤ frameMax + 1) : e.frameClocks (t + 1) ≤ frameMax + 1 := by
  have hle := (TvMeasure.timeOut_eq_false_iff.1 htime).2
  have hword : frameMax + 1 < 2 ^ 24 := by decide
  rw [hcounts.frameCyc, BitVec.toNat_ofNat, Nat.mod_eq_of_lt (Nat.lt_of_le_of_lt h hword)] at hle
  cases hstart : e.frameStart t with
  | true => exact (since_event hstart).trans_le (Nat.zero_le _)
  | false => exact (since_quiet hstart).trans_le (Nat.succ_le_succ hle)

theorem Judged.of_none (hok : s.measure.okCnt = 0) (hconv : s.measure.convert = false) : Judged e t f s := by
  refine ⟨fun h => absurd hok h, fun h => ?_, fun h => ?_, fun h => ?_⟩
  · exact absurd h (Bool.eq_false_iff.1 hconv)
  · exact absurd h (not_or.2 ⟨not_not.2 hok, Bool.eq_false_iff.1 hconv⟩)
  · exact absurd h (not_or.2 ⟨fun h => h.1 hok, Bool.eq_false_iff.1 hconv⟩)

theorem Judged.step (h : Judged e t f s) (hcounts : Counts e t f s) (hsees : Sees e t s i)
    (hcounted : ∀ u, e.hsync u = true → CountedOut e u)
    (hedge : e.hsync t = true → e.vsync t = true → s.measure.frameOk (s.measureIn i) = true → e.LineGood t) :
    Judged e (t + 1) (if e.frameStart t then t else f) (s.step i) := by
  have hnext : (s.step i).measure.okCnt = (if i.reset then 0 else (s.measure.judge (s.measureIn i)).1) ∧
      (s.step i).measure.convert = (if i.reset then false else (s.measure.judge (s.measureIn i)).2) := ⟨rfl, rfl⟩
  obtain ⟨hokNext, hconvNext⟩ := hnext
  cases hreset : i.reset with
  | true =>
    rw [hreset, if_pos rfl] at hokNext hconvNext
    exact .of_none hokNext hconvNext
  | false =>
    rw [hreset, if_neg Bool.false_ne_true] at hokNext hconvNext
    by_cases hleft : (s.measure.judge (s.measureIn i)).1 ≠ 0 ∨ (s.measure.judge (s.measureIn i)).2 = true
    · obtain ⟨htime, hcases⟩ := TvMeasure.judge_cases hleft
      have hvs : e.vsync t = (s.measureIn i).vsRise := by rw [hsees.vsync, hreset]; rfl
      have hhs : e.hsync t = (s.measureIn i).hsRise := by rw [hsees.hsync, hreset]; rfl
      have hframe : e.frameStart t = (s.measureIn i).vsRise := by rw [hsees.frameStart, hreset]; rfl
      rcases hcases with ⟨hrise, hok, hbefore⟩ | ⟨hrise, hline, hkept⟩
      · -- the frame that ends is good, and so is the line that ends with it
        rw [hrise] at hvs hframe
        obtain ⟨hgood, hlines⟩ := frame_of_ok hcounts hcounted (hsees.reset.trans hreset) hvs hok
        have hlast : e.hsync t = true → e.LineGood t := fun hhs => hedge hhs hvs hok
        rw [hframe, if_pos rfl]
        refine ⟨fun _ => ⟨f, hgood, hlines.succ hlast⟩, fun hconv => ?_, fun _ => ?_, fun hready => ?_⟩
        · rcases hbefore (hconvNext ▸ hconv) with hone | htwo
          · obtain ⟨v, hfirst, hlines⟩ := h.one hone
            exact ⟨v, f, hfirst, hgood, hlines.succ hlast⟩
          · obtain ⟨v, w, hfirst, hsecond, hlines⟩ := h.two htwo
            exact ⟨w, f, hsecond, hgood, (hlines.of_le (Nat.le_of_lt hfirst.order)).succ hlast⟩
        · exact (since_event hframe).trans_le (Nat.zero_le _)
        · rcases hready with ⟨-, hsome⟩ | hconv
          · exact absurd (frameLines_start hsees hframe) hsome
          · have hsome : s.stage.frameLines ≠ 0 := by
              intro hnone
              have hlo := (TvMeasure.frameOk_iff.1 hok).2.2.1
              replace hlo : linesLo ≤ s.stage.frameLines.toNat := hlo
              rw [hnone] at hlo
              exact absurd hlo (by decide)
            refine lineTime_succ hcounts htime (h.lineTime ?_)
            exact (hbefore (hconvNext ▸ hconv)).imp (fun hone => ⟨hone, hsome⟩) id
      · -- within a frame nothing has been judged but the line that ends
        rw [hkept] at hokNext hconvNext
        rw [hrise] at hframe
        replace hokNext : (s.step i).measure.okCnt = s.measure.okCnt := hokNext
        replace hconvNext : (s.step i).measure.convert = s.measure.convert := hconvNext
        have hlast : e.hsync t = true → e.LineGood t := by
          intro hend
          obtain ⟨hlo, hhi⟩ := TvMeasure.lineOut_eq_false_iff.1 (hline (hhs ▸ hend))
          rw [hcounts.cycCnt, BitVec.toNat_ofNat] at hlo hhi
          exact lineGood_of_counted (hcounted t hend) hlo hhi
        rw [hframe, if_neg Bool.false_ne_true]
        refine ⟨fun hone => ?_, fun hconv => ?_, fun hleft => ?_, fun hready => ?_⟩
        · obtain ⟨v, hfirst, hlines⟩ := h.one (hokNext ▸ hone)
          exact ⟨v, hfirst, hlines.succ hlast⟩
        · obtain ⟨v, w, hfirst, hsecond, hlines⟩ := h.two (hconvNext ▸ hconv)
          exact ⟨v, w, hfirst, hsecond, hlines.succ hlast⟩
        · rw [hokNext, hconvNext] at hleft
          exact frameTime_succ hcounts htime (h.frameTime hleft)
        · cases hend : e.hsync t with
          | true =>
            have hstart : e.lineStart t = true := by rw [SyncEdges.lineStart, hend, Bool.or_true]
            exact (since_event hstart).trans_le (Nat.zero_le _)
          | false =>
            have hsame : (s.step i).stage.frameLines = s.stage.frameLines := by
              have hquiet : s.stage.hsRise i = false := hhs.symm.trans hend
              show (if i.reset then 0 else s.stage.frameLinesNext i) = _
              rw [hreset, if_neg Bool.false_ne_true]
              unfold TvStage.frameLinesNext
              rw [show s.stage.vsRise i = false from hrise, hquiet]
              rfl
            rw [hokNext, hconvNext, hsame] at hready
            exact lineTime_succ hcounts htime (h.lineTime hready)
    · obtain ⟨hok, hconv⟩ := not_or.1 hleft
      exact .of_none (hokNext.trans (not_not.1 hok)) (hconvNext.trans (Bool.eq_false_iff.2 hconv))

/-! ## Runs -/

/-- A conversion stands for two good frames, and no time-out has run out in them or since. -/
theorem Judged.steady (h : Judged e t f s) (hcounts : Counts e t f s) (hconv : s.measure.convert = true) :
    ∃ v₀ v₁ v₂, e.Steady t v₀ v₁ v₂ := by
  obtain ⟨v, w, hfirst, hsecond, hlines⟩ := h.two hconv
  have hline := h.lineTime (.inr hconv)
  have hframe := h.frameTime (.inr hconv)
  have hvw := hfirst.order
  have hwf := hsecond.order
  have hft := hcounts.lt
  have hrun : ∀ u, v < u → u < t → e.reset u = false := by
    intro u hvu hut
    have hstart : u = w ∨ u = f ∨ e.frameStart u = false := by
      rcases Nat.lt_trichotomy u w with hlt | heq | hgt
      · exact .inr (.inr (hfirst.inside u hvu hlt))
      · exact .inl heq
      · rcases Nat.lt_trichotomy u f with hlt | heq | hgt'
        · exact .inr (.inr (hsecond.inside u hgt hlt))
        · exact .inr (.inl heq)
        · exact .inr (.inr (hcounts.current u hgt' hut))
    rcases hstart with rfl | rfl | hquiet
    · exact hfirst.running
    · exact hsecond.running
    · exact (Bool.or_eq_false_iff.1 hquiet).1
  have htime : ∀ u, v < u → u < t → e.lineClocks u ≤ 2 * lineHi := fun u hvu hut => hlines.lineTime hrun hline hvu hut
  refine ⟨v, w, f, hfirst, hsecond, hft, hcounts.current, hlines, htime, fun u hvu hut => ?_⟩
  rcases Nat.lt_or_ge w u with hwu | huw
  · rcases Nat.lt_or_ge f u with hfu | huf
    · -- the frame in progress has no number of lines yet, but a counter that is still in range
      have hgrow : e.frameClocks (u + (t - u)) = e.frameClocks u + (t - u) :=
        since_add fun x hux hxt => hcounts.current x (Nat.lt_of_lt_of_le hfu hux) (by omega)
      rw [Nat.add_sub_cancel' (Nat.le_of_lt hut)] at hgrow
      omega
    · exact hsecond.frameTime (fun x hwx hxf => hlines x (by omega) (by omega))
        (fun x hwx hxf => htime x (by omega) (by omega)) hwu huf
  · exact hfirst.frameTime (fun x hvx hxw => hlines x hvx (by omega)) (fun x hvx hxw => htime x hvx (by omega)) hvu huw

section Runs

variable (s₀ : Tv15) (inp : Nat → TvIn)

theorem sees_run (t : Nat) : Sees (edges s₀ inp) t (run step s₀ inp t) (inp t) := ⟨rfl, rfl, rfl⟩

/-- The first clock after a reset. -/
theorem counts_reset (hreset : (inp 0).reset = true) : Counts (edges s₀ inp) 1 0 (run step s₀ inp 1) := by
  have hstart : (edges s₀ inp).frameStart 0 = true := by
    rw [(sees_run s₀ inp 0).frameStart, hreset]
    rfl
  have hline : (edges s₀ inp).lineStart 0 = true := by
    rw [(sees_run s₀ inp 0).lineStart, hreset]
    rfl
  refine ⟨Nat.zero_lt_one, hstart, fun u hlo hhi => absurd hhi (by omega), ?_, ?_, ?_,
    fun u hlo hhi => absurd hhi (by omega)⟩
  · rw [show (edges s₀ inp).lineClocks 1 = 0 from since_event hline]
    show (if (inp 0).reset then 0 else _) = _
    rw [hreset]
    rfl
  · rw [show (edges s₀ inp).frameClocks 1 = 0 from since_event hstart]
    show (if (inp 0).reset then 0 else _) = _
    rw [hreset]
    rfl
  · rw [pulses_self]
    exact congrArg BitVec.toNat (frameLines_start (sees_run s₀ inp 0) hstart)

theorem judged_reset (hreset : (inp 0).reset = true) : Judged (edges s₀ inp) 1 0 (run step s₀ inp 1) := by
  refine .of_none ?_ ?_
  · show (if (inp 0).reset then 0 else _) = _
    rw [hreset]
    rfl
  · show (if (inp 0).reset then false else _) = _
    rw [hreset]
    rfl

end Runs

/-- From a reset on, where every line that is too long is counted as such and none that ends with a good frame is out of
range: the stage converts only while the last two frames were in range, with all their lines and those since, and no
time-out has run out; elsewhere its pins carry the raster of its own. -/
theorem convert_steady (s₀ : Tv15) (inp : Nat → TvIn) (hreset : (inp 0).reset = true)
    (hcounted : ∀ t, (edges s₀ inp).hsync t = true → CountedOut (edges s₀ inp) t)
    (hedge : ∀ t, (edges s₀ inp).hsync t = true → (edges s₀ inp).vsync t = true →
      (run step s₀ inp t).measure.frameOk ((run step s₀ inp t).measureIn (inp t)) = true →
        (edges s₀ inp).LineGood t) (t : Nat) :
    ((run step s₀ inp (t + 1)).measure.convert = true → ∃ v₀ v₁ v₂, (edges s₀ inp).Steady (t + 1) v₀ v₁ v₂) ∧
      ((¬∃ v₀ v₁ v₂, (edges s₀ inp).Steady (t + 1) v₀ v₁ v₂) →
        (run step s₀ inp (t + 2)).alt = (run step s₀ inp (t + 1)).safe.picture) := by
  have hinv : ∃ f, Counts (edges s₀ inp) (t + 1) f (run step s₀ inp (t + 1)) ∧
      Judged (edges s₀ inp) (t + 1) f (run step s₀ inp (t + 1)) := by
    induction t with
    | zero => exact ⟨0, counts_reset s₀ inp hreset, judged_reset s₀ inp hreset⟩
    | succ t ih =>
      obtain ⟨f, hcounts, hjudged⟩ := ih
      have hsees := sees_run s₀ inp (t + 1)
      exact ⟨_, hcounts.step hsees, hjudged.step hcounts hsees hcounted (hedge (t + 1))⟩
  obtain ⟨f, hcounts, hjudged⟩ := hinv
  have hsteady := hjudged.steady hcounts
  refine ⟨hsteady, fun hnot => ?_⟩
  exact if_neg (mt hsteady hnot)

/-! ## A raster -/

/-- Lines of 2701 clocks, 450 of them a frame, from the reset in clock 0 on. -/
def rasterIn (t : Nat) : TvIn where
  reset := decide (t = 0)
  hpos := 0
  vpos := 0
  ilaceEn := false
  doublescan := false
  ce := true
  rgb := 0
  hs := decide (t % 2701 = 0)
  vs := decide (t % 1215450 = 0)
  de := false

def idle : Tv15 where
  stage := ⟨false, false, 0, 960, 0, ⟨0, 0, 0, 0, 0, false, false, 0, 0, 0, 0, 0, 0, 0, false, false⟩, TvStore.idle⟩
  measure := ⟨0, 0, 0, 0, 0, false⟩
  safe := ⟨0, 0⟩
  alt := ⟨false, false, false, 0⟩

/-- The stage `m` clocks after the reset. -/
structure AtRaster (m : Nat) (s : Tv15) : Prop where
  hsR : s.stage.hsR = decide (m % 2701 = 0)
  vsR : s.stage.vsR = decide (m % 1215450 = 0)
  frameLines : s.stage.frameLines.toNat = m % 1215450 / 2701
  cycCnt : s.measure.cycCnt.toNat = m % 2701
  lineMin : s.measure.lineMin.toNat = if m % 1215450 < 2701 then 65535 else 2700
  lineMax : s.measure.lineMax.toNat = if m % 1215450 < 2701 then 0 else 2700
  frameCyc : s.measure.frameCyc.toNat = m % 1215450
  okCnt : s.measure.okCnt.toNat = min 3 (m / 1215450)
  convert : s.measure.convert = decide (2 ≤ m / 1215450)

section Raster

variable {m : Nat}

theorem AtRaster.timeOut (h : AtRaster m s) : s.measure.timeOut = false := by
  refine TvMeasure.timeOut_eq_false_iff.2 ⟨?_, ?_⟩
  · rw [h.cycCnt]
    show m % 2701 ≤ 5672
    omega
  · rw [h.frameCyc]
    show m % 1215450 ≤ 2125000
    omega

theorem AtRaster.frameOk (h : AtRaster m s) (hlo : 400 ≤ m % 1215450 / 2701) :
    s.measure.frameOk (s.measureIn i) = true := by
  refine TvMeasure.frameOk_iff.2 ⟨?_, ?_, ?_, ?_⟩
  · rw [h.lineMin, if_neg (by omega)]
    decide
  · rw [h.lineMax, if_neg (by omega)]
    decide
  · show 400 ≤ s.stage.frameLines.toNat
    rw [h.frameLines]
    exact hlo
  · show s.stage.frameLines.toNat ≤ 560
    rw [h.frameLines]
    omega

theorem AtRaster.judge_frame (h : AtRaster m s) (hlo : 400 ≤ m % 1215450 / 2701) (hvs : (s.measureIn i).vsRise = true) :
    s.measure.judge (s.measureIn i) =
      (if s.measure.okCnt != 3 then s.measure.okCnt + 1 else (s.measure.judgeLine (s.measureIn i)).1,
        if s.measure.okCnt != 0 then true else (s.measure.judgeLine (s.measureIn i)).2) := by
  unfold TvMeasure.judge
  rw [h.timeOut, if_neg Bool.false_ne_true]
  unfold TvMeasure.judgeFrame
  rw [hvs, h.frameOk hlo, if_pos rfl, if_pos rfl]

/-- A vsync that ends a good frame after a good one converts, whatever becomes of the line. -/
theorem AtRaster.converts (h : AtRaster m s) (hlo : 400 ≤ m % 1215450 / 2701) (hone : 1 ≤ m / 1215450)
    (hreset : i.reset = false) (hvs : (s.measureIn i).vsRise = true) : (s.step i).measure.convert = true := by
  have hok : s.measure.okCnt ≠ 0 := by
    intro hnone
    have hok := h.okCnt
    rw [hnone] at hok
    replace hok : 0 = min 3 (m / 1215450) := hok
    omega
  show (if i.reset then false else (s.measure.judge (s.measureIn i)).2) = true
  rw [hreset, if_neg Bool.false_ne_true, h.judge_frame hlo hvs]
  exact if_pos (bne_iff_ne.2 hok)

theorem AtRaster.judge_quiet (h : AtRaster m s) (hvs : (s.measureIn i).vsRise = false) :
    s.measure.judge (s.measureIn i) = s.measure.judgeLine (s.measureIn i) := by
  unfold TvMeasure.judge
  rw [h.timeOut, if_neg Bool.false_ne_true]
  unfold TvMeasure.judgeFrame
  rw [hvs, if_neg Bool.false_ne_true]

theorem AtRaster.judgeLine (h : AtRaster m s) (hhs : (s.measureIn i).hsRise = true → m % 2701 = 2700) :
    s.measure.judgeLine (s.measureIn i) = (s.measure.okCnt, s.measure.convert) := by
  refine if_neg fun hbad => ?_
  obtain ⟨hend, hout⟩ := Bool.and_eq_true_iff.1 hbad
  have hgood : s.measure.lineOut = false := by
    refine TvMeasure.lineOut_eq_false_iff.2 ?_
    rw [h.cycCnt, hhs hend]
    decide
  exact absurd hout (Bool.eq_false_iff.1 hgood)

theorem AtRaster.rises (h : AtRaster m s) :
    s.stage.hsRise (rasterIn (m + 1)) = decide ((m + 1) % 2701 = 0) ∧
      s.stage.vsRise (rasterIn (m + 1)) = decide ((m + 1) % 1215450 = 0) := by
  unfold TvStage.hsRise TvStage.vsRise
  rw [h.hsR, h.vsR]
  refine ⟨?_, ?_⟩
  · show (decide ((m + 1) % 2701 = 0) && !decide (m % 2701 = 0)) = _
    rw [← decide_not, ← Bool.decide_and]
    exact decide_eq_decide.2 (by omega)
  · show (decide ((m + 1) % 1215450 = 0) && !decide (m % 1215450 = 0)) = _
    rw [← decide_not, ← Bool.decide_and]
    exact decide_eq_decide.2 (by omega)

theorem AtRaster.frameLines_next (h : AtRaster m s) :
    (s.step (rasterIn (m + 1))).stage.frameLines.toNat = (m + 1) % 1215450 / 2701 := by
  obtain ⟨hhs, hvs⟩ := h.rises
  have hlines := h.frameLines
  have hreset : (rasterIn (m + 1)).reset = false := decide_eq_false (Nat.succ_ne_zero m)
  show (if (rasterIn (m + 1)).reset then (0 : BitVec 11) else s.stage.frameLinesNext (rasterIn (m + 1))).toNat = _
  rw [hreset, if_neg Bool.false_ne_true]
  unfold TvStage.frameLinesNext
  rw [hhs, hvs]
  by_cases hframe : (m + 1) % 1215450 = 0
  · rw [if_pos (decide_eq_true hframe)]
    show 0 = _
    omega
  · rw [if_neg (mt of_decide_eq_true hframe)]
    by_cases hline : (m + 1) % 2701 = 0
    · have hnot : s.stage.frameLines ≠ 0x7FF := by
        intro hfull
        rw [hfull] at hlines
        replace hlines : 2047 = m % 1215450 / 2701 := hlines
        omega
      rw [decide_eq_true hline, Bool.true_and, if_pos (bne_iff_ne.2 hnot),
        BitVec.toNat_add_of_lt (by show _ + 1 < 2048; omega), hlines]
      show _ + 1 = _
      omega
    · rw [decide_eq_false hline, Bool.false_and, if_neg Bool.false_ne_true, hlines]
      omega

theorem AtRaster.judge_next (h : AtRaster m s) :
    (s.measure.judge (s.measureIn (rasterIn (m + 1)))).1.toNat = min 3 ((m + 1) / 1215450) ∧
      (s.measure.judge (s.measureIn (rasterIn (m + 1)))).2 = decide (2 ≤ (m + 1) / 1215450) := by
  obtain ⟨hhs, hvs⟩ := h.rises
  have hok := h.okCnt
  have hconv := h.convert
  have hline := h.judgeLine (i := rasterIn (m + 1)) fun hend => by
    have := of_decide_eq_true (hhs.symm.trans hend)
    omega
  by_cases hframe : (m + 1) % 1215450 = 0
  · rw [h.judge_frame (by omega) (hvs.trans (decide_eq_true hframe)), hline]
    refine ⟨?_, ?_⟩
    · show (if s.measure.okCnt != 3 then s.measure.okCnt + 1 else s.measure.okCnt).toNat = _
      by_cases hfull : s.measure.okCnt = 3
      · rw [hfull] at hok ⊢
        replace hok : 3 = min 3 (m / 1215450) := hok
        show 3 = _
        omega
      · have hne : s.measure.okCnt.toNat ≠ 3 := fun heq => hfull (BitVec.eq_of_toNat_eq heq)
        have hlt := s.measure.okCnt.isLt
        rw [if_pos (bne_iff_ne.2 hfull), BitVec.toNat_add_of_lt (by show _ + 1 < 4; omega)]
        show s.measure.okCnt.toNat + 1 = _
        omega
    · show (if s.measure.okCnt != 0 then true else s.measure.convert) = _
      by_cases hnone : s.measure.okCnt = 0
      · rw [hnone] at hok ⊢
        replace hok : 0 = min 3 (m / 1215450) := hok
        show s.measure.convert = _
        rw [hconv]
        exact decide_eq_decide.2 (by omega)
      · have hne : s.measure.okCnt.toNat ≠ 0 := fun heq => hnone (BitVec.eq_of_toNat_eq heq)
        rw [if_pos (bne_iff_ne.2 hnone)]
        exact (decide_eq_true (by omega)).symm
  · rw [h.judge_quiet (hvs.trans (decide_eq_false hframe)), hline]
    refine ⟨hok.trans ?_, hconv.trans (decide_eq_decide.2 ?_)⟩
    · omega
    · omega

theorem AtRaster.step (h : AtRaster m s) : AtRaster (m + 1) (s.step (rasterIn (m + 1))) := by
  obtain ⟨hhs, hvs⟩ := h.rises
  obtain ⟨hokNext, hconvNext⟩ := h.judge_next
  have hreset : (rasterIn (m + 1)).reset = false := decide_eq_false (Nat.succ_ne_zero m)
  have hcyc := h.cycCnt
  have hframe := h.frameCyc
  have hmin := h.lineMin
  have hmax := h.lineMax
  have hend : (m + 1) % 1215450 = 0 → (m + 1) % 2701 = 0 := by omega
  refine ⟨rfl, rfl, h.frameLines_next, ?_, ?_, ?_, ?_, ?_, ?_⟩
  · show (if (rasterIn (m + 1)).reset then (0 : BitVec 16) else if s.stage.hsRise (rasterIn (m + 1)) then 0
      else s.measure.cycCnt + 1).toNat = _
    rw [hreset, if_neg Bool.false_ne_true, hhs]
    by_cases hline : (m + 1) % 2701 = 0
    · rw [if_pos (decide_eq_true hline), hline]
      rfl
    · rw [if_neg (mt of_decide_eq_true hline), BitVec.toNat_add_of_lt (by show _ + 1 < 65536; omega), hcyc]
      show _ + 1 = _
      omega
  · show (if (rasterIn (m + 1)).reset then (0xFFFF : BitVec 16) else if s.stage.vsRise (rasterIn (m + 1)) then 0xFFFF
      else if s.stage.hsRise (rasterIn (m + 1)) && decide (s.measure.cycCnt < s.measure.lineMin) then s.measure.cycCnt
      else s.measure.lineMin).toNat = _
    rw [hreset, if_neg Bool.false_ne_true, hhs, hvs]
    by_cases hstart : (m + 1) % 1215450 = 0
    · rw [if_pos (decide_eq_true hstart), if_pos (by omega)]
      rfl
    · rw [if_neg (mt of_decide_eq_true hstart)]
      by_cases hline : (m + 1) % 2701 = 0
      · rw [decide_eq_true hline, Bool.true_and, if_neg (show ¬(m + 1) % 1215450 < 2701 by omega)]
        split
        case isTrue => omega
        case isFalse hnot =>
          rw [decide_eq_true_iff, BitVec.lt_def] at hnot
          split at hmin <;> omega
      · rw [decide_eq_false hline, Bool.false_and, if_neg Bool.false_ne_true, hmin]
        split <;> split <;> omega
  · show (if (rasterIn (m + 1)).reset then (0 : BitVec 16) else if s.stage.vsRise (rasterIn (m + 1)) then 0
      else if s.stage.hsRise (rasterIn (m + 1)) && decide (s.measure.lineMax < s.measure.cycCnt) then s.measure.cycCnt
      else s.measure.lineMax).toNat = _
    rw [hreset, if_neg Bool.false_ne_true, hhs, hvs]
    by_cases hstart : (m + 1) % 1215450 = 0
    · rw [if_pos (decide_eq_true hstart), if_pos (by omega)]
      rfl
    · rw [if_neg (mt of_decide_eq_true hstart)]
      by_cases hline : (m + 1) % 2701 = 0
      · rw [decide_eq_true hline, Bool.true_and, if_neg (show ¬(m + 1) % 1215450 < 2701 by omega)]
        split
        case isTrue => omega
        case isFalse hnot =>
          rw [decide_eq_true_iff, BitVec.lt_def] at hnot
          split at hmax <;> omega
      · rw [decide_eq_false hline, Bool.false_and, if_neg Bool.false_ne_true, hmax]
        split <;> split <;> omega
  · show (if (rasterIn (m + 1)).reset then (0 : BitVec 24) else if s.stage.vsRise (rasterIn (m + 1)) then 0
      else s.measure.frameCyc + 1).toNat = _
    rw [hreset, if_neg Bool.false_ne_true, hvs]
    by_cases hstart : (m + 1) % 1215450 = 0
    · rw [if_pos (decide_eq_true hstart), hstart]
      rfl
    · rw [if_neg (mt of_decide_eq_true hstart), BitVec.toNat_add_of_lt (by show _ + 1 < 16777216; omega), hframe]
      show _ + 1 = _
      omega
  · show (if (rasterIn (m + 1)).reset then (0 : BitVec 2) else _).toNat = _
    rw [hreset, if_neg Bool.false_ne_true]
    exact hokNext
  · show (if (rasterIn (m + 1)).reset then false else _) = _
    rw [hreset, if_neg Bool.false_ne_true]
    exact hconvNext

theorem atRaster (m : Nat) : AtRaster m (run step idle rasterIn (m + 1)) := by
  induction m with
  | zero => exact ⟨rfl, rfl, rfl, rfl, rfl, rfl, rfl, rfl, rfl⟩
  | succ m ih => exact ih.step

theorem raster_syncs (t : Nat) : (edges idle rasterIn).hsync t = decide (0 < t ∧ t % 2701 = 0) ∧
    (edges idle rasterIn).reset t = decide (t = 0) := by
  refine ⟨?_, rfl⟩
  cases t with
  | zero => rfl
  | succ m =>
    have hreset : (rasterIn (m + 1)).reset = false := decide_eq_false (Nat.succ_ne_zero m)
    show (!(rasterIn (m + 1)).reset && (run Tv15.step idle rasterIn (m + 1)).stage.hsRise (rasterIn (m + 1))) = _
    rw [hreset, (atRaster m).rises.1]
    exact decide_eq_decide.2 (by omega)

theorem raster_lineStart (t : Nat) : (edges idle rasterIn).lineStart t = decide (t % 2701 = 0) := by
  unfold SyncEdges.lineStart
  rw [(raster_syncs t).1, (raster_syncs t).2, ← Bool.decide_or]
  exact decide_eq_decide.2 (by omega)

theorem raster_lineClocks {t : Nat} (hpos : 0 < t) : (edges idle rasterIn).lineClocks t = (t - 1) % 2701 := by
  have hsince : (edges idle rasterIn).lineClocks t = t - (t - 1) / 2701 * 2701 - 1 := by
    refine since_of_last ?_ (by omega) fun w hlo hhi => ?_
    · rw [raster_lineStart]
      exact decide_eq_true (Nat.mul_mod_left _ _)
    · rw [raster_lineStart]
      exact decide_eq_false (by omega)
  omega

theorem raster_lineGood {t : Nat} (h : (edges idle rasterIn).hsync t = true) : (edges idle rasterIn).LineGood t := by
  rw [(raster_syncs t).1, decide_eq_true_iff] at h
  unfold SyncEdges.LineGood
  rw [raster_lineClocks h.1, show (t - 1) % 2701 = 2700 by omega]
  decide

end Raster

/-- After two frames the raster is converted. -/
theorem convert_steady_raster : (run step idle rasterIn (2430900 + 1)).measure.convert = true ∧
    ∃ v₀ v₁ v₂, (edges idle rasterIn).Steady (2430900 + 1) v₀ v₁ v₂ := by
  have hconv : (run step idle rasterIn (2430900 + 1)).measure.convert = true := (atRaster 2430900).convert
  refine ⟨hconv, (convert_steady idle rasterIn rfl (fun t hhs hlong => ?_) (fun t hhs _ _ => ?_) 2430900).1 hconv⟩
  · exact absurd (raster_lineGood hhs).2 (Nat.not_le_of_lt hlong)
  · exact raster_lineGood hhs

/-! ## A short line at the end of a frame -/

/-- The raster, with the second vsync and its hsync 200 clocks early. -/
def earlyIn (t : Nat) : TvIn :=
  if t < 2430700 then rasterIn t else { rasterIn t with hs := decide (t = 2430700), vs := decide (t = 2430700) }

theorem early_run {t : Nat} (ht : t ≤ 2430700) : run step idle earlyIn t = run step idle rasterIn t :=
  run_congr fun _ hu => if_pos (Nat.lt_of_lt_of_le hu ht)

theorem early_edges : (edges idle earlyIn).hsync 2430700 = true ∧ (edges idle earlyIn).lineClocks 2430700 = 2500 := by
  have hin : earlyIn 2430700 = { rasterIn 2430700 with hs := true, vs := true } := if_neg (Nat.lt_irrefl _)
  have hbefore : ∀ t, t < 2430700 → (edges idle earlyIn).lineStart t = (edges idle rasterIn).lineStart t := by
    intro t ht
    show ((earlyIn t).reset || (!(earlyIn t).reset && (run step idle earlyIn t).stage.hsRise (earlyIn t))) = _
    rw [early_run (Nat.le_of_lt ht), show earlyIn t = rasterIn t from if_pos ht]
    rfl
  refine ⟨?_, ?_⟩
  · have hlow := (atRaster 2430699).hsR
    show (!(earlyIn 2430700).reset && ((earlyIn 2430700).hs && !(run step idle earlyIn 2430700).stage.hsR)) = true
    rw [early_run (Nat.le_refl _), hin, hlow]
    rfl
  · refine since_of_last (v := 2428199) ?_ (by decide) fun w hlo hhi => ?_
    · rw [hbefore _ (by decide), raster_lineStart]
      rfl
    · rw [hbefore w hhi, raster_lineStart]
      exact decide_eq_false (by omega)

theorem early_convert : (run step idle earlyIn (2430700 + 1)).measure.convert = true := by
  have hin : earlyIn 2430700 = { rasterIn 2430700 with hs := true, vs := true } := if_neg (Nat.lt_irrefl _)
  have hat : AtRaster 2430699 (run step idle earlyIn 2430700) := by
    rw [early_run (Nat.le_refl _)]
    exact atRaster 2430699
  have hvs : ((run step idle earlyIn 2430700).measureIn (earlyIn 2430700)).vsRise = true := by
    show ((earlyIn 2430700).vs && !(run step idle earlyIn 2430700).stage.vsR) = true
    rw [hin, hat.vsR]
    rfl
  rw [run_succ]
  exact hat.converts (by decide) (by decide) (congrArg TvIn.reset hin) hvs

/-- The line that ends with the second frame has 2501 clocks, and the picture is converted from there on. -/
theorem early_converted : (earlyIn 0).reset = true ∧ (run step idle earlyIn (2430700 + 1)).measure.convert = true ∧
    ¬∃ v₀ v₁ v₂, (edges idle earlyIn).Steady (2430700 + 1) v₀ v₁ v₂ := by
  refine ⟨rfl, early_convert, ?_⟩
  rintro ⟨v₀, v₁, v₂, h⟩
  obtain ⟨hhs, hclocks⟩ := early_edges
  have hlast := h.last
  have hafter := Nat.lt_trans h.first.order h.second.order
  have hgood := (h.lines 2430700 (by omega) (Nat.lt_succ_self _) hhs).1
  rw [hclocks] at hgood
  exact absurd hgood (by decide)

end Tv15

end Z486.Video
