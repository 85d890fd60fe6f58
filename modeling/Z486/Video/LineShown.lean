/-
The dots of a run. In 8 and 16bpp a register of the counted dots addresses the buffer; in 24bpp a pixel is
read over the two clocks after its first dot. Three invariants describe them by the number of enables of
the window so far, and the conditions under which the right bytes come out are read off these.
-/
import Z486.Video.LinePixels

namespace Z486.Video

/-! ## Counting the enables -/

section Raster

variable (inputs : Nat → LinebufIn)

theorem dotIndex_of_enable {t : Nat} (hce : (inputs t).cePix = true) :
    dotIndex inputs (t + 1) = if (inputs t).notDisplaying then 0 else dotIndex inputs t + 1 := by
  simp only [dotIndex, LinebufIn.blank, LinebufIn.displayed, hce]
  cases (inputs t).notDisplaying <;> rfl

theorem dotIndex_of_no_enable {t : Nat} (hce : (inputs t).cePix = false) :
    dotIndex inputs (t + 1) = dotIndex inputs t := by
  simp only [dotIndex, LinebufIn.blank, LinebufIn.displayed, hce]
  rfl

theorem blankIndex_of_no_enable {t : Nat} (hce : (inputs t).cePix = false) :
    blankIndex inputs (t + 1) = blankIndex inputs t := by
  simp only [blankIndex, LinebufIn.blank, LinebufIn.displayed, hce]
  rfl

theorem blankIndex_of_enable {t : Nat} (hce : (inputs t).cePix = true) :
    blankIndex inputs (t + 1) = if (inputs t).notDisplaying then blankIndex inputs t + 1 else 0 := by
  simp only [blankIndex, LinebufIn.blank, LinebufIn.displayed, hce]
  cases (inputs t).notDisplaying <;> rfl

/-- Inside a window nothing is counted as blanking. -/
theorem blankIndex_eq_zero (t : Nat) : dotIndex inputs t ≠ 0 → blankIndex inputs t = 0 := by
  induction t with
  | zero => exact fun h => absurd rfl h
  | succ t ih =>
    cases hce : (inputs t).cePix with
    | false =>
      rw [dotIndex_of_no_enable inputs hce, blankIndex_of_no_enable inputs hce]
      exact ih
    | true =>
      rw [dotIndex_of_enable inputs hce, blankIndex_of_enable inputs hce]
      cases (inputs t).notDisplaying with
      | true => exact fun h => absurd rfl h
      | false => exact fun _ => rfl

/-- The enable before the one that counts `n + 1` is in the window and counts `n`. -/
theorem exists_displayed_of_dotIndex {n : Nat} (t : Nat) :
    dotIndex inputs t = n + 1 → ∃ u, (inputs u).displayed = true ∧ dotIndex inputs u = n := by
  induction t with
  | zero => exact fun h => absurd h (Nat.succ_ne_zero n).symm
  | succ t ih =>
    cases hce : (inputs t).cePix with
    | false =>
      rw [dotIndex_of_no_enable inputs hce]
      exact ih
    | true =>
      rw [dotIndex_of_enable inputs hce]
      cases hnd : (inputs t).notDisplaying with
      | true => exact fun h => absurd h (Nat.succ_ne_zero n).symm
      | false => exact fun h => ⟨t, by simp [LinebufIn.displayed, hce, hnd], Nat.succ.inj h⟩

/-- A window has an enable for each count up to its last one. -/
theorem exists_displayed_of_le {t k : Nat} (hshown : (inputs t).displayed = true) (hk : k ≤ dotIndex inputs t) :
    ∃ u, (inputs u).displayed = true ∧ dotIndex inputs u = k := by
  induction hn : dotIndex inputs t generalizing t with
  | zero => exact ⟨t, hshown, by omega⟩
  | succ n ih =>
    by_cases heq : k = n + 1
    · exact ⟨t, hshown, hn.trans heq.symm⟩
    · obtain ⟨u, hu, hun⟩ := exists_displayed_of_dotIndex inputs t hn
      exact ih hu (by omega) hun

end Raster

namespace PixelRun

variable (r : PixelRun)

theorem requests_succ (t : Nat) : r.requests (t + 1) = (r.requests t).step (r.inputs t) (r.taken t) :=
  Clocked.run_succ _ _ _ _

theorem vsStart_eq (t : Nat) : (r.requests t).vsStart (r.inputs t) = frameStart r.inputs t := by
  cases t with
  | zero =>
    simp only [LineRequests.vsStart, frameStart]
    exact Bool.and_true _
  | succ t => rw [LineRequests.vsStart, requests_succ, LineRequests.vsD_step, frameStart]

theorem ndD_eq (t : Nat) : (r.requests t).ndD = decide (dotIndex r.inputs t = 0) := by
  induction t with
  | zero => rfl
  | succ t ih =>
    rw [requests_succ, LineRequests.ndD_step]
    cases hce : (r.inputs t).cePix with
    | false => rw [dotIndex_of_no_enable r.inputs hce, if_neg Bool.false_ne_true, ih]
    | true =>
      rw [dotIndex_of_enable r.inputs hce, if_pos rfl]
      cases (r.inputs t).notDisplaying <;> rfl

theorem firstDot_eq (t : Nat) : (r.requests t).firstDot (r.inputs t) =
    (!(r.inputs t).notDisplaying && decide (dotIndex r.inputs t = 0)) := by
  rw [LineRequests.firstDot, ndD_eq]

theorem firstDot_of_displayed {t : Nat} (h : (r.inputs t).displayed = true) :
    (r.requests t).firstDot (r.inputs t) = decide (dotIndex r.inputs t = 0) := by
  have hnd : (r.inputs t).notDisplaying = false := by
    simp only [LinebufIn.displayed, Bool.and_eq_true, Bool.not_eq_true'] at h
    exact h.2
  rw [firstDot_eq, hnd]
  rfl

/-! ## The half that is read -/

/-- The half that was displayed at the last enable. -/
def half : Nat → Bool
  | 0 => false
  | t + 1 => if (r.inputs t).cePix then (r.requests t).yPar else half t

/-- Unless a line has just ended, the half that is displayed differs from the one at the last enable by a
frame start only. -/
structure Halves (t : Nat) : Prop where
  shown : blankIndex r.inputs t ≠ 1 → (r.requests t).yPar = (r.half t && !r.crossed t)
  crossed : blankIndex r.inputs t ≠ 1 → r.crossed t = true → r.half t = true

theorem halves (t : Nat) : r.Halves t := by
  induction t with
  | zero => exact ⟨fun _ => rfl, fun _ => nofun⟩
  | succ t ih =>
    have hyPar : (r.requests (t + 1)).yPar = if frameStart r.inputs t then false
        else if (r.requests t).lineEnd (r.inputs t) then !(r.requests t).yPar else (r.requests t).yPar := by
      rw [requests_succ, LineRequests.yPar_step, vsStart_eq]
    cases hce : (r.inputs t).cePix with
    | false =>
      have hend : (r.requests t).lineEnd (r.inputs t) = false := by simp [LineRequests.lineEnd, hce]
      have hhalf : r.half (t + 1) = r.half t := by simp [half, hce]
      have hcrossed : r.crossed (t + 1) = (frameStart r.inputs t && (r.requests t).yPar || r.crossed t) := by
        simp [PixelRun.crossed, hce]
      rw [hend] at hyPar
      constructor
      · intro hblank
        rw [blankIndex_of_no_enable r.inputs hce] at hblank
        rw [hyPar, hhalf, hcrossed, ih.shown hblank]
        cases frameStart r.inputs t <;> cases r.half t <;> cases r.crossed t <;> rfl
      · intro hblank
        rw [blankIndex_of_no_enable r.inputs hce] at hblank
        rw [hhalf, hcrossed, ih.shown hblank]
        intro h
        rcases (Bool.or_eq_true _ _).mp h with hstart | hbefore
        · simp only [Bool.and_eq_true] at hstart
          exact hstart.2.1
        · exact ih.crossed hblank hbefore
    | true =>
      have hhalf : r.half (t + 1) = (r.requests t).yPar := by simp [half, hce]
      have hcrossed : r.crossed (t + 1) = (frameStart r.inputs t && (r.requests t).yPar) := by
        simp [PixelRun.crossed, hce]
      constructor
      · intro hblank
        have hend : (r.requests t).lineEnd (r.inputs t) = false := by
          -- the end of a line makes the enable the first one of the blanking
          by_contra hline
          simp only [LineRequests.lineEnd, ndD_eq, hce, Bool.not_eq_false, Bool.and_eq_true, Bool.true_and,
            Bool.not_eq_true', decide_eq_false_iff_not] at hline
          rw [blankIndex_of_enable r.inputs hce, hline.1, if_pos rfl, blankIndex_eq_zero r.inputs t hline.2] at hblank
          exact hblank rfl
        rw [hend] at hyPar
        rw [hyPar, hhalf, hcrossed]
        cases frameStart r.inputs t <;> cases (r.requests t).yPar <;> rfl
      · intro _ h
        rw [hcrossed] at h
        rw [hhalf]
        exact ((Bool.and_eq_true _ _).mp h).2

theorem blankIndex_of_displayed {t : Nat} (h : (r.inputs t).displayed = true) : blankIndex r.inputs t ≠ 1 := by
  by_cases hfirst : dotIndex r.inputs t = 0
  · have := r.blanking t h hfirst
    omega
  · rw [blankIndex_eq_zero r.inputs t hfirst]
    exact Nat.zero_ne_one

theorem half_of_uncrossed {t : Nat} (h : (r.inputs t).displayed = true) (hcrossed : r.crossed t = false) :
    r.half t = (r.requests t).yPar := by
  rw [(r.halves t).shown (r.blankIndex_of_displayed h), hcrossed]
  exact (Bool.and_true _).symm

theorem half_of_crossed {t : Nat} (h : (r.inputs t).displayed = true) (hcrossed : r.crossed t = true) :
    r.half t = true ∧ (r.requests t).yPar = false := by
  have hblank := r.blankIndex_of_displayed h
  refine ⟨(r.halves t).crossed hblank hcrossed, ?_⟩
  rw [(r.halves t).shown hblank, hcrossed]
  exact Bool.and_false _

/-! ## Bytes and half-words -/

variable (lb : BitVec 10 → BitVec 64)

theorem dots_succ (t : Nat) : r.dots lb (t + 1) = (r.dots lb t).step (r.inputs t)
    ((r.requests t).firstDot (r.inputs t)) (r.requests t).yPar (lb (r.dots lb t).lbRdAddr) := rfl

theorem counted (hbpp : r.bpp = 0 ∨ r.bpp = 1) (t : Nat) :
    (r.dots lb t).Counted r.dotdiv (dotIndex r.inputs t) := by
  induction t with
  | zero =>
    refine ⟨rfl, ?_, fun _ h => absurd h (lt_irrefl 0)⟩
    show 0#11 = BitVec.ofNat 11 (unitAt r.dotdiv 0)
    cases r.dotdiv <;> rfl
  | succ t ih =>
    obtain ⟨hmode, -, hdiv⟩ := r.steady t
    rw [← hdiv] at ih ⊢
    rw [dots_succ]
    cases hce : (r.inputs t).cePix with
    | false =>
      rw [dotIndex_of_no_enable r.inputs hce]
      exact ih.step_of_no_enable hce
    | true =>
      rw [dotIndex_of_enable r.inputs hce]
      exact ih.step hce (hmode ▸ hbpp) (r.firstDot_eq t)

theorem byteAddress (hbpp : r.bpp = 0) (t : Nat) :
    (r.dots lb t).lbRdAddr = BitVec.ofBool (r.half t) ++ 0#1 ++ (r.dots lb t).xCnt.extractLsb' 3 8 ∧
      (r.dots lb t).byteSel = (r.dots lb t).xCnt.extractLsb' 0 3 := by
  induction t with
  | zero => exact ⟨show 0#10 = BitVec.ofBool false ++ 0#1 ++ (0#11).extractLsb' 3 8 by decide, rfl⟩
  | succ t ih =>
    rw [dots_succ, half]
    cases hce : (r.inputs t).cePix with
    | false =>
      obtain ⟨-, haddr⟩ := LineDots.readNext_of_not_pending (r.counted lb (.inl hbpp) t).pending (r.inputs t)
        (lb (r.dots lb t).lbRdAddr)
      obtain ⟨hx, -, -, -, hsel, -⟩ := LineDots.readNext_counters (r.dots lb t) (r.inputs t) (lb (r.dots lb t).lbRdAddr)
      rw [LineDots.step_of_no_enable hce, haddr, hx, hsel]
      exact ih
    | true =>
      rw [LineDots.step_of_bytes hce ((r.steady t).1.trans hbpp)]
      exact ⟨rfl, rfl⟩

theorem halfWordAddress (hbpp : r.bpp = 1) (t : Nat) :
    (r.dots lb t).lbRdAddr = BitVec.ofBool (r.half t) ++ (r.dots lb t).xCnt.extractLsb' 2 9 ∧
      (r.dots lb t).hwSel = (r.dots lb t).xCnt.extractLsb' 0 2 := by
  induction t with
  | zero => exact ⟨show 0#10 = BitVec.ofBool false ++ (0#11).extractLsb' 2 9 by decide, rfl⟩
  | succ t ih =>
    rw [dots_succ, half]
    cases hce : (r.inputs t).cePix with
    | false =>
      obtain ⟨-, haddr⟩ := LineDots.readNext_of_not_pending (r.counted lb (.inr hbpp) t).pending (r.inputs t)
        (lb (r.dots lb t).lbRdAddr)
      obtain ⟨hx, -, -, -, -, hsel, -⟩ := LineDots.readNext_counters (r.dots lb t) (r.inputs t)
        (lb (r.dots lb t).lbRdAddr)
      rw [LineDots.step_of_no_enable hce, haddr, hx, hsel]
      exact ih
    | true =>
      rw [LineDots.step_of_halfWords hce ((r.steady t).1.trans hbpp)]
      exact ⟨rfl, rfl⟩

/-- The byte that is shown in any clock. -/
theorem pixel_eq (hbpp : r.bpp = 0) (t : Nat) :
    r.pixel lb t = byteOf lb (r.half t) (unitAt r.dotdiv (dotIndex r.inputs t) % 2048) := by
  obtain ⟨haddr, hsel⟩ := r.byteAddress lb hbpp t
  rw [pixel, LineDots.pixel, haddr, hsel, (r.counted lb (.inl hbpp) t).count, byteOf_count]

/-- The colour that is shown in any clock in 16bpp. -/
theorem rgb_eq (hbpp : r.bpp = 1) (t : Nat) :
    r.rgb lb t = rgb16 r.fmt16 (halfWordOf lb (r.half t) (unitAt r.dotdiv (dotIndex r.inputs t) % 2048)) := by
  obtain ⟨haddr, hsel⟩ := r.halfWordAddress lb hbpp t
  obtain ⟨hmode, hfmt, -⟩ := r.steady t
  rw [rgb, LineDots.rgb, hmode, hbpp, if_neg (by decide), hfmt, haddr, hsel,
    (r.counted lb (.inr hbpp) t).count, halfWordOf_count]

/-! ## Pixels of three bytes -/

theorem phased (hbpp : r.bpp = 2) (t : Nat) : (r.dots lb t).Phased (dotIndex r.inputs t) := by
  induction t with
  | zero => exact ⟨fun _ => rfl, fun h => absurd h (lt_irrefl 0), fun h => absurd h (lt_irrefl 0)⟩
  | succ t ih =>
    rw [dots_succ]
    cases hce : (r.inputs t).cePix with
    | false =>
      rw [dotIndex_of_no_enable r.inputs hce]
      exact ih.step_of_no_enable hce
    | true =>
      rw [dotIndex_of_enable r.inputs hce]
      exact ih.step hce ((r.steady t).1.trans hbpp) (r.firstDot_eq t)

/-- A read is under way in the clock after the start of a pixel, and only there. -/
theorem pending_succ (hbpp : r.bpp = 2) (t : Nat) : (r.dots lb (t + 1)).rd2Pending = r.startsPixel lb t := by
  have hmode : (r.inputs t).bpp = 2 := (r.steady t).1.trans hbpp
  rw [dots_succ, startsPixel]
  cases hce : (r.inputs t).cePix with
  | false => exact (LineDots.step_of_no_start hmode (by rw [hce]; rfl) _ _).1
  | true => exact (LineDots.step_of_colours hce hmode _ _ _ _).2.2.1

theorem capture_succ (t : Nat) : (r.dots lb (t + 1)).rd2Capture = (r.dots lb t).rd2Pending := by
  rw [dots_succ]
  exact (LineDots.step_read _ _ _ _ _).1

/-- The colour stays until two clocks after the next pixel starts. -/
theorem rgb24_stays (hbpp : r.bpp = 2) {t u : Nat} (hu : t + 3 ≤ u)
    (h : ∀ v, t < v → v + 3 ≤ u → r.startsPixel lb v = false) : (r.dots lb u).rgb24 = (r.dots lb (t + 3)).rgb24 := by
  induction u, hu using Nat.le_induction with
  | base => rfl
  | succ u hu ih =>
    obtain ⟨v, rfl⟩ : ∃ v, u = v + 2 := ⟨u - 2, by omega⟩
    have hcapture : (r.dots lb (v + 2)).rd2Capture = false := by
      rw [capture_succ, pending_succ r lb hbpp]
      exact h v (by omega) (by omega)
    rw [← ih fun w hw hwu => h w hw (by omega), dots_succ, (LineDots.step_read _ _ _ _ _).2.2, hcapture,
      if_neg Bool.false_ne_true]

/-- Within two clocks of a dot that starts a pixel, no other one does. -/
theorem no_start_after (hbpp : r.bpp = 2) {t : Nat} (hshown : (r.inputs t).displayed = true)
    (h3 : dotIndex r.inputs t % 3 = 0) :
    r.startsPixel lb (t + 1) = false ∧ r.startsPixel lb (t + 2) = false := by
  have hce : (r.inputs t).cePix = true := ((Bool.and_eq_true _ _).mp hshown).1
  have hnd : (r.inputs t).notDisplaying = false := by simpa using ((Bool.and_eq_true _ _).mp hshown).2
  have hmode : ∀ u, (r.inputs u).bpp = 2 := fun u => (r.steady u).1.trans hbpp
  have hindex : dotIndex r.inputs (t + 1) = dotIndex r.inputs t + 1 := by
    rw [dotIndex_of_enable r.inputs hce, hnd, if_neg Bool.false_ne_true]
  have hblank : blankIndex r.inputs (t + 1) = 0 := blankIndex_eq_zero r.inputs _ (by omega)
  have hfirst : (r.requests (t + 1)).firstDot (r.inputs (t + 1)) = false := by
    rw [firstDot_eq, decide_eq_false (by omega)]
    exact Bool.and_false _
  have hphase : (r.dots lb (t + 1)).ph24 = 1 := by
    rw [(r.phased lb hbpp (t + 1)).phase (by omega), hindex, show (dotIndex r.inputs t + 1) % 3 = 1 by omega]
    rfl
  have hone : r.startsPixel lb (t + 1) = false := by
    rw [startsPixel, LineDots.px24Adv, hphase, hfirst]
    exact Bool.and_false _
  -- an enable in clock `t + 1` moves the phase on to 2
  have hphase' : (r.dots lb (t + 2)).ph24 ≠ 0 := by
    rw [dots_succ r lb (t + 1)]
    cases hce' : (r.inputs (t + 1)).cePix with
    | false =>
      obtain ⟨-, -, -, hph, -⟩ := LineDots.readNext_counters (r.dots lb (t + 1)) (r.inputs (t + 1))
        (lb (r.dots lb (t + 1)).lbRdAddr)
      rw [LineDots.step_of_no_enable hce', hph, hphase]
      decide
    | true =>
      rw [(LineDots.step_of_colours hce' (hmode _) _ _ _ _).1, hfirst, hphase]
      decide
  have hnot : ∀ hshown' : (r.inputs (t + 2)).displayed = true, dotIndex r.inputs (t + 2) ≠ 0 := by
    intro hshown' hzero
    have htwo := r.blanking (t + 2) hshown' hzero
    have hle : blankIndex r.inputs (t + 2) ≤ 1 := by
      cases hce' : (r.inputs (t + 1)).cePix with
      | false =>
        rw [blankIndex_of_no_enable r.inputs hce', hblank]
        exact Nat.zero_le 1
      | true =>
        rw [blankIndex_of_enable r.inputs hce', hblank]
        split_ifs <;> omega
    omega
  refine ⟨hone, ?_⟩
  rw [startsPixel, LineDots.px24Adv, firstDot_eq, show ((r.dots lb (t + 2)).ph24 == 0) = false by simpa using hphase']
  cases hce' : (r.inputs (t + 2)).cePix with
  | false => rfl
  | true =>
    cases hnd' : (r.inputs (t + 2)).notDisplaying with
    | true => rfl
    | false =>
      have := hnot (by simp [LinebufIn.displayed, hce', hnd'])
      simp [this]

/-- The colour that is assembled for the pixel that starts in clock `t`. -/
theorem rgb24_eq (hbpp : r.bpp = 2) {t x : Nat} (hshown : (r.inputs t).displayed = true)
    (hx : dotIndex r.inputs t = 3 * x) : (r.dots lb (t + 3)).rgb24 =
      LineDots.colour24 (r.fmt16.getLsbD 1) (threeBytesOf lb (r.requests t).yPar (3 * (x % 1024))) := by
  have hce : (r.inputs t).cePix = true := ((Bool.and_eq_true _ _).mp hshown).1
  have hnd : (r.inputs t).notDisplaying = false := by simpa using ((Bool.and_eq_true _ _).mp hshown).2
  have hmode : ∀ u, (r.inputs u).bpp = 2 := fun u => (r.steady u).1.trans hbpp
  have h3 : dotIndex r.inputs t % 3 = 0 := by omega
  have hadv : (r.dots lb t).px24Adv ((r.requests t).firstDot (r.inputs t)) = true := by
    rw [(r.phased lb hbpp t).starts (r.firstDot_of_displayed hshown)]
    exact decide_eq_true h3
  obtain ⟨hone, htwo⟩ := r.no_start_after lb hbpp hshown h3
  have hnew : ((r.dots lb t).px24New (r.inputs t)).toNat = x % 1024 := by
    rw [(r.phased lb hbpp t).px24New_eq hnd h3, hx, Nat.mul_div_cancel_left x (by omega), BitVec.toNat_ofNat]
  obtain ⟨hword, hbyte⟩ := LineDots.b24Off_split (r.dots lb t) (r.inputs t)
  rw [hnew] at hword hbyte
  -- the first word is addressed, then it is kept while the second one is, then the colour is assembled
  obtain ⟨-, -, hpending, haddr⟩ := LineDots.step_of_colours hce (hmode t) (r.dots lb t)
    ((r.requests t).firstDot (r.inputs t)) (r.requests t).yPar (lb (r.dots lb t).lbRdAddr)
  obtain ⟨haddr, hsel⟩ := haddr hadv
  rw [hadv, ← dots_succ] at hpending
  rw [← dots_succ, hword] at haddr
  rw [← dots_succ] at hsel
  obtain ⟨-, haddr', hsel'⟩ := LineDots.step_of_no_start (hmode (t + 1)) hone
    (r.requests (t + 1)).yPar (lb (r.dots lb (t + 1)).lbRdAddr)
  rw [← dots_succ, LineDots.readNext_address, hpending, if_pos rfl, haddr] at haddr'
  rw [← dots_succ, hsel] at hsel'
  obtain ⟨hcapture, hq0, -⟩ := LineDots.step_read (r.dots lb (t + 1)) (r.inputs (t + 1))
    ((r.requests (t + 1)).firstDot (r.inputs (t + 1))) (r.requests (t + 1)).yPar (lb (r.dots lb (t + 1)).lbRdAddr)
  rw [← dots_succ, hpending] at hcapture hq0
  rw [if_pos rfl, haddr] at hq0
  obtain ⟨-, -, hcolour⟩ := LineDots.step_read (r.dots lb (t + 2)) (r.inputs (t + 2))
    ((r.requests (t + 2)).firstDot (r.inputs (t + 2))) (r.requests (t + 2)).yPar (lb (r.dots lb (t + 2)).lbRdAddr)
  rw [← dots_succ, hcapture, if_pos rfl, LineDots.p24, haddr', hq0, hsel', hbyte, (r.steady (t + 2)).2.1,
    Nat.mul_comm _ 8, threeBytesOf_words _ _ (by omega)] at hcolour
  exact hcolour

/-! ## The plain runs -/

/-- A buffer whose half-words, and the bytes of the first two, differ from each other. -/
def stripes : BitVec 10 → BitVec 64 := fun _ => 0xFFFFFF00

/-- A buffer of zeros in half 0 and of ones in half 1. -/
def onesInHalf1 : BitVec 10 → BitVec 64 := fun a => if a.getLsbD 9 then BitVec.allOnes 64 else 0

/-- A buffer with ones from word 256 of each half on. -/
def onesFrom256 : BitVec 10 → BitVec 64 := fun a => if a.getLsbD 8 then BitVec.allOnes 64 else 0

theorem byteOf_stripes : ∀ h, byteOf stripes h 0 = 0 ∧ byteOf stripes h 1 = 0xFF := by decide

theorem halfWordOf_stripes : ∀ h, halfWordOf stripes h 0 = 0xFF00 ∧ halfWordOf stripes h 1 = 0xFFFF := by decide

theorem byteOf_onesFrom256 : ∀ h, byteOf onesFrom256 h 0 = 0 ∧ byteOf onesFrom256 h 2048 = 0xFF := by decide

theorem threeBytesOf_onesFrom256 :
    ∀ h, threeBytesOf onesFrom256 h 0 = 0 ∧ threeBytesOf onesFrom256 h 3072 = 0xFFFFFF := by decide

theorem extractLsb'_allOnes {k n : Nat} (h : k + n ≤ 64) :
    (BitVec.allOnes 64).extractLsb' k n = BitVec.allOnes n := by
  ext b hb
  simp only [BitVec.getElem_extractLsb', BitVec.getLsbD_allOnes, BitVec.getElem_allOnes]
  exact decide_eq_true (by omega)

theorem onesInHalf1_word (h : Bool) (k : Nat) :
    onesInHalf1 (BitVec.ofBool h ++ BitVec.ofNat 9 k) = if h then BitVec.allOnes 64 else 0 := by
  rw [onesInHalf1, BitVec.getLsbD_append]
  cases h <;> rfl

theorem byteOf_onesInHalf1 (h : Bool) (k : Nat) : byteOf onesInHalf1 h k = if h then BitVec.allOnes 8 else 0 := by
  rw [byteOf, onesInHalf1_word]
  cases h with
  | false => exact BitVec.extractLsb'_zero
  | true => exact extractLsb'_allOnes (by omega)

theorem halfWordOf_onesInHalf1 (h : Bool) (k : Nat) :
    halfWordOf onesInHalf1 h k = if h then BitVec.allOnes 16 else 0 := by
  rw [halfWordOf, onesInHalf1_word]
  cases h with
  | false => exact BitVec.extractLsb'_zero
  | true => exact extractLsb'_allOnes (by omega)

/-- Under a divided dot clock the second enable of a window should still show the first byte, or half-word. -/
theorem undivided_of_shows (hshows : ∀ lb, r.Shows lb) (hdiv : r.dotdiv = true) (hbpp : r.bpp = 0 ∨ r.bpp = 1) {t : Nat}
    (hshown : (r.inputs t).displayed = true) : dotIndex r.inputs t = 0 := by
  by_contra hlong
  obtain ⟨u, hu, hindex⟩ := exists_displayed_of_le r.inputs hshown (Nat.one_le_iff_ne_zero.mpr hlong)
  have htwo : r.enablesPerDot = 2 := if_pos hdiv
  rcases hbpp with hbpp | hbpp
  · have hbyte := (hshows stripes).bytes hbpp u hu
    rw [pixel_eq r stripes hbpp, hindex, htwo, hdiv, show unitAt true 1 % 2048 = 1 from rfl,
      show 1 / 2 = 0 from rfl, (byteOf_stripes _).1, (byteOf_stripes _).2] at hbyte
    exact absurd hbyte (by decide)
  · have hword := (hshows stripes).halfWords hbpp u hu
    rw [rgb_eq r stripes hbpp, hindex, htwo, hdiv, show unitAt true 1 % 2048 = 1 from rfl,
      show 1 / 2 = 0 from rfl, (halfWordOf_stripes _).1, (halfWordOf_stripes _).2] at hword
    have hdiffer : ∀ fmt16, rgb16 fmt16 0xFFFF ≠ rgb16 fmt16 0xFF00 := by decide
    exact hdiffer r.fmt16 hword

/-- In 8bpp the count of the dots wraps after half of a half. -/
theorem bytes_of_shows (hshows : ∀ lb, r.Shows lb) (hbpp : r.bpp = 0) {t : Nat}
    (hshown : (r.inputs t).displayed = true) : dotIndex r.inputs t < 2048 := by
  by_contra hlong
  obtain ⟨u, hu, hindex⟩ := exists_displayed_of_le r.inputs hshown (Nat.le_of_not_lt hlong)
  have hbyte := (hshows onesFrom256).bytes hbpp u hu
  cases hdiv : r.dotdiv with
  | true =>
    have hzero := r.undivided_of_shows hshows hdiv (.inl hbpp) hu
    omega
  | false =>
    have hone : r.enablesPerDot = 1 := by simp [enablesPerDot, hdiv]
    rw [pixel_eq r onesFrom256 hbpp, hindex, hone, hdiv, show unitAt false 2048 % 2048 = 0 from rfl, Nat.div_one,
      (byteOf_onesFrom256 _).1, (byteOf_onesFrom256 _).2] at hbyte
    exact absurd hbyte (by decide)

/-- In 24bpp the count of the pixels wraps after 1024. -/
theorem colours_of_shows (hshows : ∀ lb, r.Shows lb) (hbpp : r.bpp = 2) {t : Nat}
    (hshown : (r.inputs t).displayed = true) : dotIndex r.inputs t < 3 * 1024 := by
  by_contra hlong
  obtain ⟨u, hu, hindex⟩ := exists_displayed_of_le r.inputs hshown (Nat.le_of_not_lt hlong)
  have hcolour := (hshows onesFrom256).colours hbpp u 1024 hu hindex (u + 3) (le_refl _) fun v hv hv' => by omega
  rw [rgb, LineDots.rgb, (r.steady (u + 3)).1, hbpp, if_pos rfl, rgb24_eq r onesFrom256 hbpp hu hindex,
    show 3 * (1024 % 1024) = 0 from rfl, show 3 * 1024 = 3072 from rfl, (threeBytesOf_onesFrom256 _).1,
    (threeBytesOf_onesFrom256 _).2] at hcolour
  have hdiffer : ∀ bgr, LineDots.colour24 bgr 0 ≠ LineDots.colour24 bgr 0xFFFFFF := by decide
  exact hdiffer _ hcolour

/-- A frame start between an enable and the next dot of a window leaves that dot on the other half. -/
theorem uncrossed_of_shows (hshows : ∀ lb, r.Shows lb) (hbpp : r.bpp = 0 ∨ r.bpp = 1) {t : Nat}
    (hshown : (r.inputs t).displayed = true) : r.crossed t = false := by
  by_contra hcross
  obtain ⟨hhalf, hyPar⟩ := r.half_of_crossed hshown (by simpa using hcross)
  rcases hbpp with hbpp | hbpp
  · have hbyte := (hshows onesInHalf1).bytes hbpp t hshown
    rw [pixel_eq r onesInHalf1 hbpp, hhalf, hyPar, byteOf_onesInHalf1, byteOf_onesInHalf1] at hbyte
    exact absurd hbyte (by decide)
  · have hword := (hshows onesInHalf1).halfWords hbpp t hshown
    rw [rgb_eq r onesInHalf1 hbpp, hhalf, hyPar, halfWordOf_onesInHalf1, halfWordOf_onesInHalf1] at hword
    have hdiffer : ∀ fmt16, rgb16 fmt16 (BitVec.allOnes 16) ≠ rgb16 fmt16 0 := by decide
    exact hdiffer _ hword

/-- The code shows the right bytes in exactly the plain runs. -/
theorem shows_iff : (∀ lb, r.Shows lb) ↔ r.Plain := by
  constructor
  · intro hshows
    constructor
    · exact fun hdiv hbpp t hshown => r.undivided_of_shows hshows hdiv hbpp hshown
    · exact fun hbpp t hshown => r.bytes_of_shows hshows hbpp hshown
    · exact fun hbpp t hshown => r.colours_of_shows hshows hbpp hshown
    · exact fun hbpp t hshown => r.uncrossed_of_shows hshows hbpp hshown
  · intro hplain lb
    -- where the dots are plain the unit and the half are those of the line
    have hunit : r.bpp = 0 ∨ r.bpp = 1 → ∀ t, (r.inputs t).displayed = true →
        unitAt r.dotdiv (dotIndex r.inputs t) = dotIndex r.inputs t / r.enablesPerDot := by
      intro hbpp t hshown
      rw [unitAt, enablesPerDot]
      cases hdiv : r.dotdiv with
      | false => exact (Nat.div_one _).symm
      | true =>
        rw [hplain.undivided hdiv hbpp t hshown]
        rfl
    have hhalf : r.bpp = 0 ∨ r.bpp = 1 → ∀ t, (r.inputs t).displayed = true → r.half t = (r.requests t).yPar :=
      fun hbpp t hshown => r.half_of_uncrossed hshown (hplain.uncrossed hbpp t hshown)
    constructor
    · intro hbpp t hshown
      have hlt : dotIndex r.inputs t / r.enablesPerDot < 2048 :=
        lt_of_le_of_lt (Nat.div_le_self _ _) (hplain.bytes hbpp t hshown)
      rw [pixel_eq r lb hbpp, hhalf (.inl hbpp) t hshown, hunit (.inl hbpp) t hshown, Nat.mod_eq_of_lt hlt]
    · intro hbpp t hshown
      have hlt : dotIndex r.inputs t / r.enablesPerDot < 2048 := by
        have hfits := (r.fits t hshown).2.1 hbpp
        rw [enablesPerDot]
        omega
      rw [rgb_eq r lb hbpp, hhalf (.inr hbpp) t hshown, hunit (.inr hbpp) t hshown, Nat.mod_eq_of_lt hlt]
    · intro hbpp t x hshown hx u hu hnone
      have hlt := hplain.colours hbpp t hshown
      rw [rgb, LineDots.rgb, (r.steady u).1, hbpp, if_pos rfl, rgb24_stays r lb hbpp hu hnone, rgb24_eq r lb hbpp hshown hx,
        Nat.mod_eq_of_lt (by omega)]

/-- A window of two enables in 8bpp under a divided dot clock. -/
def divided : PixelRun where
  start := { xCnt := 0, dotPh := false, lbRdAddr := 0, byteSel := 0, hwSel := 0, b24Sel := 0, rd2Pending := false
             rd2Capture := false, q0 := 0, rgb24 := 0, px24 := 0, ph24 := 0, pixCe := false }
  taken := fun _ => false
  inputs := fun t =>
    { bpp := 0, fmt16 := 0, cePix := true, notDisplaying := 1 < t, vsync := false, doublescan := false, rep2 := false
      dotdiv := true, startAddr := 0, strideWords := 80, widthWords := 80 }
  bpp := 0
  fmt16 := 0
  dotdiv := true
  steady := fun _ => ⟨rfl, rfl, rfl⟩
  blanking := by
    intro t hshown hfirst
    obtain rfl | rfl : t = 0 ∨ t = 1 := by
      simp [LinebufIn.displayed] at hshown
      omega
    · exact le_refl 2
    · exact absurd hfirst (by decide)
  fits := by
    intro t hshown
    obtain rfl | rfl : t = 0 ∨ t = 1 := by
      simp [LinebufIn.displayed] at hshown
      omega
    · exact ⟨fun _ => by decide, nofun, nofun⟩
    · exact ⟨fun _ => by decide, nofun, nofun⟩

/-- The second enable of the first dot shows the second byte. -/
theorem divided_not_shows : ¬ ∀ lb, divided.Shows lb := by
  intro h
  have hshown : divided.pixel stripes 1 = 0 := (h stripes).bytes rfl 1 rfl
  have hsecond : divided.pixel stripes 1 = 0xFF := by decide
  exact absurd (hshown.symm.trans hsecond) (by decide)

end PixelRun

end Z486.Video
