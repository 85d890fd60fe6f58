/-
A stable raster at the input of the 15 kHz stage (src/soc/vga_tv15.sv), line by line. What the registers of the placement
hold at the edge of a line is a matter of the lines before it in its frame; the four clocks of the computation are over
long before the frame is, so each vsync of the input finds the placement of the frame before the last.
-/
import Z486.Video.TvStage

namespace Z486.Video

open Clocked

/-! ## The raster -/

/-- A run of the stage, from any state, with a raster of `lines` lines a frame from clock `start 0` on. Line `n` starts at
the edge of hsync in clock `start n`, and the edge of vsync comes with that of every `lines`th; the lines of a frame that
have the display enable within them are `deLines`, from line `first` on. -/
structure TvRaster where
  inp : Nat → TvIn
  state : Nat → TvStage
  next : ∀ t, state (t + 1) = (state t).step (inp t)
  lines : Nat
  first : Nat
  deLines : Nat
  vpos : BitVec 3
  start : Nat → Nat
  shown : Nat → Bool
  start_lt : ∀ n, start n < start (n + 1)
  linesLo : 400 ≤ lines
  linesHi : lines ≤ 560
  running : ∀ t, start 0 ≤ t → (inp t).reset = false
  held : ∀ t, start 0 ≤ t → (inp t).vpos = vpos
  hsRise_iff : ∀ t, start 0 ≤ t → ((state t).hsRise (inp t) = true ↔ ∃ n, t = start n)
  vsRise_iff : ∀ t, start 0 ≤ t → ((state t).vsRise (inp t) = true ↔ ∃ k, t = start (k * lines))
  shown_iff : ∀ n, shown n = true ↔ ∃ t, start n < t ∧ t < start (n + 1) ∧ (inp t).de = true
  first_lt : first < lines
  firstShown : ∀ k, shown (k * lines + first) = true
  firstLeast : ∀ k j, j < first → shown (k * lines + j) = false
  shownLines : ∀ k, pulses shown (k * lines) (k * lines + lines) = deLines

namespace TvRaster

variable (r : TvRaster)

/-! ## Clocks and lines -/

section Lines

variable {r} {m n t : Nat}

theorem start_mono (h : m ≤ n) : r.start m ≤ r.start n := by
  induction n, h using Nat.le_induction with
  | base => exact Nat.le_refl _
  | succ n h ih => exact Nat.le_of_lt (Nat.lt_of_le_of_lt ih (r.start_lt n))

theorem start_strict (h : m < n) : r.start m < r.start n := Nat.lt_of_lt_of_le (r.start_lt m) (start_mono h)

theorem start_inj (h : r.start m = r.start n) : m = n := by
  rcases Nat.lt_trichotomy m n with hlt | heq | hlt
  · exact absurd h (Nat.ne_of_lt (start_strict hlt))
  · exact heq
  · exact absurd h.symm (Nat.ne_of_lt (start_strict hlt))

theorem start_add (n k : Nat) : r.start n + k ≤ r.start (n + k) := by
  induction k with
  | zero => exact Nat.le_refl _
  | succ k ih => exact Nat.succ_le_of_lt (Nat.lt_of_le_of_lt ih (r.start_lt _))

theorem lines_pos : 0 < r.lines := Nat.lt_of_lt_of_le (by decide) r.linesLo

/-- Between the edges of two lines there is none. -/
theorem quiet (hlo : r.start n < t) (hhi : t < r.start (n + 1)) :
    (r.state t).hsRise (r.inp t) = false ∧ (r.state t).vsRise (r.inp t) = false := by
  have hbefore : r.start 0 ≤ t := (start_mono (Nat.zero_le n)).trans (Nat.le_of_lt hlo)
  have hnone : ∀ m, t ≠ r.start m := by
    rintro m rfl
    rcases Nat.lt_or_ge n m with hlt | hge
    · exact absurd hhi (Nat.not_lt.2 (start_mono hlt))
    · exact absurd hlo (Nat.not_lt.2 (start_mono hge))
  refine ⟨Bool.eq_false_of_not_eq_true fun h => ?_, Bool.eq_false_of_not_eq_true fun h => ?_⟩
  · obtain ⟨m, hm⟩ := (r.hsRise_iff t hbefore).1 h
    exact hnone m hm
  · obtain ⟨k, hk⟩ := (r.vsRise_iff t hbefore).1 h
    exact hnone _ hk

theorem hsRise_start (n : Nat) : (r.state (r.start n)).hsRise (r.inp (r.start n)) = true :=
  (r.hsRise_iff _ (start_mono (Nat.zero_le n))).2 ⟨n, rfl⟩

theorem vsRise_start (n : Nat) : (r.state (r.start n)).vsRise (r.inp (r.start n)) = decide (n % r.lines = 0) := by
  rw [Bool.eq_iff_iff, decide_eq_true_iff, r.vsRise_iff _ (start_mono (Nat.zero_le n))]
  constructor
  · rintro ⟨k, hk⟩
    rw [start_inj hk, Nat.mul_mod_left]
  · intro h
    exact ⟨n / r.lines, by rw [Nat.div_mul_cancel (Nat.dvd_of_mod_eq_zero h)]⟩

theorem running_start (n : Nat) : (r.inp (r.start n)).reset = false := r.running _ (start_mono (Nat.zero_le n))

/-- The level of hsync falls before it rises again. -/
theorem start_gap (n : Nat) : r.start n + 1 < r.start (n + 1) := by
  have hlt := r.start_lt n
  by_contra hnext
  have heq : r.start (n + 1) = r.start n + 1 := by omega
  have hrise := hsRise_start (r := r) (n + 1)
  have hhigh := hsRise_start (r := r) n
  unfold TvStage.hsRise at hrise hhigh
  rw [Bool.and_eq_true] at hrise hhigh
  have hreg : (r.state (r.start n + 1)).hsR = true := by
    rw [r.next]
    exact hhigh.1
  rw [heq, hreg] at hrise
  exact absurd hrise.2 (by decide)

theorem place_next (t : Nat) :
    (r.state (t + 1)).place = (r.state t).place.step ((r.state t).placeIn (r.inp t)) := by
  rw [r.next]
  rfl

theorem place_quiet (hlo : r.start n < t) (hhi : t < r.start (n + 1)) :
    TvPlace.Kept (r.state t).place (r.state (t + 1)).place ∧
      (r.state (t + 1)).place.deInLine = ((r.inp t).de || (r.state t).place.deInLine) ∧
      (r.state (t + 1)).place.fire = false := by
  obtain ⟨hhs, hvs⟩ := quiet hlo hhi
  rw [place_next]
  exact TvPlace.step_quiet (r.running t ((start_mono (Nat.zero_le n)).trans (Nat.le_of_lt hlo))) hhs hvs

theorem frameLines_quiet (hlo : r.start n < t) (hhi : t < r.start (n + 1)) :
    (r.state (t + 1)).frameLines = (r.state t).frameLines := by
  obtain ⟨hhs, hvs⟩ := quiet hlo hhi
  rw [r.next]
  show (if (r.inp t).reset then 0 else (r.state t).frameLinesNext (r.inp t)) = _
  rw [r.running t ((start_mono (Nat.zero_le n)).trans (Nat.le_of_lt hlo)), if_neg Bool.false_ne_true]
  unfold TvStage.frameLinesNext
  rw [hhs, hvs, Bool.false_and, if_neg Bool.false_ne_true, if_neg Bool.false_ne_true]

/-- The clocks of a line up to the edge of the next. -/
theorem kept (hlo : r.start n < t) (hhi : t ≤ r.start (n + 1)) :
    TvPlace.Kept (r.state (r.start n + 1)).place (r.state t).place ∧
      (r.state t).frameLines = (r.state (r.start n + 1)).frameLines := by
  induction t, hlo using Nat.le_induction with
  | base => exact ⟨TvPlace.Kept.refl _, rfl⟩
  | succ t hlo ih =>
    obtain ⟨hkept, hframe⟩ := ih (Nat.le_of_lt hhi)
    exact ⟨hkept.trans (place_quiet hlo hhi).1, (frameLines_quiet hlo hhi).trans hframe⟩

theorem fire_quiet (hlo : r.start n + 1 < t) (hhi : t ≤ r.start (n + 1)) : (r.state t).place.fire = false := by
  obtain ⟨u, rfl⟩ : ∃ u, t = u + 1 := ⟨t - 1, by omega⟩
  exact (place_quiet (n := n) (by omega) hhi).2.2

theorem deInLine_start (n : Nat) : (r.state (r.start (n + 1))).place.deInLine = r.shown n := by
  have hseen : ∀ t, r.start n < t → t ≤ r.start (n + 1) →
      ((r.state t).place.deInLine = true ↔ ∃ u, r.start n < u ∧ u < t ∧ (r.inp u).de = true) := by
    intro t hlo
    induction t, hlo using Nat.le_induction with
    | base =>
      intro _
      have hclear : (r.state (r.start n + 1)).place.deInLine = false := by
        rw [place_next]
        show (if (r.inp (r.start n)).reset then false else if (r.state _).hsRise _ then false else _) = false
        rw [running_start, hsRise_start, if_neg Bool.false_ne_true, if_pos rfl]
      rw [show (r.state (Nat.succ (r.start n))).place.deInLine = false from hclear]
      refine ⟨fun h => absurd h Bool.false_ne_true, fun ⟨u, hu, hlt, _⟩ => by omega⟩
    | succ t hlo ih =>
      intro hhi
      rw [(place_quiet hlo hhi).2.1, Bool.or_eq_true, ih (Nat.le_of_lt hhi)]
      constructor
      · rintro (hde | ⟨u, hu, hlt, hde⟩)
        · exact ⟨t, hlo, Nat.lt_succ_self t, hde⟩
        · exact ⟨u, hu, Nat.lt_succ_of_lt hlt, hde⟩
      · rintro ⟨u, hu, hlt, hde⟩
        rcases Nat.lt_succ_iff_lt_or_eq.1 hlt with hlt | rfl
        · exact .inr ⟨u, hu, hlt, hde⟩
        · exact .inl hde
  rw [Bool.eq_iff_iff, hseen _ (r.start_lt n) (Nat.le_refl _), r.shown_iff]

/-- What the edge of line `n` does to the counts of the lines. -/
theorem counts_next (n : Nat) :
    (r.state (r.start (n + 1))).place.deLines =
        (if n % r.lines = 0 then 0
        else (r.state (r.start n)).place.deLines + (if (r.state (r.start n)).place.deInLine then 1 else 0)) ∧
      (r.state (r.start (n + 1))).place.deSeen =
        (if n % r.lines = 0 then false
        else (r.state (r.start n)).place.deInLine || (r.state (r.start n)).place.deSeen) ∧
      (r.state (r.start (n + 1))).place.firstDe =
        (if (r.state (r.start n)).place.deInLine && !(r.state (r.start n)).place.deSeen
        then (r.state (r.start n)).frameLines else (r.state (r.start n)).place.firstDe) ∧
      (r.state (r.start (n + 1))).frameLines =
        (if n % r.lines = 0 then 0
        else if (r.state (r.start n)).frameLines != 0x7FF then (r.state (r.start n)).frameLines + 1
        else (r.state (r.start n)).frameLines) := by
  obtain ⟨hkept, hframe⟩ := kept (r.start_lt n) (Nat.le_refl _)
  have hreset := running_start (r := r) n
  have hhs := hsRise_start (r := r) n
  have hvs := vsRise_start (r := r) n
  have hif : ∀ {α : Type} (a b : α), (if decide (n % r.lines = 0) = true then a else b) =
      if n % r.lines = 0 then a else b := fun a b => if_congr decide_eq_true_iff rfl rfl
  -- a line ends as the next one starts, and is counted when it was shown
  have hends : (r.state (r.start n)).place.endsShown ((r.state (r.start n)).placeIn (r.inp (r.start n))) =
      (r.state (r.start n)).place.deInLine := by
    unfold TvPlace.endsShown
    show ((r.state (r.start n)).hsRise (r.inp (r.start n)) && _) = _
    rw [hhs, Bool.true_and]
  refine ⟨?_, ?_, ?_, ?_⟩
  · rw [hkept.deLines, place_next]
    show (if (r.inp _).reset then 0 else if (r.state _).vsRise _ then 0 else if TvPlace.endsShown _ _ then _ else _) = _
    rw [hreset, hvs, hends, if_neg Bool.false_ne_true, hif]
    cases (r.state (r.start n)).place.deInLine with
    | true => rfl
    | false =>
      rw [show (r.state (r.start n)).place.deLines + (if false = true then 1 else 0 : BitVec 11) = _ from BitVec.add_zero _]
      rfl
  · rw [hkept.deSeen, place_next]
    show (if (r.inp _).reset then false else if (r.state _).vsRise _ then false else TvPlace.endsShown _ _ || _) = _
    rw [hreset, hvs, hends, if_neg Bool.false_ne_true, hif]
  · rw [hkept.firstDe, place_next]
    show (if (r.inp _).reset then 0 else if TvPlace.endsShown _ _ && _ then _ else _) = _
    rw [hreset, hends, if_neg Bool.false_ne_true]
    rfl
  · rw [hframe, r.next]
    show (if (r.inp _).reset then 0 else (r.state (r.start n)).frameLinesNext _) = _
    rw [hreset, if_neg Bool.false_ne_true]
    unfold TvStage.frameLinesNext
    rw [hhs, hvs, hif, Bool.true_and]

end Lines

/-! ## The frame before -/

section Frames

variable {r} {k t : Nat}

theorem no_vsync (hlo : r.start (k * r.lines) < t) (hhi : t < r.start (k * r.lines + r.lines)) :
    (r.state t).vsRise (r.inp t) = false := by
  refine Bool.eq_false_of_not_eq_true fun h => ?_
  obtain ⟨m, rfl⟩ := (r.vsRise_iff t ((start_mono (Nat.zero_le _)).trans (Nat.le_of_lt hlo))).1 h
  rcases Nat.lt_or_ge k m with hlt | hge
  · have hle : k * r.lines + r.lines ≤ m * r.lines := by
      rw [← Nat.succ_mul]
      exact Nat.mul_le_mul_right _ hlt
    exact absurd hhi (Nat.not_lt.2 (start_mono hle))
  · exact absurd hlo (Nat.not_lt.2 (start_mono (Nat.mul_le_mul_right _ hge)))

theorem vofs_eq (ht : r.start 0 < t) : (r.state t).vofs = vofsOf r.vpos := by
  obtain ⟨u, rfl⟩ : ∃ u, t = u + 1 := ⟨t - 1, by omega⟩
  rw [r.next]
  show vofsOf (r.inp u).vpos = _
  rw [r.held u (by omega)]

/-- The registers in the clock after the edge of vsync. -/
def latched (r : TvRaster) (k : Nat) : TvPlace := (r.state (r.start (k * r.lines) + 1)).place

/-- The delay computed from the lines that the vsync of frame `k` latches. -/
def delay (r : TvRaster) (k : Nat) : BitVec 11 :=
  TvPlace.placement (r.latched k).frameL (r.latched k).deLinesL (r.latched k).firstDeL (vofsOf r.vpos)

theorem latched_kept (hlo : r.start (k * r.lines) < t) (hhi : t ≤ r.start (k * r.lines + r.lines)) :
    TvPlace.Latched (r.latched k) (r.state t).place := by
  induction t, hlo using Nat.le_induction with
  | base => exact ⟨rfl, rfl, rfl⟩
  | succ t hlo ih =>
    rw [place_next]
    exact (ih (Nat.le_of_lt hhi)).trans (TvPlace.step_latched (no_vsync hlo hhi))

theorem room (k : Nat) : r.start (k * r.lines) + 400 ≤ r.start (k * r.lines + r.lines) :=
  Nat.le_trans (Nat.add_le_add_left r.linesLo _) (start_add _ _)

theorem latched_calc (k : Nat) : (r.latched k).calcReg = 1 := by
  unfold latched
  rw [place_next, TvPlace.calcReg_step (running_start _)]
  unfold TvPlace.calcNext
  rw [if_pos]
  show (r.state _).vsRise _ = true
  rw [vsRise_start, Nat.mul_mod_left]
  rfl

/-- The computation takes four clocks. -/
theorem delay_computed (k : Nat) :
    (r.state (r.start (k * r.lines) + 5)).place.calcReg = 0 ∧
      (r.state (r.start (k * r.lines) + 5)).place.delayReg = r.delay k := by
  have hroom := room (r := r) k
  generalize hv : r.start (k * r.lines) = v at hroom
  have hzero : r.start 0 ≤ v := hv ▸ start_mono (Nat.zero_le _)
  have hrun : ∀ j, 1 ≤ j → j < 5 → (r.inp (v + j)).reset = false := fun j _ _ => r.running _ (by omega)
  have hvs : ∀ j, 1 ≤ j → j < 5 → (r.state (v + j)).vsRise (r.inp (v + j)) = false := fun j _ _ =>
    no_vsync (k := k) (by omega) (by omega)
  have hlat : ∀ j, 1 ≤ j → j < 6 → TvPlace.Latched (r.latched k) (r.state (v + j)).place := fun j _ _ =>
    latched_kept (by omega) (by omega)
  have hone : (r.state (v + 1)).place.calcReg = 1 := hv ▸ latched_calc k
  obtain ⟨htwo, hmul⟩ := TvPlace.step_mul (i := (r.state (v + 1)).placeIn (r.inp (v + 1)))
    (hrun 1 (by decide) (by decide)) (hvs 1 (by decide) (by decide)) hone
  rw [← place_next] at htwo hmul
  obtain ⟨hthree, htarget⟩ := TvPlace.step_target (i := (r.state (v + 2)).placeIn (r.inp (v + 2)))
    (hrun 2 (by decide) (by decide)) (hvs 2 (by decide) (by decide)) htwo
  rw [← place_next] at hthree htarget
  obtain ⟨hfour, hkeep, hdlt, hdltF⟩ := TvPlace.step_dlt (i := (r.state (v + 3)).placeIn (r.inp (v + 3)))
    (hrun 3 (by decide) (by decide)) (hvs 3 (by decide) (by decide)) hthree
  rw [← place_next] at hfour hkeep hdlt hdltF
  obtain ⟨hdone, hdelay⟩ := TvPlace.step_delay (i := (r.state (v + 4)).placeIn (r.inp (v + 4)))
    (hrun 4 (by decide) (by decide)) (hvs 4 (by decide) (by decide)) hfour
  rw [← place_next] at hdone hdelay
  refine ⟨hdone, hdelay.trans ?_⟩
  have htarget' : (r.state (v + 3)).place.target =
      TvPlace.targetOf ((r.latched k).frameL.setWidth 19 * 138) (vofsOf r.vpos) (r.latched k).deLinesL := by
    refine htarget.trans ?_
    rw [hmul, (hlat 1 (by decide) (by decide)).frameL, (hlat 2 (by decide) (by decide)).deLinesL]
    show TvPlace.targetOf _ (r.state (v + 2)).vofs _ = _
    rw [vofs_eq (by omega)]
  rw [hdlt, hdltF, hkeep, htarget', (hlat 4 (by decide) (by decide)).deLinesL,
    (hlat 4 (by decide) (by decide)).firstDeL, (hlat 3 (by decide) (by decide)).firstDeL,
    (hlat 3 (by decide) (by decide)).frameL]
  rfl

/-- The next vsync finds it. -/
theorem delayReg_eq (k : Nat) : (r.state (r.start (k * r.lines + r.lines))).place.delayReg = r.delay k := by
  have hroom := room (r := r) k
  have hstays : ∀ t, r.start (k * r.lines) + 5 ≤ t → t ≤ r.start (k * r.lines + r.lines) →
      (r.state t).place.calcReg = 0 ∧ (r.state t).place.delayReg = r.delay k := by
    intro t hlo
    induction t, hlo using Nat.le_induction with
    | base => exact fun _ => delay_computed k
    | succ t hlo ih =>
      intro hhi
      obtain ⟨hidle, hdelay⟩ := ih (Nat.le_of_lt hhi)
      have hrun : (r.inp t).reset = false := r.running t ((start_mono (Nat.zero_le (k * r.lines))).trans (by omega))
      obtain ⟨hnext, hsame⟩ := TvPlace.step_idle (i := (r.state t).placeIn (r.inp t)) hrun
        (no_vsync (k := k) (by omega) hhi) hidle
      rw [place_next]
      exact ⟨hnext, hsame.trans hdelay⟩
  exact (hstays _ (by omega) (Nat.le_refl _)).2

/-! ## The lines of a frame -/

/-- What is counted at the edge of line `j + 1` of frame `k`, or of the next frame's first line. -/
structure Counted (r : TvRaster) (k j : Nat) : Prop where
  frameLines : (r.state (r.start (k * r.lines + j + 1))).frameLines.toNat = j
  deLines : (r.state (r.start (k * r.lines + j + 1))).place.deLines.toNat =
    pulses r.shown (k * r.lines) (k * r.lines + j)
  deSeen : (r.state (r.start (k * r.lines + j + 1))).place.deSeen = decide (r.first < j)
  firstDe : r.first < j → (r.state (r.start (k * r.lines + j + 1))).place.firstDe.toNat = r.first

theorem pulses_le (p : Nat → Bool) (a j : Nat) : pulses p a (a + j) ≤ j := by
  induction j with
  | zero => exact Nat.le_of_eq (pulses_self p a)
  | succ j ih =>
    rw [← Nat.add_assoc, pulses_succ p (Nat.le_add_right a j)]
    split <;> omega

theorem counted (k : Nat) {j : Nat} (hj : j < r.lines) : Counted r k j := by
  induction j with
  | zero =>
    -- the first line of the frame: the counters have been cleared
    obtain ⟨hlines, hseen, -, hframe⟩ := counts_next (r := r) (k * r.lines)
    have hmod : k * r.lines % r.lines = 0 := Nat.mul_mod_left k r.lines
    rw [if_pos hmod] at hlines hseen hframe
    refine ⟨?_, ?_, ?_, fun h => absurd h (Nat.not_lt_zero _)⟩
    · rw [Nat.add_zero, hframe]
      rfl
    · show BitVec.toNat (r.state (r.start (k * r.lines + 1))).place.deLines = pulses r.shown (k * r.lines) (k * r.lines)
      rw [hlines, pulses_self]
      rfl
    · rw [Nat.add_zero, hseen]
      rfl
  | succ j ih =>
    -- a line later the counters are ahead by what this line shows
    have h := ih (Nat.lt_of_succ_lt hj)
    have hhi := r.linesHi
    obtain ⟨hlines, hseen, hfirst, hframe⟩ := counts_next (r := r) (k * r.lines + j + 1)
    have hmod : ¬ (k * r.lines + j + 1) % r.lines = 0 := by
      rw [Nat.add_assoc, Nat.mul_add_mod_self_right, Nat.mod_eq_of_lt hj]
      exact Nat.succ_ne_zero j
    rw [if_neg hmod] at hlines hseen hframe
    rw [deInLine_start] at hlines hseen hfirst
    have hcount := pulses_le r.shown (k * r.lines) j
    have hframe' := h.frameLines
    have hlines' := h.deLines
    refine ⟨?_, ?_, ?_, fun hlt => ?_⟩
    · have hnot : (r.state (r.start (k * r.lines + j + 1))).frameLines ≠ 0x7FF := by
        intro hfull
        rw [hfull] at hframe'
        have hfull : 2047 = j := hframe'
        omega
      rw [← Nat.add_assoc, hframe, if_pos (bne_iff_ne.2 hnot), BitVec.toNat_add, hframe']
      show (j + 1) % 2048 = j + 1
      omega
    · rw [← Nat.add_assoc, hlines, pulses_succ _ (Nat.le_add_right _ _), BitVec.toNat_add, hlines']
      cases r.shown (k * r.lines + j) with
      | true =>
        show (_ + 1) % 2048 = _ + 1
        omega
      | false =>
        show (_ + 0) % 2048 = _ + 0
        omega
    · rw [← Nat.add_assoc, hseen, h.deSeen, Bool.eq_iff_iff, Bool.or_eq_true, decide_eq_true_iff, decide_eq_true_iff]
      constructor
      · rintro (hshown | hlt)
        · by_contra hnot
          rw [r.firstLeast k j (by omega)] at hshown
          exact absurd hshown Bool.false_ne_true
        · exact Nat.lt_succ_of_lt hlt
      · intro hlt
        rcases Nat.lt_succ_iff_lt_or_eq.1 hlt with hlt | rfl
        · exact .inr hlt
        · exact .inl (r.firstShown k)
    · rw [← Nat.add_assoc, hfirst, h.deSeen]
      rcases Nat.lt_succ_iff_lt_or_eq.1 hlt with hlt | heq
      · rw [decide_eq_true hlt, Bool.not_true, Bool.and_false, if_neg Bool.false_ne_true]
        exact h.firstDe hlt
      · rw [← heq, r.firstShown k, decide_eq_false (Nat.lt_irrefl _), Bool.not_false, Bool.and_true, if_pos rfl, heq]
        exact hframe'

/-- The first line of the picture, as it is counted: the frame's last line ends too late to count. -/
def countedFirst (r : TvRaster) : Nat := if r.first + 1 < r.lines then r.first else 0

/-- Each frame latches the lines of the one before it. -/
theorem latched_eq (k : Nat) :
    (r.latched (k + 1)).frameL.toNat = r.lines ∧ (r.latched (k + 1)).deLinesL.toNat = r.deLines ∧
      (r.latched (k + 1)).firstDeL.toNat = r.countedFirst := by
  obtain ⟨m, hm⟩ : ∃ m, r.lines = m + 1 := ⟨r.lines - 1, by have := lines_pos (r := r); omega⟩
  have hhi := r.linesHi
  have h := counted (r := r) k (j := m) (by omega)
  have hedge : k * r.lines + m + 1 = (k + 1) * r.lines := by rw [Nat.succ_mul, hm, Nat.add_assoc]
  have hshown := deInLine_start (r := r) (k * r.lines + m)
  have htotal := r.shownLines k
  rw [show k * r.lines + r.lines = k * r.lines + m + 1 by omega, pulses_succ _ (Nat.le_add_right _ _)] at htotal
  have hcount := pulses_le r.shown (k * r.lines) m
  rw [hedge] at hshown
  have hframe := h.frameLines
  have hlines := h.deLines
  have hseen := h.deSeen
  have hfirst := h.firstDe
  rw [hedge] at hframe hlines hseen hfirst
  have hreset := running_start (r := r) ((k + 1) * r.lines)
  have hhs := hsRise_start (r := r) ((k + 1) * r.lines)
  have hvs := vsRise_start (r := r) ((k + 1) * r.lines)
  rw [Nat.mul_mod_left, decide_eq_true rfl] at hvs
  -- the frame ends with its last line, which is counted as it ends
  have hends : (r.state (r.start ((k + 1) * r.lines))).place.endsShown
      ((r.state (r.start ((k + 1) * r.lines))).placeIn (r.inp (r.start ((k + 1) * r.lines)))) =
      r.shown (k * r.lines + m) := by
    unfold TvPlace.endsShown
    show ((r.state _).hsRise _ && _) = _
    rw [hhs, Bool.true_and, hshown]
  unfold latched
  rw [place_next]
  refine ⟨?_, ?_, ?_⟩
  · show BitVec.toNat (if !(r.inp _).reset && (r.state _).vsRise _ then
      (r.state _).frameLines + (if (r.state _).hsRise _ then 1 else 0) else _) = _
    rw [hreset, hvs, hhs, Bool.not_false, Bool.true_and, if_pos rfl, if_pos rfl, BitVec.toNat_add, hframe]
    show (m + 1) % 2048 = _
    omega
  · show BitVec.toNat (if !(r.inp _).reset && (r.state _).vsRise _ then
      (r.state _).place.deLines + (if TvPlace.endsShown _ _ then 1 else 0) else _) = _
    rw [hreset, hvs, hends, Bool.not_false, Bool.true_and, if_pos rfl, BitVec.toNat_add, hlines]
    cases hlast : r.shown (k * r.lines + m) with
    | true =>
      rw [hlast, if_pos rfl] at htotal
      show (_ + 1) % 2048 = _
      omega
    | false =>
      rw [hlast, if_neg Bool.false_ne_true] at htotal
      show (_ + 0) % 2048 = _
      omega
  · show BitVec.toNat (if !(r.inp _).reset && (r.state _).vsRise _ then
      if (r.state _).place.deSeen then (r.state _).place.firstDe else 0 else _) = _
    rw [hreset, hvs, hseen, Bool.not_false, Bool.true_and, if_pos rfl]
    -- the first shown line is latched only when it is not the last one
    unfold countedFirst
    by_cases hlt : r.first < m
    · rw [if_pos (decide_eq_true hlt), if_pos (by omega)]
      exact hfirst hlt
    · rw [if_neg (by rw [decide_eq_false hlt]; exact Bool.false_ne_true), if_neg (by omega)]
      rfl

theorem countedFirst_lt (r : TvRaster) : r.countedFirst < r.lines := by
  unfold countedFirst
  split
  · exact r.first_lt
  · exact lines_pos

theorem deLines_le (r : TvRaster) : r.deLines ≤ r.lines := r.shownLines 0 ▸ pulses_le _ _ _

theorem deLines_pos (r : TvRaster) : 0 < r.deLines := by
  have hfirst := r.first_lt
  have htotal := r.shownLines 0
  rw [pulses_add r.shown (b := 0 * r.lines + (r.first + 1)) (by omega) (by omega), ← Nat.add_assoc,
    pulses_succ _ (Nat.le_add_right _ _), r.firstShown 0, if_pos rfl] at htotal
  omega

/-- From the third frame on the vsync waits the lines of the placement. -/
theorem delay_toNat (k : Nat) :
    (r.delay (k + 1)).toNat = delayLines r.lines r.deLines r.countedFirst r.vpos := by
  obtain ⟨hframe, hlines, hfirst⟩ := latched_eq (r := r) k
  unfold delay
  rw [placement_toNat r.vpos (by rw [hframe]; exact r.linesLo) (by rw [hframe]; exact r.linesHi)
    (by rw [hlines]; exact r.deLines_pos) (by rw [hlines, hframe]; exact r.deLines_le)
    (by rw [hfirst, hframe]; exact r.countedFirst_lt), hframe, hlines, hfirst]

end Frames

end TvRaster

end Z486.Video
