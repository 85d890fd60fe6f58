/-
The output's vsync in the 15 kHz stage (src/soc/vga_tv15.sv). The lines that it still waits are counted down by the edges
of the lines other than the frame's first, at which the count is set to the delay, unless that is zero: then the vsync
is placed at once, and a count that is under way goes on.
-/
import Z486.Video.TvRaster

namespace Z486.Video

open Clocked

/-! ## The countdown -/

namespace TvPlace

variable {s : TvPlace} {i : TvPlaceIn}

/-- The lines that the vsync still waits, none when it is not armed. -/
def waiting (s : TvPlace) : Nat := if s.armed then s.vsWait.toNat + 1 else 0

/-- A delay of zero leaves the count as it is. -/
def reload (w delay : Nat) : Nat := if delay = 0 then w else delay

theorem Kept.waiting {s s' : TvPlace} (h : Kept s s') : s'.waiting = s.waiting := by
  unfold TvPlace.waiting
  rw [h.armed, h.vsWait]

theorem edge_registers (hreset : i.reset = false) : (s.step i).armed = s.armedNext i ∧
    (s.step i).vsWait = s.vsWaitNext i ∧ (s.step i).fire = s.fireNext i := by
  refine ⟨?_, ?_, ?_⟩
  · show (if i.reset then false else s.armedNext i) = _
    rw [hreset, if_neg Bool.false_ne_true]
  · show (if i.reset then 0 else s.vsWaitNext i) = _
    rw [hreset, if_neg Bool.false_ne_true]
  · show (!i.reset && s.fireNext i) = _
    rw [hreset, Bool.not_false, Bool.true_and]

section Edges

variable (hreset : i.reset = false) (hhs : i.hsRise = true)
include hreset hhs

theorem step_vsync (hvs : i.vsRise = true) :
    (s.step i).waiting = reload s.waiting s.delayReg.toNat ∧ (s.step i).fire = decide (s.delayReg.toNat = 0) := by
  obtain ⟨harmed, hwait, hfire⟩ := edge_registers (s := s) hreset
  have hzero : s.delayReg = 0 ↔ s.delayReg.toNat = 0 := by
    rw [← BitVec.toNat_inj]
    rfl
  unfold waiting
  rw [harmed, hwait, hfire]
  unfold armedNext vsWaitNext fireNext reload
  rw [hhs, hvs, if_pos rfl, if_pos rfl, if_pos rfl, if_pos rfl, if_pos rfl, Bool.true_and]
  by_cases h : s.delayReg = 0
  · rw [if_pos (beq_iff_eq.2 h), if_pos (beq_iff_eq.2 h), if_pos (hzero.1 h), decide_eq_true (hzero.1 h)]
    exact ⟨rfl, beq_iff_eq.2 h⟩
  · have hpos := mt hzero.2 h
    rw [if_neg (mt beq_iff_eq.1 h), if_neg (mt beq_iff_eq.1 h), if_neg hpos, decide_eq_false hpos, if_pos rfl]
    refine ⟨?_, beq_eq_false_iff_ne.2 h⟩
    have hlt := s.delayReg.isLt
    rw [BitVec.toNat_sub]
    show (2048 - 1 + s.delayReg.toNat) % 2048 + 1 = _
    omega

theorem step_line (hvs : i.vsRise = false) :
    (s.step i).waiting = s.waiting - 1 ∧ (s.step i).fire = decide (s.waiting = 1) := by
  obtain ⟨harmed, hwait, hfire⟩ := edge_registers (s := s) hreset
  rw [hfire]
  unfold fireNext
  rw [hhs, hvs, if_neg Bool.false_ne_true, Bool.true_and]
  unfold waiting
  rw [harmed, hwait]
  unfold armedNext vsWaitNext
  rw [hhs, hvs, if_pos rfl, if_pos rfl, if_neg Bool.false_ne_true, if_neg Bool.false_ne_true]
  cases s.armed with
  | false => exact ⟨rfl, rfl⟩
  | true =>
    rw [Bool.true_and, Bool.true_and, if_pos rfl]
    by_cases h : s.vsWait = 0
    · rw [h]
      exact ⟨rfl, rfl⟩
    · have hpos : s.vsWait.toNat ≠ 0 := fun hz => h (BitVec.eq_of_toNat_eq hz)
      have hlt := s.vsWait.isLt
      rw [if_pos (bne_iff_ne.2 h), if_pos (bne_iff_ne.2 h), BitVec.toNat_sub]
      refine ⟨?_, (beq_eq_false_iff_ne.2 h).trans (decide_eq_false (by omega)).symm⟩
      show (2048 - 1 + s.vsWait.toNat) % 2048 + 1 = _
      omega

end Edges

end TvPlace

/-! ## The lines of the output -/

namespace TvStore

variable {s : TvStore} {i : TvStoreIn}

/-- The phase of the lines, the vsync that waits for the next output line and the lines that it still lasts. -/
def phase (s : TvStore) : Bool × Bool × BitVec 3 := (s.capPhase, s.vsPend, s.vsLines)

def countdown (v : BitVec 3) : BitVec 3 := if v != 0 then v - 1 else v

theorem countdown_ofNat : ∀ n, n < 7 → countdown (BitVec.ofNat 3 n) = BitVec.ofNat 3 (n - 1) := by
  decide

theorem phase_step (hreset : i.reset = false) :
    (s.step i).phase = (s.capPhaseNext i, s.vsPendNext i, s.vsLinesNext i) := by
  show ((if i.reset then false else _ : Bool), (if i.reset then false else _ : Bool),
    (if i.reset then 0 else _ : BitVec 3)) = _
  rw [hreset, if_neg Bool.false_ne_true, if_neg Bool.false_ne_true, if_neg Bool.false_ne_true]

theorem phase_quiet (hreset : i.reset = false) (hquiet : s.hsRiseD = false) :
    (s.step i).phase = s.phase ∧ (s.step i).outStart = false := by
  refine ⟨?_, ?_⟩
  · rw [phase_step hreset]
    unfold capPhaseNext vsPendNext vsLinesNext
    rw [hquiet, if_neg Bool.false_ne_true, if_neg Bool.false_ne_true, if_neg Bool.false_ne_true]
    rfl
  · show (!i.reset && s.handsOver) = false
    unfold handsOver
    rw [hquiet, Bool.false_and, Bool.and_false]

section Ticks

variable (hreset : i.reset = false) (htick : s.hsRiseD = true)
include hreset htick

theorem outStart_tick : (s.step i).outStart = s.capPhase := by
  show (!i.reset && s.handsOver) = _
  unfold handsOver
  rw [hreset, htick, Bool.not_false, Bool.true_and, Bool.true_and]

/-- A line goes by. -/
theorem phase_line (hfire : i.fire = false) (hpend : s.vsPend = false) :
    (s.step i).phase = (!s.capPhase, false, countdown s.vsLines) := by
  rw [phase_step hreset]
  unfold capPhaseNext vsPendNext vsLinesNext vsStarts restarts
  rw [htick, hfire, hpend]
  rfl

/-- The vsync is placed: the line that starts is captured. -/
theorem phase_fire (hfire : i.fire = true) (hprog : i.ilace = false) :
    (s.step i).phase = (true, true, countdown s.vsLines) := by
  rw [phase_step hreset]
  unfold capPhaseNext vsPendNext vsLinesNext vsStarts restarts
  rw [htick, hfire, hprog]
  cases s.vsPend <;> cases s.capPhase <;> rfl

/-- The vsync starts with the output line of that line. -/
theorem phase_start (hfire : i.fire = false) (hphase : s.capPhase = true) (hpend : s.vsPend = true) :
    (s.step i).phase = (false, false, 6) := by
  rw [phase_step hreset]
  unfold capPhaseNext vsPendNext vsLinesNext vsStarts restarts
  rw [htick, hfire, hphase, hpend]
  rfl

end Ticks

end TvStore

namespace TvRaster

variable {r : TvRaster}

/-! ## Where the vsync is placed -/

section Fires

/-- The vsync is placed at line `n`. -/
def fires (r : TvRaster) (n : Nat) : Bool := (r.state (r.start n + 1)).place.fire

/-- The lines still to wait at the edge of line `n`. -/
def waiting (r : TvRaster) (n : Nat) : Nat := (r.state (r.start n)).place.waiting

/-- The delay that the vsync of frame `k` finds. -/
def found (r : TvRaster) (k : Nat) : Nat := (r.state (r.start (k * r.lines))).place.delayReg.toNat

theorem vsync_line (k : Nat) :
    r.waiting (k * r.lines + 1) = TvPlace.reload (r.waiting (k * r.lines)) (r.found k) ∧
      r.fires (k * r.lines) = decide (r.found k = 0) := by
  have hvs : (r.state (r.start (k * r.lines))).vsRise (r.inp (r.start (k * r.lines))) = true := by
    rw [vsRise_start, Nat.mul_mod_left]
    rfl
  obtain ⟨hwait, hfire⟩ := TvPlace.step_vsync (s := (r.state (r.start (k * r.lines))).place)
    (i := (r.state (r.start (k * r.lines))).placeIn (r.inp (r.start (k * r.lines))))
    (running_start _) (hsRise_start _) hvs
  rw [← place_next] at hwait hfire
  exact ⟨(kept (r.start_lt _) (Nat.le_refl _)).1.waiting.trans hwait, hfire⟩

theorem other_line {n : Nat} (hn : n % r.lines ≠ 0) :
    r.waiting (n + 1) = r.waiting n - 1 ∧ r.fires n = decide (r.waiting n = 1) := by
  have hvs : (r.state (r.start n)).vsRise (r.inp (r.start n)) = false := by
    rw [vsRise_start, decide_eq_false hn]
  obtain ⟨hwait, hfire⟩ := TvPlace.step_line (s := (r.state (r.start n)).place)
    (i := (r.state (r.start n)).placeIn (r.inp (r.start n))) (running_start _) (hsRise_start _) hvs
  rw [← place_next] at hwait hfire
  exact ⟨(kept (r.start_lt _) (Nat.le_refl _)).1.waiting.trans hwait, hfire⟩

theorem within_mod {k j : Nat} (hj : j < r.lines) : (k * r.lines + j) % r.lines = j := by
  rw [Nat.mul_add_mod_self_right, Nat.mod_eq_of_lt hj]

/-- The count within a frame. -/
theorem waiting_within (k : Nat) {j : Nat} (hj : j < r.lines) :
    r.waiting (k * r.lines + (j + 1)) = TvPlace.reload (r.waiting (k * r.lines)) (r.found k) - j := by
  induction j with
  | zero => exact (vsync_line k).1
  | succ j ih =>
    have hmod : (k * r.lines + (j + 1)) % r.lines ≠ 0 := by
      rw [within_mod hj]
      exact Nat.succ_ne_zero j
    rw [← Nat.add_assoc, (other_line hmod).1, ih (Nat.lt_of_succ_lt hj), Nat.sub_sub]

theorem waiting_frame (k : Nat) :
    r.waiting ((k + 1) * r.lines) = TvPlace.reload (r.waiting (k * r.lines)) (r.found k) - (r.lines - 1) := by
  have hpos := lines_pos (r := r)
  have h := waiting_within (r := r) k (j := r.lines - 1) (by omega)
  rwa [Nat.sub_add_cancel hpos, ← Nat.succ_mul] at h

theorem fires_within (k : Nat) {j : Nat} (hj : j < r.lines) (hpos : 0 < j) :
    r.fires (k * r.lines + j) = decide (TvPlace.reload (r.waiting (k * r.lines)) (r.found k) = j) := by
  obtain ⟨m, rfl⟩ : ∃ m, j = m + 1 := ⟨j - 1, by omega⟩
  have hmod : (k * r.lines + (m + 1)) % r.lines ≠ 0 := by
    rw [within_mod hj]
    exact Nat.succ_ne_zero m
  rw [(other_line hmod).2, waiting_within k (Nat.lt_of_succ_lt hj)]
  exact decide_eq_decide.2 (by omega)

theorem found_succ (k : Nat) : r.found (k + 1) = (r.delay k).toNat := by
  unfold found
  rw [Nat.succ_mul, delayReg_eq]

/-- The delay from the third frame on. -/
def settled (r : TvRaster) : Nat := delayLines r.lines r.deLines r.countedFirst r.vpos

theorem found_settled {k : Nat} (hk : 2 ≤ k) : r.found k = r.settled := by
  obtain ⟨m, rfl⟩ : ∃ m, k = m + 2 := ⟨k - 2, by omega⟩
  rw [found_succ, delay_toNat]
  rfl

theorem settled_lt (r : TvRaster) : r.settled < r.lines := by
  have hpos := lines_pos (r := r)
  have hlt := Int.emod_lt_of_pos ((r.countedFirst : Int) - targetLine r.lines r.deLines r.vpos)
    (show (0 : Int) < r.lines by omega)
  have hge := Int.emod_nonneg ((r.countedFirst : Int) - targetLine r.lines r.deLines r.vpos)
    (show (r.lines : Int) ≠ 0 by omega)
  unfold settled delayLines
  omega

/-- The count that the first two frames leave to the third, from what is counted when the raster begins. -/
def leftOver (r : TvRaster) : Nat :=
  TvPlace.reload (TvPlace.reload (r.state (r.start 0)).place.waiting (r.state (r.start 0)).place.delayReg.toNat -
    (r.lines - 1)) (r.delay 0).toNat - (r.lines - 1)

theorem waiting_third : r.waiting (2 * r.lines) = r.leftOver := by
  rw [waiting_frame 1, found_succ, waiting_frame 0]
  unfold leftOver waiting found
  rw [Nat.zero_mul]

/-- No count is left that a delay of zero would let run on into the fourth frame. -/
def Settles (r : TvRaster) : Prop := r.settled = 0 → r.leftOver < r.lines

theorem waiting_settled (hs : r.Settles) (hzero : r.settled = 0) {k : Nat} (hk : 3 ≤ k) : r.waiting (k * r.lines) = 0 := by
  induction k, hk using Nat.le_induction with
  | base =>
    have hlt := hs hzero
    show r.waiting ((2 + 1) * r.lines) = 0
    rw [waiting_frame 2, found_settled (Nat.le_refl 2), hzero, waiting_third]
    show r.leftOver - _ = 0
    omega
  | succ k hk ih =>
    rw [waiting_frame k, found_settled (by omega), hzero, ih]
    exact Nat.zero_sub _

theorem fires_of_settled_pos (hpos : r.settled ≠ 0) {k j : Nat} (hk : 2 ≤ k) (hj : j < r.lines) :
    r.fires (k * r.lines + j) = decide (j = r.settled) := by
  cases j with
  | zero =>
    rw [Nat.add_zero, (vsync_line k).2, found_settled hk, decide_eq_false hpos]
    exact (decide_eq_false fun h => hpos h.symm).symm
  | succ j =>
    rw [fires_within k hj (Nat.succ_pos j), found_settled hk]
    exact decide_eq_decide.2 (by rw [TvPlace.reload, if_neg hpos]; exact eq_comm)

theorem fires_iff (hs : r.Settles) {k j : Nat} (hk : 3 ≤ k) (hj : j < r.lines) :
    r.fires (k * r.lines + j) = decide (j = r.settled) := by
  by_cases hzero : r.settled = 0
  · cases j with
    | zero =>
      rw [Nat.add_zero, (vsync_line k).2, found_settled (by omega), hzero]
    | succ j =>
      rw [fires_within k hj (Nat.succ_pos j), found_settled (by omega), hzero, waiting_settled hs hzero hk]
      exact decide_eq_decide.2 (by rw [TvPlace.reload, if_pos rfl]; omega)
  · exact fires_of_settled_pos hzero (by omega) hj

theorem exists_line {t : Nat} (ht : r.start 0 < t) : ∃ n, r.start n < t ∧ t ≤ r.start (n + 1) := by
  induction t, ht using Nat.le_induction with
  | base => exact ⟨0, Nat.lt_succ_self _, r.start_lt 0⟩
  | succ t ht ih =>
    obtain ⟨n, hlo, hhi⟩ := ih
    by_cases hend : t = r.start (n + 1)
    · exact ⟨n + 1, by omega, by have := r.start_lt (n + 1); omega⟩
    · exact ⟨n, by omega, by omega⟩

theorem exists_place (n : Nat) : ∃ k j, j < r.lines ∧ n = k * r.lines + j :=
  ⟨n / r.lines, n % r.lines, Nat.mod_lt _ lines_pos, (Nat.div_add_mod' n r.lines).symm⟩

theorem frame_le {k j m : Nat} (h : m * r.lines ≤ k * r.lines + j) (hj : j < r.lines) : m ≤ k := by
  by_contra hlt
  have := Nat.mul_le_mul_right r.lines (show k + 1 ≤ m by omega)
  rw [Nat.succ_mul] at this
  omega

/-- The clocks in which the placement fires, from the fourth frame on. -/
theorem fire_iff (hs : r.Settles) {t : Nat} (ht : r.start (3 * r.lines) < t) :
    (r.state t).place.fire = true ↔ ∃ k, 3 ≤ k ∧ t = r.start (k * r.lines + r.settled) + 1 := by
  obtain ⟨n, hlo, hhi⟩ := exists_line (r := r) (t := t) (Nat.lt_of_le_of_lt (start_mono (Nat.zero_le _)) ht)
  have hfrom : 3 * r.lines ≤ n := by
    by_contra hlt
    have := start_mono (r := r) (show n + 1 ≤ 3 * r.lines by omega)
    omega
  obtain ⟨k, j, hj, rfl⟩ := exists_place (r := r) n
  have hk := frame_le hfrom hj
  have hplace : ∀ m, t = r.start m + 1 → m = k * r.lines + j := by
    rintro m rfl
    rcases Nat.lt_trichotomy m (k * r.lines + j) with hlt | heq | hlt
    · have := start_mono (r := r) (show m + 1 ≤ k * r.lines + j from hlt)
      have := r.start_lt m
      omega
    · exact heq
    · have := start_mono (r := r) (show k * r.lines + j + 1 ≤ m from hlt)
      omega
  by_cases hedge : t = r.start (k * r.lines + j) + 1
  · rw [hedge, show (r.state _).place.fire = _ from fires_iff hs hk hj, decide_eq_true_iff]
    constructor
    · rintro rfl
      exact ⟨k, hk, rfl⟩
    · rintro ⟨m, -, hm⟩
      have heq := congrArg (· % r.lines) (start_inj (Nat.succ.inj hm))
      simp only [within_mod hj, within_mod r.settled_lt] at heq
      exact heq
  · rw [fire_quiet (n := k * r.lines + j) (by omega) hhi]
    refine ⟨fun h => absurd h Bool.false_ne_true, fun ⟨m, _, hm⟩ => ?_⟩
    exact absurd (hm.trans (by rw [hplace _ hm])) hedge

end Fires

/-! ## The vsync of the output -/

section Output

/-- The lines of the output at the edge of line `n`. -/
def phase (r : TvRaster) (n : Nat) : Bool × Bool × BitVec 3 := (r.state (r.start n + 1)).store.phase

/-- The picture is not interlaced. -/
def Progressive (r : TvRaster) : Prop :=
  ∀ t, r.start 0 ≤ t → (r.inp t).ilaceEn = true → (r.inp t).doublescan = false → r.deLines < 350

theorem store_next (t : Nat) :
    (r.state (t + 1)).store = (r.state t).store.step ((r.state t).storeIn (r.inp t)) := by
  rw [r.next]
  rfl

theorem hsRiseD_next (t : Nat) : (r.state (t + 1)).store.hsRiseD = (r.state t).hsRise (r.inp t) := by
  rw [store_next]
  rfl

theorem hsRiseD_tick (n : Nat) : (r.state (r.start n + 1)).store.hsRiseD = true := by
  rw [hsRiseD_next, hsRise_start]

theorem running_line {n t : Nat} (h : r.start n ≤ t) : (r.inp t).reset = false :=
  r.running t ((start_mono (Nat.zero_le n)).trans h)

theorem store_quiet {n t : Nat} (hlo : r.start n + 1 < t) (hhi : t ≤ r.start (n + 1)) :
    (r.state (t + 1)).store.phase = (r.state t).store.phase ∧ (r.state (t + 1)).store.outStart = false := by
  obtain ⟨u, rfl⟩ : ∃ u, t = u + 1 := ⟨t - 1, by omega⟩
  have hquiet : (r.state (u + 1)).store.hsRiseD = false := by
    rw [hsRiseD_next]
    exact (quiet (n := n) (by omega) (by omega)).1
  rw [store_next]
  exact TvStore.phase_quiet (running_line (n := n) (by omega)) hquiet

/-- From the clock after a tick to the next one. -/
theorem phase_between {n t : Nat} (hlo : r.start n + 1 < t) (hhi : t ≤ r.start (n + 1) + 1) :
    (r.state t).store.phase = (r.state (r.start n + 2)).store.phase := by
  induction t, hlo using Nat.le_induction with
  | base => rfl
  | succ t hlo ih =>
    rw [(store_quiet hlo (by omega)).1]
    exact ih (by omega)

theorem phase_next (n : Nat) : r.phase (n + 1) =
    ((r.state (r.start n + 1)).store.step ((r.state (r.start n + 1)).storeIn (r.inp (r.start n + 1)))).phase := by
  have hgap := start_gap (r := r) n
  unfold phase
  rw [phase_between (n := n) (by omega) (Nat.le_refl _), store_next]

theorem phase_of_line {n t : Nat} (hlo : r.start n + 1 < t) (hhi : t ≤ r.start (n + 1) + 1) :
    (r.state t).store.phase = r.phase (n + 1) := by
  have hgap := start_gap (r := r) n
  unfold phase
  rw [phase_between hlo hhi, ← phase_between (n := n) (t := r.start (n + 1) + 1) (by omega) (Nat.le_refl _)]

theorem outStart_tick (n : Nat) : (r.state (r.start n + 2)).store.outStart = (r.phase n).1 := by
  rw [store_next]
  exact TvStore.outStart_tick (running_line (n := n) (Nat.le_succ _)) (hsRiseD_tick n)

theorem progressive_line (hprog : r.Progressive) {n : Nat} (hn : r.lines ≤ n) :
    (r.state (r.start n + 1)).ilace (r.inp (r.start n + 1)) = false := by
  obtain ⟨k, j, hj, rfl⟩ := exists_place (r := r) n
  have hk : 1 ≤ k := frame_le (j := j) (by rwa [Nat.one_mul]) hj
  obtain ⟨m, rfl⟩ : ∃ m, k = m + 1 := ⟨k - 1, by omega⟩
  have hlat := latched_kept (r := r) (k := m + 1) (t := r.start ((m + 1) * r.lines + j) + 1)
    (Nat.lt_succ_of_le (start_mono (Nat.le_add_right _ _)))
    ((r.start_lt _).trans_le (start_mono (Nat.add_le_add_left hj _)))
  have hlines := (latched_eq (r := r) m).2.1
  rw [← hlat.deLinesL] at hlines
  refine Bool.eq_false_of_not_eq_true fun h => ?_
  unfold TvStage.ilace at h
  rw [Bool.and_eq_true, Bool.and_eq_true, decide_eq_true_iff, BitVec.le_def, hlines, Bool.not_eq_true'] at h
  obtain ⟨⟨hen, hdouble⟩, hge⟩ := h
  have := hprog _ ((start_mono (Nat.zero_le _)).trans (Nat.le_succ _)) hen hdouble
  exact absurd hge (Nat.not_le.2 this)

/-- The line in which the vsync is placed. -/
theorem phase_fire (hprog : r.Progressive) {m : Nat} (hm : r.lines ≤ m) (hfire : r.fires m = true) :
    r.phase (m + 1) = (true, true, TvStore.countdown (r.phase m).2.2) := by
  rw [phase_next]
  exact TvStore.phase_fire (running_line (n := m) (Nat.le_succ _)) (hsRiseD_tick m) hfire (progressive_line hprog hm)

/-- The vsync starts with the next line and lasts six, while every second line starts an output line. -/
theorem phase_after (hprog : r.Progressive) {m c : Nat} (hm : r.lines ≤ m) (hfire : r.fires m = true)
    (hnone : ∀ j, 1 ≤ j → j < c → r.fires (m + j) = false) {j : Nat} (hj : j + 2 ≤ c) :
    r.phase (m + 2 + j) = (decide (j % 2 = 1), false, BitVec.ofNat 3 (6 - j)) := by
  induction j with
  | zero =>
    have hplaced := phase_fire hprog hm hfire
    have hquiet := hnone 1 (Nat.le_refl 1) (by omega)
    rw [Nat.add_zero, show m + 2 = m + 1 + 1 from rfl, phase_next]
    exact TvStore.phase_start (running_line (n := m + 1) (Nat.le_succ _)) (hsRiseD_tick (m + 1)) hquiet
      (congrArg Prod.fst hplaced) (congrArg (fun p => p.2.1) hplaced)
  | succ j ih =>
    have hbefore := ih (by omega)
    have hquiet := hnone (j + 2) (by omega) (by omega)
    rw [show m + (j + 2) = m + 2 + j by omega] at hquiet
    have hpend : (r.state (r.start (m + 2 + j) + 1)).store.vsPend = false := congrArg (fun p => p.2.1) hbefore
    have hphase : (r.state (r.start (m + 2 + j) + 1)).store.capPhase = decide (j % 2 = 1) := congrArg Prod.fst hbefore
    have hlines : (r.state (r.start (m + 2 + j) + 1)).store.vsLines = BitVec.ofNat 3 (6 - j) :=
      congrArg (fun p => p.2.2) hbefore
    rw [← Nat.add_assoc, phase_next, TvStore.phase_line (running_line (n := m + 2 + j) (Nat.le_succ _))
      (hsRiseD_tick (m + 2 + j)) hquiet hpend, hphase, hlines]
    refine Prod.ext ?_ (Prod.ext rfl ?_)
    · rw [← decide_not]
      exact decide_eq_decide.2 (by omega)
    · exact TvStore.countdown_ofNat (6 - j) (by omega)

/-- The vsync of the output, in the clock after the one that decides it. -/
def vsync (r : TvRaster) (t : Nat) : Bool := (r.state (t + 1)).store.convVsB

theorem vsync_eq (t : Nat) : r.vsync t = ((r.state t).store.vsLines != 0) := by
  unfold vsync
  rw [store_next]
  rfl

/-- The output lines that start in a stretch of input lines. -/
theorem outStarts {a b : Nat} (hab : a ≤ b) :
    pulses (fun t => (r.state t).store.outStart) (r.start a + 2) (r.start b + 2) = pulses (fun n => (r.phase n).1) a b := by
  induction b, hab using Nat.le_induction with
  | base => rw [pulses_self, pulses_self]
  | succ b hab ih =>
    have hgap := start_gap (r := r) b
    have hmono := start_mono (r := r) hab
    rw [pulses_add _ (show r.start a + 2 ≤ r.start b + 2 by omega) (show _ ≤ r.start (b + 1) + 2 by omega), ih,
      pulses_succ _ hab, pulses_add _ (Nat.le_succ (r.start b + 2)) (show _ ≤ r.start (b + 1) + 2 by omega),
      pulses_succ _ (Nat.le_refl _), pulses_self, Nat.zero_add, outStart_tick,
      pulses_eq_zero (a := r.start b + 2 + 1), Nat.add_zero]
    intro u hlo hhi
    obtain ⟨v, rfl⟩ : ∃ v, u = v + 1 := ⟨u - 1, by omega⟩
    exact (store_quiet (n := b) (by omega) (by omega)).2

/-- A vsync placed at line `m`: it starts with the output line of line `m + 1`, lasts six lines, and is the only one
before the next, which as many output lines later. -/
structure OutputVsync (r : TvRaster) (m : Nat) : Prop where
  before : r.vsync (r.start (m + 1) + 1) = false
  withLine : (r.state (r.start (m + 1) + 2)).store.outStart = true
  lasts : ∀ t, r.start (m + 1) + 1 < t → t ≤ r.start (m + 1 + r.lines) + 1 →
    (r.vsync t = true ↔ t ≤ r.start (m + 7) + 1)
  lines : pulses (fun t => (r.state t).store.outStart) (r.start (m + 1) + 2) (r.start (m + 1 + r.lines) + 2) =
    (r.lines + 1) / 2

section Placing

variable (hprog : r.Progressive) {m : Nat} (hm : r.lines ≤ m) (hfire : r.fires m = true)
include hprog hm hfire

theorem outStarts_after {c : Nat} (hnone : ∀ j, 1 ≤ j → j < c → r.fires (m + j) = false) {j : Nat} (hj : j + 1 ≤ c) :
    pulses (fun n => (r.phase n).1) (m + 2) (m + 2 + j) = j / 2 := by
  induction j with
  | zero => exact pulses_self _ _
  | succ j ih =>
    rw [← Nat.add_assoc, pulses_succ _ (Nat.le_add_right _ _), ih (by omega),
      phase_after hprog hm hfire hnone (show j + 2 ≤ c by omega)]
    by_cases hodd : j % 2 = 1
    · rw [if_pos (decide_eq_true hodd)]
      omega
    · rw [if_neg (by rw [decide_eq_false hodd]; exact Bool.false_ne_true)]
      omega

theorem outputVsync (hnone : ∀ j, 1 ≤ j → j < r.lines → r.fires (m + j) = false)
    (hagain : r.fires (m + r.lines) = true) (hcalm : TvStore.countdown (r.phase m).2.2 = 0) : r.OutputVsync m := by
  have hlo := r.linesLo
  have hplaced := phase_fire hprog hm hfire
  rw [hcalm] at hplaced
  refine ⟨?_, ?_, fun t hlt hle => ?_, ?_⟩
  · rw [vsync_eq, show (r.state (r.start (m + 1) + 1)).store.vsLines = 0 from congrArg (fun p => p.2.2) hplaced]
    rfl
  · rw [outStart_tick, hplaced]
  · -- the line that clock `t` comes after the tick of
    obtain ⟨n, hn, hn'⟩ := exists_line (r := r) (t := t - 1)
      (Nat.lt_of_le_of_lt (start_mono (Nat.zero_le (m + 1))) (by omega))
    have hmn : m + 1 ≤ n := by
      by_contra hbefore
      have := start_mono (r := r) (show n + 1 ≤ m + 1 by omega)
      omega
    have hnm : n < m + 1 + r.lines := by
      by_contra hafter
      have := start_mono (r := r) (show m + 1 + r.lines ≤ n by omega)
      omega
    have hwhen : t ≤ r.start (m + 7) + 1 ↔ n < m + 7 := by
      constructor
      · intro hle
        by_contra hafter
        have := start_mono (r := r) (show m + 7 ≤ n by omega)
        omega
      · intro hlt
        have := start_mono (r := r) (show n + 1 ≤ m + 7 by omega)
        omega
    have hvs : (r.state t).store.vsLines = (r.phase (n + 1)).2.2 :=
      congrArg (fun p => p.2.2) (phase_of_line (n := n) (by omega) (by omega))
    rw [vsync_eq, hvs, hwhen, bne_iff_ne]
    by_cases hlast : n = m + r.lines
    · -- the next vsync is placed in this line
      have hbefore := phase_after hprog hm hfire hnone (show (r.lines - 2) + 2 ≤ r.lines by omega)
      rw [show m + 2 + (r.lines - 2) = m + r.lines by omega] at hbefore
      rw [hlast, phase_fire hprog (by omega) hagain, hbefore, show 6 - (r.lines - 2) = 0 by omega]
      exact ⟨fun h => absurd rfl h, fun h => by omega⟩
    · obtain ⟨j, rfl⟩ : ∃ j, n = m + 1 + j := ⟨n - (m + 1), by omega⟩
      rw [show m + 1 + j + 1 = m + 2 + j by omega,
        phase_after hprog hm hfire hnone (show j + 2 ≤ r.lines by omega), Ne, ← BitVec.toNat_inj, BitVec.toNat_ofNat]
      show ¬ (6 - j) % 8 = 0 ↔ _
      omega
  · rw [outStarts (Nat.le_add_right _ _), show m + 1 + r.lines = m + 2 + (r.lines - 1) by omega,
      pulses_add _ (Nat.le_succ (m + 1)) (by omega), pulses_succ _ (Nat.le_refl _), pulses_self, hplaced, if_pos rfl,
      outStarts_after hprog hm hfire hnone (show r.lines - 1 + 1 ≤ r.lines by omega)]
    omega

end Placing

end Output

/-! ## The placement -/

section Placement

/-- From the fourth frame on the vsync is placed once a frame, at the line that puts the picture in the middle of the
output's frame; and without interlace each placement makes one vsync of the output. -/
structure Placed (r : TvRaster) : Prop where
  fires : ∀ t, r.start (3 * r.lines) < t → ((r.state t).place.fire = true ↔
    ∃ k, 3 ≤ k ∧ t = r.start (k * r.lines + delayLines r.lines r.deLines r.first r.vpos) + 1)
  vsync : r.Progressive → ∀ k, 3 ≤ k → r.OutputVsync (k * r.lines + delayLines r.lines r.deLines r.first r.vpos)

theorem settled_eq (hfirst : r.first + 1 < r.lines) : r.settled = delayLines r.lines r.deLines r.first r.vpos := by
  unfold settled countedFirst
  rw [if_pos hfirst]

theorem countdown_zero {j : Nat} (hj : 5 ≤ j) : TvStore.countdown (BitVec.ofNat 3 (6 - j)) = 0 := by
  rw [TvStore.countdown_ofNat _ (by omega), show 6 - j - 1 = 0 by omega]
  rfl

/-- The lines of the frame after a placement. -/
theorem fires_after {k j : Nat} (hthis : ∀ j, j < r.lines → r.fires (k * r.lines + j) = decide (j = r.settled))
    (hnext : ∀ j, j < r.lines → r.fires ((k + 1) * r.lines + j) = decide (j = r.settled)) (hpos : 1 ≤ j)
    (hj : j < r.lines) : r.fires (k * r.lines + r.settled + j) = false := by
  have hlt := r.settled_lt
  by_cases hframe : r.settled + j < r.lines
  · rw [Nat.add_assoc, hthis _ hframe]
    exact decide_eq_false (by omega)
  · have hmul : (k + 1) * r.lines = k * r.lines + r.lines := Nat.succ_mul k r.lines
    rw [show k * r.lines + r.settled + j = (k + 1) * r.lines + (r.settled + j - r.lines) by omega,
      hnext _ (by omega)]
    exact decide_eq_false (by omega)

/-- After a placement a frame ago, the vsync is over. -/
theorem calm_after_frame (hprog : r.Progressive) {k : Nat} (hk : 1 ≤ k)
    (hthis : ∀ j, j < r.lines → r.fires (k * r.lines + j) = decide (j = r.settled))
    (hnext : ∀ j, j < r.lines → r.fires ((k + 1) * r.lines + j) = decide (j = r.settled)) :
    TvStore.countdown (r.phase ((k + 1) * r.lines + r.settled)).2.2 = 0 := by
  have hlo := r.linesLo
  have hm : r.lines ≤ k * r.lines + r.settled := (Nat.le_mul_of_pos_left _ hk).trans (Nat.le_add_right _ _)
  have hfire := (hthis _ r.settled_lt).trans (decide_eq_true rfl)
  have hmul : (k + 1) * r.lines = k * r.lines + r.lines := Nat.succ_mul k r.lines
  rw [show (k + 1) * r.lines + r.settled = k * r.lines + r.settled + 2 + (r.lines - 2) by omega,
    phase_after hprog hm hfire (fun j hpos hj => fires_after hthis hnext hpos hj) (by omega)]
  exact countdown_zero (by omega)

/-- The placement of the third frame, where a count may be left: it is over in time, or comes so late that it is one
with the fourth frame's. -/
theorem calm_fourth (hprog : r.Progressive) (hzero : r.settled = 0)
    (hclear : r.leftOver + 6 < r.lines ∨ r.lines ≤ r.leftOver + 1) (hs : r.leftOver < r.lines) :
    TvStore.countdown (r.phase (3 * r.lines)).2.2 = 0 := by
  have hlo := r.linesLo
  have hfirst : r.fires (2 * r.lines) = true := by
    rw [(vsync_line 2).2, found_settled (Nat.le_refl 2), hzero]
    rfl
  have hother : ∀ j, 1 ≤ j → j < r.lines → r.fires (2 * r.lines + j) = decide (r.leftOver = j) := by
    intro j hpos hj
    rw [fires_within 2 hj hpos, found_settled (Nat.le_refl 2), hzero, waiting_third]
    rfl
  have hmul : 3 * r.lines = 2 * r.lines + r.lines := Nat.succ_mul 2 r.lines
  rcases hclear with hearly | hlate
  · by_cases hleft : r.leftOver = 0
    · rw [hmul, show 2 * r.lines + r.lines = 2 * r.lines + 2 + (r.lines - 2) by omega,
        phase_after hprog (c := r.lines) (by omega) hfirst
          (fun j hpos hj => (hother j hpos hj).trans (decide_eq_false (by omega))) (by omega)]
      exact countdown_zero (by omega)
    · have hfire := (hother _ (by omega) hs).trans (decide_eq_true rfl)
      rw [hmul, show 2 * r.lines + r.lines = 2 * r.lines + r.leftOver + 2 + (r.lines - r.leftOver - 2) by omega,
        phase_after hprog (c := r.lines - r.leftOver) (by omega) hfire (fun j hpos hj => by
          rw [Nat.add_assoc, hother _ (by omega) (by omega)]
          exact decide_eq_false (by omega)) (by omega)]
      exact countdown_zero (by omega)
  · have hfire := (hother (r.lines - 1) (by omega) (by omega)).trans (decide_eq_true (by omega))
    have hbefore := phase_after hprog (c := r.lines - 1) (j := r.lines - 3) (by omega) hfirst
      (fun j hpos hj => (hother j hpos (by omega)).trans (decide_eq_false (by omega))) (by omega)
    rw [show 2 * r.lines + 2 + (r.lines - 3) = 2 * r.lines + (r.lines - 1) by omega] at hbefore
    rw [hmul, show 2 * r.lines + r.lines = 2 * r.lines + (r.lines - 1) + 1 by omega,
      phase_fire hprog (by omega) hfire, hbefore, show 6 - (r.lines - 3) = 0 by omega]
    rfl

/-- Where the picture's first line is not the frame's last, and no count is left over that a delay of zero would not
replace, the vsync is placed as it should be. -/
theorem placed (r : TvRaster) (hfirst : r.first + 1 < r.lines)
    (hclear : delayLines r.lines r.deLines r.first r.vpos = 0 → r.leftOver < r.lines ∧
      (r.Progressive → r.leftOver + 6 < r.lines ∨ r.lines ≤ r.leftOver + 1)) : r.Placed := by
  have hsettled := settled_eq hfirst
  rw [← hsettled] at hclear
  have hs : r.Settles := fun hzero => (hclear hzero).1
  refine ⟨fun t ht => ?_, fun hprog k hk => ?_⟩
  · rw [fire_iff hs ht, hsettled]
  · have hthis : ∀ k, 3 ≤ k → ∀ j, j < r.lines → r.fires (k * r.lines + j) = decide (j = r.settled) :=
      fun k hk j hj => fires_iff hs hk hj
    have hmul : (k + 1) * r.lines = k * r.lines + r.lines := Nat.succ_mul k r.lines
    have hm : r.lines ≤ k * r.lines + r.settled := (Nat.le_mul_of_pos_left _ (by omega)).trans (Nat.le_add_right _ _)
    rw [← hsettled]
    refine outputVsync hprog hm ((hthis k hk _ r.settled_lt).trans (decide_eq_true rfl))
      (fun j hpos hj => fires_after (hthis k hk) (hthis (k + 1) (by omega)) hpos hj) ?_ ?_
    · rw [show k * r.lines + r.settled + r.lines = (k + 1) * r.lines + r.settled by omega,
        hthis (k + 1) (by omega) _ r.settled_lt]
      exact decide_eq_true rfl
    · obtain ⟨m, rfl⟩ : ∃ m, k = m + 1 := ⟨k - 1, by omega⟩
      by_cases hzero : r.settled = 0
      · by_cases hfourth : m = 2
        · subst hfourth
          rw [hzero]
          exact calm_fourth hprog hzero ((hclear hzero).2 hprog) (hclear hzero).1
        · exact calm_after_frame hprog (by omega) (hthis m (by omega)) (hthis (m + 1) hk)
      · exact calm_after_frame hprog (by omega) (fun j hj => fires_of_settled_pos hzero (by omega) hj) (hthis (m + 1) hk)

end Placement

/-! ## Plain rasters -/

section Plain

variable (lines first count : Nat)

def plainShown (n : Nat) : Bool := decide (first ≤ n % lines ∧ n % lines < first + count)

/-- Lines of four clocks, of which the third shows whether the line is displayed. -/
def plainIn (t : Nat) : TvIn where
  reset := false
  hpos := 0
  vpos := 0
  ilaceEn := false
  doublescan := true
  ce := true
  rgb := 0
  hs := decide (t % 4 = 0)
  vs := decide (t % 4 = 0 ∧ t / 4 % lines = 0)
  de := decide (t % 4 = 2) && plainShown lines first count (t / 4)

def idle : TvStage where
  hsR := false
  vsR := false
  frameLines := 0
  actCyc := 960
  vofs := 0
  place := ⟨0, 0, 0, 0, 0, false, false, 0, 0, 0, 0, 0, 0, 0, false, false⟩
  store := TvStore.idle

variable {lines first count}

theorem plain_syncs (t : Nat) :
    ((run TvStage.step idle (plainIn lines first count) t).hsRise (plainIn lines first count t) = true ↔ t % 4 = 0) ∧
      ((run TvStage.step idle (plainIn lines first count) t).vsRise (plainIn lines first count t) = true ↔
        t % 4 = 0 ∧ t / 4 % lines = 0) := by
  have hregs : (run TvStage.step idle (plainIn lines first count) t).hsR = decide (0 < t ∧ (t - 1) % 4 = 0) ∧
      ((run TvStage.step idle (plainIn lines first count) t).vsR = true → 0 < t ∧ (t - 1) % 4 = 0) := by
    cases t with
    | zero => exact ⟨rfl, fun h => absurd h Bool.false_ne_true⟩
    | succ t =>
      rw [run_succ]
      refine ⟨?_, fun h => ⟨Nat.succ_pos t, (of_decide_eq_true h).1⟩⟩
      show decide (t % 4 = 0) = _
      exact decide_eq_decide.2 ⟨fun h => ⟨Nat.succ_pos t, h⟩, fun h => h.2⟩
  unfold TvStage.hsRise TvStage.vsRise
  rw [Bool.and_eq_true, Bool.and_eq_true, Bool.not_eq_true', Bool.not_eq_true', hregs.1]
  refine ⟨?_, ?_⟩
  · rw [show (plainIn lines first count t).hs = decide (t % 4 = 0) from rfl, decide_eq_true_iff, decide_eq_false_iff_not]
    omega
  · rw [show (plainIn lines first count t).vs = decide (t % 4 = 0 ∧ t / 4 % lines = 0) from rfl, decide_eq_true_iff]
    refine ⟨fun h => h.1, fun h => ⟨h, Bool.eq_false_of_not_eq_true fun hvs => ?_⟩⟩
    have := hregs.2 hvs
    omega

theorem plain_count (k : Nat) {j : Nat} (hj : j ≤ lines) :
    pulses (plainShown lines first count) (k * lines) (k * lines + j) = min (j - first) count := by
  induction j with
  | zero =>
    rw [Nat.add_zero, pulses_self]
    omega
  | succ j ih =>
    have hmod : (k * lines + j) % lines = j := by rw [Nat.mul_add_mod_self_right, Nat.mod_eq_of_lt hj]
    rw [← Nat.add_assoc, pulses_succ _ (Nat.le_add_right _ _), ih (Nat.le_of_lt hj)]
    unfold plainShown
    rw [hmod]
    by_cases hshown : first ≤ j ∧ j < first + count
    · rw [if_pos (decide_eq_true hshown)]
      omega
    · rw [if_neg (by rw [decide_eq_false hshown]; exact Bool.false_ne_true)]
      omega

/-- The raster of such lines: `count` of them displayed, from line `first` on. -/
def plain (lines first count : Nat) (hlo : 400 ≤ lines) (hhi : lines ≤ 560) (hpos : 0 < count)
    (hle : first + count ≤ lines) : TvRaster where
  inp := plainIn lines first count
  state := run TvStage.step idle (plainIn lines first count)
  next t := run_succ _ _ _ t
  lines := lines
  first := first
  deLines := count
  vpos := 0
  start n := 4 * n
  shown := plainShown lines first count
  start_lt n := by omega
  linesLo := hlo
  linesHi := hhi
  running _ _ := rfl
  held _ _ := rfl
  hsRise_iff t _ := by
    rw [(plain_syncs t).1]
    exact ⟨fun h => ⟨t / 4, by omega⟩, fun ⟨n, hn⟩ => by omega⟩
  vsRise_iff t _ := by
    rw [(plain_syncs t).2]
    constructor
    · rintro ⟨hline, hframe⟩
      refine ⟨t / 4 / lines, ?_⟩
      rw [Nat.div_mul_cancel (Nat.dvd_of_mod_eq_zero hframe)]
      omega
    · rintro ⟨k, rfl⟩
      rw [Nat.mul_div_cancel_left _ (by decide), Nat.mul_mod_left]
      exact ⟨Nat.mul_mod_right 4 _, rfl⟩
  shown_iff n := by
    constructor
    · intro h
      refine ⟨4 * n + 2, by omega, by omega, ?_⟩
      show (decide ((4 * n + 2) % 4 = 2) && plainShown lines first count ((4 * n + 2) / 4)) = true
      rw [show (4 * n + 2) / 4 = n by omega, h, decide_eq_true (by omega)]
      rfl
    · rintro ⟨t, hlo, hhi, hde⟩
      have hshown : plainShown lines first count (t / 4) = true := (Bool.and_eq_true_iff.1 hde).2
      rwa [show t / 4 = n by omega] at hshown
  first_lt := by omega
  firstShown k := by
    refine decide_eq_true ?_
    rw [Nat.mul_add_mod_self_right, Nat.mod_eq_of_lt (by omega)]
    omega
  firstLeast k j hj := by
    refine decide_eq_false ?_
    rw [Nat.mul_add_mod_self_right, Nat.mod_eq_of_lt (by omega)]
    omega
  shownLines k := by
    rw [plain_count k (Nat.le_refl lines)]
    omega

/-- The 70 Hz frame of the text modes, its 400 lines from line 37 on. -/
theorem placed_text : (plain 449 37 400 (by decide) (by decide) (by decide) (by decide)).Placed :=
  placed _ (by decide) (fun h => absurd h (by decide))

/-- Of a picture that is the frame's last line the first line is missed, and the vsync comes a line late. -/
theorem lastLine_not_placed : ¬ (plain 400 399 1 (by decide) (by decide) (by decide) (by decide)).Placed := by
  intro h
  generalize hr : plain 400 399 1 (by decide) (by decide) (by decide) (by decide) = r at h
  have hlines : r.lines = 400 := hr ▸ rfl
  have hsettled : r.settled = 185 := hr ▸ (by decide)
  have hclaimed : delayLines r.lines r.deLines r.first r.vpos = 184 := hr ▸ (by decide)
  have hlate : r.start (3 * r.lines) < r.start (3 * r.lines + 184) + 1 :=
    Nat.lt_succ_of_le (start_mono (Nat.le_add_right _ _))
  have hfire := (h.fires (r.start (3 * r.lines + 184) + 1) hlate).2 ⟨3, Nat.le_refl 3, by rw [hclaimed]⟩
  obtain ⟨k, -, heq⟩ := (fire_iff (fun hzero => absurd (hsettled.symm.trans hzero) (by decide)) hlate).1 hfire
  have hmod := congrArg (· % r.lines) (start_inj (Nat.succ.inj heq))
  simp only [hsettled, hlines] at hmod
  omega

end Plain

end TvRaster

end Z486.Video
