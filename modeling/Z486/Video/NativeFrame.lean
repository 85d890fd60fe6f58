/-
The lines of the framebuffer that a frame shows (src/soc/svga_linebuf.sv and src/soc/vga.v): as long as each line fetch
completes within a line, each line is displayed from a half that holds the line of the framebuffer it shows.

At a port that is never busy that comes by itself. The engine is through with a line in four clocks for each word at most,
and each request of the raster finds it at rest, since the one before has been raised a line earlier; only line 1 is asked
for while line 0 is fetched, and waits for it.
-/
import Z486.Video.NativeSchedule

namespace Z486.Video

open Clocked Scanlines

/-! ## The engine -/

namespace FetchRun

variable {r : FetchRun}

/-- From clock `t` on the port is free, and DDR3 answers in every clock. -/
def Prompt (r : FetchRun) (t : Nat) : Prop := ∀ u, t ≤ u → (r.inputs u).ddrBusy = false ∧ (r.inputs u).answers = true

theorem Prompt.rests (left : Nat) : ∀ t, r.Prompt t → r.Busy t left → ∃ u, t ≤ u ∧ u ≤ t + left + 1 ∧ (r.state u).Rest := by
  induction left using Nat.strong_induction_on with
  | _ left ih =>
    intro t hprompt hbusy
    obtain ⟨hgranted, hanswered⟩ := hprompt t le_rfl
    rcases hbusy.step with hrest | ⟨left', hbusy', hlt | ⟨-, ⟨-, hheld⟩ | ⟨-, hheld⟩⟩⟩
    · exact ⟨t + 1, by omega, by omega, hrest⟩
    · obtain ⟨u, hu, hle, hrest⟩ := ih left' hlt (t + 1) (fun v hv => hprompt v (by omega)) hbusy'
      exact ⟨u, by omega, by omega, hrest⟩
    · exact absurd (hgranted.symm.trans hheld) (by decide)
    · exact absurd (hheld.symm.trans hanswered) (by decide)

/-- A line takes four clocks for each word at most. -/
theorem Prompt.released {t : Nat} (hprompt : r.Prompt t) (hgo : r.accepts t = true) :
    ∃ u, t < u ∧ u ≤ t + 4 * (r.job t).words + 4 ∧ (r.state u).engine.owner = false := by
  obtain ⟨hfetch, hstage⟩ := (rest_of_accepts hgo).step_of_accepts hgo fun _ _ => True
  rw [← state_succ] at hfetch hstage
  obtain ⟨u, htu, hle, hrest⟩ := Prompt.rests _ (t + 1) (fun v hv => hprompt v (by omega))
    ⟨_, _, _, _, LineJob.words_jobOf _, hfetch, hstage⟩
  have hwords : (r.job t).words = (jobOf (r.inputs t).request).words := rfl
  exact ⟨u, by omega, by omega, owner_of_rest hrest⟩

theorem owner_of_accepts {t : Nat} (hgo : r.accepts t = true) : (r.state (t + 1)).engine.owner = true := by
  obtain ⟨-, hstage⟩ := (rest_of_accepts hgo).step_of_accepts hgo fun _ _ => True
  rw [← state_succ] at hstage
  exact owner_of_stage hstage

theorem owner_of_not_accepts {t : Nat} (hfree : (r.state t).engine.owner = false) (hno : r.accepts t = false) :
    (r.state (t + 1)).engine.owner = false := by
  rw [state_succ]
  exact owner_of_rest ((rest_of_released hfree).step_of_not_accepts hno)

end FetchRun

/-! ## The requests -/

namespace NativeRun

variable {r : NativeRun} {regs : RasterRegs} {doubled : Bool} {t₀ t₁ n : Nat}

/-- From clock `t` on the port is free, DDR3 answers in every clock, and a line has `n` words at most. -/
structure Prompt (r : NativeRun) (n t : Nat) : Prop where
  port : r.fetchRun.Prompt t
  words : ∀ u, t ≤ u → (r.fetchRun.job u).words ≤ n

/-- The engine rests, and no request waits. -/
structure Idle (r : NativeRun) (t : Nat) : Prop where
  free : r.owner t = false
  empty : (r.requests t).reqValid = false

theorem owner_eq (t : Nat) : (r.fetchRun.state t).engine.owner = r.owner t := by
  rw [fetchRun_state]
  rfl

theorem accepts_of_waits {t : Nat} {q : BitVec 10 × Bool} (hwaits : (r.requests t).Waits q) (hfree : r.owner t = false)
    (htaken : (r.state t).linebuf.engine.reqTaken = false) (hport : (r.inputs t).ddrBusy = false) : r.accepts t = true := by
  have hidle : (r.state t).linebuf.engine.state == .idle := by
    unfold owner Ddr3.LineFetcher.owner at hfree
    simpa using hfree
  have hvalid := hwaits.valid
  rw [accepts_eq, LinebufRun.accepts, LinebufRun.free, linebufRun_state]
  show ((r.state t).linebuf.engine.state == .idle && !(r.state t).linebuf.engine.reqTaken && !(r.inputs t).ddrBusy &&
    (r.requests t).reqValid) = true
  rw [hidle, htaken, hport, hvalid]
  rfl

theorem enables_le {a b : Nat} (hab : a ≤ b) : r.enables a b ≤ b - a := by
  induction b, hab using Nat.le_induction with
  | base => exact Nat.le_of_eq ((pulses_self _ a).trans (Nat.sub_self a).symm)
  | succ b hab ih =>
    rw [enables_succ hab]
    split <;> omega

theorem Idle.not_accepts {t : Nat} (hidle : r.Idle t) : r.accepts t = false := by
  rw [accepts_eq, LinebufRun.accepts, linebufRun_state]
  exact Bool.and_eq_false_iff.2 (.inr hidle.empty)

/-- What is taken is through in time, and leaves the engine at rest if nothing else is asked for meanwhile. -/
theorem Prompt.through {a : Nat} (hp : r.Prompt n t₀) (ha : t₀ ≤ a) (hgo : r.accepts a = true) :
    ∃ u, a + 2 ≤ u ∧ u ≤ a + 4 * n + 4 ∧ r.owner u = false ∧ (∀ v, a < v → v < u → r.owner v = true) ∧
      ((∀ v, a < v → v < u → r.asked v = none) → r.Idle u) := by
  obtain ⟨u, hau, hle, hfree⟩ := FetchRun.Prompt.released (fun v hv => hp.port v (by omega)) hgo
  have hwords := hp.words a ha
  obtain ⟨d, hd, hdu, hthrough⟩ := FetchRun.through_of_released hgo hau hfree
  have hheld := FetchRun.owner_of_accepts hgo
  have htwo : d ≠ 1 := fun hone => by
    have hreleased := hthrough.released
    rw [hone, hheld] at hreleased
    exact absurd hreleased (by decide)
  have hreleased : r.owner (a + d) = false := (owner_eq _).symm.trans hthrough.released
  refine ⟨a + d, by omega, by omega, hreleased, fun v hav hvd => ?_, fun hnone => ⟨hreleased, ?_⟩⟩
  · have howner := hthrough.owner (v - a) (by omega) (by omega)
    rw [Nat.add_sub_cancel' hav.le, owner_eq] at howner
    exact howner
  · exact reqValid_of_none hgo (by omega) hnone

/-- A line that is asked for when the engine rests is taken in the next clock. -/
theorem Prompt.fetched {T : Nat} {q : BitVec 10 × Bool} (hp : r.Prompt n t₀) (regs : RasterRegs) (hT : t₀ ≤ T)
    (hidle : r.Idle T) (hasked : r.asked T = some q) (hshort : 4 * n + 5 < regs.lineTime) :
    ∃ u, r.Fetched regs q T (T + 1) u ∧ T + 3 ≤ u ∧ u ≤ T + 4 * n + 5 ∧ (∀ v, T + 1 < v → v < u → r.owner v = true) ∧
      ((∀ v, T + 1 < v → v < u → r.asked v = none) → r.Idle u) := by
  have hwaits : (r.requests (T + 1)).Waits q := by
    rw [requests_succ]
    exact LineRequests.waits_of_asked ((asked_eq T).symm.trans hasked)
  have hfree : r.owner (T + 1) = false := by
    rw [← owner_eq]
    exact FetchRun.owner_of_not_accepts ((owner_eq T).trans hidle.free) hidle.not_accepts
  have hgo := accepts_of_waits hwaits hfree ((reqTaken_succ T).trans hidle.not_accepts) (hp.port (T + 1) (by omega)).1
  obtain ⟨u, hau, hle, hreleased, hheld, hnext⟩ := hp.through (by omega) hgo
  have hcount := enables_le (r := r) (show T ≤ u by omega)
  exact ⟨u, ⟨Nat.lt_succ_self T, hgo, hwaits, by omega, hreleased, by omega⟩, by omega, by omega, hheld, hnext⟩

/-! ## A frame -/

section Frame

variable (h : r.SteadyFrame regs doubled t₀ t₁) (hregs : regs.Ahead) {w : Raster} (hw : w.Wraps regs)
  (hraster : ∀ t, t₀ ≤ t → t ≤ t₁ → (r.state t).raster = w.after regs (r.place regs t₀ t))
  {a₀ u₀ : Nat} (hfirst : r.Fetched regs (0, false) t₀ a₀ u₀) {t : Nat}
include h hregs hw hraster hfirst

end Frame

/-- The lines with the doubling of the clock in which they are displayed, and with all their distinct lines counted. -/
def ShowsDistinct (r : NativeRun) (regs : RasterRegs) (t₀ t₁ : Nat) : Prop :=
  ∀ t, t₀ < t → t ≤ t₁ → r.displays t = true → ∃ n, n < regs.pictureLines ∧
    (r.state t).raster.lines = line regs.scanlines n ∧
    r.Holds t₀ t (framebufferLine (r.inputs t).regs.linesDoubled (distinctLines regs.scanlines n)) (r.requests t).yPar

/-- In a picture of at most 1024 rows ten bits count them all. -/
theorem ShowsFrame.distinct (hshows : r.ShowsFrame regs doubled t₀ t₁) (h : r.SteadyFrame regs doubled t₀ t₁)
    (hregs : regs.Ahead) (hsize : regs.verticalDisplaySize.toNat < 1024) : r.ShowsDistinct regs t₀ t₁ := by
  intro t ht ht₁ hon
  obtain ⟨n, hn, hs⟩ := hshows t ht ht₁ hon
  have hpicture := hregs.pictureLines_le
  have hline := hregs.line
  have hvde := Scanlines.vde_iff.1 ((hregs.frame.vde_iff (show n < regs.frameLines by omega)).2 hn)
  rw [← hs.lines, hs.row] at hvde
  have hrow : distinctLines regs.scanlines n ≤ regs.verticalDisplaySize.toNat := hvde
  have hholds := hs.holds
  rw [Nat.mod_eq_of_lt (show distinctLines regs.scanlines n < 1024 by omega)] at hholds
  refine ⟨n, hn, hs.lines, ?_⟩
  rw [h.doubles t ht.le ht₁]
  exact hholds

/-! ## Runs from the vertical retrace on -/

section RetraceRun

variable {w : Raster} {lines : Nat → Bool} {busy : Nat}

variable (hw : w.Wraps regs)
  (hstart : (w.after regs regs.retraceTime).dotMemoryLoadVerticalRetraceStart = true)
include hw

include hstart

end RetraceRun

/-- Five rows of two characters, the last of which the zoom shows twice. -/
def zoomed : RasterRegs where
  seq8dotChar := true
  seqDotclockDivided := false
  horizontalTotal := 0
  horizontalDisplaySize := 1
  horizontalRetraceStart := 2
  horizontalRetraceSkew := 0
  horizontalRetraceEnd := 3
  verticalTotal := 6
  verticalDisplaySize := 4
  verticalRetraceStart := 5
  verticalRetraceEnd := 6
  vzoom := true
  vstretch := false
  vodd := false

/-- Lines are asked for in the first clocks of `asks` alone; each is taken in the second, and the engine is through in the
third. -/
def Asks (r : NativeRun) (regs : RasterRegs) (t₀ t₁ : Nat) (asks : List (Nat × Nat × Nat)) : Prop :=
  (∀ t, t < t₁ → t₀ ≤ t → (∀ x ∈ asks, x.1 ≠ t) → r.asked t = none) ∧
    ∀ x ∈ asks, x.1 < x.2.1 ∧ r.accepts x.2.1 = true ∧ (r.requests x.2.1).reqValid = true ∧
      r.asked x.1 = some ((r.requests x.2.1).reqLine, (r.requests x.2.1).reqBuf) ∧ x.2.1 < x.2.2 ∧
      r.owner x.2.2 = false ∧ r.enables x.1 x.2.2 < regs.lineTime

instance (r : NativeRun) (regs : RasterRegs) (t₀ t₁ : Nat) (asks : List (Nat × Nat × Nat)) :
    Decidable (r.Asks regs t₀ t₁ asks) := inferInstanceAs (Decidable (_ ∧ _))

end NativeRun

end Z486.Video
