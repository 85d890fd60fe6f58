/-
The stages of the pipeline of the operators: what each register holds some clocks after a turn has begun, by what the
operator had then.
-/
import Z486.Clocked.ReadModifyWrite
import Z486.Sound.OplSynth

namespace Z486.Sound

open Clocked Opl

/-! ## Delayed signals -/

section Delay

variable {α : Type} {start : Nat} {x : Nat → α} {out : Nat → Nat → α}

theorem pipelineSr_before (h : ∀ t, out (t + 1) = pipelineSr start (x t) (out t)) (t j : Nat) :
    out t (start + t + j) = out 0 (start + j) := by
  induction t with
  | zero => rfl
  | succ t ih =>
    rw [h, pipelineSr, if_neg (by omega), ← ih]
    congr 1
    omega

end Delay

namespace OplTag

variable {α : Type} (x : OplTag)

theorem write_eq (mem : OplSlot → α) (dia : α) (y : OplSlot) :
    x.write mem dia y = if x.visit = some y then dia else mem y := by
  unfold OplTag.write OplTag.visit
  cases x.en with
  | false => rfl
  | true =>
    by_cases hy : y = x.slot
    · subst hy
      rw [if_pos rfl, if_pos rfl, if_pos rfl, Function.update_self]
    · rw [if_pos rfl, if_pos rfl, Function.update_of_ne hy, if_neg]
      rintro ⟨⟩
      exact hy rfl

theorem read_eq (h : x.en = true) (dob : Bool → α) (word : α) : x.read dob word x.slot.bank = word := by
  unfold OplTag.read
  rw [h, if_pos rfl, Function.update_self]

theorem visit_eq_some {y : OplSlot} : x.visit = some y ↔ x.en = true ∧ x.slot = y := by
  unfold OplTag.visit
  cases x.en with
  | false => exact iff_of_false (fun h => nomatch h) fun h => Bool.false_ne_true h.1
  | true => exact ⟨fun h => ⟨rfl, Option.some.inj h⟩, fun h => congrArg some h.2⟩

end OplTag

/-! ## The run -/

def OplOps.powerUp : OplOps where
  seq := .powerUp
  tag := fun _ => ⟨false, .first⟩
  env :=
    { stateMem := fun _ => .release, envIntMem := fun _ => 511
      stateP1 := .release, stateP2 := .release, stateP3 := .release, envIntNewP3 := 0, envP3 := 511
      tlP := fun _ => 0, slP := fun _ => 0, envIntP := fun _ => 0, keyOnP := fun _ => false, egResetP := fun _ => false
      shift := ⟨⟨0, false, 0, 0⟩, 0, false, 0, 0⟩, ksl := ⟨0, 0, 0, 0⟩, tremolo := ⟨0, false, 0⟩ }
  inc := ⟨0, 0, 0, fun _ => false, 0, 0, false, 0⟩
  phase :=
    { phaseAccMem := fun _ => 0, dobP1 := fun _ => 0, dobP2 := fun _ => 0, phaseAccP3 := 0
      opTypeP := fun _ => .normal, wsPostOplP := fun _ => 0, modulationP := fun _ => 0, finalPhaseP := fun _ => 0
      logSinOutP4 := 0, envShiftedP4 := 0, levelP5 := 0, expOutP5 := 0, negP5 := 0, outP6 := 0
      rhythm := ⟨0, 0, 0, 1⟩ }
  feedbackMem := fun _ => (0, 0)
  feedbackDob := fun _ => (0, 0)
  feedbackP := fun _ => (0, 0)
  useFeedbackP1 := false
  connectionSelP1 := 0
  rytP1 := false
  fbCnt0Dob := fun _ => (0, false)
  cnt1Dob := fun _ => false
  modulationOutP1 := 0
  opsDonePulse := false

/-- A run of the operators from power-up, whatever their registers are set to and when. -/
structure OplOpsRun where
  inputs : Nat → OplIn

namespace OplOpsRun

variable (r : OplOpsRun) (t : Nat)

def state (t : Nat) : OplOps := run OplOps.step OplOps.powerUp r.inputs t

def slot (t : Nat) : OplSlot := (r.state t).now.slot

def globals (t : Nat) : OplGlobals := (r.inputs t).globals

def params (t : Nat) : OplParams := (r.inputs t).params (r.slot t)

/-- What the operator whose turn begins in the clock is given. -/
def given (t : Nat) : OplGiven := ⟨r.globals t, r.params t, (r.params (t + 2)).am⟩

def visit (t : Nat) : Option OplSlot := (r.state t).now.visit

/-- What the memories hold for an operator. -/
def mem (t : Nat) (x : OplSlot) : OplVoice :=
  ⟨(r.state t).env.stateMem x, (r.state t).env.envIntMem x, (r.state t).phase.phaseAccMem x⟩

theorem state_succ : r.state (t + 1) = (r.state t).step (r.inputs t) := rfl

theorem tag_before {j : Nat} (h : t ≤ j) : ((r.state t).tag (1 + j)).en = false := by
  have hbefore := @pipelineSr_before _ _ (fun u => (r.state u).now) (fun u => (r.state u).tag) (fun _ => rfl) t (j - t)
  rw [Nat.add_assoc, Nat.add_sub_cancel' h] at hbefore
  rw [hbefore]
  rfl

/-! ## Notes -/

variable {t}

/-- An operator as its turn leaves it, by the oscillators of the clock after it has begun. -/
def next (t : Nat) (v : OplVoice) : OplVoice :=
  v.next (r.slot t) (r.globals t) (r.params t) (r.state (t + 1)).env.shift.timer (r.state (t + 1)).inc.vibratoIndexP1

theorem state_p3 : (r.state (t + 3)).env.stateP3 = (r.next t (r.mem t (r.slot t))).state := rfl

theorem env_p3 : (r.state (t + 3)).env.envIntNewP3 = (r.next t (r.mem t (r.slot t))).env := rfl

theorem phase_p2 (h : (r.state t).now.en = true) : (r.state (t + 2)).phase.dobP2 ((r.state (t + 2)).tag 2).slot.bank =
    (r.mem t (r.slot t)).phase := (r.state t).now.read_eq h _ _

theorem phase_p3 (h : (r.state t).now.en = true) :
    (r.state (t + 3)).phase.phaseAccP3 = (r.next t (r.mem t (r.slot t))).phase := by
  have hphase := r.phase_p2 h
  show (if (r.state (t + 2)).env.egResetP 2 then 0
    else (r.state (t + 2)).phase.dobP2 ((r.state (t + 2)).tag 2).slot.bank + (r.state (t + 2)).inc.phaseIncP2) = _
  rw [hphase]
  rfl

theorem mem_succ (x : OplSlot) : r.mem (t + 3 + 1) x =
    if r.visit t = some x then r.next t (r.mem t (r.slot t)) else r.mem (t + 3) x := by
  have hwrite {α : Type} (mem : OplSlot → α) (dia : α) : ((r.state (t + 3)).tag 3).write mem dia x =
      if r.visit t = some x then dia else mem x := ((r.state t).now).write_eq mem dia x
  show OplVoice.mk _ _ _ = _
  rw [state_succ]
  show OplVoice.mk (((r.state (t + 3)).tag 3).write _ _ x) (((r.state (t + 3)).tag 3).write _ _ x)
    (((r.state (t + 3)).tag 3).write _ _ x) = _
  rw [hwrite, hwrite, hwrite]
  by_cases hx : r.visit t = some x
  · rw [if_pos hx, if_pos hx, if_pos hx, if_pos hx, state_p3, env_p3,
      r.phase_p3 ((OplTag.visit_eq_some _).1 hx).1]
  · rw [if_neg hx, if_neg hx, if_neg hx, if_neg hx]
    rfl

theorem mem_early {t : Nat} (h : t ≤ 3) : r.mem t = r.mem 0 := by
  induction t with
  | zero => rfl
  | succ t ih =>
    have hen := r.tag_before t (j := 2) (by omega)
    rw [← ih (by omega)]
    funext x
    show OplVoice.mk (((r.state t).tag 3).write _ _ x) (((r.state t).tag 3).write _ _ x)
      (((r.state t).tag 3).write _ _ x) = _
    unfold OplTag.write
    rw [hen]
    rfl

/-! ## Sounds -/

theorem env_level : (r.state (t + 3)).env.envP3 = (r.mem t (r.slot t)).level (r.globals t) (r.params t)
    (r.params (t + 2)).am (r.state (t + 1)).env.tremolo.indexP1 := rfl

theorem rhythm_p3 (h : (r.state t).now.en = true) : (r.state (t + 3)).phase.rhythm.rhythmPhaseP3 =
    rhythmPhase (opType (r.globals t) (r.slot t)) (phaseShifted (r.mem t (r.slot t)).phase)
      (r.state (t + 2)).phase.rhythm.hhPhaseFriend (r.state (t + 2)).phase.rhythm.tcPhaseFriend
      (r.state (t + 2)).phase.rhythm.randNum := by
  rw [← r.phase_p2 h]
  rfl

theorem modulation_p3 (h : (r.state t).now.en = true) : (r.state (t + 3)).phase.modulationP 3 =
    modulated (r.slot t) (r.globals t) (r.params t) ((r.state t).feedbackMem (r.slot t)) (r.state t).phase.outP6 := by
  have hread {α : Type} (dob : Bool → α) (word : α) :
      ((r.state t).now.read dob word) ((r.state (t + 1)).tag 1).slot.bank = word := (r.state t).now.read_eq h dob word
  show (if (r.state (t + 1)).useFeedbackP1 then (r.state (t + 1)).feedbackResultP1
    else (r.state (t + 1)).modulationP1) = _
  have hfb : (r.state (t + 1)).fbCnt0Dob ((r.state (t + 1)).tag 1).slot.bank = ((r.params t).fb, (r.params t).cnt0) :=
    hread _ _
  have hcnt : (r.state (t + 1)).cnt1Dob ((r.state (t + 1)).tag 1).slot.bank = (r.params t).cnt1 := hread _ _
  have hfeedback : (r.state (t + 1)).feedbackDob ((r.state (t + 1)).tag 1).slot.bank =
      (r.state t).feedbackMem (r.slot t) := hread _ _
  unfold OplOps.feedbackResultP1 OplOps.modulationP1
  rw [hfb, hcnt, hfeedback]
  rfl

theorem out_p6 : (r.state (t + 6)).phase.outP6 = wave (wsPostOpl (r.globals t).isNew (r.params t).ws)
    (finalPhase (r.state (t + 3)).phase.rhythm.rhythmPhaseP3 ((r.state (t + 3)).phase.modulationP 3))
    (r.state (t + 3)).env.envP3 := rfl

/-- What an operator has played and what it played before, by what it played last. -/
def played (t : Nat) (feedback : BitVec 13 × BitVec 13) : BitVec 13 × BitVec 13 :=
  (wave (wsPostOpl (r.globals t).isNew (r.params t).ws)
    (finalPhase
      (rhythmPhase (opType (r.globals t) (r.slot t)) (phaseShifted (r.mem t (r.slot t)).phase)
        (r.state (t + 2)).phase.rhythm.hhPhaseFriend (r.state (t + 2)).phase.rhythm.tcPhaseFriend
        (r.state (t + 2)).phase.rhythm.randNum)
      (modulated (r.slot t) (r.globals t) (r.params t) feedback (r.state t).phase.outP6))
    ((r.mem t (r.slot t)).level (r.globals t) (r.params t) (r.params (t + 2)).am
      (r.state (t + 1)).env.tremolo.indexP1), feedback.1)

theorem played_p6 (h : (r.state t).now.en = true) : ((r.state (t + 6)).phase.outP6, ((r.state (t + 6)).feedbackP 6).1) =
    r.played t ((r.state t).feedbackMem (r.slot t)) := by
  have hfeedback : (r.state (t + 6)).feedbackP 6 = (r.state t).feedbackMem (r.slot t) :=
    (r.state t).now.read_eq h _ _
  rw [out_p6, r.rhythm_p3 h, r.modulation_p3 h, env_level, hfeedback]
  rfl

theorem feedback_succ (x : OplSlot) : (r.state (t + 6 + 1)).feedbackMem x =
    if r.visit t = some x then r.played t ((r.state t).feedbackMem (r.slot t))
    else (r.state (t + 6)).feedbackMem x := by
  have hwrite := ((r.state t).now).write_eq (r.state (t + 6)).feedbackMem
    ((r.state (t + 6)).phase.outP6, ((r.state (t + 6)).feedbackP 6).1) x
  refine hwrite.trans ?_
  by_cases hx : r.visit t = some x
  · rw [if_pos hx, ← r.played_p6 ((OplTag.visit_eq_some _).1 hx).1]
    exact if_pos hx
  · rw [if_neg hx]
    exact if_neg hx

theorem feedback_early {t : Nat} (h : t ≤ 6) : (r.state t).feedbackMem = (r.state 0).feedbackMem := by
  induction t with
  | zero => rfl
  | succ t ih =>
    have hen := r.tag_before t (j := 5) (by omega)
    rw [← ih (by omega)]
    show ((r.state t).tag 6).write _ _ = _
    unfold OplTag.write
    rw [hen]
    rfl

/-! ## The turns -/

theorem seq_at (t : Nat) : (r.state t).seq.At t := by
  induction t with
  | zero => exact OplSequencer.powerUp_at
  | succ t ih => exact ih.step

theorem visit_iff {x : OplSlot} : r.visit t = some x ↔ ∃ n, t = oplTurn n ∧ oplSlot n = x := by
  have hat := r.seq_at t
  refine (OplTag.visit_eq_some _).trans ⟨?_, ?_⟩
  · rintro ⟨hen, hslot⟩
    have hturn := hat.en_iff.1 hen
    exact ⟨_, hturn, (hat.slot hturn).symm.trans hslot⟩
  · rintro ⟨n, hturn, hslot⟩
    refine ⟨hat.en_iff.2 ?_, (hat.slot hturn).trans hslot⟩
    rw [hturn, OplSequencer.oplTurns_turn]

theorem visit_turn (n : Nat) : r.visit (oplTurn n) = some (oplSlot n) := r.visit_iff.2 ⟨n, rfl, rfl⟩

theorem slot_turn (n : Nat) : r.slot (oplTurn n) = oplSlot n := (r.seq_at _).slot rfl

theorem apart {u : Nat} {x : OplSlot} (ht : r.visit t = some x) (hu : r.visit u = some x) (htu : t < u) :
    t + 494 ≤ u := by
  obtain ⟨m, rfl, hm⟩ := r.visit_iff.1 ht
  obtain ⟨n, rfl, hn⟩ := r.visit_iff.1 hu
  refine oplTurn_apart (hm.trans hn.symm) ?_
  by_contra hle
  rcases Nat.lt_or_eq_of_le (Nat.le_of_not_lt hle) with hlt | heq
  · exact absurd (oplTurn_strict hlt) (by omega)
  · rw [heq] at htu
    exact Nat.lt_irrefl _ htu

theorem voices : ReadModifyWrite 3 r.mem r.visit r.next where
  early _ h := r.mem_early h
  none t h := by
    funext x
    rw [mem_succ, if_neg (by rw [h]; exact fun h => nomatch h)]
  some t x h := by
    have hslot : r.slot t = x := ((OplTag.visit_eq_some _).1 h).2
    funext y
    rw [mem_succ, h, hslot]
    by_cases hy : y = x
    · rw [hy, if_pos rfl, Function.update_self]
    · rw [if_neg fun h => hy (Option.some.inj h).symm, Function.update_of_ne hy]
  apart t u x ht hu htu := by
    have := r.apart ht hu htu
    omega

theorem feedbacks : ReadModifyWrite 6 (fun t => (r.state t).feedbackMem) r.visit r.played where
  early _ h := r.feedback_early h
  none t h := by
    funext x
    rw [feedback_succ, if_neg (by rw [h]; exact fun h => nomatch h)]
  some t x h := by
    have hslot : r.slot t = x := ((OplTag.visit_eq_some _).1 h).2
    funext y
    rw [feedback_succ, h, hslot]
    by_cases hy : y = x
    · rw [hy, if_pos rfl, Function.update_self]
    · rw [if_neg fun h => hy (Option.some.inj h).symm, Function.update_of_ne hy]
  apart t u x ht hu htu := by
    have := r.apart ht hu htu
    omega

end OplOpsRun

end Z486.Sound
