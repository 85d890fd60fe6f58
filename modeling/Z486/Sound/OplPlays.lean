/-
The operators of the OPL3 play what the synthesizer plays: the pipeline gives, six clocks after each turn has begun, what
the operator plays when the turns are taken one after the other.
-/
import Z486.Sound.OplPipeline

namespace Z486.Sound

open Clocked Opl

/-! ## Modulation -/

theorem Opl.modulated_congr {x : OplSlot} {g : OplGlobals} {p : OplParams} {f : BitVec 13 × BitVec 13}
    {ready ready' : BitVec 13} (h : 3 ≤ x.op → ready = ready') :
    modulated x g p f ready = modulated x g p f ready' := by
  by_cases hop : 3 ≤ x.op
  · rw [h hop]
  · have huse : useFeedback g x = true := if_pos (.inl (BitVec.not_le.1 hop))
    unfold modulated
    rw [huse, if_pos rfl, if_pos rfl]

/-- The modulator has had its turn three turns before. -/
theorem modulator_turn {n : Nat} (h : 3 ≤ (oplSlot n).op) : ∃ m, n = m + 3 ∧ oplTurn n = oplTurn m + 6 ∧
    oplSlot m = (oplSlot n).modulator := by
  have hlt := Nat.mod_lt n (show 0 < 36 by decide)
  have hop : 3 ≤ n % 36 ∧ (18 ≤ n % 36 → 21 ≤ n % 36) := by
    have hle : 3 ≤ (oplSlot n).op.toNat := h
    unfold oplSlot at hle
    split at hle <;> rw [BitVec.toNat_ofNat] at hle <;> omega
  refine ⟨n - 3, by omega, ?_, ?_⟩
  · unfold oplTurn
    omega
  · have hmod : (n - 3) % 36 = n % 36 - 3 := by omega
    unfold oplSlot OplSlot.modulator
    rw [hmod]
    generalize n % 36 = k at hop hlt
    obtain ⟨hthree, hbank⟩ := hop
    revert k
    decide

namespace OplOpsRun

variable (r : OplOpsRun) {t : Nat}

/-! ## What goes on with the turns -/

theorem exists_turn (h : (r.visit t).isSome) : ∃ n, t = oplTurn n := by
  obtain ⟨x, hx⟩ := Option.isSome_iff_exists.1 h
  obtain ⟨n, hn, -⟩ := r.visit_iff.1 hx
  exact ⟨n, hn⟩

theorem not_last_before {n u : Nat} (hu : u < oplTurn n) (hnear : oplTurn n ≤ u + 2) : r.visit u ≠ some .last := by
  intro hlast
  obtain ⟨m, rfl, hm⟩ := r.visit_iff.1 hlast
  have hmod : m % 36 = 35 := oplSlot_inj (hm.trans (show OplSlot.last = oplSlot 35 by decide))
  have hmn : m < n := by
    by_contra hle
    rcases Nat.lt_or_eq_of_le (Nat.le_of_not_lt hle) with hlt | heq
    · exact absurd (oplTurn_strict hlt) (by omega)
    · rw [heq] at hu
      exact Nat.lt_irrefl _ hu
  unfold oplTurn at hu hnear
  omega

theorem not_turn_after (n : Nat) : r.visit (oplTurn n + 1) = none := by
  by_contra hne
  obtain ⟨m, hm⟩ := r.exists_turn (Option.isSome_iff_ne_none.2 hne)
  unfold oplTurn at hm
  omega

theorem visit_some_iff (x : OplSlot) :
    ((r.state t).now.en && (r.state t).now.slot == x) = true ↔ r.visit t = some x := by
  rw [Bool.and_eq_true, beq_iff_eq]
  exact (OplTag.visit_eq_some _).symm

theorem timer_succ (t : Nat) : (r.state (t + 3 + 1)).env.shift.timer =
    if r.visit t = some .last then (r.state (t + 3)).env.shift.timer.next else (r.state (t + 3)).env.shift.timer := by
  simp only [← r.visit_some_iff]
  rfl

theorem timer_turn (n : Nat) :
    (r.state (oplTurn n + 1)).env.shift.timer = (r.state (oplTurn n + 3)).env.shift.timer := by
  have hge : 495 ≤ oplTurn n := by
    unfold oplTurn
    omega
  obtain ⟨t, ht⟩ := Nat.exists_eq_add_of_le' (show 2 ≤ oplTurn n by omega)
  have hfirst := r.timer_succ t
  have hsecond := r.timer_succ (t + 1)
  rw [if_neg (r.not_last_before (n := n) (by omega) (by omega))] at hfirst hsecond
  rw [ht]
  exact (hsecond.trans hfirst).symm

theorem rand_succ (t : Nat) : (r.state (t + 1)).phase.rhythm.randNum =
    if r.visit t = some .first then randNext (r.state t).phase.rhythm.randNum
    else (r.state t).phase.rhythm.randNum := by
  simp only [← r.visit_some_iff]
  rfl

theorem rand_turn (n : Nat) :
    (r.state (oplTurn n + 2)).phase.rhythm.randNum = (r.state (oplTurn n + 1)).phase.rhythm.randNum := by
  have hrand := r.rand_succ (oplTurn n + 1)
  rwa [if_neg (by rw [r.not_turn_after]; exact fun h => nomatch h)] at hrand

theorem tremolo_succ (t : Nat) : (r.state (t + 1)).env.tremolo.indexP1 =
    if r.visit t = some .first then tremoloNext (r.state t).env.tremolo.indexP1
    else (r.state t).env.tremolo.indexP1 := by
  simp only [← r.visit_some_iff]
  rfl

theorem vibrato_succ (t : Nat) : (r.state (t + 1)).inc.vibratoIndexP1 =
    if (r.visit t).isSome then (r.state t).inc.vibratoIndexP1 + 1 else (r.state t).inc.vibratoIndexP1 := by
  have hen : (r.visit t).isSome = (r.state t).now.en := by
    show (OplTag.visit _).isSome = _
    unfold OplTag.visit
    cases (r.state t).now.en with
    | false => rfl
    | true => rfl
  rw [hen]
  rfl

/-- A phase that is kept for the other drums. -/
theorem friend_succ (x : OplSlot) (friend : BitVec 10) :
    (if ((r.state (t + 2)).tag 2).en && ((r.state (t + 2)).tag 2).slot == x then
        phaseShifted ((r.state (t + 2)).phase.dobP2 ((r.state (t + 2)).tag 2).slot.bank) else friend) =
      if r.visit t = some x then phaseShifted (r.mem t x).phase else friend := by
  have htag : (r.state (t + 2)).tag 2 = (r.state t).now := rfl
  by_cases hx : r.visit t = some x
  · obtain ⟨hen, rfl⟩ := (OplTag.visit_eq_some _).1 hx
    rw [r.phase_p2 hen, htag, if_pos ((r.visit_some_iff _).2 hx), if_pos hx]
    rfl
  · rw [htag, if_neg fun h => hx ((r.visit_some_iff _).1 h), if_neg hx]

theorem hh_succ (t : Nat) : (r.state (t + 2 + 1)).phase.rhythm.hhPhaseFriend =
    if r.visit t = some ⟨false, 13⟩ then phaseShifted (r.mem t ⟨false, 13⟩).phase
    else (r.state (t + 2)).phase.rhythm.hhPhaseFriend := r.friend_succ ⟨false, 13⟩ _

theorem tc_succ (t : Nat) : (r.state (t + 2 + 1)).phase.rhythm.tcPhaseFriend =
    if r.visit t = some ⟨false, 17⟩ then phaseShifted (r.mem t ⟨false, 17⟩).phase
    else (r.state (t + 2)).phase.rhythm.tcPhaseFriend := r.friend_succ ⟨false, 17⟩ _

/-! ## The synthesizer in the pipeline -/

/-- The synthesizer, as it is found in the stages of the pipeline. -/
def view (t : Nat) : OplSynth where
  voice := atOnce r.visit r.next (r.mem 0) t
  feedback := atOnce r.visit r.played (r.state 0).feedbackMem t
  timer := (r.state (t + 3)).env.shift.timer
  tremolo := (r.state t).env.tremolo.indexP1
  vibrato := (r.state t).inc.vibratoIndexP1
  rand := (r.state t).phase.rhythm.randNum
  hhFriend := (r.state (t + 2)).phase.rhythm.hhPhaseFriend
  tcFriend := (r.state (t + 2)).phase.rhythm.tcPhaseFriend

theorem view_voice (n : Nat) :
    r.mem (oplTurn n) (oplSlot n) = (r.view (oplTurn n)).voice (oplSlot n) := r.voices.visit_eq (r.visit_turn n)

theorem view_feedback (n : Nat) : (r.state (oplTurn n)).feedbackMem (oplSlot n) =
    (r.view (oplTurn n)).feedback (oplSlot n) := r.feedbacks.visit_eq (r.visit_turn n)

/-- What an operator has played comes out six clocks after its turn has begun. -/
theorem out_turn (n : Nat) :
    (r.state (oplTurn n + 6)).phase.outP6 = ((r.view (oplTurn n + 1)).feedback (oplSlot n)).1 := by
  have hvisit := r.visit_turn n
  have hplayed := r.played_p6 ((OplTag.visit_eq_some _).1 hvisit).1
  rw [r.slot_turn, view_feedback] at hplayed
  show _ = (atOnce r.visit r.played _ (oplTurn n + 1) (oplSlot n)).1
  rw [atOnce_some hvisit, Function.update_self]
  exact congrArg Prod.fst hplayed

/-- What is ready when a turn begins is what the modulator has played. -/
theorem ready_turn {n : Nat} (h : 3 ≤ (oplSlot n).op) : (r.state (oplTurn n)).phase.outP6 =
    ((r.view (oplTurn n)).feedback (oplSlot n).modulator).1 := by
  obtain ⟨m, -, hturn, hmodulator⟩ := modulator_turn h
  rw [← hmodulator, hturn, out_turn]
  show _ = (atOnce r.visit r.played _ _ _).1
  rw [atOnce_stays (t := oplTurn m + 1) (by omega) fun u hge hlt hu => ?_]
  · rfl
  · have := r.apart (r.visit_turn m) hu hge
    omega

theorem view_tick (n : Nat) : (r.view (oplTurn n)).tick (oplSlot n) =
    { r.view (oplTurn n) with
      tremolo := (r.state (oplTurn n + 1)).env.tremolo.indexP1
      vibrato := (r.state (oplTurn n + 1)).inc.vibratoIndexP1
      rand := (r.state (oplTurn n + 1)).phase.rhythm.randNum } := by
  have hfirst : r.visit (oplTurn n) = some .first ↔ oplSlot n = .first := by
    rw [r.visit_turn]
    exact ⟨Option.some.inj, congrArg some⟩
  have hvibrato := r.vibrato_succ (oplTurn n)
  rw [if_pos (by rw [r.visit_turn]; rfl)] at hvibrato
  rw [tremolo_succ, hvibrato, rand_succ]
  simp only [hfirst]
  rfl

theorem view_plays (n : Nat) : r.played (oplTurn n) ((r.view (oplTurn n)).feedback (oplSlot n)) =
    ((r.view (oplTurn n)).plays (oplSlot n) (r.given (oplTurn n)), ((r.view (oplTurn n)).feedback (oplSlot n)).1) := by
  unfold played OplSynth.plays
  rw [r.slot_turn, view_voice, rand_turn, view_tick, modulated_congr (r.ready_turn (n := n))]
  rfl

/-- A turn is taken at once in the synthesizer. -/
theorem view_turn (n : Nat) :
    r.view (oplTurn n + 1) = (r.view (oplTurn n)).play (oplSlot n) (r.given (oplTurn n)) := by
  have hvisit := r.visit_turn n
  have hsome : ∀ x, r.visit (oplTurn n) = some x ↔ oplSlot n = x := fun x => by
    rw [hvisit]
    exact ⟨Option.some.inj, congrArg some⟩
  have hvoice : (r.view (oplTurn n + 1)).voice = Function.update (r.view (oplTurn n)).voice (oplSlot n)
      (r.next (oplTurn n) ((r.view (oplTurn n)).voice (oplSlot n))) := atOnce_some hvisit
  have hfeedback : (r.view (oplTurn n + 1)).feedback = Function.update (r.view (oplTurn n)).feedback (oplSlot n)
      (r.played (oplTurn n) ((r.view (oplTurn n)).feedback (oplSlot n))) := atOnce_some hvisit
  have htimer := r.timer_succ (oplTurn n)
  have hhh := r.hh_succ (oplTurn n)
  have htc := r.tc_succ (oplTurn n)
  simp only [hsome] at htimer hhh htc
  have htick := r.view_tick n
  apply OplSynth.ext
  · have hvibrato : ((r.view (oplTurn n)).tick (oplSlot n)).vibrato =
        (r.state (oplTurn n + 1)).inc.vibratoIndexP1 := by rw [htick]
    rw [hvoice, next, r.slot_turn, timer_turn, ← hvibrato]
    rfl
  · rw [hfeedback, view_plays]
    rfl
  · exact htimer
  · show _ = ((r.view (oplTurn n)).tick (oplSlot n)).tremolo
    rw [htick]
    rfl
  · show _ = ((r.view (oplTurn n)).tick (oplSlot n)).vibrato
    rw [htick]
    rfl
  · show _ = ((r.view (oplTurn n)).tick (oplSlot n)).rand
    rw [htick]
    rfl
  · refine hhh.trans ?_
    show _ = if oplSlot n = ⟨false, 13⟩ then phaseShifted ((r.view (oplTurn n)).voice (oplSlot n)).phase else _
    rw [← view_voice]
    split
    case isTrue heq => rw [heq]
    case isFalse => rfl
  · refine htc.trans ?_
    show _ = if oplSlot n = ⟨false, 17⟩ then phaseShifted ((r.view (oplTurn n)).voice (oplSlot n)).phase else _
    rw [← view_voice]
    split
    case isTrue heq => rw [heq]
    case isFalse => rfl

/-- Between the turns the synthesizer rests. -/
theorem view_rests (h : r.visit t = none) : r.view (t + 1) = r.view t := by
  have hnot : ∀ x, ¬r.visit t = some x := fun x => by rw [h]; exact fun h => nomatch h
  have htimer := r.timer_succ t
  have hhh := r.hh_succ t
  have htc := r.tc_succ t
  have htremolo := r.tremolo_succ t
  have hrand := r.rand_succ t
  have hvibrato := r.vibrato_succ t
  rw [if_neg (hnot _)] at htimer hhh htc htremolo hrand
  rw [h, if_neg (fun h => nomatch h)] at hvibrato
  apply OplSynth.ext
  · exact atOnce_none h
  · exact atOnce_none h
  · exact htimer
  · exact htremolo
  · exact hvibrato
  · exact hrand
  · exact hhh
  · exact htc

/-- The synthesizer before turn `n`. -/
def synth : Nat → OplSynth
  | 0 => .powerUp
  | n + 1 => (synth n).play (oplSlot n) (r.given (oplTurn n))

/-- The pipeline has the synthesizer in it. -/
theorem view_eq (t : Nat) : r.view t = r.synth (oplTurns t) := by
  induction t with
  | zero => rfl
  | succ t ih =>
    rw [OplSequencer.oplTurns_succ]
    split
    case isTrue hturn =>
      generalize hn : oplTurns t = n at hturn
      rw [hn] at ih
      subst hturn
      rw [view_turn, ih]
      rfl
    case isFalse hno =>
      rw [← ih]
      refine r.view_rests ?_
      by_contra hne
      obtain ⟨n, rfl⟩ := r.exists_turn (Option.isSome_iff_ne_none.2 hne)
      rw [OplSequencer.oplTurns_turn] at hno
      exact hno rfl

/-! ## What is heard -/

/-- What the operator of turn `n` plays. -/
def note (n : Nat) : BitVec 13 := (r.synth n).plays (oplSlot n) (r.given (oplTurn n))

theorem out_note (n : Nat) : (r.state (oplTurn n + 6)).phase.outP6 = r.note n := by
  rw [out_turn, view_turn, view_eq, OplSequencer.oplTurns_turn]
  rw [OplSynth.feedback_play]
  rfl

/-- The operators give what the synthesizer plays, turn after turn, whatever the registers are set to and when; and
nothing else. -/
theorem gives_notes (t : Nat) (x : OplSlot) (v : BitVec 13) :
    (r.state t).operatorOut = some (x, v) ↔ ∃ n, t = oplTurn n + 6 ∧ x = oplSlot n ∧ v = r.note n := by
  rcases Nat.lt_or_ge t 6 with hearly | hlate
  · have hen := r.tag_before t (j := 5) (by omega)
    refine iff_of_false (fun hgives => ?_) ?_
    · unfold OplOps.operatorOut at hgives
      rw [hen] at hgives
      exact nomatch hgives
    · rintro ⟨n, rfl, -⟩
      omega
  · obtain ⟨u, rfl⟩ := Nat.exists_eq_add_of_le' hlate
    have htag : (r.state (u + 6)).tag 6 = (r.state u).now := rfl
    have hgives : (r.state (u + 6)).operatorOut = some (x, v) ↔
        r.visit u = some x ∧ v = (r.state (u + 6)).phase.outP6 := by
      unfold OplOps.operatorOut
      rw [htag, visit, OplTag.visit_eq_some]
      cases (r.state u).now.en with
      | false => exact iff_of_false (fun h => nomatch h) fun h => Bool.false_ne_true h.1.1
      | true =>
        rw [if_pos rfl, Option.some_inj, Prod.mk.injEq, eq_self, true_and]
        exact and_congr_right fun _ => eq_comm
    rw [hgives, r.visit_iff]
    constructor
    · rintro ⟨⟨n, rfl, rfl⟩, rfl⟩
      exact ⟨n, rfl, rfl, r.out_note n⟩
    · rintro ⟨n, hn, rfl, rfl⟩
      have hturn : u = oplTurn n := Nat.add_right_cancel hn
      subst hturn
      exact ⟨⟨n, rfl, rfl⟩, (r.out_note n).symm⟩

end OplOpsRun

end Z486.Sound
