/-
What a port of the SDRAM controller sees: when its request is taken, which dwords come back to it, and that
nobody waits for ever.
-/
import Z486.Sdram.Served

namespace Z486.Sdram

/-! ## Pulses -/

namespace Controller

variable {p : SdramParams} {s : Controller} {i : SdramIn} {port : Port}

/-- `ready` is the accepted request, one clock later. -/
theorem readyPulse_next : (s.next p i).readyPulse = s.accepts i := by
  by_cases hs : s.state = .idle
  · exact congrArg Ticked.readyPulse (ticked_idle hs)
  · obtain ⟨cnt, resp, done, hnext, -, -⟩ := ticked_next (p := p) (i := i) hs
    have hnone : s.accepts i = none := by
      unfold accepts
      rw [beq_false_of_ne hs]
      rfl
    rw [hnone]
    exact congrArg Ticked.readyPulse hnext

/-- Data leave the controller out of `READ` only. -/
theorem resp_next (hs : s.state ≠ .read) :
    (s.next p i).dataRespPulse = false ∧ (s.next p i).burstDonePulse = false := by
  by_cases hidle : s.state = .idle
  · exact ⟨congrArg Ticked.dataRespPulse (ticked_idle hidle), congrArg Ticked.burstDonePulse (ticked_idle hidle)⟩
  · obtain ⟨cnt, resp, done, hnext, -, hquiet⟩ := ticked_next (p := p) (i := i) hidle
    obtain ⟨rfl, rfl⟩ := hquiet hs
    exact ⟨congrArg Ticked.dataRespPulse hnext, congrArg Ticked.burstDonePulse hnext⟩

end Controller

/-! ## Taking turns -/

/-- The ports whose requests go first. -/
def Port.before : Port → Port → Bool
  | .dma, .cpu | .dma, .aux | .cpu, .aux => true
  | _, _ => false

theorem grant_of_valid {i : SdramIn} {port : Port} (h : i.valid port = true) :
    ∃ q, Controller.grant i = some q ∧ (q = port ∨ q.before port = true) := by
  unfold Controller.grant
  by_cases hd : i.valid .dma = true
  · rw [if_pos hd]
    refine ⟨.dma, rfl, ?_⟩
    cases port
    · exact Or.inr rfl
    · exact Or.inl rfl
    · exact Or.inr rfl
  · rw [if_neg hd]
    by_cases hc : i.valid .cpu = true
    · rw [if_pos hc]
      refine ⟨.cpu, rfl, ?_⟩
      cases port
      · exact Or.inl rfl
      · exact absurd h hd
      · exact Or.inr rfl
    · rw [if_neg hc]
      cases port
      · exact absurd h hc
      · exact absurd h hd
      · rw [if_pos h]
        exact ⟨.aux, rfl, Or.inl rfl⟩

namespace SdramRun

variable {r : SdramRun} {t a k : Nat} {port : Port}

theorem ready_iff : (r.regs (t + 1)).ready port = true ↔ r.accepts t = some port := by
  unfold Controller.ready
  rw [r.next, Controller.readyPulse_next, beq_iff_eq]
  exact Iff.rfl

/-- The clocks of `READ` belong to accepted reads. -/
theorem read_of_state : (r.regs t).state = .read → ∃ a port k, r.accepts a = some port ∧
    ((r.inp a).req port).wr = false ∧ 1 ≤ k ∧ k < r.p.readClocks ((r.inp a).req port) ∧ t = a + k ∧
    (r.regs a).dqOen = true := by
  refine RoundProof.holds (r := r) (P := fun _ => True) (C := fun _ _ => True) (I := fun _ => True)
    (J := fun t => (r.regs t).state = .read → ∃ a port k, r.accepts a = some port ∧
      ((r.inp a).req port).wr = false ∧ 1 ≤ k ∧ k < r.p.readClocks ((r.inp a).req port) ∧ t = a + k ∧
      (r.regs a).dqOen = true) ?_ t
  constructor
  · exact trivial
  · rintro t hp - -
    refine ⟨fun hs => ?_, trivial, trivial⟩
    rw [hp.state] at hs
    cases hs
  · rintro t chip - hc - -
    refine ⟨fun k hk hs => ?_, fun _ _ => trivial, fun _ _ => trivial⟩
    rw [(hc k hk).state] at hs
    cases hs
  · rintro t hi - - - -
    refine ⟨fun hs => ?_, trivial⟩
    rw [hi] at hs
    cases hs
  · rintro t hr - hs -
    refine ⟨?_, trivial⟩
    rintro (_ | k) hk hst
    · rw [Nat.add_zero, refreshes_idle hr] at hst
      cases hst
    · rw [(hs (k + 1) (by omega) (by omega)).state, if_pos (by omega)] at hst
      cases hst
  · rintro t port ha hz hs -
    refine ⟨?_, trivial⟩
    rintro (_ | k) hk hst
    · rw [Nat.add_zero, Controller.state_of_accepts ha] at hst
      cases hst
    · have hr := (hs (k + 1) (by omega) hk.le).reads hst
      rw [(SdramReq.of_read hr).1] at hk
      exact ⟨t, port, k + 1, ha, hr, by omega, hk, rfl, hz⟩

/-- The port of a read sees its dwords and the end of the burst at known clocks, and nobody else sees anything. -/
theorem pulses_iff : ((r.regs t).respValid port = true ↔ ∃ a i, r.accepts a = some port ∧
      ((r.inp a).req port).wr = false ∧ i < ((r.inp a).req port).effBurst ∧ t = a + r.p.readStart + 2 * i + 2) ∧
    ((r.regs t).burstDone port = true ↔ ∃ a, r.accepts a = some port ∧
      ((r.inp a).req port).wr = false ∧ t = a + r.p.readClocks ((r.inp a).req port)) := by
  have hread : ∀ {a port'}, r.accepts a = some port' → ∀ {k}, ((r.inp a).req port').wr = false → 1 ≤ k →
      k ≤ r.p.readClocks ((r.inp a).req port') → Reading r.p port' ((r.inp a).req port') k (r.regs (a + k)) :=
    fun ha _ hr hk hle => r.reading ha (r.hiZ_of_idle (Controller.state_of_accepts ha)) hr hk hle
  have hlast : ∀ q : SdramReq, r.p.readClocks q = r.p.readStart + 2 * q.effBurst := fun _ => rfl
  -- a pulse in clock `t` comes out of a read under way in the clock before
  have hfrom : (r.regs t).dataRespPulse = true ∨ (r.regs t).burstDonePulse = true →
      ∃ a port' k, r.accepts a = some port' ∧ ((r.inp a).req port').wr = false ∧ 1 ≤ k ∧
        k < r.p.readClocks ((r.inp a).req port') ∧ t = a + (k + 1) := by
    intro hpulse
    cases t with
    | zero =>
      rw [r.start] at hpulse
      rcases hpulse with h | h <;> cases h
    | succ u =>
      by_cases hs : (r.regs u).state = .read
      · obtain ⟨a, port', k, ha, hr, hk, hlt, rfl, -⟩ := read_of_state hs
        exact ⟨a, port', k, ha, hr, hk, hlt, rfl⟩
      · rw [r.next, (Controller.resp_next hs).1, (Controller.resp_next hs).2] at hpulse
        rcases hpulse with h | h <;> cases h
  unfold Controller.respValid Controller.burstDone
  simp only [Bool.and_eq_true, beq_iff_eq]
  refine ⟨⟨?_, ?_⟩, ?_, ?_⟩
  · rintro ⟨hid, hp⟩
    obtain ⟨a, port', k, ha, hr, hk, hlt, rfl⟩ := hfrom (Or.inl hp)
    have hrd := hread ha hr (k := k + 1) (by omega) hlt
    rw [hrd.id] at hid
    subst hid
    rw [hrd.resp, decide_eq_true_eq] at hp
    have hl := hlast ((r.inp a).req port')
    exact ⟨a, (k + 1 - r.p.readStart) / 2 - 1, ha, hr, by omega, by omega⟩
  · rintro ⟨a, i, ha, hr, hi, rfl⟩
    have hl := hlast ((r.inp a).req port)
    have hrd := hread ha hr (k := r.p.readStart + 2 * i + 2) (by omega) (by omega)
    rw [(by omega : a + r.p.readStart + 2 * i + 2 = a + (r.p.readStart + 2 * i + 2))]
    refine ⟨hrd.id, ?_⟩
    rw [hrd.resp, decide_eq_true_eq]
    omega
  · rintro ⟨hid, hp⟩
    obtain ⟨a, port', k, ha, hr, hk, hlt, rfl⟩ := hfrom (Or.inr hp)
    have hrd := hread ha hr (k := k + 1) (by omega) hlt
    rw [hrd.id] at hid
    subst hid
    rw [hrd.done, decide_eq_true_eq] at hp
    exact ⟨a, ha, hr, by omega⟩
  · rintro ⟨a, ha, hr, rfl⟩
    have hl := hlast ((r.inp a).req port)
    have hb := ((r.inp a).req port).effBurst_pos
    have hrd := hread ha hr (k := r.p.readClocks ((r.inp a).req port)) (by omega) le_rfl
    refine ⟨hrd.id, ?_⟩
    rw [hrd.done, decide_eq_true_eq]

/-- `IDLE` comes back within the longest transaction. -/
theorem idle_within : r.configured t → ∃ u, t ≤ u ∧ u ≤ t + r.p.longestTransaction ∧ (r.regs u).state = .idle := by
  have hrc := r.p.fits.rc
  have hlong : r.p.tRc + 1 ≤ r.p.longestTransaction := by
    unfold SdramParams.longestTransaction
    omega
  refine r.configured_rounds
    (J := fun t => ∃ u, t ≤ u ∧ u ≤ t + r.p.longestTransaction ∧ (r.regs u).state = .idle) ?_ ?_ ?_
  · rintro t hs - -
    exact ⟨t, le_rfl, by omega, hs⟩
  · rintro t - hs k hk
    refine ⟨t + (r.p.tRc + 1), by omega, by omega, ?_⟩
    rw [(hs (r.p.tRc + 1) (by omega) le_rfl).state, if_neg (by omega)]
  · rintro t port - hs k hk
    have hpos := clocks_pos r.p ((r.inp t).req port)
    have hlt := ((r.inp t).req port).clocks_lt_longest r.p
    exact ⟨t + ((r.inp t).req port).clocks r.p, by omega, by omega, (hs _ (by omega) le_rfl).idle rfl⟩

/-- In `IDLE` a request is taken, one that goes before it, or a refresh is due. -/
theorem takes_of_idle (hs : (r.regs t).state = .idle) (hn : (r.inp t).nce = false)
    (hv : (r.inp t).valid port = true) :
    r.refreshes t = true ∨ ∃ q, r.accepts t = some q ∧ (q = port ∨ q.before port = true) := by
  cases hr : r.refreshes t
  · right
    unfold refreshes Controller.refreshes at hr
    unfold accepts Controller.accepts
    rw [hs, hn, Bool.and_eq_false_iff] at hr
    have hr' := hr.resolve_left nofun
    rw [hs, hn, hr']
    show ∃ q, Controller.grant (r.inp t) = some q ∧ (q = port ∨ q.before port = true)
    exact grant_of_valid hv
  · exact Or.inl rfl

/-- A request that waits is taken, or one that goes before it, as soon as an access, a refresh and another access
could have been made. -/
theorem turn_within (hroom : r.p.tRc ≤ r.p.refreshCycles) (hc : r.configured t)
    (hwait : ∀ u, t ≤ u → u ≤ t + 2 * r.p.longestTransaction → (r.inp u).nce = false ∧ (r.inp u).valid port = true) :
    ∃ u q, t ≤ u ∧ u ≤ t + 2 * r.p.longestTransaction ∧ r.accepts u = some q ∧ (q = port ∨ q.before port = true) := by
  have hrc := r.p.fits.rc
  have hlong : r.p.tRc + 1 ≤ r.p.longestTransaction := by
    unfold SdramParams.longestTransaction
    omega
  obtain ⟨u, h1, h2, hs⟩ := idle_within hc
  have hu := hwait u h1 (by omega)
  rcases takes_of_idle hs hu.1 hu.2 with hr | ⟨q, ha, hq⟩
  · -- after the refresh the next one is not due yet
    have hstep := r.refreshing (k := r.p.tRc + 1) hr (r.hiZ_of_idle hs) (by omega) le_rfl
    have hs' : (r.regs (u + (r.p.tRc + 1))).state = .idle := by
      rw [hstep.state, if_neg (by omega)]
    have hneed := need_of_refreshing (by omega) hr (k := r.p.tRc + 1) (by omega) le_rfl
    rw [decide_eq_false (by omega)] at hneed
    have hu' := hwait (u + (r.p.tRc + 1)) (by omega) (by omega)
    rcases takes_of_idle hs' hu'.1 hu'.2 with hr' | ⟨q, ha, hq⟩
    · obtain ⟨-, -, hn⟩ := Controller.idle_of_refreshes hr'
      unfold need at hneed
      rw [hneed] at hn
      cases hn
    · exact ⟨_, q, by omega, by omega, ha, hq⟩
  · exact ⟨u, q, h1, by omega, ha, hq⟩

end SdramRun

/-! ## The ports -/

namespace DeviceRun

/-- What the ports see in a run. -/
structure Serves (r : DeviceRun) : Prop where
  /-- `ready` is high on a port in the clock after its request was accepted, and at no other time -/
  ready : ∀ t port, (r.regs (t + 1)).ready port = true ↔ r.accepts t = some port
  /-- a request that is up until `ready` is accepted once -/
  once : ∀ b e port, b < e → (∀ t, b ≤ t → t < e → (r.regs t).ready port = false) → (r.regs e).ready port = true →
    ∃ a, b ≤ a ∧ a ≤ e ∧ r.accepts a = some port ∧ ∀ a', b ≤ a' → a' ≤ e → r.accepts a' = some port → a' = a
  /-- accesses do not overlap -/
  apart : ∀ a a' port port', a < a' → r.accepts a = some port → r.accepts a' = some port' →
    a + ((r.inp a).req port).clocks r.p ≤ a'
  /-- nobody waits for longer than two transactions, but for the ports that go first -/
  turn : r.p.tRc ≤ r.p.refreshCycles → ∀ t port, r.configured t →
    (∀ u, t ≤ u → u ≤ t + 2 * r.p.longestTransaction → (r.inp u).nce = false ∧ (r.inp u).valid port = true) →
    ∃ u q, t ≤ u ∧ u ≤ t + 2 * r.p.longestTransaction ∧ r.accepts u = some q ∧ (q = port ∨ q.before port = true)
  /-- a read is answered with its dwords, on its own port -/
  answers : ∀ t port, (r.regs t).respValid port = true ↔ ∃ a i, r.accepts a = some port ∧
    ((r.inp a).req port).wr = false ∧ i < ((r.inp a).req port).effBurst ∧ t = a + r.p.readStart + 2 * i + 2
  /-- and the last one ends the burst -/
  done : ∀ t port, (r.regs t).burstDone port = true ↔ ∃ a, r.accepts a = some port ∧
    ((r.inp a).req port).wr = false ∧ t = a + r.p.readClocks ((r.inp a).req port)
  /-- each dword is what the writes accepted before the read have left at its address -/
  data : ∀ a port i, r.accepts a = some port → ((r.inp a).req port).wr = false → ((r.inp a).req port).InRow r.p →
    i < ((r.inp a).req port).effBurst → (r.regs (a + r.p.readStart + 2 * i + 2)).dout port =
      r.written a (r.p.wordOf (((r.inp a).req port).dwordAddr i))
  /-- the module holds what the accepted writes have left -/
  stored : ∀ t, (r.regs t).state = .idle → r.Holds t

/-- Every run serves its ports. -/
theorem serves_ports (r : DeviceRun) : r.Serves := by
  -- no access is accepted while another is under way
  have hapart : ∀ a a' port port', a < a' → r.accepts a = some port → r.accepts a' = some port' →
      a + ((r.inp a).req port).clocks r.p ≤ a' := by
    intro a a' port port' hlt ha ha'
    by_contra hc
    have hnone := accepts_during (idle_of_accepts ha) ha (k := a' - a) (by omega) (by omega)
    rw [Nat.add_sub_cancel' hlt.le, ha'] at hnone
    cases hnone
  constructor
  · exact fun t port => SdramRun.ready_iff
  · intro b e port hbe hno hready
    obtain ⟨a, rfl⟩ := Nat.exists_eq_add_of_lt hbe
    have ha : r.accepts (b + a) = some port := SdramRun.ready_iff.1 hready
    refine ⟨b + a, by omega, by omega, ha, ?_⟩
    intro a' h1 h2 ha'
    rcases Nat.lt_trichotomy a' (b + a) with h | h | h
    · have hr := hno (a' + 1) (by omega) (by omega)
      rw [SdramRun.ready_iff.2 ha'] at hr
      cases hr
    · exact h
    · have hpos := SdramRun.clocks_pos r.p ((r.inp (b + a)).req port)
      have hle := hapart _ _ _ _ h ha ha'
      omega
  · exact hapart
  · exact fun hroom t port hc hwait => SdramRun.turn_within hroom hc hwait
  · exact fun t port => SdramRun.pulses_iff.1
  · exact fun t port => SdramRun.pulses_iff.2
  · intro a port i ha hr hrow hi
    have hresp := (SdramRun.pulses_iff (r := r.toSdramRun)).1.2 ⟨a, i, ha, hr, hi, rfl⟩
    unfold Controller.dout
    rw [if_pos hresp, read_word (idle_of_accepts ha) ha hr hrow hi]
    exact (ready_of_idle (Controller.state_of_accepts ha)).holds _
  · exact fun t hs => (ready_of_idle hs).holds

end DeviceRun

end Z486.Sdram
