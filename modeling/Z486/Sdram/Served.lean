/-
The SDRAM controller serves its three ports: each request is accepted once, a read returns the dwords the
accepted writes have left, and a write changes the bytes it enables.
-/
import Z486.Sdram.Store
import Z486.Sdram.Refresh

namespace Z486.Sdram

namespace DeviceRun

variable (r : DeviceRun) {t a k n : Nat} {port : Port}

/-! ## What has been written -/

/-- The dwords of the module: those of power-up, and over them the bytes of the writes accepted before clock `t`. -/
def written (r : DeviceRun) : Nat → BitVec 25 → BitVec 32
  | 0 => (r.dev 0).contents r.p
  | t + 1 =>
    match r.accepts t with
    | some port =>
      let q := (r.inp t).req port
      if q.wr then
        fun x => if x = r.p.wordOf q.addr then byteMerge (written r t x) q.din q.be else written r t x
      else written r t
    | none => written r t

/-- The device holds what has been written. -/
def Holds (t : Nat) : Prop := ∀ addr, (r.dev t).contents r.p (r.p.wordOf addr) = r.written t (r.p.wordOf addr)

variable {r}

theorem written_of_not_accepts (h : r.accepts t = none) : r.written (t + 1) = r.written t := by
  show (match r.accepts t with | some port => _ | none => r.written t) = _
  rw [h]

/-- Nothing changes in a clock without a request whose command is no write. -/
theorem Holds.succ (h : r.Holds t) (hno : ∀ c b col ap, r.bus t ≠ .write c b col ap) (ha : r.accepts t = none) :
    r.Holds (t + 1) := by
  intro addr
  rw [written_of_not_accepts ha, contents_of_cells (cells_succ hno)]
  exact h addr

theorem Holds.add (h : r.Holds t) (hno : ∀ k, k < n → ∀ c b col ap, r.bus (t + k) ≠ .write c b col ap)
    (ha : ∀ k, k < n → r.accepts (t + k) = none) : r.Holds (t + n) := by
  induction n with
  | zero => exact h
  | succ n ih =>
    exact (ih (fun k hk => hno k (by omega)) fun k hk => ha k (by omega)).succ (hno n (by omega)) (ha n (by omega))

/-! ## Accesses -/

section Accepted

variable (hi : r.Idle a) (ha : r.accepts a = some port)
include hi ha

/-- No other request is accepted while an access lasts. -/
theorem accepts_during (hk : 1 ≤ k) (hlt : k < ((r.inp a).req port).clocks r.p) : r.accepts (a + k) = none := by
  apply SdramRun.accepts_of_not_idle
  intro hs
  have hbusy := (r.access ha (r.hiZ_of_idle hi.state) hk hlt.le).busy hlt
  rw [hs] at hbusy
  cases hbusy

theorem written_during (hk : 1 ≤ k) (hle : k ≤ ((r.inp a).req port).clocks r.p) :
    r.written (a + k) = r.written (a + 1) := by
  induction k, hk using Nat.le_induction with
  | base => rfl
  | succ k hk ih =>
    rw [← Nat.add_assoc, written_of_not_accepts (accepts_during hi ha hk hle)]
    exact ih (by omega)

omit hi in
theorem written_accepted : r.written (a + 1) =
    if ((r.inp a).req port).wr then
      fun x => if x = r.p.wordOf ((r.inp a).req port).addr then
        byteMerge (r.written a x) ((r.inp a).req port).din ((r.inp a).req port).be else r.written a x
    else r.written a := by
  show (match r.accepts a with | some port => _ | none => r.written a) = _
  rw [ha]

/-- At the end of an access the device holds what has been written. -/
theorem holds_access (h : r.Holds a) : r.Holds (a + ((r.inp a).req port).clocks r.p) := by
  have hpos := SdramRun.clocks_pos r.p ((r.inp a).req port)
  intro addr
  rw [written_during hi ha (by omega) le_rfl, written_accepted ha]
  cases hw : ((r.inp a).req port).wr
  · rw [if_neg Bool.false_ne_true, contents_of_cells]
    · exact h addr
    · apply cells_add
      rintro (_ | k) hk
      · rw [Nat.add_zero, hi.bus]
        exact nofun
      · rw [access_bus hi ha (by omega) hk.le, (SdramReq.of_read hw).2.2]
        unfold readBus
        split_ifs <;> exact nofun
  · rw [if_pos rfl]
    have hhalf : ∀ h, (r.dev (a + ((r.inp a).req port).clocks r.p)).half r.p addr h =
        if r.p.wordOf addr = r.p.wordOf ((r.inp a).req port).addr then
          halfMerge (((r.inp a).req port).maskHalf h) ((r.dev a).half r.p addr h) (((r.inp a).req port).dinHalf h)
        else (r.dev a).half r.p addr h := by
      intro h
      cases hn : ((r.inp a).req port).needsOld r.p
      · rw [write_halves hi ha hw hn, job_newHalf hn]
      · rw [rewrite_halves hi ha hw hn]
        split_ifs with hx
        · rw [mergedJob_newHalf hn]
          intro ht
          rw [old_halves hi ha hw hn ht]
          exact (half_of_wordOf hx h).symm
        · rfl
    have hold := h addr
    rw [contents_wordOf] at hold
    rw [contents_wordOf, hhalf, hhalf, ← hold]
    split_ifs
    · rw [byteMerge_eq, (extract_append _ _).1, (extract_append _ _).2]
      rfl
    · rfl

/-- At the end of an access every bank is closed again. -/
theorem closed_access (chip : Bool) (bank : BitVec 2) (hchip : chip = true → r.p.twoChips = true) :
    (r.dev (a + ((r.inp a).req port).clocks r.p)).row chip bank = none := by
  have hb := fun k => r.access_bus hi ha (k := k)
  have hpos := SdramRun.clocks_pos r.p ((r.inp a).req port)
  generalize (r.inp a).req port = q at hb hpos ⊢
  have hact : ∀ k, 1 ≤ k → k ≤ q.clocks r.p → (r.bus (a + k)).Activates chip bank →
      q.bankIs r.p chip bank ∧ k = q.opened r.p k + 1 := by
    intro k h1 h2 h
    rw [hb k h1 h2] at h
    exact (q.bus_cmd r.p k).cycles chip bank h.cycles
  by_cases hown : q.bankIs r.p chip bank
  · obtain ⟨k, h1, h2, hp⟩ := q.closes r.p
    have hcl : r.closes (a + k) chip bank := by
      refine ⟨q.clocks r.p + 1 - k, ?_⟩
      rw [hb k (by omega) h2.le, ← hown.1, ← hown.2]
      exact hp
    have h := row_none (row_of_closes hcl) (n := q.clocks r.p - (k + 1)) ?_
    · rwa [Nat.add_assoc a, Nat.add_assoc a, Nat.add_sub_cancel' (by omega)] at h
    · intro m hm h
      rw [Nat.add_assoc, Nat.add_assoc] at h
      obtain ⟨-, hk⟩ := hact (k + (1 + m)) (by omega) (by omega) h
      unfold SdramReq.opened at hk
      split_ifs at hk <;> omega
  · have h := row_none (hi.closed chip bank hchip) (n := q.clocks r.p) ?_
    · exact h
    · rintro (_ | k) hk h
      · rw [Nat.add_zero, hi.bus] at h
        exact h
      · exact hown (hact (k + 1) (by omega) hk.le h).1

end Accepted

/-! ## From power-up on -/

/-- Nothing is on the pins in `IDLE`. -/
theorem bus_of_idle : (r.regs t).state = .idle → r.bus t = .nop := by
  have hrc := r.p.fits.rc
  refine r.idle_invariant (I := fun t => r.bus t = .nop) ?_ ?_ ?_ ?_
  · exact fun t h => h.bus
  · intro t hs hr ha _
    obtain ⟨busy, hnext⟩ := Controller.rest (p := r.p) hs hr ha
    unfold SdramRun.bus
    rw [r.next, hnext]
    rfl
  · intro t hs _
    refine (hs (r.p.tRc + 1) (by omega) le_rfl).bus.trans ?_
    unfold refreshBus
    rw [if_neg (by omega), if_neg (by omega)]
  · intro t port hs _
    have hpos := SdramRun.clocks_pos r.p ((r.inp t).req port)
    refine (hs _ (by omega) le_rfl).bus.trans ?_
    exact ((r.inp t).req port).bus_clocks r.p

/-- The banks of the module closed and the dwords as they were written. -/
structure Ready (r : DeviceRun) (t : Nat) : Prop where
  closed : ∀ chip bank, (chip = true → r.p.twoChips = true) → (r.dev t).row chip bank = none
  holds : r.Holds t

section Configuration

variable {chip : Bool} (hs : ∀ k, k < r.p.configClocks → Configuring r.p chip k (r.regs (t + k)))
include hs

theorem configuring_bus (hk : k < r.p.configClocks) : r.bus (t + k) = configBus r.p chip k :=
  (hs k hk).bus

theorem configuring_not_idle (hk : k < r.p.configClocks) : (r.regs (t + k)).state ≠ .idle := by
  rw [(hs k hk).state]
  decide

theorem configuring_not_activates (hk : k < r.p.configClocks) (c : Bool) (bank : BitVec 2) :
    ¬ (r.bus (t + k)).Activates c bank := by
  rw [configuring_bus hs hk]
  unfold configBus
  split_ifs <;> exact nofun

/-- A chip's configuration writes nothing. -/
theorem holds_configured (h : r.Holds t) : r.Holds (t + r.p.configClocks) := by
  refine h.add ?_ fun k hk => SdramRun.accepts_of_not_idle (configuring_not_idle hs hk)
  intro k hk c b col ap
  rw [configuring_bus hs hk]
  unfold configBus
  split_ifs <;> exact nofun

/-- It opens with a precharge of every bank of the chip. -/
theorem closed_configured (bank : BitVec 2) : (r.dev (t + r.p.configClocks)).row chip bank = none := by
  have hrc := r.p.fits.rc
  have hn : r.p.configClocks = r.p.tRp + r.p.tRc + r.p.tRc + 2 + 1 := rfl
  have hcl : r.closes (t + 1) chip bank := by
    refine ⟨r.p.tRp, ?_⟩
    rw [configuring_bus hs (by omega : 1 < r.p.configClocks)]
    exact ⟨rfl, rfl, le_rfl⟩
  have h := row_none (row_of_closes hcl) (n := r.p.configClocks - 2) ?_
  · rwa [Nat.add_assoc t, Nat.add_assoc t, (by omega : 1 + 1 + (r.p.configClocks - 2) = r.p.configClocks)] at h
  · intro k hk
    rw [Nat.add_assoc, Nat.add_assoc]
    exact configuring_not_activates hs (by omega : 1 + (1 + k) < r.p.configClocks) chip bank

/-- The banks of the chip configured before stay closed. -/
theorem closed_before (h : (r.dev t).row false bank = none) :
    (r.dev (t + r.p.configClocks)).row false bank = none :=
  row_none h fun _ hk => configuring_not_activates hs hk false bank

/-- With the last chip configured the module is ready. -/
theorem ready_configured (hchip : chip = r.p.twoChips) (h : r.Holds t)
    (hclosed : chip = true → ∀ bank, (r.dev t).row false bank = none) : r.Ready (t + r.p.configClocks) := by
  refine ⟨?_, holds_configured hs h⟩
  intro c bank hcc
  by_cases heq : c = chip
  · rw [heq]
    exact closed_configured hs bank
  · have hct : chip = true ∧ c = false := by
      revert heq hcc
      rw [← hchip]
      cases c <;> cases chip <;> decide
    rw [hct.2]
    exact closed_before hs (hclosed hct.1 bank)

end Configuration

section Refresh

variable (hr : r.refreshes t = true)
  (hs : ∀ k, 1 ≤ k → k ≤ r.p.tRc + 1 → Refreshing r.p k (r.regs (t + k)))
include hr hs

theorem refreshing_bus (hk : k < r.p.tRc + 1) : (∀ c b col ap, r.bus (t + k) ≠ .write c b col ap) ∧
    ∀ c bank, ¬ (r.bus (t + k)).Activates c bank := by
  rcases k with _ | k
  · rw [Nat.add_zero, r.bus_of_idle (SdramRun.refreshes_idle hr)]
    exact ⟨nofun, nofun⟩
  · have hb : r.bus (t + (k + 1)) = refreshBus r.p (k + 1) := (hs (k + 1) (by omega) hk.le).bus
    rw [hb]
    unfold refreshBus
    split_ifs <;> exact ⟨nofun, nofun⟩

theorem refreshing_accepts (hk : k < r.p.tRc + 1) : r.accepts (t + k) = none := by
  rcases k with _ | k
  · exact SdramRun.accepts_of_refreshes hr
  · apply SdramRun.accepts_of_not_idle
    rw [(hs (k + 1) (by omega) hk.le).state, if_pos (by omega)]
    decide

/-- A refresh neither writes nor opens a row. -/
theorem ready_refreshed (h : r.Ready t) : r.Ready (t + (r.p.tRc + 1)) := by
  refine ⟨?_, h.holds.add (fun k hk => (refreshing_bus hr hs hk).1) fun k hk => refreshing_accepts hr hs hk⟩
  intro chip bank hchip
  exact row_none (h.closed chip bank hchip) fun k hk => (refreshing_bus hr hs hk).2 chip bank

end Refresh

theorem ready_of_idle : (r.regs t).state = .idle → r.Ready t := by
  refine SdramRun.RoundProof.holds (r := r.toSdramRun) (P := r.Holds)
    (C := fun chip t => r.Holds t ∧ (chip = true → ∀ bank, (r.dev t).row false bank = none))
    (I := r.Ready) (J := fun t => (r.regs t).state = .idle → r.Ready t) ?_ t
  constructor
  · intro addr
    rfl
  · rintro t hp - hP
    have hnot : (r.regs t).state ≠ .idle := by
      rw [hp.state]
      decide
    have hP' : r.Holds (t + 1) := by
      refine hP.succ ?_ (SdramRun.accepts_of_not_idle hnot)
      intro c b col ap
      rw [SdramRun.bus, hp.bus]
      exact nofun
    exact ⟨fun hi => absurd hi hnot, hP', hP', nofun⟩
  · rintro t chip - hs - ⟨hC, hclosed⟩
    refine ⟨fun k hk hi => absurd hi (configuring_not_idle hs hk), fun hc _ => ?_, fun hc _ => ?_⟩
    · refine ⟨holds_configured hs hC, fun _ bank => ?_⟩
      rw [← hc]
      exact closed_configured hs bank
    · exact ready_configured hs hc hC hclosed
  · rintro t hs - - ha hI
    have hbus := r.bus_of_idle hs
    refine ⟨fun _ => hI, ?_, hI.holds.succ (fun c b col ap => ?_) ha⟩
    · intro chip bank hchip
      apply row_none_succ (hI.closed chip bank hchip)
      rw [hbus]
      exact nofun
    · rw [hbus]
      exact nofun
  · rintro t hr - hs hI
    refine ⟨?_, ready_refreshed hr hs hI⟩
    -- only the first clock of the round is in `IDLE`
    rintro (_ | k) hk hi
    · exact hI
    · rw [(hs (k + 1) (by omega) (by omega)).state, if_pos (by omega)] at hi
      cases hi
  · rintro t port ha - hs hI
    have hidle : r.Idle t :=
      ⟨Controller.state_of_accepts ha, r.bus_of_idle (Controller.state_of_accepts ha), hI.closed⟩
    refine ⟨?_, closed_access hidle ha, holds_access hidle ha hI.holds⟩
    rintro (_ | k) hk hi
    · exact hI
    · have hbusy := (hs (k + 1) (by omega) hk.le).busy hk
      rw [hi] at hbusy
      cases hbusy

theorem idle_of_accepts (ha : r.accepts t = some port) : r.Idle t :=
  ⟨Controller.state_of_accepts ha, r.bus_of_idle (Controller.state_of_accepts ha),
    (r.ready_of_idle (Controller.state_of_accepts ha)).closed⟩

end DeviceRun

end Z486.Sdram
