/-
Runs of the SDRAM controller, cut into rounds: power-up, the configuration of each chip, and then from
one `IDLE` clock to the next a clock of rest, a refresh or an access.
-/
import Z486.Sdram.Writing
import Z486.Clocked.Run

namespace Z486.Sdram

/-! ## Accesses -/

def SdramState.accessing : SdramState → Bool
  | .read | .rmwRead | .rmwAct | .write => true
  | _ => false

/-- The clocks from the one that accepts a request to the one that is back in `IDLE`. -/
def SdramReq.clocks (p : SdramParams) (q : SdramReq) : Nat :=
  if q.wr then
    if q.needsOld p then p.rmwClocks q + (q.job p).clocks p else (q.job p).clocks p
  else p.readClocks q

/-- The clock, from the accepted request on, before the row is opened for the last time. -/
def SdramReq.reopened (p : SdramParams) (q : SdramReq) : Nat := if q.wr && q.needsOld p then p.rmwClocks q else 0

/-- The command on the pins `k` clocks after a request was accepted. -/
def SdramReq.bus (p : SdramParams) (q : SdramReq) (k : Nat) : BusCmd :=
  if q.wr then
    if q.needsOld p then if k ≤ p.rmwClocks q then rmwBus p q k else (q.job p).bus p (k - p.rmwClocks q)
    else (q.job p).bus p k
  else readBus p q k

theorem SdramReq.bus_ne_refresh (p : SdramParams) (q : SdramReq) (k : Nat) (chip : Bool) :
    q.bus p k ≠ .refresh chip := by
  have hjob : ∀ k, (q.job p).bus p k ≠ .refresh chip := by
    intro k
    unfold WriteJob.bus
    split
    · exact nofun
    · split
      · exact nofun
      · exact nofun
  unfold SdramReq.bus
  split_ifs
  · unfold rmwBus
    split_ifs <;> exact nofun
  · exact hjob _
  · exact hjob _
  · unfold readBus
    split_ifs <;> exact nofun

theorem WriteJob.halfAt_clocks {p : SdramParams} (j : WriteJob) : j.halfAt p (j.clocks p) = none := by
  have hf := p.fits
  have h1 := hf.rcd
  have h2 := hf.wr
  have h3 := p.tRp_eq
  unfold WriteJob.halfAt WriteJob.clocks SdramParams.tDal
  by_cases hj : j.halfs = 3
  · rw [if_pos hj, if_neg (by omega), if_neg (by omega)]
  · rw [if_neg hj, if_neg (by omega), if_neg (fun h => hj h.2)]

/-- What every access has in common `k` clocks after its request was accepted. -/
structure Access (p : SdramParams) (q : SdramReq) (k : Nat) (s : Controller) : Prop where
  busy : k < q.clocks p → s.state.accessing = true
  reads : s.state = .read → q.wr = false
  idle : k = q.clocks p → s.state = .idle
  cycle : k = q.clocks p → s.cycle = min (k - q.reopened p) 31
  bus : s.bus p = q.bus p k
  hiZ : k = q.clocks p → s.dqOen = true
  addr : s.addrBuf = q.addr
  large : s.reqLargeBuf = p.large
  chip : s.reqChipBuf = p.chipOf q.addr

section Access

variable {p : SdramParams} {port : Port} {q : SdramReq} {old : BitVec 32} {k : Nat} {s : Controller}

/-! The three kinds of access. -/

theorem SdramReq.of_read (hr : q.wr = false) :
    q.clocks p = p.readClocks q ∧ q.reopened p = 0 ∧ ∀ k, q.bus p k = readBus p q k := by
  unfold SdramReq.clocks SdramReq.reopened SdramReq.bus
  rw [hr]
  exact ⟨rfl, rfl, fun _ => rfl⟩

theorem SdramReq.of_write (hw : q.wr = true) (hn : q.needsOld p = false) :
    q.clocks p = (q.job p).clocks p ∧ q.reopened p = 0 ∧ ∀ k, q.bus p k = (q.job p).bus p k := by
  unfold SdramReq.clocks SdramReq.reopened SdramReq.bus
  rw [hw, hn]
  exact ⟨rfl, rfl, fun _ => rfl⟩

theorem SdramReq.of_rewrite (hw : q.wr = true) (hn : q.needsOld p = true) :
    q.clocks p = p.rmwClocks q + (q.job p).clocks p ∧ q.reopened p = p.rmwClocks q ∧
      (∀ k, k ≤ p.rmwClocks q → q.bus p k = rmwBus p q k) ∧
      ∀ k, 1 ≤ k → q.bus p (p.rmwClocks q + k) = (q.job p).bus p k := by
  unfold SdramReq.clocks SdramReq.reopened SdramReq.bus
  rw [hw, hn]
  refine ⟨rfl, rfl, ?_, ?_⟩
  · intro k hk
    rw [if_pos rfl, if_pos rfl, if_pos hk]
  · intro k hk
    rw [if_pos rfl, if_pos rfl, if_neg (by omega), Nat.add_sub_cancel_left]

/-- Nothing is on the pins when an access ends. -/
theorem SdramReq.bus_clocks (p : SdramParams) (q : SdramReq) : q.bus p (q.clocks p) = .nop := by
  have hlt := (q.job p).lt_clocks (p := p)
  have hjob : (q.job p).bus p ((q.job p).clocks p) = .nop := by
    unfold WriteJob.bus
    rw [if_neg (by omega), WriteJob.halfAt_clocks]
  cases hw : q.wr
  · have hr : p.readClocks q = p.tRcd + p.cas + 2 + 2 * q.effBurst := rfl
    obtain ⟨hc, -, hb⟩ := SdramReq.of_read (p := p) hw
    rw [hb, hc]
    unfold readBus
    rw [if_neg (by omega), if_neg (by omega)]
  · cases hn : q.needsOld p
    · obtain ⟨hc, -, hb⟩ := SdramReq.of_write hw hn
      rw [hb, hc, hjob]
    · obtain ⟨hc, -, -, hb⟩ := SdramReq.of_rewrite hw hn
      rw [hc, hb _ (by omega), hjob]

theorem Reading.access (h : Reading p port q k s) (hr : q.wr = false) : Access p q k s := by
  obtain ⟨hc, ho, hb⟩ := SdramReq.of_read (p := p) hr
  refine ⟨?_, fun _ => hr, ?_, ?_, h.bus.trans (hb k).symm, fun _ => h.hiZ, h.addr, h.large, h.chip⟩
  · intro hk
    rw [h.state, if_pos (by omega)]
    rfl
  · intro hk
    rw [h.state, if_neg (by omega)]
  · intro _
    rw [h.cycle, ho, Nat.sub_zero]

theorem Writing.access (h : Writing p port (q.job p) (some port) k s) (hw : q.wr = true)
    (hn : q.needsOld p = false) : Access p q k s := by
  obtain ⟨hc, ho, hb⟩ := SdramReq.of_write hw hn
  have hle := (q.job p).clocks_le (p := p)
  refine ⟨?_, ?_, ?_, ?_, h.bus.trans (hb k).symm, ?_, h.addr, h.large, h.chip⟩
  · intro hk
    rw [h.state, if_pos (by omega)]
    rfl
  · rw [h.state]
    split <;> exact nofun
  · intro hk
    rw [h.state, if_neg (by omega)]
  · intro hk
    rw [h.cycle, ho]
    omega
  · intro hk
    rw [h.hiZ, hk, hc, WriteJob.halfAt_clocks]
    rfl

theorem OldReading.access (h : OldReading p port q old k s) (hw : q.wr = true) (hn : q.needsOld p = true)
    (hk : k ≤ p.rmwClocks q) : Access p q k s := by
  have hlt := (q.job p).lt_clocks (p := p)
  obtain ⟨hc, -, hb, -⟩ := SdramReq.of_rewrite hw hn
  refine ⟨?_, ?_, by omega, by omega, h.bus.trans (hb k hk).symm, by omega, h.addr, h.large, h.chip⟩
  · intro _
    rw [h.state]
    split <;> rfl
  · rw [h.state]
    split <;> exact nofun

theorem Writing.access_merged (h : Writing p port (q.mergedJob p old) none k s) (hw : q.wr = true)
    (hn : q.needsOld p = true) (hk : 1 ≤ k) : Access p q (p.rmwClocks q + k) s := by
  obtain ⟨hc, ho, -, hb⟩ := SdramReq.of_rewrite hw hn
  -- the merged write goes where the write went
  have hmc : (q.mergedJob p old).clocks p = (q.job p).clocks p := rfl
  have hmb : (q.mergedJob p old).bus p k = (q.job p).bus p k := rfl
  have hle := (q.mergedJob p old).clocks_le (p := p)
  refine ⟨?_, ?_, ?_, ?_, h.bus.trans (hmb.trans (hb k hk).symm), ?_, h.addr, h.large, h.chip⟩
  · intro _
    rw [h.state, if_pos (by omega)]
    rfl
  · rw [h.state]
    split <;> exact nofun
  · intro _
    rw [h.state, if_neg (by omega)]
  · intro _
    rw [h.cycle, ho]
    omega
  · intro hk'
    rw [h.hiZ, (by omega : k = (q.mergedJob p old).clocks p), WriteJob.halfAt_clocks]
    rfl

end Access

/-! ## Refreshes -/

/-- The clock decides to refresh. -/
def Controller.refreshes (s : Controller) (i : SdramIn) : Bool :=
  s.state == .idle && !i.nce && (s.needRefresh && i.refreshAllowed)

def refreshBus (p : SdramParams) (k : Nat) : BusCmd :=
  if k = 1 then .refresh false else if k = 2 ∧ p.twoChips = true then .refresh true else .nop

/-- The registers `k` clocks after the clock that decided to refresh. -/
structure Refreshing (p : SdramParams) (k : Nat) (s : Controller) : Prop where
  state : s.state = if k ≤ p.tRc then .refresh else .idle
  cycle : s.cycle = k
  bus : s.bus p = refreshBus p k
  cnt : s.refreshCnt = (k - 1) % 2 ^ p.refreshCntW
  hiZ : s.dqOen = true

section Refresh

variable {p : SdramParams} {k : Nat} {s : Controller} {i : SdramIn}

theorem Controller.idle_of_refreshes (h : s.refreshes i = true) :
    s.state = .idle ∧ i.nce = false ∧ (s.needRefresh && i.refreshAllowed) = true := by
  unfold Controller.refreshes at h
  simp only [Bool.and_eq_true, beq_iff_eq, Bool.not_eq_true'] at h
  exact ⟨h.1.1, h.1.2, by rw [h.2.1, h.2.2]; rfl⟩

/-- The edge of a clock that decides to refresh. -/
theorem Controller.next_of_refreshes (h : s.refreshes i = true) : s.next p i = { s.tick p i with
    busyBuf := true, cmd := .autoRefresh, nCs := false, refreshCnt := 0, cycle := 1, state := .refresh } := by
  obtain ⟨hs, hn, hr⟩ := Controller.idle_of_refreshes h
  unfold Controller.next
  rw [hs]
  simp only [Controller.idleNext, hn, hr, Bool.false_eq_true, if_false, if_true]

theorem Refreshing.start (h : s.refreshes i = true) (hz : s.dqOen = true) : Refreshing p 1 (s.next p i) := by
  have hrc := p.fits.rc
  rw [Controller.next_of_refreshes h]
  refine ⟨(if_pos (by omega)).symm, rfl, rfl, ?_, hz⟩
  show 0 = _
  rw [Nat.sub_self, Nat.zero_mod]

theorem Refreshing.next (h : Refreshing p k s) (hk : 1 ≤ k) (hle : k ≤ p.tRc) : Refreshing p (k + 1) (s.next p i) := by
  have hrc := p.fits.rc
  have hs : s.state = .refresh := by rw [h.state, if_pos hle]
  have hnext : s.next p i = s.refreshNext p i := by
    unfold Controller.next
    rw [hs]
  have hcycle : (s.tick p i).cycle = k + 1 := by
    show (if s.cycle = 31 then s.cycle else s.cycle + 1) = _
    rw [h.cycle, if_neg (by omega)]
  have hcnt : (s.tick p i).refreshCnt = (k + 1 - 1) % 2 ^ p.refreshCntW := by
    show (s.refreshCnt + 1) % _ = _
    rw [h.cnt, Nat.mod_add_mod, Nat.sub_add_cancel hk, Nat.add_sub_cancel]
  have hb : (if k = 1 ∧ p.twoChips = true then BusCmd.refresh true else .nop) = refreshBus p (k + 1) := by
    unfold refreshBus
    rw [if_neg (by omega : ¬ k + 1 = 1)]
    simp only [Nat.reduceEqDiff]
  rw [hnext]
  unfold Controller.refreshNext
  have hcond : s.cycle = 1 ∧ p.twoChips = true ↔ k = 1 ∧ p.twoChips = true := by rw [h.cycle]
  have hend : s.cycle = p.tRc ↔ k = p.tRc := by rw [h.cycle]
  simp only [hcond, hend]
  by_cases h1 : k = 1 ∧ p.twoChips = true
  · have hne : k ≠ p.tRc := by omega
    rw [if_pos h1] at hb
    rw [if_pos h1, if_neg hne]
    refine ⟨?_, hcycle, hb, hcnt, h.hiZ⟩
    rw [if_pos (by omega)]
    exact hs
  · rw [if_neg h1] at hb
    rw [if_neg h1]
    by_cases hk' : k = p.tRc
    · rw [if_pos hk']
      refine ⟨?_, hcycle, hb, hcnt, h.hiZ⟩
      rw [if_neg (by omega)]
    · rw [if_neg hk']
      refine ⟨?_, hcycle, hb, hcnt, h.hiZ⟩
      rw [if_pos (by omega)]
      exact hs

end Refresh

/-! ## Configuration -/

/-- The clocks the configuration of a chip takes. -/
def SdramParams.configClocks (p : SdramParams) : Nat := p.tRp + p.tRc + p.tRc + tMrd + 1

def configBus (p : SdramParams) (chip : Bool) (k : Nat) : BusCmd :=
  if k = 1 then .preCharge chip true
  else if k = p.tRp + 1 ∨ k = p.tRp + p.tRc + 1 then .refresh chip
  else if k = p.tRp + p.tRc + p.tRc + 1 then .setMode chip
  else .nop

/-- The registers in clock `k` of the configuration of a chip. -/
structure Configuring (p : SdramParams) (chip : Bool) (k : Nat) (s : Controller) : Prop where
  state : s.state = .config
  cycle : s.cycle = k
  initChip : s.initChip = chip
  bus : s.bus p = configBus p chip k
  hiZ : s.dqOen = true

section Config

variable {p : SdramParams} {chip : Bool} {k : Nat} {s : Controller} {i : SdramIn}

theorem or_bit10 (a : BitVec 13) : (a ||| 0x400#13).getLsbD 10 = true := by
  rw [BitVec.getLsbD_or]
  exact Bool.or_true _

theorem Configuring.next_eq (h : Configuring p chip k s) (hk : k < p.configClocks) :
    ∃ a : BitVec 13, (k = 0 → a.getLsbD 10 = true) ∧ s.next p i =
      let b := { s.tick p i with
        nCs := chip, a := a
        cmd := if k = 0 then .preCharge else if k = p.tRp ∨ k = p.tRp + p.tRc then .autoRefresh
          else if k = p.tRp + p.tRc + p.tRc then .setModeReg else .nop }
      if k + 1 = p.configClocks then
        if p.twoChips && !chip then { b with initChip := true, cycle := 0 }
        else { b with initChip := false, nCs := false, state := .idle, busyBuf := false, refreshCnt := 0 }
      else b := by
  have hf := p.fits
  have hrcd := hf.rcd
  have hrc := hf.rc
  have hrp := p.tRp_eq
  have hnext : s.next p i = s.configNext p i := by
    unfold Controller.next
    rw [h.state]
  rw [hnext]
  unfold Controller.configNext
  simp only [h.cycle, h.initChip]
  unfold SdramParams.configClocks tMrd at hk ⊢
  -- the precharge sets A10
  by_cases h0 : k = 0
  · refine ⟨s.a ||| 0x400#13, fun _ => or_bit10 s.a, ?_⟩
    have e1 : ¬ k = p.tRp := by omega
    have e2 : ¬ k = p.tRp + p.tRc := by omega
    have e3 : ¬ k = p.tRp + p.tRc + p.tRc := by omega
    have e4 : ¬ k = p.tRp + p.tRc + p.tRc + 2 := by omega
    have e5 : ¬ k + 1 = p.tRp + p.tRc + p.tRc + 2 + 1 := by omega
    simp only [if_neg e1, if_neg e2, if_neg e3, if_neg e4, if_neg e5, if_pos h0]
    rfl
  · -- the mode register, or one of the two refreshes
    by_cases h3 : k = p.tRp + p.tRc + p.tRc
    · refine ⟨s.a.extractLsb' 11 2 ++ Controller.modeReg p, fun h => absurd h h0, ?_⟩
      have e1 : ¬ k = p.tRp := by omega
      have e2 : ¬ k = p.tRp + p.tRc := by omega
      have e4 : ¬ k = p.tRp + p.tRc + p.tRc + 2 := by omega
      have e5 : ¬ k + 1 = p.tRp + p.tRc + p.tRc + 2 + 1 := by omega
      have e6 : ¬ (k = p.tRp ∨ k = p.tRp + p.tRc) := by omega
      simp only [if_neg e1, if_neg e2, if_pos h3, if_neg e4, if_neg e5, if_neg h0, if_neg e6]
      rfl
    · refine ⟨s.a, fun h => absurd h h0, ?_⟩
      have e4 : k = p.tRp + p.tRc + p.tRc + 2 ↔ k + 1 = p.tRp + p.tRc + p.tRc + 2 + 1 := by omega
      simp only [if_neg h0, if_neg h3, e4]
      by_cases h1 : k = p.tRp
      · have e2 : ¬ k = p.tRp + p.tRc := by omega
        simp only [if_pos h1, if_neg e2, if_pos (Or.inl h1 : k = p.tRp ∨ k = p.tRp + p.tRc)]
        rfl
      · by_cases h2 : k = p.tRp + p.tRc
        · simp only [if_neg h1, if_pos h2, if_pos (Or.inr h2 : k = p.tRp ∨ k = p.tRp + p.tRc)]
          rfl
        · simp only [if_neg h1, if_neg h2, if_neg (not_or.2 ⟨h1, h2⟩)]
          rfl

/-- The command decided in clock `k` is on the pins in the next. -/
theorem configBus_succ (a : BitVec 13) (ha : k = 0 → a.getLsbD 10 = true) :
    Controller.bus p { s with
      nCs := chip, a := a
      cmd := if k = 0 then .preCharge else if k = p.tRp ∨ k = p.tRp + p.tRc then .autoRefresh
        else if k = p.tRp + p.tRc + p.tRc then .setModeReg else .nop } = configBus p chip (k + 1) := by
  unfold configBus Controller.bus
  simp only [Nat.add_right_cancel_iff]
  by_cases h0 : k = 0
  · simp only [if_pos h0, if_pos (by omega : k + 1 = 1), ha h0]
  · simp only [if_neg h0, if_neg (by omega : ¬ k + 1 = 1)]
    by_cases h1 : k = p.tRp ∨ k = p.tRp + p.tRc
    · simp only [if_pos h1]
    · by_cases h2 : k = p.tRp + p.tRc + p.tRc
      · simp only [if_neg h1, if_pos h2]
      · simp only [if_neg h1, if_neg h2]

theorem Configuring.next (h : Configuring p chip k s) (hk : k + 1 < p.configClocks) :
    Configuring p chip (k + 1) (s.next p i) := by
  have hf := p.fits
  have hrcd := hf.rcd
  have hrc := hf.rc
  have hrp := p.tRp_eq
  obtain ⟨a, ha, hnext⟩ := h.next_eq (i := i) (by omega)
  rw [hnext]
  simp only [if_neg (by omega : ¬ k + 1 = p.configClocks)]
  refine ⟨h.state, ?_, h.initChip, configBus_succ a ha, h.hiZ⟩
  show (if s.cycle = 31 then s.cycle else s.cycle + 1) = _
  unfold SdramParams.configClocks tMrd at hk
  rw [h.cycle, if_neg (by omega)]

/-- The configuration of the last chip is over. -/
structure Configured (p : SdramParams) (s : Controller) : Prop where
  state : s.state = .idle
  cycle : s.cycle = p.configClocks
  bus : s.bus p = .nop
  hiZ : s.dqOen = true

theorem Configuring.last (h : Configuring p chip k s) (hk : k + 1 = p.configClocks) :
    if p.twoChips && !chip then Configuring p true 0 (s.next p i) else Configured p (s.next p i) := by
  have hf := p.fits
  have hrcd := hf.rcd
  have hrc := hf.rc
  have hrp := p.tRp_eq
  have hk' := hk
  unfold SdramParams.configClocks tMrd at hk'
  have hbus : ∀ (s' : Controller), s'.cmd = .nop → s'.bus p = .nop := by
    intro s' hs'
    unfold Controller.bus
    rw [hs']
  have hcmd : (if k = 0 then Cmd.preCharge else if k = p.tRp ∨ k = p.tRp + p.tRc then .autoRefresh
      else if k = p.tRp + p.tRc + p.tRc then .setModeReg else .nop) = .nop := by
    rw [if_neg (by omega), if_neg (by omega), if_neg (by omega)]
  obtain ⟨a, -, hnext⟩ := h.next_eq (i := i) (by omega)
  rw [hnext]
  simp only [if_pos hk]
  by_cases hc : (p.twoChips && !chip) = true
  · rw [if_pos hc, if_pos hc]
    exact ⟨h.state, rfl, rfl, hbus _ hcmd, h.hiZ⟩
  · rw [if_neg hc, if_neg hc]
    refine ⟨rfl, ?_, hbus _ hcmd, h.hiZ⟩
    show (if s.cycle = 31 then s.cycle else s.cycle + 1) = _
    rw [h.cycle, if_neg (by omega)]
    exact hk

end Config

/-! ## Power-up -/

/-- The registers while the power-up delay runs. -/
structure PoweringUp (p : SdramParams) (s : Controller) : Prop where
  state : s.state = .init
  initChip : s.initChip = false
  bus : s.bus p = .nop
  hiZ : s.dqOen = true

section PowerUp

variable {p : SdramParams} {s : Controller} {i : SdramIn}

theorem PoweringUp.reset (s : Controller) : PoweringUp p s.reset := ⟨rfl, rfl, rfl, rfl⟩

theorem PoweringUp.next (h : PoweringUp p s) :
    if i.cfgNow then Configuring p false 0 (s.next p i) else PoweringUp p (s.next p i) := by
  have hnext : s.next p i = s.initNext p i := by
    unfold Controller.next
    rw [h.state]
  rw [hnext]
  unfold Controller.initNext
  by_cases hc : i.cfgNow = true
  · rw [if_pos hc, if_pos hc]
    exact ⟨rfl, rfl, h.initChip, rfl, rfl⟩
  · rw [if_neg hc, if_neg hc]
    exact ⟨h.state, h.initChip, rfl, rfl⟩

end PowerUp

/-! ## Rest -/

/-- A clock of `IDLE` that neither refreshes nor accepts a request. -/
theorem Controller.rest {p : SdramParams} {s : Controller} {i : SdramIn} (hs : s.state = .idle)
    (hr : s.refreshes i = false) (ha : s.accepts i = none) :
    ∃ busy, s.next p i = { s.tick p i with busyBuf := busy } := by
  have hnext : s.next p i = s.idleNext p i := by
    unfold Controller.next
    rw [hs]
  rw [hnext]
  unfold Controller.idleNext
  unfold Controller.refreshes at hr
  unfold Controller.accepts at ha
  by_cases hn : i.nce = true
  · rw [if_pos hn]
    exact ⟨s.busyBuf, rfl⟩
  · have hn' : i.nce = false := by simpa using hn
    have hr' : (s.needRefresh && i.refreshAllowed) = false := by simpa [hs, hn'] using hr
    have hg : grant i = none := by simpa [hs, hn', hr'] using ha
    simp only [hn', hr', hg, Bool.false_eq_true, if_false]
    exact ⟨false, rfl⟩

/-! ## Every clock -/

/-- The registers that every clock sets, and few states touch after that. -/
structure Ticked where
  dqR : BitVec 16
  needRefresh : Bool
  refreshCnt : Nat
  readyPulse : Option Port
  dataRespPulse : Bool
  burstDonePulse : Bool

namespace Controller

def ticked (s : Controller) : Ticked :=
  ⟨s.dqR, s.needRefresh, s.refreshCnt, s.readyPulse, s.dataRespPulse, s.burstDonePulse⟩

variable {p : SdramParams} {s : Controller} {i : SdramIn} {port : Port} {b : Controller}

theorem ticked_accept (q : SdramReq) : (accept p port q b).ticked = { b.ticked with readyPulse := some port } := by
  unfold accept
  extract_lets b'
  apply Clocked.ite_keeps ticked
  · iterate 3 refine Clocked.ite_keeps ticked rfl ?_
    rfl
  · rfl

theorem ticked_configNext : ∃ cnt, (s.configNext p i).ticked = { (s.tick p i).ticked with refreshCnt := cnt } ∧
    (cnt = (s.tick p i).refreshCnt ∨ cnt = 0) := by
  unfold configNext
  extract_lets t b₀ b₁ b₂ b₃ b₄
  have h₁ : b₁.ticked = (s.tick p i).ticked := Clocked.ite_keeps ticked rfl rfl
  have h₂ : b₂.ticked = (s.tick p i).ticked := Clocked.ite_keeps ticked h₁ h₁
  have h₃ : b₃.ticked = (s.tick p i).ticked := Clocked.ite_keeps ticked h₂ h₂
  have h₄ : b₄.ticked = (s.tick p i).ticked := Clocked.ite_keeps ticked h₃ h₃
  split
  · split
    · exact ⟨_, h₄, .inl rfl⟩
    · exact ⟨0, congrArg (fun t : Ticked => { t with refreshCnt := 0 }) h₄, .inr rfl⟩
  · exact ⟨_, h₄, .inl rfl⟩

theorem ticked_readNext : ∃ resp done,
    (s.readNext p i).ticked = { (s.tick p i).ticked with dataRespPulse := resp, burstDonePulse := done } := by
  have hissue : (s.readIssue p (s.tick p i)).ticked = (s.tick p i).ticked := Clocked.ite_keeps ticked rfl rfl
  unfold readNext readCapture
  rw [← hissue]
  generalize s.readIssue p (s.tick p i) = b
  extract_lets b' word b''
  split
  · split
    · exact ⟨b.dataRespPulse, b.burstDonePulse, rfl⟩
    · split
      · exact ⟨true, true, rfl⟩
      · exact ⟨true, b.burstDonePulse, rfl⟩
  · exact ⟨b.dataRespPulse, b.burstDonePulse, rfl⟩

theorem ticked_writeNext : (s.writeNext p i).ticked = (s.tick p i).ticked := by
  unfold writeNext
  extract_lets b₀ b₁ b₂ b₃
  have h₁ : b₁.ticked = (s.tick p i).ticked := Clocked.ite_keeps ticked rfl rfl
  have h₂ : b₂.ticked = (s.tick p i).ticked := Clocked.ite_keeps ticked h₁ h₁
  have h₃ : b₃.ticked = (s.tick p i).ticked := Clocked.ite_keeps ticked h₂ h₂
  exact Clocked.ite_keeps ticked h₃ h₃

/-- Outside `IDLE` only the end of the configuration touches the counter, and only `READ` answers. -/
theorem ticked_next (hs : s.state ≠ .idle) : ∃ cnt resp done,
    (s.next p i).ticked =
        { (s.tick p i).ticked with refreshCnt := cnt, dataRespPulse := resp, burstDonePulse := done } ∧
      (cnt = (s.tick p i).refreshCnt ∨ cnt = 0 ∧ s.state = .config) ∧
      (s.state ≠ .read → resp = false ∧ done = false) := by
  unfold next
  cases hstate : s.state with
  | init => exact ⟨_, _, _, Clocked.ite_keeps ticked rfl rfl, .inl rfl, fun _ => ⟨rfl, rfl⟩⟩
  | config =>
    obtain ⟨cnt, hnext, hcnt⟩ := ticked_configNext (p := p) (s := s) (i := i)
    exact ⟨cnt, false, false, hnext, hcnt.imp id fun h => ⟨h, rfl⟩, fun _ => ⟨rfl, rfl⟩⟩
  | idle => exact absurd hstate hs
  | read =>
    obtain ⟨resp, done, hnext⟩ := ticked_readNext (p := p) (s := s) (i := i)
    exact ⟨_, resp, done, hnext, .inl rfl, fun h => absurd rfl h⟩
  | rmwRead =>
    have hissue : (s.rmwIssue p (s.tick p i)).ticked = (s.tick p i).ticked := Clocked.ite_keeps ticked rfl rfl
    exact ⟨_, _, _, Clocked.ite_keeps ticked (Clocked.ite_keeps ticked hissue hissue) hissue, .inl rfl, fun _ => ⟨rfl, rfl⟩⟩
  | write => exact ⟨_, _, _, ticked_writeNext, .inl rfl, fun _ => ⟨rfl, rfl⟩⟩
  | refresh => exact ⟨_, _, _, Clocked.ite_keeps ticked (Clocked.ite_keeps ticked rfl rfl) (Clocked.ite_keeps ticked rfl rfl), .inl rfl, fun _ => ⟨rfl, rfl⟩⟩
  | rmwAct => exact ⟨_, _, _, Clocked.ite_keeps ticked rfl rfl, .inl rfl, fun _ => ⟨rfl, rfl⟩⟩

theorem accepts_of_refreshes (h : s.refreshes i = true) : s.accepts i = none := by
  obtain ⟨-, -, hr⟩ := idle_of_refreshes h
  unfold accepts
  rw [hr, Bool.not_true, Bool.and_false, if_neg Bool.false_ne_true]

theorem refreshes_of_accepts (ha : s.accepts i = some port) : s.refreshes i = false := by
  by_contra hr
  rw [Bool.not_eq_false] at hr
  rw [accepts_of_refreshes hr] at ha
  cases ha

/-- In `IDLE` a refresh sets the counter back, and an accepted request is answered. -/
theorem ticked_idle (hs : s.state = .idle) : (s.next p i).ticked =
    { (s.tick p i).ticked with
      refreshCnt := if s.refreshes i = true then 0 else (s.tick p i).refreshCnt, readyPulse := s.accepts i } := by
  cases hr : s.refreshes i with
  | true =>
    rw [next_of_refreshes hr, accepts_of_refreshes hr, if_pos rfl]
    rfl
  | false =>
    rw [if_neg Bool.false_ne_true]
    cases ha : s.accepts i with
    | none =>
      obtain ⟨busy, hnext⟩ := rest (p := p) hs hr ha
      rw [hnext]
      rfl
    | some port =>
      rw [next_of_accepts ha, ticked_accept]
      rfl

end Controller

/-! ## Runs -/

/-- A run of the controller out of reset. -/
structure SdramRun where
  p : SdramParams
  inp : Nat → SdramIn
  regs : Nat → Controller
  powerUp : Controller
  start : regs 0 = powerUp.reset
  succ : ∀ t, regs (t + 1) = (regs t).step p (inp t)
  resetn : ∀ t, (inp t).resetn = true

def runOf (p : SdramParams) (inp : Nat → SdramIn) (h : ∀ t, (inp t).resetn = true) : SdramRun where
  p := p
  inp := inp
  regs := Clocked.run (Controller.step p) (Controller.reset default) inp
  powerUp := default
  start := rfl
  succ := fun _ => rfl
  resetn := h

namespace SdramRun

variable (r : SdramRun) {t k : Nat} {port : Port}

/-- The port whose request is accepted in clock `t`. -/
def accepts (t : Nat) : Option Port := (r.regs t).accepts (r.inp t)

def refreshes (t : Nat) : Bool := (r.regs t).refreshes (r.inp t)

def bus (t : Nat) : BusCmd := (r.regs t).bus r.p

/-- The configuration is over. -/
def configured (t : Nat) : Prop := ∃ u, u ≤ t ∧ (r.regs u).state = .idle

/-- `AUTO REFRESH` is on the pins of chip 0 in clock `t` and on those of chip 1, if there is one, in the next. -/
def refreshesAll (t : Nat) : Prop := r.bus t = .refresh false ∧ (r.p.twoChips = true → r.bus (t + 1) = .refresh true)

theorem next (t : Nat) : r.regs (t + 1) = (r.regs t).next r.p (r.inp t) := by
  rw [r.succ t]
  unfold Controller.step
  rw [r.resetn t, if_pos rfl]

variable {r}

section Accepted

variable (ha : r.accepts t = some port) (hz : (r.regs t).dqOen = true)
include ha hz

/-- A read from the clock that accepts it on. -/
theorem reading (hr : ((r.inp t).req port).wr = false) (hk : 1 ≤ k)
    (hle : k ≤ r.p.readClocks ((r.inp t).req port)) :
    Reading r.p port ((r.inp t).req port) k (r.regs (t + k)) := by
  induction k, hk using Nat.le_induction with
  | base =>
    rw [r.next]
    exact Reading.start hz ha hr
  | succ k hk ih =>
    rw [← Nat.add_assoc, r.next]
    exact (ih (by omega)).next hk (by omega)

theorem writing (hw : ((r.inp t).req port).wr = true) (hn : ((r.inp t).req port).needsOld r.p = false) (hk : 1 ≤ k)
    (hle : k ≤ (((r.inp t).req port).job r.p).clocks r.p) :
    Writing r.p port (((r.inp t).req port).job r.p) (some port) k (r.regs (t + k)) := by
  induction k, hk using Nat.le_induction with
  | base =>
    rw [r.next]
    exact Writing.start hz ha hw hn
  | succ k hk ih =>
    rw [← Nat.add_assoc, r.next]
    exact (ih (by omega)).next hk (by omega)

/-- The reading of the old dword of a write. -/
theorem oldReading (hw : ((r.inp t).req port).wr = true) (hn : ((r.inp t).req port).needsOld r.p = true) (hk : 1 ≤ k)
    (hle : k ≤ r.p.rmwClocks ((r.inp t).req port)) :
    OldReading r.p port ((r.inp t).req port) (r.regs (t + k)).rmwOldData k (r.regs (t + k)) := by
  induction k, hk using Nat.le_induction with
  | base =>
    have h := OldReading.start (p := r.p) hz ha hw hn
    rw [← r.next] at h
    rw [h.old_eq]
    exact h
  | succ k hk ih =>
    have h := (ih (by omega)).next (i := r.inp (t + k)) hk (by omega)
    rw [← r.next] at h
    rw [← Nat.add_assoc, h.old_eq]
    exact h

theorem rewriting (hw : ((r.inp t).req port).wr = true) (hn : ((r.inp t).req port).needsOld r.p = true) (hk : 1 ≤ k)
    (hle : k ≤ (((r.inp t).req port).job r.p).clocks r.p) :
    Writing r.p port
      (((r.inp t).req port).mergedJob r.p (r.regs (t + r.p.rmwClocks ((r.inp t).req port))).rmwOldData) none k
      (r.regs (t + r.p.rmwClocks ((r.inp t).req port) + k)) := by
  induction k, hk using Nat.le_induction with
  | base =>
    have hpos : 1 ≤ r.p.rmwClocks ((r.inp t).req port) := by
      unfold SdramParams.rmwClocks SdramParams.readStart
      omega
    rw [r.next]
    exact (r.oldReading ha hz hw hn hpos le_rfl).reopen
  | succ k hk ih =>
    rw [← Nat.add_assoc, r.next]
    exact (ih (by omega)).next hk hle

/-- An access from the clock that accepts its request on. -/
theorem access (hk : 1 ≤ k) (hle : k ≤ ((r.inp t).req port).clocks r.p) :
    Access r.p ((r.inp t).req port) k (r.regs (t + k)) := by
  unfold SdramReq.clocks at hle
  cases hw : ((r.inp t).req port).wr
  · rw [hw, if_neg (by decide)] at hle
    exact (reading ha hz hw hk hle).access hw
  · rw [hw, if_pos rfl] at hle
    cases hn : ((r.inp t).req port).needsOld r.p
    · rw [hn, if_neg (by decide)] at hle
      exact (writing ha hz hw hn hk hle).access hw hn
    · rw [hn, if_pos rfl] at hle
      by_cases hk' : k ≤ r.p.rmwClocks ((r.inp t).req port)
      · exact (oldReading ha hz hw hn hk hk').access hw hn hk'
      · have h := (rewriting (k := k - r.p.rmwClocks ((r.inp t).req port)) ha hz hw hn (by omega) (by omega)).access_merged
          hw hn (by omega)
        rw [Nat.add_assoc,
          (by omega : r.p.rmwClocks ((r.inp t).req port) + (k - r.p.rmwClocks ((r.inp t).req port)) = k)] at h
        exact h

end Accepted

/-- A refresh from the clock that decides it on. -/
theorem refreshing (hr : r.refreshes t = true) (hz : (r.regs t).dqOen = true) (hk : 1 ≤ k) (hle : k ≤ r.p.tRc + 1) :
    Refreshing r.p k (r.regs (t + k)) := by
  induction k, hk using Nat.le_induction with
  | base =>
    rw [r.next]
    exact Refreshing.start hr hz
  | succ k hk ih =>
    rw [← Nat.add_assoc, r.next]
    exact (ih (by omega)).next hk (by omega)

/-- The configuration of a chip. -/
theorem configuring {chip : Bool} (h : Configuring r.p chip 0 (r.regs t)) (hk : k < r.p.configClocks) :
    Configuring r.p chip k (r.regs (t + k)) := by
  induction k with
  | zero => exact h
  | succ k ih =>
    rw [← Nat.add_assoc, r.next]
    exact (ih (by omega)).next hk

theorem refreshes_idle (h : r.refreshes t = true) : (r.regs t).state = .idle := (Controller.idle_of_refreshes h).1

theorem accepts_of_not_idle (h : (r.regs t).state ≠ .idle) : r.accepts t = none := by
  unfold accepts Controller.accepts
  rw [beq_false_of_ne h]
  rfl

theorem accepts_of_refreshes (h : r.refreshes t = true) : r.accepts t = none := Controller.accepts_of_refreshes h

/-- What a proof about every clock of a run shows of each kind of round: `P` before the configuration,
`C` before that of each chip, `I` in `IDLE`. -/
structure RoundProof (r : SdramRun) (P : Nat → Prop) (C : Bool → Nat → Prop) (I J : Nat → Prop) : Prop where
  start : P 0
  power : ∀ t, PoweringUp r.p (r.regs t) → r.bus (t + 1) = .nop → P t → J t ∧ P (t + 1) ∧ C false (t + 1)
  config : ∀ t chip, (chip = true → r.p.twoChips = true) →
    (∀ k, k < r.p.configClocks → Configuring r.p chip k (r.regs (t + k))) →
    r.bus (t + r.p.configClocks) = .nop → C chip t →
    (∀ k, k < r.p.configClocks → J (t + k)) ∧
      (chip = false → r.p.twoChips = true → C true (t + r.p.configClocks)) ∧
      (chip = r.p.twoChips → Configured r.p (r.regs (t + r.p.configClocks)) → I (t + r.p.configClocks))
  rest : ∀ t, (r.regs t).state = .idle → (r.regs t).dqOen = true → r.refreshes t = false → r.accepts t = none →
    I t → J t ∧ I (t + 1)
  refresh : ∀ t, r.refreshes t = true → (r.regs t).dqOen = true →
    (∀ k, 1 ≤ k → k ≤ r.p.tRc + 1 → Refreshing r.p k (r.regs (t + k))) → I t →
      (∀ k, k ≤ r.p.tRc → J (t + k)) ∧ I (t + (r.p.tRc + 1))
  access : ∀ t port, r.accepts t = some port → (r.regs t).dqOen = true →
    (∀ k, 1 ≤ k → k ≤ ((r.inp t).req port).clocks r.p → Access r.p ((r.inp t).req port) k (r.regs (t + k))) → I t →
    (∀ k, k < ((r.inp t).req port).clocks r.p → J (t + k)) ∧ I (t + ((r.inp t).req port).clocks r.p)

theorem clocks_pos (p : SdramParams) (q : SdramReq) : 3 ≤ q.clocks p := by
  have hf := p.fits.rcd
  have hlt := (q.job p).lt_clocks (p := p)
  have he := q.effBurst_pos
  unfold SdramReq.clocks
  split
  · split <;> omega
  · unfold SdramParams.readClocks SdramParams.readStart
    omega

/-- The clocks of a run, round by round. -/
theorem RoundProof.holds {P I J : Nat → Prop} {C : Bool → Nat → Prop} (h : RoundProof r P C I J) (t : Nat) : J t := by
  refine Clocked.rounds (I := fun t => (PoweringUp r.p (r.regs t) ∧ P t) ∨
    (∃ chip, (chip = true → r.p.twoChips = true) ∧ Configuring r.p chip 0 (r.regs t) ∧ C chip t) ∨
    ((r.regs t).state = .idle ∧ (r.regs t).dqOen = true ∧ I t)) ?_ ?_ t
  · refine Or.inl ⟨?_, h.start⟩
    rw [r.start]
    exact PoweringUp.reset _
  · rintro t (⟨hp, hP⟩ | ⟨chip, hchip, hc, hC⟩ | ⟨hs, hz, hI⟩)
    · -- power-up, one clock a round
      have hnext := hp.next (i := r.inp t)
      rw [← r.next] at hnext
      have hbus : r.bus (t + 1) = .nop := by
        split at hnext
        · exact hnext.bus
        · exact hnext.bus
      obtain ⟨hJ, hP', hC'⟩ := h.power t hp hbus hP
      refine ⟨1, Nat.one_pos, ?_, ?_⟩
      · rintro k hk
        rw [(by omega : t + k = t)]
        exact hJ
      · by_cases hcfg : (r.inp t).cfgNow = true
        · rw [if_pos hcfg] at hnext
          exact Or.inr (Or.inl ⟨false, nofun, hnext, hC'⟩)
        · rw [if_neg hcfg] at hnext
          exact Or.inl ⟨hnext, hP'⟩
    · -- the configuration of a chip, followed by that of the other one or by `IDLE`
      have hconf := fun k hk => r.configuring (k := k) hc hk
      have hpos : r.p.configClocks - 1 + 1 = r.p.configClocks := rfl
      have hend := (hconf (r.p.configClocks - 1) (by omega)).last (i := r.inp (t + (r.p.configClocks - 1))) hpos
      rw [← r.next, Nat.add_assoc, hpos] at hend
      have hbus : r.bus (t + r.p.configClocks) = .nop := by
        split at hend
        · exact hend.bus
        · exact hend.bus
      obtain ⟨hJ, hnext, hlast⟩ := h.config t chip hchip hconf hbus hC
      refine ⟨r.p.configClocks, by omega, hJ, ?_⟩
      by_cases hc : (r.p.twoChips && !chip) = true
      · rw [if_pos hc] at hend
        simp only [Bool.and_eq_true, Bool.not_eq_true'] at hc
        exact Or.inr (Or.inl ⟨true, fun _ => hc.1, hend, hnext hc.2 hc.1⟩)
      · rw [if_neg hc] at hend
        have heq : chip = r.p.twoChips := by
          cases chip <;> cases htwo : r.p.twoChips <;> simp_all
        exact Or.inr (Or.inr ⟨hend.state, hend.hiZ, hlast heq hend⟩)
    · -- in `IDLE` a refresh, an access or a clock of rest
      by_cases hr : r.refreshes t = true
      · have hsteps := fun k hk hle => r.refreshing (k := k) hr hz hk hle
        obtain ⟨hJ, hI'⟩ := h.refresh t hr hz hsteps hI
        have hend := hsteps (r.p.tRc + 1) (by omega) le_rfl
        refine ⟨r.p.tRc + 1, by omega, fun k hk => hJ k (by omega), Or.inr (Or.inr ⟨?_, hend.hiZ, hI'⟩)⟩
        rw [hend.state, if_neg (by omega)]
      · have hr' : r.refreshes t = false := by simpa using hr
        cases ha : r.accepts t with
        | none =>
          obtain ⟨busy, hnext⟩ := Controller.rest (p := r.p) hs hr' ha
          rw [← r.next] at hnext
          have hs' : (r.regs (t + 1)).state = .idle := by
            rw [hnext]
            exact hs
          obtain ⟨hJ, hI'⟩ := h.rest t hs hz hr' ha hI
          refine ⟨1, Nat.one_pos, ?_, Or.inr (Or.inr ⟨hs', ?_, hI'⟩)⟩
          · rintro k hk
            rw [(by omega : t + k = t)]
            exact hJ
          · rw [hnext]
            exact hz
        | some port =>
          have hsteps := fun k hk hle => r.access (k := k) ha hz hk hle
          obtain ⟨hJ, hI'⟩ := h.access t port ha hz hsteps hI
          have hpos := clocks_pos r.p ((r.inp t).req port)
          have hend := hsteps _ (by omega) le_rfl
          exact ⟨_, by omega, hJ, Or.inr (Or.inr ⟨hend.idle rfl, hend.hiZ rfl, hI'⟩)⟩

/-- What holds when the configuration is over and is kept from one `IDLE` clock to the next. -/
theorem idle_invariant {I : Nat → Prop} (config : ∀ t, Configured r.p (r.regs t) → I t)
    (rest : ∀ t, (r.regs t).state = .idle → r.refreshes t = false → r.accepts t = none → I t → I (t + 1))
    (refresh : ∀ t, (∀ k, 1 ≤ k → k ≤ r.p.tRc + 1 → Refreshing r.p k (r.regs (t + k))) → I t → I (t + (r.p.tRc + 1)))
    (access : ∀ t port, (∀ k, 1 ≤ k → k ≤ ((r.inp t).req port).clocks r.p →
      Access r.p ((r.inp t).req port) k (r.regs (t + k))) → I t → I (t + ((r.inp t).req port).clocks r.p)) :
    (r.regs t).state = .idle → I t := by
  refine RoundProof.holds (r := r) (P := fun _ => True) (C := fun _ _ => True) (I := I)
    (J := fun t => (r.regs t).state = .idle → I t) ?_ t
  constructor
  · exact trivial
  · rintro t hp - -
    refine ⟨fun hi => ?_, trivial, trivial⟩
    rw [hp.state] at hi
    cases hi
  · rintro t chip - hs - -
    refine ⟨fun k hk hi => ?_, fun _ _ => trivial, fun _ hend => config _ hend⟩
    rw [(hs k hk).state] at hi
    cases hi
  · rintro t hs - hr ha hI
    exact ⟨fun _ => hI, rest t hs hr ha hI⟩
  · rintro t - - hs hI
    refine ⟨?_, refresh t hs hI⟩
    rintro (_ | k) hk hi
    · exact hI
    · rw [(hs (k + 1) (by omega) (by omega)).state, if_pos (by omega)] at hi
      cases hi
  · rintro t port - - hs hI
    refine ⟨?_, access t port hs hI⟩
    rintro (_ | k) hk hi
    · exact hI
    · have hbusy := (hs (k + 1) (by omega) hk.le).busy hk
      rw [hi] at hbusy
      cases hbusy

/-- What holds in every clock of every round holds from the end of the configuration on. -/
theorem configured_rounds {J : Nat → Prop}
    (rest : ∀ t, (r.regs t).state = .idle → r.refreshes t = false → r.accepts t = none → J t)
    (refresh : ∀ t, r.refreshes t = true → (∀ k, 1 ≤ k → k ≤ r.p.tRc + 1 → Refreshing r.p k (r.regs (t + k))) →
      ∀ k, k ≤ r.p.tRc → J (t + k))
    (access : ∀ t port, r.accepts t = some port → (∀ k, 1 ≤ k → k ≤ ((r.inp t).req port).clocks r.p →
      Access r.p ((r.inp t).req port) k (r.regs (t + k))) →
      ∀ k, k < ((r.inp t).req port).clocks r.p → J (t + k)) : r.configured t → J t := by
  -- a clock before the end of the configuration has no `IDLE` clock before it
  refine RoundProof.holds (r := r) (P := fun t => ∀ u, u < t → (r.regs u).state ≠ .idle)
    (C := fun _ t => ∀ u, u < t → (r.regs u).state ≠ .idle) (I := fun _ => True)
    (J := fun t => r.configured t → J t) ?_ t
  constructor
  · intro u hu
    omega
  · rintro t hp - hP
    have hnot : ∀ u, u < t + 1 → (r.regs u).state ≠ .idle := by
      intro u hu
      rcases Nat.lt_or_ge u t with h | h
      · exact hP u h
      · rw [(by omega : u = t), hp.state]
        decide
    refine ⟨?_, hnot, hnot⟩
    rintro ⟨u, hu, hs⟩
    exact absurd hs (hnot u (by omega))
  · rintro t chip - hc - hC
    have hnot : ∀ u, u < t + r.p.configClocks → (r.regs u).state ≠ .idle := by
      intro u hu
      rcases Nat.lt_or_ge u t with h | h
      · exact hC u h
      · have hs := (hc (u - t) (by omega)).state
        rw [Nat.add_sub_cancel' h] at hs
        rw [hs]
        decide
    refine ⟨?_, fun _ _ => hnot, fun _ _ => trivial⟩
    rintro k hk ⟨u, hu, hs⟩
    exact absurd hs (hnot u (by omega))
  · rintro t hs - hr ha -
    exact ⟨fun _ => rest t hs hr ha, trivial⟩
  · rintro t hr - hs -
    exact ⟨fun k hk _ => refresh t hr hs k hk, trivial⟩
  · rintro t port ha - hs -
    exact ⟨fun k hk _ => access t port ha hs k hk, trivial⟩

/-- Nothing drives the data pins in `IDLE`. -/
theorem hiZ_of_idle : (r.regs t).state = .idle → (r.regs t).dqOen = true := by
  refine r.idle_invariant (I := fun t => (r.regs t).dqOen = true) ?_ ?_ ?_ ?_
  · exact fun t h => h.hiZ
  · intro t hs hr ha hI
    obtain ⟨busy, hnext⟩ := Controller.rest (p := r.p) hs hr ha
    rw [r.next, hnext]
    exact hI
  · exact fun t hs _ => (hs _ (by omega) le_rfl).hiZ
  · intro t port hs _
    have hpos := clocks_pos r.p ((r.inp t).req port)
    exact (hs _ (by omega) le_rfl).hiZ rfl

theorem refreshesAll_succ (hr : r.refreshes t = true) : r.refreshesAll (t + 1) := by
  have hz := r.hiZ_of_idle (r.refreshes_idle hr)
  have hrc := r.p.fits.rc
  constructor
  · exact (r.refreshing hr hz le_rfl (by omega)).bus
  · intro htwo
    refine (r.refreshing hr hz (k := 2) (by decide) (by omega)).bus.trans ?_
    unfold refreshBus
    rw [if_neg (by decide), if_pos ⟨rfl, htwo⟩]

end SdramRun

end Z486.Sdram
