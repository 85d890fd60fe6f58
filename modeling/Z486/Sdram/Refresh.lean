/-
The refresh request of the SDRAM controller. A free-running counter raises it, and clears it again when
it wraps: a request is served only when the state machine is back in `IDLE` in time.
-/
import Z486.Sdram.Access

namespace Z486.Sdram

/-! ## The counter and the request -/

namespace Controller

variable (p : SdramParams) (s : Controller) (i : SdramIn)

/-- Outside `IDLE` only the end of the configuration touches the counter. -/
theorem counts_of_not_idle (hs : s.state ≠ .idle) : (s.next p i).needRefresh = (s.tick p i).needRefresh ∧
    ((s.next p i).refreshCnt = (s.tick p i).refreshCnt ∨ ((s.next p i).refreshCnt = 0 ∧ s.state = .config)) := by
  obtain ⟨cnt, resp, done, hnext, hcnt, -⟩ := ticked_next (p := p) (i := i) hs
  have hcount : (s.next p i).refreshCnt = cnt := congrArg Ticked.refreshCnt hnext
  constructor
  · exact congrArg Ticked.needRefresh hnext
  · rw [hcount]
    exact hcnt

theorem counts_of_idle (hs : s.state = .idle) : (s.next p i).needRefresh = (s.tick p i).needRefresh ∧
    (s.next p i).refreshCnt = if s.refreshes i = true then 0 else (s.tick p i).refreshCnt :=
  ⟨congrArg Ticked.needRefresh (ticked_idle hs), congrArg Ticked.refreshCnt (ticked_idle hs)⟩

end Controller

theorem SdramParams.lt_pow (p : SdramParams) : p.refreshCycles < 2 ^ p.refreshCntW := by
  unfold SdramParams.refreshCntW
  split
  · assumption
  · exact Nat.le_pow_clog (by decide) _

/-- A refresh itself is over before the counter wraps. -/
theorem SdramParams.tRc_le_pow (p : SdramParams) (h : 2 ≤ p.refreshCycles) : p.tRc ≤ 2 ^ p.refreshCntW := by
  have hlt := p.lt_pow
  have hrc := p.fits.rc
  by_cases hf : p.freq ≤ freq66
  · have h4 : p.tRc = 4 := by
      unfold SdramParams.tRc
      rw [if_pos hf]
    have hw : 2 ≤ p.refreshCntW := by
      by_contra hw
      have hle : 2 ^ p.refreshCntW ≤ 2 ^ 1 := Nat.pow_le_pow_right (by decide) (by omega)
      omega
    have hle : 2 ^ 2 ≤ 2 ^ p.refreshCntW := Nat.pow_le_pow_right (by decide) hw
    omega
  · have hbig : 585 ≤ p.refreshCycles := by
      unfold SdramParams.refreshCycles
      unfold freq66 at hf
      omega
    omega

/-- The clocks of the longest access, a read of 15 dwords: from the one that accepts it to the one that is back in
`IDLE`, both counted. -/
def SdramParams.longestTransaction (p : SdramParams) : Nat := p.readStart + 2 * 15 + 1

theorem SdramReq.clocks_lt_longest (p : SdramParams) (q : SdramReq) : q.clocks p < p.longestTransaction := by
  have hj := (q.job p).clocks_le (p := p)
  have ho := q.oldHalfs_le p
  have he := q.effBurst_le
  unfold SdramReq.clocks SdramParams.longestTransaction SdramParams.rmwClocks SdramParams.readClocks
  split_ifs <;> omega

namespace SdramRun

variable (r : SdramRun) {t k n : Nat} {port : Port}

def need (t : Nat) : Bool := (r.regs t).needRefresh

def cnt (t : Nat) : Nat := (r.regs t).refreshCnt

/-- In clock `t` no refresh request is dropped, and a refresh is not far. -/
structure KeepsRefreshing (t : Nat) : Prop where
  kept : r.need t = true → r.need (t + 1) = false → r.refreshesAll t ∨ r.refreshesAll (t + 1)
  often : ∃ v, t < v ∧ v ≤ t + r.p.refreshCycles + r.p.longestTransaction ∧ r.refreshesAll v

variable {r}

theorem need_next (t : Nat) : r.need (t + 1) =
    if r.cnt t = 0 then false else if r.cnt t = r.p.refreshCycles then true else r.need t := by
  unfold need cnt
  rw [r.next]
  by_cases hs : (r.regs t).state = .idle
  · exact (Controller.counts_of_idle _ _ _ hs).1
  · exact (Controller.counts_of_not_idle _ _ _ hs).1

/-- While nothing sets the counter back, the request is up from the clock after it reaches its end. -/
theorem need_runs {c n : Nat} (hrc : 1 ≤ r.p.refreshCycles) (hcnt : ∀ k, k < n → r.cnt (t + k) = c + k)
    (h0 : r.need t = decide (r.p.refreshCycles < c)) (hk : k ≤ n) :
    r.need (t + k) = decide (r.p.refreshCycles < c + k) := by
  induction k with
  | zero => exact h0
  | succ k ih =>
    rw [← Nat.add_assoc, r.need_next, hcnt k (by omega), ih (by omega)]
    split_ifs
    · exact (decide_eq_false (by omega)).symm
    · exact (decide_eq_true (by omega)).symm
    · rw [decide_eq_decide]
      omega

/-- No request is up before the counter has come to its end. -/
theorem cnt_le (hrc : 1 ≤ r.p.refreshCycles) : ∀ t, r.need t = false → r.cnt t ≤ r.p.refreshCycles := by
  intro t
  induction t with
  | zero =>
    intro _
    unfold cnt
    rw [r.start]
    exact Nat.zero_le _
  | succ t ih =>
    intro hn
    have hstep : r.cnt (t + 1) = (r.cnt t + 1) % 2 ^ r.p.refreshCntW ∨ r.cnt (t + 1) = 0 := by
      unfold cnt
      rw [r.next]
      by_cases hs : (r.regs t).state = .idle
      · rw [(Controller.counts_of_idle _ _ _ hs).2]
        split
        · exact Or.inr rfl
        · exact Or.inl rfl
      · exact (Controller.counts_of_not_idle _ _ _ hs).2.imp id And.left
    have hmod := Nat.mod_le (r.cnt t + 1) (2 ^ r.p.refreshCntW)
    rw [r.need_next] at hn
    split_ifs at hn
    · omega
    · have := ih hn
      omega

/-! ## Accesses and refreshes -/

theorem need_of_accepts (hallow : ∀ t, (r.inp t).refreshAllowed = true) (ha : r.accepts t = some port) :
    r.need t = false := by
  unfold accepts Controller.accepts at ha
  unfold need
  rw [hallow t, Bool.and_true] at ha
  split at ha
  · rename_i hc
    simp only [Bool.and_eq_true, Bool.not_eq_true'] at hc
    exact hc.2
  · cases ha

/-- The counter runs through an access. -/
theorem cnt_succ_during (ha : r.accepts t = some port) (hk : k < ((r.inp t).req port).clocks r.p) :
    r.cnt (t + k + 1) = (r.cnt (t + k) + 1) % 2 ^ r.p.refreshCntW := by
  have hs := Controller.state_of_accepts ha
  unfold cnt
  rw [r.next]
  rcases Nat.eq_zero_or_pos k with hk0 | hk0
  · have hr : (r.regs t).refreshes (r.inp t) = false := Controller.refreshes_of_accepts ha
    subst hk0
    rw [Nat.add_zero, (Controller.counts_of_idle _ _ _ hs).2, hr, if_neg (by decide)]
    rfl
  · have hbusy := (r.access ha (r.hiZ_of_idle hs) (k := k) hk0 (by omega)).busy (by omega)
    have hne : (r.regs (t + k)).state ≠ .idle := by
      intro he
      rw [he] at hbusy
      cases hbusy
    rcases (Controller.counts_of_not_idle r.p _ (r.inp (t + k)) hne).2 with h | ⟨-, h⟩
    · exact h
    · rw [h] at hbusy
      cases hbusy

theorem cnt_during (ha : r.accepts t = some port) (hk : k ≤ ((r.inp t).req port).clocks r.p)
    (hlt : r.cnt t + k < 2 ^ r.p.refreshCntW) : r.cnt (t + k) = r.cnt t + k := by
  induction k with
  | zero => rfl
  | succ k ih =>
    rw [← Nat.add_assoc, cnt_succ_during ha (by omega), ih (by omega) (by omega), Nat.mod_eq_of_lt (by omega),
      Nat.add_assoc]

section Env

variable (hnce : ∀ t, (r.inp t).nce = false) (hallow : ∀ t, (r.inp t).refreshAllowed = true)
  (hrc : 2 ≤ r.p.refreshCycles)
  (hin : ∀ t port, r.accepts t = some port →
    r.cnt t + ((r.inp t).req port).clocks r.p ≤ 2 ^ r.p.refreshCntW)

include hallow hrc in
/-- A request that comes up during an access is still up when it ends. -/
theorem need_during (ha : r.accepts t = some port) (hk : k ≤ ((r.inp t).req port).clocks r.p)
    (hin : r.cnt t + k ≤ 2 ^ r.p.refreshCntW) : r.need (t + k) = decide (r.p.refreshCycles < r.cnt t + k) := by
  have hn := need_of_accepts hallow ha
  have hle := r.cnt_le (by omega) t hn
  refine r.need_runs (n := k) (by omega) (fun j hj => cnt_during ha (by omega) (by omega)) ?_ le_rfl
  rw [hn]
  exact (decide_eq_false (by omega)).symm

include hrc in
theorem need_of_refreshing (hr : r.refreshes t = true) (hk : 2 ≤ k) (hle : k ≤ r.p.tRc + 1) :
    r.need (t + k) = decide (r.p.refreshCycles < k - 1) := by
  have hz := r.hiZ_of_idle (r.refreshes_idle hr)
  have hpow := r.p.tRc_le_pow hrc
  have hfit := r.p.fits.rc
  have hcnt : ∀ j, 1 ≤ j → j ≤ r.p.tRc → r.cnt (t + j) = j - 1 := by
    intro j hj hle
    unfold cnt
    rw [(r.refreshing hr hz hj (by omega)).cnt, Nat.mod_eq_of_lt (by omega)]
  have h0 : r.need (t + 1 + 1) = decide (r.p.refreshCycles < 1) := by
    rw [r.need_next, hcnt 1 le_rfl (by omega), if_pos rfl]
    exact (decide_eq_false (by omega)).symm
  have h := need_runs (r := r) (t := t + 2) (c := 1) (n := r.p.tRc - 1) (k := k - 2) (by omega) ?_ h0 (by omega)
  · rw [(by omega : t + 2 + (k - 2) = t + k), (by omega : 1 + (k - 2) = k - 1)] at h
    exact h
  · intro j hj
    rw [Nat.add_assoc, hcnt (2 + j) (by omega) (by omega)]
    omega

include hnce hallow

theorem refreshes_of_need (hs : (r.regs t).state = .idle) (hn : r.need t = true) : r.refreshes t = true := by
  unfold need at hn
  unfold refreshes Controller.refreshes
  rw [hs, hnce t, hn, hallow t]
  rfl

include hrc hin

/-- From `IDLE` on, a refresh follows when the counter has come to its end and an access that is under way by then
is over. -/
theorem refresh_follows (hs : (r.regs t).state = .idle) (hn : r.need t = false) :
    ∃ v, t < v ∧ v ≤ t + (r.p.refreshCycles - r.cnt t) + r.p.longestTransaction ∧ r.refreshesAll v := by
  generalize hm : r.p.refreshCycles - r.cnt t = m
  induction m using Nat.strong_induction_on generalizing t with
  | _ m ih =>
    have hpow := r.p.lt_pow
    have hle := r.cnt_le (by omega) t hn
    have hlong : 2 ≤ r.p.longestTransaction := by
      unfold SdramParams.longestTransaction
      omega
    have hr : r.refreshes t = false := by
      unfold need at hn
      unfold refreshes Controller.refreshes
      rw [hn]
      simp
    cases ha : r.accepts t with
    | none =>
      obtain ⟨busy, hnext⟩ := Controller.rest (p := r.p) hs hr ha
      rw [← r.next] at hnext
      have hs' : (r.regs (t + 1)).state = .idle := by
        rw [hnext]
        exact hs
      have hcnt : r.cnt (t + 1) = (r.cnt t + 1) % 2 ^ r.p.refreshCntW := by
        unfold cnt
        rw [hnext]
        rfl
      by_cases hend : r.cnt t = r.p.refreshCycles
      · have hn' : r.need (t + 1) = true := by
          rw [r.need_next, if_neg (by omega), if_pos hend]
        exact ⟨t + 2, by omega, by omega, refreshesAll_succ (refreshes_of_need hnce hallow hs' hn')⟩
      · have hn' : r.need (t + 1) = false := by
          rw [r.need_next, if_neg hend, hn, ite_self]
        rw [Nat.mod_eq_of_lt (by omega)] at hcnt
        obtain ⟨v, h1, h2, h3⟩ := ih (r.p.refreshCycles - r.cnt (t + 1)) (by omega) hs' hn' rfl
        exact ⟨v, by omega, by omega, h3⟩
    | some port =>
      have hin' := hin t port ha
      have hclk := ((r.inp t).req port).clocks_lt_longest r.p
      have hpos := clocks_pos r.p ((r.inp t).req port)
      have hs' := (r.access ha (r.hiZ_of_idle hs) (by omega) le_rfl).idle rfl
      have hn' := need_during hallow hrc ha le_rfl hin'
      by_cases hend : r.p.refreshCycles < r.cnt t + ((r.inp t).req port).clocks r.p
      · rw [decide_eq_true hend] at hn'
        exact ⟨_, by omega, by omega, refreshesAll_succ (refreshes_of_need hnce hallow hs' hn')⟩
      · rw [decide_eq_false hend] at hn'
        have hcnt := cnt_during ha le_rfl (by omega)
        obtain ⟨v, h1, h2, h3⟩ := ih _ (by omega) hs' hn' rfl
        exact ⟨v, by omega, by omega, h3⟩

end Env

/-- The bound on the run: no access starts so late that the counter wraps before it ends, and the counter is not
shorter than a refresh. -/
structure InTime (r : SdramRun) : Prop where
  room : 2 ≤ r.p.refreshCycles
  starts : ∀ t port, r.accepts t = some port → r.cnt t + ((r.inp t).req port).clocks r.p ≤ 2 ^ r.p.refreshCntW

section Rounds

variable (hnce : ∀ t, (r.inp t).nce = false) (hallow : ∀ t, (r.inp t).refreshAllowed = true) (hin : r.InTime)
include hnce hallow hin

/-- A refresh follows every clock of `IDLE`. -/
theorem follows_of_idle (hs : (r.regs t).state = .idle) : ∃ v, t < v ∧
    v ≤ t + (r.p.refreshCycles - r.cnt t) + r.p.longestTransaction ∧ r.refreshesAll v := by
  cases hn : r.need t
  · exact refresh_follows hnce hallow hin.room hin.starts hs hn
  · refine ⟨t + 1, by omega, ?_, refreshesAll_succ (refreshes_of_need hnce hallow hs hn)⟩
    unfold SdramParams.longestTransaction
    omega

theorem keepsRefreshing_rest (hs : (r.regs t).state = .idle) (hr : r.refreshes t = false) : r.KeepsRefreshing t := by
  constructor
  · intro hn
    rw [refreshes_of_need hnce hallow hs hn] at hr
    cases hr
  · obtain ⟨v, h1, h2, h3⟩ := follows_of_idle hnce hallow hin hs
    exact ⟨v, h1, by omega, h3⟩

/-- The clocks of a refresh: the request is answered in the first two, and another that comes up stays. -/
theorem keepsRefreshing_refresh (hr : r.refreshes t = true)
    (hs : ∀ k, 1 ≤ k → k ≤ r.p.tRc + 1 → Refreshing r.p k (r.regs (t + k))) (hk : k ≤ r.p.tRc) :
    r.KeepsRefreshing (t + k) := by
  have hrc := hin.room
  have hfits := r.p.fits.rc
  have hall := refreshesAll_succ hr
  constructor
  · intro hn hn'
    rcases Nat.lt_or_ge k 2 with h | h
    · obtain rfl | rfl : k = 0 ∨ k = 1 := by omega
      · exact Or.inr hall
      · exact Or.inl hall
    · rw [need_of_refreshing hrc hr h (by omega), decide_eq_true_eq] at hn
      rw [Nat.add_assoc, need_of_refreshing hrc hr (by omega) (by omega), decide_eq_false_iff_not] at hn'
      omega
  · rcases Nat.eq_zero_or_pos k with h | h
    · refine ⟨t + 1, by omega, ?_, hall⟩
      unfold SdramParams.longestTransaction
      omega
    · -- the next refresh follows the `IDLE` at the end of this one
      have hend := hs (r.p.tRc + 1) (by omega) le_rfl
      have hidle : (r.regs (t + (r.p.tRc + 1))).state = .idle := by
        rw [hend.state, if_neg (by omega)]
      have hcnt : r.cnt (t + (r.p.tRc + 1)) = r.p.tRc % 2 ^ r.p.refreshCntW := hend.cnt
      have hlast := need_of_refreshing hrc hr (k := r.p.tRc + 1) (by omega) le_rfl
      by_cases hn : r.p.refreshCycles < r.p.tRc + 1 - 1
      · rw [decide_eq_true hn] at hlast
        refine ⟨_, ?_, ?_, refreshesAll_succ (refreshes_of_need hnce hallow hidle hlast)⟩
        · omega
        · unfold SdramParams.longestTransaction
          omega
      · have hpow := r.p.lt_pow
        rw [Nat.mod_eq_of_lt (by omega)] at hcnt
        obtain ⟨v, h1, h2, h3⟩ := follows_of_idle hnce hallow hin hidle
        exact ⟨v, by omega, by omega, h3⟩

/-- The clocks of an access: a request that comes up waits for its end. -/
theorem keepsRefreshing_access (ha : r.accepts t = some port) (hk : k < ((r.inp t).req port).clocks r.p)
    (hs : ∀ k, 1 ≤ k → k ≤ ((r.inp t).req port).clocks r.p → Access r.p ((r.inp t).req port) k (r.regs (t + k))) :
    r.KeepsRefreshing (t + k) := by
  have hrc := hin.room
  have hstarts := hin.starts t port ha
  constructor
  · intro hn hn'
    rw [need_during hallow hrc ha hk.le (by omega), decide_eq_true_eq] at hn
    rw [Nat.add_assoc, need_during hallow hrc ha (by omega) (by omega), decide_eq_false_iff_not] at hn'
    omega
  · obtain ⟨v, h1, h2, h3⟩ := follows_of_idle hnce hallow hin (Controller.state_of_accepts ha)
    refine ⟨v, ?_, by omega, h3⟩
    -- the refresh is not among the commands of the access
    by_contra hv
    have hbus := (hs (v - t) (by omega) (by omega)).bus
    rw [Nat.add_sub_cancel' h1.le] at hbus
    exact SdramReq.bus_ne_refresh _ _ _ _ (hbus.symm.trans h3.1)

end Rounds

/-- In a run whose accesses all start in time no refresh request is dropped once the chips are configured, and
refreshes follow each other within the refresh period and the longest transaction. -/
theorem keepsRefreshing (hnce : ∀ t, (r.inp t).nce = false) (hallow : ∀ t, (r.inp t).refreshAllowed = true)
    (hin : r.InTime) : r.configured t → r.KeepsRefreshing t := by
  refine r.configured_rounds (J := r.KeepsRefreshing) ?_ ?_ ?_
  · rintro t hs hr -
    exact keepsRefreshing_rest hnce hallow hin hs hr
  · rintro t hr hs k hk
    exact keepsRefreshing_refresh hnce hallow hin hr hs hk
  · rintro t port ha hs k hk
    exact keepsRefreshing_access hnce hallow hin ha hk hs

/-- An access that starts later drops a request. -/
theorem drops (hallow : ∀ t, (r.inp t).refreshAllowed = true) (hrc : 2 ≤ r.p.refreshCycles)
    (ha : r.accepts t = some port) (hlate : 2 ^ r.p.refreshCntW < r.cnt t + ((r.inp t).req port).clocks r.p) :
    ∃ u, t < u ∧ r.need u = true ∧ r.need (u + 1) = false ∧ ¬ r.refreshesAll u ∧ ¬ r.refreshesAll (u + 1) := by
  have hz := r.hiZ_of_idle (Controller.state_of_accepts ha)
  have hle := r.cnt_le (by omega) t (need_of_accepts hallow ha)
  have hpow := r.p.lt_pow
  obtain ⟨n, hn⟩ : ∃ n, 2 ^ r.p.refreshCntW = r.cnt t + (n + 1) := ⟨2 ^ r.p.refreshCntW - r.cnt t - 1, by omega⟩
  have hquiet : ∀ k, 1 ≤ k → k ≤ ((r.inp t).req port).clocks r.p → ¬ r.refreshesAll (t + k) := by
    rintro k hk hle ⟨hbus, -⟩
    exact SdramReq.bus_ne_refresh _ _ _ _ ((r.access ha hz hk hle).bus.symm.trans hbus)
  have hwrap : r.cnt (t + (n + 1)) = 0 := by
    rw [← Nat.add_assoc, cnt_succ_during ha (by omega), cnt_during ha (by omega) (by omega), hn, Nat.add_assoc,
      Nat.mod_self]
  refine ⟨t + (n + 1), by omega, ?_, ?_, hquiet _ (by omega) (by omega), hquiet (n + 2) (by omega) (by omega)⟩
  · rw [need_during hallow hrc ha (by omega) hn.ge]
    exact decide_eq_true (by omega)
  · rw [r.need_next, hwrap, if_pos rfl]

/-- At a frequency whose counter has room for the longest access beyond the refresh period every run is in time. -/
theorem inTime_of_room (hallow : ∀ t, (r.inp t).refreshAllowed = true) (hrc : 2 ≤ r.p.refreshCycles)
    (hroom : r.p.refreshCycles + r.p.longestTransaction ≤ 2 ^ r.p.refreshCntW + 1) : r.InTime := by
  refine ⟨hrc, ?_⟩
  intro t port ha
  have hle := r.cnt_le (by omega) t (need_of_accepts hallow ha)
  have hclk := ((r.inp t).req port).clocks_lt_longest r.p
  omega

/-- While no port asks and no refresh is due the controller rests. -/
theorem rests (hs : (r.regs t).state = .idle) (hn : r.need t = false)
    (hquiet : ∀ k, k < n → Controller.grant (r.inp (t + k)) = none) (hle : r.cnt t + n ≤ r.p.refreshCycles) (hk : k ≤ n) :
    (r.regs (t + k)).state = .idle ∧ r.need (t + k) = false ∧ r.cnt (t + k) = r.cnt t + k := by
  have hpow := r.p.lt_pow
  induction k with
  | zero => exact ⟨hs, hn, rfl⟩
  | succ k ih =>
    obtain ⟨hs', hn', hcnt⟩ := ih (by omega)
    have hr : (r.regs (t + k)).refreshes (r.inp (t + k)) = false := by
      have hneed : (r.regs (t + k)).needRefresh = false := hn'
      unfold Controller.refreshes
      rw [hneed, Bool.false_and, Bool.and_false]
    have ha : (r.regs (t + k)).accepts (r.inp (t + k)) = none := by
      unfold Controller.accepts
      rw [hquiet k (by omega), ite_self]
    obtain ⟨busy, hnext⟩ := Controller.rest (p := r.p) hs' hr ha
    rw [← r.next] at hnext
    rw [← Nat.add_assoc]
    refine ⟨?_, ?_, ?_⟩
    · rw [hnext]
      exact hs'
    · rw [r.need_next, if_neg (by omega : ¬ r.cnt (t + k) = r.p.refreshCycles), hn', ite_self]
    · have hc : r.cnt (t + k + 1) = (r.cnt (t + k) + 1) % 2 ^ r.p.refreshCntW := by
        unfold cnt
        rw [hnext]
        rfl
      rw [hc, hcnt, Nat.mod_eq_of_lt (by omega)]
      omega

end SdramRun

/-! ## A long read -/

/-- A read of 15 dwords on the CPU port. -/
def longRead : SdramReq := ⟨false, 0, 0, 0, 15, false⟩

/-- Inputs that offer `longRead` in the clocks of `valid`. -/
def longReads (valid : Nat → Bool) (t : Nat) : SdramIn :=
  ⟨true, false, true, true, fun port => port == .cpu && valid t, fun _ => longRead, 0⟩

def steadyReads : SdramRun := runOf at85MHz (longReads fun _ => true) fun _ => rfl

theorem steadyReads_configured : steadyReads.configured 18 := ⟨18, le_rfl, by decide⟩

theorem steadyReads_keepsRefreshing : steadyReads.KeepsRefreshing 18 :=
  SdramRun.keepsRefreshing (fun _ => rfl) (fun _ => rfl)
    (SdramRun.inTime_of_room (fun _ => rfl) (by decide) (by decide)) steadyReads_configured

/-- A long read that comes when the counter is at its end. -/
def lateRead : SdramRun := runOf at64_8MHz (longReads fun t => t == 519) fun _ => rfl

theorem lateRead_accepted : lateRead.accepts 519 = some .cpu ∧ lateRead.cnt 519 = 506 := by
  have hcnt : lateRead.cnt 13 = 0 := by decide
  have hcycles : lateRead.p.refreshCycles = 506 := by decide
  have hquiet : ∀ k, k < 506 → Controller.grant (lateRead.inp (13 + k)) = none := by
    intro k hk
    have hv : ∀ port, (lateRead.inp (13 + k)).valid port = false := by
      intro port
      show (port == .cpu && (13 + k == 519)) = false
      rw [beq_false_of_ne (by omega : 13 + k ≠ 519), Bool.and_false]
    unfold Controller.grant
    simp only [hv, Bool.false_eq_true, if_false]
  obtain ⟨hs, hn, hc⟩ := lateRead.rests (t := 13) (n := 506) (by decide) (by decide +kernel) hquiet (by omega)
    le_rfl
  refine ⟨?_, by rw [hc, hcnt]⟩
  have hneed : (lateRead.regs 519).needRefresh = false := hn
  have hidle : (lateRead.regs 519).state = .idle := hs
  unfold SdramRun.accepts Controller.accepts
  rw [hneed, hidle]
  rfl

/-- At 64.8 MHz the counter wraps 6 clocks after its end, and the read takes 35. -/
theorem lateRead_drops_refresh : ¬ ∀ t, lateRead.configured t → lateRead.KeepsRefreshing t := by
  intro h
  obtain ⟨ha, hc⟩ := lateRead_accepted
  have hpow : 2 ^ lateRead.p.refreshCntW = 512 := by decide
  have hclk : ((lateRead.inp 519).req .cpu).clocks lateRead.p = 35 := by decide
  obtain ⟨u, hu, hn, hn', hu0, hu1⟩ := SdramRun.drops (fun _ => rfl) (by decide) ha (by omega)
  rcases (h u ⟨519, by omega, Controller.state_of_accepts ha⟩).kept hn hn' with hall | hall
  · exact hu0 hall
  · exact hu1 hall

end Z486.Sdram
