/-
What a valid dot clock stands for. A request goes from the control to the table machine in three clocks,
and from there on the machine is busy until its sequence is through; in all that time, and whenever the
lock is lost, the settling starts again. So a clock that is valid has been settling, untouched and
locked, since after the last sequence, and that sequence is the one of the family it is valid for.
-/
import Z486.Clocked.Bits
import Z486.Video.DotClock

namespace Z486.Video

/-- The writes that program a family, in order. -/
def pllSequence (r : BitVec 3) : List MgmtWrite :=
  [⟨modeReg, 0⟩, ⟨nReg, 0x00010000⟩, ⟨mReg, 0x00000909⟩, ⟨dsmReg, dotMFrac r⟩,
   ⟨cReg, (0 : BitVec 16) ++ dotC0Half r ++ dotC0Half r⟩, ⟨startReg, 0⟩]

/-! ## The table machine -/

namespace DotPllCfg

variable {c : DotPllCfg} {r : BitVec 3}

/-- The machine has nothing to do and nothing on the port. -/
structure Quiet (c : DotPllCfg) : Prop where
  busy : c.busy = false
  pending : c.pending = false
  step : c.step = 0
  mgmtWrite : c.mgmtWrite = false

/-- The machine holds the values of a family. -/
structure Loaded (c : DotPllCfg) (r : BitVec 3) : Prop where
  c0HiR : c.c0HiR = dotC0Half r
  c0LoR : c.c0LoR = dotC0Half r
  kR : c.kR = dotMFrac r

variable {req : Bool} {c0Hi c0Lo : BitVec 8} {mFrac : BitVec 32} {wait : Bool}

/-- A clock without a new request. -/
theorem next_of_no_rise (h : (req && !c.reqD) = false) :
    c.next req c0Hi c0Lo mFrac wait = { c.advance wait with reqD := req } := by
  unfold next
  rw [h]
  rfl

theorem issued_next : (c.next req c0Hi c0Lo mFrac wait).issued = (c.advance wait).issued := by
  unfold next issued
  split <;> rfl

theorem next_reqD : (c.next req c0Hi c0Lo mFrac wait).reqD = req := by
  unfold next
  split <;> rfl

/-- A write is issued only in the clock after the wait request was low. -/
theorem waitrequest_of_mgmtWrite (h : (c.next req c0Hi c0Lo mFrac wait).mgmtWrite = true) : wait = false := by
  have hadv : (c.advance wait).mgmtWrite = true := by
    unfold next at h
    split at h <;> exact h
  cases wait with
  | false => rfl
  | true =>
    unfold advance at hadv
    by_cases hstep : c.step = 0
    · cases hpend : c.pending <;> simp [hstep, hpend] at hadv
    · rw [if_neg hstep] at hadv
      exact hadv.symm

theorem Quiet.advance (h : c.Quiet) : c.advance wait = c := by
  obtain ⟨hb, hp, hs, hw⟩ := h
  obtain ⟨mgmtWrite, _, _, step, _, _, _, _, busy, pending⟩ := c
  cases hb
  cases hp
  cases hs
  cases hw
  rfl

theorem Quiet.issued (h : c.Quiet) : c.issued = [] := by
  rw [DotPllCfg.issued, h.mgmtWrite]
  rfl

/-- Without a request the machine stays quiet. -/
theorem Quiet.next (h : c.Quiet) : (c.next false c0Hi c0Lo mFrac wait).Quiet := by
  rw [next_of_no_rise rfl, h.advance]
  exact ⟨h.busy, h.pending, h.step, h.mgmtWrite⟩

/-- A step of the table puts its write on the port, unless the core makes it wait. -/
theorem advance_of_step (h : c.step ≠ 0) (hwait : wait = false) :
    (c.advance wait).issued = c.table.toList ∧ (c.advance wait).step = (if c.step = 12 then 0 else c.step + 1) ∧
      (c.advance wait).pending = c.pending ∧ (c.advance wait).busy = c.busy := by
  unfold advance DotPllCfg.issued
  simp only [h, hwait, if_false, Bool.not_false, if_true]
  cases htable : c.table with
  | some m => exact ⟨rfl, rfl, rfl, rfl⟩
  | none => exact ⟨rfl, rfl, rfl, rfl⟩

theorem advance_of_wait (h : c.step ≠ 0) (hwait : wait = true) :
    c.advance wait = { c with mgmtWrite := false } := by
  rw [advance, if_neg h, hwait]
  rfl

/-- The values of a request stand until the next one. -/
theorem Loaded.advance (h : c.Loaded r) (wait : Bool) : (c.advance wait).Loaded r := by
  obtain ⟨hhi, hlo, hk⟩ := h
  unfold DotPllCfg.advance
  by_cases hstep : c.step = 0
  · simp only [hstep, if_true]
    by_cases hgo : (c.pending && !wait) = true
    · rw [if_pos hgo]; exact ⟨hhi, hlo, hk⟩
    · rw [if_neg hgo]
      split <;> exact ⟨hhi, hlo, hk⟩
  · simp only [hstep, if_false]
    by_cases hgo : (!wait) = true
    · rw [if_pos hgo]
      split <;> exact ⟨hhi, hlo, hk⟩
    · rw [if_neg hgo]; exact ⟨hhi, hlo, hk⟩

/-- What the machine has issued of the sequence at a step: a write at every other one. -/
theorem table_eq (h : c.Loaded r) {k : Nat} (hk : c.step = BitVec.ofNat 5 k) (hle : k ≤ 12) (hpos : 1 ≤ k) :
    (pllSequence r).take ((k + 1) / 2) = (pllSequence r).take (k / 2) ++ c.table.toList := by
  have hcases : k = 1 ∨ k = 2 ∨ k = 3 ∨ k = 4 ∨ k = 5 ∨ k = 6 ∨ k = 7 ∨ k = 8 ∨ k = 9 ∨ k = 10 ∨ k = 11 ∨ k = 12 := by
    omega
  unfold table
  rw [hk, h.c0HiR, h.c0LoR, h.kR]
  rcases hcases with rfl | rfl | rfl | rfl | rfl | rfl | rfl | rfl | rfl | rfl | rfl | rfl
  all_goals rfl

end DotPllCfg

/-! ## From a request to the end of its sequence -/

namespace DotClock

variable {s : DotClock} {i : DotClockIn} {log : List MgmtWrite}

/-- `n` clocks after the table machine has taken a request. -/
structure Age (s : DotClock) (n : Nat) : Prop where
  reqCnt : s.reqCnt = BitVec.ofNat 3 (2 - n)
  dotCfgReq : s.dotCfgReq = decide (n ≤ 2)
  reqD : s.cfg.reqD = decide (n ≤ 3)

/-- The request for the family of `dotCfgRate` is being made or carried out, or its sequence is the last
one of the writes `log`. -/
inductive Follows (s : DotClock) (log : List MgmtWrite) : Prop
  | idle (hcfg : s.cfg.Quiet) (hcnt : s.reqCnt = 0) (hreq : s.dotCfgReq = false) (hreqD : s.cfg.reqD = false)
      (hlog : s.initDone = true → ∃ before, log = before ++ pllSequence s.dotCfgRate)
  | asked (hinit : s.initDone = true) (hcfg : s.cfg.Quiet) (hcnt : s.reqCnt = 4) (hreq : s.dotCfgReq = false)
      (hreqD : s.cfg.reqD = false)
  | asking (hinit : s.initDone = true) (hcfg : s.cfg.Quiet) (hcnt : s.reqCnt = 3) (hreq : s.dotCfgReq = true)
      (hreqD : s.cfg.reqD = false)
  | waiting (hinit : s.initDone = true) (hload : s.cfg.Loaded s.dotCfgRate) (n : Nat) (hage : s.Age n)
      (hbusy : s.cfg.busy = true) (hpend : s.cfg.pending = true) (hstep : s.cfg.step = 0)
  | writing (hinit : s.initDone = true) (hload : s.cfg.Loaded s.dotCfgRate) (n : Nat) (hage : s.Age n)
      (hbusy : s.cfg.busy = true) (hpend : s.cfg.pending = false) (k : Nat) (hstep : s.cfg.step = BitVec.ofNat 5 k)
      (hpos : 1 ≤ k) (hle : k ≤ 12) (hkn : k ≤ n)
      (hlog : ∃ before, log = before ++ (pllSequence s.dotCfgRate).take (k / 2))
  | finishing (hinit : s.initDone = true) (hload : s.cfg.Loaded s.dotCfgRate) (n : Nat) (hage : s.Age n) (hn : 4 ≤ n)
      (hbusy : s.cfg.busy = true) (hpend : s.cfg.pending = false) (hstep : s.cfg.step = 0)
      (hlog : ∃ before, log = before ++ pllSequence s.dotCfgRate)

/-- No request is made while the machine is busy or one is under way. -/
theorem asks_of_busy (h : s.cfg.busy = true) : s.asks i = false := by
  simp [asks, h]

theorem asks_of_reqCnt (h : s.reqCnt ≠ 0) : s.asks i = false := by
  unfold asks
  rw [decide_eq_false h]
  simp

theorem Age.step {n : Nat} (h : s.Age n) (hasks : s.asks i = false) : (s.step i).Age (n + 1) := by
  have hcases : n = 0 ∨ n = 1 ∨ 2 ≤ n := by omega
  have hcnt : (s.step i).reqCnt = if s.reqCnt ≠ 0 then s.reqCnt - 1 else s.reqCnt := by
    rw [DotClock.step, if_neg (by rw [hasks]; exact Bool.false_ne_true)]
  have hreq : (s.step i).dotCfgReq = decide (s.reqCnt ≠ 0) := rfl
  constructor
  · rw [hcnt, h.reqCnt]
    rcases hcases with rfl | rfl | hn
    · rfl
    · rfl
    · rw [show 2 - n = 0 by omega, show 2 - (n + 1) = 0 by omega]
      rfl
  · rw [hreq, h.reqCnt]
    rcases hcases with rfl | rfl | hn
    · rfl
    · rfl
    · rw [show 2 - n = 0 by omega, decide_eq_false (by omega : ¬ n + 1 ≤ 2)]
      rfl
  · rw [DotClock.step, DotPllCfg.next_reqD, h.dotCfgReq, decide_eq_decide]
    omega

/-- While a sequence is carried out no further request reaches the machine. -/
theorem Age.no_rise {n : Nat} (h : s.Age n) : (s.dotCfgReq && !s.cfg.reqD) = false := by
  rw [h.dotCfgReq, h.reqD]
  by_cases hn : n ≤ 2
  · simp [hn, show n ≤ 3 by omega]
  · simp [hn]

theorem Age.late {n : Nat} (h : s.Age n) (hn : 4 ≤ n) :
    s.reqCnt = 0 ∧ s.dotCfgReq = false ∧ s.cfg.reqD = false := by
  refine ⟨?_, ?_, ?_⟩
  · rw [h.reqCnt, show 2 - n = 0 by omega]
    rfl
  · rw [h.dotCfgReq]
    exact decide_eq_false (by omega)
  · rw [h.reqD]
    exact decide_eq_false (by omega)

/-- What stays of a clock in which no request is made. -/
theorem kept_of_not_asks (h : s.asks i = false) :
    (s.step i).initDone = s.initDone ∧ (s.step i).dotCfgRate = s.dotCfgRate := by
  unfold step
  simp [h]

/-- The table machine in a clock without a new request. -/
theorem cfg_of_no_rise (h : (s.dotCfgReq && !s.cfg.reqD) = false) :
    (s.step i).cfg = { s.cfg.advance i.mgmtWaitrequest with reqD := s.dotCfgReq } :=
  DotPllCfg.next_of_no_rise h

theorem issued_step : (s.step i).cfg.issued = (s.cfg.advance i.mgmtWaitrequest).issued := DotPllCfg.issued_next

theorem quiet_step (hcfg : s.cfg.Quiet) (hreq : s.dotCfgReq = false) : (s.step i).cfg.Quiet := by
  have hnew : (s.step i).cfg = s.cfg.next false (dotC0Half s.dotCfgRate) (dotC0Half s.dotCfgRate)
      (dotMFrac s.dotCfgRate) i.mgmtWaitrequest := by rw [step, hreq]
  rw [hnew]
  exact hcfg.next

/-! ### One clock of each phase -/

section Phases

variable (hinit : s.initDone = true)

theorem step_idle (hcfg : s.cfg.Quiet) (hcnt : s.reqCnt = 0) (hreq : s.dotCfgReq = false)
    (hlog : s.initDone = true → ∃ before, log = before ++ pllSequence s.dotCfgRate) :
    (s.step i).Follows (log ++ (s.step i).cfg.issued) := by
  have hquiet : (s.step i).cfg.Quiet := quiet_step hcfg hreq
  have hreq' : (s.step i).dotCfgReq = false := by
    rw [step, hcnt]
    rfl
  have hreqD' : (s.step i).cfg.reqD = false := by rw [step, DotPllCfg.next_reqD, hreq]
  cases hasks : s.asks i with
  | true =>
    refine .asked ?_ hquiet ?_ hreq' hreqD'
    · rw [step, hasks, Bool.true_or]
    · rw [step, hasks, if_pos rfl]
  | false =>
    obtain ⟨hinit', hrate'⟩ := kept_of_not_asks hasks
    refine .idle hquiet ?_ hreq' hreqD' ?_
    · rw [step, hasks, hcnt]
      rfl
    · rw [hinit', hrate', hquiet.issued, List.append_nil]
      exact hlog

include hinit

theorem step_asked (hcfg : s.cfg.Quiet) (hcnt : s.reqCnt = 4) (hreq : s.dotCfgReq = false) :
    (s.step i).Follows (log ++ (s.step i).cfg.issued) := by
  have hasks : s.asks i = false := asks_of_reqCnt (by rw [hcnt]; decide)
  obtain ⟨hinit', -⟩ := kept_of_not_asks hasks
  refine .asking (hinit'.trans hinit) (quiet_step hcfg hreq) ?_ ?_ ?_
  · rw [step, hasks, hcnt]
    rfl
  · rw [step, hcnt]
    rfl
  · rw [step, DotPllCfg.next_reqD, hreq]

/-- The table machine takes the request, with the values of its family. -/
theorem step_asking (hcfg : s.cfg.Quiet) (hcnt : s.reqCnt = 3) (hreq : s.dotCfgReq = true)
    (hreqD : s.cfg.reqD = false) : (s.step i).Follows (log ++ (s.step i).cfg.issued) := by
  have hasks : s.asks i = false := asks_of_reqCnt (by rw [hcnt]; decide)
  obtain ⟨hinit', hrate'⟩ := kept_of_not_asks hasks
  have hnew : (s.step i).cfg = { s.cfg with
      reqD := true, c0HiR := dotC0Half s.dotCfgRate, c0LoR := dotC0Half s.dotCfgRate, kR := dotMFrac s.dotCfgRate,
      pending := true, busy := true } := by
    rw [step, DotPllCfg.next, hreq, hreqD, hcfg.advance]
    rfl
  refine .waiting (hinit'.trans hinit) ?_ 0 ⟨?_, ?_, ?_⟩ ?_ ?_ ?_
  · rw [hnew, hrate']
    exact ⟨rfl, rfl, rfl⟩
  · rw [step, hasks, hcnt]
    rfl
  · rw [step, hcnt]
    rfl
  · rw [hnew]
    rfl
  · rw [hnew]
  · rw [hnew]
  · rw [hnew]
    exact hcfg.step

variable (hload : s.cfg.Loaded s.dotCfgRate) {n : Nat} (hage : s.Age n) (hbusy : s.cfg.busy = true)
include hload hage hbusy

omit hinit in
/-- The values stay while a sequence is carried out. -/
theorem loaded_step : (s.step i).cfg.Loaded (s.step i).dotCfgRate := by
  obtain ⟨-, hrate'⟩ := kept_of_not_asks (asks_of_busy (i := i) hbusy)
  rw [hrate', cfg_of_no_rise hage.no_rise]
  obtain ⟨hhi, hlo, hk⟩ := hload.advance i.mgmtWaitrequest
  exact ⟨hhi, hlo, hk⟩

theorem step_waiting (hpend : s.cfg.pending = true) (hstep : s.cfg.step = 0) :
    (s.step i).Follows (log ++ (s.step i).cfg.issued) := by
  have hasks : s.asks i = false := asks_of_busy hbusy
  obtain ⟨hinit', -⟩ := kept_of_not_asks hasks
  have hnew := cfg_of_no_rise (i := i) hage.no_rise
  have hload' := loaded_step (i := i) hload hage hbusy
  cases hwait : i.mgmtWaitrequest with
  | true =>
    have hadv : s.cfg.advance true = { s.cfg with mgmtWrite := false } := by
      rw [DotPllCfg.advance, if_pos hstep, if_neg (by simp), if_neg (by simp [hpend])]
    rw [hwait, hadv] at hnew
    refine .waiting (hinit'.trans hinit) hload' (n + 1) (hage.step hasks) ?_ ?_ ?_
    · rw [hnew]
      exact hbusy
    · rw [hnew]
      exact hpend
    · rw [hnew]
      exact hstep
  | false =>
    have hadv : s.cfg.advance false = { s.cfg with mgmtWrite := false, pending := false, step := 1 } := by
      rw [DotPllCfg.advance, if_pos hstep, if_pos (by simp [hpend])]
    rw [hwait, hadv] at hnew
    refine .writing (hinit'.trans hinit) hload' (n + 1) (hage.step hasks) ?_ ?_ 1 ?_ (le_refl 1) (by omega) (by omega)
      ⟨log, ?_⟩
    · rw [hnew]
      exact hbusy
    · rw [hnew]
    · rw [hnew]
      rfl
    · rw [hnew]
      rfl

theorem step_writing (hpend : s.cfg.pending = false) {k : Nat} (hstep : s.cfg.step = BitVec.ofNat 5 k) (hpos : 1 ≤ k)
    (hle : k ≤ 12) (hkn : k ≤ n) (hlog : ∃ before, log = before ++ (pllSequence s.dotCfgRate).take (k / 2)) :
    (s.step i).Follows (log ++ (s.step i).cfg.issued) := by
  have hasks : s.asks i = false := asks_of_busy hbusy
  obtain ⟨hinit', hrate'⟩ := kept_of_not_asks hasks
  have hload' := loaded_step (i := i) hload hage hbusy
  have hne : s.cfg.step ≠ 0 := by
    rw [hstep]
    exact Clocked.ofNat_ne_ofNat (n := 0) (by omega) (by omega) (by omega)
  obtain ⟨before, rfl⟩ := hlog
  cases hwait : i.mgmtWaitrequest with
  | true =>
    -- the reconfigurator holds the write
    have hnew : (s.step i).cfg = { s.cfg with mgmtWrite := false, reqD := s.dotCfgReq } := by
      rw [cfg_of_no_rise hage.no_rise, DotPllCfg.advance_of_wait hne hwait]
    refine .writing (hinit'.trans hinit) hload' (n + 1) (hage.step hasks) ?_ ?_ k ?_ hpos hle (by omega) ⟨before, ?_⟩
    · rw [hnew]
      exact hbusy
    · rw [hnew]
      exact hpend
    · rw [hnew]
      exact hstep
    · rw [hnew, hrate']
      exact List.append_nil _
  | false =>
    -- it takes the write: the log has one more entry of the table
    obtain ⟨hissued, hnext, hpend', hbusy'⟩ := DotPllCfg.advance_of_step hne hwait
    have hcfg := cfg_of_no_rise (i := i) hage.no_rise
    have hlog' : (before ++ (pllSequence s.dotCfgRate).take (k / 2)) ++ (s.step i).cfg.issued =
        before ++ (pllSequence (s.step i).dotCfgRate).take ((k + 1) / 2) := by
      rw [issued_step, hissued, hrate', List.append_assoc, DotPllCfg.table_eq hload hstep hle hpos]
    rw [hlog']
    by_cases hlast : k = 12
    · subst hlast
      refine .finishing (hinit'.trans hinit) hload' (n + 1) (hage.step hasks) (by omega) ?_ ?_ ?_ ⟨before, rfl⟩
      · rw [hcfg]
        exact hbusy'.trans hbusy
      · rw [hcfg]
        exact hpend'.trans hpend
      · rw [hcfg]
        exact hnext.trans (by rw [hstep]; rfl)
    · refine .writing (hinit'.trans hinit) hload' (n + 1) (hage.step hasks) ?_ ?_ (k + 1) ?_ (by omega) (by omega)
        (by omega) ⟨before, rfl⟩
      · rw [hcfg]
        exact hbusy'.trans hbusy
      · rw [hcfg]
        exact hpend'.trans hpend
      · rw [hcfg]
        have hne12 : s.cfg.step ≠ 12 := by
          rw [hstep]
          exact Clocked.ofNat_ne_ofNat (n := 12) (by omega) (by omega) hlast
        rw [hnext, if_neg hne12, hstep, Clocked.ofNat_succ]

omit hinit hload in
theorem step_finishing (hn : 4 ≤ n) (hpend : s.cfg.pending = false) (hstep : s.cfg.step = 0)
    (hlog : ∃ before, log = before ++ pllSequence s.dotCfgRate) :
    (s.step i).Follows (log ++ (s.step i).cfg.issued) := by
  have hasks : s.asks i = false := asks_of_busy hbusy
  obtain ⟨-, hrate'⟩ := kept_of_not_asks hasks
  obtain ⟨hcnt, hreq, -⟩ := hage.late hn
  obtain ⟨hcnt', hreq', hreqD'⟩ := (hage.step hasks).late (by omega)
  have hadv : s.cfg.advance i.mgmtWaitrequest = { s.cfg with mgmtWrite := false, busy := false } := by
    rw [DotPllCfg.advance, if_pos hstep, if_neg (by simp [hpend]), if_pos (by simp [hpend])]
  have hnew : (s.step i).cfg = { s.cfg with mgmtWrite := false, busy := false, reqD := s.dotCfgReq } := by
    rw [cfg_of_no_rise hage.no_rise, hadv]
  have hquiet : (s.step i).cfg.Quiet := by
    rw [hnew]
    exact ⟨rfl, hpend, hstep, rfl⟩
  refine .idle hquiet hcnt' hreq' hreqD' fun _ => ?_
  rw [hrate', hquiet.issued, List.append_nil]
  exact hlog

end Phases

/-- One clock. -/
theorem Follows.step (h : s.Follows log) : (s.step i).Follows (log ++ (s.step i).cfg.issued) := by
  cases h with
  | idle hcfg hcnt hreq _ hlog => exact step_idle hcfg hcnt hreq hlog
  | asked hinit hcfg hcnt hreq => exact step_asked hinit hcfg hcnt hreq
  | asking hinit hcfg hcnt hreq hreqD => exact step_asking hinit hcfg hcnt hreq hreqD
  | waiting hinit hload n hage hbusy hpend hstep => exact step_waiting hinit hload hage hbusy hpend hstep
  | writing hinit hload n hage hbusy hpend k hstep hpos hle hkn hlog =>
    exact step_writing hinit hload hage hbusy hpend hstep hpos hle hkn hlog
  | finishing _ _ n hage hn hbusy hpend hstep hlog => exact step_finishing hage hbusy hn hpend hstep hlog

theorem powerUp_follows (c0HiR c0LoR : BitVec 8) (kR : BitVec 32) : (powerUp c0HiR c0LoR kR).Follows [] :=
  .idle ⟨rfl, rfl, rfl, rfl⟩ rfl rfl rfl nofun

/-- Outside a request the machine is quiet, and once one has been made its sequence is the last one. -/
theorem Follows.of_calm (h : s.Follows log) (hcalm : s.unsettled i = false) :
    s.cfg.Quiet ∧ s.reqCnt = 0 ∧ s.dotCfgReq = false ∧
      (s.initDone = true → ∃ before, log = before ++ pllSequence s.dotCfgRate) := by
  have hbusy : s.cfg.busy = false := by
    unfold unsettled at hcalm
    simp only [Bool.or_eq_false_iff] at hcalm
    exact hcalm.1.2
  have hcnt : s.reqCnt = 0 := by
    unfold unsettled at hcalm
    simp only [Bool.or_eq_false_iff, decide_eq_false_iff_not, not_not] at hcalm
    exact hcalm.2
  cases h with
  | idle hcfg _ hreq _ hlog => exact ⟨hcfg, hcnt, hreq, hlog⟩
  | asked _ _ h4 => exact absurd (h4.symm.trans hcnt) (by decide)
  | asking _ _ h3 => exact absurd (h3.symm.trans hcnt) (by decide)
  | waiting _ _ _ _ hon => exact absurd (hon.symm.trans hbusy) nofun
  | writing _ _ _ _ hon => exact absurd (hon.symm.trans hbusy) nofun
  | finishing _ _ _ _ _ hon => exact absurd (hon.symm.trans hbusy) nofun

/-! ## Settling -/

theorem settle_of_unsettled (h : s.unsettled i = true) : (s.step i).settle.toNat = 50000 := by
  rw [step, h]
  rfl

theorem settle_of_calm (h : s.unsettled i = false) : (s.step i).settle.toNat = s.settle.toNat - 1 := by
  rw [step, h]
  by_cases h0 : s.settle = 0
  · rw [if_neg Bool.false_ne_true, if_neg (not_not.mpr h0), h0]
    rfl
  · have hpos : s.settle.toNat ≠ 0 := fun hn => h0 (BitVec.eq_of_toNat_eq hn)
    rw [if_neg Bool.false_ne_true, if_pos h0, BitVec.toNat_sub, show (1 : BitVec 16).toNat = 1 from rfl]
    have := s.settle.isLt
    omega

/-- The clock is valid after a calm clock with the settling over, for the family that is wanted. -/
theorem valid_step (hv : s.dotclkValid = true → s.settle.toNat = 0) :
    (s.step i).dotclkValid = true ↔
      s.unsettled i = false ∧ s.settle.toNat = 0 ∧ s.initDone = true ∧ s.dotCfgRate = s.rateS3 := by
  have hzero : s.settle = 0 ↔ s.settle.toNat = 0 := by
    constructor
    · intro h0
      rw [h0]
      rfl
    · exact fun h0 => BitVec.eq_of_toNat_eq h0
  have hnext : (s.step i).dotclkValid = if s.unsettled i then false else if s.settle ≠ 0 then s.dotclkValid else
      s.initDone && s.dotCfgRate = s.rateS3 := rfl
  rw [hnext]
  cases hcalm : s.unsettled i with
  | true => simp
  | false =>
    by_cases h0 : s.settle = 0
    · simp [h0]
    · have hoff : s.dotclkValid = false := by
        by_contra hon
        exact h0 (hzero.mpr (hv (by simpa using hon)))
      have hne : s.settle.toNat ≠ 0 := fun hn => h0 (hzero.mpr hn)
      rw [if_neg Bool.false_ne_true, if_pos h0, hoff]
      constructor
      · exact nofun
      · rintro ⟨-, hz, -⟩
        exact absurd hz hne

end DotClock

/-! ## Runs -/

namespace DotClockRun

variable (r : DotClockRun)

/-- The writes on the core's port up to clock `t`. -/
def issued (t : Nat) : List MgmtWrite := Clocked.journal (fun u => (r.state u).cfg.issued) (t + 1)

/-- Nothing disturbs the settling in clock `t`. -/
def Calm (t : Nat) : Prop := (r.state t).unsettled (r.inputs t) = false

theorem follows (t : Nat) : (r.state t).Follows (r.issued t) := by
  induction t with
  | zero => exact DotClock.powerUp_follows _ _ _
  | succ t ih =>
    have hlog : r.issued (t + 1) = r.issued t ++ (r.state (t + 1)).cfg.issued := Clocked.journal_succ _ _
    rw [hlog, state_succ]
    exact ih.step

/-- The core takes every write. -/
theorem Core.writes_eq {r : DotClockRun} (core : r.Core) (t : Nat) :
    core.writes t = Clocked.journal (fun u => (r.state u).cfg.issued) t := by
  refine Clocked.journal_congr fun u _ => ?_
  by_cases hon : (r.state u).cfg.mgmtWrite = true
  · cases u with
    | zero => exact absurd hon nofun
    | succ u =>
      have hwait : (r.inputs u).mgmtWaitrequest = false := by
        have hon' := hon
        rw [state_succ] at hon'
        exact DotPllCfg.waitrequest_of_mgmtWrite hon'
      rw [if_pos (core.accepts_of_ready u hwait hon)]
  · rw [DotPllCfg.issued, if_neg hon, ite_self]

/-- The settling counts the calm clocks since the last other one. -/
theorem calm_of_settle (t : Nat) :
    (r.state t).settle.toNat ≤ 50000 ∧ 50000 ≤ t + (r.state t).settle.toNat ∧
      ∀ u, u < t → t + (r.state t).settle.toNat ≤ u + 50000 → r.Calm u := by
  induction t with
  | zero =>
    have hstart : (r.state 0).settle.toNat = 50000 := rfl
    rw [hstart]
    exact ⟨by omega, by omega, fun u hu => absurd hu (Nat.not_lt_zero u)⟩
  | succ t ih =>
    obtain ⟨hle, hlow, hcalm⟩ := ih
    rw [state_succ]
    cases hc : (r.state t).unsettled (r.inputs t) with
    | true =>
      rw [DotClock.settle_of_unsettled hc]
      exact ⟨by omega, by omega, fun u hu hle' => by omega⟩
    | false =>
      rw [DotClock.settle_of_calm hc]
      refine ⟨by omega, by omega, fun u hu hle' => ?_⟩
      rcases Nat.lt_or_eq_of_le (Nat.le_of_lt_succ hu) with hlt | rfl
      · exact hcalm u hlt (by omega)
      · exact hc

/-- A calm stretch lets the settling count down. -/
theorem settle_of_calm (a n : Nat) (h : ∀ k, k < n → r.Calm (a + k)) :
    (r.state (a + n)).settle.toNat = (r.state a).settle.toNat - n := by
  induction n with
  | zero => rfl
  | succ n ih =>
    rw [← Nat.add_assoc, state_succ, DotClock.settle_of_calm (h n (by omega)), ih fun k hk => h k (by omega)]
    omega

theorem settle_of_valid (t : Nat) (h : (r.state t).dotclkValid = true) : (r.state t).settle.toNat = 0 := by
  induction t with
  | zero => exact absurd h nofun
  | succ t ih =>
    rw [state_succ] at h ⊢
    obtain ⟨hcalm, h0, -⟩ := (DotClock.valid_step ih).mp h
    rw [DotClock.settle_of_calm hcalm, h0]

theorem le_of_valid (t : Nat) (h : (r.state t).dotclkValid = true) : 50001 ≤ t := by
  cases t with
  | zero => exact absurd h nofun
  | succ t =>
    rw [state_succ] at h
    obtain ⟨-, h0, -⟩ := (DotClock.valid_step (r.settle_of_valid t)).mp h
    have := (r.calm_of_settle t).2.1
    omega

/-- The dot clock is valid after fifty thousand and one calm clocks, the last of them with the programmed family the
wanted one. -/
theorem valid_iff (a : Nat) : (r.state (a + 50001)).dotclkValid = true ↔
    (∀ u, a ≤ u → u ≤ a + 50000 → r.Calm u) ∧ (r.state (a + 50000)).initDone = true ∧
      (r.state (a + 50000)).dotCfgRate = (r.state (a + 50000)).rateS3 := by
  rw [show a + 50001 = a + 50000 + 1 from rfl, state_succ, DotClock.valid_step (r.settle_of_valid _)]
  constructor
  · rintro ⟨hlast, h0, hinit, hrate⟩
    refine ⟨fun u hau hu => ?_, hinit, hrate⟩
    rcases Nat.lt_or_eq_of_le hu with hlt | rfl
    · exact (r.calm_of_settle (a + 50000)).2.2 u hlt (by omega)
    · exact hlast
  · rintro ⟨hcalm, hinit, hrate⟩
    have hcount := r.settle_of_calm a 50000 fun k hk => hcalm (a + k) (by omega) (by omega)
    have hle := (r.calm_of_settle a).1
    exact ⟨hcalm _ (by omega) (le_refl _), by omega, hinit, hrate⟩

/-- The dot clock of clock `a + 50001` has settled since clock `a`: by then the core had taken a sequence through its
start, for the family that the control wanted in the last clock; it has been given no write since, the PLL
has been locked since, and no request is under way. -/
structure Core.SettledSince {r : DotClockRun} (core : r.Core) (a : Nat) : Prop where
  programmed : ∃ before, core.writes a = before ++ pllSequence (r.state (a + 50000)).rateS3
  unwritten : core.writes (a + 50001) = core.writes a
  locked : ∀ u, a ≤ u → u ≤ a + 50000 → (r.inputs u).pllDotLocked = true
  quiet : (r.state (a + 50001)).cfg.Quiet
  reqCnt : (r.state (a + 50001)).reqCnt = 0
  dotCfgReq : (r.state (a + 50001)).dotCfgReq = false

/-- Whenever the dot clock is valid it has settled, on the family it is valid for. -/
def Core.Sound {r : DotClockRun} (core : r.Core) : Prop :=
  ∀ t, (r.state t).dotclkValid = true → ∃ a, t = a + 50001 ∧ core.SettledSince a

section Calm

variable {r}

theorem Calm.locked {u : Nat} (h : r.Calm u) : (r.inputs u).pllDotLocked = true := by
  unfold Calm DotClock.unsettled at h
  simp only [Bool.or_eq_false_iff, Bool.not_eq_false'] at h
  exact h.1.1

/-- A calm clock puts no write on the core's port. -/
theorem Calm.unwritten (core : r.Core) {a n : Nat} (h : ∀ k, k < n → r.Calm (a + k)) :
    core.writes (a + n) = core.writes a := by
  rw [core.writes_eq, core.writes_eq]
  induction n with
  | zero => rfl
  | succ n ih =>
    rw [← Nat.add_assoc, Clocked.journal_succ, ih fun k hk => h k (by omega),
      ((r.follows (a + n)).of_calm (h n (by omega))).1.issued, List.append_nil]

/-- In a calm clock in which the family is the wanted one no request is made. -/
theorem Calm.step_quiet {t : Nat} (h : r.Calm t) (hinit : (r.state t).initDone = true)
    (hrate : (r.state t).dotCfgRate = (r.state t).rateS3) :
    (r.state (t + 1)).cfg.Quiet ∧ (r.state (t + 1)).reqCnt = 0 ∧ (r.state (t + 1)).dotCfgReq = false := by
  obtain ⟨hquiet, hcnt, hreq, -⟩ := (r.follows t).of_calm h
  have hasks : (r.state t).asks (r.inputs t) = false := by
    unfold DotClock.asks
    rw [hinit, hrate]
    simp
  rw [state_succ]
  refine ⟨DotClock.quiet_step hquiet hreq, ?_, ?_⟩
  · rw [DotClock.step, hasks, hcnt]
    rfl
  · rw [DotClock.step, hcnt]
    rfl

end Calm

theorem Core.sound {r : DotClockRun} (core : r.Core) : core.Sound := by
  intro t hvalid
  obtain ⟨a, rfl⟩ : ∃ a, t = a + 50001 := ⟨t - 50001, by have := r.le_of_valid t hvalid; omega⟩
  obtain ⟨hcalm, hinit, hrate⟩ := (r.valid_iff a).mp hvalid
  have hlast := hcalm (a + 50000) (by omega) (le_refl _)
  obtain ⟨-, -, -, hlog⟩ := (r.follows (a + 50000)).of_calm hlast
  obtain ⟨before, hbefore⟩ := hlog hinit
  obtain ⟨hquiet, hcnt, hreq⟩ := hlast.step_quiet hinit hrate
  refine ⟨a, rfl, ?_, ?_, fun u hau hu => (hcalm u hau hu).locked, hquiet, hcnt, hreq⟩
  · refine ⟨before, ?_⟩
    have hend : core.writes (a + 50001) = r.issued (a + 50000) := core.writes_eq _
    rw [← hrate, ← hbefore, ← hend]
    exact (Calm.unwritten core fun k hk => hcalm (a + k) (by omega) (by omega)).symm
  · exact Calm.unwritten core fun k hk => hcalm (a + k) (by omega) (by omega)

/-! ## A core that makes the machine wait -/

/-- The core takes what is on its port in the clocks behind those in which it does not ask to wait, and in no others. -/
def Core.prompt (r : DotClockRun) : r.Core where
  accepts
    | 0 => false
    | t + 1 => !(r.inputs t).mgmtWaitrequest
  accepts_of_ready t hwait _ := by
    show (!(r.inputs t).mgmtWaitrequest) = true
    rw [hwait, Bool.not_false]

/-- The wanted family changes while the sequence of the first one is written, the core asks to wait in three clocks of
every eight, and the lock is lost for a while when the first family starts. -/
def stalledIn (t : Nat) : DotClockIn where
  coreDotRate := if t < 12 then 1 else 3
  pllDotLocked := !decide (24 ≤ t ∧ t < 28)
  mgmtWaitrequest := decide (t < 56 ∧ t % 8 < 3)

def stalled : DotClockRun := ⟨0, 0, 0, stalledIn⟩

/-- The control rests on family 3. -/
structure OnThree (s : DotClock) : Prop where
  rateS1 : s.rateS1 = 3
  rateS2 : s.rateS2 = 3
  rateS3 : s.rateS3 = 3
  initDone : s.initDone = true
  dotCfgRate : s.dotCfgRate = 3
  busy : s.cfg.busy = false
  reqCnt : s.reqCnt = 0

theorem stalled_calm {t : Nat} (ht : 56 ≤ t) (h : OnThree (stalled.state t)) : stalled.Calm t := by
  have hlock : (stalled.inputs t).pllDotLocked = true := by
    show (!decide (24 ≤ t ∧ t < 28)) = true
    rw [decide_eq_false (by omega), Bool.not_false]
  unfold Calm DotClock.unsettled
  rw [hlock, h.busy, h.reqCnt]
  rfl

theorem stalled_onThree {t : Nat} (ht : 56 ≤ t) : OnThree (stalled.state t) := by
  induction t, ht using Nat.le_induction with
  | base =>
    have hstate : (stalled.state 56).rateS1 = 3 ∧ (stalled.state 56).rateS2 = 3 ∧ (stalled.state 56).rateS3 = 3 ∧
        (stalled.state 56).initDone = true ∧ (stalled.state 56).dotCfgRate = 3 ∧
        (stalled.state 56).cfg.busy = false ∧ (stalled.state 56).reqCnt = 0 := by decide +kernel
    obtain ⟨h1, h2, h3, hinit, hrate, hbusy, hcnt⟩ := hstate
    exact ⟨h1, h2, h3, hinit, hrate, hbusy, hcnt⟩
  | succ t ht ih =>
    have hwanted : (stalled.inputs t).coreDotRate = 3 := if_neg (show ¬ t < 12 by omega)
    have hasks : (stalled.state t).asks (stalled.inputs t) = false := by
      unfold DotClock.asks
      rw [ih.initDone, ih.rateS3, ih.dotCfgRate]
      simp
    obtain ⟨hinit, hrate⟩ := DotClock.kept_of_not_asks hasks
    obtain ⟨hquiet, hcnt, -⟩ := (stalled_calm ht ih).step_quiet ih.initDone (ih.dotCfgRate.trans ih.rateS3.symm)
    rw [state_succ] at hquiet hcnt ⊢
    exact ⟨hwanted, ih.rateS1, ih.rateS2, hinit.trans ih.initDone, hrate.trans ih.dotCfgRate, hquiet.busy, hcnt⟩

/-- The clock that becomes valid fifty thousand and one clocks after the second sequence has settled. -/
theorem stalled_valid : (stalled.state (56 + 50001)).dotclkValid = true := by
  refine (stalled.valid_iff 56).2 ⟨fun u hu _ => stalled_calm hu (stalled_onThree hu), ?_, ?_⟩
  · exact (stalled_onThree (by omega)).initDone
  · have h := stalled_onThree (show 56 ≤ 56 + 50000 by omega)
    rw [h.dotCfgRate, h.rateS3]

theorem stalled_settled : ∃ a, 56 + 50001 = a + 50001 ∧ (Core.prompt stalled).SettledSince a :=
  Core.sound (Core.prompt stalled) (56 + 50001) stalled_valid

end DotClockRun

end Z486.Video
