/-
Writes to the device: the halves on the pins change the bytes that are not masked. Without DQM the bytes a
write leaves alone come from the old dword.
-/
import Z486.Sdram.Fetch

namespace Z486.Sdram

/-! ## Jobs -/

theorem halfs_three : ∀ v : BitVec 2, v = 3 → v.getLsbD 0 = true ∧ v.getLsbD 1 = true := by decide

/-- A job of one half writes the one that is set. -/
theorem halfs_one : ∀ v : BitVec 2, v ≠ 0 → v ≠ 3 → ∀ h : Bool,
    (if h then v.getLsbD 1 else v.getLsbD 0) = decide (h = !v.getLsbD 0) := by
  decide

namespace WriteJob

variable (p : SdramParams) (j : WriteJob)

/-- A half the job writes. -/
def touches (high : Bool) : Bool := if high then j.halfs.getLsbD 1 else j.halfs.getLsbD 0

def dataHalf (high : Bool) : BitVec 16 := if high then j.din.extractLsb' 16 16 else j.din.extractLsb' 0 16

def mask (high : Bool) : BitVec 2 :=
  if p.hasDqm then (if high then ~~~j.be.extractLsb' 2 2 else ~~~j.be.extractLsb' 0 2) else 0

/-- A half of a dword after the job. -/
def newHalf (high : Bool) (old : BitVec 16) : BitVec 16 :=
  if j.touches high then halfMerge (j.mask p high) old (j.dataHalf high) else old

variable {p j}

theorem halfAt_range {k : Nat} {high : Bool} (h : j.halfAt p k = some high) : p.tRcd + 1 ≤ k ∧ k < j.clocks p := by
  have hlt := j.lt_clocks (p := p)
  unfold halfAt at h
  split_ifs at h with h1 h2
  · omega
  · have hc : j.clocks p = p.tRcd + p.tDal + 1 := if_pos h2.2
    have hf := p.fits
    have hrcd := hf.rcd
    have hwr := hf.wr
    have hrp := p.tRp_eq
    have hd : p.tDal = p.tWr + p.tRp := rfl
    omega

end WriteJob

namespace DeviceRun

variable {r : DeviceRun} {b k : Nat} {port : Port} {j : WriteJob} {pulse : Option Port}

section Job

variable (hw : ∀ k, 1 ≤ k → k ≤ j.clocks r.p → Writing r.p port j pulse k (r.regs (b + k)))
  (hnone : (r.dev (b + 1)).row (r.p.chipOf j.addr) (bankOf r.p.large j.addr) = none)
include hw hnone

/-- The row of a job is open until its last half is written. -/
theorem job_row (hk : 2 ≤ k) (hle : k ≤ j.clocks r.p)
    (hbefore : ∀ m, 2 ≤ m → m < k → ∀ high, j.halfAt r.p m = some high → (high || !j.halfs.getLsbD 1) = false) :
    (r.dev (b + k)).row (r.p.chipOf j.addr) (bankOf r.p.large j.addr) = some (rowOf r.p.large j.addr) := by
  obtain ⟨n, rfl⟩ := Nat.exists_eq_add_of_le' hk
  rw [(by omega : b + (n + 2) = b + 1 + n + 1)]
  have hopen : r.bus (b + 1) = .activate (r.p.chipOf j.addr) (bankOf r.p.large j.addr) (rowOf r.p.large j.addr) :=
    (hw 1 le_rfl (by omega)).bus
  apply row_some hnone hopen
  rintro m h1 h2 ⟨d, hd⟩
  have hb : r.bus (b + 1 + m) = j.bus r.p (1 + m) := by
    rw [Nat.add_assoc]
    exact (hw (1 + m) (by omega) (by omega)).bus
  rw [hb] at hd
  unfold WriteJob.bus at hd
  rw [if_neg (by omega)] at hd
  cases hh : j.halfAt r.p (1 + m) with
  | none =>
    rw [hh] at hd
    exact hd
  | some high =>
    rw [hh] at hd
    have hap := hd.2.2.1
    rw [hbefore (1 + m) (by omega) (by omega) high hh] at hap
    cases hap

omit hnone in
/-- A clock of a job in which no half is on the pins. -/
theorem job_half_none (hk : 1 ≤ k) (hle : k ≤ j.clocks r.p) (hh : j.halfAt r.p k = none) (x : BitVec 27) (h : Bool) :
    (r.dev (b + k + 1)).half r.p x h = (r.dev (b + k)).half r.p x h := by
  unfold Device.half
  rw [cells_succ]
  have hb : r.bus (b + k) = j.bus r.p k := (hw k hk hle).bus
  rw [hb]
  unfold WriteJob.bus
  rw [hh]
  split_ifs <;> exact nofun

theorem job_half_some (hk : 2 ≤ k) (hle : k ≤ j.clocks r.p) {high : Bool} (hh : j.halfAt r.p k = some high)
    (hbefore : ∀ m, 2 ≤ m → m < k → ∀ high, j.halfAt r.p m = some high → (high || !j.halfs.getLsbD 1) = false)
    (x : BitVec 27) (h : Bool) : (r.dev (b + k + 1)).half r.p x h =
      if r.p.wordOf x = r.p.wordOf j.addr ∧ h = high then
        halfMerge (j.mask r.p high) ((r.dev (b + k)).half r.p x h) (j.dataHalf high)
      else (r.dev (b + k)).half r.p x h := by
  have hrow := job_row hw hnone hk hle hbefore
  have hwk := hw k (by omega) hle
  obtain ⟨hdata, hmask⟩ := hwk.data high hh
  have hb : (r.regs (b + k)).bus r.p = .write (r.p.chipOf j.addr) (bankOf r.p.large j.addr)
      (chipColumn r.p.large (columnOf r.p.large j.addr ++ BitVec.ofBool high)) (high || !j.halfs.getLsbD 1) := by
    rw [hwk.bus]
    unfold WriteJob.bus
    rw [if_neg (by omega), hh]
  have hdq : (r.regs (b + k)).dq (r.inp (b + k)) = j.dataHalf high := by
    unfold Controller.dq WriteJob.dataHalf
    rw [hwk.hiZ, hh]
    exact hdata
  have hdqm : (r.regs (b + k)).dqm r.p = j.mask r.p high := by
    unfold Controller.dqm WriteJob.mask
    rw [hmask]
  rw [r.dev_succ, hb, hdq, hdqm]
  exact half_step j.addr hrow x h

omit hnone in
theorem job_half_add (x : BitVec 27) (h : Bool) (hk : 1 ≤ k) {n : Nat} (hle : k + n ≤ j.clocks r.p)
    (hh : ∀ m, k ≤ m → m < k + n → j.halfAt r.p m = none) :
    (r.dev (b + (k + n))).half r.p x h = (r.dev (b + k)).half r.p x h := by
  induction n with
  | zero => rfl
  | succ n ih =>
    rw [(by omega : b + (k + (n + 1)) = b + (k + n) + 1),
      job_half_none hw (by omega) (by omega) (hh (k + n) (by omega) (by omega))]
    exact ih (by omega) fun m h1 h2 => hh m h1 (by omega)

/-- The halves of the device after a job. -/
theorem job_halves (x : BitVec 27) (h : Bool) : (r.dev (b + j.clocks r.p)).half r.p x h =
    if r.p.wordOf x = r.p.wordOf j.addr then j.newHalf r.p h ((r.dev (b + 1)).half r.p x h)
    else (r.dev (b + 1)).half r.p x h := by
  have hrcd := r.p.fits.rcd
  have hlt := j.lt_clocks (p := r.p)
  have hfirst : j.halfAt r.p (r.p.tRcd + 1) = some (!j.halfs.getLsbD 0) := if_pos rfl
  have hbefore : ∀ m, 1 ≤ m → m < r.p.tRcd + 1 → j.halfAt r.p m = none := by
    intro m h1 h2
    unfold WriteJob.halfAt
    rw [if_neg (by omega), if_neg (by omega)]
  -- until the first half nothing is written
  have hquiet := job_half_add hw x h (k := 1) (n := r.p.tRcd) le_rfl (by omega) fun m h1 h2 =>
    hbefore m h1 (by omega)
  rw [(by omega : 1 + r.p.tRcd = r.p.tRcd + 1)] at hquiet
  have hstep := job_half_some hw hnone (k := r.p.tRcd + 1) (by omega) (by omega) hfirst
    (fun m h1 h2 high hm => by rw [hbefore m (by omega) h2] at hm; cases hm) x h
  rw [hquiet] at hstep
  unfold WriteJob.newHalf WriteJob.touches
  by_cases h3 : j.halfs = 3
  · have h0 : j.halfs.getLsbD 0 = true ∧ j.halfs.getLsbD 1 = true := halfs_three j.halfs h3
    -- both halves: the low one, and the high one a clock later
    have hsecond : j.halfAt r.p (r.p.tRcd + 2) = some true := by
      unfold WriteJob.halfAt
      rw [if_neg (by omega), if_pos ⟨rfl, h3⟩]
    have hlast : r.p.tRcd + 3 ≤ j.clocks r.p := (j.halfAt_range hsecond).2
    have hstep2 := job_half_some hw hnone (k := r.p.tRcd + 2) (by omega) (by omega) hsecond
      (fun m h1 h2 high hm => by
        rcases Nat.lt_or_ge m (r.p.tRcd + 1) with hlt | hge
        · rw [hbefore m (by omega) hlt] at hm
          cases hm
        · rw [(by omega : m = r.p.tRcd + 1), hfirst] at hm
          rw [← Option.some.inj hm, h0.1, h0.2]
          rfl) x h
    have hend := job_half_add hw x h (k := r.p.tRcd + 3) (n := j.clocks r.p - (r.p.tRcd + 3)) (by omega) (by omega)
      fun m h1 h2 => by
        unfold WriteJob.halfAt
        rw [if_neg (by omega), if_neg (by omega)]
    rw [(by omega : r.p.tRcd + 3 + (j.clocks r.p - (r.p.tRcd + 3)) = j.clocks r.p)] at hend
    rw [hend, (by omega : b + (r.p.tRcd + 3) = b + (r.p.tRcd + 2) + 1), hstep2,
      (by omega : b + (r.p.tRcd + 2) = b + (r.p.tRcd + 1) + 1), hstep, h0.1, h0.2]
    by_cases hx : r.p.wordOf x = r.p.wordOf j.addr
    · cases h <;> simp [hx]
    · simp [hx]
  · -- the one half, and nothing after it
    have hend := job_half_add hw x h (k := r.p.tRcd + 2) (n := j.clocks r.p - (r.p.tRcd + 2)) (by omega) (by omega)
      fun m h1 h2 => by
        unfold WriteJob.halfAt
        rw [if_neg (by omega), if_neg fun hc => h3 hc.2]
    rw [(by omega : r.p.tRcd + 2 + (j.clocks r.p - (r.p.tRcd + 2)) = j.clocks r.p)] at hend
    rw [hend, (by omega : b + (r.p.tRcd + 2) = b + (r.p.tRcd + 1) + 1), hstep, halfs_one j.halfs j.some_half h3 h]
    by_cases hx : r.p.wordOf x = r.p.wordOf j.addr
    · by_cases hh : h = !j.halfs.getLsbD 0
      · rw [if_pos ⟨hx, hh⟩, if_pos hx, if_pos (decide_eq_true hh), hh]
      · rw [if_neg fun hc => hh hc.2, if_pos hx, if_neg (by rwa [decide_eq_true_eq])]
    · rw [if_neg fun hc => hx hc.1, if_neg hx]

end Job

/-! ## Writes -/

section Accepted

variable {a : Nat} (hi : r.Idle a) (ha : r.accepts a = some port) (hwr : ((r.inp a).req port).wr = true)
include hi ha hwr

/-- A write that needs no old dword. -/
theorem write_halves (hn : ((r.inp a).req port).needsOld r.p = false) (x : BitVec 27) (h : Bool) :
    (r.dev (a + ((r.inp a).req port).clocks r.p)).half r.p x h =
      if r.p.wordOf x = r.p.wordOf ((r.inp a).req port).addr then
        (((r.inp a).req port).job r.p).newHalf r.p h ((r.dev a).half r.p x h)
      else (r.dev a).half r.p x h := by
  have hz := r.hiZ_of_idle hi.state
  obtain ⟨hc, -⟩ := SdramReq.of_write hwr hn
  rw [hc, job_halves (fun k h1 h2 => r.writing ha hz hwr hn h1 h2) (row_accepted hi _), half_accepted hi]
  rfl

section Old

variable (hn : ((r.inp a).req port).needsOld r.p = true)
include hn

/-- What is on the pins while the old dword is read. -/
theorem old_bus (hk : 1 ≤ k) (hle : k ≤ r.p.rmwClocks ((r.inp a).req port)) :
    r.bus (a + k) = rmwBus r.p ((r.inp a).req port) k := by
  obtain ⟨hc, -, hb, -⟩ := SdramReq.of_rewrite hwr hn
  rw [access_bus hi ha hk (by omega), hb k hle]

theorem old_no_write (hk : 1 ≤ k) (hle : k ≤ r.p.rmwClocks ((r.inp a).req port)) (c : Bool) (bank : BitVec 2)
    (cl : BitVec 10) (ap : Bool) : r.bus (a + k) ≠ .write c bank cl ap := by
  rw [old_bus hi ha hwr hn hk hle]
  unfold rmwBus
  split_ifs <;> exact nofun

/-- The halves of the old dword reach the capture register. -/
theorem old_captured {m : Nat} (hm : m < ((r.inp a).req port).oldHalfs r.p) :
    (r.regs (a + (r.p.readStart + m))).dqR =
      (r.dev a).half r.p ((r.inp a).req port).addr (((r.inp a).req port).oldHalf r.p m) := by
  have hrcd := r.p.fits.rcd
  have hb := fun k => r.old_bus hi ha hwr hn (k := k)
  have hnw := fun k => r.old_no_write hi ha hwr hn (k := k)
  generalize (r.inp a).req port = q at hm hb hnw ⊢
  have hclk : r.p.rmwClocks q = r.p.tRcd + r.p.cas + 2 + q.oldHalfs r.p := rfl
  have hopen : r.bus (a + 1) = .activate (r.p.chipOf q.addr) (bankOf r.p.large q.addr) (rowOf r.p.large q.addr) :=
    hb 1 le_rfl (by omega)
  have hread : r.bus (a + (r.p.tRcd + 1 + m)) = .read (r.p.chipOf q.addr) (bankOf r.p.large q.addr)
      (chipColumn r.p.large (columnOf r.p.large q.addr ++ BitVec.ofBool (q.oldHalf r.p m)))
      (decide (r.p.tRcd + 1 + m = r.p.tRcd + q.oldHalfs r.p)) := by
    rw [hb _ (by omega) (by omega)]
    unfold rmwBus
    rw [if_neg (by omega), if_pos (by omega), (by omega : r.p.tRcd + 1 + m - 1 - r.p.tRcd = m)]
  have hno : ∀ j, 2 ≤ j → j < r.p.tRcd + 1 + m → ¬ r.closes (a + j) (r.p.chipOf q.addr) (bankOf r.p.large q.addr) := by
    rintro j h1 h2 ⟨d, hd⟩
    rw [hb j (by omega) (by omega)] at hd
    unfold rmwBus at hd
    rw [if_neg (by omega)] at hd
    split_ifs at hd
    · have hap := hd.2.2.1
      rw [decide_eq_true_eq] at hap
      omega
    · exact hd
  have h := captured (row_accepted hi q.addr) hopen (by omega) hread hno fun j h1 h2 => hnw j h1 (by omega)
  rw [(by unfold SdramParams.readStart; omega : a + (r.p.readStart + m) = a + (r.p.tRcd + 1 + m) + r.p.cas + 1), h]
  exact half_accepted hi q.addr (q.oldHalf r.p m)

theorem old_next {m : Nat} (hm : m < ((r.inp a).req port).oldHalfs r.p) :
    (r.regs (a + (r.p.readStart + (m + 1)))).rmwOldData =
      if ((r.inp a).req port).oldHalf r.p m then
        (r.dev a).half r.p ((r.inp a).req port).addr true ++
          (r.regs (a + (r.p.readStart + m))).rmwOldData.extractLsb' 0 16
      else (r.regs (a + (r.p.readStart + m))).rmwOldData.extractLsb' 16 16 ++
        (r.dev a).half r.p ((r.inp a).req port).addr false := by
  have hz := r.hiZ_of_idle hi.state
  have hcap := r.old_captured hi ha hwr hn hm
  have hold := fun k => r.oldReading (k := k) ha hz hwr hn
  generalize (r.inp a).req port = q at hm hcap hold ⊢
  have hclk : r.p.rmwClocks q = r.p.readStart + q.oldHalfs r.p := rfl
  have hpos : 1 ≤ r.p.readStart := by
    unfold SdramParams.readStart
    omega
  have hnow := hold (r.p.readStart + m) (by omega) (by omega)
  have hnext := (hnow.next (i := r.inp (a + (r.p.readStart + m))) (by omega) (by omega)).old_eq
  rw [← r.next, if_pos (by omega)] at hnext
  rw [(by omega : a + (r.p.readStart + (m + 1)) = a + (r.p.readStart + m) + 1), hnext]
  unfold Controller.rmwWord
  have hhalf : (r.regs (a + (r.p.readStart + m))).rmwHalf (r.regs (a + (r.p.readStart + m))).rmwReceived =
      q.oldHalf r.p m := by
    unfold Controller.rmwHalf SdramReq.oldHalf
    rw [hnow.readHalfs, hnow.received, (by omega : r.p.readStart + m - r.p.readStart = m)]
  rw [hhalf, hcap]
  cases q.oldHalf r.p m with
  | true => simp only [if_true]
  | false => simp only [Bool.false_eq_true, if_false]

/-- The halves of the old dword that the write goes to have been read when the row is opened again. -/
theorem old_halves {h : Bool} (ht : (((r.inp a).req port).job r.p).touches h = true) :
    (if h then (r.regs (a + r.p.rmwClocks ((r.inp a).req port))).rmwOldData.extractLsb' 16 16
      else (r.regs (a + r.p.rmwClocks ((r.inp a).req port))).rmwOldData.extractLsb' 0 16) =
      (r.dev a).half r.p ((r.inp a).req port).addr h := by
  have hstep := fun m => r.old_next hi ha hwr hn (m := m)
  generalize (r.inp a).req port = q at ht hstep ⊢
  have hclk : r.p.rmwClocks q = r.p.readStart + q.oldHalfs r.p := rfl
  have hq : (q.job r.p).halfs = q.halfs r.p := rfl
  unfold WriteJob.touches at ht
  unfold SdramReq.oldHalfs at hclk hstep
  unfold SdramReq.oldHalf at hstep
  rw [hclk]
  rcases (q.job r.p).halfs_cases with h1 | h1 | h1
  all_goals
    rw [h1] at ht
    rw [hq] at h1
    simp only [h1] at hstep ⊢
  · -- the low half
    have hlow := hstep 0 (by decide)
    cases h
    · rw [if_neg (by decide), if_neg (by decide)]
      rw [if_neg (by decide)] at hlow
      rw [hlow]
      exact (extract_append _ _).2
    · cases ht
  · -- the high half
    have hhigh := hstep 0 (by decide)
    cases h
    · cases ht
    · rw [if_pos rfl, if_neg (by decide)]
      rw [if_pos (by decide)] at hhigh
      rw [hhigh]
      exact (extract_append _ _).1
  · -- both, one after the other
    have hlow := hstep 0 (by decide)
    have hhigh := hstep 1 (by decide)
    rw [if_neg (by decide)] at hlow
    rw [if_pos (by decide), hlow, (extract_append _ _).2] at hhigh
    rw [if_pos (by decide : ((3 : BitVec 2) == 3) = true), hhigh]
    cases h
    · exact (extract_append _ _).2
    · exact (extract_append _ _).1

/-- A write that needs the old dword. -/
theorem rewrite_halves (x : BitVec 27) (h : Bool) :
    (r.dev (a + ((r.inp a).req port).clocks r.p)).half r.p x h =
      if r.p.wordOf x = r.p.wordOf ((r.inp a).req port).addr then
        (((r.inp a).req port).mergedJob r.p (r.regs (a + r.p.rmwClocks ((r.inp a).req port))).rmwOldData).newHalf r.p h
          ((r.dev a).half r.p x h)
      else (r.dev a).half r.p x h := by
  have hz := r.hiZ_of_idle hi.state
  have hrcd := r.p.fits.rcd
  obtain ⟨hc, -⟩ := SdramReq.of_rewrite hwr hn
  have hb := fun k => r.old_bus hi ha hwr hn (k := k)
  have hnw := fun k => r.old_no_write hi ha hwr hn (k := k)
  have hold := ((r.inp a).req port).oldHalfs_le r.p
  have hclk : r.p.rmwClocks ((r.inp a).req port) = r.p.tRcd + r.p.cas + 2 + ((r.inp a).req port).oldHalfs r.p := rfl
  have hcells : (r.dev (a + 1 + r.p.rmwClocks ((r.inp a).req port))).cells = (r.dev (a + 1)).cells := by
    apply cells_add
    intro k hk
    rw [Nat.add_assoc]
    exact hnw (1 + k) (by omega) (by omega)
  -- the last read of the old dword has closed the bank
  have hclosed : r.closes (a + (r.p.tRcd + ((r.inp a).req port).oldHalfs r.p)) (r.p.chipOf ((r.inp a).req port).addr)
      (bankOf r.p.large ((r.inp a).req port).addr) := by
    refine ⟨1 + r.p.tRp, ?_⟩
    rw [hb _ (by omega) (by omega)]
    unfold rmwBus
    rw [if_neg (by omega), if_pos (by omega)]
    exact ⟨rfl, rfl, decide_eq_true rfl, le_rfl⟩
  have hnone : (r.dev (a + r.p.rmwClocks ((r.inp a).req port) + 1)).row (r.p.chipOf ((r.inp a).req port).addr)
      (bankOf r.p.large ((r.inp a).req port).addr) = none := by
    have h := row_none (row_of_closes hclosed) (n := r.p.cas + 2) ?_
    · rw [(by omega : a + (r.p.tRcd + ((r.inp a).req port).oldHalfs r.p) + 1 + (r.p.cas + 2) =
        a + r.p.rmwClocks ((r.inp a).req port) + 1)] at h
      exact h
    · intro k hk
      rw [(by omega : a + (r.p.tRcd + ((r.inp a).req port).oldHalfs r.p) + 1 + k =
        a + (r.p.tRcd + ((r.inp a).req port).oldHalfs r.p + 1 + k)), hb _ (by omega) (by omega)]
      unfold rmwBus
      rw [if_neg (by omega), if_neg (by omega)]
      exact nofun
  have hjob := job_halves (b := a + r.p.rmwClocks ((r.inp a).req port))
    (fun k h1 h2 => r.rewriting ha hz hwr hn h1 h2) hnone x h
  have hsame : (r.dev (a + r.p.rmwClocks ((r.inp a).req port) + 1)).half r.p x h = (r.dev a).half r.p x h := by
    rw [← half_accepted hi]
    unfold Device.half
    rw [Nat.add_right_comm, hcells]
  rw [hsame] at hjob
  rw [hc, ← Nat.add_assoc]
  exact hjob

end Old

end Accepted

end DeviceRun

/-! ## The halves a write leaves -/

section NewHalf

variable {p : SdramParams} {q : SdramReq}

/-- The mask and the data of a half of a write request. -/
def SdramReq.maskHalf (q : SdramReq) (h : Bool) : BitVec 2 :=
  if h then ~~~q.be.extractLsb' 2 2 else ~~~q.be.extractLsb' 0 2

def SdramReq.dinHalf (q : SdramReq) (h : Bool) : BitVec 16 :=
  if h then q.din.extractLsb' 16 16 else q.din.extractLsb' 0 16

/-- Without DQM, the halves that are not written have no byte enabled. -/
theorem untouched_mask : ∀ (be : BitVec 4) (h : Bool),
    (if h then (halvesOf be).getLsbD 1 else (halvesOf be).getLsbD 0) = false →
    (if h then ~~~be.extractLsb' 2 2 else ~~~be.extractLsb' 0 2) = 3 := by decide

/-- Without the old dword, the halves that are written have both bytes enabled. -/
theorem touched_mask : ∀ (be : BitVec 4) (h : Bool), (be != 0x3 && be != 0xC && be != 0xF) = false →
    (if h then (halvesOf be).getLsbD 1 else (halvesOf be).getLsbD 0) = true →
    (if h then ~~~be.extractLsb' 2 2 else ~~~be.extractLsb' 0 2) = 0 := by decide

theorem job_newHalf (hn : q.needsOld p = false) (h : Bool) (old : BitVec 16) :
    (q.job p).newHalf p h old = halfMerge (q.maskHalf h) old (q.dinHalf h) := by
  unfold SdramReq.needsOld at hn
  unfold WriteJob.newHalf WriteJob.touches WriteJob.mask
  have hhalfs : (q.job p).halfs = if p.hasDqm then 3 else halvesOf q.be := rfl
  cases hd : p.hasDqm
  · rw [hd] at hn hhalfs
    rw [Bool.not_false, Bool.true_and] at hn
    rw [if_neg (by decide)] at hhalfs
    rw [hhalfs, if_neg Bool.false_ne_true]
    unfold SdramReq.maskHalf
    by_cases ht : (if h then (halvesOf q.be).getLsbD 1 else (halvesOf q.be).getLsbD 0) = true
    · rw [if_pos ht, halfMerge_none, touched_mask q.be h hn ht, halfMerge_none]
      rfl
    · rw [if_neg ht, untouched_mask q.be h (Bool.not_eq_true _ ▸ ht), halfMerge_all]
  · rw [hd, if_pos rfl] at hhalfs
    obtain ⟨h0, h1⟩ := halfs_three _ hhalfs
    rw [h0, h1, ite_self, if_pos rfl, if_pos rfl]
    rfl

theorem mergedJob_newHalf (hn : q.needsOld p = true) (h : Bool) (old : BitVec 16) (reg : BitVec 32)
    (hreg : (q.job p).touches h = true → (if h then reg.extractLsb' 16 16 else reg.extractLsb' 0 16) = old) :
    (q.mergedJob p reg).newHalf p h old = halfMerge (q.maskHalf h) old (q.dinHalf h) := by
  have hd : p.hasDqm = false := by
    unfold SdramReq.needsOld at hn
    cases hd : p.hasDqm
    · rfl
    · rw [hd] at hn
      cases hn
  have hhalfs : (q.job p).halfs = halvesOf q.be := by
    show q.halfs p = _
    unfold SdramReq.halfs
    rw [hd, if_neg (by decide)]
  have htouch : (q.mergedJob p reg).touches h = (q.job p).touches h := rfl
  unfold WriteJob.newHalf WriteJob.mask
  rw [htouch, hd, if_neg Bool.false_ne_true]
  split_ifs with ht
  · rw [halfMerge_none, ← hreg ht]
    show (if h then (byteMerge reg q.din q.be).extractLsb' 16 16 else (byteMerge reg q.din q.be).extractLsb' 0 16) = _
    rw [byteMerge_eq]
    cases h
    · exact (extract_append _ _).2
    · exact (extract_append _ _).1
  · unfold WriteJob.touches at ht
    rw [hhalfs] at ht
    unfold SdramReq.maskHalf
    rw [untouched_mask q.be h (Bool.not_eq_true _ ▸ ht), halfMerge_all]

end NewHalf

end Z486.Sdram
