/-
The row timing of the commands on the SDRAM pins: the row cycle time, the delay from opening a row to
its columns, the recovery after a write, and refreshes of closed banks only.
-/
import Z486.Sdram.Access
import Z486.Clocked.Spacing

namespace Z486.Sdram

open Clocked

/-! ## Commands and banks -/

namespace BusCmd

variable (chip : Bool) (bank : BitVec 2)

/-- Opens a row of the bank. -/
def Activates : BusCmd → Prop
  | .activate c b _ => c = chip ∧ b = bank
  | _ => False

/-- Begins a row cycle of the bank; a refresh is one of all banks. -/
def Cycles : BusCmd → Prop
  | .activate c b _ => c = chip ∧ b = bank
  | .refresh c => c = chip
  | _ => False

/-- Reads or writes a column of the bank. -/
def Columns : BusCmd → Prop
  | .read c b _ _ => c = chip ∧ b = bank
  | .write c b _ _ => c = chip ∧ b = bank
  | _ => False

/-- Writes and closes the row. -/
def WritesAp : BusCmd → Prop
  | .write c b _ ap => c = chip ∧ b = bank ∧ ap = true
  | _ => False

/-- The bank is precharged `d` clocks after the command. -/
def Precharges (p : SdramParams) (d : Nat) : BusCmd → Prop
  | .read c b _ ap => c = chip ∧ b = bank ∧ ap = true ∧ 1 + p.tRp ≤ d
  | .write c b _ ap => c = chip ∧ b = bank ∧ ap = true ∧ p.tWr + p.tRp ≤ d
  | .preCharge c all => c = chip ∧ all = true ∧ p.tRp ≤ d
  | _ => False

variable {chip bank}

theorem Activates.cycles {c : BusCmd} (h : c.Activates chip bank) : c.Cycles chip bank := by
  cases c <;> first | exact h | exact h.elim

end BusCmd

/-! ## The commands of an access -/

section Commands

variable {p : SdramParams} {q : SdramReq} {k : Nat} {chip : Bool} {bank : BitVec 2}

/-- The bank of a request. -/
def SdramReq.bankIs (p : SdramParams) (q : SdramReq) (chip : Bool) (bank : BitVec 2) : Prop :=
  p.chipOf q.addr = chip ∧ bankOf p.large q.addr = bank

/-- What matters for the timing of the command on the pins `k` clocks after a row was first opened: `a` is the clock
before it was last opened by then. -/
structure AccessCmd (p : SdramParams) (q : SdramReq) (a k : Nat) (c : BusCmd) : Prop where
  cycles : ∀ chip bank, c.Cycles chip bank → q.bankIs p chip bank ∧ k = a + 1
  columns : ∀ chip bank, c.Columns chip bank → a + p.tRcd + 1 ≤ k
  writesAp : ∀ chip bank, c.WritesAp chip bank → k + (p.tWr + p.tRp) = q.clocks p + 1

theorem AccessCmd.nop {a : Nat} : AccessCmd p q a k .nop := ⟨nofun, nofun, nofun⟩

theorem readBus_cmd : AccessCmd p q 0 k (readBus p q k) := by
  unfold readBus
  split_ifs with h1 h2
  · exact ⟨fun _ _ h => ⟨h, h1⟩, nofun, nofun⟩
  · exact ⟨nofun, fun _ _ _ => by omega, nofun⟩
  · exact AccessCmd.nop

theorem rmwBus_cmd : AccessCmd p q 0 k (rmwBus p q k) := by
  unfold rmwBus
  split_ifs with h1 h2
  · exact ⟨fun _ _ h => ⟨h, h1⟩, nofun, nofun⟩
  · exact ⟨nofun, fun _ _ _ => by omega, nofun⟩
  · exact AccessCmd.nop

/-- The half of a job that closes the row, and what time it leaves. -/
theorem WriteJob.halfAt_last {j : WriteJob} {high : Bool} (h : j.halfAt p k = some high)
    (hap : (high || !j.halfs.getLsbD 1) = true) : k + p.tDal = j.clocks p + 1 := by
  have hbits : ∀ h : BitVec 2, h = 3 → h.getLsbD 0 = true ∧ h.getLsbD 1 = true := by decide
  unfold WriteJob.halfAt at h
  unfold WriteJob.clocks
  split_ifs at h with h1 h2
  · rcases j.halfs_cases with hj | hj | hj
    · rw [hj, if_neg (by decide)]
      omega
    · rw [hj, if_neg (by decide)]
      omega
    · obtain ⟨b0, b1⟩ := hbits _ hj
      rw [b0] at h
      rw [b1, ← Option.some.inj h] at hap
      cases hap
  · rw [if_pos h2.2]
    omega

theorem job_bus_cmd {a : Nat} (hc : q.clocks p = a + (q.job p).clocks p) :
    AccessCmd p q a (a + k) ((q.job p).bus p k) := by
  unfold WriteJob.bus
  split_ifs with h1
  · exact ⟨fun _ _ h => ⟨h, by omega⟩, nofun, nofun⟩
  · cases hh : (q.job p).halfAt p k with
    | none => exact AccessCmd.nop
    | some high =>
      refine ⟨nofun, fun _ _ _ => ?_, fun chip bank hw => ?_⟩
      · unfold WriteJob.halfAt at hh
        split_ifs at hh <;> omega
      · have hlast := WriteJob.halfAt_last hh hw.2.2
        unfold SdramParams.tDal at hlast
        omega

/-- The clock before the row was last opened, as of clock `k`. -/
def SdramReq.opened (p : SdramParams) (q : SdramReq) (k : Nat) : Nat := if k ≤ q.reopened p then 0 else q.reopened p

theorem SdramReq.bus_cmd (p : SdramParams) (q : SdramReq) (k : Nat) : AccessCmd p q (q.opened p k) k (q.bus p k) := by
  unfold SdramReq.opened
  cases hw : q.wr
  · obtain ⟨-, ho, hb⟩ := SdramReq.of_read (p := p) hw
    rw [ho, ite_self, hb]
    exact readBus_cmd
  · cases hn : q.needsOld p
    · obtain ⟨hc, ho, hb⟩ := SdramReq.of_write hw hn
      have h := job_bus_cmd (a := 0) (k := k) (hc.trans (Nat.zero_add _).symm)
      rw [ho, ite_self, hb]
      rwa [Nat.zero_add] at h
    · obtain ⟨hc, ho, hb, hb'⟩ := SdramReq.of_rewrite hw hn
      rw [ho]
      split_ifs with hk
      · rw [hb k hk]
        exact rmwBus_cmd
      · obtain ⟨j, rfl⟩ := Nat.exists_eq_add_of_lt (Nat.lt_of_not_le hk)
        rw [Nat.add_assoc, hb' (j + 1) (by omega)]
        exact job_bus_cmd hc

theorem halfs_bits : ∀ h : BitVec 2, (h = 1 → h.getLsbD 1 = false) ∧ (h = 2 → h.getLsbD 0 = false) := by decide

/-- The last half of a job closes the row. -/
theorem WriteJob.closes (j : WriteJob) : ∃ k, p.tRcd + 1 ≤ k ∧ k < j.clocks p ∧
    (j.bus p k).Precharges (p.chipOf j.addr) (bankOf p.large j.addr) p (j.clocks p + 1 - k) := by
  have hrcd := p.fits.rcd
  have hlt := j.lt_clocks (p := p)
  have hlast : ∀ k high, k ≠ 1 → j.halfAt p k = some high → (high || !j.halfs.getLsbD 1) = true →
      (j.bus p k).Precharges (p.chipOf j.addr) (bankOf p.large j.addr) p (j.clocks p + 1 - k) := by
    intro k high hk hh hap
    have htime := WriteJob.halfAt_last hh hap
    unfold SdramParams.tDal at htime
    unfold WriteJob.bus
    rw [if_neg hk, hh]
    exact ⟨rfl, rfl, hap, by omega⟩
  by_cases h3 : j.halfs = 3
  · have hwr := p.fits.wr
    have hrp := p.tRp_eq
    have hc : j.clocks p = p.tRcd + (p.tWr + p.tRp) + 1 := if_pos h3
    refine ⟨p.tRcd + 2, by omega, by omega, hlast _ true (by omega) ?_ rfl⟩
    unfold WriteJob.halfAt
    rw [if_neg (by omega), if_pos ⟨rfl, h3⟩]
  · refine ⟨p.tRcd + 1, le_rfl, by omega, hlast _ (!j.halfs.getLsbD 0) (by omega) ?_ ?_⟩
    · unfold WriteJob.halfAt
      rw [if_pos rfl]
    · rcases j.halfs_cases with hj | hj | hj
      · rw [(halfs_bits _).1 hj, Bool.not_false, Bool.or_true]
      · rw [(halfs_bits _).2 hj]
        rfl
      · exact absurd hj h3

theorem SdramReq.bus_opens (p : SdramParams) (q : SdramReq) :
    (q.bus p 1).Activates (p.chipOf q.addr) (bankOf p.large q.addr) ∧
      (q.bus p (q.reopened p + 1)).Activates (p.chipOf q.addr) (bankOf p.large q.addr) := by
  cases hw : q.wr
  · obtain ⟨-, ho, hb⟩ := SdramReq.of_read (p := p) hw
    rw [ho, hb]
    exact ⟨⟨rfl, rfl⟩, rfl, rfl⟩
  · cases hn : q.needsOld p
    · obtain ⟨-, ho, hb⟩ := SdramReq.of_write hw hn
      rw [ho, hb]
      exact ⟨⟨rfl, rfl⟩, rfl, rfl⟩
    · obtain ⟨-, ho, hb, hb'⟩ := SdramReq.of_rewrite hw hn
      have hpos : 1 ≤ p.rmwClocks q := by
        unfold SdramParams.rmwClocks SdramParams.readStart
        omega
      rw [ho, hb 1 hpos, hb' 1 le_rfl]
      exact ⟨⟨rfl, rfl⟩, rfl, rfl⟩

/-- A row opened a second time is opened after the first row cycle. -/
theorem SdramReq.reopened_cases (p : SdramParams) (q : SdramReq) : p.tRcd + 2 + q.reopened p ≤ q.clocks p ∧
    (q.reopened p = 0 ∨ (p.tRc ≤ q.reopened p ∧ p.tWr + p.tRp ≤ q.reopened p ∧
      q.reopened p + p.tRcd + (p.tWr + p.tRp) ≤ q.clocks p)) := by
  have hf := p.fits
  have hrcd := hf.rcd
  have hcas := hf.cas
  have hwr := hf.wr
  have hrmw := hf.rmw
  have hrp := p.tRp_eq
  have hlt := (q.job p).lt_clocks (p := p)
  cases hw : q.wr
  · have he := q.effBurst_pos
    obtain ⟨hc, ho, -⟩ := SdramReq.of_read (p := p) hw
    have hr : p.readClocks q = p.tRcd + p.cas + 2 + 2 * q.effBurst := rfl
    exact ⟨by omega, Or.inl ho⟩
  · cases hn : q.needsOld p
    · obtain ⟨hc, ho, -⟩ := SdramReq.of_write hw hn
      exact ⟨by omega, Or.inl ho⟩
    · obtain ⟨hc, ho, -⟩ := SdramReq.of_rewrite hw hn
      have hold := q.oldHalfs_le p
      have hr : p.rmwClocks q = p.tRcd + p.cas + 2 + q.oldHalfs p := rfl
      have hj : p.tRcd + (p.tWr + p.tRp) ≤ (q.job p).clocks p := by
        unfold WriteJob.clocks SdramParams.tDal
        split <;> omega
      exact ⟨by omega, Or.inr ⟨by omega, by omega, by omega⟩⟩

/-- With DQM, or where a half-word write is long enough, the last row cycle of an access is over when it ends. -/
theorem SdramReq.rowCycle_le {p : SdramParams} (h : p.hasDqm = true ∨ p.tRc ≤ p.tRcd + p.tDal) (q : SdramReq) :
    p.tRc + q.reopened p ≤ q.clocks p := by
  have hf := p.fits
  have hrmw := hf.rmw
  have hfull := hf.fullWrite
  have hjob : p.tRc ≤ (q.job p).clocks p := by
    unfold WriteJob.clocks
    split_ifs with h3
    · unfold SdramParams.tDal
      omega
    · refine h.resolve_left fun hd => h3 ?_
      show q.halfs p = 3
      unfold SdramReq.halfs
      rw [if_pos hd]
  cases hw : q.wr
  · have he := q.effBurst_pos
    obtain ⟨hc, ho, -⟩ := SdramReq.of_read (p := p) hw
    have hr : p.readClocks q = p.tRcd + p.cas + 2 + 2 * q.effBurst := rfl
    omega
  · cases hn : q.needsOld p
    · obtain ⟨hc, ho, -⟩ := SdramReq.of_write hw hn
      omega
    · obtain ⟨hc, ho, -⟩ := SdramReq.of_rewrite hw hn
      omega

/-- Each access closes its row, in time for the next command. -/
theorem SdramReq.closes (p : SdramParams) (q : SdramReq) : ∃ k, q.reopened p + 1 < k ∧ k < q.clocks p ∧
    (q.bus p k).Precharges (p.chipOf q.addr) (bankOf p.large q.addr) p (q.clocks p + 1 - k) := by
  have hf := p.fits
  have hrcd := hf.rcd
  have hcas := hf.cas
  have hrp := p.tRp_eq
  cases hw : q.wr
  · have he := q.effBurst_pos
    obtain ⟨hc, ho, hb⟩ := SdramReq.of_read (p := p) hw
    have hr : p.readClocks q = p.tRcd + p.cas + 2 + 2 * q.effBurst := rfl
    refine ⟨p.tRcd + 2 * q.effBurst, by omega, by omega, ?_⟩
    rw [hb]
    unfold readBus
    rw [if_neg (by omega), if_pos (by omega)]
    exact ⟨rfl, rfl, decide_eq_true rfl, by omega⟩
  · obtain ⟨k, h1, h2, h3⟩ := (q.job p).closes (p := p)
    cases hn : q.needsOld p
    · obtain ⟨hc, ho, hb⟩ := SdramReq.of_write hw hn
      exact ⟨k, by omega, by omega, by rw [hb, hc]; exact h3⟩
    · obtain ⟨hc, ho, -, hb⟩ := SdramReq.of_rewrite hw hn
      refine ⟨p.rmwClocks q + k, by omega, by omega, ?_⟩
      rw [hb k (by omega), hc, (by omega : p.rmwClocks q + (q.job p).clocks p + 1 - (p.rmwClocks q + k) =
        (q.job p).clocks p + 1 - k)]
      exact h3

end Commands

/-! ## Timing of a run -/

namespace SdramRun

variable (r : SdramRun) {t k : Nat} {port : Port} {chip : Bool} {bank : BitVec 2}

/-- A command before clock `t` has closed the bank in time, and no row of it was opened since. -/
def Precharged (t : Nat) (chip : Bool) (bank : BitVec 2) : Prop :=
  ∃ u, u < t ∧ (r.bus u).Precharges chip bank r.p (t - u) ∧ ∀ v, u < v → v < t → ¬ (r.bus v).Activates chip bank

/-- The command of clock `t` comes late enough after those before it, and a refresh finds every bank closed. -/
structure KeepsTiming (t : Nat) : Prop where
  rowCycle : ∀ chip bank, (r.bus t).Cycles chip bank → Quiet (fun u => (r.bus u).Cycles chip bank) t r.p.tRc
  column : ∀ chip bank, (r.bus t).Columns chip bank → Quiet (fun u => (r.bus u).Activates chip bank) t r.p.tRcd
  recovery : ∀ chip bank, (r.bus t).Cycles chip bank →
    Quiet (fun u => (r.bus u).WritesAp chip bank) t (r.p.tWr + r.p.tRp)
  precharged : ∀ chip bank, r.bus t = .refresh chip → r.Precharged t chip bank

/-- The bank of the last access, as the buffers have it. -/
def lastBank (t : Nat) (chip : Bool) (bank : BitVec 2) : Prop :=
  (r.regs t).reqChipBuf = chip ∧ bankOf (r.regs t).reqLargeBuf (r.regs t).addrBuf = bank

/-- Clock `t` begins a row cycle of the bank of the last access while that bank's own row cycle lasts: `cycle`
counts from the command that began it. -/
def TooSoon (t : Nat) : Prop :=
  (∃ port, r.accepts t = some port ∧
    r.lastBank t (r.p.chipOf ((r.inp t).req port).addr) (bankOf r.p.large ((r.inp t).req port).addr) ∧
    (r.regs t).cycle < r.p.tRc) ∨
  (r.refreshes t = true ∧ (((r.regs t).reqChipBuf = false ∧ (r.regs t).cycle < r.p.tRc) ∨
    (r.p.twoChips = true ∧ (r.regs t).reqChipBuf = true ∧ (r.regs t).cycle + 1 < r.p.tRc)))

variable {r}

theorem Precharged.add {n : Nat} (h : r.Precharged (t + 1) chip bank)
    (hround : ∀ j, 1 ≤ j → j ≤ n → ¬ (r.bus (t + j)).Activates chip bank) : r.Precharged (t + n + 1) chip bank := by
  obtain ⟨u, hu, hp, hno⟩ := h
  refine ⟨u, by omega, ?_, ?_⟩
  · revert hp
    cases r.bus u with
    | read c b col ap =>
      rintro ⟨h1, h2, h3, h4⟩
      exact ⟨h1, h2, h3, by omega⟩
    | write c b col ap =>
      rintro ⟨h1, h2, h3, h4⟩
      exact ⟨h1, h2, h3, by omega⟩
    | preCharge c all =>
      rintro ⟨h1, h2, h3⟩
      exact ⟨h1, h2, by omega⟩
    | _ => exact id
  · intro v hv hlt hact
    rcases Nat.lt_or_ge v (t + 1) with h | h
    · exact hno v hv h hact
    · exact hround (v - t) (by omega) (by omega) (by rwa [Nat.add_sub_cancel' (by omega)])

/-- What holds in `IDLE`, of all commands up to that clock. -/
structure Rested (r : SdramRun) (t : Nat) : Prop where
  cycle : r.p.tRcd + 2 ≤ (r.regs t).cycle
  own : ∀ chip bank, r.lastBank t chip bank →
    Quiet (fun u => (r.bus u).Cycles chip bank) (t + 1) (min (r.regs t).cycle r.p.tRc)
  others : ∀ chip bank, ¬ r.lastBank t chip bank → Quiet (fun u => (r.bus u).Cycles chip bank) (t + 1) r.p.tRc
  recovery : ∀ chip bank, Quiet (fun u => (r.bus u).WritesAp chip bank) (t + 1) (r.p.tWr + r.p.tRp)
  closed : ∀ chip bank, (chip = true → r.p.twoChips = true) → r.Precharged (t + 1) chip bank

theorem keepsTiming_of_nop (h : r.bus t = .nop) : r.KeepsTiming t := by
  constructor
  · rw [h]
    exact nofun
  · rw [h]
    exact nofun
  · rw [h]
    exact nofun
  · rw [h]
    exact nofun

namespace Rested

variable (h : r.Rested t)
include h

/-- Every bank has been quiet for as long as the last access lasted. -/
theorem quiet (chip : Bool) (bank : BitVec 2) :
    Quiet (fun u => (r.bus u).Cycles chip bank) (t + 1) (min (r.p.tRcd + 2) r.p.tRc) := by
  have hc := h.cycle
  by_cases hl : r.lastBank t chip bank
  · exact (h.own chip bank hl).mono (by omega)
  · exact (h.others chip bank hl).mono (by omega)

/-- A clock of rest. -/
theorem rest (hbus : r.bus (t + 1) = .nop)
    (hcyc : (r.regs (t + 1)).cycle = if (r.regs t).cycle = 31 then 31 else (r.regs t).cycle + 1)
    (hlast : ∀ chip bank, r.lastBank (t + 1) chip bank ↔ r.lastBank t chip bank) : r.Rested (t + 1) := by
  have hrc := r.p.fits.rc
  have hc := h.cycle
  have hnone : ∀ chip bank, ∀ j, 1 ≤ j → j ≤ 1 → ¬ (r.bus (t + j)).Cycles chip bank := by
    intro chip bank j h1 h2
    rw [(by omega : j = 1), hbus]
    exact nofun
  constructor
  · rw [hcyc]
    split <;> omega
  · intro chip bank hl
    refine ((h.own chip bank ((hlast _ _).1 hl)).add (hnone chip bank)).mono ?_
    rw [hcyc]
    split <;> omega
  · intro chip bank hl
    exact ((h.others chip bank fun hl' => hl ((hlast _ _).2 hl')).add (hnone chip bank)).mono (by omega)
  · intro chip bank
    refine ((h.recovery chip bank).add (k := 1) ?_).mono (by omega)
    intro j h1 h2
    rw [(by omega : j = 1), hbus]
    exact nofun
  · intro chip bank hchip
    exact (h.closed chip bank hchip).add fun j h1 h2 hact => hnone chip bank j h1 h2 hact.cycles

section Access

variable {q : SdramReq}
  (hs : ∀ k, 1 ≤ k → k ≤ q.clocks r.p → Access r.p q k (r.regs (t + k)))
include hs

omit h in
theorem access_bus (h1 : 1 ≤ k) (h2 : k ≤ q.clocks r.p) : r.bus (t + k) = q.bus r.p k :=
  (hs k h1 h2).bus

omit h in
/-- A row is opened in the first clock, and once more by a write that needed the old dword. -/
theorem access_cycles (h1 : 1 ≤ k) (h2 : k ≤ q.clocks r.p) (hc : (r.bus (t + k)).Cycles chip bank) :
    q.bankIs r.p chip bank ∧ (k = 1 ∨ k = q.reopened r.p + 1) := by
  rw [access_bus hs h1 h2] at hc
  obtain ⟨hb, hk⟩ := (q.bus_cmd r.p k).cycles chip bank hc
  unfold SdramReq.opened at hk
  refine ⟨hb, ?_⟩
  split_ifs at hk <;> omega

omit h in
theorem access_writes (h1 : 1 ≤ k) (h2 : k ≤ q.clocks r.p) (hc : (r.bus (t + k)).WritesAp chip bank) :
    k + (r.p.tWr + r.p.tRp) = q.clocks r.p + 1 := by
  rw [access_bus hs h1 h2] at hc
  exact (q.bus_cmd r.p k).writesAp chip bank hc

/-- The clocks of an access that is not begun too soon. -/
theorem access_keeps (ha : r.accepts t = some port) (hq : (r.inp t).req port = q) (hsoon : ¬ r.TooSoon t)
    (h1 : 1 ≤ k) (h2 : k ≤ q.clocks r.p) : r.KeepsTiming (t + k) := by
  have hf := r.p.fits
  have hrcd := hf.rcd
  have hrc := hf.rc
  have htwo := hf.twoAccesses
  obtain ⟨-, hre⟩ := q.reopened_cases r.p
  have hbus := access_bus hs h1 h2
  have hop : (k ≤ q.reopened r.p ∧ q.opened r.p k = 0) ∨
      (q.reopened r.p < k ∧ q.opened r.p k = q.reopened r.p) := by
    unfold SdramReq.opened
    split_ifs <;> omega
  constructor
  · intro chip bank hc
    obtain ⟨hb, hk⟩ := access_cycles hs h1 h2 hc
    rcases Nat.eq_or_lt_of_le h1 with h1' | h1'
    · -- the first row cycle of the access: not too soon in its own bank, and the others have rested
      rw [← h1']
      by_cases hl : r.lastBank t chip bank
      · refine (h.own chip bank hl).mono (le_min ?_ le_rfl)
        by_contra hcyc
        refine hsoon (Or.inl ⟨port, ha, ?_, by omega⟩)
        rw [hq, hb.1, hb.2]
        exact hl
      · exact h.others chip bank hl
    · refine Quiet.of_round (fun u hu _ => by omega) ?_
      intro j hj hlt hcj
      have := access_cycles hs hj (by omega) hcj
      omega
  · intro chip bank hc
    have hcol : q.opened r.p k + r.p.tRcd + 1 ≤ k := by
      rw [hbus] at hc
      exact (q.bus_cmd r.p k).columns chip bank hc
    refine Quiet.of_round (fun u hu _ => by omega) ?_
    intro j hj hlt hact
    have := access_cycles hs hj (by omega) hact.cycles
    omega
  · intro chip bank hc
    obtain ⟨-, hk⟩ := access_cycles hs h1 h2 hc
    rcases Nat.eq_or_lt_of_le h1 with h1' | h1'
    · rw [← h1']
      exact h.recovery chip bank
    · refine Quiet.of_round (fun u hu _ => by omega) ?_
      intro j hj hlt hwj
      have := access_writes hs hj (by omega) hwj
      omega
  · intro chip bank hc
    rw [hbus] at hc
    exact absurd hc (q.bus_ne_refresh r.p k chip)

/-- Every bank is precharged at the end of an access: its own by the command that ends it. -/
theorem access_closed (hchip : chip = true → r.p.twoChips = true) (bank : BitVec 2) :
    r.Precharged (t + q.clocks r.p + 1) chip bank := by
  obtain ⟨hlen, hre⟩ := q.reopened_cases r.p
  by_cases hb : q.bankIs r.p chip bank
  · obtain ⟨k, h1, h2, hp⟩ := q.closes r.p
    refine ⟨t + k, by omega, ?_, ?_⟩
    · rw [access_bus hs (by omega) h2.le, ← hb.1, ← hb.2,
        (by omega : t + q.clocks r.p + 1 - (t + k) = q.clocks r.p + 1 - k)]
      exact hp
    · intro v hv hlt hact
      obtain ⟨j, rfl⟩ := Nat.exists_eq_add_of_lt hv
      rw [Nat.add_assoc, Nat.add_assoc] at hact
      have := access_cycles hs (k := k + (j + 1)) (by omega) (by omega) hact.cycles
      omega
  · refine (h.closed chip bank hchip).add ?_
    intro j hj hlt hact
    exact hb (access_cycles hs hj hlt hact.cycles).1

theorem access_rested : r.Rested (t + q.clocks r.p) := by
  have hf := r.p.fits
  have hrcd := hf.rcd
  have hrc := hf.rc
  have htwo := hf.twoAccesses
  obtain ⟨hlen, hre⟩ := q.reopened_cases r.p
  have hend := hs (q.clocks r.p) (by omega) le_rfl
  have hcyc := hend.cycle rfl
  have hlast : ∀ chip bank, r.lastBank (t + q.clocks r.p) chip bank ↔ q.bankIs r.p chip bank := by
    intro chip bank
    unfold lastBank SdramReq.bankIs
    rw [hend.chip, hend.large, hend.addr]
  constructor
  · rw [hcyc]
    omega
  · intro chip bank _
    rw [hcyc]
    refine Quiet.of_round (k := q.clocks r.p + 1) (fun u hu _ => by omega) ?_
    intro j hj hlt hcj
    have := access_cycles hs hj (by omega) hcj
    omega
  · intro chip bank hl
    refine ((h.quiet chip bank).add (k := q.clocks r.p) ?_).mono (by omega)
    intro j hj hlt hcj
    exact hl ((hlast _ _).2 (access_cycles hs hj hlt hcj).1)
  · intro chip bank
    refine Quiet.of_round (k := q.clocks r.p + 1) ?_ ?_
    · intro u hu hw
      have := h.recovery chip bank u (by omega) hw
      omega
    · intro j hj hlt hwj
      exact (access_writes hs hj (by omega) hwj).le
  · exact fun chip bank hchip => h.access_closed hs hchip bank

end Access

section Refresh

variable (hs : ∀ k, 1 ≤ k → k ≤ r.p.tRc + 1 → Refreshing r.p k (r.regs (t + k)))
include hs

omit h in
/-- The two chips are refreshed in the first two clocks. -/
theorem refresh_cmd (h1 : 1 ≤ k) (h2 : k ≤ r.p.tRc + 1) : r.bus (t + k) = .nop ∨
    (k = 1 ∧ r.bus (t + k) = .refresh false) ∨ (k = 2 ∧ r.p.twoChips = true ∧ r.bus (t + k) = .refresh true) := by
  have hb : r.bus (t + k) = refreshBus r.p k := (hs k h1 h2).bus
  rw [hb]
  unfold refreshBus
  split_ifs with hk1 hk2
  · exact Or.inr (Or.inl ⟨hk1, rfl⟩)
  · exact Or.inr (Or.inr ⟨hk2.1, hk2.2, rfl⟩)
  · exact Or.inl rfl

omit h in
theorem refresh_cycles (h1 : 1 ≤ k) (h2 : k ≤ r.p.tRc + 1) (hc : (r.bus (t + k)).Cycles chip bank) :
    (k = 1 ∧ chip = false) ∨ (k = 2 ∧ chip = true) := by
  rcases refresh_cmd hs h1 h2 with hb | ⟨hk, hb⟩ | ⟨hk, -, hb⟩
  · rw [hb] at hc
    exact hc.elim
  · rw [hb] at hc
    exact Or.inl ⟨hk, hc.symm⟩
  · rw [hb] at hc
    exact Or.inr ⟨hk, hc.symm⟩

omit h in
theorem refresh_idle (h1 : 1 ≤ k) (h2 : k ≤ r.p.tRc + 1) (chip : Bool) (bank : BitVec 2) :
    ¬ (r.bus (t + k)).Activates chip bank ∧ ¬ (r.bus (t + k)).WritesAp chip bank := by
  rcases refresh_cmd hs h1 h2 with hb | ⟨hk, hb⟩ | ⟨hk, -, hb⟩
  all_goals
    rw [hb]
    exact ⟨nofun, nofun⟩

theorem refresh_recovery (h2 : k ≤ r.p.tRc + 1) (chip : Bool) (bank : BitVec 2) :
    Quiet (fun u => (r.bus u).WritesAp chip bank) (t + k + 1) (r.p.tWr + r.p.tRp) :=
  ((h.recovery chip bank).add fun _ hj hlt => (refresh_idle hs hj (by omega) chip bank).2).mono (by omega)

theorem refresh_closed (h2 : k ≤ r.p.tRc + 1) (hchip : chip = true → r.p.twoChips = true) (bank : BitVec 2) :
    r.Precharged (t + k + 1) chip bank :=
  (h.closed chip bank hchip).add fun _ hj hlt => (refresh_idle hs hj (by omega) chip bank).1

/-- The refresh of the first chip. -/
theorem refresh_first (hr : r.refreshes t = true) (hsoon : ¬ r.TooSoon t)
    (hb : r.bus (t + 1) = .refresh false) : r.KeepsTiming (t + 1) := by
  have hrc := r.p.fits.rc
  constructor
  · rw [hb]
    intro chip bank hc
    by_cases hl : r.lastBank t chip bank
    · refine (h.own chip bank hl).mono (le_min ?_ le_rfl)
      by_contra hcyc
      exact hsoon (Or.inr ⟨hr, Or.inl ⟨hl.1.trans hc.symm, by omega⟩⟩)
    · exact h.others chip bank hl
  · rw [hb]
    exact nofun
  · intro chip bank _
    exact h.refresh_recovery hs (k := 0) (by omega) chip bank
  · rw [hb]
    intro chip bank hc
    refine h.refresh_closed hs (k := 0) (by omega) ?_ bank
    rw [← BusCmd.refresh.inj hc]
    exact nofun

/-- The refresh of the second chip, a clock later. -/
theorem refresh_second (hr : r.refreshes t = true) (hsoon : ¬ r.TooSoon t) (htwo : r.p.twoChips = true)
    (hb : r.bus (t + 2) = .refresh true) : r.KeepsTiming (t + 2) := by
  have hrc := r.p.fits.rc
  constructor
  · rw [hb]
    intro chip bank hc
    obtain rfl : chip = true := hc.symm
    have hfirst : ∀ j, 1 ≤ j → j ≤ 1 → ¬ (r.bus (t + j)).Cycles true bank := by
      intro j hj hle hcj
      rcases refresh_cycles hs hj (by omega) hcj with ⟨-, hx⟩ | ⟨hx, -⟩
      · cases hx
      · omega
    by_cases hl : r.lastBank t true bank
    · refine ((h.own true bank hl).add (k := 1) hfirst).mono ?_
      by_contra hcyc
      exact hsoon (Or.inr ⟨hr, Or.inr ⟨htwo, hl.1, by omega⟩⟩)
    · exact ((h.others true bank hl).add (k := 1) hfirst).mono (by omega)
  · rw [hb]
    exact nofun
  · intro chip bank _
    exact h.refresh_recovery hs (k := 1) (by omega) chip bank
  · rw [hb]
    intro chip bank hc
    exact h.refresh_closed hs (k := 1) (by omega) (fun _ => htwo) bank

/-- The clocks of a refresh that is not begun too soon. -/
theorem refresh (hr : r.refreshes t = true) (hsoon : ¬ r.TooSoon t) :
    (∀ k, 1 ≤ k → k ≤ r.p.tRc + 1 → r.KeepsTiming (t + k)) ∧ r.Rested (t + (r.p.tRc + 1)) := by
  have hf := r.p.fits
  have hrcd := hf.rcd
  have hrc := hf.rc
  constructor
  · intro k h1 h2
    rcases refresh_cmd hs h1 h2 with hb | ⟨rfl, hb⟩ | ⟨rfl, htwo, hb⟩
    · obtain ⟨m, rfl⟩ := Nat.exists_eq_add_of_le' h1
      exact keepsTiming_of_nop hb
    · exact h.refresh_first hs hr hsoon hb
    · exact h.refresh_second hs hr hsoon htwo hb
  · have hend := hs (r.p.tRc + 1) (by omega) le_rfl
    have hquiet : ∀ chip bank, Quiet (fun u => (r.bus u).Cycles chip bank) (t + (r.p.tRc + 1) + 1) r.p.tRc := by
      intro chip bank
      refine Quiet.of_round (k := r.p.tRc + 2) (fun u hu _ => by omega) ?_
      intro j hj hlt hcj
      have := refresh_cycles hs hj (by omega) hcj
      omega
    constructor
    · rw [hend.cycle]
      omega
    · intro chip bank _
      exact (hquiet chip bank).mono (min_le_right _ _)
    · intro chip bank _
      exact hquiet chip bank
    · intro chip bank
      exact h.refresh_recovery hs le_rfl chip bank
    · intro chip bank hchip
      exact h.refresh_closed hs le_rfl hchip bank

end Refresh

end Rested

/-- Before the configuration of a chip: no access yet, and nothing on the pins of the chips to come. -/
structure Fresh (r : SdramRun) (chip : Bool) (t : Nat) : Prop where
  idle : ∀ u, u ≤ t → ∀ c bank, ¬ (r.bus u).Activates c bank ∧ ¬ (r.bus u).WritesAp c bank
  untouched : ∀ u, u ≤ t → ∀ c bank, (chip = true → c = true) → ¬ (r.bus u).Cycles c bank
  closed : chip = true → ∀ bank, r.Precharged (t + 1) false bank

namespace Fresh

variable (h : r.Fresh chip t) (hchip : chip = true → r.p.twoChips = true)
  (hs : ∀ k, k < r.p.configClocks → Configuring r.p chip k (r.regs (t + k)))
  (hlast : r.bus (t + r.p.configClocks) = .nop)
include hs hlast

omit h in
/-- What the configuration puts on the pins. -/
theorem config_bus (hle : k ≤ r.p.configClocks) : r.bus (t + k) = configBus r.p chip k := by
  have hf := r.p.fits
  have hrcd := hf.rcd
  have hrc := hf.rc
  have hrp := r.p.tRp_eq
  rcases Nat.eq_or_lt_of_le hle with he | hlt
  · rw [he, hlast]
    unfold configBus SdramParams.configClocks tMrd
    rw [if_neg (by omega), if_neg (by omega), if_neg (by omega)]
  · exact (hs k hlt).bus

omit h in
theorem config_cycles (hle : k ≤ r.p.configClocks) {c : Bool} (hc : (r.bus (t + k)).Cycles c bank) :
    c = chip ∧ r.bus (t + k) = .refresh chip ∧ (k = r.p.tRp + 1 ∨ k = r.p.tRp + r.p.tRc + 1) := by
  rw [config_bus hs hlast hle] at hc ⊢
  unfold configBus at hc ⊢
  split_ifs at hc ⊢ with h1 h2 h3
  · exact hc.elim
  · exact ⟨hc.symm, rfl, h2⟩
  · exact hc.elim
  · exact hc.elim

omit h in
theorem config_idle (hle : k ≤ r.p.configClocks) (c : Bool) (bank : BitVec 2) :
    ¬ (r.bus (t + k)).Activates c bank ∧ ¬ (r.bus (t + k)).WritesAp c bank ∧ ¬ (r.bus (t + k)).Columns c bank := by
  rw [config_bus hs hlast hle]
  unfold configBus
  split_ifs <;> exact ⟨nofun, nofun, nofun⟩

include h

theorem idle_add (hle : k ≤ r.p.configClocks) (u : Nat) (hu : u ≤ t + k) (c : Bool) (bank : BitVec 2) :
    ¬ (r.bus u).Activates c bank ∧ ¬ (r.bus u).WritesAp c bank := by
  rcases Nat.lt_or_ge t u with hlt | hge
  · obtain ⟨j, rfl⟩ := Nat.exists_eq_add_of_lt hlt
    have := config_idle hs hlast (k := j + 1) (by omega) c bank
    exact ⟨this.1, this.2.1⟩
  · exact h.idle u hge c bank

/-- The banks of a chip are closed from `tRP` after `PRECHARGE ALL` on. -/
theorem precharged_add (hk : r.p.tRp + 1 ≤ k) (hle : k ≤ r.p.configClocks + 1) (bank : BitVec 2) :
    r.Precharged (t + k) chip bank := by
  have hrcd := r.p.fits.rcd
  have hrp := r.p.tRp_eq
  refine ⟨t + 1, by omega, ?_, ?_⟩
  · rw [config_bus hs hlast (by omega)]
    exact ⟨rfl, rfl, by omega⟩
  · intro v hv hlt
    exact (idle_add h hs hlast (k := k - 1) (by omega) v (by omega) chip bank).1

theorem keepsTiming (hle : k ≤ r.p.configClocks) : r.KeepsTiming (t + k) := by
  have hrcd := r.p.fits.rcd
  have hrp := r.p.tRp_eq
  constructor
  · intro c bank hc
    obtain ⟨rfl, -, hat⟩ := config_cycles hs hlast hle hc
    refine Quiet.of_round ?_ ?_
    · intro u hu hcu
      exact absurd hcu (h.untouched u hu c bank id)
    · intro j hj hlt hcj
      obtain ⟨-, -, hjat⟩ := config_cycles hs hlast (by omega) hcj
      omega
  · intro c bank hc
    exact absurd hc (config_idle hs hlast hle c bank).2.2
  · intro c bank _
    refine Quiet.of_none ?_
    intro u hu
    exact (idle_add h hs hlast (k := k) hle u (by omega) c bank).2
  · intro c bank hc
    have hcyc : (r.bus (t + k)).Cycles c bank := by
      rw [hc]
      exact rfl
    obtain ⟨rfl, -, hat⟩ := config_cycles hs hlast hle hcyc
    exact precharged_add h hs hlast (by omega) (by omega) bank

omit h in
/-- The row cycles of the configuration are over at its end. -/
theorem quiet (c : Bool) (bank : BitVec 2) :
    Quiet (fun u => (r.bus u).Cycles c bank) (t + r.p.configClocks + 1) r.p.tRc := by
  have hn : r.p.configClocks = r.p.tRp + r.p.tRc + r.p.tRc + 2 + 1 := rfl
  refine Quiet.of_round (k := r.p.configClocks + 1) ?_ ?_
  · intro u hu hcu
    omega
  · intro j hj hlt hcj
    obtain ⟨-, -, hjat⟩ := config_cycles hs hlast (by omega) hcj
    omega

/-- The second chip follows the first. -/
theorem second (hc : chip = false) : r.Fresh true (t + r.p.configClocks) := by
  have hn : r.p.configClocks = r.p.tRp + r.p.tRc + r.p.tRc + 2 + 1 := rfl
  subst hc
  constructor
  · intro u hu c bank
    exact idle_add h hs hlast le_rfl u hu c bank
  · intro u hu c bank hc hcyc
    rcases Nat.lt_or_ge t u with hlt | hge
    · obtain ⟨j, rfl⟩ := Nat.exists_eq_add_of_lt hlt
      have := (config_cycles hs hlast (k := j + 1) (by omega) hcyc).1
      rw [hc rfl] at this
      cases this
    · exact h.untouched u hge c bank nofun hcyc
  · intro _ bank
    exact precharged_add h hs hlast (k := r.p.configClocks + 1) (by omega) le_rfl bank

/-- After the last chip the controller is ready for the first command. -/
theorem rested (hc : chip = r.p.twoChips) (hend : Configured r.p (r.regs (t + r.p.configClocks))) :
    r.Rested (t + r.p.configClocks) := by
  have hn : r.p.configClocks = r.p.tRp + r.p.tRc + r.p.tRc + 2 + 1 := rfl
  have hf := r.p.fits
  have hrcd := hf.rcd
  have hrc := hf.rc
  constructor
  · rw [hend.cycle]
    omega
  · intro c bank _
    exact (quiet hs hlast c bank).mono (min_le_right _ _)
  · intro c bank _
    exact quiet hs hlast c bank
  · intro c bank
    refine Quiet.of_none ?_
    intro u hu
    exact (idle_add h hs hlast le_rfl u (by omega) c bank).2
  · intro c bank hcc
    by_cases heq : c = chip
    · rw [heq]
      exact precharged_add h hs hlast (k := r.p.configClocks + 1) (by omega) le_rfl bank
    · have hct : chip = true ∧ c = false := by
        revert heq hcc
        rw [← hc]
        cases c <;> cases chip <;> decide
      rw [hct.2]
      exact (h.closed hct.1 bank).add fun j hj hle => (config_idle hs hlast hle false bank).1

end Fresh

/-- A run that never begins a row cycle too soon keeps the row timing in every clock. -/
theorem keepsTiming (hsoon : ∀ t, ¬ r.TooSoon t) (t : Nat) : r.KeepsTiming t := by
  have hstart : r.bus 0 = .nop := by
    unfold bus
    rw [r.start]
    rfl
  have hall : ∀ t, r.KeepsTiming (t + 1) := by
    refine RoundProof.holds (r := r) (P := fun t => ∀ u, u ≤ t → r.bus u = .nop) (C := fun chip t => r.Fresh chip t)
      (I := r.Rested) (J := fun t => r.KeepsTiming (t + 1)) ?_
    constructor
    · intro u hu
      rw [Nat.le_zero.1 hu]
      exact hstart
    · rintro t - hbus hP
      have hP' : ∀ u, u ≤ t + 1 → r.bus u = .nop := by
        intro u hu
        rcases Nat.eq_or_lt_of_le hu with he | hlt
        · rw [he]
          exact hbus
        · exact hP u (by omega)
      refine ⟨keepsTiming_of_nop hbus, hP', ?_, ?_, nofun⟩
      · intro u hu c bank
        rw [hP' u hu]
        exact ⟨nofun, nofun⟩
      · intro u hu c bank _
        rw [hP' u hu]
        exact nofun
    · rintro t chip - hs hlast hC
      refine ⟨?_, fun hc _ => hC.second hs hlast hc, hC.rested hs hlast⟩
      intro k hk
      exact hC.keepsTiming hs hlast (k := k + 1) hk
    · rintro t hs - hr ha hI
      obtain ⟨busy, hnext⟩ := Controller.rest (p := r.p) hs hr ha
      rw [← r.next] at hnext
      have hbus : r.bus (t + 1) = .nop := by
        unfold bus
        rw [hnext]
        rfl
      refine ⟨keepsTiming_of_nop hbus, hI.rest hbus ?_ ?_⟩
      · rw [hnext]
        show (if (r.regs t).cycle = 31 then (r.regs t).cycle else (r.regs t).cycle + 1) = _
        split_ifs with hc
        · exact hc
        · rfl
      · intro chip bank
        unfold lastBank
        rw [hnext]
        exact Iff.rfl
    · rintro t hr - hs hI
      obtain ⟨hk, hend⟩ := hI.refresh hs hr (hsoon t)
      exact ⟨fun k hle => hk (k + 1) (by omega) (by omega), hend⟩
    · rintro t port ha - hs hI
      have hk := fun k h1 h2 => hI.access_keeps (k := k) hs ha rfl (hsoon t) h1 h2
      have hend := hI.access_rested hs
      exact ⟨fun k hlt => hk (k + 1) (by omega) hlt, hend⟩
  cases t with
  | zero => exact keepsTiming_of_nop hstart
  | succ t => exact hall t

/-! ## What comes too soon -/

/-- `cycle`, while it is below the row cycle time, is the age of the command that opened the last row, as of the clock
after. -/
def Recent (r : SdramRun) (t : Nat) : Prop :=
  (r.regs t).cycle < r.p.tRc → ∃ u, u ≤ t ∧ u + (r.regs t).cycle = t + 1 ∧
    ∀ chip bank, r.lastBank t chip bank → (r.bus u).Activates chip bank

theorem recent_of_idle : (r.regs t).state = .idle → r.Recent t := by
  have hrc := r.p.fits.rc
  have hn : r.p.configClocks = r.p.tRp + r.p.tRc + r.p.tRc + 2 + 1 := rfl
  refine r.idle_invariant (I := r.Recent) ?_ ?_ ?_ ?_
  · intro t hend hlt
    rw [hend.cycle] at hlt
    omega
  · intro t hs hr ha hI hlt
    obtain ⟨busy, hnext⟩ := Controller.rest (p := r.p) hs hr ha
    rw [← r.next] at hnext
    -- a clock of rest makes the last command a clock older, as far as the counter goes
    have hcyc : (r.regs (t + 1)).cycle = if (r.regs t).cycle = 31 then (r.regs t).cycle else (r.regs t).cycle + 1 := by
      rw [hnext]
      rfl
    have hlast : ∀ chip bank, r.lastBank (t + 1) chip bank ↔ r.lastBank t chip bank := by
      intro chip bank
      unfold lastBank
      rw [hnext]
      exact Iff.rfl
    rw [hcyc] at hlt ⊢
    split_ifs at hlt ⊢ with h31
    · omega
    · obtain ⟨u, hu, hcu, hact⟩ := hI (by omega)
      exact ⟨u, by omega, by omega, fun chip bank hl => hact chip bank ((hlast _ _).1 hl)⟩
  · intro t hs _ hlt
    rw [(hs (r.p.tRc + 1) (by omega) le_rfl).cycle] at hlt
    omega
  · intro t port hs _ hlt
    generalize (r.inp t).req port = q at hs hlt ⊢
    -- an access opens its last row with the command that resets the counter
    obtain ⟨hlen, -⟩ := q.reopened_cases r.p
    have hend := hs _ (by omega) le_rfl
    have hcyc := hend.cycle rfl
    refine ⟨t + (q.reopened r.p + 1), by omega, by omega, ?_⟩
    rintro chip bank ⟨hc, hb⟩
    rw [hend.chip] at hc
    rw [hend.large, hend.addr] at hb
    rw [← hc, ← hb]
    have hbus : r.bus (t + (q.reopened r.p + 1)) = _ := (hs (q.reopened r.p + 1) (by omega) (by omega)).bus
    rw [hbus]
    exact (q.bus_opens r.p).2

/-- A row cycle that begins too soon breaks the row cycle time. -/
theorem TooSoon.breaks (h : r.TooSoon t) : ¬ (r.KeepsTiming (t + 1) ∧ r.KeepsTiming (t + 2)) := by
  have hrc := r.p.fits.rc
  rintro ⟨h1, h2⟩
  rcases h with ⟨port, ha, hlast, hcyc⟩ | ⟨hr, hcyc⟩
  · have hidle := Controller.state_of_accepts ha
    have hpos := clocks_pos r.p ((r.inp t).req port)
    obtain ⟨u, hu, hcu, hact⟩ := r.recent_of_idle hidle hcyc
    have hbus : r.bus (t + 1) = _ := (r.access ha (r.hiZ_of_idle hidle) le_rfl (by omega)).bus
    have hnow := (((r.inp t).req port).bus_opens r.p).1
    rw [← hbus] at hnow
    have := h1.rowCycle _ _ hnow.cycles u (by omega) (hact _ _ hlast).cycles
    omega
  · have hidle := r.refreshes_idle hr
    obtain ⟨hbus1, hbus2⟩ := refreshesAll_succ hr
    rcases hcyc with ⟨hchip, hcyc⟩ | ⟨htwo, hchip, hcyc⟩
    · obtain ⟨u, hu, hcu, hact⟩ := r.recent_of_idle hidle hcyc
      have := h1.rowCycle false _ (by rw [hbus1]; exact rfl) u (by omega) (hact _ _ ⟨hchip, rfl⟩).cycles
      omega
    · obtain ⟨u, hu, hcu, hact⟩ := r.recent_of_idle hidle (by omega)
      have := h2.rowCycle true _ (by rw [hbus2 htwo]; exact rfl) u (by omega) (hact _ _ ⟨hchip, rfl⟩).cycles
      omega

/-- The controller keeps the row timing in all clocks of exactly those runs in which it never begins a row cycle
too soon. -/
theorem keepsTiming_iff : (∀ t, r.KeepsTiming t) ↔ ∀ t, ¬ r.TooSoon t := by
  constructor
  · intro h t hsoon
    exact hsoon.breaks ⟨h (t + 1), h (t + 2)⟩
  · exact keepsTiming

/-- With DQM, or at a frequency that makes a half-word write long enough, no run begins a row cycle too soon. -/
theorem not_tooSoon (h : r.p.hasDqm = true ∨ r.p.tRc ≤ r.p.tRcd + r.p.tDal) (t : Nat) : ¬ r.TooSoon t := by
  have hrc := r.p.fits.rc
  have hn : r.p.configClocks = r.p.tRp + r.p.tRc + r.p.tRc + 2 + 1 := rfl
  have hcycle : (r.regs t).state = .idle → r.p.tRc ≤ (r.regs t).cycle := by
    refine r.idle_invariant (I := fun t => r.p.tRc ≤ (r.regs t).cycle) ?_ ?_ ?_ ?_
    · intro t hend
      rw [hend.cycle]
      omega
    · intro t hs hr ha hI
      obtain ⟨busy, hnext⟩ := Controller.rest (p := r.p) hs hr ha
      rw [r.next, hnext]
      show _ ≤ if (r.regs t).cycle = 31 then (r.regs t).cycle else (r.regs t).cycle + 1
      split_ifs <;> omega
    · intro t hs _
      rw [(hs (r.p.tRc + 1) (by omega) le_rfl).cycle]
      omega
    · intro t port hs _
      have hpos := clocks_pos r.p ((r.inp t).req port)
      have hle := ((r.inp t).req port).rowCycle_le h
      rw [(hs _ (by omega) le_rfl).cycle rfl]
      omega
  rintro (⟨port, ha, -, hlt⟩ | ⟨hr, ⟨-, hlt⟩ | ⟨-, -, hlt⟩⟩)
  · have := hcycle (Controller.state_of_accepts ha)
    omega
  · have := hcycle (r.refreshes_idle hr)
    omega
  · have := hcycle (r.refreshes_idle hr)
    omega

end SdramRun

/-- Half-word writes without end on a board without DQM. -/
def halfWrites : SdramRun :=
  runOf { at64_8MHz with hasDqm := false }
    (fun _ => ⟨true, false, true, true, fun port => port == .cpu, fun _ => ⟨true, 0, 0xBEEF, 0x3, 0, false⟩, 0⟩)
    fun _ => rfl

/-- The second of the writes opens its row 3 clocks after the first did, where the row cycle time is 4. -/
theorem halfWrites_break_timing : ¬ ∀ t, halfWrites.KeepsTiming t := by
  intro h
  have hsoon : halfWrites.TooSoon 16 := by
    refine Or.inl ⟨.cpu, by decide, ?_, by decide⟩
    exact ⟨by decide, by decide⟩
  exact hsoon.breaks ⟨h 17, h 18⟩

end Z486.Sdram
