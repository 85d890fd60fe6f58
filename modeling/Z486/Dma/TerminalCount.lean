/-
What a terminal count leaves in the mask and the status register of the 8237, and what an access of the processor in the
same clock takes away from it.
-/
import Mathlib.Data.Fin.VecNotation
import Mathlib.Tactic.FinCases
import Z486.Dma.I8237

namespace Z486.Dma

namespace I8237

variable (s : I8237) (i : I8237In)

/-- The channel whose bit a write of a single bit is for. -/
def selects (c : Fin 4) : Bool := i.writedata.extractLsb' 0 2 == BitVec.ofFin c

/-- A write that clears the mask bit of channel `c`. -/
def clearsMask (c : Fin 4) : Bool :=
  i.write && (i.address == 0xE || (i.address == 0xF && !i.writedata.getLsbD c.val) ||
    (i.address == 0xA && !i.writedata.getLsbD 2 && selects i c))

/-- A write that sets the mask bit of channel `c`. -/
def setsMask (c : Fin 4) : Bool :=
  i.write && (i.address == 0xF || (i.address == 0xA && selects i c))

/-- A write of a single mask bit, which is not that of channel `c`. -/
def masksOther (c : Fin 4) : Bool := i.write && i.address == 0xA && !selects i c

/-- A read of the status register, a master clear or a reset. -/
def clearsTerminated : Bool := !i.rstN || masterClear i || s.readsStatus i

/-! ## Bits of a channel -/

variable {s i}

@[simp] theorem writedataBits_get (c : Fin 4) : (writedataBits i).getLsbD c.val = selects i c := by
  have hbits : ∀ (x : BitVec 2) (c : Fin 4), (1#4 <<< x).getLsbD c.val = (x == BitVec.ofFin c) := by decide
  exact hbits _ c

@[simp] theorem tcBits_get (c : Fin 4) : s.tcBits.getLsbD c.val = s.tc c := by
  have hbits : ∀ a c : Fin 4, (1#4 <<< a.val).getLsbD c.val = (a == c) := by decide
  unfold tcBits tc
  cases s.actTc with
  | true => exact hbits _ c
  | false => simp

@[simp] theorem autoBits_get (c : Fin 4) : s.autoBits.getLsbD c.val = s.auto c := by
  have hbits : ∀ (x y z w : Bool) (c : Fin 4),
      (BitVec.ofBool x ++ BitVec.ofBool y ++ BitVec.ofBool z ++ BitVec.ofBool w).getLsbD c.val =
        ![w, z, y, x] c := by decide
  unfold autoBits
  rw [hbits]
  fin_cases c <;> rfl

/-- A mask bit after a clock that does not clear it. -/
theorem mask_step {c : Fin 4} (hrst : i.rstN = true) (hmc : masterClear i = false) (hclear : clearsMask i c = false) :
    (s.step i).mask.getLsbD c.val = (s.mask.getLsbD c.val || (i.write && i.address == 0xF) ||
      (i.write && i.address == 0xA && selects i c) || (!masksOther i c && s.tc c && !s.auto c)) := by
  unfold clearsMask at hclear
  unfold step masksOther
  simp only [hrst, hmc, Bool.not_true, Bool.or_self, Bool.false_eq_true, if_false]
  cases hw : i.write with
  | false => simp [-BitVec.getLsbD_eq_getElem]
  | true =>
    rw [hw] at hclear
    by_cases hE : i.address = 14#4
    · simp [hE] at hclear
    · by_cases hF : i.address = 15#4
      · have hbit : i.writedata.getLsbD c.val = true := by
          simpa [-BitVec.getLsbD_eq_getElem, hF] using hclear
        simp [-BitVec.getLsbD_eq_getElem, hF, hbit]
      · by_cases hA : i.address = 10#4
        · rw [hA] at hclear
          cases hset : i.writedata.getLsbD 2 with
          | true => cases hsel : selects i c <;> simp [-BitVec.getLsbD_eq_getElem, hA, hsel]
          | false =>
            have hno : selects i c = false := by simpa [-BitVec.getLsbD_eq_getElem, hset] using hclear
            simp [-BitVec.getLsbD_eq_getElem, hA, hno]
        · simp [-BitVec.getLsbD_eq_getElem, hE, beq_eq_false_iff_ne.2 hF, beq_eq_false_iff_ne.2 hA]

theorem mask_clears {c : Fin 4} (hrst : i.rstN = true) (hmc : masterClear i = false) (hclear : clearsMask i c = true) :
    (s.step i).mask.getLsbD c.val = false := by
  unfold clearsMask at hclear
  unfold step
  simp only [hrst, hmc, Bool.not_true, Bool.or_self, Bool.false_eq_true, if_false]
  simp only [Bool.and_eq_true, Bool.or_eq_true, beq_iff_eq, Bool.not_eq_true'] at hclear
  obtain ⟨hw, (hE | ⟨hF, hbit⟩) | ⟨⟨hA, hset⟩, hsel⟩⟩ := hclear
  · simp [hw, hE]
  · simp [-BitVec.getLsbD_eq_getElem, hw, hF, hbit]
  · simp [-BitVec.getLsbD_eq_getElem, hw, hA, hset, hsel]

/-- After a terminal count the channel is masked, unless the mask bit of another one is written. -/
theorem mask_of_tc {c : Fin 4} (hrst : i.rstN = true) (hmc : masterClear i = false) (hclear : clearsMask i c = false)
    (htc : s.tc c = true) (hauto : s.auto c = false) :
    (s.step i).mask.getLsbD c.val = true ↔ (masksOther i c = true → s.mask.getLsbD c.val = true) := by
  rw [mask_step hrst hmc hclear, htc, hauto]
  have hother : masksOther i c = true → (i.write && i.address == 0xF) = false ∧ selects i c = false := by
    unfold masksOther
    simp only [Bool.and_eq_true, beq_iff_eq, Bool.not_eq_true']
    rintro ⟨⟨-, haddr⟩, hsel⟩
    exact ⟨by simp [haddr], hsel⟩
  cases hm : masksOther i c with
  | false => simp
  | true =>
    obtain ⟨hall, hsel⟩ := hother hm
    rw [hall, hsel]
    simp

theorem terminated_step {c : Fin 4} (h : s.clearsTerminated i = false) :
    (s.step i).terminated.getLsbD c.val = (s.terminated.getLsbD c.val || s.tc c) := by
  rw [clearsTerminated, Bool.or_eq_false_iff] at h
  unfold step
  simp [-BitVec.getLsbD_eq_getElem, h]

/-- A mask bit that is set stays so until it is cleared. -/
theorem mask_stays {c : Fin 4} (hclear : clearsMask i c = false) (h : s.mask.getLsbD c.val = true) :
    (s.step i).mask.getLsbD c.val = true := by
  have hall : ∀ c : Fin 4, (0xF : BitVec 4).getLsbD c.val = true := by decide
  cases hrst : i.rstN with
  | false =>
    unfold step
    simp only [hrst, Bool.not_false, Bool.true_or, if_true]
    exact hall c
  | true =>
    cases hmc : masterClear i with
    | true =>
      unfold step
      simp only [hmc, Bool.or_true, if_true]
      exact hall c
    | false => rw [mask_step hrst hmc hclear, h, Bool.true_or, Bool.true_or, Bool.true_or]

end I8237

/-! ## Runs -/

namespace I8237Run

variable (r : I8237Run)

/-- Channel `c`, which does not begin again by itself, reaches its terminal count in clock `t`, and no access clears its
mask bit or the controller in that clock. -/
structure Ends (t : Nat) (c : Fin 4) : Prop where
  reached : (r.state t).tc c = true
  single : (r.state t).auto c = false
  running : (r.inputs t).rstN = true
  kept : I8237.masterClear (r.inputs t) = false
  unmasked : I8237.clearsMask (r.inputs t) c = false

/-- A channel that has reached its terminal count is masked, and the status register tells of it, until they are
cleared. -/
structure Latches : Prop where
  mask : ∀ t c, r.Ends t c → ∀ u, t < u → (∀ v, t < v → v < u → I8237.clearsMask (r.inputs v) c = false) →
    (r.state u).mask.getLsbD c.val = true
  status : ∀ t c, r.Ends t c → ∀ u, t < u → (∀ v, t < v → v < u → (r.state v).clearsTerminated (r.inputs v) = false) →
    (r.state u).terminated.getLsbD c.val = true

/-- In the clock of a terminal count the status register is not read, and the mask bit of another channel is not written
unless the channel is masked. -/
def Undisturbed : Prop :=
  ∀ t c, r.Ends t c → (r.state t).readsStatus (r.inputs t) = false ∧
    (I8237.masksOther (r.inputs t) c = true → (r.state t).mask.getLsbD c.val = true)

variable {r}

theorem Ends.mask_succ {t : Nat} {c : Fin 4} (h : r.Ends t c) : (r.state (t + 1)).mask.getLsbD c.val = true ↔
    (I8237.masksOther (r.inputs t) c = true → (r.state t).mask.getLsbD c.val = true) := by
  rw [state_succ]
  exact I8237.mask_of_tc h.running h.kept h.unmasked h.reached h.single

theorem Ends.terminated_succ {t : Nat} {c : Fin 4} (h : r.Ends t c) : (r.state (t + 1)).terminated.getLsbD c.val = true ↔
    (r.state t).readsStatus (r.inputs t) = false := by
  cases hread : (r.state t).readsStatus (r.inputs t) with
  | false =>
    rw [state_succ, I8237.terminated_step (by simp [I8237.clearsTerminated, h.running, h.kept, hread]), h.reached]
    simp
  | true =>
    rw [state_succ, I8237.step]
    simp [hread]

/-- The processor loses no terminal count if and only if no access in its clock takes it away. -/
theorem latches_iff (r : I8237Run) : r.Latches ↔ r.Undisturbed := by
  constructor
  · intro h t c hends
    exact ⟨hends.terminated_succ.1 (h.status t c hends (t + 1) (by omega) (by omega)),
      hends.mask_succ.1 (h.mask t c hends (t + 1) (by omega) (by omega))⟩
  · intro h
    constructor
    · intro t c hends u hu
      induction u, hu using Nat.le_induction with
      | base => exact fun _ => hends.mask_succ.2 (h t c hends).2
      | succ u hu ih =>
        intro hkeep
        rw [state_succ]
        exact I8237.mask_stays (hkeep u (by omega) (by omega)) (ih fun v h1 h2 => hkeep v h1 (by omega))
    · intro t c hends u hu
      induction u, hu using Nat.le_induction with
      | base => exact fun _ => hends.terminated_succ.2 (h t c hends).1
      | succ u hu ih =>
        intro hkeep
        rw [state_succ, I8237.terminated_step (hkeep u (by omega) (by omega)),
          ih fun v h1 h2 => hkeep v h1 (by omega), Bool.true_or]

/-- A controller before its reset. -/
def unset : I8237 :=
  { readdata := 0, dmaAddress := 0, dmaWrite := false, dmaWritedata := 0, dmaRead := false, chTc := 0
    disabled := false, mask := 0, flipFlop := false, baseAddress := fun _ => 0, currentAddress := fun _ => 0
    baseCounter := fun _ => 0, currentCounter := fun _ => 0, dec := fun _ => false, auto := fun _ => false
    transfer := fun _ => 0, state := .idle, active := 0, ackR := false, ackData := 0, readLast := false
    pending := 0, terminated := 0 }

/-- A clock in which the processor writes a register, or does nothing, and the channels `req` ask for a transfer and
those in `grant` may have one. -/
def writeIn (rstN : Bool) (w : Option (BitVec 4 × BitVec 8)) (req grant : BitVec 4) : I8237In :=
  { rstN := rstN, address := (w.map Prod.fst).getD 0, write := w.isSome, writedata := (w.map Prod.snd).getD 0
    read := false, dmaReaddata := 0, dmaReaddatavalid := false, dmaWaitrequest := false, chReq := grant
    chWritedata := fun _ => 0, chPending := req }

/-- Channel 2 transfers one byte; while it reaches its terminal count, the processor masks channel 1. -/
def maskedLate : I8237Run where
  start := unset.step (writeIn false none 0 0)
  inputs t := match t with
    | 0 => writeIn true (some (10, 2)) 0 0
    | 1 => writeIn true (some (11, 0x46)) 0 0
    | 2 => writeIn true none 4 0
    | 3 => writeIn true none 4 4
    | 4 | 5 => writeIn true none 4 0
    | 6 => writeIn true (some (10, 5)) 0 0
    | _ => writeIn true none 0 0

theorem maskedLate_not_latches : ¬ maskedLate.Latches := by
  intro h
  have hmask := h.mask 6 2 ⟨by decide, by decide, rfl, by decide, by decide⟩ 7 (by omega) (by omega)
  revert hmask
  decide

end I8237Run

end Z486.Dma
