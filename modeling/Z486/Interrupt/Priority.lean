/-
The priorities of the 8259: for every content of IRR, IMR and ISR and every rotation, the request logic finds the first
level that may interrupt, and an end of interrupt the first that is in service. The controller counts the levels from
the one behind the lowest on, by a shift of the doubled register; that count is the rank of the level.
-/
import Mathlib.Tactic.IntervalCases
import Z486.Clocked.Rotation
import Z486.Interrupt.I8259

namespace Z486.Interrupt

open Clocked

/-! ## The encoder -/

namespace I8259

/-- Bit `r` of the shifted register is the level of rank `r`. -/
theorem shifted_get (x : BitVec 8) (lowest r : BitVec 3) :
    (shifted x lowest).getLsbD r.toNat = x.getLsbD (lowest + r + 1).toNat := by
  have hl := lowest.isLt
  have hr := r.isLt
  have hlevel : (lowest + r + 1).toNat = (lowest.toNat + r.toNat + 1) % 8 := by
    simp only [BitVec.toNat_add, BitVec.ofNat_eq_ofNat, BitVec.toNat_ofNat]
    omega
  rw [hlevel, shifted, BitVec.ushiftRight_eq', BitVec.getLsbD_ushiftRight, BitVec.getLsbD_append]
  by_cases hlow : lowest.toNat + r.toNat < 7
  · rw [if_pos hlow, BitVec.getLsbD_extractLsb', decide_eq_true hlow, Bool.true_and]
    congr 1
    omega
  · rw [if_neg hlow, BitVec.getLsbD_append, if_pos (by omega)]
    congr 1
    omega

theorem shifted_rank (x : BitVec 8) (lowest k : BitVec 3) :
    (shifted x lowest).getLsbD (Rotation.rank lowest k).toNat = x.getLsbD k.toNat := by
  rw [shifted_get, Rotation.add_rank]

/-- No bit below the first is set; the first is, unless it is 7 for want of another. -/
theorem first_spec (x : BitVec 16) : (∀ n, n < (first x).toNat → x.getLsbD n = false) ∧
    (first x = 7 ∨ x.getLsbD (first x).toNat = true) := by
  unfold first
  split_ifs with h0 h1 h2 h3 h4 h5 h6
  · exact ⟨fun n hn => absurd hn (Nat.not_lt_zero n), .inr h0⟩
  all_goals
    refine ⟨fun n hn => ?_, ?_⟩
    · simp only [BitVec.ofNat_eq_ofNat, BitVec.toNat_ofNat] at hn
      interval_cases n <;> exact Bool.eq_false_of_not_eq_true (by assumption)
    · first | exact .inl rfl | exact .inr (by assumption)

theorem first_le {x : BitVec 16} {r : BitVec 3} (h : x.getLsbD r.toNat = true) : first x ≤ r := by
  by_contra hlt
  rw [BitVec.not_le, BitVec.lt_def] at hlt
  rw [(first_spec x).1 _ hlt] at h
  cases h

theorem first_get {x : BitVec 16} {r : BitVec 3} (h : x.getLsbD r.toNat = true) :
    x.getLsbD (first x).toNat = true := by
  rcases (first_spec x).2 with h7 | hget
  · have hle := first_le h
    rw [h7] at hle ⊢
    have hr : r = 7 := by
      rw [BitVec.le_def] at hle
      refine BitVec.eq_of_toNat_eq ?_
      have hlt := r.isLt
      change 7 ≤ r.toNat at hle
      change r.toNat = 7
      omega
    rwa [hr] at h
  · exact hget

section Encoder

variable {x : BitVec 8} {lowest j : BitVec 3}

theorem first_le_rank (h : x.getLsbD j.toNat = true) : first (shifted x lowest) ≤ Rotation.rank lowest j :=
  first_le (by rwa [shifted_rank])

/-- The level that the encoder finds is one of the register's. -/
theorem first_level (h : x.getLsbD j.toNat = true) :
    x.getLsbD (lowest + first (shifted x lowest) + 1).toNat = true := by
  rw [← shifted_get]
  exact first_get (r := Rotation.rank lowest j) (by rwa [shifted_rank])

theorem first_none (h : ∀ j : BitVec 3, x.getLsbD j.toNat = false) : first (shifted x lowest) = 7 := by
  refine (first_spec _).2.resolve_right fun hget => ?_
  rw [shifted_get, h] at hget
  cases hget

end Encoder

/-! ## Levels -/

/-- A register that is not 0 has the bit of a level. -/
theorem ne_zero_iff {x : BitVec 8} : x ≠ 0 ↔ ∃ k : BitVec 3, x.getLsbD k.toNat = true := by
  constructor
  · intro hne
    by_contra hnone
    push Not at hnone
    refine hne (BitVec.eq_of_getLsbD_eq fun n hn => ?_)
    have hbit := hnone (BitVec.ofNat 3 n)
    rw [ne_eq, Bool.not_eq_true, BitVec.toNat_ofNat, Nat.mod_eq_of_lt hn] at hbit
    rw [hbit]
    exact BitVec.getLsbD_zero.symm
  · rintro ⟨k, hk⟩ h0
    rw [h0, BitVec.ofNat_eq_ofNat, BitVec.getLsbD_zero] at hk
    cases hk

section Definitions

variable (s : I8259)

/-- Level `k` asks for service: it requests, and is neither masked nor in service. -/
def candidate (k : BitVec 3) : Bool :=
  s.irr.getLsbD k.toNat && !s.imr.getLsbD k.toNat && !s.isr.getLsbD k.toNat

def inService (k : BitVec 3) : Bool := s.isr.getLsbD k.toNat

/-- The number of levels of higher priority. -/
def rank (k : BitVec 3) : BitVec 3 := Rotation.rank s.lowestPriority k

/-- Level `k` is the first of those in `p`. -/
structure First (p : BitVec 3 → Bool) (k : BitVec 3) : Prop where
  mem : p k = true
  le : ∀ j, p j = true → s.rank k ≤ s.rank j

/-- A non-specific end of interrupt, with or without rotation. -/
def nonSpecificEoi (i : I8259In) : Bool := ocw2 i && (i.ioWritedata == 0x20 || i.ioWritedata == 0xA0)

/-- The controller follows the rotated order of its levels. -/
structure Arbitrates : Prop where
  requests : s.irq = true ↔ ∃ k, s.candidate k = true ∧
    (s.specialMask = true ∨ ∀ j, s.inService j = true → s.rank k < s.rank j)
  selects : s.irq = true → s.First s.candidate s.irqValue
  signals : ∀ i : I8259In, i.rstN = true → initIcw1 i = false → s.acknowledge i = false →
    (s.step i).interruptDo = s.irq ∧ (s.irq = true → (s.step i).vectorLevel = s.irqValue)
  ends : ∀ i : I8259In, i.rstN = true → nonSpecificEoi i = true →
    ∀ k, (s.step i).inService k = true ↔ s.inService k = true ∧ ¬ s.First s.inService k

end Definitions

variable {s : I8259} {i : I8259In} {k : BitVec 3}

theorem prepare_get (s : I8259) (k : BitVec 3) : s.selectectedPrepare.getLsbD k.toNat = s.candidate k := by
  have hk := k.isLt
  unfold selectectedPrepare candidate
  simp [hk]

theorem prepare_ne_zero : s.selectectedPrepare ≠ 0 ↔ ∃ k, s.candidate k = true := by
  rw [ne_zero_iff]
  exact exists_congr fun k => by rw [prepare_get]

theorem irqValue_first (h : s.selectectedPrepare ≠ 0) : s.First s.candidate s.irqValue := by
  obtain ⟨k, hk⟩ := prepare_ne_zero.1 h
  constructor
  · rw [← prepare_get]
    exact first_level ((prepare_get s k).trans hk)
  · intro j hj
    unfold rank irqValue
    rw [Rotation.rank_add]
    exact first_le_rank ((prepare_get s j).trans hj)

theorem isrFirst_first (h : s.inService k = true) : s.First s.inService s.selectectedShiftedIsrFirstNorm := by
  constructor
  · exact first_level h
  · intro j hj
    unfold rank selectectedShiftedIsrFirstNorm
    rw [Rotation.rank_add]
    exact first_le_rank hj

theorem First.unique {p : BitVec 3 → Bool} {j : BitVec 3} (hj : s.First p j) (hk : s.First p k) : j = k :=
  Rotation.rank_inj (BitVec.le_antisymm (hj.le k hk.mem) (hk.le j hj.mem))

theorem irq_iff : s.irq = true ↔ ∃ k, s.candidate k = true ∧
    (s.specialMask = true ∨ ∀ j, s.inService j = true → s.rank k < s.rank j) := by
  unfold irq
  rw [Bool.and_eq_true, bne_iff_ne, Bool.or_eq_true, decide_eq_true_eq]
  constructor
  · rintro ⟨hne, hgo⟩
    have hfirst := irqValue_first hne
    refine ⟨s.irqValue, hfirst.mem, hgo.imp_right fun hle j hj => Rotation.rank_lt_of_le ?_ ?_⟩
    · rintro rfl
      have hmem := hfirst.mem
      unfold candidate at hmem
      rw [show s.isr.getLsbD s.irqValue.toNat = true from hj] at hmem
      simp at hmem
    · calc s.rank s.irqValue = s.selectectedIndex := Rotation.rank_add _ _
        _ ≤ s.selectectedShiftedIsrFirst := hle
        _ ≤ s.rank j := first_le_rank hj
  · rintro ⟨k, hk, hgo⟩
    refine ⟨prepare_ne_zero.2 ⟨k, hk⟩, hgo.imp_right fun hall => ?_⟩
    by_cases hservice : ∃ j, s.inService j = true
    · obtain ⟨j, hj⟩ := hservice
      have hm := hall _ (isrFirst_first hj).mem
      unfold rank selectectedShiftedIsrFirstNorm at hm
      rw [Rotation.rank_add] at hm
      have hle : s.selectectedIndex ≤ s.rank k := first_le_rank ((prepare_get s k).trans hk)
      rw [BitVec.le_def] at hle ⊢
      exact hle.trans (Nat.le_of_lt hm)
    · push Not at hservice
      have h7 : s.selectectedShiftedIsrFirst = 7 := first_none fun j => Bool.eq_false_iff.2 (hservice j)
      rw [h7, BitVec.le_def]
      have hlt := s.selectectedIndex.isLt
      change s.selectectedIndex.toNat ≤ 7
      omega

/-- An end of interrupt takes the first level out of service. -/
theorem ends_inService (hr : i.rstN = true) (hend : nonSpecificEoi i = true) (k : BitVec 3) :
    (s.step i).inService k = (s.inService k && !decide (k = s.selectectedShiftedIsrFirstNorm)) := by
  unfold nonSpecificEoi at hend
  obtain ⟨hocw2, hdata⟩ := Bool.and_eq_true_iff.1 hend
  have hcommand : initIcw1 i = false ∧ ocw2Command i ≠ 0x60#8 ∧ ocw2Command i ≠ 0xE0#8 := by
    unfold initIcw1 ocw2Command
    rcases Bool.or_eq_true_iff.1 hdata with hd | hd <;> rw [beq_iff_eq.1 hd] <;> simp
  have hclear : s.isrClear i = true := by
    unfold isrClear
    rw [hocw2, hdata, Bool.and_self, Bool.or_true]
  have hisr : (s.step i).isr = s.isr &&& ~~~s.selectectedShiftedIsrFirstBits := by
    rw [step, if_pos hr]
    simp [next, hcommand, hclear]
  have hk := k.isLt
  have hbit : ∀ m k : BitVec 3, (1#8 <<< m).getLsbD k.toNat = decide (k = m) := by decide
  unfold inService
  rw [hisr, BitVec.getLsbD_and, BitVec.getLsbD_not, selectectedShiftedIsrFirstBits, hbit]
  simp [hk]

theorem arbitrates (s : I8259) : s.Arbitrates where
  requests := irq_iff
  selects h := by
    unfold irq at h
    exact irqValue_first (bne_iff_ne.1 (Bool.and_eq_true_iff.1 h).1)
  signals i hr h1 hack := by
    have hvec : ∀ (o : BitVec 5) (v : BitVec 3), (o ++ v).extractLsb' 0 3 = v :=
      fun o v => BitVec.extractLsb'_append_eq_right
    constructor
    · rw [step, if_pos hr]
      simp [next, h1, hack]
    · intro hirq
      rw [step, if_pos hr]
      simp [vectorLevel, next, h1, hirq, hvec]
  ends i hr hend k := by
    rw [ends_inService hr hend, Bool.and_eq_true, Bool.not_eq_true', decide_eq_false_iff_not]
    refine and_congr_right fun hk => not_congr ⟨?_, fun h => h.unique (isrFirst_first hk)⟩
    rintro rfl
    exact isrFirst_first hk

end I8259

end Z486.Interrupt
