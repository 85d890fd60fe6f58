/-
The timing of the SDRAM controller (src/memory/sdram.v): clock counts derived from the clock
frequency, as ceilings of nanosecond products or, up to 75 MHz, as fixed numbers.
-/
import Mathlib.Algebra.Group.Nat.Defs
import Mathlib.Data.Nat.Log
import Mathlib.Tactic.Common

namespace Z486.Sdram

/-- The parameters of the controller, and the size of the module it is strapped for. -/
structure SdramParams where
  freq : Nat
  hasDqm : Bool
  fastGrade : Bool
  sdramSize : BitVec 2
  /-- the timing table goes up to 133 MHz -/
  freq_le : freq ≤ 133000000

def nsToCycles (freq ns : Nat) : Nat := max 1 ((ns * ((freq + 999) / 1000) + 1000000 - 1) / 1000000)

def freq66 : Nat := 75000000

def tMrd : Nat := 2

namespace SdramParams

variable (p : SdramParams)

def tRpNs : Nat := if p.fastGrade then 18 else 21

def tRcdNs : Nat := if p.fastGrade then 18 else 21

def tRcNs : Nat := if p.fastGrade then 60 else 63

def tWrNs : Nat := if p.fastGrade then 12 else 14

def cas : Nat := if p.freq ≤ 100000000 then 2 else 3

def tWr : Nat := if p.freq ≤ freq66 then 1 else nsToCycles p.freq p.tWrNs

def tRp : Nat := if p.freq ≤ freq66 then 1 else nsToCycles p.freq p.tRpNs

def tRcd : Nat := if p.freq ≤ freq66 then 1 else nsToCycles p.freq p.tRcdNs

def tRc : Nat := if p.freq ≤ freq66 then 4 else nsToCycles p.freq p.tRcNs

def tDal : Nat := p.tWr + p.tRp

/-- About 7.8 us. -/
def refreshCycles : Nat := p.freq / 1000 * 64 / 8192

/-- The width of the refresh counter: `$clog2(REFRESH_CYCLES + 1)`. -/
def refreshCntW : Nat := if p.refreshCycles < 2 then 1 else Nat.clog 2 (p.refreshCycles + 1)

/-! ## What the numbers allow -/

theorem tRp_eq : p.tRp = p.tRcd := rfl

theorem nsToCycles_eq {freq ns : Nat} (h : 0 < ns * ((freq + 999) / 1000)) :
    nsToCycles freq ns = (ns * ((freq + 999) / 1000) + 999999) / 1000000 := by
  unfold nsToCycles
  rw [Nat.add_sub_assoc (by decide), max_eq_right (by omega)]

/-- The distances between the commands of one row access leave room for the row cycle time, the half-word
write apart, which can end a clock before. -/
structure Fits : Prop where
  rcd : 1 ≤ p.tRcd ∧ p.tRcd ≤ 3
  cas : 2 ≤ p.cas ∧ p.cas ≤ 3
  wr : 1 ≤ p.tWr ∧ p.tWr ≤ 2
  rc : 4 ≤ p.tRc ∧ p.tRc ≤ 9
  rmw : p.tRc ≤ p.tRcd + p.cas + 3
  twoAccesses : p.tRc ≤ 2 * p.tRcd + 4
  fullWrite : p.tRc ≤ p.tRcd + p.tWr + p.tRp + 1

theorem fits : p.Fits := by
  have hle := p.freq_le
  rcases Nat.lt_or_ge 75000000 p.freq with h66 | h66
  · -- the clock in kHz: every count is a linear function of it, rounded up
    obtain ⟨k, hk⟩ : ∃ k, (p.freq + 999) / 1000 = k := ⟨_, rfl⟩
    have hk' : 75001 ≤ k ∧ k ≤ 133000 ∧ (p.freq ≤ 100000000 ↔ k ≤ 100000) := by omega
    have hns : ∀ ns, 0 < ns → nsToCycles p.freq ns = (ns * k + 999999) / 1000000 := by
      intro ns hns
      rw [nsToCycles_eq, hk]
      rw [hk]
      exact Nat.mul_pos hns (by omega)
    have hn : ¬ p.freq ≤ freq66 := by unfold freq66; omega
    have hcas : k ≤ 100000 ∧ p.cas = 2 ∨ 100000 < k ∧ p.cas = 3 := by
      unfold cas
      split <;> omega
    have hrp := p.tRp_eq
    cases hg : p.fastGrade
    · have hrcd : p.tRcd = (21 * k + 999999) / 1000000 := by simp [tRcd, hn, tRcdNs, hg, hns]
      have hwr : p.tWr = (14 * k + 999999) / 1000000 := by simp [tWr, hn, tWrNs, hg, hns]
      have hrc : p.tRc = (63 * k + 999999) / 1000000 := by simp [tRc, hn, tRcNs, hg, hns]
      have hwr' : p.tWr = 2 := by rw [hwr]; clear hns hrcd hrc hwr hcas; omega
      rcases Nat.lt_or_ge 95238 k with hb | hb
      · have hrcd' : p.tRcd = 3 := by rw [hrcd]; clear hns hrcd hrc hwr hcas; omega
        have hrc' : 4 ≤ p.tRc ∧ p.tRc ≤ 9 ∧ (k ≤ 100000 → p.tRc ≤ 7) := by
          rw [hrc]; clear hns hrcd hrc hwr hcas; omega
        clear hrcd hrc hwr
        constructor <;> omega
      · have hrcd' : p.tRcd = 2 := by rw [hrcd]; clear hns hrcd hrc hwr hcas; omega
        have hrc' : 4 ≤ p.tRc ∧ p.tRc ≤ 6 := by rw [hrc]; clear hns hrcd hrc hwr hcas; omega
        clear hrcd hrc hwr
        constructor <;> omega
    · have hrcd : p.tRcd = (18 * k + 999999) / 1000000 := by simp [tRcd, hn, tRcdNs, hg, hns]
      have hwr : p.tWr = (12 * k + 999999) / 1000000 := by simp [tWr, hn, tWrNs, hg, hns]
      have hrc : p.tRc = (60 * k + 999999) / 1000000 := by simp [tRc, hn, tRcNs, hg, hns]
      rcases Nat.lt_or_ge 111111 k with hb | hb
      · have hrcd' : p.tRcd = 3 := by rw [hrcd]; clear hns hrcd hrc hwr hcas; omega
        have hwr' : p.tWr = 2 := by rw [hwr]; clear hns hrcd hrc hwr hcas; omega
        have hrc' : 4 ≤ p.tRc ∧ p.tRc ≤ 8 := by rw [hrc]; clear hns hrcd hrc hwr hcas; omega
        clear hrcd hrc hwr
        constructor <;> omega
      · have hrcd' : p.tRcd = 2 := by rw [hrcd]; clear hns hrcd hrc hwr hcas; omega
        have hwr' : 1 ≤ p.tWr ∧ p.tWr ≤ 2 ∧ (83333 < k → p.tWr = 2) := by
          rw [hwr]; clear hns hrcd hrc hwr hcas; omega
        have hrc' : 4 ≤ p.tRc ∧ p.tRc ≤ 7 ∧ (k ≤ 100000 → p.tRc ≤ 6) ∧ (k ≤ 83333 → p.tRc ≤ 5) := by
          rw [hrc]; clear hns hrcd hrc hwr hcas; omega
        clear hrcd hrc hwr
        constructor <;> omega
  · -- up to 75 MHz the counts do not depend on the clock
    have hn : p.freq ≤ freq66 := h66
    have hc : p.freq ≤ 100000000 := by omega
    constructor <;> simp [tRcd, tWr, tRc, tRp, cas, hn, hc]

end SdramParams

/-! ## Two frequencies -/

def at85MHz : SdramParams := ⟨85000000, true, true, 1, by decide⟩

def at64_8MHz : SdramParams := ⟨64800000, true, true, 1, by decide⟩

end Z486.Sdram
