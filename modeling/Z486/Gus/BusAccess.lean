/-
The card on the bus of the processor (src/system.sv): the strobes that the GUS gets are those of the I/O bus adapter, and
its wait is the adapter's. The adapter gives no strobe while the wait is high, so every run of the two is one of the runs
whose accesses are served.
-/
import Z486.Gus.IoAccess
import Z486.IoBus.Cycles

namespace Z486.Gus

open Clocked IoBus

/-! ## The adapter -/

/-- A strobe is that of a lane, which the adapter then waits for. -/
theorem strobe_issue {s : Adapter} {c : CpuIo} {p : Peripheral}
    (h : (s.step c p true).ioRead = true ∨ (s.step c p true).ioWrite = true) :
    ∃ k, s.state = .issue k ∧ (s.step c p true).state = .wait k := by
  cases hstate : s.state with
  | issue k =>
    refine ⟨k, rfl, ?_⟩
    cases hbe : s.activeBe.getLsbD k with
    | true => rw [Adapter.step_issue hstate hbe]
    | false =>
      rw [Adapter.step_skip hstate hbe] at h
      simp [Adapter.quiet] at h
  | wait k => rw [Adapter.step_wait hstate] at h; simp [Adapter.quiet] at h
  | cap k => rw [Adapter.step_cap hstate] at h; simp [Adapter.quiet] at h
  | done => rw [Adapter.step_done hstate] at h; simp [Adapter.quiet] at h
  | ide32 => rw [Adapter.step_ide32 hstate] at h; simp [Adapter.quiet] at h
  | ide32w => rw [Adapter.step_ide32w hstate] at h; simp [Adapter.quiet] at h
  | idle =>
    cases htakes : s.takes c with
    | false => rw [Adapter.step_idle hstate htakes] at h; simp [Adapter.quiet] at h
    | true =>
      cases hport : c.ideDataPort with
      | false => rw [Adapter.step_takes htakes hport] at h; simp [Adapter.quiet] at h
      | true =>
        have hnone := (Adapter.step_takes_wide (p := p) htakes hport).2.1
        unfold Adapter.strobe at hnone
        rcases h with h | h <;> simp [h] at hnone

/-! ## The card on the bus -/

/-- What the processor, the other peripherals and the chip do in a clock. -/
structure BusIn where
  cpu : CpuIo
  peripheral : Peripheral
  dramAccess : Bool
  gf1Wait : Bool

structure BusSystem where
  adapter : Adapter
  gus : GusIo

namespace BusSystem

variable (s : BusSystem) (i : BusIn)

/-- 240h to 24Fh and 340h to 34Fh -/
def gusCs : Bool := s.adapter.ioAddress.extractLsb' 4 12 == 0x024 || s.adapter.ioAddress.extractLsb' 4 12 == 0x034

/-- 388h to 38Bh -/
def fmCs : Bool := s.adapter.ioAddress.extractLsb' 2 14 == 0x0E2

def gusIn : GusIoIn where
  reset := false
  enable := true
  read := s.adapter.ioRead
  write := s.adapter.ioWrite
  gusCs := s.gusCs
  fmCs := s.fmCs
  dramAccess := i.dramAccess
  gf1Wait := i.gf1Wait

def step : BusSystem where
  adapter := s.adapter.step i.cpu { i.peripheral with ioWait := s.gus.ioWait (s.gusIn i) } true
  gus := s.gus.step (s.gusIn i)

end BusSystem

/-- The adapter and the card, from a clock on in which neither has anything under way. -/
structure BusRun where
  start : Adapter
  inp : Nat → BusIn
  noRead : start.ioRead = false
  noWrite : start.ioWrite = false

namespace BusRun

variable (b : BusRun)

def state (t : Nat) : BusSystem := run BusSystem.step ⟨b.start, ⟨idle, idle⟩⟩ b.inp t

def gusIn (t : Nat) : GusIoIn := (b.state t).gusIn (b.inp t)

theorem gus_run (t : Nat) : run GusIo.step ⟨idle, idle⟩ b.gusIn t = (b.state t).gus := by
  induction t with
  | zero => rfl
  | succ t ih => rw [run_succ, ih]; rfl

/-- A strobe to the card is one of the adapter's. -/
theorem strobe_wait {t : Nat} {k : Direction} (h : (b.gusIn t).strobe k = true) :
    ∃ u lane, t = u + 1 ∧ (b.state u).adapter.state = .issue lane ∧ (b.state t).adapter.state = .wait lane := by
  have hstrobe : (b.state t).adapter.ioRead = true ∨ (b.state t).adapter.ioWrite = true := by
    cases k
    · exact .inl (Bool.and_eq_true _ _ ▸ h : _ ∧ _).1
    · exact .inr (Bool.and_eq_true _ _ ▸ h : _ ∧ _).1
  cases t with
  | zero =>
    rcases hstrobe with h | h
    · exact absurd (b.noRead.symm.trans h) Bool.false_ne_true
    · exact absurd (b.noWrite.symm.trans h) Bool.false_ne_true
  | succ u =>
    obtain ⟨lane, hissue, hwait⟩ := strobe_issue hstrobe
    exact ⟨u, lane, rfl, hissue, hwait⟩

/-- Between two strobes the wait was low. -/
theorem apart {t u : Nat} {k k' : Direction} (htu : t < u) (ht : (b.gusIn t).strobe k = true)
    (hu : (b.gusIn u).strobe k' = true) : ∃ v, t ≤ v ∧ v < u ∧ (b.state v).gus.ioWait (b.gusIn v) = false := by
  by_contra hnever
  have hheld : ∀ v, t ≤ v → v < u → (b.state v).gus.ioWait (b.gusIn v) = true := fun v h1 h2 =>
    Bool.eq_true_of_not_eq_false fun h => hnever ⟨v, h1, h2, h⟩
  obtain ⟨-, lane, -, -, hwait⟩ := b.strobe_wait ht
  obtain ⟨w, lane', rfl, hissue, -⟩ := b.strobe_wait hu
  have hstays : ∀ v, t ≤ v → v ≤ w → (b.state v).adapter.state = .wait lane := by
    intro v htv
    induction v, htv using Nat.le_induction with
    | base => exact fun _ => hwait
    | succ v htv ih =>
      intro hvw
      have hv := ih (by omega)
      show ((b.state v).adapter.step _ _ true).state = _
      rw [Adapter.step_wait hv]
      exact if_pos (hheld v htv (by omega))
  rw [hstays w (by omega) le_rfl] at hissue
  exact absurd hissue (by simp)

/-- The accesses to the card, as the bus makes them. -/
def toIoRun : IoRun where
  inp := b.gusIn
  noReset _ := rfl
  enabled _ := rfl
  apart := by
    intro t u k k' htu ht hu
    obtain ⟨v, htv, hvu, hlow⟩ := b.apart htu ht hu
    exact ⟨v, htv, hvu, by rw [b.gus_run]; exact hlow⟩

end BusRun

end Z486.Gus
