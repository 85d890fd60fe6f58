/-
Accesses of the processor to the GF1 (src/soc/sound/gus/gus.sv). A strobe of one clock becomes an access of three: it
starts in the first clock in which the chip is not in one of its memory cycles, and the bus is held until it is over.
-/
import Z486.Clocked.Run

namespace Z486.Gus

open Clocked

/-! ## Registers -/

/-- The registers of one direction: `read_d`, `read_due` and `read_wait`, or those of the writes. -/
structure Access where
  d : Bool
  due : Bool
  wait : BitVec 2
  deriving DecidableEq, Repr

namespace Access

variable (s : Access) (strobe dramAccess reset : Bool)

/-- `read_new`, `write_new` -/
def new : Bool := !s.d && strobe

/-- `read_go`, `write_go` -/
def go : Bool := (s.new strobe || s.due) && !dramAccess

/-- `read_cont`, `write_cont`: the access, as the chip sees it. -/
def cont : Bool := s.go strobe dramAccess || s.wait != 0

def step : Access where
  d := strobe
  due := if reset then false else if s.go strobe dramAccess then false else if s.new strobe then true else s.due
  wait := BitVec.ofBool (s.wait.getLsbD 0) ++ BitVec.ofBool (s.go strobe dramAccess)

end Access

structure GusIoIn where
  reset : Bool
  enable : Bool
  read : Bool
  write : Bool
  gusCs : Bool
  fmCs : Bool
  /-- Of the chip: it is in a memory cycle. -/
  dramAccess : Bool
  /-- Of the chip: `WAIT`. -/
  gf1Wait : Bool

structure GusIo where
  read : Access
  write : Access

/-- The two directions of an access. -/
inductive Direction
  | read
  | write
  deriving DecidableEq, Repr

namespace GusIoIn

variable (i : GusIoIn)

def gf1Read : Bool := i.read && i.gusCs

def gf1Write : Bool := i.write && (i.gusCs || i.fmCs)

def strobe : Direction → Bool
  | .read => i.gf1Read
  | .write => i.gf1Write

end GusIoIn

namespace GusIo

variable (s : GusIo) (i : GusIoIn)

def access : Direction → Access
  | .read => s.read
  | .write => s.write

/-- `IOR` or `IOW` of the chip. -/
def cont (k : Direction) : Bool := (s.access k).cont (i.strobe k) i.dramAccess

def holds (k : Direction) : Bool := s.cont i k || (s.access k).new (i.strobe k) || (s.access k).due

def ioWait : Bool := i.enable && (i.gf1Wait || s.holds i .read || s.holds i .write)

def step : GusIo where
  read := s.read.step i.gf1Read i.dramAccess i.reset
  write := s.write.step i.gf1Write i.dramAccess i.reset

theorem step_access (k : Direction) : (s.step i).access k = (s.access k).step (i.strobe k) i.dramAccess i.reset := by
  cases k <;> rfl

end GusIo

/-! ## Strobes of the bus -/

/-- The registers with no access under way. -/
def idle : Access := ⟨false, false, 0⟩

/-- Accesses to a card that is enabled and not reset. The bus gives a strobe only when the wait was low since the last
one. -/
structure IoRun where
  inp : Nat → GusIoIn
  noReset : ∀ t, (inp t).reset = false
  enabled : ∀ t, (inp t).enable = true
  apart : ∀ t u k k', t < u → (inp t).strobe k = true → (inp u).strobe k' = true →
    ∃ v, t ≤ v ∧ v < u ∧ (run GusIo.step ⟨idle, idle⟩ inp v).ioWait (inp v) = false

namespace IoRun

variable (r : IoRun)

def state (t : Nat) : GusIo := run GusIo.step ⟨idle, idle⟩ r.inp t

def access (t : Nat) (k : Direction) : Access := (r.state t).access k

def strobe (t : Nat) (k : Direction) : Bool := (r.inp t).strobe k

def dramAccess (t : Nat) : Bool := (r.inp t).dramAccess

def ioWait (t : Nat) : Bool := (r.state t).ioWait (r.inp t)

/-- `IOR` or `IOW` in clock `t`. -/
def cont (t : Nat) (k : Direction) : Bool := (r.state t).cont (r.inp t) k

def Idle (t : Nat) : Prop := ∀ k, r.access t k = idle

theorem access_succ (t : Nat) (k : Direction) :
    r.access (t + 1) k = (r.access t k).step (r.strobe t k) (r.dramAccess t) false := by
  rw [← r.noReset t]
  exact GusIo.step_access _ _ k

/-- The bus is held while either direction has something to do. -/
theorem ioWait_of_holds {t : Nat} {k : Direction} (h : (r.state t).holds (r.inp t) k = true) : r.ioWait t = true := by
  unfold ioWait GusIo.ioWait
  rw [r.enabled t]
  cases k
  · rw [h]; simp
  · rw [h]; simp

/-- No strobe comes while the bus is held. -/
theorem no_strobe {t v : Nat} {k : Direction} (ht : r.strobe t k = true) (htv : t < v)
    (hheld : ∀ w, t ≤ w → w < v → r.ioWait w = true) (k' : Direction) : r.strobe v k' = false := by
  refine Bool.eq_false_iff.2 fun hv => ?_
  obtain ⟨w, htw, hwv, hlow⟩ := r.apart t v k k' htv ht hv
  exact absurd ((hheld w htw hwv).symm.trans hlow) (by decide)

/-! ## One access -/

/-- The strobe of clock `t` waits, up to clock `v`, for the end of a memory cycle. -/
structure Waiting (t v : Nat) : Prop where
  due : ∀ k, r.access v k = ⟨decide (v = t + 1) && r.strobe t k, r.strobe t k, 0⟩
  held : ∀ w, t ≤ w → w < v → r.ioWait w = true

theorem new_holds {t : Nat} {k : Direction} (hidle : r.Idle t) (ht : r.strobe t k = true) : r.ioWait t = true := by
  refine r.ioWait_of_holds (k := k) ?_
  have haccess : (r.state t).access k = idle := hidle k
  have hstrobe : (r.inp t).strobe k = true := ht
  unfold GusIo.holds
  rw [haccess, hstrobe, show idle.new true = true from rfl, Bool.or_true, Bool.true_or]

theorem waiting_succ {t : Nat} {k : Direction} (hidle : r.Idle t) (ht : r.strobe t k = true)
    (hdram : r.dramAccess t = true) : r.Waiting t (t + 1) where
  due := by
    intro k
    rw [r.access_succ, hidle k, hdram]
    cases r.strobe t k <;> simp [idle, Access.step, Access.go, Access.new]
  held := by
    intro w htw hw
    obtain rfl : w = t := by omega
    exact r.new_holds hidle ht

theorem waiting_step {t v : Nat} {k : Direction} (ht : r.strobe t k = true) (htv : t < v) (h : r.Waiting t v)
    (hdram : r.dramAccess v = true) : r.Waiting t (v + 1) where
  due := by
    intro k'
    rw [r.access_succ, h.due k', r.no_strobe ht htv h.held k', hdram, decide_eq_false (show ¬ v + 1 = t + 1 by omega)]
    cases r.strobe t k' <;> simp [Access.step, Access.go, Access.new]
  held := by
    intro w htw hw
    rcases Nat.lt_succ_iff_lt_or_eq.1 hw with hlt | rfl
    · exact h.held w htw hlt
    · refine r.ioWait_of_holds (k := k) ?_
      have haccess : (r.state w).access k = _ := h.due k
      unfold GusIo.holds
      rw [haccess, ht, Bool.or_true]

/-- The access has begun in clock `u` and is in its clock `n`. -/
structure Going (t u n : Nat) : Prop where
  regs : ∀ k, r.access (u + n) k =
    ⟨decide (u + n = t + 1) && r.strobe t k, false, if r.strobe t k then BitVec.ofNat 2 n else 0⟩
  held : ∀ w, t ≤ w → w < u + n → r.ioWait w = true

/-- The access begins at once when the chip is not in a memory cycle. -/
theorem going_of_idle {t : Nat} {k : Direction} (hidle : r.Idle t) (ht : r.strobe t k = true)
    (hdram : r.dramAccess t = false) : r.Going t t 1 where
  regs := by
    intro k
    rw [r.access_succ, hidle k, hdram]
    cases r.strobe t k <;> simp [idle, Access.step, Access.go, Access.new]
  held := by
    intro w htw hw
    obtain rfl : w = t := by omega
    exact r.new_holds hidle ht

theorem going_of_waiting {t u : Nat} {k : Direction} (ht : r.strobe t k = true) (htu : t < u) (h : r.Waiting t u)
    (hdram : r.dramAccess u = false) : r.Going t u 1 where
  regs := by
    intro k'
    rw [r.access_succ, h.due k', r.no_strobe ht htu h.held k', hdram, decide_eq_false (show ¬ u + 1 = t + 1 by omega)]
    cases r.strobe t k' <;> simp [Access.step, Access.go, Access.new]
  held := by
    intro w htw hw
    rcases Nat.lt_succ_iff_lt_or_eq.1 hw with hlt | rfl
    · exact h.held w htw hlt
    · refine r.ioWait_of_holds (k := k) ?_
      have haccess : (r.state w).access k = _ := h.due k
      unfold GusIo.holds
      rw [haccess, ht, Bool.or_true]

/-- The bus is held in the last two clocks of an access. -/
theorem held_of_going {t u n : Nat} {k : Direction} (ht : r.strobe t k = true) (h : r.Going t u n)
    (hn : n = 1 ∨ n = 2) : r.cont (u + n) k = true ∧ r.ioWait (u + n) = true := by
  have haccess : (r.state (u + n)).access k = _ := h.regs k
  have hcont : r.cont (u + n) k = true := by
    unfold cont GusIo.cont Access.cont
    rw [haccess, ht]
    rcases hn with rfl | rfl
    · exact Bool.or_true _
    · exact Bool.or_true _
  refine ⟨hcont, r.ioWait_of_holds (k := k) ?_⟩
  unfold GusIo.holds
  rw [show (r.state (u + n)).cont (r.inp (u + n)) k = true from hcont, Bool.true_or, Bool.true_or]

theorem going_succ {t u : Nat} {k : Direction} (ht : r.strobe t k = true) (htu : t ≤ u) (h : r.Going t u 1) :
    r.Going t u 2 where
  regs := by
    intro k'
    have hno := r.no_strobe ht (by omega) h.held k'
    rw [show u + 2 = u + 1 + 1 from rfl, r.access_succ, h.regs k', hno,
      decide_eq_false (show ¬ u + 1 + 1 = t + 1 by omega)]
    cases r.strobe t k' <;> simp [Access.step, Access.go, Access.new]
  held := by
    intro w htw hw
    rcases Nat.lt_succ_iff_lt_or_eq.1 hw with hlt | rfl
    · exact h.held w htw hlt
    · exact (r.held_of_going ht h (.inl rfl)).2

/-- After an access there is none under way. -/
theorem idle_of_going {t u : Nat} {k : Direction} (ht : r.strobe t k = true) (htu : t ≤ u) (h : r.Going t u 2) :
    r.Idle (u + 3) := by
  intro k'
  have hno := r.no_strobe ht (by omega) h.held k'
  rw [show u + 3 = u + 2 + 1 from rfl, r.access_succ, h.regs k', hno]
  cases r.strobe t k' <;> simp [idle, Access.step, Access.go, Access.new]

/-! ## All accesses -/

/-- The first clock from `t` on in which the chip is not in a memory cycle. -/
structure FirstFree (t u : Nat) : Prop where
  later : t ≤ u
  free : r.dramAccess u = false
  before : ∀ v, t ≤ v → v < u → r.dramAccess v = true

theorem waiting_of_busy {t v : Nat} {k : Direction} (hidle : r.Idle t) (ht : r.strobe t k = true) (htv : t < v)
    (hdram : ∀ w, t ≤ w → w < v → r.dramAccess w = true) : r.Waiting t v := by
  induction v, htv using Nat.le_induction with
  | base => exact r.waiting_succ hidle ht (hdram t le_rfl (Nat.lt_succ_self t))
  | succ v htv ih => exact r.waiting_step ht htv (ih fun w h1 h2 => hdram w h1 (by omega)) (hdram v (by omega) (by omega))

theorem going_of_firstFree {t u : Nat} {k : Direction} (hidle : r.Idle t) (ht : r.strobe t k = true)
    (hfree : r.FirstFree t u) : r.Going t u 1 := by
  rcases Nat.eq_or_lt_of_le hfree.later with rfl | hlt
  · exact r.going_of_idle hidle ht hfree.free
  · exact r.going_of_waiting ht hlt (r.waiting_of_busy hidle ht hlt hfree.before) hfree.free

/-- An access is under way in clock `v`, for a strobe of a clock before. -/
def Busy (v : Nat) : Prop := ∃ t k, t < v ∧ r.Idle t ∧ r.strobe t k = true ∧
  ((∀ w, t ≤ w → w < v → r.dramAccess w = true) ∨ ∃ u, r.FirstFree t u ∧ u < v ∧ v ≤ u + 2)

theorem held_of_busy {v : Nat} (h : r.Busy v) : ∀ k, r.strobe v k = false := by
  obtain ⟨t, k, htv, hidle, ht, hdram | ⟨u, hfree, huv, hvu⟩⟩ := h
  · exact r.no_strobe ht htv (r.waiting_of_busy hidle ht htv hdram).held
  · have hgoing := r.going_of_firstFree hidle ht hfree
    have htu := hfree.later
    rcases (by omega : v = u + 1 ∨ v = u + 2) with rfl | rfl
    · exact r.no_strobe ht htv hgoing.held
    · exact r.no_strobe ht htv (r.going_succ ht htu hgoing).held

theorem idle_succ {v : Nat} (h : r.Idle v) (hno : ∀ k, r.strobe v k = false) : r.Idle (v + 1) := by
  intro k
  rw [r.access_succ, h k, hno k]
  cases r.dramAccess v <;> rfl

theorem idle_or_busy : ∀ v, r.Idle v ∨ r.Busy v
  | 0 => .inl fun k => by cases k <;> rfl
  | v + 1 => by
    rcases idle_or_busy v with hidle | hbusy
    · by_cases hstrobe : ∃ k, r.strobe v k = true
      · obtain ⟨k, hk⟩ := hstrobe
        refine .inr ⟨v, k, Nat.lt_succ_self v, hidle, hk, ?_⟩
        cases hdram : r.dramAccess v with
        | true =>
          refine .inl fun w h1 h2 => ?_
          obtain rfl : w = v := by omega
          exact hdram
        | false => exact .inr ⟨v, ⟨le_rfl, hdram, fun w h1 h2 => by omega⟩, Nat.lt_succ_self v, by omega⟩
      · exact .inl (r.idle_succ hidle fun k => Bool.eq_false_iff.2 fun hk => hstrobe ⟨k, hk⟩)
    · obtain ⟨t, k, htv, hidle, ht, hdram | ⟨u, hfree, huv, hvu⟩⟩ := hbusy
      · refine .inr ⟨t, k, by omega, hidle, ht, ?_⟩
        cases hv : r.dramAccess v with
        | true =>
          refine .inl fun w h1 h2 => ?_
          rcases Nat.lt_succ_iff_lt_or_eq.1 h2 with hlt | rfl
          · exact hdram w h1 hlt
          · exact hv
        | false => exact .inr ⟨v, ⟨htv.le, hv, hdram⟩, Nat.lt_succ_self v, by omega⟩
      · rcases Nat.lt_succ_iff_lt_or_eq.1 (Nat.lt_succ_of_le hvu) with hlt | rfl
        · exact .inr ⟨t, k, by omega, hidle, ht, .inr ⟨u, hfree, by omega, by omega⟩⟩
        · exact .inl (r.idle_of_going ht hfree.later (r.going_succ ht hfree.later (r.going_of_firstFree hidle ht hfree)))

/-- A strobe comes when no access is under way. -/
theorem idle_of_strobe {t : Nat} {k : Direction} (ht : r.strobe t k = true) : r.Idle t := by
  rcases r.idle_or_busy t with hidle | hbusy
  · exact hidle
  · exact absurd ((r.held_of_busy hbusy k).symm.trans ht) Bool.false_ne_true

/-- A direction without strobes has no access. -/
theorem access_idle {a v : Nat} {k : Direction} (ha : r.access a k = idle) (hav : a ≤ v)
    (hno : ∀ w, a ≤ w → w < v → r.strobe w k = false) : r.access v k = idle := by
  induction v, hav using Nat.le_induction with
  | base => exact ha
  | succ v hav ih =>
    rw [r.access_succ, ih fun w h1 h2 => hno w h1 (by omega), hno v hav (Nat.lt_succ_self v)]
    cases r.dramAccess v <;> rfl

theorem cont_idle {v : Nat} {k : Direction} (ha : r.access v k = idle) (hno : r.strobe v k = false) :
    r.cont v k = false := by
  have haccess : (r.state v).access k = idle := ha
  have hstrobe : (r.inp v).strobe k = false := hno
  unfold cont GusIo.cont
  rw [haccess, hstrobe]
  cases (r.inp v).dramAccess <;> rfl

/-- While the chip is in a memory cycle no access begins. -/
theorem cont_busy {v : Nat} {k : Direction} (hwait : (r.access v k).wait = 0) (hdram : r.dramAccess v = true) :
    r.cont v k = false := by
  have hwait' : ((r.state v).access k).wait = 0 := hwait
  have hdram' : (r.inp v).dramAccess = true := hdram
  unfold cont GusIo.cont Access.cont Access.go
  rw [hwait', hdram', Bool.not_true, Bool.and_false]
  rfl

/-- The strobe of clock `t` in the direction `k` is an access from clock `u` on: its three clocks, and no others until
the next strobe of the direction; the bus is held from the strobe to the end of the access and of the chip's `WAIT`, and
gives no strobe before that. -/
structure Serves (t u : Nat) (k : Direction) : Prop where
  first : r.FirstFree t u
  asserted : ∀ v, t ≤ v → (∀ w, t < w → w ≤ v → r.strobe w k = false) → (r.cont v k = true ↔ u ≤ v ∧ v ≤ u + 2)
  held : ∀ v, t ≤ v → (v ≤ u + 2 ∨ ∀ w, u + 2 < w → w ≤ v → (r.inp w).gf1Wait = true) → r.ioWait v = true
  next : ∀ v k', t < v → r.strobe v k' = true → u + 2 < v

theorem serves {t u : Nat} {k : Direction} (ht : r.strobe t k = true) (hfree : r.FirstFree t u) : r.Serves t u k := by
  have hidle := r.idle_of_strobe ht
  have htu := hfree.later
  have hfirst := r.going_of_firstFree hidle ht hfree
  have hsecond := r.going_succ ht htu hfirst
  have hlast := r.idle_of_going ht htu hsecond
  -- the wait is held until the access is over
  have hheld : ∀ v, t ≤ v → v ≤ u + 2 → r.ioWait v = true := by
    intro v htv hv
    rcases Nat.lt_or_eq_of_le hv with hlt | rfl
    · exact hsecond.held v htv hlt
    · exact (r.held_of_going ht hsecond (.inr rfl)).2
  refine ⟨hfree, fun v htv hno => ?_, fun v htv hv => ?_, fun v k' htv hv => ?_⟩
  · rcases (by omega : v < u ∨ v = u ∨ v = u + 1 ∨ v = u + 2 ∨ u + 3 ≤ v) with hlt | rfl | rfl | rfl | hle
    · refine iff_of_false (ne_true_of_eq_false (r.cont_busy ?_ (hfree.before v htv hlt))) (by omega)
      rcases Nat.eq_or_lt_of_le htv with rfl | hlt'
      · rw [hidle k]; rfl
      · rw [(r.waiting_of_busy hidle ht hlt' fun w h1 h2 => hfree.before w h1 (by omega)).due k]
    · refine iff_of_true ?_ (by omega)
      have hdram : (r.inp v).dramAccess = false := hfree.free
      unfold cont GusIo.cont Access.cont Access.go
      rw [hdram]
      rcases Nat.eq_or_lt_of_le htv with rfl | hlt'
      · have haccess : (r.state t).access k = idle := hidle k
        have hstrobe : (r.inp t).strobe k = true := ht
        rw [haccess, hstrobe]; rfl
      · have haccess : (r.state v).access k = _ := (r.waiting_of_busy hidle ht hlt' hfree.before).due k
        rw [haccess, ht, Bool.or_true]; rfl
    · exact iff_of_true (r.held_of_going ht hfirst (.inl rfl)).1 (by omega)
    · exact iff_of_true (r.held_of_going ht hsecond (.inr rfl)).1 (by omega)
    · refine iff_of_false (ne_true_of_eq_false ?_) (by omega)
      exact r.cont_idle (r.access_idle (hlast k) hle fun w h1 h2 => hno w (by omega) (by omega)) (hno v (by omega) le_rfl)
  · rcases Nat.lt_or_ge (u + 2) v with hlt | hle
    · have hwait : (r.inp v).gf1Wait = true := (hv.resolve_left (by omega)) v hlt le_rfl
      unfold ioWait GusIo.ioWait
      rw [r.enabled v, hwait, Bool.true_or, Bool.true_or]; rfl
    · exact hheld v htv hle
  · by_contra hle
    have hno := r.no_strobe ht htv (fun w h1 h2 => hheld w h1 (by omega)) k'
    exact absurd (hno.symm.trans hv) Bool.false_ne_true

/-- Every strobe becomes one access, in the first clock in which the chip is not in a memory cycle; the bus is held until
then, and there are no other accesses. -/
structure Accesses : Prop where
  served : ∀ t k, r.strobe t k = true → (∃ u, t ≤ u ∧ r.dramAccess u = false) → ∃ u, r.Serves t u k
  waits : ∀ t k v, r.strobe t k = true → t ≤ v → (∀ w, t ≤ w → w ≤ v → r.dramAccess w = true) →
    r.cont v k = false ∧ r.ioWait v = true
  none : ∀ v k, (∀ w, w ≤ v → r.strobe w k = false) → r.cont v k = false

theorem cont_none {v : Nat} {k : Direction} (hno : ∀ w, w ≤ v → r.strobe w k = false) : r.cont v k = false := by
  have hstart : r.access 0 k = idle := by cases k <;> rfl
  exact r.cont_idle (r.access_idle hstart (Nat.zero_le v) fun w _ hw => hno w hw.le) (hno v le_rfl)

theorem accesses : r.Accesses where
  served := by
    intro t k ht hfree
    obtain ⟨u, htu, hu, hbefore⟩ := exists_first hfree
    exact ⟨u, r.serves ht ⟨htu, hu, fun v h1 h2 => Bool.eq_true_of_not_eq_false (hbefore v h1 h2)⟩⟩
  waits := by
    intro t k v ht htv hdram
    have hidle := r.idle_of_strobe ht
    rcases Nat.eq_or_lt_of_le htv with rfl | hlt
    · exact ⟨r.cont_busy (by rw [hidle k]; rfl) (hdram t le_rfl le_rfl), r.new_holds hidle ht⟩
    · have hwaiting := r.waiting_of_busy hidle ht hlt fun w h1 h2 => hdram w h1 h2.le
      have hnext := r.waiting_step ht hlt hwaiting (hdram v htv le_rfl)
      exact ⟨r.cont_busy (by rw [hwaiting.due k]) (hdram v htv le_rfl), hnext.held v htv (Nat.lt_succ_self v)⟩
  none := fun _ _ hno => r.cont_none hno

end IoRun

/-- A read of an AdLib port, in the first clock. -/
def adlibRead : IoRun where
  inp t := ⟨false, true, decide (t = 0), false, false, true, false, false⟩
  noReset _ := rfl
  enabled _ := rfl
  apart := by
    intro t u k k' _ ht _
    cases k <;> simp [GusIoIn.strobe, GusIoIn.gf1Read, GusIoIn.gf1Write] at ht

/-- The chip sees the writes to the AdLib ports, and not the reads. -/
theorem adlibRead_no_access : ¬ ∀ (r : IoRun) (t : Nat),
    ((r.inp t).read && ((r.inp t).gusCs || (r.inp t).fmCs)) = true → ∃ u, t ≤ u ∧ r.cont u .read = true := by
  intro h
  obtain ⟨u, -, hu⟩ := h adlibRead 0 rfl
  have hnone : adlibRead.cont u .read = false := adlibRead.cont_none fun w _ => Bool.and_false _
  exact absurd (hnone.symm.trans hu) Bool.false_ne_true

end Z486.Gus
