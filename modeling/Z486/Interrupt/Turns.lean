/-
The rotation of the priorities in the 8259: what a rotating end of interrupt, and an acknowledge with automatic rotation,
make of the order of the levels. The controller moves the lowest priority on by one; the level that has been served is the
last one afterwards only when it was the first before. Where it is, no level is passed over twice by the same other one.
-/
import Z486.Clocked.Run
import Z486.Interrupt.Priority

namespace Z486.Interrupt

open Clocked

/-! ## The end of a service -/

namespace I8259

section Definitions

variable (s : I8259) (i : I8259In)

/-- A rotating non-specific end of interrupt. -/
def rotatesEoi : Bool := ocw2 i && i.ioWritedata == 0xA0

/-- The request in the vector register is acknowledged. -/
def takes : Bool := s.interruptDo && s.acknowledgeNotSpurious i

/-- The service of level `k` ends in a clock, and the priorities rotate: by a command, or with the acknowledge in the
rotating automatic mode, unless a command comes in the same clock. -/
inductive Ends (k : BitVec 3) : Prop
  | eoi (running : i.rstN = true) (command : rotatesEoi i = true) (first : s.First s.inService k)
  | aeoi (running : i.rstN = true) (taken : s.takes i = true) (level : s.vectorLevel = k) (auto : s.autoEoi = true)
      (rotate : s.rotateOnAeoi = true) (icw1 : initIcw1 i = false) (ocw2 : ocw2 i = false)

/-- Level `k` has become the last, and the others keep their places in the circle. -/
structure TurnsTo (s' : I8259) (k : BitVec 3) : Prop where
  last : ∀ j, j ≠ k → s'.rank j < s'.rank k
  circle : ∀ x y, s'.rank x - s'.rank y = s.rank x - s.rank y

/-- A clock of a processor that uses the rotation: its only commands of the kind are rotating ends of interrupt of levels
in service, its automatic mode rotates, and it acknowledges requests, one at a time and without polling. -/
structure Turning : Prop where
  running : i.rstN = true
  icw1 : initIcw1 i = false
  commands : ocw2 i = true → i.ioWritedata ≠ 0x20 ∧ ocw2Command i ≠ 0x60 ∧ ocw2Command i ≠ 0xC0 ∧ ocw2Command i ≠ 0xE0
  eoi : rotatesEoi i = true → ∃ k, s.inService k = true
  auto : s.autoEoi = true → s.rotateOnAeoi = true
  unpolled : (s.polled && s.ioReadValid i) = false
  acks : s.acknowledgeNotSpurious i = true → s.interruptDo = true ∧ ocw2 i = false

end Definitions

variable {s : I8259} {i : I8259In} {j k : BitVec 3}

/-- The lowest priority moves on by one, whatever level ends. -/
theorem Ends.lowest (h : s.Ends i k) : (s.step i).lowestPriority = s.lowestPriority + 1 := by
  cases h with
  | eoi hr hcommand _ =>
    obtain ⟨hocw2, hdata⟩ := Bool.and_eq_true_iff.1 hcommand
    have hicw1 : initIcw1 i = false := by
      unfold initIcw1
      rw [beq_iff_eq.1 hdata]
      simp
    rw [step, if_pos hr]
    simp [next, hicw1, hocw2, beq_iff_eq.1 hdata]
  | aeoi hr htaken _ hauto hrotate hicw1 hocw2 =>
    rw [step, if_pos hr]
    simp [next, hicw1, hocw2, (Bool.and_eq_true_iff.1 htaken).2, hauto, hrotate]

theorem Ends.turnsTo_iff (h : s.Ends i k) : s.TurnsTo (s.step i) k ↔ k = s.lowestPriority + 1 := by
  rw [← h.lowest]
  constructor
  · intro hturn
    by_contra hne
    have hlast := hturn.last _ (Ne.symm hne)
    have hlt := Rotation.rank_lt_lowest hne
    rw [BitVec.lt_def] at hlast hlt
    exact absurd (hlast.trans hlt) (Nat.lt_irrefl _)
  · rintro rfl
    refine ⟨fun j hj => Rotation.rank_lt_lowest hj, fun x y => ?_⟩
    unfold rank
    rw [Rotation.rank_sub, Rotation.rank_sub]

/-- Without a command that ends a service, only an acknowledge changes ISR and the rotation. -/
theorem Turning.isr (h : s.Turning i) (hno : rotatesEoi i = false) :
    (s.step i).isr = if s.acknowledgeNotSpurious i && !s.autoEoi then s.isr ||| s.interruptVectorBits else s.isr := by
  have hclear : s.isrClear i = false := by
    unfold isrClear
    rw [h.unpolled, Bool.false_or]
    cases hocw2 : ocw2 i with
    | false => rfl
    | true =>
      rw [rotatesEoi, hocw2, Bool.true_and] at hno
      rw [hno, beq_eq_false_iff_ne.2 (h.commands hocw2).1]
      rfl
  have hspecific : (ocw2 i && ocw2Command i == 0x60) = false ∧ (ocw2 i && ocw2Command i == 0xE0) = false := by
    cases hocw2 : ocw2 i with
    | false => exact ⟨rfl, rfl⟩
    | true =>
      obtain ⟨-, h60, -, hE0⟩ := h.commands hocw2
      rw [beq_eq_false_iff_ne.2 h60, beq_eq_false_iff_ne.2 hE0]
      exact ⟨rfl, rfl⟩
  rw [step, if_pos h.running]
  show (if initIcw1 i then 0 else if ocw2 i && ocw2Command i == 0x60 then _
    else if ocw2 i && ocw2Command i == 0xE0 then _ else if s.isrClear i then _ else _) = _
  rw [h.icw1, hspecific.1, hspecific.2, hclear]
  rfl

theorem Turning.lowest (h : s.Turning i) (hno : rotatesEoi i = false) : (s.step i).lowestPriority =
    if s.acknowledgeNotSpurious i && s.autoEoi then s.lowestPriority + 1 else s.lowestPriority := by
  have hset : (ocw2 i && ocw2Command i == 0xC0) = false ∧ (ocw2 i && ocw2Command i == 0xE0) = false := by
    cases hocw2 : ocw2 i with
    | false => exact ⟨rfl, rfl⟩
    | true =>
      obtain ⟨-, -, hC0, hE0⟩ := h.commands hocw2
      rw [beq_eq_false_iff_ne.2 hC0, beq_eq_false_iff_ne.2 hE0]
      exact ⟨rfl, rfl⟩
  rw [step, if_pos h.running]
  show (if initIcw1 i then 7 else if ocw2 i && i.ioWritedata == 0xA0 then _ else if ocw2 i && ocw2Command i == 0xC0 then _
    else if ocw2 i && ocw2Command i == 0xE0 then _
    else if s.acknowledgeNotSpurious i && s.autoEoi && s.rotateOnAeoi then _ else _) = _
  rw [rotatesEoi] at hno
  rw [h.icw1, hno, hset.1, hset.2]
  cases hauto : s.autoEoi with
  | false => simp
  | true => simp [h.auto hauto]

/-- What a clock does to the rotation and to the levels in service: a service ends, or the rotation stays. -/
theorem Turning.cases (h : s.Turning i) :
    (∃ m, s.Ends i m ∧ (s.inService m = true ∨ s.takes i = true ∧ s.vectorLevel = m) ∧
      ∀ x, x ≠ m → s.inService x = true → (s.step i).inService x = true) ∨
    ((s.step i).lowestPriority = s.lowestPriority ∧ ∀ x, s.inService x = true → (s.step i).inService x = true) := by
  cases hcommand : rotatesEoi i with
  | true =>
    obtain ⟨k, hk⟩ := h.eoi hcommand
    have hfirst := isrFirst_first hk
    obtain ⟨hocw2, hdata⟩ := Bool.and_eq_true_iff.1 hcommand
    refine .inl ⟨_, .eoi h.running hcommand hfirst, .inl hfirst.mem, fun x hx hin => ?_⟩
    rw [ends_inService h.running (by rw [nonSpecificEoi, hocw2, hdata]; simp), hin, decide_eq_false hx]
    rfl
  | false =>
    have hisr := h.isr hcommand
    have hlowest := h.lowest hcommand
    have hkeep : ∀ x, s.inService x = true → (s.step i).inService x = true := by
      intro x hx
      unfold inService at hx ⊢
      rw [hisr]
      split
      · rw [BitVec.getLsbD_or, hx, Bool.true_or]
      · exact hx
    cases hack : s.acknowledgeNotSpurious i && s.autoEoi with
    | false =>
      rw [hack] at hlowest
      exact .inr ⟨hlowest, hkeep⟩
    | true =>
      obtain ⟨hacked, hauto⟩ := Bool.and_eq_true_iff.1 hack
      obtain ⟨hdo, hocw2⟩ := h.acks hacked
      have htakes : s.takes i = true := by rw [takes, hdo, hacked]; rfl
      exact .inl ⟨_, .aeoi h.running htakes rfl hauto (h.auto hauto) h.icw1 hocw2, .inr ⟨htakes, rfl⟩,
        fun x _ => hkeep x⟩

/-- A request that is acknowledged goes into service, or goes behind all others. -/
theorem Turning.takes_step (h : s.Turning i) (htakes : s.takes i = true) :
    (s.step i).inService s.vectorLevel = true ∨ s.Ends i s.vectorLevel := by
  have hack := (Bool.and_eq_true_iff.1 htakes).2
  have hocw2 := (h.acks hack).2
  cases hauto : s.autoEoi with
  | true => exact .inr (.aeoi h.running htakes rfl hauto (h.auto hauto) h.icw1 hocw2)
  | false =>
    have hbit : ∀ m : BitVec 3, (1#8 <<< m).getLsbD m.toNat = true := by decide
    refine .inl ?_
    unfold inService
    rw [h.isr (by rw [rotatesEoi, hocw2]; rfl), hack, hauto, Bool.not_false, Bool.and_self, if_pos rfl,
      BitVec.getLsbD_or, interruptVectorBits, hbit, Bool.or_true]

/-- A request is signalled in the clock after the request logic chose it. -/
theorem Turning.chosen (h : s.Turning i) (hdo : (s.step i).interruptDo = true) :
    s.acknowledge i = false ∧ s.First s.candidate (s.step i).vectorLevel := by
  have hnext : (s.step i).interruptDo = if s.acknowledge i then false else s.irq := by
    rw [step, if_pos h.running]
    show (if initIcw1 i then false else _) = _
    rw [h.icw1]
    rfl
  cases hack : s.acknowledge i with
  | true =>
    rw [hnext, hack] at hdo
    cases hdo
  | false =>
    rw [hnext, hack] at hdo
    rw [((arbitrates s).signals i h.running h.icw1 hack).2 hdo]
    exact ⟨rfl, (arbitrates s).selects hdo⟩

end I8259

/-! ## Runs -/

structure I8259Run where
  start : I8259
  inputs : Nat → I8259In

namespace I8259Run

variable (r : I8259Run)

/-- The registers in clock `t`. -/
def state : Nat → I8259 := run I8259.step r.start r.inputs

theorem state_succ (t : Nat) : r.state (t + 1) = (r.state t).step (r.inputs t) := run_succ _ _ _ _

/-- Level `k` is acknowledged in clock `t`. -/
def Takes (t : Nat) (k : BitVec 3) : Prop := (r.state t).takes (r.inputs t) = true ∧ (r.state t).vectorLevel = k

/-- From clock `a` to clock `b` the processor uses the rotation, and level `k` asks for service and does not get it. -/
def Waits (a b : Nat) (k : BitVec 3) : Prop := ∀ u, a ≤ u → u ≤ b →
  (r.state u).Turning (r.inputs u) ∧ (r.state u).candidate k = true ∧ ¬ r.Takes u k

/-- Every level whose service ends with a rotation becomes the last, and while a level waits no other one is served
twice. -/
structure Rotates : Prop where
  turns : ∀ t k, (r.state t).Ends (r.inputs t) k → (r.state t).TurnsTo (r.state (t + 1)) k
  fair : ∀ a b k j, r.Waits a b k → ∀ t t', a ≤ t → t < t' → t' ≤ b → r.Takes t j → ¬ r.Takes t' j

/-- The level whose service ends is always the first in the rotation. -/
def InOrder : Prop := ∀ t k, (r.state t).Ends (r.inputs t) k → k = (r.state t).lowestPriority + 1

variable {r} {a b t u : Nat} {j k : BitVec 3}

/-- Since its acknowledge level `j` is in service, or goes behind level `k`, which waits. -/
def Behind (r : I8259Run) (u : Nat) (k j : BitVec 3) : Prop :=
  (r.state u).inService j = true ∨ (r.state u).rank k < (r.state u).rank j

theorem Waits.not_ended (h : r.Waits a b k) (ha : a ≤ u) (hb : u ≤ b) {m : BitVec 3}
    (hm : (r.state u).inService m = true ∨ (r.state u).takes (r.inputs u) = true ∧ (r.state u).vectorLevel = m) :
    k ≠ m := by
  obtain ⟨-, hcandidate, hno⟩ := h u ha hb
  rintro rfl
  rcases hm with hservice | htakes
  · unfold I8259.candidate at hcandidate
    unfold I8259.inService at hservice
    rw [hservice] at hcandidate
    simp at hcandidate
  · exact hno htakes

theorem behind_first (hr : r.InOrder) (h : r.Waits a b k) (ha : a ≤ t) (hb : t ≤ b) (htakes : r.Takes t j) :
    r.Behind (t + 1) k j := by
  obtain ⟨hturning, -, -⟩ := h t ha hb
  obtain ⟨htakes, rfl⟩ := htakes
  have hne := h.not_ended ha hb (.inr ⟨htakes, rfl⟩)
  unfold Behind
  rw [state_succ]
  refine (hturning.takes_step htakes).imp_right fun hends => ?_
  exact (hends.turnsTo_iff.2 (hr t _ hends)).last k hne

theorem behind_step (hr : r.InOrder) (h : r.Waits a b k) (ha : a ≤ u) (hb : u ≤ b) (hne : k ≠ j)
    (hbehind : r.Behind u k j) : r.Behind (u + 1) k j := by
  obtain ⟨hturning, -, -⟩ := h u ha hb
  unfold Behind at hbehind ⊢
  rw [state_succ]
  rcases hturning.cases with ⟨m, hends, hm, hkeep⟩ | ⟨hsame, hkeep⟩
  · have hkm := h.not_ended ha hb hm
    have hfirst := hr u m hends
    by_cases hjm : j = m
    · subst hjm
      exact .inr ((hends.turnsTo_iff.2 hfirst).last k hne)
    · refine hbehind.imp (hkeep j hjm) fun hlt => ?_
      unfold I8259.rank at hlt ⊢
      rw [hends.lowest]
      exact Rotation.rank_lt_succ (by rwa [← hfirst]) hlt
  · refine hbehind.imp (hkeep j) fun hlt => ?_
    unfold I8259.rank at hlt ⊢
    rwa [hsame]

/-- The rotation of the priorities is right if and only if it is always the first level whose service ends. -/
theorem rotates_iff (r : I8259Run) : r.Rotates ↔ r.InOrder := by
  constructor
  · intro h t k hends
    have hturns := h.turns t k hends
    rw [state_succ] at hturns
    exact hends.turnsTo_iff.1 hturns
  · intro h
    constructor
    · intro t k hends
      rw [state_succ]
      exact hends.turnsTo_iff.2 (h t k hends)
    · intro a b k j hwaits t t' ha hlt hb htakes htakes'
      have hne : k ≠ j := hwaits.not_ended ha (by omega) (.inr htakes)
      obtain ⟨n, rfl⟩ : ∃ n, t' = t + 1 + n := ⟨t' - (t + 1), by omega⟩
      have hbehind : ∀ m, m ≤ n → r.Behind (t + 1 + m) k j := by
        intro m
        induction m with
        | zero => exact fun _ => behind_first h hwaits ha (by omega) htakes
        | succ m ih => exact fun hm => behind_step (u := t + 1 + m) h hwaits (by omega) (by omega) hne (ih (by omega))
      -- the choice was made in the clock before, in which no acknowledge came
      have hdo := (Bool.and_eq_true_iff.1 htakes'.1).1
      have hlevel := htakes'.2
      obtain ⟨hturning, hcandidate, -⟩ := hwaits (t + n) (by omega) (by omega)
      rw [show t + 1 + n = (t + n) + 1 by omega, state_succ] at hdo hlevel
      obtain ⟨hack, hfirst⟩ := hturning.chosen hdo
      rw [hlevel] at hfirst
      cases n with
      | zero =>
        have hacked := (Bool.and_eq_true_iff.1 htakes.1).2
        unfold I8259.acknowledgeNotSpurious at hacked
        unfold I8259.acknowledge at hack
        rw [Nat.add_zero] at hack
        rw [Bool.or_eq_false_iff] at hack
        rw [hack.1, hack.2] at hacked
        cases hacked
      | succ n =>
        have hlast := hbehind n (by omega)
        rw [show t + 1 + n = t + (n + 1) by omega] at hlast
        rcases hlast with hservice | hlt'
        · have hmem := hfirst.mem
          unfold I8259.candidate at hmem
          unfold I8259.inService at hservice
          rw [hservice] at hmem
          simp at hmem
        · have hle := hfirst.le k hcandidate
          rw [BitVec.le_def] at hle
          rw [BitVec.lt_def] at hlt'
          omega

/-- Level 3 is in service, and level 7 has the lowest priority; a rotating end of interrupt comes. -/
def thirdEnds : I8259Run where
  start := { I8259.reset with isr := 8 }
  inputs _ :=
    { rstN := true, ioAddress := false, ioRead := false, ioWrite := true, ioWritedata := 0xA0, interruptInput := 0
      interruptDone := false }

/-- Level 0 becomes the last, and not level 3. -/
theorem thirdEnds_not_rotates : ¬ thirdEnds.Rotates := by
  intro h
  have hfirst : (thirdEnds.state 0).First (thirdEnds.state 0).inService 3 := ⟨by decide, by decide⟩
  have hlast := (h.turns 0 3 (.eoi rfl (by decide) hfirst)).last 0 (by decide)
  revert hlast
  decide

end I8259Run

end Z486.Interrupt
