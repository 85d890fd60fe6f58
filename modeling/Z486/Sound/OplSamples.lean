/-
The samples of the OPL3: each one is the clamped sum of its channels, of what the synthesizer plays in it. The mixer
begins when the last operator is there, and is done long before the next sample.
-/
import Z486.Sound.OplPlays
import Z486.Sound.OplSums

namespace Z486.Sound

open Clocked Opl

/-- The chip behind its register memories. -/
structure OplSampleRun where
  ops : OplOpsRun
  channels : Nat → Bool → BitVec 4 → OplChannel

/-- The turn of an operator in its sample. -/
def OplSlot.turn (x : OplSlot) : Nat := (if x.bank then 18 else 0) + x.op.toNat

theorem oplSlot_turn (n : Nat) {x : OplSlot} (hx : x.op.toNat < 18) : oplSlot (36 * n + x.turn) = x := by
  obtain ⟨bank, op⟩ := x
  have hop : op.toNat < 18 := hx
  have hturn : (36 * n + OplSlot.turn ⟨bank, op⟩) % 36 = (if bank then 18 else 0) + op.toNat := by
    unfold OplSlot.turn
    cases bank with
    | false => show (36 * n + (0 + op.toNat)) % 36 = 0 + op.toNat; omega
    | true => show (36 * n + (18 + op.toNat)) % 36 = 18 + op.toNat; omega
  unfold oplSlot
  rw [hturn]
  clear hturn hx
  revert bank op
  decide

namespace OplSampleRun

variable (r : OplSampleRun)

def mixIn (t : Nat) : OplMixIn where
  sampleClkEn := (r.ops.state t).seq.clkEn
  opsDonePulse := (r.ops.state t).opsDonePulse
  operatorOut := (r.ops.state t).operatorOut
  globals := r.ops.globals t
  channels := r.channels t

def mixer (t : Nat) : OplMixer := run OplMixer.step .powerUp r.mixIn t

/-- The clock in which all operators of sample `n` are there. -/
def ready (n : Nat) : Nat := 494 * (n + 1) + 78

variable {n t : Nat}

theorem mixer_succ (t : Nat) : r.mixer (t + 1) = (r.mixer t).step (r.mixIn t) := rfl

theorem clkEn_iff : (r.mixIn t).sampleClkEn = true ↔ 494 ≤ t ∧ t % 494 = 0 := by
  show (r.ops.state t).seq.clkEn = true ↔ _
  rw [(r.ops.seq_at t).clkEn, decide_eq_true_eq]

theorem opsDone_succ (t : Nat) :
    (r.mixIn (t + 1)).opsDonePulse = true ↔ ∃ v, (r.ops.state t).operatorOut = some (.last, v) := by
  show ((r.ops.state t).tag 6).en && ((r.ops.state t).tag 6).slot == .last ↔ _
  unfold OplOps.operatorOut
  rw [Bool.and_eq_true, beq_iff_eq]
  cases ((r.ops.state t).tag 6).en with
  | false => exact iff_of_false (fun h => Bool.false_ne_true h.1) fun ⟨v, hv⟩ => nomatch hv
  | true =>
    constructor
    · rintro ⟨-, hslot⟩
      rw [hslot]
      exact ⟨_, rfl⟩
    · rintro ⟨v, hv⟩
      exact ⟨rfl, congrArg Prod.fst (Option.some.inj hv)⟩

theorem opsDone_iff : (r.mixIn t).opsDonePulse = true ↔ ∃ n, t = ready n := by
  cases t with
  | zero => exact iff_of_false (fun h => nomatch h) fun ⟨n, hn⟩ => by unfold ready at hn; omega
  | succ t =>
    rw [opsDone_succ]
    constructor
    · rintro ⟨v, hv⟩
      obtain ⟨n, ht, hslot, -⟩ := (r.ops.gives_notes t _ v).1 hv
      have hmod : n % 36 = 35 := oplSlot_inj (hslot.symm.trans (show OplSlot.last = oplSlot 35 by decide))
      refine ⟨n / 36, ?_⟩
      unfold oplTurn at ht
      unfold ready
      omega
    · rintro ⟨n, hn⟩
      refine ⟨r.ops.note (36 * n + 35), (r.ops.gives_notes t _ _).2 ⟨36 * n + 35, ?_, ?_, rfl⟩⟩
      · unfold ready at hn
        unfold oplTurn
        omega
      · exact (oplSlot_turn n (x := .last) (by decide)).symm

/-! ## The outputs of the operators -/

theorem mem_given {x : OplSlot} {v : BitVec 13} (h : (r.ops.state t).operatorOut = some (x, v)) :
    (r.mixer (t + 1)).mem x = v := by
  rw [mixer_succ, OplMixer.step_mem_some _ h]
  exact Function.update_self ..

theorem mem_kept {x : OplSlot} (h : ∀ v, (r.ops.state t).operatorOut ≠ some (x, v)) :
    (r.mixer (t + 1)).mem x = (r.mixer t).mem x := by
  rw [mixer_succ]
  cases hout : (r.ops.state t).operatorOut with
  | none => rw [OplMixer.step_mem_none _ hout]
  | some p =>
    obtain ⟨y, v⟩ := p
    rw [OplMixer.step_mem_some _ hout]
    refine Function.update_of_ne ?_ _ _
    rintro rfl
    exact h v hout

/-- What an operator plays in sample `n`. -/
def heard (n : Nat) (x : OplSlot) : BitVec 13 := r.ops.note (36 * n + x.turn)

/-- While the channels are added up, the memory holds what the operators play in the sample. -/
theorem mem_eq {x : OplSlot} (hx : x.op.toNat < 18) (ht : ready n ≤ t) (hlate : t ≤ ready n + 400) :
    (r.mixer t).mem x = r.heard n x := by
  have hslot := oplSlot_turn n hx
  have hturn : x.turn < 36 := by
    unfold OplSlot.turn
    split <;> omega
  have hfirst : oplTurn (36 * n + x.turn) + 7 ≤ ready n := by
    unfold oplTurn ready
    omega
  have hgo : ∀ u, oplTurn (36 * n + x.turn) + 7 ≤ u → u ≤ ready n + 400 → (r.mixer u).mem x = r.heard n x := by
    intro u hu
    induction u, hu using Nat.le_induction with
    | base =>
      intro _
      exact r.mem_given ((r.ops.gives_notes _ _ _).2 ⟨_, rfl, hslot.symm, rfl⟩)
    | succ u hu ih =>
      intro hle
      rw [← ih (by omega)]
      refine r.mem_kept fun v hv => ?_
      obtain ⟨m, rfl, hm, -⟩ := (r.ops.gives_notes u x v).1 hv
      have hmod := oplSlot_inj (hslot.trans hm)
      unfold oplTurn ready at *
      omega
  exact hgo t (hfirst.trans ht) hlate

/-! ## The channels -/

/-- The channels of two operators, in their order. -/
def pairBank (j : Nat) : Bool := decide (9 ≤ j)

def pairChannel (j : Nat) : BitVec 4 := BitVec.ofNat 4 (j % 9)

def pairOp (j : Nat) : BitVec 5 :=
  BitVec.ofNat 5 (if j % 9 < 3 then j % 9 else if j % 9 < 6 then j % 9 + 3 else j % 9 + 6)

/-- The clock in which a channel of two operators is added. -/
def pairTurn (n j : Nat) : Nat := ready n + 3 * j + 3

/-- What a channel of two operators adds, to the outputs that are given. -/
def pair (one two : OplChannel → Bool) (n j : Nat) : Int :=
  let g := r.ops.globals (pairTurn n j)
  let c := r.channels (pairTurn n j) (pairBank j) (pairChannel j)
  times (add2 g (pairBank j) (pairChannel j) (one c)) (add2 g (pairBank j) (pairChannel j) (two c)) *
    pairOut g.ryt (pairBank j) (pairChannel j) c.cnt (r.heard n ⟨pairBank j, pairOp j⟩).toInt
      (r.heard n ⟨pairBank j, pairOp j + 3⟩).toInt

/-- The channels of four operators, in their order. -/
def quadBank (k : Nat) : Bool := decide (3 ≤ k)

def quadChannel (k : Nat) : BitVec 4 := BitVec.ofNat 4 (k % 3)

/-- The clock in which a channel of four operators is added. -/
def quadTurn (n k : Nat) : Nat := ready n + 54 + 4 * k + 4

/-- The connection of the second half of a channel of four operators. -/
def quadSecond (n k : Nat) : Bool := (r.channels (quadTurn n k - 2) (quadBank k) (quadChannel k + 3)).cnt

/-- The operator that is heard with the last one. -/
def quadOp (n k : Nat) : BitVec 5 :=
  if !(r.channels (quadTurn n k - 1) (quadBank k) (quadChannel k)).cnt && r.quadSecond n k then
    (quadChannel k).setWidth 5 + 3
  else (quadChannel k).setWidth 5

/-- What a channel of four operators adds, to the outputs that are given. -/
def quad (one two : OplChannel → Bool) (n k : Nat) : Int :=
  let g := r.ops.globals (quadTurn n k)
  let c := r.channels (quadTurn n k) (quadBank k) (quadChannel k)
  times (add4 g (quadBank k) (quadChannel k) (one c)) (add4 g (quadBank k) (quadChannel k) (two c)) *
    quadOut c.cnt (r.quadSecond n k) (r.heard n ⟨quadBank k, r.quadOp n k⟩).toInt
      (r.heard n ⟨quadBank k, (quadChannel k).setWidth 5 + 6⟩).toInt
      (r.heard n ⟨quadBank k, (quadChannel k).setWidth 5 + 9⟩).toInt

/-- The sums of the channels so far. -/
def pairs (one two : OplChannel → Bool) (n j : Nat) : Int := ∑ i ∈ Finset.range j, r.pair one two n i

def quads (one two : OplChannel → Bool) (n k : Nat) : Int :=
  r.pairs one two n 18 + ∑ i ∈ Finset.range k, r.quad one two n i

/-! ## Room -/

theorem times_bounds (one two : Bool) : 0 ≤ times one two ∧ times one two ≤ 2 := by
  revert one two
  decide

theorem mul_bounds {m o b : Int} (hm : 0 ≤ m ∧ m ≤ 2) (ho : -b ≤ o ∧ o ≤ b) : -(2 * b) ≤ m * o ∧ m * o ≤ 2 * b := by
  obtain ⟨hlo, hhi⟩ := hm
  have hcases : m = 0 ∨ m = 1 ∨ m = 2 := by omega
  rcases hcases with rfl | rfl | rfl <;> omega

theorem pair_bounds (one two : OplChannel → Bool) (n : Nat) {j : Nat} (hj : j < 18) :
    -(if 6 ≤ j ∧ j < 9 then 32768 else 16384) ≤ r.pair one two n j ∧
      r.pair one two n j ≤ if 6 ≤ j ∧ j < 9 then 32768 else 16384 := by
  have hdrum : ∀ j, j < 18 → (!pairBank j && (pairChannel j == 6 || pairChannel j == 7 || pairChannel j == 8)) =
      decide (6 ≤ j ∧ j < 9) := by decide
  unfold pair
  by_cases hplace : 6 ≤ j ∧ j < 9
  · rw [if_pos hplace]
    exact mul_bounds (times_bounds _ _) (pairOut_bounds _ _ _ _ _ _)
  · rw [if_neg hplace]
    refine mul_bounds (times_bounds _ _) (pairOut_plain ?_ _ _ _ _)
    rw [hdrum j hj, decide_eq_false hplace]

theorem quad_bounds (one two : OplChannel → Bool) (n k : Nat) :
    -24576 ≤ r.quad one two n k ∧ r.quad one two n k ≤ 24576 :=
  mul_bounds (times_bounds _ _) (quadOut_bounds _ _ _ _ _)

theorem pairs_bounds (one two : OplChannel → Bool) (n : Nat) {j : Nat} (hj : j ≤ 18) :
    -(16384 * (j + min (j - 6) 3 : Nat)) ≤ r.pairs one two n j ∧
      r.pairs one two n j ≤ 16384 * (j + min (j - 6) 3 : Nat) := by
  unfold pairs
  induction j with
  | zero => exact ⟨Int.le_refl 0, Int.le_refl 0⟩
  | succ j ih =>
    have hnext := r.pair_bounds one two n (show j < 18 by omega)
    rw [Finset.sum_range_succ]
    obtain ⟨hlo, hhi⟩ := ih (by omega)
    split at hnext <;> omega

theorem quads_bounds (one two : OplChannel → Bool) (n : Nat) {k : Nat} (hk : k ≤ 6) :
    -(344064 + 24576 * k) ≤ r.quads one two n k ∧ r.quads one two n k ≤ 344064 + 24576 * k := by
  unfold quads
  induction k with
  | zero =>
    have := r.pairs_bounds one two n (Nat.le_refl 18)
    rw [Finset.sum_range_zero]
    omega
  | succ k ih =>
    have hnext := r.quad_bounds one two n k
    rw [Finset.sum_range_succ]
    obtain ⟨hlo, hhi⟩ := ih (by omega)
    push_cast
    omega

/-! ## Two operators -/

/-- A channel of two operators is next, and those before it are added. -/
structure AtPair (n j : Nat) (m : OplMixer) : Prop where
  state : m.state = .load2OpSecond0
  bank : m.self.bankNum = pairBank j
  op : m.self.opNum = pairOp j
  channel : m.self.channelNum = pairChannel j
  left : m.self.channelLAcc.toInt = r.pairs OplChannel.cha OplChannel.chc n j
  right : m.self.channelRAcc.toInt = r.pairs OplChannel.chb OplChannel.chd n j

/-- A channel of four operators is next. -/
structure AtQuad (n k : Nat) (m : OplMixer) : Prop where
  state : m.state = .load4OpThird0
  bank : m.self.bankNum = quadBank k
  channel : m.self.channelNum = quadChannel k
  left : m.self.channelLAcc.toInt = r.quads OplChannel.cha OplChannel.chc n k
  right : m.self.channelRAcc.toInt = r.quads OplChannel.chb OplChannel.chd n k

theorem no_pulse (ht : ready n ≤ t) (hlate : t ≤ ready n + 400) : (r.mixIn t).sampleClkEn = false := by
  rw [Bool.eq_false_iff]
  intro hpulse
  have := r.clkEn_iff.1 hpulse
  unfold ready at *
  omega

theorem state_goes (ht : ready n ≤ t) (hlate : t ≤ ready n + 400) :
    (r.mixer (t + 1)).state = (r.mixer t).nextState (r.mixIn t).opsDonePulse := by
  rw [mixer_succ, OplMixer.step, r.no_pulse ht hlate]
  rfl

theorem self_goes (ht : ready n ≤ t) (hlate : t ≤ ready n + 400) :
    (r.mixer (t + 1)).self = (r.mixer t).nextSelf (r.mixIn t) := by
  rw [mixer_succ, OplMixer.step, r.no_pulse ht hlate]
  rfl

theorem out_read (ht : ready n ≤ t) (hlate : t ≤ ready n + 400) {op : BitVec 5}
    (hrd : (r.mixer t).opMemRd (r.mixIn t) = some op) (hop : op.toNat < 18) :
    (r.mixer (t + 1)).operatorMemOut = r.heard n ⟨(r.mixer t).self.bankNum, op⟩ := by
  rw [← r.mem_eq hop ht hlate, mixer_succ, OplMixer.step, hrd]
  exact Function.update_self ..

theorem next2_regs (s : OplMixSelf) :
    s.next2.bankNum = (if s.channelNum = 9 - 1 then !s.bankNum else s.bankNum) ∧
      s.next2.opNum = (if s.channelNum = 9 - 1 then 0
        else if s.channelNum = 2 then 6 else if s.channelNum = 5 then 12 else s.opNum + 1) ∧
      s.next2.channelNum = (if s.channelNum = 9 - 1 then 0 else s.channelNum + 1) ∧
      s.next2.channelLAcc = s.channelLAcc ∧ s.next2.channelRAcc = s.channelRAcc := by
  unfold OplMixSelf.next2
  by_cases hlast : s.channelNum = 9 - 1
  · simp only [if_pos hlast, and_self]
  · simp only [if_neg hlast, and_self]

/-- The order of the channels of two operators. -/
theorem pair_order {j : Nat} (hj : j < 18) :
    ((pairChannel j = 9 - 1 ∧ pairBank j = true) ↔ j = 17) ∧
    (if pairChannel j = 9 - 1 then !pairBank j else pairBank j) = (if j = 17 then false else pairBank (j + 1)) ∧
    (if pairChannel j = 9 - 1 then 0
      else if pairChannel j = 2 then 6 else if pairChannel j = 5 then 12 else pairOp j + 1) =
      (if j = 17 then 0 else pairOp (j + 1)) ∧
    (if pairChannel j = 9 - 1 then 0 else pairChannel j + 1) = (if j = 17 then 0 else pairChannel (j + 1)) := by
  revert j
  decide

theorem pairOp_lt {j : Nat} (hj : j < 18) : (pairOp j).toNat < 15 ∧ (pairOp j + 3).toNat < 18 := by
  revert j
  decide

/-- A clock in which an operator is read. -/
theorem reads (ht : ready n ≤ t) (hlate : t ≤ ready n + 400) {state : OplMixState} {self : OplMixSelf} {op : BitVec 5}
    (hstate : (r.mixer t).nextState (r.mixIn t).opsDonePulse = state) (hself : (r.mixer t).nextSelf (r.mixIn t) = self)
    (hrd : (r.mixer t).opMemRd (r.mixIn t) = some op) (hop : op.toNat < 18) :
    (r.mixer (t + 1)).state = state ∧ (r.mixer (t + 1)).self = self ∧
      (r.mixer (t + 1)).operatorMemOut = r.heard n ⟨(r.mixer t).self.bankNum, op⟩ :=
  ⟨(r.state_goes ht hlate).trans hstate, (r.self_goes ht hlate).trans hself, r.out_read ht hlate hrd hop⟩

/-- Both operators of a channel are there when it is added. -/
theorem pair_loads {j : Nat} (hj : j < 18) (h : r.AtPair n j (r.mixer (ready n + 3 * j + 1))) :
    (r.mixer (ready n + 3 * j + 2)).state = .load2OpSecond1 ∧ (r.mixer (pairTurn n j)).state = .load2OpFirst ∧
      (r.mixer (pairTurn n j)).self = { (r.mixer (ready n + 3 * j + 1)).self with
        operatorOutSecond := r.heard n ⟨pairBank j, pairOp j + 3⟩ } ∧
      (r.mixer (pairTurn n j)).operatorMemOut = r.heard n ⟨pairBank j, pairOp j⟩ := by
  have hop := pairOp_lt hj
  rw [show pairTurn n j = ready n + 3 * j + 1 + 1 + 1 from rfl,
    show ready n + 3 * j + 2 = ready n + 3 * j + 1 + 1 from rfl]
  generalize ht : ready n + 3 * j + 1 = t at h ⊢
  -- the second operator is asked for
  obtain ⟨hstate, hself, hout⟩ := @reads r n t (by omega) (by omega) .load2OpSecond1 (r.mixer t).self (pairOp j + 3)
    (by unfold OplMixer.nextState; rw [h.state]) (by unfold OplMixer.nextSelf; rw [h.state])
    (by unfold OplMixer.opMemRd; rw [h.state, h.op]) hop.2
  -- it comes, and the first is asked for
  obtain ⟨hstate', hself', hout'⟩ := @reads r n (t + 1) (by omega) (by omega) .load2OpFirst
    { (r.mixer (t + 1)).self with operatorOutSecond := (r.mixer (t + 1)).operatorMemOut } (pairOp j)
    (by unfold OplMixer.nextState; rw [hstate]) (by unfold OplMixer.nextSelf; rw [hstate])
    (by unfold OplMixer.opMemRd; rw [hstate, hself, h.op]) (by omega)
  refine ⟨hstate, hstate', ?_, ?_⟩
  · rw [hself', hout, hself, h.bank]
  · rw [hout', hself, h.bank]

/-- The sums do not wrap when a channel of two operators is added. -/
theorem pair_added {j : Nat} (hj : j < 18) {m : OplMixSelf} {out : BitVec 13} (hbank : m.bankNum = pairBank j)
    (hchannel : m.channelNum = pairChannel j) (hsecond : m.operatorOutSecond = r.heard n ⟨pairBank j, pairOp j + 3⟩)
    (hfirst : out = r.heard n ⟨pairBank j, pairOp j⟩) {acc : BitVec 20} (one two : OplChannel → Bool)
    (hacc : acc.toInt = r.pairs one two n j) :
    let g := r.ops.globals (pairTurn n j)
    let c := r.channels (pairTurn n j) (pairBank j) (pairChannel j)
    (accumulate acc (add2 g m.bankNum m.channelNum (one c)) (add2 g m.bankNum m.channelNum (two c))
      (channelOut2 g.ryt m.bankNum m.channelNum c.cnt out m.operatorOutSecond)).toInt = r.pairs one two n (j + 1) := by
  intro g c
  have hbounds := r.pairs_bounds one two n (show j + 1 ≤ 18 by omega)
  have hsum : r.pairs one two n (j + 1) = r.pairs one two n j + r.pair one two n j := Finset.sum_range_succ _ _
  rw [hsum] at hbounds ⊢
  rw [hbank, hchannel, hsecond, hfirst]
  refine accumulate_toInt _ _ hacc (channelOut2_toInt _ _ _ _ _ _) ?_ ?_
  · refine le_trans ?_ hbounds.1
    omega
  · refine lt_of_le_of_lt hbounds.2 ?_
    omega

theorem pair_adds {j : Nat} (hj : j < 18) (h : r.AtPair n j (r.mixer (ready n + 3 * j + 1))) :
    (r.mixer (ready n + 3 * j + 4)).state = (if j = 17 then .load4OpThird0 else .load2OpSecond0) ∧
      (r.mixer (ready n + 3 * j + 4)).self.bankNum = (if j = 17 then false else pairBank (j + 1)) ∧
      (r.mixer (ready n + 3 * j + 4)).self.opNum = (if j = 17 then 0 else pairOp (j + 1)) ∧
      (r.mixer (ready n + 3 * j + 4)).self.channelNum = (if j = 17 then 0 else pairChannel (j + 1)) ∧
      (r.mixer (ready n + 3 * j + 4)).self.channelLAcc.toInt = r.pairs OplChannel.cha OplChannel.chc n (j + 1) ∧
      (r.mixer (ready n + 3 * j + 4)).self.channelRAcc.toInt = r.pairs OplChannel.chb OplChannel.chd n (j + 1) := by
  obtain ⟨-, hstate, hself, hout⟩ := r.pair_loads hj h
  have hturn : ready n + 3 * j + 4 = pairTurn n j + 1 := rfl
  have hready : ready n ≤ pairTurn n j := by
    unfold pairTurn
    omega
  have hlate : pairTurn n j ≤ ready n + 400 := by
    unfold pairTurn
    omega
  have hstate' := r.state_goes hready hlate
  have hself' := (r.self_goes hready hlate).trans (OplMixer.nextSelf_load2OpFirst hstate)
  unfold OplMixer.nextState at hstate'
  rw [hstate] at hstate'
  generalize (r.mixer (pairTurn n j)).self = m at hstate' hself' hself
  have hbank : m.bankNum = pairBank j := by rw [hself]; exact h.bank
  have hop : m.opNum = pairOp j := by rw [hself]; exact h.op
  have hchannel : m.channelNum = pairChannel j := by rw [hself]; exact h.channel
  have hsecond : m.operatorOutSecond = r.heard n ⟨pairBank j, pairOp j + 3⟩ := by rw [hself]
  have hleft : m.channelLAcc.toInt = r.pairs OplChannel.cha OplChannel.chc n j := by rw [hself]; exact h.left
  have hright : m.channelRAcc.toInt = r.pairs OplChannel.chb OplChannel.chd n j := by rw [hself]; exact h.right
  obtain ⟨hbankNext, hopNext, hchannelNext, hleftNext, hrightNext⟩ := next2_regs
    (m.accumulate2 (r.mixIn (pairTurn n j)).globals ((r.mixIn (pairTurn n j)).channels m.bankNum m.channelNum)
      (r.mixer (pairTurn n j)).operatorMemOut)
  obtain ⟨hlast, hbankOrder, hopOrder, hchannelOrder⟩ := pair_order hj
  rw [hturn, hstate', hself', hbankNext, hopNext, hchannelNext, hleftNext, hrightNext]
  refine ⟨?_, ?_, ?_, ?_, ?_, ?_⟩
  · simp only [hbank, hchannel, hlast]
  · rw [← hbankOrder, ← hbank, ← hchannel]
    rfl
  · rw [← hopOrder, ← hop, ← hchannel]
    rfl
  · rw [← hchannelOrder, ← hchannel]
    rfl
  · have hadded := r.pair_added hj hbank hchannel hsecond hout OplChannel.cha OplChannel.chc hleft
    rw [← hbank, ← hchannel] at hadded
    exact hadded
  · have hadded := r.pair_added hj hbank hchannel hsecond hout OplChannel.chb OplChannel.chd hright
    rw [← hbank, ← hchannel] at hadded
    exact hadded

/-! ## Four operators -/

theorem next4_regs (s : OplMixSelf) :
    s.next4.bankNum = (if s.channelNum = 2 then true else s.bankNum) ∧
      s.next4.channelNum = (if s.channelNum = 2 then if s.bankNum = true then s.channelNum else 0
        else s.channelNum + 1) ∧
      s.next4.channelLAcc = s.channelLAcc ∧ s.next4.channelRAcc = s.channelRAcc := by
  unfold OplMixSelf.next4
  by_cases hlast : s.channelNum = 2
  · by_cases hbank : s.bankNum = true
    · simp only [if_pos hlast, if_pos hbank, and_true]
      exact hbank
    · simp only [if_pos hlast, if_neg hbank, and_self]
  · simp only [if_neg hlast, and_self]

/-- The order of the channels of four operators. -/
theorem quad_order {k : Nat} (hk : k < 6) :
    ((quadChannel k = 2 ∧ quadBank k = true) ↔ k = 5) ∧
    (if quadChannel k = 2 then true else quadBank k) = (if k = 5 then true else quadBank (k + 1)) ∧
    (if quadChannel k = 2 then if quadBank k = true then quadChannel k else 0 else quadChannel k + 1) =
      (if k = 5 then 2 else quadChannel (k + 1)) := by
  revert k
  decide

theorem quadChannel_lt (k : Nat) : ((quadChannel k).setWidth 5 + 9).toNat < 18 ∧
    ((quadChannel k).setWidth 5 + 6).toNat < 18 ∧ ((quadChannel k).setWidth 5 + 3).toNat < 18 ∧
    ((quadChannel k).setWidth 5).toNat < 18 := by
  have hlt := Nat.mod_lt k (show 0 < 3 by decide)
  unfold quadChannel
  generalize k % 3 = c at hlt
  revert c
  decide

theorem quadOp_lt (n k : Nat) : (r.quadOp n k).toNat < 18 := by
  have hlt := quadChannel_lt k
  unfold quadOp
  split
  · exact hlt.2.2.1
  · exact hlt.2.2.2

/-- The operators of a channel that can be heard are there when it is added. -/
theorem quad_loads {k : Nat} (hk : k < 6) (h : r.AtQuad n k (r.mixer (ready n + 54 + 4 * k + 1))) :
    (r.mixer (ready n + 54 + 4 * k + 2)).state = .load4OpThird1 ∧
      (r.mixer (ready n + 54 + 4 * k + 3)).state = .load4OpSecond ∧ (r.mixer (quadTurn n k)).state = .load4OpFirst ∧
      (r.mixer (quadTurn n k)).self = { (r.mixer (ready n + 54 + 4 * k + 1)).self with
        cntSecond := r.quadSecond n k
        operatorOutThird := r.heard n ⟨quadBank k, (quadChannel k).setWidth 5 + 9⟩
        operatorOutSecond := r.heard n ⟨quadBank k, (quadChannel k).setWidth 5 + 6⟩ } ∧
      (r.mixer (quadTurn n k)).operatorMemOut = r.heard n ⟨quadBank k, r.quadOp n k⟩ := by
  have hop := quadChannel_lt k
  have hopRead := r.quadOp_lt n k
  have hsecondTurn : quadTurn n k - 2 = ready n + 54 + 4 * k + 1 + 1 := rfl
  have hreadTurn : quadTurn n k - 1 = ready n + 54 + 4 * k + 1 + 1 + 1 := rfl
  rw [show quadTurn n k = ready n + 54 + 4 * k + 1 + 1 + 1 + 1 from rfl,
    show ready n + 54 + 4 * k + 2 = ready n + 54 + 4 * k + 1 + 1 from rfl,
    show ready n + 54 + 4 * k + 3 = ready n + 54 + 4 * k + 1 + 1 + 1 from rfl]
  generalize ht : ready n + 54 + 4 * k + 1 = t at h hsecondTurn hreadTurn ⊢
  -- the last operator is asked for
  obtain ⟨hstate, hself, hout⟩ := @reads r n t (by omega) (by omega) .load4OpThird1 (r.mixer t).self
    ((quadChannel k).setWidth 5 + 9)
    (by unfold OplMixer.nextState; rw [h.state]) (by unfold OplMixer.nextSelf; rw [h.state])
    (by unfold OplMixer.opMemRd; rw [h.state, h.channel]) hop.1
  -- it comes, and the third is asked for
  obtain ⟨hstate', hself', hout'⟩ := @reads r n (t + 1) (by omega) (by omega) .load4OpSecond
    { (r.mixer (t + 1)).self with
      operatorOutThird := (r.mixer (t + 1)).operatorMemOut
      cntSecond := (r.channels (t + 1) (r.mixer (t + 1)).self.bankNum ((r.mixer (t + 1)).self.channelNum + 3)).cnt }
    ((quadChannel k).setWidth 5 + 6)
    (by unfold OplMixer.nextState; rw [hstate]) (OplMixer.nextSelf_load4OpThird1 hstate)
    (by unfold OplMixer.opMemRd; rw [hstate, hself, h.channel]) hop.2.1
  rw [hout, hself, h.bank, h.channel] at hself'
  rw [hself, h.bank] at hout'
  -- the third comes, and the one that is heard with the last one is asked for
  have hread : (r.mixer (t + 1 + 1)).opMemRd (r.mixIn (t + 1 + 1)) = some (r.quadOp n k) := by
    unfold OplMixer.opMemRd OplMixer.channel quadOp quadSecond
    rw [hstate', hself', hsecondTurn, hreadTurn]
    simp only [h.bank, h.channel]
    rfl
  obtain ⟨hstate'', hself'', hout''⟩ := @reads r n (t + 1 + 1) (by omega) (by omega) .load4OpFirst
    { (r.mixer (t + 1 + 1)).self with operatorOutSecond := (r.mixer (t + 1 + 1)).operatorMemOut } (r.quadOp n k)
    (by unfold OplMixer.nextState; rw [hstate']) (by unfold OplMixer.nextSelf; rw [hstate']) hread hopRead
  refine ⟨hstate, hstate', hstate'', ?_, ?_⟩
  · rw [hself'', hout', hself', quadSecond, hsecondTurn]
  · rw [hout'', hself']
    exact congrArg (fun bank => r.heard n ⟨bank, r.quadOp n k⟩) h.bank

/-- The sums do not wrap when a channel of four operators is added. -/
theorem quad_added {k : Nat} (hk : k < 6) {m : OplMixSelf} {out : BitVec 13} (hbank : m.bankNum = quadBank k)
    (hchannel : m.channelNum = quadChannel k) (hcnt : m.cntSecond = r.quadSecond n k)
    (hsecond : m.operatorOutSecond = r.heard n ⟨quadBank k, (quadChannel k).setWidth 5 + 6⟩)
    (hthird : m.operatorOutThird = r.heard n ⟨quadBank k, (quadChannel k).setWidth 5 + 9⟩)
    (hread : out = r.heard n ⟨quadBank k, r.quadOp n k⟩) {acc : BitVec 20} (one two : OplChannel → Bool)
    (hacc : acc.toInt = r.quads one two n k) :
    let g := r.ops.globals (quadTurn n k)
    let c := r.channels (quadTurn n k) (quadBank k) (quadChannel k)
    (accumulate acc (add4 g m.bankNum m.channelNum (one c)) (add4 g m.bankNum m.channelNum (two c))
      (channelOut4 c.cnt m.cntSecond out m.operatorOutSecond m.operatorOutThird)).toInt =
      r.quads one two n (k + 1) := by
  intro g c
  have hbounds := r.quads_bounds one two n (show k + 1 ≤ 6 by omega)
  have hsum : r.quads one two n (k + 1) = r.quads one two n k + r.quad one two n k := by
    unfold quads
    rw [Finset.sum_range_succ, Int.add_assoc]
  rw [hsum] at hbounds ⊢
  rw [hbank, hchannel, hcnt, hsecond, hthird, hread]
  refine accumulate_toInt _ _ hacc (channelOut4_toInt _ _ _ _ _) ?_ ?_
  · refine le_trans ?_ hbounds.1
    omega
  · refine lt_of_le_of_lt hbounds.2 ?_
    omega

theorem quad_adds {k : Nat} (hk : k < 6) (h : r.AtQuad n k (r.mixer (ready n + 54 + 4 * k + 1))) :
    (r.mixer (ready n + 54 + 4 * k + 5)).state = (if k = 5 then .done else .load4OpThird0) ∧
      (r.mixer (ready n + 54 + 4 * k + 5)).self.bankNum = (if k = 5 then true else quadBank (k + 1)) ∧
      (r.mixer (ready n + 54 + 4 * k + 5)).self.channelNum = (if k = 5 then 2 else quadChannel (k + 1)) ∧
      (r.mixer (ready n + 54 + 4 * k + 5)).self.channelLAcc.toInt =
        r.quads OplChannel.cha OplChannel.chc n (k + 1) ∧
      (r.mixer (ready n + 54 + 4 * k + 5)).self.channelRAcc.toInt =
        r.quads OplChannel.chb OplChannel.chd n (k + 1) := by
  obtain ⟨-, -, hstate, hself, hout⟩ := r.quad_loads hk h
  have hturn : ready n + 54 + 4 * k + 5 = quadTurn n k + 1 := rfl
  have hready : ready n ≤ quadTurn n k := by
    unfold quadTurn
    omega
  have hlate : quadTurn n k ≤ ready n + 400 := by
    unfold quadTurn
    omega
  have hstate' := r.state_goes hready hlate
  have hself' := (r.self_goes hready hlate).trans (OplMixer.nextSelf_load4OpFirst hstate)
  unfold OplMixer.nextState at hstate'
  rw [hstate] at hstate'
  generalize (r.mixer (quadTurn n k)).self = m at hstate' hself' hself
  have hbank : m.bankNum = quadBank k := by rw [hself]; exact h.bank
  have hchannel : m.channelNum = quadChannel k := by rw [hself]; exact h.channel
  have hcnt : m.cntSecond = r.quadSecond n k := by rw [hself]
  have hsecond : m.operatorOutSecond = r.heard n ⟨quadBank k, (quadChannel k).setWidth 5 + 6⟩ := by rw [hself]
  have hthird : m.operatorOutThird = r.heard n ⟨quadBank k, (quadChannel k).setWidth 5 + 9⟩ := by rw [hself]
  have hleft : m.channelLAcc.toInt = r.quads OplChannel.cha OplChannel.chc n k := by rw [hself]; exact h.left
  have hright : m.channelRAcc.toInt = r.quads OplChannel.chb OplChannel.chd n k := by rw [hself]; exact h.right
  obtain ⟨hbankNext, hchannelNext, hleftNext, hrightNext⟩ := next4_regs
    (m.accumulate4 (r.mixIn (quadTurn n k)).globals ((r.mixIn (quadTurn n k)).channels m.bankNum m.channelNum)
      (r.mixer (quadTurn n k)).operatorMemOut)
  obtain ⟨hlast, hbankOrder, hchannelOrder⟩ := quad_order hk
  rw [hturn, hstate', hself', hbankNext, hchannelNext, hleftNext, hrightNext]
  refine ⟨?_, ?_, ?_, ?_, ?_⟩
  · simp only [hbank, hchannel, hlast]
  · rw [← hbankOrder, ← hbank, ← hchannel]
    rfl
  · rw [← hchannelOrder, ← hbank, ← hchannel]
    rfl
  · have hadded := r.quad_added hk hbank hchannel hcnt hsecond hthird hout OplChannel.cha OplChannel.chc hleft
    rw [← hbank, ← hchannel] at hadded
    exact hadded
  · have hadded := r.quad_added hk hbank hchannel hcnt hsecond hthird hout OplChannel.chb OplChannel.chd hright
    rw [← hbank, ← hchannel] at hadded
    exact hadded

/-! ## A sample -/

/-- Nothing is under way. -/
structure Idle (m : OplMixer) : Prop where
  state : m.state = .idle
  self : m.self = .reset

theorem idle_next (h : Idle (r.mixer t)) (hops : ∀ n, t ≠ ready n) : Idle (r.mixer (t + 1)) := by
  have hdone : (r.mixIn t).opsDonePulse = false := by
    rw [Bool.eq_false_iff]
    intro hdone
    obtain ⟨n, hn⟩ := r.opsDone_iff.1 hdone
    exact hops n hn
  constructor
  · show (if _ then OplMixState.idle else (r.mixer t).nextState (r.mixIn t).opsDonePulse) = _
    unfold OplMixer.nextState
    rw [h.state, hdone]
    exact ite_self _
  · show (if _ then OplMixSelf.reset else (r.mixer t).nextSelf (r.mixIn t)) = _
    unfold OplMixer.nextSelf
    rw [h.state, h.self]
    exact ite_self _

theorem idle_from {a : Nat} (h : Idle (r.mixer a)) {b : Nat} (hab : a ≤ b)
    (hops : ∀ t, a ≤ t → t < b → ∀ n, t ≠ ready n) : Idle (r.mixer b) := by
  induction b, hab using Nat.le_induction with
  | base => exact h
  | succ b hb ih => exact r.idle_next (ih fun t ht hlt => hops t ht (by omega)) (hops b hb (by omega))

theorem pairs_begin (h : Idle (r.mixer (ready n))) : r.AtPair n 0 (r.mixer (ready n + 3 * 0 + 1)) := by
  have hstate := @state_goes r n (ready n) (by omega) (by omega)
  have hself := @self_goes r n (ready n) (by omega) (by omega)
  rw [r.opsDone_iff.2 ⟨n, rfl⟩] at hstate
  unfold OplMixer.nextState at hstate
  unfold OplMixer.nextSelf at hself
  rw [h.state] at hstate hself
  replace hself : (r.mixer (ready n + 3 * 0 + 1)).self = .reset := hself.trans h.self
  refine ⟨hstate, ?_, ?_, ?_, ?_, ?_⟩ <;> rw [hself] <;> rfl

theorem pairs_go (h : Idle (r.mixer (ready n))) {j : Nat} (hj : j < 18) :
    r.AtPair n j (r.mixer (ready n + 3 * j + 1)) := by
  induction j with
  | zero => exact r.pairs_begin h
  | succ j ih =>
    have hnext := r.pair_adds (by omega) (ih (by omega))
    simp only [if_neg (show j ≠ 17 by omega)] at hnext
    obtain ⟨hstate, hbank, hop, hchannel, hleft, hright⟩ := hnext
    exact ⟨hstate, hbank, hop, hchannel, hleft, hright⟩

theorem quads_go (h : Idle (r.mixer (ready n))) {k : Nat} (hk : k < 6) :
    r.AtQuad n k (r.mixer (ready n + 54 + 4 * k + 1)) := by
  induction k with
  | zero =>
    have hnext := r.pair_adds (show 17 < 18 by decide) (r.pairs_go h (by decide))
    simp only [if_pos] at hnext
    obtain ⟨hstate, hbank, -, hchannel, hleft, hright⟩ := hnext
    exact ⟨hstate, hbank, hchannel, hleft.trans (Int.add_zero _).symm, hright.trans (Int.add_zero _).symm⟩
  | succ k ih =>
    have hnext := r.quad_adds (by omega) (ih (by omega))
    simp only [if_neg (show k ≠ 5 by omega)] at hnext
    obtain ⟨hstate, hbank, hchannel, hleft, hright⟩ := hnext
    exact ⟨hstate, hbank, hchannel, hleft, hright⟩

/-- The sums of all channels. -/
theorem sums_done (h : Idle (r.mixer (ready n))) : (r.mixer (ready n + 79)).state = .done ∧
    (r.mixer (ready n + 79)).self.channelLAcc.toInt = r.quads OplChannel.cha OplChannel.chc n 6 ∧
    (r.mixer (ready n + 79)).self.channelRAcc.toInt = r.quads OplChannel.chb OplChannel.chd n 6 := by
  obtain ⟨hstate, -, -, hleft, hright⟩ := r.quad_adds (show 5 < 6 by decide) (r.quads_go h (by decide))
  exact ⟨hstate, hleft, hright⟩

/-- The mixer is free again after a sample. -/
theorem idle_after (h : Idle (r.mixer (ready n))) : Idle (r.mixer (ready n + 80)) := by
  obtain ⟨hdone, -, -⟩ := r.sums_done h
  have hstate := @state_goes r n (ready n + 79) (by omega) (by omega)
  have hself := @self_goes r n (ready n + 79) (by omega) (by omega)
  unfold OplMixer.nextState at hstate
  unfold OplMixer.nextSelf at hself
  rw [hdone] at hstate hself
  exact ⟨hstate, hself⟩

theorem idle_ready (n : Nat) : Idle (r.mixer (ready n)) := by
  induction n with
  | zero =>
    refine r.idle_from (a := 0) ⟨rfl, rfl⟩ (Nat.zero_le _) fun t _ ht m => ?_
    unfold ready at *
    omega
  | succ n ih =>
    refine r.idle_from (r.idle_after ih) ?_ fun t hlo hhi m => ?_
    · unfold ready
      omega
    · unfold ready at *
      omega

/-- Between two samples nothing is under way. -/
theorem idle_between (hbusy : ∀ n, ¬(ready n < t ∧ t < ready n + 80)) : Idle (r.mixer t) := by
  by_cases hfirst : t ≤ ready 0
  · refine r.idle_from (a := 0) ⟨rfl, rfl⟩ (Nat.zero_le t) fun u _ hu m => ?_
    unfold ready at *
    omega
  · have hnot := hbusy ((t - 573) / 494)
    generalize hn : (t - 573) / 494 = n at hnot
    refine r.idle_from (r.idle_after (r.idle_ready n)) ?_ fun u hlo hu m => ?_
    · unfold ready at *
      omega
    · unfold ready at *
      omega

theorem state_pair {j : Nat} (hj : j < 18) {e : Nat} (he : e < 3) :
    (r.mixer (ready n + 3 * j + 1 + e)).state ≠ .done := by
  have hat := r.pairs_go (r.idle_ready n) hj
  obtain ⟨hsecond, hfirst, -, -⟩ := r.pair_loads hj hat
  have hcases : e = 0 ∨ e = 1 ∨ e = 2 := by omega
  rcases hcases with rfl | rfl | rfl
  · exact fun h => nomatch hat.state.symm.trans h
  · exact fun h => nomatch hsecond.symm.trans h
  · exact fun h => nomatch hfirst.symm.trans h

theorem state_quad {k : Nat} (hk : k < 6) {e : Nat} (he : e < 4) :
    (r.mixer (ready n + 54 + 4 * k + 1 + e)).state ≠ .done := by
  have hat := r.quads_go (r.idle_ready n) hk
  obtain ⟨hthird, hsecond, hfirst, -, -⟩ := r.quad_loads hk hat
  have hcases : e = 0 ∨ e = 1 ∨ e = 2 ∨ e = 3 := by omega
  rcases hcases with rfl | rfl | rfl | rfl
  · exact fun h => nomatch hat.state.symm.trans h
  · exact fun h => nomatch hthird.symm.trans h
  · exact fun h => nomatch hsecond.symm.trans h
  · exact fun h => nomatch hfirst.symm.trans h

theorem state_busy (hlo : ready n < t) (hhi : t < ready n + 79) : (r.mixer t).state ≠ .done := by
  by_cases hpairs : t ≤ ready n + 54
  · obtain ⟨j, e, hj, he, rfl⟩ : ∃ j e, j < 18 ∧ e < 3 ∧ t = ready n + 3 * j + 1 + e :=
      ⟨(t - ready n - 1) / 3, (t - ready n - 1) % 3, by omega, by omega, by omega⟩
    exact r.state_pair hj he
  · obtain ⟨k, e, hk, he, rfl⟩ : ∃ k e, k < 6 ∧ e < 4 ∧ t = ready n + 54 + 4 * k + 1 + e :=
      ⟨(t - ready n - 55) / 4, (t - ready n - 55) % 4, by omega, by omega, by omega⟩
    exact r.state_quad hk he

/-- The mixer is done once a sample. -/
theorem done_iff : (r.mixer t).state = .done ↔ ∃ n, t = ready n + 79 := by
  constructor
  · intro hdone
    by_cases hbusy : ∃ n, ready n < t ∧ t < ready n + 80
    · obtain ⟨n, hlo, hhi⟩ := hbusy
      by_cases hlast : t < ready n + 79
      · exact absurd hdone (r.state_busy hlo hlast)
      · exact ⟨n, by omega⟩
    · exact nomatch (r.idle_between (not_exists.1 hbusy)).state.symm.trans hdone
  · rintro ⟨n, rfl⟩
    exact (r.sums_done (r.idle_ready n)).1

/-- The left and the right sample. -/
def left (n : Nat) : Int := clamp (r.quads OplChannel.cha OplChannel.chc n 6)

def right (n : Nat) : Int := clamp (r.quads OplChannel.chb OplChannel.chd n 6)

theorem channel_done (h : (r.mixer t).state = .done) :
    (r.mixer (t + 1)).channelL = clampChannel (r.mixer t).self.channelLAcc ∧
      (r.mixer (t + 1)).channelR = clampChannel (r.mixer t).self.channelRAcc :=
  ⟨if_pos h, if_pos h⟩

theorem channel_kept (h : (r.mixer t).state ≠ .done) :
    (r.mixer (t + 1)).channelL = (r.mixer t).channelL ∧ (r.mixer (t + 1)).channelR = (r.mixer t).channelR :=
  ⟨if_neg h, if_neg h⟩

theorem channel_holds {t : Nat} (hlo : ready n + 80 ≤ t) (hhi : t ≤ ready (n + 1) + 79) :
    (r.mixer t).channelL.toInt = r.left n ∧ (r.mixer t).channelR.toInt = r.right n := by
  obtain ⟨hdone, hleft, hright⟩ := r.sums_done (r.idle_ready n)
  induction t, hlo using Nat.le_induction with
  | base =>
    have hnext := r.channel_done hdone
    rw [hnext.1, hnext.2]
    exact ⟨clampChannel_toInt hleft, clampChannel_toInt hright⟩
  | succ t ht ih =>
    have hkept := r.channel_kept (t := t) fun h => by
      obtain ⟨m, hm⟩ := r.done_iff.1 h
      unfold ready at *
      omega
    rw [hkept.1, hkept.2]
    exact ih (by omega)

/-- Sample `n` is put out until the next one is, and it is marked in its first clock. -/
theorem gives_samples : (∀ n (d : Fin 494), (r.mixer (ready n + 81 + d)).sampleL.toInt = r.left n ∧
      (r.mixer (ready n + 81 + d)).sampleR.toInt = r.right n) ∧
    ∀ t, (r.mixer t).sampleValid = true ↔ ∃ n, t = ready n + 81 := by
  constructor
  · intro n d
    have hd := d.isLt
    rw [show ready n + 81 + d = ready n + 80 + d + 1 by omega, mixer_succ]
    refine r.channel_holds (by omega) ?_
    unfold ready
    omega
  · intro t
    match t with
    | 0 => exact iff_of_false (fun h => nomatch h) fun ⟨n, hn⟩ => by omega
    | 1 => exact iff_of_false (fun h => nomatch h) fun ⟨n, hn⟩ => by omega
    | t + 2 =>
      have hvalid : (r.mixer (t + 2)).sampleValid = ((r.mixer t).state == .done) := rfl
      rw [hvalid, beq_iff_eq, done_iff]
      exact exists_congr fun n => by omega

end OplSampleRun

end Z486.Sound
