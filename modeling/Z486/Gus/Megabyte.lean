/-
The sample memory as a megabyte of bytes, over whole runs: every request is answered once, reads give the bytes written
last, and a write changes its own bytes and no others in all of DDR3.
-/
import Z486.Clocked.Bits
import Z486.Gus.SampleRuns

namespace Z486.Gus

open Clocked Memory Ddr3

/-! ## Requests -/

/-- Requests of the GF1 from the module's reset on: each stays as it is until it is answered, and the port does not
refuse a transfer, a command or the word of a read for ever. -/
structure Requests where
  start : SampleMemory
  inp : Nat → SampleIn
  idle : start.chip.state = .idle
  noAck : start.chip.memAck = false
  noTag : start.chip.tagValid = false
  noPending : start.pending = none
  noReset : ∀ t, (inp t).reset = false
  held : ∀ t, (inp t).req.memReq = true → (run SampleMemory.step start inp t).chip.memAck = false →
    (inp (t + 1)).req = (inp t).req
  starts : ∀ t, ∃ u, t ≤ u ∧ (inp u).startOk = true
  accepts : ∀ t, ∃ u, t ≤ u ∧ (inp u).busy = false
  answers : ∀ t, ∃ u, t ≤ u ∧ (inp u).answers = true

namespace Requests

variable (r : Requests)

def state (t : Nat) : SampleMemory := run SampleMemory.step r.start r.inp t

def req (t : Nat) : GusReq := (r.inp t).req

def ack (t : Nat) : Bool := (r.state t).chip.memAck

/-- A request waits for its answer. -/
def Asks (t : Nat) : Prop := (r.req t).memReq = true ∧ r.ack t = false

theorem state_succ (t : Nat) : r.state (t + 1) = (r.state t).step (r.inp t) := rfl

theorem coherent : ∀ t, Coherent (r.state t) (r.req t)
  | 0 => by
    have hno : ¬ r.start.chip.state ≠ .idle := fun h => h r.idle
    refine ⟨fun _ => r.idle, fun h => absurd h hno, fun h => absurd h hno, fun h => absurd h hno, ?_, fun h => ?_⟩
    · show r.start.pending = if r.start.chip.state = .rdw then _ else none
      rw [r.noPending, r.idle]; rfl
    · exact absurd (r.noTag.symm.trans h) Bool.false_ne_true
  | t + 1 => ((coherent t).step (r.noReset t) (r.held t)).2

theorem edge (t : Nat) : Edge (r.state t) (r.req t) (r.state (t + 1)) :=
  ((r.coherent t).step (r.noReset t) (r.held t)).1

/-! ## Every request is answered -/

/-- What the module waits for in a state. -/
def Goes (i : SampleIn) : GusState → Prop
  | .idle => i.startOk = true
  | .rd | .wr => i.busy = false
  | .rdw => i.answers = true

/-- How far a state is from the answer. -/
def distance : GusState → Nat
  | .idle => 2
  | .rd => 1
  | .rdw | .wr => 0

/-- A request that waits stays, unless it is answered. -/
theorem asks_succ {t : Nat} (h : r.Asks t) (hno : r.ack (t + 1) = false) : r.Asks (t + 1) ∧ r.req (t + 1) = r.req t := by
  have hsame : r.req (t + 1) = r.req t := r.held t h.1 h.2
  exact ⟨⟨hsame ▸ h.1, hno⟩, hsame⟩

/-- A clock with a request brings its answer, or comes nearer to it when the port goes on. -/
theorem moves {t : Nat} (h : r.Asks t) (hno : r.ack (t + 1) = false) :
    (¬ Goes (r.inp t) (r.state t).chip.state → (r.state (t + 1)).chip.state = (r.state t).chip.state) ∧
    (Goes (r.inp t) (r.state t).chip.state →
      distance (r.state (t + 1)).chip.state < distance (r.state t).chip.state) := by
  have hchip : (r.state (t + 1)).chip = (r.state t).chip.step (r.req t) (r.inp t).startOk (r.inp t).busy (r.inp t).answers
      ((r.state t).pending.getD (r.inp t).stray) true := by
    show GusDdr.step _ _ _ _ _ _ (!(r.inp t).reset) = _
    rw [r.noReset t]; rfl
  have hack : ((r.state t).chip.step (r.req t) (r.inp t).startOk (r.inp t).busy (r.inp t).answers
      ((r.state t).pending.getD (r.inp t).stray) true).memAck = false := hchip ▸ hno
  rw [hchip]
  cases hstate : (r.state t).chip.state with
  | idle =>
    have hcond : ((r.req t).memReq && !(r.state t).chip.memAck) = true := by
      rw [h.1, show (r.state t).chip.memAck = false from h.2]; rfl
    unfold GusDdr.step GusDdr.idleNext at hack ⊢
    rw [hstate] at hack ⊢
    simp only [Bool.not_true, Bool.false_eq_true, if_false, if_pos hcond] at hack ⊢
    by_cases hhit : (!(r.req t).memWe && (r.state t).chip.hit (r.req t)) = true
    · rw [if_pos hhit] at hack
      exact absurd hack (by simp)
    · rw [if_neg hhit]
      -- a miss goes to DDR3 as soon as it may start
      refine ⟨fun hgo => ?_, fun hgo => ?_⟩
      · rw [if_neg (show ¬ (r.inp t).startOk = true from hgo)]
      rw [if_pos (show (r.inp t).startOk = true from hgo)]
      cases (r.req t).memWe
      · show distance .rd < distance .idle; decide
      · show distance .wr < distance .idle; decide
  | rd =>
    unfold GusDdr.step GusDdr.rdNext
    rw [hstate]
    cases hbusy : (r.inp t).busy with
    | true => exact ⟨fun _ => rfl, fun hgo => absurd (hbusy.symm.trans hgo) (by decide)⟩
    | false =>
      refine ⟨fun hgo => absurd hbusy hgo, fun _ => ?_⟩
      show distance .rdw < distance .rd
      decide
  | rdw =>
    unfold GusDdr.step GusDdr.rdwNext at hack ⊢
    rw [hstate] at hack ⊢
    cases hanswers : (r.inp t).answers with
    | true => rw [hanswers] at hack; exact absurd hack (by simp)
    | false => exact ⟨fun _ => rfl, fun hgo => absurd (hanswers.symm.trans hgo) (by decide)⟩
  | wr =>
    unfold GusDdr.step GusDdr.wrNext at hack ⊢
    rw [hstate] at hack ⊢
    cases hbusy : (r.inp t).busy with
    | true => exact ⟨fun _ => rfl, fun hgo => absurd (hbusy.symm.trans hgo) (by decide)⟩
    | false => rw [hbusy] at hack; exact absurd hack (by simp)

theorem exists_ack {t : Nat} (h : r.Asks t) : ∃ u, t < u ∧ r.ack u = true := by
  by_contra hnever
  have hno : ∀ u, t < u → r.ack u = false := fun u hu =>
    Bool.eq_false_iff.2 fun hack => hnever ⟨u, hu, hack⟩
  have hasks : ∀ k, r.Asks (t + k) := by
    intro k
    induction k with
    | zero => exact h
    | succ k ih => exact (r.asks_succ ih (hno _ (by omega))).1
  have hfair : ∀ x k, ∃ u, k ≤ u ∧ Goes (r.inp (t + u)) x := by
    intro x k
    have hpattern : ∃ u, t + k ≤ u ∧ Goes (r.inp u) x := by
      cases x
      · exact r.starts _
      · exact r.accepts _
      · exact r.answers _
      · exact r.accepts _
    obtain ⟨u, hu, hgo⟩ := hpattern
    exact ⟨u - t, by omega, by rwa [Nat.add_sub_cancel' (by omega)]⟩
  obtain ⟨u, -, hfalse⟩ := exists_of_progress (P := fun _ => False)
    (W := fun k => ¬ Goes (r.inp (t + k)) (r.state (t + k)).chip.state)
    (fun k => distance (r.state (t + k)).chip.state)
    (fun k _ hwait => le_of_eq (congrArg distance ((r.moves (hasks k) (hno _ (by omega))).1 hwait)))
    (fun k _ hgo => (r.moves (hasks k) (hno _ (by omega))).2 (not_not.1 hgo))
    (fun k => by
      obtain ⟨u, hku, -, hgo⟩ := exists_turn (f := fun k => (r.state (t + k)).chip.state)
        (g := fun x k => Goes (r.inp (t + k)) x) hfair
        (fun k hwait => (r.moves (hasks k) (hno _ (by omega))).1 hwait) k
      exact ⟨u, hku, .inr (not_not.2 hgo)⟩) 0
  exact hfalse

/-- The request that waits in clock `t` is answered in clock `u`, and is not answered before it. -/
structure Answered (t u : Nat) : Prop where
  later : t < u
  ack : r.ack u = true
  waits : ∀ v, t ≤ v → v < u → r.Asks v ∧ r.req v = r.req t

theorem exists_answered {t : Nat} (h : r.Asks t) : ∃ u, r.Answered t u := by
  obtain ⟨u, htu, hack, hbefore⟩ := exists_first (r.exists_ack h)
  refine ⟨u, htu, hack, fun v htv => ?_⟩
  induction v, htv using Nat.le_induction with
  | base => exact fun _ => ⟨h, rfl⟩
  | succ v htv ih =>
    intro hvu
    obtain ⟨hasks, hreq⟩ := ih (by omega)
    obtain ⟨hasks', hreq'⟩ := r.asks_succ hasks (Bool.eq_false_iff.2 (hbefore _ (by omega) hvu))
    exact ⟨hasks', hreq'.trans hreq⟩

/-! ## The megabyte -/

/-- The megabyte after the requests answered up to clock `t`: what DDR3 held, and the writes. -/
def array : Nat → Ram
  | 0 => ramOf r.start.mem
  | t + 1 => if r.ack (t + 1) = true ∧ (r.req t).memWe = true then (array t).write (r.req t) else array t

theorem contents : ∀ t, ramOf (r.state t).mem = r.array t
  | 0 => rfl
  | t + 1 => by
    have hedge := r.edge t
    have ih := contents t
    show _ = if r.ack (t + 1) = true ∧ (r.req t).memWe = true then _ else _
    cases hedge with
    | quiet ack mem => rw [if_neg fun h => absurd (ack.symm.trans h.1) Bool.false_ne_true, mem, ih]
    | reads asked ack mem we rdata => rw [if_neg fun h => absurd (we.symm.trans h.2) Bool.false_ne_true, mem, ih]
    | writes asked ack we loaded mem => rw [if_pos ⟨ack, we⟩, mem, ramOf_writeWord loaded, ih]

/-- The module is a megabyte of bytes: every request is answered once, and every answer ends a request; a read gives the
word of the megabyte that its address lies in, and DDR3 holds the megabyte; a byte of DDR3 changes only for a write that
is answered and owns it. -/
structure PlainArray : Prop where
  answered : ∀ t, r.Asks t → ∃ u, r.Answered t u
  asked : ∀ u, r.ack u = true → ∃ t, u = t + 1 ∧ r.Asks t
  reads : ∀ t, r.ack (t + 1) = true → (r.req t).memWe = false →
    (r.state (t + 1)).chip.memRdata = (r.array t).word (r.req t).memAddr
  contents : ∀ t, ramOf (r.state t).mem = r.array t
  owned : ∀ t x, (r.state (t + 1)).mem x ≠ (r.state t).mem x →
    r.ack (t + 1) = true ∧ (r.req t).memWe = true ∧ ∃ a, x = sampleAddress a ∧ Owns (r.req t) a

theorem plainArray : r.PlainArray where
  answered t h := r.exists_answered h
  asked := by
    intro u hack
    cases u with
    | zero => exact absurd (r.noAck.symm.trans hack) Bool.false_ne_true
    | succ t =>
      refine ⟨t, rfl, ?_⟩
      cases r.edge t with
      | quiet ack mem => exact absurd (ack.symm.trans hack) Bool.false_ne_true
      | reads asked ack mem we rdata => exact asked
      | writes asked ack we loaded mem => exact asked
  reads := by
    intro t hack hread
    cases r.edge t with
    | quiet ack mem => exact absurd (ack.symm.trans hack) Bool.false_ne_true
    | reads asked ack mem we rdata => rw [rdata, r.contents]
    | writes asked ack we loaded mem => exact absurd (hread.symm.trans we) Bool.false_ne_true
  contents := r.contents
  owned := by
    intro t x hchanged
    cases r.edge t with
    | quiet ack mem => exact absurd (congrFun mem x) hchanged
    | reads asked ack mem we rdata => exact absurd (congrFun mem x) hchanged
    | writes asked ack we loaded mem =>
      refine ⟨ack, we, ?_⟩
      by_contra hnone
      rw [mem] at hchanged
      exact hchanged (writeWord_of_not_owns loaded _ fun a ha hown => hnone ⟨a, ha, hown⟩)

/-- The requests of clock `t`: a read that is kept, a byte and a word written into the kept word and a word into another,
then both read. -/
def rewrites (t : Nat) : GusReq :=
  if t < 6 then ⟨true, false, false, 0x12345, 0⟩
  else if t < 10 then ⟨true, true, false, 0x12345, 0x77AA⟩
  else if t < 13 then ⟨true, true, true, 0x12342, 0xBEEF⟩
  else if t < 17 then ⟨true, true, true, 0x54320, 0xCAFE⟩
  else if t < 19 then ⟨true, false, false, 0x12345, 0⟩
  else if t < 24 then ⟨true, false, true, 0x54320, 0⟩
  else ⟨false, false, false, 0, 0⟩

theorem rewrites_end {t : Nat} (h : (rewrites t).memReq = true) : t < 24 := by
  by_contra hge
  unfold rewrites at h
  simp only [show ¬ t < 6 by omega, show ¬ t < 10 by omega, show ¬ t < 13 by omega, show ¬ t < 17 by omega,
    show ¬ t < 19 by omega, hge, if_false] at h
  exact Bool.false_ne_true h

/-- DDR3 may not be asked at first, is busy in two clocks and answers in every other one. -/
def rewritesIn (t : Nat) : SampleIn := ⟨false, rewrites t, t != 0, t == 7 || t == 14, t % 2 == 0, 0⟩

def rewritten : Requests where
  start := ⟨⟨.idle, 0, false, 0, 0, 0, false, 0, false⟩, fun x => x.extractLsb' 0 8, none⟩
  inp := rewritesIn
  idle := rfl
  noAck := rfl
  noTag := rfl
  noPending := rfl
  noReset := fun _ => rfl
  held := fun t hreq hack => by
    have hall : ∀ u, u < 24 → (run SampleMemory.step ⟨⟨.idle, 0, false, 0, 0, 0, false, 0, false⟩,
        fun x => x.extractLsb' 0 8, none⟩ rewritesIn u).chip.memAck = false → rewrites (u + 1) = rewrites u := by
      decide +kernel
    exact hall t (rewrites_end hreq) hack
  starts := fun t => ⟨t + 1, Nat.le_succ t, rfl⟩
  accepts := fun t => by
    refine ⟨t + 15, Nat.le_add_right t 15, ?_⟩
    show (t + 15 == 7 || t + 15 == 14) = false
    rw [Bool.or_eq_false_iff, beq_eq_false_iff_ne, beq_eq_false_iff_ne]
    omega
  answers := fun t => ⟨2 * t, by omega, beq_iff_eq.2 (Nat.mul_mod_right 2 t)⟩

/-- The byte written into the kept word is read from it, and the other word from DDR3. -/
theorem rewritten_plainArray :
    (rewritten.state 18).chip.memRdata = (rewritten.array 17).word 0x12345 ∧ (rewritten.array 17).word 0x12345 = 0xAA44 ∧
      (rewritten.state 23).chip.memRdata = (rewritten.array 22).word 0x54320 ∧ (rewritten.array 22).word 0x54320 = 0xCAFE :=
  ⟨rewritten.plainArray.reads 17 (by decide +kernel) rfl, by decide +kernel,
    rewritten.plainArray.reads 22 (by decide +kernel) rfl, by decide +kernel⟩

end Requests

/-- The bytes of a word written to an even address are that byte and the next. -/
theorem owns_even {r : GusReq} (hword : r.memWord = true) (heven : r.memAddr.getLsbD 0 = false) (a : BitVec 20) :
    Owns r a ↔ a = r.memAddr ∨ a = r.memAddr + 1 := by
  have hhalf : ∀ x : BitVec 20, (x.extractLsb' 1 19).toNat = x.toNat / 2 := by
    intro x
    have hx := x.isLt
    rw [BitVec.extractLsb'_toNat, Nat.shiftRight_eq_div_pow]
    omega
  have hlow : r.memAddr.toNat % 2 = 0 := by
    rw [getLsbD_zero_eq] at heven
    simpa using heven
  have hlt := r.memAddr.isLt
  have ha := a.isLt
  unfold Owns
  rw [if_pos hword, ← BitVec.toNat_inj, hhalf, hhalf, ← BitVec.toNat_inj, ← BitVec.toNat_inj, BitVec.toNat_add]
  show _ ↔ _ ∨ a.toNat = (r.memAddr.toNat + 1) % 2 ^ 20
  omega

end Z486.Gus
