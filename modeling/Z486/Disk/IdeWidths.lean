/-
The widths of the data port. A 32 bit access takes the pair of words that the guest's pointer is in. It stands for two
of 16 bits where the pointer is at the first word of its pair and the block does not end between the two; at the second
word of a pair it takes the word before instead of the word after.
-/
import Z486.Disk.IdeAccess

namespace Z486.Disk

open IoBus (Adapter CpuIo)

/-! ## One wide access and two narrow ones -/

namespace IdeBlock

variable {b : IdeBlock}

theorem atOdd_eq : b.atOdd = decide (b.ioCnt.toNat % 2 = 1) := by
  rw [atOdd, BitVec.getLsbD, Nat.testBit_zero]

/-- From the first word of a pair a narrow access goes to the second one. -/
theorem next_of_even (heven : b.atOdd = false) : (b.ioCnt + 1).toNat = b.ioCnt.toNat + 1 ∧
    (b.ioCnt + 1).getLsbD 0 = true ∧ (b.ioCnt + 1).extractLsb' 1 12 = b.ioCnt.extractLsb' 1 12 ∧
    (b.ioCnt + 1).extractLsb' 1 13 = b.ioCnt.extractLsb' 1 13 := by
  rw [atOdd_eq, decide_eq_false_iff_not] at heven
  have hlt := b.ioCnt.isLt
  have hnext : (b.ioCnt + 1).toNat = b.ioCnt.toNat + 1 := by
    rw [BitVec.toNat_add]
    exact Nat.mod_eq_of_lt (show b.ioCnt.toNat + 1 < 2 ^ 14 by omega)
  refine ⟨hnext, ?_, ?_, ?_⟩
  · rw [BitVec.getLsbD, Nat.testBit_zero, hnext]
    exact decide_eq_true (by omega)
  · apply BitVec.eq_of_toNat_eq
    rw [BitVec.extractLsb'_toNat, BitVec.extractLsb'_toNat, hnext, Nat.shiftRight_eq_div_pow, Nat.shiftRight_eq_div_pow]
    omega
  · apply BitVec.eq_of_toNat_eq
    rw [BitVec.extractLsb'_toNat, BitVec.extractLsb'_toNat, hnext, Nat.shiftRight_eq_div_pow, Nat.shiftRight_eq_div_pow]
    omega

/-- The block goes on after the word that the pointer is at. -/
def goesOn (b : IdeBlock) : Bool := b.ioCnt.setWidth 16 + 1 != b.blkSize

theorem open_iff (hdrq : b.drq = true) : (b.done && b.drq) = false ↔ b.blkSize = 0 ∨ b.ioCnt.toNat < b.blkSize.toNat := by
  have hlt := b.ioCnt.isLt
  rw [hdrq, Bool.and_true, done, BitVec.ule_eq_decide, BitVec.toNat_setWidth, Nat.mod_eq_of_lt (by omega),
    Bool.and_eq_false_iff, bne_eq_false_iff_eq, decide_eq_false_iff_not, Nat.not_le]

theorem stores_frame (b : IdeBlock) (x : DataAccess) : (b.stores x).ioCnt = b.ioCnt ∧ (b.stores x).blkSize = b.blkSize ∧
    (b.stores x).status = b.status ∧ (b.stores x).mgmtCnt = b.mgmtCnt ∧ (b.stores x).fastRead = b.fastRead := by
  rw [stores]
  split <;> exact ⟨rfl, rfl, rfl, rfl, rfl⟩

/-- Whether a narrow access at the first word of a pair leaves the block open. -/
theorem narrow_settled (hdrq : b.drq = true) (hopen : (b.done && b.drq) = false) (heven : b.atOdd = false) {x : DataAccess}
    (hx : x.wide = false) : (((b.stores x).moves x).done && ((b.stores x).moves x).drq) = !b.goesOn := by
  obtain ⟨hcnt, hblk, hstatus, -⟩ := stores_frame b x
  obtain ⟨hnext, -⟩ := next_of_even heven
  have hlt := b.ioCnt.isLt
  have hblkSize := b.blkSize.isLt
  have hdrq' : ((b.stores x).moves x).drq = true := by
    show (b.stores x).status.getLsbD 3 = true
    rw [hstatus]
    exact hdrq
  have hcnt' : ((b.stores x).moves x).ioCnt = b.ioCnt + 1 := by
    show (b.stores x).ioCnt + 1 + (BitVec.ofBool x.wide).setWidth 14 = _
    rw [hcnt, hx]
    exact BitVec.add_zero _
  have hzero : b.blkSize = 0 ↔ b.blkSize.toNat = 0 := by
    rw [← BitVec.toNat_inj]
    rfl
  have hend : b.ioCnt.setWidth 16 + 1 = b.blkSize ↔ b.ioCnt.toNat + 1 = b.blkSize.toNat := by
    rw [← BitVec.toNat_inj, BitVec.toNat_add, BitVec.toNat_setWidth, Nat.mod_eq_of_lt (show b.ioCnt.toNat < 2 ^ 16 by omega)]
    exact Iff.of_eq (congrArg (· = _) (Nat.mod_eq_of_lt (show b.ioCnt.toNat + 1 < 2 ^ 16 by omega)))
  rw [open_iff hdrq, hzero] at hopen
  rw [hdrq', Bool.and_true, done, show ((b.stores x).moves x).blkSize = b.blkSize from hblk, hcnt', BitVec.ule_eq_decide,
    BitVec.toNat_setWidth, hnext, Nat.mod_eq_of_lt (by omega), goesOn, Bool.eq_iff_iff, Bool.and_eq_true, bne_iff_ne, Ne,
    hzero, decide_eq_true_iff, Bool.not_eq_true', bne_eq_false_iff_eq, hend]
  omega

/-- At the first word of a pair, in a block that goes on, a wide access is two narrow ones. -/
theorem wide_eq (hdrq : b.drq = true) (hopen : (b.done && b.drq) = false) (heven : b.atOdd = false)
    (hon : b.goesOn = true) (write : Bool) (d₁ d₂ : BitVec 32) :
    b.access ⟨true, write, d₂.extractLsb' 0 16 ++ d₁.extractLsb' 0 16⟩ =
      (b.access ⟨false, write, d₁⟩).access ⟨false, write, d₂⟩ := by
  have hsettled := narrow_settled hdrq hopen heven (x := ⟨false, write, d₁⟩) rfl
  rw [hon] at hsettled
  obtain ⟨-, hodd, hpair, -⟩ := next_of_even heven
  obtain ⟨hcnt, hblk, hstatus, -⟩ := stores_frame b ⟨false, write, d₁⟩
  have hfirst : b.access ⟨false, write, d₁⟩ = (b.stores ⟨false, write, d₁⟩).moves ⟨false, write, d₁⟩ := by
    rw [access, hdrq, if_pos rfl, closes, hsettled]
    rfl
  have hdrq' : ((b.stores ⟨false, write, d₁⟩).moves ⟨false, write, d₁⟩).drq = true := by
    show (b.stores ⟨false, write, d₁⟩).status.getLsbD 3 = true
    rw [hstatus]
    exact hdrq
  rw [hfirst, access, access, hdrq, hdrq', if_pos rfl, if_pos rfl]
  refine congrArg closes ?_
  have hcnt₁ : b.ioCnt + 1 + (BitVec.ofBool false).setWidth 14 = b.ioCnt + 1 := BitVec.add_zero _
  have hcnt₂ : b.ioCnt + 1 + (BitVec.ofBool true).setWidth 14 = b.ioCnt + 1 + 1 + (BitVec.ofBool false).setWidth 14 :=
    (BitVec.add_zero _).symm
  cases write with
  | false =>
    simp only [stores, moves, hcnt₁, reduceIte, Bool.false_eq_true]
    exact IdeBlock.ext rfl rfl hcnt₂ rfl rfl rfl rfl rfl rfl rfl rfl
  | true =>
    obtain ⟨hlow, hhigh⟩ := IdeRun.halves (d₂.extractLsb' 0 16) (d₁.extractLsb' 0 16)
    simp only [stores, moves, atOdd, pair, hcnt₁, hodd, hpair, show b.ioCnt.getLsbD 0 = false from heven, hlow, hhigh,
      reduceIte, Bool.true_or, Bool.false_or, Bool.not_false, Bool.not_true, Bool.false_eq_true]
    exact IdeBlock.ext rfl rfl hcnt₂ rfl rfl rfl rfl rfl rfl rfl rfl

/-- There a wide read finds the two words that narrow ones find. -/
theorem wide_answer (hdrq : b.drq = true) (hopen : (b.done && b.drq) = false) (heven : b.atOdd = false)
    (hon : b.goesOn = true) (x : DataAccess) (hx : x.wide = false) (hr : x.write = false) :
    b.answer ⟨true, false, 0⟩ = ((b.access x).answer x).extractLsb' 0 16 ++ (b.answer x).extractLsb' 0 16 := by
  have hsettled := narrow_settled hdrq hopen heven hx
  rw [hon] at hsettled
  obtain ⟨-, hodd, hpair, -⟩ := next_of_even heven
  have hstores : b.stores x = b := by
    rw [stores, hr]
    rfl
  rw [hstores] at hsettled
  have hfirst : b.access x = b.moves x := by
    rw [access, hdrq, if_pos rfl, hstores, closes, hsettled]
    rfl
  have hmoves : b.moves x = { b with ioCnt := b.ioCnt + 1 } := by
    rw [moves, hx]
    exact congrArg (fun n => { b with ioCnt := n }) (BitVec.add_zero _)
  have hsecond : (b.moves x).answer x = b.odd b.pair ++ b.odd b.pair := by
    rw [hmoves, answer, show ({ b with ioCnt := b.ioCnt + 1 } : IdeBlock).drq = true from hdrq, if_pos rfl, hx,
      show ({ b with ioCnt := b.ioCnt + 1 } : IdeBlock).atOdd = true from hodd,
      show ({ b with ioCnt := b.ioCnt + 1 } : IdeBlock).pair = b.pair from hpair]
    rfl
  obtain ⟨hlow₁, -⟩ := IdeRun.halves (b.odd b.pair) (b.even b.pair)
  obtain ⟨hlow₂, -⟩ := IdeRun.halves (b.odd b.pair) (b.odd b.pair)
  rw [hfirst, hsecond, hlow₂, answer, answer, hdrq, if_pos rfl, if_pos rfl, hx, heven]
  exact congrArg (b.odd b.pair ++ ·) hlow₁.symm

/-- The pair stays in the buffer from its first word to its second. -/
theorem narrow_ahead (hdrq : b.drq = true) (hopen : (b.done && b.drq) = false) (heven : b.atOdd = false)
    (hon : b.goesOn = true) (hahead : b.ahead = false) {x : DataAccess} (hx : x.wide = false) (hr : x.write = false) :
    ((b.stores x).moves x).ahead = false ∧ (b.access x).ahead = false := by
  have hsettled := narrow_settled hdrq hopen heven hx
  rw [hon] at hsettled
  have haccess : b.access x = (b.stores x).moves x := by
    rw [access, hdrq, if_pos rfl, closes, hsettled]
    rfl
  have hmoves : ((b.stores x).moves x).ahead = b.ahead := by
    have hcnt : (b.moves x).ioCnt = b.ioCnt + 1 := by
      rw [moves, hx]
      exact BitVec.add_zero _
    rw [stores, hr, if_neg Bool.false_ne_true, ahead, hcnt, (next_of_even heven).2.2.2]
    rfl
  exact ⟨hmoves.trans hahead, haccess ▸ hmoves.trans hahead⟩

theorem access_of_drq (hdrq : b.drq = true) (x : DataAccess) : (b.access x).ioCnt =
    (b.stores x).ioCnt + 1 + (BitVec.ofBool x.wide).setWidth 14 ∧ (b.access x).odd = (b.stores x).odd := by
  obtain ⟨-, hodd, hcnt, -⟩ := closes_words ((b.stores x).moves x)
  rw [access, hdrq, if_pos rfl, hcnt, hodd]
  exact ⟨rfl, rfl⟩

/-- At the second word of a pair a wide write goes to other words than two narrow ones. -/
theorem wide_ne_of_odd (hdrq : b.drq = true) (hodd : b.atOdd = true) :
    b.access ⟨true, true, (1 : BitVec 32).extractLsb' 0 16 ++ (0 : BitVec 32).extractLsb' 0 16⟩ ≠
      (b.access ⟨false, true, 0⟩).access ⟨false, true, 1⟩ := by
  intro heq
  have hplace := congrArg (fun c => c.odd b.pair) heq
  have hfirst : (b.access ⟨false, true, 0⟩).odd b.pair = 0 := by
    rw [(access_of_drq hdrq _).2, stores, if_pos rfl]
    simp only [hodd, Bool.or_true, if_true]
    exact Function.update_self ..
  have hnext : (b.access ⟨false, true, 0⟩).atOdd = false := by
    have hlt := b.ioCnt.isLt
    rw [atOdd_eq, decide_eq_true_iff] at hodd
    rw [atOdd_eq, (access_of_drq hdrq _).1, (stores_frame _ _).1, decide_eq_false_iff_not]
    rw [BitVec.toNat_add, BitVec.toNat_add]
    show ¬ ((b.ioCnt.toNat + 1) % 2 ^ 14 + 0) % 2 ^ 14 % 2 = 1
    omega
  have hsecond : ((b.access ⟨false, true, 0⟩).access ⟨false, true, 1⟩).odd = (b.access ⟨false, true, 0⟩).odd := by
    cases hdrq' : (b.access ⟨false, true, 0⟩).drq with
    | false => rw [access, hdrq', if_neg Bool.false_ne_true]
    | true =>
      rw [(access_of_drq hdrq' _).2, stores, if_pos rfl]
      simp only [hnext, Bool.or_false, Bool.false_eq_true, if_false]
  have hwide : (b.access ⟨true, true, (1 : BitVec 32).extractLsb' 0 16 ++ (0 : BitVec 32).extractLsb' 0 16⟩).odd b.pair =
      1 := by
    rw [(access_of_drq hdrq _).2, stores, if_pos rfl]
    simp only [Bool.true_or, if_true]
    exact (Function.update_self ..).trans (by decide)
  have hbad : (1 : BitVec 16) = 0 := hwide.symm.trans (hplace.trans ((congrFun hsecond _).trans hfirst))
  exact absurd hbad (by decide)

/-- At the last word of a block a wide access moves the pointer past the end, and two narrow ones only to it. -/
theorem wide_ne_of_last (hdrq : b.drq = true) (hopen : (b.done && b.drq) = false) (heven : b.atOdd = false)
    (hlast : b.goesOn = false) (write : Bool) (d d₁ d₂ : BitVec 32) :
    b.access ⟨true, write, d⟩ ≠ (b.access ⟨false, write, d₁⟩).access ⟨false, write, d₂⟩ := by
  intro heq
  have hsettled := narrow_settled hdrq hopen heven (x := ⟨false, write, d₁⟩) rfl
  rw [hlast] at hsettled
  have hdown : (b.access ⟨false, write, d₁⟩).drq = false := by
    rw [access, hdrq, if_pos rfl, closes, hsettled]
    show (if ((b.stores _).moves _).lastRead then (0x40 : BitVec 8) else 0x80).getLsbD 3 = false
    cases ((b.stores ⟨false, write, d₁⟩).moves ⟨false, write, d₁⟩).lastRead <;> rfl
  have hsecond : (b.access ⟨false, write, d₁⟩).access ⟨false, write, d₂⟩ = b.access ⟨false, write, d₁⟩ := by
    show (if (b.access ⟨false, write, d₁⟩).drq = true then _ else b.access ⟨false, write, d₁⟩) = _
    rw [hdown]
    rfl
  have hcnt := congrArg ioCnt (heq.trans hsecond)
  rw [(access_of_drq hdrq _).1, (access_of_drq hdrq _).1, (stores_frame _ _).1, (stores_frame _ _).1] at hcnt
  have hbad : (BitVec.ofBool true).setWidth 14 = (BitVec.ofBool false).setWidth 14 := (BitVec.add_right_inj _).1 hcnt
  exact absurd hbad (by decide)

end IdeBlock

/-! ## Runs -/

namespace IdePort

/-- The guest's pointer is inside a block, no cycle is under way, and no read would be held. -/
structure InBlock (s : IdePort) : Prop extends AtRest s s.ide0.block, Unheld s where
  drq : s.ide0.drq = true

end IdePort

namespace IdeRun

/-- The guest alone is at work, from the port `s` on. -/
structure Undisturbed (r : IdeRun) (s : IdePort) : Prop where
  start : r.start = s
  silent : ∀ t, (r.inputs t).Silent

/-- The access `x` is taken in clock `t`. -/
structure Makes (r : IdeRun) (x : DataAccess) (t : Nat) : Prop where
  takes : r.takes t = true
  asked : x.AskedBy (r.inputs t).cpu

/-- Before clock `v` the guest makes the access `x`, in clock `t`, and no other, and has its answer. -/
structure Once (r : IdeRun) (s : IdePort) (x : DataAccess) (t v : Nat) : Prop extends Undisturbed r s where
  made : r.Makes x t
  answered : t + 3 < v
  only : ∀ u, u < v → r.takes u = true → u = t

/-- Before clock `v` the guest makes the access `x` and then `y`, and no others, and has their answers. -/
structure Twice (r : IdeRun) (s : IdePort) (x y : DataAccess) (t u v : Nat) : Prop extends Undisturbed r s where
  first : r.Makes x t
  second : r.Makes y u
  order : t < u
  answered : u + 3 < v
  only : ∀ w, w < v → r.takes w = true → w = t ∨ w = u

variable {r : IdeRun} {s : IdePort} {x y : DataAccess} {b : IdeBlock} {t u v : Nat}

/-- While no access is made the block stays. -/
theorem rest_run (hs : r.Undisturbed s) (h : (r.state t).AtRest b) (htv : t ≤ v)
    (hno : ∀ u, t ≤ u → u < v → r.takes u = false) :
    (r.state v).AtRest b ∧ ((r.state t).Unheld → (r.state v).Unheld) := by
  induction v, htv using Nat.le_induction with
  | base => exact ⟨h, id⟩
  | succ v htv ih =>
    obtain ⟨hrest, hfree⟩ := ih fun u hu huv => hno u hu (by omega)
    have hnext := hrest.rests (hs.silent v) (hno v htv (by omega))
    rw [← state_succ] at hnext
    refine ⟨hnext, fun hu => ?_⟩
    have hstep := (hfree hu).step (hs.silent v)
    rw [← state_succ, hnext.block, ← hrest.block] at hstep
    exact hstep (hfree hu).now

/-- An access that is taken is answered three clocks later; a clock later the port is at rest again. -/
theorem access_run (hs : r.Undisturbed s) (h : (r.state t).AtRest b) (hx : r.Makes x t)
    (hfree : x.write = false → (r.state t).Unheld) : (r.ready (t + 3) = true ∧
      (x.write = false → (r.adapter (t + 3)).cpuDout = b.answer x)) ∧ (r.state (t + 4)).AtRest (b.access x) ∧
      (∀ k, 0 < k → k < 4 → r.takes (t + k) = false) ∧ ((r.state t).Unheld →
        ((b.stores x).moves x).ahead = false → (b.access x).ahead = false → (r.state (t + 4)).Unheld) := by
  have hstrobes := h.takes (hs.silent t) hx.takes hx.asked
  rw [← state_succ] at hstrobes
  have hstays : (r.state t).Unheld → (r.state (t + 1)).Unheld := by
    intro hu
    have hstep := hu.step (hs.silent t)
    rw [← state_succ, hstrobes.block, ← h.block] at hstep
    exact hstep hu.now
  have hfalls := hstrobes.falls (hs.silent (t + 1)) fun hw => hstays (hfree hw)
  rw [← state_succ] at hfalls
  have hanswered := hfalls.answered (hs.silent (t + 2))
  rw [← state_succ] at hanswered
  have hrests := hanswered.rests (hs.silent (t + 3)) h.settled
  rw [← state_succ] at hrests
  refine ⟨⟨hanswered.ready, hanswered.answer⟩, hrests, fun k hk hk4 => ?_, fun hu hmoves haccess => ?_⟩
  · rw [takes, Adapter.takes]
    obtain rfl | rfl | rfl : k = 1 ∨ k = 2 ∨ k = 3 := by omega
    · rw [show (r.adapter (t + 1)).state = .ide32 from hstrobes.state]
      rfl
    · rw [show (r.adapter (t + 2)).state = .ide32w from hfalls.state]
      rfl
    · rw [show (r.adapter (t + 3)).wasActive = true from hanswered.active]
      simp
  · have hahead : b.ahead = false := by
      rw [← h.block]
      exact hu.now
    have h2 := (hstays hu).step (hs.silent (t + 1))
    rw [← state_succ, hfalls.block] at h2
    have hfall : (if b.drq = true then b.stores x else b).ahead = false := by
      cases hdrq : b.drq with
      | false => exact hahead
      | true =>
        obtain ⟨hcnt, -, hstatus, hmgmt, hfast⟩ := IdeBlock.stores_frame b x
        rw [if_pos rfl, IdeBlock.ahead, IdeBlock.drq, hcnt, hstatus, hmgmt, hfast]
        exact hahead
    have h3 := (h2 hfall).step (hs.silent (t + 2))
    rw [← state_succ, hanswered.block] at h3
    have hmove : (if b.drq = true then (b.stores x).moves x else b).ahead = false := by
      cases b.drq with
      | false => exact hahead
      | true => exact hmoves
    have h4 := (h3 hmove).step (hs.silent (t + 3))
    rw [← state_succ, hrests.block] at h4
    exact h4 haccess

/-- The block after one access. -/
theorem Once.block_eq (h : r.Once s x t v) (hs : s.InBlock) : (r.ide v).block = s.ide0.block.access x ∧
    r.ready (t + 3) = true ∧ (x.write = false → (r.adapter (t + 3)).cpuDout = s.ide0.block.answer x) := by
  have hstart : r.start.InBlock := h.start ▸ hs
  rw [← h.start]
  have hanswered := h.answered
  have hno : ∀ u, u < v → u ≠ t → r.takes u = false := fun u hu hne =>
    Bool.eq_false_iff.2 fun htakes => hne (h.only u hu htakes)
  obtain ⟨hrest, hkeep⟩ := rest_run (t := 0) h.toUndisturbed hstart.toAtRest (Nat.zero_le t)
    fun u _ hu => hno u (by omega) (by omega)
  obtain ⟨⟨hready, hanswer⟩, hafter, -⟩ := access_run h.toUndisturbed hrest h.made fun _ => hkeep hstart.toUnheld
  obtain ⟨hend, -⟩ := rest_run h.toUndisturbed hafter (show t + 4 ≤ v by omega) fun u hu hlt => hno u hlt (by omega)
  exact ⟨hend.block, hready, hanswer⟩

/-- The block after two accesses. -/
theorem Twice.block_eq (h : r.Twice s x y t u v) (hs : s.InBlock) (hfree : y.write = false →
      ((s.ide0.block.stores x).moves x).ahead = false ∧ (s.ide0.block.access x).ahead = false) :
    (r.ide v).block = (s.ide0.block.access x).access y ∧ (r.ready (t + 3) = true ∧ r.ready (u + 3) = true) ∧
      (x.write = false → (r.adapter (t + 3)).cpuDout = s.ide0.block.answer x) ∧
      (y.write = false → (r.adapter (u + 3)).cpuDout = (s.ide0.block.access x).answer y) := by
  have hstart : r.start.InBlock := h.start ▸ hs
  rw [← h.start] at hfree ⊢
  have horder := h.order
  have hanswered := h.answered
  have hno : ∀ w, w < v → w ≠ t → w ≠ u → r.takes w = false := fun w hw hnet hneu =>
    Bool.eq_false_iff.2 fun htakes => (h.only w hw htakes).elim hnet hneu
  obtain ⟨hrest, hkeep⟩ := rest_run (t := 0) h.toUndisturbed hstart.toAtRest (Nat.zero_le t)
    fun w _ hw => hno w (by omega) (by omega) (by omega)
  obtain ⟨⟨hready, hanswer⟩, hafter, hbusy, hunheld⟩ :=
    access_run h.toUndisturbed hrest h.first fun _ => hkeep hstart.toUnheld
  have hlater : t + 4 ≤ u := by
    by_contra hlt
    have hfalse := hbusy (u - t) (by omega) (by omega)
    rw [show t + (u - t) = u by omega] at hfalse
    exact absurd (hfalse.symm.trans h.second.takes) nofun
  obtain ⟨hrest₂, hkeep₂⟩ := rest_run h.toUndisturbed hafter hlater
    fun w hw hlt => hno w (by omega) (by omega) (by omega)
  obtain ⟨⟨hready₂, hanswer₂⟩, hafter₂, -⟩ := access_run h.toUndisturbed hrest₂ h.second fun hy =>
    hkeep₂ (hunheld (hkeep hstart.toUnheld) (hfree hy).1 (hfree hy).2)
  obtain ⟨hend, -⟩ := rest_run h.toUndisturbed hafter₂ (show u + 4 ≤ v by omega)
    fun w hw hlt => hno w hlt (by omega) (by omega)
  exact ⟨hend.block, ⟨hready, hready₂⟩, hanswer, hanswer₂⟩

/-! ## Accesses on their own -/

/-- The CPU's cycle for an access. -/
def cpuOf (x : DataAccess) : CpuIo where
  cpuAddr := 0x7C
  cpuBe := x.cpuBe
  cpuDin := x.data
  cpuIoRd := !x.write
  cpuIoWr := x.write

/-- A clock in which the CPU does `c` and nobody else anything. -/
def aloneIn (c : CpuIo) : IdePortIn where
  rstN := true
  ide0ResetN := true
  cpu := c
  mgmt := ⟨0, false, 0, false⟩
  ide1Nodata := false
  ide1Readdata := 0
  otherReaddata := 0
  ioWait := false

/-- From the port `s` on the guest makes the access `x` in clock 1 and `y`, if any, in clock 6. -/
def scripted (s : IdePort) (x : DataAccess) (y : Option DataAccess) : IdeRun where
  start := s
  inputs t :=
    if t = 1 then aloneIn (cpuOf x)
    else if t = 6 then aloneIn (y.elim ⟨0, 0, 0, false, false⟩ cpuOf)
    else aloneIn ⟨0, 0, 0, false, false⟩

theorem silent_scripted (z : Option DataAccess) (t : Nat) : ((scripted s x z).inputs t).Silent := by
  simp only [scripted]
  split
  · exact ⟨rfl, rfl, rfl, rfl⟩
  · split
    · exact ⟨rfl, rfl, rfl, rfl⟩
    · exact ⟨rfl, rfl, rfl, rfl⟩

theorem askedBy_cpuOf (x : DataAccess) : x.AskedBy (cpuOf x) := by
  refine ⟨?_, rfl, rfl, fun _ => rfl⟩
  show (0x7C : BitVec 30).extractLsb' 0 14 ++ 0#2 = 0x01F0
  decide

theorem asks_cpuOf (x : DataAccess) : (cpuOf x).asks = true := by
  cases hw : x.write <;> simp [cpuOf, CpuIo.asks, hw]

/-- In all other clocks the CPU is idle. -/
theorem idle_scripted {z : Option DataAccess} (h1 : u ≠ 1) (h6 : u ≠ 6) :
    ((scripted s x z).inputs u).cpu.asks = false ∧ (scripted s x z).takes u = false := by
  have hcpu : ((scripted s x z).inputs u).cpu.asks = false := by simp [scripted, h1, h6, aloneIn, CpuIo.asks]
  refine ⟨hcpu, ?_⟩
  rw [takes, Adapter.takes]
  exact (Bool.and_eq_false_iff).2 (.inr hcpu)

/-- A port at rest whose CPU has let go takes the next cycle. -/
theorem takes_of_rest (hs : r.Undisturbed s) (h : (r.state t).AtRest b) (hgone : (r.inputs t).cpu.asks = false)
    (hasks : (r.inputs (t + 1)).cpu.asks = true) : r.takes (t + 1) = true := by
  have hno : (r.adapter t).takes (r.inputs t).cpu = false := by
    rw [Adapter.takes]
    exact (Bool.and_eq_false_iff).2 (.inr hgone)
  have hstep := Adapter.step_idle (p := (r.state t).peripheral (r.inputs t)) h.idle hno
  rw [hgone, Bool.and_false, ← IdePort.adapter_step (hs.silent t), ← state_succ] at hstep
  have hnext := h.rests (hs.silent t) hno
  rw [← state_succ] at hnext
  rw [takes, Adapter.takes, show (r.adapter (t + 1)).state = .idle from hnext.idle,
    show (r.adapter (t + 1)).wasActive = false by rw [adapter, hstep]]
  exact hasks

/-- One access can be made from every port in a block. -/
theorem once_scripted (hs : s.InBlock) (x : DataAccess) : (scripted s x none).Once s x 1 5 := by
  have hu : (scripted s x none).Undisturbed s := ⟨rfl, silent_scripted none⟩
  refine ⟨hu, ⟨takes_of_rest hu hs.toAtRest rfl (asks_cpuOf x), askedBy_cpuOf x⟩, by decide, fun u hlt htakes => ?_⟩
  by_contra hne
  exact absurd ((idle_scripted hne (by omega)).2.symm.trans htakes) nofun

/-- So can two. -/
theorem twice_scripted (hs : s.InBlock) (x : DataAccess) {y : DataAccess} :
    (scripted s x (some y)).Twice s x y 1 6 10 := by
  have hu : (scripted s x (some y)).Undisturbed s := ⟨rfl, silent_scripted (some y)⟩
  have hfirst : (scripted s x (some y)).Makes x 1 := ⟨takes_of_rest hu hs.toAtRest rfl (asks_cpuOf x), askedBy_cpuOf x⟩
  obtain ⟨hrest, hkeep⟩ := rest_run (r := scripted s x (some y)) (t := 0) (v := 1) hu hs.toAtRest (by decide)
    fun u _ hlt => (idle_scripted (by omega) (by omega)).2
  obtain ⟨-, hafter, -⟩ := access_run hu hrest hfirst fun _ => hkeep hs.toUnheld
  refine ⟨hu, hfirst, ⟨takes_of_rest hu hafter (idle_scripted (by decide) (by decide)).1 (asks_cpuOf y), askedBy_cpuOf y⟩,
    by decide, by decide, fun w hlt htakes => ?_⟩
  by_contra hne
  rw [not_or] at hne
  exact absurd ((idle_scripted hne.1 hne.2).2.symm.trans htakes) nofun

/-! ## Where the widths agree -/

/-- One wide access from the port `s` is as good as two narrow ones: the read finds the two words, low one first, the
write stores them, and the block is the same afterwards. -/
structure WidthsAgree (s : IdePort) : Prop where
  read : ∀ (r r' : IdeRun) (t v t₁ t₂ v' : Nat), r.Once s ⟨true, false, 0⟩ t v →
    r'.Twice s ⟨false, false, 0⟩ ⟨false, false, 0⟩ t₁ t₂ v' →
      (r.ready (t + 3) = true ∧ r'.ready (t₁ + 3) = true ∧ r'.ready (t₂ + 3) = true) ∧
        (r.adapter (t + 3)).cpuDout =
          (r'.adapter (t₂ + 3)).cpuDout.extractLsb' 0 16 ++ (r'.adapter (t₁ + 3)).cpuDout.extractLsb' 0 16 ∧
        (r.ide v).block = (r'.ide v').block
  write : ∀ (d₁ d₂ : BitVec 32) (r r' : IdeRun) (t v t₁ t₂ v' : Nat),
    r.Once s ⟨true, true, d₂.extractLsb' 0 16 ++ d₁.extractLsb' 0 16⟩ t v →
      r'.Twice s ⟨false, true, d₁⟩ ⟨false, true, d₂⟩ t₁ t₂ v' → (r.ide v).block = (r'.ide v').block

/-- If the widths agree, a wide write leaves the block that two narrow ones leave. -/
theorem WidthsAgree.access_eq (h : WidthsAgree s) (hs : s.InBlock) (d₁ d₂ : BitVec 32) :
    s.ide0.block.access ⟨true, true, d₂.extractLsb' 0 16 ++ d₁.extractLsb' 0 16⟩ =
      (s.ide0.block.access ⟨false, true, d₁⟩).access ⟨false, true, d₂⟩ := by
  have honce := once_scripted hs ⟨true, true, d₂.extractLsb' 0 16 ++ d₁.extractLsb' 0 16⟩
  have htwice := twice_scripted hs ⟨false, true, d₁⟩ (y := ⟨false, true, d₂⟩)
  have heq := h.write d₁ d₂ _ _ _ _ _ _ _ honce htwice
  rw [(honce.block_eq hs).1, (htwice.block_eq hs nofun).1] at heq
  exact heq

/-- The widths agree exactly where the guest's pointer is at the first word of a pair, and not at the last word of the
block. -/
theorem widthsAgree_iff (s : IdePort) (hs : s.InBlock) : WidthsAgree s ↔
    s.ide0.ioCnt.getLsbD 0 = false ∧ s.ide0.ioCnt.setWidth 16 + 1 ≠ s.ide0.blkSize := by
  have hdrq : s.ide0.block.drq = true := hs.drq
  constructor
  · intro h
    have heven : s.ide0.block.atOdd = false := by
      by_contra hodd
      rw [Bool.not_eq_false] at hodd
      exact IdeBlock.wide_ne_of_odd hdrq hodd (h.access_eq hs 0 1)
    refine ⟨heven, fun hlast => ?_⟩
    have hon : s.ide0.block.goesOn = false := bne_eq_false_iff_eq.2 hlast
    exact IdeBlock.wide_ne_of_last hdrq hs.settled heven hon _ _ _ _ (h.access_eq hs 0 0)
  · rintro ⟨heven, hnotLast⟩
    have heven' : s.ide0.block.atOdd = false := heven
    have hon : s.ide0.block.goesOn = true := bne_iff_ne.2 hnotLast
    constructor
    · intro r r' t v t₁ t₂ v' honce htwice
      obtain ⟨hblock, hready, hanswer⟩ := honce.block_eq hs
      obtain ⟨hblock', ⟨hready₁, hready₂⟩, hanswer₁, hanswer₂⟩ := htwice.block_eq hs
        fun _ => IdeBlock.narrow_ahead hdrq hs.settled heven' hon hs.now rfl rfl
      refine ⟨⟨hready, hready₁, hready₂⟩, ?_, ?_⟩
      · rw [hanswer rfl, hanswer₁ rfl, hanswer₂ rfl]
        exact IdeBlock.wide_answer hdrq hs.settled heven' hon _ rfl rfl
      · rw [hblock, hblock']
        exact IdeBlock.wide_eq hdrq hs.settled heven' hon false 0 0
    · intro d₁ d₂ r r' t v t₁ t₂ v' honce htwice
      rw [(honce.block_eq hs).1, (htwice.block_eq hs nofun).1]
      exact IdeBlock.wide_eq hdrq hs.settled heven' hon true d₁ d₂

/-- A block of 256 words with the guest's pointer at word `c`. -/
def portAt (c : BitVec 14) : IdePort where
  adapter :=
    { state := .idle, byteAddr := 0, activeBe := 0, isRead := false, writeData := 0, readAccum := 0, wasActive := false
      cpuDout := 0, cpuIoReady := false, ioAddress := 0, ioRead := false, ioWrite := false, ioWritedata := 0
      ideAddress := 0, ideRead := false, ideWrite := false, ideWritedata := 0, ide32 := false }
  ide0Cs := false
  ide1Cs := false
  ide0Wait := false
  ide1Wait := false
  ide0 :=
    { irq := false, ioReaddata := 0, ioWait := false, request := 0, mgmtReaddata := 0, features := 0, blkSize := 256
      error := 0, sectorCount := 1, sector := 1, cylinder := 0, drvAddr := 0, cmd := 0, status := 0x48
      lastRead := false, fastRead := false, hobEna := 0, present := 1, useWait := false, disableIrq := false
      swReset := false, hobPre := false, hob := false, ioCnt := c, oldStb := false, r32 := false, mgmtCnt := 0
      oldWr := false, oldRd := false, nDataR := 0, ioBuf0 := { mem := fun _ => 0, qA := 0, qB := 0 }
      ioBuf1 := { mem := fun _ => 0, qA := 0, qB := 0 } }

theorem inBlock_portAt {c : BitVec 14} (hc : c.toNat < 256) : (portAt c).InBlock := by
  have hdrq : (portAt c).ide0.block.drq = true := by
    show (0x48 : BitVec 8).getLsbD 3 = true
    decide
  have hopen : ((portAt c).ide0.block.done && (portAt c).ide0.block.drq) = false :=
    (IdeBlock.open_iff hdrq).2 (.inr hc)
  have hahead : (portAt c).ide0.block.ahead = false := Bool.and_false _
  have hpresent : (portAt c).ide0.present ≠ 0 := show (1 : BitVec 2) ≠ 0 by decide
  exact ⟨⟨⟨rfl, rfl, rfl, hpresent, rfl, rfl⟩, rfl, ⟨rfl, rfl, rfl, rfl⟩, rfl, rfl, hopen⟩, ⟨hahead, rfl⟩, hdrq⟩

/-- At word 0 the widths agree. -/
theorem widthsAgree_first : WidthsAgree (portAt 0) :=
  (widthsAgree_iff (portAt 0) (inBlock_portAt (by decide))).2 ⟨by decide, by decide⟩

/-- At word 1 they do not: the two words of a wide write go to words 0 and 1. -/
theorem second_not_widthsAgree : ¬ ∀ s : IdePort, s.InBlock → WidthsAgree s := by
  intro hall
  have hin : (portAt 1).InBlock := inBlock_portAt (by decide)
  exact IdeBlock.wide_ne_of_odd rfl rfl ((hall _ hin).access_eq hin 0 1)

end IdeRun

end Z486.Disk
