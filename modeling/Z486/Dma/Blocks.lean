/-
The blocks of a DMA channel. Abstractly a block is a walk over consecutive addresses with a count that runs down; at the
end of the count the block is over, or begins again from its base. The registers of a channel follow the walk with each
transfer, as long as the processor leaves them alone.
-/
import Mathlib.Data.Nat.ModEq
import Z486.Dma.TerminalCount

namespace Z486.Dma

/-! ## Walks -/

@[ext] structure Block where
  address : BitVec 16
  count : BitVec 16

namespace Block

/-- The `n`-th address from `address` on, in the direction of the channel. -/
def walk (dec : Bool) (address : BitVec 16) (n : Nat) : BitVec 16 :=
  if dec then address - BitVec.ofNat 16 n else address + BitVec.ofNat 16 n

/-- What a transfer makes of a block that began as `base`. -/
def next (dec auto : Bool) (base b : Block) : Block :=
  if auto && b.count == 0 then base
  else ⟨if dec then b.address - 1 else b.address + 1, b.count - 1⟩

/-- The transfers of the walk that is going on, `m` transfers after the beginning. -/
def walked (auto : Bool) (base : Block) (m : Nat) : Nat := if auto then m % (base.count.toNat + 1) else m

/-- The block `m` transfers after its beginning. -/
def after (dec auto : Bool) (base : Block) (m : Nat) : Block where
  address := walk dec base.address (walked auto base m)
  count := base.count - BitVec.ofNat 16 (walked auto base m)

/-- The terminal counts of the first `m` transfers. -/
def terminals (auto : Bool) (base : Block) (m : Nat) : Nat :=
  if auto then m / (base.count.toNat + 1) else if m = base.count.toNat + 1 then 1 else 0

variable {dec auto : Bool} {base : Block} {m : Nat}

theorem walk_zero (address : BitVec 16) : walk dec address 0 = address := by
  cases dec <;> simp [walk]

theorem walk_succ (address : BitVec 16) (n : Nat) :
    walk dec address (n + 1) = if dec then walk dec address n - 1 else walk dec address n + 1 := by
  cases dec with
  | true =>
    simp only [walk, if_true, BitVec.ofNat_add]
    grind
  | false =>
    simp only [walk, Bool.false_eq_true, if_false, BitVec.ofNat_add]
    grind

theorem after_zero : after dec auto base 0 = base := by
  have hzero : walked auto base 0 = 0 := by
    cases auto <;> simp [walked]
  ext1
  · show walk dec base.address (walked auto base 0) = _
    rw [hzero, walk_zero]
  · show base.count - BitVec.ofNat 16 (walked auto base 0) = _
    rw [hzero]
    simp

/-- The count is at zero in the last transfer of a walk. -/
theorem count_after (hle : walked auto base m ≤ base.count.toNat) :
    (after dec auto base m).count = 0 ↔ walked auto base m = base.count.toNat := by
  have hbase := base.count.isLt
  show base.count - BitVec.ofNat 16 (walked auto base m) = 0 ↔ _
  rw [← BitVec.toNat_inj, BitVec.toNat_sub, BitVec.toNat_ofNat]
  show (_ + _) % 65536 = 0 ↔ _
  omega

theorem walked_le (h : auto = true ∨ m ≤ base.count.toNat) : walked auto base m ≤ base.count.toNat := by
  unfold walked
  split_ifs with hauto
  · exact Nat.le_of_lt_succ (Nat.mod_lt _ (Nat.succ_pos _))
  · exact h.resolve_left hauto

/-- The walk after the next transfer: it begins again, or is one further. -/
theorem walked_succ : walked auto base (m + 1) =
    if auto = true ∧ walked auto base m = base.count.toNat then 0 else walked auto base m + 1 := by
  unfold walked
  cases auto with
  | false => simp
  | true =>
    simp only [if_true, true_and]
    split_ifs with hlast
    · exact Nat.succ_mod_succ_eq_zero_iff.2 hlast
    · rw [Nat.add_mod_eq_ite, Nat.mod_eq_of_lt (show 1 < base.count.toNat + 1 by
        by_contra hzero
        exact hlast (by rw [show base.count.toNat = 0 by omega]; exact Nat.mod_one m))]
      have hlt := Nat.mod_lt m (show base.count.toNat + 1 > 0 by omega)
      exact if_neg (by omega)

/-- A transfer goes on along the walk. -/
theorem next_after (h : auto = true ∨ m ≤ base.count.toNat) :
    next dec auto base (after dec auto base m) = after dec auto base (m + 1) := by
  have hcount : (after dec auto base m).count = 0 ↔ _ := count_after (walked_le h)
  have hends : (auto && (after dec auto base m).count == 0) = true ↔
      auto = true ∧ walked auto base m = base.count.toNat := by
    rw [Bool.and_eq_true, beq_iff_eq, hcount]
  unfold next
  by_cases hlast : auto = true ∧ walked auto base m = base.count.toNat
  · have hzero : walked auto base (m + 1) = 0 := by rw [walked_succ, if_pos hlast]
    rw [if_pos (hends.2 hlast)]
    ext1
    · show _ = walk dec base.address (walked auto base (m + 1))
      rw [hzero, walk_zero]
    · show _ = base.count - BitVec.ofNat 16 (walked auto base (m + 1))
      rw [hzero]
      simp
  · have hone : walked auto base (m + 1) = walked auto base m + 1 := by rw [walked_succ, if_neg hlast]
    rw [if_neg fun he => hlast (hends.1 he)]
    ext1
    · show _ = walk dec base.address (walked auto base (m + 1))
      rw [hone, walk_succ]
      rfl
    · show base.count - BitVec.ofNat 16 (walked auto base m) - 1 =
        base.count - BitVec.ofNat 16 (walked auto base (m + 1))
      rw [hone, BitVec.ofNat_add]
      grind

theorem terminals_zero : terminals auto base 0 = 0 := by
  unfold terminals
  cases auto <;> simp

/-- The transfer at the end of a walk has a terminal count. -/
theorem terminals_succ (h : auto = true ∨ m ≤ base.count.toNat) : terminals auto base (m + 1) =
    terminals auto base m + if walked auto base m = base.count.toNat then 1 else 0 := by
  unfold terminals walked
  cases auto with
  | false =>
    have hle := h.resolve_left Bool.false_ne_true
    simp only [Bool.false_eq_true, if_false]
    split_ifs <;> omega
  | true =>
    simp only [if_true]
    rw [Nat.succ_div]
    simp only [Nat.dvd_iff_mod_eq_zero, Nat.succ_mod_succ_eq_zero_iff]

end Block

/-! ## The registers of a channel -/

namespace I8237

variable {s : I8237} {j : I8237In} {c : Fin 4}

/-- The processor writes none of the programmed registers of the channel. -/
structure Untouched (j : I8237In) (c : Fin 4) : Prop where
  running : j.rstN = true
  address : writesAddress j c = false
  counter : writesCounter j c = false
  mode : writesMode j c = false

def current (s : I8237) (c : Fin 4) : Block := ⟨s.currentAddress c, s.currentCounter c⟩

def base (s : I8237) (c : Fin 4) : Block := ⟨s.baseAddress c, s.baseCounter c⟩

/-- A transfer of the channel is at its end. -/
def updates (s : I8237) (c : Fin 4) : Bool := s.update && s.active == c

theorem tc_eq : s.tc c = (s.updates c && (s.current c).count == 0) := by
  unfold tc actTc updates actCounter current
  by_cases hactive : s.active = c
  · subst hactive
    simp
  · rw [beq_false_of_ne hactive]
    simp

namespace Untouched

variable (h : Untouched j c)
include h

theorem base_step : (s.step j).base c = s.base c := by
  ext1
  · show (if !j.rstN then 0 else if writesAddress j c then s.writeByte j (s.baseAddress c) else s.baseAddress c) = _
    rw [h.running, h.address]
    rfl
  · show (if !j.rstN then 0 else if writesCounter j c then s.writeByte j (s.baseCounter c) else s.baseCounter c) = _
    rw [h.running, h.counter]
    rfl

theorem dec_step : (s.step j).dec c = s.dec c := by
  show (if !j.rstN then false else if writesMode j c then j.writedata.getLsbD 5 else s.dec c) = _
  rw [h.running, h.mode]
  rfl

theorem auto_step : (s.step j).auto c = s.auto c := by
  show (if !j.rstN then false else if writesMode j c then j.writedata.getLsbD 4 else s.auto c) = _
  rw [h.running, h.mode]
  rfl

/-- A transfer takes the registers along the block. -/
theorem current_step : (s.step j).current c =
    if s.updates c then Block.next (s.dec c) (s.auto c) (s.base c) (s.current c) else s.current c := by
  have haddress : (s.step j).currentAddress c = if s.tc c && s.auto c then s.baseAddress c
      else if s.updates c then s.actAddressNext else s.currentAddress c := by
    show (if !j.rstN then 0 else if writesAddress j c then s.writeByte j (s.currentAddress c) else _) = _
    rw [h.running, h.address]
    rfl
  have hcounter : (s.step j).currentCounter c = if s.tc c && s.auto c then s.baseCounter c
      else if s.updates c then s.actCounter - 1 else s.currentCounter c := by
    show (if !j.rstN then 0 else if writesCounter j c then s.writeByte j (s.currentCounter c) else _) = _
    rw [h.running, h.counter]
    rfl
  rw [tc_eq] at haddress hcounter
  cases hup : s.updates c with
  | false =>
    rw [hup] at haddress hcounter
    ext1
    · exact haddress
    · exact hcounter
  | true =>
    have hactive : s.active = c := by
      unfold updates at hup
      simpa using (Bool.and_eq_true_iff.1 hup).2
    rw [hup, Bool.true_and, Bool.and_comm] at haddress hcounter
    rw [if_pos rfl, Block.next]
    subst hactive
    cases hlast : (s.auto s.active && (s.current s.active).count == 0) with
    | true =>
      rw [hlast] at haddress hcounter
      ext1
      · exact haddress
      · exact hcounter
    | false =>
      rw [hlast] at haddress hcounter
      ext1
      · exact haddress
      · exact hcounter

end Untouched

end I8237

end Z486.Dma
