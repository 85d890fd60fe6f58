/-
The queue between the host's clock and the clock of the OPL3 (src/soc/sound/opl3/afifo.v), with two registers for each
crossing and registered reads, as its defaults are. The pointers have one bit more than the slots need, and cross as Gray
codes; the oldest entry waits in an output register of its own.

A step of the model is a moment with an edge of the write clock, of the read clock or of both. A pointer that moves in a
moment in which the other side looks is seen with each changing bit as it was or as it becomes, and the memory gives any
word for a slot that is written in that moment. The runs begin after the reset of both sides.
-/
import Z486.Clocked.Fifo
import Z486.Clocked.Pointers
import Z486.Clocked.Run

namespace Z486.Sound

open Clocked

/-! ## Registers -/

/-- The queue of `2 ^ (1 + n)` slots. -/
structure Afifo (n : Nat) (α : Type*) where
  mem : BitVec (1 + n) → α
  wrAddr : BitVec (2 + n)
  wgray : BitVec (2 + n)
  rgrayCross : BitVec (2 + n)
  wrRgray : BitVec (2 + n)
  rdAddr : BitVec (2 + n)
  rgray : BitVec (2 + n)
  wgrayCross : BitVec (2 + n)
  rdWgray : BitVec (2 + n)
  oRdEmpty : Bool
  oRdData : α

/-- What a moment brings: the clocks that have an edge, `i_wr` with its data and `i_rd`, and what chance decides. -/
structure AfifoEdge (n : Nat) (α : Type*) where
  wclk : Bool
  rclk : Bool
  wr : Option α
  rd : Bool
  rgraySeen : BitVec (2 + n)
  wgraySeen : BitVec (2 + n)
  clash : α

namespace Afifo

variable {n : Nat} {α : Type*} (s : Afifo n α) (i : AfifoEdge n α)

/-! ## A moment -/

/-- `wr_rgray == { ~wgray[MSB:MSB-1], wgray[MSB-2:0] }` -/
def oWrFull : Bool := s.wrRgray == ~~~(s.wgray.extractLsb' n 2) ++ s.wgray.extractLsb' 0 n

def lclRdEmpty : Bool := s.rdWgray == s.rgray

def lclRead : Bool := s.oRdEmpty || i.rd

/-- The entry that is written in a moment. -/
def written : Option α := if i.wclk && !s.oWrFull then i.wr else none

/-- The read pointer goes on. -/
def reads : Bool := i.rclk && (s.lclRead i && !s.lclRdEmpty)

def wrSlot : BitVec (1 + n) := s.wrAddr.setWidth (1 + n)
def rdSlot : BitVec (1 + n) := s.rdAddr.setWidth (1 + n)

def wgrayAfter : BitVec (2 + n) := if (s.written i).isSome then gray (s.wrAddr + 1) else s.wgray
def rgrayAfter : BitVec (2 + n) := if s.reads i then gray (s.rdAddr + 1) else s.rgray

/-- What the memory gives at the read pointer. -/
def lclRdData : α := if (s.written i).isSome && s.wrSlot == s.rdSlot then i.clash else s.mem s.rdSlot

def step : Afifo n α where
  mem := (s.written i).elim s.mem (Function.update s.mem s.wrSlot)
  wrAddr := if (s.written i).isSome then s.wrAddr + 1 else s.wrAddr
  wgray := s.wgrayAfter i
  rgrayCross := if i.wclk then mix i.rgraySeen s.rgray (s.rgrayAfter i) else s.rgrayCross
  wrRgray := if i.wclk then s.rgrayCross else s.wrRgray
  rdAddr := if s.reads i then s.rdAddr + 1 else s.rdAddr
  rgray := s.rgrayAfter i
  wgrayCross := if i.rclk then mix i.wgraySeen s.wgray (s.wgrayAfter i) else s.wgrayCross
  rdWgray := if i.rclk then s.wgrayCross else s.rdWgray
  oRdEmpty := if i.rclk && s.lclRead i then s.lclRdEmpty else s.oRdEmpty
  oRdData := if i.rclk && s.lclRead i then s.lclRdData i else s.oRdData

/-- What the reader takes in a moment. -/
def taken : Option α := if i.rclk && (i.rd && !s.oRdEmpty) then some s.oRdData else none

/-- After the reset; what the memory and the output register hold is unknown. -/
def powerUp (mem : BitVec (1 + n) → α) (oRdData : α) : Afifo n α := ⟨mem, 0, 0, 0, 0, 0, 0, 0, 0, true, oRdData⟩

/-! ## The pointers as counts -/

/-- The queue after `entries` were written, `R` of them read from the memory: each side sees counts of the other's past,
and the last entries stand in their slots. -/
structure Holds (s : Afifo n α) (entries : List α) (R : Nat) : Prop where
  wrAddr : s.wrAddr = BitVec.ofNat (2 + n) entries.length
  wgray : s.wgray = code (2 + n) entries.length
  room : Seen s.rgrayCross s.wrRgray (entries.length - 2 ^ (1 + n)) R
  rdAddr : s.rdAddr = BitVec.ofNat (2 + n) R
  rgray : s.rgray = code (2 + n) R
  view : Seen s.wgrayCross s.rdWgray R entries.length
  mem : ∀ k, k < entries.length → entries.length ≤ k + 2 ^ (1 + n) → entries[k]? = some (s.mem (BitVec.ofNat (1 + n) k))
  out : s.oRdEmpty = false → 0 < R ∧ entries[R - 1]? = some s.oRdData

variable {s i} {entries : List α} {R : Nat}

/-- How many entries the reader has taken: those read, but the one that waits in the output register. -/
def handedOut (s : Afifo n α) (R : Nat) : Nat := R - if s.oRdEmpty then 0 else 1

theorem turn_eq : 2 ^ (2 + n) = 2 * 2 ^ (1 + n) := by
  rw [Nat.pow_add, Nat.pow_add]
  omega

namespace Holds

theorem le (h : s.Holds entries R) : R ≤ entries.length := by
  obtain ⟨n₁, n₂, -, -, hR, hn, hW⟩ := h.view
  omega

theorem length_le (h : s.Holds entries R) : entries.length ≤ R + 2 ^ (1 + n) := by
  obtain ⟨n₁, n₂, -, -, hR, hn, hW⟩ := h.room
  omega

/-- An entry is written only while there is room, by what is seen of the reader. -/
theorem room_written (h : s.Holds entries R) (hnew : (s.written i).isSome = true) :
    Seen s.rgrayCross s.wrRgray (entries.length + 1 - 2 ^ (1 + n)) R := by
  obtain ⟨n₁, n₂, h1, h2, hW, hn, hR⟩ := h.room
  have hfull : s.oWrFull = false := by
    unfold written at hnew
    revert hnew
    cases s.oWrFull with
    | false => exact fun _ => rfl
    | true => rw [Bool.not_true, Bool.and_false]; exact fun hnone => absurd hnone Bool.false_ne_true
  have hle := h.le
  have hturn := turn_eq (n := n)
  refine ⟨n₁, n₂, h1, h2, ?_, hn, hR⟩
  by_contra hnone
  refine ne_true_of_eq_false hfull (beq_iff_eq.2 ?_)
  -- the reader is seen half a turn behind
  rw [h2, h.wgray, ← code_half, show entries.length + 2 ^ (1 + n) = n₂ + 2 ^ (2 + n) by omega, code_turn]

theorem length_lt (h : s.Holds entries R) (hnew : (s.written i).isSome = true) : entries.length < R + 2 ^ (1 + n) := by
  obtain ⟨n₁, n₂, -, -, hW, hn, hR⟩ := h.room_written hnew
  omega

/-- An entry is read only when it is seen to be there. -/
theorem view_read (h : s.Holds entries R) (hread : s.reads i = true) :
    Seen s.wgrayCross s.rdWgray (R + 1) entries.length := by
  obtain ⟨n₁, n₂, h1, h2, hR, hn, hW⟩ := h.view
  unfold reads at hread
  rw [Bool.and_eq_true, Bool.and_eq_true, Bool.not_eq_true', lclRdEmpty, beq_eq_false_iff_ne, h2, h.rgray] at hread
  have hne : n₂ ≠ R := fun heq => hread.2.2 (by rw [heq])
  exact ⟨n₁, n₂, h1, h2, by omega, hn, hW⟩

theorem lt_of_reads (h : s.Holds entries R) (hread : s.reads i = true) : R < entries.length := by
  obtain ⟨n₁, n₂, -, -, hR, hn, hW⟩ := h.view_read hread
  omega

/-- Entries less than a turn of the slots apart have slots of their own. -/
theorem wrSlot_ne (h : s.Holds entries R) {k : Nat} (hlt : k < entries.length) (hclose : entries.length < k + 2 ^ (1 + n)) :
    s.wrSlot ≠ BitVec.ofNat (1 + n) k := by
  unfold wrSlot
  rw [h.wrAddr, BitVec.setWidth_ofNat_of_le (by omega)]
  intro heq
  have := ofNat_inj_of_close (Nat.le_of_lt hlt) hclose heq.symm
  omega

/-- What is read is the oldest entry that was not read. -/
theorem lclRdData_eq (h : s.Holds entries R) (hlt : R < entries.length) : entries[R]? = some (s.lclRdData i) := by
  have hslot : s.rdSlot = BitVec.ofNat (1 + n) R := by
    unfold rdSlot
    rw [h.rdAddr, BitVec.setWidth_ofNat_of_le (by omega)]
  have hno : ((s.written i).isSome && s.wrSlot == s.rdSlot) = false := by
    cases hnew : (s.written i).isSome with
    | false => rfl
    | true =>
      rw [Bool.true_and, hslot, beq_eq_false_iff_ne]
      exact h.wrSlot_ne hlt (h.length_lt hnew)
  unfold lclRdData
  rw [hno, if_neg Bool.false_ne_true, hslot, h.mem R hlt h.length_le]

variable (i)

theorem length_step (entries : List α) :
    (entries ++ (s.written i).toList).length = entries.length + if (s.written i).isSome then 1 else 0 := by
  rw [List.length_append]
  cases s.written i <;> rfl

theorem mem_step (h : s.Holds entries R) {k : Nat} (hk : k < (entries ++ (s.written i).toList).length)
    (hle : (entries ++ (s.written i).toList).length ≤ k + 2 ^ (1 + n)) :
    (entries ++ (s.written i).toList)[k]? = some ((s.step i).mem (BitVec.ofNat (1 + n) k)) := by
  show _ = some ((s.written i).elim s.mem (Function.update s.mem s.wrSlot) (BitVec.ofNat (1 + n) k))
  cases hnew : s.written i with
  | none =>
    rw [hnew, Option.toList_none, List.append_nil] at hk hle
    rw [Option.toList_none, List.append_nil]
    exact h.mem k hk hle
  | some x =>
    have hslot : s.wrSlot = BitVec.ofNat (1 + n) entries.length := by
      unfold wrSlot
      rw [h.wrAddr, BitVec.setWidth_ofNat_of_le (by omega)]
    rw [hnew, Option.toList_some, List.length_append, List.length_singleton] at hk hle
    rw [Option.elim_some, Option.toList_some]
    rcases Nat.lt_or_ge k entries.length with hlt | hge
    · rw [Function.update_of_ne (h.wrSlot_ne hlt (by omega)).symm, List.getElem?_append_left hlt]
      exact h.mem k hlt (by omega)
    · obtain rfl : k = entries.length := by omega
      rw [← hslot, Function.update_self, List.getElem?_append_right (Nat.le_refl _), Nat.sub_self]
      rfl

/-- The pointers' codes after a moment. -/
theorem wgrayAfter_eq (h : s.Holds entries R) :
    s.wgrayAfter i = code (2 + n) (entries ++ (s.written i).toList).length := by
  rw [length_step]
  unfold wgrayAfter
  split
  · rw [h.wrAddr, ← ofNat_succ]
    rfl
  · exact h.wgray

theorem rgrayAfter_eq (h : s.Holds entries R) :
    s.rgrayAfter i = code (2 + n) (R + if s.reads i then 1 else 0) := by
  unfold rgrayAfter
  split
  · rw [h.rdAddr, ← ofNat_succ]
    rfl
  · exact h.rgray

/-- What a side may see of the other's pointer in a moment. -/
theorem rgray_seen (h : s.Holds entries R) :
    ∃ k, mix i.rgraySeen s.rgray (s.rgrayAfter i) = code (2 + n) k ∧ R ≤ k ∧ k ≤ R + if s.reads i then 1 else 0 := by
  rw [h.rgrayAfter_eq, h.rgray]
  refine mix_code _ ?_
  split
  · exact .inr rfl
  · exact .inl rfl

theorem wgray_seen (h : s.Holds entries R) :
    ∃ k, mix i.wgraySeen s.wgray (s.wgrayAfter i) = code (2 + n) k ∧ entries.length ≤ k ∧
      k ≤ (entries ++ (s.written i).toList).length := by
  rw [h.wgrayAfter_eq, h.wgray]
  refine mix_code _ ?_
  rw [length_step]
  split
  · exact .inr rfl
  · exact .inl rfl

/-- What a moment keeps. -/
theorem step (h : s.Holds entries R) :
    (s.step i).Holds (entries ++ (s.written i).toList) (R + if s.reads i then 1 else 0) := by
  have hlen := length_step (s := s) i entries
  refine ⟨?_, h.wgrayAfter_eq i, ?_, ?_, h.rgrayAfter_eq i, ?_, fun k hk hle => h.mem_step i hk hle, fun hout => ?_⟩
  · show (if (s.written i).isSome then s.wrAddr + 1 else s.wrAddr) = _
    rw [hlen]
    split
    · rw [h.wrAddr, ofNat_succ]
    · exact h.wrAddr
  · have hseen := h.rgray_seen i
    show Seen (if i.wclk then _ else s.rgrayCross) (if i.wclk then s.rgrayCross else s.wrRgray) _ _
    cases hwclk : i.wclk with
    | false =>
      have hnone : s.written i = none := by
        unfold written
        rw [hwclk]
        rfl
      rw [hnone, Option.toList_none, List.append_nil]
      exact h.room.mono (Nat.le_add_right R _)
    | true =>
      have hroom : Seen s.rgrayCross s.wrRgray ((entries ++ (s.written i).toList).length - 2 ^ (1 + n)) R := by
        rw [hlen]
        split
        case isTrue hnew => exact h.room_written hnew
        case isFalse => exact h.room
      exact hroom.shift hseen
  · show (if s.reads i then s.rdAddr + 1 else s.rdAddr) = _
    split
    · rw [h.rdAddr, ofNat_succ]
    · exact h.rdAddr
  · have hseen := h.wgray_seen i
    show Seen (if i.rclk then _ else s.wgrayCross) (if i.rclk then s.wgrayCross else s.rdWgray) _ _
    cases hrclk : i.rclk with
    | false =>
      have hstay : s.reads i = false := by
        unfold reads
        rw [hrclk, Bool.false_and]
      rw [hstay]
      exact h.view.mono (by omega)
    | true =>
      have hview : Seen s.wgrayCross s.rdWgray (R + if s.reads i then 1 else 0) entries.length := by
        split
        case isTrue hread => exact h.view_read hread
        case isFalse => exact h.view
      exact hview.shift hseen
  · change (if i.rclk && s.lclRead i then s.lclRdEmpty else s.oRdEmpty) = false at hout
    show _ ∧ _ = some (if i.rclk && s.lclRead i then s.lclRdData i else s.oRdData)
    cases hgo : i.rclk && s.lclRead i with
    | true =>
      rw [hgo, if_pos rfl] at hout
      have hread : s.reads i = true := by
        unfold reads
        rw [← Bool.and_assoc, hgo, hout]
        rfl
      have hlt := h.lt_of_reads hread
      rw [hread, if_pos rfl, if_pos rfl, Nat.add_sub_cancel, List.getElem?_append_left hlt]
      exact ⟨Nat.succ_pos R, h.lclRdData_eq hlt⟩
    | false =>
      have hstay : s.reads i = false := by
        unfold reads
        rw [← Bool.and_assoc, hgo, Bool.false_and]
      rw [hgo, if_neg Bool.false_ne_true] at hout
      obtain ⟨hpos, hold⟩ := h.out hout
      have hle := h.le
      rw [hstay, if_neg Bool.false_ne_true, if_neg Bool.false_ne_true, Nat.add_zero, List.getElem?_append_left (by omega)]
      exact ⟨hpos, hold⟩

/-- When it looks full, as many entries as there are slots were unread in a moment before. -/
theorem full_iff (h : s.Holds entries R) :
    s.oWrFull = true ↔ s.wrRgray = code (2 + n) (entries.length - 2 ^ (1 + n)) ∧ 2 ^ (1 + n) ≤ entries.length := by
  obtain ⟨n₁, n₂, -, h2, hW, hn, hR⟩ := h.room
  have hle := h.le
  have hturn := turn_eq (n := n)
  have hpos := Nat.two_pow_pos (1 + n)
  unfold oWrFull
  rw [beq_iff_eq, h.wgray, ← code_half, h2]
  constructor
  · intro heq
    have hsame : entries.length + 2 ^ (1 + n) = n₂ + 2 ^ (2 + n) := by
      by_contra hne
      have := code_inj_of_close (show n₂ ≤ entries.length + 2 ^ (1 + n) by omega) (by omega) heq
      omega
    rw [show entries.length - 2 ^ (1 + n) = n₂ by omega]
    exact ⟨rfl, by omega⟩
  · rintro ⟨heq, hlong⟩
    rw [heq, ← code_turn]
    congr 1
    omega

/-! ## The output register -/

theorem handedOut_step (h : s.Holds entries R) :
    (s.step i).handedOut (R + if s.reads i then 1 else 0) = s.handedOut R + (s.taken i).toList.length ∧
      (s.taken i).toList = (entries.drop (s.handedOut R)).take (s.taken i).toList.length := by
  have hempty : (s.step i).oRdEmpty = if i.rclk && s.lclRead i then s.lclRdEmpty else s.oRdEmpty := rfl
  unfold handedOut taken
  rw [hempty]
  cases hout : s.oRdEmpty with
  | true =>
    unfold reads lclRead
    rw [hout]
    cases i.rclk <;> cases s.lclRdEmpty <;> simp
  | false =>
    obtain ⟨hpos, hold⟩ := h.out hout
    have hhead : [s.oRdData] = (entries.drop (R - 1)).take 1 := by
      rw [List.take_one, List.head?_drop, hold]
      rfl
    unfold reads lclRead
    rw [hout]
    cases i.rclk <;> cases i.rd <;> cases s.lclRdEmpty <;> simp
    all_goals exact ⟨(Nat.sub_add_cancel hpos).symm, hhead⟩

end Holds

/-! ## Progress -/

/-- After `c` edges of the read clock the first `W` entries are on their way: the reader sees them, then reads one with
each edge, and hands out the last. -/
structure Delivers (s : Afifo n α) (W R c : Nat) : Prop where
  first : 1 ≤ c → ∃ k, s.wgrayCross = code (2 + n) k ∧ W ≤ k ∧ k ≤ R + 2 ^ (1 + n)
  second : 2 ≤ c → ∃ k, s.rdWgray = code (2 + n) k ∧ W ≤ k ∧ k ≤ R + 2 ^ (1 + n)
  read : W ≤ R + min (2 ^ (1 + n)) (2 ^ (1 + n) + 2 - c)
  out : 2 ^ (1 + n) + 3 ≤ c → W ≤ s.handedOut R

section Progress

variable {W c : Nat} (h : s.Holds entries R) (hW : W ≤ entries.length) (hd : s.Delivers W R c)
include h hW hd

/-- An edge at which the reader takes what is there. -/
theorem Delivers.edge (hrclk : i.rclk = true) (htakes : s.oRdEmpty = false → i.rd = true) :
    (s.step i).Delivers W (R + if s.reads i then 1 else 0) (c + 1) := by
  have hpos := Nat.two_pow_pos (1 + n)
  have hread : s.lclRead i = true := by
    unfold lclRead
    cases hout : s.oRdEmpty with
    | true => rfl
    | false => exact htakes hout
  refine ⟨fun _ => ?_, fun hlate => ?_, ?_, fun hlate => ?_⟩
  · obtain ⟨k, hk, hle, hle'⟩ := h.wgray_seen i
    have hlen := (h.step i).length_le
    refine ⟨k, ?_, hW.trans hle, hle'.trans hlen⟩
    show (if i.rclk then _ else _) = _
    rw [hrclk, if_pos rfl, hk]
  · obtain ⟨k, hk, hle, hle'⟩ := hd.first (by omega)
    refine ⟨k, ?_, hle, by omega⟩
    show (if i.rclk then s.wgrayCross else _) = _
    rw [hrclk, if_pos rfl, hk]
  · have hbefore := hd.read
    by_cases hdone : W ≤ R
    · omega
    · by_cases hearly : c < 2
      · omega
      · have hgo : s.reads i = true := by
          obtain ⟨k, hk, hle, hle'⟩ := hd.second (by omega)
          have hturn := turn_eq (n := n)
          have hmore : s.lclRdEmpty = false := by
            refine beq_eq_false_iff_ne.2 fun heq => ?_
            rw [hk, h.rgray] at heq
            have := code_inj_of_close (show R ≤ k by omega) (by omega) heq.symm
            omega
          unfold reads
          rw [hrclk, hread, hmore]
          rfl
        rw [hgo, if_pos rfl]
        omega
  · obtain ⟨hcount, -⟩ := h.handedOut_step i
    have hall := hd.read
    rw [hcount]
    unfold handedOut taken
    cases hout : s.oRdEmpty with
    | true => rw [if_pos rfl]; omega
    | false =>
      rw [hrclk, htakes hout, if_neg Bool.false_ne_true]
      show W ≤ R - 1 + 1
      omega

omit h hW in
theorem Delivers.rest (hrclk : i.rclk = false) : (s.step i).Delivers W (R + if s.reads i then 1 else 0) c := by
  have hstay : s.reads i = false := by
    unfold reads
    rw [hrclk, Bool.false_and]
  have hcross : (s.step i).wgrayCross = s.wgrayCross ∧ (s.step i).rdWgray = s.rdWgray ∧
      (s.step i).oRdEmpty = s.oRdEmpty := by
    refine ⟨?_, ?_, ?_⟩
    · show (if i.rclk then _ else _) = _
      rw [hrclk, if_neg Bool.false_ne_true]
    · show (if i.rclk then _ else _) = _
      rw [hrclk, if_neg Bool.false_ne_true]
    · show (if i.rclk && _ then _ else _) = _
      rw [hrclk, Bool.false_and, if_neg Bool.false_ne_true]
  rw [hstay, if_neg Bool.false_ne_true, Nat.add_zero]
  refine ⟨?_, ?_, hd.read, ?_⟩
  · rw [hcross.1]
    exact hd.first
  · rw [hcross.2.1]
    exact hd.second
  · unfold handedOut
    rw [hcross.2.2]
    exact hd.out

end Progress

theorem powerUp_holds (mem : BitVec (1 + n) → α) (oRdData : α) : (powerUp mem oRdData).Holds [] 0 := by
  have hzero : (0 : BitVec (2 + n)) = code (2 + n) 0 := by
    unfold code gray
    simp
  have hseen : Seen (0 : BitVec (2 + n)) 0 0 0 := ⟨0, 0, hzero, hzero, Nat.le_refl 0, Nat.le_refl 0, Nat.le_refl 0⟩
  refine ⟨rfl, hzero, ?_, rfl, hzero, hseen, fun k hk => absurd hk (Nat.not_lt_zero k), fun hout => absurd hout nofun⟩
  rw [List.length_nil, Nat.zero_sub]
  exact hseen

end Afifo

/-! ## Runs -/

/-- The two clocks from the reset on, with any edges and any inputs at them. -/
structure AfifoRun (n : Nat) (α : Type*) where
  mem : BitVec (1 + n) → α
  oRdData : α
  edges : Nat → AfifoEdge n α

namespace AfifoRun

variable {n : Nat} {α : Type*} (r : AfifoRun n α)

def state : Nat → Afifo n α := run Afifo.step (Afifo.powerUp r.mem r.oRdData) r.edges

/-- The entries written before moment `t`, and those that the reader has taken. -/
def written (t : Nat) : List α := journal (fun u => ((r.state u).written (r.edges u)).toList) t

def taken (t : Nat) : List α := journal (fun u => ((r.state u).taken (r.edges u)).toList) t

/-- The entries read from the memory before moment `t`. -/
def position (t : Nat) : Nat := pulses (fun u => (r.state u).reads (r.edges u)) 0 t

theorem holds (t : Nat) : (r.state t).Holds (r.written t) (r.position t) := by
  induction t with
  | zero =>
    unfold position
    rw [pulses_self]
    exact Afifo.powerUp_holds _ _
  | succ t ih =>
    have hstep := ih.step (r.edges t)
    unfold written position at *
    rw [journal_succ, pulses_succ _ (Nat.zero_le t)]
    exact hstep

/-- What the reader takes is what was written, in order. -/
theorem taken_eq (t : Nat) : r.taken t = (r.written t).take ((r.state t).handedOut (r.position t)) := by
  induction t with
  | zero => rfl
  | succ t ih =>
    obtain ⟨hcount, hlist⟩ := (r.holds t).handedOut_step (r.edges t)
    have hle := (r.holds t).le
    have hsub : (r.state t).handedOut (r.position t) ≤ (r.written t).length := (Nat.sub_le _ _).trans hle
    have hposition : r.position (t + 1) = r.position t + if (r.state t).reads (r.edges t) then 1 else 0 :=
      pulses_succ _ (Nat.zero_le t)
    have hwritten : r.written (t + 1) = r.written t ++ ((r.state t).written (r.edges t)).toList := journal_succ _ t
    have htaken : r.taken (t + 1) = r.taken t ++ ((r.state t).taken (r.edges t)).toList := journal_succ _ t
    have hstate : r.state (t + 1) = (r.state t).step (r.edges t) := rfl
    have hroom : (r.state t).handedOut (r.position t) + ((r.state t).taken (r.edges t)).toList.length ≤
        (r.written t).length := by
      have hlength := congrArg List.length hlist
      rw [List.length_take, List.length_drop] at hlength
      omega
    rw [htaken, ih, hstate, hposition, hcount, hwritten, List.take_append_of_le_length hroom, List.take_add, ← hlist]

/-- Nothing is lost, doubled or out of order, and no more waits than the slots and the output register hold. -/
theorem order (t : Nat) :
    r.taken t <+: r.written t ∧ (r.written t).length ≤ (r.taken t).length + 2 ^ (1 + n) + 1 := by
  have h := r.holds t
  have hle := h.length_le
  have hR := h.le
  rw [r.taken_eq]
  refine ⟨List.take_prefix _ _, ?_⟩
  rw [List.length_take]
  unfold Afifo.handedOut
  split <;> omega

/-- When the reader takes what is there, all that was written is taken by as many edges of its clock as there are slots,
and three more. -/
theorem delivers_within (htakes : ∀ u, (r.edges u).rclk = true → (r.state u).oRdEmpty = false → (r.edges u).rd = true)
    {t u : Nat} (htu : t ≤ u) (hedges : 2 ^ (1 + n) + 3 ≤ pulses (fun v => (r.edges v).rclk) t u) : r.written t <+: r.taken u := by
  have hmono : ∀ v, t ≤ v → r.written t <+: r.written v := fun v hv => journal_mono _ hv
  have hdelivers : ∀ v, t ≤ v → (r.state v).Delivers (r.written t).length (r.position v)
      (pulses (fun v => (r.edges v).rclk) t v) := by
    intro v hv
    induction v, hv using Nat.le_induction with
    | base =>
      rw [pulses_self]
      have hlen := (r.holds t).length_le
      have hpos := Nat.two_pow_pos (1 + n)
      exact ⟨fun hnone => absurd hnone (by decide), fun hnone => absurd hnone (by decide), by omega,
        fun hnone => absurd hnone (by omega)⟩
    | succ v hv ih =>
      have hposition : r.position (v + 1) = r.position v + if (r.state v).reads (r.edges v) then 1 else 0 :=
        pulses_succ _ (Nat.zero_le v)
      have hstate : r.state (v + 1) = (r.state v).step (r.edges v) := rfl
      rw [hposition, hstate, pulses_succ _ hv]
      cases hrclk : (r.edges v).rclk with
      | true => exact ih.edge (r.holds v) (hmono v hv).length_le hrclk (htakes v hrclk)
      | false => exact ih.rest hrclk
  have hout := (hdelivers u htu).out hedges
  rw [r.taken_eq]
  exact List.prefix_of_prefix_length_le (hmono u htu) (List.take_prefix _ _) (by
    rw [List.length_take]
    exact Nat.le_min.2 ⟨hout, (hmono u htu).length_le⟩)

/-! ## What the writer sees of the reader -/

/-- The moments at which the writer's two registers saw the read pointer, `u₁` in the first and `u₂` in the second. -/
structure Sees (t u₁ u₂ : Nat) : Prop where
  before : u₂ ≤ u₁
  past : u₁ ≤ t
  first : (r.state t).rgrayCross = code (2 + n) (r.position u₁)
  second : (r.state t).wrRgray = code (2 + n) (r.position u₂)
  age : pulses (fun v => (r.edges v).wclk) u₁ t ≤ 1
  age₂ : pulses (fun v => (r.edges v).wclk) u₂ t ≤ 2
  room : (r.written t).length ≤ r.position u₂ + 2 ^ (1 + n)

theorem position_mono {u v : Nat} (h : u ≤ v) : r.position u ≤ r.position v := by
  unfold position
  rw [pulses_add _ (Nat.zero_le u) h]
  exact Nat.le_add_right _ _

namespace Sees

variable {r} {t u₁ u₂ : Nat} (h : r.Sees t u₁ u₂)
include h

theorem second_of_code {k : Nat} (hk : (r.state t).wrRgray = code (2 + n) k) (hle : k ≤ r.position t)
    (hroom : (r.written t).length ≤ k + 2 ^ (1 + n)) : r.position u₂ = k := by
  have hturn := Afifo.turn_eq (n := n)
  have hpos := Nat.two_pow_pos (1 + n)
  have hR := (r.holds t).le
  have hseen := r.position_mono (h.before.trans h.past)
  have hold := h.room
  have heq := h.second.symm.trans hk
  rcases Nat.le_total (r.position u₂) k with hmore | hless
  · exact code_inj_of_close hmore (by omega) heq
  · exact (code_inj_of_close hless (by omega) heq.symm).symm

/-- There is room for the entry that is written, by what the second register says. -/
theorem room_next : (r.written (t + 1)).length ≤ r.position u₂ + 2 ^ (1 + n) := by
  have hwritten : r.written (t + 1) = r.written t ++ ((r.state t).written (r.edges t)).toList := journal_succ _ t
  rw [hwritten, Afifo.Holds.length_step]
  split
  case isTrue hnew =>
    obtain ⟨n₁, n₂, -, h2, hlo, hn, hhi⟩ := (r.holds t).room_written hnew
    have hsame := h.second_of_code h2 (hn.trans hhi) (by omega)
    omega
  case isFalse => exact h.room

/-- An edge of the writer's clock takes the read pointer over, as it was before a read or after it. -/
theorem edge (hwclk : (r.edges t).wclk = true) : ∃ u, r.Sees (t + 1) u u₁ := by
  have hposition : r.position (t + 1) = r.position t + if (r.state t).reads (r.edges t) then 1 else 0 :=
    pulses_succ _ (Nat.zero_le t)
  have hcross : (r.state (t + 1)).rgrayCross =
      mix (r.edges t).rgraySeen (r.state t).rgray ((r.state t).rgrayAfter (r.edges t)) := by
    show (if (r.edges t).wclk then _ else _) = _
    rw [hwclk, if_pos rfl]
    rfl
  have hsecond : (r.state (t + 1)).wrRgray = (r.state t).rgrayCross := by
    show (if (r.edges t).wclk then _ else _) = _
    rw [hwclk, if_pos rfl]
    rfl
  have hnew : pulses (fun v => (r.edges v).wclk) t (t + 1) = 1 := by
    rw [pulses_succ _ (Nat.le_refl t), pulses_self, hwclk, if_pos rfl]
  have hage : pulses (fun v => (r.edges v).wclk) u₁ (t + 1) ≤ 2 := by
    have hyoung := h.age
    rw [pulses_add _ h.past (Nat.le_succ t), hnew]
    omega
  have hroom : (r.written (t + 1)).length ≤ r.position u₁ + 2 ^ (1 + n) :=
    h.room_next.trans (Nat.add_le_add_right (r.position_mono h.before) _)
  obtain ⟨k, hk, hlow, hhigh⟩ := (r.holds t).rgray_seen (r.edges t)
  rw [← hposition] at hhigh
  rcases (by split at hposition <;> omega : k = r.position t ∨ k = r.position (t + 1)) with rfl | rfl
  · exact ⟨t, h.past, Nat.le_succ t, hcross.trans hk, hsecond.trans h.first, Nat.le_of_eq hnew, hage, hroom⟩
  · exact ⟨t + 1, Nat.le_succ_of_le h.past, Nat.le_refl _, hcross.trans hk, hsecond.trans h.first,
      by rw [pulses_self]; exact Nat.zero_le 1, hage, hroom⟩

theorem rest (hwclk : (r.edges t).wclk = false) : r.Sees (t + 1) u₁ u₂ := by
  have hcross : (r.state (t + 1)).rgrayCross = (r.state t).rgrayCross ∧ (r.state (t + 1)).wrRgray = (r.state t).wrRgray := by
    constructor
    · show (if (r.edges t).wclk then _ else _) = _
      rw [hwclk, if_neg Bool.false_ne_true]
      rfl
    · show (if (r.edges t).wclk then _ else _) = _
      rw [hwclk, if_neg Bool.false_ne_true]
      rfl
  have hage : ∀ u, u ≤ t → pulses (fun v => (r.edges v).wclk) u (t + 1) = pulses (fun v => (r.edges v).wclk) u t := by
    intro u hu
    rw [pulses_succ _ hu, hwclk, if_neg Bool.false_ne_true, Nat.add_zero]
  exact ⟨h.before, Nat.le_succ_of_le h.past, hcross.1.trans h.first, hcross.2.trans h.second,
    (hage u₁ h.past).trans_le h.age, (hage u₂ (h.before.trans h.past)).trans_le h.age₂, h.room_next⟩

end Sees

theorem sees (t : Nat) : ∃ u₁ u₂, r.Sees t u₁ u₂ := by
  induction t with
  | zero =>
    have hzero : (0 : BitVec (2 + n)) = code (2 + n) (r.position 0) := by
      unfold position code gray
      simp
    exact ⟨0, 0, Nat.le_refl 0, Nat.le_refl 0, hzero, hzero, by rw [pulses_self]; exact Nat.zero_le 1,
      by rw [pulses_self]; exact Nat.zero_le 2, Nat.zero_le _⟩
  | succ t ih =>
    obtain ⟨u₁, u₂, h⟩ := ih
    cases hwclk : (r.edges t).wclk with
    | true =>
      obtain ⟨u, hnext⟩ := h.edge hwclk
      exact ⟨u, u₁, hnext⟩
    | false => exact ⟨u₁, u₂, h.rest hwclk⟩

/-- The queue looks full only when its slots held unread entries two edges of the writer's clock ago, or less. -/
theorem full_since {t : Nat} (hfull : (r.state t).oWrFull = true) :
    ∃ u, u ≤ t ∧ pulses (fun v => (r.edges v).wclk) u t ≤ 2 ∧ r.position u + 2 ^ (1 + n) = (r.written t).length := by
  obtain ⟨u₁, u₂, h⟩ := r.sees t
  obtain ⟨hcode, hlong⟩ := (r.holds t).full_iff.1 hfull
  have hroom := (r.holds t).length_le
  have hsame := h.second_of_code hcode (by omega) (by omega)
  exact ⟨u₂, h.before.trans h.past, h.age₂, by omega⟩

end AfifoRun

end Z486.Sound
