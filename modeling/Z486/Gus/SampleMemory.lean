/-
The sample memory of the GUS (src/soc/sound/gus/gus_ddr.sv) with DDR3 behind it, against what it stands for: a megabyte
of bytes. The word of DDR3 read last is kept; writes go through to DDR3 and into the kept word, so that a read answered
from it gives what DDR3 holds.
-/
import Z486.Clocked.Bits
import Z486.Clocked.Run
import Z486.Ddr3.Masters
import Z486.Memory.Ddram

namespace Z486.Gus

open Clocked Memory Ddr3

/-! ## A megabyte of bytes -/

abbrev Ram := BitVec 20 → BitVec 8

/-- The bytes that a write is for: that of its address, or both of the word that it lies in. -/
def Owns (r : GusReq) (a : BitVec 20) : Prop :=
  if r.memWord then a.extractLsb' 1 19 = r.memAddr.extractLsb' 1 19 else a = r.memAddr

instance (r : GusReq) (a : BitVec 20) : Decidable (Owns r a) := by
  unfold Owns; infer_instance

namespace Ram

def write (ram : Ram) (r : GusReq) : Ram := fun a =>
  if Owns r a then if r.memWord && a.getLsbD 0 then r.memWdata.extractLsb' 8 8 else r.memWdata.extractLsb' 0 8 else ram a

/-- The word that holds the byte `a`, its even byte first. -/
def word (ram : Ram) (a : BitVec 20) : BitVec 16 := ram (a.extractLsb' 1 19 ++ 1#1) ++ ram (a.extractLsb' 1 19 ++ 0#1)

end Ram

/-! ## The module and DDR3 -/

/-- `gus_ddr` with DDR3: the accepted read that was not answered yet has its word. -/
structure SampleMemory where
  chip : GusDdr
  mem : Bytes
  pending : Option (BitVec 64)

/-- The request of the GF1, the state of the port, whether DDR3 answers the pending read in this clock, and what it
drives otherwise. -/
structure SampleIn where
  reset : Bool
  req : GusReq
  startOk : Bool
  busy : Bool
  answers : Bool
  stray : BitVec 64

namespace SampleMemory

def step (s : SampleMemory) (i : SampleIn) : SampleMemory where
  chip := s.chip.step i.req i.startOk i.busy i.answers (s.pending.getD i.stray) (!i.reset)
  mem :=
    if s.chip.ddrWe && !i.busy then writeWord s.mem s.chip.ddrAddr s.chip.ddrBe s.chip.ddrDin else s.mem
  pending :=
    if s.chip.ddrRd && !i.busy then some (readWord s.mem s.chip.ddrAddr) else if i.answers then none else s.pending

end SampleMemory

/-! ## Where the bytes are -/

def sampleWord (w : BitVec 17) : BitVec 29 := 0x07C00000#29 ||| (0#12 ++ w)

/-- The address in DDR3 of a byte of the sample memory. -/
def sampleAddress (a : BitVec 20) : BitVec 32 := sampleWord (a.extractLsb' 3 17) ++ a.extractLsb' 0 3

/-- The sample memory as it lies in DDR3. -/
def ramOf (mem : Bytes) : Ram := fun a => mem (sampleAddress a)

theorem sampleWord_inj {v w : BitVec 17} : sampleWord v = sampleWord w ↔ v = w := by
  have hlow : ∀ w, (sampleWord w).extractLsb' 0 17 = w := by
    intro w
    unfold sampleWord
    rw [BitVec.extractLsb'_or, BitVec.extractLsb'_append_eq_right]
    exact BitVec.zero_or
  refine ⟨fun h => ?_, fun h => congrArg sampleWord h⟩
  rw [← hlow v, h, hlow]

/-- A byte address is a word and a byte of it. -/
theorem addr_split (a : BitVec 20) : ∃ (w : BitVec 17) (l : BitVec 3), a = w ++ l :=
  ⟨a.extractLsb' 3 17, a.extractLsb' 0 3,
    (BitVec.extractLsb'_append_extractLsb' : a.extractLsb' 3 17 ++ a.extractLsb' 0 3 = a).symm⟩

theorem sampleAddress_append (w : BitVec 17) (l : BitVec 3) : sampleAddress (w ++ l) = sampleWord w ++ l := by
  unfold sampleAddress
  rw [BitVec.extractLsb'_append_eq_left, BitVec.extractLsb'_append_eq_right]

/-! ## What a write writes -/

/-- The bytes of the port that a request enables. -/
theorem ddrBe_lane {s : GusDdr} {w : BitVec 17} {k l : BitVec 3} (ha : s.aR = w ++ k) :
    s.ddrBe.getLsbD l.toNat = if s.wR then decide (l.extractLsb' 1 2 = k.extractLsb' 1 2) else decide (l = k) := by
  have hbits : s.aR.extractLsb' 1 2 = k.extractLsb' 1 2 := by
    rw [ha, BitVec.extractLsb'_append_eq_of_add_le (by decide)]
  have hlow : s.aR.extractLsb' 0 3 = k := by
    rw [ha, BitVec.extractLsb'_append_eq_right]
  unfold GusDdr.ddrBe
  rw [hbits, hlow]
  clear hbits hlow ha
  cases s.wR
  · revert k l; decide
  · revert k l; decide

theorem word_byte (f : BitVec 3 → BitVec 8) (l : BitVec 3) :
    (f 7 ++ f 6 ++ f 5 ++ f 4 ++ f 3 ++ f 2 ++ f 1 ++ f 0).extractLsb' (8 * l.toNat) 8 = f l := by
  rcases lane_cases l with rfl | rfl | rfl | rfl | rfl | rfl | rfl | rfl
  all_goals
    simp (disch := decide) only [BitVec.extractLsb'_append_eq_of_le, BitVec.extractLsb'_append_eq_of_add_le]
  all_goals simp

/-- A byte of a word written four times over. -/
theorem repeated_byte (d : BitVec 16) (l : BitVec 3) : (d ++ d ++ d ++ d).extractLsb' (8 * l.toNat) 8 =
    if l.getLsbD 0 then d.extractLsb' 8 8 else d.extractLsb' 0 8 := by
  rcases lane_cases l with rfl | rfl | rfl | rfl | rfl | rfl | rfl | rfl
  all_goals
    simp (disch := decide) only [BitVec.extractLsb'_append_eq_of_le, BitVec.extractLsb'_append_eq_of_add_le]
  all_goals simp

theorem ddrDin_byte (s : GusDdr) (l : BitVec 3) :
    s.ddrDin.extractLsb' (8 * l.toNat) 8 =
      if s.wR && l.getLsbD 0 then s.dR.extractLsb' 8 8 else s.dR.extractLsb' 0 8 := by
  unfold GusDdr.ddrDin
  cases s.wR with
  | false => exact word_byte (fun _ => s.dR.extractLsb' 0 8) l
  | true => exact repeated_byte s.dR l

theorem byteMerge64_byte (old new : BitVec 64) (be : BitVec 8) (l : BitVec 3) :
    (byteMerge64 old new be).extractLsb' (8 * l.toNat) 8 =
      if be.getLsbD l.toNat then new.extractLsb' (8 * l.toNat) 8 else old.extractLsb' (8 * l.toNat) 8 :=
  word_byte (fun l => if be.getLsbD l.toNat then new.extractLsb' (8 * l.toNat) 8 else old.extractLsb' (8 * l.toNat) 8) l

/-- The word that is written is the one that was there, merged with what is written. -/
theorem readWord_writeWord (mem : Bytes) (a : BitVec 29) (be : BitVec 8) (din : BitVec 64) :
    readWord (writeWord mem a be din) a = byteMerge64 (readWord mem a) din be := by
  apply eq_of_bytes
  intro l
  rw [byteMerge64_byte, readWord_byte, readWord_byte, writeWord_at]
  simp only [true_and]

theorem word16_append (w : BitVec 17) (l : BitVec 3) : (w ++ l).extractLsb' 1 19 = w ++ l.extractLsb' 1 2 := by
  apply BitVec.eq_of_getLsbD_eq
  intro j hj
  simp only [BitVec.getLsbD_append, BitVec.getLsbD_extractLsb']
  by_cases hlow : j < 2
  · simp [hlow, show 1 + j < 3 by omega, hj]
  · simp [hlow, show ¬ 1 + j < 3 by omega, hj, show 1 + j - 3 = j - 2 by omega]

/-- Two bytes are in one sixteen bit word when they differ in the last bit of the lane at most. -/
theorem word16_eq_iff {v w : BitVec 17} {k l : BitVec 3} : (w ++ l).extractLsb' 1 19 = (v ++ k).extractLsb' 1 19 ↔
    w = v ∧ l.extractLsb' 1 2 = k.extractLsb' 1 2 := by
  rw [word16_append, word16_append, append_inj]

/-- The registers of the port hold a request. -/
structure Loaded (s : GusDdr) (r : GusReq) : Prop where
  addr : s.aR = r.memAddr
  data : s.dR = r.memWdata
  word : s.wR = r.memWord

theorem ddrAddr_eq (s : GusDdr) : s.ddrAddr = sampleWord (s.aR.extractLsb' 3 17) := rfl

/-- The bytes that the port writes are those of the request. -/
theorem owns_iff {s : GusDdr} {r : GusReq} (h : Loaded s r) {v w : BitVec 17} {k l : BitVec 3} (hk : s.aR = v ++ k) :
    sampleWord w = s.ddrAddr ∧ s.ddrBe.getLsbD l.toNat = true ↔ Owns r (w ++ l) := by
  unfold Owns
  rw [ddrAddr_eq, sampleWord_inj, ddrBe_lane hk, ← h.word, ← h.addr, hk, BitVec.extractLsb'_append_eq_left]
  cases s.wR with
  | true => simp only [if_true, decide_eq_true_eq, word16_eq_iff]
  | false =>
    simp only [Bool.false_eq_true, if_false, decide_eq_true_eq]
    exact append_inj.symm

/-- What the port writes to DDR3 is the write of the request to the megabyte. -/
theorem ramOf_writeWord {s : GusDdr} {r : GusReq} (h : Loaded s r) (mem : Bytes) :
    ramOf (writeWord mem s.ddrAddr s.ddrBe s.ddrDin) = (ramOf mem).write r := by
  funext a
  obtain ⟨w, l, rfl⟩ := addr_split a
  obtain ⟨v, k, hk⟩ := addr_split s.aR
  have hbit : (w ++ l).getLsbD 0 = l.getLsbD 0 := by
    rw [BitVec.getLsbD_append]
    rfl
  have howns : sampleWord w = s.ddrAddr ∧ s.ddrBe.getLsbD l.toNat = true ↔ Owns r (w ++ l) := owns_iff h hk
  show writeWord mem _ _ _ (sampleAddress (w ++ l)) = if Owns r (w ++ l) then _ else mem (sampleAddress (w ++ l))
  rw [sampleAddress_append, writeWord_at]
  by_cases hown : Owns r (w ++ l)
  · rw [if_pos (howns.2 hown), if_pos hown, ddrDin_byte, h.word, h.data, hbit]
  · rw [if_neg (mt howns.1 hown), if_neg hown]

/-- A byte of DDR3 that a request does not own is not written for it. -/
theorem writeWord_of_not_owns {s : GusDdr} {r : GusReq} (h : Loaded s r) (mem : Bytes) {x : BitVec 32}
    (hx : ∀ a, x = sampleAddress a → ¬ Owns r a) : writeWord mem s.ddrAddr s.ddrBe s.ddrDin x = mem x := by
  obtain ⟨v, k, hk⟩ := addr_split s.aR
  have hsplit : x = x.extractLsb' 3 29 ++ x.extractLsb' 0 3 :=
    (BitVec.extractLsb'_append_extractLsb' : x.extractLsb' 3 29 ++ x.extractLsb' 0 3 = x).symm
  rw [hsplit, writeWord_at]
  refine if_neg fun hand => ?_
  have haddr : x = sampleAddress (v ++ x.extractLsb' 0 3) := by
    rw [sampleAddress_append]
    conv_lhs => rw [hsplit, hand.1, ddrAddr_eq, hk, BitVec.extractLsb'_append_eq_left]
  refine hx _ haddr ((owns_iff h hk).1 ⟨?_, hand.2⟩)
  rw [ddrAddr_eq, hk, BitVec.extractLsb'_append_eq_left]

/-- A word of DDR3 holds the words of the sample memory. -/
theorem lane_readWord (mem : Bytes) (a : BitVec 20) :
    GusDdr.lane a (readWord mem (sampleWord (a.extractLsb' 3 17))) = (ramOf mem).word a := by
  obtain ⟨w, l, rfl⟩ := addr_split a
  have hsplit : ∀ (x : BitVec 64) (n : Nat), x.extractLsb' n 16 = x.extractLsb' (n + 8) 8 ++ x.extractLsb' n 8 := by
    intro x n
    show x.extractLsb' n (8 + 8) = _
    exact (BitVec.extractLsb'_append_extractLsb'_eq_extractLsb' rfl).symm
  have hassoc : ∀ (p : BitVec 2) (b : BitVec 1), (w ++ p) ++ b = w ++ (p ++ b) := by
    intro p b
    rw [BitVec.append_assoc]; rfl
  have hlane : ∀ (p : BitVec 2) (b : BitVec 1), (p ++ b).toNat = 2 * p.toNat + b.toNat := by decide
  have hbits : (w ++ l).extractLsb' 1 2 = l.extractLsb' 1 2 := BitVec.extractLsb'_append_eq_of_add_le (by decide)
  have hbyte : ∀ b : BitVec 1, ramOf mem ((w ++ l).extractLsb' 1 19 ++ b) =
      (readWord mem (sampleWord w)).extractLsb' (8 * (2 * (l.extractLsb' 1 2).toNat + b.toNat)) 8 := by
    intro b
    rw [word16_append, hassoc, ← hlane, readWord_byte]
    exact congrArg mem (sampleAddress_append w _)
  unfold GusDdr.lane Ram.word
  rw [hsplit, hbyte, hbyte, BitVec.extractLsb'_append_eq_left, hbits]
  congr 2
  · show _ = 8 * (2 * (l.extractLsb' 1 2).toNat + 1)
    omega
  · show _ = 8 * (2 * (l.extractLsb' 1 2).toNat + 0)
    omega

end Z486.Gus
