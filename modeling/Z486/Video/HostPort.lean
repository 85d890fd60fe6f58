/-
The host memory port of the VGA (src/soc/vga.v): address decode, the byte write path (chain 4,
set/reset, rotate, logic function, bit mask, map mask, latches), the single-cycle dword write and
the four plane RAMs, 64 KiB each. Where the VGA allows the dword write, it stores what four byte
writes store.
-/
import Z486.Clocked.Bits
import Mathlib.Tactic.Common

namespace Z486.Video

/-! ## Registers and ports -/

/-- The VGA registers the host memory port reads. They change on I/O accesses only. -/
structure VgaRegs where
  generalEnableRam : Bool
  generalOddEvenPage : Bool
  seqMapWriteEnable : BitVec 4
  seqAccessOddEvenDisabled : Bool
  seqAccessChain4 : Bool
  segRd : BitVec 6
  segWr : BitVec 6
  graphWriteSetMap : BitVec 4
  graphWriteEnableMap : BitVec 4
  graphWriteFunction : BitVec 2
  graphWriteRotate : BitVec 3
  graphWriteMask : BitVec 8
  graphWriteMode : BitVec 2
  graphSystemMemory : BitVec 2

/-- The memory port in one clock. -/
structure HostIn where
  memAddress : BitVec 17
  memRead : Bool
  memWrite : Bool
  memWritedata : BitVec 8
  memWriteDword : Bool
  memWritedataDword : BitVec 32

/-- The plane RAMs with the registers of the port's read side: `host_ram_q` is the RAMs' output
register and `host_ram_reg` the latches. -/
structure HostPort where
  planes : Fin 4 → BitVec 16 → BitVec 8
  hostRamQ : Fin 4 → BitVec 8
  hostRamReg : Fin 4 → BitVec 8
  hostReadLast : Bool
  memReadLast : Bool

namespace VgaRegs

variable (r : VgaRegs) (i : HostIn) (latch : Fin 4 → BitVec 8)

/-! ## Memory addressing -/

def hostMemoryOutOfBoundsMask : BitVec 2 :=
  BitVec.ofBool (r.graphSystemMemory != 0) ++ BitVec.ofBool (r.graphSystemMemory.getLsbD 1)

def hostMemoryOutOfBounds : Bool :=
  ((i.memAddress.extractLsb' 15 2 ^^^ r.graphSystemMemory) &&& r.hostMemoryOutOfBoundsMask) != 0

def hostAddressReduced : BitVec 17 :=
  (~~~r.hostMemoryOutOfBoundsMask &&& i.memAddress.extractLsb' 15 2) ++ i.memAddress.extractLsb' 0 15

def hostWrite : Bool := (i.memWrite || i.memWriteDword) && !r.hostMemoryOutOfBounds i

def hostAddress : BitVec 16 :=
  if r.seqAccessChain4 then
    (r.hostAddressReduced i).extractLsb' 2 14 ++ (if r.hostWrite i then r.segWr else r.segRd).extractLsb' 0 2
  else if !r.seqAccessOddEvenDisabled then
    (r.hostAddressReduced i).extractLsb' 1 15 ++ BitVec.ofBool (!r.generalOddEvenPage)
  else (r.hostAddressReduced i).extractLsb' 0 16

/-! ## Memory write -/

def hostWritedataRotate : BitVec 8 :=
  i.memWritedata <<< (8 - r.graphWriteRotate.toNat) ||| i.memWritedata >>> r.graphWriteRotate.toNat

def hostWriteMode3Mask : BitVec 8 := r.hostWritedataRotate i &&& r.graphWriteMask

/-- `{8{b}}` -/
def fill (b : Bool) : BitVec 8 := if b then 0xFF else 0

def hostWriteSet (plane : Fin 4) : BitVec 8 :=
  if r.graphWriteMode.getLsbD 1 then fill (i.memWritedata.getLsbD plane)
  else if r.graphWriteEnableMap.getLsbD plane then fill (r.graphWriteSetMap.getLsbD plane)
  else r.hostWritedataRotate i

/-- Byte `k` of a dword. -/
def byteOf (d : BitVec 32) (k : Fin 4) : BitVec 8 := d.extractLsb' (8 * k) 8

def hostWritedata (plane : Fin 4) : BitVec 8 :=
  if i.memWriteDword then byteOf i.memWritedataDword plane
  else if !r.graphWriteMode.getLsbD 0 then
    if r.graphWriteFunction == 0 then
      (r.hostWriteSet i plane &&& r.graphWriteMask) ||| (latch plane &&& ~~~r.graphWriteMask)
    else if r.graphWriteFunction == 1 then
      (r.hostWriteSet i plane ||| ~~~r.graphWriteMask) &&& latch plane
    else if r.graphWriteFunction == 2 then
      (r.hostWriteSet i plane &&& r.graphWriteMask) ||| latch plane
    else (r.hostWriteSet i plane &&& r.graphWriteMask) ^^^ latch plane
  else if r.graphWriteMode == 3 then
    (fill (r.graphWriteSetMap.getLsbD plane) &&& r.hostWriteMode3Mask i) ||| (latch plane &&& ~~~r.hostWriteMode3Mask i)
  else latch plane

def memDwordWriteOk : Bool :=
  r.seqAccessChain4 && r.graphWriteMode == 0 && r.graphWriteRotate == 0 && r.graphWriteFunction == 0 &&
    r.graphWriteEnableMap == 0 && r.graphWriteMask == 0xFF

def hostWritePlaneMask : BitVec 4 :=
  if i.memWriteDword then r.seqMapWriteEnable
  else if r.seqAccessChain4 then
    r.seqMapWriteEnable &&& (1#4 <<< (r.hostAddressReduced i).extractLsb' 0 2)
  else if !r.seqAccessOddEvenDisabled then
    r.seqMapWriteEnable &&& (5#4 <<< (r.hostAddressReduced i).extractLsb' 0 1)
  else r.seqMapWriteEnable

/-- The write enable of a plane RAM. -/
def planeWrite (plane : Fin 4) : Bool :=
  r.generalEnableRam && r.hostWrite i && (r.hostWritePlaneMask i).getLsbD plane

end VgaRegs

namespace HostPort

variable (r : VgaRegs) (s : HostPort) (i : HostIn)

def memReadValid : Bool := i.memRead && !s.memReadLast

/-- One clock of the port: each plane RAM writes or reads its word at `host_address`. -/
def step : HostPort where
  planes := fun p a =>
    if r.planeWrite i p && a == r.hostAddress i then r.hostWritedata i s.hostRamReg p else s.planes p a
  hostRamQ := fun p => if r.planeWrite i p then s.hostRamQ p else s.planes p (r.hostAddress i)
  hostRamReg := if s.hostReadLast then s.hostRamQ else s.hostRamReg
  hostReadLast := s.memReadValid i && !r.hostMemoryOutOfBounds i
  memReadLast := if s.memReadLast then false else i.memRead

/-- The port after the clocks of `is`. -/
def steps (is : List HostIn) : HostPort := is.foldl (step r) s

end HostPort

/-! ## Dword and byte writes -/

/-- The address of byte `k` of the dword that holds `a`. -/
def byteAddress (a : BitVec 17) (k : Fin 4) : BitVec 17 := a.extractLsb' 2 15 ++ BitVec.ofNat 2 k

/-- A clock with `mem_write_dword` strobed. -/
def dwordWrite (a : BitVec 17) (d : BitVec 32) : HostIn := ⟨a, false, false, 0, true, d⟩

/-- A clock with `mem_write` strobed. -/
def byteWrite (a : BitVec 17) (d : BitVec 8) : HostIn := ⟨a, false, true, d, false, 0⟩

/-- The four bytes of `d` written in ascending order; `idle k` are the clocks after byte `k`. -/
def byteWrites (a : BitVec 17) (d : BitVec 32) (idle : Fin 4 → List HostIn) : List HostIn :=
  (List.finRange 4).flatMap fun k => byteWrite (byteAddress a k) (VgaRegs.byteOf d k) :: idle k

section Address

variable (r : VgaRegs) (a : BitVec 17) (d : BitVec 32) (v : BitVec 8) (k : Fin 4)

theorem byteAddress_getLsbD {j : Nat} (h : 2 ≤ j) (hj : j < 17) :
    (byteAddress a k).getLsbD j = a.getLsbD j := by
  have h2 : 2 + (j - 2) = j := by omega
  simp only [byteAddress, BitVec.getLsbD_append, BitVec.getLsbD_extractLsb', h2, show ¬ j < 2 by omega,
    show j - 2 < 15 by omega, decide_true, Bool.true_and, if_false]

theorem byteAddress_high : (byteAddress a k).extractLsb' 15 2 = a.extractLsb' 15 2 := by
  apply BitVec.eq_of_getLsbD_eq
  intro j hj
  simp only [BitVec.getLsbD_extractLsb', hj, decide_true, Bool.true_and,
    byteAddress_getLsbD a k (show 2 ≤ 15 + j by omega) (by omega)]

/-- The four byte writes of a dword and the dword write decode to the same bounds check. -/
theorem outOfBounds_byteWrite :
    r.hostMemoryOutOfBounds (byteWrite (byteAddress a k) v) = r.hostMemoryOutOfBounds (dwordWrite a d) := by
  simp only [VgaRegs.hostMemoryOutOfBounds, byteWrite, dwordWrite, byteAddress_high]

theorem reduced_high :
    (r.hostAddressReduced (byteWrite (byteAddress a k) v)).extractLsb' 2 14 =
      (r.hostAddressReduced (dwordWrite a d)).extractLsb' 2 14 := by
  apply BitVec.eq_of_getLsbD_eq
  intro j hj
  simp only [VgaRegs.hostAddressReduced, byteWrite, dwordWrite, BitVec.getLsbD_extractLsb', BitVec.getLsbD_append,
    byteAddress_high, Nat.zero_add]
  split
  · rw [byteAddress_getLsbD a k (by omega) (by omega)]
  · rfl

theorem reduced_low :
    (r.hostAddressReduced (byteWrite (byteAddress a k) v)).extractLsb' 0 2 = BitVec.ofNat 2 k := by
  unfold VgaRegs.hostAddressReduced byteWrite byteAddress
  rw [BitVec.extractLsb'_append_eq_of_add_le (by omega), BitVec.extractLsb'_extractLsb'_of_le (by omega),
    BitVec.extractLsb'_append_eq_of_add_le (by omega)]
  exact BitVec.extractLsb'_eq_self

/-- In chain 4 the four bytes and the dword have one plane address. -/
theorem hostAddress_byteWrite (hc : r.seqAccessChain4 = true) :
    r.hostAddress (byteWrite (byteAddress a k) v) = r.hostAddress (dwordWrite a d) := by
  have hw : r.hostWrite (byteWrite (byteAddress a k) v) = r.hostWrite (dwordWrite a d) := by
    simp only [VgaRegs.hostWrite, outOfBounds_byteWrite r a d v k]
    rfl
  simp only [VgaRegs.hostAddress, hc, if_true, reduced_high r a d v k, hw]

/-- In chain 4 byte `k` writes plane `k` alone, when the map mask enables it. -/
theorem planeWrite_byteWrite (hc : r.seqAccessChain4 = true) (p : Fin 4) :
    r.planeWrite (byteWrite (byteAddress a k) v) p = (r.planeWrite (dwordWrite a d) p && p == k) := by
  have hmask : (r.hostWritePlaneMask (byteWrite (byteAddress a k) v)).getLsbD p =
      (r.seqMapWriteEnable.getLsbD p && p == k) := by
    have h1 : (1#4 <<< BitVec.ofNat 2 k.val).getLsbD p = (p == k) := by
      revert p k; decide
    unfold VgaRegs.hostWritePlaneMask
    rw [reduced_low]
    simp only [byteWrite, hc, Bool.false_eq_true, if_false, if_true]
    rw [← h1]
    exact BitVec.getElem_and ..
  simp only [VgaRegs.planeWrite, VgaRegs.hostWrite, outOfBounds_byteWrite r a d v k, hmask]
  simp only [VgaRegs.hostWritePlaneMask, byteWrite, dwordWrite]
  cases r.generalEnableRam <;> simp [Bool.and_assoc]

end Address

/-- With the dword write allowed, a byte write stores host data as it is, whatever the latches. -/
theorem hostWritedata_byte {r : VgaRegs} (hok : r.memDwordWriteOk = true) {i : HostIn} (hbyte : i.memWriteDword = false)
    (latch : Fin 4 → BitVec 8) (p : Fin 4) : r.hostWritedata i latch p = i.memWritedata := by
  simp only [VgaRegs.memDwordWriteOk, Bool.and_eq_true, beq_iff_eq] at hok
  obtain ⟨⟨⟨⟨⟨-, hmode⟩, hrot⟩, hfn⟩, hset⟩, hmask⟩ := hok
  simp only [VgaRegs.hostWritedata, VgaRegs.hostWriteSet, VgaRegs.hostWritedataRotate, hbyte, hmode, hrot, hfn,
    hset, hmask]
  have h8 : i.memWritedata <<< 8 = 0 := by
    apply BitVec.eq_of_getLsbD_eq; intro j hj; simp [hj]
  have hall : i.memWritedata &&& 255#8 = i.memWritedata := BitVec.and_allOnes
  simp [h8, hall]

theorem hostWritedata_byteWrite {r : VgaRegs} (hok : r.memDwordWriteOk = true) (a : BitVec 17) (v : BitVec 8)
    (latch : Fin 4 → BitVec 8) (p : Fin 4) : r.hostWritedata (byteWrite a v) latch p = v :=
  hostWritedata_byte hok rfl latch p

/-! ## Planes after a sequence of clocks -/

namespace HostPort

variable {r : VgaRegs}

theorem steps_append (s : HostPort) (is js : List HostIn) : steps r s (is ++ js) = steps r (steps r s is) js :=
  List.foldl_append

/-- A clock without a write strobe. -/
def Silent (i : HostIn) : Prop := i.memWrite = false ∧ i.memWriteDword = false

theorem step_silent {i : HostIn} (h : Silent i) (s : HostPort) : (s.step r i).planes = s.planes := by
  funext p a
  simp [step, VgaRegs.planeWrite, VgaRegs.hostWrite, h.1, h.2]

theorem steps_silent {is : List HostIn} (h : ∀ i ∈ is, Silent i) (s : HostPort) :
    (steps r s is).planes = s.planes := by
  induction is generalizing s with
  | nil => rfl
  | cons i is ih =>
    have := ih (fun j hj => h j (List.mem_cons_of_mem i hj)) (s.step r i)
    rw [step_silent (h i (List.mem_cons_self ..))] at this
    exact this

/-- Bytes of a dword written in any order: byte `k` lands in plane `k` at the dword's plane address
when the map mask enables that plane, and nothing else changes. -/
theorem steps_bytes (hok : r.memDwordWriteOk = true) (a : BitVec 17) (d : BitVec 32) (idle : Fin 4 → List HostIn)
    (hidle : ∀ k, ∀ i ∈ idle k, Silent i) (ks : List (Fin 4)) (s : HostPort) (p : Fin 4) (x : BitVec 16) :
    (steps r s (ks.flatMap fun k => byteWrite (byteAddress a k) (VgaRegs.byteOf d k) :: idle k)).planes p x =
      if r.planeWrite (dwordWrite a d) p && x == r.hostAddress (dwordWrite a d) && ks.contains p
      then VgaRegs.byteOf d p else s.planes p x := by
  have hc : r.seqAccessChain4 = true := by
    simp only [VgaRegs.memDwordWriteOk, Bool.and_eq_true] at hok
    exact hok.1.1.1.1.1
  induction ks generalizing s with
  | nil => simp [steps]
  | cons k ks ih =>
    rw [List.flatMap_cons, steps_append, ih]
    show (if _ then _ else (steps r (s.step r (byteWrite (byteAddress a k) (VgaRegs.byteOf d k))) (idle k)).planes p x) = _
    rw [steps_silent (hidle k)]
    simp only [step, planeWrite_byteWrite r a d _ k hc, hostAddress_byteWrite r a d _ k hc,
      hostWritedata_byteWrite hok, List.contains_cons]
    by_cases hp : p = k
    · subst hp
      cases r.planeWrite (dwordWrite a d) p <;> cases x == r.hostAddress (dwordWrite a d) <;>
        cases ks.contains p <;> simp
    · simp [hp]

/-- Where `mem_dword_write_ok` is high, the single dword write leaves the plane RAMs as the four
ascending byte writes of the same data do, however many clocks lie between these. -/
theorem dwordWrite_planes_eq_byteWrites (r : VgaRegs) (hok : r.memDwordWriteOk = true) (s : HostPort)
    (a : BitVec 17) (d : BitVec 32) (idle : Fin 4 → List HostIn) (hidle : ∀ k, ∀ i ∈ idle k, Silent i) :
    (s.step r (dwordWrite a d)).planes = (steps r s (byteWrites a d idle)).planes := by
  funext p x
  have hall : (List.finRange 4).contains p = true := by simp
  rw [byteWrites, steps_bytes hok a d idle hidle, hall, Bool.and_true]
  simp only [step]
  rfl

/-- Mode 13h with all maps enabled, and the dword DDCCBBAAh written to A1234h. -/
theorem dwordWrite_mode13 :
    let r : VgaRegs := ⟨true, false, 0xF, true, true, 0, 0, 0, 0, 0, 0, 0xFF, 0, 1⟩
    let s : HostPort := ⟨fun _ _ => 0, fun _ => 0, fun _ => 0, false, false⟩
    r.memDwordWriteOk = true ∧ (s.step r (dwordWrite 0x1234 0xDDCCBBAA)).planes 2 0x1234 = 0xCC ∧
      (s.step r (dwordWrite 0x1234 0xDDCCBBAA)).planes =
        (steps r s (byteWrites 0x1234 0xDDCCBBAA fun _ => [])).planes := by
  intro r s
  exact ⟨by decide, by decide, dwordWrite_planes_eq_byteWrites r (by decide) s _ _ _ (by simp)⟩

end HostPort

end Z486.Video
