/-
The palette ports of the VGA, 3C7h to 3C9h (src/soc/vga.v): an index for writing and one for reading, and a count of the
colours of the entry in progress, which the two directions share. The colours of an entry are written together, with the
third; what is read is fetched ahead from where the index stands, which takes the clock between two strobes of the bus.
-/
import Z486.Clocked.Bits
import Z486.Clocked.Run
import Z486.IoBus.Sequence

namespace Z486.Video

open Clocked

/-! ## Registers -/

/-- The bus in a clock, and what a read of the other ports is answered with. -/
structure DacIn where
  rstN : Bool
  ioAddress : BitVec 4
  ioRead : Bool
  ioWrite : Bool
  ioCCs : Bool
  ioWritedata : BitVec 8
  hostReaddata : BitVec 8

namespace DacIn

variable (i : DacIn)

def ioCRead : Bool := i.ioRead && i.ioCCs

def ioCWrite : Bool := i.ioWrite && i.ioCCs

def writes (port : BitVec 4) : Bool := i.ioCWrite && i.ioAddress == port

/-- The colour in the byte that is written. -/
def color : BitVec 6 := i.ioWritedata.extractLsb' 0 6

end DacIn

structure DacPort where
  ioCReadLast : Bool
  dacIsRead : Bool
  dacCnt : BitVec 2
  dacReadIndex : BitVec 8
  dacWriteIndex : BitVec 8
  dacWriteBuffer : BitVec 12
  dacRam : BitVec 8 → BitVec 18
  dacReadQ : BitVec 18
  ioReaddata : BitVec 8

namespace DacPort

variable (s : DacPort) (i : DacIn)

/-- A read of port 3C9h that counts: not in the clock after a read. -/
def readsData : Bool := i.ioCRead && !s.ioCReadLast && i.ioAddress == 9

def address : BitVec 8 := if s.dacIsRead then s.dacReadIndex else s.dacWriteIndex

/-- The third colour of an entry is written. -/
def commits : Bool := i.writes 9 && s.dacCnt == 2

def dacCntNext : BitVec 2 :=
  if i.writes 7 then 0
  else if i.writes 8 then 0
  else if (s.readsData i || i.writes 9) && s.dacCnt == 2 then 0
  else if s.readsData i || i.writes 9 then s.dacCnt + 1
  else s.dacCnt

def readdataNext : BitVec 8 :=
  if s.readsData i then
    match s.dacCnt with
    | 0 => (s.dacReadQ.extractLsb' 12 6).setWidth 8
    | 1 => (s.dacReadQ.extractLsb' 6 6).setWidth 8
    | 2 => (s.dacReadQ.extractLsb' 0 6).setWidth 8
    | _ => if !s.dacIsRead then 0x3F else i.hostReaddata
  else i.hostReaddata

def step : DacPort where
  ioCReadLast := if !i.rstN then false else if s.ioCReadLast then false else i.ioCRead
  dacIsRead := if !i.rstN then false else if i.writes 7 then true else if i.writes 8 then false else s.dacIsRead
  dacCnt := if !i.rstN then 0 else s.dacCntNext i
  dacReadIndex :=
    if !i.rstN then 0
    else if i.writes 7 then i.ioWritedata
    else if s.readsData i && s.dacCnt == 2 then s.dacReadIndex + 1
    else s.dacReadIndex
  dacWriteIndex :=
    if !i.rstN then 0
    else if i.writes 8 then i.ioWritedata
    else if s.commits i then s.dacWriteIndex + 1
    else s.dacWriteIndex
  dacWriteBuffer :=
    if !i.rstN then 0
    else if i.writes 9 then s.dacWriteBuffer.extractLsb' 0 6 ++ i.color
    else s.dacWriteBuffer
  dacRam := if s.commits i then Function.update s.dacRam s.address (s.dacWriteBuffer ++ i.color) else s.dacRam
  dacReadQ := if s.commits i then s.dacReadQ else s.dacRam s.address
  ioReaddata := s.readdataNext i

end DacPort

/-! ## Accesses -/

/-- An access to the palette ports. -/
inductive DacOp where
  | readIndex (i : BitVec 8)
  | writeIndex (i : BitVec 8)
  | put (b : BitVec 8)
  | get
deriving DecidableEq, Repr

/-- The access of a clock, if it is one to these ports that does anything. -/
def DacIn.op (i : DacIn) : Option DacOp :=
  if i.writes 7 then some (.readIndex i.ioWritedata)
  else if i.writes 8 then some (.writeIndex i.ioWritedata)
  else if i.writes 9 then some (.put i.ioWritedata)
  else if i.ioCRead && i.ioAddress == 9 then some .get
  else none

/-- The strobes of the bus are a clock apart at least. -/
def Spaced (inp : Nat → DacIn) : Prop :=
  ∀ t, ((inp t).ioRead || (inp t).ioWrite) = true → (inp (t + 1)).ioRead = false ∧ (inp (t + 1)).ioWrite = false

/-- So are those of the bus adapter. -/
theorem spaced_of_adapter (r : IoBus.AdapterRun) (ho : r.Obeys) {inp : Nat → DacIn}
    (hread : ∀ t, (inp t).ioRead = (r.state t).ioRead) (hwrite : ∀ t, (inp t).ioWrite = (r.state t).ioWrite) :
    Spaced inp := by
  intro t h
  rw [hread, hwrite] at h
  have hstrobe : (r.state t).strobe ≠ [] := by
    unfold IoBus.Adapter.strobe
    cases hr : (r.state t).ioRead with
    | true => exact List.cons_ne_nil _ _
    | false =>
      rw [hr, Bool.false_or] at h
      rw [h]
      exact List.cons_ne_nil _ _
  obtain ⟨k, hk⟩ := IoBus.AdapterRun.strobe_wait ho hstrobe
  rw [hread, hwrite, IoBus.AdapterRun.state_succ, IoBus.Adapter.step_wait hk]
  exact ⟨rfl, rfl⟩

namespace DacPort

variable {s s' : DacPort} {i : DacIn}

/-! ## Clocks without an access -/

/-- The registers and the palette are as they were. -/
structure Same (s s' : DacPort) : Prop where
  isRead : s'.dacIsRead = s.dacIsRead
  cnt : s'.dacCnt = s.dacCnt
  readIndex : s'.dacReadIndex = s.dacReadIndex
  writeIndex : s'.dacWriteIndex = s.dacWriteIndex
  buffer : s'.dacWriteBuffer = s.dacWriteBuffer
  ram : s'.dacRam = s.dacRam

theorem Same.refl (s : DacPort) : Same s s := ⟨rfl, rfl, rfl, rfl, rfl, rfl⟩

theorem Same.trans {s₁ s₂ s₃ : DacPort} (h : Same s₁ s₂) (h' : Same s₂ s₃) : Same s₁ s₃ :=
  ⟨h'.isRead.trans h.isRead, h'.cnt.trans h.cnt, h'.readIndex.trans h.readIndex, h'.writeIndex.trans h.writeIndex,
    h'.buffer.trans h.buffer, h'.ram.trans h.ram⟩

theorem Same.address (h : Same s s') : s'.address = s.address := by
  unfold DacPort.address
  rw [h.isRead, h.readIndex, h.writeIndex]

/-- No port of the palette is written or read. -/
theorem op_none (h : i.op = none) : i.writes 7 = false ∧ i.writes 8 = false ∧ i.writes 9 = false ∧
    (i.ioCRead && i.ioAddress == 9) = false := by
  unfold DacIn.op at h
  cases h7 : i.writes 7
  · cases h8 : i.writes 8
    · cases h9 : i.writes 9
      · cases hr : i.ioCRead && i.ioAddress == 9
        · exact ⟨rfl, rfl, rfl, rfl⟩
        · rw [h7, h8, h9, hr] at h
          cases h
      · rw [h7, h8, h9] at h
        cases h
    · rw [h7, h8] at h
      cases h
  · rw [h7] at h
    cases h

theorem step_none (hrun : i.rstN = true) (h : i.op = none) :
    Same s (s.step i) ∧ (s.step i).dacReadQ = (s.step i).dacRam (s.step i).address := by
  obtain ⟨h7, h8, h9, hr⟩ := op_none h
  have hreads : s.readsData i = false := by
    unfold readsData
    rw [Bool.and_right_comm, hr, Bool.false_and]
  have hcommits : s.commits i = false := by
    unfold commits
    rw [h9, Bool.false_and]
  have hsame : Same s (s.step i) := by
    refine ⟨?_, ?_, ?_, ?_, ?_, ?_⟩
    all_goals simp only [step, dacCntNext, hrun, h7, h8, h9, hreads, hcommits, Bool.not_true, Bool.or_false,
      Bool.false_and, Bool.false_eq_true, if_false]
  refine ⟨hsame, ?_⟩
  rw [hsame.ram, hsame.address]
  exact if_neg (Bool.eq_false_iff.1 hcommits)

/-- Up to the next access the registers stay, and the entry at the index is fetched. -/
theorem quiet_run {s₀ : DacPort} {inp : Nat → DacIn} {t u : Nat} (htu : t ≤ u)
    (hrun : ∀ v, t ≤ v → v < u → (inp v).rstN = true) (hquiet : ∀ v, t ≤ v → v < u → (inp v).op = none) :
    Same (run step s₀ inp t) (run step s₀ inp u) ∧
      (t < u → (run step s₀ inp u).dacReadQ = (run step s₀ inp u).dacRam (run step s₀ inp u).address) := by
  induction u, htu using Nat.le_induction with
  | base => exact ⟨.refl _, fun h => absurd h (Nat.lt_irrefl t)⟩
  | succ u hle ih =>
    obtain ⟨hsame, -⟩ := ih (fun v hv hvu => hrun v hv (Nat.lt_succ_of_lt hvu))
      fun v hv hvu => hquiet v hv (Nat.lt_succ_of_lt hvu)
    obtain ⟨hnext, hfetched⟩ := step_none (s := run step s₀ inp u) (hrun u hle (Nat.lt_succ_self u))
      (hquiet u hle (Nat.lt_succ_self u))
    exact ⟨hsame.trans hnext, fun _ => hfetched⟩

/-! ## Writing -/

theorem writes_address {port : BitVec 4} (h : i.writes port = true) : i.ioAddress = port :=
  beq_iff_eq.1 (Bool.and_eq_true_iff.1 h).2

theorem writes_other {port other : BitVec 4} (h : i.writes port = true) (hne : port ≠ other) :
    i.writes other = false := by
  unfold DacIn.writes
  rw [writes_address h, beq_false_of_ne hne, Bool.and_false]

theorem op_writeIndex {x : BitVec 8} (h : i.op = some (.writeIndex x)) : i.writes 8 = true ∧ i.ioWritedata = x := by
  unfold DacIn.op at h
  split at h
  · cases h
  · split at h
    case isTrue h8 => exact ⟨h8, DacOp.writeIndex.inj (Option.some.inj h)⟩
    case isFalse =>
      split at h
      · cases h
      · split at h <;> cases h

theorem op_readIndex {x : BitVec 8} (h : i.op = some (.readIndex x)) : i.writes 7 = true ∧ i.ioWritedata = x := by
  unfold DacIn.op at h
  split at h
  case isTrue h7 => exact ⟨h7, DacOp.readIndex.inj (Option.some.inj h)⟩
  case isFalse =>
    split at h
    · cases h
    · split at h
      · cases h
      · split at h <;> cases h

theorem op_put {b : BitVec 8} (h : i.op = some (.put b)) : i.writes 9 = true ∧ i.ioWritedata = b := by
  unfold DacIn.op at h
  split at h
  · cases h
  · split at h
    · cases h
    · split at h
      case isTrue h9 => exact ⟨h9, DacOp.put.inj (Option.some.inj h)⟩
      case isFalse => split at h <;> cases h

theorem op_get (h : i.op = some .get) : i.writes 7 = false ∧ i.writes 8 = false ∧ i.writes 9 = false ∧
    i.ioCRead = true ∧ i.ioAddress = 9 := by
  unfold DacIn.op at h
  split at h
  · cases h
  · split at h
    · cases h
    · split at h
      · cases h
      · split at h
        case isFalse => cases h
        case isTrue h7 h8 h9 hr =>
          obtain ⟨hread, haddr⟩ := Bool.and_eq_true_iff.1 hr
          exact ⟨Bool.eq_false_iff.2 h7, Bool.eq_false_iff.2 h8, Bool.eq_false_iff.2 h9, hread, beq_iff_eq.1 haddr⟩

/-- The colour of a byte. -/
def colorOf (b : BitVec 8) : BitVec 6 := b.extractLsb' 0 6

/-- Entry `j` of the bytes that are written. -/
def entryOf (data : Nat → BitVec 8) (j : Nat) : BitVec 18 :=
  colorOf (data (3 * j)) ++ colorOf (data (3 * j + 1)) ++ colorOf (data (3 * j + 2))

/-- After `k` bytes of `data`, written from index `x` on: the entries that are complete are in the palette, the colours
of the one in progress in the buffer. -/
structure Writing (x : BitVec 8) (data : Nat → BitVec 8) (ram : BitVec 8 → BitVec 18) (k : Nat) (s : DacPort) :
    Prop where
  isRead : s.dacIsRead = false
  cnt : s.dacCnt = BitVec.ofNat 2 (k % 3)
  writeIndex : s.dacWriteIndex = x + BitVec.ofNat 8 (k / 3)
  first : k % 3 = 1 → s.dacWriteBuffer.extractLsb' 0 6 = colorOf (data (k - 1))
  second : k % 3 = 2 → s.dacWriteBuffer = colorOf (data (k - 2)) ++ colorOf (data (k - 1))
  written : ∀ j, j < k / 3 → s.dacRam (x + BitVec.ofNat 8 j) = entryOf data j
  others : ∀ y, (∀ j, j < k / 3 → y ≠ x + BitVec.ofNat 8 j) → s.dacRam y = ram y

variable {x : BitVec 8} {data : Nat → BitVec 8} {ram : BitVec 8 → BitVec 18} {k : Nat}

theorem Writing.same (h : Writing x data ram k s) (hsame : Same s s') : Writing x data ram k s' where
  isRead := hsame.isRead.trans h.isRead
  cnt := hsame.cnt.trans h.cnt
  writeIndex := hsame.writeIndex.trans h.writeIndex
  first := by rw [hsame.buffer]; exact h.first
  second := by rw [hsame.buffer]; exact h.second
  written := by rw [hsame.ram]; exact h.written
  others := by rw [hsame.ram]; exact h.others

theorem writing_start (hrun : i.rstN = true) (h : i.op = some (.writeIndex x)) :
    Writing x data s.dacRam 0 (s.step i) := by
  obtain ⟨h8, hx⟩ := op_writeIndex h
  have h7 : i.writes 7 = false := writes_other h8 (by decide)
  have h9 : i.writes 9 = false := writes_other h8 (by decide)
  have hram : (s.step i).dacRam = s.dacRam := by
    refine if_neg ?_
    unfold commits
    rw [h9, Bool.false_and]
    exact Bool.false_ne_true
  refine ⟨?_, ?_, ?_, fun h => absurd h (by decide), fun h => absurd h (by decide),
    fun j hj => absurd hj (Nat.not_lt_zero j), fun y _ => congrFun hram y⟩
  · simp only [step, hrun, h7, h8, Bool.not_true, Bool.false_eq_true, if_false, if_true]
  · simp only [step, dacCntNext, hrun, h7, h8, Bool.not_true, Bool.false_eq_true, if_false, if_true]
    rfl
  · simp only [step, hrun, h8, Bool.not_true, Bool.false_eq_true, if_false, if_true]
    rw [hx]
    exact (BitVec.add_zero x).symm

theorem Writing.commits_iff (h : Writing x data ram k s) (h9 : i.writes 9 = true) : s.commits i = true ↔ k % 3 = 2 := by
  have hlt := Nat.mod_lt k (show 0 < 3 by decide)
  unfold commits
  rw [h9, Bool.true_and, h.cnt, beq_iff_eq]
  constructor
  · intro heq
    have hnat := congrArg BitVec.toNat heq
    rw [BitVec.toNat_ofNat, Nat.mod_eq_of_lt (show k % 3 < 2 ^ 2 by omega)] at hnat
    exact hnat
  · intro heq
    rw [heq]
    rfl

/-- A byte is written: the first or the second colour goes to the buffer, and with the third the entry is complete. -/
theorem Writing.put (h : Writing x data ram k s) (hrun : i.rstN = true) (hop : i.op = some (.put (data k)))
    (hk : k / 3 < 256) : Writing x data ram (k + 1) (s.step i) := by
  obtain ⟨h9, hb⟩ := op_put hop
  have h7 : i.writes 7 = false := writes_other h9 (by decide)
  have h8 : i.writes 8 = false := writes_other h9 (by decide)
  have hread : (s.step i).dacIsRead = false := by
    simp only [step, hrun, h7, h8, Bool.not_true, Bool.false_eq_true, if_false]
    exact h.isRead
  have hcolor : i.color = colorOf (data k) := congrArg (BitVec.extractLsb' 0 6) hb
  have hbuffer : (s.step i).dacWriteBuffer = s.dacWriteBuffer.extractLsb' 0 6 ++ colorOf (data k) := by
    simp only [step, hrun, h9, Bool.not_true, Bool.false_eq_true, if_false, if_true, hcolor]
  have hcnt : (s.step i).dacCnt = if s.dacCnt == 2 then 0 else s.dacCnt + 1 := by
    simp only [step, dacCntNext, hrun, h7, h8, h9, Bool.not_true, Bool.false_eq_true, if_false, Bool.or_true,
      Bool.true_and, if_true]
  have hindex : (s.step i).dacWriteIndex = if s.commits i then s.dacWriteIndex + 1 else s.dacWriteIndex := by
    simp only [step, hrun, h8, Bool.not_true, Bool.false_eq_true, if_false]
  have haddress : s.address = x + BitVec.ofNat 8 (k / 3) := by
    rw [← h.writeIndex]
    exact if_neg (Bool.eq_false_iff.1 h.isRead)
  have hram : (s.step i).dacRam =
      if s.commits i then Function.update s.dacRam s.address (s.dacWriteBuffer ++ colorOf (data k)) else s.dacRam := by
    rw [← hcolor]
    rfl
  by_cases hthird : k % 3 = 2
  · have hcommits := (h.commits_iff h9).2 hthird
    have hnext : (k + 1) % 3 = 0 ∧ (k + 1) / 3 = k / 3 + 1 := by omega
    rw [hcommits, if_pos rfl] at hindex hram
    refine ⟨hread, ?_, ?_, fun hone => ?_, fun htwo => ?_, fun j hj => ?_, fun y hy => ?_⟩
    · rw [hcnt, h.cnt, hthird, hnext.1]
      rfl
    · rw [hindex, h.writeIndex, hnext.2, ofNat_succ, BitVec.add_assoc]
    · rw [hnext.1] at hone
      exact absurd hone (by decide)
    · rw [hnext.1] at htwo
      exact absurd htwo (by decide)
    · rw [hnext.2] at hj
      rw [hram, haddress]
      rcases Nat.lt_succ_iff_lt_or_eq.1 hj with hlt | rfl
      · have hother : x + BitVec.ofNat 8 j ≠ x + BitVec.ofNat 8 (k / 3) := fun heq =>
          ofNat_ne_ofNat (show j < 2 ^ 8 by omega) hk (Nat.ne_of_lt hlt) ((BitVec.add_right_inj _).1 heq)
        exact (Function.update_of_ne hother _ _).trans (h.written j hlt)
      · have hlast : 3 * (k / 3) = k - 2 ∧ 3 * (k / 3) + 1 = k - 1 ∧ 3 * (k / 3) + 2 = k := by omega
        rw [Function.update_self, h.second hthird, entryOf, hlast.1, show k - 2 + 1 = k - 1 by omega,
          show k - 2 + 2 = k by omega]
    · rw [hnext.2] at hy
      rw [hram, haddress, Function.update_of_ne (hy (k / 3) (Nat.lt_succ_self _))]
      exact h.others y fun j hj => hy j (Nat.lt_succ_of_lt hj)
  · have hcommits : s.commits i = false := Bool.eq_false_iff.2 fun hc => hthird ((h.commits_iff h9).1 hc)
    have hnext : (k + 1) % 3 = k % 3 + 1 ∧ (k + 1) / 3 = k / 3 := by omega
    have hnot : (s.dacCnt == 2) = false := by
      have := hcommits
      unfold commits at this
      rwa [h9, Bool.true_and] at this
    rw [hcommits, if_neg Bool.false_ne_true] at hindex hram
    rw [hnot, if_neg Bool.false_ne_true] at hcnt
    refine ⟨hread, ?_, ?_, fun hone => ?_, fun htwo => ?_, fun j hj => ?_, fun y hy => ?_⟩
    · rw [hcnt, h.cnt, hnext.1, ofNat_succ]
    · rw [hindex, h.writeIndex, hnext.2]
    · rw [hbuffer]
      exact BitVec.extractLsb'_append_eq_right
    · rw [hbuffer, h.first (by omega)]
      rfl
    · rw [hram]
      exact h.written j (hnext.2 ▸ hj)
    · rw [hram]
      exact h.others y (hnext.2 ▸ hy)

/-! ## Reading -/

/-- After `k` bytes read from index `x` on, of the palette `ram`. -/
structure Reading (x : BitVec 8) (ram : BitVec 8 → BitVec 18) (k : Nat) (s : DacPort) : Prop where
  isRead : s.dacIsRead = true
  cnt : s.dacCnt = BitVec.ofNat 2 (k % 3)
  readIndex : s.dacReadIndex = x + BitVec.ofNat 8 (k / 3)
  palette : s.dacRam = ram

theorem Reading.same (h : Reading x ram k s) (hsame : Same s s') : Reading x ram k s' :=
  ⟨hsame.isRead.trans h.isRead, hsame.cnt.trans h.cnt, hsame.readIndex.trans h.readIndex, hsame.ram.trans h.palette⟩

theorem reading_start (hrun : i.rstN = true) (h : i.op = some (.readIndex x)) : Reading x s.dacRam 0 (s.step i) := by
  obtain ⟨h7, hx⟩ := op_readIndex h
  have h9 : i.writes 9 = false := writes_other h7 (by decide)
  refine ⟨?_, ?_, ?_, ?_⟩
  · simp only [step, hrun, h7, Bool.not_true, Bool.false_eq_true, if_false, if_true]
  · simp only [step, dacCntNext, hrun, h7, Bool.not_true, Bool.false_eq_true, if_false, if_true]
    rfl
  · simp only [step, hrun, h7, Bool.not_true, Bool.false_eq_true, if_false, if_true]
    rw [hx]
    exact (BitVec.add_zero x).symm
  · refine if_neg ?_
    unfold commits
    rw [h9, Bool.false_and]
    exact Bool.false_ne_true

/-- The colour that the `k`th read from index `x` on gives, in a byte. -/
def colorAt (ram : BitVec 8 → BitVec 18) (x : BitVec 8) (k : Nat) : BitVec 8 :=
  ((ram (x + BitVec.ofNat 8 (k / 3))).extractLsb' (6 * (2 - k % 3)) 6).setWidth 8

/-- A byte is read from the entry that has been fetched. -/
theorem Reading.get (h : Reading x ram k s) (hrun : i.rstN = true) (hop : i.op = some .get)
    (hlast : s.ioCReadLast = false) (hfetched : s.dacReadQ = s.dacRam s.address) :
    Reading x ram (k + 1) (s.step i) ∧ (s.step i).ioReaddata = colorAt ram x k := by
  obtain ⟨h7, h8, h9, hread, haddr⟩ := op_get hop
  have hreads : s.readsData i = true := by
    unfold readsData
    rw [hread, hlast, haddr]
    rfl
  have hentry : s.dacReadQ = ram (x + BitVec.ofNat 8 (k / 3)) := by
    rw [hfetched, h.palette, ← h.readIndex]
    exact congrArg ram (if_pos h.isRead)
  have hisRead : (s.step i).dacIsRead = true := by
    simp only [step, hrun, h7, h8, Bool.not_true, Bool.false_eq_true, if_false]
    exact h.isRead
  have hcnt : (s.step i).dacCnt = if s.dacCnt == 2 then 0 else s.dacCnt + 1 := by
    simp only [step, dacCntNext, hrun, h7, h8, h9, hreads, Bool.not_true, Bool.false_eq_true, if_false, Bool.or_false,
      Bool.true_and, if_true]
  have hindex : (s.step i).dacReadIndex = if s.dacCnt == 2 then s.dacReadIndex + 1 else s.dacReadIndex := by
    simp only [step, hrun, h7, hreads, Bool.not_true, Bool.false_eq_true, if_false, Bool.true_and]
  have hram : (s.step i).dacRam = ram := by
    rw [← h.palette]
    refine if_neg ?_
    unfold commits
    rw [h9, Bool.false_and]
    exact Bool.false_ne_true
  have hdata : (s.step i).ioReaddata = s.readdataNext i := rfl
  unfold readdataNext at hdata
  rw [hreads, if_pos rfl, hentry, h.cnt] at hdata
  rw [h.cnt] at hcnt hindex
  have hlt := Nat.mod_lt k (show 0 < 3 by decide)
  unfold colorAt
  have hthird : k % 3 = 0 ∨ k % 3 = 1 ∨ k % 3 = 2 := by omega
  rcases hthird with hk | hk | hk
  · rw [hk] at hcnt hindex hdata ⊢
    have hnext : (k + 1) % 3 = 1 ∧ (k + 1) / 3 = k / 3 := by omega
    exact ⟨⟨hisRead, by rw [hcnt, hnext.1]; rfl, by rw [hindex, h.readIndex, hnext.2]; rfl, hram⟩, hdata⟩
  · rw [hk] at hcnt hindex hdata ⊢
    have hnext : (k + 1) % 3 = 2 ∧ (k + 1) / 3 = k / 3 := by omega
    exact ⟨⟨hisRead, by rw [hcnt, hnext.1]; rfl, by rw [hindex, h.readIndex, hnext.2]; rfl, hram⟩, hdata⟩
  · rw [hk] at hcnt hindex hdata ⊢
    have hnext : (k + 1) % 3 = 0 ∧ (k + 1) / 3 = k / 3 + 1 := by omega
    refine ⟨⟨hisRead, by rw [hcnt, hnext.1]; rfl, ?_, hram⟩, hdata⟩
    rw [hindex, h.readIndex, hnext.2, ofNat_succ (k / 3), ← BitVec.add_assoc]
    rfl

/-! ## The round trip -/

/-- The accesses of the round trip: the index to write from, the bytes of `n` entries, the index to read from, and as
many reads. -/
def script (x : BitVec 8) (n : Nat) (data : Nat → BitVec 8) (k : Nat) : DacOp :=
  if k = 0 then .writeIndex x
  else if k ≤ 3 * n then .put (data (k - 1))
  else if k = 3 * n + 1 then .readIndex x
  else .get

/-- In a run of the bus the guest makes the accesses of the round trip, number `k` in clock `c k`, and no other one to
these ports in between. -/
structure RoundTrip (x : BitVec 8) (n : Nat) (data : Nat → BitVec 8) (inp : Nat → DacIn) (c : Nat → Nat) : Prop where
  spaced : Spaced inp
  running : ∀ t, c 0 ≤ t → (inp t).rstN = true
  ops : ∀ k, k < 6 * n + 2 → (inp (c k)).op = some (script x n data k)
  order : ∀ k, k < 6 * n + 1 → c k < c (k + 1)
  between : ∀ k, k < 6 * n + 1 → ∀ t, c k < t → t < c (k + 1) → (inp t).op = none

section RoundTrip

variable {n : Nat} {inp : Nat → DacIn} {c : Nat → Nat} (hn : n ≤ 256) (h : RoundTrip x n data inp c)
include h

theorem RoundTrip.start_le {k : Nat} (hk : k < 6 * n + 2) : c 0 ≤ c k := by
  induction k with
  | zero => exact Nat.le_refl _
  | succ k ih => exact Nat.le_trans (ih (by omega)) (Nat.le_of_lt (h.order k (by omega)))

theorem RoundTrip.run_at {k : Nat} (hk : k < 6 * n + 2) : (inp (c k)).rstN = true := h.running _ (h.start_le hk)

/-- From the clock after an access up to the next. -/
theorem RoundTrip.same (s₀ : DacPort) {k : Nat} (hk : k < 6 * n + 1) :
    Same (run step s₀ inp (c k + 1)) (run step s₀ inp (c (k + 1))) ∧
      (c k + 1 < c (k + 1) → (run step s₀ inp (c (k + 1))).dacReadQ =
        (run step s₀ inp (c (k + 1))).dacRam (run step s₀ inp (c (k + 1))).address) := by
  have hstart := h.start_le (k := k) (by omega)
  exact quiet_run (h.order k hk) (fun v hv _ => h.running v (by omega)) fun v hv hlt => h.between k hk v hv hlt

include hn in
theorem RoundTrip.writing (s₀ : DacPort) {k : Nat} (hk : k ≤ 3 * n) :
    Writing x data (run step s₀ inp (c 0)).dacRam k (run step s₀ inp (c k + 1)) := by
  induction k with
  | zero => exact writing_start (h.run_at (by omega)) (h.ops 0 (by omega))
  | succ k ih =>
    have hput : (inp (c (k + 1))).op = some (.put (data k)) := by
      rw [h.ops (k + 1) (by omega), script, if_neg (Nat.succ_ne_zero k), if_pos hk]
      rfl
    have hbefore := (ih (by omega)).same (h.same s₀ (by omega)).1
    exact hbefore.put (h.run_at (by omega)) hput (by omega)

/-- A strobe of the bus leaves the clock before it free, so that the entry is fetched and a read counts. -/
theorem RoundTrip.reading (s₀ : DacPort) {k : Nat} (hk : k ≤ 3 * n) :
    Reading x (run step s₀ inp (c (3 * n + 1))).dacRam k (run step s₀ inp (c (3 * n + 1 + k) + 1)) ∧
      (0 < k → (run step s₀ inp (c (3 * n + 1 + k) + 1)).ioReaddata =
        colorAt (run step s₀ inp (c (3 * n + 1))).dacRam x (k - 1)) := by
  induction k with
  | zero =>
    have hop := h.ops (3 * n + 1) (by omega)
    rw [script, if_neg (Nat.succ_ne_zero _), if_neg (by omega), if_pos rfl] at hop
    exact ⟨reading_start (h.run_at (by omega)) hop, fun hpos => absurd hpos (Nat.lt_irrefl 0)⟩
  | succ k ih =>
    have hget : (inp (c (3 * n + 1 + (k + 1)))).op = some .get := by
      rw [h.ops _ (by omega), script, if_neg (by omega), if_neg (by omega), if_neg (by omega)]
    have hread : (inp (c (3 * n + 1 + (k + 1)))).ioRead = true := (Bool.and_eq_true_iff.1 (op_get hget).2.2.2.1).1
    have hlater : c (3 * n + 1 + k) < c (3 * n + 1 + (k + 1)) := h.order (3 * n + 1 + k) (by omega)
    obtain ⟨u, hu⟩ : ∃ u, c (3 * n + 1 + (k + 1)) = u + 1 := ⟨c (3 * n + 1 + (k + 1)) - 1, by omega⟩
    -- the bus was quiet in the clock before
    have hfree : (inp u).ioRead = false ∧ (inp u).ioWrite = false := by
      rw [← Bool.or_eq_false_iff]
      refine Bool.eq_false_iff.2 fun hstrobe => ?_
      rw [hu, (h.spaced u hstrobe).1] at hread
      exact Bool.false_ne_true hread
    have hbetween : c (3 * n + 1 + k) + 1 < c (3 * n + 1 + (k + 1)) := by
      refine Nat.lt_of_le_of_ne hlater fun heq => ?_
      have hprev : c (3 * n + 1 + k) = u := by omega
      have hop := h.ops (3 * n + 1 + k) (by omega)
      rw [hprev] at hop
      unfold DacIn.op DacIn.writes DacIn.ioCWrite DacIn.ioCRead at hop
      rw [hfree.1, hfree.2] at hop
      cases hop
    have hlast : (run step s₀ inp (c (3 * n + 1 + (k + 1)))).ioCReadLast = false := by
      rw [hu, run_succ]
      show (if !(inp u).rstN then false else if _ then false else ((inp u).ioRead && (inp u).ioCCs)) = false
      rw [hfree.1]
      split
      · rfl
      · split <;> rfl
    obtain ⟨hsame, hfetched⟩ := h.same s₀ (k := 3 * n + 1 + k) (by omega)
    have hbefore := (ih (by omega)).1.same hsame
    obtain ⟨hnext, hdata⟩ := hbefore.get (h.run_at (by omega)) hget hlast (hfetched hbetween)
    exact ⟨hnext, fun _ => hdata⟩

end RoundTrip

theorem entryOf_color (data : Nat → BitVec 8) (k : Nat) :
    (entryOf data (k / 3)).extractLsb' (6 * (2 - k % 3)) 6 = colorOf (data k) := by
  have hlt := Nat.mod_lt k (show 0 < 3 by decide)
  have hk : 3 * (k / 3) + k % 3 = k := Nat.div_add_mod k 3
  have hthird : k % 3 = 0 ∨ k % 3 = 1 ∨ k % 3 = 2 := by omega
  unfold entryOf
  rcases hthird with hr | hr | hr
  · rw [hr] at hk ⊢
    rw [BitVec.extractLsb'_append_eq_of_le (by decide), show 3 * (k / 3) = k from hk]
    exact BitVec.extractLsb'_append_eq_left
  · rw [hr] at hk ⊢
    rw [BitVec.extractLsb'_append_eq_of_le (by decide), hk]
    exact BitVec.extractLsb'_append_eq_right
  · rw [hr] at hk ⊢
    rw [hk]
    exact BitVec.extractLsb'_append_eq_right

theorem colorOf_byte : ∀ b : BitVec 8, (colorOf b).setWidth 8 = b &&& 0x3F := by decide

/-- What is written to the palette ports from an index on is read back from there, six bits of each byte, and the entries
that were not written are as they were. -/
theorem roundTrip (x : BitVec 8) (n : Nat) (hn : n ≤ 256) (data : Nat → BitVec 8) (inp : Nat → DacIn) (c : Nat → Nat)
    (h : RoundTrip x n data inp c) (s₀ : DacPort) :
    (∀ k, k < 3 * n → (run step s₀ inp (c (3 * n + 2 + k) + 1)).ioReaddata = data k &&& 0x3F) ∧
      ∀ y, (∀ j, j < n → y ≠ x + BitVec.ofNat 8 j) →
        (run step s₀ inp (c (6 * n + 1) + 1)).dacRam y = (run step s₀ inp (c 0)).dacRam y := by
  have hwritten := (h.writing hn s₀ (Nat.le_refl _)).same (h.same s₀ (by omega)).1
  have hdone : 3 * n / 3 = n := by omega
  refine ⟨fun k hk => ?_, fun y hy => ?_⟩
  · have hdata := (h.reading s₀ (k := k + 1) (by omega)).2 (Nat.succ_pos k)
    rw [show 3 * n + 2 + k = 3 * n + 1 + (k + 1) by omega, hdata, ← colorOf_byte]
    show ((_ : BitVec 18).extractLsb' _ 6).setWidth 8 = _
    rw [Nat.add_sub_cancel, hwritten.written (k / 3) (by omega), entryOf_color]
  · have hread := (h.reading s₀ (Nat.le_refl (3 * n))).1
    rw [show 6 * n + 1 = 3 * n + 1 + 3 * n by omega, hread.palette]
    exact hwritten.others y (hdone.symm ▸ hy)

/-- Entries FFh and 00h, with an access every other clock. -/
def tripIn (t : Nat) : DacIn where
  rstN := true
  ioAddress := if t = 0 then 8 else if t = 14 then 7 else 9
  ioRead := decide (14 < t ∧ t ≤ 26 ∧ t % 2 = 0)
  ioWrite := decide (t ≤ 14 ∧ t % 2 = 0)
  ioCCs := true
  ioWritedata := if t = 0 ∨ t = 14 then 0xFF else BitVec.ofNat 8 (16 * t)
  hostReaddata := 0

theorem tripIn_roundTrip : RoundTrip 0xFF 2 (fun k => BitVec.ofNat 8 (16 * (2 * (k + 1)))) tripIn (fun k => 2 * k) where
  spaced t h := by
    simp only [tripIn, Bool.or_eq_true, decide_eq_true_eq] at h
    simp only [tripIn, decide_eq_false_iff_not]
    omega
  running _ _ := rfl
  ops k hk := by
    have hall : ∀ k, k < 14 → (tripIn (2 * k)).op =
        some (script 0xFF 2 (fun k => BitVec.ofNat 8 (16 * (2 * (k + 1)))) k) := by decide
    exact hall k hk
  order k _ := by omega
  between k _ t hlo hhi := by
    have hodd : t % 2 ≠ 0 := by omega
    simp only [DacIn.op, DacIn.writes, DacIn.ioCWrite, DacIn.ioCRead, tripIn, hodd, and_false, decide_false,
      Bool.false_and, Bool.false_eq_true, if_false]

theorem roundTrip_wrap :
    (∀ k, k < 3 * 2 → (run step ⟨false, true, 3, 7, 9, 0xABC, fun _ => 0x12345, 0, 0⟩ tripIn
      (2 * (3 * 2 + 2 + k) + 1)).ioReaddata = BitVec.ofNat 8 (16 * (2 * (k + 1))) &&& 0x3F) ∧
      ∀ y, (∀ j, j < 2 → y ≠ 0xFF + BitVec.ofNat 8 j) →
        (run step ⟨false, true, 3, 7, 9, 0xABC, fun _ => 0x12345, 0, 0⟩ tripIn (2 * (6 * 2 + 1) + 1)).dacRam y =
          (run step ⟨false, true, 3, 7, 9, 0xABC, fun _ => 0x12345, 0, 0⟩ tripIn (2 * 0)).dacRam y :=
  roundTrip 0xFF 2 (by decide) _ tripIn _ tripIn_roundTrip _

end DacPort

end Z486.Video
