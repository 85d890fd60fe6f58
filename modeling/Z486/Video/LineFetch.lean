/-
The fetch engine of the line buffer over a whole line: a loop of bursts, each read issued, held until
DDR3 takes it, and its words stored as they come. Three counters go with it: the words still to ask for,
the words of the burst still to come, and the index of the next word in the half.
-/
import Z486.Ddr3.Masters
import Z486.Clocked.Bits
import Z486.Clocked.Fifo
import Z486.Clocked.Run
import Mathlib.Logic.Function.Basic

namespace Z486.Video

open Ddr3 (FetchReq LineFetcher fbBaseWords)
open Clocked (fifoStep)

/-! ## The engine and DDR3 -/

/-- The engine, the line buffer, and the words that DDR3 has still to return. -/
structure FetchPort where
  engine : LineFetcher
  lb : BitVec 10 → BitVec 64
  queue : List (BitVec 64)

/-- The inputs of a clock: the request on the mailbox, whether the port is busy, whether DDR3 returns its
next word, and what it holds. -/
structure FetchIn where
  request : FetchReq
  ddrBusy : Bool
  answers : Bool
  mem : BitVec 29 → BitVec 64

namespace FetchPort

variable (s : FetchPort) (i : FetchIn)

/-- A word comes back. -/
def doutReady : Bool := i.answers && !s.queue.isEmpty

def dout : BitVec 64 := s.queue.headD 0

/-- The read that DDR3 takes: its address and its burst count. -/
def command : Option (BitVec 29 × BitVec 8) :=
  if s.engine.ddrRd && !i.ddrBusy then some (s.engine.ddrAddr, s.engine.ddrBurstcnt) else none

/-- The addresses of a burst. -/
def addresses (c : BitVec 29 × BitVec 8) : List (BitVec 29) :=
  (List.range c.2.toNat).map fun m => c.1 + BitVec.ofNat 29 m

/-- The line buffer after the write that is on its port. -/
def written : BitVec 10 → BitVec 64 :=
  if s.engine.lbWe then Function.update s.lb s.engine.lbWrAddrQ s.engine.lbWrData else s.lb

def step : FetchPort where
  engine := s.engine.step i.request i.ddrBusy (s.doutReady i) s.dout true
  lb := s.written
  queue := fifoStep s.queue (s.doutReady i) ((s.command i).elim [] fun c => (addresses c).map i.mem)

end FetchPort

/-! ## A line under way -/

/-- What a request asks for: the first word, the number of words, and the half. -/
structure LineJob where
  base : BitVec 29
  words : Nat
  buf : Bool

/-- The job of a request in the clock in which the engine takes it. -/
def jobOf (q : FetchReq) : LineJob where
  base := fbBaseWords + (0#10 ++ q.startLat.extractLsb' 1 19) + q.reqLine.setWidth 29 * q.strideWords.setWidth 29
  words := (if q.bpp == 1 then q.widthWords.extractLsb' 0 8 ++ 0#1 else q.widthWords).toNat
  buf := q.reqBuf

namespace LineJob

variable (j : LineJob)

/-- The address of word `k`. -/
def address (k : Nat) : BitVec 29 := j.base + BitVec.ofNat 29 k

/-- The place of word `k` in the line buffer. -/
def slot (k : Nat) : BitVec 10 := BitVec.ofBool j.buf ++ BitVec.ofNat 9 k

theorem address_add (k m : Nat) : j.address k + BitVec.ofNat 29 m = j.address (k + m) := by
  rw [address, address, BitVec.add_assoc, BitVec.ofNat_add]

theorem toNat_slot (k : Nat) : (j.slot k).toNat = (if j.buf then 512 else 0) + k % 512 := by
  rw [slot, BitVec.toNat_append, BitVec.toNat_ofNat]
  cases j.buf with
  | false => simp
  | true => exact (Nat.two_pow_add_eq_or_of_lt (Nat.mod_lt k (by decide : 0 < 2 ^ 9)) 1).symm

/-- The place after that of word `k`, within the half. -/
theorem slot_succ {k : Nat} (hk : k + 1 < 512) : j.slot k + 1 = j.slot (k + 1) := by
  apply BitVec.eq_of_toNat_eq
  rw [BitVec.toNat_add, toNat_slot, toNat_slot, show (1 : BitVec 10).toNat = 1 from rfl]
  split <;> omega

theorem slot_ne {k m : Nat} (hk : k < 512) (hm : m < k) : j.slot m ≠ j.slot k := by
  intro h
  have hnat := congrArg BitVec.toNat h
  rw [toNat_slot, toNat_slot] at hnat
  omega

/-- A job has fewer words than a half. -/
theorem words_jobOf (q : FetchReq) : (jobOf q).words < 512 := BitVec.isLt _

end LineJob

/-- The line is being fetched: `k` words are stored, and the reads so far are `cmds`. `Given a x` says that `x`
was read at `a`, and `lb₀` is the line buffer before the line. -/
structure Fetching (j : LineJob) (Given : BitVec 29 → BitVec 64 → Prop) (lb₀ : BitVec 10 → BitVec 64) (s : FetchPort)
    (k : Nat) (cmds : List (BitVec 29 × BitVec 8)) : Prop where
  wrAddr : s.engine.lbWrAddr = j.slot k
  stored : ∀ m, m < k → Given (j.address m) (s.written (j.slot m))
  kept : ∀ a, (∀ m, m < j.words → a ≠ j.slot m) → s.lb a = lb₀ a ∧ s.written a = lb₀ a
  bursts : ∀ c ∈ cmds, c.2 ≠ 0 ∧ c.2 ≤ 8

/-- Where the loop of bursts stands. The index is a measure of what is left to do. -/
inductive Stage (j : LineJob) (Given : BitVec 29 → BitVec 64 → Prop) (s : FetchPort) (k : Nat)
    (cmds : List (BitVec 29 × BitVec 8)) : Nat → Prop
  | issue (hle : k ≤ j.words) (state : s.engine.state = .issue) (rd : s.engine.ddrRd = false)
      (cur : s.engine.curAddr = j.address k) (left : s.engine.wordsLeft = BitVec.ofNat 9 (j.words - k))
      (queue : s.queue = []) (reads : cmds.flatMap FetchPort.addresses = (List.range k).map j.address) :
      Stage j Given s k cmds (4 * (j.words - k) + 2)
  | asking (b : Nat) (hpos : 0 < b) (hb : b ≤ 8) (hle : k + b ≤ j.words) (state : s.engine.state = .issue)
      (rd : s.engine.ddrRd = true) (addr : s.engine.ddrAddr = j.address k) (cnt : s.engine.ddrBurstcnt = BitVec.ofNat 8 b)
      (burst : s.engine.burstLeft = BitVec.ofNat 8 b)
      (cur : s.engine.curAddr = j.address k) (left : s.engine.wordsLeft = BitVec.ofNat 9 (j.words - k))
      (queue : s.queue = []) (reads : cmds.flatMap FetchPort.addresses = (List.range k).map j.address) :
      Stage j Given s k cmds (4 * (j.words - k) + 1)
  | data (b : Nat) (hpos : 0 < b) (hb : b ≤ 8) (hle : k + b ≤ j.words) (state : s.engine.state = .data)
      (rd : s.engine.ddrRd = false) (burst : s.engine.burstLeft = BitVec.ofNat 8 b)
      (cur : s.engine.curAddr = j.address (k + b)) (left : s.engine.wordsLeft = BitVec.ofNat 9 (j.words - (k + b)))
      (length : s.queue.length = b) (queue : ∀ m (hm : m < s.queue.length), Given (j.address (k + m)) s.queue[m])
      (reads : cmds.flatMap FetchPort.addresses = (List.range (k + b)).map j.address) :
      Stage j Given s k cmds (4 * (j.words - k))

theorem setWidth_ofNat {n v w : Nat} (hn : n < 2 ^ v) :
    (BitVec.ofNat v n).setWidth w = BitVec.ofNat w n := by
  apply BitVec.eq_of_toNat_eq
  rw [BitVec.toNat_setWidth, BitVec.toNat_ofNat, BitVec.toNat_ofNat, Nat.mod_eq_of_lt hn]

namespace FetchPort

/-- The engine has released the bus, with nothing left to store or to come. -/
structure Rest (s : FetchPort) : Prop where
  state : s.engine.state = .idle
  rd : s.engine.ddrRd = false
  we : s.engine.lbWe = false
  queue : s.queue = []

variable {s : FetchPort} {i : FetchIn} {j : LineJob} {k b : Nat}

/-! ### One clock of the engine -/

theorem engine_issue (h : s.engine.state = .issue) : (s.step i).engine = s.engine.issueNext i.ddrBusy := by
  rw [step, LineFetcher.step, if_neg (by simp), h]

theorem engine_data (h : s.engine.state = .data) :
    (s.step i).engine = s.engine.dataNext (s.doutReady i) s.dout := by
  rw [step, LineFetcher.step, if_neg (by simp), h]

theorem written_of_quiet (h : (s.step i).engine.lbWe = false) : (s.step i).written = s.written := by
  rw [written, if_neg (by rw [h]; exact Bool.false_ne_true)]
  rfl

/-- Without a word coming back DDR3 keeps its words, and adds those of the read it takes. -/
theorem queue_of_no_dout (h : s.doutReady i = false) :
    (s.step i).queue = s.queue ++ ((s.command i).elim [] fun c => (addresses c).map i.mem) := by
  rw [step, fifoStep, h, if_neg Bool.false_ne_true]

theorem no_dout_of_empty (h : s.queue = []) : s.doutReady i = false := by
  rw [doutReady, h]
  exact Bool.and_false _

theorem no_command (h : s.engine.ddrRd = false) : s.command i = none := by
  rw [command, h]
  rfl

theorem dout_eq (h : 0 < s.queue.length) : s.dout = s.queue[0] := by
  rw [dout, List.headD_eq_head?_getD, List.head?_eq_getElem?, List.getElem?_eq_getElem h, Option.getD_some]

/-- The addresses of a burst that begins with word `k`. -/
theorem addresses_eq (hb : b ≤ 8) :
    addresses (j.address k, BitVec.ofNat 8 b) = (List.range b).map fun m => j.address (k + m) := by
  rw [addresses, BitVec.toNat_ofNat, Nat.mod_eq_of_lt (by omega)]
  exact List.map_congr_left fun m _ => j.address_add k m

theorem range_addresses (hb : b ≤ 8) : (List.range k).map j.address ++ addresses (j.address k, BitVec.ofNat 8 b) =
    (List.range (k + b)).map j.address := by
  rw [addresses_eq hb, List.range_add, List.map_append, List.map_map]
  rfl

/-! ### One clock of a line under way -/

section Line

variable {Given Given' : BitVec 29 → BitVec 64 → Prop} {lb₀ : BitVec 10 → BitVec 64}
  {cmds : List (BitVec 29 × BitVec 8)}
variable (hgiven : ∀ a x, Given a x → Given' a x)
include hgiven

omit hgiven in
theorem bursts_of_none (hnone : s.command i = none) (c : BitVec 29 × BitVec 8) (hc : s.command i = some c) :
    c.2 ≠ 0 ∧ c.2 ≤ 8 := by
  rw [hnone] at hc
  cases hc

/-- Without a word to store the buffer stays. -/
theorem fetching_of_quiet (h : Fetching j Given lb₀ s k cmds) (hwe : (s.step i).engine.lbWe = false)
    (hwr : (s.step i).engine.lbWrAddr = s.engine.lbWrAddr)
    (hcmd : ∀ c, s.command i = some c → c.2 ≠ 0 ∧ c.2 ≤ 8) :
    Fetching j Given' lb₀ (s.step i) k (cmds ++ (s.command i).toList) where
  wrAddr := hwr.trans h.wrAddr
  stored m hm := by
    rw [written_of_quiet hwe]
    exact hgiven _ _ (h.stored m hm)
  kept a ha := by
    rw [written_of_quiet hwe]
    exact ⟨(h.kept a ha).2, (h.kept a ha).2⟩
  bursts c hc := by
    rcases List.mem_append.mp hc with hold | hnew
    · exact h.bursts c hold
    · exact hcmd c (Option.mem_toList.mp hnew)

/-- The word that comes back is stored at the next index. -/
theorem fetching_of_beat (h : Fetching j Given lb₀ s k cmds) (hk : k < j.words) (hwords : j.words < 512)
    (hstate : s.engine.state = .data) (hrd : s.engine.ddrRd = false) (hready : s.doutReady i = true)
    (hdout : Given' (j.address k) s.dout) :
    Fetching j Given' lb₀ (s.step i) (k + 1) (cmds ++ (s.command i).toList) := by
  have hnew := engine_data (i := i) hstate
  rw [LineFetcher.dataNext, hready, if_pos rfl] at hnew
  have hwritten : (s.step i).written = Function.update s.written (j.slot k) s.dout := by
    rw [← h.wrAddr]
    simp only [written, hnew, if_true]
    rfl
  constructor
  · rw [hnew, h.wrAddr]
    exact j.slot_succ (by omega)
  · intro m hm
    rw [hwritten]
    rcases Nat.lt_or_eq_of_le (Nat.le_of_lt_succ hm) with hlt | rfl
    · rw [Function.update_of_ne (j.slot_ne (by omega) hlt)]
      exact hgiven _ _ (h.stored m hlt)
    · rw [Function.update_self]
      exact hdout
  · intro a ha
    rw [hwritten, Function.update_of_ne (ha k hk)]
    exact ⟨(h.kept a ha).2, (h.kept a ha).2⟩
  · rw [no_command hrd]
    intro c hc
    exact h.bursts c (by simpa using hc)

omit hgiven in
theorem burstWords_eq {n : Nat} (hn : n < 512) (h : s.engine.wordsLeft = BitVec.ofNat 9 n) :
    s.engine.burstWords = BitVec.ofNat 8 (min 8 n) := by
  rw [LineFetcher.burstWords, h]
  by_cases h8 : 8 ≤ n
  · rw [if_pos, Nat.min_eq_left h8]
    · rfl
    · rw [BitVec.le_def, BitVec.toNat_ofNat, BitVec.toNat_ofNat]
      omega
  · rw [if_neg, Nat.min_eq_right (by omega)]
    · apply BitVec.eq_of_toNat_eq
      rw [BitVec.extractLsb'_toNat, BitVec.toNat_ofNat, BitVec.toNat_ofNat, Nat.shiftRight_zero]
      omega
    · rw [BitVec.le_def, BitVec.toNat_ofNat, BitVec.toNat_ofNat]
      omega

/-- The loop at its head: the line is through, or the next burst is asked for. -/
theorem stage_issue (h : Fetching j Given lb₀ s k cmds) (hwords : j.words < 512) (hle : k ≤ j.words)
    (hstate : s.engine.state = .issue) (hrd : s.engine.ddrRd = false) (hcur : s.engine.curAddr = j.address k)
    (hleft : s.engine.wordsLeft = BitVec.ofNat 9 (j.words - k)) (hqueue : s.queue = [])
    (hreads : cmds.flatMap addresses = (List.range k).map j.address) :
    Fetching j Given' lb₀ (s.step i) k (cmds ++ (s.command i).toList) ∧
      (k = j.words ∧ (s.step i).Rest ∧
          (cmds ++ (s.command i).toList).flatMap addresses = (List.range j.words).map j.address ∨
        Stage j Given' (s.step i) k (cmds ++ (s.command i).toList) (4 * (j.words - k) + 1)) := by
  have hnew := engine_issue (i := i) hstate
  have hnone : s.command i = none := no_command hrd
  have hqueue' : (s.step i).queue = [] := by
    rw [queue_of_no_dout (no_dout_of_empty hqueue), hqueue, hnone]
    rfl
  by_cases hdone : k = j.words
  · -- the line is through
    have h0 : (s.engine.wordsLeft == 0) = true := by
      rw [hleft, hdone, Nat.sub_self]
      rfl
    rw [LineFetcher.issueNext, h0, if_pos rfl] at hnew
    refine ⟨fetching_of_quiet hgiven h (by rw [hnew]) (by rw [hnew]) (bursts_of_none hnone), .inl ?_⟩
    refine ⟨hdone, ⟨by rw [hnew], by rw [hnew], by rw [hnew], hqueue'⟩, ?_⟩
    rw [hnone, ← hdone]
    exact (congrArg _ (List.append_nil cmds)).trans hreads
  · -- a burst of the words left, eight at most
    have h0 : (s.engine.wordsLeft == 0) = false := by
      rw [hleft]
      exact beq_false_of_ne (Clocked.ofNat_ne_ofNat (n := 0) (by omega) (by omega) (by omega))
    rw [LineFetcher.issueNext, h0, if_neg Bool.false_ne_true, if_pos (by rw [hrd]; rfl),
      burstWords_eq (by omega) hleft] at hnew
    refine ⟨fetching_of_quiet hgiven h (by rw [hnew]) (by rw [hnew]) (bursts_of_none hnone), .inr ?_⟩
    refine .asking (min 8 (j.words - k)) (by omega) (by omega) (by omega) ?_ ?_ ?_ ?_ ?_ ?_ ?_ hqueue' ?_
    · rw [hnew]
      exact hstate
    · rw [hnew]
    · rw [hnew]
      exact hcur
    · rw [hnew]
    · rw [hnew]
    · rw [hnew]
      exact hcur
    · rw [hnew]
      exact hleft
    · rw [hnone]
      exact (congrArg _ (List.append_nil cmds)).trans hreads

section Asking

variable (h : Fetching j Given lb₀ s k cmds) (hwords : j.words < 512)
  (hpos : 0 < b) (hb : b ≤ 8) (hle : k + b ≤ j.words) (hstate : s.engine.state = .issue) (hrd : s.engine.ddrRd = true)
  (haddr : s.engine.ddrAddr = j.address k) (hcnt : s.engine.ddrBurstcnt = BitVec.ofNat 8 b)
  (hburst : s.engine.burstLeft = BitVec.ofNat 8 b) (hcur : s.engine.curAddr = j.address k)
  (hleft : s.engine.wordsLeft = BitVec.ofNat 9 (j.words - k)) (hqueue : s.queue = [])
  (hreads : cmds.flatMap addresses = (List.range k).map j.address)
include h hwords hpos hb hle hstate hrd haddr hcnt hburst hcur hleft hqueue hreads

/-- A read that is held. -/
theorem stage_held (hbusy : i.ddrBusy = true) :
    Fetching j Given' lb₀ (s.step i) k (cmds ++ (s.command i).toList) ∧
      Stage j Given' (s.step i) k (cmds ++ (s.command i).toList) (4 * (j.words - k) + 1) := by
  have hnew := engine_issue (i := i) hstate
  have h0 : (s.engine.wordsLeft == 0) = false := by
    rw [hleft]
    exact beq_false_of_ne (Clocked.ofNat_ne_ofNat (n := 0) (by omega) (by omega) (by omega))
  have hnone : s.command i = none := by
    rw [command, hbusy, Bool.not_true, Bool.and_false]
    rfl
  have hqueue' := queue_of_no_dout (i := i) (no_dout_of_empty hqueue)
  rw [hqueue, List.nil_append, hnone] at hqueue'
  rw [LineFetcher.issueNext, h0, if_neg Bool.false_ne_true, if_neg (by rw [hrd]; simp), hbusy, if_neg (by simp)] at hnew
  refine ⟨fetching_of_quiet hgiven h (by rw [hnew]) (by rw [hnew]) (bursts_of_none hnone), ?_⟩
  refine .asking b hpos hb hle ?_ ?_ ?_ ?_ ?_ ?_ ?_ hqueue' ?_
  · rw [hnew]
    exact hstate
  · rw [hnew]
    exact hrd
  · rw [hnew]
    exact haddr
  · rw [hnew]
    exact hcnt
  · rw [hnew]
    exact hburst
  · rw [hnew]
    exact hcur
  · rw [hnew]
    exact hleft
  · rw [hnone]
    exact (congrArg _ (List.append_nil cmds)).trans hreads

/-- A read that DDR3 takes. -/
theorem stage_taken (hnow : ∀ a, Given' a (i.mem a)) (hbusy : i.ddrBusy = false) :
    Fetching j Given' lb₀ (s.step i) k (cmds ++ (s.command i).toList) ∧
      Stage j Given' (s.step i) k (cmds ++ (s.command i).toList) (4 * (j.words - k)) := by
  have hnew := engine_issue (i := i) hstate
  have h0 : (s.engine.wordsLeft == 0) = false := by
    rw [hleft]
    exact beq_false_of_ne (Clocked.ofNat_ne_ofNat (n := 0) (by omega) (by omega) (by omega))
  have hsome : s.command i = some (j.address k, BitVec.ofNat 8 b) := by
    rw [command, hbusy, hrd, haddr, hcnt]
    rfl
  have hqueue' := queue_of_no_dout (i := i) (no_dout_of_empty hqueue)
  rw [hqueue, List.nil_append, hsome] at hqueue'
  have hlist : (s.step i).queue = (List.range b).map fun m => i.mem (j.address (k + m)) := by
    rw [hqueue', Option.elim_some, addresses_eq hb, List.map_map]
    rfl
  rw [LineFetcher.issueNext, h0, if_neg Bool.false_ne_true, if_neg (by rw [hrd]; simp), hbusy, if_pos (by simp)] at hnew
  constructor
  · refine fetching_of_quiet hgiven h (by rw [hnew]) (by rw [hnew]) ?_
    rw [hsome]
    rintro c ⟨⟩
    refine ⟨Clocked.ofNat_ne_ofNat (n := 0) (by omega) (by omega) (by omega), ?_⟩
    rw [BitVec.le_def, BitVec.toNat_ofNat, show (8 : BitVec 8).toNat = 8 from rfl]
    omega
  · refine .data b hpos hb hle ?_ ?_ ?_ ?_ ?_ ?_ ?_ ?_
    · rw [hnew]
    · rw [hnew]
    · rw [hnew]
      exact hburst
    · have hsum : s.engine.curAddr + s.engine.ddrBurstcnt.setWidth 29 = j.address (k + b) := by
        rw [hcur, hcnt, setWidth_ofNat (by omega), j.address_add]
      rw [hnew]
      exact hsum
    · have hdiff : s.engine.wordsLeft - s.engine.ddrBurstcnt.setWidth 9 = BitVec.ofNat 9 (j.words - (k + b)) := by
        rw [hleft, hcnt, setWidth_ofNat (by omega), Clocked.ofNat_sub (by omega), Nat.sub_sub]
      rw [hnew]
      exact hdiff
    · rw [hlist, List.length_map, List.length_range]
    · intro m hm
      simp only [hlist, List.getElem_map, List.getElem_range]
      exact hnow _
    · rw [hsome, Option.toList_some, List.flatMap_append, hreads, List.flatMap_singleton, range_addresses hb]

end Asking

section Data

variable (h : Fetching j Given lb₀ s k cmds) (hwords : j.words < 512) (hpos : 0 < b) (hb : b ≤ 8)
  (hle : k + b ≤ j.words) (hstate : s.engine.state = .data) (hrd : s.engine.ddrRd = false)
  (hburst : s.engine.burstLeft = BitVec.ofNat 8 b) (hcur : s.engine.curAddr = j.address (k + b))
  (hleft : s.engine.wordsLeft = BitVec.ofNat 9 (j.words - (k + b))) (hlength : s.queue.length = b)
  (hqueue : ∀ m (hm : m < s.queue.length), Given (j.address (k + m)) s.queue[m])
  (hreads : cmds.flatMap addresses = (List.range (k + b)).map j.address)
include h hwords hpos hb hle hstate hrd hburst hcur hleft hlength hqueue hreads

omit hwords in
/-- No word comes back. -/
theorem stage_waits (hready : s.doutReady i = false) :
    Fetching j Given' lb₀ (s.step i) k (cmds ++ (s.command i).toList) ∧
      Stage j Given' (s.step i) k (cmds ++ (s.command i).toList) (4 * (j.words - k)) := by
  have hnew := engine_data (i := i) hstate
  have hnone : s.command i = none := no_command hrd
  have hqueue' : (s.step i).queue = s.queue := by
    rw [queue_of_no_dout hready, hnone]
    exact List.append_nil _
  rw [LineFetcher.dataNext, hready, if_neg Bool.false_ne_true] at hnew
  refine ⟨fetching_of_quiet hgiven h (by rw [hnew]) (by rw [hnew]) (bursts_of_none hnone), ?_⟩
  refine .data b hpos hb hle ?_ ?_ ?_ ?_ ?_ (by rw [hqueue', hlength]) ?_ ?_
  · rw [hnew]
    exact hstate
  · rw [hnew]
    exact hrd
  · rw [hnew]
    exact hburst
  · rw [hnew]
    exact hcur
  · rw [hnew]
    exact hleft
  · rw [hqueue']
    exact fun m hm => hgiven _ _ (hqueue m hm)
  · rw [hnone]
    exact (congrArg _ (List.append_nil cmds)).trans hreads

/-- A word that comes back counts, the last one ends the burst. -/
theorem stage_beat (hready : s.doutReady i = true) :
    ∃ left', Fetching j Given' lb₀ (s.step i) (k + 1) (cmds ++ (s.command i).toList) ∧
      Stage j Given' (s.step i) (k + 1) (cmds ++ (s.command i).toList) left' ∧ left' < 4 * (j.words - k) := by
  have hnew := engine_data (i := i) hstate
  have hnone : s.command i = none := no_command hrd
  have hreads' : (cmds ++ (s.command i).toList).flatMap addresses = (List.range (k + b)).map j.address := by
    rw [hnone]
    exact (congrArg _ (List.append_nil cmds)).trans hreads
  have hdout : Given' (j.address k) s.dout := by
    have hhead := hqueue 0 (by omega)
    rw [dout_eq (by omega)]
    exact hgiven _ _ hhead
  have hfetch := fetching_of_beat hgiven h (by omega) hwords hstate hrd hready hdout
  have hqueue' : (s.step i).queue = s.queue.tail := by
    rw [step, fifoStep, hready, if_pos rfl, hnone]
    exact List.append_nil _
  rw [LineFetcher.dataNext, hready, if_pos rfl] at hnew
  by_cases hlast : b = 1
  · subst hlast
    refine ⟨_, hfetch, ?_, (by omega : 4 * (j.words - (k + 1)) + 2 < 4 * (j.words - k))⟩
    refine .issue (by omega) ?_ ?_ ?_ ?_ ?_ hreads'
    · rw [hnew, hburst]
      rfl
    · rw [hnew]
      exact hrd
    · rw [hnew]
      exact hcur
    · rw [hnew]
      exact hleft
    · rw [hqueue']
      exact List.eq_nil_of_length_eq_zero (by rw [List.length_tail, hlength])
  · have hne : (s.engine.burstLeft == 1) = false := by
      rw [hburst]
      exact beq_false_of_ne (Clocked.ofNat_ne_ofNat (n := 1) (by omega) (by omega) hlast)
    have hsum : k + 1 + (b - 1) = k + b := by omega
    refine ⟨_, hfetch, ?_, (by omega : 4 * (j.words - (k + 1)) < 4 * (j.words - k))⟩
    refine .data (b - 1) (by omega) (by omega) (by omega) ?_ ?_ ?_ ?_ ?_ ?_ ?_ (by rw [hsum]; exact hreads')
    · rw [hnew, hne]
      rfl
    · rw [hnew]
      exact hrd
    · have hdiff : s.engine.burstLeft - 1 = BitVec.ofNat 8 (b - 1) := by
        rw [hburst, show (1 : BitVec 8) = BitVec.ofNat 8 1 from rfl, Clocked.ofNat_sub (by omega)]
      rw [hnew]
      exact hdiff
    · rw [hnew, hsum]
      exact hcur
    · rw [hnew, hsum]
      exact hleft
    · rw [hqueue', List.length_tail, hlength]
    · intro m hm
      simp only [hqueue', List.length_tail] at hm ⊢
      rw [List.getElem_tail, show k + 1 + m = k + (m + 1) by omega]
      exact hgiven _ _ (hqueue (m + 1) (by omega))

end Data

/-- A clock of a line under way: it is still under way, with less left unless it had to wait, or through. -/
theorem line_step (hnow : ∀ a, Given' a (i.mem a)) (hwords : j.words < 512) (h : Fetching j Given lb₀ s k cmds)
    {left : Nat} (hstage : Stage j Given s k cmds left) :
    ∃ k', Fetching j Given' lb₀ (s.step i) k' (cmds ++ (s.command i).toList) ∧
      (k' = j.words ∧ (s.step i).Rest ∧
          (cmds ++ (s.command i).toList).flatMap addresses = (List.range j.words).map j.address ∨
        ∃ left', Stage j Given' (s.step i) k' (cmds ++ (s.command i).toList) left' ∧
          (left' < left ∨ left' = left ∧
            (left % 4 = 1 ∧ i.ddrBusy = true ∨ left % 4 = 0 ∧ i.answers = false))) := by
  cases hstage with
  | issue hle state rd cur left queue reads =>
    obtain ⟨hfetch, hend | hstage'⟩ := stage_issue hgiven h hwords hle state rd cur left queue reads
    · exact ⟨k, hfetch, .inl hend⟩
    · exact ⟨k, hfetch, .inr ⟨_, hstage', .inl (by omega)⟩⟩
  | asking b hpos hb hle state rd addr cnt burst cur left queue reads =>
    cases hbusy : i.ddrBusy with
    | true =>
      obtain ⟨hfetch, hstage'⟩ :=
        stage_held hgiven h hwords hpos hb hle state rd addr cnt burst cur left queue reads hbusy
      exact ⟨k, hfetch, .inr ⟨_, hstage', .inr ⟨rfl, .inl ⟨by omega, rfl⟩⟩⟩⟩
    | false =>
      obtain ⟨hfetch, hstage'⟩ :=
        stage_taken hgiven h hwords hpos hb hle state rd addr cnt burst cur left queue reads hnow hbusy
      exact ⟨k, hfetch, .inr ⟨_, hstage', .inl (Nat.lt_succ_self _)⟩⟩
  | data b hpos hb hle state rd burst cur left length queue reads =>
    cases hready : s.doutReady i with
    | true =>
      obtain ⟨left', hfetch, hstage', hlt⟩ :=
        stage_beat hgiven h hwords hpos hb hle state rd burst cur left length queue reads hready
      exact ⟨k + 1, hfetch, .inr ⟨left', hstage', .inl hlt⟩⟩
    | false =>
      obtain ⟨hfetch, hstage'⟩ :=
        stage_waits hgiven h hpos hb hle state rd burst cur left length queue reads hready
      have hsome : s.queue.isEmpty = false := by
        rw [List.isEmpty_eq_false_iff]
        exact List.ne_nil_of_length_pos (by omega)
      rw [doutReady, hsome, Bool.not_false, Bool.and_true] at hready
      exact ⟨k, hfetch, .inr ⟨_, hstage', .inr ⟨rfl, .inr ⟨by omega, hready⟩⟩⟩⟩

end Line

/-- The engine takes the request on the mailbox. -/
def accepts (s : FetchPort) (i : FetchIn) : Bool :=
  s.engine.state == .idle && (i.request.reqValid && !s.engine.reqTaken && !i.ddrBusy)

theorem engine_idle (h : s.engine.state = .idle) : (s.step i).engine = s.engine.idleNext i.request i.ddrBusy := by
  rw [step, LineFetcher.step, if_neg (by simp), h]

theorem Rest.written (h : s.Rest) : s.written = s.lb := by
  rw [FetchPort.written, h.we]
  rfl

theorem Rest.step_of_not_accepts (h : s.Rest) (hno : s.accepts i = false) : (s.step i).Rest := by
  have hnew := engine_idle (i := i) h.state
  have hgo : (i.request.reqValid && !s.engine.reqTaken && !i.ddrBusy) = false := by
    rw [accepts, h.state] at hno
    simpa using hno
  rw [LineFetcher.idleNext, hgo, if_neg Bool.false_ne_true] at hnew
  refine ⟨?_, by rw [hnew], by rw [hnew], ?_⟩
  · rw [hnew]
    exact h.state
  · rw [queue_of_no_dout (no_dout_of_empty h.queue), h.queue, no_command h.rd]
    rfl

/-- The request that is taken becomes a line under way, with nothing read or stored yet. -/
theorem Rest.step_of_accepts (h : s.Rest) (hgo : s.accepts i = true) (Given : BitVec 29 → BitVec 64 → Prop) :
    Fetching (jobOf i.request) Given s.lb (s.step i) 0 [] ∧ Stage (jobOf i.request) Given (s.step i) 0 []
      (4 * ((jobOf i.request).words - 0) + 2) := by
  have hnew := engine_idle (i := i) h.state
  have hgo' := ((Bool.and_eq_true _ _).mp hgo).2
  rw [LineFetcher.idleNext, hgo', if_pos rfl] at hnew
  have hwritten : (s.step i).written = s.lb := by
    rw [written_of_quiet (by rw [hnew]), h.written]
  have hlb : (s.step i).lb = s.lb := h.written
  have hqueue : (s.step i).queue = [] := by
    rw [queue_of_no_dout (no_dout_of_empty h.queue), h.queue, no_command h.rd]
    rfl
  constructor
  · refine ⟨?_, fun m hm => absurd hm (Nat.not_lt_zero m), fun a _ => ?_, fun c hc => absurd hc List.not_mem_nil⟩
    · rw [hnew]
      rfl
    · rw [hwritten, hlb]
      exact ⟨rfl, rfl⟩
  · refine .issue (Nat.zero_le _) (by rw [hnew]) (by rw [hnew]) ?_ ?_ hqueue rfl
    · rw [hnew, LineJob.address]
      exact (BitVec.add_zero _).symm
    · rw [hnew, Nat.sub_zero, jobOf, BitVec.ofNat_toNat, BitVec.setWidth_eq]

end FetchPort

/-! ## Runs -/

/-- The engine from its reset on, with any requests, any busy pattern of the port, any latency of DDR3 and any
contents of it. -/
structure FetchRun where
  engine : LineFetcher
  lb : BitVec 10 → BitVec 64
  inputs : Nat → FetchIn

namespace FetchRun

variable (r : FetchRun)

/-- The engine, the buffer and DDR3's words in clock `t`. -/
def state : Nat → FetchPort := Clocked.run FetchPort.step ⟨r.engine.reset, r.lb, []⟩ r.inputs

theorem state_succ (t : Nat) : r.state (t + 1) = (r.state t).step (r.inputs t) := Clocked.run_succ _ _ _ _

/-- The engine takes a request in clock `t`. -/
def accepts (t : Nat) : Bool := (r.state t).accepts (r.inputs t)

/-- What it asks for. -/
def job (t : Nat) : LineJob := jobOf (r.inputs t).request

/-- The reads that DDR3 takes in the `n` clocks from `t` on. -/
def commands (t n : Nat) : List (BitVec 29 × BitVec 8) :=
  Clocked.journal (fun k => ((r.state (t + k)).command (r.inputs (t + k))).toList) n

/-- The port is granted, and DDR3 answers, again and again. -/
structure Fair : Prop where
  granted : ∀ t, ∃ u, t ≤ u ∧ (r.inputs u).ddrBusy = false
  answered : ∀ t, ∃ u, t ≤ u ∧ (r.inputs u).answers = true

/-- The first `n` clocks of the line that is taken in clock `t`: bursts of one to eight words, in all a first part of
the line's words in order, and nothing stored outside the line's part of its half. -/
structure UnderWay (t n : Nat) : Prop where
  bursts : ∀ c ∈ r.commands t n, c.2 ≠ 0 ∧ c.2 ≤ 8
  reads : ∃ m, m ≤ (r.job t).words ∧
    (r.commands t n).flatMap FetchPort.addresses = (List.range m).map (r.job t).address
  kept : ∀ a, (∀ k, k < (r.job t).words → a ≠ (r.job t).slot k) → (r.state (t + n)).lb a = (r.state t).lb a

/-- The line that is taken in clock `t` is through `n` clocks later: the bus was held until then and is released,
every word of the line was read, and each is in its place. -/
structure Through (t n : Nat) : Prop where
  owner : ∀ k, 0 < k → k < n → (r.state (t + k)).engine.owner = true
  released : (r.state (t + n)).engine.owner = false
  reads : (r.commands t n).flatMap FetchPort.addresses = (List.range (r.job t).words).map (r.job t).address
  stored : ∀ k, k < (r.job t).words → ∃ u, t < u ∧ u < t + n ∧
    (r.state (t + n)).lb ((r.job t).slot k) = (r.inputs u).mem ((r.job t).address k)

/-- Every line that is taken is fetched as asked for, and is through once the port and DDR3 let it. -/
def FetchesLines : Prop :=
  ∀ t, r.accepts t = true →
    (∀ n, (∀ k, 0 < k → k < n → (r.state (t + k)).engine.owner = true) → r.UnderWay t n) ∧
      (r.Fair → ∃ n, 0 < n ∧ r.Through t n)

/-- What was read from an address after clock `t` and before clock `v`. -/
def ReadIn (t v : Nat) (a : BitVec 29) (x : BitVec 64) : Prop := ∃ u, t < u ∧ u < v ∧ x = (r.inputs u).mem a

variable {r}

theorem ReadIn.mono {t v v' : Nat} (hv : v ≤ v') (a : BitVec 29) (x : BitVec 64) (h : r.ReadIn t v a x) :
    r.ReadIn t v' a x := by
  obtain ⟨u, htu, huv, hx⟩ := h
  exact ⟨u, htu, lt_of_lt_of_le huv hv, hx⟩

theorem commands_succ (t n : Nat) : r.commands t (n + 1) =
    r.commands t n ++ ((r.state (t + n)).command (r.inputs (t + n))).toList := Clocked.journal_succ _ _

/-- The line of clock `t`, `n` clocks later. -/
def Line (r : FetchRun) (t n : Nat) : Prop :=
  ∃ k, Fetching (r.job t) (r.ReadIn t (t + n)) (r.state t).lb (r.state (t + n)) k (r.commands t n) ∧
    (k = (r.job t).words ∧ (r.state (t + n)).Rest ∧
        (r.commands t n).flatMap FetchPort.addresses = (List.range (r.job t).words).map (r.job t).address ∨
      ∃ left, Stage (r.job t) (r.ReadIn t (t + n)) (r.state (t + n)) k (r.commands t n) left)

theorem owner_of_stage {j : LineJob} {Given : BitVec 29 → BitVec 64 → Prop} {s : FetchPort} {k : Nat}
    {cmds : List (BitVec 29 × BitVec 8)} {left : Nat} (h : Stage j Given s k cmds left) : s.engine.owner = true := by
  unfold LineFetcher.owner
  cases h with
  | issue _ state => rw [state]; rfl
  | asking _ _ _ _ state => rw [state]; rfl
  | data _ _ _ _ state => rw [state]; rfl

theorem owner_of_rest {s : FetchPort} (h : s.Rest) : s.engine.owner = false := by
  rw [LineFetcher.owner, h.state]
  rfl

/-- The line is under way as long as the engine holds the bus. -/
theorem line_of_owner {t : Nat} (hrest : (r.state t).Rest) (hgo : r.accepts t = true) (n : Nat)
    (howner : ∀ k, 0 < k → k ≤ n → (r.state (t + k)).engine.owner = true) : r.Line t (n + 1) := by
  induction n with
  | zero =>
    have hnone : r.commands t 1 = [] := by
      rw [commands_succ, Nat.add_zero, FetchPort.no_command hrest.rd]
      rfl
    obtain ⟨hfetch, hstage⟩ := hrest.step_of_accepts hgo (r.ReadIn t (t + 1))
    rw [← state_succ] at hfetch hstage
    exact ⟨0, by rw [hnone]; exact hfetch, .inr ⟨_, by rw [hnone]; exact hstage⟩⟩
  | succ n ih =>
    obtain ⟨k, hfetch, hend | ⟨left, hstage⟩⟩ := ih fun k hk hkn => howner k hk (by omega)
    · have hheld := howner (n + 1) (by omega) (le_refl _)
      rw [owner_of_rest hend.2.1] at hheld
      exact absurd hheld Bool.false_ne_true
    · have hstep := FetchPort.line_step (i := r.inputs (t + (n + 1)))
        (show ∀ a x, r.ReadIn t (t + (n + 1)) a x → r.ReadIn t (t + (n + 1) + 1) a x from ReadIn.mono (by omega))
        (fun a => ⟨t + (n + 1), by omega, by omega, rfl⟩) (LineJob.words_jobOf _) hfetch hstage
      rw [← state_succ, ← commands_succ] at hstep
      obtain ⟨k', hfetch', hend | ⟨left', hstage', -⟩⟩ := hstep
      · exact ⟨k', hfetch', .inl hend⟩
      · exact ⟨k', hfetch', .inr ⟨left', hstage'⟩⟩

theorem Line.underWay {t n : Nat} (h : r.Line t n) : r.UnderWay t n := by
  obtain ⟨k, hfetch, hend⟩ := h
  refine ⟨hfetch.bursts, ?_, fun a ha => (hfetch.kept a ha).1⟩
  rcases hend with ⟨-, -, hreads⟩ | ⟨left, hstage⟩
  · exact ⟨_, le_refl _, hreads⟩
  · cases hstage with
    | issue hle _ _ _ _ _ reads => exact ⟨k, hle, reads⟩
    | asking b _ _ hle _ _ _ _ _ _ _ _ reads => exact ⟨k, by omega, reads⟩
    | data b _ _ hle _ _ _ _ _ _ _ reads => exact ⟨k + b, hle, reads⟩

/-- A line is under way in clock `t`, with so much left. -/
def Busy (r : FetchRun) (t left : Nat) : Prop :=
  ∃ (j : LineJob) (k : Nat) (lb₀ : BitVec 10 → BitVec 64) (cmds : List (BitVec 29 × BitVec 8)), j.words < 512 ∧
    Fetching j (fun _ _ => True) lb₀ (r.state t) k cmds ∧ Stage j (fun _ _ => True) (r.state t) k cmds left

theorem Busy.step {t left : Nat} (h : r.Busy t left) : (r.state (t + 1)).Rest ∨
    ∃ left', r.Busy (t + 1) left' ∧ (left' < left ∨ left' = left ∧
      (left % 4 = 1 ∧ (r.inputs t).ddrBusy = true ∨ left % 4 = 0 ∧ (r.inputs t).answers = false)) := by
  obtain ⟨j, k, lb₀, cmds, hwords, hfetch, hstage⟩ := h
  obtain ⟨k', hfetch', ⟨-, hrest, -⟩ | ⟨left', hstage', hless⟩⟩ :=
    FetchPort.line_step (i := r.inputs t) (fun _ _ h => h) (fun _ => trivial) hwords hfetch hstage
  · rw [← state_succ] at hrest
    exact .inl hrest
  · rw [← state_succ] at hfetch' hstage'
    exact .inr ⟨left', ⟨j, k', lb₀, _, hwords, hfetch', hstage'⟩, hless⟩

/-- The engine rests, or a line is under way. -/
theorem rest_or_busy (t : Nat) : (r.state t).Rest ∨ ∃ left, r.Busy t left := by
  induction t with
  | zero => exact .inl ⟨rfl, rfl, rfl, rfl⟩
  | succ t ih =>
    rcases ih with hrest | ⟨left, hbusy⟩
    · by_cases hgo : (r.state t).accepts (r.inputs t) = true
      · obtain ⟨hfetch, hstage⟩ := hrest.step_of_accepts hgo fun _ _ => True
        rw [← state_succ] at hfetch hstage
        exact .inr ⟨_, _, _, _, _, LineJob.words_jobOf _, hfetch, hstage⟩
      · rw [state_succ]
        exact .inl (hrest.step_of_not_accepts (by simpa using hgo))
    · rcases hbusy.step with hrest | ⟨left', hbusy', -⟩
      · exact .inl hrest
      · exact .inr ⟨left', hbusy'⟩

theorem rest_of_accepts {t : Nat} (h : r.accepts t = true) : (r.state t).Rest := by
  have hidle : (r.state t).engine.state = .idle := by simpa using ((Bool.and_eq_true _ _).mp h).1
  rcases r.rest_or_busy t with hrest | ⟨left, j, k, lb₀, cmds, -, -, hstage⟩
  · exact hrest
  · have howner := owner_of_stage hstage
    rw [LineFetcher.owner, hidle] at howner
    exact absurd howner (by decide)

/-- A line under way comes to its end. -/
theorem Fair.rests (hfair : r.Fair) (left : Nat) : ∀ t, r.Busy t left → ∃ u, t ≤ u ∧ (r.state u).Rest := by
  induction left using Nat.strong_induction_on with
  | _ left ih =>
    -- `d` clocks on, what the line waits for comes
    have hwait : ∀ d t, r.Busy t left → (left % 4 = 1 → (r.inputs (t + d)).ddrBusy = false) →
        (left % 4 = 0 → (r.inputs (t + d)).answers = true) → ∃ u, t ≤ u ∧ (r.state u).Rest := by
      intro d
      induction d with
      | zero =>
        intro t hbusy hgrant hanswer
        rcases hbusy.step with hrest | ⟨left', hbusy', hlt | ⟨-, ⟨h1, hheld⟩ | ⟨h0, hheld⟩⟩⟩
        · exact ⟨t + 1, by omega, hrest⟩
        · obtain ⟨u, hu, hrest⟩ := ih left' hlt (t + 1) hbusy'
          exact ⟨u, by omega, hrest⟩
        · exact absurd (hheld.symm.trans (hgrant h1)) nofun
        · exact absurd (hheld.symm.trans (hanswer h0)) nofun
      | succ d ihd =>
        intro t hbusy hgrant hanswer
        rcases hbusy.step with hrest | ⟨left', hbusy', hlt | ⟨heq, -⟩⟩
        · exact ⟨t + 1, by omega, hrest⟩
        · obtain ⟨u, hu, hrest⟩ := ih left' hlt (t + 1) hbusy'
          exact ⟨u, by omega, hrest⟩
        · rw [show t + (d + 1) = t + 1 + d by omega] at hgrant hanswer
          obtain ⟨u, hu, hrest⟩ := ihd (t + 1) (heq ▸ hbusy') hgrant hanswer
          exact ⟨u, by omega, hrest⟩
    intro t hbusy
    by_cases h1 : left % 4 = 1
    · obtain ⟨u, hu, hgrant⟩ := hfair.granted t
      refine hwait (u - t) t hbusy (fun _ => ?_) (fun h0 => absurd h0 (by omega))
      rwa [Nat.add_sub_cancel' hu]
    · obtain ⟨u, hu, hanswer⟩ := hfair.answered t
      refine hwait (u - t) t hbusy (fun h => absurd h h1) (fun _ => ?_)
      rwa [Nat.add_sub_cancel' hu]

theorem Line.through {t n : Nat} (h : r.Line t n) (hrest : (r.state (t + n)).Rest)
    (howner : ∀ k, 0 < k → k < n → (r.state (t + k)).engine.owner = true) : r.Through t n := by
  obtain ⟨k, hfetch, ⟨rfl, -, hreads⟩ | ⟨left, hstage⟩⟩ := h
  · refine ⟨howner, owner_of_rest hrest, hreads, fun k hk => ?_⟩
    obtain ⟨u, htu, hun, hword⟩ := hfetch.stored k hk
    rw [hrest.written] at hword
    exact ⟨u, htu, hun, hword⟩
  · exact absurd ((owner_of_stage hstage).symm.trans (owner_of_rest hrest)) nofun

/-- An engine that does not hold the bus rests. -/
theorem rest_of_released {t : Nat} (hfree : (r.state t).engine.owner = false) : (r.state t).Rest := by
  rcases r.rest_or_busy t with hrest | ⟨left, _, _, _, _, -, -, hstage⟩
  · exact hrest
  · exact absurd (hfree.symm.trans (owner_of_stage hstage)) Bool.false_ne_true

/-- The line that is taken in clock `t` is through when the engine lets go of the bus for the first time. -/
theorem through_of_released {t u : Nat} (hgo : r.accepts t = true) (htu : t < u)
    (hfree : (r.state u).engine.owner = false) : ∃ n, 0 < n ∧ t + n ≤ u ∧ r.Through t n := by
  obtain ⟨v, htv, hfirst, hbefore⟩ := Clocked.exists_first (P := fun v => (r.state v).engine.owner = false)
    ⟨u, Nat.succ_le_of_lt htu, hfree⟩
  have hvu : v ≤ u := Nat.le_of_not_lt fun huv => hbefore u (Nat.succ_le_of_lt htu) huv hfree
  obtain ⟨n, rfl⟩ : ∃ n, v = t + (n + 1) := ⟨v - t - 1, by omega⟩
  have howner : ∀ k, 0 < k → k < n + 1 → (r.state (t + k)).engine.owner = true := by
    intro k hk hkn
    simpa using hbefore (t + k) (by omega) (by omega)
  refine ⟨n + 1, Nat.succ_pos n, hvu, ?_⟩
  exact (line_of_owner (rest_of_accepts hgo) hgo n fun k hk hkn => howner k hk (by omega)).through
    (rest_of_released hfirst) howner

theorem fetchesLines (r : FetchRun) : r.FetchesLines := by
  intro t hgo
  have hrest := rest_of_accepts hgo
  constructor
  · intro n howner
    cases n with
    | zero => exact ⟨fun c hc => absurd hc List.not_mem_nil, ⟨0, Nat.zero_le _, rfl⟩, fun _ _ => rfl⟩
    | succ n => exact (line_of_owner hrest hgo n fun k hk hkn => howner k hk (by omega)).underWay
  · intro hfair
    have hend : ∃ u, t + 1 ≤ u ∧ (r.state u).engine.owner = false := by
      rcases r.rest_or_busy (t + 1) with hnow | ⟨left, hbusy⟩
      · exact ⟨t + 1, le_refl _, owner_of_rest hnow⟩
      · obtain ⟨u, hu, hlater⟩ := hfair.rests left (t + 1) hbusy
        exact ⟨u, hu, owner_of_rest hlater⟩
    obtain ⟨u, htu, hfree⟩ := hend
    obtain ⟨n, hn, -, hthrough⟩ := through_of_released hgo htu hfree
    exact ⟨n, hn, hthrough⟩

/-! ## A half of the buffer -/

/-- Since clock `u` the half `half` has its words, and a line under way goes to the other half. -/
structure Keeps (r : FetchRun) (half : Bool) (u t : Nat) : Prop where
  same : ∀ k,
    (r.state t).lb (BitVec.ofBool half ++ BitVec.ofNat 9 k) = (r.state u).lb (BitVec.ofBool half ++ BitVec.ofNat 9 k)
  other : (r.state t).engine.owner = true → ∃ b n, t = b + n ∧ 0 < n ∧ r.accepts b = true ∧ (r.job b).buf = !half ∧
    (∀ k, 0 < k → k ≤ n → (r.state (b + k)).engine.owner = true) ∧
    ∀ k, (r.state b).lb (BitVec.ofBool half ++ BitVec.ofNat 9 k) = (r.state u).lb (BitVec.ofBool half ++ BitVec.ofNat 9 k)

theorem slot_ne_half {half : Bool} {j : LineJob} (hbuf : j.buf = !half) (k m : Nat) :
    BitVec.ofBool half ++ BitVec.ofNat 9 k ≠ j.slot m := by
  intro heq
  unfold LineJob.slot at heq
  have hhalf := congrArg (fun a : BitVec 10 => a.getLsbD 9) heq
  simp only [BitVec.getLsbD_append, Nat.lt_irrefl, if_false, Nat.sub_self] at hhalf
  rw [hbuf] at hhalf
  cases half <;> exact absurd hhalf (by decide)

theorem Keeps.step {half : Bool} {u t : Nat} (h : r.Keeps half u t)
    (hother : r.accepts t = true → (r.job t).buf = !half) : r.Keeps half u (t + 1) := by
  cases howner : (r.state t).engine.owner with
  | false =>
    have hrest := rest_of_released howner
    have hsame : (r.state (t + 1)).lb = (r.state t).lb := by
      rw [state_succ]
      exact hrest.written
    refine ⟨fun k => by rw [hsame]; exact h.same k, fun hnext => ?_⟩
    by_cases hgo : r.accepts t = true
    · refine ⟨t, 1, rfl, Nat.one_pos, hgo, hother hgo, fun k hk hk1 => ?_, h.same⟩
      obtain rfl : k = 1 := by omega
      exact hnext
    · rw [state_succ, owner_of_rest (hrest.step_of_not_accepts (Bool.eq_false_of_not_eq_true hgo))] at hnext
      exact absurd hnext Bool.false_ne_true
  | true =>
    obtain ⟨b, n, rfl, hn, hgo, hbuf, hheld, hbegin⟩ := h.other howner
    have hkept := (line_of_owner (rest_of_accepts hgo) hgo n hheld).underWay.kept
    refine ⟨fun k => (hkept _ fun m _ => slot_ne_half hbuf k m).trans (hbegin k), fun hnext => ?_⟩
    refine ⟨b, n + 1, rfl, Nat.succ_pos n, hgo, hbuf, fun k hk hkn => ?_, hbegin⟩
    rcases Nat.lt_succ_iff_lt_or_eq.1 (Nat.lt_succ_of_le hkn) with hlt | rfl
    · exact hheld k hk (Nat.lt_succ_iff.1 hlt)
    · exact hnext

/-- A half keeps its words while the lines that are taken go to the other one. -/
theorem half_kept {half : Bool} {u t : Nat} (hut : u ≤ t) (hfree : (r.state u).engine.owner = false)
    (hother : ∀ b, u ≤ b → b < t → r.accepts b = true → (r.job b).buf = !half) : r.Keeps half u t := by
  induction t, hut using Nat.le_induction with
  | base => exact ⟨fun _ => rfl, fun hheld => absurd (hfree.symm.trans hheld) Bool.false_ne_true⟩
  | succ t hut ih => exact (ih fun b hb hbt => hother b hb (by omega)).step (hother t hut (Nat.lt_succ_self t))

end FetchRun

end Z486.Video
