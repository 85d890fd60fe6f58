/-
How a DMA transfer of the floppy controller comes to its end behind the terminal count: a write pads the last sector
with zeros and stores it, while a read is done only when nothing of the sector is left in the queue.
-/
import Z486.Disk.FloppyTerminal

namespace Z486.Disk

open Clocked

namespace Floppy

variable {s : Floppy} {i : FloppyIn} {w : Bool}

/-! ## Finishing -/

/-- The states of a transfer that has no byte to get from DMA or to hand over any more. -/
def finishing (w : Bool) : List FloppyState :=
  [.updateSector, .wait, .checkTc] ++
    if w then [.waitForFullWriteFifo, .prepare, .sdControl, .sdWriteWaitForEmptyFifo] else []

/-- How far a finishing transfer is from its end: the counter of `wait` has 16 bits, the queue of a sector 512 bytes. -/
def rank (s : Floppy) : Nat :=
  match s.state with
  | .waitForFullWriteFifo => 75000 + (512 - s.fifo.contents.length)
  | .prepare => 74000
  | .sdControl => 73000
  | .sdWriteWaitForEmptyFifo => 72000 + s.fifo.contents.length
  | .updateSector => 70000
  | .wait => s.commandWaitCounter.toNat + 1
  | _ => 0

/-- The host has not yet taken the byte that waits for it. -/
def Stalls (s : Floppy) (i : FloppyIn) : Prop :=
  s.state = .sdWriteWaitForEmptyFifo ∧ s.fifo.empty = false ∧ i.fifoRead = false

theorem finishing_cases (hs : s.state ∈ finishing w) (hne : s.state ≠ .checkTc) :
    s.state = .updateSector ∨ s.state = .wait ∨ w = true ∧ (s.state = .waitForFullWriteFifo ∨
      s.state = .prepare ∨ s.state = .sdControl ∨ s.state = .sdWriteWaitForEmptyFifo) := by
  revert hs hne
  unfold finishing
  cases w <;> simp <;> tauto

theorem wait_step (hr : i.rstN = true) (hs : s.state = .wait) (hne : s.commandWaitCounter ≠ 0) :
    (s.step i).commandWaitCounter.toNat + 1 = s.commandWaitCounter.toNat := by
  have hcounter : (s.step i).commandWaitCounter = s.commandWaitCounter - 1 := by
    show s.commandWaitCounterNext i = _
    unfold commandWaitCounterNext
    rw [hr, hs, show (s.commandWaitCounter != 0) = true from bne_iff_ne.2 hne]
    rfl
  rw [hcounter]
  bv_omega

namespace Transfers

variable (h : s.Transfers w) (ha : s.Asked i)
include h ha

theorem step_state : (s.step i).state = s.transferNext w := h.stateNext_eq ha.rstN

theorem finishing_step (hs : s.state ∈ finishing w) (hne : s.state ≠ .checkTc) : (s.step i).state ∈ finishing w := by
  rw [h.step_state ha]
  unfold transferNext
  rcases finishing_cases hs hne with hs | hs | ⟨rfl, hs | hs | hs | hs⟩ <;> rw [hs] <;> dsimp only
  · simp [finishing]
  · split <;> simp [finishing]
  · split <;> simp [finishing]
  · simp [finishing]
  · simp [finishing]
  · split <;> simp [finishing]

/-- After the terminal count a zero goes into the queue of a write until it holds a sector. -/
theorem length_padded (hw : w = true) (hs : s.state = .waitForFullWriteFifo) (hfull : s.fifoFull = false)
    (hterm : s.dmaHasTerminated = true) : (s.step i).fifo.contents.length = s.fifo.contents.length + 1 := by
  rw [h.contents_write ha hw, h.no_take ha (by simp [hs]), hterm, hs, hfull]
  simp

/-- A byte that the host takes leaves the queue. -/
theorem length_stored (hs : s.state = .sdWriteWaitForEmptyFifo) (hread : i.fifoRead = true) :
    (s.step i).fifo.contents.length + 1 = s.fifo.contents.length := by
  obtain ⟨hw, -, hempty⟩ := h.takes_state ha hread
  have hne : s.fifo.contents ≠ [] := fun he => by
    rw [Fifo.contents_eq_nil.1 he] at hempty
    cases hempty
  have hpos := List.length_pos_of_ne_nil hne
  rw [h.contents_write ha hw, hread, h.no_ack ha (by simp [hs]) (by simp [hs]), hs]
  simp
  omega

/-- A stalled transfer stays as it is. -/
theorem stalls_step (hs : s.Stalls i) : (s.step i).rank = s.rank := by
  obtain ⟨hstate, hempty, hread⟩ := hs
  have hw : w = true := by
    by_contra hw
    exact (h.ne_of_read (by simpa using hw)).1 hstate
  have hack := h.no_ack ha (by simp [hstate]) (by simp [hstate])
  have hnext : (s.step i).state = .sdWriteWaitForEmptyFifo := by
    rw [h.step_state ha, transferNext, hstate, hempty]
    rfl
  unfold rank
  rw [hnext, hstate, h.contents_write ha hw, hread, hack, hstate]
  simp

/-- In every other clock it comes nearer to its end. -/
theorem rank_step (hs : s.state ∈ finishing w) (hne : s.state ≠ .checkTc) (hterm : s.dmaHasTerminated = true)
    (hgo : ¬ s.Stalls i) : (s.step i).rank < s.rank := by
  have hstate := h.step_state ha
  have hlen : (s.step i).fifo.contents.length ≤ 512 := (h.step ha (by simp [hne])).length_le
  rcases finishing_cases hs hne with hs | hs | ⟨hw, hs | hs | hs | hs⟩
  · -- the counter of `wait` is below the rank of the update
    have hwait : (s.step i).state = .wait := by rw [hstate, transferNext, hs]
    have hcounter := (s.step i).commandWaitCounter.isLt
    simp only [rank, hwait, hs]
    omega
  · by_cases hzero : s.commandWaitCounter = 0
    · have hcheck : (s.step i).state = .checkTc := by rw [hstate, transferNext, hs, hzero]; rfl
      simp only [rank, hcheck, hs]
      omega
    · have hwait : (s.step i).state = .wait := by
        rw [hstate, transferNext, hs]
        exact if_neg (by simpa using hzero)
      have hcounter := wait_step ha.rstN hs hzero
      simp only [rank, hwait, hs]
      omega
  · cases hfull : s.fifoFull with
    | true =>
      have hprepare : (s.step i).state = .prepare := by rw [hstate, transferNext, hs, hfull]; rfl
      simp only [rank, hprepare, hs]
      omega
    | false =>
      have hstay : (s.step i).state = .waitForFullWriteFifo := by rw [hstate, transferNext, hs, hfull]; rfl
      have hmore := h.length_padded ha hw hs hfull hterm
      have hlt := length_lt h.length_le hfull
      simp only [rank, hstay, hs]
      omega
  · have hcontrol : (s.step i).state = .sdControl := by rw [hstate, transferNext, hs]
    simp only [rank, hcontrol, hs]
    omega
  · have hstore : (s.step i).state = .sdWriteWaitForEmptyFifo := by rw [hstate, transferNext, hs, hw]; rfl
    simp only [rank, hstore, hs]
    omega
  · cases hempty : s.fifo.empty with
    | true =>
      have hupdate : (s.step i).state = .updateSector := by rw [hstate, transferNext, hs, hempty]; rfl
      simp only [rank, hupdate, hs]
      omega
    | false =>
      have hstay : (s.step i).state = .sdWriteWaitForEmptyFifo := by rw [hstate, transferNext, hs, hempty]; rfl
      have hread : i.fifoRead = true := by
        by_contra hread
        exact hgo ⟨hs, hempty, by simpa using hread⟩
      have hless := h.length_stored ha hs hread
      simp only [rank, hstay, hs]
      omega

/-- What DMA does not take from a sector stays in the queue. -/
theorem rest_step (hs : s.state = .waitForEmptyReadFifo) (hempty : s.fifo.empty = false) (hack : i.dmaAck = false) :
    (s.step i).state = .waitForEmptyReadFifo ∧ (s.step i).fifo.contents = s.fifo.contents := by
  have hw : w = false := by
    by_contra hw
    exact (h.ne_of_write (by simpa using hw)).2 hs
  constructor
  · rw [h.step_state ha, transferNext, hs, hempty]
    rfl
  · rw [h.contents_read ha hw, hack, h.no_give ha (by simp [hs])]
    simp

end Transfers

/-- One clock of the result phase, of whose seven bytes `k` have been read. -/
theorem Results.reads_step {k : Nat} (h : s.Results (7 - k)) (hk : k + (if i.reads 5 = true then 1 else 0) ≤ 6)
    (hr : i.rstN = true) (hs : s.swReset i = false) :
    (s.step i).Results (7 - (k + if i.reads 5 = true then 1 else 0)) := by
  obtain ⟨l, hl⟩ : ∃ l, 7 - k = l + 1 := ⟨6 - k, by omega⟩
  rw [hl] at h
  cases hread : i.reads 5 with
  | false => exact (show l + 1 = 7 - (k + if false = true then 1 else 0) by simp [hl]) ▸ h.wait hr hs hread
  | true =>
    rw [hread, if_pos rfl] at hk
    obtain ⟨m, rfl⟩ : ∃ m, l = m + 1 := ⟨l - 1, by omega⟩
    exact (show m + 1 = 7 - (k + if true = true then 1 else 0) by simp; omega) ▸ h.read rfl hr hs hread

end Floppy

namespace FloppyTransfer

variable {x : FloppyTransfer} {n : Nat}

/-! ## Results -/

theorem results {m : Nat} (h : (x.state n).Results 7) (hm : n ≤ m)
    (hno : ∀ u, n ≤ u → u < m → (x.input u).rstN = true ∧ (x.state u).swReset (x.input u) = false)
    (hreads : pulses (fun u => (x.input u).reads 5) n m ≤ 6) :
    (x.state m).Results (7 - pulses (fun u => (x.input u).reads 5) n m) := by
  induction m, hm using Nat.le_induction with
  | base => simpa using h
  | succ m hm ih =>
    rw [pulses_succ _ hm] at hreads ⊢
    obtain ⟨hr, hs⟩ := hno m hm (by omega)
    exact (ih (fun u h1 h2 => hno u h1 (by omega)) (by omega)).reads_step hreads hr hs

theorem acceptsFrom (h : (x.state n).Results 7) : x.AcceptsFrom n := by
  intro m hm hno hreads hread j hj
  have hresults := results h hm (fun u h1 h2 => hno u h1 (by omega)) hreads.le
  rw [hreads] at hresults
  obtain ⟨hr, hs⟩ := hno m hm le_rfl
  exact hresults.last rfl hr hs hread j hj

/-! ## Padding -/

/-- The state in the clock of the terminal count. -/
theorem tc_state (x : FloppyTransfer) : (x.state (x.lastAck + 1)).state =
    if x.isWrite then .waitForFullWriteFifo else .waitForEmptyReadFifo := by
  have hgoing : x.Going x.lastAck := (before (by omega)).1
  rw [state_succ, hgoing.transfers.step_state hgoing.asked, Floppy.transferNext]
  rcases x.ack_state with ⟨hw, hs, hempty⟩ | ⟨hw, hs, hlt⟩
  · rw [hs, hempty, hw]
    rfl
  · have hfull : (x.state x.lastAck).fifoFull = false := by
      by_contra hf
      have h512 := hgoing.transfers.fifoFull_iff.1 (by simpa using hf)
      rw [queue] at hlt
      omega
    rw [hs, hfull, hw]
    rfl

/-- Behind the terminal count the command ends in the first clock of `checkTc`. -/
theorem ne_checkTc (hn : x.lastAck + 2 ≤ n) (h : x.Going (n + 1)) : (x.state n).state ≠ .checkTc := by
  intro hcheck
  have hends := h n (by omega)
  rw [ends, hcheck, terminated hn (h.of_le (by omega))] at hends
  cases hends

/-- Once the last byte of a write has come, the queue is filled up with zeros. -/
structure Padding (x : FloppyTransfer) (n : Nat) : Prop where
  filled : ∃ z, z < 512 ∧ x.filled n = x.received n ++ List.replicate z 0
  finishing : (x.state n).state ∈ Floppy.finishing x.isWrite
  behind : (x.state n).state = .waitForFullWriteFifo → x.outs n < (x.received n).length

theorem received_succ (h : x.Going n) (hn : x.lastAck < n) : x.received (n + 1) = x.received n := by
  unfold received
  rw [journal_succ, no_ack hn h]
  simp

/-- Up to the terminal count there are no zeros. -/
theorem filled_eq_received (hn : n ≤ x.lastAck + 2) : x.filled n = x.received n :=
  journal_congr fun u hu => by rw [(before (x := x) (n := u) (by omega)).2]; rfl

theorem padding_tc (hw : x.isWrite = true) : x.Padding (x.lastAck + 1) := by
  have hstate := x.tc_state
  rw [hw, if_pos rfl] at hstate
  refine ⟨⟨0, by decide, ?_⟩, ?_, fun _ => ?_⟩
  · rw [filled_eq_received (by omega)]
    simp
  · rw [hstate, hw]
    decide
  · -- the last byte is still in the queue
    have hgoing : x.Going x.lastAck := (before (by omega)).1
    have hgoing' : x.Going (x.lastAck + 1) := (before (by omega)).1
    rcases x.ack_state with ⟨hw', -⟩ | ⟨-, hs, -⟩
    · exact absurd (hw.symm.trans hw') (by simp)
    · have houts := hgoing.outs_fill (hs.trans (by rw [hw]; rfl))
      have hins : x.ins (x.lastAck + 1) = x.ins x.lastAck + 1 := by
        rw [ins_succ, pushes, hw, if_pos rfl, (before (x := x) (n := x.lastAck) (by omega)).2, x.acked]
        rfl
      have hfilled : x.ins (x.lastAck + 1) = (x.received (x.lastAck + 1)).length := by
        rw [ins, hw, if_pos rfl, filled_eq_received (by omega)]
      have heq := hgoing.ins_eq
      omega

theorem Padding.step (h : x.Padding n) (hw : x.isWrite = true) (hn : x.lastAck < n) (hgoing : x.Going n)
    (hne : (x.state n).state ≠ .checkTc) : x.Padding (n + 1) := by
  obtain ⟨z, hz, hfilled⟩ := h.filled
  refine ⟨?_, hgoing.transfers.finishing_step hgoing.asked h.finishing hne, fun hs => ?_⟩
  · have hnext : x.filled (n + 1) = x.filled n ++ if x.pushes n then [0] else [] := by
      unfold FloppyTransfer.filled pushes
      rw [journal_succ, no_ack hn hgoing, hw]
      cases (x.state n).dmaHasTerminated <;> simp
    cases hpush : x.pushes n with
    | false => exact ⟨z, hz, by rw [hnext, received_succ hgoing hn, hfilled, hpush]; simp⟩
    | true =>
      obtain ⟨hs, hlt⟩ := hgoing.eq_of_pushes hpush
      rw [hw] at hs
      have hbehind := h.behind hs
      have heq := hgoing.ins_eq
      have hins : x.ins n = (x.received n).length + z := by rw [ins, hw, if_pos rfl, hfilled]; simp
      refine ⟨z + 1, by omega, ?_⟩
      rw [hnext, received_succ hgoing hn, hfilled, hpush, List.append_assoc, List.replicate_succ']
      rfl
  · have hfill : (x.state n).state = .waitForFullWriteFifo := by
      rw [state_succ, hgoing.transfers.step_state hgoing.asked] at hs
      rcases Floppy.finishing_cases h.finishing hne with hs' | hs' | ⟨-, hs' | hs' | hs' | hs'⟩
      all_goals
        rw [Floppy.transferNext, hs', hw] at hs
        first | exact hs' | (dsimp only at hs; (try split at hs) <;> cases hs)
    rw [hgoing.outs_fill (hfill.trans (by rw [hw]; rfl)), received_succ hgoing hn]
    exact h.behind hfill

theorem padding (hw : x.isWrite = true) (hn : x.lastAck + 1 ≤ n) (h : x.Going n) : x.Padding n := by
  induction n, hn using Nat.le_induction with
  | base => exact padding_tc hw
  | succ n hn ih =>
    have hn' : x.Going n := h.of_le (by omega)
    have hpadding := ih hn'
    refine hpadding.step hw hn hn' fun hcheck => ?_
    rcases Nat.eq_or_lt_of_le hn with rfl | hlt
    · rw [x.tc_state, hw] at hcheck
      cases hcheck
    · exact ne_checkTc hlt h hcheck

/-! ## The rest of a sector that is read -/

/-- What is left in the queue at the terminal count is what the acknowledged bytes lack of whole sectors. -/
theorem rest_empty_iff (hw : x.isWrite = false) :
    512 ∣ (x.handed (x.lastAck + 1)).length ↔ (x.state (x.lastAck + 1)).fifo.empty = true := by
  have hgoing : x.Going x.lastAck := (before (by omega)).1
  have hgoing' : x.Going (x.lastAck + 1) := (before (by omega)).1
  have hstate := x.tc_state
  have hsectors := hgoing'.sectors
  have heq := hgoing'.ins_eq
  rw [hw, if_neg (by simp)] at hstate
  rw [hw, hstate, if_neg (by decide)] at hsectors
  -- a byte has just been taken from the queue
  have hlt : (x.queue (x.lastAck + 1)).length < 512 := by
    have hno : (x.input x.lastAck).fifoWrite = false := hgoing.transfers.no_give hgoing.asked (by
      rcases x.ack_state with ⟨-, hs, -⟩ | ⟨-, hs, -⟩ <;> simp [hs])
    have hlen := hgoing.transfers.length_le
    rw [queue, state_succ, hgoing.transfers.contents_read hgoing.asked hw, x.acked, hno]
    simp
    omega
  have houts : x.outs (x.lastAck + 1) = (x.handed (x.lastAck + 1)).length := by rw [outs, hw, if_neg (by simp)]
  rw [← houts, ← Fifo.contents_eq_nil, ← List.length_eq_zero_iff, ← queue]
  omega

/-- The rest of a sector stays in the queue. -/
theorem stuck (hw : x.isWrite = false) (hrest : (x.state (x.lastAck + 1)).fifo.empty = false)
    (hn : x.lastAck + 1 ≤ n) :
    x.Going n ∧ (x.state n).state = .waitForEmptyReadFifo ∧ (x.state n).fifo.empty = false := by
  induction n, hn using Nat.le_induction with
  | base =>
    refine ⟨(before le_rfl).1, ?_, hrest⟩
    rw [x.tc_state, hw]
    rfl
  | succ n hn ih =>
    obtain ⟨hgoing, hs, hempty⟩ := ih
    obtain ⟨hs', hkeep⟩ := hgoing.transfers.rest_step hgoing.asked hs hempty (no_ack hn hgoing)
    refine ⟨hgoing.succ (by rw [ends, hs]; rfl), hs', ?_⟩
    rw [state_succ, ← Bool.not_eq_true, ← Fifo.contents_eq_nil, hkeep, Fifo.contents_eq_nil, hempty]
    simp

/-- A read whose terminal count leaves a rest of the sector never ends. -/
theorem not_completes (hw : x.isWrite = false) (hrest : (x.state (x.lastAck + 1)).fifo.empty = false) :
    ¬ x.Completes := by
  rintro ⟨n, hn⟩
  have hidle := hn.results.idle
  rw [(stuck hw hrest hn.after.le).2.1] at hidle
  cases hidle

/-! ## Completion -/

theorem finishing_of_done (hdone : x.SectorDone) (hn : x.lastAck + 2 ≤ n) (h : x.Going n) :
    (x.state n).state ∈ Floppy.finishing x.isWrite := by
  cases hw : x.isWrite with
  | true => exact hw ▸ (padding hw (by omega) h).finishing
  | false =>
    have hempty := (rest_empty_iff hw).1 (hdone.resolve_left (by simp [hw]))
    induction n, hn using Nat.le_induction with
    | base =>
      have hgoing : x.Going (x.lastAck + 1) := h.of_le (by omega)
      rw [state_succ, hgoing.transfers.step_state hgoing.asked, Floppy.transferNext, x.tc_state, hw, hempty]
      show FloppyState.updateSector ∈ Floppy.finishing false
      decide
    | succ n hn ih =>
      have hn' : x.Going n := h.of_le (by omega)
      rw [← hw]
      exact hn'.transfers.finishing_step hn'.asked (hw ▸ ih hn') (ne_checkTc hn h)

/-- The host does not let a transfer stall for ever. -/
theorem exists_unstalled (hgoing : ∀ n, x.Going n) (n : Nat) :
    ∃ m, n ≤ m ∧ ¬ (x.state m).Stalls (x.input m) := by
  obtain ⟨v, hv, hserved⟩ := x.served (x.accept + 1 + n)
  obtain ⟨m, rfl⟩ : ∃ m, v = x.accept + 1 + m := ⟨v - (x.accept + 1), by omega⟩
  refine ⟨m, by omega, fun ⟨hs, hempty, hread⟩ => ?_⟩
  have hw : x.isWrite = true := by
    by_contra hw
    exact ((hgoing m).transfers.ne_of_read (by simpa using hw)).1 hs
  have htakes := (hserved (FloppyTransfer.transfers (hgoing m)).2).takes
    ((hgoing m).transfers.request_one.2 ⟨hw, hs⟩) hempty
  exact absurd (hread.symm.trans htakes) (by simp)

theorem exists_ends (hdone : x.SectorDone) : ∃ n, x.ends n = true := by
  by_contra hnever
  have hgoing : ∀ n, x.Going n := fun n m _ => by
    by_contra he
    exact hnever ⟨m, by simpa using he⟩
  have hn : ∀ u, x.lastAck + 2 ≤ x.lastAck + 2 + u := fun u => Nat.le_add_right _ u
  have hfair : ∀ u, ∃ v, u ≤ v ∧
      (False ∨ ¬ (x.state (x.lastAck + 2 + v)).Stalls (x.input (x.lastAck + 2 + v))) := by
    intro u
    obtain ⟨m, hm, hno⟩ := exists_unstalled hgoing (x.lastAck + 2 + u)
    refine ⟨m - (x.lastAck + 2), by omega, .inr ?_⟩
    rwa [show x.lastAck + 2 + (m - (x.lastAck + 2)) = m by omega]
  -- the rank would fall for ever
  have hnone := exists_of_progress (P := fun _ => False) (fun u => (x.state (x.lastAck + 2 + u)).rank)
    (fun u _ hs => ((hgoing _).transfers.stalls_step (hgoing _).asked hs).le)
    (fun u _ hno => (hgoing _).transfers.rank_step (hgoing _).asked (finishing_of_done hdone (hn u) (hgoing _))
      (ne_checkTc (hn u) (hgoing _)) (terminated (hn u) (hgoing _)) hno) hfair 0
  obtain ⟨-, -, hfalse⟩ := hnone
  exact hfalse

/-- The clock in which the command ends is followed by one in which it has ended as it should. -/
theorem endsWell (h : x.Going n) (hends : x.ends n = true) : x.EndsWell (n + 1) := by
  have hcheck : (x.state n).state = .checkTc := by
    rw [ends, Bool.and_eq_true, beq_iff_eq] at hends
    exact hends.1
  have hn : x.lastAck + 2 ≤ n := by
    by_contra hlt
    rw [ends, (before (x := x) (n := n) (by omega)).2, Bool.and_false] at hends
    cases hends
  obtain ⟨hresults, hirq⟩ := h.transfers.result h.asked (gate (by omega) h) hends
  have hack := no_ack (by omega) h
  refine ⟨by omega, hresults, hirq, acceptsFrom hresults, fun hw => ?_, fun hw => ?_⟩
  · have hno : (x.input n).fifoWrite = false := h.transfers.no_give h.asked (by simp [hcheck])
    have hgiven := h.given_eq hw
    unfold given handed at hgiven ⊢
    rw [journal_succ, journal_succ, hack, hno, hgiven]
    simp
  · have hno : (x.input n).fifoRead = false := h.transfers.no_take h.asked (by simp [hcheck])
    have hempty : x.queue n = [] := by
      have hlevel := h.transfers.level
      rw [hcheck] at hlevel
      exact List.length_eq_zero_iff.1 hlevel
    obtain ⟨z, hz, hfilled⟩ := (padding hw (by omega) h).filled
    have hstored : x.stored (n + 1) = x.filled n := by
      rw [h.filled_eq hw, hempty, List.append_nil]
      unfold stored
      rw [journal_succ, hno]
      simp
    have hsectors := h.sectors
    rw [hw, hcheck, if_neg (by decide), ins, hw, if_pos rfl] at hsectors
    exact ⟨z, hz, by rw [hstored, hfilled, received_succ h (by omega)], hstored ▸ hsectors⟩

/-- The command ends as it should exactly when it is a write, or the terminal count comes behind the last byte of a
sector. -/
theorem completes_iff (x : FloppyTransfer) : x.Completes ↔ x.SectorDone := by
  constructor
  · intro hcompletes
    cases hw : x.isWrite with
    | true => exact .inl hw
    | false =>
      refine .inr ((rest_empty_iff hw).2 ?_)
      by_contra hrest
      exact not_completes hw (by simpa using hrest) hcompletes
  · intro hdone
    obtain ⟨n, -, hends, hfirst⟩ := exists_first ((exists_ends hdone).imp fun n hn => ⟨Nat.zero_le n, hn⟩)
    have hgoing : x.Going n := fun m hm => by
      have hno := hfirst m (Nat.zero_le m) hm
      simpa using hno
    exact ⟨n + 1, endsWell hgoing hends⟩

end FloppyTransfer

/-! ## A read that is cut short -/

namespace Floppy

variable {s : Floppy} {i : FloppyIn}

theorem Asked.quiet (hr : i.rstN = true) (hio : i.ioWrite = false) (hack : i.dmaAck = false)
    (hgive : i.fifoWrite = false) (htake : i.fifoRead = false) : s.Asked i where
  rstN := hr
  noReset := by simp [swReset, FloppyIn.writes, hio]
  gate hw := by simp [FloppyIn.writes, hio] at hw
  acks h := by simp [hack] at h
  gives h := by simp [hgive] at h
  takes h := by simp [htake] at h

end Floppy

namespace CutShort

/-- The bytes that start the motor and give the command to read from the first sector on. -/
def bytes : List (BitVec 3 × BitVec 8) :=
  [(2, 0x1C), (5, 0x46), (5, 0), (5, 0), (5, 0), (5, 1), (5, 2), (5, 18), (5, 0x1B), (5, 0xFF)]

/-- The disk in the drive, of 80 cylinders with 2 heads and 18 sectors. -/
def disk : List (BitVec 4 × BitVec 16) := [(0, 1), (2, 80), (3, 18), (4, 2880), (5, 2)]

/-- The host gives a sector from clock 15 on. DMA takes one byte, and the terminal count follows. -/
def inp (t : Nat) : FloppyIn :=
  let byte := (bytes[t - 1]?).getD (0, 0)
  let mgmt := (disk[t - 1]?).getD (15, BitVec.ofNat 16 t)
  { rstN := t != 0
    dmaAck := t == 528, dmaTc := t == 529, dmaReaddata := 0
    ioAddress := byte.1, ioRead := false, ioWrite := decide (1 ≤ t ∧ t ≤ 10), ioWritedata := byte.2
    mgmtAddress := mgmt.1, mgmtFddn := false, mgmtWrite := decide (1 ≤ t ∧ t ≤ 5 ∨ 15 ≤ t ∧ t < 527)
    mgmtWritedata := mgmt.2, mgmtRead := false
    wp := fun _ => false, clockRate := 50000000 }

def cutRun : FloppyRun where
  powerUp := default
  inp := inp
  reset := rfl

theorem regs_succ (t : Nat) : cutRun.regs (t + 1) = (cutRun.regs t).step (inp t) := rfl

theorem asked_quiet {s : Floppy} {t : Nat} (ht : 10 < t) (hack : t ≠ 528) (hgive : t < 15 ∨ 527 ≤ t) :
    s.Asked (inp t) := by
  refine .quiet ?_ ?_ ?_ ?_ rfl
  · show (t != 0) = true
    simp
    omega
  · show decide (1 ≤ t ∧ t ≤ 10) = false
    rw [decide_eq_false_iff_not]
    omega
  · show (t == 528) = false
    simpa using hack
  · show (decide (1 ≤ t ∧ t ≤ 5 ∨ 15 ≤ t ∧ t < 527) && _) = false
    rw [decide_eq_false (by omega), Bool.false_and]

/-- A clock of the read, before its terminal count: its state and how much of a sector is in the queue. -/
structure At (t : Nat) (state : FloppyState) (n : Nat) : Prop where
  transfers : (cutRun.regs t).Transfers false
  state : (cutRun.regs t).state = state
  length : (cutRun.regs t).fifo.contents.length = n
  gate : (cutRun.regs t).dmaIrqEnable = true
  terminated : (cutRun.regs t).dmaHasTerminated = false

theorem at_first : At 15 .sdReadWaitForData 0 where
  transfers :=
    { code := by decide
      ndma := by decide
      left := by decide
      state := by decide
      wf := ⟨by decide, by decide⟩
      level := by
        rw [show (cutRun.regs 15).state = .sdReadWaitForData by decide,
          Fifo.contents_eq_nil.2 (by decide : (cutRun.regs 15).fifo.empty = true)]
        exact Nat.zero_le 512 }
  state := by decide
  length := by
    rw [Fifo.contents_eq_nil.2 (by decide : (cutRun.regs 15).fifo.empty = true)]
    rfl
  gate := by decide
  terminated := by decide

namespace At

variable {t n : Nat} {state : FloppyState} (h : At t state n)
include h

/-- The next clock, when its state and its queue are known. -/
theorem next {state' : FloppyState} {n' : Nat} (ha : (cutRun.regs t).Asked (inp t)) (ht : t ≠ 529)
    (hstate : (cutRun.regs t).transferNext false = state') (hlen : (cutRun.regs (t + 1)).fifo.contents.length = n') :
    At (t + 1) state' n' where
  transfers := h.transfers.step ha (by rw [h.terminated, Bool.and_false])
  state := (h.transfers.step_state ha).trans hstate
  length := hlen
  gate := Floppy.dmaIrqEnable_step _ _ ha h.gate
  terminated := by
    rw [regs_succ, h.transfers.dmaHasTerminated_step ha.rstN, h.terminated, Bool.or_false]
    show (t == 529) = false
    simpa using ht

theorem length_next (ha : (cutRun.regs t).Asked (inp t)) : (cutRun.regs (t + 1)).fifo.contents.length =
    (if t = 528 then n - 1 else n) + if (inp t).fifoWrite then 1 else 0 := by
  have hack : (inp t).dmaAck = decide (t = 528) := rfl
  rw [regs_succ, h.transfers.contents_read ha rfl, ← h.length]
  show List.length ((if (inp t).dmaAck then _ else _) ++ _) = _
  rw [hack, List.length_append]
  congr 1
  · split <;> simp_all
  · split <;> rfl

theorem fifoFull_iff : (cutRun.regs t).fifoFull = true ↔ n = 512 := by
  rw [h.transfers.fifoFull_iff, h.length]

theorem empty_eq (hn : 0 < n) : (cutRun.regs t).fifo.empty = false := by
  rw [← Bool.not_eq_true, ← Fifo.contents_eq_nil, ← List.length_eq_zero_iff, h.length]
  omega

end At

theorem gives {t : Nat} (h1 : 15 ≤ t) (h2 : t < 527) : (inp t).fifoWrite = true := by
  have hnone : disk[t - 1]? = none := List.getElem?_eq_none (by simp [disk]; omega)
  show (decide (1 ≤ t ∧ t ≤ 5 ∨ 15 ≤ t ∧ t < 527) && (disk[t - 1]?.getD (15, BitVec.ofNat 16 t)).1 == 15) = true
  rw [hnone, decide_eq_true (by omega)]
  rfl

theorem asked_filling {m : Nat} (hm : m < 512) (h : At (15 + m) .sdReadWaitForData m) :
    (cutRun.regs (15 + m)).Asked (inp (15 + m)) where
  rstN := by
    show (15 + m != 0) = true
    simp
  noReset := by
    have hio : (inp (15 + m)).ioWrite = false := decide_eq_false (by omega)
    simp [Floppy.swReset, FloppyIn.writes, hio]
  gate hw := by
    have hio : (inp (15 + m)).ioWrite = false := decide_eq_false (by omega)
    simp [FloppyIn.writes, hio] at hw
  acks hack := by
    have hno : 15 + m = 528 := by simpa using (show (15 + m == 528) = true from hack)
    omega
  gives _ := by
    refine ⟨h.transfers.request_zero.2 ⟨rfl, h.state⟩, ?_⟩
    rw [← Bool.not_eq_true, h.fifoFull_iff]
    omega
  takes ht := by cases ht

theorem at_filling (m : Nat) (hm : m ≤ 512) : At (15 + m) .sdReadWaitForData m := by
  induction m with
  | zero => exact at_first
  | succ m ih =>
    have h := ih (by omega)
    have ha := asked_filling (by omega) h
    refine h.next ha (by omega) ?_ ?_
    · have hfull : (cutRun.regs (15 + m)).fifoFull = false := by
        rw [← Bool.not_eq_true, h.fifoFull_iff]
        omega
      rw [Floppy.transferNext, h.state, hfull]
      rfl
    · rw [h.length_next ha, if_neg (by omega), gives (by omega) (by omega), if_pos rfl]

theorem no_gives {t : Nat} (ht : 527 ≤ t) : (inp t).fifoWrite = false := by
  show (decide (1 ≤ t ∧ t ≤ 5 ∨ 15 ≤ t ∧ t < 527) && _) = false
  rw [decide_eq_false (by omega), Bool.false_and]

theorem at_filled : At 528 .waitForEmptyReadFifo 512 := by
  have h := at_filling 512 le_rfl
  have ha : (cutRun.regs 527).Asked (inp 527) := asked_quiet (by omega) (by omega) (by omega)
  refine h.next ha (by omega) ?_ ?_
  · rw [Floppy.transferNext, h.state, h.fifoFull_iff.2 rfl]
    rfl
  · rw [h.length_next ha, if_neg (by omega), no_gives (by omega)]
    rfl

theorem asked_ack : (cutRun.regs 528).Asked (inp 528) where
  rstN := rfl
  noReset := rfl
  gate hw := by cases hw
  acks _ := by
    have h := at_filled
    rw [Floppy.dmaReq, h.transfers.readInProgress, h.transfers.ndma, h.terminated, h.gate, h.state,
      h.empty_eq (by omega)]
    rfl
  gives hg := by cases hg
  takes ht := by cases ht

theorem at_tc : At 529 .waitForEmptyReadFifo 511 := by
  have h := at_filled
  refine h.next asked_ack (by omega) ?_ ?_
  · rw [Floppy.transferNext, h.state, h.empty_eq (by omega)]
    rfl
  · rw [h.length_next asked_ack, if_pos rfl, no_gives (by omega)]
    rfl

/-- From the terminal count on nothing moves. -/
theorem at_rest {t : Nat} (ht : 529 ≤ t) : (cutRun.regs t).Transfers false ∧
    (cutRun.regs t).state = .waitForEmptyReadFifo ∧ (cutRun.regs t).fifo.empty = false := by
  induction t, ht using Nat.le_induction with
  | base => exact ⟨at_tc.transfers, at_tc.state, at_tc.empty_eq (by omega)⟩
  | succ t ht ih =>
    obtain ⟨htransfers, hs, hempty⟩ := ih
    have ha : (cutRun.regs t).Asked (inp t) := asked_quiet (by omega) (by omega) (by omega)
    have hack : (inp t).dmaAck = false := by
      show (t == 528) = false
      simp
      omega
    obtain ⟨hs', hkeep⟩ := htransfers.rest_step ha hs hempty hack
    refine ⟨htransfers.step ha (by rw [hs]; rfl), hs', ?_⟩
    rw [regs_succ, ← Bool.not_eq_true, ← Fifo.contents_eq_nil, hkeep, Fifo.contents_eq_nil, hempty]
    simp

end CutShort

open CutShort in
/-- A read whose terminal count comes behind the first byte of the sector. -/
def cutShort : FloppyTransfer where
  toFloppyRun := cutRun
  accept := 10
  last := 528
  started := rfl
  accepted := by decide
  byDma := by decide
  asked t ht := by
    have hlt := ht.1
    rcases Nat.lt_or_ge t 15 with h1 | h1
    · exact asked_quiet (by omega) (by omega) (.inl h1)
    · rcases Nat.lt_or_ge t 527 with h2 | h2
      · obtain ⟨m, rfl⟩ := Nat.exists_eq_add_of_le h1
        exact asked_filling (by omega) (at_filling m (by omega))
      · rcases Nat.eq_or_lt_of_le h2 with rfl | h3
        · exact asked_quiet (by omega) (by omega) (by omega)
        · rcases Nat.eq_or_lt_of_le h3 with rfl | h4
          · exact asked_ack
          · exact asked_quiet (by omega) (by omega) (by omega)
  served t := by
    refine ⟨t + 529, by omega, fun _ => ?_⟩
    obtain ⟨htransfers, hs, -⟩ := at_rest (t := t + 529) (by omega)
    constructor
    · intro hreq
      exact absurd (hs.symm.trans (htransfers.request_zero.1 hreq).2) (by simp)
    · intro hreq
      exact absurd (hs.symm.trans (htransfers.request_one.1 hreq).2) (by simp)
  later := by omega
  ack := rfl
  once := rfl
  tc := rfl
  noTc t _ ht := by
    show (t == 529) = false
    simp
    omega

/-- It waits for ever for the rest of the sector to be taken. -/
theorem cutShort_not_completes : ¬ cutShort.Completes :=
  FloppyTransfer.not_completes (by decide : cutShort.isWrite = false) (CutShort.at_rest le_rfl).2.2

end Z486.Disk
