/-
The requests of the CPU on the adapter of the I/O bus, and the loop over the lanes of a cycle: every request is
taken and answered once, and a cycle on the byte bus makes the strobes of its lanes in order.
-/
import Z486.IoBus.Cycles
import Mathlib.Tactic.FinCases
import Mathlib.Tactic.IntervalCases

namespace Z486.IoBus

/-! ## What a clock does -/

namespace Adapter

variable {s : Adapter} {c : CpuIo} {p : Peripheral}

theorem laneState_ne_idle (k : Nat) : laneState k ≠ .idle := by
  unfold laneState
  split <;> simp

theorem wide_laneState (k : Nat) : (laneState k).wide = false := by
  unfold laneState
  split <;> rfl

theorem laneState_lt {k : Nat} (h : k < 4) : laneState k = .issue ⟨k, h⟩ := dif_pos h

/-- A strobe comes of the state that issues it. -/
theorem step_strobe (h : (s.step c p true).strobe ≠ []) :
    ∃ k, s.state = .issue k ∧ (s.step c p true).state = .wait k := by
  cases hs : s.state with
  | issue k =>
    cases hbe : s.activeBe.getLsbD k with
    | false => exact absurd (by rw [step_skip hs hbe]; rfl) h
    | true => exact ⟨k, rfl, by rw [step_issue hs hbe]⟩
  | idle =>
    cases ht : s.takes c with
    | false => exact absurd (by rw [step_idle hs ht]; rfl) h
    | true =>
      cases hport : c.ideDataPort with
      | false => exact absurd (by rw [step_takes ht hport]; rfl) h
      | true => exact absurd (step_takes_wide ht hport).2.1 h
  | wait k => exact absurd (by rw [step_wait hs]; rfl) h
  | cap k => exact absurd (by rw [step_cap hs]; rfl) h
  | done => exact absurd (by rw [step_done hs]; rfl) h
  | ide32 => exact absurd (by rw [step_ide32 hs]; rfl) h
  | ide32w => exact absurd (by rw [step_ide32w hs]; rfl) h

/-- A cycle goes on, or it is answered. -/
theorem step_busy (h : s.state ≠ .idle) :
    ((s.step c p true).state = .idle ∧ (s.step c p true).cpuIoReady = true ∧ (s.step c p true).wasActive = true) ∨
    ((s.step c p true).state ≠ .idle ∧ (s.step c p true).cpuIoReady = false ∧
      (s.step c p true).state.wide = s.state.wide) := by
  cases hs : s.state with
  | idle => exact absurd hs h
  | issue k =>
    right
    cases hbe : s.activeBe.getLsbD k with
    | false =>
      rw [step_skip hs hbe]
      exact ⟨laneState_ne_idle _, rfl, wide_laneState _⟩
    | true =>
      rw [step_issue hs hbe]
      exact ⟨by simp, rfl, rfl⟩
  | wait k =>
    right
    rw [step_wait hs]
    refine ⟨?_, rfl, ?_⟩
    · show ite _ _ _ ≠ _
      split
      · simp
      · split
        · simp
        · exact laneState_ne_idle _
    · show (ite _ _ _ : AdapterState).wide = _
      split
      · rfl
      · split
        · rfl
        · exact wide_laneState _
  | cap k =>
    right
    rw [step_cap hs]
    exact ⟨laneState_ne_idle _, rfl, wide_laneState _⟩
  | done =>
    left
    rw [step_done hs]
    exact ⟨rfl, rfl, rfl⟩
  | ide32 =>
    right
    rw [step_ide32 hs]
    cases p.ideHold <;> exact ⟨by simp, rfl, rfl⟩
  | ide32w =>
    left
    rw [step_ide32w hs]
    exact ⟨rfl, rfl, rfl⟩

/-- A cycle begins. -/
theorem step_begins (h : s.takes c = true) :
    (s.step c p true).state ≠ .idle ∧ (s.step c p true).cpuIoReady = false ∧
      (s.step c p true).state.wide = c.ideDataPort := by
  cases hport : c.ideDataPort with
  | false =>
    rw [step_takes h hport]
    exact ⟨by simp, rfl, rfl⟩
  | true =>
    obtain ⟨hs, -, hready⟩ := step_takes_wide (p := p) h hport
    exact ⟨by simp [hs], hready, by simp [hs, AdapterState.wide]⟩

end Adapter

namespace AdapterRun

open Adapter

variable {r : AdapterRun}

theorem state_succ (t : Nat) : r.state (t + 1) = (r.state t).step (r.cpu t) (r.peripheral t) true :=
  Clocked.run_succ _ _ _ _

/-! ## Requests -/

/-- The state of the adapter in clock `t` and the request of the CPU. -/
structure Requested (r : AdapterRun) (t : Nat) : Prop where
  rest : (r.state t).state = .idle → ((r.state t).wasActive = true ↔ 0 < t ∧ (r.cpu (t - 1)).asks = true)
  busy : (r.state t).state ≠ .idle → 0 < t ∧ (r.cpu (t - 1)).asks = true ∧ (r.cpu t).asks = true
  answered : r.ready t = true → (r.state t).state = .idle ∧ (r.state t).wasActive = true

theorem Requested.takes_iff {t : Nat} (h : r.Requested t) :
    r.takes t = true ↔ (r.cpu t).asks = true ∧ (t = 0 ∨ (r.cpu (t - 1)).asks = false) := by
  unfold takes Adapter.takes
  rcases Classical.em ((r.state t).state = .idle) with hidle | hbusy
  · have hrest := h.rest hidle
    constructor
    · intro ht
      simp only [Bool.and_eq_true, beq_iff_eq, Bool.not_eq_true'] at ht
      refine ⟨ht.2, ?_⟩
      by_contra hno
      push Not at hno
      rw [hrest.2 ⟨by omega, by simpa using hno.2⟩] at ht
      simp at ht
    · rintro ⟨hasks, hbefore⟩
      have hactive : (r.state t).wasActive = false := by
        rw [← Bool.not_eq_true, hrest]
        rintro ⟨hpos, hlast⟩
        rcases hbefore with h0 | hno
        · omega
        · rw [hno] at hlast
          cases hlast
      simp only [hidle, hactive]
      simpa [CpuIo.asks] using hasks
  · obtain ⟨hpos, hlast, -⟩ := h.busy hbusy
    constructor
    · intro ht
      simp [hbusy] at ht
    · rintro ⟨-, h0 | hno⟩
      · omega
      · rw [hno] at hlast
        cases hlast

theorem Requested.step {t : Nat} (ho : r.Obeys) (h : r.Requested t) : r.Requested (t + 1) := by
  rcases Classical.em ((r.state t).state = .idle) with hidle | hbusy
  · cases ht : (r.state t).takes (r.cpu t) with
    | true =>
      -- a request rises: it was not answered in this clock, and so it is held
      obtain ⟨hne, hready, -⟩ := step_begins (p := r.peripheral t) ht
      rw [← state_succ] at hne hready
      have hasks : (r.cpu t).asks = true := (h.takes_iff.1 ht).1
      have hsilent : r.ready t = false := by
        by_contra hr
        have hactive := (h.answered (by simpa using hr)).2
        rw [Adapter.takes, hactive] at ht
        simp at ht
      refine ⟨fun hi => absurd hi hne, fun _ => ⟨by omega, hasks, ho.hold t hasks hsilent⟩, fun hr => ?_⟩
      rw [ready, hready] at hr
      cases hr
    | false =>
      have hstep := state_succ (r := r) t
      rw [step_idle hidle ht] at hstep
      have hstate : (r.state (t + 1)).state = .idle := by
        rw [hstep]
        exact hidle
      refine ⟨fun _ => ?_, fun hno => absurd hstate hno, fun hr => ?_⟩
      · rw [hstep, Nat.add_sub_cancel]
        show ((r.state t).wasActive && (r.cpu t).asks) = true ↔ _
        rw [Bool.and_eq_true]
        refine ⟨fun hb => ⟨by omega, hb.2⟩, fun hb => ⟨?_, hb.2⟩⟩
        by_contra hactive
        rw [Adapter.takes, hidle, Bool.not_eq_true] at *
        simp [hactive] at ht
        simp [CpuIo.asks, ht] at hb
      · rw [ready, hstep] at hr
        cases hr
  · obtain ⟨-, -, hasks⟩ := h.busy hbusy
    have hsilent : r.ready t = false := by
      by_contra hr
      exact hbusy (h.answered (by simpa using hr)).1
    rcases step_busy (c := r.cpu t) (p := r.peripheral t) hbusy with ⟨hi, hr, hactive⟩ | ⟨hne, hr, -⟩
    · rw [← state_succ] at hi hr hactive
      exact ⟨fun _ => by simp [hactive, hasks], fun hno => absurd hi hno, fun _ => ⟨hi, hactive⟩⟩
    · rw [← state_succ] at hne hr
      refine ⟨fun hi => absurd hi hne, fun _ => ⟨by omega, hasks, ho.hold t hasks hsilent⟩, fun hready => ?_⟩
      rw [ready, hr] at hready
      cases hready

theorem requested (ho : r.Obeys) : ∀ t, r.Requested t
  | 0 => by
    refine ⟨fun _ => ?_, fun hno => absurd ho.idle hno, fun hr => ?_⟩
    · show r.start.wasActive = true ↔ _
      simp [ho.inactive]
    · exact absurd hr (by rw [ready]; exact (Bool.eq_false_iff.1 ho.silent))
  | t + 1 => (requested ho t).step ho

/-! ## Cycles -/

/-- Outside the idle state a cycle goes on, on the byte bus or on the wide one. -/
theorem open_of_busy (ho : r.Obeys) (t : Nat) (hbusy : (r.state t).state ≠ .idle) :
    ∃ a n, t = a + n ∧ 0 < n ∧ r.Open a n ∧ (r.state t).state.wide = (r.cpu a).ideDataPort := by
  induction t with
  | zero => exact absurd ho.idle hbusy
  | succ t ih =>
    rw [state_succ] at hbusy
    rcases Classical.em ((r.state t).state = .idle) with hidle | hb
    · cases ht : (r.state t).takes (r.cpu t) with
      | false => exact absurd (by rw [step_idle hidle ht]; exact hidle) hbusy
      | true =>
        obtain ⟨-, hready, hwide⟩ := step_begins (p := r.peripheral t) ht
        rw [← state_succ] at hready hwide
        refine ⟨t, 1, rfl, by omega, ⟨ht, fun m hm hle => ?_⟩, hwide⟩
        obtain rfl : m = 1 := by omega
        exact hready
    · obtain ⟨a, n, rfl, hpos, hopen, hwide⟩ := ih hb
      rcases step_busy (c := r.cpu (a + n)) (p := r.peripheral (a + n)) hb with ⟨hi, -⟩ | ⟨-, hr, hkeep⟩
      · exact absurd hi hbusy
      · rw [← state_succ] at hr hkeep
        refine ⟨a, n + 1, rfl, by omega, ⟨hopen.taken, fun m hm hle => ?_⟩, by rw [hkeep, hwide]⟩
        rcases Nat.lt_or_ge n m with h | h
        · obtain rfl : m = n + 1 := by omega
          exact hr
        · exact hopen.silent m hm h

/-! ## The lanes of a cycle -/

/-- The cycle of clock `a` as the adapter holds it. -/
structure Loaded (r : AdapterRun) (a : Nat) (s : Adapter) : Prop where
  byteAddr : s.byteAddr = 0#16 ++ (r.cpu a).basePort
  activeBe : s.activeBe = (r.cpu a).cpuBe
  isRead : s.isRead = (r.cpu a).cpuIoRd
  writeData : s.writeData = (r.cpu a).cpuDin

/-- Where the cycle of clock `a` is `n` clocks later: before lane `k`, in the wait states of lane `k`, or in the clock in
which its byte is on the bus. -/
inductive Stage (r : AdapterRun) (a n : Nat) : Prop where
  | lane (k : Nat) (le : k ≤ 4) (state : (r.state (a + n)).state = laneState k)
      (strobes : r.strobesSince a n = (r.cpu a).strobesTo k)
      (word : (r.cpu a).cpuIoRd = true → r.Assembled a n k (r.state (a + n)).readAccum)
  | wait (k : Fin 4) (s : Nat) (state : (r.state (a + n)).state = .wait k)
      (enabled : (r.cpu a).cpuBe.getLsbD k = true) (strobed : r.Strobed a k s (a + n))
      (strobes : r.strobesSince a n = (r.cpu a).strobesTo (k + 1))
      (word : (r.cpu a).cpuIoRd = true → r.Assembled a n k (r.state (a + n)).readAccum)
  | cap (k : Fin 4) (s w : Nat) (state : (r.state (a + n)).state = .cap k)
      (enabled : (r.cpu a).cpuBe.getLsbD k = true) (strobed : r.Strobed a k s w)
      (ends : (r.peripheral w).ioWait = false) (now : w + 1 = a + n)
      (strobes : r.strobesSince a n = (r.cpu a).strobesTo (k + 1))
      (word : r.Assembled a n k (r.state (a + n)).readAccum)

theorem strobesTo_enabled (c : CpuIo) {k : Nat} (h : c.cpuBe.getLsbD k = true) :
    c.strobesTo (k + 1) = c.strobesTo k ++ [c.laneStrobe k] := by
  simp [CpuIo.strobesTo, h]

theorem strobesTo_skip (c : CpuIo) {k : Nat} (h : c.cpuBe.getLsbD k = false) :
    c.strobesTo (k + 1) = c.strobesTo k := by
  simp [CpuIo.strobesTo, h]

theorem strobesTo_prefix (c : CpuIo) {j k : Nat} (h : j ≤ k) : c.strobesTo j <+: c.strobesTo k := by
  induction k, h using Nat.le_induction with
  | base => exact List.prefix_refl _
  | succ k _ ih => exact ih.trans (List.prefix_append _ _)

theorem strobesSince_succ (r : AdapterRun) (a n : Nat) :
    r.strobesSince a (n + 1) = r.strobesSince a n ++ (r.state (a + n + 1)).strobe := rfl

/-- The port of a lane. -/
theorem Loaded.lanePort {a : Nat} {s : Adapter} (h : r.Loaded a s) (k : Fin 4) :
    s.lanePort k = (r.cpu a).basePort + BitVec.ofNat 16 k := by
  unfold Adapter.lanePort
  rw [h.byteAddr]
  congr 1
  ext i hi
  simp only [BitVec.getElem_extractLsb', BitVec.getLsbD_append, Nat.zero_add, hi, if_true]
  rw [BitVec.getLsbD_eq_getElem hi]

theorem lane_setLane (w : BitVec 32) (k : Fin 4) (b : BitVec 8) {j : Nat} (h : j < 4) :
    lane (setLane w k b) j = if j = k then b else lane w j := by
  ext i hi
  interval_cases j <;> fin_cases k <;>
    simp only [lane, setLane, BitVec.getElem_extractLsb', BitVec.getLsbD_append, BitVec.getLsbD_extractLsb'] <;>
    grind

theorem lane_ones {j : Nat} (h : j < 4) : lane 0xFFFFFFFF j = 0xFF := by
  interval_cases j <;> decide

namespace Assembled

variable {a n k : Nat} {w : BitVec 32}

theorem later (h : r.Assembled a n k w) : r.Assembled a (n + 1) k w := by
  intro j hj
  have hlane := h j hj
  split at hlane
  · rename_i hb
    obtain ⟨s, e, hlt, hreads⟩ := hlane
    rw [if_pos hb]
    exact ⟨s, e, by omega, hreads⟩
  · rename_i hb
    rw [if_neg hb]
    exact hlane

/-- A lane that is not enabled. -/
theorem skip (h : r.Assembled a n k w) (hbe : (r.cpu a).cpuBe.getLsbD k = false) : r.Assembled a n (k + 1) w := by
  intro j hj
  have hiff : (r.cpu a).cpuBe.getLsbD j = true ∧ j < k + 1 ↔ (r.cpu a).cpuBe.getLsbD j = true ∧ j < k := by
    refine ⟨fun ⟨hb, hlt⟩ => ⟨hb, ?_⟩, fun ⟨hb, hlt⟩ => ⟨hb, by omega⟩⟩
    rcases Nat.lt_or_eq_of_le (Nat.le_of_lt_succ hlt) with h | rfl
    · exact h
    · rw [hbe] at hb
      cases hb
  simp only [hiff]
  exact h j hj

/-- The byte of a lane comes in. -/
theorem set {k : Fin 4} (h : r.Assembled a n k w) {s e : Nat} {b : BitVec 8} (hbe : (r.cpu a).cpuBe.getLsbD k = true)
    (hreads : r.Reads a k s e b) (hnow : e + 1 = a + n) : r.Assembled a (n + 1) (k + 1) (setLane w k b) := by
  intro j hj
  rw [lane_setLane w k b hj]
  by_cases hjk : j = k
  · subst hjk
    rw [if_pos ⟨hbe, by omega⟩, if_pos rfl]
    exact ⟨s, e, by omega, hreads⟩
  · rw [if_neg hjk]
    have hlane := h.later j hj
    have hiff : (r.cpu a).cpuBe.getLsbD j = true ∧ j < k + 1 ↔ (r.cpu a).cpuBe.getLsbD j = true ∧ j < k :=
      and_congr_right fun _ => by omega
    simp only [hiff]
    exact hlane

end Assembled

/-! ## One clock of a cycle -/

/-- The cycle of clock `a` in its stage, `n` clocks later. -/
structure Cycle (r : AdapterRun) (a n : Nat) : Prop where
  loaded : r.Loaded a (r.state (a + n))
  stage : r.Stage a n

/-- What a clock leaves of the registers that hold the cycle. -/
theorem Loaded.of_eq {a : Nat} {s s' : Adapter} (h : r.Loaded a s) (haddr : s'.byteAddr = s.byteAddr)
    (hbe : s'.activeBe = s.activeBe) (hread : s'.isRead = s.isRead) (hdata : s'.writeData = s.writeData) :
    r.Loaded a s' :=
  ⟨haddr.trans h.byteAddr, hbe.trans h.activeBe, hread.trans h.isRead, hdata.trans h.writeData⟩

/-- A cycle on the byte bus begins with lane 0. -/
theorem Cycle.first {a : Nat} (ht : r.takes a = true) (hport : (r.cpu a).ideDataPort = false) : r.Cycle a 1 := by
  have hstep := state_succ (r := r) a
  rw [step_takes ht hport] at hstep
  refine ⟨?_, .lane 0 (by omega) ?_ ?_ fun _ j hj => ?_⟩
  · rw [hstep]
    exact ⟨rfl, rfl, rfl, rfl⟩
  · rw [hstep]
    rfl
  · rw [strobesSince_succ, Nat.add_zero, hstep]
    rfl
  · rw [if_neg (by omega), hstep]
    exact lane_ones hj

variable {a n : Nat}

/-- Lane `k` begins. -/
theorem Cycle.step_lane {k : Nat} (hk : k < 4) (hl : r.Loaded a (r.state (a + n)))
    (hstate : (r.state (a + n)).state = laneState k) (hstrobes : r.strobesSince a n = (r.cpu a).strobesTo k)
    (hword : (r.cpu a).cpuIoRd = true → r.Assembled a n k (r.state (a + n)).readAccum) : r.Cycle a (n + 1) := by
  have hstep := state_succ (r := r) (a + n)
  rw [laneState_lt hk] at hstate
  cases hbe : (r.cpu a).cpuBe.getLsbD k with
  | false =>
    rw [step_skip hstate (by rw [hl.activeBe]; exact hbe)] at hstep
    refine ⟨?_, .lane (k + 1) (by omega) ?_ ?_ fun hread => ?_⟩
    · rw [← Nat.add_assoc, hstep]
      exact hl.of_eq rfl rfl rfl rfl
    · rw [← Nat.add_assoc, hstep]
    · rw [strobesSince_succ, hstrobes, strobesTo_skip _ hbe, hstep]
      exact List.append_nil _
    · rw [← Nat.add_assoc, hstep]
      exact ((hword hread).skip hbe).later
  | true =>
    rw [step_issue hstate (by rw [hl.activeBe]; exact hbe)] at hstep
    have hstrobe : (r.state (a + n + 1)).strobe = [(r.cpu a).laneStrobe k] := by
      rw [hstep]
      simp only [strobe, CpuIo.laneStrobe, hl.lanePort, hl.isRead, hl.writeData]
      cases (r.cpu a).cpuIoRd <;> rfl
    refine ⟨?_, .wait ⟨k, hk⟩ (a + n + 1) ?_ hbe ⟨by omega, by omega, hstrobe, fun v h1 h2 => by omega⟩ ?_
      fun hread => ?_⟩
    · rw [← Nat.add_assoc, hstep]
      exact hl.of_eq rfl rfl rfl rfl
    · rw [← Nat.add_assoc, hstep]
    · rw [strobesSince_succ, hstrobes, hstrobe, strobesTo_enabled _ hbe]
    · rw [← Nat.add_assoc, hstep]
      exact (hword hread).later

/-- A wait state, or the last of lane `k`. -/
theorem Cycle.step_wait {k : Fin 4} {s : Nat} (hl : r.Loaded a (r.state (a + n)))
    (hstate : (r.state (a + n)).state = .wait k) (hbe : (r.cpu a).cpuBe.getLsbD k = true)
    (hstrobed : r.Strobed a k s (a + n)) (hstrobes : r.strobesSince a n = (r.cpu a).strobesTo (k + 1))
    (hword : (r.cpu a).cpuIoRd = true → r.Assembled a n k (r.state (a + n)).readAccum) : r.Cycle a (n + 1) := by
  have hstep := state_succ (r := r) (a + n)
  rw [Adapter.step_wait hstate] at hstep
  have hloaded : r.Loaded a (r.state (a + (n + 1))) := by
    rw [← Nat.add_assoc, hstep]
    exact hl.of_eq rfl rfl rfl rfl
  have hout : r.strobesSince a (n + 1) = (r.cpu a).strobesTo (k + 1) := by
    rw [strobesSince_succ, hstrobes, hstep]
    exact List.append_nil _
  have haccum : (r.state (a + (n + 1))).readAccum = (r.state (a + n)).readAccum := by
    rw [← Nat.add_assoc, hstep]
    rfl
  cases hwait : (r.peripheral (a + n)).ioWait with
  | true =>
    -- the peripheral makes the lane wait
    refine ⟨hloaded, .wait k s ?_ hbe ⟨hstrobed.later, ?_, hstrobed.strobe, ?_⟩ hout fun hread => ?_⟩
    · rw [← Nat.add_assoc, hstep, hwait]
      rfl
    · have hle := hstrobed.le
      omega
    · intro v hs hv
      rcases Nat.lt_or_ge v (a + n) with h | h
      · exact hstrobed.waits v hs h
      · obtain rfl : v = a + n := by omega
        exact hwait
    · rw [haccum]
      exact (hword hread).later
  | false =>
    cases hread : (r.cpu a).cpuIoRd with
    | true =>
      -- a read takes a clock more for its byte
      refine ⟨hloaded, .cap k s (a + n) ?_ hbe hstrobed hwait (by omega) hout ?_⟩
      · rw [← Nat.add_assoc, hstep, hwait, hl.isRead, hread]
        rfl
      · rw [haccum]
        exact (hword hread).later
    | false =>
      -- a write goes on to the next lane
      refine ⟨hloaded, .lane (k + 1) (by omega) ?_ hout fun h => ?_⟩
      · rw [← Nat.add_assoc, hstep, hwait, hl.isRead, hread]
        rfl
      · rw [hread] at h
        cases h

/-- The byte of lane `k` comes in. -/
theorem Cycle.step_cap {k : Fin 4} {s w : Nat} (hl : r.Loaded a (r.state (a + n)))
    (hstate : (r.state (a + n)).state = .cap k) (hbe : (r.cpu a).cpuBe.getLsbD k = true)
    (hstrobed : r.Strobed a k s w) (hends : (r.peripheral w).ioWait = false) (hnow : w + 1 = a + n)
    (hstrobes : r.strobesSince a n = (r.cpu a).strobesTo (k + 1))
    (hword : r.Assembled a n k (r.state (a + n)).readAccum) : r.Cycle a (n + 1) := by
  have hstep := state_succ (r := r) (a + n)
  rw [Adapter.step_cap hstate] at hstep
  refine ⟨?_, .lane (k + 1) (by omega) ?_ ?_ fun _ => ?_⟩
  · rw [← Nat.add_assoc, hstep]
    exact hl.of_eq rfl rfl rfl rfl
  · rw [← Nat.add_assoc, hstep]
  · rw [strobesSince_succ, hstrobes, hstep]
    exact List.append_nil _
  · rw [← Nat.add_assoc, hstep]
    exact hword.set hbe ⟨hstrobed, hends, by rw [hnow]⟩ hnow

/-- The answer, after the last lane. -/
theorem Cycle.answer (hstate : (r.state (a + n)).state = laneState 4)
    (hstrobes : r.strobesSince a n = (r.cpu a).strobesTo 4)
    (hword : (r.cpu a).cpuIoRd = true → r.Assembled a n 4 (r.state (a + n)).readAccum) (hopen : r.Open a n) :
    r.Completes a (n + 1) := by
  have hstep := state_succ (r := r) (a + n)
  rw [step_done hstate] at hstep
  refine ⟨⟨by omega, hopen, ?_⟩, ?_, fun hread => ?_⟩
  · rw [ready, ← Nat.add_assoc, hstep]
  · rw [strobesSince_succ, hstrobes, hstep]
    exact List.append_nil _
  · rw [← Nat.add_assoc, hstep]
    exact (hword hread).later

/-- In every clock a cycle goes on or is answered. -/
theorem Cycle.step (h : r.Cycle a n) (hopen : r.Open a n) : r.Cycle a (n + 1) ∨ r.Completes a (n + 1) := by
  cases h.stage with
  | lane k le state strobes word =>
    rcases Nat.lt_or_eq_of_le le with hk | rfl
    · exact .inl (step_lane hk h.loaded state strobes word)
    · exact .inr (answer state strobes word hopen)
  | wait k s state enabled strobed strobes word =>
    exact .inl (step_wait h.loaded state enabled strobed strobes word)
  | cap k s w state enabled strobed ends now strobes word =>
    exact .inl (step_cap h.loaded state enabled strobed ends now strobes word)

/-! ## Whole cycles -/

theorem Stage.ne_idle (h : r.Stage a n) : (r.state (a + n)).state ≠ .idle := by
  cases h with
  | lane k _ state _ _ =>
    rw [state]
    exact laneState_ne_idle k
  | wait k s state _ _ _ _ => simp [state]
  | cap k s w state _ _ _ _ _ _ => simp [state]

theorem Open.mono {m : Nat} (h : r.Open a n) (hm : m ≤ n) : r.Open a m :=
  ⟨h.taken, fun k hk hle => h.silent k hk (hle.trans hm)⟩

theorem Open.cycle (h : r.Open a n) (hport : (r.cpu a).ideDataPort = false) (hn : 0 < n) : r.Cycle a n := by
  induction n, hn using Nat.le_induction with
  | base => exact .first h.taken hport
  | succ n hn ih =>
    have hopen := h.mono (Nat.le_succ n)
    rcases (ih hopen).step hopen with hgo | hdone
    · exact hgo
    · have hready := hdone.ready
      rw [h.silent (n + 1) (by omega) le_rfl] at hready
      cases hready

theorem Stage.isPrefix (h : r.Stage a n) : r.strobesSince a n <+: (r.cpu a).strobes := by
  cases h with
  | lane k le _ strobes _ =>
    rw [strobes]
    exact strobesTo_prefix _ le
  | wait k s _ _ _ strobes _ =>
    rw [strobes]
    exact strobesTo_prefix _ (by omega)
  | cap k s w _ _ _ _ _ strobes _ =>
    rw [strobes]
    exact strobesTo_prefix _ (by omega)

theorem Answers.completes (ho : r.Obeys) (h : r.Answers a n) (hport : (r.cpu a).ideDataPort = false) :
    r.Completes a n := by
  obtain ⟨m, rfl⟩ : ∃ m, n = m + 1 := ⟨n - 1, by have := h.pos; omega⟩
  have hopen : r.Open a m := h.before
  have hidle := ((requested ho (a + (m + 1))).answered h.ready).1
  rcases Nat.eq_zero_or_pos m with rfl | hm
  · exact absurd hidle (Cycle.first hopen.taken hport).stage.ne_idle
  · rcases (hopen.cycle hport hm).step hopen with hgo | hdone
    · exact absurd hidle hgo.stage.ne_idle
    · exact hdone

/-- How far a cycle is from its answer. -/
def rank : AdapterState → Nat
  | .issue k => 3 * (4 - k) + 2
  | .wait k => 3 * (4 - k) + 1
  | .cap k => 3 * (4 - k)
  | _ => 0

theorem rank_laneState {k : Nat} (h : k < 4) : rank (laneState (k + 1)) < 3 * (4 - k) := by
  unfold laneState
  split
  · show 3 * (4 - (k + 1)) + 2 < 3 * (4 - k)
    omega
  · show 0 < 3 * (4 - k)
    omega

/-- A clock that is no wait state brings the answer nearer. -/
theorem Cycle.rank_step (h : r.Cycle a n) (hlast : (r.state (a + n)).state ≠ .done) :
    rank (r.state (a + n + 1)).state ≤ rank (r.state (a + n)).state ∧
      ((r.peripheral (a + n)).ioWait = false → rank (r.state (a + n + 1)).state < rank (r.state (a + n)).state) := by
  have hstep := state_succ (r := r) (a + n)
  rw [hstep]
  cases h.stage with
  | lane k le state strobes word =>
    -- a lane that is not enabled is skipped, the others take a wait
    rcases Nat.lt_or_eq_of_le le with hk | rfl
    · rw [laneState_lt hk] at state
      have hrank := rank_laneState hk
      cases hbe : (r.state (a + n)).activeBe.getLsbD k with
      | false =>
        rw [step_skip state hbe, state]
        simp only [rank] at hrank ⊢
        omega
      | true =>
        rw [step_issue state hbe, state]
        simp only [rank]
        omega
    · exact absurd state hlast
  | wait k s state enabled strobed strobes word =>
    have hrank := rank_laneState k.isLt
    rw [Adapter.step_wait state, state]
    cases (r.peripheral (a + n)).ioWait with
    | true => simp
    | false =>
      cases (r.state (a + n)).isRead with
      | true =>
        simp only [rank]
        simp
      | false =>
        simp only [rank] at hrank ⊢
        simp
        omega
  | cap k s w state enabled strobed ends now strobes word =>
    have hrank := rank_laneState k.isLt
    rw [Adapter.step_cap state, state]
    simp only [rank] at hrank ⊢
    omega

/-- A cycle is answered, when no wait is for ever. -/
theorem exists_answers (hport : (r.cpu a).ideDataPort = false) (ht : r.takes a = true)
    (hfair : ∀ t, ∃ u, t ≤ u ∧ (r.peripheral u).ioWait = false) : ∃ n, r.Answers a n := by
  obtain ⟨n, hpos, hready, hbefore⟩ : ∃ n, 1 ≤ n ∧ r.ready (a + n) = true ∧
      ∀ m, 1 ≤ m → m < n → ¬ r.ready (a + m) = true := by
    apply Clocked.exists_first
    by_contra hnever
    push Not at hnever
    have hopen : ∀ n, r.Open a n := fun n => ⟨ht, fun m hm _ => by simpa using hnever m hm⟩
    have hcycle : ∀ n, r.Cycle a (n + 1) := fun n => (hopen (n + 1)).cycle hport (by omega)
    have hlast : ∀ n, (r.state (a + (n + 1))).state ≠ .done := by
      intro n hdone
      have hready : r.ready (a + (n + 1) + 1) = true := by
        rw [ready, state_succ, step_done hdone]
      exact hnever (n + 2) (by omega) hready
    obtain ⟨u, -, hu⟩ := Clocked.exists_of_progress (P := fun _ => False)
      (W := fun n => (r.peripheral (a + (n + 1))).ioWait = true) (fun n => rank (r.state (a + (n + 1))).state)
      (fun u _ _ => ((hcycle u).rank_step (hlast u)).1)
      (fun u _ hw => ((hcycle u).rank_step (hlast u)).2 (by simpa using hw))
      (fun u => by
        obtain ⟨v, hle, hw⟩ := hfair (a + (u + 1))
        obtain ⟨d, rfl⟩ := Nat.exists_eq_add_of_le hle
        refine ⟨u + d, by omega, .inr ?_⟩
        rw [show a + (u + d + 1) = a + (u + 1) + d by omega, hw]
        simp) 0
    exact hu
  refine ⟨n, by omega, ⟨ht, fun m hm hle => ?_⟩, hready⟩
  simpa using hbefore m hm (by omega)

/-! ## The address and the selects -/

theorem ioAddress_succ (t : Nat) : (r.state (t + 1)).ioAddress =
    if (r.state t).ioAddressLoad (r.cpu t) then (r.state t).ioAddressNext (r.cpu t) else (r.state t).ioAddress := by
  rw [state_succ]
  exact step_ioAddress

/-- The selects are those of the address on the bus, from the first address on. -/
theorem selects_eq {decode : BitVec 16 → Bool} {cs : Nat → Bool}
    (hcs : ∀ t, cs (t + 1) =
      if (r.state t).ioAddressLoad (r.cpu t) then decode ((r.state t).ioAddressNext (r.cpu t)) else cs t)
    {t u : Nat} (hload : (r.state t).ioAddressLoad (r.cpu t) = true) (h : t < u) :
    cs u = decode (r.state u).ioAddress := by
  induction u, h using Nat.le_induction with
  | base => rw [hcs, ioAddress_succ, if_pos hload, if_pos hload]
  | succ u _ ih =>
    rw [hcs, ioAddress_succ]
    split
    · rfl
    · exact ih

/-! ## All runs -/

theorem strobe_wait (ho : r.Obeys) {t : Nat} (h : (r.state t).strobe ≠ []) : ∃ k, (r.state t).state = .wait k := by
  cases t with
  | zero => exact absurd ho.noStrobe h
  | succ t =>
    rw [state_succ] at h ⊢
    obtain ⟨k, -, hk⟩ := step_strobe h
    exact ⟨k, hk⟩

/-- A clock that answers ends a cycle. -/
theorem answers_of_ready (ho : r.Obeys) {t : Nat} (h : r.ready t = true) : ∃ a n, t = a + n ∧ r.Answers a n := by
  cases t with
  | zero => exact absurd h (Bool.eq_false_iff.1 ho.silent)
  | succ t =>
    rw [ready, state_succ] at h
    have hbusy : (r.state t).state ≠ .idle := by
      intro hidle
      cases ht : (r.state t).takes (r.cpu t) with
      | false =>
        rw [step_idle hidle ht] at h
        cases h
      | true =>
        rw [(step_begins ht).2.1] at h
        cases h
    obtain ⟨a, n, rfl, -, hopen, -⟩ := open_of_busy ho t hbusy
    exact ⟨a, n + 1, rfl, by omega, hopen, by rwa [ready, ← Nat.add_assoc, state_succ]⟩

/-- The adapter makes of every request of the CPU the cycle that it is. -/
theorem sequences (ho : r.Obeys) : r.Sequences where
  taken t := (requested ho t).takes_iff
  sofar a n hopen hport := by
    rcases Nat.eq_zero_or_pos n with rfl | hn
    · exact List.nil_prefix
    · exact (hopen.cycle hport hn).stage.isPrefix
  answered a ht hport hfair := by
    obtain ⟨n, hn⟩ := exists_answers hport ht hfair
    exact ⟨n, hn.completes ho hport⟩
  answers t hready := answers_of_ready ho hready
  completes a n h hport := h.completes ho hport
  within t h := by
    obtain ⟨k, hk⟩ := strobe_wait ho h
    obtain ⟨a, n, rfl, -, hopen, hwide⟩ := open_of_busy ho t (by simp [hk])
    exact ⟨a, n, rfl, hopen, by rw [← hwide, hk]; rfl⟩
  apart t h := by
    obtain ⟨k, hk⟩ := strobe_wait ho h
    rw [state_succ, Adapter.step_wait hk]
    rfl
  address t hload := by rw [ioAddress_succ, if_pos hload]
  selects decode cs hcs t u hload h := selects_eq hcs hload h

/-- A read of the ports 61h and 63h; the first of them makes two wait states. -/
def readRun : AdapterRun where
  start :=
    { state := .idle, byteAddr := 0, activeBe := 0, isRead := false, writeData := 0, readAccum := 0, wasActive := false
      cpuDout := 0, cpuIoReady := false, ioAddress := 0, ioRead := false, ioWrite := false, ioWritedata := 0
      ideAddress := 0, ideRead := false, ideWrite := false, ideWritedata := 0, ide32 := false }
  cpu t := { cpuAddr := 0x18, cpuBe := 0b1010, cpuDin := 0, cpuIoRd := decide (t ≤ 12), cpuIoWr := false }
  peripheral t := { ioReaddata := BitVec.ofNat 8 t, ioWait := t == 3 || t == 4, ideReaddata := 0, ideHold := false }

theorem readRun_sequences : readRun.Sequences := by
  refine sequences ⟨rfl, rfl, rfl, rfl, fun t hasks hready => ?_⟩
  have hle : t ≤ 12 := by simpa [CpuIo.asks, readRun] using hasks
  have hne : t ≠ 12 := by
    rintro rfl
    exact absurd hready (by decide)
  simp only [CpuIo.asks, readRun, Bool.or_false, decide_eq_true_eq]
  omega

example : (readRun.state 12).cpuDout = 0x0AFF06FF := by decide

end AdapterRun

end Z486.IoBus
