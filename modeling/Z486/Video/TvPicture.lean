/-
The position of the replay in the picture of an output line (src/soc/vga_tv15.sv): before the porch is over it waits at
the first pixel, and from then on each pixel takes two pixel enables, until those of the last pixel have gone by.
-/
import Z486.Video.TvStore

namespace Z486.Video

/-! ## Clocks of an output line -/

namespace TvStore

variable {s : TvStore} {i : TvStoreIn} {len n : Nat}

/-- A clock within an output line. -/
structure Runs (s : TvStore) (i : TvStoreIn) (len : Nat) : Prop where
  running : i.reset = false
  goes : s.outStart = false
  run : s.outRun = true
  pixels : s.repLen.toNat = len
  short : len ≤ 1023

/-- Before the picture. -/
structure Waits (s : TvStore) : Prop where
  done : s.repDone = false
  off : s.repOn = false
  idx : s.repIdx = 0
  half : s.repHalf = false

/-- The picture of `len` pixels after `n` of its enables: two for each pixel. -/
structure Shows (s : TvStore) (len n : Nat) : Prop where
  done : s.repDone = true
  on : s.repOn = decide (n < 2 * len)
  idx : 0 < len → s.repIdx = BitVec.ofNat 10 (min (n / 2) (len - 1))
  half : n < 2 * len → s.repHalf = decide (n % 2 = 1)

theorem Runs.step (h : Runs s i len) :
    (s.step i).repOn = (if s.begins i then s.repLen != 0 else if s.ends i then false else s.repOn) ∧
      (s.step i).repIdx = (if s.advances i && s.repHalf && s.repIdx + 1 != s.repLen.setWidth 10 then s.repIdx + 1
        else s.repIdx) ∧
      (s.step i).repHalf = (if s.advances i then !s.repHalf else s.repHalf) ∧
      (s.step i).repDone = (s.repDone || s.begins i) := by
  refine ⟨?_, ?_, ?_, ?_⟩
  · show (if i.reset then _ else s.repOnNext i) = _
    rw [h.running, if_neg Bool.false_ne_true]
    unfold repOnNext
    rw [h.goes, h.run, if_neg Bool.false_ne_true, if_pos rfl]
  · show (if i.reset then _ else s.repIdxNext i) = _
    rw [h.running, if_neg Bool.false_ne_true]
    unfold repIdxNext
    rw [h.goes, h.run, if_neg Bool.false_ne_true, Bool.true_and]
  · show (if i.reset then _ else s.repHalfNext i) = _
    rw [h.running, if_neg Bool.false_ne_true]
    unfold repHalfNext
    rw [h.goes, h.run, if_neg Bool.false_ne_true, Bool.true_and]
  · show (if i.reset then _ else if s.outStart then _ else s.repDone || s.outRun && s.begins i) = _
    rw [h.running, h.goes, h.run, if_neg Bool.false_ne_true, if_neg Bool.false_ne_true, Bool.true_and]

theorem Waits.not_advances (h : Waits s) : s.advances i = false := by
  unfold advances
  rw [h.off, Bool.and_false]

theorem Waits.not_ends (h : Waits s) : s.ends i = false := by
  unfold ends
  rw [h.not_advances, Bool.false_and, Bool.false_and]

theorem Waits.begins_iff (h : Waits s) : s.begins i = true ↔ i.ce = true ∧ i.actCyc.toNat ≤ s.outCyc.toNat := by
  unfold begins
  rw [h.done, Bool.not_false, Bool.and_true, Bool.and_eq_true, decide_eq_true_iff, BitVec.le_def]

theorem Waits.stay (h : Waits s) (hr : Runs s i len) (hnot : s.begins i = false) : Waits (s.step i) := by
  obtain ⟨hon, hidx, hhalf, hdone⟩ := hr.step
  refine ⟨?_, ?_, ?_, ?_⟩
  · rw [hdone, h.done, hnot, Bool.or_false]
  · rw [hon, hnot, h.not_ends, if_neg Bool.false_ne_true, if_neg Bool.false_ne_true, h.off]
  · rw [hidx, h.not_advances, Bool.false_and, Bool.false_and, if_neg Bool.false_ne_true, h.idx]
  · rw [hhalf, h.not_advances, if_neg Bool.false_ne_true, h.half]

theorem Waits.begin (h : Waits s) (hr : Runs s i len) (hbegins : s.begins i = true) : Shows (s.step i) len 0 := by
  obtain ⟨hon, hidx, hhalf, hdone⟩ := hr.step
  refine ⟨?_, ?_, fun _ => ?_, fun _ => ?_⟩
  · rw [hdone, hbegins, Bool.or_true]
  · rw [hon, hbegins, if_pos rfl]
    by_cases hempty : len = 0
    · rw [show s.repLen = 0 from BitVec.eq_of_toNat_eq (hr.pixels.trans hempty), hempty]
      rfl
    · rw [decide_eq_true (by omega)]
      exact bne_iff_ne.2 fun hzero => hempty (by rw [← hr.pixels, hzero]; rfl)
  · rw [hidx, h.not_advances, Bool.false_and, Bool.false_and, if_neg Bool.false_ne_true, h.idx, Nat.zero_div,
      Nat.zero_min]
    rfl
  · rw [hhalf, h.not_advances, if_neg Bool.false_ne_true, h.half]
    rfl

theorem Shows.begins_eq (h : Shows s len n) : s.begins i = false := by
  unfold begins
  rw [h.done, Bool.not_true, Bool.and_false, Bool.false_and]

theorem Shows.advances_eq (h : Shows s len n) : s.advances i = (i.ce && decide (n < 2 * len)) := by
  unfold advances
  rw [h.done, h.on, Bool.not_true, Bool.false_and, Bool.not_false, Bool.and_true]

/-- Without an enable nothing moves. -/
theorem Shows.hold (h : Shows s len n) (hr : Runs s i len) (hce : i.ce = false) : Shows (s.step i) len n := by
  obtain ⟨hon, hidx, hhalf, hdone⟩ := hr.step
  have hadv : s.advances i = false := by rw [h.advances_eq, hce, Bool.false_and]
  have hends : s.ends i = false := by
    unfold ends
    rw [hadv, Bool.false_and, Bool.false_and]
  refine ⟨?_, ?_, fun hpos => ?_, fun hlt => ?_⟩
  · rw [hdone, h.done, Bool.true_or]
  · rw [hon, h.begins_eq, hends, if_neg Bool.false_ne_true, if_neg Bool.false_ne_true, h.on]
  · rw [hidx, hadv, Bool.false_and, Bool.false_and, if_neg Bool.false_ne_true, h.idx hpos]
  · rw [hhalf, hadv, if_neg Bool.false_ne_true, h.half hlt]

/-- Within the picture every second enable goes on to the next pixel, and the last one's ends it. -/
theorem Shows.enable (h : Shows s len n) (hr : Runs s i len) (hce : i.ce = true) : Shows (s.step i) len (n + 1) := by
  obtain ⟨hon, hidx, hhalf, hdone⟩ := hr.step
  have hshort := hr.short
  have hadv : s.advances i = decide (n < 2 * len) := by rw [h.advances_eq, hce, Bool.true_and]
  by_cases hlt : n < 2 * len
  · rw [decide_eq_true hlt] at hadv
    have hpos : 0 < len := by omega
    have hmin : min (n / 2) (len - 1) = n / 2 := by omega
    have hat := h.idx hpos
    rw [hmin] at hat
    have hlast : s.repIdx + 1 = s.repLen.setWidth 10 ↔ n / 2 + 1 = len := by
      rw [← BitVec.toNat_inj, BitVec.toNat_add, BitVec.toNat_setWidth, hr.pixels, hat, BitVec.toNat_ofNat]
      show (n / 2 % 1024 + 1) % 1024 = len % 1024 ↔ _
      omega
    rcases Nat.mod_two_eq_zero_or_one n with heven | hodd
    · -- the first enable of a pixel
      have hh : s.repHalf = false := by rw [h.half hlt, heven]; rfl
      have hends : s.ends i = false := by
        unfold ends
        rw [hh, Bool.and_false, Bool.false_and]
      refine ⟨?_, ?_, fun _ => ?_, fun _ => ?_⟩
      · rw [hdone, h.done, Bool.true_or]
      · rw [hon, h.begins_eq, hends, if_neg Bool.false_ne_true, if_neg Bool.false_ne_true, h.on]
        exact decide_eq_decide.2 (by omega)
      · rw [hidx, hh, Bool.and_false, Bool.false_and, if_neg Bool.false_ne_true, hat]
        congr 1
        omega
      · rw [hhalf, hadv, if_pos rfl, hh]
        exact (decide_eq_true (by omega)).symm
    · -- the second one: on to the next pixel, or the end of the picture
      have hh : s.repHalf = true := by rw [h.half hlt, hodd]; rfl
      have hends : s.ends i = decide (n / 2 + 1 = len) := by
        unfold ends
        rw [hadv, hh, Bool.true_and, Bool.true_and, ← decide_eq_decide.2 hlast]
        rfl
      refine ⟨?_, ?_, fun _ => ?_, fun _ => ?_⟩
      · rw [hdone, h.done, Bool.true_or]
      · rw [hon, h.begins_eq, hends, if_neg Bool.false_ne_true, h.on, decide_eq_true hlt]
        by_cases heq : n / 2 + 1 = len
        · rw [decide_eq_true heq, if_pos rfl, decide_eq_false (by omega)]
        · rw [decide_eq_false heq, if_neg Bool.false_ne_true, decide_eq_true (by omega)]
      · rw [hidx, hadv, hh, Bool.true_and, Bool.true_and]
        by_cases heq : n / 2 + 1 = len
        · rw [if_neg fun hne => bne_iff_ne.1 hne (hlast.2 heq), hat]
          congr 1
          omega
        · rw [if_pos (bne_iff_ne.2 (mt hlast.1 heq)), hat,
            show min ((n + 1) / 2) (len - 1) = n / 2 + 1 by omega, BitVec.ofNat_add]
          rfl
      · rw [hhalf, hadv, if_pos rfl, hh]
        exact (decide_eq_false (by omega)).symm
  · -- past the picture
    rw [decide_eq_false hlt] at hadv
    have hends : s.ends i = false := by
      unfold ends
      rw [hadv, Bool.false_and, Bool.false_and]
    refine ⟨?_, ?_, fun hpos => ?_, fun hlt' => by omega⟩
    · rw [hdone, h.done, Bool.true_or]
    · rw [hon, h.begins_eq, hends, if_neg Bool.false_ne_true, if_neg Bool.false_ne_true, h.on]
      exact decide_eq_decide.2 (by omega)
    · rw [hidx, hadv, Bool.false_and, Bool.false_and, if_neg Bool.false_ne_true, h.idx hpos]
      congr 1
      omega

end TvStore

end Z486.Video
