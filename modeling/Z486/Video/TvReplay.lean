/-
The replay of the line store of the 15 kHz stage (src/soc/vga_tv15.sv). The reader and the writer are in different halves
except in the clock in which a line is handed over, when nothing is written; so an output line reads the pixels of one
captured line, in their order, and its position is a matter of counting pixel enables.

The colours come out of the store a register earlier than the display enable that goes with them.
-/
import Z486.Clocked.Bits
import Z486.Video.TvPicture

namespace Z486.Video

open Clocked

/-! ## A half of the store -/

/-- The first cells of a half are the pixels of `l`. -/
def Holds (half : BitVec 10 → BitVec 24) (l : List (BitVec 24)) : Prop :=
  ∀ k (h : k < l.length), half (BitVec.ofNat 10 k) = l[k]

theorem Holds.snoc {half : BitVec 10 → BitVec 24} {l : List (BitVec 24)} (h : Holds half l) (x : BitVec 24)
    (hroom : l.length < 1024) : Holds (Function.update half (BitVec.ofNat 10 l.length) x) (l ++ [x]) := by
  intro k hk
  rw [List.length_append, List.length_singleton] at hk
  by_cases hlast : k = l.length
  · subst hlast
    rw [Function.update_self, List.getElem_append_right (Nat.le_refl _)]
    simp
  · have hlt : k < l.length := by omega
    rw [Function.update_of_ne, List.getElem_append_left hlt]
    · exact h k hlt
    · exact Clocked.ofNat_ne_ofNat (by omega) hroom hlast

namespace TvStoreRun

variable {r : TvStoreRun}

/-! ## Capture -/

section Capture

/-- The captured pixels of the line in progress. -/
structure Captured (r : TvStoreRun) (t : Nat) : Prop where
  idx : (r.state t).capIdx = BitVec.ofNat 10 (lineSoFar r.inp t).length
  pixels : Holds ((r.state t).lb (r.state t).capBuf) (lineSoFar r.inp t)

theorem hsRiseD_eq (t : Nat) : (r.state (t + 1)).hsRiseD = (r.inp t).hsRise := by
  rw [r.next]
  rfl

/-- The line in progress ends with the clock in which its edge is seen. -/
theorem line_ended {t : Nat} (ht : 0 < t) (htick : (r.state t).hsRiseD = true) :
    lineSoFar r.inp (t + 1) = [] ∧ (r.inp t).de = false ∧ (r.inp t).hsRise = false := by
  obtain ⟨u, rfl⟩ : ∃ u, t = u + 1 := ⟨t - 1, by omega⟩
  rw [hsRiseD_eq] at htick
  exact ⟨if_pos ⟨Nat.succ_ne_zero u, htick⟩, r.blanked u htick, r.edge u htick⟩

theorem line_goes_on {t : Nat} (ht : 0 < t) (htick : (r.state t).hsRiseD = false) :
    lineSoFar r.inp (t + 1) = lineSoFar r.inp t ++ (r.inp t).pixel := by
  obtain ⟨u, rfl⟩ : ∃ u, t = u + 1 := ⟨t - 1, by omega⟩
  rw [hsRiseD_eq] at htick
  refine if_neg fun h => ?_
  rw [Nat.add_sub_cancel, htick] at h
  exact absurd h.2 Bool.false_ne_true

theorem lb_kept {t : Nat} (hnot : (r.state t).captures (r.inp t) = false) : (r.state (t + 1)).lb = (r.state t).lb := by
  rw [r.next]
  show (if !(r.inp t).reset && (r.state t).captures (r.inp t) then _ else _) = _
  rw [hnot, Bool.and_false, if_neg Bool.false_ne_true]

theorem lb_written {t : Nat} (ht : 0 < t) (hcap : (r.state t).captures (r.inp t) = true) :
    (r.state (t + 1)).lb = Function.update (r.state t).lb (r.state t).capBuf
      (Function.update ((r.state t).lb (r.state t).capBuf) (r.state t).capIdx (r.inp t).rgb) := by
  rw [r.next]
  show (if !(r.inp t).reset && (r.state t).captures (r.inp t) then _ else _) = _
  rw [hcap, r.running t ht, Bool.not_false, Bool.and_true, if_pos rfl]

/-- The other half is not written. -/
theorem lb_other {t : Nat} {b : Bool} (hb : b ≠ (r.state t).capBuf) : (r.state (t + 1)).lb b = (r.state t).lb b := by
  rw [r.next]
  show (if !(r.inp t).reset && (r.state t).captures (r.inp t) then Function.update _ _ _ else _) b = _
  split
  · exact Function.update_of_ne hb _ _
  · rfl

theorem capBuf_next {t : Nat} (ht : 0 < t) :
    (r.state (t + 1)).capBuf = if (r.state t).handsOver then !(r.state t).capBuf else (r.state t).capBuf := by
  rw [r.next]
  show (if (r.inp t).reset then _ else _) = _
  rw [r.running t ht, if_neg Bool.false_ne_true]

theorem capPhase_next {t : Nat} (ht : 0 < t) : (r.state (t + 1)).capPhase = (r.state t).capPhaseNext (r.inp t) := by
  rw [r.next]
  show (if (r.inp t).reset then _ else _) = _
  rw [r.running t ht, if_neg Bool.false_ne_true]

theorem capIdx_next {t : Nat} (ht : 0 < t) : (r.state (t + 1)).capIdx = (r.state t).capIdxNext (r.inp t) := by
  rw [r.next]
  show (if (r.inp t).reset then _ else _) = _
  rw [r.running t ht, if_neg Bool.false_ne_true]

theorem outStart_next {t : Nat} (ht : 0 < t) : (r.state (t + 1)).outStart = (r.state t).handsOver := by
  rw [r.next]
  show (!(r.inp t).reset && _) = _
  rw [r.running t ht, Bool.not_false, Bool.true_and]

theorem not_captures_of_blank {t : Nat} (hde : (r.inp t).de = false) : (r.state t).captures (r.inp t) = false := by
  unfold TvStore.captures
  rw [hde, Bool.and_false, Bool.false_and]

theorem pixel_of_not_captures {t : Nat} (hphase : (r.state t).capPhase = true)
    (hnot : (r.state t).captures (r.inp t) = false) : (r.inp t).pixel = [] := by
  unfold TvStore.captures at hnot
  rw [hphase, Bool.and_true] at hnot
  unfold TvStoreIn.pixel
  rw [hnot, if_neg Bool.false_ne_true]

theorem captured_tick {t : Nat} (ht : 0 < t) (htick : (r.state t).hsRiseD = true) : Captured r (t + 1) := by
  obtain ⟨hline, hde, -⟩ := line_ended ht htick
  refine ⟨?_, fun k hk => ?_⟩
  · rw [capIdx_next ht, hline]
    unfold TvStore.capIdxNext
    rw [not_captures_of_blank hde, Bool.false_and, if_neg Bool.false_ne_true, if_pos htick]
    rfl
  · rw [hline] at hk
    exact absurd hk (Nat.not_lt_zero k)

theorem captured_pixel {t : Nat} (ht : 0 < t) (htick : (r.state t).hsRiseD = false)
    (hcap : (r.state t).captures (r.inp t) = true) (h : Captured r t) : Captured r (t + 1) := by
  have hpixel : (r.inp t).pixel = [(r.inp t).rgb] := by
    unfold TvStore.captures at hcap
    rw [Bool.and_eq_true] at hcap
    exact if_pos hcap.1
  have hline := line_goes_on ht htick
  rw [hpixel] at hline
  have hshort := r.short (t + 1)
  rw [hline, List.length_append, List.length_singleton] at hshort
  have hnat : (r.state t).capIdx.toNat = (lineSoFar r.inp t).length := by
    rw [h.idx, BitVec.toNat_ofNat]
    exact Nat.mod_eq_of_lt (by omega)
  refine ⟨?_, ?_⟩
  · have hroom : (r.state t).capIdx ≠ 0x3FF := by
      intro hfull
      rw [hfull] at hnat
      have : 1023 = (lineSoFar r.inp t).length := hnat
      omega
    rw [capIdx_next ht, hline, List.length_append, List.length_singleton]
    unfold TvStore.capIdxNext
    rw [hcap, Bool.true_and, if_pos (bne_iff_ne.2 hroom), h.idx, BitVec.ofNat_add]
    rfl
  · have hkeep : (r.state (t + 1)).capBuf = (r.state t).capBuf := by
      rw [capBuf_next ht]
      unfold TvStore.handsOver
      rw [htick, Bool.false_and, if_neg Bool.false_ne_true]
    rw [hkeep, lb_written ht hcap, Function.update_self, hline, h.idx]
    exact h.pixels.snoc _ (by omega)

/-- The line in progress, when it is captured, is in the store as far as it has got. -/
theorem captured {t : Nat} (ht : 0 < t) (hphase : (r.state t).capPhase = true) : Captured r t := by
  induction t, ht using Nat.le_induction with
  | base =>
    rw [show Nat.succ 0 = 0 + 1 from rfl, r.next] at hphase
    change (if (r.inp 0).reset then false else _) = true at hphase
    rw [r.resets, if_pos rfl] at hphase
    exact absurd hphase Bool.false_ne_true
  | succ t ht ih =>
    cases htick : (r.state t).hsRiseD with
    | true => exact captured_tick ht htick
    | false =>
      have hbefore : (r.state t).capPhase = true := by
        rw [capPhase_next ht] at hphase
        unfold TvStore.capPhaseNext at hphase
        rwa [htick, if_neg Bool.false_ne_true] at hphase
      cases hcap : (r.state t).captures (r.inp t) with
      | true => exact captured_pixel ht htick hcap (ih hbefore)
      | false =>
        have hline := line_goes_on ht htick
        rw [pixel_of_not_captures hbefore hcap, List.append_nil] at hline
        refine ⟨?_, ?_⟩
        · rw [capIdx_next ht, hline]
          unfold TvStore.capIdxNext
          rw [hcap, Bool.false_and, if_neg Bool.false_ne_true, htick, if_neg Bool.false_ne_true]
          exact (ih hbefore).idx
        · rw [lb_kept hcap, capBuf_next ht, hline]
          unfold TvStore.handsOver
          rw [htick, Bool.false_and, if_neg Bool.false_ne_true]
          exact (ih hbefore).pixels

end Capture

/-! ## Handing over -/

section Replay

/-- At clock `o` an output line starts, with the pixels `l` in the half that it is to read. -/
structure HandedOver (r : TvStoreRun) (o : Nat) (l : List (BitVec 24)) : Prop where
  starts : (r.state o).outStart = true
  len : (r.state o).capLen.toNat = l.length
  pixels : Holds ((r.state o).lb (r.state o).repBuf) l
  apart : (r.state o).repBuf ≠ (r.state o).capBuf
  quiet : (r.state o).hsRiseD = false

theorem handedOver {t : Nat} (ht : 0 < t) (hstart : (r.state (t + 1)).outStart = true) :
    HandedOver r (t + 1) (lineSoFar r.inp t) := by
  have hover := hstart
  rw [outStart_next ht] at hover
  have hgoes := hover
  unfold TvStore.handsOver at hgoes
  rw [Bool.and_eq_true] at hgoes
  obtain ⟨htick, hphase⟩ := hgoes
  obtain ⟨-, hde, hquiet⟩ := line_ended ht htick
  have h := captured ht hphase
  have hshort := r.short t
  have hrep : (r.state (t + 1)).repBuf = (r.state t).capBuf ∧
      (r.state (t + 1)).capLen = (r.state t).capIdx.setWidth 11 := by
    rw [r.next]
    show (if !(r.inp t).reset && (r.state t).handsOver then _ else _) = _ ∧
      (if !(r.inp t).reset && (r.state t).handsOver then _ else _) = _
    rw [r.running t ht, hover, Bool.not_false, Bool.and_true, if_pos rfl, if_pos rfl]
    exact ⟨rfl, rfl⟩
  refine ⟨hstart, ?_, ?_, ?_, ?_⟩
  · rw [hrep.2, h.idx, BitVec.toNat_setWidth, BitVec.toNat_ofNat]
    omega
  · rw [hrep.1, lb_kept (not_captures_of_blank hde)]
    exact h.pixels
  · rw [hrep.1, capBuf_next ht, hover, if_pos rfl]
    cases (r.state t).capBuf <;> decide
  · rw [hsRiseD_eq, hquiet]

/-! ## Reading -/

/-- Clock `t` is in the output line that starts at clock `o`. -/
def InLine (r : TvStoreRun) (o t : Nat) : Prop := o < t ∧ ∀ v, o < v → v < t → (r.state v).outStart = false

theorem InLine.before {o t : Nat} (h : r.InLine o (t + 1)) (ht : o < t) : r.InLine o t ∧ (r.state t).outStart = false :=
  ⟨⟨ht, fun v hv hlt => h.2 v hv (Nat.lt_succ_of_lt hlt)⟩, h.2 t ht (Nat.lt_succ_self t)⟩

/-- The reader is in a half that holds `l`, and the writer is in the other one. -/
structure Reading (r : TvStoreRun) (l : List (BitVec 24)) (t : Nat) : Prop where
  run : (r.state t).outRun = true
  len : (r.state t).repLen.toNat = l.length
  pixels : Holds ((r.state t).lb (r.state t).repBank) l
  apart : (r.state t).outStart = false → (r.state t).repBank ≠ (r.state t).capBuf

variable {o t : Nat} {l : List (BitVec 24)}

theorem HandedOver.reading (h : HandedOver r o l) (ho : 0 < o) : Reading r l (o + 1) := by
  have hreset := r.running o ho
  have hbank : (r.state (o + 1)).repBank = (r.state o).repBuf := by
    rw [r.next]
    show (if !(r.inp o).reset && (r.state o).outStart then _ else _) = _
    rw [hreset, h.starts, Bool.not_false, Bool.and_true, if_pos rfl]
  refine ⟨?_, ?_, ?_, fun _ => ?_⟩
  · rw [r.next]
    show (if (r.inp o).reset then false else (r.state o).outStart || (r.state o).outRun) = true
    rw [hreset, h.starts, if_neg Bool.false_ne_true, Bool.true_or]
  · rw [r.next]
    show BitVec.toNat (if !(r.inp o).reset && (r.state o).outStart then (r.state o).capLen else _) = _
    rw [hreset, h.starts, Bool.not_false, Bool.and_true, if_pos rfl, h.len]
  · rw [hbank, lb_other h.apart]
    exact h.pixels
  · rw [hbank, capBuf_next ho]
    unfold TvStore.handsOver
    rw [h.quiet, Bool.false_and, if_neg Bool.false_ne_true]
    exact h.apart

theorem Reading.next (h : Reading r l t) (ht : 0 < t) (hgoes : (r.state t).outStart = false) : Reading r l (t + 1) := by
  have hreset := r.running t ht
  have hbank : (r.state (t + 1)).repBank = (r.state t).repBank := by
    rw [r.next]
    show (if !(r.inp t).reset && (r.state t).outStart then _ else _) = _
    rw [hgoes, Bool.and_false, if_neg Bool.false_ne_true]
  refine ⟨?_, ?_, ?_, fun hnext => ?_⟩
  · rw [r.next]
    show (if (r.inp t).reset then false else (r.state t).outStart || (r.state t).outRun) = true
    rw [hreset, h.run, if_neg Bool.false_ne_true, Bool.or_true]
  · rw [r.next]
    show BitVec.toNat (if !(r.inp t).reset && (r.state t).outStart then _ else (r.state t).repLen) = _
    rw [hgoes, Bool.and_false, if_neg Bool.false_ne_true, h.len]
  · rw [hbank, lb_other (h.apart hgoes)]
    exact h.pixels
  · rw [outStart_next ht] at hnext
    rw [hbank, capBuf_next ht, hnext, if_neg Bool.false_ne_true]
    exact h.apart hgoes

theorem reading (h : HandedOver r o l) (ho : 0 < o) (hline : r.InLine o t) : Reading r l t := by
  obtain ⟨hlt, -⟩ := id hline
  induction t, hlt using Nat.le_induction with
  | base => exact h.reading ho
  | succ t hlt ih =>
    obtain ⟨hbefore, hgoes⟩ := hline.before hlt
    exact (ih hbefore).next (by omega) hgoes

/-! ## An output line -/

/-- The porch is over in clock `u` of the output line of clock `o`, with a pixel enable. -/
def Begins (r : TvStoreRun) (o u : Nat) : Prop :=
  (r.inp u).ce = true ∧ (r.inp u).actCyc.toNat ≤ min (u - (o + 1)) 8191

/-- The picture of the output line starts in clock `u`. -/
structure PictureFrom (r : TvStoreRun) (o u : Nat) : Prop where
  after : o < u
  begins : r.Begins o u
  first : ∀ v, o < v → v < u → ¬ r.Begins o v

theorem outCyc_eq (h : HandedOver r o l) (ho : 0 < o) (hline : r.InLine o t) :
    (r.state t).outCyc.toNat = min (t - (o + 1)) 8191 := by
  obtain ⟨hlt, -⟩ := id hline
  induction t, hlt using Nat.le_induction with
  | base =>
    have hzero : (r.state (o + 1)).outCyc = 0 := by
      rw [r.next]
      show (if (r.inp o).reset then 0 else (r.state o).outCycNext) = 0
      rw [r.running o ho, if_neg Bool.false_ne_true]
      exact if_pos h.starts
    rw [show (r.state (Nat.succ o)).outCyc = 0 from hzero, Nat.sub_self, Nat.zero_min]
    rfl
  | succ t hlt ih =>
    obtain ⟨hbefore, hgoes⟩ := hline.before hlt
    have hcyc := ih hbefore
    have hnext : (r.state (t + 1)).outCyc =
        if (r.state t).outCyc != 0x1FFF then (r.state t).outCyc + 1 else (r.state t).outCyc := by
      rw [r.next]
      show (if (r.inp t).reset then 0 else (r.state t).outCycNext) = _
      rw [r.running t (by omega), if_neg Bool.false_ne_true]
      unfold TvStore.outCycNext
      rw [hgoes, (reading h ho hbefore).run, if_neg Bool.false_ne_true, Bool.true_and]
    rw [hnext]
    by_cases hfull : (r.state t).outCyc = 0x1FFF
    · have htop : (r.state t).outCyc.toNat = 8191 := congrArg BitVec.toNat hfull
      rw [if_neg fun hne => bne_iff_ne.1 hne hfull]
      omega
    · have htop : (r.state t).outCyc.toNat ≠ 8191 := fun heq => hfull (BitVec.eq_of_toNat_eq heq)
      rw [if_pos (bne_iff_ne.2 hfull), BitVec.toNat_add]
      show (_ + 1) % 8192 = _
      omega

theorem runs (h : HandedOver r o l) (ho : 0 < o) (hl : l.length ≤ 1023) (hline : r.InLine o t)
    (hgoes : (r.state t).outStart = false) : TvStore.Runs (r.state t) (r.inp t) l.length where
  running := r.running t (Nat.lt_trans ho hline.1)
  goes := hgoes
  run := (reading h ho hline).run
  pixels := (reading h ho hline).len
  short := hl

theorem waits_first (h : HandedOver r o l) (ho : 0 < o) : TvStore.Waits (r.state (o + 1)) := by
  have hreset := r.running o ho
  rw [r.next]
  refine ⟨?_, ?_, ?_, ?_⟩
  · show (if (r.inp o).reset then _ else if (r.state o).outStart then _ else _) = _
    rw [hreset, h.starts, if_neg Bool.false_ne_true, if_pos rfl]
  · show (if (r.inp o).reset then _ else (r.state o).repOnNext (r.inp o)) = _
    rw [hreset, if_neg Bool.false_ne_true]
    exact if_pos h.starts
  · show (if (r.inp o).reset then _ else (r.state o).repIdxNext (r.inp o)) = _
    rw [hreset, if_neg Bool.false_ne_true]
    exact if_pos h.starts
  · show (if (r.inp o).reset then _ else (r.state o).repHalfNext (r.inp o)) = _
    rw [hreset, if_neg Bool.false_ne_true]
    exact if_pos h.starts

theorem begins_iff (h : HandedOver r o l) (ho : 0 < o) (hline : r.InLine o t) (hw : TvStore.Waits (r.state t)) :
    (r.state t).begins (r.inp t) = true ↔ r.Begins o t := by
  rw [hw.begins_iff, outCyc_eq h ho hline]
  rfl

theorem waits (h : HandedOver r o l) (ho : 0 < o) (hl : l.length ≤ 1023) (hline : r.InLine o t)
    (hnot : ∀ u, o < u → u < t → ¬ r.Begins o u) : TvStore.Waits (r.state t) := by
  obtain ⟨hlt, -⟩ := id hline
  induction t, hlt using Nat.le_induction with
  | base => exact waits_first h ho
  | succ t hlt ih =>
    obtain ⟨hbefore, hgoes⟩ := hline.before hlt
    have hw := ih hbefore fun u hu hut => hnot u hu (Nat.lt_succ_of_lt hut)
    rw [r.next]
    refine hw.stay (runs h ho hl hbefore hgoes) (Bool.eq_false_of_not_eq_true fun hbegins => ?_)
    exact hnot t hlt (Nat.lt_succ_self t) ((begins_iff h ho hbefore hw).1 hbegins)

theorem shows (h : HandedOver r o l) (ho : 0 < o) (hl : l.length ≤ 1023) {u : Nat} (hp : r.PictureFrom o u)
    (hline : r.InLine o t) (hu : u < t) :
    TvStore.Shows (r.state t) l.length (pulses (fun v => (r.inp v).ce) (u + 1) t) := by
  induction t, hu using Nat.le_induction with
  | base =>
    obtain ⟨hbefore, hgoes⟩ := hline.before hp.after
    have hw := waits h ho hl hbefore hp.first
    rw [pulses_self, show Nat.succ u = u + 1 from rfl, r.next]
    exact hw.begin (runs h ho hl hbefore hgoes) ((begins_iff h ho hbefore hw).2 hp.begins)
  | succ t hu ih =>
    obtain ⟨hbefore, hgoes⟩ := hline.before (Nat.lt_trans hp.after hu)
    have hs := ih hbefore
    have hr := runs h ho hl hbefore hgoes
    rw [pulses_succ _ hu, r.next]
    cases hce : (r.inp t).ce with
    | true =>
      rw [if_pos rfl]
      exact hs.enable hr hce
    | false =>
      rw [if_neg Bool.false_ne_true]
      exact hs.hold hr hce

/-- The pixel enables of the picture that starts in clock `p`, up to clock `t`. -/
def enables (r : TvStoreRun) (p t : Nat) : Nat := pulses (fun v => (r.inp v).ce) (p + 1) t

/-- What comes out of the store in a clock of an output line: the pixel that the enables have come to. -/
theorem read_pixel (h : HandedOver r o l) (ho : 0 < o) (hl : l.length ≤ 1023) {p : Nat} (hp : r.PictureFrom o p)
    (hline : r.InLine o t) (hpt : p < t) (hpos : 0 < l.length) :
    l[min (r.enables p t / 2) (l.length - 1)]? = some (r.state (t + 1)).lbQ := by
  have hs := shows h ho hl hp hline hpt
  have hr := reading h ho hline
  have hlt : min (r.enables p t / 2) (l.length - 1) < l.length := by omega
  rw [List.getElem?_eq_getElem hlt, ← hr.pixels _ hlt, r.next]
  show some _ = some ((r.state t).lb (r.state t).repBank (r.state t).repIdx)
  rw [hs.idx hpos]
  rfl

theorem convDeB_eq (t : Nat) : (r.state (t + 2)).convDeB = ((r.state t).repOn && (r.state t).vsLines == 0) := by
  rw [r.next, show (TvStore.step _ _).convDeB = (r.state (t + 1)).convDeA from rfl, r.next]
  rfl

/-! ## The replay -/

/-- In clock `v + 1` the output shows cell `k` of the half that is read. -/
def showsCell (r : TvStoreRun) (k v : Nat) : Bool :=
  (r.state (v + 1)).convDeB && (r.state v).repIdx == BitVec.ofNat 10 k

/-- The output of the stage, the colours of the store gated by the display enable: an output line starts with the end of
each captured line, and one line in two is captured unless a progressive vsync restarts their phase; it is dark up to
its picture, and the picture shows the pixels of the captured line in their order and nothing after them. A pixel that ends
in the line, and that no vsync hides, is shown for two enables; these are counted in the clock in which the store is read. -/
structure Replays (r : TvStoreRun) : Prop where
  starts : ∀ t, 0 < t →
    ((r.state (t + 1)).outStart = true ↔ (r.state t).hsRiseD = true ∧ (r.state t).capPhase = true)
  alternates : ∀ t, 0 < t → (r.state t).hsRiseD = true → TvStore.restarts (r.inp t) = false →
    (r.state (t + 1)).capPhase = !(r.state t).capPhase
  keeps : ∀ t, 0 < t → (r.state t).hsRiseD = false → (r.state (t + 1)).capPhase = (r.state t).capPhase
  dark : ∀ t u, 0 < t → (r.state (t + 1)).outStart = true → r.InLine (t + 1) u →
    (∀ p, p < u → ¬ r.PictureFrom (t + 1) p) → (r.state (u + 2)).convDeB = false
  shown : ∀ t p u, 0 < t → (r.state (t + 1)).outStart = true → r.PictureFrom (t + 1) p → r.InLine (t + 1) u → p < u →
    ((r.state (u + 2)).convDeB = true ↔
      r.enables p u < 2 * (lineSoFar r.inp t).length ∧ (r.state u).vsLines = 0) ∧
    ((r.state (u + 2)).convDeB = true →
      (lineSoFar r.inp t)[min (r.enables p (u + 1) / 2) ((lineSoFar r.inp t).length - 1)]? =
        some (r.state (u + 2)).lbQ)
  twice : ∀ t p u k, 0 < t → (r.state (t + 1)).outStart = true → r.PictureFrom (t + 1) p → r.InLine (t + 1) u →
    k < (lineSoFar r.inp t).length → 2 * (k + 1) ≤ r.enables p u →
    (∀ v, p ≤ v → v < u → r.enables p (v + 1) / 2 = k → (r.state v).vsLines = 0) →
    pulses (fun v => (r.inp v).ce && r.showsCell k v) (p + 1) (u + 1) = 2

/-- Each picture is over when the next output line starts, or the vsync hides it. -/
def Finishes (r : TvStoreRun) : Prop :=
  ∀ t p u, 0 < t → (r.state (t + 1)).outStart = true → r.PictureFrom (t + 1) p → r.InLine (t + 1) u → p < u →
    (r.state u).outStart = true → 2 * (lineSoFar r.inp t).length ≤ r.enables p u ∨ (r.state u).vsLines ≠ 0

/-- No pixel enable follows in the very next clock on the one that begins a picture, or on the last one of a picture. -/
structure Apart (r : TvStoreRun) : Prop where
  first : ∀ t p, 0 < t → (r.state (t + 1)).outStart = true → r.PictureFrom (t + 1) p → r.InLine (t + 1) (p + 1) →
    0 < (lineSoFar r.inp t).length → (r.inp (p + 1)).ce = false
  last : ∀ t p u, 0 < t → (r.state (t + 1)).outStart = true → r.PictureFrom (t + 1) p → r.InLine (t + 1) (u + 1) → p < u →
    (r.inp u).ce = true → r.enables p u + 1 = 2 * (lineSoFar r.inp t).length → (r.inp (u + 1)).ce = false

theorem exists_pictureFrom {u : Nat} (hu : o < u) (hb : r.Begins o u) : ∃ p, p ≤ u ∧ r.PictureFrom o p := by
  obtain ⟨p, hop, hp, hfirst⟩ := exists_first (P := fun v => r.Begins o v) ⟨u, Nat.succ_le_of_lt hu, hb⟩
  refine ⟨p, ?_, hop, hp, fun v hv hlt => hfirst v hv hlt⟩
  by_contra hlt
  exact hfirst u hu (by omega) hb

theorem dark_before (ht : 0 < t) (hstart : (r.state (t + 1)).outStart = true) {u : Nat} (hline : r.InLine (t + 1) u)
    (hnot : ∀ p, p < u → ¬ r.PictureFrom (t + 1) p) : (r.state (u + 2)).convDeB = false := by
  have hw := waits (handedOver ht hstart) (Nat.succ_pos t) (r.short t) hline fun v hv hlt hb => by
    obtain ⟨p, hpv, hp⟩ := exists_pictureFrom hv hb
    exact hnot p (by omega) hp
  rw [convDeB_eq, hw.off, Bool.false_and]

theorem enables_mono {p a b : Nat} (ha : p < a) (hab : a ≤ b) : r.enables p a ≤ r.enables p b := by
  unfold enables
  rw [pulses_add _ ha hab]
  exact Nat.le_add_right _ _

theorem InLine.earlier {o v : Nat} (h : r.InLine o t) (hov : o < v) (hvt : v ≤ t) : r.InLine o v :=
  ⟨hov, fun w hw hlt => h.2 w hw (Nat.lt_of_lt_of_le hlt hvt)⟩

section Twice

variable {p u k : Nat}

/-- At an enable of a picture the output shows the pixel that the enables have come to, unless a vsync hides it. -/
theorem showsCell_iff (hapart : r.Apart) (ht : 0 < t) (hstart : (r.state (t + 1)).outStart = true)
    (hp : r.PictureFrom (t + 1) p) (hk : k < (lineSoFar r.inp t).length) {v : Nat} (hline : r.InLine (t + 1) v) (hpv : p < v)
    (hce : (r.inp v).ce = true) (hvisible : r.enables p v / 2 = k → (r.state (v - 1)).vsLines = 0) :
    r.showsCell k v = true ↔ r.enables p v / 2 = k := by
  have h := handedOver ht hstart
  have ho := Nat.succ_pos t
  have hafter := hp.after
  have hshort := r.short t
  have hs := shows h ho hshort hp hline hpv
  have hidx : (r.state v).repIdx = BitVec.ofNat 10 k ↔
      min (r.enables p v / 2) ((lineSoFar r.inp t).length - 1) = k := by
    rw [hs.idx (Nat.zero_lt_of_lt hk)]
    change BitVec.ofNat 10 (min (r.enables p v / 2) ((lineSoFar r.inp t).length - 1)) = _ ↔ _
    refine ⟨fun heq => by_contra fun hne => ?_, fun heq => by rw [heq]⟩
    exact Clocked.ofNat_ne_ofNat (by omega) (by omega) hne heq
  -- the enable is not the one behind that which begins the picture
  have hne : v ≠ p + 1 := by
    rintro rfl
    have hnot := hapart.first t p ht hstart hp hline (Nat.zero_lt_of_lt hk)
    rw [hce] at hnot
    exact Bool.noConfusion hnot
  obtain ⟨w, rfl⟩ : ∃ w, v = w + 1 := ⟨v - 1, by omega⟩
  have hbefore : r.InLine (t + 1) w := hline.earlier (by omega) (Nat.le_succ w)
  have hon : (r.state (w + 1 + 1)).convDeB = true ↔
      r.enables p w < 2 * (lineSoFar r.inp t).length ∧ (r.state w).vsLines = 0 := by
    rw [convDeB_eq, (shows h ho hshort hp hbefore (by omega)).on, Bool.and_eq_true, decide_eq_true_iff, beq_iff_eq]
    rfl
  unfold showsCell
  rw [Bool.and_eq_true, beq_iff_eq, hon, hidx]
  constructor
  · rintro ⟨⟨hlt, -⟩, hmin⟩
    -- nor is it the one behind the last
    have hpulse : r.enables p (w + 1) = r.enables p w + if (r.inp w).ce = true then 1 else 0 := pulses_succ _ (by omega)
    have hnot : (r.inp w).ce = true → r.enables p w + 1 ≠ 2 * (lineSoFar r.inp t).length := by
      intro hcew hlast
      have hquiet := hapart.last t p w ht hstart hp hline (by omega) hcew hlast
      rw [hce] at hquiet
      exact Bool.noConfusion hquiet
    split at hpulse
    · next hcew =>
      have := hnot hcew
      omega
    · omega
  · intro hk2
    have hle := enables_mono (r := r) (p := p) (a := w) (b := w + 1) (by omega) (Nat.le_succ w)
    exact ⟨⟨by omega, hvisible hk2⟩, by omega⟩

/-- A pixel that ends in the output line is shown for two enables. -/
theorem twice (hapart : r.Apart) (ht : 0 < t) (hstart : (r.state (t + 1)).outStart = true)
    (hp : r.PictureFrom (t + 1) p) (hline : r.InLine (t + 1) u) (hk : k < (lineSoFar r.inp t).length)
    (hends : 2 * (k + 1) ≤ r.enables p u)
    (hvisible : ∀ v, p ≤ v → v < u → r.enables p (v + 1) / 2 = k → (r.state v).vsLines = 0) :
    pulses (fun v => (r.inp v).ce && r.showsCell k v) (p + 1) (u + 1) = 2 := by
  have hpu : p < u := by
    by_contra hle
    have hzero : r.enables p u = 0 := pulses_eq_zero fun v h1 h2 => by omega
    omega
  have hranks : pulses (fun v => (r.inp v).ce && r.showsCell k v) (p + 1) (u + 1) =
      pulses (fun v => (r.inp v).ce && decide (2 * k ≤ r.enables p v ∧ r.enables p v < 2 * (k + 1))) (p + 1) (u + 1) := by
    refine pulses_congr fun v hpv hvu => ?_
    cases hce : (r.inp v).ce with
    | false => rw [Bool.false_and, Bool.false_and]
    | true =>
      have hafter := hp.after
      have hin : r.InLine (t + 1) v := hline.earlier (by omega) (by omega)
      have hiff := showsCell_iff hapart ht hstart hp hk hin (by omega) hce fun heq =>
        hvisible (v - 1) (by omega) (by omega) (by rwa [Nat.sub_add_cancel (by omega)])
      rw [Bool.true_and, Bool.true_and, Bool.eq_iff_iff, hiff, decide_eq_true_iff]
      omega
  have hcount : pulses (fun v => (r.inp v).ce && decide (2 * k ≤ r.enables p v ∧ r.enables p v < 2 * (k + 1)))
      (p + 1) (u + 1) = _ := pulses_ranked (fun v => (r.inp v).ce) (2 * k) (2 * (k + 1)) (show p + 1 ≤ u + 1 by omega)
  have hmono : r.enables p u ≤ r.enables p (u + 1) := enables_mono (by omega) (Nat.le_succ u)
  unfold enables at hmono hends
  rw [hranks, hcount]
  omega

end Twice

/-- In every run whose pictures finish, and whose enables lie apart where a picture begins and ends, the output replays the
captured lines. -/
theorem replays (r : TvStoreRun) (hfinishes : r.Finishes) (hapart : r.Apart) : r.Replays := by
  refine ⟨fun t ht => ?_, fun t ht htick hgoes => ?_, fun t ht htick => ?_,
    fun t u ht hstart hline hnot => dark_before ht hstart hline hnot, fun t p u ht hstart hp hline hpu => ?_,
    fun t p u k ht hstart hp hline hk hends hvisible => twice hapart ht hstart hp hline hk hends hvisible⟩
  · rw [outStart_next ht]
    unfold TvStore.handsOver
    rw [Bool.and_eq_true]
  · rw [capPhase_next ht]
    unfold TvStore.capPhaseNext
    rw [if_pos htick, hgoes, if_neg Bool.false_ne_true]
  · rw [capPhase_next ht]
    unfold TvStore.capPhaseNext
    rw [htick, if_neg Bool.false_ne_true]
  · have h := handedOver ht hstart
    have hs := shows h (Nat.succ_pos t) (r.short t) hp hline hpu
    have hde : (r.state (u + 2)).convDeB = true ↔
        r.enables p u < 2 * (lineSoFar r.inp t).length ∧ (r.state u).vsLines = 0 := by
      rw [convDeB_eq, hs.on, Bool.and_eq_true, decide_eq_true_iff, beq_iff_eq]
      rfl
    refine ⟨hde, fun hon => ?_⟩
    obtain ⟨hlt, hvs⟩ := hde.1 hon
    have hgoes : (r.state u).outStart = false := by
      refine Bool.eq_false_of_not_eq_true fun hcut => ?_
      rcases hfinishes t p u ht hstart hp hline hpu hcut with hover | hhidden
      · exact absurd hlt (Nat.not_lt.2 hover)
      · exact hhidden hvs
    have hnext : r.InLine (t + 1) (u + 1) := by
      refine ⟨Nat.lt_succ_of_lt hline.1, fun v hv hvu => ?_⟩
      rcases Nat.lt_succ_iff_lt_or_eq.1 hvu with hbefore | rfl
      · exact hline.2 v hv hbefore
      · exact hgoes
    exact read_pixel h (Nat.succ_pos t) (r.short t) hp hnext (Nat.lt_succ_of_lt hpu) (by omega)

/-- Where a picture is cut, the output shows the first pixel of the next line for a clock. -/
theorem cut_shows_next {u : Nat} (hu : 0 < u) (hcut : (r.state (u + 1)).outStart = true)
    (hon : (r.state (u + 1)).repOn = true) (hvs : (r.state (u + 1)).vsLines = 0)
    (hpos : 0 < (lineSoFar r.inp u).length) :
    (r.state (u + 3)).convDeB = true ∧ (r.state (u + 3)).lbQ = (lineSoFar r.inp u)[0] := by
  have h := handedOver hu hcut
  refine ⟨?_, ?_⟩
  · rw [convDeB_eq, hon, hvs]
    rfl
  · rw [r.next]
    show (r.state (u + 2)).lb (r.state (u + 2)).repBank (r.state (u + 2)).repIdx = _
    rw [(waits_first h (Nat.succ_pos u)).idx]
    exact (h.reading (Nat.succ_pos u)).pixels 0 hpos

end Replay

/-! ## Lines of `w` clocks -/

section Wide

/-- Lines of 1000 clocks with a pixel enable in every `c`-th, `w` of them displayed, and the porch of a centred picture.
Each line has its number for a colour. -/
def wideIn (c w t : Nat) : TvStoreIn where
  reset := t == 0
  hsRise := t % 1000 == 999
  fire := false
  ilace := false
  ce := t % c == 0
  de := decide (50 ≤ t % 1000 ∧ t % 1000 < 50 + w)
  rgb := BitVec.ofNat 24 (t / 1000)
  actCyc := 960

variable {c w : Nat}

theorem wide_line (hc : c = 1 ∨ c = 2) (hw : w ≤ 900) {t : Nat} : lineSoFar (wideIn c w) (t + 1) =
    List.replicate ((min (t % 1000 + 1 - 50) w + c - 1) / c) (BitVec.ofNat 24 (t / 1000)) := by
  have hpixel : ∀ t, (wideIn c w t).pixel =
      if t % c = 0 ∧ 50 ≤ t % 1000 ∧ t % 1000 < 50 + w then [BitVec.ofNat 24 (t / 1000)] else [] := by
    intro t
    refine if_congr ?_ rfl rfl
    show (t % c == 0 && decide (50 ≤ t % 1000 ∧ t % 1000 < 50 + w)) = true ↔ _
    rw [Bool.and_eq_true, beq_iff_eq, decide_eq_true_iff]
  induction t with
  | zero =>
    show (if _ then [] else [] ++ (wideIn c w 0).pixel) = _
    rw [if_neg fun h => h.1 rfl, hpixel 0, if_neg (by omega)]
    rcases hc with rfl | rfl
    · rw [show (min (0 % 1000 + 1 - 50) w + 1 - 1) / 1 = 0 by omega]
      rfl
    · rw [show (min (0 % 1000 + 1 - 50) w + 2 - 1) / 2 = 0 by omega]
      rfl
  | succ t ih =>
    by_cases hend : t % 1000 = 999
    · rw [show (min ((t + 1) % 1000 + 1 - 50) w + c - 1) / c = 0 by rcases hc with rfl | rfl <;> omega]
      exact if_pos ⟨Nat.succ_ne_zero t, beq_iff_eq.2 hend⟩
    · have hmod : (t + 1) % 1000 = t % 1000 + 1 := by omega
      have hdiv : (t + 1) / 1000 = t / 1000 := by omega
      show (if _ then [] else lineSoFar (wideIn c w) (t + 1) ++ (wideIn c w (t + 1)).pixel) = _
      rw [if_neg fun h => hend (beq_iff_eq.1 h.2), ih, hpixel, hmod, hdiv]
      by_cases hshown : (t + 1) % c = 0 ∧ 50 ≤ t % 1000 + 1 ∧ t % 1000 + 1 < 50 + w
      · rw [if_pos hshown, ← List.replicate_succ']
        refine congrArg (List.replicate · _) ?_
        rcases hc with rfl | rfl <;> omega
      · rw [if_neg hshown, List.append_nil]
        refine congrArg (List.replicate · _) ?_
        rcases hc with rfl | rfl <;> omega

def wide (c w : Nat) (hc : c = 1 ∨ c = 2) (hw : w ≤ 900) : TvStoreRun where
  inp := wideIn c w
  state := run TvStore.step .idle (wideIn c w)
  next t := run_succ _ _ _ t
  resets := rfl
  running t ht := beq_eq_false_iff_ne.2 (Nat.ne_of_gt ht)
  edge t h := by
    have hend : t % 1000 = 999 := beq_iff_eq.1 h
    refine beq_eq_false_iff_ne.2 ?_
    omega
  blanked t h := by
    have hend : t % 1000 = 999 := beq_iff_eq.1 h
    refine decide_eq_false ?_
    omega
  short t := by
    cases t with
    | zero => exact Nat.zero_le _
    | succ t =>
      rw [wide_line hc hw, List.length_replicate]
      rcases hc with rfl | rfl <;> omega

variable (hc : c = 1 ∨ c = 2) (hw : w ≤ 900)

theorem wide_hsRiseD (t : Nat) : ((wide c w hc hw).state (t + 1)).hsRiseD = decide (t % 1000 = 999) := by
  rw [hsRiseD_eq]
  exact (beq_eq_decide _ _)

theorem wide_capPhase (t : Nat) : ((wide c w hc hw).state (t + 1)).capPhase = decide (t / 1000 % 2 = 1) := by
  induction t with
  | zero => rfl
  | succ t ih =>
    rw [capPhase_next (Nat.succ_pos t)]
    unfold TvStore.capPhaseNext
    rw [wide_hsRiseD, ih]
    by_cases hend : t % 1000 = 999
    · rw [decide_eq_true hend, if_pos rfl, show TvStore.restarts ((wide c w hc hw).inp (t + 1)) = false from rfl,
        if_neg Bool.false_ne_true, ← decide_not]
      exact decide_eq_decide.2 (by omega)
    · rw [decide_eq_false hend, if_neg Bool.false_ne_true]
      exact decide_eq_decide.2 (by omega)

theorem wide_outStart (t : Nat) :
    ((wide c w hc hw).state (t + 2)).outStart = decide (t % 1000 = 999 ∧ t / 1000 % 2 = 1) := by
  rw [outStart_next (Nat.succ_pos t)]
  unfold TvStore.handsOver
  rw [wide_hsRiseD, wide_capPhase, ← Bool.decide_and]

theorem wide_vsync (t : Nat) :
    ((wide c w hc hw).state (t + 1)).vsLines = 0 ∧ ((wide c w hc hw).state (t + 1)).vsPend = false := by
  induction t with
  | zero => exact ⟨rfl, rfl⟩
  | succ t ih =>
    rw [(wide c w hc hw).next (t + 1)]
    refine ⟨?_, ?_⟩
    · show (if ((wide c w hc hw).inp (t + 1)).reset then 0 else TvStore.vsLinesNext _ _) = _
      rw [(wide c w hc hw).running (t + 1) (Nat.succ_pos t), if_neg Bool.false_ne_true]
      unfold TvStore.vsLinesNext TvStore.vsStarts
      rw [ih.1, ih.2, show ((wide c w hc hw).inp (t + 1)).fire = false from rfl]
      cases ((wide c w hc hw).state (t + 1)).hsRiseD <;> rfl
    · show (if ((wide c w hc hw).inp (t + 1)).reset then false else TvStore.vsPendNext _ _) = _
      rw [(wide c w hc hw).running (t + 1) (Nat.succ_pos t), if_neg Bool.false_ne_true]
      unfold TvStore.vsPendNext TvStore.vsStarts TvStore.restarts
      rw [ih.2, show ((wide c w hc hw).inp (t + 1)).fire = false from rfl]
      cases ((wide c w hc hw).state (t + 1)).hsRiseD <;> rfl

theorem wide_ce (t : Nat) : ((wide c w hc hw).inp t).ce = true ↔ t % c = 0 := beq_iff_eq

theorem wide_enables (p t : Nat) (h : p < t) : (wide c w hc hw).enables p t = (t - 1) / c - p / c := by
  unfold enables
  induction t, h using Nat.le_induction with
  | base => rw [pulses_self, show Nat.succ p - 1 = p from rfl, Nat.sub_self]
  | succ t h ih =>
    rw [pulses_succ _ h, ih]
    simp only [wide_ce]
    rcases hc with rfl | rfl <;> split <;> omega

/-- The picture starts 960 clocks into the output line. -/
theorem wide_begins (o u : Nat) (hu : o < u) : (wide c w hc hw).Begins o u ↔ u % c = 0 ∧ o + 961 ≤ u := by
  have hporch : ((wide c w hc hw).inp u).actCyc.toNat = 960 := rfl
  unfold Begins
  rw [wide_ce, hporch]
  omega

theorem wide_pictureFrom {o p : Nat} (hodd : o % 2 = 1) (h : (wide c w hc hw).PictureFrom o p) : p = o + 961 := by
  have hbegins := (wide_begins hc hw o p h.after).1 h.begins
  by_contra hne
  refine h.first (o + 961) (by omega) (by omega) ((wide_begins hc hw o _ (by omega)).2 ⟨?_, Nat.le_refl _⟩)
  rcases hc with rfl | rfl <;> omega

theorem wide_finishes (hnarrow : w ≤ 518) : (wide c w hc hw).Finishes := by
  intro t p u ht hstart hp hline hpu hcut
  obtain ⟨s, rfl⟩ : ∃ s, t = s + 1 := ⟨t - 1, by omega⟩
  have hafter := hline.1
  obtain ⟨v, rfl⟩ : ∃ v, u = v + 2 := ⟨u - 2, by omega⟩
  rw [wide_outStart, decide_eq_true_iff] at hstart hcut
  have hfrom := wide_pictureFrom hc hw (by omega) hp
  refine .inl ?_
  rw [show lineSoFar (wide c w hc hw).inp (s + 1) = _ from wide_line hc hw, List.length_replicate,
    wide_enables hc hw p _ hpu]
  rcases hc with rfl | rfl <;> omega

theorem wide_apart (w : Nat) (hw : w ≤ 900) : (wide 2 w (.inr rfl) hw).Apart := by
  have hnext : ∀ t, ((wide 2 w (.inr rfl) hw).inp t).ce = true → ((wide 2 w (.inr rfl) hw).inp (t + 1)).ce = false := by
    intro t hce
    rw [wide_ce] at hce
    rw [Bool.eq_false_iff, Ne, wide_ce]
    omega
  exact ⟨fun _ p _ _ hp _ _ => hnext p hp.begins.1, fun _ _ u _ _ _ _ _ hce _ => hnext u hce⟩

theorem replays_narrow : (wide 2 400 (.inr rfl) (by decide)).Replays :=
  replays _ (wide_finishes _ _ (by decide)) (wide_apart _ _)

/-- Of lines of 900 pixels the output line has room for 519. -/
theorem wide_not_replays : ¬ (wide 1 900 (.inl rfl) (Nat.le_refl 900)).Replays := by
  intro h
  generalize hr : wide 1 900 (.inl rfl) (Nat.le_refl 900) = r at h
  have hstart : ∀ t, (r.state (t + 2)).outStart = decide (t % 1000 = 999 ∧ t / 1000 % 2 = 1) :=
    hr ▸ wide_outStart (.inl rfl) (Nat.le_refl 900)
  have hbegins : ∀ u, 2001 < u → (r.Begins 2001 u ↔ u % 1 = 0 ∧ 2962 ≤ u) :=
    hr ▸ wide_begins (.inl rfl) (Nat.le_refl 900) 2001
  have hlines : ∀ t, lineSoFar r.inp (t + 1) =
      List.replicate ((min (t % 1000 + 1 - 50) 900 + 1 - 1) / 1) (BitVec.ofNat 24 (t / 1000)) :=
    fun t => hr ▸ wide_line (.inl rfl) (Nat.le_refl 900)
  -- the line of ones begins in clock 2962, and is cut in clock 4001, with which the next one starts
  have hp : r.PictureFrom 2001 2962 := by
    refine ⟨by decide, (hbegins 2962 (by decide)).2 ⟨rfl, Nat.le_refl _⟩, fun v hv hlt hb => ?_⟩
    have := (hbegins v hv).1 hb
    omega
  have hline : r.InLine 2001 4001 := by
    refine ⟨by decide, fun v hv hlt => ?_⟩
    obtain ⟨s, rfl⟩ : ∃ s, v = s + 2 := ⟨v - 2, by omega⟩
    rw [hstart]
    exact decide_eq_false (by omega)
  have hfirst : (r.state 2001).outStart = true := (hstart 1999).trans (decide_eq_true (by decide))
  have hcut : (r.state 4001).outStart = true := (hstart 3999).trans (decide_eq_true (by decide))
  have hcount : r.enables 2962 4001 = 1038 := hr ▸ wide_enables (.inl rfl) (Nat.le_refl 900) 2962 4001 (by decide)
  -- nine hundred pixels of ones, behind them a line of threes
  have hold : lineSoFar r.inp 2000 = List.replicate 900 1 := hlines 1999
  have hnew : lineSoFar r.inp 4000 = List.replicate 900 3 := hlines 3999
  have hon : (r.state 4001).repOn = true := by
    have hs := shows (handedOver (by decide) hfirst) (by decide) (r.short 2000) hp hline (by decide)
    rw [hs.on, hold, List.length_replicate]
    exact decide_eq_true (Nat.lt_of_le_of_lt (Nat.le_of_eq hcount) (by decide))
  have hvs : (r.state 4001).vsLines = 0 := hr ▸ (wide_vsync (.inl rfl) (Nat.le_refl 900) 4000).1
  obtain ⟨hde, hlbq⟩ := cut_shows_next (u := 4000) (by decide) hcut hon hvs
    (by rw [hnew, List.length_replicate]; decide)
  -- the replay would show a one there, and a three comes
  have hpixel := (h.shown 2000 2962 4001 (by decide) hfirst hp hline (by decide)).2 hde
  have hthree : (r.state 4003).lbQ = 3 := by
    refine hlbq.trans ?_
    simp only [hnew, List.getElem_replicate]
  rw [hold, hthree] at hpixel
  have hmem := List.eq_of_mem_replicate (List.mem_of_getElem? hpixel)
  exact absurd hmem (by decide)

end Wide

end TvStoreRun

end Z486.Video
