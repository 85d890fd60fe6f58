/-
Serial lines. A byte goes over the line in a frame of ten bit periods: a start bit, the bits of the byte from the lowest
on, and a stop bit. Between the frames the line is high. So the frames can be told from the line.
-/
import Z486.Clocked.Fifo

namespace Clocked

/-- The level of the line in period `k` of the frame of a byte. -/
def frameBit (b : BitVec 8) (k : Nat) : Bool := if k = 0 then false else if k ≤ 8 then b.getLsbD (k - 1) else true

variable {line : Nat → Bool} {p : Nat} {starts starts' : Nat → Option (BitVec 8)}

/-- The frame of a byte from clock `s` on; a bit period takes `p` clocks. -/
def Frame (line : Nat → Bool) (p s : Nat) (b : BitVec 8) : Prop :=
  ∀ k r, k < 10 → r < p → line (s + k * p + r) = frameBit b k

/-- The line has a frame from each clock in which one starts, and is high between the frames. -/
structure Serial (line : Nat → Bool) (p : Nat) (starts : Nat → Option (BitVec 8)) : Prop where
  frame : ∀ s b, starts s = some b → Frame line p s b
  apart : ∀ s u, (starts s).isSome = true → (starts u).isSome = true → s < u → s + 10 * p ≤ u
  quiet : ∀ u, line u = false → ∃ s, (starts s).isSome = true ∧ s ≤ u ∧ u < s + 10 * p

/-- The bytes of the frames that start before clock `t`. -/
def begun (starts : Nat → Option (BitVec 8)) (t : Nat) : List (BitVec 8) := journal (fun u => (starts u).toList) t

/-- The line carries the bytes of a list that grows, in order, each once, and none before it is in the list. -/
def Carries (line : Nat → Bool) (p : Nat) (bytes : Nat → List (BitVec 8)) : Prop :=
  ∃ starts, Serial line p starts ∧ (∀ t, begun starts t <+: bytes t) ∧ ∀ t, ∃ u, t ≤ u ∧ bytes t <+: begun starts u

/-! ## Reading the line -/

/-- A frame begins with the line low. -/
theorem Frame.low (hp : 0 < p) {s : Nat} {b : BitVec 8} (h : Frame line p s b) : line s = false := by
  have hstart := h 0 0 (by omega) hp
  rwa [Nat.zero_mul] at hstart

theorem frameBit_data (b : BitVec 8) {k : Nat} (hk : k < 8) : frameBit b (k + 1) = b.getLsbD k := by
  unfold frameBit
  rw [if_neg (Nat.succ_ne_zero k), if_pos (Nat.succ_le_of_lt hk), Nat.add_sub_cancel]

theorem Frame.unique (hp : 0 < p) {s : Nat} {b c : BitVec 8} (hb : Frame line p s b) (hc : Frame line p s c) : b = c := by
  refine BitVec.eq_of_getLsbD_eq fun k hk => ?_
  rw [← frameBit_data b hk, ← frameBit_data c hk, ← hb (k + 1) 0 (by omega) hp, hc (k + 1) 0 (by omega) hp]

/-- A frame that starts in one reading of the line starts in every other, when they agree before it. -/
theorem Serial.start_eq (hp : 0 < p) (h : Serial line p starts) (h' : Serial line p starts') {u : Nat}
    (hbefore : ∀ s, s < u → starts s = starts' s) {b : BitVec 8} (hu : starts u = some b) : starts' u = some b := by
  obtain ⟨s, hs, hsu, hus⟩ := h'.quiet u ((h.frame u b hu).low hp)
  -- a frame that started before would not be over
  obtain rfl : s = u := by
    rcases Nat.lt_or_eq_of_le hsu with hlt | heq
    · rw [← hbefore s hlt] at hs
      have := h.apart s u hs (by rw [hu]; rfl) hlt
      omega
    · exact heq
  obtain ⟨c, hc⟩ := Option.isSome_iff_exists.1 hs
  rw [hc, (h.frame s b hu).unique hp (h'.frame s c hc)]

/-- A line has one reading. -/
theorem Serial.unique (hp : 0 < p) (h : Serial line p starts) (h' : Serial line p starts') : starts = starts' := by
  funext u
  induction u using Nat.strong_induction_on with
  | _ u ih =>
    cases hu : starts u with
    | some b => exact (h.start_eq hp h' ih hu).symm
    | none =>
      cases hu' : starts' u with
      | none => rfl
      | some b =>
        rw [h'.start_eq hp h (fun s hs => (ih s hs).symm) hu'] at hu
        exact absurd hu nofun

end Clocked
