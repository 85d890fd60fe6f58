/-
The serial protocol of the Gravis GamePad Pro (src/soc/joystick.v). A frame is twenty-four bits, the header of a zero and
five ones and the buttons in groups of four with a zero before each; one button pin is the clock of a pad and the other its
data, read where the clock falls. Five ones in a row are a header wherever the buttons are pressed, so a reader that starts
anywhere finds the frames.

The reset leaves the pins high, and the first fall of the clock, before the first frame, reads a zero.
-/
import Mathlib.Tactic.IntervalCases
import Z486.Clocked.Accumulator
import Z486.Clocked.Fifo
import Z486.Gameport.Axes

namespace Z486.Gameport

open Clocked

/-! ## Frames -/

/-- The bit of a pad at a position of the frame. -/
def gripAt (dig : BitVec 14) (pos : Nat) : Bool := (Joystick.gripBit dig pos).getD false

/-- The bits that a pad sends, when `pads` are its buttons at each of them. -/
def gripBits (pads : List (BitVec 14)) : List Bool := pads.mapIdx fun k dig => gripAt dig (k % 24)

/-- The places of the buttons in a frame. -/
def gripPlaces : List Nat := [22, 23, 20, 19, 14, 13, 15, 10, 8, 7, 18, 17, 9, 12]

/-- What a reader makes of a frame. -/
def gripDecode (frame : List Bool) : List Bool := gripPlaces.map fun place => frame.getD place false

/-- A pad that is held through a frame is read as it is. -/
theorem gripDecode_frame (dig : BitVec 14) :
    gripDecode ((List.range 24).map (gripAt dig)) = (List.range 14).map dig.getLsbD := by
  rfl

theorem gripBits_getElem? (pads : List (BitVec 14)) (k : Nat) :
    (gripBits pads)[k]? = pads[k]?.map fun dig => gripAt dig (k % 24) := List.getElem?_mapIdx

/-- Five ones in a row are the header of a frame. -/
theorem header_iff (pads : List (BitVec 14)) {n : Nat} (hn : n + 5 ≤ pads.length) :
    (∀ j, j < 5 → (gripBits pads)[n + j]? = some true) ↔ n % 24 = 1 := by
  have hbit : ∀ j, j < 5 → ∃ dig, (gripBits pads)[n + j]? = some (gripAt dig ((n + j) % 24)) := by
    intro j hj
    refine ⟨pads.get ⟨n + j, by omega⟩, ?_⟩
    rw [gripBits_getElem?, List.getElem?_eq_getElem (by omega)]
    rfl
  constructor
  · intro hones
    -- any other five bits have one of the zeros among them
    by_contra hne
    have hzero : ∃ j, j < 5 ∧ ((n + j) % 24 = 0 ∨ (n + j) % 24 = 6 ∨ (n + j) % 24 = 11 ∨ (n + j) % 24 = 16 ∨
        (n + j) % 24 = 21) := by
      have hlt := Nat.mod_lt n (show 0 < 24 by decide)
      by_contra hnone
      push Not at hnone
      have h0 := hnone 0 (by decide)
      have h1 := hnone 1 (by decide)
      have h2 := hnone 2 (by decide)
      have h3 := hnone 3 (by decide)
      have h4 := hnone 4 (by decide)
      omega
    obtain ⟨j, hj, hplace⟩ := hzero
    obtain ⟨dig, hdig⟩ := hbit j hj
    rw [hones j hj] at hdig
    have hfalse : gripAt dig ((n + j) % 24) = false := by
      rcases hplace with h | h | h | h | h <;> rw [h] <;> rfl
    rw [hfalse] at hdig
    exact absurd (Option.some.inj hdig).symm Bool.false_ne_true
  · intro hhead j hj
    obtain ⟨dig, hdig⟩ := hbit j hj
    rw [hdig]
    have hplace : (n + j) % 24 = 1 + j := by omega
    rw [hplace]
    have hcases : j = 0 ∨ j = 1 ∨ j = 2 ∨ j = 3 ∨ j = 4 := by omega
    rcases hcases with rfl | rfl | rfl | rfl | rfl <;> rfl

theorem length_gripBits (pads : List (BitVec 14)) : (gripBits pads).length = pads.length := List.length_mapIdx

theorem gripBits_concat (pads : List (BitVec 14)) (dig : BitVec 14) :
    gripBits (pads ++ [dig]) = gripBits pads ++ [gripAt dig (pads.length % 24)] := List.mapIdx_concat

theorem gripBit_eq (dig : BitVec 14) {pos : Nat} (h : pos < 24) : Joystick.gripBit dig pos = some (gripAt dig pos) := by
  interval_cases pos <;> rfl

/-! ## Runs -/

/-- The game port after a reset, with the pads of the protocol plugged in. -/
structure GripRun where
  clockRate : Nat
  before : Joystick
  inputs : Nat → JoystickIn
  rate : 0 < (gravInc clockRate).toNat
  rstN : ∀ t, (inputs t).rstN = true
  mode : ∀ t, (inputs t).mode = 2

namespace GripRun

open Joystick

variable (r : GripRun)

def state : Nat → Joystick := run (fun s i => Joystick.step s i r.clockRate) r.before.reset r.inputs

/-- The buttons of a pad. -/
def dig (second : Bool) (t : Nat) : BitVec 14 := if second then (r.inputs t).dig2 else (r.inputs t).dig1

/-- The data that the port has for a pad. -/
def data (second : Bool) (t : Nat) : Bool := (r.state t).gravisOut.getLsbD second.toNat

/-- The clock and the data pin of a pad. -/
def clockPin (second : Bool) (t : Nat) : Bool := if second then (r.state t).jb3 else (r.state t).jb1

def dataPin (second : Bool) (t : Nat) : Bool := if second then (r.state t).jb4 else (r.state t).jb2

def rises (t : Nat) : Bool := (r.state t).gravisRises

/-- The buttons of a pad at each bit that was put out before clock `t`. -/
def pads (second : Bool) (t : Nat) : List (BitVec 14) := journal (fun u => if r.rises u then [r.dig second u] else []) t

/-- What is read where the clock pin falls. -/
def heard (second : Bool) (t : Nat) : List Bool :=
  journal (fun u => if r.clockPin second u && !r.clockPin second (u + 1) then [r.dataPin second (u + 1)] else []) t

theorem step_eq (t : Nat) (second : Bool) :
    r.clockPin second (t + 1) = (r.state t).gravisClk ∧ r.dataPin second (t + 1) = r.data second t ∧
      (r.state (t + 1)).gravisClk = (r.state t).clkGrav ∧
      (r.state (t + 1)).gravisPos = (if r.rises t then if (r.state t).gravisPos == 23 then 0 else (r.state t).gravisPos + 1
        else (r.state t).gravisPos) ∧
      (r.state (t + 1)).gravisOut = if r.rises t then (r.state t).gravisOutNext (r.inputs t) else (r.state t).gravisOut := by
  have hbits : ∀ b4 b3 b2 b1 : Bool,
      let x := BitVec.ofBool b4 ++ BitVec.ofBool b3 ++ BitVec.ofBool b2 ++ BitVec.ofBool b1
      x.getLsbD 0 = b1 ∧ x.getLsbD 1 = b2 ∧ x.getLsbD 2 = b3 ∧ x.getLsbD 3 = b4 := by decide
  obtain ⟨h1, h2, h3, h4⟩ := hbits ((r.state t).gravisOut.getLsbD 1) (r.state t).gravisClk
    ((r.state t).gravisOut.getLsbD 0) (r.state t).gravisClk
  have hbuttons : (r.state t).buttons (r.inputs t) =
      BitVec.ofBool ((r.state t).gravisOut.getLsbD 1) ++ BitVec.ofBool (r.state t).gravisClk ++
        BitVec.ofBool ((r.state t).gravisOut.getLsbD 0) ++ BitVec.ofBool (r.state t).gravisClk := by
    unfold buttons
    rw [r.mode t]
    rfl
  have hstate : r.state (t + 1) = (r.state t).step (r.inputs t) r.clockRate := rfl
  have hpins : (r.state (t + 1)).jb1 = ((r.state t).buttons (r.inputs t)).getLsbD 0 ∧
      (r.state (t + 1)).jb2 = ((r.state t).buttons (r.inputs t)).getLsbD 1 ∧
      (r.state (t + 1)).jb3 = ((r.state t).buttons (r.inputs t)).getLsbD 2 ∧
      (r.state (t + 1)).jb4 = ((r.state t).buttons (r.inputs t)).getLsbD 3 := by
    rw [hstate]
    unfold step
    rw [r.rstN t]
    exact ⟨rfl, rfl, rfl, rfl⟩
  rw [hbuttons, h1, h2, h3, h4] at hpins
  unfold clockPin dataPin data
  refine ⟨?_, ?_, ?_⟩
  · cases second
    · exact hpins.1
    · exact hpins.2.2.1
  · cases second
    · exact hpins.2.1
    · exact hpins.2.2.2
  · rw [hstate]
    unfold step
    rw [r.rstN t]
    exact ⟨rfl, rfl, rfl⟩

/-- Where the protocol stands: the position goes round with the bits, and the last one is on the line. -/
structure Stands (second : Bool) (t : Nat) : Prop where
  pos : (r.state t).gravisPos.toNat = (r.pads second t).length % 24
  data : (false :: gripBits (r.pads second t))[(r.pads second t).length]? = some (r.data second t)

theorem stands_step {second : Bool} {t : Nat} (h : r.Stands second t) : r.Stands second (t + 1) := by
  obtain ⟨-, -, -, hpos, hout⟩ := r.step_eq t second
  have hlt : (r.pads second t).length % 24 < 24 := Nat.mod_lt _ (by decide)
  have hplace := h.pos
  have hpads : r.pads second (t + 1) = r.pads second t ++ if r.rises t then [r.dig second t] else [] := journal_succ _ t
  cases hrises : r.rises t with
  | false =>
    rw [hrises, if_neg Bool.false_ne_true] at hpos hout hpads
    rw [List.append_nil] at hpads
    refine ⟨?_, ?_⟩
    · rw [hpos, hpads]
      exact hplace
    · rw [hpads, h.data]
      unfold GripRun.data
      rw [hout]
  | true =>
    rw [hrises, if_pos rfl] at hpos hout hpads
    refine ⟨?_, ?_⟩
    · rw [hpos, hpads, List.length_append, List.length_singleton]
      by_cases hlast : (r.state t).gravisPos = 23
      · rw [hlast] at hplace ⊢
        have hround : 23 = (r.pads second t).length % 24 := hplace
        show 0 = _
        omega
      · rw [if_neg (by simpa using hlast)]
        have hne : (r.state t).gravisPos.toNat ≠ 23 := fun heq => hlast (BitVec.eq_of_toNat_eq heq)
        rw [toNat_succ (by omega)]
        omega
    · rw [hpads, gripBits_concat, List.length_append, List.length_singleton, List.getElem?_cons_succ,
        List.getElem?_append_right (by rw [length_gripBits]), length_gripBits, Nat.sub_self]
      unfold GripRun.data
      rw [hout]
      unfold gravisOutNext
      rw [hplace, gripBit_eq _ hlt, gripBit_eq _ hlt]
      have hpair : ∀ b1 b0 : Bool, (BitVec.ofBool b1 ++ BitVec.ofBool b0).getLsbD 0 = b0 ∧
          (BitVec.ofBool b1 ++ BitVec.ofBool b0).getLsbD 1 = b1 := by decide
      cases second
      · exact congrArg some (hpair _ _).1.symm
      · exact congrArg some (hpair _ _).2.symm

theorem stands (second : Bool) (t : Nat) : r.Stands second t := by
  induction t with
  | zero =>
    refine ⟨rfl, ?_⟩
    show some false = some ((0#2).getLsbD second.toNat)
    rw [BitVec.getLsbD_zero]
  | succ t ih => exact r.stands_step ih

/-- What was heard is what was put out, with a zero before it, but for the bit whose clock has not fallen yet. -/
structure Hears (second : Bool) (t : Nat) : Prop where
  bits : r.heard second t = (false :: gripBits (r.pads second t)).take (r.heard second t).length
  length : (r.heard second t).length =
    (r.pads second t).length + if (r.state t).gravisClk || r.clockPin second t then 0 else 1

theorem hears_step {second : Bool} {t : Nat} (h : r.Hears second t) : r.Hears second (t + 1) := by
  obtain ⟨hclock, hdata, hclk, -, -⟩ := r.step_eq t second
  have hline := (r.stands second t).data
  have hpads : r.pads second (t + 1) = r.pads second t ++ if r.rises t then [r.dig second t] else [] := journal_succ _ t
  have hheard : r.heard second (t + 1) = r.heard second t ++
      if r.clockPin second t && !r.clockPin second (t + 1) then [r.dataPin second (t + 1)] else [] := journal_succ _ t
  have hrises : r.rises t = (!(r.state t).gravisClk && (r.state t).clkGrav) := rfl
  have hlength := h.length
  have hprefix : false :: gripBits (r.pads second t) <+: false :: gripBits (r.pads second (t + 1)) := by
    rw [hpads]
    split
    · rw [gripBits_concat]
      exact List.prefix_append _ _
    · rw [List.append_nil]
  -- what was heard is the same part of the longer list
  have hbefore : r.heard second t = (false :: gripBits (r.pads second (t + 1))).take (r.heard second t).length := by
    obtain ⟨rest, hrest⟩ := hprefix
    have hle : (r.heard second t).length ≤ (false :: gripBits (r.pads second t)).length := by
      have := congrArg List.length h.bits
      rw [List.length_take] at this
      omega
    rw [← hrest, List.take_append_of_le_length hle]
    exact h.bits
  cases hfall : r.clockPin second t && !r.clockPin second (t + 1) with
  | false =>
    rw [hfall, if_neg Bool.false_ne_true, List.append_nil] at hheard
    refine ⟨by rw [hheard]; exact hbefore, ?_⟩
    rw [hheard, hlength, hpads, hrises, hclk, hclock]
    rw [hclock] at hfall
    revert hfall
    cases (r.state t).gravisClk <;> cases r.clockPin second t <;> cases (r.state t).clkGrav <;> simp
  | true =>
    rw [hfall, if_pos rfl, hdata] at hheard
    rw [hclock, Bool.and_eq_true, Bool.not_eq_true'] at hfall
    rw [hfall.1, hfall.2] at hlength
    have hcount : (r.heard second t).length = (r.pads second t).length := hlength
    refine ⟨?_, ?_⟩
    · rw [hheard, List.length_append, List.length_singleton, List.take_add_one, ← hbefore, hcount]
      congr 1
      obtain ⟨rest, hrest⟩ := hprefix
      rw [← hrest, List.getElem?_append_left (by rw [List.length_cons, length_gripBits]; omega), hline]
      rfl
    · rw [hheard, List.length_append, List.length_singleton, hcount, hpads, hrises, hclk, hclock, hfall.2]
      cases (r.state t).clkGrav <;> simp

theorem hears (second : Bool) (t : Nat) : r.Hears second t := by
  induction t with
  | zero =>
    refine ⟨rfl, ?_⟩
    cases second <;> rfl
  | succ t ih => exact r.hears_step ih

/-! ## The clock of the protocol -/

theorem grav_step (t : Nat) :
    (r.state (t + 1)).phaseGrav = (phaseSum (r.state t).phaseGrav (gravInc r.clockRate)).setWidth 32 ∧
      (r.state (t + 1)).clkGravToggle = (phaseSum (r.state t).phaseGrav (gravInc r.clockRate)).getLsbD 32 ∧
      (r.state (t + 1)).clkGrav = if (r.state t).clkGravToggle then !(r.state t).clkGrav else (r.state t).clkGrav := by
  have hstate : r.state (t + 1) = (r.state t).step (r.inputs t) r.clockRate := rfl
  rw [hstate]
  unfold step
  rw [r.rstN t]
  exact ⟨rfl, rfl, rfl⟩

theorem exists_toggle (t : Nat) : ∃ u, t ≤ u ∧ (r.state u).clkGravToggle = true := by
  have hnext : ∀ u, (r.state (u + 1)).phaseGrav.toNat =
      Accumulator.next (gravInc r.clockRate).toNat (2 ^ 32) (r.state u).phaseGrav.toNat := by
    intro u
    have hsum := JoystickRun.phaseSum_eq (r.state u).phaseGrav (gravInc r.clockRate)
    have hlt := (r.state (u + 1)).phaseGrav.isLt
    rw [← (r.grav_step u).1] at hsum
    rw [Accumulator.next]
    by_cases htick : Accumulator.Ticks (gravInc r.clockRate).toNat (2 ^ 32) (r.state u).phaseGrav.toNat
    · rw [if_pos htick]
      unfold Accumulator.Ticks at htick
      split at hsum <;> omega
    · rw [if_neg htick]
      unfold Accumulator.Ticks at htick
      split at hsum <;> omega
  obtain ⟨u, hu, htick⟩ := Accumulator.exists_tick (f := fun u => (r.state u).phaseGrav.toNat) r.rate
    (fun u _ => (r.state u).phaseGrav.isLt) (fun u _ => hnext u) (Nat.zero_le t)
  refine ⟨u + 1, by omega, ?_⟩
  have hsum := JoystickRun.phaseSum_eq (r.state u).phaseGrav (gravInc r.clockRate)
  have hlt := (r.state (u + 1)).phaseGrav.isLt
  rw [← (r.grav_step u).1, ← (r.grav_step u).2.1] at hsum
  unfold Accumulator.Ticks at htick
  cases hcarry : (r.state (u + 1)).clkGravToggle with
  | true => rfl
  | false =>
    rw [hcarry, if_neg Bool.false_ne_true] at hsum
    omega

/-- The clock of the protocol rises again and again. -/
theorem exists_rises (t : Nat) : ∃ u, t ≤ u ∧ r.rises u = true := by
  have hafter : ∀ u, (r.state u).clkGravToggle = true → (r.state u).clkGrav = false → r.rises (u + 1) = true := by
    intro u htoggle hlow
    have hclk := (r.step_eq u false).2.2.1
    have hnext := (r.grav_step u).2.2
    rw [htoggle, if_pos rfl, hlow] at hnext
    unfold rises gravisRises
    rw [hclk, hnext, hlow]
    rfl
  obtain ⟨u, hu, htoggle⟩ := r.exists_toggle t
  cases hlow : (r.state u).clkGrav with
  | false => exact ⟨u + 1, by omega, hafter u htoggle hlow⟩
  | true =>
    -- the next toggle after this one finds the clock low
    obtain ⟨v, hv, hagain, hfirst⟩ := exists_first (r.exists_toggle (u + 1))
    have hstays : ∀ w, u + 1 ≤ w → w ≤ v → (r.state w).clkGrav = false := by
      intro w hw
      induction w, hw using Nat.le_induction with
      | base =>
        intro _
        rw [(r.grav_step u).2.2, htoggle, if_pos rfl, hlow]
        rfl
      | succ w hw ih =>
        intro hwv
        have hquiet := Bool.eq_false_iff.2 (hfirst w hw (by omega))
        rw [(r.grav_step w).2.2, hquiet, if_neg Bool.false_ne_true]
        exact ih (by omega)
    exact ⟨v + 1, by omega, hafter v hagain (hstays v hv (Nat.le_refl v))⟩

theorem exists_pads (second : Bool) (n : Nat) : ∃ t, n ≤ (r.pads second t).length := by
  induction n with
  | zero => exact ⟨0, Nat.zero_le _⟩
  | succ n ih =>
    obtain ⟨t, ht⟩ := ih
    obtain ⟨u, hu, hrises⟩ := r.exists_rises t
    have hmore : r.pads second (u + 1) = r.pads second u ++ if r.rises u then [r.dig second u] else [] := journal_succ _ u
    have hmono : r.pads second t <+: r.pads second u := journal_mono _ hu
    have hlength := hmono.length_le
    refine ⟨u + 1, ?_⟩
    rw [hmore, hrises, if_pos rfl, List.length_append, List.length_singleton]
    omega

/-! ## What a reader hears -/

/-- What a reader of a pad's pins finds by clock `t`. -/
structure Conveys (second : Bool) (t : Nat) : Prop where
  order : r.heard second t <+: false :: gripBits (r.pads second t)
  length : (r.pads second t).length ≤ (r.heard second t).length
  header : ∀ n, n + 5 ≤ (r.heard second t).length →
    ((∀ j, j < 5 → (r.heard second t)[n + j]? = some true) ↔ n % 24 = 2)
  frame : ∀ n dig, n % 24 = 2 → n + 23 ≤ (r.heard second t).length →
    (∀ k, n ≤ k + 2 → k < n + 22 → (r.pads second t)[k]? = some dig) →
    gripDecode (((r.heard second t).drop (n - 1)).take 24) = (List.range 14).map dig.getLsbD

/-- The pads are heard bit by bit for ever, whatever is pressed and when: five ones in a row are a header, and a pad that is
held through a frame is decoded from it. -/
theorem conveys (second : Bool) : (∀ t, r.Conveys second t) ∧ ∀ n, ∃ t, n ≤ (r.heard second t).length := by
  have hlength : ∀ t, (r.pads second t).length ≤ (r.heard second t).length := fun t => by
    have := (r.hears second t).length
    omega
  refine ⟨fun t => ?_, fun n => ?_⟩
  · have horder : r.heard second t <+: false :: gripBits (r.pads second t) := by
      rw [(r.hears second t).bits]
      exact List.take_prefix _ _
    have hheard : ∀ k, k + 1 < (r.heard second t).length →
        (r.heard second t)[k + 1]? = (gripBits (r.pads second t))[k]? := by
      intro k hk
      obtain ⟨rest, hrest⟩ := horder
      have hget := congrArg (fun l => l[k + 1]?) hrest
      rwa [List.getElem?_append_left hk, List.getElem?_cons_succ] at hget
    have hle : (r.heard second t).length ≤ (r.pads second t).length + 1 := by
      have := horder.length_le
      rwa [List.length_cons, length_gripBits] at this
    refine ⟨horder, hlength t, fun n hn => ?_, fun n dig hn hlong hheld => ?_⟩
    · rcases Nat.eq_zero_or_pos n with rfl | hpos
      · refine iff_of_false (fun hones => ?_) (by decide)
        have hfirst := hones 0 (by decide)
        obtain ⟨rest, hrest⟩ := horder
        have hget := congrArg (fun l => l[0]?) hrest
        rw [List.getElem?_append_left (by omega), hfirst] at hget
        exact absurd (Option.some.inj hget).symm Bool.false_ne_true
      · obtain ⟨m, rfl⟩ := Nat.exists_eq_add_of_le' hpos
        have hbits : (∀ j, j < 5 → (r.heard second t)[m + 1 + j]? = some true) ↔
            ∀ j, j < 5 → (gripBits (r.pads second t))[m + j]? = some true := by
          refine forall_congr' fun j => forall_congr' fun hj => ?_
          rw [show m + 1 + j = m + j + 1 by omega, hheard (m + j) (by omega)]
        rw [hbits, header_iff _ (by omega)]
        omega
    · obtain ⟨m, rfl⟩ := Nat.exists_eq_add_of_le' (show 2 ≤ n by omega)
      rw [← gripDecode_frame]
      congr 1
      refine List.ext_getElem? fun j => ?_
      rcases Nat.lt_or_ge j 24 with hj | hj
      · rw [List.getElem?_take_of_lt hj, List.getElem?_drop, show m + 2 - 1 + j = m + j + 1 by omega, hheard _ (by omega),
          gripBits_getElem?, hheld (m + j) (by omega) (by omega), List.getElem?_map, List.getElem?_range hj,
          Option.map_some, Option.map_some]
        congr 2
        omega
      · rw [List.getElem?_eq_none (by rw [List.length_take]; omega), List.getElem?_eq_none (by simpa using hj)]
  · obtain ⟨t, ht⟩ := r.exists_pads second n
    exact ⟨t, ht.trans (hlength t)⟩

/-- The buttons of the first pad change in the middle of a frame, and are then held through the next one. -/
def midFrame : GripRun where
  clockRate := 80000
  before := ⟨false, false, 0, false, 0, fun _ => 0, true, true, true, true, 0, false, false, true, false, 0, 0, 0, 0⟩
  inputs t := ⟨true, if t < 40 then 0x0001 else 0x2AC5, 0, 0, 0, 2, 2, 0, false, false⟩
  rate := by decide
  rstN _ := rfl
  mode _ := rfl

theorem midFrame_conveys : gripDecode (((midFrame.heard false 204).drop 25).take 24) =
    (List.range 14).map (BitVec.getLsbD (0x2AC5 : BitVec 14)) := by
  have hpads : midFrame.pads false 204 = List.replicate 10 0x0001 ++ List.replicate 41 0x2AC5 := by decide +kernel
  have hconveys := (midFrame.conveys false).1 204
  have hlength := hconveys.length
  rw [hpads] at hlength
  refine hconveys.frame 26 0x2AC5 rfl (le_trans (by decide) hlength) fun k hlo hhi => ?_
  rw [hpads, List.getElem?_append_right (by rw [List.length_replicate]; omega), List.length_replicate,
    List.getElem?_replicate_of_lt (by omega)]

end GripRun

end Z486.Gameport
