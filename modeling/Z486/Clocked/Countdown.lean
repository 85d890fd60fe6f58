/-
Two-phase countdowns. A level is held for a number of ticks that depends on the level, and then the other one; what is
left of a phase is counted down to one. The phases then follow each other for ever, with a period of the two lengths
together.
-/
import Mathlib.Logic.Function.Iterate
import Mathlib.Tactic.Common

namespace Clocked.Countdown

/-- The level, and the ticks that are left of it. -/
@[ext] structure Phase where
  level : Bool
  left : Nat

variable (len : Bool → Nat)

/-- The start of a phase. -/
def Phase.first (b : Bool) : Phase := ⟨b, len b⟩

def tick (p : Phase) : Phase := if p.left = 1 then .first len (!p.level) else ⟨p.level, p.left - 1⟩

def period : Nat := len true + len false

variable {len}

theorem period_eq (b : Bool) : period len = len b + len (!b) := by
  cases b with
  | true => rfl
  | false => exact Nat.add_comm _ _

/-- The phase in which a count stands that began with level `b`, `m` ticks into a period. -/
def within (len : Bool → Nat) (b : Bool) (m : Nat) : Phase :=
  if m < len b then ⟨b, len b - m⟩ else ⟨!b, period len - m⟩

theorem within_low {b : Bool} {m : Nat} (h : m < len b) : within len b m = ⟨b, len b - m⟩ := if_pos h

theorem within_high {b : Bool} {m : Nat} (h : len b ≤ m) : within len b m = ⟨!b, period len - m⟩ :=
  if_neg (Nat.not_lt.2 h)

theorem tick_one {p : Phase} (h : p.left = 1) : tick len p = .first len (!p.level) := if_pos h

theorem tick_more {p : Phase} (h : p.left ≠ 1) : tick len p = ⟨p.level, p.left - 1⟩ := if_neg h

theorem tick_within (b : Bool) {m : Nat} (hm : m + 1 < period len) :
    tick len (within len b m) = within len b (m + 1) := by
  have hperiod : period len = len b + len (!b) := period_eq b
  rcases Nat.lt_trichotomy (m + 1) (len b) with hlow | hmid | hhigh
  · have hleft : len b - m ≠ 1 := by omega
    rw [within_low (show m < len b by omega), within_low hlow, tick_more hleft, Nat.sub_sub]
  · have hleft : len b - m = 1 := by omega
    have hother : period len - (m + 1) = len (!b) := by omega
    rw [within_low (show m < len b by omega), within_high (Nat.le_of_eq hmid.symm), tick_one hleft, hother]
    rfl
  · have hleft : period len - m ≠ 1 := by omega
    rw [within_high (show len b ≤ m by omega), within_high (Nat.le_of_lt hhigh), tick_more hleft, Nat.sub_sub]

theorem tick_within_last (hpos : ∀ b, 0 < len b) (b : Bool) {m : Nat} (hm : m + 1 = period len) :
    tick len (within len b m) = within len b 0 := by
  have hperiod : period len = len b + len (!b) := period_eq b
  have hother := hpos (!b)
  have hleft : period len - m = 1 := by omega
  rw [within_high (show len b ≤ m by omega), within_low (hpos b), tick_one hleft, Bool.not_not]
  rfl

/-- The phases repeat with their period. -/
theorem tick_iterate (hpos : ∀ b, 0 < len b) (b : Bool) (n : Nat) :
    (tick len)^[n] (.first len b) = within len b (n % period len) := by
  have hperiod : 0 < period len := Nat.add_pos_left (hpos true) _
  induction n with
  | zero =>
    rw [Nat.zero_mod, within_low (hpos b)]
    rfl
  | succ n ih =>
    have hlt := Nat.mod_lt n hperiod
    rw [Function.iterate_succ_apply', ih]
    by_cases hlast : n % period len + 1 = period len
    · have hzero : (n + 1) % period len = 0 := by
        rw [← Nat.mod_add_mod, hlast, Nat.mod_self]
      rw [tick_within_last hpos b hlast, hzero]
    · have hnext : (n + 1) % period len = n % period len + 1 := by
        rw [← Nat.mod_add_mod, Nat.mod_eq_of_lt (show n % period len + 1 < period len by omega)]
      rw [tick_within b (by omega), hnext]

end Clocked.Countdown
