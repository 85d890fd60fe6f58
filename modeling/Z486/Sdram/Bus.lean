/-
The commands of the SDRAM controller on the pins, as a chip of the strapped geometry reads them.
-/
import Z486.Sdram.Controller

namespace Z486.Sdram

/-- What the pins say; `ap` closes the row after a column command. -/
inductive BusCmd
  | nop
  | activate (chip : Bool) (bank : BitVec 2) (row : BitVec 13)
  | read (chip : Bool) (bank : BitVec 2) (col : BitVec 10) (ap : Bool)
  | write (chip : Bool) (bank : BitVec 2) (col : BitVec 10) (ap : Bool)
  | refresh (chip : Bool)
  | preCharge (chip : Bool) (all : Bool)
  | setMode (chip : Bool)
  deriving DecidableEq, Repr

/-- The column address a chip takes from the pins. -/
def pinColumn (large : Bool) (a : BitVec 13) : BitVec 10 := if large then a.extractLsb' 0 10 else 0#1 ++ a.extractLsb' 0 9

def Controller.bus (p : SdramParams) (s : Controller) : BusCmd :=
  match s.cmd with
  | .nop => .nop
  | .bankActivate => .activate s.nCs s.ba s.a
  | .read => .read s.nCs s.ba (pinColumn p.large s.a) (s.a.getLsbD 10)
  | .write => .write s.nCs s.ba (pinColumn p.large s.a) (s.a.getLsbD 10)
  | .autoRefresh => .refresh s.nCs
  | .preCharge => .preCharge s.nCs (s.a.getLsbD 10)
  | .setModeReg => .setMode s.nCs

/-- The column a chip sees, of a 16-bit column of the controller. -/
def chipColumn (large : Bool) (col16 : BitVec 10) : BitVec 10 := if large then col16 else 0#1 ++ col16.extractLsb' 0 9

theorem pinColumn_columnPins (large ap : Bool) (col16 : BitVec 10) :
    pinColumn large (columnPins large ap col16) = chipColumn large col16 := by
  unfold pinColumn columnPins chipColumn
  cases large
  · exact congrArg (0#1 ++ ·) BitVec.extractLsb'_append_eq_right
  · exact BitVec.extractLsb'_append_eq_right

theorem getLsbD_append_left {n m : Nat} (x : BitVec n) (y : BitVec m) (j : Nat) :
    (x ++ y).getLsbD (m + j) = x.getLsbD j := by
  simp [BitVec.getLsbD_append]

theorem ap_bits : ∀ ap : Bool, (0#2 ++ BitVec.ofBool ap ++ 0#1).getLsbD 1 = ap ∧
    (0#2 ++ BitVec.ofBool ap).getLsbD 0 = ap := by decide

theorem columnPins_ap (large ap : Bool) (col16 : BitVec 10) : (columnPins large ap col16).getLsbD 10 = ap := by
  unfold columnPins
  cases large
  · exact (getLsbD_append_left (0#2 ++ BitVec.ofBool ap ++ 0#1) (col16.extractLsb' 0 9) 1).trans (ap_bits ap).1
  · exact (getLsbD_append_left (0#2 ++ BitVec.ofBool ap) col16 0).trans (ap_bits ap).2

end Z486.Sdram
