/-
The game port at 201h (src/soc/joystick.v): four axes whose bits stay high for a time, or for a number of reads, by the
position of the stick, four buttons, and the serial protocol of the Gravis GamePad Pro on the pins of the buttons.
-/
import Mathlib.Logic.Function.Basic
import Z486.Clocked.Bits
import Z486.Clocked.Run

namespace Z486.Gameport

/-! ## Registers and ports -/

structure Joystick where
  clkGrav : Bool
  clkGravToggle : Bool
  phaseGrav : BitVec 32
  tick1100ns : Bool
  phaseTimed : BitVec 32
  /-- `j1x`, `j1y`, `j2x` and `j2y` -/
  axis : Fin 4 → BitVec 11
  jb1 : Bool
  jb2 : Bool
  jb3 : Bool
  jb4 : Bool
  readdata : BitVec 8
  readLast : Bool
  useDpad1 : Bool
  useDpad2 : Bool
  gravisClk : Bool
  gravisOut : BitVec 2
  gravisPos : BitVec 5
  mapLeft : BitVec 3
  mapAxis : BitVec 2

structure JoystickIn where
  rstN : Bool
  dig1 : BitVec 14
  dig2 : BitVec 14
  ana1 : BitVec 16
  ana2 : BitVec 16
  mode : BitVec 3
  timed : BitVec 2
  dis : BitVec 2
  read : Bool
  write : Bool
deriving DecidableEq, Repr

/-- The rates of the two phase accumulators, for a clock of `clockRate` Hz. -/
def gravInc (clockRate : Nat) : BitVec 32 := BitVec.ofNat 32 (((40000 <<< 32) + clockRate / 2) / clockRate)

def timedInc (clockRate : Nat) : BitVec 32 := BitVec.ofNat 32 (((909091 <<< 32) + clockRate / 2) / clockRate)

/-! ## Buttons -/

namespace JoystickIn

/-- The bits of `dig_1` and `dig_2`. -/
def right (dig : BitVec 14) : Bool := dig.getLsbD 0
def left (dig : BitVec 14) : Bool := dig.getLsbD 1
def down (dig : BitVec 14) : Bool := dig.getLsbD 2
def up (dig : BitVec 14) : Bool := dig.getLsbD 3
def but1 (dig : BitVec 14) : Bool := dig.getLsbD 4
def but2 (dig : BitVec 14) : Bool := dig.getLsbD 5
def but3 (dig : BitVec 14) : Bool := dig.getLsbD 6
def but4 (dig : BitVec 14) : Bool := dig.getLsbD 7
def start (dig : BitVec 14) : Bool := dig.getLsbD 8
def sel (dig : BitVec 14) : Bool := dig.getLsbD 9
def r1 (dig : BitVec 14) : Bool := dig.getLsbD 10
def l1 (dig : BitVec 14) : Bool := dig.getLsbD 11
def r2 (dig : BitVec 14) : Bool := dig.getLsbD 12
def l2 (dig : BitVec 14) : Bool := dig.getLsbD 13

variable (i : JoystickIn)

/-- An axis is away from its centre, by more than the threshold. -/
def anaActivity (ana : BitVec 16) : Bool :=
  (ana.extractLsb' 0 8).slt (-60) || BitVec.slt 60 (ana.extractLsb' 0 8) ||
    (ana.extractLsb' 8 8).slt (-60) || BitVec.slt 60 (ana.extractLsb' 8 8)

def disJb3Jb4 : Bool := i.dis.getLsbD 1 && !((i.mode == 1 || i.mode == 4 || i.mode == 5) && i.dis == 0b10)

/-- The mask of a disabled stick. -/
def disMask : BitVec 8 :=
  BitVec.ofBool i.disJb3Jb4 ++ BitVec.ofBool i.disJb3Jb4 ++ BitVec.ofBool (i.dis.getLsbD 0) ++
    BitVec.ofBool (i.dis.getLsbD 0) ++ BitVec.ofBool (i.dis.getLsbD 1) ++ BitVec.ofBool (i.dis.getLsbD 1) ++
    BitVec.ofBool (i.dis.getLsbD 0) ++ BitVec.ofBool (i.dis.getLsbD 0)

/-- `{jb4, jb3, jb2, jb1}` of the CH Flightstick Pro, whose hat is a combination of the buttons. -/
def flightstick : BitVec 4 :=
  if up i.dig1 then 0b0000
  else if right i.dig1 then 0b0100
  else if down i.dig1 then 0b1000
  else if left i.dig1 then 0b1100
  else if but1 i.dig1 then 0b1110
  else if but2 i.dig1 then 0b1101
  else if but3 i.dig1 then 0b1011
  else if but4 i.dig1 then 0b0111
  else 0b1111

end JoystickIn

namespace Joystick

open JoystickIn

variable (s : Joystick) (i : JoystickIn)

/-! ## Axes -/

/-- A signed position as an unsigned one. -/
def unsigned (ana : BitVec 8) : BitVec 8 := ana ^^^ 0x80

/-- One direction of a pad, or the other, or the centre. -/
def padPos (low high : Bool) : BitVec 8 := if low then 0 else if high then 255 else 128

/-- The hat of the Thrustmaster FCS. -/
def hatPos (dig : BitVec 14) : BitVec 8 :=
  if up dig then 1 else if right dig then 51 else if down dig then 102 else if left dig then 153 else 209

/-- `axis_pos`, of the axis that is mapped. -/
def axisPos (k : Fin 4) : BitVec 8 :=
  match k with
  | 0 => if !s.useDpad1 then unsigned (i.ana1.extractLsb' 0 8) else padPos (left i.dig1) (right i.dig1)
  | 1 => if !s.useDpad1 then unsigned (i.ana1.extractLsb' 8 8) else padPos (up i.dig1) (down i.dig1)
  | 2 => if !s.useDpad2 then unsigned (i.ana2.extractLsb' 0 8) else padPos (left i.dig2) (right i.dig2)
  | 3 => if i.mode == 5 then hatPos i.dig1
    else if !s.useDpad2 then unsigned (i.ana2.extractLsb' 8 8) else padPos (up i.dig2) (down i.dig2)

/-- `axis_count`, the start of the countdown. -/
def axisCount (timed : BitVec 2) (pos : BitVec 8) : BitVec 11 :=
  let p : BitVec 11 := pos.setWidth 11
  let resistance : BitVec 11 := if pos == 255 then 1000 else (p <<< 2) - (p >>> 4) - (p >>> 6) - (p >>> 8)
  match timed.toNat with
  | 0 => 22 + resistance
  | 1 => 8 + (p >>> 1) + (p >>> 4) - (p >>> 7) - (p >>> 7)
  | 2 => p
  | _ => 6 + p

def mapsAxis : Fin 4 := ⟨s.mapAxis.toNat, s.mapAxis.isLt⟩

/-- The countdowns after a write, or after the mapping of one of them. -/
def mapped : Fin 4 → BitVec 11 :=
  if i.write then fun _ => 0x7ff
  else if s.mapLeft != 0 then Function.update s.axis s.mapsAxis (axisCount i.timed (s.axisPos i s.mapsAxis))
  else s.axis

/-- What the countdowns go by: the tick, or the end of a read. -/
def counts : Bool := if i.timed == 0 then s.tick1100ns else s.readLast && !i.read

/-! ## The serial protocol -/

/-- A rising edge of the protocol's clock. -/
def gravisRises : Bool := !s.gravisClk && s.clkGrav

/-- The bit that a player's pad sends at a position of the frame. -/
def gripBit (dig : BitVec 14) (pos : Nat) : Option Bool :=
  match pos with
  | 0 | 6 | 11 | 16 | 21 => some false
  | 1 | 2 | 3 | 4 | 5 => some true
  | 7 => some (sel dig)
  | 8 => some (start dig)
  | 9 => some (r2 dig)
  | 10 => some (but4 dig)
  | 12 => some (l2 dig)
  | 13 => some (but2 dig)
  | 14 => some (but1 dig)
  | 15 => some (but3 dig)
  | 17 => some (l1 dig)
  | 18 => some (r1 dig)
  | 19 => some (up dig)
  | 20 => some (down dig)
  | 22 => some (right dig)
  | 23 => some (left dig)
  | _ => none

/-- `gravis_out`, in which the first player has the low bit. -/
def gravisOutNext : BitVec 2 :=
  match gripBit i.dig1 s.gravisPos.toNat, gripBit i.dig2 s.gravisPos.toNat with
  | some first, some second => BitVec.ofBool second ++ BitVec.ofBool first
  | _, _ => s.gravisOut

/-! ## A clock -/

/-- `{jb4, jb3, jb2, jb1}` -/
def buttons : BitVec 4 :=
  if i.mode == 2 then
    BitVec.ofBool (s.gravisOut.getLsbD 1) ++ BitVec.ofBool s.gravisClk ++ BitVec.ofBool (s.gravisOut.getLsbD 0) ++
      BitVec.ofBool s.gravisClk
  else if i.mode == 4 then i.flightstick
  else
    let four := i.mode == 1 || i.mode == 5
    BitVec.ofBool (!if four then but4 i.dig1 else but2 i.dig2) ++
      BitVec.ofBool (!if four then but3 i.dig1 else but1 i.dig2) ++ BitVec.ofBool (!but2 i.dig1) ++
      BitVec.ofBool (!but1 i.dig1)

def useDpadNext (use : Bool) (ana : BitVec 16) (dig : BitVec 14) : Bool :=
  if i.mode == 4 || i.mode == 5 then false
  else if anaActivity ana then false
  else if dig.extractLsb' 0 4 != 0 then true
  else use

/-- The pins as they are read: buttons and axes. -/
def pins : BitVec 8 :=
  BitVec.ofBool s.jb4 ++ BitVec.ofBool s.jb3 ++ BitVec.ofBool s.jb2 ++ BitVec.ofBool s.jb1 ++
    BitVec.ofBool (s.axis 3 != 0) ++ BitVec.ofBool (s.axis 2 != 0) ++ BitVec.ofBool (s.axis 1 != 0) ++
    BitVec.ofBool (s.axis 0 != 0)

/-- A sum of a phase accumulator: the carry is the tick. -/
def phaseSum (phase inc : BitVec 32) : BitVec 33 := phase.setWidth 33 + inc.setWidth 33

/-- The registers in and after a reset. -/
def reset (n : Joystick) : Joystick :=
  { n with
    axis := fun _ => 128
    jb1 := true, jb2 := true, jb3 := true, jb4 := true
    useDpad1 := true, useDpad2 := true
    gravisClk := false, gravisOut := 0, gravisPos := 0
    mapLeft := 0, mapAxis := 0 }

def step (clockRate : Nat) : Joystick :=
  let sumGrav := phaseSum s.phaseGrav (gravInc clockRate)
  let sumTimed := if i.write then 0 else phaseSum s.phaseTimed (timedInc clockRate)
  let n : Joystick :=
    { s with
      clkGravToggle := sumGrav.getLsbD 32
      phaseGrav := sumGrav.setWidth 32
      clkGrav := if s.clkGravToggle then !s.clkGrav else s.clkGrav
      tick1100ns := sumTimed.getLsbD 32
      phaseTimed := sumTimed.setWidth 32
      readdata := if i.mode == 3 then 0xff else s.pins ||| i.disMask }
  if !i.rstN then n.reset
  else
    { n with
      jb1 := (s.buttons i).getLsbD 0
      jb2 := (s.buttons i).getLsbD 1
      jb3 := (s.buttons i).getLsbD 2
      jb4 := (s.buttons i).getLsbD 3
      gravisClk := s.clkGrav
      gravisPos := if s.gravisRises then if s.gravisPos == 23 then 0 else s.gravisPos + 1 else s.gravisPos
      gravisOut := if s.gravisRises then s.gravisOutNext i else s.gravisOut
      useDpad1 := useDpadNext i s.useDpad1 i.ana1 i.dig1
      useDpad2 := useDpadNext i s.useDpad2 i.ana2 i.dig2
      mapLeft := if i.write then 4 else if s.mapLeft != 0 then s.mapLeft - 1 else s.mapLeft
      mapAxis := if i.write then 0 else if s.mapLeft != 0 then s.mapAxis + 1 else s.mapAxis
      readLast := i.read
      axis := fun k => if s.counts i && s.axis k != 0 then s.axis k - 1 else s.mapped i k }

end Joystick

end Z486.Gameport
