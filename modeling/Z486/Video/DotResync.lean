/-
The buffer that re-times a raster from the renderer's clock to the dot clock. The renderer writes a dot
at every dot enable of its clock, the dot clock reads one in every cycle, and each side knows the
other's pointer only as a Gray code two registers of its own behind. A pointer is seven bits for
sixty-four entries; the read side recentres itself sixteen entries behind the writer whenever it is
held, has run empty or is nearly full.

A step of the model is a moment with an edge of the write clock, of the read clock or of both. Edges
that come close together are one moment: a pointer that moves in it is seen by the other side with each
changing bit as it was or as it becomes, and the memory gives any word for an entry being written.
-/
import Z486.Clocked.Gray
import Z486.Clocked.Fifo
import Z486.Clocked.Run

namespace Z486.Video

open Clocked (mix)

/-! ## Registers -/

/-- An entry of the memory: the marker of a pixel's first dot, above the dot's data. -/
structure Dot (width : Nat) where
  pix : Bool
  data : BitVec width
deriving DecidableEq, Repr

/-- The registers of the write clock. -/
structure WriteSide where
  wptr : BitVec 7
  wptrG : BitVec 7
  rptrGW1 : BitVec 7
  rptrGW2 : BitVec 7
deriving DecidableEq, Repr

/-- The registers of the read clock. -/
structure ReadSide (width : Nat) where
  rptr : BitVec 7
  rptrG : BitVec 7
  wptrGR1 : BitVec 7
  wptrGR2 : BitVec 7
  rdataQ : Dot width
  popQ : Bool
  holdR1 : Bool
  holdR2 : Bool
  running : Bool
  resyncs : BitVec 8
deriving DecidableEq, Repr

structure DotResync (width : Nat) where
  mem : BitVec 6 → Dot width
  w : WriteSide
  r : ReadSide width

/-- What a moment brings: which clocks have an edge, the inputs at it, and what chance decides where
the two sides move together: the bits of the other side's pointer that are seen new, and what the
memory gives for an entry that is being written. -/
structure DotEdge (width : Nat) where
  wclk : Bool
  rclk : Bool
  wce : Bool
  wpix : Bool
  wdata : BitVec width
  hold : Bool
  rptrSeen : BitVec 7
  wptrSeen : BitVec 7
  clash : Dot width
deriving DecidableEq, Repr

/-! ## Gray codes -/

def bin2gray (b : BitVec 7) : BitVec 7 := b ^^^ (b >>> 1)

/-- The loop of `gray2bin`: bits `i - 1` down to 0, each from the bit above it. -/
def gray2binFrom (g : BitVec 7) : Nat → BitVec 7 → BitVec 7
  | 0, b => b
  | i + 1, b => gray2binFrom g i (b ||| (BitVec.ofBool (b.getLsbD (i + 1) ^^ g.getLsbD i)).setWidth 7 <<< i)

def gray2bin (g : BitVec 7) : BitVec 7 :=
  gray2binFrom g 6 ((BitVec.ofBool (g.getLsbD 6)).setWidth 7 <<< 6)

theorem gray2bin_bin2gray (b : BitVec 7) : gray2bin (bin2gray b) = b := by
  revert b
  decide

/-- A pointer that counts up is seen by the other side before or after the count. -/
theorem mix_bin2gray (mask b : BitVec 7) :
    mix mask (bin2gray b) (bin2gray (b + 1)) = bin2gray b ∨
      mix mask (bin2gray b) (bin2gray (b + 1)) = bin2gray (b + 1) :=
  Clocked.mix_gray_succ mask b

/-! ## The write side -/

namespace WriteSide

variable (w : WriteSide)

def rptrW : BitVec 7 := gray2bin w.rptrGW2
def wocc : BitVec 7 := w.wptr - w.rptrW
def wfull : Bool := 60 ≤ w.wocc
def wen (wce : Bool) : Bool := wce && !w.wfull
def wptrN : BitVec 7 := w.wptr + 1

/-- An edge of the write clock; `rptrG` is what is seen of the read pointer. -/
def edge (wce : Bool) (rptrG : BitVec 7) : WriteSide :=
  let w' := { w with rptrGW1 := rptrG, rptrGW2 := w.rptrGW1 }
  if w.wen wce then { w' with wptr := w.wptrN, wptrG := bin2gray w.wptrN } else w'

/-- The write pointer's code after an edge. -/
def wptrGAfter (wce : Bool) : BitVec 7 := (w.edge wce w.rptrGW1).wptrG

end WriteSide

/-! ## The read side -/

namespace ReadSide

variable {width : Nat} (r : ReadSide width)

def wptrR : BitVec 7 := gray2bin r.wptrGR2
def occ : BitVec 7 := r.wptrR - r.rptr
def rptrN : BitVec 7 := r.rptr + 1

/-- The middle: sixteen entries behind the writer. -/
def rptrC : BitVec 7 := r.wptrR - 16

def rdata : BitVec width := r.rdataQ.data
def rce : Bool := r.popQ && r.rdataQ.pix

/-- An edge of the read clock; `wptrG` is what is seen of the write pointer, `entry` what the memory
gives. -/
def edge (wptrG : BitVec 7) (hold : Bool) (entry : Dot width) : ReadSide width :=
  let r' := { r with
    wptrGR1 := wptrG, wptrGR2 := r.wptrGR1, holdR1 := hold, holdR2 := r.holdR1, rdataQ := entry, popQ := false }
  if !r.running || r.holdR2 then
    -- back behind the writer when overfull, wait when underfull
    if 20 < r.occ then { r' with running := false, rptr := r.rptrC, rptrG := bin2gray r.rptrC }
    else if 12 ≤ r.occ && !r.holdR2 then { r' with running := true }
    else { r' with running := false }
  else if r.occ = 0 || 56 ≤ r.occ then { r' with running := false, resyncs := r.resyncs + 1 }
  else { r' with rptr := r.rptrN, rptrG := bin2gray r.rptrN, popQ := true }

/-- An entry goes out at an edge: the last branch of `edge`. -/
def pops : Bool := r.running && !r.holdR2 && !(r.occ = 0 || 56 ≤ r.occ)

/-- The read pointer's code after an edge. -/
def rptrGAfter : BitVec 7 := (r.edge r.wptrGR1 r.holdR1 r.rdataQ).rptrG

end ReadSide

/-! ## A moment -/

namespace DotResync

variable {width : Nat} (s : DotResync width) (i : DotEdge width)

/-- A dot is accepted into the buffer. -/
def accepts : Bool := i.wclk && s.w.wen i.wce

/-- The dots accepted in a moment. -/
def accepted : List (Dot width) := if s.accepts i then [⟨i.wpix, i.wdata⟩] else []

def wslot : BitVec 6 := s.w.wptr.setWidth 6
def rslot : BitVec 6 := s.r.rptr.setWidth 6

/-- What the memory gives at the read pointer. -/
def fetched : Dot width := if s.accepts i && s.wslot == s.rslot then i.clash else s.mem s.rslot

/-- The other side's pointer as the write side sees it. -/
def rptrGSeen : BitVec 7 := mix i.rptrSeen s.r.rptrG (if i.rclk then s.r.rptrGAfter else s.r.rptrG)

/-- The other side's pointer as the read side sees it. -/
def wptrGSeen : BitVec 7 := mix i.wptrSeen s.w.wptrG (if i.wclk then s.w.wptrGAfter i.wce else s.w.wptrG)

def step : DotResync width where
  mem := if s.accepts i then Function.update s.mem s.wslot ⟨i.wpix, i.wdata⟩ else s.mem
  w := if i.wclk then s.w.edge i.wce (s.rptrGSeen i) else s.w
  r := if i.rclk then s.r.edge (s.wptrGSeen i) i.hold (s.fetched i) else s.r

/-- Before the first edge; what the memory and its output register hold is unknown. -/
def powerUp (mem : BitVec 6 → Dot width) (rdataQ : Dot width) : DotResync width where
  mem := mem
  w := { wptr := 0, wptrG := 0, rptrGW1 := 0, rptrGW2 := 0 }
  r := { rptr := 0, rptrG := 0, wptrGR1 := 0, wptrGR2 := 0, rdataQ := rdataQ, popQ := false, holdR1 := false,
         holdR2 := false, running := false, resyncs := 0 }

end DotResync

/-! ## Runs -/

/-- The two clocks from power-up on, with any edges and any inputs at them. -/
structure DotRun (width : Nat) where
  mem : BitVec 6 → Dot width
  rdataQ : Dot width
  edges : Nat → DotEdge width

namespace DotRun

variable {width : Nat} (r : DotRun width)

/-- The registers before moment `t`. -/
def state : Nat → DotResync width := Clocked.run DotResync.step (DotResync.powerUp r.mem r.rdataQ) r.edges

/-- The entries accepted before moment `t`. -/
def entries (t : Nat) : List (Dot width) := Clocked.journal (fun u => (r.state u).accepted (r.edges u)) t

/-- How far the read pointer has moved before moment `t`, counted on past the turn of its seven bits. -/
def position : Nat → Nat
  | 0 => 0
  | t + 1 => position t + ((r.state (t + 1)).r.rptr - (r.state t).r.rptr).toNat

/-- An entry is popped in moment `t`. -/
def pops (t : Nat) : Bool := (r.edges t).rclk && (r.state t).r.pops

/-- The entries popped in the `n` moments from `t` on, as they come out. -/
def popped (t n : Nat) : List (Dot width) :=
  Clocked.journal (fun k => if r.pops (t + k) then [(r.state (t + k + 1)).r.rdataQ] else []) n

theorem state_succ (t : Nat) : r.state (t + 1) = (r.state t).step (r.edges t) :=
  Clocked.run_succ _ _ _ _

theorem entries_succ (t : Nat) : r.entries (t + 1) = r.entries t ++ (r.state t).accepted (r.edges t) :=
  Clocked.journal_succ _ _

end DotRun

end Z486.Video
