/-
The DDR3 arbiter (src/system.sv) after boot: the line fetcher has the port while it owns it, then the
GUS sample memory, then `main_memory`. DDR3 takes a command when it is not busy and answers the reads
it took in order, after any latency. The model marks each beat with the master whose read it belongs
to; the arbiter does not see the marks.
-/
import Z486.Clocked.Fifo
import Z486.Clocked.Run
import Z486.Ddr3.Masters
import Z486.Memory.Ddram
import Z486.Memory.MainMemory

namespace Z486.Ddr3

open Clocked Memory

/-! ## The system -/

inductive Master
  | fetcher
  | gus
  | mainMemory
  deriving DecidableEq, Repr

inductive DdrCommand
  | read (addr : BitVec 29) (burstcnt : BitVec 8)
  | write (addr : BitVec 29) (din : BitVec 64) (be : BitVec 8)
  deriving DecidableEq

/-- A beat DDR3 has to return, and the master that asked for it. -/
structure Beat where
  master : Option Master
  data : BitVec 64

/-- The three masters, the arbiter's register, and DDR3. -/
structure Ddr3System where
  lf : LineFetcher
  gus : GusDdr
  mm : MainMemory
  mmRdPending : Bool
  mem : Bytes
  queue : List Beat

/-- One clock: the enables, what the masters are asked for, and what DDR3 does. -/
structure Ddr3In where
  enable : Bool
  gusOn : Bool
  fetch : FetchReq
  gusReq : GusReq
  ports : MainMemoryIn
  ddramBusy : Bool
  answers : Bool

/-- The words a command reads. -/
def DdrCommand.beats (mem : Bytes) : DdrCommand → List (BitVec 64)
  | .read addr burstcnt => (List.range burstcnt.toNat).map fun k => readWord mem (addr + BitVec.ofNat 29 k)
  | .write _ _ _ => []

def DdrCommand.applied (mem : Bytes) : DdrCommand → Bytes
  | .read _ _ => mem
  | .write addr din be => writeWord mem addr be din

namespace Ddr3System

variable (s : Ddr3System) (i : Ddr3In)

/-! ### The arbiter's wires -/

def mmActive : Bool := s.mm.fbDdramWe || s.mm.fbDdramRd || s.mmRdPending

def mmBusyIn : Bool := i.ddramBusy || s.lf.owner || s.gus.active

def lfBusy : Bool := i.ddramBusy || ((s.mmActive || s.gus.active) && !s.lf.owner)

def gusBusy : Bool := i.ddramBusy || s.lf.owner

def gusStartOk : Bool := !s.lf.owner && !s.mmActive

def ddramBurstcnt : BitVec 8 := if s.lf.owner then s.lf.ddrBurstcnt else 1

def ddramAddr : BitVec 29 :=
  if s.lf.owner then s.lf.ddrAddr else if s.gus.active then s.gus.ddrAddr else s.mm.fbDdramAddr

def ddramRd : Bool := if s.lf.owner then s.lf.ddrRd else if s.gus.active then s.gus.ddrRd else s.mm.fbDdramRd

def ddramDin : BitVec 64 := if s.gus.active then s.gus.ddrDin else s.mm.fbDdramDin

def ddramBe : BitVec 8 := if s.gus.active then s.gus.ddrBe else s.mm.fbDdramBe

def ddramWe : Bool := !s.lf.owner && (if s.gus.active then s.gus.ddrWe else s.mm.fbDdramWe)

/-! ### The port and the masters -/

/-- The command DDR3 takes in this clock. -/
def accepted : Option DdrCommand :=
  if i.ddramBusy then none
  else if s.ddramRd then some (.read s.ddramAddr s.ddramBurstcnt)
  else if s.ddramWe then some (.write s.ddramAddr s.ddramDin s.ddramBe)
  else none

/-- The command a master holds. -/
def request : Master → Option DdrCommand
  | .fetcher => if s.lf.ddrRd then some (.read s.lf.ddrAddr s.lf.ddrBurstcnt) else none
  | .gus =>
    if s.gus.ddrRd then some (.read s.gus.ddrAddr 1)
    else if s.gus.ddrWe then some (.write s.gus.ddrAddr s.gus.ddrDin s.gus.ddrBe) else none
  | .mainMemory =>
    if s.mm.fbDdramRd then some (.read s.mm.fbDdramAddr 1)
    else if s.mm.fbDdramWe then some (.write s.mm.fbDdramAddr s.mm.fbDdramDin s.mm.fbDdramBe) else none

/-- The busy input of a master. -/
def busy : Master → Bool
  | .fetcher => s.lfBusy i
  | .gus => s.gusBusy i
  | .mainMemory => s.mmBusyIn i

/-- The command a master takes for accepted in this clock: it goes on at this edge. -/
def issued (m : Master) : Option DdrCommand := if s.busy i m then none else s.request m

/-- The master that takes its command for accepted. -/
def issuer : Option Master :=
  if (s.issued i .fetcher).isSome then some .fetcher
  else if (s.issued i .gus).isSome then some .gus
  else if (s.issued i .mainMemory).isSome then some .mainMemory
  else none

/-- The beat DDR3 returns in this clock. -/
def returned : Option Beat := fifoOut s.queue i.answers

def doutReady : Bool := (s.returned i).isSome

def dout : BitVec 64 := ((s.returned i).map Beat.data).getD 0

/-- The beat a master takes in this clock. -/
def taken : Master → Option (BitVec 64)
  | .fetcher => if s.doutReady i && s.lf.owner && s.lf.state == .data then some (s.dout i) else none
  | .gus => if s.doutReady i && !s.lf.owner && s.gus.state == .rdw then some (s.dout i) else none
  | .mainMemory =>
    if s.doutReady i && !s.lf.owner && !s.gus.active && s.mm.state == .fbReadWait then some (s.dout i) else none

/-! ### One clock -/

def mmIn : MainMemoryIn :=
  { i.ports with
    fbDdramDout := s.dout i
    fbDdramDoutReady := s.doutReady i && !s.lf.owner && !s.gus.active
    fbDdramBusy := s.mmBusyIn i }

/-- The beats that the clock adds to those DDR3 has to return. -/
def pushed : List Beat :=
  match s.accepted i with
  | some c => (c.beats s.mem).map (Beat.mk (s.issuer i))
  | none => []

def step : Ddr3System where
  lf := s.lf.step i.fetch (s.lfBusy i) (s.doutReady i && s.lf.owner) (s.dout i) i.enable
  gus := s.gus.step i.gusReq s.gusStartOk (s.gusBusy i) (s.doutReady i && !s.lf.owner) (s.dout i) i.gusOn
  mm := s.mm.step true (s.mmIn i)
  mmRdPending :=
    if i.ports.reset then false
    else if s.mm.fbDdramRd && !s.lf.owner && !s.gus.active && !i.ddramBusy then true
    else if s.doutReady i && !s.lf.owner && !s.gus.active then false
    else s.mmRdPending
  mem :=
    match s.accepted i with
    | some c => c.applied s.mem
    | none => s.mem
  queue := fifoStep s.queue i.answers (s.pushed i)

/-- A master is turned off in a clock after which DDR3 still has beats for it. -/
def dropsInFlight : Bool :=
  (!i.enable && ((s.issued i .fetcher).isSome ||
    s.lf.state == .data && !(s.doutReady i && s.lf.burstLeft == 1))) ||
  (!i.gusOn && (s.gus.state == .rd && !s.gusBusy i || s.gus.state == .rdw && !(s.doutReady i && !s.lf.owner)))

end Ddr3System

end Z486.Ddr3
