/-
The data port of the primary IDE channel as the system wires it (src/system.sv): the adapter of the I/O bus, the
registered device selects, and the flag that keeps the read strobe up while the guest is ahead of the host.
-/
import Z486.IoBus.Adapter
import Z486.Disk.Ide
import Z486.Clocked.Run

namespace Z486.Disk

open IoBus (Adapter AdapterState CpuIo Peripheral)

/-! ## The wiring -/

structure IdePort where
  adapter : Adapter
  ide0Cs : Bool
  ide1Cs : Bool
  ide0Wait : Bool
  ide1Wait : Bool
  ide0 : Ide

/-- The inputs of a clock: the CPU, the host, the secondary channel and the other peripherals. -/
structure IdePortIn where
  rstN : Bool
  ide0ResetN : Bool
  cpu : CpuIo
  mgmt : IdeMgmt
  ide1Nodata : Bool
  ide1Readdata : BitVec 32
  otherReaddata : BitVec 8
  ioWait : Bool
deriving DecidableEq, Repr

/-- The select of the primary channel, and that of the secondary one. -/
def ide0Select (a : BitVec 16) : Bool := a.extractLsb' 3 13 ++ 0#3 == 0x01F0 || a == 0x03F6

def ide1Select (a : BitVec 16) : Bool := a.extractLsb' 3 13 ++ 0#3 == 0x0170 || a == 0x0376

namespace IdePort

variable (s : IdePort) (i : IdePortIn)

def ide0Nodata : Bool := s.ide0.noData

def ide0Wide : Bool := s.adapter.ideRead || s.adapter.ideWrite || s.ide0Wait

/-- The guest's side of the primary channel: the wide cycles, or those of a byte. -/
def ide0Io : IdeIo where
  ioAddress :=
    if s.ide0Wide then s.adapter.ideAddress
    else s.adapter.ioAddress.extractLsb' 9 1 ++ s.adapter.ioAddress.extractLsb' 0 3
  ioRead := (s.adapter.ioRead && s.ide0Cs) || (s.adapter.ideRead && s.ide0Cs) || s.ide0Wait
  ioWrite := (s.adapter.ioWrite && s.ide0Cs) || (s.adapter.ideWrite && s.ide0Cs)
  ioWritedata := if s.ide0Wide then s.adapter.ideWritedata else s.adapter.ioWritedata.setWidth 32
  io32 := s.ide0Wide && s.adapter.ide32
  useFast := true

def ideHold : Bool :=
  s.ide0Wait || s.ide1Wait ||
    (s.adapter.ideRead && ((s.ide0Cs && s.ide0Nodata) || (s.ide1Cs && i.ide1Nodata)))

def ideReaddata : BitVec 32 := if s.ide0Cs then s.ide0.ioReaddata else i.ide1Readdata

def peripheral : Peripheral where
  ioReaddata := if s.ide0Cs || s.ide1Cs then (s.ideReaddata i).extractLsb' 0 8 else i.otherReaddata
  ioWait := i.ioWait
  ideReaddata := s.ideReaddata i
  ideHold := s.ideHold i

/-- The flag of a channel that holds its read strobe. -/
def waitNext (wait cs nodata : Bool) : Bool :=
  if !nodata then false
  else if s.adapter.ideRead && cs && nodata && s.adapter.ideAddress == 0 then true
  else wait

def step : IdePort where
  adapter := s.adapter.step i.cpu (s.peripheral i) i.rstN
  ide0Cs := if s.adapter.ioAddressLoad i.cpu then ide0Select (s.adapter.ioAddressNext i.cpu) else s.ide0Cs
  ide1Cs := if s.adapter.ioAddressLoad i.cpu then ide1Select (s.adapter.ioAddressNext i.cpu) else s.ide1Cs
  ide0Wait := s.waitNext s.ide0Wait s.ide0Cs s.ide0Nodata
  ide1Wait := s.waitNext s.ide1Wait s.ide1Cs i.ide1Nodata
  ide0 := s.ide0.step s.ide0Io i.mgmt i.ide0ResetN

end IdePort

/-! ## Runs -/

structure IdeRun where
  start : IdePort
  inputs : Nat → IdePortIn

namespace IdeRun

variable (r : IdeRun)

/-- The registers in clock `t`. -/
def state : Nat → IdePort := Clocked.run IdePort.step r.start r.inputs

theorem state_succ (t : Nat) : r.state (t + 1) = (r.state t).step (r.inputs t) := Clocked.run_succ _ _ _ _

def adapter (t : Nat) : Adapter := (r.state t).adapter

def ide (t : Nat) : Ide := (r.state t).ide0

/-- The host writes a word: its strobe on the data port falls. -/
def writesWord (t : Nat) : Bool := (r.inputs t).mgmt.writesData && !(r.inputs (t + 1)).mgmt.mgmtWrite

/-- The words that the host has written before clock `t`. -/
def written : Nat → List (BitVec 16)
  | 0 => []
  | t + 1 => written t ++ if r.writesWord t then [(r.inputs t).mgmt.mgmtWritedata] else []

/-- A cycle of the guest is taken in clock `t`. -/
def takes (t : Nat) : Bool := (r.adapter t).takes (r.inputs t).cpu

/-- A cycle of the guest is answered in clock `t`. -/
def ready (t : Nat) : Bool := (r.adapter t).cpuIoReady

/-- The words that a read with these byte enables asks for. -/
def width (be : BitVec 4) : Nat := if be = 0b1111 then 2 else 1

/-- The words that the guest has asked for before clock `t`. -/
def asked : Nat → Nat
  | 0 => 0
  | t + 1 => asked t + if r.takes t then width (r.inputs t).cpu.cpuBe else 0

/-- The words of an answer. -/
def wordsOf (dout : BitVec 32) (wide : Bool) : List (BitVec 16) :=
  if wide then [dout.extractLsb' 0 16, dout.extractLsb' 16 16] else [dout.extractLsb' 0 16]

/-- The words that the guest has received up to clock `t`. -/
def received : Nat → List (BitVec 16)
  | 0 => []
  | t + 1 => received t ++ if r.ready (t + 1) then wordsOf (r.adapter (t + 1)).cpuDout (r.adapter (t + 1)).ide32 else []

/-- The size of the block, in words. -/
def blockSize : Nat := r.start.ide0.blkSize.toNat

/-- Clock 0 is the last one of the status write with which the host raises DRQ in fast-read mode. From then on the
host writes the words of a block of even size, at any time, and the guest reads the data port, 16 or, at an even offset,
32 bits at a time, and no more than the block. -/
structure ReadsBlock : Prop where
  enabled : ∀ t, (r.inputs t).rstN = true ∧ (r.inputs t).ide0ResetN = true
  present : r.start.ide0.present ≠ 0
  noSwReset : r.start.ide0.swReset = false
  even : r.blockSize % 2 = 0
  idle : r.start.adapter.state = .idle
  noStrobe : r.start.adapter.ioRead = false ∧ r.start.adapter.ioWrite = false ∧ r.start.adapter.ideRead = false ∧
    r.start.adapter.ideWrite = false
  noWait : r.start.ide0Wait = false ∧ r.start.ide1Wait = false
  raised : (r.inputs 0).mgmt.writes 5 = true ∧ (r.inputs 0).mgmt.mgmtWritedata.getLsbD 11 = true ∧
    (r.inputs 0).mgmt.mgmtWritedata.getLsbD 13 = true
  index : (r.inputs 1).mgmt.mgmtWrite = false ∧ (r.inputs 1).mgmt.mgmtAddress ≠ 15
  noHostRead : ∀ t, (r.inputs t).mgmt.mgmtRead = false
  hostData : ∀ t, 0 < t → (r.inputs t).mgmt.mgmtWrite = true →
    (r.inputs t).mgmt.mgmtAddress = 15 ∧ (r.inputs (t + 1)).mgmt.mgmtAddress = 15
  hostBlock : ∀ t, 0 < t → (r.inputs t).mgmt.mgmtWrite = true → (r.written t).length < r.blockSize
  afterDrq : r.takes 0 = false
  guestReads : ∀ t, r.takes t = true → (r.inputs t).cpu.cpuIoRd = true ∧ (r.inputs t).cpu.basePort = 0x01F0 ∧
    ((r.inputs t).cpu.cpuBe = 0b0011 ∨ (r.inputs t).cpu.cpuBe = 0b1111 ∧ r.asked t % 2 = 0)
  guestBlock : ∀ t, r.takes t = true → r.asked t + width (r.inputs t).cpu.cpuBe ≤ r.blockSize

/-- The guest receives the words of the host: in order, each once, and each read is answered once, within six clocks of
its pair of words being in the buffer, and moves the guest's pointer on by what it returned. -/
structure Delivers : Prop where
  inOrder : ∀ t, r.received t <+: r.written t
  once : ∀ t, Clocked.pulses r.takes 0 t =
    Clocked.pulses r.ready 1 (t + 1) + if (r.adapter t).state = .idle then 0 else 1
  whole : ∀ t, (r.adapter t).state = .idle → (r.received t).length = r.asked t
  pointer : ∀ t, 0 < t → r.ready t = true → (r.ide t).ioCnt.toNat = (r.received t).length
  answered : ∀ t u, r.takes t = true → t ≤ u → 2 * (r.asked t / 2) + 2 ≤ (r.written u).length →
    ∃ v, t < v ∧ v ≤ u + 6 ∧ r.ready v = true

end IdeRun

end Z486.Disk
