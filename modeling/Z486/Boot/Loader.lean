/-
The boot loader state machine (src/system.sv) with `main_memory` and the SDRAM port it writes to.
After a reset it copies the 256 KiB ROM image from the DDR3 boot window to the low window at C0000h
and to the mirror at FC0000h, eight bytes at a time in four write phases.
-/
import Z486.Clocked.Run
import Z486.Memory.MainMemory

namespace Z486.Boot

open Clocked Memory

/-! ## The state machine -/

inductive BootState
  | idle
  | ddrReq
  | ddrWait
  | writeCopy
  | complete
  deriving DecidableEq, Repr

/-- The registers of the boot loader, the `sd_avm_*` write port among them. -/
structure BootLoader where
  bootState : BootState
  bootDone : Bool
  bootAddr : BitVec 32
  bootReadData : BitVec 64
  bootDestAddr : BitVec 32
  bootWritePhase : BitVec 2
  ddramRdR : Bool
  sdAvmAddress : BitVec 32
  sdAvmWritedata : BitVec 32
  sdAvmByteenable : BitVec 4
  sdAvmWrite : Bool

structure BootIn where
  rst : Bool
  memBusy : Bool
  ddramBusy : Bool
  ddramDoutReady : Bool
  ddramDout : BitVec 64
  mmReady : Bool

def biosMirrorBase : BitVec 32 := 0x00FC0000#32

namespace BootLoader

def reset : BootLoader where
  bootState := .idle
  bootDone := false
  bootAddr := 0
  bootReadData := 0
  bootDestAddr := 0
  bootWritePhase := 0
  ddramRdR := false
  sdAvmAddress := 0
  sdAvmWritedata := 0
  sdAvmByteenable := 0
  sdAvmWrite := false

variable (s : BootLoader) (i : BootIn)

/-- The address of a write phase. -/
def phaseAddress (phase : BitVec 2) : BitVec 32 :=
  if phase == 0 then s.bootDestAddr
  else if phase == 1 then s.bootDestAddr + 4#32
  else if phase == 2 then biosMirrorBase + s.bootAddr
  else biosMirrorBase + s.bootAddr + 4#32

/-- The data of a write phase. -/
def phaseData (phase : BitVec 2) : BitVec 32 :=
  if phase == 0 then s.bootReadData.extractLsb' 0 32
  else if phase == 1 then s.bootReadData.extractLsb' 32 32
  else if phase == 2 then s.bootReadData.extractLsb' 0 32
  else s.bootReadData.extractLsb' 32 32

/-- `BOOT_WRITE_COPY`: the port takes the write of the phase; an acknowledge moves the phase on. -/
def writeCopy : BootLoader :=
  let b := { s with
    ddramRdR := false, sdAvmAddress := s.phaseAddress s.bootWritePhase, sdAvmWritedata := s.phaseData s.bootWritePhase,
    sdAvmByteenable := 0xF, sdAvmWrite := true }
  if i.mmReady then
    if s.bootWritePhase != 3 then { b with bootWritePhase := s.bootWritePhase + 1 }
    else if s.bootAddr == 0x0003FFF8#32 then { b with bootState := .complete }
    else { b with bootAddr := s.bootAddr + 8#32, bootState := .ddrReq }
  else b

def next : BootLoader :=
  let b := { s with sdAvmWrite := false, ddramRdR := false }
  match s.bootState with
  | .idle => if !i.memBusy then { b with bootAddr := 0, bootState := .ddrReq } else b
  | .ddrReq =>
    if s.ddramRdR && !i.ddramBusy then { b with bootState := .ddrWait } else { b with ddramRdR := true }
  | .ddrWait =>
    if i.ddramDoutReady then
      { b with
        bootReadData := i.ddramDout, bootDestAddr := 0x000C0000#32 + s.bootAddr, bootWritePhase := 0,
        bootState := .writeCopy }
    else b
  | .writeCopy => s.writeCopy i
  | .complete => { b with bootDone := true }

def step : BootLoader := if i.rst then reset else s.next i

/-- The 64-bit word of DDR3 the loader reads: `{4'h3, boot_ddr_byte_addr[27:3]}`. -/
def ddramAddr (bootAddr : BitVec 32) : BitVec 29 := 3#4 ++ (0x000C0000#32 + bootAddr).extractLsb' 3 25

end BootLoader

/-! ## The SDRAM port -/

/-- SDRAM as its first port sees it: a request is accepted in a clock in which the controller is idle
and takes the port (`cool` is 0 and the clock grants it); `ready` pulses in the next clock, and the
controller is not idle again before three more. -/
structure SdramPort where
  mem : BitVec 25 → BitVec 32
  ready : Bool
  cool : Nat

/-- The dword of a byte address. -/
def sdramDword (address : BitVec 32) : BitVec 25 := address.extractLsb' 2 25

/-- The bytes of `new` that `be` enables over those of `old`. -/
def byteMerge (old new : BitVec 32) (be : BitVec 4) : BitVec 32 :=
  (if be.getLsbD 3 then new.extractLsb' 24 8 else old.extractLsb' 24 8) ++
    (if be.getLsbD 2 then new.extractLsb' 16 8 else old.extractLsb' 16 8) ++
    (if be.getLsbD 1 then new.extractLsb' 8 8 else old.extractLsb' 8 8) ++
    (if be.getLsbD 0 then new.extractLsb' 0 8 else old.extractLsb' 0 8)

namespace SdramPort

variable (s : SdramPort) (valid granted : Bool) (c : CpuReq)

def accepts : Bool := valid && s.cool == 0 && granted

def step : SdramPort where
  mem := fun x =>
    if s.accepts valid granted && c.write && x == sdramDword c.addr then byteMerge (s.mem x) c.din c.be else s.mem x
  ready := s.accepts valid granted
  cool := if s.accepts valid granted then 3 else s.cool - 1

end SdramPort

/-! ## The system during boot -/

/-- The boot loader, `main_memory`, SDRAM, and the word DDR3 has not returned yet. -/
structure BootSystem where
  boot : BootLoader
  mm : MainMemory
  sdram : SdramPort
  pending : Option (BitVec 64)

/-- One clock of what the loader does not control: the state of the memories, and the other inputs of
`main_memory` (the CPU's request counts after boot only). -/
structure BootSystemIn where
  memBusy : Bool
  ddramBusy : Bool
  ddramAnswers : Bool
  granted : Bool
  ports : MainMemoryIn

namespace BootSystem

variable (ddr : BitVec 29 → BitVec 64) (s : BootSystem) (i : BootSystemIn)

/-- The request on the `mm_*` wires. -/
def mmReq : CpuReq :=
  if s.boot.bootDone then i.ports.cpu
  else ⟨s.boot.sdAvmWrite, true, s.boot.sdAvmAddress, s.boot.sdAvmWritedata, s.boot.sdAvmByteenable, 1⟩

def mmIn : MainMemoryIn :=
  { i.ports with
    cpu := s.mmReq i, memReady := s.sdram.ready, fbDdramBusy := i.ddramBusy
    fbDdramDout := s.pending.getD 0, fbDdramDoutReady := i.ddramAnswers && s.pending.isSome }

def mmReady : Bool := s.mm.cpuReady true (s.mmIn i)

def bootIn : BootIn :=
  ⟨i.ports.reset, i.memBusy, i.ddramBusy, i.ddramAnswers && s.pending.isSome, s.pending.getD 0, s.mmReady i⟩

/-- One clock; `ddr` is DDR3, which nothing writes during boot. -/
def step : BootSystem where
  boot := s.boot.step (s.bootIn i)
  mm := s.mm.step true (s.mmIn i)
  sdram := s.sdram.step (s.mm.memValid true (s.mmIn i)) i.granted (s.mmReq i)
  pending :=
    if !s.boot.bootDone && s.boot.ddramRdR && !i.ddramBusy then some (ddr (BootLoader.ddramAddr s.boot.bootAddr))
    else if i.ddramAnswers then none else s.pending

/-- After reset: SDRAM holds anything. -/
def afterReset (mm : MainMemory) (mem : BitVec 25 → BitVec 32) : BootSystem :=
  ⟨.reset, mm.reset, ⟨mem, false, 0⟩, none⟩

end BootSystem

/-! ## The image -/

/-- The dword of the ROM image at byte offset `i`. -/
def imageDword (ddr : BitVec 29 → BitVec 64) (i : BitVec 32) : BitVec 32 :=
  pickDword (i.getLsbD 2) (ddr (BootLoader.ddramAddr i))

/-- The mailbox hole of the low window. -/
def reservedHole (address : BitVec 32) : Bool := 0x000CE000 ≤ address && address ≤ 0x000CFFFF

/-- Both windows hold the image in the dword at byte offset `i`. -/
def DwordCopied (ddr : BitVec 29 → BitVec 64) (mem : BitVec 25 → BitVec 32) (i : BitVec 32) : Prop :=
  mem (sdramDword (biosMirrorBase + i)) = imageDword ddr i ∧
    (reservedHole (0x000C0000#32 + i) = false → mem (sdramDword (0x000C0000#32 + i)) = imageDword ddr i)

end Z486.Boot
