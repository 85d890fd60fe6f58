/-
`main_memory` (src/memory/main_memory.sv): the multiplexer between the CPU's memory port and SDRAM,
the VGA window, the SVGA framebuffer in DDR3, the shared mailbox and unmapped addresses. SDRAM
accesses pass through combinationally; everything else is served by one state machine.
-/
import Z486.Clocked.Bits
import Mathlib.Tactic.Common

namespace Z486.Memory

/-! ## Ports and registers -/

/-- The request on the CPU side port. -/
structure CpuReq where
  valid : Bool
  write : Bool
  addr : BitVec 32
  din : BitVec 32
  be : BitVec 4
  burstcount : BitVec 8
  deriving DecidableEq

/-- The VGA mode inputs. -/
structure VgaModeIn where
  memmode : BitVec 3
  dwordWriteOk : Bool
  wrSeg : BitVec 6
  rdSeg : BitVec 6
  fbEn : Bool
  chain4 : Bool
  mapMask : BitVec 4
  readPlane : BitVec 2
  writeMode : BitVec 2
  deriving DecidableEq

/-- The inputs of `main_memory` in one clock. -/
structure MainMemoryIn where
  reset : Bool
  cpu : CpuReq
  ramSize : BitVec 2
  memDout : BitVec 32
  memRespValid : Bool
  memReady : Bool
  vgaReaddata : BitVec 8
  vga : VgaModeIn
  fbDdramDout : BitVec 64
  fbDdramDoutReady : Bool
  fbDdramBusy : Bool

/-- The states of the access state machine. -/
inductive MainMemoryState
  | idle
  | vgaRead
  | vgaWrite
  | fbWrite
  | fbRead
  | fbReadWait
  | unmappedRead
  | sharedDrop
  deriving DecidableEq, Repr

/-- The registers of `main_memory`. -/
structure MainMemory where
  state : MainMemoryState
  vgaBusy : Bool
  vgaDoutReady : Bool
  vgaDout : BitVec 32
  vgaAccepted : Bool
  fbReadHighDword : Bool
  fbLinear : Bool
  sharedEnabled : Bool
  fbShared : Bool
  sharedReadLeft : BitVec 8
  vgaAddress : BitVec 17
  vgaWritedata : BitVec 8
  vgaRead : Bool
  vgaWrite : Bool
  vgaWriteDword : Bool
  vgaWritedataDword : BitVec 32
  vgaWrDone : Bool
  fbDdramAddr : BitVec 29
  fbDdramDin : BitVec 64
  fbDdramBe : BitVec 8
  vgaMask : BitVec 2
  vgaCmp : BitVec 2
  vgaBe : BitVec 4
  vgaBcnt : BitVec 3
  vgaData : BitVec 32

/-! ## Address decode -/

def CpuReq.sharedRgn (mailbox : Bool) (c : CpuReq) : Bool := mailbox && c.addr.extractLsb' 13 19 == 0x67

/-- The write that activates the mailbox: A345h to its first word. -/
def CpuReq.sharedUnlock (c : CpuReq) : Bool :=
  c.write && c.addr.extractLsb' 0 13 == 0 && c.be.getLsbD 0 && c.be.getLsbD 1 && c.din.extractLsb' 0 16 == 0xA345

def CpuReq.lfbRgn (c : CpuReq) : Bool := c.addr.extractLsb' 22 10 == 0x03E

def ramAddressInRange (address : BitVec 32) (size : BitVec 2) : Bool :=
  if size == 0 then address.extractLsb' 24 8 == 0
  else if size == 1 then address.extractLsb' 25 7 == 0
  else if size == 2 then address.extractLsb' 26 6 == 0
  else address.extractLsb' 27 5 == 0

/-- The byte address in DDR3 of the framebuffer byte, or planar pixel group, an access starts at. -/
def framebufferByteAddress (chain4 : Bool) (c : CpuReq) (bank : BitVec 6) : BitVec 32 :=
  0x3F800000#32 |||
    (if chain4 then 0#10 ++ bank ++ c.addr.extractLsb' 0 16
     else 0#8 ++ bank ++ c.addr.extractLsb' 2 14 ++
       (if c.be.getLsbD 0 then 0#2 else if c.be.getLsbD 1 then 1#2 else if c.be.getLsbD 2 then 2#2 else 3#2) ++ 0#2)

/-- `byte_address >> 3`: the 64-bit word of DDR3 a byte lies in. -/
def ddramWord (byteAddress : BitVec 32) : BitVec 29 := byteAddress.extractLsb' 3 29

/-- `high ? {x, 0} : {0, x}` -/
def placeBe (high : Bool) (be : BitVec 4) : BitVec 8 := if high then be ++ 0#4 else 0#4 ++ be

/-- `high ? {x, 0} : {0, x}` -/
def placeDword (high : Bool) (d : BitVec 32) : BitVec 64 := if high then d ++ 0#32 else 0#32 ++ d

/-- `high ? x[63:32] : x[31:0]` -/
def pickDword (high : Bool) (x : BitVec 64) : BitVec 32 :=
  if high then x.extractLsb' 32 32 else x.extractLsb' 0 32

/-- `{4{b}}` -/
def replicate4 (b : BitVec 8) : BitVec 32 := b ++ b ++ b ++ b

/-- The half of the DDR3 word a planar access uses. -/
def CpuReq.planarHigh (c : CpuReq) : Bool := c.be.getLsbD 1 || c.be.getLsbD 3

/-- The byte a planar write takes from the CPU's data: its lowest enabled one. -/
def CpuReq.planarByte (c : CpuReq) : BitVec 8 :=
  if c.be.getLsbD 0 then c.din.extractLsb' 0 8
  else if c.be.getLsbD 1 then c.din.extractLsb' 8 8
  else if c.be.getLsbD 2 then c.din.extractLsb' 16 8
  else c.din.extractLsb' 24 8

/-- `cpu_burstcount == 0 ? 1 : cpu_burstcount`, cut to the width of `vga_bcnt`. -/
def CpuReq.bcnt (c : CpuReq) : BitVec 3 := if c.burstcount == 0 then 1 else c.burstcount.extractLsb' 0 3

namespace MainMemory

variable (mailbox : Bool) (s : MainMemory) (i : MainMemoryIn)

/-! ## Combinational outputs -/

/-- The VGA window; its bounds follow `vga_memmode` one clock later. -/
def vgaRgn : Bool := i.cpu.addr.extractLsb' 17 15 == 5 && (i.cpu.addr.extractLsb' 15 2 &&& s.vgaMask) == s.vgaCmp

def memValid : Bool :=
  i.cpu.valid && !s.vgaRgn i && !i.cpu.sharedRgn mailbox && !s.vgaBusy && ramAddressInRange i.cpu.addr i.ramSize

def cpuReady : Bool :=
  i.memReady || s.vgaAccepted ||
    (i.cpu.valid && !s.vgaRgn i && !i.cpu.lfbRgn && !i.cpu.sharedRgn mailbox &&
      !ramAddressInRange i.cpu.addr i.ramSize && s.state == .idle)

def cpuRespValid : Bool := i.memRespValid || s.vgaDoutReady

def cpuDout : BitVec 32 := if s.vgaDoutReady then s.vgaDout else i.memDout

def fbDdramWe : Bool := s.state == .fbWrite

def fbDdramRd : Bool := s.state == .fbRead

/-! ## The state machine -/

/-- The pulses fall unless the clock sets them again. -/
def clearPulses : MainMemory :=
  { s with
    vgaRead := false, vgaWrite := false, vgaWriteDword := false, vgaDoutReady := false,
    vgaWrDone := false, vgaAccepted := false }

/-- Point the VGA access to the first enabled byte and keep the remaining ones. -/
def pointVga (c : CpuReq) : MainMemory :=
  if c.be.getLsbD 0 then
    { s with
      vgaAddress := c.addr.extractLsb' 2 15 ++ 0#2, vgaWritedata := c.din.extractLsb' 0 8,
      vgaBe := 0#1 ++ c.be.extractLsb' 1 3, vgaBcnt := 3, vgaData := 0#8 ++ c.din.extractLsb' 8 24 }
  else if c.be.getLsbD 1 then
    { s with
      vgaAddress := c.addr.extractLsb' 2 15 ++ 1#2, vgaWritedata := c.din.extractLsb' 8 8,
      vgaBe := 0#2 ++ c.be.extractLsb' 2 2, vgaBcnt := 2, vgaData := 0#16 ++ c.din.extractLsb' 16 16 }
  else if c.be.getLsbD 2 then
    { s with
      vgaAddress := c.addr.extractLsb' 2 15 ++ 2#2, vgaWritedata := c.din.extractLsb' 16 8,
      vgaBe := 0#3 ++ c.be.extractLsb' 3 1, vgaBcnt := 1, vgaData := 0#24 ++ c.din.extractLsb' 24 8 }
  else
    { s with
      vgaAddress := c.addr.extractLsb' 2 15 ++ 3#2, vgaWritedata := c.din.extractLsb' 24 8,
      vgaBe := 0, vgaBcnt := 0, vgaData := 0 }

/-- Serve a mailbox access: dropped or all ones while locked, in DDR3 from the unlocking write on. -/
def acceptShared (c : CpuReq) : MainMemory :=
  let s := { s with vgaAccepted := true, vgaBusy := true, fbLinear := true }
  if !s.sharedEnabled && !c.sharedUnlock then
    if c.write then { s with state := .sharedDrop } else { s with vgaBcnt := c.bcnt, state := .unmappedRead }
  else
    let s := { s with sharedEnabled := true, fbShared := true, fbDdramAddr := ddramWord (0x30000000#32 ||| c.addr) }
    if c.write then
      { s with
        state := .fbWrite, fbDdramBe := placeBe (c.addr.getLsbD 2) c.be,
        fbDdramDin := placeDword (c.addr.getLsbD 2) c.din }
    else
      { s with
        state := .fbRead, fbReadHighDword := c.addr.getLsbD 2,
        sharedReadLeft := if c.burstcount == 0 then 1 else c.burstcount }

/-- Linear framebuffer: one dword of the packed DDR3 image. -/
def acceptLinear (c : CpuReq) : MainMemory :=
  let s := { s with
    vgaAccepted := true, vgaBusy := true, fbLinear := true,
    fbDdramAddr := ddramWord (0x3F800000#32 ||| (0#10 ++ c.addr.extractLsb' 0 22)) }
  if c.write then
    { s with
      state := .fbWrite, fbDdramBe := placeBe (c.addr.getLsbD 2) c.be,
      fbDdramDin := placeDword (c.addr.getLsbD 2) c.din }
  else { s with state := .fbRead, fbReadHighDword := c.addr.getLsbD 2 }

/-- SVGA: the banked framebuffer in DDR3, packed in chain 4 and planar otherwise. -/
def acceptBanked (c : CpuReq) (v : VgaModeIn) : MainMemory :=
  let s := { s with
    fbDdramAddr := ddramWord (framebufferByteAddress v.chain4 c (if c.write then v.wrSeg else v.rdSeg)) }
  if !c.write then
    { s with state := .fbRead, fbReadHighDword := if v.chain4 then c.addr.getLsbD 2 else c.planarHigh }
  else if v.chain4 then
    { s with
      state := .fbWrite, fbDdramBe := placeBe (c.addr.getLsbD 2) c.be,
      fbDdramDin := placeDword (c.addr.getLsbD 2) c.din }
  else
    { s with
      state := .fbWrite, fbDdramBe := placeBe c.planarHigh v.mapMask
      -- write mode 1 stores the latches
      fbDdramDin := placeDword c.planarHigh (if v.writeMode == 1 then s.vgaData else replicate4 c.planarByte) }

/-- The VGA window: the banked framebuffer in SVGA modes, else a byte or dword cycle of the VGA. -/
def acceptVga (c : CpuReq) (v : VgaModeIn) : MainMemory :=
  let s := { s with vgaAccepted := true, vgaBusy := true, fbLinear := false }
  if v.fbEn then s.acceptBanked c v
  else if !c.write then { s with state := .vgaRead, vgaRead := true }
  else if v.dwordWriteOk && c.be == 0xF then
    { s with state := .vgaWrite, vgaWriteDword := true, vgaWritedataDword := c.din, vgaBe := 0 }
  else { s with state := .vgaWrite, vgaWrite := true }

/-- The classes of access the state machine serves, in the order of the dispatch. -/
inductive Access
  | shared
  | unmappedRead
  | vgaBurst
  | linear
  | vga
  | none
  deriving DecidableEq, Repr

def access : Access :=
  if i.cpu.valid && i.cpu.sharedRgn mailbox then .shared
  else if i.cpu.valid && !i.cpu.write && !s.vgaRgn i && !i.cpu.lfbRgn && !ramAddressInRange i.cpu.addr i.ramSize then
    .unmappedRead
  else if i.cpu.valid && (s.vgaRgn i || i.cpu.lfbRgn) && !i.cpu.write && 1 < i.cpu.burstcount then .vgaBurst
  else if i.cpu.valid && i.cpu.lfbRgn then .linear
  else if i.cpu.valid && s.vgaRgn i then .vga
  else .none

/-- The part of `IDLE` that runs in every clock. -/
def prepare : MainMemory :=
  { (if !i.vga.fbEn then s.clearPulses.pointVga i.cpu else s.clearPulses) with fbShared := false }

/-- `IDLE`: serve the request, if it is not for SDRAM. -/
def idle : MainMemory :=
  let b := s.prepare i
  match s.access mailbox i with
  | .shared => b.acceptShared i.cpu
  | .unmappedRead => { b with vgaBusy := true, vgaBcnt := i.cpu.bcnt, state := .unmappedRead }
  -- a line fill that strays into the window is completed with all ones
  | .vgaBurst =>
    { b with vgaAccepted := true, vgaBusy := true, vgaBcnt := i.cpu.burstcount.extractLsb' 0 3, state := .unmappedRead }
  | .linear => b.acceptLinear i.cpu
  | .vga => b.acceptVga i.cpu i.vga
  | .none => b

/-- `FB_WRITE`: DDR3 accepts the write in the first clock it is not busy. -/
def fbWriteNext : MainMemory :=
  if !i.fbDdramBusy then { s.clearPulses with vgaWrDone := true, state := .idle, vgaBusy := false }
  else s.clearPulses

def fbReadNext : MainMemory :=
  if !i.fbDdramBusy then { s.clearPulses with state := .fbReadWait } else s.clearPulses

/-- The plane `vga_read_plane` selects in a four-pixel group. -/
def planeByte (plane : BitVec 2) (group : BitVec 32) : BitVec 8 := group.extractLsb' (8 * plane.toNat) 8

/-- `FB_READ_WAIT`: one dword arrives; a mailbox burst goes on with the next one. -/
def fbReadWaitNext : MainMemory :=
  let b := s.clearPulses
  if i.fbDdramDoutReady then
    let d := pickDword s.fbReadHighDword i.fbDdramDout
    -- a planar read loads the latches and returns the selected plane in every lane
    let planar := !i.vga.chain4 && !s.fbLinear
    let b :=
      { b with
        vgaData := if planar then d else s.vgaData
        vgaDout := if planar then replicate4 (planeByte i.vga.readPlane d) else d
        vgaDoutReady := true }
    if s.fbShared && 1 < s.sharedReadLeft then
      { b with
        sharedReadLeft := s.sharedReadLeft - 1
        fbDdramAddr := s.fbDdramAddr + BitVec.setWidth 29 (BitVec.ofBool s.fbReadHighDword)
        fbReadHighDword := !s.fbReadHighDword
        state := .fbRead }
    else { b with state := .idle, vgaBusy := false }
  else b

def unmappedReadNext : MainMemory :=
  let b := { s.clearPulses with vgaDout := 0xFFFFFFFF, vgaDoutReady := true }
  if s.vgaBcnt ≤ 1 then { b with vgaBcnt := 0, state := .idle, vgaBusy := false }
  else { b with vgaBcnt := s.vgaBcnt - 1 }

def sharedDropNext : MainMemory := { s.clearPulses with state := .idle, vgaBusy := false }

/-- `vga_address[1:0] + 1` -/
def nextVgaAddress : BitVec 17 := s.vgaAddress.extractLsb' 2 15 ++ (s.vgaAddress.extractLsb' 0 2 + 1)

/-- `VGA_READ`: a byte every two clocks; disabled lanes pass without a strobe. -/
def vgaReadNext : MainMemory :=
  if !s.vgaRead then
    let b := { s.clearPulses with
      vgaRead := s.vgaBe.getLsbD 0, vgaBe := 0#1 ++ s.vgaBe.extractLsb' 1 3, vgaBcnt := s.vgaBcnt - 1
      vgaAddress := s.nextVgaAddress, vgaDout := i.vgaReaddata ++ s.vgaDout.extractLsb' 8 24 }
    if s.vgaBcnt == 0 then { b with vgaDoutReady := true, state := .idle, vgaBusy := false } else b
  else s.clearPulses

def vgaWriteNext : MainMemory :=
  if !s.vgaWrite then
    let b := { s.clearPulses with
      vgaWrite := s.vgaBe.getLsbD 0, vgaBe := 0#1 ++ s.vgaBe.extractLsb' 1 3
      vgaAddress := s.nextVgaAddress, vgaWritedata := s.vgaData.extractLsb' 0 8
      vgaData := 0#8 ++ s.vgaData.extractLsb' 8 24 }
    if s.vgaBe == 0 then { b with state := .idle, vgaBusy := false, vgaWrDone := true } else b
  else s.clearPulses

/-- The clocked block outside reset. -/
def next : MainMemory :=
  match s.state with
  | .idle => s.idle mailbox i
  | .vgaRead => s.vgaReadNext i
  | .vgaWrite => s.vgaWriteNext
  | .fbWrite => s.fbWriteNext i
  | .fbRead => s.fbReadNext i
  | .fbReadWait => s.fbReadWaitNext i
  | .unmappedRead => s.unmappedReadNext
  | .sharedDrop => s.sharedDropNext

/-- The registers `reset` sets; the others keep their values. -/
def reset : MainMemory :=
  { s with
    sharedEnabled := false, fbShared := false, sharedReadLeft := 0, state := .idle, vgaBusy := false,
    vgaDoutReady := false, vgaDout := 0, vgaAccepted := false, fbDdramAddr := 0, fbDdramDin := 0,
    fbDdramBe := 0, fbReadHighDword := false, fbLinear := false }

/-- All registers clear, with the window of `vga_memmode` 4. -/
def cleared : MainMemory where
  state := .idle
  vgaBusy := false
  vgaDoutReady := false
  vgaDout := 0
  vgaAccepted := false
  fbReadHighDword := false
  fbLinear := false
  sharedEnabled := false
  fbShared := false
  sharedReadLeft := 0
  vgaAddress := 0
  vgaWritedata := 0
  vgaRead := false
  vgaWrite := false
  vgaWriteDword := false
  vgaWritedataDword := 0
  vgaWrDone := false
  fbDdramAddr := 0
  fbDdramDin := 0
  fbDdramBe := 0
  vgaMask := 0
  vgaCmp := 0
  vgaBe := 0
  vgaBcnt := 0
  vgaData := 0

/-- The mask and value of address bits 16:15 that make up the VGA window. -/
def windowMask (memmode : BitVec 3) : BitVec 2 :=
  if memmode == 4 then 0 else if memmode == 5 then 2 else if memmode == 6 then 3 else if memmode == 7 then 3 else 0

def windowCmp (memmode : BitVec 3) : BitVec 2 :=
  if memmode == 4 then 0 else if memmode == 5 then 0 else if memmode == 6 then 2 else if memmode == 7 then 3 else 3

def setWindow (memmode : BitVec 3) : MainMemory :=
  { s with vgaMask := windowMask memmode, vgaCmp := windowCmp memmode }

def step : MainMemory := (if i.reset then s.reset else s.next mailbox i).setWindow i.vga.memmode

/-! ## Frame lemmas -/

section Frame

variable {mailbox s i}

theorem step_of_not_reset (h : i.reset = false) :
    s.step mailbox i = (s.next mailbox i).setWindow i.vga.memmode := by
  simp [step, h]

@[simp] theorem prepare_state : (s.prepare i).state = s.state := by
  unfold prepare pointVga; split_ifs <;> rfl

@[simp] theorem prepare_vgaBusy : (s.prepare i).vgaBusy = s.vgaBusy := by
  unfold prepare pointVga; split_ifs <;> rfl

@[simp] theorem prepare_vgaAccepted : (s.prepare i).vgaAccepted = false := by
  unfold prepare pointVga; split_ifs <;> rfl

@[simp] theorem prepare_vgaDoutReady : (s.prepare i).vgaDoutReady = false := by
  unfold prepare pointVga; split_ifs <;> rfl

@[simp] theorem prepare_fbShared : (s.prepare i).fbShared = false := rfl

end Frame

end MainMemory

end Z486.Memory
