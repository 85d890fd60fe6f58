/-
The handshake of the boot writer with `main_memory` and SDRAM, without addresses and data: which
write phase the loader is in, which phase's write its registered port still shows, and what the
memory side is doing with it. The system of `Loader` follows it clock by clock.
-/
import Z486.Boot.Loader

namespace Z486.Boot

open Clocked Memory

/-! ## The abstract writer -/

/-- The control state of boot. `portPhase` is the phase whose write the port shows while `write`. -/
structure Writer where
  bootState : BootState
  rd : Bool
  phase : BitVec 2
  write : Bool
  portPhase : BitVec 2
  mmBusy : Bool
  accepted : Bool
  cool : Nat
  deriving DecidableEq, Repr

/-- What happens around the writer in one clock. -/
structure WriterIn where
  memBusy : Bool
  ddramBusy : Bool
  ddramAnswers : Bool
  granted : Bool
  /-- `main_memory` ends the access it serves -/
  mmEnds : Bool

namespace Writer

variable (w : Writer) (hole last : Bool) (e : WriterIn)

/-- The port shows a write to the mailbox: one of the low window's two, of a dword in the hole. -/
def mailbox : Bool := hole && w.bootState == .writeCopy && w.portPhase ≤ 1#2

/-- SDRAM accepts the write on the port. -/
def accepts : Bool := w.write && !w.mailbox hole && !w.mmBusy && w.cool == 0 && e.granted

/-- `main_memory` takes the write on the port for the mailbox. -/
def dispatches : Bool := w.write && w.mailbox hole && !w.mmBusy

def ready : Bool := w.cool == 3 || w.accepted

/-- The last phase is acknowledged. -/
def advances : Bool := w.bootState == .writeCopy && w.ready && w.phase == 3

def nextState : BootState :=
  match w.bootState with
  | .idle => if !e.memBusy then .ddrReq else .idle
  | .ddrReq => if w.rd && !e.ddramBusy then .ddrWait else .ddrReq
  | .ddrWait => if e.ddramAnswers then .writeCopy else .ddrWait
  | .writeCopy => if w.ready && w.phase == 3 then (if last then .complete else .ddrReq) else .writeCopy
  | .complete => .complete

def step : Writer where
  bootState := w.nextState last e
  rd := w.bootState == .ddrReq && !(w.rd && !e.ddramBusy)
  phase :=
    if w.bootState == .ddrWait then (if e.ddramAnswers then 0 else w.phase)
    else if w.bootState == .writeCopy && w.ready && w.phase != 3 then w.phase + 1 else w.phase
  write := w.bootState == .writeCopy
  portPhase := if w.bootState == .writeCopy then w.phase else 0
  mmBusy := if w.mmBusy then !e.mmEnds else w.dispatches hole
  accepted := w.dispatches hole
  cool := if w.accepts hole e then 3 else w.cool - 1

end Writer

/-! ## Addresses -/

/-- Eight bytes of the image in the mailbox hole. -/
def inHole (a : BitVec 32) : Bool := 0xE000 ≤ a.toNat && a.toNat < 0x10000

/-- The byte address the write of a phase goes to. -/
def writeAddress (a : BitVec 32) (phase : BitVec 2) : BitVec 32 :=
  (if phase ≤ 1#2 then 0x000C0000#32 else biosMirrorBase) + a + (if phase.getLsbD 0 then 4#32 else 0#32)

theorem writeAddress_toNat {a : BitVec 32} (ha : a.toNat < 0x40000) (phase : BitVec 2) :
    (writeAddress a phase).toNat =
      (if phase ≤ 1#2 then 0xC0000 else 0xFC0000) + a.toNat + (if phase.getLsbD 0 then 4 else 0) := by
  unfold writeAddress biosMirrorBase
  split <;> split <;> simp only [BitVec.toNat_add, BitVec.toNat_ofNat] <;> omega

theorem extract_toNat_eq (x : BitVec 32) (start len v : Nat) (hv : v < 2 ^ len) :
    x.extractLsb' start len = BitVec.ofNat len v ↔ x.toNat / 2 ^ start % 2 ^ len = v := by
  rw [← BitVec.toNat_inj, BitVec.extractLsb'_toNat, BitVec.toNat_ofNat, Nat.shiftRight_eq_div_pow, Nat.mod_eq_of_lt hv]

/-- The writer's addresses are below 16 MB and outside the VGA and linear windows; those of the low
window's hole belong to the mailbox. -/
structure WriterAddress (a : BitVec 32) (phase : BitVec 2) (c : CpuReq) : Prop where
  shared : c.sharedRgn true = (inHole a && phase ≤ 1#2)
  lfb : c.lfbRgn = false
  vga : ∀ s i, i.cpu = c → MainMemory.vgaRgn s i = false
  inRange : ∀ size, ramAddressInRange c.addr size = true

theorem writerAddress {a : BitVec 32} (ha : a.toNat < 0x40000) (h8 : a.toNat % 8 = 0) {phase : BitVec 2}
    {c : CpuReq} (hc : c.addr = writeAddress a phase) : WriterAddress a phase c := by
  have hn := writeAddress_toNat ha phase
  rw [← hc] at hn
  have hlt : 0xC0000 ≤ c.addr.toNat ∧ c.addr.toNat < 0x1000000 := by
    split at hn <;> split at hn <;> omega
  refine ⟨?_, ?_, fun s i hi => ?_, fun size => ?_⟩
  · have hrgn : c.sharedRgn true = true ↔ c.addr.toNat / 2 ^ 13 % 2 ^ 19 = 0x67 := by
      rw [← extract_toNat_eq c.addr 13 19 0x67 (by decide)]
      simp [CpuReq.sharedRgn]
    rw [Bool.eq_iff_iff, hrgn, Bool.and_eq_true, inHole, Bool.and_eq_true, decide_eq_true_eq, decide_eq_true_eq,
      decide_eq_true_eq]
    by_cases hp : phase ≤ 1#2
    · rw [if_pos hp] at hn
      split at hn <;> simp only [hp, and_true] <;> omega
    · rw [if_neg hp] at hn
      split at hn <;> simp only [hp, and_false, iff_false] <;> omega
  · have hrgn : c.lfbRgn = true ↔ c.addr.toNat / 2 ^ 22 % 2 ^ 10 = 0x3E := by
      rw [← extract_toNat_eq c.addr 22 10 0x3E (by decide)]
      simp [CpuReq.lfbRgn]
    rw [← Bool.not_eq_true, hrgn]
    omega
  · have hrgn : c.addr.extractLsb' 17 15 = 5#15 ↔ c.addr.toNat / 2 ^ 17 % 2 ^ 15 = 5 :=
      extract_toNat_eq c.addr 17 15 5 (by decide)
    have hne : ¬ c.addr.extractLsb' 17 15 = 5#15 := by rw [hrgn]; omega
    simp [MainMemory.vgaRgn, hi, hne]
  · have hz : ∀ k, 24 ≤ k → ∀ len, c.addr.extractLsb' k len = 0 := by
      intro k hk len
      rw [show (0 : BitVec len) = BitVec.ofNat len 0 from rfl, extract_toNat_eq c.addr k len 0 (Nat.two_pow_pos len)]
      rw [Nat.div_eq_of_lt (lt_of_lt_of_le hlt.2 (Nat.pow_le_pow_right Nat.two_pos hk)), Nat.zero_mod]
    simp [ramAddressInRange, hz]

/-! ## The system follows the writer -/

/-- The data of a write phase. -/
def writeData (d : BitVec 64) (phase : BitVec 2) : BitVec 32 := pickDword (phase.getLsbD 0) d

/-- The last eight bytes of the image. -/
def isLast (a : BitVec 32) : Bool := a == 0x0003FFF8#32

/-- The system is in the control state `w` of a boot that is not over. -/
structure Tracks (ddr : BitVec 29 → BitVec 64) (w : Writer) (s : BootSystem) : Prop where
  bootState : s.boot.bootState = w.bootState
  notDone : s.boot.bootDone = false
  rd : s.boot.ddramRdR = w.rd
  rdReq : w.rd = true → w.bootState = .ddrReq
  phase : s.boot.bootWritePhase = w.phase
  write : s.boot.sdAvmWrite = w.write
  addr : s.boot.bootAddr.toNat < 0x40000 ∧ s.boot.bootAddr.toNat % 8 = 0
  /-- outside the copy the port can only show the last phase of the eight bytes before -/
  port : w.write = true → ∃ a, a.toNat < 0x40000 ∧ a.toNat % 8 = 0 ∧
    s.boot.sdAvmAddress = writeAddress a w.portPhase ∧ s.boot.sdAvmByteenable = 0xF ∧
    (w.bootState ≠ .writeCopy → ¬ w.portPhase ≤ 1#2) ∧
    (w.bootState = .writeCopy → a = s.boot.bootAddr ∧ s.boot.sdAvmWritedata = writeData s.boot.bootReadData w.portPhase)
  data : w.bootState = .writeCopy → s.boot.bootReadData = ddr (BootLoader.ddramAddr s.boot.bootAddr) ∧
    s.boot.bootDestAddr = 0x000C0000#32 + s.boot.bootAddr
  pending : s.pending =
    if w.bootState = .ddrWait then some (ddr (BootLoader.ddramAddr s.boot.bootAddr)) else none
  vgaBusy : s.mm.vgaBusy = w.mmBusy
  accepted : s.mm.vgaAccepted = w.accepted
  mmState : (w.mmBusy = false ∧ s.mm.state = .idle) ∨
    (w.mmBusy = true ∧ (s.mm.state = .sharedDrop ∨ s.mm.state = .fbWrite))
  cool : s.sdram.cool = w.cool
  coolLe : w.cool ≤ 3
  ready : s.sdram.ready = (w.cool == 3)

/-- What the writer sees of a clock of the system. -/
def BootSystem.writerIn (s : BootSystem) (i : BootSystemIn) : WriterIn where
  memBusy := i.memBusy
  ddramBusy := i.ddramBusy
  ddramAnswers := i.ddramAnswers
  granted := i.granted
  mmEnds := s.mm.state == .sharedDrop || !i.ddramBusy

namespace Tracks

variable {ddr : BitVec 29 → BitVec 64} {w : Writer} {s : BootSystem} {i : BootSystemIn} (h : Tracks ddr w s)
include h

theorem mmReq : s.mmReq i =
    ⟨w.write, true, s.boot.sdAvmAddress, s.boot.sdAvmWritedata, s.boot.sdAvmByteenable, 1⟩ := by
  simp only [BootSystem.mmReq, h.notDone, h.write, Bool.false_eq_true, if_false]

/-- The address classes of the write on the port. -/
theorem decode (hw : w.write = true) :
    (s.mmReq i).sharedRgn true = w.mailbox (inHole s.boot.bootAddr) ∧ (s.mmReq i).lfbRgn = false ∧
      s.mm.vgaRgn (s.mmIn i) = false ∧ ramAddressInRange (s.mmReq i).addr i.ports.ramSize = true := by
  obtain ⟨a, ha, h8, haddr, -, hout, hin⟩ := h.port hw
  have hc : (s.mmReq i).addr = writeAddress a w.portPhase := by rw [h.mmReq]; exact haddr
  have hd := writerAddress ha h8 hc
  refine ⟨?_, hd.lfb, hd.vga _ _ rfl, hd.inRange _⟩
  rw [hd.shared, Writer.mailbox]
  by_cases hs : w.bootState = .writeCopy
  · rw [(hin hs).1, hs]
    simp
  · have hp := hout hs
    simp [hp]

theorem memValid : s.mm.memValid true (s.mmIn i) =
    (w.write && !w.mailbox (inHole s.boot.bootAddr) && !w.mmBusy) := by
  have hreq : (s.mmIn i).cpu = s.mmReq i := rfl
  have hv : (s.mmReq i).valid = w.write := by rw [h.mmReq]
  cases hw : w.write
  · simp [MainMemory.memValid, hreq, hv, hw]
  · obtain ⟨hsh, -, hvga, hr⟩ := h.decode (i := i) hw
    have hsize : (s.mmIn i).ramSize = i.ports.ramSize := rfl
    simp [MainMemory.memValid, hreq, hv, hw, hsh, hvga, hr, h.vgaBusy, hsize]

theorem mmReady : s.mmReady i = w.ready := by
  have hreq : (s.mmIn i).cpu = s.mmReq i := rfl
  have hv : (s.mmReq i).valid = w.write := by rw [h.mmReq]
  have hrdy : (s.mmIn i).memReady = s.sdram.ready := rfl
  have hsize : (s.mmIn i).ramSize = i.ports.ramSize := rfl
  rw [BootSystem.mmReady, MainMemory.cpuReady, hrdy, h.ready, h.accepted, hreq, hv, hsize]
  cases hw : w.write
  · simp [Writer.ready]
  · obtain ⟨-, -, -, hr⟩ := h.decode (i := i) hw
    simp [Writer.ready, hr]

/-- SDRAM accepts exactly the writes the writer says it does. -/
theorem accepts : s.sdram.accepts (s.mm.memValid true (s.mmIn i)) i.granted =
    w.accepts (inHole s.boot.bootAddr) (s.writerIn i) := by
  rw [SdramPort.accepts, h.memValid, h.cool]
  rfl

theorem sdram_step (last : Bool) :
    (s.step ddr i).sdram.cool = (w.step (inHole s.boot.bootAddr) last (s.writerIn i)).cool ∧
      (w.step (inHole s.boot.bootAddr) last (s.writerIn i)).cool ≤ 3 ∧
      (s.step ddr i).sdram.ready = ((w.step (inHole s.boot.bootAddr) last (s.writerIn i)).cool == 3) := by
  have hle := h.coolLe
  have hne : w.cool - 1 ≠ 3 := by omega
  simp only [BootSystem.step, SdramPort.step, h.accepts, Writer.step, h.cool]
  cases w.accepts (inHole s.boot.bootAddr) (s.writerIn i)
  · simp [hne]; omega
  · simp

/-- The port's write is the only thing `main_memory` can dispatch, and only to the mailbox. -/
theorem access : s.mm.access true (s.mmIn i) =
    if w.write && w.mailbox (inHole s.boot.bootAddr) then .shared else .none := by
  have hreq : (s.mmIn i).cpu = s.mmReq i := rfl
  have hv : (s.mmReq i).valid = w.write := by rw [h.mmReq]
  have hwr : (s.mmReq i).write = true := by rw [h.mmReq]
  unfold MainMemory.access
  rw [hreq, hv, hwr]
  cases hw : w.write
  · simp
  · obtain ⟨hsh, hlfb, hvga, -⟩ := h.decode (i := i) hw
    rw [hsh, hlfb, hvga]
    cases w.mailbox (inHole s.boot.bootAddr) <;> simp

/-- `main_memory` serves nothing but mailbox writes during boot. -/
theorem mm_step (hr : i.ports.reset = false) (last : Bool) :
    (s.step ddr i).mm.vgaBusy = (w.step (inHole s.boot.bootAddr) last (s.writerIn i)).mmBusy ∧
      (s.step ddr i).mm.vgaAccepted = (w.step (inHole s.boot.bootAddr) last (s.writerIn i)).accepted ∧
      (((w.step (inHole s.boot.bootAddr) last (s.writerIn i)).mmBusy = false ∧ (s.step ddr i).mm.state = .idle) ∨
        ((w.step (inHole s.boot.bootAddr) last (s.writerIn i)).mmBusy = true ∧
          ((s.step ddr i).mm.state = .sharedDrop ∨ (s.step ddr i).mm.state = .fbWrite))) := by
  have hreq : (s.mmIn i).cpu = s.mmReq i := rfl
  have hwr : (s.mmReq i).write = true := by rw [h.mmReq]
  have hbusy : (s.mmIn i).fbDdramBusy = i.ddramBusy := rfl
  have hmm : (s.step ddr i).mm = (s.mm.next true (s.mmIn i)).setWindow i.ports.vga.memmode :=
    MainMemory.step_of_not_reset (i := s.mmIn i) hr
  rw [hmm]
  simp only [Writer.step, Writer.dispatches, MainMemory.setWindow]
  rcases h.mmState with ⟨hb, hst⟩ | ⟨hb, hst | hst⟩
  · simp only [MainMemory.next, hst, hb, MainMemory.idle, h.access, Bool.false_eq_true, if_false, Bool.not_false,
      Bool.and_true]
    cases w.write && w.mailbox (inHole s.boot.bootAddr)
    · simp [hst, h.vgaBusy, hb]
    · simp only [if_true, MainMemory.acceptShared, hreq, hwr]
      split
      · simp
      · simp
  · simp [MainMemory.next, hst, MainMemory.sharedDropNext, hb, BootSystem.writerIn, MainMemory.clearPulses]
  · simp only [MainMemory.next, hst, MainMemory.fbWriteNext, hb, if_true, BootSystem.writerIn, hbusy]
    cases i.ddramBusy
    · simp [MainMemory.clearPulses]
    · simp [MainMemory.clearPulses, hst, h.vgaBusy, hb]

/-- The write on the port in the copy is the phase's. -/
theorem phase_write (hs : w.bootState = .writeCopy) (phase : BitVec 2) :
    s.boot.phaseAddress phase = writeAddress s.boot.bootAddr phase ∧
      s.boot.phaseData phase = writeData s.boot.bootReadData phase := by
  have hdest := (h.data hs).2
  have hphase : ∀ p : BitVec 2, p = 0 ∨ p = 1 ∨ p = 2 ∨ p = 3 := by decide
  rcases hphase phase with rfl | rfl | rfl | rfl
  all_goals simp [BootLoader.phaseAddress, BootLoader.phaseData, writeAddress, writeData, pickDword, hdest]

theorem pending_step : (s.step ddr i).pending =
    if w.rd && !i.ddramBusy then some (ddr (BootLoader.ddramAddr s.boot.bootAddr))
    else if i.ddramAnswers then none else s.pending := by
  simp only [BootSystem.step, h.notDone, h.rd, Bool.not_false, Bool.true_and]

theorem rd_of_ne (hs : w.bootState ≠ .ddrReq) : w.rd = false :=
  Bool.eq_false_iff.2 fun hrd => hs (h.rdReq hrd)

theorem pending_of_ne (hs : w.bootState ≠ .ddrReq) : (s.step ddr i).pending =
    if i.ddramAnswers then none
    else if w.bootState = .ddrWait then some (ddr (BootLoader.ddramAddr s.boot.bootAddr)) else none := by
  rw [h.pending_step, h.rd_of_ne hs, Bool.false_and, if_neg Bool.false_ne_true, h.pending]

section Step

variable (hr : i.ports.reset = false)
include hr

omit h in
theorem boot_step : (s.step ddr i).boot = s.boot.next (s.bootIn i) := by
  have hrst : (s.bootIn i).rst = false := hr
  simp only [BootSystem.step, BootLoader.step, hrst, Bool.false_eq_true, if_false]

theorem step_idle (hs : w.bootState = .idle) :
    Tracks ddr (w.step (inHole s.boot.bootAddr) (isLast s.boot.bootAddr) (s.writerIn i)) (s.step ddr i) := by
  obtain ⟨hbusy, hacc, hst⟩ := h.mm_step hr (isLast s.boot.bootAddr)
  obtain ⟨hcool, hle, hready⟩ := h.sdram_step (i := i) (isLast s.boot.bootAddr)
  have hrd := h.rd_of_ne (by rw [hs]; decide)
  have hpend := h.pending_of_ne (i := i) (by rw [hs]; decide)
  have hboot : (s.step ddr i).boot = _ := boot_step hr
  obtain ⟨ha, h8⟩ := h.addr
  simp only [hs, reduceCtorEq, if_false, ite_self] at hpend
  simp only [BootLoader.next, h.bootState, hs] at hboot
  cases hm : i.memBusy
  · simp only [BootSystem.bootIn, hm, Bool.not_false, if_true] at hboot
    refine ⟨?_, ?_, ?_, ?_, ?_, ?_, ?_, ?_, ?_, ?_, hbusy, hacc, hst, hcool, hle, hready⟩
    all_goals simp [hboot, Writer.step, Writer.nextState, BootSystem.writerIn, hs, hm, h.notDone, h.phase, hpend]
  · simp only [BootSystem.bootIn, hm, Bool.not_true, Bool.false_eq_true, if_false] at hboot
    refine ⟨?_, ?_, ?_, ?_, ?_, ?_, ?_, ?_, ?_, ?_, hbusy, hacc, hst, hcool, hle, hready⟩
    all_goals simp [hboot, Writer.step, Writer.nextState, BootSystem.writerIn, hs, hm, h.notDone, h.phase, hpend, hrd,
      ha, h8]

theorem step_ddrReq (hs : w.bootState = .ddrReq) :
    Tracks ddr (w.step (inHole s.boot.bootAddr) (isLast s.boot.bootAddr) (s.writerIn i)) (s.step ddr i) := by
  obtain ⟨hbusy, hacc, hst⟩ := h.mm_step hr (isLast s.boot.bootAddr)
  obtain ⟨hcool, hle, hready⟩ := h.sdram_step (i := i) (isLast s.boot.bootAddr)
  have hpend := h.pending_step (i := i)
  have hboot : (s.step ddr i).boot = _ := boot_step hr
  obtain ⟨ha, h8⟩ := h.addr
  simp only [h.pending, hs, reduceCtorEq, if_false, ite_self] at hpend
  simp only [BootLoader.next, h.bootState, hs, h.rd] at hboot
  cases hacc' : w.rd && !i.ddramBusy
  · simp only [BootSystem.bootIn, hacc', Bool.false_eq_true, if_false] at hboot hpend
    refine ⟨?_, ?_, ?_, ?_, ?_, ?_, ?_, ?_, ?_, ?_, hbusy, hacc, hst, hcool, hle, hready⟩
    all_goals simp [hboot, Writer.step, Writer.nextState, BootSystem.writerIn, hs, hacc', h.notDone, h.phase, hpend,
      ha, h8]
  · simp only [BootSystem.bootIn, hacc', if_true] at hboot hpend
    refine ⟨?_, ?_, ?_, ?_, ?_, ?_, ?_, ?_, ?_, ?_, hbusy, hacc, hst, hcool, hle, hready⟩
    all_goals simp [hboot, Writer.step, Writer.nextState, BootSystem.writerIn, hs, hacc', h.notDone, h.phase, hpend,
      ha, h8]

/-- The answer to the read is the eight bytes at the loader's address. -/
theorem step_ddrWait (hs : w.bootState = .ddrWait) :
    Tracks ddr (w.step (inHole s.boot.bootAddr) (isLast s.boot.bootAddr) (s.writerIn i)) (s.step ddr i) := by
  obtain ⟨hbusy, hacc, hst⟩ := h.mm_step hr (isLast s.boot.bootAddr)
  obtain ⟨hcool, hle, hready⟩ := h.sdram_step (i := i) (isLast s.boot.bootAddr)
  have hrd := h.rd_of_ne (by rw [hs]; decide)
  have hpend := h.pending_of_ne (i := i) (by rw [hs]; decide)
  have hpend₀ := h.pending
  have hboot : (s.step ddr i).boot = _ := boot_step hr
  obtain ⟨ha, h8⟩ := h.addr
  rw [hs, if_pos rfl] at hpend hpend₀
  simp only [BootLoader.next, h.bootState, hs, BootSystem.bootIn, hpend₀, Option.isSome_some, Bool.and_true,
    Option.getD_some] at hboot
  cases hans : i.ddramAnswers
  · simp only [hans, Bool.false_eq_true, if_false] at hboot hpend
    refine ⟨?_, ?_, ?_, ?_, ?_, ?_, ?_, ?_, ?_, ?_, hbusy, hacc, hst, hcool, hle, hready⟩
    all_goals simp [hboot, Writer.step, Writer.nextState, BootSystem.writerIn, hs, hans, h.notDone, h.phase, hpend, hrd,
      ha, h8]
  · simp only [hans, if_true] at hboot hpend
    refine ⟨?_, ?_, ?_, ?_, ?_, ?_, ?_, ?_, ?_, ?_, hbusy, hacc, hst, hcool, hle, hready⟩
    all_goals simp [hboot, Writer.step, Writer.nextState, BootSystem.writerIn, hs, hans, h.notDone, hpend, hrd, ha, h8]

omit hr in
theorem pending_copy (hs : w.bootState = .writeCopy) : (s.step ddr i).pending = none := by
  have hne : BootState.writeCopy ≠ .ddrWait := by decide
  rw [h.pending_of_ne (by rw [hs]; decide), hs, if_neg hne, ite_self]

/-- The loader's registers in the copy, its port showing the write of the phase. -/
theorem boot_copy (hs : w.bootState = .writeCopy) :
    (s.step ddr i).boot =
      let b := { s.boot with
        ddramRdR := false, sdAvmAddress := writeAddress s.boot.bootAddr w.phase,
        sdAvmWritedata := writeData s.boot.bootReadData w.phase, sdAvmByteenable := 0xF, sdAvmWrite := true }
      if w.ready then
        if w.phase != 3 then { b with bootWritePhase := w.phase + 1 }
        else if s.boot.bootAddr == 0x0003FFF8#32 then { b with bootState := .complete }
        else { b with bootAddr := s.boot.bootAddr + 8#32, bootState := .ddrReq }
      else b := by
  obtain ⟨hwa, hwd⟩ := h.phase_write hs w.phase
  rw [boot_step hr]
  simp only [BootLoader.next, BootLoader.writeCopy, h.bootState, hs, BootSystem.bootIn, h.mmReady, h.phase, hwa, hwd]

/-- No acknowledge yet, or one that is not the last of the group. -/
theorem step_phase (hs : w.bootState = .writeCopy) (hadv : w.ready = true → w.phase ≠ 3#2) :
    Tracks ddr (w.step (inHole s.boot.bootAddr) (isLast s.boot.bootAddr) (s.writerIn i)) (s.step ddr i) := by
  obtain ⟨hbusy, hacc, hst⟩ := h.mm_step hr (isLast s.boot.bootAddr)
  obtain ⟨hcool, hle, hready⟩ := h.sdram_step (i := i) (isLast s.boot.bootAddr)
  have hrd := h.rd_of_ne (by rw [hs]; decide)
  have hpend := h.pending_copy (i := i) hs
  have hboot := h.boot_copy hr hs
  obtain ⟨ha, h8⟩ := h.addr
  cases hrdy : w.ready
  · simp only [hrdy, Bool.false_eq_true, if_false] at hboot
    refine ⟨?_, ?_, ?_, ?_, ?_, ?_, ?_, ?_, ?_, ?_, hbusy, hacc, hst, hcool, hle, hready⟩
    all_goals simp [hboot, Writer.step, Writer.nextState, hs, hrdy, h.bootState, h.notDone, h.phase, hpend, hrd, ha, h8,
      h.data hs]
  · have hp := hadv hrdy
    have hp' : (w.phase != 3) = true := by simpa using hp
    simp only [hrdy, hp', if_true] at hboot
    refine ⟨?_, ?_, ?_, ?_, ?_, ?_, ?_, ?_, ?_, ?_, hbusy, hacc, hst, hcool, hle, hready⟩
    all_goals simp [hboot, Writer.step, Writer.nextState, hs, hrdy, hp, h.bootState, h.notDone, hpend, hrd, ha, h8,
      h.data hs]

/-- The acknowledge of the last phase: on to the next group, or boot is complete. The port still shows the group just
copied. -/
theorem step_group (hs : w.bootState = .writeCopy) (hrdy : w.ready = true) (hp : w.phase = 3#2) :
    Tracks ddr (w.step (inHole s.boot.bootAddr) (isLast s.boot.bootAddr) (s.writerIn i)) (s.step ddr i) := by
  obtain ⟨hbusy, hacc, hst⟩ := h.mm_step hr (isLast s.boot.bootAddr)
  obtain ⟨hcool, hle, hready⟩ := h.sdram_step (i := i) (isLast s.boot.bootAddr)
  have hrd := h.rd_of_ne (by rw [hs]; decide)
  have hpend := h.pending_copy (i := i) hs
  have hboot := h.boot_copy hr hs
  obtain ⟨ha, h8⟩ := h.addr
  have h3 : (3#2 != 3) = false := rfl
  simp only [hrdy, if_true, hp, h3, Bool.false_eq_true, if_false] at hboot
  cases hl : isLast s.boot.bootAddr
  · have hne : ¬ s.boot.bootAddr = 0x0003FFF8#32 := by simpa [isLast] using hl
    have hadd : (s.boot.bootAddr + 8#32).toNat = s.boot.bootAddr.toNat + 8 := by
      rw [BitVec.toNat_add, BitVec.toNat_ofNat]; omega
    have hlt : s.boot.bootAddr.toNat ≠ 0x3FFF8 := fun heq => hne (BitVec.eq_of_toNat_eq heq)
    simp only [beq_iff_eq, hne, if_false] at hboot
    rw [hl] at hbusy hacc hst hcool hle hready
    refine ⟨?_, ?_, ?_, ?_, ?_, ?_, ?addr, ?port, ?_, ?_, hbusy, hacc, hst, hcool, hle, hready⟩
    case addr => rw [hboot, hadd]; omega
    case port =>
      exact fun _ => ⟨s.boot.bootAddr, ha, h8, by simp [hboot, Writer.step, Writer.nextState, hs, hrdy, hp]⟩
    all_goals simp [hboot, Writer.step, Writer.nextState, hs, hrdy, hp, h.notDone, h.phase, hpend, hrd]
  · have heq : s.boot.bootAddr = 0x0003FFF8#32 := by simpa [isLast] using hl
    simp only [beq_iff_eq, heq, if_true] at hboot
    rw [hl] at hbusy hacc hst hcool hle hready
    refine ⟨?_, ?_, ?_, ?_, ?_, ?_, ?_, ?port, ?_, ?_, hbusy, hacc, hst, hcool, hle, hready⟩
    case port =>
      exact fun _ =>
        ⟨s.boot.bootAddr, ha, h8, by simp [hboot, Writer.step, Writer.nextState, hs, hrdy, hp, heq]⟩
    all_goals simp [hboot, Writer.step, Writer.nextState, hs, hrdy, hp, h.notDone, h.phase, hpend, hrd]

/-- Every edge of the system is an edge of the writer as long as boot is not over. -/
theorem step (hc : w.bootState ≠ .complete) :
    Tracks ddr (w.step (inHole s.boot.bootAddr) (isLast s.boot.bootAddr) (s.writerIn i)) (s.step ddr i) := by
  cases hs : w.bootState with
  | complete => exact absurd hs hc
  | idle => exact h.step_idle hr hs
  | ddrReq => exact h.step_ddrReq hr hs
  | ddrWait => exact h.step_ddrWait hr hs
  | writeCopy =>
    by_cases hadv : w.ready = true ∧ w.phase = 3#2
    · exact h.step_group hr hs hadv.1 hadv.2
    · exact h.step_phase hr hs fun hrdy hp => hadv ⟨hrdy, hp⟩

end Step

end Tracks

end Z486.Boot
