/-
Single accesses to the VGA window while the SVGA framebuffer is off. The VGA is a device of one byte: `main_memory`
strobes the enabled bytes of the CPU's dword one after the other, shifts the bytes read into the dword it returns, and
lets the disabled ones pass without a strobe. The VGA sees what it would see if the CPU accessed it byte by byte.
-/
import Z486.Clocked.Fifo
import Z486.Clocked.Run
import Z486.Memory.MainMemory

namespace Z486.Memory

open Clocked

variable {σ : Type*}

/-! ## Byte accesses -/

/-- What a strobe asks of the VGA. -/
inductive VgaOp
  | read (address : BitVec 17)
  | write (address : BitVec 17) (data : BitVec 8)
  | writeDword (address : BitVec 17) (data : BitVec 32)

/-- The VGA behind its memory port: what an access does to it, and the byte that a read gives. -/
structure VgaDevice (σ : Type*) where
  next : σ → VgaOp → σ
  gives : σ → BitVec 17 → BitVec 8

namespace VgaDevice

variable (dev : VgaDevice σ)

def perform (v : σ) (ops : List VgaOp) : σ := ops.foldl dev.next v

theorem perform_append (v : σ) (a b : List VgaOp) : dev.perform v (a ++ b) = dev.perform (dev.perform v a) b :=
  List.foldl_append

end VgaDevice

namespace CpuReq

variable (c : CpuReq)

/-- The enabled bytes below byte `n`, in ascending order. -/
def enabled (n : Nat) : List Nat := (List.range n).filter c.be.getLsbD

def laneAddress (k : Nat) : BitVec 17 := c.addr.extractLsb' 2 15 ++ BitVec.ofNat 2 k

def strobeData (k : Nat) : BitVec 8 := c.din.extractLsb' (8 * k) 8

/-- The access to byte `k`. -/
def laneOp (k : Nat) : VgaOp := if c.write then .write (c.laneAddress k) (c.strobeData k) else .read (c.laneAddress k)

/-- The accesses to the enabled bytes below byte `n`. -/
def opsBelow (n : Nat) : List VgaOp := (c.enabled n).map c.laneOp

/-- The access, byte by byte. -/
def byteOps : List VgaOp := c.opsBelow 4

/-- What the VGA gives for byte `k` when the bytes are read one after the other. -/
def given (dev : VgaDevice σ) (v : σ) (k : Nat) : BitVec 8 := dev.gives (dev.perform v (c.opsBelow k)) (c.laneAddress k)

theorem opsBelow_enabled {k : Nat} (h : c.be.getLsbD k = true) : c.opsBelow (k + 1) = c.opsBelow k ++ [c.laneOp k] := by
  simp [opsBelow, enabled, List.range_succ, h]

theorem opsBelow_disabled {k : Nat} (h : c.be.getLsbD k = false) : c.opsBelow (k + 1) = c.opsBelow k := by
  simp [opsBelow, enabled, List.range_succ, h]

end CpuReq

/-! ## `main_memory` with the VGA on its port -/

/-- The strobes of a clock. -/
def MainMemory.strobes (s : MainMemory) : List VgaOp :=
  (if s.vgaRead then [.read s.vgaAddress] else []) ++
    (if s.vgaWrite then [.write s.vgaAddress s.vgaWritedata] else []) ++
    (if s.vgaWriteDword then [.writeDword s.vgaAddress s.vgaWritedataDword] else [])

/-- `shown` is the byte that the VGA shows for a read strobe of the clock before. -/
structure VgaSystem (σ : Type*) where
  mm : MainMemory
  vga : σ
  shown : Option (BitVec 8)

namespace VgaSystem

variable (dev : VgaDevice σ) (mailbox : Bool) (s : VgaSystem σ) (i : MainMemoryIn)

def mmIn : MainMemoryIn := { i with vgaReaddata := s.shown.getD i.vgaReaddata }

def step : VgaSystem σ where
  mm := s.mm.step mailbox (s.mmIn i)
  vga := dev.perform s.vga s.mm.strobes
  shown := if s.mm.vgaRead then some (dev.gives s.vga s.mm.vgaAddress) else none

end VgaSystem

namespace MainMemory

variable (mailbox : Bool) (s : MainMemory) (i : MainMemoryIn)

/-- An access to the VGA window is dispatched while the framebuffer is off. -/
def dispatchesVga : Bool := s.state == .idle && s.access mailbox i == .vga && !i.vga.fbEn

/-- No access to the VGA is under way. -/
def vgaRests : Bool := s.state != .vgaRead && s.state != .vgaWrite

end MainMemory

/-- A run with any VGA, in which every access to its window has an enabled byte and does not take the dword path. -/
structure VgaRun (σ : Type*) where
  mailbox : Bool
  device : VgaDevice σ
  start : VgaSystem σ
  inputs : Nat → MainMemoryIn
  running : ∀ t, (inputs t).reset = false
  rests : start.mm.vgaRests = true
  quiet : start.mm.strobes = []
  bytes : ∀ t, (run (VgaSystem.step device mailbox) start inputs t).mm.dispatchesVga mailbox (inputs t) = true →
    (inputs t).cpu.be ≠ 0 ∧ ((inputs t).cpu.write = true → (inputs t).vga.dwordWriteOk = true → (inputs t).cpu.be ≠ 0xF)

namespace VgaRun

variable (r : VgaRun σ)

def sys (t : Nat) : VgaSystem σ := run (VgaSystem.step r.device r.mailbox) r.start r.inputs t

def mm (t : Nat) : MainMemory := (r.sys t).mm

def dispatches (t : Nat) : Bool := (r.mm t).dispatchesVga r.mailbox (r.inputs t)

/-- The accesses dispatched before clock `t`. -/
def accesses (t : Nat) : List CpuReq := journal (fun u => if r.dispatches u then [(r.inputs u).cpu] else []) t

/-- The strobes of the `n` clocks behind clock `t`. -/
def strobesAfter (t n : Nat) : List VgaOp := journal (fun k => (r.mm (t + 1 + k)).strobes) n

/-- The access dispatched in clock `t` is over in clock `t + 1 + n`. -/
structure PerformedIn (t n : Nat) : Prop where
  ends : (r.mm (t + 1 + n)).state = .idle
  busy : ∀ k, k < n → (r.mm (t + 1 + k)).state ≠ .idle
  strobes : r.strobesAfter t n = (r.inputs t).cpu.byteOps
  state : (r.sys (t + 1 + n)).vga = r.device.perform (r.sys t).vga (r.inputs t).cpu.byteOps
  wrDone : pulses (fun u => (r.mm u).vgaWrDone) (t + 1) (t + 1 + n + 1) = if (r.inputs t).cpu.write then 1 else 0
  response : pulses (fun u => (r.mm u).vgaDoutReady) (t + 1) (t + 1 + n + 1) = if (r.inputs t).cpu.write then 0 else 1
  data : (r.inputs t).cpu.write = false → ∀ k ∈ (r.inputs t).cpu.enabled 4,
    ((r.mm (t + 1 + n)).cpuDout (r.inputs (t + 1 + n))).extractLsb' (8 * k) 8 =
      (r.inputs t).cpu.given r.device (r.sys t).vga k

/-- Every access does what the accesses to its enabled bytes do, and between accesses the VGA is in the state that
they leave. -/
structure Bytewise : Prop where
  performed : ∀ t, r.dispatches t = true → ∃ n, r.PerformedIn t n
  state : ∀ t, (r.mm t).vgaRests = true →
    (r.sys t).vga = r.device.perform r.start.vga ((r.accesses t).flatMap CpuReq.byteOps)

theorem sys_succ (t : Nat) : r.sys (t + 1) = (r.sys t).step r.device r.mailbox (r.inputs t) := run_succ _ _ _ _

end VgaRun

/-! ## A byte of an access -/

/-- The access to byte `k` is under way: its strobe is on the port, or has been. -/
structure Lane (dev : VgaDevice σ) (c : CpuReq) (v : σ) (k : Nat) (strobe : Bool) (s : VgaSystem σ) : Prop where
  lane : k < 4
  address : s.mm.vgaAddress = c.laneAddress k
  be : s.mm.vgaBe = c.be >>> (k + 1)
  enabled : strobe = true → c.be.getLsbD k = true
  vga : s.vga = dev.perform v (c.opsBelow (if strobe then k else k + 1))
  noDword : s.mm.vgaWriteDword = false
  noResponse : s.mm.vgaDoutReady = false
  noDone : s.mm.vgaWrDone = false

/-- A byte of a read; the bytes before it are in the upper end of the dword. -/
structure ReadLane (dev : VgaDevice σ) (c : CpuReq) (v : σ) (k : Nat) (strobe : Bool) (s : VgaSystem σ) : Prop
    extends Lane dev c v k strobe s where
  state : s.mm.state = .vgaRead
  strobes : s.mm.vgaRead = strobe
  noWrite : s.mm.vgaWrite = false
  bcnt : s.mm.vgaBcnt = BitVec.ofNat 3 (3 - k)
  shown : strobe = false → c.be.getLsbD k = true → s.shown = some (c.given dev v k)
  filled : ∀ j, j < k → c.be.getLsbD j = true →
    s.mm.vgaDout.extractLsb' (8 * (4 - k + j)) 8 = c.given dev v j

/-- A byte of a write; the bytes behind it wait in `vga_data`. -/
structure WriteLane (dev : VgaDevice σ) (c : CpuReq) (v : σ) (k : Nat) (strobe : Bool) (s : VgaSystem σ) : Prop
    extends Lane dev c v k strobe s where
  state : s.mm.state = .vgaWrite
  strobes : s.mm.vgaWrite = strobe
  noRead : s.mm.vgaRead = false
  data : strobe = true → s.mm.vgaWritedata = c.strobeData k
  rest : s.mm.vgaData = c.din >>> (8 * (k + 1))

/-- The access is over. -/
structure Performed (dev : VgaDevice σ) (c : CpuReq) (v : σ) (s : VgaSystem σ) : Prop where
  state : s.mm.state = .idle
  strobes : s.mm.strobes = []
  vga : s.vga = dev.perform v c.byteOps
  wrDone : s.mm.vgaWrDone = c.write
  response : s.mm.vgaDoutReady = !c.write
  data : c.write = false → ∀ k, k < 4 → c.be.getLsbD k = true →
    s.mm.vgaDout.extractLsb' (8 * k) 8 = c.given dev v k

section Shifts

theorem laneAddress_succ (c : CpuReq) (k : Nat) :
    (c.laneAddress k).extractLsb' 2 15 ++ ((c.laneAddress k).extractLsb' 0 2 + 1) = c.laneAddress (k + 1) := by
  unfold CpuReq.laneAddress
  rw [BitVec.extractLsb'_append_eq_left, BitVec.extractLsb'_append_eq_right, BitVec.ofNat_add]
  rfl

theorem be_succ (be : BitVec 4) {k : Nat} (hk : k < 4) :
    0#1 ++ (be >>> (k + 1)).extractLsb' 1 3 = be >>> (k + 1 + 1) := by
  revert be k
  decide

theorem be_bit (be : BitVec 4) (k : Nat) : (be >>> (k + 1)).getLsbD 0 = be.getLsbD (k + 1) := by
  rw [BitVec.getLsbD_ushiftRight, Nat.add_zero]

theorem zero_append_upper {a b : Nat} (d : BitVec (a + b)) : 0#a ++ d.extractLsb' a b = d >>> a := by
  refine BitVec.eq_of_getLsbD_eq fun j hj => ?_
  rw [BitVec.getLsbD_append, BitVec.getLsbD_ushiftRight]
  by_cases hlow : j < b
  · rw [if_pos hlow, BitVec.getLsbD_extractLsb', decide_eq_true hlow, Bool.true_and]
  · rw [if_neg hlow, BitVec.getLsbD_zero, BitVec.getLsbD_of_ge _ _ (by omega)]

theorem dword_succ (d : BitVec 32) (n : Nat) : 0#8 ++ (d >>> n).extractLsb' 8 24 = d >>> (n + 8) :=
  (zero_append_upper (a := 8) (b := 24) (d >>> n)).trans (BitVec.shiftRight_add d n 8).symm

theorem dword_low (d : BitVec 32) (n : Nat) : (d >>> n).extractLsb' 0 8 = d.extractLsb' n 8 := by
  refine BitVec.eq_of_getLsbD_eq fun j hj => ?_
  rw [BitVec.getLsbD_extractLsb', BitVec.getLsbD_extractLsb', BitVec.getLsbD_ushiftRight, Nat.zero_add]

theorem upper_byte (d : BitVec 32) {n : Nat} (hn : n + 8 ≤ 24) :
    (d.extractLsb' 8 24).extractLsb' n 8 = d.extractLsb' (8 + n) 8 := by
  refine BitVec.eq_of_getLsbD_eq fun j hj => ?_
  rw [BitVec.getLsbD_extractLsb', BitVec.getLsbD_extractLsb', BitVec.getLsbD_extractLsb', Nat.add_assoc,
    decide_eq_true (show n + j < 24 by omega), Bool.true_and]

theorem bcnt_last : ∀ k < 4, (BitVec.ofNat 3 (3 - k) == 0) = decide (k = 3) := by decide

theorem bcnt_succ : ∀ k < 3, BitVec.ofNat 3 (3 - k) - 1 = BitVec.ofNat 3 (3 - (k + 1)) := by decide

end Shifts

/-! ## A clock of an access -/

section Clock

variable {dev : VgaDevice σ} {mailbox : Bool} {c : CpuReq} {v : σ} {k : Nat} {strobe : Bool} {s : VgaSystem σ}
  {i : MainMemoryIn}

theorem VgaSystem.step_mm (hr : i.reset = false) :
    (s.step dev mailbox i).mm = (s.mm.next mailbox (s.mmIn i)).setWindow i.vga.memmode :=
  MainMemory.step_of_not_reset (i := s.mmIn i) hr

theorem ReadLane.strobes_eq (h : ReadLane dev c v k strobe s) (hc : c.write = false) :
    s.mm.strobes = if strobe then [c.laneOp k] else [] := by
  rw [MainMemory.strobes, h.strobes, h.noWrite, h.noDword, CpuReq.laneOp, hc, h.address]
  cases strobe <;> rfl

theorem WriteLane.strobes_eq (h : WriteLane dev c v k strobe s) (hc : c.write = true) :
    s.mm.strobes = if strobe then [c.laneOp k] else [] := by
  rw [MainMemory.strobes, h.strobes, h.noRead, h.noDword, CpuReq.laneOp, hc, h.address]
  cases hs : strobe with
  | true =>
    rw [h.data hs]
    rfl
  | false => rfl

/-- The strobe is performed. -/
theorem Lane.vga_step (h : Lane dev c v k strobe s) (hs : s.mm.strobes = if strobe then [c.laneOp k] else []) :
    (s.step dev mailbox i).vga = dev.perform v (c.opsBelow (k + 1)) := by
  show dev.perform s.vga s.mm.strobes = _
  rw [h.vga, hs, ← dev.perform_append]
  cases hst : strobe with
  | true => rw [c.opsBelow_enabled (h.enabled hst), if_pos rfl, if_pos rfl]
  | false =>
    rw [if_neg (by simp), if_neg (by simp), List.append_nil]

/-- The VGA after the bytes up to `k`, as the next byte finds it. -/
theorem perform_next (be : Bool) (hbe : c.be.getLsbD (k + 1) = be) :
    dev.perform v (c.opsBelow (k + 1)) = dev.perform v (c.opsBelow (if be then k + 1 else k + 1 + 1)) := by
  cases be with
  | true => rfl
  | false => rw [if_neg (by simp), c.opsBelow_disabled hbe]

theorem ReadLane.step_strobe (h : ReadLane dev c v k true s) (hr : i.reset = false) (hc : c.write = false) :
    ReadLane dev c v k false (s.step dev mailbox i) := by
  have hmm : (s.step dev mailbox i).mm = s.mm.clearPulses.setWindow i.vga.memmode := by
    rw [VgaSystem.step_mm hr]
    simp only [MainMemory.next, h.state, MainMemory.vgaReadNext, h.strobes]
    rfl
  have hvga : (s.step dev mailbox i).vga = _ := h.vga_step (h.strobes_eq hc)
  refine { lane := h.lane, address := ?_, be := ?_, enabled := nofun, vga := hvga, noDword := ?_, noResponse := ?_
           noDone := ?_, state := ?_, strobes := ?_, noWrite := ?_, bcnt := ?_, shown := fun _ _ => ?_
           filled := fun j hj hb => ?_ }
  all_goals try rw [hmm]
  · exact h.address
  · exact h.be
  · rfl
  · rfl
  · rfl
  · exact h.state
  · rfl
  · rfl
  · exact h.bcnt
  · show (if s.mm.vgaRead then some (dev.gives s.vga s.mm.vgaAddress) else none) = _
    rw [h.strobes, h.vga, h.address]
    rfl
  · exact h.filled j hj hb

/-- The byte shown goes to the upper end of the dword. -/
theorem ReadLane.filled_step (h : ReadLane dev c v k false s) {j : Nat} (hj : j < k + 1)
    (hb : c.be.getLsbD j = true) :
    ((s.mmIn i).vgaReaddata ++ s.mm.vgaDout.extractLsb' 8 24).extractLsb' (8 * (3 - k + j)) 8 = c.given dev v j := by
  have hk := h.lane
  rcases Nat.lt_succ_iff_lt_or_eq.1 hj with hlt | rfl
  · rw [BitVec.extractLsb'_append_eq_of_add_le (by omega), upper_byte _ (by omega),
      show 8 + 8 * (3 - k + j) = 8 * (4 - k + j) by omega]
    exact h.filled j hlt hb
  · rw [show 8 * (3 - j + j) = 24 by omega, BitVec.extractLsb'_append_eq_left, VgaSystem.mmIn, h.shown rfl hb]
    rfl

/-- The registers after a byte of a read. -/
theorem ReadLane.mm_step (h : ReadLane dev c v k false s) (hr : i.reset = false) :
    (s.step dev mailbox i).mm = MainMemory.setWindow
      (let b := { s.mm.clearPulses with
        vgaRead := c.be.getLsbD (k + 1), vgaBe := c.be >>> (k + 1 + 1), vgaBcnt := BitVec.ofNat 3 (3 - k) - 1
        vgaAddress := c.laneAddress (k + 1), vgaDout := (s.mmIn i).vgaReaddata ++ s.mm.vgaDout.extractLsb' 8 24 }
       if k = 3 then { b with vgaDoutReady := true, state := .idle, vgaBusy := false } else b) i.vga.memmode := by
  rw [VgaSystem.step_mm hr]
  simp only [MainMemory.next, h.state, MainMemory.vgaReadNext, MainMemory.nextVgaAddress, h.strobes, h.be, h.bcnt,
    h.address, be_bit, be_succ c.be h.lane, laneAddress_succ, bcnt_last k h.lane, Bool.not_false, if_true,
    decide_eq_true_eq]

theorem ReadLane.step_next (h : ReadLane dev c v k false s) (hr : i.reset = false) (hc : c.write = false)
    (hk : k ≠ 3) : ReadLane dev c v (k + 1) (c.be.getLsbD (k + 1)) (s.step dev mailbox i) := by
  have hmm : (s.step dev mailbox i).mm = _ := h.mm_step hr
  have hvga : (s.step dev mailbox i).vga = _ := h.vga_step (h.strobes_eq hc)
  rw [if_neg hk] at hmm
  have hlane := h.lane
  refine { lane := by omega, address := ?_, be := ?_, enabled := id, vga := ?_, noDword := ?_, noResponse := ?_
           noDone := ?_, state := ?_, strobes := ?_, noWrite := ?_, bcnt := ?_, shown := fun hs hb => ?_
           filled := fun j hj hb => ?_ }
  all_goals try rw [hmm]
  · rfl
  · rfl
  · rw [hvga, perform_next _ rfl]
  · rfl
  · rfl
  · rfl
  · exact h.state
  · rfl
  · rfl
  · exact bcnt_succ k (by omega)
  · rw [hb] at hs
    cases hs
  · show ((s.mmIn i).vgaReaddata ++ s.mm.vgaDout.extractLsb' 8 24).extractLsb' (8 * (4 - (k + 1) + j)) 8 = _
    rw [show 4 - (k + 1) + j = 3 - k + j by omega]
    exact h.filled_step hj hb

theorem ReadLane.step_last (h : ReadLane dev c v 3 false s) (hr : i.reset = false) (hc : c.write = false) :
    Performed dev c v (s.step dev mailbox i) := by
  have hmm : (s.step dev mailbox i).mm = _ := h.mm_step hr
  have hvga : (s.step dev mailbox i).vga = _ := h.vga_step (h.strobes_eq hc)
  rw [if_pos rfl] at hmm
  refine ⟨?_, ?_, hvga, ?_, ?_, fun _ k hk hb => ?_⟩
  all_goals rw [hmm]
  · rfl
  · have hbit : c.be.getLsbD 4 = false := BitVec.getLsbD_of_ge _ _ (by omega)
    show (if c.be.getLsbD 4 then _ else _) ++ _ ++ _ = _
    rw [hbit]
    rfl
  · exact hc.symm
  · rw [hc]
    rfl
  · have hfill := h.filled_step (i := i) hk hb
    rwa [Nat.sub_self, Nat.zero_add] at hfill

theorem WriteLane.step_strobe (h : WriteLane dev c v k true s) (hr : i.reset = false) (hc : c.write = true) :
    WriteLane dev c v k false (s.step dev mailbox i) := by
  have hmm : (s.step dev mailbox i).mm = s.mm.clearPulses.setWindow i.vga.memmode := by
    rw [VgaSystem.step_mm hr]
    simp only [MainMemory.next, h.state, MainMemory.vgaWriteNext, h.strobes]
    rfl
  have hvga : (s.step dev mailbox i).vga = _ := h.vga_step (h.strobes_eq hc)
  refine { lane := h.lane, address := ?_, be := ?_, enabled := nofun, vga := hvga, noDword := ?_, noResponse := ?_
           noDone := ?_, state := ?_, strobes := ?_, noRead := ?_, data := nofun, rest := ?_ }
  all_goals rw [hmm]
  · exact h.address
  · exact h.be
  · rfl
  · rfl
  · rfl
  · exact h.state
  · rfl
  · rfl
  · exact h.rest

/-- The registers after a byte of a write. -/
theorem WriteLane.mm_step (h : WriteLane dev c v k false s) (hr : i.reset = false) :
    (s.step dev mailbox i).mm = MainMemory.setWindow
      (let b := { s.mm.clearPulses with
        vgaWrite := c.be.getLsbD (k + 1), vgaBe := c.be >>> (k + 1 + 1), vgaAddress := c.laneAddress (k + 1)
        vgaWritedata := c.strobeData (k + 1), vgaData := c.din >>> (8 * (k + 1) + 8) }
       if c.be >>> (k + 1) = 0 then { b with state := .idle, vgaBusy := false, vgaWrDone := true } else b)
      i.vga.memmode := by
  rw [VgaSystem.step_mm hr]
  simp only [MainMemory.next, h.state, MainMemory.vgaWriteNext, MainMemory.nextVgaAddress, h.strobes, h.be, h.rest,
    h.address, be_bit, be_succ c.be h.lane, laneAddress_succ, dword_succ, dword_low, Bool.not_false, if_true,
    beq_iff_eq]
  rfl

/-- Without an enabled byte above `k` the access is performed. -/
theorem opsBelow_last (hbe : c.be >>> (k + 1) = 0) (hk : k < 4) : c.opsBelow (k + 1) = c.byteOps := by
  have hoff : ∀ j, k < j → c.be.getLsbD j = false := by
    intro j hj
    have hbit := congrArg (fun x : BitVec 4 => x.getLsbD (j - (k + 1))) hbe
    simp only [BitVec.getLsbD_ushiftRight] at hbit
    rw [Nat.add_sub_cancel' hj] at hbit
    exact hbit.trans BitVec.getLsbD_zero
  have hkeep : ∀ n, c.opsBelow (k + 1 + n) = c.opsBelow (k + 1) := by
    intro n
    induction n with
    | zero => rfl
    | succ n ih => rw [← Nat.add_assoc, c.opsBelow_disabled (hoff _ (by omega)), ih]
  have hall := hkeep (3 - k)
  rw [show k + 1 + (3 - k) = 4 by omega] at hall
  exact hall.symm

theorem WriteLane.step_next (h : WriteLane dev c v k false s) (hr : i.reset = false) (hc : c.write = true)
    (hbe : c.be >>> (k + 1) ≠ 0) : WriteLane dev c v (k + 1) (c.be.getLsbD (k + 1)) (s.step dev mailbox i) := by
  have hmm : (s.step dev mailbox i).mm = _ := h.mm_step hr
  have hvga : (s.step dev mailbox i).vga = _ := h.vga_step (h.strobes_eq hc)
  rw [if_neg hbe] at hmm
  have hlane := h.lane
  have hk : k ≠ 3 := by
    rintro rfl
    exact hbe (BitVec.ushiftRight_eq_zero (Nat.le_refl 4))
  refine { lane := by omega, address := ?_, be := ?_, enabled := id, vga := ?_, noDword := ?_, noResponse := ?_
           noDone := ?_, state := ?_, strobes := ?_, noRead := ?_, data := fun _ => ?_, rest := ?_ }
  all_goals try rw [hmm]
  · rfl
  · rfl
  · rw [hvga, perform_next _ rfl]
  · rfl
  · rfl
  · rfl
  · exact h.state
  · rfl
  · rfl
  · rfl
  · rfl

theorem WriteLane.step_last (h : WriteLane dev c v k false s) (hr : i.reset = false) (hc : c.write = true)
    (hbe : c.be >>> (k + 1) = 0) : Performed dev c v (s.step dev mailbox i) := by
  have hmm : (s.step dev mailbox i).mm = _ := h.mm_step hr
  have hvga : (s.step dev mailbox i).vga = _ := h.vga_step (h.strobes_eq hc)
  rw [if_pos hbe] at hmm
  have hbit : c.be.getLsbD (k + 1) = false := by
    rw [← be_bit, hbe]
    rfl
  refine ⟨?_, ?_, hvga.trans (by rw [opsBelow_last hbe h.lane]), ?_, ?_, fun hread => ?_⟩
  all_goals try rw [hmm]
  · rfl
  · show [] ++ (if c.be.getLsbD (k + 1) then _ else _) ++ _ = _
    rw [hbit]
    rfl
  · exact hc.symm
  · rw [hc]
    rfl
  · rw [hread] at hc
    cases hc

end Clock

/-! ## An access -/

/-- The access to byte `k`, in either direction. -/
def Stage (dev : VgaDevice σ) (c : CpuReq) (v : σ) (k : Nat) (strobe : Bool) (s : VgaSystem σ) : Prop :=
  (c.write = false ∧ ReadLane dev c v k strobe s) ∨ (c.write = true ∧ WriteLane dev c v k strobe s)

/-- The access is not over, and answers nothing. -/
structure UnderWay (s : MainMemory) : Prop where
  busy : s.vgaRests = false
  noResponse : s.vgaDoutReady = false
  noDone : s.vgaWrDone = false

theorem UnderWay.ne_idle {m : MainMemory} (h : UnderWay m) : m.state ≠ .idle := by
  intro hidle
  have hbusy := h.busy
  rw [MainMemory.vgaRests, hidle] at hbusy
  cases hbusy

/-- A bound on the clocks that the access to byte `k` and those behind it take. -/
def laneRank (k : Nat) (strobe : Bool) : Nat := 2 * (3 - k) + strobe.toNat

namespace Stage

variable {dev : VgaDevice σ} {mailbox : Bool} {c : CpuReq} {v : σ} {k : Nat} {strobe : Bool} {s : VgaSystem σ}
  {i : MainMemoryIn} (h : Stage dev c v k strobe s)
include h

theorem lane : Lane dev c v k strobe s := by
  rcases h with ⟨-, h⟩ | ⟨-, h⟩
  · exact h.toLane
  · exact h.toLane

theorem strobes_eq : s.mm.strobes = if strobe then [c.laneOp k] else [] := by
  rcases h with ⟨hc, h⟩ | ⟨hc, h⟩
  · exact h.strobes_eq hc
  · exact h.strobes_eq hc

theorem underWay : UnderWay s.mm := by
  refine ⟨?_, h.lane.noResponse, h.lane.noDone⟩
  rcases h with ⟨-, h⟩ | ⟨-, h⟩
  · rw [MainMemory.vgaRests, h.state]
    rfl
  · rw [MainMemory.vgaRests, h.state]
    rfl

/-- What has been strobed when the clock is over. -/
theorem strobed : c.opsBelow (if strobe then k else k + 1) ++ s.mm.strobes = c.opsBelow (k + 1) := by
  rw [h.strobes_eq]
  cases hs : strobe with
  | true => exact (c.opsBelow_enabled (h.lane.enabled hs)).symm
  | false => exact List.append_nil _

theorem step (hr : i.reset = false) :
    (Performed dev c v (s.step dev mailbox i) ∧ c.opsBelow (k + 1) = c.byteOps) ∨
      ∃ k' strobe', Stage dev c v k' strobe' (s.step dev mailbox i) ∧ laneRank k' strobe' < laneRank k strobe ∧
        c.opsBelow (k + 1) = c.opsBelow (if strobe' then k' else k' + 1) := by
  have hlt := h.lane.lane
  cases strobe with
  | true =>
    refine .inr ⟨k, false, ?_, Nat.lt_succ_self _, rfl⟩
    rcases h with ⟨hc, h⟩ | ⟨hc, h⟩
    · exact .inl ⟨hc, h.step_strobe hr hc⟩
    · exact .inr ⟨hc, h.step_strobe hr hc⟩
  | false =>
    have hops : c.opsBelow (k + 1) = c.opsBelow (if c.be.getLsbD (k + 1) then k + 1 else k + 1 + 1) := by
      cases hbe : c.be.getLsbD (k + 1) with
      | true => rfl
      | false => exact (c.opsBelow_disabled hbe).symm
    have hrank : k ≠ 3 → laneRank (k + 1) (c.be.getLsbD (k + 1)) < laneRank k false := by
      have hbit := Bool.toNat_lt (c.be.getLsbD (k + 1))
      unfold laneRank
      rw [Bool.toNat_false]
      omega
    rcases h with ⟨hc, h⟩ | ⟨hc, h⟩
    · by_cases hk : k = 3
      · subst hk
        exact .inl ⟨h.step_last hr hc, rfl⟩
      · exact .inr ⟨k + 1, _, .inl ⟨hc, h.step_next hr hc hk⟩, hrank hk, hops⟩
    · by_cases hbe : c.be >>> (k + 1) = 0
      · exact .inl ⟨h.step_last hr hc hbe, opsBelow_last hbe hlt⟩
      · have hnext : WriteLane dev c v (k + 1) _ (s.step dev mailbox i) := h.step_next hr hc hbe
        have hk := hnext.lane
        exact .inr ⟨k + 1, _, .inr ⟨hc, hnext⟩, hrank (by omega), hops⟩

end Stage

/-! ## Dispatch -/

section Dispatch

variable {dev : VgaDevice σ} {mailbox : Bool} {s : VgaSystem σ} {i : MainMemoryIn}

/-- An access begins with its lowest enabled byte. -/
theorem MainMemory.pointVga_eq (m : MainMemory) {c : CpuReq} (hbe : c.be ≠ 0) :
    ∃ k, k < 4 ∧ c.be.getLsbD k = true ∧ (∀ j, j < k → c.be.getLsbD j = false) ∧
      m.pointVga c = { m with
        vgaAddress := c.laneAddress k, vgaWritedata := c.strobeData k, vgaBe := c.be >>> (k + 1)
        vgaBcnt := BitVec.ofNat 3 (3 - k), vgaData := c.din >>> (8 * (k + 1)) } := by
  have hbits : ∀ be : BitVec 4, 0#1 ++ be.extractLsb' 1 3 = be >>> 1 ∧ 0#2 ++ be.extractLsb' 2 2 = be >>> 2 ∧
      0#3 ++ be.extractLsb' 3 1 = be >>> 3 ∧ 0#4 = be >>> 4 ∧
      (be.getLsbD 0 = false → be.getLsbD 1 = false → be.getLsbD 2 = false → be ≠ 0 → be.getLsbD 3 = true) := by decide
  obtain ⟨hbe1, hbe2, hbe3, hbe4, hlast⟩ := hbits c.be
  have hdata4 : 0#32 = c.din >>> 32 := (BitVec.ushiftRight_eq_zero (Nat.le_refl 32)).symm
  unfold pointVga
  split_ifs with h0 h1 h2
  · refine ⟨0, by omega, h0, nofun, ?_⟩
    rw [hbe1, zero_append_upper (a := 8) (b := 24) c.din]
    rfl
  · refine ⟨1, by omega, h1, fun j hj => ?_, ?_⟩
    · rw [Nat.lt_one_iff.1 hj]
      exact Bool.eq_false_iff.2 h0
    · rw [hbe2, zero_append_upper (a := 16) (b := 16) c.din]
      rfl
  · refine ⟨2, by omega, h2, fun j hj => ?_, ?_⟩
    · obtain rfl | rfl : j = 0 ∨ j = 1 := by omega
      · exact Bool.eq_false_iff.2 h0
      · exact Bool.eq_false_iff.2 h1
    · rw [hbe3, zero_append_upper (a := 24) (b := 8) c.din]
      rfl
  · refine ⟨3, by omega, hlast (by simpa using h0) (by simpa using h1) (by simpa using h2) hbe, fun j hj => ?_, ?_⟩
    · obtain rfl | rfl | rfl : j = 0 ∨ j = 1 ∨ j = 2 := by omega
      · exact Bool.eq_false_iff.2 h0
      · exact Bool.eq_false_iff.2 h1
      · exact Bool.eq_false_iff.2 h2
    · rw [← hbe4, ← hdata4]
      rfl

theorem opsBelow_first {c : CpuReq} {k : Nat} (h : ∀ j, j < k → c.be.getLsbD j = false) : c.opsBelow k = [] := by
  induction k with
  | zero => rfl
  | succ k ih => rw [c.opsBelow_disabled (h k (Nat.lt_succ_self k)), ih fun j hj => h j (Nat.lt_succ_of_lt hj)]

/-- The registers after the dispatch of an access that goes byte by byte. -/
theorem dispatch_mm (hd : s.mm.dispatchesVga mailbox i = true) (hr : i.reset = false)
    (hfast : i.cpu.write = true → i.vga.dwordWriteOk = true → i.cpu.be ≠ 0xF) :
    (s.step dev mailbox i).mm = MainMemory.setWindow
      (let b := { s.mm.clearPulses.pointVga i.cpu with
        fbShared := false, vgaAccepted := true, vgaBusy := true, fbLinear := false }
       if i.cpu.write then { b with state := .vgaWrite, vgaWrite := true }
       else { b with state := .vgaRead, vgaRead := true }) i.vga.memmode := by
  simp only [MainMemory.dispatchesVga, Bool.and_eq_true, beq_iff_eq, Bool.not_eq_true'] at hd
  obtain ⟨⟨hstate, haccess⟩, hfb⟩ := hd
  have haccess' : s.mm.access mailbox (s.mmIn i) = .vga := haccess
  have hfb' : (s.mmIn i).vga.fbEn = false := hfb
  rw [VgaSystem.step_mm hr]
  simp only [MainMemory.next, hstate, MainMemory.idle, haccess', MainMemory.acceptVga, MainMemory.prepare, hfb',
    Bool.not_false, if_true, Bool.false_eq_true, if_false]
  show MainMemory.setWindow (if !i.cpu.write then _ else if i.vga.dwordWriteOk && i.cpu.be == 0xF then _ else _) _ = _
  cases hw : i.cpu.write with
  | false => rfl
  | true =>
    have hslow : (i.vga.dwordWriteOk && i.cpu.be == 0xF) = false := by
      cases hok : i.vga.dwordWriteOk with
      | false => rfl
      | true => simpa using hfast hw hok
    rw [hslow]
    rfl

theorem dispatch_stage (hd : s.mm.dispatchesVga mailbox i = true) (hquiet : s.mm.strobes = [])
    (hr : i.reset = false) (hbe : i.cpu.be ≠ 0)
    (hfast : i.cpu.write = true → i.vga.dwordWriteOk = true → i.cpu.be ≠ 0xF) :
    ∃ k, Stage dev i.cpu s.vga k true (s.step dev mailbox i) ∧ i.cpu.opsBelow k = [] := by
  obtain ⟨k, hk, hbit, hfirst, hpoint⟩ := s.mm.clearPulses.pointVga_eq hbe
  have hops := opsBelow_first hfirst
  have hvga : (s.step dev mailbox i).vga = dev.perform s.vga (i.cpu.opsBelow k) := by
    show dev.perform s.vga s.mm.strobes = _
    rw [hquiet, hops]
  have hmm : (s.step dev mailbox i).mm = _ := dispatch_mm hd hr hfast
  rw [hpoint] at hmm
  refine ⟨k, ?_, hops⟩
  cases hw : i.cpu.write with
  | false =>
    rw [hw] at hmm
    refine .inl ⟨hw, ?_⟩
    refine { lane := hk, address := ?_, be := ?_, enabled := fun _ => hbit, vga := hvga, noDword := ?_, noResponse := ?_
             noDone := ?_, state := ?_, strobes := ?_, noWrite := ?_, bcnt := ?_, shown := nofun
             filled := fun j hj hb => ?_ }
    all_goals try rw [hmm]
    all_goals first | rfl | skip
    rw [hfirst j hj] at hb
    cases hb
  | true =>
    rw [hw] at hmm
    refine .inr ⟨hw, ?_⟩
    refine { lane := hk, address := ?_, be := ?_, enabled := fun _ => hbit, vga := hvga, noDword := ?_, noResponse := ?_
             noDone := ?_, state := ?_, strobes := ?_, noRead := ?_, data := fun _ => ?_, rest := ?_ }
    all_goals rw [hmm]
    all_goals rfl

/-- Nothing goes on at the port of the VGA. -/
structure NoVga (m : MainMemory) : Prop where
  notRead : m.state ≠ .vgaRead
  notWrite : m.state ≠ .vgaWrite
  vgaRead : m.vgaRead = false
  vgaWrite : m.vgaWrite = false
  vgaWriteDword : m.vgaWriteDword = false

theorem NoVga.strobes {m : MainMemory} (h : NoVga m) : m.strobes = [] := by
  rw [MainMemory.strobes, h.vgaRead, h.vgaWrite, h.vgaWriteDword]
  rfl

theorem NoVga.rests {m : MainMemory} (h : NoVga m) : m.vgaRests = true := by
  rw [MainMemory.vgaRests, Bool.and_eq_true, bne_iff_ne, bne_iff_ne]
  exact ⟨h.notRead, h.notWrite⟩

theorem noVga_prepare {m : MainMemory} (hs : m.state = .idle) : NoVga (m.prepare i) := by
  have hpoint : NoVga (m.clearPulses.pointVga i.cpu) ∧ NoVga m.clearPulses := by
    refine ⟨?_, by rw [MainMemory.clearPulses, hs]; exact ⟨nofun, nofun, rfl, rfl, rfl⟩⟩
    unfold MainMemory.pointVga MainMemory.clearPulses
    rw [hs]
    split_ifs
    all_goals exact ⟨nofun, nofun, rfl, rfl, rfl⟩
  unfold MainMemory.prepare
  split_ifs
  · exact ⟨hpoint.1.notRead, hpoint.1.notWrite, hpoint.1.vgaRead, hpoint.1.vgaWrite, hpoint.1.vgaWriteDword⟩
  · exact ⟨hpoint.2.notRead, hpoint.2.notWrite, hpoint.2.vgaRead, hpoint.2.vgaWrite, hpoint.2.vgaWriteDword⟩

theorem NoVga.acceptShared {m : MainMemory} (h : NoVga m) (c : CpuReq) : NoVga (m.acceptShared c) := by
  obtain ⟨-, -, hread, hwrite, hdword⟩ := h
  unfold MainMemory.acceptShared
  dsimp only
  split_ifs
  all_goals exact ⟨nofun, nofun, hread, hwrite, hdword⟩

theorem NoVga.acceptLinear {m : MainMemory} (h : NoVga m) (c : CpuReq) : NoVga (m.acceptLinear c) := by
  obtain ⟨-, -, hread, hwrite, hdword⟩ := h
  unfold MainMemory.acceptLinear
  dsimp only
  split_ifs
  all_goals exact ⟨nofun, nofun, hread, hwrite, hdword⟩

theorem NoVga.acceptBanked {m : MainMemory} (h : NoVga m) (c : CpuReq) (x : VgaModeIn) :
    NoVga (m.acceptBanked c x) := by
  obtain ⟨-, -, hread, hwrite, hdword⟩ := h
  unfold MainMemory.acceptBanked
  dsimp only
  split_ifs
  all_goals exact ⟨nofun, nofun, hread, hwrite, hdword⟩

theorem noVga_idle {m : MainMemory} (hs : m.state = .idle) (hd : m.dispatchesVga mailbox i = false) :
    NoVga (m.idle mailbox i) := by
  have hprepare : NoVga (m.prepare i) := noVga_prepare hs
  unfold MainMemory.idle
  cases ha : m.access mailbox i with
  | shared => exact hprepare.acceptShared i.cpu
  | unmappedRead => exact ⟨nofun, nofun, hprepare.vgaRead, hprepare.vgaWrite, hprepare.vgaWriteDword⟩
  | vgaBurst => exact ⟨nofun, nofun, hprepare.vgaRead, hprepare.vgaWrite, hprepare.vgaWriteDword⟩
  | linear => exact hprepare.acceptLinear i.cpu
  | vga =>
    have hfb : i.vga.fbEn = true := by
      rw [MainMemory.dispatchesVga, hs, ha] at hd
      simpa using hd
    show NoVga ((m.prepare i).acceptVga i.cpu i.vga)
    rw [MainMemory.acceptVga, hfb, if_pos rfl]
    refine NoVga.acceptBanked ?_ i.cpu i.vga
    exact ⟨hprepare.notRead, hprepare.notWrite, hprepare.vgaRead, hprepare.vgaWrite, hprepare.vgaWriteDword⟩
  | none => exact hprepare

/-- Without an access to it nothing reaches the VGA. -/
theorem noVga_step (hrest : s.mm.vgaRests = true) (hd : s.mm.dispatchesVga mailbox i = false) (hr : i.reset = false) :
    NoVga (s.step dev mailbox i).mm := by
  have hd' : s.mm.dispatchesVga mailbox (s.mmIn i) = false := hd
  have hstays : NoVga s.mm.clearPulses := by
    rw [MainMemory.vgaRests, Bool.and_eq_true, bne_iff_ne, bne_iff_ne] at hrest
    exact ⟨hrest.1, hrest.2, rfl, rfl, rfl⟩
  have hnext : NoVga (s.mm.next mailbox (s.mmIn i)) := by
    unfold MainMemory.next
    cases hs : s.mm.state with
    | idle => exact noVga_idle hs hd'
    | vgaRead =>
      rw [MainMemory.vgaRests, hs] at hrest
      cases hrest
    | vgaWrite =>
      rw [MainMemory.vgaRests, hs] at hrest
      cases hrest
    | fbWrite =>
      unfold MainMemory.fbWriteNext
      split_ifs
      · exact ⟨nofun, nofun, rfl, rfl, rfl⟩
      · exact hstays
    | fbRead =>
      unfold MainMemory.fbReadNext
      split_ifs
      · exact ⟨nofun, nofun, rfl, rfl, rfl⟩
      · exact hstays
    | fbReadWait =>
      unfold MainMemory.fbReadWaitNext
      dsimp only
      split_ifs
      all_goals first | exact hstays | exact ⟨nofun, nofun, rfl, rfl, rfl⟩
    | unmappedRead =>
      unfold MainMemory.unmappedReadNext
      dsimp only
      split_ifs
      · exact ⟨nofun, nofun, rfl, rfl, rfl⟩
      · exact ⟨hstays.notRead, hstays.notWrite, rfl, rfl, rfl⟩
    | sharedDrop => exact ⟨nofun, nofun, rfl, rfl, rfl⟩
  rw [VgaSystem.step_mm hr]
  exact ⟨hnext.notRead, hnext.notWrite, hnext.vgaRead, hnext.vgaWrite, hnext.vgaWriteDword⟩

end Dispatch

namespace VgaRun

variable {r : VgaRun σ} {c : CpuReq} {v : σ} {k : Nat} {strobe : Bool} {t : Nat}

/-- An access under way comes to its end, and strobes the rest of its bytes. -/
theorem ends (h : Stage r.device c v k strobe (r.sys t)) :
    ∃ n, 0 < n ∧ Performed r.device c v (r.sys (t + n)) ∧ (∀ j, j < n → UnderWay (r.mm (t + j))) ∧
      c.opsBelow (if strobe then k else k + 1) ++ journal (fun j => (r.mm (t + j)).strobes) n = c.byteOps := by
  generalize hm : laneRank k strobe = m
  induction m using Nat.strong_induction_on generalizing t k strobe with
  | _ m ih =>
    have hstep : Performed r.device c v (r.sys (t + 1)) ∧ _ ∨
        ∃ k' strobe', Stage r.device c v k' strobe' (r.sys (t + 1)) ∧ _ ∧ _ :=
      (r.sys_succ t).symm ▸ h.step (r.running t)
    rcases hstep with ⟨hdone, hops⟩ | ⟨k', strobe', hstage, hrank, hops⟩
    · refine ⟨1, Nat.one_pos, hdone, fun j hj => ?_, ?_⟩
      · rw [Nat.lt_one_iff.1 hj]
        exact h.underWay
      · rw [journal_succ, journal_zero, List.nil_append, ← hops]
        exact h.strobed
    · obtain ⟨n, -, hdone, hway, hrest⟩ := ih _ (hm ▸ hrank) hstage rfl
      refine ⟨n + 1, Nat.succ_pos n, ?_, fun j hj => ?_, ?_⟩
      · rwa [show t + (n + 1) = t + 1 + n by omega]
      · cases j with
        | zero => exact h.underWay
        | succ j =>
          rw [show t + (j + 1) = t + 1 + j by omega]
          exact hway j (by omega)
      · rw [← hops, ← h.strobed, List.append_assoc] at hrest
        rw [journal_cons, ← hrest]
        simp only [Nat.add_zero, Nat.add_assoc, Nat.add_comm 1, mm]

theorem no_pulses {n : Nat} (h : ∀ j, j < n → UnderWay (r.mm (t + j))) :
    pulses (fun u => (r.mm u).vgaWrDone) t (t + n) = 0 ∧ pulses (fun u => (r.mm u).vgaDoutReady) t (t + n) = 0 := by
  constructor
  · refine pulses_eq_zero fun u ht hu => ?_
    have hway := h (u - t) (by omega)
    rw [Nat.add_sub_cancel' ht] at hway
    exact hway.noDone
  · refine pulses_eq_zero fun u ht hu => ?_
    have hway := h (u - t) (by omega)
    rw [Nat.add_sub_cancel' ht] at hway
    exact hway.noResponse

/-- An access that is dispatched is performed, byte by byte. -/
theorem performs (hd : r.dispatches t = true) (hquiet : (r.mm t).strobes = []) :
    ∃ n, r.PerformedIn t n ∧ Performed r.device (r.inputs t).cpu (r.sys t).vga (r.sys (t + 1 + n)) ∧
      ∀ j, j < n → UnderWay (r.mm (t + 1 + j)) := by
  obtain ⟨hbe, hfast⟩ := r.bytes t hd
  obtain ⟨k, hstage, hops⟩ : ∃ k, Stage r.device (r.inputs t).cpu (r.sys t).vga k true (r.sys (t + 1)) ∧ _ :=
    dispatch_stage hd hquiet (r.running t) hbe hfast
  obtain ⟨n, -, hdone, hway, hstrobes⟩ := ends hstage
  obtain ⟨hnone, hnoneResponse⟩ := no_pulses hway
  rw [if_pos rfl, hops, List.nil_append] at hstrobes
  refine ⟨n, ⟨hdone.state, fun j hj => (hway j hj).ne_idle, hstrobes, hdone.vga, ?_, ?_, fun hw j hj => ?_⟩, hdone,
    hway⟩
  · have hpulse : (r.mm (t + 1 + n)).vgaWrDone = (r.inputs t).cpu.write := hdone.wrDone
    rw [pulses_succ _ (Nat.le_add_right _ _), hnone, Nat.zero_add, hpulse]
  · have hpulse : (r.mm (t + 1 + n)).vgaDoutReady = !(r.inputs t).cpu.write := hdone.response
    rw [pulses_succ _ (Nat.le_add_right _ _), hnoneResponse, Nat.zero_add, hpulse]
    cases (r.inputs t).cpu.write <;> rfl
  · obtain ⟨hlt, hbit⟩ := List.mem_filter.1 hj
    have hready : (r.mm (t + 1 + n)).vgaDoutReady = true := by
      rw [mm, hdone.response, hw]
      rfl
    rw [MainMemory.cpuDout, hready, if_pos rfl]
    exact hdone.data hw j (List.mem_range.1 hlt) hbit

theorem accesses_succ (t : Nat) :
    r.accesses (t + 1) = r.accesses t ++ if r.dispatches t then [(r.inputs t).cpu] else [] := journal_succ _ _

theorem accesses_underWay {n : Nat} (h : ∀ j, j < n → UnderWay (r.mm (t + j))) :
    r.accesses (t + n) = r.accesses t := by
  induction n with
  | zero => rfl
  | succ n ih =>
    have hno : r.dispatches (t + n) = false := by
      have hne := (h n (Nat.lt_succ_self n)).ne_idle
      rw [dispatches, MainMemory.dispatchesVga, beq_eq_false_iff_ne.2 hne]
      rfl
    rw [← Nat.add_assoc, accesses_succ, hno, ih fun j hj => h j (Nat.lt_succ_of_lt hj)]
    exact List.append_nil _

/-- Between accesses the VGA is in the state that the accesses so far leave, byte by byte. -/
structure Follows (r : VgaRun σ) (t : Nat) : Prop where
  rests : (r.mm t).vgaRests = true
  strobes : (r.mm t).strobes = []
  state : (r.sys t).vga = r.device.perform r.start.vga ((r.accesses t).flatMap CpuReq.byteOps)

theorem Follows.round (h : Follows r t) :
    ∃ n, Round (Follows r) (fun u => (r.mm u).vgaRests = true → Follows r u) t n := by
  cases hd : r.dispatches t with
  | false =>
    refine ⟨1, Nat.one_pos, fun k hk _ => ?_, ?_⟩
    · rw [Nat.lt_one_iff.1 hk]
      exact h
    · have hno : NoVga (r.mm (t + 1)) := noVga_step h.rests hd (r.running t)
      refine ⟨hno.rests, hno.strobes, ?_⟩
      have hvga : (r.sys (t + 1)).vga = r.device.perform (r.sys t).vga (r.mm t).strobes := rfl
      rw [hvga, h.strobes, accesses_succ, hd, if_neg (by simp), List.append_nil]
      exact h.state
  | true =>
    obtain ⟨n, -, hdone, hway⟩ := performs hd h.strobes
    refine ⟨1 + n, by omega, fun k hk hrest => ?_, ?_⟩
    · cases k with
      | zero => exact h
      | succ k =>
        have hbusy := (hway k (by omega)).busy
        rw [show t + 1 + k = t + (k + 1) by omega, hrest] at hbusy
        cases hbusy
    · rw [← Nat.add_assoc]
      refine ⟨?_, hdone.strobes, ?_⟩
      · rw [MainMemory.vgaRests, mm, hdone.state]
        rfl
      · rw [hdone.vga, accesses_underWay hway, accesses_succ, hd, if_pos rfl, List.flatMap_append,
          r.device.perform_append, ← h.state, List.flatMap_singleton]

theorem follows (r : VgaRun σ) (t : Nat) (hrest : (r.mm t).vgaRests = true) : Follows r t :=
  rounds (J := fun u => (r.mm u).vgaRests = true → Follows r u) ⟨r.rests, r.quiet, rfl⟩ (fun _ => Follows.round) t hrest

/-- Single accesses to the VGA window are the accesses to their enabled bytes. -/
theorem bytewise (r : VgaRun σ) : r.Bytewise where
  performed t hd := by
    have hrest : (r.mm t).vgaRests = true := by
      have hidle : (r.mm t).state = .idle := by
        simp only [dispatches, MainMemory.dispatchesVga, Bool.and_eq_true, beq_iff_eq] at hd
        exact hd.1.1
      rw [MainMemory.vgaRests, hidle]
      rfl
    obtain ⟨n, hperformed, -, -⟩ := performs hd (r.follows t hrest).strobes
    exact ⟨n, hperformed⟩
  state t hrest := (r.follows t hrest).state

/-- A VGA in which every access counts: a read gives the byte last written to its address plus the accesses so far. -/
def counting : VgaDevice (List VgaOp) where
  next v op := op :: v
  gives v a :=
    (v.findSome? fun
      | .write b data => if b == a then some data else none
      | _ => none).getD 0 + BitVec.ofNat 8 v.length

/-- A write of three bytes, and then a read of two of them. -/
def writeThenRead : VgaRun (List VgaOp) where
  mailbox := false
  device := counting
  start := { mm := .cleared, vga := [], shown := none }
  inputs t :=
    { reset := false
      cpu :=
        { valid := decide (t < 10), write := decide (t < 2), addr := 0xA1234, din := 0x11223344
          be := if t < 2 then 0xD else 0xC, burstcount := 1 }
      ramSize := 0, memDout := 0, memRespValid := false, memReady := false, vgaReaddata := 0
      vga :=
        { memmode := 4, dwordWriteOk := true, wrSeg := 0, rdSeg := 0, fbEn := false, chain4 := false, mapMask := 0
          readPlane := 0, writeMode := 0 }
      fbDdramDout := 0, fbDdramDoutReady := false, fbDdramBusy := false }
  running _ := rfl
  rests := rfl
  quiet := rfl
  bytes t _ := by
    have hbe : (if t < 2 then (0xD : BitVec 4) else 0xC) ≠ 0 ∧ (if t < 2 then (0xD : BitVec 4) else 0xC) ≠ 0xF := by
      split <;> decide
    exact ⟨hbe.1, fun _ _ => hbe.2⟩

/-- Byte 2 is read after three accesses, and byte 3 after four. -/
theorem writeThenRead_bytewise :
    writeThenRead.dispatches 0 = true ∧ writeThenRead.dispatches 8 = true ∧
      (writeThenRead.mm 13).vgaDout.extractLsb' 16 16 = 0x1525 ∧ writeThenRead.Bytewise :=
  ⟨by decide +kernel, by decide +kernel, by decide +kernel, bytewise writeThenRead⟩

end VgaRun

end Z486.Memory
