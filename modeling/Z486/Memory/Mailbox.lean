/-
The windows of DDR3 the guest can reach through `main_memory`: the 8 KiB of the mailbox, once its
unlocking write has been accepted, and the 8 MiB of the framebuffer. `main_memory` forwards a mailbox
burst as it is asked for, so that the mailbox is not left holds for bursts that end in it.
-/
import Z486.Memory.Service

namespace Z486.Memory

open Clocked

/-! ## Windows -/

/-- The 64-bit word is one of the mailbox, bytes 300CE000h to 300CFFFFh. -/
def InMailbox (word : BitVec 29) : Prop := 0x300CE000 ≤ 8 * word.toNat ∧ 8 * word.toNat < 0x300D0000

/-- The 64-bit word is one of the framebuffer, bytes 3F800000h to 3FFFFFFFh. -/
def InFramebuffer (word : BitVec 29) : Prop := 0x3F800000 ≤ 8 * word.toNat ∧ 8 * word.toNat < 0x40000000

theorem ddramWord_toNat (a : BitVec 32) : (ddramWord a).toNat = a.toNat / 8 := by
  have hlt := a.isLt
  unfold ddramWord
  rw [BitVec.extractLsb'_toNat, Nat.shiftRight_eq_div_pow]
  omega

theorem append_zero_toNat {n : Nat} (x : BitVec n) (k : Nat) : (0#k ++ x).toNat = x.toNat := by
  rw [BitVec.toNat_append]
  simp

/-- The base of the framebuffer covers bit 23 of what is put over it. -/
theorem inFramebuffer_or {a : BitVec 32} (h : a.toNat < 2 ^ 24) : InFramebuffer (ddramWord (0x3F800000#32 ||| a)) := by
  have hbase : (0x3F800000#32 : BitVec 32).toNat = 0x3F800000 := rfl
  have hle : 0x3F800000 ≤ (0x3F800000#32 ||| a).toNat := by
    rw [BitVec.toNat_or, hbase]
    exact Nat.left_le_or
  have hlt : (0x3F800000#32 ||| a).toNat < 2 ^ 30 := by
    rw [BitVec.toNat_or, hbase]
    exact Nat.or_lt_two_pow (by decide) (by omega)
  unfold InFramebuffer
  rw [ddramWord_toNat]
  omega

theorem inFramebuffer_linear (c : CpuReq) :
    InFramebuffer (ddramWord (0x3F800000#32 ||| (0#10 ++ c.addr.extractLsb' 0 22))) := by
  apply inFramebuffer_or
  rw [append_zero_toNat]
  have hlt := (c.addr.extractLsb' 0 22).isLt
  omega

theorem inFramebuffer_banked (chain4 : Bool) (c : CpuReq) (bank : BitVec 6) :
    InFramebuffer (ddramWord (framebufferByteAddress chain4 c bank)) := by
  unfold framebufferByteAddress
  apply inFramebuffer_or
  cases chain4
  · -- planar: the bank starts at bit 18
    rw [if_neg Bool.false_ne_true]
    generalize
    (if c.be.getLsbD 0 then 0#2 else if c.be.getLsbD 1 then 1#2 else if c.be.getLsbD 2 then 2#2 else 3#2) = lane
    have h : (0#8 ++ bank ++ c.addr.extractLsb' 2 14 ++ lane ++ 0#2 : BitVec 32) =
        0#8 ++ (bank ++ c.addr.extractLsb' 2 14 ++ lane ++ 0#2 : BitVec 24) := by
      simp only [BitVec.append_assoc, BitVec.cast_eq]
    rw [h, append_zero_toNat]
    exact (bank ++ c.addr.extractLsb' 2 14 ++ lane ++ 0#2 : BitVec 24).isLt
  · rw [if_pos rfl]
    have h : (0#10 ++ bank ++ c.addr.extractLsb' 0 16 : BitVec 32) =
        0#10 ++ (bank ++ c.addr.extractLsb' 0 16 : BitVec 22) := by
      simp only [BitVec.append_assoc, BitVec.cast_eq]
    rw [h, append_zero_toNat]
    have hlt := (bank ++ c.addr.extractLsb' 0 16 : BitVec 22).isLt
    omega

/-- The byte addresses of the mailbox on the CPU's side. -/
theorem CpuReq.addr_of_sharedRgn {mailbox : Bool} {c : CpuReq} (h : c.sharedRgn mailbox = true) :
    0xCE000 ≤ c.addr.toNat ∧ c.addr.toNat < 0xD0000 := by
  unfold CpuReq.sharedRgn at h
  rw [Bool.and_eq_true, beq_iff_eq, ← BitVec.toNat_inj, BitVec.extractLsb'_toNat, Nat.shiftRight_eq_div_pow] at h
  have hlt := c.addr.isLt
  have hv : (0x67 : BitVec 19).toNat = 0x67 := rfl
  omega

/-- A mailbox access goes to the same offset of DDR3's upper half. -/
theorem mailbox_word {mailbox : Bool} {c : CpuReq} (h : c.sharedRgn mailbox = true) :
    (ddramWord (0x30000000#32 ||| c.addr)).toNat = (0x30000000 + c.addr.toNat) / 8 := by
  have ha := CpuReq.addr_of_sharedRgn h
  have hor : 3 <<< 28 ||| c.addr.toNat = 3 <<< 28 + c.addr.toNat :=
    (Nat.shiftLeft_add_eq_or_of_lt (by omega : c.addr.toNat < 2 ^ 28) 3).symm
  rw [ddramWord_toNat, BitVec.toNat_or, (by rfl : (0x30000000#32 : BitVec 32).toNat = 3 <<< 28), hor]
  rfl

/-! ## One edge -/

namespace MainMemory

variable {mailbox : Bool} {s : MainMemory} {i : MainMemoryIn}

/-- The states of an access to DDR3. -/
def inDdr (s : MainMemory) : Bool := s.state == .fbWrite || s.state == .fbRead || s.state == .fbReadWait

/-- The clock takes a mailbox access. -/
def takesShared (mailbox : Bool) (s : MainMemory) (i : MainMemoryIn) : Bool :=
  s.state == .idle && i.cpu.valid && i.cpu.sharedRgn mailbox

/-- The clock takes the write that opens the mailbox. -/
def unlocks (mailbox : Bool) (s : MainMemory) (i : MainMemoryIn) : Bool := s.takesShared mailbox i && i.cpu.sharedUnlock

/-- A DDR3 access is to the framebuffer, or to the mailbox when it is open. -/
structure Guarded (s : MainMemory) : Prop where
  shared : s.inDdr = true → s.fbShared = true → s.sharedEnabled = true
  framebuffer : s.inDdr = true → s.fbShared = false → InFramebuffer s.fbDdramAddr

/-- The dwords a mailbox read still has to fetch lie in the mailbox, and so does the one of a write. -/
structure Within (s : MainMemory) : Prop where
  low : s.inDdr = true → s.fbShared = true → 0x300CE000 ≤ 8 * s.fbDdramAddr.toNat
  write : s.state = .fbWrite → s.fbShared = true → 8 * s.fbDdramAddr.toNat < 0x300D0000
  read : s.state = .fbRead ∨ s.state = .fbReadWait → s.fbShared = true →
    8 * s.fbDdramAddr.toNat + 4 * s.fbReadHighDword.toNat + 4 * max 1 s.sharedReadLeft.toNat ≤ 0x300D0000

theorem Guarded.of_not_ddr (h : s.inDdr = false) : Guarded s :=
  ⟨fun h' => absurd (h.symm.trans h') nofun, fun h' => absurd (h.symm.trans h') nofun⟩

theorem Within.of_not_ddr (h : s.inDdr = false) : Within s := by
  unfold inDdr at h
  simp only [Bool.or_eq_false_iff, beq_eq_false_iff_ne] at h
  obtain ⟨⟨h1, h2⟩, h3⟩ := h
  refine ⟨fun h' => ?_, fun h' => absurd h' h1, fun h' => ?_⟩
  · unfold inDdr at h'
    simp only [Bool.or_eq_true, beq_iff_eq] at h'
    rcases h' with (h' | h') | h'
    · exact absurd h' h1
    · exact absurd h' h2
    · exact absurd h' h3
  · rcases h' with h' | h'
    · exact absurd h' h2
    · exact absurd h' h3

/-- A DDR3 access ends, waits, or goes on with the next dword of a mailbox burst. -/
structure DdrNext (s n : MainMemory) : Prop where
  enabled : n.sharedEnabled = s.sharedEnabled
  shared : n.fbShared = s.fbShared
  course : n.state = .idle ∨
    ((n.state = s.state ∨ s.state = .fbRead ∧ n.state = .fbReadWait) ∧ n.fbDdramAddr = s.fbDdramAddr ∧
      n.fbReadHighDword = s.fbReadHighDword ∧ n.sharedReadLeft = s.sharedReadLeft) ∨
    (s.state = .fbReadWait ∧ s.fbShared = true ∧ 1 < s.sharedReadLeft ∧ n.state = .fbRead ∧
      n.fbDdramAddr = s.fbDdramAddr + BitVec.setWidth 29 (BitVec.ofBool s.fbReadHighDword) ∧
      n.fbReadHighDword = !s.fbReadHighDword ∧ n.sharedReadLeft = s.sharedReadLeft - 1)

theorem ddr_next (h : s.inDdr = true) : DdrNext s (s.next mailbox i) := by
  unfold inDdr at h
  simp only [Bool.or_eq_true, beq_iff_eq] at h
  unfold next
  rcases h with (hs | hs) | hs
  · rw [hs]
    show DdrNext s (s.fbWriteNext i)
    unfold fbWriteNext
    split_ifs
    · exact ⟨rfl, rfl, Or.inl rfl⟩
    · exact ⟨rfl, rfl, Or.inr (Or.inl ⟨Or.inl rfl, rfl, rfl, rfl⟩)⟩
  · rw [hs]
    show DdrNext s (s.fbReadNext i)
    unfold fbReadNext
    split_ifs
    · exact ⟨rfl, rfl, Or.inr (Or.inl ⟨Or.inr ⟨hs, rfl⟩, rfl, rfl, rfl⟩)⟩
    · exact ⟨rfl, rfl, Or.inr (Or.inl ⟨Or.inl rfl, rfl, rfl, rfl⟩)⟩
  · rw [hs]
    show DdrNext s (s.fbReadWaitNext i)
    unfold fbReadWaitNext
    by_cases hr : i.fbDdramDoutReady = true
    · by_cases hmore : (s.fbShared && decide (1 < s.sharedReadLeft)) = true
      · simp only [hr, hmore, if_true]
        rw [Bool.and_eq_true, decide_eq_true_eq] at hmore
        exact ⟨rfl, rfl, Or.inr (Or.inr ⟨hs, hmore.1, hmore.2, rfl, rfl, rfl, rfl⟩)⟩
      · simp only [hr, hmore, if_true]
        exact ⟨rfl, rfl, Or.inl rfl⟩
    · rw [if_neg hr]
      exact ⟨rfl, rfl, Or.inr (Or.inl ⟨Or.inl rfl, rfl, rfl, rfl⟩)⟩

/-- Outside `IDLE` and the DDR3 states no DDR3 access begins. -/
theorem other_next (hi : s.state ≠ .idle) (h : s.inDdr = false) :
    (s.next mailbox i).inDdr = false ∧ (s.next mailbox i).sharedEnabled = s.sharedEnabled := by
  unfold inDdr at h
  unfold next
  cases hs : s.state
  · exact absurd hs hi
  · unfold vgaReadNext
    dsimp only
    split_ifs
    · exact ⟨rfl, rfl⟩
    all_goals
      refine ⟨?_, rfl⟩
      show (s.state == .fbWrite || s.state == .fbRead || s.state == .fbReadWait) = false
      exact h
  · unfold vgaWriteNext
    dsimp only
    split_ifs
    · exact ⟨rfl, rfl⟩
    all_goals
      refine ⟨?_, rfl⟩
      show (s.state == .fbWrite || s.state == .fbRead || s.state == .fbReadWait) = false
      exact h
  · rw [hs] at h
    cases h
  · rw [hs] at h
    cases h
  · rw [hs] at h
    cases h
  · unfold unmappedReadNext
    dsimp only
    split_ifs
    · exact ⟨rfl, rfl⟩
    · refine ⟨?_, rfl⟩
      show (s.state == .fbWrite || s.state == .fbRead || s.state == .fbReadWait) = false
      exact h
  · exact ⟨rfl, rfl⟩

/-- A mailbox access taken while the mailbox is open: it goes to DDR3. -/
structure SharedOpen (c : CpuReq) (n : MainMemory) : Prop where
  shared : n.fbShared = true
  addr : n.fbDdramAddr = ddramWord (0x30000000#32 ||| c.addr)
  write : c.write = true → n.state = .fbWrite ∧ n.fbDdramBe = placeBe (c.addr.getLsbD 2) c.be ∧
    n.fbDdramDin = placeDword (c.addr.getLsbD 2) c.din
  read : c.write = false → n.state = .fbRead ∧ n.fbReadHighDword = c.addr.getLsbD 2 ∧
    n.sharedReadLeft = if c.burstcount == 0 then 1 else c.burstcount

/-- One taken before: a write is dropped, a read answered with all ones. -/
def SharedLocked (c : CpuReq) (n : MainMemory) : Prop :=
  if c.write then n.state = .sharedDrop else n.state = .unmappedRead ∧ n.vgaBcnt = c.bcnt

theorem acceptShared_locked {c : CpuReq} (h : s.sharedEnabled = false) (hu : c.sharedUnlock = false) :
    (s.acceptShared c).sharedEnabled = false ∧ SharedLocked c (s.acceptShared c) := by
  unfold acceptShared SharedLocked
  simp only [h, hu, Bool.not_false, Bool.and_self, if_true]
  cases c.write
  · exact ⟨rfl, rfl, rfl⟩
  · exact ⟨rfl, rfl⟩

theorem acceptShared_open {c : CpuReq} (h : (s.sharedEnabled || c.sharedUnlock) = true) :
    (s.acceptShared c).sharedEnabled = true ∧ SharedOpen c (s.acceptShared c) := by
  have hc : (!s.sharedEnabled && !c.sharedUnlock) = false := by
    rw [← Bool.not_or, h]
    rfl
  unfold acceptShared
  simp only [hc, Bool.false_eq_true, if_false]
  cases hw : c.write
  · exact ⟨rfl, rfl, rfl, fun h => absurd (hw.symm.trans h) nofun, fun _ => ⟨rfl, rfl, rfl⟩⟩
  · exact ⟨rfl, rfl, rfl, fun _ => ⟨rfl, rfl, rfl⟩, fun h => absurd (hw.symm.trans h) nofun⟩

/-- A framebuffer access. -/
theorem acceptLinear_framebuffer {c : CpuReq} (h : s.fbShared = false) :
    (s.acceptLinear c).sharedEnabled = s.sharedEnabled ∧ (s.acceptLinear c).fbShared = false ∧
      InFramebuffer (s.acceptLinear c).fbDdramAddr := by
  unfold acceptLinear
  dsimp only
  split_ifs
  · exact ⟨rfl, h, inFramebuffer_linear c⟩
  · exact ⟨rfl, h, inFramebuffer_linear c⟩

theorem acceptBanked_framebuffer (c : CpuReq) (v : VgaModeIn) :
    (s.acceptBanked c v).sharedEnabled = s.sharedEnabled ∧ (s.acceptBanked c v).fbShared = s.fbShared ∧
      InFramebuffer (s.acceptBanked c v).fbDdramAddr := by
  unfold acceptBanked
  dsimp only
  split_ifs <;> exact ⟨rfl, rfl, inFramebuffer_banked _ c _⟩

theorem acceptVga_framebuffer {c : CpuReq} {v : VgaModeIn} (h : s.fbShared = false) :
    (s.acceptVga c v).sharedEnabled = s.sharedEnabled ∧ (s.acceptVga c v).fbShared = false ∧
      ((s.acceptVga c v).inDdr = true → InFramebuffer (s.acceptVga c v).fbDdramAddr) := by
  unfold acceptVga
  dsimp only
  by_cases hfb : v.fbEn = true
  · rw [if_pos hfb]
    obtain ⟨h1, h2, h3⟩ := acceptBanked_framebuffer
      (s := { s with vgaAccepted := true, vgaBusy := true, fbLinear := false }) c v
    exact ⟨h1, h2.trans h, fun _ => h3⟩
  · rw [if_neg hfb]
    split_ifs
    all_goals exact ⟨rfl, h, fun hd => absurd (show false = true from hd) nofun⟩

/-- What `IDLE` does with the mailbox and the DDR3 registers. -/
structure IdleNext (mailbox : Bool) (s : MainMemory) (i : MainMemoryIn) (n : MainMemory) : Prop where
  enabled : n.sharedEnabled = (s.sharedEnabled || s.unlocks mailbox i)
  opened : s.takesShared mailbox i = true → n.sharedEnabled = true → SharedOpen i.cpu n
  locked : s.takesShared mailbox i = true → n.sharedEnabled = false → SharedLocked i.cpu n
  other : s.takesShared mailbox i = false → n.fbShared = false ∧ (n.inDdr = true → InFramebuffer n.fbDdramAddr)

theorem prepare_enabled : (s.prepare i).sharedEnabled = s.sharedEnabled := by
  unfold prepare pointVga
  split_ifs <;> rfl

theorem idle_of_not_ddr (hs : s.state = .idle) : s.inDdr = false := by
  unfold inDdr
  rw [hs]
  rfl

theorem unlocks_of_not_takes (ht : s.takesShared mailbox i = false) : s.unlocks mailbox i = false := by
  unfold unlocks
  rw [ht, Bool.false_and]

/-- An access that is not the mailbox's, or none. -/
theorem idle_next_other (hs : s.state = .idle) (hsh : (i.cpu.valid && i.cpu.sharedRgn mailbox) = false)
    (ht : s.takesShared mailbox i = false) : IdleNext mailbox s i (s.idle mailbox i) := by
  have hother : ∀ n : MainMemory, n.sharedEnabled = s.sharedEnabled → n.fbShared = false →
      (n.inDdr = true → InFramebuffer n.fbDdramAddr) → IdleNext mailbox s i n := by
    intro n h1 h2 h3
    refine ⟨?_, fun h => absurd (ht.symm.trans h) nofun, fun h => absurd (ht.symm.trans h) nofun, fun _ => ⟨h2, h3⟩⟩
    rw [h1, unlocks_of_not_takes ht, Bool.or_false]
  unfold idle
  cases hacc : s.access mailbox i with
  | shared =>
    unfold access at hacc
    rw [hsh, if_neg Bool.false_ne_true] at hacc
    split_ifs at hacc
  | unmappedRead => exact hother _ prepare_enabled rfl nofun
  | vgaBurst => exact hother _ prepare_enabled rfl nofun
  | linear =>
    obtain ⟨h1, h2, h3⟩ := acceptLinear_framebuffer (c := i.cpu) (prepare_fbShared (s := s) (i := i))
    exact hother _ (h1.trans prepare_enabled) h2 fun _ => h3
  | vga =>
    obtain ⟨h1, h2, h3⟩ := acceptVga_framebuffer (c := i.cpu) (v := i.vga) (prepare_fbShared (s := s) (i := i))
    exact hother _ (h1.trans prepare_enabled) h2 h3
  | none =>
    refine hother _ prepare_enabled rfl fun h => ?_
    rw [idle_of_not_ddr (prepare_state.trans hs)] at h
    cases h

/-- A mailbox access, locked or open. -/
theorem idle_next_shared (hsh : (i.cpu.valid && i.cpu.sharedRgn mailbox) = true)
    (ht : s.takesShared mailbox i = true) : IdleNext mailbox s i (s.idle mailbox i) := by
  have hacc : s.access mailbox i = .shared := if_pos hsh
  have hun : s.unlocks mailbox i = i.cpu.sharedUnlock := by
    unfold unlocks
    rw [ht, Bool.true_and]
  unfold idle
  rw [hacc]
  show IdleNext mailbox s i ((s.prepare i).acceptShared i.cpu)
  cases hopen : s.sharedEnabled || i.cpu.sharedUnlock
  · rw [Bool.or_eq_false_iff] at hopen
    obtain ⟨h1, h2⟩ := acceptShared_locked (prepare_enabled.trans hopen.1) hopen.2
    refine ⟨?_, fun _ h => absurd (h1.symm.trans h) nofun, fun _ _ => h2, fun h => absurd (ht.symm.trans h) nofun⟩
    rw [h1, hun, hopen.1, hopen.2]
    rfl
  · have hopen' : ((s.prepare i).sharedEnabled || i.cpu.sharedUnlock) = true := by rw [prepare_enabled, hopen]
    obtain ⟨h1, h2⟩ := acceptShared_open hopen'
    refine ⟨?_, fun _ _ => h2, fun _ h => absurd (h1.symm.trans h) nofun, fun h => absurd (ht.symm.trans h) nofun⟩
    rw [h1, hun, hopen]

theorem idle_next (hs : s.state = .idle) : IdleNext mailbox s i (s.next mailbox i) := by
  have hnext : s.next mailbox i = s.idle mailbox i := by
    unfold next
    rw [hs]
  have htakes : s.takesShared mailbox i = (i.cpu.valid && i.cpu.sharedRgn mailbox) := by
    unfold takesShared
    rw [hs]
    rfl
  rw [hnext]
  cases hsh : i.cpu.valid && i.cpu.sharedRgn mailbox
  · exact idle_next_other hs hsh (htakes.trans hsh)
  · exact idle_next_shared hsh (htakes.trans hsh)

theorem SharedLocked.not_ddr {c : CpuReq} {n : MainMemory} (h : SharedLocked c n) : n.inDdr = false := by
  unfold SharedLocked at h
  unfold inDdr
  split_ifs at h
  · rw [h]
    rfl
  · rw [h.1]
    rfl

theorem not_takes (hs : s.state ≠ .idle) : s.unlocks mailbox i = false := by
  unfold unlocks takesShared
  rw [beq_false_of_ne hs]
  rfl

/-- The mailbox opens with the unlocking write and stays open. -/
theorem enabled_next : (s.next mailbox i).sharedEnabled = (s.sharedEnabled || s.unlocks mailbox i) := by
  by_cases hs : s.state = .idle
  · exact (idle_next hs).enabled
  · rw [not_takes hs, Bool.or_false]
    cases hd : s.inDdr
    · exact (other_next hs hd).2
    · exact (ddr_next hd).enabled

theorem Guarded.next (h : Guarded s) : Guarded (s.next mailbox i) := by
  by_cases hs : s.state = .idle
  · have hn : IdleNext mailbox s i (s.next mailbox i) := idle_next hs
    cases ht : s.takesShared mailbox i
    · obtain ⟨hsh, hfb⟩ := hn.other ht
      exact ⟨fun _ hc => absurd (hsh.symm.trans hc) nofun, fun hd _ => hfb hd⟩
    · cases hen : (s.next mailbox i).sharedEnabled
      · exact .of_not_ddr (hn.locked ht hen).not_ddr
      · exact ⟨fun _ _ => hen, fun _ hc => absurd ((hn.opened ht hen).shared.symm.trans hc) nofun⟩
  · cases hd : s.inDdr
    · exact .of_not_ddr (other_next hs hd).1
    · have hn : DdrNext s (s.next mailbox i) := ddr_next hd
      constructor
      · intro _ hsh
        rw [hn.enabled]
        exact h.shared hd (hn.shared.symm.trans hsh)
      · intro hd' hsh
        have hsh' := hn.shared.symm.trans hsh
        rcases hn.course with hidle | ⟨-, haddr, -⟩ | ⟨-, hsh2, -⟩
        · rw [idle_of_not_ddr hidle] at hd'
          cases hd'
        · rw [haddr]
          exact h.framebuffer hd hsh'
        · rw [hsh'] at hsh2
          cases hsh2

/-- A mailbox read taken while the mailbox is open does not ask for more dwords than are left in it. -/
def BurstFits (mailbox : Bool) (s : MainMemory) (i : MainMemoryIn) : Prop :=
  s.takesShared mailbox i = true → s.sharedEnabled = true → i.cpu.write = false →
    i.cpu.addr.toNat / 4 * 4 + 4 * max 1 i.cpu.burstcount.toNat ≤ 0xD0000

theorem bit2_toNat (a : BitVec 32) : (a.getLsbD 2).toNat = a.toNat / 4 % 2 := by
  rw [BitVec.getLsbD, Nat.testBit_eq_decide_div_mod_eq]
  have h : a.toNat / 2 ^ 2 % 2 = 0 ∨ a.toNat / 2 ^ 2 % 2 = 1 := by omega
  rcases h with h | h
  · rw [h]
    show 0 = _
    omega
  · rw [h]
    show 1 = _
    omega

/-- A mailbox access taken in `IDLE`. -/
theorem Within.idle_next (hs : s.state = .idle) (hf : BurstFits mailbox s i) : Within (s.next mailbox i) := by
  have hn : IdleNext mailbox s i (s.next mailbox i) := MainMemory.idle_next hs
  cases ht : s.takesShared mailbox i
  · have hsh := (hn.other ht).1
    exact ⟨fun _ hc => absurd (hsh.symm.trans hc) nofun, fun _ hc => absurd (hsh.symm.trans hc) nofun,
      fun _ hc => absurd (hsh.symm.trans hc) nofun⟩
  · have hrgn : i.cpu.sharedRgn mailbox = true := by
      unfold takesShared at ht
      rw [Bool.and_eq_true] at ht
      exact ht.2
    cases hen : (s.next mailbox i).sharedEnabled
    · exact .of_not_ddr (hn.locked ht hen).not_ddr
    · have ho := hn.opened ht hen
      have ha := CpuReq.addr_of_sharedRgn hrgn
      have hw := mailbox_word hrgn
      rw [← ho.addr] at hw
      refine ⟨fun _ _ => by omega, fun _ _ => by omega, ?_⟩
      intro hst _
      cases hwr : i.cpu.write
      · obtain ⟨-, hhigh, hleft⟩ := ho.read hwr
        have hun : s.unlocks mailbox i = false := by
          unfold unlocks CpuReq.sharedUnlock
          rw [hwr]
          simp only [Bool.false_and, Bool.and_false]
        have hen' : s.sharedEnabled = true := by
          have h' := hn.enabled
          rw [hen, hun, Bool.or_false] at h'
          exact h'.symm
        have hfit := hf ht hen' hwr
        -- the burst counts the dwords the request asks for
        have hlen : (s.next mailbox i).sharedReadLeft.toNat = max 1 i.cpu.burstcount.toNat := by
          rw [hleft]
          by_cases h0 : i.cpu.burstcount = 0
          · rw [h0]
            rfl
          · have hpos : i.cpu.burstcount.toNat ≠ 0 := fun hz => h0 (BitVec.eq_of_toNat_eq hz)
            rw [if_neg (by simpa using h0)]
            omega
        rw [hhigh, bit2_toNat, hlen]
        omega
      · obtain ⟨hst', -⟩ := ho.write hwr
        rw [hst'] at hst
        rcases hst with hst | hst <;> cases hst

/-- The next dword of a burst. -/
theorem Within.burst_next (h : Within s) (hd : s.inDdr = true) (hst : s.state = .fbReadWait) (hsh : s.fbShared = true)
    (hlt : 1 < s.sharedReadLeft) (hst' : (s.next mailbox i).state = .fbRead)
    (haddr : (s.next mailbox i).fbDdramAddr = s.fbDdramAddr + (BitVec.ofBool s.fbReadHighDword).setWidth 29)
    (hhigh : (s.next mailbox i).fbReadHighDword = !s.fbReadHighDword)
    (hleft : (s.next mailbox i).sharedReadLeft = s.sharedReadLeft - 1) : Within (s.next mailbox i) := by
  have hlow := h.low hd hsh
  have hread := h.read (Or.inr hst) hsh
  have hlt' : 1 < s.sharedReadLeft.toNat := hlt
  have hsub : (s.sharedReadLeft - 1).toNat = s.sharedReadLeft.toNat - 1 := by
    rw [BitVec.toNat_sub_of_le hlt'.le]
    rfl
  have hword : (s.next mailbox i).fbDdramAddr.toNat = s.fbDdramAddr.toNat + s.fbReadHighDword.toNat := by
    rw [haddr, BitVec.toNat_add, BitVec.toNat_setWidth, BitVec.toNat_ofBool]
    have hle := Bool.toNat_le s.fbReadHighDword
    omega
  have hdw : 2 * s.fbReadHighDword.toNat + (!s.fbReadHighDword).toNat = s.fbReadHighDword.toNat + 1 := by
    cases s.fbReadHighDword <;> rfl
  refine ⟨fun _ _ => ?_, fun hw => ?_, fun _ _ => ?_⟩
  · rw [hword]
    omega
  · rw [hst'] at hw
    cases hw
  · rw [hword, hhigh, hleft, hsub]
    omega

theorem Within.next (h : Within s) (hf : BurstFits mailbox s i) : Within (s.next mailbox i) := by
  by_cases hs : s.state = .idle
  · exact Within.idle_next hs hf
  · cases hd : s.inDdr
    · exact .of_not_ddr (other_next hs hd).1
    · have hn : DdrNext s (s.next mailbox i) := ddr_next hd
      rcases hn.course with hidle | ⟨hst, haddr, hhigh, hleft⟩ | ⟨hst, hsh, hlt, hst', haddr, hhigh, hleft⟩
      · exact .of_not_ddr (idle_of_not_ddr hidle)
      · -- the same dword, in the same state or one further
        constructor
        · intro _ hsh'
          rw [haddr]
          exact h.low hd (hn.shared.symm.trans hsh')
        · intro hw hsh'
          rw [haddr]
          refine h.write ?_ (hn.shared.symm.trans hsh')
          rcases hst with hst | ⟨-, hst⟩
          · rw [← hst, hw]
          · rw [hw] at hst
            cases hst
        · intro hr hsh'
          rw [haddr, hhigh, hleft]
          refine h.read ?_ (hn.shared.symm.trans hsh')
          rcases hst with hst | ⟨hst, -⟩
          · rw [← hst]
            exact hr
          · exact Or.inl hst
      · exact h.burst_next hd hst hsh hlt hst' haddr hhigh hleft

end MainMemory

/-! ## Runs -/

/-- A run of `main_memory` out of reset. -/
structure MailboxRun extends ServiceRun where
  noReset : ∀ t, (inp t).reset = false

namespace MailboxRun

variable (R : MailboxRun) {t n : Nat}

/-- A mailbox access is taken in clock `t`. -/
def takes (t : Nat) : Bool := (R.regs t).takesShared R.mailbox (R.inp t)

/-- The unlocking write is taken in clock `t`. -/
def unlocks (t : Nat) : Bool := (R.regs t).unlocks R.mailbox (R.inp t)

/-- The unlocking write was taken before clock `t`. -/
def Opened (t : Nat) : Prop := ∃ u, u < t ∧ R.unlocks u = true

/-- A command is on the DDR3 port in clock `t`. -/
def command (t : Nat) : Bool := (R.regs t).fbDdramRd || (R.regs t).fbDdramWe

def word (t : Nat) : BitVec 29 := (R.regs t).fbDdramAddr

/-- The access taken in clock `t` is on the DDR3 port from the next clock on until DDR3 takes it. -/
structure Reaches (t : Nat) : Prop where
  command : ∀ n, (∀ k, k < n → (R.inp (t + 1 + k)).fbDdramBusy = true) →
    (R.regs (t + 1 + n)).fbDdramWe = (R.cpu t).write ∧ (R.regs (t + 1 + n)).fbDdramRd = !(R.cpu t).write ∧
      (R.word (t + 1 + n)).toNat = (0x30000000 + (R.cpu t).addr.toNat) / 8
  data : (R.cpu t).write = true → ∀ n, (∀ k, k < n → (R.inp (t + 1 + k)).fbDdramBusy = true) →
    (R.regs (t + 1 + n)).fbDdramBe = placeBe ((R.cpu t).addr.getLsbD 2) (R.cpu t).be ∧
      (R.regs (t + 1 + n)).fbDdramDin = placeDword ((R.cpu t).addr.getLsbD 2) (R.cpu t).din

/-- The read taken in clock `t` is answered with `n` dwords of all ones: the responses follow each other from the second
clock on, and the machine is in `IDLE` again with the last of them. -/
structure AnswersOnes (t n : Nat) : Prop where
  ones : ∀ k, k < n → (R.regs (t + 2 + k)).vgaDoutReady = true ∧ (R.regs (t + 2 + k)).vgaDout = 0xFFFFFFFF
  idle : (R.regs (t + 1 + n)).state = .idle
  quiet : ∀ k, k ≤ n → R.command (t + 1 + k) = false

/-- No mailbox read taken before clock `t` asks for more dwords than are left in the mailbox. -/
def FitsBefore (t : Nat) : Prop := ∀ u, u < t → MainMemory.BurstFits R.mailbox (R.regs u) (R.inp u)

/-- Every command on the DDR3 port is for one of the two windows. -/
def InWindows : Prop := ∀ t, R.command t = true → InMailbox (R.word t) ∨ InFramebuffer (R.word t)

/-- What the lock and the windows promise. A locked read gets a response for each dword it asks for up to seven, and
at least one; `vga_bcnt` has three bits. -/
structure Guards : Prop where
  locked : ∀ t, R.command t = true → InMailbox (R.word t) → R.Opened t
  ones : ∀ t, R.takes t = true → (R.cpu t).write = false → ¬ R.Opened t →
    ∃ n, 0 < n ∧ ((R.cpu t).burstcount.toNat < 8 → n = max 1 (R.cpu t).burstcount.toNat) ∧ R.AnswersOnes t n
  reaches : ∀ t, R.takes t = true → R.Opened t ∨ R.unlocks t = true → R.Reaches t
  windows : ∀ t, R.FitsBefore t → R.command t = true → InMailbox (R.word t) ∨ InFramebuffer (R.word t)

variable {R}

theorem regs_next (t : Nat) :
    R.regs (t + 1) = ((R.regs t).next R.mailbox (R.inp t)).setWindow (R.inp t).vga.memmode := by
  rw [ServiceRun.regs_succ, MainMemory.step_of_not_reset (R.noReset t)]

/-- `shared_enabled` remembers the unlocking write. -/
theorem enabled_iff (t : Nat) : (R.regs t).sharedEnabled = true ↔ R.Opened t := by
  induction t with
  | zero => exact ⟨fun h => absurd (show false = true from h) nofun, fun ⟨u, hu, _⟩ => absurd hu (Nat.not_lt_zero u)⟩
  | succ t ih =>
    have h : (R.regs (t + 1)).sharedEnabled = ((R.regs t).sharedEnabled || R.unlocks t) := by
      rw [regs_next]
      exact MainMemory.enabled_next
    rw [h, Bool.or_eq_true, ih]
    constructor
    · rintro (⟨u, hu, hun⟩ | hun)
      · exact ⟨u, by omega, hun⟩
      · exact ⟨t, by omega, hun⟩
    · rintro ⟨u, hu, hun⟩
      rcases Nat.lt_or_ge u t with hlt | hge
      · exact Or.inl ⟨u, hlt, hun⟩
      · rw [(by omega : u = t)] at hun
        exact Or.inr hun

theorem guarded (t : Nat) : (R.regs t).Guarded := by
  induction t with
  | zero => exact .of_not_ddr rfl
  | succ t ih =>
    rw [regs_next]
    have h : ((R.regs t).next R.mailbox (R.inp t)).Guarded := ih.next
    exact ⟨h.shared, h.framebuffer⟩

theorem within (hf : R.FitsBefore t) : (R.regs t).Within := by
  induction t with
  | zero => exact .of_not_ddr rfl
  | succ t ih =>
    rw [regs_next]
    have h := (ih fun u hu => hf u (Nat.lt_succ_of_lt hu)).next (hf t (Nat.lt_succ_self t))
    exact ⟨h.low, h.write, h.read⟩

theorem idle_of_takes (h : R.takes t = true) : (R.regs t).state = .idle ∧ (R.cpu t).sharedRgn R.mailbox = true := by
  unfold takes MainMemory.takesShared at h
  simp only [Bool.and_eq_true, beq_iff_eq] at h
  exact ⟨h.1.1, h.2⟩

/-- The command of an access stays on the port while DDR3 is busy. -/
theorem held (hs : (R.regs t).state = .fbWrite ∨ (R.regs t).state = .fbRead)
    (hbusy : ∀ k, k < n → (R.inp (t + k)).fbDdramBusy = true) :
    (R.regs (t + n)).state = (R.regs t).state ∧ (R.regs (t + n)).fbDdramAddr = (R.regs t).fbDdramAddr ∧
      (R.regs (t + n)).fbDdramBe = (R.regs t).fbDdramBe ∧ (R.regs (t + n)).fbDdramDin = (R.regs t).fbDdramDin := by
  induction n with
  | zero => exact ⟨rfl, rfl, rfl, rfl⟩
  | succ n ih =>
    obtain ⟨h1, h2, h3, h4⟩ := ih fun k hk => hbusy k (by omega)
    have hb := hbusy n (by omega)
    have hstay : (R.regs (t + n)).next R.mailbox (R.inp (t + n)) = (R.regs (t + n)).clearPulses := by
      unfold MainMemory.next
      rcases hs with hs | hs
      · rw [h1, hs]
        show MainMemory.fbWriteNext _ _ = _
        unfold MainMemory.fbWriteNext
        rw [hb]
        rfl
      · rw [h1, hs]
        show MainMemory.fbReadNext _ _ = _
        unfold MainMemory.fbReadNext
        rw [hb]
        rfl
    rw [← Nat.add_assoc, regs_next, hstay]
    exact ⟨h1, h2, h3, h4⟩

theorem reaches (ht : R.takes t = true) (ho : R.Opened t ∨ R.unlocks t = true) : R.Reaches t := by
  obtain ⟨hs, hrgn⟩ := idle_of_takes ht
  have hn : MainMemory.IdleNext R.mailbox (R.regs t) (R.inp t) ((R.regs t).next R.mailbox (R.inp t)) :=
    MainMemory.idle_next hs
  have hen : ((R.regs t).next R.mailbox (R.inp t)).sharedEnabled = true := by
    rw [hn.enabled, Bool.or_eq_true]
    exact ho.imp_left (enabled_iff t).2
  -- an open mailbox takes the access to its word in DDR3
  have hopen := hn.opened ht hen
  have hword : (R.word (t + 1)).toNat = (0x30000000 + (R.cpu t).addr.toNat) / 8 := by
    have haddr : R.word (t + 1) = ((R.regs t).next R.mailbox (R.inp t)).fbDdramAddr := by
      unfold word
      rw [regs_next]
      rfl
    rw [haddr, hopen.addr]
    exact mailbox_word hrgn
  cases hw : (R.cpu t).write
  · have hst : (R.regs (t + 1)).state = .fbRead := by
      rw [regs_next]
      exact (hopen.read hw).1
    refine ⟨fun n hb => ?_, fun h => absurd (hw.symm.trans h) nofun⟩
    obtain ⟨h1, h2, -⟩ := held (Or.inr hst) hb
    unfold MainMemory.fbDdramWe MainMemory.fbDdramRd
    rw [h1, hst, hw, ← hword]
    exact ⟨rfl, rfl, congrArg BitVec.toNat h2⟩
  · obtain ⟨hst', hbe, hdin⟩ := hopen.write hw
    have hst : (R.regs (t + 1)).state = .fbWrite := by
      rw [regs_next]
      exact hst'
    refine ⟨fun n hb => ?_, fun _ n hb => ?_⟩
    · obtain ⟨h1, h2, -⟩ := held (Or.inl hst) hb
      unfold MainMemory.fbDdramWe MainMemory.fbDdramRd
      rw [h1, hst, hw, ← hword]
      exact ⟨rfl, rfl, congrArg BitVec.toNat h2⟩
    · obtain ⟨-, -, h3, h4⟩ := held (Or.inl hst) hb
      rw [h3, h4, regs_next]
      exact ⟨hbe, hdin⟩

/-- `UNMAPPED_READ` counts its responses down. -/
theorem unmapped_counts {m : Nat} (hs : (R.regs t).state = .unmappedRead) (hm : max 1 (R.regs t).vgaBcnt.toNat = m + 1) :
    ∀ k, k ≤ m → (R.regs (t + k)).state = .unmappedRead ∧ max 1 (R.regs (t + k)).vgaBcnt.toNat = m + 1 - k := by
  intro k hk
  induction k with
  | zero => exact ⟨hs, hm⟩
  | succ k ih =>
    obtain ⟨h1, h2⟩ := ih (by omega)
    have hlt := (R.regs (t + k)).vgaBcnt.isLt
    have hgt : ¬ (R.regs (t + k)).vgaBcnt ≤ 1 := by
      show ¬ (R.regs (t + k)).vgaBcnt.toNat ≤ 1
      omega
    have hsub : ((R.regs (t + k)).vgaBcnt - 1).toNat = (R.regs (t + k)).vgaBcnt.toNat - 1 := by
      rw [BitVec.toNat_sub_of_le]
      · rfl
      · show 1 ≤ (R.regs (t + k)).vgaBcnt.toNat
        omega
    have hnext : (R.regs (t + k)).next R.mailbox (R.inp (t + k)) = (R.regs (t + k)).unmappedReadNext := by
      unfold MainMemory.next
      rw [h1]
    rw [← Nat.add_assoc, regs_next, hnext]
    unfold MainMemory.unmappedReadNext
    rw [if_neg hgt]
    refine ⟨h1, ?_⟩
    show max 1 ((R.regs (t + k)).vgaBcnt - 1).toNat = _
    rw [hsub]
    omega

theorem answersOnes (ht : R.takes t = true) (hw : (R.cpu t).write = false) (hno : ¬ R.Opened t) :
    R.AnswersOnes t (max 1 (R.cpu t).bcnt.toNat) := by
  obtain ⟨hs, hrgn⟩ := idle_of_takes ht
  have hn : MainMemory.IdleNext R.mailbox (R.regs t) (R.inp t) ((R.regs t).next R.mailbox (R.inp t)) :=
    MainMemory.idle_next hs
  have hun : R.unlocks t = false := by
    unfold unlocks MainMemory.unlocks CpuReq.sharedUnlock
    rw [show (R.inp t).cpu.write = false from hw]
    simp only [Bool.false_and, Bool.and_false]
  have hen : ((R.regs t).next R.mailbox (R.inp t)).sharedEnabled = false := by
    rw [hn.enabled, show (R.regs t).unlocks R.mailbox (R.inp t) = false from hun, Bool.or_false]
    cases h : (R.regs t).sharedEnabled
    · rfl
    · exact absurd ((enabled_iff t).1 h) hno
  -- the read is taken as one of unmapped memory
  have hlock := hn.locked ht hen
  unfold MainMemory.SharedLocked at hlock
  rw [show (R.inp t).cpu.write = false from hw, if_neg Bool.false_ne_true] at hlock
  have hst : (R.regs (t + 1)).state = .unmappedRead := by
    rw [regs_next]
    exact hlock.1
  have hcnt : (R.regs (t + 1)).vgaBcnt = (R.cpu t).bcnt := by
    rw [regs_next]
    exact hlock.2
  -- which counts its dwords down
  obtain ⟨m, hm⟩ : ∃ m, max 1 (R.cpu t).bcnt.toNat = m + 1 := ⟨max 1 (R.cpu t).bcnt.toNat - 1, by omega⟩
  have hcounts := unmapped_counts hst (hcnt ▸ hm)
  have hnext : ∀ k, k ≤ m → R.regs (t + 1 + k + 1) =
      ((R.regs (t + 1 + k)).unmappedReadNext).setWindow (R.inp (t + 1 + k)).vga.memmode := by
    intro k hk
    rw [regs_next]
    unfold MainMemory.next
    rw [(hcounts k hk).1]
  have hidle : (R.regs (t + 1 + m + 1)).state = .idle := by
    have hle : (R.regs (t + 1 + m)).vgaBcnt ≤ 1 := by
      have h := (hcounts m le_rfl).2
      show (R.regs (t + 1 + m)).vgaBcnt.toNat ≤ 1
      omega
    rw [hnext m le_rfl]
    unfold MainMemory.unmappedReadNext
    rw [if_pos hle]
    rfl
  rw [Nat.add_assoc (t + 1), ← hm] at hidle
  refine ⟨fun k hk => ?_, hidle, fun k hk => ?_⟩
  · rw [(by omega : t + 2 + k = t + 1 + k + 1), hnext k (by omega)]
    unfold MainMemory.unmappedReadNext
    split_ifs <;> exact ⟨rfl, rfl⟩
  · unfold command MainMemory.fbDdramRd MainMemory.fbDdramWe
    rcases Nat.lt_or_ge m k with h | h
    · rw [(by omega : k = max 1 (R.cpu t).bcnt.toNat), hidle]
      rfl
    · rw [(hcounts k h).1]
      rfl

/-- Three bits count the dwords of a burst up to seven. -/
theorem bcnt_of_lt {c : CpuReq} (h : c.burstcount.toNat < 8) : max 1 c.bcnt.toNat = max 1 c.burstcount.toNat := by
  unfold CpuReq.bcnt
  by_cases h0 : c.burstcount = 0
  · rw [h0]
    rfl
  · rw [if_neg (by simpa using h0), BitVec.extractLsb'_toNat, Nat.shiftRight_zero, Nat.mod_eq_of_lt h]

theorem inDdr_of_command (h : R.command t = true) : (R.regs t).inDdr = true := by
  unfold command MainMemory.fbDdramRd MainMemory.fbDdramWe at h
  unfold MainMemory.inDdr
  rw [Bool.or_comm] at h
  rw [h]
  rfl

/-- The two windows have no word in common. -/
theorem not_both {word : BitVec 29} (hm : InMailbox word) (hf : InFramebuffer word) : False := by
  unfold InMailbox at hm
  unfold InFramebuffer at hf
  omega

/-- The mailbox is locked until its unlocking write and open from then on; and as long as no burst read of the open
mailbox runs past its end, DDR3 is not accessed outside of the two windows. -/
theorem mailbox_guarded (R : MailboxRun) : R.Guards := by
  constructor
  · intro t hc hm
    have hd := inDdr_of_command hc
    cases hsh : (R.regs t).fbShared
    · exact (not_both hm ((guarded t).framebuffer hd hsh)).elim
    · exact (enabled_iff t).1 ((guarded t).shared hd hsh)
  · intro t ht hw hno
    exact ⟨_, by omega, bcnt_of_lt, answersOnes ht hw hno⟩
  · exact fun t ht ho => reaches ht ho
  · intro t hf hc
    have hd := inDdr_of_command hc
    have hw := within hf
    cases hsh : (R.regs t).fbShared
    · exact Or.inr ((guarded t).framebuffer hd hsh)
    · left
      refine ⟨hw.low hd hsh, ?_⟩
      unfold command MainMemory.fbDdramRd MainMemory.fbDdramWe at hc
      simp only [Bool.or_eq_true, beq_iff_eq] at hc
      unfold word
      rcases hc with hc | hc
      · have h := hw.read (Or.inl hc) hsh
        omega
      · exact hw.write hc hsh

end MailboxRun

/-! ## Bursts -/

def quietVga : VgaModeIn where
  memmode := 4
  dwordWriteOk := false
  wrSeg := 0
  rdSeg := 0
  fbEn := false
  chain4 := false
  mapMask := 0
  readPlane := 0
  writeMode := 0

def unlockWrite (t : Nat) : CpuReq where
  valid := t < 2
  write := true
  addr := 0xCE000
  din := 0xA345
  be := 0x3
  burstcount := 1

def pairRead (addr : BitVec 32) (t : Nat) : CpuReq where
  valid := t < 4
  write := false
  addr := addr
  din := 0
  be := 0xF
  burstcount := 2

/-- The unlocking write, and then a read of two dwords, with DDR3 never busy and each beat one clock after its command. -/
def unlockThenRead (addr : BitVec 32) : MailboxRun where
  mailbox := true
  start := .cleared
  inp := fun t =>
    { reset := false
      cpu := if t < 2 then unlockWrite t else pairRead addr t
      ramSize := 0, memDout := 0, memRespValid := false, memReady := false, vgaReaddata := 0, vga := quietVga
      fbDdramDout := 0, fbDdramDoutReady := t == 4 || t == 6, fbDdramBusy := false }
  noReset := fun _ => rfl

/-- A pair read from the first dword of the mailbox on stays in it. -/
theorem firstPair_inWindows : (unlockThenRead 0xCE000).InWindows := by
  intro t hc
  refine (MailboxRun.mailbox_guarded (unlockThenRead 0xCE000)).windows t ?_ hc
  intro u _ _ _ _
  show (if u < 2 then unlockWrite u else pairRead 0xCE000 u).addr.toNat / 4 * 4 +
    4 * max 1 (if u < 2 then unlockWrite u else pairRead 0xCE000 u).burstcount.toNat ≤ 0xD0000
  split_ifs
  · show 0xCE000 / 4 * 4 + 4 * max 1 1 ≤ 0xD0000
    omega
  · show 0xCE000 / 4 * 4 + 4 * max 1 2 ≤ 0xD0000
    omega

/-- A read of two dwords from the last one of the mailbox on reads the word behind it. -/
theorem lastPair_not_inWindows : ¬ (unlockThenRead 0xCFFFC).InWindows := by
  intro h
  have hcommand : (unlockThenRead 0xCFFFC).command 5 = true := by decide
  have hword : ((unlockThenRead 0xCFFFC).word 5).toNat = 0x300D0000 / 8 := by decide
  rcases h 5 hcommand with hw | hw
  · have hlt := hw.2
    rw [hword] at hlt
    omega
  · have hle := hw.1
    rw [hword] at hle
    omega

end Z486.Memory
