/-
The reads of a block through the data port. The host's words are in the buffer two clocks after its strobe falls,
and the pointers compare pairs of words; a read of the guest is at rest, asking with its strobe up, or ending.
-/
import Z486.Disk.IdePort

namespace Z486.Disk

open IoBus (Adapter AdapterState CpuIo Peripheral)

/-! ## One clock of the adapter -/

section AdapterStep

variable {a : Adapter} {c : CpuIo} {p : Peripheral}

/-- No strobe is up. -/
structure NoStrobe (a : Adapter) : Prop where
  ioRead : a.ioRead = false
  ioWrite : a.ioWrite = false
  ideRead : a.ideRead = false
  ideWrite : a.ideWrite = false

theorem step_of_not_takes (hstate : a.state = .idle) (ht : a.takes c = false) :
    (a.step c p true).state = .idle ∧ NoStrobe (a.step c p true) ∧ (a.step c p true).cpuIoReady = false := by
  have hno : a.wasActive = false → (c.cpuIoRd || c.cpuIoWr) = false := by
    intro h
    rw [Adapter.takes, hstate, h] at ht
    simpa using ht
  simp only [Adapter.step, hstate, Adapter.idleNext]
  cases hactive : a.wasActive with
  | false =>
    rw [hno hactive]
    exact ⟨rfl, ⟨rfl, rfl, rfl, rfl⟩, rfl⟩
  | true => cases c.cpuIoRd || c.cpuIoWr <;> exact ⟨rfl, ⟨rfl, rfl, rfl, rfl⟩, rfl⟩

/-- A CPU without a cycle leaves the guard down. -/
theorem wasActive_of_not_takes (hstate : a.state = .idle) (hactive : a.wasActive = false) (ht : a.takes c = false) :
    (a.step c p true).wasActive = false := by
  have hno : (c.cpuIoRd || c.cpuIoWr) = false := by
    rw [Adapter.takes, hstate, hactive] at ht
    simpa using ht
  simp only [Adapter.step, hstate, Adapter.idleNext, hactive, hno]
  rfl

/-- A wide read is taken. -/
theorem step_of_takes (ht : a.takes c = true) (hport : c.ideDataPort = true) (hrd : c.cpuIoRd = true) :
    (a.step c p true).state = .ide32 ∧ (a.step c p true).ideRead = true ∧ (a.step c p true).ideWrite = false ∧
      (a.step c p true).ioRead = false ∧ (a.step c p true).ioWrite = false ∧ (a.step c p true).ideAddress = 0 ∧
      (a.step c p true).ide32 = (c.cpuBe == 0b1111) ∧ (a.step c p true).isRead = true ∧
      (a.step c p true).cpuIoReady = false := by
  simp only [Adapter.takes, Bool.and_eq_true, beq_iff_eq, Bool.not_eq_true'] at ht
  obtain ⟨⟨hstate, hactive⟩, -⟩ := ht
  simp only [Adapter.step, hstate, Adapter.idleNext, hactive, hport, hrd]
  exact ⟨rfl, rfl, rfl, rfl, rfl, rfl, rfl, rfl, rfl⟩

/-- A wide read waits for its data. -/
theorem step_of_ide32 (hstate : a.state = .ide32) :
    (a.step c p true).state = (if p.ideHold then .ide32 else .ide32w) ∧ NoStrobe (a.step c p true) ∧
      (a.step c p true).ideAddress = a.ideAddress ∧ (a.step c p true).ide32 = a.ide32 ∧
      (a.step c p true).isRead = a.isRead ∧ (a.step c p true).cpuIoReady = false := by
  simp only [Adapter.step, hstate]
  cases p.ideHold with
  | false => exact ⟨rfl, ⟨rfl, rfl, rfl, rfl⟩, rfl, rfl, rfl, rfl⟩
  | true => exact ⟨rfl, ⟨rfl, rfl, rfl, rfl⟩, rfl, rfl, rfl, rfl⟩

/-- A wide read is answered. -/
theorem step_of_ide32w (hstate : a.state = .ide32w) (hread : a.isRead = true) :
    (a.step c p true).state = .idle ∧ NoStrobe (a.step c p true) ∧ (a.step c p true).ide32 = a.ide32 ∧
      (a.step c p true).cpuIoReady = true ∧ (a.step c p true).cpuDout = p.ideReaddata := by
  simp only [Adapter.step, hstate, hread]
  exact ⟨rfl, ⟨rfl, rfl, rfl, rfl⟩, rfl, rfl, rfl⟩

end AdapterStep

/-! ## One clock of the channel -/

namespace Ide

variable {s : Ide} {g : IdeIo} {h : IdeMgmt}

/-- Word `k` of the sector buffer. -/
def bufWord (s : Ide) (k : Nat) : BitVec 16 :=
  if k % 2 = 0 then s.ioBuf0.mem (BitVec.ofNat 12 (k / 2)) else s.ioBuf1.mem (BitVec.ofNat 12 (k / 2))

/-- The host writes nothing but words of the buffer. -/
structure DataOnly (h : IdeMgmt) : Prop where
  address : h.mgmtWrite = true → h.mgmtAddress = 15
  noRead : h.mgmtRead = false

theorem DataOnly.writes (hd : DataOnly h) {a : BitVec 4} (ha : a ≠ 15) : h.writes a = false := by
  rw [IdeMgmt.writes]
  cases hw : h.mgmtWrite with
  | false => rfl
  | true =>
    rw [hd.address hw]
    simpa using ha.symm

theorem driveFlags_of_no_write (hw : h.writes 6 = false) (flags : BitVec 2) (k : Nat) : driveFlags h flags k = flags := by
  have hbits : ∀ f : BitVec 2, BitVec.ofBool (f.getLsbD 1) ++ BitVec.ofBool (f.getLsbD 0) = f := by decide
  rw [driveFlags, hw]
  exact hbits flags

/-- The channel is in the middle of a read: no reset, and no write but of the host's words. -/
structure Quiet (s : Ide) (g : IdeIo) (h : IdeMgmt) : Prop where
  noWrite : g.ioWrite = false
  dataOnly : DataOnly h
  noSwReset : s.swReset = false

theorem Quiet.ioWr (hq : s.Quiet g h) : s.ioWr g = false := by
  rw [Ide.ioWr, hq.noWrite]
  rfl

theorem Quiet.guestWrites (hq : s.Quiet g h) (a : BitVec 4) : s.guestWrites g a = false := by
  rw [Ide.guestWrites, hq.ioWr]
  rfl

theorem Quiet.writeDataIo (hq : s.Quiet g h) : s.writeDataIo g = false := by
  rw [Ide.writeDataIo, hq.ioWr]
  rfl

theorem Quiet.reset (hq : s.Quiet g h) : s.reset true = false := by
  rw [Ide.reset, hq.noSwReset]
  rfl

theorem Quiet.ioStb (hq : s.Quiet g h) : s.ioStb g = s.readDataIo g := by
  rw [Ide.ioStb, hq.writeDataIo]
  exact Bool.or_false _

theorem Quiet.ioCnt_step (hq : s.Quiet g h) : (s.step g h true).ioCnt =
    if s.oldStb && !s.readDataIo g then s.ioCnt + 1 + (BitVec.ofBool s.r32).setWidth 14 else s.ioCnt := by
  show s.ioCntNext g h true = _
  rw [ioCntNext, hq.reset, hq.dataOnly.writes (by decide), hq.ioStb]
  rfl

/-- The registers that stay through the block. -/
theorem stays (hw : g.ioWrite = false) (hsw : s.swReset = false) (h6 : h.writes 6 = false) (h0 : h.writes 0 = false)
    (h4 : h.writes 4 = false) : (s.step g h true).present = s.present ∧ (s.step g h true).swReset = false ∧
      (s.step g h true).blkSize = s.blkSize := by
  have hguest : s.guestWrites g 14 = false := by
    rw [guestWrites, ioWr, hw]
    rfl
  refine ⟨driveFlags_of_no_write h6 _ _, ?_, ?_⟩
  · show (if !true then false else if s.guestWrites g 14 then g.ioWritedata.getLsbD 2 else s.swReset) = false
    rw [hguest, hsw]
    rfl
  · show s.blkSizeNext h true = s.blkSize
    rw [blkSizeNext, h0, h4]
    rfl

/-- DRQ and the fast-read mode last until the block is done. -/
theorem Quiet.up (hq : s.Quiet g h) (hdone : s.ioDone = false) :
    (s.step g h true).status = s.status ∧ (s.step g h true).fastRead = s.fastRead := by
  constructor
  · show s.statusNext g h true = s.status
    rw [statusNext, hq.reset, hq.dataOnly.writes (by decide), hq.guestWrites, hdone]
    rfl
  · show s.fastReadNext h true = s.fastRead
    rw [fastReadNext, hq.reset, hq.dataOnly.writes (by decide), hdone]
    rfl

theorem oldStb_step (hq : s.Quiet g h) : (s.step g h true).oldStb = s.readDataIo g := hq.ioStb

theorem r32_step (hq : s.Quiet g h) : (s.step g h true).r32 = if s.readDataIo g then g.io32 else s.r32 := by
  show (if s.ioStb g then g.io32 else s.r32) = _
  rw [hq.ioStb]

/-- The word that the RAMs put out for the guest's pointer. -/
theorem q_step (hq : s.Quiet g h) {c : Nat} (hcnt : s.ioCnt = BitVec.ofNat 14 c) :
    (s.step g h true).ioBuf0.qB = s.bufWord (2 * (c / 2)) ∧
      (s.step g h true).ioBuf1.qB = s.bufWord (2 * (c / 2) + 1) := by
  have haddr : s.ioCnt.extractLsb' 1 12 = BitVec.ofNat 12 (c / 2) := by
    apply BitVec.eq_of_toNat_eq
    rw [hcnt, BitVec.extractLsb'_toNat, BitVec.toNat_ofNat, BitVec.toNat_ofNat, Nat.shiftRight_eq_div_pow]
    omega
  have hodd : (2 * (c / 2) + 1) / 2 = c / 2 := by omega
  constructor
  · show (if (s.writeDataIo g && _) = true then _ else s.ioBuf0.mem (s.ioCnt.extractLsb' 1 12)) = _
    rw [hq.writeDataIo, Bool.false_and, if_neg nofun, haddr, bufWord, if_pos (by omega),
      Nat.mul_div_cancel_left _ (by omega)]
  · show (if (s.writeDataIo g && _) = true then _ else s.ioBuf1.mem (s.ioCnt.extractLsb' 1 12)) = _
    rw [hq.writeDataIo, Bool.false_and, if_neg nofun, haddr, bufWord, if_neg (by omega), hodd]

/-- A RAM after a write of the host to place `a`, or none. -/
theorem mem_step_host {m : IdeRam} {a b : RamPort} (hb : b.wren = false) (x : BitVec 12) :
    (m.step a b).mem x = if a.wren = true ∧ x = a.address then a.data else m.mem x := by
  rw [IdeRam.step, hb]
  show (if a.wren = true then Function.update m.mem a.address a.data else m.mem) x = _
  cases ha : a.wren with
  | false => rw [if_neg nofun, if_neg (by simp)]
  | true =>
    rw [if_pos rfl, Function.update_apply]
    simp

/-- The host's word `n` goes to its place, and nothing else changes. -/
theorem bufWord_step (hq : s.Quiet g h) {n k : Nat} (hcnt : s.mgmtCnt = BitVec.ofNat 14 n) (hk : k < 8192) :
    (s.step g h true).bufWord k = if h.writesData = true ∧ k = n % 8192 then h.mgmtWritedata else s.bufWord k := by
  have haddr : s.mgmtCnt.extractLsb' 1 12 = BitVec.ofNat 12 (n / 2) := by
    apply BitVec.eq_of_toNat_eq
    rw [hcnt, BitVec.extractLsb'_toNat, BitVec.toNat_ofNat, BitVec.toNat_ofNat, Nat.shiftRight_eq_div_pow]
    omega
  have hparity : s.mgmtCnt.getLsbD 0 = decide (n % 2 = 1) := by
    rw [hcnt, BitVec.getLsbD_ofNat]
    simp [Nat.testBit_zero]
  have hplace : BitVec.ofNat 12 (k / 2) = BitVec.ofNat 12 (n / 2) ↔ k / 2 = n / 2 % 4096 := by
    rw [← BitVec.toNat_inj, BitVec.toNat_ofNat, BitVec.toNat_ofNat]
    omega
  have hport : ∀ odd, (s.hostPort h odd).wren = (h.writesData && (decide (n % 2 = 1) == odd)) ∧
      (s.hostPort h odd).address = BitVec.ofNat 12 (n / 2) := fun odd => ⟨by rw [hostPort, hparity], haddr⟩
  by_cases heven : k % 2 = 0
  · rw [bufWord, if_pos heven, bufWord, if_pos heven]
    show (s.ioBuf0.step (s.hostPort h false) (s.guestPort0 g)).mem _ = _
    rw [mem_step_host (by rw [guestPort0, hq.writeDataIo]; rfl), (hport false).1, (hport false).2]
    refine if_congr ?_ rfl rfl
    rw [hplace]
    cases h.writesData with
    | false => simp
    | true =>
      simp only [Bool.true_and, beq_iff_eq, decide_eq_false_iff_not, true_and]
      omega
  · rw [bufWord, if_neg heven, bufWord, if_neg heven]
    show (s.ioBuf1.step (s.hostPort h true) (s.guestPort1 g)).mem _ = _
    rw [mem_step_host (by rw [guestPort1, hq.writeDataIo]; rfl), (hport true).1, (hport true).2]
    refine if_congr ?_ rfl rfl
    rw [hplace]
    cases h.writesData with
    | false => simp
    | true =>
      simp only [Bool.true_and, beq_iff_eq, decide_eq_true_eq, true_and]
      omega

/-- The host's pointer moves on when its strobe falls. -/
theorem mgmtCnt_step (hd : h.mgmtRead = false) (hold : s.oldRd = false) : (s.step g h true).mgmtCnt =
    if s.oldWr && !h.mgmtWrite then if h.mgmtAddress = 15 then s.mgmtCnt + 1 else 0 else s.mgmtCnt := by
  show s.mgmtCntNext h true = _
  rw [mgmtCntNext, mgmtFalls, hd, hold]
  simp

/-- The pair of the guest's pointer is in the buffer when it does not wait. -/
theorem nData_eq {n c : Nat} (hm : s.mgmtCnt = BitVec.ofNat 14 n) (hn : n < 16384) (hcnt : s.ioCnt = BitVec.ofNat 14 c)
    (hc : c < 16384) (hdrq : s.drq = true) (hfast : s.fastRead = true) :
    s.nData = decide (n < 2 * (c / 2) + 2) := by
  have hpair : ∀ m, m < 16384 → ((BitVec.ofNat 14 m).extractLsb' 1 13).toNat = m / 2 := by
    intro m hm
    rw [BitVec.extractLsb'_toNat, BitVec.toNat_ofNat, Nat.shiftRight_eq_div_pow]
    omega
  rw [nData, hdrq, hfast, hm, hcnt, BitVec.ule_eq_decide, hpair n hn, hpair c hc, Bool.and_true, Bool.and_true]
  exact decide_eq_decide.mpr (by omega)

end Ide

/-! ## The host's words -/

namespace IdeRun

variable {r : IdeRun}

theorem adapter_succ (hr : r.ReadsBlock) (t : Nat) :
    r.adapter (t + 1) = (r.adapter t).step (r.inputs t).cpu ((r.state t).peripheral (r.inputs t)) true := by
  rw [adapter, state_succ, IdePort.step, (hr.enabled t).1]
  rfl

theorem ide_succ (hr : r.ReadsBlock) (t : Nat) :
    r.ide (t + 1) = (r.ide t).step (r.state t).ide0Io (r.inputs t).mgmt true := by
  rw [ide, state_succ, IdePort.step, (hr.enabled t).2]
  rfl

/-- The adapter does nothing but wide reads. -/
structure WideReads (a : Adapter) : Prop where
  noByte : a.ioRead = false ∧ a.ioWrite = false ∧ a.ideWrite = false
  state : a.state = .idle ∧ a.ideRead = false ∨ a.state = .ide32 ∧ a.isRead = true ∧ a.ideAddress = 0 ∨
    a.state = .ide32w ∧ a.isRead = true ∧ a.ideRead = false

theorem ideDataPort_of_takes (hr : r.ReadsBlock) {t : Nat} (ht : r.takes t = true) :
    (r.inputs t).cpu.ideDataPort = true := by
  obtain ⟨-, hport, hbe⟩ := hr.guestReads t ht
  rw [CpuIo.ideDataPort, hport]
  rcases hbe with hbe | ⟨hbe, -⟩ <;> rw [hbe] <;> rfl

theorem wideReads (hr : r.ReadsBlock) (t : Nat) : WideReads (r.adapter t) := by
  induction t with
  | zero =>
    obtain ⟨h1, h2, h3, h4⟩ := hr.noStrobe
    exact ⟨⟨h1, h2, h4⟩, .inl ⟨hr.idle, h3⟩⟩
  | succ t ih =>
    rw [adapter_succ hr]
    rcases ih.state with ⟨hstate, -⟩ | ⟨hstate, hread, haddr⟩ | ⟨hstate, hread, -⟩
    · cases ht : r.takes t with
      | false =>
        obtain ⟨hidle, hno, -⟩ := step_of_not_takes (p := (r.state t).peripheral (r.inputs t)) hstate ht
        exact ⟨⟨hno.ioRead, hno.ioWrite, hno.ideWrite⟩, .inl ⟨hidle, hno.ideRead⟩⟩
      | true =>
        obtain ⟨h32, -, hw, hir, hiw, haddr, -, hread, -⟩ := step_of_takes (p := (r.state t).peripheral (r.inputs t)) ht
          (ideDataPort_of_takes hr ht) (hr.guestReads t ht).1
        exact ⟨⟨hir, hiw, hw⟩, .inr (.inl ⟨h32, hread, haddr⟩)⟩
    · obtain ⟨hnext, hno, haddr', -, hread', -⟩ := step_of_ide32 (c := (r.inputs t).cpu)
        (p := (r.state t).peripheral (r.inputs t)) hstate
      refine ⟨⟨hno.ioRead, hno.ioWrite, hno.ideWrite⟩, ?_⟩
      cases hhold : ((r.state t).peripheral (r.inputs t)).ideHold with
      | true =>
        rw [hhold] at hnext
        exact .inr (.inl ⟨hnext, hread'.trans hread, haddr'.trans haddr⟩)
      | false =>
        rw [hhold] at hnext
        exact .inr (.inr ⟨hnext, hread'.trans hread, hno.ideRead⟩)
    · obtain ⟨hidle, hno, -⟩ :=
        step_of_ide32w (c := (r.inputs t).cpu) (p := (r.state t).peripheral (r.inputs t)) hstate hread
      exact ⟨⟨hno.ioRead, hno.ioWrite, hno.ideWrite⟩, .inl ⟨hidle, hno.ideRead⟩⟩

theorem noWrite (hr : r.ReadsBlock) (t : Nat) : (r.state t).ide0Io.ioWrite = false := by
  obtain ⟨-, hiw, hw⟩ := (wideReads hr t).noByte
  show ((r.adapter t).ioWrite && _ || (r.adapter t).ideWrite && _) = false
  rw [hiw, hw]
  rfl

theorem dataOnly (hr : r.ReadsBlock) {t : Nat} (ht : 0 < t) : Ide.DataOnly (r.inputs t).mgmt :=
  ⟨fun hw => (hr.hostData t ht hw).1, hr.noHostRead t⟩

/-- The drive stays, and so does the size of the block. -/
structure Steady (r : IdeRun) (t : Nat) : Prop where
  present : (r.ide t).present ≠ 0
  noSwReset : (r.ide t).swReset = false
  size : (r.ide t).blkSize = r.start.ide0.blkSize

theorem steady (hr : r.ReadsBlock) (t : Nat) : r.Steady t := by
  induction t with
  | zero => exact ⟨hr.present, hr.noSwReset, rfl⟩
  | succ t ih =>
    have hwrites : ∀ a, a ≠ 5 → a ≠ 15 → (r.inputs t).mgmt.writes a = false := by
      intro a h5 h15
      rcases Nat.eq_zero_or_pos t with rfl | hpos
      · obtain ⟨-, haddr⟩ := (Bool.and_eq_true _ _).mp hr.raised.1
        rw [IdeMgmt.writes, eq_of_beq haddr, beq_eq_false_iff_ne.mpr h5.symm]
        exact Bool.and_false _
      · exact (dataOnly hr hpos).writes h15
    obtain ⟨hpresent, hsw, hsize⟩ := Ide.stays (noWrite hr t) ih.noSwReset (hwrites 6 (by decide) (by decide))
      (hwrites 0 (by decide) (by decide)) (hwrites 4 (by decide) (by decide))
    rw [← ide_succ hr] at hpresent hsw hsize
    exact ⟨hpresent ▸ ih.present, hsw, hsize.trans ih.size⟩

theorem quiet (hr : r.ReadsBlock) {t : Nat} (ht : 0 < t) : (r.ide t).Quiet (r.state t).ide0Io (r.inputs t).mgmt :=
  ⟨noWrite hr t, dataOnly hr ht, (steady hr t).noSwReset⟩

theorem writesData_eq (hr : r.ReadsBlock) {t : Nat} (ht : 0 < t) :
    (r.inputs t).mgmt.writesData = (r.inputs t).mgmt.mgmtWrite := by
  rw [IdeMgmt.writesData]
  cases hw : (r.inputs t).mgmt.mgmtWrite with
  | false => rfl
  | true =>
    rw [(hr.hostData t ht hw).1]
    rfl

/-- The word that a clock adds to those of the host. -/
theorem written_succ (t : Nat) : r.written (t + 1) =
    r.written t ++ if r.writesWord t then [(r.inputs t).mgmt.mgmtWritedata] else [] := rfl

theorem written_one (hr : r.ReadsBlock) : r.written 1 = [] := by
  obtain ⟨-, haddr⟩ := (Bool.and_eq_true _ _).mp hr.raised.1
  rw [written_succ, writesWord, IdeMgmt.writesData, eq_of_beq haddr]
  simp [written]

theorem written_mono {t u : Nat} (h : t ≤ u) : r.written t <+: r.written u := by
  induction u, h using Nat.le_induction with
  | base => exact List.prefix_refl _
  | succ u _ ih => exact ih.trans (List.prefix_append _ _)

/-- The host's pointer counts the words whose strobe has fallen. -/
theorem mgmtCnt_eq (hr : r.ReadsBlock) {t : Nat} (ht : 0 < t) :
    (r.ide (t + 1)).mgmtCnt = BitVec.ofNat 14 (r.written t).length := by
  have hoff : ∀ u, (r.ide (u + 1)).oldRd = false := by
    intro u
    rw [ide_succ hr]
    exact hr.noHostRead u
  have hold : ∀ u, (r.ide (u + 1)).oldWr = (r.inputs u).mgmt.mgmtWrite := by
    intro u
    rw [ide_succ hr]
    rfl
  have hstep : ∀ u, (r.ide (u + 2)).mgmtCnt =
      if (r.inputs u).mgmt.mgmtWrite && !(r.inputs (u + 1)).mgmt.mgmtWrite then
        if (r.inputs (u + 1)).mgmt.mgmtAddress = 15 then (r.ide (u + 1)).mgmtCnt + 1 else 0
      else (r.ide (u + 1)).mgmtCnt := by
    intro u
    rw [ide_succ hr (u + 1), Ide.mgmtCnt_step (hr.noHostRead _) (hoff u), hold]
  induction t, ht using Nat.le_induction with
  | base =>
    obtain ⟨hw, haddr⟩ := hr.index
    obtain ⟨hw0, -⟩ := (Bool.and_eq_true _ _).mp hr.raised.1
    rw [hstep 0, hw0, hw, if_pos (by rfl), if_neg haddr]
    exact congrArg (fun l => BitVec.ofNat 14 (List.length l)) (written_one hr).symm
  | succ t ht ih =>
    rw [hstep t, written_succ, writesWord, writesData_eq hr ht]
    by_cases hfalls : ((r.inputs t).mgmt.mgmtWrite && !(r.inputs (t + 1)).mgmt.mgmtWrite) = true
    · obtain ⟨hw, -⟩ := (Bool.and_eq_true _ _).mp hfalls
      rw [if_pos hfalls, if_pos hfalls, if_pos (hr.hostData t ht hw).2, ih, List.length_append, BitVec.ofNat_add]
      rfl
    · rw [if_neg hfalls, if_neg hfalls, ih, List.append_nil]

/-- The host's pointer while its strobe is up. -/
theorem mgmtCnt_of_write (hr : r.ReadsBlock) {t : Nat} (ht : 0 < t) (hw : (r.inputs t).mgmt.mgmtWrite = true) :
    (r.ide t).mgmtCnt = BitVec.ofNat 14 (r.written t).length := by
  obtain ⟨u, rfl⟩ : ∃ u, t = u + 1 := ⟨t - 1, by omega⟩
  rcases Nat.eq_zero_or_pos u with rfl | hu
  · exact absurd (hr.index.1.symm.trans hw) nofun
  · rw [mgmtCnt_eq hr hu, written_succ, writesWord, hw, Bool.not_true, Bool.and_false, if_neg nofun, List.append_nil]

/-- A word of the host is in its place until the host writes to that place again. -/
theorem stored (hr : r.ReadsBlock) {t k : Nat} (ht : 0 < t) {w : BitVec 16} (hk : (r.written t)[k]? = some w)
    (hkept : ∀ u, 0 < u → u < t → (r.inputs u).mgmt.mgmtWrite = true → (r.written u).length < k + 8192) :
    (r.ide t).bufWord (k % 8192) = w := by
  induction t, ht using Nat.le_induction with
  | base =>
    rw [written_one hr] at hk
    exact absurd hk nofun
  | succ t ht ih =>
    have hbefore : (r.written t)[k]? = some w → (r.ide t).bufWord (k % 8192) = w :=
      fun h => ih h fun u hu hut => hkept u hu (by omega)
    rw [written_succ, writesWord, writesData_eq hr ht] at hk
    by_cases hw : (r.inputs t).mgmt.mgmtWrite = true
    · rw [ide_succ hr, Ide.bufWord_step (quiet hr ht) (mgmtCnt_of_write hr ht hw) (by omega), writesData_eq hr ht, hw]
      by_cases hlt : k < (r.written t).length
      · -- the word that is being written goes to another place
        have hnear := hkept t ht (by omega) hw
        rw [List.getElem?_append_left hlt] at hk
        rw [if_neg (by omega)]
        exact hbefore hk
      · rw [List.getElem?_append_right (by omega)] at hk
        obtain ⟨hk0, hdata⟩ : k = (r.written t).length ∧ (r.inputs t).mgmt.mgmtWritedata = w := by
          split_ifs at hk
          · obtain ⟨h0, hget⟩ := List.getElem?_eq_some_iff.mp hk
            have hzero : k - (r.written t).length = 0 := by simpa using h0
            exact ⟨by omega, by simpa [hzero] using hget⟩
          · exact absurd hk nofun
        rw [if_pos ⟨rfl, by rw [hk0]⟩, hdata]
    · rw [Bool.not_eq_true] at hw
      rw [hw, Bool.false_and, if_neg nofun, List.append_nil] at hk
      rw [ide_succ hr, Ide.bufWord_step (n := (r.ide t).mgmtCnt.toNat) (quiet hr ht) (by simp) (by omega),
        writesData_eq hr ht, hw, if_neg (by simp)]
      exact hbefore hk

theorem written_le (hr : r.ReadsBlock) (t : Nat) : (r.written t).length ≤ r.blockSize := by
  induction t with
  | zero => exact Nat.zero_le _
  | succ t ih =>
    rcases Nat.eq_zero_or_pos t with rfl | ht
    · rw [written_one hr]
      exact Nat.zero_le _
    · rw [written_succ, List.length_append]
      by_cases hw : r.writesWord t = true
      · have hlt := hr.hostBlock t ht ((writesData_eq hr ht).symm.trans ((Bool.and_eq_true _ _).mp hw).1)
        rw [if_pos hw]
        exact hlt
      · rw [if_neg hw]
        exact ih

/-- In a block that fits the buffer every word is in its own place. -/
theorem bufWord_eq (hr : r.ReadsBlock) (hfit : r.blockSize ≤ 8192) {t k : Nat} (ht : 0 < t) {w : BitVec 16}
    (hk : (r.written t)[k]? = some w) : (r.ide t).bufWord k = w := by
  obtain ⟨hlt, -⟩ := List.getElem?_eq_some_iff.mp hk
  have hle := written_le hr t
  have h := stored hr ht hk fun u hu _ hw => by
    have := hr.hostBlock u hu hw
    omega
  rwa [Nat.mod_eq_of_lt (by omega)] at h

/-! ## The guest's strobe -/

theorem selects (t : Nat) : (r.state (t + 1)).ide0Cs =
      (if (r.adapter t).ioAddressLoad (r.inputs t).cpu then ide0Select ((r.adapter t).ioAddressNext (r.inputs t).cpu)
        else (r.state t).ide0Cs) ∧
    (r.state (t + 1)).ide1Cs =
      (if (r.adapter t).ioAddressLoad (r.inputs t).cpu then ide1Select ((r.adapter t).ioAddressNext (r.inputs t).cpu)
        else (r.state t).ide1Cs) := by
  rw [state_succ]
  exact ⟨rfl, rfl⟩

/-- A read of the data port selects the primary channel alone. -/
theorem selects_of_takes (hr : r.ReadsBlock) {t : Nat} (ht : r.takes t = true) :
    (r.state (t + 1)).ide0Cs = true ∧ (r.state (t + 1)).ide1Cs = false := by
  obtain ⟨h0, h1⟩ := selects t
  obtain ⟨-, hport, -⟩ := hr.guestReads t ht
  have htakes := ht
  simp only [takes, Adapter.takes, Bool.and_eq_true, beq_iff_eq] at htakes
  obtain ⟨⟨hstate, hactive⟩, hcycle⟩ := htakes
  have hload : (r.adapter t).ioAddressLoad (r.inputs t).cpu = true := by
    rw [Adapter.ioAddressLoad, hstate]
    exact (Bool.and_eq_true _ _).mpr ⟨hactive, hcycle⟩
  have hnext : (r.adapter t).ioAddressNext (r.inputs t).cpu = 0x01F0 := by
    rw [Adapter.ioAddressNext, hstate]
    show (if (!(r.adapter t).wasActive && _) = true then _ else _) = _
    rw [if_pos ((Bool.and_eq_true _ _).mpr ⟨hactive, hcycle⟩), hport]
  rw [h0, h1, hload, hnext, if_pos rfl, if_pos rfl]
  exact ⟨by decide, by decide⟩

theorem selects_of_ide32 {t : Nat} (hstate : (r.adapter t).state = .ide32) :
    (r.state (t + 1)).ide0Cs = (r.state t).ide0Cs ∧ (r.state (t + 1)).ide1Cs = (r.state t).ide1Cs := by
  obtain ⟨h0, h1⟩ := selects t
  have hload : (r.adapter t).ioAddressLoad (r.inputs t).cpu = false := by
    rw [Adapter.ioAddressLoad, hstate]
  rw [h0, h1, hload]
  exact ⟨rfl, rfl⟩

/-- The strobe of a wide read is up only in the clock after the read is taken. -/
theorem takes_of_ideRead (hr : r.ReadsBlock) {t : Nat} (h : (r.adapter (t + 1)).ideRead = true) : r.takes t = true := by
  by_contra hno
  rw [Bool.not_eq_true] at hno
  have hwide := wideReads hr t
  rw [adapter_succ hr] at h
  have hdown : ((r.adapter t).step (r.inputs t).cpu ((r.state t).peripheral (r.inputs t)) true).ideRead = false := by
    rcases hwide.state with ⟨hstate, -⟩ | ⟨hstate, -⟩ | ⟨hstate, hread, -⟩
    · exact (step_of_not_takes hstate hno).2.1.ideRead
    · exact (step_of_ide32 hstate).2.1.ideRead
    · exact (step_of_ide32w hstate hread).2.1.ideRead
  exact absurd (hdown.symm.trans h) nofun

/-- The secondary channel never holds. -/
theorem noWait1 (hr : r.ReadsBlock) (t : Nat) : (r.state t).ide1Wait = false := by
  induction t with
  | zero => exact hr.noWait.2
  | succ t ih =>
    rw [state_succ]
    show (r.state t).waitNext (r.state t).ide1Wait (r.state t).ide1Cs (r.inputs t).ide1Nodata = false
    have hcs : ((r.adapter t).ideRead && (r.state t).ide1Cs) = false := by
      cases hread : (r.adapter t).ideRead with
      | false => rfl
      | true =>
        cases t with
        | zero => exact absurd (hr.noStrobe.2.2.1.symm.trans hread) nofun
        | succ u =>
          rw [(selects_of_takes hr (takes_of_ideRead hr hread)).2]
          rfl
    rw [IdePort.waitNext, show (r.state t).adapter.ideRead = (r.adapter t).ideRead from rfl, hcs, ih]
    cases (r.inputs t).ide1Nodata <;> rfl

/-- The strobe that the channel sees. -/
theorem ioRead_eq (hr : r.ReadsBlock) (t : Nat) : (r.state t).ide0Io.ioRead =
    ((r.adapter t).ideRead && (r.state t).ide0Cs || (r.state t).ide0Wait) := by
  show ((r.adapter t).ioRead && _ || _ || _) = _
  rw [(wideReads hr t).noByte.1]
  rfl

theorem ideHold_eq (hr : r.ReadsBlock) {t : Nat} (hcs : (r.state t).ide0Cs = true)
    (hcs1 : (r.adapter t).ideRead = true → (r.state t).ide1Cs = false) :
    ((r.state t).peripheral (r.inputs t)).ideHold =
      ((r.state t).ide0Wait || (r.adapter t).ideRead && (r.ide t).noData) := by
  show ((r.state t).ide0Wait || (r.state t).ide1Wait || ((r.adapter t).ideRead &&
    ((r.state t).ide0Cs && (r.ide t).noData || (r.state t).ide1Cs && _))) = _
  rw [noWait1 hr, hcs]
  cases hread : (r.adapter t).ideRead with
  | false => simp
  | true =>
    rw [hcs1 hread]
    simp

theorem ide0Wait_succ (t : Nat) : (r.state (t + 1)).ide0Wait =
    (r.state t).waitNext (r.state t).ide0Wait (r.state t).ide0Cs (r.ide t).noData := by
  rw [state_succ]
  rfl

/-! ## The phases of a read -/

/-- The guest's pointer is at `c`, and DRQ is up while the block lasts. -/
structure Pointer (r : IdeRun) (t c : Nat) : Prop where
  cnt : (r.ide t).ioCnt = BitVec.ofNat 14 c
  le : c ≤ r.blockSize
  up : c < r.blockSize → (r.ide t).drq = true ∧ (r.ide t).fastRead = true

/-- No read is under way in clock `t + 1`, and the guest has received `c` words. -/
structure Resting (r : IdeRun) (t c : Nat) : Prop where
  state : (r.adapter (t + 1)).state = .idle
  ideRead : (r.adapter (t + 1)).ideRead = false
  wait : (r.state (t + 1)).ide0Wait = false
  oldStb : (r.ide (t + 1)).oldStb = false
  pointer : r.Pointer (t + 1) c
  asked : r.asked (t + 1) = c
  received : r.received (t + 1) = (r.written t).take c
  le : c ≤ (r.written t).length

/-- A read of `n` words at word `c` is under way in clock `t + 1`. -/
structure Reading (r : IdeRun) (t c n : Nat) : Prop where
  pos : 0 < t
  cs : (r.state (t + 1)).ide0Cs = true
  wide : (r.adapter (t + 1)).ide32 = decide (n = 2)
  width : n = 1 ∨ n = 2 ∧ c % 2 = 0
  fits : c + n ≤ r.blockSize
  asked : r.asked (t + 1) = c + n
  received : r.received (t + 1) = (r.written t).take c
  le : c ≤ (r.written t).length

/-- The strobe is up: for the first time, or held by the flag. -/
structure Asking (r : IdeRun) (t c n : Nat) (held : Bool) : Prop extends Reading r t c n where
  state : (r.adapter (t + 1)).state = .ide32
  ideRead : (r.adapter (t + 1)).ideRead = !held
  wait : (r.state (t + 1)).ide0Wait = held
  cs1 : (r.state (t + 1)).ide1Cs = false
  oldStb : (r.ide (t + 1)).oldStb = held
  pointer : r.Pointer (t + 1) c
  even : (r.ide (t + 1)).ioBuf0.qB = (r.ide t).bufWord (2 * (c / 2))
  odd : (r.ide (t + 1)).ioBuf1.qB = (r.ide t).bufWord (2 * (c / 2) + 1)

/-- The strobe is down and the words are on the data port; the pointer moves on if it has not yet. -/
structure Ending (r : IdeRun) (t c n : Nat) (state : AdapterState) (falls : Bool) : Prop extends Reading r t c n where
  state : (r.adapter (t + 1)).state = state
  ideRead : (r.adapter (t + 1)).ideRead = false
  wait : (r.state (t + 1)).ide0Wait = false
  oldStb : (r.ide (t + 1)).oldStb = falls
  r32 : falls = true → (r.ide (t + 1)).r32 = decide (n = 2)
  pointer : r.Pointer (t + 1) (if falls then c else c + n)
  inBuffer : c + n ≤ (r.written t).length
  data : wordsOf (r.ide (t + 1)).ioReaddata (decide (n = 2)) = ((r.written t).drop c).take n

/-- What the guest has received stays a part of what the host has written. -/
theorem take_written {t u c : Nat} (h : t ≤ u) (hc : c ≤ (r.written t).length) :
    (r.written u).take c = (r.written t).take c := by
  obtain ⟨rest, hrest⟩ := written_mono (r := r) h
  rw [← hrest, List.take_append_of_le_length hc]

theorem drop_written {t u c n : Nat} (h : t ≤ u) (hc : c + n ≤ (r.written t).length) :
    ((r.written u).drop c).take n = ((r.written t).drop c).take n := by
  rw [List.take_drop, List.take_drop, take_written h (by omega)]

section Phases

variable (hr : r.ReadsBlock) (hcount : r.blockSize < 16384)
include hr

include hcount in
theorem Pointer.notDone {t c : Nat} (h : r.Pointer t c) (hlt : c < r.blockSize) : (r.ide t).ioDone = false := by
  have hule : ((r.ide t).blkSize).ule ((r.ide t).ioCnt.setWidth 16) = false := by
    rw [(steady hr t).size, h.cnt, BitVec.ule_eq_decide, BitVec.toNat_setWidth, BitVec.toNat_ofNat]
    refine decide_eq_false ?_
    have : r.start.ide0.blkSize.toNat = r.blockSize := rfl
    omega
  rw [Ide.ioDone, hule]
  exact Bool.and_false _

include hcount in
/-- The guest's pointer in the next clock. -/
theorem Pointer.step {t c c' : Nat} (h : r.Pointer t c) (ht : 0 < t) (hcnt : (r.ide (t + 1)).ioCnt = BitVec.ofNat 14 c')
    (hle : c ≤ c') (hle' : c' ≤ r.blockSize) : r.Pointer (t + 1) c' := by
  refine ⟨hcnt, hle', fun hlt => ?_⟩
  obtain ⟨hdrq, hfast⟩ := h.up (by omega)
  obtain ⟨hstatus, hfast'⟩ := (quiet hr ht).up (h.notDone hr hcount (by omega))
  rw [← ide_succ hr] at hstatus hfast'
  exact ⟨by rw [Ide.drq, hstatus]; exact hdrq, hfast'.trans hfast⟩

include hcount in
/-- A pointer that does not move. -/
theorem Pointer.stays {t c : Nat} (h : r.Pointer t c) (ht : 0 < t)
    (hstb : ((r.ide t).oldStb && !(r.ide t).readDataIo (r.state t).ide0Io) = false) : r.Pointer (t + 1) c := by
  refine h.step hr hcount ht ?_ (le_refl c) h.le
  rw [ide_succ hr, (quiet hr ht).ioCnt_step, hstb, if_neg nofun, h.cnt]

include hcount in
/-- The strobe falls. -/
theorem Pointer.moves {t c n : Nat} (h : r.Pointer t c) (ht : 0 < t) (hold : (r.ide t).oldStb = true)
    (hdown : (r.ide t).readDataIo (r.state t).ide0Io = false) (hr32 : (r.ide t).r32 = decide (n = 2))
    (hn : n = 1 ∨ n = 2) (hfits : c + n ≤ r.blockSize) : r.Pointer (t + 1) (c + n) := by
  refine h.step hr hcount ht ?_ (by omega) hfits
  rw [ide_succ hr, (quiet hr ht).ioCnt_step, hold, hdown, if_pos (by rfl), h.cnt, hr32]
  rcases hn with rfl | rfl
  · rw [BitVec.ofNat_add]
    simp
  · rw [BitVec.ofNat_add, BitVec.add_assoc]
    rfl

theorem notStrobe {t : Nat} (hread : (r.adapter t).ideRead = false) (hwait : (r.state t).ide0Wait = false) :
    (r.state t).ide0Io.ioRead = false ∧ (r.ide t).readDataIo (r.state t).ide0Io = false := by
  have hio : (r.state t).ide0Io.ioRead = false := by
    rw [ioRead_eq hr, hread, hwait]
    rfl
  refine ⟨hio, ?_⟩
  rw [Ide.readDataIo, hio]
  rfl

/-- The RAMs put out the words of the guest's pair. -/
theorem fresh {t c : Nat} (ht : 0 < t) (h : r.Pointer t c) :
    (r.ide (t + 1)).ioBuf0.qB = (r.ide t).bufWord (2 * (c / 2)) ∧
      (r.ide (t + 1)).ioBuf1.qB = (r.ide t).bufWord (2 * (c / 2) + 1) := by
  rw [ide_succ hr]
  exact Ide.q_step (quiet hr ht) h.cnt

omit hr in
theorem halves (a b : BitVec 16) : (a ++ b).extractLsb' 0 16 = b ∧ (a ++ b).extractLsb' 16 16 = a := by
  constructor
  · ext k hk
    simp only [BitVec.getElem_extractLsb', BitVec.getLsbD_append, Nat.zero_add]
    rw [if_pos hk, BitVec.getLsbD_eq_getElem]
  · ext k hk
    simp only [BitVec.getElem_extractLsb', BitVec.getLsbD_append]
    rw [if_neg (by omega), Nat.add_sub_cancel_left, BitVec.getLsbD_eq_getElem]

omit hr in
/-- The words on the data port when the pair of the guest's pointer is in the buffer. -/
theorem wordsOf_dataWord {s : Ide} {c n : Nat} {l : List (BitVec 16)} (hcnt : s.ioCnt = BitVec.ofNat 14 c)
    (hn : n = 1 ∨ n = 2 ∧ c % 2 = 0) (heven : ∀ w, l[2 * (c / 2)]? = some w → s.ioBuf0.qB = w)
    (hodd : ∀ w, l[2 * (c / 2) + 1]? = some w → s.ioBuf1.qB = w) (hl : 2 * (c / 2) + 2 ≤ l.length) :
    wordsOf (s.dataWord (decide (n = 2))) (decide (n = 2)) = (l.drop c).take n := by
  have h0 := heven _ (List.getElem?_eq_getElem (by omega))
  have h1 := hodd _ (List.getElem?_eq_getElem (by omega))
  have hbit : s.ioCnt.getLsbD 0 = decide (c % 2 = 1) := by
    rw [hcnt, BitVec.getLsbD_ofNat]
    simp [Nat.testBit_zero]
  rw [Ide.dataWord, hbit]
  obtain ⟨hlow, hhigh⟩ := halves s.ioBuf1.qB
    (if !decide (n = 2) && decide (c % 2 = 1) then s.ioBuf1.qB else s.ioBuf0.qB)
  rcases hn with rfl | ⟨rfl, hc⟩
  · rw [wordsOf, if_neg (by decide), hlow, List.take_one_drop_eq_of_lt_length (by omega)]
    by_cases hc : c % 2 = 1
    · simp only [hc, decide_true, h1, show 2 * (c / 2) + 1 = c by omega]
      rfl
    · simp only [hc, decide_false, h0, show 2 * (c / 2) = c by omega]
      rfl
  · rw [wordsOf, if_pos (by decide), hlow, hhigh, h0, h1]
    have hpair : 2 * (c / 2) = c := by omega
    simp only [hpair] at *
    rw [List.drop_eq_getElem_cons (show c < l.length by omega), List.drop_eq_getElem_cons (show c + 1 < l.length by omega)]
    rfl

include hcount in
/-- A guest that does not read stays at rest. -/
theorem Resting.rests {t c : Nat} (h : r.Resting t c) (ht : r.takes (t + 1) = false) : r.Resting (t + 1) c := by
  obtain ⟨hidle, hno, hready⟩ := step_of_not_takes (p := (r.state (t + 1)).peripheral (r.inputs (t + 1))) h.state ht
  rw [← adapter_succ hr] at hidle hno hready
  obtain ⟨-, hdown⟩ := notStrobe hr h.ideRead h.wait
  constructor
  · exact hidle
  · exact hno.ideRead
  · rw [ide0Wait_succ, IdePort.waitNext, h.wait, show (r.state (t + 1)).adapter.ideRead = false from h.ideRead]
    split <;> rfl
  · rw [ide_succ hr, Ide.oldStb_step (quiet hr (Nat.succ_pos t))]
    exact hdown
  · exact h.pointer.stays hr hcount (Nat.succ_pos t) (by rw [h.oldStb]; rfl)
  · rw [IdeRun.asked, ht, h.asked]
    rfl
  · rw [IdeRun.received, ready, hready, if_neg nofun, List.append_nil, h.received]
    exact (take_written (Nat.le_succ t) h.le).symm
  · exact h.le.trans (written_mono (Nat.le_succ t)).length_le

include hcount in
/-- A read is taken. -/
theorem Resting.asks {t c : Nat} (h : r.Resting t c) (ht : r.takes (t + 1) = true) :
    r.Asking (t + 1) c (width (r.inputs (t + 1)).cpu.cpuBe) false := by
  obtain ⟨hrd, -, hbe⟩ := hr.guestReads _ ht
  have hblock := hr.guestBlock _ ht
  rw [h.asked] at hbe hblock
  obtain ⟨hstate, hread, -, -, -, -, h32, -, hready⟩ := step_of_takes (p := (r.state (t + 1)).peripheral (r.inputs (t + 1)))
    ht (ideDataPort_of_takes hr ht) hrd
  rw [← adapter_succ hr] at hstate hread h32 hready
  obtain ⟨hcs, hcs1⟩ := selects_of_takes hr ht
  obtain ⟨-, hdown⟩ := notStrobe hr h.ideRead h.wait
  obtain ⟨heven, hodd⟩ := fresh hr (Nat.succ_pos t) h.pointer
  refine ⟨⟨Nat.succ_pos t, hcs, ?_, ?_, hblock, ?_, ?_, ?_⟩, hstate, hread, ?_, hcs1, ?_, ?_, heven, hodd⟩
  · rw [h32, width]
    rcases hbe with hbe | ⟨hbe, -⟩ <;> rw [hbe] <;> rfl
  · rw [width]
    rcases hbe with hbe | ⟨hbe, heven⟩
    · rw [hbe]
      exact .inl rfl
    · rw [hbe]
      exact .inr ⟨rfl, heven⟩
  · rw [IdeRun.asked, ht, h.asked]
    rfl
  · rw [IdeRun.received, ready, hready, if_neg nofun, List.append_nil, h.received]
    exact (take_written (Nat.le_succ t) h.le).symm
  · exact h.le.trans (written_mono (Nat.le_succ t)).length_le
  · rw [ide0Wait_succ, IdePort.waitNext, h.wait, show (r.state (t + 1)).adapter.ideRead = false from h.ideRead]
    split <;> rfl
  · rw [ide_succ hr, Ide.oldStb_step (quiet hr (Nat.succ_pos t))]
    exact hdown
  · exact h.pointer.stays hr hcount (Nat.succ_pos t) (by rw [h.oldStb]; rfl)

/-- What the channel sees of a strobe that is up. -/
theorem Asking.strobe {t c n : Nat} {held : Bool} (h : r.Asking t c n held) :
    (r.state (t + 1)).ide0Io.ioRead = true ∧ (r.state (t + 1)).ide0Io.ioAddress = 0 ∧
      (r.state (t + 1)).ide0Io.io32 = decide (n = 2) ∧ (r.ide (t + 1)).readDataIo (r.state (t + 1)).ide0Io = true := by
  have hread : (r.state (t + 1)).ide0Io.ioRead = true := by
    rw [ioRead_eq hr, h.ideRead, h.cs, h.wait]
    cases held <;> rfl
  have hwide : (r.state (t + 1)).ide0Wide = true := by
    rw [IdePort.ide0Wide, h.wait, show (r.state (t + 1)).adapter.ideRead = !held from h.ideRead]
    cases held <;> cases (r.state (t + 1)).adapter.ideWrite <;> rfl
  have haddr : (r.state (t + 1)).ide0Io.ioAddress = 0 := by
    show (if (r.state (t + 1)).ide0Wide = true then (r.adapter (t + 1)).ideAddress else _) = _
    rw [hwide, if_pos rfl]
    rcases (wideReads hr (t + 1)).state with ⟨hstate, -⟩ | ⟨-, -, haddr⟩ | ⟨hstate, -⟩
    · exact absurd (h.state.symm.trans hstate) nofun
    · exact haddr
    · exact absurd (h.state.symm.trans hstate) nofun
  obtain ⟨hdrq, -⟩ := h.pointer.up (by have := h.fits; have := h.width; omega)
  refine ⟨hread, haddr, ?_, ?_⟩
  · show ((r.state (t + 1)).ide0Wide && (r.adapter (t + 1)).ide32) = _
    rw [hwide, h.wide]
    rfl
  · rw [Ide.readDataIo, hread, haddr, hdrq]
    rfl

/-- A read that gets ahead of the host is held. -/
theorem Asking.nData_eq (hcount : r.blockSize < 16384) {t c n : Nat} {held : Bool} (h : r.Asking t c n held) :
    (r.ide (t + 1)).nData = decide ((r.written t).length < 2 * (c / 2) + 2) := by
  have hwritten := written_le hr t
  have hfits := h.fits
  obtain ⟨hdrq, hfast⟩ := h.pointer.up (by have := h.width; omega)
  exact Ide.nData_eq (mgmtCnt_eq hr h.pos) (by omega) h.pointer.cnt (by omega) hdrq hfast

/-- The read is not answered in a clock of its strobe. -/
theorem Reading.later {t c n : Nat} (h : r.Reading t c n) (hstate : (r.adapter (t + 1)).state = .ide32) :
    r.Reading (t + 1) c n := by
  obtain ⟨-, -, -, h32, -, hready⟩ := step_of_ide32 (c := (r.inputs (t + 1)).cpu)
    (p := (r.state (t + 1)).peripheral (r.inputs (t + 1))) hstate
  rw [← adapter_succ hr] at h32 hready
  have htakes : r.takes (t + 1) = false := by
    rw [takes, Adapter.takes, hstate]
    rfl
  constructor
  · exact Nat.succ_pos t
  · rw [(selects_of_ide32 hstate).1]
    exact h.cs
  · exact h32.trans h.wide
  · exact h.width
  · exact h.fits
  · rw [IdeRun.asked, htakes, h.asked]
    rfl
  · rw [IdeRun.received, ready, hready, if_neg nofun, List.append_nil, h.received]
    exact (take_written (Nat.le_succ t) h.le).symm
  · exact h.le.trans (written_mono (Nat.le_succ t)).length_le

include hcount in
/-- The strobe is held while the guest's pair is not in the buffer. -/
theorem Asking.holds {t c n : Nat} {held : Bool} (h : r.Asking t c n held) (hnd : (r.ide (t + 1)).noData = true) :
    r.Asking (t + 1) c n true := by
  obtain ⟨-, -, -, hstb⟩ := h.strobe hr
  obtain ⟨hnext, hno, -⟩ := step_of_ide32 (c := (r.inputs (t + 1)).cpu)
    (p := (r.state (t + 1)).peripheral (r.inputs (t + 1))) h.state
  rw [← adapter_succ hr] at hnext hno
  obtain ⟨heven, hodd⟩ := fresh hr (Nat.succ_pos t) h.pointer
  have hideAddr : (r.state (t + 1)).adapter.ideAddress = 0 := by
    rcases (wideReads hr (t + 1)).state with ⟨hstate, -⟩ | ⟨-, -, haddr⟩ | ⟨hstate, -⟩
    · exact absurd (h.state.symm.trans hstate) nofun
    · exact haddr
    · exact absurd (h.state.symm.trans hstate) nofun
  refine ⟨h.toReading.later hr h.state, ?_, hno.ideRead, ?_, ?_, ?_, ?_, heven, hodd⟩
  · rw [hnext, ideHold_eq hr h.cs (fun _ => h.cs1), h.wait, h.ideRead, hnd]
    cases held <;> rfl
  · rw [ide0Wait_succ, IdePort.waitNext, hnd, h.wait, h.cs, hideAddr,
      show (r.state (t + 1)).adapter.ideRead = !held from h.ideRead]
    cases held <;> rfl
  · rw [(selects_of_ide32 h.state).2]
    exact h.cs1
  · rw [ide_succ hr, Ide.oldStb_step (quiet hr (Nat.succ_pos t))]
    exact hstb
  · exact h.pointer.stays hr hcount (Nat.succ_pos t) (by rw [hstb]; exact Bool.and_false _)

/-- The channel puts the pair on the data port. -/
theorem Asking.readdata {t c n : Nat} {held : Bool} (h : r.Asking t c n held) :
    (r.ide (t + 2)).ioReaddata = (r.ide (t + 1)).dataWord (decide (n = 2)) := by
  obtain ⟨hread, haddr, hio32, -⟩ := h.strobe hr
  obtain ⟨hdrq, -⟩ := h.pointer.up (by have := h.fits; have := h.width; omega)
  rw [ide_succ hr]
  show (r.ide (t + 1)).ioReaddataNext (r.state (t + 1)).ide0Io = _
  rw [Ide.ioReaddataNext, hread, haddr, hio32, Bool.not_true, if_neg nofun, if_neg (steady hr (t + 1)).present]
  exact if_pos hdrq

/-- The adapter goes on when there is data. -/
theorem Asking.goes {t c n : Nat} {held : Bool} (h : r.Asking t c n held) (hnd : (r.ide (t + 1)).noData = false) :
    (r.adapter (t + 2)).state = (if held then .ide32 else .ide32w) ∧ (r.adapter (t + 2)).ideRead = false ∧
      (r.state (t + 2)).ide0Wait = false := by
  obtain ⟨hnext, hno, -⟩ := step_of_ide32 (c := (r.inputs (t + 1)).cpu)
    (p := (r.state (t + 1)).peripheral (r.inputs (t + 1))) h.state
  rw [← adapter_succ hr] at hnext hno
  refine ⟨?_, hno.ideRead, ?_⟩
  · rw [hnext, ideHold_eq hr h.cs (fun _ => h.cs1), h.wait, hnd]
    cases held <;> simp
  · rw [ide0Wait_succ, IdePort.waitNext, hnd]
    rfl

/-- The guest's pair is in the buffer: the words go to the data port, and the strobe falls. -/
theorem Asking.answers (hfit : r.blockSize ≤ 8192) {t c n : Nat} {held : Bool} (h : r.Asking t c n held)
    (hnd : (r.ide (t + 1)).noData = false) : r.Ending (t + 1) c n (if held then .ide32 else .ide32w) true := by
  have hcount : r.blockSize < 16384 := by omega
  obtain ⟨-, -, hio32, hstb⟩ := h.strobe hr
  obtain ⟨hstate, hread, hwait⟩ := h.goes hr hnd
  have hpair : 2 * (c / 2) + 2 ≤ (r.written t).length := by
    have hn : (r.ide (t + 1)).nData = false := (Bool.or_eq_false_iff.mp hnd).1
    rw [h.nData_eq hr hcount] at hn
    simpa using hn
  have hin : c + n ≤ (r.written t).length := by have := h.width; omega
  refine ⟨h.toReading.later hr h.state, hstate, hread, hwait, ?_, fun _ => ?_, ?_, ?_, ?_⟩
  · rw [ide_succ hr, Ide.oldStb_step (quiet hr (Nat.succ_pos t))]
    exact hstb
  · rw [ide_succ hr, Ide.r32_step (quiet hr (Nat.succ_pos t)), hstb, if_pos rfl, hio32]
  · exact h.pointer.stays hr hcount (Nat.succ_pos t) (by rw [hstb]; exact Bool.and_false _)
  · exact hin.trans (written_mono (Nat.le_succ t)).length_le
  · rw [h.readdata hr, wordsOf_dataWord h.pointer.cnt h.width (fun w hw => h.even.trans (bufWord_eq hr hfit h.pos hw))
      (fun w hw => h.odd.trans (bufWord_eq hr hfit h.pos hw)) hpair]
    exact (drop_written (Nat.le_succ t) hin).symm

/-- What stays on the data port. -/
theorem Ending.data_succ {t c n : Nat} {state : AdapterState} {falls : Bool} (h : r.Ending t c n state falls) :
    (r.ide (t + 2)).ioReaddata = (r.ide (t + 1)).ioReaddata := by
  obtain ⟨hread, -⟩ := notStrobe hr h.ideRead h.wait
  rw [ide_succ hr]
  show (r.ide (t + 1)).ioReaddataNext (r.state (t + 1)).ide0Io = _
  rw [Ide.ioReaddataNext, hread]
  rfl

include hcount in
theorem Ending.pointer_succ {t c n : Nat} {state : AdapterState} {falls : Bool} (h : r.Ending t c n state falls) :
    r.Pointer (t + 2) (c + n) := by
  obtain ⟨-, hdown⟩ := notStrobe hr h.ideRead h.wait
  cases falls with
  | true =>
    exact (show r.Pointer (t + 1) c from h.pointer).moves hr hcount (Nat.succ_pos t) h.oldStb hdown (h.r32 rfl)
      (h.width.imp_right fun hn => hn.1) h.fits
  | false =>
    exact (show r.Pointer (t + 1) (c + n) from h.pointer).stays hr hcount (Nat.succ_pos t) (by rw [h.oldStb]; rfl)

include hcount in
/-- After a held read the adapter takes the words one clock later. -/
theorem Ending.ends {t c n : Nat} {falls : Bool} (h : r.Ending t c n .ide32 falls) :
    r.Ending (t + 1) c n .ide32w false := by
  obtain ⟨-, hdown⟩ := notStrobe hr h.ideRead h.wait
  obtain ⟨hnext, hno, -⟩ := step_of_ide32 (c := (r.inputs (t + 1)).cpu)
    (p := (r.state (t + 1)).peripheral (r.inputs (t + 1))) h.state
  rw [← adapter_succ hr] at hnext hno
  refine ⟨h.toReading.later hr h.state, ?_, hno.ideRead, ?_, ?_, nofun, ?_, ?_, ?_⟩
  · rw [hnext, ideHold_eq hr h.cs (fun hread => absurd (h.ideRead.symm.trans hread) nofun), h.wait, h.ideRead]
    rfl
  · rw [ide0Wait_succ, IdePort.waitNext, h.wait, show (r.state (t + 1)).adapter.ideRead = false from h.ideRead]
    split <;> rfl
  · rw [ide_succ hr, Ide.oldStb_step (quiet hr (Nat.succ_pos t))]
    exact hdown
  · exact h.pointer_succ hr hcount
  · exact h.inBuffer.trans (written_mono (Nat.le_succ t)).length_le
  · rw [h.data_succ hr, h.data]
    exact (drop_written (Nat.le_succ t) h.inBuffer).symm

include hcount in
/-- The read is answered. -/
theorem Ending.rests {t c n : Nat} {falls : Bool} (h : r.Ending t c n .ide32w falls) :
    r.Resting (t + 1) (c + n) ∧ r.ready (t + 2) = true := by
  have hisRead : (r.adapter (t + 1)).isRead = true := by
    rcases (wideReads hr (t + 1)).state with ⟨hstate, -⟩ | ⟨hstate, -⟩ | ⟨-, hread, -⟩
    · exact absurd (h.state.symm.trans hstate) nofun
    · exact absurd (h.state.symm.trans hstate) nofun
    · exact hread
  obtain ⟨-, hdown⟩ := notStrobe hr h.ideRead h.wait
  obtain ⟨hidle, hno, h32, hready, hdout⟩ := step_of_ide32w (c := (r.inputs (t + 1)).cpu)
    (p := (r.state (t + 1)).peripheral (r.inputs (t + 1))) h.state hisRead
  rw [← adapter_succ hr] at hidle hno h32 hready hdout
  have hdata : (r.adapter (t + 2)).cpuDout = (r.ide (t + 1)).ioReaddata := by
    rw [hdout]
    show (if (r.state (t + 1)).ide0Cs = true then _ else _) = _
    rw [h.cs, if_pos rfl]
    rfl
  have htakes : r.takes (t + 1) = false := by
    rw [takes, Adapter.takes, h.state]
    rfl
  refine ⟨⟨hidle, hno.ideRead, ?_, ?_, h.pointer_succ hr hcount, ?_, ?_, ?_⟩, hready⟩
  · rw [ide0Wait_succ, IdePort.waitNext, h.wait, show (r.state (t + 1)).adapter.ideRead = false from h.ideRead]
    split <;> rfl
  · rw [ide_succ hr, Ide.oldStb_step (quiet hr (Nat.succ_pos t))]
    exact hdown
  · rw [IdeRun.asked, htakes, h.asked]
    rfl
  · rw [IdeRun.received, ready, hready, if_pos rfl, hdata, h32, h.wide, h.data, h.received, ← List.take_add]
    exact (take_written (Nat.le_succ t) h.inBuffer).symm
  · exact h.inBuffer.trans (written_mono (Nat.le_succ t)).length_le

end Phases

end IdeRun

end Z486.Disk
