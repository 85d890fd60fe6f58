/-
A setup program that changes bytes of the CMOS RAM and rewrites their checksum. The guest's words at 2Eh and 2Fh go to
the CMOS RAM, and its reads of them come from the registers of the host's word. So the checksum that is read afterwards
is the host's, and it is the sum of the bytes only when the changes leave that sum as it was.
-/
import Z486.Cmos.Checksum
import Z486.Clocked.Fifo

namespace Z486.Cmos

open Clocked (journal journal_succ)

/-! ## The guest's writes -/

/-- An image with bytes written to it, in order. -/
def rewritten (f : BitVec 7 → BitVec 8) (ws : List (BitVec 7 × BitVec 8)) : BitVec 7 → BitVec 8 :=
  ws.foldl (fun g w => Function.update g w.1 w.2) f

theorem rewritten_append (f : BitVec 7 → BitVec 8) (ws vs : List (BitVec 7 × BitVec 8)) :
    rewritten f (ws ++ vs) = rewritten (rewritten f ws) vs := List.foldl_append

/-- Bytes that are not written are those of the image. -/
theorem rewritten_of_notMem {f : BitVec 7 → BitVec 8} {a : BitVec 7} {ws : List (BitVec 7 × BitVec 8)}
    (hws : ∀ w ∈ ws, w.1 ≠ a) : rewritten f ws a = f a := by
  induction ws generalizing f with
  | nil => rfl
  | cons w ws ih =>
    have hhead : Function.update f w.1 w.2 a = f a :=
      Function.update_of_ne (hws w List.mem_cons_self).symm _ _
    exact (ih fun v hv => hws v (List.mem_cons_of_mem _ hv)).trans hhead

/-- Where two images agree, they agree after the same writes. -/
theorem rewritten_congr {f g : BitVec 7 → BitVec 8} {a : BitVec 7} (ws : List (BitVec 7 × BitVec 8)) (h : f a = g a) :
    rewritten f ws a = rewritten g ws a := by
  induction ws generalizing f g with
  | nil => exact h
  | cons w ws ih =>
    refine ih ?_
    show Function.update f w.1 w.2 a = Function.update g w.1 w.2 a
    rw [Function.update_apply, Function.update_apply, h]

/-- The image that the host has stored: the bytes that the RTC replaces are in registers of their own. -/
def Rtc.stored (s : Rtc) : BitVec 7 → BitVec 8 :=
  Function.update (Function.update (Function.update s.ram 0x14 s.mgmtEquipment) 0x17 s.mgmtExtMemLsb) 0x18 s.mgmtExtMemMsb

namespace RtcRun

variable (r : RtcRun)

/-- The guest writes the byte that it has selected. -/
def stores (t : Nat) : Bool := (r.inputs t).ioWrite && (r.inputs t).ioAddress

/-- The bytes that the guest has written before clock `t`. -/
def writes (t : Nat) : List (BitVec 7 × BitVec 8) :=
  journal (fun u => if r.stores u then [((r.state u).ramAddress, (r.inputs u).ioWritedata)] else []) t

/-- The host is done, and the configuration stays as it is. -/
structure HostDone : Prop where
  host : ∀ t, (r.inputs t).mgmtWrite = false
  ramSize : ∀ t, (r.inputs t).ramSize = (r.inputs 0).ramSize
  fpuOff : ∀ t, (r.inputs t).fpuOff = (r.inputs 0).fpuOff

/-- From clock `w` on the guest writes none of the bytes 10h to 2Dh. -/
def Settled (w : Nat) : Prop :=
  ∀ t, w ≤ t → r.stores t = true → Covered (r.state t).ramAddress →
    (r.state t).ramAddress = 0x2E ∨ (r.state t).ramAddress = 0x2F

/-- A setup program. Before clock `w` the guest writes bytes, but none of those that the RTC replaces. Before clock `s` it
then reads the bytes 10h to 2Dh, before clock `v` it writes the sum of what it has read to 2Eh and 2Fh, and after that it
reads all bytes again. -/
structure Setup (w s v : Nat) (read final : BitVec 7 → BitVec 8) : Prop extends r.HostDone where
  spared : ∀ b ∈ r.writes w, b.1 ≠ 0x14 ∧ b.1 ≠ 0x17 ∧ b.1 ≠ 0x18
  reads : ∀ a, Covered a → a < 0x2E → ∃ t u, w ≤ t ∧ u < s ∧ r.GuestReads a t u (read a)
  stays : ∀ t, w ≤ t → t < s → r.stores t = true → ¬ Covered (r.state t).ramAddress
  high : ∃ t, s ≤ t ∧ t < v ∧ r.stores t = true ∧ (r.state t).ramAddress = 0x2E
  low : ∃ t, s ≤ t ∧ t < v ∧ r.stores t = true ∧ (r.state t).ramAddress = 0x2F
  only : ∀ t, s ≤ t → r.stores t = true → Covered (r.state t).ramAddress → t < v ∧
    ((r.state t).ramAddress = 0x2E ∧ (r.inputs t).ioWritedata = (checksum read).extractLsb' 8 8 ∨
      (r.state t).ramAddress = 0x2F ∧ (r.inputs t).ioWritedata = (checksum read).extractLsb' 0 8)
  rereads : ∀ a, Covered a → ∃ t u, v ≤ t ∧ r.GuestReads a t u (final a)

variable {r}

/-! ## What the RTC holds -/

/-- The host's registers stay. -/
theorem HostDone.registers (h : r.HostDone) (t : Nat) : (r.state t).mgmtEquipment = r.start.mgmtEquipment ∧
    (r.state t).mgmtExtMemLsb = r.start.mgmtExtMemLsb ∧ (r.state t).mgmtExtMemMsb = r.start.mgmtExtMemMsb ∧
    (r.state t).mgmtChecksum = r.start.mgmtChecksum := by
  induction t with
  | zero => exact ⟨rfl, rfl, rfl, rfl⟩
  | succ t ih =>
    obtain ⟨he, hl, hm, hsum⟩ := ih
    have hquiet : ∀ a old, Rtc.mgmtWritten (r.inputs t) a old = old := by
      intro a old
      simp [Rtc.mgmtWritten, h.host t]
    rw [state_succ, ← he, ← hl, ← hm, ← hsum]
    exact ⟨hquiet _ _, hquiet _ _, hquiet _ _,
      (congrArg₂ (fun a b : BitVec 8 => (a ++ b : BitVec 16)) (hquiet _ _) (hquiet _ _)).trans (Rtc.append_extract _)⟩

theorem HostDone.ram_succ (h : r.HostDone) (t : Nat) : (r.state (t + 1)).ram =
    if r.stores t then Function.update (r.state t).ram (r.state t).ramAddress (r.inputs t).ioWritedata
    else (r.state t).ram := by
  rw [state_succ]
  show (r.state t).ramNext (r.inputs t) = _
  rw [Rtc.ramNext, h.host t]
  rfl

/-- The CMOS RAM is the stored one with the guest's bytes. -/
theorem HostDone.ram_eq (h : r.HostDone) (t : Nat) : (r.state t).ram = rewritten r.start.ram (r.writes t) := by
  induction t with
  | zero => rfl
  | succ t ih =>
    rw [h.ram_succ, ih, show r.writes (t + 1) = r.writes t ++ _ from journal_succ _ t, rewritten_append]
    cases r.stores t with
    | false => rfl
    | true => rfl

theorem Settled.ram_eq (h : r.HostDone) {w : Nat} (hw : r.Settled w) {t : Nat} (ht : w ≤ t) {a : BitVec 7}
    (ha : Covered a) (h2e : a ≠ 0x2E) (h2f : a ≠ 0x2F) : (r.state t).ram a = (r.state w).ram a := by
  induction t, ht using Nat.le_induction with
  | base => rfl
  | succ t ht ih =>
    rw [h.ram_succ]
    cases hs : r.stores t with
    | false => exact ih
    | true =>
      refine (Function.update_of_ne (fun heq => ?_) _ _).trans ih
      rcases hw t ht hs (heq ▸ ha) with h' | h'
      · exact h2e (heq.trans h')
      · exact h2f (heq.trans h')

/-- What the guest reads while it changes nothing. -/
theorem GuestReads.settled (h : r.HostDone) {w : Nat} (hw : r.Settled w) {a : BitVec 7} (ha : Covered a) {t u : Nat}
    {b : BitVec 8} (hread : r.GuestReads a t u b) (ht : w ≤ t) :
    b = (r.state w).replaced r.fpuPresent (r.inputs w) a := by
  obtain ⟨hsel, hrd⟩ := hread.selected
  have hu : w ≤ u := ht.trans hread.lt.le
  obtain ⟨he, hl, hm, hsum⟩ := h.registers u
  obtain ⟨he', hl', hm', hsum'⟩ := h.registers w
  rw [hread.byte_eq, Rtc.ioReaddataNext_covered _ _ _ ha hread.read.2 hsel hrd]
  exact Rtc.replaced_congr _ (he.trans he'.symm) (hl.trans hl'.symm) (hm.trans hm'.symm) (hsum.trans hsum'.symm)
    ((h.ramSize u).trans (h.ramSize w).symm) ((h.fpuOff u).trans (h.fpuOff w).symm)
    (hw.ram_eq h hu ha)

/-! ## The checksum after the setup -/

section Setup

variable {w s v : Nat} {read final : BitVec 7 → BitVec 8}

theorem Setup.settled (h : r.Setup w s v read final) : r.Settled w := by
  intro t ht hstores hcovered
  rcases Nat.lt_or_ge t s with hlt | hge
  · exact absurd hcovered (h.stays t ht hlt hstores)
  · obtain ⟨-, ⟨h2e, -⟩ | ⟨h2f, -⟩⟩ := h.only t hge hstores hcovered
    · exact .inl h2e
    · exact .inr h2f

/-- What the guest reads before and after it writes the sum. -/
theorem Setup.read_eq (h : r.Setup w s v read final) :
    checksum read = checksum ((r.state w).replaced r.fpuPresent (r.inputs w)) ∧
      ∀ a, Covered a → final a = (r.state w).replaced r.fpuPresent (r.inputs w) a := by
  constructor
  · refine Rtc.checksum_congr fun n hlo hhi => ?_
    have hcovered : Covered (BitVec.ofNat 7 n) := ⟨by bv_omega, by bv_omega⟩
    obtain ⟨t, u, ht, -, hread⟩ := h.reads _ hcovered (by bv_omega)
    exact hread.settled h.toHostDone h.settled hcovered ht
  · intro a ha
    obtain ⟨t, u, ht, hread⟩ := h.rereads a ha
    obtain ⟨x, hsx, hxv, -⟩ := h.high
    have hws : w ≤ s := by
      obtain ⟨t', u', ht', hu', hread'⟩ := h.reads 0x10 (by decide) (by decide)
      have := hread'.lt
      omega
    exact hread.settled h.toHostDone h.settled ha (by omega)

/-- The image with the guest's bytes, and the RTC when it has written them. -/
theorem Setup.image_eq (h : r.Setup w s v read final) :
    (∀ a, a ≠ 0x14 → a ≠ 0x17 → a ≠ 0x18 → rewritten r.start.stored (r.writes w) a = (r.state w).ram a) ∧
      (r.state w).mgmtEquipment = rewritten r.start.stored (r.writes w) 0x14 ∧
      (r.state w).mgmtExtMemLsb = rewritten r.start.stored (r.writes w) 0x17 ∧
      (r.state w).mgmtExtMemMsb = rewritten r.start.stored (r.writes w) 0x18 := by
  obtain ⟨he, hl, hm, -⟩ := h.toHostDone.registers w
  refine ⟨fun a h14 h17 h18 => ?_, ?_, ?_, ?_⟩
  · rw [h.toHostDone.ram_eq w]
    refine rewritten_congr _ ?_
    rw [Rtc.stored, Function.update_of_ne h18, Function.update_of_ne h17, Function.update_of_ne h14]
  · rw [he, rewritten_of_notMem fun b hb => (h.spared b hb).1]
    rfl
  · rw [hl, rewritten_of_notMem fun b hb => (h.spared b hb).2.1]
    rfl
  · rw [hm, rewritten_of_notMem fun b hb => (h.spared b hb).2.2]
    rfl

/-- After a setup the guest reads the sum that it has written, and finds it to be that of the bytes, exactly if the
stored image with the guest's bytes has the sum that the host has written. -/
theorem Setup.restored_iff (h : r.Setup w s v read final) :
    (final 0x2E ++ final 0x2F = checksum read ∧ Consistent final) ↔
      checksum (rewritten r.start.stored (r.writes w)) = r.start.mgmtChecksum := by
  obtain ⟨hread, hfinal⟩ := h.read_eq
  obtain ⟨hram, he, hl, hm⟩ := h.image_eq
  have hsum : checksum final = checksum ((r.state w).replaced r.fpuPresent (r.inputs w)) :=
    Rtc.checksum_congr fun n hlo hhi => hfinal _ ⟨by bv_omega, by bv_omega⟩
  rw [← (h.toHostDone.registers w).2.2.2,
    ← Rtc.consistent_replaced_iff r.fpuPresent (r.state w) (r.inputs w) (fun a _ => hram a) he hl hm]
  unfold Consistent
  rw [hsum, hread, hfinal _ (by decide), hfinal _ (by decide)]
  constructor
  · exact fun hboth => hboth.2
  · exact fun heq => ⟨heq.symm, heq⟩

end Setup

/-! ## A setup that changes two bytes -/

/-- What the guest selects, two clocks a byte: the bytes 20h and 21h, the bytes that the checksum covers, the checksum, and
all of them again. -/
def setupByte (k : Nat) : Nat :=
  if k < 2 then 0x20 + k else if k < 32 then 0x10 + (k - 2) else if k < 34 then 0x2E + (k - 32) else 0x10 + (k - 34)

/-- The bytes 20h and 21h hold 7 and 5; the guest writes `first` and `second` to them, and then `sum`. -/
def setupRun (first second : BitVec 8) (sum : BitVec 16) : RtcRun where
  fpuPresent := true
  start :=
    { clkRate := 0, ce8192hz := false, ce8192hzSum := 0
      mgmtExtMemLsb := 0, mgmtExtMemMsb := 0x3C, mgmtEquipment := 0, mgmtChecksum := 0x48
      ioReadLast := false, ioReaddata := 0, irq := false, secondMajor := 0, updateInterrupt := false
      time := ⟨0, 0, 0, 0, 0, 0, 0, 0⟩, alarmSecond := 0, alarmMinute := 0, alarmHour := 0, alarmInterrupt := false
      crb := ⟨false, false, false, false, false, false, false⟩, divider := 0, periodicRate := 0, periodicMajor := 0
      periodicInterrupt := false, ramAddress := 0, rdaddr := 0
      ram := fun a => if a = 0x20 then 7 else if a = 0x21 then 5 else 0 }
  inputs t :=
    let writes := t == 1 || t == 3 || t == 65 || t == 67
    { rstN := true, ioAddress := t % 2 == 1, ioRead := t % 2 == 1 && !writes, ioWrite := t % 2 == 0 || writes
      ioWritedata :=
        if t % 2 = 0 then BitVec.ofNat 8 (setupByte (t / 2))
        else if t = 1 then first else if t = 3 then second
        else if t = 65 then sum.extractLsb' 8 8 else sum.extractLsb' 0 8
      bootcfg := 0, ramSize := 0, fpuOff := false, mgmtAddress := 0, mgmtWrite := false, mgmtWritedata := 0
      clockRate := 90000000 }

section Example

variable {first second : BitVec 8} {sum : BitVec 16}

theorem setupRun_hostDone : (setupRun first second sum).HostDone := ⟨fun _ => rfl, fun _ => rfl, fun _ => rfl⟩

theorem setupRun_stores {t : Nat} (h : (setupRun first second sum).stores t = true) :
    t = 1 ∨ t = 3 ∨ t = 65 ∨ t = 67 := by
  simp only [stores, setupRun, Bool.and_eq_true, Bool.or_eq_true, beq_iff_eq] at h
  omega

theorem setupRun_selected (k : Nat) : ((setupRun first second sum).state (2 * k + 1)).ramAddress =
    (BitVec.ofNat 8 (setupByte k)).extractLsb' 0 7 := by
  have heven : 2 * k % 2 = 0 := by omega
  have hhalf : 2 * k / 2 = k := by omega
  rw [state_succ]
  simp only [Rtc.step, setupRun, heven, hhalf]
  rfl

/-- The guest's writes: the two bytes, and the sum. -/
theorem setupRun_address : ((setupRun first second sum).state 1).ramAddress = 0x20 ∧
    ((setupRun first second sum).state 3).ramAddress = 0x21 ∧ ((setupRun first second sum).state 65).ramAddress = 0x2E ∧
    ((setupRun first second sum).state 67).ramAddress = 0x2F :=
  ⟨setupRun_selected 0, setupRun_selected 1, setupRun_selected 32, setupRun_selected 33⟩

theorem setupRun_writes : (setupRun first second sum).writes 4 = [(0x20, first), (0x21, second)] := by
  obtain ⟨h1, h3, -⟩ := @setupRun_address first second sum
  rw [writes, journal_succ, journal_succ, journal_succ, journal_succ, h1, h3]
  rfl

theorem setupRun_settled : (setupRun first second sum).Settled 4 := by
  obtain ⟨-, -, h65, h67⟩ := @setupRun_address first second sum
  intro t ht hstores _
  obtain rfl | rfl | rfl | rfl := setupRun_stores hstores
  · omega
  · omega
  · exact .inl h65
  · exact .inr h67

/-- The byte that the guest finds in the round that begins in clock `w`. -/
def setupRead (r : RtcRun) (w : Nat) (a : BitVec 7) : BitVec 8 := (r.state (2 * (a.toNat - 0x10) + w + 2)).ioReaddata

theorem setupRun_reads {a : BitVec 7} (ha : Covered a) {w : Nat} (hw : w = 4 ∧ a < 0x2E ∨ w = 68) :
    (setupRun first second sum).GuestReads a (2 * (a.toNat - 0x10) + w) (2 * (a.toNat - 0x10) + w + 1)
      (setupRead (setupRun first second sum) w a) := by
  obtain ⟨n, hlo, hhi, rfl⟩ := Rtc.exists_of_covered ha
  have hn : (BitVec.ofNat 7 n).toNat = n := by
    rw [BitVec.toNat_ofNat]
    omega
  have hclock : w = 4 ∧ n < 0x2E ∨ w = 68 := hw.imp_left fun h => ⟨h.1, by have := h.2; bv_omega⟩
  have heven : (2 * (n - 0x10) + w) % 2 = 0 := by omega
  have hodd : (2 * (n - 0x10) + w + 1) % 2 = 1 := by omega
  have hbyte : setupByte ((2 * (n - 0x10) + w) / 2) = n := by
    unfold setupByte
    split_ifs <;> omega
  rw [hn]
  refine ⟨by omega, ⟨?_, ?_⟩, fun v h1 h2 => by omega, fun _ _ _ => rfl, ⟨?_, ?_⟩, ?_⟩
  · simp only [selects, setupRun, heven]
    rfl
  · simp only [setupRun, heven, if_true, hbyte]
    interval_cases n <;> rfl
  · simp only [setupRun, hodd, beq_self_eq_true, Bool.true_and, Bool.not_eq_true', Bool.or_eq_false_iff,
      beq_eq_false_iff_ne]
    omega
  · simp only [setupRun, hodd, beq_self_eq_true]
  · rw [setupRead, hn]

/-- The sum of the bytes that the guest finds, before it has written it. -/
theorem setupRun_sum : checksum (setupRead (setupRun first second sum) 4) =
    checksum (((setupRun first second sum).state 4).replaced true ((setupRun first second sum).inputs 4)) := by
  refine Rtc.checksum_congr fun n hlo hhi => ?_
  have hcovered : Covered (BitVec.ofNat 7 n) := ⟨by bv_omega, by bv_omega⟩
  exact (setupRun_reads hcovered (.inl ⟨rfl, by bv_omega⟩)).settled setupRun_hostDone setupRun_settled hcovered (by omega)

theorem setupRun_setup (hsum : checksum (setupRead (setupRun first second sum) 4) = sum) :
    (setupRun first second sum).Setup 4 64 68 (setupRead (setupRun first second sum) 4)
      (setupRead (setupRun first second sum) 68) := by
  obtain ⟨h1, h3, h65, h67⟩ := @setupRun_address first second sum
  refine ⟨setupRun_hostDone, ?_, fun a ha hlt => ?_, fun t ht hlt hstores => ?_, ⟨65, by omega, by omega, rfl, h65⟩,
    ⟨67, by omega, by omega, rfl, h67⟩, fun t ht hstores _ => ?_, fun a ha => ?_⟩
  · rw [setupRun_writes]
    simp only [List.mem_cons, List.not_mem_nil, or_false, forall_eq_or_imp, forall_eq]
    decide
  · exact ⟨_, _, by omega, by bv_omega, setupRun_reads ha (.inl ⟨rfl, hlt⟩)⟩
  · obtain rfl | rfl | rfl | rfl := setupRun_stores hstores <;> omega
  · rw [hsum]
    obtain rfl | rfl | rfl | rfl := setupRun_stores hstores
    · omega
    · omega
    · exact ⟨by omega, .inl ⟨h65, rfl⟩⟩
    · exact ⟨by omega, .inr ⟨h67, rfl⟩⟩
  · exact ⟨_, _, by omega, setupRun_reads ha (.inr rfl)⟩

end Example

/-- Two bytes that change places leave the sum as it was. -/
theorem swapped_restored : setupRead (setupRun 5 7 0x4E) 68 0x2E ++ setupRead (setupRun 5 7 0x4E) 68 0x2F =
      checksum (setupRead (setupRun 5 7 0x4E) 4) ∧ Consistent (setupRead (setupRun 5 7 0x4E) 68) := by
  have hsum : checksum (setupRead (setupRun 5 7 0x4E) 4) = 0x4E := by
    rw [setupRun_sum]
    decide
  refine (setupRun_setup hsum).restored_iff.2 ?_
  rw [setupRun_writes]
  decide

/-- A byte that changes alone does not: the guest reads the host's checksum. -/
theorem changed_not_restored : ¬ ∀ (r : RtcRun) (w s v : Nat) (read final : BitVec 7 → BitVec 8),
    r.Setup w s v read final → final 0x2E ++ final 0x2F = checksum read ∧ Consistent final := by
  intro hall
  have hsum : checksum (setupRead (setupRun 8 5 0x4F) 4) = 0x4F := by
    rw [setupRun_sum]
    decide
  have hsetup := setupRun_setup hsum
  obtain ⟨hword, -⟩ := hall _ _ _ _ _ _ hsetup
  obtain ⟨-, hfinal⟩ := hsetup.read_eq
  rw [hsum, hfinal _ (by decide), hfinal _ (by decide)] at hword
  revert hword
  decide

end RtcRun

end Z486.Cmos
