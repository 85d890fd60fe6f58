/-
The checksum of the CMOS RAM. The RTC replaces some of the bytes that the checksum covers by those of the
configuration, and corrects the checksum that the guest reads by the difference.
-/
import Z486.Cmos.Rtc
import Mathlib.Data.BitVec
import Mathlib.Algebra.BigOperators.Intervals
import Mathlib.Tactic.Abel
import Mathlib.Tactic.IntervalCases

namespace Z486.Cmos

/-! ## Sums -/

/-- The sum of the bytes 10h to 2Dh. -/
def checksum (f : BitVec 7 → BitVec 8) : BitVec 16 :=
  ∑ n ∈ Finset.Ico 0x10 0x2E, (f (BitVec.ofNat 7 n)).setWidth 16

/-- The word at 2Eh and 2Fh is the sum of the bytes. -/
def Consistent (f : BitVec 7 → BitVec 8) : Prop := checksum f = f 0x2E ++ f 0x2F

instance (f : BitVec 7 → BitVec 8) : Decidable (Consistent f) := inferInstanceAs (Decidable (_ = _))

/-- The bytes of the checksum and of what it covers. -/
def Covered (a : BitVec 7) : Prop := 0x10 ≤ a ∧ a ≤ 0x2F

instance (a : BitVec 7) : Decidable (Covered a) := inferInstanceAs (Decidable (_ ∧ _))

/-! ## Runs of the host -/

/-- The RTC as it is configured. -/
structure PoweredOn (s : Rtc) : Prop where
  ram : s.ram = fun _ => 0
  lsb : s.mgmtExtMemLsb = 0
  msb : s.mgmtExtMemMsb = 0x3C
  equipment : s.mgmtEquipment = 0
  checksum : s.mgmtChecksum = 0

/-- A run in which the host alone writes the bytes that the checksum covers. -/
structure HostRun extends RtcRun where
  poweredOn : PoweredOn start
  guest : ∀ t, (inputs t).ioWrite = true → (inputs t).ioAddress = true → ¬ Covered (toRtcRun.state t).ramAddress

namespace HostRun

variable (r : HostRun)

/-- The host has written byte `a` before clock `t`. -/
def Wrote (a : BitVec 7) (t : Nat) : Prop :=
  ∃ u, u < t ∧ (r.inputs u).mgmtWrite = true ∧ (r.inputs u).mgmtAddress = 0#1 ++ a

/-- The image in the CMOS RAM, in which byte 18h is 3Ch until the host writes it. -/
def IsImage (t : Nat) (f : BitVec 7 → BitVec 8) : Prop :=
  (∀ a, a ≠ 0x18 ∨ r.Wrote 0x18 t → f a = (r.state t).ram a) ∧ (¬ r.Wrote 0x18 t → f 0x18 = 0x3C)

/-- From clock `t` on the guest reads the bytes `f`, in any order, and the configuration stays as it is. -/
structure Reads (t : Nat) (f : BitVec 7 → BitVec 8) : Prop where
  host : ∀ u, t ≤ u → (r.inputs u).mgmtWrite = false
  ramSize : ∀ u, t ≤ u → (r.inputs u).ramSize = (r.inputs t).ramSize
  fpuOff : ∀ u, t ≤ u → (r.inputs u).fpuOff = (r.inputs t).fpuOff
  reads : ∀ a, Covered a → ∃ u v, t ≤ u ∧ r.GuestReads a u v (f a)

end HostRun

/-! ## The bytes that are replaced -/

namespace Rtc

variable (fpuPresent : Bool) (s : Rtc) (i : RtcIn)

/-- The image with the bytes of the configuration in it. -/
def replaced (a : BitVec 7) : BitVec 8 :=
  if a = 0x14 then s.configuredEquipment fpuPresent i
  else if a = 0x17 then (configuredExtMem i).extractLsb' 0 8
  else if a = 0x18 then (configuredExtMem i).extractLsb' 8 8
  else if a = 0x2E then (s.configuredChecksumWithEquipment fpuPresent i).extractLsb' 8 8
  else if a = 0x2F then (s.configuredChecksumWithEquipment fpuPresent i).extractLsb' 0 8
  else s.ram a

theorem exists_of_covered {a : BitVec 7} (h : Covered a) : ∃ n, 0x10 ≤ n ∧ n ≤ 0x2F ∧ a = BitVec.ofNat 7 n := by
  obtain ⟨hlo, hhi⟩ := h
  exact ⟨a.toNat, by bv_omega, by bv_omega, by simp⟩

/-- What a read of a byte returns that the checksum covers. -/
theorem ioReaddataNext_covered {a : BitVec 7} (h : Covered a) (hi : i.ioAddress = true) (hram : s.ramAddress = a)
    (hrd : s.rdaddr = a) : s.ioReaddataNext fpuPresent i = s.replaced fpuPresent i a := by
  obtain ⟨n, hlo, hhi, rfl⟩ := exists_of_covered h
  unfold ioReaddataNext replaced ramQ
  rw [hi, hram, hrd]
  interval_cases n <;> rfl

/-- The image depends on the host's registers, the configuration and the byte of the RAM that is not replaced. -/
theorem replaced_congr {s s' : Rtc} {i i' : RtcIn} (he : s.mgmtEquipment = s'.mgmtEquipment)
    (hl : s.mgmtExtMemLsb = s'.mgmtExtMemLsb) (hm : s.mgmtExtMemMsb = s'.mgmtExtMemMsb)
    (hsum : s.mgmtChecksum = s'.mgmtChecksum) (hsize : i.ramSize = i'.ramSize) (hfpu : i.fpuOff = i'.fpuOff)
    {a : BitVec 7} (hram : a ≠ 0x2E → a ≠ 0x2F → s.ram a = s'.ram a) :
    s.replaced fpuPresent i a = s'.replaced fpuPresent i' a := by
  have hequipment : s.configuredEquipment fpuPresent i = s'.configuredEquipment fpuPresent i' := by
    unfold configuredEquipment fpuReported
    rw [he, hfpu]
  have hext : configuredExtMem i = configuredExtMem i' := by
    unfold configuredExtMem
    rw [hsize]
  have hchecksum : s.configuredChecksumWithEquipment fpuPresent i = s'.configuredChecksumWithEquipment fpuPresent i' := by
    unfold configuredChecksumWithEquipment configuredChecksum fpuReported
    rw [he, hl, hm, hsum, hfpu, hext]
  unfold replaced
  rw [hequipment, hext, hchecksum]
  by_cases h2e : a = 0x2E
  · subst h2e
    rfl
  · by_cases h2f : a = 0x2F
    · subst h2f
      rfl
    · rw [hram h2e h2f]

/-- The equipment byte of the configuration, and its difference to that of the host. -/
theorem equipment_eq : ∀ (e : BitVec 8) (f : Bool),
    (e.extractLsb' 3 5 ++ 1#1 ++ BitVec.ofBool f ++ e.extractLsb' 0 1).setWidth 16 =
      e.setWidth 16 + (0#13 ++ 1#1 ++ BitVec.ofBool f ++ 0#1) - (0#13 ++ e.extractLsb' 1 2 ++ 0#1) := by
  decide

theorem setWidth_eq (b : BitVec 8) : 0#8 ++ b = b.setWidth 16 := by
  ext k hk
  simp only [BitVec.getElem_append, BitVec.getElem_setWidth]
  grind

theorem append_extract (w : BitVec 16) : w.extractLsb' 8 8 ++ w.extractLsb' 0 8 = w := by
  ext k hk
  simp only [BitVec.getElem_append, BitVec.getElem_extractLsb']
  grind

theorem checksum_congr {f g : BitVec 7 → BitVec 8}
    (h : ∀ n, 0x10 ≤ n → n < 0x2E → f (BitVec.ofNat 7 n) = g (BitVec.ofNat 7 n)) : checksum f = checksum g := by
  refine Finset.sum_congr rfl fun n hn => ?_
  rw [Finset.mem_Ico] at hn
  rw [h n hn.1 hn.2]

/-- The checksum of an image with another byte in it. -/
theorem checksum_update (f : BitVec 7 → BitVec 8) (a : BitVec 7) (b : BitVec 8) (hlo : 0x10 ≤ a.toNat)
    (hhi : a.toNat < 0x2E) :
    checksum (Function.update f a b) = checksum f - (f a).setWidth 16 + b.setWidth 16 := by
  have hmem : a.toNat ∈ Finset.Ico 0x10 0x2E := Finset.mem_Ico.2 ⟨hlo, hhi⟩
  have hrest : ∀ m ∈ (Finset.Ico 0x10 0x2E).erase a.toNat,
      (Function.update f a b (BitVec.ofNat 7 m)).setWidth 16 = (f (BitVec.ofNat 7 m)).setWidth 16 := by
    intro m hm
    rw [Finset.mem_erase, Finset.mem_Ico] at hm
    rw [Function.update_of_ne (by bv_omega)]
  unfold checksum
  rw [← Finset.add_sum_erase _ _ hmem, Finset.sum_congr rfl hrest,
    ← Finset.add_sum_erase _ (fun n => (f (BitVec.ofNat 7 n)).setWidth 16) hmem]
  simp only [BitVec.ofNat_toNat, BitVec.setWidth_eq, Function.update_self]
  abel

/-- The checksum of the image with the bytes of the configuration in it. -/
theorem checksum_replaced (f : BitVec 7 → BitVec 8)
    (hf : ∀ a, Covered a → a ≠ 0x14 → a ≠ 0x17 → a ≠ 0x18 → f a = s.ram a) : checksum (s.replaced fpuPresent i) = checksum f
      - (f 0x14).setWidth 16 + (s.configuredEquipment fpuPresent i).setWidth 16
      - (f 0x17).setWidth 16 + ((configuredExtMem i).extractLsb' 0 8).setWidth 16
      - (f 0x18).setWidth 16 + ((configuredExtMem i).extractLsb' 8 8).setWidth 16 := by
  have hreplaced : checksum (s.replaced fpuPresent i) =
      checksum (Function.update (Function.update (Function.update f 0x14 (s.configuredEquipment fpuPresent i))
        0x17 ((configuredExtMem i).extractLsb' 0 8)) 0x18 ((configuredExtMem i).extractLsb' 8 8)) := by
    refine checksum_congr fun n hlo hhi => ?_
    simp only [Function.update_apply]
    unfold replaced
    interval_cases n <;> first | rfl | exact (hf _ (by decide) (by decide) (by decide) (by decide)).symm
  rw [hreplaced, checksum_update _ 0x18 _ (by decide) (by decide), checksum_update _ 0x17 _ (by decide) (by decide),
    checksum_update _ 0x14 _ (by decide) (by decide)]
  rfl

/-- The word that is read is the sum of the bytes that are read exactly if the host's word is the sum of the image,
when the registers of the host's bytes hold those of the image. -/
theorem consistent_replaced_iff {f : BitVec 7 → BitVec 8}
    (hf : ∀ a, Covered a → a ≠ 0x14 → a ≠ 0x17 → a ≠ 0x18 → f a = s.ram a) (he : s.mgmtEquipment = f 0x14)
    (hl : s.mgmtExtMemLsb = f 0x17) (hm : s.mgmtExtMemMsb = f 0x18) :
    Consistent (s.replaced fpuPresent i) ↔ checksum f = s.mgmtChecksum := by
  have hread : s.replaced fpuPresent i 0x2E ++ s.replaced fpuPresent i 0x2F =
      s.configuredChecksumWithEquipment fpuPresent i := append_extract _
  have hsum : checksum (s.replaced fpuPresent i) - s.configuredChecksumWithEquipment fpuPresent i =
      checksum f - s.mgmtChecksum := by
    rw [checksum_replaced fpuPresent s i f hf, ← he, ← hl, ← hm]
    unfold configuredChecksumWithEquipment configuredChecksum configuredEquipment
    rw [equipment_eq, setWidth_eq, setWidth_eq, setWidth_eq, setWidth_eq]
    abel
  unfold Consistent
  rw [hread, ← sub_eq_zero, hsum, sub_eq_zero]

/-- The address of a byte of the CMOS RAM on the host's side. -/
theorem mgmt_address (m : BitVec 8) (a : BitVec 7) : m = 0#1 ++ a ↔ m.getLsbD 7 = false ∧ m.extractLsb' 0 7 = a := by
  constructor
  · rintro rfl
    refine ⟨BitVec.getLsbD_append.trans (by simp), ?_⟩
    ext k hk
    simp only [BitVec.getElem_extractLsb', BitVec.getLsbD_append]
    grind
  · rintro ⟨h7, rfl⟩
    ext k hk
    refine Eq.trans ?_ (BitVec.getElem_append (by omega)).symm
    simp only [BitVec.getElem_extractLsb']
    rcases Nat.lt_or_eq_of_le (Nat.le_of_lt_succ hk) with h | rfl
    · simp [h, BitVec.getLsbD_eq_getElem hk]
    · rw [← BitVec.getLsbD_eq_getElem hk, h7]
      simp

/-- A byte that the checksum covers is written by the host alone. -/
theorem ramNext_covered {a : BitVec 7} (hguest : i.ioWrite = true → i.ioAddress = true → s.ramAddress ≠ a) :
    s.ramNext i a = mgmtWritten i (0#1 ++ a) (s.ram a) := by
  unfold ramNext mgmtWritten
  cases hw : i.mgmtWrite with
  | true =>
    cases h7 : i.mgmtAddress.getLsbD 7 with
    | true =>
      have hne : i.mgmtAddress ≠ 0#1 ++ a := by
        rw [Ne, mgmt_address, h7]
        simp
      cases hio : i.ioWrite && i.ioAddress with
      | true =>
        rw [Bool.and_eq_true] at hio
        simp [hne, Function.update_of_ne (hguest hio.1 hio.2).symm]
      | false => simp [hne]
    | false =>
      simp only [Bool.not_false, Bool.and_self, if_true, Bool.true_and, Function.update_apply, beq_iff_eq,
        mgmt_address, h7, true_and]
      congr 1
      exact propext eq_comm
  | false =>
    cases hio : i.ioWrite && i.ioAddress with
    | true =>
      rw [Bool.and_eq_true] at hio
      simp [Function.update_of_ne (hguest hio.1 hio.2).symm]
    | false => simp

end Rtc

namespace HostRun

variable {r : HostRun}

/-! ## What the registers of the host's bytes hold -/

theorem ram_succ {a : BitVec 7} (h : Covered a) (t : Nat) :
    (r.state (t + 1)).ram a = Rtc.mgmtWritten (r.inputs t) (0#1 ++ a) ((r.state t).ram a) := by
  rw [r.state_succ]
  exact Rtc.ramNext_covered _ _ fun hw ha hram => r.guest t hw ha (hram ▸ h)

/-- The registers of the host's bytes follow the RAM; that of byte 18h does once the host has written it. -/
structure Held (r : HostRun) (t : Nat) : Prop where
  equipment : (r.state t).mgmtEquipment = (r.state t).ram 0x14
  lsb : (r.state t).mgmtExtMemLsb = (r.state t).ram 0x17
  msb : r.Wrote 0x18 t → (r.state t).mgmtExtMemMsb = (r.state t).ram 0x18
  default : ¬ r.Wrote 0x18 t → (r.state t).mgmtExtMemMsb = 0x3C
  checksum : (r.state t).mgmtChecksum = (r.state t).ram 0x2E ++ (r.state t).ram 0x2F

theorem wrote_succ (a : BitVec 7) (t : Nat) : r.Wrote a (t + 1) ↔
    r.Wrote a t ∨ ((r.inputs t).mgmtWrite = true ∧ (r.inputs t).mgmtAddress = 0#1 ++ a) := by
  constructor
  · rintro ⟨u, hu, hw⟩
    rcases Nat.lt_succ_iff_lt_or_eq.1 hu with h | rfl
    · exact .inl ⟨u, h, hw⟩
    · exact .inr hw
  · rintro (⟨u, hu, hw⟩ | hw)
    · exact ⟨u, by omega, hw⟩
    · exact ⟨t, by omega, hw⟩

theorem Held.step {t : Nat} (h : r.Held t) : r.Held (t + 1) := by
  have hword : ∀ a b : BitVec 8, (a ++ b).extractLsb' 8 8 = a ∧ (a ++ b).extractLsb' 0 8 = b := by
    intro a b
    constructor <;> ext k hk <;> simp only [BitVec.getElem_extractLsb', BitVec.getLsbD_append] <;> grind
  refine ⟨?_, ?_, ?_, ?_, ?_⟩
  · rw [ram_succ (by decide), ← h.equipment, r.state_succ]
    rfl
  · rw [ram_succ (by decide), ← h.lsb, r.state_succ]
    rfl
  · intro hwrote
    rw [ram_succ (by decide), r.state_succ]
    show Rtc.mgmtWritten (r.inputs t) 0x18 (r.state t).mgmtExtMemMsb =
      Rtc.mgmtWritten (r.inputs t) 0x18 ((r.state t).ram 0x18)
    rcases (wrote_succ 0x18 t).1 hwrote with hbefore | ⟨hw, ha⟩
    · rw [h.msb hbefore]
    · simp [Rtc.mgmtWritten, hw, ha]
  · intro hnot
    rw [wrote_succ, not_or] at hnot
    rw [r.state_succ]
    show Rtc.mgmtWritten (r.inputs t) 0x18 (r.state t).mgmtExtMemMsb = 0x3C
    rw [h.default hnot.1]
    unfold Rtc.mgmtWritten
    rw [if_neg]
    rw [Bool.and_eq_true, beq_iff_eq]
    exact hnot.2
  · rw [ram_succ (by decide), ram_succ (by decide), r.state_succ]
    have hhi : (r.state t).mgmtChecksum.extractLsb' 8 8 = (r.state t).ram 0x2E := by rw [h.checksum, (hword _ _).1]
    have hlo : (r.state t).mgmtChecksum.extractLsb' 0 8 = (r.state t).ram 0x2F := by rw [h.checksum, (hword _ _).2]
    rw [← hhi, ← hlo]
    rfl

theorem held (r : HostRun) : ∀ t, r.Held t
  | 0 => by
    have hstart : r.state 0 = r.start := rfl
    have hram : ∀ a, (r.state 0).ram a = 0 := fun a => by rw [hstart, r.poweredOn.ram]
    refine ⟨?_, ?_, ?_, fun _ => r.poweredOn.msb, ?_⟩
    · rw [hram]
      exact r.poweredOn.equipment
    · rw [hram]
      exact r.poweredOn.lsb
    · rintro ⟨u, hu, -⟩
      omega
    · rw [hram, hram]
      exact r.poweredOn.checksum
  | t + 1 => (held r t).step

/-! ## What the guest reads -/

/-- While the host writes nothing, what the checksum is made of stays. -/
theorem Reads.kept {t : Nat} {f : BitVec 7 → BitVec 8} (h : r.Reads t f) {u : Nat} (hu : t ≤ u) :
    (∀ a, Covered a → (r.state u).ram a = (r.state t).ram a) ∧
      (r.state u).mgmtEquipment = (r.state t).mgmtEquipment ∧ (r.state u).mgmtExtMemLsb = (r.state t).mgmtExtMemLsb ∧
      (r.state u).mgmtExtMemMsb = (r.state t).mgmtExtMemMsb ∧ (r.state u).mgmtChecksum = (r.state t).mgmtChecksum := by
  induction u, hu using Nat.le_induction with
  | base => exact ⟨fun _ _ => rfl, rfl, rfl, rfl, rfl⟩
  | succ u hu ih =>
    obtain ⟨hram, he, hl, hm, hsum⟩ := ih
    have hquiet : ∀ a old, Rtc.mgmtWritten (r.inputs u) a old = old := by
      intro a old
      simp [Rtc.mgmtWritten, h.host u hu]
    refine ⟨fun a ha => ?_, ?_, ?_, ?_, ?_⟩
    · rw [ram_succ ha, hquiet, hram a ha]
    · rw [← he, r.state_succ]
      exact hquiet _ _
    · rw [← hl, r.state_succ]
      exact hquiet _ _
    · rw [← hm, r.state_succ]
      exact hquiet _ _
    · rw [← hsum, r.state_succ]
      exact (congrArg₂ (fun a b : BitVec 8 => (a ++ b : BitVec 16)) (hquiet _ _) (hquiet _ _)).trans
        (Rtc.append_extract _)

/-- The guest reads the image with the bytes of the configuration in it. -/
theorem Reads.eq {t : Nat} {f : BitVec 7 → BitVec 8} (h : r.Reads t f) {a : BitVec 7} (ha : Covered a) :
    f a = (r.state t).replaced r.fpuPresent (r.inputs t) a := by
  obtain ⟨u, v, hu, hread⟩ := h.reads a ha
  have hv : t ≤ v := hu.trans hread.lt.le
  obtain ⟨hsel, hrd⟩ := hread.selected
  obtain ⟨hram, he, hl, hm, hsum⟩ := h.kept hv
  rw [hread.byte_eq, Rtc.ioReaddataNext_covered _ _ _ ha hread.read.2 hsel hrd]
  exact Rtc.replaced_congr _ he hl hm hsum (h.ramSize v hv) (h.fpuOff v hv) fun _ _ => hram a ha

theorem Reads.consistent_iff {t : Nat} {f : BitVec 7 → BitVec 8} (h : r.Reads t f) :
    Consistent f ↔ Consistent ((r.state t).replaced r.fpuPresent (r.inputs t)) := by
  unfold Consistent
  rw [h.eq (a := 0x2E) (by decide), h.eq (a := 0x2F) (by decide),
    Rtc.checksum_congr fun n hlo hhi => h.eq (a := BitVec.ofNat 7 n) ⟨by bv_omega, by bv_omega⟩]

/-- What the guest reads is consistent when the image is that the host has written. -/
theorem reads_consistent (r : HostRun) {t : Nat} {image f : BitVec 7 → BitVec 8} (himage : r.IsImage t image)
    (h : Consistent image) (hreads : r.Reads t f) : Consistent f := by
  have hheld := held r t
  obtain ⟨hram, hdefault⟩ := himage
  rw [hreads.consistent_iff, Rtc.consistent_replaced_iff _ _ _ (fun a _ _ _ ha => hram a (.inl ha))]
  · unfold Consistent at h
    rw [h, hheld.checksum, hram _ (.inl (by decide)), hram _ (.inl (by decide))]
  · rw [hheld.equipment, hram _ (.inl (by decide))]
  · rw [hheld.lsb, hram _ (.inl (by decide))]
  · rcases Classical.em (r.Wrote 0x18 t) with hw | hnot
    · rw [hheld.msb hw, hram _ (.inr hw)]
    · rw [hheld.default hnot, hdefault hnot]

/-- A guest that reads all bytes in turn. -/
def pollRun (host : Nat → Option (BitVec 8 × BitVec 8)) : HostRun where
  fpuPresent := true
  start :=
    { clkRate := 0, ce8192hz := false, ce8192hzSum := 0
      mgmtExtMemLsb := 0, mgmtExtMemMsb := 0x3C, mgmtEquipment := 0, mgmtChecksum := 0
      ioReadLast := false, ioReaddata := 0, irq := false, secondMajor := 0, updateInterrupt := false
      time := ⟨0, 0, 0, 0, 0, 0, 0, 0⟩, alarmSecond := 0, alarmMinute := 0, alarmHour := 0, alarmInterrupt := false
      crb := ⟨false, false, false, false, false, false, false⟩, divider := 0, periodicRate := 0, periodicMajor := 0
      periodicInterrupt := false, ramAddress := 0, ram := fun _ => 0, rdaddr := 0 }
  inputs t :=
    { rstN := true, ioAddress := t % 2 == 1, ioRead := t % 2 == 1, ioWrite := t % 2 == 0
      ioWritedata := BitVec.ofNat 8 (0x10 + t / 2), bootcfg := 0, ramSize := 0, fpuOff := false
      mgmtAddress := ((host t).map Prod.fst).getD 0, mgmtWrite := (host t).isSome
      mgmtWritedata := ((host t).map Prod.snd).getD 0, clockRate := 90000000 }
  poweredOn := ⟨rfl, rfl, rfl, rfl, rfl⟩
  guest t hw ha := by
    simp only [beq_iff_eq] at hw ha
    omega

/-- The byte that the guest gets. -/
def pollByte (host : Nat → Option (BitVec 8 × BitVec 8)) (a : BitVec 7) : BitVec 8 :=
  ((pollRun host).state (2 * (a.toNat - 0x10) + 258)).ioReaddata

theorem pollRun_reads {host : Nat → Option (BitVec 8 × BitVec 8)} {t : Nat} (ht : t ≤ 256)
    (hhost : ∀ u, t ≤ u → host u = none) : (pollRun host).Reads t (pollByte host) := by
  refine ⟨fun u hu => by simp [pollRun, hhost u hu], fun u _ => rfl, fun u _ => rfl, fun a ha => ?_⟩
  obtain ⟨n, hlo, hhi, rfl⟩ := Rtc.exists_of_covered ha
  have hn : (BitVec.ofNat 7 n).toNat = n := by
    rw [BitVec.toNat_ofNat]
    omega
  refine ⟨2 * (n - 0x10) + 256, 2 * (n - 0x10) + 257, by omega, by omega, ⟨?_, ?_⟩, ?_, fun _ _ _ => rfl, ⟨?_, ?_⟩, ?_⟩
  · simp [RtcRun.selects, pollRun]
  · show (BitVec.ofNat 8 (0x10 + (2 * (n - 0x10) + 256) / 2)).extractLsb' 0 7 = _
    rw [show 0x10 + (2 * (n - 0x10) + 256) / 2 = n + 128 by omega]
    interval_cases n <;> rfl
  · intro v h1 h2
    omega
  · show ((2 * (n - 0x10) + 257) % 2 == 1) = true
    rw [beq_iff_eq]
    omega
  · show ((2 * (n - 0x10) + 257) % 2 == 1) = true
    rw [beq_iff_eq]
    omega
  · rw [pollByte, hn]

/-- A host that writes 10h to byte 18h, and the sum to byte 2Fh. -/
def smallHost (t : Nat) : Option (BitVec 8 × BitVec 8) :=
  if t = 0 then some (0x18, 0x10) else if t = 1 then some (0x2F, 0x10) else none

theorem smallHost_consistent : Consistent (pollByte smallHost) := by
  have himage : (pollRun smallHost).IsImage 2 ((pollRun smallHost).state 2).ram :=
    ⟨fun _ _ => rfl, fun hnot => absurd ⟨0, by omega, rfl, rfl⟩ hnot⟩
  refine reads_consistent (pollRun smallHost) himage (by decide) (pollRun_reads (by omega) fun u hu => ?_)
  rw [smallHost, if_neg (by omega), if_neg (by omega)]

/-- Before the host writes byte 18h, the RAM holds 0 there. -/
theorem unwritten_not_consistent : ¬ ∀ (r : HostRun) (t : Nat) (f : BitVec 7 → BitVec 8),
    Consistent (r.state t).ram → r.Reads t f → Consistent f := by
  intro h
  have hreads : (pollRun fun _ => none).Reads 0 (pollByte fun _ => none) := pollRun_reads (by omega) fun _ _ => rfl
  have hcons := h _ 0 _ (by decide) hreads
  rw [hreads.consistent_iff] at hcons
  revert hcons
  decide

end HostRun

end Z486.Cmos
