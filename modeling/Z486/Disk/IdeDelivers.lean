/-
What a guest receives of a block that fits the sector buffer: the host's words, in order, each once. From the
clock of the status write on, every clock is at rest, asks or ends a read.
-/
import Z486.Disk.IdeReads

namespace Z486.Disk.IdeRun

open IoBus (Adapter AdapterState)

variable {r : IdeRun}

/-! ## Every clock is in a phase -/

inductive Phase (r : IdeRun) (t : Nat) : Prop where
  | rest (c : Nat) (h : r.Resting t c)
  | ask (c n : Nat) (held : Bool) (h : r.Asking t c n held)
  | drain (c n : Nat) (falls : Bool) (h : r.Ending t c n .ide32 falls)
  | last (c n : Nat) (falls : Bool) (h : r.Ending t c n .ide32w falls)

/-- The status write raises DRQ in fast-read mode. -/
theorem resting_zero (hr : r.ReadsBlock) : r.Resting 0 0 := by
  obtain ⟨hwrites, hdrq, hfast⟩ := hr.raised
  -- nothing is taken in the clock in which the host raises DRQ
  obtain ⟨hidle, hno, hready⟩ := step_of_not_takes (a := r.adapter 0)
    (p := (r.state 0).peripheral (r.inputs 0)) hr.idle hr.afterDrq
  rw [← adapter_succ hr] at hidle hno hready
  have hreset : (r.ide 0).reset true = false := by
    rw [Ide.reset, (steady hr 0).noSwReset]
    rfl
  have hioWr : (r.ide 0).ioWr (r.state 0).ide0Io = false := by
    rw [Ide.ioWr, noWrite hr 0]
    rfl
  obtain ⟨-, hdown⟩ := notStrobe hr (t := 0) hr.noStrobe.2.2.1 hr.noWait.1
  constructor
  · exact hidle
  · exact hno.ideRead
  · rw [ide0Wait_succ, IdePort.waitNext, show (r.state 0).adapter.ideRead = false from hr.noStrobe.2.2.1,
      show (r.state 0).ide0Wait = false from hr.noWait.1]
    split <;> rfl
  · rw [ide_succ hr]
    show (r.ide 0).ioStb (r.state 0).ide0Io = false
    rw [Ide.ioStb, hdown, Ide.writeDataIo, hioWr]
    rfl
  · refine ⟨?_, Nat.zero_le _, fun _ => ⟨?_, ?_⟩⟩
    · rw [ide_succ hr]
      show (r.ide 0).ioCntNext _ _ true = 0
      rw [Ide.ioCntNext, hreset, hwrites]
      rfl
    · rw [ide_succ hr]
      show ((r.ide 0).statusNext _ _ true).getLsbD 3 = true
      rw [Ide.statusNext, hreset, if_neg Bool.false_ne_true, hwrites, if_pos rfl, Ide.hostStatus]
      rw [BitVec.getLsbD_append, if_neg (by decide), BitVec.getLsbD_append, if_neg (by decide), BitVec.getLsbD_append,
        if_pos (by decide), BitVec.getLsbD_extractLsb']
      exact hdrq
    · rw [ide_succ hr]
      show (r.ide 0).fastReadNext _ true = true
      rw [Ide.fastReadNext, hreset, if_neg Bool.false_ne_true, hwrites, if_pos rfl]
      exact hfast
  · rw [IdeRun.asked, hr.afterDrq]
    rfl
  · rw [IdeRun.received, ready, hready]
    rfl
  · exact Nat.zero_le _

section Fits

variable (hr : r.ReadsBlock) (hfit : r.blockSize ≤ 8192)
include hr hfit

theorem phase (t : Nat) : Phase r t := by
  have hcount : r.blockSize < 16384 := by omega
  induction t with
  | zero => exact .rest 0 (resting_zero hr)
  | succ t ih =>
    rcases ih with ⟨c, h⟩ | ⟨c, n, held, h⟩ | ⟨c, n, falls, h⟩ | ⟨c, n, falls, h⟩
    · cases ht : r.takes (t + 1) with
      | false => exact .rest c (h.rests hr hcount ht)
      | true => exact .ask c _ false (h.asks hr hcount ht)
    · cases hnd : (r.ide (t + 1)).noData with
      | true => exact .ask c n true (h.holds hr hcount hnd)
      | false =>
        have hend := h.answers hr hfit hnd
        cases held with
        | false => exact .last c n true hend
        | true => exact .drain c n true hend
    · exact .last c n false (h.ends hr hcount)
    · exact .rest (c + n) (h.rests hr hcount).1

/-- A clock without a read under way. -/
theorem resting_of_idle {t : Nat} (h : (r.adapter (t + 1)).state = .idle) : ∃ c, r.Resting t c := by
  rcases phase hr hfit t with ⟨c, hrest⟩ | ⟨c, n, held, hask⟩ | ⟨c, n, falls, hend⟩ | ⟨c, n, falls, hend⟩
  · exact ⟨c, hrest⟩
  · exact absurd (hask.state.symm.trans h) nofun
  · exact absurd (hend.state.symm.trans h) nofun
  · exact absurd (hend.state.symm.trans h) nofun

/-- What the guest has received is what the host has written so far, as far as it goes. -/
theorem received_eq (t : Nat) : ∃ c, c ≤ (r.written t).length ∧ r.received (t + 1) = (r.written t).take c := by
  rcases phase hr hfit t with ⟨c, h⟩ | ⟨c, n, held, h⟩ | ⟨c, n, falls, h⟩ | ⟨c, n, falls, h⟩
  · exact ⟨c, h.le, h.received⟩
  · exact ⟨c, h.le, h.received⟩
  · exact ⟨c, h.le, h.received⟩
  · exact ⟨c, h.le, h.received⟩

end Fits

/-! ## Answers -/

/-- The adapter's side of a clock: a read is taken at rest, and answered in the clock that ends it. -/
theorem clock_cases (hr : r.ReadsBlock) (t : Nat) :
    ((r.adapter t).state = .idle ∧ r.takes t = false ∧ (r.adapter (t + 1)).state = .idle ∧ r.ready (t + 1) = false) ∨
      ((r.adapter t).state = .idle ∧ r.takes t = true ∧ (r.adapter (t + 1)).state ≠ .idle ∧ r.ready (t + 1) = false) ∨
      ((r.adapter t).state ≠ .idle ∧ r.takes t = false ∧ (r.adapter (t + 1)).state ≠ .idle ∧ r.ready (t + 1) = false) ∨
      ((r.adapter t).state ≠ .idle ∧ r.takes t = false ∧ (r.adapter (t + 1)).state = .idle ∧ r.ready (t + 1) = true) := by
  have hnot : (r.adapter t).state ≠ .idle → r.takes t = false := by
    intro h
    rw [takes, Adapter.takes, beq_eq_false_iff_ne.mpr h]
    rfl
  rw [ready, adapter_succ hr]
  rcases (wideReads hr t).state with ⟨hstate, -⟩ | ⟨hstate, -⟩ | ⟨hstate, hread, -⟩
  · cases ht : r.takes t with
    | false =>
      obtain ⟨hidle, -, hready⟩ := step_of_not_takes (p := (r.state t).peripheral (r.inputs t)) hstate ht
      exact .inl ⟨hstate, rfl, hidle, hready⟩
    | true =>
      obtain ⟨h32, -, -, -, -, -, -, -, hready⟩ := step_of_takes (p := (r.state t).peripheral (r.inputs t)) ht
        (ideDataPort_of_takes hr ht) (hr.guestReads t ht).1
      exact .inr (.inl ⟨hstate, rfl, by rw [h32]; simp, hready⟩)
  · obtain ⟨hnext, -, -, -, -, hready⟩ := step_of_ide32 (c := (r.inputs t).cpu)
      (p := (r.state t).peripheral (r.inputs t)) hstate
    have hbusy : (r.adapter t).state ≠ .idle := by rw [hstate]; simp
    refine .inr (.inr (.inl ⟨hbusy, hnot hbusy, ?_, hready⟩))
    rw [hnext]
    split <;> simp
  · obtain ⟨hidle, -, -, hready, -⟩ := step_of_ide32w (c := (r.inputs t).cpu) (p := (r.state t).peripheral (r.inputs t))
      hstate hread
    have hbusy : (r.adapter t).state ≠ .idle := by rw [hstate]; simp
    exact .inr (.inr (.inr ⟨hbusy, hnot hbusy, hidle, hready⟩))

theorem once (hr : r.ReadsBlock) (t : Nat) : Clocked.pulses r.takes 0 t =
    Clocked.pulses r.ready 1 (t + 1) + if (r.adapter t).state = .idle then 0 else 1 := by
  induction t with
  | zero =>
    rw [Clocked.pulses_self, Clocked.pulses_self, if_pos (show (r.adapter 0).state = .idle from hr.idle)]
  | succ t ih =>
    rw [Clocked.pulses_succ _ (Nat.zero_le t), Clocked.pulses_succ _ (Nat.le_add_left 1 t), ih]
    rcases clock_cases hr t with ⟨h1, h2, h3, h4⟩ | ⟨h1, h2, h3, h4⟩ | ⟨h1, h2, h3, h4⟩ | ⟨h1, h2, h3, h4⟩
    all_goals simp [h1, h2, h3, h4]

/-! ## Progress -/

section Progress

variable (hr : r.ReadsBlock) (hfit : r.blockSize ≤ 8192)
include hr hfit

/-- A read whose words are in the buffer is answered three clocks later at the latest. -/
theorem ready_of_data {t c n : Nat} {held : Bool} (h : r.Asking t c n held) (hnd : (r.ide (t + 1)).noData = false) :
    ∃ v, t + 1 < v ∧ v ≤ t + 4 ∧ r.ready v = true := by
  have hcount : r.blockSize < 16384 := by omega
  have hend := h.answers hr hfit hnd
  cases held with
  | false =>
    have hlast : r.Ending (t + 1) c n .ide32w true := hend
    exact ⟨t + 3, by omega, by omega, (hlast.rests hr hcount).2⟩
  | true =>
    have hdrain : r.Ending (t + 1) c n .ide32 true := hend
    exact ⟨t + 4, by omega, by omega, ((hdrain.ends hr hcount).rests hr hcount).2⟩

/-- A read is held as long as there is no data for it. -/
theorem held_while {t c n : Nat} (h : r.Asking t c n false) (k : Nat)
    (hnd : ∀ v, t < v → v ≤ t + k → (r.ide v).noData = true) : ∃ held, r.Asking (t + k) c n held := by
  induction k with
  | zero => exact ⟨false, h⟩
  | succ k ih =>
    obtain ⟨held, hask⟩ := ih fun v hv hvk => hnd v hv (by omega)
    exact ⟨true, hask.holds hr (by omega) (hnd _ (by omega) (by omega))⟩

/-- The flag of the missing data falls three clocks after the pair is complete. -/
theorem noData_falls {t c n u : Nat} (h : r.Asking t c n false) (htu : t ≤ u)
    (hpair : 2 * (c / 2) + 2 ≤ (r.written u).length) : ∃ v, t < v ∧ v ≤ u + 3 ∧ (r.ide v).noData = false := by
  by_contra hno
  push Not at hno
  have hheld : ∀ v, t < v → v ≤ u + 3 → (r.ide v).noData = true := fun v hv hvu => by simpa using hno v hv hvu
  -- the strobe is up all the time, so the pointers alone decide
  have hdown : ∀ v, u ≤ v → v ≤ u + 2 → (r.ide (v + 1)).nData = false := by
    intro v huv hvu
    obtain ⟨k, rfl⟩ : ∃ k, v = t + k := ⟨v - t, by omega⟩
    obtain ⟨held, hask⟩ := held_while hr hfit h k fun w hw hwk => hheld w hw (by omega)
    rw [hask.nData_eq hr (by omega)]
    have hmono := (written_mono (r := r) huv).length_le
    exact decide_eq_false (by omega)
  have hshift : ∀ v, (r.ide (v + 1)).nDataR = (r.ide v).nDataR.extractLsb' 0 1 ++ BitVec.ofBool (r.ide v).nData := by
    intro v
    rw [ide_succ hr]
    rfl
  have hlast := hheld (u + 3) (by omega) (le_refl _)
  have hempty : (r.ide (u + 3)).nDataR = 0 := by
    rw [hshift (u + 2), hshift (u + 1), hdown (u + 1) (by omega) (by omega), hdown u (le_refl u) (by omega)]
    have : ∀ b : BitVec 1, (b ++ BitVec.ofBool false).extractLsb' 0 1 ++ BitVec.ofBool false = (0 : BitVec 2) := by decide
    exact this _
  rw [Ide.noData, hdown (u + 2) (by omega) (le_refl _), hempty] at hlast
  exact absurd hlast (by decide)

theorem answered {t u : Nat} (ht : r.takes t = true) (htu : t ≤ u)
    (hpair : 2 * (r.asked t / 2) + 2 ≤ (r.written u).length) : ∃ v, t < v ∧ v ≤ u + 6 ∧ r.ready v = true := by
  obtain ⟨s, rfl⟩ : ∃ s, t = s + 1 := by
    rcases Nat.eq_zero_or_pos t with rfl | hpos
    · exact absurd (hr.afterDrq.symm.trans ht) nofun
    · exact ⟨t - 1, by omega⟩
  have hidle : (r.adapter (s + 1)).state = .idle := by
    rcases clock_cases hr (s + 1) with ⟨h, -⟩ | ⟨h, -⟩ | ⟨-, h, -⟩ | ⟨-, h, -⟩
    · exact h
    · exact h
    · exact absurd (h.symm.trans ht) nofun
    · exact absurd (h.symm.trans ht) nofun
  obtain ⟨c, hrest⟩ := resting_of_idle hr hfit hidle
  have hask := hrest.asks hr (by omega) ht
  rw [hrest.asked] at hpair
  obtain ⟨v, hv, hvu, hnd, hbefore⟩ : ∃ v, s + 1 < v ∧ v ≤ u + 3 ∧ (r.ide v).noData = false ∧
      ∀ w, s + 1 < w → w < v → (r.ide w).noData = true := by
    obtain ⟨v, hv, hvu, hnd⟩ := noData_falls hr hfit hask htu hpair
    obtain ⟨w, hw, hnw, hfirst⟩ := Clocked.exists_first (P := fun v => (r.ide v).noData = false) ⟨v, hv, hnd⟩
    have hwv : w ≤ v := by
      by_contra hlt
      exact hfirst v hv (by omega) hnd
    exact ⟨w, hw, by omega, hnw, fun x hx hxw => by simpa using hfirst x (by omega) hxw⟩
  obtain ⟨k, rfl⟩ : ∃ k, v = s + 1 + k + 1 := ⟨v - (s + 2), by omega⟩
  obtain ⟨held, hlater⟩ := held_while hr hfit hask k fun w hw hwk => hbefore w hw (by omega)
  obtain ⟨x, hx, hxv, hready⟩ := ready_of_data hr hfit hlater hnd
  exact ⟨x, by omega, by omega, hready⟩

end Progress

/-! ## A host that does not wait for the guest -/

/-- The host writes the words of a block, one every other clock, and the guest reads the first pair in clock `readAt`. -/
def unpaced (words : Nat) (data : Nat → BitVec 16) (readAt : Nat) : IdeRun where
  start :=
    { adapter := { state := .idle, byteAddr := 0, activeBe := 0, isRead := false, writeData := 0, readAccum := 0
                   wasActive := false, cpuDout := 0, cpuIoReady := false, ioAddress := 0, ioRead := false
                   ioWrite := false, ioWritedata := 0, ideAddress := 0, ideRead := false, ideWrite := false
                   ideWritedata := 0, ide32 := false }
      ide0Cs := false, ide1Cs := false, ide0Wait := false, ide1Wait := false
      ide0 := { irq := false, ioReaddata := 0, ioWait := false, request := 0, mgmtReaddata := 0, features := 0
                blkSize := BitVec.ofNat 16 words, error := 0, sectorCount := 1, sector := 1, cylinder := 0
                drvAddr := 0, cmd := 0, status := 0x80, lastRead := false, fastRead := false, hobEna := 0
                present := 1, useWait := false, disableIrq := false, swReset := false, hobPre := false, hob := false
                ioCnt := 0, oldStb := false, r32 := false, mgmtCnt := 0, oldWr := false, oldRd := false, nDataR := 0
                ioBuf0 := { mem := fun _ => 0, qA := 0, qB := 0 }, ioBuf1 := { mem := fun _ => 0, qA := 0, qB := 0 } } }
  inputs := fun t =>
    { rstN := true, ide0ResetN := true
      cpu := { cpuAddr := 0x7C, cpuBe := 0b1111, cpuDin := 0, cpuIoRd := t == readAt, cpuIoWr := false }
      mgmt := { mgmtAddress := if t = 0 then 5 else if t = 1 then 6 else 15
                mgmtWrite := t == 0 || (t % 2 == 0 && decide (t / 2 - 1 < words))
                mgmtWritedata := if t = 0 then 0x2800 else data (t / 2 - 1), mgmtRead := false }
      ide1Nodata := false, ide1Readdata := 0, otherReaddata := 0, ioWait := false }

section Unpaced

variable {words : Nat} {data : Nat → BitVec 16} {readAt : Nat}

/-- The clocks in which the host's strobe is up. -/
theorem unpaced_write (t : Nat) : ((unpaced words data readAt).inputs t).mgmt.mgmtWrite = true ↔
    t = 0 ∨ t % 2 = 0 ∧ t / 2 - 1 < words := by
  simp [unpaced]

theorem unpaced_address {t : Nat} (ht : 1 < t) : ((unpaced words data readAt).inputs t).mgmt.mgmtAddress = 15 := by
  simp only [unpaced]
  rw [if_neg (by omega), if_neg (by omega)]

theorem unpaced_writesWord (t : Nat) : (unpaced words data readAt).writesWord t = true ↔
    t ≠ 0 ∧ t % 2 = 0 ∧ t / 2 - 1 < words := by
  rw [writesWord, Bool.and_eq_true, Bool.not_eq_true', ← Bool.not_eq_true, unpaced_write, IdeMgmt.writesData,
    Bool.and_eq_true, unpaced_write]
  rcases Nat.lt_or_ge 1 t with ht | ht
  · rw [unpaced_address ht]
    simp only [beq_self_eq_true, and_true]
    omega
  · obtain rfl | rfl : t = 0 ∨ t = 1 := by omega
    · simp [unpaced]
    · omega

theorem unpaced_written (t : Nat) :
    (unpaced words data readAt).written t = (List.range (min words ((t - 1) / 2))).map data := by
  induction t with
  | zero => simp [written]
  | succ t ih =>
    rw [written_succ, ih]
    by_cases hword : (unpaced words data readAt).writesWord t = true
    · obtain ⟨h0, heven, hlt⟩ := (unpaced_writesWord t).mp hword
      have hdata : ((unpaced words data readAt).inputs t).mgmt.mgmtWritedata = data (t / 2 - 1) := if_neg h0
      rw [if_pos hword, hdata, show min words ((t + 1 - 1) / 2) = t / 2 - 1 + 1 by omega,
        show min words ((t - 1) / 2) = t / 2 - 1 by omega, List.range_succ, List.map_append]
      rfl
    · have hnot := hword
      rw [unpaced_writesWord] at hnot
      rw [if_neg hword, List.append_nil, show min words ((t - 1) / 2) = min words ((t + 1 - 1) / 2) by omega]

theorem unpaced_takes {t : Nat} (h : (unpaced words data readAt).takes t = true) : t = readAt := by
  simp only [takes, Adapter.takes, unpaced, Bool.and_eq_true, Bool.or_false, beq_iff_eq] at h
  exact h.2

theorem unpaced_asked {t : Nat} (h : t ≤ readAt) : (unpaced words data readAt).asked t = 0 := by
  induction t with
  | zero => rfl
  | succ t ih =>
    have hno : (unpaced words data readAt).takes t = false := by
      by_contra htakes
      have := unpaced_takes (by simpa using htakes)
      omega
    rw [asked, hno, ih (by omega)]
    rfl

theorem unpaced_readsBlock (heven : words % 2 = 0) (hpos : 2 ≤ words) (hlt : words < 65536) (hread : 0 < readAt) :
    (unpaced words data readAt).ReadsBlock := by
  have hsize : (unpaced words data readAt).blockSize = words := Nat.mod_eq_of_lt hlt
  constructor
  · exact fun _ => ⟨rfl, rfl⟩
  · exact show (1 : BitVec 2) ≠ 0 by decide
  · rfl
  · rw [hsize]
    exact heven
  · rfl
  · exact ⟨rfl, rfl, rfl, rfl⟩
  · exact ⟨rfl, rfl⟩
  · exact ⟨rfl, show (0x2800 : BitVec 16).getLsbD 11 = true by decide,
      show (0x2800 : BitVec 16).getLsbD 13 = true by decide⟩
  · exact ⟨rfl, show (6 : BitVec 4) ≠ 15 by decide⟩
  · exact fun _ => rfl
  · intro t ht hw
    have := (unpaced_write t).mp hw
    exact ⟨unpaced_address (by omega), unpaced_address (by omega)⟩
  · intro t ht hw
    have := (unpaced_write t).mp hw
    rw [hsize, unpaced_written, List.length_map, List.length_range]
    omega
  · by_contra htakes
    have := unpaced_takes (by simpa using htakes)
    omega
  · intro t ht
    obtain rfl := unpaced_takes ht
    exact ⟨beq_self_eq_true _, show ((0x7C : BitVec 30).extractLsb' 0 14 ++ 0#2 : BitVec 16) = 0x01F0 by decide,
      .inr ⟨rfl, by rw [unpaced_asked (le_refl _)]⟩⟩
  · intro t ht
    obtain rfl := unpaced_takes ht
    rw [hsize, unpaced_asked (le_refl _)]
    exact hpos

end Unpaced

/-- The guest receives exactly the host's words of a block that fits the buffer. -/
theorem readsBlock_delivers (hr : r.ReadsBlock) (hfit : r.blockSize ≤ 8192) : r.Delivers := by
  constructor
  · intro t
    cases t with
    | zero => exact List.nil_prefix
    | succ t =>
      obtain ⟨c, -, hrec⟩ := received_eq hr hfit t
      rw [hrec]
      exact (List.take_prefix _ _).trans (written_mono (Nat.le_succ t))
  · exact once hr
  · intro t hidle
    cases t with
    | zero => rfl
    | succ t =>
      obtain ⟨c, h⟩ := resting_of_idle hr hfit hidle
      rw [h.received, h.asked, List.length_take, Nat.min_eq_left h.le]
  · intro t ht hready
    obtain ⟨s, rfl⟩ : ∃ s, t = s + 1 := ⟨t - 1, by omega⟩
    have hidle : (r.adapter (s + 1)).state = .idle := by
      rcases clock_cases hr s with ⟨-, -, -, h⟩ | ⟨-, -, -, h⟩ | ⟨-, -, -, h⟩ | ⟨-, -, h, -⟩
      · exact absurd (h.symm.trans hready) nofun
      · exact absurd (h.symm.trans hready) nofun
      · exact absurd (h.symm.trans hready) nofun
      · exact h
    obtain ⟨c, h⟩ := resting_of_idle hr hfit hidle
    have hle := h.pointer.le
    rw [h.received, h.pointer.cnt, List.length_take, Nat.min_eq_left h.le, BitVec.toNat_ofNat]
    omega
  · exact fun t u ht htu hpair => answered hr hfit ht htu hpair

/-- A block of one pair. -/
theorem unpaced_delivers : (unpaced 2 (fun k => BitVec.ofNat 16 k) 1).Delivers :=
  readsBlock_delivers (unpaced_readsBlock rfl (by decide) (by decide) (by decide)) (by decide)

/-- The words of a read that finds its pair in the buffer two clocks after it is taken. -/
theorem received_of_asking (hr : r.ReadsBlock) {t c : Nat} (h : r.Asking t c 2 false)
    (hnd : (r.ide (t + 1)).noData = false) : r.received (t + 3) =
      (r.written (t + 1)).take c ++ [(r.ide t).bufWord (2 * (c / 2)), (r.ide t).bufWord (2 * (c / 2) + 1)] := by
  have hlater := h.toReading.later hr h.state
  obtain ⟨hstate, -, -⟩ := h.goes hr hnd
  have hisRead : (r.adapter (t + 2)).isRead = true := by
    rcases (wideReads hr (t + 2)).state with ⟨h', -⟩ | ⟨h', -⟩ | ⟨-, hread, -⟩
    · exact absurd (hstate.symm.trans h') nofun
    · exact absurd (hstate.symm.trans h') nofun
    · exact hread
  obtain ⟨-, -, h32, hready, hdout⟩ := step_of_ide32w (c := (r.inputs (t + 2)).cpu)
    (p := (r.state (t + 2)).peripheral (r.inputs (t + 2))) hstate hisRead
  rw [← adapter_succ hr] at h32 hready hdout
  have hdata : (r.adapter (t + 3)).cpuDout = (r.ide t).bufWord (2 * (c / 2) + 1) ++ (r.ide t).bufWord (2 * (c / 2)) := by
    rw [hdout]
    show (if (r.state (t + 2)).ide0Cs = true then (r.ide (t + 2)).ioReaddata else _) = _
    rw [hlater.cs, if_pos rfl, h.readdata hr, Ide.dataWord, h.even, h.odd]
    rfl
  obtain ⟨hlow, hhigh⟩ := halves ((r.ide t).bufWord (2 * (c / 2) + 1)) ((r.ide t).bufWord (2 * (c / 2)))
  rw [IdeRun.received, ready, hready, if_pos rfl, h32, hlater.wide, hdata, wordsOf, if_pos (by decide), hlow, hhigh]
  exact congrArg (· ++ _) hlater.received

/-- A host that writes more than the buffer holds overwrites the words that the guest has yet to read. -/
theorem overrun_not_delivers : ¬ ∀ r : IdeRun, r.ReadsBlock → r.Delivers := by
  intro hall
  have hr : (unpaced 8194 (fun k => if k < 8192 then 0 else 1) 16390).ReadsBlock :=
    unpaced_readsBlock (by decide) (by decide) (by decide) (by decide)
  generalize hrun : unpaced 8194 (fun k => if k < 8192 then 0 else 1) 16390 = r at hr
  have hcount : r.blockSize < 16384 := by
    subst hrun
    decide
  have htakes_iff : ∀ t, r.takes t = true → t = 16390 := by
    subst hrun
    exact fun t => unpaced_takes
  have hwritten : ∀ t, r.written t = (List.range (min 8194 ((t - 1) / 2))).map fun k => if k < 8192 then 0 else 1 := by
    subst hrun
    exact unpaced_written
  have hquiet : ∀ t, t < 16390 → r.takes t = false := by
    intro t ht
    by_contra htakes
    have := htakes_iff t (by simpa using htakes)
    omega
  have hrest : ∀ t, t < 16390 → r.Resting t 0 := by
    intro t
    induction t with
    | zero => exact fun _ => resting_zero hr
    | succ t ih => exact fun ht => (ih (by omega)).rests hr hcount (hquiet _ ht)
  have hactive : ∀ t, t ≤ 16390 → (r.adapter t).wasActive = false := by
    intro t
    induction t with
    | zero =>
      intro _
      subst hrun
      rfl
    | succ t ih =>
      intro ht
      have hidle : (r.adapter t).state = .idle := by
        cases t with
        | zero => exact hr.idle
        | succ t => exact (hrest t (by omega)).state
      rw [adapter_succ hr]
      exact wasActive_of_not_takes hidle (ih (by omega)) (hquiet t (by omega))
  have htakes : r.takes 16390 = true := by
    rw [takes, Adapter.takes, (hrest 16389 (by omega)).state, hactive 16390 (le_refl _)]
    subst hrun
    rfl
  have hask : r.Asking 16390 0 2 false := by
    have h := (hrest 16389 (by omega)).asks hr hcount htakes
    have hbe : (r.inputs 16390).cpu.cpuBe = 0b1111 := by
      subst hrun
      rfl
    rwa [show r.inputs (16389 + 1) = r.inputs 16390 from rfl, hbe] at h
  -- the host's pointer has left the guest's first pair behind for three clocks
  have hn : ∀ t, 16388 ≤ t → t < 16390 → (r.ide (t + 1)).nData = false := by
    intro t hlow hhigh
    have hpointer := (hrest t hhigh).pointer
    obtain ⟨hdrq, hfast⟩ := hpointer.up (by
      subst hrun
      decide)
    have hlen : 8193 ≤ (r.written t).length ∧ (r.written t).length ≤ 8194 := by
      rw [hwritten, List.length_map, List.length_range]
      omega
    rw [Ide.nData_eq (mgmtCnt_eq hr (by omega)) (by omega) hpointer.cnt (by decide) hdrq hfast]
    exact decide_eq_false (by omega)
  have hnd : (r.ide 16391).noData = false := by
    have hlast : (r.ide 16391).nData = false := by
      rw [hask.nData_eq hr hcount, hwritten, List.length_map, List.length_range]
      exact decide_eq_false (by omega)
    have hshift : ∀ v, (r.ide (v + 1)).nDataR = (r.ide v).nDataR.extractLsb' 0 1 ++ BitVec.ofBool (r.ide v).nData := by
      intro v
      rw [ide_succ hr]
      rfl
    have hzero : ∀ b : BitVec 1, (b ++ BitVec.ofBool false).extractLsb' 0 1 ++ BitVec.ofBool false = (0 : BitVec 2) := by
      decide
    rw [Ide.noData, hlast, hshift 16390, hn 16389 (by omega) (by omega), hshift 16389, hn 16388 (by omega) (by omega),
      hzero]
    rfl
  have hword : (r.ide 16390).bufWord 0 = 1 := by
    have hget : (r.written 16390)[8192]? = some 1 := by
      rw [hwritten, List.getElem?_map, List.getElem?_range (by omega)]
      rfl
    exact stored hr (by omega) hget fun u _ hu _ => by
      rw [hwritten, List.length_map, List.length_range]
      omega
  have hfirst := (hall r hr).inOrder 16393
  rw [received_of_asking hr hask hnd] at hfirst
  have hhead : (r.written 16393)[0]? = some 0 := by
    rw [hwritten, List.getElem?_map, List.getElem?_range (by omega)]
    rfl
  obtain ⟨rest, hprefix⟩ := hfirst
  rw [← hprefix] at hhead
  have hclash : (r.ide 16390).bufWord 0 = 0 := by simpa using hhead
  exact absurd (hword.symm.trans hclash) (by decide)

end Z486.Disk.IdeRun
