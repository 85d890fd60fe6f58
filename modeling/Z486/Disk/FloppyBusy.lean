/-
The busy flag of the floppy controller: when no transfer is under way, a controller that is busy waits for a
parameter, has a result byte to give, or was left hanging by a command it could not carry out. The table of
the lengths, the test for invalid commands and the commands' own tests divide the bytes between them, but for
the bytes that share the low bits of lock and unlock.
-/
import Z486.Disk.FloppyReset

namespace Z486.Disk

/-! ## Command bytes -/

/-- The commands of the controller, by their low five bits; lock and unlock by the whole byte. -/
def recognised (b : BitVec 8) : Bool :=
  [0x03, 0x04, 0x05, 0x06, 0x07, 0x08, 0x0A, 0x0D, 0x0E, 0x0F, 0x10, 0x12, 0x13].contains (b.extractLsb' 0 5) ||
    b == 0x14 || b == 0x94

/-- The bytes that are neither lock nor unlock, but share their low bits. -/
def strayLock (b : BitVec 8) : Bool := b.extractLsb' 0 5 == 0x14 && b != 0x14 && b != 0x94

theorem parametersOf_cases (code : BitVec 5) : parametersOf code = 0 ∨
    parametersOf code = 1 ∧ (code = 0x04 ∨ code = 0x07 ∨ code = 0x0A ∨ code = 0x12) ∨
    parametersOf code = 2 ∧ (code = 0x03 ∨ code = 0x0F) ∨ parametersOf code = 3 ∧ code = 0x13 ∨
    parametersOf code = 5 ∧ code = 0x0D ∨ parametersOf code = 8 ∧ (code = 0x05 ∨ code = 0x06) := by
  revert code
  decide

namespace Floppy

variable {s : Floppy} {i : FloppyIn}

/-- A first byte without parameters is answered at once, unless it is a stray one. -/
theorem result_of_first (h : s.commandFirst i = true) (h0 : i.commandAtFirst = 0)
    (hs : strayLock i.ioWritedata = false) : s.enterResultPhase i = true := by
  have hbyte : ∀ b : BitVec 8, parametersOf (b.extractLsb' 0 5) = 0 → strayLock b = false →
      ((b.extractLsb' 0 5 != 0x03 && b.extractLsb' 0 5 != 0x04 && b.extractLsb' 0 5 != 0x05 && b.extractLsb' 0 5 != 0x06 &&
        b.extractLsb' 0 5 != 0x07 && b.extractLsb' 0 5 != 0x08 && b.extractLsb' 0 5 != 0x0A &&
        b.extractLsb' 0 5 != 0x0D && b.extractLsb' 0 5 != 0x0E && b.extractLsb' 0 5 != 0x0F &&
        b.extractLsb' 0 5 != 0x10 && b.extractLsb' 0 5 != 0x12 && b.extractLsb' 0 5 != 0x13 &&
        b.extractLsb' 0 5 != 0x14) || b.extractLsb' 0 5 == 0x08 || b.extractLsb' 0 5 == 0x0E || b.extractLsb' 0 5 == 0x10 ||
        b == 0x14 || b == 0x94) = true := by
    decide
  have hb := hbyte i.ioWritedata h0 hs
  unfold enterResultPhase cmdInvalidStart cmdSenseInterruptStatusStart cmdDumpRegistersStart cmdVersionStart
    cmdUnlockStart cmdLockStart FloppyIn.code
  rw [h]
  simp only [Bool.true_and]
  rw [hb]
  simp only [Bool.true_or]

theorem ite_ne_zero {c : Prop} [Decidable c] {a b : BitVec 4} (ha : a ≠ 0) (hb : ¬ c → b ≠ 0) :
    (if c then a else b) ≠ 0 := by
  by_cases hc : c
  · rwa [if_pos hc]
  · rw [if_neg hc]
    exact hb hc

/-- Every result phase has result bytes. -/
theorem replyLeft_of_result (hr : i.rstN = true) (hs : s.swReset i = false) (h : s.enterResultPhase i = true) :
    s.replyLeftNext i ≠ 0 := by
  unfold replyLeftNext
  rw [hr, hs, if_neg (by decide)]
  -- a clock that passes every test of the count enters no result phase
  refine ite_ne_zero (by decide) fun h1 => ite_ne_zero (by decide) fun h2 => ite_ne_zero (by decide) fun h3 =>
    ite_ne_zero (by decide) fun h4 => ite_ne_zero (by decide) fun h5 => ite_ne_zero (by decide) fun h6 =>
    ite_ne_zero (by decide) fun h7 => ite_ne_zero (by decide) fun h8 => ite_ne_zero (by decide) fun h9 =>
    ite_ne_zero (by decide) fun h10 => ite_ne_zero (by decide) fun h11 => ite_ne_zero (by decide) fun h12 =>
    ite_ne_zero (by decide) fun h13 => ?_
  have hwp : (s.cmdReadWriteStart i && s.cmdWriteAndWriteprotectedAtStart i) = false := by
    unfold cmdWriteAndWriteprotectedAtStart at h4 ⊢
    cases hw : s.cmdWriteNormalStart i
    · simp only [Bool.and_false, Bool.false_and]
    · rw [hw, Bool.true_and, Bool.not_eq_true] at h4
      rw [h4, Bool.and_false]
  simp only [Bool.not_eq_true, Bool.or_eq_false_iff] at h1 h2 h3 h5 h6 h7 h8 h9 h10 h11 h12 h13
  unfold enterResultPhase at h
  rw [h1, h5, h6, h7, h8, h9, h10, h11, h12, h13.1, h13.2, Bool.and_or_distrib_left, Bool.and_or_distrib_left, h2, h3,
    hwp] at h
  cases h

/-- Without a result phase the count goes down when a byte is read. -/
theorem replyLeft_of_no_result (hr : i.rstN = true) (hs : s.swReset i = false) (h : s.enterResultPhase i = false) :
    s.replyLeftNext i = if i.reads 5 && s.replyLeft != 0 then s.replyLeft - 1 else s.replyLeft := by
  unfold enterResultPhase at h
  simp only [Bool.or_eq_false_iff, Bool.and_or_distrib_left] at h
  obtain ⟨⟨⟨⟨⟨⟨⟨⟨⟨⟨⟨h1, h2⟩, h3⟩, h4⟩, h5⟩, h6⟩, ⟨h7, h8⟩, h9⟩, h10⟩, h11⟩, h12⟩, h13⟩, h14⟩ := h
  have hwp : (s.cmdWriteNormalStart i && s.cmdWriteAndWriteprotectedAtStart i) = false := by
    unfold cmdReadWriteStart at h9
    cases hw : s.cmdWriteNormalStart i
    · rfl
    · rw [hw, Bool.or_true] at h9
      exact h9
  unfold replyLeftNext
  rw [hr, hs, h1, h7, h8, hwp, h11, h10, h12, h14, h13, h2, h3, h4, h5, h6]
  rfl

/-! ## Parameters -/

/-- The first byte of the command whose parameters are being collected is where its length says. -/
structure Collected (s : Floppy) : Prop where
  le : s.commandLeft ≠ 0 → s.commandLeft.toNat ≤ s.commandSize.toNat
  first : s.commandLeft ≠ 0 →
    parametersOf (s.command.extractLsb' (8 * (s.commandSize.toNat - s.commandLeft.toNat)) 5) = s.commandSize

theorem parametersOf_le (code : BitVec 5) : (parametersOf code).toNat ≤ 8 := by
  revert code
  decide

theorem extract_first (b : BitVec 8) : (BitVec.setWidth 72 b).extractLsb' 0 5 = b.extractLsb' 0 5 := by
  ext k hk
  rw [BitVec.getElem_extractLsb', BitVec.getElem_extractLsb', BitVec.getLsbD_setWidth]
  simp only [Bool.and_eq_right_iff_imp, decide_eq_true_eq]
  omega

/-- A further byte moves the first one up. -/
theorem extract_next (c : BitVec 72) (b : BitVec 8) {k : Nat} (hk : 8 * k + 5 ≤ 64) :
    (c.extractLsb' 0 64 ++ b : BitVec 72).extractLsb' (8 * (k + 1)) 5 = c.extractLsb' (8 * k) 5 := by
  ext j hj
  rw [BitVec.getElem_extractLsb', BitVec.getElem_extractLsb', BitVec.getLsbD_append, BitVec.getLsbD_extractLsb',
    if_neg (by omega), (by omega : 0 + (8 * (k + 1) + j - 8) = 8 * k + j), decide_eq_true (by omega), Bool.true_and]

theorem commandFirst_left (h : s.commandFirst i = true) : s.commandLeft = 0 := by
  unfold commandFirst at h
  simp only [Bool.and_eq_true, beq_iff_eq] at h
  exact h.1.2

theorem commandNext_left (h : s.commandNext i = true) : s.state = .idle ∧ s.commandLeft ≠ 0 := by
  unfold commandNext at h
  simp only [Bool.and_eq_true, beq_iff_eq, bne_iff_ne] at h
  exact ⟨h.1.2, h.2⟩

theorem writes_of_next (h : s.commandNext i = true) : i.writes 5 = true := by
  unfold commandNext at h
  simp only [Bool.and_eq_true] at h
  exact h.1.1

theorem commandFirst_of_next (h : s.commandNext i = true) : s.commandFirst i = false := by
  cases hf : s.commandFirst i
  · rfl
  · exact absurd (commandFirst_left hf) (commandNext_left h).2

theorem Collected.step (h : Collected s) (hr : i.rstN = true) : Collected (s.step i) := by
  by_cases hf : (s.commandFirst i && i.commandAtFirst != 0) = true
  · have hsize : (s.step i).commandSize = i.commandAtFirst := by
      show s.commandSizeNext i = _
      unfold commandSizeNext
      rw [hr, hf]
      rfl
    have hleft : (s.step i).commandLeft = i.commandAtFirst := by
      show s.commandLeftNext i = _
      unfold commandLeftNext
      rw [hr, hf]
      rfl
    have hcommand : (s.step i).command = BitVec.setWidth 72 i.ioWritedata := by
      rw [Bool.and_eq_true] at hf
      show s.commandRegNext i = _
      unfold commandRegNext
      rw [hr, hf.1]
      rfl
    refine ⟨fun _ => by rw [hsize, hleft], fun _ => ?_⟩
    rw [hsize, hleft, hcommand, Nat.sub_self, Nat.mul_zero, extract_first]
    rfl
  · have hsize : (s.step i).commandSize = s.commandSize := by
      show s.commandSizeNext i = _
      unfold commandSizeNext
      rw [hr, if_neg (by decide), if_neg hf]
    have hleft : (s.step i).commandLeft = if s.commandNext i then s.commandLeft - 1 else s.commandLeft := by
      show s.commandLeftNext i = _
      unfold commandLeftNext
      rw [hr, if_neg (by decide), if_neg hf]
    cases hn : s.commandNext i
    · rw [hn, if_neg Bool.false_ne_true] at hleft
      -- a byte without parameters replaces the command, but then none are left
      have hkeep : s.commandLeft ≠ 0 → (s.step i).command = s.command := by
        intro hne
        have hfirst : s.commandFirst i = false := by
          cases hf' : s.commandFirst i
          · rfl
          · exact absurd (commandFirst_left hf') hne
        show s.commandRegNext i = _
        unfold commandRegNext
        rw [hr, hfirst, hn]
        rfl
      refine ⟨fun hne => ?_, fun hne => ?_⟩
      · rw [hleft] at hne ⊢
        rw [hsize]
        exact h.le hne
      · rw [hleft] at hne ⊢
        rw [hsize, hkeep hne]
        exact h.first hne
    · rw [hn, if_pos rfl] at hleft
      have hne := (commandNext_left hn).2
      have hcommand : (s.step i).command = s.command.extractLsb' 0 64 ++ i.ioWritedata := by
        show s.commandRegNext i = _
        unfold commandRegNext
        rw [hr, commandFirst_of_next hn, hn]
        rfl
      have hle := h.le hne
      have hfirst := h.first hne
      have h8 := parametersOf_le (s.command.extractLsb' (8 * (s.commandSize.toNat - s.commandLeft.toNat)) 5)
      rw [hfirst] at h8
      have hsub : (s.commandLeft - 1).toNat = s.commandLeft.toNat - 1 := by
        have hpos : s.commandLeft.toNat ≠ 0 := fun hz => hne (BitVec.eq_of_toNat_eq hz)
        rw [BitVec.toNat_sub_of_le (show 1 ≤ s.commandLeft.toNat by omega)]
        rfl
      refine ⟨fun _ => ?_, fun hne' => ?_⟩
      · rw [hsize, hleft, hsub]
        omega
      · rw [hleft] at hne' ⊢
        have hpos : (s.commandLeft - 1).toNat ≠ 0 := fun hz => hne' (BitVec.eq_of_toNat_eq hz)
        rw [hsub] at hpos
        rw [hsize, hcommand, hsub, (by omega : s.commandSize.toNat - (s.commandLeft.toNat - 1) =
          s.commandSize.toNat - s.commandLeft.toNat + 1), extract_next _ _ (by omega)]
        exact hfirst

/-! ## The last byte of a command -/

/-- A read, write, read-ID or format command starts that the drive does not answer: its motor is off, it has no medium,
or the sector size, cylinder or sector count is none of the medium's. -/
def hangs (s : Floppy) (i : FloppyIn) : Bool :=
  s.cmdReadWriteStart i && s.cmdReadWriteHangAtStart i || s.cmdReadIdStart i && s.cmdReadIdHangAtStart i ||
    s.cmdFormatTrackStart i && s.cmdFormatHangOnStart i

/-- What the last byte of a command leads to. -/
def Concludes (s : Floppy) (i : FloppyIn) : Prop :=
  s.busyNext i = false ∨ s.stateNext i ≠ .idle ∨ s.enterResultPhase i = true ∨ s.hangs i = true

theorem concludes_of_finish (hf : s.commandFirst i = false)
    (h : (s.cmdRecalibrateStart i || s.cmdSeekStart i || s.cmdSpecifyStart i || s.cmdConfigureModeStart i ||
      s.cmdPerpendicularModeStart i) = true) : Concludes s i := by
  left
  unfold busyNext
  rw [hf]
  simp only [Bool.or_eq_true] at h
  rcases h with (((h | h) | h) | h) | h <;> simp [h]

theorem concludes_of_readWrite (hr : i.rstN = true) (hi : s.state = .idle) (h : s.cmdReadWriteStart i = true) :
    Concludes s i := by
  cases hh : s.cmdReadWriteHangAtStart i
  · cases hres : s.cmdReadWriteIncorrectHeadAtStart i || s.cmdReadWriteIncorrectSectorAtStart i ||
      s.cmdWriteAndWriteprotectedAtStart i
    · -- nothing speaks against it: the transfer begins
      right; left
      rw [Bool.or_eq_false_iff, Bool.or_eq_false_iff] at hres
      have hok : s.cmdReadWriteOkAtStart i = true := by
        unfold cmdReadWriteOkAtStart
        rw [h, hh, hres.1.1, hres.1.2, hres.2]
        rfl
      unfold stateNext
      rw [hr, hi, hok]
      exact nofun
    · right; right; left
      unfold enterResultPhase
      rw [h, hres]
      simp
  · right; right; right
    unfold hangs
    rw [h, hh]
    rfl

theorem concludes_of_format (hr : i.rstN = true) (hi : s.state = .idle) (h : s.cmdFormatTrackStart i = true)
    (hrw : s.cmdReadWriteOkAtStart i = false) : Concludes s i := by
  cases hh : s.cmdFormatHangOnStart i
  · cases hwp : s.cmdFormatWriteprotectedAtStart i
    · right; left
      have hok : s.cmdFormatOkAtStart i = true := by
        unfold cmdFormatOkAtStart
        rw [h, hh, hwp]
        rfl
      unfold stateNext
      rw [hr, hi, hok, hrw]
      exact nofun
    · right; right; left
      unfold enterResultPhase
      rw [h, hwp]
      simp
  · right; right; right
    unfold hangs
    rw [h, hh]
    simp

theorem concludes_of_readId (hr : i.rstN = true) (hi : s.state = .idle) (h : s.cmdReadIdStart i = true)
    (hrw : s.cmdReadWriteOkAtStart i = false) (hfm : s.cmdFormatOkAtStart i = false) : Concludes s i := by
  cases hh : s.cmdReadIdHangAtStart i
  · right; left
    have hok : s.cmdReadIdOkAtStart i = true := by
      unfold cmdReadIdOkAtStart
      rw [h, hh]
      rfl
    unfold stateNext
    rw [hr, hi, hok, hrw, hfm]
    unfold formatInputFinish
    rw [hi]
    exact nofun
  · right; right; right
    unfold hangs
    rw [h, hh]
    simp

/-- The last parameter starts the command its first byte names. -/
theorem Collected.concludes (h : Collected s) (hr : i.rstN = true) (hn : s.commandNext i = true)
    (h1 : s.commandLeft = 1) : Concludes s i := by
  obtain ⟨hi, hne⟩ := commandNext_left hn
  have hf := commandFirst_of_next hn
  have hle := h.le hne
  have hfirst := h.first hne
  rw [h1] at hle hfirst
  have hone : (1 : BitVec 4).toNat = 1 := rfl
  rw [hone] at hle hfirst
  have hlast : ∀ {size : BitVec 4} {low : Nat} {code : BitVec 5}, s.commandSize = size →
      s.command.extractLsb' low 5 = code → s.lastByte i size low code = true := by
    rintro size low code rfl rfl
    unfold lastByte
    rw [hn, h1]
    simp
  have hother : ∀ {size : BitVec 4} {low : Nat} {code : BitVec 5}, s.commandSize ≠ size →
      s.lastByte i size low code = false := by
    intro size low code hsize
    unfold lastByte
    rw [beq_false_of_ne hsize]
    rfl
  have hrw : s.commandSize ≠ 8 → s.cmdReadWriteOkAtStart i = false := by
    intro hsize
    unfold cmdReadWriteOkAtStart cmdReadWriteStart cmdReadNormalStart cmdWriteNormalStart
    rw [hother hsize, hother hsize]
    rfl
  have hfm : s.commandSize ≠ 5 → s.cmdFormatOkAtStart i = false := by
    intro hsize
    unfold cmdFormatOkAtStart cmdFormatTrackStart
    rw [hother hsize]
    rfl
  rcases parametersOf_cases (s.command.extractLsb' (8 * (s.commandSize.toNat - 1)) 5) with
    hc | ⟨hc, hcode⟩ | ⟨hc, hcode⟩ | ⟨hc, hcode⟩ | ⟨hc, hcode⟩ | ⟨hc, hcode⟩
  all_goals
    rw [hfirst] at hc
    try rw [hc] at hcode
  · rw [hc] at hle
    exact absurd hle (by decide)
  · -- get status, recalibrate, read ID, perpendicular mode
    rcases hcode with hcode | hcode | hcode | hcode
    · right; right; left
      have hstart : s.cmdGetStatusStart i = true := hlast hc hcode
      unfold enterResultPhase
      rw [hstart]
      simp
    · have hstart : s.cmdRecalibrateStart i = true := hlast hc hcode
      exact concludes_of_finish hf (by rw [hstart]; rfl)
    · have hne8 : s.commandSize ≠ 8 := by rw [hc]; decide
      have hne5 : s.commandSize ≠ 5 := by rw [hc]; decide
      exact concludes_of_readId hr hi (hlast hc hcode) (hrw hne8) (hfm hne5)
    · have hstart : s.cmdPerpendicularModeStart i = true := hlast hc hcode
      exact concludes_of_finish hf (by rw [hstart, Bool.or_true])
  · -- specify, seek
    rcases hcode with hcode | hcode
    · have hstart : s.cmdSpecifyStart i = true := hlast hc hcode
      exact concludes_of_finish hf (by rw [hstart]; simp)
    · have hstart : s.cmdSeekStart i = true := hlast hc hcode
      exact concludes_of_finish hf (by rw [hstart]; simp)
  · -- configure
    have hstart : s.cmdConfigureModeStart i = true := hlast hc hcode
    exact concludes_of_finish hf (by rw [hstart]; simp)
  · -- format
    have hne8 : s.commandSize ≠ 8 := by rw [hc]; decide
    exact concludes_of_format hr hi (hlast hc hcode) (hrw hne8)
  · -- write, read
    apply concludes_of_readWrite hr hi
    unfold cmdReadWriteStart
    rcases hcode with hcode | hcode
    · have hstart : s.cmdWriteNormalStart i = true := hlast hc hcode
      rw [hstart, Bool.or_true]
    · have hstart : s.cmdReadNormalStart i = true := hlast hc hcode
      rw [hstart, Bool.true_or]

/-- Without a byte and a result the busy flag falls when the last result byte is read. -/
theorem busyNext_of_quiet (hr : i.rstN = true) (hs : s.swReset i = false) (h : NoStart s i)
    (hres : s.enterResultPhase i = false) :
    s.busyNext i = if i.reads 5 && s.replyLeft == 1 then false else s.busy := by
  unfold busyNext cmdRecalibrateStart cmdSeekStart cmdSpecifyStart cmdConfigureModeStart cmdPerpendicularModeStart
  rw [hr, hs, h.first, h.last, h.last, h.last, h.last, h.last, hres]
  rfl

/-- A controller that is busy with nothing to wait for and nothing to give was so before, or hangs from this clock on. -/
theorem unexplained_step (hc : Collected s) (hr : i.rstN = true)
    (hstray : s.commandFirst i = true → strayLock i.ioWritedata = false) (hb : s.busyNext i = true)
    (hst : s.stateNext i = .idle) (hleft : s.commandLeftNext i = 0) (hreply : s.replyLeftNext i = 0) :
    s.hangs i = true ∨
      s.commandFirst i = false ∧ s.busy = true ∧ s.state = .idle ∧ s.commandLeft = 0 ∧ s.replyLeft = 0 := by
  have hs : s.swReset i = false := by
    cases hs : s.swReset i
    · rfl
    · unfold busyNext at hb
      rw [hs, Bool.or_true, if_pos rfl] at hb
      cases hb
  have hres : s.enterResultPhase i = false := by
    cases hres : s.enterResultPhase i
    · rfl
    · exact absurd hreply (replyLeft_of_result hr hs hres)
  cases hf : s.commandFirst i
  · by_cases hi : s.state = .idle
    · cases hn : s.commandNext i
      · -- no byte
        right
        have hno : NoStart s i := ⟨hf, .of_not_next hn⟩
        unfold commandLeftNext at hleft
        rw [hr, hf, hn] at hleft
        rw [busyNext_of_quiet hr hs hno hres] at hb
        rw [replyLeft_of_no_result hr hs hres] at hreply
        by_cases hread : (i.reads 5 && s.replyLeft == 1) = true
        · rw [if_pos hread] at hb
          cases hb
        · rw [if_neg hread] at hb
          refine ⟨rfl, hb, hi, hleft, ?_⟩
          by_cases hread' : (i.reads 5 && s.replyLeft != 0) = true
          · rw [if_pos hread'] at hreply
            rw [Bool.and_eq_true] at hread'
            rw [hread'.1, Bool.true_and, beq_iff_eq] at hread
            have hone : ∀ n : BitVec 4, n - 1 = 0 → n = 1 := by decide
            exact absurd (hone _ hreply) hread
          · rwa [if_neg hread'] at hreply
      · -- a parameter
        by_cases h1 : s.commandLeft = 1
        · rcases hc.concludes hr hn h1 with h | h | h | h
          · rw [h] at hb
            cases hb
          · exact absurd hst h
          · rw [h] at hres
            cases hres
          · exact Or.inl h
        · unfold commandLeftNext at hleft
          rw [hr, hf, hn] at hleft
          have hone : ∀ n : BitVec 4, n - 1 = 0 → n = 1 := by decide
          exact absurd (hone _ hleft) h1
    · -- a transfer that ends has a result
      have hno := NoStart.of_not_idle hi (i := i)
      have hends := ((hno.last.stateNext_idle_iff hr).1 hst).resolve_left hi
      rw [hno.enterResultPhase, hends] at hres
      cases hres
  · by_cases h0 : i.commandAtFirst = 0
    · rw [result_of_first hf h0 (hstray hf)] at hres
      cases hres
    · unfold commandLeftNext at hleft
      rw [hr, hf, if_neg (by decide), Bool.true_and, if_pos (by simpa using h0)] at hleft
      exact absurd hleft h0

/-! ## Unknown commands -/

/-- The result byte of an unknown command waits to be read. -/
structure Awaiting (s : Floppy) : Prop where
  idle : s.state = .idle
  parameters : s.commandLeft = 0
  busy : s.busy = true
  one : s.replyLeft = 1
  byte : s.reply.extractLsb' 0 8 = 0x80
  ndma : s.executeNdma = false

theorem extract_low {n : Nat} (x : BitVec n) (b : BitVec 8) : (x ++ b).extractLsb' 0 8 = b := by
  ext k hk
  rw [BitVec.getElem_extractLsb', BitVec.getLsbD_append, Nat.zero_add, if_pos hk, BitVec.getLsbD_eq_getElem]

theorem unknown_invalid (hf : s.commandFirst i = true) (hu : recognised i.ioWritedata = false)
    (hs : strayLock i.ioWritedata = false) : s.cmdInvalidStart i = true ∧ i.commandAtFirst = 0 := by
  have hbyte : ∀ b : BitVec 8, recognised b = false → strayLock b = false → parametersOf (b.extractLsb' 0 5) = 0 ∧
      (b.extractLsb' 0 5 != 0x03 && b.extractLsb' 0 5 != 0x04 && b.extractLsb' 0 5 != 0x05 && b.extractLsb' 0 5 != 0x06 &&
        b.extractLsb' 0 5 != 0x07 && b.extractLsb' 0 5 != 0x08 && b.extractLsb' 0 5 != 0x0A &&
        b.extractLsb' 0 5 != 0x0D && b.extractLsb' 0 5 != 0x0E && b.extractLsb' 0 5 != 0x0F &&
        b.extractLsb' 0 5 != 0x10 && b.extractLsb' 0 5 != 0x12 && b.extractLsb' 0 5 != 0x13 &&
        b.extractLsb' 0 5 != 0x14) = true := by
    decide
  obtain ⟨h0, hb⟩ := hbyte i.ioWritedata hu hs
  refine ⟨?_, h0⟩
  unfold cmdInvalidStart FloppyIn.code
  rw [hf]
  simpa only [Bool.true_and] using hb

theorem Awaiting.start (hr : i.rstN = true) (hf : s.commandFirst i = true) (hu : recognised i.ioWritedata = false)
    (hs : strayLock i.ioWritedata = false) : Awaiting (s.step i) := by
  obtain ⟨hinv, h0⟩ := unknown_invalid hf hu hs
  have hw : i.writes 5 = true := by
    unfold commandFirst at hf
    simp only [Bool.and_eq_true] at hf
    exact hf.1.1.1
  have hsw := swReset_of_write hw (s := s)
  -- the byte starts a command, so it is not a parameter of one
  have hn : s.commandNext i = false := by
    cases hn : s.commandNext i
    · rfl
    · exact absurd (commandFirst_left hf) (commandNext_left hn).2
  have hi : s.state = .idle := by
    by_contra hi
    rw [commandFirst_of_not_idle hi] at hf
    cases hf
  have hlast : NoLast s i := .of_not_next hn
  constructor
  · exact (hlast.stateNext_idle_iff hr).2 (Or.inl hi)
  · show s.commandLeftNext i = 0
    unfold commandLeftNext
    rw [hr, hf, h0, hn]
    exact commandFirst_left hf
  · show s.busyNext i = true
    unfold busyNext
    rw [hr, hsw, hf]
    rfl
  · show s.replyLeftNext i = 1
    unfold replyLeftNext
    rw [hr, hsw, hinv]
    rfl
  · show (s.replyNext i).extractLsb' 0 8 = 0x80
    unfold replyNext
    rw [hr, hsw, hinv, if_neg (by decide), if_pos rfl]
    exact extract_low _ _
  · show s.executeNdmaNext i = false
    have hres : s.enterResultPhase i = true := by
      unfold enterResultPhase
      rw [hinv]
      simp only [Bool.true_or]
    unfold executeNdmaNext
    rw [hr, hlast.readWriteOk, hlast.formatOk, hres]
    rfl

theorem Awaiting.noStart (h : Awaiting s) : NoStart s i := by
  constructor
  · unfold commandFirst
    rw [h.busy, Bool.not_true, Bool.and_false]
  · apply NoLast.of_not_next
    unfold commandNext
    rw [h.parameters]
    exact Bool.and_false _

/-- The result waits as long as it is not read and no recalibrate or seek ends. -/
theorem Awaiting.next (h : Awaiting s) (hr : i.rstN = true) (hs : s.swReset i = false) (hread : i.reads 5 = false)
    (hd : s.delayLastCycle = false) : Awaiting (s.step i) := by
  have hno := h.noStart (i := i)
  have hends := transferEnds_of_idle h.idle
  have hres : s.enterResultPhase i = false := hno.enterResultPhase.trans hends
  have hn : s.commandNext i = false := by
    cases hn : s.commandNext i
    · rfl
    · exact absurd h.parameters (commandNext_left hn).2
  constructor
  · exact (hno.last.stateNext_idle_iff hr).2 (Or.inl h.idle)
  · show s.commandLeftNext i = 0
    unfold commandLeftNext
    rw [hr, hno.first, hn]
    exact h.parameters
  · show s.busyNext i = true
    rw [busyNext_of_quiet hr hs hno hres, hread, h.busy]
    rfl
  · show s.replyLeftNext i = 1
    rw [replyLeft_of_no_result hr hs hres, hread, h.one]
    rfl
  · have hkeep : s.replyNext i = s.reply := by
      have hi := h.idle
      unfold replyNext cmdInvalidStart cmdSenseInterruptStatusStart cmdDumpRegistersStart cmdVersionStart cmdUnlockStart
        cmdLockStart cmdWriteNormalStart cmdFormatTrackStart cmdGetStatusStart formatInputFinish cmdReadIdFinished
      rw [hr, hs, hno.first, hno.last.readWrite, hno.last, hno.last, hno.last, hd, hread, hi]
      rfl
    show (s.replyNext i).extractLsb' 0 8 = 0x80
    rw [hkeep]
    exact h.byte
  · show s.executeNdmaNext i = false
    unfold executeNdmaNext
    rw [hr, hno.last.readWriteOk, hno.last.formatOk, hres]
    exact h.ndma

/-- Reading it ends the command. -/
theorem Awaiting.read (h : Awaiting s) (hr : i.rstN = true) (hs : s.swReset i = false) (hread : i.reads 5 = true) :
    (s.step i).replyLeft = 0 ∧ ∀ j : FloppyIn, j.writes 5 = true → (s.step i).commandFirst j = true := by
  have hno := h.noStart (i := i)
  have hres : s.enterResultPhase i = false := hno.enterResultPhase.trans (transferEnds_of_idle h.idle)
  have hn : s.commandNext i = false := by
    cases hn : s.commandNext i
    · rfl
    · exact absurd h.parameters (commandNext_left hn).2
  have hst : (s.step i).state = .idle := (hno.last.stateNext_idle_iff hr).2 (Or.inl h.idle)
  have hleft : (s.step i).commandLeft = 0 := by
    show s.commandLeftNext i = 0
    unfold commandLeftNext
    rw [hr, hno.first, hn]
    exact h.parameters
  have hbusy : (s.step i).busy = false := by
    show s.busyNext i = false
    rw [busyNext_of_quiet hr hs hno hres, hread, h.one]
    rfl
  constructor
  · show s.replyLeftNext i = 0
    rw [replyLeft_of_no_result hr hs hres, hread, h.one]
    rfl
  · intro j hj
    unfold Floppy.commandFirst
    rw [hj, hst, hleft, hbusy]
    rfl

end Floppy

/-! ## Runs -/

namespace FloppyRun

variable (r : FloppyRun) {t u : Nat}

def commandFirst (t : Nat) : Bool := (r.regs t).commandFirst (r.inp t)

def hangs (t : Nat) : Bool := (r.regs t).hangs (r.inp t)

/-- The first byte of no command is taken in clock `t`. -/
def TakesUnknown (t : Nat) : Prop :=
  (r.inp t).rstN = true ∧ r.commandFirst t = true ∧ recognised (r.inp t).ioWritedata = false

/-- From the byte taken in clock `t` to clock `u` there was neither a reset nor a read of the data port. -/
def Waits (t u : Nat) : Prop :=
  t < u ∧ ∀ v, t < v → v < u → (r.inp v).rstN = true ∧ r.swReset v = false ∧ (r.inp v).reads 5 = false

/-- A busy controller without a transfer expects a parameter, has a result byte, or was left hanging by its last command. -/
def Explained (t : Nat) : Prop :=
  (r.regs t).busy = true → (r.regs t).state = .idle →
    (r.regs t).commandLeft ≠ 0 ∨ (r.regs t).replyLeft ≠ 0 ∨
      ∃ u, u < t ∧ r.hangs u = true ∧ ∀ v, u < v → v < t → r.commandFirst v = false

/-- The byte taken in clock `t` has one result byte, 80h, and when it is read the next command is accepted. -/
structure AnswersUnknown (t : Nat) : Prop where
  one : ∀ u, r.Waits t u → (r.regs u).replyLeft = 1
  byte : ∀ u, r.Waits t u → ∀ i : FloppyIn, i.ioAddress = 5 → (r.regs u).ioReaddataPrepare i = 0x80
  accepts : ∀ u, r.Waits t u → (r.inp u).rstN = true → r.swReset u = false → (r.inp u).reads 5 = true →
    (r.regs (u + 1)).replyLeft = 0 ∧ ∀ i : FloppyIn, i.writes 5 = true → (r.regs (u + 1)).commandFirst i = true

/-- The busy flag is explained in every clock, and every unknown command answered. -/
structure KeepsTurn : Prop where
  explained : ∀ t, 0 < t → r.Explained t
  unknown : ∀ t, 0 < t → r.TakesUnknown t → r.AnswersUnknown t

/-- No first byte is a stray one, and no recalibrate or seek ends while the result of an unknown command waits. -/
structure Undisturbed : Prop where
  known : ∀ t, 0 < t → (r.inp t).rstN = true → r.commandFirst t = true → strayLock (r.inp t).ioWritedata = false
  still : ∀ t u, 0 < t → r.TakesUnknown t → t < u → r.Waits t (u + 1) → (r.regs u).delayLastCycle = false

variable {r}

theorem collected (ht : 0 < t) : (r.regs t).Collected := by
  have hreset : ∀ t, (r.inp t).rstN = false → (r.regs (t + 1)).Collected := by
    intro t h
    have hleft : (r.regs (t + 1)).commandLeft = 0 := by
      show (r.regs t).commandLeftNext (r.inp t) = 0
      unfold Floppy.commandLeftNext
      rw [h]
      rfl
    exact ⟨fun hne => absurd hleft hne, fun hne => absurd hleft hne⟩
  induction t, ht using Nat.le_induction with
  | base => exact hreset 0 r.reset
  | succ t ht ih =>
    cases hr : (r.inp t).rstN
    · exact hreset t hr
    · exact ih.step hr

theorem explained (h : r.Undisturbed) (ht : 0 < t) : r.Explained t := by
  have hreset : ∀ t, (r.inp t).rstN = false → r.Explained (t + 1) := by
    intro t hr hb
    have hb' : (r.regs t).busyNext (r.inp t) = true := hb
    unfold Floppy.busyNext at hb'
    rw [hr] at hb'
    cases hb'
  induction t, ht using Nat.le_induction with
  | base => exact hreset 0 r.reset
  | succ t ht ih =>
    cases hr : (r.inp t).rstN
    · exact hreset t hr
    · intro hb hst
      by_cases hleft : (r.regs (t + 1)).commandLeft = 0
      · by_cases hreply : (r.regs (t + 1)).replyLeft = 0
        · right; right
          rcases Floppy.unexplained_step (collected ht) hr (h.known t ht hr) hb hst hleft hreply with
            hh | ⟨hf, hb0, hst0, hleft0, hreply0⟩
          · exact ⟨t, Nat.lt_succ_self t, hh, fun v h1 h2 => by omega⟩
          · rcases ih hb0 hst0 with hne | hne | ⟨u, hu, hh, hno⟩
            · exact absurd hleft0 hne
            · exact absurd hreply0 hne
            · refine ⟨u, by omega, hh, fun v h1 h2 => ?_⟩
              rcases Nat.lt_or_ge v t with hlt | hge
              · exact hno v h1 hlt
              · rw [(by omega : v = t)]
                exact hf
        · exact Or.inr (Or.inl hreply)
      · exact Or.inl hleft

theorem awaiting (h : r.Undisturbed) (ht : 0 < t) (hu : r.TakesUnknown t) : r.Waits t u → (r.regs u).Awaiting := by
  rintro ⟨hlt, hquiet⟩
  induction u, hlt using Nat.le_induction with
  | base => exact .start hu.1 hu.2.1 hu.2.2 (h.known t ht hu.1 hu.2.1)
  | succ u hlt ih =>
    obtain ⟨h1, h2, h3⟩ := hquiet u hlt (Nat.lt_succ_self u)
    have hd := h.still t u ht hu hlt ⟨Nat.lt_succ_of_lt hlt, hquiet⟩
    exact (ih fun v hv hvu => hquiet v hv (by omega)).next h1 h2 h3 hd

/-- In every run without stray bytes and ill-timed seeks the busy flag is explained and unknown commands are answered. -/
theorem keepsTurn (r : FloppyRun) (h : r.Undisturbed) : r.KeepsTurn := by
  refine ⟨fun t ht => explained h ht, fun t ht hu => ?_⟩
  constructor
  · exact fun u hw => (awaiting h ht hu hw).one
  · intro u hw i hi
    have ha := awaiting h ht hu hw
    unfold Floppy.ioReaddataPrepare Floppy.ndmaRead
    rw [hi, ha.ndma, Bool.and_false, Bool.false_and]
    exact ha.byte
  · exact fun u hw h1 h2 h3 => (awaiting h ht hu hw).read h1 h2 h3

/-! ## Unknown and stray bytes -/

/-- No recalibrate or seek is under way. -/
structure NoDelay (s : Floppy) : Prop where
  steps : s.delaySteps = 0
  srt : s.delaySrt = 0
  rate : s.delayRate = 0
  clock : s.clkRate ≠ 0

theorem NoDelay.next {s : Floppy} {i : FloppyIn} (h : NoDelay s) (hno : s.NoLast i) (hc : i.clockRate ≠ 0) :
    NoDelay (s.step i) := by
  have hclk : ¬ s.clkRate ≤ 0 := fun hle => h.clock (BitVec.le_zero_iff.1 hle)
  refine ⟨?_, ?_, ?_, hc⟩
  · show s.delayStepsNext i = 0
    unfold Floppy.delayStepsNext Floppy.cmdRecalibrateStart Floppy.cmdSeekStart
    rw [hno, hno, h.steps, h.srt, h.rate]
    simp
  · show s.delaySrtNext i = 0
    unfold Floppy.delaySrtNext Floppy.cmdRecalibrateStart Floppy.cmdSeekStart
    rw [hno, hno, h.steps, h.srt, h.rate]
    simp
  · show s.delayRateNext i = 0
    unfold Floppy.delayRateNext Floppy.cmdRecalibrateStart Floppy.cmdSeekStart
    rw [hno, hno, h.steps, h.srt, h.rate, if_neg hclk]
    simp

/-- The bytes written are over. -/
theorem writing_quiet (bytes : List (BitVec 3 × BitVec 8)) (ht : bytes.length < t) :
    ((writing bytes).inp t).writes 5 = false := by
  show (decide (0 < t) && decide (t ≤ bytes.length) && _) = false
  rw [decide_eq_false (by omega : ¬ t ≤ bytes.length), Bool.and_false, Bool.false_and]

theorem writing_noDelay (bytes : List (BitVec 3 × BitVec 8)) (h : NoDelay ((writing bytes).regs (bytes.length + 1)))
    (ht : bytes.length < t) : ((writing bytes).regs t).delayLastCycle = false := by
  have hall : NoDelay ((writing bytes).regs t) := by
    induction t, ht using Nat.le_induction with
    | base => exact h
    | succ t ht ih => exact ih.next (.of_not_write (writing_quiet bytes ht)) (show (50000000#28 : BitVec 28) ≠ 0 by decide)
  unfold Floppy.delayLastCycle
  rw [hall.rate]
  exact Bool.and_false _

theorem unknownByte_keepsTurn : (writing [(5, 0x01)]).KeepsTurn := by
  refine keepsTurn _ ⟨?_, ?_⟩
  · intro t ht _ hf
    rcases Nat.lt_or_ge 1 t with h1 | h1
    · unfold commandFirst at hf
      rw [Floppy.commandFirst_of_not_write (writing_quiet [(5, 0x01)] h1)] at hf
      cases hf
    · rw [(by omega : t = 1)]
      decide
  · intro t u ht _ hlt _
    have hstart : NoDelay ((writing [(5, 0x01)]).regs 2) := by
      constructor <;> decide
    exact writing_noDelay [(5, 0x01)] hstart (show 1 < u by omega)

/-- The byte 34h is taken as a command and never answered. -/
theorem strayByte_not_keepsTurn : ¬ (writing [(5, 0x34)]).KeepsTurn := by
  intro h
  have hleft : ((writing [(5, 0x34)]).regs 2).commandLeft = 0 := by decide
  have hreply : ((writing [(5, 0x34)]).regs 2).replyLeft = 0 := by decide
  have hno : ∀ u, u < 2 → (writing [(5, 0x34)]).hangs u = false := by decide
  rcases h.explained 2 (by decide) (by decide) (by decide) with hne | hne | ⟨u, hu, hh, -⟩
  · exact hne hleft
  · exact hne hreply
  · rw [hno u hu] at hh
    cases hh

end FloppyRun

end Z486.Disk
