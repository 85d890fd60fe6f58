/-
What an SDRAM module holds, as dwords of its address space: the chip, bank, row and column of an address,
and the effect of a write of a half on the dword it is part of.
-/
import Z486.Sdram.Device

namespace Z486.Sdram

/-! ## Addresses -/

/-- The dword of the module an address is in: 32, 64 or 128 MB of them. -/
def SdramParams.wordOf (p : SdramParams) (addr : BitVec 27) : BitVec 25 :=
  if p.twoChips then addr.extractLsb' 2 25
  else if p.large then 0#1 ++ addr.extractLsb' 2 24
  else 0#2 ++ addr.extractLsb' 2 23

/-- The first byte of a dword. -/
def byteAddress (x : BitVec 25) : BitVec 27 := x ++ 0#2

/-- A half of the dword at an address. -/
def Device.half (p : SdramParams) (d : Device) (addr : BitVec 27) (high : Bool) : BitVec 16 :=
  d.cells (p.chipOf addr) (bankOf p.large addr) (rowOf p.large addr)
    (chipColumn p.large (columnOf p.large addr ++ BitVec.ofBool high))

/-- The dwords a device holds. -/
def Device.contents (p : SdramParams) (d : Device) (x : BitVec 25) : BitVec 32 :=
  d.half p (byteAddress x) true ++ d.half p (byteAddress x) false

theorem sdramSize_cases (p : SdramParams) :
    (p.twoChips = false ∧ p.large = false) ∨ (p.twoChips = false ∧ p.large = true) ∨
      (p.twoChips = true ∧ p.large = true) := by
  have h : ∀ n : BitVec 2, ((n == 3) = false ∧ n.getLsbD 1 = false) ∨ ((n == 3) = false ∧ n.getLsbD 1 = true) ∨
      ((n == 3) = true ∧ n.getLsbD 1 = true) := by decide
  exact h p.sdramSize

theorem extractLsb'_toNat_eq {n : Nat} (x : BitVec n) (i w : Nat) :
    (x.extractLsb' i w).toNat = x.toNat / 2 ^ i % 2 ^ w := by
  rw [BitVec.extractLsb'_toNat, Nat.shiftRight_eq_div_pow]

section Address

variable (p : SdramParams) (a b : BitVec 27)

/-- The place of an address on the module, in numbers. -/
theorem place_toNat : (bankOf p.large a).toNat = a.toNat / (if p.large then 2 ^ 24 else 2 ^ 23) % 4 ∧
    (rowOf p.large a).toNat = a.toNat / (if p.large then 2 ^ 11 else 2 ^ 10) % 2 ^ 13 ∧
    (columnOf p.large a).toNat = a.toNat / 4 % (if p.large then 2 ^ 9 else 2 ^ 8) ∧
    p.chipOf a = (p.twoChips && decide (2 ^ 26 ≤ a.toNat)) := by
  have hchip : a.getLsbD 26 = decide (2 ^ 26 ≤ a.toNat) := by
    have hlt := a.isLt
    rw [BitVec.getLsbD, Nat.testBit_eq_decide_div_mod_eq, decide_eq_decide]
    omega
  unfold bankOf rowOf columnOf SdramParams.chipOf
  rw [hchip]
  cases p.large
  · simp only [Bool.false_eq_true, if_false, extractLsb'_toNat_eq, BitVec.toNat_append, BitVec.toNat_ofNat,
      Nat.zero_mod, Nat.zero_shiftLeft, Nat.zero_or]
    exact ⟨rfl, trivial, rfl, trivial⟩
  · simp only [if_true, extractLsb'_toNat_eq]
    exact ⟨rfl, trivial, rfl, trivial⟩

variable {a b} in
/-- Addresses with the same bits above the column are in one row of one bank. -/
theorem place_of_page (h : a.toNat / (if p.large then 2 ^ 11 else 2 ^ 10) = b.toNat / if p.large then 2 ^ 11 else 2 ^ 10) :
    p.chipOf a = p.chipOf b ∧ bankOf p.large a = bankOf p.large b ∧ rowOf p.large a = rowOf p.large b := by
  obtain ⟨hb, hr, -, hc⟩ := place_toNat p a
  obtain ⟨hb', hr', -, hc'⟩ := place_toNat p b
  rw [hc, hc', ← BitVec.toNat_inj, ← BitVec.toNat_inj, hb, hr, hb', hr']
  have hchip : decide (2 ^ 26 ≤ a.toNat) = decide (2 ^ 26 ≤ b.toNat) := by
    rw [decide_eq_decide]
    cases hl : p.large <;> simp only [hl, Bool.false_eq_true, if_false, if_true] at h <;> omega
  refine ⟨by rw [hchip], ?_, by rw [h]⟩
  cases hl : p.large <;> simp only [hl, Bool.false_eq_true, if_false, if_true] at h ⊢ <;> omega

theorem wordOf_toNat : (p.wordOf a).toNat =
    a.toNat / 4 % (if p.twoChips then 2 ^ 25 else if p.large then 2 ^ 24 else 2 ^ 23) := by
  unfold SdramParams.wordOf
  split_ifs
  · rw [extractLsb'_toNat_eq]
    rfl
  · simp only [BitVec.toNat_append, BitVec.toNat_ofNat, Nat.zero_mod, Nat.zero_shiftLeft, Nat.zero_or,
      extractLsb'_toNat_eq]
    rfl
  · simp only [BitVec.toNat_append, BitVec.toNat_ofNat, Nat.zero_mod, Nat.zero_shiftLeft, Nat.zero_or,
      extractLsb'_toNat_eq]
    rfl

/-- Addresses of one dword are those with the same place on the module. -/
theorem wordOf_eq_iff : p.wordOf a = p.wordOf b ↔ p.chipOf a = p.chipOf b ∧ bankOf p.large a = bankOf p.large b ∧
    rowOf p.large a = rowOf p.large b ∧ columnOf p.large a = columnOf p.large b := by
  obtain ⟨ha1, ha2, ha3, ha4⟩ := place_toNat p a
  obtain ⟨hb1, hb2, hb3, hb4⟩ := place_toNat p b
  have hwa := wordOf_toNat p a
  have hwb := wordOf_toNat p b
  have hla := a.isLt
  have hlb := b.isLt
  rw [ha4, hb4]
  simp only [← BitVec.toNat_inj]
  rw [hwa, hwb, ha1, ha2, ha3, hb1, hb2, hb3]
  rcases sdramSize_cases p with ⟨h2, hl⟩ | ⟨h2, hl⟩ | ⟨h2, hl⟩
  · simp only [h2, hl, Bool.false_and, Bool.false_eq_true, if_false, true_and]
    omega
  · simp only [h2, hl, Bool.false_and, Bool.false_eq_true, if_false, if_true, true_and]
    omega
  · simp only [h2, hl, Bool.true_and, if_true, decide_eq_decide]
    omega

theorem wordOf_byteAddress : p.wordOf (byteAddress (p.wordOf a)) = p.wordOf a := by
  have hb : (byteAddress (p.wordOf a)).toNat = (p.wordOf a).toNat * 4 := by
    unfold byteAddress
    simp only [BitVec.toNat_append, BitVec.toNat_ofNat, Nat.zero_mod, Nat.or_zero, Nat.shiftLeft_eq]
  rw [← BitVec.toNat_inj, wordOf_toNat, hb, Nat.mul_div_cancel _ (by decide), wordOf_toNat]
  exact Nat.mod_mod _ _

/-- The columns of the halves of different dwords of a row differ. -/
theorem chipColumn_inj {h h' : Bool} (heq : chipColumn p.large (columnOf p.large a ++ BitVec.ofBool h) =
    chipColumn p.large (columnOf p.large b ++ BitVec.ofBool h')) : columnOf p.large a = columnOf p.large b ∧ h = h' := by
  obtain ⟨-, -, ha, -⟩ := place_toNat p a
  obtain ⟨-, -, hb, -⟩ := place_toNat p b
  have hcat : ∀ (c : BitVec 9) (h : Bool), (c ++ BitVec.ofBool h).toNat = c.toNat * 2 + h.toNat := by
    intro c h
    rw [BitVec.toNat_append, BitVec.toNat_ofBool, ← Nat.shiftLeft_add_eq_or_of_lt (Bool.toNat_lt h), Nat.shiftLeft_eq]
  have hle : h.toNat ≤ 1 := Bool.toNat_le h
  have hle' : h'.toNat ≤ 1 := Bool.toNat_le h'
  have hfin : (columnOf p.large a).toNat = (columnOf p.large b).toNat ∧ h.toNat = h'.toNat := by
    rw [← BitVec.toNat_inj] at heq
    unfold chipColumn at heq
    cases hl : p.large
    · rw [hl] at heq ha hb
      simp only [Bool.false_eq_true, if_false, BitVec.toNat_append, BitVec.toNat_ofNat, Nat.zero_mod,
        Nat.zero_shiftLeft, Nat.zero_or, extractLsb'_toNat_eq] at heq ha hb
      have h1 := hcat (columnOf false a) h
      have h2 := hcat (columnOf false b) h'
      simp only [BitVec.toNat_append] at h1 h2
      rw [h1, h2] at heq
      omega
    · rw [hl] at heq
      simp only [if_true] at heq
      rw [hcat, hcat] at heq
      omega
  refine ⟨BitVec.toNat_inj.1 hfin.1, ?_⟩
  revert hfin
  cases h <;> cases h' <;> simp

end Address

/-! ## Halves -/

section Halves

variable {p : SdramParams} {d d' : Device} (a b : BitVec 27)

theorem half_of_wordOf {a b : BitVec 27} (h : p.wordOf a = p.wordOf b) (high : Bool) :
    d.half p a high = d.half p b high := by
  obtain ⟨h1, h2, h3, h4⟩ := (wordOf_eq_iff p a b).1 h
  unfold Device.half
  rw [h1, h2, h3, h4]

theorem contents_wordOf : d.contents p (p.wordOf a) = d.half p a true ++ d.half p a false := by
  unfold Device.contents
  rw [half_of_wordOf (wordOf_byteAddress p a), half_of_wordOf (wordOf_byteAddress p a)]

theorem contents_of_cells (h : d'.cells = d.cells) : d'.contents p = d.contents p := by
  funext x
  unfold Device.contents Device.half
  rw [h]

/-- The halves after a write command on the open row of `a`. -/
theorem half_step {dq : BitVec 16} {dqm : BitVec 2} {ap high : Bool}
    (hrow : d.row (p.chipOf a) (bankOf p.large a) = some (rowOf p.large a)) (b : BitVec 27) (h : Bool) :
    (d.step p (.write (p.chipOf a) (bankOf p.large a)
      (chipColumn p.large (columnOf p.large a ++ BitVec.ofBool high)) ap) dq dqm).half p b h =
      if p.wordOf b = p.wordOf a ∧ h = high then halfMerge dqm (d.half p b h) dq else d.half p b h := by
  unfold Device.half Device.step Device.cellsNext
  dsimp only
  by_cases hw : p.wordOf b = p.wordOf a ∧ h = high
  · obtain ⟨h1, h2, h3, h4⟩ := (wordOf_eq_iff p b a).1 hw.1
    rw [if_pos hw, if_pos]
    rw [h1, h2, h3, h4, hw.2]
    exact ⟨rfl, rfl, rfl, hrow⟩
  · rw [if_neg hw, if_neg]
    rintro ⟨h1, h2, h3, h4⟩
    rw [hrow] at h4
    obtain ⟨h5, h6⟩ := chipColumn_inj p a b h3
    exact hw ⟨(wordOf_eq_iff p b a).2 ⟨h1.symm, h2.symm, (Option.some.inj h4).symm, h5.symm⟩, h6.symm⟩

end Halves

/-! ## Merging -/

theorem halfMerge_none (old new : BitVec 16) : halfMerge 0 old new = new := by
  unfold halfMerge
  exact (BitVec.extractLsb'_append_extractLsb'_eq_extractLsb' rfl).trans BitVec.extractLsb'_eq_self

theorem halfMerge_all (old new : BitVec 16) : halfMerge 3 old new = old := by
  unfold halfMerge
  exact (BitVec.extractLsb'_append_extractLsb'_eq_extractLsb' rfl).trans BitVec.extractLsb'_eq_self

theorem mask_bits : ∀ be : BitVec 4, (~~~be.extractLsb' 2 2).getLsbD 1 = !be.getLsbD 3 ∧
    (~~~be.extractLsb' 2 2).getLsbD 0 = !be.getLsbD 2 ∧
    (~~~be.extractLsb' 0 2).getLsbD 1 = !be.getLsbD 1 ∧ (~~~be.extractLsb' 0 2).getLsbD 0 = !be.getLsbD 0 := by decide

/-- A dword is merged half by half. -/
theorem byteMerge_eq (old new : BitVec 32) (be : BitVec 4) : byteMerge old new be =
    halfMerge (~~~be.extractLsb' 2 2) (old.extractLsb' 16 16) (new.extractLsb' 16 16) ++
      halfMerge (~~~be.extractLsb' 0 2) (old.extractLsb' 0 16) (new.extractLsb' 0 16) := by
  obtain ⟨h3, h2, h1, h0⟩ := mask_bits be
  have hnot : ∀ (c : Bool) (x y : BitVec 8), (if (!c) = true then x else y) = if c = true then y else x := by
    intro c x y
    cases c <;> rfl
  have hbyte : ∀ (x : BitVec 32) (i j : Nat), j + 8 ≤ 16 →
      (x.extractLsb' i 16).extractLsb' j 8 = x.extractLsb' (i + j) 8 := by
    intro x i j h
    apply BitVec.eq_of_getLsbD_eq
    intro k hk
    simp only [BitVec.getLsbD_extractLsb', hk, decide_true, Bool.true_and, (by omega : j + k < 16), Nat.add_assoc]
  unfold byteMerge halfMerge
  rw [h3, h2, h1, h0, hnot, hnot, hnot, hnot]
  simp only [hbyte _ _ _ (by decide : 8 + 8 ≤ 16), hbyte _ _ _ (by decide : 0 + 8 ≤ 16)]
  rw [BitVec.append_assoc]
  rfl

theorem extract_append (a b : BitVec 16) : (a ++ b).extractLsb' 16 16 = a ∧ (a ++ b).extractLsb' 0 16 = b :=
  ⟨BitVec.extractLsb'_append_eq_left, BitVec.extractLsb'_append_eq_right⟩

end Z486.Sdram
