/-
Reads from the device: the halves of the dwords come to the capture register one after the other, and the
port sees them as the dwords the device holds.
-/
import Z486.Sdram.Contents

namespace Z486.Sdram

/-! ## Reads -/

/-- The address of the `i`-th dword of a read. -/
def SdramReq.dwordAddr (q : SdramReq) (i : Nat) : BitVec 27 :=
  if q.wraps then
    q.addr.extractLsb' 4 23 ++ (q.addr.extractLsb' 2 2 + BitVec.ofNat 2 i) ++ q.addr.extractLsb' 0 2
  else q.addr + BitVec.ofNat 27 (4 * i)

/-- The dwords of a read are in one row. -/
def SdramReq.InRow (p : SdramParams) (q : SdramReq) : Prop :=
  q.wraps = true ∨ (columnOf p.large q.addr).toNat + q.effBurst ≤ if p.large then 512 else 256

theorem SdramReq.dwordAddr_toNat (q : SdramReq) (i : Nat) : (q.dwordAddr i).toNat =
    if q.wraps then q.addr.toNat / 16 * 16 + (q.addr.toNat / 4 % 4 + i) % 4 * 4 + q.addr.toNat % 4
    else (q.addr.toNat + 4 * i) % 2 ^ 27 := by
  have hlt := q.addr.isLt
  unfold SdramReq.dwordAddr
  split_ifs
  · rw [BitVec.toNat_append, BitVec.toNat_append, ← Nat.shiftLeft_add_eq_or_of_lt (BitVec.isLt _),
      ← Nat.shiftLeft_add_eq_or_of_lt (BitVec.isLt _), BitVec.toNat_add, BitVec.toNat_ofNat]
    simp only [extractLsb'_toNat_eq, Nat.shiftLeft_eq]
    omega
  · rw [BitVec.toNat_add, BitVec.toNat_ofNat]
    omega

/-- The dwords of a read are on one page, and their columns follow each other. -/
theorem SdramReq.page_dwordAddr {p : SdramParams} {q : SdramReq} (h : q.InRow p) {i : Nat} (hi : i < q.effBurst) :
    (q.dwordAddr i).toNat / (if p.large then 2 ^ 11 else 2 ^ 10) = q.addr.toNat / (if p.large then 2 ^ 11 else 2 ^ 10) ∧
      (columnOf p.large (q.dwordAddr i)).toNat =
        if q.wraps then (columnOf p.large q.addr).toNat / 4 * 4 + ((columnOf p.large q.addr).toNat % 4 + i) % 4
        else (columnOf p.large q.addr).toNat + i := by
  obtain ⟨-, -, hc, -⟩ := place_toNat p q.addr
  obtain ⟨-, -, hc', -⟩ := place_toNat p (q.dwordAddr i)
  have hlt := q.addr.isLt
  have ha := q.dwordAddr_toNat i
  unfold SdramReq.InRow at h
  rw [hc']
  rw [hc] at h ⊢
  by_cases hw : q.wraps = true
  · -- a burst of four wraps within its group of four columns
    rw [if_pos hw] at ha ⊢
    cases p.large <;> simp only [Bool.false_eq_true, if_false, if_true] <;> constructor <;> omega
  · -- any other one stays within its row
    rw [if_neg hw] at ha ⊢
    have h := h.resolve_left hw
    cases hl : p.large <;> simp only [hl, Bool.false_eq_true, if_false, if_true] at h ⊢ <;> constructor <;> omega

/-- The row and the dword column of the `i`-th dword of a read. -/
theorem SdramReq.place_dwordAddr {p : SdramParams} {q : SdramReq} (h : q.InRow p) {i : Nat} (hi : i < q.effBurst) :
    p.chipOf (q.dwordAddr i) = p.chipOf q.addr ∧ bankOf p.large (q.dwordAddr i) = bankOf p.large q.addr ∧
      rowOf p.large (q.dwordAddr i) = rowOf p.large q.addr ∧
      (columnOf p.large (q.dwordAddr i)).toNat =
        if q.wraps then (columnOf p.large q.addr).toNat / 4 * 4 + ((columnOf p.large q.addr).toNat % 4 + i) % 4
        else (columnOf p.large q.addr).toNat + i := by
  obtain ⟨hpage, hcolumn⟩ := SdramReq.page_dwordAddr h hi
  obtain ⟨hchip, hbank, hrow⟩ := place_of_page p hpage
  exact ⟨hchip, hbank, hrow, hcolumn⟩

/-- The column reads go through the dwords in their order, low half first. -/
theorem SdramReq.halfColumn_eq {p : SdramParams} {q : SdramReq} (h : q.InRow p) {i : Nat} (hi : i < q.effBurst)
    (high : Bool) :
    q.halfColumn p (2 * i + high.toNat) = columnOf p.large (q.dwordAddr i) ++ BitVec.ofBool high := by
  have hcol := (SdramReq.place_dwordAddr h hi).2.2.2
  have hle : high.toNat ≤ 1 := Bool.toNat_le high
  have hlow : BitVec.ofNat 1 (2 * i + high.toNat) = BitVec.ofBool high := by
    rw [← BitVec.toNat_inj, BitVec.toNat_ofNat, BitVec.toNat_ofBool]
    omega
  have hlt := (columnOf p.large q.addr).isLt
  have hlt' := (columnOf p.large (q.dwordAddr i)).isLt
  unfold SdramReq.halfColumn
  rw [(by omega : (2 * i + high.toNat) / 2 = i), hlow]
  by_cases hw : q.wraps = true
  · rw [if_pos hw] at hcol
    simp only [if_pos hw]
    congr 1
    rw [← BitVec.toNat_inj, hcol, BitVec.toNat_append, ← Nat.shiftLeft_add_eq_or_of_lt (BitVec.isLt _),
      BitVec.toNat_add, BitVec.toNat_ofNat]
    simp only [extractLsb'_toNat_eq, Nat.shiftLeft_eq]
    omega
  · rw [if_neg hw] at hcol
    simp only [if_neg hw]
    congr 1
    rw [← BitVec.toNat_inj, hcol, BitVec.toNat_add, BitVec.toNat_ofNat]
    omega

/-! ## The capture register -/

/-- The capture register takes the data pins in every clock. -/
theorem Controller.dqR_next (p : SdramParams) (s : Controller) (i : SdramIn) : (s.next p i).dqR = i.dqIn := by
  by_cases hs : s.state = .idle
  · exact congrArg Ticked.dqR (ticked_idle hs)
  · obtain ⟨cnt, resp, done, hnext, -, -⟩ := ticked_next (p := p) (i := i) hs
    exact congrArg Ticked.dqR hnext

/-- The low half of a dword is kept until the high half is there. -/
theorem Reading.words_next {p : SdramParams} {port : Port} {q : SdramReq} {k : Nat} {s : Controller} {i : SdramIn}
    (h : Reading p port q k s) (hk : p.readStart ≤ k) (hlt : k < p.readClocks q) :
    ((k - p.readStart) % 2 = 0 → (s.next p i).rdLo16 = s.dqR) ∧
      ((k - p.readStart) % 2 = 1 → (s.next p i).doutWord = s.dqR ++ s.rdLo16) := by
  have hs : s.state = .read := by rw [h.state, if_pos hlt]
  have hnext : s.next p i = s.readCapture p (s.readIssue p (s.tick p i)) := by
    unfold Controller.next
    rw [hs]
    rfl
  have hrec := h.received
  rw [hnext]
  unfold Controller.readCapture
  rw [if_pos ((h.captures_iff hlt).2 hk)]
  constructor
  · intro heven
    rw [if_pos (by omega)]
  · intro hodd
    rw [if_neg (by omega)]
    dsimp only
    split <;> rfl

namespace DeviceRun

variable {r : DeviceRun} {a k : Nat} {chip ap : Bool} {bank : BitVec 2} {row : BitVec 13} {col : BitVec 10}

/-- A column read of a row that was opened in clock `a + 1` reaches the capture register. -/
theorem captured (hnone : (r.dev (a + 1)).row chip bank = none) (hopen : r.bus (a + 1) = .activate chip bank row)
    (hk : 2 ≤ k) (hread : r.bus (a + k) = .read chip bank col ap)
    (hno : ∀ j, 2 ≤ j → j < k → ¬ r.closes (a + j) chip bank)
    (hcells : ∀ j, 1 ≤ j → j < k → ∀ c b cl p, r.bus (a + j) ≠ .write c b cl p) :
    (r.regs (a + k + r.p.cas + 1)).dqR = (r.dev (a + 1)).cells chip bank row col := by
  obtain ⟨n, rfl⟩ := Nat.exists_eq_add_of_le' hk
  have hrow : (r.dev (a + 1 + n + 1)).row chip bank = some row := by
    apply row_some hnone hopen
    intro j h1 h2
    rw [Nat.add_assoc]
    exact hno (1 + j) (by omega) (by omega)
  have hsame : (r.dev (a + 1 + (n + 1))).cells = (r.dev (a + 1)).cells := by
    apply cells_add
    intro j hj
    rw [Nat.add_assoc]
    exact hcells (1 + j) (by omega) (by omega)
  have hdata : (r.dev (a + (n + 2))).readData (r.bus (a + (n + 2))) = some ((r.dev (a + 1)).cells chip bank row col) := by
    rw [hread, (by omega : a + (n + 2) = a + 1 + n + 1)]
    show ((r.dev (a + 1 + n + 1)).row chip bank).map (fun row => (r.dev (a + 1 + n + 1)).cells chip bank row col) = _
    rw [hrow, Nat.add_assoc (a + 1), hsame]
    rfl
  rw [r.next, Controller.dqR_next]
  exact dqIn_of_read hdata

/-- What a request finds: nothing on the pins, and every bank of the module closed. -/
structure Idle (r : DeviceRun) (t : Nat) : Prop where
  state : (r.regs t).state = .idle
  bus : r.bus t = .nop
  closed : ∀ chip bank, (chip = true → r.p.twoChips = true) → (r.dev t).row chip bank = none

theorem chipOf_twoChips {p : SdramParams} {addr : BitVec 27} (h : p.chipOf addr = true) : p.twoChips = true := by
  unfold SdramParams.chipOf at h
  rw [Bool.and_eq_true] at h
  exact h.1

section Accepted

variable {port : Port} (hi : r.Idle a) (ha : r.accepts a = some port)
include hi

/-- The bank of a request is still closed when its row is opened. -/
theorem row_accepted (addr : BitVec 27) : (r.dev (a + 1)).row (r.p.chipOf addr) (bankOf r.p.large addr) = none := by
  apply row_none_succ (hi.closed _ _ chipOf_twoChips)
  rw [hi.bus]
  exact nofun

theorem half_accepted (addr : BitVec 27) (high : Bool) :
    (r.dev (a + 1)).half r.p addr high = (r.dev a).half r.p addr high := by
  unfold Device.half
  rw [cells_succ]
  rw [hi.bus]
  exact nofun

include ha

theorem access_bus (hk : 1 ≤ k) (hle : k ≤ ((r.inp a).req port).clocks r.p) :
    r.bus (a + k) = ((r.inp a).req port).bus r.p k :=
  (r.access ha (r.hiZ_of_idle hi.state) hk hle).bus

/-- The halves of a read reach the capture register in the order of its column reads. -/
theorem read_captured (hr : ((r.inp a).req port).wr = false) {j : Nat} (hj : j < 2 * ((r.inp a).req port).effBurst) :
    (r.regs (a + r.p.readStart + j)).dqR = (r.dev a).cells (r.p.chipOf ((r.inp a).req port).addr)
      (bankOf r.p.large ((r.inp a).req port).addr) (rowOf r.p.large ((r.inp a).req port).addr)
      (chipColumn r.p.large (((r.inp a).req port).halfColumn r.p j)) := by
  have hf := r.p.fits
  have hrcd := hf.rcd
  have hb := fun k => r.access_bus hi ha (k := k)
  generalize (r.inp a).req port = q at hr hj hb ⊢
  obtain ⟨hc, -, hbus⟩ := SdramReq.of_read (p := r.p) hr
  have hclk : r.p.readClocks q = r.p.tRcd + r.p.cas + 2 + 2 * q.effBurst := rfl
  have hb' : ∀ k, 1 ≤ k → k ≤ r.p.readClocks q → r.bus (a + k) = readBus r.p q k := by
    intro k h1 h2
    rw [hb k h1 (by omega), hbus]
  have hopen : r.bus (a + 1) = .activate (r.p.chipOf q.addr) (bankOf r.p.large q.addr) (rowOf r.p.large q.addr) :=
    hb' 1 le_rfl (by omega)
  have hread : r.bus (a + (r.p.tRcd + 1 + j)) = .read (r.p.chipOf q.addr) (bankOf r.p.large q.addr)
      (chipColumn r.p.large (q.halfColumn r.p j)) (decide (r.p.tRcd + 1 + j = r.p.tRcd + 2 * q.effBurst)) := by
    rw [hb' _ (by omega) (by omega)]
    unfold readBus
    rw [if_neg (by omega), if_pos (by omega), (by omega : r.p.tRcd + 1 + j - 1 - r.p.tRcd = j)]
  -- auto-precharge comes with the last column read only
  have hno : ∀ m, 2 ≤ m → m < r.p.tRcd + 1 + j → ¬ r.closes (a + m) (r.p.chipOf q.addr) (bankOf r.p.large q.addr) := by
    rintro m h1 h2 ⟨d, hd⟩
    rw [hb' m (by omega) (by omega)] at hd
    unfold readBus at hd
    rw [if_neg (by omega)] at hd
    split_ifs at hd
    · have hap := hd.2.2.1
      rw [decide_eq_true_eq] at hap
      omega
    · exact hd
  have hcells : ∀ m, 1 ≤ m → m < r.p.tRcd + 1 + j → ∀ c b cl ap, r.bus (a + m) ≠ .write c b cl ap := by
    intro m h1 h2 c b cl ap
    rw [hb' m h1 (by omega)]
    unfold readBus
    split_ifs <;> exact nofun
  have h := captured (row_accepted hi q.addr) hopen (by omega) hread hno hcells
  rw [(by unfold SdramParams.readStart; omega : a + r.p.readStart + j = a + (r.p.tRcd + 1 + j) + r.p.cas + 1), h,
    cells_succ]
  rw [hi.bus]
  exact nofun

/-- The dwords of a read, as the port sees them. -/
theorem read_word (hr : ((r.inp a).req port).wr = false) (hrow : ((r.inp a).req port).InRow r.p) {i : Nat}
    (hlt : i < ((r.inp a).req port).effBurst) :
    (r.regs (a + r.p.readStart + 2 * i + 2)).doutWord =
      (r.dev a).contents r.p (r.p.wordOf (((r.inp a).req port).dwordAddr i)) := by
  have hz := r.hiZ_of_idle hi.state
  have hrd := fun k => r.reading (k := k) ha hz hr
  have hcap := fun j hj => read_captured hi ha hr (j := j) hj
  generalize (r.inp a).req port = q at hr hrow hlt hrd hcap ⊢
  have hclk : r.p.readClocks q = r.p.readStart + 2 * q.effBurst := rfl
  have hpos : 1 ≤ r.p.readStart := by
    unfold SdramParams.readStart
    omega
  have hlo := (hrd (r.p.readStart + 2 * i) (by omega) (by omega)).words_next (i := r.inp (a + (r.p.readStart + 2 * i)))
    (by omega) (by omega)
  have hhi := (hrd (r.p.readStart + 2 * i + 1) (by omega) (by omega)).words_next
    (i := r.inp (a + (r.p.readStart + 2 * i + 1))) (by omega) (by omega)
  have hlo' := hlo.1 (by omega)
  have hhi' := hhi.2 (by omega)
  rw [← r.next] at hlo' hhi'
  rw [(by omega : a + (r.p.readStart + 2 * i) + 1 = a + (r.p.readStart + 2 * i + 1))] at hlo'
  rw [hlo'] at hhi'
  rw [(by omega : a + r.p.readStart + 2 * i + 2 = a + (r.p.readStart + 2 * i + 1) + 1), hhi',
    (by omega : a + (r.p.readStart + 2 * i) = a + r.p.readStart + 2 * i),
    (by omega : a + (r.p.readStart + 2 * i + 1) = a + r.p.readStart + (2 * i + 1)), hcap _ (by omega), hcap _ (by omega),
    contents_wordOf]
  obtain ⟨h1, h2, h3, -⟩ := SdramReq.place_dwordAddr hrow hlt
  have c0 : q.halfColumn r.p (2 * i) = _ := SdramReq.halfColumn_eq hrow hlt false
  have c1 : q.halfColumn r.p (2 * i + 1) = _ := SdramReq.halfColumn_eq hrow hlt true
  unfold Device.half
  rw [h1, h2, h3, ← c0, ← c1]

end Accepted

end DeviceRun

end Z486.Sdram
