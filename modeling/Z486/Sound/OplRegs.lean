/-
The registers of the OPL3 (src/soc/sound/opl3/control_operators.sv, channels.sv, mem_multi_bank.sv): each register write
goes into those memories that keep some of its bits, and the operator and the channel that are at work read the bits they
need. To a reader the memories are one array of bytes, what was written last to each address.

The runs begin after the reset, with the memories as the configuration leaves them.
-/
import Z486.Sound.OplHost
import Z486.Sound.OplSamples

namespace Z486.Sound

open Clocked Opl

/-! ## Memories -/

section Memories

variable {α : Type} {w : Nat}

/-- `mem_multi_bank`, for the registers from `first` to `last`. -/
def memNext (first last : BitVec 8) (dia : BitVec 8 → α) (m : Bool → BitVec w → α) (wr : OplRegWr) :
    Bool → BitVec w → α := fun bank a =>
  if wr.valid ∧ first ≤ wr.address ∧ wr.address ≤ last ∧ wr.bankNum = bank ∧ wr.address.setWidth w = a then dia wr.data
  else m bank a

/-- A register of its own. -/
def regNext (bank : Bool) (address : BitVec 8) (data : BitVec 8 → α) (r : α) (wr : OplRegWr) : α :=
  if wr.valid ∧ wr.bankNum = bank ∧ wr.address = address then data wr.data else r

end Memories

structure OplRegs where
  amVibEgtKsrMultMem : Bool → BitVec 5 → BitVec 8
  kslTlMem : Bool → BitVec 5 → BitVec 8
  arDrMem : Bool → BitVec 5 → BitVec 8
  slRrMem : Bool → BitVec 5 → BitVec 8
  wsMem : Bool → BitVec 5 → BitVec 3
  fnumLowMem : Bool → BitVec 4 → BitVec 8
  konMem : Bool → BitVec 4 → Bool
  blockFnumHighMem : Bool → BitVec 4 → BitVec 5
  fbCnt0Mem : Bool → BitVec 4 → BitVec 4
  fbCnt1Mem : Bool → BitVec 4 → Bool
  chAbcdCntMem : Bool → BitVec 4 → BitVec 8
  globals : OplGlobals

namespace OplRegs

variable (s : OplRegs)

def powerUp : OplRegs where
  amVibEgtKsrMultMem := fun _ _ => 0
  kslTlMem := fun _ _ => 0
  arDrMem := fun _ _ => 0
  slRrMem := fun _ _ => 0
  wsMem := fun _ _ => 0
  fnumLowMem := fun _ _ => 0
  konMem := fun _ _ => false
  blockFnumHighMem := fun _ _ => 0
  fbCnt0Mem := fun _ _ => 0
  fbCnt1Mem := fun _ _ => false
  chAbcdCntMem := fun _ _ => 0
  globals := ⟨0, false, false, false, false, false, false, false, false, false, false⟩

def globalsNext (g : OplGlobals) (wr : OplRegWr) : OplGlobals where
  connectionSel := regNext true 0x04 (·.setWidth 6) g.connectionSel wr
  isNew := regNext true 0x05 (·.getLsbD 0) g.isNew wr
  ryt := regNext false 0xBD (·.getLsbD 5) g.ryt wr
  nts := regNext false 0x08 (·.getLsbD 6) g.nts wr
  dvb := regNext false 0xBD (·.getLsbD 6) g.dvb wr
  dam := regNext false 0xBD (·.getLsbD 7) g.dam wr
  bd := regNext false 0xBD (·.getLsbD 4) g.bd wr
  sd := regNext false 0xBD (·.getLsbD 3) g.sd wr
  tom := regNext false 0xBD (·.getLsbD 2) g.tom wr
  tc := regNext false 0xBD (·.getLsbD 1) g.tc wr
  hh := regNext false 0xBD (·.getLsbD 0) g.hh wr

/-- A clock in which `opl3_reg_wr` is `wr`. -/
def step (wr : OplRegWr) : OplRegs where
  amVibEgtKsrMultMem := memNext 0x20 0x35 id s.amVibEgtKsrMultMem wr
  kslTlMem := memNext 0x40 0x55 id s.kslTlMem wr
  arDrMem := memNext 0x60 0x75 id s.arDrMem wr
  slRrMem := memNext 0x80 0x95 id s.slRrMem wr
  wsMem := memNext 0xE0 0xF5 (·.setWidth 3) s.wsMem wr
  fnumLowMem := memNext 0xA0 0xA8 id s.fnumLowMem wr
  konMem := memNext 0xB0 0xB8 (·.getLsbD 5) s.konMem wr
  blockFnumHighMem := memNext 0xB0 0xB8 (·.setWidth 5) s.blockFnumHighMem wr
  fbCnt0Mem := memNext 0xC0 0xC8 (·.setWidth 4) s.fbCnt0Mem wr
  fbCnt1Mem := memNext 0xC0 0xC8 (·.getLsbD 0) s.fbCnt1Mem wr
  chAbcdCntMem := memNext 0xC0 0xC8 id s.chAbcdCntMem wr
  globals := globalsNext s.globals wr

/-! ## Addresses -/

/-- `operator_mem_rd_address` -/
def operatorAddress (op : BitVec 5) : BitVec 5 := if op < 6 then op else if op < 12 then op + 2 else op + 4

/-- `kon_block_fnum_channel_mem_rd_address` -/
def konBlockFnumChannel (sel : BitVec 6) (bank : Bool) (op : BitVec 5) : BitVec 4 :=
  if op = 0 ∨ op = 3 then 0
  else if op = 1 ∨ op = 4 then 1
  else if op = 2 ∨ op = 5 then 2
  else if op = 6 ∨ op = 9 then if sel.getLsbD (if !bank then 0 else 3) then 0 else 3
  else if op = 7 ∨ op = 10 then if sel.getLsbD (if !bank then 1 else 4) then 1 else 4
  else if op = 8 ∨ op = 11 then if sel.getLsbD (if !bank then 2 else 5) then 2 else 5
  else if op = 12 ∨ op = 15 then 6
  else if op = 13 ∨ op = 16 then 7
  else 8

/-- `fb_cnt0_channel_mem_rd_address`: the last pair goes by the bit of the first bank in both of them. -/
def fbCnt0Channel (sel : BitVec 6) (bank : Bool) (op : BitVec 5) : BitVec 4 :=
  if op = 0 ∨ op = 3 then 0
  else if op = 1 ∨ op = 4 then 1
  else if op = 2 ∨ op = 5 then 2
  else if op = 6 ∨ op = 9 then if sel.getLsbD (if !bank then 0 else 3) then 0 else 3
  else if op = 7 ∨ op = 10 then if sel.getLsbD (if !bank then 1 else 4) then 1 else 4
  else if op = 8 ∨ op = 11 then if sel.getLsbD 2 then 2 else 5
  else if op = 12 ∨ op = 15 then 6
  else if op = 13 ∨ op = 16 then 7
  else 8

/-- `cnt1_channel_mem_rd_address` -/
def cnt1Channel (op : BitVec 5) : BitVec 4 :=
  if op = 6 ∨ op = 9 then 3 else if op = 7 ∨ op = 10 then 4 else if op = 8 ∨ op = 11 then 5 else 0

/-! ## Reads -/

/-- What is read for an operator. -/
def params (x : OplSlot) : OplParams :=
  let a := operatorAddress x.op
  let c := konBlockFnumChannel s.globals.connectionSel x.bank x.op
  let f := fbCnt0Channel s.globals.connectionSel x.bank x.op
  { am := (s.amVibEgtKsrMultMem x.bank a).getLsbD 7
    vib := (s.amVibEgtKsrMultMem x.bank a).getLsbD 6
    egt := (s.amVibEgtKsrMultMem x.bank a).getLsbD 5
    ksr := (s.amVibEgtKsrMultMem x.bank a).getLsbD 4
    mult := (s.amVibEgtKsrMultMem x.bank a).setWidth 4
    ksl := (s.kslTlMem x.bank a).extractLsb' 6 2
    tl := (s.kslTlMem x.bank a).setWidth 6
    ar := (s.arDrMem x.bank a).extractLsb' 4 4
    dr := (s.arDrMem x.bank a).setWidth 4
    sl := (s.slRrMem x.bank a).extractLsb' 4 4
    rr := (s.slRrMem x.bank a).setWidth 4
    ws := s.wsMem x.bank a
    fnum := (s.blockFnumHighMem x.bank c).setWidth 2 ++ s.fnumLowMem x.bank c
    block := (s.blockFnumHighMem x.bank c).extractLsb' 2 3
    kon := s.konMem x.bank c
    fb := (s.fbCnt0Mem x.bank f).extractLsb' 1 3
    cnt0 := (s.fbCnt0Mem x.bank f).getLsbD 0
    cnt1 := s.fbCnt1Mem x.bank (cnt1Channel x.op) }

/-- What is read for a channel. -/
def channel (bank : Bool) (c : BitVec 4) : OplChannel :=
  let b := s.chAbcdCntMem bank c
  ⟨b.getLsbD 4, b.getLsbD 5, b.getLsbD 6, b.getLsbD 7, b.getLsbD 0⟩

end OplRegs

/-! ## The array of bytes -/

/-- The bytes that were written last. -/
def bytesNext (b : Bool → BitVec 8 → BitVec 8) (wr : OplRegWr) : Bool → BitVec 8 → BitVec 8 := fun bank a =>
  if wr.valid ∧ wr.bankNum = bank ∧ wr.address = a then wr.data else b bank a

section Memories

variable {α : Type} {w : Nat} {first last : BitVec 8} {dia : BitVec 8 → α} {m : Bool → BitVec w → α}
  {b : Bool → BitVec 8 → BitVec 8} {wr : OplRegWr}

/-- A memory holds its bits of the bytes from `first` to `last`. -/
def Stored (first last : BitVec 8) (dia : BitVec 8 → α) (m : Bool → BitVec w → α) (b : Bool → BitVec 8 → BitVec 8) :
    Prop :=
  ∀ bank (a : BitVec w), first.toNat + a.toNat ≤ last.toNat → m bank a = dia (b bank (first + a.setWidth 8))

/-- The low bits of an address select a byte of a block that is aligned. -/
theorem address_iff {x : BitVec 8} {a : BitVec w} (hfirst : first.toNat % 2 ^ w = 0)
    (hlast : last.toNat < first.toNat + 2 ^ w) (ha : first.toNat + a.toNat ≤ last.toNat) :
    (first ≤ x ∧ x ≤ last ∧ x.setWidth w = a) ↔ x = first + a.setWidth 8 := by
  have hroom := last.isLt
  have hsum : (first + a.setWidth 8).toNat = first.toNat + a.toNat := by
    rw [BitVec.toNat_add, BitVec.toNat_setWidth, Nat.mod_eq_of_lt (show a.toNat < 2 ^ 8 by omega),
      Nat.mod_eq_of_lt (by omega)]
  constructor
  · rintro ⟨hlo, hhi, hlow⟩
    obtain ⟨k, hk⟩ := Nat.exists_eq_add_of_le (BitVec.le_def.1 hlo)
    have hhi' := BitVec.le_def.1 hhi
    have hmod : (first.toNat + k) % 2 ^ w = k := by
      rw [Nat.add_mod, hfirst, Nat.zero_add, Nat.mod_mod, Nat.mod_eq_of_lt (by omega)]
    apply BitVec.eq_of_toNat_eq
    rw [hsum, ← hlow, BitVec.toNat_setWidth, hk, hmod]
  · rintro rfl
    refine ⟨BitVec.le_def.2 (by omega), BitVec.le_def.2 (by omega), ?_⟩
    apply BitVec.eq_of_toNat_eq
    rw [BitVec.toNat_setWidth, hsum, Nat.add_mod, hfirst, Nat.zero_add, Nat.mod_mod, Nat.mod_eq_of_lt a.isLt]

theorem Stored.next (h : Stored first last dia m b) (hfirst : first.toNat % 2 ^ w = 0)
    (hlast : last.toNat < first.toNat + 2 ^ w) :
    Stored first last dia (memNext first last dia m wr) (bytesNext b wr) := by
  intro bank a ha
  have haddress := @address_iff w first last wr.address a hfirst hlast ha
  unfold memNext bytesNext
  by_cases hhit : wr.valid = true ∧ wr.bankNum = bank ∧ wr.address = first + a.setWidth 8
  · obtain ⟨hvalid, hbank, hat⟩ := hhit
    obtain ⟨hlo, hhi, hlow⟩ := haddress.2 hat
    rw [if_pos ⟨hvalid, hlo, hhi, hbank, hlow⟩, if_pos ⟨hvalid, hbank, hat⟩]
  · rw [if_neg hhit, if_neg fun hwrite => hhit ⟨hwrite.1, hwrite.2.2.2.1, haddress.1
      ⟨hwrite.2.1, hwrite.2.2.1, hwrite.2.2.2.2⟩⟩]
    exact h bank a ha

theorem regNext_eq {bank : Bool} {address : BitVec 8} {r : α} (h : r = dia (b bank address)) :
    regNext bank address dia r wr = dia (bytesNext b wr bank address) := by
  unfold regNext bytesNext
  split
  · rfl
  · exact h

end Memories

/-- The registers for all operators, in the bytes. -/
def globalsOf (b : Bool → BitVec 8 → BitVec 8) : OplGlobals where
  connectionSel := (b true 0x04).setWidth 6
  isNew := (b true 0x05).getLsbD 0
  ryt := (b false 0xBD).getLsbD 5
  nts := (b false 0x08).getLsbD 6
  dvb := (b false 0xBD).getLsbD 6
  dam := (b false 0xBD).getLsbD 7
  bd := (b false 0xBD).getLsbD 4
  sd := (b false 0xBD).getLsbD 3
  tom := (b false 0xBD).getLsbD 2
  tc := (b false 0xBD).getLsbD 1
  hh := (b false 0xBD).getLsbD 0

namespace OplRegs

/-- The memories hold the bytes. -/
structure Holds (s : OplRegs) (b : Bool → BitVec 8 → BitVec 8) : Prop where
  amVibEgtKsrMult : Stored 0x20 0x35 id s.amVibEgtKsrMultMem b
  kslTl : Stored 0x40 0x55 id s.kslTlMem b
  arDr : Stored 0x60 0x75 id s.arDrMem b
  slRr : Stored 0x80 0x95 id s.slRrMem b
  ws : Stored 0xE0 0xF5 (·.setWidth 3) s.wsMem b
  fnumLow : Stored 0xA0 0xA8 id s.fnumLowMem b
  kon : Stored 0xB0 0xB8 (·.getLsbD 5) s.konMem b
  blockFnumHigh : Stored 0xB0 0xB8 (·.setWidth 5) s.blockFnumHighMem b
  fbCnt0 : Stored 0xC0 0xC8 (·.setWidth 4) s.fbCnt0Mem b
  fbCnt1 : Stored 0xC0 0xC8 (·.getLsbD 0) s.fbCnt1Mem b
  chAbcdCnt : Stored 0xC0 0xC8 id s.chAbcdCntMem b
  globals : s.globals = globalsOf b

variable {s : OplRegs} {b : Bool → BitVec 8 → BitVec 8}

theorem globals_next (h : s.globals = globalsOf b) (wr : OplRegWr) :
    globalsNext s.globals wr = globalsOf (bytesNext b wr) := by
  rw [h]
  unfold globalsNext globalsOf
  congr 1 <;> exact regNext_eq rfl

theorem Holds.next (h : s.Holds b) (wr : OplRegWr) : (s.step wr).Holds (bytesNext b wr) where
  amVibEgtKsrMult := h.amVibEgtKsrMult.next (by decide) (by decide)
  kslTl := h.kslTl.next (by decide) (by decide)
  arDr := h.arDr.next (by decide) (by decide)
  slRr := h.slRr.next (by decide) (by decide)
  ws := h.ws.next (by decide) (by decide)
  fnumLow := h.fnumLow.next (by decide) (by decide)
  kon := h.kon.next (by decide) (by decide)
  blockFnumHigh := h.blockFnumHigh.next (by decide) (by decide)
  fbCnt0 := h.fbCnt0.next (by decide) (by decide)
  fbCnt1 := h.fbCnt1.next (by decide) (by decide)
  chAbcdCnt := h.chAbcdCnt.next (by decide) (by decide)
  globals := globals_next h.globals wr

theorem holds_powerUp : powerUp.Holds fun _ _ => 0 where
  amVibEgtKsrMult := fun _ _ _ => rfl
  kslTl := fun _ _ _ => rfl
  arDr := fun _ _ _ => rfl
  slRr := fun _ _ _ => rfl
  ws := fun _ _ _ => rfl
  fnumLow := fun _ _ _ => rfl
  kon := fun _ _ _ => show false = (0 : BitVec 8).getLsbD 5 by decide
  blockFnumHigh := fun _ _ _ => rfl
  fbCnt0 := fun _ _ _ => rfl
  fbCnt1 := fun _ _ _ => show false = (0 : BitVec 8).getLsbD 0 by decide
  chAbcdCnt := fun _ _ _ => rfl
  globals := rfl

/-! ## Voices -/

/-- The register of an operator in a group of them. -/
def operatorByte (op : Fin 18) : BitVec 8 := BitVec.ofNat 8 (op.val % 6 + 8 * (op.val / 6))

/-- The channel that an operator belongs to: the operators of a channel of four have the first one's pitch and key. -/
def voiceChannel (sel : BitVec 6) (bank : Bool) (op : Fin 18) : BitVec 8 :=
  BitVec.ofNat 8 (if op.val / 6 = 1 ∧ sel.getLsbD (op.val % 3 + if bank then 3 else 0) then op.val % 3
    else op.val % 3 + 3 * (op.val / 6))

/-- The channel that an operator has its feedback from. -/
def feedbackChannel (sel : BitVec 6) (bank : Bool) (op : Fin 18) : BitVec 8 :=
  voiceChannel sel (bank && op.val % 3 != 2) op

/-- The second channel of a pair. -/
def secondChannel (op : Fin 18) : BitVec 8 := BitVec.ofNat 8 (if op.val / 6 = 1 then op.val % 3 + 3 else 0)

/-- What an operator plays by, in the bytes. -/
def paramsOf (b : Bool → BitVec 8 → BitVec 8) (bank : Bool) (op : Fin 18) : OplParams :=
  let sel := (b true 0x04).setWidth 6
  let c := voiceChannel sel bank op
  let f := feedbackChannel sel bank op
  { am := (b bank (0x20 + operatorByte op)).getLsbD 7
    vib := (b bank (0x20 + operatorByte op)).getLsbD 6
    egt := (b bank (0x20 + operatorByte op)).getLsbD 5
    ksr := (b bank (0x20 + operatorByte op)).getLsbD 4
    mult := (b bank (0x20 + operatorByte op)).setWidth 4
    ksl := (b bank (0x40 + operatorByte op)).extractLsb' 6 2
    tl := (b bank (0x40 + operatorByte op)).setWidth 6
    ar := (b bank (0x60 + operatorByte op)).extractLsb' 4 4
    dr := (b bank (0x60 + operatorByte op)).setWidth 4
    sl := (b bank (0x80 + operatorByte op)).extractLsb' 4 4
    rr := (b bank (0x80 + operatorByte op)).setWidth 4
    ws := (b bank (0xE0 + operatorByte op)).setWidth 3
    fnum := (b bank (0xB0 + c)).setWidth 2 ++ b bank (0xA0 + c)
    block := (b bank (0xB0 + c)).extractLsb' 2 3
    kon := (b bank (0xB0 + c)).getLsbD 5
    fb := (b bank (0xC0 + f)).extractLsb' 1 3
    cnt0 := (b bank (0xC0 + f)).getLsbD 0
    cnt1 := (b bank (0xC0 + secondChannel op)).getLsbD 0 }

/-- What a channel is put out by. -/
def channelOf (b : Bool → BitVec 8 → BitVec 8) (bank : Bool) (c : Fin 9) : OplChannel :=
  let x := b bank (0xC0 + BitVec.ofNat 8 c.val)
  ⟨x.getLsbD 4, x.getLsbD 5, x.getLsbD 6, x.getLsbD 7, x.getLsbD 0⟩

/-- The last operators of the second bank have another channel's feedback when the two bits of their pairs differ. -/
theorem feedbackChannel_eq_iff (sel : BitVec 6) (bank : Bool) (op : Fin 18) :
    feedbackChannel sel bank op = voiceChannel sel bank op ↔
      ¬(bank = true ∧ (op = 8 ∨ op = 11) ∧ sel.getLsbD 2 ≠ sel.getLsbD 5) := by
  revert sel bank op
  decide +kernel

/-! ## Reads of the bytes -/

section Reads

variable {α : Type} {first last : BitVec 8} {dia : BitVec 8 → α}

theorem operatorAddress_eq (op : Fin 18) : (operatorAddress (BitVec.ofNat 5 op.val)).setWidth 8 = operatorByte op ∧
    (operatorAddress (BitVec.ofNat 5 op.val)).toNat ≤ 21 := by
  revert op
  decide

theorem konBlockFnumChannel_eq (sel : BitVec 6) (bank : Bool) (op : Fin 18) :
    (konBlockFnumChannel sel bank (BitVec.ofNat 5 op.val)).setWidth 8 = voiceChannel sel bank op ∧
      (konBlockFnumChannel sel bank (BitVec.ofNat 5 op.val)).toNat ≤ 8 := by
  revert sel bank op
  decide +kernel

theorem fbCnt0Channel_eq (sel : BitVec 6) (bank : Bool) (op : Fin 18) :
    (fbCnt0Channel sel bank (BitVec.ofNat 5 op.val)).setWidth 8 = feedbackChannel sel bank op ∧
      (fbCnt0Channel sel bank (BitVec.ofNat 5 op.val)).toNat ≤ 8 := by
  revert sel bank op
  decide +kernel

theorem cnt1Channel_eq (op : Fin 18) : (cnt1Channel (BitVec.ofNat 5 op.val)).setWidth 8 = secondChannel op ∧
    (cnt1Channel (BitVec.ofNat 5 op.val)).toNat ≤ 8 := by
  revert op
  decide

theorem read_operator {m : Bool → BitVec 5 → α} (h : Stored first last dia m b) (hroom : first.toNat + 21 ≤ last.toNat)
    (bank : Bool) (op : Fin 18) :
    m bank (operatorAddress (BitVec.ofNat 5 op.val)) = dia (b bank (first + operatorByte op)) := by
  obtain ⟨haddress, hle⟩ := operatorAddress_eq op
  rw [h bank _ (by omega), haddress]

theorem read_channel {m : Bool → BitVec 4 → α} (h : Stored first last dia m b) (hroom : first.toNat + 8 ≤ last.toNat)
    (bank : Bool) {a : BitVec 4} {c : BitVec 8} (ha : a.setWidth 8 = c ∧ a.toNat ≤ 8) :
    m bank a = dia (b bank (first + c)) := by
  rw [h bank a (by omega), ha.1]

end Reads

/-- The memories keep the low bits of a byte. -/
theorem low_bits (x : BitVec 8) : (x.setWidth 5).setWidth 2 = x.setWidth 2 ∧
    (x.setWidth 5).extractLsb' 2 3 = x.extractLsb' 2 3 ∧ (x.setWidth 4).extractLsb' 1 3 = x.extractLsb' 1 3 ∧
    (x.setWidth 4).getLsbD 0 = x.getLsbD 0 := by
  revert x
  decide

theorem Holds.params (h : s.Holds b) (bank : Bool) (op : Fin 18) :
    s.params ⟨bank, BitVec.ofNat 5 op.val⟩ = paramsOf b bank op := by
  have hsel : s.globals.connectionSel = (b true 0x04).setWidth 6 := by
    rw [h.globals]
    rfl
  have hvoice := konBlockFnumChannel_eq ((b true 0x04).setWidth 6) bank op
  have hfeedback := fbCnt0Channel_eq ((b true 0x04).setWidth 6) bank op
  unfold OplRegs.params paramsOf
  rw [hsel]
  simp only [read_operator h.amVibEgtKsrMult (by decide), read_operator h.kslTl (by decide),
    read_operator h.arDr (by decide), read_operator h.slRr (by decide), read_operator h.ws (by decide),
    read_channel h.fnumLow (by decide) bank hvoice, read_channel h.kon (by decide) bank hvoice,
    read_channel h.blockFnumHigh (by decide) bank hvoice, read_channel h.fbCnt0 (by decide) bank hfeedback,
    read_channel h.fbCnt1 (by decide) bank (cnt1Channel_eq op), id_eq, low_bits]

theorem Holds.channel (h : s.Holds b) (bank : Bool) (c : Fin 9) :
    s.channel bank (BitVec.ofNat 4 c.val) = channelOf b bank c := by
  have hc : ∀ c : Fin 9, (BitVec.ofNat 4 c.val).setWidth 8 = BitVec.ofNat 8 c.val ∧
      (BitVec.ofNat 4 c.val).toNat ≤ 8 := by decide
  unfold OplRegs.channel channelOf
  rw [read_channel h.chAbcdCnt (by decide) bank (hc c)]
  rfl

end OplRegs

/-! ## A run -/

/-- The chip from a reset on, with any register writes. -/
structure OplRegRun where
  writes : Nat → OplRegWr

namespace OplRegRun

open OplRegs

variable (r : OplRegRun)

def regs (t : Nat) : OplRegs := run OplRegs.step .powerUp r.writes t

/-- The bytes that were written last before clock `t`. -/
def bytes (t : Nat) : Bool → BitVec 8 → BitVec 8 := run bytesNext (fun _ _ => 0) r.writes t

/-- Operators and channels with these registers. -/
def chip : OplSampleRun where
  ops := ⟨fun t => ⟨(r.regs t).globals, (r.regs t).params⟩⟩
  channels t := (r.regs t).channel

theorem holds (t : Nat) : (r.regs t).Holds (r.bytes t) := by
  induction t with
  | zero => exact holds_powerUp
  | succ t ih => exact ih.next (r.writes t)

/-- In every clock, operators and channels go by the bytes that were written last. -/
theorem reads_bytes (t : Nat) : r.chip.ops.globals t = globalsOf (r.bytes t) ∧
    (∀ bank (op : Fin 18), (r.chip.ops.inputs t).params ⟨bank, BitVec.ofNat 5 op.val⟩ = paramsOf (r.bytes t) bank op) ∧
    ∀ bank (c : Fin 9), r.chip.channels t bank (BitVec.ofNat 4 c.val) = channelOf (r.bytes t) bank c :=
  ⟨(r.holds t).globals, (r.holds t).params, (r.holds t).channel⟩

end OplRegRun

end Z486.Sound
