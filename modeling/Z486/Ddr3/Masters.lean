/-
Two of the masters of the DDR3 port: the fetch engine of the line buffer (src/soc/svga_linebuf.sv),
which reads a scanline in bursts of up to eight words, and the GUS sample memory
(src/soc/sound/gus/gus_ddr.sv), which reads and writes single beats. The third is `main_memory`.
-/
import Mathlib.Tactic.Common

namespace Z486.Ddr3

/-! ## The fetch engine -/

inductive FetchState
  | idle
  | issue
  | data
  deriving DecidableEq, Repr

/-- The registers of the fetch engine. -/
structure LineFetcher where
  state : FetchState
  ddrAddr : BitVec 29
  ddrRd : Bool
  ddrBurstcnt : BitVec 8
  curAddr : BitVec 29
  wordsLeft : BitVec 9
  burstLeft : BitVec 8
  reqTaken : Bool
  lbWe : Bool
  lbWrAddr : BitVec 10
  lbWrAddrQ : BitVec 10
  lbWrData : BitVec 64

/-- What the raster side asks for. -/
structure FetchReq where
  bpp : BitVec 2
  reqValid : Bool
  reqLine : BitVec 10
  reqBuf : Bool
  startLat : BitVec 20
  strideWords : BitVec 9
  widthWords : BitVec 9

def fbBaseWords : BitVec 29 := 0x07F00000#29

namespace LineFetcher

variable (s : LineFetcher) (r : FetchReq) (busy doutReady : Bool) (dout : BitVec 64)

def reset : LineFetcher :=
  { s with
    lbWe := false, reqTaken := false, state := .idle, ddrRd := false, ddrBurstcnt := 8, ddrAddr := 0
    wordsLeft := 0, burstLeft := 0, curAddr := 0, lbWrAddr := 0, lbWrAddrQ := 0 }

def owner : Bool := s.state != .idle

def idleNext : LineFetcher :=
  let b := { s with lbWe := false, reqTaken := false, ddrRd := false }
  if r.reqValid && !s.reqTaken && !busy then
    { b with
      reqTaken := true
      curAddr := fbBaseWords + (0#10 ++ r.startLat.extractLsb' 1 19) +
        r.reqLine.setWidth 29 * r.strideWords.setWidth 29
      wordsLeft := if r.bpp == 1 then r.widthWords.extractLsb' 0 8 ++ 0#1 else r.widthWords
      lbWrAddr := BitVec.ofBool r.reqBuf ++ 0#9
      state := .issue }
  else b

/-- The words of the next burst. -/
def burstWords : BitVec 8 := if 8#9 ≤ s.wordsLeft then 8 else s.wordsLeft.extractLsb' 0 8

/-- `S_ISSUE`: the read is held until DDR3 accepts it. -/
def issueNext : LineFetcher :=
  let b := { s with lbWe := false, reqTaken := false }
  if s.wordsLeft == 0 then { b with ddrRd := false, state := .idle }
  else if !s.ddrRd then
    { b with ddrAddr := s.curAddr, ddrBurstcnt := s.burstWords, burstLeft := s.burstWords, ddrRd := true }
  else if !busy then
    { b with
      ddrRd := false, curAddr := s.curAddr + s.ddrBurstcnt.setWidth 29
      wordsLeft := s.wordsLeft - s.ddrBurstcnt.setWidth 9, state := .data }
  else b

/-- `S_DATA`: a word a beat, up to the burst's last. -/
def dataNext : LineFetcher :=
  let b := { s with lbWe := false, reqTaken := false }
  if doutReady then
    { b with
      lbWe := true, lbWrData := dout, lbWrAddrQ := s.lbWrAddr, lbWrAddr := s.lbWrAddr + 1
      burstLeft := s.burstLeft - 1, state := if s.burstLeft == 1 then .issue else .data }
  else b

def step (enable : Bool) : LineFetcher :=
  if !enable then s.reset
  else match s.state with
    | .idle => s.idleNext r busy
    | .issue => s.issueNext busy
    | .data => s.dataNext doutReady dout

/-! ### What an edge does -/

/-- A read on the port is that of the burst the engine counts. -/
structure Wf : Prop where
  issue : s.ddrRd = true → s.state = .issue
  burst : s.ddrRd = true → s.burstLeft = s.ddrBurstcnt
  words : s.ddrRd = true → s.wordsLeft ≠ 0
  some_left : s.ddrRd = true ∨ s.state = .data → s.burstLeft ≠ 0

section Edge

variable {s r busy doutReady dout}

theorem burstWords_ne (h : s.wordsLeft ≠ 0) : s.burstWords ≠ 0 := by
  have hle : ∀ x : BitVec 9, x ≠ 0 → (if 8#9 ≤ x then 8#8 else x.extractLsb' 0 8) ≠ 0 := by decide
  exact hle _ h

theorem owner_eq_false : s.owner = false ↔ s.state = .idle := by simp [owner]

theorem step_disabled : s.step r busy doutReady dout false = s.reset := rfl

theorem reset_wf : s.reset.Wf := ⟨by simp [reset], by simp [reset], by simp [reset], by simp [reset]⟩

/-- While it does not own the port the engine waits for it. -/
theorem step_idle (hs : s.state = .idle) : (s.step r busy doutReady dout true).ddrRd = false ∧
    ((s.step r busy doutReady dout true).state = .idle ∨
      busy = false ∧ (s.step r busy doutReady dout true).state = .issue) := by
  simp only [step, Bool.not_true, Bool.false_eq_true, if_false, hs, idleNext]
  cases busy
  · cases r.reqValid && !s.reqTaken <;> simp
  · simp

theorem step_idle_ne (hs : s.state = .idle) : (s.step r busy doutReady dout true).state ≠ .data := by
  rcases (step_idle hs).2 with h | ⟨-, h⟩ <;> rw [h] <;> decide

/-- A read that DDR3 does not accept stays on the port. -/
theorem step_issue (hs : s.state = .issue) (hw : s.Wf) (hrd : s.ddrRd = true → busy = true) :
    (s.step r busy doutReady dout true).state ≠ .data ∧ (s.step r busy doutReady dout true).Wf ∧
      (s.ddrRd = true → (s.step r busy doutReady dout true).ddrRd = true ∧
        (s.step r busy doutReady dout true).ddrAddr = s.ddrAddr ∧
        (s.step r busy doutReady dout true).ddrBurstcnt = s.ddrBurstcnt) := by
  simp only [step, Bool.not_true, Bool.false_eq_true, if_false, hs, issueNext]
  by_cases h0 : s.wordsLeft = 0
  · have hno : s.ddrRd = false := Bool.eq_false_iff.2 fun hrd => hw.words hrd h0
    simp only [h0, beq_self_eq_true, if_true, hno]
    exact ⟨by simp, ⟨by simp, by simp, by simp, by simp⟩, by simp⟩
  · simp only [beq_eq_false_iff_ne.2 h0, Bool.false_eq_true, if_false]
    cases hrd' : s.ddrRd
    · simp only [Bool.not_false, if_true]
      exact ⟨by simp, ⟨by simp, by simp, fun _ => h0, fun _ => burstWords_ne h0⟩, by simp⟩
    · simp only [hrd hrd', Bool.not_true, Bool.false_eq_true, if_false]
      exact ⟨by simp, ⟨by simp, fun _ => hw.burst hrd', fun _ => h0, fun _ => hw.some_left (.inl hrd')⟩, by simp⟩

/-- With an accepted read the engine waits for the burst. -/
theorem step_accepted (hw : s.Wf) (hrd : s.ddrRd = true) (hb : busy = false) :
    (s.step r busy doutReady dout true).state = .data ∧ (s.step r busy doutReady dout true).ddrRd = false ∧
      (s.step r busy doutReady dout true).burstLeft = s.ddrBurstcnt := by
  have h0 : (s.wordsLeft == 0) = false := beq_eq_false_iff_ne.2 (hw.words hrd)
  simp only [step, Bool.not_true, Bool.false_eq_true, if_false, hw.issue hrd, issueNext, h0, hrd, hb, Bool.not_false,
    if_true]
  exact ⟨trivial, trivial, hw.burst hrd⟩

/-- Each beat counts, the last one ends the burst. -/
theorem step_data (hs : s.state = .data) (hw : s.Wf) :
    (s.step r busy doutReady dout true).ddrRd = false ∧
      (s.step r busy doutReady dout true).burstLeft = s.burstLeft - BitVec.setWidth 8 (BitVec.ofBool doutReady) ∧
      (s.step r busy doutReady dout true).state = if doutReady = true ∧ s.burstLeft = 1 then .issue else .data := by
  have hrd : s.ddrRd = false := Bool.eq_false_iff.2 fun hrd => by simp [hw.issue hrd] at hs
  simp only [step, Bool.not_true, Bool.false_eq_true, if_false, hs, dataNext]
  cases doutReady <;> simp [hrd]

theorem step_wf (hw : s.Wf) (enable : Bool) : (s.step r busy doutReady dout enable).Wf := by
  have hquiet : ∀ s' : LineFetcher, s'.ddrRd = false → (s'.state = .data → s'.burstLeft ≠ 0) → s'.Wf := by
    intro s' hrd hdata
    exact ⟨by simp [hrd], by simp [hrd], by simp [hrd], fun h => hdata (h.resolve_left (by simp [hrd]))⟩
  cases enable
  · exact reset_wf
  · cases hs : s.state with
    | idle => exact hquiet _ (step_idle hs).1 fun hd => absurd hd (step_idle_ne hs)
    | issue =>
      by_cases hrd : s.ddrRd = true ∧ busy = false
      · refine hquiet _ (step_accepted hw hrd.1 hrd.2).2.1 fun _ => ?_
        rw [(step_accepted hw hrd.1 hrd.2).2.2, ← hw.burst hrd.1]
        exact hw.some_left (.inl hrd.1)
      · exact (step_issue hs hw fun h => by simpa [h] using hrd).2.1
    | data =>
      refine hquiet _ (step_data hs hw).1 fun hd => ?_
      have hne := hw.some_left (.inr hs)
      have hsub : ∀ x : BitVec 8, x ≠ 0 → x ≠ 1 → x - 1#8 ≠ 0 := by decide
      rw [(step_data hs hw).2.2] at hd
      rw [(step_data hs hw).2.1]
      cases hready : doutReady
      · simpa [hready] using hne
      · refine hsub _ hne fun h1 => ?_
        rw [if_pos ⟨hready, h1⟩] at hd
        simp at hd

end Edge

end LineFetcher

/-! ## The GUS sample memory -/

inductive GusState
  | idle
  | rd
  | rdw
  | wr
  deriving DecidableEq, Repr

/-- The registers of `gus_ddr`. -/
structure GusDdr where
  state : GusState
  tag : BitVec 17
  tagValid : Bool
  kept : BitVec 64
  aR : BitVec 20
  dR : BitVec 16
  wR : Bool
  memRdata : BitVec 16
  memAck : Bool

/-- The request of the GF1. -/
structure GusReq where
  memReq : Bool
  memWe : Bool
  memWord : Bool
  memAddr : BitVec 20
  memWdata : BitVec 16
deriving DecidableEq

/-- The bytes of `new` that `be` enables over those of `old`. -/
def byteMerge64 (old new : BitVec 64) (be : BitVec 8) : BitVec 64 :=
  let byte (k : Nat) : BitVec 8 := if be.getLsbD k then new.extractLsb' (8 * k) 8 else old.extractLsb' (8 * k) 8
  byte 7 ++ byte 6 ++ byte 5 ++ byte 4 ++ byte 3 ++ byte 2 ++ byte 1 ++ byte 0

namespace GusDdr

variable (s : GusDdr) (r : GusReq) (startOk busy doutReady : Bool) (dout : BitVec 64)

def reset : GusDdr := { s with memAck := false, state := .idle, tagValid := false }

def active : Bool := s.state != .idle

def ddrAddr : BitVec 29 := 0x07C00000#29 ||| (0#12 ++ s.aR.extractLsb' 3 17)

def ddrRd : Bool := s.state == .rd

def ddrWe : Bool := s.state == .wr

def ddrBe : BitVec 8 := if s.wR then 3#8 <<< (s.aR.extractLsb' 1 2 ++ 0#1) else 1#8 <<< s.aR.extractLsb' 0 3

def ddrDin : BitVec 64 :=
  if s.wR then s.dR ++ s.dR ++ s.dR ++ s.dR
  else
    let b := s.dR.extractLsb' 0 8
    b ++ b ++ b ++ b ++ b ++ b ++ b ++ b

/-- The aligned 16-bit word of a 64-bit word that an address lies in. -/
def lane (addr : BitVec 20) (x : BitVec 64) : BitVec 16 := x.extractLsb' (16 * (addr.extractLsb' 1 2).toNat) 16

def hit : Bool := s.tagValid && s.tag == r.memAddr.extractLsb' 3 17

def idleNext : GusDdr :=
  let b := { s with memAck := false }
  if r.memReq && !s.memAck then
    if !r.memWe && s.hit r then { b with memRdata := lane r.memAddr s.kept, memAck := true }
    else if startOk then
      { b with aR := r.memAddr, dR := r.memWdata, wR := r.memWord, state := if r.memWe then .wr else .rd }
    else b
  else b

def rdNext : GusDdr :=
  let b := { s with memAck := false }
  if !busy then { b with state := .rdw } else b

def rdwNext : GusDdr :=
  let b := { s with memAck := false }
  if doutReady then
    { b with
      kept := dout, tag := r.memAddr.extractLsb' 3 17, tagValid := true, memRdata := lane r.memAddr dout
      memAck := true, state := .idle }
  else b

def wrNext : GusDdr :=
  let b := { s with memAck := false }
  if !busy then
    { b with
      kept := if s.hit r then byteMerge64 s.kept s.ddrDin s.ddrBe else s.kept, memAck := true, state := .idle }
  else b

def step (on : Bool) : GusDdr :=
  if !on then s.reset
  else match s.state with
    | .idle => s.idleNext r startOk
    | .rd => s.rdNext busy
    | .rdw => s.rdwNext r doutReady dout
    | .wr => s.wrNext r busy

/-! ### What an edge does -/

section Edge

variable {s r startOk busy doutReady dout}

theorem active_eq_false : s.active = false ↔ s.state = .idle := by simp [active]

theorem step_off : s.step r startOk busy doutReady dout false = s.reset := rfl

theorem step_idle (hs : s.state = .idle) : (s.step r startOk busy doutReady dout true).state ≠ .rdw ∧
    (startOk = false → (s.step r startOk busy doutReady dout true).state = .idle) := by
  simp only [step, Bool.not_true, Bool.false_eq_true, if_false, hs, idleNext]
  cases startOk
  · split
    · split <;> simp
    · simp
  · split
    · split
      · simp
      · simp only [if_true]
        cases r.memWe <;> simp
    · simp

/-- A request DDR3 does not accept stays on the port. -/
theorem step_held (hs : s.state = .rd ∨ s.state = .wr) (hb : busy = true) :
    (s.step r startOk busy doutReady dout true).state = s.state ∧
      (s.step r startOk busy doutReady dout true).aR = s.aR ∧ (s.step r startOk busy doutReady dout true).dR = s.dR ∧
      (s.step r startOk busy doutReady dout true).wR = s.wR := by
  rcases hs with hs | hs
  · simp [step, hs, rdNext, hb]
  · simp [step, hs, wrNext, hb]

theorem step_accepted (hs : s.state = .rd ∨ s.state = .wr) (hb : busy = false) :
    (s.step r startOk busy doutReady dout true).state = if s.state = .rd then .rdw else .idle := by
  rcases hs with hs | hs
  · simp [step, hs, rdNext, hb]
  · simp [step, hs, wrNext, hb]

theorem step_rdw (hs : s.state = .rdw) : (s.step r startOk busy doutReady dout true).state =
    if doutReady then .idle else .rdw := by
  simp only [step, Bool.not_true, Bool.false_eq_true, if_false, hs, rdwNext]
  cases doutReady <;> simp

end Edge

end GusDdr

end Z486.Ddr3
