/-
The linear 256-colour mode of the VGA (src/soc/vga.v), from the byte that the host writes to the pixel on the screen. In
chain 4 the host's bytes go round the four planes, and in doubleword mode the picture is fetched with the address turned
round in the same way, so that the video memory is a row of bytes, four banks of 64 KiB that the segment select puts into
the host's window, and the pixels of a line are its bytes one after the other.
-/
import Mathlib.Tactic.FinCases
import Z486.Video.HostPort
import Z486.Video.Pixels

namespace Z486.Video

open Clocked Scanlines

/-! ## The byte of a pixel -/

/-- The registers of the linear mode: each byte is two dots of the graphics, and no bit of them is changed on the way. -/
structure DotRegs.Linear (r : DotRegs) : Prop where
  paired : Dots.Paired r
  shift : r.graphShiftMode.getLsbD 1 = true
  graphic : r.attribGraphicMode = true
  blinking : r.attribBlinking = false
  mask : r.attribMask = 15
  own : r.attribColorBit54Enable = false
  doubleword : r.fetch.addressDoubleword = true
  bit13 : r.fetch.addressBit13 = true
  bit14 : r.fetch.addressBit14 = true

/-- In shift mode 2 each byte is two dots, its high half first. -/
theorem planeShiftValue_pairs {mode : BitVec 2} (hmode : mode.getLsbD 1 = true) (ram : Fin 4 → BitVec 8) (q p : Fin 4) :
    (planeShiftValue mode ram q).getMsbD (2 * p) = (ram p).getLsbD (q + 4) ∧
      (planeShiftValue mode ram q).getMsbD (2 * p + 1) = (ram p).getLsbD q := by
  have htwo : ∀ m : BitVec 2, m.getLsbD 1 = true → (m == 0) = false ∧ (m == 1) = false := by decide
  obtain ⟨hzero, hone⟩ := htwo mode hmode
  fin_cases q <;>
    simp only [planeShiftValue, hzero, hone, Bool.false_eq_true, if_false, BitVec.getMsbD_ofBoolListBE] <;>
    fin_cases p <;> exact ⟨rfl, rfl⟩

namespace DotRegs.Linear

variable {r : DotRegs} (hr : r.Linear)
include hr

theorem dot_byte (x : Cell) (blink : BitVec 6) (scan : BitVec 5) (p : Fin 4) :
    x.dot r blink scan (2 * p) = (x.bytes p).extractLsb' 4 4 ∧
      x.dot r blink scan (2 * p + 1) = (x.bytes p).extractLsb' 0 4 := by
  have hhalf : ∀ b : BitVec 8,
      nibble (b.getLsbD 7) (b.getLsbD 6) (b.getLsbD 5) (b.getLsbD 4) = b.extractLsb' 4 4 ∧
        nibble (b.getLsbD 3) (b.getLsbD 2) (b.getLsbD 1) (b.getLsbD 0) = b.extractLsb' 0 4 := by decide
  have hpairs := fun q => planeShiftValue_pairs hr.shift x.bytes q p
  have hp := p.isLt
  unfold Cell.dot Cell.byteDot
  rw [if_pos (show 2 * p.val < 8 by omega), if_pos (show 2 * p.val + 1 < 8 by omega), hr.graphic, if_pos rfl, if_pos rfl]
  simp only [(hpairs _).1, (hpairs _).2]
  exact hhalf _

theorem afterBlink_eq (blink : BitVec 6) (pel : BitVec 4) : r.afterBlink blink pel = pel := by
  have hall : ∀ pel : BitVec 4, 15 &&& pel = pel := by decide
  unfold DotRegs.afterBlink
  rw [hr.blinking, hr.mask, Bool.and_false, Bool.false_and]
  exact hall pel

/-- Pixel `n` of a line is the byte of its plane in its column. -/
theorem pixel_byte (inp : Nat → DotIn) (start : BitVec 16) (blink : BitVec 6) (k n : Nat) :
    r.pixelIndex (Dots.pelAt r inp start blink k (2 * n + 1) ++ Dots.pelAt r inp start blink k (2 * n)) =
      Dots.bytesAt r inp start k (n / 4) ⟨n % 4, Nat.mod_lt n (by decide)⟩ := by
  have hdots : r.fetch.raster.charDots = 8 := by
    unfold RasterRegs.charDots
    rw [hr.paired.char]
    rfl
  have hplace : 2 * n % 8 = 2 * (n % 4) ∧ (2 * n + 1) % 8 = 2 * (n % 4) + 1 ∧ 2 * n / 8 = n / 4 ∧ (2 * n + 1) / 8 = n / 4 := by
    omega
  have hbyte := hr.dot_byte (Dots.cellAt r inp start k (n / 4)) blink (r.fetch.scanOf (Fetch.rowAt r.fetch k))
    ⟨n % 4, Nat.mod_lt n (by decide)⟩
  have hwhole : ∀ b : BitVec 8, (b.extractLsb' 0 4 ++ b.extractLsb' 4 4).extractLsb' 0 4 ++
      (b.extractLsb' 0 4 ++ b.extractLsb' 4 4).extractLsb' 4 4 = b := by decide
  unfold Dots.pelAt DotRegs.pixelIndex
  rw [hdots, hr.afterBlink_eq, hr.afterBlink_eq, hplace.1, hplace.2.1, hplace.2.2.1, hplace.2.2.2, hr.own, hbyte.1, hbyte.2]
  exact hwhole _

/-- The address of the planes, turned round by two. -/
theorem scanAddress (address : BitVec 16) (scan : BitVec 5) :
    r.fetch.addressStep2 address scan = address.extractLsb' 0 14 ++ address.extractLsb' 14 2 := by
  unfold FetchRegs.addressStep2 FetchRegs.addressStep1
  rw [hr.doubleword, hr.bit13, hr.bit14, if_pos rfl, if_pos rfl, if_pos rfl]
  generalize (address.extractLsb' 0 14 ++ address.extractLsb' 14 2 : BitVec 16) = v
  have hbit : ∀ j, BitVec.ofBool (v.getLsbD j) = v.extractLsb' j 1 := fun j => by
    refine BitVec.eq_of_getLsbD_eq fun i hi => ?_
    rw [BitVec.getLsbD_ofBool, BitVec.getLsbD_extractLsb', Nat.lt_one_iff.1 hi]
    rfl
  have htwo : v.extractLsb' 15 1 ++ v.extractLsb' 14 1 = v.extractLsb' 14 2 :=
    BitVec.extractLsb'_append_extractLsb'_eq_extractLsb' rfl
  have hthree : v.extractLsb' 14 2 ++ v.extractLsb' 13 1 = v.extractLsb' 13 3 :=
    BitVec.extractLsb'_append_extractLsb'_eq_extractLsb' rfl
  have hall : v.extractLsb' 13 3 ++ v.extractLsb' 0 13 = v.extractLsb' 0 16 :=
    BitVec.extractLsb'_append_extractLsb'_eq_extractLsb' rfl
  rw [hbit, hbit, hbit, htwo, hthree]
  exact hall.trans BitVec.extractLsb'_eq_self

end DotRegs.Linear

/-! ## The host's byte -/

/-- The registers of the host's side: the window at A0000h, and the bytes go to the planes as they are. -/
structure VgaRegs.Linear (g : VgaRegs) : Prop where
  ok : g.memDwordWriteOk = true
  ram : g.generalEnableRam = true
  maps : g.seqMapWriteEnable = 15
  window : g.graphSystemMemory = 1

/-- The plane of a byte of the video memory, and its word there. -/
def bytePlane (a : BitVec 18) : Fin 4 := (a.extractLsb' 0 2).toFin

def byteWord (a : BitVec 18) : BitVec 16 := a.extractLsb' 2 14 ++ a.extractLsb' 16 2

/-- What a clock of the memory port writes to byte `a` of the video memory: the segment select stands above the 64 KiB of
the window, and a dword is four bytes of it. -/
def VgaRegs.storedByte (g : VgaRegs) (i : HostIn) (a : BitVec 18) : Option (BitVec 8) :=
  if i.memAddress.getLsbD 16 || g.segWr.extractLsb' 0 2 ++ i.memAddress.extractLsb' 2 14 != a.extractLsb' 2 16 then none
  else if i.memWriteDword then some (byteOf i.memWritedataDword (bytePlane a))
  else if i.memWrite && i.memAddress.extractLsb' 0 2 == a.extractLsb' 0 2 then some i.memWritedata
  else none

/-- A plane is written by a write of the port. -/
theorem VgaRegs.hostWrite_of_planeWrite {g : VgaRegs} {i : HostIn} {p : Fin 4} (h : g.planeWrite i p = true) :
    g.hostWrite i = true := by
  unfold VgaRegs.planeWrite at h
  rw [Bool.and_eq_true, Bool.and_eq_true] at h
  exact h.1.2

namespace VgaRegs.Linear

variable {g : VgaRegs} (hg : g.Linear)
include hg

theorem chain4 : g.seqAccessChain4 = true := by
  have hok := hg.ok
  simp only [VgaRegs.memDwordWriteOk, Bool.and_eq_true] at hok
  exact hok.1.1.1.1.1

/-- The window is the lower half of the memory port. -/
theorem outOfBounds_eq (i : HostIn) : g.hostMemoryOutOfBounds i = i.memAddress.getLsbD 16 := by
  have hmask : ∀ v : BitVec 2,
      ((v ^^^ 1) &&& (BitVec.ofBool ((1 : BitVec 2) != 0) ++ BitVec.ofBool ((1 : BitVec 2).getLsbD 1)) != 0) =
        v.getLsbD 1 := by decide
  unfold VgaRegs.hostMemoryOutOfBounds VgaRegs.hostMemoryOutOfBoundsMask
  rw [hg.window, hmask, BitVec.getLsbD_extractLsb']
  rfl

theorem reduced_getLsbD (i : HostIn) {j : Nat} (hj : j < 16) :
    (g.hostAddressReduced i).getLsbD j = i.memAddress.getLsbD j := by
  have hlow : ∀ v : BitVec 2,
      (~~~(BitVec.ofBool ((1 : BitVec 2) != 0) ++ BitVec.ofBool ((1 : BitVec 2).getLsbD 1)) &&& v).getLsbD 0 =
        v.getLsbD 0 := by decide
  unfold VgaRegs.hostAddressReduced VgaRegs.hostMemoryOutOfBoundsMask
  rw [hg.window, BitVec.getLsbD_append]
  by_cases htop : j < 15
  · rw [if_pos htop, BitVec.getLsbD_extractLsb', decide_eq_true htop, Bool.true_and, Nat.zero_add]
  · obtain rfl : j = 15 := by omega
    rw [if_neg htop, hlow, BitVec.getLsbD_extractLsb']
    rfl

theorem reduced_extract (i : HostIn) {start len : Nat} (h : start + len ≤ 16) :
    (g.hostAddressReduced i).extractLsb' start len = i.memAddress.extractLsb' start len := by
  refine BitVec.eq_of_getLsbD_eq fun j hj => ?_
  rw [BitVec.getLsbD_extractLsb', BitVec.getLsbD_extractLsb', hg.reduced_getLsbD i (by omega)]

theorem planeWrite_eq (i : HostIn) (p : Fin 4) :
    g.planeWrite i p = (!i.memAddress.getLsbD 16 &&
      (i.memWriteDword || i.memWrite && i.memAddress.extractLsb' 0 2 == BitVec.ofFin p)) := by
  have hmask : ∀ (low : BitVec 2) (p : Fin 4),
      ((15 : BitVec 4) &&& 1#4 <<< low).getLsbD p = (low == BitVec.ofFin p) := by decide
  have hmaps : ∀ p : Fin 4, (15 : BitVec 4).getLsbD p = true := by decide
  unfold VgaRegs.planeWrite VgaRegs.hostWrite VgaRegs.hostWritePlaneMask
  rw [hg.ram, hg.outOfBounds_eq, hg.maps, hg.chain4, hg.reduced_extract i (by decide)]
  cases i.memWriteDword with
  | true => rw [if_pos rfl, hmaps, Bool.or_true, Bool.true_and, Bool.true_and, Bool.and_true, Bool.true_or, Bool.and_true]
  | false =>
    rw [if_neg Bool.false_ne_true, if_pos rfl, hmask, Bool.or_false, Bool.false_or, Bool.true_and, Bool.and_comm i.memWrite,
      Bool.and_assoc]

theorem hostAddress_eq {i : HostIn} (hwrite : g.hostWrite i = true) :
    g.hostAddress i = i.memAddress.extractLsb' 2 14 ++ g.segWr.extractLsb' 0 2 := by
  unfold VgaRegs.hostAddress
  rw [hg.chain4, hwrite, hg.reduced_extract i (by decide)]
  rfl

/-- A clock of the port is a write of the video memory as a row of bytes. -/
theorem step_byte (s : HostPort) (i : HostIn) (a : BitVec 18) :
    (s.step g i).planes (bytePlane a) (byteWord a) = (g.storedByte i a).getD (s.planes (bytePlane a) (byteWord a)) := by
  have hwhole : a.extractLsb' 16 2 ++ a.extractLsb' 2 14 = a.extractLsb' 2 16 :=
    BitVec.extractLsb'_append_extractLsb'_eq_extractLsb' rfl
  have hword : (byteWord a == i.memAddress.extractLsb' 2 14 ++ g.segWr.extractLsb' 0 2) =
      !(g.segWr.extractLsb' 0 2 ++ i.memAddress.extractLsb' 2 14 != a.extractLsb' 2 16) := by
    rw [← hwhole, bne, Bool.not_not, Bool.eq_iff_iff, beq_iff_eq, beq_iff_eq, byteWord, append_inj, append_inj, and_comm,
      eq_comm, @eq_comm _ (a.extractLsb' 2 14)]
  have hstep : (s.step g i).planes (bytePlane a) (byteWord a) =
      if g.planeWrite i (bytePlane a) && byteWord a == g.hostAddress i then g.hostWritedata i s.hostRamReg (bytePlane a)
      else s.planes (bytePlane a) (byteWord a) := rfl
  have hkind := hg.planeWrite_eq i (bytePlane a)
  rw [show BitVec.ofFin (bytePlane a) = a.extractLsb' 0 2 from rfl] at hkind
  rw [hstep]
  unfold VgaRegs.storedByte
  cases hwrite : g.planeWrite i (bytePlane a) with
  | false =>
    rw [hwrite] at hkind
    rw [Bool.false_and, if_neg Bool.false_ne_true]
    cases hout : i.memAddress.getLsbD 16 with
    | true => rfl
    | false =>
      rw [hout, Bool.not_false, Bool.true_and, eq_comm, Bool.or_eq_false_iff] at hkind
      rw [hkind.1, hkind.2, if_neg Bool.false_ne_true, if_neg Bool.false_ne_true, ite_self]
      rfl
  | true =>
    rw [hwrite, eq_comm, Bool.and_eq_true, Bool.not_eq_true'] at hkind
    obtain ⟨hin, hkind⟩ := hkind
    rw [Bool.true_and, hg.hostAddress_eq (hostWrite_of_planeWrite hwrite), hword, hin, Bool.false_or]
    cases g.segWr.extractLsb' 0 2 ++ i.memAddress.extractLsb' 2 14 != a.extractLsb' 2 16 with
    | true => rfl
    | false =>
      cases hdword : i.memWriteDword with
      | true =>
        unfold VgaRegs.hostWritedata
        rw [hdword]
        rfl
      | false =>
        rw [hdword, Bool.false_or] at hkind
        rw [hkind, hostWritedata_byte hg.ok hdword]
        rfl

end VgaRegs.Linear

/-! ## The last byte written -/

namespace HostPort

/-- The port after clocks that come with their own registers. -/
def runs (s : HostPort) (cs : List (VgaRegs × HostIn)) : HostPort := cs.foldl (fun s c => s.step c.1 c.2) s

/-- The last write of byte `a` is one of `v`, in the linear mode as all that comes after it. -/
def LastWrites (cs : List (VgaRegs × HostIn)) (a : BitVec 18) (v : BitVec 8) : Prop :=
  ∃ before c since, cs = before ++ c :: since ∧ c.1.storedByte c.2 a = some v ∧
    (∀ j ∈ since, j.1.storedByte j.2 a = none) ∧ ∀ j ∈ c :: since, j.1.Linear

variable {cs : List (VgaRegs × HostIn)} {a : BitVec 18}

/-- A byte stays as it is while no write is to it. -/
theorem runs_kept (hlinear : ∀ j ∈ cs, j.1.Linear) (hnone : ∀ j ∈ cs, j.1.storedByte j.2 a = none) (s : HostPort) :
    (s.runs cs).planes (bytePlane a) (byteWord a) = s.planes (bytePlane a) (byteWord a) := by
  induction cs generalizing s with
  | nil => rfl
  | cons c cs ih =>
    show ((s.step c.1 c.2).runs cs).planes _ _ = _
    rw [ih (fun j hj => hlinear j (List.mem_cons_of_mem c hj)) fun j hj => hnone j (List.mem_cons_of_mem c hj),
      (hlinear c List.mem_cons_self).step_byte, hnone c List.mem_cons_self]
    rfl

theorem LastWrites.planes {v : BitVec 8} (h : LastWrites cs a v) (s : HostPort) :
    (s.runs cs).planes (bytePlane a) (byteWord a) = v := by
  obtain ⟨before, c, since, rfl, hwrite, hsince, hlinear⟩ := h
  have hrun : s.runs (before ++ c :: since) = ((s.runs before).step c.1 c.2).runs since := by
    unfold runs
    rw [List.foldl_append, List.foldl_cons]
  rw [hrun, runs_kept (fun j hj => hlinear j (List.mem_cons_of_mem c hj)) hsince, (hlinear c List.mem_cons_self).step_byte,
    hwrite]
  rfl

end HostPort

/-! ## From the host to the screen -/

/-- The byte of the video memory that pixel `n` of line `k` is. -/
def pixelAddress (r : FetchRegs) (start : BitVec 16) (k n : Nat) : BitVec 18 :=
  (r.base (Fetch.rowAt r k) start + BitVec.ofNat 16 (n / 4)) ++ BitVec.ofNat 2 (n % 4)

namespace Dots

variable {r : DotRegs}

/-- The pixel at place `x`. -/
def pixelNumber (r : DotRegs) (pan : BitVec 4) (k x : Nat) : Nat :=
  x / 2 + (r.panAt pan (Fetch.rowAt r.fetch k)).toNat / 2

theorem pairStart_even {pan : BitVec 4} (hpan : pan < 7) (heven : pan.getLsbD 0 = false) (k x : Nat) :
    pairStart r pan k x = 2 * pixelNumber r pan k x := by
  have hall : ∀ v : BitVec 4, v < 7 → v.getLsbD 0 = false → panPlace v - 1 = 2 * (v.toNat / 2) := by decide
  have hplace : panPlace (r.panAt pan (Fetch.rowAt r.fetch k)) - 1 =
      2 * ((r.panAt pan (Fetch.rowAt r.fetch k)).toNat / 2) := by
    unfold DotRegs.panAt
    split
    · rfl
    · exact hall pan hpan heven
  unfold pairStart pixelNumber
  rw [hplace, Nat.mul_add]

/-- Each place of the display window shows the byte that the host wrote last to the address of its pixel, when the column
of the pixel was read after it. -/
theorem run_shows_byte {s₀ : Dots} (h : s₀.fetch.raster.Wraps r.fetch.raster) (hr : r.Linear)
    (hoff : s₀.fetch.raster.vertSync = false) (ce : Nat → Bool) (inp : Nat → DotIn) (port : HostPort)
    (cs : List (VgaRegs × HostIn)) {q k x n t : Nat} {v : BitVec 8} (hlast : k < r.fetch.raster.frameLines)
    (hk : ∀ j, j ≤ k → Fetch.Shown r.fetch j)
    (hx : x < (r.fetch.raster.horizontalDisplaySize.toNat + 1) * r.fetch.raster.charTime)
    (hpan : latchedPan r inp q < 7) (heven : (latchedPan r inp q).getLsbD 0 = false)
    (hn : n = pixelNumber r (latchedPan r inp q) k x)
    (hplanes : (inp ((q + 1) * r.fetch.raster.frameTime + Fetch.readTime r.fetch k (n / 4))).planes = (port.runs cs).planes)
    (hwrite : HostPort.LastWrites cs (pixelAddress r.fetch (latchedStart r inp q) k n) v)
    (ht : pulses ce 0 t = (q + 1) * r.fetch.raster.frameTime + displayTime r k x) :
    (run (enabled fun s i => s.next r i) s₀ (offered ce inp) t).pelColorIndex r = v := by
  have hplane : bytePlane (pixelAddress r.fetch (latchedStart r inp q) k n) = ⟨n % 4, Nat.mod_lt n (by decide)⟩ := by
    have hlow : ∀ m, m < 4 → (BitVec.ofNat 2 m).toNat = m := by decide
    unfold bytePlane pixelAddress
    rw [BitVec.extractLsb'_append_eq_right]
    exact Fin.ext (hlow _ (Nat.mod_lt n (by decide)))
  have hword : byteWord (pixelAddress r.fetch (latchedStart r inp q) k n) =
      r.fetch.addressStep2 (r.fetch.base (Fetch.rowAt r.fetch k) (latchedStart r inp q) + BitVec.ofNat 16 (n / 4))
        (r.fetch.scanOf (Fetch.rowAt r.fetch k)) := by
    unfold byteWord pixelAddress
    rw [hr.scanAddress, BitVec.extractLsb'_append_eq_of_le (Nat.le_refl 2), BitVec.extractLsb'_append_eq_of_le (by decide)]
  have hbyte := hwrite.planes port
  rw [hplane, hword, ← hplanes] at hbyte
  rw [run_shows_pixels h hr.paired hoff ce inp hlast hk hx hpan ht, pairStart_even hpan heven, ← hn]
  unfold frameDot
  rw [hr.pixel_byte]
  exact hbyte

/-- The host's registers in the mode of 320 by 200 pixels. -/
def mode13Host : VgaRegs := ⟨true, false, 0xF, true, true, 0, 0, 0, 0, 0, 0, 0xFF, 0, 1⟩

theorem mode13Host_linear : mode13Host.Linear := ⟨by decide, rfl, rfl, rfl⟩

theorem mode13_linear : mode13.Linear := ⟨mode13_paired, rfl, rfl, rfl, rfl, rfl, rfl, rfl, rfl⟩

/-- A byte at A000:0145h, a dword over it and another byte of the dword. -/
def mode13Writes : List (VgaRegs × HostIn) :=
  [(mode13Host, byteWrite 0x145 0x11), (mode13Host, ⟨0x144, false, false, 0x77, true, 0xDDCC2ABB⟩),
    (mode13Host, ⟨0x146, false, true, 0x33, false, 0xFFFFFFFF⟩)]

theorem mode13Writes_last : HostPort.LastWrites mode13Writes 0x145 0x2A := by
  refine ⟨mode13Writes.take 1, (mode13Host, ⟨0x144, false, false, 0x77, true, 0xDDCC2ABB⟩), mode13Writes.drop 2, rfl,
    by decide, by decide, fun j hj => ?_⟩
  rcases List.mem_cons.1 hj with rfl | hother
  · exact mode13Host_linear
  · rw [List.mem_singleton.1 hother]
    exact mode13Host_linear

/-- The byte at A000:0145h is pixel 5 of the second row. -/
theorem mode13_shows_byte :
    (run (enabled fun s i => s.next mode13 i) mode13End (offered (fun _ => true) fun _ =>
      { mode13In with planes := (HostPort.runs ⟨fun _ _ => 0, fun _ => 0, fun _ => 0, false, false⟩ mode13Writes).planes })
      (1 * mode13.fetch.raster.frameTime + displayTime mode13 2 11)).pelColorIndex mode13 = 0x2A :=
  run_shows_byte (q := 0) (n := 5) mode13End_wraps mode13_linear rfl (fun _ => true)
    (fun _ => { mode13In with planes := _ }) _ mode13Writes (by decide) (by unfold Fetch.Shown; decide) (by decide)
    (by decide) (by decide) (by decide) rfl
    ((show (0x145 : BitVec 18) = pixelAddress mode13.fetch 0 2 5 by decide) ▸ mode13Writes_last) (pulses_always _)

end Dots

end Z486.Video
