/-
The native framebuffer modes (src/system.sv, src/soc/vga.v and src/soc/svga_linebuf.sv): the raster of the VGA and the line
fetcher on the wires between them, and DDR3 with any latency behind the fetcher's port. The fetcher takes its dot enable, the
display enable, the vertical sync, the doubling and the repeat flag from the raster as they are in the clock.
-/
import Z486.Video.FetchAddress
import Z486.Video.LineAhead
import Z486.Video.LineFetch
import Z486.Video.LineMailbox
import Z486.Video.LinePixels

namespace Z486.Video

open Clocked Scanlines

/-! ## The raster and the fetcher -/

/-- The inputs of a clock: the dot enable and the registers of the VGA, the other inputs of the fetcher, and DDR3. -/
structure NativeIn where
  renderCe : Bool
  regs : FetchRegs
  bpp : BitVec 2
  fmt16 : BitVec 2
  startAddr : BitVec 20
  strideWords : BitVec 9
  widthWords : BitVec 9
  ddrBusy : Bool
  answers : Bool
  mem : BitVec 29 → BitVec 64

/-- The raster, the fetcher, and the words that DDR3 has still to return. -/
structure NativeVideo where
  raster : Raster
  linebuf : SvgaLinebuf
  queue : List (BitVec 64)

namespace NativeVideo

variable (s : NativeVideo) (i : NativeIn)

/-- `vga_lf_ce`, `vga_lf_nd`, `vga_lf_vsync`, `vga_lf_doublescan`, `vga_lf_rep2` and `vga_lf_dotdiv`, and the rest. -/
def linebufIn : LinebufIn where
  bpp := i.bpp
  fmt16 := i.fmt16
  cePix := i.renderCe
  notDisplaying := s.raster.notDisplaying
  vsync := s.raster.vertSync
  doublescan := i.regs.linesDoubled
  rep2 := s.raster.lines.lfRep2 i.regs.raster.scanlines
  dotdiv := i.regs.raster.seqDotclockDivided
  startAddr := i.startAddr
  strideWords := i.strideWords
  widthWords := i.widthWords

def port : FetchPort := ⟨s.linebuf.engine, s.linebuf.lb, s.queue⟩

def fetchIn : FetchIn := ⟨s.linebuf.requests.request (s.linebufIn i), i.ddrBusy, i.answers, i.mem⟩

def ddr : LinebufDdr := ⟨i.ddrBusy, s.port.doutReady (s.fetchIn i), s.port.dout⟩

def step : NativeVideo where
  raster := s.raster.step i.regs.raster i.renderCe
  linebuf := s.linebuf.step (s.linebufIn i) (s.ddr i) true
  queue := (s.port.step (s.fetchIn i)).queue

end NativeVideo

/-! ## Runs -/

/-- The raster from any state on, and the fetcher from the clock on in which it is enabled. -/
structure NativeRun where
  raster : Raster
  linebuf : SvgaLinebuf
  inputs : Nat → NativeIn

namespace NativeRun

variable (r : NativeRun)

def state : Nat → NativeVideo := run NativeVideo.step ⟨r.raster, r.linebuf.reset, []⟩ r.inputs

theorem state_succ (t : Nat) : r.state (t + 1) = (r.state t).step (r.inputs t) := run_succ _ _ _ _

/-- What the fetcher reads of the raster in clock `t`. -/
def linebufIn (t : Nat) : LinebufIn := (r.state t).linebufIn (r.inputs t)

def requests (t : Nat) : LineRequests := (r.state t).linebuf.requests

/-- The fetcher of the run. -/
def linebufRun : LinebufRun where
  start := r.linebuf
  inputs := r.linebufIn
  ddr t := (r.state t).ddr (r.inputs t)

/-- Its engine and DDR3. -/
def fetchRun : FetchRun where
  engine := r.linebuf.engine
  lb := r.linebuf.lb
  inputs t := (r.state t).fetchIn (r.inputs t)

theorem linebufRun_state (t : Nat) : r.linebufRun.state t = (r.state t).linebuf := by
  induction t with
  | zero => rfl
  | succ t ih =>
    rw [LinebufRun.state_succ, ih, state_succ]
    rfl

theorem fetchRun_state (t : Nat) : r.fetchRun.state t = (r.state t).port := by
  induction t with
  | zero => rfl
  | succ t ih =>
    rw [FetchRun.state_succ, ih, state_succ]
    rfl

/-- The line that is asked for in clock `t`, and the half it goes to. -/
def asked (t : Nat) : Option (BitVec 10 × Bool) := r.linebufRun.asked t

/-- The engine takes a request in clock `t`. -/
def accepts (t : Nat) : Bool := r.fetchRun.accepts t

/-- The engine holds the bus in clock `t`. -/
def owner (t : Nat) : Bool := (r.state t).linebuf.engine.owner

/-- The dot enables of the clocks from `a` to `b`. -/
def enables (a b : Nat) : Nat := pulses (fun t => (r.inputs t).renderCe) a b

variable {r}

theorem asked_eq (t : Nat) : r.asked t = (r.requests t).asked (r.linebufIn t) (r.state t).linebuf.engine.reqTaken := by
  unfold asked LinebufRun.asked
  rw [linebufRun_state]
  rfl

theorem accepts_eq (t : Nat) : r.accepts t = r.linebufRun.accepts t := by
  have hfetch : r.accepts t = (r.state t).port.accepts ((r.state t).fetchIn (r.inputs t)) := by
    unfold accepts FetchRun.accepts
    rw [fetchRun_state]
    rfl
  rw [hfetch, LinebufRun.accepts, LinebufRun.free, linebufRun_state]
  show ((r.state t).linebuf.engine.state == .idle && ((r.requests t).reqValid && !(r.state t).linebuf.engine.reqTaken &&
    !(r.inputs t).ddrBusy)) = ((r.state t).linebuf.engine.state == .idle && !(r.state t).linebuf.engine.reqTaken &&
    !(r.inputs t).ddrBusy && (r.requests t).reqValid)
  cases (r.requests t).reqValid <;> cases (r.state t).linebuf.engine.reqTaken <;> cases (r.inputs t).ddrBusy <;> simp

theorem reqTaken_succ (t : Nat) : (r.state (t + 1)).linebuf.engine.reqTaken = r.accepts t := by
  rw [accepts_eq, ← LinebufRun.reqTaken_succ, linebufRun_state]

theorem requests_succ (t : Nat) :
    r.requests (t + 1) = (r.requests t).step (r.linebufIn t) (r.state t).linebuf.engine.reqTaken := by
  unfold requests
  rw [state_succ]
  rfl

theorem enables_succ {a b : Nat} (hab : a ≤ b) :
    r.enables a (b + 1) = r.enables a b + if (r.inputs b).renderCe then 1 else 0 := pulses_succ _ hab

theorem enables_mono {a b c : Nat} (hab : a ≤ b) (hbc : b ≤ c) : r.enables a b ≤ r.enables a c := by
  unfold enables
  rw [pulses_add _ hab hbc]
  exact Nat.le_add_right _ _

/-! ## The mailbox -/

/-- After the engine has taken a request the mailbox is empty until the next line is asked for. -/
theorem reqValid_of_none {a b : Nat} (hgo : r.accepts a = true) (hab : a + 2 ≤ b)
    (hnone : ∀ v, a < v → v < b → r.asked v = none) : (r.requests b).reqValid = false := by
  have hquiet : ∀ v, a < v → v < b → (r.requests v).raises (r.linebufIn v) = false := by
    intro v hv hvb
    refine Bool.eq_false_of_not_eq_true fun hraises => ?_
    obtain ⟨q, hq⟩ := LineRequests.asked_of_raises hraises (r.state v).linebuf.engine.reqTaken
    rw [← asked_eq, hnone v hv hvb] at hq
    exact absurd hq (by simp)
  -- an acknowledge with line 1 still to be requested asks for it
  have hack : ∀ v, a < v → v < b → (r.state v).linebuf.engine.reqTaken = true → (r.requests v).reqLine1 = false := by
    intro v hv hvb htaken
    have hasked := hnone v hv hvb
    rw [asked_eq, LineRequests.asked_of_not_raises (hquiet v hv hvb), htaken, Bool.true_and] at hasked
    refine Bool.eq_false_of_not_eq_true fun hline1 => ?_
    rw [if_pos hline1] at hasked
    exact absurd hasked (by simp)
  induction b, hab using Nat.le_induction with
  | base =>
    have htaken := (reqTaken_succ a).trans hgo
    rw [requests_succ, (LineRequests.step_of_not_raises (hquiet (a + 1) (by omega) (by omega)) _).1, htaken, if_pos rfl]
    exact hack (a + 1) (by omega) (by omega) htaken
  | succ b hab ih =>
    have hempty := ih (fun v hv hvb => hnone v hv (by omega)) (fun v hv hvb => hquiet v hv (by omega))
      (fun v hv hvb => hack v hv (by omega))
    rw [requests_succ, (LineRequests.step_of_not_raises (hquiet b (by omega) (by omega)) _).1, hempty]
    cases htaken : (r.state b).linebuf.engine.reqTaken with
    | false => rfl
    | true => exact hack b (by omega) (by omega) htaken

end NativeRun

end Z486.Video
