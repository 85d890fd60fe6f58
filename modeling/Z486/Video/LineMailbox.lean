/-
The request of the line fetcher, a mailbox of one entry. The engine takes it in one clock and
acknowledges it in the next, and the acknowledge clears the mailbox whatever it holds by then.
-/
import Z486.Video.SvgaLinebuf

namespace Z486.Video

open Ddr3 (FetchReq LineFetcher FetchState)

/-! ## One clock of the mailbox -/

namespace LineRequests

variable {s : LineRequests} {i : LinebufIn} {reqTaken : Bool}

/-- A line end or a frame start asks for a line. -/
def raises (s : LineRequests) (i : LinebufIn) : Bool := s.vsStart i || s.lineEnd i

/-- The line that is asked for in a clock, and the half it goes to. -/
def asked (s : LineRequests) (i : LinebufIn) (reqTaken : Bool) : Option (BitVec 10 × Bool) :=
  if s.vsStart i then some (0, false)
  else if s.lineEnd i then some (if i.doublescan then 0#1 ++ (s.lineN2 i).extractLsb' 1 9 else s.lineN2 i, s.yPar)
  else if reqTaken && s.reqLine1 then some (if i.doublescan then 0 else 1, true)
  else none

/-- The mailbox holds a request for line `q.1` in half `q.2`. -/
structure Waits (s : LineRequests) (q : BitVec 10 × Bool) : Prop where
  valid : s.reqValid = true
  line : s.reqLine = q.1
  buf : s.reqBuf = q.2

theorem asked_of_raises (h : s.raises i = true) (b : Bool) : ∃ q, s.asked i b = some q := by
  unfold asked
  by_cases hvs : s.vsStart i = true
  · exact ⟨_, if_pos hvs⟩
  · have hle : s.lineEnd i = true := by simpa [raises, hvs] using h
    rw [if_neg hvs, if_pos hle]
    exact ⟨_, rfl⟩

theorem asked_of_not_raises (h : s.raises i = false) (reqTaken : Bool) : s.asked i reqTaken =
    if reqTaken && s.reqLine1 then some (if i.doublescan then 0 else 1, true) else none := by
  obtain ⟨hvs, hle⟩ := (Bool.or_eq_false_iff).mp h
  rw [asked, hvs, hle]
  rfl

/-- The mailbox after a clock in which nothing is raised. -/
theorem step_of_not_raises (h : s.raises i = false) (reqTaken : Bool) :
    (s.step i reqTaken).reqValid = (if reqTaken then s.reqLine1 else s.reqValid) ∧
      (s.step i reqTaken).reqLine = (if reqTaken && s.reqLine1 then (if i.doublescan then 0 else 1) else s.reqLine) ∧
      (s.step i reqTaken).reqBuf = (if reqTaken && s.reqLine1 then true else s.reqBuf) := by
  obtain ⟨hvs, hle⟩ := (Bool.or_eq_false_iff).mp h
  simp only [step, hvs, hle, onTaken]
  cases reqTaken <;> cases s.reqLine1 <;> cases i.cePix <;> exact ⟨rfl, rfl, rfl⟩

/-- What is asked for in a clock is in the mailbox in the next one. -/
theorem waits_of_asked {q : BitVec 10 × Bool} (h : s.asked i reqTaken = some q) : (s.step i reqTaken).Waits q := by
  unfold asked at h
  by_cases hvs : s.vsStart i = true
  · rw [if_pos hvs] at h
    cases h
    rw [step, if_pos hvs]
    exact ⟨rfl, rfl, rfl⟩
  · rw [if_neg hvs] at h
    by_cases hle : s.lineEnd i = true
    · rw [if_pos hle] at h
      cases h
      simp only [step, hvs, hle, if_true]
      exact ⟨rfl, rfl, rfl⟩
    · rw [if_neg hle] at h
      by_cases hack : (reqTaken && s.reqLine1) = true
      · rw [if_pos hack] at h
        cases h
        have hquiet : s.raises i = false := by simp [raises, hvs, hle]
        obtain ⟨htaken, hline1⟩ := (Bool.and_eq_true _ _).mp hack
        obtain ⟨hvalid, hline, hbuf⟩ := step_of_not_raises hquiet reqTaken
        rw [hack] at hline hbuf
        exact ⟨by rw [hvalid, htaken, hline1]; rfl, hline, hbuf⟩
      · rw [if_neg hack] at h
        exact absurd h nofun

/-- A request that nothing disturbs stays. -/
theorem Waits.step {q : BitVec 10 × Bool} (h : s.Waits q) (hraises : s.raises i = false) (htaken : reqTaken = false) :
    (s.step i reqTaken).Waits q := by
  obtain ⟨hvalid, hline, hbuf⟩ := step_of_not_raises hraises reqTaken
  rw [htaken] at hvalid hline hbuf ⊢
  exact ⟨hvalid.trans h.valid, hline.trans h.line, hbuf.trans h.buf⟩

/-- The acknowledge leaves the mailbox with line 1 or empty. -/
theorem asked_of_waits {q : BitVec 10 × Bool} (hraises : s.raises i = false) (htaken : reqTaken = true)
    (h : (s.step i reqTaken).Waits q) : s.asked i reqTaken = some q := by
  obtain ⟨hvalid, hline, hbuf⟩ := step_of_not_raises hraises reqTaken
  rw [htaken] at hvalid hline hbuf h ⊢
  have hline1 : s.reqLine1 = true := hvalid.symm.trans h.valid
  rw [hline1] at hline hbuf
  rw [asked_of_not_raises hraises, hline1]
  exact congrArg some (Prod.ext (hline.symm.trans h.line) (hbuf.symm.trans h.buf))

end LineRequests

/-- The engine acknowledges what it takes. -/
theorem reqTaken_step (e : LineFetcher) (q : FetchReq) (busy ready : Bool) (dout : BitVec 64) :
    (e.step q busy ready dout true).reqTaken = (e.state == .idle && (q.reqValid && !e.reqTaken && !busy)) := by
  rw [LineFetcher.step, if_neg (by simp)]
  cases hstate : e.state with
  | idle =>
    simp only [LineFetcher.idleNext]
    cases hgo : q.reqValid && !e.reqTaken && !busy <;> rfl
  | issue =>
    simp only [LineFetcher.issueNext]
    split
    · rfl
    · split
      · rfl
      · split <;> rfl
  | data =>
    simp only [LineFetcher.dataNext]
    split <;> rfl

/-! ## Runs -/

namespace LinebufRun

variable (r : LinebufRun)

/-- A line end or a frame start asks for a line in clock `t`. -/
def raises (t : Nat) : Bool := (r.state t).requests.raises (r.inputs t)

/-- What is asked for in clock `t`. -/
def asked (t : Nat) : Option (BitVec 10 × Bool) :=
  (r.state t).requests.asked (r.inputs t) (r.state t).engine.reqTaken

/-- The engine would take a request in clock `t`. -/
def free (t : Nat) : Bool :=
  (r.state t).engine.state == .idle && !(r.state t).engine.reqTaken && !(r.ddr t).ddrBusy

/-- The engine takes the request in the mailbox in clock `t`. -/
def accepts (t : Nat) : Bool := r.free t && (r.state t).requests.reqValid

/-- The engine starts in clock `t` on line `q.1` in half `q.2`. -/
structure Starts (q : BitVec 10 × Bool) (t : Nat) : Prop where
  state : (r.state (t + 1)).engine.state = .issue
  reqTaken : (r.state (t + 1)).engine.reqTaken = true
  curAddr : (r.state (t + 1)).engine.curAddr = Ddr3.fbBaseWords +
    (0#10 ++ (r.state t).requests.startLat.extractLsb' 1 19) + q.1.setWidth 29 * (r.inputs t).strideWords.setWidth 29
  lbWrAddr : (r.state (t + 1)).engine.lbWrAddr = BitVec.ofBool q.2 ++ 0#9

/-- No request is lost: until the engine is free or another line end or frame start supersedes it, a request
stays in the mailbox with its own line and half, and the engine, once free, starts on these. -/
def KeepsRequests : Prop :=
  ∀ t q, r.asked t = some q → ∀ u, t < u → (∀ v, t < v → v < u → r.raises v = false ∧ r.free v = false) →
    (r.state u).requests.Waits q ∧ (r.free u = true → r.Starts q u)

theorem requests_succ (t : Nat) :
    (r.state (t + 1)).requests = (r.state t).requests.step (r.inputs t) (r.state t).engine.reqTaken := by
  rw [state_succ]
  rfl

theorem engine_succ (t : Nat) : (r.state (t + 1)).engine = (r.state t).engine.step
    ((r.state t).requests.request (r.inputs t)) (r.ddr t).ddrBusy (r.ddr t).ddrDoutReady (r.ddr t).ddrDout true := by
  rw [state_succ]
  rfl

/-- The engine takes what the mailbox holds. -/
theorem starts_of_waits {t : Nat} {q : BitVec 10 × Bool} (h : (r.state t).requests.Waits q) (hfree : r.free t = true) :
    r.Starts q t := by
  unfold free at hfree
  simp only [Bool.and_eq_true, beq_iff_eq, Bool.not_eq_true'] at hfree
  obtain ⟨⟨hidle, htaken⟩, hbusy⟩ := hfree
  have hgo : (((r.state t).requests.request (r.inputs t)).reqValid && !(r.state t).engine.reqTaken &&
      !(r.ddr t).ddrBusy) = true := by
    rw [LineRequests.request, h.valid, htaken, hbusy]
    rfl
  have hnew := r.engine_succ t
  rw [LineFetcher.step, if_neg (by simp), hidle] at hnew
  simp only [LineFetcher.idleNext, hgo, if_true] at hnew
  constructor
  · rw [hnew]
  · rw [hnew]
  · rw [hnew, ← h.line]
    rfl
  · rw [hnew, ← h.buf]
    rfl

/-- An acknowledge comes in the clock after the engine has taken a request, and only there. -/
theorem reqTaken_succ (t : Nat) : (r.state (t + 1)).engine.reqTaken = r.accepts t := by
  rw [engine_succ, reqTaken_step, accepts, free, LineRequests.request]
  cases (r.state t).requests.reqValid <;> cases (r.state t).engine.reqTaken <;> cases (r.ddr t).ddrBusy <;> simp

theorem free_of_accepts {t : Nat} (h : r.accepts t = true) : r.free t = true :=
  ((Bool.and_eq_true _ _).mp h).1

/-- Nothing is taken in the clock of the acknowledge. -/
theorem not_free_succ {t : Nat} (h : r.accepts t = true) : r.free (t + 1) = false := by
  rw [free, reqTaken_succ, h]
  simp

/-- An acknowledge while a request waits belongs to the clock in which it was raised. -/
theorem raised_of_taken {t u : Nat} {q : BitVec 10 × Bool} (hq : r.asked t = some q) (hu : t < u)
    (hbefore : ∀ v, t < v → v < u → r.free v = false) (htaken : (r.state u).engine.reqTaken = true) :
    u = t + 1 ∧ r.accepts t = true ∧ r.raises t = true := by
  obtain ⟨w, rfl⟩ : ∃ w, u = w + 1 := ⟨u - 1, by omega⟩
  have haccepts : r.accepts w = true := (r.reqTaken_succ w).symm.trans htaken
  rcases Nat.lt_or_eq_of_le (Nat.le_of_lt_succ hu) with hlt | rfl
  · exact absurd ((hbefore w hlt (by omega)).symm.trans (r.free_of_accepts haccepts)) nofun
  · have htaken' : (r.state t).engine.reqTaken = false := by
      have hfree := r.free_of_accepts haccepts
      simp only [free, Bool.and_eq_true, Bool.not_eq_true'] at hfree
      exact hfree.1.2
    refine ⟨rfl, haccepts, ?_⟩
    by_contra hno
    have hnone := LineRequests.asked_of_not_raises
      (Bool.eq_false_iff.mpr hno : (r.state t).requests.raises (r.inputs t) = false) (r.state t).engine.reqTaken
    have hasked : r.asked t = none := by
      rw [asked, hnone, htaken']
      rfl
    exact absurd (hq.symm.trans hasked) nofun

/-- A request waits until the engine is free. -/
theorem waits_until (hcond : ∀ t, r.accepts t = true → r.raises t = true →
      r.raises (t + 1) = true ∨ r.asked (t + 1) = r.asked t)
    {t u : Nat} {q : BitVec 10 × Bool} (hq : r.asked t = some q) (hu : t < u)
    (hbefore : ∀ v, t < v → v < u → r.raises v = false ∧ r.free v = false) : (r.state u).requests.Waits q := by
  induction u, hu using Nat.le_induction with
  | base =>
    rw [requests_succ]
    exact LineRequests.waits_of_asked hq
  | succ u hu ih =>
    obtain ⟨hraises, -⟩ := hbefore u hu (by omega)
    have hwaits := ih fun v hv hv' => hbefore v hv (by omega)
    rw [requests_succ]
    by_cases htaken : (r.state u).engine.reqTaken = true
    · -- the request was raised in the clock in which the engine took another
      obtain ⟨rfl, haccepts, hraised⟩ :=
        r.raised_of_taken hq hu (fun v hv hv' => (hbefore v hv (by omega)).2) htaken
      rcases hcond t haccepts hraised with hnext | hsame
      · exact absurd (hraises.symm.trans hnext) nofun
      · exact LineRequests.waits_of_asked (hsame.trans hq)
    · exact hwaits.step hraises (by simpa using htaken)

/-- A request raised in the clock in which the engine takes another is lost in the next, unless that one raises a
request again, or the same. -/
theorem keepsRequests_iff : r.KeepsRequests ↔
    ∀ t, r.accepts t = true → r.raises t = true → r.raises (t + 1) = true ∨ r.asked (t + 1) = r.asked t := by
  constructor
  · intro hkeep t haccepts hraises
    by_cases hnext : r.raises (t + 1) = true
    · exact .inl hnext
    · obtain ⟨q, hq⟩ := LineRequests.asked_of_raises hraises (r.state t).engine.reqTaken
      have hquiet : r.raises (t + 1) = false := by simpa using hnext
      obtain ⟨hwaits, -⟩ := hkeep t q hq (t + 2) (by omega) fun v hv hv' => by
        obtain rfl : v = t + 1 := by omega
        exact ⟨hquiet, r.not_free_succ haccepts⟩
      have htaken : (r.state (t + 1)).engine.reqTaken = true := (r.reqTaken_succ t).trans haccepts
      rw [requests_succ] at hwaits
      exact .inr ((LineRequests.asked_of_waits hquiet htaken hwaits).trans hq.symm)
  · intro hcond t q hq u hu hbefore
    have h := r.waits_until hcond hq hu hbefore
    exact ⟨h, r.starts_of_waits h⟩

/-- Two lines of one dot each, while the port is busy with the other master until the end of the second. -/
def lateGrant : LinebufRun where
  start :=
    { requests := .reset
      dots := { xCnt := 0, dotPh := false, lbRdAddr := 0, byteSel := 0, hwSel := 0, b24Sel := 0, rd2Pending := false
                rd2Capture := false, q0 := 0, rgb24 := 0, px24 := 0, ph24 := 0, pixCe := false }
      engine := { state := .idle, ddrAddr := 0, ddrRd := false, ddrBurstcnt := 0, curAddr := 0, wordsLeft := 0,
                  burstLeft := 0, reqTaken := false, lbWe := false, lbWrAddr := 0, lbWrAddrQ := 0, lbWrData := 0 }
      lb := fun _ => 0 }
  inputs := fun t =>
    { bpp := 0, fmt16 := 0, cePix := true, notDisplaying := t % 2 = 1 || 3 < t, vsync := false, doublescan := false,
      rep2 := false, dotdiv := false, startAddr := 0, strideWords := 80, widthWords := 80 }
  ddr := fun t => { ddrBusy := t < 3, ddrDoutReady := false, ddrDout := 0 }

/-- The request of the second line end is raised as the engine takes that of the first, and is lost. -/
theorem lateGrant_not_keepsRequests : ¬ lateGrant.KeepsRequests := by
  intro h
  have hasked : lateGrant.asked 3 = some (3, true) := by decide
  have hquiet : lateGrant.raises 4 = false ∧ lateGrant.free 4 = false := by decide
  have hempty : (lateGrant.state 5).requests.reqValid = false := by decide
  obtain ⟨hwaits, -⟩ := h 3 (3, true) hasked 5 (by decide) fun v hv hv' => by
    obtain rfl : v = 4 := by omega
    exact hquiet
  exact absurd (hempty.symm.trans hwaits.valid) nofun

end LinebufRun

end Z486.Video
