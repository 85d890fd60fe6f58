/-
The interrupt acknowledge path: `pic_inta_bridge` (src/pic_inta_bridge.sv) turns the CPU's two-cycle
INTA sequence into the vector read and the one-clock `interrupt_done` pulse of the 8259 pair, as
src/system.sv connects them. The bridge reads the vector at one edge and the pair acts on the pulse
at the next; the level read and the level acknowledged are the same exactly as long as the pair's
registered level is the one its request logic still selects.
-/
import Z486.Clocked.Run
import Z486.Interrupt.I8259

namespace Z486.Interrupt

open Clocked

/-! ## The bridge -/

/-- The states of `pic_inta_bridge`. -/
inductive BridgeState
  | idle
  | inta1
  | inta2
  deriving DecidableEq, Repr

/-- The registers of `pic_inta_bridge`. -/
structure Bridge where
  state : BridgeState
  intaResponded : Bool
  picInterruptDone : Bool
  cpuIntr : Bool
  cpuIntaDin : BitVec 32
  cpuIntaReady : Bool

/-- The inputs of `pic_inta_bridge` in one clock. -/
structure BridgeIn where
  resetN : Bool
  picInterruptDo : Bool
  picInterruptVector : BitVec 8
  cpuInta : Bool

namespace Bridge

def reset : Bridge where
  state := .idle
  intaResponded := false
  picInterruptDone := false
  cpuIntr := false
  cpuIntaDin := 0
  cpuIntaReady := false

variable (b : Bridge) (i : BridgeIn)

/-- The first INTA cycle is answered at this edge. -/
def startsFirst : Bool := b.state == .idle && i.cpuInta && !b.intaResponded

/-- The second INTA cycle is answered at this edge: the vector is read. -/
def startsSecond : Bool := b.state == .inta2 && i.cpuInta && !b.intaResponded

def next : Bridge where
  state :=
    match b.state with
    | .idle => if i.cpuInta && !b.intaResponded then .inta1 else .idle
    | .inta1 => if !i.cpuInta then .inta2 else .inta1
    | .inta2 => if i.cpuInta && !b.intaResponded then .idle else .inta2
  -- the last assignment of the block wins: `inta_responded` falls with `cpu_inta`
  intaResponded :=
    if !i.cpuInta then false
    else if b.startsFirst i || b.startsSecond i then true else b.intaResponded
  picInterruptDone := b.startsSecond i
  cpuIntr := i.picInterruptDo
  cpuIntaDin :=
    if b.startsFirst i then 0
    else if b.startsSecond i then (0 : BitVec 24) ++ i.picInterruptVector else b.cpuIntaDin
  cpuIntaReady := b.startsFirst i || b.startsSecond i

def step : Bridge := if i.resetN then b.next i else reset

end Bridge

/-! ## The pair with the bridge -/

/-- The registers of `pic` and `inta_bridge` in system.sv. -/
structure Inta where
  pic : Pic
  bridge : Bridge

/-- What the rest of the system drives in one clock. -/
structure IntaIn where
  rstN : Bool
  ioAddress : Bool
  ioRead : Bool
  ioWrite : Bool
  ioWritedata : BitVec 8
  ioMasterCs : Bool
  ioSlaveCs : Bool
  interruptInput : BitVec 16
  cpuInta : Bool

namespace Inta

def reset : Inta := ⟨.reset, .reset⟩

variable (s : Inta) (i : IntaIn)

def picIn : PicIn where
  rstN := i.rstN
  ioAddress := i.ioAddress
  ioRead := i.ioRead
  ioWrite := i.ioWrite
  ioWritedata := i.ioWritedata
  ioMasterCs := i.ioMasterCs
  ioSlaveCs := i.ioSlaveCs
  interruptInput := i.interruptInput
  interruptDone := s.bridge.picInterruptDone

def bridgeIn : BridgeIn := ⟨i.rstN, s.pic.interruptDo, s.pic.interruptVector, i.cpuInta⟩

def step : Inta := ⟨s.pic.step (s.picIn i), s.bridge.step (s.bridgeIn i)⟩

/-- The edge at which the bridge reads the vector for the CPU. -/
def samples : Bool := i.rstN && s.bridge.startsSecond (s.bridgeIn i)

/-- The CPU has one bus: while it acknowledges an interrupt it strobes no I/O port. -/
def OneBus : Prop :=
  i.rstN = true ∧ (i.cpuInta = true ∨ s.bridge.picInterruptDone = true → i.ioRead = false ∧ i.ioWrite = false)

end Inta

/-! ## Levels -/

/-- What a vector stands for: a level of one of the two controllers, or no request at all. -/
inductive Level
  | master (k : BitVec 3)
  | slave (k : BitVec 3)
  | spuriousMaster
  | spuriousSlave
  deriving DecidableEq, Repr

/-- The level of a vector with low bits `k` that comes from the slave or the master. -/
def Level.of (fromSlave spuriousSla spuriousMas : Bool) (slaK masK : BitVec 3) : Level :=
  if fromSlave then (if spuriousSla then .spuriousSlave else .slave slaK)
  else if spuriousMas then .spuriousMaster else .master masK

/-- The level in `pic`'s registers, which a done pulse acknowledges. -/
def Pic.level (p : Pic) : Level :=
  .of p.slaSelect p.sla.spurious p.mas.spurious p.sla.vectorLevel p.mas.vectorLevel

/-- What `pic` puts on the CPU's data lines is the vector of the level: its number under the offset of
the controller that drives the lines. The spurious vector is the one of level 7. -/
def Pic.Presents (p : Pic) (din : BitVec 32) : Level → Prop
  | .master k => p.slaSelect = false ∧ din = (0 : BitVec 24) ++ (p.mas.interruptOffset ++ k)
  | .slave k => p.slaSelect = true ∧ din = (0 : BitVec 24) ++ (p.sla.interruptOffset ++ k)
  | .spuriousMaster => p.slaSelect = false ∧ din = (0 : BitVec 24) ++ (p.mas.interruptOffset ++ (7 : BitVec 3))
  | .spuriousSlave => p.slaSelect = true ∧ din = (0 : BitVec 24) ++ (p.sla.interruptOffset ++ (7 : BitVec 3))

namespace I8259

variable (s : I8259)

/-- The request logic's choice, where there is one; else what the vector register holds. -/
def wantedLevel : BitVec 3 := if s.irq || s.interruptDo then s.irqValue else s.vectorLevel

/-- The request behind the vector is gone. -/
def wantedSpurious : Bool := if s.interruptDo && !s.irq then true else if s.irq then false else s.spurious

def wantedSlaveActive : Bool :=
  if s.irq || s.interruptDo then s.irrSlave.getLsbD s.irqValue.toNat else s.slaveActive

end I8259

/-- The level `pic`'s request logic selects, from IRR, IMR, ISR, rotation and cascade setting. -/
def Pic.wantedLevel (p : Pic) : Level :=
  .of (p.mas.wantedSlaveActive && p.mas.wantedLevel == 2) p.sla.wantedSpurious p.mas.wantedSpurious
    p.sla.wantedLevel p.mas.wantedLevel

/-- The vector on `pic`'s port is the one of the level its request logic selects. Where nothing is selected any
more, the slave's vector of level 7 is as spurious as the master's. -/
def Pic.PresentsWanted (p : Pic) : Prop :=
  p.Presents ((0 : BitVec 24) ++ p.interruptVector) p.wantedLevel ∨
    p.wantedLevel = .spuriousMaster ∧ p.Presents ((0 : BitVec 24) ++ p.interruptVector) .spuriousSlave

/-! ## Acknowledging a level -/

namespace I8259

variable (s : I8259) (i : I8259In)

/-- The edge takes level `k` out of IRR and into ISR (with automatic EOI, not into ISR), and does
nothing else to either register than the request inputs do. -/
def Acks (k : BitVec 3) : Prop :=
  (s.step i).irr = (s.irr &&& i.interruptInput &&& ~~~(1#8 <<< k)) ||| s.newRequests i ∧
  (s.step i).isr = if s.autoEoi then s.isr else s.isr ||| 1#8 <<< k

/-- The edge acknowledges nothing: only the request inputs change IRR, and ISR stays. -/
def AcksNone : Prop :=
  (s.step i).irr = (s.irr &&& i.interruptInput) ||| s.newRequests i ∧ (s.step i).isr = s.isr

end I8259

/-- The edge at which `pic` sees the done pulse acknowledges `l` and nothing else. For a slave's
vector the master's own part is its cascade level. -/
def Pic.AcksLevel (p : Pic) (i : PicIn) : Level → Prop
  | .master k => p.mas.Acks (p.masIn i) k ∧ p.sla.AcksNone (p.slaIn i)
  | .slave k => (p.mas.Acks (p.masIn i) 2 ∨ p.mas.AcksNone (p.masIn i)) ∧ p.sla.Acks (p.slaIn i) k
  | .spuriousMaster => p.mas.AcksNone (p.masIn i) ∧ p.sla.AcksNone (p.slaIn i)
  | .spuriousSlave => (p.mas.Acks (p.masIn i) 2 ∨ p.mas.AcksNone (p.masIn i)) ∧ p.sla.AcksNone (p.slaIn i)

/-- Every INTA sequence of the run delivers the vector of the level it acknowledges. -/
def AcksWhatItDelivers (inp : Nat → IntaIn) : Prop :=
  ∀ t, (run Inta.step .reset inp t).samples (inp t) = true →
    let p := (run Inta.step .reset inp t).pic
    let s := run Inta.step .reset inp (t + 1)
    s.bridge.picInterruptDone = true ∧
      ∃ l, p.Presents s.bridge.cpuIntaDin l ∧ s.pic.AcksLevel (s.picIn (inp (t + 1))) l

/-! ## One edge -/

namespace I8259

variable {s : I8259} {i : I8259In}

/-- Without a register write the vector and its flags follow the request logic. -/
theorem step_wanted (hr : i.rstN = true) (hio : i.ioRead = false) (hw : i.ioWrite = false)
    (hd : i.interruptDone = false) :
    (s.step i).vectorLevel = s.wantedLevel ∧ (s.step i).spurious = s.wantedSpurious ∧
      (s.step i).slaveActive = s.wantedSlaveActive := by
  have h4 : initIcw1 i = false := by simp [initIcw1, hw]
  have hack : s.acknowledge i = false := by simp [acknowledge, ioReadValid, hio, hd]
  have hvec : ∀ (o : BitVec 5) (v : BitVec 3), (o ++ v).extractLsb' 0 3 = v := by
    intro o v
    exact BitVec.extractLsb'_append_eq_right
  refine ⟨?_, ?_, ?_⟩
  · simp only [vectorLevel, step, hr, if_true, next, h4, wantedLevel]
    split
    · simp_all
    · split <;> simp_all
  · simp [step, hr, next, h4, hack, spuriousStart, hd, wantedSpurious]
  · simp [step, hr, next, h4, hack, wantedSlaveActive]

/-- The done pulse acknowledges the level of the vector register. -/
theorem acks_of_done (hr : i.rstN = true) (hio : i.ioRead = false) (hw : i.ioWrite = false)
    (hd : i.interruptDone = true) (hs : s.spurious = false) : s.Acks i s.vectorLevel := by
  have h4 : initIcw1 i = false := by simp [initIcw1, hw]
  have ho : ocw2 i = false := by simp [ocw2, hw]
  have hc : s.isrClear i = false := by simp [isrClear, ioReadValid, hio, ho]
  have ha : s.acknowledgeNotSpurious i = true := by simp [acknowledgeNotSpurious, hd, hs]
  constructor
  · simp [step, hr, next, h4, ha, interruptVectorBits]
  · cases hae : s.autoEoi <;> simp [step, hr, next, h4, ho, hc, ha, hae, interruptVectorBits]

/-- Without the done pulse, or with a spurious request, nothing is acknowledged. -/
theorem acksNone_of (hr : i.rstN = true) (hio : i.ioRead = false) (hw : i.ioWrite = false)
    (hd : i.interruptDone = false ∨ s.spurious = true) : s.AcksNone i := by
  have h4 : initIcw1 i = false := by simp [initIcw1, hw]
  have ho : ocw2 i = false := by simp [ocw2, hw]
  have hc : s.isrClear i = false := by simp [isrClear, ioReadValid, hio, ho]
  have ha : s.acknowledgeNotSpurious i = false := by
    rcases hd with hd | hd <;> simp [acknowledgeNotSpurious, ioReadValid, hio, hd]
  constructor <;> simp [step, hr, next, h4, ho, hc, ha]

end I8259

namespace Pic

variable {p : Pic} {i : PicIn}

/-- While no done pulse and no register write comes, the registered level becomes the wanted one. -/
theorem level_step (hr : i.rstN = true) (hio : i.ioRead = false) (hw : i.ioWrite = false)
    (hd : i.interruptDone = false) : (p.step i).level = p.wantedLevel := by
  obtain ⟨m1, m2, m3⟩ := I8259.step_wanted (s := p.mas) (i := p.masIn i) hr (by simp [masIn, hio])
    (by simp [masIn, hw]) hd
  obtain ⟨s1, s2, -⟩ := I8259.step_wanted (s := p.sla) (i := p.slaIn i) hr (by simp [slaIn, hio])
    (by simp [slaIn, hw]) (by simp [slaIn, hd])
  simp only [level, wantedLevel, slaSelect, step, m1, m2, m3, s1, s2]

/-- The done pulse acknowledges the registered level. -/
theorem acksLevel_of_done (hr : i.rstN = true) (hio : i.ioRead = false) (hw : i.ioWrite = false)
    (hd : i.interruptDone = true) : p.AcksLevel i p.level := by
  have masR : (p.masIn i).ioRead = false := by simp [masIn, hio]
  have masW : (p.masIn i).ioWrite = false := by simp [masIn, hw]
  have slaR : (p.slaIn i).ioRead = false := by simp [slaIn, hio]
  have slaW : (p.slaIn i).ioWrite = false := by simp [slaIn, hw]
  have masAcks (h : p.mas.spurious = false) : p.mas.Acks (p.masIn i) p.mas.vectorLevel :=
    I8259.acks_of_done hr masR masW hd h
  have masNone (h : p.mas.spurious = true) : p.mas.AcksNone (p.masIn i) :=
    I8259.acksNone_of hr masR masW (.inr h)
  cases hsel : p.slaSelect with
  | true =>
    have hmas : p.mas.Acks (p.masIn i) 2 ∨ p.mas.AcksNone (p.masIn i) := by
      have h2 : p.mas.vectorLevel = 2 := by simp [slaSelect] at hsel; exact hsel.2
      cases hm : p.mas.spurious with
      | true => exact .inr (masNone hm)
      | false => exact .inl (h2 ▸ masAcks hm)
    cases hs : p.sla.spurious with
    | true =>
      simp only [level, Level.of, hsel, hs, if_true]
      exact ⟨hmas, I8259.acksNone_of hr slaR slaW (.inr hs)⟩
    | false =>
      simp only [level, Level.of, hsel, hs, if_true, Bool.false_eq_true, if_false]
      exact ⟨hmas, I8259.acks_of_done hr slaR slaW (by simp [slaIn, hsel, hd]) hs⟩
  | false =>
    have hsla : p.sla.AcksNone (p.slaIn i) := I8259.acksNone_of hr slaR slaW (.inl (by simp [slaIn, hsel]))
    cases hm : p.mas.spurious with
    | true =>
      simp only [level, Level.of, hsel, hm, if_true, Bool.false_eq_true, if_false]
      exact ⟨masNone hm, hsla⟩
    | false =>
      simp only [level, Level.of, hsel, hm, Bool.false_eq_true, if_false]
      exact ⟨masAcks hm, hsla⟩

end Pic

/-! ## Runs -/

/-- The done pulse is high only in the clock after the vector was read, when the bridge is idle. -/
theorem run_done_idle (inp : Nat → IntaIn) (t : Nat) :
    (run Inta.step .reset inp t).bridge.picInterruptDone = true →
      (run Inta.step .reset inp t).bridge.state = .idle := by
  refine run_invariant (I := fun s : Inta => s.bridge.picInterruptDone = true → s.bridge.state = .idle)
    (fun h => rfl) (fun t _ h => ?_) t
  generalize run Inta.step .reset inp t = s at h ⊢
  simp only [Inta.step, Bridge.step] at h ⊢
  split at h
  · simp only [Bridge.next, Bridge.startsSecond, Bool.and_eq_true, beq_iff_eq, Bool.not_eq_true'] at h ⊢
    obtain ⟨⟨h1, h2⟩, h3⟩ := h
    simp_all
  · simp_all [Bridge.reset]

/-- The sequence that reads the vector at this edge delivers the registered vector and acknowledges
the level the request logic wants at this edge. -/
theorem acksLevel_wanted (inp : Nat → IntaIn)
    (hbus : ∀ t, (run Inta.step .reset inp t).OneBus (inp t)) (t : Nat)
    (ht : (run Inta.step .reset inp t).samples (inp t) = true) :
    let p := (run Inta.step .reset inp t).pic
    let s := run Inta.step .reset inp (t + 1)
    s.bridge.picInterruptDone = true ∧ s.bridge.cpuIntaDin = (0 : BitVec 24) ++ p.interruptVector ∧
      s.pic.AcksLevel (s.picIn (inp (t + 1))) p.wantedLevel := by
  intro p s
  have hb := hbus t
  have hb' : s.OneBus (inp (t + 1)) := hbus (t + 1)
  have hidle := run_done_idle inp t
  have hs : s = (run Inta.step .reset inp t).step (inp t) := rfl
  have hp : p = (run Inta.step .reset inp t).pic := rfl
  clear_value s p
  generalize run Inta.step .reset inp t = r at ht hb hidle hs hp
  simp only [Inta.samples, Bool.and_eq_true] at ht
  obtain ⟨hr, hsec⟩ := ht
  have hbridge : s.bridge = r.bridge.next (r.bridgeIn (inp t)) := by
    rw [hs]; exact if_pos hr
  have hdone : s.bridge.picInterruptDone = true := by rw [hbridge]; exact hsec
  have hin2 : r.bridge.state = .inta2 ∧ (inp t).cpuInta = true := by
    simp only [Bridge.startsSecond, Inta.bridgeIn, Bool.and_eq_true, beq_iff_eq] at hsec
    exact hsec.1
  -- the vector is read in state `inta2`, where the done pulse of no earlier sequence is left
  have hd0 : r.bridge.picInterruptDone = false := by
    by_contra hd
    have := hidle (by simpa using hd)
    rw [hin2.1] at this; cases this
  have hlevel : s.pic.level = p.wantedLevel := by
    rw [hs, hp]
    exact Pic.level_step hr (hb.2 (.inl hin2.2)).1 (hb.2 (.inl hin2.2)).2 hd0
  refine ⟨hdone, ?_, ?_⟩
  · have hfirst : r.bridge.startsFirst (r.bridgeIn (inp t)) = false := by
      simp [Bridge.startsFirst, hin2.1]
    rw [hbridge, hp]
    simp only [Bridge.next, hfirst, hsec, Bool.false_eq_true, if_false, if_true]
    rfl
  · rw [← hlevel]
    exact Pic.acksLevel_of_done hb'.1 (hb'.2 (.inr hdone)).1 (hb'.2 (.inr hdone)).2 hdone

/-- An acknowledge of nothing at all also goes with the slave's spurious vector. -/
theorem Pic.AcksLevel.spuriousSlave {p : Pic} {i : PicIn} (h : p.AcksLevel i .spuriousMaster) :
    p.AcksLevel i .spuriousSlave :=
  ⟨.inr h.1, h.2⟩

/-- Where, at every edge at which the bridge reads the vector, the vector on the port is the one of the
level the request logic selects, every INTA sequence acknowledges the level whose vector it delivers. -/
theorem acksWhatItDelivers_of_wanted (inp : Nat → IntaIn)
    (hbus : ∀ t, (run Inta.step .reset inp t).OneBus (inp t))
    (hw : ∀ t, (run Inta.step .reset inp t).samples (inp t) = true →
      (run Inta.step .reset inp t).pic.PresentsWanted) :
    AcksWhatItDelivers inp := by
  intro t ht
  obtain ⟨hdone, hdin, hack⟩ := acksLevel_wanted inp hbus t ht
  refine ⟨hdone, ?_⟩
  rw [hdin]
  rcases hw t ht with h | ⟨hgone, h⟩
  · exact ⟨_, h, hack⟩
  · rw [hgone] at hack
    exact ⟨_, h, hack.spuriousSlave⟩

/-- Clock 0 unmasks the master, `request` holds the request inputs from clock 1 on, and the CPU
holds INTA in clocks 6, 7 and 9, 10. -/
def oneSequence (request : Nat → BitVec 16) (t : Nat) : IntaIn where
  rstN := true
  ioAddress := true
  ioRead := false
  ioWrite := t == 0
  ioWritedata := 0
  ioMasterCs := true
  ioSlaveCs := false
  interruptInput := request t
  cpuInta := t == 6 || t == 7 || t == 9 || t == 10

theorem oneSequence_oneBus (request : Nat → BitVec 16) (t : Nat) :
    (run Inta.step .reset (oneSequence request) t).OneBus (oneSequence request t) := by
  refine ⟨rfl, fun h => ⟨rfl, ?_⟩⟩
  cases t with
  | zero => rcases h with h | h <;> cases h
  | succ t => rfl

/-- Request 1 alone, held from clock 1 on. -/
def steadyRequest (t : Nat) : BitVec 16 := if t < 1 then 0 else 2

/-- With a steady request the vector read in clock 9 belongs to the level acknowledged. -/
theorem steadyRequest_acks :
    (run Inta.step .reset (oneSequence steadyRequest) 9).samples (oneSequence steadyRequest 9) = true ∧
      AcksWhatItDelivers (oneSequence steadyRequest) := by
  refine ⟨by decide, acksWhatItDelivers_of_wanted _ (oneSequence_oneBus _) fun t ht => ?_⟩
  have hcpu : (oneSequence steadyRequest t).cpuInta = true := by
    simp only [Inta.samples, Bridge.startsSecond, Inta.bridgeIn, Bool.and_eq_true] at ht
    exact ht.2.1.2
  have hcases : t = 6 ∨ t = 7 ∨ t = 9 ∨ t = 10 := by
    simp [oneSequence] at hcpu; omega
  rcases hcases with rfl | rfl | rfl | rfl
  · exact absurd ht (by decide)
  · exact absurd ht (by decide)
  · have hlev : (run Inta.step .reset (oneSequence steadyRequest) 9).pic.wantedLevel = .master 1 := by decide
    unfold Pic.PresentsWanted
    rw [hlev]
    exact .inl ⟨by decide, by decide⟩
  · exact absurd ht (by decide)

/-- Request 1 from clock 1 on; request 0 comes in clock 8 and is in IRR in clock 9, in which the
vector of request 1 is read. -/
def lateRequest (t : Nat) : BitVec 16 := if t < 1 then 0 else if t < 8 then 2 else 3

/-- With the late request the CPU gets vector 71h of level 1, and the pair takes level 0 out of IRR
and into ISR: level 0 is never delivered and level 1 will be delivered again. -/
theorem lateRequest_acks_other_level :
    (∀ t, (run Inta.step .reset (oneSequence lateRequest) t).OneBus (oneSequence lateRequest t)) ∧
      ¬ AcksWhatItDelivers (oneSequence lateRequest) := by
  refine ⟨oneSequence_oneBus _, fun h => ?_⟩
  obtain ⟨-, l, hpres, hack⟩ := h 9 (by decide)
  have hdin : (run Inta.step .reset (oneSequence lateRequest) 10).bridge.cpuIntaDin = 0x71 := by decide
  have hsel : (run Inta.step .reset (oneSequence lateRequest) 9).pic.slaSelect = false := by decide
  have hoff : (run Inta.step .reset (oneSequence lateRequest) 9).pic.mas.interruptOffset = 0x0E := by decide
  rw [hdin] at hpres
  cases l with
  | slave k => exact absurd (hsel.symm.trans hpres.1) nofun
  | spuriousSlave => exact absurd (hsel.symm.trans hpres.1) nofun
  | spuriousMaster =>
    have hv := hpres.2
    rw [hoff] at hv
    revert hv
    decide
  | master k =>
    have hv := hpres.2
    rw [hoff] at hv
    have hlevel : ∀ k : BitVec 3, (0x71 : BitVec 32) = (0 : BitVec 24) ++ ((0x0E : BitVec 5) ++ k) → k = 1 := by decide
    rw [hlevel k hv] at hack
    have hisr := hack.1.2
    revert hisr
    decide

end Z486.Interrupt
