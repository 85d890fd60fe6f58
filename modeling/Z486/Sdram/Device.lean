/-
An ideal SDRAM device on the pins of the controller: a row is opened in a closed bank, a column command
works on the open row and closes it on auto-precharge, and the data of a read are on the data pins after
the CAS latency.
-/
import Z486.Sdram.RowTiming

namespace Z486.Sdram

/-! ## The device -/

structure Device where
  /-- the open row of a bank -/
  row : Bool → BitVec 2 → Option (BitVec 13)
  cells : Bool → BitVec 2 → BitVec 13 → BitVec 10 → BitVec 16
  /-- `pipe j` is due on the data pins `j` clocks later -/
  pipe : Nat → Option (BitVec 16)

/-- A half with the bytes that are not masked replaced. -/
def halfMerge (mask : BitVec 2) (old new : BitVec 16) : BitVec 16 :=
  (if mask.getLsbD 1 then old.extractLsb' 8 8 else new.extractLsb' 8 8) ++
    (if mask.getLsbD 0 then old.extractLsb' 0 8 else new.extractLsb' 0 8)

namespace Device

variable (p : SdramParams) (d : Device) (cmd : BusCmd) (dq : BitVec 16) (dqm : BitVec 2)

/-- The data a command reads. -/
def readData : Option (BitVec 16) :=
  match cmd with
  | .read chip bank col _ => (d.row chip bank).map fun row => d.cells chip bank row col
  | _ => none

/-- A row is opened in a closed bank only. -/
def rowNext (chip : Bool) (bank : BitVec 2) : Option (BitVec 13) :=
  match cmd with
  | .activate c b row => if c = chip ∧ b = bank ∧ d.row chip bank = none then some row else d.row chip bank
  | .read c b _ ap => if c = chip ∧ b = bank ∧ ap = true then none else d.row chip bank
  | .write c b _ ap => if c = chip ∧ b = bank ∧ ap = true then none else d.row chip bank
  | .preCharge c all => if c = chip ∧ all = true then none else d.row chip bank
  | _ => d.row chip bank

def cellsNext (chip : Bool) (bank : BitVec 2) (row : BitVec 13) (col : BitVec 10) : BitVec 16 :=
  match cmd with
  | .write c b cl _ =>
    if c = chip ∧ b = bank ∧ cl = col ∧ d.row c b = some row then halfMerge dqm (d.cells chip bank row col) dq
    else d.cells chip bank row col
  | _ => d.cells chip bank row col

def step : Device where
  row := d.rowNext cmd
  cells := d.cellsNext cmd dq dqm
  pipe := fun j => if j + 1 = p.cas then d.readData cmd else d.pipe (j + 1)

end Device

/-- The byte masks a device sees; a board without DQM has none. -/
def Controller.dqm (p : SdramParams) (s : Controller) : BitVec 2 := if p.hasDqm then s.dqmMask else 0

/-- The data pins. -/
def Controller.dq (s : Controller) (i : SdramIn) : BitVec 16 := if s.dqOen then i.dqIn else s.dqOut

/-- A run of the controller with its device. -/
structure DeviceRun extends SdramRun where
  dev : Nat → Device
  dev_succ : ∀ t, dev (t + 1) = (dev t).step p ((regs t).bus p) ((regs t).dq (inp t)) ((regs t).dqm p)
  /-- nothing is read before the reset -/
  empty : ∀ j, (dev 0).pipe j = none
  /-- what the device drives is on the data pins -/
  drives : ∀ t data, (dev t).pipe 0 = some data → (inp t).dqIn = data

/-- The run of a controller and a device from given inputs; `dqIn` is what floats on pins that nobody drives. -/
def DeviceRun.attach (p : SdramParams) (powerUp : Controller) (d : Device) (ext : Nat → SdramIn)
    (h : ∀ t, (ext t).resetn = true) : DeviceRun :=
  let pins (d : Device) (i : SdramIn) : SdramIn := { i with dqIn := (d.pipe 0).getD i.dqIn }
  let sys := Clocked.run (fun (x : Controller × Device) (i : SdramIn) =>
    (x.1.step p (pins x.2 i), x.2.step p (x.1.bus p) (x.1.dq (pins x.2 i)) (x.1.dqm p)))
    (powerUp.reset, { d with pipe := fun _ => none }) ext
  { p := p
    inp := fun t => pins (sys t).2 (ext t)
    regs := fun t => (sys t).1
    powerUp := powerUp
    start := rfl
    succ := fun _ => rfl
    resetn := h
    dev := fun t => (sys t).2
    dev_succ := fun _ => rfl
    empty := fun _ => rfl
    drives := by
      intro t data hd
      show ((sys t).2.pipe 0).getD _ = data
      rw [hd]
      rfl }

namespace DeviceRun

variable {r : DeviceRun} {t u : Nat} {chip : Bool} {bank : BitVec 2} {row : BitVec 13}

/-! ## Data -/

/-- The data read in a clock are due after the CAS latency. -/
theorem pipe_eq (t j : Nat) : (r.dev t).pipe j =
    if j < r.p.cas ∧ r.p.cas ≤ t + j then (r.dev (t + j - r.p.cas)).readData (r.bus (t + j - r.p.cas)) else none := by
  induction t generalizing j with
  | zero =>
    rw [r.empty, if_neg]
    omega
  | succ t ih =>
    rw [r.dev_succ]
    show (if j + 1 = r.p.cas then (r.dev t).readData (r.bus t) else (r.dev t).pipe (j + 1)) = _
    by_cases hj : j + 1 = r.p.cas
    · rw [if_pos hj, if_pos (by omega), (by omega : t + 1 + j - r.p.cas = t)]
    · rw [if_neg hj, ih, (by omega : t + (j + 1) = t + 1 + j)]
      by_cases hc : j < r.p.cas ∧ r.p.cas ≤ t + 1 + j
      · rw [if_pos hc, if_pos (by omega)]
      · rw [if_neg hc, if_neg (by omega)]

theorem dqIn_of_read {data : BitVec 16} (h : (r.dev t).readData (r.bus t) = some data) :
    (r.inp (t + r.p.cas)).dqIn = data := by
  have hcas := r.p.fits.cas
  apply r.drives
  rw [r.pipe_eq, if_pos (by omega), Nat.add_zero, Nat.add_sub_cancel]
  exact h

/-! ## Rows -/

theorem row_succ (t : Nat) (chip : Bool) (bank : BitVec 2) :
    (r.dev (t + 1)).row chip bank = (r.dev t).rowNext (r.bus t) chip bank := by
  rw [r.dev_succ]
  rfl

/-- The command closes the bank. -/
def closes (r : DeviceRun) (t : Nat) (chip : Bool) (bank : BitVec 2) : Prop := ∃ d, (r.bus t).Precharges chip bank r.p d

theorem row_of_closes (h : r.closes t chip bank) : (r.dev (t + 1)).row chip bank = none := by
  obtain ⟨d, hd⟩ := h
  rw [row_succ]
  unfold Device.rowNext
  cases hb : r.bus t with
  | read c b col ap =>
    rw [hb] at hd
    exact if_pos ⟨hd.1, hd.2.1, hd.2.2.1⟩
  | write c b col ap =>
    rw [hb] at hd
    exact if_pos ⟨hd.1, hd.2.1, hd.2.2.1⟩
  | preCharge c all =>
    rw [hb] at hd
    exact if_pos ⟨hd.1, hd.2.1⟩
  | nop | activate | refresh | setMode =>
    rw [hb] at hd
    exact hd.elim

theorem row_none_succ (h : (r.dev t).row chip bank = none) (hno : ¬ (r.bus t).Activates chip bank) :
    (r.dev (t + 1)).row chip bank = none := by
  rw [row_succ]
  unfold Device.rowNext
  cases hb : r.bus t with
  | activate c b row =>
    rw [hb] at hno
    exact (if_neg fun hc => hno ⟨hc.1, hc.2.1⟩).trans h
  | read | write | preCharge =>
    dsimp only
    split
    · rfl
    · exact h
  | nop | refresh | setMode => exact h

/-- A closed bank stays closed until a row of it is opened. -/
theorem row_none (h : (r.dev t).row chip bank = none) {n : Nat}
    (hno : ∀ k, k < n → ¬ (r.bus (t + k)).Activates chip bank) : (r.dev (t + n)).row chip bank = none := by
  induction n with
  | zero => exact h
  | succ n ih =>
    rw [← Nat.add_assoc]
    exact row_none_succ (ih fun k hk => hno k (by omega)) (hno n (by omega))

/-- A row that is opened stays open until the bank is closed. -/
theorem row_some (h : (r.dev t).row chip bank = none) (ha : r.bus t = .activate chip bank row) {n : Nat}
    (hno : ∀ k, 1 ≤ k → k ≤ n → ¬ r.closes (t + k) chip bank) : (r.dev (t + n + 1)).row chip bank = some row := by
  induction n with
  | zero =>
    rw [row_succ, ha]
    exact if_pos ⟨rfl, rfl, h⟩
  | succ n ih =>
    have hn := hno (n + 1) (by omega) le_rfl
    have hrow := ih fun k h1 h2 => hno k h1 (by omega)
    rw [row_succ]
    unfold Device.rowNext
    rw [← Nat.add_assoc] at hn ⊢
    cases hb : r.bus (t + n + 1) with
    | activate c b row' =>
      refine (if_neg ?_).trans hrow
      rintro ⟨-, -, hnone⟩
      rw [hrow] at hnone
      cases hnone
    | read c b col ap =>
      refine (if_neg ?_).trans hrow
      rintro ⟨h1, h2, h3⟩
      exact hn ⟨1 + r.p.tRp, by rw [hb]; exact ⟨h1, h2, h3, le_rfl⟩⟩
    | write c b col ap =>
      refine (if_neg ?_).trans hrow
      rintro ⟨h1, h2, h3⟩
      exact hn ⟨r.p.tWr + r.p.tRp, by rw [hb]; exact ⟨h1, h2, h3, le_rfl⟩⟩
    | preCharge c all =>
      refine (if_neg ?_).trans hrow
      rintro ⟨h1, h2⟩
      exact hn ⟨r.p.tRp, by rw [hb]; exact ⟨h1, h2, le_rfl⟩⟩
    | nop | refresh | setMode => exact hrow

/-! ## Cells -/

/-- A command other than a write leaves the cells alone. -/
theorem cells_succ (hno : ∀ c b col ap, r.bus t ≠ .write c b col ap) : (r.dev (t + 1)).cells = (r.dev t).cells := by
  rw [r.dev_succ]
  show (r.dev t).cellsNext (r.bus t) _ _ = _
  funext chip bank row col
  unfold Device.cellsNext
  cases hb : r.bus t with
  | write c b col' ap => exact absurd hb (hno c b col' ap)
  | nop | activate | read | refresh | preCharge | setMode => rfl

theorem cells_add {n : Nat} (hno : ∀ k, k < n → ∀ c b col ap, r.bus (t + k) ≠ .write c b col ap) :
    (r.dev (t + n)).cells = (r.dev t).cells := by
  induction n with
  | zero => rfl
  | succ n ih =>
    rw [← Nat.add_assoc, cells_succ (hno n (by omega))]
    exact ih fun k hk => hno k (by omega)

end DeviceRun

end Z486.Sdram
