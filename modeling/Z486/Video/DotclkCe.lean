/-
One enable of the renderer's clock for each edge of the dot clock (src/soc/dotclk_ce.v). The edges are counted in a Gray
code that the renderer's clock samples through two registers, and the enables follow what it has seen, one a clock. No
edge is lost or counted twice: those that have not come out as enables are in the synchronizer, and there are never more
than three.

A step of the model is a moment with an edge of `clk`, of `dotclk` or of both. Edges that come close together are one
moment, in which each changing bit of the code is seen as it was or as it becomes.
-/
import Z486.Clocked.Bits
import Z486.Clocked.Gray
import Z486.Clocked.Run

namespace Z486.Video

open Clocked

/-! ## Registers -/

structure DotclkEdge where
  clk : Bool
  dotclk : Bool
  valid : Bool
  /-- The bits of the code that are seen new. -/
  seen : BitVec 4

structure DotclkCe where
  bcnt : BitVec 4
  gcnt : BitVec 4
  gs1 : BitVec 4
  gs2 : BitVec 4
  done : BitVec 4
  ce : Bool

namespace DotclkCe

variable (s : DotclkCe) (e : DotclkEdge)

/-- Gray back to binary. -/
def rb : BitVec 4 :=
  BitVec.ofBool (s.gs2.getLsbD 3) ++ BitVec.ofBool (s.gs2.getLsbD 3 ^^ s.gs2.getLsbD 2) ++
    BitVec.ofBool (s.gs2.getLsbD 3 ^^ s.gs2.getLsbD 2 ^^ s.gs2.getLsbD 1) ++
    BitVec.ofBool (s.gs2.getLsbD 3 ^^ s.gs2.getLsbD 2 ^^ s.gs2.getLsbD 1 ^^ s.gs2.getLsbD 0)

def gcntNext : BitVec 4 := if e.dotclk then (s.bcnt + 1) ^^^ ((s.bcnt + 1) >>> 1) else s.gcnt

def enables : Bool := e.valid && s.done != s.rb

def step : DotclkCe where
  bcnt := if e.dotclk then s.bcnt + 1 else s.bcnt
  gcnt := s.gcntNext e
  gs1 := if e.clk then mix e.seen s.gcnt (s.gcntNext e) else s.gs1
  gs2 := if e.clk then s.gs1 else s.gs2
  done := if e.clk then if !e.valid then s.rb else if s.done != s.rb then s.done + 1 else s.done else s.done
  ce := if e.clk then s.enables e else s.ce

def initial : DotclkCe := ⟨0, 0, 0, 0, 0, false⟩

end DotclkCe

/-! ## Counts -/

/-- What the registers stand for, without a width: the edges so far, those that each of the two registers has seen, and
those that are done; and the edges so far at the last two edges of `clk`. -/
structure DotCounts where
  edges : Nat
  seen1 : Nat
  seen2 : Nat
  done : Nat
  mark1 : Nat
  mark2 : Nat

def DotCounts.step (c : DotCounts) (s : DotclkCe) (e : DotclkEdge) : DotCounts :=
  let edges := if e.dotclk then c.edges + 1 else c.edges
  if e.clk then
    { edges := edges
      seen1 := if mix e.seen s.gcnt (s.gcntNext e) = s.gcnt then c.edges else edges
      seen2 := c.seen1
      done := if !e.valid then c.seen2 else if c.done < c.seen2 then c.done + 1 else c.done
      mark1 := c.edges
      mark2 := c.mark1 }
  else { c with edges := edges }

/-- The registers hold the counts, which lag behind each other by no more than the edges of a clock or two. `recent` says
that there was an edge of the dot clock at the last edge of `clk` or after it. -/
structure Lags (s : DotclkCe) (c : DotCounts) (recent : Prop) : Prop where
  bcnt : s.bcnt = BitVec.ofNat 4 c.edges
  gcnt : s.gcnt = gray (BitVec.ofNat 4 c.edges)
  gs1 : s.gs1 = gray (BitVec.ofNat 4 c.seen1)
  gs2 : s.gs2 = gray (BitVec.ofNat 4 c.seen2)
  done : s.done = BitVec.ofNat 4 c.done
  since : c.edges = c.mark1 ∨ c.edges = c.mark1 + 1 ∧ recent
  seen1 : c.mark1 ≤ c.seen1 ∧ c.seen1 ≤ c.edges
  marks : c.mark2 ≤ c.mark1 ∧ c.mark1 ≤ c.mark2 + 1
  seen2 : c.mark2 ≤ c.seen2 ∧ c.seen2 ≤ c.mark1
  lag : c.done ≤ c.seen2 ∧ c.mark2 ≤ c.done + 1

namespace Lags

variable {s : DotclkCe} {c : DotCounts} {recent : Prop}

theorem mono {recent' : Prop} (h : Lags s c recent) (hrecent : recent → recent') : Lags s c recent' :=
  { h with since := h.since.imp id fun hs => ⟨hs.1, hrecent hs.2⟩ }

theorem rb_gray : ∀ x : BitVec 4, DotclkCe.rb ⟨0, 0, 0, gray x, 0, false⟩ = x := by decide

theorem rb (h : Lags s c recent) : s.rb = BitVec.ofNat 4 c.seen2 := by
  rw [← rb_gray (BitVec.ofNat 4 c.seen2), ← h.gs2]
  rfl

theorem done_eq_iff (h : Lags s c recent) : s.done = s.rb ↔ c.done = c.seen2 := by
  have hmarks := h.marks
  have hseen := h.seen2
  have hlag := h.lag
  rw [h.rb, h.done]
  exact ⟨ofNat_inj_of_close hlag.1 (by omega), fun heq => by rw [heq]⟩

/-- The edges that have not come out as enables. -/
theorem waiting_le (h : Lags s c recent) : c.done ≤ c.edges ∧ c.edges ≤ c.done + 3 := by
  have hmarks := h.marks
  have hseen1 := h.seen1
  have hseen := h.seen2
  have hlag := h.lag
  rcases h.since with hs | ⟨hs, -⟩ <;> omega

/-- The code of the edges at the end of the moment. -/
theorem gcntNext (h : Lags s c recent) (e : DotclkEdge) :
    s.gcntNext e = gray (BitVec.ofNat 4 (if e.dotclk then c.edges + 1 else c.edges)) := by
  unfold DotclkCe.gcntNext
  cases e.dotclk
  · exact h.gcnt
  · rw [if_pos rfl, if_pos rfl, ofNat_succ, h.bcnt]
    rfl

theorem bcntNext (h : Lags s c recent) (e : DotclkEdge) :
    (s.step e).bcnt = BitVec.ofNat 4 (if e.dotclk then c.edges + 1 else c.edges) := by
  show (if e.dotclk then s.bcnt + 1 else s.bcnt) = _
  cases e.dotclk
  · exact h.bcnt
  · rw [if_pos rfl, if_pos rfl, ofNat_succ, h.bcnt]

/-- A moment without an edge of `clk`: at most one edge of the dot clock since the last. -/
theorem step_dotclk (h : Lags s c recent) {e : DotclkEdge} (hclk : e.clk = false) (hslow : e.dotclk = true → ¬ recent) :
    Lags (s.step e) (c.step s e) (recent ∨ e.dotclk = true) := by
  have hcounts : c.step s e = { c with edges := if e.dotclk then c.edges + 1 else c.edges } := by
    unfold DotCounts.step
    rw [hclk]; rfl
  have hkept : (s.step e).gs1 = s.gs1 ∧ (s.step e).gs2 = s.gs2 ∧ (s.step e).done = s.done := by
    unfold DotclkCe.step
    rw [hclk]
    exact ⟨rfl, rfl, rfl⟩
  have hseen1 := h.seen1
  rw [hcounts]
  refine ⟨h.bcntNext e, h.gcntNext e, hkept.1.trans h.gs1, hkept.2.1.trans h.gs2, hkept.2.2.trans h.done, ?_, ?_,
    h.marks, h.seen2, h.lag⟩
  · show (if e.dotclk then _ else _) = c.mark1 ∨ (if e.dotclk then _ else _) = c.mark1 + 1 ∧ _
    cases hdot : e.dotclk with
    | false => exact h.since.imp id fun hs => ⟨hs.1, .inl hs.2⟩
    | true =>
      rcases h.since with hs | ⟨-, hrecent⟩
      · exact .inr ⟨congrArg (· + 1) hs, .inr rfl⟩
      · exact absurd hrecent (hslow hdot)
  · show c.mark1 ≤ c.seen1 ∧ c.seen1 ≤ if e.dotclk then _ else _
    split <;> omega

/-- What the first register sees of a code that may be changing: one of the two counts. -/
theorem seen (h : Lags s c recent) (e : DotclkEdge) : mix e.seen s.gcnt (s.gcntNext e) =
    gray (BitVec.ofNat 4 (if mix e.seen s.gcnt (s.gcntNext e) = s.gcnt then c.edges
      else if e.dotclk then c.edges + 1 else c.edges)) := by
  by_cases hold : mix e.seen s.gcnt (s.gcntNext e) = s.gcnt
  · rw [if_pos hold, hold, h.gcnt]
  · rw [if_neg hold, ← h.gcntNext e]
    refine Or.resolve_left ?_ hold
    rw [h.gcntNext e, h.gcnt]
    cases e.dotclk
    · exact .inl (mix_self _ _)
    · rw [if_pos rfl, ofNat_succ]
      exact mix_gray_succ _ _

/-- A moment with an edge of `clk`. -/
theorem step_clk (h : Lags s c recent) {e : DotclkEdge} (hclk : e.clk = true) :
    Lags (s.step e) (c.step s e) (e.dotclk = true) := by
  have hmarks := h.marks
  have hseen1 := h.seen1
  have hseen2 := h.seen2
  have hlag := h.lag
  have hedges : c.edges ≤ c.mark1 + 1 := by rcases h.since with hs | ⟨hs, -⟩ <;> omega
  -- the counts of the moment, as the registers take them
  have hcounts : c.step s e = ⟨if e.dotclk then c.edges + 1 else c.edges,
      if mix e.seen s.gcnt (s.gcntNext e) = s.gcnt then c.edges else if e.dotclk then c.edges + 1 else c.edges, c.seen1,
      if !e.valid then c.seen2 else if c.done < c.seen2 then c.done + 1 else c.done, c.edges, c.mark1⟩ := by
    unfold DotCounts.step
    rw [if_pos hclk]
  have hgs1 : (s.step e).gs1 = mix e.seen s.gcnt (s.gcntNext e) := if_pos hclk
  have hgs2 : (s.step e).gs2 = s.gs1 := if_pos hclk
  have hdone : (s.step e).done = if !e.valid then s.rb else if s.done != s.rb then s.done + 1 else s.done := if_pos hclk
  rw [hcounts]
  refine ⟨h.bcntNext e, h.gcntNext e, hgs1.trans (h.seen e), hgs2.trans h.gs1, hdone.trans ?_, ?_, ?_, ?_, ?_, ?_⟩
  · show _ = BitVec.ofNat 4 (if !e.valid then c.seen2 else if c.done < c.seen2 then c.done + 1 else c.done)
    cases e.valid with
    | false => exact h.rb
    | true =>
      by_cases hbehind : c.done < c.seen2
      · have hne : s.done ≠ s.rb := fun heq => absurd (h.done_eq_iff.1 heq) (by omega)
        rw [bne_iff_ne.2 hne]
        show s.done + 1 = BitVec.ofNat 4 (if c.done < c.seen2 then _ else _)
        rw [if_pos hbehind, ofNat_succ, h.done]
      · have heq : s.done = s.rb := h.done_eq_iff.2 (by omega)
        rw [bne_eq_false_iff_eq.2 heq]
        show s.done = BitVec.ofNat 4 (if c.done < c.seen2 then _ else _)
        rw [if_neg hbehind, h.done]
  · show (if e.dotclk then _ else _) = c.edges ∨ (if e.dotclk then _ else _) = c.edges + 1 ∧ _
    cases e.dotclk
    · exact .inl rfl
    · exact .inr ⟨rfl, rfl⟩
  · dsimp only
    split_ifs <;> omega
  · exact ⟨hseen1.1.trans hseen1.2, hedges⟩
  · exact hseen1
  · show (if !e.valid then c.seen2 else if c.done < c.seen2 then c.done + 1 else c.done) ≤ c.seen1 ∧
      c.mark1 ≤ (if !e.valid then c.seen2 else if c.done < c.seen2 then c.done + 1 else c.done) + 1
    split_ifs <;> omega

end Lags

/-! ## Runs -/

/-- Edges of the two clocks with the dot clock slower than `clk`: from one edge of the dot clock to the next there is an
edge of `clk`. -/
structure DotclkRun where
  edge : Nat → DotclkEdge
  slower : ∀ a b, a < b → (edge a).dotclk = true → (edge b).dotclk = true → ∃ m, a < m ∧ m ≤ b ∧ (edge m).clk = true

namespace DotclkRun

variable (r : DotclkRun)

def state (m : Nat) : DotclkCe := run DotclkCe.step DotclkCe.initial r.edge m

def counts : Nat → DotCounts
  | 0 => ⟨0, 0, 0, 0, 0, 0⟩
  | m + 1 => (counts m).step (r.state m) (r.edge m)

/-- There was an edge of the dot clock at the last edge of `clk` or after it. -/
def Recent (m : Nat) : Prop := ∃ a, a < m ∧ (r.edge a).dotclk = true ∧ ∀ k, a < k → k < m → (r.edge k).clk = false

theorem lags : ∀ m, Lags (r.state m) (r.counts m) (r.Recent m)
  | 0 => by
    have hgray : (0 : BitVec 4) = gray (BitVec.ofNat 4 0) := by decide
    exact ⟨rfl, hgray, hgray, hgray, rfl, .inl rfl, ⟨le_rfl, le_rfl⟩, ⟨le_rfl, Nat.zero_le 1⟩, ⟨le_rfl, le_rfl⟩,
      ⟨le_rfl, Nat.zero_le 1⟩⟩
  | m + 1 => by
    cases hclk : (r.edge m).clk with
    | true =>
      refine ((lags m).step_clk hclk).mono fun hdot => ⟨m, Nat.lt_succ_self m, hdot, fun k h1 h2 => ?_⟩
      omega
    | false =>
      refine ((lags m).step_dotclk hclk ?_).mono ?_
      · rintro hdot ⟨a, ham, ha, hno⟩
        obtain ⟨k, hak, hkm, hk⟩ := r.slower a m ham ha hdot
        rcases Nat.lt_or_eq_of_le hkm with hlt | rfl
        · exact absurd ((hno k hak hlt).symm.trans hk) Bool.false_ne_true
        · exact absurd (hclk.symm.trans hk) Bool.false_ne_true
      · rintro (⟨a, ham, ha, hno⟩ | hdot)
        · refine ⟨a, by omega, ha, fun k h1 h2 => ?_⟩
          rcases Nat.lt_succ_iff_lt_or_eq.1 h2 with hlt | rfl
          · exact hno k h1 hlt
          · exact hclk
        · exact ⟨m, Nat.lt_succ_self m, hdot, fun k h1 h2 => by omega⟩

/-! ## Edges and enables -/

/-- The edges of the dot clock in the moments from `a` to `b`. -/
def dotEdges (a b : Nat) : Nat := pulses (fun m => (r.edge m).dotclk) a b

/-- The enables that are given in the moments from `a` to `b`, each at an edge of `clk`. -/
def enables (a b : Nat) : Nat := pulses (fun m => (r.edge m).clk && (r.state (m + 1)).ce) a b

/-- `valid` is asserted at the edges of `clk` from `a` to `b`. -/
def ValidIn (a b : Nat) : Prop := ∀ m, a ≤ m → m < b → (r.edge m).clk = true → (r.edge m).valid = true

/-- The edges that have not come out as enables. -/
def waiting (m : Nat) : Nat := (r.counts m).edges - (r.counts m).done

theorem counts_edges (m : Nat) :
    (r.counts (m + 1)).edges = (r.counts m).edges + if (r.edge m).dotclk = true then 1 else 0 := by
  show (DotCounts.step _ _ _).edges = _
  unfold DotCounts.step
  cases (r.edge m).clk <;> cases (r.edge m).dotclk <;> rfl

/-- An enable is a count that is done. -/
theorem counts_done {m : Nat} (hvalid : (r.edge m).clk = true → (r.edge m).valid = true) :
    (r.counts (m + 1)).done =
      (r.counts m).done + if ((r.edge m).clk && (r.state (m + 1)).ce) = true then 1 else 0 := by
  have h := r.lags m
  have hlag := h.lag
  show (DotCounts.step _ _ _).done = _
  unfold DotCounts.step
  cases hclk : (r.edge m).clk with
  | false => rfl
  | true =>
    have hce : (r.state (m + 1)).ce = ((r.state m).done != (r.state m).rb) := by
      show (if (r.edge m).clk then (r.state m).enables (r.edge m) else _) = _
      rw [if_pos hclk, DotclkCe.enables, hvalid hclk, Bool.true_and]
    rw [hce, hvalid hclk, Bool.true_and]
    show (if (r.counts m).done < (r.counts m).seen2 then _ else _) = _
    by_cases hbehind : (r.counts m).done < (r.counts m).seen2
    · have hne : (r.state m).done ≠ (r.state m).rb := fun heq => absurd (h.done_eq_iff.1 heq) (by omega)
      rw [if_pos hbehind, bne_iff_ne.2 hne, if_pos rfl]
    · have heq : (r.state m).done = (r.state m).rb := h.done_eq_iff.2 (by omega)
      rw [if_neg hbehind, heq, bne_self_eq_false, if_neg Bool.false_ne_true]
      rfl

/-- Over every stretch in which `valid` is asserted, the enables and the edges that wait make up for the edges: at most
three wait at any moment, those at its beginning among them. -/
theorem lossless : ∃ waiting : Nat → Nat, (∀ m, waiting m ≤ 3) ∧ ∀ a b, a ≤ b → r.ValidIn a b →
    r.enables a b + waiting b = r.dotEdges a b + waiting a := by
  refine ⟨r.waiting, fun m => ?_, fun a b hab hvalid => ?_⟩
  · have := (r.lags m).waiting_le
    unfold waiting
    omega
  · induction b, hab using Nat.le_induction with
    | base => rw [enables, dotEdges, pulses_self, pulses_self]
    | succ b hab ih =>
      have hprev := ih fun m h1 h2 => hvalid m h1 (by omega)
      have hle := (r.lags b).waiting_le
      have hle' := (r.lags (b + 1)).waiting_le
      have hedges := r.counts_edges b
      have hdone := r.counts_done (hvalid b hab (Nat.lt_succ_self b))
      unfold enables dotEdges waiting at hprev ⊢
      rw [pulses_succ _ hab, pulses_succ _ hab]
      omega

/-- Two edges of the dot clock for every five half periods of `clk`, some of them at its edges and some between them, with
each bit of the code seen old or new in turn. -/
def twoInFiveEdge (m : Nat) : DotclkEdge where
  clk := m % 2 == 0
  dotclk := m % 5 == 0 || m % 5 == 2
  valid := decide (6 ≤ m % 40)
  seen := BitVec.ofNat 4 (7 * m)

theorem twoInFiveEdge_slower (a b : Nat) (hab : a < b) (ha : (twoInFiveEdge a).dotclk = true)
    (hb : (twoInFiveEdge b).dotclk = true) : ∃ m, a < m ∧ m ≤ b ∧ (twoInFiveEdge m).clk = true := by
  simp only [twoInFiveEdge, Bool.or_eq_true, beq_iff_eq] at ha hb ⊢
  rcases Nat.mod_two_eq_zero_or_one a with heven | hodd
  · exact ⟨a + 2, by omega, by omega, by omega⟩
  · exact ⟨a + 1, by omega, by omega, by omega⟩

def twoInFive : DotclkRun := ⟨twoInFiveEdge, twoInFiveEdge_slower⟩

/-- An edge that waits at the beginning of the stretch comes out in it. -/
theorem twoInFive_lossless :
    twoInFive.ValidIn 6 40 ∧ twoInFive.enables 6 40 = 14 ∧ twoInFive.dotEdges 6 40 = 13 ∧
      ∃ waiting : Nat → Nat, (∀ m, waiting m ≤ 3) ∧ ∀ a b, a ≤ b → twoInFive.ValidIn a b →
        twoInFive.enables a b + waiting b = twoInFive.dotEdges a b + waiting a := by
  refine ⟨fun m hge hlt _ => ?_, by decide +kernel, by decide +kernel, lossless twoInFive⟩
  show decide (6 ≤ m % 40) = true
  rw [decide_eq_true_iff]
  omega

end DotclkRun

end Z486.Video
