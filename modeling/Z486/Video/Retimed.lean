/-
The order in which the re-timing buffer hands out its entries. What each side sees of the other's
pointer is a count of its past, except when the read pointer jumps in the moment the write side looks:
then any code may be seen. A jump leaves at most 55 entries unread, so the two dots that may be
accepted before the other side's pointer is seen right again still fit.
-/
import Z486.Clocked.Bits
import Z486.Video.DotResync

namespace Z486.Video

open Clocked (mix ofNat_succ ofNat_sub toNat_ofNat_sub ofNat_inj_of_close)

variable {width : Nat}

/-! ## Pointers as counts -/

/-- The code of a pointer that has counted to `n`. -/
def code (n : Nat) : BitVec 7 := bin2gray (BitVec.ofNat 7 n)

theorem code_zero : code 0 = 0 := rfl

@[simp] theorem gray2bin_code (n : Nat) : gray2bin (code n) = BitVec.ofNat 7 n := gray2bin_bin2gray _

/-- A pointer that stays or counts on is seen as one of its counts. -/
theorem mix_code (mask : BitVec 7) {n n' : Nat} (h : n' = n ∨ n' = n + 1) :
    ∃ k, mix mask (code n) (code n') = code k ∧ n ≤ k ∧ k ≤ n' := by
  rcases h with rfl | rfl
  · exact ⟨n', Clocked.mix_self mask _, le_refl _, le_refl _⟩
  · unfold code
    rw [ofNat_succ]
    rcases mix_bin2gray mask (BitVec.ofNat 7 n) with hold | hnew
    · exact ⟨n, hold, le_refl _, Nat.le_succ n⟩
    · exact ⟨n + 1, by rw [hnew, ← ofNat_succ], Nat.le_succ n, le_refl _⟩

/-! ## The write side -/

/-- The write side has accepted `W` entries while the read position is at `R`: what it sees of the read
pointer is a past position, or the unread entries are few. -/
structure WriteSide.Tracks (w : WriteSide) (W R : Nat) : Prop where
  wptr : w.wptr = BitVec.ofNat 7 W
  wptrG : w.wptrG = code W
  room : W ≤ R + 60
  lag1 : (∃ n, w.rptrGW1 = code n ∧ n ≤ R ∧ W ≤ n + 60) ∨ W ≤ R + 56
  lag2 : (∃ n, w.rptrGW2 = code n ∧ n ≤ R ∧ W ≤ n + 61) ∨ W ≤ R + 57

namespace WriteSide

variable {w : WriteSide} {W W' R R' : Nat}

/-- What an edge does to the write pointer, and to what is seen of the read pointer. -/
theorem edge_eq (w : WriteSide) (wce : Bool) (g : BitVec 7) :
    w.edge wce g =
      { wptr := if w.wen wce then w.wptrN else w.wptr
        wptrG := if w.wen wce then bin2gray w.wptrN else w.wptrG
        rptrGW1 := g
        rptrGW2 := w.rptrGW1 } := by
  unfold edge
  by_cases h : w.wen wce = true
  · simp [h]
  · simp [h]

theorem wptrGAfter_eq (w : WriteSide) (wce : Bool) (g : BitVec 7) : w.wptrGAfter wce = (w.edge wce g).wptrG := by
  rw [wptrGAfter, edge_eq, edge_eq]

/-- As the read position moves on. -/
theorem Tracks.mono (h : w.Tracks W R) (hR : R ≤ R') : w.Tracks W R' where
  wptr := h.wptr
  wptrG := h.wptrG
  room := by have := h.room; omega
  lag1 := by
    rcases h.lag1 with ⟨n, hn, hle, hW⟩ | hW
    · exact .inl ⟨n, hn, by omega, hW⟩
    · exact .inr (by omega)
  lag2 := by
    rcases h.lag2 with ⟨n, hn, hle, hW⟩ | hW
    · exact .inl ⟨n, hn, by omega, hW⟩
    · exact .inr (by omega)

/-- An entry is accepted only while there is room. -/
theorem Tracks.room_of_wen (h : w.Tracks W R) (hRW : R ≤ W) {wce : Bool} (hen : w.wen wce = true) :
    W + 1 ≤ R + 60 := by
  rcases h.lag2 with ⟨n, hn, hle, hW⟩ | hW
  · have hfull : w.wocc < 60 := by
      have := (Bool.and_eq_true _ _).mp hen
      simpa [wfull] using this.2
    have hocc : w.wocc.toNat = W - n := by
      rw [wocc, rptrW, h.wptr, hn, gray2bin_code]
      exact toNat_ofNat_sub (by omega) (by omega)
    have hlt : w.wocc.toNat < 60 := BitVec.lt_def.mp hfull
    omega
  · omega

/-- An edge of the write clock, in a moment that takes the read position from `R` to `R'` and shows
the write side one of the positions between, unless the jump leaves few entries unread. -/
theorem Tracks.edge (h : w.Tracks W R) (hRW : R ≤ W) (hR : R ≤ R') (wce : Bool) {g : BitVec 7}
    (hseen : (∃ n, g = code n ∧ R ≤ n ∧ n ≤ R') ∨ W ≤ R' + 55) :
    (w.edge wce g).Tracks (W + if w.wen wce then 1 else 0) R' := by
  have hroom : (W + if w.wen wce then 1 else 0) ≤ R + 60 := by
    by_cases hen : w.wen wce = true
    · rw [if_pos hen]; exact h.room_of_wen hRW hen
    · rw [if_neg hen]; exact h.room
  have hone : (if w.wen wce then 1 else 0) ≤ 1 := by split <;> omega
  rw [edge_eq]
  constructor
  · by_cases hen : w.wen wce = true
    · simp only [if_pos hen, wptrN, h.wptr, ← ofNat_succ]
    · simp only [if_neg hen, h.wptr, Nat.add_zero]
  · by_cases hen : w.wen wce = true
    · simp only [if_pos hen, wptrN, h.wptr, ← ofNat_succ, code]
    · simp only [if_neg hen, h.wptrG, Nat.add_zero]
  · omega
  · rcases hseen with ⟨n, hn, hle, hle'⟩ | hW
    · exact .inl ⟨n, hn, hle', by omega⟩
    · exact .inr (by omega)
  · rcases h.lag1 with ⟨n, hn, hle, hW⟩ | hW
    · exact .inl ⟨n, hn, by omega, by omega⟩
    · exact .inr (by omega)

end WriteSide

/-! ## The read side -/

/-- The read side is at position `R` after `W` entries: what it sees of the write pointer are past
counts, none of them behind its own position. -/
structure ReadSide.Tracks (r : ReadSide width) (W R : Nat) : Prop where
  rptr : r.rptr = BitVec.ofNat 7 R
  rptrG : r.rptrG = code R
  view : ∃ n₁ n₂, r.wptrGR1 = code n₁ ∧ r.wptrGR2 = code n₂ ∧ R ≤ n₂ ∧ n₂ ≤ n₁ ∧ n₁ ≤ W

namespace ReadSide

variable {r r' : ReadSide width} {W W' R : Nat}

/-- What an edge of the read clock can do with the read pointer. -/
inductive Moves (r r' : ReadSide width) : Prop
  | recentre (hidle : r.running = false ∨ r.holdR2 = true) (hocc : 20 < r.occ) (rptr : r'.rptr = r.rptrC)
      (rptrG : r'.rptrG = bin2gray r.rptrC) (pops : r.pops = false) (popQ : r'.popQ = false)
      (running : r'.running = false)
  | stay (rptr : r'.rptr = r.rptr) (rptrG : r'.rptrG = r.rptrG) (pops : r.pops = false) (popQ : r'.popQ = false)
      (running : r.running = true → r'.running = false)
  | pop (hocc : r.occ ≠ 0) (rptr : r'.rptr = r.rptrN) (rptrG : r'.rptrG = bin2gray r.rptrN) (pops : r.pops = true)
      (popQ : r'.popQ = true) (running : r'.running = true)

theorem edge_moves (r : ReadSide width) (g : BitVec 7) (hold : Bool) (entry : Dot width) :
    Moves r (r.edge g hold entry) := by
  unfold edge
  by_cases hidle : (!r.running || r.holdR2) = true
  · have hpops : r.pops = false := by
      unfold pops
      revert hidle
      cases r.running <;> cases r.holdR2 <;> simp
    simp only [hidle, if_true]
    by_cases hocc : 20 < r.occ
    · simp only [hocc, if_true]
      refine .recentre ?_ hocc rfl rfl hpops rfl rfl
      simpa using hidle
    · simp only [hocc, if_false]
      by_cases hlow : (12 ≤ r.occ && !r.holdR2) = true
      · simp only [hlow, if_true]
        refine .stay rfl rfl hpops rfl ?_
        intro hrun
        simp_all
      · simp only [hlow]
        exact .stay rfl rfl hpops rfl fun _ => rfl
  · have hon : r.running = true ∧ r.holdR2 = false := by simpa using hidle
    simp only [hidle]
    by_cases hout : (r.occ = 0 || 56 ≤ r.occ : Bool) = true
    · simp only [hout]
      exact .stay rfl rfl (by rw [pops, hout, Bool.not_true, Bool.and_false]) rfl fun _ => rfl
    · simp only [hout]
      have hin : r.occ ≠ 0 ∧ r.occ < 56 := by simpa using hout
      have hpops : r.pops = true := by
        rw [pops, hon.1, hon.2, Bool.eq_false_iff.mpr hout]
        rfl
      exact .pop hin.1 rfl rfl hpops rfl hon.1

theorem rptrGAfter_eq (r : ReadSide width) (g : BitVec 7) (hold : Bool) (entry : Dot width) :
    r.rptrGAfter = (r.edge g hold entry).rptrG := by
  unfold rptrGAfter edge
  split
  · split
    · rfl
    · split <;> rfl
  · split <;> rfl

theorem edge_seen (r : ReadSide width) (g : BitVec 7) (hold : Bool) (entry : Dot width) :
    (r.edge g hold entry).wptrGR1 = g ∧ (r.edge g hold entry).wptrGR2 = r.wptrGR1 ∧
      (r.edge g hold entry).rdataQ = entry := by
  unfold edge
  split
  · split
    · exact ⟨rfl, rfl, rfl⟩
    · split <;> exact ⟨rfl, rfl, rfl⟩
  · split <;> exact ⟨rfl, rfl, rfl⟩

/-- The fill level the read side goes by is the distance to the count it sees of the write pointer. -/
theorem Tracks.occ_eq (h : r.Tracks W R) {k : Nat} (hk : r.wptrGR2 = code k) (hR : R ≤ k) (hlt : k < R + 128) :
    r.occ.toNat = k - R := by
  rw [occ, wptrR, h.rptr, hk, gray2bin_code]
  exact toNat_ofNat_sub hR hlt

/-- How far the read pointer moves at an edge: not at all, by one, or back to the middle by five or
more, which leaves few entries unread. It never passes what it sees of the write pointer. -/
theorem Tracks.advance (h : r.Tracks W R) (hroom : W ≤ R + 60) (hm : Moves r r') {k : Nat}
    (hk : r.wptrGR2 = code k) (hRk : R ≤ k) (hkW : k ≤ W) :
    ∃ n, n = (r'.rptr - r.rptr).toNat ∧ r'.rptr = BitVec.ofNat 7 (R + n) ∧ r'.rptrG = code (R + n) ∧
      (n = 0 ∨ n = 1 ∨ W ≤ R + n + 55) ∧ R + n ≤ k ∧ (r.pops = true → n = 1) := by
  have hocc := h.occ_eq hk hRk (by omega)
  cases hm with
  | recentre hidle hfull hrptr hrptrG hpops =>
    -- the pointer goes to sixteen behind the writer, which is ahead of where it was
    have hfar : R + 21 ≤ k := by
      have : (20 : BitVec 7).toNat < r.occ.toNat := BitVec.lt_def.mp hfull
      rw [hocc] at this
      have h20 : (20 : BitVec 7).toNat = 20 := rfl
      omega
    have hmid : r.rptrC = BitVec.ofNat 7 (R + (k - 16 - R)) := by
      rw [rptrC, wptrR, hk, gray2bin_code, show (16 : BitVec 7) = BitVec.ofNat 7 16 from rfl,
        ofNat_sub (by omega)]
      congr 1
      omega
    have hdist : (r.rptrC - r.rptr).toNat = k - 16 - R := by
      rw [hmid, h.rptr, toNat_ofNat_sub (by omega) (by omega)]
      omega
    refine ⟨k - 16 - R, by rw [hrptr, hdist], by rw [hrptr, hmid], by rw [hrptrG, hmid]; rfl,
      .inr (.inr (by omega)), by omega, ?_⟩
    intro h1
    exact absurd h1 (by rw [hpops]; exact Bool.false_ne_true)
  | stay hrptr hrptrG hpops =>
    refine ⟨0, by rw [hrptr, BitVec.sub_self]; rfl, by rw [hrptr, h.rptr]; rfl, by rw [hrptrG, h.rptrG]; rfl, .inl rfl,
      hRk, ?_⟩
    intro h1
    exact absurd h1 (by rw [hpops]; exact Bool.false_ne_true)
  | pop hne hrptr hrptrG =>
    have hlt : R < k := by
      have : r.occ.toNat ≠ 0 := fun h0 => hne (BitVec.eq_of_toNat_eq h0)
      omega
    have hnext : r.rptrN = BitVec.ofNat 7 (R + 1) := by
      rw [rptrN, h.rptr, ← ofNat_succ]
    refine ⟨1, ?_, by rw [hrptr, hnext], by rw [hrptrG, hnext]; rfl, .inr (.inl rfl), hlt, fun _ => rfl⟩
    rw [hrptr, hnext, h.rptr, toNat_ofNat_sub (by omega) (by omega)]
    omega

/-- As entries are accepted. -/
theorem Tracks.mono (h : r.Tracks W R) (hW : W ≤ W') : r.Tracks W' R where
  rptr := h.rptr
  rptrG := h.rptrG
  view := by
    obtain ⟨n₁, n₂, h1, h2, hR, hle, hle'⟩ := h.view
    exact ⟨n₁, n₂, h1, h2, hR, hle, hle'.trans hW⟩

/-- An edge of the read clock that sees a count of the write pointer from `W` on. -/
theorem Tracks.edge (h : r.Tracks W R) (hroom : W ≤ R + 60) {g : BitVec 7} (hseen : ∃ n, g = code n ∧ W ≤ n ∧ n ≤ W')
    (hold : Bool) (entry : Dot width) :
    (r.edge g hold entry).Tracks W' (R + ((r.edge g hold entry).rptr - r.rptr).toNat) := by
  obtain ⟨n₁, n₂, h1, h2, hR, hn, hW⟩ := h.view
  obtain ⟨m, hm, hrptr, hrptrG, -, hle, -⟩ := h.advance hroom (edge_moves r g hold entry) h2 hR (hn.trans hW)
  obtain ⟨n, hg, hWn, hn'⟩ := hseen
  obtain ⟨hs1, hs2, -⟩ := edge_seen r g hold entry
  rw [← hm]
  exact ⟨hrptr, hrptrG, n, n₁, hs1.trans hg, hs2.trans h1, by omega, by omega, hn'⟩

end ReadSide

/-! ## The memory -/

namespace DotResync

/-- The buffer after `entries` have been accepted, with the read position at `R`: each side tracks the
other, and the last sixty-four entries stand in their slots. -/
structure Holds (s : DotResync width) (entries : List (Dot width)) (R : Nat) : Prop where
  w : s.w.Tracks entries.length R
  r : s.r.Tracks entries.length R
  mem : ∀ k (hk : k < entries.length), entries.length ≤ k + 64 → s.mem (BitVec.ofNat 6 k) = entries[k]

variable {s : DotResync width} {i : DotEdge width} {entries : List (Dot width)} {R : Nat}

/-- Entries less than sixty-four apart have slots of their own. -/
theorem slot_ne {k n : Nat} (hlt : k < n) (hle : n < k + 64) : BitVec.ofNat 6 n ≠ BitVec.ofNat 6 k :=
  fun h => hlt.ne (ofNat_inj_of_close hlt.le hle h.symm)

/-- The read position is not ahead of the entries. -/
theorem Holds.le (h : s.Holds entries R) : R ≤ entries.length := by
  obtain ⟨n₁, n₂, -, -, hR, hle, hW⟩ := h.r.view
  omega

theorem Holds.wslot_eq (h : s.Holds entries R) : s.wslot = BitVec.ofNat 6 entries.length := by
  rw [wslot, h.w.wptr, BitVec.setWidth_ofNat_of_le (by decide)]

theorem Holds.rslot_eq (h : s.Holds entries R) : s.rslot = BitVec.ofNat 6 R := by
  rw [rslot, h.r.rptr, BitVec.setWidth_ofNat_of_le (by decide)]

/-- What is written goes to a slot of no unread entry. -/
theorem Holds.wslot_ne (h : s.Holds entries R) {k : Nat} (hR : R ≤ k) (hk : k < entries.length) :
    s.wslot ≠ BitVec.ofNat 6 k := by
  rw [h.wslot_eq]
  have := h.w.room
  exact slot_ne hk (by omega)

/-- What is read while there are entries unread is the oldest of them. -/
theorem Holds.fetched_eq (h : s.Holds entries R) (hlt : R < entries.length) : s.fetched i = entries[R] := by
  have hne : (s.wslot == s.rslot) = false := by
    rw [h.rslot_eq]
    exact beq_eq_false_iff_ne.mpr (h.wslot_ne (le_refl R) hlt)
  have hroom := h.w.room
  rw [fetched, hne, Bool.and_false, if_neg Bool.false_ne_true, h.rslot_eq]
  exact h.mem R hlt (by omega)

theorem length_accepted (s : DotResync width) (i : DotEdge width) :
    (s.accepted i).length = if s.accepts i then 1 else 0 := by
  unfold accepted
  split <;> rfl

/-- The memory keeps the last entries as the next one is accepted. -/
theorem Holds.mem_step (h : s.Holds entries R) (k : Nat) (hk : k < (entries ++ s.accepted i).length)
    (hle : (entries ++ s.accepted i).length ≤ k + 64) :
    (s.step i).mem (BitVec.ofNat 6 k) = (entries ++ s.accepted i)[k] := by
  by_cases hacc : s.accepts i = true
  · have hnew : s.accepted i = [⟨i.wpix, i.wdata⟩] := by rw [accepted, if_pos hacc]
    simp only [hnew, List.length_append, List.length_singleton] at hk hle ⊢
    simp only [step, hacc, if_true, h.wslot_eq]
    rcases Nat.lt_or_ge k entries.length with hlt | hge
    · rw [Function.update_of_ne (slot_ne hlt (by omega)).symm, List.getElem_append_left hlt]
      exact h.mem k hlt (by omega)
    · obtain rfl : k = entries.length := by omega
      rw [Function.update_self, List.getElem_append_right (le_refl _)]
      simp
  · have hnone : s.accepted i = [] := by rw [accepted, if_neg hacc]
    simp only [hnone, List.append_nil] at hk hle ⊢
    simp only [step, hacc]
    exact h.mem k hk hle

/-- How far the read pointer moves in a moment. -/
def advance (s : DotResync width) (i : DotEdge width) : Nat := ((s.step i).r.rptr - s.r.rptr).toNat

/-- What the write side sees of the read pointer in a moment. -/
theorem Holds.rptrGSeen (h : s.Holds entries R) (i : DotEdge width) :
    (∃ n, s.rptrGSeen i = code n ∧ R ≤ n ∧ n ≤ R + s.advance i) ∨ entries.length ≤ R + s.advance i + 55 := by
  unfold DotResync.rptrGSeen advance step
  by_cases hr : i.rclk = true
  · obtain ⟨n₁, n₂, -, h2, hR, hn, hW⟩ := h.r.view
    obtain ⟨m, hm, -, hrptrG, hby, -, -⟩ :=
      h.r.advance h.w.room (s.r.edge_moves (s.wptrGSeen i) i.hold (s.fetched i)) h2 hR (hn.trans hW)
    simp only [hr, if_true]
    rw [← hm, s.r.rptrGAfter_eq (s.wptrGSeen i) i.hold (s.fetched i), hrptrG, h.r.rptrG]
    rcases hby with h0 | h1 | hfew
    · exact .inl (mix_code _ (.inl (by omega)))
    · exact .inl (mix_code _ (.inr (by omega)))
    · exact .inr hfew
  · simp only [hr]
    refine .inl ⟨R, ?_, le_refl R, Nat.le_add_right R _⟩
    rw [h.r.rptrG]
    exact Clocked.mix_self _ _

/-- What the read side sees of the write pointer in a moment. -/
theorem Holds.wptrGSeen (h : s.Holds entries R) (i : DotEdge width) :
    ∃ n, s.wptrGSeen i = code n ∧ entries.length ≤ n ∧ n ≤ (entries ++ s.accepted i).length := by
  rw [List.length_append, length_accepted]
  unfold DotResync.wptrGSeen
  rw [h.w.wptrG]
  by_cases hacc : s.accepts i = true
  · have hon : i.wclk = true ∧ s.w.wen i.wce = true := (Bool.and_eq_true _ _).mp hacc
    rw [if_pos hon.1, if_pos hacc, s.w.wptrGAfter_eq i.wce 0, WriteSide.edge_eq]
    simp only [hon.2, if_true, WriteSide.wptrN, h.w.wptr, ← ofNat_succ]
    exact mix_code _ (.inr rfl)
  · have hkept : (if i.wclk then s.w.wptrGAfter i.wce else s.w.wptrG) = code entries.length := by
      by_cases hw : i.wclk = true
      · have hen : s.w.wen i.wce = false := by
          rw [accepts, hw, Bool.true_and] at hacc
          exact Bool.eq_false_iff.mpr hacc
        rw [if_pos hw, s.w.wptrGAfter_eq i.wce 0, WriteSide.edge_eq]
        simp only [hen, h.w.wptrG]
        rfl
      · rw [if_neg hw, h.w.wptrG]
    rw [← h.w.wptrG, hkept, h.w.wptrG, if_neg hacc]
    exact mix_code _ (.inl rfl)

/-- What a moment keeps. -/
theorem Holds.step (h : s.Holds entries R) (i : DotEdge width) :
    (s.step i).Holds (entries ++ s.accepted i) (R + s.advance i) := by
  have hlen : (entries ++ s.accepted i).length = entries.length + if s.accepts i then 1 else 0 := by
    rw [List.length_append, length_accepted]
  constructor
  · rw [hlen]
    by_cases hw : i.wclk = true
    · have hedge := h.w.edge h.le (Nat.le_add_right R _) i.wce (h.rptrGSeen i)
      simpa only [DotResync.step, hw, if_true, accepts, Bool.true_and] using hedge
    · have hoff : i.wclk = false := Bool.eq_false_iff.mpr hw
      simpa [DotResync.step, accepts, hoff] using h.w.mono (Nat.le_add_right R (s.advance i))
  · by_cases hr : i.rclk = true
    · have hedge := h.r.edge h.w.room (h.wptrGSeen i) i.hold (s.fetched i)
      simpa only [DotResync.step, advance, hr, if_true] using hedge
    · have hoff : i.rclk = false := Bool.eq_false_iff.mpr hr
      have hstay : s.advance i = 0 := by simp [advance, DotResync.step, hoff]
      rw [hstay]
      simpa [DotResync.step, hoff] using h.r.mono (by omega : entries.length ≤ _)
  · exact h.mem_step

theorem powerUp_holds (mem : BitVec 6 → Dot width) (rdataQ : Dot width) : (powerUp mem rdataQ).Holds [] 0 where
  w := ⟨rfl, code_zero.symm, by simp, .inl ⟨0, code_zero.symm, le_refl 0, by simp⟩,
    .inl ⟨0, code_zero.symm, le_refl 0, by simp⟩⟩
  r := ⟨rfl, code_zero.symm, 0, 0, code_zero.symm, code_zero.symm, le_refl 0, le_refl 0, by simp⟩
  mem := by
    intro k hk
    exact absurd hk (Nat.not_lt_zero k)

/-- What a moment that pops an entry puts on the output. -/
theorem Holds.pop (h : s.Holds entries R) (hr : i.rclk = true) (hpop : s.r.pops = true) :
    entries[R]? = some (s.step i).r.rdataQ ∧ s.advance i = 1 := by
  obtain ⟨n₁, n₂, -, h2, hR, hn, hW⟩ := h.r.view
  obtain ⟨m, hm, -, -, -, hle, hone⟩ :=
    h.r.advance h.w.room (s.r.edge_moves (s.wptrGSeen i) i.hold (s.fetched i)) h2 hR (hn.trans hW)
  have hnew : (s.step i).r = s.r.edge (s.wptrGSeen i) i.hold (s.fetched i) := by
    simp only [DotResync.step, hr, if_true]
  have hm1 := hone hpop
  have hlt : R < entries.length := by omega
  refine ⟨?_, by rw [advance, hnew, ← hm, hm1]⟩
  rw [hnew, (s.r.edge_seen _ _ _).2.2, h.fetched_eq hlt, List.getElem?_eq_getElem hlt]

end DotResync

/-! ## Runs -/

namespace DotRun

variable (r : DotRun width)

/-- A run of `dot_resync`, whatever its edges: from the entries accepted so far, those unread are kept
until they are read; a pop hands out the oldest of them; the pops of a running period are consecutive;
the pixel enable follows the markers of the popped entries; and while the read side runs, its pointer
moves by one, with each pop. -/
structure Retimes : Prop where
  unread : ∀ t, r.position t ≤ (r.entries t).length
  kept : ∀ t, (r.state t).accepts (r.edges t) = true →
    ∀ k, r.position t ≤ k → k < (r.entries t).length → (r.state t).wslot ≠ BitVec.ofNat 6 k
  pop : ∀ t, r.pops t = true →
    (r.entries t)[r.position t]? = some (r.state (t + 1)).r.rdataQ ∧ r.position (t + 1) = r.position t + 1
  period : ∀ a n, (∀ k, k < n → (r.state (a + k)).r.running = true) → r.popped a n <:+: r.entries (a + n)
  rceOff : (r.state 0).r.rce = false
  rceEdge : ∀ t, (r.edges t).rclk = true →
    ((r.state (t + 1)).r.rce = true ↔ r.pops t = true ∧ ∃ d, (r.entries t)[r.position t]? = some d ∧ d.pix = true)
  rceKept : ∀ t, (r.edges t).rclk = false → (r.state (t + 1)).r.rce = (r.state t).r.rce
  runs : ∀ t, (r.edges t).rclk = true → (r.state t).r.running = true → (r.state (t + 1)).r.running = true →
    r.pops t = true
  moves : ∀ t, (r.state (t + 1)).r.rptr ≠ (r.state t).r.rptr →
    (r.state (t + 1)).r.rptr ≠ (r.state t).r.rptr + 1 → (r.state (t + 1)).r.running = false

theorem position_succ (t : Nat) : r.position (t + 1) = r.position t + (r.state t).advance (r.edges t) := by
  rw [position, state_succ]
  rfl

theorem holds (t : Nat) : (r.state t).Holds (r.entries t) (r.position t) := by
  induction t with
  | zero => exact DotResync.powerUp_holds _ _
  | succ t ih =>
    rw [state_succ, entries_succ, position_succ]
    exact ih.step _

theorem pop_at (t : Nat) (hpop : r.pops t = true) :
    (r.entries t)[r.position t]? = some (r.state (t + 1)).r.rdataQ ∧ r.position (t + 1) = r.position t + 1 := by
  obtain ⟨hr, hp⟩ := (Bool.and_eq_true _ _).mp hpop
  obtain ⟨hout, hone⟩ := (r.holds t).pop hr hp
  rw [position_succ, hone, state_succ]
  exact ⟨hout, rfl⟩

/-- What an edge of the read clock does, and that the read side keeps its registers without one. -/
theorem moves_at (t : Nat) (hr : (r.edges t).rclk = true) : ReadSide.Moves (r.state t).r (r.state (t + 1)).r := by
  rw [state_succ]
  simp only [DotResync.step, hr, if_true]
  exact ReadSide.edge_moves _ _ _ _

theorem kept_at (t : Nat) (hr : (r.edges t).rclk = false) : (r.state (t + 1)).r = (r.state t).r := by
  rw [state_succ]
  simp [DotResync.step, hr]

/-- While the read side runs, its position moves with the pops only. -/
theorem runs_at (t : Nat) (hr : (r.edges t).rclk = true) (hrun : (r.state t).r.running = true)
    (hrun' : (r.state (t + 1)).r.running = true) : r.pops t = true := by
  rw [pops, hr, Bool.true_and]
  cases r.moves_at t hr with
  | recentre _ _ _ _ _ _ hstop => exact absurd (hrun'.symm.trans hstop) nofun
  | stay _ _ _ _ hstop => exact absurd (hrun'.symm.trans (hstop hrun)) nofun
  | pop _ _ _ hpops => exact hpops

theorem popped_succ (a n : Nat) :
    r.popped a (n + 1) = r.popped a n ++ if r.pops (a + n) then [(r.state (a + n + 1)).r.rdataQ] else [] :=
  Clocked.journal_succ _ _

/-- The entries popped while the read side runs are those from the read position on. -/
theorem popped_eq (a : Nat) : ∀ n, (∀ k, k ≤ n → (r.state (a + k)).r.running = true) →
    ∃ m, r.position (a + n) = r.position a + m ∧ r.popped a n = ((r.entries (a + n)).drop (r.position a)).take m
  | 0, _ => ⟨0, rfl, rfl⟩
  | n + 1, hrun => by
    obtain ⟨m, hpos, hpopped⟩ := popped_eq a n fun k hk => hrun k (by omega)
    have hle := (r.holds (a + n)).le
    have hkeep : ((r.entries (a + n + 1)).drop (r.position a)).take m = r.popped a n := by
      rw [entries_succ, List.drop_append_of_le_length (by omega),
        List.take_append_of_le_length (by rw [List.length_drop]; omega), ← hpopped]
    by_cases hpop : r.pops (a + n) = true
    · obtain ⟨hout, hnext⟩ := r.pop_at (a + n) hpop
      refine ⟨m + 1, by rw [← Nat.add_assoc, hnext, hpos, Nat.add_assoc], ?_⟩
      have hget : (r.entries (a + n + 1))[r.position a + m]? = some (r.state (a + n + 1)).r.rdataQ := by
        rw [entries_succ, ← hpos, List.getElem?_append_left ((List.getElem?_eq_some_iff.mp hout).1), hout]
      rw [popped_succ, if_pos hpop, ← Nat.add_assoc, List.take_add_one, hkeep, List.getElem?_drop, hget]
      rfl
    · -- without a pop there is no edge of the read clock in this moment
      have hoff : (r.edges (a + n)).rclk = false := by
        by_contra hr
        exact hpop (r.runs_at (a + n) (by simpa using hr) (hrun n (by omega)) (hrun (n + 1) (le_refl _)))
      have hstay : r.position (a + n + 1) = r.position (a + n) := by
        rw [position, r.kept_at (a + n) hoff, BitVec.sub_self]
        rfl
      refine ⟨m, by rw [← Nat.add_assoc, hstay, hpos], ?_⟩
      rw [popped_succ, if_neg hpop, List.append_nil, ← Nat.add_assoc, hkeep]

/-- In the moment in which the read side stops, nothing is popped. -/
theorem not_pops_of_stop (t : Nat) (hstop : (r.state (t + 1)).r.running = false) : r.pops t = false := by
  by_contra hpop
  obtain ⟨hr, hp⟩ := (Bool.and_eq_true _ _).mp ((Bool.not_eq_false _).mp hpop)
  cases r.moves_at t hr with
  | recentre _ _ _ _ hpops => exact absurd (hp.symm.trans hpops) nofun
  | stay _ _ hpops => exact absurd (hp.symm.trans hpops) nofun
  | pop _ _ _ _ _ hrun => exact absurd (hrun.symm.trans hstop) nofun

theorem popped_infix (a n : Nat) (hrun : ∀ k, k < n → (r.state (a + k)).r.running = true) :
    r.popped a n <:+: r.entries (a + n) := by
  have hwindow : ∀ m, (∀ k, k ≤ m → (r.state (a + k)).r.running = true) → r.popped a m <:+: r.entries (a + m) := by
    intro m hm
    obtain ⟨len, -, hpopped⟩ := r.popped_eq a m hm
    rw [hpopped]
    exact (List.take_prefix _ _).isInfix.trans (List.drop_suffix _ _).isInfix
  cases n with
  | zero => exact List.nil_infix
  | succ n =>
    cases hlast : (r.state (a + n + 1)).r.running with
    | true =>
      refine hwindow (n + 1) fun k hk => ?_
      rcases Nat.lt_or_eq_of_le hk with hlt | rfl
      · exact hrun k hlt
      · exact hlast
    | false =>
      rw [popped_succ, r.not_pops_of_stop _ hlast, if_neg Bool.false_ne_true, List.append_nil, ← Nat.add_assoc,
        entries_succ]
      exact (hwindow n fun k hk => hrun k (by omega)).trans (List.prefix_append _ _).isInfix

/-- The pixel enable after an edge of the read clock. -/
theorem rce_edge (t : Nat) (hr : (r.edges t).rclk = true) :
    (r.state (t + 1)).r.rce = true ↔
      r.pops t = true ∧ ∃ d, (r.entries t)[r.position t]? = some d ∧ d.pix = true := by
  have hq : (r.state (t + 1)).r.popQ = r.pops t := by
    rw [pops, hr, Bool.true_and]
    cases r.moves_at t hr with
    | recentre _ _ _ _ hpops hq => rw [hq, hpops]
    | stay _ _ hpops hq => rw [hq, hpops]
    | pop _ _ _ hpops hq => rw [hq, hpops]
  rw [ReadSide.rce, hq, Bool.and_eq_true]
  constructor
  · rintro ⟨hpop, hpix⟩
    exact ⟨hpop, _, (r.pop_at t hpop).1, hpix⟩
  · rintro ⟨hpop, d, hd, hpix⟩
    refine ⟨hpop, ?_⟩
    have hsame := hd.symm.trans (r.pop_at t hpop).1
    rwa [← Option.some.inj hsame]

theorem stops_at_jump (t : Nat) (hne : (r.state (t + 1)).r.rptr ≠ (r.state t).r.rptr)
    (hne' : (r.state (t + 1)).r.rptr ≠ (r.state t).r.rptr + 1) : (r.state (t + 1)).r.running = false := by
  cases hr : (r.edges t).rclk with
  | false => exact absurd (by rw [r.kept_at t hr]) hne
  | true =>
    cases r.moves_at t hr with
    | recentre _ _ _ _ _ _ hstop => exact hstop
    | stay hrptr => exact absurd hrptr hne
    | pop _ hrptr => exact absurd hrptr hne'

theorem retimes : r.Retimes where
  unread t := (r.holds t).le
  kept t _ k hR hk := (r.holds t).wslot_ne hR hk
  pop := r.pop_at
  period := r.popped_infix
  rceOff := rfl
  rceEdge := r.rce_edge
  rceKept t hr := by rw [r.kept_at t hr]
  runs := r.runs_at
  moves := r.stops_at_jump

/-- With a dot at every edge of the write clock and both clocks at the same rate, the read side starts
behind the writer and hands out the dots from the first on. -/
example : DotRun.popped
    { mem := fun _ => ⟨false, 0⟩, rdataQ := ⟨false, 0⟩
      edges := fun t => { wclk := true, rclk := true, wce := true, wpix := true, wdata := BitVec.ofNat 8 t,
                          hold := false, rptrSeen := 0, wptrSeen := 0, clash := ⟨false, 0⟩ } } 0 18 =
    [⟨true, 0⟩, ⟨true, 1⟩, ⟨true, 2⟩] := by decide

end DotRun

end Z486.Video
