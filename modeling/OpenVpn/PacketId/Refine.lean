import OpenVpn.PacketId.Window

/-!
# The replay window refines the sliding window

`Base.SlidingWindow` says what the receive side is for: it remembers every id
accepted under the current time base. The code remembers one cell per recent
id. `Tracks` relates the two states — each cell says what the abstract window
knows of its id — and is kept by a whole arrival (`Tracks.receive`): the
expiry pass, the test, and the update when the test accepts.

The clock matters in one place. A cell holds the clock of the acceptance, and
the values `SEQ_UNSEEN` and `SEQ_EXPIRED` are spent on other purposes, so
`packet_id_add` does not mark the cell at clock readings up to `SEQ_EXPIRED`.
-/

namespace OpenVpn

open Base List Option Nat Int Prod

/-- The value of a cell says what the window knows of the cell's id. -/
def CellOk (back : Int) (w : SlidingWindow Int) (id : Nat) (v : Int) : Prop :=
  w.Expired back id ∧ v = SEQ_EXPIRED ∨
  ¬ w.Expired back id ∧ ((id, v) ∈ w.seen ∨ ¬ w.Seen id ∧ v = SEQ_UNSEEN)

/-- The facts about the abstract window that the cells rely on, at clock `c`:
no acceptance has a reserved clock value, and none lies in the future. -/
structure ClockOk (c : Int) (w : SlidingWindow Int) : Prop where
  seen : ∀ k t, (k, t) ∈ w.seen → 0 < k ∧ k ≤ w.high ∧ SEQ_EXPIRED < t ∧ t ≤ c
  unique : ∀ k t t', (k, t) ∈ w.seen → (k, t') ∈ w.seen → t = t'
  reaped : w.reaped ≤ c

/-- The receive state `p` with cells `l` represents the window `w` at clock
`c`, for a window of `width` ids and a time backtrack of `back` seconds. -/
structure Tracks (width : Nat) (back c : Int) (p : PacketIdRec) (l : CircList Int)
    (w : SlidingWindow Int) : Prop where
  mode : BacktrackMode p l
  width_eq : p.seqBacktrack = width
  back_eq : p.timeBacktrack = back
  back_nonneg : 0 ≤ back
  base : p.time = w.base
  high : p.id = w.high
  size : l.xSize = min p.id p.seqBacktrack
  cells : ∀ i < l.xSize, ∃ v, l.items[i]? = some v ∧ CellOk back w (p.id - i) v
  clock : ClockOk c w

section Relation

variable {width : Nat} {back c now : Int} {p : PacketIdRec} {l : CircList Int}
  {w : SlidingWindow Int}

theorem ClockOk.later (hc : ClockOk c w) (hle : c ≤ now) : ClockOk now w :=
  ⟨fun k t h => by have := hc.seen k t h; omega, hc.unique, hc.reaped.trans hle⟩

variable {id : Nat}

theorem CellOk.eq_expired_iff {v : Int} (hc : ClockOk c w) (h : CellOk back w id v) :
    v = SEQ_EXPIRED ↔ w.Expired back id := by
  rcases h with ⟨he, rfl⟩ | ⟨hne, hmem | ⟨-, rfl⟩⟩
  · simp [he]
  · have := (hc.seen _ _ hmem).2.2.1
    exact ⟨fun h => absurd h (by omega), fun h => absurd h hne⟩
  · exact ⟨fun h => absurd h (by decide), fun h => absurd h hne⟩

theorem CellOk.eq_unseen_iff {v : Int} (hc : ClockOk c w) (h : CellOk back w id v) :
    v = SEQ_UNSEEN ↔ ¬ w.Seen id ∧ ¬ w.Expired back id := by
  rcases h with ⟨he, rfl⟩ | ⟨hne, hmem | ⟨hns, rfl⟩⟩
  · exact ⟨fun h => absurd h (by decide), fun h => absurd he h.2⟩
  · have := (hc.seen _ _ hmem).2.2.1
    simp only [SEQ_EXPIRED] at this
    exact ⟨fun h => absurd h (by unfold SEQ_UNSEEN; omega), fun h => absurd ⟨v, hmem⟩ h.1⟩
  · simp [hns, hne]

section

variable (h : Tracks width back c p l w)

include h

theorem Tracks.later (hle : c ≤ now) : Tracks width back now p l w :=
  { h with clock := h.clock.later hle }

/-- **Same verdict.** The test accepts what the abstract window accepts. -/
theorem Tracks.admits_iff (pin : PacketIdNet) :
    Admits p l pin ↔ w.Accepts width back pin.time pin.id := by
  unfold Admits SlidingWindow.Accepts
  rw [h.base, h.high, ← h.width_eq, eq_comm (a := pin.time)]
  refine and_congr_right fun h0 => or_congr_right (and_congr_right fun _ => ?_)
  by_cases hgt : w.high < pin.id
  · simp [hgt]
  simp only [hgt, false_or]
  have hsize := h.size
  rw [h.high] at hsize
  by_cases hd : w.high - pin.id < l.xSize
  · obtain ⟨v, hv, hcell⟩ := h.cells _ hd
    have hid : p.id - (w.high - pin.id) = pin.id := by rw [h.high]; omega
    rw [hid] at hcell
    rw [hv, some_inj, hcell.eq_unseen_iff h.clock]
    exact ⟨fun hns => ⟨by omega, hns⟩, fun hns => hns.2⟩
  · rw [getElem?_eq_none (by simpa using hd)]
    exact ⟨fun hcell => absurd hcell (by simp), fun hns => absurd hns.1 (by omega)⟩

/-! ### The expiry pass -/

/-- A cell that makes the reap loop expire it and everything behind it. -/
def Due (back now t : Int) : Prop := t = SEQ_EXPIRED ∨ t ≠ 0 ∧ t + back < now

/-- Cell `i`, or one before it, is due. -/
def DueUpTo (back now : Int) (ts : List Int) (i : Nat) : Prop :=
  ∃ j ≤ i, ∃ t, ts[j]? = some t ∧ Due back now t

variable {t : Int}

omit h in
theorem dueUpTo_cons (ts : List Int) (i : Nat) (ht : ¬ Due back now t) :
    DueUpTo back now (t :: ts) (i + 1) ↔ DueUpTo back now ts i := by
  constructor
  · rintro ⟨j, hj, t', hget, hd⟩
    cases j with
    | zero => cases hget; exact absurd hd ht
    | succ j => exact ⟨j, le_of_succ_le_succ hj, t', hget, hd⟩
  · rintro ⟨j, hj, h⟩
    exact ⟨j + 1, succ_le_succ hj, h⟩

variable {i : Nat}

omit h in
/-- The early exit of the reap loop does no harm: on a list whose expired cells
are followed by expired cells only, a cell is expired iff it, or one before it,
is due. -/
theorem reapItems_getElem? (back now : Int) (expire : Bool) (ts : List Int)
    (hts : ts.Pairwise fun t t' => t = SEQ_EXPIRED → t' = SEQ_EXPIRED) (hi : ts[i]? = some t) :
    (expire = true ∨ DueUpTo back now ts i →
      (reapItems back now expire ts)[i]? = some SEQ_EXPIRED) ∧
    (¬ (expire = true ∨ DueUpTo back now ts i) → (reapItems back now expire ts)[i]? = some t) := by
  induction ts generalizing expire i with
  | nil => cases hi
  | cons s ts ih =>
    have hhead : Due back now s → DueUpTo back now (s :: ts) i :=
      fun hd => ⟨0, zero_le i, s, rfl, hd⟩
    obtain ⟨hs, hts⟩ := pairwise_cons.mp hts
    unfold reapItems
    by_cases hexp : s = SEQ_EXPIRED
    · -- the loop stops here, in front of expired cells
      have ht : t = SEQ_EXPIRED := by
        rcases mem_cons.mp (mem_of_getElem? hi) with rfl | hmem
        · exact hexp
        · exact hs t hmem hexp
      rw [if_pos hexp, hi, ht]
      exact ⟨fun _ => rfl, fun _ => rfl⟩
    have hdue : Due back now s ↔ s ≠ 0 ∧ s + back < now := by simp [Due, hexp]
    rw [if_neg hexp]
    by_cases hx : expire = true ∨ Due back now s
    · -- from here on everything expires
      rw [if_pos (by simpa [hdue] using hx)]
      refine ⟨fun _ => ?_, fun h => absurd (hx.imp_right hhead) h⟩
      cases i with
      | zero => rfl
      | succ i => exact (ih true hts hi).1 (.inl rfl)
    · rw [if_neg (by simpa [hdue] using hx)]
      obtain ⟨he, hnd⟩ := not_or.mp hx
      cases i with
      | zero =>
        refine ⟨?_, fun _ => hi⟩
        rintro (h | ⟨j, hj, s', hget, hd⟩)
        · exact absurd h he
        · cases le_zero.mp hj
          cases hget
          exact absurd hd hnd
      | succ i => simpa [he, dueUpTo_cons ts i hnd] using ih false hts hi

theorem Tracks.dueUpTo_iff (hle : c ≤ now) (hback : back ≠ 0) (hi : i < l.xSize) :
    DueUpTo back now l.items i ↔ (w.reap now).Expired back (p.id - i) := by
  have hsize := h.size
  constructor
  · rintro ⟨j, hj, t, hget, hd⟩
    obtain ⟨v, hv, hcell⟩ := h.cells j (by omega)
    cases hget.symm.trans hv
    have hid : p.id - i ≤ p.id - j := by omega
    have hreap := h.clock.reaped.trans hle
    rcases hd with hexp | ⟨h0, hlt⟩
    · exact (((hcell.eq_expired_iff h.clock).mp hexp).reap hreap).mono hid
    · rcases hcell with ⟨hexp, -⟩ | ⟨-, hmem | ⟨-, rfl⟩⟩
      · exact (hexp.reap hreap).mono hid
      · exact ⟨hback, _, _, hmem, hid, hlt⟩
      · exact absurd rfl h0
  · rintro ⟨-, k, t, hmem, hk, hlt⟩
    obtain ⟨-, hk', ht, -⟩ := h.clock.seen k t hmem
    have hhigh := h.high
    obtain ⟨v, hv, hcell⟩ := h.cells (p.id - k) (by omega)
    refine ⟨p.id - k, by omega, v, hv, ?_⟩
    rw [show p.id - (p.id - k) = k by omega] at hcell
    rcases hcell with ⟨-, rfl⟩ | ⟨-, hv' | ⟨hns, -⟩⟩
    · exact .inl rfl
    · cases h.clock.unique k t v hmem hv'
      refine .inr ⟨?_, hlt⟩
      rintro rfl
      exact absurd ht (by decide)
    · exact absurd ⟨t, hmem⟩ hns

theorem Tracks.expired_suffix :
    l.items.Pairwise fun t t' => t = SEQ_EXPIRED → t' = SEQ_EXPIRED := by
  rw [pairwise_iff_getElem]
  intro i j hi hj hij hexp
  rw [l.items_length] at hi hj
  obtain ⟨v, hv, hcell⟩ := h.cells i hi
  obtain ⟨v', hv', hcell'⟩ := h.cells j hj
  rw [(List.getElem?_eq_some_iff.mp hv).2, hcell.eq_expired_iff h.clock] at hexp
  rw [(List.getElem?_eq_some_iff.mp hv').2, hcell'.eq_expired_iff h.clock]
  exact hexp.mono (by omega)

/-- The reap pass is an expiry pass of the window. -/
theorem Tracks.reap (hle : c ≤ now) : ∃ p' l',
    packetIdReap now p = some p' ∧ Tracks width back now p' l' (w.reap now) := by
  obtain ⟨l', hreap, hcap, hits⟩ := packetIdReap_eq h.mode now
  have hsize : l'.xSize = l.xSize := by
    rw [← l'.items_length, hits, ← l.items_length]
    split <;> simp
  refine ⟨_, l', hreap, ?_⟩
  exact
    { mode := ⟨h.mode.initialized, rfl, hcap.trans h.mode.cap, h.mode.cap_le,
        by rw [hsize]; exact h.mode.size⟩
      width_eq := h.width_eq
      back_eq := h.back_eq
      back_nonneg := h.back_nonneg
      base := h.base
      high := h.high
      size := hsize.trans h.size
      clock := ⟨(h.clock.later hle).seen, h.clock.unique, le_refl now⟩
      cells := by
        intro i hi
        rw [hsize] at hi
        obtain ⟨v, hv, hcell⟩ := h.cells i hi
        rw [hits, h.back_eq]
        by_cases hback : back = 0
        · -- nothing expires
          refine ⟨v, by simpa [hback] using hv, ?_⟩
          simpa [CellOk, SlidingWindow.Expired, hback] using hcell
        · rw [if_pos hback]
          obtain ⟨hdue, hnot⟩ := reapItems_getElem? back now false l.items
            h.expired_suffix hv
          simp only [Bool.false_eq_true, false_or, h.dueUpTo_iff hle hback hi] at hdue hnot
          by_cases hexp : (w.reap now).Expired back (p.id - i)
          · exact ⟨_, hdue hexp, .inl ⟨hexp, rfl⟩⟩
          · refine ⟨v, hnot hexp, .inr ⟨hexp, ?_⟩⟩
            rcases hcell with ⟨hold, -⟩ | ⟨-, hv⟩
            · exact absurd (hold.reap (h.clock.reaped.trans hle)) hexp
            · exact hv }

/-! ### The update -/

end

variable {time : Int}

theorem expired_accept_iff {j : Nat} (hb : 0 ≤ back) (hr : w.reaped ≤ now) (ht : ¬ w.base < time) :
    (w.accept now time id).Expired back j ↔ w.Expired back j := by
  unfold SlidingWindow.accept SlidingWindow.Expired
  rw [if_neg ht]
  refine and_congr_right fun _ => ⟨?_, ?_⟩
  · rintro ⟨k, t, hmem, hk, hlt⟩
    rcases mem_cons.mp hmem with heq | hmem
    · cases heq
      simp only at hlt
      omega
    · exact ⟨k, t, hmem, hk, hlt⟩
  · rintro ⟨k, t, hmem, hk, hlt⟩
    exact ⟨k, t, mem_cons_of_mem _ hmem, hk, hlt⟩

theorem not_expired_accept_newBase {j : Nat} (hb : 0 ≤ back) (hr : w.reaped ≤ now)
    (ht : w.base < time) : ¬ (w.accept now time id).Expired back j := by
  unfold SlidingWindow.accept SlidingWindow.Expired
  rw [if_pos ht]
  rintro ⟨-, k, t, hmem, -, hlt⟩
  cases mem_singleton.mp hmem
  simp only at hlt
  omega

theorem mem_seen_accept {k : Nat} :
    (k, t) ∈ (w.accept now time id).seen ↔
      (k = id ∧ t = now) ∨ ¬ w.base < time ∧ (k, t) ∈ w.seen := by
  unfold SlidingWindow.accept
  split
  · simp [*]
  · simp [*]

theorem ClockOk.accept (hc : ClockOk c w) (hle : c ≤ now) (hnow : SEQ_EXPIRED < now)
    (hacc : w.Accepts width back time id) : ClockOk now (w.accept now time id) := by
  have hhigh : id ≤ (w.accept now time id).high ∧
      (¬ w.base < time → w.high ≤ (w.accept now time id).high) := by
    unfold SlidingWindow.accept
    split
    · exact ⟨le_refl _, fun h => absurd ‹_› h⟩
    · exact ⟨le_max_right .., fun _ => le_max_left ..⟩
  -- an id accepted under the same base was not seen before
  have hfr : ¬ w.base < time → ¬ w.Seen id := by
    intro hb hs
    obtain ⟨-, hb' | ⟨-, hgt | ⟨-, hns, -⟩⟩⟩ := hacc
    · exact hb hb'
    · obtain ⟨t, ht⟩ := hs
      exact absurd (hc.seen _ _ ht).2.1 (by omega)
    · exact hns hs
  refine ⟨fun k t h => ?_, fun k t t' h h' => ?_, ?_⟩
  · rcases mem_seen_accept.mp h with ⟨rfl, rfl⟩ | ⟨hb, h⟩
    · have := hacc.1
      omega
    · have := hc.seen k t h
      have := hhigh.2 hb
      omega
  · rcases mem_seen_accept.mp h with ⟨rfl, rfl⟩ | ⟨hb, hold⟩
    · rcases mem_seen_accept.mp h' with ⟨-, rfl⟩ | ⟨hb, hold'⟩
      · rfl
      · exact absurd ⟨t', hold'⟩ (hfr hb)
    · rcases mem_seen_accept.mp h' with ⟨rfl, rfl⟩ | ⟨-, hold'⟩
      · exact absurd ⟨t, hold⟩ (hfr hb)
      · exact hc.unique k t t' hold hold'
  · unfold SlidingWindow.accept
    split
    · exact hc.reaped.trans hle
    · exact hc.reaped.trans hle

section

variable (h : Tracks width back c p l w)

include h

theorem Tracks.addedId_eq (now : Int) (pin : PacketIdNet) :
    addedId p l pin = (w.accept now pin.time pin.id).high := by
  have hpos := h.mode.seqBacktrack_pos
  have hsize := h.size
  have hbase := h.base
  have hhigh := h.high
  unfold addedId SlidingWindow.accept
  by_cases hb : w.base < pin.time
  · simp [startsNewList, hbase, hb]
  · simp only [hb, if_false]
    split
    · next hs =>
        have habove := startsNewList_eq_true hpos hsize (hbase ▸ hb) hs
        clear hsize
        omega
    · rw [hhigh]

/-- A cell after `packet_id_add` agrees with the window on its id. -/
theorem Tracks.addedCell_ok (hle : c ≤ now)
    (hnow : SEQ_EXPIRED < now) {pin : PacketIdNet} (hacc : w.Accepts width back pin.time pin.id)
    (hi : i < min (addedId p l pin) p.seqBacktrack) :
    CellOk back (w.accept now pin.time pin.id) (addedId p l pin - i)
      (addedCell now p l pin i) := by
  rw [Nat.lt_min] at hi
  have hb := h.back_nonneg
  have hr := h.clock.reaped.trans hle
  have hle' : pin.id ≤ addedId p l pin := by unfold addedId; split <;> omega
  have hseen := h.clock.seen
  unfold addedCell
  by_cases hself : i = addedId p l pin - pin.id
  · -- the cell of the accepted id
    rw [if_pos ⟨hself, hnow⟩, show addedId p l pin - i = pin.id by omega]
    refine .inr ⟨?_, .inl (mem_seen_accept.mpr (.inl ⟨rfl, rfl⟩))⟩
    by_cases hbase : w.base < pin.time
    · exact not_expired_accept_newBase hb hr hbase
    · rw [expired_accept_iff hb hr hbase]
      obtain ⟨-, hb' | ⟨-, hgt | ⟨-, -, hne⟩⟩⟩ := hacc
      · exact absurd hb' hbase
      · rintro ⟨-, k, t, hmem, hk, -⟩
        have := hseen k t hmem
        omega
      · exact hne
  rw [if_neg (fun h => hself h.1)]
  by_cases hbase : w.base < pin.time
  · -- a new base: nothing else is seen
    have hs : startsNewList p l pin = true := by simp [startsNewList, h.base, hbase]
    rw [if_pos (.inl hs)]
    refine .inr ⟨not_expired_accept_newBase hb hr hbase, .inr ⟨?_, rfl⟩⟩
    rintro ⟨t, ht⟩
    rcases mem_seen_accept.mp ht with ⟨hk, -⟩ | ⟨hn, -⟩
    · omega
    · exact hn hbase
  have hnotSelf : ∀ t, (addedId p l pin - i, t) ∈ (w.accept now pin.time pin.id).seen ↔
      (addedId p l pin - i, t) ∈ w.seen := by
    intro t
    rw [mem_seen_accept]
    exact ⟨fun h => h.elim (fun h => by omega) (fun h => h.2), fun h => .inr ⟨hbase, h⟩⟩
  have hhigh := h.high
  unfold CellOk SlidingWindow.Seen
  simp only [hnotSelf, expired_accept_iff hb hr hbase]
  by_cases hfr : startsNewList p l pin = true ∨ i < pin.id - p.id
  · -- an id above the highest one so far
    rw [if_pos hfr]
    have habove : p.id < addedId p l pin - i := by
      rcases hfr with hs | hsh
      · have htop : addedId p l pin = pin.id := if_pos hs
        have hjump := startsNewList_eq_true h.mode.seqBacktrack_pos h.size (h.base ▸ hbase) hs
        omega
      · omega
    refine .inr ⟨?_, .inr ⟨?_, rfl⟩⟩
    · rintro ⟨-, k, t, hmem, hk, -⟩
      have := hseen k t hmem
      omega
    · rintro ⟨t, hmem⟩
      have := hseen _ t hmem
      omega
  · -- an id that keeps its cell
    rw [if_neg hfr]
    rw [not_or] at hfr
    have htop : addedId p l pin = max p.id pin.id := by
      unfold addedId
      rw [if_neg hfr.1]
    obtain ⟨v, hv, hcell⟩ := h.cells (i - (pin.id - p.id)) (by rw [h.size]; omega)
    rw [getD_eq_getElem?_getD, hv, getD_some,
      show addedId p l pin - i = p.id - (i - (pin.id - p.id)) by omega]
    exact hcell

theorem Tracks.add (hle : c ≤ now)
    (hnow : SEQ_EXPIRED < now) (pin : PacketIdNet)
    (hacc : w.Accepts width back pin.time pin.id) : ∃ p' l', packetIdAdd now p pin = some p' ∧
      Tracks width back now p' l' (w.accept now pin.time pin.id) := by
  obtain ⟨l', hadd, hcap, hsize, hcells⟩ :=
    packetIdAdd_eq h.mode ((h.admits_iff pin).mpr hacc) now
  have hid := h.addedId_eq now pin
  refine ⟨_, l', hadd, ?_⟩
  exact
    { mode := ⟨h.mode.initialized, rfl, hcap, h.mode.cap_le, .inr hsize⟩
      width_eq := h.width_eq
      back_eq := h.back_eq
      back_nonneg := h.back_nonneg
      base := by
        unfold SlidingWindow.accept
        split
        · rfl
        · rename_i hb
          exact (hacc.2.resolve_left hb).1.symm
      high := hid
      size := hsize
      clock := h.clock.accept hle hnow hacc
      cells := fun i hi => ⟨_, hcells i hi, h.addedCell_ok hle hnow hacc (hsize ▸ hi)⟩ }

/-- **One arrival.** The code and the abstract window take matching steps with
the same verdict. -/
theorem Tracks.receive (a : Arrival Int) (hle : c ≤ a.now)
    (hnow : SEQ_EXPIRED < a.now) : ∃ p' w' ok, packetIdReceive p a = some (p', ok) ∧
      SlidingWindow.step width back w a = some (w', ok) ∧
      ∃ l', Tracks width back a.now p' l' w' := by
  -- the expiry pass
  obtain ⟨p1, l1, hreap, h1⟩ : ∃ p1 l1,
      (if a.reap then packetIdReap a.now p else some p) = some p1 ∧
      Tracks width back a.now p1 l1 (w.tick a) := by
    unfold SlidingWindow.tick
    split
    · exact h.reap hle
    · exact ⟨p, l, rfl, h.later hle⟩
  have hiff := h1.admits_iff (pinOf a)
  unfold packetIdReceive SlidingWindow.step
  rw [hreap, bind_some]
  -- the test leaves everything but the statistics alone
  have hstat : ∀ n, Tracks width back a.now { p1 with maxBacktrackStat := n } l1 (w.tick a) :=
    fun n => { h1 with mode := h1.mode.withStat n }
  by_cases hacc : (w.tick a).Accepts width back a.time a.id
  · obtain ⟨n, p', hadd, hstep⟩ := packetIdTestAdd_accept h1.mode (hiff.mpr hacc) a.now
    obtain ⟨p'', l', hadd', h'⟩ := (hstat n).add (le_refl _) hnow (pinOf a) hacc
    cases hadd.symm.trans hadd'
    exact ⟨p', _, true, hstep, if_pos hacc, l', h'⟩
  · obtain ⟨n, hstep⟩ := packetIdTestAdd_reject h1.mode (mt hiff.mp hacc) a.now
    exact ⟨_, _, false, hstep, if_neg hacc, l1, hstat n⟩

end

end Relation

theorem tracks_init {seqBacktrack timeBacktrack : Int}
    (hseq : 1 ≤ seqBacktrack ∧ seqBacktrack ≤ MAX_SEQ_BACKTRACK)
    (htime : MIN_TIME_BACKTRACK ≤ timeBacktrack ∧ timeBacktrack ≤ MAX_TIME_BACKTRACK) :
    ∃ pid l, packetIdInit seqBacktrack timeBacktrack = some pid ∧
      Tracks seqBacktrack.toNat timeBacktrack 0 pid.recv l (.initial 0) := by
  obtain ⟨p, l, hrecv, hm, hsize, hf⟩ := packetIdInitRecv_eq hseq htime
  refine ⟨_, l, by rw [packetIdInit, hrecv], ?_⟩
  exact
    { mode := hm
      width_eq := hf.seqBacktrack
      back_eq := hf.timeBacktrack
      back_nonneg := htime.1
      base := hf.time
      high := hf.id
      size := by rw [hsize, hf.id, zero_min]
      cells := fun i hi => absurd hi (by omega)
      clock := ⟨fun k t h => absurd h not_mem_nil,
        fun k t t' h => absurd h not_mem_nil, le_refl 0⟩ }

/-- **The replay window refines the sliding window.** From an empty window, for
every sequence of arrivals under a clock that never goes back and stays above
the two reserved values, the code never aborts and gives the verdicts of the
abstract window; so no pair of time and id is accepted twice. -/
theorem packetIdReceive_refines (seqBacktrack timeBacktrack : Int)
    (hseq : 1 ≤ seqBacktrack ∧ seqBacktrack ≤ MAX_SEQ_BACKTRACK)
    (htime : MIN_TIME_BACKTRACK ≤ timeBacktrack ∧ timeBacktrack ≤ MAX_TIME_BACKTRACK)
    (as : List (Arrival Int)) (hmono : (as.map Arrival.now).Pairwise (· ≤ ·))
    (hclock : ∀ a ∈ as, SEQ_EXPIRED < a.now) :
    ∃ pid p w verdicts, packetIdInit seqBacktrack timeBacktrack = some pid ∧
      run packetIdReceive pid.recv as = some (p, verdicts) ∧
      run (SlidingWindow.step seqBacktrack.toNat timeBacktrack) (.initial 0) as =
        some (w, verdicts) ∧
      ((accepted as verdicts).map fun a => (a.time, a.id)).Nodup := by
  obtain ⟨pid, l, hinit, htracks⟩ := tracks_init hseq htime
  obtain ⟨-, p, w, verdicts, hcode, hspec, -⟩ := run_simulates
    (R := fun c p w => ∃ l, Tracks seqBacktrack.toNat timeBacktrack c p l w)
    (fun c p w a ⟨l, h⟩ hle hnow => h.receive a hle hnow) ⟨l, htracks⟩
    (fun a ha => by have := hclock a ha; unfold SEQ_EXPIRED at this; omega) hmono hclock
  exact ⟨pid, p, w, verdicts, hinit, hcode, hspec, SlidingWindow.accepted_nodup hspec⟩

/-- Reordered ids, a repetition, an id that an expiry pass expired, and a new
time base. -/
def reorderedArrivals : List (Arrival Int) :=
  [⟨100, true, 7, 2⟩, ⟨100, false, 7, 1⟩, ⟨101, true, 7, 2⟩, ⟨103, false, 7, 5⟩,
    ⟨120, true, 7, 4⟩, ⟨120, false, 8, 1⟩]

theorem packetIdReceive_refines_reordered :
    ∃ pid p w verdicts, packetIdInit 3 10 = some pid ∧
      run packetIdReceive pid.recv reorderedArrivals = some (p, verdicts) ∧
      run (SlidingWindow.step 3 10) (.initial 0) reorderedArrivals = some (w, verdicts) ∧
      ((accepted reorderedArrivals verdicts).map fun a => (a.time, a.id)).Nodup :=
  packetIdReceive_refines 3 10 (by decide) (by decide) reorderedArrivals (by decide) (by decide)

example : (run (SlidingWindow.step 3 10) (.initial 0) reorderedArrivals).map snd =
    some [true, true, false, true, false, true] := by decide

/-- At a clock reading of `1` the cell of an accepted id is left unmarked, and
the same packet is accepted again; the abstract window rejects it. -/
theorem packetIdReceive_repeats_at_clock_one :
    (packetIdInit 1 0).bind (fun pid =>
      (run packetIdReceive pid.recv [⟨1, true, 0, 1⟩, ⟨1, true, 0, 1⟩]).map snd) =
        some [true, true] ∧
    (run (SlidingWindow.step 1 0) (.initial (0 : Int))
      [⟨1, true, 0, 1⟩, ⟨1, true, 0, 1⟩]).map snd = some [true, false] := by
  decide

end OpenVpn
