import Mathlib.Data.List.GetD
import OpenVpn.PacketId.Window

/-!
# The early exit of the reaper

`packet_id_reap` stops at the first expired cell. A cell that expires takes the older ones
with it, and nothing puts a live cell behind an expired one.

* `ExpiredLast` — behind an expired cell there are expired cells only.
* `reapAllItems` — a pass over all cells; `ExpiredLast.reapItems_eq` compares the two.
* `reap_early_exit_sound` — they agree in every reachable state.
-/

namespace OpenVpn

open Base List

/-- Behind an expired cell there are expired cells only. -/
def ExpiredLast (ts : List Int) : Prop := ts.Pairwise fun t t' => t = SEQ_EXPIRED → t' = SEQ_EXPIRED

/-- A reaper that scans all cells. -/
def reapAllItems (timeBacktrack now : Int) : Bool → List Int → List Int
  | _, [] => []
  | expire, t :: ts =>
    let expire := expire || (decide (t ≠ 0) && decide (t + timeBacktrack < now))
    (if expire then SEQ_EXPIRED else t) :: reapAllItems timeBacktrack now expire ts

variable {tb now : Int} {expire : Bool} {ts : List Int}

theorem reapAllItems_expired (h : ∀ t ∈ ts, t = SEQ_EXPIRED) :
    reapAllItems tb now expire ts = ts := by
  induction ts generalizing expire with
  | nil => rfl
  | cons t ts ih =>
    obtain ⟨rfl, hts⟩ := forall_mem_cons.mp h
    simp [reapAllItems, ih hts]

theorem ExpiredLast.reapItems_eq (h : ExpiredLast ts) :
    reapItems tb now expire ts = reapAllItems tb now expire ts := by
  induction ts generalizing expire with
  | nil => rfl
  | cons t ts ih =>
    obtain ⟨hhead, htail⟩ := pairwise_cons.mp h
    unfold reapItems
    split
    case isTrue ht =>
      exact (reapAllItems_expired (forall_mem_cons.mpr ⟨ht, fun t' h' => hhead t' h' ht⟩)).symm
    case isFalse =>
      unfold reapAllItems
      generalize (expire || (decide (t ≠ 0) && decide (t + tb < now))) = x
      cases x <;> simp [ih htail]

theorem mem_reapItems_true (h : ExpiredLast ts) :
    ∀ t ∈ reapItems tb now true ts, t = SEQ_EXPIRED := by
  induction ts with
  | nil => exact fun t ht => absurd ht not_mem_nil
  | cons t ts ih =>
    obtain ⟨hhead, htail⟩ := pairwise_cons.mp h
    unfold reapItems
    split
    case isTrue ht => exact forall_mem_cons.mpr ⟨ht, fun t' h' => hhead t' h' ht⟩
    case isFalse => exact forall_mem_cons.mpr ⟨rfl, ih htail⟩

theorem ExpiredLast.reapItems (h : ExpiredLast ts) : ExpiredLast (reapItems tb now false ts) := by
  induction ts with
  | nil => exact h
  | cons t ts ih =>
    have htail := (pairwise_cons.mp h).2
    unfold OpenVpn.reapItems
    split
    · exact h
    case isFalse ht =>
    split
    · have hall : ∀ t ∈ OpenVpn.reapItems tb now true ts, t = SEQ_EXPIRED :=
        mem_reapItems_true htail
      exact pairwise_cons.mpr ⟨fun t' h' _ => hall t' h',
        pairwise_of_forall_mem_list fun _ _ t' h' _ => hall t' h'⟩
    · exact pairwise_cons.mpr ⟨fun _ _ hexp => absurd hexp ht, ih htail⟩

/-! ## Reachable states -/

variable {p : PacketIdRec} {l l' : CircList Int} {pin : PacketIdNet}

theorem ExpiredLast.add (hm : BacktrackMode p l) (h : ExpiredLast l.items)
    (hadm : Admits p l pin) (hsize : l'.xSize = min (addedId p l pin) p.seqBacktrack)
    (hcells : ∀ i < l'.xSize, l'.items[i]? = some (addedCell now p l pin i)) :
    ExpiredLast l'.items := by
  refine pairwise_iff_getElem.mpr fun j k hj hk hjk => ?_
  rw [l'.items_length] at hj hk
  rw [(List.getElem?_eq_some_iff.mp (hcells j hj)).2,
    (List.getElem?_eq_some_iff.mp (hcells k hk)).2]
  unfold addedCell
  intro hexp
  -- an expired cell is an old one, in a list that was not restarted
  split at hexp
  · omega
  split at hexp
  · exact absurd hexp (by decide)
  case isFalse hnew =>
  obtain ⟨hold, hsh⟩ := not_or.mp hnew
  obtain ⟨h0, htime, -⟩ := startsNewList_eq_false (Bool.eq_false_iff.mpr hold)
  have hlen := hm.size.resolve_left h0
  rw [← l.items_length] at hlen
  rw [addedId, if_neg hold] at hsize ⊢
  rw [getD_eq_getElem _ _ (by omega)] at hexp
  have hk' : k - (pin.id - p.id) < l.items.length := by omega
  have hexp' := pairwise_iff_getElem.mp h _ _ (by omega) hk' (by omega) hexp
  have hoth : k ≠ max p.id pin.id - pin.id := by
    rintro rfl
    rcases hadm.2 with hlt | ⟨-, hgt | hcell⟩
    · omega
    · omega
    · have hidx : max p.id pin.id - pin.id - (pin.id - p.id) = p.id - pin.id := by omega
      simp only [hidx] at hexp'
      exact absurd (hexp'.symm.trans (List.getElem?_eq_some_iff.mp hcell).2) (by decide)
  rw [if_neg (fun hk => hoth hk.1), if_neg (not_or.mpr ⟨hold, by omega⟩), getD_eq_getElem _ _ hk',
    hexp']

/-- What holds of the cells in every reachable state. -/
def CellsOk (p : PacketIdRec) : Prop :=
  (∃ l, BacktrackMode p l ∧ ExpiredLast l.items) ∨ Sequential p

theorem CellsOk.receive {a : Arrival Int} {o : Bool} {p' : PacketIdRec} (h : CellsOk p)
    (hstep : packetIdReceive p a = some (p', o)) : CellsOk p' := by
  rcases h with ⟨l, hm, hlast⟩ | hs
  · obtain ⟨p0, l1, hreap, hm1, hlast1⟩ : ∃ p0 l1,
        (if a.reap then packetIdReap a.now p else some p) = some p0 ∧ BacktrackMode p0 l1 ∧
          ExpiredLast l1.items := by
      split
      · obtain ⟨p1, l1, hreap, hset⟩ := hm.reap a.now
        obtain ⟨l2, hreap2, -, hits⟩ := packetIdReap_eq hm a.now
        cases hreap.symm.trans hreap2
        cases hset.mode.list
        refine ⟨_, l1, hreap, hset.mode, ?_⟩
        rw [hits]
        split
        · exact hlast.reapItems
        · exact hlast
      · exact ⟨p, l, rfl, hm, hlast⟩
    unfold packetIdReceive at hstep
    rw [hreap, Option.bind_some] at hstep
    by_cases hadm : Admits p0 l1 (pinOf a)
    · obtain ⟨n, p2, hadd, hok⟩ := packetIdTestAdd_accept hm1 hadm a.now
      obtain ⟨l2, hadd2, hcap, hsize, hcells⟩ := packetIdAdd_eq (hm1.withStat n) hadm a.now
      cases hok.symm.trans hstep
      cases hadd.symm.trans hadd2
      exact .inl ⟨l2, ⟨hm1.initialized, rfl, hcap, hm1.cap_le, .inr hsize⟩,
        hlast1.add hm1 hadm hsize hcells⟩
    · obtain ⟨n, hrej⟩ := packetIdTestAdd_reject hm1 hadm a.now
      cases hrej.symm.trans hstep
      exact .inl ⟨l1, hm1.withStat n, hlast1⟩
  · obtain ⟨p1, hs1, -, -, ⟨hrej, -⟩ | ⟨hok, -⟩⟩ := hs.receive_cases a
    · cases hrej.symm.trans hstep
      exact .inr hs1
    · cases hok.symm.trans hstep
      exact .inr ⟨hs1.initialized, hs1.seqBacktrack, hs1.timeBacktrack, hs1.list⟩

/-- **The early exit is sound.** After any arrivals at a window that started empty, the
expired cells are the oldest ones, and an expiry pass does what a full scan does. -/
theorem reap_early_exit_sound {as : List (Arrival Int)} {vs : List Bool} {p q : PacketIdRec}
    (hp : EmptyWindow p) (hrun : run packetIdReceive p as = some (q, vs)) (l : CircList Int)
    (hl : q.seqList = some l) : ExpiredLast l.items ∧ ∀ now, ∃ l',
      packetIdReap now q = some { q with seqList := some l', lastReap := now } ∧
      l'.items = if q.timeBacktrack ≠ 0 then reapAllItems q.timeBacktrack now false l.items
        else l.items := by
  have hstart : CellsOk p := by
    rcases hp with ⟨l, hm, hsize⟩ | hs
    · have hnil : l.items = [] := length_eq_zero_iff.mp (l.items_length.trans hsize)
      exact .inl ⟨l, hm, hnil ▸ Pairwise.nil⟩
    · exact .inr hs
  have hend : CellsOk q := run_invariant (G := fun _ _ => True)
    (fun _ _ _ _ h _ hstep => h.receive hstep) hstart (runGuard_true _ _) hrun
  rcases hend with ⟨l1, hm, hlast⟩ | hs
  · cases hl.symm.trans hm.list
    refine ⟨hlast, fun now => ?_⟩
    obtain ⟨l', hreap, -, hitems⟩ := packetIdReap_eq hm now
    exact ⟨l', hreap, by rw [hitems, hlast.reapItems_eq]⟩
  · cases hs.list.symm.trans hl

theorem reap_early_exit_sound_two : ∃ pid q vs l, packetIdInit 3 10 = some pid ∧
    run packetIdReceive pid.recv [⟨100, true, 7, 2⟩, ⟨120, true, 7, 4⟩] = some (q, vs) ∧
      q.seqList = some l ∧ ExpiredLast l.items := by
  obtain ⟨⟨q, vs⟩, l, hl, hrun⟩ : ∃ (r : PacketIdRec × List Bool) (l : CircList Int),
      r.1.seqList = some l ∧ (packetIdInit 3 10).bind (fun pid =>
        run packetIdReceive pid.recv [⟨100, true, 7, 2⟩, ⟨120, true, 7, 4⟩]) = some r :=
    ⟨_, _, rfl, rfl⟩
  obtain ⟨pid, hpid, hrun⟩ := Option.bind_eq_some_iff.mp hrun
  exact ⟨pid, q, vs, l, hpid, hrun, hl, (reap_early_exit_sound
    (packetIdInitRecv_fresh (packetIdInit_recv hpid)).2.1 hrun l hl).1⟩

end OpenVpn
