import OpenVpn.Base.SlidingWindow
import OpenVpn.PacketId.Model

/-!
# What the packet-id functions do to the window

One lemma per function of the receive side, in terms of the list of cells
(`CircList.items`, newest id first): `packetIdTest_eq`, `packetIdAdd_eq`,
`packetIdReap_eq`. `packetIdReceive` puts them together as the data channel
does, and `packetIdReceive_cases` says all it can do. The results on the
receive side are derived from these lemmas and unfold none of the functions.
-/

namespace OpenVpn

open Base List

/-- A receive state in backtrack mode with its list of cells. A list that is
not empty covers the ids `(id - seqBacktrack, id]`; it is empty in a fresh
state and after `packet_id_persist_load_obj`. -/
structure BacktrackMode (p : PacketIdRec) (l : CircList Int) : Prop where
  initialized : p.initialized = true
  list : p.seqList = some l
  cap : l.xCap = p.seqBacktrack
  cap_le : p.seqBacktrack ≤ 65536
  size : l.xSize = 0 ∨ l.xSize = min p.id p.seqBacktrack

/-- The condition under which `packet_id_test` accepts in backtrack mode. -/
def Admits (p : PacketIdRec) (l : CircList Int) (pin : PacketIdNet) : Prop :=
  pin.id ≠ 0 ∧ (p.time < pin.time ∨ pin.time = p.time ∧
    (p.id < pin.id ∨ l.items[p.id - pin.id]? = some SEQ_UNSEEN))

instance (p : PacketIdRec) (l : CircList Int) (pin : PacketIdNet) : Decidable (Admits p l pin) := by
  unfold Admits; infer_instance

variable {p : PacketIdRec} {l : CircList Int}

namespace BacktrackMode

theorem seqBacktrack_pos (hm : BacktrackMode p l) : 0 < p.seqBacktrack :=
  hm.cap ▸ l.xCap_pos

theorem xSize_le (hm : BacktrackMode p l) : l.xSize ≤ p.seqBacktrack :=
  hm.cap ▸ l.xSize_le_xCap

theorem withStat (hm : BacktrackMode p l) (n : Nat) :
    BacktrackMode { p with maxBacktrackStat := n } l :=
  ⟨hm.initialized, hm.list, hm.cap, hm.cap_le, hm.size⟩

end BacktrackMode

/-! ## `packet_id_init_recv` -/

/-- A state that has received nothing. -/
structure FreshRecv (p : PacketIdRec) (seqBacktrack : Nat) (timeBacktrack : Int) : Prop where
  time : p.time = 0
  id : p.id = 0
  seqBacktrack : p.seqBacktrack = seqBacktrack
  timeBacktrack : p.timeBacktrack = timeBacktrack

variable {seqBacktrack timeBacktrack : Int}

theorem packetIdInitRecv_eq (hseq : 1 ≤ seqBacktrack ∧ seqBacktrack ≤ MAX_SEQ_BACKTRACK)
    (htime : MIN_TIME_BACKTRACK ≤ timeBacktrack ∧ timeBacktrack ≤ MAX_TIME_BACKTRACK) :
    ∃ p l, packetIdInitRecv .cleared seqBacktrack timeBacktrack = some p ∧
      BacktrackMode p l ∧ l.xSize = 0 ∧ FreshRecv p seqBacktrack.toNat timeBacktrack := by
  obtain ⟨h1, hmax⟩ := hseq
  obtain ⟨l, hl⟩ := CircList.alloc_isSome SEQ_UNSEEN (show 0 < seqBacktrack.toNat by omega)
  obtain ⟨hits, hcap⟩ := CircList.alloc_items hl
  have hsize : l.xSize = 0 := by rw [← l.items_length, hits]; rfl
  have hne : seqBacktrack ≠ 0 := by omega
  have h0 : MIN_SEQ_BACKTRACK ≤ seqBacktrack := by unfold MIN_SEQ_BACKTRACK; omega
  have hle : seqBacktrack.toNat ≤ 65536 := by
    unfold MAX_SEQ_BACKTRACK at hmax
    omega
  refine ⟨{ PacketIdRec.cleared with
    seqList := some l
    seqBacktrack := seqBacktrack.toNat
    timeBacktrack := timeBacktrack
    initialized := true }, l, ?_, ⟨rfl, rfl, hcap, hle, .inl hsize⟩, hsize, rfl, rfl, rfl, rfl⟩
  simp [packetIdInitRecv, hne, h0, hmax, htime, hl]

/-! ## `packet_id_test` -/

theorem packetIdTest_eq (hm : BacktrackMode p l)
    (pin : PacketIdNet) : ∃ n, packetIdTest p pin =
      some ({ p with maxBacktrackStat := n }, decide (Admits p l pin)) := by
  have hsize : l.xSize % 2 ^ 32 = l.xSize := by
    have := hm.xSize_le
    have := hm.cap_le
    omega
  unfold packetIdTest
  rw [if_neg (by simp [hm.initialized])]
  by_cases h0 : pin.id = 0
  · exact ⟨p.maxBacktrackStat, by simp [h0, Admits]⟩
  rw [if_neg h0, if_pos (Nat.pos_iff_ne_zero.mp hm.seqBacktrack_pos)]
  by_cases ht : pin.time = p.time
  · by_cases hid : pin.id > p.id
    · exact ⟨p.maxBacktrackStat, by simp [h0, ht, hid, Admits]⟩
    -- an id at or below the highest one: the cell decides
    refine ⟨max p.maxBacktrackStat (p.id - pin.id), ?_⟩
    have hadm : Admits p l pin ↔ l.items[p.id - pin.id]? = some SEQ_UNSEEN := by
      simp [Admits, h0, ht, hid]
    simp only [ht, hid, if_true, if_false, hm.list, hsize, decide_eq_decide.mpr hadm]
    by_cases hd : p.id - pin.id ≥ l.xSize
    · rw [if_pos hd, getElem?_eq_none (by simpa using hd)]
      simp
    · rw [if_neg hd, CircList.item_eq_items, getElem?_eq_getElem (by simpa using hd)]
      simp [SEQ_UNSEEN]
  · by_cases hlt : pin.time < p.time
    · exact ⟨p.maxBacktrackStat, by
        simp [ht, hlt, Admits, Int.not_lt.mpr (Int.le_of_lt hlt)]⟩
    · have hgt : p.time < pin.time := by omega
      exact ⟨p.maxBacktrackStat, by simp [h0, ht, hlt, Admits, hgt]⟩

/-! ## `packet_id_add` -/

theorem xCap_pushUnseen (n : Nat) (l : CircList Int) : (pushUnseen n l).xCap = l.xCap := by
  induction n generalizing l with
  | zero => rfl
  | succ n ih => exact (ih _).trans (l.xCap_push _)

theorem pushUnseen_items (n : Nat) (l : CircList Int) :
    (pushUnseen n l).items = (replicate n SEQ_UNSEEN ++ l.items).take l.xCap := by
  induction n generalizing l with
  | zero => simp [pushUnseen, l.xSize_le_xCap]
  | succ n ih =>
    rw [pushUnseen, ih, l.xCap_push, l.items_push, replicate_succ', append_assoc,
      singleton_append, take_append, take_take, take_append]
    congr 2
    omega

theorem markSeen_eq {l : CircList Int} {d : Nat} (now : Int) (hd : d < l.xSize)
    (hcap : l.xCap ≤ 65536) : ∃ l',
      markSeen now (Int.bmod d (2 ^ 64)) l = some l' ∧ l'.xCap = l.xCap ∧
      l'.items = if now > SEQ_EXPIRED then l.items.set d now else l.items := by
  have := l.xSize_le_xCap
  have hmod : Int.bmod (d : Int) (2 ^ 64) = d := by
    rw [Int.bmod_eq_of_le] <;> omega
  rw [hmod]
  unfold markSeen
  by_cases hnow : now > SEQ_EXPIRED
  · obtain ⟨l', hset, hits, hcap'⟩ := l.setItem_items now hd
    exact ⟨l', by rw [if_pos ⟨by omega, hnow⟩, hset], hcap', by rw [if_pos hnow, hits]⟩
  · exact ⟨l, by rw [if_neg (fun h => hnow h.2)], rfl, by rw [if_neg hnow]⟩

def addedId (p : PacketIdRec) (l : CircList Int) (pin : PacketIdNet) : Nat :=
  if startsNewList p l pin then pin.id else max p.id pin.id

def addedCell (now : Int) (p : PacketIdRec) (l : CircList Int) (pin : PacketIdNet)
    (i : Nat) : Int :=
  if i = addedId p l pin - pin.id ∧ now > SEQ_EXPIRED then now
  else if startsNewList p l pin ∨ i < pin.id - p.id then SEQ_UNSEEN
  else l.items.getD (i - (pin.id - p.id)) SEQ_UNSEEN

variable {pin : PacketIdNet}

theorem startsNewList_eq_true (hpos : 0 < p.seqBacktrack)
    (hsize : l.xSize = min p.id p.seqBacktrack) (htime : ¬p.time < pin.time)
    (h : startsNewList p l pin = true) : p.id = 0 ∨ p.id + p.seqBacktrack < pin.id := by
  simp only [startsNewList, Bool.or_eq_true, Bool.and_eq_true, decide_eq_true_eq] at h
  rcases h with (hemp | hlat) | ⟨_, hjump⟩
  · rw [hemp] at hsize
    omega
  · exact absurd hlat htime
  · omega

/-- The list before the accepted id is marked. -/
def shiftedList (p : PacketIdRec) (l : CircList Int) (pin : PacketIdNet) : CircList Int :=
  pushUnseen (pin.id - (restartList p l pin).2.1) (restartList p l pin).2.2

theorem restartList_eq (p : PacketIdRec) (l : CircList Int) (pin : PacketIdNet) :
    restartList p l pin = if startsNewList p l pin then
      (pin.time, pin.id - p.seqBacktrack, l.reset) else (p.time, p.id, l) := by
  unfold restartList
  congr 3
  split <;> omega

theorem startsNewList_eq_false (h : startsNewList p l pin = false) :
    l.xSize ≠ 0 ∧ pin.time ≤ p.time ∧ pin.id ≤ p.id + p.seqBacktrack := by
  simp only [startsNewList, Bool.or_eq_false_iff, Bool.and_eq_false_iff,
    decide_eq_false_iff_not] at h
  omega

section

variable (hm : BacktrackMode p l)

include hm

theorem shiftedList_spec (pin : PacketIdNet) :
    (shiftedList p l pin).xCap = p.seqBacktrack ∧
    (shiftedList p l pin).xSize = min (addedId p l pin) p.seqBacktrack ∧
    ∀ i < (shiftedList p l pin).xSize, (shiftedList p l pin).items[i]? =
      some (if startsNewList p l pin ∨ i < pin.id - p.id then SEQ_UNSEEN
        else l.items.getD (i - (pin.id - p.id)) SEQ_UNSEEN) := by
  have hcap := hm.cap
  have hpos := hm.seqBacktrack_pos
  rw [← CircList.items_length]
  unfold shiftedList addedId
  rw [restartList_eq]
  cases hs : startsNewList p l pin with
  | true =>
    simp only [if_true, xCap_pushUnseen, CircList.xCap_reset, pushUnseen_items, hcap,
      CircList.items_reset, append_nil, length_replicate, take_replicate,
      true_or, getElem?_replicate]
    refine ⟨trivial, by omega, fun i hi => if_pos (by omega)⟩
  | false =>
    obtain ⟨h0, -, hid⟩ := startsNewList_eq_false hs
    have hsize := hm.size.resolve_left h0
    simp only [Bool.false_eq_true, if_false, xCap_pushUnseen, pushUnseen_items, hcap,
      length_take, length_append, length_replicate, CircList.items_length,
      hsize, false_or]
    refine ⟨trivial, by omega, fun i hi => ?_⟩
    rw [getElem?_take_of_lt (by omega)]
    by_cases hi' : i < pin.id - p.id
    · rw [getElem?_append_left (by simpa using hi'), if_pos hi']
      simp [hi']
    · rw [getElem?_append_right (by simpa using hi'), if_neg hi', length_replicate,
        getD_eq_getElem?_getD, getElem?_eq_getElem (by rw [l.items_length]; omega)]
      rfl

/-- **`packet_id_add`**, cell by cell. -/
theorem packetIdAdd_eq (hadm : Admits p l pin) (now : Int) :
    ∃ l', packetIdAdd now p pin = some { p with
        time := pin.time, id := addedId p l pin, seqList := some l' } ∧
      l'.xCap = p.seqBacktrack ∧ l'.xSize = min (addedId p l pin) p.seqBacktrack ∧
      ∀ i < l'.xSize, l'.items[i]? = some (addedCell now p l pin i) := by
  obtain ⟨hcap, hsize, hcells⟩ := shiftedList_spec hm pin
  have hpos := hm.seqBacktrack_pos
  have hle : pin.id ≤ addedId p l pin := by unfold addedId; split <;> omega
  have htop : max (restartList p l pin).2.1 pin.id = addedId p l pin := by
    rw [restartList_eq, addedId]
    split <;> simp
  have htime : (restartList p l pin).1 = pin.time := by
    rw [restartList_eq]
    split
    · rfl
    · rename_i hs
      have := (startsNewList_eq_false (Bool.eq_false_iff.mpr hs)).2.1
      obtain ⟨-, hlt | ⟨heq, -⟩⟩ := hadm
      · omega
      · exact heq.symm
  -- the accepted id lies inside the list
  have hd : addedId p l pin - pin.id < (shiftedList p l pin).xSize := by
    rw [hsize]
    unfold addedId at hle ⊢
    split
    · have := hadm.1
      omega
    · rename_i hs
      obtain ⟨h0, -, hid⟩ := startsNewList_eq_false (Bool.eq_false_iff.mpr hs)
      have hsz := hm.size.resolve_left h0
      obtain ⟨hne, hlt | ⟨-, hgt | hcell⟩⟩ := hadm
      · exact absurd (startsNewList_eq_false (Bool.eq_false_iff.mpr hs)).2.1 (by omega)
      · omega
      · have := (List.getElem?_eq_some_iff.mp hcell).1
        rw [l.items_length] at this
        omega
  obtain ⟨l', hmark, hcap', hits⟩ := markSeen_eq now hd (hcap.trans_le hm.cap_le)
  have hsize' : l'.xSize = min (addedId p l pin) p.seqBacktrack := by
    rw [← hsize, ← CircList.items_length, hits, ← CircList.items_length]
    split <;> simp
  refine ⟨l', ?_, hcap'.trans hcap, hsize', fun i hi => ?_⟩
  · have hdiff : ((addedId p l pin : Nat) : Int) - pin.id = (addedId p l pin - pin.id : Nat) := by
      omega
    rw [shiftedList] at hmark
    simp only [packetIdAdd, hm.list, htop, htime, hdiff, hmark]
  · rw [hsize', ← hsize] at hi
    have hcell := hcells i hi
    rw [hits, addedCell]
    by_cases hnow : now > SEQ_EXPIRED
    · rw [if_pos hnow]
      by_cases hi' : i = addedId p l pin - pin.id
      · rw [if_pos ⟨hi', hnow⟩, hi', getElem?_set_self (by simpa using hd)]
      · rw [if_neg (fun h => hi' h.1), getElem?_set_ne (Ne.symm hi'), hcell]
    · rw [if_neg hnow, if_neg (fun h => hnow h.2), hcell]

theorem packetIdTestAdd_reject (hadm : ¬ Admits p l pin) (now : Int) : ∃ n,
      packetIdTestAdd now p pin = some ({ p with maxBacktrackStat := n }, false) := by
  obtain ⟨n, htest⟩ := packetIdTest_eq hm pin
  exact ⟨n, by simp [packetIdTestAdd, htest, hadm]⟩

theorem packetIdTestAdd_accept (hadm : Admits p l pin) (now : Int) : ∃ n p',
      packetIdAdd now { p with maxBacktrackStat := n } pin = some p' ∧
      packetIdTestAdd now p pin = some (p', true) := by
  obtain ⟨n, htest⟩ := packetIdTest_eq hm pin
  obtain ⟨l', hadd, -⟩ := packetIdAdd_eq (hm.withStat n) hadm now
  exact ⟨n, _, hadd, by simp [packetIdTestAdd, htest, hadm, hadd]⟩

/-! ## `packet_id_reap` -/

/-- The reap loop on the list of cells. -/
def reapItems (timeBacktrack now : Int) : Bool → List Int → List Int
  | _, [] => []
  | expire, t :: ts =>
    if t = SEQ_EXPIRED then t :: ts
    else if expire || (decide (t ≠ 0) && decide (t + timeBacktrack < now)) then
      SEQ_EXPIRED :: reapItems timeBacktrack now true ts
    else t :: reapItems timeBacktrack now false ts

omit hm in
@[simp] theorem reapItems_length (tb now : Int) (expire : Bool) (ts : List Int) :
    (reapItems tb now expire ts).length = ts.length := by
  fun_induction reapItems tb now expire ts <;> simp_all

omit hm in
theorem reapFrom_items (tb now : Int) (n i : Nat) (expire : Bool) (l : CircList Int)
    (h : i + n = l.xSize) : ∃ l', reapFrom tb now n i expire l = some l' ∧
      l'.xCap = l.xCap ∧
      l'.items = l.items.take i ++ reapItems tb now expire (l.items.drop i) := by
  induction n generalizing i expire l with
  | zero =>
    refine ⟨l, rfl, rfl, ?_⟩
    have hlen : l.items.length ≤ i := by rw [l.items_length]; omega
    rw [take_of_length_le hlen, drop_of_length_le hlen, reapItems, append_nil]
  | succ n ih =>
    have hi : i < l.items.length := by rw [l.items_length]; omega
    rw [drop_eq_getElem_cons hi, reapFrom, CircList.item_eq_items, getElem?_eq_getElem hi]
    simp only [reapItems]
    by_cases hexp : l.items[i] = SEQ_EXPIRED
    · refine ⟨l, if_pos hexp, rfl, ?_⟩
      rw [if_pos hexp, ← drop_eq_getElem_cons hi, take_append_drop]
    rw [if_neg hexp, if_neg hexp]
    generalize hx : (expire || (decide (l.items[i] ≠ 0) &&
      decide (l.items[i] + tb < now))) = x
    cases x with
    | true =>
      obtain ⟨l1, hset, hits, hcap⟩ := l.setItem_items SEQ_EXPIRED (i := i) (by omega)
      have hsize : l1.xSize = l.xSize := by
        rw [← l1.items_length, hits, length_set, l.items_length]
      obtain ⟨l', hl', hcap', hitems'⟩ := ih (i + 1) true l1 (by omega)
      refine ⟨l', by simpa [hset] using hl', hcap'.trans hcap, ?_⟩
      rw [hitems', hits, drop_set_of_lt (by omega), take_add_one,
        take_set_of_le (Nat.le_refl i), getElem?_set_self hi]
      simp
    | false =>
      obtain ⟨l', hl', hcap', hitems'⟩ := ih (i + 1) false l (by omega)
      refine ⟨l', by simpa using hl', hcap', ?_⟩
      rw [hitems', take_add_one, getElem?_eq_getElem hi, append_assoc]
      rfl

theorem packetIdReap_eq (now : Int) :
    ∃ l', packetIdReap now p = some { p with seqList := some l', lastReap := now } ∧
      l'.xCap = l.xCap ∧ l'.items =
        if p.timeBacktrack ≠ 0 then reapItems p.timeBacktrack now false l.items
        else l.items := by
  unfold packetIdReap
  by_cases htb : p.timeBacktrack ≠ 0
  · obtain ⟨l', hl', hcap, hits⟩ :=
      reapFrom_items p.timeBacktrack now l.xSize 0 false l (Nat.zero_add _)
    refine ⟨l', ?_, hcap, by simpa [htb] using hits⟩
    simp [htb, hm.list, hl']
  · exact ⟨l, by simp [htb, hm.list], rfl, by simp [htb]⟩

omit hm in
theorem reapItems_unseen {tb now : Int} {expire : Bool} {ts : List Int} {i : Nat}
    (h : (reapItems tb now expire ts)[i]? = some SEQ_UNSEEN) : ts[i]? = some SEQ_UNSEEN := by
  induction ts generalizing expire i with
  | nil => simp [reapItems] at h
  | cons t ts ih =>
    unfold reapItems at h
    split at h
    · exact h
    · split at h
      · cases i with
        | zero => cases h
        | succ i => exact ih h
      · cases i with
        | zero => exact h
        | succ i => exact ih h

/-! ## A whole arrival -/

def pinOf (a : Arrival Int) : PacketIdNet := { id := a.id, time := a.time }

/-- A received packet, handled as in the data channel: an expiry pass if the
arrival asks for one (`packet_id_reap`, or `packet_id_reap_test` when it is
due), `packet_id_test`, and `packet_id_add` when the test accepts. -/
def packetIdReceive (p : PacketIdRec) (a : Arrival Int) : Option (PacketIdRec × Bool) :=
  (if a.reap then packetIdReap a.now p else some p).bind fun p =>
    packetIdTestAdd a.now p (pinOf a)

/-- `p₁` with cells `l₁` is `p` with cells `l` after bookkeeping: the window
stays where it is and no id becomes acceptable. -/
structure Settles (p : PacketIdRec) (l : CircList Int) (p₁ : PacketIdRec)
    (l₁ : CircList Int) : Prop where
  mode : BacktrackMode p₁ l₁
  time : p₁.time = p.time
  id : p₁.id = p.id
  seqBacktrack : p₁.seqBacktrack = p.seqBacktrack
  timeBacktrack : p₁.timeBacktrack = p.timeBacktrack
  size : l₁.xSize = l.xSize
  unseen : ∀ i : Nat, l₁.items[i]? = some SEQ_UNSEEN → l.items[i]? = some SEQ_UNSEEN

/-- `p'` with cells `l'` is `p₁` with cells `l₁` after the acceptance of `pin`
at clock `now`. -/
structure Accepted (now : Int) (p₁ : PacketIdRec) (l₁ : CircList Int) (pin : PacketIdNet)
    (p' : PacketIdRec) (l' : CircList Int) : Prop where
  mode : BacktrackMode p' l'
  admits : Admits p₁ l₁ pin
  time : p'.time = pin.time
  id : p'.id = addedId p₁ l₁ pin
  seqBacktrack : p'.seqBacktrack = p₁.seqBacktrack
  timeBacktrack : p'.timeBacktrack = p₁.timeBacktrack
  size : l'.xSize = min p'.id p'.seqBacktrack
  cells : ∀ i < l'.xSize, l'.items[i]? = some (addedCell now p₁ l₁ pin i)

theorem BacktrackMode.reap (now : Int) :
    ∃ p1 l1, packetIdReap now p = some p1 ∧ Settles p l p1 l1 := by
  obtain ⟨l1, hreap, hcap, hits⟩ := packetIdReap_eq hm now
  have hsize : l1.xSize = l.xSize := by
    rw [← l1.items_length, hits, ← l.items_length]
    split <;> simp
  refine ⟨_, l1, hreap, ⟨hm.initialized, rfl, hcap.trans hm.cap, hm.cap_le, ?_⟩,
    rfl, rfl, rfl, rfl, hsize, fun i hi => ?_⟩
  · rw [hsize]
    exact hm.size
  · rw [hits] at hi
    split at hi
    · exact reapItems_unseen hi
    · exact hi

/-- **All an arrival can do**: bookkeeping, and then a rejection that changes
nothing else, or an acceptance. It never aborts. -/
theorem packetIdReceive_cases (a : Arrival Int) : ∃ p1 l1, Settles p l p1 l1 ∧
      (packetIdReceive p a = some (p1, false) ∧ ¬ Admits p1 l1 (pinOf a) ∨
       ∃ p' l', packetIdReceive p a = some (p', true) ∧ Accepted a.now p1 l1 (pinOf a) p' l') := by
  obtain ⟨p0, l1, hreap, hs⟩ : ∃ p0 l1,
      (if a.reap then packetIdReap a.now p else some p) = some p0 ∧ Settles p l p0 l1 := by
    split
    · exact hm.reap a.now
    · exact ⟨p, l, rfl, hm, rfl, rfl, rfl, rfl, rfl, fun _ h => h⟩
  have hstat : ∀ n, Settles p l { p0 with maxBacktrackStat := n } l1 := fun n =>
    { hs with mode := hs.mode.withStat n }
  unfold packetIdReceive
  rw [hreap, Option.bind_some]
  by_cases hadm : Admits p0 l1 (pinOf a)
  · obtain ⟨n, p', hadd, hstep⟩ := packetIdTestAdd_accept hs.mode hadm a.now
    obtain ⟨l', hadd', hcap, hsize, hcells⟩ := packetIdAdd_eq (hstat n).mode hadm a.now
    cases hadd.symm.trans hadd'
    exact ⟨_, l1, hstat n, .inr ⟨_, l', hstep,
      ⟨hs.mode.initialized, rfl, hcap, hs.mode.cap_le, .inr hsize⟩, hadm, rfl, rfl, rfl, rfl,
      hsize, hcells⟩⟩
  · obtain ⟨n, hstep⟩ := packetIdTestAdd_reject hs.mode hadm a.now
    exact ⟨_, l1, hstat n, .inl ⟨hstep, hadm⟩⟩

end

theorem Admits.le_addedId (h : Admits p l pin)
    (htime : pin.time = p.time) : p.id ≤ addedId p l pin := by
  unfold addedId
  split
  · rename_i hs
    obtain ⟨-, hlt | ⟨-, hgt | hcell⟩⟩ := h
    · omega
    · omega
    · have hlen := (List.getElem?_eq_some_iff.mp hcell).1
      rw [l.items_length] at hlen
      simp only [startsNewList, Bool.or_eq_true, Bool.and_eq_true, decide_eq_true_eq] at hs
      omega
  · exact Nat.le_max_left ..

/-! ## Sequential mode, and both modes together -/

/-- A receive state in sequential (non-backtrack) mode. -/
structure Sequential (p : PacketIdRec) : Prop where
  initialized : p.initialized = true
  seqBacktrack : p.seqBacktrack = 0
  timeBacktrack : p.timeBacktrack = 0
  list : p.seqList = none

/-- The condition under which `packet_id_test` accepts in sequential mode. -/
def Follows (p : PacketIdRec) (pin : PacketIdNet) : Prop :=
  pin.id ≠ 0 ∧ (pin.time = p.time ∧ (p.id = 0 ∨ pin.id = p.id + 1) ∨
    p.time < pin.time ∧ pin.id = 1)

instance (p : PacketIdRec) (pin : PacketIdNet) : Decidable (Follows p pin) := by
  unfold Follows; infer_instance

theorem Sequential.test_eq (h : Sequential p) (pin : PacketIdNet) :
    packetIdTest p pin = some (p, decide (Follows p pin)) := by
  unfold packetIdTest Follows
  rw [if_neg (by simp [h.initialized])]
  by_cases h0 : pin.id = 0
  · simp [h0]
  rw [if_neg h0, if_neg (by simp [h.seqBacktrack])]
  by_cases ht : pin.time = p.time
  · simp [h0, ht]
  · by_cases hlt : pin.time < p.time
    · simp [ht, hlt, Int.not_lt.mpr (Int.le_of_lt hlt)]
    · have hgt : p.time < pin.time := by omega
      simp [h0, ht, hlt, hgt]

theorem Sequential.receive_cases (h : Sequential p) (a : Arrival Int) :
    ∃ p1, Sequential p1 ∧ p1.time = p.time ∧ p1.id = p.id ∧
      (packetIdReceive p a = some (p1, false) ∧ ¬ Follows p (pinOf a) ∨
       packetIdReceive p a = some ({ p1 with time := a.time, id := a.id }, true) ∧
        Follows p (pinOf a)) := by
  obtain ⟨p1, hreap, hs, ht, hid⟩ : ∃ p1,
      (if a.reap then packetIdReap a.now p else some p) = some p1 ∧
      Sequential p1 ∧ p1.time = p.time ∧ p1.id = p.id := by
    split
    · refine ⟨{ p with lastReap := a.now }, by simp [packetIdReap, h.timeBacktrack], ?_, rfl, rfl⟩
      exact ⟨h.initialized, h.seqBacktrack, h.timeBacktrack, h.list⟩
    · exact ⟨p, rfl, h, rfl, rfl⟩
  have hiff : Follows p1 (pinOf a) ↔ Follows p (pinOf a) := by
    unfold Follows
    rw [ht, hid]
  refine ⟨p1, hs, ht, hid, ?_⟩
  unfold packetIdReceive packetIdTestAdd
  rw [hreap, Option.bind_some, hs.test_eq, ← hiff]
  by_cases hf : Follows p1 (pinOf a)
  · have hadd : packetIdAdd a.now p1 (pinOf a) = some { p1 with time := a.time, id := a.id } := by
      unfold packetIdAdd
      split
      · rfl
      · rename_i l hl
        rw [hs.list] at hl
        cases hl
    exact .inr ⟨by simp [hf, hadd], hf⟩
  · exact .inl ⟨by simp [hf], hf⟩

/-- A receive state as `packet_id_init` sets it up and the receive functions
keep it: in one of the two modes, within the bounds asserted at the start. -/
structure RecvOk (p : PacketIdRec) : Prop where
  time : MIN_TIME_BACKTRACK ≤ p.timeBacktrack ∧ p.timeBacktrack ≤ MAX_TIME_BACKTRACK
  mode : (∃ l, BacktrackMode p l) ∨ Sequential p

theorem RecvOk.initialized (h : RecvOk p) : p.initialized = true := by
  rcases h.mode with ⟨l, hm⟩ | hs
  · exact hm.initialized
  · exact hs.initialized

theorem RecvOk.receive (h : RecvOk p) (a : Arrival Int) : ∃ p' ok,
    packetIdReceive p a = some (p', ok) ∧ RecvOk p' := by
  rcases h.mode with ⟨l, hm⟩ | hs
  · obtain ⟨p1, l1, hset, ⟨hrej, -⟩ | ⟨p', l', hok, hacc⟩⟩ := packetIdReceive_cases hm a
    · exact ⟨p1, false, hrej, by rw [hset.timeBacktrack]; exact h.time, .inl ⟨l1, hset.mode⟩⟩
    · refine ⟨p', true, hok, ?_, .inl ⟨l', hacc.mode⟩⟩
      rw [hacc.timeBacktrack, hset.timeBacktrack]
      exact h.time
  · obtain ⟨p1, hs1, -, -, ⟨hrej, -⟩ | ⟨hok, -⟩⟩ := hs.receive_cases a
    · exact ⟨p1, false, hrej, by rw [hs1.timeBacktrack]; decide, .inr hs1⟩
    · exact ⟨_, true, hok, by simp only [hs1.timeBacktrack]; decide,
        .inr ⟨hs1.initialized, hs1.seqBacktrack, hs1.timeBacktrack, hs1.list⟩⟩

/-- The list of cells is empty, or there is none. -/
def EmptyWindow (p : PacketIdRec) : Prop :=
  (∃ l, BacktrackMode p l ∧ l.xSize = 0) ∨ Sequential p

theorem packetIdInitRecv_fresh
    (h : packetIdInitRecv .cleared seqBacktrack timeBacktrack = some p) :
    FreshRecv p seqBacktrack.toNat (if seqBacktrack = 0 then 0 else timeBacktrack) ∧
      EmptyWindow p ∧ RecvOk p := by
  by_cases h0 : seqBacktrack = 0
  · subst h0
    cases h
    have hs : Sequential { PacketIdRec.cleared with initialized := true } :=
      ⟨rfl, rfl, rfl, rfl⟩
    exact ⟨⟨rfl, rfl, rfl, rfl⟩, .inr hs, by decide, .inr hs⟩
  · have hbds := h
    unfold packetIdInitRecv at hbds
    rw [if_pos h0] at hbds
    split at hbds
    · rename_i hb
      have h1 : 1 ≤ seqBacktrack := by
        have := hb.1.1
        unfold MIN_SEQ_BACKTRACK at this
        omega
      obtain ⟨p', l, hinit, hm, hsize, hf⟩ := packetIdInitRecv_eq ⟨h1, hb.1.2⟩ hb.2
      cases h.symm.trans hinit
      rw [if_neg h0]
      exact ⟨hf, .inl ⟨l, hm, hsize⟩, by rw [hf.timeBacktrack]; exact hb.2, .inl ⟨l, hm⟩⟩
    · cases hbds

theorem packetIdInit_recv {pid : PacketId}
    (h : packetIdInit seqBacktrack timeBacktrack = some pid) :
    packetIdInitRecv .cleared seqBacktrack timeBacktrack = some pid.recv := by
  unfold packetIdInit at h
  split at h
  · cases h
  · rename_i hrecv
    cases h
    exact hrecv

theorem RecvOk.move (h : RecvOk p) :
    ∃ fresh, packetIdMoveRecv p = some (p, fresh) ∧ RecvOk fresh := by
  have hsome : ∃ fresh, packetIdInitRecv .cleared p.seqBacktrack p.timeBacktrack = some fresh := by
    rcases h.mode with ⟨l, hm⟩ | hs
    · have hpos := hm.seqBacktrack_pos
      have hle := hm.cap_le
      obtain ⟨_, -, hinit, -⟩ := packetIdInitRecv_eq
        (show 1 ≤ (p.seqBacktrack : Int) ∧ (p.seqBacktrack : Int) ≤ MAX_SEQ_BACKTRACK from
          ⟨by omega, by unfold MAX_SEQ_BACKTRACK; omega⟩) h.time
      exact ⟨_, hinit⟩
    · rw [hs.seqBacktrack, hs.timeBacktrack]
      exact ⟨_, rfl⟩
  obtain ⟨fresh, hinit⟩ := hsome
  exact ⟨fresh, by rw [packetIdMoveRecv, hinit], (packetIdInitRecv_fresh hinit).2.2⟩

end OpenVpn
