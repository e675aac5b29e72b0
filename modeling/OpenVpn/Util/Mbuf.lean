import Mathlib.Data.List.Count
import Mathlib.Data.List.Nodup
import Mathlib.Data.List.TakeWhile
import Mathlib.Tactic.Ring
import OpenVpn.Base.Bytes
import OpenVpn.Base.Fifo
import OpenVpn.Base.Run
import OpenVpn.Util.CircList

/-!
# The broadcast packet queue (`mbuf.c`)

A ring of items, each a packet for a client. Packets are shared by reference
count. When a client goes away its items stay in the ring without packet and
client, and are passed over when the ring is read.

* `mbufAddItem`, `mbufExtractItem`, `mbufDereferenceInstance` — the operations.
* `mbufStep` — the queue, the packets and those who hold a packet outside of the
  queue: its creator, and whoever extracted it.
* `MbufOk` — the reference counts, and the queue as the abstract queue `Fifo`.
* `mbuf_fifo_until_full_of_dereferenced` — over every sequence of operations.
-/

namespace OpenVpn

open Base List Function Nat

structure MbufBuffer where
  buf : Bytes
  refcount : Int
  flags : Nat
  deriving DecidableEq

structure MbufItem where
  buffer : Option Nat
  inst : Option Nat
  deriving DecidableEq

def MbufItem.null : MbufItem := ⟨none, none⟩

/-- `struct mbuf_set`. The capacity is the length of the array. -/
structure MbufSet where
  head : Nat
  len : Nat
  maxQueued : Nat
  array : List MbufItem
  sized : array.length = 0 ∨ ∃ k, array.length = 2 ^ k
  inside : array.length ≠ 0 → head < array.length
  fits : len ≤ array.length

def MbufSet.capacity (ms : MbufSet) : Nat := ms.array.length

def mbufIndex (head offset size : Nat) : Nat := (head + offset) &&& (size - 1)

theorem MbufSet.mbufIndex_eq (ms : MbufSet) (head offset : Nat) (h : ms.array.length ≠ 0) :
    mbufIndex head offset ms.capacity = (head + offset) % ms.array.length := by
  cases ms.sized with
  | inl hzero => exact absurd hzero h
  | inr hpow =>
    obtain ⟨k, hk⟩ := hpow
    rw [mbufIndex, capacity, hk, and_two_pow_sub_one_eq_mod]

/-- `mbuf_init`; the capacity is kept in 32 bits. `ALLOC_ARRAY` gives up on more
than 32 bits worth of items. -/
def mbufInit (size : BitVec 32) : Option MbufSet :=
  match h : adjustPowerOf2 size.toNat with
  | none => none
  | some n =>
    if hfit : n < 2 ^ 32 then
      if 16 * n ≤ 0xFFFFFFFF then
        some ⟨0, 0, 0, replicate n .null, by
          rw [length_replicate]
          exact .inr (adjustPowerOf2Loop_pow (k := 0) h), pos_of_ne_zero, zero_le _⟩
      else none
    else some ⟨0, 0, 0, [], .inl rfl, pos_of_ne_zero, zero_le _⟩

/-! ## Packets -/

/-- The packets that were allocated; `none` once freed. -/
abbrev MbufHeap : Type := List (Option MbufBuffer)

def mbufAllocBuf (heap : MbufHeap) (buf : Bytes) : MbufHeap × Nat :=
  (heap ++ [some ⟨buf, 1, 0⟩], heap.length)

/-- `mbuf_free_buf`; `none` is an access to a packet that was freed. -/
def mbufFreeBuf (heap : MbufHeap) : Option Nat → Option MbufHeap
  | none => some heap
  | some b =>
    match heap[b]? with
    | some (some mb) =>
      let refcount := mb.refcount - 1
      some (heap.set b (if refcount ≤ 0 then none else some { mb with refcount }))
    | _ => none

/-- `++item->buffer->refcount`. -/
def mbufRef (heap : MbufHeap) (b : Nat) : Option MbufHeap :=
  match heap[b]? with
  | some (some mb) => some (heap.set b (some { mb with refcount := mb.refcount + 1 }))
  | _ => none

/-! ## The ring -/

/-- The item at the head leaves the ring. -/
def MbufSet.advance (ms : MbufSet) (len : Nat) (h : len ≤ ms.array.length) : MbufSet :=
  { ms with
    head := mbufIndex ms.head 1 ms.capacity
    len
    inside := fun hne => by
      rw [ms.mbufIndex_eq ms.head 1 hne]
      exact mod_lt _ (pos_of_ne_zero hne)
    fits := h }

/-- The loop of `mbuf_extract_item`. -/
def extractLoop : (len : Nat) → (ms : MbufSet) → len ≤ ms.array.length → MbufSet × Option MbufItem
  | 0, ms, h => ({ ms with len := 0, fits := h }, none)
  | len + 1, ms, h =>
    let item := ms.array.getD ms.head .null
    let ms' := ms.advance len (le_of_succ_le h)
    if item.inst.isSome then (ms', some item)
    else extractLoop len ms' (le_of_succ_le h)

def mbufExtractItem (ms : MbufSet) : MbufSet × Option MbufItem := extractLoop ms.len ms ms.fits

/-- The item goes behind the last one. -/
def MbufSet.append (ms : MbufSet) (item : MbufItem) (h : ms.len < ms.array.length) : MbufSet :=
  { ms with
    len := ms.len + 1
    maxQueued := max ms.maxQueued (ms.len + 1)
    array := ms.array.set (mbufIndex ms.head ms.len ms.capacity) item
    sized := by rw [length_set]; exact ms.sized
    inside := by rw [length_set]; exact ms.inside
    fits := by rw [length_set]; exact h }

/-- The end of `mbuf_add_item`, with room for the item. -/
def mbufAppend (heap : MbufHeap) (ms : MbufSet) (buffer inst : Nat) : Option (MbufHeap × MbufSet) :=
  if h : ms.len < ms.array.length then
    (mbufRef heap buffer).map (·, ms.append ⟨some buffer, some inst⟩ h)
  else none

/-- `mbuf_add_item`; the two assertions of the source are `none`. -/
def mbufAddItem (heap : MbufHeap) (ms : MbufSet) (buffer inst : Nat) :
    Option (MbufHeap × MbufSet) :=
  if ms.len = ms.capacity then
    match mbufExtractItem ms with
    | (_, none) => none
    | (ms, some rm) =>
      match mbufFreeBuf heap rm.buffer with
      | none => none
      | some heap => mbufAppend heap ms buffer inst
  else mbufAppend heap ms buffer inst

/-- Both pointers of an item are set to `NULL`. -/
def MbufSet.clear (ms : MbufSet) (idx : Nat) : MbufSet :=
  { ms with
    array := ms.array.set idx .null
    sized := by rw [length_set]; exact ms.sized
    inside := by rw [length_set]; exact ms.inside
    fits := by rw [length_set]; exact ms.fits }

/-- The loop of `mbuf_dereference_instance`, with `left` items to go. -/
def dereferenceLoop (mi : Nat) : (left i : Nat) → MbufHeap → MbufSet → Option (MbufHeap × MbufSet)
  | 0, _, heap, ms => some (heap, ms)
  | left + 1, i, heap, ms =>
    let idx := mbufIndex ms.head i ms.capacity
    let item := ms.array.getD idx .null
    if item.inst = some mi then
      match mbufFreeBuf heap item.buffer with
      | none => none
      | some heap => dereferenceLoop mi left (i + 1) heap (ms.clear idx)
    else dereferenceLoop mi left (i + 1) heap ms

def mbufDereferenceInstance (heap : MbufHeap) (ms : MbufSet) (mi : Nat) :
    Option (MbufHeap × MbufSet) :=
  dereferenceLoop mi ms.len 0 heap ms

/-! ## Runs -/

/-- The queue, its packets, and those who hold a packet outside of the queue:
`created` lists the packets whose creator has not given them up, `sending` those
of items that were extracted and have not been sent. -/
structure MbufWorld where
  heap : MbufHeap
  set : MbufSet
  created : List Nat
  sending : List Nat

def MbufWorld.start (ms : MbufSet) : MbufWorld := ⟨[], ms, [], []⟩

inductive MbufEvent where
  /-- `mbuf_alloc_buf` -/
  | alloc (buf : Bytes)
  | add (buffer inst : Nat)
  /-- `mbuf_free_buf` by the creator -/
  | release (buffer : Nat)
  | extract
  /-- `mbuf_free_buf` of an item that was extracted -/
  | sent (buffer : Nat)
  | dereference (inst : Nat)

/-- One operation; an extraction puts out its item. -/
def mbufStep (w : MbufWorld) : MbufEvent → Option (MbufWorld × Option MbufItem)
  | .alloc buf =>
    let allocated := mbufAllocBuf w.heap buf
    some ({ w with heap := allocated.1, created := allocated.2 :: w.created }, none)
  | .add buffer inst =>
    (mbufAddItem w.heap w.set buffer inst).map fun r =>
      ({ w with heap := r.1, set := r.2 }, none)
  | .release buffer =>
    (mbufFreeBuf w.heap (some buffer)).map fun heap =>
      ({ w with heap, created := w.created.erase buffer }, none)
  | .extract =>
    let extracted := mbufExtractItem w.set
    let sending := (extracted.2.bind MbufItem.buffer).toList ++ w.sending
    some ({ w with set := extracted.1, sending }, extracted.2)
  | .sent buffer =>
    (mbufFreeBuf w.heap (some buffer)).map fun heap =>
      ({ w with heap, sending := w.sending.erase buffer }, none)
  | .dereference inst =>
    (mbufDereferenceInstance w.heap w.set inst).map fun r =>
      ({ w with heap := r.1, set := r.2 }, none)

/-- The items in the ring, oldest first. -/
def MbufSet.items (ms : MbufSet) : List MbufItem := ring ms.array .null ms.head ms.len

/-- Packets are added and given up by those who hold them. -/
def MbufWorld.Allowed (w : MbufWorld) : MbufEvent → Prop
  | .add buffer _ => buffer ∈ w.created
  | .release buffer => buffer ∈ w.created
  | .sent buffer => buffer ∈ w.sending
  | _ => True

/-- The ring is full and none of its items has a client. -/
def MbufSet.FullOfDereferenced (ms : MbufSet) : Prop :=
  ms.len = ms.capacity ∧ ∀ item ∈ ms.items, item.inst = none

/-- The event does not add to a ring that is full of dereferenced items. -/
def MbufWorld.Roomy (w : MbufWorld) : MbufEvent → Prop
  | .add _ _ => ¬ w.set.FullOfDereferenced
  | _ => True

instance (w : MbufWorld) (event : MbufEvent) : Decidable (w.Allowed event) := by
  cases event <;> unfold MbufWorld.Allowed <;> infer_instance

instance (ms : MbufSet) : Decidable ms.FullOfDereferenced := by
  unfold MbufSet.FullOfDereferenced
  infer_instance

instance (w : MbufWorld) (event : MbufEvent) : Decidable (w.Roomy event) := by
  cases event <;> unfold MbufWorld.Roomy <;> infer_instance

/-- The number of items in the ring that hold a packet. -/
def MbufSet.holding (ms : MbufSet) (b : Nat) : Nat := (ms.items.map MbufItem.buffer).count (some b)

/-! ## What the ring does to the list of its items -/

theorem MbufSet.items_length (ms : MbufSet) : ms.items.length = ms.len := ring_length ..

theorem extractLoop_spec {len : Nat} : ∀ (ms : MbufSet) (h : len ≤ ms.array.length),
    let rest := (ring ms.array .null ms.head len).dropWhile (·.inst.isNone)
    (extractLoop len ms h).1.items = rest.tail ∧ (extractLoop len ms h).2 = rest.head? ∧
      (extractLoop len ms h).1.array = ms.array := by
  induction len with
  | zero =>
    intro ms h
    exact ⟨rfl, rfl, rfl⟩
  | succ len ih =>
    intro ms h
    have hne : ms.array.length ≠ 0 := by omega
    have hhead : ms.head % ms.array.length = ms.head := mod_eq_of_lt (ms.inside hne)
    have hrest : ring (ms.advance len (le_of_succ_le h)).array .null
        (ms.advance len (le_of_succ_le h)).head len =
          ring ms.array .null (ms.head + 1) len := by
      show ring ms.array .null (mbufIndex ms.head 1 ms.capacity) len = _
      rw [ms.mbufIndex_eq _ _ hne, ring_mod]
    unfold extractLoop
    rw [ring_succ, hhead]
    dsimp only
    by_cases hinst : (ms.array.getD ms.head .null).inst.isSome
    · rw [if_pos hinst, dropWhile_cons_of_neg
        (by simpa [Option.isSome_iff_ne_none] using hinst)]
      exact ⟨hrest, rfl, rfl⟩
    · rw [if_neg hinst, dropWhile_cons_of_pos (by simpa using hinst), ← hrest]
      exact ih _ _

theorem mbufExtractItem_spec {ms : MbufSet} :
    (mbufExtractItem ms).1.items = (ms.items.dropWhile (·.inst.isNone)).tail ∧
      (mbufExtractItem ms).2 = (ms.items.dropWhile (·.inst.isNone)).head? ∧
      (mbufExtractItem ms).1.capacity = ms.capacity := by
  obtain ⟨hits, hitem, harray⟩ := extractLoop_spec ms ms.fits
  exact ⟨hits, hitem, congrArg length harray⟩

theorem MbufSet.items_clear (ms : MbufSet) {i : Nat} (hi : i < ms.len) :
    (ms.clear (mbufIndex ms.head i ms.capacity)).items = ms.items.set i .null := by
  have hfits := ms.fits
  show ring (ms.array.set _ _) .null ms.head ms.len = _
  rw [ms.mbufIndex_eq _ _ (by omega), ring_set _ _ _ _ hi ms.fits]
  rfl

theorem MbufSet.items_getElem? (ms : MbufSet) {i : Nat} (hi : i < ms.len) :
    ms.items[i]? = some (ms.array.getD (mbufIndex ms.head i ms.capacity) .null) := by
  have hfits := ms.fits
  rw [ms.mbufIndex_eq _ _ (by omega)]
  exact ring_getElem? hi

theorem MbufSet.items_append (ms : MbufSet) (item : MbufItem) (h : ms.len < ms.array.length) :
    (ms.append item h).items = ms.items ++ [item] := by
  show ring (ms.array.set _ _) .null ms.head (ms.len + 1) = _
  rw [ms.mbufIndex_eq _ _ (ne_of_gt (zero_lt_of_lt h)), ring_push _ _ _ _ h]
  rfl

/-! ## Reference counts -/

/-- Packets with references are there and count them; the others are freed. -/
def HeapRefs (heap : MbufHeap) (refs : Nat → Nat) : Prop :=
  ∀ b, heap[b]?.join.map MbufBuffer.refcount = if refs b = 0 then none else some (refs b : Int)

section

variable {heap : MbufHeap} {refs refs' : Nat → Nat} {b : Nat}

section

variable (h : HeapRefs heap refs)

include h

theorem HeapRefs.congr (hrefs : ∀ b, refs b = refs' b) : HeapRefs heap refs' :=
  funext hrefs ▸ h

theorem HeapRefs.alive (hb : 0 < refs b) : ∃ mb, heap[b]? = some (some mb) := by
  have hcell := h b
  rw [if_neg (ne_of_gt hb), Option.map_eq_some_iff] at hcell
  obtain ⟨mb, hmb, -⟩ := hcell
  exact ⟨mb, Option.join_eq_some_iff.mp hmb⟩

theorem HeapRefs.counted {mb : MbufBuffer} (hmb : heap[b]? = some (some mb)) :
    mb.refcount = (refs b : Int) := by
  have hcell := h b
  rw [hmb] at hcell
  split at hcell
  · cases hcell
  · exact Option.some.inj hcell

theorem HeapRefs.lt_length (hb : 0 < refs b) : b < heap.length := by
  obtain ⟨mb, hmb⟩ := h.alive hb
  exact (List.getElem?_eq_some_iff.mp hmb).1

theorem HeapRefs.fresh : refs heap.length = 0 := by
  by_contra hne
  exact lt_irrefl _ (h.lt_length (pos_of_ne_zero hne))

theorem HeapRefs.set (hb : b < heap.length) (hoth : ∀ b', b' ≠ b → refs' b' = refs b')
    {cell : Option MbufBuffer} (hcell : cell.map MbufBuffer.refcount =
      if refs' b = 0 then none else some (refs' b : Int)) : HeapRefs (heap.set b cell) refs' := by
  intro b'
  by_cases hbb : b' = b
  · rw [hbb, getElem?_set_self hb]
    exact hcell
  · rw [getElem?_set_ne (Ne.symm hbb), hoth b' hbb]
    exact h b'

/-- A reference is given up. -/
theorem HeapRefs.free (hrefs : ∀ b', refs b' = refs' b' + [b].count b') :
    ∃ heap', mbufFreeBuf heap (some b) = some heap' ∧ HeapRefs heap' refs' := by
  have hself : refs b = refs' b + 1 := by rw [hrefs b, count_singleton_self]
  obtain ⟨mb, hmb⟩ := h.alive (show 0 < refs b by omega)
  have hcnt := h.counted hmb
  simp only [mbufFreeBuf, hmb, show mb.refcount - 1 = refs' b by omega]
  refine ⟨_, rfl, h.set (h.lt_length (by omega)) (fun b' hne => ?_) ?_⟩
  · rw [hrefs b', count_eq_zero_of_not_mem (by simpa using hne), add_zero]
  · by_cases hzero : refs' b = 0
    · rw [if_pos hzero, if_pos (by omega)]
      rfl
    · rw [if_neg hzero, if_neg (by omega)]
      rfl

/-- A reference is added. -/
theorem HeapRefs.ref (hb : 0 < refs b) (hrefs : ∀ b', refs' b' = refs b' + [b].count b') :
    ∃ heap', mbufRef heap b = some heap' ∧ HeapRefs heap' refs' := by
  obtain ⟨mb, hmb⟩ := h.alive hb
  have hself : refs' b = refs b + 1 := by rw [hrefs b, count_singleton_self]
  simp only [mbufRef, hmb]
  refine ⟨_, rfl, h.set (h.lt_length hb) (fun b' hne => ?_) ?_⟩
  · rw [hrefs b', count_eq_zero_of_not_mem (by simpa using hne), add_zero]
  · rw [hself, if_neg (succ_ne_zero _), Option.map_some, h.counted hmb]
    rfl

theorem HeapRefs.alloc (buf : Bytes)
    (hrefs : ∀ b', refs' b' = refs b' + [heap.length].count b') :
    HeapRefs (mbufAllocBuf heap buf).1 refs' := by
  intro b
  by_cases hb : b = heap.length
  · rw [hb, mbufAllocBuf, getElem?_concat_length, hrefs, h.fresh, count_singleton_self]
    rfl
  · have hsame : (mbufAllocBuf heap buf).1[b]? = heap[b]? := by
      rw [mbufAllocBuf, getElem?_append]
      split
      · rfl
      · rw [getElem?_eq_none (show _ ≤ b by omega), getElem?_eq_none]
        rw [length_singleton]
        omega
    rw [hsame, hrefs b, count_eq_zero_of_not_mem (by simpa using hb), add_zero]
    exact h b

end

end

/-! ## The queue the ring stands for -/

/-- The item of a queued entry: a revoked one has lost its pointers. -/
def slot (e : (Nat × Nat) × Bool) : MbufItem := if e.2 then ⟨some e.1.1, some e.1.2⟩ else .null

variable {e : (Nat × Nat) × Bool}

theorem slot_isNone : (slot e).inst.isNone = !e.2 := by
  obtain ⟨x, live⟩ := e
  cases live <;> rfl

theorem slot_buffer {b : Nat} : (slot e).buffer = some b ↔ e.2 = true ∧ e.1.1 = b := by
  obtain ⟨x, live⟩ := e
  cases live <;> simp [slot, MbufItem.null]

theorem slot_inst {mi : Nat} : (slot e).inst = some mi ↔ e.2 = true ∧ e.1.2 = mi := by
  obtain ⟨x, live⟩ := e
  cases live <;> simp [slot, MbufItem.null]

section

variable {ms : MbufSet} {q : List ((Nat × Nat) × Bool)} {heap : MbufHeap} {outside : Nat → Nat}
  {buffer : Nat}

section

variable (hq : ms.items = q.map slot)

include hq

theorem items_dropWhile : ms.items.dropWhile (·.inst.isNone) = (q.dropWhile (!·.2)).map slot := by
  rw [hq, dropWhile_map]
  congr 2
  funext e
  exact slot_isNone

theorem holding_of_items (b : Nat) :
    ms.holding b = (q.map fun e => (slot e).buffer).count (some b) := by
  rw [MbufSet.holding, hq, map_map]
  rfl

/-- Reading the ring: the entries passed over hold no packet, so the packet of the
item that is returned is the only one that leaves. -/
theorem mbufExtractItem_queue :
    (mbufExtractItem ms).1.items = (q.dropWhile (!·.2)).tail.map slot ∧
      (mbufExtractItem ms).2 = (q.dropWhile (!·.2)).head?.map slot ∧
      (mbufExtractItem ms).1.capacity = ms.capacity ∧
      ∀ b, ms.holding b = (mbufExtractItem ms).1.holding b +
        ((mbufExtractItem ms).2.bind MbufItem.buffer).toList.count b := by
  obtain ⟨hits, hitem, hcap⟩ := mbufExtractItem_spec
  rw [items_dropWhile hq, ← map_tail] at hits
  rw [items_dropWhile hq, head?_map] at hitem
  refine ⟨hits, hitem, hcap, fun b => ?_⟩
  have hpassed : ((q.takeWhile (!·.2)).map fun e => (slot e).buffer).count (some b) = 0 := by
    rw [count_eq_zero]
    intro hmem
    obtain ⟨e, he, hbuf⟩ := mem_map.mp hmem
    have hdead : (!e.2) = true := mem_takeWhile_imp (p := fun e : (Nat × Nat) × Bool => !e.2) he
    rw [(slot_buffer.mp hbuf).1] at hdead
    cases hdead
  have hspl := congrArg (fun l => (l.map fun e => (slot e).buffer).count (some b))
    (takeWhile_append_dropWhile (p := fun e : (Nat × Nat) × Bool => !e.2) (l := q))
  simp only [map_append, count_append, hpassed, zero_add] at hspl
  rw [holding_of_items hq, holding_of_items hits, hitem, ← hspl]
  cases q.dropWhile (!·.2) with
  | nil => rfl
  | cons e rest =>
    rw [map_cons, count_cons, tail_cons, head?_cons]
    congr 1
    show _ = ((slot e).buffer).toList.count b
    cases (slot e).buffer with
    | none => simp
    | some b' => simp [count_singleton]

omit hq in
theorem live_of_head? (h : (q.dropWhile (!·.2)).head? = some e) : e.2 = true := by
  have hnot := head?_dropWhile_not (fun e : (Nat × Nat) × Bool => !e.2) q
  rw [h] at hnot
  simpa using hnot

theorem mbufExtractItem_live (hfull : ms.len = ms.capacity) (hroom : ¬ ms.FullOfDereferenced) :
    ∃ e rest, q.dropWhile (!·.2) = e :: rest ∧ e.2 = true := by
  cases hrest : q.dropWhile (!·.2) with
  | nil =>
    refine absurd ⟨hfull, fun item hmem => ?_⟩ hroom
    rw [hq] at hmem
    obtain ⟨e, he, rfl⟩ := mem_map.mp hmem
    have hdead : (!e.2) = true := dropWhile_eq_nil_iff.mp hrest e he
    rw [← slot_isNone] at hdead
    exact Option.isNone_iff_eq_none.mp hdead
  | cons e rest => exact ⟨e, rest, rfl, live_of_head? (congrArg head? hrest)⟩

omit hq in
theorem mbufAddItem_aborts (heap : MbufHeap) (hfull : ms.FullOfDereferenced) {buffer inst : Nat} :
    mbufAddItem heap ms buffer inst = none := by
  have hnone : (mbufExtractItem ms).2 = none := by
    rw [mbufExtractItem_spec.2.1, dropWhile_eq_nil_iff.mpr]
    · rfl
    · intro item hmem
      exact Option.isNone_iff_eq_none.mpr (hfull.2 item hmem)
  unfold mbufAddItem
  rw [if_pos hfull.1]
  cases hext : mbufExtractItem ms with
  | mk ms' item =>
    rw [hext] at hnone
    cases hnone
    rfl

theorem mbufAppend_spec (hlen : ms.len < ms.capacity)
    (hrefs : HeapRefs heap fun b => outside b + ms.holding b) (hb : 0 < outside buffer)
    {inst : Nat} :
    ∃ heap' ms', mbufAppend heap ms buffer inst = some (heap', ms') ∧
      ms'.items = (q ++ [((buffer, inst), true)]).map slot ∧ ms'.capacity = ms.capacity ∧
      HeapRefs heap' fun b => outside b + ms'.holding b := by
  have hlen' : ms.len < ms.array.length := hlen
  have hits : (ms.append ⟨some buffer, some inst⟩ hlen').items =
      (q ++ [((buffer, inst), true)]).map slot := by
    rw [ms.items_append, hq, map_append]
    rfl
  have hcnt : ∀ b, outside b + (ms.append ⟨some buffer, some inst⟩ hlen').holding b =
      outside b + ms.holding b + [buffer].count b := by
    intro b
    rw [holding_of_items hits, holding_of_items hq, map_append, count_append, add_assoc]
    simp [slot, count_singleton]
  obtain ⟨heap', href, hrefs'⟩ := hrefs.ref (Nat.add_pos_left hb _) hcnt
  unfold mbufAppend
  rw [dif_pos hlen', href]
  exact ⟨heap', _, rfl, hits, length_set, hrefs'⟩

/-- A full ring loses the items up to its first live one. -/
theorem mbufAddItem_spec (hrefs : HeapRefs heap fun b => outside b + ms.holding b)
    (hb : 0 < outside buffer) (hroom : ¬ ms.FullOfDereferenced) {inst : Nat} :
    ∃ heap' ms', mbufAddItem heap ms buffer inst = some (heap', ms') ∧
      ms'.items = ((if q.length = ms.capacity then (q.dropWhile (!·.2)).tail else q) ++
        [((buffer, inst), true)]).map slot ∧ ms'.capacity = ms.capacity ∧
      HeapRefs heap' fun b => outside b + ms'.holding b := by
  have hlen : q.length = ms.len := by
    rw [← ms.items_length, hq, length_map]
  have hfits : ms.len ≤ ms.capacity := ms.fits
  unfold mbufAddItem
  rw [hlen]
  by_cases hfull : ms.len = ms.capacity
  · rw [if_pos hfull, if_pos hfull]
    obtain ⟨e, rest, hdrop, hlive⟩ := mbufExtractItem_live hq hfull hroom
    obtain ⟨hits, hitem, hcap, hhold⟩ := mbufExtractItem_queue hq
    rw [hdrop] at hits hitem
    have hbuf : (slot e).buffer = some e.1.1 := slot_buffer.mpr ⟨hlive, rfl⟩
    cases hext : mbufExtractItem ms with
    | mk ms1 item =>
      rw [hext] at hits hitem hcap hhold
      dsimp only at hits hitem hcap hhold
      cases hitem
      simp only [Option.map_some, Option.bind_some, head?_cons, hbuf, Option.toList_some] at hhold
      -- the packet of the item that leaves loses one reference
      have hcnt : ∀ b, outside b + ms.holding b = outside b + ms1.holding b + [e.1.1].count b :=
        fun b => by rw [hhold b, add_assoc]
      obtain ⟨heap1, hfree, hrefs1⟩ := hrefs.free hcnt
      have hlen1 : ms1.len < ms1.capacity := by
        have hsh : (q.dropWhile (!·.2)).length ≤ q.length :=
          (dropWhile_sublist _).length_le
        rw [hdrop, length_cons] at hsh
        rw [hcap, ← ms1.items_length, hits, tail_cons, length_map]
        omega
      obtain ⟨heap', ms', happ, hitems', hcap', hrefs'⟩ :=
        mbufAppend_spec hits hlen1 hrefs1 hb
      simp only [head?_cons, Option.map_some, hbuf, hfree]
      rw [hdrop]
      exact ⟨heap', ms', happ, hitems', hcap'.trans hcap, hrefs'⟩
  · rw [if_neg hfull, if_neg hfull]
    exact mbufAppend_spec hq (by omega) hrefs hb

end

/-- The entries of a client are revoked. -/
def revoked (mi : Nat) (e : (Nat × Nat) × Bool) : (Nat × Nat) × Bool := (e.1, e.2 && !(e.1.2 == mi))

/-- The loop revokes the entries of the client and gives up their references; `pre` is what it
has passed. -/
theorem dereferenceLoop_spec {mi : Nat} {rest : List ((Nat × Nat) × Bool)} :
    ∀ (pre : List ((Nat × Nat) × Bool)) {heap : MbufHeap} {ms : MbufSet},
      ms.items = (pre ++ rest).map slot → (HeapRefs heap fun b => outside b + ms.holding b) →
      ∃ heap' ms', dereferenceLoop mi rest.length pre.length heap ms = some (heap', ms') ∧
        ms'.items = (pre ++ rest.map (revoked mi)).map slot ∧ ms'.capacity = ms.capacity ∧
        HeapRefs heap' fun b => outside b + ms'.holding b := by
  induction rest with
  | nil =>
    intro pre heap ms hq hrefs
    exact ⟨heap, ms, rfl, hq, rfl, hrefs⟩
  | cons e rest ih =>
    intro pre heap ms hq hrefs
    have hlt : pre.length < ms.len := by
      rw [← ms.items_length, hq]
      simp
    have hitem : ms.array.getD (mbufIndex ms.head pre.length ms.capacity) .null = slot e := by
      have hget := ms.items_getElem? hlt
      rw [hq, getElem?_map, getElem?_append_right (le_refl _)] at hget
      simpa using hget.symm
    simp only [length_cons, dereferenceLoop, hitem]
    by_cases hmi : (slot e).inst = some mi
    · obtain ⟨hlive, hinst⟩ := slot_inst.mp hmi
      have hbuf : (slot e).buffer = some e.1.1 := slot_buffer.mpr ⟨hlive, rfl⟩
      have hrevoked : revoked mi e = (e.1, false) := by
        rw [revoked, hlive, hinst, beq_self_eq_true]
        rfl
      have hcnt : ∀ b, ms.holding b =
          (ms.clear (mbufIndex ms.head pre.length ms.capacity)).holding b +
            [e.1.1].count b := by
        intro b
        have hclr := ms.items_clear hlt
        rw [MbufSet.holding, MbufSet.holding, hclr, hq, map_append, map_cons,
          set_append_right _ _ (by simp)]
        simp only [length_map, map_append, map_cons, count_append, count_cons, hbuf, MbufItem.null]
        simp
        omega
      have hdrop : ∀ b, outside b + ms.holding b = outside b +
          (ms.clear (mbufIndex ms.head pre.length ms.capacity)).holding b + [e.1.1].count b :=
        fun b => by rw [hcnt b, add_assoc]
      obtain ⟨heap1, hfree, hrefs1⟩ := hrefs.free hdrop
      rw [if_pos hmi, hbuf, hfree]
      have hq1 : (ms.clear (mbufIndex ms.head pre.length ms.capacity)).items =
          ((pre ++ [(e.1, false)]) ++ rest).map slot := by
        rw [ms.items_clear hlt, hq]
        simp [slot]
      obtain ⟨heap', ms', hloop, hits, hcap, hrefs'⟩ := ih (pre ++ [(e.1, false)]) hq1
        hrefs1
      rw [length_append, length_singleton] at hloop
      refine ⟨heap', ms', hloop, ?_, hcap.trans length_set, hrefs'⟩
      rw [hits, map_cons, hrevoked, append_assoc]
      rfl
    · have hsame : revoked mi e = e := by
        rw [slot_inst] at hmi
        obtain ⟨x, live⟩ := e
        cases live with
        | false => rfl
        | true =>
          have hne : (x.2 == mi) = false := beq_eq_false_iff_ne.mpr fun h => hmi ⟨rfl, h⟩
          simp [revoked, hne]
      rw [if_neg hmi]
      obtain ⟨heap', ms', hloop, hits, hcap, hrefs'⟩ :=
        ih (pre ++ [e]) (hq.trans (by simp)) hrefs
      rw [length_append, length_singleton] at hloop
      refine ⟨heap', ms', hloop, ?_, hcap, hrefs'⟩
      rw [hits, map_cons, hsame, append_assoc]
      rfl

end

/-! ## Whole runs -/

/-- The operations on the queue; packets are none of its business. -/
def fifoStep (capacity : Nat) (f : Fifo (Nat × Nat)) :
    MbufEvent → Option (Fifo (Nat × Nat) × Option MbufItem)
  | .add buffer inst => some (f.push capacity (buffer, inst), none)
  | .extract => some ((f.pop .taken).1, (f.pop .taken).2.map fun x => ⟨some x.1, some x.2⟩)
  | .dereference inst => some (f.revoke (·.2 == inst), none)
  | _ => some (f, none)

/-- The references to a packet outside of the queue. -/
def MbufWorld.outside (w : MbufWorld) (b : Nat) : Nat := w.created.count b + w.sending.count b

structure MbufOk (capacity : Nat) (w : MbufWorld) (f : Fifo (Nat × Nat)) : Prop where
  refs : HeapRefs w.heap fun b => w.outside b + w.set.holding b
  once : w.created.Nodup
  items : w.set.items = f.queue.map slot
  sized : w.set.capacity = capacity

theorem slot_of_live (h : e.2 = true) : slot e = ⟨some e.1.1, some e.1.2⟩ := by
  rw [slot, if_pos h]

theorem count_eq_erase {held : List Nat} {b : Nat} (hb : b ∈ held) (b' : Nat) :
    held.count b' = (held.erase b).count b' + [b].count b' := by
  rw [(perm_cons_erase hb).count_eq, ← singleton_append, count_append, add_comm]

section

variable {capacity : Nat} {w : MbufWorld} {f : Fifo (Nat × Nat)}

theorem MbufOk.extract (h : MbufOk capacity w f) :
    ∃ w' f' o, mbufStep w .extract = some (w', o) ∧ fifoStep capacity f .extract = some (f', o) ∧
      MbufOk capacity w' f' := by
  obtain ⟨hits, hitem, hcap, hhold⟩ := mbufExtractItem_queue h.items
  obtain ⟨hqueue, hout⟩ := f.pop_queue .taken
  refine ⟨_, (f.pop .taken).1, _, rfl, ?_, ?_, h.once, ?_, hcap.trans h.sized⟩
  · show some _ = some _
    rw [hitem, hout, Option.map_map]
    congr 2
    cases hhead : (f.queue.dropWhile (!·.2)).head? with
    | none => rfl
    | some e => exact congrArg some (slot_of_live (live_of_head? hhead)).symm
  · refine h.refs.congr fun b => ?_
    show w.created.count b + w.sending.count b + w.set.holding b =
      w.created.count b + (_ ++ w.sending).count b + (mbufExtractItem w.set).1.holding b
    rw [hhold b, count_append]
    omega
  · rw [hqueue]
    exact hits

/-- A reference outside of the queue is given up. -/
theorem MbufOk.giveUp (h : MbufOk capacity w f) (buffer : Nat) (created sending : List Nat)
    (hcnt : ∀ b, w.outside b = created.count b + sending.count b + [buffer].count b)
    (honce : created.Nodup) :
    ∃ heap, mbufFreeBuf w.heap (some buffer) = some heap ∧
      MbufOk capacity ⟨heap, w.set, created, sending⟩ f := by
  have hall : ∀ b, w.outside b + w.set.holding b =
      created.count b + sending.count b + w.set.holding b + [buffer].count b := by
    intro b
    rw [hcnt b, add_right_comm]
  obtain ⟨heap, hfree, hrefs⟩ := h.refs.free hall
  exact ⟨heap, hfree, hrefs, honce, h.items, h.sized⟩

theorem MbufOk.alloc (h : MbufOk capacity w f) (buf : Bytes) :
    ∃ w' f' o, mbufStep w (.alloc buf) = some (w', o) ∧
      fifoStep capacity f (.alloc buf) = some (f', o) ∧ MbufOk capacity w' f' := by
  have hnone := h.refs.fresh
  have hzero : w.created.count w.heap.length = 0 := by
    unfold MbufWorld.outside at hnone
    omega
  refine ⟨_, _, _, rfl, rfl, h.refs.alloc buf fun b => ?_, ?_, h.items, h.sized⟩
  · show (w.heap.length :: w.created).count b + w.sending.count b + w.set.holding b = _
    rw [← singleton_append, count_append, MbufWorld.outside]
    omega
  · exact nodup_cons.mpr ⟨count_eq_zero.mp hzero, h.once⟩

/-- **Each call** on the ring is one of the queue. -/
theorem mbufStep_refines (w : MbufWorld) (f : Fifo (Nat × Nat)) (event : MbufEvent)
    (h : MbufOk capacity w f) (hg : w.Allowed event ∧ w.Roomy event) :
    ∃ w' f' o, mbufStep w event = some (w', o) ∧ fifoStep capacity f event = some (f', o) ∧
      MbufOk capacity w' f' := by
  obtain ⟨hallowed, hroom⟩ := hg
  cases event with
  | alloc buf => exact h.alloc buf
  | extract => exact h.extract
  | add buffer inst =>
    have hcr : 0 < w.created.count buffer := count_pos_iff.mpr hallowed
    obtain ⟨heap', ms', hadd, hits, hcap, hrefs⟩ :=
      mbufAddItem_spec h.items h.refs (Nat.add_pos_left hcr _) hroom
    refine ⟨{ w with heap := heap', set := ms' }, _, none, ?_, rfl, hrefs, h.once, ?_,
      hcap.trans h.sized⟩
    · show (mbufAddItem w.heap w.set buffer inst).map _ = _
      rw [hadd]
      rfl
    · show ms'.items = _
      rw [hits, h.sized]
      unfold Fifo.push
      split
      · show _ = ((f.pop .dropped).1.queue ++ _).map slot
        rw [(f.pop_queue .dropped).1]
      · rfl
  | release buffer =>
    obtain ⟨heap', hfree, hok⟩ := h.giveUp buffer (w.created.erase buffer) w.sending
      (fun b => by rw [MbufWorld.outside, count_eq_erase hallowed]; omega) (h.once.erase buffer)
    refine ⟨_, f, none, ?_, rfl, hok⟩
    show (mbufFreeBuf w.heap (some buffer)).map _ = _
    rw [hfree]
    rfl
  | sent buffer =>
    obtain ⟨heap', hfree, hok⟩ := h.giveUp buffer w.created (w.sending.erase buffer)
      (fun b => by rw [MbufWorld.outside, count_eq_erase (show buffer ∈ w.sending from hallowed),
        add_assoc]) h.once
    refine ⟨_, f, none, ?_, rfl, hok⟩
    show (mbufFreeBuf w.heap (some buffer)).map _ = _
    rw [hfree]
    rfl
  | dereference inst =>
    have hlen : f.queue.length = w.set.len := by
      rw [← w.set.items_length, h.items, length_map]
    obtain ⟨heap', ms', hloop, hits, hcap, hrefs⟩ :=
      dereferenceLoop_spec [] h.items h.refs
    refine ⟨{ w with heap := heap', set := ms' }, _, none, ?_, rfl, hrefs, h.once, hits,
      hcap.trans h.sized⟩
    show (mbufDereferenceInstance w.heap w.set inst).map _ = _
    rw [mbufDereferenceInstance, ← hlen, show dereferenceLoop _ _ 0 _ _ = _ from hloop]
    rfl

end

def addedItems (events : List MbufEvent) : List (Nat × Nat) :=
  events.filterMap fun
    | .add buffer inst => some (buffer, inst)
    | _ => none

theorem fifoStep_run {capacity : Nat} {events : List MbufEvent} {f0 f : Fifo (Nat × Nat)}
    {outs : List (Option MbufItem)} (h : run (fifoStep capacity) f0 events = some (f, outs)) :
    f.entries = f0.entries ++ addedItems events ∧
      f.taken.map (fun x => MbufItem.mk (some x.1) (some x.2)) =
        f0.taken.map (fun x => MbufItem.mk (some x.1) (some x.2)) ++ emitted outs := by
  induction events generalizing f0 outs with
  | nil =>
    cases h
    exact ⟨(append_nil _).symm, (append_nil _).symm⟩
  | cons event events ih =>
    obtain ⟨f1, o, os, hstep, hrun, rfl⟩ := run_cons_inv h
    obtain ⟨hents, htk⟩ := ih hrun
    rw [hents, htk]
    cases event with
    | add buffer inst =>
      cases hstep
      rw [Fifo.entries_push, Fifo.taken_push]
      exact ⟨by simp [addedItems], rfl⟩
    | extract =>
      cases hstep
      rw [Fifo.entries_pop, Fifo.taken_pop, if_pos rfl, map_append, append_assoc]
      refine ⟨rfl, ?_⟩
      cases (f0.pop .taken).2 with
      | none => rfl
      | some x => rfl
    | dereference inst =>
      cases hstep
      rw [Fifo.entries_revoke]
      exact ⟨rfl, rfl⟩
    | alloc buf | release buffer | sent buffer =>
      cases hstep
      exact ⟨rfl, rfl⟩

theorem mbufOk_start {size : BitVec 32} {ms : MbufSet} (hinit : mbufInit size = some ms) :
    MbufOk ms.capacity (.start ms) .empty := by
  have hlen : ms.len = 0 := by
    unfold mbufInit at hinit
    split at hinit
    · cases hinit
    · split at hinit
      · split at hinit
        · cases hinit; rfl
        · cases hinit
      · cases hinit; rfl
  have hits : ms.items = [] := eq_nil_of_length_eq_zero (ms.items_length.trans hlen)
  have hrefs : ∀ b, (MbufWorld.start ms).outside b + ms.holding b = 0 := by
    intro b
    rw [MbufSet.holding, hits]
    rfl
  exact ⟨fun b => (if_pos (hrefs b)).symm, nodup_nil, hits, rfl⟩

/-- **A bounded queue, until it is full of dereferenced items.** If no item is
added to a ring that is full of them, no assertion fails, what is extracted is
what was added, in order, less what was dereferenced and what was dropped from a
full ring, and every packet counts its creator, the items that hold it and those
that are being sent. An item added to such a ring aborts the server. -/
theorem mbuf_fifo_until_full_of_dereferenced {size : BitVec 32} {ms : MbufSet}
    (hinit : mbufInit size = some ms) {events : List MbufEvent}
    (hguard : RunGuard mbufStep (fun w e => w.Allowed e ∧ w.Roomy e) (.start ms) events) :
    ∃ w f outs, run mbufStep (.start ms) events = some (w, outs) ∧
      run (fifoStep ms.capacity) .empty events = some (f, outs) ∧
      f.entries = addedItems events ∧
      emitted outs = f.taken.map (fun x => ⟨some x.1, some x.2⟩) ∧
      w.set.items = f.queue.map slot ∧
      (∀ b mb, w.heap[b]? = some (some mb) → mb.refcount =
        (if b ∈ w.created then 1 else 0) + (w.set.holding b : Int) + w.sending.count b) ∧
      ∀ b inst, b ∈ w.created →
        (mbufAddItem w.heap w.set b inst = none ↔ w.set.FullOfDereferenced) := by
  obtain ⟨w, f, outs, hrun, hfifo, hok⟩ :=
    run_lockstep (mbufStep_refines) (mbufOk_start hinit) hguard
  obtain ⟨hentries, htaken⟩ := fifoStep_run hfifo
  refine ⟨w, f, outs, hrun, hfifo, hentries, htaken.symm, hok.items, ?_, ?_⟩
  · intro b mb hmb
    rw [hok.refs.counted hmb, MbufWorld.outside]
    split
    · next hmem =>
        rw [count_eq_one_of_mem hok.once hmem]
        push_cast
        ring
    · next hmem =>
        rw [count_eq_zero_of_not_mem hmem]
        push_cast
        ring
  · intro b inst hb
    constructor
    · intro hnone
      by_contra hroom
      have hcreated : 0 < w.created.count b := count_pos_iff.mpr hb
      obtain ⟨heap', ms', hadd, -⟩ :=
        mbufAddItem_spec hok.items hok.refs (Nat.add_pos_left hcreated _) hroom
      rw [hnone] at hadd
      cases hadd
    · intro hfull
      exact mbufAddItem_aborts w.heap hfull

def twoSlotRing : MbufSet := (mbufInit 2#32).get (by decide)

/-- Two packets for three clients, in a ring of two; the first client leaves. -/
def twoSlotEvents : List MbufEvent :=
  [.alloc [1], .add 0 7, .add 0 8, .release 0, .dereference 7, .alloc [2], .add 1 9, .release 1,
    .extract, .sent 1, .extract]

theorem mbuf_fifo_until_full_of_dereferenced_two : ∃ w outs, mbufInit 2#32 = some twoSlotRing ∧
    run mbufStep (.start twoSlotRing) twoSlotEvents = some (w, outs) ∧
      emitted outs = [⟨some 1, some 9⟩] := by
  have hinit : mbufInit 2#32 = some twoSlotRing := (Option.some_get _).symm
  obtain ⟨w, f, outs, hrun, -⟩ := mbuf_fifo_until_full_of_dereferenced hinit
    (show RunGuard mbufStep _ _ twoSlotEvents by decide)
  refine ⟨w, outs, hinit, hrun, ?_⟩
  have houts : (run mbufStep (.start twoSlotRing) twoSlotEvents).map (emitted ·.2) =
      some [⟨some 1, some 9⟩] := by
    decide
  rw [hrun] at houts
  exact Option.some.inj houts

def oneSlotRing : MbufSet := (mbufInit 1#32).get (by decide)

/-- A packet is queued for a client that leaves, then there is one for another. -/
def oneSlotEvents : List MbufEvent :=
  [.alloc [1], .add 0 7, .release 0, .dereference 7, .alloc [2], .add 1 8]

/-- The ring is full, its client has left, and the next packet aborts the server. -/
theorem full_ring_of_dereferenced_aborts : mbufInit 1#32 = some oneSlotRing ∧
    RunGuard mbufStep MbufWorld.Allowed (.start oneSlotRing) oneSlotEvents ∧
    run mbufStep (.start oneSlotRing) oneSlotEvents = none := by
  refine ⟨(Option.some_get _).symm, by decide, ?_⟩
  rw [← Option.isNone_iff_eq_none]
  decide

end OpenVpn
