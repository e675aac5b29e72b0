import Mathlib.Data.Finset.Card
import Mathlib.Order.Interval.Finset.Nat
import OpenVpn.Base.Reassembly
import OpenVpn.Base.Run
import OpenVpn.Control.Reliable

/-!
# The receive buffer of the control channel

A peer that is authenticated but otherwise free in what it sends fills the
receive array; deliveries empty it in order. While the next expected id stays
below `2 ^ 31` the array of `n` slots is exactly a reassembly window of `n` ids:

* `WindowOk` — active slots hold distinct ids of `[packet_id, packet_id + n)`.
* `WindowOk.full_holds` — a full array holds every id of the window, so a
  missing id always finds a free slot (pigeonhole).
* `receiveControl_refines`, `deliverSequenced_refines` — the array, seen through
  `Reliable.view`, takes the steps of `Reassembly`, and no assertion fails.
* `receive_buffer_never_stuck` — over every sequence of packets and deliveries.
-/

namespace OpenVpn

open Base List

variable {n i : Nat} {rel : Reliable} {e : ReliableEntry}

/-! ## Packet ids below the middle of their range -/

theorem reliablePidInRange2_eq {test base : PacketIdType} (hbase : base.toNat ≤ 2 ^ 31)
    (hn : n < 2 ^ 31) :
    reliablePidInRange2 test base (BitVec.ofNat 32 n) = decide (test.toNat < base.toNat + n) := by
  have hsum : (base + BitVec.ofNat 32 n).toNat = base.toNat + n := by
    rw [BitVec.toNat_add, BitVec.toNat_ofNat]
    omega
  have hle : base ≤ base + BitVec.ofNat 32 n := by
    rw [BitVec.le_def, hsum]
    omega
  rw [reliablePidInRange2, if_pos hle, decide_eq_decide, BitVec.lt_def, hsum]

theorem reliablePidMin_eq {p1 p2 : PacketIdType} (hp2 : p2.toNat ≤ 2 ^ 31)
    (hp1 : p1.toNat < p2.toNat + 2 ^ 31) : reliablePidMin p1 p2 = decide (p1.toNat < p2.toNat) := by
  have hsub : (p1 - p2).toNat = (2 ^ 32 - p2.toNat + p1.toNat) % 2 ^ 32 := BitVec.toNat_sub ..
  have hmid : (0x80000000#32).toNat = 2 ^ 31 := rfl
  rw [reliablePidMin, reliablePidInRange1, subtractPid, ← decide_not, decide_eq_decide,
    BitVec.lt_def, hsub, hmid]
  have := p1.isLt
  by_cases hlt : p1.toNat < p2.toNat
  · have hmod : (2 ^ 32 - p2.toNat + p1.toNat) % 2 ^ 32 = 2 ^ 32 - p2.toNat + p1.toNat :=
      Nat.mod_eq_of_lt (by omega)
    omega
  · have hmod : (2 ^ 32 - p2.toNat + p1.toNat) % 2 ^ 32 = p1.toNat - p2.toNat := by
      have hspl : 2 ^ 32 - p2.toNat + p1.toNat = (p1.toNat - p2.toNat) + 2 ^ 32 := by omega
      rw [hspl, Nat.add_mod_right]
      exact Nat.mod_eq_of_lt (by omega)
    omega

/-! ## The window -/

/-- The receive array is a window of `n` ids. -/
structure WindowOk (n : Nat) (rel : Reliable) : Prop where
  size : rel.size = n
  room : ∀ (i : Nat) (e : ReliableEntry), rel.array[i]? = some e → rel.offset ≤ e.buf.capacity
  low : rel.packetId.toNat ≤ 2 ^ 31
  window : ∀ i e, rel.ActiveAt i e →
    rel.packetId.toNat ≤ e.packetId.toNat ∧ e.packetId.toNat < rel.packetId.toNat + n
  distinct : ∀ i j e f, rel.ActiveAt i e → rel.ActiveAt j f → e.packetId = f.packetId → i = j

theorem windowOk_cleared {buf : Buffer} {offset : Nat} (hbuf : offset ≤ buf.capacity) (n : Nat)
    (hold : Bool) : WindowOk n (Reliable.cleared buf offset n hold) := by
  constructor
  · exact length_replicate
  · intro i e hi
    rw [(cleared_slot hi).2]
    exact hbuf
  · show (0 : BitVec 32).toNat ≤ 2 ^ 31
    decide
  · intro i e h
    exact absurd h (not_activeAt_cleared buf offset n hold i e)
  · intro i j e f h
    exact absurd h (not_activeAt_cleared buf offset n hold i e)

variable {k : Nat}

/-- **Pigeonhole.** An array without a free slot holds every id of its window. -/
theorem WindowOk.full_holds (h : WindowOk n rel) (hfull : reliableCanGet rel = false)
    (hlo : rel.packetId.toNat ≤ k) (hhi : k < rel.packetId.toNat + n) :
    ∃ i e, rel.ActiveAt i e ∧ e.packetId.toNat = k := by
  have hlen : rel.activeIds.length = n := (activeIds_length_of_full hfull).trans h.size
  -- `n` distinct ids inside an interval of `n` numbers are all of them
  have hnd : (rel.activeIds.map BitVec.toNat).Nodup :=
    (activeIds_nodup h.distinct).map (fun a b hab => BitVec.eq_of_toNat_eq hab)
  have hsub : (rel.activeIds.map BitVec.toNat).toFinset ⊆
      Finset.Ico rel.packetId.toNat (rel.packetId.toNat + n) := by
    intro m hm
    obtain ⟨id, hid, rfl⟩ := mem_map.mp (mem_toFinset.mp hm)
    obtain ⟨i, e, hie, rfl⟩ := mem_activeIds.mp hid
    exact Finset.mem_Ico.mpr (h.window i e hie)
  have heq := Finset.eq_of_subset_of_card_le hsub (by
    rw [toFinset_card_of_nodup hnd, length_map, hlen, Nat.card_Ico]
    omega)
  have hk : k ∈ (rel.activeIds.map BitVec.toNat).toFinset := by
    rw [heq]
    exact Finset.mem_Ico.mpr ⟨hlo, hhi⟩
  obtain ⟨id, hid, hidk⟩ := mem_map.mp (mem_toFinset.mp hk)
  obtain ⟨i, e, hie, rfl⟩ := mem_activeIds.mp hid
  exact ⟨i, e, hie, hidk⟩

/-! ## The array as a reassembly window -/

/-- What the receive array means: the next expected id, and the payload held
under each id. -/
def Reliable.view (rel : Reliable) : Reassembly Bytes where
  next := rel.packetId.toNat
  held := fun k =>
    (rel.array.find? (fun e => e.active && e.packetId.toNat == k)).map (·.buf.contents)

theorem view_held_eq_some (h : WindowOk n rel) {x : Bytes} :
    rel.view.held k = some x ↔
      ∃ i e, rel.ActiveAt i e ∧ e.packetId.toNat = k ∧ e.buf.contents = x := by
  show (rel.array.find? _).map _ = some x ↔ _
  constructor
  · intro hk
    obtain ⟨e, hfind, hx⟩ := Option.map_eq_some_iff.mp hk
    have hkey := find?_some hfind
    obtain ⟨i, hi⟩ := mem_iff_getElem?.mp (mem_of_find?_eq_some hfind)
    simp only [Bool.and_eq_true, beq_iff_eq] at hkey
    exact ⟨i, e, ⟨hi, hkey.1⟩, hkey.2, hx⟩
  · rintro ⟨i, e, ⟨hi, hact⟩, hk, hx⟩
    -- the first slot that matches is slot `i`, since ids are distinct
    cases hfind : rel.array.find? (fun e => e.active && e.packetId.toNat == k) with
    | none =>
      have := find?_eq_none.mp hfind e (mem_of_getElem? hi)
      simp [hact, hk] at this
    | some f =>
      have hkey := find?_some hfind
      obtain ⟨j, hj⟩ := mem_iff_getElem?.mp (mem_of_find?_eq_some hfind)
      simp only [Bool.and_eq_true, beq_iff_eq] at hkey
      have hij := h.distinct i j e f ⟨hi, hact⟩ ⟨hj, hkey.1⟩
        (BitVec.eq_of_toNat_eq (hk.trans hkey.2.symm))
      subst hij
      rw [hi] at hj
      cases hj
      exact congrArg some hx

theorem view_held_eq_none (h : WindowOk n rel) :
    rel.view.held k = none ↔ ∀ i e, rel.ActiveAt i e → e.packetId.toNat ≠ k := by
  constructor
  · intro hk i e hie heq
    rw [(view_held_eq_some h).mpr ⟨i, e, hie, heq, rfl⟩] at hk
    cases hk
  · intro hall
    cases hk : rel.view.held k with
    | none => rfl
    | some x =>
      obtain ⟨i, e, hie, heq, -⟩ := (view_held_eq_some h).mp hk
      exact absurd heq (hall i e hie)

/-- The array means the window that has the same payloads. -/
theorem view_eq_of (h : WindowOk n rel) {r : Reassembly Bytes} (hnext : rel.packetId.toNat = r.next)
    (hheld : ∀ k x, (∃ i e, rel.ActiveAt i e ∧ e.packetId.toNat = k ∧ e.buf.contents = x) ↔
      r.held k = some x) : rel.view = r := by
  have hsame : rel.view.held = r.held := by
    funext k
    apply Option.ext
    intro x
    rw [view_held_eq_some h, hheld]
  cases r
  exact congrArg₂ Reassembly.mk hnext hsame

variable {f : ReliableEntry → ReliableEntry}

section

variable (h : WindowOk n rel)

include h

theorem WindowOk.fill (hi : rel.array[i]? = some e) (he : e.active = false)
    (hcap : (f e).buf.capacity = e.buf.capacity)
    (hnew : (f e).active = true → rel.view.Wants n (f e).packetId.toNat) :
    WindowOk n (rel.modifySlot i f) := by
  have hactive := activeAt_modifySlot hi he f
  have hfr : (f e).active = true → ∀ j e', rel.ActiveAt j e' → e'.packetId ≠ (f e).packetId := by
    intro hact j e' hj heq
    exact (view_held_eq_none h).mp (hnew hact).2.2 j e' hj (congrArg BitVec.toNat heq)
  constructor
  · rw [modifySlot_size]
    exact h.size
  · intro j e' hj
    rw [modifySlot_getElem?] at hj
    by_cases hij : i = j
    · subst hij
      rw [if_pos rfl, hi] at hj
      cases hj
      show rel.offset ≤ _
      rw [hcap]
      exact h.room i e hi
    · rw [if_neg hij] at hj
      exact h.room j e' hj
  · exact h.low
  · intro j e' hj
    rcases (hactive j e').mp hj with hj | ⟨-, rfl, hact⟩
    · exact h.window j e' hj
    · exact ⟨(hnew hact).1, (hnew hact).2.1⟩
  · intro j k e1 e2 hj hk heq
    rcases (hactive j e1).mp hj with hj' | ⟨rfl, rfl, hact⟩ <;>
      rcases (hactive k e2).mp hk with hk' | ⟨rfl, rfl, hact'⟩
    · exact h.distinct j k e1 e2 hj' hk' heq
    · exact absurd heq (hfr hact' j e1 hj')
    · exact absurd heq.symm (hfr hact k e2 hk')
    · rfl

theorem view_fill_free (hi : rel.array[i]? = some e) (he : e.active = false)
    (hf : (f e).active = false) (h' : WindowOk n (rel.modifySlot i f)) :
    (rel.modifySlot i f).view = rel.view := by
  refine view_eq_of h' rfl fun k x => ?_
  rw [view_held_eq_some h]
  simp only [activeAt_modifySlot hi he, hf, Bool.false_eq_true, and_false, or_false]

theorem view_fill_active (hi : rel.array[i]? = some e) (he : e.active = false)
    (hf : (f e).active = true) (h' : WindowOk n (rel.modifySlot i f))
    (hfree : rel.view.Wants n (f e).packetId.toNat) :
    (rel.modifySlot i f).view = rel.view.offer n (f e).packetId.toNat (f e).buf.contents := by
  rw [Reassembly.offer, if_pos hfree]
  refine view_eq_of h' rfl fun k x => ?_
  show _ ↔ Function.update rel.view.held _ _ k = _
  rw [Function.update_apply]
  by_cases hk : k = (f e).packetId.toNat
  · subst hk
    rw [if_pos rfl, Option.some.injEq]
    constructor
    · rintro ⟨j, e', hj, hid, rfl⟩
      rcases (activeAt_modifySlot hi he f j e').mp hj with hj | ⟨-, rfl, -⟩
      · exact absurd hid ((view_held_eq_none h).mp hfree.2.2 j e' hj)
      · rfl
    · rintro rfl
      exact ⟨i, f e, (activeAt_modifySlot hi he f i (f e)).mpr (.inr ⟨rfl, rfl, hf⟩), rfl, rfl⟩
  · rw [if_neg hk, view_held_eq_some h]
    constructor
    · rintro ⟨j, e', hj, hid, hx⟩
      rcases (activeAt_modifySlot hi he f j e').mp hj with hj | ⟨-, rfl, -⟩
      · exact ⟨j, e', hj, hid, hx⟩
      · exact absurd hid.symm hk
    · rintro ⟨j, e', hj, hid, hx⟩
      exact ⟨j, e', (activeAt_modifySlot hi he f j e').mpr (.inl hj), hid, hx⟩

/-! ## Storing and delivering -/

/-- Saving a payload the window wants either stores it or, when it is too big
for a slot, leaves the window as it was. No assertion fails. -/
theorem saveIncoming_refines (hn : n < 2 ^ 31) (op : Nat) {id : PacketIdType}
    (hwants : rel.view.Wants n id.toNat) (payload : Bytes) :
    ∃ rel' stored, saveIncoming rel op id payload = some (rel', stored) ∧ WindowOk n rel' ∧
      rel'.view = if stored then rel.view.offer n id.toNat payload else rel.view := by
  -- an id the window wants finds a free slot
  have hget : reliableCanGet rel = true := by
    cases hfull : reliableCanGet rel with
    | true => rfl
    | false =>
      obtain ⟨i, e, hie, hid⟩ := h.full_holds hfull hwants.1 hwants.2.1
      exact absurd hid ((view_held_eq_none h).mp hwants.2.2 i e hie)
  obtain ⟨i, e, buf, hi, he, hnil, hcap, -, hgetbuf⟩ := reliableGetBuf_free h.room hget
  have hslot : (rel.modifySlot i (ReliableEntry.setBuf buf)).array[i]? = some (e.setBuf buf) := by
    rw [modifySlot_getElem?, if_pos rfl, hi]
    rfl
  unfold saveIncoming
  rw [hgetbuf]
  simp only [hslot, Option.bind_some, setBuf_buf]
  cases hwr : bufWrite buf payload with
  | none =>
    have hok := h.fill hi he (f := ReliableEntry.setBuf buf) hcap
      (fun hact => absurd (he.symm.trans hact) Bool.false_ne_true)
    exact ⟨_, false, rfl, hok, view_fill_free h hi he he hok⟩
  | some buf' =>
    obtain ⟨hcap', -, hcon⟩ := bufWrite_eq_some hwr
    rw [hnil, nil_append] at hcon
    have hmark : i < rel.size ∧ reliablePidMin id rel.packetId = false := by
      have := hwants.1
      have := hwants.2.1
      refine ⟨(List.getElem?_eq_some_iff.mp hi).1, ?_⟩
      rw [reliablePidMin_eq h.low (by change _ < rel.packetId.toNat + n at this; omega)]
      exact decide_eq_false (Nat.not_lt.mpr hwants.1)
    simp only [reliableMarkActiveIncoming, modifySlot_size, modifySlot_packetId,
      if_pos hmark, modifySlot_modifySlot]
    have hok := h.fill hi he
      (f := ReliableEntry.markIncoming id op ∘ ReliableEntry.setBuf buf' ∘
        ReliableEntry.setBuf buf)
      (hcap'.trans hcap) (fun _ => hwants)
    refine ⟨_, true, rfl, hok, ?_⟩
    rw [view_fill_active h hi he rfl hok hwants]
    show rel.view.offer n id.toNat buf'.contents = rel.view.offer n id.toNat payload
    rw [hcon]

theorem wontBreakSequentiality_eq (hn : n < 2 ^ 31) (id : PacketIdType) :
    reliableWontBreakSequentiality rel id = decide (id.toNat < rel.view.next + n) := by
  unfold reliableWontBreakSequentiality
  rw [h.size]
  exact reliablePidInRange2_eq h.low hn

theorem notReplay_eq (hn : n < 2 ^ 31) {id : PacketIdType}
    (hid : id.toNat < rel.view.next + n) :
    reliableNotReplay rel id = decide (rel.view.Wants n id.toNat) := by
  have hlt : id.toNat < rel.packetId.toNat + 2 ^ 31 := by
    change id.toNat < rel.packetId.toNat + n at hid
    omega
  have hmin := reliablePidMin_eq h.low hlt
  have hany : rel.array.any (fun e => e.active && e.packetId == id) = true ↔
      ¬ rel.view.held id.toNat = none := by
    rw [view_held_eq_none h, any_eq_true]
    push Not
    constructor
    · rintro ⟨e, he, hkey⟩
      simp only [Bool.and_eq_true, beq_iff_eq] at hkey
      obtain ⟨i, hi⟩ := mem_iff_getElem?.mp he
      exact ⟨i, e, ⟨hi, hkey.1⟩, congrArg BitVec.toNat hkey.2⟩
    · rintro ⟨i, e, ⟨hi, hact⟩, heq⟩
      refine ⟨e, mem_of_getElem? hi, ?_⟩
      simp [hact, BitVec.eq_of_toNat_eq heq]
  unfold reliableNotReplay
  rw [hmin, Bool.eq_iff_iff, Bool.not_eq_true', Bool.or_eq_false_iff, decide_eq_false_iff_not,
    decide_eq_true_eq, ← Bool.not_eq_true, hany, not_not]
  show ¬ id.toNat < rel.view.next ∧ _ ↔ _ ∧ _ ∧ _
  rw [Nat.not_lt]
  exact ⟨fun hw => ⟨hw.1, hid, hw.2⟩, fun hw => ⟨hw.1, hw.2.2⟩⟩

end

/-- **Reception.** A control packet is either ignored or offered to the window,
and only a packet below the window's end is acknowledged. -/
theorem receiveControl_refines (ks : KeyState) (h : WindowOk n ks.recReliable) (hn : n < 2 ^ 31)
    (op : Nat) (id : PacketIdType) (payload : Bytes) :
    ∃ rel ack, receiveControl ks op id payload =
        some { ks with recReliable := rel, recAck := ack } ∧ WindowOk n rel ∧
      ((rel.view = ks.recReliable.view ∧ ack = ks.recAck) ∨
        (id.toNat < ks.recReliable.view.next + n ∧
          rel.view = ks.recReliable.view.offer n id.toNat payload ∧
          ack = reliableAckAcknowledgePacketId ks.recAck id)) := by
  unfold receiveControl
  rw [wontBreakSequentiality_eq h hn]
  by_cases hid : id.toNat < ks.recReliable.view.next + n
  · rw [if_pos (decide_eq_true hid), notReplay_eq h hn hid]
    by_cases hwants : ks.recReliable.view.Wants n id.toNat
    · obtain ⟨rel, stored, hsave, hok, hview⟩ := saveIncoming_refines h hn op hwants payload
      rw [if_pos (decide_eq_true hwants), hsave]
      cases stored with
      | false => exact ⟨rel, ks.recAck, rfl, hok, .inl ⟨hview, rfl⟩⟩
      | true => exact ⟨rel, _, rfl, hok, .inr ⟨hid, hview, rfl⟩⟩
    · have hoffer : ks.recReliable.view.offer n id.toNat payload = ks.recReliable.view :=
        if_neg hwants
      rw [if_neg (by simpa using hwants)]
      exact ⟨ks.recReliable, _, rfl, h, .inr ⟨hid, hoffer.symm, rfl⟩⟩
  · rw [if_neg (by simpa using hid)]
    exact ⟨ks.recReliable, ks.recAck, rfl, h, .inl ⟨rfl, rfl⟩⟩

/-- Delivery takes the next packet out of the window. -/
theorem WindowOk.deliver (h : WindowOk n rel) (hlt : rel.packetId.toNat < 2 ^ 31)
    (hie : rel.ActiveAt i e) (hid : e.packetId = rel.packetId) {rel' : Reliable}
    (hrel' : rel' = { rel.modifySlot i ReliableEntry.release with packetId := e.packetId + 1 }) :
    WindowOk n rel' ∧ rel'.view = rel.view.take := by
  have hnext : rel'.packetId.toNat = rel.packetId.toNat + 1 := by
    rw [hrel']
    show (e.packetId + 1#32).toNat = _
    rw [hid, BitVec.toNat_add]
    have : (1#32).toNat = 1 := rfl
    omega
  have hact : ∀ j e', rel'.ActiveAt j e' ↔ rel.ActiveAt j e' ∧ j ≠ i := by
    intro j e'
    rw [hrel']
    exact activeAt_release i j e'
  have hlat : ∀ j e', rel.ActiveAt j e' → j ≠ i → e'.packetId.toNat ≠ rel.packetId.toNat := by
    intro j e' hj hne heq
    exact hne (h.distinct j i e' e hj hie
      ((BitVec.eq_of_toNat_eq heq).trans hid.symm))
  have hok : WindowOk n rel' := by
    constructor
    · rw [hrel']
      exact (modifySlot_size rel i _).trans h.size
    · intro j e' hj
      rw [hrel'] at hj ⊢
      obtain ⟨e0, he0, -, hbuf, -⟩ := modifySlot_keeps hj release_keeps
      rw [hbuf]
      exact h.room j e0 he0
    · omega
    · intro j e' hj
      obtain ⟨hj, hne⟩ := (hact j e').mp hj
      have := h.window j e' hj
      have := hlat j e' hj hne
      omega
    · intro j k e1 e2 hj hk heq
      exact h.distinct j k e1 e2 ((hact j e1).mp hj).1 ((hact k e2).mp hk).1 heq
  refine ⟨hok, view_eq_of hok hnext fun k x => ?_⟩
  show _ ↔ Function.update rel.view.held rel.view.next none k = some x
  rw [Function.update_apply]
  by_cases hk : k = rel.view.next
  · rw [if_pos hk]
    constructor
    · rintro ⟨j, e', hj, hidk, -⟩
      obtain ⟨hj, hne⟩ := (hact j e').mp hj
      exact absurd (hidk.trans hk) (hlat j e' hj hne)
    · intro hx
      cases hx
  · rw [if_neg hk, view_held_eq_some h]
    constructor
    · rintro ⟨j, e', hj, hrest⟩
      exact ⟨j, e', ((hact j e').mp hj).1, hrest⟩
    · rintro ⟨j, e', hj, hidk, hx⟩
      refine ⟨j, e', (hact j e').mpr ⟨hj, ?_⟩, hidk, hx⟩
      rintro rfl
      have : e' = e := Option.some.inj (hj.1.symm.trans hie.1)
      subst this
      exact hk (hidk.symm.trans (congrArg BitVec.toNat hid))

/-- **Delivery.** The packet of the next expected id is handed out if it is held. -/
theorem deliverSequenced_refines (h : WindowOk n rel) (hlt : rel.packetId.toNat < 2 ^ 31) :
    (rel.view.held rel.view.next = none ∧ deliverSequenced rel = some (rel, none)) ∨
    ∃ rel' x, rel.view.held rel.view.next = some x ∧
      deliverSequenced rel = some (rel', some x) ∧ WindowOk n rel' ∧ rel'.view = rel.view.take := by
  unfold deliverSequenced reliableGetEntrySequenced
  cases hidx : rel.array.findIdx? (fun e => e.active && e.packetId == rel.packetId) with
  | none =>
    refine .inl ⟨(view_held_eq_none h).mpr ?_, rfl⟩
    rintro i e ⟨hi, hact⟩ hid
    have := findIdx?_eq_none_iff.mp hidx e (mem_of_getElem? hi)
    simp [hact, BitVec.eq_of_toNat_eq hid] at this
  | some i =>
    obtain ⟨hi, hkey, -⟩ := findIdx?_eq_some_iff_getElem.mp hidx
    have hslot : rel.array[i]? = some rel.array[i] := getElem?_eq_getElem hi
    simp only [Bool.and_eq_true, beq_iff_eq] at hkey
    obtain ⟨hok, hview⟩ := h.deliver hlt ⟨hslot, hkey.1⟩ hkey.2 rfl
    right
    refine ⟨_, rel.array[i].buf.contents, ?_, ?_, hok, hview⟩
    · exact (view_held_eq_some h).mpr
        ⟨i, _, ⟨hslot, hkey.1⟩, congrArg BitVec.toNat hkey.2, rfl⟩
    · simp only [reliableMarkDeleted, hslot]

/-! ## Whole runs -/

/-- What an incoming control packet does: its record may empty send slots, and
its payload may be offered to the receive window. -/
theorem tlsPreDecrypt_refines {ks : KeyState} (h : WindowOk n ks.recReliable) (hn : n < 2 ^ 31)
    (op : Nat) (buf : Bytes) :
    ∃ send rel ack, tlsPreDecrypt ks op buf =
        some { ks with sendReliable := send, recReliable := rel, recAck := ack } ∧
      WindowOk n rel ∧
      (send = ks.sendReliable ∨ ∃ sendAck rest,
        reliableAckRead buf ks.sessionId = some (sendAck, rest) ∧
        send = reliableSendPurge ks.sendReliable sendAck) ∧
      ((rel.view = ks.recReliable.view ∧ ack = ks.recAck) ∨ ∃ sendAck rest id payload,
        op ≠ P_ACK_V1 ∧ reliableAckRead buf ks.sessionId = some (sendAck, rest) ∧
        reliableAckReadPacketId rest = some (id, payload) ∧
        id.toNat < ks.recReliable.view.next + n ∧
        rel.view = ks.recReliable.view.offer n id.toNat payload ∧
        ack = reliableAckAcknowledgePacketId ks.recAck id) := by
  unfold tlsPreDecrypt
  cases hread : reliableAckRead buf ks.sessionId with
  | none => exact ⟨_, _, _, rfl, h, .inl rfl, .inl ⟨rfl, rfl⟩⟩
  | some r =>
    obtain ⟨sendAck, rest⟩ := r
    dsimp only
    by_cases hop : op ≠ P_ACK_V1 ∧ reliableCanGet ks.recReliable = true
    · rw [if_pos hop]
      cases hid : reliableAckReadPacketId rest with
      | none => exact ⟨_, _, _, rfl, h, .inr ⟨sendAck, rest, rfl, rfl⟩, .inl ⟨rfl, rfl⟩⟩
      | some r =>
        obtain ⟨id, payload⟩ := r
        obtain ⟨rel, ack, hrec, hok, hcases⟩ := receiveControl_refines
          { ks with sendReliable := reliableSendPurge ks.sendReliable sendAck } h hn op id payload
        refine ⟨_, rel, ack, hrec, hok, .inr ⟨sendAck, rest, rfl, rfl⟩, ?_⟩
        rcases hcases with hsame | hoffer
        · exact .inl hsame
        · exact .inr ⟨sendAck, rest, id, payload, hop.1, rfl, hid, hoffer⟩
    · rw [if_neg hop]
      exact ⟨_, _, _, rfl, h, .inr ⟨sendAck, rest, rfl, rfl⟩, .inl ⟨rfl, rfl⟩⟩

/-- What happens to the receive side of the channel. -/
inductive ReceiveEvent where
  | packet (op : Nat) (buf : Bytes)
  | deliver

/-- One step of the receive side; the output is the payload delivered, if any. -/
def receiveEvent (ks : KeyState) : ReceiveEvent → Option (KeyState × Option Bytes)
  | .packet op buf => (tlsPreDecrypt ks op buf).map (·, none)
  | .deliver =>
    (deliverSequenced ks.recReliable).map (fun r => ({ ks with recReliable := r.1 }, r.2))

theorem WindowOk.receiveEvent {ks : KeyState} (h : WindowOk n ks.recReliable) (hn : n < 2 ^ 31)
    (hlt : ks.recReliable.packetId.toNat < 2 ^ 31) (event : ReceiveEvent) :
    ∃ ks' out, receiveEvent ks event = some (ks', out) ∧ WindowOk n ks'.recReliable := by
  cases event with
  | packet op buf =>
    obtain ⟨send, rel, ack, hdec, hok, -⟩ := tlsPreDecrypt_refines h hn op buf
    exact ⟨_, none, congrArg (Option.map (·, none)) hdec, hok⟩
  | deliver =>
    show ∃ ks' out, Option.map _ (deliverSequenced ks.recReliable) = _ ∧ _
    rcases deliverSequenced_refines h hlt with ⟨-, hdel⟩ | ⟨rel, x, -, hdel, hok, -⟩
    · rw [hdel]
      exact ⟨_, _, rfl, h⟩
    · rw [hdel]
      exact ⟨_, _, rfl, hok⟩

/-- **The receive buffer neither asserts nor fills up.** From a receive array of
`n` free slots, whatever packets an authenticated peer sends and however they
alternate with deliveries, as long as the next expected id stays below `2 ^ 31`:
no assertion fails, the active ids are distinct and lie in
`[packet_id, packet_id + n)`, and as long as the next expected packet is not
stored, there is a free slot for it. -/
theorem receive_buffer_never_stuck {n : Nat} (hn : 1 ≤ n ∧ n < 2 ^ 31) {buf : Buffer}
    {offset : Nat} (hbuf : offset ≤ buf.capacity) {ks : KeyState} {hold : Bool}
    (hks : ks.recReliable = Reliable.cleared buf offset n hold) {events : List ReceiveEvent}
    (hguard : RunGuard receiveEvent (fun ks _ => ks.recReliable.packetId.toNat < 2 ^ 31)
      ks events) :
    ∃ ks' delivered, run receiveEvent ks events = some (ks', delivered) ∧
      ks'.recReliable.activeIds.Nodup ∧
      (∀ id ∈ ks'.recReliable.activeIds, ks'.recReliable.packetId.toNat ≤ id.toNat ∧
        id.toNat < ks'.recReliable.packetId.toNat + n) ∧
      (ks'.recReliable.packetId ∉ ks'.recReliable.activeIds →
        reliableCanGet ks'.recReliable = true ∧
        ∃ i rel, reliableGetBuf ks'.recReliable = some (some (i, rel))) := by
  have hstart : WindowOk n ks.recReliable := by
    rw [hks]
    exact windowOk_cleared hbuf n hold
  obtain ⟨ks', delivered, hrun, hok⟩ := run_isSome
    (I := fun ks => WindowOk n ks.recReliable)
    (fun ks event hI hlt => hI.receiveEvent hn.2 hlt event) hstart hguard
  refine ⟨ks', delivered, hrun, activeIds_nodup hok.distinct, ?_, ?_⟩
  · intro id hid
    obtain ⟨i, e, hie, rfl⟩ := mem_activeIds.mp hid
    exact hok.window i e hie
  · intro hmissing
    have hget : reliableCanGet ks'.recReliable = true := by
      cases hfull : reliableCanGet ks'.recReliable with
      | true => rfl
      | false =>
        obtain ⟨i, e, hie, hid⟩ := hok.full_holds hfull (Nat.le_refl _) (by omega)
        exact absurd (mem_activeIds.mpr ⟨i, e, hie, BitVec.eq_of_toNat_eq hid⟩) hmissing
    obtain ⟨i, e, buf, -, -, -, -, -, hbuf⟩ := reliableGetBuf_free hok.room hget
    exact ⟨hget, i, _, hbuf⟩

/-- An endpoint with two slots of 64 bytes in each direction. -/
def twoSlots : KeyState where
  sessionId := ⟨[1, 2, 3, 4, 5, 6, 7, 8], rfl⟩
  sessionIdRemote := ⟨[8, 7, 6, 5, 4, 3, 2, 1], rfl⟩
  fourAcks := false
  headroom := 40
  sendReliable := { Reliable.cleared ⟨64, 40, [], by decide⟩ 40 2 false with initialTimeout := 2 }
  recReliable := Reliable.cleared ⟨64, 40, [], by decide⟩ 40 2 false
  recAck := ReliableAck.empty
  lruAcks := ReliableAck.empty
  ackWriteBuf := ⟨64, 40, [], by decide⟩

/-- A control packet without acknowledgements, id `id` and payload `id`. -/
def plainPacket (id : UInt8) : ReceiveEvent := .packet P_CONTROL_V1 [0, 0, 0, 0, id, id]

/-- Packet `1` comes first and packet `9` is out of the window. -/
theorem receive_buffer_never_stuck_reordered : ∃ ks' delivered, run receiveEvent twoSlots
      [plainPacket 1, plainPacket 9, .deliver, plainPacket 0, .deliver, plainPacket 2] =
        some (ks', delivered) ∧ ks'.recReliable.activeIds.Nodup := by
  obtain ⟨ks', delivered, hrun, hnodup, -⟩ := receive_buffer_never_stuck (n := 2) (by decide)
    (show 40 ≤ 64 by decide)
    (show twoSlots.recReliable = Reliable.cleared ⟨64, 40, [], by decide⟩ 40 2 false from rfl)
    (show RunGuard receiveEvent (fun ks _ => ks.recReliable.packetId.toNat < 2 ^ 31) twoSlots
      [plainPacket 1, plainPacket 9, .deliver, plainPacket 0, .deliver, plainPacket 2] by
        decide +kernel)
  exact ⟨ks', delivered, hrun, hnodup⟩

end OpenVpn
