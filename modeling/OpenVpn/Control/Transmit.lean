import OpenVpn.Control.Reliable

/-!
# What the send side of the control channel does

One lemma per operation of the send array, in terms of the slots in use:

* `SlotsKept` — no slot is taken into use and none changes its packet; true of
  acknowledgements, timers and transmissions.
* `reliableSendPurge_keeps` — an acknowledgement frees only slots it names.
* `queueOutgoing_cases` — a queued payload takes a free slot under the next id.
* `transmitReliable_cases`, `transmitAck_cases` — what goes out is a record of
  recent ids, followed by a packet in use.
-/

namespace OpenVpn

open Base List

variable {rel rel' rel'' : Reliable}

/-- Slots in use afterwards were in use before, for the same packet. -/
def SlotsKept (rel rel' : Reliable) : Prop :=
  ∀ i e', rel'.ActiveAt i e' → ∃ e, rel.ActiveAt i e ∧ e'.packetId = e.packetId ∧ e'.buf = e.buf

theorem SlotsKept.refl (rel : Reliable) : SlotsKept rel rel :=
  fun _ e' h => ⟨e', h, rfl, rfl⟩

theorem slotsKept_of (h : ∀ (i : Nat) (e' : ReliableEntry), rel'.array[i]? = some e' →
      ∃ e : ReliableEntry, rel.array[i]? = some e ∧ e.Keeps e') : SlotsKept rel rel' := by
  rintro i e' ⟨hi, hact⟩
  obtain ⟨e, he, hid, hbuf, hold⟩ := h i e' hi
  exact ⟨e, ⟨he, hold hact⟩, hid, hbuf⟩

variable {i : Nat} {e e' : ReliableEntry}

theorem map_keeps {f : ReliableEntry → ReliableEntry} {slots : List ReliableEntry}
    (h : (slots.map f)[i]? = some e') (hf : ∀ e : ReliableEntry, e.Keeps (f e)) :
    ∃ e : ReliableEntry, slots[i]? = some e ∧ e.Keeps e' := by
  rw [getElem?_map] at h
  obtain ⟨e, he, rfl⟩ := Option.map_eq_some_iff.mp h
  exact ⟨e, he, hf e⟩

/-! ## Acknowledgements -/

theorem purgeEntry_keeps (pid : PacketIdType) (e : ReliableEntry) : e.Keeps (purgeEntry pid e) := by
  unfold purgeEntry
  split
  · exact release_keeps e
  · split
    · exact ⟨rfl, rfl, id⟩
    · exact ⟨rfl, rfl, id⟩

/-- What a record does to one slot. -/
def purgeEntries (ids : List PacketIdType) (e : ReliableEntry) : ReliableEntry :=
  ids.foldl (fun e pid => purgeEntry pid e) e

theorem reliableSendPurge_array (rel : Reliable) (ack : ReliableAck) :
    (reliableSendPurge rel ack).array = rel.array.map (purgeEntries ack.packetId) := by
  show ack.packetId.foldl _ rel.array = _
  generalize rel.array = slots
  induction ack.packetId generalizing slots with
  | nil => exact (map_id slots).symm
  | cons pid ids ih =>
    rw [foldl_cons, ih, map_map]
    rfl

theorem purgeEntries_keeps (ids : List PacketIdType) (e : ReliableEntry) :
    e.Keeps (purgeEntries ids e) := by
  induction ids generalizing e with
  | nil => exact ⟨rfl, rfl, id⟩
  | cons pid ids ih =>
    obtain ⟨hid, hbuf, hact⟩ := purgeEntry_keeps pid e
    obtain ⟨hid', hbuf', hact'⟩ := ih (purgeEntry pid e)
    exact ⟨hid'.trans hid, hbuf'.trans hbuf, fun h => hact (hact' h)⟩

theorem reliableSendPurge_slot {ack : ReliableAck}
    (h : (reliableSendPurge rel ack).array[i]? = some e') :
    ∃ e : ReliableEntry, rel.array[i]? = some e ∧ e.Keeps e' := by
  rw [reliableSendPurge_array] at h
  exact map_keeps h (purgeEntries_keeps ack.packetId)

theorem reliableSendPurge_size (rel : Reliable) (ack : ReliableAck) :
    (reliableSendPurge rel ack).size = rel.size := by
  rw [Reliable.size, reliableSendPurge_array, length_map]
  rfl

theorem purgeEntries_active {ids : List PacketIdType} (hact : e.active = true)
    (hid : e.packetId ∉ ids) : (purgeEntries ids e).active = true := by
  induction ids generalizing e with
  | nil => exact hact
  | cons pid ids ih =>
    rw [mem_cons, not_or] at hid
    refine ih ?_ ((purgeEntry_keeps pid e).1 ▸ hid.2)
    show (purgeEntry pid e).active = true
    unfold purgeEntry
    rw [if_neg (by simp [hid.1])]
    split
    · exact hact
    · exact hact

theorem reliableSendPurge_keeps {ack : ReliableAck} (hie : rel.ActiveAt i e)
    (hid : e.packetId ∉ ack.packetId) : ∃ e', (reliableSendPurge rel ack).ActiveAt i e' := by
  refine ⟨purgeEntries ack.packetId e, ?_, purgeEntries_active hie.2 hid⟩
  rw [reliableSendPurge_array, getElem?_map, hie.1]
  rfl

/-! ## Timers -/

theorem reliableScheduleNow_slotsKept (rel : Reliable) (now : Int) :
    SlotsKept rel (reliableScheduleNow rel now) := by
  refine slotsKept_of fun i e' hi => map_keeps hi fun e => ?_
  split
  · exact ⟨rfl, rfl, id⟩
  · exact ⟨rfl, rfl, id⟩

variable {now : Int}

theorem bestToSend_cases (slots : List ReliableEntry) :
    ∀ (i : Nat) (best : Option (Nat × ReliableEntry)) (j : Nat) (b : ReliableEntry),
      bestToSend now slots i best = some (j, b) →
      best = some (j, b) ∨ ∃ m, slots[m]? = some b ∧ j = i + m ∧ b.due now = true := by
  induction slots with
  | nil => exact fun i best j b h => .inl h
  | cons e slots ih =>
    intro i best j b h
    unfold bestToSend at h
    rcases ih (i + 1) _ j b h with h | ⟨m, hm, hj, hdue⟩
    · split at h
      case isTrue htk =>
        cases h
        exact .inr ⟨0, rfl, rfl, (Bool.and_eq_true_iff.mp htk).1⟩
      case isFalse => exact .inl h
    · exact .inr ⟨m + 1, hm, by omega, hdue⟩

variable {best : ReliableEntry}

theorem due_active (h : e.due now = true) : e.active = true := (Bool.and_eq_true_iff.mp h).1

theorem bestToSend_activeAt (h : bestToSend now rel.array 0 none = some (i, best)) :
    rel.ActiveAt i best ∧ best.due now = true := by
  rcases bestToSend_cases rel.array 0 none i best h with hnone | ⟨m, hm, hi, hdue⟩
  · cases hnone
  · rw [hi, Nat.zero_add]
    exact ⟨⟨hm, due_active hdue⟩, hdue⟩

theorem reliableSend_cases (h : reliableSend rel now = some (best, rel')) :
    (∃ i, rel.ActiveAt i best) ∧ SlotsKept rel rel' ∧ rel'.packetId = rel.packetId := by
  unfold reliableSend at h
  split at h
  · cases h
  · rename_i i b hbest
    cases h
    exact ⟨⟨i, (bestToSend_activeAt hbest).1⟩,
      slotsKept_of fun j e' hj => modifySlot_keeps hj fun _ => ⟨rfl, rfl, id⟩, rfl⟩

/-! ## Queueing -/

theorem reliableGetBuf_cases (h : reliableGetBuf rel = some (some (i, rel'))) :
    ∃ e buf, rel.array[i]? = some e ∧ e.active = false ∧
      rel' = rel.modifySlot i (ReliableEntry.setBuf buf) := by
  unfold reliableGetBuf at h
  split at h
  · cases h
  · rename_i j hidx
    obtain ⟨hlt, hfree, -⟩ := findIdx?_eq_some_iff_getElem.mp hidx
    split at h
    · cases h
    · rename_i buf hbuf
      cases h
      exact ⟨_, buf, getElem?_eq_getElem hlt, by simpa using hfree, rfl⟩

/-- A packet is queued with the next id, or not at all. -/
theorem queueOutgoing_cases {opcode : Nat} {payload : Bytes} {handed : Option Bytes}
    (h : queueOutgoing rel opcode payload = some (rel', handed)) :
    (handed = none ∧ rel' = rel) ∨
    ∃ x, handed = some x ∧ rel'.packetId = rel.packetId + 1 ∧
      ∀ i e', rel'.ActiveAt i e' → rel.ActiveAt i e' ∨
        (e'.packetId = rel.packetId ∧ e'.nextTry = 0 ∧
          e'.buf.contents = htonpid rel.packetId ++ x) := by
  unfold queueOutgoing reliableGetBufOutputSequenced at h
  split at h
  · cases h
  · cases h
    exact .inl ⟨rfl, rfl⟩
  · rename_i i rel1 hget
    split at hget
    · obtain ⟨e, buf, hi, he, rfl⟩ := reliableGetBuf_cases hget
      have hslot : (rel.modifySlot i (ReliableEntry.setBuf buf)).array[i]? =
          some (e.setBuf buf) := by
        rw [modifySlot_getElem?, if_pos rfl, hi]
        rfl
      rw [hslot] at h
      dsimp only at h
      unfold reliableMarkActiveOutgoing at h
      split at h
      · cases h
      · rename_i rel2 hmark
        cases h
        split at hmark
        · cases hmark
        · rename_i buf2 hbuf2
          cases hmark
          rw [modifySlot_getElem?, if_pos rfl, hslot] at hbuf2
          have hcon := (bufWritePrepend_eq_some hbuf2).2
          refine .inr ⟨_, rfl, rfl, ?_⟩
          intro j e' hj
          change (((rel.modifySlot i _).modifySlot i _).modifySlot i _).ActiveAt j e' at hj
          rw [modifySlot_modifySlot, modifySlot_modifySlot, activeAt_modifySlot hi he] at hj
          rcases hj with hj | ⟨-, rfl, -⟩
          · exact .inl hj
          · exact .inr ⟨rfl, rfl, hcon⟩
    · cases hget

/-! ## Transmitting -/

variable {ks ks' : KeyState}

/-- Writing a packet moves ids from the pending to the recent list and puts a
record of recent ids before or after the packet. -/
theorem writeControlAuth_cases {buf : Buffer} {maxAck : Nat} {prependAck : Bool} {bytes : Bytes}
    (h : writeControlAuth ks buf maxAck prependAck = some (ks', bytes)) :
    ∃ recAck lruAcks ids, ks' = { ks with recAck, lruAcks } ∧
      (∀ p ∈ recAck.packetId, p ∈ ks.recAck.packetId) ∧
      (∀ p ∈ lruAcks.packetId, p ∈ ks.recAck.packetId ∨ p ∈ ks.lruAcks.packetId) ∧
      ids.length ≤ RELIABLE_ACK_SIZE ∧ (∀ p ∈ ids, p ∈ lruAcks.packetId) ∧
      bytes = if prependAck then ackRecord ids ks.sessionIdRemote ++ buf.contents
        else buf.contents ++ ackRecord ids ks.sessionIdRemote := by
  unfold writeControlAuth at h
  split at h
  · rename_i recAck lruAcks buf' hwr
    cases h
    obtain ⟨hack, hlru, hout⟩ := reliableAckWrite_cases hwr
    obtain ⟨ids, hlen, hids, hcon⟩ := hout buf' rfl
    exact ⟨recAck, lruAcks, ids, rfl, hack, hlru, hlen, hids, hcon⟩
  · cases h

theorem transmitReliable_cases {msg : Option (Nat × Bytes)}
    (h : transmitReliable ks now = some (ks', msg)) :
    (ks' = ks ∧ msg = none) ∨
    ∃ best rel ks1 bytes, (∃ i, ks.sendReliable.ActiveAt i best) ∧
      SlotsKept ks.sendReliable rel ∧ rel.packetId = ks.sendReliable.packetId ∧
      ks1 = { ks with sendReliable := rel } ∧
      writeControlAuth ks1 best.buf CONTROL_SEND_ACK_MAX true = some (ks', bytes) ∧
      msg = some (best.opcode, bytes) := by
  unfold transmitReliable at h
  split at h
  · split at h
    · cases h
    · rename_i best rel hsend
      obtain ⟨hbest, hkept, hnext⟩ := reliableSend_cases hsend
      split at h
      · cases h
      · rename_i ks1 bytes hwr
        cases h
        exact .inr ⟨best, rel, _, bytes, hbest, hkept, hnext, rfl, hwr, rfl⟩
  · cases h
    exact .inl ⟨rfl, rfl⟩

theorem transmitAck_cases {msg : Option (Nat × Bytes)} (h : transmitAck ks = some (ks', msg)) :
    (ks' = ks ∧ msg = none) ∨
    ∃ buf bytes, buf.contents = [] ∧
      writeControlAuth ks buf RELIABLE_ACK_SIZE false = some (ks', bytes) ∧
      msg = some (P_ACK_V1, bytes) := by
  unfold transmitAck at h
  split at h
  · cases h
    exact .inl ⟨rfl, rfl⟩
  · split at h
    · cases h
    · rename_i buf hbuf
      split at h
      · cases h
      · rename_i ks1 bytes hwr
        cases h
        exact .inr ⟨buf, bytes, (bufInit_eq_some hbuf).2.2, hwr, rfl⟩

end OpenVpn
