import Mathlib.Data.List.Basic
import OpenVpn.Control.Ack

/-!
# The reliability layer of the control channel

`reliable.c`: an array of slots that hold packets until they are acknowledged
(send side) or until they can be delivered in order (receive side), and the code
of `ssl.c` around it. `struct buffer *` into the array is a slot index; a failed
`ASSERT` is `none`.

* `Reliable` and the `reliable*` functions — the layer itself.
* `tlsPreDecrypt` — a control packet comes in: its ACK record empties send
  slots, its payload goes to a receive slot.
* `deliverSequenced`, `queueOutgoing`, `transmitReliable`, `transmitAck` — the
  parts of `tls_process` that move packets out of and into the two arrays.
-/

namespace OpenVpn

open Base List

def RELIABLE_CAPACITY : Nat := 12

def N_ACK_RETRANSMIT : Nat := 3

def CONTROL_SEND_ACK_MAX : Nat := 4

def P_CONTROL_V1 : Nat := 4

def P_ACK_V1 : Nat := 5

def P_CONTROL_WKC_V1 : Nat := 11

/-- `struct reliable_entry`: a slot. -/
structure ReliableEntry where
  active : Bool
  timeout : Int
  nextTry : Int
  packetId : PacketIdType
  nAcks : Nat
  opcode : Nat
  buf : Buffer
  deriving DecidableEq

def ReliableEntry.setBuf (buf : Buffer) (e : ReliableEntry) : ReliableEntry := { e with buf }

def ReliableEntry.release (e : ReliableEntry) : ReliableEntry := { e with active := false }

/-- The fields `reliable_mark_active_incoming` writes. -/
def ReliableEntry.markIncoming (pid : PacketIdType) (opcode : Nat) (e : ReliableEntry) :
    ReliableEntry :=
  { e with active := true, packetId := pid, opcode, nextTry := 0, timeout := 0, nAcks := 0 }

/-- `struct reliable`; `array` is the part of the array in use, so that `size` is
its length. -/
structure Reliable where
  initialTimeout : Int
  packetId : PacketIdType
  offset : Nat
  hold : Bool
  array : List ReliableEntry
  deriving DecidableEq

def Reliable.size (rel : Reliable) : Nat := rel.array.length

/-- Change the slot at index `i`. -/
def Reliable.modifySlot (rel : Reliable) (i : Nat) (f : ReliableEntry → ReliableEntry) : Reliable :=
  { rel with array := rel.array.modify i f }

/-- The cleared structure with `size` slots that share the shape of `buf`. -/
def Reliable.cleared (buf : Buffer) (offset size : Nat) (hold : Bool) : Reliable where
  initialTimeout := 0
  packetId := 0
  offset := offset
  hold := hold
  array := replicate size
    { active := false, timeout := 0, nextTry := 0, packetId := 0, nAcks := 0, opcode := 0, buf }

def reliableInit (bufSize offset arraySize : Nat) (hold : Bool) : Option Reliable :=
  if 0 < arraySize ∧ arraySize ≤ RELIABLE_CAPACITY then
    match (allocBuf bufSize).bind (bufInit · offset) with
    | none => none
    | some buf => some (Reliable.cleared buf offset arraySize hold)
  else none

/-! ## Packet id comparisons -/

def subtractPid (test base : PacketIdType) : PacketIdType := test - base

/-- `test - base < extent`, with wraparound. -/
def reliablePidInRange1 (test base : PacketIdType) (extent : BitVec 32) : Bool :=
  decide (subtractPid test base < extent)

/-- `test < base + extent`, with wraparound. -/
def reliablePidInRange2 (test base : PacketIdType) (extent : BitVec 32) : Bool :=
  if base ≤ base + extent then decide (test < base + extent)
  else decide (test + 0x80000000#32 < (base + 0x80000000#32) + extent)

def reliablePidMin (p1 p2 : PacketIdType) : Bool := !reliablePidInRange1 p1 p2 0x80000000#32

/-! ## The slots -/

/-- What an acknowledgement of `pid` does to one slot of the send array. -/
def purgeEntry (pid : PacketIdType) (e : ReliableEntry) : ReliableEntry :=
  if e.active && e.packetId == pid then e.release
  else if e.active && decide (e.packetId < pid) then { e with nAcks := e.nAcks + 1 }
  else e

def reliableSendPurge (rel : Reliable) (ack : ReliableAck) : Reliable :=
  { rel with array := ack.packetId.foldl (fun slots pid => slots.map (purgeEntry pid)) rel.array }

def reliableCanGet (rel : Reliable) : Bool := rel.array.any (!·.active)

def reliableNotReplay (rel : Reliable) (id : PacketIdType) : Bool :=
  !(reliablePidMin id rel.packetId || rel.array.any (fun e => e.active && e.packetId == id))

def reliableWontBreakSequentiality (rel : Reliable) (id : PacketIdType) : Bool :=
  reliablePidInRange2 id rel.packetId (BitVec.ofNat 32 rel.size)

/-- `reliable_get_buf`: the first free slot, its buffer emptied; `some none` if
all slots are taken. -/
def reliableGetBuf (rel : Reliable) : Option (Option (Nat × Reliable)) :=
  match rel.array.findIdx? (!·.active) with
  | none => some none
  | some i =>
    match (rel.array[i]?).bind (bufInit ·.buf rel.offset) with
    | none => none
    | some buf => some (some (i, rel.modifySlot i (ReliableEntry.setBuf buf)))

/-- The lowest active id, `none` if no slot is active. -/
def minActiveId (array : List ReliableEntry) : Option PacketIdType :=
  array.foldl (fun minId e =>
    if e.active && minId.all (reliablePidMin e.packetId) then some e.packetId else minId) none

/-- `reliable_get_buf_output_sequenced`: no slot is given out while an
unacknowledged id is a whole window behind. -/
def reliableGetBufOutputSequenced (rel : Reliable) : Option (Option (Nat × Reliable)) :=
  if (minActiveId rel.array).all
      (reliablePidInRange1 rel.packetId · (BitVec.ofNat 32 rel.size)) then
    reliableGetBuf rel
  else some none

def reliableGetEntrySequenced (rel : Reliable) : Option Nat :=
  rel.array.findIdx? (fun e => e.active && e.packetId == rel.packetId)

/-- The slot is due for (re)transmission. -/
def ReliableEntry.due (now : Int) (e : ReliableEntry) : Bool :=
  e.active && (decide (N_ACK_RETRANSMIT ≤ e.nAcks) || decide (e.nextTry ≤ now))

def reliableCanSend (rel : Reliable) (now : Int) : Bool :=
  rel.array.any (·.due now) && !rel.hold

/-- The loop of `reliable_send` from slot `i` on: the due slot of lowest id. -/
def bestToSend (now : Int) : List ReliableEntry → Nat → Option (Nat × ReliableEntry) →
    Option (Nat × ReliableEntry)
  | [], _, best => best
  | e :: es, i, best =>
    bestToSend now es (i + 1)
      (if e.due now && best.all (fun b => reliablePidMin e.packetId b.2.packetId) then some (i, e)
        else best)

/-- `reliable_send`: the slot to transmit, with its retransmission timer set. -/
def reliableSend (rel : Reliable) (now : Int) : Option (ReliableEntry × Reliable) :=
  match bestToSend now rel.array 0 none with
  | none => none
  | some (i, best) =>
    some (best, rel.modifySlot i (fun e =>
      { e with nextTry := now + e.timeout, timeout := e.timeout * 2, nAcks := 0 }))

def reliableScheduleNow (rel : Reliable) (now : Int) : Reliable :=
  { rel with
    hold := false
    array := rel.array.map (fun e =>
      if e.active then { e with nextTry := now, timeout := rel.initialTimeout } else e) }

def reliableMarkActiveIncoming (rel : Reliable) (i : Nat) (pid : PacketIdType) (opcode : Nat) :
    Option Reliable :=
  if i < rel.size ∧ reliablePidMin pid rel.packetId = false then
    some (rel.modifySlot i (ReliableEntry.markIncoming pid opcode))
  else none

/-- `reliable_mark_active_outgoing`: the id goes in front of the payload. -/
def reliableMarkActiveOutgoing (rel : Reliable) (i : Nat) (opcode : Nat) : Option Reliable :=
  match (rel.array[i]?).bind (bufWritePrepend ·.buf (htonpid rel.packetId)) with
  | none => none
  | some buf =>
    let slots := rel.modifySlot i (fun e =>
      { e with
        active := true, packetId := rel.packetId, opcode, nextTry := 0
        timeout := rel.initialTimeout, buf })
    some { slots with packetId := rel.packetId + 1 }

def reliableMarkDeleted (rel : Reliable) (i : Nat) : Option Reliable :=
  match rel.array[i]? with
  | none => none
  | some e =>
    some { rel.modifySlot i ReliableEntry.release with packetId := e.packetId + 1 }

/-! ## The control channel of one endpoint -/

/-- What `struct key_state` and its session keep for the control channel. -/
structure KeyState where
  sessionId : SessionId
  sessionIdRemote : SessionId
  /-- at most four ids fit a record the peer accepts (see `write_control_auth`) -/
  fourAcks : Bool
  headroom : Nat
  sendReliable : Reliable
  recReliable : Reliable
  recAck : ReliableAck
  lruAcks : ReliableAck
  ackWriteBuf : Buffer
  deriving DecidableEq

/-- Save a payload in a free receive slot; `false` if it is too big for one. -/
def saveIncoming (rel : Reliable) (op : Nat) (id : PacketIdType) (payload : Bytes) :
    Option (Reliable × Bool) :=
  match reliableGetBuf rel with
  | some (some (i, rel)) =>
    match (rel.array[i]?).bind (bufWrite ·.buf payload) with
    | none => some (rel, false)
    | some buf =>
      match reliableMarkActiveIncoming (rel.modifySlot i (ReliableEntry.setBuf buf)) i id op with
      | none => none
      | some rel => some (rel, true)
  | _ => none

/-- `tls_pre_decrypt` on the payload of an authenticated control packet. -/
def receiveControl (ks : KeyState) (op : Nat) (id : PacketIdType) (payload : Bytes) :
    Option KeyState :=
  if reliableWontBreakSequentiality ks.recReliable id then
    if reliableNotReplay ks.recReliable id then
      match saveIncoming ks.recReliable op id payload with
      | none => none
      -- a packet too big for the buffer is dropped without acknowledgement
      | some (rel, false) => some { ks with recReliable := rel }
      | some (rel, true) =>
        some { ks with
          recReliable := rel, recAck := reliableAckAcknowledgePacketId ks.recAck id }
    else some { ks with recAck := reliableAckAcknowledgePacketId ks.recAck id }
  else some ks

/-- `tls_pre_decrypt` from the ACK record of an authenticated control packet on. -/
def tlsPreDecrypt (ks : KeyState) (op : Nat) (buf : Bytes) : Option KeyState :=
  match reliableAckRead buf ks.sessionId with
  | none => some ks
  | some (sendAck, buf) =>
    let ks := { ks with sendReliable := reliableSendPurge ks.sendReliable sendAck }
    if op ≠ P_ACK_V1 ∧ reliableCanGet ks.recReliable then
      match reliableAckReadPacketId buf with
      | none => some ks
      | some (id, payload) => receiveControl ks op id payload
    else some ks

/-- The packet whose turn it is leaves the receive array for the TLS library. -/
def deliverSequenced (rel : Reliable) : Option (Reliable × Option Bytes) :=
  match reliableGetEntrySequenced rel with
  | none => some (rel, none)
  | some i =>
    match rel.array[i]?, reliableMarkDeleted rel i with
    | some e, some rel => some (rel, some e.buf.contents)
    | _, _ => none

/-- A piece of TLS ciphertext enters the send array, if the window has room; the
second result is what the slot then holds. As in `write_outgoing_tls_ciphertext`
the result of the copy into the slot is not looked at. -/
def queueOutgoing (rel : Reliable) (opcode : Nat) (payload : Bytes) :
    Option (Reliable × Option Bytes) :=
  match reliableGetBufOutputSequenced rel with
  | none => none
  | some none => some (rel, none)
  | some (some (i, rel)) =>
    match rel.array[i]? with
    | none => none
    | some e =>
      let buf := (bufWrite e.buf payload).getD e.buf
      match reliableMarkActiveOutgoing (rel.modifySlot i (ReliableEntry.setBuf buf)) i
          opcode with
      | none => none
      | some rel => some (rel, some buf.contents)

/-- `write_control_auth`, up to the wrapping of the finished packet. -/
def writeControlAuth (ks : KeyState) (buf : Buffer) (maxAck : Nat) (prependAck : Bool) :
    Option (KeyState × Bytes) :=
  match reliableAckWrite ks.recAck ks.lruAcks buf ks.sessionIdRemote
      (if ks.fourAcks then min maxAck 4 else maxAck) prependAck with
  | some (recAck, lruAcks, some buf) => some ({ ks with recAck, lruAcks }, buf.contents)
  | _ => none

/-- `tls_process_state`: transmit the slot that is due, if any. -/
def transmitReliable (ks : KeyState) (now : Int) : Option (KeyState × Option (Nat × Bytes)) :=
  if reliableCanSend ks.sendReliable now then
    match reliableSend ks.sendReliable now with
    | none => none
    | some (best, rel) =>
      match writeControlAuth { ks with sendReliable := rel } best.buf CONTROL_SEND_ACK_MAX true with
      | none => none
      | some (ks, bytes) => some (ks, some (best.opcode, bytes))
  else some (ks, none)

/-- `tls_process`: transmit pending ids in a packet of their own, if there are any. -/
def transmitAck (ks : KeyState) : Option (KeyState × Option (Nat × Bytes)) :=
  if ks.recAck.packetId = [] then some (ks, none)
  else
    match bufInit ks.ackWriteBuf ks.headroom with
    | none => none
    | some buf =>
      match writeControlAuth ks buf RELIABLE_ACK_SIZE false with
      | none => none
      | some (ks, bytes) => some (ks, some (P_ACK_V1, bytes))

/-! ## Slots in use -/

variable {i : Nat} {rel : Reliable} {e : ReliableEntry}

/-- Slot `i` is in use and holds `e`. -/
def Reliable.ActiveAt (rel : Reliable) (i : Nat) (e : ReliableEntry) : Prop :=
  rel.array[i]? = some e ∧ e.active = true

/-- The ids of the slots in use. -/
def Reliable.activeIds (rel : Reliable) : List PacketIdType :=
  (rel.array.filter (·.active)).map (·.packetId)

theorem modifySlot_getElem? (rel : Reliable) (i j : Nat) (f : ReliableEntry → ReliableEntry) :
    (rel.modifySlot i f).array[j]? = if i = j then (rel.array[j]?).map f else rel.array[j]? := by
  show (rel.array.modify i f)[j]? = _
  rw [getElem?_modify]
  by_cases hij : i = j
  · simp only [if_pos hij]
    rfl
  · simp only [if_neg hij]
    exact id_map _

theorem modifySlot_modifySlot (rel : Reliable) (i : Nat) (f g : ReliableEntry → ReliableEntry) :
    (rel.modifySlot i f).modifySlot i g = rel.modifySlot i (g ∘ f) := by
  show { rel with array := _ } = { rel with array := _ }
  rw [show (rel.modifySlot i f).array = rel.array.modify i f from rfl, modify_modify_eq]

@[simp] theorem modifySlot_size (rel : Reliable) (i : Nat) (f : ReliableEntry → ReliableEntry) :
    (rel.modifySlot i f).size = rel.size :=
  length_modify f rel.array i

@[simp] theorem modifySlot_packetId (rel : Reliable) (i : Nat)
    (f : ReliableEntry → ReliableEntry) : (rel.modifySlot i f).packetId = rel.packetId := rfl

@[simp] theorem setBuf_buf (buf : Buffer) (e : ReliableEntry) : (e.setBuf buf).buf = buf := rfl

theorem activeAt_modifySlot (hi : rel.array[i]? = some e) (he : e.active = false)
    (f : ReliableEntry → ReliableEntry) (j : Nat) (e' : ReliableEntry) :
    (rel.modifySlot i f).ActiveAt j e' ↔
      rel.ActiveAt j e' ∨ (j = i ∧ e' = f e ∧ (f e).active = true) := by
  unfold Reliable.ActiveAt
  rw [modifySlot_getElem?]
  by_cases hij : i = j
  · subst hij
    rw [if_pos rfl, hi]
    constructor
    · rintro ⟨h, hact⟩
      cases h
      exact .inr ⟨rfl, rfl, hact⟩
    · rintro (⟨h, hact⟩ | ⟨-, rfl, hact⟩)
      · cases h
        rw [he] at hact
        cases hact
      · exact ⟨rfl, hact⟩
  · rw [if_neg hij]
    constructor
    · exact .inl
    · rintro (h | ⟨rfl, -⟩)
      · exact h
      · exact absurd rfl hij

theorem activeAt_release (i j : Nat) (e : ReliableEntry) :
    (rel.modifySlot i ReliableEntry.release).ActiveAt j e ↔ rel.ActiveAt j e ∧ j ≠ i := by
  unfold Reliable.ActiveAt
  rw [modifySlot_getElem?]
  by_cases hij : i = j
  · subst hij
    rw [if_pos rfl]
    constructor
    · rintro ⟨h, hact⟩
      obtain ⟨e0, -, rfl⟩ := Option.map_eq_some_iff.mp h
      cases hact
    · rintro ⟨-, hne⟩
      exact absurd rfl hne
  · rw [if_neg hij]
    exact ⟨fun h => ⟨h, fun heq => hij heq.symm⟩, fun h => h.1⟩

/-- A slot that is not taken into use and keeps its packet. -/
def ReliableEntry.Keeps (e e' : ReliableEntry) : Prop :=
  e'.packetId = e.packetId ∧ e'.buf = e.buf ∧ (e'.active = true → e.active = true)

theorem release_keeps (e : ReliableEntry) : e.Keeps e.release := ⟨rfl, rfl, nofun⟩

theorem modifySlot_keeps {f : ReliableEntry → ReliableEntry} {j : Nat}
    (h : (rel.modifySlot i f).array[j]? = some e) (hf : ∀ e : ReliableEntry, e.Keeps (f e)) :
    ∃ old : ReliableEntry, rel.array[j]? = some old ∧ old.Keeps e := by
  rw [modifySlot_getElem?] at h
  split at h
  · obtain ⟨old, hold, rfl⟩ := Option.map_eq_some_iff.mp h
    exact ⟨old, hold, hf old⟩
  · exact ⟨e, h, rfl, rfl, id⟩

theorem mem_activeIds {id : PacketIdType} :
    id ∈ rel.activeIds ↔ ∃ i e, rel.ActiveAt i e ∧ e.packetId = id := by
  unfold Reliable.activeIds
  rw [mem_map]
  constructor
  · rintro ⟨e, he, hid⟩
    obtain ⟨hmem, hact⟩ := mem_filter.mp he
    obtain ⟨i, hi⟩ := mem_iff_getElem?.mp hmem
    exact ⟨i, e, ⟨hi, hact⟩, hid⟩
  · rintro ⟨i, e, ⟨hi, hact⟩, hid⟩
    exact ⟨e, mem_filter.mpr ⟨mem_of_getElem? hi, hact⟩, hid⟩

theorem reliableCanGet_eq_false : reliableCanGet rel = false ↔
    ∀ (i : Nat) (e : ReliableEntry), rel.array[i]? = some e → e.active = true := by
  unfold reliableCanGet
  rw [any_eq_false]
  constructor
  · intro h i e hi
    simpa using h e (mem_of_getElem? hi)
  · intro h e he
    obtain ⟨i, hi⟩ := mem_iff_getElem?.mp he
    simp [h i e hi]

theorem activeIds_nodup
    (h : ∀ i j e f, rel.ActiveAt i e → rel.ActiveAt j f → e.packetId = f.packetId → i = j) :
    rel.activeIds.Nodup := by
  unfold Reliable.activeIds List.Nodup
  rw [pairwise_map, pairwise_filter, pairwise_iff_getElem]
  intro i j hi hj hij hacti hactj heq
  have := h i j _ _ ⟨getElem?_eq_getElem hi, hacti⟩
    ⟨getElem?_eq_getElem hj, hactj⟩ heq
  omega

theorem activeIds_length_of_full (hfull : reliableCanGet rel = false) :
    rel.activeIds.length = rel.size := by
  have hfilter : rel.array.filter (·.active) = rel.array := by
    rw [filter_eq_self]
    intro e he
    obtain ⟨i, hi⟩ := mem_iff_getElem?.mp he
    exact reliableCanGet_eq_false.mp hfull i e hi
  rw [Reliable.activeIds, hfilter, length_map]
  rfl

theorem reliableGetBuf_free
    (hroom : ∀ (i : Nat) (e : ReliableEntry), rel.array[i]? = some e → rel.offset ≤ e.buf.capacity)
    (hget : reliableCanGet rel = true) :
    ∃ i e buf, rel.array[i]? = some e ∧ e.active = false ∧ buf.contents = [] ∧
      buf.capacity = e.buf.capacity ∧ buf.offset = rel.offset ∧
      reliableGetBuf rel = some (some (i, rel.modifySlot i (ReliableEntry.setBuf buf))) := by
  cases hidx : rel.array.findIdx? (!·.active) with
  | none =>
    have hall := findIdx?_eq_none_iff.mp hidx
    obtain ⟨e, he, hfree⟩ := any_eq_true.mp hget
    rw [hall e he] at hfree
    cases hfree
  | some i =>
    obtain ⟨hlt, hfree, -⟩ := findIdx?_eq_some_iff_getElem.mp hidx
    have hi : rel.array[i]? = some rel.array[i] := getElem?_eq_getElem hlt
    obtain ⟨buf, hbuf, hcap, hoff, hnil⟩ := bufInit_isSome (hroom i _ hi)
    refine ⟨i, rel.array[i], buf, hi, by simpa using hfree, hnil, hcap, hoff, ?_⟩
    unfold reliableGetBuf
    simp only [hidx, hi, Option.bind_some, hbuf]

/-! ## A new array -/

theorem cleared_slot {buf : Buffer} {offset size : Nat} {hold : Bool}
    (h : (Reliable.cleared buf offset size hold).array[i]? = some e) :
    e.active = false ∧ e.buf = buf := by
  have := eq_of_mem_replicate (mem_of_getElem? h)
  subst this
  exact ⟨rfl, rfl⟩

theorem not_activeAt_cleared (buf : Buffer) (offset size : Nat) (hold : Bool) (i : Nat)
    (e : ReliableEntry) : ¬ (Reliable.cleared buf offset size hold).ActiveAt i e := by
  intro h
  have hfree := (cleared_slot h.1).1
  rw [h.2] at hfree
  cases hfree

theorem reliableInit_eq_some {bufSize offset arraySize : Nat} {hold : Bool}
    (h : reliableInit bufSize offset arraySize hold = some rel) :
    ∃ buf, rel = Reliable.cleared buf offset arraySize hold ∧ buf.capacity = bufSize ∧
      offset ≤ bufSize ∧ 0 < arraySize ∧ arraySize ≤ RELIABLE_CAPACITY := by
  unfold reliableInit at h
  split at h
  · rename_i hsize
    cases hbuf : (allocBuf bufSize).bind (bufInit · offset) with
    | none =>
      rw [hbuf] at h
      cases h
    | some buf =>
      rw [hbuf] at h
      cases h
      obtain ⟨alloc, hal, hinit⟩ := Option.bind_eq_some_iff.mp hbuf
      obtain ⟨hcap, hoff, -⟩ := bufInit_eq_some hinit
      have hsizeAlloc : alloc.capacity = bufSize := by
        unfold allocBuf at hal
        split at hal
        · cases hal
          rfl
        · cases hal
      have hle := Nat.le_of_add_right_le buf.fits
      rw [hcap, hsizeAlloc, hoff] at hle
      exact ⟨buf, rfl, hcap.trans hsizeAlloc, hle, hsize⟩
  · cases h

end OpenVpn
