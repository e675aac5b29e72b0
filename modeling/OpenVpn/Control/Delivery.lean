import OpenVpn.Control.Receive
import OpenVpn.Control.Transmit

/-!
# The control channel delivers in order, exactly once

Two endpoints talk over a network that may lose, repeat and reorder packets but
not invent them: whatever an endpoint ever transmitted may arrive at the other
one, any number of times, at any time. Both endpoints send, so data and
acknowledgements share packets in both directions.

* `Endpoint` — the channel of one party with three logs: the payloads handed to
  its send array, those it delivered, and all packets it transmitted.
* `EndpointOk` — what an endpoint guarantees by itself: its packets carry log
  entries, and every id it acknowledges, has ever acknowledged or is about to
  acknowledge is one its receive window has seen.
* `LinkOk` — that, and each side's window is `Faithful` to the other's log.
* `control_channel_delivers_in_order` — over every schedule.
-/

namespace OpenVpn

open Base List Function Option Nat BitVec

inductive Party where
  | client
  | server
  deriving DecidableEq

def Party.other : Party → Party
  | .client => .server
  | .server => .client

@[simp] theorem Party.other_other (p : Party) : p.other.other = p := by
  cases p <;> rfl

theorem Party.other_ne (p : Party) : p.other ≠ p := by
  cases p <;> decide

/-- A control packet on the wire: opcode, and ACK record with what follows it. -/
abbrev ControlPacket := Nat × Bytes

structure Endpoint where
  ks : KeyState
  handed : List Bytes
  delivered : List Bytes
  history : List ControlPacket

def Endpoint.start (ks : KeyState) : Endpoint := ⟨ks, [], [], []⟩

/-- What may happen at an endpoint. `receive k` is the arrival of the `k`-th
packet the other side ever transmitted. -/
inductive LinkEvent where
  | queue (opcode : Nat) (payload : Bytes)
  | transmit (now : Int)
  | transmitAck
  | scheduleNow (now : Int)
  | receive (k : Nat)
  | deliver

/-- One step of an endpoint whose peer has transmitted `peerHistory`. -/
def endpointStep (peerHistory : List ControlPacket) (ep : Endpoint) : LinkEvent → Option Endpoint
  | .queue opcode payload =>
    match queueOutgoing ep.ks.sendReliable opcode payload with
    | none => none
    | some (rel, handed) =>
      some { ep with
        ks := { ep.ks with sendReliable := rel }, handed := ep.handed ++ handed.toList }
  | .transmit now =>
    match transmitReliable ep.ks now with
    | none => none
    | some (ks, packet) => some { ep with ks, history := ep.history ++ packet.toList }
  | .transmitAck =>
    match OpenVpn.transmitAck ep.ks with
    | none => none
    | some (ks, packet) => some { ep with ks, history := ep.history ++ packet.toList }
  | .scheduleNow now =>
    some { ep with
      ks := { ep.ks with sendReliable := reliableScheduleNow ep.ks.sendReliable now } }
  | .receive k =>
    match peerHistory[k]? with
    | none => some ep
    | some (op, buf) =>
      match tlsPreDecrypt ep.ks op buf with
      | none => none
      | some ks => some { ep with ks }
  | .deliver =>
    match deliverSequenced ep.ks.recReliable with
    | none => none
    | some (rel, payload) =>
      some { ep with
        ks := { ep.ks with recReliable := rel }
        delivered := ep.delivered ++ payload.toList }

abbrev Link := Party → Endpoint

def linkStep (w : Link) (event : Party × LinkEvent) : Option (Link × Unit) :=
  match endpointStep (w event.1.other).history (w event.1) event.2 with
  | none => none
  | some ep => some (update w event.1 ep, ())

/-! ## What an endpoint guarantees -/

/-- A transmitted packet: its record names ids that satisfy `acked`, and a packet
other than a bare acknowledgement carries an entry of `log` under its number. -/
def PacketOk (log : List Bytes) (acked : PacketIdType → Prop) (packet : ControlPacket) : Prop :=
  ∃ ids sid body, ids.length ≤ RELIABLE_ACK_SIZE ∧ (∀ id ∈ ids, acked id) ∧
    packet.2 = ackRecord ids sid ++ body ∧
    (packet.1 ≠ P_ACK_V1 → ∃ (k : Nat) (x : Bytes), log[k]? = some x ∧
      body = htonpid (BitVec.ofNat 32 k) ++ x)

/-- The receive window of the endpoint has, or had, the packet `id`. -/
def Endpoint.Seen (ep : Endpoint) (id : PacketIdType) : Prop :=
  ep.ks.recReliable.view.Has id.toNat

/-- A slot of the send array in use holds an entry of the log under its number. -/
def SlotOk (log : List Bytes) (e : ReliableEntry) : Prop :=
  ∃ (k : Nat) (x : Bytes), log[k]? = some x ∧ e.packetId = BitVec.ofNat 32 k ∧
    e.buf.contents = htonpid (BitVec.ofNat 32 k) ++ x

structure EndpointOk (n : Nat) (ep : Endpoint) : Prop where
  window : WindowOk n ep.ks.recReliable
  next : ep.ks.sendReliable.packetId = BitVec.ofNat 32 ep.handed.length
  slots : ∀ i e, ep.ks.sendReliable.ActiveAt i e → SlotOk ep.handed e
  pending : ∀ id ∈ ep.ks.recAck.packetId, ep.Seen id
  recent : ∀ id ∈ ep.ks.lruAcks.packetId, ep.Seen id
  packets : ∀ packet ∈ ep.history, PacketOk ep.handed ep.Seen packet

variable {log : List Bytes} {acked : PacketIdType → Prop}

theorem PacketOk.mono {acked' : PacketIdType → Prop} {packet : ControlPacket}
    (h : PacketOk log acked packet) (new : List Bytes) (hacked : ∀ id, acked id → acked' id) :
    PacketOk (log ++ new) acked' packet := by
  obtain ⟨ids, sid, body, hlen, hids, hbs, hbody⟩ := h
  refine ⟨ids, sid, body, hlen, fun id hid => hacked id (hids id hid), hbs, ?_⟩
  intro hop
  obtain ⟨k, x, hx, hb⟩ := hbody hop
  exact ⟨k, x, (getElem?_append_left (List.getElem?_eq_some_iff.mp hx).1).trans hx, hb⟩

theorem SlotOk.append {e : ReliableEntry} (h : SlotOk log e) (new : List Bytes) :
    SlotOk (log ++ new) e := by
  obtain ⟨k, x, hx, hrest⟩ := h
  exact ⟨k, x, (getElem?_append_left (List.getElem?_eq_some_iff.mp hx).1).trans hx, hrest⟩

variable {rel : Reliable}

theorem EndpointOk.slotsKept {n : Nat} {ep : Endpoint} (h : EndpointOk n ep)
    (hkept : SlotsKept ep.ks.sendReliable rel) : ∀ i e, rel.ActiveAt i e → SlotOk ep.handed e := by
  intro i e' hi
  obtain ⟨e, hie, hid, hbuf⟩ := hkept i e' hi
  obtain ⟨k, x, hx, hk, hcon⟩ := h.slots i e hie
  exact ⟨k, x, hx, hid.trans hk, by rw [hbuf]; exact hcon⟩

/-! ## Steps of one endpoint -/

section Steps

variable {n : Nat} {ep : Endpoint}

section

variable (h : EndpointOk n ep)

include h

theorem EndpointOk.withSend (hkept : SlotsKept ep.ks.sendReliable rel)
    (hnext : rel.packetId = ep.ks.sendReliable.packetId) :
    EndpointOk n { ep with ks := { ep.ks with sendReliable := rel } } where
  window := h.window
  next := hnext.trans h.next
  slots := h.slotsKept hkept
  pending := h.pending
  recent := h.recent
  packets := h.packets

theorem EndpointOk.withRecv {ack : ReliableAck} (delivered : List Bytes) (hwin : WindowOk n rel)
    (hseen : ∀ k, ep.ks.recReliable.view.Has k → rel.view.Has k)
    (hpend : ∀ id ∈ ack.packetId, rel.view.Has id.toNat) :
    EndpointOk n
      { ep with ks := { ep.ks with recReliable := rel, recAck := ack }, delivered } where
  window := hwin
  next := h.next
  slots := h.slots
  pending := hpend
  recent := fun id hid => hseen _ (h.recent id hid)
  packets := by
    intro packet hpk
    have := (h.packets packet hpk).mono [] (fun id => hseen id.toNat)
    rwa [append_nil] at this

theorem EndpointOk.queue {opcode : Nat} {payload : Bytes} {handed : Option Bytes}
    (hq : queueOutgoing ep.ks.sendReliable opcode payload = some (rel, handed)) :
    EndpointOk n { ep with
      ks := { ep.ks with sendReliable := rel }, handed := ep.handed ++ handed.toList } := by
  rcases queueOutgoing_cases hq with ⟨rfl, rfl⟩ | ⟨x, rfl, hnext, hsl⟩
  · rw [toList_none, append_nil]
    exact h
  · constructor
    · exact h.window
    · show rel.packetId = BitVec.ofNat 32 (ep.handed ++ [x]).length
      rw [hnext, h.next, length_append, length_singleton, ofNat_add]
      rfl
    · intro i e hi
      rcases hsl i e hi with hi | ⟨hid, -, hcon⟩
      · exact (h.slots i e hi).append _
      · rw [h.next] at hid hcon
        exact ⟨ep.handed.length, x, getElem?_concat_length, hid, hcon⟩
    · exact h.pending
    · exact h.recent
    · intro packet hpk
      exact (h.packets packet hpk).mono _ (fun _ => id)

theorem EndpointOk.sent {packet : ControlPacket} (hpk : PacketOk ep.handed ep.Seen packet) :
    EndpointOk n { ep with history := ep.history ++ [packet] } where
  window := h.window
  next := h.next
  slots := h.slots
  pending := h.pending
  recent := h.recent
  packets := by
    intro p hp
    rcases mem_append.mp hp with hp | hp
    · exact h.packets p hp
    · rw [mem_singleton.mp hp]
      exact hpk

variable {ks : KeyState} {packet : Option ControlPacket}

theorem EndpointOk.wrote {buf : Buffer} {maxAck : Nat} {prependAck : Bool} {bytes : Bytes}
    (hw : writeControlAuth ep.ks buf maxAck prependAck = some (ks, bytes)) :
    EndpointOk n { ep with ks } ∧ ks.recReliable = ep.ks.recReliable ∧
    ∃ ids, ids.length ≤ RELIABLE_ACK_SIZE ∧ (∀ id ∈ ids, Endpoint.Seen { ep with ks } id) ∧
      bytes = if prependAck then ackRecord ids ep.ks.sessionIdRemote ++ buf.contents
        else buf.contents ++ ackRecord ids ep.ks.sessionIdRemote := by
  obtain ⟨recAck, lruAcks, ids, rfl, hrec, hlru, hlen, hids, hbs⟩ := writeControlAuth_cases hw
  have hrecent : ∀ id ∈ lruAcks.packetId, ep.Seen id := by
    intro id hid
    rcases hlru id hid with hid | hid
    · exact h.pending id hid
    · exact h.recent id hid
  refine ⟨?_, rfl, ids, hlen, fun id hid => hrecent id (hids id hid), hbs⟩
  exact
    { window := h.window
      next := h.next
      slots := h.slots
      pending := fun id hid => h.pending id (hrec id hid)
      recent := hrecent
      packets := h.packets }

theorem EndpointOk.transmit {now : Int} (ht : transmitReliable ep.ks now = some (ks, packet)) :
    EndpointOk n { ep with ks, history := ep.history ++ packet.toList } ∧
      ks.recReliable = ep.ks.recReliable := by
  rcases transmitReliable_cases ht with
    ⟨rfl, rfl⟩ | ⟨best, rel, ks1, bytes, ⟨i, hbest⟩, hkept, hnext, rfl, hwr, rfl⟩
  · rw [toList_none, append_nil]
    exact ⟨h, rfl⟩
  · obtain ⟨hok, hsame, ids, hlen, hids, hbs⟩ := (h.withSend hkept hnext).wrote hwr
    refine ⟨hok.sent ?_, hsame⟩
    obtain ⟨k, x, hx, -, hcon⟩ := h.slots i best hbest
    exact ⟨ids, ep.ks.sessionIdRemote, best.buf.contents, hlen, hids, hbs,
      fun _ => ⟨k, x, hx, hcon⟩⟩

theorem EndpointOk.transmitAck (ht : OpenVpn.transmitAck ep.ks = some (ks, packet)) :
    EndpointOk n { ep with ks, history := ep.history ++ packet.toList } ∧
      ks.recReliable = ep.ks.recReliable := by
  rcases transmitAck_cases ht with ⟨rfl, rfl⟩ | ⟨buf, bytes, hnil, hwr, rfl⟩
  · rw [toList_none, append_nil]
    exact ⟨h, rfl⟩
  · obtain ⟨hok, hsame, ids, hlen, hids, hbs⟩ := h.wrote hwr
    refine ⟨hok.sent ?_, hsame⟩
    refine ⟨ids, ep.ks.sessionIdRemote, [], hlen, hids, ?_, fun hop => absurd rfl hop⟩
    rw [append_nil]
    show bytes = _
    rw [hbs, hnil]
    rfl

omit h in
theorem reliableAckRead_record {ids : List PacketIdType} (hids : ids.length ≤ RELIABLE_ACK_SIZE)
    {sid own : SessionId} {body rest : Bytes} {ack : ReliableAck}
    (h : reliableAckRead (ackRecord ids sid ++ body) own = some (ack, rest)) :
    ack.packetId = ids ∧ rest = body := by
  unfold reliableAckRead at h
  rw [reliableAckParse_record hids] at h
  dsimp only at h
  rw [ite_none_left_eq_some] at h
  cases h.2
  exact ⟨rfl, rfl⟩

theorem EndpointOk.receive (hn : n < 2 ^ 31) (hlog : log.length < 2 ^ 31)
    (hf : Reassembly.Faithful log ep.delivered ep.ks.recReliable.view) {op : Nat}
    {buf : Bytes} (hpk : PacketOk log acked (op, buf))
    (hdec : tlsPreDecrypt ep.ks op buf = some ks) :
    EndpointOk n { ep with ks } ∧ Reassembly.Faithful log ep.delivered ks.recReliable.view := by
  obtain ⟨send, rel, ack, hks, hwin, hsend, hrecv⟩ := tlsPreDecrypt_refines h.window hn op buf
  cases hdec.symm.trans hks
  have hkept : SlotsKept ep.ks.sendReliable send ∧ send.packetId = ep.ks.sendReliable.packetId := by
    rcases hsend with rfl | ⟨sendAck, rest, -, rfl⟩
    · exact ⟨SlotsKept.refl _, rfl⟩
    · exact ⟨slotsKept_of fun _ _ hi => reliableSendPurge_slot hi, rfl⟩
  have hep := h.withSend hkept.1 hkept.2
  rcases hrecv with ⟨hview, rfl⟩ | ⟨sendAck, rest, id, payload, hop, hread, hid, hlt, hview, rfl⟩
  · refine ⟨hep.withRecv ep.delivered hwin ?_ ?_, ?_⟩
    · intro k hk
      rw [hview]
      exact hk
    · intro id hid
      rw [hview]
      exact h.pending id hid
    · show Reassembly.Faithful log ep.delivered rel.view
      rw [hview]
      exact hf
  · -- the packet is one the peer sent, so what it carries is in the peer's log
    obtain ⟨ids, sid, body, hlen, -, hbs, hbody⟩ := hpk
    obtain ⟨k, x, hx, hbodyk⟩ := hbody hop
    change buf = ackRecord ids sid ++ body at hbs
    rw [hbs] at hread
    obtain ⟨-, rfl⟩ := reliableAckRead_record hlen hread
    rw [hbodyk, reliableAckReadPacketId_htonpid] at hid
    cases hid
    have hk : (BitVec.ofNat 32 k).toNat = k := by
      have := (List.getElem?_eq_some_iff.mp hx).1
      rw [toNat_ofNat]
      omega
    refine ⟨hep.withRecv ep.delivered hwin ?_ ?_, ?_⟩
    · intro j hj
      rw [hview]
      exact hj.offer
    · intro id hid
      rw [hview]
      rcases mem_acknowledge hid with hid | rfl
      · exact (h.pending id hid).offer
      · exact Reassembly.has_offer hlt
    · show Reassembly.Faithful log ep.delivered rel.view
      rw [hview, hk]
      exact hf.offer hx

theorem EndpointOk.deliver (hlog : log.length < 2 ^ 31)
    (hf : Reassembly.Faithful log ep.delivered ep.ks.recReliable.view)
    {payload : Option Bytes} (hdel : deliverSequenced ep.ks.recReliable = some (rel, payload)) :
    EndpointOk n { ep with
      ks := { ep.ks with recReliable := rel }, delivered := ep.delivered ++ payload.toList } ∧
    Reassembly.Faithful log (ep.delivered ++ payload.toList) rel.view := by
  have hlow : ep.ks.recReliable.packetId.toNat < 2 ^ 31 :=
    lt_of_le_of_lt hf.next_le hlog
  rcases deliverSequenced_refines h.window hlow with
    ⟨-, hnone⟩ | ⟨rel1, x, hheld, hsome, hwin, hview⟩
  · cases hdel.symm.trans hnone
    rw [toList_none, append_nil]
    exact ⟨h, hf⟩
  · cases hdel.symm.trans hsome
    refine ⟨h.withRecv _ hwin ?_ ?_, ?_⟩
    · intro k hk
      rw [hview]
      exact hk.take
    · intro id hid
      rw [hview]
      exact (h.pending id hid).take
    · rw [hview]
      exact hf.take hheld

end

end Steps

/-! ## Steps of the link -/

/-- Both endpoints keep their guarantees, and each has delivered and holds only
what the other one sent. -/
def LinkOk (n : Party → Nat) (w : Link) : Prop :=
  ∀ p, EndpointOk (n p) (w p) ∧
    Reassembly.Faithful (w p).handed (w p.other).delivered (w p.other).ks.recReliable.view

theorem endpointStep_handed {history : List ControlPacket} {ep ep' : Endpoint} {event : LinkEvent}
    (hstep : endpointStep history ep event = some ep') :
    ep.handed <+: ep'.handed := by
  cases event with simp only [endpointStep] at hstep
  | queue =>
    split at hstep <;> cases hstep
    exact prefix_append _ _
  | scheduleNow =>
    cases hstep
    exact prefix_rfl
  | receive =>
    split at hstep
    · cases hstep
      exact prefix_rfl
    · split at hstep <;> cases hstep
      exact prefix_rfl
  | transmit | transmitAck | deliver =>
    split at hstep <;> cases hstep
    exact prefix_rfl

variable {w : Link}

theorem linkStep_handed_le {w' : Link} {event : Party × LinkEvent} {o : Unit}
    (hstep : linkStep w event = some (w', o)) (p : Party) :
    (w p).handed.length ≤ (w' p).handed.length := by
  unfold linkStep at hstep
  split at hstep
  · cases hstep
  · rename_i ep hep
    cases hstep
    by_cases hp : p = event.1
    · subst hp
      rw [update_self]
      exact (endpointStep_handed hep).length_le
    · rw [update_of_ne hp]

/-- **One event** of an endpoint; `log` is what the peer has handed over. -/
theorem EndpointOk.step {n : Nat} {ep ep' : Endpoint} (h : EndpointOk n ep) (hn : n < 2 ^ 31)
    {history : List ControlPacket} (hlog : log.length < 2 ^ 31)
    (hhistory : ∀ packet ∈ history, PacketOk log acked packet)
    (hf : Reassembly.Faithful log ep.delivered ep.ks.recReliable.view) {event : LinkEvent}
    (hstep : endpointStep history ep event = some ep') :
    EndpointOk n ep' ∧ Reassembly.Faithful log ep'.delivered ep'.ks.recReliable.view := by
  cases event with simp only [endpointStep] at hstep
  | queue opcode payload =>
    split at hstep
    · cases hstep
    · rename_i rel handed hq
      cases hstep
      exact ⟨h.queue hq, hf⟩
  | transmit now =>
    split at hstep
    · cases hstep
    · rename_i ks packet ht
      cases hstep
      obtain ⟨hok, hsame⟩ := h.transmit ht
      exact ⟨hok, hsame ▸ hf⟩
  | transmitAck =>
    split at hstep
    · cases hstep
    · rename_i ks packet ht
      cases hstep
      obtain ⟨hok, hsame⟩ := h.transmitAck ht
      exact ⟨hok, hsame ▸ hf⟩
  | scheduleNow now =>
    cases hstep
    exact ⟨h.withSend (reliableScheduleNow_slotsKept _ now) rfl, hf⟩
  | receive k =>
    split at hstep
    · cases hstep
      exact ⟨h, hf⟩
    · rename_i op buf hk
      split at hstep
      · cases hstep
      · rename_i ks hdec
        cases hstep
        exact h.receive hn hlog hf (hhistory _ (mem_of_getElem? hk)) hdec
  | deliver =>
    split at hstep
    · cases hstep
    · rename_i rel payload hdel
      cases hstep
      exact h.deliver hlog hf hdel

theorem LinkOk.step {n : Party → Nat} {w' : Link} (h : LinkOk n w) (hn : ∀ p, n p < 2 ^ 31)
    (hlog : ∀ p, (w p).handed.length < 2 ^ 31) {event : Party × LinkEvent} {o : Unit}
    (hstep : linkStep w event = some (w', o)) : LinkOk n w' := by
  obtain ⟨q, event⟩ := event
  simp only [linkStep] at hstep
  split at hstep
  · cases hstep
  · rename_i ep hep
    cases hstep
    obtain ⟨hq, -⟩ := h q
    obtain ⟨hoth, hf⟩ := h q.other
    rw [Party.other_other] at hf
    obtain ⟨hok, hfaithful'⟩ := hq.step (hn q) (hlog q.other) hoth.packets hf hep
    intro p
    by_cases hp : p = q
    · subst hp
      rw [update_self, update_of_ne p.other_ne]
      refine ⟨hok, ?_⟩
      obtain ⟨rest, heq⟩ := endpointStep_handed hep
      rw [← heq]
      exact (h p).2.append rest
    · have hpq : p = q.other := by cases p <;> cases q <;> first | rfl | exact absurd rfl hp
      subst hpq
      rw [Party.other_other, update_self, update_of_ne q.other_ne]
      exact ⟨hoth, hfaithful'⟩

/-! ## Whole runs -/

/-- The control channel of a new session with a receive array of `n` slots. -/
structure KeyState.Fresh (n : Nat) (ks : KeyState) : Prop where
  sendNext : ks.sendReliable.packetId = 0
  sendFree : ks.sendReliable.activeIds = []
  recvFree : ∃ buf offset hold, offset ≤ buf.capacity ∧
    ks.recReliable = Reliable.cleared buf offset n hold
  recAck : ks.recAck = ReliableAck.empty
  lruAcks : ks.lruAcks = ReliableAck.empty

theorem linkOk_start {n : Party → Nat} {ks : Party → KeyState} (h : ∀ p, (ks p).Fresh (n p)) :
    LinkOk n (fun p => Endpoint.start (ks p)) := by
  intro p
  refine ⟨?_, ?_⟩
  · obtain ⟨buf, offset, hold, hbuf, hrec⟩ := (h p).recvFree
    constructor
    · show WindowOk (n p) (ks p).recReliable
      rw [hrec]
      exact windowOk_cleared hbuf (n p) hold
    · exact (h p).sendNext
    · intro i e hi
      have := mem_activeIds.mpr ⟨i, e, hi, rfl⟩
      change e.packetId ∈ (ks p).sendReliable.activeIds at this
      rw [(h p).sendFree] at this
      cases this
    · intro id hid
      change id ∈ (ks p).recAck.packetId at hid
      rw [(h p).recAck] at hid
      cases hid
    · intro id hid
      change id ∈ (ks p).lruAcks.packetId at hid
      rw [(h p).lruAcks] at hid
      cases hid
    · intro packet hpk
      cases hpk
  · obtain ⟨buf, offset, hold, hbuf, hrec⟩ := (h p.other).recvFree
    have hok := windowOk_cleared hbuf (n p.other) hold
    show Reassembly.Faithful [] [] (ks p.other).recReliable.view
    rw [hrec]
    refine ⟨le_refl 0, rfl, ?_⟩
    intro k x hx
    obtain ⟨i, e, hie, -⟩ := (view_held_eq_some hok).mp hx
    have hact := hie.2
    rw [eq_of_mem_replicate (mem_of_getElem? hie.1)] at hact
    cases hact

/-- A packet that is purged has been received. -/
theorem LinkOk.purged {n : Party → Nat} (h : LinkOk n w) {p : Party}
    (hlog : (w p).handed.length < 2 ^ 31) {op : Nat} {buf : Bytes}
    (hpk : (op, buf) ∈ (w p.other).history) {ack : ReliableAck} {rest : Bytes}
    (hread : reliableAckRead buf (w p).ks.sessionId = some (ack, rest)) {i : Nat}
    {e : ReliableEntry} (hie : (w p).ks.sendReliable.ActiveAt i e)
    (hgone : ∀ e', ¬ (reliableSendPurge (w p).ks.sendReliable ack).ActiveAt i e') :
    ∃ x, (w p).handed[e.packetId.toNat]? = some x ∧
      ((w p.other).delivered[e.packetId.toNat]? = some x ∨
        ∃ j f, (w p.other).ks.recReliable.ActiveAt j f ∧ f.packetId = e.packetId ∧
          f.buf.contents = x) := by
  obtain ⟨hp, hf⟩ := h p
  have hoth := (h p.other).1
  -- the slot was named by a record of the peer
  obtain ⟨ids, sid, body, hlen, hids, hbs, -⟩ := hoth.packets _ hpk
  change buf = ackRecord ids sid ++ body at hbs
  rw [hbs] at hread
  obtain ⟨hack, -⟩ := reliableAckRead_record hlen hread
  have hnamed : e.packetId ∈ ids := by
    rw [← hack]
    by_contra hnot
    obtain ⟨e', he'⟩ := reliableSendPurge_keeps hie hnot
    exact hgone e' he'
  obtain ⟨k, x, hx, hid, -⟩ := hp.slots i e hie
  have hk : e.packetId.toNat = k := by
    have := (List.getElem?_eq_some_iff.mp hx).1
    rw [hid, toNat_ofNat]
    omega
  refine ⟨x, hk ▸ hx, ?_⟩
  rcases hids _ hnamed with hold | hheld
  · left
    rw [hf.out_eq, getElem?_take_of_lt hold, hk]
    exact hx
  · right
    obtain ⟨y, hy⟩ := isSome_iff_exists.mp hheld
    have hxy := hf.held _ y hy
    rw [hk, hx] at hxy
    cases hxy
    obtain ⟨j, f, hjf, hfid, hfx⟩ := (view_held_eq_some hoth.window).mp hy
    exact ⟨j, f, hjf, eq_of_toNat_eq hfid, hfx⟩

/-- **In-order, exactly-once delivery.** Two new endpoints with receive windows
of any size exchange control packets over a network that may lose, repeat and
reorder them, until fewer than `2 ^ 31` payloads were handed to either side. What
a party delivered is then a prefix of what was handed to the other one, and an
acknowledgement that may still arrive frees a send slot only if the peer
delivered its packet or holds it. -/
theorem control_channel_delivers_in_order {n : Party → Nat}
    (hn : ∀ p, 1 ≤ n p ∧ n p < 2 ^ 31) {ks : Party → KeyState}
    (hks : ∀ p, (ks p).Fresh (n p)) {events : List (Party × LinkEvent)} {w : Link}
    {os : List Unit} (hrun : run linkStep (fun p => Endpoint.start (ks p)) events = some (w, os))
    (htotal : ∀ p, (w p).handed.length < 2 ^ 31) :
    (∀ p, (w p.other).delivered <+: (w p).handed) ∧
    ∀ p op buf ack rest, (op, buf) ∈ (w p.other).history →
      reliableAckRead buf (w p).ks.sessionId = some (ack, rest) →
      ∀ i e, (w p).ks.sendReliable.ActiveAt i e →
        (∀ e', ¬ (reliableSendPurge (w p).ks.sendReliable ack).ActiveAt i e') →
        ∃ x, (w p).handed[e.packetId.toNat]? = some x ∧
          ((w p.other).delivered[e.packetId.toNat]? = some x ∨
            ∃ j f, (w p.other).ks.recReliable.ActiveAt j f ∧ f.packetId = e.packetId ∧
              f.buf.contents = x) := by
  have hok : LinkOk n w := run_invariant (G := fun _ _ => True)
    (I := fun w => (∀ p, (w p).handed.length < 2 ^ 31) → LinkOk n w) (by
      intro w event w' o hI _ hstep htotal'
      -- the logs only grow, so the bound held before the step as well
      have hbound : ∀ p, (w p).handed.length < 2 ^ 31 := fun p =>
        lt_of_le_of_lt (linkStep_handed_le hstep p) (htotal' p)
      exact (hI hbound).step (fun p => (hn p).2) hbound hstep)
    (fun _ => linkOk_start hks) (runGuard_true _ events) hrun htotal
  refine ⟨fun p => (hok p).2.out_isPrefix, ?_⟩
  intro p op buf ack rest hpacket hread i e hie hgone
  exact hok.purged (htotal p) hpacket hread hie hgone

/-- A client and a server with two slots in each direction. -/
def twoParties : Party → KeyState
  | .client => twoSlots
  | .server =>
    { twoSlots with sessionId := twoSlots.sessionIdRemote, sessionIdRemote := twoSlots.sessionId }

/-- Two payloads arrive in the wrong order, the first one twice, and the record
that acknowledges them arrives twice. -/
def reorderedSchedule : List (Party × LinkEvent) :=
  [(.client, .queue P_CONTROL_V1 [1]), (.client, .queue P_CONTROL_V1 [2]), (.client, .transmit 0),
    (.client, .transmit 0), (.server, .receive 1), (.server, .deliver), (.server, .receive 0),
    (.server, .receive 0), (.server, .deliver), (.server, .deliver), (.server, .transmitAck),
    (.client, .receive 0), (.client, .receive 0)]

theorem control_channel_delivers_in_order_reordered : ∃ w os,
    run linkStep (fun p => Endpoint.start (twoParties p)) reorderedSchedule = some (w, os) ∧
    (w .server).delivered <+: (w .client).handed ∧ (w .server).delivered = [[1], [2]] := by
  have hfresh : ∀ p, (twoParties p).Fresh 2 := by
    intro p
    cases p <;> exact ⟨rfl, rfl, ⟨⟨64, 40, [], by decide⟩, 40, false, by decide, rfl⟩, rfl, rfl⟩
  have hend : (run linkStep (fun p => Endpoint.start (twoParties p)) reorderedSchedule).map
      (fun r => ((r.1 .client).handed, (r.1 .server).handed, (r.1 .server).delivered)) =
        some ([[1], [2]], [], [[1], [2]]) := by
    decide +kernel
  obtain ⟨⟨w, os⟩, hrun, heq⟩ := map_eq_some_iff.mp hend
  simp only [Prod.mk.injEq] at heq
  have htotal : ∀ p, (w p).handed.length < 2 ^ 31 := by
    intro p
    cases p with
    | client => rw [heq.1]; decide
    | server => rw [heq.2.1]; decide
  exact ⟨w, os, hrun, (control_channel_delivers_in_order (n := fun _ => 2) (fun _ => by decide) hfresh
    hrun htotal).1 .client, heq.2.2⟩

end OpenVpn
