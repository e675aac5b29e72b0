import OpenVpn.Epoch.Steps

/-!
# Nonce uniqueness of the epoch sender

The nonce of a data packet is made from the epoch of the send key and a packet
id counted per key. Three things replace the send key: the usage limit, an
exhausted id counter, and a peer that moved ahead. Each of them raises the epoch
and resets the counter, so the number `epoch * 2^48 + id` never goes back
(`sendPos`), and every packet sent carries a greater one than all before.
-/

namespace OpenVpn

open Base Option Nat

/-- The position of the sender, as a wire id. -/
def sendPos (co : CryptoOptions) : Nat := co.encrypt.epoch * 2 ^ 48 + co.packetId.send.id

/-- The invariant of the sender. -/
structure SendOk (co : CryptoOptions) : Prop where
  epoch_eq : co.encrypt.epoch = co.epochKeySend.epoch
  epoch_le : co.encrypt.epoch ≤ UINT16_MAX
  id_le : co.packetId.send.id ≤ PACKET_ID_EPOCH_MAX
  cipher : co.encrypt.cipher ≠ none
  recv : RecvOk co.packetId.recv

/-- The sender keeps its position, or moves on to a later epoch. -/
structure SendMoves (co co' : CryptoOptions) : Prop where
  ok : SendOk co'
  pos_le : sendPos co ≤ sendPos co'

/-! ## Wire ids -/

theorem wireId_eq (epoch : Nat) {id : Nat} (hid : id ≤ PACKET_ID_EPOCH_MAX) :
    epoch <<< 48 ||| id = epoch * 2 ^ 48 + id := by
  unfold PACKET_ID_EPOCH_MAX at hid
  rw [← shiftLeft_add_eq_or_of_lt (by omega), shiftLeft_eq]

theorem packetIdReadEpoch_wireId {epoch id : Nat} (hep : epoch ≤ UINT16_MAX)
    (hid : id ≤ PACKET_ID_EPOCH_MAX) :
    packetIdReadEpoch (epoch * 2 ^ 48 + id) = (epoch, { id := id, time := 0 }) := by
  unfold UINT16_MAX at hep
  unfold PACKET_ID_EPOCH_MAX at hid
  have hmask : PACKET_ID_MASK = 2 ^ 48 - 1 := by decide
  unfold packetIdReadEpoch
  rw [hmask, and_two_pow_sub_one_eq_mod, shiftRight_eq_div_pow]
  congr 1
  · omega
  · congr 1
    omega

theorem packetIdWriteEpoch_max (now : Int) {p : PacketIdSend} (epoch : Nat)
    (h : p.id = PACKET_ID_EPOCH_MAX) : ∃ p',
      packetIdWriteEpoch now p epoch = (p', none) ∧ p'.id = p.id := by
  unfold packetIdWriteEpoch packetIdSendUpdateEpoch
  by_cases ht : p.time = 0 <;> simp [ht, h]

theorem packetIdWriteEpoch_next (now : Int) {p : PacketIdSend} (epoch : Nat)
    (h : p.id < PACKET_ID_EPOCH_MAX) : ∃ p',
      packetIdWriteEpoch now p epoch = (p', some (epoch * 2 ^ 48 + p'.id)) ∧
      p'.id = p.id + 1 := by
  have hne : p.id ≠ PACKET_ID_EPOCH_MAX := Nat.ne_of_lt h
  have hwire := wireId_eq epoch (show p.id + 1 ≤ PACKET_ID_EPOCH_MAX from h)
  unfold packetIdWriteEpoch packetIdSendUpdateEpoch
  by_cases ht : p.time = 0 <;> simp [ht, hne, hwire]

/-! ## One step of the sender -/

section Steps

variable {hmacSha256 : Bytes → Bytes → Bytes} {co co' : CryptoOptions}

section

variable (h : SendOk co)

include h

theorem SendMoves.refl : SendMoves co co := ⟨h, le_refl _⟩

omit h in
theorem SendOk.newKey (h : SendOk co) {key : EpochKey} (hlt : co.encrypt.epoch < key.epoch)
    (hle : key.epoch ≤ UINT16_MAX) {encrypt : KeyCtx} (hinit : epochInitSendKeyCtx hmacSha256
      { co with epochKeySend := key, encrypt := encrypt } = some co') : SendMoves co co' := by
  obtain ⟨-, rfl⟩ := epochInitSendKeyCtx_eq_some.mp hinit
  refine ⟨⟨rfl, hle, zero_le _, some_ne_none _, h.recv⟩, ?_⟩
  have hid := h.id_le
  unfold PACKET_ID_EPOCH_MAX at hid
  show co.encrypt.epoch * 2 ^ 48 + co.packetId.send.id ≤ key.epoch * 2 ^ 48 + 0
  omega

theorem SendOk.iterate (hstep : epochIterateSendKey hmacSha256 co = some co') :
    SendMoves co co' := by
  unfold epochIterateSendKey at hstep
  split at hstep
  · rename_i hlt
    have hnext : (epochKeyIterate hmacSha256 co.epochKeySend).epoch =
        co.epochKeySend.epoch + 1 := by
      unfold UINT16_MAX at hlt
      exact mod_eq_of_lt (by omega)
    have heq := h.epoch_eq
    exact h.newKey (by omega) (by omega) hstep
  · cases hstep

theorem SendOk.pull {newEpoch : Nat} (hle : newEpoch ≤ UINT16_MAX)
    (hstep : epochPullSendKey hmacSha256 co newEpoch = some co') : SendMoves co co' := by
  unfold epochPullSendKey at hstep
  split at hstep
  · rename_i hlt
    have heq := h.epoch_eq
    have hnew := epochKeyIterateN_epoch hmacSha256
      (newEpoch - co.epochKeySend.epoch) co.epochKeySend (by omega)
    exact h.newKey (by omega) (by omega) hstep
  · cases hstep
    exact .refl h

theorem SendOk.checkSendIterate (hstep : epochCheckSendIterate hmacSha256 co = some co') :
    SendMoves co co' := by
  refine epochCheckSendIterate_induct (fun co1 co2 h1 hiter => ?_) (.refl h) hstep
  have h2 := h1.ok.iterate hiter
  exact ⟨h2.ok, h1.pos_le.trans h2.pos_le⟩

omit h in
theorem SendMoves.withRecv {co1 : CryptoOptions} (h : SendMoves co co1) {p : PacketIdRec}
    (hp : RecvOk p) : SendMoves co (co1.withRecv p) :=
  ⟨⟨h.ok.epoch_eq, h.ok.epoch_le, h.ok.id_le, h.ok.cipher, hp⟩, h.pos_le⟩

theorem SendOk.checkReplay {now : Int} {pin : PacketIdNet} {epoch : Nat} {ok : Bool}
    (h0 : epoch ≠ 0) (hle : epoch ≤ UINT16_MAX)
    (hstep : cryptoCheckReplay hmacSha256 now co pin epoch = some (co', ok)) :
    SendMoves co co' := by
  rcases cryptoCheckReplay_cases h0 hstep with ⟨-, p, hp, rfl⟩ |
    ⟨-, -, p, hp, rfl⟩ | ⟨-, -, co1, p, hrep, hp, rfl⟩
  · exact (SendMoves.refl h).withRecv (h.recv.check_some hp)
  · exact ⟨⟨h.epoch_eq, h.epoch_le, h.id_le, h.cipher, h.recv⟩, le_refl _⟩
  · obtain ⟨newCtx, co2, fresh, future, recv, -, hpull, hmove, rfl⟩ :=
      epochReplaceUpdateRecvKey_cases hrep
    obtain ⟨fresh', hmove', hfr⟩ := h.recv.move
    cases hmove.symm.trans hmove'
    have h2 := h.pull hle hpull
    exact ⟨⟨h2.ok.epoch_eq, h2.ok.epoch_le, h2.ok.id_le, h2.ok.cipher, hfr.check_some hp⟩,
      h2.pos_le⟩

theorem SendOk.decrypt {now : Int} {pkt : DataPacket} {ok : Bool}
    (hstep : openvpnDecryptAead hmacSha256 now co pkt = some (co', ok)) : SendMoves co co' := by
  rcases openvpnDecryptAead_cases hstep with ⟨-, rfl | ⟨slot, rfl⟩⟩ |
    ⟨h0, slot, co1, -, hchk, rfl⟩
  · exact .refl h
  · cases slot <;>
      exact ⟨⟨h.epoch_eq, h.epoch_le, h.id_le, h.cipher, h.recv⟩, le_refl _⟩
  · have hle : (packetIdReadEpoch pkt.wireId).1 ≤ UINT16_MAX :=
      le_of_lt_succ (packetIdReadEpoch_lt pkt.wireId)
    have h1 := h.checkReplay h0 hle hchk
    split
    · exact ⟨⟨h1.ok.epoch_eq, h1.ok.epoch_le, h1.ok.id_le, h1.ok.cipher, h1.ok.recv⟩, h1.pos_le⟩
    · exact h1

/-- **An encryption.** The packet sent, if any, carries the position the sender
moves to, and that position was never reached before. -/
theorem SendOk.encrypt {now : Int} {outlen : Nat} {fits : Bool} {sent : Option Sent}
    (hstep : openvpnEncryptAead hmacSha256 now co outlen fits = some (co', sent)) :
    SendMoves co co' ∧ ∀ s ∈ sent, sendPos co < s.wireId ∧ s.wireId = sendPos co' ∧
      s.epoch = co'.encrypt.epoch := by
  unfold openvpnEncryptAead at hstep
  rw [bind_eq_some_iff] at hstep
  obtain ⟨co1, hchk, hstep⟩ := hstep
  obtain ⟨h1, hpos⟩ := h.checkSendIterate hchk
  split at hstep
  · cases hstep
  rcases lt_or_eq_of_le h1.id_le with hlt | hmax
  · obtain ⟨send, hwr, hid⟩ := packetIdWriteEpoch_next now co1.encrypt.epoch hlt
    have hle : send.id ≤ PACKET_ID_EPOCH_MAX := by omega
    have hnext : sendPos co < co1.encrypt.epoch * 2 ^ 48 + send.id := by
      unfold sendPos at hpos
      unfold sendPos
      omega
    simp only [hwr] at hstep
    split at hstep
    · -- the id is spent although the packet does not fit
      cases hstep
      exact ⟨⟨⟨h1.epoch_eq, h1.epoch_le, hle, h1.cipher, h1.recv⟩, le_of_lt hnext⟩,
        fun s hs => by cases hs⟩
    · cases hstep
      refine ⟨⟨⟨h1.epoch_eq, h1.epoch_le, hle, h1.cipher, h1.recv⟩, le_of_lt hnext⟩, ?_⟩
      intro s hs
      cases hs
      exact ⟨hnext, rfl, rfl⟩
  · -- the counter is exhausted: nothing is sent
    obtain ⟨send, hwr, hid⟩ := packetIdWriteEpoch_max now co1.encrypt.epoch hmax
    simp only [hwr] at hstep
    cases hstep
    refine ⟨⟨⟨h1.epoch_eq, h1.epoch_le, le_of_eq (hid.trans hmax), h1.cipher, h1.recv⟩, ?_⟩,
      fun s hs => by cases hs⟩
    show sendPos co ≤ co1.encrypt.epoch * 2 ^ 48 + send.id
    rw [hid]
    exact hpos

/-- What a packet on the wire looks like. -/
def WellSent (s : Sent) : Prop :=
  s.epoch ≤ UINT16_MAX ∧ (packetIdReadEpoch s.wireId).2.id ≤ PACKET_ID_EPOCH_MAX ∧
    (packetIdReadEpoch s.wireId).1 = s.epoch ∧
    s.wireId = s.epoch * 2 ^ 48 + (packetIdReadEpoch s.wireId).2.id

/-- **One event.** What is sent lies behind all that was sent before. -/
theorem SendOk.dataStep {e : DataEvent} {sent : Option Sent}
    (hstep : dataStep hmacSha256 co e = some (co', sent)) :
    SendOk co' ∧ sendPos co ≤ sendPos co' ∧
      ∀ s ∈ sent, sendPos co < s.wireId ∧ s.wireId ≤ sendPos co' ∧ WellSent s := by
  cases e with
  | encrypt now outlen fits =>
    obtain ⟨⟨hok, hle⟩, hsent⟩ := h.encrypt hstep
    refine ⟨hok, hle, fun s hs => ?_⟩
    obtain ⟨hlt, heq, hep⟩ := hsent s hs
    refine ⟨hlt, le_of_eq heq, ?_⟩
    unfold WellSent
    rw [heq, sendPos, packetIdReadEpoch_wireId hok.epoch_le hok.id_le, hep]
    exact ⟨hok.epoch_le, hok.id_le, rfl, rfl⟩
  | decrypt now pkt =>
    obtain ⟨⟨co1, ok⟩, hdec, heq⟩ := map_eq_some_iff.mp hstep
    cases heq
    obtain ⟨hok, hle⟩ := h.decrypt hdec
    exact ⟨hok, hle, fun s hs => by cases hs⟩
  | checkSendIterate =>
    obtain ⟨co1, hchk, heq⟩ := map_eq_some_iff.mp hstep
    cases heq
    obtain ⟨hok, hle⟩ := h.checkSendIterate hchk
    exact ⟨hok, hle, fun s hs => by cases hs⟩
  | iterateSendKey =>
    obtain ⟨co1, hiter, heq⟩ := map_eq_some_iff.mp hstep
    cases heq
    obtain ⟨hok, hle⟩ := h.iterate hiter
    exact ⟨hok, hle, fun s hs => by cases hs⟩

theorem SendOk.encrypt_exhausted (hep : co.epochKeySend.epoch = UINT16_MAX)
    (hid : co.packetId.send.id = PACKET_ID_EPOCH_MAX) (now : Int) (outlen : Nat) (fits : Bool) :
    ∃ co'', openvpnEncryptAead hmacSha256 now co outlen fits = some (co'', none) := by
  have hchk : epochCheckSendIterate hmacSha256 co = some co := if_pos hep
  obtain ⟨send, hwr, -⟩ := packetIdWriteEpoch_max now co.encrypt.epoch hid
  unfold openvpnEncryptAead
  rw [hchk, bind_some, if_neg (by simp [h.cipher, h.recv.initialized])]
  simp only [hwr]
  exact ⟨_, rfl⟩

end

end Steps

theorem sendOk_init {hmacSha256 : Bytes → Bytes → Bytes} {kt : KeyType}
    {e1Send e1Recv : EpochKey} {count : Nat} {seqBacktrack timeBacktrack : Int}
    {pid : PacketId} {co : CryptoOptions}
    (hpid : packetIdInit seqBacktrack timeBacktrack = some pid)
    (hinit : epochInitKeyCtx hmacSha256 (.fresh pid) kt e1Send e1Recv count = some co) :
    SendOk co := by
  obtain ⟨-, -, hrecv⟩ := packetIdInitRecv_fresh (packetIdInit_recv hpid)
  obtain ⟨he1, -, future, recv, rfl⟩ := epochInitKeyCtx_cases hinit
  exact ⟨rfl, by show e1Send.epoch ≤ UINT16_MAX; rw [he1]; decide, zero_le _,
    some_ne_none _, hrecv⟩

/-- The epoch of the encrypting key and the id on the wire. -/
def Sent.nonce (s : Sent) : Nat × Nat := (s.epoch, (packetIdReadEpoch s.wireId).2.id)

theorem WellSent.nonce_lt {s s' : Sent} (h : WellSent s) (h' : WellSent s')
    (hlt : s.wireId < s'.wireId) :
    s.nonce.1 < s'.nonce.1 ∨ s.nonce.1 = s'.nonce.1 ∧ s.nonce.2 < s'.nonce.2 := by
  obtain ⟨-, hid, -, heq⟩ := h
  obtain ⟨-, hid', -, heq'⟩ := h'
  unfold PACKET_ID_EPOCH_MAX at hid hid'
  simp only [Sent.nonce]
  omega

/-- **Nonce uniqueness of the epoch sender.** Along every run of encryptions,
send-key iterations and received packets from `epoch_init_key_ctx`, the pairs of
key epoch and packet id put on the wire increase strictly in lexicographic
order; the epoch and the id stay in their 16 and 48 bits; the send key is the
key of the send secret's epoch; and at the last id of the last epoch an
encryption sends nothing. -/
theorem epoch_sender_nonces_increase (hmacSha256 : Bytes → Bytes → Bytes) (kt : KeyType)
    (e1Send e1Recv : EpochKey) (count : Nat) (seqBacktrack timeBacktrack : Int)
    (pid : PacketId) (co co' : CryptoOptions) (es : List DataEvent) (os : List (Option Sent))
    (hpid : packetIdInit seqBacktrack timeBacktrack = some pid)
    (hinit : epochInitKeyCtx hmacSha256 (.fresh pid) kt e1Send e1Recv count = some co)
    (hrun : run (dataStep hmacSha256) co es = some (co', os)) :
    ((emitted os).map Sent.nonce).Pairwise (fun a b => a.1 < b.1 ∨ a.1 = b.1 ∧ a.2 < b.2) ∧
    (∀ s ∈ emitted os, WellSent s) ∧
    co'.encrypt.epoch = co'.epochKeySend.epoch ∧
    (co'.epochKeySend.epoch = UINT16_MAX → co'.packetId.send.id = PACKET_ID_EPOCH_MAX →
      ∀ now outlen fits, ∃ co'',
        openvpnEncryptAead hmacSha256 now co' outlen fits = some (co'', none)) := by
  obtain ⟨hok, hpair, hall⟩ := run_emitted_increasing sendPos Sent.wireId
    (I := SendOk) (G := fun _ => True) (Q := WellSent)
    (fun co e co' o h _ hstep => h.dataStep hstep)
    (sendOk_init hpid hinit) (fun _ _ => trivial) hrun
  refine ⟨List.pairwise_map.mpr (hpair.imp_of_mem fun hs hs' hlt => ?_),
    fun s hs => (hall s hs).2, hok.epoch_eq, fun hepoch hid => hok.encrypt_exhausted hepoch hid⟩
  exact (hall _ hs).2.nonce_lt (hall _ hs').2 hlt

/-- What is sent along `es`, from a fresh start with constant key material. -/
def sentFromStart (es : List DataEvent) : Option (List (Option Sent)) := do
  let pid ← packetIdInit 4 15
  let co ← epochInitKeyCtx (fun _ _ => []) (.fresh pid) ⟨32, 12, false⟩ ⟨[], 1⟩ ⟨[], 1⟩ 4
  let (_, os) ← run (dataStep fun _ _ => []) co es
  some os

/-- Two packets, one that does not fit, an iteration of the send key, and a
received packet of epoch `4` that pulls the send key forward. -/
def sendingAcrossEpochs : List DataEvent :=
  [.encrypt 100 40 true, .encrypt 100 40 false, .encrypt 100 40 true, .iterateSendKey,
    .encrypt 101 40 true, .decrypt 102 ⟨0x4000000000007, true, 0⟩, .encrypt 103 40 true]

theorem epoch_sender_nonces_increase_pulled_forward :
    sentFromStart sendingAcrossEpochs = some [some ⟨1, 0x1000000000001⟩, none,
      some ⟨1, 0x1000000000003⟩, none, some ⟨2, 0x2000000000001⟩, none,
      some ⟨4, 0x4000000000001⟩] ∧
    ([⟨1, 0x1000000000001⟩, ⟨1, 0x1000000000003⟩, ⟨2, 0x2000000000001⟩,
      ⟨4, 0x4000000000001⟩].map Sent.nonce).Pairwise
        (fun a b => a.1 < b.1 ∨ a.1 = b.1 ∧ a.2 < b.2) := by
  refine (and_iff_left_of_imp fun h => ?_).mpr (by decide +kernel)
  simp only [sentFromStart, bind_eq_bind, bind_eq_some_iff] at h
  obtain ⟨pid, hpid, co, hinit, ⟨co', os⟩, hrun, heq⟩ := h
  cases heq
  exact (epoch_sender_nonces_increase _ _ _ _ _ 4 15 pid co co' sendingAcrossEpochs _ hpid
    hinit hrun).1

end OpenVpn
