import OpenVpn.Epoch.Model
import OpenVpn.PacketId.Window

/-!
# What the epoch functions can do

One inversion lemma per function: from a result, the branch it came from and
everything it left unchanged. The results on the ring, the nonces and the
replay windows use these and do not unfold the functions again.
-/

namespace OpenVpn

open Base Option

/-- The receive window of the current key is replaced. -/
def CryptoOptions.withRecv (co : CryptoOptions) (p : PacketIdRec) : CryptoOptions :=
  { co with packetId := { co.packetId with recv := p } }

theorem packetIdCheck_eq (now : Int) (p : PacketIdRec) (pin : PacketIdNet) :
    ∃ a : Arrival Int, a.now = now ∧ pinOf a = pin ∧
      packetIdCheck now p pin = packetIdReceive p a := by
  refine ⟨⟨now, decide (p.lastReap + SEQ_REAP_INTERVAL ≤ now), pin.time, pin.id⟩, rfl, rfl, ?_⟩
  simp [packetIdCheck, packetIdReapTest, packetIdReceive, pinOf]

theorem RecvOk.check {p : PacketIdRec} (h : RecvOk p) (now : Int) (pin : PacketIdNet) :
    ∃ p' ok, packetIdCheck now p pin = some (p', ok) ∧ RecvOk p' := by
  obtain ⟨a, -, -, heq⟩ := packetIdCheck_eq now p pin
  rw [heq]
  exact h.receive a

theorem RecvOk.check_some {p p' : PacketIdRec} (h : RecvOk p) {now : Int} {pin : PacketIdNet}
    {ok : Bool} (hstep : packetIdCheck now p pin = some (p', ok)) : RecvOk p' := by
  obtain ⟨p'', ok', hstep', hok⟩ := h.check now pin
  cases hstep.symm.trans hstep'
  exact hok

theorem packetIdReadEpoch_lt (wireId : Nat) : (packetIdReadEpoch wireId).1 < 65536 :=
  Nat.mod_lt _ (by decide)

section Inversion

variable {hmacSha256 : Bytes → Bytes → Bytes} {co co' : CryptoOptions}

theorem epochKeyIterateN_epoch (hmacSha256 : Bytes → Bytes → Bytes) (n : Nat) (key : EpochKey)
    (h : key.epoch + n ≤ UINT16_MAX) :
    (epochKeyIterateN hmacSha256 n key).epoch = key.epoch + n := by
  induction n generalizing key with
  | zero => rfl
  | succ n ih =>
    have hnext : (epochKeyIterate hmacSha256 key).epoch = key.epoch + 1 := by
      unfold UINT16_MAX at h
      exact Nat.mod_eq_of_lt (by omega)
    rw [epochKeyIterateN, ih _ (by omega), hnext]
    omega

theorem epochInitSendKeyCtx_eq_some :
    epochInitSendKeyCtx hmacSha256 co = some co' ↔
      co.encrypt.epoch ≠ co.epochKeySend.epoch ∧ co' = { co with
        encrypt := initKeyBiCtx (epochDataKeyDerive hmacSha256 co.epochKeySend co.epochKeyType)
        packetId := { co.packetId with send := resetPacketIdSend } } := by
  unfold epochInitSendKeyCtx
  split
  · rename_i h
    simp [h]
  · rename_i h
    simp [h, eq_comm]

theorem refillFutureKeys_frame {n : Nat} (h : refillFutureKeys hmacSha256 co n = some co') :
    ∃ future recv, co' = { co with epochDataKeysFuture := future, epochKeyRecv := recv } := by
  unfold refillFutureKeys at h
  simp only [ite_none_left_eq_some, ite_none_right_eq_some, some.injEq] at h
  exact ⟨_, _, h.2.2.symm⟩

theorem epochGenerateFutureReceiveKeys_frame
    (h : epochGenerateFutureReceiveKeys hmacSha256 co = some co') : ∃ future recv,
      co' = { co with epochDataKeysFuture := future, epochKeyRecv := recv } := by
  unfold epochGenerateFutureReceiveKeys at h
  split at h
  · cases h
  · simp only [ite_none_left_eq_some, ite_none_right_eq_some] at h
    exact refillFutureKeys_frame h.2.2

theorem epochPullSendKey_frame {newEpoch : Nat}
    (h : epochPullSendKey hmacSha256 co newEpoch = some co') : ∃ encrypt key send, co' = { co with
        encrypt := encrypt, epochKeySend := key
        packetId := { co.packetId with send := send } } := by
  unfold epochPullSendKey at h
  split at h
  · obtain ⟨-, rfl⟩ := epochInitSendKeyCtx_eq_some.mp h
    exact ⟨_, _, _, rfl⟩
  · cases h
    exact ⟨_, _, _, rfl⟩

/-- What an iteration of the send key preserves, the check for one preserves. -/
theorem epochCheckSendIterate_induct {I : CryptoOptions → Prop}
    (hiter : ∀ co co', I co → epochIterateSendKey hmacSha256 co = some co' → I co') (h : I co)
    (hstep : epochCheckSendIterate hmacSha256 co = some co') : I co' := by
  unfold epochCheckSendIterate at hstep
  split at hstep
  · cases hstep
    exact h
  obtain ⟨co1, husage, hmax⟩ := bind_eq_some_iff.mp hstep
  have h1 : I co1 := by
    split_ifs at husage
    case pos | pos => exact hiter _ _ h husage
    all_goals
      cases husage
      exact h
  split at hmax
  · exact hiter _ _ h1 hmax
  · cases hmax
    exact h1

/-- **A move to a new receive key.** The key comes from the ring, the current
key and its window retire, and the new key starts with a fresh window. -/
theorem epochReplaceUpdateRecvKey_cases {newEpoch : Nat}
    (h : epochReplaceUpdateRecvKey hmacSha256 co newEpoch = some co') :
    ∃ newCtx co1 fresh future recv, newCtx.epoch = newEpoch ∧
      epochPullSendKey hmacSha256 co newEpoch = some co1 ∧
      packetIdMoveRecv co.packetId.recv = some (co.packetId.recv, fresh) ∧
      co' = { co1.withRecv fresh with
        epochRetiringDataReceiveKey := co.decrypt
        epochRetiringKeyPidRecv := co.packetId.recv
        decrypt := newCtx
        epochDataKeysFuture := future
        epochKeyRecv := recv } := by
  simp only [epochReplaceUpdateRecvKey, bind_eq_bind, bind_eq_some_iff] at h
  obtain ⟨newCtx, hctx, co1, hpull, ⟨retiring, fresh⟩, hmove, hgen⟩ := h
  obtain ⟨encrypt, key, send, rfl⟩ := epochPullSendKey_frame hpull
  obtain ⟨future, recv, rfl⟩ := epochGenerateFutureReceiveKeys_frame hgen
  obtain ⟨hlt, hget⟩ := List.getElem?_eq_some_iff.mp hctx
  have hep : newCtx.epoch = newEpoch := by
    have := List.findIdx_getElem (w := hlt)
    rw [hget] at this
    simpa using this
  have hret : retiring = co.packetId.recv := by
    unfold packetIdMoveRecv at hmove
    split at hmove
    · cases hmove
    · cases hmove
      rfl
  subst hret
  exact ⟨newCtx, _, fresh, future, recv, hep, hpull, hmove, rfl⟩

theorem epochInitKeyCtx_cases {kt : KeyType} {e1Send e1Recv : EpochKey} {count : Nat}
    {pid : PacketId}
    (h : epochInitKeyCtx hmacSha256 (.fresh pid) kt e1Send e1Recv count = some co) :
    e1Send.epoch = 1 ∧ e1Recv.epoch = 1 ∧ ∃ future recv, co =
      { CryptoOptions.fresh { pid with send := resetPacketIdSend } with
        encrypt := initKeyBiCtx (epochDataKeyDerive hmacSha256 e1Send kt)
        decrypt := epochInitRecvKey hmacSha256 kt e1Recv
        initialized := true
        epochKeySend := e1Send
        epochKeyRecv := recv
        epochKeyType := kt
        aeadUsageLimit := cipherGetAeadLimits kt
        epochDataKeysFuture := future } := by
  unfold epochInitKeyCtx at h
  simp only [ite_none_left_eq_some, bind_eq_bind, bind_eq_some_iff, Decidable.not_not] at h
  obtain ⟨⟨hs, hr⟩, co1, hsend, hgen⟩ := h
  obtain ⟨-, rfl⟩ := epochInitSendKeyCtx_eq_some.mp hsend
  obtain ⟨future, recv, rfl⟩ := epochGenerateFutureReceiveKeys_frame hgen
  exact ⟨hs, hr, future, recv, rfl⟩

theorem epochLookupDecryptKey_epoch {epoch : Nat} {slot : KeySlot}
    (h : epochLookupDecryptKey co epoch = some slot) :
    co.decrypt.epoch = epoch ∨ co.epochRetiringDataReceiveKey.epoch = epoch ∨
      co.decrypt.epoch < epoch ∧ epoch ≤ co.decrypt.epoch + co.epochDataKeysFuture.length ∧
      epoch + co.epochDataKeysFuture.length < UINT16_MAX := by
  unfold epochLookupDecryptKey at h
  split at h
  · exact .inl ‹_›
  · split at h
    · rename_i hr
      exact .inr (.inl hr.2)
    · split at h
      · rename_i hf
        split at h
        · cases h
        · exact .inr (.inr ⟨hf.1, hf.2, by omega⟩)
      · cases h

/-- The window that decides is that of the current, the retiring or a later key. -/
theorem cryptoCheckReplay_cases {now : Int} {pin : PacketIdNet} {epoch : Nat} {ok : Bool}
    (h0 : epoch ≠ 0) (h : cryptoCheckReplay hmacSha256 now co pin epoch = some (co', ok)) :
    (co.decrypt.epoch = epoch ∧ ∃ p,
      packetIdCheck now co.packetId.recv pin = some (p, ok) ∧ co' = co.withRecv p) ∨
    (co.decrypt.epoch ≠ epoch ∧ co.epochRetiringDataReceiveKey.epoch = epoch ∧ ∃ p,
      packetIdCheck now co.epochRetiringKeyPidRecv pin = some (p, ok) ∧
      co' = { co with epochRetiringKeyPidRecv := p }) ∨
    (co.decrypt.epoch ≠ epoch ∧ co.epochRetiringDataReceiveKey.epoch ≠ epoch ∧ ∃ co1 p,
      epochReplaceUpdateRecvKey hmacSha256 co epoch = some co1 ∧
      packetIdCheck now co1.packetId.recv pin = some (p, ok) ∧ co' = co1.withRecv p) := by
  unfold cryptoCheckReplay cryptoCheckReplay.onCurrent at h
  by_cases hcur : co.decrypt.epoch = epoch
  · rw [if_pos (.inr hcur), map_eq_some_iff] at h
    obtain ⟨⟨p, ok'⟩, hp, heq⟩ := h
    cases heq
    exact .inl ⟨hcur, p, hp, rfl⟩
  rw [if_neg (fun h => h.elim h0 hcur)] at h
  by_cases hret : epoch = co.epochRetiringDataReceiveKey.epoch
  · rw [if_pos hret, map_eq_some_iff] at h
    obtain ⟨⟨p, ok'⟩, hp, heq⟩ := h
    cases heq
    exact .inr (.inl ⟨hcur, hret.symm, p, hp, rfl⟩)
  · rw [if_neg hret, bind_eq_some_iff] at h
    obtain ⟨co1, hrep, h⟩ := h
    obtain ⟨⟨p, ok'⟩, hp, heq⟩ := map_eq_some_iff.mp h
    cases heq
    exact .inr (.inr ⟨hcur, fun h => hret h.symm, co1, p, hrep, hp, rfl⟩)

theorem openvpnDecryptAead_cases {now : Int} {pkt : DataPacket} {ok : Bool}
    (h : openvpnDecryptAead hmacSha256 now co pkt = some (co', ok)) :
    (ok = false ∧ (co' = co ∨ ∃ slot, co' = co.countFailure slot)) ∨
    ((packetIdReadEpoch pkt.wireId).1 ≠ 0 ∧ ∃ slot co1,
      epochLookupDecryptKey co (packetIdReadEpoch pkt.wireId).1 = some slot ∧
      cryptoCheckReplay hmacSha256 now co (packetIdReadEpoch pkt.wireId).2
        (packetIdReadEpoch pkt.wireId).1 = some (co1, ok) ∧
      co' = if ok then { co1 with decrypt := co1.decrypt.addBlocks pkt.outlen } else co1) := by
  unfold openvpnDecryptAead at h
  simp only at h
  split at h
  · cases h
    exact .inl ⟨rfl, .inl rfl⟩
  rename_i h0
  split at h
  · cases h
    exact .inl ⟨rfl, .inl rfl⟩
  rename_i slot hslot
  split at h
  · cases h
  split at h
  · cases h
    exact .inl ⟨rfl, .inl rfl⟩
  split at h
  · cases h
    exact .inl ⟨rfl, .inr ⟨slot, rfl⟩⟩
  split at h
  · cases h
  · rename_i hchk
    cases h
    exact .inr ⟨h0, slot, _, hslot, hchk, rfl⟩
  · rename_i co1 hchk
    cases h
    exact .inr ⟨h0, slot, co1, hslot, hchk, rfl⟩

end Inversion

end OpenVpn
