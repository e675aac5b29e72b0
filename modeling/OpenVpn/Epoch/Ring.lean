import OpenVpn.Epoch.Replay

/-!
# The ring of epoch receive keys

`RingOk` is the invariant of the receive keys: consecutive epochs from the
current key to the newest generated one, each key derived from the iteration of
the initial secret for its epoch, and the ratchet state at the newest epoch.

A move to an epoch inside the ring restores it (`RingOk.replace`). A move to the
*newest* generated epoch does not get that far: `epoch_replace_update_recv_key`
zeroes the promoted slot before `epoch_generate_future_receive_keys` compares
the last slot with the ratchet state, and the assertion fails
(`RingOk.replace_newest`). Two ends have the same keys (`epoch_ends_agree`).
-/

namespace OpenVpn

open Base List

section Keys

variable (hmacSha256 : Bytes → Bytes → Bytes)

/-- The secret of epoch `n`: the initial one, iterated. -/
def epochKeyAt (e1 : EpochKey) (n : Nat) : EpochKey := epochKeyIterateN hmacSha256 (n - 1) e1

/-- `ctx` is the data key of epoch `n`, apart from its usage counters. -/
structure IsKeyOf (kt : KeyType) (e1 : EpochKey) (n : Nat) (ctx : KeyCtx) : Prop where
  epoch : ctx.epoch = n
  cipher : ctx.cipher = (epochInitRecvKey hmacSha256 kt (epochKeyAt hmacSha256 e1 n)).cipher
  implicitIv :
    ctx.implicitIv = (epochInitRecvKey hmacSha256 kt (epochKeyAt hmacSha256 e1 n)).implicitIv

variable {hmacSha256} {kt : KeyType} {e1 : EpochKey}

theorem epochKeyIterateN_succ (n : Nat) (key : EpochKey) :
    epochKeyIterateN hmacSha256 (n + 1) key =
      epochKeyIterate hmacSha256 (epochKeyIterateN hmacSha256 n key) := by
  induction n generalizing key with
  | zero => rfl
  | succ n ih => exact ih _

theorem epochKeyIterateN_add (m n : Nat) (key : EpochKey) :
    epochKeyIterateN hmacSha256 m (epochKeyIterateN hmacSha256 n key) =
      epochKeyIterateN hmacSha256 (n + m) key := by
  induction m with
  | zero => rfl
  | succ m ih => rw [epochKeyIterateN_succ, ih, ← Nat.add_assoc, epochKeyIterateN_succ]

variable {n : Nat}

theorem epochKeyAt_epoch (he1 : e1.epoch = 1) (h1 : 1 ≤ n) (hn : n ≤ UINT16_MAX) :
    (epochKeyAt hmacSha256 e1 n).epoch = n := by
  rw [epochKeyAt, epochKeyIterateN_epoch _ _ _ (by omega), he1]
  omega

theorem epochKeyIterate_epochKeyAt (h1 : 1 ≤ n) :
    epochKeyIterate hmacSha256 (epochKeyAt hmacSha256 e1 n) = epochKeyAt hmacSha256 e1 (n + 1) := by
  unfold epochKeyAt
  rw [← epochKeyIterateN_succ]
  congr 1
  omega

theorem isKeyOf_initRecvKey (he1 : e1.epoch = 1) (h1 : 1 ≤ n) (hn : n ≤ UINT16_MAX) :
    IsKeyOf hmacSha256 kt e1 n
      (epochInitRecvKey hmacSha256 kt (epochKeyAt hmacSha256 e1 n)) :=
  ⟨epochKeyAt_epoch he1 h1 hn, rfl, rfl⟩

/-! ## Generating keys -/

theorem generateRecvKeys_eq (hmacSha256 : Bytes → Bytes → Bytes) (kt : KeyType) (e1 : EpochKey)
    (m : Nat) (h1 : 1 ≤ n) :
    generateRecvKeys hmacSha256 kt m (epochKeyAt hmacSha256 e1 n) =
      ((List.range m).map fun i =>
        epochInitRecvKey hmacSha256 kt (epochKeyAt hmacSha256 e1 (n + 1 + i)),
       epochKeyAt hmacSha256 e1 (n + m)) := by
  induction m generalizing n with
  | zero => rfl
  | succ m ih =>
    rw [generateRecvKeys, epochKeyIterate_epochKeyAt h1]
    simp only [ih (Nat.le_succ_of_le h1)]
    rw [range_succ_eq_map, map_cons, map_map]
    congr 2
    · apply map_congr_left
      intro i _
      simp only [Function.comp_apply]
      congr 2
      omega
    · omega

theorem generateRecvKeys_epoch (hmacSha256 : Bytes → Bytes → Bytes) (kt : KeyType) (m : Nat)
    (key : EpochKey) (i : Nat) (hi : i < m) :
    ∃ ctx, (generateRecvKeys hmacSha256 kt m key).1[i]? = some ctx ∧
      ctx.epoch = (key.epoch + 1 + i) % 65536 := by
  induction m generalizing key i with
  | zero => omega
  | succ m ih =>
    cases i with
    | zero => exact ⟨_, rfl, rfl⟩
    | succ i =>
      obtain ⟨ctx, hctx, hep⟩ := ih (epochKeyIterate hmacSha256 key) i (by omega)
      refine ⟨ctx, hctx, hep.trans ?_⟩
      show ((key.epoch + 1) % 65536 + 1 + i) % 65536 = _
      omega

variable {co : CryptoOptions}

theorem IsKeyOf.freeOldKey {current : Nat} {ctx : KeyCtx} (h : IsKeyOf hmacSha256 kt e1 n ctx)
    (hlt : current ≤ n) : freeOldKey current ctx = ctx := by
  unfold OpenVpn.freeOldKey
  rw [if_neg]
  rw [h.epoch]
  omega

/-- **Refilling the ring.** With `n` freed slots in front and the others holding
the keys of the epochs after the current one, the refilled ring holds the keys
of all `count` epochs after it. -/
theorem refillFutureKeys_eq (co : CryptoOptions) {count : Nat} (n top : Nat) (he1 : e1.epoch = 1)
    (hkt : co.epochKeyType = kt) (hlen : co.epochDataKeysFuture.length = count)
    (hn : n ≤ count) (htop : 1 ≤ top) (hsum : top + n = co.decrypt.epoch + count)
    (hmax : co.decrypt.epoch + count ≤ UINT16_MAX)
    (hrecv : co.epochKeyRecv = epochKeyAt hmacSha256 e1 top)
    (hfree : ∀ i < n, ∀ ctx, co.epochDataKeysFuture[i]? = some ctx →
      (freeOldKey co.decrypt.epoch ctx).epoch = 0)
    (hkeep : ∀ i, n + i < count → ∃ ctx, co.epochDataKeysFuture[n + i]? = some ctx ∧
      IsKeyOf hmacSha256 kt e1 (co.decrypt.epoch + 1 + i) ctx) :
    ∃ future, refillFutureKeys hmacSha256 co n = some { co with
        epochDataKeysFuture := future
        epochKeyRecv := epochKeyAt hmacSha256 e1 (co.decrypt.epoch + count) } ∧
      future.length = count ∧ ∀ i < count, ∃ ctx, future[i]? = some ctx ∧
        IsKeyOf hmacSha256 kt e1 (co.decrypt.epoch + 1 + i) ctx := by
  have hgen := generateRecvKeys_eq hmacSha256 kt e1 n htop
  rw [hsum] at hgen
  have hkeys : ∀ i < count, ∃ ctx,
      ((co.epochDataKeysFuture.map (freeOldKey co.decrypt.epoch)).drop n ++
        (List.range n).map fun i => epochInitRecvKey hmacSha256 kt
          (epochKeyAt hmacSha256 e1 (top + 1 + i)))[i]? = some ctx ∧
      IsKeyOf hmacSha256 kt e1 (co.decrypt.epoch + 1 + i) ctx := by
    intro i hi
    by_cases hi' : n + i < count
    · obtain ⟨ctx, hctx, hkey⟩ := hkeep i hi'
      refine ⟨ctx, ?_, hkey⟩
      rw [getElem?_append_left (by rw [length_drop, length_map]; omega),
        getElem?_drop, getElem?_map, hctx, Option.map_some,
        hkey.freeOldKey (by omega)]
    · rw [getElem?_append_right (by rw [length_drop, length_map]; omega),
        length_drop, length_map, hlen, getElem?_map,
        getElem?_range (by omega)]
      refine ⟨_, rfl, ?_⟩
      beta_reduce
      rw [show top + 1 + (i - (count - n)) = co.decrypt.epoch + 1 + i by omega]
      exact isKeyOf_initRecvKey he1 (by omega) (by omega)
  refine ⟨_, ?_, ?_, hkeys⟩
  · unfold refillFutureKeys
    simp only
    rw [if_neg, hkt, hrecv, hgen]
    · simp only
      rw [if_pos]
      rw [all_eq_true]
      intro ctx hmem
      obtain ⟨i, hi⟩ := getElem?_of_mem hmem
      have hlt := (List.getElem?_eq_some_iff.mp hi).1
      rw [length_append, length_drop, length_map, length_map, length_range, hlen] at hlt
      obtain ⟨ctx', hctx', hkey⟩ := hkeys i (by omega)
      cases hi.symm.trans hctx'
      rw [hkey.epoch, decide_eq_true_eq]
      omega
    · rintro (hlt | hnot)
      · rw [length_map] at hlt
        omega
      · apply hnot
        rw [all_eq_true]
        intro ctx hmem
        obtain ⟨i, hi⟩ := getElem?_of_mem hmem
        rw [getElem?_take] at hi
        split at hi
        · rename_i hin
          rw [getElem?_map] at hi
          obtain ⟨ctx0, hctx0, rfl⟩ := Option.map_eq_some_iff.mp hi
          exact decide_eq_true (hfree i hin ctx0 hctx0)
        · cases hi
  · rw [length_append, length_drop, length_map, length_map, length_range, hlen]
    omega

theorem epochGenerateFutureReceiveKeys_eq {highest : KeyCtx} (hinit : co.initialized = true)
    (hhigh : co.epochDataKeysFuture[co.epochDataKeysFuture.length - 1]? = some highest) :
    epochGenerateFutureReceiveKeys hmacSha256 co =
      if co.epochKeyRecv.epoch = 1 ∨ highest.epoch = co.epochKeyRecv.epoch then
        refillFutureKeys hmacSha256 co (numKeysGenerate co.decrypt.epoch
          co.epochDataKeysFuture.length (freeOldKey co.decrypt.epoch highest).epoch)
      else none := by
  unfold epochGenerateFutureReceiveKeys
  rw [getLast?_eq_getElem?, hhigh]
  simp [hinit]

end Keys

/-! ## The invariant -/

/-- **The invariant of the receive keys**, for initial secrets `e1Send`,
`e1Recv` and a ring of `count` keys. -/
structure RingOk (hmacSha256 : Bytes → Bytes → Bytes) (kt : KeyType)
    (e1Send e1Recv : EpochKey) (count : Nat) (co : CryptoOptions) : Prop where
  initialized : co.initialized = true
  keyType : co.epochKeyType = kt
  length : co.epochDataKeysFuture.length = count
  current_pos : 1 ≤ co.decrypt.epoch
  newest_le : co.decrypt.epoch + count ≤ UINT16_MAX
  current : IsKeyOf hmacSha256 kt e1Recv co.decrypt.epoch co.decrypt
  future : ∀ i < count, ∃ ctx, co.epochDataKeysFuture[i]? = some ctx ∧
    IsKeyOf hmacSha256 kt e1Recv (co.decrypt.epoch + 1 + i) ctx
  recvSecret : co.epochKeyRecv = epochKeyAt hmacSha256 e1Recv (co.decrypt.epoch + count)
  retiring : co.epochRetiringDataReceiveKey.epoch ≠ 0 →
    co.epochRetiringDataReceiveKey.epoch < co.decrypt.epoch ∧
    IsKeyOf hmacSha256 kt e1Recv co.epochRetiringDataReceiveKey.epoch
      co.epochRetiringDataReceiveKey ∧
    RecvOk co.epochRetiringKeyPidRecv
  send_pos : 1 ≤ co.encrypt.epoch
  send_le : co.encrypt.epoch ≤ UINT16_MAX
  send : IsKeyOf hmacSha256 kt e1Send co.encrypt.epoch co.encrypt
  sendSecret : co.epochKeySend = epochKeyAt hmacSha256 e1Send co.encrypt.epoch
  recv : RecvOk co.packetId.recv

/-- The state `epoch_replace_update_recv_key` hands to the generation of keys:
the key of `epoch` is the current one, its slot is zeroed, the former current
key retires with its window. -/
structure Promoted (hmacSha256 : Bytes → Bytes → Bytes) (kt : KeyType)
    (e1Send e1Recv : EpochKey) (co : CryptoOptions) (epoch : Nat) (co₁ : CryptoOptions) :
    Prop where
  initialized : co₁.initialized = true
  keyType : co₁.epochKeyType = kt
  future : co₁.epochDataKeysFuture =
    co.epochDataKeysFuture.set (epoch - co.decrypt.epoch - 1) KeyCtx.cleared
  recvSecret : co₁.epochKeyRecv = co.epochKeyRecv
  current : IsKeyOf hmacSha256 kt e1Recv epoch co₁.decrypt
  retiring : co₁.epochRetiringDataReceiveKey = co.decrypt ∧
    co₁.epochRetiringKeyPidRecv = co.packetId.recv
  send_pos : 1 ≤ co₁.encrypt.epoch
  send_le : co₁.encrypt.epoch ≤ UINT16_MAX
  send : IsKeyOf hmacSha256 kt e1Send co₁.encrypt.epoch co₁.encrypt
  sendSecret : co₁.epochKeySend = epochKeyAt hmacSha256 e1Send co₁.encrypt.epoch
  recv : RecvOk co₁.packetId.recv

section Invariant

variable {hmacSha256 : Bytes → Bytes → Bytes} {kt : KeyType} {e1Send e1Recv : EpochKey}
  {count : Nat} {co : CryptoOptions}

variable {epoch : Nat}

section

variable (h : RingOk hmacSha256 kt e1Send e1Recv count co)

include h

theorem RingOk.lookup_exact {slot : KeySlot} (hslot : epochLookupDecryptKey co epoch = some slot) :
    ∃ ctx, co.keyAt slot = some ctx ∧ IsKeyOf hmacSha256 kt e1Recv epoch ctx := by
  unfold epochLookupDecryptKey at hslot
  split at hslot
  · rename_i hcur
    cases hslot
    exact ⟨_, rfl, hcur ▸ h.current⟩
  · split at hslot
    · rename_i hret
      cases hslot
      exact ⟨_, rfl, hret.2 ▸ (h.retiring hret.1).2.1⟩
    · split at hslot
      · rename_i hfut
        split at hslot
        · cases hslot
        · cases hslot
          rw [h.length] at hfut
          obtain ⟨ctx, hctx, hkey⟩ := h.future (epoch - (co.decrypt.epoch + 1)) (by omega)
          refine ⟨ctx, hctx, ?_⟩
          rwa [show co.decrypt.epoch + 1 + (epoch - (co.decrypt.epoch + 1)) = epoch by omega]
            at hkey
      · cases hslot

theorem RingOk.findIdx_eq (hlt : co.decrypt.epoch < epoch)
    (hle : epoch ≤ co.decrypt.epoch + count) :
    co.epochDataKeysFuture.findIdx (fun ctx => ctx.epoch = epoch) =
      epoch - co.decrypt.epoch - 1 := by
  have hlen := h.length
  have hget : ∀ i (hi : i < co.epochDataKeysFuture.length),
      co.epochDataKeysFuture[i].epoch = co.decrypt.epoch + 1 + i := by
    intro i hi
    obtain ⟨ctx, hctx, hkey⟩ := h.future i (by omega)
    rw [(List.getElem?_eq_some_iff.mp hctx).2]
    exact hkey.epoch
  rw [List.findIdx_eq (by omega)]
  refine ⟨?_, fun j hj => ?_⟩
  · rw [hget, decide_eq_true_eq]
    omega
  · rw [hget, decide_eq_false_iff_not]
    omega

theorem RingOk.withRecv {p : PacketIdRec} (hp : RecvOk p) :
    RingOk hmacSha256 kt e1Send e1Recv count (co.withRecv p) :=
  { h with recv := hp }

theorem RingOk.withBlocks (outlen : Nat) :
    RingOk hmacSha256 kt e1Send e1Recv count
      { co with decrypt := co.decrypt.addBlocks outlen } :=
  { h with current := ⟨h.current.epoch, h.current.cipher, h.current.implicitIv⟩ }

theorem RingOk.countFailure (slot : KeySlot) :
    RingOk hmacSha256 kt e1Send e1Recv count (co.countFailure slot) := by
  cases slot with
  | current =>
    exact { h with current := ⟨h.current.epoch, h.current.cipher, h.current.implicitIv⟩ }
  | retiring =>
    exact { h with retiring := fun h0 =>
      have ⟨hlt, hkey, hrecv⟩ := h.retiring h0
      ⟨hlt, ⟨hkey.epoch, hkey.cipher, hkey.implicitIv⟩, hrecv⟩ }
  | future i =>
    refine { h with length := (length_modify ..).trans h.length, future := ?_ }
    intro j hj
    obtain ⟨ctx, hctx, hkey⟩ := h.future j hj
    simp only [CryptoOptions.countFailure, getElem?_modify, hctx]
    split
    · exact ⟨_, rfl, hkey.epoch, hkey.cipher, hkey.implicitIv⟩
    · exact ⟨_, rfl, hkey⟩

theorem RingOk.promoted_freed
    {co1 : CryptoOptions} (hp : Promoted hmacSha256 kt e1Send e1Recv co epoch co1)
    (hlt : co.decrypt.epoch < epoch) {i : Nat} (hi : i < epoch - co.decrypt.epoch ∧ i < count)
    {ctx : KeyCtx} (hctx : co1.epochDataKeysFuture[i]? = some ctx) :
    (freeOldKey co1.decrypt.epoch ctx).epoch = 0 := by
  rw [hp.future] at hctx
  by_cases hi' : epoch - co.decrypt.epoch - 1 = i
  · rw [hi', getElem?_set_self (by rw [h.length]; exact hi.2)] at hctx
    cases hctx
    rfl
  · rw [getElem?_set_ne hi'] at hctx
    obtain ⟨ctx', hctx', hkey⟩ := h.future i hi.2
    cases hctx.symm.trans hctx'
    have := hkey.epoch
    have := hp.current.epoch
    rw [freeOldKey, if_pos (by omega)]
    rfl

variable (hs : e1Send.epoch = 1)

include hs

/-- The send key that is pulled is the one of its epoch. -/
theorem RingOk.pull (epoch : Nat) (hle : epoch ≤ UINT16_MAX) :
    ∃ encrypt key send, epochPullSendKey hmacSha256 co epoch = some { co with
        encrypt := encrypt, epochKeySend := key
        packetId := { co.packetId with send := send } } ∧
      key = epochKeyAt hmacSha256 e1Send encrypt.epoch ∧
      IsKeyOf hmacSha256 kt e1Send encrypt.epoch encrypt ∧
      1 ≤ encrypt.epoch ∧ encrypt.epoch ≤ UINT16_MAX := by
  unfold epochPullSendKey
  split
  · rename_i hlt
    have hpos := h.send_pos
    have hiter : epochKeyIterateN hmacSha256 (epoch - co.epochKeySend.epoch) co.epochKeySend =
        epochKeyAt hmacSha256 e1Send epoch := by
      rw [h.sendSecret, epochKeyAt_epoch hs hpos h.send_le, epochKeyAt, epochKeyAt,
        epochKeyIterateN_add]
      congr 1
      omega
    have hkey : IsKeyOf hmacSha256 kt e1Send epoch
        (epochInitRecvKey hmacSha256 kt (epochKeyAt hmacSha256 e1Send epoch)) :=
      isKeyOf_initRecvKey hs (by omega) hle
    rw [hiter]
    refine ⟨epochInitRecvKey hmacSha256 kt (epochKeyAt hmacSha256 e1Send epoch),
      epochKeyAt hmacSha256 e1Send epoch, resetPacketIdSend,
      epochInitSendKeyCtx_eq_some.mpr ⟨?_, ?_⟩, ?_⟩
    · show 0 ≠ (epochInitRecvKey hmacSha256 kt (epochKeyAt hmacSha256 e1Send epoch)).epoch
      rw [hkey.epoch]
      omega
    · rw [← h.keyType]
      rfl
    · rw [hkey.epoch]
      exact ⟨rfl, hkey, by omega, hle⟩
  · exact ⟨co.encrypt, co.epochKeySend, co.packetId.send, rfl, h.sendSecret, h.send,
      h.send_pos, h.send_le⟩

/-- **A move, up to the generation of keys**: the promoted slot is zeroed, the
ratchet state is still that of the newest epoch. -/
theorem RingOk.promote (epoch : Nat) (hlt : co.decrypt.epoch < epoch)
    (hle : epoch ≤ co.decrypt.epoch + count) :
    ∃ co1, epochReplaceUpdateRecvKey hmacSha256 co epoch =
        epochGenerateFutureReceiveKeys hmacSha256 co1 ∧
      Promoted hmacSha256 kt e1Send e1Recv co epoch co1 := by
  have hmax := h.newest_le
  obtain ⟨encrypt, key, send, hpull, hkey, henc, h1, hmaxs⟩ :=
    h.pull hs epoch (by omega)
  obtain ⟨fresh, hmove, hfr⟩ := h.recv.move
  obtain ⟨newCtx, hctx, hnew⟩ := h.future (epoch - co.decrypt.epoch - 1) (by omega)
  rw [show co.decrypt.epoch + 1 + (epoch - co.decrypt.epoch - 1) = epoch by omega] at hnew
  simp only [epochReplaceUpdateRecvKey, h.findIdx_eq hlt hle, hctx, hpull, hmove,
    Option.bind_eq_bind, Option.bind_some]
  exact ⟨_, rfl, h.initialized, h.keyType, rfl, rfl, hnew, ⟨rfl, rfl⟩, h1, hmaxs, henc, hkey,
    hfr⟩

variable (hr : e1Recv.epoch = 1)

include hr

/-- **A move inside the ring.** The ring is restored around the new key. -/
theorem RingOk.replace (hlt : co.decrypt.epoch < epoch)
    (hnew : epoch < co.decrypt.epoch + count) (hedge : epoch + count ≤ UINT16_MAX) :
    ∃ co', epochReplaceUpdateRecvKey hmacSha256 co epoch = some co' ∧
      RingOk hmacSha256 kt e1Send e1Recv count co' := by
  obtain ⟨co1, hrep, hp⟩ := h.promote hs epoch hlt (Nat.le_of_lt hnew)
  have hmax := h.newest_le
  have hpos := h.current_pos
  have hep := hp.current.epoch
  have hlen : co1.epochDataKeysFuture.length = count := by
    rw [hp.future, length_set, h.length]
  -- the last slot is untouched and at the epoch of the ratchet state
  obtain ⟨highest, hhigh, hhighKey⟩ := h.future (count - 1) (by omega)
  have hhighE : highest.epoch = co.decrypt.epoch + count := by
    rw [hhighKey.epoch]
    omega
  have hlast : co1.epochDataKeysFuture[co1.epochDataKeysFuture.length - 1]? = some highest := by
    rw [hlen, hp.future, getElem?_set_ne (by omega), hhigh]
  have hrecvE : co1.epochKeyRecv.epoch = co.decrypt.epoch + count := by
    rw [hp.recvSecret, h.recvSecret, epochKeyAt_epoch hr (by omega) hmax]
  -- as many keys are generated as the epoch moved
  have hnum : numKeysGenerate co1.decrypt.epoch count
      (freeOldKey co1.decrypt.epoch highest).epoch = epoch - co.decrypt.epoch := by
    rw [hhighKey.freeOldKey (by omega), hhighE, hep, numKeysGenerate]
    unfold UINT16_MAX at hedge hmax
    rw [if_pos (by omega)]
    omega
  rw [epochGenerateFutureReceiveKeys_eq hp.initialized hlast,
    if_pos (.inr (hhighE.trans hrecvE.symm)), hlen, hnum] at hrep
  obtain ⟨future, hrefill, hflen, hfkeys⟩ := refillFutureKeys_eq co1
    (epoch - co.decrypt.epoch) (co.decrypt.epoch + count) hr hp.keyType hlen (by omega)
    (by omega) (by omega) (by omega) (hp.recvSecret.trans h.recvSecret)
    (fun i hi ctx hctx => h.promoted_freed hp hlt (by omega) hctx) (fun i hi => by
      obtain ⟨ctx, hctx, hkey⟩ := h.future (epoch - co.decrypt.epoch + i) hi
      refine ⟨ctx, by rw [hp.future, getElem?_set_ne (by omega), hctx], ?_⟩
      rwa [show co.decrypt.epoch + 1 + (epoch - co.decrypt.epoch + i) =
        co1.decrypt.epoch + 1 + i by omega] at hkey)
  refine ⟨_, hrep.trans hrefill, ?_⟩
  exact
    { initialized := hp.initialized
      keyType := hp.keyType
      length := hflen
      current_pos := by simp only; omega
      newest_le := by simp only; omega
      current := by simp only [hep]; exact hp.current
      future := hfkeys
      recvSecret := rfl
      retiring := fun _ => by
        simp only [hp.retiring.1, hp.retiring.2]
        exact ⟨by omega, h.current, h.recv⟩
      send_pos := hp.send_pos
      send_le := hp.send_le
      send := hp.send
      sendSecret := hp.sendSecret
      recv := hp.recv }

/-- **A move to the newest generated key fails**: its slot is zeroed before the
last slot is compared with the ratchet state. -/
theorem RingOk.replace_newest (hcnt : 1 ≤ count) :
    epochReplaceUpdateRecvKey hmacSha256 co (co.decrypt.epoch + count) = none := by
  obtain ⟨co1, hrep, hp⟩ := h.promote hs (co.decrypt.epoch + count) (by omega)
    (Nat.le_refl _)
  have hpos := h.current_pos
  have hlen : co1.epochDataKeysFuture.length = count := by
    rw [hp.future, length_set, h.length]
  have hlast : co1.epochDataKeysFuture[co1.epochDataKeysFuture.length - 1]? =
      some KeyCtx.cleared := by
    rw [hlen, hp.future, show co.decrypt.epoch + count - co.decrypt.epoch - 1 = count - 1
      by omega, getElem?_set_self (by rw [h.length]; omega)]
  have hrecvE : co1.epochKeyRecv.epoch = co.decrypt.epoch + count := by
    rw [hp.recvSecret, h.recvSecret, epochKeyAt_epoch hr (by omega) h.newest_le]
  rw [hrep, epochGenerateFutureReceiveKeys_eq hp.initialized hlast]
  refine if_neg ?_
  show ¬ (co1.epochKeyRecv.epoch = 1 ∨ 0 = co1.epochKeyRecv.epoch)
  omega

end

/-! ## One received packet -/

/-- The packet is decrypted with a key found for its epoch, and verifies. -/
def Authenticated (co : CryptoOptions) (r : Received) : Prop :=
  r.epochId.1 ≠ 0 ∧ r.pkt.authentic = true ∧ ∃ slot ctx,
    epochLookupDecryptKey co r.epochId.1 = some slot ∧ co.keyAt slot = some ctx ∧
    cipherDecryptVerifyFailExceeded ctx = false

/-- An authenticated packet of the newest epoch a key was generated for. -/
def ReachesNewest (co : CryptoOptions) (r : Received) : Prop :=
  Authenticated co r ∧ r.epochId.1 = co.decrypt.epoch + co.epochDataKeysFuture.length

variable {r : Received}

theorem RingOk.receive_dropped (h : RingOk hmacSha256 kt e1Send e1Recv count co)
    (hr : ¬ Authenticated co r) : ∃ co', receiveStep hmacSha256 co r = some (co', false) ∧
      RingOk hmacSha256 kt e1Send e1Recv count co' := by
  unfold receiveStep openvpnDecryptAead
  simp only
  split
  · exact ⟨co, rfl, h⟩
  rename_i h0
  split
  · exact ⟨co, rfl, h⟩
  rename_i slot hslot
  obtain ⟨ctx, hctx, -⟩ := h.lookup_exact hslot
  rw [hctx]
  simp only
  split
  · exact ⟨co, rfl, h⟩
  rename_i hfail
  split
  · exact ⟨_, rfl, h.countFailure slot⟩
  rename_i hauth
  exact absurd ⟨h0, Bool.eq_true_of_not_eq_false hauth, slot, ctx, hslot, hctx,
    Bool.eq_false_iff.mpr hfail⟩ hr

theorem receiveStep_authenticated (hr : Authenticated co r) :
    receiveStep hmacSha256 co r =
      match cryptoCheckReplay hmacSha256 r.now co (packetIdReadEpoch r.pkt.wireId).2
        r.epochId.1 with
      | none => none
      | some (co, false) => some (co, false)
      | some (co, true) =>
        some ({ co with decrypt := co.decrypt.addBlocks r.pkt.outlen }, true) := by
  obtain ⟨h0, hauth, slot, ctx, hslot, hctx, hfail⟩ := hr
  simp only [Received.epochId] at h0 hslot ⊢
  simp only [receiveStep, openvpnDecryptAead, h0, hslot, hctx, hfail, hauth]
  rfl

section

variable (h : RingOk hmacSha256 kt e1Send e1Recv count co) (hs : e1Send.epoch = 1)
  (hr : e1Recv.epoch = 1)

include h hs hr

theorem RingOk.checkReplay {slot : KeySlot} (h0 : epoch ≠ 0)
    (hslot : epochLookupDecryptKey co epoch = some slot)
    (hnew : epoch ≠ co.decrypt.epoch + count) (now : Int) (pin : PacketIdNet) :
    ∃ co' ok, cryptoCheckReplay hmacSha256 now co pin epoch = some (co', ok) ∧
      RingOk hmacSha256 kt e1Send e1Recv count co' := by
  unfold cryptoCheckReplay cryptoCheckReplay.onCurrent
  by_cases hcur : co.decrypt.epoch = epoch
  · obtain ⟨p, ok, hp, hok⟩ := h.recv.check now pin
    rw [if_pos (.inr hcur), hp]
    exact ⟨_, ok, rfl, h.withRecv hok⟩
  rw [if_neg (fun h => h.elim h0 hcur)]
  by_cases hret : epoch = co.epochRetiringDataReceiveKey.epoch
  · obtain ⟨hlt, hkey, hrecv⟩ := h.retiring (hret ▸ h0)
    obtain ⟨p, ok, hp, hok⟩ := hrecv.check now pin
    rw [if_pos hret, hp]
    exact ⟨_, ok, rfl, { h with retiring := fun _ => ⟨hlt, hkey, hok⟩ }⟩
  · rw [if_neg hret]
    have hlen := h.length
    obtain ⟨hlt, hle, hedge⟩ := ((epochLookupDecryptKey_epoch hslot).resolve_left hcur).resolve_left
      (fun h => hret h.symm)
    obtain ⟨co1, hrep, h1⟩ := h.replace hs hr hlt (by omega) (by omega)
    obtain ⟨p, ok, hp, hok⟩ := h1.recv.check now pin
    rw [hrep, Option.bind_some, hp]
    exact ⟨_, ok, rfl, h1.withRecv hok⟩

/-- **One received packet.** It is processed and keeps the ring, unless it
reaches the newest epoch. -/
theorem RingOk.receive (hnew : ¬ ReachesNewest co r) : ∃ co' ok,
      receiveStep hmacSha256 co r = some (co', ok) ∧
      RingOk hmacSha256 kt e1Send e1Recv count co' := by
  by_cases hauth : Authenticated co r
  · rw [receiveStep_authenticated hauth]
    have hne : r.epochId.1 ≠ co.decrypt.epoch + count := fun he =>
      hnew ⟨hauth, by rw [h.length]; exact he⟩
    obtain ⟨h0, -, slot, ctx, hslot, -⟩ := hauth
    obtain ⟨co', ok, hchk, h'⟩ := h.checkReplay hs hr h0 hslot hne r.now
      (packetIdReadEpoch r.pkt.wireId).2
    rw [hchk]
    cases ok with
    | false => exact ⟨co', false, rfl, h'⟩
    | true => exact ⟨_, true, rfl, h'.withBlocks _⟩
  · obtain ⟨co', hdrop, h'⟩ := h.receive_dropped hauth
    exact ⟨co', false, hdrop, h'⟩

theorem RingOk.receive_newest (hcnt : 1 ≤ count) (hnew : ReachesNewest co r) :
    receiveStep hmacSha256 co r = none := by
  obtain ⟨hauth, he⟩ := hnew
  rw [h.length] at he
  have hchk : cryptoCheckReplay hmacSha256 r.now co (packetIdReadEpoch r.pkt.wireId).2
      r.epochId.1 = none := by
    unfold cryptoCheckReplay
    rw [if_neg (by omega), if_neg, he, h.replace_newest hs hr hcnt]
    · rfl
    · intro hret
      have := (h.retiring (by omega)).1
      omega
  rw [receiveStep_authenticated hauth, hchk]

variable {co' : CryptoOptions}

omit hr in
theorem RingOk.iterate (hstep : epochIterateSendKey hmacSha256 co = some co') :
    RingOk hmacSha256 kt e1Send e1Recv count co' := by
  obtain ⟨hlt, hstep⟩ := Option.ite_none_right_eq_some.mp hstep
  have heq : co.epochKeySend.epoch = co.encrypt.epoch := by
    rw [h.sendSecret, epochKeyAt_epoch hs h.send_pos h.send_le]
  obtain ⟨encrypt, key, send, hpull, hkey, henc, hpos, hle⟩ :=
    h.pull hs (co.encrypt.epoch + 1) (heq ▸ hlt)
  -- an iteration is a pull by one epoch
  rw [epochPullSendKey, if_pos (Nat.lt_succ_self _), heq, Nat.add_sub_cancel_left] at hpull
  cases hpull.symm.trans hstep
  exact { h with send_pos := hpos, send_le := hle, send := henc, sendSecret := hkey }

/-- **One event** keeps the ring. -/
theorem RingOk.dataStep {e : DataEvent} {sent : Option Sent} (hcnt : 1 ≤ count)
    (hstep : dataStep hmacSha256 co e = some (co', sent)) :
    RingOk hmacSha256 kt e1Send e1Recv count co' := by
  have hchk : ∀ {co1}, epochCheckSendIterate hmacSha256 co = some co1 →
      RingOk hmacSha256 kt e1Send e1Recv count co1 :=
    epochCheckSendIterate_induct (fun _ _ h => h.iterate hs) h
  cases e with
  | encrypt now outlen fits =>
    obtain ⟨co1, hco1, hstep⟩ := Option.bind_eq_some_iff.mp hstep
    have h1 := hchk hco1
    obtain ⟨-, hstep⟩ := Option.ite_none_left_eq_some.mp hstep
    dsimp only at hstep
    split at hstep
    · cases hstep
      exact { h1 with }
    · split at hstep <;> cases hstep
      · exact { h1 with }
      · exact { h1 with send := ⟨h1.send.epoch, h1.send.cipher, h1.send.implicitIv⟩ }
  | decrypt now pkt =>
    obtain ⟨⟨co1, ok⟩, hdec, heq⟩ := Option.map_eq_some_iff.mp hstep
    cases heq
    by_cases hnew : ReachesNewest co ⟨now, pkt⟩
    · cases (h.receive_newest hs hr hcnt hnew).symm.trans hdec
    · obtain ⟨co2, ok2, hrecv, h2⟩ := h.receive hs hr hnew
      cases hrecv.symm.trans hdec
      exact h2
  | checkSendIterate =>
    obtain ⟨co1, hco1, heq⟩ := Option.map_eq_some_iff.mp hstep
    cases heq
    exact hchk hco1
  | iterateSendKey =>
    obtain ⟨co1, hiter, heq⟩ := Option.map_eq_some_iff.mp hstep
    cases heq
    exact h.iterate hs hiter

end

end Invariant

/-! ## The start -/

section Start

variable {hmacSha256 : Bytes → Bytes → Bytes} {kt : KeyType} {e1Send e1Recv : EpochKey}
  {count : Nat} {pid : PacketId}

/-- The state `epoch_init_key_ctx` hands to the generation of keys. -/
def startRing (hmacSha256 : Bytes → Bytes → Bytes) (kt : KeyType) (e1Send e1Recv : EpochKey)
    (count : Nat) (pid : PacketId) : CryptoOptions :=
  { CryptoOptions.fresh { pid with send := resetPacketIdSend } with
    encrypt := initKeyBiCtx (epochDataKeyDerive hmacSha256 e1Send kt)
    decrypt := epochInitRecvKey hmacSha256 kt e1Recv
    initialized := true
    epochKeySend := e1Send
    epochKeyRecv := e1Recv
    epochKeyType := kt
    aeadUsageLimit := cipherGetAeadLimits kt
    epochDataKeysFuture := replicate count KeyCtx.cleared }

variable (hs : e1Send.epoch = 1) (hr : e1Recv.epoch = 1)

include hs hr

theorem epochInitKeyCtx_eq (hcnt : 1 ≤ count) :
    epochInitKeyCtx hmacSha256 (.fresh pid) kt e1Send e1Recv count =
      refillFutureKeys hmacSha256 (startRing hmacSha256 kt e1Send e1Recv count pid)
        (numKeysGenerate 1 count 0) := by
  have hinit : epochInitKeyCtx hmacSha256 (.fresh pid) kt e1Send e1Recv count =
      epochGenerateFutureReceiveKeys hmacSha256
        (startRing hmacSha256 kt e1Send e1Recv count pid) := by
    unfold epochInitKeyCtx
    rw [if_neg (by simp [hs, hr])]
    simp only [epochInitSendKeyCtx, CryptoOptions.fresh, KeyCtx.cleared, hs]
    rfl
  have hlast : (startRing hmacSha256 kt e1Send e1Recv count pid).epochDataKeysFuture[
      (startRing hmacSha256 kt e1Send e1Recv count pid).epochDataKeysFuture.length - 1]? =
      some KeyCtx.cleared := by
    simp only [startRing, length_replicate]
    rw [getElem?_replicate, if_pos (by omega)]
  have hcur : (startRing hmacSha256 kt e1Send e1Recv count pid).decrypt.epoch = 1 := hr
  rw [hinit, epochGenerateFutureReceiveKeys_eq rfl hlast, if_pos (.inl hr), hcur]
  simp only [startRing, length_replicate]
  rfl

/-- The ring that `epoch_init_key_ctx` sets up. -/
theorem ringOk_init (hmacSha256 : Bytes → Bytes → Bytes) (kt : KeyType)
    (hrecv : RecvOk pid.recv) (hcnt : 1 ≤ count) (hmax : count < UINT16_MAX) : ∃ co,
      epochInitKeyCtx hmacSha256 (.fresh pid) kt e1Send e1Recv count = some co ∧
      RingOk hmacSha256 kt e1Send e1Recv count co := by
  have hcur : (startRing hmacSha256 kt e1Send e1Recv count pid).decrypt.epoch = 1 := hr
  have hnum : numKeysGenerate 1 count 0 = count := by
    unfold UINT16_MAX at hmax
    rw [numKeysGenerate, if_neg (by omega)]
    omega
  obtain ⟨future, hrefill, hflen, hfkeys⟩ := refillFutureKeys_eq
    (startRing hmacSha256 kt e1Send e1Recv count pid) count 1 hr rfl (length_replicate ..)
    (Nat.le_refl _) (Nat.le_refl _) (by omega) (by omega) rfl
    (fun i hi ctx hctx => by
      simp only [startRing, getElem?_replicate] at hctx
      rw [if_pos hi] at hctx
      cases hctx
      rfl)
    (fun i hi => by omega)
  refine ⟨_, by rw [epochInitKeyCtx_eq hs hr hcnt, hnum, hrefill], ?_⟩
  have hcurrent : IsKeyOf hmacSha256 kt e1Recv 1 (epochInitRecvKey hmacSha256 kt e1Recv) :=
    isKeyOf_initRecvKey hr (Nat.le_refl 1) (by decide)
  have hsend : IsKeyOf hmacSha256 kt e1Send 1 (epochInitRecvKey hmacSha256 kt e1Send) :=
    isKeyOf_initRecvKey hs (Nat.le_refl 1) (by decide)
  have hsend1 : (startRing hmacSha256 kt e1Send e1Recv count pid).encrypt.epoch = 1 := hs
  exact
    { initialized := rfl
      keyType := rfl
      length := hflen
      current_pos := Nat.le_of_eq hcur.symm
      newest_le := by simp only [hcur]; omega
      current := by simp only [hcur]; exact hcurrent
      future := hfkeys
      recvSecret := rfl
      retiring := fun h => absurd rfl h
      send_pos := Nat.le_of_eq hsend1.symm
      send_le := by simp only [hsend1]; decide
      send := by simp only [hsend1]; exact hsend
      sendSecret := by simp only [hsend1]; rfl
      recv := hrecv }

theorem epochInitKeyCtx_largest (hmax : count = UINT16_MAX) :
    epochInitKeyCtx hmacSha256 (.fresh pid) kt e1Send e1Recv count = none := by
  have h1 : 1 ≤ count := by rw [hmax]; decide
  have hnum : numKeysGenerate 1 count 0 = count := by rw [hmax]; decide
  have hzero : (1 + 1 + (count - 1)) % 65536 = 0 := by rw [hmax]; decide
  rw [epochInitKeyCtx_eq hs hr h1, hnum]
  obtain ⟨ctx, hctx, hep⟩ := generateRecvKeys_epoch hmacSha256 kt count e1Recv
    (count - 1) (by omega)
  rw [hr, hzero] at hep
  unfold refillFutureKeys
  simp only
  split
  · rfl
  · rw [if_neg]
    rw [all_eq_true]
    intro hall
    have hpos := hall ctx (mem_append_right _ (mem_of_getElem? hctx))
    rw [decide_eq_true_eq, hep] at hpos
    exact absurd hpos (Nat.lt_irrefl 0)

end Start

/-- **The ring of receive keys.** A ring can be set up iff its newest epoch fits
into 16 bits. From there, every run without an authenticated packet of the
newest generated epoch goes through, keeps the invariant of the ring, and finds
the key of exactly the epoch looked up; and in every state so reached, a packet
aborts the process iff it is an authenticated packet of the newest epoch. -/
theorem epoch_ring_until_newest (hmacSha256 : Bytes → Bytes → Bytes) (kt : KeyType)
    (e1Send e1Recv : EpochKey) (count : Nat) (seqBacktrack timeBacktrack : Int)
    (pid : PacketId) (hs : e1Send.epoch = 1) (hr : e1Recv.epoch = 1) (hcount : 1 ≤ count)
    (hword : count ≤ UINT16_MAX) (hpid : packetIdInit seqBacktrack timeBacktrack = some pid) :
    ((∃ co, epochInitKeyCtx hmacSha256 (.fresh pid) kt e1Send e1Recv count = some co) ↔
      count < UINT16_MAX) ∧
    ∀ co, epochInitKeyCtx hmacSha256 (.fresh pid) kt e1Send e1Recv count = some co →
      ∀ rs, RunGuard (receiveStep hmacSha256) (fun co r => ¬ ReachesNewest co r) co rs →
        ∃ co' verdicts, run (receiveStep hmacSha256) co rs = some (co', verdicts) ∧
          RingOk hmacSha256 kt e1Send e1Recv count co' ∧
          (∀ epoch slot, epochLookupDecryptKey co' epoch = some slot →
            ∃ ctx, co'.keyAt slot = some ctx ∧ IsKeyOf hmacSha256 kt e1Recv epoch ctx) ∧
          ∀ r, receiveStep hmacSha256 co' r = none ↔ ReachesNewest co' r := by
  obtain ⟨-, -, hrecv⟩ := packetIdInitRecv_fresh (packetIdInit_recv hpid)
  have hsetup : (∃ co, epochInitKeyCtx hmacSha256 (.fresh pid) kt e1Send e1Recv count = some co) ↔
      count < UINT16_MAX := by
    refine ⟨fun ⟨co, hco⟩ => Nat.lt_of_le_of_ne hword ?_, fun hlt => ?_⟩
    · intro hmax
      rw [epochInitKeyCtx_largest hs hr hmax] at hco
      cases hco
    · obtain ⟨co, hco, -⟩ := ringOk_init hs hr hmacSha256 kt hrecv hcount hlt
      exact ⟨co, hco⟩
  refine ⟨hsetup, fun co hco rs hguard => ?_⟩
  obtain ⟨co0, hco0, h0⟩ := ringOk_init hs hr hmacSha256 kt hrecv hcount
    (hsetup.mp ⟨co, hco⟩)
  cases hco.symm.trans hco0
  obtain ⟨co', verdicts, hrun, h'⟩ := run_isSome
    (I := RingOk hmacSha256 kt e1Send e1Recv count) (fun co r h hg => h.receive hs hr hg) h0 hguard
  refine ⟨co', verdicts, hrun, h', fun epoch slot => h'.lookup_exact, fun r => ⟨fun hnone => ?_,
    h'.receive_newest hs hr hcount⟩⟩
  by_contra hnot
  obtain ⟨co'', ok, hstep, -⟩ := h'.receive hs hr hnot
  rw [hnone] at hstep
  cases hstep

/-- The receive state with sixteen future keys, as OpenVPN sets it up, from
constant key material. -/
def startSixteen : Option CryptoOptions :=
  (packetIdInit 64 15).bind fun pid =>
    epochInitKeyCtx (fun _ _ => []) (.fresh pid) ⟨32, 12, false⟩ ⟨[], 1⟩ ⟨[], 1⟩ 16

/-- A packet of epoch `16`, one below the newest key of the first ring. -/
theorem epoch_ring_until_newest_sixteen : ∃ co co' verdicts, startSixteen = some co ∧
    run (receiveStep fun _ _ => []) co [⟨100, ⟨0x10000000000001, true, 0⟩⟩] =
      some (co', verdicts) ∧
    RingOk (fun _ _ => []) ⟨32, 12, false⟩ ⟨[], 1⟩ ⟨[], 1⟩ 16 co' := by
  have h : startSixteen.map (fun co => (co.decrypt.epoch, co.epochDataKeysFuture.length)) =
      some (1, 16) := by decide +kernel
  obtain ⟨co, hco, heq⟩ := Option.map_eq_some_iff.mp h
  obtain ⟨hcur, hlen⟩ := Prod.mk.inj heq
  obtain ⟨pid, hpid, hinit⟩ := Option.bind_eq_some_iff.mp hco
  have hguard : ¬ ReachesNewest co ⟨100, ⟨0x10000000000001, true, 0⟩⟩ := by
    rintro ⟨-, he⟩
    rw [hcur, hlen] at he
    exact absurd he (by decide)
  obtain ⟨co', verdicts, hrun, hring, -⟩ := (epoch_ring_until_newest (fun _ _ => [])
    ⟨32, 12, false⟩ ⟨[], 1⟩ ⟨[], 1⟩ 16 64 15 pid rfl rfl (by decide) (by decide) hpid).2 co hinit
    [⟨100, ⟨0x10000000000001, true, 0⟩⟩] ⟨hguard, fun _ _ _ => trivial⟩
  exact ⟨co, co', verdicts, hco, hrun, hring⟩

/-- Right after the start, a key is found for epoch `17`, and an authenticated
packet of that epoch aborts the process. -/
theorem epoch_ring_aborts_at_newest :
    startSixteen.map (fun co => (epochLookupDecryptKey co 17,
      receiveStep (fun _ _ => []) co ⟨100, ⟨0x11000000000001, true, 0⟩⟩)) =
        some (some (.future 15), none) := by
  decide +kernel

/-! ## Both ends -/

section Ends

variable {hmacSha256 : Bytes → Bytes → Bytes} {kt : KeyType} {e1 e2 : EpochKey}
  {count count' : Nat} {a b : CryptoOptions}

variable (hmacSha256 kt e1 e2 count a) in
/-- One end reaches the state `a`, with whatever packets arrive. -/
def ReachedEnd : Prop :=
  1 ≤ count ∧ count < UINT16_MAX ∧ ∃ seqBacktrack timeBacktrack pid co es os,
    packetIdInit seqBacktrack timeBacktrack = some pid ∧
    epochInitKeyCtx hmacSha256 (.fresh pid) kt e1 e2 count = some co ∧
    run (dataStep hmacSha256) co es = some (a, os)

theorem ReachedEnd.ringOk (h : ReachedEnd hmacSha256 kt e1 e2 count a) :
    RingOk hmacSha256 kt e1 e2 count a := by
  obtain ⟨hcnt, hmax, seqBacktrack, timeBacktrack, pid, co, es, os, hpid, hinit, hrun⟩ := h
  obtain ⟨hs, hr, -⟩ := epochInitKeyCtx_cases hinit
  obtain ⟨-, -, hrecv⟩ := packetIdInitRecv_fresh (packetIdInit_recv hpid)
  obtain ⟨co0, hco, h0⟩ := ringOk_init hs hr hmacSha256 kt hrecv hcnt hmax
  cases hco.symm.trans hinit
  exact run_invariant (fun _ _ _ _ h _ hstep => h.dataStep hs hr hcnt hstep) h0
    (runGuard_true _ _) hrun

/-- **Both ends use the same key.** In any states that two ends with swapped secrets reach,
whatever was lost, forged or replayed, a key the one finds for the epoch of the other's send
key has its cipher key and implicit IV; it finds one if the epoch is in its ring and not
at the end of the epochs. -/
theorem epoch_ends_agree (ha : ReachedEnd hmacSha256 kt e1 e2 count a)
    (hb : ReachedEnd hmacSha256 kt e2 e1 count' b) :
    (∀ slot, epochLookupDecryptKey b a.encrypt.epoch = some slot → ∃ ctx,
      b.keyAt slot = some ctx ∧ ctx.cipher = a.encrypt.cipher ∧
        ctx.implicitIv = a.encrypt.implicitIv) ∧
    (b.decrypt.epoch ≤ a.encrypt.epoch → a.encrypt.epoch ≤ b.decrypt.epoch + count' →
      a.encrypt.epoch + count' < UINT16_MAX →
      ∃ slot, epochLookupDecryptKey b a.encrypt.epoch = some slot) := by
  have hsend := ha.ringOk.send
  constructor
  · intro slot hslot
    obtain ⟨ctx, hctx, hkey⟩ := hb.ringOk.lookup_exact hslot
    exact ⟨ctx, hctx, hkey.cipher.trans hsend.cipher.symm,
      hkey.implicitIv.trans hsend.implicitIv.symm⟩
  · intro hlow hhigh hedge
    unfold epochLookupDecryptKey
    rw [hb.ringOk.length]
    split_ifs <;> first | exact ⟨_, rfl⟩ | omega

/-- The sender is in the second epoch, the receiver has not heard of it. -/
theorem epoch_ends_agree_iterated : ∃ (a b : CryptoOptions) (ctx : KeyCtx),
    a.encrypt.epoch = 2 ∧ b.keyAt (.future 0) = some ctx ∧ ctx.cipher = a.encrypt.cipher := by
  have h : (startSixteen.bind fun b =>
      (run (dataStep fun _ _ => []) b [.iterateSendKey]).map fun r =>
        (r.1.encrypt.epoch, epochLookupDecryptKey b 2)) = some (2, some (.future 0)) := by
    decide +kernel
  obtain ⟨b, hb, h⟩ := Option.bind_eq_some_iff.mp h
  obtain ⟨⟨a, os⟩, hrun, heq⟩ := Option.map_eq_some_iff.mp h
  obtain ⟨pid, hpid, hinit⟩ := Option.bind_eq_some_iff.mp hb
  obtain ⟨hepoch, hslot⟩ := Prod.mk.inj heq
  obtain ⟨ctx, hctx, hcipher, -⟩ := (epoch_ends_agree
    ⟨by decide, by decide, 64, 15, pid, b, _, os, hpid, hinit, hrun⟩
    ⟨by decide, by decide, 64, 15, pid, b, [], [], hpid, hinit, rfl⟩).1 _ (hepoch ▸ hslot)
  exact ⟨a, b, ctx, hepoch, hctx, hcipher⟩

end Ends

end OpenVpn
