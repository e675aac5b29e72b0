import OpenVpn.Base.Bytes
import OpenVpn.PacketId.Model

/-!
# Epoch data keys (`crypto_epoch.c`, and its callers in `crypto.c`)

Every direction has a secret that is ratcheted forward one epoch at a time
(`epoch_key_iterate`); the data key of an epoch is derived from the secret of
that epoch. The receiver keeps the current key, the retiring one with its own
replay window, and a ring of keys for the next epochs, generated in advance.

HMAC-SHA256 is a parameter. Epochs are natural numbers, with the `uint16_t`
arithmetic of the source written out; `none` is a failed `ASSERT` (or an access
outside the ring). A pointer to a key context is a `KeySlot`. The cipher of a
key type is an AEAD cipher, whose key and IV sizes are all that matters here.
-/

namespace OpenVpn

open Base UInt8

def UINT16_MAX : Nat := 65535

def SHA256_DIGEST_LENGTH : Nat := 32

/-- `struct key_type`, reduced to what is asked of an AEAD cipher. -/
structure KeyType where
  keySize : Nat
  ivSize : Nat
  chacha20Poly1305 : Bool
deriving DecidableEq, Repr

/-- `struct key_parameters`: `hmac` holds the implicit IV. -/
structure KeyParameters where
  cipher : Bytes
  hmac : Bytes
  epoch : Nat
deriving DecidableEq, Repr

/-- `struct epoch_key`: the secret of one epoch. -/
structure EpochKey where
  epochKey : Bytes
  epoch : Nat
deriving DecidableEq, Repr

/-- `struct key_ctx`: the cipher context is the key it was set up with. -/
structure KeyCtx where
  cipher : Option Bytes
  implicitIv : Bytes
  plaintextBlocks : Nat
  failedVerifications : Nat
  epoch : Nat
deriving DecidableEq, Repr

/-- An all-zero key context (`CLEAR`, `memset`). -/
def KeyCtx.cleared : KeyCtx :=
  { cipher := none, implicitIv := [], plaintextBlocks := 0, failedVerifications := 0
    epoch := 0 }

/-- The part of `struct crypto_options` that the epoch data format uses; the
two directions of `key_ctx_bi` are the fields `encrypt` and `decrypt`, and the
number of future keys is the length of the array. -/
structure CryptoOptions where
  encrypt : KeyCtx
  decrypt : KeyCtx
  initialized : Bool
  epochKeySend : EpochKey
  epochKeyRecv : EpochKey
  epochKeyType : KeyType
  aeadUsageLimit : Nat
  epochDataKeysFuture : List KeyCtx
  epochRetiringDataReceiveKey : KeyCtx
  epochRetiringKeyPidRecv : PacketIdRec
  packetId : PacketId
deriving DecidableEq, Repr

/-! ## Key derivation -/

section Derivation

variable (hmacSha256 : Bytes → Bytes → Bytes)

/-- The blocks `T(block)`, `T(block + 1)`, … of `ovpn_hkdf_expand`. -/
def hkdfBlocks (secret info : Bytes) : (n block : Nat) → (tPrev : Bytes) → Bytes
  | 0, _, _ => []
  | n + 1, block, tPrev =>
    let t := hmacSha256 secret (tPrev ++ info ++ [ofNat block])
    t ++ hkdfBlocks secret info n (block + 1) t

def ovpnHkdfExpand (secret info : Bytes) (outLen : Nat) : Bytes :=
  (hkdfBlocks hmacSha256 secret info
    ((outLen + SHA256_DIGEST_LENGTH - 1) / SHA256_DIGEST_LENGTH) 1 []).take outLen

/-- `ovpn_expand_label`; `none` is the `false` return. -/
def ovpnExpandLabel (secret : Bytes) (secretLen : Nat) (label context : Bytes)
    (outLen : Nat) : Option Bytes :=
  if secretLen ≠ 32 ∨ label.length > 250 ∨ context.length > 255 ∨ label.length < 1 then none
  else
    let labelPrefix := "ovpn ".toUTF8.toList
    let hkdfLabel := beBytes 2 outLen ++ [ofNat (labelPrefix.length + label.length)] ++
      labelPrefix ++ label ++ [ofNat context.length] ++ context
    some (ovpnHkdfExpand hmacSha256 secret hkdfLabel outLen)

/-- A key buffer filled by `ovpn_expand_label`, whose return value is ignored;
the buffer is zeroed beforehand. -/
def expandInto (secret label : Bytes) (outLen : Nat) : Bytes :=
  (ovpnExpandLabel hmacSha256 secret SHA256_DIGEST_LENGTH label [] outLen).getD
    (List.replicate outLen 0)

def epochKeyIterate (key : EpochKey) : EpochKey :=
  { epoch := (key.epoch + 1) % 65536
    epochKey := expandInto hmacSha256 key.epochKey "datakey upd".toUTF8.toList 32 }

def epochDataKeyDerive (key : EpochKey) (kt : KeyType) : KeyParameters :=
  { cipher := expandInto hmacSha256 key.epochKey "data_key".toUTF8.toList kt.keySize
    hmac := expandInto hmacSha256 key.epochKey "data_iv".toUTF8.toList kt.ivSize
    epoch := key.epoch }

end Derivation

/-- `init_key_bi_ctx_send` and `init_key_bi_ctx_recv`, which differ in the
direction the cipher is set up for. -/
def initKeyBiCtx (key : KeyParameters) : KeyCtx :=
  { cipher := some key.cipher, implicitIv := key.hmac, plaintextBlocks := 0
    failedVerifications := 0, epoch := key.epoch }

def freeKeyCtx (ctx : KeyCtx) : KeyCtx :=
  { ctx with cipher := none, implicitIv := [], plaintextBlocks := 0, epoch := 0 }

def cipherGetAeadLimits (kt : KeyType) : Nat :=
  if kt.chacha20Poly1305 then 0 else 2 ^ 36 - 1

/-! ## The send key and the ring of receive keys -/

section Keys

variable (hmacSha256 : Bytes → Bytes → Bytes)

def epochInitSendKeyCtx (co : CryptoOptions) : Option CryptoOptions :=
  if co.encrypt.epoch = co.epochKeySend.epoch then none
  else some { co with
    encrypt := initKeyBiCtx (epochDataKeyDerive hmacSha256 co.epochKeySend co.epochKeyType)
    packetId := { co.packetId with send := resetPacketIdSend } }

/-- `epoch_init_recv_key`: the key context of the secret `key`. -/
def epochInitRecvKey (kt : KeyType) (key : EpochKey) : KeyCtx :=
  initKeyBiCtx (epochDataKeyDerive hmacSha256 key kt)

/-- The regeneration loop of `epoch_generate_future_receive_keys`: `n` more
keys, and the secret of the last one. -/
def generateRecvKeys (kt : KeyType) : Nat → EpochKey → List KeyCtx × EpochKey
  | 0, key => ([], key)
  | n + 1, key =>
    let key := epochKeyIterate hmacSha256 key
    let (ctxs, last) := generateRecvKeys kt n key
    (epochInitRecvKey hmacSha256 kt key :: ctxs, last)

/-- A future key older than the current key is freed. -/
def freeOldKey (current : Nat) (ctx : KeyCtx) : KeyCtx :=
  if ctx.epoch > 0 ∧ ctx.epoch < current then freeKeyCtx ctx else ctx

/-- `num_keys_generate`, in `uint16_t`. If no key has been generated yet, only
the first epoch is defined. -/
def numKeysGenerate (current count highest : Nat) : Nat :=
  let currentHighestKey := if highest ≠ 0 then highest else 1
  let desiredHighestKey := (current + count) % 65536
  (desiredHighestKey + 65536 - currentHighestKey) % 65536

/-- The second half of `epoch_generate_future_receive_keys`: the keys move down
by `n`, onto freed keys inside the array, and `n` new ones are generated. -/
def refillFutureKeys (co : CryptoOptions) (n : Nat) : Option CryptoOptions :=
  let future := co.epochDataKeysFuture.map (freeOldKey co.decrypt.epoch)
  if future.length < n ∨ ¬ (future.take n).all (fun ctx => ctx.epoch = 0) then none
  else
    let (fresh, recv) := generateRecvKeys hmacSha256 co.epochKeyType n co.epochKeyRecv
    let future := future.drop n ++ fresh
    if future.all (fun ctx => ctx.epoch > 0) then
      some { co with epochDataKeysFuture := future, epochKeyRecv := recv }
    else none

def epochGenerateFutureReceiveKeys (co : CryptoOptions) : Option CryptoOptions :=
  match co.epochDataKeysFuture.getLast? with
  | none => none
  | some highest =>
    if co.initialized = false then none
    else if co.epochKeyRecv.epoch = 1 ∨ highest.epoch = co.epochKeyRecv.epoch then
      refillFutureKeys hmacSha256 co (numKeysGenerate co.decrypt.epoch co.epochDataKeysFuture.length
        (freeOldKey co.decrypt.epoch highest).epoch)
    else none

def epochIterateSendKey (co : CryptoOptions) : Option CryptoOptions :=
  if co.epochKeySend.epoch < UINT16_MAX then
    epochInitSendKeyCtx hmacSha256 { co with
      epochKeySend := epochKeyIterate hmacSha256 co.epochKeySend
      encrypt := freeKeyCtx co.encrypt }
  else none

/-- `n` iterations of `epoch_key_iterate`. -/
def epochKeyIterateN : Nat → EpochKey → EpochKey
  | 0, key => key
  | n + 1, key => epochKeyIterateN n (epochKeyIterate hmacSha256 key)

/-- The part of `epoch_replace_update_recv_key` that pulls the send key forward. -/
def epochPullSendKey (co : CryptoOptions) (newEpoch : Nat) : Option CryptoOptions :=
  if co.encrypt.epoch < newEpoch then
    epochInitSendKeyCtx hmacSha256 { co with
      encrypt := freeKeyCtx co.encrypt
      epochKeySend :=
        epochKeyIterateN hmacSha256 (newEpoch - co.epochKeySend.epoch) co.epochKeySend }
  else some co

def epochReplaceUpdateRecvKey (co : CryptoOptions) (newEpoch : Nat) :
    Option CryptoOptions := do
  let fki := co.epochDataKeysFuture.findIdx (fun ctx => ctx.epoch = newEpoch)
  let newCtx ← co.epochDataKeysFuture[fki]?
  let co ← epochPullSendKey hmacSha256 co newEpoch
  let (retiring, fresh) ← packetIdMoveRecv co.packetId.recv
  epochGenerateFutureReceiveKeys hmacSha256 { co with
    epochRetiringDataReceiveKey := co.decrypt
    epochRetiringKeyPidRecv := retiring
    packetId := { co.packetId with recv := fresh }
    decrypt := newCtx
    epochDataKeysFuture := co.epochDataKeysFuture.set fki KeyCtx.cleared }

def epochInitKeyCtx (co : CryptoOptions) (kt : KeyType) (e1Send e1Recv : EpochKey)
    (futureKeyCount : Nat) : Option CryptoOptions := do
  if ¬ (e1Send.epoch = 1 ∧ e1Recv.epoch = 1) then none
  else
    let co ← epochInitSendKeyCtx hmacSha256 { co with
      epochKeyRecv := e1Recv, epochKeySend := e1Send
      epochKeyType := kt, aeadUsageLimit := cipherGetAeadLimits kt }
    epochGenerateFutureReceiveKeys hmacSha256 { co with
      decrypt := epochInitRecvKey hmacSha256 kt co.epochKeyRecv
      initialized := true
      epochDataKeysFuture := List.replicate futureKeyCount KeyCtx.cleared }

end Keys

/-- The receive key contexts of `struct crypto_options`, as pointer targets. -/
inductive KeySlot where
  | current
  | retiring
  | future (index : Nat)
deriving DecidableEq, Repr

/-- The key context a pointer points at. -/
def CryptoOptions.keyAt (co : CryptoOptions) : KeySlot → Option KeyCtx
  | .current => some co.decrypt
  | .retiring => some co.epochRetiringDataReceiveKey
  | .future i => co.epochDataKeysFuture[i]?

/-- `ctx->failed_verifications++`. -/
def CryptoOptions.countFailure (co : CryptoOptions) : KeySlot → CryptoOptions
  | .current => { co with decrypt := bump co.decrypt }
  | .retiring =>
    { co with epochRetiringDataReceiveKey := bump co.epochRetiringDataReceiveKey }
  | .future i => { co with epochDataKeysFuture := co.epochDataKeysFuture.modify i bump }
where
  bump (ctx : KeyCtx) : KeyCtx :=
    { ctx with failedVerifications := (ctx.failedVerifications + 1) % 2 ^ 64 }

/-- `epoch_lookup_decrypt_key`; `none` is the null pointer. -/
def epochLookupDecryptKey (co : CryptoOptions) (epoch : Nat) : Option KeySlot :=
  if co.decrypt.epoch = epoch then some .current
  else if co.epochRetiringDataReceiveKey.epoch ≠ 0 ∧
      co.epochRetiringDataReceiveKey.epoch = epoch then some .retiring
  else if epoch > co.decrypt.epoch ∧
      epoch ≤ co.decrypt.epoch + co.epochDataKeysFuture.length then
    -- the edge of the valid epochs
    if (epoch : Int) > (UINT16_MAX : Int) - co.epochDataKeysFuture.length - 1 then none
    else some (.future (epoch - (co.decrypt.epoch + 1)))
  else none

/-! ## The data channel -/

def aeadUsageLimitReached (limit : Nat) (ctx : KeyCtx) (highestPid : Nat) : Bool :=
  decide (limit > 0) && decide ((ctx.plaintextBlocks + highestPid) % 2 ^ 64 > limit)

def cipherDecryptVerifyFailExceeded (ctx : KeyCtx) : Bool :=
  decide (ctx.failedVerifications > 2 ^ 36)

def cipherDecryptVerifyFailWarn (ctx : KeyCtx) : Bool :=
  decide (ctx.failedVerifications > 2 ^ 35)

/-- The blocks of `AEAD_LIMIT_BLOCKSIZE` bytes in `outlen` bytes, rounded up. -/
def aeadBlocks (outlen : Nat) : Nat := (outlen + 15) / 16

/-- `plaintext_blocks += …`. -/
def KeyCtx.addBlocks (ctx : KeyCtx) (outlen : Nat) : KeyCtx :=
  { ctx with plaintextBlocks := (ctx.plaintextBlocks + aeadBlocks outlen) % 2 ^ 64 }

/-- The common end of `crypto_check_replay`: `packet_id_reap_test`,
`packet_id_test`, and `packet_id_add` if the id is accepted. -/
def packetIdCheck (now : Int) (p : PacketIdRec) (pin : PacketIdNet) : Option (PacketIdRec × Bool) :=
  (packetIdReapTest now p).bind fun p => packetIdTestAdd now p pin

/-- A data packet as far as the epoch code looks at it: the 64-bit packet id,
whether its tag verifies, and the length `cipher_ctx_final_check_tag` returns. -/
structure DataPacket where
  wireId : Nat
  authentic : Bool
  outlen : Nat
deriving DecidableEq, Repr

/-- What happens at one end of the data channel. -/
inductive DataEvent where
  /-- `openvpn_encrypt_aead`; `fits` is the buffer overflow check. -/
  | encrypt (now : Int) (outlen : Nat) (fits : Bool)
  /-- `openvpn_decrypt_aead`. -/
  | decrypt (now : Int) (pkt : DataPacket)
  /-- `epoch_check_send_iterate` outside of an encryption. -/
  | checkSendIterate
  /-- `epoch_iterate_send_key` outside of an encryption. -/
  | iterateSendKey
deriving DecidableEq, Repr

/-- A packet put on the wire: the epoch of the key that encrypted it, and the
64-bit packet id written. -/
structure Sent where
  epoch : Nat
  wireId : Nat
deriving DecidableEq, Repr

section DataChannel

variable (hmacSha256 : Bytes → Bytes → Bytes)

def cryptoCheckReplay (now : Int) (co : CryptoOptions) (pin : PacketIdNet) (epoch : Nat) :
    Option (CryptoOptions × Bool) :=
  if epoch = 0 ∨ co.decrypt.epoch = epoch then onCurrent co
  else if epoch = co.epochRetiringDataReceiveKey.epoch then
    (packetIdCheck now co.epochRetiringKeyPidRecv pin).map fun (p, ok) =>
      ({ co with epochRetiringKeyPidRecv := p }, ok)
  else (epochReplaceUpdateRecvKey hmacSha256 co epoch).bind onCurrent
where
  onCurrent (co : CryptoOptions) : Option (CryptoOptions × Bool) :=
    (packetIdCheck now co.packetId.recv pin).map fun (p, ok) =>
      ({ co with packetId := { co.packetId with recv := p } }, ok)

/-- `openvpn_decrypt_aead` in the epoch data format: is the packet accepted? -/
def openvpnDecryptAead (now : Int) (co : CryptoOptions) (pkt : DataPacket) :
    Option (CryptoOptions × Bool) :=
  let (epoch, pin) := packetIdReadEpoch pkt.wireId
  if epoch = 0 then some (co, false)
  else
    match epochLookupDecryptKey co epoch with
    | none => some (co, false)
    | some slot =>
      match co.keyAt slot with
      | none => none
      | some ctx =>
        if cipherDecryptVerifyFailExceeded ctx then some (co, false)
        else if pkt.authentic = false then some (co.countFailure slot, false)
        else
          match cryptoCheckReplay hmacSha256 now co pin epoch with
          | none => none
          | some (co, false) => some (co, false)
          | some (co, true) =>
            some ({ co with decrypt := co.decrypt.addBlocks pkt.outlen }, true)

def epochCheckSendIterate (co : CryptoOptions) : Option CryptoOptions :=
  if co.epochKeySend.epoch = UINT16_MAX then some co
  else
    let usage :=
      if co.aeadUsageLimit ≠ 0 then
        if aeadUsageLimitReached co.aeadUsageLimit co.encrypt co.packetId.send.id then
          epochIterateSendKey hmacSha256 co
        else if co.encrypt.epoch = co.decrypt.epoch ∧
            (aeadUsageLimitReached co.aeadUsageLimit co.decrypt co.packetId.recv.id ∨
              cipherDecryptVerifyFailWarn co.decrypt) then
          epochIterateSendKey hmacSha256 co
        else some co
      else some co
    usage.bind fun co =>
      if co.packetId.send.id = PACKET_ID_EPOCH_MAX then epochIterateSendKey hmacSha256 co
      else some co

/-- `openvpn_encrypt_aead` in the epoch data format: the packet sent, if any. A
buffer too small for the packet is noticed after the id was drawn. -/
def openvpnEncryptAead (now : Int) (co : CryptoOptions) (outlen : Nat) (fits : Bool) :
    Option (CryptoOptions × Option Sent) :=
  (epochCheckSendIterate hmacSha256 co).bind fun co =>
    if co.encrypt.cipher = none ∨ co.packetId.recv.initialized = false then none
    else
      let (send, written) := packetIdWriteEpoch now co.packetId.send co.encrypt.epoch
      let co := { co with packetId := { co.packetId with send := send } }
      match written with
      | none => some (co, none)
      | some wireId =>
        if fits = false then some (co, none)
        else some ({ co with encrypt := co.encrypt.addBlocks outlen },
          some { epoch := co.encrypt.epoch, wireId := wireId })

/-- One event at one end; the output is the packet sent, if any. -/
def dataStep (co : CryptoOptions) : DataEvent → Option (CryptoOptions × Option Sent)
  | .encrypt now outlen fits => openvpnEncryptAead hmacSha256 now co outlen fits
  | .decrypt now pkt =>
    (openvpnDecryptAead hmacSha256 now co pkt).map fun (co, _) => (co, none)
  | .checkSendIterate => (epochCheckSendIterate hmacSha256 co).map fun co => (co, none)
  | .iterateSendKey => (epochIterateSendKey hmacSha256 co).map fun co => (co, none)

end DataChannel

/-- `struct crypto_options` before `epoch_init_key_ctx`: cleared, with its
packet ids initialised. -/
def CryptoOptions.fresh (packetId : PacketId) : CryptoOptions :=
  { encrypt := .cleared, decrypt := .cleared, initialized := false
    epochKeySend := { epochKey := [], epoch := 0 }
    epochKeyRecv := { epochKey := [], epoch := 0 }
    epochKeyType := { keySize := 0, ivSize := 0, chacha20Poly1305 := false }
    aeadUsageLimit := 0
    epochDataKeysFuture := []
    epochRetiringDataReceiveKey := .cleared
    epochRetiringKeyPidRecv := .cleared
    packetId := packetId }

end OpenVpn
