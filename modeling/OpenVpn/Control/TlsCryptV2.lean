import OpenVpn.Control.TlsCrypt

/-!
# Wrapped client keys of tls-crypt-v2

A client sends its key, encrypted with a key only the server has, at the end of its
first packet:

    tag (32) ‖ encrypt (keys (256) ‖ metadata) ‖ length (2)

The server finds it from the length in the last two bytes.

* `tlsCryptV2WrapClientKey_spec` — what a wrap writes.
* `tlsCryptV2UnwrapClientKey_consistent`, `tlsCryptV2UnwrapClientKey_rejected` — an unwrap
  accepts exactly what is consistent with the server key.
* `extract_client_key` — the round trip through a packet, and what any other bytes do.
-/

namespace OpenVpn

open Base List Option Nat

def TLS_CRYPT_V2_TAG_SIZE : Nat := TLS_CRYPT_TAG_SIZE
def TLS_CRYPT_V2_MAX_WKC_LEN : Nat := 1024
/-- `sizeof(struct key)`: a cipher key and an HMAC key. -/
def KEY_SIZE : Nat := 128
def TLS_CRYPT_V2_CLIENT_KEY_LEN : Nat := 2 * KEY_SIZE
def TLS_CRYPT_V2_MAX_METADATA_LEN : Nat :=
  TLS_CRYPT_V2_MAX_WKC_LEN - (TLS_CRYPT_V2_CLIENT_KEY_LEN + TLS_CRYPT_V2_TAG_SIZE + 2)

/-- `struct key2`, with the memory of its two keys. -/
structure Key2 where
  n : Nat
  keys : Bytes
  length_keys : keys.length = TLS_CRYPT_V2_CLIENT_KEY_LEN
  deriving DecidableEq

theorem length_zero_keys :
    (replicate TLS_CRYPT_V2_CLIENT_KEY_LEN (0 : UInt8)).length = TLS_CRYPT_V2_CLIENT_KEY_LEN :=
  length_replicate

/-- What `secure_memzero` leaves. -/
def Key2.zero : Key2 := ⟨0, replicate TLS_CRYPT_V2_CLIENT_KEY_LEN 0, length_zero_keys⟩

inductive TlsWrapMode
  | none
  | auth
  | crypt
  deriving DecidableEq, Repr

/-- `struct tls_wrap_ctx`; there may be no server key. -/
structure TlsWrapCtx (κ η : Type) where
  mode : TlsWrapMode
  opt : TlsWrapOptions κ η
  serverKey : Option (TlsWrapKey κ η)
  metadata : Buffer
  cleanupKeyCtx : Bool
  originalWrapKeydata : Key2
  deriving DecidableEq

/-- `buf_advance`, whose size is signed. -/
def bufAdvanceSigned (buf : Buffer) (size : Int) : Option Buffer :=
  if size < 0 then none else bufAdvance buf size.toNat

/-- `buf_inc_len` by `-dec`. -/
def bufDecLen (buf : Buffer) (dec : Nat) : Option Buffer :=
  if dec < BUF_SIZE_MAX ∧ dec ≤ buf.contents.length then
    some (bufTruncate buf (buf.contents.length - dec))
  else none

/-- The errors of `tls_crypt_v2_unwrap_client_key`. -/
inductive UnwrapKeyError
  | wrappedClientKeyTooBig
  | failedToReadLength
  | invalidLength
  | failedToReadTag
  | couldNotDecryptClientKey
  | clientKeyAuthenticationError
  | failedToReadClientKey
  | metadataTooLarge
  deriving DecidableEq, Repr

/-! ## Wrap, unwrap and extract -/

section TlsCryptV2

variable {κ η : Type} (P : TlsCryptPrimitives κ η)

/-- The length field of a wrapped key with this metadata, `net_len`. -/
def wkcNetLen (metadata : Bytes) : Bytes :=
  beBytes 2 (TLS_CRYPT_V2_CLIENT_KEY_LEN + metadata.length + TLS_CRYPT_V2_TAG_SIZE + 2)

/-- `tls_crypt_v2_wrap_client_key`; `block` is `cipher_ctx_block_size`. Key and metadata go
through the stream cipher one after the other. -/
def tlsCryptV2WrapClientKey (block : Nat) (wkc : Buffer) (srcKey : Key2) (srcMetadata : Bytes)
    (server : TlsWrapKey κ η) : Option (Buffer × Bool) :=
  (allocBuf (TLS_CRYPT_V2_MAX_WKC_LEN + block)).bind fun work =>
    let netLen := wkcNetLen srcMetadata
    let tag := P.hmac server.hmac (netLen ++ srcKey.keys ++ srcMetadata)
    match bufWrite work tag with
    | none => some (wkc, false)
    | some work =>
      if work.capacity - (work.offset + work.contents.length) <
          TLS_CRYPT_V2_CLIENT_KEY_LEN + srcMetadata.length + 2 + block then some (wkc, false)
      else
        (bufExtend work (P.encrypt server.cipher (tag.take TLS_CRYPT_BLOCK_SIZE)
            (srcKey.keys ++ srcMetadata))).bind fun work =>
          (bufWrite work netLen).map fun work =>
            match bufWrite wkc work.contents with
            | none => (wkc, false)
            | some wkc => (wkc, true)

def netLenField (bs : Bytes) : Bytes := bs.drop (bs.length - 2)

/-- The decryption in `tls_crypt_v2_unwrap_client_key`, up to the check of the tag. -/
def unwrapPlaintext (server : TlsWrapKey κ η) (wkc : Bytes) :
    Option (Except UnwrapKeyError Bytes) :=
  if TLS_CRYPT_V2_MAX_WKC_LEN < wkc.length then some (.error .wrappedClientKeyTooBig)
  else if wkc.length < 2 then some (.error .failedToReadLength)
  else if beNat (netLenField wkc) ≠ wkc.length then some (.error .invalidLength)
  else if wkc.length - 2 < TLS_CRYPT_TAG_SIZE then some (.error .failedToReadTag)
  else
    match P.decrypt server.cipher (wkc.take TLS_CRYPT_BLOCK_SIZE)
        ((wkc.take (wkc.length - 2)).drop TLS_CRYPT_TAG_SIZE) with
    | none => some (.error .couldNotDecryptClientKey)
    | some plain =>
      (allocBuf TLS_CRYPT_V2_MAX_WKC_LEN).bind fun plaintext =>
        (bufExtend plaintext plain).map fun plaintext =>
          if wkc.take TLS_CRYPT_TAG_SIZE =
              P.hmac server.hmac (netLenField wkc ++ plaintext.contents) then
            .ok plaintext.contents
          else .error .clientKeyAuthenticationError

/-- The key in front of a plaintext, and the metadata behind it. -/
def readClientKey (metadata : Buffer) (plain : Bytes) : Except UnwrapKeyError (Key2 × Buffer) :=
  if h : TLS_CRYPT_V2_CLIENT_KEY_LEN ≤ plain.length then
    match bufWrite metadata (plain.drop TLS_CRYPT_V2_CLIENT_KEY_LEN) with
    | none => .error .metadataTooLarge
    | some metadata =>
      .ok (⟨2, plain.take TLS_CRYPT_V2_CLIENT_KEY_LEN, length_take_of_le h⟩, metadata)
  else .error .failedToReadClientKey

/-- `tls_crypt_v2_unwrap_client_key`: after an error the key is zero and the metadata
buffer as it was. -/
def tlsCryptV2UnwrapClientKey (metadata : Buffer) (wkc : Bytes) (server : TlsWrapKey κ η) :
    Option (Key2 × Buffer × Option UnwrapKeyError) :=
  (unwrapPlaintext P server wkc).map fun result =>
    match result.bind (readClientKey metadata) with
    | .error e => (Key2.zero, metadata, some e)
    | .ok (key, metadata) => (key, metadata, none)

/-- `tls_crypt_v2_verify_metadata`: the script sees the type and the file with the rest. -/
def tlsCryptV2VerifyMetadata (script : UInt8 → Bytes → Bool) : (metadata : Bytes) → Bool
  | [] => false
  | metadataType :: metadata => script metadataType metadata

/-- The key contexts are made by the crypto library: `init_key_ctx` of a direction. -/
def tlsCryptV2LoadClientKey (initKeyCtx : (encrypt : Bool) → Bytes → TlsWrapKey κ η)
    (opt : TlsWrapOptions κ η) (key : Key2) (tlsServer : Bool) : TlsWrapOptions κ η :=
  let first := key.keys.take KEY_SIZE
  let second := key.keys.drop KEY_SIZE
  -- `KEY_DIRECTION_NORMAL` sends with the first key, `KEY_DIRECTION_INVERSE` with the second
  { opt with
    encrypt := initKeyCtx true (if tlsServer then first else second)
    decrypt := initKeyCtx false (if tlsServer then second else first) }

/-- The context after an unwrapped key has been loaded. -/
def TlsWrapCtx.loadKey (ctx : TlsWrapCtx κ η)
    (initKeyCtx : (encrypt : Bool) → Bytes → TlsWrapKey κ η) (key : Key2) (metadata : Buffer) :
    TlsWrapCtx κ η :=
  { ctx with
    mode := .crypt
    cleanupKeyCtx := true
    opt := tlsCryptV2LoadClientKey initKeyCtx { ctx.opt with packetIdLongForm := true } key true
    metadata
    originalWrapKeydata := key }

/-- `opt->tls_crypt_v2_verify_script` decides, if there is one. -/
def verifyVerdict (verify : Option (UInt8 → Bytes → Bool)) (metadata : Bytes) : Bool :=
  match verify with
  | none => true
  | some script => tlsCryptV2VerifyMetadata script metadata

/-- `tls_crypt_v2_extract_client_key`; `none` is a failed assertion. -/
def tlsCryptV2ExtractClientKey (initKeyCtx : (encrypt : Bool) → Bytes → TlsWrapKey κ η)
    (buf : Buffer) (ctx : TlsWrapCtx κ η) (verify : Option (UInt8 → Bytes → Bool))
    (initialPacket : Bool) : Option (Buffer × TlsWrapCtx κ η × Bool) :=
  match ctx.serverKey with
  | none => some (buf, ctx, false)
  | some server =>
    if buf.contents.length < 2 then some (buf, ctx, false)
    else
      let wkcLen := beNat (netLenField buf.contents)
      match bufAdvanceSigned buf ((buf.contents.length : Int) - wkcLen) with
      | none => some (buf, ctx, false)
      | some wkc =>
        -- a resent packet: the key is set up already, only its wrapped form is cut off
        if initialPacket = false then
          (bufDecLen buf wkc.contents.length).map fun buf => (buf, ctx, true)
        else
          (allocBuf TLS_CRYPT_V2_MAX_METADATA_LEN).bind fun metadata =>
            (tlsCryptV2UnwrapClientKey P metadata wkc.contents server).bind fun
              | (_, metadata, some _) =>
                some (buf, { ctx with metadata, originalWrapKeydata := Key2.zero }, false)
              | (key, metadata, none) =>
                (bufDecLen buf wkc.contents.length).map fun buf =>
                  (buf, ctx.loadKey initKeyCtx key metadata, verifyVerdict verify metadata.contents)

/-! ## Buffers -/

variable {buf : Buffer} {packet wkc : Bytes}

theorem bufDecLen_isSome (h : buf.contents = packet ++ wkc) (hsize : wkc.length < BUF_SIZE_MAX) :
    ∃ buf', bufDecLen buf wkc.length = some buf' ∧ buf'.contents = packet := by
  have hle : wkc.length ≤ buf.contents.length := by
    rw [h, length_append]
    omega
  refine ⟨_, if_pos ⟨hsize, hle⟩, ?_⟩
  show buf.contents.take (buf.contents.length - wkc.length) = packet
  rw [h, length_append, Nat.add_sub_cancel, take_left]

theorem netLenField_append (h : 2 ≤ wkc.length) :
    netLenField (packet ++ wkc) = netLenField wkc := by
  have hsub : packet.length + wkc.length - 2 = packet.length + (wkc.length - 2) := by omega
  rw [netLenField, length_append, hsub, drop_length_add_append, netLenField]

theorem netLenField_concat {bs : Bytes} {field : Bytes} (h : field.length = 2) :
    netLenField (bs ++ field) = field := by
  rw [netLenField_append h.ge, netLenField, h, Nat.sub_self, drop_zero]

theorem bufAdvanceSigned_wkc (h : buf.contents = packet ++ wkc) :
    ∃ rest, bufAdvanceSigned buf ((buf.contents.length : Int) - wkc.length) = some rest ∧
      rest.contents = wkc := by
  have hsize : (buf.contents.length : Int) - wkc.length = packet.length := by
    rw [h, length_append]
    omega
  have hle : packet.length ≤ buf.contents.length := by
    rw [h, length_append]
    omega
  obtain ⟨rest, hrest, -, -, hcon⟩ := bufAdvance_isSome hle
  refine ⟨rest, ?_, ?_⟩
  · rw [hsize, bufAdvanceSigned, if_neg (by omega), Int.toNat_natCast, hrest]
  · rw [hcon, h, drop_left]

/-! ## What an unwrap accepts -/

/-- The length field, the tag and the plaintext of a wrapped key agree with the server
key, and the plaintext holds a client key. -/
structure ConsistentWkc (server : TlsWrapKey κ η) (wkc plain : Bytes) : Prop where
  length_le : wkc.length ≤ TLS_CRYPT_V2_MAX_WKC_LEN
  has_tag : TLS_CRYPT_TAG_SIZE + 2 ≤ wkc.length
  length_field : beNat (netLenField wkc) = wkc.length
  decrypted : P.decrypt server.cipher (wkc.take TLS_CRYPT_BLOCK_SIZE)
    ((wkc.take (wkc.length - 2)).drop TLS_CRYPT_TAG_SIZE) = some plain
  tag : wkc.take TLS_CRYPT_TAG_SIZE = P.hmac server.hmac (netLenField wkc ++ plain)
  has_key : TLS_CRYPT_V2_CLIENT_KEY_LEN ≤ plain.length

variable {P}

variable {server : TlsWrapKey κ η} {plain : Bytes}

theorem length_decrypted (h : P.decrypt server.cipher (wkc.take TLS_CRYPT_BLOCK_SIZE)
      ((wkc.take (wkc.length - 2)).drop TLS_CRYPT_TAG_SIZE) = some plain) :
    plain.length = wkc.length - 2 - TLS_CRYPT_TAG_SIZE := by
  rw [P.length_decrypt h, length_drop, length_take, min_eq_left (sub_le _ _)]

theorem unwrapPlaintext_decrypted (hmax : wkc.length ≤ TLS_CRYPT_V2_MAX_WKC_LEN)
    (htag : TLS_CRYPT_TAG_SIZE + 2 ≤ wkc.length) (hfld : beNat (netLenField wkc) = wkc.length)
    (hplain : P.decrypt server.cipher (wkc.take TLS_CRYPT_BLOCK_SIZE)
      ((wkc.take (wkc.length - 2)).drop TLS_CRYPT_TAG_SIZE) = some plain) :
    unwrapPlaintext P server wkc = some
      (if wkc.take TLS_CRYPT_TAG_SIZE = P.hmac server.hmac (netLenField wkc ++ plain) then
        .ok plain
      else .error .clientKeyAuthenticationError) := by
  have hlen := length_decrypted hplain
  obtain ⟨buf, hal, hoff, hcap, hemp⟩ :=
    allocBuf_isSome (show TLS_CRYPT_V2_MAX_WKC_LEN < BUF_SIZE_MAX by decide)
  have hfit : buf.offset + (buf.contents.length + plain.length) ≤ buf.capacity := by
    rw [hoff, hemp, hcap, length_nil]
    omega
  obtain ⟨buf', hext, -, -, hcon⟩ := bufExtend_isSome hfit
  rw [hemp, nil_append] at hcon
  rw [unwrapPlaintext, if_neg (not_lt.mpr hmax), if_neg (by omega),
    if_neg (not_not.mpr hfld), if_neg (by omega), hplain]
  dsimp only
  rw [hal, bind_some, hext, map_some, hcon]

theorem unwrapPlaintext_isSome (server : TlsWrapKey κ η) (wkc : Bytes) :
    ∃ result, unwrapPlaintext P server wkc = some result ∧
      ∀ plain, result = .ok plain → TLS_CRYPT_V2_CLIENT_KEY_LEN ≤ plain.length →
        ConsistentWkc P server wkc plain := by
  by_cases hmax : TLS_CRYPT_V2_MAX_WKC_LEN < wkc.length
  · exact ⟨_, if_pos hmax, fun _ h => by cases h⟩
  by_cases hlen : wkc.length < 2
  · exact ⟨_, by rw [unwrapPlaintext, if_neg hmax, if_pos hlen], fun _ h => by cases h⟩
  by_cases hfld : beNat (netLenField wkc) = wkc.length
  case neg =>
    exact ⟨_, by rw [unwrapPlaintext, if_neg hmax, if_neg hlen, if_pos hfld],
      fun _ h => by cases h⟩
  by_cases htag : wkc.length - 2 < TLS_CRYPT_TAG_SIZE
  · exact ⟨_, by rw [unwrapPlaintext, if_neg hmax, if_neg hlen, if_neg (not_not.mpr hfld),
      if_pos htag], fun _ h => by cases h⟩
  cases hplain : P.decrypt server.cipher (wkc.take TLS_CRYPT_BLOCK_SIZE)
      ((wkc.take (wkc.length - 2)).drop TLS_CRYPT_TAG_SIZE) with
  | none =>
    exact ⟨_, by rw [unwrapPlaintext, if_neg hmax, if_neg hlen, if_neg (not_not.mpr hfld),
      if_neg htag, hplain], fun _ h => by cases h⟩
  | some plain =>
    have hmax := not_lt.mp hmax
    have htag : TLS_CRYPT_TAG_SIZE + 2 ≤ wkc.length := by omega
    refine ⟨_, unwrapPlaintext_decrypted hmax htag hfld hplain, fun plain' hok hkey => ?_⟩
    split at hok
    case isFalse => cases hok
    case isTrue heq =>
      cases hok
      exact ⟨hmax, htag, hfld, hplain, heq, hkey⟩

variable {metadata : Buffer}

theorem readClientKey_isOk (hkey : TLS_CRYPT_V2_CLIENT_KEY_LEN ≤ plain.length)
    (hsize : plain.length < BUF_SIZE_MAX) (hroom : metadata.offset + metadata.contents.length +
      (plain.length - TLS_CRYPT_V2_CLIENT_KEY_LEN) ≤ metadata.capacity) :
    ∃ key metadata', readClientKey metadata plain = .ok (key, metadata') ∧ key.n = 2 ∧
      key.keys = plain.take TLS_CRYPT_V2_CLIENT_KEY_LEN ∧
      metadata'.contents = metadata.contents ++ plain.drop TLS_CRYPT_V2_CLIENT_KEY_LEN := by
  obtain ⟨metadata', hwr, -, -, hcon⟩ :=
    bufWrite_isSome metadata (plain.drop TLS_CRYPT_V2_CLIENT_KEY_LEN)
      (by rw [length_drop]; omega) (by rw [length_drop]; omega)
  refine ⟨⟨2, plain.take TLS_CRYPT_V2_CLIENT_KEY_LEN, length_take_of_le hkey⟩, metadata', ?_,
    rfl, rfl, hcon⟩
  rw [readClientKey, dif_pos hkey, hwr]

theorem readClientKey_has_key {r : Key2 × Buffer} (h : readClientKey metadata plain = .ok r) :
    TLS_CRYPT_V2_CLIENT_KEY_LEN ≤ plain.length := by
  unfold readClientKey at h
  split at h
  case isTrue hkey => exact hkey
  case isFalse => cases h

/-- **Consistent keys are unwrapped.** The metadata buffer of the server has room for
whatever a wrapped key can hold. -/
theorem tlsCryptV2UnwrapClientKey_consistent
    (hal : allocBuf TLS_CRYPT_V2_MAX_METADATA_LEN = some metadata)
    (h : ConsistentWkc P server wkc plain) :
    ∃ key metadata', tlsCryptV2UnwrapClientKey P metadata wkc server =
        some (key, metadata', none) ∧ key.n = 2 ∧
      key.keys = plain.take TLS_CRYPT_V2_CLIENT_KEY_LEN ∧
      metadata'.contents = plain.drop TLS_CRYPT_V2_CLIENT_KEY_LEN := by
  have hlen := length_decrypted h.decrypted
  have hmax := h.length_le
  obtain ⟨buf, halloc', hoff, hcap, hemp⟩ :=
    allocBuf_isSome (show TLS_CRYPT_V2_MAX_METADATA_LEN < BUF_SIZE_MAX by decide)
  cases hal.symm.trans halloc'
  simp only [TLS_CRYPT_V2_MAX_WKC_LEN, TLS_CRYPT_TAG_SIZE] at hmax hlen
  have hroom : metadata.offset + metadata.contents.length +
      (plain.length - TLS_CRYPT_V2_CLIENT_KEY_LEN) ≤ metadata.capacity := by
    rw [hoff, hemp, hcap, length_nil]
    simp only [TLS_CRYPT_V2_MAX_METADATA_LEN, TLS_CRYPT_V2_MAX_WKC_LEN, KEY_SIZE,
      TLS_CRYPT_V2_CLIENT_KEY_LEN, TLS_CRYPT_V2_TAG_SIZE, TLS_CRYPT_TAG_SIZE]
    omega
  obtain ⟨key, metadata', hread, hn, hkeys, hcon⟩ :=
    readClientKey_isOk h.has_key (by rw [BUF_SIZE_MAX]; omega) hroom
  rw [hemp, nil_append] at hcon
  refine ⟨key, metadata', ?_, hn, hkeys, hcon⟩
  rw [tlsCryptV2UnwrapClientKey,
    unwrapPlaintext_decrypted h.length_le h.has_tag h.length_field h.decrypted, if_pos h.tag]
  simp only [map_some, Except.bind, hread]

/-- **Everything else is rejected**, with a zero key. -/
theorem tlsCryptV2UnwrapClientKey_rejected (metadata : Buffer)
    (h : ∀ plain, ¬ConsistentWkc P server wkc plain) :
    ∃ e, tlsCryptV2UnwrapClientKey P metadata wkc server = some (Key2.zero, metadata, some e) := by
  obtain ⟨result, hres, hok⟩ := unwrapPlaintext_isSome (P := P) server wkc
  cases hread : result.bind (readClientKey metadata) with
  | error e =>
    refine ⟨e, ?_⟩
    rw [tlsCryptV2UnwrapClientKey, hres, map_some, hread]
  | ok r =>
    cases result with
    | error e => cases hread
    | ok plain => exact absurd (hok plain rfl (readClientKey_has_key hread)) (h plain)

/-! ## What a wrap writes -/

variable (P) in
/-- The wrapped form of a client key with its metadata. -/
def wrappedClientKey (server : TlsWrapKey κ η) (keys metadata : Bytes) : Bytes :=
  let tag := P.hmac server.hmac (wkcNetLen metadata ++ keys ++ metadata)
  tag ++ P.encrypt server.cipher (tag.take TLS_CRYPT_BLOCK_SIZE) (keys ++ metadata) ++
    wkcNetLen metadata

theorem length_wrappedClientKey (server : TlsWrapKey κ η) (key : Key2) (metadata : Bytes) :
    (wrappedClientKey P server key.keys metadata).length =
      TLS_CRYPT_V2_CLIENT_KEY_LEN + metadata.length + TLS_CRYPT_V2_TAG_SIZE + 2 := by
  simp only [wrappedClientKey, length_append, P.length_hmac, P.length_encrypt,
    key.length_keys, wkcNetLen, beBytes_length, TLS_CRYPT_V2_TAG_SIZE]
  omega

/-- What `tls_crypt_v2_wrap_client_key` appends is a consistent wrapped key. -/
theorem tlsCryptV2WrapClientKey_spec {block : Nat} {wkc : Buffer} (key : Key2) {metadata : Bytes}
    (server : TlsWrapKey κ η) (hblk : TLS_CRYPT_V2_MAX_WKC_LEN + block < BUF_SIZE_MAX)
    (hlen : metadata.length ≤ TLS_CRYPT_V2_MAX_METADATA_LEN)
    (hroom : wkc.offset + wkc.contents.length +
      (TLS_CRYPT_V2_CLIENT_KEY_LEN + metadata.length + TLS_CRYPT_V2_TAG_SIZE + 2) ≤
        wkc.capacity) :
    ∃ wkc', tlsCryptV2WrapClientKey P block wkc key metadata server = some (wkc', true) ∧
      wkc'.contents = wkc.contents ++ wrappedClientKey P server key.keys metadata := by
  have hkeys := key.length_keys
  simp only [TLS_CRYPT_V2_MAX_METADATA_LEN, TLS_CRYPT_V2_MAX_WKC_LEN, KEY_SIZE, BUF_SIZE_MAX,
    TLS_CRYPT_V2_CLIENT_KEY_LEN, TLS_CRYPT_V2_TAG_SIZE, TLS_CRYPT_TAG_SIZE] at *
  obtain ⟨work, hal, hoff, hcap, hemp⟩ := allocBuf_isSome hblk
  have hnet : (wkcNetLen metadata).length = 2 := beBytes_length _ _
  generalize htag : P.hmac server.hmac (wkcNetLen metadata ++ key.keys ++ metadata) = tag
  have hlenTag : tag.length = 32 := htag ▸ P.length_hmac _ _
  generalize hct : P.encrypt server.cipher (tag.take TLS_CRYPT_BLOCK_SIZE) (key.keys ++ metadata) =
    ct
  have hlenCt : ct.length = 256 + metadata.length := by
    rw [← hct, P.length_encrypt, length_append, hkeys]
  obtain ⟨work1, hwrite1, hoff1, hcap1, hcon1⟩ := bufWrite_isSome work tag
    (by rw [BUF_SIZE_MAX]; omega) (by rw [hemp, length_nil]; omega)
  rw [hemp, nil_append] at hcon1
  have hlen1 : (work1.contents ++ (ct ++ wkcNetLen metadata)).length =
      32 + (256 + metadata.length) + 2 := by
    rw [hcon1, length_append, length_append, hlenTag, hlenCt, hnet]
    omega
  have hfit : work1.offset + (work1.contents.length + (ct ++ wkcNetLen metadata).length) ≤
      work1.capacity := by
    rw [← length_append, hlen1]
    omega
  obtain ⟨work3, hout, -, -, hcon3⟩ := bufExtend_isSome hfit
  rw [← bufExtend_bind] at hout
  obtain ⟨work2, hext, hwrite3⟩ := bind_eq_some_iff.mp hout
  rw [← bufWrite_eq_extend work2 (by rw [hnet]; decide)] at hwrite3
  obtain ⟨wkc', hcopy, -, -, hcon⟩ := bufWrite_isSome wkc work3.contents
    (by rw [hcon3, hlen1, BUF_SIZE_MAX]; omega) (by rw [hcon3, hlen1]; omega)
  refine ⟨wkc', ?_, ?_⟩
  · have hsp : ¬work1.capacity - (work1.offset + work1.contents.length) <
        TLS_CRYPT_V2_CLIENT_KEY_LEN + metadata.length + 2 + block := by
      rw [hcon1, TLS_CRYPT_V2_CLIENT_KEY_LEN, KEY_SIZE]
      omega
    rw [tlsCryptV2WrapClientKey, TLS_CRYPT_V2_MAX_WKC_LEN, hal, bind_some]
    simp only [htag, hwrite1, if_neg hsp, hct, hext, bind_some, hwrite3, map_some, hcopy]
  · rw [hcon, hcon3, hcon1, wrappedClientKey, htag, hct, append_assoc]

/-- **What is wrapped is consistent**, with the key and the metadata as plaintext. -/
theorem wrappedClientKey_consistent {key : Key2} {metadata : Bytes}
    (hlen : metadata.length ≤ TLS_CRYPT_V2_MAX_METADATA_LEN) :
    ConsistentWkc P server (wrappedClientKey P server key.keys metadata)
      (key.keys ++ metadata) := by
  have hkeys := key.length_keys
  have hlg := length_wrappedClientKey (P := P) server key metadata
  have hnet : (wkcNetLen metadata).length = 2 := beBytes_length _ _
  have hmax : TLS_CRYPT_V2_CLIENT_KEY_LEN + metadata.length + TLS_CRYPT_V2_TAG_SIZE + 2 ≤
      TLS_CRYPT_V2_MAX_WKC_LEN := by
    simp only [TLS_CRYPT_V2_MAX_METADATA_LEN, TLS_CRYPT_V2_MAX_WKC_LEN, KEY_SIZE,
      TLS_CRYPT_V2_CLIENT_KEY_LEN, TLS_CRYPT_V2_TAG_SIZE, TLS_CRYPT_TAG_SIZE] at *
    omega
  generalize htag : P.hmac server.hmac (wkcNetLen metadata ++ key.keys ++ metadata) = tag
  have hlenTag : tag.length = TLS_CRYPT_TAG_SIZE := htag ▸ P.length_hmac _ _
  have hwrapped : wrappedClientKey P server key.keys metadata =
      tag ++ P.encrypt server.cipher (tag.take TLS_CRYPT_BLOCK_SIZE) (key.keys ++ metadata) ++
        wkcNetLen metadata := by
    rw [wrappedClientKey, htag]
  have hfld : netLenField (wrappedClientKey P server key.keys metadata) = wkcNetLen metadata := by
    rw [hwrapped, netLenField_concat hnet]
  have hbody : (wrappedClientKey P server key.keys metadata).take
      ((wrappedClientKey P server key.keys metadata).length - 2) =
        tag ++ P.encrypt server.cipher (tag.take TLS_CRYPT_BLOCK_SIZE) (key.keys ++ metadata) := by
    rw [hwrapped, length_append, hnet, Nat.add_sub_cancel, take_left]
  refine ⟨hlg ▸ hmax, ?_, ?_, ?_, ?_, ?_⟩
  · rw [hlg, TLS_CRYPT_V2_TAG_SIZE]
    omega
  · have hsm : TLS_CRYPT_V2_MAX_WKC_LEN < 256 ^ 2 := by decide
    rw [hfld, hlg, wkcNetLen, beNat_beBytes, mod_eq_of_lt (by omega)]
  · have hiv : (wrappedClientKey P server key.keys metadata).take TLS_CRYPT_BLOCK_SIZE =
        tag.take TLS_CRYPT_BLOCK_SIZE := by
      rw [hwrapped, append_assoc]
      exact take_append_of_le_length (by rw [hlenTag]; decide)
    rw [hbody, hiv, drop_left' hlenTag, P.decrypt_encrypt]
  · rw [hfld, hwrapped, append_assoc, take_left' hlenTag, ← htag, append_assoc]
  · rw [length_append, hkeys]
    omega

/-! ## What an extraction does -/

theorem bufAdvanceSigned_cases (buf : Buffer) (wkcLen : Nat) :
    (buf.contents.length < wkcLen ∧
        bufAdvanceSigned buf ((buf.contents.length : Int) - wkcLen) = none) ∨
      ∃ packet wkc rest, buf.contents = packet ++ wkc ∧ wkc.length = wkcLen ∧
        bufAdvanceSigned buf ((buf.contents.length : Int) - wkcLen) = some rest ∧
        rest.contents = wkc := by
  by_cases hlong : buf.contents.length < wkcLen
  · exact .inl ⟨hlong, by rw [bufAdvanceSigned, if_pos (by omega)]⟩
  · right
    have hspl := (take_append_drop (buf.contents.length - wkcLen) buf.contents).symm
    have hlen : (buf.contents.drop (buf.contents.length - wkcLen)).length = wkcLen := by
      rw [length_drop]
      omega
    obtain ⟨rest, hrest, hcon⟩ := bufAdvanceSigned_wkc hspl
    rw [hlen] at hrest
    exact ⟨_, _, rest, hspl, hlen, hrest, hcon⟩

variable {initKeyCtx : (encrypt : Bool) → Bytes → TlsWrapKey κ η} {ctx : TlsWrapCtx κ η}
  {verify : Option (UInt8 → Bytes → Bool)}

theorem tlsCryptV2ExtractClientKey_consistent (hsrv : ctx.serverKey = some server)
    (hbuf : buf.contents = packet ++ wkc) (h : ConsistentWkc P server wkc plain) :
    ∃ buf' key metadata, tlsCryptV2ExtractClientKey P initKeyCtx buf ctx verify true =
        some (buf', ctx.loadKey initKeyCtx key metadata, verifyVerdict verify metadata.contents) ∧
      buf'.contents = packet ∧ key.n = 2 ∧
      key.keys = plain.take TLS_CRYPT_V2_CLIENT_KEY_LEN ∧
      metadata.contents = plain.drop TLS_CRYPT_V2_CLIENT_KEY_LEN := by
  have htwo : 2 ≤ wkc.length := by
    have := h.has_tag
    omega
  have hlen : ¬buf.contents.length < 2 := by
    rw [hbuf, length_append]
    omega
  have hfld : beNat (netLenField buf.contents) = wkc.length := by
    rw [hbuf, netLenField_append htwo, h.length_field]
  have hsize : wkc.length < BUF_SIZE_MAX := lt_of_le_of_lt h.length_le (by decide)
  obtain ⟨rest, hrest, hcon⟩ := bufAdvanceSigned_wkc hbuf
  obtain ⟨empty, hal, -⟩ :=
    allocBuf_isSome (show TLS_CRYPT_V2_MAX_METADATA_LEN < BUF_SIZE_MAX by decide)
  obtain ⟨key, metadata, hunwrap, hn, hkeys, hmeta⟩ :=
    tlsCryptV2UnwrapClientKey_consistent hal h
  obtain ⟨buf', hdec, hpk⟩ := bufDecLen_isSome hbuf hsize
  refine ⟨buf', key, metadata, ?_, hpk, hn, hkeys, hmeta⟩
  simp [tlsCryptV2ExtractClientKey, hsrv, hlen, hfld, hrest, hcon, hal, hunwrap, hdec]

/-- Nothing of a key is in the context: what it encrypts with is what it was. -/
structure NoKeyInstalled (before after : TlsWrapCtx κ η) : Prop where
  mode : after.mode = before.mode
  opt : after.opt = before.opt
  cleanup : after.cleanupKeyCtx = before.cleanupKeyCtx
  keydata : after.originalWrapKeydata = before.originalWrapKeydata ∨
    after.originalWrapKeydata = Key2.zero

variable (P) in
/-- The end of the packet is a wrapped key the server can read. -/
def EndsInClientKey (ctx : TlsWrapCtx κ η) (bytes : Bytes) : Prop :=
  ∃ server packet wkc plain, ctx.serverKey = some server ∧ bytes = packet ++ wkc ∧
    ConsistentWkc P server wkc plain

theorem tlsCryptV2ExtractClientKey_rejected (h : ¬EndsInClientKey P ctx buf.contents) :
    ∃ ctx', tlsCryptV2ExtractClientKey P initKeyCtx buf ctx verify true =
      some (buf, ctx', false) ∧ NoKeyInstalled ctx ctx' := by
  have hsame : NoKeyInstalled ctx ctx := ⟨rfl, rfl, rfl, .inl rfl⟩
  cases hsrv : ctx.serverKey with
  | none => exact ⟨ctx, by simp [tlsCryptV2ExtractClientKey, hsrv], hsame⟩
  | some server =>
    by_cases hlen : buf.contents.length < 2
    · exact ⟨ctx, by simp [tlsCryptV2ExtractClientKey, hsrv, hlen], hsame⟩
    rcases bufAdvanceSigned_cases buf (beNat (netLenField buf.contents)) with
      ⟨-, hnone⟩ | ⟨packet, wkc, rest, hbuf, -, hrest, hcon⟩
    · exact ⟨ctx, by simp [tlsCryptV2ExtractClientKey, hsrv, hlen, hnone], hsame⟩
    have hbad : ∀ plain, ¬ConsistentWkc P server wkc plain := fun plain hplain =>
      h ⟨server, packet, wkc, plain, hsrv, hbuf, hplain⟩
    obtain ⟨empty, hal, -⟩ :=
      allocBuf_isSome (show TLS_CRYPT_V2_MAX_METADATA_LEN < BUF_SIZE_MAX by decide)
    obtain ⟨e, hunwrap⟩ := tlsCryptV2UnwrapClientKey_rejected empty hbad
    refine ⟨{ ctx with metadata := empty, originalWrapKeydata := Key2.zero }, ?_, rfl, rfl, rfl,
      .inr rfl⟩
    simp [tlsCryptV2ExtractClientKey, hsrv, hlen, hrest, hcon, hal, hunwrap]

theorem tlsCryptV2ExtractClientKey_resent (buf : Buffer) :
    ∃ buf' ret, tlsCryptV2ExtractClientKey P initKeyCtx buf ctx verify false =
        some (buf', ctx, ret) ∧
      (ret = true ↔ ctx.serverKey.isSome ∧ 2 ≤ buf.contents.length ∧
        beNat (netLenField buf.contents) ≤ buf.contents.length) := by
  cases hsrv : ctx.serverKey with
  | none => exact ⟨buf, false, by simp [tlsCryptV2ExtractClientKey, hsrv]⟩
  | some server =>
    by_cases hlen : buf.contents.length < 2
    · exact ⟨buf, false, by simp [tlsCryptV2ExtractClientKey, hsrv, hlen]⟩
    rcases bufAdvanceSigned_cases buf (beNat (netLenField buf.contents)) with
      ⟨hlong, hnone⟩ | ⟨packet, wkc, rest, hbuf, hwkc, hrest, hcon⟩
    · exact ⟨buf, false, by simp [tlsCryptV2ExtractClientKey, hsrv, hlen, hnone, hlong]⟩
    have hsize : wkc.length < BUF_SIZE_MAX := by
      have hlt := beNat_lt (netLenField buf.contents)
      have htwo : (netLenField buf.contents).length = 2 := by
        rw [netLenField, length_drop]
        omega
      rw [htwo] at hlt
      rw [BUF_SIZE_MAX]
      omega
    obtain ⟨buf', hdec, -⟩ := bufDecLen_isSome hbuf hsize
    have hle : beNat (netLenField buf.contents) ≤ buf.contents.length := by
      rw [← hwkc, hbuf, length_append]
      omega
    refine ⟨buf', true, ?_, ?_⟩
    · simp [tlsCryptV2ExtractClientKey, hsrv, hlen, hrest, hcon, hdec]
    · simpa using ⟨not_lt.mp hlen, hle⟩

/-- **Client keys.** What a wrap appends to a first packet is found again: the key and the
metadata come out, and the packet is what stood in front. Any other end of a first packet
is refused without a key. A resent packet installs nothing. Nothing aborts. -/
theorem extract_client_key (P : TlsCryptPrimitives κ η)
    (initKeyCtx : (encrypt : Bool) → Bytes → TlsWrapKey κ η)
    (verify : Option (UInt8 → Bytes → Bool)) (ctx : TlsWrapCtx κ η) :
    (∀ server, ctx.serverKey = some server →
      ∀ (block : Nat) (wkc : Buffer) (key : Key2) (metadata : Bytes),
        TLS_CRYPT_V2_MAX_WKC_LEN + block < BUF_SIZE_MAX →
        metadata.length ≤ TLS_CRYPT_V2_MAX_METADATA_LEN →
        wkc.offset + wkc.contents.length +
          (TLS_CRYPT_V2_CLIENT_KEY_LEN + metadata.length + TLS_CRYPT_V2_TAG_SIZE + 2) ≤
            wkc.capacity →
        ∃ wkc' wrapped,
          tlsCryptV2WrapClientKey P block wkc key metadata server = some (wkc', true) ∧
          wkc'.contents = wkc.contents ++ wrapped ∧
          ∀ (buf : Buffer) (packet : Bytes), buf.contents = packet ++ wrapped →
            ∃ buf' key' metadata', tlsCryptV2ExtractClientKey P initKeyCtx buf ctx verify true =
                some (buf', ctx.loadKey initKeyCtx key' metadata', verifyVerdict verify metadata) ∧
              buf'.contents = packet ∧ key'.n = 2 ∧ key'.keys = key.keys ∧
              metadata'.contents = metadata) ∧
    (∀ buf : Buffer, ¬EndsInClientKey P ctx buf.contents →
      ∃ ctx', tlsCryptV2ExtractClientKey P initKeyCtx buf ctx verify true =
        some (buf, ctx', false) ∧ NoKeyInstalled ctx ctx') ∧
    (∀ buf : Buffer, ∃ buf' ret,
      tlsCryptV2ExtractClientKey P initKeyCtx buf ctx verify false = some (buf', ctx, ret) ∧
        (ret = true ↔ ctx.serverKey.isSome ∧ 2 ≤ buf.contents.length ∧
          beNat (netLenField buf.contents) ≤ buf.contents.length)) ∧
    ∀ (buf : Buffer) (initialPacket : Bool),
      (tlsCryptV2ExtractClientKey P initKeyCtx buf ctx verify initialPacket).isSome := by
  refine ⟨?_, fun buf h => tlsCryptV2ExtractClientKey_rejected h, ?_, ?_⟩
  · intro server hserver block wkc key metadata hblock hlen hroom
    obtain ⟨wkc', hwrap, hcontents⟩ :=
      tlsCryptV2WrapClientKey_spec (P := P) key server hblock hlen hroom
    refine ⟨wkc', _, hwrap, hcontents, fun buf packet hbuf => ?_⟩
    obtain ⟨buf', key', metadata', hextract, hpacket, hn, hkeys, hmetadata⟩ :=
      tlsCryptV2ExtractClientKey_consistent hserver hbuf
        (wrappedClientKey_consistent hlen)
    rw [take_left' key.length_keys] at hkeys
    rw [drop_left' key.length_keys] at hmetadata
    rw [hmetadata] at hextract
    exact ⟨buf', key', metadata', hextract, hpacket, hn, hkeys, hmetadata⟩
  · intro buf
    exact tlsCryptV2ExtractClientKey_resent buf
  · intro buf initialPacket
    cases initialPacket with
    | false =>
      obtain ⟨buf', ret, hresent, -⟩ := tlsCryptV2ExtractClientKey_resent buf
      exact isSome_of_eq_some hresent
    | true =>
      by_cases hend : EndsInClientKey P ctx buf.contents
      · obtain ⟨server, packet, wkc, plain, hserver, hbuf, hplain⟩ := hend
        obtain ⟨buf', key, metadata, hextract, -⟩ :=
          tlsCryptV2ExtractClientKey_consistent hserver hbuf hplain
        exact isSome_of_eq_some hextract
      · obtain ⟨ctx', hextract, -⟩ := tlsCryptV2ExtractClientKey_rejected hend
        exact isSome_of_eq_some hextract

theorem sampleWkc_fits : 0 + ([] : Bytes).length ≤ TLS_CRYPT_V2_MAX_WKC_LEN := by decide

def sampleWkc : Buffer := ⟨TLS_CRYPT_V2_MAX_WKC_LEN, 0, [], sampleWkc_fits⟩

theorem twoZeros_fit : 0 + ([0, 0] : Bytes).length ≤ 2 := by decide

def twoZeros : Buffer := ⟨2, 0, [0, 0], twoZeros_fit⟩

/-- A server that waits for its first packet. -/
def sampleWrapCtx : TlsWrapCtx Unit Unit :=
  { mode := .none, opt := sampleWrapOptions, serverKey := some ⟨(), ()⟩, metadata := sampleWkc
    cleanupKeyCtx := false, originalWrapKeydata := Key2.zero }

def sampleKey : Key2 := ⟨2, replicate TLS_CRYPT_V2_CLIENT_KEY_LEN 7, length_replicate⟩

/-- A key with metadata, behind any packet. -/
theorem extract_client_key_metadata : ∃ wkc' wrapped,
    tlsCryptV2WrapClientKey nullPrimitives 16 sampleWkc sampleKey [1, 9] ⟨(), ()⟩ =
        some (wkc', true) ∧
      wkc'.contents = sampleWkc.contents ++ wrapped ∧
      ∀ (buf : Buffer) (packet : Bytes), buf.contents = packet ++ wrapped →
        ∃ buf' key' metadata',
          tlsCryptV2ExtractClientKey nullPrimitives (fun _ _ => ⟨(), ()⟩) buf sampleWrapCtx none
              true =
            some (buf', sampleWrapCtx.loadKey (fun _ _ => ⟨(), ()⟩) key' metadata', true) ∧
          buf'.contents = packet ∧ key'.n = 2 ∧ key'.keys = sampleKey.keys ∧
          metadata'.contents = [1, 9] :=
  (extract_client_key nullPrimitives (fun _ _ => ⟨(), ()⟩) none sampleWrapCtx).1 _ rfl 16
    sampleWkc sampleKey [1, 9] (by decide) (by decide) (by decide)

/-- Two zero bytes in a resent packet: true, although there is no wrapped key. -/
theorem resent_bytes_accepted :
    tlsCryptV2ExtractClientKey nullPrimitives (fun _ _ => ⟨(), ()⟩) twoZeros sampleWrapCtx none
        false = some (twoZeros, sampleWrapCtx, true) ∧
      ¬EndsInClientKey nullPrimitives sampleWrapCtx twoZeros.contents := by
  refine ⟨rfl, ?_⟩
  intro ⟨server, packet, wkc, plain, _, hbytes, hplain⟩
  have hlen := congrArg length hbytes
  have htag := hplain.has_tag
  rw [length_append] at hlen
  simp only [twoZeros, length_cons, length_nil, TLS_CRYPT_TAG_SIZE] at hlen htag
  omega

end TlsCryptV2

end OpenVpn
