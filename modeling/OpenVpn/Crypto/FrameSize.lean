import OpenVpn.Base.CString
import OpenVpn.Control.Ciphertext
import OpenVpn.Crypto.DataChannel
import OpenVpn.Server.Address

/-!
# Sizes of fragments and segments (`mss.c`, `mtu.c`)

`--fragment` and `--mssfix` limit the size of the packets on the link. What is left for
the payload is computed in `size_t`, from the cipher and the digest.

* `frameCalculateDynamic` — the computation, with its wrap-around.
* `encryptedSize` — the size of an encrypted packet; `aeadPacket_length` and
  `v1Packet_length` say that packets have it.
* `frame_sizes_ok_iff` — when the sizes are right.
-/

namespace OpenVpn.DataChannel

open Base List Option Nat Int

def OPENVPN_MAX_HMAC_SIZE : Nat := 64
def OPENVPN_MAX_BLOCK_LENGTH : Nat := 32

/-- The mode of a cipher. -/
inductive CipherKtMode
  | cbc
  | ofbCfb
  | aead
  deriving DecidableEq

/-- What the libraries say of a cipher. -/
structure CipherKt where
  mode : CipherKtMode
  ivSize : Nat
  blockSize : Nat
  iv_le : ivSize ≤ OPENVPN_MAX_IV_LENGTH
  block_pos : 0 < blockSize
  block_le : blockSize ≤ OPENVPN_MAX_BLOCK_LENGTH

/-- `struct key_type`: the cipher and the size of the digest, if there are any. -/
structure FrameKeyType where
  cipher : Option CipherKt
  digest : Option Nat
  digest_le : ∀ size ∈ digest, size ≤ OPENVPN_MAX_HMAC_SIZE

namespace FrameKeyType

variable (kt : FrameKeyType)

def hasMode (mode : CipherKtMode) : Bool := kt.cipher.any fun c => decide (c.mode = mode)

def modeCbc : Bool := kt.hasMode .cbc
def modeOfbCfb : Bool := kt.hasMode .ofbCfb
def modeAead : Bool := kt.hasMode .aead

def blockSize : Nat := (kt.cipher.map CipherKt.blockSize).getD 0

def tagSize : Nat := if kt.modeAead then OPENVPN_AEAD_TAG_LENGTH else 0

end FrameKeyType

/-- `options->comp.alg`. -/
inductive CompOption
  | undef
  | stub
  | lzo
  | lz4
  | uncompressedV2
  | lz4V2
  deriving DecidableEq

/-- The options the sizes depend on. -/
structure FrameOptions where
  tlsServer : Bool
  tlsClient : Bool
  usePeerId : Bool
  socksProxyServer : Bool
  compAlg : CompOption
  af : SaFamily
  proto : ProtoNum
  fragment : Nat
  fragmentEncap : Bool
  mssfix : Nat
  mssfixEncap : Bool
  mssfixFixed : Bool
  mssfixDefault : Bool
  deriving DecidableEq

def FrameOptions.tlsmode (o : FrameOptions) : Bool := o.tlsServer || o.tlsClient

/-- `struct link_socket_info`, with the family of the peer. -/
structure LinkSocketInfo where
  af : SaFamily
  proto : ProtoNum

/-- `struct frame`. -/
structure MtuFrame where
  mssFix : Nat
  maxFragmentSize : Int
  extraTun : Nat
  deriving DecidableEq

/-! ## The options -/

/-- `--fragment` and `--mssfix` with the number, as `positive_atoi` returns it, and the
flag. -/
inductive FrameOption
  | fragment (value : Fin (2 ^ 31)) (flag : Option Bytes)
  | mssfix (value : Option (Fin (2 ^ 31))) (flag : Option Bytes)

/-- The flag of `--mssfix`. -/
def setMssfixFlag (o : FrameOptions) (flag : Option Bytes) : FrameOptions :=
  if flag = some (ascii "mtu") then { o with mssfixEncap := true }
  else if flag = some (ascii "fixed") then { o with mssfixFixed := true }
  else o

/-- `--fragment` in `add_option`; `none` is an error. -/
def addFragment (o : FrameOptions) (value : Nat) (flag : Option Bytes) : Option FrameOptions :=
  if value < 68 then none
  else if flag = some (ascii "mtu") then
    some { o with fragment := value, fragmentEncap := true }
  else some { o with fragment := value }

/-- `--mssfix` in `add_option`. -/
def addMssfix (o : FrameOptions) (value : Option Nat) (flag : Option Bytes) : Option FrameOptions :=
  match value with
  | some value =>
    if value ≠ 0 ∧ (value < TLS_CHANNEL_MTU_MIN ∨ UINT16_MAX < value) then none
    else
      some (setMssfixFlag
        { o with mssfix := value, mssfixEncap := false, mssfixDefault := false } flag)
  | none =>
    some (setMssfixFlag
      { o with mssfixDefault := true, mssfixEncap := true, mssfixFixed := false } flag)

def addFrameOption (o : FrameOptions) : FrameOption → Option FrameOptions
  | .fragment value flag => addFragment o value flag
  | .mssfix value flag => addMssfix o (value.map Fin.val) flag

/-- The values the parser lets through. -/
structure FrameOptions.Admitted (o : FrameOptions) : Prop where
  fragment : o.fragment = 0 ∨ 68 ≤ o.fragment ∧ o.fragment < 2 ^ 31
  mssfix : o.mssfix = 0 ∨ TLS_CHANNEL_MTU_MIN ≤ o.mssfix ∧ o.mssfix ≤ UINT16_MAX

variable {o o' : FrameOptions} {flag : Option Bytes}

theorem setMssfixFlag_admitted (ho : o.Admitted) : (setMssfixFlag o flag).Admitted := by
  unfold setMssfixFlag
  split
  · exact ⟨ho.fragment, ho.mssfix⟩
  · split
    · exact ⟨ho.fragment, ho.mssfix⟩
    · exact ho

theorem addFragment_admitted {value : Nat} (ho : o.Admitted) (hv : value < 2 ^ 31)
    (h : addFragment o value flag = some o') : o'.Admitted := by
  unfold addFragment at h
  split at h
  case isTrue => cases h
  case isFalse hmin =>
    split at h <;> cases h <;> exact ⟨.inr ⟨Nat.le_of_not_lt hmin, hv⟩, ho.mssfix⟩

theorem addMssfix_admitted {value : Option Nat} (ho : o.Admitted)
    (h : addMssfix o value flag = some o') : o'.Admitted := by
  unfold addMssfix at h
  split at h
  case h_1 value =>
    split at h
    case isTrue => cases h
    case isFalse hv =>
      cases h
      apply setMssfixFlag_admitted
      refine ⟨ho.fragment, ?_⟩
      show value = 0 ∨ TLS_CHANNEL_MTU_MIN ≤ value ∧ value ≤ UINT16_MAX
      omega
  case h_2 =>
    cases h
    apply setMssfixFlag_admitted
    exact ⟨ho.fragment, ho.mssfix⟩

theorem addFrameOption_admitted {option : FrameOption} (ho : o.Admitted)
    (h : addFrameOption o option = some o') : o'.Admitted := by
  cases option with
  | fragment value flag => exact addFragment_admitted ho value.isLt h
  | mssfix value flag => exact addMssfix_admitted ho h

theorem parsed_admitted {options : List FrameOption} (ho : o.Admitted)
    (h : options.foldlM addFrameOption o = some o') : o'.Admitted := by
  induction options generalizing o with
  | nil =>
    cases h
    exact ho
  | cons option options ih =>
    rw [foldlM_cons] at h
    obtain ⟨o1, hadd, hrest⟩ := bind_eq_some_iff.mp h
    exact ih (addFrameOption_admitted ho hadd) hrest

/-! ## The computation -/

/-- Conversion to `size_t` and to `uint16_t`. -/
def sizeT (z : Int) : Nat := (z % 2 ^ 64).toNat
def uint16T (z : Int) : Nat := (z % 2 ^ 16).toNat

/-- `clamp_size_to_int`: `none` is the failed assertion. -/
def clampSizeToInt (size : Nat) : Option Int := if size < 2 ^ 31 then some size else none

def roundDownSize (num multiple : Nat) : Nat := num / multiple * multiple

def datagramOverhead (af : SaFamily) (proto : ProtoNum) : Nat :=
  (if proto = .udp then 8 else 20) + (if af = .inet then 20 else 40)

section Sizes

variable (o : FrameOptions) (kt : FrameKeyType)

/-- Whether packet ids have the long form. -/
def longFormDc : Bool := !o.tlsmode || kt.modeOfbCfb

def calcPacketIdSizeDc : Nat := packetIdSize (longFormDc o kt)

/-- `calculate_crypto_overhead` without the parts that only old peers count. -/
def calculateCryptoOverhead (kt : FrameKeyType) (pktIdSize : Nat) : Nat :=
  (if kt.modeCbc then 0 else pktIdSize) +
    if kt.modeAead then kt.tagSize
    else (kt.cipher.map CipherKt.ivSize).getD 0 + kt.digest.getD 0

/-- The headers in front of what is encrypted: of the SOCKS proxy, the length of a packet
in a stream, the opcode with the peer id. -/
def plainHeaderSize : Nat :=
  (if o.socksProxyServer ∧ o.proto = .udp then 10 else 0) +
    (if o.proto = .tcpClient ∨ o.proto = .tcpServer then 2 else 0) +
    if o.tlsmode then (if o.usePeerId then 4 else 1) else 0

def frameCalculateProtocolHeaderSize : Nat :=
  plainHeaderSize o + calculateCryptoOverhead kt (calcPacketIdSizeDc o kt)

/-- The packet id of CBC mode, which is part of the plaintext. -/
def cbcIdSize : Nat := if kt.modeCbc then calcPacketIdSizeDc o kt else 0

/-- What is encrypted with a packet: the Ethernet header, the headers of compression and
fragmentation. -/
def innerHeaderSize (extraTun : Nat) : Nat :=
  extraTun + (if o.compAlg = .lz4 ∨ o.compAlg = .stub ∨ o.compAlg = .lzo then 1 else 0) +
    if o.fragment = 0 then 0 else 4

def frameCalculatePayloadOverhead (extraTun : Nat) : Nat :=
  innerHeaderSize o extraTun + cbcIdSize o kt

def adjustPayloadMaxCbc (kt : FrameKeyType) (target : Nat) : Nat :=
  if kt.modeCbc then sizeT ((roundDownSize target kt.blockSize : Int) - 1) else target

variable (lsi : Option LinkSocketInfo)

def getIpEncapOverhead : Nat :=
  match lsi with
  | some lsi => datagramOverhead lsi.af lsi.proto
  | none => datagramOverhead o.af o.proto

/-- The overhead without the part that is encrypted. -/
def linkOverhead (encap : Bool) : Nat :=
  frameCalculateProtocolHeaderSize o kt + if encap then getIpEncapOverhead o lsi else 0

def frameCalculateFragment (frame : MtuFrame) : Option MtuFrame :=
  let target := sizeT ((o.fragment : Int) - linkOverhead o kt lsi o.fragmentEncap)
  (clampSizeToInt (adjustPayloadMaxCbc kt target)).map fun size =>
    { frame with maxFragmentSize := size - 4 - cbcIdSize o kt }

def frameCalculateMssfix (frame : MtuFrame) : MtuFrame :=
  if o.mssfixFixed then { frame with mssFix := uint16T ((o.mssfix : Int) - (20 + 20)) }
  else
    let payloadOverhead := frameCalculatePayloadOverhead o kt frame.extraTun + (20 + 20)
    let target := sizeT ((o.mssfix : Int) - linkOverhead o kt lsi o.mssfixEncap)
    { frame with
      mssFix := uint16T (sizeT ((adjustPayloadMaxCbc kt target : Int) - payloadOverhead)) }

/-- The first part of `frame_calculate_dynamic`. -/
def calculateFragmentPart (frame : MtuFrame) : Option MtuFrame :=
  if 0 < o.fragment then frameCalculateFragment o kt lsi frame else some frame

/-- `frame_calculate_dynamic`; `none` is a failed assertion. -/
def frameCalculateDynamic (frame : MtuFrame) : Option MtuFrame :=
  let fragmented := calculateFragmentPart o kt lsi frame
  if 0 < o.mssfix then fragmented.map (frameCalculateMssfix o kt lsi) else fragmented

end Sizes

/-! ## Sizes of packets -/

/-- The size of an encrypted packet behind the opcode. CBC pads to the next block; in OFB
and CFB mode the packet id is in the IV. -/
def encryptedSize (o : FrameOptions) (kt : FrameKeyType) (epochFormat : Bool) (len : Nat) : Nat :=
  match kt.cipher with
  | none => kt.digest.getD 0 + (calcPacketIdSizeDc o kt + len)
  | some c =>
    match c.mode with
    | .cbc =>
      kt.digest.getD 0 + c.ivSize +
        ((calcPacketIdSizeDc o kt + len) / c.blockSize + 1) * c.blockSize
    | .ofbCfb => kt.digest.getD 0 + c.ivSize + len
    | .aead => aeadIdSize epochFormat + OPENVPN_AEAD_TAG_LENGTH + len

def linkSize (o : FrameOptions) (kt : FrameKeyType) (epochFormat : Bool) (len : Nat) : Nat :=
  plainHeaderSize o + encryptedSize o kt epochFormat len

section Packets

variable {κ η : Type} {P : V1Primitives κ η} {kt : FrameKeyType} {opt : V1Options κ η}

theorem aeadPacket_length (A : AeadPrimitives) {c : CipherKt}
    (hciph : kt.cipher = some c) (hmode : c.mode = .aead) (o : FrameOptions)
    (co : CryptoOptions) (epochFormat : Bool) (key ad plain : Bytes) :
    (aeadPacket A co epochFormat key ad plain).length =
      encryptedSize o kt epochFormat plain.length := by
  unfold encryptedSize aeadPacket
  rw [hciph]
  dsimp only
  rw [hmode]
  dsimp only
  rw [length_append, sentPid_length]
  cases epochFormat with
  | true =>
    rw [if_pos rfl, length_append, A.length_sealCt, A.length_sealTag]
    omega
  | false =>
    rw [if_neg Bool.false_ne_true, length_append, A.length_sealCt, A.length_sealTag]
    omega

variable (P) in
/-- The key type of a sender: the library pads to the next block in CBC mode, and not at
all in the others. -/
structure DescribesV1 (o : FrameOptions) (kt : FrameKeyType) (opt : V1Options κ η) : Prop where
  digest : kt.digest = opt.encrypt.hmac.map P.hmacSize
  plain : opt.encrypt.cipher = none → kt.cipher = none
  cbc : ∀ k, opt.encrypt.cipher = some k → P.mode k = .cbc →
    ∃ c, kt.cipher = some c ∧ c.mode = .cbc ∧ c.ivSize = P.ivSize k ∧
      ∀ iv plain, (ciphertext P k iv plain).length = (plain.length / c.blockSize + 1) * c.blockSize
  ofbCfb : ∀ k, opt.encrypt.cipher = some k → P.mode k = .ofbCfb →
    ∃ c, kt.cipher = some c ∧ c.mode = .ofbCfb ∧ c.ivSize = P.ivSize k ∧
      ∀ iv plain, (ciphertext P k iv plain).length = plain.length
  initialized : opt.packetId.recv.initialized = true
  longForm : opt.packetIdLongForm = longFormDc o kt

theorem macSize_eq_digest (h : DescribesV1 P o kt opt) :
    macSize P opt.encrypt.hmac = kt.digest.getD 0 := by
  rw [h.digest]
  cases opt.encrypt.hmac with
  | none => rfl
  | some k => rfl

theorem v1Packet_length (h : DescribesV1 P o kt opt) {prng : Nat → Bytes}
    (hprng : ∀ n, (prng n).length = n) (send : PacketIdSend) (epochFormat : Bool)
    (plain : Bytes) : (v1Packet P opt prng send plain).length =
      encryptedSize o kt epochFormat plain.length := by
  have hid : (idPart opt send).length = calcPacketIdSizeDc o kt := by
    rw [idPart, if_pos h.initialized, length_idBytes, h.longForm, calcPacketIdSizeDc]
  rw [v1Packet, length_withMac, macSize_eq_digest h]
  unfold v1Payload encryptedSize
  cases hk : opt.encrypt.cipher with
  | none =>
    rw [h.plain hk, length_append, hid]
  | some k =>
    have hiv := length_sentIv (P := P) k hprng send
    dsimp only
    rw [length_append, hiv]
    cases hmode : P.mode k with
    | cbc =>
      obtain ⟨c, hciph, hcmode, hivSize, hct⟩ := h.cbc k hk hmode
      rw [hciph]
      dsimp only
      rw [hcmode, hct, hivSize, innerPlain, hmode]
      dsimp only
      rw [length_append, hid, add_assoc]
    | ofbCfb =>
      obtain ⟨c, hciph, hcmode, hivSize, hct⟩ := h.ofbCfb k hk hmode
      rw [hciph]
      dsimp only
      rw [hcmode, hct, hivSize, innerPlain, hmode]
      dsimp only
      rw [add_assoc]

end Packets

/-! ## The exact sizes -/

section Exact

variable (o : FrameOptions) (kt : FrameKeyType)

/-- The largest payload that leaves room for the padding, over the integers. -/
def payloadRoom (target : Int) : Int :=
  if kt.modeCbc then target / kt.blockSize * kt.blockSize - 1 else target

variable {o kt}

theorem sizeT_of_nonneg {z : Int} (h : 0 ≤ z) (hlt : z < 2 ^ 64) : (sizeT z : Int) = z := by
  unfold sizeT
  omega

theorem sizeT_of_neg {z : Int} (h : z < 0) (hlt : -2 ^ 64 ≤ z) : (sizeT z : Int) = z + 2 ^ 64 := by
  unfold sizeT
  omega

theorem blockSize_of_cbc (h : kt.modeCbc = true) : 0 < kt.blockSize ∧ kt.blockSize ≤ 32 := by
  unfold FrameKeyType.modeCbc FrameKeyType.hasMode at h
  unfold FrameKeyType.blockSize
  cases hc : kt.cipher with
  | none =>
    rw [hc] at h
    cases h
  | some c => exact ⟨c.block_pos, c.block_le⟩

variable (o kt)

theorem payloadRoom_le (target : Int) : payloadRoom kt target ≤ target := by
  unfold payloadRoom
  split
  case isTrue h =>
    have hpos := (blockSize_of_cbc h).1
    have hdiv := Int.ediv_mul_le target (b := kt.blockSize) (by omega)
    omega
  case isFalse => exact le_refl _

/-- The size is right unless the subtraction before it has wrapped. -/
theorem adjustPayloadMaxCbc_spec (target : Int) (hlo : -2 ^ 32 ≤ target) (hhi : target < 2 ^ 32) :
    (0 ≤ payloadRoom kt target →
        (adjustPayloadMaxCbc kt (sizeT target) : Int) = payloadRoom kt target) ∧
      (payloadRoom kt target < 0 → 2 ^ 31 ≤ adjustPayloadMaxCbc kt (sizeT target)) := by
  have hroom := payloadRoom_le kt target
  rcases Int.lt_or_le target 0 with hneg | hnn
  · have hsize := sizeT_of_neg hneg (by omega)
    refine ⟨fun h => by omega, fun _ => ?_⟩
    unfold adjustPayloadMaxCbc
    split
    case isFalse => omega
    case isTrue hcbc =>
      -- rounding down loses less than a block
      obtain ⟨hpos, hle⟩ := blockSize_of_cbc hcbc
      have hdiv := lt_div_mul_add hpos (a := sizeT target)
      have hfloor := div_mul_le_self (sizeT target) kt.blockSize
      unfold roundDownSize
      have hex := sizeT_of_nonneg
        (z := (sizeT target / kt.blockSize * kt.blockSize : Nat) - 1) (by omega) (by omega)
      omega
  · have hsize := sizeT_of_nonneg hnn (by omega)
    unfold payloadRoom adjustPayloadMaxCbc
    split
    case isFalse => exact ⟨fun _ => hsize, fun h => absurd h (by omega)⟩
    case isTrue hcbc =>
      obtain ⟨hpos, -⟩ := blockSize_of_cbc hcbc
      have hround : (roundDownSize (sizeT target) kt.blockSize : Int) =
          target / kt.blockSize * kt.blockSize := by
        unfold roundDownSize
        push_cast
        rw [hsize]
      have hle := Int.ediv_mul_le target (b := kt.blockSize) (by omega)
      rw [← hround] at hle ⊢
      constructor
      · intro h
        exact sizeT_of_nonneg h (by omega)
      · intro h
        have hex := sizeT_of_neg h (by omega)
        omega

theorem calcPacketIdSizeDc_le : calcPacketIdSizeDc o kt ≤ 8 := by
  unfold calcPacketIdSizeDc packetIdSize
  split <;> omega

theorem calculateCryptoOverhead_le (pktIdSize : Nat) :
    calculateCryptoOverhead kt pktIdSize ≤ pktIdSize + (16 + 64) := by
  have hid : (if kt.modeCbc then 0 else pktIdSize) ≤ pktIdSize := by
    split <;> omega
  have hiv : (kt.cipher.map CipherKt.ivSize).getD 0 ≤ 16 := by
    cases kt.cipher with
    | none => exact zero_le 16
    | some c => exact c.iv_le
  have hmd : kt.digest.getD 0 ≤ 64 := by
    cases hdigest : kt.digest with
    | none => exact zero_le 64
    | some size => exact kt.digest_le size hdigest
  unfold calculateCryptoOverhead
  apply Nat.add_le_add hid
  split
  · have htag : kt.tagSize ≤ 16 := by
      unfold FrameKeyType.tagSize OPENVPN_AEAD_TAG_LENGTH
      split <;> omega
    omega
  · omega

theorem linkOverhead_lt (lsi : Option LinkSocketInfo) (encap : Bool) :
    linkOverhead o kt lsi encap < 2 ^ 31 := by
  have hid := calcPacketIdSizeDc_le o kt
  have hcrypto := calculateCryptoOverhead_le kt (calcPacketIdSizeDc o kt)
  have hplain : plainHeaderSize o ≤ 16 := by
    unfold plainHeaderSize
    split <;> split <;> split <;> (try split) <;> omega
  have hdatagram : ∀ af proto, datagramOverhead af proto ≤ 60 := by
    intro af proto
    unfold datagramOverhead
    split <;> split <;> omega
  have hencap : (if encap then getIpEncapOverhead o lsi else 0) ≤ 60 := by
    split
    · unfold getIpEncapOverhead
      split <;> exact hdatagram _ _
    · exact zero_le 60
  unfold linkOverhead frameCalculateProtocolHeaderSize
  omega

/-- The sender writes the packet ids of the epoch format, which are longer than counted. -/
def LongerIds (epochFormat : Bool) : Prop :=
  kt.modeAead = true ∧ epochFormat = true ∧ o.tlsmode = true

variable {o kt}

instance (epochFormat : Bool) : Decidable (LongerIds o kt epochFormat) :=
  inferInstanceAs (Decidable (_ ∧ _ ∧ _))

theorem padded_size {n b : Nat} {q : Int} (h : (n : Int) + 1 = q * b) :
    (n / b + 1) * b = n + 1 := by
  have hdvd : b ∣ n + 1 := natCast_dvd_natCast.mp ⟨q, by push_cast; rw [h, mul_comm]⟩
  rw [← Nat.succ_div_of_dvd hdvd, Nat.div_mul_cancel hdvd]

/-- **The room is used up.** A packet whose payload takes all the room fits exactly if its
packet id has the size that was counted. -/
theorem linkSize_le_iff {target : Int} {len : Nat} {epochFormat : Bool}
    (hlen : (len : Int) + cbcIdSize o kt = payloadRoom kt target) :
    (linkSize o kt epochFormat len : Int) ≤
        frameCalculateProtocolHeaderSize o kt + target ↔ ¬LongerIds o kt epochFormat := by
  unfold linkSize frameCalculateProtocolHeaderSize calculateCryptoOverhead encryptedSize
  unfold LongerIds cbcIdSize payloadRoom at *
  cases hciph : kt.cipher with
  | none =>
    have hmode : ∀ mode, kt.hasMode mode = false := fun mode => by
      rw [FrameKeyType.hasMode, hciph, any_none]
    have hcbc : kt.modeCbc = false := hmode .cbc
    have haead : kt.modeAead = false := hmode .aead
    rw [hcbc] at hlen
    simp only [hcbc, haead, Bool.false_eq_true, if_false, false_and, not_false_eq_true, iff_true,
      map_none, getD_none] at hlen ⊢
    omega
  | some c =>
    have hmode : ∀ mode, kt.hasMode mode = decide (c.mode = mode) := fun mode => by
      rw [FrameKeyType.hasMode, hciph, any_some]
    have hcbc : kt.modeCbc = decide (c.mode = .cbc) := hmode .cbc
    have haead : kt.modeAead = decide (c.mode = .aead) := hmode .aead
    have hblk : kt.blockSize = c.blockSize := by
      rw [FrameKeyType.blockSize, hciph]
      rfl
    dsimp only
    cases hm : c.mode with
    | cbc =>
      rw [hm] at hcbc haead
      simp only [hcbc, haead, hblk, decide_true, reduceCtorEq, decide_false,
        Bool.false_eq_true, if_true, if_false, false_and, not_false_eq_true, iff_true,
        map_some, getD_some] at hlen ⊢
      have hblocks : ((calcPacketIdSizeDc o kt + len : Nat) : Int) + 1 =
          target / c.blockSize * c.blockSize := by
        push_cast
        omega
      have hsize := padded_size hblocks
      have hfloor := Int.ediv_mul_le target (b := c.blockSize)
        (Int.natCast_ne_zero.mpr (Nat.ne_of_gt c.block_pos))
      rw [hsize]
      push_cast
      omega
    | ofbCfb =>
      rw [hm] at hcbc haead
      simp only [hcbc, haead, reduceCtorEq, decide_false, Bool.false_eq_true, if_false,
        false_and, not_false_eq_true, iff_true, map_some, getD_some] at hlen ⊢
      omega
    | aead =>
      rw [hm] at hcbc haead
      have htag : kt.tagSize = 16 := by
        rw [FrameKeyType.tagSize, haead]
        rfl
      simp only [hcbc, haead, htag, decide_true, reduceCtorEq, decide_false,
        Bool.false_eq_true, if_true, if_false, true_and] at hlen ⊢
      have hlong : longFormDc o kt = !o.tlsmode := by
        rw [longFormDc, show kt.modeOfbCfb = _ from hmode .ofbCfb, hm]
        exact Bool.or_false _
      rw [calcPacketIdSizeDc, hlong]
      cases epochFormat <;> cases o.tlsmode <;>
        simp [aeadIdSize, packetIdSize, OPENVPN_AEAD_TAG_LENGTH] <;> omega

end Exact

/-! ## Right sizes -/

section Sizes

variable (o : FrameOptions) (kt : FrameKeyType) (lsi : Option LinkSocketInfo) (epochFormat : Bool)

/-- The size of a packet with what the limit counts on top of it. -/
def limitedSize (encap : Bool) (len : Nat) : Nat :=
  linkSize o kt epochFormat len + if encap then getIpEncapOverhead o lsi else 0

/-- Fragments are not too small, and the largest one with its header is within the limit. -/
def FragmentOk (f : MtuFrame) : Prop :=
  4 ≤ f.maxFragmentSize ∧
    limitedSize o kt lsi epochFormat o.fragmentEncap (4 + f.maxFragmentSize.toNat) ≤ o.fragment

/-- The room for the data of a segment, over the integers. -/
def mssRoom (extraTun : Nat) : Int :=
  payloadRoom kt ((o.mssfix : Int) - linkOverhead o kt lsi o.mssfixEncap) -
    (frameCalculatePayloadOverhead o kt extraTun + (20 + 20))

/-- The segment size is exact, and a segment of this size is within the limit; `fixed`
limits the IP packet. -/
def MssOk (f : MtuFrame) : Prop :=
  if o.mssfixFixed then (20 + 20) + f.mssFix = o.mssfix
  else
    (f.mssFix : Int) = mssRoom o kt lsi f.extraTun ∧
      limitedSize o kt lsi epochFormat o.mssfixEncap
        (innerHeaderSize o f.extraTun + (20 + 20) + f.mssFix) ≤ o.mssfix

variable {o kt lsi epochFormat}

theorem limitedSize_le_iff {limit len : Nat} {encap : Bool} (hlen : (len : Int) + cbcIdSize o kt =
      payloadRoom kt ((limit : Int) - linkOverhead o kt lsi encap)) :
    limitedSize o kt lsi epochFormat encap len ≤ limit ↔ ¬LongerIds o kt epochFormat := by
  rw [← linkSize_le_iff hlen]
  unfold limitedSize linkOverhead
  generalize (if encap then getIpEncapOverhead o lsi else 0) = outer
  omega

theorem frameCalculateFragment_ok_iff {frame : MtuFrame} (hfragment : o.fragment < 2 ^ 31) :
    (∃ f, frameCalculateFragment o kt lsi frame = some f ∧ FragmentOk o kt lsi epochFormat f) ↔
      4 + 4 + (cbcIdSize o kt : Int) ≤
          payloadRoom kt ((o.fragment : Int) - linkOverhead o kt lsi o.fragmentEncap) ∧
        ¬LongerIds o kt epochFormat := by
  have hover := linkOverhead_lt o kt lsi o.fragmentEncap
  have hle := payloadRoom_le kt ((o.fragment : Int) - linkOverhead o kt lsi o.fragmentEncap)
  obtain ⟨hex, hwrap⟩ := adjustPayloadMaxCbc_spec kt
    ((o.fragment : Int) - linkOverhead o kt lsi o.fragmentEncap) (by omega) (by omega)
  unfold frameCalculateFragment FragmentOk
  dsimp only
  generalize hroom : payloadRoom kt ((o.fragment : Int) - linkOverhead o kt lsi o.fragmentEncap) =
    room at hle hex hwrap ⊢
  rcases Int.lt_or_le room 0 with hneg | hnn
  · rw [clampSizeToInt, if_neg (not_lt.mpr (hwrap hneg))]
    constructor
    · rintro ⟨f, hf, -⟩
      cases hf
    · intro h
      omega
  · have hsize := hex hnn
    rw [clampSizeToInt, if_pos (by omega), hsize, map_some]
    constructor
    · rintro ⟨f, hf, hmin, hfit⟩
      cases hf
      dsimp only at hmin hfit
      refine ⟨by omega, (limitedSize_le_iff ?_).mp hfit⟩
      rw [hroom]
      omega
    · intro h
      refine ⟨_, rfl, by dsimp only; omega, (limitedSize_le_iff ?_).mpr h.2⟩
      dsimp only
      rw [hroom]
      omega

theorem frameCalculateMssfix_exact {extraTun : Nat} (hmssfix : o.mssfix ≤ 65535)
    (hroom : 0 ≤ mssRoom o kt lsi extraTun) :
    (uint16T (sizeT ((adjustPayloadMaxCbc kt (sizeT ((o.mssfix : Int) -
        linkOverhead o kt lsi o.mssfixEncap)) : Int) -
        (frameCalculatePayloadOverhead o kt extraTun + (20 + 20) : Nat))) : Int) =
      mssRoom o kt lsi extraTun := by
  have hover := linkOverhead_lt o kt lsi o.mssfixEncap
  have hle := payloadRoom_le kt ((o.mssfix : Int) - linkOverhead o kt lsi o.mssfixEncap)
  obtain ⟨hex, -⟩ := adjustPayloadMaxCbc_spec kt
    ((o.mssfix : Int) - linkOverhead o kt lsi o.mssfixEncap) (by omega) (by omega)
  unfold mssRoom at hroom ⊢
  rw [hex (by omega)]
  have hsize := sizeT_of_nonneg (z := payloadRoom kt ((o.mssfix : Int) -
    linkOverhead o kt lsi o.mssfixEncap) -
      (frameCalculatePayloadOverhead o kt extraTun + (20 + 20) : Nat)) (by omega) (by omega)
  rw [hsize]
  unfold uint16T
  omega

theorem frameCalculateMssfix_ok_iff {frame : MtuFrame}
    (hmssfix : 154 ≤ o.mssfix ∧ o.mssfix ≤ 65535) :
    MssOk o kt lsi epochFormat (frameCalculateMssfix o kt lsi frame) ↔
      (o.mssfixFixed = false → 0 ≤ mssRoom o kt lsi frame.extraTun ∧
        ¬LongerIds o kt epochFormat) := by
  unfold MssOk frameCalculateMssfix
  cases hfix : o.mssfixFixed with
  | true =>
    simp only [if_true, Bool.true_eq_false, false_implies, iff_true, uint16T]
    omega
  | false =>
    simp only [Bool.false_eq_true, if_false, true_implies]
    rcases Int.lt_or_le (mssRoom o kt lsi frame.extraTun) 0 with hneg | hnn
    · exact iff_of_false (fun h => by omega) (fun h => by omega)
    · have hex := frameCalculateMssfix_exact hmssfix.2 hnn
      rw [hex]
      apply and_congr (iff_of_true rfl hnn)
      apply limitedSize_le_iff
      have hpay : frameCalculatePayloadOverhead o kt frame.extraTun =
        innerHeaderSize o frame.extraTun + cbcIdSize o kt := rfl
      unfold mssRoom at hex
      omega

theorem calculateFragmentPart_ok_iff {frame : MtuFrame} (hfragment : o.fragment < 2 ^ 31) :
    (∃ f, calculateFragmentPart o kt lsi frame = some f ∧
      (0 < o.fragment → FragmentOk o kt lsi epochFormat f)) ↔
    (0 < o.fragment → 4 + 4 + (cbcIdSize o kt : Int) ≤
        payloadRoom kt ((o.fragment : Int) - linkOverhead o kt lsi o.fragmentEncap) ∧
      ¬LongerIds o kt epochFormat) := by
  unfold calculateFragmentPart
  by_cases hpos : 0 < o.fragment
  · simp only [if_pos hpos, forall_prop_of_true hpos]
    exact frameCalculateFragment_ok_iff hfragment
  · rw [if_neg hpos]
    exact iff_of_true ⟨frame, rfl, fun h => absurd h hpos⟩ fun h => absurd h hpos

theorem calculateFragmentPart_extraTun {frame f : MtuFrame}
    (h : calculateFragmentPart o kt lsi frame = some f) : f.extraTun = frame.extraTun := by
  unfold calculateFragmentPart at h
  split at h
  · obtain ⟨size, -, rfl⟩ := map_eq_some_iff.mp h
    rfl
  · cases h
    rfl

theorem fragmentOk_frameCalculateMssfix {f : MtuFrame} :
    FragmentOk o kt lsi epochFormat (frameCalculateMssfix o kt lsi f) ↔
      FragmentOk o kt lsi epochFormat f := by
  unfold frameCalculateMssfix
  split
  · exact Iff.rfl
  · exact Iff.rfl

end Sizes

/-- **Sizes.** With values the parser lets through the sizes are right, for every cipher and
digest, exactly if the limits leave room for the headers, two times four bytes of a fragment
or the headers of a segment, and the packet ids of the sender have the size that is
counted. -/
theorem frame_sizes_ok_iff (o : FrameOptions) (kt : FrameKeyType) (lsi : Option LinkSocketInfo)
    (epochFormat : Bool) (frame : MtuFrame) (h : o.Admitted) :
    (∃ f, frameCalculateDynamic o kt lsi frame = some f ∧
      (0 < o.fragment → FragmentOk o kt lsi epochFormat f) ∧
      (0 < o.mssfix → MssOk o kt lsi epochFormat f)) ↔
    (0 < o.fragment → 4 + 4 + (cbcIdSize o kt : Int) ≤
        payloadRoom kt ((o.fragment : Int) - linkOverhead o kt lsi o.fragmentEncap) ∧
      ¬LongerIds o kt epochFormat) ∧
    (0 < o.mssfix → o.mssfixFixed = false →
      0 ≤ mssRoom o kt lsi frame.extraTun ∧ ¬LongerIds o kt epochFormat) := by
  have hfragment : o.fragment < 2 ^ 31 := by
    rcases h.fragment with h | h <;> omega
  rw [← calculateFragmentPart_ok_iff hfragment]
  unfold frameCalculateDynamic
  dsimp only
  by_cases hpos : 0 < o.mssfix
  · have hmssfix : 154 ≤ o.mssfix ∧ o.mssfix ≤ 65535 :=
      h.mssfix.resolve_left (ne_of_gt hpos)
    rw [if_pos hpos]
    constructor
    · intro hok
      obtain ⟨_, hmap, hfrag, hmss⟩ := hok
      obtain ⟨f, hf, rfl⟩ := map_eq_some_iff.mp hmap
      have hroom := (frameCalculateMssfix_ok_iff hmssfix).mp (hmss hpos)
      rw [calculateFragmentPart_extraTun hf] at hroom
      exact ⟨⟨f, hf, fun h => fragmentOk_frameCalculateMssfix.mp (hfrag h)⟩, fun _ => hroom⟩
    · intro hok
      obtain ⟨⟨f, hf, hfrag⟩, hroom⟩ := hok
      have hmss := hroom hpos
      rw [← calculateFragmentPart_extraTun hf] at hmss
      exact ⟨_, map_eq_some_iff.mpr ⟨f, hf, rfl⟩,
        fun h => fragmentOk_frameCalculateMssfix.mpr (hfrag h),
        fun _ => (frameCalculateMssfix_ok_iff hmssfix).mpr hmss⟩
  · rw [if_neg hpos]
    constructor
    · intro hok
      obtain ⟨f, hf, hfrag, -⟩ := hok
      exact ⟨⟨f, hf, hfrag⟩, fun h => absurd h hpos⟩
    · intro hok
      obtain ⟨⟨f, hf, hfrag⟩, -⟩ := hok
      exact ⟨f, hf, hfrag, fun h => absurd h hpos⟩

theorem aes_iv_le : 16 ≤ OPENVPN_MAX_IV_LENGTH := by decide
theorem aes_block_le : 16 ≤ OPENVPN_MAX_BLOCK_LENGTH := by decide
theorem gcm_iv_le : 12 ≤ OPENVPN_MAX_IV_LENGTH := by decide
theorem sha512_le : ∀ size ∈ some 64, size ≤ OPENVPN_MAX_HMAC_SIZE := by decide
theorem no_digest_le : ∀ size ∈ (none : Option Nat), size ≤ OPENVPN_MAX_HMAC_SIZE := by decide

/-- AES-256-CBC with SHA512. -/
def cbcKeyType : FrameKeyType :=
  { cipher := some ⟨.cbc, 16, 16, aes_iv_le, zero_lt_succ 15, aes_block_le⟩
    digest := some 64
    digest_le := sha512_le }

/-- AES-256-GCM. -/
def gcmKeyType : FrameKeyType :=
  { cipher := some ⟨.aead, 12, 16, gcm_iv_le, zero_lt_succ 15, aes_block_le⟩
    digest := none
    digest_le := no_digest_le }

/-- A client over UDP with the given limits. -/
def udpOptions (fragment mssfix : Nat) (encap : Bool) : FrameOptions :=
  { tlsServer := false, tlsClient := true, usePeerId := true, socksProxyServer := false,
    compAlg := .undef, af := .inet6, proto := .udp, fragment, fragmentEncap := encap, mssfix,
    mssfixEncap := encap, mssfixFixed := false, mssfixDefault := false }

def freshFrame : MtuFrame := ⟨0, 0, 0⟩

/-- The limits of the documentation are right with AES-256-GCM. -/
theorem frame_sizes_ok_gcm :
    ∃ f, frameCalculateDynamic (udpOptions 1300 1300 false) gcmKeyType none freshFrame = some f ∧
      (0 < 1300 → FragmentOk (udpOptions 1300 1300 false) gcmKeyType none false f) ∧
      (0 < 1300 → MssOk (udpOptions 1300 1300 false) gcmKeyType none false f) :=
  (frame_sizes_ok_iff (udpOptions 1300 1300 false) gcmKeyType none false freshFrame
    ⟨.inr (by decide), .inr (by decide)⟩).mpr (by decide)

/-- With AES-256-CBC and SHA512 the smallest fragment size fails an assertion, the smallest
segment size becomes 65507, and with the packet ids of the epoch format packets with
AES-256-GCM are four bytes larger than the limit. -/
theorem small_limits_wrap :
    frameCalculateDynamic (udpOptions 68 0 false) cbcKeyType none freshFrame = none ∧
      frameCalculateDynamic (udpOptions 0 154 true) cbcKeyType none freshFrame =
        some ⟨65507, 0, 0⟩ ∧
      frameCalculateDynamic (udpOptions 1300 0 false) gcmKeyType none freshFrame =
        some ⟨0, 1272, 0⟩ ∧
      linkSize (udpOptions 1300 0 false) gcmKeyType true (4 + 1272) = 1304 := by
  decide

end OpenVpn.DataChannel
