import OpenVpn.Crypto.Aead
import OpenVpn.Crypto.Static

/-!
# The data channel (`openvpn_encrypt`, `openvpn_decrypt`)

The two functions choose between the AEAD format and the older one by the mode of the
cipher.

* `data_channel_round_trip` — in every format a receiver with the keys of the sender, a
  key it may still use and a window that takes the id gets the plaintext back.
* `refused_after_failures` — a key with too many failed verifications decrypts nothing.
-/

namespace OpenVpn.DataChannel

open Base List Option

/-- `struct crypto_options`, by the mode of the cipher. -/
inductive DataCrypto (κ η : Type)
  | aead (co : CryptoOptions) (epochFormat : Bool)
  | v1 (opt : V1Options κ η)

section RoundTrip

variable {κ η : Type} (hmacSha256 : Bytes → Bytes → Bytes) (A : AeadPrimitives)
  (P : V1Primitives κ η)

def openvpnEncrypt (now : Int) (prng : Nat → Bytes) (buf work : Buffer) :
    DataCrypto κ η → Option (DataCrypto κ η × Buffer)
  | .aead co epochFormat =>
    if buf.contents = [] then some (.aead co epochFormat, buf)
    else
      (openvpnEncryptAead hmacSha256 A now buf work co epochFormat).map fun (co, buf) =>
        (.aead co epochFormat, buf)
  | .v1 opt =>
    if buf.contents = [] then some (.v1 opt, buf)
    else (openvpnEncryptV1 P now prng buf work opt).map fun (opt, buf) => (.v1 opt, buf)

/-- `openvpn_decrypt`; `ad` is what stands between `ad_start` and the packet. -/
def openvpnDecrypt (now : Int) (buf work : Buffer) (headroom : Nat) (ad : Bytes) :
    DataCrypto κ η → Option (DataCrypto κ η × Buffer × Bool)
  | .aead co epochFormat =>
    if buf.contents = [] then some (.aead co epochFormat, buf, true)
    else
      (openvpnDecryptAead hmacSha256 A now buf work co epochFormat headroom ad).map
        fun (co, buf, ok) => (.aead co epochFormat, buf, ok)
  | .v1 opt =>
    if buf.contents = [] then some (.v1 opt, buf, true)
    else
      (openvpnDecryptV1 P now buf work opt headroom).map fun (opt, buf, ok) => (.v1 opt, buf, ok)

variable {hmacSha256 A P}

theorem openvpnEncrypt_empty {now now' : Int} {prng : Nat → Bytes} {buf work work' : Buffer}
    {headroom : Nat} {ad : Bytes} (h : buf.contents = []) {sender receiver : DataCrypto κ η} :
    openvpnEncrypt hmacSha256 A P now prng buf work sender = some (sender, buf) ∧
      openvpnDecrypt hmacSha256 A P now' buf work' headroom ad receiver =
        some (receiver, buf, true) := by
  constructor
  · cases sender with
    | aead co epochFormat => exact if_pos h
    | v1 opt => exact if_pos h
  · cases receiver with
    | aead co epochFormat => exact if_pos h
    | v1 opt => exact if_pos h

theorem aeadPacket_ne_nil {co : CryptoOptions} {epochFormat : Bool} {key ad plain : Bytes} :
    aeadPacket A co epochFormat key ad plain ≠ [] := by
  have hpid := sentPid_length co epochFormat
  have hpos : 0 < (aeadPacket A co epochFormat key ad plain).length := by
    rw [aeadPacket, length_append, hpid, aeadIdSize]
    split <;> omega
  exact length_pos_iff.mp hpos

theorem v1Packet_ne_nil {opt : V1Options κ η} {prng : Nat → Bytes} {send : PacketIdSend}
    {plain : Bytes} (h : plain ≠ []) : v1Packet P opt prng send plain ≠ [] := by
  have hpos := length_pos_iff.mpr h
  apply length_pos_iff.mp
  rw [v1Packet, length_withMac]
  unfold v1Payload
  split
  case h_1 k hk =>
    have hle := P.le_length k (sentIv P k prng send) (innerPlain P opt k send plain)
    have hinner : plain.length ≤ (innerPlain P opt k send plain).length := by
      unfold innerPlain
      split <;> simp
    simp only [ciphertext, length_append] at hle ⊢
    omega
  case h_2 =>
    rw [length_append]
    omega

/-- **The data channel.** For every format: a plaintext that fits is sent behind the
opcode and peer id in the work buffer, and a receiver with the same key, which it may still
use, decrypts the packet to that plaintext; the window the result has went through is that
of the id the sender drew. -/
theorem data_channel_round_trip (hmacSha256 : Bytes → Bytes → Bytes) (A : AeadPrimitives)
    (P : V1Primitives κ η) (prng : Nat → Bytes) (hprng : ∀ n, (prng n).length = n) :
    -- nothing to send
    (∀ (now now' : Int) (buf work work' : Buffer) (headroom : Nat) (ad : Bytes)
      (sender receiver : DataCrypto κ η), buf.contents = [] →
        openvpnEncrypt hmacSha256 A P now prng buf work sender = some (sender, buf) ∧
          openvpnDecrypt hmacSha256 A P now' buf work' headroom ad receiver =
            some (receiver, buf, true)) ∧
    -- AEAD, with the tag in front or in the epoch format
    (∀ (now : Int) (co co₁ : CryptoOptions) (epochFormat : Bool) (key : Bytes)
      (buf work : Buffer), AeadReady hmacSha256 A co epochFormat co₁ key → buf.contents ≠ [] →
      buf.contents.length + OPENVPN_AEAD_TAG_LENGTH + A.blockSize < BUF_SIZE_MAX →
      work.offset + work.contents.length + aeadIdSize epochFormat +
        (buf.contents.length + OPENVPN_AEAD_TAG_LENGTH + A.blockSize) ≤ work.capacity →
      ∃ co' out packet, openvpnEncrypt hmacSha256 A P now prng buf work (.aead co epochFormat) =
          some (.aead co' epochFormat, out) ∧
        out.contents = work.contents ++ packet ∧
        ∀ (now' : Int) (receiver receiver' : CryptoOptions) (slot : KeySlot) (ctx : KeyCtx)
          (buf' work' : Buffer) (headroom : Nat),
          AeadAccepts hmacSha256 co₁ epochFormat key now' receiver receiver' slot ctx →
          buf'.contents = packet →
          headroom + (buf.contents.length + OPENVPN_AEAD_TAG_LENGTH + A.blockSize) ≤
            work'.capacity →
          ∃ plain, openvpnDecrypt hmacSha256 A P now' buf' work' headroom work.contents
              (.aead receiver epochFormat) = some (.aead { receiver' with
                decrypt := receiver'.decrypt.addBlocks 0 } epochFormat, plain, true) ∧
            plain.contents = buf.contents) ∧
    -- CBC, OFB and CFB, or no cipher
    ∀ (now : Int) (opt : V1Options κ η) (send : PacketIdSend) (buf work : Buffer),
      V1Ready P now opt send → FitsWire send → buf.contents ≠ [] → V1Fits P opt send buf work →
      ∃ opt' out packet,
        openvpnEncrypt hmacSha256 A P now prng buf work (.v1 opt) = some (.v1 opt', out) ∧
        out.contents = work.contents ++ packet ∧
        ∀ (now' : Int) (receiver receiver' : V1Options κ η) (buf' work' : Buffer)
          (headroom : Nat) (ad : Bytes), V1Accepts P opt send now' receiver receiver' →
          buf'.contents = packet →
          (∀ k, opt.encrypt.cipher = some k →
            buf'.contents.length - macSize P opt.encrypt.hmac - P.ivSize k + P.blockSize k <
                BUF_SIZE_MAX ∧
              headroom + (buf'.contents.length - macSize P opt.encrypt.hmac - P.ivSize k +
                P.blockSize k) ≤ work'.capacity) →
          ∃ plain, openvpnDecrypt hmacSha256 A P now' buf' work' headroom ad (.v1 receiver) =
              some (.v1 receiver', plain, true) ∧
            plain.contents = buf.contents := by
  refine ⟨fun now now' buf work work' headroom ad sender receiver h =>
    openvpnEncrypt_empty h, ?_, ?_⟩
  · intro now co co₁ epochFormat key buf work hready hplain hsize hroom
    obtain ⟨co', out, hencrypt, hout⟩ := hready.encrypt now hsize hroom
    refine ⟨co', out, _, ?_, hout, ?_⟩
    · simp only [openvpnEncrypt, if_neg hplain, hencrypt, map_some]
    · intro now' receiver receiver' slot ctx buf' work' headroom haccepts hbuf' hroom'
      obtain ⟨plain, hdecrypt, hcontents⟩ := haccepts.decrypt hready.idLeft hready.epoch hplain
        hbuf' hsize hroom'
      refine ⟨plain, ?_, hcontents⟩
      have hne : ¬buf'.contents = [] := hbuf' ▸ aeadPacket_ne_nil
      simp only [openvpnDecrypt, if_neg hne, hdecrypt, map_some]
  · intro now opt send buf work hready hwire hplain hfits
    obtain ⟨opt', out, hencrypt, hout⟩ := hready.encrypt hprng hfits
    refine ⟨opt', out, _, ?_, hout, ?_⟩
    · simp only [openvpnEncrypt, if_neg hplain, hencrypt, map_some]
    · intro now' receiver receiver' buf' work' headroom ad haccepts hbuf' hroom'
      obtain ⟨plain, hdecrypt, hcontents⟩ :=
        haccepts.decrypt hready hwire hprng hplain hbuf' hroom'
      refine ⟨plain, ?_, hcontents⟩
      have hne : ¬buf'.contents = [] := hbuf' ▸ v1Packet_ne_nil hplain
      simp only [openvpnDecrypt, if_neg hne, hdecrypt, map_some]

end RoundTrip

/-! ## Samples -/

/-- An AEAD cipher that changes nothing and has no tag to speak of. -/
def plainAead : AeadPrimitives where
  ivLen := 12
  blockSize := 16
  sealCt _ _ _ plain := plain
  sealTag _ _ _ _ := replicate OPENVPN_AEAD_TAG_LENGTH 0
  openCt _ _ _ ct _ := some ct
  length_sealCt _ _ _ _ := rfl
  length_sealTag _ _ _ _ := length_replicate
  openCt_seal _ _ _ _ := rfl

theorem plainCbc_le {plain : Bytes} : (plain ++ [2, 2]).length ≤ plain.length + 2 :=
  Nat.le_of_eq length_append

theorem le_plainCbc {plain : Bytes} : plain.length ≤ (plain ++ [2, 2]).length := by
  rw [length_append]
  omega

theorem plainCbc_decrypt {plain : Bytes} :
    ∃ u f, some ((plain ++ [2, 2]).take ((plain ++ [2, 2]).length - 2)) = some u ∧
      some [] = some f ∧ u ++ f = plain := by
  refine ⟨plain, [], ?_, rfl, append_nil plain⟩
  rw [length_append]
  simp

/-- A cipher in CBC mode with blocks of two bytes that only pads, and a constant HMAC. -/
def plainCbc : V1Primitives Unit Unit where
  mode _ := .cbc
  ivSize _ := 2
  blockSize _ := 2
  encryptUpdate _ _ plain := plain
  encryptFinal _ _ _ := [2, 2]
  decryptUpdate _ _ ct := some (ct.take (ct.length - 2))
  decryptFinal _ _ _ := some []
  hmacSize _ := 3
  hmac _ _ := [5, 5, 5]
  ofbCfb_iv _ h := absurd h (by decide)
  cbc_final _ _ _ _ := rfl
  length_le _ _ plain := plainCbc_le
  le_length _ _ plain := le_plainCbc
  decrypt_encrypt _ _ plain := plainCbc_decrypt
  length_hmac _ _ := rfl

/-- A window in sequential mode that waits for the id 1. -/
def sequentialRecv : PacketIdRec :=
  { lastReap := 0, time := 0, id := 0, seqBacktrack := 0, timeBacktrack := 0
    maxBacktrackStat := 0, initialized := true, seqList := none }

def sampleKeyCtx (failures : Nat) : KeyCtx :=
  { cipher := some [1], implicitIv := [9], plaintextBlocks := 0, failedVerifications := failures
    epoch := 1 }

/-- A peer whose receive key has seen this many failed verifications. -/
def samplePeer (failures : Nat) : CryptoOptions :=
  { CryptoOptions.fresh ⟨resetPacketIdSend, sequentialRecv⟩ with
    encrypt := sampleKeyCtx 0
    decrypt := sampleKeyCtx failures }

theorem sampleBuf_fits : 20 + ([7, 8] : Bytes).length ≤ 100 := by decide

/-- The plaintext, with headroom. -/
def sampleBuf : Buffer := ⟨100, 20, [7, 8], sampleBuf_fits⟩

theorem sampleWork_fits : 10 + ([72, 0, 0, 1] : Bytes).length ≤ 100 := by decide

/-- Opcode and peer id in the work buffer. -/
def sampleWork : Buffer := ⟨100, 10, [72, 0, 0, 1], sampleWork_fits⟩

/-- The packet of the sample, behind opcode and peer id. -/
def samplePacket : Bytes := [0, 0, 0, 1] ++ replicate 16 0 ++ [7, 8]

theorem sampleReceived_fits : 0 + samplePacket.length ≤ 100 := by decide

def sampleReceived : Buffer := ⟨100, 0, samplePacket, sampleReceived_fits⟩

/-- A peer with a cipher in CBC mode and an HMAC. -/
def cbcPeer : V1Options Unit Unit :=
  { encrypt := ⟨some (), some ()⟩, decrypt := ⟨some (), some ()⟩
    packetId := ⟨resetPacketIdSend, sequentialRecv⟩
    pidPersist := none, ignorePacketId := false, packetIdLongForm := false }

/-- Two bytes from one peer to another, in all formats with a tag and in CBC mode. -/
theorem data_channel_round_trip_two_bytes :
    (∀ epochFormat, ∃ co' out packet,
      openvpnEncrypt (fun _ _ => []) plainAead plainCbc 10 (fun n => replicate n 0) sampleBuf
          sampleWork (.aead (samplePeer 0) epochFormat) = some (.aead co' epochFormat, out) ∧
        out.contents = sampleWork.contents ++ packet ∧
        ∀ buf' : Buffer, buf'.contents = packet → ∃ receiver plain,
          openvpnDecrypt (fun _ _ => []) plainAead plainCbc 10 buf' sampleWork 10
              sampleWork.contents (.aead (samplePeer 0) epochFormat) =
            some (receiver, plain, true) ∧ plain.contents = [7, 8]) ∧
      ∃ opt' out packet,
        openvpnEncrypt (fun _ _ => []) plainAead plainCbc 10 (fun n => replicate n 0) sampleBuf
            sampleWork (.v1 cbcPeer) = some (.v1 opt', out) ∧
          out.contents = sampleWork.contents ++ packet ∧
          ∀ buf' : Buffer, buf'.contents = packet → ∃ receiver plain,
            openvpnDecrypt (fun _ _ => []) plainAead plainCbc 10 buf' sampleWork 10 []
              (.v1 cbcPeer) = some (receiver, plain, true) ∧ plain.contents = [7, 8] := by
  obtain ⟨-, haead, hcbc⟩ := data_channel_round_trip (fun _ _ => []) plainAead plainCbc
    (fun n => replicate n 0) (fun _ => length_replicate)
  refine ⟨fun epochFormat => ?_, ?_⟩
  · have hready : AeadReady (fun _ _ => []) plainAead (samplePeer 0) epochFormat (samplePeer 0)
        [1] := by
      cases epochFormat <;> exact ⟨rfl, rfl, rfl, by decide, by decide, by decide⟩
    obtain ⟨co', out, packet, hencrypt, hout, hdecrypt⟩ := haead 10 _ _ epochFormat [1] sampleBuf
      sampleWork hready (by decide) (by decide) (by cases epochFormat <;> decide)
    refine ⟨co', out, packet, hencrypt, hout, fun buf' hbuf' => ?_⟩
    have haccepts : ∃ co, AeadAccepts (fun _ _ => []) (samplePeer 0) epochFormat [1] 10
        (samplePeer 0) co .current (sampleKeyCtx 0) := by
      cases epochFormat <;>
        exact ⟨_, by decide, rfl, rfl, rfl, rfl, rfl, rfl, rfl⟩
    obtain ⟨co, haccepts⟩ := haccepts
    obtain ⟨plain, hplain, hcontents⟩ := hdecrypt 10 _ co _ _ buf' sampleWork 10 haccepts hbuf'
      (by decide)
    exact ⟨_, plain, hplain, hcontents⟩
  · obtain ⟨opt', out, packet, hencrypt, hout, hdecrypt⟩ := hcbc 10 cbcPeer ⟨1, 10⟩ sampleBuf
      sampleWork ⟨fun _ => rfl, by simp [plainCbc]⟩ ⟨by decide, by decide, by decide⟩ (by decide)
      ⟨by decide, by decide, by decide, by decide, by decide⟩
    have hlen := congrArg (Option.map fun r => r.2.contents.length) hencrypt
    rw [map_some, hout, length_append] at hlen
    have hpacket : 17 = 4 + packet.length := some.inj hlen
    refine ⟨opt', out, packet, hencrypt, hout, fun buf' hbuf' => ?_⟩
    obtain ⟨plain, hplain, hcontents⟩ := hdecrypt 10 cbcPeer _ buf' sampleWork 10 []
      ⟨rfl, rfl, rfl, rfl⟩ hbuf' (fun _ _ => by
        simp only [macSize, plainCbc, cbcPeer, sampleWork, BUF_SIZE_MAX, hbuf']; omega)
    exact ⟨_, plain, hplain, hcontents⟩

/-- The same packet with the same key, which has seen one failure too many: the window
takes the id, but the packet is dropped. -/
theorem refused_after_failures : ∃ sender out,
    openvpnEncrypt (fun _ _ => []) plainAead plainCbc 10 (fun n => replicate n 0) sampleBuf
        sampleWork (.aead (samplePeer 0) false) = some (sender, out) ∧
      out.contents = sampleWork.contents ++ sampleReceived.contents ∧
      (samplePeer (2 ^ 36 + 1)).decrypt.cipher = (samplePeer 0).encrypt.cipher ∧
      (samplePeer (2 ^ 36 + 1)).decrypt.implicitIv = (samplePeer 0).encrypt.implicitIv ∧
      (∃ co, cryptoCheckReplay (fun _ _ => []) 10 (samplePeer (2 ^ 36 + 1))
        (sentPin (samplePeer 0)) 0 = some (co, true)) ∧
      ∃ receiver plain,
        openvpnDecrypt (fun _ _ => []) plainAead plainCbc 10 sampleReceived sampleWork 10
          sampleWork.contents (.aead (samplePeer (2 ^ 36 + 1)) false) =
            some (receiver, plain, false) :=
  ⟨_, _, rfl, rfl, rfl, rfl, ⟨_, rfl⟩, _, _, rfl⟩

end OpenVpn.DataChannel
