import OpenVpn.Epoch.Nonce
import OpenVpn.PacketId.Sequential

/-!
# AEAD data packets (`openvpn_encrypt_aead`, `openvpn_decrypt_aead`)

Behind the opcode and peer id, which are already in the work buffer, stand

    packet id (4) ‖ tag (16) ‖ ciphertext

or, in the epoch data format,

    epoch and packet id (8) ‖ ciphertext ‖ tag (16)

Everything in front of the tag or the ciphertext is authenticated. The nonce is the
packet id, padded with zeros, xored with the implicit IV of the key.

* `AeadReady.encrypt` — what a sender with an id left writes.
* `AeadAccepts.decrypt` — what a receiver with the same key makes of it.
-/

namespace OpenVpn.DataChannel

open Base List Option

def OPENVPN_AEAD_TAG_LENGTH : Nat := 16
def OPENVPN_AEAD_MIN_IV_LEN : Nat := 4 + 8
def OPENVPN_MAX_IV_LENGTH : Nat := 16

/-- An AEAD cipher. It is a stream cipher: the whole output comes from
`cipher_ctx_update`, and `cipher_ctx_final` adds nothing. -/
structure AeadPrimitives where
  ivLen : Nat
  blockSize : Nat
  sealCt : (key iv ad plain : Bytes) → Bytes
  sealTag : (key iv ad plain : Bytes) → Bytes
  openCt : (key iv ad ct tag : Bytes) → Option Bytes
  length_sealCt : ∀ key iv ad plain, (sealCt key iv ad plain).length = plain.length
  length_sealTag : ∀ key iv ad plain, (sealTag key iv ad plain).length = OPENVPN_AEAD_TAG_LENGTH
  openCt_seal : ∀ key iv ad plain,
    openCt key iv ad (sealCt key iv ad plain) (sealTag key iv ad plain) = some plain

/-- `packet_id_size(false)`, or the 64 bits of the epoch format. -/
def aeadIdSize (epochFormat : Bool) : Nat := if epochFormat then 8 else 4

/-- The nonce: the packet id in a zeroed buffer, xored with the implicit IV. -/
def aeadIv (ivLen : Nat) (pid implicitIv : Bytes) : Bytes :=
  (range ivLen).map fun i => pid.getD i 0 ^^^ implicitIv.getD i 0

/-! ## Encryption -/

variable (hmacSha256 : Bytes → Bytes → Bytes) (A : AeadPrimitives)

/-- The packet id of the next packet, written to the empty IV buffer. -/
def writeAeadId (now : Int) (co : CryptoOptions) (epochFormat : Bool) :
    PacketIdSend × Option Bytes :=
  let ivBuffer : Buffer := ⟨A.ivLen, 0, [], Nat.zero_le _⟩
  if epochFormat then
    match packetIdWriteEpoch now co.packetId.send co.encrypt.epoch with
    | (send, none) => (send, none)
    | (send, some wireId) => (send, (bufWrite ivBuffer (beBytes 8 wireId)).map (·.contents))
  else
    match packetIdWrite now co.packetId.send ivBuffer false false with
    | (send, buf) => (send, buf.map (·.contents))

/-- The end of an encryption: ciphertext and tag behind what is authenticated. -/
def sealInto (epochFormat : Bool) (key iv plain : Bytes) (work : Buffer) : Option Buffer :=
  let ct := A.sealCt key iv work.contents plain
  let tag := A.sealTag key iv work.contents plain
  if epochFormat then (bufExtend work ct).bind (bufWrite · tag)
  else (bufWrite work tag).bind (bufExtend · ct)

def withSend (co : CryptoOptions) (send : PacketIdSend) : CryptoOptions :=
  { co with packetId := { co.packetId with send } }

/-- `openvpn_encrypt_aead` of `buf` behind what is in `work`; an error leaves an empty
packet, and `none` is a failed assertion. -/
def openvpnEncryptAead (now : Int) (buf work : Buffer) (co : CryptoOptions)
    (epochFormat : Bool) : Option (CryptoOptions × Buffer) :=
  (if epochFormat then epochCheckSendIterate hmacSha256 co else some co).bind fun co =>
    co.encrypt.cipher.bind fun key =>
      if co.packetId.recv.initialized = false then none
      else if A.ivLen < OPENVPN_AEAD_MIN_IV_LEN ∨ OPENVPN_MAX_IV_LENGTH < A.ivLen then none
      else
        match writeAeadId A now co epochFormat with
        | (send, none) => some (withSend co send, bufTruncate buf 0)
        | (send, some pid) =>
          let co := withSend co send
          let iv := aeadIv A.ivLen pid co.encrypt.implicitIv
          (bufWrite work pid).bind fun work =>
            if bufSafe work (buf.contents.length + OPENVPN_AEAD_TAG_LENGTH + A.blockSize) then
              (sealInto A epochFormat key iv buf.contents work).map fun out =>
                ({ co with encrypt := co.encrypt.addBlocks buf.contents.length }, out)
            else some (co, bufTruncate buf 0)

/-! ## Decryption -/

/-- What the head of a packet says: the bytes of its id, the id, the epoch (zero outside
of the epoch format) and the key. -/
structure AeadHead where
  pid : Bytes
  pin : PacketIdNet
  epoch : Nat
  slot : KeySlot
  deriving DecidableEq

def readAeadHead (co : CryptoOptions) (epochFormat : Bool) (bs : Bytes) : Option AeadHead :=
  if epochFormat then
    let (epoch, pin) := packetIdReadEpoch (beNat (bs.take 8))
    if epoch = 0 then none
    else (epochLookupDecryptKey co epoch).map fun slot => ⟨bs.take 8, pin, epoch, slot⟩
  else (packetIdRead bs false).map fun (pin, _) => ⟨bs.take 4, pin, 0, .current⟩

/-- Ciphertext and tag of what stands behind the packet id, and the length the overflow
check looks at. -/
def splitBody (epochFormat : Bool) (body : Bytes) : Bytes × Bytes × Nat :=
  if epochFormat then
    let dataLen := body.length - OPENVPN_AEAD_TAG_LENGTH
    (body.take dataLen, body.drop dataLen, body.length)
  else
    (body.drop OPENVPN_AEAD_TAG_LENGTH, body.take OPENVPN_AEAD_TAG_LENGTH,
      body.length - OPENVPN_AEAD_TAG_LENGTH)

/-- The second half of `openvpn_decrypt_aead`, with the key `ctx` points at. -/
def openAeadBody (now : Int) (buf work : Buffer) (co : CryptoOptions) (epochFormat : Bool)
    (ad : Bytes) (head : AeadHead) (ctx : KeyCtx) : Option (CryptoOptions × Buffer × Bool) :=
  if epochFormat && cipherDecryptVerifyFailExceeded ctx then some (co, bufTruncate buf 0, false)
  else
    ctx.cipher.bind fun key =>
      let iv := aeadIv A.ivLen head.pid ctx.implicitIv
      match splitBody epochFormat (buf.contents.drop head.pid.length) with
      | (ct, tag, len) =>
        if bufSafe work (len + A.blockSize) = false then some (co, bufTruncate buf 0, false)
        else
          match A.openCt key iv (ad ++ head.pid) ct tag with
          | none => some (co.countFailure head.slot, bufTruncate buf 0, false)
          | some plain =>
            (bufExtend work plain).bind fun work =>
              (cryptoCheckReplay hmacSha256 now co head.pin head.epoch).map fun
                | (co, false) => (co, bufTruncate buf 0, false)
                -- `outlen` is by now that of `cipher_ctx_final_check_tag`: no block counts
                | (co, true) => ({ co with decrypt := co.decrypt.addBlocks 0 }, work, true)

/-- `openvpn_decrypt_aead`; `ad` is what stands between `ad_start` and the packet. -/
def openvpnDecryptAead (now : Int) (buf work : Buffer) (co : CryptoOptions) (epochFormat : Bool)
    (headroom : Nat) (ad : Bytes) : Option (CryptoOptions × Buffer × Bool) :=
  if !epochFormat && cipherDecryptVerifyFailExceeded co.decrypt then
    some (co, bufTruncate buf 0, false)
  else if buf.contents = [] ∨ co.decrypt.cipher = none then none
  else
    (bufInit work headroom).bind fun work =>
      if co.packetId.recv.initialized = false then none
      else if buf.contents.length < aeadIdSize epochFormat + OPENVPN_AEAD_TAG_LENGTH + 1 then
        some (co, bufTruncate buf 0, false)
      else
        match readAeadHead co epochFormat buf.contents with
        | none => some (co, bufTruncate buf 0, false)
        | some head =>
          (co.keyAt head.slot).bind fun ctx =>
            openAeadBody hmacSha256 A now buf work co epochFormat ad head ctx

/-! ## What a sender writes -/

/-- A sender that can encrypt: `co₁` is its state after a new epoch may have begun. -/
structure AeadReady (co : CryptoOptions) (epochFormat : Bool) (co₁ : CryptoOptions)
    (key : Bytes) : Prop where
  iterated : (if epochFormat then epochCheckSendIterate hmacSha256 co else some co) = some co₁
  keyed : co₁.encrypt.cipher = some key
  initialized : co₁.packetId.recv.initialized = true
  ivLen : OPENVPN_AEAD_MIN_IV_LEN ≤ A.ivLen ∧ A.ivLen ≤ OPENVPN_MAX_IV_LENGTH
  idLeft : co₁.packetId.send.id < if epochFormat then PACKET_ID_EPOCH_MAX else PACKET_ID_MAX
  epoch : epochFormat = true → 1 ≤ co₁.encrypt.epoch ∧ co₁.encrypt.epoch ≤ UINT16_MAX

/-- The next packet id of a sender. -/
def sentPin (co : CryptoOptions) : PacketIdNet := ⟨co.packetId.send.id + 1, 0⟩

/-- The epoch under which a packet is sent, zero outside of the epoch format. -/
def sentEpoch (co : CryptoOptions) (epochFormat : Bool) : Nat :=
  if epochFormat then co.encrypt.epoch else 0

/-- Its bytes in the packet. -/
def sentPid (co : CryptoOptions) (epochFormat : Bool) : Bytes :=
  if epochFormat then beBytes 8 (co.encrypt.epoch * 2 ^ 48 + (sentPin co).id)
  else beBytes 4 (sentPin co).id

@[simp] theorem sentPid_length (co : CryptoOptions) (epochFormat : Bool) :
    (sentPid co epochFormat).length = aeadIdSize epochFormat := by
  cases epochFormat <;> simp [sentPid, aeadIdSize]

/-- The packet behind the opcode and peer id in `ad`. -/
def aeadPacket (co : CryptoOptions) (epochFormat : Bool) (key ad plain : Bytes) : Bytes :=
  let pid := sentPid co epochFormat
  let iv := aeadIv A.ivLen pid co.encrypt.implicitIv
  let ct := A.sealCt key iv (ad ++ pid) plain
  let tag := A.sealTag key iv (ad ++ pid) plain
  pid ++ if epochFormat then ct ++ tag else tag ++ ct

variable {hmacSha256 A} {co co₁ : CryptoOptions} {epochFormat : Bool} {key : Bytes}

theorem AeadReady.writeAeadId (h : AeadReady hmacSha256 A co epochFormat co₁ key) (now : Int) :
    ∃ send, DataChannel.writeAeadId A now co₁ epochFormat =
      (send, some (sentPid co₁ epochFormat)) := by
  have hroom : OPENVPN_AEAD_MIN_IV_LEN ≤ A.ivLen := h.ivLen.1
  unfold OPENVPN_AEAD_MIN_IV_LEN at hroom
  have hext : ∀ {n m : Nat}, n ≤ 8 →
      (bufExtend ⟨A.ivLen, 0, [], Nat.zero_le _⟩ (beBytes n m)).map (·.contents) =
        some (beBytes n m) := fun hn =>
    congrArg (Option.map _) (dif_pos (by simp; omega))
  have hid := h.idLeft
  cases epochFormat with
  | true =>
    obtain ⟨send, hwr, hsend⟩ := packetIdWriteEpoch_next now co₁.encrypt.epoch hid
    rw [hsend] at hwr
    have hsm : (beBytes 8 (co₁.encrypt.epoch * 2 ^ 48 + (co₁.packetId.send.id + 1))).length <
        BUF_SIZE_MAX := by
      rw [beBytes_length]
      decide
    refine ⟨send, ?_⟩
    simp only [DataChannel.writeAeadId, if_true, hwr, bufWrite_eq_extend _ hsm,
      hext le_rfl, sentPid, sentPin]
  | false =>
    have hne : co₁.packetId.send.id ≠ PACKET_ID_MAX := Nat.ne_of_lt hid
    have hsome : packetIdSendUpdate now co₁.packetId.send false ≠ none := fun hnone =>
      hne (packetIdSendUpdate_eq_none hnone)
    obtain ⟨send, hupd⟩ := ne_none_iff_exists'.mp hsome
    have hsend : send.id = co₁.packetId.send.id + 1 := by
      rcases packetIdSendUpdate_eq_some hupd with ⟨-, hid, -⟩ | ⟨hlong, -⟩
      · exact hid
      · cases hlong
    refine ⟨send, ?_⟩
    simp only [DataChannel.writeAeadId, Bool.false_eq_true, if_false, packetIdWrite_eq hupd,
      idBytes, hsend, hext (show 4 ≤ 8 by decide), sentPid, sentPin]

theorem sealInto_isSome (epochFormat : Bool) (key iv plain : Bytes) {work : Buffer}
    (hroom : work.offset + work.contents.length + (plain.length + OPENVPN_AEAD_TAG_LENGTH) ≤
      work.capacity) :
    ∃ out, sealInto A epochFormat key iv plain work = some out ∧
      out.contents = work.contents ++
        if epochFormat then
          A.sealCt key iv work.contents plain ++ A.sealTag key iv work.contents plain
        else A.sealTag key iv work.contents plain ++ A.sealCt key iv work.contents plain := by
  have hct := A.length_sealCt key iv work.contents plain
  have htag := A.length_sealTag key iv work.contents plain
  have hwr : ∀ buf, bufWrite buf (A.sealTag key iv work.contents plain) =
      bufExtend buf (A.sealTag key iv work.contents plain) :=
    fun buf => bufWrite_eq_extend buf (by rw [htag]; decide)
  have hext : ∀ bytes : Bytes, bytes.length = plain.length + OPENVPN_AEAD_TAG_LENGTH →
      ∃ out, bufExtend work bytes = some out ∧ out.contents = work.contents ++ bytes := by
    intro bytes hlen
    obtain ⟨out, hout, -, -, hcon⟩ := bufExtend_isSome
      (show work.offset + (work.contents.length + bytes.length) ≤ work.capacity by omega)
    exact ⟨out, hout, hcon⟩
  unfold sealInto
  simp only [hwr, bufExtend_bind]
  cases epochFormat with
  | true | false => exact hext _ (by rw [length_append]; omega)

/-- **A packet is sent.** A plaintext that fits goes out behind what was in the work
buffer. -/
theorem AeadReady.encrypt (h : AeadReady hmacSha256 A co epochFormat co₁ key) (now : Int)
    {buf work : Buffer}
    (hsize : buf.contents.length + OPENVPN_AEAD_TAG_LENGTH + A.blockSize < BUF_SIZE_MAX)
    (hroom : work.offset + work.contents.length + aeadIdSize epochFormat +
      (buf.contents.length + OPENVPN_AEAD_TAG_LENGTH + A.blockSize) ≤ work.capacity) :
    ∃ co' out, openvpnEncryptAead hmacSha256 A now buf work co epochFormat = some (co', out) ∧
      out.contents =
        work.contents ++ aeadPacket A co₁ epochFormat key work.contents buf.contents := by
  obtain ⟨send, hid⟩ := h.writeAeadId now
  have hlen := sentPid_length co₁ epochFormat
  have hpidSmall : (sentPid co₁ epochFormat).length < BUF_SIZE_MAX := by
    rw [hlen, aeadIdSize, BUF_SIZE_MAX]
    split <;> omega
  obtain ⟨work1, hwr, hoff, hcap, hcon⟩ := bufWrite_isSome work (sentPid co₁ epochFormat)
    hpidSmall (by omega)
  have hlen1 : work1.contents.length = work.contents.length + aeadIdSize epochFormat := by
    rw [hcon, length_append, hlen]
  have hsafe : bufSafe work1 (buf.contents.length + OPENVPN_AEAD_TAG_LENGTH + A.blockSize) =
      true := bufSafe_of hsize (by omega)
  obtain ⟨out, hseal, hout⟩ := sealInto_isSome (A := A) epochFormat key
    (aeadIv A.ivLen (sentPid co₁ epochFormat) co₁.encrypt.implicitIv) buf.contents
    (show work1.offset + work1.contents.length +
      (buf.contents.length + OPENVPN_AEAD_TAG_LENGTH) ≤ work1.capacity by omega)
  have hiv : ¬(A.ivLen < OPENVPN_AEAD_MIN_IV_LEN ∨ OPENVPN_MAX_IV_LENGTH < A.ivLen) := by
    have := h.ivLen
    omega
  have hinit : ¬co₁.packetId.recv.initialized = false := by
    rw [h.initialized]
    decide
  refine ⟨{ withSend co₁ send with encrypt := co₁.encrypt.addBlocks buf.contents.length }, out,
    ?_, ?_⟩
  · rw [openvpnEncryptAead, h.iterated, bind_some, h.keyed, bind_some, if_neg hinit,
      if_neg hiv, hid]
    simp only [withSend, hwr, bind_some, hsafe, if_true, hseal, map_some]
  · rw [hout, hcon, aeadPacket, append_assoc]

/-! ## What a receiver reads -/

/-- A receiver that has the key of the sender, may still use it and accepts the id. -/
structure AeadAccepts (hmacSha256 : Bytes → Bytes → Bytes) (sender : CryptoOptions)
    (epochFormat : Bool) (key : Bytes) (now : Int) (co co' : CryptoOptions) (slot : KeySlot)
    (ctx : KeyCtx) : Prop where
  current : co.decrypt.cipher ≠ none
  initialized : co.packetId.recv.initialized = true
  found : if epochFormat then epochLookupDecryptKey co sender.encrypt.epoch = some slot
    else slot = .current
  keyAt : co.keyAt slot = some ctx
  keyed : ctx.cipher = some key
  implicitIv : ctx.implicitIv = sender.encrypt.implicitIv
  usable : cipherDecryptVerifyFailExceeded ctx = false
  replay : cryptoCheckReplay hmacSha256 now co (sentPin sender) (sentEpoch sender epochFormat) =
    some (co', true)

section Accepts

variable {sender co' : CryptoOptions} {now : Int} {slot : KeySlot} {ctx : KeyCtx}
  (h : AeadAccepts hmacSha256 sender epochFormat key now co co' slot ctx)
  (hid : sender.packetId.send.id < if epochFormat then PACKET_ID_EPOCH_MAX else PACKET_ID_MAX)
  (hep : epochFormat = true → 1 ≤ sender.encrypt.epoch ∧ sender.encrypt.epoch ≤ UINT16_MAX)

include h hid hep

/-- The receiver reads the sender's id and finds its key. -/
theorem AeadAccepts.readAeadHead (rest : Bytes) :
    DataChannel.readAeadHead co epochFormat (sentPid sender epochFormat ++ rest) =
      some ⟨sentPid sender epochFormat, sentPin sender, sentEpoch sender epochFormat, slot⟩ := by
  have hslot := h.found
  cases epochFormat with
  | true =>
    have hlk : epochLookupDecryptKey co sender.encrypt.epoch = some slot := hslot
    obtain ⟨hpos, hmax⟩ := hep rfl
    have hlen : (sentPid sender true).length = 8 := sentPid_length sender true
    have hread : packetIdReadEpoch (beNat (sentPid sender true)) =
        (sender.encrypt.epoch, sentPin sender) := by
      have hsm : sender.encrypt.epoch * 2 ^ 48 + (sentPin sender).id < 256 ^ 8 := by
        have hid' : sender.packetId.send.id < PACKET_ID_EPOCH_MAX := hid
        simp only [PACKET_ID_EPOCH_MAX, UINT16_MAX] at hid' hmax
        simp only [sentPin]
        omega
      rw [sentPid, if_pos rfl, beNat_beBytes, Nat.mod_eq_of_lt hsm]
      exact packetIdReadEpoch_wireId hmax (show sender.packetId.send.id + 1 ≤ _ from hid)
    simp only [DataChannel.readAeadHead, if_true, take_left' hlen, hread, hlk,
      map_some, sentEpoch, if_neg (show ¬sender.encrypt.epoch = 0 by omega)]
  | false =>
    have hcur : slot = .current := hslot
    have hlen : (sentPid sender false).length = 4 := sentPid_length sender false
    have hsm : (sentPin sender).id < 0x100000000 := by
      have hid' : sender.packetId.send.id < PACKET_ID_MAX := hid
      unfold PACKET_ID_MAX at hid'
      simp only [sentPin]
      omega
    have hread : packetIdRead (sentPid sender false ++ rest) false =
        some (sentPin sender, rest) := by
      have := packetIdRead_idBytes false ⟨(sentPin sender).id, 0⟩ rest
      simp only [idBytes, idPin, Bool.false_eq_true, if_false, Nat.mod_eq_of_lt hsm] at this
      exact this
    simp only [DataChannel.readAeadHead, Bool.false_eq_true, if_false, hread, map_some,
      take_left' hlen, sentEpoch, hcur]

omit h hid hep in
theorem splitBody_eq (epochFormat : Bool) {ct tag : Bytes}
    (htag : tag.length = OPENVPN_AEAD_TAG_LENGTH) :
    splitBody epochFormat (if epochFormat then ct ++ tag else tag ++ ct) =
      (ct, tag, ct.length + if epochFormat then OPENVPN_AEAD_TAG_LENGTH else 0) := by
  cases epochFormat with
  | true =>
    simp only [splitBody, if_true, length_append, htag, Nat.add_sub_cancel, take_left, drop_left]
  | false =>
    simp only [splitBody, Bool.false_eq_true, if_false, length_append, htag,
      drop_left' htag, take_left' htag, Nat.add_sub_cancel_left, Nat.add_zero]

/-- **A packet is received.** The receiver gets the plaintext, and its window sees the id
the sender drew. -/
theorem AeadAccepts.decrypt {buf work : Buffer} {headroom : Nat} {ad plain : Bytes}
    (hplain : plain ≠ [])
    (hbuf : buf.contents = aeadPacket A sender epochFormat key ad plain)
    (hsize : plain.length + OPENVPN_AEAD_TAG_LENGTH + A.blockSize < BUF_SIZE_MAX)
    (hroom : headroom + (plain.length + OPENVPN_AEAD_TAG_LENGTH + A.blockSize) ≤ work.capacity) :
    ∃ out, openvpnDecryptAead hmacSha256 A now buf work co epochFormat headroom ad =
        some ({ co' with decrypt := co'.decrypt.addBlocks 0 }, out, true) ∧
      out.contents = plain := by
  have hpid := sentPid_length sender epochFormat
  -- the parts of the packet, under the names of the source
  generalize hiv : aeadIv A.ivLen (sentPid sender epochFormat) sender.encrypt.implicitIv = iv
  generalize hct : A.sealCt key iv (ad ++ sentPid sender epochFormat) plain = ct
  generalize htag : A.sealTag key iv (ad ++ sentPid sender epochFormat) plain = tag
  have hctLen : ct.length = plain.length := hct ▸ A.length_sealCt _ _ _ _
  have htagLen : tag.length = OPENVPN_AEAD_TAG_LENGTH := htag ▸ A.length_sealTag _ _ _ _
  have hopen : A.openCt key iv (ad ++ sentPid sender epochFormat) ct tag = some plain := by
    rw [← hct, ← htag, A.openCt_seal]
  have hpk : buf.contents = sentPid sender epochFormat ++
      if epochFormat then ct ++ tag else tag ++ ct := by
    rw [hbuf, aeadPacket, hiv, hct, htag]
  have hpos := length_pos_iff.mpr hplain
  have hlen : buf.contents.length =
      aeadIdSize epochFormat + (plain.length + OPENVPN_AEAD_TAG_LENGTH) := by
    rw [hpk, length_append, hpid]
    split
    case isTrue => rw [length_append, hctLen, htagLen]
    case isFalse => rw [length_append, hctLen, htagLen, Nat.add_comm plain.length]
  obtain ⟨work1, hinit, hcap, hoff, hemp⟩ :=
    bufInit_isSome (show headroom ≤ work.capacity by omega)
  have hextra : (if epochFormat then OPENVPN_AEAD_TAG_LENGTH else 0) ≤ OPENVPN_AEAD_TAG_LENGTH := by
    split <;> omega
  have hsafe : bufSafe work1 (ct.length + (if epochFormat then OPENVPN_AEAD_TAG_LENGTH else 0) +
      A.blockSize) = true :=
    bufSafe_of (by omega) (by rw [hcap, hoff, hemp, length_nil]; omega)
  obtain ⟨out, hext, -, -, hout⟩ :=
    bufExtend_isSome (show work1.offset + (work1.contents.length + plain.length) ≤
      work1.capacity by rw [hoff, hcap, hemp, length_nil]; omega)
  have hhead : DataChannel.readAeadHead co epochFormat buf.contents = some
      ⟨sentPid sender epochFormat, sentPin sender, sentEpoch sender epochFormat, slot⟩ := by
    rw [hpk]
    exact h.readAeadHead hid hep _
  have hspl : splitBody epochFormat (buf.contents.drop (sentPid sender epochFormat).length) =
      (ct, tag, ct.length + if epochFormat then OPENVPN_AEAD_TAG_LENGTH else 0) := by
    rw [hpk, drop_left, splitBody_eq epochFormat htagLen]
  have hbody : openAeadBody hmacSha256 A now buf work1 co epochFormat ad
      ⟨sentPid sender epochFormat, sentPin sender, sentEpoch sender epochFormat, slot⟩ ctx =
        some ({ co' with decrypt := co'.decrypt.addBlocks 0 }, out, true) := by
    simp only [openAeadBody, h.usable, Bool.and_false, Bool.false_eq_true, if_false, h.keyed,
      bind_some, hspl, hsafe, h.implicitIv, hiv, hopen, hext, h.replay, map_some]
    rfl
  refine ⟨out, ?_, by rw [hout, hemp, nil_append]⟩
  have hcur : (!epochFormat && cipherDecryptVerifyFailExceeded co.decrypt) = false := by
    cases epochFormat with
    | true => rfl
    | false =>
      have hctx : some co.decrypt = some ctx := by
        rw [← h.keyAt, show slot = .current from h.found]
        rfl
      rw [Option.some.inj hctx, h.usable]
      rfl
  have hne : ¬(buf.contents = [] ∨ co.decrypt.cipher = none) := by
    rw [not_or]
    exact ⟨length_pos_iff.mp (by omega), h.current⟩
  rw [openvpnDecryptAead, if_neg (by rw [hcur]; decide), if_neg hne, hinit,
    bind_some, if_neg (by rw [h.initialized]; decide), if_neg (by omega), hhead]
  simp only [h.keyAt, bind_some, hbody]

end Accepts

end OpenVpn.DataChannel
