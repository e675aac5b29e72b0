import OpenVpn.Control.TlsCrypt

/-!
# Data packets with CBC, OFB/CFB or no cipher (`openvpn_encrypt_v1`, `openvpn_decrypt_v1`)

Behind the opcode and peer id stand

    HMAC ‖ IV ‖ ciphertext       with a cipher
    HMAC ‖ packet id ‖ plaintext  without one

In CBC mode the packet id is the beginning of the plaintext, in OFB and CFB mode the
beginning of the IV, in the long form. The HMAC covers everything behind it.

* `V1Ready.encrypt` — what a sender with an id left writes.
* `V1Accepts.decrypt` — what a receiver with the same keys makes of it.
-/

namespace OpenVpn.DataChannel

open Base List Option Bool Nat

inductive CipherMode
  | cbc
  | ofbCfb
  deriving DecidableEq, Repr

/-- A cipher in one of the two modes, with what `cipher_ctx_update` and
`cipher_ctx_final` return, and an HMAC. -/
structure V1Primitives (κ η : Type) where
  mode : κ → CipherMode
  ivSize : κ → Nat
  blockSize : κ → Nat
  encryptUpdate : κ → (iv plain : Bytes) → Bytes
  encryptFinal : κ → (iv plain : Bytes) → Bytes
  decryptUpdate : κ → (iv ct : Bytes) → Option Bytes
  decryptFinal : κ → (iv ct : Bytes) → Option Bytes
  hmacSize : η → Nat
  hmac : η → Bytes → Bytes
  ofbCfb_iv : ∀ k, mode k = .ofbCfb → 8 ≤ ivSize k
  cbc_final : ∀ k iv plain, mode k = .cbc → (encryptFinal k iv plain).length = ivSize k
  length_le : ∀ k iv plain,
    (encryptUpdate k iv plain ++ encryptFinal k iv plain).length ≤ plain.length + blockSize k
  le_length : ∀ k iv plain,
    plain.length ≤ (encryptUpdate k iv plain ++ encryptFinal k iv plain).length
  decrypt_encrypt : ∀ k iv plain, ∃ u f,
    decryptUpdate k iv (encryptUpdate k iv plain ++ encryptFinal k iv plain) = some u ∧
      decryptFinal k iv (encryptUpdate k iv plain ++ encryptFinal k iv plain) = some f ∧
      u ++ f = plain
  length_hmac : ∀ k m, (hmac k m).length = hmacSize k

/-- `struct crypto_options` here: either key context may be missing. -/
abbrev V1Options (κ η : Type) : Type := TlsWrapOptions (Option κ) (Option η)

/-- Write over a part of the window. -/
def bufOverwrite (buf : Buffer) (start : Nat) (bs : Bytes) : Option Buffer :=
  if h : start + bs.length ≤ buf.contents.length then
    some { buf with
      contents := buf.contents.take start ++ bs ++ buf.contents.drop (start + bs.length)
      fits := by
        have := buf.fits
        simp only [length_append, length_take, length_drop]
        omega }
  else none

variable {buf : Buffer}

theorem bufOverwrite_isSome {start : Nat} {bs : Bytes}
    (h : start + bs.length ≤ buf.contents.length) :
    ∃ buf', bufOverwrite buf start bs = some buf' ∧
      buf'.contents = buf.contents.take start ++ bs ++ buf.contents.drop (start + bs.length) :=
  ⟨_, dif_pos h, rfl⟩

/-! ## Encryption -/

section V1

variable {κ η : Type} (P : V1Primitives κ η)

def macSize : Option η → Nat
  | none => 0
  | some h => P.hmacSize h

/-- `buf_write_alloc` of the space for the HMAC. -/
def reserveMac (h : Option η) (work : Buffer) : Option Buffer :=
  match h with
  | none => some work
  | some h => bufWrite work (replicate (P.hmacSize h) 0)

/-- `buf_prepend` of the same space. -/
def prependMac (h : Option η) (buf : Buffer) : Option Buffer :=
  match h with
  | none => some buf
  | some h => bufWritePrepend buf (replicate (P.hmacSize h) 0)

/-- Fill the reserved space with the HMAC of the last `n` bytes. -/
def writeMac (h : Option η) (n : Nat) (work : Buffer) : Option Buffer :=
  match h with
  | none => some work
  | some h =>
    bufOverwrite work (work.contents.length - n - P.hmacSize h)
      (P.hmac h (work.contents.drop (work.contents.length - n)))

/-- The packet id in front of the plaintext, if there are packet ids; `none` is the roll
over. -/
def prependId (now : Int) (opt : V1Options κ η) (buf : Buffer) : V1Options κ η × Option Buffer :=
  if opt.packetId.recv.initialized then
    match packetIdWrite now opt.packetId.send buf opt.packetIdLongForm true with
    | (send, buf) => (opt.withSend send, buf)
  else (opt, some buf)

/-- The IV and the plaintext of the two modes. The outer `none` is a failed assertion,
the inner one the roll over. -/
def prepareIv (now : Int) (prng : Nat → Bytes) (opt : V1Options κ η) (k : κ) (buf : Buffer) :
    Option (V1Options κ η × Option (Bytes × Buffer)) :=
  match P.mode k with
  | .cbc =>
    match prependId now opt buf with
    | (opt, buf) => some (opt, buf.map fun buf => (prng (P.ivSize k), buf))
  | .ofbCfb =>
    if opt.packetId.recv.initialized = false then none
    else
      match packetIdWrite now opt.packetId.send ⟨P.ivSize k, 0, [], zero_le _⟩ true false with
      | (_, none) => none
      | (send, some b) =>
        -- the rest of `iv_buf` is zero
        let iv := b.contents ++ replicate (P.ivSize k - b.contents.length) 0
        some (opt.withSend send, some (iv, buf))

/-- The ciphertext behind the IV, and the HMAC in front of it. -/
def encryptInto (k : κ) (h : Option η) (iv plain : Bytes) (work : Buffer) : Option Buffer :=
  let final := P.encryptFinal k iv plain
  (bufExtend work (P.encryptUpdate k iv plain)).bind fun work =>
    (bufExtend work final).bind fun work' =>
      if P.mode k = .cbc ∧ final.length ≠ P.ivSize k then none
      else
        writeMac P h (iv.length + (P.encryptUpdate k iv plain).length + final.length) work'

/-- `openvpn_encrypt_v1` of `buf` behind what is in `work`; `prng` are the bytes of
`prng_bytes`. -/
def openvpnEncryptV1 (now : Int) (prng : Nat → Bytes) (buf work : Buffer) (opt : V1Options κ η) :
    Option (V1Options κ η × Buffer) :=
  match opt.encrypt.cipher with
  | some k =>
    (reserveMac P opt.encrypt.hmac work).bind fun work =>
      (prepareIv P now prng opt k buf).bind fun
        | (opt, none) => some (opt, bufTruncate buf 0)
        | (opt, some (iv, buf)) =>
          (bufWrite work iv).bind fun work =>
            if bufSafe work (buf.contents.length + P.blockSize k) then
              (encryptInto P k opt.encrypt.hmac iv buf.contents work).map fun out => (opt, out)
            else some (opt, bufTruncate buf 0)
  | none =>
    match prependId now opt buf with
    | (opt, none) => some (opt, bufTruncate buf 0)
    | (opt, some buf) =>
      let n := buf.contents.length
      (prependMac P opt.encrypt.hmac buf).bind fun buf =>
        -- the result of this `buf_write_prepend` is not looked at
        let buf := (bufWritePrepend buf work.contents).getD buf
        (writeMac P opt.encrypt.hmac n buf).map fun out => (opt, out)

/-! ## Decryption -/

/-- The check of the HMAC; `none` is an error. -/
def checkMac (h : Option η) (buf : Buffer) : Option Buffer :=
  match h with
  | none => some buf
  | some h =>
    if buf.contents.length < P.hmacSize h then none
    else if P.hmac h (buf.contents.drop (P.hmacSize h)) = buf.contents.take (P.hmacSize h) then
      bufAdvance buf (P.hmacSize h)
    else none

/-- Read a packet id off a buffer, if there are packet ids; `none` is an error. -/
def readId (opt : V1Options κ η) (buf : Buffer) : Option (Buffer × Option PacketIdNet) :=
  if opt.packetId.recv.initialized then
    (packetIdRead buf.contents opt.packetIdLongForm).bind fun (pin, _) =>
      (bufAdvance buf (packetIdSize opt.packetIdLongForm)).map fun buf => (buf, some pin)
  else some (buf, none)

/-- The packet id of a decrypted packet, from the plaintext or from the IV. The outer
`none` is a failed assertion, the inner one an error. -/
def decryptedId (opt : V1Options κ η) (k : κ) (iv : Bytes) (work : Buffer) :
    Option (Option (Buffer × Option PacketIdNet)) :=
  match P.mode k with
  | .cbc => some (readId opt work)
  | .ofbCfb =>
    if opt.packetId.recv.initialized = false then none
    else some ((packetIdRead iv true).map fun (pin, _) => (work, some pin))

/-- The part of `openvpn_decrypt_v1` with a cipher. -/
def decryptPayload (opt : V1Options κ η) (k : κ) (buf work : Buffer) (headroom : Nat) :
    Option (Option (Buffer × Option PacketIdNet)) :=
  (bufInit work headroom).bind fun work =>
    if buf.contents.length < P.ivSize k then some none
    else
      let iv := buf.contents.take (P.ivSize k)
      let ct := buf.contents.drop (P.ivSize k)
      if ct.length < 1 then some none
      else if bufSafe work (ct.length + P.blockSize k) = false then some none
      else
        match P.decryptUpdate k iv ct with
        | none => some none
        | some u =>
          (bufExtend work u).bind fun work =>
            match P.decryptFinal k iv ct with
            | none => some none
            | some f => (bufExtend work f).bind fun work => decryptedId P opt k iv work

/-- The replay check at the end of `openvpn_decrypt_v1`. -/
def finishV1 (now : Int) (opt : V1Options κ η) (buf work : Buffer) (pin : Option PacketIdNet) :
    Option (V1Options κ η × Buffer × Bool) :=
  match pin with
  | none => some (opt, work, true)
  | some pin =>
    (cryptoCheckReplayWrap now opt pin).map fun
      | (opt, false) => (opt, bufTruncate buf 0, false)
      | (opt, true) => (opt, work, true)

def openvpnDecryptV1 (now : Int) (buf work : Buffer) (opt : V1Options κ η) (headroom : Nat) :
    Option (V1Options κ η × Buffer × Bool) :=
  match checkMac P opt.decrypt.hmac buf with
  | none => some (opt, bufTruncate buf 0, false)
  | some buf =>
    match opt.decrypt.cipher with
    | some k =>
      (decryptPayload P opt k buf work headroom).bind fun
        | none => some (opt, bufTruncate buf 0, false)
        | some (work, pin) => finishV1 now opt buf work pin
    | none =>
      match readId opt buf with
      | none => some (opt, bufTruncate buf 0, false)
      | some (work, pin) =>
        finishV1 now opt buf work (if opt.ignorePacketId then none else pin)

/-! ## The HMAC -/

def withMac (h : Option η) (payload : Bytes) : Bytes :=
  match h with
  | none => payload
  | some h => P.hmac h payload ++ payload

variable {P}

theorem length_withMac (h : Option η) (payload : Bytes) :
    (withMac P h payload).length = macSize P h + payload.length := by
  cases h with
  | none => simp [withMac, macSize]
  | some h => simp [withMac, macSize, P.length_hmac]

variable {work : Buffer}

theorem reserveMac_isSome (h : Option η) (hsize : macSize P h < BUF_SIZE_MAX)
    (hroom : work.offset + work.contents.length + macSize P h ≤ work.capacity) :
    ∃ work', reserveMac P h work = some work' ∧ work'.offset = work.offset ∧
      work'.capacity = work.capacity ∧
      work'.contents = work.contents ++ replicate (macSize P h) 0 := by
  cases h with
  | none => exact ⟨work, rfl, rfl, rfl, by simp [macSize]⟩
  | some h =>
    exact bufWrite_isSome work (replicate (P.hmacSize h) 0)
      (by rw [length_replicate]; exact hsize) (by rw [length_replicate]; exact hroom)

theorem prependMac_isSome (h : Option η) (hroom : macSize P h ≤ buf.offset) :
    ∃ buf', prependMac P h buf = some buf' ∧ buf'.offset = buf.offset - macSize P h ∧
      buf'.contents = replicate (macSize P h) 0 ++ buf.contents := by
  cases h with
  | none => exact ⟨buf, rfl, by simp [macSize]⟩
  | some h =>
    obtain ⟨buf', hprep, hoff, hcon⟩ := @bufWritePrepend_isSome buf
      (replicate (P.hmacSize h) 0) (by rw [length_replicate]; exact hroom)
    rw [length_replicate] at hoff
    exact ⟨buf', hprep, hoff, hcon⟩

theorem writeMac_isSome (h : Option η) {ad payload : Bytes}
    (hwork : work.contents = ad ++ (replicate (macSize P h) 0 ++ payload)) :
    ∃ out, writeMac P h payload.length work = some out ∧
      out.contents = ad ++ withMac P h payload := by
  cases h with
  | none => exact ⟨work, rfl, by simpa [macSize, withMac] using hwork⟩
  | some h =>
    have hlen : work.contents.length = ad.length + (P.hmacSize h + payload.length) := by
      rw [hwork, length_append, length_append, length_replicate, macSize]
    have hmac := P.length_hmac h payload
    have hstart : work.contents.length - payload.length - P.hmacSize h = ad.length := by omega
    have hpay : work.contents.drop (work.contents.length - payload.length) = payload := by
      rw [hlen, hwork, ← append_assoc]
      exact drop_left' (by simp [macSize]; omega)
    have hrest : work.contents.drop (ad.length + P.hmacSize h) = payload := by
      rw [hwork, ← append_assoc]
      exact drop_left' (by simp [macSize])
    have hfit : ad.length + (P.hmac h payload).length ≤ work.contents.length := by omega
    obtain ⟨out, hover, hout⟩ := bufOverwrite_isSome hfit
    refine ⟨out, ?_, ?_⟩
    · show bufOverwrite work (work.contents.length - payload.length - P.hmacSize h)
        (P.hmac h (work.contents.drop (work.contents.length - payload.length))) = some out
      rw [hpay, hstart, hover]
    · rw [hout, hmac, hrest, hwork, take_left, withMac, append_assoc]

theorem checkMac_isSome (h : Option η) {payload : Bytes}
    (hbuf : buf.contents = withMac P h payload) :
    ∃ buf', checkMac P h buf = some buf' ∧ buf'.contents = payload := by
  cases h with
  | none => exact ⟨buf, rfl, hbuf⟩
  | some h =>
    have hmac := P.length_hmac h payload
    have hcon : buf.contents = P.hmac h payload ++ payload := hbuf
    have hle : P.hmacSize h ≤ buf.contents.length := by
      rw [hcon, length_append]
      omega
    obtain ⟨buf', hadvance, -, -, hrest⟩ := bufAdvance_isSome hle
    have hdrop : buf.contents.drop (P.hmacSize h) = payload := by
      rw [hcon, drop_left' hmac]
    refine ⟨buf', ?_, by rw [hrest, hdrop]⟩
    have htake : buf.contents.take (P.hmacSize h) = P.hmac h payload := by
      rw [hcon, take_left' hmac]
    simp only [checkMac, if_neg (not_lt.mpr hle), hdrop, htake, if_true, hadvance]

/-! ## What a sender writes -/

variable (P)

def idForm (opt : V1Options κ η) : Bool :=
  match opt.encrypt.cipher with
  | some k => decide (P.mode k = .ofbCfb) || opt.packetIdLongForm
  | none => opt.packetIdLongForm

/-- The packet id in front of the plaintext. -/
def idPart (opt : V1Options κ η) (send : PacketIdSend) : Bytes :=
  if opt.packetId.recv.initialized then idBytes opt.packetIdLongForm send else []

/-- What is encrypted with the cipher `k`. -/
def innerPlain (opt : V1Options κ η) (k : κ) (send : PacketIdSend) (plain : Bytes) : Bytes :=
  match P.mode k with
  | .cbc => idPart opt send ++ plain
  | .ofbCfb => plain

/-- The IV in front of the ciphertext. -/
def sentIv (k : κ) (prng : Nat → Bytes) (send : PacketIdSend) : Bytes :=
  match P.mode k with
  | .cbc => prng (P.ivSize k)
  | .ofbCfb => wireBytes send ++ replicate (P.ivSize k - 8) 0

def ciphertext (k : κ) (iv plain : Bytes) : Bytes :=
  P.encryptUpdate k iv plain ++ P.encryptFinal k iv plain

/-- What stands behind the HMAC. -/
def v1Payload (opt : V1Options κ η) (prng : Nat → Bytes) (send : PacketIdSend) (plain : Bytes) :
    Bytes :=
  match opt.encrypt.cipher with
  | some k =>
    let iv := sentIv P k prng send
    iv ++ ciphertext P k iv (innerPlain P opt k send plain)
  | none => idPart opt send ++ plain

/-- The packet behind the opcode and peer id. -/
def v1Packet (opt : V1Options κ η) (prng : Nat → Bytes) (send : PacketIdSend) (plain : Bytes) :
    Bytes :=
  withMac P opt.encrypt.hmac (v1Payload P opt prng send plain)

/-- A sender that draws the id `send`, if it has packet ids at all. -/
structure V1Ready (now : Int) (opt : V1Options κ η) (send : PacketIdSend) : Prop where
  drawn : opt.packetId.recv.initialized = true →
    packetIdSendUpdate now opt.packetId.send (idForm P opt) = some send
  ofbCfb : ∀ k, opt.encrypt.cipher = some k → P.mode k = .ofbCfb →
    opt.packetId.recv.initialized = true

/-- The packet fits the buffers of the sender: the id, and without a cipher the whole
head, goes into the headroom of `buf`. -/
def V1Fits (opt : V1Options κ η) (send : PacketIdSend) (buf work : Buffer) : Prop :=
  match opt.encrypt.cipher with
  | some k =>
    let inner := (innerPlain P opt k send buf.contents).length
    (P.mode k = .cbc → (idPart opt send).length ≤ buf.offset) ∧
      macSize P opt.encrypt.hmac < BUF_SIZE_MAX ∧ P.ivSize k < BUF_SIZE_MAX ∧
      inner + P.blockSize k < BUF_SIZE_MAX ∧
      work.offset + work.contents.length + macSize P opt.encrypt.hmac + P.ivSize k +
        (inner + P.blockSize k) ≤ work.capacity
  | none =>
    (idPart opt send).length + macSize P opt.encrypt.hmac + work.contents.length ≤ buf.offset

variable {P}

variable {now : Int} {opt : V1Options κ η} {send : PacketIdSend}

theorem prependId_isSome (hdrawn : opt.packetId.recv.initialized = true →
      packetIdSendUpdate now opt.packetId.send opt.packetIdLongForm = some send)
    (hroom : (idPart opt send).length ≤ buf.offset) :
    ∃ opt' buf', prependId now opt buf = (opt', some buf') ∧ opt'.encrypt = opt.encrypt ∧
      buf'.contents = idPart opt send ++ buf.contents ∧
      buf'.offset = buf.offset - (idPart opt send).length := by
  unfold prependId idPart at *
  cases hinit : opt.packetId.recv.initialized with
  | false => exact ⟨opt, buf, by simp⟩
  | true =>
    simp only [hinit, if_true, length_idBytes] at hroom ⊢
    obtain ⟨buf', hwr, hoff⟩ : ∃ buf', packetIdWrite now opt.packetId.send buf
        opt.packetIdLongForm true = (send, some buf') ∧
        (true = true → buf'.offset = buf.offset - packetIdSize opt.packetIdLongForm) :=
      packetIdWrite_isSome (hdrawn hinit) hroom
    have hcon : buf'.contents = idBytes opt.packetIdLongForm send ++ buf.contents :=
      (packetIdWrite_eq_some hwr).2
    exact ⟨opt.withSend send, buf', by rw [hwr], rfl, hcon, hoff rfl⟩

variable {k : κ}

theorem V1Ready.prepareIv (h : V1Ready P now opt send) (hk : opt.encrypt.cipher = some k)
    (prng : Nat → Bytes) (hroom : P.mode k = .cbc → (idPart opt send).length ≤ buf.offset) :
    ∃ opt' buf', DataChannel.prepareIv P now prng opt k buf =
        some (opt', some (sentIv P k prng send, buf')) ∧
      opt'.encrypt = opt.encrypt ∧ buf'.contents = innerPlain P opt k send buf.contents := by
  have hdrawn := h.drawn
  unfold idForm at hdrawn
  rw [hk] at hdrawn
  unfold DataChannel.prepareIv sentIv innerPlain
  cases hmode : P.mode k with
  | cbc =>
    simp only [hmode, reduceCtorEq, decide_false, Bool.false_or] at hdrawn
    obtain ⟨opt', buf', hid, henc, hcon, -⟩ := prependId_isSome hdrawn (hroom hmode)
    exact ⟨opt', buf', by rw [hid]; rfl, henc, hcon⟩
  | ofbCfb =>
    have hinit := h.ofbCfb k hk hmode
    simp only [hmode, decide_true, Bool.true_or] at hdrawn
    have hiv := P.ofbCfb_iv k hmode
    have hlen : (wireBytes send).length = 8 := length_idBytes true send
    obtain ⟨b, hwr, -, -, hcon⟩ :=
      @bufExtend_isSome ⟨P.ivSize k, 0, [], zero_le _⟩ (wireBytes send)
        (show 0 + (0 + (wireBytes send).length) ≤ P.ivSize k by omega)
    refine ⟨opt.withSend send, buf, ?_, rfl, rfl⟩
    simp only [hinit, Bool.true_eq_false, Bool.false_eq_true, if_false, if_true,
      packetIdWrite_eq (hdrawn hinit), idBytes, hwr, hcon, hlen, nil_append]

variable {plain : Bytes}

theorem encryptInto_isSome (k : κ) (h : Option η) {iv ad : Bytes}
    (hwork : work.contents = ad ++ (replicate (macSize P h) 0 ++ iv))
    (hroom : work.offset + work.contents.length + (plain.length + P.blockSize k) ≤
      work.capacity) :
    ∃ out, encryptInto P k h iv plain work = some out ∧
      out.contents = ad ++ withMac P h (iv ++ ciphertext P k iv plain) := by
  have hle := P.length_le k iv plain
  obtain ⟨work2, hout, -, -, hcon2⟩ :=
    bufExtend_isSome (show work.offset + (work.contents.length +
      (ciphertext P k iv plain).length) ≤ work.capacity by unfold ciphertext; omega)
  rw [ciphertext, ← bufExtend_bind] at hout
  obtain ⟨work1, hupd, hfin⟩ := bind_eq_some_iff.mp hout
  have hpay : work2.contents = ad ++ (replicate (macSize P h) 0 ++
      (iv ++ ciphertext P k iv plain)) := by
    rw [hcon2, hwork, append_assoc, append_assoc]
  obtain ⟨out, hmac, hout⟩ := writeMac_isSome h hpay
  refine ⟨out, ?_, hout⟩
  have hblk : ¬(P.mode k = .cbc ∧ (P.encryptFinal k iv plain).length ≠ P.ivSize k) := by
    rintro ⟨hcbc, hne⟩
    exact hne (P.cbc_final k iv plain hcbc)
  have hn : iv.length + (P.encryptUpdate k iv plain).length + (P.encryptFinal k iv plain).length =
      (iv ++ ciphertext P k iv plain).length := by
    rw [ciphertext, length_append, length_append]
    omega
  simp only [encryptInto, hupd, bind_some, hfin, if_neg hblk, hn, hmac]

variable {prng : Nat → Bytes}

theorem length_sentIv (k : κ) (hprng : ∀ n, (prng n).length = n) (send : PacketIdSend) :
    (sentIv P k prng send).length = P.ivSize k := by
  unfold sentIv
  cases hmode : P.mode k with
  | cbc => exact hprng _
  | ofbCfb =>
    have h8 := P.ofbCfb_iv k hmode
    have hwire : (wireBytes send).length = 8 := length_idBytes true send
    rw [length_append, hwire, length_replicate]
    omega

/-- **A packet is sent.** -/
theorem V1Ready.encrypt (h : V1Ready P now opt send) (hprng : ∀ n, (prng n).length = n)
    (hfits : V1Fits P opt send buf work) :
    ∃ opt' out, openvpnEncryptV1 P now prng buf work opt = some (opt', out) ∧
      out.contents = work.contents ++ v1Packet P opt prng send buf.contents := by
  unfold V1Fits at hfits
  unfold openvpnEncryptV1 v1Packet v1Payload
  cases hk : opt.encrypt.cipher with
  | some k =>
    rw [hk] at hfits
    obtain ⟨hhead, hmacSize, hivSize, hinner, hroom⟩ := hfits
    have hiv := length_sentIv (P := P) k hprng send
    obtain ⟨work1, hreserve, hoff1, hcap1, hcon1⟩ :=
      reserveMac_isSome (P := P) opt.encrypt.hmac hmacSize
        (show work.offset + work.contents.length + _ ≤ work.capacity by omega)
    obtain ⟨opt', buf', hprepare, henc, hbuf'⟩ := h.prepareIv hk prng hhead
    have hlen1 : work1.contents.length = work.contents.length + macSize P opt.encrypt.hmac := by
      rw [hcon1, length_append, length_replicate]
    obtain ⟨work2, hwr, hoff2, hcap2, hcon2⟩ := bufWrite_isSome work1
      (sentIv P k prng send) (by rw [hiv]; exact hivSize) (by omega)
    have hlen2 : work2.contents.length =
        work.contents.length + macSize P opt.encrypt.hmac + P.ivSize k := by
      rw [hcon2, length_append, hlen1, hiv]
    have hwork2 : work2.contents = work.contents ++
        (replicate (macSize P opt.encrypt.hmac) 0 ++ sentIv P k prng send) := by
      rw [hcon2, hcon1, append_assoc]
    have hsafe : bufSafe work2 (buf'.contents.length + P.blockSize k) = true := by
      rw [hbuf']
      exact bufSafe_of hinner (by omega)
    obtain ⟨out, hout, hcon⟩ := encryptInto_isSome k opt.encrypt.hmac hwork2
      (show work2.offset + work2.contents.length + (buf'.contents.length + P.blockSize k) ≤
        work2.capacity by rw [hbuf']; omega)
    rw [hbuf'] at hcon
    refine ⟨opt', out, ?_, hcon⟩
    simp only [hreserve, bind_some, hprepare, hwr, hsafe, if_true, henc, hout, map_some]
  | none =>
    rw [hk] at hfits
    have hdrawn := h.drawn
    unfold idForm at hdrawn
    rw [hk] at hdrawn
    have hroom : (idPart opt send).length ≤ buf.offset := by
      dsimp only at hfits
      omega
    obtain ⟨opt', buf1, hid, henc, hcon1, hoff1⟩ := prependId_isSome hdrawn hroom
    dsimp only at hfits
    obtain ⟨buf2, hmac, hoff2, hcon2⟩ :=
      prependMac_isSome (P := P) opt.encrypt.hmac (show _ ≤ buf1.offset by omega)
    obtain ⟨buf3, hhead, -, hcon3⟩ :=
      bufWritePrepend_isSome (show work.contents.length ≤ buf2.offset by omega)
    rw [hcon2] at hcon3
    obtain ⟨out, hwr, hout⟩ := writeMac_isSome opt.encrypt.hmac hcon3
    rw [hcon1] at hout
    refine ⟨opt', out, ?_, hout⟩
    simp only [hid, henc, hmac, bind_some, hhead, getD_some, hwr, map_some]

/-! ## What a receiver reads -/

variable (P) in
/-- The id a sender draws, as the receiver should see it. -/
def v1Pin (sender : V1Options κ η) (send : PacketIdSend) : PacketIdNet :=
  ⟨send.id, if idForm P sender then send.time else 0⟩

/-- Id and time fit the 32 bits they have in the packet. -/
def FitsWire (send : PacketIdSend) : Prop :=
  send.id < 0x100000000 ∧ 0 ≤ send.time ∧ send.time < 0x100000000

theorem FitsWire.idPin (h : FitsWire send) (longForm : Bool) :
    idPin longForm send = ⟨send.id, if longForm then send.time else 0⟩ := by
  obtain ⟨hid, hpos, htime⟩ := h
  have hnet : ((netTime send.time : Nat) : Int) = send.time := by
    rw [netTime, Int.emod_eq_of_lt hpos htime, Int.toNat_of_nonneg hpos]
  cases longForm with
  | true => rw [OpenVpn.idPin, if_pos rfl, wirePin, mod_eq_of_lt hid, hnet, if_pos rfl]
  | false =>
    rw [OpenVpn.idPin, if_neg Bool.false_ne_true, Nat.mod_eq_of_lt hid, if_neg Bool.false_ne_true]

/-- The replay check looks at packet ids, unless there are none or, without a cipher,
they are to be ignored. -/
def checksReplay (opt : V1Options κ η) : Bool :=
  opt.packetId.recv.initialized && (opt.decrypt.cipher.isSome || !opt.ignorePacketId)

variable (P) in
/-- A receiver that has the keys of the sender and accepts the id. -/
structure V1Accepts (sender : V1Options κ η) (send : PacketIdSend) (now : Int)
    (opt opt' : V1Options κ η) : Prop where
  keys : opt.decrypt = sender.encrypt
  longForm : opt.packetIdLongForm = sender.packetIdLongForm
  initialized : opt.packetId.recv.initialized = sender.packetId.recv.initialized
  replay : if checksReplay opt then
      cryptoCheckReplayWrap now opt (v1Pin P sender send) = some (opt', true)
    else opt' = opt

section Accepts

variable {sender opt' : V1Options κ η} (h : V1Accepts P sender send now opt opt')

include h

theorem V1Accepts.finishV1 (buf work : Buffer) :
    DataChannel.finishV1 now opt buf work
        (if checksReplay opt then some (v1Pin P sender send) else none) =
      some (opt', work, true) := by
  have hrep := h.replay
  unfold DataChannel.finishV1
  cases hchk : checksReplay opt with
  | true =>
    rw [hchk, if_pos rfl] at hrep
    simp only [if_true, hrep, map_some]
  | false =>
    rw [hchk, if_neg Bool.false_ne_true] at hrep
    simp only [false_eq_true, if_false, hrep]

theorem V1Accepts.readId (hwire : FitsWire send) (hform : idForm P sender = sender.packetIdLongForm)
    (hwork : work.contents = idPart sender send ++ plain) :
    ∃ work', DataChannel.readId opt work = some (work',
        if opt.packetId.recv.initialized then some (v1Pin P sender send) else none) ∧
      work'.contents = plain := by
  unfold DataChannel.readId
  unfold idPart at hwork
  rw [h.initialized, h.longForm]
  cases hinit : sender.packetId.recv.initialized with
  | false => exact ⟨work, by simp, by simpa [hinit] using hwork⟩
  | true =>
    rw [hinit, if_pos rfl] at hwork
    have hlen := length_idBytes sender.packetIdLongForm send
    obtain ⟨work', hadvance, -, -, hcon⟩ :=
      bufAdvance_isSome (show packetIdSize sender.packetIdLongForm ≤ work.contents.length by
        rw [hwork, length_append, hlen]; omega)
    refine ⟨work', ?_, by rw [hcon, hwork, drop_left' hlen]⟩
    simp only [if_true, hwork, packetIdRead_idBytes, bind_some, hadvance, map_some,
      hwire.idPin, v1Pin, hform]

variable {now₀ : Int}

theorem V1Accepts.decryptedId (hrdy : V1Ready P now₀ sender send) (hwire : FitsWire send)
    (hk : sender.encrypt.cipher = some k) (prng : Nat → Bytes)
    (hwork : work.contents = innerPlain P sender k send plain) :
    ∃ work', DataChannel.decryptedId P opt k (sentIv P k prng send) work = some (some (work',
        if opt.packetId.recv.initialized then some (v1Pin P sender send) else none)) ∧
      work'.contents = plain := by
  have hform : idForm P sender = (decide (P.mode k = .ofbCfb) || sender.packetIdLongForm) := by
    unfold idForm
    rw [hk]
  unfold DataChannel.decryptedId sentIv
  unfold innerPlain at hwork
  cases hmode : P.mode k with
  | cbc =>
    rw [hmode] at hwork hform
    obtain ⟨work', hread, hcon⟩ := h.readId hwire hform hwork
    exact ⟨work', congrArg some hread, hcon⟩
  | ofbCfb =>
    rw [hmode] at hwork hform
    have hlong : idForm P sender = true := hform
    have hinit : opt.packetId.recv.initialized = true :=
      h.initialized.trans (hrdy.ofbCfb k hk hmode)
    refine ⟨work, ?_, hwork⟩
    have hread := packetIdRead_idBytes true send (replicate (P.ivSize k - 8) 0)
    rw [hwire.idPin, if_pos rfl, idBytes, if_pos rfl] at hread
    simp only [hinit, true_eq_false, if_false, if_true, hread, map_some, v1Pin, hlong]

/-- The receiver gets the plaintext and the id back. -/
theorem V1Accepts.decryptPayload (hrdy : V1Ready P now₀ sender send) (hwire : FitsWire send)
    (hk : sender.encrypt.cipher = some k) (hprng : ∀ n, (prng n).length = n) {headroom : Nat}
    (hplain : plain ≠ []) (hbuf : buf.contents = v1Payload P sender prng send plain)
    (hsize : buf.contents.length - P.ivSize k + P.blockSize k < BUF_SIZE_MAX)
    (hroom : headroom + (buf.contents.length - P.ivSize k + P.blockSize k) ≤ work.capacity) :
    ∃ work', DataChannel.decryptPayload P opt k buf work headroom = some (some (work',
        if opt.packetId.recv.initialized then some (v1Pin P sender send) else none)) ∧
      work'.contents = plain := by
  have hiv := length_sentIv (P := P) k hprng send
  unfold v1Payload at hbuf
  rw [hk] at hbuf
  dsimp only at hbuf
  generalize hct : ciphertext P k (sentIv P k prng send) (innerPlain P sender k send plain) = ct
    at hbuf
  have hinner : plain.length ≤ (innerPlain P sender k send plain).length := by
    unfold innerPlain
    split <;> simp
  have hle : (innerPlain P sender k send plain).length ≤ ct.length := hct ▸ P.le_length _ _ _
  have hpos := length_pos_iff.mpr hplain
  have hlen : buf.contents.length = P.ivSize k + ct.length := by
    rw [hbuf, length_append, hiv]
  have htake : buf.contents.take (P.ivSize k) = sentIv P k prng send := by
    rw [hbuf, take_left' hiv]
  have hdrop : buf.contents.drop (P.ivSize k) = ct := by
    rw [hbuf, drop_left' hiv]
  obtain ⟨u, f, hupd, hfin, huf⟩ :=
    P.decrypt_encrypt k (sentIv P k prng send) (innerPlain P sender k send plain)
  change P.decryptUpdate k _ (ciphertext P k _ _) = _ at hupd
  change P.decryptFinal k _ (ciphertext P k _ _) = _ at hfin
  rw [hct] at hupd hfin
  obtain ⟨work1, hinit, hcap1, hoff1, hemp⟩ :=
    bufInit_isSome (show headroom ≤ work.capacity by omega)
  have hsafe : bufSafe work1 (ct.length + P.blockSize k) = true :=
    bufSafe_of (by omega) (by rw [hcap1, hoff1, hemp, length_nil]; omega)
  obtain ⟨work3, hout, -, -, hcon3⟩ :=
    bufExtend_isSome (show work1.offset + (work1.contents.length + (u ++ f).length) ≤
      work1.capacity by rw [hoff1, hcap1, hemp, length_nil, huf]; omega)
  rw [hemp, nil_append, huf] at hcon3
  rw [← bufExtend_bind] at hout
  obtain ⟨work2, hext2, hext3⟩ := bind_eq_some_iff.mp hout
  obtain ⟨work', hid, hcon⟩ := h.decryptedId hrdy hwire hk prng hcon3
  refine ⟨work', ?_, hcon⟩
  simp only [DataChannel.decryptPayload, hinit, bind_some,
    if_neg (show ¬buf.contents.length < P.ivSize k by omega), htake, hdrop,
    if_neg (show ¬ct.length < 1 by omega), hsafe, true_eq_false, if_false, hupd, hext2,
    hfin, hext3, hid]

/-- **A packet is received.** The receiver gets the plaintext, and its window sees the id
the sender drew. -/
theorem V1Accepts.decrypt (hrdy : V1Ready P now₀ sender send) (hwire : FitsWire send)
    (hprng : ∀ n, (prng n).length = n) {headroom : Nat} (hplain : plain ≠ [])
    (hbuf : buf.contents = v1Packet P sender prng send plain)
    (hroom : ∀ k, sender.encrypt.cipher = some k →
      buf.contents.length - macSize P sender.encrypt.hmac - P.ivSize k + P.blockSize k <
          BUF_SIZE_MAX ∧
        headroom + (buf.contents.length - macSize P sender.encrypt.hmac - P.ivSize k +
          P.blockSize k) ≤ work.capacity) :
    ∃ out, openvpnDecryptV1 P now buf work opt headroom = some (opt', out, true) ∧
      out.contents = plain := by
  obtain ⟨buf1, hmac, hcon⟩ := checkMac_isSome sender.encrypt.hmac hbuf
  have hfin := h.finishV1
  have hlen : buf1.contents.length = buf.contents.length - macSize P sender.encrypt.hmac := by
    rw [hcon, hbuf, v1Packet, length_withMac]
    omega
  unfold openvpnDecryptV1
  unfold checksReplay at hfin
  rw [h.keys] at hfin ⊢
  rw [hmac]
  cases hk : sender.encrypt.cipher with
  | some k =>
    rw [hk, isSome_some, Bool.true_or, Bool.and_true] at hfin
    obtain ⟨hsize, hcapacity⟩ := hroom k hk
    rw [← hlen] at hsize hcapacity
    obtain ⟨work', hpay, hplain'⟩ :=
      h.decryptPayload hrdy hwire hk hprng hplain hcon hsize hcapacity
    refine ⟨work', ?_, hplain'⟩
    simp only [hpay, bind_some, hfin]
  | none =>
    rw [hk, isSome_none, Bool.false_or] at hfin
    have hform : idForm P sender = sender.packetIdLongForm := by
      unfold idForm
      rw [hk]
    unfold v1Payload at hcon
    rw [hk] at hcon
    obtain ⟨work', hread, hplain'⟩ := h.readId hwire hform hcon
    refine ⟨work', ?_, hplain'⟩
    have hpin : (if opt.ignorePacketId = true then none
        else if opt.packetId.recv.initialized = true then some (v1Pin P sender send) else none) =
        if (opt.packetId.recv.initialized && !opt.ignorePacketId) = true then
          some (v1Pin P sender send) else none := by
      cases opt.ignorePacketId <;> cases opt.packetId.recv.initialized <;> rfl
    simp only [hread, hpin, hfin]

end Accepts

end V1

end OpenVpn.DataChannel
