import OpenVpn.Control.Ack
import OpenVpn.Epoch.Steps
import OpenVpn.PacketId.Persist
import OpenVpn.PacketId.Sequential

/-!
# The tls-crypt wrapping of control packets (`tls_crypt.c`)

A wrapped packet is a header of opcode and session id, a long packet id, a tag and
the encrypted payload. The tag is the HMAC of all that stands before it and of the
plain payload, and its first half is the IV of the stream cipher.

The cipher and the HMAC are parameters with the laws the layout relies on
(`TlsCryptPrimitives`). The results of a function that can run through an `ASSERT`
are an `Option`, `none` being the abort.

* `tlsCryptWrap`, `tlsCryptUnwrap` — the two functions.
* `tlsCryptUnwrap_cases` — every way an unwrap can end.
* `tls_crypt_wrap_unwrap` — the round trip, what an accepted packet carries, and what
  a failed unwrap leaves behind.
-/

namespace OpenVpn

open Base List Option

def TLS_CRYPT_TAG_SIZE : Nat := 32
def TLS_CRYPT_PID_SIZE : Nat := 8
def TLS_CRYPT_BLOCK_SIZE : Nat := 16
def TLS_CRYPT_OFF_PID : Nat := 1 + SID_SIZE
def TLS_CRYPT_OFF_TAG : Nat := TLS_CRYPT_OFF_PID + TLS_CRYPT_PID_SIZE
def TLS_CRYPT_OFF_CT : Nat := TLS_CRYPT_OFF_TAG + TLS_CRYPT_TAG_SIZE

/-! ## Wrap and unwrap -/

section TlsCrypt

variable {κ η : Type}

/-- AES-256-CTR and HMAC-SHA256 as the wrapping uses them; `none` is an error of the
crypto library. -/
structure TlsCryptPrimitives (κ η : Type) where
  encrypt : κ → (iv : Bytes) → Bytes → Bytes
  decrypt : κ → (iv : Bytes) → Bytes → Option Bytes
  hmac : η → Bytes → Bytes
  length_encrypt : ∀ k iv x, (encrypt k iv x).length = x.length
  length_decrypt : ∀ {k iv c x}, decrypt k iv c = some x → x.length = c.length
  decrypt_encrypt : ∀ k iv x, decrypt k iv (encrypt k iv x) = some x
  length_hmac : ∀ k m, (hmac k m).length = TLS_CRYPT_TAG_SIZE

/-- `struct key_ctx` of one direction. -/
structure TlsWrapKey (κ η : Type) where
  cipher : κ
  hmac : η
  deriving DecidableEq

/-- `struct crypto_options` of a wrapping context, with the two flags it looks at. -/
structure TlsWrapOptions (κ η : Type) where
  encrypt : TlsWrapKey κ η
  decrypt : TlsWrapKey κ η
  packetId : PacketId
  pidPersist : Option PacketIdPersist
  ignorePacketId : Bool
  packetIdLongForm : Bool
  deriving DecidableEq

def TlsWrapOptions.withSend (opt : TlsWrapOptions κ η) (send : PacketIdSend) : TlsWrapOptions κ η :=
  { opt with packetId := { opt.packetId with send } }

def TlsWrapOptions.withRecv (opt : TlsWrapOptions κ η) (recv : PacketIdRec) : TlsWrapOptions κ η :=
  { opt with packetId := { opt.packetId with recv } }

/-- `crypto_check_replay` with epoch zero, the form tls-crypt uses. -/
def cryptoCheckReplayWrap (now : Int) (opt : TlsWrapOptions κ η) (pin : PacketIdNet) :
    Option (TlsWrapOptions κ η × Bool) :=
  match packetIdCheck now opt.packetId.recv pin with
  | none => none
  | some (recv, false) => some (opt.withRecv recv, false)
  | some (recv, true) =>
    let opt := opt.withRecv recv
    if opt.packetIdLongForm then
      some ({ opt with
          pidPersist := opt.pidPersist.map (packetIdPersistSaveObj · opt.packetId) }, true)
    else some (opt, true)

/-- The errors of `tls_crypt_unwrap`. -/
inductive UnwrapError
  | packetTooShort
  | potentialBufferOverflow
  | cipherFailed
  | packetAuthenticationFailed
  | packetReplay
  deriving DecidableEq, Repr

/-- What an unwrap leaves; without an error it returned true. -/
structure Unwrapped (κ η : Type) where
  opt : TlsWrapOptions κ η
  dst : Buffer
  error : Option UnwrapError
  deriving DecidableEq

def cryptError (opt : TlsWrapOptions κ η) (dst : Buffer) (e : UnwrapError) : Unwrapped κ η :=
  ⟨opt, bufTruncate dst 0, some e⟩

/-- The output buffer of `tls_crypt_unwrap` is one its caller has just allocated. -/
def EmptyBuffer : Type := { buf : Buffer // buf.contents = [] }

variable (P : TlsCryptPrimitives κ η)

/-- `tls_crypt_wrap` of the payload `src` behind the header in `dst`. -/
def tlsCryptWrap (now : Int) (src : Bytes) (dst : Buffer) (opt : TlsWrapOptions κ η) :
    Option (TlsWrapOptions κ η × Buffer × Bool) :=
  if opt.packetId.recv.initialized = false then none
  else
    match packetIdWrite now opt.packetId.send dst true false with
    | (send, none) => some (opt.withSend send, bufTruncate dst 0, false)
    | (send, some dst) =>
      if bufSafe dst (src.length + TLS_CRYPT_BLOCK_SIZE + TLS_CRYPT_TAG_SIZE) then
        let tag := P.hmac opt.encrypt.hmac (dst.contents ++ src)
        (bufWrite dst tag).bind fun dst =>
          (bufExtend dst (P.encrypt opt.encrypt.cipher (tag.take TLS_CRYPT_BLOCK_SIZE) src)).map
            fun dst => (opt.withSend send, dst, true)
      else some (opt.withSend send, bufTruncate dst 0, false)

def tagField (src : Bytes) : Bytes := (src.drop TLS_CRYPT_OFF_TAG).take TLS_CRYPT_TAG_SIZE

/-- The replay check at the end of `tls_crypt_unwrap`. -/
def unwrapReplay (now : Int) (src : Bytes) (dst : Buffer) (opt : TlsWrapOptions κ η) :
    Option (Unwrapped κ η) :=
  if opt.ignorePacketId then some ⟨opt, dst, none⟩
  else
    match packetIdRead (src.drop TLS_CRYPT_OFF_PID) true with
    | none => none
    | some (pin, _) =>
      match cryptoCheckReplayWrap now opt pin with
      | none => none
      | some (opt, true) => some ⟨opt, dst, none⟩
      | some (opt, false) => some (cryptError opt dst .packetReplay)

/-- `tls_crypt_unwrap` of a packet into an empty buffer. -/
def tlsCryptUnwrap (now : Int) (src : Bytes) (dst : EmptyBuffer) (opt : TlsWrapOptions κ η) :
    Option (Unwrapped κ η) :=
  if src = [] then none
  else if opt.packetId.recv.initialized = false ∧ opt.ignorePacketId = false then none
  else if src.length < TLS_CRYPT_OFF_CT then some (cryptError opt dst.1 .packetTooShort)
  else if bufSafe dst.1 (src.length - TLS_CRYPT_OFF_CT + TLS_CRYPT_BLOCK_SIZE) = false then
    some (cryptError opt dst.1 .potentialBufferOverflow)
  else
    match P.decrypt opt.decrypt.cipher ((src.drop TLS_CRYPT_OFF_TAG).take TLS_CRYPT_BLOCK_SIZE)
        (src.drop TLS_CRYPT_OFF_CT) with
    | none => some (cryptError opt dst.1 .cipherFailed)
    | some plain =>
      match bufExtend dst.1 plain with
      | none => none
      | some dst =>
        if tagField src ≠ P.hmac opt.decrypt.hmac (src.take TLS_CRYPT_OFF_TAG ++ dst.contents)
        then some (cryptError opt dst .packetAuthenticationFailed)
        else unwrapReplay now src dst opt

/-! ## The packet id in the packet -/

@[simp] theorem wireBytes_length (p : PacketIdSend) :
    (wireBytes p).length = TLS_CRYPT_PID_SIZE := by
  simp [wireBytes, TLS_CRYPT_PID_SIZE]

variable {now : Int}

theorem packetIdWrite_append {p p' : PacketIdSend} (buf : Buffer)
    (hsend : packetIdSendUpdate now p true = some p')
    (hroom : buf.offset + buf.contents.length + TLS_CRYPT_PID_SIZE ≤ buf.capacity) :
    ∃ buf', packetIdWrite now p buf true false = (p', some buf') ∧ buf'.offset = buf.offset ∧
      buf'.capacity = buf.capacity ∧ buf'.contents = buf.contents ++ wireBytes p' := by
  rw [← wireBytes_length p', Nat.add_assoc] at hroom
  obtain ⟨buf', hwr, h⟩ := bufExtend_isSome hroom
  exact ⟨buf', by rw [packetIdWrite_eq hsend, ← hwr]; rfl, h⟩

/-! ## The round trip -/

def wrappedPacket (key : TlsWrapKey κ η) (send : PacketIdSend) (header src : Bytes) : Bytes :=
  let ad := header ++ wireBytes send
  let tag := P.hmac key.hmac (ad ++ src)
  ad ++ (tag ++ P.encrypt key.cipher (tag.take TLS_CRYPT_BLOCK_SIZE) src)

variable {P}

variable {opt : TlsWrapOptions κ η}

theorem tlsCryptWrap_spec {src : Bytes} {dst : Buffer} {send : PacketIdSend}
    (hinit : opt.packetId.recv.initialized = true)
    (hsend : packetIdSendUpdate now opt.packetId.send true = some send)
    (hsize : src.length + TLS_CRYPT_BLOCK_SIZE + TLS_CRYPT_TAG_SIZE < BUF_SIZE_MAX)
    (hroom : dst.offset + dst.contents.length + TLS_CRYPT_PID_SIZE +
      (src.length + TLS_CRYPT_BLOCK_SIZE + TLS_CRYPT_TAG_SIZE) ≤ dst.capacity) :
    ∃ out, tlsCryptWrap P now src dst opt = some (opt.withSend send, out, true) ∧
      out.contents = wrappedPacket P opt.encrypt send dst.contents src := by
  obtain ⟨buf, hwr, hoff, hcap, hcon⟩ :=
    packetIdWrite_append dst hsend (by omega)
  have hlen : buf.contents.length = dst.contents.length + TLS_CRYPT_PID_SIZE := by
    rw [hcon, length_append, wireBytes_length]
  have hsafe : bufSafe buf (src.length + TLS_CRYPT_BLOCK_SIZE + TLS_CRYPT_TAG_SIZE) = true :=
    bufSafe_of hsize (by omega)
  generalize htag : P.hmac opt.encrypt.hmac (buf.contents ++ src) = tag
  generalize hct : P.encrypt opt.encrypt.cipher (tag.take TLS_CRYPT_BLOCK_SIZE) src = ct
  have hlenTag : tag.length = TLS_CRYPT_TAG_SIZE := htag ▸ P.length_hmac _ _
  have hlenCt : ct.length = src.length := hct ▸ P.length_encrypt _ _ _
  have hfit : buf.offset + (buf.contents.length + (tag ++ ct).length) ≤ buf.capacity := by
    rw [length_append]
    omega
  -- tag and ciphertext go out as one write
  obtain ⟨out, hout, -, -, hcontents'⟩ := bufExtend_isSome hfit
  rw [← bufExtend_bind, ← bufWrite_eq_extend buf (by omega)] at hout
  obtain ⟨buf1, hwriteTag, hext⟩ := bind_eq_some_iff.mp hout
  refine ⟨out, ?_, ?_⟩
  · simp [tlsCryptWrap, hinit, hwr, hsafe, htag, hwriteTag, hct, hext]
  · rw [hcontents', wrappedPacket, ← hcon, htag, hct]

section Layout

variable {key : TlsWrapKey κ η} {send : PacketIdSend} {header src : Bytes}

section

variable (hheader : header.length = TLS_CRYPT_OFF_PID)

include hheader

theorem wrappedPacket_drop_tag :
    (wrappedPacket P key send header src).drop TLS_CRYPT_OFF_TAG =
      P.hmac key.hmac (header ++ wireBytes send ++ src) ++
        P.encrypt key.cipher ((P.hmac key.hmac (header ++ wireBytes send ++ src)).take
          TLS_CRYPT_BLOCK_SIZE) src := by
  rw [wrappedPacket]
  exact drop_left' (by rw [length_append, hheader, wireBytes_length]; rfl)

theorem wrappedPacket_tagField :
    tagField (wrappedPacket P key send header src) =
      P.hmac key.hmac (header ++ wireBytes send ++ src) := by
  rw [tagField, wrappedPacket_drop_tag hheader]
  exact take_left' (P.length_hmac ..)

theorem wrappedPacket_iv :
    ((wrappedPacket P key send header src).drop TLS_CRYPT_OFF_TAG).take TLS_CRYPT_BLOCK_SIZE =
      (P.hmac key.hmac (header ++ wireBytes send ++ src)).take TLS_CRYPT_BLOCK_SIZE := by
  rw [wrappedPacket_drop_tag hheader]
  exact take_append_of_le_length (by rw [P.length_hmac]; decide)

theorem wrappedPacket_ct :
    (wrappedPacket P key send header src).drop TLS_CRYPT_OFF_CT =
      P.encrypt key.cipher ((P.hmac key.hmac (header ++ wireBytes send ++ src)).take
          TLS_CRYPT_BLOCK_SIZE) src := by
  rw [TLS_CRYPT_OFF_CT, ← drop_drop, wrappedPacket_drop_tag hheader]
  exact drop_left' (P.length_hmac ..)

theorem wrappedPacket_ad :
    (wrappedPacket P key send header src).take TLS_CRYPT_OFF_TAG = header ++ wireBytes send := by
  rw [wrappedPacket]
  exact take_left' (by rw [length_append, hheader, wireBytes_length]; rfl)

theorem wrappedPacket_pid :
    ∃ rest, packetIdRead ((wrappedPacket P key send header src).drop TLS_CRYPT_OFF_PID) true =
      some (wirePin send, rest) := by
  rw [wrappedPacket, append_assoc, drop_left' hheader, packetIdRead_wireBytes]
  exact ⟨_, rfl⟩

theorem wrappedPacket_length :
    (wrappedPacket P key send header src).length = TLS_CRYPT_OFF_CT + src.length := by
  rw [wrappedPacket, length_append, length_append, length_append, hheader,
    wireBytes_length, P.length_hmac, P.length_encrypt, TLS_CRYPT_OFF_CT, TLS_CRYPT_OFF_TAG]
  omega

end

end Layout

/-! ## What an unwrap can do -/

variable (P) in
/-- The tag of a packet is that of its header, its packet id and its decrypted rest. -/
def Authentic (key : TlsWrapKey κ η) (src plain : Bytes) : Prop :=
  TLS_CRYPT_OFF_CT ≤ src.length ∧
    P.decrypt key.cipher ((src.drop TLS_CRYPT_OFF_TAG).take TLS_CRYPT_BLOCK_SIZE)
      (src.drop TLS_CRYPT_OFF_CT) = some plain ∧
    tagField src = P.hmac key.hmac (src.take TLS_CRYPT_OFF_TAG ++ plain)

/-- The packet id of a packet passes the replay check, or there is none. -/
def ReplayAccepts (now : Int) (opt : TlsWrapOptions κ η) (pin : PacketIdNet) : Prop :=
  opt.ignorePacketId = true ∨ ∃ recv, packetIdCheck now opt.packetId.recv pin = some (recv, true)

/-- The receive state after a rejected id: cells that are too old are gone and the
statistics may have moved, but no id was added. -/
def OnlyReaped (now : Int) (before after : PacketIdRec) : Prop :=
  ∃ reaped, packetIdReapTest now before = some reaped ∧
    after = { reaped with maxBacktrackStat := after.maxBacktrackStat }

variable {p p' : PacketIdRec} {pin : PacketIdNet} {ok : Bool}

theorem packetIdTest_stat (h : packetIdTest p pin = some (p', ok)) :
    p' = { p with maxBacktrackStat := p'.maxBacktrackStat } := by
  unfold packetIdTest at h
  dsimp only at h
  repeat' split at h
  all_goals
    cases h
    try rfl

theorem packetIdCheck_rejected (h : packetIdCheck now p pin = some (p', false)) :
    OnlyReaped now p p' := by
  obtain ⟨reaped, hreap, htest⟩ := bind_eq_some_iff.mp h
  refine ⟨reaped, hreap, ?_⟩
  unfold packetIdTestAdd at htest
  split at htest
  case h_1 => cases htest
  case h_2 p1 heq =>
    cases htest
    exact packetIdTest_stat heq
  case h_3 =>
    obtain ⟨_, _, hpair⟩ := map_eq_some_iff.mp htest
    cases hpair

theorem cryptoCheckReplayWrap_cases {opt' : TlsWrapOptions κ η}
    (h : cryptoCheckReplayWrap now opt pin = some (opt', ok)) :
    ∃ recv, packetIdCheck now opt.packetId.recv pin = some (recv, ok) ∧
      (ok = false → opt' = opt.withRecv recv) := by
  unfold cryptoCheckReplayWrap at h
  split at h
  case h_1 => cases h
  case h_2 recv hchk =>
    cases h
    exact ⟨recv, hchk, fun _ => rfl⟩
  case h_3 recv hchk =>
    dsimp only at h
    split at h
    all_goals
      cases h
      exact ⟨recv, hchk, fun hok => absurd hok (by decide)⟩

/-- Every way the replay check can end. -/
inductive ReplayEnd (now : Int) (src : Bytes) (dst : Buffer) (opt : TlsWrapOptions κ η)
    (un : Unwrapped κ η) : Prop
  | ignored (hflag : opt.ignorePacketId = true) (hun : un = ⟨opt, dst, none⟩)
  | accepted (pin : PacketIdNet) (rest : Bytes) (recv : PacketIdRec)
      (hread : packetIdRead (src.drop TLS_CRYPT_OFF_PID) true = some (pin, rest))
      (hcheck : packetIdCheck now opt.packetId.recv pin = some (recv, true))
      (hdst : un.dst = dst) (herror : un.error = none)
  | rejected (pin : PacketIdNet) (recv : PacketIdRec)
      (hcheck : packetIdCheck now opt.packetId.recv pin = some (recv, false))
      (hun : un = cryptError (opt.withRecv recv) dst .packetReplay)

theorem unwrapReplay_cases {src : Bytes} {dst : Buffer} {un : Unwrapped κ η}
    (h : unwrapReplay now src dst opt = some un) : ReplayEnd now src dst opt un := by
  unfold unwrapReplay at h
  split at h
  case isTrue hflag =>
    cases h
    exact .ignored hflag rfl
  case isFalse =>
    split at h
    case h_1 => cases h
    case h_2 pin rest hread =>
      split at h
      case h_1 => cases h
      case h_2 opt' hchk =>
        cases h
        obtain ⟨recv, hrecv, -⟩ := cryptoCheckReplayWrap_cases hchk
        exact .accepted pin rest recv hread hrecv rfl rfl
      case h_3 opt' hchk =>
        cases h
        obtain ⟨recv, hrecv, hopt⟩ := cryptoCheckReplayWrap_cases hchk
        exact .rejected pin recv hrecv (by rw [hopt rfl])

variable (P) in
/-- Every way an unwrap can end. -/
inductive UnwrapEnd (now : Int) (src : Bytes) (opt : TlsWrapOptions κ η) (un : Unwrapped κ η) :
    Prop
  | failed (dst : Buffer) (e : UnwrapError) (hun : un = cryptError opt dst e)
  | checked (plain : Bytes) (dst : Buffer) (hauth : Authentic P opt.decrypt src plain)
      (hdst : dst.contents = plain) (hend : ReplayEnd now src dst opt un)

theorem tlsCryptUnwrap_cases {src : Bytes} {dst : EmptyBuffer} {un : Unwrapped κ η}
    (h : tlsCryptUnwrap P now src dst opt = some un) : UnwrapEnd P now src opt un := by
  unfold tlsCryptUnwrap at h
  split at h
  case isTrue => cases h
  case isFalse =>
  split at h
  case isTrue => cases h
  case isFalse =>
  split at h
  case isTrue => exact .failed _ _ (some.inj h).symm
  case isFalse hlen =>
  split at h
  case isTrue => exact .failed _ _ (some.inj h).symm
  case isFalse =>
  split at h
  case h_1 => exact .failed _ _ (some.inj h).symm
  case h_2 plain hplain =>
  split at h
  case h_1 => cases h
  case h_2 buf hext =>
  have hcon : buf.contents = plain := by
    rw [bufExtend_eq_some hext, dst.2, nil_append]
  split at h
  case isTrue => exact .failed _ _ (some.inj h).symm
  case isFalse htag =>
  rw [hcon, ne_eq, not_not] at htag
  exact .checked plain buf ⟨Nat.not_lt.mp hlen, hplain, htag⟩ hcon (unwrapReplay_cases h)

/-! ## The main result -/

theorem unwrapReplay_accepts {src rest : Bytes} (dst : Buffer)
    (hread : packetIdRead (src.drop TLS_CRYPT_OFF_PID) true = some (pin, rest))
    (haccept : ReplayAccepts now opt pin) :
    ∃ opt', unwrapReplay now src dst opt = some ⟨opt', dst, none⟩ := by
  unfold unwrapReplay
  by_cases hflag : opt.ignorePacketId = true
  · exact ⟨opt, if_pos hflag⟩
  · obtain ⟨recv, hchk⟩ := haccept.resolve_left hflag
    obtain ⟨opt', hopt⟩ : ∃ opt', cryptoCheckReplayWrap now opt pin = some (opt', true) := by
      simp only [cryptoCheckReplayWrap, hchk]
      split
      all_goals exact ⟨_, rfl⟩
    rw [if_neg hflag, hread]
    simp only [hopt]
    exact ⟨opt', rfl⟩

theorem packetIdReapTest_initialized (h : packetIdReapTest now p = some p') :
    p'.initialized = p.initialized := by
  unfold packetIdReapTest packetIdReap at h
  repeat' split at h
  all_goals
    cases h
    try rfl

theorem packetIdCheck_initialized (h : packetIdCheck now p pin = some (p', ok)) :
    p.initialized = true := by
  obtain ⟨reaped, hreap, htest⟩ := bind_eq_some_iff.mp h
  rw [← packetIdReapTest_initialized hreap]
  by_contra hinit
  rw [Bool.not_eq_true] at hinit
  simp [packetIdTestAdd, packetIdTest, hinit] at htest

theorem ReplayAccepts.initialized (h : ReplayAccepts now opt pin) :
    ¬(opt.packetId.recv.initialized = false ∧ opt.ignorePacketId = false) := by
  intro hnot
  rcases h with hflag | ⟨recv, hchk⟩
  · exact absurd (hflag.symm.trans hnot.2) (by decide)
  · exact absurd ((packetIdCheck_initialized hchk).symm.trans hnot.1) (by decide)

/-- A wrapped packet with an acceptable id is unwrapped. -/
theorem tlsCryptUnwrap_wrapped {send : PacketIdSend} {header src : Bytes} {dst : EmptyBuffer}
    (hheader : header.length = TLS_CRYPT_OFF_PID)
    (hsize : src.length + TLS_CRYPT_BLOCK_SIZE < BUF_SIZE_MAX)
    (hroom : dst.1.offset + (src.length + TLS_CRYPT_BLOCK_SIZE) ≤ dst.1.capacity)
    (haccept : ReplayAccepts now opt (wirePin send)) :
    ∃ un, tlsCryptUnwrap P now (wrappedPacket P opt.decrypt send header src) dst opt = some un ∧
      un.error = none ∧ un.dst.contents = src := by
  have hlen : (wrappedPacket P opt.decrypt send header src).length =
      TLS_CRYPT_OFF_CT + src.length := wrappedPacket_length hheader
  have hne : wrappedPacket P opt.decrypt send header src ≠ [] := by
    intro hnil
    rw [hnil, length_nil, TLS_CRYPT_OFF_CT, TLS_CRYPT_TAG_SIZE] at hlen
    omega
  have hsafe : bufSafe dst.1 (src.length + TLS_CRYPT_BLOCK_SIZE) = true :=
    bufSafe_of hsize (by simpa [dst.2] using hroom)
  have hfit : dst.1.offset + (dst.1.contents.length + src.length) ≤ dst.1.capacity := by
    rw [dst.2, length_nil]
    omega
  obtain ⟨buf, hext, -, -, hcon⟩ := bufExtend_isSome hfit
  rw [dst.2, nil_append] at hcon
  obtain ⟨rest, hpid⟩ : ∃ rest, packetIdRead ((wrappedPacket P opt.decrypt send header src).drop
      TLS_CRYPT_OFF_PID) true = some (wirePin send, rest) := wrappedPacket_pid hheader
  obtain ⟨opt', hrep⟩ := unwrapReplay_accepts buf hpid haccept
  refine ⟨⟨opt', buf, none⟩, ?_, rfl, hcon⟩
  rw [tlsCryptUnwrap, if_neg hne, if_neg haccept.initialized, hlen, if_neg (by omega),
    Nat.add_sub_cancel_left, if_neg (by simp [hsafe]), wrappedPacket_iv hheader,
    wrappedPacket_ct hheader, P.decrypt_encrypt]
  simp only [hext]
  rw [wrappedPacket_tagField hheader, wrappedPacket_ad hheader, hcon, if_neg (by simp), hrep]

/-- **tls-crypt.** A packet is unwrapped to the payload it was wrapped from, if its id
is accepted. Only authentic packets with an acceptable id are unwrapped, to their
decrypted rest. A failed unwrap leaves no output; it leaves the state alone unless it
failed at the replay check, which drops cells that are too old and adds no id. -/
theorem tls_crypt_wrap_unwrap (P : TlsCryptPrimitives κ η) :
    (∀ (now : Int) (src : Bytes) (dst : Buffer) (opt : TlsWrapOptions κ η) (send : PacketIdSend),
      dst.contents.length = TLS_CRYPT_OFF_PID → opt.packetId.recv.initialized = true →
      packetIdSendUpdate now opt.packetId.send true = some send →
      src.length + TLS_CRYPT_BLOCK_SIZE + TLS_CRYPT_TAG_SIZE < BUF_SIZE_MAX →
      dst.offset + dst.contents.length + TLS_CRYPT_PID_SIZE +
        (src.length + TLS_CRYPT_BLOCK_SIZE + TLS_CRYPT_TAG_SIZE) ≤ dst.capacity →
      ∃ out, tlsCryptWrap P now src dst opt = some (opt.withSend send, out, true) ∧
        ∀ (now' : Int) (dst' : EmptyBuffer) (peer : TlsWrapOptions κ η),
          peer.decrypt = opt.encrypt →
          dst'.1.offset + (src.length + TLS_CRYPT_BLOCK_SIZE) ≤ dst'.1.capacity →
          ReplayAccepts now' peer (wirePin send) →
          ∃ un, tlsCryptUnwrap P now' out.contents dst' peer = some un ∧ un.error = none ∧
            un.dst.contents = src) ∧
    (∀ (now : Int) (src : Bytes) (dst : EmptyBuffer) (opt : TlsWrapOptions κ η)
      (un : Unwrapped κ η), tlsCryptUnwrap P now src dst opt = some un → un.error = none →
      Authentic P opt.decrypt src un.dst.contents ∧
        (opt.ignorePacketId = true ∨ ∃ pin rest recv,
          packetIdRead (src.drop TLS_CRYPT_OFF_PID) true = some (pin, rest) ∧
            packetIdCheck now opt.packetId.recv pin = some (recv, true))) ∧
    (∀ (now : Int) (src : Bytes) (dst : EmptyBuffer) (opt : TlsWrapOptions κ η)
      (un : Unwrapped κ η), tlsCryptUnwrap P now src dst opt = some un → un.error ≠ none →
      un.dst.contents = [] ∧
        (un.opt = opt ∨ un.error = some .packetReplay ∧
          ∃ recv, un.opt = opt.withRecv recv ∧ OnlyReaped now opt.packetId.recv recv)) := by
  refine ⟨?_, ?_, ?_⟩
  · intro now src dst opt send hheader hinit hsend hsize hroom
    obtain ⟨out, hwrap, hout⟩ := tlsCryptWrap_spec hinit hsend hsize hroom
    refine ⟨out, hwrap, ?_⟩
    intro now' dst' peer hkey hroom' haccept
    rw [hout, ← hkey]
    exact tlsCryptUnwrap_wrapped hheader (by omega) hroom' haccept
  · intro now src dst opt un hun herror
    cases tlsCryptUnwrap_cases hun with
    | failed dst e hfail =>
      rw [hfail] at herror
      cases herror
    | checked plain dst hauth hdst hend =>
      cases hend with
      | ignored hflag hun =>
        rw [hun, hdst]
        exact ⟨hauth, .inl hflag⟩
      | accepted pin rest recv hread hcheck hdst' =>
        rw [hdst', hdst]
        exact ⟨hauth, .inr ⟨pin, rest, recv, hread, hcheck⟩⟩
      | rejected pin recv hcheck hun =>
        rw [hun] at herror
        cases herror
  · intro now src dst opt un hun herror
    cases tlsCryptUnwrap_cases hun with
    | failed dst e hfail =>
      rw [hfail]
      exact ⟨rfl, .inl rfl⟩
    | checked plain dst hauth hdst hend =>
      cases hend with
      | ignored hflag hun =>
        rw [hun] at herror
        exact absurd rfl herror
      | accepted pin rest recv hread hcheck hdst' herror' => exact absurd herror' herror
      | rejected pin recv hcheck hun =>
        rw [hun]
        exact ⟨rfl, .inr ⟨rfl, recv, rfl, packetIdCheck_rejected hcheck⟩⟩

/-- A cipher that changes nothing, and an HMAC that is always zero. -/
def nullPrimitives : TlsCryptPrimitives Unit Unit where
  encrypt _ _ x := x
  decrypt _ _ c := some c
  hmac _ _ := replicate TLS_CRYPT_TAG_SIZE 0
  length_encrypt _ _ _ := rfl
  length_decrypt h := congrArg length (some.inj h).symm
  decrypt_encrypt _ _ _ := rfl
  length_hmac _ _ := length_replicate

/-- The ids 1 and 3 were received at clock 100; 2 is still on its way. -/
def windowOfThree : PacketIdRec :=
  { lastReap := 100, time := 50, id := 3, seqBacktrack := 4, timeBacktrack := 15
    maxBacktrackStat := 0, initialized := true
    seqList := some ⟨1, 3, [0, 100, 0, 100], by decide, by decide⟩ }

def sampleWrapOptions : TlsWrapOptions Unit Unit :=
  { encrypt := ⟨(), ()⟩, decrypt := ⟨(), ()⟩
    packetId := ⟨⟨3, 50⟩, windowOfThree⟩
    pidPersist := none, ignorePacketId := false, packetIdLongForm := true }

def sampleOutput : EmptyBuffer := ⟨⟨100, 0, [], by decide⟩, rfl⟩

/-- A payload of two bytes with the id 4. -/
theorem tls_crypt_wrap_unwrap_four : ∃ out,
    tlsCryptWrap nullPrimitives 101 [7, 8] ⟨100, 0, replicate 9 1, by decide⟩
        sampleWrapOptions = some (sampleWrapOptions.withSend ⟨4, 50⟩, out, true) ∧
      ∃ un, tlsCryptUnwrap nullPrimitives 101 out.contents sampleOutput sampleWrapOptions =
        some un ∧ un.error = none ∧ un.dst.contents = [7, 8] := by
  obtain ⟨out, hwrap, hunwrap⟩ := (tls_crypt_wrap_unwrap nullPrimitives).1 101 [7, 8]
    ⟨100, 0, replicate 9 1, by decide⟩ sampleWrapOptions ⟨4, 50⟩ (by decide) rfl rfl
    (by decide) (by decide)
  exact ⟨out, hwrap, hunwrap 101 sampleOutput sampleWrapOptions rfl (by decide)
    (.inr ⟨_, rfl⟩)⟩

/-- A replay of the id 1 at clock 200 fails, and the window no longer takes the id 2. -/
theorem replay_expires_unseen_id : ∃ un, tlsCryptUnwrap nullPrimitives 200
        (replicate 9 1 ++ wireBytes ⟨1, 50⟩ ++ replicate 32 0)
        sampleOutput sampleWrapOptions = some un ∧
      un.error = some .packetReplay ∧
      packetIdTest sampleWrapOptions.packetId.recv ⟨2, 50⟩ =
        some ({ windowOfThree with maxBacktrackStat := 1 }, true) ∧
      ∃ recv, packetIdTest un.opt.packetId.recv ⟨2, 50⟩ = some (recv, false) :=
  ⟨_, rfl, rfl, rfl, _, rfl⟩

end TlsCrypt

end OpenVpn
