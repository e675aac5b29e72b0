import OpenVpn.Control.Reliable
import OpenVpn.Server.Address

/-!
# The cookie of the stateless handshake

A server that gets the first packet of a client answers with a session id that
is an HMAC of the client's session id and address and of the time, and keeps no
state. The client's next packet echoes that session id in its acknowledgement
record. The functions are those of `ssl_pkt.c`.

* `calculateSessionIdHmac`, `checkSessionIdHmac` — the session id, and the check
  of the packet that should echo it.
* `tlsPreDecryptLite` — what the server makes of a packet from an address it
  has no instance for.
* `EchoesCookie` — what the check is for. `Decisive` — the packets on which the
  check does what it is for (`checkSessionIdHmac_correct_iff`).
-/

namespace OpenVpn

open Base

/-- The output of the HMAC: the 32 bytes of a SHA256 digest. -/
structure Digest where
  bytes : Bytes
  size : bytes.length = 32

/-- The start of a digest, read as a session id. -/
def Digest.sid (d : Digest) : SessionId :=
  ⟨d.bytes.take SID_SIZE, by rw [List.length_take, d.size]; rfl⟩

/-- `session_id_time` as it lies in memory: the time in units of half a
handshake window, moved by `offset`. A window of zero divides by zero. -/
def sessionIdTime (handwindow now : Nat) (offset : Int) : Option Bytes :=
  if (handwindow + 1) / 2 = 0 then none
  else some (beBytes 4 (((now / ((handwindow + 1) / 2) : Nat) + offset) % 2 ^ 32).toNat)

/-- The part of the address that goes into the HMAC. -/
def OpenvpnSockaddr.hmacBytes (source : OpenvpnSockaddr) : Bytes :=
  match source.saFamily with
  | .inet => source.in4Bytes
  | .inet6 => source.in6Bytes
  | .unspec => []

def calculateSessionIdHmac (hmac : Bytes → Digest) (clientSid : SessionId)
    (source : OpenvpnSockaddr) (handwindow now : Nat) (offset : Int) : Option SessionId :=
  (sessionIdTime handwindow now offset).map fun time =>
    (hmac (time ++ source.hmacBytes ++ clientSid.id)).sid

/-- The loop of `memcmp_constant_time`. -/
def memcmpLoop : UInt8 → Bytes → Bytes → UInt8
  | diff, x :: a, y :: b => memcmpLoop (diff ||| (x ^^^ y)) a b
  | diff, _, _ => diff

/-- `memcmp_constant_time` of two buffers of the same size. Like `memcmp` it
returns zero on equal contents. -/
def memcmpConstantTime (a b : Bytes) : UInt8 := memcmpLoop 0 a b

structure TlsPreDecryptState where
  newbuf : Bytes
  peerSessionId : SessionId
  serverSessionId : SessionId

def TlsPreDecryptState.clear : TlsPreDecryptState := ⟨[], xSessionIdZero, xSessionIdZero⟩

/-- The values `offset` takes in `check_session_id_hmac`. -/
def cookieOffsets : List Int := [-2, -1, 0, 1]

/-- The loop of `check_session_id_hmac`; `expected` is the session id for an
offset. -/
def checkOffsets (expected : Int → Option SessionId) (sid : SessionId) : List Int → Option Bool
  | [] => some false
  | offset :: rest =>
    match expected offset with
    | none => none
    | some expectedId =>
      if memcmpConstantTime expectedId.id sid.id ≠ 0 then some true
      else checkOffsets expected sid rest

/-- `check_session_id_hmac`. The session id of the acknowledgement record, if
there is one, is left in the state. -/
def checkSessionIdHmac (hmac : Bytes → Digest) (handwindow now : Nat)
    (state : TlsPreDecryptState) (source : Option OpenvpnSockaddr) :
    Option (Bool × TlsPreDecryptState) :=
  match source with
  | none => some (false, state)
  | some source =>
    match reliableAckParse state.newbuf state.serverSessionId with
    | none => some (false, state)
    | some (_, sid, _) =>
      let expected := calculateSessionIdHmac hmac state.peerSessionId source handwindow now
      (checkOffsets expected sid cookieOffsets).map fun ret =>
        (ret, { state with serverSessionId := sid })

/-! ## The first packet -/

def P_CONTROL_HARD_RESET_CLIENT_V2 : Nat := 7
def P_DATA_V2 : Nat := 9
def P_CONTROL_HARD_RESET_CLIENT_V3 : Nat := 10

inductive FirstPacketVerdict
  | validResetV2
  | validResetV3
  | validControlV1
  | validAckV1
  | validWkcV1
  | invalid
  deriving DecidableEq

/-- The opcode in the first byte of a packet. -/
def opcodeOf (first : UInt8) : Nat := first.toNat >>> 3

/-- The key id in the first byte of a packet. -/
def keyIdOf (first : UInt8) : Nat := first.toNat &&& 7

/-- The verdict of `tls_pre_decrypt_lite` on an opcode that it lets pass. -/
def verdictOf (op : Nat) : FirstPacketVerdict :=
  if op = P_CONTROL_V1 then .validControlV1
  else if op = P_ACK_V1 then .validAckV1
  else if op = P_CONTROL_HARD_RESET_CLIENT_V3 then .validResetV3
  else if op = P_CONTROL_WKC_V1 then .validWkcV1
  else .validResetV2

/-- `tls_pre_decrypt_lite`; `readControlAuth` is `read_control_auth` with the
standalone wrapping context: it authenticates a packet and leaves what follows
its header. -/
def tlsPreDecryptLite (readControlAuth : Bytes → Option Bytes) (state : TlsPreDecryptState)
    (buf : Bytes) : FirstPacketVerdict × TlsPreDecryptState :=
  match buf with
  | [] => (.invalid, state)
  | first :: tmp =>
    if buf.length < 1 + SID_SIZE then (.invalid, state)
    else if opcodeOf first ∉ [P_CONTROL_HARD_RESET_CLIENT_V2, P_CONTROL_HARD_RESET_CLIENT_V3,
        P_CONTROL_V1, P_CONTROL_WKC_V1, P_ACK_V1] then (.invalid, state)
    else if keyIdOf first ≠ 0 then (.invalid, state)
    else
      match sessionIdRead tmp with
      | none => (.invalid, state)
      | some (sid, _) =>
        let state := { state with peerSessionId := sid }
        if sessionIdDefined sid = false then (.invalid, state)
        else
          match readControlAuth buf with
          | none => (.invalid, { state with newbuf := buf })
          | some newbuf => (verdictOf (opcodeOf first), { state with newbuf := newbuf })

/-! ## What the check is for -/

section

variable (hmac : Bytes → Digest) (handwindow now : Nat) (state : TlsPreDecryptState)
  (source : OpenvpnSockaddr)

/-- The session id the server gave out for this client at an offset. -/
def TlsPreDecryptState.cookie (offset : Int) : Option SessionId :=
  calculateSessionIdHmac hmac state.peerSessionId source handwindow now offset

/-- The packet has an acknowledgement record with a session id, and that is a
session id of the server for this client at one of the offsets. -/
def EchoesCookie : Prop :=
  match reliableAckParse state.newbuf state.serverSessionId with
  | none => False
  | some (ack, sid, _) =>
    ack.packetId ≠ [] ∧ ∃ offset ∈ cookieOffsets,
      state.cookie hmac handwindow now source offset = some sid

/-- The packets on which the inverted comparison makes no difference. Either
there is no record; or its session id is the server's for some of the offsets
and not for others; or the record has no session id, and the one in the state
is the server's for all offsets. -/
def Decisive : Prop :=
  match reliableAckParse state.newbuf state.serverSessionId with
  | none => True
  | some (ack, sid, _) =>
    0 < handwindow ∧
      if ack.packetId = [] then
        ∀ offset ∈ cookieOffsets, state.cookie hmac handwindow now source offset = some sid
      else
        (∃ offset ∈ cookieOffsets, state.cookie hmac handwindow now source offset = some sid) ∧
          ∃ offset ∈ cookieOffsets, state.cookie hmac handwindow now source offset ≠ some sid

instance : Decidable (EchoesCookie hmac handwindow now state source) := by
  unfold EchoesCookie
  split <;> infer_instance

instance : Decidable (Decisive hmac handwindow now state source) := by
  unfold Decisive
  split <;> infer_instance

end

/-! ## What the check does -/

theorem memcmpLoop_eq_zero {a b : Bytes} (hlen : a.length = b.length) (diff : UInt8) :
    memcmpLoop diff a b = 0 ↔ diff = 0 ∧ a = b := by
  induction a generalizing b diff with
  | nil =>
    cases b with
    | nil => simp [memcmpLoop]
    | cons y b => cases hlen
  | cons x a ih =>
    cases b with
    | nil => cases hlen
    | cons y b =>
      rw [memcmpLoop, ih (Nat.succ.inj hlen), UInt8.or_eq_zero_iff, UInt8.xor_eq_zero_iff,
        List.cons.injEq, and_assoc]

theorem memcmpConstantTime_sid (a b : SessionId) : memcmpConstantTime a.id b.id = 0 ↔ a = b := by
  rw [memcmpConstantTime, memcmpLoop_eq_zero (a.size.trans b.size.symm)]
  constructor
  · rintro ⟨_, h⟩
    cases a
    cases b
    congr
  · rintro rfl
    exact ⟨rfl, rfl⟩

theorem checkOffsets_eq {expected : Int → Option SessionId}
    (hexp : ∀ offset, (expected offset).isSome) (sid : SessionId) (offsets : List Int) :
    checkOffsets expected sid offsets =
      some (decide (∃ offset ∈ offsets, expected offset ≠ some sid)) := by
  induction offsets with
  | nil => rfl
  | cons offset rest ih =>
    obtain ⟨expectedId, hid⟩ := Option.isSome_iff_exists.mp (hexp offset)
    unfold checkOffsets
    rw [hid]
    show (if memcmpConstantTime expectedId.id sid.id ≠ 0 then _ else _) = _
    by_cases heq : expectedId = sid
    · rw [if_neg (by rw [not_not, memcmpConstantTime_sid]; exact heq), ih]
      simp [hid, heq]
    · rw [if_pos (by rw [Ne, memcmpConstantTime_sid]; exact heq)]
      simp [hid, heq]

section

variable {hmac : Bytes → Digest} {handwindow now : Nat} {state : TlsPreDecryptState}
  {source : OpenvpnSockaddr}

theorem cookie_isSome (hw : 0 < handwindow) (offset : Int) :
    (state.cookie hmac handwindow now source offset).isSome := by
  unfold TlsPreDecryptState.cookie calculateSessionIdHmac sessionIdTime
  rw [if_neg (by omega)]
  rfl

theorem cookie_eq_none (hw : handwindow = 0) (offset : Int) :
    state.cookie hmac handwindow now source offset = none := by
  unfold TlsPreDecryptState.cookie calculateSessionIdHmac sessionIdTime
  rw [hw]
  rfl

theorem checkSessionIdHmac_eq {ack : ReliableAck} {sid : SessionId} {rest : Bytes}
    (hp : reliableAckParse state.newbuf state.serverSessionId = some (ack, sid, rest))
    (hw : 0 < handwindow) :
    checkSessionIdHmac hmac handwindow now state (some source) =
      some (decide (∃ offset ∈ cookieOffsets,
        state.cookie hmac handwindow now source offset ≠ some sid),
        { state with serverSessionId := sid }) := by
  unfold checkSessionIdHmac
  rw [hp]
  show (checkOffsets (state.cookie hmac handwindow now source) sid cookieOffsets).map _ = _
  rw [checkOffsets_eq (cookie_isSome hw)]
  rfl

/-- The check answers as it should iff the packet is decisive. -/
theorem checkSessionIdHmac_correct_iff :
    (∃ ret state', checkSessionIdHmac hmac handwindow now state (some source) = some (ret, state') ∧
      (ret = true ↔ EchoesCookie hmac handwindow now state source)) ↔
      Decisive hmac handwindow now state source := by
  unfold EchoesCookie Decisive
  cases hp : reliableAckParse state.newbuf state.serverSessionId with
  | none =>
    refine iff_of_true ⟨false, state, ?_, by simp⟩ trivial
    simp only [checkSessionIdHmac, hp]
  | some record =>
    obtain ⟨ack, sid, rest⟩ := record
    dsimp only
    by_cases hw : 0 < handwindow
    · rw [checkSessionIdHmac_eq hp hw]
      have hverdict : ∀ b : Bool, ∀ st : TlsPreDecryptState, ∀ P : Prop,
          (∃ ret state', some (b, st) = some (ret, state') ∧ (ret = true ↔ P)) ↔
            (b = true ↔ P) := by
        intro b st P
        constructor
        · rintro ⟨_, _, h, hP⟩
          cases h
          exact hP
        · intro h
          exact ⟨b, st, rfl, h⟩
      rw [hverdict, decide_eq_true_eq, and_iff_right hw]
      -- of the four expected session ids, one at least equals or differs
      have hsome : (∃ offset ∈ cookieOffsets,
            state.cookie hmac handwindow now source offset ≠ some sid) ∨
          ∃ offset ∈ cookieOffsets, state.cookie hmac handwindow now source offset = some sid := by
        by_cases h : state.cookie hmac handwindow now source 0 = some sid
        · exact .inr ⟨0, by decide, h⟩
        · exact .inl ⟨0, by decide, h⟩
      by_cases hids : ack.packetId = []
      · rw [if_pos hids]
        simp [hids]
      · rw [if_neg hids, and_iff_right (show ack.packetId ≠ [] from hids)]
        constructor
        · intro h
          cases hsome with
          | inl hne => exact ⟨h.mp hne, hne⟩
          | inr heq => exact ⟨heq, h.mpr heq⟩
        · rintro ⟨heq, hne⟩
          exact iff_of_true hne heq
    · refine iff_of_false ?_ (fun h => hw h.1)
      rintro ⟨_, _, h, _⟩
      simp only [checkSessionIdHmac, hp] at h
      have hzero : handwindow = 0 := by omega
      have hnone : calculateSessionIdHmac hmac state.peerSessionId source handwindow now (-2) =
        none := cookie_eq_none hzero (-2)
      simp only [cookieOffsets, checkOffsets, hnone] at h
      cases h

end

end OpenVpn
