import OpenVpn.Base.Run
import OpenVpn.Server.Cookie

/-!
# The UDP server and its client instances

The parts of `mudp.c` and `multi.c` that decide which instance a datagram
belongs to: lookup by peer id and by source address, the stateless handshake
that comes before a new instance, creation, close, and the move of an instance
whose client sends from a new address (a float).

* `MultiContext` — the two tables of instances by real address, the table of
  peer ids, the instances, the rate limits. An instance is a position in
  `objects`, which only grows: a closed instance stays there with `halt` set.
* `multiGetCreateInstanceUdp`, `multiProcessFloat`, `multiCloseInstance` — the
  functions of the source.
* `serverStep` — one event of a running server. An assertion of the source that
  fails aborts it.
-/

namespace OpenVpn

open Base

def MAX_PEER_ID : Nat := 0xFFFFFF

/-! ## Rate limits -/

structure FrequencyLimit where
  max : Nat
  per : Nat
  n : Nat
  reset : Nat

def frequencyLimitEventAllowed (f : FrequencyLimit) (now : Nat) : FrequencyLimit × Bool :=
  if f.per ≠ 0 then
    let f := if f.reset + f.per ≤ now then { f with reset := now, n := 0 } else f
    let f := { f with n := f.n + 1 }
    (f, decide (f.n ≤ f.max))
  else (f, true)

structure InitialPacketRateLimit where
  maxPerPeriod : Nat
  periodLength : Nat
  currPeriodCounter : Nat
  lastPeriodReset : Nat
  warningDisplayed : Bool

def reflectFilterRateLimitCheck (irl : InitialPacketRateLimit) (now : Nat) :
    InitialPacketRateLimit × Bool :=
  let irl :=
    if irl.lastPeriodReset + irl.periodLength < now then
      { irl with lastPeriodReset := now, currPeriodCounter := 0, warningDisplayed := false }
    else irl
  let irl := { irl with currPeriodCounter := irl.currPeriodCounter + 1 }
  let overLimit := decide (irl.maxPerPeriod < irl.currPeriodCounter)
  ({ irl with warningDisplayed := irl.warningDisplayed || overLimit }, !overLimit)

def reflectFilterRateLimitDecrease (irl : InitialPacketRateLimit) : InitialPacketRateLimit :=
  { irl with currPeriodCounter := irl.currPeriodCounter - 1 }

/-! ## The state -/

/-- `struct cert_hash_set`: a hash, or none, for every depth of the chain. -/
abbrev CertHashSet := List (Option Bytes)

/-- The loop of `cert_hash_compare`. -/
def certHashLoop : CertHashSet → CertHashSet → Bool
  | none :: chs1, none :: chs2 => certHashLoop chs1 chs2
  | some h1 :: chs1, some h2 :: chs2 => if h1 = h2 then certHashLoop chs1 chs2 else false
  | [], [] => true
  | _, _ => false

def certHashCompare : Option CertHashSet → Option CertHashSet → Bool
  | some chs1, some chs2 => certHashLoop chs1 chs2
  | none, none => true
  | _, _ => false

/-- `struct link_socket`, of which the protocol is read here. -/
structure LinkSocket where
  proto : ProtoNum
  deriving DecidableEq

/-- `struct multi_instance` with what is read of its context. -/
structure MultiInstance where
  real : MrouteAddr
  halt : Bool
  didRealHash : Bool
  didIter : Bool
  /-- `tls_multi->peer_id` -/
  peerId : Nat
  /-- `c2.from` -/
  source : OpenvpnSockaddr
  /-- `c2.link_sockets[0]` -/
  sock : LinkSocket
  lockedCertHashSet : Option CertHashSet

/-- The arguments of `tls_reset_standalone` in a reply to a reset packet, and
the address it is sent to. -/
structure HmacReply where
  sid : SessionId
  remoteSid : SessionId
  requestResendWkc : Bool
  dest : OpenvpnSockaddr

/-- What is fixed while the server runs. -/
structure MultiConfig where
  hashFunc : Bytes → BitVec 32 → BitVec 32
  hashIv : BitVec 32
  iterIv : BitVec 32
  maxClients : Nat
  /-- `session_id_hmac` -/
  hmac : Bytes → Digest
  handshakeWindow : Nat
  readControlAuth : Bytes → Option Bytes
  forceTlscryptv2Cookie : Bool

abbrev MultiConfig.hashOps (cfg : MultiConfig) : HashOps MrouteAddr :=
  mrouteOps fun bs => cfg.hashFunc bs cfg.hashIv

abbrev MultiConfig.iterOps (cfg : MultiConfig) : HashOps MrouteAddr :=
  mrouteOps fun bs => cfg.hashFunc bs cfg.iterIv

structure MultiContext (cfg : MultiConfig) where
  hash : Hash cfg.hashOps Nat
  iter : Hash cfg.iterOps Nat
  instances : List (Option Nat)
  objects : List MultiInstance
  newConnectionLimiter : FrequencyLimit
  initialRateLimiter : InitialPacketRateLimit
  deferredShutdown : Bool
  hmacReply : Option HmacReply

variable {cfg : MultiConfig}

/-- Write an instance back. -/
def MultiContext.set (m : MultiContext cfg) (id : Nat) (mi : MultiInstance) : MultiContext cfg :=
  { m with objects := m.objects.set id mi }

/-- `multi_init`: the tables are empty. -/
def multiInit (cfg : MultiConfig) (realHashSize : Nat) (limiter : FrequencyLimit)
    (initial : InitialPacketRateLimit) : Option (MultiContext cfg) := do
  let hash ← hashInit cfg.hashOps Nat realHashSize
  let iter ← hashInit cfg.iterOps Nat 1
  return {
    hash := hash
    iter := iter
    instances := List.replicate cfg.maxClients none
    objects := []
    newConnectionLimiter := limiter
    initialRateLimiter := initial
    deferredShutdown := false
    hmacReply := none }

/-- A call whose result the source asserts. -/
def asserted {α : Type} (r : α × Bool) : Option α := if r.2 then some r.1 else none

/-! ## Close and creation -/

/-- An instance is removed, if it is there; the source asserts that it was
found. -/
def removeIf {ops : HashOps MrouteAddr} (did : Bool) (hash : Hash ops Nat) (real : MrouteAddr) :
    Option (Hash ops Nat) :=
  if did then asserted (hashRemove hash real) else some hash

def releasePeerId (m : MultiContext cfg) (mi : MultiInstance) : MultiContext cfg :=
  if mi.peerId ≠ MAX_PEER_ID then { m with instances := m.instances.set mi.peerId none } else m

/-- `multi_close_instance`, not for a shutdown. -/
def multiCloseInstance (m : MultiContext cfg) (id : Nat) : Option (MultiContext cfg) := do
  let mi ← m.objects[id]?
  if mi.halt then none
  else
    let hash ← removeIf mi.didRealHash m.hash mi.real
    let iter ← removeIf mi.didIter m.iter mi.real
    let m := { m with hash := hash, iter := iter }.set id { mi with halt := true }
    return releasePeerId m mi

/-- The instance as `multi_create_instance` sets it up. -/
def newInstance (real : MrouteAddr) (sock : LinkSocket) : MultiInstance where
  real := real
  halt := false
  didRealHash := false
  didIter := false
  peerId := MAX_PEER_ID
  source := OpenvpnSockaddr.zero
  sock := sock
  lockedCertHashSet := none

/-- The error exit of `multi_create_instance`. -/
def createFailed (m : MultiContext cfg) (id : Nat) : Option (MultiContext cfg × Option Nat) := do
  let m ← multiCloseInstance m id
  return (m, none)

/-- `multi_create_instance` for a datagram. `contextFails` and `postFails` say
that a signal occurs in `inherit_context_child` and `multi_process_post`. -/
def multiCreateInstance (m : MultiContext cfg) (real : MrouteAddr) (sock : LinkSocket)
    (contextFails postFails : Bool) : Option (MultiContext cfg × Option Nat) :=
  let id := m.objects.length
  let mi := newInstance real sock
  let m := { m with objects := m.objects ++ [mi] }
  if contextFails then createFailed m id
  else if cfg.maxClients ≤ m.hash.nElements then createFailed m id
  else
    match hashAdd m.iter real id false with
    | (iter, false) => createFailed { m with iter := iter } id
    | (iter, true) =>
      let m := { m with iter := iter }.set id { mi with didIter := true }
      if postFails then createFailed m id else some (m, some id)

def multiAssignPeerId (m : MultiContext cfg) (id : Nat) : Option (MultiContext cfg) := do
  let mi ← m.objects[id]?
  if cfg.maxClients < MAX_PEER_ID then
    let i ← (m.instances.take cfg.maxClients).findIdx? Option.isNone
    return { m with instances := m.instances.set i (some id) }.set id { mi with peerId := i }
  else none

/-! ## The handshake before an instance -/

/-- A datagram read from a socket, and how the calls end that are not modelled:
`decrypted` says that `process_incoming_link_part1` accepts the packet. -/
structure Datagram where
  source : OpenvpnSockaddr
  buf : Bytes
  sock : LinkSocket
  now : Nat
  decrypted : Bool
  contextFails : Bool
  postFails : Bool

def EARLY_NEG_MASK : PacketIdType := 0xff000000
def EARLY_NEG_START : PacketIdType := 0x0f000000

/-- `send_hmac_reset_packet`, with the session id for the current time. -/
def sendHmacReset (m : MultiContext cfg) (state : TlsPreDecryptState) (d : Datagram)
    (requestResendWkc : Bool) : Option (MultiContext cfg) := do
  let sid ← state.cookie cfg.hmac cfg.handshakeWindow d.now d.source 0
  return { m with hmacReply := some ⟨sid, state.peerSessionId, requestResendWkc, d.source⟩ }

/-- The packet id of a reset packet, which the source asserts to be there with
its time stamp. -/
def resetPacketId (buf : Bytes) : Option PacketIdType := do
  let (net, rest) ← bufRead (buf.drop (1 + SID_SIZE)) 4
  let _ ← bufRead rest 4
  return ntohpid net

/-- A reset packet of a client that uses a wrapped client key. -/
def checkResetV3 (m : MultiContext cfg) (state : TlsPreDecryptState) (d : Datagram) :
    Option (MultiContext cfg × Bool) := do
  let id ← resetPacketId d.buf
  if (id &&& EARLY_NEG_MASK) &&& EARLY_NEG_START = EARLY_NEG_START then
    let m ← sendHmacReset m state d true
    return (m, false)
  else return (m, !cfg.forceTlscryptv2Cookie)

/-- A packet that has to echo the session id of the server. -/
def checkCookie (m : MultiContext cfg) (state : TlsPreDecryptState) (d : Datagram) :
    Option (MultiContext cfg × Bool) := do
  let (ret, _) ← checkSessionIdHmac cfg.hmac cfg.handshakeWindow d.now state (some d.source)
  return (m, ret)

/-- `do_pre_decrypt_check`: should this packet create an instance? -/
def doPreDecryptCheck (m : MultiContext cfg) (d : Datagram) : Option (MultiContext cfg × Bool) :=
  match tlsPreDecryptLite cfg.readControlAuth TlsPreDecryptState.clear d.buf with
  | (.validResetV3, state) =>
    match reflectFilterRateLimitCheck m.initialRateLimiter d.now with
    | (irl, false) => some ({ m with initialRateLimiter := irl }, false)
    | (irl, true) => checkResetV3 { m with initialRateLimiter := irl } state d
  | (.validResetV2, state) =>
    match reflectFilterRateLimitCheck m.initialRateLimiter d.now with
    | (irl, false) => some ({ m with initialRateLimiter := irl }, false)
    | (irl, true) => do
        let m ← sendHmacReset { m with initialRateLimiter := irl } state d false
        return (m, false)
  | (.validControlV1, state) => checkCookie m state d
  | (.validAckV1, state) => checkCookie m state d
  | (.validWkcV1, state) => checkCookie m state d
  | (.invalid, _) => some (m, false)

/-! ## The instance of a datagram -/

/-- The peer id in the first four bytes of a `P_DATA_V2` packet. -/
def peerIdOf (buf : Bytes) : Nat := beNat (buf.take 4) % 2 ^ 24

def isDataV2 (buf : Bytes) : Bool :=
  match buf with
  | [] => false
  | first :: _ => decide (opcodeOf first = P_DATA_V2) && decide (1 + 3 ≤ buf.length)

/-- The existing instance of a datagram, and whether it has floated: by peer id
if the packet has one, by source address otherwise. -/
def existingInstance (m : MultiContext cfg) (d : Datagram) (real : MrouteAddr) :
    Option (MultiContext cfg × Option (Nat × Bool)) :=
  let peerId := peerIdOf d.buf
  if isDataV2 d.buf && decide (peerId ≠ MAX_PEER_ID) then
    if peerId < cfg.maxClients then
      match m.instances[peerId]? with
      | some (some id) => do
          let mi ← m.objects[id]?
          let same ← addrPortMatch mi.source d.source
          return (m, some (id, !same))
      | _ => some (m, none)
    else some (m, none)
  else
    match hashLookup m.hash real with
    | (hash, found) => some ({ m with hash := hash }, found.map (·, false))

/-- The creation branch of `multi_get_create_instance_udp`. -/
def admitInstance (m : MultiContext cfg) (d : Datagram) (real : MrouteAddr) :
    Option (MultiContext cfg × Option Nat) :=
  if m.deferredShutdown then some (m, none)
  else
    match doPreDecryptCheck m d with
    | none => none
    | some (m, false) => some (m, none)
    | some (m, true) =>
      match frequencyLimitEventAllowed m.newConnectionLimiter d.now with
      | (f, false) => some ({ m with newConnectionLimiter := f }, none)
      | (f, true) => do
          let m := { m with
            newConnectionLimiter := f
            initialRateLimiter := reflectFilterRateLimitDecrease m.initialRateLimiter }
          let (m, created) ← multiCreateInstance m real d.sock d.contextFails d.postFails
          match created with
          | none => return (m, none)
          | some id =>
            let mi ← m.objects[id]?
            let hv := cfg.hashOps.hashFunction real
            let m := { m with hash := hashAddFast m.hash (m.hash.index hv) real hv id }
            let m ← multiAssignPeerId (m.set id { mi with didRealHash := true }) id
            return (m, some id)

/-- What became of a datagram. -/
inductive UdpInstance
  | none
  | found (id : Nat) (floated : Bool)
  | created (id : Nat)

def multiGetCreateInstanceUdp (m : MultiContext cfg) (d : Datagram) :
    Option (MultiContext cfg × UdpInstance) :=
  match realKey d.sock.proto d.source with
  | none => some (m, .none)
  | some real =>
    if d.buf = [] then some (m, .none)
    else do
      let (m, existing) ← existingInstance m d real
      match existing with
      | some (id, floated) =>
        let mi ← m.objects[id]?
        if mi.halt then failure else return (m, .found id floated)
      | none =>
        let (m, created) ← admitInstance m d real
        match created with
        | none => return (m, .none)
        | some id => return (m, .created id)

/-! ## Floating -/

/-- The end of `multi_process_float`: the instance gets its new address. -/
def moveInstance (m : MultiContext cfg) (id : Nat) (d : Datagram) (real : MrouteAddr) :
    Option (MultiContext cfg) := do
  let mi ← m.objects[id]?
  let hash ← asserted (hashRemove m.hash mi.real)
  let iter ← asserted (hashRemove m.iter mi.real)
  let hash ← asserted (hashAdd hash real id false)
  let iter ← asserted (hashAdd iter real id false)
  return { m with hash := hash, iter := iter }.set id
    { mi with real := real, source := d.source, sock := d.sock }

/-- `multi_process_float`; the result says whether the instance was moved. The
key is built from a cleared `struct mroute_addr`: its protocol is
`PROTO_NONE`. -/
def multiProcessFloat (m : MultiContext cfg) (id : Nat) (d : Datagram) :
    Option (MultiContext cfg × Bool) :=
  match realKey .none d.source with
  | none => some (m, false)
  | some real =>
    match hashLookup m.hash real with
    | (hash, none) => do
        let m ← moveInstance { m with hash := hash } id d real
        return (m, true)
    | (hash, some exId) => do
        let mi ← m.objects[id]?
        let exMi ← m.objects[exId]?
        if certHashCompare mi.lockedCertHashSet exMi.lockedCertHashSet then
          let m ← multiCloseInstance { m with hash := hash } exId
          let m ← moveInstance m id d real
          return (m, true)
        else return ({ m with hash := hash }, false)

/-! ## The running server -/

inductive ServerEvent
  | datagram (d : Datagram)
  /-- A signal closes the instance. -/
  | close (id : Nat)
  /-- `tls_lock_cert_hash_set`, after the client's certificate was verified. -/
  | lockCertHashSet (id : Nat) (chs : CertHashSet)
  | deferShutdown

inductive ServerOutput
  | ignored
  | received (id : Nat)
  | created (id : Nat)
  /-- The packet of a floated client is not accepted, or its address is taken. -/
  | notFloated (id : Nat)
  | floated (id : Nat)
  | closed (id : Nat)
  deriving DecidableEq

/-- The instance takes over the source address of a packet that came from where
its last one did. -/
def takeSource (m : MultiContext cfg) (id : Nat) (d : Datagram) : Option (MultiContext cfg) := do
  let mi ← m.objects[id]?
  return m.set id { mi with source := d.source }

/-- `multi_process_incoming_link` for a datagram, up to the tunnel. -/
def multiProcessIncomingLink (m : MultiContext cfg) (d : Datagram) :
    Option (MultiContext cfg × ServerOutput) := do
  let (m, inst) ← multiGetCreateInstanceUdp m d
  match inst with
  | .none => return (m, .ignored)
  | .created id =>
    let m ← takeSource m id d
    return (m, .created id)
  | .found id false =>
    let m ← takeSource m id d
    return (m, .received id)
  | .found id true =>
    if d.decrypted then
      let (m, moved) ← multiProcessFloat m id d
      return (m, if moved then .floated id else .notFloated id)
    else return (m, .notFloated id)

def serverStep (m : MultiContext cfg) : ServerEvent → Option (MultiContext cfg × ServerOutput)
  | .datagram d => multiProcessIncomingLink m d
  | .close id => do
      let m ← multiCloseInstance m id
      return (m, .closed id)
  | .lockCertHashSet id chs => do
      let mi ← m.objects[id]?
      if mi.lockedCertHashSet.isSome then return (m, .ignored)
      else return (m.set id { mi with lockedCertHashSet := some chs }, .ignored)
  | .deferShutdown => some ({ m with deferredShutdown := true }, .ignored)

end OpenVpn
