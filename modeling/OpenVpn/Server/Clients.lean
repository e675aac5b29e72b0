import Mathlib.Data.Finset.Card
import OpenVpn.Server.Float

/-!
# Peer ids and the number of clients

Clients come over UDP and over TCP; both share the tables of the server. An instance
gets a peer id when it is created, and is counted in `n_clients` from the end of
`multi_connection_established` until it is closed.

* `multiCreateInstanceTcp`, `multiConnectionEstablished`, `clientStep` — the model,
  beside the UDP server of `multiProcessIncomingLink`.
* `PeersOk` — every open instance is in both tables and in the slot of its peer id, and
  there are as many taken slots as addresses in the table. `PeersOk.register` adds an
  instance.
* `peers_and_clients_consistent` — what holds in every state of a run. The number of
  addresses is below the limit when an instance is created, so there is a free slot.
-/

namespace OpenVpn

open Base List Option Function

variable {cfg : MultiConfig}

/-! ## TCP clients -/

/-- A connection that is accepted, and how the calls end that are not modelled. -/
structure TcpClient where
  /-- `info.lsa->actual.dest` -/
  dest : OpenvpnSockaddr
  sock : LinkSocket
  contextFails : Bool
  postFails : Bool

/-- `multi_create_instance` for a connection. The socket of the instance has the protocol
of the one that listens. The address comes from the socket: that it has one is asserted,
unless the creation has failed before. -/
def multiCreateInstanceAccepted (m : MultiContext cfg) (c : TcpClient) :
    Option (MultiContext cfg × Option Nat) :=
  match realKey c.sock.proto c.dest with
  | some real => multiCreateInstance m real c.sock c.contextFails c.postFails
  | none =>
    if c.contextFails || decide (cfg.maxClients ≤ m.hash.nElements) then
      createFailed { m with objects := m.objects ++ [newInstance mrouteAddrInit c.sock] }
        m.objects.length
    else none

/-- The new client takes the place of the one with the same address, which is found at the
head of its bucket. -/
def replaceInstance (m : MultiContext cfg) (he : HashElement MrouteAddr Nat) (id : Nat)
    (real : MrouteAddr) : Option (MultiContext cfg) := do
  let oldmi ← m.objects[he.value]?
  let m ← multiCloseInstance (m.set he.value { oldmi with didRealHash := false }) he.value
  let i := m.hash.index he.hashValue
  return { m with hash := m.hash.writeHead i { he with key := real, value := id } }

/-- The new client is put into the table of real addresses. -/
def enterAccepted (m : MultiContext cfg) (id : Nat) (real : MrouteAddr) :
    Option (MultiContext cfg) :=
  let hv := cfg.hashOps.hashFunction real
  match hashLookupFast m.hash (m.hash.index hv) real hv with
  | (hash, some he) => replaceInstance { m with hash := hash } he id real
  | (hash, none) => some { m with hash := hashAddFast hash (hash.index hv) real hv id }

/-- The end of `multi_create_instance_tcp`: the client gets a peer id before its address
is in the table. -/
def registerAccepted (m : MultiContext cfg) (id : Nat) (sock : LinkSocket) :
    Option (MultiContext cfg) := do
  let mi ← m.objects[id]?
  let real := { mi.real with proto := sock.proto.num }
  let m ← multiAssignPeerId (m.set id { mi with real := real }) id
  let m ← enterAccepted m id real
  let mi ← m.objects[id]?
  if mi.halt then none else return m.set id { mi with didRealHash := true }

def multiCreateInstanceTcp (m : MultiContext cfg) (c : TcpClient) :
    Option (MultiContext cfg × Option Nat) := do
  let (m, created) ← multiCreateInstanceAccepted m c
  match created with
  | none => return (m, none)
  | some id =>
    let m ← registerAccepted m id c.sock
    return (m, some id)

/-! ## Connections -/

inductive MultiStatus
  | notConnected
  | waitingAuth
  | pending
  | pendingDeferred
  | pendingDeferredPartial
  | failed
  | waitingOptionsImport
  | reconnectPending
  | connectDone
  deriving DecidableEq

/-- `is_cas_pending`. -/
def MultiStatus.isPending (st : MultiStatus) : Bool :=
  decide (st = .pending ∨ st = .pendingDeferred ∨ st = .pendingDeferredPartial)

/-- How the TLS layer of a server moves the state on: the first session becomes active, its
authentication succeeds, a new session takes its place. -/
def MultiStatus.advance : MultiStatus → MultiStatus
  | .notConnected => .waitingAuth
  | .waitingAuth => .pending
  | .connectDone => .reconnectPending
  | st => st

/-- What an instance has of its connection. -/
structure ConnectState where
  nClientsDelta : Int
  multiState : MultiStatus
  curHandlerIndex : Nat

def ConnectState.init : ConnectState := ⟨0, .notConnected, 0⟩

/-- `enum client_connect_return`. -/
inductive ConnectReturn
  | failed
  | succeeded
  | deferred
  | skipped
  deriving DecidableEq

/-- How the handlers and checks of a connection end. -/
structure ConnectOutcome where
  handler : Nat → ConnectReturn
  /-- `options.disable` is set after the handler. -/
  disable : Nat → Bool
  /-- the checks of the user name and of the options -/
  optionsValid : Bool
  /-- `multi_client_connect_late_setup` does not fail. -/
  lateSetup : Bool

/-- The length of `client_connect_handlers`. -/
def N_CONNECT_HANDLERS : Nat := 6

/-- The first call of `multi_connection_established` starts with the first handler. -/
def ConnectState.startHandlers (c : ConnectState) : ConnectState :=
  if c.multiState = .pending then
    { c with curHandlerIndex := 0, multiState := .pendingDeferred }
  else c

/-- The loop over the handlers: `cc_succeeded`, or nothing if a handler is deferred. -/
def connectHandlers (o : ConnectOutcome) : (left : Nat) → ConnectState → ConnectState × Option Bool
  | 0, c => (c, some true)
  | left + 1, c =>
    let i := c.curHandlerIndex
    if o.handler i = .deferred then (c, none)
    else
      let c := if o.handler i = .succeeded then
        { c with multiState := .pendingDeferredPartial } else c
      let c := { c with curHandlerIndex := i + 1 }
      if o.handler i = .failed ∨ o.disable i = true then (c, some false)
      else connectHandlers o left c

/-- The server with what it counts. -/
structure ClientServer (cfg : MultiConfig) where
  multi : MultiContext cfg
  nClients : Int
  connects : Nat → ConnectState

def ClientServer.setConnect (s : ClientServer cfg) (id : Nat) (c : ConnectState) :
    ClientServer cfg :=
  { s with connects := update s.connects id c }

/-- `multi_connection_established`; the result says whether it has run to its end. -/
def multiConnectionEstablished (s : ClientServer cfg) (id : Nat) (o : ConnectOutcome) :
    ClientServer cfg × Bool :=
  let c := (s.connects id).startHandlers
  match connectHandlers o (N_CONNECT_HANDLERS - c.curHandlerIndex) c with
  | (c, none) => (s.setConnect id c, false)
  | (c, some succeeded) =>
    let multiState := if succeeded && o.optionsValid && o.lateSetup then .connectDone else .failed
    ({ s with nClients := s.nClients + 1 }.setConnect id
      { c with multiState := multiState, nClientsDelta := c.nClientsDelta - 1 }, true)

/-- What `multi_close_instance` does to the counters. -/
def countClosed (s : ClientServer cfg) (id : Nat) : ClientServer cfg :=
  { s with nClients := s.nClients + (s.connects id).nClientsDelta }.setConnect id
    { s.connects id with nClientsDelta := 0 }

/-- The counters after a creation; an instance that could not be set up has been closed. -/
def countCreation (s : ClientServer cfg) (m : MultiContext cfg) : ClientServer cfg :=
  let id := s.multi.objects.length
  let s := { s with multi := m }
  match m.objects[id]? with
  | some mi => if mi.halt then countClosed s id else s
  | none => s

inductive ClientEvent
  | udp (d : Datagram)
  | tcp (c : TcpClient)
  /-- The TLS layer of the instance moves on. -/
  | tls (id : Nat)
  /-- `multi_process_post` of the instance. -/
  | post (id : Nat) (o : ConnectOutcome)
  | close (id : Nat)

inductive ClientOutput
  | link (o : ServerOutput)
  | done
  /-- `multi_connection_established` has run to its end. -/
  | established (id : Nat)
  deriving DecidableEq

def clientStep (s : ClientServer cfg) : ClientEvent → Option (ClientServer cfg × ClientOutput)
  | .udp d => (multiProcessIncomingLink s.multi d).map fun r => (countCreation s r.1, .link r.2)
  -- only the new instance is counted: none is replaced (`enterAccepted_absent`)
  | .tcp c => (multiCreateInstanceTcp s.multi c).map fun r => (countCreation s r.1, .done)
  | .tls id => some (s.setConnect id
      { s.connects id with multiState := (s.connects id).multiState.advance }, .done)
  | .post id o =>
    match s.multi.objects[id]? with
    | none => some (s, .done)
    | some mi =>
      if !mi.halt && (s.connects id).multiState.isPending then
        let (s, ended) := multiConnectionEstablished s id o
        some (s, if ended then .established id else .done)
      else some (s, .done)
  | .close id => (multiCloseInstance s.multi id).map fun m =>
    (countClosed { s with multi := m } id, .done)

/-! ## Peer ids -/

variable {m m' : MultiContext cfg} {d : Datagram} {id : Nat} {mi : MultiInstance}
  {real : MrouteAddr}

/-- Between two events every open instance is in both tables and in the slot of its peer
id, and there are as many taken slots as addresses in the table. -/
structure PeersOk (m : MultiContext cfg) : Prop where
  tables : Tables m
  length : m.instances.length = cfg.maxClients
  placed : ∀ id mi, m.Live id mi → mi.didRealHash = true ∧ mi.didIter = true ∧
    m.instances[mi.peerId]? = some (some id)
  counted : m.hash.nElements = m.instances.countP isSome

section

variable (h : PeersOk m)

include h

theorem PeersOk.freeSlot (hbelow : m.hash.nElements < cfg.maxClients) : FreeSlot m := by
  have hnotall : ¬ ∀ slot ∈ m.instances, slot.isSome = true := by
    intro hall
    have hcnt := countP_eq_length.mpr hall
    rw [h.counted, hcnt, h.length] at hbelow
    exact Int.lt_irrefl _ hbelow
  obtain ⟨slot, hnot⟩ := not_forall.mp hnotall
  obtain ⟨hmem, hnone⟩ := Classical.not_imp.mp hnot
  obtain ⟨i, hi, rfl⟩ := getElem_of_mem hmem
  refine ⟨i, h.length ▸ hi, ?_⟩
  rw [getElem?_eq_getElem hi]
  simpa using hnone

theorem PeersOk.congr (ht : Tables m') (hsl : m'.instances = m.instances)
    (hcnt : m'.hash.nElements = m.hash.nElements)
    (hlive : ∀ id x, m'.Live id x → ∃ y, m.Live id y ∧ x.didRealHash = y.didRealHash ∧
      x.didIter = y.didIter ∧ x.peerId = y.peerId) : PeersOk m' where
  tables := ht
  length := by rw [hsl, h.length]
  placed := by
    intro id x hx
    obtain ⟨y, hy, h1, h2, h3⟩ := hlive id x hx
    rw [h1, h2, h3, hsl]
    exact h.placed id y hy
  counted := by rw [hcnt, hsl, h.counted]

theorem PeersOk.looked (hl : Looked m m') : PeersOk m' := by
  have ht := h.tables.looked hl
  rcases hl with rfl | ⟨real, rfl⟩
  · exact h
  · exact h.congr ht rfl (hashLookup_spec h.tables.hash.1 real).2.1
      fun _ x hx => ⟨x, hx, rfl, rfl, rfl⟩

theorem PeersOk.same (hs : SameTables m m') : PeersOk m' := by
  refine h.congr (h.tables.same hs) hs.instances (by rw [hs.hash]) fun id x hx => ?_
  rw [MultiContext.Live, hs.objects] at hx
  exact ⟨x, hx, rfl, rfl, rfl⟩

variable {y : MultiInstance}

theorem PeersOk.pushClosed (hpush : Pushed m m' y) (hhalt : y.halt = true) : PeersOk m' := by
  refine h.congr hpush.tables hpush.instances (by rw [hpush.hash]) fun id x hx => ?_
  rcases (liveAt_push hpush.objects).mp hx with ⟨_, _, hopen⟩ | hx
  · rw [hhalt] at hopen
    cases hopen
  · exact ⟨x, hx, rfl, rfl, rfl⟩

theorem PeersOk.takeSource (hlive : m.Live id mi) (hm' : takeSource m id d = some m') :
    PeersOk m' := by
  obtain ⟨ht, hobj⟩ := takeSource_spec h.tables hlive hm'
  have hrest : m'.instances = m.instances ∧ m'.hash = m.hash := by
    unfold OpenVpn.takeSource at hm'
    rw [hlive.1] at hm'
    cases hm'
    exact ⟨rfl, rfl⟩
  refine h.congr ht hrest.1 (by rw [hrest.2]) fun j x hx => ?_
  rcases (liveAt_set hlive.1 hobj).mp hx with ⟨rfl, rfl, _⟩ | ⟨_, hx⟩
  · exact ⟨mi, hlive, rfl, rfl, rfl⟩
  · exact ⟨x, hx, rfl, rfl, rfl⟩

theorem PeersOk.register (ht : Tables m') {i : Nat} (hfree : m.instances[i]? = some none)
    (hsl : m'.instances = m.instances.set i (some m.objects.length))
    (hcnt : m'.hash.nElements = m.hash.nElements + 1) {sock : LinkSocket}
    (hobj : m'.objects = m.objects ++ [admittedInstance real sock i]) : PeersOk m' := by
  obtain ⟨hi, hnone⟩ := List.getElem?_eq_some_iff.mp hfree
  refine ⟨ht, by rw [hsl, length_set, h.length], fun id x hx => ?_, ?_⟩
  · rcases (liveAt_push hobj).mp hx with ⟨rfl, rfl, _⟩ | hx
    · refine ⟨rfl, rfl, ?_⟩
      rw [hsl]
      exact getElem?_set_self hi
    · obtain ⟨h1, h2, hslot⟩ := h.placed id x hx
      have hne : i ≠ x.peerId := by
        intro heq
        rw [← heq, hfree] at hslot
        cases hslot
      refine ⟨h1, h2, ?_⟩
      rw [hsl, getElem?_set_ne hne]
      exact hslot
  · rw [hcnt, h.counted, hsl, countP_set hi, hnone]
    simp

theorem PeersOk.close (hclose : multiCloseInstance m id = some m') : PeersOk m' := by
  obtain ⟨mi, hcl⟩ := multiCloseInstance_closed h.tables hclose
  obtain ⟨hdid, _, hslot⟩ := h.placed id mi hcl.live
  obtain ⟨hi, hsome⟩ := List.getElem?_eq_some_iff.mp hslot
  have hsl := hcl.instances
  rw [if_pos (h.tables.slots _ _ hslot).1] at hsl
  have hcnt := hcl.count
  rw [if_pos hdid] at hcnt
  refine ⟨hcl.tables, by rw [hsl, length_set, h.length], fun j x hx => ?_, ?_⟩
  · obtain ⟨hj, hx⟩ := hcl.live_iff.mp hx
    obtain ⟨h1, h2, hxslot⟩ := h.placed j x hx
    have hne : mi.peerId ≠ x.peerId := by
      intro heq
      rw [← heq, hslot] at hxslot
      cases hxslot
      exact hj rfl
    refine ⟨h1, h2, ?_⟩
    rw [hsl, getElem?_set_ne hne]
    exact hxslot
  · have hpos : 0 < m.instances.countP isSome :=
      countP_pos_iff.mpr ⟨some id, hsome ▸ getElem_mem hi, rfl⟩
    rw [hcnt, h.counted, hsl, countP_set hi, hsome]
    simp only [isSome_some, isSome_none, if_true, Bool.false_eq_true, if_false]
    omega

/-! ## Creation -/

variable {m₁ : MultiContext cfg}

/-- A created instance is assigned a peer id: there is one, unless the limit is out of
range, and the instance is registered. -/
theorem PeersOk.assign (hbelow : m.hash.nElements < cfg.maxClients) (ht : Tables m₁)
    (hsl : m₁.instances = m.instances) (hobj : m₁.objects = m.objects ++ [y])
    (hhalt : y.halt = false) (hpeer : y.peerId = MAX_PEER_ID) :
    (multiAssignPeerId m₁ m.objects.length = none ∧ MAX_PEER_ID ≤ cfg.maxClients) ∨
      ∃ m' i, multiAssignPeerId m₁ m.objects.length = some m' ∧ Tables m' ∧
        m'.hash = m₁.hash ∧ m.instances[i]? = some none ∧
        m'.instances = m.instances.set i (some m.objects.length) ∧
        m'.objects = m.objects ++ [{ y with peerId := i }] := by
  rcases multiAssignPeerId_spec ht (liveAt_last hobj hhalt) hpeer with ⟨hnone, hmax⟩ |
      ⟨m', i, hm', ht', hhash, hfree, hslots', hobjects'⟩
  · obtain ⟨i, hi, hfree⟩ := h.freeSlot hbelow
    exact .inl ⟨hnone, hmax ⟨i, hi, by rw [hsl, hfree]⟩⟩
  · rw [hsl] at hfree hslots'
    refine .inr ⟨m', i, hm', ht', hhash, hfree, hslots', ?_⟩
    rw [hobjects', hobj, set_push]

/-- What a creation leaves. -/
inductive Creation (m m' : MultiContext cfg) : Option Nat → Prop
  | unchanged (hobjects : m'.objects = m.objects) : Creation m m' none
  | failed (y : MultiInstance) (hobjects : m'.objects = m.objects ++ [y]) (hhalt : y.halt = true) :
      Creation m m' none
  | created (real : MrouteAddr) (sock : LinkSocket) (i : Nat)
      (hobjects : m'.objects = m.objects ++ [admittedInstance real sock i]) :
      Creation m m' (some m.objects.length)

theorem PeersOk.admission
    (habsent : ∀ m₁, doPreDecryptCheck m d = some (m₁, true) → m.hash.find real = none) :
    (admitInstance m d real = none ∧
      (doPreDecryptCheck m d = none ∨ MAX_PEER_ID ≤ cfg.maxClients)) ∨
    ∃ m' r, admitInstance m d real = some (m', r) ∧ PeersOk m' ∧ Creation m m' r := by
  rcases admitInstance_cases m d real with ⟨hnone, hchk⟩ | ⟨m₁, hrefused, hsame⟩ |
      ⟨m₁, m2, hchk, hsame, hchecked⟩
  · exact .inl ⟨hnone, .inl hchk⟩
  · exact .inr ⟨m₁, none, hrefused, h.same hsame, .unchanged hsame.objects⟩
  · have h2 := h.same hsame
    have habs : m2.hash.find real = none := by
      rw [hsame.hash]
      exact habsent m₁ hchk
    rw [hchecked]
    rcases admitChecked_cases (d := d) h2.tables habs with
      ⟨m3, y, hfail, hpush, hhalt⟩ |
        ⟨hbelow, m3, ht3, hcnt, hsl, hobj, hassign⟩
    · refine .inr ⟨m3, none, hfail, h2.pushClosed hpush hhalt, ?_⟩
      exact .failed y (by rw [hpush.objects, hsame.objects]) hhalt
    · rw [hassign]
      rcases h2.assign hbelow ht3 hsl hobj rfl rfl with ⟨hnone, hmax⟩ |
          ⟨m4, i, hm4, ht4, hhash4, hfree, hslots4, hobj4⟩
      · exact .inl ⟨by rw [hnone]; rfl, .inr hmax⟩
      · refine .inr ⟨m4, some m2.objects.length, by rw [hm4]; rfl, ?_, ?_⟩
        · exact h2.register ht4 hfree hslots4 (by rw [hhash4, hcnt]) hobj4
        · rw [hsame.objects] at hobj4 ⊢
          exact .created real d.sock i hobj4

theorem PeersOk.absent (hiter : m.iter.find real = none) : m.hash.find real = none := by
  rw [eq_none_iff_forall_ne_some]
  intro id hid
  obtain ⟨x, hx, _, hcmp⟩ := h.tables.find_eq_some.mp hid
  have hfind := (h.tables.iter.2 real id).mpr ⟨x.real, ⟨x, hx, (h.placed id x hx).2.1, rfl⟩, hcmp⟩
  rw [hiter] at hfind
  cases hfind

omit h in
/-- No instance is replaced: an address that is in the table of real addresses is in the
second table, where the creation has failed to add it. -/
theorem enterAccepted_absent (habs : m.hash.find real = none) :
    let hash := (hashLookup m.hash real).1
    let hv := cfg.hashOps.hashFunction real
    enterAccepted m id real =
      some { m with hash := hashAddFast hash (hash.index hv) real hv id } := by
  intro hash hv
  have hnone : (m.hash.bucket (m.hash.index hv)).find? (hashHit cfg.hashOps real hv) = none :=
    map_eq_none_iff.mp habs
  have hlk : hashLookupFast m.hash (m.hash.index hv) real hv = (hash, none) :=
    Prod.ext rfl hnone
  unfold enterAccepted
  simp only [hlk, hv]

omit h in
theorem MultiContext.set_same (hmi : m.objects[id]? = some mi) : m.set id mi = m := by
  obtain ⟨hlt, rfl⟩ := List.getElem?_eq_some_iff.mp hmi
  unfold MultiContext.set
  rw [set_getElem_self]

/-- A created TCP client is registered. The socket of the instance has the protocol of the
one that listens, so the key stays what it was. -/
theorem PeersOk.registerAccepted {sock : LinkSocket} (hpr : real.proto = sock.proto.num)
    (hbelow : m.hash.nElements < cfg.maxClients) (habs : m.hash.find real = none)
    (hpush : Pushed m m₁ (createdInstance real sock)) :
    (registerAccepted m₁ m.objects.length sock = none ∧ MAX_PEER_ID ≤ cfg.maxClients) ∨
      ∃ m' i, registerAccepted m₁ m.objects.length sock = some m' ∧ PeersOk m' ∧
        m'.objects = m.objects ++ [admittedInstance real sock i] := by
  obtain ⟨ht, hhash, hsl, hobj⟩ := hpush
  have hmi : m₁.objects[m.objects.length]? = some (createdInstance real sock) := by
    rw [hobj, getElem?_concat_length]
  have hkey : { (createdInstance real sock).real with proto := sock.proto.num } = real := by
    rw [← hpr]
    rfl
  have hset : m₁.set m.objects.length { createdInstance real sock with real := real } = m₁ :=
    MultiContext.set_same hmi
  unfold OpenVpn.registerAccepted
  simp only [hmi, bind_eq_bind, bind_some, hkey, hset]
  rcases h.assign hbelow ht hsl hobj rfl rfl with ⟨hnone, hmax⟩ |
      ⟨m2, i, hm2, ht2, hhash2, hfree, hslots2, hobj2⟩
  · exact .inl ⟨by rw [hnone]; rfl, hmax⟩
  · have habsent2 : m2.hash.find real = none := by rw [hhash2, hhash, habs]
    have hlive2 : m2.Live m.objects.length { createdInstance real sock with peerId := i } :=
      liveAt_last hobj2 rfl
    have hlk := hashLookup_spec ht2.hash.1 real
    have habsent3 : (hashLookup m2.hash real).1.find real = none := by
      rw [hlk.2.2, habsent2]
    have ht3 := (ht2.lookup real).enterReal hlive2 rfl habsent3
    simp only [hm2, bind_some, enterAccepted_absent habsent2, hlive2.1]
    have hobj3 : m2.objects.set m.objects.length
        { createdInstance real sock with peerId := i, didRealHash := true } =
          m.objects ++ [admittedInstance real sock i] := by
      rw [hobj2, set_push]
      rfl
    refine .inr ⟨_, i, rfl, h.register ht3 hfree hslots2 ?_ hobj3, hobj3⟩
    show (hashAddFast _ _ _ _ _).nElements = _
    rw [(hashAddFast_spec hlk.1 habsent3 _).2.1, hlk.2.1, hhash2, hhash]

theorem PeersOk.accept (c : TcpClient) :
    (multiCreateInstanceTcp m c = none ∧
      (realKey c.sock.proto c.dest = none ∨ MAX_PEER_ID ≤ cfg.maxClients)) ∨
    ∃ m' r, multiCreateInstanceTcp m c = some (m', r) ∧ PeersOk m' ∧ Creation m m' r := by
  unfold multiCreateInstanceTcp multiCreateInstanceAccepted
  cases hkey : realKey c.sock.proto c.dest with
  | none =>
    simp only
    split
    · have ht := h.tables.push (y := newInstance mrouteAddrInit c.sock) rfl rfl
      obtain ⟨m₁, y, hm1, hpush, hhalt⟩ :=
        createFailed_push (m := m) ⟨ht, rfl, rfl, rfl⟩ rfl rfl rfl
      exact .inr ⟨m₁, none, by rw [hm1]; rfl, h.pushClosed hpush hhalt,
        .failed y hpush.objects hhalt⟩
    · exact .inl ⟨rfl, .inl trivial⟩
  | some real =>
    obtain ⟨m₁, r, hcreate, heff⟩ :=
      multiCreateInstance_spec h.tables real c.sock c.contextFails c.postFails
    simp only [hcreate, bind_eq_bind, bind_some]
    cases heff with
    | @failed y hpush hhalt =>
      exact .inr ⟨m₁, none, rfl, h.pushClosed hpush hhalt, .failed y hpush.objects hhalt⟩
    | created hpush hbelow hiter =>
      rcases h.registerAccepted (realKey_proto hkey) hbelow (h.absent hiter) hpush with
        ⟨hnone, hmax⟩ | ⟨m2, i, hm2, hok, hobj2⟩
      · exact .inl ⟨by simp only [hnone, bind_none], .inr hmax⟩
      · refine .inr ⟨m2, some m.objects.length, ?_, hok, .created real c.sock i hobj2⟩
        simp only [hm2, bind_some]
        rfl

/-! ## Open instances -/

end

def MultiContext.isOpen (m : MultiContext cfg) (id : Nat) : Bool :=
  m.objects[id]?.any fun mi => !mi.halt

theorem MultiContext.isOpen_iff : m.isOpen id = true ↔ ∃ mi, m.Live id mi := by
  unfold MultiContext.isOpen
  simp [Option.any_eq_true, LiveAt]

theorem MultiContext.isOpen_lt (h : m.isOpen id = true) : id < m.objects.length := by
  obtain ⟨mi, hlive⟩ := isOpen_iff.mp h
  exact hlive.lt

/-- The instances of a state are still there in another one, open or closed as they were. -/
structure Extends (m m' : MultiContext cfg) : Prop where
  length : m.objects.length ≤ m'.objects.length
  isOpen : ∀ id < m.objects.length, m'.isOpen id = m.isOpen id

theorem Extends.of_eq (h : m'.objects = m.objects) : Extends m m' where
  length := by rw [h]
  isOpen := fun id _ => by rw [MultiContext.isOpen, h, MultiContext.isOpen]

theorem Extends.trans {m2 m3 : MultiContext cfg} (h : Extends m₁ m2) (h' : Extends m2 m3) :
    Extends m₁ m3 where
  length := Nat.le_trans h.length h'.length
  isOpen := fun id hid =>
    (h'.isOpen id (Nat.lt_of_lt_of_le hid h.length)).trans (h.isOpen id hid)

theorem Extends.push (h : m'.objects = m.objects ++ [y]) : Extends m m' where
  length := by
    rw [h, length_append]
    exact Nat.le_add_right _ _
  isOpen := fun id hid => by
    rw [MultiContext.isOpen, h, getElem?_append_left hid, MultiContext.isOpen]

theorem Creation.extends {r : Option Nat} (h : Creation m m' r) : Extends m m' := by
  cases h with
  | unchanged hobj => exact .of_eq hobj
  | failed y hobj hhalt => exact .push hobj
  | created real sock i hobj => exact .push hobj

theorem Creation.live (h : Creation m m' (some id)) : ∃ mi, m'.Live id mi := by
  cases h with
  | created real sock i hobj =>
    exact ⟨admittedInstance real sock i, liveAt_last hobj rfl⟩

theorem Extends.takeSource (hlive : m.Live id mi) (h : takeSource m id d = some m') :
    Extends m m' := by
  unfold OpenVpn.takeSource at h
  rw [hlive.1] at h
  cases h
  refine ⟨by simp [MultiContext.set], fun j hj => ?_⟩
  unfold MultiContext.isOpen MultiContext.set
  by_cases hji : j = id
  · subst hji
    simp only [getElem?_set_self hj, hlive.1, any_some]
  · simp only [getElem?_set_ne (Ne.symm hji)]

theorem PeersOk.existing {found : Option (Nat × Bool)} (h : PeersOk m)
    (hexist : existingInstance m d real = some (m₁, found)) : PeersOk m₁ ∧ Extends m m₁ :=
  have hl := existingInstance_looked hexist
  ⟨h.looked hl, .of_eq hl.objects⟩

theorem PeersOk.admitted {m2 : MultiContext cfg} {r : Option Nat} (h : PeersOk m)
    (hnone : existingInstance m d real = some (m₁, none))
    (hadm : admitInstance m₁ d real = some (m2, r)) :
    PeersOk m2 ∧ Creation m₁ m2 r ∧ Extends m m2 := by
  obtain ⟨h1, he1⟩ := h.existing hnone
  rcases h1.admission fun _ => existingInstance_absent h.tables hnone with ⟨hab, _⟩ |
      ⟨m3, r', hm3, h3, hc⟩
  · cases hab.symm.trans hadm
  · cases hm3.symm.trans hadm
    exact ⟨h3, hc, he1.trans hc.extends⟩

theorem PeersOk.disallowed (h : PeersOk m) (hlive : m.Live id mi)
    (hfloat : multiProcessFloat m id d = some (m', false)) : PeersOk m' ∧ Extends m m' := by
  obtain ⟨hhash, hiter, -⟩ := h.placed id mi hlive
  rcases multiProcessFloat_spec h.tables hlive hhash hiter hfloat with ⟨_, hl⟩ | ⟨hmov, _⟩
  · exact ⟨h.looked hl, .of_eq hl.objects⟩
  · cases hmov

theorem PeersOk.link {o : ServerOutput} (h : PeersOk m) (ho : ∀ id, o ≠ .floated id)
    (hm' : multiProcessIncomingLink m d = some (m', o)) : PeersOk m' ∧ Extends m m' := by
  cases linkEffect hm' with
  | skipped => exact ⟨h, .of_eq rfl⟩
  | refused hkey hnone hadm =>
    obtain ⟨h2, _, he⟩ := h.admitted hnone hadm
    exact ⟨h2, he⟩
  | created hkey hnone hadm hsrc =>
    obtain ⟨h2, hc, he⟩ := h.admitted hnone hadm
    obtain ⟨mi, hlive⟩ := hc.live
    exact ⟨h2.takeSource hlive hsrc, he.trans (.takeSource hlive hsrc)⟩
  | received hkey hfnd hlive hsrc =>
    obtain ⟨h1, he⟩ := h.existing hfnd
    exact ⟨h1.takeSource hlive hsrc, he.trans (.takeSource hlive hsrc)⟩
  | rejected hkey hfnd hlive => exact h.existing hfnd
  | disallowed hkey hfnd hlive hfloat =>
    obtain ⟨h1, he1⟩ := h.existing hfnd
    obtain ⟨h2, he2⟩ := h1.disallowed hlive hfloat
    exact ⟨h2, he1.trans he2⟩
  | floated => exact absurd rfl (ho _)

/-! ## The number of clients -/

variable {s : ClientServer cfg} {outs : List ClientOutput} {c : ConnectState}

/-- The state after `multi_connection_established` has run to its end; it is never pending
again. -/
def MultiStatus.Ended (st : MultiStatus) : Prop :=
  st = .failed ∨ st = .connectDone ∨ st = .reconnectPending

theorem MultiStatus.Ended.advance {st : MultiStatus} (h : st.Ended) : st.advance.Ended := by
  rcases h with rfl | rfl | rfl
  · exact .inl rfl
  · exact .inr (.inr rfl)
  · exact .inr (.inr rfl)

theorem MultiStatus.Ended.not_pending {st : MultiStatus} (h : st.Ended) : st.isPending = false := by
  rcases h with rfl | rfl | rfl <;> rfl

/-- The open instances for which `multi_connection_established` has run to its end. -/
def establishedClients (m : MultiContext cfg) (outs : List ClientOutput) : Finset Nat :=
  (Finset.range m.objects.length).filter fun id => m.isOpen id = true ∧ .established id ∈ outs

theorem mem_establishedClients :
    id ∈ establishedClients m outs ↔ m.isOpen id = true ∧ .established id ∈ outs := by
  unfold establishedClients
  rw [Finset.mem_filter, Finset.mem_range]
  exact and_iff_right_of_imp fun h => MultiContext.isOpen_lt h.1

/-- The counters of a server that has put out `outs`. -/
structure CountersOk (s : ClientServer cfg) (outs : List ClientOutput) : Prop where
  known : ∀ id, .established id ∈ outs → id < s.multi.objects.length
  ended : ∀ id, .established id ∈ outs → (s.connects id).multiState.Ended
  delta : ∀ id, (s.connects id).nClientsDelta =
    if id ∈ establishedClients s.multi outs then -1 else 0
  count : s.nClients = (establishedClients s.multi outs).card

variable {o : ClientOutput}

theorem establishedClients_quiet (ho : ∀ id, o ≠ .established id) :
    establishedClients m (outs ++ [o]) = establishedClients m outs := by
  ext id
  rw [mem_establishedClients, mem_establishedClients, mem_append, mem_singleton,
    or_iff_left (Ne.symm (ho id))]

section

variable (h : CountersOk s outs)

include h

theorem CountersOk.quiet (ho : ∀ id, o ≠ .established id) :
    CountersOk s (outs ++ [o]) := by
  have hmem : ∀ id, .established id ∈ outs ++ [o] → .established id ∈ outs := by
    intro id hid
    rw [mem_append, mem_singleton] at hid
    exact hid.resolve_right (Ne.symm (ho id))
  refine ⟨fun id hid => h.known id (hmem id hid), fun id hid => h.ended id (hmem id hid), ?_, ?_⟩
  · rw [establishedClients_quiet ho]
    exact h.delta
  · rw [establishedClients_quiet ho]
    exact h.count

theorem CountersOk.establishedClients_eq (he : Extends s.multi m') :
    establishedClients m' outs = establishedClients s.multi outs := by
  ext id
  rw [mem_establishedClients, mem_establishedClients]
  refine and_congr_left fun hid => ?_
  rw [he.isOpen id (h.known id hid)]

theorem CountersOk.extends (he : Extends s.multi m') :
    CountersOk { s with multi := m' } outs := by
  have hset := h.establishedClients_eq he
  refine ⟨fun id hid => Nat.lt_of_lt_of_le (h.known id hid) he.length, h.ended, ?_, ?_⟩
  · rw [hset]
    exact h.delta
  · rw [hset]
    exact h.count

theorem CountersOk.setConnect
    (hd : c.nClientsDelta = (s.connects id).nClientsDelta)
    (hended : .established id ∈ outs → c.multiState.Ended) :
    CountersOk (s.setConnect id c) outs := by
  refine ⟨h.known, fun j hj => ?_, fun j => ?_, h.count⟩
  · simp only [ClientServer.setConnect, update_apply]
    split
    · next heq => exact hended (heq ▸ hj)
    · exact h.ended j hj
  · simp only [ClientServer.setConnect, update_apply]
    split
    · next heq =>
        rw [hd, ← heq]
        exact h.delta j
    · exact h.delta j

theorem CountersOk.countClosed
    (hlen : s.multi.objects.length ≤ m'.objects.length)
    (hset : establishedClients m' outs = (establishedClients s.multi outs).erase id) :
    CountersOk (countClosed { s with multi := m' } id) outs := by
  unfold OpenVpn.countClosed
  refine ⟨fun j hj => Nat.lt_of_lt_of_le (h.known j hj) hlen, fun j hj => ?_, fun j => ?_, ?_⟩
  · simp only [ClientServer.setConnect, update_apply]
    split
    · next heq => exact h.ended id (heq ▸ hj)
    · exact h.ended j hj
  · simp only [ClientServer.setConnect, update_apply, hset, Finset.mem_erase]
    split
    · next heq => simp [heq]
    · next hne => simp only [h.delta j, hne, ne_eq, not_false_eq_true, true_and]
  · simp only [ClientServer.setConnect, hset, h.count, h.delta]
    split
    · next hmem =>
        have hcard := Finset.card_erase_add_one hmem
        omega
    · next hmem => rw [Finset.erase_eq_of_notMem hmem, Int.add_zero]

end

theorem Closed.isOpen_iff (h : Closed m m' id mi) (j : Nat) :
    m'.isOpen j = true ↔ j ≠ id ∧ m.isOpen j = true := by
  rw [MultiContext.isOpen_iff, MultiContext.isOpen_iff]
  simp only [h.live_iff, exists_and_left]

theorem countCreation_multi (s : ClientServer cfg) (m' : MultiContext cfg) :
    (countCreation s m').multi = m' := by
  unfold countCreation
  dsimp only
  split
  · split <;> rfl
  · rfl

theorem CountersOk.close (h : CountersOk s outs) (ht : Tables s.multi)
    (hclose : multiCloseInstance s.multi id = some m') :
    CountersOk (OpenVpn.countClosed { s with multi := m' } id) outs := by
  obtain ⟨mi, hcl⟩ := multiCloseInstance_closed ht hclose
  refine h.countClosed (by rw [hcl.objects, length_set]) ?_
  ext j
  rw [Finset.mem_erase, mem_establishedClients, mem_establishedClients, hcl.isOpen_iff,
    and_assoc]

theorem CountersOk.creation (h : CountersOk s outs) (he : Extends s.multi m') :
    CountersOk (countCreation s m') outs := by
  have hnew : s.multi.objects.length ∉ establishedClients s.multi outs := by
    intro hmem
    exact Nat.lt_irrefl _ (MultiContext.isOpen_lt (mem_establishedClients.mp hmem).1)
  have hcr := h.extends he
  unfold countCreation
  dsimp only
  split
  · split
    · refine h.countClosed he.length ?_
      rw [Finset.erase_eq_of_notMem hnew, h.establishedClients_eq he]
    · exact hcr
  · exact hcr

theorem connectHandlers_delta (o : ConnectOutcome) (left : Nat) (c : ConnectState) :
    (connectHandlers o left c).1.nClientsDelta = c.nClientsDelta := by
  induction left generalizing c with
  | zero => rfl
  | succ left ih =>
    simp only [connectHandlers]
    split
    · rfl
    split
    · split <;> rfl
    · rw [ih]
      split <;> rfl

/-- The counters change exactly when the chain has ended. -/
theorem multiConnectionEstablished_spec (s : ClientServer cfg) (id : Nat) (o : ConnectOutcome) :
    ∃ c ended, multiConnectionEstablished s id o =
        ({ s with nClients := s.nClients + (if ended then 1 else 0) }.setConnect id c, ended) ∧
      c.nClientsDelta = (s.connects id).nClientsDelta - (if ended then 1 else 0) ∧
      (ended = true → c.multiState.Ended) := by
  have hdelta0 : (s.connects id).startHandlers.nClientsDelta = (s.connects id).nClientsDelta := by
    unfold ConnectState.startHandlers
    split <;> rfl
  unfold multiConnectionEstablished
  generalize (s.connects id).startHandlers = c0 at hdelta0 ⊢
  have hd := connectHandlers_delta o (N_CONNECT_HANDLERS - c0.curHandlerIndex) c0
  dsimp only
  split
  · next c heq =>
      rw [heq] at hd
      refine ⟨c, false, ?_, ?_, by simp⟩
      · simp
      · simp only [Bool.false_eq_true, if_false, Int.sub_zero]
        exact hd.trans hdelta0
  · next c succeeded heq =>
      rw [heq] at hd
      refine ⟨_, true, rfl, ?_, fun _ => ?_⟩
      · show c.nClientsDelta - 1 = _
        rw [if_pos rfl, ← hdelta0, ← hd]
      · show MultiStatus.Ended (if _ then _ else _)
        split
        · exact .inr (.inl rfl)
        · exact .inl rfl

/-- An instance that is established is counted. -/
theorem CountersOk.established (h : CountersOk s outs) (hopen : s.multi.isOpen id = true)
    (hnew : .established id ∉ outs)
    (hd : c.nClientsDelta = (s.connects id).nClientsDelta - 1) (hended : c.multiState.Ended) :
    CountersOk ({ s with nClients := s.nClients + 1 }.setConnect id c)
      (outs ++ [.established id]) := by
  have hset : establishedClients s.multi (outs ++ [.established id]) =
      insert id (establishedClients s.multi outs) := by
    ext j
    rw [Finset.mem_insert, mem_establishedClients, mem_establishedClients, mem_append,
      mem_singleton, ClientOutput.established.injEq]
    constructor
    · rintro ⟨hj, hout | rfl⟩
      · exact .inr ⟨hj, hout⟩
      · exact .inl rfl
    · rintro (rfl | ⟨hj, hout⟩)
      · exact ⟨hopen, .inr rfl⟩
      · exact ⟨hj, .inl hout⟩
  have hnotin : id ∉ establishedClients s.multi outs := fun hmem =>
    hnew (mem_establishedClients.mp hmem).2
  refine ⟨fun j hj => ?_, fun j hj => ?_, fun j => ?_, ?_⟩
  · rw [mem_append, mem_singleton] at hj
    rcases hj with hj | hj
    · exact h.known j hj
    · cases hj
      exact MultiContext.isOpen_lt hopen
  · simp only [ClientServer.setConnect, update_apply]
    split
    · exact hended
    · next hne =>
        rw [mem_append, mem_singleton] at hj
        rcases hj with hj | hj
        · exact h.ended j hj
        · cases hj
          exact absurd rfl hne
  · simp only [ClientServer.setConnect, update_apply, hset, Finset.mem_insert]
    split
    · next heq =>
        rw [hd, h.delta, if_neg hnotin, if_pos (.inl heq)]
        rfl
    · next hne => simp only [h.delta j, hne, false_or]
  · simp only [ClientServer.setConnect, hset, Finset.card_insert_of_notMem hnotin, h.count]
    push_cast
    rfl

/-- The state of a server that has put out `outs`. -/
structure ClientsOk (s : ClientServer cfg) (outs : List ClientOutput) : Prop where
  peers : PeersOk s.multi
  counters : CountersOk s outs

theorem ClientsOk.post (h : ClientsOk s outs) (o : ConnectOutcome) (hlive : s.multi.Live id mi)
    (hpend : (s.connects id).multiState.isPending = true) :
    ClientsOk (multiConnectionEstablished s id o).1 (outs ++
      [if (multiConnectionEstablished s id o).2 then .established id else .done]) := by
  have hnew : .established id ∉ outs := by
    intro hmem
    rw [(h.counters.ended id hmem).not_pending] at hpend
    cases hpend
  obtain ⟨c, ended, heq, hd, hended⟩ := multiConnectionEstablished_spec s id o
  rw [heq]
  cases ended with
  | false =>
    simp only [Bool.false_eq_true, if_false, Int.sub_zero, Int.add_zero] at hd ⊢
    refine ⟨h.peers, CountersOk.quiet ?_ (by simp)⟩
    exact h.counters.setConnect hd fun hmem => absurd hmem hnew
  | true =>
    simp only [if_true] at hd ⊢
    exact ⟨h.peers, h.counters.established (MultiContext.isOpen_iff.mpr ⟨mi, hlive⟩) hnew hd
      (hended rfl)⟩

/-- **One event.** -/
theorem ClientsOk.step {e : ClientEvent} {s' : ClientServer cfg} (h : ClientsOk s outs)
    (ho : ∀ id, o ≠ .link (.floated id)) (hstep : clientStep s e = some (s', o)) :
    ClientsOk s' (outs ++ [o]) := by
  cases e with
  | udp d =>
    obtain ⟨⟨m', out⟩, hm', heq⟩ := map_eq_some_iff.mp hstep
    cases heq
    obtain ⟨hpeers, he⟩ := h.peers.link (fun id hid => ho id (by rw [hid])) hm'
    exact ⟨by rwa [countCreation_multi], (h.counters.creation he).quiet (by simp)⟩
  | tcp c =>
    obtain ⟨⟨m', r⟩, hm', heq⟩ := map_eq_some_iff.mp hstep
    cases heq
    rcases h.peers.accept c with ⟨hnone, _⟩ | ⟨m₁, r1, hm1, hpeers, hc⟩
    · cases hnone.symm.trans hm'
    · cases hm1.symm.trans hm'
      exact ⟨by rwa [countCreation_multi], (h.counters.creation hc.extends).quiet (by simp)⟩
  | tls id =>
    cases hstep
    refine ⟨h.peers, CountersOk.quiet ?_ (by simp)⟩
    exact h.counters.setConnect rfl fun hmem => (h.counters.ended id hmem).advance
  | post id out =>
    simp only [clientStep] at hstep
    split at hstep
    · cases hstep
      exact ⟨h.peers, h.counters.quiet (by simp)⟩
    · next mi hmi =>
        split at hstep
        · next hcond =>
            cases hstep
            rw [Bool.and_eq_true, Bool.not_eq_true'] at hcond
            exact h.post out ⟨hmi, hcond.1⟩ hcond.2
        · cases hstep
          exact ⟨h.peers, h.counters.quiet (by simp)⟩
  | close id =>
    obtain ⟨m', hm', heq⟩ := map_eq_some_iff.mp hstep
    cases heq
    exact ⟨h.peers.close hm', (h.counters.close h.peers.tables hm').quiet (by simp)⟩

def ClientServer.start (m : MultiContext cfg) : ClientServer cfg := ⟨m, 0, fun _ => .init⟩

theorem clientsOk_start {realHashSize : Nat} {limiter : FrequencyLimit}
    {initial : InitialPacketRateLimit}
    (h : multiInit cfg realHashSize limiter initial = some m) : ClientsOk (.start m) [] := by
  have htables := (serverOk_multiInit h).tables
  unfold multiInit at h
  simp only [bind_eq_bind, bind_eq_some_iff] at h
  obtain ⟨hash, hhash, iter, _, h⟩ := h
  cases h
  refine ⟨⟨htables, length_replicate, fun id mi hlive => ?_, ?_⟩, ⟨by simp, by simp, ?_, rfl⟩⟩
  · cases hlive.1
  · show hash.nElements = ((replicate cfg.maxClients none).countP isSome : Nat)
    rw [(hashInit_spec hhash).2.1, countP_replicate]
    rfl
  · intro id
    rw [if_neg (by simp [mem_establishedClients])]
    rfl

theorem clientsOk_run {realHashSize : Nat} {limiter : FrequencyLimit}
    {initial : InitialPacketRateLimit} {m0 : MultiContext cfg} {es : List ClientEvent}
    (hinit : multiInit cfg realHashSize limiter initial = some m0)
    (hrun : run clientStep (.start m0) es = some (s, outs))
    (hfloat : ∀ id, .link (.floated id) ∉ outs) : ClientsOk s outs := by
  have hstart : (∀ id, .link (.floated id) ∉ ([] : List ClientOutput)) →
      ClientsOk (.start m0) [] := fun _ => clientsOk_start hinit
  refine run_history (G := fun _ => True)
    (I := fun s outs => (∀ id, .link (.floated id) ∉ outs) → ClientsOk s outs)
    (fun s outs e s' o hok _ hstep hquiet => ?_) hstart (fun _ _ => trivial) hrun hfloat
  refine (hok fun id hid => hquiet id (mem_append_left _ hid)).step (fun id ho => ?_) hstep
  exact hquiet id (mem_append_right _ (by rw [ho]; exact mem_cons_self))

/-- **Peer ids and client counters.** In every state of a run in which no client floats, an
open instance with a peer id has a slot below the limit; a taken slot belongs to exactly one
open instance; an instance is refused or finds a free slot, over UDP and over TCP (the
creation is aborted only by the checks before it, for an address without a key, or by a limit
that is not below `MAX_PEER_ID`); and `n_clients` is the number of open instances whose
connection is established. -/
theorem peers_and_clients_consistent {realHashSize : Nat} {limiter : FrequencyLimit}
    {initial : InitialPacketRateLimit} {m₀ : MultiContext cfg} {es : List ClientEvent}
    (hinit : multiInit cfg realHashSize limiter initial = some m₀)
    (hrun : run clientStep (.start m₀) es = some (s, outs))
    (hfloat : ∀ id, .link (.floated id) ∉ outs) :
    (∀ id mi, s.multi.Live id mi → mi.peerId ≠ MAX_PEER_ID →
      mi.peerId < cfg.maxClients ∧ s.multi.instances[mi.peerId]? = some (some id)) ∧
    (∀ p id, s.multi.instances[p]? = some (some id) →
      ∃ mi, s.multi.Live id mi ∧ mi.peerId = p ∧
        ∀ id' mi', s.multi.Live id' mi' → mi'.peerId = p → id' = id) ∧
    (∀ d real m₁, existingInstance s.multi d real = some (m₁, none) →
      admitInstance m₁ d real = none →
        doPreDecryptCheck m₁ d = none ∨ MAX_PEER_ID ≤ cfg.maxClients) ∧
    (∀ c, multiCreateInstanceTcp s.multi c = none →
      realKey c.sock.proto c.dest = none ∨ MAX_PEER_ID ≤ cfg.maxClients) ∧
    s.nClients = ((Finset.range s.multi.objects.length).filter fun id =>
      s.multi.isOpen id = true ∧ .established id ∈ outs).card := by
  have hok := clientsOk_run hinit hrun hfloat
  refine ⟨fun id mi hlive _ => ?_, fun p id hslot => ?_, fun d real m₁ hnone habort => ?_,
    fun c habort => ?_, hok.counters.count⟩
  · have hslot := (hok.peers.placed id mi hlive).2.2
    refine ⟨?_, hslot⟩
    rw [← hok.peers.length]
    exact (List.getElem?_eq_some_iff.mp hslot).1
  · obtain ⟨_, mi, hlive, hpeer⟩ := hok.peers.tables.slots p id hslot
    refine ⟨mi, hlive, hpeer, fun id' mi' hlive' hpeer' => ?_⟩
    have hslot' := (hok.peers.placed id' mi' hlive').2.2
    rw [hpeer', hslot] at hslot'
    cases hslot'
    rfl
  · rcases (hok.peers.existing hnone).1.admission
      (fun _ => existingInstance_absent hok.peers.tables hnone) with ⟨_, hcases⟩ | ⟨_, _, hsome, _⟩
    · exact hcases
    · cases hsome.symm.trans habort
  · rcases hok.peers.accept c with ⟨_, hcases⟩ | ⟨_, _, hsome, _⟩
    · exact hcases
    · cases hsome.symm.trans habort

/-- A connection whose handlers all succeed. -/
def sampleOutcome : ConnectOutcome := ⟨fun _ => .succeeded, fun _ => false, true, true⟩

/-- A client connects over UDP and one over TCP, from the same address. Another TCP client
with the address of the second is refused. Both are established, the first one is closed. -/
def clientSchedule : List ClientEvent :=
  [.udp (sampleDatagram 1 (controlPacket 20)), .tcp ⟨sampleSource 1, ⟨.tcpServer⟩, false, false⟩,
    .tcp ⟨sampleSource 1, ⟨.tcpServer⟩, false, false⟩, .tls 0, .tls 1, .tls 0, .tls 1,
    .post 0 sampleOutcome, .post 1 sampleOutcome, .close 0]

theorem peers_and_clients_consistent_tcp : ∃ s outs,
    run clientStep (.start sampleServer) clientSchedule = some (s, outs) ∧
      s.multi.instances = [none, some 1, none, none] ∧ s.nClients = 1 ∧
      s.nClients = ((Finset.range s.multi.objects.length).filter fun id =>
        s.multi.isOpen id = true ∧ .established id ∈ outs).card := by
  have hend : (run clientStep (.start sampleServer) clientSchedule).map (fun r =>
      (r.1.multi.instances, r.1.nClients, r.2)) =
        some ([none, some 1, none, none], 1, [.link (.created 0), .done, .done, .done, .done,
          .done, .done, .established 0, .established 1, .done]) := by
    decide +kernel
  obtain ⟨⟨s, outs⟩, hrun, hr⟩ := map_eq_some_iff.mp hend
  obtain ⟨hslots, hr⟩ := Prod.mk.inj hr
  obtain ⟨hcount, houts⟩ := Prod.mk.inj hr
  have hfloat : ∀ id, .link (.floated id) ∉ outs := by
    intro id
    change outs = _ at houts
    rw [houts]
    simp
  exact ⟨s, outs, hrun, hslots, hcount,
    (peers_and_clients_consistent (some_get _).symm hrun hfloat).2.2.2.2⟩

end OpenVpn
