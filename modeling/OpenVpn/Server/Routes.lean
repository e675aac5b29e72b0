import OpenVpn.Base.Run
import OpenVpn.Server.Address

/-!
# Virtual routes

The server keeps the addresses and networks behind its clients in a hash table of
routes (`m->vhash`). A route points to an instance, and keeps its memory alive after it
is closed. A lookup that goes through the networks leaves a route to the host it was
asked for, which is valid until its time is up or the networks change.

* `deref`, `multiInstanceIncRefcount`, `multiInstanceDecRefcount` — the memory of the
  instances. What reads an instance that was released has no result.
* `multiLearnAddr`, `multiGetInstanceByVirtualAddr`, `multiReapRange` — the table.
* `mrouteHelperAddIroute46`, `mrouteHelperDelIroute46` — the lengths of the networks in
  use and the generation of the cached routes, a counter of 32 bits.
* `routeStep` — the server as far as it deals with routes.
-/

namespace OpenVpn

open Base UInt8

/-! ## Addresses -/

def MR_ADDR_ETHER : UInt8 := 1
def MR_ADDR_MASK : UInt8 := 3
def MR_WITH_NETBITS : UInt8 := 8
def MR_HELPER_NET_LEN : Nat := 129

def isMacMcastMaddr (addr : MrouteAddr) : Bool :=
  decide (addr.type &&& MR_ADDR_MASK = MR_ADDR_ETHER) && decide (addr.rawAddr.headD 0 &&& 1 ≠ 0)

def mrouteLearnableAddress (addr : MrouteAddr) : Bool :=
  let bs := addr.rawAddr.take addr.len.toNat
  if bs.all (· == 0) &&
      !(decide (addr.type &&& MR_WITH_NETBITS ≠ 0) && decide (addr.netbits < 8)) then false
  else if bs.all (· == 0xff) then false
  else !isMacMcastMaddr addr

/-- The loop of `mroute_addr_mask_host_bits` and `route_ipv6_clear_host_bits` over the first
`left` bytes of an IPv6 address, from the right. `mask` is the constant that is shifted; the
assignment to a byte cuts the result. -/
def maskHostBitsLoop (mask : BitVec 32) : (left : Nat) → Bytes → (bitsToClear : Int) → Bytes × Int
  | 0, raw, bits => (raw, bits)
  | byte + 1, raw, bits =>
    if 0 < bits then
      if 8 ≤ bits then maskHostBitsLoop mask byte (raw.set byte 0) (bits - 8)
      else maskHostBitsLoop mask byte
        (raw.set byte (raw.getD byte 0 &&& ofNat (mask <<< bits.toNat).toNat)) 0
    else (raw, bits)

def mrouteAddrMaskHostBits (ma : MrouteAddr) : Option MrouteAddr :=
  if ma.type &&& MR_ADDR_MASK = MR_ADDR_IPV4 then
    let addr := BitVec.ofNat 32 (beNat (ma.rawAddr.take 4)) &&& netbitsToNetmask ma.netbits.toNat
    some (ma.setRaw (beBytes 4 addr.toNat))
  else if ma.type &&& MR_ADDR_MASK = MR_ADDR_IPV6 then
    let masked := maskHostBitsLoop IPV4_NETMASK_HOST 16 ma.rawAddr (128 - ma.netbits.toNat)
    if masked.2 = 0 then some { ma with rawAddr := masked.1 } else none
  else none

/-- An address in the tunnel. -/
inductive VirtualAddr
  | v4 (addr : BitVec 32)
  | v6 (addr : BitVec 128)
  deriving DecidableEq

def VirtualAddr.width : VirtualAddr → Nat
  | .v4 _ => 32
  | .v6 _ => 128

/-- `mroute_get_in_addr_t` and `mroute_get_in6_addr`: the address of a packet. -/
def VirtualAddr.mroute : VirtualAddr → MrouteAddr
  | .v4 addr => { mrouteAddrInit with type := MR_ADDR_IPV4, netbits := 0, len := 4 }.setRaw
      (beBytes 4 addr.toNat)
  | .v6 addr => { mrouteAddrInit with type := MR_ADDR_IPV6, netbits := 0, len := 16 }.setRaw
      (beBytes 16 addr.toNat)

/-- `struct iroute` and `struct iroute_ipv6`, as the options make them. -/
structure Iroute where
  network : VirtualAddr
  netbits : Nat
  le : netbits ≤ network.width

/-! ## Instances -/

/-- What routes need of `struct multi_instance`. `freed` says that its memory was
released. -/
structure RouteInstance where
  halt : Bool
  refcount : Int
  routeCount : Int
  maxRoutesPerClient : Int
  didIroutes : Bool
  iroutes : List Iroute
  freed : Bool

/-- Follow a pointer to an instance. -/
def deref (objects : List RouteInstance) (id : Nat) : Option RouteInstance := do
  let mi ← objects[id]?
  if mi.freed then none else return mi

def multiInstanceIncRefcount (objects : List RouteInstance) (id : Nat) :
    Option (List RouteInstance) := do
  let mi ← deref objects id
  return objects.set id { mi with refcount := mi.refcount + 1 }

def multiInstanceDecRefcount (objects : List RouteInstance) (id : Nat) :
    Option (List RouteInstance) := do
  let mi ← deref objects id
  return objects.set id
    { mi with refcount := mi.refcount - 1, freed := decide (mi.refcount - 1 ≤ 0) }

def routeQuotaInc (objects : List RouteInstance) (id : Nat) : Option (List RouteInstance) := do
  let mi ← deref objects id
  return objects.set id { mi with routeCount := mi.routeCount + 1 }

def routeQuotaDec (objects : List RouteInstance) (id : Nat) : Option (List RouteInstance) := do
  let mi ← deref objects id
  return objects.set id { mi with routeCount := mi.routeCount - 1 }

def routeQuotaTest (mi : RouteInstance) : Bool := decide (mi.routeCount < mi.maxRoutesPerClient)

/-- `struct multi_route`; the flags are `MULTI_ROUTE_CACHE` and `MULTI_ROUTE_AGEABLE`. -/
structure MultiRoute where
  addr : MrouteAddr
  inst : Nat
  cache : Bool
  ageable : Bool
  cacheGeneration : BitVec 32
  lastReference : Nat

def multiRouteDel (objects : List RouteInstance) (route : MultiRoute) :
    Option (List RouteInstance) := do
  let objects ← routeQuotaDec objects route.inst
  multiInstanceDecRefcount objects route.inst

/-! ## The route helper -/

/-- `struct mroute_helper`; `netLen` has the first `n_net_len` elements. -/
structure MrouteHelper where
  cacheGeneration : BitVec 32
  ageableTtlSecs : Nat
  netLen : List Nat
  netLenRefcount : Nat → Int

def mrouteHelperInit (ageableTtlSecs : Nat) : MrouteHelper := ⟨0, ageableTtlSecs, [], fun _ => 0⟩

/-- `mroute_helper_regenerate`: the lengths in use, in descending order. -/
def mrouteHelperRegenerate (mh : MrouteHelper) : MrouteHelper :=
  { mh with netLen := (List.range MR_HELPER_NET_LEN).reverse.filter (0 < mh.netLenRefcount ·) }

def mrouteHelperAddIroute46 (mh : MrouteHelper) (netbits : Nat) : Option MrouteHelper :=
  if netbits < MR_HELPER_NET_LEN then
    let mh := { mh with
      cacheGeneration := mh.cacheGeneration + 1
      netLenRefcount := Function.update mh.netLenRefcount netbits (mh.netLenRefcount netbits + 1) }
    some (if mh.netLenRefcount netbits = 1 then mrouteHelperRegenerate mh else mh)
  else none

def mrouteHelperDelIroute46 (mh : MrouteHelper) (netbits : Nat) : Option MrouteHelper :=
  if netbits < MR_HELPER_NET_LEN then
    let mh := { mh with
      cacheGeneration := mh.cacheGeneration + 1
      netLenRefcount := Function.update mh.netLenRefcount netbits (mh.netLenRefcount netbits - 1) }
    if 0 ≤ mh.netLenRefcount netbits then
      some (if mh.netLenRefcount netbits = 0 then mrouteHelperRegenerate mh else mh)
    else none
  else none

/-! ## The table -/

/-- What is fixed while the server runs. -/
structure RouteConfig where
  hashFunc : Bytes → BitVec 32 → BitVec 32
  vhashIv : BitVec 32
  virtualHashSize : Nat
  /-- The address of the server in the tunnel. -/
  localIfconfig : BitVec 32
  staleRoutesAgeingTime : Nat

abbrev RouteConfig.vhashOps (cfg : RouteConfig) : HashOps MrouteAddr :=
  mrouteOps fun bs => cfg.hashFunc bs cfg.vhashIv

/-- `m->local`. -/
def RouteConfig.localAddr (cfg : RouteConfig) : MrouteAddr :=
  (VirtualAddr.v4 cfg.localIfconfig).mroute

structure MultiReap where
  bucketBase : Nat
  bucketsPerPass : Nat
  lastCall : Nat

/-- What routes need of `struct multi_context`. -/
structure RouteContext (cfg : RouteConfig) where
  vhash : Hash cfg.vhashOps MultiRoute
  routeHelper : MrouteHelper
  reaper : MultiReap
  objects : List RouteInstance
  now : Nat

variable {cfg : RouteConfig}

def MULTI_CACHE_ROUTE_TTL : Nat := 60

def reapBucketsPerPass (nBuckets : Nat) : Nat := (constrainInt (nBuckets / 256 : Nat) 16 1024).toNat

/-- The routing part of `multi_init`. -/
def routesInit (cfg : RouteConfig) (now : Nat) : Option (RouteContext cfg) := do
  let vhash ← hashInit cfg.vhashOps MultiRoute cfg.virtualHashSize
  return {
    vhash := vhash
    routeHelper := mrouteHelperInit MULTI_CACHE_ROUTE_TTL
    reaper := ⟨0, reapBucketsPerPass cfg.virtualHashSize, now⟩
    objects := []
    now := now }

/-- `multi_route_defined`, for a route to the instance `mi`. -/
def RouteContext.routeDefined (m : RouteContext cfg) (mi : RouteInstance) (r : MultiRoute) : Bool :=
  if mi.halt then false
  else if r.cache ∧ r.cacheGeneration ≠ m.routeHelper.cacheGeneration then false
  else if r.ageable ∧ r.lastReference + m.routeHelper.ageableTtlSecs < m.now then false
  else true

/-- The instance of a route, if the route is there and defined. -/
def RouteContext.routeOwner (m : RouteContext cfg) : Option MultiRoute → Option (Option Nat)
  | none => some none
  | some r => do
      let mi ← deref m.objects r.inst
      return if m.routeDefined mi r then some r.inst else none

def RouteContext.newRoute (m : RouteContext cfg) (id : Nat) (addr : MrouteAddr) (cached : Bool) :
    MultiRoute where
  addr := addr
  inst := id
  cache := cached
  ageable := cached
  cacheGeneration := if cached then m.routeHelper.cacheGeneration else 0
  lastReference := m.now

/-- `multi_learn_addr`. `cached` stands for the flags; `script` says how the script or
plugin for learned addresses ends. -/
def multiLearnAddr (m : RouteContext cfg) (id : Nat) (addr : MrouteAddr) (cached script : Bool) :
    Option (RouteContext cfg × Option Nat) := do
  let hv := cfg.vhashOps.hashFunction addr
  let i := m.vhash.index hv
  let found := hashLookupFast m.vhash i addr hv
  let m := { m with vhash := found.1 }
  let owner ← m.routeOwner (found.2.map HashElement.value)
  if owner ≠ some id ∧ mrouteLearnableAddress addr ∧ ¬ mrouteAddrEqual addr cfg.localAddr then
    let mi ← deref m.objects id
    if routeQuotaTest mi && script then
      let objects ← multiInstanceIncRefcount m.objects id
      let objects ← routeQuotaInc objects id
      let newroute := m.newRoute id addr cached
      match found.2 with
      | some he =>
        -- the old route is deleted, and the element gets the new one
        let objects ← multiRouteDel objects he.value
        return ({ m with
          objects := objects
          vhash := m.vhash.writeHead i { he with key := addr, value := newroute } }, some id)
      | none =>
        return ({ m with
          objects := objects
          vhash := hashAddFast m.vhash i addr hv newroute }, some id)
    else return (m, owner)
  else return (m, owner)

/-- The search for a route to the host itself; its last reference is noted. -/
def hostRoute (m : RouteContext cfg) (addr : MrouteAddr) :
    Option (RouteContext cfg × Option Nat) := do
  let hv := cfg.vhashOps.hashFunction addr
  let i := m.vhash.index hv
  let found := hashLookupFast m.vhash i addr hv
  let m := { m with vhash := found.1 }
  let owner ← m.routeOwner (found.2.map HashElement.value)
  match found.2, owner with
  | some he, some id =>
    let route := { he.value with lastReference := m.now }
    return ({ m with vhash := m.vhash.writeHead i { he with value := route } }, some id)
  | _, _ => return (m, none)

/-- The loop over the lengths of networks. The host gets a cached route to the instance
that is found. -/
def cidrRoute (m : RouteContext cfg) (addr : MrouteAddr) (script : Bool) :
    List Nat → Option (RouteContext cfg × Option Nat)
  | [] => some (m, none)
  | netbits :: rest => do
      let tryaddr ← mrouteAddrMaskHostBits
        { addr with type := addr.type ||| MR_WITH_NETBITS, netbits := ofNat netbits }
      let found := hashLookup m.vhash tryaddr
      let m := { m with vhash := found.1 }
      let owner ← m.routeOwner found.2
      match owner with
      | some id =>
        let (m, _) ← multiLearnAddr m id addr true script
        return (m, some id)
      | none => cidrRoute m addr script rest

/-- The assertion at the end of a lookup. -/
def notHalted (m : RouteContext cfg) (ret : Option Nat) : Option (RouteContext cfg × Option Nat) :=
  match ret with
  | none => some (m, none)
  | some id => do
      let mi ← deref m.objects id
      if mi.halt then none else return (m, some id)

def multiGetInstanceByVirtualAddr (m : RouteContext cfg) (addr : MrouteAddr)
    (cidrRouting script : Bool) : Option (RouteContext cfg × Option Nat) :=
  if mrouteAddrEqual addr cfg.localAddr then some (m, none)
  else do
    let (m, host) ← hostRoute m addr
    match host with
    | some id => notHalted m (some id)
    | none =>
      if cidrRouting then
        let (m, ret) ← cidrRoute m addr script m.routeHelper.netLen
        notHalted m ret
      else return (m, none)

/-! ## Reaping -/

/-- The routes of a bucket for which `dead` holds are deleted. -/
def reapBucket (dead : RouteInstance → MultiRoute → Bool) :
    List RouteInstance → List (HashElement MrouteAddr MultiRoute) →
      Option (List RouteInstance × List (HashElement MrouteAddr MultiRoute))
  | objects, [] => some (objects, [])
  | objects, he :: rest => do
      let mi ← deref objects he.value.inst
      if dead mi he.value then
        let objects ← multiRouteDel objects he.value
        reapBucket dead objects rest
      else
        let (objects, kept) ← reapBucket dead objects rest
        return (objects, he :: kept)

/-- The buckets from `start` on, `count` of them. -/
def reapBuckets (dead : RouteInstance → MultiRoute → Bool) :
    (count start : Nat) → RouteContext cfg → Option (RouteContext cfg)
  | 0, _, m => some m
  | count + 1, start, m => do
      let (objects, kept) ← reapBucket dead m.objects (m.vhash.bucket start)
      let removed := (m.vhash.bucket start).length - kept.length
      reapBuckets dead count (start + 1) { m with
        objects := objects
        vhash := (m.vhash.setBucket start kept).setCount (m.vhash.nElements - removed) }

/-- A pass of a hash iterator over a range of buckets. -/
def reapRange (dead : RouteInstance → MultiRoute → Bool) (m : RouteContext cfg)
    (startBucket endBucket : Nat) : Option (RouteContext cfg) :=
  let endBucket := min endBucket m.vhash.buckets.length
  if startBucket ≤ endBucket then reapBuckets dead (endBucket - startBucket) startBucket m else none

def multiReapRange (m : RouteContext cfg) (startBucket endBucket : Nat) :
    Option (RouteContext cfg) :=
  reapRange (fun mi r => !m.routeDefined mi r) m startBucket endBucket

def multiReapAll (m : RouteContext cfg) : Option (RouteContext cfg) :=
  multiReapRange m 0 m.vhash.buckets.length

def multiReapProcess (m : RouteContext cfg) : Option (RouteContext cfg) :=
  if m.reaper.lastCall ≠ m.now then do
    let base := if m.vhash.buckets.length ≤ m.reaper.bucketBase then 0 else m.reaper.bucketBase
    let m ← multiReapRange m base (base + m.reaper.bucketsPerPass)
    return { m with
      reaper := { m.reaper with
        bucketBase := base + m.reaper.bucketsPerPass
        lastCall := m.now } }
  else some m

def checkStaleRoutes (m : RouteContext cfg) : Option (RouteContext cfg) :=
  reapRange (fun mi r => m.routeDefined mi r &&
    decide (cfg.staleRoutesAgeingTime ≤ m.now - r.lastReference)) m 0 m.vhash.buckets.length

/-! ## Clients -/

/-- `multi_create_instance`. -/
def createRouteInstance (m : RouteContext cfg) (maxRoutesPerClient : Int) : RouteContext cfg :=
  { m with objects := m.objects ++ [⟨false, 1, 0, maxRoutesPerClient, false, [], false⟩] }

/-- The key of `multi_learn_in_addr_t` and `multi_learn_in6_addr`; no length means a host. -/
def learnKey (a : VirtualAddr) (netbits : Option Nat) : Option MrouteAddr :=
  match a, netbits with
  | a, none => some a.mroute
  | .v4 a, some n =>
    some { (VirtualAddr.v4 a).mroute with
      type := (VirtualAddr.v4 a).mroute.type ||| MR_WITH_NETBITS, netbits := ofNat n }
  | .v6 a, some n => mrouteAddrMaskHostBits { (VirtualAddr.v6 a).mroute with
      type := (VirtualAddr.v6 a).mroute.type ||| MR_WITH_NETBITS, netbits := ofNat n }

/-- `multi_learn_in_addr_t` and `multi_learn_in6_addr`. -/
def multiLearnInAddr (m : RouteContext cfg) (id : Nat) (a : VirtualAddr) (netbits : Option Nat)
    (script : Bool) : Option (RouteContext cfg) := do
  let addr ← learnKey a netbits
  let (m, _) ← multiLearnAddr m id addr false script
  return m

/-- The primary addresses; `k` numbers the calls of the script. -/
def learnPrimary (id : Nat) (script : Nat → Bool) :
    (k : Nat) → List VirtualAddr → RouteContext cfg → Option (RouteContext cfg)
  | _, [], m => some m
  | k, a :: rest, m => do
      let m ← multiLearnInAddr m id a none (script k)
      learnPrimary id script (k + 1) rest m

/-- The loops of `multi_add_iroutes`. -/
def addIroutes (id : Nat) (script : Nat → Bool) :
    (k : Nat) → List Iroute → RouteContext cfg → Option (RouteContext cfg)
  | _, [], m => some m
  | k, ir :: rest, m => do
      let mh ← mrouteHelperAddIroute46 m.routeHelper ir.netbits
      let m ← multiLearnInAddr { m with routeHelper := mh } id ir.network (some ir.netbits)
        (script k)
      addIroutes id script (k + 1) rest m

/-- The routes of `multi_client_connect_late_setup`, in a routed tunnel: the primary
addresses that are defined, then the iroutes. -/
def connectRoutes (m : RouteContext cfg) (id : Nat) (primary : List VirtualAddr)
    (iroutes : List Iroute) (script : Nat → Bool) : Option (RouteContext cfg) := do
  let m ← learnPrimary id script 0 primary m
  let mi ← deref m.objects id
  addIroutes id script primary.length iroutes
    { m with objects := m.objects.set id { mi with didIroutes := true, iroutes := iroutes } }

def multiDelIroutes : List Iroute → MrouteHelper → Option MrouteHelper
  | [], mh => some mh
  | ir :: rest, mh => do
      let mh ← mrouteHelperDelIroute46 mh ir.netbits
      multiDelIroutes rest mh

/-- What `multi_close_instance` does about routes. -/
def closeRouteInstance (m : RouteContext cfg) (id : Nat) (shutdown : Bool) :
    Option (RouteContext cfg) := do
  let mi ← deref m.objects id
  if mi.halt then none
  else
    let mh ← if !shutdown && mi.didIroutes then multiDelIroutes mi.iroutes m.routeHelper
      else some m.routeHelper
    let didIroutes := shutdown && mi.didIroutes
    let objects ← multiInstanceDecRefcount
      (m.objects.set id { mi with halt := true, didIroutes := didIroutes }) id
    return { m with routeHelper := mh, objects := objects }

/-! ## The server -/

inductive RouteEvent
  /-- An instance is created; if its setup fails, it is closed at once. -/
  | create (maxRoutesPerClient : Int) (fails : Bool)
  /-- The setup of a client's connection is completed. -/
  | connect (id : Nat) (primary : List VirtualAddr) (iroutes : List Iroute) (script : Nat → Bool)
  /-- The source address of a packet of the client is learned, in a bridged tunnel. -/
  | learn (id : Nat) (addr : MrouteAddr) (script : Bool)
  /-- An address of a packet is looked up, in a routed tunnel. -/
  | lookup (dest : VirtualAddr) (script : Bool)
  /-- An address of a packet is looked up, in a bridged tunnel. -/
  | lookupEther (dest : MrouteAddr)
  | tick (secs : Nat)
  | reap
  | reapAll
  | staleRoutes
  | close (id : Nat) (shutdown : Bool)

inductive RouteOutput
  | done
  | found (id : Option Nat)
  deriving DecidableEq

def RouteContext.isOpen (m : RouteContext cfg) (id : Nat) : Bool :=
  m.objects[id]?.any fun mi => !mi.halt

/-- The setup of the instance's connection has not been completed before. -/
def RouteContext.isNew (m : RouteContext cfg) (id : Nat) : Bool :=
  m.objects[id]?.any fun mi => !mi.halt && !mi.didIroutes

/-- A call that gives no answer. -/
def quietly (m : Option (RouteContext cfg)) : Option (RouteContext cfg × RouteOutput) :=
  m.map fun m => (m, .done)

/-- One event. Events of instances that are closed do not occur and are passed over. -/
def routeStep (m : RouteContext cfg) : RouteEvent → Option (RouteContext cfg × RouteOutput)
  | .create maxRoutes fails =>
    let m' := createRouteInstance m maxRoutes
    quietly (if fails then closeRouteInstance m' m.objects.length false else some m')
  | .connect id primary iroutes script =>
    quietly (if m.isNew id then connectRoutes m id primary iroutes script else some m)
  | .learn id addr script =>
    quietly (if m.isOpen id then (multiLearnAddr m id addr false script).map Prod.fst else some m)
  | .lookup dest script =>
    (multiGetInstanceByVirtualAddr m dest.mroute true script).map fun r => (r.1, .found r.2)
  | .lookupEther dest =>
    (multiGetInstanceByVirtualAddr m dest false true).map fun r => (r.1, .found r.2)
  | .tick secs => some ({ m with now := m.now + secs }, .done)
  | .reap => quietly (multiReapProcess m)
  | .reapAll => quietly (multiReapAll m)
  | .staleRoutes => quietly (checkStaleRoutes m)
  | .close id shutdown =>
    quietly (if m.isOpen id then closeRouteInstance m id shutdown else some m)

end OpenVpn
