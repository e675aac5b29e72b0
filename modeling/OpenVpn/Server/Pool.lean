import Mathlib.Data.List.Basic
import OpenVpn.Base.Bytes
import OpenVpn.Base.Run

/-!
# The address pool (`pool.c`)

A pool is an array of entries; a handle is an index into it and stands for a
range of IPv4 addresses (four of them, or one) and for one IPv6 address. An
entry remembers who had it last.

* `ifconfigPoolInit`, `ifconfigPoolFind`, `ifconfigPoolAcquire`,
  `ifconfigPoolRelease`, `ifconfigPoolSet` — the operations.
* `multiSelectVirtualAddr`, `poolStep` — the calls the server makes for the
  clients that connect, get a static address and leave.
* `ifconfigPoolFind_spec` — which entry a client gets.
* `add_in6_addr_mod_pow` — the sum of an IPv6 address and a 32-bit number.
* `pool_exclusive_and_sticky` — over every sequence of connects and closes.
-/

namespace OpenVpn

open Base List

inductive PoolType where
  | net30
  | indiv
  deriving DecidableEq

structure In6Addr where
  bytes : Bytes
  size : bytes.length = 16
  deriving DecidableEq

theorem In6Addr.size_zero : (replicate 16 (0 : UInt8)).length = 16 := rfl

/-- `struct ifconfig_pool_entry`. -/
structure PoolEntry where
  inUse : Bool
  commonName : Option Bytes
  lastRelease : Int
  fixed : Bool
  deriving DecidableEq

def PoolEntry.cleared : PoolEntry := ⟨false, none, 0, false⟩

/-- `struct ifconfig_pool`; an address family is there if it is enabled. The size
is the length of the list. -/
structure IfconfigPool where
  duplicateCn : Bool
  ipv4 : Option (PoolType × BitVec 32)
  ipv6 : Option In6Addr
  list : List PoolEntry
  deriving DecidableEq

def IFCONFIG_POOL_MAX : Nat := 65536

/-! ## Setting up -/

/-- The IPv4 base address and the number of handles. -/
def poolIpv4 (type : PoolType) (start stop : BitVec 32) : BitVec 32 × Int :=
  match type with
  | .net30 =>
    let base := start &&& ~~~3#32
    (base, ((((stop ||| 3#32) + 1#32) - base) >>> 2).toInt)
  | .indiv => (start, (stop - start + 1#32).toInt)

/-- The last four bytes of an address. -/
def In6Addr.low (a : In6Addr) : BitVec 32 := BitVec.ofNat 32 (beNat (a.bytes.drop 12))

/-- The IPv6 base address and the number of handles. The address with an all-zero
host part is not given out. -/
def poolIpv6 (ipv6Base : In6Addr) (netbits : Nat) : In6Addr × Int :=
  let host := ipv6Base.low
  let host := if 128 - netbits < 32 then host &&& ((1#32 <<< (128 - netbits)) - 1#32) else host
  let first := if host = 0#32 then
      ⟨ipv6Base.bytes.modify 15 (· + 1), by rw [length_modify]; exact ipv6Base.size⟩
    else ipv6Base
  let host := if host = 0#32 then 1#32 else host
  (first, if 112 ≤ netbits then ((1#32 <<< (128 - netbits)) - host).toInt else IFCONFIG_POOL_MAX)

/-- The number of handles; the smaller of the two pools limits it. -/
def poolSize (ipv4Pool ipv6Pool : Bool) (ipv4Size ipv6Size : Int) : Int :=
  let size := if ipv4Pool then ipv4Size else 0
  if ipv6Pool ∧ (size ≤ 0 ∨ ipv6Size < size) then ipv6Size else size

/-- `ifconfig_pool_init`; `none` is a failed assertion or a pool that is too
small. -/
def ifconfigPoolInit (ipv4Pool : Bool) (type : PoolType) (start stop : BitVec 32)
    (duplicateCn ipv6Pool : Bool) (ipv6Base : In6Addr) (netbits : Nat) : Option IfconfigPool :=
  if start ≤ stop ∧ (stop - start).toNat < IFCONFIG_POOL_MAX then
    let v4 := poolIpv4 type start stop
    let v6 := poolIpv6 ipv6Base netbits
    if (ipv4Pool = true ∧ v4.2 < 2) ∨ (ipv6Pool = true ∧ v6.2 < 2) then none
    else
      if 0 < poolSize ipv4Pool ipv6Pool v4.2 v6.2 then
        some {
          duplicateCn
          ipv4 := if ipv4Pool then some (type, v4.1) else none
          ipv6 := if ipv6Pool then some v6.1 else none
          list := replicate (poolSize ipv4Pool ipv6Pool v4.2 v6.2).toNat .cleared }
      else none
  else none

/-! ## Entries -/

/-- `ifconfig_pool_entry_free`. -/
def PoolEntry.free (e : PoolEntry) (hard : Bool) (now : Int) : PoolEntry :=
  { e with
    inUse := false
    commonName := if hard then none else e.commonName
    lastRelease := if hard then 0 else now }

def ifconfigPoolSet (pool : IfconfigPool) (cn : Bytes) (h : Nat) (fixed : Bool) (now : Int) :
    IfconfigPool :=
  { pool with list := pool.list.set h ⟨false, some cn, now, fixed⟩ }

/-- `common_name && ipe->common_name && !strcmp(common_name, ipe->common_name)`. -/
def PoolEntry.labelled (cn : Option Bytes) (e : PoolEntry) : Bool :=
  cn.isSome && decide (e.commonName = cn)

/-- The loop of `ifconfig_pool_find` at index `i`: the first entry with the
client's name, the entry released earliest, and when that was. -/
def poolFindLoop (duplicateCn : Bool) (cn : Option Bytes) :
    List PoolEntry → (i : Nat) → (earliestRelease : Int) → (previousUsage newUsage : Option Nat) →
      Option Nat × Option Nat
  | [], _, _, previousUsage, newUsage => (previousUsage, newUsage)
  | ipe :: rest, i, earliestRelease, previousUsage, newUsage =>
    if ipe.inUse then
      poolFindLoop duplicateCn cn rest (i + 1) earliestRelease previousUsage newUsage
    else if duplicateCn then (previousUsage, some i)
    else
      let earlier := (newUsage.isNone || decide (ipe.lastRelease < earliestRelease)) && !ipe.fixed
      poolFindLoop duplicateCn cn rest (i + 1)
        (if earlier then ipe.lastRelease else earliestRelease)
        (if previousUsage.isNone && ipe.labelled cn then some i else previousUsage)
        (if earlier then some i else newUsage)

/-- `ifconfig_pool_find`; `none` is -1. -/
def ifconfigPoolFind (pool : IfconfigPool) (cn : Option Bytes) : Option Nat :=
  match poolFindLoop pool.duplicateCn cn pool.list 0 0 none none with
  | (some previousUsage, _) => some previousUsage
  | (none, newUsage) => newUsage

/-- The addresses of a client. -/
structure PoolAddrs where
  local4 : BitVec 32
  remote4 : BitVec 32
  remote6 : Option In6Addr
  deriving DecidableEq

/-- The loop of `add_in6_addr`, over the bytes from the last one to the first. -/
def addIn6Loop : Bytes → (add : Nat) → Bytes
  | [], _ => []
  | h :: rest, add =>
    if add = 0 then h :: rest
    else
      let carry := (h.toNat + add % 256) / 256
      UInt8.ofNat (h.toNat + add) :: addIn6Loop rest (add / 256 + carry)

theorem addIn6Loop_length (bytes : Bytes) (add : Nat) :
    (addIn6Loop bytes add).length = bytes.length := by
  induction bytes generalizing add with
  | nil => rfl
  | cons h rest ih =>
    unfold addIn6Loop
    split
    · rfl
    · rw [length_cons, ih, length_cons]

def addIn6Addr (base : In6Addr) (add : Nat) : In6Addr :=
  ⟨(addIn6Loop base.bytes.reverse add).reverse, by
    rw [length_reverse, addIn6Loop_length, length_reverse]
    exact base.size⟩

theorem addIn6Loop_value (bytes : Bytes) (add : Nat) :
    beNat (addIn6Loop bytes add).reverse = (beNat bytes.reverse + add) % 256 ^ bytes.length := by
  induction bytes generalizing add with
  | nil => simp [addIn6Loop, beNat, Nat.mod_one]
  | cons h rest ih =>
    unfold addIn6Loop
    split
    case isTrue hadd =>
      have hlt := beNat_lt (h :: rest).reverse
      rw [length_reverse] at hlt
      rw [hadd, Nat.add_zero, Nat.mod_eq_of_lt hlt]
    case isFalse hadd =>
      -- the carry of the last byte goes into the others
      rw [reverse_cons, reverse_cons, beNat_concat, beNat_concat, ih,
        length_cons, Nat.pow_succ', Nat.mod_mul, UInt8.toNat_ofNat']
      have hcarry : (beNat rest.reverse * 256 + h.toNat + add) / 256 =
          beNat rest.reverse + (add / 256 + (h.toNat + add % 256) / 256) := by omega
      rw [hcarry]
      omega

/-- An address is what its bytes stand for. -/
def In6Addr.value (a : In6Addr) : Nat := beNat a.bytes

theorem addIn6Addr_value (base : In6Addr) (add : Nat) :
    (addIn6Addr base add).value = (base.value + add) % 256 ^ 16 := by
  have h := addIn6Loop_value base.bytes.reverse add
  rwa [reverse_reverse, length_reverse, base.size] at h

/-- The same loop on machine words: `add` and `h` are `uint32_t`. -/
def addIn6LoopU32 : Bytes → (add : BitVec 32) → Bytes
  | [], _ => []
  | b :: rest, add =>
    if add = 0 then b :: rest
    else
      let h := BitVec.ofNat 32 b.toNat
      let carry := ((h &&& 0xff) + (add &&& 0xff)) >>> 8
      UInt8.ofNat ((h + add) &&& 0xff).toNat :: addIn6LoopU32 rest ((add >>> 8) + carry)

theorem and_ff_toNat (x : BitVec 32) : (x &&& 0xff).toNat = x.toNat % 256 := by
  rw [BitVec.toNat_and]
  exact Nat.and_two_pow_sub_one_eq_mod x.toNat 8

/-- The sum with a byte may wrap, but the byte that is kept does not see it, and the increment
that is left is at most `2 ^ 24`. -/
theorem addIn6LoopU32_eq (bytes : Bytes) (add : BitVec 32) :
    addIn6LoopU32 bytes add = addIn6Loop bytes add.toNat := by
  induction bytes generalizing add with
  | nil => rfl
  | cons b rest ih =>
    have hb := b.toNat_lt
    have hadd := add.isLt
    have hzero : add = 0 ↔ add.toNat = 0 := by rw [← BitVec.toNat_inj]; rfl
    unfold addIn6LoopU32 addIn6Loop
    by_cases h : add = 0
    · rw [if_pos h, if_pos (hzero.mp h)]
    · rw [if_neg h, if_neg (mt hzero.mpr h)]
      simp only [ih, and_ff_toNat, BitVec.toNat_add, BitVec.toNat_ushiftRight, BitVec.toNat_ofNat,
        Nat.shiftRight_eq_div_pow]
      congr 1
      · rw [← UInt8.toNat_inj, UInt8.toNat_ofNat', UInt8.toNat_ofNat']
        omega
      · congr 1
        omega

def addIn6AddrU32 (base : In6Addr) (add : BitVec 32) : In6Addr :=
  ⟨(addIn6LoopU32 base.bytes.reverse add).reverse, by
    rw [length_reverse, addIn6LoopU32_eq, addIn6Loop_length, length_reverse]
    exact base.size⟩

/-- **IPv6 address addition** is addition modulo `2 ^ 128`. -/
theorem add_in6_addr_mod_pow (base : In6Addr) (add : BitVec 32) :
    (addIn6AddrU32 base add).value = (base.value + add.toNat) % 2 ^ 128 := by
  have heq : addIn6AddrU32 base add = addIn6Addr base add.toNat := by
    rw [addIn6AddrU32, addIn6Addr, In6Addr.mk.injEq, addIn6LoopU32_eq]
  rw [heq]
  exact addIn6Addr_value base add.toNat

def poolBase (type : PoolType) (base : BitVec 32) (h : Nat) : BitVec 32 :=
  match type with
  | .net30 => base + BitVec.ofNat 32 (4 * h)
  | .indiv => base + BitVec.ofNat 32 h

/-- The addresses `ifconfig_pool_acquire` gives for a handle; what a disabled
family leaves alone is zero in the caller. -/
def poolAddrs (pool : IfconfigPool) (h : Nat) : PoolAddrs where
  local4 := match pool.ipv4 with
    | some (.net30, base) => poolBase .net30 base h + 1#32
    | _ => 0#32
  remote4 := match pool.ipv4 with
    | some (.net30, base) => poolBase .net30 base h + 2#32
    | some (.indiv, base) => poolBase .indiv base h
    | none => 0#32
  remote6 := pool.ipv6.map (addIn6Addr · h)

/-- `ifconfig_pool_acquire`; the outer `none` is the failed assertion that the
entry found is free. -/
def ifconfigPoolAcquire (pool : IfconfigPool) (cn : Option Bytes) :
    Option (IfconfigPool × Option (Nat × PoolAddrs)) :=
  match ifconfigPoolFind pool cn with
  | none => some (pool, none)
  | some i =>
    match pool.list[i]? with
    | none => none
    | some ipe =>
      if ipe.inUse then none
      else
        let ipe := { ipe.free true 0 with inUse := true, commonName := cn }
        let pool := { pool with list := pool.list.set i ipe }
        some (pool, some (i, poolAddrs pool i))

/-- `ifconfig_pool_release`; a handle of -1 is `none`. -/
def ifconfigPoolRelease (pool : IfconfigPool) (hand : Option Nat) (hard : Bool) (now : Int) :
    IfconfigPool :=
  match hand with
  | none => pool
  | some h => { pool with list := pool.list.modify h (·.free hard now) }

/-! ## The server -/

/-- What the server keeps of a client: its handle, and whether its connection was
established. -/
structure PoolClient where
  vaddrHandle : Option Nat
  established : Bool
  deriving DecidableEq

/-- `multi_select_virtual_addr` for a client with or without a static address. The
client's name is not used with `--duplicate-cn`. -/
def multiSelectVirtualAddr (pool : IfconfigPool) (mi : PoolClient) (pushIfconfigDefined : Bool)
    (commonName : Option Bytes) (now : Int) :
    Option (IfconfigPool × PoolClient × Option PoolAddrs) :=
  if pushIfconfigDefined then
    some (ifconfigPoolRelease pool mi.vaddrHandle true now, { mi with vaddrHandle := none }, none)
  else if mi.vaddrHandle.isNone then
    let cn := if pool.duplicateCn then none else commonName
    match ifconfigPoolAcquire pool cn with
    | none => none
    | some (pool, found) =>
      some (pool, { mi with vaddrHandle := found.map Prod.fst }, found.map Prod.snd)
  else some (pool, mi, none)

/-- The pool and the clients; a client that was closed is `none`. -/
structure PoolServer where
  pool : IfconfigPool
  clients : List (Option PoolClient)

inductive PoolEvent where
  /-- `multi_create_instance` -/
  | create
  /-- `multi_client_connect_early_setup`, once in the life of a client -/
  | connect (id : Nat) (commonName : Option Bytes) (pushIfconfigDefined : Bool) (now : Int)
  /-- a connect handler has changed the client's options -/
  | reselect (id : Nat) (commonName : Option Bytes) (pushIfconfigDefined : Bool) (now : Int)
  /-- `multi_close_instance` -/
  | close (id : Nat) (now : Int)

/-- Select an address for client `id`. -/
def PoolServer.select (w : PoolServer) (id : Nat) (mi : PoolClient) (commonName : Option Bytes)
    (pushIfconfigDefined : Bool) (now : Int) : Option (PoolServer × Option PoolAddrs) :=
  (multiSelectVirtualAddr w.pool mi pushIfconfigDefined commonName now).map fun r =>
    (⟨r.1, w.clients.set id (some r.2.1)⟩, r.2.2)

/-- One event; a client that is given addresses of the pool puts them out. -/
def poolStep (w : PoolServer) : PoolEvent → Option (PoolServer × Option PoolAddrs)
  | .create => some ({ w with clients := w.clients ++ [some ⟨none, false⟩] }, none)
  | .connect id commonName push now =>
    match w.clients[id]? with
    | some (some mi) =>
      if mi.established then some (w, none)
      else w.select id ⟨none, true⟩ commonName push now
    | _ => some (w, none)
  | .reselect id commonName push now =>
    match w.clients[id]? with
    | some (some mi) =>
      if mi.established then w.select id mi commonName push now else some (w, none)
    | _ => some (w, none)
  | .close id now =>
    match w.clients[id]? with
    | some (some mi) =>
      some (⟨ifconfigPoolRelease w.pool mi.vaddrHandle false now, w.clients.set id none⟩, none)
    | _ => some (w, none)

/-! ## Which entry a client gets -/

/-- The entry may be given to the client: it is free, and not reserved for another
one. -/
def PoolEntry.Eligible (duplicateCn : Bool) (cn : Option Bytes) (e : PoolEntry) : Prop :=
  e.inUse = false ∧ (duplicateCn = true ∨ e.fixed = false ∨ e.labelled cn = true)

/-- What the loop has found among the entries `seen` when no two clients share a
name. -/
structure Scanned (cn : Option Bytes) (seen : List PoolEntry) (earliest : Int)
    (previous new : Option Nat) : Prop where
  previous_some : ∀ i, previous = some i →
    ∃ e, seen[i]? = some e ∧ e.inUse = false ∧ e.labelled cn = true
  previous_none : previous = none → ∀ e ∈ seen, e.inUse = false → e.labelled cn = false
  new_some : ∀ i, new = some i →
    ∃ e, seen[i]? = some e ∧ e.inUse = false ∧ e.fixed = false ∧ e.lastRelease = earliest
  new_none : new = none → ∀ e ∈ seen, e.inUse = false → e.fixed = true
  new_earliest : new.isSome = true →
    ∀ e ∈ seen, e.inUse = false → e.fixed = false → earliest ≤ e.lastRelease

theorem Scanned.start (cn : Option Bytes) : Scanned cn [] 0 none none := by
  constructor <;> simp

variable {cn : Option Bytes} {e : PoolEntry}

theorem Scanned.skip {seen : List PoolEntry} {earliest : Int} {previous new : Option Nat}
    (hs : Scanned cn seen earliest previous new) (he : e.inUse = true) :
    Scanned cn (seen ++ [e]) earliest previous new := by
  obtain ⟨h1, h2, h3, h4, h5⟩ := hs
  constructor <;> grind

theorem Scanned.next {seen : List PoolEntry} {earliest : Int} {previous new : Option Nat}
    (hs : Scanned cn seen earliest previous new) (he : e.inUse = false) :
    let earlier := (new.isNone || decide (e.lastRelease < earliest)) && !e.fixed
    Scanned cn (seen ++ [e]) (if earlier then e.lastRelease else earliest)
      (if previous.isNone && e.labelled cn then some seen.length else previous)
      (if earlier then some seen.length else new) := by
  obtain ⟨h1, h2, h3, h4, h5⟩ := hs
  constructor
  case new_earliest =>
    cases new <;> cases hfix : e.fixed <;> grind
  all_goals grind

theorem poolFindLoop_scanned {rest : List PoolEntry} :
    ∀ {seen : List PoolEntry} {earliest : Int} {previous new : Option Nat},
      Scanned cn seen earliest previous new →
      ∃ earliest', Scanned cn (seen ++ rest) earliest'
        (poolFindLoop false cn rest seen.length earliest previous new).1
        (poolFindLoop false cn rest seen.length earliest previous new).2 := by
  induction rest with
  | nil =>
    intro seen earliest previous new hs
    exact ⟨earliest, by simpa [poolFindLoop] using hs⟩
  | cons e rest ih =>
    intro seen earliest previous new hs
    by_cases he : e.inUse = true
    · have hnext := ih (hs.skip he)
      simpa [poolFindLoop, he] using hnext
    · have hnext := ih (hs.next (by simpa using he))
      simpa [poolFindLoop, he] using hnext

theorem poolFindLoop_duplicate (cn : Option Bytes) (rest : List PoolEntry) (i : Nat)
    (earliest : Int) :
    poolFindLoop true cn rest i earliest none none =
      (none, (rest.findIdx? (!·.inUse)).map (· + i)) := by
  induction rest generalizing i with
  | nil => rfl
  | cons e rest ih =>
    cases he : e.inUse with
    | false => simp [poolFindLoop, findIdx?_cons, he]
    | true =>
      simp [poolFindLoop, findIdx?_cons, he, ih, Nat.add_comm, Nat.add_left_comm, Function.comp_def]

/-- The entry `ifconfig_pool_find` chooses. -/
structure Chosen (pool : IfconfigPool) (cn : Option Bytes) (e : PoolEntry) : Prop where
  eligible : e.Eligible pool.duplicateCn cn
  previous : pool.duplicateCn = false →
    (∃ e' ∈ pool.list, e'.inUse = false ∧ e'.labelled cn = true) → e.labelled cn = true
  earliest : pool.duplicateCn = false →
    (∀ e' ∈ pool.list, e'.inUse = false → e'.labelled cn = false) →
    e.fixed = false ∧
      ∀ e' ∈ pool.list, e'.inUse = false → e'.fixed = false → e.lastRelease ≤ e'.lastRelease

/-- **What `ifconfig_pool_find` returns.** It fails only if no entry may be given to
the client. -/
theorem ifconfigPoolFind_spec {pool : IfconfigPool} :
    (∀ i, ifconfigPoolFind pool cn = some i → ∃ e, pool.list[i]? = some e ∧ Chosen pool cn e) ∧
      (ifconfigPoolFind pool cn = none → ∀ e ∈ pool.list, ¬e.Eligible pool.duplicateCn cn) := by
  cases hdup : pool.duplicateCn with
  | true =>
    have hfind : ifconfigPoolFind pool cn = pool.list.findIdx? (!·.inUse) := by
      simp [ifconfigPoolFind, hdup, poolFindLoop_duplicate]
    rw [hfind]
    constructor
    · intro i hi
      obtain ⟨hlt, hfree, -⟩ := findIdx?_eq_some_iff_getElem.mp hi
      have hfree : pool.list[i].inUse = false := by simpa using hfree
      exact ⟨pool.list[i], getElem?_eq_getElem hlt, ⟨hfree, .inl hdup⟩,
        by simp [hdup], by simp [hdup]⟩
    · intro hnone e he helig
      have hused := findIdx?_eq_none_iff.mp hnone e he
      simp [helig.1] at hused
  | false =>
    obtain ⟨earliest, hs⟩ := poolFindLoop_scanned (Scanned.start cn)
    simp only [nil_append, length_nil] at hs
    simp only [ifconfigPoolFind, hdup]
    generalize poolFindLoop false cn pool.list 0 0 none none = found at hs
    obtain ⟨previous, new⟩ := found
    cases previous with
    | some j =>
      refine ⟨fun i hi => ?_, by simp⟩
      obtain rfl : j = i := by simpa using hi
      obtain ⟨e, hget, hfree, hlab⟩ := hs.previous_some j rfl
      refine ⟨e, hget, ⟨hfree, .inr (.inr hlab)⟩, fun _ _ => hlab, fun _ hno => ?_⟩
      simp [hno e (mem_of_getElem? hget) hfree] at hlab
    | none =>
      have hno := hs.previous_none rfl
      refine ⟨fun i hi => ?_, fun hnone e he helig => ?_⟩
      · obtain ⟨e, hget, hfree, hfix, hrel⟩ := hs.new_some i hi
        refine ⟨e, hget, ⟨hfree, .inr (.inl hfix)⟩, fun _ hex => ?_, fun _ _ => ⟨hfix, ?_⟩⟩
        · obtain ⟨e', he', hfree', hlab⟩ := hex
          simp [hno e' he' hfree'] at hlab
        · rw [hrel]
          exact hs.new_earliest (by rw [show new = some i from hi]; rfl)
      · have hfix := hs.new_none hnone e he helig.1
        have hlab := hno e he helig.1
        obtain ⟨-, h | h | h⟩ := helig
        · simp at h
        · simp [hfix] at h
        · simp [hlab] at h

/-- The entry that `ifconfig_pool_acquire` leaves. -/
def PoolEntry.taken (e : PoolEntry) (cn : Option Bytes) : PoolEntry :=
  { e.free true 0 with inUse := true, commonName := cn }

/-- **What `ifconfig_pool_acquire` does.** It never aborts. -/
theorem ifconfigPoolAcquire_spec {pool : IfconfigPool} :
    (ifconfigPoolAcquire pool cn = some (pool, none) ∧
      ∀ e ∈ pool.list, ¬e.Eligible pool.duplicateCn cn) ∨
    ∃ h e, pool.list[h]? = some e ∧ Chosen pool cn e ∧
      ifconfigPoolAcquire pool cn =
        some ({ pool with list := pool.list.set h (e.taken cn) }, some (h, poolAddrs pool h)) := by
  obtain ⟨hsome, hnone⟩ := ifconfigPoolFind_spec
  cases hfind : ifconfigPoolFind pool cn with
  | none => exact .inl ⟨by simp [ifconfigPoolAcquire, hfind], hnone hfind⟩
  | some h =>
    obtain ⟨e, hget, hch⟩ := hsome h hfind
    refine .inr ⟨h, e, hget, hch, ?_⟩
    simp [ifconfigPoolAcquire, hfind, hget, hch.eligible.1, PoolEntry.taken, poolAddrs]

/-! ## Handles -/

/-- The entry of the handle is marked as used. -/
def IfconfigPool.InUse (pool : IfconfigPool) (h : Nat) : Prop :=
  ∃ e, pool.list[h]? = some e ∧ e.inUse = true

/-- The handle of client `id`, if the client is there and has one. -/
def PoolServer.handle (w : PoolServer) (id : Nat) : Option Nat :=
  w.clients[id]?.join.bind (·.vaddrHandle)

variable {pool : IfconfigPool} {h : Nat}

theorem IfconfigPool.inUse_taken (hget : pool.list[h]? = some e) (cn : Option Bytes) (k : Nat) :
    IfconfigPool.InUse { pool with list := pool.list.set h (e.taken cn) } k ↔
      k = h ∨ pool.InUse k := by
  have hlt := (List.getElem?_eq_some_iff.mp hget).1
  by_cases hk : k = h
  · subst hk
    simp [IfconfigPool.InUse, getElem?_set_self hlt, PoolEntry.taken]
  · simp [IfconfigPool.InUse, getElem?_set_ne (Ne.symm hk), hk]

theorem IfconfigPool.inUse_release (pool : IfconfigPool) (hand : Option Nat) (hard : Bool)
    (now : Int) (k : Nat) :
    (ifconfigPoolRelease pool hand hard now).InUse k ↔ pool.InUse k ∧ hand ≠ some k := by
  cases hand with
  | none => simp [ifconfigPoolRelease]
  | some h =>
    by_cases hk : h = k
    · subst hk
      simp [ifconfigPoolRelease, IfconfigPool.InUse, PoolEntry.free]
    · simp [ifconfigPoolRelease, IfconfigPool.InUse, hk]

variable {w : PoolServer} {id : Nat}

theorem PoolServer.handle_set (hid : id < w.clients.length) (pool : IfconfigPool)
    (c : Option PoolClient) :
    PoolServer.handle ⟨pool, w.clients.set id c⟩ =
      Function.update w.handle id (c.bind (·.vaddrHandle)) := by
  funext j
  by_cases hj : j = id
  · subst hj
    simp [PoolServer.handle, getElem?_set_self hid]
  · simp [PoolServer.handle, getElem?_set_ne (Ne.symm hj), hj]

theorem PoolServer.handle_append (w : PoolServer) :
    PoolServer.handle { w with clients := w.clients ++ [some ⟨none, false⟩] } = w.handle := by
  funext j
  simp only [PoolServer.handle]
  rcases Nat.lt_trichotomy j w.clients.length with hlt | rfl | hgt
  · rw [getElem?_append_left hlt]
  · simp
  · rw [getElem?_eq_none (by simp; omega), getElem?_eq_none hgt.le]

/-! ## Runs -/

/-- What stays the same of a pool. -/
structure SamePool (pool pool' : IfconfigPool) : Prop where
  duplicateCn : pool'.duplicateCn = pool.duplicateCn
  ipv4 : pool'.ipv4 = pool.ipv4
  ipv6 : pool'.ipv6 = pool.ipv6
  size : pool'.list.length = pool.list.length

theorem SamePool.refl (pool : IfconfigPool) : SamePool pool pool := ⟨rfl, rfl, rfl, rfl⟩

theorem SamePool.trans {p p' p'' : IfconfigPool} (h : SamePool p p') (h' : SamePool p' p'') :
    SamePool p p'' :=
  ⟨h'.1.trans h.1, h'.2.trans h.2, h'.3.trans h.3, h'.4.trans h.4⟩

theorem samePool_release (pool : IfconfigPool) (hand : Option Nat) (hard : Bool) (now : Int) :
    SamePool pool (ifconfigPoolRelease pool hand hard now) := by
  cases hand <;> exact ⟨rfl, rfl, rfl, by simp [ifconfigPoolRelease]⟩

/-- **The invariant of the server.** The entries in use are those that a client
holds, one client each; a client that is not connected yet holds none. -/
structure PoolOk (pool₀ : IfconfigPool) (w : PoolServer) : Prop where
  same : SamePool pool₀ w.pool
  leased : Leased w.pool.InUse w.handle
  fresh : ∀ (id : Nat) (mi : PoolClient), w.clients[id]? = some (some mi) →
    mi.established = false → mi.vaddrHandle = none

variable {pool₀ : IfconfigPool}

theorem PoolOk.set (hok : PoolOk pool₀ w) (hid : id < w.clients.length) {pool' : IfconfigPool}
    {c : Option PoolClient} (hsame : SamePool w.pool pool')
    (hleased : Leased pool'.InUse (Function.update w.handle id (c.bind (·.vaddrHandle))))
    (hfr : ∀ mi, c = some mi → mi.established = true) :
    PoolOk pool₀ ⟨pool', w.clients.set id c⟩ where
  same := hok.same.trans hsame
  leased := by rwa [PoolServer.handle_set hid]
  fresh j mi hget hest := by
    by_cases hj : id = j
    · subst hj
      rw [getElem?_set_self hid] at hget
      simp [hfr mi (Option.some.inj hget)] at hest
    · rw [getElem?_set_ne hj] at hget
      exact hok.fresh j mi hget hest

theorem PoolOk.release (hok : PoolOk pool₀ w) {hand : Option Nat} (hhand : w.handle id = hand)
    (hard : Bool) (now : Int) :
    Leased (ifconfigPoolRelease w.pool hand hard now).InUse
      (Function.update w.handle id none) := by
  refine (hok.leased.drop id).congr (fun k => ?_) (fun _ => rfl)
  rw [IfconfigPool.inUse_release, hhand]

/-- A selection keeps handles and entries together. -/
theorem PoolOk.select (hok : PoolOk pool₀ w) (hid : id < w.clients.length) {mi : PoolClient}
    (hest : mi.established = true) (hmi : w.handle id = mi.vaddrHandle) (cn : Option Bytes)
    (push : Bool) (now : Int) :
    ∃ w' o, w.select id mi cn push now = some (w', o) ∧ PoolOk pool₀ w' := by
  obtain ⟨hand, established⟩ := mi
  obtain rfl : established = true := hest
  simp only [PoolServer.select, multiSelectVirtualAddr]
  have hkeep : Leased w.pool.InUse (Function.update w.handle id hand) := by
    rw [← show w.handle id = hand from hmi, Function.update_eq_self]
    exact hok.leased
  cases push with
  | true =>
    refine ⟨_, _, rfl, hok.set hid (samePool_release ..) (hok.release hmi true now) ?_⟩
    rintro _ ⟨⟩
    rfl
  | false =>
    cases hand with
    | some h => exact ⟨_, _, rfl, hok.set hid (.refl _) hkeep (by rintro _ ⟨⟩; rfl)⟩
    | none =>
      simp only [Bool.false_eq_true, if_false, Option.isNone_none, if_true]
      generalize (if w.pool.duplicateCn = true then none else cn) = name
      obtain ⟨hacq, -⟩ | ⟨h, e, hget, hch, hacq⟩ := ifconfigPoolAcquire_spec
      · rw [hacq]
        exact ⟨_, _, rfl, hok.set hid (.refl _) hkeep (by rintro _ ⟨⟩; rfl)⟩
      · rw [hacq]
        refine ⟨_, _, rfl, hok.set hid ⟨rfl, rfl, rfl, by simp⟩ ?_ (by rintro _ ⟨⟩; rfl)⟩
        have hfree : ¬w.pool.InUse h := by
          rintro ⟨e', hget', hused⟩
          rw [hget] at hget'
          cases hget'
          simp [hch.eligible.1] at hused
        exact (hok.leased.take hfree hmi).congr (IfconfigPool.inUse_taken hget name)
          (fun _ => rfl)

/-- At this event the server selects an address for client `id`: at its setup, or again after
a connect handler. -/
inductive Selects (w : PoolServer) (id : Nat) (commonName : Option Bytes) (push : Bool) :
    PoolEvent → Prop
  | setup {mi : PoolClient} {now : Int} : w.clients[id]? = some (some mi) →
      mi.established = false → Selects w id commonName push (.connect id commonName push now)
  | again {mi : PoolClient} {now : Int} : w.clients[id]? = some (some mi) →
      mi.established = true → Selects w id commonName push (.reselect id commonName push now)

theorem Selects.select {commonName : Option Bytes} {push : Bool} {event : PoolEvent}
    (hok : PoolOk pool₀ w) (h : Selects w id commonName push event) :
    ∃ now, poolStep w event = w.select id ⟨w.handle id, true⟩ commonName push now ∧
      id < w.clients.length := by
  cases h with
  | @setup mi now hget hest =>
    refine ⟨now, ?_, (List.getElem?_eq_some_iff.mp hget).1⟩
    simp [poolStep, PoolServer.handle, hget, hest, hok.fresh id mi hget hest]
  | @again mi now hget hest =>
    refine ⟨now, ?_, (List.getElem?_eq_some_iff.mp hget).1⟩
    obtain ⟨hand, established⟩ := mi
    obtain rfl : established = true := hest
    simp [poolStep, PoolServer.handle, hget]

/-- A client asks for an address under the name `cn`. It gets the addresses of the entry that
is chosen, which is then its own, in use and labelled; or there is no entry for it, and
nothing changes. -/
def Served (w : PoolServer) (id : Nat) (cn : Option Bytes) (w' : PoolServer) :
    Option PoolAddrs → Prop
  | none => w'.pool = w.pool ∧ w'.handle = w.handle ∧
      ∀ e ∈ w.pool.list, ¬e.Eligible w.pool.duplicateCn cn
  | some addrs => ∃ h e, w.pool.list[h]? = some e ∧ Chosen w.pool cn e ∧
      addrs = poolAddrs w.pool h ∧ w'.handle = Function.update w.handle id (some h) ∧
      w'.pool = { w.pool with list := w.pool.list.set h ⟨true, cn, 0, e.fixed⟩ }

/-- **A client without an address** is served. -/
theorem Selects.served (hok : PoolOk pool₀ w) {commonName : Option Bytes} {event : PoolEvent}
    (h : Selects w id commonName false event) (hnone : w.handle id = none) :
    ∃ w' out, poolStep w event = some (w', out) ∧
      Served w id (if w.pool.duplicateCn then none else commonName) w' out := by
  obtain ⟨now, hstep, hid⟩ := h.select hok
  rw [hstep, hnone]
  simp only [PoolServer.select, multiSelectVirtualAddr, Bool.false_eq_true, if_false,
    Option.isNone_none, if_true]
  generalize (if w.pool.duplicateCn = true then none else commonName) = cn
  obtain ⟨hacq, hno⟩ | ⟨h, e, hget, hch, hacq⟩ := ifconfigPoolAcquire_spec
  · rw [hacq]
    refine ⟨_, _, rfl, rfl, ?_, hno⟩
    rw [PoolServer.handle_set hid]
    exact (congrArg (Function.update w.handle id) hnone.symm).trans (Function.update_eq_self ..)
  · rw [hacq]
    exact ⟨_, _, rfl, h, e, hget, hch, rfl, PoolServer.handle_set hid .., rfl⟩

/-- **A client with a static address** gives back the one it had. -/
theorem Selects.static (hok : PoolOk pool₀ w) {commonName : Option Bytes} {event : PoolEvent}
    (h : Selects w id commonName true event) :
    ∃ w' now, poolStep w event = some (w', none) ∧ w'.handle = Function.update w.handle id none ∧
      w'.pool = ifconfigPoolRelease w.pool (w.handle id) true now := by
  obtain ⟨now, hstep, hid⟩ := h.select hok
  rw [hstep]
  exact ⟨_, now, rfl, PoolServer.handle_set hid .., rfl⟩

/-- **One event.** It never aborts and keeps the invariant. -/
theorem poolStep_ok {e : PoolEvent} (hok : PoolOk pool₀ w) :
    ∃ w' o, poolStep w e = some (w', o) ∧ PoolOk pool₀ w' := by
  -- an event for a client that is not there does nothing
  have hlive : ∀ {id mi}, w.clients[id]? = some (some mi) →
      id < w.clients.length ∧ w.handle id = mi.vaddrHandle := by
    intro id mi hget
    exact ⟨(List.getElem?_eq_some_iff.mp hget).1, by simp [PoolServer.handle, hget]⟩
  cases e with
  | create =>
    refine ⟨_, _, rfl, hok.same, ?_, ?_⟩
    · rw [PoolServer.handle_append]
      exact hok.leased
    · intro id mi hget hest
      rcases Nat.lt_or_ge id w.clients.length with hlt | hge
      · rw [getElem?_append_left hlt] at hget
        exact hok.fresh id mi hget hest
      · rw [getElem?_append_right hge] at hget
        simp only [getElem?_singleton] at hget
        split at hget
        · cases hget
          rfl
        · cases hget
  | connect id cn push now =>
    simp only [poolStep]
    split
    case h_1 mi hget =>
      obtain ⟨hid, hhnd⟩ := hlive hget
      cases hest : mi.established with
      | true => exact ⟨w, none, rfl, hok⟩
      | false =>
        rw [hok.fresh id mi hget hest] at hhnd
        exact hok.select hid rfl hhnd cn push now
    case h_2 => exact ⟨w, none, rfl, hok⟩
  | reselect id cn push now =>
    simp only [poolStep]
    split
    case h_1 mi hget =>
      obtain ⟨hid, hhnd⟩ := hlive hget
      cases hest : mi.established with
      | true => exact hok.select hid hest hhnd cn push now
      | false => exact ⟨w, none, rfl, hok⟩
    case h_2 => exact ⟨w, none, rfl, hok⟩
  | close id now =>
    simp only [poolStep]
    split
    case h_1 mi hget =>
      obtain ⟨hid, hhnd⟩ := hlive hget
      exact ⟨_, _, rfl, hok.set hid (samePool_release ..) (hok.release hhnd false now)
        (by simp)⟩
    case h_2 => exact ⟨w, none, rfl, hok⟩

/-! ## Addresses -/

/-- The IPv4 addresses that a handle stands for. -/
def poolRange (pool : IfconfigPool) (h : Nat) : List (BitVec 32) :=
  match pool.ipv4 with
  | none => []
  | some (.net30, base) => [0, 1, 2, 3].map fun k => poolBase .net30 base h + BitVec.ofNat 32 k
  | some (.indiv, base) => [poolBase .indiv base h]

theorem poolAddrs_mem_range (h : Nat) :
    (pool.ipv4.isSome = true → (poolAddrs pool h).remote4 ∈ poolRange pool h) ∧
      ((poolAddrs pool h).local4 = 0#32 ∨ (poolAddrs pool h).local4 ∈ poolRange pool h) := by
  rcases hv4 : pool.ipv4 with _ | ⟨_ | _, base⟩ <;> simp [poolAddrs, poolRange, hv4]

/-- The handles fit into the address space of the pool. -/
def PoolSizeOk (pool : IfconfigPool) : Prop :=
  pool.list.length < 2 ^ 31 ∧
    ∀ base, pool.ipv4 = some (.net30, base) → pool.list.length ≤ 2 ^ 30

theorem poolIpv4_net30_le (start stop : BitVec 32) : (poolIpv4 .net30 start stop).2 ≤ 2 ^ 30 := by
  simp only [poolIpv4]
  generalize (stop ||| 3#32) + 1#32 - (start &&& ~~~3#32) = n
  have hle : (n >>> 2).toNat < 2 ^ 30 := by
    rw [BitVec.toNat_ushiftRight, Nat.shiftRight_eq_div_pow]
    omega
  rw [BitVec.toInt_eq_toNat_of_lt (by omega)]
  omega

section Init

variable {ipv4Pool : Bool} {type : PoolType} {start stop : BitVec 32}
  {duplicateCn ipv6Pool : Bool} {ipv6Base : In6Addr} {netbits : Nat}
  (hinit : ifconfigPoolInit ipv4Pool type start stop duplicateCn ipv6Pool ipv6Base netbits =
    some pool)

include hinit

theorem ifconfigPoolInit_size : PoolSizeOk pool := by
  have hv4 : (poolIpv4 type start stop).2 < 2 ^ 31 := by
    cases type <;> exact BitVec.toInt_lt
  have hv6 : (poolIpv6 ipv6Base netbits).2 < 2 ^ 31 := by
    simp only [poolIpv6]
    split
    · exact BitVec.toInt_lt
    · decide
  simp only [ifconfigPoolInit, Option.ite_none_right_eq_some, Option.ite_none_left_eq_some,
    Option.some.injEq] at hinit
  obtain ⟨-, hbig, hpos, rfl⟩ := hinit
  have hle : (poolSize ipv4Pool ipv6Pool (poolIpv4 type start stop).2
      (poolIpv6 ipv6Base netbits).2) < 2 ^ 31 := by
    simp only [poolSize]
    grind
  simp only [PoolSizeOk, length_replicate]
  refine ⟨by omega, fun base hbase => ?_⟩
  have hv4on : ipv4Pool = true ∧ type = .net30 := by
    cases ipv4Pool <;> simp at hbase ⊢
    exact hbase.1
  obtain ⟨rfl, rfl⟩ := hv4on
  have hnet30 := poolIpv4_net30_le start stop
  have hmin : poolSize true ipv6Pool (poolIpv4 .net30 start stop).2
      (poolIpv6 ipv6Base netbits).2 ≤ (poolIpv4 .net30 start stop).2 := by
    simp only [poolSize]
    grind
  omega

theorem ifconfigPoolInit_fresh :
    (∀ e ∈ pool.list, e = .cleared) ∧ pool.ipv4.isSome = ipv4Pool ∧ 0 < pool.list.length ∧
      pool.ipv6 = if ipv6Pool then some (poolIpv6 ipv6Base netbits).1 else none := by
  simp only [ifconfigPoolInit, Option.ite_none_right_eq_some, Option.ite_none_left_eq_some,
    Option.some.injEq] at hinit
  obtain ⟨-, -, hpos, rfl⟩ := hinit
  refine ⟨fun e he => eq_of_mem_replicate he, ?_, ?_, rfl⟩
  · cases ipv4Pool <;> rfl
  · rw [length_replicate]
    omega

end Init

theorem poolRange_disjoint (hsize : PoolSizeOk pool) {h' : Nat} (hh : h < pool.list.length)
    (hh' : h' < pool.list.length) (hne : h ≠ h') :
    (poolRange pool h).Disjoint (poolRange pool h') := by
  obtain ⟨hlt, hnet30⟩ := hsize
  rw [disjoint_left]
  rcases hv4 : pool.ipv4 with _ | ⟨_ | _, base⟩
  · simp [poolRange, hv4]
  · have hle := hnet30 base hv4
    simp only [poolRange, hv4, poolBase, mem_map]
    rintro _ ⟨k, hk, rfl⟩ ⟨k', hk', heq⟩
    have hk4 : k < 4 ∧ k' < 4 := by
      simp at hk hk'
      omega
    bv_omega
  · simp only [poolRange, hv4, poolBase, mem_singleton]
    rintro _ rfl heq
    bv_omega

theorem addIn6Addr_inj {base : In6Addr} {h' : Nat} (hh : h < 2 ^ 31) (hh' : h' < 2 ^ 31)
    (heq : addIn6Addr base h = addIn6Addr base h') : h = h' := by
  have hval := congrArg In6Addr.value heq
  rw [addIn6Addr_value, addIn6Addr_value] at hval
  omega

/-! ## The theorem -/

/-- A line of the persist file: the name, the handle, and whether the entry is
reserved. -/
structure SavedEntry where
  commonName : Bytes
  handle : Nat
  fixed : Bool

/-- The pool after its file was read. -/
def IfconfigPool.load (pool : IfconfigPool) (saved : List SavedEntry) (now : Int) : IfconfigPool :=
  saved.foldl (fun pool s => ifconfigPoolSet pool s.commonName s.handle s.fixed now) pool

theorem IfconfigPool.load_ok (hfree : ∀ e ∈ pool.list, e.inUse = false) (saved : List SavedEntry)
    (now : Int) :
    SamePool pool (pool.load saved now) ∧ ∀ e ∈ (pool.load saved now).list, e.inUse = false := by
  induction saved generalizing pool with
  | nil => exact ⟨.refl pool, hfree⟩
  | cons s saved ih =>
    have hset : ∀ e ∈ (ifconfigPoolSet pool s.commonName s.handle s.fixed now).list,
        e.inUse = false := by
      intro e he
      rcases mem_or_eq_of_mem_set he with hmem | rfl
      · exact hfree e hmem
      · rfl
    obtain ⟨hsame, hfree'⟩ := ih hset
    have hone : SamePool pool (ifconfigPoolSet pool s.commonName s.handle s.fixed now) :=
      ⟨rfl, rfl, rfl, length_set ..⟩
    exact ⟨hone.trans hsame, hfree'⟩

theorem poolOk_start (hsame : SamePool pool₀ pool) (hfree : ∀ e ∈ pool.list, e.inUse = false) :
    PoolOk pool₀ ⟨pool, []⟩ where
  same := hsame
  leased := by
    refine Leased.empty.congr (fun k => ?_) (fun i => by simp [PoolServer.handle])
    rw [iff_false]
    rintro ⟨e, hget, hused⟩
    simp [hfree e (mem_of_getElem? hget)] at hused
  fresh := by simp

/-- **Exclusivity and stickiness of the pool.** Whatever the clients of a pool do,
after it was set up and its file read: the entries in use are those of the live
clients, no two clients hold the same one, and different handles stand for
different addresses. `ifconfig_pool_acquire` gives nothing exactly if no entry may be given
to the name, and else an entry as `Chosen` says, with addresses in its range. This is the
entry that the next client gets, whenever it asks for one; a client with a static address
gives its entry back. -/
theorem pool_exclusive_and_sticky {ipv4Pool : Bool} {type : PoolType} {start stop : BitVec 32}
    {duplicateCn ipv6Pool : Bool} {ipv6Base : In6Addr} {netbits : Nat} {pool : IfconfigPool}
    (hinit : ifconfigPoolInit ipv4Pool type start stop duplicateCn ipv6Pool ipv6Base netbits =
      some pool) (saved : List SavedEntry) (now : Int) (events : List PoolEvent) :
    ∃ w outs, run poolStep ⟨pool.load saved now, []⟩ events = some (w, outs) ∧
      (∀ h, w.pool.InUse h ↔ ∃ id, w.handle id = some h) ∧
      (∀ id id' h, w.handle id = some h → w.handle id' = some h → id = id') ∧
      (∀ h h', h < w.pool.list.length → h' < w.pool.list.length → h ≠ h' →
        (poolRange w.pool h).Disjoint (poolRange w.pool h') ∧
        ∀ base, w.pool.ipv6 = some base → addIn6Addr base h ≠ addIn6Addr base h') ∧
      (∀ cn, ∃ pool' found, ifconfigPoolAcquire w.pool cn = some (pool', found) ∧
        (found = none ↔ ∀ e ∈ w.pool.list, ¬e.Eligible w.pool.duplicateCn cn) ∧
        ∀ h addrs, found = some (h, addrs) →
          (∃ e, w.pool.list[h]? = some e ∧ Chosen w.pool cn e) ∧
          (w.pool.ipv4.isSome = true → addrs.remote4 ∈ poolRange w.pool h) ∧
          (addrs.local4 = 0#32 ∨ addrs.local4 ∈ poolRange w.pool h) ∧
          addrs.remote6 = w.pool.ipv6.map (addIn6Addr · h)) ∧
      (∀ event id commonName, Selects w id commonName false event → w.handle id = none →
        ∃ w' out, poolStep w event = some (w', out) ∧
          Served w id (if w.pool.duplicateCn then none else commonName) w' out) ∧
      ∀ event id commonName, Selects w id commonName true event →
        ∃ w' now, poolStep w event = some (w', none) ∧
          w'.handle = Function.update w.handle id none ∧
          w'.pool = ifconfigPoolRelease w.pool (w.handle id) true now := by
  have hcleared := (ifconfigPoolInit_fresh hinit).1
  obtain ⟨hsame, hfree⟩ :=
    IfconfigPool.load_ok (fun e he => by rw [hcleared e he]; rfl) saved now
  obtain ⟨w, outs, hrun, hok⟩ := run_isSome (fun w e hok _ => poolStep_ok hok)
    (poolOk_start hsame hfree) (runGuard_true _ events)
  refine ⟨w, outs, hrun, hok.leased.used_iff, hok.leased.exclusive, ?_, ?_,
    fun _ _ _ hselects hnone => hselects.served hok hnone,
    fun _ _ _ hselects => hselects.static hok⟩
  · have hsize : PoolSizeOk w.pool := by
      have h := ifconfigPoolInit_size hinit
      rwa [PoolSizeOk, ← hok.same.size, ← hok.same.ipv4] at h
    intro h h' hh hh' hne
    refine ⟨poolRange_disjoint hsize hh hh' hne, fun base _ heq => hne ?_⟩
    exact addIn6Addr_inj (hh.trans hsize.1) (hh'.trans hsize.1) heq
  · intro cn
    obtain ⟨hacq, hnone⟩ | ⟨h, e, hget, hchosen, hacq⟩ := ifconfigPoolAcquire_spec
    · exact ⟨_, _, hacq, by simpa using hnone, by simp⟩
    · refine ⟨_, _, hacq, ?_, ?_⟩
      · refine iff_of_false (by simp) (fun hno => ?_)
        exact hno e (mem_of_getElem? hget) hchosen.eligible
      · intro h' addrs heq
        cases heq
        obtain ⟨hremote, hlocal⟩ := poolAddrs_mem_range h
        exact ⟨⟨e, hget, hchosen⟩, hremote, hlocal, rfl⟩

/-- A pool of two /30 networks, with a name saved for the second one. -/
def twoNetsPool : Option IfconfigPool :=
  ifconfigPoolInit true .net30 0x0a080004#32 0x0a08000b#32 false false
    ⟨replicate 16 0, In6Addr.size_zero⟩ 64

/-- The clients `a` and `b` connect, and `a` goes and comes back. -/
def twoNetsEvents : List PoolEvent :=
  [.create, .create, .connect 0 (some [97]) false 1, .connect 1 (some [98]) false 2,
    .close 0 3, .create]

/-- Client `b` holds the network that was saved for it, and `a` gets the other one again. -/
theorem pool_exclusive_and_sticky_two_nets :
    ∃ pool, twoNetsPool = some pool ∧
      ∃ w outs, run poolStep ⟨pool.load [⟨[98], 1, true⟩] 0, []⟩ twoNetsEvents = some (w, outs) ∧
        (∀ id id' h, w.handle id = some h → w.handle id' = some h → id = id') ∧
        w.handle 1 = some 1 ∧ ∃ w' addrs,
          poolStep w (.connect 2 (some [97]) false 4) = some (w', some addrs) ∧
          Served w 2 (some [97]) w' (some addrs) ∧ w'.handle 2 = some 0 := by
  have hinit : twoNetsPool.isSome = true := by decide
  obtain ⟨pool, hpool⟩ := Option.isSome_iff_exists.mp hinit
  obtain ⟨w, outs, hrun, -, hex, -, -, hserved, -⟩ :=
    pool_exclusive_and_sticky hpool [⟨[98], 1, true⟩] 0 twoNetsEvents
  have hend : (twoNetsPool.bind fun pool =>
      (run poolStep ⟨pool.load [⟨[98], 1, true⟩] 0, []⟩ twoNetsEvents).map fun r =>
        (r.1.pool.duplicateCn, r.1.clients,
          (poolStep r.1 (.connect 2 (some [97]) false 4)).map fun r' => r'.1.clients)) =
      some (false, [none, some ⟨some 1, true⟩, some ⟨none, false⟩],
        some [none, some ⟨some 1, true⟩, some ⟨some 0, true⟩]) := by decide
  rw [hpool, Option.bind_some, hrun] at hend
  obtain ⟨hdup, hclients, hnext⟩ : _ ∧ _ ∧ _ := by simpa only [Option.map_some,
    Option.some.injEq, Prod.mk.injEq] using hend
  have hhandle : w.handle 2 = none := by simp [PoolServer.handle, hclients]
  obtain ⟨w', out, hstep, hout⟩ := hserved (.connect 2 (some [97]) false 4) 2 (some [97])
    (.setup (by rw [hclients]; rfl) rfl) hhandle
  rw [hstep, Option.map_some, Option.some.injEq] at hnext
  change w'.clients = _ at hnext
  have hhandle' : w'.handle 2 = some 0 := by simp [PoolServer.handle, hnext]
  rw [hdup] at hout
  cases out with
  | none => simp [hout.2.1, hhandle] at hhandle'
  | some addrs =>
    exact ⟨pool, hpool, w, outs, hrun, hex, by simp [PoolServer.handle, hclients], w', addrs,
      hstep, hout, hhandle'⟩

end OpenVpn
