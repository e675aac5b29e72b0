import OpenVpn.Server.Pool
import OpenVpn.Server.Prefix

/-!
# The server directive (`helper.c`)

`--server` with a network stands for a number of other options: the addresses of the
server, the range of the pool, routes, and what is pushed to the clients. The server then
sets its pool up from the range.

* `helperServer` — the directive; `serverPool` is the pool that comes of it.
* `poolIpv4_range` — the range in numbers.
* `server_pool_usable_iff` — when the pool can be set up and serves the network.
-/

namespace OpenVpn

open List BitVec Option Nat Prod

/-- `dev_type_enum`. -/
inductive DevType
  | undef
  | null
  | tun
  | tap
  deriving DecidableEq

inductive Topology
  | undef
  | net30
  | p2p
  | subnet
  deriving DecidableEq

/-- An option pushed to the clients; a route without a netmask is for a host. -/
inductive PushedOption
  | route (network : InAddr) (netmask : Option InAddr)
  | routeGateway (gateway : InAddr)
  | topology (topology : Topology)
  deriving DecidableEq

def IFCONFIG_POOL_MIN_NETBITS : Nat := 16

/-- The options that the directive looks at, and those it sets. -/
structure ServerOptions where
  dev : DevType
  client : Bool
  serverBridgeDefined : Bool
  serverBridgeProxyDhcp : Bool
  sharedSecretFile : Bool
  enableC2c : Bool
  serverNetwork : InAddr
  serverNetmask : InAddr
  nopool : Bool
  modeServer : Bool
  tlsServer : Bool
  topology : Topology
  ifconfigLocal : Option InAddr
  ifconfigRemoteNetmask : Option InAddr
  ifconfigPoolDefined : Bool
  ifconfigPoolStart : InAddr
  ifconfigPoolEnd : InAddr
  ifconfigPoolNetmask : InAddr
  routes : List (InAddr × InAddr)
  routeDefaultGateway : Option InAddr
  pushList : List PushedOption
  pushIfconfigConstraint : Option (InAddr × InAddr)
  deriving DecidableEq

/-- `netmask_to_netbits`: `none` if the combination is invalid; a host mask gives -1. -/
def netmaskToNetbits (network netmask : InAddr) : Option Int :=
  if network &&& netmask = network then
    match (range 33).find? (fun i => netbitsToNetmask i = netmask) with
    | some i => some (if i = 32 then -1 else i)
    | none => none
  else none

def helperSetdefaultTopology (o : ServerOptions) : ServerOptions :=
  if o.topology ≠ .undef ∨ o.dev ≠ .tun then o
  else { o with topology := if o.modeServer then .subnet else .net30 }

/-- `ifconfig_pool_verify_range`; an error stops the program. -/
def ifconfigPoolVerifyRange (start stop : InAddr) : Bool :=
  decide (start ≤ stop) && decide ((stop - start).toNat < IFCONFIG_POOL_MAX)

/-- The pool has the given range, unless there is to be none. -/
def setPoolRange (o : ServerOptions) (start stop : InAddr) : Option ServerOptions :=
  if o.nopool then some o
  else if ifconfigPoolVerifyRange start stop then
    some { o with
      ifconfigPoolDefined := true
      ifconfigPoolStart := start
      ifconfigPoolEnd := stop }
  else none

def pushOption (o : ServerOptions) (p : PushedOption) : ServerOptions :=
  { o with pushList := o.pushList ++ [p] }

/-- Topologies `net30` and `p2p`. -/
def helperServerP2p (o : ServerOptions) (poolEndReserve : InAddr) : Option ServerOptions :=
  let o := { o with
    ifconfigLocal := some (o.serverNetwork + 1)
    ifconfigRemoteNetmask := some (o.serverNetwork + 2) }
  match setPoolRange o (o.serverNetwork + 4)
      ((o.serverNetwork ||| ~~~o.serverNetmask) - poolEndReserve) with
  | none => none
  | some o =>
    let o := { o with routes := o.routes ++ [(o.serverNetwork, o.serverNetmask)] }
    if o.enableC2c then
      -- `print_opt_route` asserts that there is a network
      if o.serverNetwork = 0 then none
      else some (pushOption o (.route o.serverNetwork (some o.serverNetmask)))
    else if o.topology = .net30 then some (pushOption o (.route (o.serverNetwork + 1) none))
    else some o

/-- Topology `subnet`, and Ethernet devices. -/
def helperServerSubnet (o : ServerOptions) : Option ServerOptions :=
  let o := { o with
    ifconfigLocal := some (o.serverNetwork + 1)
    ifconfigRemoteNetmask := some o.serverNetmask }
  match setPoolRange o (o.serverNetwork + 2) ((o.serverNetwork ||| ~~~o.serverNetmask) - 1) with
  | none => none
  | some o =>
    some (pushOption { o with ifconfigPoolNetmask := o.serverNetmask }
      (.routeGateway (o.serverNetwork + 1)))

/-- `mode server` and `tls-server`. -/
def ServerOptions.serverMode (o : ServerOptions) : ServerOptions :=
  { o with modeServer := true, tlsServer := true }

def helperServerTopology (o : ServerOptions) (poolEndReserve : InAddr) : Option ServerOptions :=
  match o.topology with
  | .net30 | .p2p =>
    (helperServerP2p o poolEndReserve).map fun o => pushOption o (.topology o.topology)
  | .subnet =>
    (helperServerSubnet o).map fun o =>
      pushOption
        { o with
          routeDefaultGateway := o.routeDefaultGateway.or (some (o.serverNetwork + 2)) }
        (.topology o.topology)
  | .undef => none

def helperServerTun (o : ServerOptions) (netbits : Int) : Option ServerOptions :=
  if 29 < netbits then none
  else helperServerTopology (helperSetdefaultTopology o.serverMode) (if netbits = 29 then 0 else 4)

/-- The part of `helper_client_server` for `--server`; `none` is a usage error. -/
def helperServer (o : ServerOptions) : Option ServerOptions :=
  if o.client ∨ o.serverBridgeDefined ∨ o.serverBridgeProxyDhcp ∨ o.sharedSecretFile ∨
      (o.nopool = false ∧ o.ifconfigPoolDefined) ∨ ¬(o.dev = .tap ∨ o.dev = .tun) then none
  else
    match netmaskToNetbits o.serverNetwork o.serverNetmask with
    | none => none
    | some netbits =>
      if netbits < 0 ∨ netbits < IFCONFIG_POOL_MIN_NETBITS then none
      else
        let r := if o.dev = .tun then helperServerTun o netbits
          else if 30 < netbits then none
          else helperServerSubnet o.serverMode
        r.map fun o =>
          if o.dev = .tap ∨ o.topology = .subnet then
            { o with pushIfconfigConstraint := some (o.serverNetwork, o.serverNetmask) }
          else o

/-- The pool that `multi_init` sets up, with or without an IPv6 pool. -/
def serverPool (o : ServerOptions) (duplicateCn ipv6Pool : Bool) (ipv6Base : In6Addr)
    (ipv6Netbits : Nat) : Option IfconfigPool :=
  ifconfigPoolInit o.ifconfigPoolDefined
    (if o.dev = .tun ∧ o.topology = .net30 then .net30 else .indiv)
    o.ifconfigPoolStart o.ifconfigPoolEnd duplicateCn ipv6Pool ipv6Base ipv6Netbits

/-! ## Networks in numbers -/

theorem and_netbitsToNetmask_toNat (a : InAddr) {n : Nat} (hn : n ≤ 32) :
    (a &&& netbitsToNetmask n).toNat = a.toNat / 2 ^ (32 - n) * 2 ^ (32 - n) := by
  have hmask := and_netbitsToNetmask a n
  have hwidth : n ≤ (VirtualAddr.v4 a).width := hn
  rw [VirtualAddr.tried_of_le hwidth] at hmask
  have hsh : a &&& netbitsToNetmask n = (a >>> (32 - n)) <<< (32 - n) :=
    VirtualAddr.v4.inj hmask
  rw [hsh, toNat_shiftRight_shiftLeft]

theorem not_netbitsToNetmask_toNat {n : Nat} (hn : n ≤ 32) :
    (~~~netbitsToNetmask n).toNat = 2 ^ (32 - n) - 1 := by
  revert n
  decide

theorem or_not_eq_add (a m : InAddr) : a ||| ~~~m = (a &&& m) + ~~~m := by
  have hdj : a &&& m &&& ~~~m = 0#32 := by
    rw [BitVec.and_assoc, BitVec.and_not_self]
    exact and_zero
  rw [add_eq_or_of_and_eq_zero _ _ hdj]
  apply eq_of_getElem_eq
  intro i hi
  simp only [getElem_or, getElem_and, getElem_not]
  cases a[i] <;> cases m[i] <;> rfl

/-- A network with its size in addresses. -/
structure Subnet (network netmask : InAddr) (size : Nat) : Prop where
  pos : 4 ≤ size
  aligned : size % 4 = 0
  base : network.toNat % size = 0
  fits : network.toNat + size ≤ 2 ^ 32
  last : (network ||| ~~~netmask).toNat = network.toNat + (size - 1)
  mem : ∀ a : InAddr, network.toNat ≤ a.toNat → a.toNat < network.toNat + size →
    a &&& netmask = network

theorem size_of_netbits {n : Nat} (hn : n ≤ 30) : 2 ^ (32 - n) = 4 * 2 ^ (30 - n) := by
  rw [show 32 - n = 2 + (30 - n) by omega, Nat.pow_add]

theorem subnet_of_netbits {network : InAddr} {n : Nat} (hn : n ≤ 30)
    (hnet : network &&& netbitsToNetmask n = network) :
    Subnet network (netbitsToNetmask n) (2 ^ (32 - n)) := by
  have hnat := and_netbitsToNetmask_toNat network (le_trans hn (by decide))
  rw [hnet] at hnat
  have hfour := size_of_netbits hn
  have hpos : 0 < 2 ^ (30 - n) := Nat.two_pow_pos _
  have hdvd : 2 ^ (32 - n) ∣ network.toNat := ⟨_, hnat.trans (mul_comm _ _)⟩
  have hdvd32 : 2 ^ (32 - n) ∣ 2 ^ 32 := pow_dvd_pow 2 (sub_le 32 n)
  have hfits : network.toNat + 2 ^ (32 - n) ≤ 2 ^ 32 := by
    obtain ⟨q, hq⟩ := hdvd
    obtain ⟨m, hm⟩ := hdvd32
    have hlt := network.isLt
    rw [hq, hm] at hlt
    rw [hq, hm, ← Nat.mul_succ]
    exact Nat.mul_le_mul_left _ (Nat.lt_of_mul_lt_mul_left hlt)
  have hlast : (network ||| ~~~netbitsToNetmask n).toNat = network.toNat + (2 ^ (32 - n) - 1) := by
    rw [or_not_eq_add, hnet, toNat_add, not_netbitsToNetmask_toNat (by omega),
      mod_eq_of_lt (by omega)]
  refine ⟨by omega, by omega, mod_eq_zero_of_dvd hdvd, hfits, hlast, ?_⟩
  intro a hle hlt
  apply eq_of_toNat_eq
  rw [and_netbitsToNetmask_toNat a (by omega), hnat]
  congr 1
  obtain ⟨q, hq⟩ := hdvd
  rw [hq] at hle hlt ⊢
  rw [Nat.mul_div_cancel_left _ (by omega)]
  rw [Nat.div_eq_iff (by omega)]
  rw [mul_comm] at hle hlt
  omega

/-! ## The range -/

theorem netmaskToNetbits_eq {network netmask : InAddr} {netbits : Int}
    (h : netmaskToNetbits network netmask = some netbits) (hpos : 0 ≤ netbits) :
    ∃ n : Nat, netbits = n ∧ n < 32 ∧ netmask = netbitsToNetmask n ∧
      network &&& netmask = network := by
  unfold netmaskToNetbits at h
  split at h
  case isFalse => cases h
  case isTrue hnet =>
    split at h
    case h_2 => cases h
    case h_1 i hfind =>
      have hmem := mem_of_find?_eq_some hfind
      have hmask := find?_some hfind
      rw [mem_range] at hmem
      rw [some.injEq] at h
      by_cases hhost : i = 32
      · rw [if_pos hhost] at h
        omega
      · rw [if_neg hhost] at h
        exact ⟨i, h.symm, by omega, (of_decide_eq_true hmask).symm, hnet⟩

/-- The network is the one of `o`, and there are a pool of the given range and addresses of
the server. -/
structure PoolSet (o o' : ServerOptions) (start stop remote : InAddr) : Prop where
  same : o'.serverNetwork = o.serverNetwork ∧ o'.serverNetmask = o.serverNetmask ∧ o'.dev = o.dev
  pool : o'.ifconfigPoolDefined = true
  verified : ifconfigPoolVerifyRange start stop = true
  range : o'.ifconfigPoolStart = start ∧ o'.ifconfigPoolEnd = stop
  addrs : o'.ifconfigLocal = some (o.serverNetwork + 1) ∧ o'.ifconfigRemoteNetmask = some remote

theorem setPoolRange_eq {o o' : ServerOptions} {start stop : InAddr}
    (h : setPoolRange o start stop = some o') (hpool : o.nopool = false) :
    ifconfigPoolVerifyRange start stop = true ∧
      o' = { o with
        ifconfigPoolDefined := true
        ifconfigPoolStart := start
        ifconfigPoolEnd := stop } := by
  have hno : ¬o.nopool = true := by
    rw [hpool]
    exact Bool.false_ne_true
  unfold setPoolRange at h
  rw [if_neg hno] at h
  split at h
  case isFalse => cases h
  case isTrue hver => exact ⟨hver, (some.inj h).symm⟩

theorem helperServerP2p_poolSet {o o' : ServerOptions} {reserve : InAddr}
    (h : helperServerP2p o reserve = some o') (hpool : o.nopool = false) :
    PoolSet o o' (o.serverNetwork + 4) ((o.serverNetwork ||| ~~~o.serverNetmask) - reserve)
      (o.serverNetwork + 2) ∧ o'.topology = o.topology := by
  unfold helperServerP2p at h
  dsimp only at h
  split at h
  case h_1 => cases h
  case h_2 o1 hset =>
    obtain ⟨hver, rfl⟩ := setPoolRange_eq hset hpool
    dsimp only at h
    split at h <;> split at h
    case isTrue.isTrue => cases h
    all_goals
      obtain rfl := some.inj h
      exact ⟨⟨⟨rfl, rfl, rfl⟩, rfl, hver, ⟨rfl, rfl⟩, ⟨rfl, rfl⟩⟩, rfl⟩

theorem helperServerSubnet_poolSet {o o' : ServerOptions} (h : helperServerSubnet o = some o')
    (hpool : o.nopool = false) :
    PoolSet o o' (o.serverNetwork + 2) ((o.serverNetwork ||| ~~~o.serverNetmask) - 1)
      o.serverNetmask ∧ o'.topology = o.topology := by
  unfold helperServerSubnet at h
  dsimp only at h
  split at h
  case h_1 => cases h
  case h_2 o1 hset =>
    obtain ⟨hver, rfl⟩ := setPoolRange_eq hset hpool
    obtain rfl := some.inj h
    exact ⟨⟨⟨rfl, rfl, rfl⟩, rfl, hver, ⟨rfl, rfl⟩, ⟨rfl, rfl⟩⟩, rfl⟩

/-- The topology of a server on a `tun` device. -/
def Topology.server : Topology → Topology
  | .undef => .subnet
  | topology => topology

theorem helperSetdefaultTopology_tun {o : ServerOptions} (hdev : o.dev = .tun) :
    helperSetdefaultTopology o.serverMode =
      { o.serverMode with topology := o.topology.server } := by
  unfold helperSetdefaultTopology
  by_cases hundef : o.topology = .undef
  · have hdefault : ¬(o.serverMode.topology ≠ .undef ∨ o.serverMode.dev ≠ .tun) :=
      not_or.mpr ⟨not_not.mpr hundef, not_not.mpr hdev⟩
    rw [if_neg hdefault, hundef]
    rfl
  · have hsrv : o.topology.server = o.topology := by
      cases ht : o.topology with
      | undef => exact absurd ht hundef
      | net30 | p2p | subnet => rfl
    rw [if_pos (.inl hundef), hsrv]
    rfl

/-- Which range the directive sets, by device and topology. -/
def RangeSet (o o' : ServerOptions) (n : Nat) : Prop :=
  (o.dev = .tun ∧ n ≤ 29 ∧ o'.topology = o.topology.server ∧
      (o.topology.server = .net30 ∨ o.topology.server = .p2p) ∧
      PoolSet o o' (o.serverNetwork + 4)
        ((o.serverNetwork ||| ~~~o.serverNetmask) - if n = 29 then 0 else 4)
        (o.serverNetwork + 2)) ∨
    (o.dev = .tun ∧ n ≤ 29 ∧ o'.topology = .subnet ∧ o.topology.server = .subnet ∨
        o.dev = .tap ∧ n ≤ 30) ∧
      PoolSet o o' (o.serverNetwork + 2) ((o.serverNetwork ||| ~~~o.serverNetmask) - 1)
        o.serverNetmask

theorem helperServerTun_rangeSet {o o' : ServerOptions} {n : Nat} (hdev : o.dev = .tun)
    (hpool : o.nopool = false) (h : helperServerTun o n = some o') : RangeSet o o' n := by
  unfold helperServerTun at h
  split at h
  case isTrue => cases h
  case isFalse hle =>
    have hn : n ≤ 29 := by omega
    have hreserve : (if (n : Int) = 29 then (0 : InAddr) else 4) = if n = 29 then 0 else 4 := by
      by_cases h29 : n = 29
      · rw [if_pos h29, if_pos (by omega)]
      · rw [if_neg h29, if_neg (by omega)]
    rw [helperSetdefaultTopology_tun hdev, hreserve] at h
    unfold helperServerTopology at h
    dsimp only at h
    cases htop : o.topology.server with rw [htop] at h
    | net30 | p2p =>
      obtain ⟨o1, h1, rfl⟩ := map_eq_some_iff.mp h
      obtain ⟨hset, htop1⟩ := helperServerP2p_poolSet h1 hpool
      exact .inl ⟨hdev, hn, htop1.trans htop.symm, by simp [htop],
        ⟨hset.1, hset.2, hset.3, hset.4, hset.5⟩⟩
    | subnet =>
      obtain ⟨o1, h1, rfl⟩ := map_eq_some_iff.mp h
      obtain ⟨hset, htop1⟩ := helperServerSubnet_poolSet h1 hpool
      exact .inr ⟨.inl ⟨hdev, hn, htop1, htop⟩, ⟨hset.1, hset.2, hset.3, hset.4, hset.5⟩⟩
    | undef => cases h

/-- **What the directive accepts**, and the range it sets. -/
theorem helperServer_rangeSet {o o' : ServerOptions} (hpool : o.nopool = false)
    (h : helperServer o = some o') :
    ∃ n, 16 ≤ n ∧ o.serverNetmask = netbitsToNetmask n ∧
      o.serverNetwork &&& o.serverNetmask = o.serverNetwork ∧ RangeSet o o' n := by
  unfold helperServer at h
  split at h
  case isTrue => cases h
  case isFalse haccept =>
    split at h
    case h_1 => cases h
    case h_2 netbits hnb =>
      split at h
      case isTrue => cases h
      case isFalse hsm =>
        obtain ⟨hpos, hmin⟩ := not_or.mp hsm
        obtain ⟨n, rfl, hn, hmask, hnet⟩ := netmaskToNetbits_eq hnb (by omega)
        have hmin' : 16 ≤ n := by
          have hsixteen : (IFCONFIG_POOL_MIN_NETBITS : Int) = 16 := rfl
          omega
        refine ⟨n, hmin', hmask, hnet, ?_⟩
        dsimp only at h
        obtain ⟨o1, h1, rfl⟩ := map_eq_some_iff.mp h
        -- the last option set is not one of those looked at here
        have hkeep : RangeSet o o1 n := by
          by_cases htun : o.dev = .tun
          · rw [if_pos htun] at h1
            exact helperServerTun_rangeSet htun hpool h1
          · have htap : o.dev = .tap := by
              by_contra hne
              exact haccept (by tauto)
            rw [if_neg htun] at h1
            split at h1
            case isTrue => cases h1
            case isFalse hle =>
              obtain ⟨hset, -⟩ := helperServerSubnet_poolSet h1 hpool
              exact .inr ⟨.inr ⟨htap, by omega⟩, ⟨hset.1, hset.2, hset.3, hset.4, hset.5⟩⟩
        split
        · rcases hkeep with ⟨hdev, hle, htop, hp2p, hset⟩ | ⟨hdev, hset⟩
          · exact .inl ⟨hdev, hle, htop, hp2p, ⟨hset.1, hset.2, hset.3, hset.4, hset.5⟩⟩
          · exact .inr ⟨hdev, ⟨hset.1, hset.2, hset.3, hset.4, hset.5⟩⟩
        · exact hkeep

/-! ## The pool -/

/-- The IPv4 addresses given out with a handle. -/
def handedOut (pool : IfconfigPool) (h : Nat) : List InAddr :=
  match pool.ipv4 with
  | some (.net30, _) => [(poolAddrs pool h).local4, (poolAddrs pool h).remote4]
  | some (.indiv, _) => [(poolAddrs pool h).remote4]
  | none => []

def serverAddrs (o : ServerOptions) : List InAddr :=
  o.ifconfigLocal.toList ++
    if o.dev = .tun ∧ (o.topology = .net30 ∨ o.topology = .p2p) then
      o.ifconfigRemoteNetmask.toList
    else []

/-- The addresses given out lie in the network and are not those of the server. -/
def PoolServes (o : ServerOptions) (pool : IfconfigPool) : Prop :=
  ∀ h < pool.list.length, ∀ a ∈ handedOut pool h,
    a &&& o.serverNetmask = o.serverNetwork ∧ a ∉ serverAddrs o

section Sizes

variable {type : PoolType} {start stop : InAddr}
  (hver : ifconfigPoolVerifyRange start stop = true) (duplicateCn : Bool) {ipv6Pool : Bool}
  {ipv6Base : In6Addr} {netbits : Nat}

include hver in
theorem verified_range : start ≤ stop ∧ (stop - start).toNat < IFCONFIG_POOL_MAX := by
  obtain ⟨hle, hmax⟩ := Bool.and_eq_true_iff.mp hver
  exact ⟨of_decide_eq_true hle, of_decide_eq_true hmax⟩

theorem ifconfigPoolInit_small (hsm : (poolIpv4 type start stop).2 < 2) :
    ifconfigPoolInit true type start stop duplicateCn ipv6Pool ipv6Base netbits = none := by
  unfold ifconfigPoolInit
  split
  · dsimp only
    rw [if_pos (.inl ⟨rfl, hsm⟩)]
  · rfl

include hver in
theorem ifconfigPoolInit_large (hlg : 2 ≤ (poolIpv4 type start stop).2)
    (hipv6 : ipv6Pool = true → 2 ≤ (poolIpv6 ipv6Base netbits).2) :
    ∃ pool, ifconfigPoolInit true type start stop duplicateCn ipv6Pool ipv6Base netbits =
        some pool ∧ pool.ipv4 = some (type, (poolIpv4 type start stop).1) ∧
      pool.list.length ≤ (poolIpv4 type start stop).2 := by
  have hbig : ¬((true = true ∧ (poolIpv4 type start stop).2 < 2) ∨
      (ipv6Pool = true ∧ (poolIpv6 ipv6Base netbits).2 < 2)) := by
    intro h
    rcases h with h | h
    · omega
    · have htwo := hipv6 h.1
      omega
  have hsize : 0 < poolSize true ipv6Pool (poolIpv4 type start stop).2
        (poolIpv6 ipv6Base netbits).2 ∧
      poolSize true ipv6Pool (poolIpv4 type start stop).2 (poolIpv6 ipv6Base netbits).2 ≤
        (poolIpv4 type start stop).2 := by
    unfold poolSize
    dsimp only
    rw [if_pos rfl]
    split
    case isTrue h =>
      have htwo := hipv6 h.1
      omega
    case isFalse => omega
  unfold ifconfigPoolInit
  rw [if_pos (verified_range hver)]
  dsimp only
  rw [if_neg hbig, if_pos hsize.1]
  refine ⟨_, rfl, rfl, ?_⟩
  rw [length_replicate]
  omega

end Sizes

theorem poolIpv4_indiv {start stop : InAddr} {d : Nat} (hstop : stop.toNat = start.toNat + d)
    (hd : d + 1 < 2 ^ 31) : poolIpv4 .indiv start stop = (start, ((d + 1 : Nat) : Int)) := by
  have hsize : (stop - start + 1#32).toNat = d + 1 := by
    simp only [toNat_add, toNat_sub, toNat_ofNat]
    have hlt := start.isLt
    have hlt' := stop.isLt
    omega
  unfold poolIpv4
  rw [mk.injEq]
  refine ⟨rfl, ?_⟩
  rw [toInt_eq_toNat_of_lt (by omega), hsize]

theorem poolIpv4_net30 {start stop : InAddr} {k : Nat} (hstart : start.toNat % 4 = 0)
    (hstop : stop.toNat + 1 = start.toNat + 4 * k) (hk : k < 2 ^ 29) :
    poolIpv4 .net30 start stop = (start, (k : Int)) := by
  have hbase : start &&& ~~~3#32 = start := by
    apply eq_of_toNat_eq
    have hand := and_netbitsToNetmask_toNat start (n := 30) (by decide)
    rw [show netbitsToNetmask 30 = ~~~3#32 from by decide] at hand
    rw [hand]
    omega
  have hlast : stop ||| 3#32 = stop := by
    have hor := or_not_eq_add stop (netbitsToNetmask 30)
    rw [show ~~~netbitsToNetmask 30 = 3#32 from by decide] at hor
    rw [hor]
    apply eq_of_toNat_eq
    rw [toNat_add, and_netbitsToNetmask_toNat stop (n := 30) (by decide)]
    have hlt := stop.isLt
    show (stop.toNat / 4 * 4 + 3) % 2 ^ 32 = stop.toNat
    omega
  have hsize : (stop + 1#32 - start).toNat = 4 * k := by
    simp only [toNat_add, toNat_sub, toNat_ofNat]
    have hlt := start.isLt
    have hlt' := stop.isLt
    omega
  unfold poolIpv4
  dsimp only
  rw [hbase, hlast, mk.injEq]
  refine ⟨rfl, ?_⟩
  have hsh : ((stop + 1#32 - start) >>> 2).toNat = k := by
    rw [toNat_ushiftRight, shiftRight_eq_div_pow, hsize]
    omega
  rw [toInt_eq_toNat_of_lt (by omega), hsh]

/-- The number of addresses of a handle. -/
def PoolType.width : PoolType → Nat
  | .net30 => 4
  | .indiv => 1

theorem mem_handedOut {pool : IfconfigPool} {type : PoolType} {base : InAddr}
    (hv4 : pool.ipv4 = some (type, base)) {k : Nat} (hk : base.toNat + type.width * k ≤ 2 ^ 32)
    {h : Nat} (hh : h < k) {a : InAddr} (ha : a ∈ handedOut pool h) :
    base.toNat ≤ a.toNat ∧ a.toNat < base.toNat + type.width * k := by
  unfold handedOut poolAddrs poolBase at ha
  cases type with
  | net30 =>
    simp only [hv4, mem_cons, not_mem_nil, or_false] at ha
    simp only [PoolType.width] at hk ⊢
    rcases ha with rfl | rfl
    · simp only [toNat_add, toNat_ofNat]
      omega
    · simp only [toNat_add, toNat_ofNat]
      omega
  | indiv =>
    simp only [hv4, mem_singleton] at ha
    simp only [PoolType.width] at hk ⊢
    subst ha
    simp only [toNat_add, toNat_ofNat]
    omega

theorem poolServes_of_range {o : ServerOptions} {pool : IfconfigPool} {size k : Nat}
    (hsubnet : Subnet o.serverNetwork o.serverNetmask size) {type : PoolType} {base : InAddr}
    (hv4 : pool.ipv4 = some (type, base)) (hlen : pool.list.length ≤ k)
    (hbase : o.serverNetwork.toNat ≤ base.toNat)
    (hend : base.toNat + type.width * k ≤ o.serverNetwork.toNat + size)
    (hown : ∀ a ∈ serverAddrs o, a.toNat < base.toNat) : PoolServes o pool := by
  intro h hh a ha
  have hfits := hsubnet.fits
  have hrng := mem_handedOut hv4 (k := k) (by omega) (by omega) ha
  refine ⟨hsubnet.mem a (by omega) (by omega), ?_⟩
  intro hmem
  have hlt := hown a hmem
  omega

theorem netbitsToNetmask_inj {m n : Nat} (hm : m ≤ 32) (hn : n ≤ 32)
    (h : netbitsToNetmask m = netbitsToNetmask n) : m = n := by
  have hall : ∀ m < 33, ∀ n < 33, netbitsToNetmask m = netbitsToNetmask n → m = n := by decide
  exact hall m (lt_succ_of_le hm) n (lt_succ_of_le hn) h

theorem mem_serverAddrs {o o' : ServerOptions} {start stop remote : InAddr}
    (hset : PoolSet o o' start stop remote) {a : InAddr} (ha : a ∈ serverAddrs o') :
    a = o.serverNetwork + 1 ∨
      (o'.topology = .net30 ∨ o'.topology = .p2p) ∧ o'.dev = .tun ∧ a = remote := by
  obtain ⟨hlocal, hrem⟩ := hset.addrs
  unfold serverAddrs at ha
  rw [hlocal, hrem, mem_append] at ha
  rcases ha with ha | ha
  · exact .inl (mem_singleton.mp ha)
  · split at ha
    case isTrue hp2p => exact .inr ⟨hp2p.2, hp2p.1, mem_singleton.mp ha⟩
    case isFalse => cases ha

section Ranges

variable {o o' : ServerOptions} {size : Nat}
  (hsubnet : Subnet o.serverNetwork o.serverNetmask size) (hsize : size ≤ 65536)

include hsubnet in
theorem network_add_toNat {j : Nat} (hj : j < size) :
    (o.serverNetwork + BitVec.ofNat 32 j).toNat = o.serverNetwork.toNat + j := by
  have hfits := hsubnet.fits
  rw [toNat_add, toNat_ofNat]
  omega

include hsubnet in
theorem last_sub_toNat {j : Nat} (hj : j < size) :
    ((o.serverNetwork ||| ~~~o.serverNetmask) - BitVec.ofNat 32 j).toNat =
      o.serverNetwork.toNat + (size - 1 - j) := by
  have hfits := hsubnet.fits
  rw [toNat_sub, hsubnet.last, toNat_ofNat]
  omega

section Handles

variable {start stop remote : InAddr} {i r k : Nat} {type : PoolType}
  (hr : i + type.width * k + r = size) (hi : i % type.width = 0) (hk : 0 < k)

include hsubnet hsize hr hi hk in
/-- `i` addresses are left free at the start and `r` at the end. -/
theorem poolIpv4_range :
    poolIpv4 type (o.serverNetwork + BitVec.ofNat 32 i)
        ((o.serverNetwork ||| ~~~o.serverNetmask) - BitVec.ofNat 32 r) =
      (o.serverNetwork + BitVec.ofNat 32 i, (k : Int)) := by
  have hpos : 0 < type.width * k := mul_pos (by cases type <;> decide) hk
  have hstart := network_add_toNat hsubnet (j := i) (by omega)
  have hstop := last_sub_toNat hsubnet (j := r) (by omega)
  cases type with
  | indiv =>
    simp only [PoolType.width] at hr
    rw [poolIpv4_indiv (d := k - 1) (by omega) (by omega), Nat.sub_add_cancel hk]
  | net30 =>
    have hbase : o.serverNetwork.toNat % 4 = 0 := by
      have hdvd : 4 ∣ size := dvd_of_mod_eq_zero hsubnet.aligned
      rw [← mod_mod_of_dvd _ hdvd, hsubnet.base]
    simp only [PoolType.width] at hr hi
    exact poolIpv4_net30 (by omega) (by omega) (by omega)

include hsubnet in
theorem serverAddrs_lt (hset : PoolSet o o' start stop remote) (hlg : 1 < i) (hlt : i < size)
    (hrem : o'.topology = .net30 ∨ o'.topology = .p2p → o'.dev = .tun →
      remote.toNat < o.serverNetwork.toNat + i) :
    ∀ a ∈ serverAddrs o', a.toNat < (o.serverNetwork + BitVec.ofNat 32 i).toNat := by
  intro a ha
  rw [network_add_toNat hsubnet hlt]
  rcases mem_serverAddrs hset ha with rfl | ⟨hp2p, htun, rfl⟩
  · have hone := network_add_toNat hsubnet (j := 1) (by omega)
    exact hone.trans_lt (by omega)
  · exact hrem hp2p htun

include hsubnet hsize hr hi hk in
/-- The pool serves the network iff it has at least two handles. -/
theorem serverPool_iff
    (hset : PoolSet o o' (o.serverNetwork + BitVec.ofNat 32 i)
      ((o.serverNetwork ||| ~~~o.serverNetmask) - BitVec.ofNat 32 r) remote)
    (htype : (if o'.dev = .tun ∧ o'.topology = .net30 then PoolType.net30 else .indiv) = type)
    (hown : ∀ a ∈ serverAddrs o', a.toNat < (o.serverNetwork + BitVec.ofNat 32 i).toNat)
    (duplicateCn : Bool) {ipv6Pool : Bool} {ipv6Base : In6Addr} {netbits : Nat}
    (hipv6 : ipv6Pool = true → 2 ≤ (poolIpv6 ipv6Base netbits).2) :
    (∃ pool, serverPool o' duplicateCn ipv6Pool ipv6Base netbits = some pool ∧
      PoolServes o' pool) ↔ 2 ≤ k := by
  have hv4 := poolIpv4_range hsubnet hsize hr hi hk
  have hpos : 0 < type.width * k := mul_pos (by cases type <;> decide) hk
  have hstart := network_add_toNat hsubnet (j := i) (by omega)
  obtain ⟨⟨hnet, hmask, -⟩, hpool, hver, ⟨hpstart, hpstop⟩, -⟩ := hset
  unfold serverPool
  rw [hpool, htype, hpstart, hpstop]
  constructor
  · intro ⟨pool, hsome, _⟩
    by_contra hsm
    rw [ifconfigPoolInit_small duplicateCn (by rw [hv4]; dsimp only; omega)] at hsome
    cases hsome
  · intro hlg
    have htwo : 2 ≤ (poolIpv4 type _ _).2 := (congrArg snd hv4).ge.trans' (by omega)
    obtain ⟨pool, hsome, hipv4, hlen⟩ := ifconfigPoolInit_large hver duplicateCn htwo hipv6
    rw [hv4] at hipv4 hlen
    rw [← hnet, ← hmask] at hsubnet
    have hsame := congrArg BitVec.toNat hnet
    refine ⟨pool, hsome, poolServes_of_range hsubnet hipv4 (Int.ofNat_le.mp hlen) ?_ ?_ hown⟩
    all_goals
      rw [hstart, hsame]
      omega

end Handles

end Ranges

/-- **The server directive.** For every network it accepts, the pool is set up and serves
the network, unless the pool would have a single handle: a /29 with `net30` or a /30 with
an Ethernet device. -/
theorem server_pool_usable_iff {o o' : ServerOptions} (hpool : o.nopool = false)
    (h : helperServer o = some o') (duplicateCn : Bool) {ipv6Pool : Bool} {ipv6Base : In6Addr}
    {netbits : Nat} (hipv6 : ipv6Pool = true → 2 ≤ (poolIpv6 ipv6Base netbits).2) :
    (∃ pool, serverPool o' duplicateCn ipv6Pool ipv6Base netbits = some pool ∧
        PoolServes o' pool) ↔
      ¬(o.dev = .tun ∧ o.topology = .net30 ∧ o.serverNetmask = netbitsToNetmask 29) ∧
        ¬(o.dev = .tap ∧ o.serverNetmask = netbitsToNetmask 30) := by
  obtain ⟨n, hn, hmask, hnet, hrange⟩ := helperServer_rangeSet hpool h
  have hle30 : n ≤ 30 := by
    rcases hrange with ⟨-, hle, -⟩ | ⟨⟨-, hle, -⟩ | ⟨-, hle⟩, -⟩ <;> omega
  have hsubnet : Subnet o.serverNetwork o.serverNetmask (2 ^ (32 - n)) := by
    rw [hmask]
    rw [hmask] at hnet
    exact subnet_of_netbits hle30 hnet
  have hsixteen : 2 ^ (32 - n) ≤ 2 ^ 16 := Nat.pow_le_pow_right (by decide) (by omega)
  have hdev' : o'.dev = o.dev := by
    rcases hrange with ⟨-, -, -, -, hset⟩ | ⟨-, hset⟩ <;> exact hset.same.2.2
  have heq : ∀ m ≤ 30, o.serverNetmask = netbitsToNetmask m ↔ n = m := by
    intro m hm
    rw [hmask]
    exact ⟨netbitsToNetmask_inj (by omega) (by omega), congrArg _⟩
  rw [heq 29 (by decide), heq 30 (by decide)]
  rcases hrange with ⟨htun, hle, htop', hp2p, hset⟩ | ⟨hdev, hset⟩
  · -- with 8 addresses nothing is left free at the end, else 4 addresses
    have hno30 : ¬(o.dev = .tap ∧ n = 30) := by
      intro htap
      omega
    have hbig : 2 ^ 3 ≤ 2 ^ (32 - n) := Nat.pow_le_pow_right (by decide) (by omega)
    have hown := serverAddrs_lt (i := 4) hsubnet hset (by decide) (by omega) fun _ _ => by
      have htwo := network_add_toNat hsubnet (j := 2) (by omega)
      exact htwo.trans_lt (by omega)
    obtain ⟨type, htype⟩ : ∃ type,
        (if o'.dev = .tun ∧ o'.topology = .net30 then PoolType.net30 else .indiv) = type := ⟨_, rfl⟩
    have hnet30 : o.topology = .net30 ↔ type = .net30 := by
      rw [← htype, hdev', htun, htop']
      revert hp2p
      cases o.topology <;> simp [Topology.server]
    rw [hnet30]
    by_cases h29 : n = 29
    · subst h29
      rw [serverPool_iff (k := 4 / type.width) hsubnet hsixteen (by cases type <;> rfl)
        (by cases type <;> rfl) (by cases type <;> decide) hset htype hown _ hipv6]
      cases type <;> simp [htun, PoolType.width]
    · have hfour := size_of_netbits hle30
      have hbig : 2 ^ 2 ≤ 2 ^ (30 - n) := Nat.pow_le_pow_right (by decide) (by omega)
      obtain ⟨k, hcount, hlarge⟩ : ∃ k, 4 + type.width * k + 4 = 2 ^ (32 - n) ∧ 2 ≤ k := by
        refine ⟨(2 ^ (32 - n) - 8) / type.width, ?_⟩
        cases type <;> simp only [PoolType.width] <;> omega
      rw [if_neg h29] at hset
      rw [serverPool_iff hsubnet hsixteen hcount (by cases type <;> rfl) (by omega) hset htype hown
        _ hipv6]
      exact iff_of_true hlarge ⟨fun hbad => h29 hbad.2.2, hno30⟩
  · have htop : o'.dev = .tap ∨ o'.topology = .subnet := by
      rcases hdev with ⟨-, -, htop, -⟩ | ⟨htap, -⟩
      · exact .inr htop
      · exact .inl (hdev'.trans htap)
    have hpos := hsubnet.pos
    have hsub : o'.dev = .tun → o'.topology = .subnet := by
      intro htun
      exact htop.resolve_left (htun ▸ nofun)
    have hindiv : ¬(o'.dev = .tun ∧ o'.topology = .net30) := by
      rintro ⟨htun, hnet30⟩
      cases hnet30.symm.trans (hsub htun)
    -- the mask of the network is not an address of the server
    have hown := serverAddrs_lt (i := 2) hsubnet hset (by decide) (by omega) fun hp2p htun =>
      absurd hp2p (by rw [hsub htun]; decide)
    rw [serverPool_iff (k := 2 ^ (32 - n) - 3) hsubnet hsixteen
      (by simp only [PoolType.width]; omega) rfl (by omega) hset (if_neg hindiv) hown
      _ hipv6]
    rcases hdev with ⟨htun, hle, -, hsub⟩ | ⟨htap, -⟩
    · have hbig : 2 ^ 3 ≤ 2 ^ (32 - n) := Nat.pow_le_pow_right (by decide) (by omega)
      refine iff_of_true (by omega) ⟨?_, fun hbad => by omega⟩
      intro hbad
      rw [hbad.2.1] at hsub
      cases hsub
    · have hnotun : ¬(o.dev = .tun ∧ o.topology = .net30 ∧ n = 29) := by
        intro hbad
        rw [htap] at hbad
        cases hbad.1
      by_cases h30 : n = 30
      · subst h30
        exact iff_of_false (by decide) fun hgood => hgood.2 ⟨htap, rfl⟩
      · have hbig : 2 ^ 3 ≤ 2 ^ (32 - n) := Nat.pow_le_pow_right (by decide) (by omega)
        exact iff_of_true (by omega) ⟨hnotun, fun hbad => h30 hbad.2⟩

/-- A server for 10.8.0.0 with the given device, topology and netmask, and no other option. -/
def serverOptions (dev : DevType) (topology : Topology) (netmask : InAddr) : ServerOptions where
  dev := dev
  client := false
  serverBridgeDefined := false
  serverBridgeProxyDhcp := false
  sharedSecretFile := false
  enableC2c := false
  serverNetwork := 0x0A080000#32
  serverNetmask := netmask
  nopool := false
  modeServer := false
  tlsServer := false
  topology := topology
  ifconfigLocal := none
  ifconfigRemoteNetmask := none
  ifconfigPoolDefined := false
  ifconfigPoolStart := 0#32
  ifconfigPoolEnd := 0#32
  ifconfigPoolNetmask := 0#32
  routes := []
  routeDefaultGateway := none
  pushList := []
  pushIfconfigConstraint := none

theorem server_pool_usable_24 :
    ∃ o', helperServer (serverOptions .tun .net30 0xFFFFFF00#32) = some o' ∧
      ∃ pool, serverPool o' false false ⟨replicate 16 0, rfl⟩ 64 = some pool ∧
        PoolServes o' pool := by
  have hsome : (helperServer (serverOptions .tun .net30 0xFFFFFF00#32)).isSome = true := by decide
  obtain ⟨o', ho'⟩ := isSome_iff_exists.mp hsome
  exact ⟨o', ho', (server_pool_usable_iff rfl ho' false (fun h => by cases h)).mpr (by decide)⟩

/-- 10.8.0.0/29 with topology `net30`, and 10.8.0.0/30 with an Ethernet device: the directive
accepts the network, and the pool is too small. -/
theorem server_pool_too_small :
    ((helperServer (serverOptions .tun .net30 0xFFFFFFF8#32)).map fun o' =>
        serverPool o' false false ⟨replicate 16 0, rfl⟩ 64) = some none ∧
      ((helperServer (serverOptions .tap .undef 0xFFFFFFFC#32)).map fun o' =>
        serverPool o' false false ⟨replicate 16 0, rfl⟩ 64) = some none := by
  decide

end OpenVpn
