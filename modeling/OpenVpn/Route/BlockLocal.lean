import OpenVpn.Server.Address

/-!
# Blocking the local networks (`route.c`)

With `block-local`, the networks of the interface that has the default gateway are
routed into the tunnel: each of them is split into two halves, whose routes are more
specific than the one of the network itself.

* `RouteIpv4`, `RouteList` — the routes, and the fields the two functions look at.
* `addBlockLocalItem`, `addBlockLocalRoutes` — the two functions.
* `blockHalf` — the halves of a network; `covers_halves_iff` says that they are.
* `block_local_exact_iff` — when the routes are exactly the halves of the networks.
-/

namespace OpenVpn

open List Bool Nat

def N_ROUTE_BYPASS : Nat := 8

structure RouteGatewayAddress where
  addr : InAddr
  netmask : InAddr
  deriving DecidableEq

/-- `struct route_gateway_info`: the gateway and the addresses of its interface. -/
structure RouteGatewayInfo where
  gateway : RouteGatewayAddress
  addrs : List RouteGatewayAddress
  deriving DecidableEq

structure RouteSpecialAddr where
  remoteEndpoint : InAddr
  bypass : List InAddr
  deriving DecidableEq

/-- `struct route_ipv4`; the metric is there if `RT_METRIC_DEFINED` is set. -/
structure RouteIpv4 where
  defined : Bool
  added : Bool
  network : InAddr
  netmask : InAddr
  gateway : InAddr
  metric : Option Int
  deriving DecidableEq

structure RouteList where
  spec : RouteSpecialAddr
  rgi : RouteGatewayInfo
  routes : List RouteIpv4
  deriving DecidableEq

def addBypassAddress (bypass : List InAddr) (a : InAddr) : List InAddr × Bool :=
  if a ∈ bypass then (bypass, true)
  else if bypass.length < N_ROUTE_BYPASS then (bypass ++ [a], true)
  else (bypass, false)

def addBlockLocalItem (rl : RouteList) (gateway : RouteGatewayAddress) (target : InAddr) :
    RouteList :=
  if rl.rgi.gateway.netmask < 0xFFFFFFFF#32 then
    let l2 := (~~~gateway.netmask + 1) >>> 1
    let r1 : RouteIpv4 :=
      { defined := true
        added := false
        network := gateway.addr &&& gateway.netmask
        netmask := ~~~(l2 - 1)
        gateway := target
        metric := none }
    let r2 := { r1 with network := r1.network + l2 }
    { rl with routes := r2 :: r1 :: rl.routes }
  else rl

/-- The address belongs to the network of the gateway, which is processed already. -/
def sameSubnet (rgi : RouteGatewayInfo) (gwa : RouteGatewayAddress) : Bool :=
  rgi.gateway.addr &&& rgi.gateway.netmask == gwa.addr &&& gwa.netmask &&
    rgi.gateway.netmask == gwa.netmask

/-- The networks of the interface, from the one of the gateway on. -/
def blockInterface (rl : RouteList) : RouteList :=
  rl.rgi.addrs.foldl (fun acc gwa =>
    if sameSubnet rl.rgi gwa then acc else addBlockLocalItem acc gwa rl.spec.remoteEndpoint)
    (addBlockLocalItem rl rl.rgi.gateway rl.spec.remoteEndpoint)

def addBlockLocalRoutes (rl : RouteList) : RouteList :=
  blockInterface { rl with
    spec := { rl.spec with bypass := (addBypassAddress rl.spec.bypass rl.rgi.gateway.addr).1 } }

/-! ## Networks and their halves -/

def RouteGatewayAddress.Contains (g : RouteGatewayAddress) (a : InAddr) : Prop :=
  a &&& g.netmask = g.addr &&& g.netmask

def RouteIpv4.Covers (r : RouteIpv4) (a : InAddr) : Prop := a &&& r.netmask = r.network

/-- One half of a network of `n` bits, as a route to `target`. -/
def blockHalf (g : RouteGatewayAddress) (n : Nat) (target : InAddr) (upper : Bool) : RouteIpv4 where
  defined := true
  added := false
  network := g.addr &&& netbitsToNetmask n ||| if upper then BitVec.twoPow 32 (31 - n) else 0#32
  netmask := netbitsToNetmask (n + 1)
  gateway := target
  metric := none

variable {n : Nat}

theorem netmask_split (hn : 0 < n ∧ n < 32) :
    (~~~netbitsToNetmask n + 1) >>> 1 = BitVec.twoPow 32 (31 - n) ∧
      ~~~(BitVec.twoPow 32 (31 - n) - 1) = netbitsToNetmask (n + 1) := by
  obtain ⟨hpos, hlt⟩ := hn
  revert hpos
  revert n
  decide

theorem netmask_succ (hn : n < 32) :
    netbitsToNetmask (n + 1) = netbitsToNetmask n ||| BitVec.twoPow 32 (31 - n) ∧
      netbitsToNetmask n &&& BitVec.twoPow 32 (31 - n) = 0#32 ∧ netbitsToNetmask (n + 1) ≠ 0#32 ∧
      netbitsToNetmask n ≠ 0xFFFFFFFF#32 := by
  revert n
  decide

theorem and_or_twoPow_iff {m x a : BitVec 32} {k : Nat} (hx : x &&& m = x)
    (hm : m &&& BitVec.twoPow 32 k = 0#32) :
    (a &&& (m ||| BitVec.twoPow 32 k) = x ∨
        a &&& (m ||| BitVec.twoPow 32 k) = x ||| BitVec.twoPow 32 k) ↔ a &&& m = x := by
  have hkeep : a &&& (m ||| BitVec.twoPow 32 k) &&& m = a &&& m := by
    rw [BitVec.and_assoc, BitVec.and_or_distrib_right, BitVec.and_self,
      BitVec.and_comm (BitVec.twoPow 32 k), hm, BitVec.or_zero]
  constructor
  · intro h
    rcases h with h | h
    · rw [← hkeep, h, hx]
    · rw [← hkeep, h, BitVec.and_or_distrib_right, hx, BitVec.and_comm (BitVec.twoPow 32 k), hm,
        BitVec.or_zero]
  · intro h
    rw [BitVec.and_or_distrib_left, h, BitVec.and_twoPow]
    split
    · exact .inr rfl
    · exact .inl (BitVec.or_zero)

variable {g : RouteGatewayAddress}

variable {target : InAddr}

/-- **The halves** of a network cover exactly the network. -/
theorem covers_halves_iff (hn : n < 32) (hg : g.netmask = netbitsToNetmask n) {a : InAddr} :
    (∃ upper, (blockHalf g n target upper).Covers a) ↔ g.Contains a := by
  obtain ⟨hsucc, hbit, -⟩ := netmask_succ hn
  have hx : g.addr &&& netbitsToNetmask n &&& netbitsToNetmask n =
      g.addr &&& netbitsToNetmask n := by
    rw [BitVec.and_assoc, BitVec.and_self]
  unfold RouteGatewayAddress.Contains RouteIpv4.Covers
  rw [hg, ← and_or_twoPow_iff hx hbit, ← hsucc]
  constructor
  · intro ⟨upper, hcov⟩
    cases upper with
    | false => exact .inl (hcov.trans BitVec.or_zero)
    | true => exact .inr hcov
  · intro h
    rcases h with h | h
    · exact ⟨false, h.trans BitVec.or_zero.symm⟩
    · exact ⟨true, h⟩

/-! ## The routes that are added -/

/-- The routes of `add_block_local_item`. -/
def splitRoute (g : RouteGatewayAddress) (target : InAddr) (upper : Bool) : RouteIpv4 where
  defined := true
  added := false
  network := (g.addr &&& g.netmask) + if upper then (~~~g.netmask + 1) >>> 1 else 0#32
  netmask := ~~~((~~~g.netmask + 1) >>> 1 - 1)
  gateway := target
  metric := none

@[simp] theorem addBlockLocalItem_rgi (rl : RouteList) (g : RouteGatewayAddress)
    (target : InAddr) : (addBlockLocalItem rl g target).rgi = rl.rgi := by
  unfold addBlockLocalItem
  split
  · rfl
  · rfl

theorem addBlockLocalItem_routes (rl : RouteList) (g : RouteGatewayAddress) (target : InAddr) :
    (addBlockLocalItem rl g target).routes =
      (if rl.rgi.gateway.netmask < 0xFFFFFFFF#32 then
        [splitRoute g target true, splitRoute g target false] else []) ++ rl.routes := by
  unfold addBlockLocalItem splitRoute
  split
  · simp only [if_neg Bool.false_ne_true, BitVec.add_zero]
    rfl
  · rfl

/-- Everything `add_block_local_routes` adds. -/
def blockRoutes (rl : RouteList) : List RouteIpv4 :=
  if rl.rgi.gateway.netmask < 0xFFFFFFFF#32 then
    (rl.rgi.gateway :: rl.rgi.addrs.filter (!sameSubnet rl.rgi ·)).reverse.flatMap fun g =>
      [splitRoute g rl.spec.remoteEndpoint true, splitRoute g rl.spec.remoteEndpoint false]
  else []

theorem foldl_addBlockLocalItem {rgi : RouteGatewayInfo} {addrs : List RouteGatewayAddress} :
    ∀ acc : RouteList, acc.rgi = rgi →
      (addrs.foldl (fun acc gwa =>
        if sameSubnet rgi gwa then acc else addBlockLocalItem acc gwa target) acc).routes =
        (if rgi.gateway.netmask < 0xFFFFFFFF#32 then
          (addrs.filter (!sameSubnet rgi ·)).reverse.flatMap fun g =>
            [splitRoute g target true, splitRoute g target false] else []) ++ acc.routes := by
  induction addrs with
  | nil =>
    intro acc _
    show acc.routes = _
    split
    · rfl
    · rfl
  | cons gwa addrs ih =>
    intro acc hacc
    rw [foldl_cons]
    cases hsame : sameSubnet rgi gwa with
    | true =>
      rw [if_pos rfl, ih acc hacc, filter_cons_of_neg (by simp [hsame])]
    | false =>
      have hrgi : (addBlockLocalItem acc gwa target).rgi = rgi := by
        rw [addBlockLocalItem_rgi, hacc]
      rw [if_neg Bool.false_ne_true, ih _ hrgi, addBlockLocalItem_routes, hacc,
        filter_cons_of_pos (by simp [hsame])]
      split
      · rw [reverse_cons, flatMap_append, append_assoc]
        rfl
      · rfl

theorem blockInterface_routes {rl : RouteList} :
    (blockInterface rl).routes = blockRoutes rl ++ rl.routes := by
  unfold blockInterface blockRoutes
  rw [foldl_addBlockLocalItem _ (addBlockLocalItem_rgi ..), addBlockLocalItem_routes]
  split
  · rw [reverse_cons, flatMap_append, append_assoc]
    rfl
  · rfl

def RouteGatewayInfo.networks (rgi : RouteGatewayInfo) : List RouteGatewayAddress :=
  rgi.gateway :: rgi.addrs

/-- The routes are the halves of the networks with more than one address, and cover
exactly these. -/
def BlocksExactly (rgi : RouteGatewayInfo) (target : InAddr) (routes : List RouteIpv4) : Prop :=
  (∀ r, r ∈ routes ↔ ∃ g ∈ rgi.networks, ∃ n < 32, g.netmask = netbitsToNetmask n ∧
      ∃ upper, r = blockHalf g n target upper) ∧
    ∀ a, (∃ r ∈ routes, r.Covers a) ↔
      ∃ g ∈ rgi.networks, g.netmask ≠ 0xFFFFFFFF#32 ∧ g.Contains a

def RouteGatewayInfo.Contiguous (rgi : RouteGatewayInfo) : Prop :=
  ∀ g ∈ rgi.networks, ∃ n ≤ 32, g.netmask = netbitsToNetmask n

theorem splitRoute_eq (hn : 0 < n ∧ n < 32) (hg : g.netmask = netbitsToNetmask n) {upper : Bool} :
    splitRoute g target upper = blockHalf g n target upper := by
  obtain ⟨hl2, hmask⟩ := netmask_split hn
  have hdj : g.addr &&& netbitsToNetmask n &&& BitVec.twoPow 32 (31 - n) = 0#32 := by
    rw [BitVec.and_assoc, (netmask_succ hn.2).2.1, BitVec.and_zero]
  unfold splitRoute blockHalf
  rw [hg, hl2, hmask]
  cases upper with
  | false => rw [if_neg Bool.false_ne_true, BitVec.add_zero, BitVec.or_zero]
  | true => rw [if_pos rfl, BitVec.add_eq_or_of_and_eq_zero _ _ hdj]

theorem splitRoute_netmask_zero (hg : g.netmask = 0#32 ∨ g.netmask = 0xFFFFFFFF#32)
    (target : InAddr) (upper : Bool) : (splitRoute g target upper).netmask = 0#32 := by
  show ~~~(((~~~g.netmask + 1) >>> 1) - 1) = 0#32
  rcases hg with hg | hg
  · rw [hg]
    rfl
  · rw [hg]
    rfl

variable {rl : RouteList}

theorem mem_blockRoutes (hgw : rl.rgi.gateway.netmask < 0xFFFFFFFF#32) {r : RouteIpv4} :
    r ∈ blockRoutes rl ↔
      ∃ g, (g ∈ rl.rgi.addrs ∧ sameSubnet rl.rgi g = false ∨ g = rl.rgi.gateway) ∧
      ∃ upper, r = splitRoute g rl.spec.remoteEndpoint upper := by
  unfold blockRoutes
  rw [if_pos hgw, mem_flatMap]
  constructor
  · intro ⟨g, hg, hr⟩
    refine ⟨g, by simpa using hg, ?_⟩
    rcases mem_cons.mp hr with hr | hr
    · exact ⟨true, hr⟩
    · exact ⟨false, mem_singleton.mp hr⟩
  · intro ⟨g, hg, upper, hr⟩
    refine ⟨g, by simpa using hg, ?_⟩
    cases upper with
    | true => exact hr ▸ mem_cons_self
    | false => exact hr ▸ mem_cons_of_mem _ mem_cons_self

variable {rgi : RouteGatewayInfo}

theorem blockHalf_of_sameSubnet (h : sameSubnet rgi g = true) (hg : g.netmask = netbitsToNetmask n)
    (target : InAddr) (upper : Bool) :
    blockHalf g n target upper = blockHalf rgi.gateway n target upper := by
  obtain ⟨hnet, hmask⟩ := and_eq_true_iff.mp h
  have hnet := beq_iff_eq.mp hnet
  rw [beq_iff_eq.mp hmask, hg] at hnet
  unfold blockHalf
  rw [hnet]

theorem netbits_lt (hn : n ≤ 32) (hg : g.netmask = netbitsToNetmask n)
    (hwide : g.netmask ≠ 0xFFFFFFFF#32) : n < 32 := by
  apply lt_of_le_of_ne hn
  intro hhost
  exact hwide (by rw [hg, hhost]; rfl)

theorem blocksExactly_of_mem {routes : List RouteIpv4} (hmask : rgi.Contiguous)
    (h : ∀ r, r ∈ routes ↔ ∃ g ∈ rgi.networks, ∃ n < 32, g.netmask = netbitsToNetmask n ∧
      ∃ upper, r = blockHalf g n target upper) : BlocksExactly rgi target routes := by
  refine ⟨h, ?_⟩
  intro a
  constructor
  · intro ⟨r, hr, hcov⟩
    obtain ⟨g, hg, n, hn, hgn, upper, rfl⟩ := (h r).mp hr
    refine ⟨g, hg, ?_, (covers_halves_iff hn hgn).mp ⟨upper, hcov⟩⟩
    rw [hgn]
    exact (netmask_succ hn).2.2.2
  · intro ⟨g, hg, hwide, hcontains⟩
    obtain ⟨n, hn, hgn⟩ := hmask g hg
    have hlt := netbits_lt hn hgn hwide
    obtain ⟨upper, hcov⟩ := (covers_halves_iff hlt hgn).mpr hcontains
    exact ⟨_, (h _).mpr ⟨g, hg, n, hlt, hgn, upper, rfl⟩, hcov⟩

/-- The mask is neither the one of a single address nor the one of everything. -/
def RouteGatewayAddress.Splits (g : RouteGatewayAddress) : Prop :=
  g.netmask ≠ 0#32 ∧ g.netmask ≠ 0xFFFFFFFF#32

instance (g : RouteGatewayAddress) : Decidable g.Splits :=
  inferInstanceAs (Decidable (_ ∧ _))

theorem RouteGatewayAddress.Splits.netbits (h : g.Splits) (hn : n ≤ 32)
    (hg : g.netmask = netbitsToNetmask n) : 0 < n ∧ n < 32 := by
  refine ⟨pos_of_ne_zero ?_, netbits_lt hn hg h.2⟩
  intro hzero
  exact h.1 (by rw [hg, hzero]; rfl)

theorem netmask_lt_iff {m : BitVec 32} : m < 0xFFFFFFFF#32 ↔ m ≠ 0xFFFFFFFF#32 := by
  bv_omega

theorem not_blocksExactly_of_mem {routes : List RouteIpv4} (hg : ¬g.Splits)
    (hmem : splitRoute g target false ∈ routes) : ¬BlocksExactly rgi target routes := by
  intro h
  have hzero : g.netmask = 0#32 ∨ g.netmask = 0xFFFFFFFF#32 := by
    unfold RouteGatewayAddress.Splits at hg
    tauto
  obtain ⟨g', -, n, hn, -, upper, heq⟩ := (h.1 _).mp hmem
  have hmask := congrArg RouteIpv4.netmask heq
  rw [splitRoute_netmask_zero hzero] at hmask
  exact (netmask_succ hn).2.2.1 hmask.symm

theorem mem_blockRoutes_of_splits (hmask : rl.rgi.Contiguous)
    (hall : ∀ g ∈ rl.rgi.networks, g.Splits) (r : RouteIpv4) :
    r ∈ blockRoutes rl ↔ ∃ g ∈ rl.rgi.networks, ∃ n < 32, g.netmask = netbitsToNetmask n ∧
      ∃ upper, r = blockHalf g n rl.spec.remoteEndpoint upper := by
  have hgw : rl.rgi.gateway.netmask < 0xFFFFFFFF#32 :=
    netmask_lt_iff.mpr (hall _ mem_cons_self).2
  rw [mem_blockRoutes hgw]
  constructor
  · intro ⟨g, hg, upper, hr⟩
    have hmem : g ∈ rl.rgi.networks := by
      rcases hg with hg | hg
      · exact mem_cons_of_mem _ hg.1
      · exact hg ▸ mem_cons_self
    obtain ⟨n, hn, hgn⟩ := hmask g hmem
    have hrng := (hall g hmem).netbits hn hgn
    exact ⟨g, hmem, n, hrng.2, hgn, upper, hr.trans (splitRoute_eq hrng hgn)⟩
  · intro ⟨g, hmem, n, hn, hgn, upper, hr⟩
    have hrng := (hall g hmem).netbits (le_of_lt hn) hgn
    cases hsame : sameSubnet rl.rgi g with
    | true =>
      -- the routes of this network are the ones of the gateway
      have hgwn : rl.rgi.gateway.netmask = netbitsToNetmask n :=
        (beq_iff_eq.mp (and_eq_true_iff.mp hsame).2).trans hgn
      refine ⟨rl.rgi.gateway, .inr rfl, upper, ?_⟩
      rw [hr, blockHalf_of_sameSubnet hsame hgn, splitRoute_eq hrng hgwn]
    | false =>
      refine ⟨g, ?_, upper, hr.trans (splitRoute_eq hrng hgn).symm⟩
      rcases mem_cons.mp hmem with heq | haddr
      · exact .inr heq
      · exact .inl ⟨haddr, hsame⟩

theorem exists_mem_blockRoutes (hgw : rl.rgi.gateway.netmask < 0xFFFFFFFF#32)
    (hg : g ∈ rl.rgi.networks) (hsplits : ¬g.Splits) :
    ∃ g' : RouteGatewayAddress, ¬g'.Splits ∧
      splitRoute g' rl.spec.remoteEndpoint false ∈ blockRoutes rl := by
  have hgateway : splitRoute rl.rgi.gateway rl.spec.remoteEndpoint false ∈ blockRoutes rl :=
    (mem_blockRoutes hgw).mpr ⟨_, .inr rfl, false, rfl⟩
  rcases mem_cons.mp hg with heq | haddr
  · exact ⟨rl.rgi.gateway, heq ▸ hsplits, hgateway⟩
  · cases hsame : sameSubnet rl.rgi g with
    | false => exact ⟨g, hsplits, (mem_blockRoutes hgw).mpr ⟨g, .inl ⟨haddr, hsame⟩, false, rfl⟩⟩
    | true =>
      refine ⟨rl.rgi.gateway, ?_, hgateway⟩
      unfold RouteGatewayAddress.Splits at hsplits ⊢
      rwa [beq_iff_eq.mp (and_eq_true_iff.mp hsame).2]

theorem blocksExactly_nil_iff (hmask : rgi.Contiguous) (target : InAddr) :
    BlocksExactly rgi target [] ↔ ∀ g ∈ rgi.networks, g.netmask = 0xFFFFFFFF#32 := by
  constructor
  · intro h g hg
    by_contra hwide
    obtain ⟨n, hn, hgn⟩ := hmask g hg
    have hlt := netbits_lt hn hgn hwide
    exact not_mem_nil ((h.1 _).mpr ⟨g, hg, n, hlt, hgn, true, rfl⟩)
  · intro h
    apply blocksExactly_of_mem hmask
    intro r
    constructor
    · intro hr
      exact absurd hr not_mem_nil
    · intro ⟨g, hg, n, hn, hgn, _⟩
      exact absurd (hgn ▸ h g hg) (netmask_succ hn).2.2.2

/-- **Blocking.** The routes added are the halves of the networks with more than one
address iff all masks split, or none has more than one address. -/
theorem block_local_exact_iff (rl : RouteList) (hmask : rl.rgi.Contiguous) :
    ∃ added, (addBlockLocalRoutes rl).routes = added ++ rl.routes ∧
      (BlocksExactly rl.rgi rl.spec.remoteEndpoint added ↔
        (∀ g ∈ rl.rgi.networks, g.Splits) ∨ ∀ g ∈ rl.rgi.networks, g.netmask = 0xFFFFFFFF#32) := by
  refine ⟨blockRoutes rl, blockInterface_routes, ?_⟩
  by_cases hgw : rl.rgi.gateway.netmask < 0xFFFFFFFF#32
  · constructor
    · intro h
      refine .inl fun g hg => ?_
      by_contra hsplits
      obtain ⟨g', hg', hmem⟩ := exists_mem_blockRoutes hgw hg hsplits
      exact not_blocksExactly_of_mem hg' hmem h
    · intro h
      rcases h with h | h
      · exact blocksExactly_of_mem hmask (mem_blockRoutes_of_splits hmask h)
      · exact absurd (h _ mem_cons_self) (netmask_lt_iff.mp hgw)
  · have hnone : blockRoutes rl = [] := if_neg hgw
    rw [hnone, blocksExactly_nil_iff hmask]
    constructor
    · exact .inr
    · intro h
      rcases h with h | h
      · exact absurd (netmask_lt_iff.mpr (h _ mem_cons_self).2) hgw
      · exact h

/-- The interface has the given addresses, and no route is added yet. -/
def interfaceRoutes (gateway : RouteGatewayAddress) (addrs : List RouteGatewayAddress) :
    RouteList where
  spec := { remoteEndpoint := 0x0A080001#32, bypass := [] }
  rgi := { gateway := gateway, addrs := addrs }
  routes := []

/-- 192.168.1.2/24 and 10.1.2.3/16. -/
theorem block_local_exact_two :
    ∃ added, (addBlockLocalRoutes (interfaceRoutes ⟨0xC0A80102#32, 0xFFFFFF00#32⟩
        [⟨0x0A010203#32, 0xFFFF0000#32⟩])).routes = added ++ [] ∧
      BlocksExactly (interfaceRoutes ⟨0xC0A80102#32, 0xFFFFFF00#32⟩
        [⟨0x0A010203#32, 0xFFFF0000#32⟩]).rgi 0x0A080001#32 added := by
  have hmask : (interfaceRoutes ⟨0xC0A80102#32, 0xFFFFFF00#32⟩
      [⟨0x0A010203#32, 0xFFFF0000#32⟩]).rgi.Contiguous := by
    intro g hg
    rcases mem_cons.mp hg with rfl | hg
    · exact ⟨24, by decide, rfl⟩
    · obtain rfl := mem_singleton.mp hg
      exact ⟨16, by decide, rfl⟩
  obtain ⟨added, hroutes, hiff⟩ := block_local_exact_iff _ hmask
  exact ⟨added, hroutes, hiff.mpr (.inl (by decide))⟩

/-- The gateway 10.0.0.1/32 leaves 192.168.1.2/24 reachable: the test is made on the mask of
the gateway. The other way around, 10.0.0.1/32 gets routes for everything. -/
theorem block_local_tests_gateway_mask :
    (addBlockLocalRoutes (interfaceRoutes ⟨0x0A000001#32, 0xFFFFFFFF#32⟩
        [⟨0xC0A80102#32, 0xFFFFFF00#32⟩])).routes = [] ∧
      ¬BlocksExactly (interfaceRoutes ⟨0x0A000001#32, 0xFFFFFFFF#32⟩
        [⟨0xC0A80102#32, 0xFFFFFF00#32⟩]).rgi 0x0A080001#32 [] ∧
      (addBlockLocalRoutes (interfaceRoutes ⟨0xC0A80102#32, 0xFFFFFF00#32⟩
          [⟨0x0A000001#32, 0xFFFFFFFF#32⟩])).routes.map (fun r => (r.network, r.netmask)) =
        [(0x0A000001#32, 0#32), (0x0A000001#32, 0#32),
          (0xC0A80180#32, 0xFFFFFF80#32), (0xC0A80100#32, 0xFFFFFF80#32)] := by
  refine ⟨by decide, ?_, by decide⟩
  intro h
  have hcover := (h.2 0xC0A80102#32).mpr
    ⟨⟨0xC0A80102#32, 0xFFFFFF00#32⟩, by decide, by decide, rfl⟩
  obtain ⟨r, hr, -⟩ := hcover
  exact not_mem_nil hr

end OpenVpn
