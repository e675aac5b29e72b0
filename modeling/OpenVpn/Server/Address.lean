import Mathlib.Data.List.Basic
import OpenVpn.Base.Bytes
import OpenVpn.Util.Hash

/-!
# Socket addresses and the keys made of them

`struct openvpn_sockaddr` is the union of an IPv4 and an IPv6 socket address;
`struct mroute_addr` is the key of the server's address tables.

* `mrouteExtractOpenvpnSockaddr` — the key of a socket address.
* `mrouteOps` — keys are compared by `mroute_addr_equal` and hashed over the
  bytes it compares.
* `realKey` — the key the server builds from the protocol of a socket and the
  source address of a datagram. `realKey_equal`: equal keys have the same
  protocol and the same endpoint.
* `addrPortMatch_delivered` — on addresses as a socket delivers them,
  `addr_port_match` tells endpoints apart.
-/

namespace OpenVpn

open Base List

/-- `in_addr_t`, in host byte order. -/
abbrev InAddr : Type := BitVec 32

def IPV4_NETMASK_HOST : InAddr := 0xFFFFFFFF

def netbitsToNetmask (netbits : Nat) : BitVec 32 :=
  if 0 < netbits ∧ netbits ≤ 32 then BitVec.allOnes 32 <<< (32 - netbits) else 0

/-- `sa_family`: `AF_INET`, `AF_INET6`, or any other value. -/
inductive SaFamily
  | inet
  | inet6
  | unspec
  deriving DecidableEq

inductive ProtoNum
  | none
  | udp
  | tcp
  | tcpServer
  | tcpClient
  deriving DecidableEq

def ProtoNum.num : ProtoNum → UInt8
  | .none => 0
  | .udp => 1
  | .tcp => 2
  | .tcpServer => 3
  | .tcpClient => 4

theorem ProtoNum.num_inj {p p' : ProtoNum} (h : p.num = p'.num) : p = p' := by
  revert h
  cases p <;> cases p' <;> decide

/-- `struct openvpn_sockaddr`. The fields are those of the union at their
offsets: `word` is `sin_addr` or `sin6_flowinfo`, `body` is `sin6_addr` or
`sin_zero` and what follows it, `scope` is `sin6_scope_id`. -/
structure OpenvpnSockaddr where
  saFamily : SaFamily
  port : BitVec 16
  word : BitVec 32
  body : BitVec 128
  scope : BitVec 32
  deriving DecidableEq

namespace OpenvpnSockaddr

def zero : OpenvpnSockaddr := ⟨.unspec, 0, 0, 0, 0⟩

def in4Bytes (a : OpenvpnSockaddr) : Bytes :=
  [2, 0] ++ beBytes 2 a.port.toNat ++ beBytes 4 a.word.toNat ++ (beBytes 16 a.body.toNat).take 8

def in6Bytes (a : OpenvpnSockaddr) : Bytes :=
  [10, 0] ++ beBytes 2 a.port.toNat ++ beBytes 4 a.word.toNat ++ beBytes 16 a.body.toNat ++
    beBytes 4 a.scope.toNat

/-- What `recvfrom` leaves in the union: a source address that is not the
unspecified one, and zeroes in the bytes that only the other member reads. -/
def Delivered (a : OpenvpnSockaddr) : Prop :=
  match a.saFamily with
  | .inet => a.word ≠ 0 ∧ a.body = 0
  | .inet6 => a.body ≠ 0 ∧ a.word = 0
  | .unspec => False

instance (a : OpenvpnSockaddr) : Decidable a.Delivered := by
  unfold Delivered
  split <;> infer_instance

/-- The same family, address and port. -/
def SameEndpoint (a a' : OpenvpnSockaddr) : Prop :=
  a.saFamily = a'.saFamily ∧ a.port = a'.port ∧
    match a.saFamily with
    | .inet => a.word = a'.word
    | .inet6 => a.body = a'.body
    | .unspec => True

end OpenvpnSockaddr

/-- `addr_port_match`. The second address is read through the union member of
the first one's family. -/
def addrPortMatch (a1 a2 : OpenvpnSockaddr) : Option Bool :=
  match a1.saFamily with
  | .inet => some (decide (a1.word = a2.word) && decide (a1.port = a2.port))
  | .inet6 => some (decide (a1.body = a2.body) && decide (a1.port = a2.port))
  | .unspec => none

/-! ## Keys -/

def MR_ADDR_IPV4 : UInt8 := 2
def MR_ADDR_IPV6 : UInt8 := 3
def MR_WITH_PORT : UInt8 := 4
def MR_WITH_PROTO : UInt8 := 32
def MR_MAX_ADDR_LEN : Nat := 20

structure MrouteAddr where
  len : UInt8
  proto : UInt8
  type : UInt8
  netbits : UInt8
  rawAddr : Bytes
  deriving DecidableEq

def mrouteAddrInit : MrouteAddr := ⟨0, 0, 0, 0, replicate MR_MAX_ADDR_LEN 0⟩

/-- Write over the start of `raw_addr`. -/
def MrouteAddr.setRaw (addr : MrouteAddr) (bs : Bytes) : MrouteAddr :=
  { addr with rawAddr := bs ++ addr.rawAddr.drop bs.length }

/-- The flag that says that the protocol is part of the address. -/
def MrouteAddr.withProto (addr : MrouteAddr) : UInt8 :=
  if addr.proto ≠ ProtoNum.none.num then MR_WITH_PROTO else 0

/-- `mroute_extract_openvpn_sockaddr`. The protocol is taken from what the
caller has put into `addr`. -/
def mrouteExtractOpenvpnSockaddr (addr : MrouteAddr) (osaddr : OpenvpnSockaddr) (usePort : Bool) :
    Option MrouteAddr :=
  match osaddr.saFamily with
  | .inet =>
    if usePort then
      some ({ addr with
        type := MR_ADDR_IPV4 ||| MR_WITH_PORT ||| addr.withProto, netbits := 0, len := 6 }.setRaw
          (beBytes 4 osaddr.word.toNat ++ beBytes 2 osaddr.port.toNat))
    else
      some ({ addr with type := MR_ADDR_IPV4, netbits := 0, len := 4 }.setRaw
        (beBytes 4 osaddr.word.toNat))
  | .inet6 =>
    if usePort then
      some ({ addr with
        type := MR_ADDR_IPV6 ||| MR_WITH_PORT ||| addr.withProto, netbits := 0, len := 18 }.setRaw
          (beBytes 16 osaddr.body.toNat ++ beBytes 2 osaddr.port.toNat))
    else
      some ({ addr with type := MR_ADDR_IPV6, netbits := 0, len := 16 }.setRaw
        (beBytes 16 osaddr.body.toNat))
  | .unspec => none

def mrouteAddrEqual (a1 a2 : MrouteAddr) : Bool :=
  decide (a1.type = a2.type) && decide (a1.proto = a2.proto) &&
    decide (a1.netbits = a2.netbits) && decide (a1.len = a2.len) &&
    decide (a1.rawAddr.take a1.len.toNat = a2.rawAddr.take a1.len.toNat)

/-- The `mroute_addr_hash_len` bytes from `mroute_addr_hash_ptr` on. -/
def mrouteAddrHashBytes (a : MrouteAddr) : Bytes :=
  [a.proto, a.type, a.netbits] ++ a.rawAddr.take a.len.toNat

theorem mrouteAddrEqual_iff {a1 a2 : MrouteAddr} :
    mrouteAddrEqual a1 a2 ↔ a1.type = a2.type ∧ a1.proto = a2.proto ∧ a1.netbits = a2.netbits ∧
      a1.len = a2.len ∧ a1.rawAddr.take a1.len.toNat = a2.rawAddr.take a1.len.toNat := by
  simp only [mrouteAddrEqual, Bool.and_eq_true, decide_eq_true_eq, and_assoc]

/-- `mroute_addr_compare_function` with `mroute_addr_hash_function` at an
initial value; `hashFunc` is `hash_func` there. -/
def mrouteOps (hashFunc : Bytes → BitVec 32) : HashOps MrouteAddr where
  hashFunction a := hashFunc (mrouteAddrHashBytes a)
  compareFunction := mrouteAddrEqual
  refl a := mrouteAddrEqual_iff.mpr ⟨rfl, rfl, rfl, rfl, rfl⟩
  symm h := by
    obtain ⟨ht, hp, hn, hl, hr⟩ := mrouteAddrEqual_iff.mp h
    exact mrouteAddrEqual_iff.mpr ⟨ht.symm, hp.symm, hn.symm, hl.symm, by rw [← hl, hr]⟩
  trans h h' := by
    obtain ⟨ht, hp, hn, hl, hr⟩ := mrouteAddrEqual_iff.mp h
    obtain ⟨ht', hp', hn', hl', hr'⟩ := mrouteAddrEqual_iff.mp h'
    rw [← hl] at hr'
    exact mrouteAddrEqual_iff.mpr ⟨ht.trans ht', hp.trans hp', hn.trans hn', hl.trans hl',
      hr.trans hr'⟩
  compat h := by
    obtain ⟨ht, hp, hn, hl, hr⟩ := mrouteAddrEqual_iff.mp h
    unfold mrouteAddrHashBytes
    rw [ht, hp, hn, hr, hl]

/-! ## The key of a peer -/

/-- The key for a source address: a cleared `struct mroute_addr` whose `proto`
is set and that is then filled from the socket address, with its port. -/
def realKey (proto : ProtoNum) (source : OpenvpnSockaddr) : Option MrouteAddr :=
  mrouteExtractOpenvpnSockaddr { mrouteAddrInit with proto := proto.num } source true

section

variable {p p' : ProtoNum} {a a' : OpenvpnSockaddr} {k k' : MrouteAddr}

theorem realKey_proto (h : realKey p a = some k) : k.proto = p.num := by
  unfold realKey mrouteExtractOpenvpnSockaddr at h
  split at h <;> cases h <;> rfl

theorem realKey_isSome (p' : ProtoNum) (h : realKey p a = some k) :
    ∃ k', realKey p' a = some k' := by
  unfold realKey mrouteExtractOpenvpnSockaddr at h ⊢
  split at h
  · exact ⟨_, rfl⟩
  · exact ⟨_, rfl⟩
  · cases h

theorem realKey_fields (h : realKey p a = some k) :
    (a.saFamily = .inet ∧ k.len = 6 ∧
      k.rawAddr.take 6 = beBytes 4 a.word.toNat ++ beBytes 2 a.port.toNat) ∨
    (a.saFamily = .inet6 ∧ k.len = 18 ∧
      k.rawAddr.take 18 = beBytes 16 a.body.toNat ++ beBytes 2 a.port.toNat) := by
  unfold realKey mrouteExtractOpenvpnSockaddr at h
  split at h
  · next hfam =>
      cases h
      refine .inl ⟨hfam, rfl, take_left' ?_⟩
      rw [length_append, beBytes_length, beBytes_length]
  · next hfam =>
      cases h
      refine .inr ⟨hfam, rfl, take_left' ?_⟩
      rw [length_append, beBytes_length, beBytes_length]
  · cases h

theorem beBytes_toNat_inj {w n : Nat} {x y : BitVec w} (hw : 2 ^ w = 256 ^ n)
    (h : beBytes n x.toNat = beBytes n y.toNat) : x = y :=
  BitVec.eq_of_toNat_eq (beBytes_inj (hw ▸ x.isLt) (hw ▸ y.isLt) h)

/-- Equal keys belong to the same endpoint. -/
theorem realKey_equal (h : realKey p a = some k) (h' : realKey p' a' = some k')
    (heq : mrouteAddrEqual k k') : p = p' ∧ a.SameEndpoint a' := by
  obtain ⟨_, hpr, _, hlen, hraw⟩ := mrouteAddrEqual_iff.mp heq
  refine ⟨ProtoNum.num_inj ?_, ?_⟩
  · rw [← realKey_proto h, hpr, realKey_proto h']
  rcases realKey_fields h with ⟨hfam, hl, hr⟩ | ⟨hfam, hl, hr⟩ <;>
    rcases realKey_fields h' with ⟨hfam', hl', hr'⟩ | ⟨hfam', hl', hr'⟩
  · rw [hl] at hraw
    have hbs := hr.symm.trans (hraw.trans hr')
    obtain ⟨hword, hport⟩ := append_inj hbs (by rw [beBytes_length, beBytes_length])
    refine ⟨hfam.trans hfam'.symm, beBytes_toNat_inj (by decide) hport, ?_⟩
    rw [hfam]
    exact beBytes_toNat_inj (by decide) hword
  · rw [hl, hl'] at hlen
    exact absurd hlen (by decide)
  · rw [hl, hl'] at hlen
    exact absurd hlen (by decide)
  · rw [hl] at hraw
    have hbs := hr.symm.trans (hraw.trans hr')
    obtain ⟨hbody, hport⟩ := append_inj hbs (by rw [beBytes_length, beBytes_length])
    refine ⟨hfam.trans hfam'.symm, beBytes_toNat_inj (by decide) hport, ?_⟩
    rw [hfam]
    exact beBytes_toNat_inj (by decide) hbody

theorem realKey_congr (h : a.SameEndpoint a') (p : ProtoNum) : realKey p a = realKey p a' := by
  obtain ⟨hfam, hport, haddr⟩ := h
  unfold realKey mrouteExtractOpenvpnSockaddr
  rw [← hfam]
  cases hf : a.saFamily <;> rw [hf] at haddr
  · rw [hport, show a.word = a'.word from haddr]
  · rw [hport, show a.body = a'.body from haddr]

/-- Addresses that match are the same endpoint, if both are as a socket
delivers them. An IPv4 address compares the flow label of an IPv6 one, which is
zero, and an IPv6 address compares the padding of an IPv4 one. -/
theorem addrPortMatch_delivered (ha : a.Delivered) (ha' : a'.Delivered)
    (h : addrPortMatch a a' = some true) : a.SameEndpoint a' := by
  unfold addrPortMatch at h
  unfold OpenvpnSockaddr.Delivered at ha ha'
  unfold OpenvpnSockaddr.SameEndpoint
  cases hf : a.saFamily <;> cases hf' : a'.saFamily <;>
    simp only [hf, hf', Option.some.injEq, Bool.and_eq_true, decide_eq_true_eq] at ha ha' h ⊢
  · exact ⟨trivial, h.2, h.1⟩
  · exact absurd (h.1.trans ha'.2) ha.1
  · exact absurd (h.1.trans ha'.2) ha.1
  · exact ⟨trivial, h.2, h.1⟩

end

end OpenVpn
