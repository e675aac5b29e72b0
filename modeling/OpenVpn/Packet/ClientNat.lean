import OpenVpn.Packet.Mss

/-!
# Client-side address translation (`clinat.c`)

The rules of `--client-nat` replace the network part of the source or the destination
address of a packet. The change of the addresses is accumulated, and the checksums of the
IP header and of TCP or UDP are adjusted by it, at the places they have behind a header
without options.

* `clientNatTransform` — the translation; `natAddr` says what an address becomes.
* `NatKept` — only addresses and checksums change, and the checksums stay valid.
* `nat_keeps_packet_iff` — for which packets this holds.
-/

namespace OpenVpn

open Base List Option Nat Int

inductive NatType
  | snat
  | dnat
  deriving DecidableEq

inductive NatDirection
  | outgoing
  | incoming
  deriving DecidableEq

structure ClientNatEntry where
  type : NatType
  network : InAddr
  netmask : InAddr
  foreignNetwork : InAddr
  deriving DecidableEq

/-- The offsets of the fields of `struct ip_tcp_udp_hdr`. -/
def IP_CHECK : Nat := 10
def IP_SADDR : Nat := 12
def IP_DADDR : Nat := 16
def HDR_TCP_CHECK : Nat := 36
def HDR_UDP_CHECK : Nat := 26

/-- `e->type ^ direction`: the rule is for the destination. -/
def ClientNatEntry.forDestination (entry : ClientNatEntry) (direction : NatDirection) : Bool :=
  decide (entry.type = .dnat) != decide (direction = .incoming)

/-- `from`. -/
def ClientNatEntry.source (entry : ClientNatEntry) : NatDirection → InAddr
  | .incoming => entry.foreignNetwork
  | .outgoing => entry.network

/-- `to`. -/
def ClientNatEntry.target (entry : ClientNatEntry) : NatDirection → InAddr
  | .incoming => entry.network
  | .outgoing => entry.foreignNetwork

/-- `(addr & ~e->netmask) | *to`. -/
def ClientNatEntry.rewrite (entry : ClientNatEntry) (direction : NatDirection) (addr : InAddr) :
    InAddr :=
  (addr &&& ~~~entry.netmask) ||| entry.target direction

/-- The two words of an address, as the host adds them up. -/
def addrWords (e : Endian) (a : InAddr) : Int :=
  (e.hton (a.toNat / 65536) : Int) + e.hton (a.toNat % 65536)

/-- The addresses in the header, the accumulator, and which address was modified. -/
structure NatState where
  saddr : InAddr
  daddr : InAddr
  accumulate : Int
  alogSource : Bool
  alogDestination : Bool

def natRule (e : Endian) (direction : NatDirection) (st : NatState) (entry : ClientNatEntry) :
    NatState :=
  if entry.forDestination direction then
    if st.daddr &&& entry.netmask = entry.source direction ∧ st.alogDestination = false then
      { st with
        daddr := entry.rewrite direction st.daddr
        accumulate := st.accumulate + addrWords e st.daddr -
          addrWords e (entry.rewrite direction st.daddr)
        alogDestination := true }
    else st
  else
    if st.saddr &&& entry.netmask = entry.source direction ∧ st.alogSource = false then
      { st with
        saddr := entry.rewrite direction st.saddr
        accumulate := st.accumulate + addrWords e st.saddr -
          addrWords e (entry.rewrite direction st.saddr)
        alogSource := true }
    else st

/-- A 32-bit field in network byte order. -/
def addrAt (pkt : Bytes) (i : Nat) : InAddr :=
  BitVec.ofNat 32 (65536 * fieldAt pkt i + fieldAt pkt (i + 2))

def setAddr (pkt : Bytes) (i : Nat) (a : InAddr) : Bytes :=
  setField (setField pkt i (a.toNat / 65536)) (i + 2) (a.toNat % 65536)

/-- The rules, from the packet on. -/
def natState (e : Endian) (list : List ClientNatEntry) (direction : NatDirection) (pkt : Bytes) :
    NatState :=
  list.foldl (natRule e direction) ⟨addrAt pkt IP_SADDR, addrAt pkt IP_DADDR, 0, false, false⟩

/-- `ADJUST_CHECKSUM` of the checksum at `i`. -/
def adjustAt (e : Endian) (accumulate : Int) (pkt : Bytes) (i : Nat) : Bytes :=
  setWord e pkt i (adjustChecksum accumulate (wordAt e pkt i))

/-- The transport checksum that is adjusted. -/
def adjustedAt (pkt : Bytes) : Option Nat :=
  if pkt.getD 9 0 = OPENVPN_IPPROTO_TCP then
    if SIZEOF_IPHDR + SIZEOF_TCPHDR ≤ pkt.length then some HDR_TCP_CHECK else none
  else if pkt.getD 9 0 = OPENVPN_IPPROTO_UDP then
    if SIZEOF_IPHDR + SIZEOF_UDPHDR ≤ pkt.length then some HDR_UDP_CHECK else none
  else none

def clientNatTransform (e : Endian) (list : List ClientNatEntry) (direction : NatDirection)
    (pkt : Bytes) : Bytes :=
  let st := natState e list direction pkt
  if st.alogSource || st.alogDestination then
    let pkt := setAddr (setAddr pkt IP_SADDR st.saddr) IP_DADDR st.daddr
    let pkt := adjustAt e st.accumulate pkt IP_CHECK
    match adjustedAt pkt with
    | some i => adjustAt e st.accumulate pkt i
    | none => pkt
  else pkt

/-! ## What the rules do -/

def ClientNatEntry.applies (direction : NatDirection) (destination : Bool) (addr : InAddr)
    (entry : ClientNatEntry) : Bool :=
  (entry.forDestination direction == destination) &&
    decide (addr &&& entry.netmask = entry.source direction)

/-- What an address becomes: the first rule that applies decides. -/
def natAddr (list : List ClientNatEntry) (direction : NatDirection) (destination : Bool)
    (addr : InAddr) : InAddr :=
  match list.find? (ClientNatEntry.applies direction destination addr) with
  | some entry => entry.rewrite direction addr
  | none => addr

def natApplies (list : List ClientNatEntry) (direction : NatDirection) (destination : Bool)
    (addr : InAddr) : Bool :=
  list.any (ClientNatEntry.applies direction destination addr)

section Rules

variable {entry : ClientNatEntry} {list : List ClientNatEntry} {direction : NatDirection}
  {destination : Bool} {addr : InAddr}

theorem natAddr_cons : natAddr (entry :: list) direction destination addr =
    if entry.applies direction destination addr then entry.rewrite direction addr
    else natAddr list direction destination addr := by
  unfold natAddr
  rw [find?_cons]
  cases entry.applies direction destination addr with
  | true => rfl
  | false => rfl

theorem natAddr_of_not_applies (h : natApplies list direction destination addr = false) :
    natAddr list direction destination addr = addr := by
  unfold natAddr
  rw [find?_eq_none.mpr (any_eq_false.mp h)]

/-- What the rest of the rules makes of a state. -/
structure NatFold (e : Endian) (direction : NatDirection) (list : List ClientNatEntry)
    (st st' : NatState) : Prop where
  saddr : st'.saddr = if st.alogSource then st.saddr else natAddr list direction false st.saddr
  daddr : st'.daddr = if st.alogDestination then st.daddr else natAddr list direction true st.daddr
  source : st'.alogSource = (st.alogSource || natApplies list direction false st.saddr)
  destination :
    st'.alogDestination = (st.alogDestination || natApplies list direction true st.daddr)
  accumulate : st'.accumulate = st.accumulate + (addrWords e st.saddr - addrWords e st'.saddr) +
    (addrWords e st.daddr - addrWords e st'.daddr)

theorem natApplies_cons : natApplies (entry :: list) direction destination addr =
    (entry.applies direction destination addr || natApplies list direction destination addr) :=
  any_cons

theorem applies_other (destination : Bool) (h : entry.forDestination direction = !destination)
    (addr : InAddr) : entry.applies direction destination addr = false := by
  unfold ClientNatEntry.applies
  rw [h]
  cases destination <;> rfl

theorem applies_own (h : entry.forDestination direction = destination) (addr : InAddr) :
    entry.applies direction destination addr =
      decide (addr &&& entry.netmask = entry.source direction) := by
  unfold ClientNatEntry.applies
  rw [h, beq_self_eq_true, Bool.true_and]

theorem natAddr_singleton : natAddr [entry] direction destination addr =
    if entry.applies direction destination addr then entry.rewrite direction addr else addr :=
  natAddr_cons

theorem natApplies_singleton :
    natApplies [entry] direction destination addr = entry.applies direction destination addr := by
  rw [natApplies_cons]
  exact Bool.or_false _

variable {e : Endian} {st st1 st' : NatState}

theorem natRule_fold : NatFold e direction [entry] st (natRule e direction st entry) := by
  unfold natRule
  cases hfor : entry.forDestination direction with
  | true =>
    have hoth := applies_other false hfor st.saddr
    have hown := applies_own hfor st.daddr
    rw [if_pos rfl]
    by_cases hmat : st.daddr &&& entry.netmask = entry.source direction <;>
      cases hlog : st.alogDestination <;> constructor <;>
      simp [natAddr_singleton, natApplies_singleton, hoth, hown, hmat, hlog]
    omega
  | false =>
    have hoth := applies_other true hfor st.daddr
    have hown := applies_own hfor st.saddr
    rw [if_neg Bool.false_ne_true]
    by_cases hmat : st.saddr &&& entry.netmask = entry.source direction <;>
      cases hlog : st.alogSource <;> constructor <;>
      simp [natAddr_singleton, natApplies_singleton, hoth, hown, hmat, hlog]
    omega

theorem natAddr_step (list : List ClientNatEntry) {done done1 : Bool} {addr1 : InAddr}
    (haddr : addr1 = if done then addr else natAddr [entry] direction destination addr)
    (hdone : done1 = (done || natApplies [entry] direction destination addr)) :
    (if done1 then addr1 else natAddr list direction destination addr1) =
        (if done then addr else natAddr (entry :: list) direction destination addr) ∧
      (done1 || natApplies list direction destination addr1) =
        (done || natApplies (entry :: list) direction destination addr) := by
  rw [natAddr_singleton] at haddr
  rw [natApplies_singleton] at hdone
  rw [natAddr_cons, natApplies_cons, haddr, hdone]
  cases done with
  | true => exact ⟨rfl, rfl⟩
  | false =>
    cases happ : entry.applies direction destination addr with
    | true => exact ⟨rfl, rfl⟩
    | false => exact ⟨rfl, rfl⟩

theorem NatFold.cons (h : NatFold e direction [entry] st st1)
    (h' : NatFold e direction list st1 st') : NatFold e direction (entry :: list) st st' := by
  have hsrc := natAddr_step list h.saddr h.source
  have hdst := natAddr_step list h.daddr h.destination
  refine ⟨h'.saddr.trans hsrc.1, h'.daddr.trans hdst.1, h'.source.trans hsrc.2,
    h'.destination.trans hdst.2, ?_⟩
  rw [h'.accumulate, h.accumulate]
  omega

theorem natFold_foldl :
    ∀ st, NatFold e direction list st (list.foldl (natRule e direction) st) := by
  induction list with
  | nil =>
    intro st
    refine ⟨(ite_self _).symm, (ite_self _).symm, (Bool.or_false _).symm, (Bool.or_false _).symm,
      ?_⟩
    show st.accumulate = _
    rw [foldl_nil, sub_self, sub_self, add_zero, add_zero]
  | cons entry list ih =>
    intro st
    exact natRule_fold.cons (ih _)

end Rules

/-! ## Addresses in the packet -/

theorem addrAt_toNat (pkt : Bytes) (i : Nat) :
    (addrAt pkt i).toNat = 65536 * fieldAt pkt i + fieldAt pkt (i + 2) := by
  have hhigh := fieldAt_lt pkt i
  have hlow := fieldAt_lt pkt (i + 2)
  unfold addrAt
  rw [BitVec.toNat_ofNat]
  omega

theorem length_setAddr (pkt : Bytes) (i : Nat) (a : InAddr) :
    (setAddr pkt i a).length = pkt.length := by
  unfold setAddr
  rw [length_setField, length_setField]

variable {i j : Nat}

variable {pkt : Bytes}

theorem getD_setAddr_of_ne {a : InAddr} (hj : j < i ∨ i + 4 ≤ j) :
    (setAddr pkt i a).getD j 0 = pkt.getD j 0 := by
  unfold setAddr
  rw [getD_setField_of_ne _ _ (by omega), getD_setField_of_ne _ _ (by omega)]

theorem addrAt_setAddr_self (hi : i + 4 ≤ pkt.length) (a : InAddr) :
    addrAt (setAddr pkt i a) i = a := by
  have ha := a.isLt
  have hlen := length_setField pkt i (a.toNat / 65536)
  apply BitVec.eq_of_toNat_eq
  rw [addrAt_toNat]
  unfold setAddr
  rw [fieldAt_setField_of_ne _ _ (by omega), fieldAt_setField_self (by omega) (by omega),
    fieldAt_setField_self (by omega) (by omega)]
  omega

theorem addrAt_congr {pkt' : Bytes} (h : ∀ j, i ≤ j → j < i + 4 → pkt'.getD j 0 = pkt.getD j 0) :
    addrAt pkt' i = addrAt pkt i := by
  unfold addrAt fieldAt
  rw [h i (by omega) (by omega), h (i + 1) (by omega) (by omega), h (i + 2) (by omega) (by omega),
    h (i + 2 + 1) (by omega) (by omega)]

def addrSum (a : InAddr) : Int := (a.toNat / 65536 : Nat) + (a.toNat % 65536 : Nat)

theorem factor_mul_addrWords (e : Endian) (a : InAddr) :
    e.factor * addrWords e a ≡ addrSum a [ZMOD 65535] := by
  have ha := a.isLt
  have hhigh := e.factor_mul_hton (v := a.toNat / 65536) (by omega)
  have hlow := e.factor_mul_hton (v := a.toNat % 65536) (by omega)
  unfold addrWords addrSum
  rw [Int.mul_add]
  exact hhigh.add hlow

theorem addrWords_bounds (e : Endian) (a : InAddr) :
    0 ≤ addrWords e a ∧ addrWords e a < 131072 := by
  have hhigh : e.hton (a.toNat / 65536) < 65536 := e.word_lt _ _
  have hlow : e.hton (a.toNat % 65536) < 65536 := e.word_lt _ _
  unfold addrWords
  omega

theorem onesSum_setAddr (heven : i % 2 = 0) (hi : i + 4 ≤ pkt.length) (a : InAddr) :
    onesSum true (setAddr pkt i a) ≡
      onesSum true pkt + (addrSum a - addrSum (addrAt pkt i)) [ZMOD 65535] := by
  have ha := a.isLt
  have hlen := length_setField pkt i (a.toNat / 65536)
  have hroom : i + 1 < pkt.length := by omega
  have hroom' : i + 2 + 1 < (setField pkt i (a.toNat / 65536)).length := by omega
  have hhigh := onesSum_setField (v := a.toNat / 65536) hroom (by omega)
  have hlow := onesSum_setField (v := a.toNat % 65536) hroom' (by omega)
  rw [if_pos heven] at hhigh
  rw [if_pos (by omega), fieldAt_setField_of_ne _ _ (by omega)] at hlow
  have hold : addrSum (addrAt pkt i) = (fieldAt pkt i : Int) + fieldAt pkt (i + 2) := by
    have hfst := fieldAt_lt pkt i
    have hsec := fieldAt_lt pkt (i + 2)
    unfold addrSum
    rw [addrAt_toNat]
    omega
  rw [hold]
  refine hlow.trans ((hhigh.add_right _).trans ?_)
  unfold Int.ModEq addrSum
  congr 1
  ring

theorem drop_setAddr {n : Nat} {a : InAddr} (h : i + 4 ≤ n) :
    (setAddr pkt i a).drop n = pkt.drop n := by
  unfold setAddr setField
  rw [drop_set_of_lt (by omega), drop_set_of_lt (by omega),
    drop_set_of_lt (by omega), drop_set_of_lt (by omega)]

variable {acc : Int}

/-- **A checksum** at an even offset that is adjusted. -/
theorem onesSum_adjustAt (e : Endian) (hacc : acc.natAbs < 2 ^ 30) (heven : i % 2 = 0)
    (hi : i + 1 < pkt.length) :
    onesSum true (adjustAt e acc pkt i) ≡ onesSum true pkt + e.factor * acc [ZMOD 65535] := by
  have hword : wordAt e pkt i < 65536 := e.word_lt _ _
  have hset := onesSum_setWord e heven hi (adjustChecksum_lt acc (wordAt e pkt i))
  have hadj := (((adjustChecksum_modEq hacc hword).sub_right (wordAt e pkt i : Int)).mul_left
    e.factor).add_left (onesSum true pkt)
  refine hset.trans (hadj.trans ?_)
  unfold Int.ModEq
  congr 1
  ring

/-! ## The packet -/

/-- The packet has a complete IPv4 header and the length the header says. -/
structure Ipv4Packet (pkt : Bytes) : Prop where
  version : ipVersion (pkt.getD 0 0) = 4
  header : SIZEOF_IPHDR ≤ ipHeaderLen (pkt.getD 0 0)
  complete : ipHeaderLen (pkt.getD 0 0) ≤ pkt.length
  totLen : fieldAt pkt 2 = pkt.length

/-- Where the packet has a transport checksum: in the first fragment, behind the options
of the IP header, and for UDP only if it is not 0. -/
def transportCheck (pkt : Bytes) : Option Nat :=
  let hlen := ipHeaderLen (pkt.getD 0 0)
  if fieldAt pkt 6 % 8192 ≠ 0 then none
  else if pkt.getD 9 0 = OPENVPN_IPPROTO_TCP then
    if hlen + SIZEOF_TCPHDR ≤ pkt.length then some (hlen + 16) else none
  else if pkt.getD 9 0 = OPENVPN_IPPROTO_UDP then
    if hlen + SIZEOF_UDPHDR ≤ pkt.length ∧ fieldAt pkt (hlen + 6) ≠ 0 then some (hlen + 6) else none
  else none

def headerSum (pkt : Bytes) : Int := onesSum true (pkt.take (ipHeaderLen (pkt.getD 0 0)))

/-- The sum over the pseudo header and what follows the IP header. -/
def transportSum (pkt : Bytes) (len : Nat) : Int :=
  addrSum (addrAt pkt IP_SADDR) + addrSum (addrAt pkt IP_DADDR) + (pkt.getD 9 0).toNat + len +
    onesSum true (pkt.drop (ipHeaderLen (pkt.getD 0 0)))

/-- **The translation.** The addresses become what the rules say. Besides them only the
checksums change, and these stay valid. -/
structure NatKept (list : List ClientNatEntry) (direction : NatDirection) (pkt pkt' : Bytes) :
    Prop where
  length : pkt'.length = pkt.length
  source : addrAt pkt' IP_SADDR = natAddr list direction false (addrAt pkt IP_SADDR)
  destination : addrAt pkt' IP_DADDR = natAddr list direction true (addrAt pkt IP_DADDR)
  others : ∀ i, i < 10 ∨ 20 ≤ i → (∀ p, transportCheck pkt = some p → i ≠ p ∧ i ≠ p + 1) →
    pkt'.getD i 0 = pkt.getD i 0
  unmatched : natApplies list direction false (addrAt pkt IP_SADDR) = false →
    natApplies list direction true (addrAt pkt IP_DADDR) = false → pkt' = pkt
  headerValid : OnesValid (headerSum pkt) → OnesValid (headerSum pkt')
  transportValid : ∀ p len, transportCheck pkt = some p → OnesValid (transportSum pkt len) →
    OnesValid (transportSum pkt' len)

/-- By how much the checksums are adjusted. -/
def natDelta (e : Endian) (list : List ClientNatEntry) (direction : NatDirection) (pkt : Bytes) :
    Int :=
  (addrWords e (addrAt pkt IP_SADDR) -
      addrWords e (natAddr list direction false (addrAt pkt IP_SADDR))) +
    (addrWords e (addrAt pkt IP_DADDR) -
      addrWords e (natAddr list direction true (addrAt pkt IP_DADDR)))

/-- The packet with the addresses and the checksum of the header replaced. -/
def natHeader (e : Endian) (list : List ClientNatEntry) (direction : NatDirection) (pkt : Bytes) :
    Bytes :=
  adjustAt e (natDelta e list direction pkt)
    (setAddr (setAddr pkt IP_SADDR (natAddr list direction false (addrAt pkt IP_SADDR))) IP_DADDR
      (natAddr list direction true (addrAt pkt IP_DADDR))) IP_CHECK

section Packet

variable (e : Endian) (list : List ClientNatEntry) (direction : NatDirection) (pkt : Bytes)

theorem natDelta_small : (natDelta e list direction pkt).natAbs < 2 ^ 30 := by
  have h1 := addrWords_bounds e (addrAt pkt IP_SADDR)
  have h2 := addrWords_bounds e (natAddr list direction false (addrAt pkt IP_SADDR))
  have h3 := addrWords_bounds e (addrAt pkt IP_DADDR)
  have h4 := addrWords_bounds e (natAddr list direction true (addrAt pkt IP_DADDR))
  unfold natDelta
  omega

theorem factor_mul_natDelta :
    e.factor * natDelta e list direction pkt ≡
      (addrSum (addrAt pkt IP_SADDR) + addrSum (addrAt pkt IP_DADDR)) -
        (addrSum (natAddr list direction false (addrAt pkt IP_SADDR)) +
          addrSum (natAddr list direction true (addrAt pkt IP_DADDR))) [ZMOD 65535] := by
  have hold := (factor_mul_addrWords e (addrAt pkt IP_SADDR)).add
    (factor_mul_addrWords e (addrAt pkt IP_DADDR))
  have hnew := (factor_mul_addrWords e (natAddr list direction false (addrAt pkt IP_SADDR))).add
    (factor_mul_addrWords e (natAddr list direction true (addrAt pkt IP_DADDR)))
  refine Eq.trans (congrArg (· % 65535) ?_) (hold.sub hnew)
  unfold natDelta
  ring

variable {e list direction pkt}

theorem natHeader_length : (natHeader e list direction pkt).length = pkt.length := by
  unfold natHeader adjustAt
  rw [length_setWord, length_setAddr, length_setAddr]

theorem natHeader_getD (hi : i < 10 ∨ 20 ≤ i) :
    (natHeader e list direction pkt).getD i 0 = pkt.getD i 0 := by
  have hchk : i ≠ IP_CHECK ∧ i ≠ IP_CHECK + 1 := by
    show i ≠ 10 ∧ i ≠ 11
    omega
  have hsa : i < IP_SADDR ∨ IP_SADDR + 4 ≤ i := by
    show i < 12 ∨ 16 ≤ i
    omega
  have hda : i < IP_DADDR ∨ IP_DADDR + 4 ≤ i := by
    show i < 16 ∨ 20 ≤ i
    omega
  unfold natHeader adjustAt
  rw [getD_setWord_of_ne e _ _ hchk, getD_setAddr_of_ne hda, getD_setAddr_of_ne hsa]

theorem natHeader_first : (natHeader e list direction pkt).getD 0 0 = pkt.getD 0 0 :=
  natHeader_getD (.inl (by omega))

theorem natHeader_proto : (natHeader e list direction pkt).getD 9 0 = pkt.getD 9 0 :=
  natHeader_getD (.inl (by omega))

theorem addrAt_adjustAt (h : j + 4 ≤ i ∨ i + 2 ≤ j) :
    addrAt (adjustAt e acc pkt i) j = addrAt pkt j := by
  apply addrAt_congr
  intro k hlow hhigh
  exact getD_setWord_of_ne e _ _ (by omega)

theorem addrAt_setAddr_of_ne (a : InAddr) (h : j + 4 ≤ i ∨ i + 4 ≤ j) :
    addrAt (setAddr pkt i a) j = addrAt pkt j := by
  apply addrAt_congr
  intro k hlow hhigh
  exact getD_setAddr_of_ne (by omega)

variable (hlen : 20 ≤ pkt.length)

include hlen in
theorem natHeader_saddr : addrAt (natHeader e list direction pkt) IP_SADDR =
    natAddr list direction false (addrAt pkt IP_SADDR) := by
  have hchk : IP_SADDR + 4 ≤ IP_CHECK ∨ IP_CHECK + 2 ≤ IP_SADDR := .inr (le_refl 12)
  have hda : IP_SADDR + 4 ≤ IP_DADDR ∨ IP_DADDR + 4 ≤ IP_SADDR := .inl (le_refl 16)
  have hroom : IP_SADDR + 4 ≤ pkt.length := show 16 ≤ pkt.length by omega
  unfold natHeader
  rw [addrAt_adjustAt hchk, addrAt_setAddr_of_ne _ hda, addrAt_setAddr_self hroom]

include hlen in
theorem natHeader_daddr : addrAt (natHeader e list direction pkt) IP_DADDR =
    natAddr list direction true (addrAt pkt IP_DADDR) := by
  have hroom : IP_DADDR + 4 ≤
      (setAddr pkt IP_SADDR (natAddr list direction false (addrAt pkt IP_SADDR))).length := by
    rw [length_setAddr]
    exact hlen
  have hchk : IP_DADDR + 4 ≤ IP_CHECK ∨ IP_CHECK + 2 ≤ IP_DADDR := .inr (by decide)
  unfold natHeader
  rw [addrAt_adjustAt hchk, addrAt_setAddr_self hroom]

include hlen in
theorem onesSum_natHeader (e : Endian) (list : List ClientNatEntry) (direction : NatDirection) :
    onesSum true (natHeader e list direction pkt) ≡ onesSum true pkt [ZMOD 65535] := by
  have hd := factor_mul_natDelta e list direction pkt
  unfold natHeader
  generalize natAddr list direction false (addrAt pkt IP_SADDR) = saddr at hd ⊢
  generalize natAddr list direction true (addrAt pkt IP_DADDR) = daddr at hd ⊢
  have hlen1 := length_setAddr pkt IP_SADDR saddr
  have hlen2 := length_setAddr (setAddr pkt IP_SADDR saddr) IP_DADDR daddr
  have hroom : IP_SADDR + 4 ≤ pkt.length := show 16 ≤ pkt.length by omega
  have hroom1 : IP_DADDR + 4 ≤ (setAddr pkt IP_SADDR saddr).length := hlen1 ▸ hlen
  have hroom2 : IP_CHECK + 1 < (setAddr (setAddr pkt IP_SADDR saddr) IP_DADDR daddr).length :=
    show 11 < _ by omega
  have hkept : addrAt (setAddr pkt IP_SADDR saddr) IP_DADDR = addrAt pkt IP_DADDR :=
    addrAt_setAddr_of_ne saddr (.inr (le_refl 16))
  have hsrc := onesSum_setAddr rfl hroom saddr
  have hdest := onesSum_setAddr rfl hroom1 daddr
  rw [hkept] at hdest
  have hadj := onesSum_adjustAt e (natDelta_small e list direction pkt) rfl hroom2
  calc _ ≡ _ [ZMOD 65535] := hadj
    _ ≡ _ [ZMOD 65535] := (hdest.trans (hsrc.add_right _)).add hd
    _ = onesSum true pkt := by ring

theorem natHeader_drop {n : Nat} (hn : 20 ≤ n) :
    (natHeader e list direction pkt).drop n = pkt.drop n := by
  have hchk : IP_CHECK + 1 < n := show 11 < n by omega
  have hsa : IP_SADDR + 4 ≤ n := show 16 ≤ n by omega
  have hda : IP_DADDR + 4 ≤ n := hn
  unfold natHeader adjustAt
  rw [drop_setWord e _ _ hchk, drop_setAddr hda, drop_setAddr hsa]

theorem adjustedAt_natHeader : adjustedAt (natHeader e list direction pkt) = adjustedAt pkt := by
  unfold adjustedAt
  rw [natHeader_proto, natHeader_length]

/-- **The translation** of a packet some rule applies to. -/
theorem clientNatTransform_eq :
    clientNatTransform e list direction pkt =
      if natApplies list direction false (addrAt pkt IP_SADDR) ||
          natApplies list direction true (addrAt pkt IP_DADDR) then
        match adjustedAt pkt with
        | some q => adjustAt e (natDelta e list direction pkt) (natHeader e list direction pkt) q
        | none => natHeader e list direction pkt
      else pkt := by
  have hfold : NatFold e direction list ⟨addrAt pkt IP_SADDR, addrAt pkt IP_DADDR, 0, false, false⟩
      (natState e list direction pkt) := natFold_foldl _
  have hsa := hfold.saddr
  have hda := hfold.daddr
  have hsrc := hfold.source
  have hdst := hfold.destination
  have hacc := hfold.accumulate
  dsimp only at hsa hda hsrc hdst hacc
  rw [if_neg Bool.false_ne_true] at hsa hda
  rw [Bool.false_or] at hsrc hdst
  rw [zero_add, hsa, hda] at hacc
  unfold clientNatTransform
  dsimp only
  rw [hsa, hda, hsrc, hdst, hacc]
  have hadj : adjustedAt (natHeader e list direction pkt) = _ := adjustedAt_natHeader
  unfold natHeader natDelta at hadj ⊢
  rw [hadj]

end Packet

/-! ## The sums of a packet -/

section Sums

variable {pkt : Bytes}

theorem ipHeaderLen_even (versionLen : UInt8) : ipHeaderLen versionLen % 2 = 0 := by
  unfold ipHeaderLen
  omega

theorem headerSum_pos (hver : ipVersion (pkt.getD 0 0) = 4)
    (hhd : 20 ≤ ipHeaderLen (pkt.getD 0 0)) (hcomp : 20 ≤ pkt.length) :
    0 < headerSum pkt := by
  unfold headerSum
  cases pkt with
  | nil => exact absurd hcomp (by decide)
  | cons b rest =>
    obtain ⟨n, hn⟩ : ∃ n, ipHeaderLen ((b :: rest).getD 0 0) = n + 1 :=
      ⟨ipHeaderLen ((b :: rest).getD 0 0) - 1, by omega⟩
    have hrest := onesSum_nonneg false (rest.take n)
    have hb : b.toNat / 16 % 16 = 4 := hver
    rw [hn, take_succ_cons]
    show 0 < 256 * (b.toNat : Int) + onesSum false (rest.take n)
    omega

variable (pkt) in
theorem headerSum_add (hcomp : ipHeaderLen (pkt.getD 0 0) ≤ pkt.length) :
    headerSum pkt + onesSum true (pkt.drop (ipHeaderLen (pkt.getD 0 0))) = onesSum true pkt :=
  (onesSum_take_drop (ipHeaderLen_even _) hcomp).symm

theorem onesValid_congr {s s' : Int} (h : s' ≡ s [ZMOD 65535]) (hpos : 0 < s') (hs : OnesValid s) :
    OnesValid s' := ⟨hpos, Eq.trans h hs.2⟩

theorem transportSum_pos {len : Nat} (hpr : pkt.getD 9 0 ≠ 0) : 0 < transportSum pkt len := by
  have hrest := onesSum_nonneg true (pkt.drop (ipHeaderLen (pkt.getD 0 0)))
  have hp : 0 < (pkt.getD 9 0).toNat := by
    refine pos_of_ne_zero fun h => hpr ?_
    exact UInt8.toNat_inj.mp h
  unfold transportSum addrSum
  omega

variable {p : Nat}

theorem transportCheck_eq (h : transportCheck pkt = some p) :
    (pkt.getD 9 0 = OPENVPN_IPPROTO_TCP ∧ p = ipHeaderLen (pkt.getD 0 0) + 16 ∧
        ipHeaderLen (pkt.getD 0 0) + 20 ≤ pkt.length) ∨
      (pkt.getD 9 0 = OPENVPN_IPPROTO_UDP ∧ p = ipHeaderLen (pkt.getD 0 0) + 6 ∧
        ipHeaderLen (pkt.getD 0 0) + 8 ≤ pkt.length) := by
  unfold transportCheck at h
  dsimp only at h
  split at h
  case isTrue => cases h
  case isFalse =>
    split at h
    case isTrue htcp =>
      split at h
      case isTrue hroom => exact .inl ⟨htcp, (some.inj h).symm, hroom⟩
      case isFalse => cases h
    case isFalse =>
      split at h
      case isTrue hudp =>
        split at h
        case isTrue hroom => exact .inr ⟨hudp, (some.inj h).symm, hroom.1⟩
        case isFalse => cases h
      case isFalse => cases h

theorem transportCheck_proto (h : transportCheck pkt = some p) : pkt.getD 9 0 ≠ 0 := by
  rcases transportCheck_eq h with ⟨hpr, -⟩ | ⟨hpr, -⟩
  · rw [hpr]
    decide
  · rw [hpr]
    decide

theorem transportCheck_bounds (h : transportCheck pkt = some p) :
    p % 2 = 0 ∧ ipHeaderLen (pkt.getD 0 0) ≤ p ∧ p + 1 < pkt.length := by
  have heven := ipHeaderLen_even (pkt.getD 0 0)
  rcases transportCheck_eq h with ⟨-, hp, hroom⟩ | ⟨-, hp, hroom⟩
  · omega
  · omega

theorem adjustedAt_eq {q : Nat} (h : adjustedAt pkt = some q) :
    q % 2 = 0 ∧ 20 ≤ q ∧ q + 1 < pkt.length := by
  unfold adjustedAt at h
  split at h
  case isTrue =>
    split at h
    case isTrue hroom =>
      obtain rfl := some.inj h
      have hlong : 40 ≤ pkt.length := hroom
      exact ⟨rfl, by decide, show 37 < pkt.length by omega⟩
    case isFalse => cases h
  case isFalse =>
    split at h
    case isTrue =>
      split at h
      case isTrue hroom =>
        obtain rfl := some.inj h
        have hlong : 28 ≤ pkt.length := hroom
        exact ⟨rfl, by decide, show 27 < pkt.length by omega⟩
      case isFalse => cases h
    case isFalse => cases h

theorem transportCheck_of_adjustedAt (hpkt : Ipv4Packet pkt) (h : adjustedAt pkt = none) :
    transportCheck pkt = none := by
  have hhd : 20 ≤ ipHeaderLen (pkt.getD 0 0) := hpkt.header
  cases hchk : transportCheck pkt with
  | none => rfl
  | some p =>
    unfold adjustedAt at h
    rcases transportCheck_eq hchk with ⟨htcp, -, hroom⟩ | ⟨hudp, -, hroom⟩
    · have hlong : SIZEOF_IPHDR + SIZEOF_TCPHDR ≤ pkt.length := show 40 ≤ pkt.length by omega
      rw [if_pos htcp, if_pos hlong] at h
      cases h
    · have hlong : SIZEOF_IPHDR + SIZEOF_UDPHDR ≤ pkt.length := show 28 ≤ pkt.length by omega
      rw [if_neg (by rw [hudp]; decide), if_pos hudp, if_pos hlong] at h
      cases h

end Sums

section Kept

variable {e : Endian} {list : List ClientNatEntry} {direction : NatDirection} {pkt : Bytes}

theorem headerSum_natHeader (hpkt : Ipv4Packet pkt) :
    headerSum (natHeader e list direction pkt) ≡ headerSum pkt [ZMOD 65535] := by
  have hhd : 20 ≤ ipHeaderLen (pkt.getD 0 0) := hpkt.header
  have hcomp := hpkt.complete
  have hsum := onesSum_natHeader (show 20 ≤ pkt.length by omega) e list direction
  rw [← headerSum_add pkt hcomp,
    ← headerSum_add _ (by rw [natHeader_first, natHeader_length]; exact hcomp), natHeader_first,
    natHeader_drop hhd] at hsum
  exact Int.ModEq.add_right_cancel' _ hsum

theorem transportSum_natHeader (hpkt : Ipv4Packet pkt) {len : Nat} :
    transportSum (natHeader e list direction pkt) len ≡
      transportSum pkt len - e.factor * natDelta e list direction pkt [ZMOD 65535] := by
  have hhd : 20 ≤ ipHeaderLen (pkt.getD 0 0) := hpkt.header
  have hlen : 20 ≤ pkt.length := le_trans hhd hpkt.complete
  unfold transportSum
  rw [natHeader_first, natHeader_proto, natHeader_drop hhd, natHeader_saddr hlen,
    natHeader_daddr hlen]
  refine Int.ModEq.symm (((factor_mul_natDelta _ _ _ _).sub_left _).trans
    (congrArg (· % 65535) ?_))
  ring

variable {q : Nat}

theorem headerSum_adjustAt (acc : Int) (h0 : 20 ≤ q) (hq : ipHeaderLen (pkt.getD 0 0) ≤ q) :
    headerSum (adjustAt e acc pkt q) = headerSum pkt := by
  unfold headerSum adjustAt
  rw [getD_setWord_of_ne e _ _ (by omega), take_setWord e _ _ hq]

theorem transportSum_adjustAt (hacc : acc.natAbs < 2 ^ 30) (h0 : 20 ≤ q)
    (hq : ipHeaderLen (pkt.getD 0 0) ≤ q) (heven : q % 2 = 0) (hlen : q + 1 < pkt.length)
    (len : Nat) :
    transportSum (adjustAt e acc pkt q) len ≡ transportSum pkt len + e.factor * acc
      [ZMOD 65535] := by
  have hfst : (adjustAt e acc pkt q).getD 0 0 = pkt.getD 0 0 :=
    getD_setWord_of_ne e _ _ (by omega)
  have hpr : (adjustAt e acc pkt q).getD 9 0 = pkt.getD 9 0 :=
    getD_setWord_of_ne e _ _ (by omega)
  have hsa : IP_SADDR + 4 ≤ q ∨ q + 2 ≤ IP_SADDR := .inl (show 16 ≤ q by omega)
  have hda : IP_DADDR + 4 ≤ q ∨ q + 2 ≤ IP_DADDR := .inl h0
  have hlg : (adjustAt e acc pkt q).length = pkt.length := length_setWord _ _ _ _
  have hspl := headerSum_add pkt (by omega)
  have hsplit' := headerSum_add (adjustAt e acc pkt q) (by rw [hfst, hlg]; omega)
  rw [hfst, headerSum_adjustAt acc h0 hq] at hsplit'
  have hsum := onesSum_adjustAt e hacc heven hlen
  rw [← hspl, ← hsplit', add_assoc] at hsum
  have hrest := Int.ModEq.add_left_cancel' _ hsum
  unfold transportSum
  rw [hfst, hpr, addrAt_adjustAt hsa, addrAt_adjustAt hda, add_assoc _ _ (_ * _)]
  exact hrest.add_left _

variable (hpkt : Ipv4Packet pkt)

include hpkt in
theorem headerValid_natHeader (hval : OnesValid (headerSum pkt)) :
    OnesValid (headerSum (natHeader e list direction pkt)) := by
  refine onesValid_congr (headerSum_natHeader hpkt) (headerSum_pos ?_ ?_ ?_) hval
  · rw [natHeader_first]
    exact hpkt.version
  · rw [natHeader_first]
    exact hpkt.header
  · rw [natHeader_length]
    exact le_trans hpkt.header hpkt.complete

variable (happlies : (natApplies list direction false (addrAt pkt IP_SADDR) ||
    natApplies list direction true (addrAt pkt IP_DADDR)) = true)

include hpkt happlies

theorem natKept_natHeader
    (h : transportCheck pkt = none ∨
      e.factor * natDelta e list direction pkt ≡ 0 [ZMOD 65535]) :
    NatKept list direction pkt (natHeader e list direction pkt) := by
  have hlen : 20 ≤ pkt.length := le_trans hpkt.header hpkt.complete
  refine ⟨natHeader_length, natHeader_saddr hlen, natHeader_daddr hlen,
    fun i hi _ => natHeader_getD hi, ?_, headerValid_natHeader hpkt, ?_⟩
  · intro hsrc hdst
    rw [hsrc, hdst] at happlies
    cases happlies
  · intro p len hp hval
    rcases h with h | h
    · rw [h] at hp
      cases hp
    · have hmod := (transportSum_natHeader hpkt).trans (h.sub_left (transportSum pkt len))
      rw [sub_zero] at hmod
      refine onesValid_congr hmod (transportSum_pos ?_) hval
      rw [natHeader_proto]
      exact transportCheck_proto hp

/-- The packet stays valid if the place that is adjusted is its checksum. -/
theorem natKept_adjustAt (hq : transportCheck pkt = some q) :
    NatKept list direction pkt
      (adjustAt e (natDelta e list direction pkt) (natHeader e list direction pkt) q) := by
  have hlen : 20 ≤ pkt.length := le_trans hpkt.header hpkt.complete
  have hhd : 20 ≤ ipHeaderLen (pkt.getD 0 0) := hpkt.header
  have hlg : (natHeader e list direction pkt).length = _ := natHeader_length
  obtain ⟨heven, hbeh, hroom⟩ := transportCheck_bounds hq
  have hbehind' : ipHeaderLen ((natHeader e list direction pkt).getD 0 0) ≤ q := by
    rw [natHeader_first]
    exact hbeh
  have hsa : IP_SADDR + 4 ≤ q ∨ q + 2 ≤ IP_SADDR := .inl (show 16 ≤ q by omega)
  have hda : IP_DADDR + 4 ≤ q ∨ q + 2 ≤ IP_DADDR := .inl (show 20 ≤ q by omega)
  have hkeep : ∀ {i : Nat}, i ≠ q ∧ i ≠ q + 1 →
      (adjustAt e (natDelta e list direction pkt) (natHeader e list direction pkt) q).getD i 0 =
        (natHeader e list direction pkt).getD i 0 := by
    intro i hi
    exact getD_setWord_of_ne e _ _ hi
  refine ⟨(length_setWord _ _ _ _).trans hlg, ?_, ?_, ?_, ?_, ?_, ?_⟩
  · rw [addrAt_adjustAt hsa, natHeader_saddr hlen]
  · rw [addrAt_adjustAt hda, natHeader_daddr hlen]
  · intro i hi hnot
    rw [hkeep (hnot q hq), natHeader_getD hi]
  · intro hsrc hdst
    rw [hsrc, hdst] at happlies
    cases happlies
  · intro hval
    rw [headerSum_adjustAt _ (by omega) hbehind']
    exact headerValid_natHeader hpkt hval
  · intro p len _ hval
    have hadj := transportSum_adjustAt (e := e) (natDelta_small e list direction pkt)
      (by omega) hbehind' heven (by omega) len
    have hmod := hadj.trans ((transportSum_natHeader hpkt).add_right _)
    rw [Int.sub_add_cancel] at hmod
    refine onesValid_congr hmod (transportSum_pos ?_) hval
    rw [hkeep (by omega), natHeader_proto]
    exact transportCheck_proto hq

end Kept

/-- **Packets stay valid** unless a rule applies and the place where the transport checksum
is expected holds other data, which the adjustment changes: behind an IP header with
options, in a later fragment, or in a UDP packet without a checksum. The adjustment changes
nothing if the words of the addresses have the same sum as before. -/
theorem nat_keeps_packet_iff (e : Endian) (list : List ClientNatEntry) (direction : NatDirection)
    {pkt : Bytes} (hpkt : Ipv4Packet pkt) :
    NatKept list direction pkt (clientNatTransform e list direction pkt) ↔
      ((natApplies list direction false (addrAt pkt IP_SADDR) ||
          natApplies list direction true (addrAt pkt IP_DADDR)) = true →
        ∀ q, adjustedAt pkt = some q → transportCheck pkt = some q ∨
          natDelta e list direction pkt % 65535 = 0 ∧
            (wordAt e pkt q = 0 → natDelta e list direction pkt ≤ 0) ∧
            (wordAt e pkt q = 65535 → 0 ≤ natDelta e list direction pkt)) := by
  rw [clientNatTransform_eq]
  by_cases happlies : (natApplies list direction false (addrAt pkt IP_SADDR) ||
      natApplies list direction true (addrAt pkt IP_DADDR)) = true
  case neg =>
    rw [if_neg happlies]
    refine iff_of_true ?_ fun h => absurd h happlies
    rw [Bool.or_eq_true, not_or, Bool.not_eq_true, Bool.not_eq_true] at happlies
    refine ⟨rfl, (natAddr_of_not_applies happlies.1).symm,
      (natAddr_of_not_applies happlies.2).symm, fun _ _ _ => rfl, fun _ _ => rfl, id,
      fun _ _ _ => id⟩
  case pos =>
    rw [if_pos happlies]
    cases hadjusted : adjustedAt pkt with
    | none =>
      refine iff_of_true ?_ fun _ q hq => by cases hq
      exact natKept_natHeader hpkt happlies (.inl (transportCheck_of_adjustedAt hpkt hadjusted))
    | some q =>
      obtain ⟨heven, hbehind, hroom⟩ := adjustedAt_eq hadjusted
      have hword : wordAt e (natHeader e list direction pkt) q = wordAt e pkt q := by
        unfold wordAt
        rw [natHeader_getD (.inr hbehind), natHeader_getD (.inr (by omega))]
      have hroom' : q + 1 < (natHeader e list direction pkt).length := by
        rw [natHeader_length]
        exact hroom
      have hneutral := adjustChecksum_eq_self_iff (natDelta_small e list direction pkt)
        (show wordAt e pkt q < 65536 from e.word_lt _ _)
      show NatKept list direction pkt (adjustAt e _ _ q) ↔ _
      constructor
      · intro hkept _ q' hq'
        obtain rfl := some.inj hq'
        by_cases hcheck : transportCheck pkt = some q
        · exact .inl hcheck
        -- no checksum of the packet shares a byte with the adjusted word
        · refine .inr (hneutral.mp ?_)
          have hapart : ∀ p, transportCheck pkt = some p →
              (q ≠ p ∧ q ≠ p + 1) ∧ (q + 1 ≠ p ∧ q + 1 ≠ p + 1) := by
            intro p hp
            have hne : p ≠ q := fun h => hcheck (h ▸ hp)
            have hparity := (transportCheck_bounds hp).1
            omega
          have hfirst := hkept.others q (.inr hbehind) fun p hp => (hapart p hp).1
          have hsecond := hkept.others (q + 1) (.inr (by omega)) fun p hp => (hapart p hp).2
          have hset := wordAt_setWord_self (e := e) hroom'
            (adjustChecksum_lt (natDelta e list direction pkt) (wordAt e pkt q))
          rw [← hset]
          unfold adjustAt at hfirst hsecond
          rw [hword] at hfirst hsecond
          unfold wordAt at hfirst hsecond ⊢
          rw [hfirst, hsecond]
      · intro h
        rcases h happlies q rfl with hcheck | hsame
        · exact natKept_adjustAt hpkt happlies hcheck
        · have hdelta : natDelta e list direction pkt ≡ 0 [ZMOD 65535] := hsame.1
          have hzero := hdelta.mul_left e.factor
          rw [Int.mul_zero] at hzero
          have hstays : adjustAt e (natDelta e list direction pkt)
              (natHeader e list direction pkt) q = natHeader e list direction pkt := by
            unfold adjustAt
            rw [hword, hneutral.mpr hsame, ← hword, setWord_wordAt e hroom']
          rw [hstays]
          exact natKept_natHeader hpkt happlies (.inr hzero)

/-- The network 10.0.0.0/8 becomes 192.0.0.0/8. -/
def sampleNat : List ClientNatEntry :=
  [⟨.snat, BitVec.ofNat 32 0x0a000000, BitVec.ofNat 32 0xff000000, BitVec.ofNat 32 0xc0000000⟩]

/-- A UDP packet from 10.0.0.1 to 10.0.0.2: the first byte, the total length, the fragment
offset and the header checksum, the options and what follows the IP header. -/
def udpPacket (versionLen totLen fragOff : UInt8) (check : UInt8 × UInt8) (options rest : Bytes) :
    Bytes :=
  [versionLen, 0, 0, totLen, 0, 1, 0, fragOff, 0x40, 0x11, check.1, check.2, 0x0a, 0, 0, 1, 0x0a, 0,
    0, 2] ++ options ++ rest

theorem nat_keeps_packet_udp :
    OnesValid (transportSum (udpPacket 0x45 28 0 (0x66, 0xce) []
        [0, 1, 0, 2, 0, 8, 0xeb, 0xd8]) 8) ∧
      NatKept sampleNat .outgoing
        (udpPacket 0x45 28 0 (0x66, 0xce) [] [0, 1, 0, 2, 0, 8, 0xeb, 0xd8])
        (clientNatTransform .little sampleNat .outgoing
          (udpPacket 0x45 28 0 (0x66, 0xce) [] [0, 1, 0, 2, 0, 8, 0xeb, 0xd8])) := by
  refine ⟨by decide, (nat_keeps_packet_iff .little sampleNat .outgoing
    ⟨by decide, by decide, by decide, by decide⟩).mpr fun _ q hq => .inl ?_⟩
  exact hq ▸ (by decide)

/-- A UDP packet without a checksum gets a wrong one. Behind options the port is changed,
and in a later fragment the data. -/
theorem nat_changes_payload :
    transportCheck (udpPacket 0x45 28 0 (0x66, 0xce) [] [0, 1, 0, 2, 0, 8, 0, 0]) = none ∧
      (clientNatTransform .little sampleNat .outgoing
        (udpPacket 0x45 28 0 (0x66, 0xce) [] [0, 1, 0, 2, 0, 8, 0, 0])).drop 20 =
        [0, 1, 0, 2, 0, 8, 0x49, 0xff] ∧
      OnesValid (headerSum (udpPacket 0x46 32 0 (0x63, 0xc8) [1, 1, 1, 1]
        [0, 1, 0, 2, 0, 8, 0xeb, 0xd8])) ∧
      OnesValid (transportSum (udpPacket 0x46 32 0 (0x63, 0xc8) [1, 1, 1, 1]
        [0, 1, 0, 2, 0, 8, 0xeb, 0xd8]) 8) ∧
      (clientNatTransform .little sampleNat .outgoing (udpPacket 0x46 32 0 (0x63, 0xc8)
        [1, 1, 1, 1] [0, 1, 0, 2, 0, 8, 0xeb, 0xd8])).drop 24 = [0, 1, 0x4a, 1, 0, 8, 0xeb, 0xd8] ∧
      OnesValid (headerSum (udpPacket 0x45 28 185 (0x66, 0x15) [] [1, 2, 3, 4, 5, 6, 7, 8])) ∧
      (clientNatTransform .little sampleNat .outgoing (udpPacket 0x45 28 185 (0x66, 0x15) []
        [1, 2, 3, 4, 5, 6, 7, 8])).drop 20 = [1, 2, 3, 4, 5, 6, 0x51, 7] := by
  decide

end OpenVpn
