import OpenVpn.Base.OnesComplement
import OpenVpn.Options.ServerDirective
import OpenVpn.Util.Buffer

/-!
# IP packets in the tunnel (`proto.h`, `proto.c`)

What goes through the tunnel is an IP packet, or an Ethernet frame that may hold one,
behind an 802.1Q tag or not.

* `isIpvX` — finds the IP header.
* `adjustChecksum` — updates a checksum for changes of other words; `adjustChecksum_modEq`
  says that it does.
* `ip_header_full_iff` — when a header that was found is complete.
-/

namespace OpenVpn

open Base List Nat UInt8

/-- The sizes of the headers. -/
def SIZEOF_IPHDR : Nat := 20
def SIZEOF_IPV6HDR : Nat := 40
def SIZEOF_TCPHDR : Nat := 20
def SIZEOF_UDPHDR : Nat := 8
def SIZEOF_ETHHDR : Nat := 14
def SIZEOF_8021QHDR : Nat := 18

def OPENVPN_ETH_P_IPV4 : Nat := 0x0800
def OPENVPN_ETH_P_IPV6 : Nat := 0x86DD
def OPENVPN_ETH_P_8021Q : Nat := 0x8100

def OPENVPN_IPPROTO_TCP : UInt8 := 6
def OPENVPN_IPPROTO_UDP : UInt8 := 17

/-- A 16-bit field in network byte order. -/
def fieldAt (pkt : Bytes) (i : Nat) : Nat := 256 * (pkt.getD i 0).toNat + (pkt.getD (i + 1) 0).toNat

/-- Write a 16-bit field in network byte order. -/
def setField (pkt : Bytes) (i v : Nat) : Bytes :=
  (pkt.set i (ofNat (v / 256))).set (i + 1) (ofNat v)

/-- `OPENVPN_IPH_GET_VER`. -/
def ipVersion (versionLen : UInt8) : Nat := versionLen.toNat / 16 % 16

/-- `OPENVPN_IPH_GET_LEN`. -/
def ipHeaderLen (versionLen : UInt8) : Nat := versionLen.toNat % 16 * 4

/-- The protocol and the length of the Ethernet header, with a tag or without. -/
def ethHeader (buf : Bytes) : Nat × Nat :=
  if fieldAt buf 12 = OPENVPN_ETH_P_8021Q then (fieldAt buf 16, SIZEOF_8021QHDR)
  else (fieldAt buf 12, SIZEOF_ETHHDR)

/-- The protocol of an IP version. -/
def ethIpProto (ipVer : Nat) : Nat := if ipVer = 6 then OPENVPN_ETH_P_IPV6 else OPENVPN_ETH_P_IPV4

/-- The Ethernet part of `is_ipv_X`: the offset of the IP header. For a tagged frame the
same length is required once more. -/
def ethIpOffset (buf : Bytes) (ipVer : Nat) : Option Nat :=
  if buf.length < SIZEOF_ETHHDR + SIZEOF_IPHDR then none
  else if fieldAt buf 12 = OPENVPN_ETH_P_8021Q ∧ buf.length < SIZEOF_ETHHDR + SIZEOF_IPHDR then
    none
  else if (ethHeader buf).1 ≠ ethIpProto ipVer then none
  else some (ethHeader buf).2

/-- `is_ipv_X`: the buffer from the IP header on, or `none` for false. -/
def isIpvX (tunnelType : DevType) (buf : Bytes) (ipVer : Nat) : Option Bytes :=
  let offset := match tunnelType with
    | .tun => if buf.length < SIZEOF_IPHDR then none else some 0
    | .tap => ethIpOffset buf ipVer
    | _ => none
  match offset with
  | none => none
  | some offset =>
    if ipVersion (buf.getD offset 0) = ipVer then
      if offset ≤ buf.length then some (buf.drop offset) else none
    else none

def isIpv4 (tunnelType : DevType) (buf : Bytes) : Option Bytes := isIpvX tunnelType buf 4

def isIpv6 (tunnelType : DevType) (buf : Bytes) : Option Bytes := isIpvX tunnelType buf 6

/-! ## Fields -/

theorem fieldAt_lt (pkt : Bytes) (i : Nat) : fieldAt pkt i < 65536 := by
  have h0 := (pkt.getD i 0).toNat_lt
  have h1 := (pkt.getD (i + 1) 0).toNat_lt
  unfold fieldAt
  omega

theorem length_setField (pkt : Bytes) (i v : Nat) : (setField pkt i v).length = pkt.length := by
  unfold setField
  rw [length_set, length_set]

theorem getD_setField_of_ne (pkt : Bytes) {i j : Nat} (v : Nat) (hj : j ≠ i ∧ j ≠ i + 1) :
    (setField pkt i v).getD j 0 = pkt.getD j 0 := by
  unfold setField
  rw [getD_set_ne _ (Ne.symm hj.2), getD_set_ne _ (Ne.symm hj.1)]

theorem fieldAt_setField_self {pkt : Bytes} {i v : Nat} (hi : i + 1 < pkt.length)
    (hv : v < 65536) : fieldAt (setField pkt i v) i = v := by
  unfold fieldAt setField
  rw [getD_set_ne _ (by omega), getD_set_self (by omega),
    getD_set_self (by rw [length_set]; exact hi), toNat_ofNat', toNat_ofNat']
  omega

theorem fieldAt_setField_of_ne (pkt : Bytes) {i j : Nat} (v : Nat) (hj : j + 1 < i ∨ i + 1 < j) :
    fieldAt (setField pkt i v) j = fieldAt pkt j := by
  unfold fieldAt
  rw [getD_setField_of_ne _ _ (by omega), getD_setField_of_ne _ _ (by omega)]

theorem getD_drop (pkt : Bytes) (n i : Nat) : (pkt.drop n).getD i 0 = pkt.getD (n + i) 0 := by
  rw [getD_eq_getElem?_getD, getElem?_drop, ← getD_eq_getElem?_getD]

theorem fieldAt_drop (pkt : Bytes) (n i : Nat) : fieldAt (pkt.drop n) i = fieldAt pkt (n + i) := by
  unfold fieldAt
  rw [getD_drop, getD_drop]
  rfl

theorem onesSum_setField {pkt : Bytes} {i v : Nat} (hi : i + 1 < pkt.length) (hv : v < 65536) :
    onesSum true (setField pkt i v) ≡
      onesSum true pkt + (if i % 2 = 0 then 1 else 256) * ((v : Int) - fieldAt pkt i)
        [ZMOD 65535] := by
  have hhigh : ((ofNat (v / 256)).toNat : Int) = (v / 256 : Nat) := by
    rw [toNat_ofNat']
    omega
  have hlow : ((ofNat v).toNat : Int) = (v % 256 : Nat) := by
    rw [toNat_ofNat']
  unfold setField fieldAt
  rw [onesSum_set_set hi, hhigh, hlow]
  rcases mod_two_eq_zero_or_one i with h | h
  · rw [if_pos h, byteWeight_even true h, byteWeight_odd true (by omega), if_pos rfl, if_pos rfl]
    unfold Int.ModEq
    push_cast
    omega
  · rw [if_neg (by omega), byteWeight_odd true h, byteWeight_even true (by omega), if_pos rfl,
      if_pos rfl]
    unfold Int.ModEq
    push_cast
    omega

/-! ## Finding the header -/

theorem ethIpOffset_eq {buf : Bytes} {ipVer offset : Nat}
    (h : ethIpOffset buf ipVer = some offset) :
    SIZEOF_ETHHDR + SIZEOF_IPHDR ≤ buf.length ∧ offset = (ethHeader buf).2 := by
  unfold ethIpOffset at h
  split at h
  case isTrue => cases h
  case isFalse hlen =>
    split at h
    case isTrue => cases h
    case isFalse =>
      split at h
      case isTrue => cases h
      case isFalse => exact ⟨Nat.le_of_not_lt hlen, (Option.some.inj h).symm⟩

/-- **The IP header.** The version is read inside the buffer; the header is complete
unless the frame has a tag and is up to four bytes too short for it. -/
theorem ip_header_full_iff {tunnelType : DevType} {buf rest : Bytes} {ipVer : Nat}
    (h : isIpvX tunnelType buf ipVer = some rest) :
    (∃ offset < buf.length, rest = buf.drop offset ∧ ipVersion (buf.getD offset 0) = ipVer) ∧
      (SIZEOF_IPHDR ≤ rest.length ↔
        ¬(tunnelType = .tap ∧ fieldAt buf 12 = OPENVPN_ETH_P_8021Q ∧
          buf.length < SIZEOF_8021QHDR + SIZEOF_IPHDR)) := by
  unfold isIpvX at h
  dsimp only at h
  split at h
  case h_1 => cases h
  case h_2 offset hoffset =>
    split at h
    case isFalse => cases h
    case isTrue hver =>
      split at h
      case isFalse => cases h
      case isTrue hle =>
        obtain rfl := Option.some.inj h
        rw [length_drop]
        split at hoffset
        case h_1 =>
          split at hoffset
          case isTrue => cases hoffset
          case isFalse hlen =>
            obtain rfl := Option.some.inj hoffset
            have hiphdr : SIZEOF_IPHDR = 20 := rfl
            refine ⟨⟨0, by omega, rfl, hver⟩, iff_of_true (by omega) ?_⟩
            intro hbad
            cases hbad.1
        case h_2 =>
          obtain ⟨hlen, rfl⟩ := ethIpOffset_eq hoffset
          have hlen34 : 34 ≤ buf.length := hlen
          by_cases htag : fieldAt buf 12 = OPENVPN_ETH_P_8021Q
          · have hoff : (ethHeader buf).2 = 18 := congrArg Prod.snd (if_pos htag)
            rw [hoff] at hver ⊢
            refine ⟨⟨18, by omega, rfl, hver⟩, ?_⟩
            show 20 ≤ buf.length - 18 ↔ _
            constructor
            · intro hfull hbad
              have hshort : buf.length < 38 := hbad.2.2
              omega
            · intro hgood
              have hlong : ¬buf.length < 38 := fun hshort => hgood ⟨rfl, htag, hshort⟩
              omega
          · have hoff : (ethHeader buf).2 = 14 := congrArg Prod.snd (if_neg htag)
            rw [hoff] at hver ⊢
            refine ⟨⟨14, by omega, rfl, hver⟩, iff_of_true ?_ ?_⟩
            · show 20 ≤ buf.length - 14
              omega
            · intro hbad
              exact htag hbad.2.1
        case h_3 => cases hoffset

/-- An Ethernet frame with an IPv4 header, without a tag. -/
def plainFrame : Bytes := replicate 12 0 ++ [0x08, 0x00, 0x45] ++ replicate 19 0

theorem ip_header_full_plain :
    isIpv4 .tap plainFrame = some (plainFrame.drop 14) ∧
      SIZEOF_IPHDR ≤ (plainFrame.drop 14).length := by
  have hfound : isIpv4 .tap plainFrame = some (plainFrame.drop 14) := by decide
  exact ⟨hfound, (ip_header_full_iff hfound).2.mpr (by decide)⟩

/-- A tagged frame of 34 bytes is taken for one with an IPv4 header, of which 16 bytes are
there. -/
theorem tagged_header_short :
    (isIpv4 .tap (replicate 12 0 ++ [0x81, 0x00, 0, 1, 0x08, 0x00, 0x45] ++
      replicate 15 0)).map length = some 16 := by
  decide

/-! ## Updating a checksum -/

/-- The carries of a sum of words are added to it. -/
def foldCarries (acc : Nat) : Nat :=
  let acc := acc / 65536 + acc % 65536
  acc + acc / 65536

/-- `ADJUST_CHECKSUM`; the result is cut to 16 bits. -/
def adjustChecksum (acc : Int) (cksum : Nat) : Nat :=
  let acc := acc + cksum
  if acc < 0 then 65535 - foldCarries (-acc).toNat % 65536
  else foldCarries acc.toNat % 65536

theorem adjustChecksum_lt (acc : Int) (cksum : Nat) : adjustChecksum acc cksum < 65536 := by
  unfold adjustChecksum
  dsimp only
  split <;> omega

theorem foldCarries_spec {n : Nat} (hn : n < 2 ^ 31) :
    (foldCarries n % 65536) % 65535 = n % 65535 ∧ (0 < n → foldCarries n % 65536 ≠ 0) := by
  have hsum : n % 65535 = (n / 65536 + n % 65536) % 65535 := by omega
  have hlt : n / 65536 + n % 65536 < 2 * 65535 := by omega
  have hpos : 0 < n → n / 65536 + n % 65536 ≠ 0 := by omega
  unfold foldCarries
  rw [hsum]
  generalize n / 65536 + n % 65536 = m at hlt hpos ⊢
  dsimp only
  rcases lt_or_ge m 65536 with hsm | hlg
  · rw [div_eq_of_lt hsm, add_zero, mod_eq_of_lt hsm]
    exact ⟨rfl, hpos⟩
  · have hone : m / 65536 = 1 := by omega
    rw [hone]
    omega

/-- **A checksum that is adjusted** has the changes added to it. -/
theorem adjustChecksum_modEq {acc : Int} {cksum : Nat} (hacc : acc.natAbs < 2 ^ 30)
    (hck : cksum < 65536) : (adjustChecksum acc cksum : Int) ≡ acc + cksum [ZMOD 65535] := by
  unfold adjustChecksum Int.ModEq
  dsimp only
  split
  case isTrue hneg =>
    have hfold := foldCarries_spec (n := (-(acc + cksum)).toNat) (by omega)
    omega
  case isFalse hpos =>
    have hfold := foldCarries_spec (n := (acc + cksum).toNat) (by omega)
    omega

/-- **A checksum stays as it is** if the changes add up to zero. Zero itself has two forms, and
the sign of the sum says which of them results. -/
theorem adjustChecksum_eq_self_iff {acc : Int} {cksum : Nat} (hacc : acc.natAbs < 2 ^ 30)
    (hck : cksum < 65536) : adjustChecksum acc cksum = cksum ↔
      acc % 65535 = 0 ∧ (cksum = 0 → acc ≤ 0) ∧ (cksum = 65535 → 0 ≤ acc) := by
  have hmod : _ % _ = _ % _ := adjustChecksum_modEq hacc hck
  have hlt := adjustChecksum_lt acc cksum
  have hzero : 0 < acc + cksum → adjustChecksum acc cksum ≠ 0 := by
    intro hpos
    unfold adjustChecksum
    rw [if_neg (Int.not_lt.mpr (Int.le_of_lt hpos))]
    exact (foldCarries_spec (by omega)).2 (by omega)
  have hones : acc + cksum ≤ 0 → adjustChecksum acc cksum ≠ 65535 := by
    intro hneg
    unfold adjustChecksum
    dsimp only
    split
    case isTrue h =>
      have hfold := (foldCarries_spec (n := (-(acc + cksum)).toNat) (by omega)).2 (by omega)
      omega
    case isFalse h =>
      rw [show acc + cksum = 0 by omega]
      decide
  omega

end OpenVpn
