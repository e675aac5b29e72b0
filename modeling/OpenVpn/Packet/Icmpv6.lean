import OpenVpn.Packet.Proto

/-!
# ICMPv6 unreachable replies

A packet that has no route is answered with an ICMPv6 message that carries as much of it
as fits.

* `ipChecksum` — the checksum over a message and its pseudo header;
  `ipChecksum_valid` says that a message with it is valid, `ip_checksum_rfc1071` compares it
  with the one's-complement sum of RFC 1071.
* `ipv6SendIcmpUnreachable` — the reply.
* `icmp_unreachable_well_formed_iff` — the reply is always a valid message for the
  sender of the packet; it is small enough if the packet is, or if the MTU of the tunnel
  is the least one.
-/

namespace OpenVpn

open Base List Nat Option

/-! ## The checksum -/

/-- The sum of the 16-bit words of a payload; a last odd byte is a high byte. -/
def sumWords : Bytes → Nat
  | [] => 0
  | [b] => 256 * b.toNat
  | b :: b' :: bs => 256 * b.toNat + b'.toNat + sumWords bs

/-- The loop that adds the carries. -/
def addCarries (sum : Nat) : Nat :=
  if sum / 65536 = 0 then sum else addCarries (sum % 65536 + sum / 65536)
  termination_by sum
  decreasing_by omega

/-- `ip_checksum`; the sum is kept in 32 bits. -/
def ipChecksum (payload srcAddr destAddr : Bytes) (proto : Nat) : Nat :=
  let sum := (sumWords payload + sumWords srcAddr + sumWords destAddr + payload.length % 65536 +
    proto % 65536) % 2 ^ 32
  65535 - addCarries sum % 65536

/-! ## The reply -/

def MAX_ICMPV6LEN : Nat := 1280
def SIZEOF_ICMP6HDR : Nat := 8

def OPENVPN_IPPROTO_ICMPV6 : Nat := 58
def OPENVPN_ICMP6_DESTINATION_UNREACHABLE : UInt8 := 1
def OPENVPN_ICMP6_DU_NOROUTE : UInt8 := 0

theorem fakeRemote_size : ([0xfe, 0x80] ++ replicate 13 0 ++ [7] : Bytes).length = 16 := by
  decide

/-- `fe80::7` -/
def fakeRemote : In6Addr := ⟨[0xfe, 0x80] ++ replicate 13 0 ++ [7], fakeRemote_size⟩

/-- What the reply depends on: the tunnel, the remote address if there is one, the MTU
and the buffer for the reply. `frame_finalize_options` leaves 32 bytes more than the MTU
in a buffer. -/
structure IcmpContext where
  tunnelType : DevType
  ifconfigIpv6Remote : Option In6Addr
  tunMtu : Nat
  auxBuf : Buffer
  room : tunMtu + 32 ≤ auxBuf.capacity

def IcmpContext.saddr (c : IcmpContext) : Bytes := (c.ifconfigIpv6Remote.getD fakeRemote).bytes

/-- The size of the Ethernet header of the reply. -/
def IcmpContext.ethLen (c : IcmpContext) : Nat := if c.tunnelType = .tap then SIZEOF_ETHHDR else 0

/-- How much of a packet of `len` bytes is carried. -/
def IcmpContext.payloadLen (c : IcmpContext) (len : Nat) : Nat :=
  min (min MAX_ICMPV6LEN (c.tunMtu - (SIZEOF_IPV6HDR + SIZEOF_ICMP6HDR))) len

def icmp6Header : Bytes :=
  [OPENVPN_ICMP6_DESTINATION_UNREACHABLE, OPENVPN_ICMP6_DU_NOROUTE, 0, 0, 0, 0, 0, 0]

/-- The IPv6 header of the reply to `ip`, with a payload of `len` bytes. -/
def replyHeader (ip saddr : Bytes) (len : Nat) : Bytes :=
  ip.take 4 ++ beBytes 2 len ++ [UInt8.ofNat OPENVPN_IPPROTO_ICMPV6, ip.getD 7 0] ++ saddr ++
    (ip.drop 8).take 16

/-- The Ethernet header of the reply: the addresses change places. -/
def replyEthHeader (buf : Bytes) : Bytes :=
  (buf.drop 6).take 6 ++ buf.take 6 ++ beBytes 2 OPENVPN_ETH_P_IPV6

/-- The checksum is written into the ICMP header at the front of the buffer. -/
def writeChecksum (c : IcmpContext) (ip : Bytes) (out : Buffer) : Buffer :=
  { out with
    contents := setField out.contents 2 (ipChecksum out.contents c.saddr ((ip.drop 8).take 16)
      OPENVPN_IPPROTO_ICMPV6)
    fits := by rw [length_setField]; exact out.fits }

/-- The buffer with the ICMP message and its IPv6 header; `none` if an assertion fails. -/
def buildReply (c : IcmpContext) (ip : Bytes) : Option Buffer :=
  (bufInit c.auxBuf (SIZEOF_IPV6HDR + SIZEOF_ICMP6HDR + c.ethLen)).bind fun out =>
  (bufWrite out (ip.take (c.payloadLen ip.length))).bind fun out =>
  (bufWritePrepend out icmp6Header).bind fun out =>
  bufWritePrepend (writeChecksum c ip out)
    (replyHeader ip c.saddr (SIZEOF_ICMP6HDR + c.payloadLen ip.length))

/-- `ipv6_send_icmp_unreachable`: `none` if an assertion fails, else the reply, if there
is one. -/
def ipv6SendIcmpUnreachable (c : IcmpContext) (buf : Bytes) : Option (Option Buffer) :=
  let ip := (isIpv6 c.tunnelType buf).getD buf
  if ip.length < SIZEOF_IPV6HDR then some none
  else
    (buildReply c ip).bind fun out =>
      if c.tunnelType = .tap then
        if buf.length < SIZEOF_ETHHDR then some (some out)
        else (bufWritePrepend out (replyEthHeader buf)).map some
      else some (some out)

/-! ## A message with its checksum -/

theorem sumWords_eq (bs : Bytes) : (sumWords bs : Int) = onesSum true bs := by
  fun_induction sumWords bs with
  | case1 => rfl
  | case2 b => simp [onesSum]
  | case3 b b' bs ih =>
    simp only [onesSum, Bool.not_true, Bool.not_false, if_true, Bool.false_eq_true, if_false, ← ih]
    push_cast
    ring

theorem sumWords_le (bs : Bytes) : 2 * sumWords bs ≤ 65535 * (bs.length + 1) := by
  fun_induction sumWords bs with
  | case1 => exact zero_le _
  | case2 b =>
    have hb := b.toNat_lt
    simp only [length_singleton]
    omega
  | case3 b b' bs ih =>
    have hb := b.toNat_lt
    have hb' := b'.toNat_lt
    simp only [length_cons]
    omega

theorem addCarries_spec (sum : Nat) :
    addCarries sum < 65536 ∧ addCarries sum % 65535 = sum % 65535 ∧
      (addCarries sum = 0 → sum = 0) := by
  fun_induction addCarries sum with
  | case1 sum h => exact ⟨by omega, rfl, id⟩
  | case2 sum h ih => exact ⟨ih.1, by omega, by omega⟩

section Checksum

variable {payload srcAddr destAddr : Bytes} (proto : Nat)

/-- 32 bits hold the sum. -/
theorem ipChecksum_eq (hlen : payload.length < 65536) (hsrc : srcAddr.length ≤ 16)
    (hdest : destAddr.length ≤ 16) :
    sumWords payload + sumWords srcAddr + sumWords destAddr + payload.length + proto % 65536 < 2 ^ 32 ∧
      ipChecksum payload srcAddr destAddr proto = 65535 - addCarries (sumWords payload +
        sumWords srcAddr + sumWords destAddr + payload.length + proto % 65536) := by
  have hp := sumWords_le payload
  have hs := sumWords_le srcAddr
  have hd := sumWords_le destAddr
  have hbd : sumWords payload + sumWords srcAddr + sumWords destAddr + payload.length +
      proto % 65536 < 2 ^ 32 := by omega
  refine ⟨hbd, ?_⟩
  unfold ipChecksum
  dsimp only
  rw [mod_eq_of_lt hlen, mod_eq_of_lt hbd, mod_eq_of_lt (addCarries_spec _).1]

/-- **A message with its checksum** is valid, with the pseudo header. The field is zero
when the checksum is computed. -/
theorem ipChecksum_valid {i : Nat} (heven : i % 2 = 0) (hi : i + 1 < payload.length)
    (hzero : fieldAt payload i = 0) (hlen : payload.length < 65536) (hsrc : srcAddr.length ≤ 16)
    (hdest : destAddr.length ≤ 16) :
    OnesValid (onesSum true srcAddr + onesSum true destAddr + payload.length + (proto % 65536 : Nat) +
      onesSum true (setField payload i (ipChecksum payload srcAddr destAddr proto))) := by
  obtain ⟨-, hsum⟩ := ipChecksum_eq proto hlen hsrc hdest
  obtain ⟨hlt, hmod, -⟩ := addCarries_spec (sumWords payload + sumWords srcAddr +
    sumWords destAddr + payload.length + proto % 65536)
  have hset := onesSum_setField hi (show ipChecksum payload srcAddr destAddr proto < 65536 by omega)
  rw [if_pos heven, hzero, ← sumWords_eq payload] at hset
  rw [← sumWords_eq srcAddr, ← sumWords_eq destAddr]
  have hnn := onesSum_nonneg true
    (setField payload i (ipChecksum payload srcAddr destAddr proto))
  unfold Int.ModEq at hset
  exact ⟨by omega, by omega⟩

/-- Addition with an end-around carry. -/
def onesAdd (a b : Nat) : Nat := if a + b < 65536 then a + b else a + b - 65535

/-- The big-endian words of a text, padded with a zero byte. -/
def beWords : Bytes → List Nat
  | [] => []
  | [b] => [256 * b.toNat]
  | b :: b' :: bs => (256 * b.toNat + b'.toNat) :: beWords bs

/-- The one's-complement sum of a payload and its pseudo header (RFC 1071). -/
def rfc1071Sum (payload srcAddr destAddr : Bytes) (proto : Nat) : Nat :=
  (beWords payload ++ beWords srcAddr ++ beWords destAddr ++
    [payload.length, proto % 65536]).foldl onesAdd 0

theorem beWords_spec {bs : Bytes} :
    (beWords bs).sum = sumWords bs ∧ ∀ w ∈ beWords bs, w < 65536 := by
  fun_induction beWords bs with
  | case1 => simp [sumWords]
  | case2 b =>
    have hb := b.toNat_lt
    simp [sumWords]
    omega
  | case3 b b' bs ih =>
    have hb := b.toNat_lt
    have hb' := b'.toNat_lt
    refine ⟨by simp [sumWords, ih], forall_mem_cons.mpr ⟨by omega, ih.2⟩⟩

theorem addCarries_le (sum : Nat) : addCarries sum ≤ sum := by
  fun_induction addCarries sum with
  | case1 => exact le_refl _
  | case2 sum h ih => omega

/-- The carries may be added at the end. -/
theorem onesAdd_foldl {ws : List Nat} {a : Nat} (ha : a < 65536) (hws : ∀ w ∈ ws, w < 65536) :
    ws.foldl onesAdd a = addCarries (a + ws.sum) := by
  induction ws generalizing a with
  | nil => rw [foldl_nil, sum_nil, addCarries, if_pos (by omega), add_zero]
  | cons w ws ih =>
    obtain ⟨hw, hws⟩ := forall_mem_cons.mp hws
    have hadd : onesAdd a w < 65536 ∧ onesAdd a w % 65535 = (a + w) % 65535 ∧
        (onesAdd a w = 0 ↔ a + w = 0) := by
      unfold onesAdd
      split <;> omega
    rw [foldl_cons, ih hadd.1 hws, sum_cons, ← add_assoc]
    have h := addCarries_spec (onesAdd a w + ws.sum)
    have h' := addCarries_spec (a + w + ws.sum)
    have hle := addCarries_le (onesAdd a w + ws.sum)
    have hle' := addCarries_le (a + w + ws.sum)
    omega

theorem rfc1071Sum_eq (hlen : payload.length < 65536) :
    rfc1071Sum payload srcAddr destAddr proto = addCarries (sumWords payload + sumWords srcAddr +
      sumWords destAddr + payload.length + proto % 65536) := by
  unfold rfc1071Sum
  rw [onesAdd_foldl (by omega)]
  · simp [beWords_spec, add_assoc]
  · simp only [mem_append, mem_cons, not_mem_nil, or_false]
    rintro w (((hw | hw) | hw) | rfl | rfl)
    · exact beWords_spec.2 w hw
    · exact beWords_spec.2 w hw
    · exact beWords_spec.2 w hw
    · exact hlen
    · omega

/-- **The internet checksum** is the complement of the one's-complement sum. The 32 bits of
the sum suffice, and a message that stores it in its zero checksum field sums up to all
ones. -/
theorem ip_checksum_rfc1071 (payload srcAddr destAddr : Bytes) (proto : Nat)
    (hlen : payload.length ≤ 65535) (haddr : srcAddr.length = destAddr.length)
    (hfamily : srcAddr.length = 4 ∨ srcAddr.length = 16) :
    sumWords payload + sumWords srcAddr + sumWords destAddr + payload.length + proto % 65536 < 2 ^ 32 ∧
      ipChecksum payload srcAddr destAddr proto =
        65535 - rfc1071Sum payload srcAddr destAddr proto ∧
      ∀ i, i % 2 = 0 → i + 1 < payload.length → fieldAt payload i = 0 →
        rfc1071Sum (setField payload i (ipChecksum payload srcAddr destAddr proto)) srcAddr destAddr
          proto = 65535 := by
  have hsrc : srcAddr.length ≤ 16 := by omega
  have hdest : destAddr.length ≤ 16 := by omega
  obtain ⟨hbound, hsum⟩ := ipChecksum_eq proto (lt_succ_of_le hlen) hsrc hdest
  refine ⟨hbound, by rw [hsum, rfc1071Sum_eq proto (by omega)], fun i heven hi hzero => ?_⟩
  have hvalid := ipChecksum_valid proto heven hi hzero (by omega) hsrc hdest
  rw [← sumWords_eq, ← sumWords_eq, ← sumWords_eq] at hvalid
  rw [rfc1071Sum_eq proto (by rw [length_setField]; omega), length_setField]
  obtain ⟨hlt, hmod, hpos⟩ := addCarries_spec (sumWords (setField payload i (ipChecksum payload
    srcAddr destAddr proto)) + sumWords srcAddr + sumWords destAddr + payload.length + proto % 65536)
  unfold OnesValid at hvalid
  omega

theorem ip_checksum_rfc1071_odd : rfc1071Sum (setField [1, 2, 0, 0, 3] 2
    (ipChecksum [1, 2, 0, 0, 3] [10, 0, 0, 1] [10, 0, 0, 2] 17)) [10, 0, 0, 1] [10, 0, 0, 2] 17 =
      65535 :=
  (ip_checksum_rfc1071 [1, 2, 0, 0, 3] [10, 0, 0, 1] [10, 0, 0, 2] 17 (by decide) rfl
    (.inl rfl)).2.2 2 rfl (by decide) rfl

end Checksum

/-! ## The layout of the reply -/

section Layout

variable (c : IcmpContext) (ip : Bytes)

def replyMessage : Bytes :=
  let payload := icmp6Header ++ ip.take (c.payloadLen ip.length)
  setField payload 2
    (ipChecksum payload c.saddr ((ip.drop 8).take 16) OPENVPN_IPPROTO_ICMPV6)

def replyPacket : Bytes :=
  replyHeader ip c.saddr (SIZEOF_ICMP6HDR + c.payloadLen ip.length) ++ replyMessage c ip

theorem saddr_length : c.saddr.length = 16 := (c.ifconfigIpv6Remote.getD fakeRemote).size

theorem payloadLen_le (len : Nat) : c.payloadLen len ≤ 1280 ∧ c.payloadLen len ≤ len :=
  ⟨(min_le_left _ _).trans (min_le_left _ _), min_le_right _ _⟩

variable {ip} in
theorem replyHeader_length (hip : 40 ≤ ip.length) (len : Nat) :
    (replyHeader ip c.saddr len).length = 40 := by
  simp only [replyHeader, length_append, length_take, length_drop, beBytes_length,
    length_cons, length_nil, saddr_length]
  omega

theorem replyMessage_length : (replyMessage c ip).length = 8 + c.payloadLen ip.length := by
  unfold replyMessage
  rw [length_setField, length_append, length_take, min_eq_left (payloadLen_le c _).2]
  rfl

theorem replyMessage_drop : (replyMessage c ip).drop 8 = ip.take (c.payloadLen ip.length) := by
  unfold replyMessage setField
  rw [drop_set_of_lt (by omega), drop_set_of_lt (by omega)]
  rfl

/-- The addresses, the length and the next header of the packet, as the checksum of the
message covers them, and the message. -/
def icmp6Sum (pkt : Bytes) : Int :=
  onesSum true ((pkt.drop 8).take 16) + onesSum true ((pkt.drop 24).take 16) +
    (pkt.drop 40).length + (pkt.getD 6 0).toNat + onesSum true (pkt.drop 40)

variable {c ip}

theorem replyPacket_fields (hip : 40 ≤ ip.length) :
    (replyPacket c ip).length = 48 + c.payloadLen ip.length ∧
      fieldAt (replyPacket c ip) 4 = 8 + c.payloadLen ip.length ∧
      (replyPacket c ip).getD 6 0 = 58 ∧
      ((replyPacket c ip).drop 8).take 16 = c.saddr ∧
      ((replyPacket c ip).drop 24).take 16 = (ip.drop 8).take 16 ∧
      (replyPacket c ip).drop 40 = replyMessage c ip := by
  have hlen := replyMessage_length c ip
  have hle := payloadLen_le c ip.length
  generalize hhead : ip.take 4 ++ beBytes 2 (SIZEOF_ICMP6HDR + c.payloadLen ip.length) ++
    [UInt8.ofNat OPENVPN_IPPROTO_ICMPV6, ip.getD 7 0] = head
  have hparts : replyPacket c ip =
      head ++ (c.saddr ++ ((ip.drop 8).take 16 ++ replyMessage c ip)) := by
    rw [replyPacket, replyHeader, hhead, append_assoc, append_assoc]
  have hheadlen : head.length = 8 := by
    rw [← hhead, length_append, length_append, length_take, beBytes_length]
    show min 4 ip.length + 2 + 2 = 8
    omega
  have hdest : ((ip.drop 8).take 16).length = 16 := by
    rw [length_take, length_drop]
    omega
  have hdrop8 : (replyPacket c ip).drop 8 =
      c.saddr ++ ((ip.drop 8).take 16 ++ replyMessage c ip) := by
    rw [hparts, drop_left' hheadlen]
  have hdrop24 : (replyPacket c ip).drop 24 = (ip.drop 8).take 16 ++ replyMessage c ip := by
    rw [show 24 = 8 + 16 from rfl, ← drop_drop, hdrop8, drop_left' (saddr_length c)]
  have hdrop40 : (replyPacket c ip).drop 40 = replyMessage c ip := by
    rw [show 40 = 24 + 16 from rfl, ← drop_drop, hdrop24, drop_left' hdest]
  have hdrop4 : ∃ rest, (replyPacket c ip).drop 4 =
      beBytes 2 (SIZEOF_ICMP6HDR + c.payloadLen ip.length) ++ 58 :: rest := by
    rw [hparts, ← hhead, append_assoc, append_assoc, drop_left'
      (by rw [length_take]; omega)]
    exact ⟨_, rfl⟩
  obtain ⟨rest, hrest⟩ := hdrop4
  refine ⟨?_, ?_, ?_, ?_, ?_, hdrop40⟩
  · rw [replyPacket, length_append, replyHeader_length c hip, hlen]
    omega
  · rw [show 4 = 4 + 0 from rfl, ← fieldAt_drop, hrest]
    show 256 * (UInt8.ofNat ((8 + _) / 256)).toNat + (UInt8.ofNat (8 + _)).toNat = _
    rw [UInt8.toNat_ofNat', UInt8.toNat_ofNat']
    omega
  · rw [show 6 = 4 + 2 from rfl, ← getD_drop, hrest]
    rfl
  · rw [hdrop8, take_left' (saddr_length c)]
  · rw [hdrop24, take_left' hdest]

theorem replyPacket_valid (hip : 40 ≤ ip.length) : OnesValid (icmp6Sum (replyPacket c ip)) := by
  obtain ⟨-, -, hnext, hsrc, hdest, hmsg⟩ := replyPacket_fields (c := c) hip
  have hle := payloadLen_le c ip.length
  unfold icmp6Sum
  rw [hnext, hsrc, hdest, hmsg, replyMessage, length_setField]
  refine ipChecksum_valid OPENVPN_IPPROTO_ICMPV6 rfl ?_ ?_ ?_ ?_ ?_
  · rw [length_append]
    show 3 < 8 + _
    omega
  · rfl
  · rw [length_append, length_take]
    show 8 + _ < 65536
    omega
  · exact (saddr_length c).le
  · exact length_take_le 16 _

theorem buildReply_isSome (hip : 40 ≤ ip.length) (hmtu : 48 ≤ c.tunMtu) :
    ∃ out, buildReply c ip = some out ∧ out.offset = c.ethLen ∧
      out.contents = replyPacket c ip := by
  have hlen : c.payloadLen ip.length ≤ c.tunMtu - 48 :=
    (min_le_left _ _).trans (min_le_right _ _)
  have hle := payloadLen_le c ip.length
  have hroom := c.room
  have heth : c.ethLen ≤ 14 := by
    unfold IcmpContext.ethLen
    split
    · exact le_refl 14
    · exact zero_le 14
  have htake : (ip.take (c.payloadLen ip.length)).length = c.payloadLen ip.length := by
    rw [length_take, min_eq_left hle.2]
  unfold buildReply
  have hinit : 48 + c.ethLen ≤ c.auxBuf.capacity := by omega
  obtain ⟨out0, hout0, hcap0, hoff0, hcont0⟩ := bufInit_isSome hinit
  obtain ⟨out1, hout1, hoff1, -, hcont1⟩ := bufWrite_isSome out0
    (ip.take (c.payloadLen ip.length)) (by rw [htake]; unfold BUF_SIZE_MAX; omega)
    (by rw [htake, hoff0, hcont0, hcap0, length_nil]; omega)
  have hroom1 : icmp6Header.length ≤ out1.offset := by
    rw [hoff1, hoff0]
    show 8 ≤ _
    omega
  obtain ⟨out2, hout2, hoff2, hcont2⟩ := bufWritePrepend_isSome hroom1
  rw [hcont1, hcont0, nil_append] at hcont2
  have hhead := replyHeader_length c hip (SIZEOF_ICMP6HDR + c.payloadLen ip.length)
  have hicmp : icmp6Header.length = 8 := rfl
  have hroom2 : (replyHeader ip c.saddr (SIZEOF_ICMP6HDR + c.payloadLen ip.length)).length ≤
      (writeChecksum c ip out2).offset := by
    rw [hhead]
    show 40 ≤ out2.offset
    omega
  obtain ⟨out3, hout3, hoff3, hcont3⟩ := bufWritePrepend_isSome hroom2
  refine ⟨out3, ?_, ?_, ?_⟩
  · show (bufInit c.auxBuf (48 + c.ethLen)).bind _ = _
    rw [hout0, bind_some, hout1, bind_some, hout2, bind_some, hout3]
  · rw [hoff3, hhead]
    show out2.offset - 40 = _
    omega
  · rw [hcont3, replyPacket, replyMessage, ← hcont2]
    rfl

theorem isIpvX_length_le {tunnelType : DevType} {buf rest : Bytes} {ipVer : Nat}
    (h : isIpvX tunnelType buf ipVer = some rest) : rest.length ≤ buf.length := by
  unfold isIpvX at h
  dsimp only at h
  split at h
  case h_1 => cases h
  case h_2 offset _ =>
    split at h
    case isFalse => cases h
    case isTrue =>
      split at h
      case isFalse => cases h
      case isTrue =>
        obtain rfl := some.inj h
        rw [length_drop]
        exact sub_le _ _

theorem ipv6SendIcmpUnreachable_isSome {buf : Bytes} (hip : 40 ≤ ip.length)
    (hmtu : 48 ≤ c.tunMtu) (hfnd : isIpv6 c.tunnelType buf = some ip) :
    ∃ out, ipv6SendIcmpUnreachable c buf = some (some out) ∧
      out.contents.drop c.ethLen = replyPacket c ip := by
  obtain ⟨out, hout, hoff, hcont⟩ := buildReply_isSome hip hmtu
  have hlen : 40 ≤ buf.length := hip.trans (isIpvX_length_le hfnd)
  have hsh : ¬ip.length < SIZEOF_IPV6HDR := not_lt.mpr hip
  unfold ipv6SendIcmpUnreachable
  rw [hfnd, getD_some]
  dsimp only
  rw [if_neg hsh, hout, bind_some]
  by_cases htap : c.tunnelType = .tap
  · have heth : c.ethLen = 14 := if_pos htap
    have hfr : ¬buf.length < SIZEOF_ETHHDR := by
      show ¬buf.length < 14
      omega
    have hhead : (replyEthHeader buf).length = 14 := by
      rw [replyEthHeader, length_append, length_append, length_take,
        length_take, length_drop, beBytes_length]
      omega
    have hroom : (replyEthHeader buf).length ≤ out.offset := by
      rw [hhead, hoff, heth]
    obtain ⟨frame, hprep, -, hcon⟩ := bufWritePrepend_isSome hroom
    rw [if_pos htap, if_neg hfr, hprep]
    refine ⟨frame, rfl, ?_⟩
    rw [hcon, heth, drop_left' hhead, hcont]
  · have heth : c.ethLen = 0 := if_neg htap
    rw [if_neg htap]
    refine ⟨out, rfl, ?_⟩
    rw [heth, drop_zero, hcont]

end Layout

/-! ## Well-formed replies -/

/-- **Replies.** The reply to an IPv6 packet goes to its source, carries a prefix of it
that nothing which fits into the smallest IPv6 MTU exceeds, and has the right length and a
valid checksum. It fits into this MTU itself exactly if the whole packet does, with the
headers, or the tunnel has this MTU: the headers are only counted for the MTU of the
tunnel. -/
theorem icmp_unreachable_well_formed_iff {c : IcmpContext} {buf ip : Bytes}
    (hfound : isIpv6 c.tunnelType buf = some ip) (hip : SIZEOF_IPV6HDR ≤ ip.length)
    (hmtu : 1280 ≤ c.tunMtu) :
    ∃ out, ipv6SendIcmpUnreachable c buf = some (some out) ∧
      let pkt := out.contents.drop c.ethLen
      (fieldAt pkt 4 = (pkt.drop SIZEOF_IPV6HDR).length ∧
        (pkt.drop 24).take 16 = (ip.drop 8).take 16 ∧
        OnesValid (icmp6Sum pkt) ∧
        pkt.drop (SIZEOF_IPV6HDR + SIZEOF_ICMP6HDR) <+: ip ∧
        ∀ n ≤ ip.length, SIZEOF_IPV6HDR + SIZEOF_ICMP6HDR + n ≤ 1280 →
          n ≤ (pkt.drop (SIZEOF_IPV6HDR + SIZEOF_ICMP6HDR)).length) ∧
      (pkt.length ≤ 1280 ↔
        SIZEOF_IPV6HDR + SIZEOF_ICMP6HDR + ip.length ≤ 1280 ∨ c.tunMtu = 1280) := by
  have hip40 : 40 ≤ ip.length := hip
  obtain ⟨out, hout, hpkt⟩ := ipv6SendIcmpUnreachable_isSome hip40 (by omega) hfound
  obtain ⟨hlen, hfield, -, -, hdest, hmsg⟩ := replyPacket_fields (c := c) hip40
  have hcarried : (replyPacket c ip).drop 48 = ip.take (c.payloadLen ip.length) := by
    rw [show 48 = 40 + 8 from rfl, ← drop_drop, hmsg, replyMessage_drop]
  have hpay : c.payloadLen ip.length = min (min 1280 (c.tunMtu - 48)) ip.length := rfl
  refine ⟨out, hout, ?_⟩
  dsimp only
  rw [hpkt]
  refine ⟨⟨?_, hdest, replyPacket_valid hip40, ?_, ?_⟩, ?_⟩
  · rw [hfield, show SIZEOF_IPV6HDR = 40 from rfl, hmsg, replyMessage_length]
  · show (replyPacket c ip).drop 48 <+: ip
    rw [hcarried]
    exact take_prefix _ _
  · intro n hn hfits
    have hfits48 : 48 + n ≤ 1280 := hfits
    show n ≤ ((replyPacket c ip).drop 48).length
    rw [hcarried, length_take, min_eq_left (payloadLen_le c _).2]
    omega
  · show _ ↔ 48 + ip.length ≤ 1280 ∨ _
    rw [hlen]
    omega

theorem tunContext_room : 1500 + 32 ≤ 1600 := by decide

/-- A tunnel of MTU 1500 with buffers of 1600 bytes. -/
def tunContext : IcmpContext :=
  { tunnelType := .tun
    ifconfigIpv6Remote := none
    tunMtu := 1500
    auxBuf := ⟨1600, 0, [], zero_le 1600⟩
    room := tunContext_room }

/-- An IPv6 packet with `n` bytes after the header. -/
def ipv6Packet (n : Nat) : Bytes := 0x60 :: replicate (39 + n) 0

theorem isIpv6_ipv6Packet (n : Nat) : isIpv6 .tun (ipv6Packet n) = some (ipv6Packet n) := by
  have hlen : ¬(ipv6Packet n).length < SIZEOF_IPHDR := by
    show ¬(replicate (39 + n) (0 : UInt8)).length + 1 < 20
    rw [length_replicate]
    omega
  have hver : ipVersion ((ipv6Packet n).getD 0 0) = 6 := by
    show ipVersion 0x60 = 6
    decide
  unfold isIpv6 isIpvX
  dsimp only
  rw [if_neg hlen]
  dsimp only
  rw [if_pos hver, if_pos (zero_le _), drop_zero]

theorem ipv6Packet_length (n : Nat) : (ipv6Packet n).length = 40 + n := by
  rw [ipv6Packet, length_cons, length_replicate]
  omega

/-- A packet of 40 bytes. -/
theorem icmp_unreachable_well_formed_short :
    ∃ out, ipv6SendIcmpUnreachable tunContext (ipv6Packet 0) = some (some out) ∧
      (out.contents.drop tunContext.ethLen).length ≤ 1280 := by
  obtain ⟨out, hout, -, hsize⟩ := icmp_unreachable_well_formed_iff (c := tunContext)
    (isIpv6_ipv6Packet 0) (by decide) (by decide)
  exact ⟨out, hout, hsize.mpr (.inl (by decide))⟩

/-- A packet of 1500 bytes is answered with one of 1328. -/
theorem reply_exceeds_minimum_mtu :
    ∃ out, ipv6SendIcmpUnreachable tunContext (ipv6Packet 1460) = some (some out) ∧
      (out.contents.drop tunContext.ethLen).length = 1328 := by
  have hip : 40 ≤ (ipv6Packet 1460).length := by
    rw [ipv6Packet_length]
    omega
  obtain ⟨out, hout, hpkt⟩ := ipv6SendIcmpUnreachable_isSome (c := tunContext) hip (by decide)
    (isIpv6_ipv6Packet 1460)
  refine ⟨out, hout, ?_⟩
  rw [hpkt, (replyPacket_fields hip).1, ipv6Packet_length]
  rfl

end OpenVpn
