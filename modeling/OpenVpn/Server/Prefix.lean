import Mathlib.Tactic.Ring
import OpenVpn.Server.Routes

/-!
# Prefixes and the keys made of them

What `mroute_addr_mask_host_bits` does to the bytes of an address is to clear its last bits.

* `VirtualAddr.mask` — an address with all but its first bits cleared.
* `mrouteAddrMaskHostBits_mroute` — the loop over the bytes computes `mask`; an IPv4 address
  asked for more than 32 bits becomes zero.
* `ipv6_prefix_consistent` — the routes of `route.c` clear the same bits, and a host is
  matched when they leave the same address.
-/

namespace OpenVpn

open Base List UInt8 Nat

/-! ## Clearing bits -/

/-- The first `n` bits of an address. -/
def VirtualAddr.mask (n : Nat) : VirtualAddr → VirtualAddr
  | .v4 a => .v4 ((a >>> (32 - n)) <<< (32 - n))
  | .v6 a => .v6 ((a >>> (128 - n)) <<< (128 - n))

theorem and_allOnes_shiftLeft {w : Nat} (a : BitVec w) (k : Nat) :
    a &&& (BitVec.allOnes w <<< k) = (a >>> k) <<< k := by
  apply BitVec.eq_of_getLsbD_eq
  intro i hi
  simp only [BitVec.getLsbD_and, BitVec.getLsbD_shiftLeft, BitVec.getLsbD_ushiftRight,
    BitVec.getLsbD_allOnes]
  by_cases hk : i < k
  · simp [hk]
  · have hadd : k + (i - k) = i := by omega
    have hlt : i - k < w := by omega
    simp [hk, hadd, hi, hlt]

theorem toNat_shiftRight_shiftLeft {w : Nat} (a : BitVec w) (k : Nat) :
    ((a >>> k) <<< k).toNat = a.toNat / 2 ^ k * 2 ^ k := by
  rw [BitVec.toNat_shiftLeft, BitVec.toNat_ushiftRight, shiftRight_eq_div_pow,
    shiftLeft_eq, mod_eq_of_lt]
  exact lt_of_le_of_lt (div_mul_le_self _ _) a.isLt

theorem toNat_and_shiftLeft (b : UInt8) {k : Nat} (hk : k < 8) :
    (b &&& (0xff <<< UInt8.ofNat k)).toNat = b.toNat / 2 ^ k * 2 ^ k := by
  have hall : ∀ k : Fin 8,
      ((0xff : UInt8) <<< ofNat k).toBitVec = BitVec.allOnes 8 <<< (k : Nat) := by decide
  have hmask : ((0xff : UInt8) <<< ofNat k).toBitVec = BitVec.allOnes 8 <<< k := hall ⟨k, hk⟩
  rw [← UInt8.toNat_toBitVec, UInt8.toBitVec_and, hmask, and_allOnes_shiftLeft,
    toNat_shiftRight_shiftLeft]
  rfl

theorem beBytes_clear_byte (left v k : Nat) :
    beBytes (left + 1) (v / 2 ^ (8 + k) * 2 ^ (8 + k)) =
      beBytes left (v / 256 / 2 ^ k * 2 ^ k) ++ [0] := by
  have hpow : (2 : Nat) ^ (8 + k) = 256 * 2 ^ k := pow_add 2 8 k
  have hval : v / 2 ^ (8 + k) * 2 ^ (8 + k) = 256 * (v / 256 / 2 ^ k * 2 ^ k) := by
    rw [hpow, ← Nat.div_div_eq_div_mul]
    ring
  rw [hval, beBytes, Nat.mul_div_cancel_left _ (by omega)]
  congr 2
  apply toNat.inj
  rw [toNat_ofNat']
  exact mul_mod_right 256 _

theorem beBytes_clear_bits (left v : Nat) {k : Nat} (hk : k < 8) :
    beBytes (left + 1) (v / 2 ^ k * 2 ^ k) =
      beBytes left (v / 256) ++ [ofNat v &&& (0xff <<< ofNat k)] := by
  have hpow : (2 : Nat) ^ k * 2 ^ (8 - k) = 256 := by
    rw [← Nat.pow_add, Nat.add_sub_cancel' (Nat.le_of_lt hk)]
  have hpos : 0 < 2 ^ k := Nat.two_pow_pos k
  rw [beBytes]
  congr 2
  · rw [← hpow, ← Nat.div_div_eq_div_mul, ← Nat.div_div_eq_div_mul, Nat.mul_div_cancel _ hpos]
  · apply toNat.inj
    rw [toNat_and_shiftLeft _ hk, toNat_ofNat', toNat_ofNat']
    -- both are the remainder of `v` by `2 ^ 8`, without its last `k` bits
    show v / 2 ^ k * 2 ^ k % 256 = v % 256 / 2 ^ k * 2 ^ k
    rw [← hpow, mod_mul_right_div_self, mul_comm (v / 2 ^ k), mul_mod_mul_left,
      mul_comm]

/-- The last byte of the shifted constant is that of `0xff`. -/
def ByteMask (mask : BitVec 32) : Prop :=
  ∀ k < 8, ofNat (mask <<< k).toNat = 0xff <<< ofNat k

instance (mask : BitVec 32) : Decidable (ByteMask mask) :=
  inferInstanceAs (Decidable (∀ k < 8, _))

variable {mask : BitVec 32}

theorem maskHostBitsLoop_beBytes (hmask : ByteMask mask) (left v : Nat) (tail : Bytes) {k : Nat}
    (hk : k ≤ 8 * left) : maskHostBitsLoop mask left (beBytes left v ++ tail) k =
      (beBytes left (v / 2 ^ k * 2 ^ k) ++ tail, 0) := by
  induction left generalizing v tail k with
  | zero =>
    have hzero : k = 0 := by omega
    subst hzero
    rfl
  | succ left ih =>
    have hset : ∀ x, (beBytes (left + 1) v ++ tail).set left x =
        beBytes left (v / 256) ++ (x :: tail) := by
      intro x
      rw [beBytes, append_assoc, set_append_right _ _ (by simp)]
      simp
    have hget : (beBytes (left + 1) v ++ tail).getD left 0 = ofNat v := by
      rw [beBytes, append_assoc, getD_append_right _ _ _ _ (by simp)]
      simp
    unfold maskHostBitsLoop
    split
    · split
      · obtain ⟨k', rfl⟩ : ∃ k', k = 8 + k' := ⟨k - 8, by omega⟩
        have hsub : ((8 + k' : Nat) : Int) - 8 = (k' : Nat) := by omega
        rw [hset, hsub, ih _ _ (by omega), beBytes_clear_byte, append_assoc]
        rfl
      · have hlt : k < 8 := by omega
        have hzero : (0 : Int) = ((0 : Nat) : Int) := rfl
        rw [hset, hget, hzero, ih _ _ (zero_le _), Int.toNat_natCast, hmask k hlt,
          beBytes_clear_bits left v hlt, append_assoc]
        simp
    · have hzero : k = 0 := by omega
      subst hzero
      simp

theorem maskHostBitsLoop_bits (hmask : ByteMask mask) (a : BitVec 128) (tail : Bytes) {k : Nat}
    (hk : k ≤ 128) : maskHostBitsLoop mask 16 (beBytes 16 a.toNat ++ tail) k =
      (beBytes 16 ((a >>> k) <<< k).toNat ++ tail, 0) := by
  rw [toNat_shiftRight_shiftLeft]
  exact maskHostBitsLoop_beBytes hmask 16 a.toNat tail hk

/-! ## Keys of networks -/

/-- The address with a length, as the loop over the lengths starts with it. -/
def MrouteAddr.withNetbits (addr : MrouteAddr) (netbits : Nat) : MrouteAddr :=
  { addr with type := addr.type ||| MR_WITH_NETBITS, netbits := ofNat netbits }

/-- What `mroute_addr_mask_host_bits` makes of an address. -/
def VirtualAddr.tried (n : Nat) : VirtualAddr → VirtualAddr
  | .v4 a => if n ≤ 32 then (VirtualAddr.v4 a).mask n else .v4 0
  | .v6 a => (VirtualAddr.v6 a).mask n

theorem VirtualAddr.tried_of_le {a : VirtualAddr} {n : Nat} (h : n ≤ a.width) :
    a.tried n = a.mask n := by
  cases a with
  | v4 a => exact if_pos h
  | v6 a => rfl

theorem and_netbitsToNetmask (a : BitVec 32) (n : Nat) :
    VirtualAddr.v4 (a &&& netbitsToNetmask n) = (VirtualAddr.v4 a).tried n := by
  simp only [netbitsToNetmask, VirtualAddr.tried, VirtualAddr.mask]
  by_cases hle : n ≤ 32
  · rw [if_pos hle, ← and_allOnes_shiftLeft]
    by_cases hpos : 0 < n
    · rw [if_pos ⟨hpos, hle⟩]
    · have hzero : n = 0 := by omega
      subst hzero
      rw [if_neg (by simp)]
      simp
  · rw [if_neg hle, if_neg (fun h => hle h.2)]
    simp

theorem mroute_v6 (a : BitVec 128) (n : Nat) :
    (VirtualAddr.v6 a).mroute.withNetbits n = ⟨16, 0, MR_ADDR_IPV6 ||| MR_WITH_NETBITS,
      ofNat n, beBytes 16 a.toNat ++ List.replicate 4 0⟩ := by
  unfold VirtualAddr.mroute MrouteAddr.setRaw MrouteAddr.withNetbits mrouteAddrInit
  simp [MR_MAX_ADDR_LEN]

theorem mroute_v4 (a : BitVec 32) (n : Nat) :
    (VirtualAddr.v4 a).mroute.withNetbits n = ⟨4, 0, MR_ADDR_IPV4 ||| MR_WITH_NETBITS,
      ofNat n, beBytes 4 a.toNat ++ List.replicate 16 0⟩ := by
  unfold VirtualAddr.mroute MrouteAddr.setRaw MrouteAddr.withNetbits mrouteAddrInit
  simp [MR_MAX_ADDR_LEN]

/-- **Masking.** The code's masking of an address in the tunnel. -/
theorem mrouteAddrMaskHostBits_mroute (a : VirtualAddr) {n : Nat} (hn : n < MR_HELPER_NET_LEN) :
    mrouteAddrMaskHostBits (a.mroute.withNetbits n) = some ((a.tried n).mroute.withNetbits n) := by
  have hbits : (ofNat n).toNat = n := by
    have hlt : n < 256 := lt_trans hn (by decide)
    rw [toNat_ofNat', mod_eq_of_lt hlt]
  unfold mrouteAddrMaskHostBits
  cases a with
  | v4 a =>
    have hread :
        BitVec.ofNat 32 (beNat ((beBytes 4 a.toNat ++ List.replicate 16 0).take 4)) = a := by
      have hlt : a.toNat < 256 ^ 4 := a.isLt
      rw [take_left' (beBytes_length _ _), beNat_beBytes, mod_eq_of_lt hlt,
        BitVec.ofNat_toNat, BitVec.setWidth_eq]
    have htype : (MR_ADDR_IPV4 ||| MR_WITH_NETBITS) &&& MR_ADDR_MASK = MR_ADDR_IPV4 := by decide
    rw [← and_netbitsToNetmask, mroute_v4, mroute_v4]
    simp only [htype, if_true, hread, hbits, MrouteAddr.setRaw, beBytes_length,
      drop_left' (beBytes_length 4 a.toNat)]
  | v6 a =>
    have hclear : (128 : Int) - n = (128 - n : Nat) := by
      have hle : n ≤ 128 := le_of_lt_succ hn
      omega
    have hloop := maskHostBitsLoop_bits (show ByteMask IPV4_NETMASK_HOST by decide) a
      (replicate 4 0) (k := 128 - n) (by omega)
    have htype : (MR_ADDR_IPV6 ||| MR_WITH_NETBITS) &&& MR_ADDR_MASK = MR_ADDR_IPV6 := by decide
    have hne : MR_ADDR_IPV6 ≠ MR_ADDR_IPV4 := by decide
    rw [show (VirtualAddr.v6 a).tried n = .v6 ((a >>> (128 - n)) <<< (128 - n)) from rfl, mroute_v6,
      mroute_v6]
    simp only [htype, hne, if_false, if_true, hbits, hclear, hloop]

theorem learnKey_host (a : VirtualAddr) : learnKey a none = some a.mroute := by
  cases a <;> rfl

theorem learnKey_v4 (a : BitVec 32) (n : Nat) :
    learnKey (.v4 a) (some n) = some ((VirtualAddr.v4 a).mroute.withNetbits n) := rfl

theorem learnKey_v6 (a : BitVec 128) {n : Nat} (hn : n ≤ 128) :
    learnKey (.v6 a) (some n) = some (((VirtualAddr.v6 a).mask n).mroute.withNetbits n) :=
  mrouteAddrMaskHostBits_mroute (.v6 a) (lt_succ_of_le hn)

/-! ## Routes -/

/-- The loop of `route_ipv6_match_host`; `none` if it reads past an address. -/
def matchHostLoop : Bytes → Bytes → (bits : Nat) → Option Bool
  | n :: ns, h :: hs, bits =>
    if 8 ≤ bits then
      if n ≠ h then some false else matchHostLoop ns hs (bits - 8)
    else if bits = 0 then some true
    else
      let mask := 0xff <<< ofNat (8 - bits)
      some (decide (n &&& mask = h &&& mask))
  | _, _, bits => if bits = 0 then some true else none

def routeIpv6MatchHost (network host : Bytes) (netbits : Nat) : Option Bool :=
  if 128 < netbits then some false else matchHostLoop network host netbits

def routeIpv6ClearHostBits (network : Bytes) (netbits : Nat) : Bytes :=
  (maskHostBitsLoop 0xff 16 network (128 - netbits)).1

theorem digits_eq_iff {x y X Y e : Nat} (hX : X < e) (hY : Y < e) :
    x * e + X = y * e + Y ↔ x = y ∧ X = Y := by
  refine ⟨fun h => ?_, fun ⟨hx, hX⟩ => by rw [hx, hX]⟩
  have hdiv := congrArg (· / e) h
  simp only [mul_comm _ e, mul_add_div (zero_lt_of_lt hX), div_eq_of_lt hX,
    div_eq_of_lt hY, add_zero] at hdiv
  subst hdiv
  exact ⟨rfl, add_left_cancel h⟩

theorem beNat_cons (x : UInt8) (xs : Bytes) :
    beNat (x :: xs) = x.toNat * 256 ^ xs.length + beNat xs := by
  rw [← singleton_append, beNat_append]
  simp [beNat]

/-- The loop over the bytes compares the first `bits` bits. -/
theorem matchHostLoop_eq {xs ys : Bytes} (hlen : xs.length = ys.length) {bits : Nat}
    (hbits : bits ≤ 8 * xs.length) :
    matchHostLoop xs ys bits = some (decide (beNat xs / 2 ^ (8 * xs.length - bits) =
      beNat ys / 2 ^ (8 * xs.length - bits))) := by
  induction xs generalizing ys bits with
  | nil =>
    obtain rfl := length_eq_zero_iff.mp hlen.symm
    simp_all [matchHostLoop]
  | cons x xs ih =>
    obtain ⟨y, ys, rfl⟩ := exists_cons_of_length_eq_add_one hlen.symm
    have hlen : xs.length = ys.length := succ.inj hlen
    have hX := beNat_lt xs
    have hY := beNat_lt ys
    rw [← hlen] at hY
    have hpow : 256 ^ xs.length = 2 ^ (8 * xs.length) := (pow_mul 2 8 _).symm
    rw [beNat_cons, beNat_cons, ← hlen, length_cons]
    unfold matchHostLoop
    by_cases hbyte : 8 ≤ bits
    · -- the byte is a digit above the rest
      rw [length_cons] at hbits
      have hk : 8 * (xs.length + 1) - bits = 8 * xs.length - (bits - 8) := by omega
      have hspl : 256 ^ xs.length =
          2 ^ (8 * xs.length - (bits - 8)) * 2 ^ (bits - 8) := by
        rw [hpow, ← pow_add]
        congr 1
        omega
      have hpos : 0 < 2 ^ (8 * xs.length - (bits - 8)) := Nat.two_pow_pos _
      rw [if_pos hbyte, hk, ih hlen (by omega)]
      generalize hd : 2 ^ (8 * xs.length - (bits - 8)) = d at hspl hpos ⊢
      rw [hspl] at hX hY ⊢
      rw [mul_left_comm, mul_add_div hpos, mul_left_comm, mul_add_div hpos]
      simp only [digits_eq_iff (Nat.div_lt_of_lt_mul hX) (Nat.div_lt_of_lt_mul hY),
        UInt8.toNat_inj]
      by_cases hxy : x = y
      · simp [hxy]
      · simp [hxy]
    · -- only bits of this byte are left
      have hk : 8 * (xs.length + 1) - bits = 8 * xs.length + (8 - bits) := by omega
      have hquot : ∀ {z Z : Nat}, Z < 256 ^ xs.length →
          (z * 256 ^ xs.length + Z) / 2 ^ (8 * xs.length + (8 - bits)) = z / 2 ^ (8 - bits) := by
        intro z Z hZ
        rw [Nat.pow_add, ← hpow, ← Nat.div_div_eq_div_mul, Nat.mul_comm,
          mul_add_div (zero_lt_of_lt hZ), div_eq_of_lt hZ, add_zero]
      rw [if_neg hbyte, hk, hquot hX, hquot hY]
      by_cases hzero : bits = 0
      · have hx := x.toNat_lt
        have hy := y.toNat_lt
        rw [if_pos hzero, hzero, div_eq_of_lt hx, div_eq_of_lt hy]
        rfl
      · have hj : 8 - bits < 8 := by omega
        rw [if_neg hzero]
        simp [← UInt8.toNat_inj, toNat_and_shiftLeft _ hj]

/-- **Prefixes of IPv6 addresses.** Both functions clear the last bits of the sixteen bytes
and nothing else, and a host is matched when its network is that of the route. -/
theorem ipv6_prefix_consistent (a b : BitVec 128) {n : Nat} (hn : n ≤ 128) (tail : Bytes)
    (ma : MrouteAddr) (htype : ma.type &&& MR_ADDR_MASK = MR_ADDR_IPV6)
    (hbits : ma.netbits.toNat = n) (hraw : ma.rawAddr = beBytes 16 a.toNat ++ tail) :
    routeIpv6MatchHost (beBytes 16 a.toNat) (beBytes 16 b.toNat) n =
        some (decide (routeIpv6ClearHostBits (beBytes 16 a.toNat) n =
          routeIpv6ClearHostBits (beBytes 16 b.toNat) n)) ∧
      routeIpv6ClearHostBits (beBytes 16 a.toNat ++ tail) n =
        beBytes 16 ((a >>> (128 - n)) <<< (128 - n)).toNat ++ tail ∧
      mrouteAddrMaskHostBits ma = some { ma with
        rawAddr := routeIpv6ClearHostBits (beBytes 16 a.toNat ++ tail) n } := by
  have hclear : (128 : Int) - n = (128 - n : Nat) := by omega
  have hloop : ∀ {mask}, ByteMask mask → ∀ (a : BitVec 128) tail,
      maskHostBitsLoop mask 16 (beBytes 16 a.toNat ++ tail) (128 - n) =
        (beBytes 16 ((a >>> (128 - n)) <<< (128 - n)).toNat ++ tail, 0) := by
    intro mask hmask a tail
    rw [hclear, maskHostBitsLoop_bits hmask a tail (by omega)]
  have hroute := hloop (show ByteMask 0xff by decide)
  refine ⟨?_, by rw [routeIpv6ClearHostBits, hroute], ?_⟩
  · have hread : ∀ v : BitVec 128, beNat (beBytes 16 v.toNat) = v.toNat := fun v =>
      (beNat_beBytes 16 _).trans (mod_eq_of_lt v.isLt)
    have hnil := fun a => hroute a []
    simp only [append_nil] at hnil
    unfold routeIpv6MatchHost routeIpv6ClearHostBits
    rw [if_neg (by omega), matchHostLoop_eq (by simp) (by simpa using hn), hnil, hnil, hread, hread,
      beBytes_length]
    congr 2
    rw [eq_iff_iff]
    constructor
    · intro h
      rw [toNat_shiftRight_shiftLeft, h, toNat_shiftRight_shiftLeft]
    · intro h
      have h := beBytes_inj (BitVec.isLt _) (BitVec.isLt _) h
      rw [toNat_shiftRight_shiftLeft, toNat_shiftRight_shiftLeft] at h
      exact Nat.eq_of_mul_eq_mul_right (Nat.two_pow_pos _) h
  · have hne : MR_ADDR_IPV6 ≠ MR_ADDR_IPV4 := by decide
    unfold mrouteAddrMaskHostBits routeIpv6ClearHostBits
    rw [hraw, hbits, hroute, hloop (by decide), htype, if_neg hne, if_pos rfl]
    rfl

theorem ipv6_prefix_consistent_61 :
    mrouteAddrMaskHostBits ⟨16, 0, MR_ADDR_IPV6, 61, beBytes 16 (5#128).toNat⟩ =
      some ⟨16, 0, MR_ADDR_IPV6, 61, routeIpv6ClearHostBits (beBytes 16 (5#128).toNat) 61⟩ :=
  (ipv6_prefix_consistent 5#128 0#128 (show 61 ≤ 128 by decide) []
    ⟨16, 0, MR_ADDR_IPV6, 61, beBytes 16 (5#128).toNat⟩ (by decide) rfl rfl).2.2

/-! ## Widths -/

theorem VirtualAddr.width_lt (a : VirtualAddr) : a.width < MR_HELPER_NET_LEN := by
  cases a with
  | v4 a => show 32 < 129; omega
  | v6 a => show 128 < 129; omega

end OpenVpn
