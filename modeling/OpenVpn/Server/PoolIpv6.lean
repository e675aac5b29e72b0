import OpenVpn.Server.PoolPersist

/-!
# IPv6 addresses of the pool (`pool.c`)

The addresses of an IPv6 pool count up from its base. The size of the pool is taken
from the host part of the base only if the prefix has 112 bits or more, and an address is
mapped back to its handle by its last four bytes, while the sum carries through all bytes.

* `poolIpv6_first` — the first address.
* `pool_ipv6_exact_iff` — when the addresses are in the prefix, usable and mapped back.
-/

namespace OpenVpn

open Base List Nat Option

/-! ## Parts of an address -/

theorem In6Addr.value_lt (a : In6Addr) : a.value < 2 ^ 128 := by
  have hlt := beNat_lt a.bytes
  rw [a.size] at hlt
  exact hlt

theorem In6Addr.value_split (a : In6Addr) :
    a.value = beNat (a.bytes.take 12) * 2 ^ 32 + beNat (a.bytes.drop 12) ∧
      beNat (a.bytes.drop 12) < 2 ^ 32 := by
  have hlen : (a.bytes.drop 12).length = 4 := by rw [length_drop, a.size]
  constructor
  · have happ := beNat_append (a.bytes.take 12) (a.bytes.drop 12)
    rw [take_append_drop, hlen] at happ
    exact happ
  · have hlt := beNat_lt (a.bytes.drop 12)
    rw [hlen] at hlt
    exact hlt

theorem In6Addr.low_toNat (a : In6Addr) : a.low.toNat = a.value % 2 ^ 32 := by
  obtain ⟨hspl, hlt⟩ := a.value_split
  rw [In6Addr.low, BitVec.toNat_ofNat, hspl]
  omega

theorem In6Addr.take_eq_iff (a b : In6Addr) :
    a.bytes.take 12 = b.bytes.take 12 ↔ a.value / 2 ^ 32 = b.value / 2 ^ 32 := by
  obtain ⟨ha, halt⟩ := a.value_split
  obtain ⟨hb, hblt⟩ := b.value_split
  constructor
  · intro h
    rw [ha, hb, h]
    omega
  · intro h
    apply beNat_inj
    · rw [length_take, length_take, a.size, b.size]
    · omega

variable {k : Nat}

theorem add_mod_div_eq_iff {w x n : Nat} (hk : k ≤ w) (hx : x < 2 ^ w) (hn : n + 2 ^ k ≤ 2 ^ w) :
    (x + n) % 2 ^ w / 2 ^ k = x / 2 ^ k ↔ x % 2 ^ k + n < 2 ^ k := by
  have hpow : 2 ^ w = 2 ^ k * 2 ^ (w - k) := by rw [← Nat.pow_add, Nat.add_sub_cancel' hk]
  have hpos : 0 < 2 ^ k := Nat.two_pow_pos k
  have hsum : (x + n) / 2 ^ k = x / 2 ^ k + (x % 2 ^ k + n) / 2 ^ k := by
    conv_lhs => rw [← div_add_mod x (2 ^ k), add_assoc, mul_add_div hpos]
  have hhigh : x / 2 ^ k < 2 ^ (w - k) := by
    rw [div_lt_iff_lt_mul hpos, mul_comm, ← hpow]
    exact hx
  have hcarry : (x % 2 ^ k + n) / 2 ^ k < 2 ^ (w - k) := by
    rw [div_lt_iff_lt_mul hpos, mul_comm, ← hpow]
    have hlow : x % 2 ^ k < 2 ^ k := mod_lt x hpos
    omega
  rw [hpow, mod_mul_right_div_self, hsum, ← div_eq_zero_iff_lt hpos]
  generalize (x % 2 ^ k + n) / 2 ^ k = carry at hcarry ⊢
  generalize x / 2 ^ k = high at hhigh ⊢
  constructor
  · intro h
    by_cases hwrap : high + carry < 2 ^ (w - k)
    · rw [mod_eq_of_lt hwrap] at h
      omega
    · rw [mod_eq_sub_mod (by omega), mod_eq_of_lt (by omega)] at h
      omega
  · intro h
    rw [h, add_zero, mod_eq_of_lt hhigh]

/-! ## The base -/

theorem modify_last (l : Bytes) (b : UInt8) (f : UInt8 → UInt8) :
    (l ++ [b]).modify l.length f = l ++ [f b] := by
  induction l with
  | nil => rfl
  | cons a l ih => exact congrArg (a :: ·) ih

theorem value_modify_last {a a' : In6Addr} (hbs : a'.bytes = a.bytes.modify 15 (· + 1))
    (hlast : a.value % 2 ^ 4 = 0) : a'.value = a.value + 1 := by
  rcases eq_nil_or_concat' a.bytes with hnil | ⟨l, b, hconcat⟩
  · have hsize := a.size
    simp [hnil] at hsize
  · have hlen : l.length = 15 := by
      have hsize := a.size
      rw [hconcat, length_append, length_singleton] at hsize
      omega
    unfold In6Addr.value at hlast ⊢
    rw [hbs, hconcat, ← hlen, modify_last, beNat_concat, beNat_concat]
    rw [hconcat, beNat_concat] at hlast
    have hb : b.toNat < 256 := b.toNat_lt
    rw [UInt8.toNat_add, UInt8.toNat_one]
    omega

theorem toNat_and_mask (hk : k < 32) (x : BitVec 32) :
    (x &&& ((1#32 <<< k) - 1#32)).toNat = x.toNat % 2 ^ k := by
  have hpow : 2 ^ k < 2 ^ 32 := Nat.pow_lt_pow_right (by decide) hk
  have hpos : 0 < 2 ^ k := Nat.two_pow_pos k
  have hmask : (2 ^ 32 - (1#32).toNat + (1#32).toNat * 2 ^ k % 2 ^ 32) % 2 ^ 32 = 2 ^ k - 1 := by
    rw [show (1#32).toNat = 1 from rfl, one_mul]
    omega
  rw [BitVec.toNat_and, BitVec.toNat_sub, BitVec.toNat_shiftLeft, shiftLeft_eq, hmask,
    and_two_pow_sub_one_eq_mod]

/-- The bits of the host part that `ifconfig_pool_init` looks at. -/
def poolHostBits (netbits : Nat) : Nat := min 32 (128 - netbits)

theorem host_toNat (a : In6Addr) (netbits : Nat) :
    (if 128 - netbits < 32 then a.low &&& ((1#32 <<< (128 - netbits)) - 1#32)
      else a.low).toNat = a.value % 2 ^ poolHostBits netbits := by
  unfold poolHostBits
  split
  case isTrue h =>
    rw [toNat_and_mask h, a.low_toNat, min_eq_right (le_of_lt h)]
    exact mod_mod_of_dvd _ (pow_dvd_pow 2 (le_of_lt h))
  case isFalse h => rw [a.low_toNat, Nat.min_eq_left (Nat.le_of_not_lt h)]

variable {netbits : Nat}

/-- **The first address** is the base, or the one after it if its host part is zero. -/
theorem poolIpv6_first (a : In6Addr) (hbits : netbits ≤ 124) :
    (poolIpv6 a netbits).1.value =
      a.value + if a.value % 2 ^ poolHostBits netbits = 0 then 1 else 0 := by
  have hhost := host_toNat a netbits
  unfold poolIpv6
  dsimp only
  generalize (if 128 - netbits < 32 then a.low &&& ((1#32 <<< (128 - netbits)) - 1#32)
    else a.low) = host at hhost ⊢
  rw [← hhost]
  by_cases hzero : host = 0#32
  · rw [if_pos hzero, if_pos (by rw [hzero]; rfl)]
    apply value_modify_last rfl
    rw [hzero] at hhost
    have hdvd : 2 ^ 4 ∣ 2 ^ poolHostBits netbits :=
      pow_dvd_pow 2 (by unfold poolHostBits; omega)
    rw [← mod_mod_of_dvd _ hdvd, ← hhost]
    rfl
  · have hne : host.toNat ≠ 0 := by
      intro h
      exact hzero (BitVec.eq_of_toNat_eq h)
    rw [if_neg hzero, if_neg hne, add_zero]

theorem two_pow_poolHostBits (hbits : netbits ≤ 124) : 2 ^ 4 ≤ 2 ^ poolHostBits netbits :=
  Nat.pow_le_pow_right (by decide) (by unfold poolHostBits; omega)

theorem poolIpv6_first_mod (a : In6Addr) (hbits : netbits ≤ 124) :
    (poolIpv6 a netbits).1.value % 2 ^ poolHostBits netbits =
      max 1 (a.value % 2 ^ poolHostBits netbits) := by
  have hlg := two_pow_poolHostBits hbits
  rw [poolIpv6_first a hbits]
  split
  case isTrue h =>
    rw [h, add_mod, h, zero_add, mod_mod, mod_eq_of_lt (by omega)]
    rfl
  case isFalse h =>
    rw [add_zero]
    omega

theorem poolIpv6_first_div (a : In6Addr) (hbits : netbits ≤ 124) (hk : poolHostBits netbits ≤ k) :
    (poolIpv6 a netbits).1.value / 2 ^ k = a.value / 2 ^ k := by
  have hlg := two_pow_poolHostBits hbits
  have hpow : 2 ^ k = 2 ^ poolHostBits netbits * 2 ^ (k - poolHostBits netbits) := by
    rw [← Nat.pow_add, Nat.add_sub_cancel' hk]
  rw [hpow, ← Nat.div_div_eq_div_mul, ← Nat.div_div_eq_div_mul, poolIpv6_first a hbits]
  split
  case isTrue h =>
    have hmul : a.value = 2 ^ poolHostBits netbits * (a.value / 2 ^ poolHostBits netbits) :=
      (Nat.mul_div_cancel' (Nat.dvd_of_mod_eq_zero h)).symm
    have hsum : (a.value + 1) / 2 ^ poolHostBits netbits = a.value / 2 ^ poolHostBits netbits := by
      have hone : 1 / 2 ^ poolHostBits netbits = 0 := div_eq_of_lt (by omega)
      conv_lhs => rw [hmul, mul_add_div (by omega), hone, add_zero]
    rw [hsum]
  case isFalse => rfl

/-! ## The addresses -/

/-- The addresses of all handles lie in the prefix of `base`, have a host part and are
different, and each is mapped back to its handle. -/
def PoolIpv6Ok (base : In6Addr) (netbits : Nat) (pool : IfconfigPool) : Prop :=
  ∀ h < pool.list.length, ∃ addr, (poolAddrs pool h).remote6 = some addr ∧
    addr.value / 2 ^ (128 - netbits) = base.value / 2 ^ (128 - netbits) ∧
    addr.value % 2 ^ (128 - netbits) ≠ 0 ∧
    (∀ h' < pool.list.length, (poolAddrs pool h').remote6 = some addr → h' = h) ∧
    ifconfigPoolIpv6BaseToHandle pool addr = some h

/-- A handle comes back iff its address does not carry into the upper 96 bits. -/
theorem ipv6BaseToHandle_iff {pool : IfconfigPool} (hsize : PoolSizeOk pool) {first : In6Addr}
    (hfst : pool.ipv6 = some first) {h : Nat} (hh : h < pool.list.length) :
    ifconfigPoolIpv6BaseToHandle pool (addIn6Addr first h) = some h ↔
      (first.value + h) % 2 ^ 128 / 2 ^ 32 = first.value / 2 ^ 32 := by
  have hlt := hsize.1
  have hv : (addIn6Addr first h).value = (first.value + h) % 2 ^ 128 :=
    addIn6Addr_value first h
  have hdiff : ((addIn6Addr first h).low - first.low).toNat = h := by
    rw [BitVec.toNat_sub, In6Addr.low_toNat, In6Addr.low_toNat, hv]
    omega
  have hint : ((addIn6Addr first h).low - first.low).toInt = (h : Int) := by
    rw [BitVec.toInt_eq_toNat_of_lt (by omega), hdiff]
  unfold ifconfigPoolIpv6BaseToHandle
  rw [hfst]
  dsimp only [getD_some]
  have hhnd : offsetToHandle pool.list.length ((addIn6Addr first h).low - first.low) =
      some h := by
    rw [offsetToHandle, hint, hdiff, if_neg (by omega)]
  rw [hhnd]
  simp only [In6Addr.take_eq_iff, hv]
  constructor
  · intro hsome
    by_contra hne
    rw [if_neg (fun heq => hne heq.symm)] at hsome
    exact some_ne_none h hsome.symm
  · intro heq
    rw [if_pos heq.symm]

/-- **IPv6 pool addresses.** They are as they should be iff the addresses do not run over
the end of the prefix, or of the last four bytes. -/
theorem pool_ipv6_exact_iff {ipv4Pool : Bool} {type : PoolType} {start stop : BitVec 32}
    {duplicateCn : Bool} {ipv6Base : In6Addr} {netbits : Nat} {pool : IfconfigPool}
    (hbits : 64 ≤ netbits ∧ netbits ≤ 124)
    (hinit : ifconfigPoolInit ipv4Pool type start stop duplicateCn true ipv6Base netbits =
      some pool) :
    PoolIpv6Ok ipv6Base netbits pool ↔
      max 1 (ipv6Base.value % 2 ^ min 32 (128 - netbits)) + pool.list.length ≤
        2 ^ min 32 (128 - netbits) := by
  obtain ⟨-, -, hpos, hipv6⟩ := ifconfigPoolInit_fresh hinit
  have hsize := ifconfigPoolInit_size hinit
  have hlt := hsize.1
  have hmod := poolIpv6_first_mod ipv6Base hbits.2
  have hdiv := fun {k} => poolIpv6_first_div ipv6Base (k := k) hbits.2
  have hbase : min 32 (128 - netbits) = poolHostBits netbits := rfl
  generalize (poolIpv6 ipv6Base netbits).1 = first at hipv6 hmod hdiv
  generalize poolHostBits netbits = k₀ at hmod hdiv hbase
  have hfirst := first.value_lt
  have hremote : ∀ h, (poolAddrs pool h).remote6 = some (addIn6Addr first h) := by
    intro h
    show pool.ipv6.map (addIn6Addr · h) = _
    rw [hipv6]
    rfl
  have hnetbits : k₀ ≤ 128 - netbits := by omega
  have hcarry : ∀ {k h}, k ≤ 64 → h < pool.list.length →
      ((first.value + h) % 2 ^ 128 / 2 ^ k = first.value / 2 ^ k ↔
        first.value % 2 ^ k + h < 2 ^ k) := by
    intro k h hk hh
    apply add_mod_div_eq_iff (by omega) hfirst
    have hpow : 2 ^ k ≤ 2 ^ 64 := Nat.pow_le_pow_right (by decide) hk
    omega
  rw [hbase, ← hmod]
  constructor
  · intro hok
    -- the last address decides
    have hlast : pool.list.length - 1 < pool.list.length := by omega
    obtain ⟨addr, haddr, hnet, -, -, hback⟩ := hok (pool.list.length - 1) hlast
    rw [hremote, some.injEq] at haddr
    subst haddr
    have hroom : first.value % 2 ^ k₀ + (pool.list.length - 1) < 2 ^ k₀ := by
      rcases le_total 32 (128 - netbits) with hbig | hsmall
      · -- the last four bytes belong to the host part
        have hmin : k₀ = 32 := by omega
        rw [hmin, ← hcarry (by decide) hlast]
        exact (ipv6BaseToHandle_iff hsize hipv6 hlast).mp hback
      · have hmin : k₀ = 128 - netbits := by omega
        rw [hmin, ← hcarry (by omega) hlast, hdiv hnetbits, ← hnet, addIn6Addr_value]
        rfl
    omega
  · intro hroom h hh
    have hkeep : ∀ {k}, k₀ ≤ k → k ≤ 64 →
        (first.value + h) % 2 ^ 128 / 2 ^ k = first.value / 2 ^ k := by
      intro k hk hk64
      have hpow : 2 ^ k = 2 ^ k₀ * 2 ^ (k - k₀) := by
        rw [← Nat.pow_add, Nat.add_sub_cancel' hk]
      rw [hpow, ← Nat.div_div_eq_div_mul, ← Nat.div_div_eq_div_mul,
        (hcarry (by omega) hh).mpr (by omega)]
    refine ⟨_, hremote h, ?_, ?_, ?_, (ipv6BaseToHandle_iff hsize hipv6 hh).mpr ?_⟩
    · rw [addIn6Addr_value, ← hdiv hnetbits]
      exact hkeep hnetbits (by omega)
    · intro hzero
      have hdvd : 2 ^ k₀ ∣ 2 ^ (128 - netbits) := pow_dvd_pow 2 hnetbits
      have hlowzero : (first.value + h) % 2 ^ k₀ = 0 := by
        have hdvd' : 2 ^ k₀ ∣ 256 ^ 16 := by
          show _ ∣ 2 ^ 128
          exact pow_dvd_pow 2 (by omega)
        rw [← mod_mod_of_dvd _ hdvd', ← addIn6Addr_value, ← mod_mod_of_dvd _ hdvd, hzero]
        rfl
      have hone : 1 ≤ first.value % 2 ^ k₀ := by
        rw [hmod]
        exact le_max_left _ _
      have hlt : h < 2 ^ k₀ := by omega
      rw [add_mod, mod_eq_of_lt hlt, mod_eq_of_lt (by omega)] at hlowzero
      omega
    · intro h' hh' heq
      rw [hremote, some.injEq] at heq
      exact addIn6Addr_inj (by omega) (by omega) heq
    · exact hkeep (by omega) (by decide)

/-- fd00::2/124 has 14 addresses. -/
theorem pool_ipv6_exact_14 :
    ∃ pool, ifconfigPoolInit false .indiv 0#32 0#32 false true
        ⟨[0xfd, 0, 0, 0, 0, 0, 0, 0, 0, 0, 0, 0, 0, 0, 0, 2], rfl⟩ 124 = some pool ∧
      PoolIpv6Ok ⟨[0xfd, 0, 0, 0, 0, 0, 0, 0, 0, 0, 0, 0, 0, 0, 0, 2], rfl⟩ 124 pool := by
  have hinit : ifconfigPoolInit false .indiv 0#32 0#32 false true
      ⟨[0xfd, 0, 0, 0, 0, 0, 0, 0, 0, 0, 0, 0, 0, 0, 0, 2], rfl⟩ 124 =
        some ⟨false, none, some ⟨[0xfd, 0, 0, 0, 0, 0, 0, 0, 0, 0, 0, 0, 0, 0, 0, 2], rfl⟩,
          replicate 14 .cleared⟩ := by decide
  exact ⟨_, hinit, (pool_ipv6_exact_iff (by decide) hinit).mpr (by decide)⟩

/-- A pool of four clients whose IPv6 base is at the end of a /64. -/
def edgePool : IfconfigPool where
  duplicateCn := false
  ipv4 := some (.indiv, 0x0a080002#32)
  ipv6 := some ⟨[0xfd, 0, 0, 0, 0, 0, 0, 0, 255, 255, 255, 255, 255, 255, 255, 254], rfl⟩
  list := replicate 4 .cleared

/-- fd00::ffff:ffff:ffff:fffe/64: the third client gets the address fd00:0:0:1::, which has
another prefix, no host part, and is not mapped back. -/
theorem pool_ipv6_leaves_prefix :
    ifconfigPoolInit true .indiv 0x0a080002#32 0x0a080005#32 false true
        ⟨[0xfd, 0, 0, 0, 0, 0, 0, 0, 255, 255, 255, 255, 255, 255, 255, 254], rfl⟩ 64 =
          some edgePool ∧
      (poolAddrs edgePool 2).remote6 =
        some ⟨[0xfd, 0, 0, 0, 0, 0, 0, 1, 0, 0, 0, 0, 0, 0, 0, 0], rfl⟩ ∧
      ifconfigPoolIpv6BaseToHandle edgePool
        ⟨[0xfd, 0, 0, 0, 0, 0, 0, 1, 0, 0, 0, 0, 0, 0, 0, 0], rfl⟩ = none := by
  decide

end OpenVpn
