import Mathlib.Data.Nat.Digits.Lemmas
import OpenVpn.Base.CString
import OpenVpn.Server.Pool
import OpenVpn.Util.Buffer

/-!
# The file of the address pool

`ifconfig_pool_write` writes one line `CN,IP4,IP6` for each entry that has a
common name; `ifconfig_pool_read` puts the names of such a file back.

The addresses are printed and parsed by the C library. `AddrText` says what is
used of it: what was printed is parsed back, and a printed address is a short
text without a comma, an end of line or a NUL.

* `bufParse`, `statusRead`, `statusPrintf` — a field, a line, a line written.
* `ifconfigPoolWrite`, `ifconfigPoolRead` — the file.
* `readPoolLine_poolLine` — a line that was written sets its handle again.
* `pool_persist_round_trip_iff` — the names that survive.
-/

namespace OpenVpn

open Base List Option Nat

/-- Printing addresses and reading them, with `getaddr` or `get_ipv6_addr`; `maxLen` is the
longest text. More than what is printed may be read: `openvpn_getaddrinfo` takes a numeric
address of either family. -/
structure AddrText (α : Type) (maxLen : Nat) where
  ntop : α → Bytes
  pton : Bytes → Option α
  pton_ntop : ∀ a, pton (ntop a) = some a
  ntop_ne_nil : ∀ a, ntop a ≠ []
  ntop_plain : ∀ a, ∀ c ∈ ntop a, c ≠ 44 ∧ c ≠ 10 ∧ c ≠ 13 ∧ c ≠ 0
  ntop_length : ∀ a, (ntop a).length ≤ maxLen

/-- The functions for both families; `INET_ADDRSTRLEN` is 16 and
`INET6_ADDRSTRLEN` 46, each with a final NUL. -/
structure Inet where
  v4 : AddrText (BitVec 32) 15
  v6 : AddrText In6Addr 45

/-! ## Names -/

/-- The common names of clients: `verify_cert` builds them in a buffer of 256
bytes, and `tls_common_name` takes an empty one for none. -/
def AcceptedName (cn : Bytes) : Prop :=
  cn ≠ [] ∧ cn.length < 256 ∧ ∀ c ∈ cn, ccPrint c = true

/-! ## Writing -/

def STATUS_PRINTF_MAXLEN : Nat := 512

/-- A file that is written, and whether an error occurred. -/
structure StatusOutput where
  file : Bytes
  errors : Bool
  deriving DecidableEq

/-- `status_printf` of a formatted line; a line that is too long is an error, and
nothing is written any more. -/
def statusPrintf (so : StatusOutput) (line : Bytes) : StatusOutput :=
  let errors := so.errors || decide (STATUS_PRINTF_MAXLEN ≤ line.length)
  ⟨if errors then so.file else so.file ++ line ++ [10], errors⟩

/-- The line `"%s,%s,%s"` of a handle. -/
def poolLine (inet : Inet) (pool : IfconfigPool) (cn : Bytes) (h : Nat) : Bytes :=
  let ip := match pool.ipv4 with
    | some (type, base) => inet.v4.ntop (poolBase type base h)
    | none => []
  let ip6 := match pool.ipv6 with
    | some base => inet.v6.ntop (addIn6Addr base h)
    | none => []
  cn ++ [44] ++ ip ++ [44] ++ ip6

/-- The loop of `ifconfig_pool_list` from handle `i` on. -/
def ifconfigPoolListLoop (inet : Inet) (pool : IfconfigPool) :
    List PoolEntry → (i : Nat) → StatusOutput → StatusOutput
  | [], _, so => so
  | e :: rest, i, so =>
    match e.commonName with
    | some cn =>
      ifconfigPoolListLoop inet pool rest (i + 1) (statusPrintf so (poolLine inet pool cn i))
    | none => ifconfigPoolListLoop inet pool rest (i + 1) so

/-- `ifconfig_pool_write` into a file opened for writing: what was in it is
overwritten from the start and cut off at the end. -/
def ifconfigPoolWrite (inet : Inet) (pool : IfconfigPool) : StatusOutput :=
  ifconfigPoolListLoop inet pool pool.list 0 ⟨[], false⟩

/-! ## Reading -/

/-- The loop of `status_read`: bytes of the file go into the buffer up to the end of
a line. The Boolean is false if there was nothing to read. -/
def statusReadLoop (cap : Nat) : (file : Bytes) → (ret : Bool) → (buf : Bytes) →
    Bool × Bytes × Bytes
  | [], ret, buf => (ret, buf, [])
  | c :: file, _, buf =>
    if c = 13 then statusReadLoop cap file true buf
    else if c = 10 then (true, buf, file)
    else statusReadLoop cap file true (bufWriteU8 cap buf c)

/-- `status_read` into an empty buffer: the line with a NUL at its end, and the rest
of the file. -/
def statusRead (cap : Nat) (file : Bytes) : Option (Bytes × Bytes) :=
  match statusReadLoop cap file false [] with
  | (true, buf, file) => some (bufNullTerminate cap buf, file)
  | (false, _, _) => none

/-- A difference of addresses as a handle. -/
def offsetToHandle (size : Nat) (ret : BitVec 32) : Option Nat :=
  if ret.toInt < 0 ∨ (size : Int) ≤ ret.toInt then none else some ret.toNat

/-- `ifconfig_pool_ip_base_to_handle`; without an IPv4 pool its fields are zero. -/
def ifconfigPoolIpBaseToHandle (pool : IfconfigPool) (addr : BitVec 32) : Option Nat :=
  match pool.ipv4.getD (.net30, 0#32) with
  | (.net30, base) => offsetToHandle pool.list.length ((addr - base) >>> 2)
  | (.indiv, base) => offsetToHandle pool.list.length (addr - base)

/-- `ifconfig_pool_ipv6_base_to_handle`: all but the last four bytes must match. -/
def ifconfigPoolIpv6BaseToHandle (pool : IfconfigPool) (addr : In6Addr) : Option Nat :=
  let base := pool.ipv6.getD ⟨replicate 16 0, In6Addr.size_zero⟩
  if base.bytes.take 12 = addr.bytes.take 12 then
    offsetToHandle pool.list.length (addr.low - base.low)
  else none

/-- The handle of a line: the IPv4 address decides, and the IPv6 address if that one
does not. -/
def lineHandle (inet : Inet) (pool : IfconfigPool) (ip ip6 : Bytes) : Option Nat :=
  let h := if ip = [] then none
    else (inet.v4.pton ip).bind (ifconfigPoolIpBaseToHandle pool)
  let h6 := if ip6 = [] then none
    else (inet.v6.pton ip6).bind (ifconfigPoolIpv6BaseToHandle pool)
  h.or h6

/-- A line of `ifconfig_pool_read`; `none` is `continue`. -/
def readPoolLine (inet : Inet) (pool : IfconfigPool) (line : Bytes) : Option (Bytes × Nat) :=
  if line = [] ∨ line.head? = some 35 ∨ line.head? = some 59 then none
  else
    match bufParse 44 128 line with
    | (false, _, _) => none
    | (true, cn, line) =>
      match bufParse 44 128 line with
      | (false, _, _) => none
      | (true, ip, line) =>
        match bufParse 44 128 line with
        | (false, _, _) => (lineHandle inet pool ip []).map (cn, ·)
        | (true, ip6, _) => (lineHandle inet pool ip ip6).map (cn, ·)

/-- The loop of `ifconfig_pool_read`; every line takes at least a byte of the file. -/
def ifconfigPoolReadLoop (inet : Inet) (fixed : Bool) (now : Int) :
    (fuel : Nat) → (file : Bytes) → IfconfigPool → IfconfigPool
  | 0, _, pool => pool
  | fuel + 1, file, pool =>
    match statusRead 256 file with
    | none => pool
    | some (line, file) =>
      match readPoolLine inet pool line with
      | none => ifconfigPoolReadLoop inet fixed now fuel file pool
      | some (cn, h) =>
        ifconfigPoolReadLoop inet fixed now fuel file (ifconfigPoolSet pool cn h fixed now)

def ifconfigPoolRead (inet : Inet) (fixed : Bool) (now : Int) (file : Bytes)
    (pool : IfconfigPool) : IfconfigPool :=
  ifconfigPoolReadLoop inet fixed now (file.length + 1) file pool

/-! ## Fields and lines -/

theorem statusReadLoop_line {cap : Nat} (rest : Bytes) (line buf : Bytes) (ret : Bool)
    (hplain : ∀ c ∈ line, c ≠ 13 ∧ c ≠ 10) (hlen : buf.length + line.length ≤ cap) :
    statusReadLoop cap (line ++ 10 :: rest) ret buf = (true, buf ++ line, rest) := by
  induction line generalizing buf ret with
  | nil => simp [statusReadLoop]
  | cons c line ih =>
    obtain ⟨hcr, hlf⟩ := hplain c mem_cons_self
    have hroom : buf.length < cap := by
      simp only [length_cons] at hlen
      omega
    rw [cons_append, statusReadLoop, if_neg hcr, if_neg hlf, bufWriteU8, if_pos hroom,
      ih _ _ (fun c' hc' => hplain c' (mem_cons_of_mem c hc')) (by simp at hlen ⊢; omega)]
    simp

theorem statusRead_line {cap : Nat} (rest : Bytes) {line : Bytes}
    (hplain : ∀ c ∈ line, c ≠ 13 ∧ c ≠ 10 ∧ c ≠ 0) (hlen : line.length < cap) :
    statusRead cap (line ++ 10 :: rest) = some (line ++ [0], rest) := by
  have hloop : statusReadLoop cap (line ++ 10 :: rest) false [] = (true, [] ++ line, rest) := by
    apply statusReadLoop_line
    · exact fun c hc => ⟨(hplain c hc).1, (hplain c hc).2.1⟩
    · simpa using hlen.le
  have hlast : line.getLast? ≠ some 0 := fun h => (hplain 0 (mem_of_getLast? h)).2.2 rfl
  rw [statusRead, hloop]
  simp [bufNullTerminate, hlast, hlen, bufWriteU8]

variable {pool : IfconfigPool} {h : Nat}

theorem ifconfigPoolIpBaseToHandle_poolBase (hsize : PoolSizeOk pool) {type : PoolType}
    {base : BitVec 32} (hv4 : pool.ipv4 = some (type, base)) (hh : h < pool.list.length) :
    ifconfigPoolIpBaseToHandle pool (poolBase type base h) = some h := by
  obtain ⟨hlt, hnet30⟩ := hsize
  have hoff : ∀ ret : BitVec 32, ret.toNat = h →
      offsetToHandle pool.list.length ret = some h := by
    intro ret hret
    have hint : ret.toInt = (h : Int) := by
      rw [BitVec.toInt_eq_toNat_of_lt (by omega), hret]
    rw [offsetToHandle, hint, if_neg (by omega), hret]
  cases type with
  | net30 =>
    have hle := hnet30 base hv4
    simp only [ifconfigPoolIpBaseToHandle, hv4, getD_some, poolBase]
    apply hoff
    rw [BitVec.toNat_ushiftRight, shiftRight_eq_div_pow]
    bv_omega
  | indiv =>
    simp only [ifconfigPoolIpBaseToHandle, hv4, getD_some, poolBase]
    apply hoff
    bv_omega

/-- The names that the format can carry: no comma, not taken for a comment, and at
most as long as the buffer of the reader. -/
def PersistableName (cn : Bytes) : Prop :=
  44 ∉ cn ∧ cn.head? ≠ some 35 ∧ cn.head? ≠ some 59 ∧ cn.length < 128

instance (cn : Bytes) : Decidable (PersistableName cn) := by
  unfold PersistableName
  infer_instance

theorem poolLine_fields (inet : Inet) (pool : IfconfigPool) (h : Nat) :
    ∃ ip ip6 : Bytes, (∀ cn, poolLine inet pool cn h = cn ++ [44] ++ ip ++ [44] ++ ip6) ∧
      (∀ c ∈ ip ++ ip6, c ≠ 44 ∧ c ≠ 10 ∧ c ≠ 13 ∧ c ≠ 0) ∧ ip.length ≤ 15 ∧ ip6.length ≤ 45 ∧
      ∀ type base, pool.ipv4 = some (type, base) → ip = inet.v4.ntop (poolBase type base h) := by
  refine ⟨_, _, fun cn => rfl, ?_, ?_, ?_, ?_⟩
  · intro c hc
    rcases mem_append.mp hc with hc | hc
    · split at hc
      · exact inet.v4.ntop_plain _ c hc
      · cases hc
    · split at hc
      · exact inet.v6.ntop_plain _ c hc
      · cases hc
  · split
    · exact inet.v4.ntop_length _
    · exact zero_le _
  · split
    · exact inet.v6.ntop_length _
    · exact zero_le _
  · intro type base hv4
    simp [hv4]

variable {cn : Bytes}

theorem AcceptedName.plain (h : AcceptedName cn) {c : UInt8} (hc : c ∈ cn) :
    c ≠ 13 ∧ c ≠ 10 ∧ c ≠ 0 := by
  have hpr := h.2.2 c hc
  refine ⟨?_, ?_, ?_⟩ <;> rintro rfl <;> revert hpr <;> decide

/-- **A line that was written sets its handle again**, if its name can be carried. -/
theorem readPoolLine_poolLine (inet : Inet) (hsize : PoolSizeOk pool)
    (hv4 : pool.ipv4.isSome = true) (hacc : AcceptedName cn) (hcn : PersistableName cn)
    (hh : h < pool.list.length) :
    readPoolLine inet pool (poolLine inet pool cn h ++ [0]) = some (cn, h) := by
  obtain ⟨hcomma, hhash, hsemi, hlen⟩ := hcn
  obtain ⟨⟨type, base⟩, hv4⟩ := isSome_iff_exists.mp hv4
  obtain ⟨ip, ip6, hline, hplain, hip, hip6, haddr⟩ := poolLine_fields inet pool h
  have hfs : poolLine inet pool cn h ++ [0] = cn ++ 44 :: (ip ++ 44 :: (ip6 ++ 0 :: [])) := by
    simp [hline]
  have hfld : ∀ {f : Bytes}, (∀ c ∈ f, c ≠ 44 ∧ c ≠ 10 ∧ c ≠ 13 ∧ c ≠ 0) →
      ∀ c ∈ f, ¬(c = 0 ∨ c = 44) := by
    intro f hf c hc
    simp [hf c hc]
  have hcnfield : ∀ c ∈ cn, ¬(c = 0 ∨ c = 44) := by
    rintro c hc (rfl | rfl)
    · exact (hacc.plain hc).2.2 rfl
    · exact hcomma hc
  have hipfield := hfld fun c hc => hplain c (mem_append_left ip6 hc)
  have hip6field := hfld fun c hc => hplain c (mem_append_right ip hc)
  have hhead : (cn ++ 44 :: (ip ++ 44 :: (ip6 ++ 0 :: []))).head? = cn.head? := by
    cases cn with
    | nil => exact absurd rfl hacc.1
    | cons c cn => rfl
  have hhnd : lineHandle inet pool ip ip6 = some h := by
    have hto := ifconfigPoolIpBaseToHandle_poolBase hsize hv4 hh
    rw [haddr type base hv4]
    simp [lineHandle, inet.v4.ntop_ne_nil, inet.v4.pton_ntop, hto]
  rw [hfs, readPoolLine, hhead, if_neg (by simp [hhash, hsemi]),
    bufParse_field (.inr rfl) _ hcnfield hlen]
  simp only
  rw [bufParse_field (.inr rfl) _ hipfield (by omega)]
  simp only
  rw [bufParse_field (.inl rfl) _ hip6field (by omega)]
  simp [hhnd]

/-! ## Files -/

def IfconfigPool.names (pool : IfconfigPool) : List (Option Bytes) :=
  pool.list.map (·.commonName)

/-- The lines of the entries from handle `i` on. -/
def poolLines (inet : Inet) (pool : IfconfigPool) : List PoolEntry → (i : Nat) → Bytes
  | [], _ => []
  | e :: rest, i =>
    (match e.commonName with
      | some cn => poolLine inet pool cn i ++ [10]
      | none => []) ++ poolLines inet pool rest (i + 1)

theorem poolLine_length (inet : Inet) (pool : IfconfigPool) (cn : Bytes) (h : Nat) :
    (poolLine inet pool cn h).length ≤ cn.length + 62 := by
  obtain ⟨ip, ip6, hline, -, hip, hip6, -⟩ := poolLine_fields inet pool h
  rw [hline]
  simp only [length_append, length_singleton]
  omega

theorem poolLine_plain (inet : Inet) (pool : IfconfigPool) (hacc : AcceptedName cn) (h : Nat) :
    ∀ c ∈ poolLine inet pool cn h, c ≠ 13 ∧ c ≠ 10 ∧ c ≠ 0 := by
  obtain ⟨ip, ip6, hline, hplain, -⟩ := poolLine_fields inet pool h
  have haddr : ∀ c, c ∈ ip ∨ c ∈ ip6 → c ≠ 13 ∧ c ≠ 10 ∧ c ≠ 0 := by
    intro c hc
    obtain ⟨-, hlf, hcr, hnul⟩ := hplain c (mem_append.mpr hc)
    exact ⟨hcr, hlf, hnul⟩
  intro c hc
  simp only [hline, mem_append, mem_singleton] at hc
  rcases hc with (((hc | rfl) | hc) | rfl) | hc
  · exact hacc.plain hc
  · decide
  · exact haddr c (.inl hc)
  · decide
  · exact haddr c (.inr hc)

theorem ifconfigPoolListLoop_eq {inet : Inet} {pool : IfconfigPool} {entries : List PoolEntry}
    (hacc : ∀ e ∈ entries, ∀ cn, e.commonName = some cn → AcceptedName cn) (i : Nat)
    (file : Bytes) :
    ifconfigPoolListLoop inet pool entries i ⟨file, false⟩ =
      ⟨file ++ poolLines inet pool entries i, false⟩ := by
  induction entries generalizing i file with
  | nil => simp [ifconfigPoolListLoop, poolLines]
  | cons e entries ih =>
    have hrest := ih fun e' he' => hacc e' (mem_cons_of_mem e he')
    cases hname : e.commonName with
    | none => simp [ifconfigPoolListLoop, poolLines, hname, hrest]
    | some cn =>
      have hcn := (hacc e mem_cons_self cn hname).2.1
      have hlen : ¬STATUS_PRINTF_MAXLEN ≤ (poolLine inet pool cn i).length := by
        have hline := poolLine_length inet pool cn i
        simp only [STATUS_PRINTF_MAXLEN]
        omega
      simp [ifconfigPoolListLoop, poolLines, hname, statusPrintf, hlen, hrest]

theorem poolLine_same {pool' : IfconfigPool} (h : SamePool pool pool') (inet : Inet) (cn : Bytes)
    (i : Nat) : poolLine inet pool' cn i = poolLine inet pool cn i := by
  simp only [poolLine, h.ipv4, h.ipv6]

theorem poolLines_same {pool' : IfconfigPool} (h : SamePool pool pool') (inet : Inet)
    (entries : List PoolEntry) (i : Nat) :
    poolLines inet pool' entries i = poolLines inet pool entries i := by
  induction entries generalizing i with
  | nil => rfl
  | cons e entries ih => simp only [poolLines, poolLine_same h, ih]

theorem names_set (pool : IfconfigPool) (cn : Bytes) (h : Nat) (fixed : Bool) (now : Int) :
    (ifconfigPoolSet pool cn h fixed now).names = pool.names.set h (some cn) := by
  simp [IfconfigPool.names, ifconfigPoolSet, map_set]

theorem samePool_set (pool : IfconfigPool) (cn : Bytes) (h : Nat) (fixed : Bool) (now : Int) :
    SamePool pool (ifconfigPoolSet pool cn h fixed now) :=
  ⟨rfl, rfl, rfl, length_set ..⟩

/-- **Reading what was written.** The induction is over the entries whose lines are
still to be read; those before have their names back, those after have none yet. -/
theorem ifconfigPoolReadLoop_poolLines (inet : Inet) {pool0 : IfconfigPool}
    (hsize : PoolSizeOk pool0) (hv4 : pool0.ipv4.isSome = true) (fixed : Bool) (now : Int)
    {entries : List PoolEntry} (hnm : ∀ e ∈ entries, ∀ cn, e.commonName = some cn →
      AcceptedName cn ∧ PersistableName cn)
    (fuel : Nat) (pool : IfconfigPool) (before : List (Option Bytes)) (hsame : SamePool pool0 pool)
    (hpool : pool.names = before ++ List.replicate entries.length none)
    (hfuel : (poolLines inet pool0 entries before.length).length < fuel) :
    (ifconfigPoolReadLoop inet fixed now fuel (poolLines inet pool0 entries before.length)
      pool).names = before ++ entries.map (·.commonName) := by
  induction entries generalizing fuel pool before with
  | nil =>
    obtain ⟨fuel, rfl⟩ := Nat.exists_eq_succ_of_ne_zero (by omega : fuel ≠ 0)
    simpa [poolLines, ifconfigPoolReadLoop, statusRead, statusReadLoop] using hpool
  | cons e entries ih =>
    have hrest := ih fun e' he' => hnm e' (mem_cons_of_mem e he')
    cases hname : e.commonName with
    | none =>
      have hls : poolLines inet pool0 (e :: entries) before.length =
          poolLines inet pool0 entries (before ++ [none]).length := by
        simp [poolLines, hname]
      rw [hls] at hfuel ⊢
      rw [hrest fuel pool (before ++ [none]) hsame (by simp [hpool, replicate_succ]) hfuel]
      simp [hname]
    | some cn =>
      obtain ⟨hacc, hcn⟩ := hnm e mem_cons_self cn hname
      obtain ⟨fuel, rfl⟩ := Nat.exists_eq_succ_of_ne_zero (by omega : fuel ≠ 0)
      have hls : poolLines inet pool0 (e :: entries) before.length =
          poolLine inet pool0 cn before.length ++
            10 :: poolLines inet pool0 entries (before ++ [some cn]).length := by
        simp [poolLines, hname]
      have hsh : (poolLine inet pool0 cn before.length).length < 256 := by
        have hline := poolLine_length inet pool0 cn before.length
        have hlen := hcn.2.2.2
        omega
      have hread := statusRead_line (poolLines inet pool0 entries (before ++ [some cn]).length)
        (poolLine_plain inet pool0 hacc before.length) hsh
      have hsize' : PoolSizeOk pool := by
        rwa [PoolSizeOk, hsame.size, hsame.ipv4]
      have hlt : before.length < pool.list.length := by
        have hlen := congrArg List.length hpool
        simp only [IfconfigPool.names, length_map, length_append,
          length_replicate, length_cons] at hlen
        omega
      have hline := readPoolLine_poolLine inet hsize' (hsame.ipv4 ▸ hv4) hacc hcn hlt
      rw [poolLine_same hsame] at hline
      rw [hls] at hfuel ⊢
      rw [ifconfigPoolReadLoop, hread]
      simp only [hline]
      rw [hrest fuel _ (before ++ [some cn]) (hsame.trans (samePool_set ..))
        (by simp [names_set, hpool, replicate_succ])
        (by simp only [length_append, length_cons] at hfuel ⊢; omega)]
      simp [hname]

/-! ## What a file can say -/

theorem readPoolLine_persistable {inet : Inet} {line : Bytes}
    (hread : readPoolLine inet pool line = some (cn, h)) : PersistableName cn := by
  unfold readPoolLine at hread
  split at hread
  case isTrue => cases hread
  case isFalse hcom =>
    rw [not_or, not_or] at hcom
    have hcn : cn = (bufParse 44 128 line).2.1 := by
      repeat' split at hread
      all_goals simp_all
    obtain ⟨field, hfld, hpre, hno⟩ := bufParseLoop_bounds 44 128 line []
    have htake : cn = field.take 127 := by
      rw [hcn, ← nil_append field, ← hfld]
      rfl
    -- the name starts as the line does
    have hhead : ∀ c, cn.head? = some c → line.head? = some c := by
      intro c hc
      have hpre' : cn <+: line := htake ▸ ( take_prefix 127 field).trans hpre
      obtain ⟨tail, htail⟩ := hpre'
      rw [← htail, head?_append, hc]
      rfl
    refine ⟨?_, fun hc => hcom.2.1 (hhead _ hc), fun hc => hcom.2.2 (hhead _ hc), ?_⟩
    · rw [htake]
      exact fun hmem => hno _ (mem_of_mem_take hmem) (.inr rfl)
    · rw [htake, length_take]
      omega

theorem ifconfigPoolReadLoop_persistable (inet : Inet) (fixed : Bool) (now : Int) (fuel : Nat)
    (file : Bytes) (hpool : ∀ cn, some cn ∈ pool.names → PersistableName cn) :
    ∀ cn, some cn ∈ (ifconfigPoolReadLoop inet fixed now fuel file pool).names →
      PersistableName cn := by
  induction fuel generalizing file pool with
  | zero => exact hpool
  | succ fuel ih =>
    unfold ifconfigPoolReadLoop
    split
    case h_1 => exact hpool
    case h_2 line file' hline =>
      split
      case h_1 => exact ih file' hpool
      case h_2 cn h hread =>
        apply ih file'
        intro cn' hmem
        rw [names_set] at hmem
        rcases mem_or_eq_of_mem_set hmem with hmem | heq
        · exact hpool cn' hmem
        · cases heq
          exact readPoolLine_persistable hread

/-! ## Numeric addresses

The dotted and the full hexadecimal form of addresses, as the C library reads them. -/

/-- A number below 256. -/
def parseOctet (t : Bytes) : Option UInt8 :=
  if t ≠ [] ∧ t.length ≤ 3 ∧ t.all isdigit ∧ decimalValue t < 256 then
    some (UInt8.ofNat (decimalValue t))
  else none

def hexDigit (n : UInt8) : UInt8 := if n < 10 then 48 + n else 87 + n

def parseHexDigit (c : UInt8) : Option UInt8 :=
  if 48 ≤ c ∧ c ≤ 57 then some (c - 48) else if 97 ≤ c ∧ c ≤ 102 then some (c - 87) else none

/-- Two bytes as four digits. -/
def hexGroup (p : UInt8 × UInt8) : Bytes :=
  [hexDigit (p.1 / 16), hexDigit (p.1 % 16), hexDigit (p.2 / 16), hexDigit (p.2 % 16)]

def parseHexByte (a b : UInt8) : Option UInt8 :=
  (parseHexDigit a).bind fun hi => (parseHexDigit b).map fun lo => 16 * hi + lo

def parseHexGroup : Bytes → Option (UInt8 × UInt8)
  | [a, b, c, d] => (parseHexByte a b).bind fun x => (parseHexByte c d).map fun y => (x, y)
  | _ => none

theorem octet_length (b : UInt8) : (decimal b.toNat).length ≤ 3 := by
  unfold decimal
  split
  · exact succ_le_succ (zero_le 2)
  · rw [length_map, length_reverse, digits_length_le_iff (by decide)]
    exact lt_trans b.toNat_lt (by decide)

theorem parseOctet_decimal (b : UInt8) : parseOctet (decimal b.toNat) = some b := by
  have hdig : (decimal b.toNat).all isdigit = true := all_eq_true.mpr (decimal_digits _)
  unfold parseOctet
  rw [decimalValue_decimal, if_pos ⟨decimal_ne_nil _, octet_length b, hdig, b.toNat_lt⟩,
    UInt8.ofNat_toNat]

theorem octet_plain (b : UInt8) :
    ∀ c ∈ decimal b.toNat, c ≠ 46 ∧ c ≠ 44 ∧ c ≠ 10 ∧ c ≠ 13 ∧ c ≠ 0 := by
  intro c hc
  have hdig := decimal_digits _ c hc
  refine ⟨?_, ?_, ?_, ?_, ?_⟩ <;> rintro rfl <;> cases hdig

theorem forall_nibble {P : UInt8 → Prop} (h : ∀ n : Fin 16, P (UInt8.ofNat n)) {d : UInt8}
    (hd : d.toNat < 16) : P d := by
  have hn := h ⟨d.toNat, hd⟩
  rwa [UInt8.ofNat_toNat] at hn

theorem nibbles_lt {b : UInt8} : (b / 16).toNat < 16 ∧ (b % 16).toNat < 16 := by
  have hb := b.toNat_lt
  have hhigh : (b / 16).toNat = b.toNat / 16 := UInt8.toNat_div ..
  have hlow : (b % 16).toNat = b.toNat % 16 := UInt8.toNat_mod ..
  omega

theorem parseHexByte_hexDigit (b : UInt8) :
    parseHexByte (hexDigit (b / 16)) (hexDigit (b % 16)) = some b := by
  have hdig : ∀ {d : UInt8}, d.toNat < 16 → parseHexDigit (hexDigit d) = some d :=
    fun hd => forall_nibble (P := fun d => parseHexDigit (hexDigit d) = some d) (by decide) hd
  have hb : 16 * (b / 16) + b % 16 = b := by
    apply UInt8.toNat.inj
    have hlt := b.toNat_lt
    rw [UInt8.toNat_add, UInt8.toNat_mul, UInt8.toNat_div, UInt8.toNat_mod]
    show (16 * (b.toNat / 16) % 256 + b.toNat % 16) % 256 = b.toNat
    omega
  rw [parseHexByte, hdig nibbles_lt.1, hdig nibbles_lt.2]
  exact congrArg some hb

theorem hexDigit_plain {b : UInt8} :
    ∀ c ∈ [hexDigit (b / 16), hexDigit (b % 16)], c ≠ 58 ∧ c ≠ 44 ∧ c ≠ 10 ∧ c ≠ 13 ∧ c ≠ 0 := by
  have hplain : ∀ {d : UInt8}, d.toNat < 16 → hexDigit d ≠ 58 ∧ hexDigit d ≠ 44 ∧
      hexDigit d ≠ 10 ∧ hexDigit d ≠ 13 ∧ hexDigit d ≠ 0 :=
    fun hd => forall_nibble (P := fun d => hexDigit d ≠ 58 ∧ hexDigit d ≠ 44 ∧ hexDigit d ≠ 10 ∧
      hexDigit d ≠ 13 ∧ hexDigit d ≠ 0) (by decide) hd
  intro c hc
  simp only [mem_cons, not_mem_nil, or_false] at hc
  rcases hc with rfl | rfl
  · exact hplain nibbles_lt.1
  · exact hplain nibbles_lt.2

def pairs : Bytes → List (UInt8 × UInt8)
  | a :: b :: rest => (a, b) :: pairs rest
  | _ => []

def unpairs (l : List (UInt8 × UInt8)) : Bytes := l.flatMap fun p => [p.1, p.2]

theorem unpairs_pairs {n : Nat} {bs : Bytes} (h : bs.length = 2 * n) :
    unpairs (pairs bs) = bs ∧ (pairs bs).length = n := by
  induction n generalizing bs with
  | zero =>
    rw [eq_nil_of_length_eq_zero h]
    exact ⟨rfl, rfl⟩
  | succ n ih =>
    obtain ⟨a, bs, rfl⟩ := exists_cons_of_length_eq_add_one h
    obtain ⟨b, bs, rfl⟩ := exists_cons_of_length_eq_add_one (succ.inj h)
    obtain ⟨hbs, hlen⟩ := ih (succ.inj (succ.inj h))
    rw [pairs, length_cons, hlen, unpairs, flatMap_cons]
    exact ⟨congrArg (a :: b :: ·) hbs, rfl⟩

def dottedText : AddrText (BitVec 32) 15 where
  ntop a := joinText 46 (fun b => decimal b.toNat) (beBytes 4 a.toNat)
  pton t := (splitText 46 parseOctet t).bind fun bs =>
    if bs.length = 4 then some (BitVec.ofNat 32 (beNat bs)) else none
  pton_ntop a := by
    have hne : beBytes 4 a.toNat ≠ [] := ne_nil_of_length_pos (by simp)
    rw [splitText_joinText parseOctet_decimal (fun b hb => (octet_plain b 46 hb).1 rfl) hne,
      bind_some, if_pos (beBytes_length ..), beNat_beBytes]
    rw [mod_eq_of_lt (show a.toNat < 256 ^ 4 from a.isLt), BitVec.ofNat_toNat,
      BitVec.setWidth_eq]
  ntop_ne_nil a := by
    apply joinText_ne_nil
    · exact fun b => decimal_ne_nil _
    · exact ne_nil_of_length_pos (by simp)
  ntop_plain a := by
    apply mem_joinText
    · decide
    · exact fun b _ c hc => (octet_plain b c hc).2
  ntop_length _ := joinText_length octet_length (beBytes_length ..)

theorem parseHexGroup_hexGroup (p : UInt8 × UInt8) : parseHexGroup (hexGroup p) = some p := by
  simp [parseHexGroup, hexGroup, parseHexByte_hexDigit]

theorem hexGroup_plain {p : UInt8 × UInt8} :
    ∀ c ∈ hexGroup p, c ≠ 58 ∧ c ≠ 44 ∧ c ≠ 10 ∧ c ≠ 13 ∧ c ≠ 0 := by
  intro c hc
  have hspl : hexGroup p = [hexDigit (p.1 / 16), hexDigit (p.1 % 16)] ++
      [hexDigit (p.2 / 16), hexDigit (p.2 % 16)] := rfl
  rw [hspl, mem_append] at hc
  exact hc.elim (hexDigit_plain c) (hexDigit_plain c)

theorem pairs_ne_nil (a : In6Addr) : pairs a.bytes ≠ [] := by
  apply ne_nil_of_length_pos
  rw [(unpairs_pairs (n := 8) a.size).2]
  decide

theorem groups_length {a : In6Addr} : (joinText 58 hexGroup (pairs a.bytes)).length ≤ 45 := by
  have hlen : (joinText 58 hexGroup (pairs a.bytes)).length ≤ 4 + 7 * (4 + 1) :=
    joinText_length (fun _ => le_refl 4) (unpairs_pairs (n := 8) a.size).2
  omega

/-- Eight groups of four digits. -/
def hexText : AddrText In6Addr 45 where
  ntop a := joinText 58 hexGroup (pairs a.bytes)
  pton t := (splitText 58 parseHexGroup t).bind fun ps =>
    if h : (unpairs ps).length = 16 then some ⟨unpairs ps, h⟩ else none
  pton_ntop a := by
    have hbs := (unpairs_pairs (n := 8) a.size).1
    rw [splitText_joinText parseHexGroup_hexGroup (fun p hp => (hexGroup_plain 58 hp).1 rfl)
      (pairs_ne_nil a), bind_some, dif_pos (by rw [hbs, a.size])]
    simp [hbs]
  ntop_ne_nil a := by
    apply joinText_ne_nil
    · simp [hexGroup]
    · exact pairs_ne_nil a
  ntop_plain a := by
    apply mem_joinText
    · decide
    · exact fun p _ c hc => (hexGroup_plain c hc).2
  ntop_length a := groups_length

/-- Read more texts. -/
def AddrText.orElse {α : Type} {maxLen : Nat} (t : AddrText α maxLen) (other : Bytes → Option α) :
    AddrText α maxLen :=
  { t with
    pton := fun text => (t.pton text).or (other text)
    pton_ntop := fun a => by rw [t.pton_ntop, some_or] }

/-- Numeric addresses. One of the wrong family is read out of the other one's `sockaddr`: the
flow label is in the place of an IPv4 address, and padding and the eight bytes behind the
structure are in that of an IPv6 address. -/
def numericInet (behind : Bytes) (hbeh : behind.length = 8) : Inet where
  v4 := dottedText.orElse fun text => (hexText.pton text).map fun _ => 0#32
  v6 := hexText.orElse fun text => (dottedText.pton text).map fun _ =>
    ⟨List.replicate 8 0 ++ behind, by rw [length_append, hbeh, length_replicate]⟩

def plainInet : Inet := numericInet (replicate 8 0) rfl

/-- **The round trip of the pool's file.** The names of a pool are written and read
into a pool that was just set up in the same way, with IPv4 addresses of either kind
and with or without IPv6 addresses. They are all back at their handles exactly if
none has a comma in it, starts like a comment or is longer than 127 bytes. -/
theorem pool_persist_round_trip_iff (inet : Inet) {type : PoolType} {start stop : BitVec 32}
    {duplicateCn ipv6Pool : Bool} {ipv6Base : In6Addr} {netbits : Nat} {pool : IfconfigPool}
    (hinit : ifconfigPoolInit true type start stop duplicateCn ipv6Pool ipv6Base netbits =
      some pool) {used : IfconfigPool} (hsame : SamePool pool used)
    (hacc : ∀ cn, some cn ∈ used.names → AcceptedName cn) (fixed : Bool) (now : Int) :
    (ifconfigPoolRead inet fixed now (ifconfigPoolWrite inet used).file pool).names =
        used.names ↔
      ∀ cn, some cn ∈ used.names → PersistableName cn := by
  obtain ⟨hcleared, hv4, -⟩ := ifconfigPoolInit_fresh hinit
  have hfresh : pool.names = replicate used.list.length none := by
    rw [hsame.size, eq_replicate_iff]
    refine ⟨length_map .., fun name hname => ?_⟩
    obtain ⟨e, he, rfl⟩ := mem_map.mp hname
    rw [hcleared e he]
    rfl
  constructor
  · intro htrip cn hcn
    rw [← htrip] at hcn
    refine ifconfigPoolReadLoop_persistable inet fixed now _ _ (fun cn' hcn' => ?_) cn hcn
    rw [hfresh] at hcn'
    cases eq_of_mem_replicate hcn'
  · intro hgood
    have hmem : ∀ e ∈ used.list, ∀ cn, e.commonName = some cn → some cn ∈ used.names :=
      fun e he cn hname => hname ▸ mem_map_of_mem he
    have hwrite : (ifconfigPoolWrite inet used).file = poolLines inet pool used.list 0 := by
      rw [ifconfigPoolWrite, ifconfigPoolListLoop_eq
        (fun e he cn hname => hacc cn (hmem e he cn hname)), poolLines_same hsame]
      rfl
    rw [hwrite]
    exact ifconfigPoolReadLoop_poolLines inet (ifconfigPoolInit_size hinit) hv4 fixed now
      (fun e he cn hname => ⟨hacc cn (hmem e he cn hname), hgood cn (hmem e he cn hname)⟩)
      _ pool [] (.refl pool) hfresh (lt_succ_self _)

/-- One client of the pool of two networks has the name `a`. -/
theorem pool_persist_round_trip_iff_two_nets :
    ∃ pool, twoNetsPool = some pool ∧
      (ifconfigPoolRead plainInet false 5
        (ifconfigPoolWrite plainInet (ifconfigPoolSet pool [97] 0 false 0)).file pool).names =
      (ifconfigPoolSet pool [97] 0 false 0).names := by
  have hinit : twoNetsPool.isSome = true := by decide
  obtain ⟨pool, hpool⟩ := isSome_iff_exists.mp hinit
  have hnames : ∀ cn, some cn ∈ (ifconfigPoolSet pool [97] 0 false 0).names → cn = [97] := by
    have hfresh := (ifconfigPoolInit_fresh hpool).1
    intro cn hcn
    rw [names_set] at hcn
    rcases mem_or_eq_of_mem_set hcn with hcn | hcn
    · obtain ⟨e, he, hname⟩ := mem_map.mp hcn
      rw [hfresh e he] at hname
      cases hname
    · exact some.inj hcn
  refine ⟨pool, hpool, (pool_persist_round_trip_iff plainInet hpool (samePool_set ..)
    (fun cn hcn => ?_) false 5).mpr (fun cn hcn => ?_)⟩
  · rw [hnames cn hcn]
    exact ⟨by decide, by decide, all_eq_true.mp rfl⟩
  · rw [hnames cn hcn]
    decide

/-- The names `#x` and `a,b` are accepted, and lost, however addresses are printed and read:
the line of the first is a comment, and that of the second one of the name `a`. -/
theorem pool_persist_loses_names :
    ∃ pool, twoNetsPool = some pool ∧ ∀ cn ∈ ([[35, 120], [97, 44, 98]] : List Bytes),
      AcceptedName cn ∧ ∀ inet : Inet,
        (ifconfigPoolRead inet false 5
          (ifconfigPoolWrite inet (ifconfigPoolSet pool cn 0 false 0)).file pool).names ≠
        (ifconfigPoolSet pool cn 0 false 0).names := by
  refine ⟨⟨false, some (.net30, 0x0a080004#32), none, [.cleared, .cleared]⟩, by decide, ?_⟩
  intro cn hcn
  have haccepted : AcceptedName cn ∧ ¬PersistableName cn := by
    simp only [mem_cons, not_mem_nil, or_false] at hcn
    rcases hcn with rfl | rfl
    all_goals exact ⟨⟨by decide, by decide, all_eq_true.mp rfl⟩, by decide⟩
  refine ⟨haccepted.1, fun inet heq => haccepted.2 ?_⟩
  have hmem : some cn ∈ (ifconfigPoolSet ⟨false, some (.net30, 0x0a080004#32), none,
      [.cleared, .cleared]⟩ cn 0 false 0).names := mem_cons_self
  rw [← heq] at hmem
  refine ifconfigPoolReadLoop_persistable inet false 5 _ _ (fun cn' hcn' => ?_) cn hmem
  cases eq_of_mem_replicate (n := 2) hcn'

end OpenVpn
