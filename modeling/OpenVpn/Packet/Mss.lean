import OpenVpn.Packet.Proto

/-!
# Clamping the maximum segment size (`mss.c`)

In a TCP segment with the SYN flag, the MSS options that are larger than the tunnel allows
are lowered, and the checksum of the segment is adjusted.

* `mssFixupDowork` — the work on a TCP segment; `mssFixupIpv4` and `mssFixupIpv6` find it.
  The loop over the options has a bound; running out of it would be `none`.
* `segOptions` — the options that are reached; `mssLoop_eq` says that the loop clamps them
  one after the other.
* `mss_fixup_valid_iff` — when the checksum is still valid.
-/

namespace OpenVpn

open Base List Nat

def OPENVPN_TCPOPT_EOL : UInt8 := 0
def OPENVPN_TCPOPT_NOP : UInt8 := 1
def OPENVPN_TCPOPT_MAXSEG : UInt8 := 2
def OPENVPN_TCPOLEN_MAXSEG : Nat := 4

def OPENVPN_IP_OFFMASK : Nat := 0x1fff

/-- The offset of `check` in the TCP header. -/
def TCP_CHECK : Nat := 16

/-- The value of the option at `opt` is lowered to `maxmss`. -/
def clampMss (e : Endian) (maxmss : Nat) (seg : Bytes) (opt : Nat) : Bytes :=
  let mssval := fieldAt seg (opt + 2)
  if maxmss < mssval then
    let accumulate : Int := (e.hton mssval : Int) - e.hton maxmss
    let seg := setField seg (opt + 2) maxmss
    setWord e seg TCP_CHECK (adjustChecksum accumulate (wordAt e seg TCP_CHECK))
  else seg

/-- The loop of `mss_fixup_dowork`, from the option at `opt` on. -/
def mssLoop (e : Endian) (maxmss : Nat) :
    (fuel olen opt : Nat) → Bytes → Option Bytes
  | 0, olen, _, seg => if olen ≤ 1 then some seg else none
  | fuel + 1, olen, opt, seg =>
    if olen ≤ 1 then some seg
    else
      let kind := seg.getD opt 0
      let optlen := (seg.getD (opt + 1) 0).toNat
      if kind = OPENVPN_TCPOPT_EOL then some seg
      else if kind = OPENVPN_TCPOPT_NOP then mssLoop e maxmss fuel (olen - 1) (opt + 1) seg
      else if optlen = 0 ∨ olen < optlen then some seg
      else if kind = OPENVPN_TCPOPT_MAXSEG ∧ optlen = OPENVPN_TCPOLEN_MAXSEG then
        mssLoop e maxmss fuel (olen - optlen) (opt + optlen) (clampMss e maxmss seg opt)
      else mssLoop e maxmss fuel (olen - optlen) (opt + optlen) seg

/-- `OPENVPN_TCPH_GET_DOFF` of the segment. -/
def tcpDoff (seg : Bytes) : Nat := (seg.getD 12 0).toNat / 16 * 4

/-- `tc->flags & OPENVPN_TCPH_SYN_MASK`. -/
def tcpSyn (seg : Bytes) : Bool := (seg.getD 13 0).toNat / 2 % 2 = 1

def mssFixupDowork (e : Endian) (maxmss : Nat) (seg : Bytes) : Option Bytes :=
  if seg.length < SIZEOF_TCPHDR then some seg
  else
    let hlen := tcpDoff seg
    if hlen ≤ SIZEOF_TCPHDR ∨ seg.length < hlen then some seg
    else mssLoop e maxmss (hlen - SIZEOF_TCPHDR) (hlen - SIZEOF_TCPHDR) SIZEOF_TCPHDR seg

/-- The TCP header is behind `hlen` bytes. -/
def mssFixupSyn (e : Endian) (maxmss : Nat) (buf : Bytes) (hlen : Nat) : Option Bytes :=
  if tcpSyn (buf.drop hlen) then
    (mssFixupDowork e maxmss (buf.drop hlen)).map (buf.take hlen ++ ·)
  else some buf

def mssFixupIpv4 (e : Endian) (maxmss : Nat) (buf : Bytes) : Option Bytes :=
  if buf.length < SIZEOF_IPHDR then some buf
  else
    let hlen := ipHeaderLen (buf.getD 0 0)
    if buf.getD 9 0 = OPENVPN_IPPROTO_TCP ∧ fieldAt buf 2 = buf.length ∧
        fieldAt buf 6 % (OPENVPN_IP_OFFMASK + 1) = 0 ∧ hlen ≤ buf.length ∧
        SIZEOF_TCPHDR ≤ buf.length - hlen then
      mssFixupSyn e maxmss buf hlen
    else some buf

/-- `mss_fixup_ipv6`; the limit is again 16 bits wide. -/
def mssFixupIpv6 (e : Endian) (maxmss : Nat) (buf : Bytes) : Option Bytes :=
  if buf.length < SIZEOF_IPV6HDR then some buf
  else if buf.length ≠ fieldAt buf 4 + SIZEOF_IPV6HDR then some buf
  else if buf.getD 6 0 ≠ OPENVPN_IPPROTO_TCP then some buf
  else if SIZEOF_TCPHDR ≤ buf.length - SIZEOF_IPV6HDR then
    mssFixupSyn e ((maxmss + 65536 - 20) % 65536) buf SIZEOF_IPV6HDR
  else some buf

/-! ## The options -/

/-- The offsets of the well-formed MSS options that are reached from `opt` on. -/
def mssOptions : (fuel olen opt : Nat) → Bytes → List Nat
  | 0, _, _, _ => []
  | fuel + 1, olen, opt, seg =>
    if olen ≤ 1 ∨ seg.getD opt 0 = OPENVPN_TCPOPT_EOL then []
    else if seg.getD opt 0 = OPENVPN_TCPOPT_NOP then mssOptions fuel (olen - 1) (opt + 1) seg
    else
      let optlen := (seg.getD (opt + 1) 0).toNat
      if optlen = 0 ∨ olen < optlen then []
      else if seg.getD opt 0 = OPENVPN_TCPOPT_MAXSEG ∧ optlen = OPENVPN_TCPOLEN_MAXSEG then
        opt :: mssOptions fuel (olen - optlen) (opt + optlen) seg
      else mssOptions fuel (olen - optlen) (opt + optlen) seg

/-- The MSS options of a segment, if it is a SYN with options. -/
def segOptions (seg : Bytes) : List Nat :=
  if tcpSyn seg = true ∧ SIZEOF_TCPHDR < tcpDoff seg ∧ tcpDoff seg ≤ seg.length then
    mssOptions (tcpDoff seg - SIZEOF_TCPHDR) (tcpDoff seg - SIZEOF_TCPHDR) SIZEOF_TCPHDR seg
  else []

/-- What is cut off the values of the options at odd offsets. -/
def oddExcess (maxmss : Nat) (opts : List Nat) (seg : Bytes) : Nat :=
  ((opts.filter fun o => decide (o % 2 = 1)).map fun o => fieldAt seg (o + 2) - maxmss).sum

theorem oddExcess_cons (maxmss o : Nat) (opts : List Nat) (seg : Bytes) :
    oddExcess maxmss (o :: opts) seg =
      (if o % 2 = 1 then fieldAt seg (o + 2) - maxmss else 0) + oddExcess maxmss opts seg := by
  unfold oddExcess
  by_cases hodd : o % 2 = 1
  · rw [filter_cons_of_pos (by simpa using hodd), map_cons, sum_cons, if_pos hodd]
  · rw [filter_cons_of_neg (by simpa using hodd), if_neg hodd, zero_add]

variable {maxmss : Nat}

theorem oddExcess_congr {opts : List Nat} {seg seg' : Bytes}
    (h : ∀ o ∈ opts, fieldAt seg' (o + 2) = fieldAt seg (o + 2)) :
    oddExcess maxmss opts seg' = oddExcess maxmss opts seg := by
  unfold oddExcess
  congr 1
  apply map_congr_left
  intro o ho
  rw [h o (mem_of_mem_filter ho)]

theorem mssOptions_congr {seg seg' : Bytes} {fuel : Nat} : ∀ (olen opt : Nat),
    (∀ i, opt ≤ i → seg'.getD i 0 = seg.getD i 0) →
      mssOptions fuel olen opt seg' = mssOptions fuel olen opt seg := by
  induction fuel with
  | zero =>
    intro olen opt h
    rfl
  | succ fuel ih =>
    intro olen opt h
    have hkind := h opt (le_refl opt)
    have hlen := h (opt + 1) (le_succ opt)
    have hnext : ∀ n, mssOptions fuel (olen - n) (opt + n) seg' =
        mssOptions fuel (olen - n) (opt + n) seg := by
      intro n
      apply ih
      intro i hi
      exact h i (by omega)
    unfold mssOptions
    simp only [hkind, hlen, hnext]

/-- The options lie within the option area and do not overlap. -/
theorem mssOptions_bounds {seg : Bytes} {fuel : Nat} : ∀ (olen opt : Nat),
    (∀ o ∈ mssOptions fuel olen opt seg, opt ≤ o ∧ o + 4 ≤ opt + olen) ∧
      (mssOptions fuel olen opt seg).Pairwise (fun a b => a + 4 ≤ b) := by
  induction fuel with
  | zero =>
    intro olen opt
    exact ⟨fun o ho => (not_mem_nil ho).elim, List.Pairwise.nil⟩
  | succ fuel ih =>
    intro olen opt
    have hskip : ∀ n, n ≤ olen → (∀ o ∈ mssOptions fuel (olen - n) (opt + n) seg,
        opt ≤ o ∧ o + 4 ≤ opt + olen) ∧
        (mssOptions fuel (olen - n) (opt + n) seg).Pairwise (fun a b => a + 4 ≤ b) := by
      intro n hn
      obtain ⟨hmem, hpair⟩ := ih (olen - n) (opt + n)
      refine ⟨fun o ho => ?_, hpair⟩
      have hbds := hmem o ho
      omega
    unfold mssOptions
    split
    case isTrue => exact ⟨fun o ho => (not_mem_nil ho).elim, List.Pairwise.nil⟩
    case isFalse hmore =>
      split
      case isTrue => exact hskip 1 (by omega)
      case isFalse =>
        dsimp only
        split
        case isTrue => exact ⟨fun o ho => (not_mem_nil ho).elim, List.Pairwise.nil⟩
        case isFalse hlen =>
          have hrest := hskip (seg.getD (opt + 1) 0).toNat (by omega)
          split
          case isTrue hmss =>
            have hfour : (seg.getD (opt + 1) 0).toNat = 4 := hmss.2
            rw [hfour] at hrest hlen ⊢
            refine ⟨fun o ho => ?_, pairwise_cons.mpr ⟨fun o ho => ?_, hrest.2⟩⟩
            · rcases mem_cons.mp ho with rfl | ho
              · omega
              · exact hrest.1 o ho
            · exact ((ih _ _).1 o ho).1
          case isFalse => exact hrest

/-! ## One option -/

section Clamp

variable (e : Endian) {maxmss : Nat} {seg : Bytes} {opt : Nat}

theorem clampMss_of_le (h : fieldAt seg (opt + 2) ≤ maxmss) : clampMss e maxmss seg opt = seg :=
  if_neg (not_lt.mpr h)

theorem clampMss_of_lt (h : maxmss < fieldAt seg (opt + 2)) :
    clampMss e maxmss seg opt = setWord e (setField seg (opt + 2) maxmss) TCP_CHECK
      (adjustChecksum ((e.hton (fieldAt seg (opt + 2)) : Int) - e.hton maxmss)
        (wordAt e (setField seg (opt + 2) maxmss) TCP_CHECK)) := if_pos h

theorem clampMss_length : (clampMss e maxmss seg opt).length = seg.length := by
  rcases lt_or_ge maxmss (fieldAt seg (opt + 2)) with h | h
  · rw [clampMss_of_lt e h, length_setWord, length_setField]
  · rw [clampMss_of_le e h]

theorem clampMss_getD {i : Nat} (hck : i ≠ 16 ∧ i ≠ 17) (hval : i ≠ opt + 2 ∧ i ≠ opt + 3) :
    (clampMss e maxmss seg opt).getD i 0 = seg.getD i 0 := by
  have hword : i ≠ TCP_CHECK ∧ i ≠ TCP_CHECK + 1 := hck
  rcases lt_or_ge maxmss (fieldAt seg (opt + 2)) with h | h
  · rw [clampMss_of_lt e h, getD_setWord_of_ne e _ _ hword, getD_setField_of_ne _ _ hval]
  · rw [clampMss_of_le e h]

theorem clampMss_field_of_ne {i : Nat} (hi : 18 ≤ i) (hval : i + 1 < opt + 2 ∨ opt + 3 < i) :
    fieldAt (clampMss e maxmss seg opt) i = fieldAt seg i := by
  unfold fieldAt
  rw [clampMss_getD e (by omega) (by omega), clampMss_getD e (by omega) (by omega)]

theorem clampMss_field (hmax : maxmss < 65536) (hopt : 20 ≤ opt) (hlen : opt + 4 ≤ seg.length) :
    fieldAt (clampMss e maxmss seg opt) (opt + 2) = min (fieldAt seg (opt + 2)) maxmss := by
  rcases lt_or_ge maxmss (fieldAt seg (opt + 2)) with h | h
  · have hck : TCP_CHECK = 16 := rfl
    rw [min_eq_right (le_of_lt h), clampMss_of_lt e h]
    have hfld : fieldAt (setField seg (opt + 2) maxmss) (opt + 2) = maxmss :=
      fieldAt_setField_self (by omega) hmax
    unfold fieldAt at hfld ⊢
    rw [getD_setWord_of_ne e _ _ (by omega), getD_setWord_of_ne e _ _ (by omega), hfld]
  · rw [min_eq_left h, clampMss_of_le e h]

variable (seg opt) in
theorem factor_mul_adjust (hmax : maxmss < 65536) (w : Nat) (hw : w < 65536) :
    e.factor * ((adjustChecksum ((e.hton (fieldAt seg (opt + 2)) : Int) - e.hton maxmss) w : Int) -
        w) ≡ (fieldAt seg (opt + 2) : Int) - maxmss [ZMOD 65535] := by
  have hold : e.hton (fieldAt seg (opt + 2)) < 65536 := e.word_lt _ _
  have hnew : e.hton maxmss < 65536 := e.word_lt _ _
  have hbd : ((e.hton (fieldAt seg (opt + 2)) : Int) - e.hton maxmss).natAbs < 2 ^ 30 := by omega
  have hadj := adjustChecksum_modEq hbd hw
  have hdiff := (hadj.sub_right (w : Int)).mul_left e.factor
  have hvalues := (e.factor_mul_hton (fieldAt_lt seg (opt + 2))).sub (e.factor_mul_hton hmax)
  calc _ ≡ e.factor * ((e.hton (fieldAt seg (opt + 2)) : Int) - e.hton maxmss + w - w)
          [ZMOD 65535] := hdiff
    _ = e.factor * (e.hton (fieldAt seg (opt + 2)) : Int) - e.factor * e.hton maxmss := by ring
    _ ≡ _ [ZMOD 65535] := hvalues

/-- **The checksum** makes up for a value at an even offset, but not at an odd one. -/
theorem onesSum_clampMss (hmax : maxmss < 65536) (hopt : 20 ≤ opt) (hlen : opt + 4 ≤ seg.length) :
    onesSum true (clampMss e maxmss seg opt) ≡
      onesSum true seg - 255 * ((if opt % 2 = 1 then fieldAt seg (opt + 2) - maxmss else 0 : Nat) :
        Int) [ZMOD 65535] := by
  rcases lt_or_ge maxmss (fieldAt seg (opt + 2)) with h | h
  · rw [clampMss_of_lt e h]
    have hlen' := length_setField seg (opt + 2) maxmss
    have hck : TCP_CHECK = 16 := rfl
    have hroom : TCP_CHECK + 1 < (setField seg (opt + 2) maxmss).length := by omega
    have hword := onesSum_setWord e rfl hroom (adjustChecksum_lt
      ((e.hton (fieldAt seg (opt + 2)) : Int) - e.hton maxmss)
      (wordAt e (setField seg (opt + 2) maxmss) TCP_CHECK))
    have hv : opt + 2 + 1 < seg.length := by omega
    have hsum := (onesSum_setField hv hmax).add
      (factor_mul_adjust e seg opt hmax (wordAt e (setField seg (opt + 2) maxmss) TCP_CHECK)
        (e.word_lt _ _))
    refine (hword.trans hsum).trans ?_
    rcases mod_two_eq_zero_or_one opt with heven | hodd
    · have heven' : (opt + 2) % 2 = 0 := by omega
      rw [if_pos heven', if_neg (by omega)]
      unfold Int.ModEq
      omega
    · have hodd' : ¬(opt + 2) % 2 = 0 := by omega
      rw [if_neg hodd', if_pos hodd]
      unfold Int.ModEq
      omega
  · rw [clampMss_of_le e h, Nat.sub_eq_zero_of_le h, ite_self, Nat.cast_zero, Int.mul_zero,
      Int.sub_zero]

end Clamp

/-! ## All options -/

theorem mssLoop_eq {e : Endian} {fuel : Nat} : ∀ (olen opt : Nat) (seg : Bytes),
    olen ≤ fuel + 1 → 18 ≤ opt →
      mssLoop e maxmss fuel olen opt seg =
        some ((mssOptions fuel olen opt seg).foldl (clampMss e maxmss) seg) := by
  induction fuel with
  | zero =>
    intro olen opt seg hfuel hopt
    exact if_pos hfuel
  | succ fuel ih =>
    intro olen opt seg hfuel hopt
    unfold mssLoop mssOptions
    by_cases hend : olen ≤ 1
    · rw [if_pos hend, if_pos (.inl hend)]
      rfl
    · rw [if_neg hend]
      dsimp only
      by_cases heol : seg.getD opt 0 = OPENVPN_TCPOPT_EOL
      · rw [if_pos heol, if_pos (.inr heol)]
        rfl
      · rw [if_neg heol, if_neg (not_or.mpr ⟨hend, heol⟩)]
        split
        case isTrue => exact ih (olen - 1) (opt + 1) seg (by omega) (by omega)
        case isFalse =>
          split
          case isTrue => rfl
          case isFalse hlen =>
            split
            case isTrue hmss =>
              -- the options behind this one are not touched by it
              have hfour : (seg.getD (opt + 1) 0).toNat = 4 := hmss.2
              rw [hfour, ih _ _ _ (by omega) (by omega), foldl_cons]
              rw [mssOptions_congr (olen - 4) (opt + 4) fun i hi =>
                clampMss_getD e (by omega) (by omega)]
            case isFalse => exact ih _ _ seg (by omega) (by omega)

/-- What the clamping of all options comes to. -/
structure ClampedOptions (maxmss : Nat) (opts : List Nat) (seg seg' : Bytes) : Prop where
  length : seg'.length = seg.length
  field : ∀ o ∈ opts, fieldAt seg' (o + 2) = min (fieldAt seg (o + 2)) maxmss
  others : ∀ i, i ≠ 16 ∧ i ≠ 17 → (∀ o ∈ opts, i ≠ o + 2 ∧ i ≠ o + 3) →
    seg'.getD i 0 = seg.getD i 0
  sum : onesSum true seg' ≡ onesSum true seg - 255 * (oddExcess maxmss opts seg : Int) [ZMOD 65535]

/-- Options that do not overlap are clamped one by one. -/
theorem clampedOptions_foldl (e : Endian) (hmax : maxmss < 65536) (opts : List Nat) :
    ∀ seg : Bytes, (∀ o ∈ opts, 20 ≤ o ∧ o + 4 ≤ seg.length) →
      opts.Pairwise (fun a b => a + 4 ≤ b) →
        ClampedOptions maxmss opts seg (opts.foldl (clampMss e maxmss) seg) := by
  induction opts with
  | nil =>
    intro seg _ _
    refine ⟨rfl, fun o ho => (not_mem_nil ho).elim, fun i _ _ => rfl, ?_⟩
    show onesSum true seg ≡ onesSum true seg - 255 * ((0 : Nat) : Int) [ZMOD 65535]
    rw [cast_zero, Int.mul_zero, Int.sub_zero]
  | cons o opts ih =>
    intro seg hbds hpair
    obtain ⟨hfst, hpair⟩ := pairwise_cons.mp hpair
    obtain ⟨hopt, hlen⟩ := hbds o mem_cons_self
    have hrest : ∀ o' ∈ opts, 20 ≤ o' ∧ o' + 4 ≤ (clampMss e maxmss seg o).length := by
      intro o' ho'
      rw [clampMss_length]
      exact hbds o' (mem_cons_of_mem o ho')
    obtain ⟨hlg, hfld, hoths, hsum⟩ := ih (clampMss e maxmss seg o) hrest hpair
    have hlat : ∀ o' ∈ opts, fieldAt (clampMss e maxmss seg o) (o' + 2) =
        fieldAt seg (o' + 2) := by
      intro o' ho'
      have hbeh := hfst o' ho'
      exact clampMss_field_of_ne e (by omega) (by omega)
    refine ⟨hlg.trans (clampMss_length e), ?_, ?_, ?_⟩
    · intro o' ho'
      rcases mem_cons.mp ho' with rfl | ho'
      · -- the later options leave this value alone
        have hkeep : fieldAt (opts.foldl (clampMss e maxmss) (clampMss e maxmss seg o')) (o' + 2) =
            fieldAt (clampMss e maxmss seg o') (o' + 2) := by
          unfold fieldAt
          rw [hoths (o' + 2) (by omega) fun o ho => ?_, hoths (o' + 2 + 1) (by omega)
            fun o ho => ?_]
          · have hbeh := hfst o ho
            omega
          · have hbeh := hfst o ho
            omega
        rw [foldl_cons, hkeep, clampMss_field e hmax hopt hlen]
      · rw [foldl_cons, hfld o' ho', hlat o' ho']
    · intro i hck hval
      rw [foldl_cons, hoths i hck fun o' ho' => hval o' (mem_cons_of_mem o ho'),
        clampMss_getD e hck (hval o mem_cons_self)]
    · have hone := onesSum_clampMss e hmax hopt hlen
      rw [foldl_cons, oddExcess_cons]
      rw [oddExcess_congr hlat] at hsum
      refine hsum.trans ((hone.sub_right _).trans ?_)
      unfold Int.ModEq
      push_cast
      congr 1
      ring

/-! ## Segments -/

theorem segOptions_bounds {seg : Bytes} :
    (∀ o ∈ segOptions seg, 20 ≤ o ∧ o + 4 ≤ seg.length) ∧
      (segOptions seg).Pairwise (fun a b => a + 4 ≤ b) := by
  unfold segOptions
  split
  case isTrue h =>
    obtain ⟨-, hlow, hhigh⟩ := h
    obtain ⟨hmem, hpair⟩ := mssOptions_bounds
      (tcpDoff seg - SIZEOF_TCPHDR) SIZEOF_TCPHDR
    refine ⟨fun o ho => ?_, hpair⟩
    have hbds := hmem o ho
    have htwenty : SIZEOF_TCPHDR = 20 := rfl
    omega
  case isFalse => exact ⟨fun o ho => (not_mem_nil ho).elim, List.Pairwise.nil⟩

theorem mssFixupDowork_isSome (e : Endian) (maxmss : Nat) (seg : Bytes) :
    (mssFixupDowork e maxmss seg).isSome = true := by
  unfold mssFixupDowork
  split
  case isTrue => rfl
  case isFalse =>
    dsimp only
    split
    case isTrue => rfl
    case isFalse =>
      rw [mssLoop_eq _ _ seg (le_succ _) (by decide)]
      rfl

theorem mssFixupDowork_syn {e : Endian} {seg : Bytes} (hsyn : tcpSyn seg = true)
    (hlen : SIZEOF_TCPHDR ≤ seg.length) :
    mssFixupDowork e maxmss seg = some ((segOptions seg).foldl (clampMss e maxmss) seg) := by
  unfold mssFixupDowork segOptions
  rw [if_neg (not_lt.mpr hlen)]
  dsimp only
  by_cases hopts : SIZEOF_TCPHDR < tcpDoff seg ∧ tcpDoff seg ≤ seg.length
  · rw [if_neg (by omega), if_pos ⟨hsyn, hopts⟩,
      mssLoop_eq _ _ seg (le_succ _) (by decide)]
  · rw [if_pos (by omega), if_neg fun h => hopts h.2]
    rfl

theorem mssFixupSyn_spec (e : Endian) (hmax : maxmss < 65536) (buf : Bytes) (hlen : Nat)
    (hle : hlen ≤ buf.length) (hseg : SIZEOF_TCPHDR ≤ buf.length - hlen) :
    ∃ buf', mssFixupSyn e maxmss buf hlen = some buf' ∧ buf'.take hlen = buf.take hlen ∧
      ClampedOptions maxmss (segOptions (buf.drop hlen)) (buf.drop hlen) (buf'.drop hlen) := by
  unfold mssFixupSyn
  split
  case isTrue hsyn =>
    rw [mssFixupDowork_syn hsyn (by rw [length_drop]; exact hseg)]
    refine ⟨_, rfl, ?_, ?_⟩
    · rw [take_append_of_le_length (by rw [length_take]; omega), take_take, min_self]
    · rw [drop_left' (by rw [length_take]; omega)]
      obtain ⟨hbds, hpair⟩ := segOptions_bounds
      exact clampedOptions_foldl e hmax _ _ hbds hpair
  case isFalse hsyn =>
    have hnone : segOptions (buf.drop hlen) = [] := if_neg fun h => hsyn h.1
    rw [hnone]
    exact ⟨buf, rfl, rfl, clampedOptions_foldl e hmax [] _ (fun o ho => (not_mem_nil ho).elim)
      List.Pairwise.nil⟩

/-! ## Packets -/

/-- An IPv4 packet with a TCP header. -/
structure Ipv4Tcp (pkt : Bytes) : Prop where
  version : ipVersion (pkt.getD 0 0) = 4
  header : SIZEOF_IPHDR ≤ ipHeaderLen (pkt.getD 0 0)
  segment : ipHeaderLen (pkt.getD 0 0) + SIZEOF_TCPHDR ≤ pkt.length
  totLen : fieldAt pkt 2 = pkt.length
  protocol : pkt.getD 9 0 = OPENVPN_IPPROTO_TCP
  first : fieldAt pkt 6 % (OPENVPN_IP_OFFMASK + 1) = 0

/-- An IPv6 packet with a TCP header. -/
structure Ipv6Tcp (pkt : Bytes) : Prop where
  version : ipVersion (pkt.getD 0 0) = 6
  segment : SIZEOF_IPV6HDR + SIZEOF_TCPHDR ≤ pkt.length
  payloadLen : pkt.length = fieldAt pkt 4 + SIZEOF_IPV6HDR
  nexthdr : pkt.getD 6 0 = OPENVPN_IPPROTO_TCP

/-- The sum of a segment and its pseudo header. `len` is the length of the segment; if
there are more fragments, their words count in it. -/
def tcpSum (addrs : Bytes) (len : Nat) (seg : Bytes) : Int :=
  onesSum true addrs + OPENVPN_IPPROTO_TCP.toNat + len + onesSum true seg

def ipv4TcpSum (pkt : Bytes) (len : Nat) : Int :=
  tcpSum ((pkt.drop 12).take 8) len (pkt.drop (ipHeaderLen (pkt.getD 0 0)))

def ipv6TcpSum (pkt : Bytes) (len : Nat) : Int :=
  tcpSum ((pkt.drop 8).take 32) len (pkt.drop SIZEOF_IPV6HDR)

/-- The options of the segment behind `hlen` bytes are at most `limit` and not increased,
and nothing but their values and the checksum is changed. -/
structure MssKept (limit hlen : Nat) (pkt pkt' : Bytes) : Prop where
  length : pkt'.length = pkt.length
  limited : ∀ o ∈ segOptions (pkt.drop hlen), fieldAt pkt' (hlen + (o + 2)) ≤ limit ∧
    fieldAt pkt' (hlen + (o + 2)) ≤ fieldAt pkt (hlen + (o + 2))
  others : ∀ i, i ≠ hlen + 16 ∧ i ≠ hlen + 17 →
    (∀ o ∈ segOptions (pkt.drop hlen), i ≠ hlen + (o + 2) ∧ i ≠ hlen + (o + 3)) →
    pkt'.getD i 0 = pkt.getD i 0

theorem getD_of_take_eq {pkt pkt' : Bytes} {n i : Nat} (h : pkt'.take n = pkt.take n) (hi : i < n) :
    pkt'.getD i 0 = pkt.getD i 0 := by
  have hget := congrArg (fun l : Bytes => l[i]?) h
  simp only [getElem?_take, if_pos hi] at hget
  rw [getD_eq_getElem?_getD, getD_eq_getElem?_getD, hget]

theorem mssKept_of_clamped {limit hlen : Nat} {pkt pkt' : Bytes} (hle : hlen ≤ pkt.length)
    (htake : pkt'.take hlen = pkt.take hlen)
    (h : ClampedOptions limit (segOptions (pkt.drop hlen)) (pkt.drop hlen) (pkt'.drop hlen)) :
    MssKept limit hlen pkt pkt' := by
  refine ⟨?_, ?_, ?_⟩
  · have htakelen := congrArg length htake
    have hdroplen := h.length
    rw [length_take, length_take] at htakelen
    rw [length_drop, length_drop] at hdroplen
    omega
  · intro o ho
    rw [← fieldAt_drop pkt' hlen, ← fieldAt_drop pkt hlen, h.field o ho]
    exact ⟨min_le_right _ _, min_le_left _ _⟩
  · intro i hck hval
    rcases lt_or_ge i hlen with hi | hi
    · exact getD_of_take_eq htake hi
    · obtain ⟨j, rfl⟩ := Nat.exists_eq_add_of_le hi
      rw [← getD_drop, ← getD_drop]
      apply h.others j (by omega)
      intro o ho
      have hne := hval o ho
      omega

theorem take_drop_of_take_eq {pkt pkt' : Bytes} {n a b : Nat} (h : pkt'.take n = pkt.take n)
    (hab : a + b ≤ n) : (pkt'.drop a).take b = (pkt.drop a).take b := by
  have hmin : a + b = min (a + b) n := (min_eq_left hab).symm
  rw [take_drop, take_drop, hmin, ← take_take, h, take_take]

theorem onesValid_clamped {addrs seg seg' : Bytes} {limit len : Nat}
    (h : ClampedOptions limit (segOptions seg) seg seg') (hval : OnesValid (tcpSum addrs len seg)) :
    OnesValid (tcpSum addrs len seg') ↔ oddExcess limit (segOptions seg) seg % 257 = 0 := by
  have hsum := h.sum
  have haddrs := onesSum_nonneg true addrs
  have hseg := onesSum_nonneg true seg'
  have hpr : OPENVPN_IPPROTO_TCP.toNat = 6 := rfl
  unfold Int.ModEq at hsum
  unfold OnesValid tcpSum at hval ⊢
  rw [hpr] at hval ⊢
  omega

theorem mssFixupIpv4_other (e : Endian) (maxmss : Nat) {pkt : Bytes}
    (hversion : ipVersion (pkt.getD 0 0) = 4) (hhd : SIZEOF_IPHDR ≤ ipHeaderLen (pkt.getD 0 0))
    (h : ¬Ipv4Tcp pkt) : mssFixupIpv4 e maxmss pkt = some pkt := by
  unfold mssFixupIpv4
  dsimp only
  split
  · rfl
  · rw [if_neg]
    intro ⟨hprotocol, hlen, hfst, hle, hroom⟩
    exact h ⟨hversion, hhd, by omega, hlen, hprotocol, hfst⟩

theorem mssFixupIpv6_other (e : Endian) (maxmss : Nat) {pkt : Bytes}
    (hversion : ipVersion (pkt.getD 0 0) = 6) (h : ¬Ipv6Tcp pkt) :
    mssFixupIpv6 e maxmss pkt = some pkt := by
  unfold mssFixupIpv6
  split
  · rfl
  · split
    · rfl
    · split
      · rfl
      · next hlen hnexthdr =>
          rw [if_neg]
          intro hroom
          exact h ⟨hversion, by omega, not_not.mp hlen, not_not.mp hnexthdr⟩

/-- **Clamping.** The loop over the options ends for every segment. For a packet with a TCP
header, the options are clamped and nothing else changes; the checksum is still valid iff what
is cut off at odd offsets is a multiple of 257. Any other packet stays as it is. -/
theorem mss_fixup_valid_iff (e : Endian) {maxmss : Nat} (hmax : 20 ≤ maxmss ∧ maxmss < 65536) :
    (∀ limit seg, (mssFixupDowork e limit seg).isSome = true) ∧
      (∀ pkt, Ipv4Tcp pkt → ∃ pkt', mssFixupIpv4 e maxmss pkt = some pkt' ∧
        MssKept maxmss (ipHeaderLen (pkt.getD 0 0)) pkt pkt' ∧
        ∀ len, OnesValid (ipv4TcpSum pkt len) →
          (OnesValid (ipv4TcpSum pkt' len) ↔
            oddExcess maxmss (segOptions (pkt.drop (ipHeaderLen (pkt.getD 0 0))))
              (pkt.drop (ipHeaderLen (pkt.getD 0 0))) % 257 = 0)) ∧
      (∀ pkt, Ipv6Tcp pkt → ∃ pkt', mssFixupIpv6 e maxmss pkt = some pkt' ∧
        MssKept (maxmss - 20) SIZEOF_IPV6HDR pkt pkt' ∧
        ∀ len, OnesValid (ipv6TcpSum pkt len) →
          (OnesValid (ipv6TcpSum pkt' len) ↔
            oddExcess (maxmss - 20) (segOptions (pkt.drop SIZEOF_IPV6HDR))
              (pkt.drop SIZEOF_IPV6HDR) % 257 = 0)) ∧
      (∀ pkt, ipVersion (pkt.getD 0 0) = 4 → SIZEOF_IPHDR ≤ ipHeaderLen (pkt.getD 0 0) →
        ¬Ipv4Tcp pkt → mssFixupIpv4 e maxmss pkt = some pkt) ∧
      ∀ pkt, ipVersion (pkt.getD 0 0) = 6 → ¬Ipv6Tcp pkt →
        mssFixupIpv6 e maxmss pkt = some pkt := by
  refine ⟨fun limit seg => mssFixupDowork_isSome e limit seg, ?_, ?_,
    fun _ => mssFixupIpv4_other e maxmss, fun _ => mssFixupIpv6_other e maxmss⟩
  · intro pkt hpkt
    have hheader := hpkt.header
    have hsegment := hpkt.segment
    have hiphdr : SIZEOF_IPHDR = 20 := rfl
    obtain ⟨pkt', hfix, htake, hclamped⟩ := mssFixupSyn_spec e hmax.2 pkt
      (ipHeaderLen (pkt.getD 0 0)) (by omega) (by omega)
    refine ⟨pkt', ?_, mssKept_of_clamped (by omega) htake hclamped, ?_⟩
    · unfold mssFixupIpv4
      rw [if_neg (by omega)]
      dsimp only
      rw [if_pos ⟨hpkt.protocol, hpkt.totLen, hpkt.first, by omega, by omega⟩, hfix]
    · intro len hvalid
      have hfirst : pkt'.getD 0 0 = pkt.getD 0 0 := getD_of_take_eq htake (by omega)
      unfold ipv4TcpSum at hvalid ⊢
      rw [hfirst, take_drop_of_take_eq htake (by omega)]
      exact onesValid_clamped hclamped hvalid
  · intro pkt hpkt
    have hsegment := hpkt.segment
    have hlimit : (maxmss + 65536 - 20) % 65536 = maxmss - 20 := by omega
    have hless : maxmss - 20 < 65536 := by omega
    obtain ⟨pkt', hfix, htake, hclamped⟩ := mssFixupSyn_spec e hless pkt SIZEOF_IPV6HDR
      (by omega) (by omega)
    refine ⟨pkt', ?_, mssKept_of_clamped (by omega) htake hclamped, ?_⟩
    · unfold mssFixupIpv6
      rw [if_neg (by omega), if_neg (not_not.mpr hpkt.payloadLen), if_neg (not_not.mpr hpkt.nexthdr),
        if_pos (by omega), hlimit, hfix]
    · intro len hvalid
      unfold ipv6TcpSum at hvalid ⊢
      rw [take_drop_of_take_eq htake (by decide)]
      exact onesValid_clamped hclamped hvalid

/-- A SYN with eight bytes of options and with the checksum `check`. -/
def synPacket (check : UInt8 × UInt8) (options : Bytes) : Bytes :=
  [0x45, 0, 0, 48, 0, 1, 0, 0, 64, 6, 102, 181, 10, 8, 0, 2, 10, 8, 0, 1] ++
    [4, 210, 0, 80, 0, 0, 0, 1, 0, 0, 0, 0, 0x70, 2, 32, 0, check.1, check.2, 0, 0] ++ options

/-- The MSS option comes first. -/
theorem mss_fixup_valid_even :
    ∃ pkt', mssFixupIpv4 .little 1000 (synPacket (0x4d, 0xed) [2, 4, 5, 180, 1, 0, 0, 0]) =
        some pkt' ∧ OnesValid (ipv4TcpSum pkt' 28) := by
  have hpkt : Ipv4Tcp (synPacket (0x4d, 0xed) [2, 4, 5, 180, 1, 0, 0, 0]) := by
    constructor <;> decide
  have hmax : 20 ≤ 1000 ∧ 1000 < 65536 := by decide
  obtain ⟨pkt', hfix, -, hvalid⟩ := (mss_fixup_valid_iff .little hmax).2.1 _ hpkt
  exact ⟨pkt', hfix, (hvalid 28 (by decide)).mpr (by decide)⟩

/-- Behind a single NOP the option is at an odd offset, and the checksum is not valid
after the value is lowered. -/
theorem mss_fixup_odd_invalid :
    OnesValid (ipv4TcpSum (synPacket (0x9d, 0x9d) [1, 2, 4, 5, 180, 0, 0, 0]) 28) ∧
      (mssFixupIpv4 .little 1000 (synPacket (0x9d, 0x9d) [1, 2, 4, 5, 180, 0, 0, 0])).map
        (fun pkt' => (pkt'.drop 36, decide (OnesValid (ipv4TcpSum pkt' 28)))) =
          some ([0x9f, 0x69, 0, 0, 1, 2, 4, 3, 232, 0, 0, 0], false) := by
  decide

end OpenVpn
