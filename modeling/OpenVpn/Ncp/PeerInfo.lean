import OpenVpn.Ncp.CipherList

/-!
# Peer info

Each side of a TLS session tells the other what it can do, as a text of variables
`NAME=value`, one on a line. The other side searches this text for the variables it
knows.

* `pushPeerInfo` — the text; `extractVarPeerInfo`, `extractIvProto` — reading it.
* `extractVar_settings` — a variable is read back if neither names nor values have an
  equals sign or a line end in them.
* `pushPeerInfo_ciphers`, `pushPeerInfo_proto` — the two variables a peer-to-peer
  session is negotiated with.
-/

namespace OpenVpn

open Base List

/-! ## Protocol bits -/

def IV_PROTO_DATA_V2 : Nat := 1
def IV_PROTO_REQUEST_PUSH : Nat := 2
def IV_PROTO_TLS_KEY_EXPORT : Nat := 3
def IV_PROTO_AUTH_PENDING_KW : Nat := 4
def IV_PROTO_NCP_P2P : Nat := 5
def IV_PROTO_CC_EXIT_NOTIFY : Nat := 7
def IV_PROTO_AUTH_FAIL_TEMP : Nat := 8
def IV_PROTO_DYN_TLS_CRYPT : Nat := 9
def IV_PROTO_DATA_EPOCH : Nat := 10
def IV_PROTO_DNS_OPTION_V2 : Nat := 11

/-- The word with the bits of a list set. -/
def protoBits (bits : List Nat) : Nat := bits.foldl (fun v b => v ||| 2 ^ b) 0

theorem testBit_protoBits (bits : List Nat) (i : Nat) :
    (protoBits bits).testBit i = decide (i ∈ bits) := by
  induction bits using reverseRecOn with
  | nil => simp [protoBits]
  | append_singleton bits b ih =>
    rw [protoBits, foldl_append, ← protoBits]
    simp only [foldl_cons, foldl_nil, Nat.testBit_or, ih, Nat.testBit_two_pow]
    by_cases hi : i ∈ bits
    · simp [hi]
    · simp [hi, eq_comm]

/-! ## Writing the text -/

/-- What `push_peer_info` reads of a session. The last fields are texts of the
system: the version of the program, the variables of the compression settings, the
hardware address, the TLS library, the kernel and the environment. -/
structure TlsOptions where
  server : Bool
  pull : Bool
  modeServer : Bool
  pushPeerInfoDetail : Nat
  tunMaxMtu : Nat
  dataEpochSupported : Bool
  configNcpCiphers : Bytes
  /-- `HAVE_EXPORT_KEYING_MATERIAL` of the build. -/
  haveExportKeyingMaterial : Bool
  packageVersion : Bytes
  compVars : List (Bytes × Bytes)
  hwaddr : Option Bytes
  sslLibraryVersion : Bytes
  platVer : Bytes
  env : List Bytes

/-- A variable and its value on a line. -/
def settingLine (v : Bytes × Bytes) : Bytes := v.1 ++ 61 :: (v.2 ++ [10])

section Push

variable (opt : TlsOptions)

def ivProtoBits : List Nat :=
  [IV_PROTO_DATA_V2, IV_PROTO_DNS_OPTION_V2, IV_PROTO_CC_EXIT_NOTIFY] ++
    (if opt.pull then [IV_PROTO_REQUEST_PUSH, IV_PROTO_AUTH_PENDING_KW, IV_PROTO_AUTH_FAIL_TEMP]
      else []) ++
    (if opt.modeServer || opt.pull then [] else [IV_PROTO_NCP_P2P]) ++
    (if opt.dataEpochSupported then [IV_PROTO_DATA_EPOCH] else []) ++
    (if opt.haveExportKeyingMaterial then [IV_PROTO_TLS_KEY_EXPORT, IV_PROTO_DYN_TLS_CRYPT] else [])

def varsBefore : List (Bytes × Bytes) :=
  (if 1 < opt.pushPeerInfoDetail then
    [(ascii "IV_VER", opt.packageVersion), (ascii "IV_PLAT", ascii "linux"),
      (ascii "IV_TCPNL", ascii "1")] else []) ++
    (if opt.pull then [(ascii "IV_MTU", decimal opt.tunMaxMtu)] else []) ++
    (if (opt.modeServer || opt.pull) &&
        tlsItemInCipherList (ascii "AES-128-GCM") opt.configNcpCiphers &&
        tlsItemInCipherList (ascii "AES-256-GCM") opt.configNcpCiphers then
      [(ascii "IV_NCP", ascii "2")] else [])

/-- The variables of every peer that sends some. -/
def varsNegotiated : List (Bytes × Bytes) :=
  varsBefore opt ++ [(ascii "IV_CIPHERS", opt.configNcpCiphers),
    (ascii "IV_PROTO", decimal (protoBits (ivProtoBits opt)))]

def varsAfter : List (Bytes × Bytes) :=
  (if 1 < opt.pushPeerInfoDetail then opt.compVars else []) ++
    (if 2 < opt.pushPeerInfoDetail then
      (match opt.hwaddr with
        | some hwaddr => [(ascii "IV_HWADDR", hwaddr)]
        | none => []) ++
        [(ascii "IV_SSL", opt.sslLibraryVersion), (ascii "IV_PLAT_VER", opt.platVer)]
      else [])

/-- The variables of the environment that are sent. -/
def envPushed (e : Bytes) : Bool :=
  ((ascii "UV_").isPrefixOf e || (ascii "IV_PLAT_VER=").isPrefixOf e) &&
      decide (2 < opt.pushPeerInfoDetail) ||
    (ascii "IV_GUI_VER=").isPrefixOf e || (ascii "IV_SSO=").isPrefixOf e

def pushEnv (out : Buffer) (e : Bytes) : Buffer :=
  if envPushed opt e ∧ bufSafe out (e.length + 1) then bufPrintf out (e ++ [10]) else out

theorem peerInfoOut_fits : 0 + ([] : Bytes).length ≤ 512 * 3 := by decide

/-- `push_peer_info`: the string that is written. -/
def pushPeerInfo : Bytes :=
  if 0 < opt.pushPeerInfoDetail then
    let vars := varsNegotiated opt ++ varsAfter opt
    let out := vars.foldl (fun out v => bufPrintf out (settingLine v))
      ⟨512 * 3, 0, [], peerInfoOut_fits⟩
    let env := if 1 < opt.pushPeerInfoDetail then opt.env else []
    (env.foldl (pushEnv opt) out).contents
  else []

end Push

/-! ## Reading the text -/

/-- `extract_var_peer_info`; `name` ends with the equals sign. -/
def extractVarPeerInfo (peerInfo : Option Bytes) (name : Bytes) : Option Bytes :=
  peerInfo.bind fun text =>
    (strstr name text).map fun pos => (text.drop (pos + name.length)).takeWhile fun c => c != 10

/-- A `long` that is stored in an `int`. -/
def intOfLong (v : Int) : Int := (max (-2 ^ 63) (min v (2 ^ 63 - 1))).bmod (2 ^ 32)

/-- The conversion `%d` of `sscanf`. -/
def scanInt (s : Bytes) : Option Int :=
  let s := s.dropWhile isspace
  let digits := (if s.head? = some 45 ∨ s.head? = some 43 then s.tail else s).takeWhile isdigit
  if digits.isEmpty then none
  else some (intOfLong
    (if s.head? = some 45 then -(decimalValue digits : Int) else decimalValue digits))

def extractIvProto (peerInfo : Option Bytes) : Nat :=
  match peerInfo.bind fun text =>
      (strstr (ascii "IV_PROTO=") text).map fun pos => text.drop (pos + 9) with
  | none => 0
  | some text =>
    match scanInt text with
    | some proto => if 0 < proto then proto.toNat else 0
    | none => 0

/-! ## Reading what was written -/

variable {name : Bytes}

theorem suffix_of_infix_setting {x y : Bytes} (hx : 61 ∉ x) (hy : 61 ∉ y)
    (h : name ++ [61] <:+: x ++ 61 :: y) : name <:+ x := by
  obtain ⟨a, b, hab⟩ := h
  have hcut : a ++ name ++ 61 :: b = x ++ 61 :: y := by
    rw [← hab]
    simp
  rcases append_eq_append_iff.mp hcut with ⟨c, hc, hd⟩ | ⟨c, hc, hd⟩
  · -- the equals sign of the name would stand before that of the line
    cases c with
    | nil =>
      rw [append_nil] at hc
      exact ⟨a, hc.symm⟩
    | cons e c =>
      rw [cons_append, cons.injEq] at hd
      exact absurd (by rw [hc, ← hd.1]; simp) hx
  · -- or behind it
    cases c with
    | nil =>
      rw [append_nil] at hc
      exact ⟨a, hc⟩
    | cons e c =>
      rw [cons_append, cons.injEq] at hd
      exact absurd (by rw [hd.2]; simp) hy

/-- Variables without equals signs among which `name` is not found. -/
def NotFound (name : Bytes) (vars : List (Bytes × Bytes)) : Prop :=
  ∀ v ∈ vars, 61 ∉ v.1 ∧ 61 ∉ v.2 ∧ ¬name <:+ v.1

variable {vars : List (Bytes × Bytes)}

theorem strstr_settings (hname : 10 ∉ name) (hvars : NotFound name vars) (rest : Bytes) :
    strstr (name ++ [61]) (vars.flatMap settingLine ++ rest) =
      (strstr (name ++ [61]) rest).map (· + (vars.flatMap settingLine).length) := by
  induction vars with
  | nil => simp
  | cons v vars ih =>
    obtain ⟨hv1, hv2, hsuf⟩ := hvars v mem_cons_self
    have hline : (v :: vars).flatMap settingLine ++ rest =
        (v.1 ++ 61 :: v.2) ++ 10 :: (vars.flatMap settingLine ++ rest) := by
      simp [settingLine]
    have hlen : ((v :: vars).flatMap settingLine).length =
        (vars.flatMap settingLine).length + ((v.1 ++ 61 :: v.2).length + 1) := by
      simp [settingLine]
      omega
    have hno : ¬name ++ [61] <:+: v.1 ++ 61 :: v.2 := fun h =>
      hsuf (suffix_of_infix_setting hv1 hv2 h)
    rw [hline, strstr_field (by simp [hname]) hno,
      ih fun v' hv' => hvars v' (mem_cons_of_mem v hv'), Option.map_map, hlen]
    congr 1
    funext n
    simp only [Function.comp_apply]
    omega

theorem strstr_setting (hname : 10 ∉ name) (hvars : NotFound name vars) {value rest : Bytes} :
    ∃ pos, strstr (name ++ [61])
        (vars.flatMap settingLine ++ (settingLine (name, value) ++ rest)) = some pos ∧
      (vars.flatMap settingLine ++ (settingLine (name, value) ++ rest)).drop
        (pos + (name ++ [61]).length) = value ++ 10 :: rest := by
  have hline : settingLine (name, value) ++ rest = (name ++ [61]) ++ (value ++ 10 :: rest) := by
    simp [settingLine]
  refine ⟨(vars.flatMap settingLine).length, ?_, ?_⟩
  · rw [strstr_settings hname hvars, hline, strstr_zero (prefix_append _ _)]
    simp
  · rw [drop_length_add_append, hline, drop_left]

theorem extractVar_settings {value : Bytes} (hname : 10 ∉ name) (hv : 10 ∉ value)
    (hvars : NotFound name vars) (rest : Bytes) :
    extractVarPeerInfo
        (some (vars.flatMap settingLine ++ (settingLine (name, value) ++ rest))) (name ++ [61]) =
      some value := by
  obtain ⟨pos, hpos, hdrop⟩ := strstr_setting hname hvars
  have htake : (value ++ 10 :: rest).takeWhile (fun c => c != 10) = value := by
    rw [takeWhile_append_of_pos, takeWhile_cons_of_neg (by decide), append_nil]
    intro c hc
    have hne : c ≠ 10 := fun h => hv (h ▸ hc)
    simpa using hne
  rw [extractVarPeerInfo, Option.bind_some, hpos, Option.map_some, hdrop, htake]

theorem scanInt_decimal {n : Nat} (hn : n < 2 ^ 31) (rest : Bytes) :
    scanInt (decimal n ++ 10 :: rest) = some (n : Int) := by
  obtain ⟨c, ds, hds⟩ := exists_cons_of_ne_nil (decimal_ne_nil n)
  have hc : isdigit c = true := decimal_digits n c (by rw [hds]; exact mem_cons_self)
  have hplain : isspace c = false ∧ c ≠ 45 ∧ c ≠ 43 := by
    simp only [isdigit, decide_eq_true_eq, UInt8.le_iff_toNat_le] at hc
    refine ⟨?_, ?_, ?_⟩
    · simp only [isspace, Bool.or_eq_false_iff, decide_eq_false_iff_not, beq_eq_false_iff_ne,
        UInt8.le_iff_toNat_le]
      refine ⟨fun h => ?_, fun h => ?_⟩
      · have h13 : (13 : UInt8).toNat = 13 := rfl
        have h48 : (48 : UInt8).toNat = 48 := rfl
        omega
      · subst h
        exact absurd hc.1 (by decide)
    · intro h
      subst h
      exact absurd hc.1 (by decide)
    · intro h
      subst h
      exact absurd hc.1 (by decide)
  have hv : intOfLong n = n := by
    unfold intOfLong
    have hclamp : max (-2 ^ 63) (min (n : Int) (2 ^ 63 - 1)) = n := by omega
    rw [hclamp]
    exact Int.bmod_eq_of_le (by omega) (by omega)
  have hdrop : (decimal n ++ 10 :: rest).dropWhile isspace = decimal n ++ 10 :: rest := by
    rw [hds, cons_append, dropWhile_cons_of_neg (by simp [hplain.1])]
  have hhead : (decimal n ++ 10 :: rest).head? = some c := by
    rw [hds, cons_append, head?_cons]
  have hminus : ¬some c = some 45 := by simpa using hplain.2.1
  have hplus : ¬some c = some 43 := by simpa using hplain.2.2
  have hdig : (decimal n ++ 10 :: rest).takeWhile isdigit = decimal n :=
    takeWhile_decimal n (by decide) rest
  have hsome : (decimal n).isEmpty = false := by simpa using decimal_ne_nil n
  simp only [scanInt, hdrop, hhead, hminus, hplus, or_self, if_false, hdig, hsome,
    Bool.false_eq_true, decimalValue_decimal, hv]

theorem extractIvProto_settings {n : Nat} (hn : n < 2 ^ 31)
    (hvars : NotFound (ascii "IV_PROTO") vars) (rest : Bytes) :
    extractIvProto (some (vars.flatMap settingLine ++
      (settingLine (ascii "IV_PROTO", decimal n) ++ rest))) = n := by
  obtain ⟨pos, hpos, hdrop⟩ := strstr_setting (by decide) hvars
  have hname : ascii "IV_PROTO=" = ascii "IV_PROTO" ++ [61] := by decide
  have hlen : (ascii "IV_PROTO" ++ [61]).length = 9 := by decide
  rw [hlen] at hdrop
  unfold extractIvProto
  rw [Option.bind_some, hname, hpos, Option.map_some, hdrop]
  simp only [scanInt_decimal hn]
  split
  · exact Int.toNat_natCast n
  · omega

/-! ## The text of a session -/

theorem foldl_bufPrintf {α : Type} (line : α → Bytes) (vars : List α) (out : Buffer)
    (hoff : out.offset = 0)
    (hfit : out.contents.length + (vars.flatMap line).length < out.capacity) :
    (vars.foldl (fun out v => bufPrintf out (line v)) out).contents =
      out.contents ++ vars.flatMap line := by
  induction vars generalizing out with
  | nil => simp
  | cons v vars ih =>
    rw [flatMap_cons, length_append] at hfit
    have hline : (bufPrintf out (line v)).contents = out.contents ++ line v := by
      apply bufPrintf_contents
      rw [bufForwardCapacity, hoff]
      omega
    have hfit' : (bufPrintf out (line v)).contents.length + (vars.flatMap line).length <
        out.capacity := by
      rw [hline, length_append]
      omega
    rw [foldl_cons, ih (bufPrintf out (line v)) hoff hfit', hline, flatMap_cons, append_assoc]

theorem foldl_extends {α : Type} (print : Buffer → α → Buffer)
    (hpr : ∀ out v, out.contents <+: (print out v).contents) (vars : List α) (out : Buffer) :
    out.contents <+: (vars.foldl print out).contents := by
  induction vars generalizing out with
  | nil => exact prefix_rfl
  | cons v vars ih => exact (hpr out v).trans (ih (print out v))

variable {opt : TlsOptions}

theorem pushEnv_extends (out : Buffer) (e : Bytes) :
    out.contents <+: (pushEnv opt out e).contents := by
  unfold pushEnv
  split
  · exact prefix_append _ _
  · exact prefix_rfl

/-- The variables of the negotiation fit into the message. -/
def PeerInfoFits (opt : TlsOptions) : Prop :=
  ((varsNegotiated opt).flatMap settingLine).length < 512 * 3

theorem pushPeerInfo_eq (hdetail : 0 < opt.pushPeerInfoDetail) (hfits : PeerInfoFits opt) :
    ∃ rest, pushPeerInfo opt = (varsNegotiated opt).flatMap settingLine ++ rest := by
  unfold pushPeerInfo
  rw [if_pos hdetail]
  dsimp only
  rw [foldl_append]
  have hfst := foldl_bufPrintf settingLine (varsNegotiated opt)
    ⟨512 * 3, 0, [], peerInfoOut_fits⟩ rfl (by simpa [PeerInfoFits] using hfits)
  generalize (varsNegotiated opt).foldl _ _ = out at hfst ⊢
  rw [nil_append] at hfst
  rw [← hfst]
  have haft := foldl_extends (fun out v => bufPrintf out (settingLine v))
    (fun _ _ => prefix_append _ _) (varsAfter opt) out
  obtain ⟨rest, hrest⟩ := haft.trans (foldl_extends (pushEnv opt) (pushEnv_extends)
    (if 1 < opt.pushPeerInfoDetail then opt.env else []) _)
  exact ⟨rest, hrest.symm⟩

/-- The texts of a session have no equals sign and no line end in them. -/
structure PlainTexts (opt : TlsOptions) : Prop where
  ciphers : 61 ∉ opt.configNcpCiphers ∧ 10 ∉ opt.configNcpCiphers
  version : 61 ∉ opt.packageVersion

theorem not_mem_decimal {c : UInt8} (hc : isdigit c = false) {n : Nat} : c ∉ decimal n := by
  intro h
  rw [decimal_digits n c h] at hc
  cases hc

theorem varsBefore_plain (htexts : PlainTexts opt) :
    ∀ v ∈ varsBefore opt, v.1 ∈ [ascii "IV_VER", ascii "IV_PLAT", ascii "IV_TCPNL",
      ascii "IV_MTU", ascii "IV_NCP"] ∧ 61 ∉ v.2 := by
  intro v hv
  simp only [varsBefore, mem_append] at hv
  rcases hv with (hv | hv) | hv
  · split at hv
    · rcases mem_cons.mp hv with rfl | hv
      · exact ⟨by simp, htexts.version⟩
      · rcases mem_cons.mp hv with rfl | hv
        · exact ⟨by simp, by decide⟩
        · rw [mem_singleton.mp hv]
          exact ⟨by simp, by decide⟩
    · exact absurd hv not_mem_nil
  · split at hv
    · rw [mem_singleton.mp hv]
      exact ⟨by simp, not_mem_decimal (by decide)⟩
    · exact absurd hv not_mem_nil
  · split at hv
    · rw [mem_singleton.mp hv]
      exact ⟨by simp, by decide⟩
    · exact absurd hv not_mem_nil

theorem varsBefore_notFound (htexts : PlainTexts opt) :
    NotFound (ascii "IV_CIPHERS") (varsBefore opt) ∧
      NotFound (ascii "IV_PROTO")
        (varsBefore opt ++ [(ascii "IV_CIPHERS", opt.configNcpCiphers)]) := by
  have hnm : ∀ n ∈ [ascii "IV_VER", ascii "IV_PLAT", ascii "IV_TCPNL", ascii "IV_MTU",
      ascii "IV_NCP"], 61 ∉ n ∧ ¬ascii "IV_CIPHERS" <:+ n ∧ ¬ascii "IV_PROTO" <:+ n := by
    decide
  constructor
  · intro v hv
    obtain ⟨hname, hvalue⟩ := varsBefore_plain htexts v hv
    exact ⟨(hnm _ hname).1, hvalue, (hnm _ hname).2.1⟩
  · intro v hv
    rcases mem_append.mp hv with hv | hv
    · obtain ⟨hname, hvalue⟩ := varsBefore_plain htexts v hv
      exact ⟨(hnm _ hname).1, hvalue, (hnm _ hname).2.2⟩
    · have hciphers : 61 ∉ ascii "IV_CIPHERS" ∧ ¬ascii "IV_PROTO" <:+ ascii "IV_CIPHERS" := by
        decide
      rw [mem_singleton.mp hv]
      exact ⟨hciphers.1, htexts.ciphers.1, hciphers.2⟩

theorem protoBits_lt {bits : List Nat} (h : ∀ b ∈ bits, b < 31) : protoBits bits < 2 ^ 31 := by
  apply Nat.lt_pow_two_of_testBit
  intro i hi
  rw [testBit_protoBits, decide_eq_false_iff_not]
  intro hmem
  have := h i hmem
  omega

theorem ivProtoBits_lt (opt : TlsOptions) : ∀ b ∈ ivProtoBits opt, b < 31 := by
  unfold ivProtoBits
  cases opt.pull <;> cases opt.modeServer <;> cases opt.dataEpochSupported <;>
    cases opt.haveExportKeyingMaterial <;> decide

section Session

variable {opt : TlsOptions} (hdetail : 0 < opt.pushPeerInfoDetail) (hfits : PeerInfoFits opt)
  (htexts : PlainTexts opt)

include hdetail hfits htexts

theorem pushPeerInfo_ciphers :
    extractVarPeerInfo (some (pushPeerInfo opt)) (ascii "IV_CIPHERS=") =
      some opt.configNcpCiphers := by
  obtain ⟨rest, hrest⟩ := pushPeerInfo_eq hdetail hfits
  have hread := extractVar_settings (by decide) htexts.ciphers.2 (varsBefore_notFound htexts).1
    (settingLine (ascii "IV_PROTO", decimal (protoBits (ivProtoBits opt))) ++ rest)
  rw [hrest, ← hread]
  simp [varsNegotiated]
  rfl

theorem pushPeerInfo_proto :
    extractIvProto (some (pushPeerInfo opt)) = protoBits (ivProtoBits opt) := by
  obtain ⟨rest, hrest⟩ := pushPeerInfo_eq hdetail hfits
  have hread := extractIvProto_settings (protoBits_lt (ivProtoBits_lt opt))
    (varsBefore_notFound htexts).2 rest
  rw [hrest, ← hread]
  simp [varsNegotiated]

end Session

end OpenVpn
