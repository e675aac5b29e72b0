import OpenVpn.Base.CString
import OpenVpn.Util.Buffer

/-!
# Lists of data channel ciphers

`--data-ciphers` is a colon-separated list. `mutate_ncp_cipher_list` turns it into the
canonical names of the ciphers the crypto library supports.

* `mutateNcpCipherList_eq_some_iff` — what becomes of every list: the joined names, if every
  cipher that is not optional is supported and the names have at most 124 characters.
* `cipher_list_normalised` — the result, and that it is a fixed point.
* `cipher_list_length_iff` — the length of the lists that are accepted.
-/

namespace OpenVpn

open Base List Bool

/-- What the crypto library knows about cipher names. -/
structure CipherLib where
  cipherValid : Bytes → Bool
  cipherKtModeAead : Bytes → Bool
  cipherKtModeCbc : Bytes → Bool
  cipherKtModeOfbCfb : Bytes → Bool
  cipherKtName : Bytes → Bytes

def MAX_NCP_CIPHERS_LENGTH : Nat := 127

def noneCipher : Bytes := ascii "none"

/-- The variables of `mutate_ncp_cipher_list`. -/
structure MutateState where
  newList : Buffer
  errorFound : Bool

/-- A token is a cipher, with a question mark before it if it is optional. -/
def tokenOptional (token : Bytes) : Bool := token.head? = some 63

def tokenCipher (token : Bytes) : Bytes := if tokenOptional token then token.tail else token

def putSeparator (newList : Buffer) : Buffer :=
  if 0 < newList.contents.length then bufPuts newList [58] else newList

/-- The name of a cipher is written behind those already in the list. -/
def mutateName (s : MutateState) (name : Bytes) : MutateState :=
  if ¬name.length + 2 < bufForwardCapacity (putSeparator s.newList) then
    { newList := putSeparator s.newList, errorFound := true }
  else { s with newList := bufPuts (putSeparator s.newList) name }

section Mutate

variable (lib : CipherLib)

/-- One round of the loop of `mutate_ncp_cipher_list`. -/
def mutateToken (s : MutateState) (token : Bytes) : MutateState :=
  let cipher := tokenCipher token
  let nonecipher : Bool := cipher = noneCipher
  if !nonecipher && !lib.cipherValid cipher then
    { s with errorFound := s.errorFound || !tokenOptional token }
  else if !nonecipher && !lib.cipherKtModeAead cipher && !lib.cipherKtModeCbc cipher &&
      !lib.cipherKtModeOfbCfb cipher then
    { s with errorFound := s.errorFound || !tokenOptional token }
  else mutateName s (if nonecipher then noneCipher else lib.cipherKtName cipher)

theorem newList_fits : 0 + ([] : Bytes).length ≤ MAX_NCP_CIPHERS_LENGTH := by decide

/-- `mutate_ncp_cipher_list`; the result is NULL on an error and for an empty list. -/
def mutateNcpCipherList (list : Bytes) : Option Bytes :=
  let s := (strtok 58 list).foldl (mutateToken lib)
    ⟨⟨MAX_NCP_CIPHERS_LENGTH, 0, [], newList_fits⟩, false⟩
  if !s.errorFound ∧ 0 < s.newList.contents.length then some s.newList.contents else none

def tlsItemInCipherList (item list : Bytes) : Bool := decide (item ∈ strtok 58 list)

/-! ## The abstract list -/

/-- The ciphers that can be negotiated: `none`, and those of a mode the data channel has. -/
def CipherLib.supported (cipher : Bytes) : Bool :=
  decide (cipher = noneCipher) || (lib.cipherValid cipher && (lib.cipherKtModeAead cipher ||
    lib.cipherKtModeCbc cipher || lib.cipherKtModeOfbCfb cipher))

def CipherLib.canonical (cipher : Bytes) : Bytes :=
  if cipher = noneCipher then noneCipher else lib.cipherKtName cipher

/-- The canonical names of the supported ciphers among some tokens. -/
def CipherLib.names (tokens : List Bytes) : List Bytes :=
  ((tokens.map tokenCipher).filter lib.supported).map lib.canonical

/-- Every cipher that is not optional is supported. -/
def CipherLib.Accepts (tokens : List Bytes) : Prop :=
  ∀ t ∈ tokens, tokenOptional t = false → lib.supported (tokenCipher t) = true

def cipherText (names : List Bytes) : Bytes := joinText 58 id names

end Mutate

/-! ## One round of the loop -/

variable {s : MutateState}

section Round

variable {lib : CipherLib}

theorem mutateToken_unsupported {token : Bytes} (h : lib.supported (tokenCipher token) = false) :
    mutateToken lib s token = { s with errorFound := s.errorFound || !tokenOptional token } := by
  simp only [CipherLib.supported, or_eq_false_iff, decide_eq_false_iff_not,
    and_eq_false_iff] at h
  obtain ⟨hnone, hval | ⟨⟨haead, hcbc⟩, hcfb⟩⟩ := h
  · simp [mutateToken, hnone, hval]
  · simp [mutateToken, hnone, haead, hcbc, hcfb]

theorem mutateToken_supported (s : MutateState) {token : Bytes}
    (h : lib.supported (tokenCipher token) = true) :
    mutateToken lib s token = mutateName s (lib.canonical (tokenCipher token)) := by
  simp only [CipherLib.supported, or_eq_true, and_eq_true, decide_eq_true_eq] at h
  rcases h with hnone | ⟨hval, (haead | hcbc) | hcfb⟩
  · simp [mutateToken, CipherLib.canonical, hnone]
  · simp [mutateToken, CipherLib.canonical, hval, haead]
  · simp [mutateToken, CipherLib.canonical, hval, hcbc]
  · simp [mutateToken, CipherLib.canonical, hval, hcfb]

theorem mutateName_errorFound (h : s.errorFound = true) (name : Bytes) :
    (mutateName s name).errorFound = true := by
  unfold mutateName
  split
  · rfl
  · exact h

theorem putSeparator_window {newList : Buffer} :
    (putSeparator newList).capacity = newList.capacity ∧
      (putSeparator newList).offset = newList.offset := by
  unfold putSeparator
  split <;> exact ⟨rfl, rfl⟩

theorem mutateName_window {name : Bytes} :
    (mutateName s name).newList.capacity = s.newList.capacity ∧
      (mutateName s name).newList.offset = s.newList.offset := by
  unfold mutateName
  split <;> exact putSeparator_window

end Round

/-! ## The whole loop -/

theorem cipherText_concat (names : List Bytes) (name : Bytes) :
    cipherText (names ++ [name]) = if names = [] then name else cipherText names ++ 58 :: name :=
  joinText_concat names name

variable {names : List Bytes}

theorem cipherText_eq_nil_iff (hne : ∀ n ∈ names, n ≠ []) : cipherText names = [] ↔ names = [] := by
  refine ⟨fun h => ?_, fun h => h ▸ rfl⟩
  cases names with
  | nil => rfl
  | cons n names =>
    cases names with
    | nil => exact absurd (by simpa [cipherText, joinText] using h) (hne n mem_cons_self)
    | cons m names => simp [cipherText, joinText_cons_cons] at h

section Name

variable (hcap : s.newList.capacity = MAX_NCP_CIPHERS_LENGTH) (hoff : s.newList.offset = 0)
  (hs : s.newList.contents = cipherText names) (hne : ∀ n ∈ names, n ≠ [])
  (hlen : (cipherText names).length ≤ 124) (name : Bytes)

include hcap hoff hs hne hlen

theorem putSeparator_contents :
    (putSeparator s.newList).contents ++ name = cipherText (names ++ [name]) := by
  rw [cipherText_concat]
  unfold putSeparator
  by_cases hnm : names = []
  · subst hnm
    have hemp : s.newList.contents = [] := hs
    rw [hemp, if_neg (by decide), if_pos rfl, hemp, nil_append]
  · have hpos : 0 < s.newList.contents.length := by
      rw [hs]
      exact length_pos_iff.mpr (mt (cipherText_eq_nil_iff hne).mp hnm)
    have hsep : (bufPuts s.newList [58]).contents = s.newList.contents ++ [58] := by
      apply bufPrintf_contents
      rw [bufForwardCapacity, hcap, hoff, hs, MAX_NCP_CIPHERS_LENGTH, length_singleton]
      omega
    rw [if_pos hpos, if_neg hnm, hsep, hs, append_assoc, singleton_append]

theorem mutateName_accepted :
    if (cipherText (names ++ [name])).length ≤ 124 then
      (mutateName s name).errorFound = s.errorFound ∧
        (mutateName s name).newList.contents = cipherText (names ++ [name])
    else (mutateName s name).errorFound = true := by
  have hcont := putSeparator_contents hcap hoff hs hne hlen name
  have hlg : (putSeparator s.newList).contents.length + name.length =
      (cipherText (names ++ [name])).length := by
    rw [← hcont, length_append]
  obtain ⟨hcap', hoff'⟩ := putSeparator_window
  have hroom : bufForwardCapacity (putSeparator s.newList) =
      127 - (putSeparator s.newList).contents.length := by
    rw [bufForwardCapacity, hcap', hoff', hcap, hoff, MAX_NCP_CIPHERS_LENGTH, Nat.zero_add]
  unfold mutateName
  split
  case isTrue hfits =>
    rw [if_neg (by omega)]
    refine ⟨rfl, ?_⟩
    show (bufPrintf (putSeparator s.newList) name).contents = _
    rw [bufPrintf_contents (by omega), hcont]
  case isFalse hlong => rw [if_pos (by omega)]

end Name

/-- What the loop knows after some tokens. -/
structure Mutated (lib : CipherLib) (tokens : List Bytes) (s : MutateState) : Prop where
  capacity : s.newList.capacity = MAX_NCP_CIPHERS_LENGTH
  offset : s.newList.offset = 0
  kept : s.errorFound = false → lib.Accepts tokens ∧
    s.newList.contents = cipherText (lib.names tokens) ∧
      (cipherText (lib.names tokens)).length ≤ 124
  failed : s.errorFound = true →
    ¬lib.Accepts tokens ∨ 124 < (cipherText (lib.names tokens)).length

section Loop

variable {lib : CipherLib}

variable {tokens : List Bytes} {t : Bytes}

theorem names_concat_supported (h : lib.supported (tokenCipher t) = true) :
    lib.names (tokens ++ [t]) = lib.names tokens ++ [lib.canonical (tokenCipher t)] := by
  simp [CipherLib.names, h]

theorem names_concat_unsupported (h : lib.supported (tokenCipher t) = false) :
    lib.names (tokens ++ [t]) = lib.names tokens := by
  simp [CipherLib.names, h]

theorem accepts_concat :
    lib.Accepts (tokens ++ [t]) ↔ lib.Accepts tokens ∧
      (tokenOptional t = false → lib.supported (tokenCipher t) = true) := by
  simp [CipherLib.Accepts, or_imp, forall_and]

theorem cipherText_le_concat (names : List Bytes) (name : Bytes) :
    (cipherText names).length ≤ (cipherText (names ++ [name])).length := by
  rw [cipherText_concat]
  split
  · next h => simp [h, cipherText, joinText]
  · rw [length_append]
    omega

variable (hnonempty : ∀ c, lib.supported c = true → lib.canonical c ≠ [])

include hnonempty

theorem names_nonempty (tokens : List Bytes) : ∀ n ∈ lib.names tokens, n ≠ [] := by
  intro n hn
  obtain ⟨c, hc, rfl⟩ := mem_map.mp hn
  exact hnonempty c (mem_filter.mp hc).2

/-- **One token.** Its canonical name joins the list, or the list is refused. -/
theorem Mutated.token (h : Mutated lib tokens s) (t : Bytes) :
    Mutated lib (tokens ++ [t]) (mutateToken lib s t) := by
  by_cases hsup : lib.supported (tokenCipher t) = true
  · obtain ⟨hcap, hoff⟩ := mutateName_window
    have haccepts : lib.Accepts (tokens ++ [t]) ↔ lib.Accepts tokens := by
      simp [accepts_concat, hsup]
    have hlonger := cipherText_le_concat (lib.names tokens) (lib.canonical (tokenCipher t))
    rw [mutateToken_supported s hsup]
    cases herr : s.errorFound with
    | true =>
      have herr' := mutateName_errorFound herr (lib.canonical (tokenCipher t))
      refine ⟨hcap.trans h.capacity, hoff.trans h.offset, ?_, ?_⟩
      · intro hno
        rw [herr'] at hno
        cases hno
      · intro _
        rw [haccepts, names_concat_supported hsup]
        rcases h.failed herr with hfail | hlong
        · exact .inl hfail
        · exact .inr (by omega)
    | false =>
      obtain ⟨hacc, hcont, hlen⟩ := h.kept herr
      have hname := mutateName_accepted h.capacity h.offset hcont
        (names_nonempty hnonempty tokens) hlen (lib.canonical (tokenCipher t))
      rw [herr] at hname
      refine ⟨hcap.trans h.capacity, hoff.trans h.offset, ?_, ?_⟩
      · intro hno
        rw [haccepts, names_concat_supported hsup]
        split at hname
        case isTrue hfits => exact ⟨hacc, hname.2, hfits⟩
        case isFalse =>
          rw [hname] at hno
          cases hno
      · intro hyes
        rw [names_concat_supported hsup]
        split at hname
        case isTrue =>
          rw [hname.1] at hyes
          cases hyes
        case isFalse hlong => exact .inr (by omega)
  · rw [not_eq_true] at hsup
    rw [mutateToken_unsupported hsup]
    refine ⟨h.capacity, h.offset, ?_, ?_⟩
    · intro hno
      rw [or_eq_false_iff, not_eq_false'] at hno
      obtain ⟨hacc, hcont, hlen⟩ := h.kept hno.1
      rw [accepts_concat, names_concat_unsupported hsup]
      exact ⟨⟨hacc, by simp [hno.2]⟩, hcont, hlen⟩
    · intro hyes
      rw [or_eq_true, not_eq_true'] at hyes
      rw [accepts_concat, names_concat_unsupported hsup]
      rcases hyes with herr | hrequired
      · rcases h.failed herr with hfail | hlong
        · exact .inl fun hacc => hfail hacc.1
        · exact .inr hlong
      · exact .inl fun hacc => absurd (hacc.2 hrequired) (by simp [hsup])

theorem mutated_foldl (tokens : List Bytes) :
    Mutated lib tokens (tokens.foldl (mutateToken lib)
      ⟨⟨MAX_NCP_CIPHERS_LENGTH, 0, [], newList_fits⟩, false⟩) := by
  induction tokens using reverseRecOn with
  | nil =>
    have hacc : lib.Accepts [] := fun t ht => absurd ht not_mem_nil
    exact ⟨rfl, rfl, fun _ => ⟨hacc, rfl, Nat.zero_le _⟩, fun h => by cases h⟩
  | append_singleton tokens t ih =>
    rw [foldl_append]
    exact ih.token hnonempty t

/-- **The exact result.** A list is accepted if every cipher that is not optional is
supported, some cipher is, and the joined names have at most 124 characters: three
bytes of the buffer are never used. -/
theorem mutateNcpCipherList_eq_some_iff (list out : Bytes) :
    mutateNcpCipherList lib list = some out ↔
      lib.Accepts (strtok 58 list) ∧ lib.names (strtok 58 list) ≠ [] ∧
        (cipherText (lib.names (strtok 58 list))).length ≤ 124 ∧
        out = cipherText (lib.names (strtok 58 list)) := by
  have hloop := mutated_foldl hnonempty (strtok 58 list)
  have hemp := cipherText_eq_nil_iff (names_nonempty hnonempty (strtok 58 list))
  unfold mutateNcpCipherList
  dsimp only
  generalize (strtok 58 list).foldl (mutateToken lib) _ = s at hloop ⊢
  cases herr : s.errorFound with
  | true =>
    refine ⟨fun h => by simp at h, fun h => ?_⟩
    rcases hloop.failed herr with hfail | hlong
    · exact absurd h.1 hfail
    · omega
  | false =>
    obtain ⟨hacc, hcont, hlen⟩ := hloop.kept herr
    have hpos : 0 < s.newList.contents.length ↔ lib.names (strtok 58 list) ≠ [] := by
      rw [hcont, length_pos_iff, ne_eq, hemp]
    by_cases hnm : lib.names (strtok 58 list) = []
    · simp [hpos, hnm]
    · rw [if_pos ⟨rfl, hpos.mpr hnm⟩, hcont, Option.some.injEq, eq_comm]
      exact ⟨fun h => ⟨hacc, hnm, hlen, h⟩, fun h => h.2.2.2⟩

end Loop

/-! ## Normal lists -/

/-- Canonical names are names of their own, and can stand in a list: they are not
empty, have no separator in them and no question mark before them. -/
structure CipherLib.Naming (lib : CipherLib) : Prop where
  idempotent : ∀ c, lib.supported c = true → lib.canonical (lib.canonical c) = lib.canonical c
  preserves : ∀ c, lib.supported c = true → lib.supported (lib.canonical c) = true
  nonempty : ∀ c, lib.supported c = true → lib.canonical c ≠ []
  no_separator : ∀ c, lib.supported c = true → 58 ∉ lib.canonical c
  no_mark : ∀ c, lib.supported c = true → (lib.canonical c).head? ≠ some 63

section Normal

variable {lib : CipherLib}

theorem tokenCipher_of_no_mark {token : Bytes} (h : token.head? ≠ some 63) :
    tokenCipher token = token := by
  simp [tokenCipher, tokenOptional, h]

theorem CipherLib.Naming.mem_names (h : lib.Naming) {tokens : List Bytes} {n : Bytes}
    (hn : n ∈ lib.names tokens) : lib.supported n = true ∧ lib.canonical n = n ∧ n ≠ [] ∧
      58 ∉ n ∧ tokenCipher n = n := by
  obtain ⟨c, hc, rfl⟩ := mem_map.mp hn
  have hsup : lib.supported c = true := (mem_filter.mp hc).2
  exact ⟨h.preserves c hsup, h.idempotent c hsup, h.nonempty c hsup, h.no_separator c hsup,
    tokenCipher_of_no_mark (h.no_mark c hsup)⟩

theorem CipherLib.Naming.names_names (h : lib.Naming) (tokens : List Bytes) :
    lib.names (lib.names tokens) = lib.names tokens := by
  have hciph : (lib.names tokens).map tokenCipher = lib.names tokens :=
    (map_congr_left fun n hn => (h.mem_names hn).2.2.2.2).trans (map_id _)
  have hkept : (lib.names tokens).filter lib.supported = lib.names tokens :=
    filter_eq_self.mpr fun n hn => (h.mem_names hn).1
  have hcanonical : (lib.names tokens).map lib.canonical = lib.names tokens :=
    (map_congr_left fun n hn => (h.mem_names hn).2.1).trans (map_id _)
  rw [show lib.names (lib.names tokens) =
    (((lib.names tokens).map tokenCipher).filter lib.supported).map lib.canonical from rfl,
    hciph, hkept, hcanonical]

theorem CipherLib.Naming.strtok_names (h : lib.Naming) (tokens : List Bytes) :
    strtok 58 (cipherText (lib.names tokens)) = lib.names tokens :=
  strtok_joinText (fun _ hn => (h.mem_names hn).2.2.1) (fun _ hn => (h.mem_names hn).2.2.2.1)

/-- **Normalisation.** An accepted list is replaced by the canonical names of its
supported ciphers, a fixed point of at most 124 characters; a cipher that is neither
supported nor optional makes the list unacceptable. -/
theorem cipher_list_normalised (lib : CipherLib) (hnaming : lib.Naming) (list : Bytes) :
    (∀ out, mutateNcpCipherList lib list = some out →
      out = cipherText (lib.names (strtok 58 list)) ∧
      (∀ t ∈ strtok 58 list, tokenOptional t = false → lib.supported (tokenCipher t) = true) ∧
      out ≠ [] ∧ out.length ≤ 124 ∧ mutateNcpCipherList lib out = some out) ∧
    (∀ t ∈ strtok 58 list, tokenOptional t = false → lib.supported (tokenCipher t) = false →
      mutateNcpCipherList lib list = none) := by
  have hexact := mutateNcpCipherList_eq_some_iff hnaming.nonempty
  constructor
  · intro out hout
    obtain ⟨haccepts, hnames, hlen, rfl⟩ := (hexact list out).mp hout
    have hnonempty := mt (cipherText_eq_nil_iff (names_nonempty hnaming.nonempty _)).mp hnames
    refine ⟨rfl, haccepts, hnonempty, hlen, ?_⟩
    rw [hexact, hnaming.strtok_names, hnaming.names_names]
    refine ⟨?_, hnames, hlen, rfl⟩
    intro n hn _
    obtain ⟨hsup, -, -, -, hcipher⟩ := hnaming.mem_names hn
    rw [hcipher]
    exact hsup
  · intro t ht hrequired hsup
    rw [Option.eq_none_iff_forall_ne_some]
    intro out hout
    have haccepts := ((hexact list out).mp hout).1
    rw [haccepts t ht hrequired] at hsup
    cases hsup

/-- A library with the three default ciphers. -/
def defaultLib : CipherLib where
  cipherValid c := decide (c ∈ [ascii "AES-256-GCM", ascii "AES-128-GCM",
    ascii "CHACHA20-POLY1305"])
  cipherKtModeAead _ := true
  cipherKtModeCbc _ := false
  cipherKtModeOfbCfb _ := false
  cipherKtName c := c

theorem defaultLib_canonical (c : Bytes) : defaultLib.canonical c = c := by
  unfold CipherLib.canonical
  split
  · next h => exact h.symm
  · rfl

theorem defaultLib_supported {c : Bytes} (h : defaultLib.supported c = true) :
    c ∈ [noneCipher, ascii "AES-256-GCM", ascii "AES-128-GCM", ascii "CHACHA20-POLY1305"] := by
  simpa [CipherLib.supported, defaultLib] using h

theorem defaultLib_naming : defaultLib.Naming := by
  have hnm : ∀ c ∈ [noneCipher, ascii "AES-256-GCM", ascii "AES-128-GCM",
      ascii "CHACHA20-POLY1305"], c ≠ [] ∧ 58 ∉ c ∧ c.head? ≠ some 63 := by decide
  refine ⟨fun c _ => ?_, fun c h => ?_, fun c h => ?_, fun c h => ?_, fun c h => ?_⟩
  · rw [defaultLib_canonical]
  · rw [defaultLib_canonical]
    exact h
  · rw [defaultLib_canonical]
    exact (hnm c (defaultLib_supported h)).1
  · rw [defaultLib_canonical]
    exact (hnm c (defaultLib_supported h)).2.1
  · rw [defaultLib_canonical]
    exact (hnm c (defaultLib_supported h)).2.2

/-- An optional cipher that the library does not know is left out. -/
theorem cipher_list_normalised_optional :
    mutateNcpCipherList defaultLib (ascii "AES-256-GCM:?AES-192-GCM:?none") =
        some (ascii "AES-256-GCM:none") ∧
      mutateNcpCipherList defaultLib (ascii "AES-256-GCM:none") =
        some (ascii "AES-256-GCM:none") := by
  refine (and_iff_left_of_imp fun hfirst => ?_).mpr (by decide +kernel)
  exact ((cipher_list_normalised defaultLib defaultLib_naming _).1 _ hfirst).2.2.2.2

/-- A library in which every cipher has the name `a:b`. -/
def colonLib : CipherLib where
  cipherValid _ := true
  cipherKtModeAead _ := true
  cipherKtModeCbc _ := false
  cipherKtModeOfbCfb _ := false
  cipherKtName _ := ascii "a:b"

/-- A name with a separator in it is two names when it is read again. -/
theorem separator_in_name_splits :
    colonLib.cipherKtName (colonLib.cipherKtName (ascii "x")) = colonLib.cipherKtName (ascii "x") ∧
      colonLib.supported (colonLib.cipherKtName (ascii "x")) = true ∧
      mutateNcpCipherList colonLib (ascii "x") = some (ascii "a:b") ∧
      mutateNcpCipherList colonLib (ascii "a:b") = some (ascii "a:b:a:b") := by
  decide +kernel

/-! ## The limit -/

/-- The canonical form of a list of supported ciphers. -/
def canonicalForm (lib : CipherLib) (list : Bytes) : Bytes :=
  cipherText ((strtok 58 list).map fun t => lib.canonical (tokenCipher t))

/-- **Length limit.** A list of supported ciphers is accepted if and only if its
canonical form has at most 124 characters. -/
theorem cipher_list_length_iff (lib : CipherLib)
    (hnonempty : ∀ c, lib.supported c = true → lib.canonical c ≠ []) (list : Bytes)
    (htokens : strtok 58 list ≠ [])
    (hsupported : ∀ t ∈ strtok 58 list, lib.supported (tokenCipher t) = true) :
    (mutateNcpCipherList lib list).isSome ↔ (canonicalForm lib list).length ≤ 124 := by
  have hkept : ((strtok 58 list).map tokenCipher).filter lib.supported =
      (strtok 58 list).map tokenCipher := by
    rw [filter_eq_self]
    intro c hc
    obtain ⟨t, ht, rfl⟩ := mem_map.mp hc
    exact hsupported t ht
  have hnames : lib.names (strtok 58 list) =
      (strtok 58 list).map fun t => lib.canonical (tokenCipher t) := by
    rw [CipherLib.names, hkept, map_map]
    rfl
  have hexact := mutateNcpCipherList_eq_some_iff hnonempty list
  rw [hnames] at hexact
  rw [Option.isSome_iff_exists]
  constructor
  · intro hout
    obtain ⟨out, hout⟩ := hout
    exact ((hexact out).mp hout).2.2.1
  · intro hlen
    exact ⟨canonicalForm lib list,
      (hexact _).mpr ⟨fun t ht _ => hsupported t ht, by simpa using htokens, hlen, rfl⟩⟩

theorem cipher_list_length_none : (mutateNcpCipherList defaultLib noneCipher).isSome :=
  (cipher_list_length_iff defaultLib defaultLib_naming.nonempty noneCipher (by decide)
    (by decide)).mpr (by decide)

/-- Nine times `AES-256-GCM:` and `CHACHA20-POLY1305`. -/
def tenCiphers : Bytes :=
  (replicate 9 (ascii "AES-256-GCM:")).flatten ++ ascii "CHACHA20-POLY1305"

/-- A list of 125 characters is rejected. -/
theorem list_of_125_rejected :
    ((strtok 58 tenCiphers).all fun t => defaultLib.supported (tokenCipher t)) = true ∧
      (canonicalForm defaultLib tenCiphers).length = 125 ∧
      mutateNcpCipherList defaultLib tenCiphers = none := by
  decide +kernel

end Normal

end OpenVpn
