import OpenVpn.Ncp.CipherList

/-!
# The word DEFAULT in a list of ciphers

`--data-ciphers` may name the default ciphers by the word `DEFAULT`. Whether the word
is there is decided by tokens, but the text that is replaced is searched for as a
substring.

* `replaceDefault_eq_iff` — the right field is replaced if and only if no field before
  it contains the word.
* `default_expanded_iff` — the same for the whole option.
-/

namespace OpenVpn

open Base List

/-- The list that is used, and the one the user wrote. -/
structure NcpOptions where
  ncpCiphers : Bytes
  ncpCiphersConf : Bytes
  deriving DecidableEq

def defaultWord : Bytes := ascii "DEFAULT"

/-- `replace_default_in_ncp_ciphers_option`; there is no result if the word is missing. -/
def replaceDefaultInNcpCiphersOption (ncpCiphers replace : Bytes) : Option Bytes :=
  (strstr defaultWord ncpCiphers).map fun pos =>
    ncpCiphers.take pos ++ (replace ++ ncpCiphers.drop (pos + defaultWord.length))

/-- The default ciphers; `dco` are the ciphers of the kernel module if it is in use. -/
def defaultCiphers (lib : CipherLib) (dco : Option Bytes) : Bytes :=
  if lib.cipherValid (ascii "CHACHA20-POLY1305") ∧
      dco.all (tlsItemInCipherList (ascii "CHACHA20-POLY1305")) then
    ascii "AES-256-GCM:AES-128-GCM:CHACHA20-POLY1305"
  else ascii "AES-256-GCM:AES-128-GCM"

def optionsPostprocessSetdefaultNcpciphers (lib : CipherLib) (dco ncpCiphers : Option Bytes) :
    Option NcpOptions :=
  match ncpCiphers with
  | none => some ⟨defaultCiphers lib dco, defaultWord⟩
  | some list =>
    if defaultCiphers lib dco = list then some ⟨defaultCiphers lib dco, defaultWord⟩
    else if !tlsItemInCipherList defaultWord list then some ⟨list, list⟩
    else
      (replaceDefaultInNcpCiphersOption list (defaultCiphers lib dco)).map fun ncpCiphers =>
        ⟨ncpCiphers, list⟩

/-! ## The abstract expansion -/

/-- The first field `a` is replaced by `b`. -/
def replaceFirst (a b : Bytes) : List Bytes → List Bytes
  | [] => []
  | f :: fs => if f = a then b :: fs else f :: replaceFirst a b fs

/-- The list with the first field `DEFAULT` replaced. -/
def expandDefault (default list : Bytes) : Bytes :=
  cipherText (replaceFirst defaultWord default (strsep 58 list))

/-- The fields before the first field `DEFAULT`. -/
def fieldsBefore (fs : List Bytes) : List Bytes := fs.takeWhile fun f => decide (f ≠ defaultWord)

/-! ## The substring that is replaced -/

theorem cipherText_strsep (list : Bytes) : cipherText (strsep 58 list) = list := by
  rw [cipherText, joinText, map_id]
  exact intercalate_splitOn 58

theorem replaceDefault_field {f : Bytes} (hno : ¬defaultWord <:+: f) (rest replace : Bytes) :
    replaceDefaultInNcpCiphersOption (f ++ 58 :: rest) replace =
      (replaceDefaultInNcpCiphersOption rest replace).map fun text => f ++ 58 :: text := by
  have hcut : ∀ n, (f ++ 58 :: rest).take (n + (f.length + 1)) = f ++ 58 :: rest.take n ∧
      (f ++ 58 :: rest).drop (n + (f.length + 1)) = rest.drop n := by
    intro n
    have hspl : f ++ 58 :: rest = (f ++ [58]) ++ rest := by simp
    have hlen : n + (f.length + 1) = (f ++ [58]).length + n := by simp; omega
    rw [hspl, hlen, take_length_add_append, drop_length_add_append]
    simp
  unfold replaceDefaultInNcpCiphersOption
  rw [strstr_field (by decide) hno, Option.map_map, Option.map_map]
  congr 1
  funext n
  have hdrop : n + (f.length + 1) + defaultWord.length =
      n + defaultWord.length + (f.length + 1) := by omega
  simp only [Function.comp_apply, hdrop, (hcut _).1, (hcut _).2, append_assoc, cons_append]

theorem replaceDefault_hidden {f replace : Bytes} (h : defaultWord <:+: f) (rest rest' : Bytes)
    (hne : replace ≠ []) (hhead : replace.head? ≠ some 68) :
    replaceDefaultInNcpCiphersOption (f ++ rest) replace ≠ some (f ++ rest') := by
  obtain ⟨i, hi, hle⟩ := strstr_infix h rest
  have hlen : defaultWord.length = 7 := rfl
  -- the word stands at `i`, where the replacement is put
  obtain ⟨c, g, hg⟩ : ∃ c g, f.drop i = c :: g :=
    exists_cons_of_ne_nil (by rw [ne_eq, drop_eq_nil_iff]; omega)
  have hword := strstr_eq_some hi
  rw [drop_append_of_le_length (by omega), hg, cons_append] at hword
  have hc : c = 68 := (cons_prefix_cons.mp hword).1.symm
  intro heq
  unfold replaceDefaultInNcpCiphersOption at heq
  rw [hi, Option.map_some, Option.some.injEq, take_append_of_le_length (by omega)] at heq
  have hspl : f ++ rest' = f.take i ++ (c :: g ++ rest') := by
    rw [← hg, ← append_assoc, take_append_drop]
  rw [hspl, append_cancel_left_eq] at heq
  obtain ⟨b, replace, rfl⟩ := exists_cons_of_ne_nil hne
  rw [cons_append, cons_append, cons.injEq] at heq
  exact hhead (by rw [head?_cons, heq.1, hc])

theorem cipherText_cons (f : Bytes) (fs : List Bytes) :
    cipherText (f :: fs) = f ++ (if fs = [] then [] else 58 :: cipherText fs) := by
  cases fs with
  | nil => simp [cipherText, joinText]
  | cons g fs =>
    rw [if_neg (cons_ne_nil g fs)]
    exact joinText_cons_cons f g fs

theorem replaceFirst_ne_nil {a b : Bytes} {fs : List Bytes} (h : fs ≠ []) :
    replaceFirst a b fs ≠ [] := by
  obtain ⟨f, fs, rfl⟩ := exists_cons_of_ne_nil h
  rw [replaceFirst]
  split <;> exact cons_ne_nil _ _

/-- The word is replaced unless a field before it contains it. -/
theorem replaceDefault_eq_iff {replace : Bytes} (hne : replace ≠ [])
    (hhead : replace.head? ≠ some 68) {fs : List Bytes} (hmem : defaultWord ∈ fs) :
    replaceDefaultInNcpCiphersOption (cipherText fs) replace =
        some (cipherText (replaceFirst defaultWord replace fs)) ↔
      ∀ f ∈ fieldsBefore fs, ¬defaultWord <:+: f := by
  induction fs with
  | nil => exact absurd hmem not_mem_nil
  | cons f fs ih =>
    by_cases hf : f = defaultWord
    · subst hf
      have hbef : fieldsBefore (defaultWord :: fs) = [] := by simp [fieldsBefore]
      have hpos : ∀ rest, strstr defaultWord (defaultWord ++ rest) = some 0 := fun rest =>
        strstr_zero (prefix_append _ _)
      rw [hbef, replaceFirst, if_pos rfl, cipherText_cons, cipherText_cons,
        replaceDefaultInNcpCiphersOption, hpos]
      simp
    · have hfs : defaultWord ∈ fs := (mem_cons.mp hmem).resolve_left (Ne.symm hf)
      have hfs_ne : fs ≠ [] := ne_nil_of_mem hfs
      have hbef : fieldsBefore (f :: fs) = f :: fieldsBefore fs := by
        simp [fieldsBefore, hf]
      rw [hbef, forall_mem_cons, replaceFirst, if_neg hf, cipherText_cons,
        cipherText_cons, if_neg hfs_ne, if_neg (replaceFirst_ne_nil hfs_ne)]
      by_cases hhidden : defaultWord <:+: f
      · exact ⟨fun h => absurd h (replaceDefault_hidden hhidden _ _ hne hhead),
          fun h => absurd hhidden h.1⟩
      · rw [replaceDefault_field hhidden, ← ih hfs]
        constructor
        · intro h
          obtain ⟨text, htext, heq⟩ := Option.map_eq_some_iff.mp h
          rw [append_cancel_left_eq, cons.injEq] at heq
          exact ⟨hhidden, heq.2 ▸ htext⟩
        · intro h
          rw [h.2]
          rfl

/-! ## The option -/

theorem defaultCiphers_cases (lib : CipherLib) (dco : Option Bytes) :
    defaultCiphers lib dco = ascii "AES-256-GCM:AES-128-GCM:CHACHA20-POLY1305" ∨
      defaultCiphers lib dco = ascii "AES-256-GCM:AES-128-GCM" := by
  unfold defaultCiphers
  split
  · exact .inl rfl
  · exact .inr rfl

theorem defaultCiphers_plain (lib : CipherLib) (dco : Option Bytes) :
    defaultCiphers lib dco ≠ [] ∧ (defaultCiphers lib dco).head? ≠ some 68 ∧
      tlsItemInCipherList defaultWord (defaultCiphers lib dco) = false := by
  rcases defaultCiphers_cases lib dco with h | h
  · rw [h]
    decide +kernel
  · rw [h]
    decide +kernel

/-- **Expansion of DEFAULT.** A list with the word among its tokens gets its first such
token replaced if and only if no field before it contains the word; other lists are
unchanged. -/
theorem default_expanded_iff (lib : CipherLib) (dco : Option Bytes) (list : Bytes) :
    (tlsItemInCipherList defaultWord list = false →
      (optionsPostprocessSetdefaultNcpciphers lib dco (some list)).map NcpOptions.ncpCiphers =
        some list) ∧
    (tlsItemInCipherList defaultWord list = true →
      ((optionsPostprocessSetdefaultNcpciphers lib dco (some list)).map NcpOptions.ncpCiphers =
          some (expandDefault (defaultCiphers lib dco) list) ↔
        ∀ f ∈ fieldsBefore (strsep 58 list), ¬defaultWord <:+: f)) := by
  obtain ⟨hne, hhead, hplain⟩ := defaultCiphers_plain lib dco
  unfold optionsPostprocessSetdefaultNcpciphers
  constructor
  · intro hno
    dsimp only
    split
    case isTrue hdefault => rw [Option.map_some, hdefault]
    case isFalse => simp [hno]
  · intro hyes
    have hlist : defaultCiphers lib dco ≠ list := by
      intro h
      rw [h, hyes] at hplain
      cases hplain
    have hmem : defaultWord ∈ strsep 58 list :=
      (mem_strtok.mp (decide_eq_true_eq.mp hyes)).1
    have hiff := replaceDefault_eq_iff hne hhead hmem
    rw [cipherText_strsep] at hiff
    dsimp only
    rw [if_neg hlist, hyes, if_neg (by decide), Option.map_map, expandDefault, ← hiff]
    have hmap : (NcpOptions.ncpCiphers ∘ fun ncpCiphers => ⟨ncpCiphers, list⟩) = id := rfl
    rw [hmap, Option.map_id, id]

theorem default_expanded_first :
    (optionsPostprocessSetdefaultNcpciphers defaultLib none (some (ascii "DEFAULT:none"))).map
        NcpOptions.ncpCiphers =
      some (expandDefault (defaultCiphers defaultLib none) (ascii "DEFAULT:none")) :=
  ((default_expanded_iff defaultLib none (ascii "DEFAULT:none")).2 (by decide +kernel)).mpr
    (by decide +kernel)

/-- In this list the optional cipher before `DEFAULT` is replaced, and `DEFAULT` stays. -/
theorem default_inside_token_replaced :
    tlsItemInCipherList defaultWord (ascii "?MYDEFAULT:DEFAULT") = true ∧
      expandDefault (defaultCiphers defaultLib none) (ascii "?MYDEFAULT:DEFAULT") =
        ascii "?MYDEFAULT:AES-256-GCM:AES-128-GCM:CHACHA20-POLY1305" ∧
      optionsPostprocessSetdefaultNcpciphers defaultLib none (some (ascii "?MYDEFAULT:DEFAULT")) =
        some ⟨ascii "?MYAES-256-GCM:AES-128-GCM:CHACHA20-POLY1305:DEFAULT",
          ascii "?MYDEFAULT:DEFAULT"⟩ := by
  decide +kernel

end OpenVpn
