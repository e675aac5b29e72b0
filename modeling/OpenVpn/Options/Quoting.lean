import OpenVpn.Options.PullFilter

/-!
# Quoted and escaped parameters

`parse_line` as the inverse of writing parameters down. A parameter can be put in
quotes, or written without them with a backslash before the characters that would
end or open a parameter.

* `quotedLine`, `escapedLine` — the two ways to write a line.
* `parse_line_quoted` — every quoted line is read back.
* `parseLine_escaped` — what an escaped line is read as. Escaped blanks that stand
  first in a parameter are skipped like blanks between parameters.
* `parse_line_escaped_iff` — so the escaped lines that are read back are those in which
  no parameter begins with a blank.
-/

namespace OpenVpn

open Base List Nat

/-! ## Writing a line -/

inductive QuoteStyle
  | double
  | single
  deriving DecidableEq, Repr

def quoteChar (c : UInt8) : Bytes := if c = 92 ∨ c = 34 then [92, c] else [c]

def QuoteStyle.quote : QuoteStyle → Bytes → Bytes
  | .double, text => 34 :: (text.flatMap quoteChar ++ [34])
  | .single, text => 39 :: (text ++ [39])

/-- A parameter in quotes and the blanks before it. There is no escape for a single
quote within single quotes. -/
structure QuotedParm where
  blanks : Bytes
  style : QuoteStyle
  text : Bytes
  blanks_isspace : ∀ c ∈ blanks, isspace c = true
  text_string : 0 ∉ text
  quotable : style = .single → 39 ∉ text

/-- Quoted parameters, then the blanks `trail`. -/
def quotedLine (trail : Bytes) : List QuotedParm → Bytes
  | [] => trail
  | p :: ps => p.blanks ++ (p.style.quote p.text ++ quotedLine trail ps)

def escapeChar (c : UInt8) : Bytes := if c = 92 ∨ c = 34 ∨ isspace c then [92, c] else [c]

def escapeText (text : Bytes) : Bytes := text.flatMap escapeChar

/-- Escaped parameters with single blanks between them. -/
def escapedLine (args : List Bytes) : Bytes := joinText 32 escapeText args

/-- A parameter that can be written without quotes: a non-empty C string that does not
start a comment. -/
structure EscapableParm (a : Bytes) : Prop where
  nonempty : a ≠ []
  text_string : 0 ∉ a
  no_single_quote : 39 ∉ a
  first : ∀ c, a.head? = some c → c ≠ 35 ∧ c ≠ 59
  length : a.length ≤ 255

/-! ## Reading one character back -/

section Room

variable {n : Nat} {params : List Bytes} (hroom : params.length < n)

include hroom

theorem parseLoop_backslash {st : ParseState} (hst : st ≠ .readingSquotedParm) (parm rest : Bytes) :
    parseLoop n ⟨st, false, parm, params⟩ (92 :: rest) =
      parseLoop n ⟨st, true, parm, params⟩ rest := by
  have hchar : parseChar n ⟨st, false, parm, params⟩ 92 =
      .ok (⟨st, true, parm, params⟩, false) := by
    simp [parseChar, hst, hroom]
  rw [parseLoop, hchar]
  simp

/-- A character behind a backslash is stored. -/
theorem parseLoop_escape {st state : ParseState} {parm : Bytes} {c : UInt8}
    (hst : st ≠ .readingSquotedParm) (hnext : nextState st true c = some (state, c))
    (hdone : state ≠ .done) (hesc : c = 92 ∨ c = 34 ∨ isspace c = true) (hzero : c ≠ 0)
    (hlen : parm.length < OPTION_PARM_SIZE) (rest : Bytes) :
    parseLoop n ⟨st, false, parm, params⟩ ([92, c] ++ rest) =
      parseLoop n ⟨state, false, parm ++ [c], params⟩ rest := by
  have hspace : c = 92 ∨ c = 34 ∨ space c = true :=
    hesc.imp_right (Or.imp_right fun h => by simp [space, h])
  rw [cons_append, parseLoop_backslash hroom hst, singleton_append]
  exact parseLoop_store rest hnext hdone (fun h => by cases h.1) (fun _ => hspace) hzero hlen hroom

theorem parseLoop_skip {c : UInt8} (hc : isspace c = true) (backslash : Bool) (rest : Bytes) :
    parseLoop n ⟨.initial, backslash, [], params⟩ (c :: rest) =
      parseLoop n ⟨.initial, false, [], params⟩ rest := by
  have hsp : space c = true := by simp [space, hc]
  have hzero : c ≠ 0 := by
    rintro rfl
    exact absurd hc (by decide)
  rw [parseLoop, parseChar_blank hsp (isspace_ne_backslash hc)]
  simp only [decide_eq_true_eq, hzero, or_false, Nat.not_le.mpr hroom, if_false]

theorem parseLoop_blanks {blanks : Bytes} (h : ∀ c ∈ blanks, isspace c = true) (rest : Bytes) :
    parseLoop n ⟨.initial, false, [], params⟩ (blanks ++ rest) =
      parseLoop n ⟨.initial, false, [], params⟩ rest := by
  induction blanks with
  | nil => rfl
  | cons c blanks ih =>
    rw [cons_append, parseLoop_skip hroom (h c mem_cons_self)]
    exact ih fun c' hc' => h c' (mem_cons_of_mem c hc')

variable {parm : Bytes} {c : UInt8}

theorem parseLoop_quoteChar (hlen : parm.length < OPTION_PARM_SIZE) (hzero : c ≠ 0) (rest : Bytes) :
    parseLoop n ⟨.readingQuotedParm, false, parm, params⟩ (quoteChar c ++ rest) =
      parseLoop n ⟨.readingQuotedParm, false, parm ++ [c], params⟩ rest := by
  unfold quoteChar
  split
  case isTrue hc =>
    exact parseLoop_escape hroom (by decide) (by simp [nextState]) (by decide) (hc.imp_right .inl)
      hzero hlen rest
  case isFalse hc =>
    rw [not_or] at hc
    rw [singleton_append]
    exact parseLoop_store rest (by simp [nextState, hc.2]) (by decide) (fun h => hc.1 h.2.1)
      (fun h => by cases h) hzero hlen hroom

theorem parseLoop_squoted (hlen : parm.length < OPTION_PARM_SIZE) (hzero : c ≠ 0) (hquote : c ≠ 39)
    (rest : Bytes) :
    parseLoop n ⟨.readingSquotedParm, false, parm, params⟩ ([c] ++ rest) =
      parseLoop n ⟨.readingSquotedParm, false, parm ++ [c], params⟩ rest :=
  parseLoop_store rest (by simp [nextState, hquote]) (by decide) (fun h => h.2.2 rfl)
    (fun h => by cases h) hzero hlen hroom

theorem parseLoop_escapeChar (hlen : parm.length < OPTION_PARM_SIZE) (hzero : c ≠ 0)
    (rest : Bytes) :
    parseLoop n ⟨.readingUnquotedParm, false, parm, params⟩ (escapeChar c ++ rest) =
      parseLoop n ⟨.readingUnquotedParm, false, parm ++ [c], params⟩ rest := by
  unfold escapeChar
  split
  case isTrue hc =>
    exact parseLoop_escape hroom (by decide) (by simp [nextState]) (by decide) hc hzero hlen rest
  case isFalse hc =>
    simp only [not_or, Bool.not_eq_true] at hc
    exact parseLoop_unquoted hroom hlen (by simp [space, hzero, hc.2.2]) hc.1 rest

/-! ## Reading a quoted parameter -/

theorem parseLoop_quote (style : QuoteStyle) {text : Bytes} (htext : 0 ∉ text)
    (hquotable : style = .single → 39 ∉ text) (hlen : text.length ≤ OPTION_PARM_SIZE)
    (rest : Bytes) :
    parseLoop n ⟨.initial, false, [], params⟩ (style.quote text ++ rest) =
      if n ≤ params.length + 1 then .ok ⟨.initial, false, [], params ++ [text]⟩
      else parseLoop n ⟨.initial, false, [], params ++ [text]⟩ rest := by
  have hzero : ∀ c ∈ text, c ≠ 0 := fun c hc h => htext (h ▸ hc)
  cases style with
  | double =>
    have hopen : parseChar n ⟨.initial, false, [], params⟩ 34 =
        .ok (⟨.readingQuotedParm, false, [], params⟩, false) := by
      simp [parseChar, nextState, space, isspace, finishParm, storeChar, hroom]
    have hread := parseLoop_written (34 :: rest)
      (fun c hc parm tail hparm => parseLoop_quoteChar hroom hparm (hzero c hc) tail)
      (show ([] : Bytes).length + text.length ≤ _ by simpa using hlen)
    rw [QuoteStyle.quote, cons_append, parseLoop, hopen]
    simp only [Bool.false_eq_true, false_or]
    rw [if_neg (by decide), append_assoc, singleton_append, hread, nil_append,
      parseLoop_done rest (by simp [nextState]) (by decide)]
    simp
  | single =>
    have hopen : parseChar n ⟨.initial, false, [], params⟩ 39 =
        .ok (⟨.readingSquotedParm, false, [], params⟩, false) := by
      simp [parseChar, nextState, space, isspace, finishParm, storeChar, hroom]
    have hquote : ∀ c ∈ text, c ≠ 39 := fun c hc h => hquotable rfl (h ▸ hc)
    have hread := parseLoop_written (39 :: rest)
      (fun c hc parm tail hparm => parseLoop_squoted hroom hparm (hzero c hc) (hquote c hc) tail)
      (show ([] : Bytes).length + text.length ≤ _ by simpa using hlen)
    rw [flatMap_singleton'] at hread
    rw [QuoteStyle.quote, cons_append, parseLoop, hopen]
    simp only [Bool.false_eq_true, false_or]
    rw [if_neg (by decide), append_assoc, singleton_append, hread, nil_append,
      parseLoop_done rest (by simp [nextState]) (by decide)]
    simp

end Room

theorem parseLoop_quotedLine {n : Nat} {trail : Bytes} (htrail : ∀ c ∈ trail, isspace c = true)
    {ps : List QuotedParm} (hlen : ∀ p ∈ ps, p.text.length ≤ OPTION_PARM_SIZE)
    {params : List Bytes} (hn : params.length + ps.length ≤ n) :
    parseLoop n ⟨.initial, false, [], params⟩ (quotedLine trail ps ++ [0]) =
      .ok ⟨.initial, false, [], params ++ ps.map QuotedParm.text⟩ := by
  induction ps generalizing params with
  | nil =>
    rw [quotedLine, parseLoop_blank n params htrail, map_nil, append_nil]
  | cons p ps ih =>
    rw [length_cons] at hn
    have hroom : params.length < n := by omega
    rw [quotedLine, append_assoc, parseLoop_blanks hroom p.blanks_isspace, append_assoc,
      parseLoop_quote hroom p.style p.text_string p.quotable (hlen p mem_cons_self)]
    split
    case isTrue hfull =>
      -- the last parameter there is room for is the last one of the line
      have hps : ps = [] := eq_nil_of_length_eq_zero (by omega)
      rw [hps, map_singleton]
    case isFalse hmore =>
      rw [ih (fun q hq => hlen q (mem_cons_of_mem p hq))
        (by rw [length_append, length_singleton]; omega)]
      simp

/-- **Quoting round trip.** A line of at most `n` quoted parameters, with any blanks
before, between and after them, is read as these parameters. -/
theorem parse_line_quoted (n : Nat) (ps : List QuotedParm) (trail : Bytes)
    (htrail : ∀ c ∈ trail, isspace c = true) (hn : ps.length ≤ n)
    (hlen : ∀ p ∈ ps, p.text.length ≤ 255) :
    parseLine n (quotedLine trail ps) = .ok (ps.map QuotedParm.text) := by
  have hsize : ∀ p ∈ ps, p.text.length ≤ OPTION_PARM_SIZE := fun p hp =>
    (hlen p hp).trans (by decide)
  exact parseLine_of_loop (parseLoop_quotedLine htrail hsize (by simpa using hn))

theorem one_blank : ∀ c ∈ ([32] : Bytes), isspace c = true := forall_mem_singleton.mpr rfl

theorem quoted_pair_text : (0 : UInt8) ∉ ([97, 34, 32, 98] : Bytes) := by decide

theorem quoted_pair_quotable :
    QuoteStyle.double = .single → (39 : UInt8) ∉ ([97, 34, 32, 98] : Bytes) := by decide

/-- The parameter `a" b` in double quotes, after a blank. -/
def quotedPair : QuotedParm :=
  ⟨[32], .double, [97, 34, 32, 98], one_blank, quoted_pair_text, quoted_pair_quotable⟩

theorem parse_line_quoted_pair :
    parseLine 2 (quotedLine [32] [quotedPair, quotedPair]) =
      .ok [[97, 34, 32, 98], [97, 34, 32, 98]] :=
  parse_line_quoted 2 [quotedPair, quotedPair] [32] one_blank (by decide) (by simp [quotedPair])

/-! ## Reading an escaped parameter -/

/-- What an escaped line is read as: leading blanks of a parameter are lost, a
parameter made of blanks is lost altogether, and so is everything from a comment
character on that leading blanks hid. -/
def recoveredParms : List Bytes → List Bytes
  | [] => []
  | a :: args =>
    match a.dropWhile isspace with
    | [] => recoveredParms args
    | c :: w => if c = 59 ∨ c = 35 then [] else (c :: w) :: recoveredParms args

section Room

variable {n : Nat} {params : List Bytes} (hroom : params.length < n)

include hroom

theorem parseLoop_escaped_blanks (text rest : Bytes) :
    parseLoop n ⟨.initial, false, [], params⟩ (escapeText text ++ rest) =
      parseLoop n ⟨.initial, false, [], params⟩ (escapeText (text.dropWhile isspace) ++ rest) := by
  induction text with
  | nil => rfl
  | cons c text ih =>
    by_cases hc : isspace c = true
    · have hwritten : escapeText (c :: text) = 92 :: c :: escapeText text := by
        simp [escapeText, escapeChar, hc]
      rw [dropWhile_cons_of_pos hc, hwritten, cons_append, cons_append,
        parseLoop_backslash hroom (by decide), parseLoop_skip hroom hc]
      exact ih
    · rw [dropWhile_cons_of_neg hc]

theorem parseLoop_escaped_first {c : UInt8} (hzero : c ≠ 0) (hsp : isspace c = false)
    (hquote : c ≠ 39) (hcom : ¬(c = 59 ∨ c = 35)) (rest : Bytes) :
    parseLoop n ⟨.initial, false, [], params⟩ (escapeChar c ++ rest) =
      parseLoop n ⟨.readingUnquotedParm, false, [c], params⟩ rest := by
  have hnospace : space c = false := by simp [space, hzero, hsp]
  have hnext : ∀ backslash, backslash = true ∨ c ≠ 34 →
      nextState .initial backslash c = some (.readingUnquotedParm, c) := by
    intro backslash h
    rcases h with h | h
    · simp [nextState, hnospace, hcom, h]
    · simp [nextState, hnospace, hcom, h, hquote]
  unfold escapeChar
  split
  case isTrue hc =>
    exact parseLoop_escape hroom (by decide) (hnext true (.inl rfl)) (by decide) hc hzero
      (by decide) rest
  case isFalse hc =>
    rw [not_or, not_or] at hc
    exact parseLoop_store rest (hnext false (.inr hc.2.1)) (by decide) (fun h => hc.1 h.2.1)
      (fun h => by cases h) hzero (by decide) hroom

theorem parseLoop_escaped_parm {c : UInt8} {w : Bytes} (htext : 0 ∉ c :: w)
    (hsp : isspace c = false) (hquote : c ≠ 39) (hcom : ¬(c = 59 ∨ c = 35))
    (hlen : (c :: w).length ≤ OPTION_PARM_SIZE) {d : UInt8} (hd : space d = true) (hback : d ≠ 92)
    (rest : Bytes) :
    parseLoop n ⟨.initial, false, [], params⟩ (escapeText (c :: w) ++ d :: rest) =
      if n ≤ params.length + 1 ∨ d = 0 then .ok ⟨.initial, false, [], params ++ [c :: w]⟩
      else parseLoop n ⟨.initial, false, [], params ++ [c :: w]⟩ rest := by
  have hzero : ∀ c' ∈ c :: w, c' ≠ 0 := fun c' hc' h => htext (h ▸ hc')
  rw [length_cons] at hlen
  have hread := parseLoop_written (d :: rest)
    (fun c' hc' parm tail hparm =>
      parseLoop_escapeChar hroom hparm (hzero c' (mem_cons_of_mem c hc')) tail)
    (show [c].length + w.length ≤ OPTION_PARM_SIZE by simp; omega)
  rw [escapeText, flatMap_cons, append_assoc,
    parseLoop_escaped_first hroom (hzero c mem_cons_self) hsp hquote hcom, hread,
    singleton_append, parseLoop_done rest (by simp [nextState, hd]) hback]

end Room

theorem parseLoop_comment (n : Nat) (params : List Bytes) {c : UInt8} (hc : c = 59 ∨ c = 35)
    (rest : Bytes) :
    parseLoop n ⟨.initial, false, [], params⟩ (escapeChar c ++ rest) =
      .ok ⟨.initial, false, [], params⟩ := by
  rcases hc with rfl | rfl
  · rfl
  · rfl

theorem escapedLine_cons (a : Bytes) (args : List Bytes) :
    ∃ d rest, escapedLine (a :: args) ++ [0] = escapeText a ++ d :: rest ∧
      (args = [] ∧ d = 0 ∨ args ≠ [] ∧ d = 32 ∧ rest = escapedLine args ++ [0]) := by
  cases args with
  | nil => exact ⟨0, [], by simp [escapedLine, joinText], .inl ⟨rfl, rfl⟩⟩
  | cons b args =>
    refine ⟨32, escapedLine (b :: args) ++ [0], ?_, .inr ⟨cons_ne_nil _ _, rfl, rfl⟩⟩
    rw [escapedLine, joinText_cons_cons, append_assoc, cons_append]
    rfl

theorem EscapableParm.dropWhile {a w : Bytes} {c : UInt8} (ha : EscapableParm a)
    (hdrop : a.dropWhile isspace = c :: w) :
    0 ∉ c :: w ∧ isspace c = false ∧ c ≠ 39 ∧ (c :: w).length ≤ OPTION_PARM_SIZE := by
  have hsub : List.Sublist (c :: w) a := hdrop ▸ dropWhile_sublist isspace
  have hhead : isspace c = false := by
    have h := head_dropWhile_not isspace (by rw [hdrop]; exact cons_ne_nil c w)
    simpa [hdrop] using h
  refine ⟨fun h => ha.text_string (hsub.subset h), hhead, ?_, ?_⟩
  · intro hc
    exact ha.no_single_quote (hsub.subset (hc ▸ mem_cons_self))
  · exact (hsub.length_le.trans ha.length).trans (by decide)

variable {args : List Bytes}

/-- An escaped line is read as `recoveredParms` says. -/
theorem parseLoop_escapedLine {n : Nat} (hargs : ∀ a ∈ args, EscapableParm a) {params : List Bytes}
    (hn : params.length + args.length ≤ n) :
    parseLoop n ⟨.initial, false, [], params⟩ (escapedLine args ++ [0]) =
      .ok ⟨.initial, false, [], params ++ recoveredParms args⟩ := by
  induction args generalizing params with
  | nil =>
    rw [recoveredParms, append_nil]
    exact parseLoop_blank n params (fun _ hc => absurd hc not_mem_nil)
  | cons a args ih =>
    have ih' := fun p h => @ih (fun a' ha' => hargs a' (mem_cons_of_mem a ha')) p h
    have ha := hargs a mem_cons_self
    rw [length_cons] at hn
    have hroom : params.length < n := by omega
    obtain ⟨d, rest, hline, hend⟩ := escapedLine_cons a args
    have hd : space d = true ∧ d ≠ 92 := by
      rcases hend with ⟨-, rfl⟩ | ⟨-, rfl, -⟩
      · decide
      · decide
    rw [hline, parseLoop_escaped_blanks hroom, recoveredParms]
    split
    case h_1 hdrop =>
      -- nothing is left of the parameter but the blank after it
      rw [hdrop, escapeText, flatMap_nil, nil_append, parseLoop, parseChar_blank hd.1 hd.2]
      rcases hend with ⟨rfl, rfl⟩ | ⟨hne, rfl, rfl⟩
      · simp [recoveredParms]
      · have hnext := ih' params (by omega)
        simp [hnext, hroom]
    case h_2 c w hdrop =>
      obtain ⟨htext, hsp, hquote, hlen⟩ := ha.dropWhile hdrop
      rw [hdrop]
      split
      case isTrue hcom =>
        rw [escapeText, flatMap_cons, append_assoc, parseLoop_comment n params hcom, append_nil]
      case isFalse hcom =>
        rw [parseLoop_escaped_parm hroom htext hsp hquote hcom hlen hd.1 hd.2]
        rcases hend with ⟨rfl, rfl⟩ | ⟨hne, rfl, rfl⟩
        · simp [recoveredParms]
        · have hpos : 0 < args.length := length_pos_iff.mpr hne
          have hmore : ¬(n ≤ params.length + 1 ∨ (32 : UInt8) = 0) := by
            intro h
            rcases h with h | h
            · omega
            · exact absurd h (by decide)
          rw [if_neg hmore,
            ih' (params ++ [c :: w]) (by rw [length_append, length_singleton]; omega),
            append_assoc, singleton_append]

theorem parseLine_escaped {n : Nat} (hargs : ∀ a ∈ args, EscapableParm a) (hn : args.length ≤ n) :
    parseLine n (escapedLine args) = .ok (recoveredParms args) :=
  parseLine_of_loop (parseLoop_escapedLine hargs (by simpa using hn))

/-! ## The escaped lines that are read back -/

theorem length_recoveredParms (args : List Bytes) : (recoveredParms args).length ≤ args.length := by
  induction args with
  | nil => exact le_rfl
  | cons a args ih =>
    rw [recoveredParms]
    split
    case h_1 => exact ih.trans (le_succ _)
    case h_2 =>
      split
      case isTrue => exact zero_le _
      case isFalse => exact succ_le_succ ih

/-- Nothing is lost iff no parameter starts with a blank. -/
theorem recoveredParms_eq_self_iff (hargs : ∀ a ∈ args, EscapableParm a) :
    recoveredParms args = args ↔ ∀ a ∈ args, ∀ c, a.head? = some c → isspace c = false := by
  induction args with
  | nil => simp [recoveredParms]
  | cons a args ih =>
    have ih' := ih fun a' ha' => hargs a' (mem_cons_of_mem a ha')
    have ha := hargs a mem_cons_self
    obtain ⟨b, v, rfl⟩ := exists_cons_of_ne_nil ha.nonempty
    rw [forall_mem_cons, ← ih']
    by_cases hb : isspace b = true
    · refine ⟨fun h => ?_, fun h => ?_⟩
      · exfalso
        rw [recoveredParms, dropWhile_cons_of_pos hb] at h
        split at h
        case h_1 =>
          have hlen := length_recoveredParms args
          rw [h, length_cons] at hlen
          omega
        case h_2 c w hdrop =>
          split at h
          case isTrue => cases h
          case isFalse =>
            have hlen := (dropWhile_sublist isspace (l := v)).length_le
            rw [hdrop, (cons.inj h).1, length_cons] at hlen
            omega
      · have hno := h.1 b rfl
        rw [hb] at hno
        cases hno
    · have hcom : ¬(b = 59 ∨ b = 35) := by
        intro h
        rcases h with h | h
        · exact (ha.first b rfl).2 h
        · exact (ha.first b rfl).1 h
      have hhead : ∀ c, (b :: v).head? = some c → isspace c = false := by
        intro c hc
        cases hc
        simpa using hb
      rw [recoveredParms, dropWhile_cons_of_neg hb]
      simp only [if_neg hcom, List.cons.injEq, true_and]
      exact ⟨fun h => ⟨hhead, h⟩, fun h => h.2⟩

/-- **Escaping round trip.** An escaped line is read as the parameters it was written
for if and only if none of them begins with a blank. -/
theorem parse_line_escaped_iff (n : Nat) (args : List Bytes) (hargs : ∀ a ∈ args, EscapableParm a)
    (hn : args.length ≤ n) :
    parseLine n (escapedLine args) = .ok args ↔
      ∀ a ∈ args, ∀ c, a.head? = some c → isspace c = false := by
  rw [parseLine_escaped hargs hn, Except.ok.injEq, recoveredParms_eq_self_iff hargs]

theorem escapable_a_blank : EscapableParm [97, 32] :=
  ⟨by decide, by decide, by decide, by simp, by decide⟩

/-- The line `a\ ` -/
theorem parse_line_escaped_a_blank : parseLine 16 (escapedLine [[97, 32]]) = .ok [[97, 32]] :=
  (parse_line_escaped_iff 16 [[97, 32]] (forall_mem_singleton.mpr escapable_a_blank)
    (by decide)).mpr (by simp; decide)

/-- The line `\ a` -/
theorem leading_escape_lost :
    EscapableParm [32, 97] ∧ escapedLine [[32, 97]] = [92, 32, 97] ∧
      parseLine 16 (escapedLine [[32, 97]]) = .ok [[97]] :=
  ⟨⟨by decide, by decide, by decide, by simp, by decide⟩, rfl, rfl⟩

end OpenVpn
