import Mathlib.Data.List.Infix
import OpenVpn.Util.Buffer

/-!
# Pull filters

A client applies the options its server pushes. `parse_line` cuts an option into
parameters, and removes quotes, escapes and blanks while it does; the pull filters
of the client look at the text before that.

* `parseLine` — the quoting state machine.
* `applyPullFilter`, `pushLine` — the filters, and one pushed option.
* `pull_filters_obeyed_iff` — the options the filters can rely on: those that are
  written the way their parameters are printed.
-/

namespace OpenVpn

open Base List

/-! ## Cutting a line into parameters -/

def MAX_PARMS : Nat := 16
def OPTION_PARM_SIZE : Nat := 256

def space (c : UInt8) : Bool := c == 0 || isspace c

inductive ParseState
  | initial
  | readingQuotedParm
  | readingUnquotedParm
  | done
  | readingSquotedParm
  deriving DecidableEq, Repr

/-- Why `parse_line` gives up; it then reports zero parameters. -/
inductive ParseLineError
  | badBackslash
  | parameterTooLong
  | noClosingQuotation
  | noClosingSingleQuotation
  | residualParseState (state : ParseState)
  deriving DecidableEq, Repr

/-- The variables of `parse_line`; `params` are the parameters stored so far. -/
structure LineParser where
  state : ParseState := .initial
  backslash : Bool := false
  parm : Bytes := []
  params : List Bytes := []
  deriving DecidableEq, Repr

/-- The state after a character and the character to store, zero for none. There is
no result at a comment. -/
def nextState (state : ParseState) (backslash : Bool) (c : UInt8) : Option (ParseState × UInt8) :=
  match state with
  | .initial =>
    if space c then some (.initial, 0)
    else if c = 59 ∨ c = 35 then none
    else if !backslash ∧ c = 34 then some (.readingQuotedParm, 0)
    else if !backslash ∧ c = 39 then some (.readingSquotedParm, 0)
    else some (.readingUnquotedParm, c)
  | .readingUnquotedParm =>
    if !backslash ∧ space c then some (.done, 0) else some (.readingUnquotedParm, c)
  | .readingQuotedParm =>
    if !backslash ∧ c = 34 then some (.done, 0) else some (.readingQuotedParm, c)
  | .readingSquotedParm => if c = 39 then some (.done, 0) else some (.readingSquotedParm, c)
  | .done => some (.done, 0)

def storeChar (parm : Bytes) (out : UInt8) : Bytes := if out = 0 then parm else parm ++ [out]

/-- `STATE_DONE`: the parameter is complete. -/
def finishParm (s : LineParser) (state : ParseState) : LineParser :=
  if state = .done then
    { s with state := .initial, parm := [], params := s.params ++ [s.parm] }
  else { s with state }

/-- One round of the loop of `parse_line`. The Boolean is true if the loop is left. -/
def parseChar (n : Nat) (s : LineParser) (c : UInt8) : Except ParseLineError (LineParser × Bool) :=
  if !s.backslash ∧ c = 92 ∧ s.state ≠ .readingSquotedParm then
    .ok ({ s with backslash := true }, decide (n ≤ s.params.length))
  else
    match nextState s.state s.backslash c with
    | none => .ok (s, true)
    | some (state, out) =>
      if s.backslash ∧ out ≠ 0 ∧ ¬(out = 92 ∨ out = 34 ∨ space out) then .error .badBackslash
      else if out ≠ 0 ∧ OPTION_PARM_SIZE ≤ (finishParm s state).parm.length then
        .error .parameterTooLong
      else
        .ok ({ finishParm s state with
            backslash := false
            parm := storeChar (finishParm s state).parm out },
          decide (n ≤ (finishParm s state).params.length))

/-- The loop of `parse_line`; it ends with the NUL of the line. -/
def parseLoop (n : Nat) : LineParser → Bytes → Except ParseLineError LineParser
  | s, [] => .ok s
  | s, c :: line =>
    match parseChar n s c with
    | .error e => .error e
    | .ok (s', stop) => if stop ∨ c = 0 then .ok s' else parseLoop n s' line

/-- `parse_line` with room for `n` parameters. -/
def parseLine (n : Nat) (line : Bytes) : Except ParseLineError (List Bytes) :=
  match parseLoop n {} (line ++ [0]) with
  | .error e => .error e
  | .ok s =>
    match s.state with
    | .readingQuotedParm => .error .noClosingQuotation
    | .readingSquotedParm => .error .noClosingSingleQuotation
    | .initial => .ok s.params
    | state => .error (.residualParseState state)

/-! ## The filters -/

inductive PufType
  | accept
  | ignore
  | reject
  deriving DecidableEq, Repr

/-- `struct pull_filter`; `size` is the length of the pattern. An option with another
filter type is a fatal usage error. -/
structure PullFilter where
  type : PufType
  pattern : Bytes
  pattern_text : 0 ∉ pattern

/-- Whether `strncmp` of two C strings is zero. -/
def strncmpZero : (n : Nat) → (s t : Bytes) → Bool
  | 0, _, _ => true
  | n + 1, s, t =>
    if s.headD 0 ≠ t.headD 0 then false
    else if s.headD 0 = 0 then true
    else strncmpZero n s.tail t.tail

/-- The loop of `apply_pull_filter`: the type of the filter that decides. -/
def pullFilterLoop : List PullFilter → Bytes → Option PufType
  | [], _ => none
  | f :: fs, line =>
    if f.type = .accept ∧ strncmpZero f.pattern.length line f.pattern then some .accept
    else if f.type = .ignore ∧ strncmpZero f.pattern.length line f.pattern then some .ignore
    else if f.type = .reject ∧ strncmpZero f.pattern.length line f.pattern then some .reject
    else pullFilterLoop fs line

/-- `apply_pull_filter`: false if `SIGUSR1` was thrown, and the line it leaves. A line
is removed by a NUL after its leading blanks. -/
def applyPullFilter (fs : List PullFilter) (line : Bytes) : Bool × Bytes :=
  match pullFilterLoop fs (line.dropWhile isspace) with
  | none | some .accept => (true, line)
  | some .ignore => (true, line.takeWhile isspace)
  | some .reject => (false, line.takeWhile isspace)

/-- What becomes of one pushed option. -/
inductive PushedLine
  | applied (p : List Bytes)
  | dropped
  | restart
  deriving DecidableEq, Repr

/-- One round of the loop of `apply_push_options`. -/
def pushLine (fs : List PullFilter) (line : Bytes) : PushedLine :=
  match applyPullFilter fs line with
  | (false, _) => .restart
  | (true, line) =>
    match parseLine MAX_PARMS line with
    | .ok (p :: ps) => .applied (p :: ps)
    | .ok [] | .error _ => .dropped

/-! ## The abstract filter -/

/-- The text the filters are written for: the parameters with single blanks between. -/
def printedOption (p : List Bytes) : Bytes := joinText 32 id p

def optionText (line : Bytes) : Bytes := line.dropWhile isspace

/-- The first filter whose pattern starts the text decides; without one the text is
accepted. -/
def verdict (fs : List PullFilter) (text : Bytes) : PufType :=
  ((fs.find? fun f => f.pattern.isPrefixOf text).map PullFilter.type).getD .accept

def PufType.strictness : PufType → Nat
  | .accept => 0
  | .ignore => 1
  | .reject => 2

/-- The filters hold against an option with parameters `p`: what they ignore is not
applied, what they reject ends in a restart. -/
def Obeyed (fs : List PullFilter) (line : Bytes) (p : List Bytes) : Prop :=
  (verdict fs (printedOption p) = .ignore → ∀ p', pushLine fs line ≠ .applied p') ∧
    (verdict fs (printedOption p) = .reject → pushLine fs line = .restart)

/-! ## What the filters decide -/

theorem strncmpZero_eq (pattern line : Bytes) (h : 0 ∉ pattern) :
    strncmpZero pattern.length line pattern = pattern.isPrefixOf line := by
  induction pattern generalizing line with
  | nil => simp [strncmpZero]
  | cons b pattern ih =>
    rw [mem_cons, not_or] at h
    have hb : b ≠ 0 := Ne.symm h.1
    cases line with
    | nil => simp [strncmpZero, hb.symm]
    | cons a line =>
      by_cases hab : a = b
      · subst hab
        simp [strncmpZero, hb, ih line h.2]
      · simp [strncmpZero, hab, isPrefixOf, Ne.symm hab]

theorem pullFilterLoop_eq (fs : List PullFilter) (text : Bytes) :
    (pullFilterLoop fs text).getD .accept = verdict fs text := by
  induction fs with
  | nil => rfl
  | cons f fs ih =>
    rw [pullFilterLoop, strncmpZero_eq _ _ f.pattern_text]
    by_cases hmat : f.pattern.isPrefixOf text = true
    · cases hf : f.type <;> simp [verdict, hmat, hf]
    · rw [verdict] at ih
      simp [verdict, hmat, ih]

variable {c : UInt8}

theorem isspace_ne_backslash (h : isspace c = true) : c ≠ 92 := by
  intro hc
  subst hc
  exact absurd h (by decide)

variable {n : Nat} {params : List Bytes}

theorem parseChar_blank {backslash : Bool} (hc : space c = true) (hne : c ≠ 92) :
    parseChar n ⟨.initial, backslash, [], params⟩ c =
      .ok (⟨.initial, false, [], params⟩, decide (n ≤ params.length)) := by
  simp [parseChar, hne, nextState, hc, finishParm, storeChar]

variable {line : Bytes}

theorem parseLoop_blank (n : Nat) (params : List Bytes) (h : ∀ c ∈ line, isspace c = true) :
    parseLoop n ⟨.initial, false, [], params⟩ (line ++ [0]) =
      .ok ⟨.initial, false, [], params⟩ := by
  induction line with
  | nil =>
    rw [nil_append, parseLoop, parseChar_blank (by decide) (by decide)]
    simp
  | cons c line ih =>
    have hc := h c mem_cons_self
    have hsp : space c = true := by simp [space, hc]
    rw [cons_append, parseLoop, parseChar_blank hsp (isspace_ne_backslash hc)]
    simp only [ih fun c' hc' => h c' (mem_cons_of_mem c hc')]
    split <;> rfl

theorem parseLine_of_loop (hloop : parseLoop n ⟨.initial, false, [], []⟩ (line ++ [0]) =
      .ok ⟨.initial, false, [], params⟩) : parseLine n line = .ok params := by
  rw [parseLine, hloop]

theorem parseLine_blank (n : Nat) (h : ∀ c ∈ line, isspace c = true) : parseLine n line = .ok [] :=
  parseLine_of_loop (parseLoop_blank n [] h)

theorem all_takeWhile_isspace (line : Bytes) : ∀ c ∈ line.takeWhile isspace, isspace c = true :=
  all_eq_true.mp all_takeWhile

theorem applyPullFilter_eq (fs : List PullFilter) (line : Bytes) :
    applyPullFilter fs line =
      (decide (verdict fs (optionText line) ≠ .reject),
        if verdict fs (optionText line) = .accept then line else line.takeWhile isspace) := by
  rw [← pullFilterLoop_eq, optionText, applyPullFilter]
  rcases pullFilterLoop fs (line.dropWhile isspace) with - | (- | - | -)
  all_goals rfl

variable {p : List Bytes}

variable {fs : List PullFilter}

theorem pushLine_accept (hfs : verdict fs (optionText line) = .accept)
    (hp : parseLine MAX_PARMS line = .ok p) (hne : p ≠ []) : pushLine fs line = .applied p := by
  obtain ⟨q, ps, rfl⟩ := exists_cons_of_ne_nil hne
  rw [pushLine, applyPullFilter_eq, hfs]
  simp [hp]

theorem pushLine_ignore (hfs : verdict fs (optionText line) = .ignore) :
    pushLine fs line = .dropped := by
  rw [pushLine, applyPullFilter_eq, hfs]
  simp [parseLine_blank MAX_PARMS (all_takeWhile_isspace line)]

theorem pushLine_reject (hfs : verdict fs (optionText line) = .reject) :
    pushLine fs line = .restart := by
  rw [pushLine, applyPullFilter_eq, hfs]
  simp

theorem obeyed_iff (hp : parseLine MAX_PARMS line = .ok p) (hne : p ≠ []) :
    Obeyed fs line p ↔ (verdict fs (printedOption p)).strictness ≤
      (verdict fs (optionText line)).strictness := by
  unfold Obeyed
  cases hseen : verdict fs (optionText line) with
  | accept =>
    rw [pushLine_accept hseen hp hne]
    cases verdict fs (printedOption p) <;> simp [PufType.strictness]
  | ignore =>
    rw [pushLine_ignore hseen]
    cases verdict fs (printedOption p) <;> simp [PufType.strictness]
  | reject =>
    rw [pushLine_reject hseen]
    cases verdict fs (printedOption p) <;> simp [PufType.strictness]

/-! ## Parameters are texts -/

/-- No stored character is a NUL. -/
structure LineParser.Texts (s : LineParser) : Prop where
  parm : 0 ∉ s.parm
  params : ∀ q ∈ s.params, 0 ∉ q

variable {s : LineParser}

theorem LineParser.Texts.finishParm (h : s.Texts) (state : ParseState) :
    (finishParm s state).Texts := by
  unfold OpenVpn.finishParm
  split
  case isTrue =>
    refine ⟨not_mem_nil, ?_⟩
    intro q hq
    rcases mem_append.mp hq with hq | hq
    · exact h.params q hq
    · rw [mem_singleton.mp hq]
      exact h.parm
  case isFalse => exact ⟨h.parm, h.params⟩

theorem LineParser.Texts.char {s' : LineParser} {stop : Bool} (h : s.Texts)
    (hchar : parseChar n s c = .ok (s', stop)) : s'.Texts := by
  unfold parseChar at hchar
  split at hchar
  case isTrue =>
    cases hchar
    exact ⟨h.parm, h.params⟩
  case isFalse =>
    split at hchar
    case h_1 =>
      cases hchar
      exact h
    case h_2 state out _ =>
      have hfin := h.finishParm state
      split at hchar
      case isTrue => cases hchar
      case isFalse =>
        split at hchar
        case isTrue => cases hchar
        case isFalse =>
          cases hchar
          refine ⟨?_, hfin.params⟩
          by_cases hout : out = 0
          · simpa [storeChar, hout] using hfin.parm
          · simpa [storeChar, hout, Ne.symm hout] using hfin.parm

theorem LineParser.Texts.loop {s' : LineParser} (h : s.Texts)
    (hloop : parseLoop n s line = .ok s') : s'.Texts := by
  induction line generalizing s with
  | nil =>
    cases hloop
    exact h
  | cons c line ih =>
    rw [parseLoop] at hloop
    split at hloop
    case h_1 => cases hloop
    case h_2 s1 stop hchar =>
      have h1 := h.char hchar
      split at hloop
      case isTrue =>
        cases hloop
        exact h1
      case isFalse => exact ih h1 hloop

theorem parseLine_texts (hp : parseLine n line = .ok p) : ∀ q ∈ p, 0 ∉ q := by
  unfold parseLine at hp
  split at hp
  case h_1 => cases hp
  case h_2 s hloop =>
    have htexts : s.Texts := LineParser.Texts.loop ⟨not_mem_nil, by simp⟩ hloop
    split at hp
    case h_3 =>
      cases hp
      exact htexts.params
    all_goals cases hp

theorem printedOption_text (hp : parseLine n line = .ok p) : 0 ∉ printedOption p := by
  intro h
  exact mem_joinText (P := (· ≠ 0)) (by decide)
    (fun q hq c hc h0 => parseLine_texts hp q hq (h0 ▸ hc)) 0 h rfl

/-! ## The options filters can rely on -/

/-- **Filters against a pushed option.** A list of filters holds against an option if
and only if it is no laxer with the raw text than with the printed parameters. Every
list does if and only if the option, its leading blanks apart, is written as its
parameters are printed. -/
theorem pull_filters_obeyed_iff (line : Bytes) (p : List Bytes) (hline : 0 ∉ line)
    (hparse : parseLine MAX_PARMS line = .ok p) (hne : p ≠ []) :
    (∀ fs, Obeyed fs line p ↔ (verdict fs (printedOption p)).strictness ≤
      (verdict fs (optionText line)).strictness) ∧
    ((∀ fs, Obeyed fs line p) ↔ optionText line = printedOption p) := by
  refine ⟨fun fs => obeyed_iff hparse hne, ?_, ?_⟩
  · intro hall
    -- an ignored pattern that is the whole printed option, then an accepted one before it
    have hpre : printedOption p <+: optionText line := by
      have hone := hall [⟨.ignore, printedOption p, printedOption_text hparse⟩]
      rw [obeyed_iff hparse hne] at hone
      by_contra hno
      simp [verdict, hno, PufType.strictness] at hone
    have htext : 0 ∉ optionText line := fun h => hline ((dropWhile_sublist isspace).subset h)
    have htwo := hall [⟨.accept, optionText line, htext⟩,
      ⟨.ignore, printedOption p, printedOption_text hparse⟩]
    rw [obeyed_iff hparse hne] at htwo
    by_contra hne'
    have hlonger : ¬optionText line <+: printedOption p := fun h =>
      hne' (h.eq_of_length_le hpre.length_le)
    simp [verdict, hlonger, PufType.strictness] at htwo
  · intro heq fs
    rw [obeyed_iff hparse hne, heq]

def ignoreRoute : PullFilter := ⟨.ignore, [114, 111, 117, 116, 101], by decide⟩

/-- The pushed option `route x`. -/
theorem pull_filters_obeyed_route : Obeyed [ignoreRoute] [114, 111, 117, 116, 101, 32, 120]
    [[114, 111, 117, 116, 101], [120]] :=
  ((pull_filters_obeyed_iff [114, 111, 117, 116, 101, 32, 120] [[114, 111, 117, 116, 101], [120]]
    (by decide) rfl (cons_ne_nil _ _)).1 [ignoreRoute]).mpr (by decide)

/-- The pushed option `"route" x`: it has the parameters of `route x`, and is applied. -/
theorem quoted_route_is_applied :
    parseLine MAX_PARMS [34, 114, 111, 117, 116, 101, 34, 32, 120] =
        .ok [[114, 111, 117, 116, 101], [120]] ∧
      verdict [ignoreRoute] (printedOption [[114, 111, 117, 116, 101], [120]]) = .ignore ∧
      pushLine [ignoreRoute] [34, 114, 111, 117, 116, 101, 34, 32, 120] =
        .applied [[114, 111, 117, 116, 101], [120]] :=
  ⟨rfl, by decide, rfl⟩

/-! ## One character at a time -/

theorem ne_zero_of_space (h : space c = false) : c ≠ 0 := by
  intro hc
  subst hc
  exact absurd h (by decide)

variable {st : ParseState} {parm : Bytes}

theorem parseLoop_store {state : ParseState} {backslash : Bool} (rest : Bytes)
    (hnext : nextState st backslash c = some (state, c)) (hdone : state ≠ .done)
    (hplain : ¬(backslash = false ∧ c = 92 ∧ st ≠ .readingSquotedParm))
    (hesc : backslash = true → c = 92 ∨ c = 34 ∨ space c = true) (hzero : c ≠ 0)
    (hlen : parm.length < OPTION_PARM_SIZE) (hroom : params.length < n) :
    parseLoop n ⟨st, backslash, parm, params⟩ (c :: rest) =
      parseLoop n ⟨state, false, parm ++ [c], params⟩ rest := by
  have hbad : ¬(backslash = true ∧ c ≠ 0 ∧ ¬(c = 92 ∨ c = 34 ∨ space c = true)) :=
    fun h => h.2.2 (hesc h.1)
  have hstart : ¬((!backslash) = true ∧ c = 92 ∧ st ≠ .readingSquotedParm) := by
    rw [Bool.not_eq_true']
    exact hplain
  have hchar : parseChar n ⟨st, backslash, parm, params⟩ c =
      .ok (⟨state, false, parm ++ [c], params⟩, false) := by
    rw [parseChar, if_neg hstart]
    simp only [hnext]
    rw [if_neg hbad]
    simp [finishParm, hdone, storeChar, hzero, Nat.not_le.mpr hlen, Nat.not_le.mpr hroom]
  rw [parseLoop, hchar]
  simp [hzero]

theorem parseLoop_done {d : UInt8} (rest : Bytes) (hnext : nextState st false d = some (.done, 0))
    (hplain : d ≠ 92) :
    parseLoop n ⟨st, false, parm, params⟩ (d :: rest) =
      if n ≤ params.length + 1 ∨ d = 0 then .ok ⟨.initial, false, [], params ++ [parm]⟩
      else parseLoop n ⟨.initial, false, [], params ++ [parm]⟩ rest := by
  have hchar : parseChar n ⟨st, false, parm, params⟩ d =
      .ok (⟨.initial, false, [], params ++ [parm]⟩, decide (n ≤ params.length + 1)) := by
    simp [parseChar, hplain, hnext, finishParm, storeChar]
  rw [parseLoop, hchar]
  simp only [decide_eq_true_eq]

theorem parseLoop_written {written : UInt8 → Bytes} {text : Bytes} (rest : Bytes)
    (hwritten : ∀ c ∈ text, ∀ parm tail, parm.length < OPTION_PARM_SIZE →
      parseLoop n ⟨st, false, parm, params⟩ (written c ++ tail) =
        parseLoop n ⟨st, false, parm ++ [c], params⟩ tail)
    (hlen : parm.length + text.length ≤ OPTION_PARM_SIZE) :
    parseLoop n ⟨st, false, parm, params⟩ (text.flatMap written ++ rest) =
      parseLoop n ⟨st, false, parm ++ text, params⟩ rest := by
  induction text generalizing parm with
  | nil => simp
  | cons c text ih =>
    rw [length_cons] at hlen
    have hlen' : (parm ++ [c]).length + text.length ≤ OPTION_PARM_SIZE := by
      rw [length_append, length_singleton]
      omega
    rw [flatMap_cons, append_assoc, hwritten c mem_cons_self parm _ (by omega),
      ih (fun c' hc' => hwritten c' (mem_cons_of_mem c hc')) hlen',
      append_assoc, singleton_append]

theorem parseLoop_unquoted (hroom : params.length < n) (hlen : parm.length < OPTION_PARM_SIZE)
    (hsp : space c = false) (hback : c ≠ 92) (rest : Bytes) :
    parseLoop n ⟨.readingUnquotedParm, false, parm, params⟩ (c :: rest) =
      parseLoop n ⟨.readingUnquotedParm, false, parm ++ [c], params⟩ rest := by
  have hnext : nextState .readingUnquotedParm false c = some (.readingUnquotedParm, c) := by
    simp [nextState, hsp]
  exact parseLoop_store rest hnext (by decide) (fun h => hback h.2.1) (fun h => by cases h)
    (ne_zero_of_space hsp) hlen hroom

/-! ## A whole push -/

def pushedLines (buf : Bytes) : List Bytes :=
  match _hparse : bufParse 44 OPTION_PARM_SIZE buf with
  | (false, _, _) => []
  | (true, line, rest) => line :: pushedLines rest
  termination_by buf.length
  decreasing_by
    exact bufParse_rest _hparse

end OpenVpn
