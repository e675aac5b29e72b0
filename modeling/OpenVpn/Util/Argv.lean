import OpenVpn.Base.CString

/-!
# Argument vectors from a format

`argv_printf` puts a group separator between the tokens of its format, expands the whole text
with `vsnprintf`, cuts it at the separators again, and fails if there are not as many pieces as
tokens.

* `argvPrepFormat_eq` — the tokens, joined.
* `expandTokens_spec` — the joined tokens are expanded one by one.
* `argv_printf_arguments` — one argument for each token, or none at all.
-/

namespace OpenVpn

open Base List

inductive PrintfArg
  | str (s : Bytes)
  | int (n : Int)

/-- `%s` and `%d` -/
def conversion : UInt8 → PrintfArg → Option Bytes
  | 115, .str s => some s
  | 100, .int n => some ((if n < 0 then [45] else []) ++ decimal n.natAbs)
  | _, _ => none

/-- The text, and the arguments that are left. -/
def vsnprintf : Bytes → List PrintfArg → Option (Bytes × List PrintfArg)
  | [], args => some ([], args)
  | c :: f, args =>
    if c = 37 then
      match f, args with
      | k :: f, arg :: args =>
        (conversion k arg).bind fun x => (vsnprintf f args).map fun r => (x ++ r.1, r.2)
      | _, _ => none
    else (vsnprintf f args).map fun r => (c :: r.1, r.2)

/-- `0x1D`, the group separator -/
def GS : UInt8 := 29

/-- The loop of `argv_prep_format`: the text so far, and the number of tokens. -/
def argvPrepFormat (delim : UInt8) : Bytes → Bool → Bytes → Nat → Bytes × Nat
  | [], _, f, count => (f, count)
  | c :: format, inToken, f, count =>
    if c = 32 then argvPrepFormat delim format false f count
    else if inToken then argvPrepFormat delim format true (f ++ [c]) count
    else
      let f := if f.isEmpty then f else f ++ [delim]
      argvPrepFormat delim format true (f ++ [c]) (count + 1)

/-- The result and the vector; `none` if the arguments do not fit the format. -/
def argvPrintf (format : Bytes) (args : List PrintfArg) : Option (Bool × List Bytes) := do
  let (f, argc) := argvPrepFormat GS format false [] 0
  let (buf, _) ← vsnprintf f args
  -- `vsnprintf` fails if the length is no `int`
  if 2 ^ 31 ≤ buf.length then return (false, [])
  else if (strsep GS buf).length ≠ argc then return (false, [])
  else return (true, strsep GS buf)

/-! ## Tokens -/

variable {format t x : Bytes} {args args' : List PrintfArg} {ts xs : List Bytes}

theorem joinText_cons (t : Bytes) (ts : List Bytes) :
    joinText GS id (t :: ts) = t ++ ts.flatMap (GS :: ·) := by
  induction ts generalizing t with
  | nil => simp [joinText, intercalate]
  | cons t' ts ih => rw [joinText_cons_cons, ih, flatMap_cons]; rfl

theorem splitOn_cons (d c : UInt8) (s : Bytes) : (c :: s).splitOn d =
    if c = d then [] :: s.splitOn d else (s.splitOn d).modifyHead (c :: ·) := by
  simp [splitOn_eq_splitOnP, splitOnP_cons_eq_if_modifyHead]

/-- The loop inside of a token and between tokens. -/
theorem argvPrepFormat_rest (format : Bytes) : ∃ hd tl, format.splitOn 32 = hd :: tl ∧
    ∀ f count, f ≠ [] →
      argvPrepFormat GS format true f count =
        (f ++ hd ++ (tl.filter fun t => !t.isEmpty).flatMap (GS :: ·),
          count + (tl.filter fun t => !t.isEmpty).length) ∧
      argvPrepFormat GS format false f count =
        (f ++ (strtok 32 format).flatMap (GS :: ·), count + (strtok 32 format).length) := by
  induction format with
  | nil => exact ⟨[], [], rfl, by simp [argvPrepFormat, strtok]⟩
  | cons c format ih =>
    obtain ⟨hd, tl, hspl, ih⟩ := ih
    by_cases hc : c = 32
    · refine ⟨[], hd :: tl, by rw [splitOn_cons, if_pos hc, hspl], fun f count hf => ?_⟩
      have := (ih f count hf).2
      simp_all [argvPrepFormat, strtok, splitOn_cons]
    · refine ⟨c :: hd, tl, by rw [splitOn_cons, if_neg hc, hspl]; rfl, fun f count hf => ?_⟩
      have htrue := (ih (f ++ [c]) count (by simp)).1
      have hfalse := (ih (f ++ [GS] ++ [c]) (count + 1) (by simp)).1
      simp_all [argvPrepFormat, strtok, splitOn_cons]
      exact Nat.add_right_comm ..

theorem argvPrepFormat_eq (format : Bytes) : argvPrepFormat GS format false [] 0 =
    (joinText GS id (strtok 32 format), (strtok 32 format).length) := by
  induction format with
  | nil => rfl
  | cons c format ih =>
    by_cases hc : c = 32
    · simp_all [argvPrepFormat, strtok, splitOn_cons]
    · obtain ⟨hd, tl, hspl, hrest⟩ := argvPrepFormat_rest format
      have := (hrest [c] 1 (by simp)).1
      simp_all [argvPrepFormat, strtok, splitOn_cons, joinText_cons]
      exact Nat.add_comm ..

theorem not_mem_strtok (hgs : GS ∉ format) : ∀ t ∈ strtok 32 format, GS ∉ t := by
  have hspl : ∀ t ∈ format.splitOn 32, GS ∉ t := by
    induction format with
    | nil => simp
    | cons c format ih =>
      obtain ⟨hd, tl, hspl, -⟩ := argvPrepFormat_rest format
      rw [splitOn_cons]
      split <;> simp_all
  exact fun t ht => hspl t (mem_strtok.mp ht).1

/-! ## Expansion -/

theorem conversion_separator {k : UInt8} {arg : PrintfArg} (h : conversion k arg = some x) :
    GS ∈ x ↔ ∃ s, arg = .str s ∧ GS ∈ s := by
  unfold conversion at h
  split at h
  case h_1 s => cases h; simp
  case h_2 n =>
    cases h
    have hdig : GS ∉ decimal n.natAbs := fun hmem => by cases decimal_digits _ _ hmem
    split <;> simp [hdig, show GS ≠ 45 by decide]
  case h_3 => cases h

theorem vsnprintf_literal {c : UInt8} (hc : c ≠ 37) (f : Bytes) (args : List PrintfArg) :
    vsnprintf (c :: f) args = (vsnprintf f args).map fun r => (c :: r.1, r.2) := by
  rw [vsnprintf.eq_def]
  simp [hc]

/-- A text is expanded part by part, and a separator comes from one of the values in it. -/
theorem vsnprintf_spec (h : vsnprintf t args = some (x, args')) (ht : GS ∉ t) :
    (∀ u, vsnprintf (t ++ u) args = (vsnprintf u args').map fun r => (x ++ r.1, r.2)) ∧
      ∃ used, args = used ++ args' ∧ (GS ∈ x ↔ ∃ s, PrintfArg.str s ∈ used ∧ GS ∈ s) := by
  fun_induction vsnprintf t args generalizing x with
  | case1 args =>
    cases h
    exact ⟨by simp, [], rfl, by simp⟩
  | case2 k f arg args ih =>
    obtain ⟨y, hy, h⟩ := Option.bind_eq_some_iff.mp h
    obtain ⟨⟨z, _⟩, hz, heq⟩ := Option.map_eq_some_iff.mp h
    cases heq
    obtain ⟨happ, used, rfl, hused⟩ := ih hz (by simp at ht; exact ht.2.2)
    refine ⟨fun u => ?_, arg :: used, rfl, ?_⟩
    · simp [vsnprintf, hy, happ, Function.comp_def]
    · rw [mem_append, conversion_separator hy, hused]
      grind
  | case3 => cases h
  | case4 c f args hc ih =>
    obtain ⟨⟨z, _⟩, hz, heq⟩ := Option.map_eq_some_iff.mp h
    cases heq
    rw [mem_cons, not_or] at ht
    obtain ⟨happ, used, hargs, hused⟩ := ih hz ht.2
    exact ⟨fun u => by simp [vsnprintf_literal hc, happ, Function.comp_def], used, hargs,
      by simp [hused, ht.1]⟩

/-- The tokens, each with its conversions expanded, and the arguments that are left. -/
def expandTokens : List Bytes → List PrintfArg → Option (List Bytes × List PrintfArg)
  | [], args => some ([], args)
  | t :: ts, args =>
    (vsnprintf t args).bind fun r => (expandTokens ts r.2).map fun rs => (r.1 :: rs.1, rs.2)

/-- The expanded tokens are separated again iff no argument has the separator. -/
theorem expandTokens_spec (h : expandTokens ts args = some (xs, args')) (hts : ∀ t ∈ ts, GS ∉ t) :
    vsnprintf (joinText GS id ts) args = some (joinText GS id xs, args') ∧
      xs.length = ts.length ∧ ∃ used, args = used ++ args' ∧
      ((∀ y ∈ xs, GS ∉ y) ↔ ∀ s, PrintfArg.str s ∈ used → GS ∉ s) := by
  induction ts generalizing args xs with
  | nil =>
    cases h
    exact ⟨rfl, rfl, [], rfl, by simp⟩
  | cons t ts ih =>
    obtain ⟨⟨x, args1⟩, hx, h⟩ := Option.bind_eq_some_iff.mp h
    obtain ⟨⟨ys, _⟩, hys, heq⟩ := Option.map_eq_some_iff.mp h
    obtain ⟨rfl, rfl⟩ := Prod.mk.inj heq
    dsimp only at hys ih
    obtain ⟨hjoin, hlen, used, hargs1, hused⟩ := ih hys (forall_mem_of_forall_mem_cons hts)
    obtain ⟨happ, used', hargs, hused'⟩ := vsnprintf_spec hx (hts t mem_cons_self)
    refine ⟨?_, by simp [hlen], used' ++ used, by simp [hargs, hargs1], by grind⟩
    cases ts with
    | nil =>
      cases hys
      simpa [joinText, intercalate] using hx
    | cons t' ts =>
      obtain ⟨x', ys, rfl⟩ := exists_cons_of_length_eq_add_one hlen
      rw [joinText_cons_cons, joinText_cons_cons, id, id, happ,
        vsnprintf_literal (by decide), hjoin]
      rfl

theorem strsep_joinText (hxs : xs ≠ []) :
    (strsep GS (joinText GS id xs)).length = xs.length ↔ ∀ y ∈ xs, GS ∉ y := by
  have hstrsep : ∀ s : Bytes, (strsep GS s).length = s.count GS + 1 := by
    intro s
    rw [strsep]
    induction s with
    | nil => rfl
    | cons c s ih =>
      rw [splitOn_cons, count_cons]
      split <;> simp_all
  have hcnt : ∀ ys : List Bytes,
      (ys.flatMap (GS :: ·)).count GS = ys.length + ys.flatten.count GS := by
    intro ys
    induction ys with
    | nil => rfl
    | cons y ys ih =>
      simp [ih]
      omega
  obtain ⟨x, ys, rfl⟩ := exists_cons_of_ne_nil hxs
  rw [hstrsep, joinText_cons, count_append, hcnt, length_cons]
  have hflat : (x :: ys).flatten.count GS = x.count GS + ys.flatten.count GS := by simp
  have hnone : (∀ y ∈ x :: ys, GS ∉ y) ↔ (x :: ys).flatten.count GS = 0 := by
    rw [count_eq_zero, mem_flatten]
    grind
  rw [hnone, hflat]
  omega

/-- **No injection.** For a format without separators, whatever the values are: one argument
for each token, equal to the token with its conversions expanded, or none at all. The former
exactly if there is a token, no value has a separator, and the text is not too long. -/
theorem argv_printf_arguments (hformat : GS ∉ format)
    (hargs : expandTokens (strtok 32 format) args = some (xs, [])) :
    ∃ ok, argvPrintf format args = some (ok, if ok then xs else []) ∧ (ok = true ↔
      xs ≠ [] ∧ (∀ s, PrintfArg.str s ∈ args → GS ∉ s) ∧ (joinText GS id xs).length < 2 ^ 31) := by
  obtain ⟨hjoin, hlen, used, heq, hused⟩ := expandTokens_spec hargs (not_mem_strtok hformat)
  rw [append_nil] at heq
  rw [heq, ← hused, argvPrintf, argvPrepFormat_eq, ← hlen]
  simp only [← heq, hjoin, Option.bind_eq_bind, Option.bind_some]
  by_cases hlong : 2 ^ 31 ≤ (joinText GS id xs).length
  · exact ⟨false, by rw [if_pos hlong]; rfl, by simp; omega⟩
  rw [if_neg hlong]
  by_cases hpieces : (strsep GS (joinText GS id xs)).length = xs.length
  · have hxs : xs ≠ [] := by
      rintro rfl
      cases hpieces
    have hclean := (strsep_joinText hxs).mp hpieces
    refine ⟨true, ?_, fun _ => ⟨hxs, hclean, Nat.lt_of_not_le hlong⟩, fun _ => rfl⟩
    rw [if_neg (not_not.mpr hpieces), strsep, joinText, map_id, splitOn_intercalate GS hclean hxs]
    rfl
  · exact ⟨false, by rw [if_pos hpieces]; rfl, by grind [strsep_joinText]⟩

/-- `up %s`, with a value of two words. -/
theorem argv_printf_two_words : argvPrintf (ascii "up %s") [.str (ascii "a b")] =
    some (true, [ascii "up", ascii "a b"]) := by
  have hargs : expandTokens (strtok 32 (ascii "up %s")) [.str (ascii "a b")] =
    some ([ascii "up", ascii "a b"], []) := rfl
  obtain ⟨ok, h, hok⟩ := argv_printf_arguments (by decide) hargs
  obtain rfl : ok = true := by
    refine hok.mpr ⟨by decide, fun s hs => ?_, by decide⟩
    cases mem_singleton.mp hs
    decide
  exact h

/-- A blank format has no token, and fails without a separator. -/
theorem argv_printf_blank : argvPrintf [32] [] = some (false, []) ∧
    expandTokens (strtok 32 [32]) [] = some ([], []) := by
  constructor <;> rfl

end OpenVpn
