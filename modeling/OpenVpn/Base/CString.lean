import Mathlib.Data.List.Infix
import Mathlib.Data.Nat.Digits.Defs
import OpenVpn.Base.Bytes

/-!
# C strings

A C string is the list of its bytes before the NUL. The functions of the C library that
cut a string into tokens and search it, and what they do with the fields of a text.

* `strtok_joinText` — tokens that were joined are found again.
* `strstr_field`, `strstr_infix` — a search passes the fields that do not contain what
  it looks for and stops in the first one that does.
* `decimalValue_decimal` — printed numbers are read back.
-/

namespace OpenVpn.Base

open List Nat UInt8

/-- The bytes of an ASCII text. -/
def ascii (s : String) : Bytes := s.toList.map fun c => ofNat c.toNat

variable {d : UInt8} {s : Bytes}

/-! ## Tokens -/

/-- The tokens of `strsep`. -/
def strsep (d : UInt8) (s : Bytes) : List Bytes := s.splitOn d

/-- The tokens of `strtok`, which skips empty ones. -/
def strtok (d : UInt8) (s : Bytes) : List Bytes := (s.splitOn d).filter fun t => !t.isEmpty

theorem mem_strtok {t : Bytes} : t ∈ strtok d s ↔ t ∈ strsep d s ∧ t ≠ [] := by
  simp [strtok, strsep]

theorem strtok_joinText {ts : List Bytes} (hne : ∀ t ∈ ts, t ≠ []) (hsep : ∀ t ∈ ts, d ∉ t) :
    strtok d (joinText d id ts) = ts := by
  cases ts with
  | nil => rfl
  | cons t ts =>
    have hspl : (joinText d id (t :: ts)).splitOn d = t :: ts := by
      rw [joinText, map_id]
      exact splitOn_intercalate d hsep (cons_ne_nil _ _)
    rw [strtok, hspl, filter_eq_self]
    intro t' ht'
    simpa using hne t' ht'

/-! ## Searching -/

/-- The place where `needle` first occurs. -/
def strstr (needle : Bytes) : Bytes → Option Nat
  | [] => if needle.isEmpty then some 0 else none
  | c :: s => if needle.isPrefixOf (c :: s) then some 0 else (strstr needle s).map (· + 1)

variable {needle : Bytes}

theorem strstr_zero (h : needle <+: s) : strstr needle s = some 0 := by
  cases s with
  | nil => simp [strstr, prefix_nil.mp h]
  | cons c s => simp [strstr, h]

theorem strstr_cons_of_not {c : UInt8} (h : ¬needle <+: c :: s) :
    strstr needle (c :: s) = (strstr needle s).map (· + 1) := by
  simp [strstr, h]

theorem strstr_eq_some {i : Nat} (h : strstr needle s = some i) : needle <+: s.drop i := by
  induction s generalizing i with
  | nil =>
    simp only [strstr, List.isEmpty_iff, Option.ite_none_right_eq_some, Option.some.injEq] at h
    rw [h.1]
    exact nil_prefix
  | cons c s ih =>
    by_cases hpre : needle <+: c :: s
    · rw [strstr_zero hpre] at h
      cases h
      exact hpre
    · rw [strstr_cons_of_not hpre, Option.map_eq_some_iff] at h
      obtain ⟨j, hj, rfl⟩ := h
      exact ih hj

theorem prefix_of_prefix_field {f rest : Bytes} (hd : d ∉ needle)
    (h : needle <+: f ++ d :: rest) : needle <+: f := by
  have hfld : f ++ [d] <+: f ++ d :: rest := ⟨rest, by simp⟩
  rcases lt_or_ge f.length needle.length with hlt | hge
  · have hlong : f ++ [d] <+: needle :=
      prefix_of_prefix_length_le hfld h (by simpa using succ_le_of_lt hlt)
    exact absurd (hlong.subset (by simp)) hd
  · exact prefix_of_prefix_length_le h (prefix_append f _) hge

theorem strstr_field (hd : d ∉ needle) {f : Bytes} (hno : ¬needle <:+: f) (rest : Bytes) :
    strstr needle (f ++ d :: rest) = (strstr needle rest).map (· + (f.length + 1)) := by
  induction f with
  | nil =>
    have hpre : ¬needle <+: d :: rest := by
      intro h
      exact hno (prefix_of_prefix_field (f := []) hd h).isInfix
    rw [nil_append, strstr_cons_of_not hpre]
    rfl
  | cons c f ih =>
    have hpre : ¬needle <+: c :: (f ++ d :: rest) := by
      intro h
      exact hno (prefix_of_prefix_field (f := c :: f) hd h).isInfix
    have hno' : ¬needle <:+: f := fun h => hno (h.trans (suffix_cons c f).isInfix)
    rw [cons_append, strstr_cons_of_not hpre, ih hno', Option.map_map]
    rfl

theorem strstr_infix {f : Bytes} (h : needle <:+: f) (rest : Bytes) :
    ∃ i, strstr needle (f ++ rest) = some i ∧ i + needle.length ≤ f.length := by
  induction f with
  | nil =>
    have hemp : needle = [] := eq_nil_of_infix_nil h
    subst hemp
    exact ⟨0, strstr_zero nil_prefix, le_rfl⟩
  | cons c f ih =>
    by_cases hpre : needle <+: (c :: f) ++ rest
    · exact ⟨0, strstr_zero hpre, by simpa using h.length_le⟩
    · have hlat : needle <:+: f := by
        rcases infix_cons_iff.mp h with hfst | hlat
        · exact absurd (hfst.trans (prefix_append _ _)) hpre
        · exact hlat
      obtain ⟨i, hi, hle⟩ := ih hlat
      refine ⟨i + 1, ?_, by rw [length_cons]; omega⟩
      rw [cons_append] at hpre ⊢
      rw [strstr_cons_of_not hpre, hi]
      rfl

/-! ## Numbers -/

def isdigit (c : UInt8) : Bool := decide (48 ≤ c ∧ c ≤ 57)

/-- A number in decimal digits. -/
def decimal (n : Nat) : Bytes :=
  if n = 0 then [48] else (digits 10 n).reverse.map fun d => ofNat (48 + d)

def decimalValue (digits : Bytes) : Nat := digits.foldl (fun v c => 10 * v + (c.toNat - 48)) 0

theorem digit_toNat {n : Nat} (h : n < 10) : (ofNat (48 + n)).toNat = 48 + n := by
  rw [toNat_ofNat']
  omega

theorem decimalValue_decimal (n : Nat) : decimalValue (decimal n) = n := by
  unfold decimal
  split
  case isTrue h => rw [h]; rfl
  case isFalse h =>
    have hdig : ∀ ds : List Nat, (∀ d ∈ ds, d < 10) →
        decimalValue (ds.reverse.map fun d => ofNat (48 + d)) = ofDigits 10 ds := by
      intro ds hds
      induction ds with
      | nil => rfl
      | cons d ds ih =>
        have hd := digit_toNat (hds d mem_cons_self)
        have hrest := ih fun d' hd' => hds d' (mem_cons_of_mem d hd')
        rw [reverse_cons, map_append, decimalValue, foldl_append,
          ← decimalValue, hrest, ofDigits_cons]
        simp only [map_cons, map_nil, foldl_cons, foldl_nil, hd]
        omega
    rw [hdig _ fun d hd => digits_lt_base (by decide) hd, ofDigits_digits]

theorem decimal_digits (n : Nat) : ∀ c ∈ decimal n, isdigit c = true := by
  intro c hc
  unfold decimal at hc
  split at hc
  case isTrue =>
    rw [mem_singleton.mp hc]
    rfl
  case isFalse =>
    obtain ⟨d, hd, rfl⟩ := mem_map.mp hc
    have hlt : d < 10 := digits_lt_base (by decide) (mem_reverse.mp hd)
    have hnat := digit_toNat hlt
    simp only [isdigit, decide_eq_true_eq, le_iff_toNat_le, hnat]
    exact ⟨by simp, by simp; omega⟩

theorem decimal_ne_nil (n : Nat) : decimal n ≠ [] := by
  unfold decimal
  split
  · exact cons_ne_nil _ _
  · next h => simpa using mt digits_eq_nil_iff_eq_zero.mp h

theorem takeWhile_decimal (n : Nat) {c : UInt8} (hc : isdigit c = false) (rest : Bytes) :
    (decimal n ++ c :: rest).takeWhile isdigit = decimal n := by
  rw [takeWhile_append_of_pos (decimal_digits n), takeWhile_cons_of_neg (by simp [hc]), append_nil]

end OpenVpn.Base
