import Mathlib.Data.Finset.Card
import Mathlib.Data.Finset.Max
import Mathlib.Data.List.TakeWhile
import OpenVpn.Base.CString
import OpenVpn.Util.Buffer

/-!
# The environment of scripts

An environment set is a list of strings `name=value`. Two strings belong to the same variable
if their texts before the first `=` agree. `setenv_str_incr` tries `name`, `name_1`, … until
one is free; `setenv_str` then drops the characters of that name that a variable cannot have.

* `envSetGet_add` — adding a string changes one variable.
* `setenvStrIncr_eq` — one call adds a string for the first slot that looks free.
* `setenv_str_incr_iff` — when a sequence of calls never overwrites.
-/

namespace OpenVpn

open Base List Nat

def isalnum (c : UInt8) : Bool :=
  isdigit c || decide (65 ≤ c ∧ c ≤ 90) || decide (97 ≤ c ∧ c ≤ 122)

def ccName (c : UInt8) : Bool := isalnum c || c == 95

/-- The next character as `env_string_equal` sees it: a name ends at `=`. -/
def envChar : Bytes → UInt8
  | [] => 0
  | c :: _ => if c = 61 then 0 else c

def envStringEqual : Bytes → Bytes → Bool
  | [], s₂ => envChar s₂ == 0
  | c :: s₁, s₂ =>
    if envChar (c :: s₁) = 0 ∧ envChar s₂ = 0 then true
    else if envChar (c :: s₁) ≠ envChar s₂ then false
    else envStringEqual s₁ s₂.tail

def removeEnvItem (str : Bytes) (list : List Bytes) : Bool × List Bytes :=
  (list.any (envStringEqual · str), list.eraseP (envStringEqual · str))

def envSetAdd (es : List Bytes) (str : Bytes) : List Bytes := str :: (removeEnvItem str es).2

def envSetGet (es : List Bytes) (name : Bytes) : Option Bytes := es.find? (envStringEqual · name)

/-- `string_mod`: a character outside of the class is replaced, and dropped if by NUL. -/
def stringMod (ok : UInt8 → Bool) (replace : UInt8) (str : Bytes) : Bytes :=
  (str.map fun c => if ok c then c else replace).filter (· ≠ 0)

def setenvStrEx (es : List Bytes) (name : Bytes) (value : Option Bytes)
    (nameOk : UInt8 → Bool) (nameReplace : UInt8) (valueOk : UInt8 → Bool) (valueReplace : UInt8) :
    Option (List Bytes) :=
  if 1 < name.length then
    some <| match value with
    | some v =>
      envSetAdd es (stringMod nameOk nameReplace name ++ 61 :: stringMod valueOk valueReplace v)
    | none => (removeEnvItem (stringMod nameOk nameReplace name) es).2
  else none

def setenvStr (es : List Bytes) (name : Bytes) (value : Option Bytes) : Option (List Bytes) :=
  setenvStrEx es name value ccName 0 ccPrint 0

/-- The names `setenv_str_incr` tries. -/
def slotName (name : Bytes) (k : Nat) : Bytes := if k = 0 then name else name ++ 95 :: decimal k

/-- The loop of `setenv_str_incr`, and the counter it ends with. -/
def incrName (es : List Bytes) (name tmpname : Bytes) (counter : Nat) : Bytes × Nat :=
  if envSetGet es tmpname ≠ none ∧ counter < 1000 then
    incrName es name (slotName name counter) (counter + 1)
  else (tmpname, counter)
  termination_by 1000 - counter

def setenvStrIncr (es : List Bytes) (name value : Bytes) : Option (List Bytes) :=
  let (tmpname, counter) := incrName es name name 1
  if counter < 1000 then setenvStr es tmpname (some value) else some es

/-! ## Variables -/

/-- The text before the first `=`. -/
def envName (str : Bytes) : Bytes := str.takeWhile fun c => c ≠ 0 ∧ c ≠ 61

variable {es es' : List Bytes} {str name value s₁ s₂ : Bytes} {c : UInt8} {k : Nat}

theorem envName_cons : envName (c :: str) =
    if envChar (c :: str) = 0 then [] else c :: envName str := by
  simp only [envName, envChar, takeWhile_cons, decide_eq_true_eq]
  split <;> grind

theorem envStringEqual_iff : envStringEqual s₁ s₂ = true ↔ envName s₁ = envName s₂ := by
  have hnil : envName [] = [] := rfl
  induction s₁ generalizing s₂ with
  | nil => cases s₂ <;> grind [envStringEqual, envChar, envName_cons]
  | cons c s₁ ih => cases s₂ <;> grind [envStringEqual, envChar, envName_cons]

theorem envSetGet_add : envSetGet (envSetAdd es str) name =
    if envName str = envName name then some str else envSetGet es name := by
  have hrest : envName str ≠ envName name →
      (es.eraseP (envStringEqual · str)).find? (envStringEqual · name) =
        es.find? (envStringEqual · name) := by
    intro hne
    induction es with
    | nil => rfl
    | cons x es ih => grind [envStringEqual_iff]
  grind [envSetGet, envSetAdd, removeEnvItem, envStringEqual_iff]

theorem envName_field (hname : ∀ c ∈ name, ccName c = true) (rest : Bytes) :
    envName (name ++ 61 :: rest) = name ∧ envName name = name := by
  have hall : ∀ c ∈ name, decide (c ≠ 0 ∧ c ≠ 61) = true := by
    intro c hc
    have := hname c hc
    grind [ccName, isalnum, isdigit]
  unfold envName
  rw [takeWhile_append_of_pos hall, takeWhile_cons_of_neg (by simp), append_nil,
    takeWhile_eq_self_iff.mpr hall]
  exact ⟨rfl, rfl⟩

/-- One variable is new, with its value; all others are as before. -/
def AddsVariable (es es' : List Bytes) (value : Bytes) : Prop :=
  ∃ stored, envName stored = stored ∧ envSetGet es stored = none ∧ ∀ name, envSetGet es' name =
    if envName name = stored then some (stored ++ 61 :: value) else envSetGet es name

theorem addsVariable_add (hname : ∀ c ∈ name, ccName c = true) :
    AddsVariable es (envSetAdd es (name ++ 61 :: value)) value ↔ envSetGet es name = none := by
  obtain ⟨hfld, hself⟩ := envName_field hname value
  constructor
  · rintro ⟨stored, hstored, hnew, hget⟩
    have := hget stored
    grind [envSetGet_add]
  · refine fun hnew => ⟨name, hself, hnew, fun x => ?_⟩
    simp only [envSetGet_add, hfld, eq_comm]

theorem not_addsVariable_self : ¬AddsVariable es es value := by
  rintro ⟨stored, hstored, hnew, hget⟩
  have := hget stored
  grind

/-! ## The slots of a name -/

/-- The slots that look free. -/
def freeSlots (es : List Bytes) (name : Bytes) : Finset Nat :=
  (Finset.range 999).filter fun k => envSetGet es (slotName name k) = none

/-- The name under which `setenv_str` stores what is meant for a slot. -/
def storedName (name : Bytes) (k : Nat) : Bytes := stringMod ccName 0 (slotName name k)

theorem ccName_storedName : ∀ c ∈ storedName name k, ccName c = true := by
  grind [storedName, stringMod]

theorem envName_storedName (name : Bytes) (k : Nat) (rest : Bytes) :
    envName (storedName name k ++ 61 :: rest) = storedName name k ∧
      envName (storedName name k) = storedName name k :=
  envName_field ccName_storedName rest

theorem storedName_eq (hname : ∀ c ∈ name, ccName c = true) :
    storedName name k = slotName name k := by
  have hslot : ∀ c ∈ slotName name k, ccName c = true ∧ c ≠ 0 := by
    intro c hc
    have := decimal_digits k c
    grind [slotName, ccName, isalnum, isdigit]
  have hmap : (slotName name k).map (fun c => if ccName c then c else 0) = slotName name k :=
    (map_congr_left fun c hc => if_pos (hslot c hc).1).trans (map_id' _)
  rw [storedName, stringMod, hmap, filter_eq_self]
  exact fun c hc => by simpa using (hslot c hc).2

theorem slotName_inj {i j : Nat} (h : slotName name i = slotName name j) : i = j := by
  have hdecimal : decimal i = decimal j → i = j := fun h => by
    rw [← decimalValue_decimal i, h, decimalValue_decimal]
  unfold slotName at h
  split at h <;> split at h <;> simp_all

theorem incrName_eq (es : List Bytes) (name : Bytes) (hk : k ≤ 999) : ∃ j ≤ 999,
    incrName es name (slotName name k) (k + 1) = (slotName name j, j + 1) ∧
    (∀ i, k ≤ i → i < j → envSetGet es (slotName name i) ≠ none) ∧
    (j < 999 → envSetGet es (slotName name j) = none) := by
  induction hrounds : 999 - k generalizing k with
  | zero => exact ⟨k, hk, by rw [incrName]; grind, by grind⟩
  | succ n ih =>
  rw [incrName]
  split
  case isTrue h =>
    obtain ⟨j, hj, heq, hbef, hfree⟩ := @ih (k + 1) (by omega) (by omega)
    refine ⟨j, hj, heq, fun i hi hij => ?_, hfree⟩
    rcases hi.eq_or_lt with rfl | hlt
    · exact h.1
    · exact hbef i hlt hij
  case isFalse h => exact ⟨k, hk, rfl, fun i hi hik => by omega, fun hlt => by grind⟩

/-- **One call.** The string goes to the first slot that looks free. -/
theorem setenvStrIncr_eq (es : List Bytes) (value : Bytes) (hname : 2 ≤ name.length) :
    (freeSlots es name = ∅ ∧ setenvStrIncr es name value = some es) ∨
    ∃ j ∈ freeSlots es name, (∀ i ∈ freeSlots es name, j ≤ i) ∧ setenvStrIncr es name value =
      some (envSetAdd es (storedName name j ++ 61 :: stringMod ccPrint 0 value)) := by
  obtain ⟨j, hj, heq, hbef, hfree⟩ := incrName_eq es name (zero_le 999)
  have hlen : 1 < (slotName name j).length := by grind [slotName]
  have hmem : ∀ i ∈ freeSlots es name, j ≤ i := by grind [freeSlots]
  rw [setenvStrIncr, show incrName es name name 1 = _ from heq]
  rcases hj.eq_or_lt with rfl | hlt
  · refine .inl ⟨?_, rfl⟩
    grind [freeSlots]
  · refine .inr ⟨j, by grind [freeSlots], hmem, ?_⟩
    simp only [if_pos (show j + 1 < 1000 by omega), setenvStr, setenvStrEx, if_pos hlen]
    rfl

/-- The calls succeed, and each adds a variable with its value. -/
def NeverOverwrites (name : Bytes) : List Bytes → List Bytes → Prop
  | _, [] => True
  | es, v :: vs => ∃ es', setenvStrIncr es name v = some es' ∧
    AddsVariable es es' (stringMod ccPrint 0 v) ∧ NeverOverwrites name es' vs

/-- The first slot that looks free, under whose name nothing is stored yet. -/
def Fits (es : List Bytes) (name : Bytes) (j : Nat) : Prop :=
  j ∈ freeSlots es name ∧ (∀ i ∈ freeSlots es name, j ≤ i) ∧
    envSetGet es (storedName name j) = none

theorem neverOverwrites_cons (hname : 2 ≤ name.length) {vs : List Bytes} :
    NeverOverwrites name es (value :: vs) ↔ ∃ j, Fits es name j ∧ NeverOverwrites name
      (envSetAdd es (storedName name j ++ 61 :: stringMod ccPrint 0 value)) vs := by
  rw [NeverOverwrites]
  rcases setenvStrIncr_eq es value hname with ⟨hnone, heq⟩ | ⟨j, hj, hmin, heq⟩
  · simp [heq, not_addsVariable_self, Fits, hnone]
  · simp only [heq, Option.some.injEq, exists_eq_left', addsVariable_add ccName_storedName]
    refine ⟨fun h => ⟨j, ⟨hj, hmin, h.1⟩, h.2⟩, fun ⟨i, ⟨hi, hi', hget⟩, hrest⟩ => ?_⟩
    obtain rfl : i = j := le_antisymm (hi' j hj) (hmin i hi)
    exact ⟨hget, hrest⟩

/-- Clean names: there must be a free slot for each value. -/
theorem neverOverwrites_clean (hname : 2 ≤ name.length) (hcln : ∀ c ∈ name, ccName c = true)
    (values : List Bytes) :
    NeverOverwrites name es values ↔ values.length ≤ (freeSlots es name).card := by
  induction values generalizing es with
  | nil => simp [NeverOverwrites]
  | cons v vs ih =>
    have herase : ∀ j v, freeSlots (envSetAdd es (storedName name j ++ 61 :: v)) name =
        (freeSlots es name).erase j := by
      intro j v
      ext i
      have hinj := @slotName_inj name i j
      have hfld := envName_storedName name j v
      have hself := envName_storedName name i v
      grind [freeSlots, envSetGet_add, storedName_eq]
    rw [neverOverwrites_cons hname]
    simp only [ih, herase]
    constructor
    · rintro ⟨j, ⟨hj, -, -⟩, hle⟩
      have := Finset.card_erase_add_one hj
      simp only [length_cons]
      omega
    · intro hle
      have hne : (freeSlots es name).Nonempty := Finset.card_pos.mp (zero_lt_of_lt hle)
      have hj := (freeSlots es name).min'_mem hne
      refine ⟨_, ⟨hj, fun i hi => Finset.min'_le _ i hi, ?_⟩, ?_⟩
      · rw [storedName_eq hcln]
        exact (Finset.mem_filter.mp hj).2
      · rw [Finset.card_erase_of_mem hj]
        exact le_sub_one_of_lt hle

/-- A name with other characters: if a slot is found again, all its slots are. -/
theorem envName_slotName (hname : ¬∀ c ∈ name, ccName c = true) {j : Nat}
    (h : storedName name j = envName (slotName name j)) {i : Nat} :
    envName (slotName name i) = envName (slotName name j) := by
  by_cases hend : ∀ c ∈ name, decide (c ≠ 0 ∧ c ≠ 61) = true
  · have hslot : envName (slotName name j) = slotName name j := by
      refine takeWhile_eq_self_iff.mpr fun c hc => ?_
      have := decimal_digits j c
      have := hend c
      grind [slotName, isdigit]
    obtain ⟨c, hc, hbad⟩ : ∃ c ∈ name, ccName c ≠ true := by simpa using hname
    have hmem : c ∈ slotName name j := by grind [slotName]
    rw [← hslot, ← h] at hmem
    exact absurd (ccName_storedName c hmem) hbad
  · have hname : ∀ k, envName (slotName name k) = envName name := by
      intro k
      unfold slotName
      split
      · rfl
      · rw [envName, takeWhile_append, if_neg]
        · rfl
        · intro hlen
          exact hend (takeWhile_eq_self_iff.mp (( takeWhile_prefix _).eq_of_length hlen))
    rw [hname, hname]

/-- **Incremental variables.** Calls with one name never overwrite exactly if there are none,
or one that fits, or the name has only characters of names and there are no more calls than
free slots. -/
theorem setenv_str_incr_iff (es values : List Bytes) (hname : 2 ≤ name.length) :
    NeverOverwrites name es values ↔ values = [] ∨ values.length = 1 ∧ (∃ j, Fits es name j) ∨
      (∀ c ∈ name, ccName c = true) ∧ values.length ≤ (freeSlots es name).card := by
  by_cases hclean : ∀ c ∈ name, ccName c = true
  · rw [neverOverwrites_clean hname hclean]
    refine ⟨fun h => .inr (.inr ⟨hclean, h⟩), ?_⟩
    rintro (rfl | ⟨hone, j, hj⟩ | h)
    · exact zero_le _
    · rw [hone]
      exact Finset.card_pos.mpr ⟨j, hj.1⟩
    · exact h.2
  · match values with
    | [] => simp [NeverOverwrites]
    | [v] =>
      rw [neverOverwrites_cons hname]
      simp [NeverOverwrites, hclean]
    | v :: w :: vs =>
      -- the second call finds the same slot free, or none
      simp only [neverOverwrites_cons hname, hclean]
      suffices h : ∀ j, Fits es name j → ∀ i, ¬Fits (envSetAdd es
          (storedName name j ++ 61 :: stringMod ccPrint 0 v)) name i by grind
      rintro j ⟨hj, hmin, hnew⟩ i ⟨hi, hmin', hnew'⟩
      have hfield := envName_storedName name j (stringMod ccPrint 0 v)
      have hfree : i ∈ freeSlots es name ∧ storedName name j ≠ envName (slotName name i) := by
        grind [freeSlots, envSetGet_add]
      by_cases heq : storedName name j = envName (slotName name j)
      · exact hfree.2 (heq.trans (envName_slotName hclean heq).symm)
      · have hj' : i ≤ j := hmin' j (by grind [freeSlots, envSetGet_add])
        obtain rfl : i = j := le_antisymm hj' (hmin i hfree.1)
        grind [envSetGet_add]

/-- Two organisational units of a certificate. -/
theorem setenv_str_incr_two : NeverOverwrites (ascii "X509_0_OU") [] [[65], [66]] :=
  (setenv_str_incr_iff [] _ (by decide)).mpr
    (.inr (.inr ⟨all_eq_true.mp rfl, by simp [freeSlots, envSetGet]⟩))

/-- The field `O-U` is stored as `OU`, and looked up as `O-U` again. -/
theorem setenv_str_incr_overwrites : setenvStrIncr [] (ascii "O-U") [65] = some [ascii "OU=A"] ∧
    setenvStrIncr [ascii "OU=A"] (ascii "O-U") [66] = some [ascii "OU=B"] := by
  constructor <;> (rw [setenvStrIncr, incrName, if_neg (by decide)]; rfl)

end OpenVpn
