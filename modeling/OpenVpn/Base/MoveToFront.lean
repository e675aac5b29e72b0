import Mathlib.Data.List.Basic
import Mathlib.Data.List.GetD

/-!
# Lists searched by key

A bucket of a hash table is a list that is searched from its head; a successful
search moves what it found to the front. The elements are pairwise apart in a
relation `R`, and a search predicate `q` can be met by one of them at most
(`Exact R q`). Then what a search finds does not depend on the order of the
list, and is decided by membership:

* `promote` — the search that moves its hit to the front; `promote_perm`.
* `find?_eq_some_iff_mem` — a search finds exactly the member that meets it.
* `mem_eraseP_iff` — erasing the hit leaves the members that do not meet it.
* `countP_flatten_set` — what is counted over all buckets when one is exchanged.
-/

namespace OpenVpn.Base

open List

variable {α : Type*}

/-- Move the first element that meets `p` to the front. -/
def promote (p : α → Bool) (l : List α) : List α :=
  match l.find? p with
  | none => l
  | some x => x :: l.eraseP p

/-- No two elements that are apart in `R` meet `q` both. -/
def Exact (R : α → α → Prop) (q : α → Bool) : Prop := ∀ x y, q x → q y → ¬ R x y

theorem cons_eraseP_perm {p : α → Bool} {l : List α} {x : α} (h : l.find? p = some x) :
    (x :: l.eraseP p).Perm l := by
  induction l with
  | nil => cases h
  | cons a l ih =>
    cases hp : p a with
    | true =>
      rw [find?_cons_of_pos hp] at h
      cases h
      rw [eraseP_cons_of_pos hp]
    | false =>
      rw [find?_cons_of_neg (by simp [hp])] at h
      rw [eraseP_cons_of_neg (by simp [hp])]
      exact (List.Perm.swap a x _).trans ((ih h).cons a)

theorem promote_of_find? {p : α → Bool} {l : List α} {x : α} (h : l.find? p = some x) :
    promote p l = x :: l.eraseP p := by
  unfold promote
  rw [h]

theorem promote_perm (p : α → Bool) (l : List α) : (promote p l).Perm l := by
  unfold promote
  cases h : l.find? p with
  | none => rfl
  | some x => exact cons_eraseP_perm h

variable {R : α → α → Prop} {q : α → Bool} {l : List α}

theorem find?_eq_some_iff_mem (hq : Exact R q) (hl : l.Pairwise R) (x : α) :
    l.find? q = some x ↔ x ∈ l ∧ q x := by
  induction l with
  | nil => simp
  | cons a l ih =>
    rw [pairwise_cons] at hl
    cases ha : q a with
    | true =>
      rw [find?_cons_of_pos ha, Option.some.injEq]
      constructor
      · rintro rfl
        exact ⟨mem_cons_self, ha⟩
      · rintro ⟨hx, hqx⟩
        cases mem_cons.mp hx with
        | inl h => exact h.symm
        | inr h => exact absurd (hl.1 x h) (hq a x ha hqx)
    | false =>
      rw [find?_cons_of_neg (by simp [ha]), ih hl.2, mem_cons]
      constructor
      · rintro ⟨hx, hqx⟩
        exact ⟨.inr hx, hqx⟩
      · rintro ⟨rfl | hx, hqx⟩
        · rw [ha] at hqx
          cases hqx
        · exact ⟨hx, hqx⟩

theorem mem_eraseP_iff (hq : Exact R q) (hl : l.Pairwise R) (x : α) :
    x ∈ l.eraseP q ↔ x ∈ l ∧ ¬ q x := by
  induction l with
  | nil => simp
  | cons a l ih =>
    rw [pairwise_cons] at hl
    cases ha : q a with
    | true =>
      rw [eraseP_cons_of_pos ha, mem_cons]
      constructor
      · intro hx
        exact ⟨.inr hx, fun hqx => hq a x ha hqx (hl.1 x hx)⟩
      · rintro ⟨rfl | hx, hqx⟩
        · exact absurd ha hqx
        · exact hx
    | false =>
      rw [eraseP_cons_of_neg (by simp [ha]), mem_cons, mem_cons, ih hl.2]
      constructor
      · rintro (rfl | ⟨hx, hqx⟩)
        · exact ⟨.inl rfl, by simp [ha]⟩
        · exact ⟨.inr hx, hqx⟩
      · rintro ⟨rfl | hx, hqx⟩
        · exact .inl rfl
        · exact .inr ⟨hx, hqx⟩

theorem countP_flatten_set {L : List (List α)} {i : Nat} (hi : i < L.length) (b : List α)
    (p : α → Bool) :
    (L.set i b).flatten.countP p + (L.getD i []).countP p = L.flatten.countP p + b.countP p := by
  have hspl : L.take i ++ L.getD i [] :: L.drop (i + 1) = L := by
    rw [getD_eq_getElem _ _ hi, getElem_cons_drop, take_append_drop]
  have hold : (L.take i).flatten.countP p +
      ((L.getD i []).countP p + (L.drop (i + 1)).flatten.countP p) = L.flatten.countP p := by
    rw [← countP_append, ← countP_append, ← flatten_cons, ← flatten_append, hspl]
  have hnew : (L.set i b).flatten.countP p = (L.take i).flatten.countP p +
      (b.countP p + (L.drop (i + 1)).flatten.countP p) := by
    rw [set_eq_take_append_cons_drop, if_pos hi, flatten_append, flatten_cons,
      countP_append, countP_append]
  omega

end OpenVpn.Base
