import Mathlib.Data.List.Nodup

/-!
# Lists of the most recent elements

A list of bounded length without duplicates, the most recent element first. A use of
an element puts it in front and, if the list gets too long, drops the last one.

* `touch` — one use.
* `foldr_touch` — a row of uses leaves the first elements of the row followed by the
  old list, each at its first occurrence.
* `prefix_foldr_touch` — a row of different elements comes first, whatever the old list.
-/

namespace OpenVpn.Base

open List

variable {α : Type*} [DecidableEq α]

/-- Put `x` in front of a list that keeps `k` elements. -/
def touch (k : Nat) (x : α) (l : List α) : List α := (x :: l.erase x).take k

/-! ## First occurrences -/

theorem eraseDups_filter (p : α → Bool) (l : List α) :
    (l.filter p).eraseDups = l.eraseDups.filter p := by
  -- `eraseDups` recurses on a filtered tail
  generalize hn : l.length = n
  induction n using Nat.strongRecOn generalizing l with
  | _ n ih =>
    cases l with
    | nil => rfl
    | cons a l =>
      subst hn
      have hlt : (l.filter fun b => !b == a).length < (a :: l).length :=
        Nat.lt_succ_of_le (length_filter_le _ l)
      have htail := ih _ hlt (l.filter fun b => !b == a) rfl
      rw [eraseDups_cons]
      cases hp : p a with
      | true =>
        rw [filter_cons_of_pos hp, filter_cons_of_pos hp, eraseDups_cons, ← htail, filter_comm]
      | false =>
        have hskip : (l.filter fun b => !b == a).filter p = l.filter p := by
          rw [filter_filter]
          apply filter_congr
          intro b _
          cases hb : p b with
          | false => rfl
          | true =>
            have hne : b ≠ a := by
              intro heq
              rw [heq, hp] at hb
              cases hb
            simpa using hne
        rw [filter_cons_of_neg (by simp [hp]), filter_cons_of_neg (by simp [hp]), ← htail, hskip]

theorem nodup_eraseDups (l : List α) : l.eraseDups.Nodup := by
  induction l with
  | nil => exact nodup_nil
  | cons a l ih =>
    rw [eraseDups_cons, eraseDups_filter, nodup_cons]
    exact ⟨by simp, ih.filter _⟩

theorem eraseDups_of_nodup {l : List α} (h : l.Nodup) : l.eraseDups = l := by
  induction l with
  | nil => rfl
  | cons a l ih =>
    obtain ⟨ha, hl⟩ := nodup_cons.mp h
    rw [eraseDups_cons, eraseDups_filter, ih hl]
    show a :: l.filter (· != a) = a :: l
    rw [← hl.erase_eq_filter, erase_of_not_mem ha]

/-! ## A row of uses -/

theorem touch_take (k : Nat) (x : α) {l : List α} (h : l.Nodup) :
    touch k x (l.take k) = (x :: l.erase x).take k := by
  cases k with
  | zero => rfl
  | succ k =>
    unfold touch
    rw [take_succ_cons, take_succ_cons, cons_inj_right]
    by_cases hlong : k + 1 < l.length
    · have hlen : k ≤ ((l.take (k + 1)).erase x).length := by
        have := le_length_erase (l := l.take (k + 1)) (a := x)
        rw [length_take] at this
        omega
      rw [h.erase_eq_filter, (h.sublist (take_sublist _ _)).erase_eq_filter] at *
      conv_rhs => rw [← take_append_drop (k + 1) l, filter_append]
      rw [take_append_of_le_length hlen]
    · rw [take_of_length_le (Nat.le_of_not_lt hlong)]

/-- **A row of uses**, the last one first. -/
theorem foldr_touch (k : Nat) (row : List α) {l : List α} (h : l.Nodup) (hl : l.length ≤ k) :
    row.foldr (touch k) l = ((row ++ l).eraseDups).take k := by
  induction row with
  | nil => rw [nil_append, eraseDups_of_nodup h, take_of_length_le hl, foldr_nil]
  | cons x row ih =>
    have hnd := nodup_eraseDups (row ++ l)
    rw [foldr_cons, ih, touch_take k x hnd, cons_append, eraseDups_cons,
      eraseDups_filter, hnd.erase_eq_filter]
    rfl

theorem prefix_foldr_touch {k : Nat} {row : List α} (hrow : row.Nodup) (hk : row.length ≤ k)
    (l : List α) : row <+: row.foldr (touch k) l := by
  induction row with
  | nil => exact nil_prefix
  | cons x row ih =>
    obtain ⟨hx, hrest⟩ := nodup_cons.mp hrow
    obtain ⟨t, ht⟩ := ih hrest (Nat.le_of_succ_le hk)
    rw [foldr_cons, ← ht]
    unfold touch
    rw [erase_append_right _ hx, ← cons_append]
    exact prefix_take_iff.mpr ⟨prefix_append _ _, hk⟩

theorem mem_foldr_touch {k : Nat} {row l : List α} {y : α} (h : y ∈ row.foldr (touch k) l) :
    y ∈ row ∨ y ∈ l := by
  induction row with
  | nil => exact .inr h
  | cons x row ih =>
    rcases mem_cons.mp (mem_of_mem_take h) with rfl | h
    · exact .inl mem_cons_self
    · exact (ih (mem_of_mem_erase h)).imp_left (mem_cons_of_mem x)

end OpenVpn.Base
