import Mathlib.Data.List.Basic
import Mathlib.Logic.Function.Basic

/-!
# In-order reassembly of a numbered log

A sender numbers the items of a log from zero. A receiver is offered numbered
items in any order and as often as the network likes, keeps those of the window
`[next, next + n)` it does not hold yet, and takes them out in order.

* `Reassembly.Has` — the item was held at some time; no step forgets it
  (`Has.offer`, `Has.take`), and an offer below the window's end leaves its item
  with the receiver (`has_offer`).
* `Reassembly.Faithful` — what was taken out is the log up to `next` and what
  is held agrees with the log. Kept by a growing log, by every offer of a log
  item and by every take (`Faithful.append`, `Faithful.offer`, `Faithful.take`).
-/

namespace OpenVpn.Base

open Function List

variable {α : Type*}

/-- The receiver: the number of the next item to take, and the items it holds. -/
structure Reassembly (α : Type*) where
  next : Nat
  held : Nat → Option α

namespace Reassembly

variable {n k j : Nat} {x : α} {r : Reassembly α} {log out : List α}

/-- With window `n`, number `k` is in the window and not held. -/
def Wants (r : Reassembly α) (n k : Nat) : Prop :=
  r.next ≤ k ∧ k < r.next + n ∧ r.held k = none

instance (r : Reassembly α) (n k : Nat) : Decidable (r.Wants n k) :=
  inferInstanceAs (Decidable (_ ∧ _ ∧ _))

/-- Offer item `x` under number `k` to a receiver with window `n`. -/
def offer (n k : Nat) (x : α) (r : Reassembly α) : Reassembly α :=
  if r.Wants n k then
    { r with held := update r.held k (some x) }
  else r

/-- Take the next item out. -/
def take (r : Reassembly α) : Reassembly α :=
  { next := r.next + 1, held := update r.held r.next none }

/-- The receiver has, or had, the item of number `k`. -/
def Has (r : Reassembly α) (k : Nat) : Prop := k < r.next ∨ (r.held k).isSome

@[simp] theorem offer_next : (r.offer n k x).next = r.next := by
  unfold offer
  split <;> rfl

@[simp] theorem take_next : r.take.next = r.next + 1 := rfl

theorem held_offer {y : α} (h : (r.offer n k x).held j = some y) :
    r.held j = some y ∨ (j = k ∧ y = x) := by
  unfold offer at h
  split at h
  · change update r.held k (some x) j = some y at h
    rw [update_apply] at h
    split at h
    · rename_i hj
      exact .inr ⟨hj, (Option.some.inj h).symm⟩
    · exact .inl h
  · exact .inl h

theorem held_take {y : α} (h : r.take.held j = some y) : r.held j = some y := by
  change update r.held r.next none j = some y at h
  rw [update_apply] at h
  split at h
  · cases h
  · exact h

theorem Has.offer (h : r.Has j) : (r.offer n k x).Has j := by
  unfold Reassembly.offer
  split
  · rename_i hfree
    rcases h with h | h
    · exact .inl h
    · right
      show (update r.held k (some x) j).isSome
      rw [update_apply]
      split
      · rfl
      · exact h
  · exact h

theorem Has.take (h : r.Has j) : r.take.Has j := by
  show j < r.next + 1 ∨ (update r.held r.next none j).isSome
  rcases h with h | h
  · left; omega
  · by_cases hj : j = r.next
    · left; omega
    · right
      rw [update_of_ne hj]
      exact h

theorem has_offer (h : k < r.next + n) : (r.offer n k x).Has k := by
  by_cases hold : k < r.next
  · exact .inl (by rw [offer_next]; exact hold)
  · right
    unfold offer
    split
    · show (update r.held k (some x) k).isSome
      rw [update_self]
      rfl
    · rename_i hfull
      cases hk : r.held k with
      | some y => rfl
      | none => exact absurd ⟨by omega, h, hk⟩ hfull

/-- `out` was taken from the receiver, and all of it agrees with `log`. -/
structure Faithful (log out : List α) (r : Reassembly α) : Prop where
  next_le : r.next ≤ log.length
  out_eq : out = log.take r.next
  held : ∀ k x, r.held k = some x → log[k]? = some x

section

variable (h : Faithful log out r)

include h

theorem Faithful.append (rest : List α) : Faithful (log ++ rest) out r where
  next_le := by
    rw [length_append]
    exact Nat.le_add_right_of_le h.next_le
  out_eq := by
    rw [take_append_of_le_length h.next_le]
    exact h.out_eq
  held := by
    intro k x hk
    have hlog := h.held k x hk
    have hlt := (List.getElem?_eq_some_iff.mp hlog).1
    rw [getElem?_append_left hlt]
    exact hlog

theorem Faithful.offer (hx : log[k]? = some x) :
    Faithful log out (r.offer n k x) where
  next_le := by rw [offer_next]; exact h.next_le
  out_eq := by rw [offer_next]; exact h.out_eq
  held := by
    intro j y hj
    rcases held_offer hj with hj | ⟨rfl, rfl⟩
    · exact h.held j y hj
    · exact hx

theorem Faithful.take (hx : r.held r.next = some x) :
    Faithful log (out ++ [x]) r.take where
  next_le := (List.getElem?_eq_some_iff.mp (h.held r.next x hx)).1
  out_eq := by
    rw [take_next, take_add_one, h.held r.next x hx, h.out_eq]
    rfl
  held := by
    intro j y hj
    exact h.held j y (held_take hj)

theorem Faithful.out_isPrefix : out <+: log := by
  rw [h.out_eq]
  exact take_prefix _ _

end

end Reassembly

end OpenVpn.Base
