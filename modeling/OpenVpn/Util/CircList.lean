import Mathlib.Algebra.Group.Nat.Defs
import Mathlib.Algebra.Order.Group.Int
import Mathlib.Data.List.Rotate
import Mathlib.Data.Nat.Bits
import Mathlib.Data.Nat.ModEq

/-!
# Small integers and circular lists (`integer.h`, `circ_list.h`)

A fixed array with a head that moves *down* on every push, so that index `0`
is always the item pushed last. The macros address the array through
`modulo_add` and check indices with `index_verify`.

`CircList.items` is the view the clients reason with: the items from the newest
to the oldest. Every macro is characterised by what it does to `items`
(`items_push`, `item_eq_items`, `setItem_items`, …); no client unfolds the
array arithmetic.
-/

namespace OpenVpn

open List Nat Int

/-! ## Arithmetic on a circle and powers of two -/

/-- `modulo_add`: `x + y` on a circle of circumference `mod`. -/
def moduloAdd (x y mod : Int) : Int :=
  let sum := x + y
  let sum := if sum ≥ mod then sum - mod else sum
  if sum < 0 then sum + mod else sum

/-- The condition `modulo_add` asserts of its arguments. -/
def ModuloAddOk (x y mod : Int) : Prop :=
  0 ≤ x ∧ x < mod ∧ -mod ≤ y ∧ y ≤ mod

theorem moduloAdd_eq_emod {x y mod : Int} (h : ModuloAddOk x y mod) :
    moduloAdd x y mod = (x + y) % mod := by
  obtain ⟨h0, hx, hy, hy'⟩ := h
  simp only [moduloAdd]
  by_cases hge : x + y ≥ mod
  · rw [if_pos hge, if_neg (by omega), ← sub_emod_right,
      emod_eq_of_lt (by omega) (by omega)]
  · rw [if_neg hge]
    by_cases hneg : x + y < 0
    · rw [if_pos hneg, ← add_emod_right, emod_eq_of_lt (by omega) (by omega)]
    · rw [if_neg hneg, emod_eq_of_lt (by omega) (by omega)]

/-- `modulo_subtract`: `x - y` on a circle of circumference `mod`, the shorter way. -/
def moduloSubtract (x y mod : Int) : Int :=
  let d1 := x - y
  let d2 := (if x > y then -mod else mod) + d1
  if d1.natAbs > d2.natAbs then d2 else d1

def constrainInt (x min max : Int) : Int :=
  if max < min then min else if x < min then min else if max < x then max else x

/-- The loop of `adjust_power_of_2`; `width` doublings take the value out of
`size_t`, which the source asserts does not happen. -/
def adjustPowerOf2Loop : (width ret u : Nat) → Option Nat
  | 0, _, _ => none
  | width + 1, ret, u =>
    if ret < u then adjustPowerOf2Loop width (2 * ret) u else some ret

def adjustPowerOf2 (u : Nat) : Option Nat := adjustPowerOf2Loop 64 1 u

theorem adjustPowerOf2Loop_pow {width k u n : Nat}
    (h : adjustPowerOf2Loop width (2 ^ k) u = some n) : ∃ k', n = 2 ^ k' := by
  induction width generalizing k with
  | zero => cases h
  | succ width ih =>
    unfold adjustPowerOf2Loop at h
    split at h
    · rw [← pow_succ'] at h
      exact ih h
    · cases h
      exact ⟨k, rfl⟩

/-! ## Circular lists -/

/-- `CIRC_LIST(name, type)`. The capacity `x_cap` is the length of the array;
the two bounds are what `modulo_add` asserts of the head and what
`CIRC_LIST_PUSH` keeps of the size. -/
structure CircList (α : Type) where
  xHead : Nat
  xSize : Nat
  xList : List α
  head_lt : xHead < xList.length
  size_le : xSize ≤ xList.length
deriving DecidableEq, Repr

namespace CircList

variable {α : Type}

def xCap (l : CircList α) : Nat := l.xList.length

/-- The array index one below the head, computed as `CIRC_LIST_PUSH` does. -/
def pushHead (l : CircList α) : Nat := (moduloAdd l.xHead (-1) l.xCap).toNat

theorem pushHead_eq (l : CircList α) :
    l.pushHead = if l.xHead = 0 then l.xCap - 1 else l.xHead - 1 := by
  have hlt : l.xHead < l.xCap := l.head_lt
  have hsum : ¬ ((l.xHead : Int) + -1 ≥ l.xCap) := by omega
  unfold pushHead
  simp only [moduloAdd, if_neg hsum]
  by_cases h0 : l.xHead = 0
  · rw [if_pos h0, if_pos (by omega)]
    omega
  · rw [if_neg h0, if_neg (by omega)]
    omega

theorem pushHead_lt (l : CircList α) : l.pushHead < l.xList.length := by
  have := l.head_lt
  rw [pushHead_eq, xCap]
  split <;> omega

def push (l : CircList α) (item : α) : CircList α where
  xHead := l.pushHead
  xSize := min (l.xSize + 1) l.xCap
  xList := l.xList.set l.pushHead item
  head_lt := by simpa using l.pushHead_lt
  size_le := by rw [length_set]; exact min_le_right _ _

/-- `CIRC_LIST_INDEX`; `none` is the fatal error of `index_verify`. -/
def index (l : CircList α) (i : Int) : Option Nat :=
  if i < 0 ∨ i ≥ l.xSize then none else some (moduloAdd l.xHead i l.xCap).toNat

def item (l : CircList α) (i : Int) : Option α :=
  match l.index i with
  | none => none
  | some k => l.xList[k]?

/-- `CIRC_LIST_ITEM` as an assignment target. -/
def setItem (l : CircList α) (i : Int) (v : α) : Option (CircList α) :=
  match l.index i with
  | none => none
  | some k => some
      { l with
        xList := l.xList.set k v
        head_lt := by simpa using l.head_lt
        size_le := by simpa using l.size_le }

/-- `CIRC_LIST_RESET`. The array keeps its stale contents. -/
def reset (l : CircList α) : CircList α where
  xHead := 0
  xSize := 0
  xList := l.xList
  head_lt := lt_of_le_of_lt (zero_le _) l.head_lt
  size_le := zero_le _

/-- `CIRC_LIST_ALLOC` of a positive size; `zero` is the all-zero item. -/
def alloc (size : Nat) (zero : α) : Option (CircList α) :=
  if h : 0 < size then
    some { xHead := 0, xSize := 0, xList := replicate size zero
           head_lt := by simpa using h, size_le := zero_le _ }
  else none

/-! ## The list of items, newest first -/

/-- The items, from the one pushed last to the oldest. -/
def items (l : CircList α) : List α := (l.xList.rotate l.xHead).take l.xSize

section

variable (l : CircList α)

include l

@[simp] theorem items_length : l.items.length = l.xSize := by
  simp [items, l.size_le]

theorem xSize_le_xCap : l.xSize ≤ l.xCap := l.size_le

theorem xCap_pos : 0 < l.xCap :=
  lt_of_le_of_lt (zero_le _) l.head_lt

@[simp] theorem items_reset : l.reset.items = [] := rfl

@[simp] theorem xCap_reset : l.reset.xCap = l.xCap := rfl

@[simp] theorem xCap_push (x : α) : (l.push x).xCap = l.xCap := by
  simp [push, xCap]

end

theorem alloc_items {size : Nat} {zero : α} {l : CircList α}
    (h : alloc size zero = some l) : l.items = [] ∧ l.xCap = size := by
  unfold alloc at h
  split at h
  · cases h
    exact ⟨rfl, by simp [xCap]⟩
  · cases h

theorem alloc_isSome {size : Nat} (zero : α) (h : 0 < size) : ∃ l, alloc size zero = some l := by
  simp [alloc, h]

section

variable (l : CircList α)

include l

theorem rotate_push (x : α) :
    (l.push x).xList.rotate (l.push x).xHead = x :: (l.xList.rotate l.xHead).dropLast := by
  have hlt := l.head_lt
  have hp := l.pushHead_eq
  have hplt := l.pushHead_lt
  apply ext_getElem
  · simp [push]
    omega
  · intro i h1 h2
    have hi : i < l.xList.length := by simpa [push] using h1
    simp only [push, getElem_rotate, length_set]
    cases i with
    | zero => simp [mod_eq_of_lt hplt]
    | succ i =>
      -- the cell after the new head is the old head's cell
      have hne : l.pushHead ≠ (i + 1 + l.pushHead) % l.xList.length := by
        rcases lt_or_ge (i + 1 + l.pushHead) l.xList.length with h | h
        · rw [mod_eq_of_lt h]; omega
        · rw [mod_eq_sub_mod h, mod_eq_of_lt (by omega)]; omega
      have hidx : (i + 1 + l.pushHead) % l.xList.length = (i + l.xHead) % l.xList.length := by
        rw [hp, xCap]
        split
        · rename_i h0
          rw [h0, show i + 1 + (l.xList.length - 1) = i + l.xList.length by omega,
            add_mod_right, add_zero]
        · rename_i h0
          rw [show i + 1 + (l.xHead - 1) = i + l.xHead by omega]
      rw [getElem_set_ne hne]
      simp only [getElem_cons_succ, getElem_dropLast, getElem_rotate, hidx]

theorem items_push (x : α) : (l.push x).items = (x :: l.items).take l.xCap := by
  have hcap := l.xCap_pos
  have hsz := l.size_le
  unfold items
  rw [rotate_push]
  obtain ⟨c, hc⟩ : ∃ c, l.xCap = c + 1 := ⟨l.xCap - 1, by omega⟩
  have hc' : l.xList.length = c + 1 := hc
  have hsize : (l.push x).xSize = min l.xSize c + 1 := by
    simp only [push, hc]
    omega
  rw [hsize, hc, take_succ_cons, take_succ_cons, dropLast_eq_take,
    take_take, take_take, length_rotate, hc']
  congr 2
  omega

theorem index_of_lt {i : Nat} (hi : i < l.xSize) :
    l.index i = some ((i + l.xHead) % l.xList.length) := by
  have hlt := l.head_lt
  have hsz := l.size_le
  unfold index
  rw [if_neg (by omega), moduloAdd_eq_emod ⟨by omega, by unfold xCap; omega, by omega,
    by unfold xCap; omega⟩]
  congr 1
  rw [xCap, add_comm]
  exact_mod_cast toNat_natCast ((i + l.xHead) % l.xList.length)

theorem index_injective {i j : Nat} (hi : i < l.xSize) (hj : j < l.xSize)
    (h : (i + l.xHead) % l.xList.length = (j + l.xHead) % l.xList.length) : i = j := by
  have hsz := l.size_le
  have hmod : Nat.ModEq l.xList.length i j := Nat.ModEq.add_right_cancel' l.xHead h
  exact Nat.ModEq.eq_of_lt_of_lt hmod (by omega) (by omega)

theorem item_eq_items (i : Nat) : l.item i = l.items[i]? := by
  have hsz := l.size_le
  by_cases hi : i < l.xSize
  · simp only [item, l.index_of_lt hi, items]
    rw [getElem?_take_of_lt hi, getElem?_rotate (by omega)]
  · rw [getElem?_eq_none (by simp; omega), item, index, if_pos (by omega)]

theorem setItem_items {i : Nat} (v : α) (hi : i < l.xSize) :
    ∃ l', l.setItem i v = some l' ∧ l'.items = l.items.set i v ∧ l'.xCap = l.xCap := by
  have hlt := l.head_lt
  have hsz := l.size_le
  refine ⟨_, by simp only [setItem, l.index_of_lt hi]; rfl, ?_, by simp [xCap]⟩
  apply ext_getElem?
  intro j
  simp only [items]
  by_cases hj : j < l.xSize
  · rw [getElem?_take_of_lt hj, getElem?_rotate (by simp; omega), length_set,
      getElem?_set, getElem?_set, getElem?_take_of_lt hj,
      getElem?_rotate (by omega)]
    by_cases hij : i = j
    · subst hij
      simp [hi, hsz, mod_lt _ (show 0 < l.xList.length by omega)]
    · rw [if_neg (fun h => hij (l.index_injective hi hj h)), if_neg hij]
  · rw [getElem?_eq_none (by simp; omega), getElem?_eq_none (by simp; omega)]

end

end CircList

end OpenVpn
