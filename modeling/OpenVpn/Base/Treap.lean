import Mathlib.Data.List.Perm.Basic

/-!
# Treaps

Binary trees with their contexts. A context is the list of the nodes above a place in
the tree, the nearest one first, each with its other subtree.

* **Places** — `plug`, `toList_plug`: what stands before and after a place.
* **Orders** — `Ordered`, the search-tree order; `HeapFrom`, the heap order with a bound
  for the root.
* **Removal** — `merge`: what is left of a node when it has been rotated down and out.
* **Insertion** — `descend` finds the place of a new value, `bubble` rotates it up.
-/

namespace OpenVpn.Base

open List

variable {α : Type*}

inductive BinTree (α : Type*) where
  | leaf
  | node (lt : BinTree α) (x : α) (gt : BinTree α)

namespace BinTree

def root : BinTree α → Option α
  | leaf => none
  | node _ x _ => some x

/-- The values in order. -/
def toList : BinTree α → List α
  | leaf => []
  | node lt x gt => lt.toList ++ x :: gt.toList

/-- The node with `child` on the greater side, or on the lesser one. -/
def nodeAt (gt : Bool) (x : α) (child other : BinTree α) : BinTree α :=
  if gt then node other x child else node child x other

@[simp] theorem root_nodeAt (gt : Bool) (x : α) (child other : BinTree α) :
    (nodeAt gt x child other).root = some x := by
  cases gt <;> rfl

theorem toList_nodeAt_perm (gt : Bool) (x : α) (child other : BinTree α) :
    (nodeAt gt x child other).toList.Perm (x :: other.toList ++ child.toList) := by
  cases gt with
  | true => exact perm_middle
  | false => exact perm_middle.trans (perm_append_comm.cons x)

theorem root_eq_none {t : BinTree α} : t.root = none ↔ t = leaf := by
  cases t <;> simp [root]

theorem mem_toList_of_root {t : BinTree α} {x : α} (h : t.root = some x) : x ∈ t.toList := by
  cases t with
  | leaf => cases h
  | node lt y gt =>
    cases h
    simp [toList]

end BinTree

open BinTree

/-! ## Places -/

/-- A node above a place; the place is on its greater side, or on the lesser one. -/
structure TreeFrame (α : Type*) where
  gt : Bool
  node : α
  other : BinTree α

def TreeFrame.plug (f : TreeFrame α) (t : BinTree α) : BinTree α := nodeAt f.gt f.node t f.other

/-- The tree with `t` at the place. -/
def plug : List (TreeFrame α) → BinTree α → BinTree α
  | [], t => t
  | f :: path, t => plug path (f.plug t)

def before : List (TreeFrame α) → List α
  | [] => []
  | f :: path => before path ++ if f.gt then f.other.toList ++ [f.node] else []

def after : List (TreeFrame α) → List α
  | [] => []
  | f :: path => (if f.gt then [] else f.node :: f.other.toList) ++ after path

theorem toList_plug (path : List (TreeFrame α)) (t : BinTree α) :
    (plug path t).toList = before path ++ t.toList ++ after path := by
  induction path generalizing t with
  | nil => simp [plug, before, after]
  | cons f path ih =>
    obtain ⟨gt, x, other⟩ := f
    rw [plug, ih]
    cases gt <;> simp [TreeFrame.plug, nodeAt, toList, before, after]

/-- The values of a context. -/
def contextNodes : List (TreeFrame α) → List α
  | [] => []
  | f :: path => f.node :: f.other.toList ++ contextNodes path

theorem toList_plug_perm (path : List (TreeFrame α)) (t : BinTree α) :
    (plug path t).toList.Perm (contextNodes path ++ t.toList) := by
  induction path generalizing t with
  | nil => exact List.Perm.refl _
  | cons f path ih =>
    rw [plug, contextNodes]
    refine (ih _).trans ?_
    refine ((toList_nodeAt_perm f.gt f.node t f.other).append_left _).trans ?_
    rw [← append_assoc]
    exact perm_append_comm.append_right _

variable {t : BinTree α}

theorem exists_place {x : α} (path : List (TreeFrame α)) (hx : x ∈ t.toList) :
    ∃ place l r, plug place (.node l x r) = plug path t := by
  induction t generalizing path with
  | leaf => exact absurd hx not_mem_nil
  | node l y r ihl ihr =>
    rw [toList, mem_append, mem_cons] at hx
    rcases hx with hx | rfl | hx
    · exact ihl (⟨false, y, r⟩ :: path) hx
    · exact ⟨path, l, r, rfl⟩
    · exact ihr (⟨true, y, l⟩ :: path) hx

theorem length_le_contextNodes (path : List (TreeFrame α)) :
    path.length ≤ (contextNodes path).length := by
  induction path with
  | nil => exact Nat.le_refl 0
  | cons f path ih =>
    simp only [contextNodes, length_append, length_cons]
    omega

/-! ## Orders -/

section Order

variable (lt : α → α → Prop)

/-- The search-tree order. -/
def Ordered : BinTree α → Prop
  | .leaf => True
  | .node l x r => (∀ y ∈ l.toList, lt y x) ∧ (∀ y ∈ r.toList, lt x y) ∧ Ordered l ∧ Ordered r

theorem ordered_iff {lt : α → α → Prop} (htrans : ∀ x y z, lt x y → lt y z → lt x z)
    (t : BinTree α) : Ordered lt t ↔ t.toList.Pairwise lt := by
  induction t with
  | leaf => simp [Ordered, toList]
  | node l x r ihl ihr =>
    simp only [Ordered, toList, pairwise_append, pairwise_cons, ihl, ihr]
    constructor
    · rintro ⟨hl, hr, hleft, hright⟩
      refine ⟨hleft, ⟨hr, hright⟩, fun y hy z hz => ?_⟩
      rcases mem_cons.mp hz with rfl | hz
      · exact hl y hy
      · exact htrans y x z (hl y hy) (hr z hz)
    · rintro ⟨hleft, ⟨hr, hright⟩, hx⟩
      exact ⟨fun y hy => hx y hy x mem_cons_self, hr, hleft, hright⟩

end Order

section Heap

variable (pri : α → Nat)

/-- The heap order; the root is not below the bound. -/
def HeapFrom : Nat → BinTree α → Prop
  | _, .leaf => True
  | bound, .node l x r => bound ≤ pri x ∧ HeapFrom (pri x) l ∧ HeapFrom (pri x) r

variable {pri}

theorem HeapFrom.mono {a b : Nat} (hab : a ≤ b) (h : HeapFrom pri b t) : HeapFrom pri a t := by
  cases t with
  | leaf => trivial
  | node l x r => exact ⟨Nat.le_trans hab h.1, h.2⟩

theorem heapFrom_nodeAt {gt : Bool} {x : α} {child other : BinTree α} {bound : Nat} :
    HeapFrom pri bound (nodeAt gt x child other) ↔
      bound ≤ pri x ∧ HeapFrom pri (pri x) child ∧ HeapFrom pri (pri x) other := by
  cases gt with
  | true =>
    show _ ∧ _ ∧ _ ↔ _
    rw [and_comm (a := HeapFrom pri (pri x) other)]
  | false => exact Iff.rfl

theorem heapFrom_congr {pri' : α → Nat} (h : ∀ x ∈ t.toList, pri' x = pri x) :
    ∀ {bound : Nat}, HeapFrom pri bound t → HeapFrom pri' bound t := by
  induction t with
  | leaf => exact fun _ => trivial
  | node l x r ihl ihr =>
    rintro bound ⟨hbd, hl, hr⟩
    have hx := h x (by simp [toList])
    refine ⟨by omega, ?_, ?_⟩
    · rw [hx]
      exact ihl (fun y hy => h y (by simp [toList, hy])) hl
    · rw [hx]
      exact ihr (fun y hy => h y (by simp [toList, hy])) hr

/-- The bound that a context sets. -/
def boundOf (pri : α → Nat) : List (TreeFrame α) → Nat
  | [] => 0
  | f :: _ => pri f.node

/-- The heap order of a context. -/
def HeapContext (pri : α → Nat) : List (TreeFrame α) → Prop
  | [] => True
  | f :: path => boundOf pri path ≤ pri f.node ∧ HeapFrom pri (pri f.node) f.other ∧
      HeapContext pri path

theorem heapFrom_plug (path : List (TreeFrame α)) (t : BinTree α) :
    HeapFrom pri 0 (plug path t) ↔ HeapContext pri path ∧ HeapFrom pri (boundOf pri path) t := by
  induction path generalizing t with
  | nil => simp [plug, HeapContext, boundOf]
  | cons f path ih =>
    rw [plug, ih, TreeFrame.plug, heapFrom_nodeAt, HeapContext, boundOf]
    constructor
    · rintro ⟨hpath, hbd, ht, hoth⟩
      exact ⟨⟨hbd, hoth, hpath⟩, ht⟩
    · rintro ⟨⟨hbd, hoth, hpath⟩, ht⟩
      exact ⟨hpath, hbd, ht, hoth⟩

end Heap

/-! ## Removal -/

section Merge

variable (pri : α → Nat)

/-- The subtrees of a node that is rotated down, the child with the lesser priority up. -/
def merge : BinTree α → BinTree α → BinTree α
  | .leaf, r => r
  | .node a x b, .leaf => .node a x b
  | .node a x b, .node c y d =>
    if pri x < pri y then .node a x (merge b (.node c y d)) else .node (merge (.node a x b) c) y d
termination_by l r => l.toList.length + r.toList.length
decreasing_by
  all_goals
    simp only [toList, length_append, length_cons]
    omega

@[simp] theorem merge_leaf (l : BinTree α) : merge pri l .leaf = l := by
  cases l <;> rw [merge]

variable {pri}

theorem toList_merge (l r : BinTree α) : (merge pri l r).toList = l.toList ++ r.toList := by
  fun_induction merge pri l r with
  | case1 r => rfl
  | case2 a x b => simp [toList]
  | case3 a x b c y d hlt ih => simp [toList, ih]
  | case4 a x b c y d hge ih => simp [toList, ih]

theorem heapFrom_merge (l r : BinTree α) :
    ∀ {bound : Nat}, HeapFrom pri bound l → HeapFrom pri bound r →
      HeapFrom pri bound (merge pri l r) := by
  fun_induction merge pri l r with
  | case1 r => exact fun _ hr => hr
  | case2 a x b => exact fun hl _ => hl
  | case3 a x b c y d hlt ih =>
    rintro bound ⟨hbd, ha, hb⟩ ⟨_, hc, hd⟩
    exact ⟨hbd, ha, ih hb ⟨Nat.le_of_lt hlt, hc, hd⟩⟩
  | case4 a x b c y d hge ih =>
    rintro bound ⟨_, ha, hb⟩ ⟨hbd, hc, hd⟩
    exact ⟨hbd, ih ⟨Nat.not_lt.mp hge, ha, hb⟩ hc, hd⟩

end Merge

/-! ## Insertion -/

section Bubble

variable (pri : α → Nat)

/-- A node is rotated up while the one above has a greater priority. -/
def bubble : List (TreeFrame α) → BinTree α → α → BinTree α → BinTree α
  | [], l, x, r => .node l x r
  | f :: path, l, x, r =>
    if pri x < pri f.node then
      if f.gt then bubble path (.node f.other f.node l) x r
      else bubble path l x (.node r f.node f.other)
    else plug (f :: path) (.node l x r)

variable {pri}

theorem toList_bubble (path : List (TreeFrame α)) (l : BinTree α) (x : α) (r : BinTree α) :
    (bubble pri path l x r).toList = (plug path (.node l x r)).toList := by
  fun_induction bubble pri path l x r with
  | case1 l x r => rfl
  | case2 f path l x r hlt hgt ih =>
    simp [ih, toList_plug, toList, before, after, hgt]
  | case3 f path l x r hlt hgt ih =>
    simp [ih, toList_plug, toList, before, after, hgt]
  | case4 f path l x r hge => rfl

theorem heapFrom_bubble (path : List (TreeFrame α)) (l : BinTree α) (x : α) (r : BinTree α)
    (hpath : HeapContext pri path) (hl : HeapFrom pri (boundOf pri path) l ∧ HeapFrom pri (pri x) l)
    (hr : HeapFrom pri (boundOf pri path) r ∧ HeapFrom pri (pri x) r) :
    HeapFrom pri 0 (bubble pri path l x r) := by
  fun_induction bubble pri path l x r with
  | case1 l x r => exact ⟨Nat.zero_le _, hl.2, hr.2⟩
  | case2 f path l x r hlt hgt ih =>
    obtain ⟨hbd, hoth, hrest⟩ := hpath
    exact ih hrest ⟨⟨hbd, hoth, hl.1⟩, Nat.le_of_lt hlt, hoth, hl.1⟩ ⟨hr.1.mono hbd, hr.2⟩
  | case3 f path l x r hlt hgt ih =>
    obtain ⟨hbd, hoth, hrest⟩ := hpath
    exact ih hrest ⟨hl.1.mono hbd, hl.2⟩ ⟨⟨hbd, hr.1, hoth⟩, Nat.le_of_lt hlt, hr.1, hoth⟩
  | case4 f path l x r hge =>
    exact (heapFrom_plug _ _).mpr ⟨hpath, Nat.not_lt.mp hge, hl.2, hr.2⟩

end Bubble

/-- The place for a new value below a place, if its key is not there. -/
def descend (cmp : α → Ordering) : List (TreeFrame α) → BinTree α → Option (List (TreeFrame α))
  | path, .leaf => some path
  | path, .node l x r =>
    if cmp x = .lt then descend cmp (⟨false, x, r⟩ :: path) l
    else if cmp x = .gt then descend cmp (⟨true, x, l⟩ :: path) r
    else none

theorem descend_spec {lt : α → α → Prop} (htrans : ∀ x y z, lt x y → lt y z → lt x z) {new : α}
    {cmp : α → Ordering} (hlt : ∀ y, cmp y = .lt → lt new y) (hgt : ∀ y, cmp y = .gt → lt y new) :
    ∀ {path place : List (TreeFrame α)}, descend cmp path t = some place → t.toList.Pairwise lt →
      (∀ y ∈ before path, lt y new) → (∀ y ∈ after path, lt new y) →
      plug place .leaf = plug path t ∧ (∀ y ∈ before place, lt y new) ∧
        ∀ y ∈ after place, lt new y := by
  induction t with
  | leaf =>
    intro path place h _ hbef haft
    cases h
    exact ⟨rfl, hbef, haft⟩
  | node l x r ihl ihr =>
    intro path place h hsort hbef haft
    simp only [toList, pairwise_append, pairwise_cons] at hsort
    obtain ⟨hl, ⟨hxr, hr⟩, hx⟩ := hsort
    rw [descend] at h
    by_cases hless : cmp x = .lt
    · rw [if_pos hless] at h
      have hnew := hlt x hless
      refine ihl h hl (by simpa [before] using hbef) ?_
      intro y hy
      simp only [after, Bool.false_eq_true, if_false, cons_append, mem_cons, mem_append] at hy
      rcases hy with rfl | hy | hy
      · exact hnew
      · exact htrans new x y hnew (hxr y hy)
      · exact haft y hy
    · rw [if_neg hless] at h
      by_cases hgreater : cmp x = .gt
      · rw [if_pos hgreater] at h
        have hnew := hgt x hgreater
        refine ihr h hr ?_ (by simpa [after] using haft)
        intro y hy
        simp only [before, if_true, mem_append, mem_singleton] at hy
        rcases hy with hy | hy | rfl
        · exact hbef y hy
        · exact htrans y x new (hx y hy x mem_cons_self) hnew
        · exact hnew
      · rw [if_neg hgreater] at h
        cases h

theorem descend_isSome {cmp : α → Ordering} :
    ∀ (path : List (TreeFrame α)), (∀ y ∈ t.toList, cmp y ≠ .eq) →
      ∃ place, descend cmp path t = some place := by
  induction t with
  | leaf => exact fun path _ => ⟨path, rfl⟩
  | node l x r ihl ihr =>
    intro path hne
    have hx := hne x (by simp [toList])
    rw [descend]
    by_cases hless : cmp x = .lt
    · rw [if_pos hless]
      exact ihl _ fun y hy => hne y (by simp [toList, hy])
    · have hgt : cmp x = .gt := by
        cases hcmp : cmp x with
        | lt => exact absurd hcmp hless
        | eq => exact absurd hcmp hx
        | gt => rfl
      rw [if_neg hless, if_pos hgt]
      exact ihr _ fun y hy => hne y (by simp [toList, hy])

end OpenVpn.Base
