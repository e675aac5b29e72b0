import Mathlib.Data.List.Nodup
import OpenVpn.Base.Treap

/-!
# Trees in memory

The nodes of a tree in memory have links to the node above and the two below. `Linked`
says that the links and the pointer to the root are those of a tree, seen from a place
in it (`linked_cons` moves the place).

`Linked.replace` is the rule for a change at the place: the new subtree is linked, and
the link from above points to it. `Linked.rotate` is the instance for a rotation.
-/

namespace OpenVpn.Base

open BinTree List

variable {κ : Type*}

structure Links (κ : Type*) where
  parent : Option κ
  lt : Option κ
  gt : Option κ

/-- The links of a node with `child` on the greater side, or on the lesser one. -/
def Links.at (gt : Bool) (parent child other : Option κ) : Links κ :=
  if gt then ⟨parent, other, child⟩ else ⟨parent, child, other⟩

/-- The links of a tree below `parent`. -/
def LinkedTree (links : κ → Links κ) : Option κ → BinTree κ → Prop
  | _, .leaf => True
  | parent, .node l x r => links x = ⟨parent, l.root, r.root⟩ ∧ LinkedTree links (some x) l ∧
      LinkedTree links (some x) r

/-- The node above a place. -/
def parentOf : List (TreeFrame κ) → Option κ
  | [] => none
  | f :: _ => some f.node

/-- The links of a context; the node at the place is `child`. -/
def LinkedContext (links : κ → Links κ) (root : Option κ) : Option κ → List (TreeFrame κ) → Prop
  | child, [] => root = child
  | child, f :: path => links f.node = Links.at f.gt (parentOf path) child f.other.root ∧
      LinkedTree links (some f.node) f.other ∧ LinkedContext links root (some f.node) path

/-- The memory holds the tree with `t` at a place. -/
structure Linked (links : κ → Links κ) (root : Option κ) (path : List (TreeFrame κ))
    (t : BinTree κ) : Prop where
  nodup : (contextNodes path ++ t.toList).Nodup
  context : LinkedContext links root t.root path
  tree : LinkedTree links (parentOf path) t

variable {links links' : κ → Links κ} {root root' : Option κ} {path : List (TreeFrame κ)}

theorem linkedTree_nodeAt {gt : Bool} {x : κ} {child other : BinTree κ} {parent : Option κ} :
    LinkedTree links parent (nodeAt gt x child other) ↔
      links x = Links.at gt parent child.root other.root ∧ LinkedTree links (some x) child ∧
        LinkedTree links (some x) other := by
  cases gt with
  | true =>
    show _ ∧ _ ∧ _ ↔ _
    rw [and_comm (a := LinkedTree links (some x) other)]
    rfl
  | false => exact Iff.rfl

variable {t : BinTree κ}

theorem LinkedTree.congr (h : ∀ x ∈ t.toList, links' x = links x) :
    ∀ {parent : Option κ}, LinkedTree links parent t → LinkedTree links' parent t := by
  induction t with
  | leaf => exact fun _ => trivial
  | node l x r ihl ihr =>
    rintro parent ⟨hx, hl, hr⟩
    refine ⟨?_, ihl (fun y hy => h y ?_) hl, ihr (fun y hy => h y ?_) hr⟩
    · rw [h x (by simp [toList]), hx]
    · simp [toList, hy]
    · simp [toList, hy]

theorem LinkedTree.reparent {parent parent' : Option κ} (hnd : t.toList.Nodup)
    (h : LinkedTree links parent t)
    (hroot : ∀ x, t.root = some x → links' x = { links x with parent := parent' })
    (hoth : ∀ x ∈ t.toList, t.root ≠ some x → links' x = links x) :
    LinkedTree links' parent' t := by
  cases t with
  | leaf => trivial
  | node l x r =>
    obtain ⟨hx, hl, hr⟩ := h
    have hne : ∀ y, y ∈ l.toList ∨ y ∈ r.toList → (node l x r).root ≠ some y := by
      rintro y hy heq
      cases heq
      rw [toList, nodup_middle, nodup_cons, mem_append] at hnd
      exact hnd.1 hy
    refine ⟨?_, hl.congr fun y hy => ?_, hr.congr fun y hy => ?_⟩
    · rw [hroot x rfl, hx]
    · exact hoth y (by simp [toList, hy]) (hne y (Or.inl hy))
    · exact hoth y (by simp [toList, hy]) (hne y (Or.inr hy))

theorem LinkedContext.congr (h : ∀ x ∈ contextNodes path, links' x = links x) :
    ∀ {child : Option κ}, LinkedContext links root child path →
      LinkedContext links' root child path := by
  induction path with
  | nil => exact fun hroot => hroot
  | cons f path ih =>
    rintro child ⟨hf, hoth, hrest⟩
    refine ⟨?_, hoth.congr fun y hy => h y ?_, ih (fun y hy => h y ?_) hrest⟩
    · rw [h f.node (by simp [contextNodes]), hf]
    · simp [contextNodes, hy]
    · simp [contextNodes, hy]

theorem linked_cons {f : TreeFrame κ} :
    Linked links root (f :: path) t ↔ Linked links root path (f.plug t) := by
  have hperm : (contextNodes (f :: path) ++ t.toList).Perm
      (contextNodes path ++ (f.plug t).toList) := by
    refine List.Perm.symm ?_
    refine ((toList_nodeAt_perm f.gt f.node t f.other).append_left _).trans ?_
    rw [← append_assoc, contextNodes]
    exact perm_append_comm.append_right _
  constructor
  · rintro ⟨hnd, ⟨hf, hoth, hrest⟩, htree⟩
    refine ⟨hperm.nodup_iff.mp hnd, ?_, linkedTree_nodeAt.mpr ⟨hf, htree, hoth⟩⟩
    rwa [TreeFrame.plug, root_nodeAt]
  · rintro ⟨hnd, hrest, htree⟩
    obtain ⟨hf, ht, hoth⟩ := linkedTree_nodeAt.mp htree
    rw [TreeFrame.plug, root_nodeAt] at hrest
    exact ⟨hperm.nodup_iff.mpr hnd, ⟨hf, hoth, hrest⟩, ht⟩

theorem linked_nil :
    Linked links root [] t ↔ t.toList.Nodup ∧ root = t.root ∧ LinkedTree links none t :=
  ⟨fun h => ⟨h.nodup, h.context, h.tree⟩, fun h => ⟨h.1, h.2.1, h.2.2⟩⟩

theorem linked_plug : Linked links root path t ↔ Linked links root [] (plug path t) := by
  induction path generalizing t with
  | nil => exact Iff.rfl
  | cons f path ih => rw [linked_cons, ih, plug]

/-- The link from above is changed to `child`, and nothing else of the context. -/
def Relinked (links links' : κ → Links κ) (root root' child : Option κ) :
    List (TreeFrame κ) → Prop
  | [] => root' = child
  | f :: path => root' = root ∧
      links' f.node = Links.at f.gt (parentOf path) child f.other.root ∧
      ∀ x ∈ f.other.toList ++ contextNodes path, links' x = links x

theorem Relinked.congr {links'' : κ → Links κ} {child : Option κ}
    (hsame : ∀ x ∈ contextNodes path, links'' x = links' x)
    (h : Relinked links links' root root' child path) :
    Relinked links links'' root root' child path := by
  cases path with
  | nil => exact h
  | cons f path =>
    obtain ⟨hroot, hf, hoth⟩ := h
    refine ⟨hroot, ?_, fun x hx => ?_⟩
    · rw [hsame f.node (by simp [contextNodes]), hf]
    · rw [hsame x (by simp [contextNodes, mem_append.mp hx]), hoth x hx]

/-- **The rule for a change at the place.** -/
theorem Linked.replace {t' : BinTree κ} (h : Linked links root path t) (hnd : t'.toList.Nodup)
    (hnew : ∀ x ∈ t'.toList, x ∉ contextNodes path) (htree : LinkedTree links' (parentOf path) t')
    (hlink : Relinked links links' root root' t'.root path) : Linked links' root' path t' := by
  refine ⟨?_, ?_, htree⟩
  · refine nodup_append.mpr ⟨(nodup_append.mp h.nodup).1, hnd, ?_⟩
    rintro x hx y hy rfl
    exact hnew x hy hx
  · cases path with
    | nil => exact hlink
    | cons f path =>
      obtain ⟨_, hoth, hrest⟩ := h.context
      obtain ⟨hroot, hf, hsame⟩ := hlink
      rw [hroot]
      exact ⟨hf, hoth.congr fun x hx => hsame x (mem_append_left _ hx),
        hrest.congr fun x hx => hsame x (mem_append_right _ hx)⟩

section Rotate

variable {gt : Bool} {x p : κ} {outer inner other : BinTree κ}

/-- The parts of a subtree that is rotated. -/
theorem toList_parts_perm : (nodeAt gt p (nodeAt gt x outer inner) other).toList.Perm
    (p :: other.toList ++ (x :: inner.toList ++ outer.toList)) :=
  (toList_nodeAt_perm gt p _ other).trans ((toList_nodeAt_perm gt x outer inner).append_left _)

theorem Linked.rotate
    (h : Linked links root path (nodeAt gt p (nodeAt gt x outer inner) other))
    (hx : links' x = Links.at (!gt) (parentOf path) (some p) outer.root)
    (hp : links' p = Links.at gt (some x) inner.root other.root)
    (hinner : ∀ y, inner.root = some y → links' y = { links y with parent := some p })
    (hsame : ∀ y ∈ outer.toList ++ inner.toList ++ other.toList, inner.root ≠ some y →
      links' y = links y)
    (hlink : Relinked links links' root root' (some x) path) :
    Linked links' root' path (nodeAt (!gt) x (nodeAt gt p inner other) outer) := by
  obtain ⟨_, hbelow, hoth⟩ := linkedTree_nodeAt.mp h.tree
  obtain ⟨_, houter, hin⟩ := linkedTree_nodeAt.mp hbelow
  have hperm : (nodeAt (!gt) x (nodeAt gt p inner other) outer).toList.Perm
      (nodeAt gt p (nodeAt gt x outer inner) other).toList := by
    cases gt <;> simp [nodeAt, toList]
  obtain ⟨_, hnd, hdj⟩ := nodup_append.mp h.nodup
  -- the parts of the subtree are disjoint
  obtain ⟨_, hchild, hcross⟩ := nodup_append.mp (toList_parts_perm.nodup_iff.mp hnd)
  obtain ⟨hinner_nodup, _, hcross'⟩ := nodup_append.mp hchild
  have hkeep : ∀ {t : BinTree κ}, (∀ y ∈ t.toList, y ∉ inner.toList) →
      (∀ y ∈ t.toList, y ∈ outer.toList ++ inner.toList ++ other.toList) →
      ∀ y ∈ t.toList, links' y = links y :=
    fun hdis hin y hy => hsame y (hin y hy) fun heq => hdis y hy (mem_toList_of_root heq)
  refine h.replace (hperm.nodup_iff.mpr hnd) ?_ ?_ (by rwa [root_nodeAt])
  · intro y hy hctx
    exact hdj y hctx y (hperm.mem_iff.mp hy) rfl
  · rw [linkedTree_nodeAt, linkedTree_nodeAt, root_nodeAt]
    refine ⟨hx, ⟨hp, ?_, hoth.congr (hkeep ?_ ?_)⟩, houter.congr (hkeep ?_ ?_)⟩
    · exact hin.reparent (nodup_cons.mp hinner_nodup).2 hinner
        fun y hy => hsame y (by simp [hy])
    · intro y hy hy'
      exact hcross y (by simp [hy]) y (by simp [hy']) rfl
    · exact fun y hy => by simp [hy]
    · intro y hy hy'
      exact hcross' y (by simp [hy']) y hy rfl
    · exact fun y hy => by simp [hy]

end Rotate

end OpenVpn.Base
