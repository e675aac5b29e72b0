import OpenVpn.Base.Run
import OpenVpn.Base.TreeLinks
import OpenVpn.Util.CircList

/-!
# The event scheduler (`schedule.c`, `schedule.h`)

Entries with a wakeup time are kept in a treap: a search tree by time and priority that
is a heap by priority. The storage of an entry belongs to the caller; here an entry is
a number and `entry` is the memory. An entry is in the tree iff its priority is not
zero. The loops take `fuel`, an abort stands for a failed assertion.

* `scheduleRotateUp`, `scheduleRemoveNode`, `scheduleInsert`, `scheduleAddModify` — the
  treap, pointer by pointer; `scheduleAddEntry`, `scheduleRemoveEntry` and
  `scheduleGetEarliestWakeup` are the interface.
* `scheduleRotateUp_spec`, `scheduleSink_spec`, `scheduleDescend_spec`,
  `scheduleRaise_spec` — what the pointer operations do to the tree in memory.
-/

namespace OpenVpn

open Base BinTree

/-! ## Times -/

/-- `struct timeval`, normalised. -/
structure Timeval where
  sec : Int
  usec : Int
  normal : 0 ≤ usec ∧ usec < 1000000
  deriving DecidableEq

def Timeval.micros (tv : Timeval) : Int := tv.sec * 1000000 + tv.usec

/-- `tv_subtract`; the difference of the seconds is cut to an `int`. -/
def tvSubtract (tv1 tv2 : Timeval) (maxSeconds : Int) : Int :=
  let maxUsec := maxSeconds * 1000000
  let secDiff := (tv1.sec - tv2.sec).bmod (2 ^ 32)
  if maxSeconds + 10 < secDiff then maxUsec
  else if secDiff < -(maxSeconds + 10) then -maxUsec
  else constrainInt (secDiff * 1000000 + (tv1.usec - tv2.usec)) (-maxUsec) maxUsec

def TV_WITHIN_SIGMA_MAX_SEC : Int := 600

/-- `tv_within_sigma`; `sigma` is cast to an `int`. -/
def tvWithinSigma (t1 t2 : Timeval) (sigma : Nat) : Bool :=
  let delta := tvSubtract t1 t2 TV_WITHIN_SIGMA_MAX_SEC
  let sigma := (sigma : Int).bmod (2 ^ 32)
  decide (-sigma ≤ delta ∧ delta ≤ sigma)

/-! ## The treap -/

structure ScheduleEntry where
  tv : Timeval
  pri : Nat
  parent : Option Nat
  lt : Option Nat
  gt : Option Nat

/-- `struct schedule`, with the memory of the entries. -/
structure Schedule where
  earliestWakeup : Option Nat
  root : Option Nat
  entry : Nat → ScheduleEntry

/-- `schedule_init`; the entries are cleared. -/
def scheduleInit : Schedule :=
  ⟨none, none, fun _ => ⟨⟨0, 0, by decide⟩, 0, none, none, none⟩⟩

def Schedule.modify (s : Schedule) (x : Nat) (f : ScheduleEntry → ScheduleEntry) : Schedule :=
  { s with entry := Function.update s.entry x (f (s.entry x)) }

/-- `schedule_set_pri`; `draw` is what `random` returns. -/
def scheduleSetPri (s : Schedule) (e draw : Nat) : Schedule :=
  s.modify e fun x => { x with pri := if draw < 1 then 1 else draw }

def scheduleEntryCompare (e1 e2 : ScheduleEntry) : Ordering :=
  if e1.tv.sec < e2.tv.sec then .lt
  else if e2.tv.sec < e1.tv.sec then .gt
  else if e1.tv.usec < e2.tv.usec then .lt
  else if e2.tv.usec < e1.tv.usec then .gt
  else if e1.pri < e2.pri then .lt
  else if e2.pri < e1.pri then .gt
  else .eq

def scheduleDetachParent (s : Schedule) (e : Nat) : Option Schedule :=
  match (s.entry e).parent with
  | some p =>
    if (s.entry p).lt = some e then
      some ((s.modify p fun x => { x with lt := none }).modify e fun x => { x with parent := none })
    else if (s.entry p).gt = some e then
      some ((s.modify p fun x => { x with gt := none }).modify e fun x => { x with parent := none })
    else none
  | none => some (if s.root = some e then { s with root := none } else s)

/-- The first part of `schedule_rotate_up`: the link from above. -/
def scheduleRelink (s : Schedule) (e p : Nat) : Option Nat → Option Schedule
  | some gp =>
    if (s.entry gp).gt = some p then some (s.modify gp fun x => { x with gt := some e })
    else if (s.entry gp).lt = some p then some (s.modify gp fun x => { x with lt := some e })
    else none
  | none => some { s with root := some e }

/-- The link to the node above, if there is a node. -/
def Schedule.setParent (s : Schedule) (child : Option Nat) (p : Nat) : Schedule :=
  match child with
  | some c => s.modify c fun x => { x with parent := some p }
  | none => s

def scheduleRotateUp (s : Schedule) (e : Nat) : Option Schedule :=
  match (s.entry e).parent with
  | none => some s
  | some p =>
    let lt := (s.entry e).lt
    let gt := (s.entry e).gt
    let gp := (s.entry p).parent
    match scheduleRelink s e p gp with
    | none => none
    | some s =>
      let s := s.modify e fun x => { x with parent := gp }
      let s := s.modify p fun x => { x with parent := some e }
      if (s.entry p).gt = some e then
        let s := s.modify e fun x => { x with lt := some p }
        let s := s.modify p fun x => { x with gt := lt }
        some (s.setParent lt p)
      else if (s.entry p).lt = some e then
        let s := s.modify e fun x => { x with gt := some p }
        let s := s.modify p fun x => { x with lt := gt }
        some (s.setParent gt p)
      else none

/-- The loop of `schedule_remove_node`. -/
def scheduleSink : (fuel : Nat) → Schedule → (e : Nat) → Option Schedule
  | 0, _, _ => none
  | fuel + 1, s, e =>
    match (s.entry e).lt, (s.entry e).gt with
    | none, none => some s
    | some lt, none => (scheduleRotateUp s lt).bind fun s => scheduleSink fuel s e
    | none, some gt => (scheduleRotateUp s gt).bind fun s => scheduleSink fuel s e
    | some lt, some gt =>
      (scheduleRotateUp s (if (s.entry lt).pri < (s.entry gt).pri then lt else gt)).bind
        fun s => scheduleSink fuel s e

def scheduleRemoveNode (fuel : Nat) (s : Schedule) (e : Nat) : Option Schedule :=
  (scheduleSink fuel s e).bind fun s =>
    (scheduleDetachParent s e).map fun s => s.modify e fun x => { x with pri := 0 }

/-- The loop of `schedule_insert` from `c` on; there is no schedule if the key is found. -/
def scheduleDescend : (fuel : Nat) → Schedule → (e c : Nat) → Option (Option Schedule)
  | 0, _, _, _ => none
  | fuel + 1, s, e, c =>
    match scheduleEntryCompare (s.entry e) (s.entry c) with
    | .lt =>
      match (s.entry c).lt with
      | some lt => scheduleDescend fuel s e lt
      | none =>
        some (some ((s.modify c fun x => { x with lt := some e }).modify e
          fun x => { x with parent := some c }))
    | .gt =>
      match (s.entry c).gt with
      | some gt => scheduleDescend fuel s e gt
      | none =>
        some (some ((s.modify c fun x => { x with gt := some e }).modify e
          fun x => { x with parent := some c }))
    | .eq => some none

/-- `schedule_insert` below the root; `draws` are the priorities for the retries. -/
def scheduleInsert (fuel : Nat) (s : Schedule) (e root : Nat) : (draws : List Nat) → Option Schedule
  | [] => (scheduleDescend fuel s e root).bind id
  | draw :: draws =>
    match scheduleDescend fuel s e root with
    | none => none
    | some (some s) => some s
    | some none => scheduleInsert fuel (scheduleSetPri s e draw) e root draws

/-- The loop of `schedule_add_modify`. -/
def scheduleRaise : (fuel : Nat) → Schedule → (e : Nat) → Option Schedule
  | 0, _, _ => none
  | fuel + 1, s, e =>
    match (s.entry e).parent with
    | none => some s
    | some p =>
      if (s.entry e).pri < (s.entry p).pri then
        (scheduleRotateUp s e).bind fun s => scheduleRaise fuel s e
      else some s

/-- The second part of `schedule_add_modify`, for an entry that is not in the tree; `draws`
are what `random` returns. -/
def scheduleAddFresh (fuel : Nat) (s : Schedule) (e : Nat) : (draws : List Nat) → Option Schedule
  | [] => none
  | draw :: draws =>
    let s := scheduleSetPri s e draw
    match s.root with
    | some root => (scheduleInsert fuel s e root draws).bind fun s => scheduleRaise fuel s e
    | none => scheduleRaise fuel { s with root := some e } e

def scheduleAddModify (fuel : Nat) (s : Schedule) (e : Nat) (draws : List Nat) : Option Schedule :=
  (if (s.entry e).pri ≠ 0 then scheduleRemoveNode fuel s e else some s).bind fun s =>
    scheduleAddFresh fuel s e draws

/-- `schedule_find_least` below an entry. -/
def scheduleFindLeast : (fuel : Nat) → Schedule → (e : Nat) → Option Nat
  | 0, _, _ => none
  | fuel + 1, s, e =>
    match (s.entry e).lt with
    | some lt => scheduleFindLeast fuel s lt
    | none => some e

/-! ## The interface -/

def scheduleAddEntry (fuel : Nat) (s : Schedule) (e : Nat) (tv : Timeval) (sigma : Nat)
    (draws : List Nat) : Option Schedule :=
  if (s.entry e).pri = 0 ∨ sigma = 0 ∨ !tvWithinSigma tv (s.entry e).tv sigma then
    (scheduleAddModify fuel (s.modify e fun x => { x with tv }) e draws).map fun s =>
      { s with earliestWakeup := none }
  else some s

def scheduleRemoveEntry (fuel : Nat) (s : Schedule) (e : Nat) : Option Schedule :=
  scheduleRemoveNode fuel { s with earliestWakeup := none } e

def scheduleGetEarliestWakeup (fuel : Nat) (s : Schedule) :
    Option (Schedule × Option (Nat × Timeval)) :=
  let found := match s.earliestWakeup, s.root with
    | some e, _ => some (some e)
    | none, some root => (scheduleFindLeast fuel s root).map some
    | none, none => some none
  found.map fun ret =>
    ({ s with earliestWakeup := ret }, ret.map fun e => (e, (s.entry e).tv))

/-- What the callers do. -/
inductive ScheduleEvent where
  | add (e : Nat) (tv : Timeval) (sigma : Nat) (draws : List Nat)
  | remove (e : Nat)
  | earliest

def scheduleStep (fuel : Nat) (s : Schedule) :
    ScheduleEvent → Option (Schedule × Option (Nat × Timeval))
  | .add e tv sigma draws => (scheduleAddEntry fuel s e tv sigma draws).map fun s => (s, none)
  | .remove e => (scheduleRemoveEntry fuel s e).map fun s => (s, none)
  | .earliest => scheduleGetEarliestWakeup fuel s

/-! ## Rotations -/

def Schedule.links (s : Schedule) (x : Nat) : Links Nat :=
  ⟨(s.entry x).parent, (s.entry x).lt, (s.entry x).gt⟩

/-- The keys are as before, and so is the memory outside `nodes`. -/
structure Relinks (s s' : Schedule) (nodes : List Nat) : Prop where
  tv : ∀ x, (s'.entry x).tv = (s.entry x).tv
  pri : ∀ x, (s'.entry x).pri = (s.entry x).pri
  wakeup : s'.earliestWakeup = s.earliestWakeup
  outside : ∀ x ∉ nodes, s'.entry x = s.entry x

theorem Relinks.refl (s : Schedule) (nodes : List Nat) : Relinks s s nodes :=
  ⟨fun _ => rfl, fun _ => rfl, rfl, fun _ _ => rfl⟩

variable {s s' : Schedule} {nodes : List Nat}

theorem Relinks.trans {s'' : Schedule} (h : Relinks s s' nodes) (h' : Relinks s' s'' nodes) :
    Relinks s s'' nodes where
  tv x := (h'.tv x).trans (h.tv x)
  pri x := (h'.pri x).trans (h.pri x)
  wakeup := h'.wakeup.trans h.wakeup
  outside x hx := (h'.outside x hx).trans (h.outside x hx)

theorem Relinks.mono {nodes' : List Nat} (h : Relinks s s' nodes)
    (hsub : ∀ x ∈ nodes, x ∈ nodes') : Relinks s s' nodes' :=
  ⟨h.tv, h.pri, h.wakeup, fun x hx => h.outside x fun hin => hx (hsub x hin)⟩

theorem entry_modify (s : Schedule) (y : Nat) (f : ScheduleEntry → ScheduleEntry) (x : Nat) :
    (s.modify y f).entry x = if x = y then f (s.entry x) else s.entry x := by
  by_cases hx : x = y
  · subst hx
    simp [Schedule.modify]
  · simp [Schedule.modify, hx]

theorem entry_setParent (s : Schedule) (child : Option Nat) (p x : Nat) :
    (s.setParent child p).entry x =
      if child = some x then { s.entry x with parent := some p } else s.entry x := by
  cases child with
  | none => simp [Schedule.setParent]
  | some c =>
    rw [Schedule.setParent, entry_modify]
    simp only [Option.some.injEq, eq_comm]

theorem Relinks.modify {y : Nat} {f : ScheduleEntry → ScheduleEntry} (h : Relinks s s' nodes)
    (hf : ∀ x, (f x).tv = x.tv ∧ (f x).pri = x.pri) (hy : y ∈ nodes) :
    Relinks s (s'.modify y f) nodes where
  tv x := by
    rw [entry_modify, ← h.tv x]
    split
    · exact (hf _).1
    · rfl
  pri x := by
    rw [entry_modify, ← h.pri x]
    split
    · exact (hf _).2
    · rfl
  wakeup := h.wakeup
  outside x hx := by
    have hne : x ≠ y := fun heq => hx (by rwa [heq])
    rw [entry_modify, if_neg hne, h.outside x hx]

theorem Relinks.setParent {child : Option Nat} {p : Nat} (h : Relinks s s' nodes)
    (hchild : ∀ c, child = some c → c ∈ nodes) : Relinks s (s'.setParent child p) nodes := by
  cases child with
  | none => exact h
  | some c =>
    rw [Schedule.setParent]
    exact h.modify (by exact fun _ => ⟨rfl, rfl⟩) (hchild c rfl)

def ScheduleEntry.setChild (x : ScheduleEntry) (gt : Bool) (child : Option Nat) : ScheduleEntry :=
  if gt then { x with gt := child } else { x with lt := child }

theorem setChild_keys {gt : Bool} {child : Option Nat} (x : ScheduleEntry) :
    (x.setChild gt child).tv = x.tv ∧ (x.setChild gt child).pri = x.pri := by
  cases gt <;> exact ⟨rfl, rfl⟩

/-- The second part of a rotation of `e` up over `p`, on either side. -/
def Schedule.turn (s : Schedule) (gt : Bool) (e p : Nat) (gp inner : Option Nat) : Schedule :=
  let s := s.modify e fun x => { x with parent := gp }
  let s := s.modify p fun x => { x with parent := some e }
  let s := s.modify e fun x => x.setChild (!gt) (some p)
  let s := s.modify p fun x => x.setChild gt inner
  s.setParent inner p

theorem relinks_turn {gt : Bool} {e p : Nat} {gp inner : Option Nat}
    (he : e ∈ nodes) (hp : p ∈ nodes) (hinner : ∀ c, inner = some c → c ∈ nodes) :
    Relinks s (s.turn gt e p gp inner) nodes := by
  simp only [Schedule.turn]
  apply Relinks.setParent _ hinner
  apply Relinks.modify _ (setChild_keys) hp
  apply Relinks.modify _ (setChild_keys) he
  apply Relinks.modify _ (by exact fun _ => ⟨rfl, rfl⟩) hp
  exact (Relinks.refl s nodes).modify (by exact fun _ => ⟨rfl, rfl⟩) he

@[simp] theorem root_turn (s : Schedule) (gt : Bool) (e p : Nat) (gp inner : Option Nat) :
    (s.turn gt e p gp inner).root = s.root := by
  cases inner <;> rfl

/-- The memory holds the tree with `t` at a place. -/
abbrev Schedule.Holds (s : Schedule) : List (TreeFrame Nat) → BinTree Nat → Prop :=
  Linked s.links s.root

variable {f : TreeFrame Nat} {path : List (TreeFrame Nat)}

theorem relinked_setChild {child : Option Nat}
    (h : LinkedContext s.links s.root child (f :: path)) (hnd : (contextNodes (f :: path)).Nodup)
    (new : Option Nat) :
    Relinked s.links (s.modify f.node fun x => x.setChild f.gt new).links s.root s.root new
      (f :: path) := by
  obtain ⟨hf, _, _⟩ := h
  rw [contextNodes, List.cons_append, List.nodup_cons] at hnd
  refine ⟨rfl, ?_, fun x hx => ?_⟩
  · simp only [Schedule.links, entry_modify, if_true] at hf ⊢
    cases hgt : f.gt <;> simp_all [Links.at, ScheduleEntry.setChild]
  · have hne : x ≠ f.node := fun heq => hnd.1 (heq ▸ hx)
    simp only [Schedule.links, entry_modify, if_neg hne]

theorem child_of_context {x : Nat} (h : LinkedContext s.links s.root (some x) (f :: path))
    (hx : x ∉ contextNodes (f :: path)) :
    ((s.entry f.node).lt = some x ↔ f.gt = false) ∧
      ((s.entry f.node).gt = some x ↔ f.gt = true) := by
  obtain ⟨hf, _, _⟩ := h
  have hoth : f.other.root ≠ some x := fun heq =>
    hx (by simp [contextNodes, mem_toList_of_root heq])
  simp only [Schedule.links] at hf
  cases hgt : f.gt <;> simp_all [Links.at]

section Rotate

variable {gt : Bool} {e p : Nat} {outer inner other : BinTree Nat}

theorem scheduleRelink_spec (h : LinkedContext s.links s.root (some p) path)
    (hp : p ∉ contextNodes path) (hnd : (contextNodes path).Nodup) :
    ∃ s', scheduleRelink s e p (parentOf path) = some s' ∧
      Relinked s.links s'.links s.root s'.root (some e) path ∧
      Relinks s s' (contextNodes path) := by
  cases path with
  | nil =>
    exact ⟨{ s with root := some e }, rfl, rfl, fun _ => rfl, fun _ => rfl, rfl, fun _ _ => rfl⟩
  | cons f path =>
    obtain ⟨hlt, hgt⟩ := child_of_context h hp
    refine ⟨s.modify f.node fun x => x.setChild f.gt (some e), ?_,
      relinked_setChild h hnd (some e),
      (Relinks.refl s _).modify (setChild_keys) (by simp [contextNodes])⟩
    simp only [parentOf, scheduleRelink]
    cases hside : f.gt with
    | true =>
      rw [if_pos (hgt.mpr hside)]
      rfl
    | false =>
      rw [if_neg (by simp [hgt, hside]), if_pos (hlt.mpr hside)]
      rfl

/-- **A rotation.** -/
theorem scheduleRotateUp_spec
    (h : s.Holds path (nodeAt gt p (nodeAt gt e outer inner) other)) :
    ∃ s', scheduleRotateUp s e = some s' ∧
      s'.Holds path (nodeAt (!gt) e (nodeAt gt p inner other) outer) ∧
      Relinks s s' (plug path (nodeAt gt p (nodeAt gt e outer inner) other)).toList := by
  obtain ⟨hp, hbelow, _⟩ := linkedTree_nodeAt.mp h.tree
  obtain ⟨he, _, _⟩ := linkedTree_nodeAt.mp hbelow
  obtain ⟨hctx, hnd, hdj⟩ := List.nodup_append.mp h.nodup
  -- the nodes that are written to are different ones
  have hparts := toList_parts_perm.nodup_iff.mp hnd
  have hep : e ≠ p := by grind
  have hein : inner.root ≠ some e := fun heq => by grind [mem_toList_of_root heq]
  have hpin : inner.root ≠ some p := fun heq => by grind [mem_toList_of_root heq]
  have heother : other.root ≠ some e := fun heq => by grind [mem_toList_of_root heq]
  have hout : ∀ x ∈ p :: other.toList ++ (e :: inner.toList ++ outer.toList),
      x ∉ contextNodes path :=
    fun x hx hin => hdj x hin x (toList_parts_perm.mem_iff.mpr hx) rfl
  obtain ⟨s1, hrelink, hlink, hrel⟩ := scheduleRelink_spec (e := e)
    (by simpa using h.context) (hout p (by simp)) hctx
  have hs1 : ∀ x ∈ p :: other.toList ++ (e :: inner.toList ++ outer.toList),
      s1.entry x = s.entry x := fun x hx => hrel.outside x (hout x hx)
  have hs1p := hs1 p (by simp)
  have hrotate : scheduleRotateUp s e = some (s1.turn gt e p (parentOf path) inner.root) := by
    cases gt with
    | true =>
      simp only [Links.at, if_true, Schedule.links, Links.mk.injEq] at he hp
      simp only [scheduleRotateUp, he, hp, hrelink]
      rw [if_pos (by simp [entry_modify, hep.symm, hs1p, hp])]
      rfl
    | false =>
      simp only [Links.at, Bool.false_eq_true, if_false, Schedule.links, Links.mk.injEq] at he hp
      simp only [scheduleRotateUp, he, hp, hrelink]
      rw [if_neg (by simp [entry_modify, hep.symm, hs1p, hp, heother]),
        if_pos (by simp [entry_modify, hep.symm, hs1p, hp])]
      rfl
  have hent : ∀ y, y ≠ e → y ≠ p → (s1.turn gt e p (parentOf path) inner.root).entry y =
      if inner.root = some y then { s1.entry y with parent := some p } else s1.entry y := by
    intro y hye hyp
    simp [Schedule.turn, entry_setParent, entry_modify, hye, hyp]
  refine ⟨_, hrotate, h.rotate ?_ ?_ ?_ ?_ ?_, ?_⟩
  · have hturn : (s1.turn gt e p (parentOf path) inner.root).entry e =
        { (s.entry e).setChild (!gt) (some p) with parent := parentOf path } := by
      cases gt <;> simp [Schedule.turn, entry_setParent, entry_modify, hein, hep,
        hs1 e (by simp), ScheduleEntry.setChild]
    cases gt <;>
      simp_all [Schedule.links, ScheduleEntry.setChild, Links.at]
  · have hturn : (s1.turn gt e p (parentOf path) inner.root).entry p =
        { (s.entry p).setChild gt inner.root with parent := some e } := by
      cases gt <;> simp [Schedule.turn, entry_setParent, entry_modify, hpin, hep.symm,
        hs1p, ScheduleEntry.setChild]
    cases gt <;>
      simp_all [Schedule.links, ScheduleEntry.setChild, Links.at]
  · intro y hy
    have hin := mem_toList_of_root hy
    have hye : y ≠ e := fun heq => hein (by rw [hy, heq])
    have hyp : y ≠ p := fun heq => hpin (by rw [hy, heq])
    simp only [Schedule.links, hent y hye hyp, if_pos hy, hs1 y (by simp [hin])]
  · intro y hy hne
    simp only [List.mem_append] at hy
    have hye : y ≠ e := by grind
    have hyp : y ≠ p := by grind
    simp only [Schedule.links, hent y hye hyp, if_neg hne, hs1 y (by grind)]
  · rw [root_turn]
    refine hlink.congr fun x hx => ?_
    have hne : ∀ y ∈ p :: other.toList ++ (e :: inner.toList ++ outer.toList), x ≠ y :=
      fun y hy heq => hout y hy (heq ▸ hx)
    have hroot : inner.root ≠ some x := fun heq =>
      hne x (by simp [mem_toList_of_root heq]) rfl
    simp only [Schedule.links, hent x (hne e (by simp)) (hne p (by simp)), if_neg hroot]
  · refine (hrel.mono fun x hx => ?_).trans (relinks_turn ?_ ?_ fun c hc => ?_)
    · simp [(toList_plug_perm path _).mem_iff, hx]
    · simp [(toList_plug_perm path _).mem_iff, toList_parts_perm.mem_iff]
    · simp [(toList_plug_perm path _).mem_iff, toList_parts_perm.mem_iff]
    · simp [(toList_plug_perm path _).mem_iff, toList_parts_perm.mem_iff, mem_toList_of_root hc]

end Rotate

/-! ## Removal -/

def Schedule.pri (s : Schedule) (x : Nat) : Nat := (s.entry x).pri

theorem Relinks.pri_eq (h : Relinks s s' nodes) : s'.pri = s.pri := funext h.pri

def Schedule.withPri (s : Schedule) (e p : Nat) : Schedule :=
  s.modify e fun x => { x with pri := p }

theorem entry_withPri (s : Schedule) (e p x : Nat) : (s.withPri e p).entry x =
    if x = e then ⟨(s.entry x).tv, p, (s.entry x).parent, (s.entry x).lt, (s.entry x).gt⟩
    else s.entry x := entry_modify s e _ x

theorem links_withPri (s : Schedule) (e p : Nat) : (s.withPri e p).links = s.links := by
  funext x
  simp only [Schedule.links, entry_withPri]
  split <;> rfl

@[simp] theorem holds_withPri {e p : Nat} {t : BinTree Nat} :
    (s.withPri e p).Holds path t ↔ s.Holds path t := by
  rw [Schedule.Holds, links_withPri]
  exact Iff.rfl

def SameKey (s s' : Schedule) (x : Nat) : Prop :=
  (s'.entry x).tv = (s.entry x).tv ∧ s'.pri x = s.pri x

section Remove

variable {e : Nat}

theorem scheduleSink_rotate {fuel : Nat} {gt : Bool} {c : Nat} {outer inner other : BinTree Nat}
    (h : s.Holds path (nodeAt gt e (nodeAt gt c outer inner) other))
    (hsink : scheduleSink (fuel + 1) s e =
      (scheduleRotateUp s c).bind fun s => scheduleSink fuel s e)
    (rest : BinTree Nat) (ih : ∀ s1 : Schedule, s1.pri = s.pri →
      s1.Holds (⟨!gt, c, outer⟩ :: path) (nodeAt gt e inner other) →
      ∃ s' path', scheduleSink fuel s1 e = some s' ∧
        s'.Holds path' (.node .leaf e .leaf) ∧
        Relinks s1 s' (plug (⟨!gt, c, outer⟩ :: path) (nodeAt gt e inner other)).toList ∧
        plug path' .leaf = plug (⟨!gt, c, outer⟩ :: path) rest) :
    ∃ s' path', scheduleSink (fuel + 1) s e = some s' ∧
      s'.Holds path' (.node .leaf e .leaf) ∧
      Relinks s s' (plug path (nodeAt gt e (nodeAt gt c outer inner) other)).toList ∧
      plug path' .leaf = plug path (nodeAt (!gt) c rest outer) := by
  obtain ⟨s1, hrotate, hlk, hrel⟩ := scheduleRotateUp_spec h
  obtain ⟨s', path', hloop, hdone, hrel', hplug⟩ := ih s1 hrel.pri_eq (linked_cons.mpr hlk)
  refine ⟨s', path', ?_, hdone, hrel.trans ?_, hplug⟩
  · rw [hsink, hrotate]
    exact hloop
  · -- a rotation keeps the nodes
    rw [show (plug path (nodeAt gt e (nodeAt gt c outer inner) other)).toList =
      (plug (⟨!gt, c, outer⟩ :: path) (nodeAt gt e inner other)).toList by
        cases gt <;> simp [toList_plug, plug, TreeFrame.plug, nodeAt, toList]]
    exact hrel'

/-- **The loop of `schedule_remove_node`** takes the entry down to a place without children. -/
theorem scheduleSink_spec (fuel : Nat) :
    ∀ {s : Schedule} {path : List (TreeFrame Nat)} {l r : BinTree Nat},
      s.Holds path (.node l e r) → l.toList.length + r.toList.length < fuel →
      ∃ s' path', scheduleSink fuel s e = some s' ∧
        s'.Holds path' (.node .leaf e .leaf) ∧
        Relinks s s' (plug path (.node l e r)).toList ∧
        plug path' .leaf = plug path (merge s.pri l r) := by
  induction fuel with
  | zero => exact fun _ hfuel => absurd hfuel (Nat.not_lt_zero _)
  | succ fuel ih =>
    intro s path l r h hfuel
    have he : (s.entry e).lt = l.root ∧ (s.entry e).gt = r.root := by
      have hlinks := h.tree.1
      simp only [Schedule.links, Links.mk.injEq] at hlinks
      exact hlinks.2
    cases l with
    | leaf =>
      cases r with
      | leaf =>
        refine ⟨s, path, ?_, h, Relinks.refl s _, by rw [merge]⟩
        simp [scheduleSink, he, root]
      | node c y d =>
        rw [merge]
        have h' : s.Holds path (nodeAt true e (nodeAt true y d c) .leaf) := h
        refine scheduleSink_rotate h' (by simp [scheduleSink, he, root]) c ?_
        intro s1 hpri hbelow
        have hrest := ih (l := .leaf) (r := c) hbelow (by simp [toList] at hfuel ⊢; omega)
        rwa [merge] at hrest
    | node a x b =>
      have hleft : s.Holds path (nodeAt false e (nodeAt false x a b) r) := h
      cases r with
      | leaf =>
        rw [merge]
        refine scheduleSink_rotate hleft (by simp [scheduleSink, he, root]) b ?_
        intro s1 hpri hbelow
        have hrest := ih (l := b) (r := .leaf) hbelow (by simp [toList] at hfuel ⊢; omega)
        rwa [merge_leaf] at hrest
      | node c y d =>
        rw [merge]
        by_cases hless : s.pri x < s.pri y
        · rw [if_pos hless]
          refine scheduleSink_rotate hleft ?_ (merge s.pri b (.node c y d)) ?_
          · simp only [scheduleSink, he, root]
            rw [show (if (s.entry x).pri < (s.entry y).pri then x else y) = x from if_pos hless]
          · intro s1 hpri hbelow
            rw [← hpri]
            exact ih (l := b) (r := .node c y d) hbelow
              (by simp [toList] at hfuel ⊢; omega)
        · rw [if_neg hless]
          have hr : s.Holds path
              (nodeAt true e (nodeAt true y d c) (.node a x b)) := h
          refine scheduleSink_rotate hr ?_ (merge s.pri (.node a x b) c) ?_
          · simp only [scheduleSink, he, root]
            rw [show (if (s.entry x).pri < (s.entry y).pri then x else y) = y from if_neg hless]
          · intro s1 hpri hbelow
            rw [← hpri]
            exact ih (l := .node a x b) (r := c) hbelow
              (by simp [toList] at hfuel ⊢; omega)

theorem scheduleDetachParent_spec (h : s.Holds path (.node .leaf e .leaf)) :
    ∃ s', scheduleDetachParent s e = some s' ∧ s'.Holds path .leaf ∧
      s'.links e = ⟨none, none, none⟩ ∧ Relinks s s' (e :: contextNodes path) := by
  have he := h.tree.1
  obtain ⟨hctx, _, hdj⟩ := List.nodup_append.mp h.nodup
  have hout : e ∉ contextNodes path := fun hin => hdj e hin e (by simp [toList]) rfl
  cases path with
  | nil =>
    have hroot : s.root = some e := h.context
    have hpar : (s.entry e).parent = none := congrArg Links.parent he
    refine ⟨{ s with root := none }, ?_, ⟨List.nodup_nil, rfl, trivial⟩, he,
      ⟨fun _ => rfl, fun _ => rfl, rfl, fun _ _ => rfl⟩⟩
    rw [scheduleDetachParent, hpar]
    simp [hroot]
  | cons f path =>
    have hpar : (s.entry e).parent = some f.node := congrArg Links.parent he
    obtain ⟨hlt, hgt⟩ := child_of_context h.context hout
    have hne : f.node ≠ e := fun heq => hout (by simp [contextNodes, heq])
    have hdetach : scheduleDetachParent s e =
        some ((s.modify f.node fun x => x.setChild f.gt none).modify e
          fun x => { x with parent := none }) := by
      rw [scheduleDetachParent, hpar]
      cases hside : f.gt with
      | true =>
        simp only
        rw [if_neg (by simp [hlt, hside]), if_pos (hgt.mpr hside)]
        rfl
      | false =>
        simp only
        rw [if_pos (hlt.mpr hside)]
        rfl
    refine ⟨_, hdetach, h.replace List.nodup_nil (fun _ hx => absurd hx List.not_mem_nil) trivial
      ?_, ?_, ?_⟩
    · refine (relinked_setChild h.context hctx none).congr fun x hx => ?_
      have hxe : x ≠ e := fun heq => hout (heq ▸ hx)
      simp only [Schedule.links]
      rw [entry_modify _ e, if_neg hxe]
    · simp only [Schedule.links, Links.mk.injEq] at he
      simp [Schedule.links, entry_modify, hne.symm, he, root]
    · refine Relinks.modify ?_ (by exact fun _ => ⟨rfl, rfl⟩) List.mem_cons_self
      exact (Relinks.refl s _).modify (setChild_keys) (by simp [contextNodes])

/-- **Removal.** The entry is out of the tree, with no links. -/
theorem scheduleRemoveNode_spec {fuel : Nat} {l r : BinTree Nat}
    (h : s.Holds path (.node l e r))
    (hfuel : l.toList.length + r.toList.length < fuel) :
    ∃ s', scheduleRemoveNode fuel s e = some s' ∧
      s'.Holds [] (plug path (merge s.pri l r)) ∧
      s'.entry e = ⟨(s.entry e).tv, 0, none, none, none⟩ ∧
      (∀ x ≠ e, SameKey s s' x) ∧
      s'.earliestWakeup = s.earliestWakeup ∧
      ∀ x ∉ (plug path (.node l e r)).toList, s'.entry x = s.entry x := by
  obtain ⟨s1, path', hsink, hleaf, hrel, hplug⟩ := scheduleSink_spec fuel h hfuel
  obtain ⟨s2, hdetach, hgone, hlinks, hrel'⟩ := scheduleDetachParent_spec hleaf
  -- what is left was there before
  have hsub : ∀ x ∈ contextNodes path', x ∈ (plug path (.node l e r)).toList := by
    intro x hx
    have hin : x ∈ (plug path' .leaf).toList := by
      rw [(toList_plug_perm path' .leaf).mem_iff]
      exact List.mem_append_left _ hx
    rw [hplug] at hin
    simp only [toList_plug, toList_merge, toList, List.mem_append, List.mem_cons] at hin ⊢
    grind
  refine ⟨s2.withPri e 0, ?_, ?_, ?_, ?_, ?_, ?_⟩
  · rw [scheduleRemoveNode, hsink, Option.bind_some, hdetach, Option.map_some, Schedule.withPri]
  · rw [← hplug, holds_withPri]
    exact linked_plug.mp hgone
  · simp only [Schedule.links, Links.mk.injEq] at hlinks
    rw [entry_withPri, if_pos rfl, hlinks.1, hlinks.2.1, hlinks.2.2, hrel'.tv, hrel.tv]
  · intro x hx
    rw [SameKey, Schedule.pri, entry_withPri, if_neg hx, hrel'.tv, hrel.tv, hrel'.pri, hrel.pri]
    exact ⟨rfl, rfl⟩
  · exact hrel'.wakeup.trans hrel.wakeup
  · intro x hx
    have hxe : x ≠ e := fun heq => hx (by simp [heq, toList_plug, toList])
    rw [entry_withPri, if_neg hxe, hrel'.outside x, hrel.outside x hx]
    intro hin
    rcases List.mem_cons.mp hin with heq | hin
    · exact hxe heq
    · exact hx (hsub x hin)

end Remove

/-! ## Insertion -/

section Insert

variable {e : Nat}

/-- The entry is linked below the node above the place. -/
def Schedule.attach (s : Schedule) (f : TreeFrame Nat) (e : Nat) : Schedule :=
  (s.modify f.node fun x => x.setChild f.gt (some e)).modify e
    fun x => { x with parent := some f.node }

theorem linked_attach (h : s.Holds (f :: path) .leaf)
    (hnew : e ∉ contextNodes (f :: path)) (he : s.links e = ⟨none, none, none⟩) :
    (s.attach f e).Holds (f :: path) (.node .leaf e .leaf) ∧
      Relinks s (s.attach f e) (plug (f :: path) (.node .leaf e .leaf)).toList := by
  obtain ⟨hctx, _, _⟩ := List.nodup_append.mp h.nodup
  have hne : f.node ≠ e := fun heq => hnew (by simp [contextNodes, heq])
  have hnodes := fun x => (toList_plug_perm (f :: path) (.node .leaf e .leaf)).mem_iff (a := x)
  constructor
  · refine h.replace (by simp [toList]) ?_ ⟨?_, trivial, trivial⟩ ?_
    · intro x hx
      rw [show x = e by simpa [toList] using hx]
      exact hnew
    · simp only [Schedule.links, Links.mk.injEq] at he
      simp [Schedule.attach, Schedule.links, entry_modify, hne.symm, he, root, parentOf]
    · refine (relinked_setChild h.context hctx (some e)).congr fun x hx => ?_
      have hxe : x ≠ e := fun heq => hnew (heq ▸ hx)
      simp only [Schedule.attach, Schedule.links]
      rw [entry_modify _ e, if_neg hxe]
  · refine Relinks.modify ?_ (by exact fun _ => ⟨rfl, rfl⟩) (by simp [hnodes, toList])
    exact (Relinks.refl s _).modify (setChild_keys) (by simp [hnodes, contextNodes])

/-- How the new entry compares with those of the tree. -/
def Schedule.compare (s : Schedule) (e x : Nat) : Ordering :=
  scheduleEntryCompare (s.entry e) (s.entry x)

/-- What the loop of `schedule_insert` does below a place, from `c` on. -/
def DescendOk (s : Schedule) (e fuel c : Nat) (path : List (TreeFrame Nat)) (t : BinTree Nat) :
    Prop :=
  (descend (s.compare e) path t = none → scheduleDescend fuel s e c = some none) ∧
    ∀ place, descend (s.compare e) path t = some place → ∃ f rest, place = f :: rest ∧
      s.Holds place .leaf ∧ scheduleDescend fuel s e c = some (some (s.attach f e))

theorem descendOk_side {fuel c : Nat} {t : BinTree Nat} (h : s.Holds (f :: path) t)
    (hleaf : t.root = none → scheduleDescend (fuel + 1) s e c = some (some (s.attach f e)))
    (hnode : ∀ y, t.root = some y →
      scheduleDescend (fuel + 1) s e c = scheduleDescend fuel s e y ∧
        DescendOk s e fuel y (f :: path) t) : DescendOk s e (fuel + 1) c (f :: path) t := by
  cases t with
  | leaf =>
    refine ⟨fun hnone => by simp [descend] at hnone, fun place hpl => ?_⟩
    cases hpl
    exact ⟨f, path, rfl, h, hleaf rfl⟩
  | node l y r =>
    obtain ⟨hstep, hok⟩ := hnode y rfl
    rwa [DescendOk, hstep]

/-- **The loop of `schedule_insert`** goes down to the place of the entry. -/
theorem scheduleDescend_spec {t : BinTree Nat} :
    ∀ {path : List (TreeFrame Nat)} {fuel c : Nat}, s.Holds path t →
      t.root = some c → t.toList.length ≤ fuel → DescendOk s e fuel c path t := by
  induction t with
  | leaf => exact fun _ hroot => absurd hroot (by simp [root])
  | node l x r ihl ihr =>
    intro path fuel c h hroot hfuel
    cases hroot
    simp only [toList, List.length_append, List.length_cons] at hfuel
    obtain ⟨fuel, rfl⟩ : ∃ n, fuel = n + 1 := ⟨fuel - 1, by omega⟩
    have hx := h.tree.1
    simp only [Schedule.links, Links.mk.injEq] at hx
    have hlt : s.Holds (⟨false, x, r⟩ :: path) l := linked_cons.mpr h
    have hgt : s.Holds (⟨true, x, l⟩ :: path) r := linked_cons.mpr h
    unfold DescendOk
    cases hcmp : s.compare e x with
    | lt =>
      have hcmp' : scheduleEntryCompare (s.entry e) (s.entry x) = .lt := hcmp
      rw [descend, if_pos hcmp]
      refine descendOk_side hlt (fun hl => ?_) fun y hy => ⟨?_, ihl hlt hy (by omega)⟩
      · simp only [scheduleDescend, hcmp', hx.2.1, hl]
        rfl
      · simp only [scheduleDescend, hcmp', hx.2.1, hy]
    | gt =>
      have hcmp' : scheduleEntryCompare (s.entry e) (s.entry x) = .gt := hcmp
      rw [descend, if_neg (by simp [hcmp]), if_pos hcmp]
      refine descendOk_side hgt (fun hr => ?_) fun y hy => ⟨?_, ihr hgt hy (by omega)⟩
      · simp only [scheduleDescend, hcmp', hx.2.2, hr]
        rfl
      · simp only [scheduleDescend, hcmp', hx.2.2, hy]
    | eq =>
      rw [descend, if_neg (by simp [hcmp]), if_neg (by simp [hcmp])]
      refine ⟨fun _ => ?_, fun place hpl => by cases hpl⟩
      simp only [scheduleDescend, show scheduleEntryCompare _ _ = _ from hcmp]

theorem withPri_withPri {s : Schedule} {e p q : Nat} :
    (s.withPri e p).withPri e q = s.withPri e q := by
  simp [Schedule.withPri, Schedule.modify]

/-- What `schedule_set_pri` makes of a draw. -/
def priOf (draw : Nat) : Nat := if draw < 1 then 1 else draw

theorem priOf_ne_zero (draw : Nat) : priOf draw ≠ 0 := by
  rw [priOf]
  split <;> omega

/-- The key with this priority is not in the tree. -/
def FreshPri (s : Schedule) (e : Nat) (t : BinTree Nat) (p : Nat) : Prop :=
  ∀ x ∈ t.toList, (s.withPri e p).compare e x ≠ .eq

/-- **`schedule_insert`** tries the draws up to a fresh one. -/
theorem scheduleInsert_spec {t : BinTree Nat} {fuel c : Nat} (hroot : t.root = some c)
    (hfuel : t.toList.length ≤ fuel) (draws : List Nat) :
    ∀ {p : Nat}, p ≠ 0 → (s.withPri e p).Holds [] t →
      FreshPri s e t p ∨ (∃ d ∈ draws, FreshPri s e t (priOf d)) →
      ∃ q f rest, q ≠ 0 ∧ descend ((s.withPri e q).compare e) [] t = some (f :: rest) ∧
        (s.withPri e q).Holds (f :: rest) .leaf ∧
        scheduleInsert fuel (s.withPri e p) e c draws = some ((s.withPri e q).attach f e) := by
  induction draws with
  | nil =>
    intro p hp h hfr
    have hfr : FreshPri s e t p := by simpa using hfr
    obtain ⟨place, hpl⟩ := descend_isSome [] hfr
    obtain ⟨f, rest, rfl, hlk, hdesc⟩ := (scheduleDescend_spec h hroot hfuel).2 _ hpl
    refine ⟨p, f, rest, hp, hpl, hlk, ?_⟩
    rw [scheduleInsert, hdesc]
    rfl
  | cons d draws ih =>
    intro p hp h hfr
    obtain ⟨hcollide, hfnd⟩ := scheduleDescend_spec (e := e) h hroot hfuel
    cases hpl : descend ((s.withPri e p).compare e) [] t with
    | some place =>
      obtain ⟨f, rest, rfl, hlk, hdesc⟩ := hfnd _ hpl
      refine ⟨p, f, rest, hp, hpl, hlk, ?_⟩
      rw [scheduleInsert, hdesc]
    | none =>
      -- the key is there, so this draw was not fresh
      have hstale : ¬FreshPri s e t p := by
        intro hfr
        obtain ⟨place, hsome⟩ := descend_isSome [] hfr
        rw [hpl] at hsome
        cases hsome
      have hrest : FreshPri s e t (priOf d) ∨ ∃ d' ∈ draws, FreshPri s e t (priOf d') := by
        rcases hfr with hfr | ⟨d', hd', hfr⟩
        · exact absurd hfr hstale
        · rcases List.mem_cons.mp hd' with rfl | hd'
          · exact Or.inl hfr
          · exact Or.inr ⟨d', hd', hfr⟩
      have hnext := ih (priOf_ne_zero d) (by simpa using h) hrest
      rw [scheduleInsert, hcollide hpl]
      rwa [← withPri_withPri] at hnext

/-- **The loop of `schedule_add_modify`** rotates the entry up. -/
theorem scheduleRaise_spec (path : List (TreeFrame Nat)) :
    ∀ {s : Schedule} {l r : BinTree Nat} {fuel : Nat},
      s.Holds path (.node l e r) → path.length < fuel →
      ∃ s', scheduleRaise fuel s e = some s' ∧
        s'.Holds [] (bubble s.pri path l e r) ∧
        Relinks s s' (plug path (.node l e r)).toList := by
  induction path with
  | nil =>
    intro s l r fuel h hfuel
    obtain ⟨fuel, rfl⟩ : ∃ n, fuel = n + 1 := ⟨fuel - 1, by omega⟩
    have hpar : (s.entry e).parent = none := congrArg Links.parent h.tree.1
    refine ⟨s, ?_, h, Relinks.refl s _⟩
    rw [scheduleRaise, hpar]
  | cons f path ih =>
    intro s l r fuel h hfuel
    obtain ⟨fuel, rfl⟩ : ∃ n, fuel = n + 1 := ⟨fuel - 1, by omega⟩
    have hpar : (s.entry e).parent = some f.node := congrArg Links.parent h.tree.1
    have hraise : scheduleRaise (fuel + 1) s e = if s.pri e < s.pri f.node then
        (scheduleRotateUp s e).bind fun s => scheduleRaise fuel s e else some s := by
      rw [scheduleRaise, hpar]
      rfl
    rw [hraise, bubble]
    by_cases hless : s.pri e < s.pri f.node
    · rw [if_pos hless, if_pos hless]
      obtain ⟨side, p, other⟩ := f
      simp only [List.length_cons] at hfuel
      -- the same rotation on either side
      have hturn : ∀ outer inner {l' r'}, nodeAt side e outer inner = .node l e r →
          nodeAt (!side) e (nodeAt side p inner other) outer = .node l' e r' →
          ∃ s', ((scheduleRotateUp s e).bind fun s => scheduleRaise fuel s e) = some s' ∧
            s'.Holds [] (bubble s.pri path l' e r') ∧
            Relinks s s' (plug path (nodeAt side p (.node l e r) other)).toList := by
        intro outer inner l' r' hin hout
        rw [← hin]
        obtain ⟨s1, hrotate, hlk, hrel⟩ :=
          scheduleRotateUp_spec (show s.Holds path _ from hin ▸ linked_cons.mp h)
        rw [hout] at hlk
        obtain ⟨s', hloop, hdone, hrel'⟩ := ih hlk (Nat.lt_of_succ_lt_succ hfuel)
        rw [hrel.pri_eq] at hdone
        refine ⟨s', by rw [hrotate, Option.bind_some, hloop], hdone, hrel.trans ?_⟩
        convert hrel' using 1
        rw [← hout]
        cases side <;> simp [toList_plug, nodeAt, toList]
      cases side with
      | true => exact hturn r l rfl rfl
      | false => exact hturn l r rfl rfl
    · rw [if_neg hless, if_neg hless]
      exact ⟨s, rfl, linked_plug.mp h, Relinks.refl s _⟩

end Insert

end OpenVpn
