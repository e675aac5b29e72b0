import OpenVpn.Util.Schedule

/-!
# The scheduler is a set of timed entries

* `TreapOk` — the memory holds a treap; removal (`TreapOk.removeNode`) and insertion
  (`TreapOk.addFresh`) keep it.
* `ScheduleOk` — the treap is that of the entries that were added and not removed since
  (`requestsOf`), and the cached entry is the first one. `Near` — each has a time within
  the tolerance of the last request.
* `schedule_refines_timed_set` — every run keeps it, and the earliest wakeup is a
  minimum.
-/

namespace OpenVpn

open Base BinTree List

/-! ## Keys -/

theorem scheduleEntryCompare_lt (a b : ScheduleEntry) : scheduleEntryCompare a b = .lt ↔
    a.tv.sec < b.tv.sec ∨ (a.tv.sec = b.tv.sec ∧ (a.tv.usec < b.tv.usec ∨
      (a.tv.usec = b.tv.usec ∧ a.pri < b.pri))) := by
  grind [scheduleEntryCompare]

theorem scheduleEntryCompare_gt (a b : ScheduleEntry) :
    scheduleEntryCompare a b = .gt ↔ scheduleEntryCompare b a = .lt := by
  grind [scheduleEntryCompare]

theorem scheduleEntryCompare_eq {a b : ScheduleEntry} (h : scheduleEntryCompare a b = .eq) :
    a.tv = b.tv ∧ a.pri = b.pri := by
  have hkey : a.tv.sec = b.tv.sec ∧ a.tv.usec = b.tv.usec ∧ a.pri = b.pri := by
    grind [scheduleEntryCompare]
  obtain ⟨⟨asec, ausec, _⟩, apri, _, _, _⟩ := a
  obtain ⟨⟨bsec, busec, _⟩, bpri, _, _, _⟩ := b
  simp_all

def Schedule.Less (s : Schedule) (x y : Nat) : Prop :=
  scheduleEntryCompare (s.entry x) (s.entry y) = .lt

theorem Schedule.less_trans (s : Schedule) (x y z : Nat) (hxy : s.Less x y) (hyz : s.Less y z) :
    s.Less x z := by
  simp only [Schedule.Less, scheduleEntryCompare_lt] at *
  omega

theorem less_congr {s s' : Schedule} {x y : Nat} (hx : SameKey s s' x) (hy : SameKey s s' y) :
    s'.Less x y ↔ s.Less x y := by
  simp only [SameKey, Schedule.Less, Schedule.pri, scheduleEntryCompare_lt] at *
  rw [hx.1, hx.2, hy.1, hy.2]

theorem pairwise_less_congr {s s' : Schedule} {l : List Nat} (h : l.Pairwise s.Less)
    (hsame : ∀ x ∈ l, SameKey s s' x) : l.Pairwise s'.Less :=
  h.imp_of_mem fun hx hy hless => (less_congr (hsame _ hx) (hsame _ hy)).mpr hless

theorem Schedule.Less.micros_le {s : Schedule} {x y : Nat} (h : s.Less x y) :
    (s.entry x).tv.micros ≤ (s.entry y).tv.micros := by
  have hx := (s.entry x).tv.normal
  have hy := (s.entry y).tv.normal
  simp only [Schedule.Less, scheduleEntryCompare_lt] at h
  simp only [Timeval.micros]
  omega

theorem tvWithinSigma_micros {t1 t2 : Timeval} {sigma : Nat} (h : tvWithinSigma t1 t2 sigma = true)
    (hsigma : sigma < 600000000) (hsec : (t1.sec - t2.sec).natAbs < 2 ^ 31) :
    (t2.micros - t1.micros).natAbs ≤ sigma := by
  have hsigma' : (sigma : Int).bmod (2 ^ 32) = sigma := by
    rw [Int.bmod_eq_of_le] <;> omega
  have hsec' : (t1.sec - t2.sec).bmod (2 ^ 32) = t1.sec - t2.sec := by
    rw [Int.bmod_eq_of_le] <;> omega
  simp only [tvWithinSigma, tvSubtract, hsigma', hsec', TV_WITHIN_SIGMA_MAX_SEC,
    decide_eq_true_eq] at h
  simp only [Timeval.micros]
  grind [constrainInt]

/-! ## The treap in memory -/

/-- The memory holds the treap: the links are those of the tree, which is a search tree by
time and priority and a heap by priority; the entries in it are those with a priority. -/
structure TreapOk (s : Schedule) (t : BinTree Nat) : Prop where
  linked : Linked s.links s.root [] t
  order : Ordered s.Less t
  heap : HeapFrom s.pri 0 t
  inTree : ∀ x, x ∈ t.toList ↔ s.pri x ≠ 0
  out : ∀ x ∉ t.toList, s.links x = ⟨none, none, none⟩

/-- The schedules differ at most in the time of `e`. -/
structure SameBut (s s' : Schedule) (e : Nat) : Prop where
  root : s'.root = s.root
  links : s'.links = s.links
  pri : s'.pri = s.pri
  tv : ∀ x ≠ e, (s'.entry x).tv = (s.entry x).tv

section Treap

variable {s s' : Schedule} {t : BinTree Nat} {e fuel : Nat}

section

variable (hok : TreapOk s t)

include hok

theorem TreapOk.pairwise : t.toList.Pairwise s.Less :=
  (ordered_iff s.less_trans t).mp hok.order

theorem TreapOk.congr (hs : SameBut s s' e) (he : e ∉ t.toList) :
    TreapOk s' t where
  linked := by
    rw [hs.links, hs.root]
    exact hok.linked
  order := by
    refine (ordered_iff s'.less_trans t).mpr (pairwise_less_congr hok.pairwise fun z hz => ?_)
    exact ⟨hs.tv z fun heq => he (heq ▸ hz), by rw [hs.pri]⟩
  heap := by
    rw [hs.pri]
    exact hok.heap
  inTree := by
    rw [hs.pri]
    exact hok.inTree
  out := by
    rw [hs.links]
    exact hok.out

/-- **Removal of an entry of the tree.** Its time may have been overwritten. -/
theorem TreapOk.removeNode (hs : SameBut s s' e) (he : e ∈ t.toList)
    (hfuel : t.toList.length ≤ fuel) :
    ∃ s'' t', scheduleRemoveNode fuel s' e = some s'' ∧ TreapOk s'' t' ∧
      (∀ x, x ∈ t'.toList ↔ x ∈ t.toList ∧ x ≠ e) ∧
      (∀ x, (s''.entry x).tv = (s'.entry x).tv) ∧ (∀ x ≠ e, s''.pri x = s'.pri x) ∧
      s''.earliestWakeup = s'.earliestWakeup ∧ t'.toList.length ≤ t.toList.length := by
  obtain ⟨place, l, r, hpl⟩ := exists_place [] he
  rw [plug] at hpl
  subst hpl
  have hlk := hok.linked
  rw [← hs.links, ← hs.root, ← linked_plug] at hlk
  have hlen := (toList_plug_perm place (.node l e r)).length_eq
  simp only [toList, length_append, length_cons] at hlen
  obtain ⟨s'', hrem, hlinked'', hent, hkeys, hwakeup, hout⟩ :=
    scheduleRemoveNode_spec hlk (show l.toList.length + r.toList.length < fuel by omega)
  -- what is left, in order
  have hlist := toList_plug place (.node l e r)
  have hlist' := toList_plug place (merge s'.pri l r)
  rw [toList_merge] at hlist'
  simp only [toList] at hlist
  have hnd := (linked_nil.mp hok.linked).1
  have hmem : ∀ x, x ∈ (plug place (merge s'.pri l r)).toList ↔
      x ∈ (plug place (.node l e r)).toList ∧ x ≠ e := by
    intro x
    rw [hlist] at hnd
    rw [hlist, hlist']
    grind
  have hsame : ∀ x ∈ (plug place (merge s'.pri l r)).toList, SameKey s s'' x := by
    intro x hx
    have hne := ((hmem x).mp hx).2
    exact ⟨(hkeys x hne).1.trans (hs.tv x hne), (hkeys x hne).2.trans (by rw [hs.pri])⟩
  have hpri_e : s''.pri e = 0 := by
    rw [Schedule.pri, hent]
  refine ⟨s'', plug place (merge s'.pri l r), hrem, ⟨hlinked'', ?_, ?_, ?_, ?_⟩, hmem, ?_, ?_,
    hwakeup, ?_⟩
  · have hsub : (plug place (merge s'.pri l r)).toList.Sublist
        (plug place (.node l e r)).toList := by
      rw [hlist, hlist']
      exact ((List.Sublist.refl _).append ((List.Sublist.refl _).append
        (sublist_cons_self e _))).append (List.Sublist.refl _)
    exact (ordered_iff s''.less_trans _).mpr
      (pairwise_less_congr (hok.pairwise.sublist hsub) hsame)
  · obtain ⟨hctx, hbd, hl, hr⟩ := (heapFrom_plug place (.node l e r)).mp hok.heap
    refine heapFrom_congr (fun x hx => (hsame x hx).2) ?_
    rw [heapFrom_plug, hs.pri]
    exact ⟨hctx, heapFrom_merge l r (hl.mono hbd) (hr.mono hbd)⟩
  · intro x
    rw [hmem, hok.inTree]
    by_cases hx : x = e
    · simp [hx, hpri_e]
    · rw [(hkeys x hx).2, hs.pri]
      simp [hx]
  · intro x hx
    by_cases hxe : x = e
    · rw [hxe, Schedule.links, hent]
    · have hnot : x ∉ (plug place (.node l e r)).toList := fun hin => hx ((hmem x).mpr ⟨hin, hxe⟩)
      rw [Schedule.links, hout x hnot, ← Schedule.links, hs.links]
      exact hok.out x hnot
  · intro x
    by_cases hxe : x = e
    · rw [hxe, hent]
    · exact (hkeys x hxe).1
  · exact fun x hx => (hkeys x hx).2
  · rw [hlist, hlist']
    simp only [length_append, length_cons]
    omega

theorem TreapOk.removeNode_out (he : e ∉ t.toList) (hfuel : 0 < fuel) :
    scheduleRemoveNode fuel s e = some (s.withPri e 0) ∧ TreapOk (s.withPri e 0) t := by
  obtain ⟨fuel, rfl⟩ : ∃ n, fuel = n + 1 := ⟨fuel - 1, by omega⟩
  obtain ⟨_, hroot, _⟩ := linked_nil.mp hok.linked
  have hlinks := hok.out e he
  simp only [Schedule.links, Links.mk.injEq] at hlinks
  have hne : s.root ≠ some e := by
    intro heq
    rw [hroot] at heq
    exact he (mem_toList_of_root heq)
  constructor
  · simp [scheduleRemoveNode, scheduleSink, scheduleDetachParent, hlinks, hne, Schedule.withPri]
  · -- its priority was zero before
    have hzero : s.pri e = 0 := by
      rw [hok.inTree] at he
      omega
    have hsame : s.withPri e 0 = s := by
      have hent : ({ s.entry e with pri := 0 } : ScheduleEntry) = s.entry e := by
        rw [← hzero]
        rfl
      simp only [Schedule.withPri, Schedule.modify, hent, Function.update_eq_self]
    rwa [hsame]

/-- **The new entry goes up** from its place to where the heap order is right. -/
theorem TreapOk.raise (he : e ∉ t.toList) {q : Nat} (hq : q ≠ 0) {place : List (TreeFrame Nat)}
    (hpl : plug place .leaf = t) (hbef : ∀ y ∈ before place, (s.withPri e q).Less y e)
    (haft : ∀ y ∈ after place, (s.withPri e q).Less e y)
    (hlk : s'.Holds place (.node .leaf e .leaf))
    (hrel : Relinks (s.withPri e q) s' (plug place (.node .leaf e .leaf)).toList)
    (hfuel : t.toList.length < fuel) :
    ∃ s'' t', scheduleRaise fuel s' e = some s'' ∧ TreapOk s'' t' ∧
      (∀ x, x ∈ t'.toList ↔ x = e ∨ x ∈ t.toList) ∧
      (∀ x, (s''.entry x).tv = (s.entry x).tv) ∧ t'.toList.length = t.toList.length + 1 := by
  subst hpl
  have hlen := (toList_plug_perm place .leaf).length_eq
  have hdepth := length_le_contextNodes place
  simp only [toList, append_nil] at hlen
  obtain ⟨s'', hraise, hlinked'', hrel''⟩ :=
    scheduleRaise_spec place hlk (show place.length < fuel by omega)
  -- the entries before and after the new one
  have hlist : (plug place .leaf).toList = before place ++ after place := by
    simp [toList_plug, toList]
  have hlist' : (bubble s'.pri place .leaf e .leaf).toList = before place ++ e :: after place := by
    simp [toList_bubble, toList_plug, toList]
  have hmem : ∀ x, x ∈ (bubble s'.pri place .leaf e .leaf).toList ↔
      x = e ∨ x ∈ (plug place .leaf).toList := by
    intro x
    simp only [hlist, hlist', mem_append, mem_cons]
    exact or_left_comm
  have hkeys : ∀ x, SameKey (s.withPri e q) s'' x := fun x =>
    ⟨(hrel''.tv x).trans (hrel.tv x), (hrel''.pri x).trans (hrel.pri x)⟩
  have hpri : ∀ x ≠ e, s''.pri x = s.pri x := by
    intro x hx
    rw [(hkeys x).2, Schedule.pri, entry_withPri, if_neg hx, Schedule.pri]
  have hpri_e : s''.pri e = q := by
    rw [(hkeys e).2, Schedule.pri, entry_withPri, if_pos rfl]
  have htv : ∀ x, (s''.entry x).tv = (s.entry x).tv := by
    intro x
    rw [(hkeys x).1, entry_withPri]
    split <;> rfl
  have hnodes : ∀ x, x ∈ (plug place (.node .leaf e .leaf)).toList ↔
      x = e ∨ x ∈ (plug place .leaf).toList := by
    intro x
    rw [← hmem, toList_bubble]
  refine ⟨s'', bubble s'.pri place .leaf e .leaf, hraise, ⟨hlinked'', ?_, ?_, ?_, ?_⟩, hmem, htv,
    ?_⟩
  · have hless : ∀ x y, (s.withPri e q).Less x y → s''.Less x y :=
      fun x y h => (less_congr (hkeys x) (hkeys y)).mpr h
    have hsort : (before place ++ after place).Pairwise s''.Less := by
      rw [← hlist]
      exact pairwise_less_congr hok.pairwise fun x hx =>
        ⟨htv x, hpri x fun heq => he (heq ▸ hx)⟩
    refine (ordered_iff s''.less_trans _).mpr ?_
    rw [hlist']
    rw [pairwise_append] at hsort
    refine pairwise_append.mpr ⟨hsort.1, pairwise_cons.mpr
      ⟨fun y hy => hless e y (haft y hy), hsort.2.1⟩, fun x hx y hy => ?_⟩
    rcases mem_cons.mp hy with rfl | hy
    · exact hless x y (hbef x hx)
    · exact hsort.2.2 x hx y hy
  · have hheap : HeapFrom s'.pri 0 (plug place .leaf) := by
      refine heapFrom_congr (fun x hx => ?_) hok.heap
      rw [← hpri x fun heq => he (heq ▸ hx), hrel''.pri_eq]
    have hctx := ((heapFrom_plug place .leaf).mp hheap).1
    rw [hrel''.pri_eq]
    exact heapFrom_bubble place .leaf e .leaf hctx ⟨trivial, trivial⟩ ⟨trivial, trivial⟩
  · intro x
    rw [hmem]
    by_cases hx : x = e
    · simp [hx, hpri_e, hq]
    · simp [hx, hpri x hx, hok.inTree]
  · intro x hx
    have hnot : x ∉ (plug place (.node .leaf e .leaf)).toList := fun hin =>
      hx ((hmem x).mpr ((hnodes x).mp hin))
    have hxe : x ≠ e := fun heq => hx ((hmem x).mpr (.inl heq))
    rw [Schedule.links, hrel''.outside x hnot, hrel.outside x hnot, ← Schedule.links, links_withPri]
    exact hok.out x fun hin => hx ((hmem x).mpr (.inr hin))
  · simp only [hlist, hlist', length_append, length_cons]
    omega

/-- No entry of the tree but `e` has the time and a priority that is drawn. -/
def FreshDraw (s : Schedule) (e : Nat) (tv : Timeval) (draws : List Nat) : Prop :=
  ∃ d ∈ draws, ∀ x ≠ e, (s.entry x).tv = tv → s.pri x ≠ priOf d

/-- **Insertion of an entry that is not in the tree.** -/
theorem TreapOk.addFresh (he : e ∉ t.toList) {draws : List Nat}
    (hfr : FreshDraw s e (s.entry e).tv draws) (hfuel : t.toList.length < fuel) :
    ∃ s' t', scheduleAddFresh fuel s e draws = some s' ∧ TreapOk s' t' ∧
      (∀ x, x ∈ t'.toList ↔ x = e ∨ x ∈ t.toList) ∧
      (∀ x, (s'.entry x).tv = (s.entry x).tv) ∧ t'.toList.length = t.toList.length + 1 := by
  obtain ⟨_, hroot, _⟩ := linked_nil.mp hok.linked
  obtain ⟨d, hd, hfr⟩ := hfr
  cases draws with
  | nil => exact absurd hd not_mem_nil
  | cons draw draws =>
    rw [scheduleAddFresh, show scheduleSetPri s e draw = s.withPri e (priOf draw) from rfl,
      show (s.withPri e (priOf draw)).root = s.root from rfl]
    cases hcase : s.root with
    | none =>
      -- the entry is the whole tree
      have hleaf : t = .leaf := root_eq_none.mp (hroot ▸ hcase)
      refine hok.raise he (priOf_ne_zero draw) (show plug [] .leaf = t from hleaf.symm)
        (fun _ hy => absurd hy not_mem_nil) (fun _ hy => absurd hy not_mem_nil)
        (linked_nil.mpr ⟨by simp [toList], rfl, ?_, trivial, trivial⟩)
        ⟨fun _ => rfl, fun _ => rfl, rfl, fun _ _ => rfl⟩ hfuel
      exact (congrFun (links_withPri s e _) e).trans (hok.out e he)
    | some c =>
      have hfresh' : FreshPri s e t (priOf d) := by
        intro x hx heq
        have hxe : x ≠ e := fun hxe => he (hxe ▸ hx)
        have hkey := scheduleEntryCompare_eq heq
        simp only [entry_withPri, if_true, if_neg hxe] at hkey
        exact hfr x hxe hkey.1.symm hkey.2.symm
      obtain ⟨q, f, rest, hq, hdesc, hpl, hinsert⟩ :=
        scheduleInsert_spec (s := s) (e := e) (hroot.symm.trans hcase) (Nat.le_of_lt hfuel) draws
          (priOf_ne_zero draw) (by simpa using hok.linked) (by
            rcases mem_cons.mp hd with rfl | hd
            · exact Or.inl hfresh'
            · exact Or.inr ⟨d, hd, hfresh'⟩)
      have hsort : t.toList.Pairwise (s.withPri e q).Less := by
        refine pairwise_less_congr hok.pairwise fun x hx => ?_
        have hxe : x ≠ e := fun hxe => he (hxe ▸ hx)
        simp [SameKey, Schedule.pri, entry_withPri, hxe]
      obtain ⟨hplug, hbef, haft⟩ := descend_spec (s.withPri e q).less_trans
        (fun y hy => hy) (fun y hy => (scheduleEntryCompare_gt _ _).mp hy) hdesc hsort
        (fun _ hy => absurd hy not_mem_nil) (fun _ hy => absurd hy not_mem_nil)
      have hnew : e ∉ contextNodes (f :: rest) := by
        intro hin
        apply he
        rw [show t = plug (f :: rest) .leaf from hplug.symm,
          (toList_plug_perm (f :: rest) .leaf).mem_iff]
        exact mem_append_left _ hin
      obtain ⟨hlinked', hrel⟩ := linked_attach hpl hnew
        ((congrFun (links_withPri s e q) e).trans (hok.out e he))
      simp only [hinsert, Option.bind_some]
      exact hok.raise he hq hplug hbef haft hlinked' hrel hfuel

/-- **`schedule_add_modify`.** The time of the entry may have been overwritten. -/
theorem TreapOk.addModify (hs : SameBut s s' e) {draws : List Nat}
    (hfr : FreshDraw s' e (s'.entry e).tv draws) (hfuel : t.toList.length < fuel) :
    ∃ s'' t', scheduleAddModify fuel s' e draws = some s'' ∧ TreapOk s'' t' ∧
      (∀ x, x ∈ t'.toList ↔ x = e ∨ x ∈ t.toList) ∧
      (∀ x, (s''.entry x).tv = (s'.entry x).tv) ∧ t'.toList.length ≤ t.toList.length + 1 := by
  by_cases hin : e ∈ t.toList
  · obtain ⟨s1, t1, hrem, hok1, hmem1, htv1, hpri1, _, hlength1⟩ :=
      hok.removeNode hs hin (Nat.le_of_lt hfuel)
    have hfresh1 : FreshDraw s1 e (s1.entry e).tv draws := by
      obtain ⟨d, hd, hoth⟩ := hfr
      refine ⟨d, hd, fun x hx htv => ?_⟩
      rw [hpri1 x hx]
      exact hoth x hx (by rwa [htv1, htv1] at htv)
    obtain ⟨s2, t2, hadd, hok2, hmem2, htv2, hlength2⟩ :=
      hok1.addFresh (fun he => ((hmem1 e).mp he).2 rfl) hfresh1
        (show t1.toList.length < fuel by omega)
    have hpri : (s'.entry e).pri ≠ 0 := by
      have hne := (hok.inTree e).mp hin
      rwa [← hs.pri] at hne
    refine ⟨s2, t2, ?_, hok2, ?_, fun x => (htv2 x).trans (htv1 x), by omega⟩
    · rw [scheduleAddModify, if_pos hpri, hrem, Option.bind_some, hadd]
    · intro x
      rw [hmem2, hmem1]
      by_cases hx : x = e
      · simp [hx]
      · simp [hx]
  · have hpri : (s'.entry e).pri = 0 := by
      have heq : s.pri e = 0 := by
        have hne := mt (hok.inTree e).mpr hin
        omega
      rwa [← hs.pri] at heq
    obtain ⟨s2, t2, hadd, hok2, hmem2, htv2, hlength2⟩ := (hok.congr hs hin).addFresh hin hfr hfuel
    refine ⟨s2, t2, ?_, hok2, hmem2, htv2, by omega⟩
    rw [scheduleAddModify, if_neg (by simpa using hpri), Option.bind_some, hadd]

end

/-- **`schedule_find_least`** finds the first entry. -/
theorem scheduleFindLeast_spec {t : BinTree Nat} :
    ∀ {parent : Option Nat} {c fuel : Nat}, LinkedTree s.links parent t → t.root = some c →
      t.toList.length ≤ fuel → scheduleFindLeast fuel s c = t.toList.head? := by
  induction t with
  | leaf => exact fun _ hroot => absurd hroot (by simp [BinTree.root])
  | node l x r ihl _ =>
    intro parent c fuel h hroot hfuel
    cases hroot
    simp only [toList, length_append, length_cons] at hfuel
    obtain ⟨fuel, rfl⟩ : ∃ n, fuel = n + 1 := ⟨fuel - 1, by omega⟩
    obtain ⟨hx, hl, _⟩ := h
    simp only [Schedule.links, Links.mk.injEq] at hx
    cases l with
    | leaf => simp [scheduleFindLeast, hx.2.1, BinTree.root, toList]
    | node a y b =>
      simp only [scheduleFindLeast, hx.2.1, BinTree.root]
      rw [ihl hl rfl (by omega)]
      simp [toList, head?_append]

end Treap

/-! ## The set of timed entries -/

/-- What was asked for: the last time and tolerance of each entry that is scheduled. -/
abbrev Requests : Type := Nat → Option (Timeval × Nat)

def Requests.step (r : Requests) : ScheduleEvent → Requests
  | .add e tv sigma _ => Function.update r e (some (tv, sigma))
  | .remove e => Function.update r e none
  | .earliest => r

def requestsOf (es : List ScheduleEvent) : Requests := es.foldl Requests.step fun _ => none

/-- The schedule is a treap of the scheduled entries. -/
structure ScheduleOk (s : Schedule) (r : Requests) (t : BinTree Nat) : Prop where
  treap : TreapOk s t
  scheduled : ∀ x, x ∈ t.toList ↔ (r x).isSome
  cache : ∀ x, s.earliestWakeup = some x → t.toList.head? = some x

/-- The times of the entries are near enough to those that were asked for. -/
def Near (s : Schedule) (r : Requests) : Prop :=
  ∀ x tv sigma, r x = some (tv, sigma) → ((s.entry x).tv.micros - tv.micros).natAbs ≤ sigma

/-- The answer is an entry with the least time, or there is no entry. -/
def Earliest (s : Schedule) (r : Requests) (answer : Option (Nat × Timeval)) : Prop :=
  (answer = none → ∀ x, r x = none) ∧
    ∀ x tv, answer = some (x, tv) → (r x).isSome ∧ tv = (s.entry x).tv ∧
      ∀ y, (r y).isSome → tv.micros ≤ (s.entry y).tv.micros

/-- A collision retry draws a fresh priority in the end. -/
def ScheduleGuard (s : Schedule) : ScheduleEvent → Prop
  | .add e tv _ draws => FreshDraw s e tv draws
  | _ => True

/-- Where a tolerance is given for an entry that is scheduled, it is below ten minutes, and
the times are less than 2^31 seconds apart. -/
def SigmaGuard (s : Schedule) : ScheduleEvent → Prop
  | .add e tv sigma _ => s.pri e ≠ 0 → sigma ≠ 0 →
      sigma < 600000000 ∧ (tv.sec - (s.entry e).tv.sec).natAbs < 2 ^ 31
  | _ => True

/-- What an event does to the times of the entries. -/
def Retimed (s s' : Schedule) : ScheduleEvent → Prop
  | .add e tv sigma _ => (∀ x ≠ e, (s'.entry x).tv = (s.entry x).tv) ∧
      ((s'.entry e).tv = tv ∨ s' = s ∧ s.pri e ≠ 0 ∧ sigma ≠ 0 ∧
        tvWithinSigma tv (s.entry e).tv sigma = true)
  | _ => ∀ x, (s'.entry x).tv = (s.entry x).tv

section Steps

variable {s : Schedule} {r : Requests} {t : BinTree Nat} {fuel : Nat}

theorem TreapOk.withWakeup (hok : TreapOk s t) (wakeup : Option Nat) :
    TreapOk { s with earliestWakeup := wakeup } t :=
  ⟨hok.linked, hok.order, hok.heap, hok.inTree, hok.out⟩

section

variable (hok : ScheduleOk s r t)

include hok

/-- **The earliest entry.** -/
theorem ScheduleOk.earliest (hfuel : t.toList.length ≤ fuel) :
    ∃ answer, scheduleGetEarliestWakeup fuel s =
        some ({ s with earliestWakeup := t.toList.head? }, answer) ∧ Earliest s r answer := by
  obtain ⟨_, hroot, hlinks⟩ := linked_nil.mp hok.treap.linked
  refine ⟨t.toList.head?.map fun e => (e, (s.entry e).tv), ?_, ?_, ?_⟩
  · -- the cached entry is the one that would be found
    cases hca : s.earliestWakeup with
    | some e => simp [scheduleGetEarliestWakeup, hca, hok.cache e hca]
    | none =>
      cases hcase : s.root with
      | none =>
        have hleaf : t = .leaf := root_eq_none.mp (hroot ▸ hcase)
        simp [scheduleGetEarliestWakeup, hca, hcase, hleaf, toList]
      | some c =>
        have hfind := scheduleFindLeast_spec hlinks (hroot.symm.trans hcase) hfuel
        have hsome : ∃ e, t.toList.head? = some e := by
          have hmem := mem_toList_of_root (hroot.symm.trans hcase)
          cases hlist : t.toList with
          | nil => rw [hlist] at hmem; exact absurd hmem not_mem_nil
          | cons e rest => exact ⟨e, rfl⟩
        obtain ⟨e, he⟩ := hsome
        simp [scheduleGetEarliestWakeup, hca, hcase, hfind, he]
  · intro hnone x
    have hemp : t.toList = [] := by simpa using hnone
    have hx := hok.scheduled x
    simpa [hemp] using hx
  · intro x tv hanswer
    obtain ⟨e, he, heq⟩ := Option.map_eq_some_iff.mp hanswer
    cases heq
    obtain ⟨rest, hlist⟩ := head?_eq_some_iff.mp he
    refine ⟨(hok.scheduled x).mp (by simp [hlist]), rfl, fun y hy => ?_⟩
    have hin := (hok.scheduled y).mpr hy
    have hsort := hok.treap.pairwise
    rw [hlist] at hin hsort
    rcases mem_cons.mp hin with rfl | hin
    · exact Int.le_refl _
    · exact ((pairwise_cons.mp hsort).1 y hin).micros_le

/-- One entry is asked for, or is no longer asked for. -/
theorem ScheduleOk.update {s' : Schedule} {t' : BinTree Nat} {e : Nat}
    {request : Option (Timeval × Nat)} (htreap : TreapOk s' t')
    (hmem : ∀ x ≠ e, x ∈ t'.toList ↔ x ∈ t.toList) (he : e ∈ t'.toList ↔ request.isSome)
    (hca : ∀ x, s'.earliestWakeup = some x → t'.toList.head? = some x) :
    ScheduleOk s' (Function.update r e request) t' where
  treap := htreap
  scheduled x := by
    by_cases hx : x = e
    · rw [hx, Function.update_self, he]
    · rw [Function.update_of_ne hx, hmem x hx, hok.scheduled]
  cache := hca

/-- **An entry is added**, or its time is near enough as it is. -/
theorem ScheduleOk.add {e : Nat} {tv : Timeval} (sigma : Nat) {draws : List Nat}
    (hfr : FreshDraw s e tv draws) (hfuel : t.toList.length < fuel) :
    ∃ s' t', scheduleAddEntry fuel s e tv sigma draws = some s' ∧
      ScheduleOk s' (r.step (.add e tv sigma draws)) t' ∧ Retimed s s' (.add e tv sigma draws) ∧
      t'.toList.length ≤ t.toList.length + 1 := by
  rw [scheduleAddEntry]
  by_cases hchange : (s.entry e).pri = 0 ∨ sigma = 0 ∨ !tvWithinSigma tv (s.entry e).tv sigma
  · rw [if_pos hchange]
    have hent := entry_modify s e fun x => { x with tv }
    have hs : SameBut s (s.modify e fun x => { x with tv }) e := by
      refine ⟨rfl, ?_, ?_, ?_⟩
      · funext x
        simp only [Schedule.links, hent]
        split <;> rfl
      · funext x
        simp only [Schedule.pri, hent]
        split <;> rfl
      · intro x hx
        rw [hent, if_neg hx]
    have hfresh' : FreshDraw (s.modify e fun x => { x with tv }) e
        ((s.modify e fun x => { x with tv }).entry e).tv draws := by
      obtain ⟨d, hd, hoth⟩ := hfr
      refine ⟨d, hd, fun x hx htv => ?_⟩
      rw [hent, if_neg hx, hent, if_pos rfl] at htv
      rw [hs.pri]
      exact hoth x hx htv
    obtain ⟨s', t', hadd, hok', hmem, htv, hlen⟩ := hok.treap.addModify hs hfresh' hfuel
    refine ⟨_, t', by rw [hadd, Option.map_some], hok.update (hok'.withWakeup none)
      (fun x hx => by simp [hmem, hx]) (by simp [hmem]) ?_, ⟨fun x hx => ?_, .inl ?_⟩, hlen⟩
    · exact fun x hx => by cases hx
    · show (s'.entry x).tv = _
      rw [htv, hent, if_neg hx]
    · show (s'.entry e).tv = _
      rw [htv, hent, if_pos rfl]
  · rw [if_neg hchange]
    simp only [not_or, Bool.not_eq_true', Bool.not_eq_false] at hchange
    have hin : e ∈ t.toList := (hok.treap.inTree e).mpr hchange.1
    exact ⟨s, t, rfl, hok.update hok.treap (fun _ _ => Iff.rfl) (by simp [hin]) hok.cache,
      ⟨fun _ _ => rfl, .inr ⟨rfl, hchange⟩⟩, Nat.le_succ _⟩

/-- **An entry is removed**; it need not be in the tree. -/
theorem ScheduleOk.remove (e : Nat) (hfuel : t.toList.length < fuel) :
    ∃ s' t', scheduleRemoveEntry fuel s e = some s' ∧ ScheduleOk s' (r.step (.remove e)) t' ∧
      (∀ x, (s'.entry x).tv = (s.entry x).tv) ∧ t'.toList.length ≤ t.toList.length := by
  have htreap := hok.treap.withWakeup none
  rw [scheduleRemoveEntry]
  have hres : ∃ s' t', scheduleRemoveNode fuel { s with earliestWakeup := none } e = some s' ∧
      TreapOk s' t' ∧ s'.earliestWakeup = none ∧
      (∀ x, x ∈ t'.toList ↔ x ∈ t.toList ∧ x ≠ e) ∧
      (∀ x, (s'.entry x).tv = (s.entry x).tv) ∧ t'.toList.length ≤ t.toList.length := by
    by_cases he : e ∈ t.toList
    · obtain ⟨s', t', hrem, hok', hmem, htv, _, hwakeup, hlen⟩ := htreap.removeNode
        ⟨rfl, rfl, rfl, fun _ _ => rfl⟩ he (Nat.le_of_lt hfuel)
      exact ⟨s', t', hrem, hok', hwakeup, hmem, htv, hlen⟩
    · obtain ⟨hrem, hok'⟩ := htreap.removeNode_out he (Nat.zero_lt_of_lt hfuel)
      refine ⟨_, t, hrem, hok', rfl, fun x => ?_, fun x => ?_, Nat.le_refl _⟩
      · exact ⟨fun hx => ⟨hx, fun heq => he (heq ▸ hx)⟩, And.left⟩
      · rw [entry_withPri]
        split <;> rfl
  obtain ⟨s', t', hrem, hok', hwakeup, hmem, htv, hlen⟩ := hres
  refine ⟨s', t', hrem, hok.update hok' (fun x hx => by simp [hmem, hx]) (by simp [hmem])
    fun x hx => ?_, htv, hlen⟩
  rw [hwakeup] at hx
  cases hx

theorem ScheduleOk.step {event : ScheduleEvent} (hg : ScheduleGuard s event)
    (hfuel : t.toList.length < fuel) :
    ∃ s' out t', scheduleStep fuel s event = some (s', out) ∧ ScheduleOk s' (r.step event) t' ∧
      Retimed s s' event ∧ t'.toList.length ≤ t.toList.length + 1 := by
  cases event with
  | add e tv sigma draws =>
    obtain ⟨s', t', hadd, hok'⟩ := hok.add sigma hg hfuel
    exact ⟨s', none, t', by rw [scheduleStep, hadd, Option.map_some], hok'⟩
  | remove e =>
    obtain ⟨s', t', hrem, hok', htv, hlen⟩ := hok.remove e hfuel
    exact ⟨s', none, t', by rw [scheduleStep, hrem, Option.map_some], hok', htv,
      Nat.le_succ_of_le hlen⟩
  | earliest =>
    obtain ⟨answer, hget, _⟩ := hok.earliest (Nat.le_of_lt hfuel)
    exact ⟨_, answer, t, hget, ⟨hok.treap.withWakeup _, hok.scheduled, fun x hx => hx⟩,
      fun _ => rfl, Nat.le_succ _⟩

end

/-- An entry keeps a time that the test of the tolerance has found near enough. -/
theorem Near.step {s' : Schedule} {event : ScheduleEvent} (hnear : Near s r)
    (hlimits : SigmaGuard s event) (htm : Retimed s s' event) : Near s' (r.step event) := by
  intro x tv sigma h
  cases event with
  | add e tv' sigma' draws =>
    obtain ⟨hoth, htm⟩ := htm
    by_cases hx : x = e
    · subst hx
      cases (Function.update_self x _ r).symm.trans h
      rcases htm with htv | ⟨rfl, hpri, hsigma, hwithin⟩
      · rw [htv, Int.sub_self]
        exact Nat.zero_le _
      · obtain ⟨hlim, hsec⟩ := hlimits hpri hsigma
        exact tvWithinSigma_micros hwithin hlim hsec
    · rw [hoth x hx]
      exact hnear x tv sigma ((Function.update_of_ne hx _ r).symm.trans h)
  | remove e =>
    have h := (Function.update_apply r e none x).symm.trans h
    split at h
    · cases h
    · rw [htm x]
      exact hnear x tv sigma h
  | earliest =>
    rw [htm x]
    exact hnear x tv sigma h

end Steps

theorem scheduleOk_init : ScheduleOk scheduleInit (fun _ => none) .leaf where
  treap := ⟨linked_nil.mpr ⟨nodup_nil, rfl, trivial⟩, trivial, trivial,
    fun _ => by simp [toList, Schedule.pri, scheduleInit], fun _ _ => rfl⟩
  scheduled _ := by simp [toList]
  cache _ h := by cases h

/-- A run keeps the schedule, and whatever follows from the times of its steps. -/
theorem scheduleOk_run {P : Schedule → Requests → Prop} {G : Schedule → ScheduleEvent → Prop}
    (hP : P scheduleInit fun _ => none)
    (hstep : ∀ s s' r e, P s r → G s e → Retimed s s' e → P s' (r.step e)) {fuel : Nat}
    {es : List ScheduleEvent} (hfuel : es.length < fuel)
    (hg : RunGuard (scheduleStep fuel) (fun s e => ScheduleGuard s e ∧ G s e) scheduleInit es) :
    ∃ s outs, run (scheduleStep fuel) scheduleInit es = some (s, outs) ∧ P s (requestsOf es) ∧
      ∃ t, ScheduleOk s (requestsOf es) t ∧ t.toList.length ≤ es.length := by
  apply run_trace (I := fun pre _ s => P s (requestsOf pre) ∧
    ∃ t, ScheduleOk s (requestsOf pre) t ∧ t.toList.length ≤ pre.length) ?_
    ⟨hP, .leaf, scheduleOk_init, Nat.le_refl 0⟩ hg
  intro pre e post outs s hall hinv hg
  obtain ⟨hP, t, hok, hlen⟩ := hinv
  have hsh := congrArg length hall
  rw [length_append, length_cons] at hsh
  obtain ⟨s', out, t', hrun, hok', htm, hlength'⟩ :=
    hok.step hg.1 (show t.toList.length < fuel by omega)
  refine ⟨s', out, hrun, ?_⟩
  rw [requestsOf, foldl_append, length_append, length_singleton]
  exact ⟨hstep s s' _ e hP hg.2 htm, t', hok', by omega⟩

/-- **The scheduler is a set of timed entries.** In every run no assertion fails, the memory
holds a treap of exactly the entries that were added and not removed since, and the earliest
wakeup is one with the least time. If all tolerances are small enough for the test, each entry
has a time within the tolerance of the last request. -/
theorem schedule_refines_timed_set {fuel : Nat} {es : List ScheduleEvent} (hfuel : es.length < fuel)
    (hguard : RunGuard (scheduleStep fuel) ScheduleGuard scheduleInit es) :
    ∃ s outs t, run (scheduleStep fuel) scheduleInit es = some (s, outs) ∧
      ScheduleOk s (requestsOf es) t ∧
      (RunGuard (scheduleStep fuel) SigmaGuard scheduleInit es → Near s (requestsOf es)) ∧
      ∃ s' answer, scheduleGetEarliestWakeup fuel s = some (s', answer) ∧
        Earliest s (requestsOf es) answer := by
  obtain ⟨s, outs, hrun, -, t, hok, hlength⟩ := scheduleOk_run (P := fun _ _ => True) trivial
    (fun _ _ _ _ _ _ _ => trivial) hfuel (hguard.and (runGuard_true ..))
  obtain ⟨answer, hget, hearliest⟩ := hok.earliest (show t.toList.length ≤ fuel by omega)
  refine ⟨s, outs, t, hrun, hok, fun hlimits => ?_, _, answer, hget, hearliest⟩
  obtain ⟨_, _, hrun', hnear, -⟩ := scheduleOk_run (P := Near) (fun _ _ _ h => by cases h)
    (fun _ _ _ _ hnear => hnear.step) hfuel (hguard.and hlimits)
  cases hrun.symm.trans hrun'
  exact hnear

/-- Two entries with one time; the second one draws the priority of the first one and then
another. -/
theorem schedule_refines_timed_set_collision :
    ∃ s outs t, run (scheduleStep 4) scheduleInit [.add 0 ⟨10, 5, by decide⟩ 0 [7],
        .add 1 ⟨10, 5, by decide⟩ 1000 [7, 3], .remove 0] = some (s, outs) ∧
      ScheduleOk s (requestsOf [.add 0 ⟨10, 5, by decide⟩ 0 [7],
        .add 1 ⟨10, 5, by decide⟩ 1000 [7, 3], .remove 0]) t ∧
      Near s (requestsOf [.add 0 ⟨10, 5, by decide⟩ 0 [7],
        .add 1 ⟨10, 5, by decide⟩ 1000 [7, 3], .remove 0]) ∧
      ∃ s' answer, scheduleGetEarliestWakeup 4 s = some (s', answer) ∧
        Earliest s (requestsOf [.add 0 ⟨10, 5, by decide⟩ 0 [7],
          .add 1 ⟨10, 5, by decide⟩ 1000 [7, 3], .remove 0]) answer := by
  -- no entry but those two ever has a priority
  have hfresh : ∀ {s : Schedule} {e : Nat} {tv : Timeval} {draws : List Nat} (d : Nat), d ∈ draws →
      (∀ x < 2, x ≠ e → s.pri x ≠ priOf d) → (∀ x, 2 ≤ x → s.pri x = 0) →
      FreshDraw s e tv draws := by
    intro s e tv draws d hd hlow hhigh
    refine ⟨d, hd, fun x hx _ => ?_⟩
    by_cases hlt : x < 2
    · exact hlow x hlt hx
    · rw [hhigh x (Nat.not_lt.mp hlt)]
      exact (priOf_ne_zero d).symm
  have hguard : RunGuard (scheduleStep 4) ScheduleGuard scheduleInit
      [.add 0 ⟨10, 5, by decide⟩ 0 [7], .add 1 ⟨10, 5, by decide⟩ 1000 [7, 3], .remove 0] := by
    refine ⟨hfresh 7 (by simp) (by decide) (fun _ _ => rfl), ?_⟩
    intro s1 o1 h1
    cases h1
    refine ⟨hfresh 3 (by simp) (by decide) ?_, ?_⟩
    · intro x hx
      obtain ⟨x, rfl⟩ := Nat.exists_eq_add_of_le' hx
      rfl
    · exact fun _ _ _ => ⟨trivial, fun _ _ _ => trivial⟩
  obtain ⟨s, outs, t, hrun, hok, hnear, hearliest⟩ :=
    schedule_refines_timed_set (by decide) hguard
  refine ⟨s, outs, t, hrun, hok, hnear ⟨fun h => absurd rfl h, ?_⟩, hearliest⟩
  intro s1 o1 h1
  cases h1
  exact ⟨fun h => absurd rfl h, fun _ _ _ => ⟨trivial, fun _ _ _ => trivial⟩⟩

/-- A tolerance of ten minutes accepts every time: the difference that it is compared with is
never larger. -/
theorem schedule_time_beyond_sigma :
    ∃ s outs, run (scheduleStep 3) scheduleInit [.add 0 ⟨0, 0, by decide⟩ 0 [1],
        .add 0 ⟨1000, 0, by decide⟩ 600000000 [2]] = some (s, outs) ∧
      requestsOf [.add 0 ⟨0, 0, by decide⟩ 0 [1], .add 0 ⟨1000, 0, by decide⟩ 600000000 [2]] 0 =
        some (⟨1000, 0, by decide⟩, 600000000) ∧
      600000000 < ((s.entry 0).tv.micros - Timeval.micros ⟨1000, 0, by decide⟩).natAbs := by
  exact ⟨_, _, rfl, rfl, by decide⟩

end OpenVpn
