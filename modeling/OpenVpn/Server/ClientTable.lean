import OpenVpn.Server.Steps

/-!
# The tables of client instances

What holds of the tables between any two calls, also in the middle of the
creation of an instance.

* `Tables` — the table of real addresses finds exactly the live instances that
  were put into it, each under its own key; the table of peer ids has only live
  instances. An instance says itself whether it is in a table.
* The `*_spec` theorems — what close, creation, admission and the move of an
  instance do to the instances, and that they keep `Tables`. Close never fails
  an assertion.
-/

namespace OpenVpn

open Base List Option

/-! ## Instances -/

section

variable {objects objects' : List MultiInstance} {id j : Nat} {x y z : MultiInstance}
  {r : MrouteAddr} {did : MultiInstance → Bool}

/-- A live instance is in a table (`did`) under its key. -/
def Keyed (did : MultiInstance → Bool) (objects : List MultiInstance) (id : Nat)
    (real : MrouteAddr) : Prop :=
  ∃ mi, LiveAt objects id mi ∧ did mi = true ∧ mi.real = real

theorem LiveAt.lt (h : LiveAt objects id x) : id < objects.length :=
  (List.getElem?_eq_some_iff.mp h.1).1

theorem LiveAt.unique (h : LiveAt objects id x) (h' : LiveAt objects id y) : x = y :=
  some.inj (h.1.symm.trans h'.1)

theorem live_self : some y = some z ∧ z.halt = false ↔ z = y ∧ y.halt = false := by
  constructor
  · rintro ⟨⟨⟩, hhalt⟩
    exact ⟨rfl, hhalt⟩
  · rintro ⟨rfl, hhalt⟩
    exact ⟨rfl, hhalt⟩

theorem liveAt_set (hx : objects[id]? = some x) (hset : objects' = objects.set id y) :
    LiveAt objects' j z ↔
      (j = id ∧ z = y ∧ y.halt = false) ∨ (j ≠ id ∧ LiveAt objects j z) := by
  have hlt := (List.getElem?_eq_some_iff.mp hx).1
  subst hset
  unfold LiveAt
  by_cases hj : j = id
  · subst hj
    rw [getElem?_set_self hlt, live_self]
    simp
  · rw [getElem?_set_ne (Ne.symm hj)]
    simp [hj]

theorem liveAt_push (hpush : objects' = objects ++ [y]) :
    LiveAt objects' j z ↔
      (j = objects.length ∧ z = y ∧ y.halt = false) ∨ LiveAt objects j z := by
  subst hpush
  unfold LiveAt
  by_cases hj : j = objects.length
  · subst hj
    rw [getElem?_concat_length, getElem?_eq_none (Nat.le_refl _), live_self]
    simp
  · have hsame : (objects ++ [y])[j]? = objects[j]? := by
      rw [getElem?_append]
      grind
    simp [hsame, hj]

theorem liveAt_last (hpush : objects' = objects ++ [y]) (hhalt : y.halt = false) :
    LiveAt objects' objects.length y :=
  (liveAt_push hpush).mpr (.inl ⟨rfl, rfl, hhalt⟩)

theorem keyed_set (hx : objects[id]? = some x) :
    Keyed did (objects.set id y) j r ↔
      (Keyed did objects j r ∧ j ≠ id) ∨ (j = id ∧ y.halt = false ∧ did y = true ∧ y.real = r) := by
  unfold Keyed
  constructor
  · rintro ⟨mi, hlive, hdid, hreal⟩
    rcases (liveAt_set hx rfl).mp hlive with ⟨rfl, rfl, hhalt⟩ | ⟨hne, hlive⟩
    · exact .inr ⟨rfl, hhalt, hdid, hreal⟩
    · exact .inl ⟨⟨mi, hlive, hdid, hreal⟩, hne⟩
  · rintro (⟨⟨mi, hlive, hdid, hreal⟩, hne⟩ | ⟨rfl, hhalt, hdid, hreal⟩)
    · exact ⟨mi, (liveAt_set hx rfl).mpr (.inr ⟨hne, hlive⟩), hdid, hreal⟩
    · exact ⟨y, (liveAt_set hx rfl).mpr (.inl ⟨rfl, rfl, hhalt⟩), hdid, hreal⟩

theorem keyed_at (hx : objects[id]? = some x) :
    Keyed did objects id r ↔ x.halt = false ∧ did x = true ∧ x.real = r := by
  constructor
  · rintro ⟨mi, hlive, hdid, hreal⟩
    cases hx.symm.trans hlive.1
    exact ⟨hlive.2, hdid, hreal⟩
  · rintro ⟨hhalt, hdid, hreal⟩
    exact ⟨x, ⟨hx, hhalt⟩, hdid, hreal⟩

theorem keyed_close (hx : objects[id]? = some x) :
    Keyed did (objects.set id { x with halt := true }) j r ↔ Keyed did objects j r ∧ j ≠ id := by
  rw [keyed_set hx]
  simp

theorem keyed_update (hx : objects[id]? = some x) (hhalt : y.halt = x.halt)
    (hdid : did y = did x) (hreal : y.real = x.real) :
    Keyed did (objects.set id y) j r ↔ Keyed did objects j r := by
  rw [keyed_set hx, hhalt, hdid, hreal, ← keyed_at hx]
  by_cases hj : j = id
  · subst hj
    simp
  · simp [hj]

theorem keyed_enter (hx : LiveAt objects id x) (hout : did x = false) (hhalt : y.halt = false)
    (hin : did y = true) :
    Keyed did (objects.set id y) j r ↔ Keyed did objects j r ∨ (j = id ∧ r = y.real) := by
  rw [keyed_set hx.1]
  by_cases hj : j = id
  · subst hj
    rw [keyed_at hx.1]
    simp only [hout, hhalt, hin, ne_eq, not_true_eq_false, and_false, false_and, false_or,
      true_and, reduceCtorEq]
    exact eq_comm
  · simp [hj]

theorem keyed_push (hout : did y = false) :
    Keyed did (objects ++ [y]) j r ↔ Keyed did objects j r := by
  unfold Keyed
  constructor
  · rintro ⟨mi, hlive, hdid, hreal⟩
    rcases (liveAt_push rfl).mp hlive with ⟨_, rfl, _⟩ | hlive
    · rw [hout] at hdid
      cases hdid
    · exact ⟨mi, hlive, hdid, hreal⟩
  · rintro ⟨mi, hlive, hdid, hreal⟩
    exact ⟨mi, (liveAt_push rfl).mpr (.inr hlive), hdid, hreal⟩

/-- The table of peer ids has live instances, each in the slot of its id. -/
def SlotsOk (instances : List (Option Nat)) (objects : List MultiInstance) : Prop :=
  ∀ p id, instances[p]? = some (some id) →
    p ≠ MAX_PEER_ID ∧ ∃ mi, LiveAt objects id mi ∧ mi.peerId = p

theorem SlotsOk.update {instances : List (Option Nat)} (h : SlotsOk instances objects)
    (hx : objects[id]? = some x) (hhalt : y.halt = x.halt) (hpeer : y.peerId = x.peerId) :
    SlotsOk instances (objects.set id y) := by
  intro p j hslot
  obtain ⟨hp, mi, hlive, hid⟩ := h p j hslot
  refine ⟨hp, ?_⟩
  by_cases hj : j = id
  · subst hj
    cases hx.symm.trans hlive.1
    exact ⟨y, (liveAt_set hx rfl).mpr (.inl ⟨rfl, rfl, hhalt.trans hlive.2⟩), hpeer.trans hid⟩
  · exact ⟨mi, (liveAt_set hx rfl).mpr (.inr ⟨hj, hlive⟩), hid⟩

end

/-! ## The tables -/

variable {cfg : MultiConfig} {m m' : MultiContext cfg} {d : Datagram} {id : Nat}
  {mi : MultiInstance} {real : MrouteAddr}

structure Tables (m : MultiContext cfg) : Prop where
  hash : m.hash.Indexes (Keyed MultiInstance.didRealHash m.objects)
  iter : m.iter.Indexes (Keyed MultiInstance.didIter m.objects)
  slots : SlotsOk m.instances m.objects

theorem Tables.find_eq_some (ht : Tables m) :
    m.hash.find real = some id ↔
      ∃ mi, m.Live id mi ∧ mi.didRealHash = true ∧ mrouteAddrEqual real mi.real := by
  rw [ht.hash.2]
  constructor
  · rintro ⟨_, ⟨mi, hlive, hdid, rfl⟩, hcmp⟩
    exact ⟨mi, hlive, hdid, hcmp⟩
  · rintro ⟨mi, hlive, hdid, hcmp⟩
    exact ⟨mi.real, ⟨mi, hlive, hdid, rfl⟩, hcmp⟩

theorem Tables.lookup (ht : Tables m) (real : MrouteAddr) :
    Tables { m with hash := (hashLookup m.hash real).1 } where
  hash := ht.hash.lookup real
  iter := ht.iter
  slots := ht.slots

/-- At most a lookup in the table of real addresses has been made. -/
def Looked (m m' : MultiContext cfg) : Prop :=
  m' = m ∨ ∃ real, m' = { m with hash := (hashLookup m.hash real).1 }

theorem Looked.objects (h : Looked m m') : m'.objects = m.objects := by
  rcases h with rfl | ⟨real, rfl⟩ <;> rfl

theorem Tables.looked (ht : Tables m) (h : Looked m m') : Tables m' := by
  rcases h with rfl | ⟨real, rfl⟩
  · exact ht
  · exact ht.lookup real

theorem existingInstance_looked {found : Option (Nat × Bool)}
    (h : existingInstance m d real = some (m', found)) : Looked m m' := by
  rcases existingInstance_cases h with ⟨_, rfl, _⟩ | ⟨rfl, _⟩
  · exact .inl rfl
  · exact .inr ⟨real, rfl⟩

theorem Tables.update (ht : Tables m) {x y : MultiInstance} (hx : m.objects[id]? = some x)
    (hhalt : y.halt = x.halt) (hhash : y.didRealHash = x.didRealHash)
    (hiter : y.didIter = x.didIter) (hreal : y.real = x.real) (hpeer : y.peerId = x.peerId) :
    Tables (m.set id y) where
  hash := ht.hash.congr fun _ _ => (keyed_update hx hhalt hhash hreal).symm
  iter := ht.iter.congr fun _ _ => (keyed_update hx hhalt hiter hreal).symm
  slots := ht.slots.update hx hhalt hpeer

theorem Tables.push (ht : Tables m) {y : MultiInstance} (hhash : y.didRealHash = false)
    (hiter : y.didIter = false) : Tables { m with objects := m.objects ++ [y] } where
  hash := ht.hash.congr fun _ _ => (keyed_push hhash).symm
  iter := ht.iter.congr fun _ _ => (keyed_push hiter).symm
  slots := by
    intro p j hslot
    obtain ⟨hp, mi, hlive, hid⟩ := ht.slots p j hslot
    exact ⟨hp, mi, (liveAt_push rfl).mpr (.inr hlive), hid⟩

/-! ## Close -/

theorem asserted_eq_some {α : Type} {r : α × Bool} {a : α} :
    asserted r = some a ↔ r.2 = true ∧ r.1 = a := by
  unfold asserted
  split
  · next h => simp [h]
  · next h => simp [h]

theorem removeIf_spec {ops : HashOps MrouteAddr} {hash : Hash ops Nat}
    {did : MultiInstance → Bool} {objects : List MultiInstance}
    (hidx : hash.Indexes (Keyed did objects)) (hlive : LiveAt objects id mi) :
    ∃ hash', removeIf (did mi) hash mi.real = some hash' ∧
      hash'.Indexes (Keyed did (objects.set id { mi with halt := true })) ∧
      hash'.nElements = hash.nElements - (if did mi then 1 else 0) ∧
      (did mi = false → hash' = hash) := by
  have hclose : ∀ v k, (Keyed did objects v k ∧ v ≠ id) ↔
      Keyed did (objects.set id { mi with halt := true }) v k :=
    fun _ _ => (keyed_close hlive.1).symm
  unfold removeIf
  cases hdid : did mi with
  | true =>
      have hown : ∀ k, Keyed did objects id k → ops.compareFunction k mi.real := by
        intro k hk
        rw [← ((keyed_at hlive.1).mp hk).2.2]
        exact ops.refl _
      have hkey : Keyed did objects id mi.real := ⟨mi, hlive, hdid, rfl⟩
      obtain ⟨hret, hidx'⟩ := hidx.remove hkey hown
      refine ⟨_, asserted_eq_some.mpr ⟨hret, rfl⟩, hidx'.congr hclose, ?_, nofun⟩
      rw [(hashRemove_spec hidx.1 mi.real).2.2.1, hidx.find hkey]
      simp
  | false =>
      refine ⟨hash, rfl, hidx.congr fun v k => Iff.trans ?_ (hclose v k), by simp, fun _ => rfl⟩
      refine (and_iff_left_of_imp ?_).symm
      rintro hk rfl
      exact Bool.false_ne_true (hdid.symm.trans ((keyed_at hlive.1).mp hk).2.1)

theorem SlotsOk.close {instances : List (Option Nat)} {objects : List MultiInstance}
    (h : SlotsOk instances objects) (hlive : LiveAt objects id mi) :
    SlotsOk (if mi.peerId ≠ MAX_PEER_ID then instances.set mi.peerId none else instances)
      (objects.set id { mi with halt := true }) := by
  intro p j hslot
  have hold : instances[p]? = some (some j) ∧ (mi.peerId ≠ MAX_PEER_ID → p ≠ mi.peerId) := by
    split at hslot
    · rw [getElem?_set] at hslot
      split at hslot
      · split at hslot <;> cases hslot
      · next hne => exact ⟨hslot, fun _ => Ne.symm hne⟩
    · next hmax => exact ⟨hslot, fun hne => absurd hne hmax⟩
  obtain ⟨hp, x, hx, hid⟩ := h p j hold.1
  have hj : j ≠ id := by
    rintro rfl
    cases hx.unique hlive
    exact hold.2 (hid ▸ hp) hid.symm
  exact ⟨hp, x, (liveAt_set hlive.1 rfl).mpr (.inr ⟨hj, hx⟩), hid⟩

/-- An instance has been closed. -/
structure Closed (m m' : MultiContext cfg) (id : Nat) (mi : MultiInstance) : Prop where
  live : m.Live id mi
  tables : Tables m'
  objects : m'.objects = m.objects.set id { mi with halt := true }
  instances : m'.instances =
    if mi.peerId ≠ MAX_PEER_ID then m.instances.set mi.peerId none else m.instances
  count : m'.hash.nElements = m.hash.nElements - if mi.didRealHash then 1 else 0
  hash : mi.didRealHash = false → m'.hash = m.hash

theorem Closed.live_iff (h : Closed m m' id mi) {j : Nat} {x : MultiInstance} :
    m'.Live j x ↔ j ≠ id ∧ m.Live j x := by
  refine (liveAt_set h.live.1 h.objects).trans ?_
  simp

theorem multiCloseInstance_spec (ht : Tables m) (hlive : m.Live id mi) :
    ∃ m', multiCloseInstance m id = some m' ∧ Closed m m' id mi := by
  obtain ⟨hash', hhash, hidx, hcnt, hsame⟩ := removeIf_spec ht.hash hlive
  obtain ⟨iter', hiter, hidx', -⟩ := removeIf_spec ht.iter hlive
  refine ⟨{ m with
    hash := hash'
    iter := iter'
    objects := m.objects.set id { mi with halt := true }
    instances := if mi.peerId ≠ MAX_PEER_ID then m.instances.set mi.peerId none else m.instances },
    ?_, hlive, ⟨hidx, hidx', ht.slots.close hlive⟩, rfl, rfl, hcnt, hsame⟩
  unfold multiCloseInstance
  rw [hlive.1]
  simp only [bind_eq_bind, bind_some, hlive.2, Bool.false_eq_true, if_false,
    hhash, hiter, releasePeerId]
  split <;> rfl

theorem multiCloseInstance_closed (ht : Tables m) (h : multiCloseInstance m id = some m') :
    ∃ mi, Closed m m' id mi := by
  have hlive : ∃ mi, m.Live id mi := by
    unfold multiCloseInstance at h
    simp only [bind_eq_bind, bind_eq_some_iff] at h
    obtain ⟨mi, hmi, h⟩ := h
    split at h
    · cases h
    · next hhalt => exact ⟨mi, hmi, by simpa using hhalt⟩
  obtain ⟨mi, hlive⟩ := hlive
  obtain ⟨m₁, h₁, hcl⟩ := multiCloseInstance_spec ht hlive
  cases h.symm.trans h₁
  exact ⟨mi, hcl⟩

/-! ## Creation -/

theorem set_push {α : Type} (l : List α) (x y : α) : (l ++ [x]).set l.length y = l ++ [y] := by
  rw [set_append_right _ _ (Nat.le_refl _), Nat.sub_self]
  rfl

/-- The instance that `multi_create_instance` returns. -/
def createdInstance (real : MrouteAddr) (sock : LinkSocket) : MultiInstance :=
  { newInstance real sock with didIter := true }

/-- An instance has been added; the table of real addresses and the slots are the same. -/
structure Pushed (m m' : MultiContext cfg) (y : MultiInstance) : Prop where
  tables : Tables m'
  hash : m'.hash = m.hash
  instances : m'.instances = m.instances
  objects : m'.objects = m.objects ++ [y]

theorem createFailed_push {m1 : MultiContext cfg} {y : MultiInstance} (h : Pushed m m1 y)
    (hhalt : y.halt = false) (hdid : y.didRealHash = false) (hpeer : y.peerId = MAX_PEER_ID) :
    ∃ m' y', createFailed m1 m.objects.length = some (m', none) ∧ Pushed m m' y' ∧
      y'.halt = true := by
  have hlive : m1.Live m.objects.length y := liveAt_last h.objects hhalt
  obtain ⟨m', hclose, hcl⟩ := multiCloseInstance_spec h.tables hlive
  refine ⟨m', { y with halt := true }, ?_,
    ⟨hcl.tables, (hcl.hash hdid).trans h.hash, ?_, ?_⟩, rfl⟩
  · unfold createFailed
    rw [hclose]
    rfl
  · rw [hcl.instances, if_neg (not_not.mpr hpeer), h.instances]
  · rw [hcl.objects, h.objects, set_push]

theorem Tables.enterIter (ht : Tables m) (real : MrouteAddr) (sock : LinkSocket)
    (habs : m.iter.find real = none) :
    Tables (MultiContext.set
      { m with
        objects := m.objects ++ [newInstance real sock]
        iter := (hashAdd m.iter real m.objects.length false).1 }
      m.objects.length (createdInstance real sock)) := by
  have ht1 := ht.push (y := newInstance real sock) rfl rfl
  have hlive1 := liveAt_last (y := newInstance real sock) (Eq.refl (m.objects ++ _)) rfl
  have hiter := ht1.iter.add habs m.objects.length
  exact ⟨ht1.hash.congr fun _ _ =>
      (keyed_update (y := createdInstance real sock) hlive1.1 rfl rfl rfl).symm,
    hiter.congr fun _ _ => (keyed_enter (y := createdInstance real sock) hlive1 rfl rfl rfl).symm,
    ht1.slots.update (y := createdInstance real sock) hlive1.1 rfl rfl⟩

/-- What a creation leaves: an instance in the second table only, or one that is closed. -/
inductive CreateEffect (m m' : MultiContext cfg) (real : MrouteAddr) (sock : LinkSocket) :
    Option Nat → Prop
  | failed {y : MultiInstance} (hpushed : Pushed m m' y) (hhalt : y.halt = true) :
      CreateEffect m m' real sock none
  | created (hpushed : Pushed m m' (createdInstance real sock))
      (hbelow : m.hash.nElements < cfg.maxClients) (habsent : m.iter.find real = none) :
      CreateEffect m m' real sock (some m.objects.length)

/-- Creation never fails an assertion. It succeeds only below the limit, for an address that
no open instance has. -/
theorem multiCreateInstance_spec (ht : Tables m) (real : MrouteAddr) (sock : LinkSocket)
    (contextFails postFails : Bool) :
    ∃ m' r, multiCreateInstance m real sock contextFails postFails = some (m', r) ∧
      CreateEffect m m' real sock r := by
  have ht1 := ht.push (y := newInstance real sock) rfl rfl
  have hfail : ∀ {m1 : MultiContext cfg} {y : MultiInstance}, Pushed m m1 y → y.halt = false →
      y.didRealHash = false → y.peerId = MAX_PEER_ID →
      ∃ m' r, createFailed m1 m.objects.length = some (m', r) ∧
        CreateEffect m m' real sock r := by
    intro m1 y hpush hhalt hdid hpeer
    obtain ⟨m', y', hm', hpushed', hhalt'⟩ := createFailed_push hpush hhalt hdid hpeer
    exact ⟨m', none, hm', .failed hpushed' hhalt'⟩
  unfold multiCreateInstance
  dsimp only
  split
  · exact hfail ⟨ht1, rfl, rfl, rfl⟩ rfl rfl rfl
  split
  · exact hfail ⟨ht1, rfl, rfl, rfl⟩ rfl rfl rfl
  next hbelow =>
  split
  · next iter hadd =>
      have hiter := ht1.iter.add_failed
        (show (hashAdd m.iter real m.objects.length false).2 = false by rw [hadd])
      rw [hadd] at hiter
      exact hfail ⟨⟨ht1.hash, hiter, ht1.slots⟩, rfl, rfl, rfl⟩ rfl rfl rfl
  · next iter hadd =>
      have habs : m.iter.find real = none := by
        have hret := (hashAdd_spec ht.iter.1 real m.objects.length false).1
        rw [hadd] at hret
        exact isNone_iff_eq_none.mp hret.symm
      have ht2 := ht.enterIter real sock habs
      rw [hadd] at ht2
      have hobj : (m.objects ++ [newInstance real sock]).set m.objects.length
          (createdInstance real sock) = m.objects ++ [createdInstance real sock] := set_push ..
      split
      · exact hfail ⟨ht2, rfl, rfl, hobj⟩ rfl rfl rfl
      · exact ⟨_, _, rfl, .created ⟨ht2, rfl, rfl, hobj⟩ (Int.not_le.mp hbelow) habs⟩

theorem Tables.enterReal (ht : Tables m) (hlive : m.Live id mi) (hout : mi.didRealHash = false)
    (habs : m.hash.find mi.real = none) :
    let hv := cfg.hashOps.hashFunction mi.real
    Tables (MultiContext.set
      { m with hash := hashAddFast m.hash (m.hash.index hv) mi.real hv id } id
      { mi with didRealHash := true }) := by
  intro hv
  obtain ⟨hok, _, hfind⟩ := hashAddFast_spec ht.hash.1 habs id
  have hidx := ht.hash.insert habs hok hfind
  constructor
  · exact hidx.congr fun _ _ =>
      (keyed_enter (y := { mi with didRealHash := true }) hlive hout hlive.2 rfl).symm
  · exact ht.iter.congr fun _ _ =>
      (keyed_update (y := { mi with didRealHash := true }) hlive.1 rfl rfl rfl).symm
  · exact ht.slots.update (y := { mi with didRealHash := true }) hlive.1 rfl rfl

/-- There is a slot below the limit that no instance has. -/
def FreeSlot (m : MultiContext cfg) : Prop := ∃ i < cfg.maxClients, m.instances[i]? = some none

/-- The instance gets a free slot, and its index as peer id. -/
theorem multiAssignPeerId_spec (ht : Tables m) (hlive : m.Live id mi)
    (hpeer : mi.peerId = MAX_PEER_ID) :
    (multiAssignPeerId m id = none ∧ (FreeSlot m → MAX_PEER_ID ≤ cfg.maxClients)) ∨
      ∃ m' i, multiAssignPeerId m id = some m' ∧ Tables m' ∧ m'.hash = m.hash ∧
        m.instances[i]? = some none ∧ m'.instances = m.instances.set i (some id) ∧
        m'.objects = m.objects.set id { mi with peerId := i } := by
  unfold multiAssignPeerId
  simp only [hlive.1, bind_eq_bind, bind_some]
  split
  case isFalse hmax => exact .inl ⟨rfl, fun _ => Nat.le_of_not_lt hmax⟩
  case isTrue hmax =>
    cases hi : (m.instances.take cfg.maxClients).findIdx? isNone with
    | none =>
      refine .inl ⟨rfl, fun ⟨i, hlt, hfree⟩ => ?_⟩
      have hmem : none ∈ m.instances.take cfg.maxClients :=
        mem_iff_getElem?.mpr ⟨i, by rw [getElem?_take_of_lt hlt, hfree]⟩
      exact absurd (findIdx?_eq_none_iff.mp hi none hmem) (by decide)
    | some i =>
      obtain ⟨hlen, hnone, _⟩ := findIdx?_eq_some_iff_getElem.mp hi
      have hlt : i < cfg.maxClients := by
        rw [length_take] at hlen
        omega
      have hfree : m.instances[i]? = some none := by
        rw [← getElem?_take_of_lt hlt, getElem?_eq_getElem hlen,
          isNone_iff_eq_none.mp hnone]
      refine .inr ⟨_, i, rfl, ⟨?_, ?_, ?_⟩, rfl, hfree, rfl, rfl⟩
      · exact ht.hash.congr fun _ _ =>
          (keyed_update (y := { mi with peerId := i }) hlive.1 rfl rfl rfl).symm
      · exact ht.iter.congr fun _ _ =>
          (keyed_update (y := { mi with peerId := i }) hlive.1 rfl rfl rfl).symm
      · intro p j hslot
        change (m.instances.set i (some id))[p]? = some (some j) at hslot
        rw [getElem?_set] at hslot
        split at hslot
        · next hp =>
            subst hp
            split at hslot
            · cases hslot
              exact ⟨by omega, _, (liveAt_set hlive.1 rfl).mpr (.inl ⟨rfl, rfl, hlive.2⟩), rfl⟩
            · cases hslot
        · obtain ⟨hp, x, hx, hid⟩ := ht.slots p j hslot
          have hj : j ≠ id := by
            rintro rfl
            cases hx.unique hlive
            exact hp (hid.symm.trans hpeer)
          exact ⟨hp, x, (liveAt_set hlive.1 rfl).mpr (.inr ⟨hj, hx⟩), hid⟩

/-! ## Admission -/

/-- Nothing that the tables are about has changed. -/
structure SameTables (m m' : MultiContext cfg) : Prop where
  hash : m'.hash = m.hash
  iter : m'.iter = m.iter
  instances : m'.instances = m.instances
  objects : m'.objects = m.objects

theorem Tables.same (ht : Tables m) (h : SameTables m m') : Tables m' := by
  constructor
  · rw [h.hash, h.objects]
    exact ht.hash
  · rw [h.iter, h.objects]
    exact ht.iter
  · rw [h.instances, h.objects]
    exact ht.slots

variable {state : TlsPreDecryptState}

theorem sendHmacReset_same {resend : Bool} (h : sendHmacReset m state d resend = some m') :
    SameTables m m' := by
  unfold sendHmacReset at h
  simp only [bind_eq_bind, bind_eq_some_iff] at h
  obtain ⟨sid, _, h⟩ := h
  cases h
  exact ⟨rfl, rfl, rfl, rfl⟩

variable {ok : Bool}

theorem checkResetV3_same (h : checkResetV3 m state d = some (m', ok)) : SameTables m m' := by
  unfold checkResetV3 at h
  simp only [bind_eq_bind, bind_eq_some_iff] at h
  obtain ⟨pid, _, h⟩ := h
  split at h
  · simp only [bind_eq_some_iff] at h
    obtain ⟨m1, hsend, h⟩ := h
    cases h
    exact sendHmacReset_same hsend
  · cases h
    exact ⟨rfl, rfl, rfl, rfl⟩

theorem checkCookie_same (h : checkCookie m state d = some (m', ok)) : SameTables m m' := by
  unfold checkCookie at h
  simp only [bind_eq_bind, bind_eq_some_iff] at h
  obtain ⟨_, _, h⟩ := h
  cases h
  exact ⟨rfl, rfl, rfl, rfl⟩

theorem doPreDecryptCheck_same (h : doPreDecryptCheck m d = some (m', ok)) : SameTables m m' := by
  unfold doPreDecryptCheck at h
  split at h
  · split at h
    · cases h
      exact ⟨rfl, rfl, rfl, rfl⟩
    · obtain ⟨h1, h2, h3, h4⟩ := checkResetV3_same h
      exact ⟨h1, h2, h3, h4⟩
  · split at h
    · cases h
      exact ⟨rfl, rfl, rfl, rfl⟩
    · simp only [bind_eq_bind, bind_eq_some_iff] at h
      obtain ⟨m1, hsend, h⟩ := h
      cases h
      obtain ⟨h1, h2, h3, h4⟩ := sendHmacReset_same hsend
      exact ⟨h1, h2, h3, h4⟩
  · exact checkCookie_same h
  · exact checkCookie_same h
  · exact checkCookie_same h
  · cases h
    exact ⟨rfl, rfl, rfl, rfl⟩

/-- The instance of an admitted client, in both tables and with a peer id. -/
def admittedInstance (real : MrouteAddr) (sock : LinkSocket) (peerId : Nat) : MultiInstance :=
  { createdInstance real sock with didRealHash := true, peerId := peerId }

/-- The end of admission, for a datagram that has passed the checks. -/
def admitChecked (m : MultiContext cfg) (d : Datagram) (real : MrouteAddr) :
    Option (MultiContext cfg × Option Nat) := do
  let (m, created) ← multiCreateInstance m real d.sock d.contextFails d.postFails
  match created with
  | none => return (m, none)
  | some id =>
    let mi ← m.objects[id]?
    let hv := cfg.hashOps.hashFunction real
    let m := { m with hash := hashAddFast m.hash (m.hash.index hv) real hv id }
    let m ← multiAssignPeerId (m.set id { mi with didRealHash := true }) id
    return (m, some id)

theorem admitInstance_cases (m : MultiContext cfg) (d : Datagram) (real : MrouteAddr) :
    (admitInstance m d real = none ∧ doPreDecryptCheck m d = none) ∨
      (∃ m', admitInstance m d real = some (m', none) ∧ SameTables m m') ∨
      ∃ m1 m2, doPreDecryptCheck m d = some (m1, true) ∧ SameTables m m2 ∧
        admitInstance m d real = admitChecked m2 d real := by
  unfold admitInstance
  split
  · exact .inr (.inl ⟨m, rfl, rfl, rfl, rfl, rfl⟩)
  split
  · next hchk => exact .inl ⟨rfl, hchk⟩
  · next m1 hchk => exact .inr (.inl ⟨m1, rfl, doPreDecryptCheck_same hchk⟩)
  · next m1 hchk =>
      obtain ⟨h1, h2, h3, h4⟩ := doPreDecryptCheck_same hchk
      split
      · exact .inr (.inl ⟨_, rfl, h1, h2, h3, h4⟩)
      · next f _ =>
          exact .inr (.inr ⟨m1, { m1 with
            newConnectionLimiter := f
            initialRateLimiter := reflectFilterRateLimitDecrease m1.initialRateLimiter },
            hchk, ⟨h1, h2, h3, h4⟩, rfl⟩)

/-- The end of admission to a table that does not have the key: the creation fails, or the
new instance is in both tables and `multi_assign_peer_id` is called. -/
theorem admitChecked_cases (ht : Tables m) (habs : m.hash.find real = none) :
    (∃ m' y, admitChecked m d real = some (m', none) ∧ Pushed m m' y ∧ y.halt = true) ∨
    (m.hash.nElements < cfg.maxClients ∧ ∃ m1, Tables m1 ∧
      m1.hash.nElements = m.hash.nElements + 1 ∧ m1.instances = m.instances ∧
      m1.objects = m.objects ++ [{ createdInstance real d.sock with didRealHash := true }] ∧
      admitChecked m d real =
        (multiAssignPeerId m1 m.objects.length).map fun m' => (m', some m.objects.length)) := by
  obtain ⟨m1, r, hcreate, heff⟩ :=
    multiCreateInstance_spec ht real d.sock d.contextFails d.postFails
  cases heff with
  | @failed y hpush hhalt =>
    refine .inl ⟨m1, y, ?_, hpush, hhalt⟩
    unfold admitChecked
    simp only [hcreate, bind_eq_bind, bind_some]
    rfl
  | created hpush hbelow _ =>
    obtain ⟨ht1, hhash, hsl, hobj⟩ := hpush
    have hlive : m1.Live m.objects.length (createdInstance real d.sock) := liveAt_last hobj rfl
    have habsent1 : m1.hash.find real = none := by rwa [hhash]
    refine .inr ⟨hbelow, _, ht1.enterReal hlive rfl habsent1, ?_, hsl, ?_, ?_⟩
    · rw [← hhash]
      exact (hashAddFast_spec ht1.hash.1 habsent1 _).2.1
    · show m1.objects.set _ _ = _
      rw [hobj, set_push]
    · unfold admitChecked
      simp only [hcreate, bind_eq_bind, bind_some, hlive.1, map_eq_bind]
      rfl

/-- Admission to a table that does not have the key: the new instance is the
last one, in both tables; or there is none, or a closed one. -/
theorem admitInstance_spec {r : Option Nat} (ht : Tables m)
    (habsent : ∀ m1, doPreDecryptCheck m d = some (m1, true) → m.hash.find real = none)
    (h : admitInstance m d real = some (m', r)) :
    Tables m' ∧
      ((r = none ∧ (m'.objects = m.objects ∨ ∃ y, y.halt = true ∧ m'.objects = m.objects ++ [y])) ∨
        ∃ i, r = some m.objects.length ∧
          m'.objects = m.objects ++ [admittedInstance real d.sock i]) := by
  rcases admitInstance_cases m d real with ⟨hnone, _⟩ | ⟨m1, hrefused, hsame⟩ |
      ⟨m1, m2, hchk, hsame, hchecked⟩
  · rw [hnone] at h
    cases h
  · rw [hrefused] at h
    cases h
    exact ⟨ht.same hsame, .inl ⟨rfl, .inl hsame.objects⟩⟩
  · have habs : m2.hash.find real = none := by
      rw [hsame.hash]
      exact habsent m1 hchk
    rw [hchecked] at h
    rw [← hsame.objects]
    rcases admitChecked_cases (d := d) (ht.same hsame) habs with
      ⟨m3, y, hfail, hpush, hhalt⟩ | ⟨_, m3, ht3, _, _, hobj, hassign⟩
    · rw [hfail] at h
      cases h
      exact ⟨hpush.tables, .inl ⟨rfl, .inr ⟨y, hhalt, hpush.objects⟩⟩⟩
    · rw [hassign] at h
      rcases multiAssignPeerId_spec ht3 (liveAt_last hobj rfl) rfl with ⟨hnone, -⟩ |
          ⟨m4, i, h4, ht4, _, _, _, hobj4⟩
      · rw [hnone] at h
        cases h
      · rw [h4] at h
        cases h
        refine ⟨ht4, .inr ⟨i, rfl, ?_⟩⟩
        rw [hobj4, hobj, set_push]
        rfl

end OpenVpn
