import OpenVpn.Server.Prefix

/-!
# The lifetime of instances

An instance is kept by its being open and by every route that points to it.

* `Counted objects f` — the counters of the instances, when `f id` routes point to `id`.
  `Counted.inc` and `Counted.del` are the two ways a route comes and goes.
* `TableOk` — the counters agree with the table of routes. Each call that works on the table
  has a theorem that says that it has a result and that the result is `Kept`.
* `LifetimeOk` — in addition, the lengths of networks in use agree with the iroutes of the
  open instances.
* `instance_lifetime` — no run reads or releases the memory of an instance that was
  released, and an instance is released exactly when it is closed and no route is left.
-/

namespace OpenVpn

open Base List Function Nat

/-! ## Counters -/

section

variable {objects objects' : List RouteInstance} {f f' : Nat → Nat} {id n : Nat}
  {mi y : RouteInstance} {r : MultiRoute}

/-- The counters of an instance that `n` routes point to. -/
structure Accounted (mi : RouteInstance) (n : Nat) : Prop where
  refcount : mi.refcount = n + (if mi.halt then 0 else 1)
  routeCount : mi.routeCount = n
  freed : mi.freed = true ↔ mi.halt = true ∧ n = 0

structure Counted (objects : List RouteInstance) (f : Nat → Nat) : Prop where
  accounted : ∀ id mi, objects[id]? = some mi → Accounted mi (f id)
  known : ∀ id, 0 < f id → id < objects.length

/-- What the counters do not tell. -/
def RouteInstance.status (mi : RouteInstance) : Bool × Bool × List Iroute :=
  (mi.halt, mi.didIroutes, mi.iroutes)

/-- Only counters have changed. -/
def SameStatus (objects objects' : List RouteInstance) : Prop :=
  objects'.map RouteInstance.status = objects.map RouteInstance.status

def IsOpen (objects : List RouteInstance) (id : Nat) : Prop :=
  ∃ mi, objects[id]? = some mi ∧ mi.halt = false

theorem SameStatus.set (hmi : objects[id]? = some mi) (h : y.status = mi.status) :
    SameStatus objects (objects.set id y) := by
  obtain ⟨hlt, rfl⟩ := List.getElem?_eq_some_iff.mp hmi
  have hlt' : id < (objects.map RouteInstance.status).length := by rwa [length_map]
  have hget : objects[id].status = (objects.map RouteInstance.status)[id] :=
    (getElem_map _).symm
  unfold SameStatus
  rw [map_set, h, hget, set_getElem_self]

section

variable (h : SameStatus objects objects')

include h

theorem SameStatus.trans {objects'' : List RouteInstance}
    (h' : SameStatus objects' objects'') : SameStatus objects objects'' :=
  Eq.trans h' h

theorem SameStatus.get (hmi : objects[id]? = some mi) :
    ∃ mi', objects'[id]? = some mi' ∧ mi'.status = mi.status := by
  have hget : (objects'.map RouteInstance.status)[id]? = some mi.status := by
    rw [h, getElem?_map, hmi]
    rfl
  rw [getElem?_map, Option.map_eq_some_iff] at hget
  exact hget

theorem SameStatus.isOpen (hopen : IsOpen objects id) : IsOpen objects' id := by
  obtain ⟨mi, hmi, hhalt⟩ := hopen
  obtain ⟨mi', hmi', hst⟩ := h.get hmi
  exact ⟨mi', hmi', (congrArg Prod.fst hst).trans hhalt⟩

end

theorem deref_eq_some : deref objects id = some mi ↔ objects[id]? = some mi ∧ mi.freed = false := by
  unfold deref
  simp only [Option.bind_eq_bind, Option.bind_eq_some_iff]
  constructor
  · rintro ⟨x, hx, h⟩
    split at h
    · cases h
    · next hfreed =>
        cases h
        exact ⟨hx, by simpa using hfreed⟩
  · rintro ⟨hmi, hfreed⟩
    exact ⟨mi, hmi, by rw [hfreed]; rfl⟩

theorem deref_set (hmi : objects[id]? = some mi) (hy : y.freed = false) :
    deref (objects.set id y) id = some y :=
  deref_eq_some.mpr ⟨getElem?_set_self (List.getElem?_eq_some_iff.mp hmi).1, hy⟩

section

variable (h : Counted objects f)

include h

theorem Counted.deref (hmi : objects[id]? = some mi)
    (hkept : mi.halt = false ∨ 0 < f id) : OpenVpn.deref objects id = some mi := by
  refine deref_eq_some.mpr ⟨hmi, ?_⟩
  rw [← Bool.not_eq_true, (h.accounted id mi hmi).freed]
  rintro ⟨hhalt, hzero⟩
  rcases hkept with hopen | hpos
  · rw [hhalt] at hopen
    cases hopen
  · omega

theorem Counted.get (hpos : 0 < f id) :
    ∃ mi, objects[id]? = some mi ∧ OpenVpn.deref objects id = some mi := by
  have hlt := h.known id hpos
  exact ⟨objects[id], getElem?_eq_getElem hlt, h.deref (getElem?_eq_getElem hlt) (.inr hpos)⟩

theorem Counted.set (hmi : objects[id]? = some mi) (hy : Accounted y n) :
    Counted (objects.set id y) (Function.update f id n) := by
  have hlt := (List.getElem?_eq_some_iff.mp hmi).1
  refine ⟨fun j x hx => ?_, fun j hj => ?_⟩
  · by_cases hji : j = id
    · subst hji
      rw [getElem?_set_self hlt] at hx
      cases hx
      rw [update_self]
      exact hy
    · rw [getElem?_set_ne (Ne.symm hji)] at hx
      rw [update_of_ne hji]
      exact h.accounted j x hx
  · rw [length_set]
    by_cases hji : j = id
    · exact hji ▸ hlt
    · rw [update_of_ne hji] at hj
      exact h.known j hj

theorem Counted.congr (hf : ∀ id, f' id = f id) : Counted objects f' := by
  rw [show f' = f from funext hf]
  exact h

theorem Counted.inc (hmi : objects[id]? = some mi)
    (hhalt : mi.halt = false) :
    ∃ objects1 objects2, multiInstanceIncRefcount objects id = some objects1 ∧
      routeQuotaInc objects1 id = some objects2 ∧
      Counted objects2 (update f id (f id + 1)) ∧ SameStatus objects objects2 := by
  have hdr := h.deref hmi (.inl hhalt)
  have hacc := h.accounted id mi hmi
  have hfreed : mi.freed = false := (deref_eq_some.mp hdr).2
  refine ⟨objects.set id { mi with refcount := mi.refcount + 1 }, objects.set id
    { mi with refcount := mi.refcount + 1, routeCount := mi.routeCount + 1 }, ?_, ?_, ?_, ?_⟩
  · unfold multiInstanceIncRefcount
    rw [hdr]
    rfl
  · unfold routeQuotaInc
    rw [deref_set (y := { mi with refcount := mi.refcount + 1 }) hmi hfreed]
    simp only [Option.bind_eq_bind, Option.bind_some, set_set]
    rfl
  · refine h.set hmi ⟨?_, ?_, ?_⟩
    · show mi.refcount + 1 = _
      rw [hacc.refcount]
      push_cast
      omega
    · show mi.routeCount + 1 = _
      rw [hacc.routeCount]
      push_cast
      rfl
    · show mi.freed = true ↔ mi.halt = true ∧ _
      simp [hfreed, hhalt]
  · exact SameStatus.set hmi rfl

theorem Counted.del (hpos : 0 < f r.inst) :
    ∃ objects', multiRouteDel objects r = some objects' ∧
      Counted objects' (Function.update f r.inst (f r.inst - 1)) ∧ SameStatus objects objects' := by
  obtain ⟨mi, hmi, hdr⟩ := h.get hpos
  have hacc := h.accounted r.inst mi hmi
  have hderef1 := deref_set (y := { mi with routeCount := mi.routeCount - 1 }) hmi
    (deref_eq_some.mp hdr).2
  refine ⟨objects.set r.inst { mi with
    routeCount := mi.routeCount - 1
    refcount := mi.refcount - 1
    freed := decide (mi.refcount - 1 ≤ 0) }, ?_, ?_, ?_⟩
  · unfold multiRouteDel routeQuotaDec multiInstanceDecRefcount
    simp only [hdr, Option.bind_eq_bind, Option.bind_some, Option.pure_def, hderef1, set_set]
  · refine h.set hmi ⟨?_, ?_, ?_⟩
    · show mi.refcount - 1 = ((f r.inst - 1 : Nat) : Int) + (if mi.halt then 0 else 1)
      rw [hacc.refcount]
      omega
    · show mi.routeCount - 1 = _
      rw [hacc.routeCount]
      omega
    · show decide (mi.refcount - 1 ≤ 0) = true ↔ mi.halt = true ∧ _
      rw [decide_eq_true_eq, hacc.refcount]
      split
      · next hhalt =>
          simp only [hhalt, true_and]
          omega
      · next hhalt =>
          simp only [hhalt, Bool.false_eq_true, false_and, iff_false]
          omega
  · exact SameStatus.set hmi rfl

end

end

/-! ## Lengths of networks -/

variable {objects : List RouteInstance}

section

variable {mh : MrouteHelper} {n : Nat} {L L' : List Nat}

/-- The lengths in use, when there are iroutes of the lengths `L`. -/
structure HelperOk (mh : MrouteHelper) (L : List Nat) : Prop where
  netLen : mh.netLen = (range MR_HELPER_NET_LEN).reverse.filter (0 < mh.netLenRefcount ·)
  count : ∀ n, (L.count n : Int) ≤ mh.netLenRefcount n

theorem HelperOk.congr (h : HelperOk mh L) (hL : ∀ n, L'.count n ≤ L.count n) : HelperOk mh L' := by
  refine ⟨h.netLen, fun n => ?_⟩
  have hle := hL n
  have hcnt := h.count n
  omega

theorem filter_lengths_eq {c c' : Nat → Int} (h : ∀ k, 0 < c' k ↔ 0 < c k) {l : List Nat} :
    l.filter (0 < c' ·) = l.filter (0 < c ·) := by
  apply filter_congr
  intro k _
  rw [decide_eq_decide]
  exact h k

/-- A counter is written, and the lengths are found anew if `p`. -/
theorem HelperOk.write (h : HelperOk mh L) {c : Int} (hself : (L'.count n : Int) ≤ c)
    (hoth : ∀ k ≠ n, L'.count k ≤ L.count k) {p : Prop} [Decidable p]
    (hp : ¬p → (0 < c ↔ 0 < mh.netLenRefcount n)) (generation : BitVec 32) :
    let mh' := { mh with
      cacheGeneration := generation, netLenRefcount := update mh.netLenRefcount n c }
    HelperOk (if p then mrouteHelperRegenerate mh' else mh') L' := by
  intro mh'
  have hcnt : ∀ k, (L'.count k : Int) ≤ mh'.netLenRefcount k := by
    intro k
    show _ ≤ update mh.netLenRefcount n c k
    by_cases hk : k = n
    · rw [hk, update_self]
      exact hself
    · rw [update_of_ne hk]
      exact Int.le_trans (Int.ofNat_le.mpr (hoth k hk)) (h.count k)
  split
  · exact ⟨rfl, hcnt⟩
  · next hnot =>
      refine ⟨h.netLen.trans (filter_lengths_eq (fun k => ?_)).symm, hcnt⟩
      show 0 < update mh.netLenRefcount n c k ↔ _
      by_cases hk : k = n
      · rw [hk, update_self]
        exact hp hnot
      · rw [update_of_ne hk]

theorem HelperOk.add (h : HelperOk mh L) (hn : n < MR_HELPER_NET_LEN) :
    ∃ mh', mrouteHelperAddIroute46 mh n = some mh' ∧ HelperOk mh' (n :: L) := by
  have hself := h.count n
  unfold mrouteHelperAddIroute46
  rw [if_pos hn]
  dsimp only
  refine ⟨_, rfl, h.write ?_ (fun k hk => ?_) (fun hone => ?_) _⟩
  · rw [count_cons_self]
    omega
  · rw [count_cons_of_ne (Ne.symm hk)]
  · rw [update_self] at hone
    omega

theorem HelperOk.del (h : HelperOk mh (n :: L)) (hn : n < MR_HELPER_NET_LEN) :
    ∃ mh', mrouteHelperDelIroute46 mh n = some mh' ∧ HelperOk mh' L := by
  have hself := h.count n
  rw [count_cons_self] at hself
  unfold mrouteHelperDelIroute46
  rw [if_pos hn]
  dsimp only
  rw [if_pos (by rw [update_self]; omega)]
  refine ⟨_, rfl, h.write ?_ (fun k hk => ?_) (fun hpos => ?_) _⟩
  · omega
  · rw [count_cons_of_ne (Ne.symm hk)]
  · rw [update_self] at hpos
    omega

theorem HelperOk.mem_lt (h : HelperOk mh L) (hn : n ∈ mh.netLen) : n < MR_HELPER_NET_LEN := by
  rw [h.netLen] at hn
  simpa using (mem_filter.mp hn).1

/-- The lengths of the iroutes of an instance that is connected. -/
def RouteInstance.netbitsInUse (mi : RouteInstance) : List Nat :=
  if mi.halt = false ∧ mi.didIroutes = true then mi.iroutes.map Iroute.netbits else []

variable {mi : RouteInstance}

theorem RouteInstance.netbitsInUse_connected (hhalt : mi.halt = false)
    (hdid : mi.didIroutes = true) :
    mi.netbitsInUse = mi.iroutes.map Iroute.netbits :=
  if_pos ⟨hhalt, hdid⟩

theorem RouteInstance.netbitsInUse_new (hnew : mi.didIroutes = false) : mi.netbitsInUse = [] :=
  if_neg fun h => Bool.false_ne_true (hnew.symm.trans h.2)

theorem RouteInstance.netbitsInUse_closed (hhalt : mi.halt = true) : mi.netbitsInUse = [] :=
  if_neg fun h => Bool.false_ne_true (h.1.symm.trans hhalt)

def netbitsInUse (objects : List RouteInstance) : List Nat :=
  (objects.map RouteInstance.netbitsInUse).flatten

theorem SameStatus.netbitsInUse {objects' : List RouteInstance} (h : SameStatus objects objects') :
    OpenVpn.netbitsInUse objects' = OpenVpn.netbitsInUse objects := by
  have hmap := congrArg (List.map fun st : Bool × Bool × List Iroute =>
    if st.1 = false ∧ st.2.1 = true then st.2.2.map Iroute.netbits else []) h
  rw [map_map, map_map] at hmap
  exact congrArg List.flatten hmap

theorem count_netbitsInUse_set {id : Nat} (hmi : objects[id]? = some mi) (y : RouteInstance)
    (n : Nat) :
    (netbitsInUse (objects.set id y)).count n + mi.netbitsInUse.count n =
      (netbitsInUse objects).count n + y.netbitsInUse.count n := by
  obtain ⟨hlt, rfl⟩ := List.getElem?_eq_some_iff.mp hmi
  have hcnt := countP_flatten_set (L := objects.map RouteInstance.netbitsInUse) (i := id)
    (by rwa [length_map]) y.netbitsInUse (· == n)
  rw [← map_set, getD_eq_getElem _ _ (by rwa [length_map]), getElem_map]
    at hcnt
  exact hcnt

end

/-! ## The table -/

variable {cfg : RouteConfig} {m m' : RouteContext cfg} {id : Nat} {mi : RouteInstance}
  {addr key : MrouteAddr} {r : MultiRoute}

/-- The number of routes in the table that point to an instance. -/
def RouteContext.routesOf (m : RouteContext cfg) (id : Nat) : Nat :=
  m.vhash.elements.countP fun he => he.value.inst == id

/-- The counters agree with the table. -/
abbrev TableOk (m : RouteContext cfg) : Prop := Counted m.objects m.routesOf

/-- What a call leaves that works on the table only. -/
structure Kept (m m' : RouteContext cfg) : Prop where
  table : TableOk m'
  routeHelper : m'.routeHelper = m.routeHelper
  status : SameStatus m.objects m'.objects

theorem Kept.refl (h : TableOk m) : Kept m m := ⟨h, rfl, rfl⟩

theorem Kept.trans {m1 m2 m3 : RouteContext cfg} (h : Kept m1 m2) (h' : Kept m2 m3) : Kept m1 m3 :=
  ⟨h'.table, h'.routeHelper.trans h.routeHelper, h.status.trans h'.status⟩

theorem routesOf_pos {he : HashElement MrouteAddr MultiRoute} (h : he ∈ m.vhash.elements) :
    0 < m.routesOf he.value.inst :=
  countP_pos_iff.mpr ⟨he, h, by simp⟩

theorem mem_of_hit {he : HashElement MrouteAddr MultiRoute} (h : m.vhash.hit addr = some he) :
    he ∈ m.vhash.elements :=
  (m.vhash.mem_elements he).mpr ⟨_, mem_of_find?_eq_some h⟩

theorem kept_lookup (h : TableOk m) (key : MrouteAddr) :
    Kept m { m with vhash := (hashLookup m.vhash key).1 } :=
  ⟨h.congr fun _ => countP_hashLookup _ key, rfl, rfl⟩

/-- A search finds a route of an instance that is there; if the route is defined, the instance
is open. -/
theorem routeOwner_spec (h : TableOk m) (addr : MrouteAddr) :
    ∃ owner, RouteContext.routeOwner { m with vhash := (hashLookup m.vhash addr).1 }
        ((m.vhash.hit addr).map HashElement.value) = some owner ∧
      ∀ id ∈ owner, IsOpen m.objects id := by
  cases hhit : m.vhash.hit addr with
  | none => exact ⟨none, rfl, nofun⟩
  | some he =>
    obtain ⟨mi, hmi, hdr⟩ := h.get (routesOf_pos (mem_of_hit hhit))
    simp only [Option.map_some, RouteContext.routeOwner, hdr, Option.bind_eq_bind,
      Option.bind_some]
    refine ⟨_, rfl, fun id hid => ?_⟩
    split at hid
    · next hdef =>
        cases hid
        refine ⟨mi, hmi, ?_⟩
        unfold RouteContext.routeDefined at hdef
        split at hdef
        · cases hdef
        · next hhalt => simpa using hhalt
    · cases hid

theorem TableOk.add (m : RouteContext cfg) (route : MultiRoute)
    (hcnt : Counted objects (Function.update m.routesOf route.inst (m.routesOf route.inst + 1))) :
    let hv := cfg.vhashOps.hashFunction addr
    TableOk { m with
      objects := objects
      vhash := hashAddFast (hashLookup m.vhash addr).1 (m.vhash.index hv) addr hv route } := by
  intro hv
  have hidx : (hashLookup m.vhash addr).1.index hv = m.vhash.index hv := index_hashLookup addr hv
  refine hcnt.congr fun j => (countP_hashAddFast _ _ ?_ addr hv route).trans ?_
  · rw [← hidx]
    exact (hashLookup m.vhash addr).1.index_lt hv
  · rw [countP_hashLookup, update_apply]
    show m.routesOf j + (if route.inst == j then 1 else 0) = _
    by_cases hj : j = route.inst
    · simp [hj]
    · simp [hj, Ne.symm hj]

theorem TableOk.exchange {he : HashElement MrouteAddr MultiRoute}
    (hhit : m.vhash.hit addr = some he)
    (key : MrouteAddr) (route : MultiRoute) {f : Nat → Nat} (hctd : Counted objects f)
    (hf : ∀ j, f j + (if he.value.inst == j then 1 else 0) =
      m.routesOf j + (if route.inst == j then 1 else 0)) :
    TableOk { m with
      objects := objects
      vhash := (hashLookup m.vhash addr).1.writeHead
        (m.vhash.index (cfg.vhashOps.hashFunction addr))
        { he with key := key, value := route } } := by
  refine hctd.congr fun j => ?_
  have hcnt := countP_writeHead (fun he => he.value.inst == j) hhit
    { he with key := key, value := route }
  exact Nat.add_right_cancel (hcnt.trans (hf j).symm)

theorem count_moved (f : Nat → Nat) (id old : Nat) (hpos : 0 < f old) (j : Nat) :
    Function.update (Function.update f id (f id + 1)) old
        (Function.update f id (f id + 1) old - 1) j + (if old == j then 1 else 0) =
      f j + (if id == j then 1 else 0) := by
  simp only [update_apply, beq_iff_eq]
  by_cases hj : j = old
  · subst hj
    by_cases hid : j = id
    · simp [hid]
    · simp only [if_true, hid, if_false, Ne.symm hid]
      omega
  · by_cases hid : j = id
    · simp [hid, hid ▸ hj, Ne.symm (hid ▸ hj)]
    · simp [hj, hid, Ne.symm hj, Ne.symm hid]

/-- **Learning.** The call has a result, and the counters agree with the new table. -/
theorem multiLearnAddr_spec (h : TableOk m) (hopen : IsOpen m.objects id) (addr : MrouteAddr)
    (cached script : Bool) :
    ∃ m' owner, multiLearnAddr m id addr cached script = some (m', owner) ∧ Kept m m' := by
  obtain ⟨owner, hown, -⟩ := routeOwner_spec h addr
  obtain ⟨mi, hmi, hhalt⟩ := hopen
  have hdr := h.deref hmi (.inl hhalt)
  have hfast : hashLookupFast m.vhash (m.vhash.index (cfg.vhashOps.hashFunction addr)) addr
      (cfg.vhashOps.hashFunction addr) = ((hashLookup m.vhash addr).1, m.vhash.hit addr) := rfl
  simp only [multiLearnAddr, Option.bind_eq_bind, hfast, hown, Option.bind_some, hdr]
  split
  · split
    · obtain ⟨objects1, objects2, hinc1, hinc2, hcnt, hst⟩ := h.inc hmi hhalt
      simp only [hinc1, hinc2, Option.bind_some]
      cases hhit : m.vhash.hit addr with
      | none => exact ⟨_, _, rfl, TableOk.add m (m.newRoute id addr cached) hcnt, rfl, hst⟩
      | some he =>
        have hold := routesOf_pos (mem_of_hit hhit)
        -- the new route is counted before the old one is deleted
        have hpos : 0 < Function.update m.routesOf id (m.routesOf id + 1) he.value.inst := by
          rw [update_apply]
          split
          · omega
          · exact hold
        obtain ⟨objects3, hdel, hcounted3, hstatus3⟩ := hcnt.del hpos
        simp only [hdel, Option.bind_some]
        exact ⟨_, _, rfl, TableOk.exchange hhit addr (m.newRoute id addr cached) hcounted3
          (count_moved _ _ _ hold), rfl, hst.trans hstatus3⟩
    · exact ⟨_, _, rfl, kept_lookup h addr⟩
  · exact ⟨_, _, rfl, kept_lookup h addr⟩

/-! ## Lookups -/

theorem hostRoute_spec (h : TableOk m) (addr : MrouteAddr) :
    ∃ m' owner, hostRoute m addr = some (m', owner) ∧ Kept m m' ∧
      ∀ id ∈ owner, IsOpen m'.objects id := by
  obtain ⟨owner, hown, hopen⟩ := routeOwner_spec h addr
  have hfast : hashLookupFast m.vhash (m.vhash.index (cfg.vhashOps.hashFunction addr)) addr
      (cfg.vhashOps.hashFunction addr) = ((hashLookup m.vhash addr).1, m.vhash.hit addr) := rfl
  simp only [hostRoute, Option.bind_eq_bind, hfast, hown, Option.bind_some]
  cases hhit : m.vhash.hit addr with
  | none => exact ⟨_, none, rfl, kept_lookup h addr, nofun⟩
  | some he =>
    cases owner with
    | none => exact ⟨_, none, rfl, kept_lookup h addr, nofun⟩
    | some id =>
      exact ⟨_, _, rfl, ⟨TableOk.exchange hhit he.key { he.value with lastReference := m.now } h
        fun _ => rfl, rfl, rfl⟩, hopen⟩

theorem cidrRoute_spec (addr : MrouteAddr) (script : Bool) {lens : List Nat} (h : TableOk m)
    (hmask : ∀ n ∈ lens, ∃ t, mrouteAddrMaskHostBits (addr.withNetbits n) = some t) :
    ∃ m' owner, cidrRoute m addr script lens = some (m', owner) ∧ Kept m m' ∧
      ∀ id ∈ owner, IsOpen m'.objects id := by
  induction lens generalizing m with
  | nil => exact ⟨m, none, rfl, .refl h, nofun⟩
  | cons n lens ih =>
    obtain ⟨t, ht⟩ := hmask n mem_cons_self
    obtain ⟨owner, hown, hopen⟩ := routeOwner_spec h t
    have hkept := kept_lookup h t
    have hmasked : mrouteAddrMaskHostBits
        { addr with type := addr.type ||| MR_WITH_NETBITS, netbits := UInt8.ofNat n } = some t := ht
    have hlk : (hashLookup m.vhash t).2 = (m.vhash.hit t).map HashElement.value := rfl
    simp only [cidrRoute, hmasked, Option.bind_eq_bind, Option.bind_some, hlk, hown]
    cases owner with
    | none =>
      obtain ⟨m', owner, hm', hkept', hopen'⟩ :=
        ih hkept.table fun k hk => hmask k (mem_cons_of_mem n hk)
      exact ⟨m', owner, hm', hkept.trans hkept', hopen'⟩
    | some id =>
      obtain ⟨m', owner, hm', hkept'⟩ :=
        multiLearnAddr_spec hkept.table (hopen id rfl) addr true script
      simp only [hm', Option.bind_some]
      refine ⟨m', some id, rfl, hkept.trans hkept', ?_⟩
      rintro _ ⟨⟩
      exact hkept'.status.isOpen (hopen id rfl)

theorem notHalted_spec {ret : Option Nat} (h : TableOk m)
    (hopen : ∀ id ∈ ret, IsOpen m.objects id) :
    notHalted m ret = some (m, ret) := by
  cases ret with
  | none => rfl
  | some id =>
    obtain ⟨mi, hmi, hhalt⟩ := hopen id rfl
    simp only [notHalted, h.deref hmi (.inl hhalt), Option.bind_eq_bind, Option.bind_some, hhalt]
    rfl

/-- **Lookup.** The call has a result; a halted instance is not among its answers. -/
theorem multiGetInstanceByVirtualAddr_spec (h : TableOk m) (addr : MrouteAddr)
    (cidrRouting script : Bool) (hmask : cidrRouting = true → ∀ n ∈ m.routeHelper.netLen,
      ∃ t, mrouteAddrMaskHostBits (addr.withNetbits n) = some t) :
    ∃ m' owner, multiGetInstanceByVirtualAddr m addr cidrRouting script = some (m', owner) ∧
      Kept m m' := by
  unfold multiGetInstanceByVirtualAddr
  split
  · exact ⟨m, none, rfl, .refl h⟩
  obtain ⟨m1, host, hm1, hkept1, hopen1⟩ := hostRoute_spec h addr
  simp only [hm1, Option.bind_eq_bind, Option.bind_some]
  cases host with
  | some id => exact ⟨m1, some id, notHalted_spec hkept1.table hopen1, hkept1⟩
  | none =>
    cases cidrRouting with
    | false => exact ⟨m1, none, rfl, hkept1⟩
    | true =>
      rw [← hkept1.routeHelper] at hmask
      obtain ⟨m2, owner, hm2, hkept2, hopen2⟩ := cidrRoute_spec addr script hkept1.table (hmask rfl)
      simp only [hm2, if_true, Option.bind_some]
      exact ⟨m2, owner, notHalted_spec hkept2.table hopen2, hkept1.trans hkept2⟩

/-! ## Reaping -/

section

variable (dead : RouteInstance → MultiRoute → Bool)

/-- The routes of a bucket that are deleted are no longer counted; `g` counts the others. -/
theorem reapBucket_spec {objects : List RouteInstance}
    {l : List (HashElement MrouteAddr MultiRoute)}
    {f g : Nat → Nat} (h : Counted objects f)
    (hf : ∀ j, f j = g j + l.countP fun he => he.value.inst == j) :
    ∃ objects' kept, reapBucket dead objects l = some (objects', kept) ∧
      SameStatus objects objects' ∧
      Counted objects' fun j => g j + kept.countP fun he => he.value.inst == j := by
  induction l generalizing objects f g with
  | nil => exact ⟨objects, [], rfl, rfl, h.congr fun j => (hf j).symm⟩
  | cons he l ih =>
    have hself := hf he.value.inst
    rw [countP_cons, beq_self_eq_true, if_pos rfl] at hself
    have hpos : 0 < f he.value.inst := by omega
    obtain ⟨mi, hmi, hdr⟩ := h.get hpos
    simp only [reapBucket, hdr, Option.bind_eq_bind, Option.bind_some]
    split
    · obtain ⟨objects1, hdel, hcnt, hst⟩ := h.del hpos
      obtain ⟨objects2, kept, hreap, hstatus2, hcounted2⟩ := ih (g := g) hcnt fun j => by
        rw [update_apply]
        have hj := hf j
        rw [countP_cons] at hj
        by_cases hji : j = he.value.inst
        · rw [if_pos hji]
          subst hji
          omega
        · rw [if_neg hji]
          rw [if_neg (by simpa using Ne.symm hji)] at hj
          omega
      simp only [hdel, Option.bind_some]
      exact ⟨objects2, kept, hreap, hst.trans hstatus2, hcounted2⟩
    · obtain ⟨objects1, kept, hreap, hst, hcnt⟩ :=
        ih (g := fun j => g j + (if he.value.inst == j then 1 else 0)) h fun j => by
          rw [hf j, countP_cons]
          omega
      simp only [hreap, Option.bind_some]
      refine ⟨objects1, he :: kept, rfl, hst, hcnt.congr fun j => ?_⟩
      rw [countP_cons]
      omega

theorem reapBuckets_spec {count start : Nat} (h : TableOk m)
    (hrng : start + count ≤ m.vhash.buckets.length) :
    ∃ m', reapBuckets dead count start m = some m' ∧ Kept m m' := by
  induction count generalizing start m with
  | zero => exact ⟨m, rfl, .refl h⟩
  | succ count ih =>
    have hlt : start < m.vhash.buckets.length := by omega
    have hspl : ∀ j, m.routesOf j =
        (m.vhash.setBucket start []).elements.countP (fun he => he.value.inst == j) +
          (m.vhash.bucket start).countP fun he => he.value.inst == j := by
      intro j
      have hcnt := m.vhash.countP_setBucket hlt [] fun he => he.value.inst == j
      rw [countP_nil] at hcnt
      exact hcnt.symm
    obtain ⟨objects1, kept, hreap, hst, hctd⟩ := reapBucket_spec dead h hspl
    let m1 : RouteContext cfg := { m with
      objects := objects1
      vhash := (m.vhash.setBucket start kept).setCount
        (m.vhash.nElements - ((m.vhash.bucket start).length - kept.length : Nat)) }
    have hkept : Kept m m1 := by
      refine ⟨hctd.congr fun j => ?_, rfl, hst⟩
      have hcnt := m.vhash.countP_setBucket hlt kept fun he => he.value.inst == j
      have hj := hspl j
      change m1.routesOf j + _ = m.routesOf j + _ at hcnt
      omega
    have hrange1 : start + 1 + count ≤ m1.vhash.buckets.length := by
      show _ ≤ (m.vhash.buckets.set start kept).length
      rw [length_set]
      omega
    obtain ⟨m2, hm2, hkept2⟩ := ih hkept.table hrange1
    refine ⟨m2, ?_, hkept.trans hkept2⟩
    simp only [reapBuckets, hreap, Option.bind_eq_bind, Option.bind_some]
    exact hm2

theorem reapRange_spec (h : TableOk m) {startBucket endBucket : Nat}
    (hstart : startBucket ≤ endBucket)
    (hlt : startBucket ≤ m.vhash.buckets.length) :
    ∃ m', reapRange dead m startBucket endBucket = some m' ∧ Kept m m' := by
  have hle : startBucket ≤ min endBucket m.vhash.buckets.length := Nat.le_min.mpr ⟨hstart, hlt⟩
  unfold reapRange
  rw [if_pos hle]
  refine reapBuckets_spec dead h ?_
  rw [Nat.add_sub_cancel' hle]
  exact min_le_right _ _

end

theorem multiReapProcess_spec (h : TableOk m) : ∃ m', multiReapProcess m = some m' ∧ Kept m m' := by
  unfold multiReapProcess
  split
  · let base := if m.vhash.buckets.length ≤ m.reaper.bucketBase then 0 else m.reaper.bucketBase
    have hbase : base ≤ m.vhash.buckets.length := by
      show (if _ then _ else _) ≤ _
      split
      · exact zero_le _
      · omega
    obtain ⟨m1, hm1, hkept⟩ := reapRange_spec (fun mi r => !m.routeDefined mi r) h
      (le_add_right base m.reaper.bucketsPerPass) hbase
    refine ⟨{ m1 with reaper := { m1.reaper with
      bucketBase := base + m1.reaper.bucketsPerPass, lastCall := m1.now } }, ?_,
      hkept.table, hkept.routeHelper, hkept.status⟩
    simp only [Option.bind_eq_bind]
    rw [show multiReapRange m _ _ = some m1 from hm1]
    rfl
  · exact ⟨m, rfl, .refl h⟩

/-! ## Clients -/

/-- The counters agree with the table and with the iroutes of the open instances. -/
structure LifetimeOk (m : RouteContext cfg) : Prop where
  table : TableOk m
  helper : HelperOk m.routeHelper (netbitsInUse m.objects)

theorem LifetimeOk.kept (h : LifetimeOk m) (hkept : Kept m m') : LifetimeOk m' := by
  refine ⟨hkept.table, ?_⟩
  rw [hkept.routeHelper, hkept.status.netbitsInUse]
  exact h.helper

theorem learnKey_isSome (ir : Iroute) :
    ∃ key, learnKey ir.network (some ir.netbits) = some key := by
  obtain ⟨a, n, hle⟩ := ir
  cases a with
  | v4 a => exact ⟨_, learnKey_v4 a n⟩
  | v6 a => exact ⟨_, learnKey_v6 a hle⟩

theorem multiLearnInAddr_spec (h : TableOk m) (hopen : IsOpen m.objects id) {a : VirtualAddr}
    {netbits : Option Nat} (hkey : learnKey a netbits = some key) (script : Bool) :
    ∃ m', multiLearnInAddr m id a netbits script = some m' ∧ Kept m m' := by
  obtain ⟨m', owner, hm', hkept⟩ := multiLearnAddr_spec h hopen key false script
  refine ⟨m', ?_, hkept⟩
  unfold multiLearnInAddr
  simp only [hkey, Option.bind_eq_bind, Option.bind_some, hm']
  rfl

theorem learnPrimary_spec (script : Nat → Bool) {k : Nat} {l : List VirtualAddr} (h : TableOk m)
    (hopen : IsOpen m.objects id) : ∃ m', learnPrimary id script k l m = some m' ∧ Kept m m' := by
  induction l generalizing m k with
  | nil => exact ⟨m, rfl, .refl h⟩
  | cons a l ih =>
    obtain ⟨m1, hm1, hkept1⟩ := multiLearnInAddr_spec h hopen (learnKey_host a) (script k)
    obtain ⟨m2, hm2, hkept2⟩ := ih (k := k + 1) hkept1.table (hkept1.status.isOpen hopen)
    refine ⟨m2, ?_, hkept1.trans hkept2⟩
    simp only [learnPrimary, hm1, Option.bind_eq_bind, Option.bind_some]
    exact hm2

theorem addIroutes_spec (script : Nat → Bool) {k : Nat} {l : List Iroute} {L : List Nat}
    (h : TableOk m) (hhelp : HelperOk m.routeHelper L) (hopen : IsOpen m.objects id) :
    ∃ m', addIroutes id script k l m = some m' ∧ TableOk m' ∧
      HelperOk m'.routeHelper (l.map Iroute.netbits ++ L) ∧ SameStatus m.objects m'.objects := by
  induction l generalizing m k L with
  | nil => exact ⟨m, rfl, h, hhelp, rfl⟩
  | cons ir l ih =>
    have hbits : ir.netbits < MR_HELPER_NET_LEN := lt_of_le_of_lt ir.le ir.network.width_lt
    obtain ⟨mh, hmh, hhelper1⟩ := hhelp.add hbits
    obtain ⟨key, hkey⟩ := learnKey_isSome ir
    have h0 : TableOk { m with routeHelper := mh } := h
    obtain ⟨m1, hm1, hkept1⟩ := multiLearnInAddr_spec h0 hopen hkey (script k)
    rw [show mh = m1.routeHelper from hkept1.routeHelper.symm] at hhelper1
    obtain ⟨m2, hm2, h2, hhelper2, hstatus2⟩ :=
      ih (k := k + 1) hkept1.table hhelper1 (hkept1.status.isOpen hopen)
    refine ⟨m2, ?_, h2, hhelper2.congr fun n => ?_, hkept1.status.trans hstatus2⟩
    · simp only [addIroutes, hmh, hm1, Option.bind_eq_bind, Option.bind_some]
      exact hm2
    · simp only [map_cons, cons_append, count_cons, count_append]
      omega

theorem TableOk.write (h : TableOk m) (hmi : m.objects[id]? = some mi) {y : RouteInstance}
    (hy : Accounted y (m.routesOf id)) : TableOk { m with objects := m.objects.set id y } := by
  refine (h.set hmi hy).congr fun j => ?_
  rw [update_eq_self]
  rfl

/-- A client that connects learns its addresses and iroutes. -/
theorem connectRoutes_spec (h : LifetimeOk m) (hmi : m.objects[id]? = some mi)
    (hhalt : mi.halt = false) (hnew : mi.didIroutes = false) {primary : List VirtualAddr}
    {iroutes : List Iroute} {script : Nat → Bool} :
    ∃ m', connectRoutes m id primary iroutes script = some m' ∧ LifetimeOk m' := by
  obtain ⟨m1, hm1, hkept⟩ :=
    learnPrimary_spec script (k := 0) (l := primary) h.table ⟨mi, hmi, hhalt⟩
  obtain ⟨mi1, hmi1, hst1⟩ := hkept.status.get hmi
  have hhalt1 : mi1.halt = false := (congrArg Prod.fst hst1).trans hhalt
  have hnew1 : mi1.didIroutes = false := (congrArg (fun st => st.2.1) hst1).trans hnew
  have hdr := hkept.table.deref hmi1 (.inl hhalt1)
  have hacc := hkept.table.accounted id mi1 hmi1
  have h2 := TableOk.write hkept.table hmi1
    (y := { mi1 with didIroutes := true, iroutes := iroutes })
    ⟨hacc.refcount, hacc.routeCount, hacc.freed⟩
  have hlt := (List.getElem?_eq_some_iff.mp hmi1).1
  obtain ⟨m3, hm3, h3, hhelper3, hstatus3⟩ := addIroutes_spec script (k := primary.length)
    (l := iroutes) h2 (hkept.routeHelper ▸ h.helper) ⟨_, getElem?_set_self hlt, hhalt1⟩
  refine ⟨m3, ?_, h3, hhelper3.congr fun n => ?_⟩
  · simp only [connectRoutes, hm1, hdr, Option.bind_eq_bind, Option.bind_some]
    exact hm3
  · have hcnt := count_netbitsInUse_set hmi1 { mi1 with didIroutes := true, iroutes := iroutes } n
    have hconnected : RouteInstance.netbitsInUse
        { mi1 with didIroutes := true, iroutes := iroutes } = iroutes.map Iroute.netbits :=
      RouteInstance.netbitsInUse_connected hhalt1 rfl
    rw [RouteInstance.netbitsInUse_new hnew1, hconnected, count_nil] at hcnt
    rw [hstatus3.netbitsInUse, count_append, ← hkept.status.netbitsInUse]
    show (netbitsInUse (m1.objects.set id _)).count n ≤ _
    omega

theorem multiDelIroutes_spec {mh : MrouteHelper} {l : List Iroute} {L : List Nat}
    (h : HelperOk mh (l.map Iroute.netbits ++ L)) :
    ∃ mh', multiDelIroutes l mh = some mh' ∧ HelperOk mh' L := by
  induction l generalizing mh with
  | nil => exact ⟨mh, rfl, h⟩
  | cons ir l ih =>
    have hbits : ir.netbits < MR_HELPER_NET_LEN := lt_of_le_of_lt ir.le ir.network.width_lt
    obtain ⟨mh1, hmh1, h1⟩ := h.del hbits
    obtain ⟨mh2, hmh2, h2⟩ := ih h1
    refine ⟨mh2, ?_, h2⟩
    simp only [multiDelIroutes, hmh1, Option.bind_eq_bind, Option.bind_some]
    exact hmh2

/-- **Close.** The instance is halted, and what keeps its memory is its routes. -/
theorem closeRouteInstance_spec (h : LifetimeOk m) (hmi : m.objects[id]? = some mi)
    (hhalt : mi.halt = false) (shutdown : Bool) :
    ∃ m', closeRouteInstance m id shutdown = some m' ∧ LifetimeOk m' := by
  have hdr := h.table.deref hmi (.inl hhalt)
  have hfreed : mi.freed = false := (deref_eq_some.mp hdr).2
  have hacc := h.table.accounted id mi hmi
  let y : RouteInstance := { mi with
    halt := true
    didIroutes := shutdown && mi.didIroutes
    refcount := mi.refcount - 1
    freed := decide (mi.refcount - 1 ≤ 0) }
  have hy : Accounted y (m.routesOf id) := by
    have href := hacc.refcount
    rw [hhalt] at href
    refine ⟨?_, hacc.routeCount, ?_⟩
    · show mi.refcount - 1 = (m.routesOf id : Int) + 0
      rw [href]
      simp
    · show decide (mi.refcount - 1 ≤ 0) = true ↔ true = true ∧ m.routesOf id = 0
      rw [decide_eq_true_eq, href]
      simp
  have hcnt : ∀ n, (netbitsInUse (m.objects.set id y)).count n + mi.netbitsInUse.count n =
      (netbitsInUse m.objects).count n := by
    intro n
    have hset := count_netbitsInUse_set hmi y n
    rwa [RouteInstance.netbitsInUse_closed (show y.halt = true from rfl), count_nil,
      add_zero] at hset
  have hclose : ∀ mh, (if !shutdown && mi.didIroutes then multiDelIroutes mi.iroutes m.routeHelper
      else some m.routeHelper) = some mh → closeRouteInstance m id shutdown =
        some { m with routeHelper := mh, objects := m.objects.set id y } := by
    intro mh hmh
    have hderef' := deref_set
      (y := { mi with halt := true, didIroutes := shutdown && mi.didIroutes }) hmi hfreed
    simp only [closeRouteInstance, hdr, Option.bind_eq_bind, Option.bind_some, hhalt,
      Bool.false_eq_true, if_false, multiInstanceDecRefcount, hderef', set_set,
      Option.pure_def]
    split at hmh
    · next hdel =>
        rw [if_pos hdel, hmh]
        rfl
    · next hdel =>
        cases hmh
        rw [if_neg hdel]
  have hwr := TableOk.write h.table hmi hy
  by_cases hdel : shutdown = false ∧ mi.didIroutes = true
  · have hhelp : HelperOk m.routeHelper
        (mi.iroutes.map Iroute.netbits ++ netbitsInUse (m.objects.set id y)) := by
      refine h.helper.congr fun n => ?_
      have hn := hcnt n
      rw [RouteInstance.netbitsInUse_connected hhalt hdel.2] at hn
      rw [count_append]
      omega
    obtain ⟨mh, hmh, hok⟩ := multiDelIroutes_spec hhelp
    refine ⟨_, hclose mh ?_, hwr, hok⟩
    rw [if_pos (by rw [hdel.1, hdel.2]; rfl)]
    exact hmh
  · refine ⟨_, hclose _ ?_, hwr, h.helper.congr fun n => ?_⟩
    · rw [if_neg]
      simpa using hdel
    · have hn := hcnt n
      show (netbitsInUse (m.objects.set id y)).count n ≤ _
      omega

theorem createRouteInstance_spec (h : LifetimeOk m) (maxRoutes : Int) :
    LifetimeOk (createRouteInstance m maxRoutes) := by
  have hnone : m.routesOf m.objects.length = 0 := by
    refine Nat.eq_zero_of_not_pos fun hpos => ?_
    exact Nat.lt_irrefl _ (h.table.known _ hpos)
  refine ⟨⟨fun id mi hmi => ?_, fun id hpos => ?_⟩, h.helper.congr fun n => ?_⟩
  · rcases lt_trichotomy id m.objects.length with hlt | rfl | hgt
    · rw [createRouteInstance, getElem?_append_left hlt] at hmi
      exact h.table.accounted id mi hmi
    · rw [createRouteInstance, getElem?_concat_length] at hmi
      cases hmi
      show Accounted _ (m.routesOf m.objects.length)
      rw [hnone]
      exact ⟨rfl, rfl, by simp⟩
    · rw [createRouteInstance, getElem?_eq_none] at hmi
      · cases hmi
      · rw [length_append, length_singleton]
        omega
  · have hlt := h.table.known id hpos
    show id < (m.objects ++ [_]).length
    rw [length_append]
    omega
  · simp [createRouteInstance, netbitsInUse, RouteInstance.netbitsInUse]

theorem isOpen_eq_true : m.isOpen id = true ↔ IsOpen m.objects id := by
  simp [IsOpen, RouteContext.isOpen, Option.any_eq_true]

theorem isNew_eq_true : m.isNew id = true ↔
    ∃ mi, m.objects[id]? = some mi ∧ mi.halt = false ∧ mi.didIroutes = false := by
  simp [RouteContext.isNew, Option.any_eq_true]

theorem HelperOk.mask {L : List Nat} (h : HelperOk m.routeHelper L) (dest : VirtualAddr) :
    ∀ n ∈ m.routeHelper.netLen, ∃ t, mrouteAddrMaskHostBits (dest.mroute.withNetbits n) = some t :=
  fun _ hn => ⟨_, mrouteAddrMaskHostBits_mroute dest (h.mem_lt hn)⟩

/-! ## Runs -/

theorem routesInit_ok {now : Nat} (hinit : routesInit cfg now = some m) : LifetimeOk m := by
  obtain ⟨vhash, hvhash, hm⟩ := Option.bind_eq_some_iff.mp hinit
  cases hm
  obtain ⟨hok, hzero, _⟩ := hashInit_spec hvhash
  have hemp : vhash.elements = [] := by
    have hcnt := hok.counted
    rw [hzero] at hcnt
    exact eq_nil_of_length_eq_zero (Int.ofNat.inj hcnt.symm)
  refine ⟨⟨fun id mi hmi => ?_, fun id hpos => ?_⟩, ?_, fun n => ?_⟩
  · cases hmi
  · rw [RouteContext.routesOf, hemp] at hpos
    cases hpos
  · exact (filter_eq_nil_iff.mpr fun n _ => by simp [mrouteHelperInit]).symm
  · exact Int.le_refl 0

theorem quietly_ok {r : Option (RouteContext cfg)} (h : ∃ m', r = some m' ∧ LifetimeOk m') :
    ∃ m' out, quietly r = some (m', out) ∧ LifetimeOk m' := by
  obtain ⟨m', rfl, h'⟩ := h
  exact ⟨m', .done, rfl, h'⟩

theorem lookup_ok (h : LifetimeOk m) {cidrRouting script : Bool}
    (hmask : cidrRouting = true → ∀ n ∈ m.routeHelper.netLen,
      ∃ t, mrouteAddrMaskHostBits (addr.withNetbits n) = some t) :
    ∃ m' out, (multiGetInstanceByVirtualAddr m addr cidrRouting script).map
      (fun r => (r.1, RouteOutput.found r.2)) = some (m', out) ∧ LifetimeOk m' := by
  obtain ⟨m', owner, hm', hkept⟩ :=
    multiGetInstanceByVirtualAddr_spec h.table addr cidrRouting script hmask
  refine ⟨m', .found owner, ?_, h.kept hkept⟩
  rw [hm']
  rfl

/-- **Every event.** No memory is missed, no assertion fails. -/
theorem routeStep_spec (h : LifetimeOk m) {e : RouteEvent} :
    ∃ m' out, routeStep m e = some (m', out) ∧ LifetimeOk m' := by
  cases e with
  | create maxRoutes fails =>
    have hcr := createRouteInstance_spec h maxRoutes
    apply quietly_ok
    cases fails with
    | false => exact ⟨_, rfl, hcr⟩
    | true =>
      exact closeRouteInstance_spec hcr getElem?_concat_length rfl false
  | connect id primary iroutes script =>
    apply quietly_ok
    split
    · next hnew =>
        obtain ⟨mi, hmi, hhalt, hdid⟩ := isNew_eq_true.mp hnew
        exact connectRoutes_spec h hmi hhalt hdid
    · exact ⟨m, rfl, h⟩
  | learn id addr script =>
    apply quietly_ok
    split
    · next hopen =>
        obtain ⟨m', owner, hm', hkept⟩ :=
          multiLearnAddr_spec h.table (isOpen_eq_true.mp hopen) addr false script
        rw [hm']
        exact ⟨m', rfl, h.kept hkept⟩
    · exact ⟨m, rfl, h⟩
  | lookup dest script => exact lookup_ok h fun _ => h.helper.mask dest
  | lookupEther dest => exact lookup_ok h fun hcidr => absurd hcidr Bool.false_ne_true
  | tick secs => exact ⟨_, _, rfl, h.table, h.helper⟩
  | reap =>
    obtain ⟨m', hm', hkept⟩ := multiReapProcess_spec h.table
    exact quietly_ok ⟨m', hm', h.kept hkept⟩
  | reapAll | staleRoutes =>
    obtain ⟨m', hm', hkept⟩ := reapRange_spec _ h.table (zero_le _) (zero_le _)
    exact quietly_ok ⟨m', hm', h.kept hkept⟩
  | close id shutdown =>
    apply quietly_ok
    split
    · next hopen =>
        obtain ⟨mi, hmi, hhalt⟩ := isOpen_eq_true.mp hopen
        exact closeRouteInstance_spec h hmi hhalt shutdown
    · exact ⟨m, rfl, h⟩

/-- **Lifetime.** Every run of the server has a result, so that no instance is read or released
after it was released. The counters of an instance are the number of its routes, the reference
of an open instance is one more, and an instance is released exactly if it is closed and has no
routes. -/
theorem instance_lifetime {now : Nat} {m₀ : RouteContext cfg} (hinit : routesInit cfg now = some m₀)
    (es : List RouteEvent) :
    ∃ m outs, run routeStep m₀ es = some (m, outs) ∧
      (∀ he ∈ m.vhash.elements, ∃ mi, m.objects[he.value.inst]? = some mi ∧ mi.freed = false) ∧
      ∀ id mi, m.objects[id]? = some mi →
        mi.refcount = (m.routesOf id : Int) + (if mi.halt then 0 else 1) ∧
          mi.routeCount = (m.routesOf id : Int) ∧
          (mi.freed = true ↔ mi.halt = true ∧ m.routesOf id = 0) := by
  obtain ⟨m, outs, hrun, hok⟩ := run_isSome (fun m e h _ => routeStep_spec h) (routesInit_ok hinit)
    (runGuard_true m₀ es)
  refine ⟨m, outs, hrun, fun he hmem => ?_, fun id mi hmi => ?_⟩
  · have hpos : 0 < m.routesOf he.value.inst := countP_pos_iff.mpr ⟨he, hmem, by simp⟩
    obtain ⟨mi, hmi, hderef⟩ := hok.table.get hpos
    exact ⟨mi, hmi, (deref_eq_some.mp hderef).2⟩
  · have hacc := hok.table.accounted id mi hmi
    exact ⟨hacc.refcount, hacc.routeCount, hacc.freed⟩

def sampleRouting : RouteConfig where
  hashFunc bs iv := iv + BitVec.ofNat 32 bs.length
  vhashIv := 0
  virtualHashSize := 2
  localIfconfig := 0x0a080001
  staleRoutesAgeingTime := 0

/-- A client with an address and a network. -/
def sampleConnect (id : Nat) : RouteEvent :=
  .connect id [.v4 0x0a080002] [⟨.v4 0xc0a80000, 16, by decide⟩] fun _ => true

/-- Two clients have the same address and network, one after the other. A host of the network is
looked up before the first one is closed. The last route of the first client goes with the
reaper. -/
def routeSchedule : List RouteEvent :=
  [.create 256 false, sampleConnect 0, .lookup (.v4 0xc0a80101) true, .create 256 false,
    .create 256 true, .close 0 false, sampleConnect 1, .tick 1, .reap]

theorem instance_lifetime_last_route : ∃ m₀ m outs, routesInit sampleRouting 7 = some m₀ ∧
    run routeStep m₀ routeSchedule = some (m, outs) ∧
      m.objects.map (fun mi => (mi.halt, mi.refcount, mi.freed)) =
        [(true, 0, true), (false, 3, false), (true, 0, true)] ∧
      ∀ mi, m.objects[1]? = some mi →
        mi.refcount = (m.routesOf 1 : Int) + (if mi.halt then 0 else 1) := by
  have hend : (routesInit sampleRouting 7).bind (fun m₀ => (run routeStep m₀ routeSchedule).map
      fun r => r.1.objects.map fun mi => (mi.halt, mi.refcount, mi.freed)) =
        some [(true, 0, true), (false, 3, false), (true, 0, true)] := by
    decide +kernel
  obtain ⟨m₀, hinit, hrest⟩ := Option.bind_eq_some_iff.mp hend
  obtain ⟨⟨m, outs⟩, hrun, hobjects⟩ := Option.map_eq_some_iff.mp hrest
  obtain ⟨m', outs', hrun', _, hcounters⟩ := instance_lifetime hinit routeSchedule
  cases hrun.symm.trans hrun'
  exact ⟨m₀, m, outs, hinit, hrun, hobjects, fun mi hmi => (hcounters 1 mi hmi).1⟩

end OpenVpn
