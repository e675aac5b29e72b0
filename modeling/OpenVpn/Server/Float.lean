import OpenVpn.Server.Admission
import OpenVpn.Server.ClientTable

/-!
# Floating clients and the table of real addresses

An instance whose client sends from a new address is moved: it leaves the table
of real addresses under its old key and enters it under a new one. The key of a
datagram carries the protocol of the socket; the key a float stores carries
none.

* `multiProcessFloat_spec` — the move keeps the tables consistent.
* `ServerOk` — in every state of a run, every live instance is in the tables
  under the key of its present address: with the protocol of its socket, or, once
  it has floated, without.
* The consequence: a lookup by source address finds an instance exactly until it
  floats, and the collision check of a float finds it exactly after.
-/

namespace OpenVpn

open Base List Option Nat Prod

variable {cfg : MultiConfig} {m m' : MultiContext cfg} {d : Datagram} {id : Nat}
  {mi : MultiInstance} {real : MrouteAddr}

/-! ## The move -/

theorem moveKey_spec {ops : HashOps MrouteAddr} {hash hash1 hash2 : Hash ops Nat}
    {did : MultiInstance → Bool} {objects : List MultiInstance} {y : MultiInstance}
    (hidx : hash.Indexes (Keyed did objects)) (hlive : LiveAt objects id mi) (hdid : did mi = true)
    (hhalt : y.halt = false) (hdid' : did y = true)
    (h1 : asserted (hashRemove hash mi.real) = some hash1)
    (h2 : asserted (hashAdd hash1 y.real id false) = some hash2) :
    hash2.Indexes (Keyed did (objects.set id y)) := by
  have hown : ∀ k, Keyed did objects id k → ops.compareFunction k mi.real := by
    intro k hk
    rw [← ((keyed_at hlive.1).mp hk).2.2]
    exact ops.refl _
  have hidx1 := (hidx.remove ⟨mi, hlive, hdid, rfl⟩ hown).2
  rw [(asserted_eq_some.mp h1).2] at hidx1
  obtain ⟨hret, rfl⟩ := asserted_eq_some.mp h2
  have habs : hash1.find y.real = none := by
    rw [(hashAdd_spec hidx1.1 y.real id false).1] at hret
    exact isNone_iff_eq_none.mp hret
  refine (hidx1.add habs id).congr fun v k => ?_
  rw [keyed_set hlive.1]
  simp only [hhalt, hdid', true_and, eq_comm]

/-- The instance as a float leaves it. -/
def MultiInstance.moved (mi : MultiInstance) (d : Datagram) (real : MrouteAddr) : MultiInstance :=
  { mi with real := real, source := d.source, sock := d.sock }

theorem moveInstance_spec (ht : Tables m) (hlive : m.Live id mi) (hhash : mi.didRealHash = true)
    (hiter : mi.didIter = true) (h : moveInstance m id d real = some m') :
    Tables m' ∧ m'.objects = m.objects.set id (mi.moved d real) := by
  unfold moveInstance at h
  rw [hlive.1] at h
  simp only [bind_eq_bind, bind_some, bind_eq_some_iff] at h
  obtain ⟨hash1, hrem, iter1, hrem', hash2, hadd, iter2, hadd', h⟩ := h
  cases h
  refine ⟨⟨?_, ?_, ?_⟩, rfl⟩
  · exact moveKey_spec (y := mi.moved d real) ht.hash hlive hhash hlive.2 hhash hrem hadd
  · exact moveKey_spec (y := mi.moved d real) ht.iter hlive hiter hlive.2 hiter hrem' hadd'
  · exact ht.slots.update (y := mi.moved d real) hlive.1 rfl rfl

theorem live_moved (hlive : m.Live id mi) (hobj : m'.objects = m.objects.set id (mi.moved d real)) :
    m'.Live id (mi.moved d real) ∧ ∀ j x, j ≠ id → m'.Live j x → m.Live j x := by
  constructor
  · exact (liveAt_set hlive.1 hobj).mpr (.inl ⟨rfl, rfl, hlive.2⟩)
  · intro j x hj hx
    rcases (liveAt_set hlive.1 hobj).mp hx with ⟨hj', _⟩ | ⟨_, hx⟩
    · exact absurd hj' hj
    · exact hx

theorem moveInstance_closed (ht : Tables m) (hlive : m.Live id mi) (hhash : mi.didRealHash = true)
    (h : multiCloseInstance m id = some m') : moveInstance m' id d real = none := by
  obtain ⟨m₁, h1, hcl⟩ := multiCloseInstance_spec ht hlive
  cases h.symm.trans h1
  have hgone : m'.hash.find mi.real = none := by
    rw [eq_none_iff_forall_ne_some]
    intro j hj
    obtain ⟨x, hx, hdid, hcmp⟩ := hcl.tables.find_eq_some.mp hj
    obtain ⟨hne, hx⟩ := hcl.live_iff.mp hx
    have hfind := ht.find_eq_some.mpr ⟨x, hx, hdid, hcmp⟩
    rw [ht.hash.find ⟨mi, hlive, hhash, rfl⟩] at hfind
    exact hne (some.inj hfind).symm
  have hself : m'.objects[id]? = some { mi with halt := true } := by
    rw [hcl.objects, getElem?_set_self hlive.lt]
  have hrem : asserted (hashRemove m'.hash mi.real) = none := by
    unfold asserted
    rw [(hashRemove_spec hcl.tables.hash.1 mi.real).1, hgone]
    rfl
  unfold moveInstance
  rw [hself]
  simp only [bind_eq_bind, bind_some, hrem]
  rfl

/-- A float moves the instance to the new address, or changes nothing. -/
theorem multiProcessFloat_spec {moved : Bool} (ht : Tables m) (hlive : m.Live id mi)
    (hhash : mi.didRealHash = true) (hiter : mi.didIter = true)
    (h : multiProcessFloat m id d = some (m', moved)) :
    (moved = false ∧ Looked m m') ∨
      (moved = true ∧ Tables m' ∧ m'.objects.length = m.objects.length ∧
        ∃ real, realKey .none d.source = some real ∧
          m'.Live id (mi.moved d real) ∧ ∀ j x, j ≠ id → m'.Live j x → m.Live j x) := by
  unfold multiProcessFloat at h
  split at h
  · cases h
    exact .inl ⟨rfl, .inl rfl⟩
  next real hkey =>
  have ht1 := ht.lookup real
  split at h
  · next hash hlk =>
      rw [show (hashLookup m.hash real).1 = hash by rw [hlk]] at ht1
      simp only [bind_eq_bind, bind_eq_some_iff] at h
      obtain ⟨m₂, hmove, h⟩ := h
      cases h
      obtain ⟨ht2, hobj⟩ := moveInstance_spec ht1 hlive hhash hiter hmove
      obtain ⟨hlive', hoths⟩ := live_moved hlive hobj
      exact .inr ⟨rfl, ht2, by rw [hobj, length_set], real, hkey, hlive', hoths⟩
  · next hash exId hlk =>
      have hhash' : (hashLookup m.hash real).1 = hash := by rw [hlk]
      rw [hhash'] at ht1
      simp only [bind_eq_bind, bind_eq_some_iff] at h
      obtain ⟨_, _, exMi, _, h⟩ := h
      split at h
      · simp only [bind_eq_some_iff] at h
        obtain ⟨m₂, hclose, m3, hmove, h⟩ := h
        cases h
        have hne : id ≠ exId := by
          rintro rfl
          rw [moveInstance_closed ht1 hlive hhash hclose] at hmove
          cases hmove
        obtain ⟨x, hcl⟩ := multiCloseInstance_closed ht1 hclose
        have hlive2 : m₂.Live id mi := hcl.live_iff.mpr ⟨hne, hlive⟩
        obtain ⟨ht3, hobj⟩ := moveInstance_spec hcl.tables hlive2 hhash hiter hmove
        obtain ⟨hlive', hoths⟩ := live_moved hlive2 hobj
        refine .inr ⟨rfl, ht3, ?_, real, hkey, hlive', fun j x' hj hx' => ?_⟩
        · rw [hobj, length_set, hcl.objects, length_set]
        · exact (hcl.live_iff.mp (hoths j x' hj hx')).2
      · cases h
        exact .inl ⟨rfl, .inr ⟨real, by rw [hhash']⟩⟩

/-! ## Runs -/

variable {past : List ServerOutput} {o : ServerOutput}

/-- The protocol in the key of an instance: the socket's, until it floats. -/
def keyProto (past : List ServerOutput) (id : Nat) (mi : MultiInstance) : ProtoNum :=
  if .floated id ∈ past then .none else mi.sock.proto

/-- Between two events an instance is in both tables under the key of its
address. -/
structure Settled (past : List ServerOutput) (id : Nat) (mi : MultiInstance) : Prop where
  hashed : mi.didRealHash = true
  iterated : mi.didIter = true
  delivered : mi.source.Delivered
  keyed : realKey (keyProto past id mi) mi.source = some mi.real

theorem Settled.append (h : Settled past id mi) (ho : o ≠ .floated id) :
    Settled (past ++ [o]) id mi where
  hashed := h.hashed
  iterated := h.iterated
  delivered := h.delivered
  keyed := by
    have hiff : ServerOutput.floated id ∈ past ++ [o] ↔ .floated id ∈ past := by
      rw [mem_append, mem_singleton]
      exact or_iff_left (Ne.symm ho)
    rw [keyProto, if_congr hiff rfl rfl]
    exact h.keyed

/-- The state of a server after the outputs `past`. -/
structure ServerOk (m : MultiContext cfg) (past : List ServerOutput) : Prop where
  tables : Tables m
  settled : ∀ id mi, m.Live id mi → Settled past id mi
  known : ∀ id, .floated id ∈ past → id < m.objects.length

theorem ServerOk.congr (h : ServerOk m past) (ht : Tables m') (hobj : m'.objects = m.objects) :
    ServerOk m' past where
  tables := ht
  settled := by
    intro id mi hlive
    rw [MultiContext.Live, hobj] at hlive
    exact h.settled id mi hlive
  known := by
    rw [hobj]
    exact h.known

theorem ServerOk.looked (h : ServerOk m past) (hl : Looked m m') : ServerOk m' past :=
  h.congr (h.tables.looked hl) hl.objects

theorem ServerOk.quiet (h : ServerOk m past) (ho : ∀ id, o ≠ .floated id) (ht : Tables m')
    (hlen : m.objects.length ≤ m'.objects.length)
    (hlive : ∀ id mi, m'.Live id mi → Settled past id mi) : ServerOk m' (past ++ [o]) where
  tables := ht
  settled := fun id mi hl => (hlive id mi hl).append (ho id)
  known := by
    intro id hid
    rw [mem_append, mem_singleton] at hid
    rcases hid with hid | hid
    · exact lt_of_lt_of_le (h.known id hid) hlen
    · exact absurd hid.symm (ho id)

theorem ServerOk.append (h : ServerOk m past) (ho : ∀ id, o ≠ .floated id) :
    ServerOk m (past ++ [o]) := h.quiet ho h.tables (le_refl _) h.settled

theorem ServerOk.set {y : MultiInstance} (h : ServerOk m past) (ho : ∀ id, o ≠ .floated id)
    (ht : Tables m') (hmi : m.objects[id]? = some mi) (hobj : m'.objects = m.objects.set id y)
    (hy : y.halt = false → Settled past id y) : ServerOk m' (past ++ [o]) := by
  refine h.quiet ho ht (by rw [hobj, length_set]) fun j x hx => ?_
  rcases (liveAt_set hmi hobj).mp hx with ⟨rfl, rfl, hhalt⟩ | ⟨_, hx⟩
  · exact hy hhalt
  · exact h.settled j x hx

theorem ServerOk.push {y : MultiInstance} (h : ServerOk m past) (ho : ∀ id, o ≠ .floated id)
    (ht : Tables m') (hobj : m'.objects = m.objects ++ [y])
    (hy : y.halt = false → Settled past m.objects.length y) : ServerOk m' (past ++ [o]) := by
  refine h.quiet ho ht (by simp [hobj]) fun j x hx => ?_
  rcases (liveAt_push hobj).mp hx with ⟨rfl, rfl, hhalt⟩ | hx
  · exact hy hhalt
  · exact h.settled j x hx

theorem preDecrypt_dataV2 (h : isDataV2 d.buf = true) : (d.preDecrypt cfg).1 = .invalid := by
  unfold Datagram.preDecrypt
  cases hbuf : d.buf with
  | nil =>
    rw [hbuf] at h
    cases h
  | cons first rest =>
    rw [hbuf] at h
    have hop : opcodeOf first = P_DATA_V2 := by
      simp only [isDataV2, Bool.and_eq_true, decide_eq_true_eq] at h
      exact h.1
    rcases tlsPreDecryptLite_verdict cfg.readControlAuth TlsPreDecryptState.clear first rest with
      hv | ⟨hmem, _⟩
    · exact hv
    · rw [hop] at hmem
      exact absurd hmem (by decide)

variable {m₁ m₂ : MultiContext cfg}

theorem existingInstance_absent (ht : Tables m) (h : existingInstance m d real = some (m₁, none))
    (hchk : doPreDecryptCheck m₁ d = some (m₂, true)) : m₁.hash.find real = none := by
  rcases existingInstance_cases h with ⟨hv2, _, _⟩ | ⟨rfl, hfnd⟩
  · have hinvalid : (d.preDecrypt cfg).1 = .invalid := preDecrypt_dataV2 hv2
    rcases doPreDecryptCheck_true hchk with hv | ⟨hv | hv | hv, _⟩ <;>
      · rw [hinvalid] at hv
        cases hv
  · show (hashLookup m.hash real).1.find real = none
    rw [(hashLookup_spec ht.hash.1 real).2.2]
    exact map_eq_none_iff.mp hfnd.symm

theorem existingInstance_sameEndpoint (hok : ServerOk m past) (hdel : d.source.Delivered)
    (hkey : realKey d.sock.proto d.source = some real)
    (h : existingInstance m d real = some (m₁, some (id, false))) (hlive : m₁.Live id mi) :
    mi.source.SameEndpoint d.source := by
  have hset := (hok.looked (existingInstance_looked h)).settled id mi hlive
  rcases existingInstance_cases h with ⟨_, rfl, hslot⟩ | ⟨rfl, hfnd⟩
  · obtain ⟨x, _, hx, hmat⟩ := hslot id false rfl
    cases hlive.1.symm.trans hx
    exact addrPortMatch_delivered hset.delivered hdel hmat
  · obtain ⟨j, hfind, hj⟩ := map_eq_some_iff.mp hfnd.symm
    cases hj
    obtain ⟨x, hx, _, hcmp⟩ := hok.tables.find_eq_some.mp hfind
    cases hx.unique hlive
    exact (realKey_equal hset.keyed hkey ((mrouteOps fun _ => 0).symm hcmp)).2

theorem takeSource_spec (ht : Tables m) (hlive : m.Live id mi) (h : takeSource m id d = some m') :
    Tables m' ∧ m'.objects = m.objects.set id { mi with source := d.source } := by
  unfold takeSource at h
  rw [hlive.1] at h
  cases h
  exact ⟨ht.update (y := { mi with source := d.source }) hlive.1 rfl rfl rfl rfl rfl, rfl⟩

section

variable (hok : ServerOk m past)

include hok

theorem ServerOk.created {m3 : MultiContext cfg} (hdel : d.source.Delivered)
    (hkey : realKey d.sock.proto d.source = some real)
    (hnone : existingInstance m d real = some (m₁, none))
    (hadm : admitInstance m₁ d real = some (m₂, some id))
    (hsrc : takeSource m₂ id d = some m3) : ServerOk m3 (past ++ [.created id]) := by
  have hok1 := hok.looked (existingInstance_looked hnone)
  obtain ⟨ht2, hcases⟩ := admitInstance_spec hok1.tables
    (fun _ => existingInstance_absent hok.tables hnone) hadm
  rcases hcases with ⟨hid, _⟩ | ⟨i, hid, hobj2⟩
  · cases hid
  cases hid
  obtain ⟨ht3, hobj3⟩ := takeSource_spec ht2 (liveAt_last hobj2 rfl) hsrc
  rw [hobj2, set_push] at hobj3
  refine hok1.push (by simp) ht3 hobj3 fun _ => ⟨rfl, rfl, hdel, ?_⟩
  have hnew : ServerOutput.floated m₁.objects.length ∉ past :=
    fun hmem => lt_irrefl _ (hok1.known _ hmem)
  rw [keyProto, if_neg hnew]
  exact hkey

theorem ServerOk.received (hdel : d.source.Delivered)
    (hkey : realKey d.sock.proto d.source = some real)
    (hfnd : existingInstance m d real = some (m₁, some (id, false))) (hlive : m₁.Live id mi)
    (hsrc : takeSource m₁ id d = some m₂) : ServerOk m₂ (past ++ [.received id]) := by
  have hok1 := hok.looked (existingInstance_looked hfnd)
  obtain ⟨ht2, hobj2⟩ := takeSource_spec hok1.tables hlive hsrc
  have hsame := existingInstance_sameEndpoint hok hdel hkey hfnd hlive
  refine hok1.set (by simp) ht2 hlive.1 hobj2 fun _ => ?_
  have hset := hok1.settled id mi hlive
  refine ⟨hset.hashed, hset.iterated, hdel, ?_⟩
  show realKey (keyProto past id mi) d.source = some mi.real
  rw [← realKey_congr hsame]
  exact hset.keyed

theorem ServerOk.floated (hdel : d.source.Delivered) (hlive : m.Live id mi)
    (hfloat : multiProcessFloat m id d = some (m', true)) :
    ServerOk m' (past ++ [.floated id]) := by
  have hset := hok.settled id mi hlive
  rcases multiProcessFloat_spec hok.tables hlive hset.hashed hset.iterated hfloat with
    ⟨hmov, _⟩ | ⟨_, ht2, hlen, real', hkey', hself, hoths⟩
  · cases hmov
  refine ⟨ht2, fun j x hx => ?_, fun j hj => ?_⟩
  · by_cases hj : j = id
    · subst hj
      cases hx.unique hself
      refine ⟨hset.hashed, hset.iterated, hdel, ?_⟩
      rw [keyProto, if_pos (mem_append_right past mem_cons_self)]
      exact hkey'
    · refine (hok.settled j x (hoths j x hj hx)).append fun h => hj ?_
      cases h
      rfl
  · rw [hlen]
    rw [mem_append, mem_singleton] at hj
    rcases hj with hj | hj
    · exact hok.known j hj
    · cases hj
      exact hlive.lt

theorem ServerOk.link (hdel : d.source.Delivered)
    (h : multiProcessIncomingLink m d = some (m', o)) : ServerOk m' (past ++ [o]) := by
  cases linkEffect h with
  | skipped => exact hok.append (by simp)
  | refused hkey hnone hadm =>
    have hok1 := hok.looked (existingInstance_looked hnone)
    obtain ⟨ht2, hcases⟩ := admitInstance_spec hok1.tables
      (fun _ => existingInstance_absent hok.tables hnone) hadm
    rcases hcases with ⟨_, hsame | ⟨y, hhalt, hpush⟩⟩ | ⟨_, hid, _⟩
    · exact (hok1.congr ht2 hsame).append (by simp)
    · exact hok1.push (by simp) ht2 hpush fun hopen => by rw [hhalt] at hopen; cases hopen
    · cases hid
  | created hkey hnone hadm hsrc => exact hok.created hdel hkey hnone hadm hsrc
  | received hkey hfnd hlive hsrc => exact hok.received hdel hkey hfnd hlive hsrc
  | rejected hkey hfnd hlive =>
    exact (hok.looked (existingInstance_looked hfnd)).append (by simp)
  | disallowed hkey hfnd hlive hfloat =>
    have hok1 := hok.looked (existingInstance_looked hfnd)
    have hset := hok1.settled _ _ hlive
    obtain ⟨_, hlooked⟩ | ⟨hmov, _⟩ :=
      multiProcessFloat_spec hok1.tables hlive hset.hashed hset.iterated hfloat
    · exact (hok1.looked hlooked).append (by simp)
    · cases hmov
  | floated hkey hfnd hlive hfloat =>
    exact (hok.looked (existingInstance_looked hfnd)).floated hdel hlive hfloat

end

/-- Datagrams have source addresses as sockets deliver them. -/
def ServerEvent.Delivered : ServerEvent → Prop
  | .datagram d => d.source.Delivered
  | _ => True

/-- **One event** of the server. -/
theorem ServerOk.step {e : ServerEvent} (hok : ServerOk m past) (hdel : e.Delivered)
    (h : serverStep m e = some (m', o)) : ServerOk m' (past ++ [o]) := by
  cases e with
  | datagram d => exact hok.link hdel h
  | close id =>
    simp only [serverStep, bind_eq_bind, bind_eq_some_iff] at h
    obtain ⟨m₁, hclose, h⟩ := h
    cases h
    obtain ⟨mi, hcl⟩ := multiCloseInstance_closed hok.tables hclose
    exact hok.set (by simp) hcl.tables hcl.live.1 hcl.objects
      fun hhalt => by cases hhalt
  | lockCertHashSet id chs =>
    simp only [serverStep, bind_eq_bind, bind_eq_some_iff] at h
    obtain ⟨mi, hmi, h⟩ := h
    split at h
    · cases h
      exact hok.append (by simp)
    · cases h
      have ht := hok.tables.update (y := { mi with lockedCertHashSet := some chs }) hmi
        rfl rfl rfl rfl rfl
      refine hok.set (by simp) ht hmi rfl fun hhalt => ?_
      have hset := hok.settled id mi ⟨hmi, hhalt⟩
      exact ⟨hset.hashed, hset.iterated, hset.delivered, hset.keyed⟩
  | deferShutdown =>
    cases h
    refine .append (hok.congr ⟨?_, ?_, ?_⟩ rfl) (by simp)
    · exact hok.tables.hash
    · exact hok.tables.iter
    · exact hok.tables.slots

theorem serverOk_multiInit {realHashSize : Nat} {limiter : FrequencyLimit}
    {initial : InitialPacketRateLimit}
    (h : multiInit cfg realHashSize limiter initial = some m) : ServerOk m [] := by
  unfold multiInit at h
  simp only [bind_eq_bind, bind_eq_some_iff] at h
  obtain ⟨hash, hhash, iter, hiter, h⟩ := h
  cases h
  have hnone : ∀ id mi, ¬ LiveAt [] id mi := by
    intro id mi hlive
    cases hlive.1
  have hemp : ∀ did v k, False ↔ Keyed did [] v k := by
    intro did v k
    refine ⟨False.elim, ?_⟩
    rintro ⟨mi, hlive, _⟩
    exact hnone v mi hlive
  refine ⟨⟨?_, ?_, ?_⟩, fun id mi hlive => absurd hlive (hnone id mi), by simp⟩
  · exact (Hash.indexes_hashInit hhash).congr (hemp _)
  · exact (Hash.indexes_hashInit hiter).congr (hemp _)
  · intro p id hslot
    change (replicate cfg.maxClients none)[p]? = some (some id) at hslot
    rw [getElem?_replicate] at hslot
    split at hslot <;> cases hslot

theorem serverOk_run {realHashSize : Nat} {limiter : FrequencyLimit}
    {initial : InitialPacketRateLimit} {m0 : MultiContext cfg} {es : List ServerEvent}
    {os : List ServerOutput} (hinit : multiInit cfg realHashSize limiter initial = some m0)
    (hdel : ∀ e ∈ es, e.Delivered) (hrun : run serverStep m0 es = some (m, os)) : ServerOk m os :=
  run_history (fun _ _ _ _ _ hok hdel h => hok.step hdel h) (serverOk_multiInit hinit) hdel hrun

/-! ## Lookups after a float -/

/-- The instance the collision check of `multi_process_float` finds. -/
def MultiContext.taken (m : MultiContext cfg) (d : Datagram) : Option Nat :=
  (realKey .none d.source).bind m.hash.find

theorem ServerOk.find_iff {p : ProtoNum} (hok : ServerOk m past) (hlive : m.Live id mi)
    (hsame : d.source.SameEndpoint mi.source) (hkey : realKey p d.source = some real) :
    m.hash.find real = some id ↔ p = keyProto past id mi := by
  have hset := hok.settled id mi hlive
  rw [hok.tables.find_eq_some]
  constructor
  · rintro ⟨x, hx, _, hcmp⟩
    cases hx.unique hlive
    exact (realKey_equal hkey hset.keyed hcmp).1
  · intro hp
    have hreal : real = mi.real := by
      rw [realKey_congr hsame, hp, hset.keyed] at hkey
      exact (some.inj hkey).symm
    rw [hreal]
    exact ⟨mi, hlive, hset.hashed, (mrouteOps fun _ => 0).refl _⟩

theorem multiGetCreateInstanceUdp_found_iff (hlive : m.Live id mi) (hbuf : d.buf ≠ [])
    (hdata : isDataV2 d.buf = false) (hkey : realKey d.sock.proto d.source = some real) :
    (∃ m', multiGetCreateInstanceUdp m d = some (m', .found id false)) ↔
      m.hash.find real = some id := by
  constructor
  · rintro ⟨m', h⟩
    rcases multiGetCreateInstanceUdp_cases h with ⟨hinst, _⟩ | ⟨real', hkey', ⟨_, hinst, _⟩ |
      ⟨_, _, hinst, _⟩ | ⟨_, _, _, hinst, hexist, _⟩⟩
    · cases hinst
    · cases hinst
    · cases hinst
    · cases hinst
      cases hkey.symm.trans hkey'
      rcases existingInstance_cases hexist with ⟨hv2, _⟩ | ⟨_, hfnd⟩
      · rw [hdata] at hv2
        cases hv2
      · obtain ⟨j, hfind, hj⟩ := map_eq_some_iff.mp hfnd.symm
        cases hj
        exact hfind
  · intro hfind
    refine ⟨{ m with hash := (hashLookup m.hash real).1 }, ?_⟩
    have hexist : existingInstance m d real =
        some ({ m with hash := (hashLookup m.hash real).1 }, some (id, false)) := by
      unfold existingInstance
      rw [hdata]
      show some ({ m with hash := (hashLookup m.hash real).1 }, (m.hash.find real).map _) = _
      rw [hfind]
      rfl
    unfold multiGetCreateInstanceUdp
    simp only [hkey, hbuf, if_false, hexist, bind_eq_bind, bind_some, hlive.1,
      hlive.2, Bool.false_eq_true]
    rfl

/-- **Lookups before and after a float.** In every state of every run of the
server, take a live instance and a datagram without peer id from its present
address on its socket. The datagram finds the instance exactly if the socket has
no protocol or the instance has not floated; the collision check of a float to
that address finds it exactly if the socket has no protocol or the instance has
floated. -/
theorem found_until_floated {realHashSize : Nat} {limiter : FrequencyLimit}
    {initial : InitialPacketRateLimit} {m₀ : MultiContext cfg} {es : List ServerEvent}
    {os : List ServerOutput} (hinit : multiInit cfg realHashSize limiter initial = some m₀)
    (hdel : ∀ e ∈ es, e.Delivered) (hrun : run serverStep m₀ es = some (m, os))
    (hlive : m.Live id mi) (hsame : d.source.SameEndpoint mi.source) (hsock : d.sock = mi.sock)
    (hbuf : d.buf ≠ []) (hdata : isDataV2 d.buf = false) :
    ((∃ m', multiGetCreateInstanceUdp m d = some (m', .found id false)) ↔
      mi.sock.proto = .none ∨ .floated id ∉ os) ∧
    (m.taken d = some id ↔ mi.sock.proto = .none ∨ .floated id ∈ os) := by
  have hok := serverOk_run hinit hdel hrun
  have hset := hok.settled id mi hlive
  have hkeys : ∀ p, ∃ k, realKey p d.source = some k := by
    intro p
    rw [realKey_congr hsame]
    exact realKey_isSome p hset.keyed
  obtain ⟨real, hreal⟩ := hkeys d.sock.proto
  obtain ⟨real', hreal'⟩ := hkeys .none
  constructor
  · rw [multiGetCreateInstanceUdp_found_iff hlive hbuf hdata hreal,
      hok.find_iff hlive hsame hreal, hsock, keyProto]
    by_cases hfl : ServerOutput.floated id ∈ os
    · simp [hfl]
    · simp [hfl]
  · rw [MultiContext.taken, hreal', bind_some, hok.find_iff hlive hsame hreal', keyProto]
    by_cases hfl : ServerOutput.floated id ∈ os
    · simp [hfl]
    · simp [hfl, eq_comm]

/-- A `P_DATA_V2` packet with a peer id below 256. -/
def dataPacket (peerId : UInt8) : Bytes := [72, 0, 0, peerId, 1, 2, 3, 4]

/-- A `P_CONTROL_SOFT_RESET_V1` packet, which only an existing instance takes. -/
def softResetPacket : Bytes := [24] ++ replicate SID_SIZE 7

/-- A client connects from one address and goes on from another. -/
def floatSchedule : List ServerEvent :=
  [.datagram (sampleDatagram 1 (controlPacket 20)), .datagram (sampleDatagram 2 (dataPacket 0))]

theorem found_until_floated_moved : ∃ m os, run serverStep sampleServer floatSchedule = some (m, os) ∧
    (¬ ∃ m', multiGetCreateInstanceUdp m (sampleDatagram 2 softResetPacket) =
      some (m', .found 0 false)) ∧ m.taken (sampleDatagram 2 softResetPacket) = some 0 := by
  have hend : (run serverStep sampleServer floatSchedule).map (fun r =>
      (r.2, r.1.objects[0]?.map fun mi => (mi.halt, mi.source, mi.sock))) =
        some ([.created 0, .floated 0], some (false, sampleSource 2, ⟨.udp⟩)) := by decide +kernel
  obtain ⟨⟨m, os⟩, hrun, hr⟩ := map_eq_some_iff.mp hend
  obtain ⟨hos, hobj⟩ := mk.inj hr
  obtain ⟨mi, hmi, hfields⟩ := map_eq_some_iff.mp hobj
  obtain ⟨hhalt, hrest⟩ := mk.inj hfields
  obtain ⟨hsource, hsock⟩ := mk.inj hrest
  have hdel : ∀ e ∈ floatSchedule, e.Delivered := by
    intro e he
    simp only [floatSchedule, mem_cons, not_mem_nil, or_false] at he
    rcases he with rfl | rfl
    · show (sampleSource 1).Delivered
      decide
    · show (sampleSource 2).Delivered
      decide
  have hboth := found_until_floated (d := sampleDatagram 2 softResetPacket)
    (some_get _).symm hdel hrun ⟨hmi, hhalt⟩
    (by rw [hsource]; exact ⟨rfl, rfl, rfl⟩) (by rw [hsock]; rfl) (by decide) (by decide)
  change os = _ at hos
  rw [hos, hsock] at hboth
  refine ⟨m, os, hrun, fun hfound => ?_, hboth.2.mpr (.inr (by decide))⟩
  rcases hboth.1.mp hfound with hnone | hnot
  · cases hnone
  · exact hnot (by decide)

/-- Two clients with different certificates connect. The first one floats to the
address of the second, which is not noticed, and its control packets from there
go to the second one. The second one floats to a free address, and its control
packets from there find no instance. -/
theorem float_loses_client :
    (run serverStep sampleServer
      [.datagram (sampleDatagram 1 (controlPacket 20)),
        .datagram (sampleDatagram 2 (controlPacket 20)),
        .lockCertHashSet 0 [some [1]], .lockCertHashSet 1 [some [2]],
        .datagram (sampleDatagram 2 (dataPacket 0)), .datagram (sampleDatagram 2 softResetPacket),
        .datagram (sampleDatagram 3 (dataPacket 1)),
        .datagram (sampleDatagram 3 softResetPacket)]).map snd =
      some [.created 0, .created 1, .ignored, .ignored, .floated 0, .received 1, .floated 1,
        .ignored] := by
  decide +kernel

end OpenVpn
