import OpenVpn.Server.Multi

/-!
# What a datagram can do to the server

The outcomes of `multiProcessIncomingLink`, one constructor of `LinkEffect` for
each; results about the running server go by cases on them and never unfold the
function again.

* `linkEffect` — every successful call is one of the outcomes.
* `doPreDecryptCheck_true` — the packets that may create an instance.
* `existingInstance_cases` — where an existing instance was found.
-/

namespace OpenVpn

open Base Option

variable {cfg : MultiConfig}

def LiveAt (objects : List MultiInstance) (id : Nat) (mi : MultiInstance) : Prop :=
  objects[id]? = some mi ∧ mi.halt = false

abbrev MultiContext.Live (m : MultiContext cfg) : Nat → MultiInstance → Prop := LiveAt m.objects

inductive LinkEffect (m : MultiContext cfg) (d : Datagram) :
    MultiContext cfg → ServerOutput → Prop
  /-- The datagram has no address or no contents. -/
  | skipped : LinkEffect m d m .ignored
  /-- There is no instance and none is created. -/
  | refused {real : MrouteAddr} {m₁ m₂ : MultiContext cfg}
      (hkey : realKey d.sock.proto d.source = some real)
      (hnone : existingInstance m d real = some (m₁, none))
      (hadmitted : admitInstance m₁ d real = some (m₂, none)) : LinkEffect m d m₂ .ignored
  | created {real : MrouteAddr} {m₁ m₂ m₃ : MultiContext cfg} {id : Nat}
      (hkey : realKey d.sock.proto d.source = some real)
      (hnone : existingInstance m d real = some (m₁, none))
      (hadmitted : admitInstance m₁ d real = some (m₂, some id))
      (hsource : takeSource m₂ id d = some m₃) : LinkEffect m d m₃ (.created id)
  | received {real : MrouteAddr} {m₁ m₂ : MultiContext cfg} {id : Nat} {mi : MultiInstance}
      (hkey : realKey d.sock.proto d.source = some real)
      (hfound : existingInstance m d real = some (m₁, some (id, false))) (hlive : m₁.Live id mi)
      (hsource : takeSource m₁ id d = some m₂) : LinkEffect m d m₂ (.received id)
  /-- The packet comes from a new address and is not accepted. -/
  | rejected {real : MrouteAddr} {m₁ : MultiContext cfg} {id : Nat} {mi : MultiInstance}
      (hkey : realKey d.sock.proto d.source = some real)
      (hfound : existingInstance m d real = some (m₁, some (id, true)))
      (hlive : m₁.Live id mi) : LinkEffect m d m₁ (.notFloated id)
  | disallowed {real : MrouteAddr} {m₁ m₂ : MultiContext cfg} {id : Nat} {mi : MultiInstance}
      (hkey : realKey d.sock.proto d.source = some real)
      (hfound : existingInstance m d real = some (m₁, some (id, true))) (hlive : m₁.Live id mi)
      (hfloat : multiProcessFloat m₁ id d = some (m₂, false)) : LinkEffect m d m₂ (.notFloated id)
  | floated {real : MrouteAddr} {m₁ m₂ : MultiContext cfg} {id : Nat} {mi : MultiInstance}
      (hkey : realKey d.sock.proto d.source = some real)
      (hfound : existingInstance m d real = some (m₁, some (id, true))) (hlive : m₁.Live id mi)
      (hfloat : multiProcessFloat m₁ id d = some (m₂, true)) : LinkEffect m d m₂ (.floated id)

section

variable {m m' : MultiContext cfg} {d : Datagram}

/-- How the instance of a datagram is found or created. -/
theorem multiGetCreateInstanceUdp_cases {inst : UdpInstance}
    (h : multiGetCreateInstanceUdp m d = some (m', inst)) :
    (inst = .none ∧ m' = m) ∨
    ∃ real, realKey d.sock.proto d.source = some real ∧
      ((∃ m1, inst = .none ∧ existingInstance m d real = some (m1, none) ∧
          admitInstance m1 d real = some (m', none)) ∨
        (∃ m1 id, inst = .created id ∧ existingInstance m d real = some (m1, none) ∧
          admitInstance m1 d real = some (m', some id)) ∨
        ∃ id floated mi, inst = .found id floated ∧
          existingInstance m d real = some (m', some (id, floated)) ∧ m'.Live id mi) := by
  unfold multiGetCreateInstanceUdp at h
  split at h
  · cases h
    exact .inl ⟨rfl, rfl⟩
  · next real hreal =>
      split at h
      · cases h
        exact .inl ⟨rfl, rfl⟩
      · simp only [bind_eq_bind, bind_eq_some_iff, Prod.exists] at h
        obtain ⟨m1, existing, hexist, h⟩ := h
        refine .inr ⟨real, hreal, ?_⟩
        cases existing with
        | some found =>
          simp only [bind_eq_some_iff] at h
          obtain ⟨mi, hmi, h⟩ := h
          split at h
          · cases h
          · next hhalt =>
              cases h
              exact .inr (.inr ⟨_, _, mi, rfl, hexist, hmi, by simpa using hhalt⟩)
        | none =>
          simp only [bind_eq_some_iff, Prod.exists] at h
          obtain ⟨m2, created, hadm, h⟩ := h
          cases created with
          | none =>
            cases h
            exact .inl ⟨m1, rfl, hexist, hadm⟩
          | some id =>
            cases h
            exact .inr (.inl ⟨m1, id, rfl, hexist, hadm⟩)

/-- **One datagram**, in terms of its effect. -/
theorem linkEffect {o : ServerOutput} (h : multiProcessIncomingLink m d = some (m', o)) :
    LinkEffect m d m' o := by
  unfold multiProcessIncomingLink at h
  simp only [bind_eq_bind, bind_eq_some_iff, Prod.exists] at h
  obtain ⟨m1, inst, hinst, h⟩ := h
  rcases multiGetCreateInstanceUdp_cases hinst with
    ⟨rfl, rfl⟩ | ⟨real, hkey, ⟨_, rfl, hnone, hadm⟩ | ⟨_, id, rfl, hnone, hadm⟩ |
      ⟨id, floated, mi, rfl, hfnd, hlive⟩⟩
  · cases h
    exact .skipped
  · cases h
    exact .refused hkey hnone hadm
  · simp only [bind_eq_some_iff] at h
    obtain ⟨m3, hsrc, h⟩ := h
    cases h
    exact .created hkey hnone hadm hsrc
  · cases floated with
    | false =>
      simp only [bind_eq_some_iff] at h
      obtain ⟨m3, hsrc, h⟩ := h
      cases h
      exact .received hkey hfnd hlive hsrc
    | true =>
      simp only at h
      split at h
      · simp only [bind_eq_some_iff, Prod.exists] at h
        obtain ⟨m3, moved, hfloat, h⟩ := h
        cases moved with
        | false => cases h; exact .disallowed hkey hfnd hlive hfloat
        | true => cases h; exact .floated hkey hfnd hlive hfloat
      · cases h
        exact .rejected hkey hfnd hlive

/-- Where an existing instance was found: in the slot of the peer id the packet
carries, or, if it carries none, in the table of real addresses. -/
theorem existingInstance_cases {real : MrouteAddr} {found : Option (Nat × Bool)}
    (h : existingInstance m d real = some (m', found)) :
    (isDataV2 d.buf = true ∧ m' = m ∧ ∀ id floated, found = some (id, floated) →
      ∃ mi, m.instances[peerIdOf d.buf]? = some (some id) ∧ m.objects[id]? = some mi ∧
        addrPortMatch mi.source d.source = some (!floated)) ∨
    (m' = { m with hash := (hashLookup m.hash real).1 } ∧
      found = (m.hash.find real).map (·, false)) := by
  unfold existingInstance at h
  dsimp only at h
  split at h
  · next hv2 =>
      rw [Bool.and_eq_true] at hv2
      left
      split at h
      · split at h
        · next id hslot =>
            simp only [bind_eq_bind, bind_eq_some_iff] at h
            obtain ⟨mi, hmi, same, hsame, h⟩ := h
            cases h
            refine ⟨hv2.1, rfl, fun id' floated hid => ?_⟩
            cases hid
            exact ⟨mi, hslot, hmi, by rw [Bool.not_not]; exact hsame⟩
        · cases h
          exact ⟨hv2.1, rfl, by simp⟩
      · cases h
        exact ⟨hv2.1, rfl, by simp⟩
  · cases h
    exact .inr ⟨rfl, rfl⟩

/-- The state `tls_pre_decrypt_lite` makes of a packet. -/
def Datagram.preDecrypt (cfg : MultiConfig) (d : Datagram) :
    FirstPacketVerdict × TlsPreDecryptState :=
  tlsPreDecryptLite cfg.readControlAuth TlsPreDecryptState.clear d.buf

theorem checkCookie_true {state : TlsPreDecryptState}
    (h : checkCookie m state d = some (m', true)) :
    ∃ state', checkSessionIdHmac cfg.hmac cfg.handshakeWindow d.now state (some d.source) =
      some (true, state') := by
  unfold checkCookie at h
  simp only [bind_eq_bind, bind_eq_some_iff, Prod.exists] at h
  obtain ⟨ret, state', hchk, h⟩ := h
  cases h
  exact ⟨state', hchk⟩

/-- A packet that may create an instance is a reset packet of a client with a
wrapped key, or has passed the check of its session id. -/
theorem doPreDecryptCheck_true (h : doPreDecryptCheck m d = some (m', true)) :
    (d.preDecrypt cfg).1 = .validResetV3 ∨
      (((d.preDecrypt cfg).1 = .validControlV1 ∨ (d.preDecrypt cfg).1 = .validAckV1 ∨
          (d.preDecrypt cfg).1 = .validWkcV1) ∧
        ∃ state', checkSessionIdHmac cfg.hmac cfg.handshakeWindow d.now (d.preDecrypt cfg).2
          (some d.source) = some (true, state')) := by
  unfold Datagram.preDecrypt
  unfold doPreDecryptCheck at h
  split at h
  · next hv => exact .inl (by rw [hv])
  · split at h
    · cases h
    · simp only [bind_eq_bind, bind_eq_some_iff] at h
      obtain ⟨_, _, h⟩ := h
      cases h
  · next hv =>
      rw [hv]
      exact .inr ⟨.inl rfl, checkCookie_true h⟩
  · next hv =>
      rw [hv]
      exact .inr ⟨.inr (.inl rfl), checkCookie_true h⟩
  · next hv =>
      rw [hv]
      exact .inr ⟨.inr (.inr rfl), checkCookie_true h⟩
  · cases h

end

end OpenVpn
