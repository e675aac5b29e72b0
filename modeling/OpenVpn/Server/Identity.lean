import Mathlib.Data.Fintype.Basic
import Mathlib.Data.Fintype.Pi
import Mathlib.Logic.Function.Basic
import OpenVpn.Server.TokenProvenance

/-!
# The locked identity of a tunnel (`ssl_verify.c`)

After a client has connected, its common name, the hashes of its certificates and its
username are locked: a later TLS handshake on the same tunnel, be it a renegotiation
in the active session or a new session, must show the same identity.

The hashes a handshake presents are added to those the session has seen before
(`cert_hash_remember`), and it is this sum that `verify_final_auth_checks` compares.

* `certHashRemember`, `certHashCompare`, `tlsLockUsername`, `tlsDeauthenticate`,
  `verifyFinalAuthChecks` — the locks.
* `handshake` — certificates, login and final checks of one handshake; `identityStep`
  is an event in the life of a tunnel.
* `presentedSet`, `Covers` — what the handshake itself showed.
* `identity_kept_iff` — when an accepted handshake has shown the locked identity.
* `SameLogin` — the session with its tokens (`AuthSession`), whose functions agree with these.
-/

namespace OpenVpn.Identity

open Base Option List Function

def MAX_CERT_DEPTH : Nat := 16

abbrev CertHashSet : Type := Fin MAX_CERT_DEPTH → Option (BitVec 256)

/-- `struct tls_session`, with the state of authentication of its two keys. -/
structure TlsSession where
  commonName : Option Bytes
  certHashSet : Option CertHashSet
  verified : Bool
  primary : KsAuth
  lameDuck : KsAuth
  deriving DecidableEq

/-- A session after `tls_session_init`. -/
def TlsSession.init : TlsSession := ⟨none, none, false, .false, .false⟩

inductive SessionIndex
  | active
  | initial
  | lameDuck
  deriving DecidableEq

structure TlsMulti where
  session : SessionIndex → TlsSession
  lockedCn : Option Bytes
  lockedCertHashSet : Option CertHashSet
  lockedUsername : Option Bytes
  lockedOriginalUsername : Option Bytes

def TlsMulti.init : TlsMulti := ⟨fun _ => .init, none, none, none, none⟩

def TlsMulti.setSession (multi : TlsMulti) (i : SessionIndex) (s : TlsSession) : TlsMulti :=
  { multi with session := update multi.session i s }

def TlsMulti.setPrimary (multi : TlsMulti) (i : SessionIndex) (a : KsAuth) : TlsMulti :=
  multi.setSession i { multi.session i with primary := a }

def TlsMulti.setCommonName (multi : TlsMulti) (i : SessionIndex) (cn : Bytes) : TlsMulti :=
  multi.setSession i { multi.session i with commonName := some cn }

/-! ## The locks -/

def certHashRemember (set : Option CertHashSet) (depth : Nat) (hash : BitVec 256) :
    Option CertHashSet :=
  if h : depth < MAX_CERT_DEPTH then
    some (update (set.getD fun _ => none) ⟨depth, h⟩ (some hash))
  else set

/-- One round of `cert_hash_compare`. -/
def certHashEq : Option (BitVec 256) → Option (BitVec 256) → Bool
  | none, none => true
  | some h₁, some h₂ => h₁ == h₂
  | _, _ => false

def certHashCompare : Option CertHashSet → Option CertHashSet → Bool
  | some s₁, some s₂ => (finRange MAX_CERT_DEPTH).all fun i => certHashEq (s₁ i) (s₂ i)
  | none, none => true
  | _, _ => false

def tlsDeauthenticate (multi : TlsMulti) : TlsMulti :=
  { multi with
    session := fun i => { multi.session i with primary := .false, lameDuck := .false } }

def tlsLockCommonName (multi : TlsMulti) : TlsMulti :=
  { multi with lockedCn := multi.lockedCn.or (multi.session .active).commonName }

def tlsLockCertHashSet (multi : TlsMulti) : TlsMulti :=
  { multi with
    lockedCertHashSet := multi.lockedCertHashSet.or (multi.session .active).certHashSet }

def tlsLockUsername (multi : TlsMulti) (username : Bytes) : Bool × TlsMulti :=
  match multi.lockedUsername with
  | some locked =>
    if username ≠ locked ∧ multi.lockedOriginalUsername ≠ some username then
      (false, tlsDeauthenticate multi)
    else (true, multi)
  | none => (true, { multi with lockedUsername := some username })

/-- The options that matter here. `ccdExclusive` says which common names have a file in
the directory of `--client-config-dir`, if `--ccd-exclusive` is set. -/
structure IdentityOptions where
  userPassEnabled : Bool
  userPassOptional : Bool
  usernameAsCommonName : Bool
  ccdExclusive : Option (Bytes → Bool)

def CCD_DEFAULT : Bytes := [68, 69, 70, 65, 85, 76, 84]

variable (opt : IdentityOptions)

/-- The test of the common name in `verify_final_auth_checks`. -/
def checkCommonName (multi : TlsMulti) (i : SessionIndex) : TlsMulti :=
  match multi.lockedCn with
  | some cn =>
    if (multi.session i).primary ≠ .false ∧ (multi.session i).commonName ≠ some cn then
      tlsDeauthenticate (multi.setCommonName i cn)
    else multi
  | none => multi

def checkCertHashes (multi : TlsMulti) (i : SessionIndex) : TlsMulti :=
  if (multi.session i).primary ≠ .false ∧ multi.lockedCertHashSet.isSome ∧
      (multi.session i).certHashSet.isSome ∧
      certHashCompare (multi.session i).certHashSet multi.lockedCertHashSet = false then
    tlsDeauthenticate multi
  else multi

def checkCcdExclusive (multi : TlsMulti) (i : SessionIndex) : TlsMulti :=
  match opt.ccdExclusive with
  | some hasFile =>
    let cn := (multi.session i).commonName.getD []
    if (multi.session i).primary ≠ .false ∧ (cn = CCD_DEFAULT ∨ hasFile cn = false) then
      multi.setPrimary i .false
    else multi
  | none => multi

def verifyFinalAuthChecks (multi : TlsMulti) (i : SessionIndex) : TlsMulti :=
  -- the common name is not left undefined
  let multi := multi.setCommonName i ((multi.session i).commonName.getD [])
  checkCcdExclusive opt (checkCertHashes (checkCommonName multi i) i) i

/-! ## A handshake -/

/-- A call of the verify callback: the certificate, the common name if it is set, the
value of `verified` if that is set, and whether the handshake may go on. -/
structure CertCall where
  depth : Nat
  hash : BitVec 256
  commonName : Option Bytes
  verified : Option Bool
  accepted : Bool
  deriving DecidableEq

def certCall (s : TlsSession) (c : CertCall) : TlsSession :=
  { s with
    certHashSet := certHashRemember s.certHashSet c.depth c.hash
    commonName := c.commonName.or s.commonName
    verified := c.verified.getD s.verified }

/-- What the token part of `verify_user_pass` makes of a password. -/
inductive TokenUse
  /-- there is no token -/
  | password
  /-- the token is wrong -/
  | refused
  /-- the token stands for the password -/
  | accepted
  /-- the external methods decide; a token may be good for the empty name only -/
  | external (emptyUser : Bool)
  deriving DecidableEq

/-- The login of a handshake: the name, and what the methods say of it. `management` is
the answer of the management interface if it decides. -/
structure Login where
  username : Bytes
  token : TokenUse
  methods : AuthResult
  management : Option Bool
  deriving DecidableEq

/-- The name `verify_user_pass` works with. -/
def loginName (multi : TlsMulti) (login : Login) : Bytes :=
  if login.token = .external true then []
  else
    let username := stringModRemapName login.username
    if multi.lockedOriginalUsername = some username then multi.lockedUsername.getD username
    else username

/-- The answer of plugins and scripts; nobody is asked if a token was accepted. -/
def Login.answer (login : Login) : AuthResult :=
  if login.token = .accepted then .success else login.methods

/-- The management interface has said no. -/
def Login.managementError (login : Login) : Bool :=
  decide (login.token ≠ .accepted ∧ login.management = some false)

/-- The state of a key whose login has succeeded. -/
def Login.authenticated (login : Login) : KsAuth :=
  if login.answer = .deferred ∨ (login.token ≠ .accepted ∧ login.management.isSome) then .deferred
  else .true

/-- The name is one that is looked up at all. -/
def nameTaken (username : Bytes) : Bool :=
  (opt.userPassOptional || decide (username ≠ [])) &&
    !(opt.usernameAsCommonName && decide (64 < username.length))

/-- `verify_user_pass`, as far as it decides about the key. -/
def verifyUserPass (multi : TlsMulti) (i : SessionIndex) (login : Login) : TlsMulti :=
  if login.token = .refused then multi.setPrimary i .false
  else if nameTaken opt (loginName multi login) = false ∨ login.answer = .error then
    multi.setPrimary i .false
  else
    match tlsLockUsername multi (loginName multi login) with
    | (false, multi) => multi.setPrimary i .false
    | (true, locked) =>
      if login.managementError then locked.setPrimary i .false
      else if opt.usernameAsCommonName then
        (locked.setPrimary i login.authenticated).setCommonName i (loginName multi login)
      else locked.setPrimary i login.authenticated

/-- The part of `key_method_2_read` that authenticates the key. -/
def authenticateKey (multi : TlsMulti) (i : SessionIndex) (login : Login) : TlsMulti :=
  if opt.userPassEnabled then verifyUserPass opt multi i login
  else if (multi.session i).verified then multi.setPrimary i .true
  else multi

/-- `key_method_2_read`, up to the final checks. -/
def keyMethod2Read (multi : TlsMulti) (i : SessionIndex) (login : Login) : TlsMulti :=
  let multi := authenticateKey opt (multi.setPrimary i .false) i login
  if (multi.session i).primary ≠ .false then verifyFinalAuthChecks opt multi i else multi

/-- A handshake on a new key: the certificates of the peer, from the last one on, and its
login. A certificate that is not accepted ends it. -/
def handshake (multi : TlsMulti) (i : SessionIndex) (certs : List CertCall) (login : Login) :
    TlsMulti :=
  let multi := (multi.setSession i (certs.foldl certCall (multi.session i))).setPrimary i .false
  if certs.all (fun c => c.accepted && decide (c.depth < MAX_CERT_DEPTH)) then
    keyMethod2Read opt multi i login
  else multi

/-! ## The life of a tunnel -/

def overrideLockedUsername (multi : TlsMulti) (overrideUsername : Bytes) : TlsMulti :=
  match multi.lockedUsername with
  | none => multi
  | some locked =>
    if multi.lockedOriginalUsername = none ∧ locked ≠ overrideUsername ∧
        ¬(opt.usernameAsCommonName ∧ 64 < overrideUsername.length) then
      let multi := { multi with
        lockedOriginalUsername := some locked, lockedUsername := some overrideUsername }
      if opt.usernameAsCommonName then
        tlsLockCommonName { multi.setCommonName .active overrideUsername with lockedCn := none }
      else multi
    else multi

inductive KeyIndex
  | primary
  | lameDuck
  deriving DecidableEq

/-- A key that waits for its authentication gets it, or a key loses it. -/
def decideKey (succeeded : Bool) (a : KsAuth) : KsAuth :=
  if succeeded then if a = .deferred then .true else a else .false

inductive IdentityEvent
  | handshake (i : SessionIndex) (certs : List CertCall) (login : Login)
  /-- `key_state_soft_reset` -/
  | softReset (i : SessionIndex)
  /-- `move_session`, with a new session in the old place -/
  | moveSession (dest src : SessionIndex)
  /-- `reset_session`, and the end of a lame duck session -/
  | resetSession (i : SessionIndex)
  /-- the locks of `multi_client_connect_early_setup` -/
  | lock
  | override (username : Bytes)
  /-- a deferred authentication has ended, or a key is taken back -/
  | decide (i : SessionIndex) (k : KeyIndex) (succeeded : Bool)
  /-- `tls_deauthenticate` from outside of a handshake -/
  | deauthenticate

def identityEvent (multi : TlsMulti) : IdentityEvent → TlsMulti
  | .handshake i certs login => handshake opt multi i certs login
  | .softReset i => multi.setSession i
      { multi.session i with lameDuck := (multi.session i).primary, primary := .false }
  | .moveSession dest src => (multi.setSession dest (multi.session src)).setSession src .init
  | .resetSession i => multi.setSession i .init
  | .lock => tlsLockCertHashSet (tlsLockCommonName multi)
  | .override username => overrideLockedUsername opt multi username
  | .decide i .primary succeeded =>
    multi.setPrimary i (decideKey succeeded (multi.session i).primary)
  | .decide i .lameDuck succeeded => multi.setSession i
      { multi.session i with lameDuck := decideKey succeeded (multi.session i).lameDuck }
  | .deauthenticate => tlsDeauthenticate multi

def identityStep (multi : TlsMulti) (e : IdentityEvent) : Option (TlsMulti × Unit) :=
  some (identityEvent opt multi e, ())

/-! ## What a handshake has presented -/

/-- The hashes of a session, none if there is no set. -/
def hashes (set : Option CertHashSet) : CertHashSet := set.getD fun _ => none

/-- The hashes of the certificates of one handshake. -/
def presentedSet (certs : List CertCall) : CertHashSet :=
  hashes (certs.foldl (fun set c => certHashRemember set c.depth c.hash) none)

/-- The handshake presents a certificate, and one at every depth at which the session
has seen one before. -/
def Covers (before : CertHashSet) (presented : CertHashSet) : Prop :=
  (∃ d, presented d ≠ none) ∧ ∀ d, before d ≠ none → presented d ≠ none

/-- The hashes a session remembers after a handshake. -/
abbrev rememberAll (certs : List CertCall) (set : Option CertHashSet) : Option CertHashSet :=
  certs.foldl (fun set c => certHashRemember set c.depth c.hash) set

section Hashes

variable {opt}

theorem hashes_remember (set : Option CertHashSet) (depth : Nat) (hash : BitVec 256)
    (d : Fin MAX_CERT_DEPTH) :
    hashes (certHashRemember set depth hash) d =
      (hashes (certHashRemember none depth hash) d).or (hashes set d) := by
  unfold certHashRemember
  split
  case isTrue h =>
    by_cases hd : d = ⟨depth, h⟩
    · subst hd
      simp [hashes]
    · simp [hashes, update_of_ne hd]
  case isFalse => simp [hashes]

theorem hashes_foldl (certs : List CertCall) (set : Option CertHashSet) (d : Fin MAX_CERT_DEPTH) :
    hashes (rememberAll certs set) d = (presentedSet certs d).or (hashes set d) := by
  induction certs generalizing set with
  | nil => simp [presentedSet, hashes]
  | cons c certs ih =>
    have hnone := ih (certHashRemember none c.depth c.hash)
    rw [rememberAll, List.foldl_cons, ih, hashes_remember, ← Option.or_assoc, ← hnone]
    rfl

theorem foldl_certCall (certs : List CertCall) (s : TlsSession) :
    (certs.foldl certCall s).certHashSet = rememberAll certs s.certHashSet := by
  induction certs generalizing s with
  | nil => rfl
  | cons c certs ih =>
    rw [foldl_cons, ih]
    rfl

theorem certHashEq_iff (h1 h2 : Option (BitVec 256)) : certHashEq h1 h2 = true ↔ h1 = h2 := by
  cases h1 with
  | none => cases h2 with
    | none => exact iff_of_true rfl rfl
    | some _ => exact iff_of_false nofun nofun
  | some a => cases h2 with
    | none => exact iff_of_false nofun nofun
    | some b =>
      show (a == b) = true ↔ _
      rw [beq_iff_eq, some.injEq]

theorem certHashCompare_some {s1 s2 : CertHashSet} :
    certHashCompare (some s1) (some s2) = true ↔ s1 = s2 := by
  rw [funext_iff]
  show ((finRange MAX_CERT_DEPTH).all fun i => certHashEq (s1 i) (s2 i)) = true ↔ _
  rw [List.all_eq_true]
  constructor
  · intro h i
    exact (certHashEq_iff _ _).mp (h i (mem_finRange i))
  · intro h i _
    exact (certHashEq_iff _ _).mpr (h i)

/-- **Presented and remembered.** Where the session agrees with the locked set, the
handshake itself does so exactly if it covers the session. -/
theorem presentedSet_eq_iff {before : Option CertHashSet} {certs : List CertCall}
    {locked : CertHashSet} (hlock : ∃ d, locked d ≠ none)
    (hsame : rememberAll certs before = none ∨ rememberAll certs before = some locked) :
    presentedSet certs = locked ↔ Covers (hashes before) (presentedSet certs) := by
  have hsum := hashes_foldl certs before
  rcases hsame with hnone | hsome
  · -- nothing was remembered, so nothing was presented
    have hemp : ∀ d, presentedSet certs d = none := by
      intro d
      have h := hsum d
      rw [hnone] at h
      exact (or_eq_none_iff.mp h.symm).1
    constructor
    · intro heq
      obtain ⟨d, hd⟩ := hlock
      exact absurd (heq ▸ hemp d) hd
    · intro hcov
      obtain ⟨d, hd⟩ := hcov.1
      exact absurd (hemp d) hd
  · rw [hsome] at hsum
    have hsum' : ∀ d, locked d = (presentedSet certs d).or (hashes before d) := hsum
    constructor
    · intro heq
      refine ⟨heq ▸ hlock, ?_⟩
      intro d hd hpresented
      have h := hsum' d
      rw [← heq, hpresented, none_or] at h
      exact hd h.symm
    · intro hcov
      funext d
      rw [hsum' d]
      cases hpresented : presentedSet certs d with
      | some hash => rfl
      | none =>
        by_cases hd : hashes before d = none
        · rw [hd]
          rfl
        · exact absurd hpresented (hcov.2 d hd)

end Hashes

/-! ## What the checks leave -/

section Checks

variable {opt} {multi : TlsMulti} {i : SessionIndex}

@[simp] theorem setSession_same (s : TlsSession) : (multi.setSession i s).session i = s := by
  simp [TlsMulti.setSession]

@[simp] theorem setPrimary_same (a : KsAuth) :
    (multi.setPrimary i a).session i = { multi.session i with primary := a } := by
  simp [TlsMulti.setPrimary]

@[simp] theorem setCommonName_same (cn : Bytes) :
    (multi.setCommonName i cn).session i = { multi.session i with commonName := some cn } := by
  simp [TlsMulti.setCommonName]

theorem tlsDeauthenticate_primary : ((tlsDeauthenticate multi).session i).primary = .false := rfl

theorem checkCommonName_passed (h : ((checkCommonName multi i).session i).primary ≠ .false) :
    checkCommonName multi i = multi ∧
      ∀ cn, multi.lockedCn = some cn → (multi.session i).commonName = some cn := by
  unfold checkCommonName at h ⊢
  split at h
  case h_1 cn hcn =>
    split at h
    case isTrue => exact absurd tlsDeauthenticate_primary h
    case isFalse hpass =>
      simp only [hcn]
      rw [if_neg hpass]
      refine ⟨rfl, ?_⟩
      intro cn' heq
      cases heq
      by_contra hne
      exact hpass ⟨h, hne⟩
  case h_2 hcn =>
    simp only [hcn]
    exact ⟨trivial, by simp⟩

theorem checkCertHashes_passed (h : ((checkCertHashes multi i).session i).primary ≠ .false) :
    checkCertHashes multi i = multi ∧
      ∀ locked, multi.lockedCertHashSet = some locked →
        (multi.session i).certHashSet = none ∨ (multi.session i).certHashSet = some locked := by
  unfold checkCertHashes at h ⊢
  split at h
  case isTrue => exact absurd tlsDeauthenticate_primary h
  case isFalse hpass =>
    rw [if_neg hpass]
    refine ⟨rfl, ?_⟩
    intro locked hlock
    cases hset : (multi.session i).certHashSet with
    | none => exact .inl rfl
    | some set =>
      have hcompare : certHashCompare (some set) (some locked) = true := by
        rw [← Bool.not_eq_false]
        intro hno
        exact hpass ⟨h, by rw [hlock]; rfl, by rw [hset]; rfl, by rw [hset, hlock]; exact hno⟩
      exact .inr (congrArg some (certHashCompare_some.mp hcompare))

theorem checkCcdExclusive_passed
    (h : ((checkCcdExclusive opt multi i).session i).primary ≠ .false) :
    checkCcdExclusive opt multi i = multi := by
  unfold checkCcdExclusive at h ⊢
  split at h
  case h_1 hasFile hopt =>
    dsimp only at h
    split at h
    case isTrue => exact absurd (by simp) h
    case isFalse hpass => exact if_neg hpass
  case h_2 => rfl

/-- **The final checks.** A key that passes them shows the locked common name, and its
session has no hashes or the locked ones. -/
theorem verifyFinalAuthChecks_passed
    (h : ((verifyFinalAuthChecks opt multi i).session i).primary ≠ .false) :
    (∀ cn, multi.lockedCn = some cn →
      ((verifyFinalAuthChecks opt multi i).session i).commonName = some cn) ∧
    ∀ locked, multi.lockedCertHashSet = some locked →
      (multi.session i).certHashSet = none ∨ (multi.session i).certHashSet = some locked := by
  unfold verifyFinalAuthChecks at h ⊢
  dsimp only at h ⊢
  have hccd := checkCcdExclusive_passed h
  rw [hccd] at h ⊢
  obtain ⟨hhash, hlock⟩ := checkCertHashes_passed h
  rw [hhash] at h ⊢
  obtain ⟨hname, hcn⟩ := checkCommonName_passed h
  rw [hname] at hlock ⊢
  refine ⟨hcn, ?_⟩
  intro locked heq
  simpa using hlock locked heq

theorem tlsLockUsername_passed {username : Bytes} {m : TlsMulti}
    (h : tlsLockUsername multi username = (true, m)) :
    (∀ user, multi.lockedUsername = some user →
      username = user ∨ multi.lockedOriginalUsername = some username) ∧
    m.lockedCn = multi.lockedCn := by
  unfold tlsLockUsername at h
  split at h
  case h_1 locked hlock =>
    split at h
    case isTrue => cases h
    case isFalse hname =>
      cases h
      refine ⟨?_, rfl⟩
      intro user heq
      cases hlock.symm.trans heq
      by_contra hno
      rw [not_or] at hno
      exact hname hno
  case h_2 hnone =>
    cases h
    exact ⟨by simp [hnone], rfl⟩

theorem verifyUserPass_passed {login : Login}
    (h : ((verifyUserPass opt multi i login).session i).primary ≠ .false) :
    (∀ user, multi.lockedUsername = some user → loginName multi login = user ∨
      multi.lockedOriginalUsername = some (loginName multi login)) ∧
    (verifyUserPass opt multi i login).lockedCn = multi.lockedCn := by
  unfold verifyUserPass at h ⊢
  split at h
  case isTrue => exact absurd (by simp) h
  case isFalse htok =>
  rw [if_neg htok]
  split at h
  case isTrue => exact absurd (by simp) h
  case isFalse hmethods =>
  rw [if_neg hmethods]
  rcases hlock : tlsLockUsername multi (loginName multi login) with ⟨locked, m⟩
  rw [hlock] at h
  cases locked with
  | false => exact absurd (by simp) h
  | true =>
    obtain ⟨hname, hcn⟩ := tlsLockUsername_passed hlock
    dsimp only at h ⊢
    split at h
    case isTrue => exact absurd (by simp) h
    case isFalse hman =>
      rw [if_neg hman]
      refine ⟨hname, ?_⟩
      split
      all_goals exact hcn

end Checks

/-! ## Invariants of a tunnel -/

section Runs

variable {opt} {multi : TlsMulti} {i : SessionIndex}

/-- The hashes of the sessions and the locked ones are left alone. -/
structure KeepsHashes (m m' : TlsMulti) : Prop where
  sessions : ∀ j, (m'.session j).certHashSet = (m.session j).certHashSet
  locked : m'.lockedCertHashSet = m.lockedCertHashSet

theorem KeepsHashes.refl (m : TlsMulti) : KeepsHashes m m := ⟨fun _ => rfl, rfl⟩

theorem KeepsHashes.trans {m1 m2 m3 : TlsMulti} (h : KeepsHashes m1 m2) (h' : KeepsHashes m2 m3) :
    KeepsHashes m1 m3 :=
  ⟨fun j => (h'.sessions j).trans (h.sessions j), h'.locked.trans h.locked⟩

variable (multi i)

theorem keepsHashes_setSession {s : TlsSession}
    (h : s.certHashSet = (multi.session i).certHashSet) :
    KeepsHashes multi (multi.setSession i s) := by
  refine ⟨?_, rfl⟩
  intro j
  by_cases hj : j = i
  · subst hj
    simpa using h
  · simp [TlsMulti.setSession, update_of_ne hj]

theorem keepsHashes_setPrimary (a : KsAuth) : KeepsHashes multi (multi.setPrimary i a) :=
  keepsHashes_setSession multi i rfl

theorem keepsHashes_setCommonName (cn : Bytes) : KeepsHashes multi (multi.setCommonName i cn) :=
  keepsHashes_setSession multi i rfl

theorem keepsHashes_deauthenticate : KeepsHashes multi (tlsDeauthenticate multi) :=
  ⟨fun _ => rfl, rfl⟩

theorem keepsHashes_lockUsername (username : Bytes) :
    KeepsHashes multi (tlsLockUsername multi username).2 := by
  unfold tlsLockUsername
  split
  · split
    · exact keepsHashes_deauthenticate multi
    · exact .refl multi
  · exact ⟨fun _ => rfl, rfl⟩

theorem keepsHashes_commonName : KeepsHashes multi (checkCommonName multi i) := by
  unfold checkCommonName
  split
  · split
    · exact (keepsHashes_setCommonName multi i _).trans (keepsHashes_deauthenticate _)
    · exact .refl multi
  · exact .refl multi

theorem keepsHashes_certHashes : KeepsHashes multi (checkCertHashes multi i) := by
  unfold checkCertHashes
  split
  · exact keepsHashes_deauthenticate multi
  · exact .refl multi

theorem keepsHashes_ccdExclusive : KeepsHashes multi (checkCcdExclusive opt multi i) := by
  unfold checkCcdExclusive
  split
  · dsimp only
    split
    · exact keepsHashes_setPrimary multi i _
    · exact .refl multi
  · exact .refl multi

theorem keepsHashes_finalChecks : KeepsHashes multi (verifyFinalAuthChecks opt multi i) :=
  (keepsHashes_setCommonName multi i _).trans
    ((keepsHashes_commonName _ i).trans
      ((keepsHashes_certHashes _ i).trans (keepsHashes_ccdExclusive _ i)))

theorem keepsHashes_userPass (opt : IdentityOptions) (login : Login) :
    KeepsHashes multi (verifyUserPass opt multi i login) := by
  unfold verifyUserPass
  split
  · exact keepsHashes_setPrimary multi i _
  split
  · exact keepsHashes_setPrimary multi i _
  have hlock := keepsHashes_lockUsername multi (loginName multi login)
  rcases hpair : tlsLockUsername multi (loginName multi login) with ⟨locked, m⟩
  rw [hpair] at hlock
  cases locked with
  | false => exact hlock.trans (keepsHashes_setPrimary m i _)
  | true =>
    dsimp only
    split
    · exact hlock.trans (keepsHashes_setPrimary m i _)
    split
    · exact hlock.trans ((keepsHashes_setPrimary m i _).trans (keepsHashes_setCommonName _ i _))
    · exact hlock.trans (keepsHashes_setPrimary m i _)

theorem keepsHashes_authenticateKey (login : Login) :
    KeepsHashes multi (authenticateKey opt multi i login) := by
  unfold authenticateKey
  split
  · exact keepsHashes_userPass multi i opt login
  split
  · exact keepsHashes_setPrimary multi i _
  · exact .refl multi

theorem keepsHashes_keyMethod2Read (login : Login) :
    KeepsHashes multi (keyMethod2Read opt multi i login) := by
  have hkey : KeepsHashes multi (authenticateKey opt (multi.setPrimary i .false) i login) :=
    (keepsHashes_setPrimary multi i .false).trans (keepsHashes_authenticateKey _ i login)
  unfold keyMethod2Read
  dsimp only
  split
  · exact hkey.trans (keepsHashes_finalChecks _ i)
  · exact hkey

variable {multi i}

/-- A set of hashes holds one. -/
def Inhabited (set : Option CertHashSet) : Prop := ∀ hs, set = some hs → ∃ d, hs d ≠ none

theorem inhabited_init : Inhabited TlsSession.init.certHashSet := by
  simp [TlsSession.init, Inhabited]

theorem inhabited_remember {set : Option CertHashSet} (h : Inhabited set) {depth : Nat}
    (hash : BitVec 256) : Inhabited (certHashRemember set depth hash) := by
  intro hs heq
  unfold certHashRemember at heq
  split at heq
  case isTrue hdepth =>
    cases heq
    exact ⟨⟨depth, hdepth⟩, by simp⟩
  case isFalse => exact h hs heq

theorem inhabited_foldl (certs : List CertCall) {s : TlsSession} (h : Inhabited s.certHashSet) :
    Inhabited (certs.foldl certCall s).certHashSet := by
  induction certs generalizing s with
  | nil => exact h
  | cons c certs ih => exact ih (inhabited_remember h c.hash)

variable (opt) in
/-- **What every tunnel keeps.** A set of hashes is not empty, and a username is locked
only where clients log in. -/
structure TunnelOk (m : TlsMulti) : Prop where
  sessions : ∀ j, Inhabited (m.session j).certHashSet
  locked : Inhabited m.lockedCertHashSet
  login : m.lockedUsername ≠ none → opt.userPassEnabled = true

theorem TunnelOk.keeps {m m' : TlsMulti} (h : TunnelOk opt m) (hkeeps : KeepsHashes m m')
    (hlogin : m'.lockedUsername ≠ none → opt.userPassEnabled = true) : TunnelOk opt m' :=
  ⟨fun j => hkeeps.sessions j ▸ h.sessions j, hkeeps.locked ▸ h.locked, hlogin⟩

theorem TunnelOk.setSession (h : TunnelOk opt multi) {s : TlsSession}
    (hs : Inhabited s.certHashSet) : TunnelOk opt (multi.setSession i s) := by
  refine ⟨?_, h.locked, h.login⟩
  intro j
  by_cases hj : j = i
  · subst hj
    simpa using hs
  · simpa [TlsMulti.setSession, update_of_ne hj] using h.sessions j

theorem finalChecks_username (multi : TlsMulti) (i : SessionIndex) :
    (verifyFinalAuthChecks opt multi i).lockedUsername = multi.lockedUsername := by
  have hname : ∀ m, (checkCommonName m i).lockedUsername = m.lockedUsername := by
    intro m
    unfold checkCommonName
    repeat' split
    all_goals rfl
  have hhash : ∀ m, (checkCertHashes m i).lockedUsername = m.lockedUsername := by
    intro m
    unfold checkCertHashes
    split
    all_goals rfl
  have hccd : ∀ m, (checkCcdExclusive opt m i).lockedUsername = m.lockedUsername := by
    intro m
    unfold checkCcdExclusive
    dsimp only
    repeat' split
    all_goals rfl
  rw [verifyFinalAuthChecks, hccd, hhash, hname]
  rfl

theorem keyMethod2Read_username (hlogin : opt.userPassEnabled = false) (multi : TlsMulti)
    (i : SessionIndex) (login : Login) :
    (keyMethod2Read opt multi i login).lockedUsername = multi.lockedUsername := by
  have hkey : (authenticateKey opt (multi.setPrimary i .false) i login).lockedUsername =
      multi.lockedUsername := by
    rw [authenticateKey, if_neg (by simp [hlogin])]
    split
    all_goals rfl
  unfold keyMethod2Read
  dsimp only
  split
  · rw [finalChecks_username, hkey]
  · exact hkey

theorem TunnelOk.handshake (h : TunnelOk opt multi) (i : SessionIndex) (certs : List CertCall)
    (login : Login) : TunnelOk opt (handshake opt multi i certs login) := by
  have hcerts : TunnelOk opt
      ((multi.setSession i (certs.foldl certCall (multi.session i))).setPrimary i .false) :=
    (h.setSession (inhabited_foldl certs (h.sessions i))).keeps
      (keepsHashes_setPrimary _ i .false) h.login
  unfold Identity.handshake
  dsimp only
  split
  case isFalse => exact hcerts
  case isTrue =>
    refine hcerts.keeps (keepsHashes_keyMethod2Read _ i login) ?_
    intro hlock
    by_contra hno
    rw [keyMethod2Read_username (Bool.not_eq_true _ ▸ hno)] at hlock
    exact hno (hcerts.login hlock)

/-- **Every event** keeps what a tunnel keeps. -/
theorem identityStep_ok (multi : TlsMulti) (e : IdentityEvent) (h : TunnelOk opt multi) :
    TunnelOk opt (identityEvent opt multi e) := by
  cases e with
  | handshake i certs login => exact h.handshake i certs login
  | softReset i => exact h.setSession (h.sessions i)
  | moveSession dest src => exact (h.setSession (h.sessions src)).setSession inhabited_init
  | resetSession i => exact h.setSession inhabited_init
  | lock =>
    refine ⟨h.sessions, ?_, h.login⟩
    intro hs heq
    rcases or_eq_some_iff.mp heq with hlock | ⟨-, hact⟩
    · exact h.locked hs hlock
    · exact h.sessions .active hs hact
  | override username =>
    rw [identityEvent, overrideLockedUsername]
    split
    case h_1 => exact h
    case h_2 locked hlock =>
      have hen := h.login (by rw [hlock]; exact some_ne_none locked)
      have hnamed := h.keeps (keepsHashes_setCommonName multi .active username) h.login
      split
      case isFalse => exact h
      case isTrue =>
        dsimp only
        split
        · exact ⟨hnamed.sessions, hnamed.locked, fun _ => hen⟩
        · exact ⟨h.sessions, h.locked, fun _ => hen⟩
  | decide i k succeeded =>
    cases k with
    | primary | lameDuck => exact h.setSession (h.sessions i)
  | deauthenticate => exact h.keeps (keepsHashes_deauthenticate multi) h.login

/-! ## The main result -/

/-- A key has passed: its login and common name are the locked ones, and the session has
remembered nothing else. -/
structure Passed (m m' : TlsMulti) (i : SessionIndex) (login : Login) (set : Option CertHashSet) :
    Prop where
  username : ∀ user, m.lockedUsername = some user →
    loginName m login = user ∨ m.lockedOriginalUsername = some (loginName m login)
  commonName : ∀ cn, m.lockedCn = some cn → (m'.session i).commonName = some cn
  certificates : ∀ locked, m.lockedCertHashSet = some locked → set = none ∨ set = some locked

theorem keyMethod2Read_passed {login : Login} (hen : opt.userPassEnabled = true)
    (h : ((keyMethod2Read opt multi i login).session i).primary ≠ .false) :
    Passed multi (keyMethod2Read opt multi i login) i login (multi.session i).certHashSet := by
  have hkey : authenticateKey opt (multi.setPrimary i .false) i login =
      verifyUserPass opt (multi.setPrimary i .false) i login := if_pos hen
  unfold keyMethod2Read at h ⊢
  dsimp only at h ⊢
  rw [hkey] at h ⊢
  split at h
  case isFalse hno => exact absurd h hno
  case isTrue hyes =>
    rw [if_pos hyes]
    have hkeeps := keepsHashes_userPass (multi.setPrimary i .false) i opt login
    obtain ⟨hname, hcn⟩ := verifyUserPass_passed hyes
    obtain ⟨hcn', hset'⟩ := verifyFinalAuthChecks_passed h
    refine ⟨hname, ?_, ?_⟩
    · intro cn heq
      exact hcn' cn (hcn.trans heq)
    · intro locked heq
      have hsame := hset' locked (hkeeps.locked.trans heq)
      rw [hkeeps.sessions] at hsame
      simpa using hsame

/-- What an accepted handshake has to show. -/
structure IdentityShown (m m' : TlsMulti) (i : SessionIndex) (certs : List CertCall)
    (login : Login) (cn user : Bytes) (locked : CertHashSet) : Prop where
  commonName : (m'.session i).commonName = some cn
  certificates : presentedSet certs = locked
  username : loginName m login = user ∨ m.lockedOriginalUsername = some (loginName m login)

theorem handshake_passed {certs : List CertCall} {login : Login}
    (hen : opt.userPassEnabled = true)
    (h : ((handshake opt multi i certs login).session i).primary ≠ .false) :
    Passed multi (handshake opt multi i certs login) i login
      (rememberAll certs (multi.session i).certHashSet) := by
  unfold handshake at h ⊢
  dsimp only at h ⊢
  split at h
  case isFalse => exact absurd (by simp) h
  case isTrue hall =>
    rw [if_pos hall]
    obtain ⟨hname, hcn, hset⟩ := keyMethod2Read_passed hen h
    refine ⟨hname, hcn, ?_⟩
    intro locked heq
    have hsame := hset locked heq
    rwa [setPrimary_same, setSession_same, foldl_certCall] at hsame

end Runs

/-- **The identity of a tunnel.** In every run of a tunnel whose common name, hashes and
username are locked, a handshake that leaves its key authenticated or deferred shows the
locked common name and a locked username; it has presented the locked certificates if and
only if it presented a certificate, and one at every depth the session had one before. -/
theorem identity_kept_iff (opt : IdentityOptions) {events : List IdentityEvent} {m : TlsMulti}
    {outs : List Unit} (hrun : run (identityStep opt) .init events = some (m, outs))
    {cn user : Bytes} {locked : CertHashSet} (hcn : m.lockedCn = some cn)
    (hset : m.lockedCertHashSet = some locked) (huser : m.lockedUsername = some user)
    (i : SessionIndex) (certs : List CertCall) (login : Login) :
    ((((handshake opt m i certs login).session i).primary ≠ .false →
        IdentityShown m (handshake opt m i certs login) i certs login cn user locked) ↔
      (((handshake opt m i certs login).session i).primary = .false ∨
        Covers (hashes (m.session i).certHashSet) (presentedSet certs))) := by
  have hok : TunnelOk opt m := by
    refine run_invariant (I := TunnelOk opt) (G := fun _ _ => True) ?_ ?_ (runGuard_true _ _) hrun
    · intro s e s' o hs _ hstep
      cases hstep
      exact identityStep_ok s e hs
    · exact ⟨fun _ => inhabited_init, by simp [Inhabited, TlsMulti.init], by simp [TlsMulti.init]⟩
  have henabled := hok.login (by rw [huser]; exact some_ne_none user)
  by_cases hkey : ((handshake opt m i certs login).session i).primary = .false
  · exact ⟨fun _ => .inl hkey, fun _ hne => absurd hkey hne⟩
  · obtain ⟨hname, hcn', hset'⟩ := handshake_passed henabled hkey
    have hiff := presentedSet_eq_iff (hok.locked locked hset) (hset' locked hset)
    constructor
    · intro hshown
      exact .inr (hiff.mp (hshown hkey).certificates)
    · intro hcovers _
      exact ⟨hcn' cn hcn, hiff.mpr (hcovers.resolve_left hkey), hname user huser⟩

/-! ## The session with its tokens

The same functions work on the tokens of a session, which `AuthSession` has. What they say of
the names and of the key agrees. -/

section Tokens

/-- The session of the tunnel with the tokens of its client. -/
structure SameLogin (multi : TlsMulti) (i : SessionIndex) (s : AuthSession) : Prop where
  username : multi.lockedUsername = s.lockedUsername
  original : multi.lockedOriginalUsername = s.lockedOriginalUsername
  key : (multi.session i).primary = s.authenticated

variable {opt} {multi : TlsMulti} {i : SessionIndex} {s s' : AuthSession} {hmac : Bytes → Digest}
  {topt : TokenOptions} {now : Nat} {random : TokenSessionId}

theorem SameLogin.deauthenticate (h : SameLogin multi i s) :
    SameLogin (tlsDeauthenticate multi) i (OpenVpn.tlsDeauthenticate s) :=
  ⟨h.username, h.original, rfl⟩

theorem SameLogin.setPrimary (h : SameLogin multi i s) (a : KsAuth) :
    SameLogin (multi.setPrimary i a) i { s with authenticated := a } :=
  ⟨h.username, h.original, by simp⟩

theorem SameLogin.setCommonName (h : SameLogin multi i s) (j : SessionIndex) (cn : Bytes) :
    SameLogin (multi.setCommonName j cn) i s := by
  refine ⟨h.username, h.original, Eq.trans ?_ h.key⟩
  by_cases hj : i = j
  · rw [hj, setCommonName_same]
  · simp [TlsMulti.setCommonName, TlsMulti.setSession, hj]

theorem SameLogin.lockUsername (h : SameLogin multi i s) (name : Bytes) :
    (tlsLockUsername multi name).1 = (OpenVpn.tlsLockUsername s name).1 ∧
      SameLogin (tlsLockUsername multi name).2 i (OpenVpn.tlsLockUsername s name).2 := by
  unfold tlsLockUsername OpenVpn.tlsLockUsername
  rw [h.username, h.original]
  cases s.lockedUsername with
  | none => exact ⟨rfl, rfl, rfl, h.key⟩
  | some locked =>
    dsimp only
    split
    · exact ⟨rfl, h.deauthenticate⟩
    · exact ⟨rfl, h⟩

theorem SameLogin.generate (h : SameLogin multi i s) {name : Bytes}
    (hmade : generateAuthToken hmac s name now random = some s') : SameLogin multi i s' := by
  unfold generateAuthToken at hmade
  dsimp only at hmade
  split at hmade
  · cases hmade
  · cases hmade
    exact ⟨h.username, h.original, h.key⟩

/-- What `verify_auth_token` makes of the password. -/
def tokenUse (hmac : Bytes → Digest) (topt : TokenOptions) (s : AuthSession) (now : Nat)
    (up : UserPass) : TokenUse :=
  if isAuthToken (presented up) then
    if topt.authTokenCallAuth then .external (decide ((tokenCheck hmac topt s now up).2 = []))
    else if (tokenCheck hmac topt s now up).1 = .ok then .accepted else .refused
  else .password

/-- The second half of `verify_user_pass`. -/
theorem SameLogin.finish (h : SameLogin multi i s) {login : Login} {up : UserPass} {skip : Bool}
    {result : AuthResult} (hopt : opt.userPassOptional = topt.userPassOptional)
    (hcn : opt.usernameAsCommonName = topt.usernameAsCommonName)
    (hname : loginName multi login = up.username) (htok : login.token ≠ .refused)
    (hanswer : login.answer = if skip then .success else result) (hman : login.management = none)
    (hdone : finishUserPass hmac topt s up skip result now random = some s') :
    SameLogin (verifyUserPass opt multi i login) i s' := by
  have hauth : login.authenticated = if login.answer = .deferred then .deferred else .true := by
    simp [Login.authenticated, hman]
  have herror : login.managementError = false := by simp [Login.managementError, hman]
  unfold finishUserPass at hdone
  dsimp only at hdone
  rw [← hanswer] at hdone
  split at hdone
  · cases hdone
  · next s1 henv =>
      -- a token that is made for the scripts changes neither names nor key
      have h1 : SameLogin multi i s1 := by
        unfold addSessionTokenEnv at henv
        grind [SameLogin.generate]
      have htk : nameTaken opt up.username =
          ((topt.userPassOptional || decide (up.username ≠ [])) &&
            sslVerifyUsernameLength topt up.username) := by
        rw [nameTaken, sslVerifyUsernameLength, hopt, hcn]
      unfold verifyUserPass
      rw [if_neg htok, hname, htk]
      split at hdone
      case isFalse hbad =>
        cases hdone
        rw [if_pos (by grind)]
        exact h1.setPrimary .false
      case isTrue hgood =>
        rw [if_neg (by grind)]
        obtain ⟨hsame, h2⟩ := h1.lockUsername up.username
        rcases hlock : OpenVpn.tlsLockUsername s1 up.username with ⟨locked, s2⟩
        rcases hlock' : tlsLockUsername multi up.username with ⟨locked', multi2⟩
        rw [hlock, hlock'] at hsame h2
        rw [hlock] at hdone
        cases hsame
        cases locked with
        | false =>
          cases hdone
          exact h2.setPrimary .false
        | true =>
          dsimp only at hdone ⊢
          rw [herror, if_neg Bool.false_ne_true, hauth]
          have h3 := h2.setPrimary (if login.answer = .deferred then .deferred else .true)
          have h4 := (SameLogin.generate (s := { s2 with authenticated := _, authToken := _ })
            ⟨h3.username, h3.original, h3.key⟩ hdone)
          split
          · exact h4.setCommonName i up.username
          · exact h4

variable (hmac topt) in
theorem verifyAuthToken_name (s : AuthSession) (up : UserPass) (now : Nat) :
    (verifyAuthToken hmac topt s up now).2 = up.username ∨
      (verifyAuthToken hmac topt s up now).2 = [] ∧
        (verifyAuthToken hmac topt s up now).1 ≠ .ok := by
  grind [verifyAuthToken, TokenFlags.ok, TokenFlags.zero]

/-- **`verify_user_pass`** with tokens decides about the key as the one without them does on
the verdict on the token. -/
theorem SameLogin.verifyUserPass (h : SameLogin multi i s)
    (hopt : opt.userPassOptional = topt.userPassOptional)
    (hcn : opt.usernameAsCommonName = topt.usernameAsCommonName) {up : UserPass}
    {result : AuthResult}
    (hdone : OpenVpn.verifyUserPass hmac topt s up result now random = some s') :
    SameLogin (Identity.verifyUserPass opt (multi.setPrimary i .false) i
      ⟨up.username, tokenUse hmac topt s now up, result, none⟩) i s' := by
  have h0 := h.setPrimary .false
  have hname : ∀ use, use ≠ .external true → loginName (multi.setPrimary i .false)
      ⟨up.username, use, result, none⟩ = effectiveName s up := by
    intro use huse
    rw [loginName, if_neg huse, h0.username, h0.original]
    rfl
  have htok := verifyAuthToken_name hmac topt s
    ⟨effectiveName s up, presented up⟩ now
  by_cases htext : isAuthToken (presented up) = true
  case neg =>
    rw [verifyUserPass_password htext] at hdone
    rw [tokenUse, if_neg htext]
    refine SameLogin.finish ?_ hopt hcn (hname .password nofun) nofun rfl rfl hdone
    exact ⟨h0.username, h0.original, h0.key⟩
  case pos =>
    rw [verifyUserPass_token htext] at hdone
    rw [tokenUse, if_pos htext]
    have hstored : ∀ flags, SameLogin (multi.setPrimary i .false) i
        (storing s flags (presented up)) := fun _ => ⟨h0.username, h0.original, h0.key⟩
    split at hdone
    case isTrue hext =>
      rw [if_pos hext]
      refine (hstored _).finish hopt hcn ?_ nofun rfl rfl hdone
      by_cases hemp : (tokenCheck hmac topt s now up).2 = []
      · rw [decide_eq_true hemp, hemp]
        rfl
      · rw [hname _ (by simp [hemp])]
        exact (htok.resolve_right fun h => hemp h.1).symm
    case isFalse hext =>
      rw [if_neg hext]
      split at hdone
      case isTrue hfl =>
        rw [if_pos hfl]
        refine (hstored _).finish hopt hcn ?_ nofun rfl rfl hdone
        rw [hname .accepted nofun]
        exact (htok.resolve_right fun h => h.2 hfl).symm
      case isFalse hfl =>
        rw [if_neg hfl]
        cases hdone
        exact ⟨h0.username, h0.original, by simp [Identity.verifyUserPass]⟩

/-- **`override_locked_username`** of a client that is authenticated. -/
theorem SameLogin.override (h : SameLogin multi i s)
    (hcn : opt.usernameAsCommonName = topt.usernameAsCommonName) {name : Bytes}
    (hauth : s.authenticated = .true)
    (hdone : OpenVpn.overrideLockedUsername hmac topt s name now random = some s') :
    SameLogin (overrideLockedUsername opt multi name) i s' := by
  unfold OpenVpn.overrideLockedUsername at hdone
  unfold overrideLockedUsername
  rw [h.username, h.original]
  cases hlock : s.lockedUsername with
  | none =>
    rw [hlock] at hdone
    cases hdone
    exact h
  | some locked =>
    rw [hlock] at hdone
    dsimp only at hdone ⊢
    have hlen : sslVerifyUsernameLength topt name = true ↔
        ¬(opt.usernameAsCommonName = true ∧ 64 < name.length) := by
      rw [hcn, sslVerifyUsernameLength]
      cases topt.usernameAsCommonName <;> simp
    simp only [hlen] at hdone
    split at hdone
    case isFalse hsame =>
      cases hdone
      rw [if_neg fun h => hsame ⟨hauth, h⟩]
      exact h
    case isTrue hoth =>
      rw [if_pos hoth.2]
      have h1 : SameLogin { multi with
          lockedOriginalUsername := some locked, lockedUsername := some name } i s' := by
        split at hdone
        · refine SameLogin.generate ?_ hdone
          exact ⟨rfl, rfl, h.key⟩
        · cases hdone
          exact ⟨rfl, rfl, h.key⟩
      split
      · have h2 := h1.setCommonName .active name
        exact ⟨h2.username, h2.original, h2.key⟩
      · exact h1

end Tokens

/-- Clients log in, and need no certificate. -/
def loginOptions : IdentityOptions := ⟨true, false, false, none⟩

def aliceCert : CertCall := ⟨0, 7#256, some [97], some true, true⟩

def aliceLogin : Login := ⟨[97], .password, .success, none⟩

/-- Alice connects with her certificate, and then renegotiates. -/
def aliceTunnel : List IdentityEvent :=
  [.handshake .active [aliceCert] aliceLogin, .lock, .softReset .active]

/-- The tunnel of alice before her second handshake. -/
def aliceMulti (opt : IdentityOptions) : TlsMulti :=
  aliceTunnel.foldl (identityEvent opt) .init

theorem aliceTunnel_run {opt : IdentityOptions} :
    run (identityStep opt) .init aliceTunnel = some (aliceMulti opt, [(), (), ()]) := rfl

/-- She presents her certificate again. -/
theorem identity_kept_alice :
    ((handshake loginOptions (aliceMulti loginOptions) .active [aliceCert] aliceLogin).session
        .active).primary = .true ∧
      IdentityShown (aliceMulti loginOptions)
        (handshake loginOptions (aliceMulti loginOptions) .active [aliceCert] aliceLogin) .active
        [aliceCert] aliceLogin [97] [97] (presentedSet [aliceCert]) := by
  have hcovers : Covers (hashes ((aliceMulti loginOptions).session .active).certHashSet)
      (presentedSet [aliceCert]) := by
    unfold Covers
    decide
  refine (and_iff_left_of_imp fun hauth => (identity_kept_iff loginOptions (aliceTunnel_run) rfl
    rfl rfl .active [aliceCert] aliceLogin).mpr (.inr hcovers) ?_).mpr (by decide)
  rw [hauth]
  decide

/-- She renegotiates without a certificate, or opens a new session without one where the
username is the common name: the key is authenticated. -/
theorem certificate_not_presented :
    (((handshake loginOptions (aliceMulti loginOptions) .active [] aliceLogin).session
        .active).primary = .true ∧
      ((handshake { loginOptions with usernameAsCommonName := true }
        (aliceMulti { loginOptions with usernameAsCommonName := true }) .initial []
          aliceLogin).session .initial).primary = .true) ∧
      (∀ opt ∈ [loginOptions, { loginOptions with usernameAsCommonName := true }],
        (aliceMulti opt).lockedCertHashSet = some (presentedSet [aliceCert])) ∧
      presentedSet [] ≠ presentedSet [aliceCert] := by
  refine ⟨⟨by decide, by decide⟩, by decide, ?_⟩
  intro heq
  exact absurd (congrFun heq ⟨0, by decide⟩) (by decide)

end OpenVpn.Identity
