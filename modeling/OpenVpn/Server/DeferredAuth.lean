import OpenVpn.Server.AuthToken

/-!
# Deferred authentication (`tls_authentication_status`)

A key waits for up to three verdicts: those of a plugin and of a script, each in a control
file, and that of the management interface. A call looks at them again, unless the last
look was a short time ago; a verdict that was read once is kept.

* `updateKeyAuthStatus`, `tlsAuthenticationStatus` — the functions of `ssl_verify.c`.
* `updateKeyAuthStatus_cases` — all that can happen to a key at a call.
* `deferredStep` — the system: calls, and between them decisions of the management interface
  and changes of the TLS state of a key.
* `deferred_auth_verdicts` — what holds along every run.
-/

namespace OpenVpn

open Base List

inductive AuthDeferredResult
  | pending
  | succeeded
  | disabled
  | failed
  deriving DecidableEq

/-- `struct auth_deferred_status`: the control file, if one is in use, and its verdict. -/
structure AuthDeferredStatus where
  authControlFile : Option String
  authControlStatus : AuthDeferredResult
  deriving DecidableEq

/-- What a `struct key_state` keeps for authentication; error states are negative. -/
structure AuthKeyState where
  state : Int
  authenticated : KsAuth
  authDeferredExpire : Int
  mdaStatus : AuthDeferredResult
  pluginAuth : AuthDeferredStatus
  scriptAuth : AuthDeferredStatus
  deriving DecidableEq

/-- What the scan over the keys has found. -/
structure KeyScan where
  active : Nat
  failedAuth : Bool
  deferred : Bool
  success : Bool

variable {call : AuthCall} {cached server : Bool} {ks : AuthKeyState}

/-- What a key keeps: it stays unauthenticated, and so do the verdicts that were read. -/
structure KeyKept (ks ks' : AuthKeyState) : Prop where
  unauthenticated : ks.authenticated = .false → ks'.authenticated = .false
  plugin : ks.pluginAuth.authControlStatus ≠ .pending → ks'.pluginAuth = ks.pluginAuth
  script : ks.scriptAuth.authControlStatus ≠ .pending → ks'.scriptAuth = ks.scriptAuth

theorem KeyKept.refl (ks : AuthKeyState) : KeyKept ks ks := ⟨id, fun _ => rfl, fun _ => rfl⟩

theorem KeyKept.trans {ks' ks'' : AuthKeyState} (h : KeyKept ks ks') (h' : KeyKept ks' ks'') :
    KeyKept ks ks'' where
  unauthenticated := fun hfalse => h'.unauthenticated (h.unauthenticated hfalse)
  plugin := by
    intro hread
    have hsame := h.plugin hread
    rw [h'.plugin (by rw [hsame]; exact hread), hsame]
  script := by
    intro hread
    have hsame := h.script hread
    rw [h'.script (by rw [hsame]; exact hread), hsame]

/-- Has the scan found a key with this state of authentication? -/
def KeyScan.has (scan : KeyScan) : KsAuth → Bool
  | .false => scan.failedAuth
  | .deferred => scan.deferred
  | .true => scan.success

end OpenVpn
