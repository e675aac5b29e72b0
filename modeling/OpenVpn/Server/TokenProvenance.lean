import OpenVpn.Server.AuthToken

/-!
# Where the session data of a token comes from

A server renews the token of a session from the token the session began with, its
stored token. `verify_user_pass` makes the password of a client the stored token of a
session that has none, and `generate_auth_token` reads a session id and an initial
time out of it.

* `Sourced` — the session data is fresh at an event of the run, or was part of a password
  that `verify_auth_token` found genuine when it was presented.
* `Tracked` — all that is stored and made is so; kept by every part of a call.
* `TextGuard` — the texts that a session may begin with.
* `token_provenance` — over every session that begins with such a text.
-/

namespace OpenVpn

open Base List

/-! ## Reading a stored token -/

theorem initialFields_sizes {token sessid initial : Bytes}
    (h : initialFields token = some (sessid, initial)) :
    sessid.length = AUTH_TOKEN_SESSION_ID_LEN ∧ initial.length = 8 := by
  unfold initialFields at h
  split at h
  case h_1 tstamp sid _ _ =>
    split at h
    case isTrue hsizes =>
      cases h
      exact ⟨hsizes.2, by rw [length_take, hsizes.1]; rfl⟩
    case isFalse => cases h
  case h_2 => cases h

section Calls

variable (hmac : Bytes → Digest) (opt : TokenOptions)

/-- The name `verify_user_pass` works with. -/
def effectiveName (s : AuthSession) (up : UserPass) : Bytes :=
  let username := stringModRemapName up.username
  if s.lockedOriginalUsername = some username then s.lockedUsername.getD username else username

/-- The password as `verify_user_pass` reads it. -/
def presented (up : UserPass) : Bytes := stringModRemapName up.password

/-- What `verify_auth_token` says about the password, and the name it leaves. -/
def tokenCheck (s : AuthSession) (now : Nat) (up : UserPass) : TokenFlags × Bytes :=
  verifyAuthToken hmac opt s ⟨effectiveName s up, presented up⟩ now

/-- The events at which a session id is drawn. -/
def AuthEvent.random : AuthEvent → Option TokenSessionId
  | .userPass _ _ random => some random
  | .resend random => some random
  | .override _ random => some random
  | _ => none

/-- Where the session id and the initial time of a token come from. -/
inductive Sourced (past : List (Nat × AuthEvent)) : Bytes × Bytes → Prop
  /-- They are a random id and the time of an event. -/
  | fresh {now : Nat} {event : AuthEvent} {random : TokenSessionId} :
      (now, event) ∈ past → event.random = some random →
      Sourced past (random.bytes, beBytes 8 now)
  /-- They are the first fields of a password that was genuine when it was presented. -/
  | verified {pre : List (Nat × AuthEvent)} {s : AuthSession} {outs : List Unit} {now : Nat}
      {up : UserPass} {result : AuthResult} {random : TokenSessionId} {data : Bytes} :
      pre ++ [(now, .userPass up result random)] <+: past →
      run (authStep hmac opt) .init pre = some (s, outs) →
      (tokenCheck hmac opt s now up).1.hmacOk = true →
      openvpnBase64Decode ((presented up).drop 11) USER_PASS_LEN = some data →
      Sourced past (data.take 12, (data.drop 12).take 8)

/-- The fields of the stored token and of every token made since it was stored. -/
structure Tracked (F : Bytes × Bytes → Prop) (s : AuthSession) : Prop where
  stored : ∀ token, s.authTokenInitial = some token →
    ∃ fields, initialFields token = some fields ∧ F fields
  made : ∀ r ∈ s.chain, ∃ fields, initialFields r.token = some fields ∧ F fields

/-- The texts a session may begin with: a password; without `external-auth`, a text whose first
28 characters behind `SESS_ID_AT_` are base64 digits; a token as the server writes it for this
name or for none. -/
def TextGuard (s : AuthSession) (up : UserPass) : Prop :=
  isAuthToken (presented up) = true → s.authTokenInitial = none →
    (opt.authTokenCallAuth = false ∧
      ∀ c ∈ ((presented up).drop 11).take 28, c ∈ base64Chars) ∨
    ∃ name ∈ [effectiveName s up, []], ∃ sessid initial time, initial < 2 ^ 64 ∧ time < 2 ^ 64 ∧
      presented up = tokenFor hmac name sessid initial time

/-! ## The parts of a call -/

variable {hmac opt}

theorem Sourced.mono {past past' : List (Nat × AuthEvent)} {fields : Bytes × Bytes}
    (h : Sourced hmac opt past fields) (hpast : past <+: past') :
    Sourced hmac opt past' fields := by
  cases h with
  | fresh hmem hrandom => exact .fresh (hpast.mem hmem) hrandom
  | verified hpre hrun hok hdata => exact .verified (hpre.trans hpast) hrun hok hdata

variable {F : Bytes × Bytes → Prop} {s : AuthSession} {now : Nat} {random : TokenSessionId}

theorem Tracked.wiped (hstored : s.authTokenInitial = none) (hch : s.chain = []) :
    Tracked F s :=
  ⟨by simp [hstored], by simp [hch]⟩

theorem Tracked.congr {s' : AuthSession} (h : Tracked F s)
    (hstored : s'.authTokenInitial = s.authTokenInitial) (hch : s'.chain = s.chain) :
    Tracked F s' :=
  ⟨hstored ▸ h.stored, hch ▸ h.made⟩

theorem Tracked.imp {F' : Bytes × Bytes → Prop} (h : Tracked F s)
    (hF : ∀ fields, F fields → F' fields) : Tracked F' s where
  stored token htok := by
    obtain ⟨fields, hfs, hf⟩ := h.stored token htok
    exact ⟨fields, hfs, hF fields hf⟩
  made r hr := by
    obtain ⟨fields, hfs, hf⟩ := h.made r hr
    exact ⟨fields, hfs, hF fields hf⟩

theorem initialFields_made {sessid initial : Bytes} (hsid : sessid.length = 12)
    (hinit : initial.length = 8) {now : Nat} {output : Bytes} :
    initialFields (tokenText (sessid ++ initial ++ beBytes 8 now ++ output)) =
      some (sessid, initial) := by
  obtain ⟨x, tail, htail⟩ := exists_cons_of_length_eq_add_one (beBytes_length 8 now)
  rw [htail, append_assoc, cons_append, tokenText, encode_fields hsid hinit]
  exact initialFields_text hsid hinit x _

section

variable (hfr : F (random.bytes, beBytes 8 now))

include hfr

theorem generateAuthToken_made (h : Tracked F s) {name : Bytes} :
    ∃ s' fields token, generateAuthToken hmac s name now random = some s' ∧
      initialFields token = some fields ∧ F fields ∧
      s'.authTokenInitial = some (s.authTokenInitial.getD token) ∧
      s'.chain = s.chain ++ [⟨name, now, token⟩] := by
  cases hstored : s.authTokenInitial with
  | none =>
    simp only [generateAuthToken, hstored]
    exact ⟨_, _, _, rfl, initialFields_made random.size (beBytes_length 8 now), hfr,
      rfl, rfl⟩
  | some stored =>
    obtain ⟨⟨sessid, initial⟩, hfs, hF⟩ := h.stored stored hstored
    obtain ⟨hsid, hinit⟩ := initialFields_sizes hfs
    simp only [generateAuthToken, hstored, hfs]
    exact ⟨_, _, _, rfl, initialFields_made hsid hinit, hF, rfl, rfl⟩

/-- **Making a token** does not abort where the stored token can be read. -/
theorem Tracked.generate (h : Tracked F s) (name : Bytes) :
    ∃ s', generateAuthToken hmac s name now random = some s' ∧ Tracked F s' := by
  obtain ⟨s', fields, token, heq, hfs, hF, hstored', hchain'⟩ :=
    generateAuthToken_made hfr h
  refine ⟨s', heq, ?_, ?_⟩
  · intro t ht
    rw [hstored'] at ht
    cases hstored : s.authTokenInitial with
    | none =>
      rw [hstored] at ht
      cases ht
      exact ⟨fields, hfs, hF⟩
    | some stored =>
      rw [hstored] at ht
      cases ht
      exact h.stored stored hstored
  · intro r hr
    rw [hchain'] at hr
    rcases mem_append.mp hr with hr | hr
    · exact h.made r hr
    · rw [mem_singleton.mp hr]
      exact ⟨fields, hfs, hF⟩

variable (hmac) in
theorem Tracked.invariant : TokenInvariant hmac now random (Tracked F) where
  congr h hstored hch _ := h.congr hstored hch
  wiped _ := .wiped rfl rfl
  generate h := h.generate hfr _

end

/-! ## A whole call -/

variable {up : UserPass}

/-- A session after `verify_auth_token`: the password is stored if nothing was. -/
def storing (s : AuthSession) (flags : TokenFlags) (password : Bytes) : AuthSession :=
  { s with
    authTokenStateFlags := flags
    authenticated := .false
    authTokenInitial := some (s.authTokenInitial.getD password) }

theorem verifyUserPass_password (htext : ¬isAuthToken (presented up) = true) (result : AuthResult) :
    verifyUserPass hmac opt s up result now random =
      finishUserPass hmac opt { s with authTokenStateFlags := .zero, authenticated := .false }
        ⟨effectiveName s up, presented up⟩ false result now random :=
  if_neg htext

theorem verifyUserPass_token (htext : isAuthToken (presented up) = true) (result : AuthResult) :
    verifyUserPass hmac opt s up result now random =
      if opt.authTokenCallAuth then
        finishUserPass hmac opt (storing s (tokenCheck hmac opt s now up).1 (presented up))
          ⟨(tokenCheck hmac opt s now up).2, presented up⟩ false result now random
      else if (tokenCheck hmac opt s now up).1 = .ok then
        finishUserPass hmac opt (storing s (tokenCheck hmac opt s now up).1 (presented up))
          ⟨(tokenCheck hmac opt s now up).2, presented up⟩ true result now random
      else some { wipeAuthToken (storing s (tokenCheck hmac opt s now up).1 (presented up)) with
        authenticated := .false } :=
  if_pos htext

/-- A token that begins with 28 digits is read where it is decoded. -/
theorem initialFields_of_digits {password data : Bytes} (htext : isAuthToken password = true)
    (hdig : ∀ c ∈ (password.drop 11).take 28, c ∈ base64Chars)
    (hdata : openvpnBase64Decode (password.drop 11) USER_PASS_LEN = some data)
    (hlen : data.length = TOKEN_DATA_LEN) :
    initialFields password = some (data.take 12, (data.drop 12).take 8) := by
  have hlong := length_of_openvpnBase64Decode _ _ data hdata
  rw [hlen, TOKEN_DATA_LEN] at hlong
  obtain ⟨bs, hbs, henc⟩ := exists_openvpnBase64Encode (n := 7)
    (by rw [length_take]; omega) hdig
  have hspl : password.drop 11 = openvpnBase64Encode bs ++ (password.drop 11).drop 28 := by
    rw [← henc, take_append_drop]
  rw [hspl] at hdata
  obtain ⟨tail, -, rfl⟩ := Option.map_eq_some_iff.mp
    ((openvpnBase64Decode_encode_append hbs ((password.drop 11).drop 28) 107).symm.trans hdata)
  -- the 21 bytes are a session id, a time and the first byte of the next field
  obtain ⟨sessid, initial, x, rfl, hsid, hinit⟩ : ∃ sessid initial x,
      bs = sessid ++ (initial ++ [x]) ∧ sessid.length = 12 ∧ initial.length = 8 := by
    obtain ⟨x, hx⟩ := length_eq_one_iff.mp (show (bs.drop 20).length = 1 by simp [hbs])
    refine ⟨bs.take 12, (bs.drop 12).take 8, x, ?_, by simp [hbs], by simp [hbs]⟩
    rw [← hx, ← drop_drop (i := 8) (j := 12), take_append_drop, take_append_drop]
  have hpassword : password = SESSION_ID_PREFIX ++ (openvpnBase64Encode sessid ++
      (openvpnBase64Encode (initial ++ [x]) ++ (password.drop 11).drop 28)) := by
    have hcut := (take_append_drop 11 password).symm
    rw [of_decide_eq_true htext, hspl, openvpnBase64Encode_append (n := 4) hsid,
      append_assoc] at hcut
    exact hcut
  rw [hpassword, initialFields_text hsid hinit]
  simp [append_assoc, hsid, hinit, take_left']

/-- **A password that is kept** is genuine, and can be read. -/
theorem kept_of_textGuard (hg : TextGuard hmac opt s up)
    (htext : isAuthToken (presented up) = true) (hnone : s.authTokenInitial = none)
    (hkept : opt.authTokenCallAuth = true ∨ (tokenCheck hmac opt s now up).1 = .ok) :
    (tokenCheck hmac opt s now up).1.hmacOk = true ∧
      ∃ data, openvpnBase64Decode ((presented up).drop 11) USER_PASS_LEN = some data ∧
        initialFields (presented up) = some (data.take 12, (data.drop 12).take 8) := by
  rcases hg htext hnone with ⟨hext, hdig⟩ | ⟨name, hname, sessid, initial, time, hinit,
    htime, hsrv⟩
  · have hok : (tokenCheck hmac opt s now up).1.hmacOk = true := by
      rw [hkept.resolve_left (by simp [hext])]
      rfl
    obtain ⟨data, hdata, hlen⟩ := decode_of_hmacOk hok
    exact ⟨hok, data, hdata, initialFields_of_digits htext hdig hdata hlen⟩
  · have hmade := tokenDataFor_madeFor hmac name sessid hinit htime
    rw [← tokenDataFor_text hmac name sessid hinit htime] at hsrv
    generalize tokenDataFor hmac name sessid initial time hinit htime = d at hsrv hmade
    rw [tokenCheck, hsrv]
    refine ⟨verifyAuthToken_genuine hnone ?_ now, d.bytes, d.decode, ?_⟩
    · simp only [mem_cons, not_mem_nil, or_false] at hname
      rcases hname with rfl | rfl
      · exact .inl ((hmade _).mpr rfl)
      · exact .inr ((hmade _).mpr rfl)
    · rw [d.initialFields]
      simp [TokenData.bytes, TokenData.signed, append_assoc, take_left', d.sessid.size,
        AUTH_TOKEN_SESSION_ID_LEN]

/-- **`verify_user_pass`** does not abort, and keeps track of what it stores and makes. -/
theorem Tracked.verifyUserPass (h : Tracked F s) (hg : TextGuard hmac opt s up)
    (hfr : F (random.bytes, beBytes 8 now))
    (hverified : (tokenCheck hmac opt s now up).1.hmacOk = true → ∀ data,
      openvpnBase64Decode ((presented up).drop 11) USER_PASS_LEN = some data →
      F (data.take 12, (data.drop 12).take 8)) (result : AuthResult) :
    ∃ s', verifyUserPass hmac opt s up result now random = some s' ∧ Tracked F s' := by
  have hfin : ∀ {s}, Tracked F s → ∀ (up : UserPass) skipAuth, ∃ s',
      finishUserPass hmac opt s up skipAuth result now random = some s' ∧ Tracked F s' :=
    fun h up skipAuth => (Tracked.invariant hmac hfr).finishUserPass h up skipAuth result
  by_cases htext : isAuthToken (presented up) = true
  case neg =>
    rw [verifyUserPass_password htext]
    apply hfin
    exact h.congr rfl rfl
  case pos =>
    have hstoring : opt.authTokenCallAuth = true ∨ (tokenCheck hmac opt s now up).1 = .ok →
        Tracked F (storing s (tokenCheck hmac opt s now up).1 (presented up)) := by
      refine fun hkept => ⟨fun token htok => ?_, h.made⟩
      cases hinit : s.authTokenInitial with
      | none =>
        obtain ⟨hok, data, hdata, hfs⟩ := kept_of_textGuard hg htext hinit hkept
        rw [storing, hinit] at htok
        cases htok
        exact ⟨_, hfs, hverified hok data hdata⟩
      | some stored =>
        rw [storing, hinit] at htok
        cases htok
        exact h.stored _ hinit
    rw [verifyUserPass_token htext]
    split
    case isTrue hcall => exact hfin (hstoring (.inl hcall)) _ _
    case isFalse =>
      split
      case isTrue hfl => exact hfin (hstoring (.inr hfl)) _ _
      case isFalse => exact ⟨_, rfl, .wiped rfl rfl⟩

/-! ## Sessions -/

variable (hmac opt) in
/-- The events of a session that begins with one of these texts. -/
def ProvenanceGuard (s : AuthSession) (event : Nat × AuthEvent) : Prop :=
  ∀ up result random, event.2 = .userPass up result random → TextGuard hmac opt s up

/-- **One event** does not abort. What is stored and made after it is fresh, was presented
with it, or had its source before. -/
theorem authStep_tracked {pre : List (Nat × AuthEvent)} {outs : List Unit}
    (hrun : run (authStep hmac opt) .init pre = some (s, outs))
    (h : Tracked (Sourced hmac opt pre) s) {event : Nat × AuthEvent}
    (hg : ProvenanceGuard hmac opt s event) :
    ∃ s' o, authStep hmac opt s event = some (s', o) ∧
      Tracked (Sourced hmac opt (pre ++ [event])) s' := by
  obtain ⟨now, e⟩ := event
  have hnow := h.imp fun _ hf => hf.mono (prefix_append pre [(now, e)])
  have hfr : ∀ random, e.random = some random →
      Sourced hmac opt (pre ++ [(now, e)]) (random.bytes, beBytes 8 now) := fun random hrandom =>
    .fresh (by simp) hrandom
  obtain ⟨s', heq, h'⟩ : ∃ s', authEvent hmac opt s now e = some s' ∧
      Tracked (Sourced hmac opt (pre ++ [(now, e)])) s' := by
    cases e with
    | userPass up result random =>
      exact hnow.verifyUserPass (hg up result random rfl) (hfr random rfl)
        (fun hok data hdata => .verified prefix_rfl hrun hok hdata) result
    | deferredResult succeeded =>
      refine ⟨_, rfl, ?_⟩
      split
      all_goals exact hnow.congr rfl rfl
    | softReset => exact ⟨_, rfl, hnow.congr rfl rfl⟩
    | resend random =>
      simp only [authEvent, checkSendAuthToken]
      split
      case isFalse => exact ⟨s, rfl, hnow⟩
      case isTrue =>
        split
        · exact hnow.generate (hfr random rfl) _
        · exact ⟨s, rfl, hnow⟩
    | override username random =>
      simp only [authEvent, overrideLockedUsername]
      split
      case h_1 => exact ⟨s, rfl, hnow⟩
      case h_2 =>
        split
        case isFalse => exact ⟨s, rfl, hnow⟩
        case isTrue =>
          split
          · apply Tracked.generate (hfr random rfl)
            exact hnow.congr rfl rfl
          · exact ⟨_, rfl, hnow.congr rfl rfl⟩
    | deauthenticate => exact ⟨_, rfl, .wiped rfl rfl⟩
  exact ⟨{ s' with clock := now }, (), by simp [authStep, heq], h'.congr rfl rfl⟩

end Calls

/-- **Provenance of session data.** A session never aborts if, whenever it begins with a text
that looks like a token, `external-auth` is off and the text begins with 28 base64 digits, or
the text is one that the server writes for this name. Then the session id and the initial time
of every token are fresh at an event of the session, or were part of a password that was
presented to it and was genuine. -/
theorem token_provenance (hmac : Bytes → Digest) (opt : TokenOptions)
    {events : List (Nat × AuthEvent)}
    (hguard : RunGuard (authStep hmac opt) (ProvenanceGuard hmac opt) .init events) :
    ∃ s outs, run (authStep hmac opt) .init events = some (s, outs) ∧
      (∀ token, s.authTokenInitial = some token →
        ∃ fields, initialFields token = some fields ∧ Sourced hmac opt events fields) ∧
      ∀ r ∈ s.chain, ∃ fields, initialFields r.token = some fields ∧
        Sourced hmac opt events fields := by
  obtain ⟨s, outs, hrun, -, htracked⟩ := run_trace
    (I := fun pre outs s => run (authStep hmac opt) .init pre = some (s, outs) ∧
      Tracked (Sourced hmac opt pre) s)
    (fun pre e _ outs s _ h hg => by
      obtain ⟨s', o, hstep, h'⟩ := authStep_tracked h.1 h.2 hg
      exact ⟨s', o, hstep, run_append h.1 (run_cons hstep rfl), h'⟩)
    ⟨rfl, .wiped rfl rfl⟩ hguard
  exact ⟨s, outs, hrun, htracked.stored, htracked.made⟩

/-- A session id of equal bytes. -/
def equalBytes (b : UInt8) : TokenSessionId := ⟨replicate 12 b, length_replicate⟩

/-- Alice comes back with the token she got at time 5, and has to log in with it. -/
def returningEvents : List (Nat × AuthEvent) :=
  [(9, .userPass ⟨[97], tokenFor headDigest [97] (equalBytes 7) 5 5⟩ .success (equalBytes 8))]

def externalAuth : TokenOptions := { hourlyOptions with authTokenCallAuth := true }

/-- Her new token has the session data of the old one. -/
theorem token_provenance_returning : ∃ s outs,
    run (authStep headDigest externalAuth) .init returningEvents = some (s, outs) ∧
      s.chain.map (fun r => initialFields r.token) =
        [some (replicate 12 7, beBytes 8 5)] ∧
      ∀ r ∈ s.chain, ∃ fields, initialFields r.token = some fields ∧
        Sourced headDigest externalAuth returningEvents fields := by
  have hguard : RunGuard (authStep headDigest externalAuth)
      (ProvenanceGuard headDigest externalAuth) .init returningEvents := by
    refine ⟨?_, fun _ _ _ => trivial⟩
    intro up result random heq _ _
    cases heq
    refine .inr ⟨[97], ?_, ⟨replicate 12 7, rfl⟩, 5, 5, by decide, by decide, ?_⟩
    all_goals decide +kernel
  obtain ⟨s, outs, hrun, -, hmade⟩ := token_provenance headDigest externalAuth hguard
  have hchain : (run (authStep headDigest externalAuth) .init returningEvents).map
      (fun w => w.1.chain.map (fun r => initialFields r.token)) =
      some [some (replicate 12 7, beBytes 8 5)] := by decide +kernel
  rw [hrun] at hchain
  exact ⟨s, outs, hrun, Option.some.inj hchain, hmade⟩

/-- The fields of a token that was made for alice at time 5. -/
def aliceData : Bytes :=
  replicate 12 7 ++ beBytes 8 5 ++ beBytes 8 5 ++
    (headDigest ([97] ++ replicate 12 7 ++ beBytes 8 5 ++ beBytes 8 5)).bytes

/-- The token with these fields, its first group written as two. -/
def splitToken : Bytes :=
  SESSION_ID_PREFIX ++ openvpnBase64Encode (aliceData.take 1) ++
    openvpnBase64Encode ((aliceData.drop 1).take 2) ++ openvpnBase64Encode (aliceData.drop 3)

/-- **Client text in the stored token.** With `external-auth` a text without a valid
HMAC gives the new token its session id and initial time, and a short text aborts the
server. Without it, the token of alice aborts the server when its first group is
written as two. -/
theorem client_text_reaches_generate :
    (∃ s, verifyUserPass headDigest externalAuth .init
        ⟨[97], SESSION_ID_PREFIX ++ replicate 28 65⟩ .success 9 ⟨replicate 12 7, rfl⟩ =
          some s ∧ s.authTokenStateFlags.hmacOk = false ∧
        s.chain.map (fun r => initialFields r.token) =
          [some (replicate 12 0, replicate 8 0)]) ∧
    verifyUserPass headDigest externalAuth .init ⟨[97], SESSION_ID_PREFIX⟩ .success 9
      ⟨replicate 12 7, rfl⟩ = none ∧
    (tokenCheck headDigest hourlyOptions .init 9 ⟨[97], splitToken⟩).1 = .ok ∧
    verifyUserPass headDigest hourlyOptions .init ⟨[97], splitToken⟩ .success 9
      ⟨replicate 12 7, rfl⟩ = none := by
  refine ⟨⟨_, rfl, ?_, ?_⟩, ?_, ?_, ?_⟩
  all_goals decide +kernel

end OpenVpn
