import OpenVpn.Base.Run
import OpenVpn.Server.Cookie
import OpenVpn.Util.Base64

/-!
# Authentication tokens (`auth_token.c`)

With `--auth-gen-token` a client that has logged in gets a token that it sends
instead of its password from then on. A token is the text `SESS_ID_AT_` and, in
base64, a session id, the time the session began, the time the token was made and
an HMAC over the user's name and these.

* `generateAuthToken`, `verifyAuthToken` — making and checking a token.
* `verifyUserPass`, `checkSendAuthToken`, `overrideLockedUsername` — the places of
  the server that use them; `authStep` is one of them in the life of a session.
* `verifyAuthToken_token` — what the check makes of a token as text.
* `auth_token_validity` — over every session without `external-auth` that begins with a
  password or with the text of a token as the server wrote it.
-/

namespace OpenVpn

open Base List Option

/-! ## Tokens -/

def SESSION_ID_PREFIX : Bytes := [83, 69, 83, 83, 95, 73, 68, 95, 65, 84, 95]

def AUTH_TOKEN_SESSION_ID_LEN : Nat := 12
def USER_PASS_LEN : Nat := 128

/-- `2 * sizeof(int64_t) + AUTH_TOKEN_SESSION_ID_LEN + 32`. -/
def TOKEN_DATA_LEN : Nat := 60

/-- The bits of `auth_token_state_flags`. -/
structure TokenFlags where
  hmacOk : Bool
  expired : Bool
  validEmptyuser : Bool
  deriving DecidableEq

def TokenFlags.zero : TokenFlags := ⟨false, false, false⟩

/-- `AUTH_TOKEN_HMAC_OK` and no other bit. -/
def TokenFlags.ok : TokenFlags := ⟨true, false, false⟩

structure UserPass where
  username : Bytes
  password : Bytes

/-- `ks->authenticated`. -/
inductive KsAuth where
  | false
  | deferred
  | true
  deriving DecidableEq

/-- The options that matter here. Times are options of type `int` that are not
negative, kept in an `unsigned int`. -/
structure TokenOptions where
  authTokenRenewal : Nat
  renewal_lt : authTokenRenewal < 2 ^ 31
  authTokenLifetime : Nat
  lifetime_lt : authTokenLifetime < 2 ^ 31
  authTokenCallAuth : Bool
  userPassOptional : Bool
  usernameAsCommonName : Bool

/-- A token that was made, for whom and when. -/
structure TokenRecord where
  user : Bytes
  time : Nat
  token : Bytes
  deriving DecidableEq

/-- A random session id. -/
structure TokenSessionId where
  bytes : Bytes
  size : bytes.length = AUTH_TOKEN_SESSION_ID_LEN

/-- What `struct tls_multi` has on a session; the flags and the state of
authentication are those of the primary key. The tokens made since the last
`wipe_auth_token` and the time of the last event are kept for the statements. -/
structure AuthSession where
  authToken : Option Bytes
  authTokenInitial : Option Bytes
  lockedUsername : Option Bytes
  lockedOriginalUsername : Option Bytes
  authTokenStateFlags : TokenFlags
  authenticated : KsAuth
  chain : List TokenRecord
  clock : Nat
  deriving DecidableEq

def AuthSession.init : AuthSession := ⟨none, none, none, none, .zero, .false, [], 0⟩

def tokenText (data : Bytes) : Bytes := SESSION_ID_PREFIX ++ openvpnBase64Encode data

section Session

variable (hmac : Bytes → Digest) (opt : TokenOptions)

/-- The session id and the initial time of a session that has a token already; `none`
is a failed assertion. -/
def initialFields (token : Bytes) : Option (Bytes × Bytes) :=
  match openvpnBase64Decode ((token.drop 27).take 12) 9, openvpnBase64Decode
      ((token.drop 11).take 16) AUTH_TOKEN_SESSION_ID_LEN with
  | some tstamp, some sessid =>
    if tstamp.length = 9 ∧ sessid.length = AUTH_TOKEN_SESSION_ID_LEN then
      some (sessid, tstamp.take 8)
    else none
  | _, _ => none

def generateAuthToken (multi : AuthSession) (username : Bytes) (now : Nat)
    (random : TokenSessionId) : Option AuthSession :=
  let timestamp := beBytes 8 now
  let fields := match multi.authTokenInitial with
    | some initial => initialFields initial
    | none => some (random.bytes, timestamp)
  match fields with
  | none => none
  | some (sessid, initialTimestamp) =>
    -- a token that is only good for the empty name is followed by one of that kind
    let name := if multi.authTokenStateFlags.validEmptyuser then [] else username
    let output := (hmac (name ++ sessid ++ initialTimestamp ++ timestamp)).bytes
    let token := tokenText (sessid ++ initialTimestamp ++ timestamp ++ output)
    some { multi with
      authToken := some token
      authTokenInitial := some (multi.authTokenInitial.getD token)
      chain := multi.chain ++ [⟨username, now, token⟩] }

def checkHmacToken (b64decoded username : Bytes) : Bool :=
  decide ((hmac (username ++ b64decoded.take 28)).bytes = b64decoded.drop 28)

/-- `verify_auth_token`: the flags, and the name it leaves in `up`. -/
def verifyAuthToken (multi : AuthSession) (up : UserPass) (now : Nat) : TokenFlags × Bytes :=
  match openvpnBase64Decode (up.password.drop 11) USER_PASS_LEN with
  | none => (.zero, up.username)
  | some b64decoded =>
    if b64decoded.length ≠ TOKEN_DATA_LEN then (.zero, up.username)
    else
      let timestampInitial := beNat ((b64decoded.drop 12).take 8)
      let timestamp := beNat ((b64decoded.drop 20).take 8)
      let byName := checkHmacToken hmac b64decoded up.username
      if !byName && !checkHmacToken hmac b64decoded [] then (.zero, up.username)
      else
        let username := if byName then up.username else []
        let inRenegotiationTime := decide (timestamp ≤ now ∧
          now < (timestamp + 2 * opt.authTokenRenewal % 2 ^ 32) % 2 ^ 64)
        let expired := !inRenegotiationTime || decide (timestamp < timestampInitial) ||
          decide (opt.authTokenLifetime ≠ 0 ∧
            (timestampInitial + opt.authTokenLifetime) % 2 ^ 64 < now)
        match multi.authTokenInitial with
        | some initial =>
          if initial.take 27 = up.password.take 27 then (⟨true, expired, !byName⟩, username)
          else (.zero, username)
        | none => (⟨true, expired, !byName⟩, username)

def wipeAuthToken (multi : AuthSession) : AuthSession :=
  { multi with authToken := none, authTokenInitial := none, chain := [] }

def tlsDeauthenticate (multi : AuthSession) : AuthSession :=
  { wipeAuthToken multi with authenticated := .false }

def isAuthToken (password : Bytes) : Bool := decide (password.take 11 = SESSION_ID_PREFIX)

/-! ## The places that use them -/

/-- `add_session_token_env`: the scripts are told a session id, so there has to be
one. -/
def addSessionTokenEnv (multi : AuthSession) (username : Bytes) (now : Nat)
    (random : TokenSessionId) : Option AuthSession :=
  let flags := multi.authTokenStateFlags
  if flags.hmacOk ∧ ¬flags.expired then some multi
  else if multi.authTokenInitial.isSome then some multi
  else generateAuthToken hmac multi username now random

def tlsLockUsername (multi : AuthSession) (username : Bytes) : Bool × AuthSession :=
  match multi.lockedUsername with
  | some locked =>
    if username ≠ locked ∧ multi.lockedOriginalUsername ≠ some username then
      (false, tlsDeauthenticate multi)
    else (true, multi)
  | none => (true, { multi with lockedUsername := some username })

def sslVerifyUsernameLength (username : Bytes) : Bool :=
  !(opt.usernameAsCommonName && decide (64 < username.length))

/-- The answer of plugins, scripts and the management interface. -/
inductive AuthResult where
  | error
  | deferred
  | success
  deriving DecidableEq

/-- The second half of `verify_user_pass`. With `skipAuth` nobody is asked. -/
def finishUserPass (multi : AuthSession) (up : UserPass) (skipAuth : Bool) (result : AuthResult)
    (now : Nat) (random : TokenSessionId) : Option AuthSession :=
  let envOk := opt.userPassOptional || decide (up.username ≠ [])
  let result := if skipAuth then .success else result
  match (if envOk then addSessionTokenEnv hmac multi up.username now random else some multi) with
  | none => none
  | some multi =>
    if envOk ∧ result ≠ .error ∧ sslVerifyUsernameLength opt up.username then
      match tlsLockUsername multi up.username with
      | (false, multi) => some { multi with authenticated := .false }
      | (true, multi) =>
        let flags := multi.authTokenStateFlags
        let authToken := if multi.authToken.isNone ∧ flags.hmacOk ∧ ¬flags.expired then
          some up.password else multi.authToken
        let authenticated : KsAuth := if result = .deferred then .deferred else .true
        generateAuthToken hmac { multi with authenticated, authToken } up.username now random
    else some { multi with authenticated := .false }

/-- `verify_user_pass`, on a new key. -/
def verifyUserPass (multi : AuthSession) (up : UserPass) (result : AuthResult) (now : Nat)
    (random : TokenSessionId) : Option AuthSession :=
  -- `key_state_init` clears the key
  let multi := { multi with authTokenStateFlags := .zero, authenticated := .false }
  let username := stringModRemapName up.username
  let password := stringModRemapName up.password
  let username := if multi.lockedOriginalUsername = some username then
    multi.lockedUsername.getD username else username
  if isAuthToken password then
    let (flags, username) := verifyAuthToken hmac opt multi ⟨username, password⟩ now
    let multi := { multi with
      authTokenStateFlags := flags
      authTokenInitial := some (multi.authTokenInitial.getD password) }
    if opt.authTokenCallAuth then
      finishUserPass hmac opt multi ⟨username, password⟩ false result now random
    else if flags = .ok then
      finishUserPass hmac opt multi ⟨username, password⟩ true result now random
    else some { wipeAuthToken multi with authenticated := .false }
  else finishUserPass hmac opt multi ⟨username, password⟩ false result now random

def checkSendAuthToken (multi : AuthSession) (now : Nat) (random : TokenSessionId) :
    Option AuthSession :=
  if multi.authenticated = .true ∧ multi.authTokenInitial.isSome then
    match multi.lockedUsername with
    | some username =>
      generateAuthToken hmac multi (username.take (USER_PASS_LEN - 1)) now random
    | none => some multi
  else some multi

/-- `override_locked_username`, which a connect handler asks for once the client is
authenticated. -/
def overrideLockedUsername (multi : AuthSession) (overrideUsername : Bytes) (now : Nat)
    (random : TokenSessionId) : Option AuthSession :=
  match multi.lockedUsername with
  | none => some multi
  | some locked =>
    if multi.authenticated = .true ∧ multi.lockedOriginalUsername = none ∧
        locked ≠ overrideUsername ∧ sslVerifyUsernameLength opt overrideUsername then
      let multi := { multi with
        lockedOriginalUsername := some locked, lockedUsername := some overrideUsername }
      if multi.authTokenInitial.isSome then
        generateAuthToken hmac multi (overrideUsername.take (USER_PASS_LEN - 1)) now random
      else some multi
    else some multi

/-- What happens in a session. -/
inductive AuthEvent where
  /-- the client has sent its name and password on a new key -/
  | userPass (up : UserPass) (result : AuthResult) (random : TokenSessionId)
  /-- a deferred authentication has ended -/
  | deferredResult (succeeded : Bool)
  /-- `key_state_soft_reset` -/
  | softReset
  /-- the timer of `check_send_auth_token` -/
  | resend (random : TokenSessionId)
  | override (username : Bytes) (random : TokenSessionId)
  /-- a final check of `verify_final_auth_checks` has failed -/
  | deauthenticate

def authEvent (multi : AuthSession) (now : Nat) : AuthEvent → Option AuthSession
  | .userPass up result random => verifyUserPass hmac opt multi up result now random
  | .deferredResult succeeded =>
    some (if multi.authenticated = .deferred then
      { multi with authenticated := if succeeded then .true else .false } else multi)
  | .softReset => some { multi with authTokenStateFlags := .zero, authenticated := .false }
  | .resend random => checkSendAuthToken hmac multi now random
  | .override username random => overrideLockedUsername hmac opt multi username now random
  | .deauthenticate => some (tlsDeauthenticate multi)

/-- One event with its time. -/
def authStep (multi : AuthSession) (event : Nat × AuthEvent) : Option (AuthSession × Unit) :=
  (authEvent hmac opt multi event.1 event.2).map fun multi =>
    ({ multi with clock := event.1 }, ())

end Session

/-! ## The text of a token -/

/-- The fields of a token, of the right size. -/
structure TokenData where
  sessid : TokenSessionId
  initial : Nat
  initial_lt : initial < 2 ^ 64
  time : Nat
  time_lt : time < 2 ^ 64
  mac : Digest

/-- What the HMAC covers beside the name. -/
def TokenData.signed (d : TokenData) : Bytes :=
  d.sessid.bytes ++ beBytes 8 d.initial ++ beBytes 8 d.time

def TokenData.bytes (d : TokenData) : Bytes := d.signed ++ d.mac.bytes

theorem TokenData.signed_length (d : TokenData) : d.signed.length = 28 := by
  simp [TokenData.signed, d.sessid.size, AUTH_TOKEN_SESSION_ID_LEN]

theorem TokenData.bytes_length (d : TokenData) : d.bytes.length = 60 := by
  simp [TokenData.bytes, d.signed_length, d.mac.size]

theorem tokenText_drop (data : Bytes) : (tokenText data).drop 11 = openvpnBase64Encode data := by
  rw [tokenText]
  exact drop_left' rfl

theorem encode_fields {sessid initial : Bytes} (hsid : sessid.length = 12)
    (hinit : initial.length = 8) (x : UInt8) (rest : Bytes) :
    openvpnBase64Encode (sessid ++ initial ++ x :: rest) = openvpnBase64Encode sessid ++
      (openvpnBase64Encode (initial ++ [x]) ++ openvpnBase64Encode rest) := by
  have hspl : sessid ++ initial ++ x :: rest = sessid ++ ((initial ++ [x]) ++ rest) := by simp
  rw [hspl, openvpnBase64Encode_append (n := 4) hsid,
    openvpnBase64Encode_append (n := 3) (by simp [hinit])]

/-- The fields are read from the first groups, whatever follows them. -/
theorem initialFields_text {sessid initial : Bytes} (hsid : sessid.length = 12)
    (hinit : initial.length = 8) (x : UInt8) (rest : Bytes) :
    initialFields (SESSION_ID_PREFIX ++ (openvpnBase64Encode sessid ++
      (openvpnBase64Encode (initial ++ [x]) ++ rest))) = some (sessid, initial) := by
  have hlen : (openvpnBase64Encode sessid).length = 16 :=
    openvpnBase64Encode_length (n := 4) hsid
  have htail : (initial ++ [x]).length = 3 * 3 := by simp [hinit]
  have htime : (SESSION_ID_PREFIX ++ (openvpnBase64Encode sessid ++
      (openvpnBase64Encode (initial ++ [x]) ++ rest))).drop 27 =
        openvpnBase64Encode (initial ++ [x]) ++ rest := by
    rw [← append_assoc]
    exact drop_left' (by simp [SESSION_ID_PREFIX, hlen])
  have hpre : SESSION_ID_PREFIX.length = 11 := rfl
  have hdec : openvpnBase64Decode (openvpnBase64Encode sessid) AUTH_TOKEN_SESSION_ID_LEN =
      some sessid := openvpnBase64Decode_encode hsid.le
  rw [initialFields, htime, take_left' (openvpnBase64Encode_length htail), drop_left' hpre,
    take_left' hlen, openvpnBase64Decode_encode htail.le, hdec]
  simp [hsid, hinit, AUTH_TOKEN_SESSION_ID_LEN]

section

variable (d : TokenData)

include d

theorem TokenData.bytes_eq : ∃ x rest,
    d.bytes = d.sessid.bytes ++ beBytes 8 d.initial ++ x :: rest := by
  obtain ⟨x, tail, htail⟩ := exists_cons_of_length_eq_add_one (beBytes_length 8 d.time)
  refine ⟨x, tail ++ d.mac.bytes, ?_⟩
  simp only [TokenData.bytes, TokenData.signed, htail, append_assoc, cons_append]

theorem TokenData.encode_sessid_length :
    (openvpnBase64Encode d.sessid.bytes).length = 16 :=
  openvpnBase64Encode_length (n := 4) d.sessid.size

theorem TokenData.decode :
    openvpnBase64Decode ((tokenText d.bytes).drop 11) USER_PASS_LEN = some d.bytes := by
  rw [tokenText_drop]
  exact openvpnBase64Decode_encode (by simp [d.bytes_length, USER_PASS_LEN])

theorem TokenData.take_text :
    (tokenText d.bytes).take 27 = SESSION_ID_PREFIX ++ openvpnBase64Encode d.sessid.bytes := by
  obtain ⟨x, rest, hbs⟩ := d.bytes_eq
  rw [tokenText, hbs, encode_fields d.sessid.size (beBytes_length 8 d.initial), ← append_assoc]
  exact take_left' (by simp [SESSION_ID_PREFIX, d.encode_sessid_length])

theorem TokenData.initialFields :
    initialFields (tokenText d.bytes) = some (d.sessid.bytes, beBytes 8 d.initial) := by
  obtain ⟨x, rest, hbs⟩ := d.bytes_eq
  rw [hbs, tokenText, encode_fields d.sessid.size (beBytes_length 8 d.initial)]
  exact initialFields_text d.sessid.size (beBytes_length 8 d.initial) x _

/-! ## Checking a token -/

theorem TokenData.take_bytes : d.bytes.take 28 = d.signed :=
  take_left' d.signed_length

theorem TokenData.drop_bytes : d.bytes.drop 28 = d.mac.bytes :=
  drop_left' d.signed_length

theorem TokenData.read_initial : beNat ((d.bytes.drop 12).take 8) = d.initial := by
  have hdrop : d.bytes.drop 12 = beBytes 8 d.initial ++ (beBytes 8 d.time ++ d.mac.bytes) := by
    simp only [TokenData.bytes, TokenData.signed, append_assoc]
    exact drop_left' d.sessid.size
  rw [hdrop, take_left' (beBytes_length ..), beNat_beBytes]
  exact Nat.mod_eq_of_lt d.initial_lt

theorem TokenData.read_time : beNat ((d.bytes.drop 20).take 8) = d.time := by
  have hdrop : d.bytes.drop 20 = beBytes 8 d.time ++ d.mac.bytes := by
    simp only [TokenData.bytes, TokenData.signed]
    rw [append_assoc]
    exact drop_left' (by simp [d.sessid.size, AUTH_TOKEN_SESSION_ID_LEN])
  rw [hdrop, take_left' (beBytes_length ..), beNat_beBytes]
  exact Nat.mod_eq_of_lt d.time_lt

end

section Verify

variable (hmac : Bytes → Digest) (opt : TokenOptions)

def TokenData.MadeFor (d : TokenData) (name : Bytes) : Prop :=
  (hmac (name ++ d.signed)).bytes = d.mac.bytes

/-- The token is too old, or of a time to come, or its session is too old. -/
def TokenData.Expired (d : TokenData) (now : Nat) : Prop :=
  ¬(d.time ≤ now ∧ now < (d.time + 2 * opt.authTokenRenewal % 2 ^ 32) % 2 ^ 64) ∨
    d.time < d.initial ∨
    opt.authTokenLifetime ≠ 0 ∧ (d.initial + opt.authTokenLifetime) % 2 ^ 64 < now

theorem checkHmacToken_iff (d : TokenData) (name : Bytes) :
    checkHmacToken hmac d.bytes name = true ↔ d.MadeFor hmac name := by
  rw [checkHmacToken, d.take_bytes, d.drop_bytes, decide_eq_true_eq]
  rfl

variable {hmac opt}

/-- **What the check makes of a token.** -/
theorem verifyAuthToken_token (multi : AuthSession) (d : TokenData) (name : Bytes) (now : Nat) :
    (¬d.MadeFor hmac name → ¬d.MadeFor hmac [] →
      (verifyAuthToken hmac opt multi ⟨name, tokenText d.bytes⟩ now).1 = .zero) ∧
    ((∃ initial, multi.authTokenInitial = some initial ∧
        initial.take 27 ≠ (tokenText d.bytes).take 27) →
      (verifyAuthToken hmac opt multi ⟨name, tokenText d.bytes⟩ now).1 = .zero) ∧
    ((verifyAuthToken hmac opt multi ⟨name, tokenText d.bytes⟩ now).1 = .ok ↔
      d.MadeFor hmac name ∧ ¬d.Expired opt now ∧
        ∀ initial, multi.authTokenInitial = some initial →
          initial.take 27 = (tokenText d.bytes).take 27) := by
  have hname := checkHmacToken_iff hmac d name
  have hemp := checkHmacToken_iff hmac d []
  have hexp : (!decide (d.time ≤ now ∧
      now < (d.time + 2 * opt.authTokenRenewal % 2 ^ 32) % 2 ^ 64) ||
      decide (d.time < d.initial) || decide (opt.authTokenLifetime ≠ 0 ∧
        (d.initial + opt.authTokenLifetime) % 2 ^ 64 < now)) = false ↔ ¬d.Expired opt now := by
    rw [TokenData.Expired, Bool.or_eq_false_iff, Bool.or_eq_false_iff, not_or, not_or, not_not]
    simp only [Bool.not_eq_false', decide_eq_true_eq, decide_eq_false_iff_not]
    rw [and_assoc]
  simp only [verifyAuthToken, d.decode, d.bytes_length, TOKEN_DATA_LEN, d.read_initial,
    d.read_time, ne_eq, not_true_eq_false, if_false]
  rw [← hname, ← hemp, ← hexp]
  cases checkHmacToken hmac d.bytes name <;> cases checkHmacToken hmac d.bytes [] <;>
    cases multi.authTokenInitial <;> simp [TokenFlags.zero, TokenFlags.ok] <;> split <;> simp_all

/-- A token of this name or of none is genuine, also when it is too old. -/
theorem verifyAuthToken_genuine {multi : AuthSession} (hnone : multi.authTokenInitial = none)
    {d : TokenData} {name : Bytes} (h : d.MadeFor hmac name ∨ d.MadeFor hmac []) (now : Nat) :
    (verifyAuthToken hmac opt multi ⟨name, tokenText d.bytes⟩ now).1.hmacOk = true := by
  rw [← checkHmacToken_iff, ← checkHmacToken_iff] at h
  simp only [verifyAuthToken, d.decode, d.bytes_length, TOKEN_DATA_LEN, ne_eq, not_true_eq_false,
    if_false, hnone]
  rcases h with h | h
  all_goals simp [h]

/-- What is genuine was decoded to a token's length. -/
theorem decode_of_hmacOk {multi : AuthSession} {up : UserPass} {now : Nat}
    (h : (verifyAuthToken hmac opt multi up now).1.hmacOk = true) :
    ∃ data, openvpnBase64Decode (up.password.drop 11) USER_PASS_LEN = some data ∧
      data.length = TOKEN_DATA_LEN := by
  unfold verifyAuthToken at h
  split at h
  case h_1 => cases h
  case h_2 data hdata =>
    refine ⟨data, hdata, ?_⟩
    by_contra hlen
    rw [if_pos hlen] at h
    cases h

end Verify

/-! ## Sessions -/

section Runs

variable (hmac : Bytes → Digest) (opt : TokenOptions)

/-- The fields of the token that is made for a name. -/
def tokenDataFor (name : Bytes) (sessid : TokenSessionId) (initial time : Nat)
    (hinit : initial < 2 ^ 64) (htime : time < 2 ^ 64) : TokenData where
  sessid
  initial
  initial_lt := hinit
  time
  time_lt := htime
  mac := hmac (name ++ sessid.bytes ++ beBytes 8 initial ++ beBytes 8 time)

def tokenFor (name : Bytes) (sessid : TokenSessionId) (initial time : Nat) : Bytes :=
  tokenText (sessid.bytes ++ beBytes 8 initial ++ beBytes 8 time ++
    (hmac (name ++ sessid.bytes ++ beBytes 8 initial ++ beBytes 8 time)).bytes)

theorem tokenDataFor_text (name : Bytes) (sessid : TokenSessionId) {initial time : Nat}
    (hinit : initial < 2 ^ 64) (htime : time < 2 ^ 64) :
    tokenText (tokenDataFor hmac name sessid initial time hinit htime).bytes =
      tokenFor hmac name sessid initial time := rfl

theorem tokenDataFor_madeFor (name : Bytes) (sessid : TokenSessionId) {initial time : Nat}
    (hinit : initial < 2 ^ 64) (htime : time < 2 ^ 64) (name' : Bytes) :
    (tokenDataFor hmac name sessid initial time hinit htime).MadeFor hmac name' ↔
      (hmac (name' ++ (tokenDataFor hmac name sessid initial time hinit htime).signed)).bytes =
        (hmac (name ++ (tokenDataFor hmac name sessid initial time hinit htime).signed)).bytes := by
  simp only [TokenData.MadeFor, TokenData.signed, tokenDataFor, append_assoc]

/-- **The tokens of a session.** The stored token has a session id and an initial
time, and every token made since carries them. -/
def TokensOk (clock : Nat) (stored : Option Bytes) (chain : List TokenRecord) : Prop :=
  (stored = none → chain = []) ∧
    ∀ token, stored = some token → ∃ d : TokenData, token = tokenText d.bytes ∧
      d.initial ≤ clock ∧ ∀ r ∈ chain, d.initial ≤ r.time ∧ r.time ≤ clock ∧
        r.token = tokenFor hmac r.user d.sessid d.initial r.time

variable {hmac opt}

variable {now : Nat}

theorem TokensOk.mono {clock : Nat} {stored : Option Bytes} {chain : List TokenRecord}
    (hok : TokensOk hmac clock stored chain) (hle : clock ≤ now) :
    TokensOk hmac now stored chain := by
  refine ⟨hok.1, fun token htok => ?_⟩
  obtain ⟨d, htext, hinit, hch⟩ := hok.2 token htok
  refine ⟨d, htext, hinit.trans hle, fun r hr => ?_⟩
  obtain ⟨hfrom, hto, heq⟩ := hch r hr
  exact ⟨hfrom, hto.trans hle, heq⟩

theorem TokensOk.wiped (clock : Nat) : TokensOk hmac clock none [] :=
  ⟨fun _ => rfl, by simp⟩

/-- The session after a token was made. -/
def AuthSession.made (s : AuthSession) (name : Bytes) (now : Nat) (stored token : Bytes) :
    AuthSession :=
  { s with
    authToken := some token
    authTokenInitial := some stored
    chain := s.chain ++ [⟨name, now, token⟩] }

variable {s : AuthSession} {name : Bytes} {random : TokenSessionId}

theorem generateAuthToken_first (hstored : s.authTokenInitial = none)
    (hfl : s.authTokenStateFlags.validEmptyuser = false) :
    generateAuthToken hmac s name now random =
      some (s.made name now (tokenFor hmac name random now now)
        (tokenFor hmac name random now now)) := by
  simp [generateAuthToken, hstored, hfl, AuthSession.made, tokenFor]

theorem generateAuthToken_next {d : TokenData}
    (hstored : s.authTokenInitial = some (tokenText d.bytes))
    (hfl : s.authTokenStateFlags.validEmptyuser = false) :
    generateAuthToken hmac s name now random =
      some (s.made name now (tokenText d.bytes) (tokenFor hmac name d.sessid d.initial now)) := by
  simp [generateAuthToken, hstored, hfl, d.initialFields, AuthSession.made, tokenFor]

/-- A session in which tokens are made. -/
structure CanIssue (hmac : Bytes → Digest) (now : Nat) (s : AuthSession) : Prop where
  tokens : TokensOk hmac now s.authTokenInitial s.chain
  flags : s.authTokenStateFlags.validEmptyuser = false
  now_lt : now < 2 ^ 63

/-- **Making a token** never fails, and the session goes on with it. -/
theorem CanIssue.generateAuthToken (h : CanIssue hmac now s) :
    ∃ s', generateAuthToken hmac s name now random = some s' ∧ CanIssue hmac now s' := by
  obtain ⟨hok, hfl, hnow⟩ := h
  cases hstored : s.authTokenInitial with
  | none =>
    refine ⟨_, generateAuthToken_first hstored hfl, ?_, hfl, hnow⟩
    refine ⟨by simp [AuthSession.made], fun token htok => ?_⟩
    have htext : token = tokenFor hmac name random now now := (some.inj htok).symm
    refine ⟨tokenDataFor hmac name random now now (by omega) (by omega), htext, le_refl now, ?_⟩
    simp [AuthSession.made, hok.1 hstored, tokenDataFor]
  | some stored =>
    obtain ⟨d, rfl, hinit, hch⟩ := hok.2 stored hstored
    refine ⟨_, generateAuthToken_next hstored hfl, ?_, hfl, hnow⟩
    refine ⟨by simp [AuthSession.made], fun token htok => ?_⟩
    refine ⟨d, (some.inj htok).symm, hinit, fun r hr => ?_⟩
    rcases mem_append.mp hr with hr | hr
    · exact hch r hr
    · rw [mem_singleton.mp hr]
      exact ⟨hinit, le_refl now, rfl⟩

/-- The flags are those of a session without `external-auth`: a token that is only
good for the empty name is not accepted. -/
def FlagsOk (s : AuthSession) : Prop :=
  s.authTokenStateFlags.validEmptyuser = true → s.authenticated = .false

/-- What a session keeps, until the clock moves on. -/
def SessionOk (hmac : Bytes → Digest) (now : Nat) (s : AuthSession) : Prop :=
  TokensOk hmac now s.authTokenInitial s.chain ∧ FlagsOk s

theorem SessionOk.canIssue (hok : SessionOk hmac now s) (hauth : s.authenticated = .true)
    (hnow : now < 2 ^ 63) : CanIssue hmac now s := by
  refine ⟨hok.1, Bool.eq_false_iff.mpr fun hemp => ?_, hnow⟩
  rw [hok.2 hemp] at hauth
  cases hauth

namespace CanIssue

variable (h : CanIssue hmac now s)

include h

theorem sessionOk : SessionOk hmac now s := ⟨h.tokens, by simp [FlagsOk, h.flags]⟩

theorem generateAuthToken_sessionOk :
    ∃ s', OpenVpn.generateAuthToken hmac s name now random = some s' ∧ SessionOk hmac now s' := by
  obtain ⟨s', heq, h'⟩ := h.generateAuthToken
  exact ⟨s', heq, h'.sessionOk⟩

end CanIssue

/-- What making a token keeps, and what depends on the tokens of a session and its flags
only. -/
structure TokenInvariant (hmac : Bytes → Digest) (now : Nat) (random : TokenSessionId)
    (I : AuthSession → Prop) : Prop where
  congr : ∀ {s s'}, I s → s'.authTokenInitial = s.authTokenInitial → s'.chain = s.chain →
    s'.authTokenStateFlags = s.authTokenStateFlags → I s'
  wiped : ∀ {s}, I s → I (tlsDeauthenticate s)
  generate : ∀ {s name}, I s → ∃ s', generateAuthToken hmac s name now random = some s' ∧ I s'

/-- **The second half of `verify_user_pass`** does not abort, and keeps the invariant. -/
theorem TokenInvariant.finishUserPass {I : AuthSession → Prop}
    (hI : TokenInvariant hmac now random I) (h : I s) (up : UserPass) (skipAuth : Bool)
    (result : AuthResult) :
    ∃ s', finishUserPass hmac opt s up skipAuth result now random = some s' ∧ I s' := by
  obtain ⟨s1, henv, h1⟩ : ∃ s1,
      (if (opt.userPassOptional || decide (up.username ≠ [])) then
        addSessionTokenEnv hmac s up.username now random else some s) = some s1 ∧ I s1 := by
    dsimp only [addSessionTokenEnv]
    split
    · split
      · exact ⟨s, rfl, h⟩
      · split
        · exact ⟨s, rfl, h⟩
        · exact hI.generate h
    · exact ⟨s, rfl, h⟩
  have h2 : I (tlsLockUsername s1 up.username).2 := by
    unfold tlsLockUsername
    split
    · split
      · exact hI.wiped h1
      · exact h1
    · exact hI.congr h1 rfl rfl rfl
  simp only [OpenVpn.finishUserPass, henv]
  generalize (if skipAuth = true then AuthResult.success else result) = answer
  split
  case isFalse => exact ⟨_, rfl, hI.congr h1 rfl rfl rfl⟩
  case isTrue =>
    rcases hpair : tlsLockUsername s1 up.username with ⟨locked, s2⟩
    rw [hpair] at h2
    cases locked with
    | false => exact ⟨_, rfl, hI.congr h2 rfl rfl rfl⟩
    | true => exact hI.generate (hI.congr h2 rfl rfl rfl)

theorem CanIssue.finishUserPass (h : CanIssue hmac now s) (up : UserPass) (skipAuth : Bool)
    (result : AuthResult) (random : TokenSessionId) :
    ∃ s', finishUserPass hmac opt s up skipAuth result now random = some s' ∧
      SessionOk hmac now s' := by
  have hI : TokenInvariant hmac now random (CanIssue hmac now) :=
    { congr := fun h hinit hch hfl =>
        ⟨hch ▸ hinit ▸ h.tokens, hfl ▸ h.flags, h.now_lt⟩
      wiped := fun h => ⟨.wiped now, h.flags, h.now_lt⟩
      generate := CanIssue.generateAuthToken }
  obtain ⟨s', heq, h'⟩ := hI.finishUserPass h up skipAuth result
  exact ⟨s', heq, h'.sessionOk⟩

/-- A token as the server makes it. -/
def ServerToken (hmac : Bytes → Digest) (token : Bytes) : Prop :=
  ∃ name sessid initial time, initial < 2 ^ 64 ∧ time < 2 ^ 64 ∧
    token = tokenFor hmac name sessid initial time

/-- **`verify_user_pass`.** A session that begins with a token begins with one as the
server made it. -/
theorem verifyUserPass_ok (hext : opt.authTokenCallAuth = false)
    (hok : TokensOk hmac now s.authTokenInitial s.chain) (hnow : now < 2 ^ 63) (up : UserPass)
    (htok : isAuthToken (stringModRemapName up.password) = true → s.authTokenInitial = none →
      ServerToken hmac (stringModRemapName up.password)) (result : AuthResult)
    (random : TokenSessionId) :
    ∃ s', verifyUserPass hmac opt s up result now random = some s' ∧ SessionOk hmac now s' := by
  simp only [verifyUserPass, hext]
  generalize stringModRemapName up.password = password at htok ⊢
  generalize (if s.lockedOriginalUsername = some (stringModRemapName up.username) then
    s.lockedUsername.getD (stringModRemapName up.username)
    else stringModRemapName up.username) = username
  split
  case isFalse =>
    apply CanIssue.finishUserPass
    exact ⟨hok, rfl, hnow⟩
  case isTrue htext =>
    rw [if_neg (by decide)]
    split
    case isFalse => exact ⟨_, rfl, .wiped now, fun _ => rfl⟩
    case isTrue hfl =>
      refine CanIssue.finishUserPass ⟨?_, ?_, hnow⟩ _ _ _ _
      · -- the token is kept as the first one of the session if there was none
        cases hstored : s.authTokenInitial with
        | some stored =>
          rw [hstored] at hok
          exact hok
        | none =>
          obtain ⟨name, sessid, initial, time, hinit, htime, rfl⟩ := htok htext hstored
          rw [hok.1 hstored]
          refine ⟨by simp, fun token heq => ?_⟩
          obtain rfl : token = tokenFor hmac name sessid initial time :=
            (some.inj heq).symm
          rw [← tokenDataFor_text hmac name sessid hinit htime] at hfl
          obtain ⟨-, hval, -⟩ := (verifyAuthToken_token _ _ _ _).2.2.mp hfl
          refine ⟨tokenDataFor hmac name sessid initial time hinit htime, rfl, ?_, by simp⟩
          simp only [TokenData.Expired, not_or, not_not] at hval
          exact (Nat.le_of_not_lt hval.2.1).trans hval.1.1
      · simp only [hfl]
        rfl

/-- The events of a session: the clock does not go back, and a session that begins
with a token begins with one as the server made it. -/
def AuthGuard (hmac : Bytes → Digest) (s : AuthSession) (event : Nat × AuthEvent) : Prop :=
  s.clock ≤ event.1 ∧ event.1 < 2 ^ 63 ∧
    ∀ up result random, event.2 = .userPass up result random →
      isAuthToken (stringModRemapName up.password) = true → s.authTokenInitial = none →
      ServerToken hmac (stringModRemapName up.password)

theorem authStep_clock {s' : AuthSession} {event : Nat × AuthEvent} {o : Unit}
    (h : authStep hmac opt s event = some (s', o)) : s'.clock = event.1 := by
  obtain ⟨multi, -, heq⟩ := map_eq_some_iff.mp h
  cases heq
  rfl

/-- **One event** never aborts and keeps what a session keeps. -/
theorem authStep_ok (hext : opt.authTokenCallAuth = false) (s : AuthSession)
    (event : Nat × AuthEvent) (hok : SessionOk hmac s.clock s) (hg : AuthGuard hmac s event) :
    ∃ s' o, authStep hmac opt s event = some (s', o) ∧ SessionOk hmac s'.clock s' := by
  obtain ⟨now, e⟩ := event
  obtain ⟨hclk, hnow, htok⟩ := hg
  have htoks := hok.1.mono hclk
  have hses : SessionOk hmac now s := ⟨htoks, hok.2⟩
  obtain ⟨s', heq, hok'⟩ : ∃ s', authEvent hmac opt s now e = some s' ∧ SessionOk hmac now s' := by
    cases e with
    | userPass up result random =>
      exact verifyUserPass_ok hext htoks hnow up (htok up result random rfl) result random
    | deferredResult succeeded =>
      refine ⟨_, rfl, ?_⟩
      split
      case isTrue hdef =>
        refine ⟨htoks, fun hemp => ?_⟩
        rw [hok.2 hemp] at hdef
        cases hdef
      case isFalse => exact hses
    | softReset => exact ⟨_, rfl, htoks, fun _ => rfl⟩
    | resend random =>
      simp only [authEvent, checkSendAuthToken]
      split
      case isFalse => exact ⟨s, rfl, hses⟩
      case isTrue hauth =>
        split
        · exact (hses.canIssue hauth.1 hnow).generateAuthToken_sessionOk
        · exact ⟨s, rfl, hses⟩
    | override username random =>
      simp only [authEvent, overrideLockedUsername]
      split
      case h_1 => exact ⟨s, rfl, hses⟩
      case h_2 =>
        split
        case isFalse => exact ⟨s, rfl, hses⟩
        case isTrue hauth =>
          obtain ⟨htoks, hfl, -⟩ := hses.canIssue hauth.1 hnow
          split
          · apply CanIssue.generateAuthToken_sessionOk
            exact ⟨htoks, hfl, hnow⟩
          · exact ⟨_, rfl, htoks, hok.2⟩
    | deauthenticate => exact ⟨_, rfl, .wiped now, fun _ => rfl⟩
  exact ⟨{ s' with clock := now }, (), by simp [authStep, heq], hok'⟩

/-- What is said of a token that was made in a session. -/
structure TokenSpec (hmac : Bytes → Digest) (opt : TokenOptions) (s : AuthSession)
    (sessid : TokenSessionId) (initial : Nat) (r : TokenRecord) : Prop where
  /-- It carries the session id and the initial time. -/
  carries : r.token = tokenFor hmac r.user sessid initial r.time
  /-- It is good for its user while it is fresh and the session is not too old. -/
  valid : ∀ now < 2 ^ 63, (verifyAuthToken hmac opt s ⟨r.user, r.token⟩ now).1 = .ok ↔
    (r.time ≤ now ∧ now < r.time + 2 * opt.authTokenRenewal) ∧
      (opt.authTokenLifetime = 0 ∨ now ≤ initial + opt.authTokenLifetime)
  /-- It is good for nobody else, in no session, unless the HMAC has a collision. -/
  otherUser : r.user ≠ [] → ∀ name, name ≠ r.user →
    Set.InjOn hmac {m | ∃ u ∈ [r.user, name, []],
      m = u ++ (sessid.bytes ++ beBytes 8 initial ++ beBytes 8 r.time)} →
    ∀ s' now, (verifyAuthToken hmac opt s' ⟨name, r.token⟩ now).1 = .zero
  /-- It is good in no session that began with another session id. -/
  otherSession : ∀ s' stored, s'.authTokenInitial = some stored →
    openvpnBase64Decode ((stored.drop 11).take 16) AUTH_TOKEN_SESSION_ID_LEN ≠ some sessid.bytes →
    ∀ name now, (verifyAuthToken hmac opt s' ⟨name, r.token⟩ now).1 = .zero

theorem digest_ext {a b : Digest} (h : a.bytes = b.bytes) : a = b := by
  cases a
  cases b
  cases h
  rfl

/-- A token that is made from the stored one is as `TokenSpec` says. -/
theorem tokenSpec_of_made {stored : TokenData}
    (hstored : s.authTokenInitial = some (tokenText stored.bytes)) {r : TokenRecord}
    (hfrom : stored.initial ≤ r.time) (hto : r.time < 2 ^ 63)
    (htok : r.token = tokenFor hmac r.user stored.sessid stored.initial r.time) :
    TokenSpec hmac opt s stored.sessid stored.initial r := by
  have htime : r.time < 2 ^ 64 := by omega
  have htext := tokenDataFor_text hmac r.user stored.sessid stored.initial_lt htime
  have hmade := tokenDataFor_madeFor hmac r.user stored.sessid stored.initial_lt htime
  rw [← htok] at htext
  generalize hd : tokenDataFor hmac r.user stored.sessid stored.initial r.time stored.initial_lt
    htime = d at htext hmade
  have hsessid : d.sessid = stored.sessid := by rw [← hd]; rfl
  have hinit : d.initial = stored.initial := by rw [← hd]; rfl
  have hdtime : d.time = r.time := by rw [← hd]; rfl
  have hsigned : d.signed =
      stored.sessid.bytes ++ beBytes 8 stored.initial ++ beBytes 8 r.time := by rw [← hd]; rfl
  refine ⟨htok, ?_, ?_, ?_⟩
  · intro now hnow
    have hrenewal := opt.renewal_lt
    have hlifetime := opt.lifetime_lt
    have hsame : ∀ token, s.authTokenInitial = some token →
        token.take 27 = (tokenText d.bytes).take 27 := by
      intro token heq
      obtain rfl := some.inj (hstored.symm.trans heq)
      rw [d.take_text, stored.take_text, hsessid]
    rw [← htext, (verifyAuthToken_token s d r.user now).2.2]
    rw [and_iff_right ((hmade r.user).mpr rfl), and_iff_left hsame, TokenData.Expired, hinit,
      hdtime]
    omega
  · intro hne name hoth hinj s' now
    rw [← htext]
    have hnot : ∀ u ∈ [r.user, name, []], u ≠ r.user → ¬d.MadeFor hmac u := by
      intro u hu huser hmadeFor
      have heq := digest_ext ((hmade u).mp hmadeFor)
      rw [hsigned] at heq
      have hmsg := hinj ⟨u, hu, rfl⟩ ⟨r.user, by simp, rfl⟩ heq
      exact huser (append_cancel_right hmsg)
    exact (verifyAuthToken_token s' d name now).1 (hnot name (by simp) hoth)
      (hnot [] (by simp) hne.symm)
  · intro s' other hoth hsid name now
    rw [← htext]
    refine (verifyAuthToken_token s' d name now).2.1 ⟨other, hoth, fun heq => hsid ?_⟩
    have hcut : (other.drop 11).take 16 = openvpnBase64Encode stored.sessid.bytes := by
      have hdrop := congrArg (drop 11) heq
      rw [d.take_text, hsessid, drop_take] at hdrop
      rw [hdrop]
      exact drop_left' rfl
    rw [hcut]
    exact openvpnBase64Decode_encode stored.sessid.size.le

/-- **Validity of tokens.** In every session without `external-auth`, under any key and
with a clock that does not go back, all tokens made since the session began carry the
same session id and initial time; each is good for its user exactly while it is younger
than two renewal intervals and the session is not older than its lifetime, and for
nobody else and in no other session. -/
theorem auth_token_validity (hmac : Bytes → Digest) (opt : TokenOptions)
    (hext : opt.authTokenCallAuth = false) {events : List (Nat × AuthEvent)}
    (hguard : RunGuard (authStep hmac opt) (AuthGuard hmac) .init events) :
    ∃ s outs, run (authStep hmac opt) .init events = some (s, outs) ∧
      ∃ sessid initial, ∀ r ∈ s.chain, TokenSpec hmac opt s sessid initial r := by
  have hstart : SessionOk hmac AuthSession.init.clock .init ∧ AuthSession.init.clock < 2 ^ 63 :=
    ⟨⟨.wiped 0, fun _ => rfl⟩, by decide⟩
  have hstep : ∀ s e, SessionOk hmac s.clock s ∧ s.clock < 2 ^ 63 → AuthGuard hmac s e →
      ∃ s' o, authStep hmac opt s e = some (s', o) ∧
        SessionOk hmac s'.clock s' ∧ s'.clock < 2 ^ 63 := by
    intro s e hok hg
    obtain ⟨s', o, heq, hok'⟩ := authStep_ok hext s e hok.1 hg
    exact ⟨s', o, heq, hok', authStep_clock heq ▸ hg.2.1⟩
  obtain ⟨s, outs, hrun, ⟨htokens, -⟩, hclock⟩ := run_isSome hstep hstart hguard
  refine ⟨s, outs, hrun, ?_⟩
  cases hstored : s.authTokenInitial with
  | none =>
    refine ⟨⟨replicate 12 0, rfl⟩, 0, fun r hr => ?_⟩
    rw [htokens.1 hstored] at hr
    cases hr
  | some stored =>
    obtain ⟨d, rfl, -, hchain⟩ := htokens.2 stored hstored
    refine ⟨d.sessid, d.initial, fun r hr => ?_⟩
    obtain ⟨hfrom, hto, htoken⟩ := hchain r hr
    exact tokenSpec_of_made hstored hfrom (hto.trans_lt hclock) htoken

end Runs

/-- The start of a message, instead of an HMAC. -/
def headDigest (message : Bytes) : Digest :=
  ⟨(message ++ replicate 32 0).take 32, by simp⟩

/-- Tokens are renewed every hour and end after a day. -/
def hourlyOptions : TokenOptions := ⟨3600, by decide, 86400, by decide, false, false, false⟩

/-- The token of alice in a session whose id begins with the bytes 3, 240 and 0, which are
`A/AA` in base64. Here they are written `B*AA`, and decoded as before. -/
def respelledToken : Bytes :=
  SESSION_ID_PREFIX ++ [66, 42, 65, 65] ++
    (tokenFor headDigest [97] ⟨[3, 240, 0] ++ replicate 9 7, rfl⟩ 5 5).drop 15

/-- **A session that begins with another spelling of a token.** The token is accepted and
kept. The next one has the same session id and initial time, but its text begins in another
way, and so the session refuses it. -/
theorem respelled_token_refused : ∃ s r,
    run (authStep headDigest hourlyOptions) .init
        [(6, .userPass ⟨[97], respelledToken⟩ .success ⟨replicate 12 7, rfl⟩)] =
      some (s, [()]) ∧
    s.authenticated = .true ∧ s.chain = [r] ∧ r.user = [97] ∧ r.time = 6 ∧
    initialFields r.token = initialFields respelledToken ∧
    (verifyAuthToken headDigest hourlyOptions s ⟨r.user, r.token⟩ 7).1 = .zero := by
  refine ⟨_, _, rfl, ?_, rfl, ?_⟩
  all_goals decide +kernel

/-- Alice logs in at time 5 and gets a new token at time 3600. -/
def aliceEvents : List (Nat × AuthEvent) :=
  [(5, .userPass ⟨[97], [120]⟩ .success ⟨replicate 12 7, rfl⟩),
    (3600, .resend ⟨replicate 12 7, rfl⟩)]

theorem auth_token_validity_alice :
    ∃ s outs, run (authStep headDigest hourlyOptions) .init aliceEvents = some (s, outs) ∧
      s.chain.map (fun r => (r.user, r.time)) = [([97], 5), ([97], 5), ([97], 3600)] ∧
      ∃ sessid initial, ∀ r ∈ s.chain, TokenSpec headDigest hourlyOptions s sessid initial r := by
  have hguard : RunGuard (authStep headDigest hourlyOptions) (AuthGuard headDigest) .init
      aliceEvents := by
    refine ⟨⟨by decide, by decide, ?_⟩, fun s' o hs' => ⟨⟨?_, by decide, ?_⟩, ?_⟩⟩
    · intro up result random heq htoken
      cases heq
      exact absurd htoken (by decide)
    · rw [authStep_clock hs']
      decide
    · intro up result random heq
      cases heq
    · exact fun _ _ _ => trivial
  obtain ⟨s, outs, hrun, hspec⟩ :=
    auth_token_validity headDigest hourlyOptions rfl hguard
  have hchain : (run (authStep headDigest hourlyOptions) .init aliceEvents).map
      (fun w => w.1.chain.map (fun r => (r.user, r.time))) =
      some [([97], 5), ([97], 5), ([97], 3600)] := by decide +kernel
  rw [hrun] at hchain
  exact ⟨s, outs, hrun, some.inj hchain, hspec⟩

end OpenVpn
