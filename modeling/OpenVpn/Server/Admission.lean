import OpenVpn.Server.Steps

/-!
# Which datagrams create an instance

The server creates an instance for a datagram from an address it does not know
only after `doPreDecryptCheck`. For the packets of an established handshake that
check is the check of the cookie, and its comparison is inverted:

* **Per packet** — the check is right exactly on the `Decisive` packets. A packet
  that echoes a session id the server never gave out is not one of them, and is
  accepted.
* **Per run** — as long as the packets from addresses without an instance are decisive,
  an instance is created on one of these packets only if it echoes a cookie.
-/

namespace OpenVpn

open Base List Prod

variable {cfg : MultiConfig} {m m' : MultiContext cfg} {d : Datagram}

def Datagram.opcode (d : Datagram) : Option Nat := d.buf.head?.map opcodeOf

/-- The opcodes of the packets that have to echo a cookie. -/
def cookieOpcodes : List Nat := [P_CONTROL_V1, P_ACK_V1, P_CONTROL_WKC_V1]

/-- The datagram echoes a session id the server computed for its source and its
client session id. -/
def Datagram.Echoes (cfg : MultiConfig) (d : Datagram) : Prop :=
  EchoesCookie cfg.hmac cfg.handshakeWindow d.now (d.preDecrypt cfg).2 d.source

/-- The check of the cookie is right on the datagram. -/
def Datagram.Decisive (cfg : MultiConfig) (d : Datagram) : Prop :=
  OpenVpn.Decisive cfg.hmac cfg.handshakeWindow d.now (d.preDecrypt cfg).2 d.source

/-- A datagram that reaches the check of the cookie is decisive: it has to echo one, and
there is no instance for it. -/
def CookieGuard (m : MultiContext cfg) : ServerEvent → Prop
  | .datagram d => ∀ op ∈ cookieOpcodes, d.opcode = some op →
      ∀ real ∈ realKey d.sock.proto d.source, ∀ m₁, existingInstance m d real = some (m₁, none) →
        d.Decisive cfg
  | _ => True

instance (cfg : MultiConfig) (d : Datagram) : Decidable (d.Echoes cfg) :=
  inferInstanceAs (Decidable (EchoesCookie ..))

instance (cfg : MultiConfig) (d : Datagram) : Decidable (d.Decisive cfg) :=
  inferInstanceAs (Decidable (OpenVpn.Decisive ..))

theorem tlsPreDecryptLite_verdict (readControlAuth : Bytes → Option Bytes)
    (state : TlsPreDecryptState) (first : UInt8) (rest : Bytes) :
    (tlsPreDecryptLite readControlAuth state (first :: rest)).1 = .invalid ∨
      (opcodeOf first ∈ [P_CONTROL_HARD_RESET_CLIENT_V2, P_CONTROL_HARD_RESET_CLIENT_V3,
          P_CONTROL_V1, P_CONTROL_WKC_V1, P_ACK_V1] ∧
        (tlsPreDecryptLite readControlAuth state (first :: rest)).1 =
          verdictOf (opcodeOf first)) := by
  unfold tlsPreDecryptLite
  dsimp only
  split
  · exact .inl rfl
  · split
    · exact .inl rfl
    · next hop =>
        split
        · exact .inl rfl
        · split
          · exact .inl rfl
          · split
            · exact .inl rfl
            · split
              · exact .inl rfl
              · exact .inr ⟨not_not.mp hop, rfl⟩

theorem preDecrypt_ne_reset {op : Nat} (hop : d.opcode = some op) (hmem : op ∈ cookieOpcodes) :
    (d.preDecrypt cfg).1 ≠ .validResetV3 := by
  unfold Datagram.opcode at hop
  unfold Datagram.preDecrypt
  cases hbuf : d.buf with
  | nil =>
    rw [hbuf] at hop
    cases hop
  | cons first rest =>
    rw [hbuf] at hop
    cases hop
    rcases tlsPreDecryptLite_verdict cfg.readControlAuth TlsPreDecryptState.clear first rest with
      h | ⟨_, h⟩
    · rw [h]
      decide
    · rw [h]
      simp only [cookieOpcodes, mem_cons, not_mem_nil, or_false] at hmem
      rcases hmem with hmem | hmem | hmem <;>
        · rw [show opcodeOf first = _ from hmem]
          decide

theorem admitInstance_created {real : MrouteAddr} {id : Nat}
    (h : admitInstance m d real = some (m', some id)) :
    ∃ m1, doPreDecryptCheck m d = some (m1, true) := by
  unfold admitInstance at h
  split at h
  · cases h
  · split at h
    · cases h
    · cases h
    · next m1 hchk => exact ⟨m1, hchk⟩

theorem serverStep_created {e : ServerEvent} {o : ServerOutput} {id op : Nat}
    (hG : CookieGuard m e) (h : serverStep m e = some (m', o)) (he : e = .datagram d)
    (ho : o = .created id) (hop : d.opcode = some op) (hmem : op ∈ cookieOpcodes) :
    d.Echoes cfg := by
  subst he ho
  cases linkEffect h with
  | created hkey hnone hadm hsrc =>
    have hdec := hG op hmem hop _ hkey _ hnone
    obtain ⟨m1, hchk⟩ := admitInstance_created hadm
    rcases doPreDecryptCheck_true hchk with hreset | ⟨_, state', htrue⟩
    · exact absurd hreset (preDecrypt_ne_reset hop hmem)
    · obtain ⟨ret, state'', hret, hiff⟩ := checkSessionIdHmac_correct_iff.mpr hdec
      rw [htrue] at hret
      cases hret
      exact hiff.mp rfl

/-- **The cookie check.** On every packet state, address, HMAC key, window and
time, the check returns what it should exactly if the packet is decisive. In
every run of the server in which the packets with a cookie opcode and without an instance
are decisive, such a packet creates an instance only if it echoes a cookie. -/
theorem cookie_check_correct_iff_decisive (hmac : Bytes → Digest) (handwindow now : Nat)
    (state : TlsPreDecryptState) (source : OpenvpnSockaddr) :
    ((∃ ret state', checkSessionIdHmac hmac handwindow now state (some source) =
        some (ret, state') ∧ (ret = true ↔ EchoesCookie hmac handwindow now state source)) ↔
      Decisive hmac handwindow now state source) ∧
    ∀ (cfg : MultiConfig) (m m' : MultiContext cfg) (es : List ServerEvent)
      (os : List ServerOutput), run serverStep m es = some (m', os) →
      RunGuard serverStep CookieGuard m es →
      ∀ d op id, (.datagram d, .created id) ∈ es.zip os → d.opcode = some op →
        op ∈ cookieOpcodes → d.Echoes cfg := by
  refine ⟨checkSessionIdHmac_correct_iff, ?_⟩
  intro cfg m m' es os hrun hG d op id hmem hop hopcode
  have hstep := run_outputs (Q := fun e o => ∀ d id op, e = .datagram d → o = .created id →
      d.opcode = some op → op ∈ cookieOpcodes → d.Echoes cfg)
    (fun s e s' o hG h d id op => serverStep_created hG h) hG hrun
  exact hstep _ _ hmem d id op rfl rfl hop hopcode

/-- A server without packet wrapping, whose HMAC shows the low byte of the time
it is computed for. -/
def sampleConfig : MultiConfig where
  hashFunc _ _ := 0
  hashIv := 0
  iterIv := 0
  maxClients := 4
  hmac msg := ⟨replicate 32 (msg.getD 3 0), length_replicate ..⟩
  handshakeWindow := 60
  readControlAuth buf := some (buf.drop (1 + SID_SIZE))
  forceTlscryptv2Cookie := false

def sampleServer : MultiContext sampleConfig :=
  (multiInit sampleConfig 4 ⟨10, 60, 0, 0⟩ ⟨100, 10, 0, 0, false⟩).get (by decide +kernel)

/-- A client at `10.0.0.host`, port 1194. -/
def sampleSource (host : Nat) : OpenvpnSockaddr :=
  ⟨.inet, 1194, 0x0a000000 + BitVec.ofNat 32 host, 0, 0⟩

/-- A packet received from there at time 600. -/
def sampleDatagram (host : Nat) (buf : Bytes) : Datagram :=
  ⟨sampleSource host, buf, ⟨.udp⟩, 600, true, false, false⟩

/-- A `P_CONTROL_V1` packet that acknowledges packet 0 of session `echo`. -/
def controlPacket (echo : UInt8) : Bytes :=
  [32] ++ replicate SID_SIZE 7 ++ [1, 0, 0, 0, 0] ++ replicate SID_SIZE echo

theorem cookie_check_correct_iff_decisive_genuine :
    (sampleDatagram 1 (controlPacket 20)).Decisive sampleConfig ∧
      (sampleDatagram 1 (controlPacket 20)).Echoes sampleConfig := by
  have hdec : (sampleDatagram 1 (controlPacket 20)).Decisive sampleConfig := by decide +kernel
  have hcreated : (run serverStep sampleServer [.datagram (sampleDatagram 1 (controlPacket 20))]).map
      snd = some [.created 0] := by decide +kernel
  obtain ⟨⟨m', os⟩, hrun, hos⟩ := Option.map_eq_some_iff.mp hcreated
  subst hos
  have hruns := (cookie_check_correct_iff_decisive sampleConfig.hmac sampleConfig.handshakeWindow
    600 TlsPreDecryptState.clear (sampleSource 1)).2
  have hguard : RunGuard serverStep CookieGuard sampleServer
      [.datagram (sampleDatagram 1 (controlPacket 20))] :=
    ⟨fun _ _ _ _ _ _ _ => hdec, fun _ _ _ => trivial⟩
  exact ⟨hdec, hruns _ _ _ _ _ hrun hguard _ P_CONTROL_V1 0 mem_cons_self (by decide +kernel)
    (by decide)⟩

/-- The server never computed session id `ff..ff`, and creates an instance for a
packet that echoes it. -/
theorem forged_cookie_creates_instance :
    ¬ (sampleDatagram 1 (controlPacket 255)).Echoes sampleConfig ∧
    (checkSessionIdHmac sampleConfig.hmac sampleConfig.handshakeWindow 600
      ((sampleDatagram 1 (controlPacket 255)).preDecrypt sampleConfig).2
      (some (sampleSource 1))).map fst = some true ∧
    (run serverStep sampleServer [.datagram (sampleDatagram 1 (controlPacket 255))]).map
      snd = some [.created 0] := by
  refine ⟨by decide +kernel, by decide +kernel, by decide +kernel⟩

end OpenVpn
