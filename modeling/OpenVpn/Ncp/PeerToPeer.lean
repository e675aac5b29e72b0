import OpenVpn.Ncp.PeerInfo
import OpenVpn.Server.Multi

/-!
# Negotiation between two peers

In peer-to-peer mode there is no push: each side decides from its own configuration and
the peer info of the other which cipher and which protocol features to use.

* `getP2pNcpCipher`, `p2pNcpSetOptions`, `p2pModeNcp` — the decision of one side.
* `p2pModeNcp_flags` — what one negotiation does to the flags of an endpoint.
* `p2p_negotiation_agrees` — two fresh endpoints come to the same decision.
* `p2p_flags_current_iff` — when the flags of an endpoint that has seen other peers
  before are those of its current peer.
-/

namespace OpenVpn

open Base List

/-- What a negotiation leaves behind in `tls_multi` and in the options all sessions of
an endpoint share. -/
structure P2pState where
  usePeerId : Bool
  peerId : Nat
  useCcExitNotify : Bool
  epochDataKeyFormat : Bool
  useTlsKeyMaterialExport : Bool
  useDynamicTlsCrypt : Bool
  deriving DecidableEq, Repr

/-- An endpoint that has not negotiated yet. -/
def P2pState.fresh : P2pState := ⟨false, MAX_PEER_ID, false, false, false, false⟩

section Endpoint

variable (lib : CipherLib) (opt : TlsOptions)

/-- The TLS server's order of ciphers decides. -/
def getP2pNcpCipher (peerInfo : Option Bytes) : Option Bytes :=
  match extractVarPeerInfo peerInfo (ascii "IV_CIPHERS=") with
  | none => none
  | some peerCiphers =>
    let serverCiphers := if opt.server then opt.configNcpCiphers else peerCiphers
    let clientCiphers := if opt.server then peerCiphers else opt.configNcpCiphers
    (strsep 58 serverCiphers).find? fun token => tlsItemInCipherList token clientCiphers

/-- The decision on the data format. -/
def epochDecided (proto : Nat) (commonCipher : Option Bytes) : Bool :=
  opt.dataEpochSupported && proto.testBit IV_PROTO_DATA_EPOCH &&
    commonCipher.any lib.cipherKtModeAead

/-- The part of `p2p_ncp_set_options` that needs keying material; `exported` is the peer
id made from it, if the export works. -/
def p2pSetExport (proto : Nat) (exported : Option Nat) (s : P2pState) : P2pState :=
  let s := if proto.testBit IV_PROTO_TLS_KEY_EXPORT then
      { s with
        useTlsKeyMaterialExport := true
        peerId := if s.usePeerId then exported.getD s.peerId else s.peerId }
    else s
  if proto.testBit IV_PROTO_DYN_TLS_CRYPT then { s with useDynamicTlsCrypt := true } else s

def p2pNcpSetOptions (peerInfo commonCipher : Option Bytes) (exported : Option Nat)
    (s : P2pState) : P2pState :=
  let proto := extractIvProto peerInfo
  if !proto.testBit IV_PROTO_NCP_P2P then s
  else
    let s := if proto.testBit IV_PROTO_DATA_V2 then { s with usePeerId := true, peerId := 0x76706e }
      else s
    let s := if proto.testBit IV_PROTO_CC_EXIT_NOTIFY then { s with useCcExitNotify := true } else s
    let s := { s with epochDataKeyFormat := epochDecided lib opt proto commonCipher }
    if opt.haveExportKeyingMaterial then p2pSetExport proto exported s else s

def p2pModeNcp (peerInfo : Option Bytes) (exported : Option Nat) (s : P2pState) : P2pState :=
  p2pNcpSetOptions lib opt peerInfo (getP2pNcpCipher opt peerInfo) exported s

end Endpoint

/-! ## The flags -/

@[ext] structure P2pFlags where
  usePeerId : Bool
  useCcExitNotify : Bool
  epochDataKeyFormat : Bool
  useTlsKeyMaterialExport : Bool
  useDynamicTlsCrypt : Bool
  deriving DecidableEq, Repr

def P2pState.flags (s : P2pState) : P2pFlags :=
  ⟨s.usePeerId, s.useCcExitNotify, s.epochDataKeyFormat, s.useTlsKeyMaterialExport,
    s.useDynamicTlsCrypt⟩

def P2pFlags.none : P2pFlags := ⟨false, false, false, false, false⟩

/-- Flags stay set, only the data format is decided anew. -/
def P2pFlags.update (f g : P2pFlags) : P2pFlags :=
  ⟨f.usePeerId || g.usePeerId, f.useCcExitNotify || g.useCcExitNotify, g.epochDataKeyFormat,
    f.useTlsKeyMaterialExport || g.useTlsKeyMaterialExport,
    f.useDynamicTlsCrypt || g.useDynamicTlsCrypt⟩

/-- The flags that `g` sets for good are all set in `f`. -/
def P2pFlags.Covers (f g : P2pFlags) : Prop :=
  (g.usePeerId = true → f.usePeerId = true) ∧
    (g.useCcExitNotify = true → f.useCcExitNotify = true) ∧
    (g.useTlsKeyMaterialExport = true → f.useTlsKeyMaterialExport = true) ∧
    (g.useDynamicTlsCrypt = true → f.useDynamicTlsCrypt = true)

/-- The peer takes part in the negotiation. -/
def negotiates (peerInfo : Option Bytes) : Bool :=
  (extractIvProto peerInfo).testBit IV_PROTO_NCP_P2P

section Flags

variable (lib : CipherLib) (opt : TlsOptions)

/-- The flags a peer that negotiates asks for. -/
def requested (peerInfo : Option Bytes) : P2pFlags :=
  let proto := extractIvProto peerInfo
  ⟨proto.testBit IV_PROTO_DATA_V2, proto.testBit IV_PROTO_CC_EXIT_NOTIFY,
    epochDecided lib opt proto (getP2pNcpCipher opt peerInfo),
    opt.haveExportKeyingMaterial && proto.testBit IV_PROTO_TLS_KEY_EXPORT,
    opt.haveExportKeyingMaterial && proto.testBit IV_PROTO_DYN_TLS_CRYPT⟩

/-- The flags of a fresh endpoint after one peer. -/
def granted (peerInfo : Option Bytes) : P2pFlags :=
  if negotiates peerInfo then requested lib opt peerInfo else .none

theorem p2pSetExport_flags (proto : Nat) (exported : Option Nat) (s : P2pState) :
    (p2pSetExport proto exported s).flags =
      { s.flags with
        useTlsKeyMaterialExport := s.useTlsKeyMaterialExport ||
          proto.testBit IV_PROTO_TLS_KEY_EXPORT
        useDynamicTlsCrypt := s.useDynamicTlsCrypt || proto.testBit IV_PROTO_DYN_TLS_CRYPT } := by
  unfold p2pSetExport P2pState.flags
  cases proto.testBit IV_PROTO_TLS_KEY_EXPORT <;> cases proto.testBit IV_PROTO_DYN_TLS_CRYPT <;>
    simp

/-- **One negotiation.** -/
theorem p2pModeNcp_flags (peerInfo : Option Bytes) (exported : Option Nat) (s : P2pState) :
    (p2pModeNcp lib opt peerInfo exported s).flags =
      if negotiates peerInfo then s.flags.update (requested lib opt peerInfo) else s.flags := by
  unfold p2pModeNcp p2pNcpSetOptions negotiates requested
  dsimp only
  generalize extractIvProto peerInfo = proto
  cases proto.testBit IV_PROTO_NCP_P2P with
  | false => rfl
  | true =>
    cases opt.haveExportKeyingMaterial with
    | false =>
      cases proto.testBit IV_PROTO_DATA_V2 <;> cases proto.testBit IV_PROTO_CC_EXIT_NOTIFY <;>
        simp [P2pFlags.update, P2pState.flags]
    | true =>
      simp only [Bool.not_true, Bool.false_eq_true, if_false, if_true, p2pSetExport_flags]
      cases proto.testBit IV_PROTO_DATA_V2 <;> cases proto.testBit IV_PROTO_CC_EXIT_NOTIFY <;>
        simp [P2pFlags.update, P2pState.flags]

end Flags

/-! ## Agreement -/

/-- A session of a peer that neither pulls nor is a multi-client server. Its texts do not look
like variables. -/
structure P2pPeer (opt : TlsOptions) : Prop where
  pull : opt.pull = false
  mode : opt.modeServer = false
  detail : 0 < opt.pushPeerInfoDetail
  fits : PeerInfoFits opt
  texts : PlainTexts opt

theorem P2pPeer.announces {opt : TlsOptions} (h : P2pPeer opt) {proto : Nat}
    (hpr : extractIvProto (some (pushPeerInfo opt)) = proto) :
    proto.testBit IV_PROTO_NCP_P2P = true ∧ proto.testBit IV_PROTO_DATA_V2 = true ∧
      proto.testBit IV_PROTO_CC_EXIT_NOTIFY = true ∧
      proto.testBit IV_PROTO_DATA_EPOCH = opt.dataEpochSupported ∧
      proto.testBit IV_PROTO_TLS_KEY_EXPORT = opt.haveExportKeyingMaterial ∧
      proto.testBit IV_PROTO_DYN_TLS_CRYPT = opt.haveExportKeyingMaterial := by
  rw [← hpr, pushPeerInfo_proto h.detail h.fits h.texts]
  simp only [testBit_protoBits]
  rw [ivProtoBits, h.pull, h.mode]
  cases opt.dataEpochSupported <;> cases opt.haveExportKeyingMaterial <;> decide

theorem P2pPeer.negotiates {opt : TlsOptions} (h : P2pPeer opt) :
    negotiates (some (pushPeerInfo opt)) = true :=
  (h.announces rfl).1

/-- The flags two peers use together, with the cipher `c`. -/
def commonFlags (lib : CipherLib) (opt opt' : TlsOptions) (c : Option Bytes) : P2pFlags :=
  ⟨true, true, opt.dataEpochSupported && opt'.dataEpochSupported && c.any lib.cipherKtModeAead,
    opt.haveExportKeyingMaterial && opt'.haveExportKeyingMaterial,
    opt.haveExportKeyingMaterial && opt'.haveExportKeyingMaterial⟩

theorem commonFlags_comm (lib : CipherLib) (opt opt' : TlsOptions) (c : Option Bytes) :
    commonFlags lib opt opt' c = commonFlags lib opt' opt c := by
  simp only [commonFlags, Bool.and_comm opt.dataEpochSupported,
    Bool.and_comm opt.haveExportKeyingMaterial]

theorem requested_eq_common (lib : CipherLib) (opt : TlsOptions) {opt' : TlsOptions}
    (h' : P2pPeer opt') :
    requested lib opt (some (pushPeerInfo opt')) =
      commonFlags lib opt opt' (getP2pNcpCipher opt (some (pushPeerInfo opt'))) := by
  obtain ⟨-, hdata, hexit, hep, hexport, hdyn⟩ := h'.announces rfl
  simp only [requested, epochDecided, hdata, hexit, hep, hexport, hdyn, commonFlags]

/-- **Agreement.** Fed each other's peer info, a TLS server and a TLS client without pull
choose the same cipher, the first one of the server's list that the client's list has,
and the same flags. -/
theorem p2p_negotiation_agrees (lib : CipherLib) (server client : TlsOptions)
    (hserver : P2pPeer server) (hclient : P2pPeer client) (hs : server.server = true)
    (hc : client.server = false) (serverExported clientExported : Option Nat) :
    getP2pNcpCipher server (some (pushPeerInfo client)) =
        (strsep 58 server.configNcpCiphers).find?
          (fun c => tlsItemInCipherList c client.configNcpCiphers) ∧
      getP2pNcpCipher client (some (pushPeerInfo server)) =
        getP2pNcpCipher server (some (pushPeerInfo client)) ∧
      (p2pModeNcp lib client (some (pushPeerInfo server)) clientExported .fresh).flags =
        (p2pModeNcp lib server (some (pushPeerInfo client)) serverExported .fresh).flags := by
  have hchosen : getP2pNcpCipher server (some (pushPeerInfo client)) =
      (strsep 58 server.configNcpCiphers).find?
        (fun c => tlsItemInCipherList c client.configNcpCiphers) := by
    rw [getP2pNcpCipher, pushPeerInfo_ciphers hclient.detail hclient.fits hclient.texts, hs]
    rfl
  have hsame : getP2pNcpCipher client (some (pushPeerInfo server)) =
      getP2pNcpCipher server (some (pushPeerInfo client)) := by
    rw [hchosen, getP2pNcpCipher, pushPeerInfo_ciphers hserver.detail hserver.fits hserver.texts,
      hc]
    rfl
  refine ⟨hchosen, hsame, ?_⟩
  rw [p2pModeNcp_flags, p2pModeNcp_flags, hserver.negotiates, hclient.negotiates, if_pos rfl,
    if_pos rfl, requested_eq_common lib client hserver, requested_eq_common lib server hclient,
    hsame, commonFlags_comm]

/-- A peer with the texts of a plain build. -/
def plainPeer (server : Bool) (ciphers : Bytes) : TlsOptions where
  server := server
  pull := false
  modeServer := false
  pushPeerInfoDetail := 1
  tunMaxMtu := 1500
  dataEpochSupported := true
  configNcpCiphers := ciphers
  haveExportKeyingMaterial := true
  packageVersion := ascii "2.7"
  compVars := []
  hwaddr := none
  sslLibraryVersion := []
  platVer := []
  env := []

theorem p2p_negotiation_agrees_plain :
    getP2pNcpCipher (plainPeer false (ascii "AES-128-GCM:AES-256-GCM"))
        (some (pushPeerInfo (plainPeer true (ascii "AES-256-GCM:AES-128-GCM")))) =
      some (ascii "AES-256-GCM") := by
  have hserver : P2pPeer (plainPeer true (ascii "AES-256-GCM:AES-128-GCM")) :=
    ⟨rfl, rfl, by decide, by unfold PeerInfoFits; decide +kernel, by decide +kernel, by decide⟩
  have hclient : P2pPeer (plainPeer false (ascii "AES-128-GCM:AES-256-GCM")) :=
    ⟨rfl, rfl, by decide, by unfold PeerInfoFits; decide +kernel, by decide +kernel, by decide⟩
  have hagree := p2p_negotiation_agrees defaultLib _ _ hserver hclient rfl rfl none none
  rw [hagree.2.1, hagree.1]
  decide +kernel

/-- **A list that looks like a variable.** The name `IV_PROTO=2` in the server's list is found
before the server's own `IV_PROTO`; the client takes the server for one that does not
negotiate, and they disagree on the use of peer ids. -/
theorem variable_in_list_found :
    (p2pModeNcp defaultLib (plainPeer false (ascii "AES-256-GCM"))
        (some (pushPeerInfo (plainPeer true (ascii "AES-256-GCM:IV_PROTO=2")))) none .fresh).flags =
      .none ∧
    (p2pModeNcp defaultLib (plainPeer true (ascii "AES-256-GCM:IV_PROTO=2"))
        (some (pushPeerInfo (plainPeer false (ascii "AES-256-GCM")))) none .fresh).flags =
      ⟨true, true, true, true, true⟩ ∧
    PeerInfoFits (plainPeer true (ascii "AES-256-GCM:IV_PROTO=2")) := by
  unfold PeerInfoFits
  decide +kernel

/-! ## One peer after the other -/

section History

variable (lib : CipherLib) (opt : TlsOptions)

/-- A peer: its info, and the peer id the keying material of its session gives. -/
structure P2pVisit where
  peerInfo : Option Bytes
  exported : Option Nat
  deriving DecidableEq

def p2pVisit (s : P2pState) (v : P2pVisit) : P2pState :=
  p2pModeNcp lib opt v.peerInfo v.exported s

/-- The data format the last peer that negotiated has left. -/
def epochLeft (visits : List P2pVisit) : Bool :=
  ((visits.filter fun v => negotiates v.peerInfo).getLast?).any fun v =>
    (requested lib opt v.peerInfo).epochDataKeyFormat

/-- The flags after some peers. -/
def leftFlags (visits : List P2pVisit) : P2pFlags :=
  ⟨visits.any fun v => (granted lib opt v.peerInfo).usePeerId,
    visits.any fun v => (granted lib opt v.peerInfo).useCcExitNotify,
    epochLeft lib opt visits,
    visits.any fun v => (granted lib opt v.peerInfo).useTlsKeyMaterialExport,
    visits.any fun v => (granted lib opt v.peerInfo).useDynamicTlsCrypt⟩

variable {lib opt}

theorem p2pVisit_flags (s : P2pState) (v : P2pVisit) :
    (p2pVisit lib opt s v).flags =
      if negotiates v.peerInfo then s.flags.update (granted lib opt v.peerInfo) else s.flags := by
  rw [p2pVisit, p2pModeNcp_flags, granted]
  split <;> rfl

theorem epochLeft_concat (visits : List P2pVisit) (v : P2pVisit) :
    epochLeft lib opt (visits ++ [v]) =
      if negotiates v.peerInfo then (requested lib opt v.peerInfo).epochDataKeyFormat
      else epochLeft lib opt visits := by
  unfold epochLeft
  by_cases h : negotiates v.peerInfo = true
  · simp [h]
  · simp [h]

theorem foldl_p2pVisit_flags (visits : List P2pVisit) :
    (visits.foldl (p2pVisit lib opt) .fresh).flags = leftFlags lib opt visits := by
  induction visits using reverseRecOn with
  | nil => rfl
  | append_singleton visits v ih =>
    rw [foldl_append, foldl_cons, foldl_nil, p2pVisit_flags, ih]
    by_cases h : negotiates v.peerInfo = true
    · simp [h, leftFlags, epochLeft_concat, granted, P2pFlags.update]
    · simp [h, leftFlags, epochLeft_concat, granted, P2pFlags.none]

/-- **Histories.** The flags of an endpoint are those its last peer alone would leave
if and only if that peer asks for every flag an earlier one was granted, and either
negotiates itself or finds the old data format. -/
theorem p2p_flags_current_iff (lib : CipherLib) (opt : TlsOptions) (visits : List P2pVisit)
    (last : P2pVisit) :
    ((visits ++ [last]).foldl (p2pVisit lib opt) .fresh).flags =
        (p2pVisit lib opt .fresh last).flags ↔
      (∀ v ∈ visits, (granted lib opt last.peerInfo).Covers (granted lib opt v.peerInfo)) ∧
        (negotiates last.peerInfo = true ∨ epochLeft lib opt visits = false) := by
  have halone : (p2pVisit lib opt .fresh last).flags = granted lib opt last.peerInfo := by
    rw [p2pVisit_flags, granted]
    split <;> rfl
  have hany : ∀ (p : P2pVisit → Bool) (b : Bool), ((visits.any p || b) = b) ↔
      ∀ v ∈ visits, p v = true → b = true := by
    intro p b
    cases b <;> simp
  have hepoch : epochLeft lib opt (visits ++ [last]) =
        (granted lib opt last.peerInfo).epochDataKeyFormat ↔
      negotiates last.peerInfo = true ∨ epochLeft lib opt visits = false := by
    rw [epochLeft_concat, granted]
    by_cases h : negotiates last.peerInfo = true
    · simp [h]
    · simp [h, P2pFlags.none]
  rw [foldl_p2pVisit_flags, halone]
  rw [P2pFlags.ext_iff]
  simp only [leftFlags, hepoch, any_append, any_cons, any_nil, Bool.or_false, hany, P2pFlags.Covers]
  constructor
  · intro ⟨hid, hexit, hformat, hexport, hdyn⟩
    exact ⟨fun v hv => ⟨hid v hv, hexit v hv, hexport v hv, hdyn v hv⟩, hformat⟩
  · intro ⟨hcovers, hformat⟩
    exact ⟨fun v hv => (hcovers v hv).1, fun v hv => (hcovers v hv).2.1, hformat,
      fun v hv => (hcovers v hv).2.2.1, fun v hv => (hcovers v hv).2.2.2⟩

/-- Keying-material export that the first peer has asked for is used with the second
one, which cannot do it. -/
theorem export_flag_survives :
    ([⟨some (ascii "IV_CIPHERS=AES-256-GCM\nIV_PROTO=42\n"), none⟩,
        ⟨some (ascii "IV_CIPHERS=AES-256-GCM\nIV_PROTO=34\n"), none⟩].foldl
        (p2pVisit defaultLib (plainPeer true (ascii "AES-256-GCM"))) .fresh).flags =
      ⟨true, false, false, true, false⟩ ∧
    (p2pVisit defaultLib (plainPeer true (ascii "AES-256-GCM")) .fresh
        ⟨some (ascii "IV_CIPHERS=AES-256-GCM\nIV_PROTO=34\n"), none⟩).flags =
      ⟨true, false, false, false, false⟩ := by
  decide +kernel

end History

end OpenVpn
