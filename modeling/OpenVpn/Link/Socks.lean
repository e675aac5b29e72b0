import OpenVpn.Base.CString
import OpenVpn.Packet.Proto

/-!
# Requests to a SOCKS5 proxy

A client behind a proxy sends it the name and the port of the server, with the length of the
name in one byte.

* `socks_request_decodes_iff` — the proxy reads the destination if the name has at most 255
  bytes and the port was a number: the port of a service is in network byte order.
-/

namespace OpenVpn

open Base List UInt8 Nat

/-- `atoi` of the GNU C library: `strtol`, which saturates, cut to an `int`. -/
def atoi (s : Bytes) : Int :=
  let s := s.dropWhile isspace
  let value (digits : Bytes) : Int := decimalValue (digits.takeWhile isdigit)
  let v := match s with
    | 45 :: s => max (-value s) (-2 ^ 63)
    | 43 :: s => min (value s) (2 ^ 63 - 1)
    | s => min (value s) (2 ^ 63 - 1)
  v.bmod (2 ^ 32)

/-- The database of `getservbyname`. -/
structure Services where
  port : Bytes → Option Nat
  range : ∀ name p, port name = some p → 0 < p ∧ p < 65536

variable (e : Endian) (services : Services) (host servname : Bytes)

def IsPort (servname : Bytes) : Prop := 0 < atoi servname ∧ atoi servname < 65536

instance : Decidable (IsPort servname) := inferInstanceAs (Decidable (_ ∧ _))

/-- `s_port` is in network byte order. -/
def portFromServname : Nat :=
  if IsPort servname then (atoi servname).toNat
  else match services.port servname with
    | some p => e.hton p
    | none => 0

def servicePort : Option Nat :=
  if IsPort servname then some (atoi servname).toNat else services.port servname

def SOCKS_BUF_SIZE : Nat := 270

/-- The request that `establish_socks_proxy_passthru` sends, if it does. -/
def socksConnectRequest : Option Bytes :=
  let len := if SOCKS_BUF_SIZE < 5 + host.length + 2 then SOCKS_BUF_SIZE - 5 - 2 else host.length
  let port := portFromServname e services servname
  if port = 0 then none
  else some ([5, 1, 0, 3, ofNat len] ++ host.take len ++
    [ofNat (port / 256), ofNat port])

/-- The destination that a proxy reads (RFC 1928). -/
def socksDecode (m : Bytes) : Option (Bytes × Nat) :=
  let n := (m.getD 4 0).toNat
  if m.take 4 = [5, 1, 0, 3] ∧ n + 7 ≤ m.length then some ((m.drop 5).take n, fieldAt m (5 + n))
  else none

variable {e services host servname} {port : Nat}

theorem portFromServname_eq (h : servicePort services servname = some port) :
    portFromServname e services servname = (if IsPort servname then port else e.hton port) ∧
      0 < port ∧ port < 65536 := by
  unfold servicePort at h
  unfold portFromServname
  split at h
  case isTrue hnum =>
    obtain ⟨hpos, hlt⟩ := hnum
    cases h
    simp only [IsPort, hpos, hlt, and_self, if_true, true_and]
    omega
  case isFalse hnum =>
    simp only [hnum, if_false, h]
    exact ⟨trivial, services.range servname port h⟩

theorem hton_pos (hpos : 0 < port) (hlt : port < 65536) :
    0 < e.hton port ∧ e.hton port < 65536 := by
  refine ⟨?_, e.word_lt _ _⟩
  unfold Endian.hton Endian.word
  cases e <;> simp only [toNat_ofNat'] <;> omega

/-- A request as the proxy reads it. -/
theorem socksDecode_request {m : Bytes} {n : UInt8} (hn : n.toNat + 2 ≤ m.length) :
    socksDecode ([5, 1, 0, 3, n] ++ m) = some (m.take n.toNat, fieldAt m n.toNat) := by
  have hfld : fieldAt m n.toNat = fieldAt ([5, 1, 0, 3, n] ++ m) (5 + n.toNat) :=
    fieldAt_drop ([5, 1, 0, 3, n] ++ m) 5 n.toNat
  rw [hfld]
  exact if_pos ⟨rfl, Nat.add_le_add_right hn 5⟩

/-- **The SOCKS5 request** names the destination exactly if the name fits its length byte and
the port is read as it is meant. -/
theorem socks_request_decodes_iff (e : Endian) (services : Services) (host servname : Bytes)
    {port : Nat} (hport : servicePort services servname = some port) :
    (∀ m, socksConnectRequest e services host servname = some m →
      socksDecode m = some (host, port)) ↔
      host.length < 256 ∧ (IsPort servname ∨ e.hton port = port) := by
  obtain ⟨heq, hpos, hlt⟩ := portFromServname_eq (e := e) hport
  have hton := hton_pos (e := e) hpos hlt
  generalize hsent : portFromServname e services servname = sent at heq
  have hrange : 0 < sent ∧ sent < 65536 := by split at heq <;> omega
  have hread : sent = port ↔ IsPort servname ∨ e.hton port = port := by
    by_cases hnum : IsPort servname <;> simp_all
  rw [← hread]
  unfold socksConnectRequest
  rw [hsent, if_neg (by omega)]
  simp only [Option.some.injEq, forall_eq', append_assoc]
  have hname : ∃ len, (if SOCKS_BUF_SIZE < 5 + host.length + 2 then SOCKS_BUF_SIZE - 5 - 2
      else host.length) = len ∧ len ≤ host.length ∧ (host.length < 256 → len = host.length) := by
    refine ⟨_, rfl, ?_⟩
    unfold SOCKS_BUF_SIZE
    split <;> omega
  obtain ⟨len, hcut, hle, heqlen⟩ := hname
  rw [hcut, socksDecode_request]
  · by_cases hlen : host.length < 256
    · have hbyte : (ofNat host.length).toNat = host.length := by
        rw [toNat_ofNat', mod_eq_of_lt hlen]
      have hfield : fieldAt (host ++ [ofNat (sent / 256), ofNat sent]) host.length =
          sent := by
        simp [fieldAt]
        omega
      rw [heqlen hlen, take_length, hbyte, hfield, take_left]
      simp [hlen]
    · -- the length byte is less than the length of the name
      simp only [hlen, false_and, iff_false]
      intro h
      have hname := congrArg length (Prod.ext_iff.mp (Option.some.inj h)).1
      have hn := toNat_lt (ofNat len)
      rw [length_take] at hname
      dsimp only at hname
      omega
  · have hbyte : (ofNat len).toNat ≤ len := by
      rw [toNat_ofNat']
      exact mod_le _ _
    rw [length_append, length_take, min_eq_left hle]
    exact Nat.add_le_add_right hbyte 2

/-- A database with one service. -/
def httpsOnly : Services where
  port name := if name = ascii "https" then some 443 else none
  range := by grind

theorem socks_request_port_443 : socksDecode ([5, 1, 0, 3, 1] ++ [97] ++ [1, 187]) =
    some ([97], 443) :=
  (socks_request_decodes_iff .little httpsOnly [97] (ascii "443") rfl).mpr
    ⟨by decide, .inl (by decide)⟩ _ rfl

/-- The service is looked up, and the bytes of the port 443 are swapped. -/
theorem socks_service_port_swapped : servicePort httpsOnly (ascii "https") = some 443 ∧
    ∃ m, socksConnectRequest .little httpsOnly [97] (ascii "https") = some m ∧
      socksDecode m = some ([97], 47873) :=
  ⟨rfl, _, rfl, rfl⟩

end OpenVpn
