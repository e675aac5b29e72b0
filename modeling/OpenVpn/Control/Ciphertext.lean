import OpenVpn.Control.TlsCrypt
import OpenVpn.Control.Window

/-!
# Splitting TLS ciphertext into control packets (`ssl.c`)

What the TLS library wants to send is cut into pieces that fit a control packet, and
each piece takes a slot of the send array. How much the library may write at once is
computed before, from the number of free slots. A packet that carries the wrapped
client key has less room.

* `writeOutgoingTlsCiphertext` — the function; `splitCiphertext` is its loop.
* `splitCapacity` — what the free slots can carry.
* `splitCiphertext_spec` — the loop queues all it was given.
* `ciphertext_is_queued` — the function as a whole.
-/

namespace OpenVpn

open Base List Nat Int

def TLS_CHANNEL_BUF_SIZE : Nat := 2048
def TLS_CHANNEL_MTU_MIN : Nat := 154
def TLS_RELIABLE_N_SEND_BUFFERS : Nat := 6
def OPENVPN_MAX_HMAC_SIZE : Nat := 64

/-! ## Frame parameters -/

/-- `struct frame`, as far as the control channel uses it. -/
structure ControlFrame where
  payloadSize : Nat
  headroom : Nat
  tailroom : Nat
  tunMtu : Int

def ControlFrame.bufSize (frame : ControlFrame) : Nat :=
  frame.headroom + frame.payloadSize + frame.tailroom

def tlsCryptBufOverhead : Nat := TLS_CRYPT_PID_SIZE + TLS_CRYPT_TAG_SIZE + TLS_CRYPT_BLOCK_SIZE

def tlsInitControlChannelFrameParameters (tlsMtu : Int) : ControlFrame :=
  let overhead := 10 + max tlsCryptBufOverhead (TLS_CRYPT_PID_SIZE + OPENVPN_MAX_HMAC_SIZE) + 3 +
    ackSize RELIABLE_ACK_SIZE
  { payloadSize := (max 1500 tlsMtu + 100).toNat
    headroom := overhead
    tailroom := overhead
    tunMtu := max (min tlsMtu TLS_CHANNEL_BUF_SIZE) TLS_CHANNEL_MTU_MIN }

/-- The send array of a new key, as `key_state_init` makes it. -/
def sendReliableInit (frame : ControlFrame) (hold : Bool) : Option Reliable :=
  reliableInit frame.bufSize frame.headroom TLS_RELIABLE_N_SEND_BUFFERS hold

/-! ## The function -/

/-- What the function reads of the session: the frame, the overhead of a control packet,
the flag `CO_RESEND_WKC` and the length of the wrapped client key. -/
structure SplitOptions where
  frame : ControlFrame
  overhead : Nat
  resendWkc : Bool
  wkcLen : Nat

/-- What the TLS library answers. -/
inductive TlsRead
  | error
  | nothing
  | data (ciphertext : Bytes)
  deriving DecidableEq

def controlPacketNeedsWkc (opt : SplitOptions) (rel : Reliable) : Bool :=
  opt.resendWkc && rel.packetId == 1#32

/-- `maxlen` and `max_pkt_len` when the library is asked. -/
def splitLimits (opt : SplitOptions) (rel : Reliable) (relAvail : Int) : Int × Int :=
  let maxPktLen := min (TLS_CHANNEL_BUF_SIZE : Int) opt.frame.tunMtu - opt.overhead
  let maxlen := maxPktLen * relAvail - if controlPacketNeedsWkc opt rel then opt.wkcLen else 0
  -- a packet is sent even if the limits leave no room for it
  if maxlen < 16 then (16, TLS_CHANNEL_BUF_SIZE) else (maxlen, maxPktLen)

/-- The payload of the next packet. -/
def pieceLen (opt : SplitOptions) (maxPktLen : Int) (rel : Reliable) (tmp : Bytes) : Nat :=
  (min (if controlPacketNeedsWkc opt rel then max 0 (maxPktLen - opt.wkcLen) else maxPktLen)
    tmp.length).toNat

def pieceOpcode (opt : SplitOptions) (rel : Reliable) : Nat :=
  if controlPacketNeedsWkc opt rel then P_CONTROL_WKC_V1 else P_CONTROL_V1

/-- The loop over the ciphertext. It aborts if there is no slot, or no fuel. -/
def splitCiphertext (opt : SplitOptions) (maxPktLen : Int) :
    (fuel : Nat) → Reliable → Bytes → Option Reliable
  | 0, _, _ => none
  | fuel + 1, rel, tmp =>
    if tmp = [] then some rel
    else
      match queueOutgoing rel (pieceOpcode opt rel) (tmp.take (pieceLen opt maxPktLen rel tmp)) with
      | some (rel', some _) =>
        splitCiphertext opt maxPktLen fuel rel' (tmp.drop (pieceLen opt maxPktLen rel tmp))
      | _ => none

/-- `write_outgoing_tls_ciphertext`: the send array, the result and
`continue_tls_process`. -/
def writeOutgoingTlsCiphertext (opt : SplitOptions) (read : Nat → TlsRead) (fuel : Nat)
    (rel : Reliable) : Option (Reliable × Bool × Bool) :=
  let relAvail := reliableGetNumOutputSequencedAvailable rel
  if relAvail = 0 then some (rel, true, false)
  else
    let limits := splitLimits opt rel relAvail
    match allocBuf limits.1.toNat with
    | none => none
    | some _ =>
      match read limits.1.toNat with
      | .error => some (rel, false, false)
      | .nothing => some (rel, true, false)
      | .data ciphertext =>
        (splitCiphertext opt limits.2 fuel rel ciphertext).map
          (·, true, decide (ciphertext ≠ []))

/-! ## What the packets carry -/

variable {opt : SplitOptions} {rel rel' rel'' : Reliable} {n room L k : Nat} {tmp : Bytes}

/-- The payloads stand in slots of the array, under the ids from the next one on. -/
structure QueuedInOrder (rel rel' : Reliable) (payloads : List Bytes) : Prop where
  next : rel'.packetId = rel.packetId + BitVec.ofNat 32 payloads.length
  slots : ∀ j x, payloads[j]? = some x → ∃ i e, rel'.ActiveAt i e ∧
    e.packetId = rel.packetId + BitVec.ofNat 32 j ∧ e.buf.contents = htonpid e.packetId ++ x
  kept : ∀ i e, rel.ActiveAt i e → rel'.ActiveAt i e

theorem QueuedInOrder.nil (rel : Reliable) : QueuedInOrder rel rel [] :=
  ⟨(BitVec.add_zero _).symm, nofun, fun _ _ h => h⟩

theorem QueuedInOrder.cons {i : Nat} {x : Bytes} {old e : ReliableEntry}
    {payloads : List Bytes} (h : Queued rel rel' i x old e)
    (h' : QueuedInOrder rel' rel'' payloads) : QueuedInOrder rel rel'' (x :: payloads) := by
  constructor
  · rw [h'.next, h.next, length_cons, BitVec.add_assoc, Nat.add_comm, BitVec.ofNat_add]
    rfl
  · intro j y hj
    cases j with
    | zero =>
      cases hj
      have hact := h'.kept i e ((h.activeAt_iff i e).mpr (.inr ⟨rfl, rfl⟩))
      refine ⟨i, e, hact, ?_, ?_⟩
      · rw [h.entry.2]
        exact (BitVec.add_zero _).symm
      · rw [h.contents, h.entry.2]
    | succ j =>
      obtain ⟨i', e', hact, hid, hcon⟩ := h'.slots j y hj
      refine ⟨i', e', hact, ?_, hcon⟩
      rw [hid, h.next, BitVec.add_assoc, Nat.add_comm j 1, BitVec.ofNat_add]
      rfl
  · intro j f hj
    exact h'.kept j f ((h.activeAt_iff j f).mpr (.inl hj))

/-- What `k` packets carry, of which only the next one may have the key appended. -/
def splitCapacity (opt : SplitOptions) (L : Nat) (rel : Reliable) (k : Nat) : Nat :=
  if controlPacketNeedsWkc opt rel ∧ 0 < k then (L - opt.wkcLen) + L * (k - 1) else L * k

/-- Among the next `k` packets none but the first has the key appended. -/
def WkcNotLater (opt : SplitOptions) (rel : Reliable) (k : Nat) : Prop :=
  opt.resendWkc = true → rel.packetId = 1#32 ∨ k ≤ (1#32 - rel.packetId).toNat

theorem pieceLen_eq (opt : SplitOptions) (L : Nat) (rel : Reliable) (tmp : Bytes) :
    pieceLen opt L rel tmp =
      min (if controlPacketNeedsWkc opt rel then L - opt.wkcLen else L) tmp.length := by
  unfold pieceLen
  split
  · omega
  · omega

theorem wkcNotLater_next (h : WkcNotLater opt rel (k + 1)) (hk : k < 2 ^ 31)
    (hnext : rel'.packetId = rel.packetId + 1) :
    WkcNotLater opt rel' k ∧ (controlPacketNeedsWkc opt rel' = true → k = 0) := by
  have hdist : opt.resendWkc = true → k ≤ (1#32 - rel'.packetId).toNat := by
    intro hresend
    rw [hnext]
    rcases h hresend with heq | hle
    · rw [heq]
      exact le_trans (le_of_lt hk) (by decide)
    · bv_omega
  refine ⟨fun hresend => .inr (hdist hresend), ?_⟩
  intro hneeds
  obtain ⟨hresend, hid⟩ := Bool.and_eq_true_iff.mp hneeds
  have hle := hdist hresend
  rw [beq_iff_eq.mp hid, BitVec.sub_self] at hle
  exact le_zero.mp hle

theorem length_drop_le_capacity (hfit : tmp.length ≤ splitCapacity opt L rel (k + 1))
    (hlat : controlPacketNeedsWkc opt rel' = true → k = 0) :
    (tmp.drop (pieceLen opt L rel tmp)).length ≤ splitCapacity opt L rel' k := by
  have hcap : splitCapacity opt L rel' k = L * k := by
    unfold splitCapacity
    split
    · rename_i hneeds
      have := hlat hneeds.1
      omega
    · rfl
  rw [hcap, length_drop, pieceLen_eq]
  unfold splitCapacity at hfit
  cases hneeds : controlPacketNeedsWkc opt rel with
  | true =>
    rw [hneeds, if_pos ⟨rfl, Nat.succ_pos k⟩, Nat.add_sub_cancel] at hfit
    rw [if_pos rfl]
    omega
  | false =>
    rw [hneeds, if_neg (fun h => Bool.false_ne_true h.1), mul_succ] at hfit
    rw [if_neg Bool.false_ne_true]
    omega

/-- **The loop.** Ciphertext that the free slots can carry is queued completely, in order,
and the loop comes to its end. -/
theorem splitCiphertext_spec (hn : 0 < n ∧ n < 2 ^ 31) :
    ∀ k rel tmp fuel, SendWindowOk n room rel → rel.span + k = n → k < fuel →
      WkcNotLater opt rel k →
      tmp.length ≤ splitCapacity opt L rel k → min L tmp.length ≤ room →
      min L tmp.length < BUF_SIZE_MAX →
      ∃ rel' payloads, splitCiphertext opt L fuel rel tmp = some rel' ∧ payloads.length ≤ k ∧
        payloads.flatten = tmp ∧ QueuedInOrder rel rel' payloads := by
  intro k
  induction k with
  | zero =>
    intro rel tmp fuel _ _ hfuel _ hfit _ _
    have hnil : tmp = [] := by
      unfold splitCapacity at hfit
      rw [if_neg (fun h => lt_irrefl 0 h.2), mul_zero] at hfit
      exact length_eq_zero_iff.mp (le_zero.mp hfit)
    obtain ⟨fuel, rfl⟩ := exists_eq_succ_of_ne_zero (ne_of_gt hfuel)
    exact ⟨rel, [], if_pos hnil, le_refl 0, hnil.symm, .nil rel⟩
  | succ k ih =>
    intro rel tmp fuel hok hspan hfuel hwkc hfit hroom hmax
    obtain ⟨fuel, rfl⟩ := exists_eq_succ_of_ne_zero (ne_of_gt (zero_lt_of_lt hfuel))
    by_cases hnil : tmp = []
    · exact ⟨rel, [], if_pos hnil, zero_le _, hnil.symm, .nil rel⟩
    have hlen : (tmp.take (pieceLen opt L rel tmp)).length ≤ min L tmp.length := by
      rw [length_take, pieceLen_eq]
      split
      · omega
      · omega
    obtain ⟨rel1, x, i, old, e, hq, hqueued, hcop⟩ := hok.queued hn (by omega)
      (pieceOpcode opt rel) (tmp.take (pieceLen opt L rel tmp))
    have hx := hcop (le_trans hlen hroom) (lt_of_le_of_lt hlen hmax)
    have hspan1 := hqueued.span hok hn.2 (by omega)
    obtain ⟨hwkc1, hlat⟩ := wkcNotLater_next hwkc (by omega) hqueued.next
    have hrest : (tmp.drop (pieceLen opt L rel tmp)).length ≤ tmp.length := by
      rw [length_drop]
      omega
    obtain ⟨rel', payloads, hspl, hcnt, hflat, hord⟩ := ih rel1 _ fuel
      (hqueued.windowOk hok hn.2 (by omega)) (by omega) (lt_of_succ_lt_succ hfuel) hwkc1
      (length_drop_le_capacity hfit hlat) (by omega) (by omega)
    refine ⟨rel', x :: payloads, ?_, succ_le_succ hcnt, ?_, hord.cons hqueued⟩
    · rw [splitCiphertext, if_neg hnil, hq]
      exact hspl
    · rw [flatten_cons, hflat, hx, take_append_drop]

/-! ## The function as a whole -/

/-- The key that is appended to the next packet. -/
def appendedLen (opt : SplitOptions) (rel : Reliable) : Nat :=
  if controlPacketNeedsWkc opt rel then opt.wkcLen else 0

theorem splitLimits_eq (opt : SplitOptions) (rel : Reliable) (relAvail : Int) :
    splitLimits opt rel relAvail =
      if (min (TLS_CHANNEL_BUF_SIZE : Int) opt.frame.tunMtu - opt.overhead) * relAvail -
          appendedLen opt rel < 16 then (16, (TLS_CHANNEL_BUF_SIZE : Int))
      else ((min (TLS_CHANNEL_BUF_SIZE : Int) opt.frame.tunMtu - opt.overhead) * relAvail -
          appendedLen opt rel,
          min (TLS_CHANNEL_BUF_SIZE : Int) opt.frame.tunMtu - opt.overhead) := by
  unfold splitLimits appendedLen
  cases controlPacketNeedsWkc opt rel with
  | true => rfl
  | false => rfl

theorem le_splitCapacity {m : Nat} (h : m + appendedLen opt rel ≤ L * (k + 1)) :
    m ≤ splitCapacity opt L rel (k + 1) := by
  unfold splitCapacity appendedLen at *
  rw [mul_succ] at *
  cases hneeds : controlPacketNeedsWkc opt rel with
  | true =>
    rw [hneeds, if_pos rfl] at h
    rw [if_pos ⟨rfl, Nat.succ_pos k⟩, Nat.add_sub_cancel]
    omega
  | false =>
    rw [hneeds, if_neg Bool.false_ne_true] at h
    rw [if_neg (fun h => Bool.false_ne_true h.1)]
    exact h

theorem splitLimits_capacity (opt : SplitOptions) (rel : Reliable) (k : Nat)
    (hwkc : opt.wkcLen ≤ 1024) (hc : tmp.length ≤ (splitLimits opt rel (k + 1 : Nat)).1.toNat) :
    ∃ L : Nat, (splitLimits opt rel (k + 1 : Nat)).2 = L ∧
      tmp.length ≤ splitCapacity opt L rel (k + 1) ∧
      ((min L tmp.length : Nat) : Int) ≤
        max 16 (min (TLS_CHANNEL_BUF_SIZE : Int) opt.frame.tunMtu) := by
  rw [splitLimits_eq] at hc ⊢
  have happended : appendedLen opt rel ≤ 1024 := by
    unfold appendedLen
    split
    · exact hwkc
    · omega
  generalize hM : min (TLS_CHANNEL_BUF_SIZE : Int) opt.frame.tunMtu - opt.overhead = M at hc ⊢
  by_cases hsm : M * (k + 1 : Nat) - appendedLen opt rel < 16
  · rw [if_pos hsm] at hc ⊢
    have hsh : tmp.length ≤ 16 := hc
    refine ⟨TLS_CHANNEL_BUF_SIZE, rfl, le_splitCapacity ?_, by omega⟩
    have : TLS_CHANNEL_BUF_SIZE ≤ TLS_CHANNEL_BUF_SIZE * (k + 1) :=
      Nat.le_mul_of_pos_right _ (Nat.succ_pos k)
    unfold TLS_CHANNEL_BUF_SIZE at *
    omega
  · rw [if_neg hsm] at hc ⊢
    -- the limit is positive, since a multiple of it is
    have hpos : 0 < M := by
      by_contra hneg
      have := Int.mul_nonpos_of_nonpos_of_nonneg (Int.not_lt.mp hneg) (Int.natCast_nonneg (k + 1))
      omega
    obtain ⟨L, rfl⟩ := eq_ofNat_of_zero_le (le_of_lt hpos)
    have hprod : ((L : Int)) * ((k + 1 : Nat) : Int) = ((L * (k + 1) : Nat) : Int) := by
      rw [natCast_mul]
    rw [hprod] at hc hsm
    exact ⟨L, rfl, le_splitCapacity (by dsimp only at hc; omega), by omega⟩

theorem controlFrame_room (tlsMtu : Int) :
    max 16 (min (TLS_CHANNEL_BUF_SIZE : Int) (tlsInitControlChannelFrameParameters tlsMtu).tunMtu) ≤
      ((tlsInitControlChannelFrameParameters tlsMtu).bufSize -
        (tlsInitControlChannelFrameParameters tlsMtu).headroom : Nat) := by
  unfold ControlFrame.bufSize tlsInitControlChannelFrameParameters TLS_CHANNEL_BUF_SIZE
    TLS_CHANNEL_MTU_MIN
  dsimp only
  omega

theorem splitLimits_lt (opt : SplitOptions) (rel : Reliable) {a : Nat} (ha : a ≤ 6) :
    (splitLimits opt rel a).1.toNat < BUF_SIZE_MAX := by
  rw [splitLimits_eq]
  split
  · decide
  · have hle : min (TLS_CHANNEL_BUF_SIZE : Int) opt.frame.tunMtu - opt.overhead ≤ 2048 := by
      unfold TLS_CHANNEL_BUF_SIZE
      omega
    have := Int.mul_le_mul_of_nonneg_right hle (Int.natCast_nonneg a)
    unfold BUF_SIZE_MAX
    dsimp only
    omega

/-- **Ciphertext is sent completely.** Whatever the library returns into the buffer it
was offered is put into the free slots, in order. -/
theorem ciphertext_is_queued (tlsMtu : Int) (overhead wkcLen : Nat) (resendWkc hold : Bool)
    (opt : SplitOptions)
    (hopt : opt = ⟨tlsInitControlChannelFrameParameters tlsMtu, overhead, resendWkc, wkcLen⟩)
    (hwkc : wkcLen ≤ 1024) (rel₀ : Reliable) (hinit : sendReliableInit opt.frame hold = some rel₀)
    (events : List SendEvent) (rel : Reliable) (handed : List (Option Bytes))
    (hrun : run sendStep rel₀ events = some (rel, handed)) (a : Nat)
    (havail : reliableGetNumOutputSequencedAvailable rel = a) (hpos : 0 < a)
    (hlater : WkcNotLater opt rel a) (read : Nat → TlsRead)
    (hread : ∀ m c, read m = .data c → c.length ≤ m) (fuel : Nat) (hfuel : a < fuel) :
    ∃ rel' ok more, writeOutgoingTlsCiphertext opt read fuel rel = some (rel', ok, more) ∧
      ∀ c, read (splitLimits opt rel a).1.toNat = .data c →
        ok = true ∧ ∃ payloads, payloads.length ≤ a ∧ payloads.flatten = c ∧
          QueuedInOrder rel rel' payloads := by
  have hframe : opt.frame = tlsInitControlChannelFrameParameters tlsMtu := by rw [hopt]
  obtain ⟨hok, hn⟩ := sendWindowOk_run hinit (by rw [hframe]; exact (by decide : 4 ≤ 126)) hrun
  obtain ⟨hspan, hcount⟩ := hok.available hn.2
  have ha : a = TLS_RELIABLE_N_SEND_BUFFERS - rel.span := by
    rw [havail] at hcount
    exact ofNat.inj hcount
  have hroom := controlFrame_room tlsMtu
  rw [← hframe] at hroom
  obtain ⟨k, rfl⟩ := exists_eq_succ_of_ne_zero (ne_of_gt hpos)
  obtain ⟨buf, halloc, -⟩ := allocBuf_isSome (splitLimits_lt opt rel (a := k + 1)
    (by unfold TLS_RELIABLE_N_SEND_BUFFERS at ha; omega))
  unfold writeOutgoingTlsCiphertext
  dsimp only
  rw [havail, if_neg (by omega), halloc]
  dsimp only
  cases hlib : read (splitLimits opt rel (k + 1 : Nat)).1.toNat with
  | error => exact ⟨rel, false, false, rfl, nofun⟩
  | nothing => exact ⟨rel, true, false, rfl, nofun⟩
  | data c =>
    obtain ⟨L, hL, hfit, hshort⟩ := splitLimits_capacity opt rel k
      (by rw [hopt]; exact hwkc) (hread _ c hlib)
    obtain ⟨rel', payloads, hsplit, hlen, hflat, horder⟩ := splitCiphertext_spec hn (k + 1) rel c
      fuel hok (by omega) hfuel hlater hfit (by omega)
      (by unfold BUF_SIZE_MAX; unfold TLS_CHANNEL_BUF_SIZE at hshort; omega)
    refine ⟨rel', true, decide (c ≠ []), ?_, ?_⟩
    · dsimp only
      rw [hL, hsplit]
      rfl
    · intro c' hc'
      cases hc'
      exact ⟨rfl, payloads, hlen, hflat, horder⟩

/-- A session with the smallest MTU and a wrapped key of 290 bytes that has to be sent
again. -/
def smallPackets : SplitOptions := ⟨tlsInitControlChannelFrameParameters 154, 142, true, 290⟩

/-- Six free slots. -/
def sixFree : Reliable := Reliable.cleared ⟨1852, 126, [], by decide⟩ 126 6 false

/-- A library that fills the buffer it gets. -/
def fillBuffer (m : Nat) : TlsRead := .data (replicate m 7)

/-- The array after the reset packet was sent and acknowledged. -/
def resetAcknowledged : Reliable :=
  ((run sendStep sixFree [.queue 7 [], .purge ⟨[0], by decide⟩]).map Prod.fst).getD sixFree

theorem ciphertext_is_queued_after_reset :
    ∃ rel' ok more, writeOutgoingTlsCiphertext smallPackets fillBuffer 7 resetAcknowledged =
        some (rel', ok, more) ∧
      ∀ c, fillBuffer (splitLimits smallPackets resetAcknowledged 6).1.toNat = .data c →
        ok = true ∧ ∃ payloads, payloads.length ≤ 6 ∧ payloads.flatten = c ∧
          QueuedInOrder resetAcknowledged rel' payloads :=
  ciphertext_is_queued 154 142 290 true false smallPackets rfl (by decide) sixFree rfl
    [.queue 7 [], .purge ⟨[0], by decide⟩] resetAcknowledged [some [], none] rfl 6 (by decide)
    (by decide) (fun _ => .inl (by decide)) fillBuffer
    (fun m c h => by cases h; exact le_of_eq length_replicate) 7 (by decide)

/-- The second packet of a new array has the key appended and carries nothing, so that
the six slots do not hold what the library was offered. -/
theorem offered_too_much :
    reliableGetNumOutputSequencedAvailable sixFree = 6 ∧
      ∀ fuel, writeOutgoingTlsCiphertext smallPackets fillBuffer fuel sixFree = none := by
  refine ⟨by decide, ?_⟩
  intro fuel
  match fuel with
  | 0 | 1 | 2 | 3 | 4 | 5 | 6 => rfl
  | fuel + 7 => rfl

end OpenVpn
