import Mathlib.Data.List.Basic
import OpenVpn.Base.Recency
import OpenVpn.Util.Buffer

/-!
# Acknowledgement records of the control channel

`struct reliable_ack` and the functions of `reliable.c` that read and write the
record a control packet starts with: a count, that many packet ids, and, when
the count is not zero, the session id of the peer the ids are meant for.

* `reliableAckParse`, `reliableAckRead` — reading a record.
* `copyAcksToMru`, `reliableAckWrite` — writing one; ids already sent stay in a
  most-recently-used list and are sent again while there is room.
* `reliableAckParse_record` — a record that was written is read back.
* `copy_acks_to_mru_recent` — what the recent list holds.
* `reliableAckWrite_cases` — a written record names only pending and recent ids.
* `ack_write_parse` — a written record is read back, the new ids first; what is not a
  record for the session is not accepted.
-/

namespace OpenVpn

open Base List UInt8

/-- `packet_id_type`, a 32-bit counter that wraps around. -/
abbrev PacketIdType := BitVec 32

def SID_SIZE : Nat := 8

structure SessionId where
  id : Bytes
  size : id.length = SID_SIZE
  deriving DecidableEq

def xSessionIdZero : SessionId := ⟨replicate SID_SIZE 0, length_replicate ..⟩

def sessionIdDefined (sid : SessionId) : Bool := decide (sid ≠ xSessionIdZero)

def sessionIdRead (buf : Bytes) : Option (SessionId × Bytes) :=
  if h : buf.length < SID_SIZE then none
  else some (⟨buf.take SID_SIZE, by rw [length_take]; omega⟩, buf.drop SID_SIZE)

def RELIABLE_ACK_SIZE : Nat := 8

/-- `struct reliable_ack`: packet ids waiting to be acknowledged. -/
structure ReliableAck where
  packetId : List PacketIdType
  len_le : packetId.length ≤ RELIABLE_ACK_SIZE
  deriving DecidableEq

def ReliableAck.empty : ReliableAck := ⟨[], Nat.zero_le _⟩

/-- `ack->packet_id[ack->len++] = pid`. -/
def ReliableAck.push (ack : ReliableAck) (pid : PacketIdType)
    (h : ack.packetId.length < RELIABLE_ACK_SIZE) : ReliableAck :=
  ⟨ack.packetId ++ [pid], by rw [length_append]; exact h⟩

/-! ## Reading -/

/-- `htonpid`, as the four bytes on the wire. -/
def htonpid (pid : PacketIdType) : Bytes := beBytes 4 pid.toNat

def ntohpid (net : Bytes) : PacketIdType := BitVec.ofNat 32 (beNat net)

def reliableAckReadPacketId (buf : Bytes) : Option (PacketIdType × Bytes) :=
  match bufRead buf 4 with
  | none => none
  | some (net, rest) => some (ntohpid net, rest)

/-- The loop of `reliable_ack_parse` over the ids of the record. -/
def reliableAckParseIds : Nat → ReliableAck → Bytes → Option (ReliableAck × Bytes)
  | 0, ack, buf => some (ack, buf)
  | count + 1, ack, buf =>
    match reliableAckReadPacketId buf with
    | none => none
    | some (pid, rest) =>
      if h : ack.packetId.length < RELIABLE_ACK_SIZE then
        reliableAckParseIds count (ack.push pid h) rest
      else none

/-- `reliable_ack_parse`. The session id is written only if the record has ids;
otherwise the caller's value `sidRemote` stays. -/
def reliableAckParse (buf : Bytes) (sidRemote : SessionId) :
    Option (ReliableAck × SessionId × Bytes) :=
  match buf with
  | [] => none
  | count :: buf =>
    match reliableAckParseIds count.toNat ReliableAck.empty buf with
    | none => none
    | some (ack, buf) =>
      if count = 0 then some (ack, sidRemote, buf)
      else
        match sessionIdRead buf with
        | none => none
        | some (sid, buf) => some (ack, sid, buf)

/-- `reliable_ack_read`: the record must be for the session `sid`. -/
def reliableAckRead (buf : Bytes) (sid : SessionId) : Option (ReliableAck × Bytes) :=
  match reliableAckParse buf xSessionIdZero with
  | none => none
  | some (ack, sidRemote, buf) =>
    if 1 ≤ ack.packetId.length ∧ (sessionIdDefined sidRemote = false ∨ sidRemote ≠ sid) then none
    else some (ack, buf)

/-- `reliable_ack_acknowledge_packet_id`: note `pid` for acknowledgement, unless
it is noted already or the list is full. -/
def reliableAckAcknowledgePacketId (ack : ReliableAck) (pid : PacketIdType) : ReliableAck :=
  if h : pid ∉ ack.packetId ∧ ack.packetId.length < RELIABLE_ACK_SIZE then ack.push pid h.2
  else ack

/-! ## Writing -/

/-- The inner loop of `copy_acks_to_mru`: entries move one place to the right,
`move` first, until `id` is moved out. The second result is the entry left over
at the end, `none` if `id` was found. -/
def mruShift (id : PacketIdType) : PacketIdType → List PacketIdType →
    List PacketIdType × Option PacketIdType
  | move, [] => ([], some move)
  | move, tmp :: rest =>
    if tmp = id then (move :: rest, none)
    else (move :: (mruShift id tmp rest).1, (mruShift id tmp rest).2)

theorem mruShift_length (id : PacketIdType) (mru : List PacketIdType) :
    ∀ move, (mruShift id move mru).1.length = mru.length := by
  induction mru with
  | nil => intro move; rfl
  | cons tmp rest ih =>
    intro move
    unfold mruShift
    split
    · rfl
    · simp only [length_cons, ih]

/-- An empty list gets `id` first; the shift then finds it there. -/
def mruStart (mru : ReliableAck) (id : PacketIdType) : ReliableAck :=
  if mru.packetId = [] then ReliableAck.empty.push id (by decide) else mru

/-- One round of `copy_acks_to_mru`. -/
def mruInsert (mru : ReliableAck) (id : PacketIdType) : ReliableAck :=
  let shifted := mruShift id id (mruStart mru id).packetId
  let kept : ReliableAck := ⟨shifted.1, by rw [mruShift_length]; exact (mruStart mru id).len_le⟩
  match shifted.2 with
  | none => kept
  | some move =>
    if h : kept.packetId.length < RELIABLE_ACK_SIZE then kept.push move h else kept

/-- `copy_acks_to_mru`: the first `n` pending ids go to the front of the list,
last one first. -/
def copyAcksToMru (ack mru : ReliableAck) (n : Nat) : Option ReliableAck :=
  if ack.packetId.length < n then none
  else some ((ack.packetId.take n).reverse.foldl mruInsert mru)

/-- The bytes of a record. -/
def ackRecord (ids : List PacketIdType) (sid : SessionId) : Bytes :=
  ofNat ids.length :: (ids.flatMap htonpid ++ if ids = [] then [] else sid.id)

def ackSize (n : Nat) : Nat := 1 + (if n = 0 then 0 else SID_SIZE) + 4 * n

/-- The ids removed from the pending list once they are written. -/
def ReliableAck.drop (ack : ReliableAck) (n : Nat) : ReliableAck :=
  ⟨ack.packetId.drop n, by
    have := ack.len_le
    rw [length_drop]
    omega⟩

/-- `reliable_ack_write`: the pending list, the recent list and, unless the
record did not fit (`none`), the buffer afterwards. -/
def reliableAckWrite (ack mru : ReliableAck) (buf : Buffer) (sid : SessionId) (max : Nat)
    (prepend : Bool) : Option (ReliableAck × ReliableAck × Option Buffer) :=
  let n := min ack.packetId.length max
  match copyAcksToMru ack mru n with
  | none => none
  | some mru =>
    let total := mru.packetId.take (min max mru.packetId.length)
    let sub := if prepend then bufWritePrepend buf (ackRecord total sid)
      else bufWrite buf (ackRecord total sid)
    match sub with
    | none => some (ack, mru, none)
    | some buf =>
      -- ids are only sent to a known peer
      if total ≠ [] ∧ sessionIdDefined sid = false then none
      else some (ack.drop n, mru, some buf)

/-! ## What is written is read back -/

@[simp] theorem htonpid_length (pid : PacketIdType) : (htonpid pid).length = 4 :=
  beBytes_length 4 _

theorem ntohpid_htonpid (pid : PacketIdType) : ntohpid (htonpid pid) = pid := by
  apply BitVec.eq_of_toNat_eq
  rw [ntohpid, htonpid, beNat_beBytes, BitVec.toNat_ofNat]
  have := pid.isLt
  omega

theorem reliableAckReadPacketId_htonpid (pid : PacketIdType) (rest : Bytes) :
    reliableAckReadPacketId (htonpid pid ++ rest) = some (pid, rest) := by
  have hread : bufRead (htonpid pid ++ rest) 4 = some (htonpid pid, rest) := by
    have := bufRead_append (htonpid pid) rest
    rwa [htonpid_length] at this
  rw [reliableAckReadPacketId, hread]
  show some (ntohpid (htonpid pid), rest) = some (pid, rest)
  rw [ntohpid_htonpid]

theorem reliableAckParseIds_flatMap {ids : List PacketIdType} {rest : Bytes} :
    ∀ ack : ReliableAck, ack.packetId.length + ids.length ≤ RELIABLE_ACK_SIZE →
      ∃ ack', reliableAckParseIds ids.length ack (ids.flatMap htonpid ++ rest) = some (ack', rest) ∧
        ack'.packetId = ack.packetId ++ ids := by
  induction ids with
  | nil =>
    intro ack _
    exact ⟨ack, rfl, (append_nil _).symm⟩
  | cons pid ids ih =>
    intro ack hlen
    rw [length_cons] at hlen
    have hroom : ack.packetId.length < RELIABLE_ACK_SIZE := by omega
    obtain ⟨ack', hp, hids⟩ := ih (ack.push pid hroom) (by
      show (ack.packetId ++ [pid]).length + ids.length ≤ RELIABLE_ACK_SIZE
      rw [length_append, length_singleton]
      omega)
    refine ⟨ack', ?_, ?_⟩
    · rw [length_cons, reliableAckParseIds, flatMap_cons, append_assoc,
        reliableAckReadPacketId_htonpid]
      show (if h : ack.packetId.length < RELIABLE_ACK_SIZE then _ else none) = _
      rw [dif_pos hroom]
      exact hp
    · rw [hids]
      show (ack.packetId ++ [pid]) ++ ids = ack.packetId ++ pid :: ids
      rw [append_assoc]
      rfl

theorem sessionIdRead_append (sid : SessionId) (rest : Bytes) :
    sessionIdRead (sid.id ++ rest) = some (sid, rest) := by
  have hlen : ¬ (sid.id ++ rest).length < SID_SIZE := by
    rw [length_append, sid.size]
    omega
  have htake : (sid.id ++ rest).take SID_SIZE = sid.id := by
    rw [← sid.size, take_left]
  have hdrop : (sid.id ++ rest).drop SID_SIZE = rest := by
    rw [← sid.size, drop_left]
  rw [sessionIdRead, dif_neg hlen]
  simp only [htake, hdrop]

/-- **Round trip of a record.** Parsing a record and what follows it gives the
ids in order, the session id if there are any, and what follows. -/
theorem reliableAckParse_record {ids : List PacketIdType} (hids : ids.length ≤ RELIABLE_ACK_SIZE)
    (sid sidRemote : SessionId) (rest : Bytes) :
    reliableAckParse (ackRecord ids sid ++ rest) sidRemote =
      some (⟨ids, hids⟩, if ids = [] then sidRemote else sid, rest) := by
  have hcnt : (ofNat ids.length).toNat = ids.length := by
    unfold RELIABLE_ACK_SIZE at hids
    rw [toNat_ofNat']
    omega
  have hzero : ofNat ids.length = 0 ↔ ids = [] := by
    rw [← UInt8.toNat_inj, hcnt]
    exact length_eq_zero_iff
  obtain ⟨ack, hp, hack⟩ := reliableAckParseIds_flatMap ReliableAck.empty
    (by show 0 + ids.length ≤ RELIABLE_ACK_SIZE; omega)
  have hack' : ack = ⟨ids, hids⟩ := by
    cases ack
    simp only [ReliableAck.mk.injEq]
    exact hack
  rw [ackRecord, cons_append, append_assoc, reliableAckParse, hcnt, hp, hack']
  by_cases hnil : ids = []
  · simp only [hzero, if_pos hnil, nil_append]
  · simp only [hzero, if_neg hnil, sessionIdRead_append]

/-! ## The recent list -/

variable {id : PacketIdType}

theorem mruShift_of_mem {mru : List PacketIdType} (h : id ∈ mru) :
    ∀ move, mruShift id move mru = (move :: mru.erase id, none) := by
  induction mru with
  | nil => cases h
  | cons tmp rest ih =>
    intro move
    unfold mruShift
    by_cases heq : tmp = id
    · rw [if_pos heq, heq, erase_cons_head]
    · have hrest : id ∈ rest := (mem_cons.mp h).resolve_left (Ne.symm heq)
      rw [if_neg heq, ih hrest tmp, erase_cons_tail (by simpa using heq)]

theorem mruShift_of_notMem {mru : List PacketIdType} (h : id ∉ mru) :
    ∀ move, ∃ last, (mruShift id move mru).2 = some last ∧
      (mruShift id move mru).1 ++ [last] = move :: mru := by
  induction mru with
  | nil =>
    intro move
    exact ⟨move, rfl, rfl⟩
  | cons tmp rest ih =>
    intro move
    have hne : id ≠ tmp := ne_of_not_mem_cons h
    have hrest : id ∉ rest := not_mem_of_not_mem_cons h
    obtain ⟨last, hlast, hkept⟩ := ih hrest tmp
    refine ⟨last, ?_, ?_⟩
    · unfold mruShift
      rw [if_neg (Ne.symm hne)]
      exact hlast
    · unfold mruShift
      rw [if_neg (Ne.symm hne), ← hkept]
      rfl

theorem mruInsert_packetId (mru : ReliableAck) (id : PacketIdType) :
    (mruInsert mru id).packetId = touch RELIABLE_ACK_SIZE id mru.packetId := by
  have hlen := mru.len_le
  unfold mruInsert touch
  dsimp only
  by_cases hnil : mru.packetId = []
  · have hstart : (mruStart mru id).packetId = [id] := by
      unfold mruStart
      rw [if_pos hnil]
      rfl
    simp only [hstart, mruShift_of_mem (mem_singleton_self id)]
    rw [hnil, erase_cons_head]
    rfl
  have hstart : mruStart mru id = mru := if_neg hnil
  by_cases hmem : id ∈ mru.packetId
  · simp only [hstart, mruShift_of_mem hmem]
    rw [take_of_length_le]
    rw [length_cons, length_erase_of_mem hmem]
    have := length_pos_of_mem hmem
    omega
  · obtain ⟨last, hlast, hkept⟩ := mruShift_of_notMem hmem id
    have hklen := mruShift_length id mru.packetId id
    simp only [hstart, hlast]
    rw [erase_of_not_mem hmem, ← hkept]
    by_cases hroom : (mruShift id id mru.packetId).1.length < RELIABLE_ACK_SIZE
    · rw [dif_pos hroom, take_of_length_le]
      · rfl
      · rw [length_append]
        exact hroom
    -- a full list loses its last entry
    · rw [dif_neg hroom, take_left']
      omega

theorem foldl_mruInsert (ids : List PacketIdType) (mru : ReliableAck) :
    (ids.reverse.foldl mruInsert mru).packetId =
      ids.foldr (touch RELIABLE_ACK_SIZE) mru.packetId := by
  rw [foldl_reverse]
  induction ids with
  | nil => rfl
  | cons id ids ih => rw [foldr_cons, foldr_cons, mruInsert_packetId, ih]

/-- **The most recent ids.** The list holds the ids just sent, then the older ones, each
once, and no more than fit. -/
theorem copy_acks_to_mru_recent (ack mru : ReliableAck) (n : Nat)
    (hn : n ≤ ack.packetId.length) (hmru : mru.packetId.Nodup) :
    ∃ mru', copyAcksToMru ack mru n = some mru' ∧
      mru'.packetId =
        ((ack.packetId.take n ++ mru.packetId).eraseDups).take RELIABLE_ACK_SIZE ∧
      mru'.packetId.Nodup ∧ mru'.packetId.length ≤ RELIABLE_ACK_SIZE := by
  have hcopied := foldl_mruInsert (ack.packetId.take n) mru
  rw [foldr_touch RELIABLE_ACK_SIZE _ hmru mru.len_le] at hcopied
  refine ⟨(ack.packetId.take n).reverse.foldl mruInsert mru, if_neg (Nat.not_lt.mpr hn),
    hcopied, ?_, ReliableAck.len_le _⟩
  rw [hcopied]
  exact (nodup_eraseDups _).sublist (take_sublist _ _)

theorem copy_acks_to_mru_full :
    ∃ mru', copyAcksToMru ⟨[5, 6, 7, 8, 9, 10, 11], by decide⟩ ⟨[2, 1, 3], by decide⟩ 7 =
        some mru' ∧
      mru'.packetId = (([5, 6, 7, 8, 9, 10, 11] ++ [2, 1, 3]).eraseDups).take 8 ∧
      mru'.packetId.Nodup ∧ mru'.packetId.length ≤ 8 :=
  copy_acks_to_mru_recent _ _ 7 (by decide) (by decide)

variable {mru ack mru' : ReliableAck}

theorem length_take_packetId_le (ack : ReliableAck) (m : Nat) :
    (ack.packetId.take m).length ≤ RELIABLE_ACK_SIZE :=
  Nat.le_trans (length_take_le' m ack.packetId) ack.len_le

theorem copyAcksToMru_packetId {n : Nat} (h : copyAcksToMru ack mru n = some mru') :
    mru'.packetId = (ack.packetId.take n).foldr (touch RELIABLE_ACK_SIZE) mru.packetId := by
  unfold copyAcksToMru at h
  split at h
  · cases h
  · cases h
    exact foldl_mruInsert _ _

theorem prefix_copyAcksToMru {n : Nat} (hack : ack.packetId.Nodup)
    (h : copyAcksToMru ack mru n = some mru') : ack.packetId.take n <+: mru'.packetId := by
  rw [copyAcksToMru_packetId h]
  exact prefix_foldr_touch (hack.sublist (take_sublist n _)) (length_take_packetId_le ack n)
    mru.packetId

/-! ## Where the ids of a record come from -/

variable {p : PacketIdType}

theorem mem_acknowledge {pid : PacketIdType}
    (h : p ∈ (reliableAckAcknowledgePacketId ack pid).packetId) : p ∈ ack.packetId ∨ p = pid := by
  unfold reliableAckAcknowledgePacketId at h
  split at h
  · change p ∈ ack.packetId ++ [pid] at h
    simpa using h
  · exact .inl h

theorem mem_copyAcksToMru {n : Nat} (h : copyAcksToMru ack mru n = some mru')
    (hp : p ∈ mru'.packetId) : p ∈ ack.packetId ∨ p ∈ mru.packetId := by
  rw [copyAcksToMru_packetId h] at hp
  exact (mem_foldr_touch hp).imp_left mem_of_mem_take

variable {sid : SessionId}

/-- What `reliable_ack_write` does: the ids that are sent now become the most recent ones.
If the record fits, it names the first of these and the sent ids leave the pending list. -/
theorem reliableAckWrite_inv {ack' : ReliableAck} {buf : Buffer} {max : Nat} {prepend : Bool}
    {out : Option Buffer}
    (h : reliableAckWrite ack mru buf sid max prepend = some (ack', mru', out)) :
    copyAcksToMru ack mru (min ack.packetId.length max) = some mru' ∧
      ((out = none ∧ ack' = ack) ∨ ∃ buf', out = some buf' ∧
        ack' = ack.drop (min ack.packetId.length max) ∧
        buf'.contents =
          if prepend then
            ackRecord (mru'.packetId.take (min max mru'.packetId.length)) sid ++ buf.contents
          else
            buf.contents ++ ackRecord (mru'.packetId.take (min max mru'.packetId.length)) sid) := by
  unfold reliableAckWrite at h
  dsimp only at h
  split at h
  case h_1 => cases h
  case h_2 mru1 hmru =>
    split at h
    case h_1 =>
      cases h
      exact ⟨hmru, .inl ⟨rfl, rfl⟩⟩
    case h_2 buf1 hbuf1 =>
      split at h
      case isTrue => cases h
      case isFalse =>
        cases h
        refine ⟨hmru, .inr ⟨buf1, rfl, rfl, ?_⟩⟩
        cases prepend with
        | true => exact (bufWritePrepend_eq_some hbuf1).2
        | false => exact (bufWrite_eq_some hbuf1).2.2

theorem reliableAckWrite_cases {ack' : ReliableAck} {buf : Buffer} {max : Nat} {prepend : Bool}
    {out : Option Buffer}
    (h : reliableAckWrite ack mru buf sid max prepend = some (ack', mru', out)) :
    (∀ p ∈ ack'.packetId, p ∈ ack.packetId) ∧
    (∀ p ∈ mru'.packetId, p ∈ ack.packetId ∨ p ∈ mru.packetId) ∧
    ∀ buf', out = some buf' → ∃ ids, ids.length ≤ RELIABLE_ACK_SIZE ∧
      (∀ p ∈ ids, p ∈ mru'.packetId) ∧
      buf'.contents = if prepend then ackRecord ids sid ++ buf.contents
        else buf.contents ++ ackRecord ids sid := by
  obtain ⟨hmru, ⟨hout, hack⟩ | ⟨buf1, hout, hack, hbuf⟩⟩ := reliableAckWrite_inv h
  · subst hout hack
    exact ⟨fun p hp => hp, fun p hp => mem_copyAcksToMru hmru hp, fun buf' hbuf => by cases hbuf⟩
  · subst hout hack
    refine ⟨fun p hp => mem_of_mem_drop hp, fun p hp => mem_copyAcksToMru hmru hp, ?_⟩
    intro buf' hbuf'
    cases hbuf'
    exact ⟨_, length_take_packetId_le mru' _, fun p hp => mem_of_mem_take hp, hbuf⟩

/-! ## Records that are accepted -/

theorem htonpid_ntohpid {net : Bytes} (h : net.length = 4) : htonpid (ntohpid net) = net := by
  have hlt := beNat_lt net
  rw [h] at hlt
  apply beNat_inj
  · rw [htonpid_length, h]
  · rw [htonpid, ntohpid, beNat_beBytes, BitVec.toNat_ofNat]
    omega

variable {buf rest : Bytes}

theorem reliableAckReadPacketId_exact {pid : PacketIdType}
    (h : reliableAckReadPacketId buf = some (pid, rest)) : buf = htonpid pid ++ rest := by
  unfold reliableAckReadPacketId bufRead at h
  by_cases hsh : buf.length < 4
  · rw [if_pos hsh] at h
    cases h
  · rw [if_neg hsh] at h
    cases h
    rw [htonpid_ntohpid (by rw [length_take]; omega), take_append_drop]

theorem reliableAckParseIds_exact {count : Nat} : ∀ {ack ack' : ReliableAck} {buf rest : Bytes},
    reliableAckParseIds count ack buf = some (ack', rest) →
      ∃ ids, ids.length = count ∧ ack'.packetId = ack.packetId ++ ids ∧
        buf = ids.flatMap htonpid ++ rest := by
  induction count with
  | zero =>
    intro ack ack' buf rest h
    cases h
    exact ⟨[], rfl, (append_nil _).symm, rfl⟩
  | succ count ih =>
    intro ack ack' buf rest h
    unfold reliableAckParseIds at h
    split at h
    case h_1 => cases h
    case h_2 pid buf1 hread =>
      split at h
      case isFalse => cases h
      case isTrue hroom =>
        obtain ⟨ids, hlen, hids, hbuf⟩ := ih h
        refine ⟨pid :: ids, congrArg Nat.succ hlen, ?_, ?_⟩
        · rw [hids]
          show (ack.packetId ++ [pid]) ++ ids = ack.packetId ++ pid :: ids
          rw [append_assoc, singleton_append]
        · rw [reliableAckReadPacketId_exact hread, hbuf, flatMap_cons, append_assoc]

theorem sessionIdRead_exact (h : sessionIdRead buf = some (sid, rest)) : buf = sid.id ++ rest := by
  unfold sessionIdRead at h
  split at h
  · cases h
  · cases h
    exact (take_append_drop SID_SIZE buf).symm

/-- What is accepted is a record. -/
theorem reliableAckParse_exact {sidRemote : SessionId}
    (h : reliableAckParse buf sidRemote = some (ack, sid, rest)) :
    buf = ackRecord ack.packetId sid ++ rest := by
  unfold reliableAckParse at h
  split at h
  case h_1 => cases h
  case h_2 count buf =>
    split at h
    case h_1 => cases h
    case h_2 ack1 buf1 hp =>
      obtain ⟨ids, hlen, hids, hbuf⟩ := reliableAckParseIds_exact hp
      rw [show ReliableAck.empty.packetId ++ ids = ids from rfl] at hids
      have hcnt : ofNat ids.length = count := by
        rw [hlen]
        exact UInt8.ofNat_toNat
      have hnil : ids = [] ↔ count = 0 := by
        rw [← length_eq_zero_iff, hlen, ← UInt8.toNat_inj]
        rfl
      unfold ackRecord
      split at h
      case isTrue hzero =>
        cases h
        rw [hids, hcnt, if_pos (hnil.mpr hzero), append_nil, hbuf]
        rfl
      case isFalse hpos =>
        split at h
        case h_1 => cases h
        case h_2 sid1 buf2 hsid =>
          cases h
          rw [hids, hcnt, if_neg (mt hnil.mp hpos), hbuf, sessionIdRead_exact hsid,
            cons_append, append_assoc]

theorem reliableAckRead_exact (h : reliableAckRead buf sid = some (ack, rest)) :
    buf = ackRecord ack.packetId sid ++ rest := by
  unfold reliableAckRead at h
  split at h
  case h_1 => cases h
  case h_2 ack1 sidRemote rest1 hp =>
    split at h
    case isTrue => cases h
    case isFalse hgood =>
      cases h
      rw [reliableAckParse_exact hp]
      unfold ackRecord
      by_cases hnil : ack.packetId = []
      · rw [if_pos hnil, if_pos hnil]
      · have hsame : sidRemote = sid := by
          by_contra hne
          exact hgood ⟨length_pos_iff.mpr hnil, .inr hne⟩
        rw [hsame]

/-! ## Writing a record -/

/-- **Acknowledgement records.** A record that is written is read back, with what follows
it left over. It names the pending ids that are sent now first and in order, and just these
leave the pending list; without room for the record nothing leaves it. Only records for the
session are accepted. -/
theorem ack_write_parse {ack mru ack' mru' : ReliableAck} {buf : Buffer} {sid : SessionId}
    {max : Nat} {prepend : Bool} {out : Option Buffer} (hack : ack.packetId.Nodup)
    (h : reliableAckWrite ack mru buf sid max prepend = some (ack', mru', out)) :
    (out = none → ack' = ack) ∧
      (∀ buf', out = some buf' → ∃ record : Bytes, ∃ acks : ReliableAck,
        buf'.contents = (if prepend then record ++ buf.contents else buf.contents ++ record) ∧
        (∀ sidRemote rest, reliableAckParse (record ++ rest) sidRemote =
          some (acks, if acks.packetId = [] then sidRemote else sid, rest)) ∧
        ack.packetId.take (min max ack.packetId.length) <+: acks.packetId ∧
        acks.packetId.length ≤ max ∧
        ack'.packetId = ack.packetId.drop (min max ack.packetId.length)) ∧
      ∀ bytes sid' acks rest, reliableAckRead bytes sid' = some (acks, rest) →
        acks.packetId.length ≤ 8 ∧ bytes = ackRecord acks.packetId sid' ++ rest := by
  refine ⟨?_, ?_, fun bytes sid' acks rest hread => ⟨acks.len_le, reliableAckRead_exact hread⟩⟩
  · intro hout
    obtain ⟨-, ⟨-, hsame⟩ | ⟨buf', hsome, -⟩⟩ := reliableAckWrite_inv h
    · exact hsame
    · rw [hout] at hsome
      cases hsome
  · intro buf' hout
    obtain ⟨hmru, ⟨hnone, -⟩ | ⟨buf1, hsome, hdrop, hbuf⟩⟩ := reliableAckWrite_inv h
    · rw [hout] at hnone
      cases hnone
    · rw [hout] at hsome
      cases hsome
      have hfirst := prefix_copyAcksToMru hack hmru
      rw [Nat.min_comm] at hfirst hdrop
      refine ⟨_, ⟨_, length_take_packetId_le mru' (min max mru'.packetId.length)⟩, hbuf,
        ?_, ?_, ?_, ?_⟩
      · intro sidRemote rest
        exact reliableAckParse_record (length_take_packetId_le mru' _) sid sidRemote rest
      · have hlen := hfirst.length_le
        rw [length_take] at hlen
        refine prefix_take_iff.mpr ⟨hfirst, ?_⟩
        rw [length_take]
        omega
      · exact Nat.le_trans (length_take_le _ _) (Nat.min_le_left _ _)
      · rw [hdrop]
        rfl

theorem sampleSessionId_size : ([1, 2, 3, 4, 5, 6, 7, 8] : Bytes).length = SID_SIZE := rfl

def sampleSessionId : SessionId := ⟨[1, 2, 3, 4, 5, 6, 7, 8], sampleSessionId_size⟩

theorem ack_write_parse_two :
    ∃ acks : ReliableAck, ([4, 5] : List PacketIdType) <+: acks.packetId ∧
      ∃ record : Bytes, reliableAckParse (record ++ [7]) xSessionIdZero =
        some (acks, if acks.packetId = [] then xSessionIdZero else sampleSessionId, [7]) := by
  have hwrite : reliableAckWrite ⟨[4, 5, 6], by decide⟩ ⟨[3, 4], by decide⟩ ⟨40, 0, [], by decide⟩
      sampleSessionId 2 false = some (⟨[6], by decide⟩, ⟨[4, 5, 3], by decide⟩,
        some ⟨40, 0, ackRecord [4, 5] sampleSessionId, by decide⟩) := by decide
  obtain ⟨record, acks, -, hparse, hfirst, -⟩ := (ack_write_parse (by decide) hwrite).2.1 _ rfl
  exact ⟨acks, hfirst, record, hparse _ _⟩

/-- An id that is pending twice is written once, and leaves the pending list twice. -/
theorem pending_twice_written_once :
    reliableAckWrite ⟨[5, 5], by decide⟩ .empty ⟨40, 0, [], by decide⟩ sampleSessionId 2 false =
        some (.empty, ⟨[5], by decide⟩, some ⟨40, 0, ackRecord [5] sampleSessionId, by decide⟩) ∧
      reliableAckParse (ackRecord [5] sampleSessionId) xSessionIdZero =
        some (⟨[5], by decide⟩, sampleSessionId, []) := by
  decide

end OpenVpn
