import OpenVpn.Util.Buffer
import OpenVpn.Util.CircList

/-!
# The packet-id layer (`packet_id.c`, `packet_id.h`)

The receive side keeps, for the highest time stamp seen, the highest packet id
and a circular list with one cell per recent id: `SEQ_UNSEEN`, `SEQ_EXPIRED`,
or the clock at which the id was accepted. The send side is a counter.

Clocks and time stamps (`time_t`) are integers, packet ids (`uint64_t`) natural
numbers. Every function that runs through an assertion (`ASSERT`,
`index_verify`) returns an `Option`, `none` being the abort. The debug output
and the fields it alone reads (`name`, `unit`) are left out.

On the wire the long form is a 32-bit id followed by a 32-bit time, the short form the id
alone; `packetIdRead_wireBytes` — a receiver reads what was written, up to 32 bits.
-/

namespace OpenVpn

open Base

/-- A cell of an id not seen yet. -/
def SEQ_UNSEEN : Int := 0

/-- A cell of an id that violates the time backtrack. -/
def SEQ_EXPIRED : Int := 1

def PACKET_ID_MAX : Nat := 2 ^ 32 - 1
def PACKET_ID_EPOCH_MAX : Nat := 0x0000ffffffffffff
def PACKET_ID_MASK : Nat := 0x0000ffffffffffff

def MIN_SEQ_BACKTRACK : Int := 0
def MAX_SEQ_BACKTRACK : Int := 65536
def MIN_TIME_BACKTRACK : Int := 0
def MAX_TIME_BACKTRACK : Int := 600

/-- Seconds between two reap passes. -/
def SEQ_REAP_INTERVAL : Int := 5

/-- `struct packet_id_net`: what a packet carries. -/
structure PacketIdNet where
  id : Nat
  time : Int
deriving DecidableEq, Repr

/-- `struct packet_id_rec`: the receive side. `seqList` is the nullable pointer
to the list of cells. -/
structure PacketIdRec where
  lastReap : Int
  time : Int
  id : Nat
  seqBacktrack : Nat
  timeBacktrack : Int
  maxBacktrackStat : Nat
  initialized : Bool
  seqList : Option (CircList Int)
deriving DecidableEq, Repr

/-- `struct packet_id_send`: the send side. -/
structure PacketIdSend where
  id : Nat
  time : Int
deriving DecidableEq, Repr

/-- `struct packet_id`; `recv` is the field `rec` of the source. -/
structure PacketId where
  send : PacketIdSend
  recv : PacketIdRec
deriving DecidableEq, Repr

/-- `CLEAR(*rec)`. -/
def PacketIdRec.cleared : PacketIdRec :=
  { lastReap := 0, time := 0, id := 0, seqBacktrack := 0, timeBacktrack := 0
    maxBacktrackStat := 0, initialized := false, seqList := none }

/-- `packet_id_init_recv`, on a cleared structure. -/
def packetIdInitRecv (rec : PacketIdRec) (seqBacktrack timeBacktrack : Int) : Option PacketIdRec :=
  if seqBacktrack ≠ 0 then
    if (MIN_SEQ_BACKTRACK ≤ seqBacktrack ∧ seqBacktrack ≤ MAX_SEQ_BACKTRACK) ∧
        (MIN_TIME_BACKTRACK ≤ timeBacktrack ∧ timeBacktrack ≤ MAX_TIME_BACKTRACK) then
      some { rec with
        seqList := CircList.alloc seqBacktrack.toNat SEQ_UNSEEN
        seqBacktrack := seqBacktrack.toNat
        timeBacktrack := timeBacktrack
        initialized := true }
    else none
  else some { rec with initialized := true }

def packetIdInit (seqBacktrack timeBacktrack : Int) : Option PacketId :=
  match packetIdInitRecv .cleared seqBacktrack timeBacktrack with
  | none => none
  | some rec => some { send := { id := 0, time := 0 }, recv := rec }

/-- `packet_id_move_recv`: the destination takes the source over, the source
starts afresh with the same window. Returns the new `(dest, src)`. -/
def packetIdMoveRecv (src : PacketIdRec) : Option (PacketIdRec × PacketIdRec) :=
  match packetIdInitRecv .cleared src.seqBacktrack src.timeBacktrack with
  | none => none
  | some fresh => some (src, fresh)

/-- The `while (p->id < pin->id)` loop of `packet_id_add`, which runs `n` times
for `n = pin->id - p->id`. -/
def pushUnseen : Nat → CircList Int → CircList Int
  | 0, l => l
  | n + 1, l => pushUnseen n (l.push SEQ_UNSEEN)

/-- Must `packet_id_add` start a new sequence list? -/
def startsNewList (p : PacketIdRec) (l : CircList Int) (pin : PacketIdNet) : Bool :=
  l.xSize = 0 || decide (pin.time > p.time) ||
    (decide (pin.id ≥ p.seqBacktrack) && decide (pin.id - p.seqBacktrack > p.id))

/-- The first `if` of `packet_id_add`: time base, id and list to count up from. -/
def restartList (p : PacketIdRec) (l : CircList Int) (pin : PacketIdNet) :
    Int × Nat × CircList Int :=
  if startsNewList p l pin then
    (pin.time, if pin.id > p.seqBacktrack then pin.id - p.seqBacktrack else 0, l.reset)
  else (p.time, p.id, l)

/-- The last `if` of `packet_id_add`: the cell of the id takes the clock. -/
def markSeen (now diff : Int) (l : CircList Int) : Option (CircList Int) :=
  if diff < l.xSize ∧ now > SEQ_EXPIRED then l.setItem diff now else some l

/-- `packet_id_add` at clock `now`. The difference `p->id - pin->id` is stored
in an `int64_t`. -/
def packetIdAdd (now : Int) (p : PacketIdRec) (pin : PacketIdNet) : Option PacketIdRec :=
  match p.seqList with
  | none => some { p with time := pin.time, id := pin.id }
  | some l =>
    let (time, id, l) := restartList p l pin
    let l := pushUnseen (pin.id - id) l
    let id := max id pin.id
    match markSeen now (Int.bmod ((id : Int) - pin.id) (2 ^ 64)) l with
    | none => none
    | some l => some { p with time := time, id := id, seqList := some l }

/-- The loop of `packet_id_reap` from index `i` on, `n` cells from the end. It
stops at the first expired cell. -/
def reapFrom (timeBacktrack now : Int) :
    (n i : Nat) → (expire : Bool) → CircList Int → Option (CircList Int)
  | 0, _, _, l => some l
  | n + 1, i, expire, l =>
    match l.item i with
    | none => none
    | some t =>
      if t = SEQ_EXPIRED then some l
      else
        let expire := expire || (decide (t ≠ 0) && decide (t + timeBacktrack < now))
        if expire then
          match l.setItem i SEQ_EXPIRED with
          | none => none
          | some l => reapFrom timeBacktrack now n (i + 1) expire l
        else reapFrom timeBacktrack now n (i + 1) expire l

/-- `packet_id_reap` at clock `now`. -/
def packetIdReap (now : Int) (p : PacketIdRec) : Option PacketIdRec :=
  if p.timeBacktrack ≠ 0 then
    match p.seqList with
    | none => none
    | some l =>
      match reapFrom p.timeBacktrack now l.xSize 0 false l with
      | none => none
      | some l => some { p with seqList := some l, lastReap := now }
  else some { p with lastReap := now }

/-- `packet_id_reap_test` at clock `now`. -/
def packetIdReapTest (now : Int) (p : PacketIdRec) : Option PacketIdRec :=
  if p.lastReap + SEQ_REAP_INTERVAL ≤ now then packetIdReap now p else some p

/-- `packet_id_test`: may the id be accepted? The record is returned for its
backtrack statistics. -/
def packetIdTest (p : PacketIdRec) (pin : PacketIdNet) : Option (PacketIdRec × Bool) :=
  if p.initialized = false then none
  else if pin.id = 0 then some (p, false)
  else if p.seqBacktrack ≠ 0 then
    -- backtrack mode, used with UDP
    if pin.time = p.time then
      if pin.id > p.id then some (p, true)
      else
        let diff := p.id - pin.id
        let p := { p with maxBacktrackStat := max p.maxBacktrackStat diff }
        match p.seqList with
        | none => none
        | some l =>
          if diff ≥ l.xSize % 2 ^ 32 then some (p, false)
          else
            match l.item diff with
            | none => none
            | some v => some (p, decide (v = 0))
    else if pin.time < p.time then some (p, false)
    else some (p, true)
  else
    -- sequential mode, used with TCP
    if pin.time = p.time then some (p, p.id = 0 || decide (pin.id = p.id + 1))
    else if pin.time < p.time then some (p, false)
    else some (p, decide (pin.id = 1))

/-- How the callers use the two: `packet_id_test`, and `packet_id_add` at clock
`now` when the test accepts. -/
def packetIdTestAdd (now : Int) (p : PacketIdRec) (pin : PacketIdNet) :
    Option (PacketIdRec × Bool) :=
  match packetIdTest p pin with
  | none => none
  | some (p, false) => some (p, false)
  | some (p, true) => (packetIdAdd now p pin).map fun p => (p, true)

/-! ## The send side -/

def resetPacketIdSend : PacketIdSend := { id := 0, time := 0 }

/-- `packet_id_send_update` at clock `now`; `none` is the `false` return. -/
def packetIdSendUpdate (now : Int) (p : PacketIdSend) (longForm : Bool) : Option PacketIdSend :=
  let p := if p.time = 0 then { p with time := now } else p
  if p.id = PACKET_ID_MAX then
    if !longForm || decide (now ≤ p.time) then none
    else some { time := now, id := 1 }
  else some { p with id := p.id + 1 }

/-- `packet_id_send_update_epoch` at clock `now`. The time is set even when the
counter is exhausted. -/
def packetIdSendUpdateEpoch (now : Int) (p : PacketIdSend) : PacketIdSend × Bool :=
  let p := if p.time = 0 then { p with time := now } else p
  if p.id = PACKET_ID_EPOCH_MAX then (p, false)
  else ({ p with id := p.id + 1 }, true)

/-- `packet_id_write_epoch`: the 64-bit number written on the wire, epoch in
the top 16 bits. -/
def packetIdWriteEpoch (now : Int) (p : PacketIdSend) (epoch : Nat) : PacketIdSend × Option Nat :=
  match packetIdSendUpdateEpoch now p with
  | (p, false) => (p, none)
  | (p, true) => (p, some (epoch <<< 48 ||| p.id))

/-- `packet_id_read_epoch` on the 64-bit number read from the wire. -/
def packetIdReadEpoch (id : Nat) : Nat × PacketIdNet :=
  (id >>> 48 % 2 ^ 16, { id := id &&& PACKET_ID_MASK, time := 0 })

/-! ## Packet ids on the wire -/

/-- The conversion to a `net_time_t`. -/
def netTime (time : Int) : Nat := (time % 0x100000000).toNat

theorem netTime_lt (time : Int) : netTime time < 256 ^ 4 := by
  have hlt : time % 0x100000000 < 0x100000000 := Int.emod_lt_of_pos _ (by decide)
  unfold netTime
  omega

/-- `packet_id_write` at clock `now`; `none` is the `false` return, which leaves the
buffer to the caller's error path. -/
def packetIdWrite (now : Int) (p : PacketIdSend) (buf : Buffer) (longForm prepend : Bool) :
    PacketIdSend × Option Buffer :=
  match packetIdSendUpdate now p longForm with
  | none => ({ p with time := if p.time = 0 then now else p.time }, none)
  | some p =>
    let id := beBytes 4 p.id
    let time := beBytes 4 (netTime p.time)
    if prepend then
      (p, if longForm then (bufWritePrepend buf time).bind (bufWritePrepend · id)
        else bufWritePrepend buf id)
    else
      (p, (bufWrite buf id).bind fun buf => if longForm then bufWrite buf time else some buf)

/-- `packet_id_read`: the id and what is left of the buffer. -/
def packetIdRead (buf : Bytes) (longForm : Bool) : Option (PacketIdNet × Bytes) :=
  (bufRead buf 4).bind fun (netId, buf) =>
    if longForm then
      (bufRead buf 4).map fun (netTime, buf) => (⟨beNat netId, beNat netTime⟩, buf)
    else some (⟨beNat netId, 0⟩, buf)

/-- The id a receiver reads for a send state: 32 bits of id and time. -/
def wirePin (p : PacketIdSend) : PacketIdNet := ⟨p.id % 0x100000000, netTime p.time⟩

/-- A long packet id as it is written. -/
def wireBytes (p : PacketIdSend) : Bytes := beBytes 4 p.id ++ beBytes 4 (netTime p.time)

theorem packetIdRead_wireBytes (p : PacketIdSend) (rest : Bytes) :
    packetIdRead (wireBytes p ++ rest) true = some (wirePin p, rest) := by
  have hid := bufRead_append (beBytes 4 p.id) (beBytes 4 (netTime p.time) ++ rest)
  have htime := bufRead_append (beBytes 4 (netTime p.time)) rest
  rw [beBytes_length] at hid htime
  simp only [packetIdRead, wireBytes, List.append_assoc, hid, Option.bind_some, htime, if_true,
    Option.map_some, beNat_beBytes, wirePin, Nat.mod_eq_of_lt (netTime_lt p.time)]
  rfl

end OpenVpn
