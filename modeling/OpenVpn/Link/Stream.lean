import OpenVpn.Util.Buffer

/-!
# Packets over a TCP stream

The `stream_buf` functions of `socket.c`: the reader collects bytes in `buf`
until the length in front of a packet and then the packet itself are complete;
what was read beyond the packet waits in `residual` for the next one.

All buffers but `residual` share one piece of memory. The model keeps the bytes
of `buf`; `next` is the place behind them that `recv` is to fill. A failed
`ASSERT`, and bytes that would land elsewhere in memory, are `none`. Port sharing
is disabled.
-/

namespace OpenVpn

open Base

/-- `sizeof(packet_size_type)`. -/
def PACKET_SIZE_SIZE : Nat := 2

/-- `struct stream_buf`; `len` is `none` while the length is not known. -/
structure StreamBuf where
  bufInit : Buffer
  residual : Buffer
  maxlen : Nat
  residualFullyFormed : Bool
  buf : Buffer
  /-- offset and length -/
  next : Option (Nat × Nat)
  len : Option Nat
  error : Bool

/-- The sizes of `struct frame`. -/
structure Frame where
  headroom : Nat
  payloadSize : Nat
  tailroom : Nat

/-- `alloc_buf_sock_tun`; the window of `payload_size` bytes it leaves open is
closed again by `stream_buf_init`, which only keeps its length. -/
def allocBufSockTun (frame : Frame) : Option Buffer :=
  (allocBuf (frame.headroom + frame.payloadSize + frame.tailroom)).bind
    (OpenVpn.bufInit · frame.headroom)

def streamBufReset (sb : StreamBuf) : StreamBuf :=
  { sb with residualFullyFormed := false, buf := sb.bufInit, next := none, len := none }

def streamBufInit (buf : Buffer) (maxlen : Nat) : Option StreamBuf :=
  match allocBuf maxlen with
  | none => none
  | some residual =>
    some (streamBufReset
      { bufInit := buf, residual, maxlen, residualFullyFormed := false, buf, next := none
        len := none, error := false })

/-- `stream_buf_set_next`: the next read is for the rest of the packet, or for
whatever comes while its length is unknown. -/
def streamBufSetNext (sb : StreamBuf) : Option StreamBuf :=
  let wanted := sb.len.getD sb.maxlen - sb.buf.contents.length
  if 0 < wanted ∧ bufSafe sb.buf wanted = true then
    some { sb with next := some (sb.buf.offset + sb.buf.contents.length, wanted) }
  else none

/-- Try to get the length from the head of the buffer; `false` if it is bad. -/
def readLength (sb : StreamBuf) : StreamBuf × Bool :=
  match sb.len, bufAdvance sb.buf PACKET_SIZE_SIZE with
  | none, some buf =>
    let len := beNat (sb.buf.contents.take PACKET_SIZE_SIZE)
    if len < 1 ∨ sb.maxlen < len then ({ streamBufReset sb with error := true }, false)
    else ({ sb with buf, len := some len }, true)
  | _, _ => (sb, true)

/-- Cut the buffer after the packet, the excess goes to `residual`. -/
def saveResidual (sb : StreamBuf) (len : Nat) : Option StreamBuf :=
  match (OpenVpn.bufInit sb.residual 0).bind (bufWrite · (sb.buf.contents.drop len)) with
  | none => none
  | some residual => some { sb with residual, buf := bufTruncate sb.buf len }

/-- Is the packet fully read? If not, set up the next read. -/
def packetComplete (sb : StreamBuf) : Option (StreamBuf × Bool) :=
  match sb.len with
  | some len =>
    if 0 < len ∧ len ≤ sb.buf.contents.length then (saveResidual sb len).map (·, true)
    else (streamBufSetNext sb).map (·, false)
  | none => (streamBufSetNext sb).map (·, false)

/-- `stream_buf_added` for the bytes `added` that `recv` put behind `buf`. -/
def streamBufAdded (sb : StreamBuf) (added : Bytes) : Option (StreamBuf × Bool) :=
  match bufExtend sb.buf added with
  | none => none
  | some buf =>
    match readLength { sb with buf } with
    | (sb, false) => some (sb, false)
    | (sb, true) => packetComplete sb

/-- `stream_buf_read_setup_dowork`: is data from the socket needed? -/
def streamBufReadSetupDowork (sb : StreamBuf) : Option (StreamBuf × Bool) :=
  let formed : Option StreamBuf :=
    if sb.residual.contents ≠ [] ∧ sb.residualFullyFormed = false then
      match bufWrite sb.buf sb.residual.contents, OpenVpn.bufInit sb.residual 0 with
      | some buf, some residual =>
        (streamBufAdded { sb with buf, residual } []).map
          (fun r => { r.1 with residualFullyFormed := r.2 })
      | _, _ => none
    else some sb
  match formed with
  | none => none
  | some sb =>
    if sb.residualFullyFormed then some (sb, false) else (streamBufSetNext sb).map (·, true)

/-- What the socket does with the space it is offered. -/
inductive RecvResult where
  | failed
  | data (bytes : Bytes)

/-- The connection-oriented part of `struct link_socket`. -/
structure TcpSocket where
  streamBuf : StreamBuf
  streamReset : Bool

/-- The end of `link_socket_read_tcp`: a complete packet is handed out. -/
def finishRead (sock : TcpSocket) (sb : StreamBuf) (complete : Bool) : TcpSocket × Option Bytes :=
  if complete then ({ sock with streamBuf := streamBufReset sb }, some sb.buf.contents)
  else ({ sock with streamBuf := sb }, none)

/-- `link_socket_read_tcp`; `recv` is asked only if no packet is waiting. -/
def linkSocketReadTcp (sock : TcpSocket) (recv : Nat → RecvResult) :
    Option (TcpSocket × Option Bytes) :=
  let sb := sock.streamBuf
  if sb.residualFullyFormed then some (finishRead sock sb true)
  else
    match sb.next with
    | none => none
    | some (offset, len) =>
      match recv len with
      | .failed => some (sock, none)
      | .data [] => some ({ sock with streamReset := true }, none)
      | .data bytes =>
        -- the bytes are behind those of `buf`
        if offset = sb.buf.offset + sb.buf.contents.length then
          (streamBufAdded sb bytes).map (fun r => finishRead sock r.1 r.2)
        else none

/-- `link_socket_write_tcp`: the bytes given to `send`. The length is kept in 16
bits. -/
def linkSocketWriteTcp (maxlen : Nat) (buf : Buffer) : Option Bytes :=
  let len := buf.contents.length % 65536
  if len ≤ maxlen then (bufWritePrepend buf (beBytes PACKET_SIZE_SIZE len)).map (·.contents)
  else none

/-! ## The read loop -/

/-- A connection with the bytes the peer has sent and that were not read yet. -/
structure TcpLink where
  sock : TcpSocket
  stream : Bytes

/-- The number of bytes `recv` delivers into `space` bytes: at least one. -/
def chunkSize (want space : Nat) : Nat := min (max 1 want) space

/-- One turn of the event loop: set up the read and, if data is needed and there
is any, let the socket deliver `want` bytes of it, at least one and at most as
many as there is space for. -/
def tcpTurn (link : TcpLink) (want : Nat) : Option (TcpLink × Option Bytes) :=
  match streamBufReadSetupDowork link.sock.streamBuf with
  | none => none
  | some (sb, needed) =>
    let sock := { link.sock with streamBuf := sb }
    if needed = true ∧ link.stream = [] then some ({ link with sock }, none)
    else
      let read := if needed then chunkSize want ((sb.next.map Prod.snd).getD 0) else 0
      match linkSocketReadTcp sock (fun space => .data (link.stream.take (chunkSize want space)))
          with
      | none => none
      | some (sock, packet) => some ({ sock, stream := link.stream.drop read }, packet)

end OpenVpn
