import OpenVpn.Base.Run
import OpenVpn.Link.Stream

/-!
# The stream packetizer is the inverse of the framing writer

Packets written one after the other by `link_socket_write_tcp` form the stream
`frames 2 packets`. Whatever the cuts at which the socket delivers the stream,
the reader returns the packets in order and fails no assertion, as long as the
length of every packet fits the 16 bits of its prefix.

* `Phase` — the three situations the reader can be in between two turns.
* `StreamOk` — one of them, with room for the longest packet.
* `carried` — the part of the stream that was read but not returned, with the
  length prefix put back in front.
* `TcpOk.turn` — one turn of the event loop returns at most the next packet,
  keeps `StreamOk` and makes progress.
* `tcp_packets_returned_in_order` — over every sequence of turns.
-/

namespace OpenVpn

open Base List Option Nat

variable {frame : Frame} {sb : StreamBuf} {stream : Bytes} {packets : List Bytes}

/-- The sizes at which the packetizer works: room for the longest packet and its
length prefix, in buffers that can be allocated. -/
structure FrameOk (frame : Frame) : Prop where
  payload : 2 ≤ frame.payloadSize
  tailroom : 2 ≤ frame.tailroom
  alloc : frame.headroom + frame.payloadSize + frame.tailroom < BUF_SIZE_MAX

/-- A sequence of packets the reader accepts. -/
def PacketsOk (frame : Frame) (packets : List Bytes) : Prop :=
  ∀ p ∈ packets, 1 ≤ p.length ∧ p.length ≤ frame.payloadSize ∧ p.length < 65536

/-- The bytes in hand: how much of the next packet is in the buffer. -/
inductive Collecting (frame : Frame) (sb : StreamBuf) : Prop where
  /-- the length prefix is not complete -/
  | length (hlen : sb.len = none) (hoffset : sb.buf.offset = frame.headroom)
      (hbuf : sb.buf.contents.length < 2)
  /-- the length is known, the packet is not complete -/
  | body (l : Nat) (hlen : sb.len = some l) (hl : 1 ≤ l ∧ l ≤ frame.payloadSize ∧ l < 65536)
      (hoffset : sb.buf.offset = frame.headroom + 2) (hbuf : sb.buf.contents.length < l)

/-- A complete packet is in the buffer. -/
def Complete (frame : Frame) (sb : StreamBuf) : Prop :=
  ∃ l, sb.len = some l ∧ 1 ≤ l ∧ l ≤ frame.payloadSize ∧ l < 65536 ∧ sb.buf.contents.length = l

/-- Where the reader is between two turns. -/
inductive Phase (frame : Frame) (sb : StreamBuf) : Prop where
  /-- a packet was returned, bytes behind it may wait in `residual` -/
  | returned (hformed : sb.residualFullyFormed = false) (hlen : sb.len = none)
      (hoffset : sb.buf.offset = frame.headroom) (hbuf : sb.buf.contents = [])
  | collecting (hformed : sb.residualFullyFormed = false) (hresidual : sb.residual.contents = [])
      (h : Collecting frame sb)
  | complete (hformed : sb.residualFullyFormed = true) (h : Complete frame sb)

/-- What never changes while the connection is up. -/
structure StreamOk (frame : Frame) (sb : StreamBuf) : Prop where
  maxlen : sb.maxlen = frame.payloadSize
  init : sb.bufInit.offset = frame.headroom ∧ sb.bufInit.contents = [] ∧
    sb.bufInit.capacity = frame.headroom + frame.payloadSize + frame.tailroom
  capacity : sb.buf.capacity = frame.headroom + frame.payloadSize + frame.tailroom
  residual : sb.residual.capacity = frame.payloadSize
  noError : sb.error = false

/-- The bytes taken from the stream and not returned yet, as they were sent. -/
def carried (sb : StreamBuf) : Bytes :=
  (match sb.len with
    | none => []
    | some l => beBytes 2 l) ++ sb.buf.contents ++ sb.residual.contents

/-! ## Setting up a read -/

/-- How much the reader asks for, and where it goes. -/
def NextOk (sb : StreamBuf) : Prop :=
  sb.next = some (sb.buf.offset + sb.buf.contents.length,
    sb.len.getD sb.maxlen - sb.buf.contents.length) ∧
  0 < sb.len.getD sb.maxlen - sb.buf.contents.length

theorem Collecting.lt_wanted (hfr : FrameOk frame) (hmax : sb.maxlen = frame.payloadSize)
    (h : Collecting frame sb) : sb.buf.contents.length < sb.len.getD sb.maxlen ∧
      sb.buf.offset + sb.len.getD sb.maxlen ≤
        frame.headroom + frame.payloadSize + frame.tailroom := by
  have := hfr.payload
  have := hfr.tailroom
  cases h with
  | length hlen hoff hbuf =>
    rw [hlen, getD_none, hmax, hoff]
    omega
  | body l hlen hl hoff hbuf =>
    rw [hlen, getD_some, hoff]
    omega

theorem Collecting.congr {sb' : StreamBuf} (h : Collecting frame sb) (hsame : sb'.len = sb.len)
    (hbuf : sb'.buf = sb.buf) : Collecting frame sb' := by
  cases h with
  | length hlen hoff hsh => exact .length (hsame.trans hlen) (hbuf ▸ hoff) (hbuf ▸ hsh)
  | body l hlen hl hoff hsh =>
    exact .body l (hsame.trans hlen) hl (hbuf ▸ hoff) (hbuf ▸ hsh)

/-! ## New bytes in the buffer -/

/-- The outcome of `stream_buf_added`: the reader goes on collecting, or it has a
packet; the stream it carries is the same. -/
def AddedOk (frame : Frame) (before : Bytes) (sb : StreamBuf) (complete : Bool) : Prop :=
  StreamOk frame sb ∧ sb.residualFullyFormed = false ∧ carried sb = before ∧
    if complete then Complete frame sb
    else sb.residual.contents = [] ∧ Collecting frame sb ∧ NextOk sb

/-- The reader takes bytes from the stream: no others wait. -/
structure Filling (frame : Frame) (sb : StreamBuf) : Prop extends StreamOk frame sb where
  formed : sb.residualFullyFormed = false
  drained : sb.residual.contents = []

theorem Filling.setNext (hfr : FrameOk frame) (h : Filling frame sb)
    (hc : Collecting frame sb) :
    ∃ sb', streamBufSetNext sb = some sb' ∧ AddedOk frame (carried sb) sb' false := by
  obtain ⟨hlt, hroom⟩ := hc.lt_wanted hfr h.maxlen
  have hal := hfr.alloc
  have hcap := h.capacity
  have hsafe : bufSafe sb.buf (sb.len.getD sb.maxlen - sb.buf.contents.length) = true :=
    bufSafe_of (by omega) (by omega)
  have hwanted : 0 < sb.len.getD sb.maxlen - sb.buf.contents.length := by omega
  exact ⟨_, if_pos ⟨hwanted, hsafe⟩, ⟨h.maxlen, h.init, hcap, h.residual, h.noError⟩, h.formed, rfl,
    h.drained, hc.congr rfl rfl, rfl, hwanted⟩

theorem saveResidual_spec (hfr : FrameOk frame) (h : StreamOk frame sb) {l : Nat}
    (hsize : sb.buf.contents.length ≤ frame.payloadSize) :
    ∃ residual, residual.capacity = frame.payloadSize ∧
      residual.contents = sb.buf.contents.drop l ∧
      saveResidual sb l = some { sb with residual, buf := bufTruncate sb.buf l } := by
  have hal := hfr.alloc
  obtain ⟨empty, hemp, hcap, hoff, hnil⟩ :=
    bufInit_isSome (zero_le sb.residual.capacity)
  have hdrop : (sb.buf.contents.drop l).length ≤ frame.payloadSize := by
    rw [length_drop]
    omega
  obtain ⟨residual, hwr, -, hcap', hcon⟩ := bufWrite_isSome empty
    (sb.buf.contents.drop l) (by omega) (by
      rw [hoff, hnil, hcap, h.residual, length_nil]
      omega)
  refine ⟨residual, ?_, ?_, ?_⟩
  · rw [hcap', hcap, h.residual]
  · rw [hcon, hnil, nil_append]
  · unfold saveResidual
    rw [hemp, bind_some, hwr]

theorem packetComplete_unknown (h : sb.len = none) :
    packetComplete sb = (streamBufSetNext sb).map (·, false) := by
  unfold packetComplete
  rw [h]

theorem packetComplete_spec (hfr : FrameOk frame) (h : Filling frame sb) {l : Nat}
    (hlen : sb.len = some l) (hl : 1 ≤ l ∧ l ≤ frame.payloadSize ∧ l < 65536)
    (hoff : sb.buf.offset = frame.headroom + 2)
    (hsize : sb.buf.contents.length ≤ frame.payloadSize) :
    ∃ sb' complete, packetComplete sb = some (sb', complete) ∧
      AddedOk frame (carried sb) sb' complete := by
  unfold packetComplete
  rw [hlen]
  by_cases hdone : l ≤ sb.buf.contents.length
  · obtain ⟨residual, hcap, hcon, hsave⟩ := saveResidual_spec hfr h.toStreamOk (l := l) hsize
    dsimp only
    rw [if_pos ⟨hl.1, hdone⟩, hsave]
    refine ⟨_, true, rfl, ?_, h.formed, ?_, ?_⟩
    · exact ⟨h.maxlen, h.init, h.capacity, hcap, h.noError⟩
    · show (match sb.len with | none => [] | some l => beBytes 2 l) ++ sb.buf.contents.take l ++
        residual.contents = _
      rw [hcon, carried, h.drained, append_assoc, take_append_drop, append_nil]
    · refine ⟨l, hlen, hl.1, hl.2.1, hl.2.2, ?_⟩
      show (sb.buf.contents.take l).length = l
      rw [length_take]
      omega
  · obtain ⟨sb', hset, hadd⟩ := h.setNext hfr (.body l hlen hl hoff (by omega))
    dsimp only
    rw [if_neg (fun hc => hdone hc.2), hset]
    exact ⟨sb', false, rfl, hadd⟩

theorem readLength_short (h : sb.buf.contents.length < 2) : readLength sb = (sb, true) := by
  unfold readLength
  rw [show PACKET_SIZE_SIZE = 2 from rfl, bufAdvance_eq_none h]
  cases sb.len with
  | none => rfl
  | some l => rfl

theorem readLength_known {l : Nat} (h : sb.len = some l) : readLength sb = (sb, true) := by
  unfold readLength
  rw [h]

theorem readLength_spec (h : StreamOk frame sb) (hlen : sb.len = none)
    (hbuf : 2 ≤ sb.buf.contents.length) (hpks : PacketsOk frame packets)
    (hsent : sb.buf.contents ++ stream = frames 2 packets) :
    ∃ buf l, readLength sb = ({ sb with buf, len := some l }, true) ∧
      (1 ≤ l ∧ l ≤ frame.payloadSize ∧ l < 65536) ∧ buf.offset = sb.buf.offset + 2 ∧
      buf.capacity = sb.buf.capacity ∧ buf.contents = sb.buf.contents.drop 2 ∧
      beBytes 2 l ++ buf.contents = sb.buf.contents := by
  obtain ⟨buf, hadv, hoff, hcap, hcon⟩ := bufAdvance_isSome hbuf
  obtain ⟨p, rest, rfl, hp⟩ := frames_take_header hbuf (by omega) hsent
  have hpok := hpks p mem_cons_self
  refine ⟨buf, p.length, ?_, hpok, hoff, hcap, hcon, ?_⟩
  · unfold readLength
    rw [hlen, show PACKET_SIZE_SIZE = 2 from rfl, hadv]
    dsimp only
    rw [hp, beNat_beBytes, mod_eq_of_lt (show _ < 256 ^ 2 from hpok.2.2), h.maxlen,
      if_neg (by omega)]
  · -- the prefix put back in front is what was taken off
    rw [hcon, ← hp, take_append_drop]

/-- Where `buf` stands: at a length prefix, or behind one that was read. -/
def Placed (frame : Frame) (sb : StreamBuf) : Prop :=
  (sb.len = none ∧ sb.buf.offset = frame.headroom) ∨
    ∃ l, sb.len = some l ∧ (1 ≤ l ∧ l ≤ frame.payloadSize ∧ l < 65536) ∧
      sb.buf.offset = frame.headroom + 2

theorem Collecting.placed (h : Collecting frame sb) : Placed frame sb := by
  cases h with
  | length hlen hoff hbuf => exact .inl ⟨hlen, hoff⟩
  | body l hlen hl hoff hbuf => exact .inr ⟨l, hlen, hl, hoff⟩

theorem scan_length (hfr : FrameOk frame) (h : Filling frame sb)
    (hpks : PacketsOk frame packets) (hlen : sb.len = none)
    (hoffset : sb.buf.offset = frame.headroom) (hsize : sb.buf.contents.length ≤ frame.payloadSize)
    (hsent : carried sb ++ stream = frames 2 packets) :
    ∃ sb1 sb' complete, readLength sb = (sb1, true) ∧ packetComplete sb1 = some (sb', complete) ∧
      AddedOk frame (carried sb) sb' complete := by
  by_cases hsh : sb.buf.contents.length < 2
  · -- the prefix is not complete: go on collecting it
    obtain ⟨sb', hset, hadd⟩ := h.setNext hfr (.length hlen hoffset hsh)
    refine ⟨sb, sb', false, readLength_short hsh, ?_, hadd⟩
    rw [packetComplete_unknown hlen, hset]
    rfl
  · have hcar : carried sb = sb.buf.contents := by
      rw [carried, hlen, h.drained, nil_append, append_nil]
    rw [hcar] at hsent
    obtain ⟨buf, l, hread, hl, hoff, hcap, hdrop, hback⟩ :=
      readLength_spec h.toStreamOk hlen (Nat.le_of_not_lt hsh) hpks hsent
    have hok : StreamOk frame { sb with buf, len := some l } :=
      ⟨h.maxlen, h.init, hcap.trans h.capacity, h.residual, h.noError⟩
    obtain ⟨sb', complete, hpc, hadd⟩ := packetComplete_spec hfr ⟨hok, h.2, h.3⟩ rfl hl
      (hoff.trans (by rw [hoffset])) (by
        rw [hdrop, length_drop]
        omega)
    have hsame : carried { sb with buf, len := some l } = carried sb := by
      rw [hcar]
      unfold carried
      dsimp only
      rw [hback, h.drained, append_nil]
    rw [hsame] at hadd
    exact ⟨_, sb', complete, hread, hpc, hadd⟩

/-- `stream_buf_added` knows whether the packet is complete. -/
theorem streamBufAdded_spec (hfr : FrameOk frame) (h : Filling frame sb)
    (hpks : PacketsOk frame packets) {added : Bytes}
    (hsize : sb.buf.contents.length + added.length ≤ frame.payloadSize)
    (hplaced : Placed frame sb) (hsent : carried sb ++ added ++ stream = frames 2 packets) :
    ∃ sb' complete, streamBufAdded sb added = some (sb', complete) ∧
      AddedOk frame (carried sb ++ added) sb' complete := by
  have htail := hfr.tailroom
  have hfits : sb.buf.offset + (sb.buf.contents.length + added.length) ≤ sb.buf.capacity := by
    rw [h.capacity]
    rcases hplaced with ⟨-, hoffset⟩ | ⟨l, -, -, hoffset⟩ <;> omega
  obtain ⟨buf, hext, hoffset, hcap, hcon⟩ := bufExtend_isSome hfits
  have hok : Filling frame { sb with buf } :=
    ⟨⟨h.maxlen, h.init, hcap.trans h.capacity, h.residual, h.noError⟩, h.formed, h.drained⟩
  have hcar : carried { sb with buf } = carried sb ++ added := by
    unfold carried
    dsimp only
    rw [hcon, h.drained]
    simp only [append_nil, append_assoc]
  have hbufsize : buf.contents.length ≤ frame.payloadSize := by
    rw [hcon, length_append]
    exact hsize
  rw [← hcar] at hsent ⊢
  have hscan : ∃ sb1 sb' complete, readLength { sb with buf } = (sb1, true) ∧
      packetComplete sb1 = some (sb', complete) ∧
      AddedOk frame (carried { sb with buf }) sb' complete := by
    rcases hplaced with ⟨hlen, hoff⟩ | ⟨l, hlen, hl, hoff⟩
    · exact scan_length hfr hok hpks hlen (hoffset.trans hoff) hbufsize hsent
    · obtain ⟨sb', complete, hpc, hadd⟩ := packetComplete_spec hfr hok hlen hl
        (hoffset.trans hoff) hbufsize
      exact ⟨_, sb', complete, readLength_known hlen, hpc, hadd⟩
  obtain ⟨sb1, sb', complete, hread, hpc, hadd⟩ := hscan
  unfold streamBufAdded
  rw [hext]
  dsimp only
  rw [hread]
  exact ⟨sb', complete, hpc, hadd⟩

/-! ## Turns of the event loop -/

/-- What `stream_buf_read_setup_dowork` leaves: a packet that waits, or a read
that is set up. -/
def SetupOk (frame : Frame) (before : Bytes) (sb : StreamBuf) (needed : Bool) : Prop :=
  StreamOk frame sb ∧ carried sb = before ∧
    if needed then sb.residualFullyFormed = false ∧ sb.residual.contents = [] ∧
      Collecting frame sb ∧ NextOk sb
    else sb.residualFullyFormed = true ∧ Complete frame sb

theorem setup_collecting (hfr : FrameOk frame) (h : Filling frame sb)
    (hc : Collecting frame sb) :
    ∃ sb' needed, streamBufReadSetupDowork sb = some (sb', needed) ∧
      SetupOk frame (carried sb) sb' needed := by
  obtain ⟨sb', hset, hok, hwf, hcar, hrest⟩ := h.setNext hfr hc
  unfold streamBufReadSetupDowork
  rw [if_neg (by simp [h.drained])]
  dsimp only
  rw [if_neg (by simp [h.formed]), hset]
  exact ⟨sb', true, rfl, hok, hcar, hwf, hrest⟩

theorem setup_residual (hfr : FrameOk frame) (h : StreamOk frame sb)
    (hwf : sb.residualFullyFormed = false) (hlen : sb.len = none)
    (hoff : sb.buf.offset = frame.headroom) (hbuf : sb.buf.contents = [])
    (hrs : sb.residual.contents ≠ []) (hpks : PacketsOk frame packets)
    (hsent : carried sb ++ stream = frames 2 packets) :
    ∃ sb' needed, streamBufReadSetupDowork sb = some (sb', needed) ∧
      SetupOk frame (carried sb) sb' needed := by
  have hal := hfr.alloc
  have hres := sb.residual.fits
  rw [h.residual] at hres
  obtain ⟨buf, hwr, hoffset', hcap', hcon⟩ := bufWrite_isSome
    sb.buf sb.residual.contents (by omega) (by
      rw [hoff, hbuf, h.capacity, length_nil]
      omega)
  obtain ⟨residual, hinit, hcap, -, hnil⟩ := bufInit_isSome (zero_le sb.residual.capacity)
  rw [hbuf, nil_append] at hcon
  have hok : StreamOk frame { sb with buf, residual } :=
    ⟨h.maxlen, h.init, hcap'.trans h.capacity, hcap.trans h.residual, h.noError⟩
  -- moving the bytes from `residual` to `buf` does not change what is carried
  have hcar : carried { sb with buf, residual } = carried sb := by
    unfold carried
    dsimp only
    rw [hlen, hbuf, hcon, hnil]
    simp only [append_nil, nil_append]
  have hsent' : carried { sb with buf, residual } ++ [] ++ stream = frames 2 packets := by
    rw [hcar, append_nil]
    exact hsent
  obtain ⟨sb', complete, hadd, hok', hformed', hcarried', hrest⟩ :=
    streamBufAdded_spec hfr ⟨hok, hwf, hnil⟩ hpks
      (by rw [hcon, length_nil]; omega) (.inl ⟨hlen, hoffset'.trans hoff⟩) hsent'
  rw [hcar, append_nil] at hcarried'
  unfold streamBufReadSetupDowork
  rw [if_pos ⟨hrs, hwf⟩, hwr, hinit]
  dsimp only
  rw [hadd]
  dsimp only [map_some]
  have hok'' : StreamOk frame { sb' with residualFullyFormed := complete } :=
    ⟨hok'.maxlen, hok'.init, hok'.capacity, hok'.residual, hok'.noError⟩
  cases complete with
  | true =>
    rw [if_pos rfl]
    exact ⟨_, false, rfl, hok'', hcarried', rfl, hrest⟩
  | false =>
    rw [if_neg Bool.false_ne_true]
    obtain ⟨sb'', hset, hok₂, hformed₂, hcarried₂, hrest₂⟩ :=
      Filling.setNext hfr ⟨hok'', rfl, hrest.1⟩ (hrest.2.1.congr rfl rfl)
    rw [hset]
    exact ⟨sb'', true, rfl, hok₂, hcarried₂.trans hcarried', hformed₂, hrest₂⟩

theorem streamBufReadSetupDowork_spec (hfr : FrameOk frame) (h : StreamOk frame sb)
    (hph : Phase frame sb) (hpks : PacketsOk frame packets)
    (hsent : carried sb ++ stream = frames 2 packets) :
    ∃ sb' needed, streamBufReadSetupDowork sb = some (sb', needed) ∧
      SetupOk frame (carried sb) sb' needed := by
  cases hph with
  | complete hwf hc =>
    unfold streamBufReadSetupDowork
    rw [if_neg (by simp [hwf])]
    dsimp only
    rw [if_pos hwf]
    exact ⟨sb, false, rfl, h, rfl, hwf, hc⟩
  | collecting hwf hres hc => exact setup_collecting hfr ⟨h, hwf, hres⟩ hc
  | returned hwf hlen hoff hbuf =>
    by_cases hres : sb.residual.contents = []
    · have hc : Collecting frame sb := .length hlen hoff (by rw [hbuf]; decide)
      exact setup_collecting hfr ⟨h, hwf, hres⟩ hc
    · exact setup_residual hfr h hwf hlen hoff hbuf hres hpks hsent

theorem Complete.handOut (hc : Complete frame sb) (h : StreamOk frame sb)
    (hpks : PacketsOk frame packets) (hsent : carried sb ++ stream = frames 2 packets) :
    ∃ rest, packets = sb.buf.contents :: rest ∧ StreamOk frame (streamBufReset sb) ∧
      Phase frame (streamBufReset sb) ∧
      carried (streamBufReset sb) ++ stream = frames 2 rest := by
  obtain ⟨l, hlen, -, -, hl, hbuf⟩ := hc
  have hsent' : beBytes 2 l ++ (sb.buf.contents ++ (sb.residual.contents ++ stream)) =
      frames 2 packets := by
    rw [← hsent, carried, hlen]
    simp only [append_assoc]
  obtain ⟨p, rest, rfl, hp, hrest⟩ := frames_eq_header (by omega)
    (fun p hp => (hpks p hp).2.2) hl hsent'
  obtain ⟨hpbuf, htail⟩ := append_inj hrest (by rw [hbuf, hp])
  refine ⟨rest, by rw [hpbuf], ?_, ?_, ?_⟩
  · exact ⟨h.maxlen, h.init, h.init.2.2, h.residual, h.noError⟩
  · exact .returned rfl rfl h.init.1 h.init.2.1
  · show ([] ++ sb.bufInit.contents ++ sb.residual.contents) ++ stream = frames 2 rest
    rw [h.init.2.1, nil_append, nil_append, htail]

theorem Collecting.incomplete (hc : Collecting frame sb) (hres : sb.residual.contents = [])
    (hpks : PacketsOk frame packets) (hsent : carried sb = frames 2 packets) :
    packets = [] := by
  cases hc with
  | length hlen hoff hbuf =>
    cases packets with
    | nil => rfl
    | cons p rest =>
      have hsize := congrArg List.length hsent
      rw [carried, hlen, hres, frames_cons] at hsize
      simp only [length_append, length_nil, beBytes_length] at hsize
      omega
  | body l hlen hl hoff hbuf =>
    have hsent' : beBytes 2 l ++ sb.buf.contents = frames 2 packets := by
      rw [← hsent, carried, hlen, hres, append_nil]
    obtain ⟨p, rest, -, hp, hrest⟩ := frames_eq_header (by omega)
      (fun p hp => (hpks p hp).2.2) hl.2.2 hsent'
    have hsize := congrArg List.length hrest
    rw [length_append] at hsize
    omega

/-- The reader together with the bytes still to come: what is carried and what
is to come are the frames of `packets`. -/
structure TcpOk (frame : Frame) (link : TcpLink) (packets : List Bytes) : Prop where
  buffers : StreamOk frame link.sock.streamBuf
  phase : Phase frame link.sock.streamBuf
  lengths : PacketsOk frame packets
  sent : carried link.sock.streamBuf ++ link.stream = frames 2 packets

theorem PacketsOk.tail {p : Bytes} (h : PacketsOk frame (p :: packets)) : PacketsOk frame packets :=
  fun q hq => h q (mem_cons_of_mem _ hq)

theorem linkSocketReadTcp_data {sock : TcpSocket} {recv : Nat → RecvResult} {len : Nat}
    {bytes : Bytes} (hwf : sock.streamBuf.residualFullyFormed = false)
    (hnext : sock.streamBuf.next =
      some (sock.streamBuf.buf.offset + sock.streamBuf.buf.contents.length, len))
    (hrecv : recv len = .data bytes) (hne : bytes ≠ []) :
    linkSocketReadTcp sock recv =
      (streamBufAdded sock.streamBuf bytes).map (fun r => finishRead sock r.1 r.2) := by
  unfold linkSocketReadTcp
  dsimp only
  rw [if_neg (by simp [hwf]), hnext]
  dsimp only
  rw [hrecv]
  cases bytes with
  | nil => exact absurd rfl hne
  | cons b bytes =>
    dsimp only
    rw [if_pos rfl]

theorem read_data (hfr : FrameOk frame) (sock : TcpSocket) (recv : Nat → RecvResult)
    {bytes rest : Bytes} (h : Filling frame sock.streamBuf)
    (hc : Collecting frame sock.streamBuf) (hnext : NextOk sock.streamBuf)
    (hrecv : recv (sock.streamBuf.len.getD sock.streamBuf.maxlen -
      sock.streamBuf.buf.contents.length) = .data bytes) (hne : bytes ≠ [])
    (hbs : bytes.length ≤ sock.streamBuf.len.getD sock.streamBuf.maxlen -
      sock.streamBuf.buf.contents.length)
    (hpks : PacketsOk frame packets)
    (hsent : carried sock.streamBuf ++ bytes ++ rest = frames 2 packets) :
    ∃ sock' packet packets', linkSocketReadTcp sock recv = some (sock', packet) ∧
      packets = packet.toList ++ packets' ∧ TcpOk frame ⟨sock', rest⟩ packets' := by
  rw [linkSocketReadTcp_data h.formed hnext.1 hrecv hne]
  generalize hsb : sock.streamBuf = sb at *
  have hlt := (hc.lt_wanted hfr h.maxlen).1
  have hwanted : sb.len.getD sb.maxlen ≤ frame.payloadSize := by
    rw [h.maxlen]
    cases hc with
    | length hlen hoff hbuf => exact le_of_eq (by rw [hlen, getD_none])
    | body l hlen hl hoff hbuf => rw [hlen, getD_some]; exact hl.2.1
  obtain ⟨sb', complete, hadd, hok, hformed', hcar, hrest⟩ :=
    streamBufAdded_spec hfr h hpks (by omega) hc.placed hsent
  rw [← hcar] at hsent
  rw [hadd]
  cases complete with
  | true =>
    obtain ⟨packets', rfl, hok', hph, hsent'⟩ := Complete.handOut hrest hok hpks hsent
    exact ⟨_, some sb'.buf.contents, packets', rfl, rfl, hok', hph, hpks.tail, hsent'⟩
  | false =>
    exact ⟨_, none, packets, rfl, rfl, hok, .collecting hformed' hrest.1 hrest.2.1, hpks, hsent⟩

theorem chunkSize_pos (want : Nat) {space : Nat} (h : 0 < space) : 0 < chunkSize want space := by
  unfold chunkSize
  omega

theorem chunkSize_le (want space : Nat) : chunkSize want space ≤ space :=
  min_le_right _ _

/-- **One turn.** It returns at most one packet, the next one of the stream, and
either takes a packet or bytes off what is left or there is no packet left. -/
theorem TcpOk.turn (hfr : FrameOk frame) {link : TcpLink} (h : TcpOk frame link packets)
    (want : Nat) :
    ∃ link' packet packets', tcpTurn link want = some (link', packet) ∧
      packets = packet.toList ++ packets' ∧ TcpOk frame link' packets' ∧
      (packets' = [] ∨
        link'.stream.length + packets'.length < link.stream.length + packets.length) := by
  obtain ⟨sb, needed, hset, hok, hcar, hrest⟩ :=
    streamBufReadSetupDowork_spec hfr h.buffers h.phase h.lengths h.sent
  have hsent := h.sent
  rw [← hcar] at hsent
  unfold tcpTurn
  rw [hset]
  dsimp only
  cases needed with
  | false =>
    obtain ⟨rest, hpks, hok', hph, hsent'⟩ :=
      Complete.handOut hrest.2 hok h.lengths hsent
    rw [if_neg (fun hcontra => Bool.false_ne_true hcontra.1), if_neg Bool.false_ne_true,
      linkSocketReadTcp]
    dsimp only
    rw [if_pos hrest.1]
    refine ⟨_, some sb.buf.contents, rest, rfl, hpks, ⟨hok', hph, ?_, hsent'⟩, .inr ?_⟩
    · exact PacketsOk.tail (hpks ▸ h.lengths)
    · show link.stream.length + rest.length < _
      rw [hpks, length_cons]
      omega
  | true =>
    obtain ⟨hwf, hres, hc, hnext⟩ := hrest
    by_cases hemp : link.stream = []
    · rw [hemp, append_nil] at hsent
      have hnone := hc.incomplete hres h.lengths hsent
      rw [if_pos ⟨rfl, hemp⟩]
      refine ⟨_, none, packets, rfl, rfl, ⟨hok, .collecting hwf hres hc, h.lengths, ?_⟩,
        .inl hnone⟩
      show carried sb ++ link.stream = _
      rw [hemp, append_nil]
      exact hsent
    · have hsp : (sb.next.map Prod.snd).getD 0 =
          sb.len.getD sb.maxlen - sb.buf.contents.length := by
        rw [hnext.1]
        rfl
      rw [if_neg (fun hcontra => hemp hcontra.2), if_pos rfl, hsp]
      generalize hsize : chunkSize want (sb.len.getD sb.maxlen - sb.buf.contents.length) = size
      have hpos : 0 < size := hsize ▸ chunkSize_pos want hnext.2
      have hle : size ≤ sb.len.getD sb.maxlen - sb.buf.contents.length :=
        hsize ▸ chunkSize_le want _
      have hlen : 0 < link.stream.length := length_pos_iff.mpr hemp
      have htake : (link.stream.take size).length = min size link.stream.length :=
        length_take
      have hne : link.stream.take size ≠ [] := by
        rw [← length_pos_iff, htake]
        omega
      have hbs : (link.stream.take size).length ≤
          sb.len.getD sb.maxlen - sb.buf.contents.length := by
        rw [htake]
        omega
      obtain ⟨sock', packet, packets', hread, hpks, hok'⟩ := read_data hfr
        { link.sock with streamBuf := sb }
        (fun space => .data (link.stream.take (chunkSize want space)))
        ⟨hok, hwf, hres⟩ hc hnext (by rw [hsize]) hne hbs h.lengths
        (by rw [append_assoc, take_append_drop]; exact hsent)
      rw [hread]
      refine ⟨_, packet, packets', rfl, hpks, hok', .inr ?_⟩
      -- at least one byte was taken off the stream
      have hcnt : packets'.length ≤ packets.length := by
        rw [hpks, length_append]
        omega
      show (link.stream.drop size).length + packets'.length < _
      rw [length_drop]
      omega

/-! ## Whole streams -/

/-- Over any number of turns the packets returned and those left are the packets
sent, and with enough turns none is left. -/
theorem TcpOk.run (hfr : FrameOk frame) (wants : List Nat) :
    ∀ {link : TcpLink} {packets : List Bytes}, TcpOk frame link packets →
      ∃ link' outs packets', Base.run tcpTurn link wants = some (link', outs) ∧
        packets = emitted outs ++ packets' ∧ TcpOk frame link' packets' ∧
        (packets' = [] ∨ wants.length + (link'.stream.length + packets'.length) ≤
          link.stream.length + packets.length) := by
  induction wants with
  | nil =>
    intro link packets h
    exact ⟨link, [], packets, rfl, rfl, h, .inr (by rw [length_nil]; omega)⟩
  | cons want wants ih =>
    intro link packets h
    obtain ⟨link1, packet, packets1, hturn, hpks, h1, hprogress⟩ := h.turn hfr want
    obtain ⟨link', outs, packets', hrun, hpackets1, h', hend⟩ := ih h1
    refine ⟨link', packet :: outs, packets', run_cons hturn hrun, ?_, h', ?_⟩
    · rw [hpks, hpackets1]
      cases packet with
      | none => rfl
      | some p => rfl
    · rcases hprogress with rfl | hprogress
      · exact .inl (append_eq_nil_iff.mp hpackets1.symm).2
      · rcases hend with hend | hend
        · exact .inl hend
        · right
          rw [length_cons]
          omega

/-- The bytes a sender puts on the wire for a sequence of packets. -/
def writeAll (maxlen : Nat) (bufs : List Buffer) : Option Bytes :=
  (bufs.mapM (linkSocketWriteTcp maxlen)).map flatten

theorem linkSocketWriteTcp_eq {maxlen : Nat} {buf : Buffer} (hroom : 2 ≤ buf.offset)
    (hmax : buf.contents.length ≤ maxlen) (hsize : buf.contents.length < 65536) :
    linkSocketWriteTcp maxlen buf = some (Base.frame 2 buf.contents) := by
  have hlen : buf.contents.length % 65536 = buf.contents.length := mod_eq_of_lt hsize
  have hpre : (beBytes PACKET_SIZE_SIZE buf.contents.length).length ≤ buf.offset := by
    rw [beBytes_length]
    exact hroom
  unfold linkSocketWriteTcp
  rw [hlen, if_pos hmax, bufWritePrepend, dif_pos hpre]
  rfl

theorem writeAll_eq {bufs : List Buffer} (hroom : ∀ buf ∈ bufs, 2 ≤ buf.offset)
    (hlen : PacketsOk frame (bufs.map (·.contents))) :
    writeAll frame.payloadSize bufs = some (frames 2 (bufs.map (·.contents))) := by
  have hmapM : bufs.mapM (linkSocketWriteTcp frame.payloadSize) =
      some (bufs.map (fun buf => Base.frame 2 buf.contents)) := by
    induction bufs with
    | nil => rfl
    | cons buf bufs ih =>
      obtain ⟨-, hmax, hsize⟩ := hlen buf.contents mem_cons_self
      rw [mapM_cons, linkSocketWriteTcp_eq (hroom buf mem_cons_self) hmax hsize,
        ih (fun b hb => hroom b (mem_cons_of_mem _ hb)) hlen.tail]
      rfl
  rw [writeAll, hmapM, map_some, frames, flatMap_map, flatMap_def]

/-- A connection on which nothing was read yet. -/
def tcpStart (frame : Frame) (stream : Bytes) : Option TcpLink :=
  ((allocBufSockTun frame).bind (streamBufInit · frame.payloadSize)).map
    (fun sb => ⟨⟨sb, false⟩, stream⟩)

theorem tcpOk_start (hfr : FrameOk frame) (hpks : PacketsOk frame packets) :
    ∃ link, tcpStart frame (frames 2 packets) = some link ∧
      link.stream = frames 2 packets ∧ TcpOk frame link packets := by
  have hal := hfr.alloc
  obtain ⟨memory, hmemory, -, hcap, -⟩ := allocBuf_isSome hal
  obtain ⟨buf, hbuf, hcap', hoff, hnil⟩ :=
    bufInit_isSome (show frame.headroom ≤ memory.capacity by omega)
  obtain ⟨residual, hres, -, hrescap, hresnil⟩ :=
    allocBuf_isSome (show frame.payloadSize < BUF_SIZE_MAX by omega)
  obtain ⟨sb, hsb, hinit⟩ : ∃ sb : StreamBuf,
      sb = ⟨buf, residual, frame.payloadSize, false, buf, none, none, false⟩ ∧
      streamBufInit buf frame.payloadSize = some sb := by
    refine ⟨_, rfl, ?_⟩
    unfold streamBufInit
    rw [hres]
    rfl
  refine ⟨⟨⟨sb, false⟩, frames 2 packets⟩, ?_, rfl, ?_⟩
  · unfold tcpStart allocBufSockTun
    rw [hmemory, bind_some, hbuf, bind_some, hinit, map_some]
  · subst hsb
    constructor
    · exact ⟨rfl, ⟨hoff, hnil, hcap'.trans hcap⟩, hcap'.trans hcap, hrescap, rfl⟩
    · exact .returned rfl rfl hoff hnil
    · exact hpks
    · show ([] ++ buf.contents ++ residual.contents) ++ frames 2 packets = frames 2 packets
      rw [hnil, hresnil]
      rfl

/-- **The packetizer inverts the writer.** Let packets of 1 to `maxlen` bytes,
whose length fits 16 bits, be written one after the other, and the stream arrive
in any pieces that fit the space the reader offers. Then no assertion fails on
either side, what was returned is always a prefix of what was written, and with
enough turns it is all of it. -/
theorem tcp_packets_returned_in_order {frame : Frame} (hframe : FrameOk frame)
    {bufs : List Buffer} (hroom : ∀ buf ∈ bufs, 2 ≤ buf.offset)
    (hlen : ∀ buf ∈ bufs, 1 ≤ buf.contents.length ∧
      buf.contents.length ≤ min frame.payloadSize 65535) (wants : List Nat) :
    ∃ stream link link' outs, writeAll frame.payloadSize bufs = some stream ∧
      tcpStart frame stream = some link ∧ run tcpTurn link wants = some (link', outs) ∧
      link'.sock.streamBuf.error = false ∧
      emitted outs <+: bufs.map (·.contents) ∧
      (stream.length + bufs.length ≤ wants.length → emitted outs = bufs.map (·.contents)) := by
  have hpackets : PacketsOk frame (bufs.map (·.contents)) := by
    intro p hp
    obtain ⟨buf, hbuf, rfl⟩ := mem_map.mp hp
    have := hlen buf hbuf
    omega
  obtain ⟨link, hstart, hstream, hok⟩ := tcpOk_start hframe hpackets
  obtain ⟨link', outs, packets', hrun, hsplit, hok', hend⟩ := hok.run hframe wants
  refine ⟨_, link, link', outs, writeAll_eq hroom hpackets, hstart, hrun, hok'.buffers.noError,
    ⟨packets', hsplit.symm⟩, ?_⟩
  intro hturns
  rcases hend with rfl | hend
  · rw [hsplit, append_nil]
  · -- more turns than bytes and packets: nothing can be left
    rw [hstream, length_map] at hend
    have hnone : packets' = [] := by
      apply eq_nil_of_length_eq_zero
      omega
    rw [hsplit, hnone, append_nil]

/-- Room for packets of eight bytes. -/
def smallFrame : Frame := ⟨4, 8, 2⟩

/-- Two packets of three and two bytes, received as four bytes, one byte and the
rest. -/
theorem tcp_packets_returned_in_order_two : ∃ stream link link' outs,
    writeAll smallFrame.payloadSize [⟨8, 4, [1, 2, 3], by decide⟩, ⟨8, 4, [4, 5], by decide⟩] =
      some stream ∧
    tcpStart smallFrame stream = some link ∧
    run tcpTurn link (4 :: 1 :: replicate 9 8) = some (link', outs) ∧
    emitted outs = [[1, 2, 3], [4, 5]] := by
  obtain ⟨stream, link, link', outs, hwrite, hstart, hrun, -, -, hall⟩ :=
    tcp_packets_returned_in_order
      (show FrameOk smallFrame from ⟨by decide, by decide, by decide⟩)
      (show ∀ buf ∈ ([⟨8, 4, [1, 2, 3], by decide⟩, ⟨8, 4, [4, 5], by decide⟩] : List Buffer),
        2 ≤ buf.offset by decide)
      (by decide) (4 :: 1 :: replicate 9 8)
  have hstream : stream = [0, 3, 1, 2, 3, 0, 2, 4, 5] :=
    some.inj (hwrite.symm.trans (by decide))
  refine ⟨stream, link, link', outs, hwrite, hstart, hrun, hall ?_⟩
  rw [hstream]
  decide

/-- Room for packets of `65537` bytes. -/
def largeFrame : Frame := ⟨4, 65537, 2⟩

/-- A packet of `65537` zero bytes. -/
def largePacket : Buffer :=
  ⟨65541, 4, replicate 65537 0, le_of_eq (by rw [length_replicate])⟩

/-- Its length is written as `1`, and the reader returns a packet of one byte. -/
theorem tcp_large_packet_cut_short : ∃ stream link link',
    largePacket.contents.length ≤ largeFrame.payloadSize ∧
    writeAll largeFrame.payloadSize [largePacket] = some stream ∧
    tcpStart largeFrame stream = some link ∧
    run tcpTurn link [3] = some (link', [some [0]]) := by
  have hlen : largePacket.contents.length = 65537 := length_replicate
  have hwrite : linkSocketWriteTcp 65537 largePacket =
      some (0 :: 1 :: 0 :: replicate 65536 0) := by
    unfold linkSocketWriteTcp
    rw [hlen]
    rfl
  have hread : ((tcpStart largeFrame (0 :: 1 :: 0 :: replicate 65536 0)).bind
      (run tcpTurn · [3])).map Prod.snd = some [some [0]] := by
    decide +kernel
  obtain ⟨⟨link', outs⟩, hrun, houts⟩ := map_eq_some_iff.mp hread
  obtain ⟨link, hstart, hrun⟩ := bind_eq_some_iff.mp hrun
  cases houts
  refine ⟨_, link, link', le_of_eq hlen, ?_, hstart, hrun⟩
  rw [writeAll, mapM_cons, show largeFrame.payloadSize = 65537 from rfl, hwrite]
  show some ([_].flatten) = _
  rw [flatten_singleton]

end OpenVpn
