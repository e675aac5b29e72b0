import OpenVpn.Util.Buffer

/-!
# The framing of compressed packets (`comp.c`, `compstub.c`, `comp-lz4.c`)

Packets are no longer compressed when they are sent, but they are still framed as if
they could be. In the first version of the framing every packet gets a header byte,
either in front or, with swap, in place of its first byte, which moves to the end. In
the second version only a packet that begins with the indicator byte gets a header.

* `compress`, `decompress` — the two functions of an algorithm. The LZ4 library is a
  parameter. An abort stands for a failed `ASSERT` or a write through a null pointer.
* `unswapHead_contents` — the swap is undone.
* `compress_round_trip_iff` — which packets come back as they were.
-/

namespace OpenVpn

open Base List

def NO_COMPRESS_BYTE : UInt8 := 0xFA
def NO_COMPRESS_BYTE_SWAP : UInt8 := 0xFB
def LZ4_COMPRESS_BYTE : UInt8 := 0x69
def COMP_ALGV2_INDICATOR_BYTE : UInt8 := 0x50
def COMP_ALGV2_UNCOMPRESSED_BYTE : UInt8 := 0
def COMP_ALGV2_LZ4_BYTE : UInt8 := 1

/-- The algorithms, with their numbers in `struct compress_options`. -/
inductive CompAlg
  | stub
  | lz4
  | stubV2
  | lz4V2
  deriving DecidableEq

def CompAlg.number : CompAlg → Nat
  | .stub => 1
  | .lz4 => 4
  | .stubV2 => 10
  | .lz4V2 => 11

/-- `struct compress_context`; `swap` is the flag `COMP_F_SWAP`. -/
structure CompressContext where
  alg : CompAlg
  swap : Bool
  preDecompress : Nat
  postDecompress : Nat
  deriving DecidableEq

/-! ## Sending -/

theorem Buffer.setHead_fits (buf : Buffer) (c : UInt8) :
    buf.offset + (buf.contents.set 0 c).length ≤ buf.capacity := by
  rw [length_set]
  exact buf.fits

/-- Write the first byte of the window. -/
def Buffer.setHead (buf : Buffer) (c : UInt8) : Buffer :=
  { buf with contents := buf.contents.set 0 c, fits := buf.setHead_fits c }

/-- The first byte moves to the end and `header` takes its place. -/
def swapHead (header : UInt8) (buf : Buffer) : Option Buffer :=
  match buf.contents with
  | [] => some buf
  | head :: _ => (bufWrite buf [head]).map (·.setHead header)

def stubCompress (swap : Bool) (buf : Buffer) : Option Buffer :=
  if buf.contents = [] then some buf
  else if swap then swapHead NO_COMPRESS_BYTE_SWAP buf
  else bufWritePrepend buf [NO_COMPRESS_BYTE]

def compv2EscapeDataIfneeded (buf : Buffer) : Option Buffer :=
  if buf.contents.head? = some COMP_ALGV2_INDICATOR_BYTE then
    bufWritePrepend buf [COMP_ALGV2_INDICATOR_BYTE, UInt8.ofNat CompAlg.stubV2.number]
  else some buf

/-- `stubv2_compress` and `lz4v2_compress`. -/
def compressV2 (buf : Buffer) : Option Buffer :=
  if buf.contents = [] then some buf else compv2EscapeDataIfneeded buf

/-- `compctx->alg.compress`. -/
def compress (ctx : CompressContext) (buf : Buffer) : Option Buffer :=
  match ctx.alg with
  | .stub => stubCompress ctx.swap buf
  | .lz4 => swapHead NO_COMPRESS_BYTE_SWAP buf
  | .stubV2 => compressV2 buf
  | .lz4V2 => compressV2 buf

/-! ## Receiving -/

/-- The last byte moves back to the front. -/
def unswapHead (buf : Buffer) : Buffer :=
  match buf.contents.getLast? with
  | none => buf
  | some tail => (bufTruncate buf (buf.contents.length - 1)).setHead tail

/-- `buf->len = 0`. -/
def bufDrop (buf : Buffer) : Buffer := bufTruncate buf 0

def stubDecompress (swap : Bool) (buf : Buffer) : Option Buffer :=
  match buf.contents.head? with
  | none => some buf
  | some c =>
    if swap then
      some (if c = NO_COMPRESS_BYTE_SWAP then unswapHead buf else bufDrop (unswapHead buf))
    else
      (bufAdvance buf 1).map fun buf => if c = NO_COMPRESS_BYTE then buf else bufDrop buf

def stubv2Decompress (buf : Buffer) : Option Buffer :=
  match buf.contents with
  | [] => some buf
  | c :: rest =>
    if c ≠ COMP_ALGV2_INDICATOR_BYTE then some buf
    else
      match rest with
      | [] => bufAdvance buf 1
      | c :: _ =>
        (bufAdvance buf 2).map fun buf =>
          if c ≠ COMP_ALGV2_UNCOMPRESSED_BYTE then bufDrop buf else buf

/-- What the receiver has besides the packet: `LZ4_decompress_safe` with the limit of its
output, a work buffer, and the frame. -/
structure DecompressEnv where
  lz4DecompressSafe : Bytes → Nat → Option Bytes
  work : Buffer
  payloadSize : Nat
  headroom : Nat

/-- `do_lz4_decompress`; a failure or an empty result of the library drops the packet. -/
def doLz4Decompress (env : DecompressEnv) (work : Buffer) (ctx : CompressContext) (buf : Buffer) :
    Option (CompressContext × Buffer) :=
  if bufSafe work env.payloadSize = false then none
  else
    match env.lz4DecompressSafe buf.contents env.payloadSize with
    | none => some (ctx, bufDrop buf)
    | some [] => some (ctx, bufDrop buf)
    | some out =>
      (bufWrite work out).map fun work =>
        ({ ctx with
          preDecompress := ctx.preDecompress + buf.contents.length
          postDecompress := ctx.postDecompress + out.length }, work)

def lz4Decompress (env : DecompressEnv) (ctx : CompressContext) (buf : Buffer) :
    Option (CompressContext × Buffer) :=
  match buf.contents.head? with
  | none => some (ctx, buf)
  | some c =>
    match bufInit env.work env.headroom with
    | none => none
    | some work =>
      if c = LZ4_COMPRESS_BYTE then doLz4Decompress env work ctx (unswapHead buf)
      else if c = NO_COMPRESS_BYTE_SWAP then some (ctx, unswapHead buf)
      else some (ctx, bufDrop (unswapHead buf))

def lz4v2Decompress (env : DecompressEnv) (ctx : CompressContext) (buf : Buffer) :
    Option (CompressContext × Buffer) :=
  match buf.contents with
  | [] => some (ctx, buf)
  | c :: rest =>
    match bufInit env.work env.headroom with
    | none => none
    | some work =>
      if c ≠ COMP_ALGV2_INDICATOR_BYTE then some (ctx, buf)
      else
        match rest with
        | [] => some (ctx, bufDrop buf)
        | c :: _ =>
          if c = COMP_ALGV2_LZ4_BYTE then
            (bufAdvance buf 2).bind (doLz4Decompress env work ctx)
          else if c = COMP_ALGV2_UNCOMPRESSED_BYTE then (bufAdvance buf 2).map (ctx, ·)
          else some (ctx, bufDrop buf)

/-- `compctx->alg.decompress`. -/
def decompress (env : DecompressEnv) (ctx : CompressContext) (buf : Buffer) :
    Option (CompressContext × Buffer) :=
  match ctx.alg with
  | .stub => (stubDecompress ctx.swap buf).map (ctx, ·)
  | .lz4 => lz4Decompress env ctx buf
  | .stubV2 => (stubv2Decompress buf).map (ctx, ·)
  | .lz4V2 => lz4v2Decompress env ctx buf

/-! ## The round trip -/

variable {buf rcv : Buffer} {c head : UInt8} {rest : Bytes}

theorem swapHead_contents (hbuf : buf.contents = head :: rest)
    (hroom : buf.offset + buf.contents.length + 1 ≤ buf.capacity) (header : UInt8) :
    ∃ sent, swapHead header buf = some sent ∧ sent.contents = header :: (rest ++ [head]) := by
  obtain ⟨dest, hwr, -, -, hcon⟩ := bufWrite_isSome buf [head] (by
    show 1 < BUF_SIZE_MAX
    decide) hroom
  refine ⟨dest.setHead header, ?_, ?_⟩
  · unfold swapHead
    rw [hbuf]
    dsimp only
    rw [hwr]
    rfl
  · show dest.contents.set 0 header = _
    rw [hcon, hbuf]
    rfl

theorem unswapHead_contents (h : rcv.contents = c :: (rest ++ [head])) :
    (unswapHead rcv).contents = head :: rest := by
  have hlast : rcv.contents.getLast? = some head := by
    rw [h, ← cons_append, getLast?_concat]
  have htake : rcv.contents.take (rcv.contents.length - 1) = c :: rest := by
    rw [← dropLast_eq_take, h, ← cons_append, dropLast_concat]
  unfold unswapHead
  rw [hlast]
  show (rcv.contents.take (rcv.contents.length - 1)).set 0 head = head :: rest
  rw [htake]
  rfl

/-- The packet has to be escaped. -/
def NeedsEscape (alg : CompAlg) (packet : Bytes) : Prop :=
  (alg = .stubV2 ∨ alg = .lz4V2) ∧ packet.head? = some COMP_ALGV2_INDICATOR_BYTE

/-- The receiver gets the packet back from the bytes that were sent. -/
def ComesBack (env : DecompressEnv) (ctx rctx : CompressContext) (buf : Buffer) : Prop :=
  ∃ sent, compress ctx buf = some sent ∧ ∀ rcv : Buffer, rcv.contents = sent.contents →
    ∃ rctx' out, decompress env rctx rcv = some (rctx', out) ∧ out.contents = buf.contents

section RoundTrip

variable (env : DecompressEnv) {ctx rctx : CompressContext}

theorem comesBack_nil (hbuf : buf.contents = []) : ComesBack env ctx rctx buf := by
  refine ⟨buf, ?_, ?_⟩
  · unfold compress stubCompress swapHead compressV2
    rw [hbuf]
    cases ctx.alg with
    | stub | lz4 | stubV2 | lz4V2 => rfl
  · intro rcv hrcv
    rw [hbuf] at hrcv
    refine ⟨rctx, rcv, ?_, hrcv.trans hbuf.symm⟩
    unfold decompress stubDecompress lz4Decompress stubv2Decompress lz4v2Decompress
    rw [hrcv]
    cases rctx.alg with
    | stub | lz4 | stubV2 | lz4V2 => rfl

theorem comesBack_stub (halg : ctx.alg = .stub) (halg' : rctx.alg = .stub)
    (hswap : rctx.swap = ctx.swap) (hbuf : buf.contents = head :: rest) (hhead : 2 ≤ buf.offset)
    (htail : buf.offset + buf.contents.length + 1 ≤ buf.capacity) : ComesBack env ctx rctx buf := by
  unfold ComesBack compress decompress
  rw [halg, halg']
  dsimp only
  unfold stubCompress stubDecompress
  rw [hswap, if_neg (by rw [hbuf]; exact cons_ne_nil _ _)]
  cases ctx.swap with
  | true =>
    obtain ⟨sent, hsent, hcon⟩ := swapHead_contents hbuf htail NO_COMPRESS_BYTE_SWAP
    refine ⟨sent, hsent, ?_⟩
    intro rcv hrcv
    rw [hcon] at hrcv
    refine ⟨rctx, unswapHead rcv, ?_, (unswapHead_contents hrcv).trans hbuf.symm⟩
    rw [hrcv]
    rfl
  | false =>
    obtain ⟨sent, hsent, -, hcon⟩ := bufWritePrepend_isSome
      (show [NO_COMPRESS_BYTE].length ≤ buf.offset from Nat.le_of_succ_le hhead)
    refine ⟨sent, hsent, ?_⟩
    intro rcv hrcv
    rw [hcon] at hrcv
    have hone : 1 ≤ rcv.contents.length := by
      rw [hrcv]
      exact Nat.succ_pos _
    obtain ⟨out, hout, -, -, hadvanced⟩ := bufAdvance_isSome hone
    refine ⟨rctx, out, ?_, ?_⟩
    · rw [hrcv, singleton_append, head?_cons]
      dsimp only
      rw [if_neg Bool.false_ne_true, hout]
      rfl
    · rw [hadvanced, hrcv]
      rfl

theorem comesBack_lz4 (halg : ctx.alg = .lz4) (halg' : rctx.alg = .lz4)
    (hbuf : buf.contents = head :: rest)
    (htail : buf.offset + buf.contents.length + 1 ≤ buf.capacity)
    (hwork : env.headroom ≤ env.work.capacity) : ComesBack env ctx rctx buf := by
  unfold ComesBack compress decompress
  rw [halg, halg']
  obtain ⟨sent, hsent, hcon⟩ := swapHead_contents hbuf htail NO_COMPRESS_BYTE_SWAP
  obtain ⟨work, hinit, -⟩ := bufInit_isSome hwork
  refine ⟨sent, hsent, ?_⟩
  intro rcv hrcv
  rw [hcon] at hrcv
  refine ⟨rctx, unswapHead rcv, ?_, (unswapHead_contents hrcv).trans hbuf.symm⟩
  unfold lz4Decompress
  rw [hrcv, hinit]
  rfl

theorem decompress_v2 (halg : rctx.alg = .stubV2 ∨ rctx.alg = .lz4V2)
    (hwork : env.headroom ≤ env.work.capacity) (hrcv : rcv.contents = head :: rest)
    (hplain : head ≠ COMP_ALGV2_INDICATOR_BYTE) : decompress env rctx rcv = some (rctx, rcv) := by
  obtain ⟨work, hinit, -⟩ := bufInit_isSome hwork
  unfold decompress stubv2Decompress lz4v2Decompress
  rw [hrcv, hinit]
  rcases halg with halg | halg
  · rw [halg]
    exact congrArg (Option.map _) (if_pos hplain)
  · rw [halg]
    exact if_pos hplain

theorem decompress_v2_escaped (halg : rctx.alg = .stubV2 ∨ rctx.alg = .lz4V2)
    (hwork : env.headroom ≤ env.work.capacity)
    (hrcv : rcv.contents = COMP_ALGV2_INDICATOR_BYTE :: 10 :: rest) :
    ∃ out, decompress env rctx rcv = some (rctx, out) ∧ out.contents = [] := by
  obtain ⟨work, hinit, -⟩ := bufInit_isSome hwork
  unfold decompress stubv2Decompress lz4v2Decompress
  rw [hrcv, hinit]
  rcases halg with halg | halg
  · rw [halg]
    have htwo : 2 ≤ rcv.contents.length := by
      rw [hrcv]
      simp
    obtain ⟨out, hout, -⟩ := bufAdvance_isSome htwo
    refine ⟨bufDrop out, ?_, rfl⟩
    dsimp only
    rw [if_neg (not_not.mpr rfl), hout]
    rfl
  · rw [halg]
    exact ⟨bufDrop rcv, rfl, rfl⟩

theorem comesBack_v2 (halg : ctx.alg = .stubV2 ∨ ctx.alg = .lz4V2) (halg' : rctx.alg = ctx.alg)
    (hbuf : buf.contents = head :: rest) (hwork : env.headroom ≤ env.work.capacity) :
    ComesBack env ctx rctx buf ↔ head ≠ COMP_ALGV2_INDICATOR_BYTE := by
  have hcompress : compress ctx buf = compv2EscapeDataIfneeded buf := by
    have hne : ¬ buf.contents = [] := by rw [hbuf]; exact cons_ne_nil _ _
    unfold compress
    rcases halg with halg | halg
    · rw [halg]
      exact if_neg hne
    · rw [halg]
      exact if_neg hne
  unfold ComesBack
  rw [hcompress, compv2EscapeDataIfneeded, hbuf, head?_cons]
  constructor
  · intro ⟨sent, hsent, hback⟩ heq
    rw [heq, if_pos rfl] at hsent
    have hcon : sent.contents = COMP_ALGV2_INDICATOR_BYTE :: 10 :: buf.contents :=
      (bufWritePrepend_eq_some hsent).2
    rw [← halg'] at halg
    obtain ⟨out, hdrop, hnil⟩ := decompress_v2_escaped env halg hwork hcon
    obtain ⟨rctx', out', hout', hsame⟩ := hback sent rfl
    rw [hdrop] at hout'
    cases hout'
    rw [hnil] at hsame
    cases hsame
  · intro hne
    rw [if_neg (fun heq => hne (Option.some.inj heq))]
    refine ⟨buf, rfl, ?_⟩
    intro rcv hrcv
    rw [hbuf] at hrcv
    exact ⟨rctx, rcv, decompress_v2 env (by rw [halg']; exact halg) hwork hrcv hne, hrcv⟩

/-- **The framing.** With room for the header, a packet comes back as it was iff it does
not need the escape of the second version. -/
theorem compress_round_trip_iff (env : DecompressEnv) (ctx rctx : CompressContext) (buf : Buffer)
    (halg : rctx.alg = ctx.alg ∧ rctx.swap = ctx.swap) (hhead : 2 ≤ buf.offset)
    (htail : buf.offset + buf.contents.length + 1 ≤ buf.capacity)
    (hwork : env.headroom ≤ env.work.capacity) :
    ComesBack env ctx rctx buf ↔ ¬ NeedsEscape ctx.alg buf.contents := by
  unfold NeedsEscape
  cases hbuf : buf.contents with
  | nil => exact iff_of_true (comesBack_nil env hbuf) (fun h => by cases h.2)
  | cons head rest =>
    rw [head?_cons, Option.some.injEq]
    cases hctx : ctx.alg with
    | stub =>
      exact iff_of_true (comesBack_stub env hctx (halg.1.trans hctx) halg.2 hbuf hhead htail)
        (by simp)
    | lz4 =>
      exact iff_of_true (comesBack_lz4 env hctx (halg.1.trans hctx) hbuf htail hwork) (by simp)
    | stubV2 =>
      rw [comesBack_v2 env (.inl hctx) halg.1 hbuf hwork]
      exact ⟨fun h h' => h h'.2, fun h h' => h ⟨.inl rfl, h'⟩⟩
    | lz4V2 =>
      rw [comesBack_v2 env (.inr hctx) halg.1 hbuf hwork]
      exact ⟨fun h h' => h h'.2, fun h h' => h ⟨.inr rfl, h'⟩⟩

end RoundTrip

/-- A receiver whose LZ4 library fails. -/
def plainEnv : DecompressEnv := ⟨fun _ _ => none, ⟨64, 0, [], by decide⟩, 40, 8⟩

theorem compress_round_trip_ipv4 :
    ComesBack plainEnv ⟨.stubV2, false, 0, 0⟩ ⟨.stubV2, false, 0, 0⟩
      ⟨64, 8, [0x45, 0, 0, 20], by decide⟩ :=
  (compress_round_trip_iff plainEnv ⟨.stubV2, false, 0, 0⟩ ⟨.stubV2, false, 0, 0⟩
    ⟨64, 8, [0x45, 0, 0, 20], by decide⟩ ⟨rfl, rfl⟩ (by decide) (by decide) (by decide)).mpr
    fun h => absurd h.2 (by decide)

/-- The escape carries the number of the algorithm, 10, where the receiver looks for 0, so
that an escaped packet is dropped. -/
theorem escaped_packet_dropped :
    (compress ⟨.stubV2, false, 0, 0⟩ ⟨64, 8, [0x50, 1], by decide⟩).map (·.contents) =
        some [0x50, 10, 0x50, 1] ∧
      (decompress plainEnv ⟨.stubV2, false, 0, 0⟩ ⟨64, 6, [0x50, 10, 0x50, 1], by decide⟩).map
        (·.2.contents) = some [] ∧
      (decompress plainEnv ⟨.lz4V2, false, 0, 0⟩ ⟨64, 6, [0x50, 10, 0x50, 1], by decide⟩).map
        (·.2.contents) = some [] := by
  decide

end OpenVpn
