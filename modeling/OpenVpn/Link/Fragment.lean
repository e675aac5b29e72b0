import OpenVpn.Base.Run
import OpenVpn.Util.Buffer
import OpenVpn.Util.CircList

/-!
# Fragments of datagrams (`fragment.c`)

A datagram that is larger than the link allows is sent in up to 32 fragments of
equal size, the last one shorter. A header of four bytes says whether a packet is
a whole datagram, a fragment or the last fragment, the number of the datagram
modulo 256, the number of the fragment and, in the last one, the fragment size.
The receiver has 25 buffers for the datagrams with the latest numbers.

The buffers of the sender are large enough; `room` is the size of a buffer of the
receiver.

* `fragmentOutgoing`, `fragmentReadyToSend` — the sender; `emissions` are the
  packets it makes of a list of datagrams.
* `fragmentListGetBuf`, `fragmentIncoming` — the receiver.
* `emissions_eq` — which packets are sent.
-/

namespace OpenVpn

open Base List Nat

def N_FRAG_BUF : Int := 25
def N_SEQ_ID : Int := 256
def MAX_FRAGS : Nat := 32

/-! ## Header -/

/-- The types of packets. -/
inductive FragType where
  | whole
  | yesNotlast
  | yesLast
  | test
  deriving DecidableEq

def FragType.code : FragType → Nat
  | .whole => 0
  | .yesNotlast => 1
  | .yesLast => 2
  | .test => 3

/-- `fragment_prepend_flags`; the masked fields do not overlap. -/
def fragmentPrependFlags (type : FragType) (seqId : Int) (fragId fragSize : Nat) (buf : Bytes) :
    Bytes :=
  let flags := type.code + (seqId % 256).toNat * 2 ^ 2 + fragId % 32 * 2 ^ 10
  let flags := if type = .whole ∨ type = .yesNotlast then flags
    else flags + fragSize / 4 % 2 ^ 14 * 2 ^ 15
  beBytes 4 flags ++ buf

/-! ## Sender -/

/-- The part of `struct fragment_master` that sends. -/
structure FragmentSender where
  outgoingSeqId : Int
  outgoingFragSize : Nat
  outgoingFragId : Nat
  outgoing : Bytes

def optimalFragmentSize (len maxFragSize : Nat) : Nat :=
  let mfsAligned := maxFragSize / 4 * 4
  let div := len / mfsAligned
  let mod := len % mfsAligned
  if 0 < div ∧ 0 < mod ∧ mod < mfsAligned * 3 / 4 then
    min mfsAligned ((maxFragSize - (maxFragSize - mod) / (div + 1) + 3) / 4 * 4)
  else mfsAligned

def fragmentReadyToSend (f : FragmentSender) : FragmentSender × Option Bytes :=
  if f.outgoing = [] then (f, none)
  else
    let last := decide (f.outgoing.length ≤ f.outgoingFragSize)
    let size := if last then f.outgoing.length else f.outgoingFragSize
    let packet := fragmentPrependFlags (if last then .yesLast else .yesNotlast) f.outgoingSeqId
      f.outgoingFragId f.outgoingFragSize (f.outgoing.take size)
    ({ f with outgoingFragId := f.outgoingFragId + 1, outgoing := f.outgoing.drop size },
      some packet)

/-- `fragment_outgoing`: the first packet of a datagram; there is none if it would take
too many fragments. -/
def fragmentOutgoing (maxFragmentSize : Nat) (f : FragmentSender) (buf : Bytes) :
    FragmentSender × Option Bytes :=
  if buf = [] then (f, none)
  else if maxFragmentSize < buf.length then
    let f := { f with outgoingFragSize := optimalFragmentSize buf.length maxFragmentSize }
    if f.outgoingFragSize * MAX_FRAGS < buf.length then (f, none)
    else
      fragmentReadyToSend { f with
        outgoing := buf
        outgoingSeqId := moduloAdd f.outgoingSeqId 1 N_SEQ_ID
        outgoingFragId := 0 }
  else (f, some (fragmentPrependFlags .whole 0 0 0 buf))

/-- The datagram is sent. -/
def FragmentAccepts (maxFragmentSize : Nat) (buf : Bytes) : Prop :=
  buf ≠ [] ∧ (maxFragmentSize < buf.length →
    buf.length ≤ optimalFragmentSize buf.length maxFragmentSize * MAX_FRAGS)

instance (maxFragmentSize : Nat) (buf : Bytes) : Decidable (FragmentAccepts maxFragmentSize buf) :=
  inferInstanceAs (Decidable (_ ∧ (_ → _)))

/-- A packet on the link. A fragment bears the number of its datagram among those that
were fragmented, from zero, and its own. -/
structure Emission where
  fragment : Option (Nat × Nat)
  packet : Bytes
  deriving DecidableEq

/-- The packets that `fragment_ready_to_send` still has, numbered from `n`; a packet
takes at least a byte. -/
def drainOutgoing (k : Nat) : (fuel : Nat) → (n : Nat) → FragmentSender →
    FragmentSender × List Emission
  | 0, _, f => (f, [])
  | fuel + 1, n, f =>
    match fragmentReadyToSend f with
    | (f, none) => (f, [])
    | (f, some packet) =>
      let (f, rest) := drainOutgoing k fuel (n + 1) f
      (f, ⟨some (k, n), packet⟩ :: rest)

/-- All packets of a list of datagrams; `k` of them were fragmented before. -/
def emissions (maxFragmentSize : Nat) : FragmentSender → (k : Nat) → List Bytes → List Emission
  | _, _, [] => []
  | f, k, buf :: rest =>
    match fragmentOutgoing maxFragmentSize f buf with
    | (f, none) => emissions maxFragmentSize f k rest
    | (f, some packet) =>
      if maxFragmentSize < buf.length then
        let (f, more) := drainOutgoing k buf.length 1 f
        ⟨some (k, 0), packet⟩ :: more ++ emissions maxFragmentSize f (k + 1) rest
      else ⟨none, packet⟩ :: emissions maxFragmentSize f k rest

/-! ## Receiver -/

/-- `struct fragment`. The memory of its buffer outlives `buf_init`, which only sets the
length. -/
structure Fragment where
  defined : Bool
  maxFragSize : Nat
  map : BitVec 32
  mem : Nat → UInt8
  len : Nat

/-- `struct fragment_list`; the indices are 0 to 24. -/
structure FragmentList where
  seqId : Int
  index : Int
  fragments : Int → Fragment

def FragmentList.init : FragmentList := ⟨0, 0, fun _ => ⟨false, 0, 0, fun _ => 0, 0⟩⟩

/-- Nothing is reassembled in the buffer any more. -/
def Fragment.undefine (frag : Fragment) : Fragment := { frag with defined := false }

/-- The loop of `fragment_list_get_buf`. -/
def advanceWindow : (diff : Nat) → FragmentList → FragmentList
  | 0, list => list
  | diff + 1, list =>
    let index := moduloAdd list.index 1 N_FRAG_BUF
    advanceWindow diff
      { seqId := moduloAdd list.seqId 1 N_SEQ_ID
        index
        fragments := Function.update list.fragments index (list.fragments index).undefine }

/-- `fragment_list_get_buf`: the index of the buffer. -/
def fragmentListGetBuf (list : FragmentList) (seqId : Int) : FragmentList × Int :=
  let diff := moduloSubtract seqId list.seqId N_SEQ_ID
  if N_FRAG_BUF ≤ diff.natAbs then
    (⟨seqId, 0, fun i => (list.fragments i).undefine⟩, moduloAdd 0 0 N_FRAG_BUF)
  else if 0 < diff then
    let list := advanceWindow diff.toNat list
    (list, moduloAdd list.index 0 N_FRAG_BUF)
  else (list, moduloAdd list.index diff N_FRAG_BUF)

/-- `buf_copy_range` of all of `src` to `index`. -/
def bufCopyRange (room : Nat) (frag : Fragment) (index : Nat) (src : Bytes) : Option Fragment :=
  if room < index + src.length then none
  else
    some { frag with
      mem := fun i => if index ≤ i ∧ i < index + src.length then src.getD (i - index) 0
        else frag.mem i
      len := max frag.len (index + src.length) }

/-- A fragment with number `n` for a buffer: the buffer, and the datagram if it is
complete. -/
def fillFragment (room : Nat) (frag : Fragment) (last : Bool) (n size : Nat) (src : Bytes) :
    Fragment × Bytes :=
  -- the first fragment of the datagram sets the buffer up
  let frag := if !frag.defined || frag.maxFragSize ≠ size then
    { frag with defined := true, maxFragSize := size, map := 0, len := 0 } else frag
  match bufCopyRange room frag (n * size) src with
  | none => (frag, [])
  | some frag =>
    let map := frag.map ||| ((if last then BitVec.allOnes 32 else 1#32) <<< n)
    if map = BitVec.allOnes 32 then
      ({ frag with map, defined := false }, (range frag.len).map frag.mem)
    else ({ frag with map }, [])

/-- `fragment_incoming`: the datagram it leaves in the buffer, if any. -/
def fragmentIncoming (room : Nat) (list : FragmentList) (buf : Bytes) : FragmentList × Bytes :=
  match bufRead buf 4 with
  | none => (list, [])
  | some (header, src) =>
    let flags := beNat header
    if flags % 4 = FragType.whole.code then (list, if flags % 256 ≠ 0 then [] else src)
    else if flags % 4 = FragType.test.code then (list, [])
    else
      let seqId : Int := (flags / 2 ^ 2 % 256 : Nat)
      let n := flags / 2 ^ 10 % 32
      let last := decide (flags % 4 = FragType.yesLast.code)
      let size := if last then flags / 2 ^ 15 % 2 ^ 14 * 4 else src.length
      let (list, slot) := fragmentListGetBuf list seqId
      if size % 4 ≠ 0 then (list, [])
      else
        let (frag, out) := fillFragment room (list.fragments slot) last n size src
        ({ list with fragments := Function.update list.fragments slot frag }, out)

/-- The receiver as a step function; it sees only the bytes of the packet. -/
def fragmentStep (room : Nat) (list : FragmentList) (e : Emission) :
    Option (FragmentList × Bytes) :=
  some (fragmentIncoming room list e.packet)

/-! ## Arithmetic -/

theorem moduloSubtract_seqId (a b : Int) :
    let d := moduloSubtract (a % N_SEQ_ID) (b % N_SEQ_ID) N_SEQ_ID
    (a - b - d) % N_SEQ_ID = 0 ∧ (2 * (a - b).natAbs < 256 → d = a - b) := by
  have hturn : N_SEQ_ID = 256 := rfl
  by_cases hlt : a % N_SEQ_ID > b % N_SEQ_ID
  · simp only [moduloSubtract, if_pos hlt]
    split <;> simp only [hturn] at * <;> omega
  · simp only [moduloSubtract, if_neg hlt]
    split <;> simp only [hturn] at * <;> omega

theorem exists_seqId (a : Int) : ∃ seq : Nat, seq < 256 ∧ a % N_SEQ_ID = seq := by
  show ∃ seq : Nat, seq < 256 ∧ a % 256 = seq
  exact ⟨(a % 256).toNat, by omega, by omega⟩

theorem moduloAdd_seqId (a : Int) : moduloAdd (a % N_SEQ_ID) 1 N_SEQ_ID = (a + 1) % N_SEQ_ID := by
  have hok : ModuloAddOk (a % N_SEQ_ID) 1 N_SEQ_ID := by
    simp only [ModuloAddOk, N_SEQ_ID]
    omega
  rw [moduloAdd_eq_emod hok, Int.emod_add_emod]

theorem moduloAdd_index {i d : Int} (hi : 0 ≤ i ∧ i < N_FRAG_BUF) (hd : d.natAbs ≤ 25) :
    moduloAdd i d N_FRAG_BUF = (i + d) % N_FRAG_BUF := by
  apply moduloAdd_eq_emod
  simp only [ModuloAddOk, N_FRAG_BUF] at hi ⊢
  omega

/-! ## The size of fragments -/

theorem optimalFragmentSize_bounds (len : Nat) {maxFragSize : Nat} (hmax : 4 ≤ maxFragSize) :
    4 ≤ optimalFragmentSize len maxFragSize ∧ optimalFragmentSize len maxFragSize ≤ maxFragSize ∧
      optimalFragmentSize len maxFragSize % 4 = 0 := by
  simp only [optimalFragmentSize]
  split
  case isFalse => omega
  case isTrue h =>
    -- at most half of the rest is taken away
    have hdiv : (maxFragSize - len % (maxFragSize / 4 * 4)) / (len / (maxFragSize / 4 * 4) + 1) ≤
        (maxFragSize - len % (maxFragSize / 4 * 4)) / 2 :=
      div_le_div_left (by omega) (by decide)
    generalize (maxFragSize - len % (maxFragSize / 4 * 4)) / (len / (maxFragSize / 4 * 4) + 1) = t
      at hdiv
    omega

theorem optimalFragmentSize_pos (len : Nat) {maxFragSize : Nat} (hmax : 4 ≤ maxFragSize) :
    0 < optimalFragmentSize len maxFragSize :=
  lt_of_lt_of_le (by decide) (optimalFragmentSize_bounds len hmax).1

/-! ## What is sent -/

/-- The number of fragments of a datagram of `len` bytes. -/
def fragCount (len size : Nat) : Nat := (len + size - 1) / size

variable {len size n : Nat}

theorem lt_fragCount (hsize : 0 < size) : n < fragCount len size ↔ n * size < len := by
  rw [fragCount, lt_iff_add_one_le, le_div_iff_mul_le hsize, add_one_mul]
  omega

theorem fragCount_le (len : Nat) (hsize : 0 < size) : fragCount len size ≤ len := by
  rw [← not_lt, lt_fragCount hsize, not_lt]
  exact Nat.le_mul_of_pos_right len hsize

theorem fragCount_le_iff (hsize : 0 < size) : fragCount len size ≤ n ↔ len ≤ n * size := by
  rw [← not_lt, lt_fragCount hsize, not_lt]

theorem fragCount_anti {small large : Nat} (hsm : 0 < small) (hle : small ≤ large) :
    fragCount len large ≤ fragCount len small := by
  rw [fragCount_le_iff (hsm.trans_le hle)]
  have hcover : len ≤ fragCount len small * small := (fragCount_le_iff hsm).mp (le_refl _)
  exact hcover.trans (mul_le_mul_left _ hle)

theorem fragCount_of_mod_pos (hsize : 0 < size) (hmod : 0 < len % size) :
    fragCount len size = len / size + 1 := by
  have hspl : len = len / size * size + len % size := (div_add_mod' len size).symm
  have hrest : len % size < size := mod_lt len hsize
  apply le_antisymm
  · rw [fragCount_le_iff hsize, add_one_mul]
    omega
  · show len / size < fragCount len size
    rw [lt_fragCount hsize]
    omega

theorem len_le_mul_reduced (maxFragSize len : Nat) {aligned : Nat} (hal : 0 < aligned)
    (hle : aligned ≤ maxFragSize) :
    len ≤ (len / aligned + 1) *
      (maxFragSize - (maxFragSize - len % aligned) / (len / aligned + 1)) := by
  have hspl : len = len / aligned * aligned + len % aligned :=
    (div_add_mod' len aligned).symm
  have hrest : len % aligned < aligned := mod_lt len hal
  generalize len / aligned = div at hspl ⊢
  generalize len % aligned = mod at hspl hrest ⊢
  have hspare : (div + 1) * ((maxFragSize - mod) / (div + 1)) ≤ maxFragSize - mod :=
    mul_div_le (maxFragSize - mod) (div + 1)
  have hfull : div * aligned ≤ div * maxFragSize := mul_le_mul_left div hle
  rw [Nat.mul_sub, Nat.add_one_mul]
  omega

theorem fragCount_optimalFragmentSize (len : Nat) {maxFragSize : Nat} (hmax : 4 ≤ maxFragSize) :
    fragCount len (optimalFragmentSize len maxFragSize) = fragCount len (maxFragSize / 4 * 4) := by
  have hal : 0 < maxFragSize / 4 * 4 := by omega
  have hle : maxFragSize / 4 * 4 ≤ maxFragSize := div_mul_le_self maxFragSize 4
  have hpos := optimalFragmentSize_pos len hmax
  have hreduced := len_le_mul_reduced maxFragSize len hal hle
  apply le_antisymm
  · revert hpos
    unfold optimalFragmentSize
    dsimp only
    split
    case isFalse =>
      intro _
      exact le_refl _
    case isTrue h =>
      intro hpos
      rw [fragCount_of_mod_pos hal h.2.1, fragCount_le_iff hpos]
      rcases le_total (maxFragSize / 4 * 4) ((maxFragSize - (maxFragSize -
        len % (maxFragSize / 4 * 4)) / (len / (maxFragSize / 4 * 4) + 1) + 3) / 4 * 4) with hmin | hmin
      · rw [min_eq_left hmin]
        exact (fragCount_le_iff hal).mp
          (le_of_eq (fragCount_of_mod_pos hal h.2.1))
      · rw [min_eq_right hmin]
        refine hreduced.trans (mul_le_mul_left _ ?_)
        omega
  · apply fragCount_anti hpos
    unfold optimalFragmentSize
    dsimp only
    split
    · exact min_le_left _ _
    · exact le_refl _

theorem fragmentOutgoing_refuses_iff {maxFragmentSize : Nat} (hmax : 4 ≤ maxFragmentSize)
    {buf : Bytes} (hlen : maxFragmentSize < buf.length) {f : FragmentSender} :
    (fragmentOutgoing maxFragmentSize f buf).2 = none ↔
      MAX_FRAGS < fragCount buf.length (maxFragmentSize / 4 * 4) := by
  have hne : buf ≠ [] := ne_nil_of_length_pos (by omega)
  have hpos := optimalFragmentSize_pos buf.length hmax
  rw [← fragCount_optimalFragmentSize buf.length hmax, lt_fragCount hpos, mul_comm]
  unfold fragmentOutgoing
  rw [if_neg hne, if_pos hlen]
  dsimp only
  split
  case isTrue h => exact ⟨fun _ => h, fun _ => rfl⟩
  case isFalse h =>
    refine ⟨fun hnone => absurd hnone ?_, fun h' => absurd h' h⟩
    unfold fragmentReadyToSend
    rw [if_neg hne]
    exact Option.some_ne_none _

/-- **The size of fragments.** The optimised size is a multiple of four within the limit
and takes no more fragments than the limit itself. -/
theorem fragment_size_optimal {maxFragSize len : Nat} (hmax : 4 ≤ maxFragSize)
    (hlen : maxFragSize < len) :
    (0 < optimalFragmentSize len maxFragSize ∧ optimalFragmentSize len maxFragSize % 4 = 0 ∧
        optimalFragmentSize len maxFragSize ≤ maxFragSize) ∧
      fragCount len (optimalFragmentSize len maxFragSize) =
        fragCount len (maxFragSize / 4 * 4) ∧
      ∀ (f : FragmentSender) (buf : Bytes), buf.length = len →
        ((fragmentOutgoing maxFragSize f buf).2 = none ↔
          MAX_FRAGS < fragCount len (maxFragSize / 4 * 4)) := by
  obtain ⟨-, hle, hmod⟩ := optimalFragmentSize_bounds len hmax
  refine ⟨⟨optimalFragmentSize_pos len hmax, hmod, hle⟩, fragCount_optimalFragmentSize len hmax, ?_⟩
  intro f buf hbuf
  subst hbuf
  exact fragmentOutgoing_refuses_iff hmax hlen

/-- A limit of 1003 and 1100 bytes: 552 bytes a fragment, and still two of them. -/
theorem fragment_size_optimal_1100 :
    optimalFragmentSize 1100 1003 = 552 ∧
      fragCount 1100 (optimalFragmentSize 1100 1003) = fragCount 1100 1000 :=
  ⟨rfl, (fragment_size_optimal (by decide) (by decide)).2.1⟩

def fragChunk (data : Bytes) (size n : Nat) : Bytes := (data.drop (n * size)).take size

def fragPacket (seqId : Int) (data : Bytes) (size n : Nat) : Bytes :=
  fragmentPrependFlags (if n + 1 = fragCount data.length size then .yesLast else .yesNotlast)
    seqId n size (fragChunk data size n)

/-- The sender has sent the first `n` fragments of a datagram. -/
def FragmentSender.sending (f : FragmentSender) (seqId : Int) (data : Bytes) (size n : Nat) :
    Prop :=
  f.outgoingSeqId = seqId ∧ f.outgoingFragSize = size ∧ f.outgoingFragId = n ∧
    f.outgoing = data.drop (n * size)

variable {data : Bytes}

/-- A call hands out the next fragment, until there are none. -/
theorem fragmentReadyToSend_sending {f : FragmentSender} {seqId : Int}
    (hf : f.sending seqId data size n) (hsize : 0 < size) :
    if n < fragCount data.length size then
      ∃ f', fragmentReadyToSend f = (f', some (fragPacket seqId data size n)) ∧
        f'.sending seqId data size (n + 1)
    else fragmentReadyToSend f = (f, none) := by
  obtain ⟨hseq, hfs, hid, hout⟩ := hf
  have hlen : f.outgoing.length = data.length - n * size := by rw [hout, length_drop]
  split
  case isFalse hend =>
    rw [lt_fragCount hsize] at hend
    have hnil : f.outgoing = [] := eq_nil_of_length_eq_zero (by omega)
    simp [fragmentReadyToSend, hnil]
  case isTrue hmore =>
    have hlt := (lt_fragCount hsize).mp hmore
    have hne : f.outgoing ≠ [] := ne_nil_of_length_pos (by omega)
    have hlast : f.outgoing.length ≤ f.outgoingFragSize ↔ n + 1 = fragCount data.length size := by
      have hnext : n + 1 < fragCount data.length size ↔ (n + 1) * size < data.length :=
        lt_fragCount hsize
      rw [hlen, hfs]
      rw [add_one_mul] at hnext
      omega
    simp only [fragmentReadyToSend, if_neg hne, hlast, decide_eq_true_eq]
    have hdrop : f.outgoing.drop size = data.drop ((n + 1) * size) := by
      rw [hout, drop_drop, add_one_mul]
    refine ⟨⟨seqId, size, n + 1, data.drop ((n + 1) * size)⟩, ?_, rfl, rfl, rfl, rfl⟩
    split
    case isTrue hcnt =>
      -- the last fragment is all that is left
      have hsh := hlast.mpr hcnt
      rw [hfs] at hsh
      have hchunk : fragChunk data size n = f.outgoing := by
        rw [fragChunk, ← hout, take_of_length_le hsh]
      rw [fragPacket, if_pos hcnt, hchunk, hseq, hid, hfs, take_length, drop_length,
        ← hdrop, drop_eq_nil_of_le hsh]
    case isFalse hcnt =>
      rw [fragPacket, if_neg hcnt, fragChunk, ← hout, hseq, hid, hfs, hdrop]

/-- The fragments from number `n` on. -/
def fragEmissions (k : Nat) (seqId : Int) (data : Bytes) (size n : Nat) : List Emission :=
  (range' n (fragCount data.length size - n)).map fun i =>
    ⟨some (k, i), fragPacket seqId data size i⟩

theorem fragEmissions_succ (k : Nat) (seqId : Int) (hn : n < fragCount data.length size) :
    fragEmissions k seqId data size n =
      ⟨some (k, n), fragPacket seqId data size n⟩ :: fragEmissions k seqId data size (n + 1) := by
  have hcnt : fragCount data.length size - n = fragCount data.length size - (n + 1) + 1 := by
    omega
  rw [fragEmissions, fragEmissions, hcnt, range'_succ, map_cons]

theorem drainOutgoing_sending (k : Nat) {seqId : Int} (hsize : 0 < size) (fuel : Nat) :
    ∀ (n : Nat) (f : FragmentSender), f.sending seqId data size n →
      fragCount data.length size ≤ n + fuel →
      (drainOutgoing k fuel n f).1.outgoingSeqId = seqId ∧
        (drainOutgoing k fuel n f).2 = fragEmissions k seqId data size n := by
  induction fuel with
  | zero =>
    intro n f hf hfuel
    have hnone : fragCount data.length size - n = 0 := by omega
    exact ⟨hf.1, by simp [drainOutgoing, fragEmissions, hnone]⟩
  | succ fuel ih =>
    intro n f hf hfuel
    have hnext := fragmentReadyToSend_sending hf hsize
    split at hnext
    case isFalse hend =>
      have hnone : fragCount data.length size - n = 0 := by omega
      simp [drainOutgoing, hnext, fragEmissions, hnone, hf.1]
    case isTrue hmore =>
      obtain ⟨f', hrdy, hf'⟩ := hnext
      obtain ⟨hseq, hlist⟩ := ih (n + 1) f' hf' (by omega)
      simp only [drainOutgoing, hrdy]
      exact ⟨hseq, by rw [hlist, fragEmissions_succ k seqId hmore]⟩

/-- The packets of the datagrams, if `k` were fragmented before. -/
def sentPackets (maxFragmentSize : Nat) (start : Int) : (k : Nat) → List Bytes → List Emission
  | _, [] => []
  | k, buf :: rest =>
    if maxFragmentSize < buf.length then
      fragEmissions k ((start + k + 1) % N_SEQ_ID) buf
        (optimalFragmentSize buf.length maxFragmentSize) 0 ++
        sentPackets maxFragmentSize start (k + 1) rest
    else ⟨none, fragmentPrependFlags .whole 0 0 0 buf⟩ ::
      sentPackets maxFragmentSize start k rest

/-- **The sender.** The datagrams it accepts are sent whole, or in all their fragments
under the next sequence id. -/
theorem emissions_eq {maxFragmentSize : Nat} (hmax : 4 ≤ maxFragmentSize) (start : Int)
    {datagrams : List Bytes} (hacc : ∀ d ∈ datagrams, FragmentAccepts maxFragmentSize d) :
    ∀ (f : FragmentSender) (k : Nat), f.outgoingSeqId = (start + k) % N_SEQ_ID →
      emissions maxFragmentSize f k datagrams = sentPackets maxFragmentSize start k datagrams := by
  induction datagrams with
  | nil =>
    intro f k hf
    rfl
  | cons d rest ih =>
    intro f k hf
    obtain ⟨hne, hcnt⟩ := hacc d mem_cons_self
    have hrest := ih fun d' hd' => hacc d' (mem_cons_of_mem d hd')
    by_cases hfrag : maxFragmentSize < d.length
    · have hsize := optimalFragmentSize_pos d.length hmax
      have hfew := hcnt hfrag
      generalize hs : optimalFragmentSize d.length maxFragmentSize = size at hsize hfew
      -- the sender once the datagram is in its buffer
      let f0 : FragmentSender := ⟨(start + k + 1) % N_SEQ_ID, size, 0, d⟩
      have hf0 : f0.sending ((start + k + 1) % N_SEQ_ID) d size 0 :=
        ⟨rfl, rfl, rfl, by simp [f0]⟩
      have hout : fragmentOutgoing maxFragmentSize f d = fragmentReadyToSend f0 := by
        simp only [fragmentOutgoing, if_neg hne, if_pos hfrag, hs, hf, moduloAdd_seqId]
        rw [if_neg (by omega)]
      have hpos : 0 < fragCount d.length size := by
        rw [lt_fragCount hsize]
        omega
      have hnext := fragmentReadyToSend_sending hf0 hsize
      rw [if_pos hpos] at hnext
      obtain ⟨f1, hrdy, hf1⟩ := hnext
      obtain ⟨hseq, hlist⟩ := drainOutgoing_sending k hsize d.length 1 f1 hf1 (by
        have hle := fragCount_le d.length hsize
        omega)
      rw [emissions, hout, hrdy, sentPackets, if_pos hfrag, hs]
      simp only [if_pos hfrag]
      rw [hrest _ (k + 1) (by rw [hseq, Int.natCast_succ, Int.add_assoc]), hlist]
      rw [fragEmissions_succ k _ hpos]
    · have hout : fragmentOutgoing maxFragmentSize f d =
          (f, some (fragmentPrependFlags .whole 0 0 0 d)) := by
        simp [fragmentOutgoing, hne, hfrag]
      rw [emissions, hout, sentPackets, if_neg hfrag]
      simp only [if_neg hfrag]
      rw [hrest f k hf]

/-! ## Reading the header -/

theorem bufRead_flags (flags : Nat) (src : Bytes) :
    bufRead (beBytes 4 flags ++ src) 4 = some (beBytes 4 flags, src) := by
  have happ := bufRead_append (beBytes 4 flags) src
  rwa [beBytes_length] at happ

theorem fragmentIncoming_whole (room : Nat) (list : FragmentList) (d : Bytes) :
    fragmentIncoming room list (fragmentPrependFlags .whole 0 0 0 d) = (list, d) := by
  have hpk : fragmentPrependFlags .whole 0 0 0 d = beBytes 4 0 ++ d := rfl
  rw [hpk, fragmentIncoming, bufRead_flags]
  simp [beNat_beBytes, FragType.code]

/-- The sequence id in a header, where `fragment_prepend_flags` puts it. -/
def flagsSeqId (flags : Nat) : Nat := flags / 2 ^ 2 % 256

/-- The number of the fragment in a header. -/
def flagsFragId (flags : Nat) : Nat := flags / 2 ^ 10 % 32

theorem fragmentIncoming_whole_flags {room : Nat} {list : FragmentList} {flags : Nat}
    (hfl : flags < 2 ^ 32) (hwhole : flags % 4 = FragType.whole.code) (src : Bytes) :
    fragmentIncoming room list (beBytes 4 flags ++ src) =
      (list, if flags % 256 ≠ 0 then [] else src) := by
  have hnat : beNat (beBytes 4 flags) = flags := by
    rw [beNat_beBytes]
    exact mod_eq_of_lt hfl
  rw [fragmentIncoming, bufRead_flags]
  dsimp only
  rw [hnat, if_pos hwhole]

/-- **Spurious flags.** The masks are not moved to their fields: only the low six bits of
the sequence id are tested. The test is right for a header iff the other bits of the
fields are clear, or one of the six is set. -/
theorem spurious_flags_iff (room : Nat) (list : FragmentList) {flags : Nat}
    (hflags : flags < 2 ^ 32) (hwhole : flags % 4 = FragType.whole.code) {src : Bytes}
    (hsrc : src ≠ []) :
    (fragmentIncoming room list (beBytes 4 flags ++ src) = (list, src) ↔
        flagsSeqId flags = 0 ∧ flagsFragId flags = 0) ↔
      (flagsSeqId flags < 64 ∧ flagsFragId flags = 0) ∨ flagsSeqId flags % 64 ≠ 0 := by
  have hlow : flags % 256 = 0 ↔ flagsSeqId flags % 64 = 0 := by
    have hzero : flags % 4 = 0 := hwhole
    unfold flagsSeqId
    omega
  rw [fragmentIncoming_whole_flags hflags hwhole]
  by_cases hpass : flagsSeqId flags % 64 = 0
  · rw [if_neg (not_not.mpr (hlow.mpr hpass))]
    simp only [true_iff]
    omega
  · rw [if_pos (fun h => hpass (hlow.mp h))]
    have hdrop : ((list, []) : FragmentList × Bytes) ≠ (list, src) := by
      intro heq
      exact hsrc (congrArg Prod.snd heq).symm
    simp only [hdrop, false_iff]
    omega

/-- The header that the sender puts in front of a whole datagram. -/
theorem spurious_flags_zero :
    fragmentIncoming 64 .init (beBytes 4 0 ++ [1]) = (.init, [1]) ↔
      flagsSeqId 0 = 0 ∧ flagsFragId 0 = 0 :=
  (spurious_flags_iff 64 .init (by decide) rfl (cons_ne_nil _ _)).mpr
    (.inl ⟨by decide, rfl⟩)

/-- The fragment number 31 and the sequence id 192 in a whole datagram are not noticed. -/
theorem spurious_flags_pass :
    flagsFragId 0x7F00 = 31 ∧ flagsSeqId 0x7F00 = 192 ∧
      (fragmentIncoming 64 .init (beBytes 4 0x7F00 ++ [1, 2, 3])).2 = [1, 2, 3] := by
  decide

/-- A datagram that is sent in fragments. -/
structure Fragmented where
  data : Bytes
  size : Nat
  data_pos : 0 < data.length
  size_pos : 0 < size
  aligned : size % 4 = 0
  size_lt : size < 65536
  few : data.length ≤ size * MAX_FRAGS

namespace Fragmented

variable (d : Fragmented)

def count : Nat := fragCount d.data.length d.size

theorem lt_count : n < d.count ↔ n * d.size < d.data.length := lt_fragCount d.size_pos

theorem count_pos : 0 < d.count := by
  rw [lt_count, zero_mul]
  exact d.data_pos

theorem count_le : d.count ≤ 32 := by
  rw [← not_lt, lt_count, not_lt, mul_comm]
  exact d.few

theorem chunk_length (hn : n < d.count) :
    (fragChunk d.data d.size n).length =
      if n + 1 = d.count then d.data.length - n * d.size else d.size := by
  have hnext : n + 1 < d.count ↔ (n + 1) * d.size < d.data.length := d.lt_count
  rw [add_one_mul] at hnext
  rw [fragChunk, length_take, length_drop]
  split <;> omega

end Fragmented

def fragFlags (last : Bool) (seq n size : Nat) : Nat :=
  (if last then 2 else 1) + seq * 4 + n * 1024 + (if last then size / 4 * 32768 else 0)

variable {seq : Nat}

theorem fragPacket_eq (hseq : seq < 256) (hn : n < 32) (hsize : size < 65536) :
    fragPacket seq data size n =
      beBytes 4 (fragFlags (decide (n + 1 = fragCount data.length size)) seq n size) ++
        fragChunk data size n := by
  have hseq' : ((seq : Int) % 256).toNat = seq := by omega
  have hn' : n % 32 = n := mod_eq_of_lt hn
  have hsize' : size / 4 % 16384 = size / 4 := mod_eq_of_lt (by omega)
  by_cases hlast : n + 1 = fragCount data.length size
  · simp [fragPacket, fragmentPrependFlags, fragFlags, hlast, hseq', hn', hsize', FragType.code]
  · simp [fragPacket, fragmentPrependFlags, fragFlags, hlast, hseq', hn', FragType.code]

/-- The sequence id in the header of a packet. -/
def headerSeqId (packet : Bytes) : Int := (beNat (packet.take 4) / 2 ^ 2 % 256 : Nat)

theorem headerSeqId_fragPacket (hseq : seq < 256) (hn : n < 32) (hsize : size < 65536) :
    headerSeqId (fragPacket seq data size n) = seq := by
  rw [fragPacket_eq hseq hn hsize, headerSeqId, take_left' (beBytes_length _ _), beNat_beBytes,
    fragFlags]
  congr 1
  split <;> omega

theorem fragmentIncoming_flags {room : Nat} {list : FragmentList} {last : Bool} {src : Bytes}
    (hseq : seq < 256) (hn : n < 32) (hsize : size < 65536) (hal : size % 4 = 0)
    (hsrc : last = false → src.length = size) :
    fragmentIncoming room list (beBytes 4 (fragFlags last seq n size) ++ src) =
      (let r := fragmentListGetBuf list seq
      let filled := fillFragment room (r.1.fragments r.2) last n size src
      ({ r.1 with fragments := Function.update r.1.fragments r.2 filled.1 }, filled.2)) := by
  generalize hfl : fragFlags last seq n size = flags
  have hlt : flags < 2 ^ 29 := by
    rw [← hfl, fragFlags]
    split <;> omega
  have hnat : beNat (beBytes 4 flags) = flags := by
    rw [beNat_beBytes]
    omega
  have htype : flags % 4 = if last then 2 else 1 := by
    rw [← hfl, fragFlags]
    split <;> omega
  have hseqId : flags / 2 ^ 2 % 256 = seq := by
    rw [← hfl, fragFlags]
    split <;> omega
  have hid : flags / 2 ^ 10 % 32 = n := by
    rw [← hfl, fragFlags]
    split <;> omega
  have hfld : last = true → flags / 32768 % 16384 * 4 = size := by
    intro hlast
    rw [← hfl, fragFlags, if_pos hlast, if_pos hlast]
    omega
  rw [fragmentIncoming, bufRead_flags]
  simp only [hnat, htype, hseqId, hid]
  cases last with
  | true => simp [FragType.code, hfld, hal]
  | false => simp [FragType.code, hsrc, hal]

theorem fragmentIncoming_fragment (room : Nat) (list : FragmentList) (d : Fragmented)
    (hseq : seq < 256) (hn : n < d.count) :
    fragmentIncoming room list (fragPacket seq d.data d.size n) =
      (let r := fragmentListGetBuf list seq
      let filled := fillFragment room (r.1.fragments r.2) (decide (n + 1 = d.count)) n d.size
        (fragChunk d.data d.size n)
      ({ r.1 with fragments := Function.update r.1.fragments r.2 filled.1 }, filled.2)) := by
  have hn32 : n < 32 := hn.trans_le d.count_le
  rw [fragPacket_eq hseq hn32 d.size_lt]
  apply fragmentIncoming_flags hseq hn32 d.size_lt d.aligned
  intro hlast
  rw [d.chunk_length hn, if_neg (by simpa [Fragmented.count] using hlast)]

end OpenVpn
