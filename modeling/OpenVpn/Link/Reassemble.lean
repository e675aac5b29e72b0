import Mathlib.Data.List.Nodup
import OpenVpn.Link.Fragment

/-!
# Reassembling datagrams

* `FragSlot` — a buffer holds the fragments of a datagram that have come;
  `fillFragment_spec` adds one.
* `FragWindow` — every datagram that is partly there has its buffer in the window of
  25 numbers that ends at `top`; `FragWindow.deliver` brings a fragment in.
* `Layout` — the packets that are sent, in any order.
* `fragment_round_trip` — all datagrams come out again, whatever the order of the
  packets, if no packet from far away empties the window while a datagram is partly
  there. `fragment_round_trip_fails`: the receiver starts with a window that no packet
  has set, and that is enough to lose a datagram.
-/

namespace OpenVpn

open Base List Nat

/-! ## One buffer -/

/-- The buffer holds the fragments `del` of the datagram. Bit `i` of the map stands for
fragment `i`, the bits from the last fragment on for the last fragment. -/
structure FragSlot (d : Fragmented) (del : Nat → Prop) (frag : Fragment) : Prop where
  defined : frag.defined = true
  size : frag.maxFragSize = d.size
  map : ∀ i < 32, frag.map.getLsbD i = true ↔ del (min i (d.count - 1))
  mem : ∀ n, del n → ∀ i, n * d.size ≤ i → i < (n + 1) * d.size → i < d.data.length →
    frag.mem i = d.data.getD i 0
  len_le : frag.len ≤ d.data.length
  len_last : del (d.count - 1) → frag.len = d.data.length

/-- The buffer once it is set up for the datagram. -/
def Fragment.setUp (frag : Fragment) (size : Nat) : Fragment :=
  if !frag.defined || frag.maxFragSize ≠ size then
    { frag with defined := true, maxFragSize := size, map := 0, len := 0 } else frag

variable {d : Fragmented} {frag : Fragment}

theorem setUp_fragSlot {del : Nat → Prop}
    (h : (frag.defined = false ∧ ∀ n, ¬del n) ∨ FragSlot d del frag) :
    FragSlot d del (frag.setUp d.size) := by
  rcases h with ⟨hundef, hnone⟩ | hok
  · have hset : frag.setUp d.size =
        { frag with defined := true, maxFragSize := d.size, map := 0, len := 0 } := by
      simp [Fragment.setUp, hundef]
    rw [hset]
    exact ⟨rfl, rfl, by simp [hnone], fun n hn => absurd hn (hnone n), zero_le _,
      fun hn => absurd hn (hnone _)⟩
  · have hset : frag.setUp d.size = frag := by
      simp [Fragment.setUp, hok.defined, hok.size]
    rwa [hset]

variable {n : Nat}

theorem fragment_bits {count i : Nat} (hn : n < count) (hi : i < 32) :
    ((if decide (n + 1 = count) then BitVec.allOnes 32 else 1#32) <<< n).getLsbD i = true ↔
      min i (count - 1) = n := by
  rw [BitVec.getLsbD_shiftLeft]
  by_cases hlast : n + 1 = count
  · rw [if_pos (by simpa using hlast), BitVec.getLsbD_allOnes]
    simp only [Bool.and_eq_true, decide_eq_true_eq, Bool.not_eq_true', decide_eq_false_iff_not]
    omega
  · rw [if_neg (by simpa using hlast), BitVec.getLsbD_one]
    simp only [Bool.and_eq_true, decide_eq_true_eq, Bool.not_eq_true', decide_eq_false_iff_not]
    omega

variable {room : Nat}

theorem bufCopyRange_chunk (hn : n < d.count) (hroom : d.data.length ≤ room) :
    ∃ copied, bufCopyRange room frag (n * d.size) (fragChunk d.data d.size n) = some copied ∧
      copied.defined = frag.defined ∧ copied.maxFragSize = frag.maxFragSize ∧
      copied.map = frag.map ∧
      copied.len = max frag.len (min ((n + 1) * d.size) d.data.length) ∧
      ∀ i, copied.mem i = if n * d.size ≤ i ∧ i < (n + 1) * d.size ∧ i < d.data.length then
        d.data.getD i 0 else frag.mem i := by
  have hlt := d.lt_count.mp hn
  have hlen : (fragChunk d.data d.size n).length = min d.size (d.data.length - n * d.size) := by
    rw [fragChunk, length_take, length_drop]
  have hend : n * d.size + (fragChunk d.data d.size n).length =
      min ((n + 1) * d.size) d.data.length := by
    rw [hlen, add_one_mul]
    omega
  rw [bufCopyRange, if_neg (by rw [hend]; omega)]
  refine ⟨_, rfl, rfl, rfl, rfl, by rw [hend], fun i => ?_⟩
  simp only [hend]
  by_cases hi : n * d.size ≤ i ∧ i < (n + 1) * d.size ∧ i < d.data.length
  · rw [if_pos hi, if_pos ⟨hi.1, by omega⟩, fragChunk]
    rw [add_one_mul] at hi
    rw [getD_eq_getElem?_getD, getElem?_take_of_lt (by omega), getElem?_drop,
      Nat.add_sub_cancel' hi.1, getD_eq_getElem?_getD]
  · rw [if_neg hi, if_neg (by omega)]

theorem map_full_iff (del : Nat → Prop) {map : BitVec 32}
    (hmap : ∀ i < 32, map.getLsbD i = true ↔ del (min i (d.count - 1))) :
    map = BitVec.allOnes 32 ↔ ∀ m < d.count, del m := by
  have hpos := d.count_pos
  have hle := d.count_le
  constructor
  · intro hfull m hm
    have hbit := (hmap m (by omega)).mp
      (by rw [hfull, BitVec.getLsbD_allOnes]; simpa using by omega)
    rwa [show min m (d.count - 1) = m by omega] at hbit
  · intro hall
    apply BitVec.eq_of_getLsbD_eq
    intro i hi
    rw [BitVec.getLsbD_allOnes, decide_eq_true hi]
    exact (hmap i hi).mpr (hall _ (by omega))

/-- **A fragment comes.** The datagram is complete, or the buffer holds one fragment
more. -/
theorem fillFragment_spec {del : Nat → Prop}
    (h : (frag.defined = false ∧ ∀ m, ¬del m) ∨ FragSlot d del frag) (hn : n < d.count)
    (hroom : d.data.length ≤ room) :
    let filled := fillFragment room frag (decide (n + 1 = d.count)) n d.size
      (fragChunk d.data d.size n)
    ((∀ m < d.count, m = n ∨ del m) → filled.2 = d.data ∧ filled.1.defined = false) ∧
      (¬(∀ m < d.count, m = n ∨ del m) →
        filled.2 = [] ∧ FragSlot d (fun m => m = n ∨ del m) filled.1) := by
  have hok := setUp_fragSlot h
  obtain ⟨copied, hcopy, hdef, hsize, hmap, hlen, hmem⟩ :=
    bufCopyRange_chunk hn hroom
  have hlt := d.lt_count.mp hn
  -- the map after the fragment
  have hbits : ∀ i < 32, (copied.map ||| ((if decide (n + 1 = d.count) then BitVec.allOnes 32
      else 1#32) <<< n)).getLsbD i = true ↔
        min i (d.count - 1) = n ∨ del (min i (d.count - 1)) := by
    intro i hi
    rw [BitVec.getLsbD_or, Bool.or_eq_true, fragment_bits hn hi, hmap, hok.map i hi, or_comm]
  have hfull := map_full_iff (fun m => m = n ∨ del m) hbits
  have hlast : d.count - 1 = n ∨ del (d.count - 1) → copied.len = d.data.length := by
    intro hlast
    have hle := hok.len_le
    rcases hlast with hlast | hlast
    · -- the last fragment ends with the datagram
      have hnext : ¬n + 1 < d.count := by omega
      rw [d.lt_count] at hnext
      omega
    · have heq := hok.len_last hlast
      omega
  have hmem' : ∀ m, m = n ∨ del m → ∀ i, m * d.size ≤ i → i < (m + 1) * d.size →
      i < d.data.length → copied.mem i = d.data.getD i 0 := by
    intro m hm i hfrom hto hi
    rw [hmem]
    split
    · rfl
    · rename_i hoth
      rcases hm with rfl | hm
      · exact absurd ⟨hfrom, hto, hi⟩ hoth
      · exact hok.mem m hm i hfrom hto hi
  have hfill : fillFragment room frag (decide (n + 1 = d.count)) n d.size
      (fragChunk d.data d.size n) =
      (let map := copied.map ||| ((if decide (n + 1 = d.count) then BitVec.allOnes 32
        else 1#32) <<< n)
      if map = BitVec.allOnes 32 then
        ({ copied with map, defined := false }, (List.range copied.len).map copied.mem)
      else ({ copied with map }, [])) := by
    simp only [fillFragment]
    rw [show (if (!frag.defined || decide (frag.maxFragSize ≠ d.size)) = true then _ else frag) =
      frag.setUp d.size from rfl, hcopy]
  rw [hfill]
  simp only
  constructor
  · intro hall
    rw [if_pos (hfull.mpr hall)]
    refine ⟨?_, rfl⟩
    have hpos := d.count_pos
    have heq := hlast (by simpa [eq_comm] using hall (d.count - 1) (by omega))
    apply ext_getElem
    · simp [heq]
    · intro i hi hi'
      -- the fragment that byte `i` is in
      have hin : i / d.size < d.count := by
        rw [d.lt_count]
        exact (div_mul_le_self i d.size).trans_lt hi'
      have hto : i < (i / d.size + 1) * d.size := by
        rw [mul_comm]
        exact lt_mul_div_succ i d.size_pos
      rw [getElem_map, getElem_range,
        hmem' (i / d.size) (hall _ hin) i (div_mul_le_self i d.size) hto hi']
      simp [getD_eq_getElem?_getD, hi']
  · intro hnot
    rw [if_neg (fun heq => hnot (hfull.mp heq))]
    refine ⟨rfl, ?_, ?_, hbits, hmem', ?_, hlast⟩
    · exact hdef.trans hok.defined
    · exact hsize.trans hok.size
    · have hle := hok.len_le
      show copied.len ≤ d.data.length
      omega

/-! ## The window -/

section Window

variable (start : Int) (spec : Nat → Fragmented) (del : Nat → Nat → Prop)

/-- Some fragments of datagram `k` have come, and not all of them. -/
def Partly (k : Nat) : Prop := (∃ n, del k n) ∧ ∃ n < (spec k).count, ¬del k n

/-- The index of the buffer for number `p` in a window that ends at `top`. -/
def FragmentList.slotAt (list : FragmentList) (top p : Int) : Int :=
  (list.index + (p - top)) % N_FRAG_BUF

/-- **The window.** Number `k` has the sequence id `start + k + 1`. -/
structure FragWindow (list : FragmentList) (top : Int) : Prop where
  seqId : list.seqId = (start + top + 1) % N_SEQ_ID
  index : 0 ≤ list.index ∧ list.index < N_FRAG_BUF
  inside : ∀ k, Partly spec del k → top - 25 < k ∧ (k : Int) ≤ top
  held : ∀ k, Partly spec del k → FragSlot (spec k) (del k) (list.fragments (list.slotAt top k))
  free : ∀ p, top - 25 < p → p ≤ top → (∀ k : Nat, (k : Int) = p → ¬Partly spec del k) →
    (list.fragments (list.slotAt top p)).defined = false

variable {start spec del} {list : FragmentList} {top : Int}

theorem slotAt_inj {p q : Int} (hp : top - 25 < p ∧ p ≤ top) (hq : top - 25 < q ∧ q ≤ top)
    (h : list.slotAt top p = list.slotAt top q) : p = q := by
  simp only [FragmentList.slotAt, N_FRAG_BUF] at h
  omega

theorem slotAt_bounds {p : Int} : 0 ≤ list.slotAt top p ∧ list.slotAt top p < N_FRAG_BUF := by
  simp only [FragmentList.slotAt, N_FRAG_BUF]
  omega

theorem exists_slotAt (list : FragmentList) (top : Int) {i : Int}
    (hi : 0 ≤ i ∧ i < N_FRAG_BUF) : ∃ p, top - 25 < p ∧ p ≤ top ∧ list.slotAt top p = i := by
  simp only [N_FRAG_BUF] at hi
  refine ⟨top - (list.index - i) % 25, by omega, by omega, ?_⟩
  simp only [FragmentList.slotAt, N_FRAG_BUF]
  omega

section

variable (hok : FragWindow start spec del list top)

include hok

theorem FragWindow.idle_iff :
    (∀ i, 0 ≤ i → i < N_FRAG_BUF → (list.fragments i).defined = false) ↔
      ∀ k, ¬Partly spec del k := by
  constructor
  · intro hfree k hk
    obtain ⟨hlo, hhi⟩ := slotAt_bounds
    have hdef := (hok.held k hk).defined
    rw [hfree _ hlo hhi] at hdef
    cases hdef
  · intro hnone i hlo hhi
    obtain ⟨p, hfrom, hto, rfl⟩ := exists_slotAt list top ⟨hlo, hhi⟩
    exact hok.free p hfrom hto fun k _ => hnone k

omit hok in
theorem fragWindow_idle {seq : Int} (hnone : ∀ k, ¬Partly spec del k)
    (hfree : ∀ i, 0 ≤ i → i < N_FRAG_BUF → (list.fragments i).defined = false)
    (hidx : 0 ≤ list.index ∧ list.index < N_FRAG_BUF)
    (hseq : list.seqId = (start + seq + 1) % N_SEQ_ID) : FragWindow start spec del list seq where
  seqId := hseq
  index := hidx
  inside k hk := absurd hk (hnone k)
  held k hk := absurd hk (hnone k)
  free _ _ _ _ := hfree _ slotAt_bounds.1 slotAt_bounds.2

/-- One turn of the loop of `fragment_list_get_buf`: the buffer of the number that leaves
the window is for the one that enters it. -/
theorem FragWindow.advance (hlow : ∀ k, Partly spec del k → top - 24 < k) :
    FragWindow start spec del
      { seqId := moduloAdd list.seqId 1 N_SEQ_ID
        index := moduloAdd list.index 1 N_FRAG_BUF
        fragments := Function.update list.fragments (moduloAdd list.index 1 N_FRAG_BUF)
          (list.fragments (moduloAdd list.index 1 N_FRAG_BUF)).undefine } (top + 1) := by
  have hnext : moduloAdd list.index 1 N_FRAG_BUF = list.slotAt top (top + 1) := by
    rw [moduloAdd_index hok.index (by decide), FragmentList.slotAt, add_sub_cancel_left]
  rw [hnext]
  generalize hnew : FragmentList.mk _ _ _ = new
  -- the numbers that stay keep their buffers
  have hslot : ∀ p, new.slotAt (top + 1) p = list.slotAt top p := by
    intro p
    simp only [← hnew, FragmentList.slotAt, N_FRAG_BUF]
    omega
  have hfrag : ∀ i, new.fragments i = if i = list.slotAt top (top + 1) then
      (list.fragments i).undefine else list.fragments i := by
    intro i
    rw [← hnew]
    by_cases hi : i = list.slotAt top (top + 1)
    · simp [hi]
    · simp [hi]
  refine ⟨?_, ?_, ?_, ?_, ?_⟩
  · rw [← hnew, ← Int.add_assoc, Int.add_right_comm, ← moduloAdd_seqId, ← hok.seqId]
  · rw [← hnew]
    exact slotAt_bounds
  · intro k hk
    have hlow := hlow k hk
    have hinside := hok.inside k hk
    omega
  · intro k hk
    have hlow := hlow k hk
    have hinside := hok.inside k hk
    rw [hslot, hfrag, if_neg]
    · exact hok.held k hk
    · simp only [FragmentList.slotAt, N_FRAG_BUF]
      omega
  · intro p hfrom hto hnone
    rw [hslot, hfrag]
    split
    · rfl
    · rename_i hoth
      have hp : p ≠ top + 1 := fun hp => hoth (by rw [hp])
      exact hok.free p (by omega) (by omega) hnone

omit hok in
theorem FragWindow.advanceWindow (diff : Nat) :
    ∀ {list : FragmentList} {top : Int}, FragWindow start spec del list top →
      (∀ k, Partly spec del k → top + diff - 25 < k) →
      FragWindow start spec del (advanceWindow diff list) (top + diff) := by
  induction diff with
  | zero =>
    intro list top hok _
    simpa [OpenVpn.advanceWindow] using hok
  | succ diff ih =>
    intro list top hok hlow
    rw [OpenVpn.advanceWindow, Int.natCast_add, Int.natCast_one, Int.add_comm _ 1, ← Int.add_assoc]
    apply ih
    · apply hok.advance
      intro k hk
      have hlow := hlow k hk
      omega
    · intro k hk
      have hlow := hlow k hk
      omega

variable {k : Nat}

theorem FragWindow.align (hnear : ∀ p, Partly spec del p → k < p + 25 ∧ p < k + 25) :
    FragWindow start spec del list
      (k - moduloSubtract ((start + k + 1) % N_SEQ_ID) list.seqId N_SEQ_ID) := by
  have hdiff := moduloSubtract_seqId (start + k + 1) (start + top + 1)
  rw [← hok.seqId] at hdiff
  generalize moduloSubtract ((start + k + 1) % N_SEQ_ID) list.seqId N_SEQ_ID = diff at *
  obtain ⟨hturns, hnext⟩ := hdiff
  by_cases hpart : ∃ p, Partly spec del p
  · obtain ⟨p, hp⟩ := hpart
    have hinside := hok.inside p hp
    have hnear := hnear p hp
    have heq := hnext (by omega)
    rwa [show (k : Int) - diff = top by omega]
  · have hnone : ∀ p, ¬Partly spec del p := fun p hp => hpart ⟨p, hp⟩
    apply fragWindow_idle hnone (hok.idle_iff.mpr hnone) hok.index
    rw [hok.seqId]
    have hturn : N_SEQ_ID = 256 := rfl
    simp only [hturn] at *
    omega

/-- A fragment from outside the window comes only while no datagram is partly there. -/
def FarIdle (list : FragmentList) (seqId : Int) : Prop :=
  N_FRAG_BUF ≤ (moduloSubtract seqId list.seqId N_SEQ_ID).natAbs →
    ∀ i < 25, (list.fragments (i : Nat)).defined = false

instance (list : FragmentList) (seqId : Int) : Decidable (FarIdle list seqId) :=
  inferInstanceAs (Decidable (_ → _))

/-- **The buffer for a fragment.** -/
theorem FragWindow.fragmentListGetBuf (hnear : ∀ p, Partly spec del p → k < p + 25 ∧ p < k + 25)
    (hfar : FarIdle list ((start + k + 1) % N_SEQ_ID)) :
    ∃ list' top', FragWindow start spec del list' top' ∧ top' - 25 < k ∧ (k : Int) ≤ top' ∧
      fragmentListGetBuf list ((start + k + 1) % N_SEQ_ID) = (list', list'.slotAt top' k) := by
  have halign := hok.align hnear
  rw [OpenVpn.fragmentListGetBuf]
  unfold FarIdle at hfar
  generalize moduloSubtract ((start + k + 1) % N_SEQ_ID) list.seqId N_SEQ_ID = diff at *
  have hbuf : N_FRAG_BUF = 25 := rfl
  by_cases hout : N_FRAG_BUF ≤ diff.natAbs
  · -- nothing is partly there, so nothing is lost
    rw [if_pos hout]
    have hnone : ∀ p, ¬Partly spec del p := by
      apply hok.idle_iff.mp
      intro i hlo hhi
      have hfree := hfar hout i.toNat (by omega)
      rwa [Int.toNat_of_nonneg hlo] at hfree
    refine ⟨⟨(start + k + 1) % N_SEQ_ID, 0, fun i => (list.fragments i).undefine⟩, k, ?_,
      by omega, Int.le_refl _, ?_⟩
    · exact fragWindow_idle hnone (fun _ _ _ => rfl)
        ⟨Int.le_refl 0, show (0 : Int) < N_FRAG_BUF by decide⟩ rfl
    · simp only [FragmentList.slotAt, Int.sub_self]
      rfl
  · rw [if_neg hout]
    by_cases hpos : 0 < diff
    · rw [if_pos hpos]
      have hmov := halign.advanceWindow diff.toNat (by
        intro p hp
        have hnear := hnear p hp
        omega)
      rw [show (k : Int) - diff + diff.toNat = k by omega] at hmov
      refine ⟨_, k, hmov, by omega, Int.le_refl _, ?_⟩
      simp only [FragmentList.slotAt, Int.sub_self]
      rw [moduloAdd_index hmov.index (by decide)]
    · rw [if_neg hpos]
      refine ⟨list, k - diff, halign, by omega, by omega, ?_⟩
      rw [moduloAdd_index halign.index (by omega), FragmentList.slotAt]
      congr 3
      omega

theorem FragWindow.update (hk : top - 25 < k ∧ (k : Int) ≤ top) {del' : Nat → Nat → Prop}
    (hoth : ∀ p ≠ k, del' p = del p)
    (hheld : Partly spec del' k → FragSlot (spec k) (del' k) frag)
    (hfree : ¬Partly spec del' k → frag.defined = false) :
    FragWindow start spec del'
      { list with fragments := Function.update list.fragments (list.slotAt top k) frag } top := by
  have hpart : ∀ p ≠ k, (Partly spec del' p ↔ Partly spec del p) := by
    intro p hp
    rw [Partly, Partly, hoth p hp]
  have hslot : ∀ p : Int, top - 25 < p ∧ p ≤ top → p ≠ k → list.slotAt top p ≠ list.slotAt top k :=
    fun p hp hne heq => hne (slotAt_inj hp hk heq)
  refine ⟨hok.seqId, hok.index, ?_, ?_, ?_⟩
  · intro p hp
    by_cases heq : p = k
    · rw [heq]
      exact hk
    · exact hok.inside p ((hpart p heq).mp hp)
  · intro p hp
    show FragSlot _ _ (Function.update list.fragments _ frag (list.slotAt top p))
    by_cases heq : p = k
    · subst heq
      rw [Function.update_self]
      exact hheld hp
    · have hp' := (hpart p heq).mp hp
      rw [Function.update_of_ne (hslot p (hok.inside p hp') (by omega)), hoth p heq]
      exact hok.held p hp'
  · intro p hfrom hto hnone
    show (Function.update list.fragments _ frag (list.slotAt top p)).defined = false
    by_cases heq : p = k
    · subst heq
      rw [Function.update_self]
      exact hfree (hnone k rfl)
    · rw [Function.update_of_ne (hslot p ⟨hfrom, hto⟩ heq)]
      apply hok.free p hfrom hto
      intro q hq
      rw [← hpart q (by omega)]
      exact hnone q hq

/-- **A fragment is delivered.** The datagram comes out exactly if it is complete. -/
theorem FragWindow.deliver (hn : n < (spec k).count) (hnew : ¬del k n)
    (hroom : (spec k).data.length ≤ room) (hnear : ∀ p, Partly spec del p → k < p + 25 ∧ p < k + 25)
    (hfar : FarIdle list ((start + k + 1) % N_SEQ_ID)) (del' : Nat → Nat → Prop)
    (hdel' : ∀ p m, del' p m ↔ (p = k ∧ m = n) ∨ del p m) :
    let r := fragmentIncoming room list
      (fragPacket ((start + k + 1) % N_SEQ_ID) (spec k).data (spec k).size n)
    (∃ top', FragWindow start spec del' r.1 top') ∧
      ((∀ m < (spec k).count, del' k m) → r.2 = (spec k).data) ∧
      (¬(∀ m < (spec k).count, del' k m) → r.2 = []) := by
  obtain ⟨list', top', hok', hfrom, hto, hget⟩ := hok.fragmentListGetBuf hnear hfar
  have hk : del' k = fun m => m = n ∨ del k m := by
    funext m
    simp [hdel']
  have hoth : ∀ p ≠ k, del' p = del p := by
    intro p hp
    funext m
    simp [hdel', hp]
  -- the buffer before: the fragment is the first one, or others are there
  have hbef : ((list'.fragments (list'.slotAt top' k)).defined = false ∧ ∀ m, ¬del k m) ∨
      FragSlot (spec k) (del k) (list'.fragments (list'.slotAt top' k)) := by
    by_cases hpart : Partly spec del k
    · exact Or.inr (hok'.held k hpart)
    · refine Or.inl ⟨hok'.free k hfrom hto ?_, fun m hm => hpart ⟨⟨m, hm⟩, n, hn, hnew⟩⟩
      intro p hp
      rwa [show p = k by omega]
  obtain ⟨hfull, hmore⟩ := fillFragment_spec hbef hn hroom
  obtain ⟨seq, hseq_lt, hseq⟩ := exists_seqId (start + k + 1)
  rw [hseq] at hget ⊢
  rw [fragmentIncoming_fragment room list (spec k) hseq_lt hn, hget]
  simp only [hk]
  by_cases hall : ∀ m < (spec k).count, m = n ∨ del k m
  · obtain ⟨hout, hundef⟩ := hfull hall
    refine ⟨⟨top', ?_⟩, fun _ => hout, fun hnot => absurd hall hnot⟩
    apply hok'.update ⟨hfrom, hto⟩ hoth
    · rintro ⟨_, m, hm, hmiss⟩
      rw [hk] at hmiss
      exact absurd (hall m hm) hmiss
    · exact fun _ => hundef
  · obtain ⟨hout, hslot⟩ := hmore hall
    refine ⟨⟨top', ?_⟩, fun h => absurd h hall, fun _ => hout⟩
    apply hok'.update ⟨hfrom, hto⟩ hoth
    · intro _
      rwa [hk]
    · intro hnot
      refine absurd ⟨⟨n, ?_⟩, ?_⟩ hnot
      · simp [hk]
      · simpa [hk] using hall

end

end Window

/-! ## The packets of a run -/

def fragmentsOf (es : List Emission) : List (Nat × Nat) := es.filterMap (·.fragment)

/-- The datagrams that are sent whole. -/
def wholesOf (es : List Emission) : List Bytes :=
  es.filterMap fun e => if e.fragment = none then some (e.packet.drop 4) else none

/-- The packets are those of whole datagrams and of the fragmented datagrams from number
`first` to before `last`. -/
structure Layout (start : Int) (spec : Nat → Fragmented) (first last : Nat)
    (es : List Emission) : Prop where
  packet : ∀ e ∈ es, (∃ d ≠ [], e = ⟨none, fragmentPrependFlags .whole 0 0 0 d⟩) ∨
    ∃ k n, first ≤ k ∧ k < last ∧ n < (spec k).count ∧
      e = ⟨some (k, n), fragPacket ((start + k + 1) % N_SEQ_ID) (spec k).data (spec k).size n⟩
  nodup : (fragmentsOf es).Nodup
  all : ∀ k n, first ≤ k → k < last → n < (spec k).count → (k, n) ∈ fragmentsOf es

variable {first last : Nat} {es : List Emission}

variable {spec : Nat → Fragmented}

theorem Layout.perm {start : Int} {es' : List Emission} (h : Layout start spec first last es)
    (hperm : es'.Perm es) :
    Layout start spec first last es' where
  packet e he := h.packet e (hperm.mem_iff.mp he)
  nodup := (hperm.filterMap _).nodup_iff.mpr h.nodup
  all k n hfst hlast hn := (hperm.filterMap _).mem_iff.mpr (h.all k n hfst hlast hn)

theorem Layout.fragmented {start : Int} (h : Layout start spec (first + 1) last es)
    (hlast : first < last) :
    Layout start spec first last
      (fragEmissions first ((start + first + 1) % N_SEQ_ID) (spec first).data (spec first).size 0
        ++ es) := by
  have hfrags : fragmentsOf (fragEmissions first ((start + first + 1) % N_SEQ_ID)
      (spec first).data (spec first).size 0) =
      (range (spec first).count).map fun n => (first, n) := by
    rw [fragmentsOf, fragEmissions, filterMap_map, Nat.sub_zero, ← range_eq_range',
      ← filterMap_eq_map]
    rfl
  refine ⟨?_, ?_, ?_⟩
  · intro e he
    rcases mem_append.mp he with he | he
    · obtain ⟨n, hn, rfl⟩ := mem_map.mp he
      have hn' := mem_range'_1.mp hn
      exact Or.inr ⟨first, n, le_refl _, hlast, by simpa [Fragmented.count] using hn'.2, rfl⟩
    · rcases h.packet e he with hwhole | ⟨k, n, hfst, hrest⟩
      · exact Or.inl hwhole
      · exact Or.inr ⟨k, n, by omega, hrest⟩
  · rw [fragmentsOf, filterMap_append]
    refine nodup_append.mpr ⟨?_, h.nodup, ?_⟩
    · rw [← fragmentsOf, hfrags]
      exact nodup_range.map fun m n heq => (Prod.mk.inj heq).2
    · intro p hp q hq heq
      rw [← fragmentsOf, hfrags] at hp
      obtain ⟨n, _, rfl⟩ := mem_map.mp hp
      -- the packets behind are of later numbers
      obtain ⟨e, he, hfrag⟩ := mem_filterMap.mp hq
      rcases h.packet e he with ⟨d, _, rfl⟩ | ⟨k, m, hlat, _, _, rfl⟩
      · cases hfrag
      · cases heq
        cases hfrag
        omega
  · intro k n hfrom hto hn
    rw [fragmentsOf, filterMap_append, mem_append]
    by_cases heq : k = first
    · subst heq
      rw [← fragmentsOf, hfrags]
      exact Or.inl (mem_map.mpr ⟨n, mem_range.mpr hn, rfl⟩)
    · exact Or.inr (h.all k n (by omega) hto hn)

theorem Layout.whole {start : Int} (h : Layout start spec first last es) {d : Bytes} (hd : d ≠ []) :
    Layout start spec first last (⟨none, fragmentPrependFlags .whole 0 0 0 d⟩ :: es) where
  packet e he := by
    rcases mem_cons.mp he with rfl | he
    · exact Or.inl ⟨d, hd, rfl⟩
    · exact h.packet e he
  nodup := h.nodup
  all := h.all

section Sent

variable {maxFragmentSize : Nat} {datagrams : List Bytes}

/-- The datagrams that are sent in fragments. -/
def fragmentedOnes (maxFragmentSize : Nat) (datagrams : List Bytes) : List Bytes :=
  datagrams.filter fun d => maxFragmentSize < d.length

/-- A datagram with its fragment size; a short one stands for those that are not sent. -/
def Fragmented.ofBytes (data : Bytes) (size : Nat) : Fragmented :=
  if h : 0 < data.length ∧ 0 < size ∧ size % 4 = 0 ∧ size < 65536 ∧
      data.length ≤ size * MAX_FRAGS then
    ⟨data, size, h.1, h.2.1, h.2.2.1, h.2.2.2.1, h.2.2.2.2⟩
  else ⟨[0], 4, by decide, by decide, by decide, by decide, by decide⟩

/-- The size of the fragments fits the field of the header. -/
def SizeFits (maxFragmentSize : Nat) (d : Bytes) : Prop :=
  maxFragmentSize < d.length → optimalFragmentSize d.length maxFragmentSize < 65536

instance (maxFragmentSize : Nat) (d : Bytes) : Decidable (SizeFits maxFragmentSize d) :=
  inferInstanceAs (Decidable (_ → _))

theorem Fragmented.ofBytes_eq {d : Bytes} (hmax : 4 ≤ maxFragmentSize)
    (hacc : FragmentAccepts maxFragmentSize d) (hfits : SizeFits maxFragmentSize d)
    (hlong : maxFragmentSize < d.length) :
    (ofBytes d (optimalFragmentSize d.length maxFragmentSize)).data = d ∧
      (ofBytes d (optimalFragmentSize d.length maxFragmentSize)).size =
        optimalFragmentSize d.length maxFragmentSize := by
  obtain ⟨hfour, _, hal⟩ := optimalFragmentSize_bounds d.length hmax
  rw [ofBytes, dif_pos ⟨by omega, by omega, hal, hfits hlong, hacc.2 hlong⟩]
  exact ⟨rfl, rfl⟩

/-- The datagrams behind the numbers. -/
def specOf (maxFragmentSize : Nat) (long : List Bytes) (k : Nat) : Fragmented :=
  let d := long.getD k []
  .ofBytes d (optimalFragmentSize d.length maxFragmentSize)

theorem specOf_eq (hmax : 4 ≤ maxFragmentSize)
    (hacc : ∀ d ∈ datagrams, FragmentAccepts maxFragmentSize d)
    (hfits : ∀ d ∈ datagrams, SizeFits maxFragmentSize d) {k : Nat} {d : Bytes}
    (hd : (fragmentedOnes maxFragmentSize datagrams)[k]? = some d) :
    (specOf maxFragmentSize (fragmentedOnes maxFragmentSize datagrams) k).data = d ∧
      (specOf maxFragmentSize (fragmentedOnes maxFragmentSize datagrams) k).size =
        optimalFragmentSize d.length maxFragmentSize := by
  obtain ⟨hin, hlong⟩ := mem_filter.mp (mem_of_getElem? hd)
  rw [specOf, getD_eq_getElem?_getD, hd, Option.getD_some]
  exact Fragmented.ofBytes_eq hmax (hacc d hin) (hfits d hin) (by simpa using hlong)

/-- **What is sent.** -/
theorem sentPackets_layout (start : Int) (spec : Nat → Fragmented) (maxFragmentSize : Nat)
    (hne : ∀ d ∈ datagrams, d ≠ []) :
    ∀ first, (∀ j d, (fragmentedOnes maxFragmentSize datagrams)[j]? = some d →
        (spec (first + j)).data = d ∧
          (spec (first + j)).size = optimalFragmentSize d.length maxFragmentSize) →
      Layout start spec first (first + (fragmentedOnes maxFragmentSize datagrams).length)
        (sentPackets maxFragmentSize start first datagrams) := by
  induction datagrams with
  | nil =>
    intro first _
    exact ⟨fun e he => absurd he not_mem_nil, nodup_nil, fun k n hfrom hto => by
      simp only [fragmentedOnes, filter_nil, length_nil] at hto
      omega⟩
  | cons d rest ih =>
    intro first hspec
    have hrest := ih fun d' hd' => hne d' (mem_cons_of_mem d hd')
    by_cases hlong : maxFragmentSize < d.length
    · have hones : fragmentedOnes maxFragmentSize (d :: rest) =
          d :: fragmentedOnes maxFragmentSize rest := by
        simp [fragmentedOnes, hlong]
      rw [hones] at hspec ⊢
      obtain ⟨hdata, hsize⟩ := hspec 0 d rfl
      have hlay := hrest (first + 1) (fun j d' hd' => by
        have hnext := hspec (j + 1) d' hd'
        rwa [add_assoc, add_comm 1 j])
      rw [add_assoc, add_comm 1] at hlay
      have hfragmented := hlay.fragmented (by omega)
      rw [sentPackets, if_pos hlong, length_cons]
      rw [add_zero] at hdata hsize
      rwa [hdata, hsize] at hfragmented
    · have hones : fragmentedOnes maxFragmentSize (d :: rest) =
          fragmentedOnes maxFragmentSize rest := by
        simp [fragmentedOnes, hlong]
      rw [hones] at hspec ⊢
      rw [sentPackets, if_neg hlong]
      exact (hrest first hspec).whole (hne d mem_cons_self)

theorem sentPackets_wholes (start : Int) (datagrams : List Bytes) (first : Nat) :
    wholesOf (sentPackets maxFragmentSize start first datagrams) =
      datagrams.filter fun d => !decide (maxFragmentSize < d.length) := by
  induction datagrams generalizing first with
  | nil => rfl
  | cons d rest ih =>
    by_cases hlong : maxFragmentSize < d.length
    · rw [sentPackets, if_pos hlong, wholesOf, filterMap_append, ← wholesOf, ← wholesOf, ih,
        filter_cons_of_neg (by simpa using hlong)]
      simp [wholesOf, fragEmissions]
    · rw [sentPackets, if_neg hlong, filter_cons_of_pos (by simpa using hlong), ← ih first]
      simp [wholesOf, fragmentPrependFlags, beBytes_length]

end Sent

/-! ## Whole runs -/

/-- The first packet may come before the second: a fragment does not overtake those of
datagrams 25 or more numbers before. -/
def MayPrecede (e e' : Emission) : Prop :=
  ∀ p ∈ e.fragment, ∀ q ∈ e'.fragment, p.1 < q.1 + 25

instance (e e' : Emission) : Decidable (MayPrecede e e') :=
  inferInstanceAs (Decidable (∀ p ∈ e.fragment, ∀ q ∈ e'.fragment, p.1 < q.1 + 25))

/-- A fragment from outside the window comes only while no buffer is in use. -/
def FarGuard (list : FragmentList) (e : Emission) : Prop :=
  e.fragment.isSome → FarIdle list (headerSeqId e.packet)

instance (list : FragmentList) (e : Emission) : Decidable (FarGuard list e) :=
  inferInstanceAs (Decidable (_ → _))

section Run

variable (spec : Nat → Fragmented) (total : Nat)

/-- The fragment has come. -/
def Got (pre : List Emission) (k n : Nat) : Prop := (k, n) ∈ fragmentsOf pre

/-- All fragments of the datagram have come. -/
def AllGot (pre : List Emission) (k : Nat) : Prop :=
  ∀ m < (spec k).count, (k, m) ∈ fragmentsOf pre

instance (pre : List Emission) (k : Nat) : Decidable (AllGot spec pre k) :=
  inferInstanceAs (Decidable (∀ m < _, _))

/-- The datagrams that are there after the packets `pre`. -/
def receivedOf (pre : List Emission) : List Bytes :=
  wholesOf pre ++ ((range total).filter fun k => AllGot spec pre k).map fun k => (spec k).data

/-- The receiver after the packets `pre`: what is complete has come out, and the rest is in
the window. -/
structure DeliveryOk (start : Int) (pre : List Emission) (outs : List Bytes)
    (list : FragmentList) : Prop where
  window : ∃ top, FragWindow start spec (Got pre) list top
  outs : (outs.filter (· ≠ [])).Perm (receivedOf spec total pre)

variable {spec total} {start : Int} {all pre post : List Emission} {e : Emission}

theorem receivedOf_nil : receivedOf spec total [] = [] := by
  simp only [receivedOf, wholesOf, filterMap_nil, nil_append, map_eq_nil_iff,
    filter_eq_nil_iff, decide_eq_true_eq]
  intro k _ hall
  exact absurd (hall 0 (spec k).count_pos) not_mem_nil

theorem receivedOf_layout (hlay : Layout start spec 0 total all) :
    receivedOf spec total all = wholesOf all ++ (range total).map fun k => (spec k).data := by
  rw [receivedOf, filter_eq_self.mpr]
  intro k hk
  rw [decide_eq_true_eq]
  exact fun m hm => hlay.all k m (zero_le k) (mem_range.mp hk) hm

theorem deliveryOk_init (start : Int) : DeliveryOk spec total start [] [] .init where
  window := by
    refine ⟨-start - 1, fragWindow_idle ?_ ?_ ?_ ?_⟩
    · rintro k ⟨⟨n, hn⟩, _⟩
      exact absurd hn not_mem_nil
    · exact fun _ _ _ => rfl
    · exact ⟨Int.le_refl 0, show (0 : Int) < N_FRAG_BUF by decide⟩
    · rw [show start + (-start - 1) + 1 = 0 by omega]
      rfl
  outs := by
    rw [receivedOf_nil]
    exact List.Perm.refl []

variable {packet : Bytes}

theorem fragmentsOf_snoc_whole : fragmentsOf (pre ++ [⟨none, packet⟩]) = fragmentsOf pre := by
  simp [fragmentsOf]

theorem fragmentsOf_snoc {k : Nat} :
    fragmentsOf (pre ++ [⟨some (k, n), packet⟩]) = fragmentsOf pre ++ [(k, n)] := by
  simp [fragmentsOf]

/-- Datagrams that are partly there are near the one that arrives. -/
theorem near_of_mayPrecede (hlay : Layout start spec 0 total all)
    (hord : all.Pairwise MayPrecede) {k : Nat} (hall : all = pre ++ ⟨some (k, n), packet⟩ :: post)
    {p : Nat} (hp : Partly spec (Got pre) p) : k < p + 25 ∧ p < k + 25 := by
  obtain ⟨⟨m, hm⟩, m', hm', hmiss⟩ := hp
  obtain ⟨e, he, hfrag⟩ := mem_filterMap.mp hm
  rw [hall, pairwise_append, pairwise_cons] at hord
  obtain ⟨_, ⟨hpost, _⟩, hpre⟩ := hord
  have htot : p < total := by
    rcases hlay.packet e (by simp [hall, he]) with ⟨d, _, rfl⟩ | ⟨k', n', _, hk', _, rfl⟩
    · cases hfrag
    · cases hfrag
      exact hk'
  constructor
  · -- the missing fragment is this one or comes after it
    have hin := hlay.all p m' (zero_le p) htot hm'
    rw [show fragmentsOf all = fragmentsOf pre ++ (k, n) :: fragmentsOf post by
      simp [hall, fragmentsOf], mem_append, mem_cons] at hin
    rcases hin with hin | heq | hin
    · exact absurd hin hmiss
    · cases heq
      omega
    · obtain ⟨e', he', hfrag'⟩ := mem_filterMap.mp hin
      exact hpost e' he' (k, n) rfl (p, m') hfrag'
  · exact hpre e he _ mem_cons_self (p, m) hfrag (k, n) rfl

theorem allGot_snoc {k j : Nat} (hj : j ≠ k) :
    AllGot spec (pre ++ [⟨some (k, n), packet⟩]) j ↔ AllGot spec pre j := by
  simp only [AllGot, fragmentsOf_snoc, mem_append, mem_singleton, Prod.mk.injEq, hj,
    false_and, or_false]

theorem receivedOf_snoc {k : Nat} (hk : k < total) (hn : n < (spec k).count)
    (hnew : (k, n) ∉ fragmentsOf pre) :
    (AllGot spec (pre ++ [⟨some (k, n), packet⟩]) k →
      (receivedOf spec total (pre ++ [⟨some (k, n), packet⟩])).Perm
        (receivedOf spec total pre ++ [(spec k).data])) ∧
    (¬AllGot spec (pre ++ [⟨some (k, n), packet⟩]) k →
      receivedOf spec total (pre ++ [⟨some (k, n), packet⟩]) = receivedOf spec total pre) := by
  have hwholes : wholesOf (pre ++ [⟨some (k, n), packet⟩]) = wholesOf pre := by
    simp [wholesOf]
  have hbef : ¬AllGot spec pre k := fun hgot => hnew (hgot n hn)
  constructor
  · intro hfull
    have hnumbers : ((List.range total).filter fun j =>
        AllGot spec (pre ++ [⟨some (k, n), packet⟩]) j).Perm
        (((List.range total).filter fun j => AllGot spec pre j) ++ [k]) := by
      refine (perm_ext_iff_of_nodup (nodup_range.filter _) ?_).mpr ?_
      · refine nodup_append.mpr ⟨nodup_range.filter _, nodup_singleton k, ?_⟩
        intro j hj j' hj' heq
        rw [heq, mem_singleton.mp hj'] at hj
        exact hbef (by simpa using (mem_filter.mp hj).2)
      · intro j
        simp only [mem_filter, mem_range, decide_eq_true_eq, mem_append, mem_singleton]
        by_cases hj : j = k
        · simp [hj, hk, hfull]
        · simp [hj, allGot_snoc hj]
    rw [receivedOf, receivedOf, hwholes, append_assoc]
    simpa using (hnumbers.map fun j => (spec j).data).append_left (wholesOf pre)
  · intro hnot
    rw [receivedOf, receivedOf, hwholes]
    congr 2
    apply filter_congr
    intro j _
    by_cases hj : j = k
    · simp [hj, hnot, hbef]
    · simp [allGot_snoc hj]

theorem receivedOf_snoc_whole {spec : Nat → Fragmented} {total : Nat} {d : Bytes} :
    (receivedOf spec total (pre ++ [⟨none, fragmentPrependFlags .whole 0 0 0 d⟩])).Perm
      (receivedOf spec total pre ++ [d]) := by
  have hwholes : wholesOf (pre ++ [⟨none, fragmentPrependFlags .whole 0 0 0 d⟩]) =
      wholesOf pre ++ [d] := by
    simp [wholesOf, fragmentPrependFlags, beBytes_length]
  simp only [receivedOf, hwholes, AllGot, fragmentsOf_snoc_whole, append_assoc]
  exact List.Perm.append_left _ perm_append_comm

theorem filter_snoc_perm {outs received : List Bytes} {out : Bytes}
    (h : (outs.filter (· ≠ [])).Perm received) (hout : out ≠ []) :
    ((outs ++ [out]).filter (· ≠ [])).Perm (received ++ [out]) := by
  rw [filter_append, filter_cons_of_pos (by simpa using hout), filter_nil]
  exact h.append_right [out]

/-- **A packet is delivered.** -/
theorem fragmentStep_ok (hlay : Layout start spec 0 total all) (hord : all.Pairwise MayPrecede)
    (hroom : ∀ k < total, (spec k).data.length ≤ room) (hall : all = pre ++ e :: post)
    {list : FragmentList} {outs : List Bytes} (hok : DeliveryOk spec total start pre outs list)
    (hfar : FarGuard list e) :
    ∃ list' out, fragmentStep room list e = some (list', out) ∧
      DeliveryOk spec total start (pre ++ [e]) (outs ++ [out]) list' := by
  obtain ⟨⟨top, hwin⟩, houts⟩ := hok
  rcases hlay.packet e (by simp [hall]) with ⟨d, hd, rfl⟩ | ⟨k, n, _, hk, hn, rfl⟩
  · refine ⟨list, d, ?_, ⟨top, ?_⟩, ?_⟩
    · rw [fragmentStep, fragmentIncoming_whole]
    · rw [show Got (pre ++ [_]) = Got pre by funext k n; rw [Got, fragmentsOf_snoc_whole, Got]]
      exact hwin
    · exact (filter_snoc_perm houts hd).trans receivedOf_snoc_whole.symm
  · have hnew : (k, n) ∉ fragmentsOf pre := by
      have hnd := hlay.nodup
      rw [hall, fragmentsOf, filterMap_append, nodup_append] at hnd
      intro hin
      exact hnd.2.2 _ hin (k, n) (by simp) rfl
    have hfar' : FarIdle list ((start + k + 1) % N_SEQ_ID) := by
      obtain ⟨seq, hseq_lt, hseq⟩ := exists_seqId (start + k + 1)
      have hidle := hfar rfl
      simp only [hseq] at hidle ⊢
      rwa [headerSeqId_fragPacket hseq_lt (hn.trans_le (spec k).count_le) (spec k).size_lt] at hidle
    have hdeliver := hwin.deliver hn hnew (hroom k hk)
      (fun p hp => near_of_mayPrecede hlay hord hall hp) hfar'
    rw [fragmentStep]
    generalize fragPacket ((start + k + 1) % N_SEQ_ID) (spec k).data (spec k).size n = packet at *
    have hgot : ∀ p m, Got (pre ++ [⟨some (k, n), packet⟩]) p m ↔
        (p = k ∧ m = n) ∨ Got pre p m := by
      intro p m
      rw [Got, fragmentsOf_snoc, mem_append, mem_singleton, Prod.mk.injEq, or_comm, Got]
    obtain ⟨hnext, hfull, hmore⟩ := hdeliver _ hgot
    obtain ⟨hperm, hsame⟩ := receivedOf_snoc hk hn hnew
    refine ⟨_, (fragmentIncoming room list packet).2, rfl, hnext, ?_⟩
    by_cases hcomp : AllGot spec (pre ++ [⟨some (k, n), packet⟩]) k
    · rw [hfull hcomp]
      exact (filter_snoc_perm houts (ne_nil_of_length_pos (spec k).data_pos)).trans
        (hperm hcomp).symm
    · rw [hmore hcomp, hsame hcomp]
      simpa using houts

end Run

/-- **The round trip.** The sender starts with any sequence id. Its packets are delivered in
any order in which no fragment overtakes those of datagrams 25 or more numbers before. All
datagrams come out once, and nothing else. -/
theorem fragment_round_trip {maxFragmentSize room : Nat} (hmax : 4 ≤ maxFragmentSize)
    (f : FragmentSender) (hseq : 0 ≤ f.outgoingSeqId ∧ f.outgoingSeqId < N_SEQ_ID)
    {datagrams : List Bytes} (hacc : ∀ d ∈ datagrams, FragmentAccepts maxFragmentSize d)
    (hroom : ∀ d ∈ datagrams, d.length ≤ room)
    (hfits : ∀ d ∈ datagrams, SizeFits maxFragmentSize d) {order : List Emission}
    (hperm : order.Perm (emissions maxFragmentSize f 0 datagrams))
    (horder : order.Pairwise MayPrecede)
    (hguard : RunGuard (fragmentStep room) FarGuard .init order) :
    ∃ list outs, run (fragmentStep room) .init order = some (list, outs) ∧
      (outs.filter (· ≠ [])).Perm datagrams := by
  have hstart : f.outgoingSeqId = (f.outgoingSeqId + (0 : Nat)) % N_SEQ_ID := by
    rw [Int.natCast_zero, Int.add_zero, Int.emod_eq_of_lt hseq.1 hseq.2]
  rw [emissions_eq hmax f.outgoingSeqId hacc f 0 hstart] at hperm
  have hspec : ∀ k d, (fragmentedOnes maxFragmentSize datagrams)[k]? = some d → _ :=
    fun k d hd => specOf_eq hmax hacc hfits hd
  generalize hdef : specOf maxFragmentSize (fragmentedOnes maxFragmentSize datagrams) = spec
    at hspec
  have hlayout := sentPackets_layout f.outgoingSeqId spec maxFragmentSize
    (fun d hd => (hacc d hd).1) 0 (fun j d hd => by rw [zero_add]; exact hspec j d hd)
  rw [zero_add] at hlayout
  have hlayout' := hlayout.perm hperm
  have hroom' : ∀ k < (fragmentedOnes maxFragmentSize datagrams).length,
      (spec k).data.length ≤ room := by
    intro k hk
    rw [(hspec k _ (getElem?_eq_getElem hk)).1]
    exact hroom _ (mem_of_mem_filter (getElem_mem hk))
  obtain ⟨list, outs, hrun, hok⟩ := run_trace
    (fun pre e post outs list hall hok hfar =>
      fragmentStep_ok hlayout' horder hroom' hall hok hfar)
    (deliveryOk_init f.outgoingSeqId) hguard
  refine ⟨list, outs, hrun, hok.outs.trans ?_⟩
  rw [receivedOf_layout hlayout']
  have hdata : ((range (fragmentedOnes maxFragmentSize datagrams).length).map
      fun k => (spec k).data) = fragmentedOnes maxFragmentSize datagrams := by
    apply ext_getElem
    · simp
    · intro k hk hk'
      rw [getElem_map, getElem_range]
      exact (hspec k _ (getElem?_eq_getElem hk')).1
  have hwholes : (wholesOf order).Perm
      (datagrams.filter fun d => !decide (maxFragmentSize < d.length)) := by
    rw [← sentPackets_wholes f.outgoingSeqId datagrams 0]
    exact hperm.filterMap _
  rw [hdata]
  exact ((hwholes.append_right _).trans perm_append_comm).trans
    (filter_append_perm _ datagrams)

/-- The packets come in the opposite order; the sequence id wraps around, and a datagram in
between is sent whole. -/
theorem fragment_round_trip_reversed :
    ∃ list outs, run (fragmentStep 9) .init
        (emissions 4 ⟨254, 0, 0, []⟩ 0 [[1, 2, 3, 4, 5], [6, 7], [1, 2, 3, 4, 5, 6, 7, 8, 9]]).reverse =
        some (list, outs) ∧
      (outs.filter (· ≠ [])).Perm [[1, 2, 3, 4, 5], [6, 7], [1, 2, 3, 4, 5, 6, 7, 8, 9]] :=
  fragment_round_trip (by decide) ⟨254, 0, 0, []⟩ (by decide)
    (by decide) (by decide) (by decide) (reverse_perm _) (by decide +kernel) (by decide +kernel)

theorem perm_of_moved {α : Type} {l : List α} :
    ((l.drop n).take 1 ++ l.take n ++ l.drop (n + 1)).Perm l := by
  have hdrop : (l.drop n).take 1 ++ l.drop (n + 1) = l.drop n := by
    rw [← drop_drop]
    exact take_append_drop 1 _
  refine (perm_append_comm.append_right _).trans ?_
  rw [append_assoc, hdrop, take_append_drop]

theorem pairwise_mayPrecede {order : List Emission}
    (h : ∀ e ∈ order, ∀ p ∈ e.fragment, p.1 < 25) : order.Pairwise MayPrecede := by
  apply pairwise_of_forall_mem_list
  intro e he e' _ p hp q _
  have hlt := h e he p hp
  omega

/-- The receiver starts as if a datagram with the sequence id zero had come. The first packet
is a fragment of datagram 24, with the id 250; the second one is a fragment of datagram 0, with
the id 226. That is far from zero, so the window is emptied, and datagram 24 never comes out. -/
theorem fragment_round_trip_fails :
    let datagrams : List Bytes := (range 25).map fun i => [UInt8.ofNat i, 1, 2, 3, 4]
    let sent := emissions 4 ⟨225, 0, 0, []⟩ 0 datagrams
    let order := (sent.drop 48).take 1 ++ sent.take 48 ++ sent.drop 49
    (∀ d ∈ datagrams, FragmentAccepts 4 d ∧ SizeFits 4 d) ∧ order.Perm sent ∧
      order.Pairwise MayPrecede ∧
      (run (fragmentStep 5) .init order).map (fun r => r.2.filter (· ≠ [])) =
        some (datagrams.take 24) := by
  intro datagrams sent order
  refine ⟨by decide +kernel, perm_of_moved, pairwise_mayPrecede ?_, by decide +kernel⟩
  decide +kernel

end OpenVpn
