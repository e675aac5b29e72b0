import Mathlib.Data.Finset.Card
import Mathlib.Order.Interval.Finset.Nat
import OpenVpn.Control.Receive
import OpenVpn.Control.Transmit

/-!
# Windows of packet ids that wrap around

Packet ids of the control channel are 32-bit counters. The tests of `reliable.c`
are meant to work across the end of their range.

* `receive_window_exact_iff` — when the two tests of a received id are together the
  test for the window.
* `SendWindowOk` — the ids in use are distinct and lie in a window behind the next one;
  `Queued` is what queueing a packet does to the slots.
* `SendWindowOk.canGet` — the window leaves a slot free (pigeonhole).
* `send_window_available_exact` — the reported number of free places is exact, over
  every sequence of packets and acknowledgements.
-/

namespace OpenVpn

open Base List BitVec

variable {rel : Reliable}

/-! ## The test of the receive window -/

theorem notReplay_empty (hemp : rel.activeIds = []) (id : PacketIdType) :
    reliableNotReplay rel id = true ↔ (id - rel.packetId).toNat < 2 ^ 31 := by
  have hnone : rel.array.any (fun e => e.active && e.packetId == id) = false := by
    rw [any_eq_false]
    intro e he hkey
    rw [Bool.and_eq_true] at hkey
    have hmem : e.packetId ∈ rel.activeIds :=
      mem_map.mpr ⟨e, mem_filter.mpr ⟨he, hkey.1⟩, rfl⟩
    rw [hemp] at hmem
    cases hmem
  rw [reliableNotReplay, hnone, Bool.or_false, reliablePidMin, Bool.not_not, reliablePidInRange1,
    decide_eq_true_eq, subtractPid, lt_def]
  rfl

/-- The test for the end of the window compares ids as numbers, or, if the end lies
beyond the range, ids moved by half of it. -/
theorem wontBreakSequentiality_iff (hn : rel.size < 2 ^ 31) (id : PacketIdType) :
    reliableWontBreakSequentiality rel id = true ↔
      if rel.packetId.toNat + rel.size < 2 ^ 32 then id.toNat < rel.packetId.toNat + rel.size
      else 2 ^ 31 ≤ id.toNat ∨ id.toNat + 2 ^ 32 < rel.packetId.toNat + rel.size := by
  have hid := id.isLt
  have hbase := rel.packetId.isLt
  have hsum : (rel.packetId + BitVec.ofNat 32 rel.size).toNat =
      (rel.packetId.toNat + rel.size) % 2 ^ 32 := by
    rw [toNat_add, toNat_ofNat, Nat.add_mod_mod]
  unfold reliableWontBreakSequentiality reliablePidInRange2
  by_cases hend : rel.packetId.toNat + rel.size < 2 ^ 32
  · have hle : rel.packetId ≤ rel.packetId + BitVec.ofNat 32 rel.size := by
      rw [le_def, hsum]
      omega
    rw [if_pos hle, if_pos hend, decide_eq_true_eq, lt_def, hsum, Nat.mod_eq_of_lt hend]
  · have hle : ¬ rel.packetId ≤ rel.packetId + BitVec.ofNat 32 rel.size := by
      rw [le_def, hsum]
      omega
    have hsh : (id + 0x80000000#32).toNat = (id.toNat + 2 ^ 31) % 2 ^ 32 :=
      toNat_add ..
    have hlim : (rel.packetId + 0x80000000#32 + BitVec.ofNat 32 rel.size).toNat =
        rel.packetId.toNat + rel.size - 2 ^ 31 := by
      have hmid : (0x80000000#32).toNat = 2 ^ 31 := rfl
      rw [toNat_add, toNat_add, hmid, toNat_ofNat]
      omega
    rw [if_neg hle, if_neg hend, decide_eq_true_eq, lt_def, hsh, hlim]
    omega

/-- **The receive window.** Both tests together are the test for the window, except for
an id more than half of the range below the next one while the window does not
itself wrap around. -/
theorem receive_window_exact_iff (rel : Reliable) (hempty : rel.activeIds = [])
    (hn : rel.size < 2 ^ 31) (id : PacketIdType) :
    (((reliableNotReplay rel id = true ∧ reliableWontBreakSequentiality rel id = true) ↔
        (id - rel.packetId).toNat < rel.size)) ↔
      ¬ (rel.packetId.toNat + rel.size < 2 ^ 32 ∧ id.toNat + 2 ^ 31 < rel.packetId.toNat) := by
  have hid := id.isLt
  have hbase := rel.packetId.isLt
  have hsub : (id - rel.packetId).toNat = (2 ^ 32 - rel.packetId.toNat + id.toNat) % 2 ^ 32 :=
    toNat_sub ..
  rw [notReplay_empty hempty, wontBreakSequentiality_iff hn, hsub]
  by_cases hend : rel.packetId.toNat + rel.size < 2 ^ 32
  · rw [if_pos hend]
    omega
  · rw [if_neg hend]
    omega

/-- Eight free slots, with the next id `base`. -/
def eightFree (base : PacketIdType) : Reliable :=
  { Reliable.cleared ⟨64, 16, [], by decide⟩ 16 8 false with packetId := base }

theorem receive_window_exact_wrapped :
    ((reliableNotReplay (eightFree 0xFFFFFFFC#32) 2#32 = true ∧
        reliableWontBreakSequentiality (eightFree 0xFFFFFFFC#32) 2#32 = true) ↔
      (2#32 - 0xFFFFFFFC#32).toNat < 8) :=
  (receive_window_exact_iff (eightFree 0xFFFFFFFC#32) (by decide) (by decide) 2#32).mpr
    (by decide)

/-- Id 5 is twenty-one ids ahead, far outside of a window of eight, but is accepted. -/
theorem distant_id_accepted :
    reliableNotReplay (eightFree 0xFFFFFFF0#32) 5#32 = true ∧
      reliableWontBreakSequentiality (eightFree 0xFFFFFFF0#32) 5#32 = true ∧
      ¬ (5#32 - 0xFFFFFFF0#32).toNat < 8 := by
  decide

/-! ## The send window -/

/-- How far an id is behind the next one. -/
def Reliable.age (rel : Reliable) (id : PacketIdType) : Nat := (subtractPid rel.packetId id).toNat

/-- The age of the oldest id in use, zero if there is none. -/
def Reliable.span (rel : Reliable) : Nat := ((minActiveId rel.array).map rel.age).getD 0

/-- `reliable_get_num_output_sequenced_available`, an `int`. -/
def reliableGetNumOutputSequencedAvailable (rel : Reliable) : Int :=
  match minActiveId rel.array with
  | none => rel.size
  | some minId => ((rel.size : Int) - rel.age minId).bmod 0x100000000

/-- The send array is a window of `n` ids behind the next one, each slot with room for
`room` bytes. -/
structure SendWindowOk (n room : Nat) (rel : Reliable) : Prop where
  size : rel.size = n
  headroom : 4 ≤ rel.offset
  room : ∀ (i : Nat) (e : ReliableEntry), rel.array[i]? = some e →
    rel.offset + room ≤ e.buf.capacity
  window : ∀ i e, rel.ActiveAt i e → 1 ≤ rel.age e.packetId ∧ rel.age e.packetId ≤ n
  distinct : ∀ i j e f, rel.ActiveAt i e → rel.ActiveAt j f → e.packetId = f.packetId → i = j

variable {n room : Nat}

theorem reliablePidMin_age (hn : n < 2 ^ 31) {a b : PacketIdType} (ha : rel.age a ≤ n)
    (hb : rel.age b ≤ n) : reliablePidMin a b = decide (rel.age b < rel.age a) := by
  unfold Reliable.age subtractPid at *
  have hmid : (0x80000000#32).toNat = 2 ^ 31 := rfl
  rw [reliablePidMin, reliablePidInRange1, subtractPid, ← decide_not, decide_eq_decide,
    lt_def, hmid]
  simp only [toNat_sub] at *
  have := a.isLt
  have := b.isLt
  have := rel.packetId.isLt
  omega

theorem age_inj {a b : PacketIdType} (h : rel.age a = rel.age b) : a = b := by
  have hsub : rel.packetId - a = rel.packetId - b := eq_of_toNat_eq h
  have := rel.packetId.isLt
  bv_omega

/-- The loop finds the id that is furthest behind the next one. -/
theorem minActiveId_loop (hn : n < 2 ^ 31) (slots : List ReliableEntry) :
    ∀ acc : Option PacketIdType,
      (∀ e ∈ slots, e.active = true → 1 ≤ rel.age e.packetId ∧ rel.age e.packetId ≤ n) →
      (acc.map rel.age).getD 0 ≤ n →
      ∃ r, slots.foldl (fun minId e => if e.active && minId.all (reliablePidMin e.packetId)
          then some e.packetId else minId) acc = r ∧
        (acc.map rel.age).getD 0 ≤ (r.map rel.age).getD 0 ∧
        (∀ e ∈ slots, e.active = true → rel.age e.packetId ≤ (r.map rel.age).getD 0) ∧
        (r = acc ∨ ∃ e ∈ slots, e.active = true ∧ r = some e.packetId) := by
  induction slots with
  | nil =>
    intro acc _ _
    exact ⟨acc, rfl, Nat.le_refl _, fun e he => absurd he not_mem_nil, .inl rfl⟩
  | cons e slots ih =>
    intro acc hsl hacc
    have htail := fun e' he' => hsl e' (mem_cons_of_mem _ he')
    have hhead := hsl e mem_cons_self
    rw [foldl_cons]
    by_cases htk : (e.active && acc.all (reliablePidMin e.packetId)) = true
    · rw [if_pos htk]
      obtain ⟨hact, hall⟩ := Bool.and_eq_true_iff.mp htk
      have hle : (acc.map rel.age).getD 0 ≤ rel.age e.packetId := by
        cases acc with
        | none => exact Nat.zero_le _
        | some m =>
          have hmin : reliablePidMin e.packetId m = true := hall
          rw [reliablePidMin_age hn (hhead hact).2 hacc, decide_eq_true_eq] at hmin
          exact Nat.le_of_lt hmin
      obtain ⟨r, hr, hstart, holder, horig⟩ := ih (some e.packetId) htail (hhead hact).2
      refine ⟨r, hr, hle.trans hstart, ?_, ?_⟩
      · intro e' he' hact'
        rcases mem_cons.mp he' with rfl | he'
        · exact hstart
        · exact holder e' he' hact'
      · rcases horig with h | ⟨e', he', h⟩
        · exact .inr ⟨e, mem_cons_self, hact, h⟩
        · exact .inr ⟨e', mem_cons_of_mem _ he', h⟩
    · rw [if_neg htk]
      obtain ⟨r, hr, hstart, holder, horig⟩ := ih acc htail hacc
      refine ⟨r, hr, hstart, ?_, ?_⟩
      · intro e' he' hact'
        rcases mem_cons.mp he' with rfl | he'
        · refine Nat.le_trans ?_ hstart
          cases acc with
          | none => exact absurd (by simp [hact']) htk
          | some m =>
            have hmin : ¬ reliablePidMin e'.packetId m = true := by
              intro hmin
              exact htk (by rw [hact']; exact hmin)
            rw [reliablePidMin_age hn (hhead hact').2 hacc, decide_eq_true_eq] at hmin
            exact Nat.le_of_not_lt hmin
        · exact holder e' he' hact'
      · rcases horig with h | ⟨e', he', h⟩
        · exact .inl h
        · exact .inr ⟨e', mem_cons_of_mem _ he', h⟩

section

variable (h : SendWindowOk n room rel)

include h

theorem SendWindowOk.span_spec (hn : n < 2 ^ 31) :
    (∀ i e, rel.ActiveAt i e → rel.age e.packetId ≤ rel.span) ∧
      (minActiveId rel.array = none ∧ rel.span = 0 ∨
        ∃ i e, rel.ActiveAt i e ∧ minActiveId rel.array = some e.packetId ∧
          rel.span = rel.age e.packetId) := by
  have hsl : ∀ e ∈ rel.array, e.active = true →
      1 ≤ rel.age e.packetId ∧ rel.age e.packetId ≤ n := by
    intro e he hact
    obtain ⟨i, hi⟩ := mem_iff_getElem?.mp he
    exact h.window i e ⟨hi, hact⟩
  obtain ⟨r, hr, -, holder, horig⟩ := minActiveId_loop hn rel.array none hsl (Nat.zero_le _)
  have hmin : minActiveId rel.array = r := hr
  have hspan : rel.span = (r.map rel.age).getD 0 := by
    unfold Reliable.span
    rw [hmin]
  rw [hspan, hmin]
  constructor
  · intro i e hie
    exact holder e (mem_of_getElem? hie.1) hie.2
  · rcases horig with rfl | ⟨e, he, hact, rfl⟩
    · exact .inl ⟨rfl, rfl⟩
    · obtain ⟨i, hi⟩ := mem_iff_getElem?.mp he
      exact .inr ⟨i, e, ⟨hi, hact⟩, rfl, rfl⟩

theorem SendWindowOk.available (hn : n < 2 ^ 31) :
    rel.span ≤ n ∧ reliableGetNumOutputSequencedAvailable rel = ((n - rel.span : Nat) : Int) := by
  unfold reliableGetNumOutputSequencedAvailable
  rcases (h.span_spec hn).2 with ⟨hmin, hspan⟩ | ⟨i, e, hie, hmin, hspan⟩
  · rw [hmin, hspan]
    exact ⟨Nat.zero_le _, by rw [Nat.sub_zero]; exact congrArg Nat.cast h.size⟩
  · have hle := (h.window i e hie).2
    rw [hmin, hspan]
    refine ⟨hle, ?_⟩
    show ((rel.size : Int) - rel.age e.packetId).bmod 0x100000000 = _
    rw [h.size, Int.bmod_eq_of_le (by omega) (by omega)]
    omega

theorem SendWindowOk.inRange (hn : 0 < n ∧ n < 2 ^ 31) :
    (minActiveId rel.array).all (reliablePidInRange1 rel.packetId · (BitVec.ofNat 32 rel.size)) =
      decide (rel.span < n) := by
  rcases (h.span_spec hn.2).2 with ⟨hmin, hspan⟩ | ⟨i, e, -, hmin, hspan⟩
  · rw [hmin, hspan, Option.all_none, decide_eq_true hn.1]
  · rw [hmin, hspan, Option.all_some, reliablePidInRange1, decide_eq_decide, lt_def, h.size,
      toNat_ofNat, Nat.mod_eq_of_lt (by omega)]
    rfl

/-- **Pigeonhole.** Distinct ids that are less than `n` behind leave a slot free. -/
theorem SendWindowOk.canGet (hn : n < 2 ^ 31) (hlt : rel.span < n) :
    reliableCanGet rel = true := by
  cases hfull : reliableCanGet rel with
  | true => rfl
  | false =>
    exfalso
    have hlen := (activeIds_length_of_full hfull).trans h.size
    have hnd : (rel.activeIds.map rel.age).Nodup :=
      (activeIds_nodup h.distinct).map (fun a b hab => age_inj hab)
    have hsub : (rel.activeIds.map rel.age).toFinset ⊆ Finset.Icc 1 rel.span := by
      intro m hm
      obtain ⟨id, hid, rfl⟩ := mem_map.mp (mem_toFinset.mp hm)
      obtain ⟨i, e, hie, rfl⟩ := mem_activeIds.mp hid
      exact Finset.mem_Icc.mpr ⟨(h.window i e hie).1, (h.span_spec hn).1 i e hie⟩
    have hcard := Finset.card_le_card hsub
    rw [toFinset_card_of_nodup hnd, length_map, hlen, Nat.card_Icc] at hcard
    omega

end

/-- Slot `i`, which was free and held `old`, now holds the next id and `x` in `e`. -/
structure Queued (rel rel' : Reliable) (i : Nat) (x : Bytes) (old e : ReliableEntry) : Prop where
  free : rel.array[i]? = some old ∧ old.active = false
  next : rel'.packetId = rel.packetId + 1
  offset : rel'.offset = rel.offset
  array : rel'.array = rel.array.set i e
  entry : e.active = true ∧ e.packetId = rel.packetId
  capacity : e.buf.capacity = old.buf.capacity
  contents : e.buf.contents = htonpid rel.packetId ++ x

variable {rel' : Reliable} {i : Nat} {x payload : Bytes} {old e : ReliableEntry}

section

variable (h : Queued rel rel' i x old e)

include h

theorem Queued.activeAt_iff (j : Nat) (f : ReliableEntry) :
    rel'.ActiveAt j f ↔ rel.ActiveAt j f ∨ j = i ∧ f = e := by
  have hi := List.getElem?_eq_some_iff.mp h.free.1
  unfold Reliable.ActiveAt
  rw [h.array, getElem?_set]
  by_cases hij : i = j
  · subst hij
    rw [if_pos rfl, if_pos hi.1, h.free.1]
    constructor
    · intro hf
      cases hf.1
      exact .inr ⟨rfl, rfl⟩
    · intro hf
      rcases hf with hf | ⟨-, rfl⟩
      · cases hf.1
        rw [h.free.2] at hf
        cases hf.2
      · exact ⟨rfl, h.entry.1⟩
  · rw [if_neg hij]
    constructor
    · exact .inl
    · intro hf
      rcases hf with hf | ⟨rfl, -⟩
      · exact hf
      · exact absurd rfl hij

omit h in
theorem modifySlot_eq_set (hi : rel.array[i]? = some e) (f : ReliableEntry → ReliableEntry) :
    rel.modifySlot i f = { rel with array := rel.array.set i (f e) } := by
  unfold Reliable.modifySlot
  rw [modify_eq_set_getElem?, hi]
  rfl

omit h in
theorem bufWrite_getD {buf : Buffer} (hnil : buf.contents = [])
    (hroom : buf.offset + room ≤ buf.capacity) (payload : Bytes) :
    ((bufWrite buf payload).getD buf).capacity = buf.capacity ∧
      ((bufWrite buf payload).getD buf).offset = buf.offset ∧
      (payload.length ≤ room → payload.length < BUF_SIZE_MAX →
        ((bufWrite buf payload).getD buf).contents = payload) := by
  cases hwr : bufWrite buf payload with
  | none =>
    refine ⟨rfl, rfl, ?_⟩
    intro hfit hmax
    have hfits : buf.offset + buf.contents.length + payload.length ≤ buf.capacity := by
      rw [hnil, length_nil]
      omega
    obtain ⟨_, hsome, _⟩ := bufWrite_isSome buf payload hmax hfits
    rw [hwr] at hsome
    cases hsome
  | some copy =>
    obtain ⟨hcap, hoff, hcon⟩ := bufWrite_eq_some hwr
    refine ⟨hcap, hoff, ?_⟩
    intro _ _
    show copy.contents = payload
    rw [hcon, hnil, nil_append]

omit h in
/-- **A packet is queued** while there is room in the window. -/
theorem SendWindowOk.queued (h : SendWindowOk n room rel) (hn : 0 < n ∧ n < 2 ^ 31)
    (hlt : rel.span < n)
    (opcode : Nat) (payload : Bytes) :
    ∃ rel' x i old e, queueOutgoing rel opcode payload = some (rel', some x) ∧
      Queued rel rel' i x old e ∧
      (payload.length ≤ room → payload.length < BUF_SIZE_MAX → x = payload) := by
  obtain ⟨i, old, buf, hi, hfree, hnil, hcap, hoff, hget⟩ := reliableGetBuf_free
    (fun i e hi => Nat.le_of_add_right_le (h.room i e hi)) (h.canGet hn.2 hlt)
  have hroom : buf.offset + room ≤ buf.capacity := by
    rw [hoff, hcap]
    exact h.room i old hi
  obtain ⟨hcopyCap, hcopyOff, hcop⟩ := bufWrite_getD hnil hroom payload
  have hhead : (htonpid rel.packetId).length ≤ ((bufWrite buf payload).getD buf).offset := by
    rw [htonpid_length, hcopyOff, hoff]
    exact h.headroom
  obtain ⟨packet, hpk, -⟩ := bufWritePrepend_isSome hhead
  obtain ⟨hpacketCap, hpacketContents⟩ := bufWritePrepend_eq_some hpk
  have hgetSeq : reliableGetBufOutputSequenced rel =
      some (some (i, rel.modifySlot i (ReliableEntry.setBuf buf))) := by
    rw [reliableGetBufOutputSequenced, h.inRange hn, decide_eq_true hlt, if_pos rfl, hget]
  have hslot : (rel.modifySlot i (ReliableEntry.setBuf buf)).array[i]? = some (old.setBuf buf) := by
    rw [modifySlot_getElem?, if_pos rfl, hi]
    rfl
  let e : ReliableEntry :=
    { old with
      active := true, packetId := rel.packetId, opcode, nextTry := 0
      timeout := rel.initialTimeout, buf := packet }
  refine ⟨{ rel with packetId := rel.packetId + 1, array := rel.array.set i e }, _, i, old, e,
    ?_, ⟨⟨hi, hfree⟩, rfl, rfl, rfl, ⟨rfl, rfl⟩, hpacketCap.trans (hcopyCap.trans hcap),
      hpacketContents⟩, hcop⟩
  unfold queueOutgoing reliableMarkActiveOutgoing
  rw [hgetSeq]
  dsimp only
  rw [hslot]
  dsimp only
  rw [modifySlot_getElem?, if_pos rfl, hslot]
  simp only [Option.map_some, Option.bind_some, setBuf_buf, modifySlot_packetId, hpk]
  rw [modifySlot_modifySlot, modifySlot_modifySlot, modifySlot_eq_set hi]
  rfl

theorem Queued.age {id : PacketIdType} (hid : rel.age id < 2 ^ 31) :
    rel'.age id = rel.age id + 1 := by
  unfold Reliable.age subtractPid at *
  rw [h.next]
  bv_omega

omit h in
theorem age_packetId (rel : Reliable) : rel.age rel.packetId = 0 := by
  unfold Reliable.age subtractPid
  rw [BitVec.sub_self]
  rfl

theorem Queued.age_entry : rel'.age e.packetId = 1 := by
  rw [h.entry.2, h.age (by rw [age_packetId]; omega), age_packetId]

theorem Queued.windowOk (hok : SendWindowOk n room rel) (hn : n < 2 ^ 31) (hlt : rel.span < n) :
    SendWindowOk n room rel' := by
  obtain ⟨hbd, -⟩ := hok.span_spec hn
  constructor
  · show rel'.array.length = n
    rw [h.array, length_set]
    exact hok.size
  · rw [h.offset]
    exact hok.headroom
  · intro j f hj
    rw [h.array, getElem?_set] at hj
    rw [h.offset]
    split at hj
    · split at hj
      · cases hj
        rw [h.capacity]
        exact hok.room i old h.free.1
      · cases hj
    · exact hok.room j f hj
  · intro j f hj
    rcases (h.activeAt_iff j f).mp hj with hj | ⟨rfl, rfl⟩
    · have hwin := hok.window j f hj
      have := hbd j f hj
      rw [h.age (by omega)]
      omega
    · rw [h.age_entry]
      omega
  · intro j k f g hj hk heq
    -- the next id is none of those in use, whose age is positive
    have hfr : ∀ j f, rel.ActiveAt j f → f.packetId ≠ rel.packetId := by
      intro j f hj heq
      have hage := (hok.window j f hj).1
      rw [heq, age_packetId] at hage
      omega
    rcases (h.activeAt_iff j f).mp hj with hj | ⟨rfl, rfl⟩
    · rcases (h.activeAt_iff k g).mp hk with hk | ⟨rfl, rfl⟩
      · exact hok.distinct j k f g hj hk heq
      · exact absurd (heq.trans h.entry.2) (hfr j f hj)
    · rcases (h.activeAt_iff k g).mp hk with hk | ⟨rfl, rfl⟩
      · exact absurd (heq.symm.trans h.entry.2) (hfr k g hk)
      · rfl

theorem Queued.span (hok : SendWindowOk n room rel) (hn : n < 2 ^ 31) (hlt : rel.span < n) :
    rel'.span = rel.span + 1 := by
  obtain ⟨hbd, hattained⟩ := hok.span_spec hn
  obtain ⟨hbound', hattained'⟩ := (h.windowOk hok hn hlt).span_spec hn
  have hold : ∀ j f, rel.ActiveAt j f → rel'.age f.packetId = rel.age f.packetId + 1 := by
    intro j f hj
    have := (hok.window j f hj).2
    exact h.age (by omega)
  apply Nat.le_antisymm
  · rcases hattained' with ⟨-, hzero⟩ | ⟨j, f, hj, -, hspan⟩
    · omega
    · rw [hspan]
      rcases (h.activeAt_iff j f).mp hj with hj | ⟨rfl, rfl⟩
      · rw [hold j f hj]
        exact Nat.succ_le_succ (hbd j f hj)
      · rw [h.age_entry]
        omega
  · rcases hattained with ⟨-, hzero⟩ | ⟨j, f, hj, -, hspan⟩
    · have := hbound' i e ((h.activeAt_iff i e).mpr (.inr ⟨rfl, rfl⟩))
      rw [h.age_entry] at this
      omega
    · have := hbound' j f ((h.activeAt_iff j f).mpr (.inl hj))
      rw [hold j f hj] at this
      omega

end

section

variable (h : SendWindowOk n room rel)

include h

theorem SendWindowOk.kept (hsize : rel'.size = rel.size) (hoff : rel'.offset = rel.offset)
    (hnext : rel'.packetId = rel.packetId)
    (hslot : ∀ (i : Nat) (e' : ReliableEntry), rel'.array[i]? = some e' →
      ∃ e : ReliableEntry, rel.array[i]? = some e ∧ e.Keeps e') : SendWindowOk n room rel' := by
  have hactive : ∀ i e', rel'.ActiveAt i e' → ∃ e, rel.ActiveAt i e ∧ e'.packetId = e.packetId := by
    intro i e' hi
    obtain ⟨e, he, hid, -, hact⟩ := hslot i e' hi.1
    exact ⟨e, ⟨he, hact hi.2⟩, hid⟩
  constructor
  · exact hsize.trans h.size
  · rw [hoff]
    exact h.headroom
  · intro i e' hi
    obtain ⟨e, he, -, hbuf, -⟩ := hslot i e' hi
    rw [hbuf, hoff]
    exact h.room i e he
  · intro i e' hi
    obtain ⟨e, he, hid⟩ := hactive i e' hi
    unfold Reliable.age
    rw [hid, hnext]
    exact h.window i e he
  · intro i j e' f' hi hj heq
    obtain ⟨e, he, hid⟩ := hactive i e' hi
    obtain ⟨f, hf, hid'⟩ := hactive j f' hj
    exact h.distinct i j e f he hf (hid.symm.trans (heq.trans hid'))

theorem SendWindowOk.purge (ack : ReliableAck) : SendWindowOk n room (reliableSendPurge rel ack) :=
  h.kept (reliableSendPurge_size rel ack) rfl rfl fun _ _ hi => reliableSendPurge_slot hi

/-! ## Runs of the send side -/

/-- What happens to the send array: a packet is queued, or acknowledgements come in. -/
inductive SendEvent
  | queue (opcode : Nat) (payload : Bytes)
  | purge (ack : ReliableAck)

/-- A step gives what was put into a slot, `none` if no slot was given out. -/
def sendStep (rel : Reliable) : SendEvent → Option (Reliable × Option Bytes)
  | .queue opcode payload => queueOutgoing rel opcode payload
  | .purge ack => some (reliableSendPurge rel ack, none)

theorem SendWindowOk.full (hn : 0 < n ∧ n < 2 ^ 31) (hfull : ¬ rel.span < n) :
    reliableGetBufOutputSequenced rel = some none := by
  rw [reliableGetBufOutputSequenced, h.inRange hn, decide_eq_false hfull, if_neg Bool.false_ne_true]

theorem SendWindowOk.step (hn : 0 < n ∧ n < 2 ^ 31) (event : SendEvent) :
    ∃ rel' handed, sendStep rel event = some (rel', handed) ∧ SendWindowOk n room rel' := by
  cases event with
  | purge ack => exact ⟨_, none, rfl, h.purge ack⟩
  | queue opcode payload =>
    by_cases hlt : rel.span < n
    · obtain ⟨rel', x, i, old, e, hq, hqueued, -⟩ := h.queued hn hlt opcode payload
      exact ⟨rel', some x, hq, hqueued.windowOk h hn.2 hlt⟩
    · refine ⟨rel, none, ?_, h⟩
      show queueOutgoing rel opcode payload = _
      unfold queueOutgoing
      rw [h.full hn hlt]

end

theorem SendWindowOk.queue_all (hn : 0 < n ∧ n < 2 ^ 31) (packets : List (Nat × Bytes)) :
    ∀ rel, SendWindowOk n room rel → rel.span + packets.length ≤ n →
      ∃ rel' handed, run sendStep rel (packets.map fun p => .queue p.1 p.2) = some (rel', handed) ∧
        (∀ x ∈ handed, x.isSome) ∧ SendWindowOk n room rel' ∧
        rel'.span = rel.span + packets.length := by
  induction packets with
  | nil => exact fun rel h _ => ⟨rel, [], rfl, fun x hx => absurd hx not_mem_nil, h, rfl⟩
  | cons p packets ih =>
    intro rel h hle
    rw [length_cons] at hle
    obtain ⟨rel1, x, i, old, e, hq, hqueued, -⟩ := h.queued hn (by omega) p.1 p.2
    have hspan := hqueued.span h hn.2 (by omega)
    obtain ⟨rel', handed, hrun, hall, hok, hspan'⟩ :=
      ih rel1 (hqueued.windowOk h hn.2 (by omega)) (by omega)
    refine ⟨rel', some x :: handed, run_cons hq hrun, ?_, hok, ?_⟩
    · intro y hy
      rcases mem_cons.mp hy with rfl | hy
      · rfl
      · exact hall y hy
    · rw [hspan', hspan, length_cons]
      omega

theorem sendWindowOk_reliableInit {bufSize offset arraySize : Nat} {hold : Bool}
    (h : reliableInit bufSize offset arraySize hold = some rel) (hoff : 4 ≤ offset) :
    SendWindowOk arraySize (bufSize - offset) rel ∧ 0 < arraySize ∧ arraySize < 2 ^ 31 := by
  obtain ⟨buf, rfl, hcap, hroom, hpos, hmax⟩ := reliableInit_eq_some h
  refine ⟨?_, hpos, Nat.lt_of_le_of_lt hmax (by decide)⟩
  constructor
  · exact length_replicate
  · exact hoff
  · intro i e hi
    rw [(cleared_slot hi).2, hcap]
    show offset + (bufSize - offset) ≤ bufSize
    omega
  · intro i e hie
    exact absurd hie (not_activeAt_cleared buf offset arraySize hold i e)
  · intro i j e f hie
    exact absurd hie (not_activeAt_cleared buf offset arraySize hold i e)

theorem sendWindowOk_run {bufSize offset arraySize : Nat} {hold : Bool} {rel0 : Reliable}
    (hinit : reliableInit bufSize offset arraySize hold = some rel0) (hoff : 4 ≤ offset)
    {events : List SendEvent} {handed : List (Option Bytes)}
    (hrun : run sendStep rel0 events = some (rel, handed)) :
    SendWindowOk arraySize (bufSize - offset) rel ∧ 0 < arraySize ∧ arraySize < 2 ^ 31 := by
  obtain ⟨hstart, hn⟩ := sendWindowOk_reliableInit hinit hoff
  refine ⟨run_invariant (I := fun rel => SendWindowOk arraySize (bufSize - offset) rel)
    (G := fun _ _ => True) ?_ hstart (runGuard_true rel0 events) hrun, hn⟩
  intro rel event rel' o h _ hstep
  obtain ⟨rel1, o1, hstep1, hok⟩ := h.step hn event
  rw [hstep] at hstep1
  cases hstep1
  exact hok

/-- **The send window.** After any queueing and any acknowledgements, the number that
is reported is the number of packets that can still be queued. -/
theorem send_window_available_exact (bufSize offset arraySize : Nat) (hold : Bool)
    (rel₀ : Reliable) (hinit : reliableInit bufSize offset arraySize hold = some rel₀)
    (hoff : 4 ≤ offset) (events : List SendEvent) :
    ∃ rel handed, run sendStep rel₀ events = some (rel, handed) ∧
      ∃ k : Nat, reliableGetNumOutputSequencedAvailable rel = k ∧
        ∀ packets : List (Nat × Bytes), packets.length = k →
          ∃ rel' handed',
            run sendStep rel (packets.map fun p => .queue p.1 p.2) = some (rel', handed') ∧
            (∀ x ∈ handed', x.isSome) ∧ reliableGetBufOutputSequenced rel' = some none := by
  obtain ⟨hstart, hn⟩ := sendWindowOk_reliableInit hinit hoff
  obtain ⟨rel, handed, hrun, hok⟩ := run_isSome
    (I := fun rel => SendWindowOk arraySize (bufSize - offset) rel) (G := fun _ _ => True)
    (fun rel event h _ => h.step hn event) hstart (runGuard_true rel₀ events)
  obtain ⟨hspan, havail⟩ := hok.available hn.2
  refine ⟨rel, handed, hrun, arraySize - rel.span, havail, ?_⟩
  intro packets hlen
  obtain ⟨rel', handed', hrun', hall, hok', hspan'⟩ :=
    SendWindowOk.queue_all hn packets rel hok (by omega)
  exact ⟨rel', handed', hrun', hall, hok'.full hn (by omega)⟩

theorem send_window_available_exact_two :
    ∃ rel handed, run sendStep (Reliable.cleared ⟨64, 16, [], by decide⟩ 16 2 false)
        [.queue 4 [1], .queue 4 [2], .purge ⟨[0], by decide⟩] = some (rel, handed) ∧
      ∃ k : Nat, reliableGetNumOutputSequencedAvailable rel = k ∧
        ∀ packets : List (Nat × Bytes), packets.length = k →
          ∃ rel' handed',
            run sendStep rel (packets.map fun p => .queue p.1 p.2) = some (rel', handed') ∧
            (∀ x ∈ handed', x.isSome) ∧ reliableGetBufOutputSequenced rel' = some none :=
  send_window_available_exact 64 16 2 false _ rfl (by decide) _

end OpenVpn
