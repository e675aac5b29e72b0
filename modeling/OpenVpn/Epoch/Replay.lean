import OpenVpn.Epoch.Steps

/-!
# No replay across epoch changes

A data packet in epoch format is identified by its epoch and its id. The
current key and the retiring key each have a replay window of their own, and a
move to a new key hands the current window over to the retiring key.

* **One window** — `MemoryOk`: the window rejects every id of a set; kept by
  every arrival, which adds the id it accepts (`MemoryOk.receive`);
* **all epochs** — `ReplayOk`: the two windows together reject every accepted
  pair that could still be looked up; epochs below the retiring one find no key.
-/

namespace OpenVpn

open Base Option

/-! ## One window -/

/-- The window `p` rejects every id of `S`. Data packets carry no time stamp,
so the time base stays `0`. -/
structure MemoryOk (width : Nat) (p : PacketIdRec) (S : Nat → Prop) : Prop where
  width_eq : p.seqBacktrack = width
  time : p.time = 0
  positive : ∀ i, S i → 0 < i ∧ i ≤ p.id
  mode : Sequential p ∨ ∃ l, BacktrackMode p l ∧
    l.xSize = min p.id p.seqBacktrack ∧
    ∀ i, S i → l.items[p.id - i]? ≠ some SEQ_UNSEEN

variable {pin : PacketIdNet}

section Memory

variable {width : Nat} {p : PacketIdRec} {S : Nat → Prop}

theorem MemoryOk.mono {S' : Nat → Prop} (h : MemoryOk width p S) (hS : ∀ i, S' i → S i) :
    MemoryOk width p S' :=
  ⟨h.width_eq, h.time, fun i hi => h.positive i (hS i hi),
    h.mode.imp_right fun ⟨l, hm, hsize, hcells⟩ =>
      ⟨l, hm, hsize, fun i hi => hcells i (hS i hi)⟩⟩

theorem memoryOk_fresh {timeBacktrack : Int} (hf : FreshRecv p width timeBacktrack)
    (he : EmptyWindow p) : MemoryOk width p (fun _ => False) := by
  refine ⟨hf.seqBacktrack, hf.time, fun _ h => h.elim, ?_⟩
  rcases he with ⟨l, hm, hsize⟩ | hs
  · exact .inr ⟨l, hm, by rw [hsize, hf.id, Nat.zero_min], fun _ h => h.elim⟩
  · exact .inl hs

variable {l : CircList Int}

theorem addedCell_ne_unseen {now : Int} {i : Nat} (hm : BacktrackMode p l)
    (hsize : l.xSize = min p.id p.seqBacktrack) (htime : pin.time = p.time)
    (hnow : SEQ_EXPIRED < now) (h0 : 0 < i)
    (hi : i = pin.id ∨ i ≤ p.id ∧ l.items[p.id - i]? ≠ some SEQ_UNSEEN)
    (hwin : addedId p l pin - i < p.seqBacktrack) :
    addedCell now p l pin (addedId p l pin - i) ≠ SEQ_UNSEEN := by
  unfold addedCell
  by_cases hself : addedId p l pin - i = addedId p l pin - pin.id
  · rw [if_pos ⟨hself, hnow⟩]
    unfold SEQ_EXPIRED at hnow
    unfold SEQ_UNSEEN
    omega
  rw [if_neg (fun h => hself h.1)]
  obtain ⟨hle, hcell⟩ := hi.resolve_left fun h => hself (by rw [h])
  have hpos := hm.seqBacktrack_pos
  unfold addedId at hwin hself ⊢
  cases hs : startsNewList p l pin with
  | true =>
    -- a new list starts above everything remembered
    rw [hs, if_pos rfl] at hwin
    have habove := startsNewList_eq_true hpos hsize (by rw [htime]; exact Int.lt_irrefl _) hs
    clear hsize
    omega
  | false =>
    rw [hs] at hwin hself
    simp only [Bool.false_eq_true, if_false, false_or] at hwin hself ⊢
    rw [if_neg (by omega), show max p.id pin.id - i - (pin.id - p.id) = p.id - i by omega,
      List.getD_eq_getElem?_getD]
    intro heq
    apply hcell
    rw [List.getElem?_eq_getElem (by rw [l.items_length]; omega)] at heq ⊢
    simpa using heq

/-- What an arrival with verdict `ok` leaves the window with: a rejection keeps
what is remembered; an accepted id was not remembered, and is from then on. -/
def Learns (width : Nat) (S : Nat → Prop) (id : Nat) (p' : PacketIdRec) (ok : Bool) : Prop :=
  (ok = true → ¬ S id) ∧ MemoryOk width p' (fun i => S i ∨ ok = true ∧ i = id)

variable {p' : PacketIdRec}

theorem learns_reject {id : Nat} (h : MemoryOk width p' S) : Learns width S id p' false :=
  ⟨fun h => absurd h Bool.false_ne_true,
    h.mono fun _ hi => hi.resolve_right fun h => absurd h.1 Bool.false_ne_true⟩

section

variable (h : MemoryOk width p S)

include h

theorem MemoryOk.receive_sequential (hs : Sequential p) {a : Arrival Int} (htime : a.time = 0)
    {ok : Bool} (hstep : packetIdReceive p a = some (p', ok)) : Learns width S a.id p' ok := by
  obtain ⟨p1, hs1, ht1, hid1, ⟨hrej, -⟩ | ⟨hok, hf⟩⟩ := hs.receive_cases a
  · cases hrej.symm.trans hstep
    refine learns_reject ⟨?_, ht1.trans h.time, ?_, .inl hs1⟩
    · rw [hs1.seqBacktrack, ← h.width_eq, hs.seqBacktrack]
    · rw [hid1]
      exact h.positive
  · cases hok.symm.trans hstep
    -- an accepted id is above all remembered ones
    have hnext : p.id < a.id := by
      obtain ⟨h0, ⟨-, hid⟩ | ⟨hlt, -⟩⟩ := hf
      · simp only [pinOf] at h0 hid
        omega
      · simp only [pinOf, h.time, htime] at hlt
        omega
    refine ⟨fun _ hS => ?_, ?_, htime, ?_, .inl ⟨hs1.initialized, hs1.seqBacktrack,
      hs1.timeBacktrack, hs1.list⟩⟩
    · have := (h.positive _ hS).2
      omega
    · rw [← h.width_eq, hs.seqBacktrack]
      exact hs1.seqBacktrack
    · rintro i (hi | ⟨-, rfl⟩)
      · have := h.positive i hi
        simp only
        omega
      · simp only
        omega

theorem MemoryOk.settles {l1 : CircList Int} {p1 : PacketIdRec} (hset : Settles p l p1 l1)
    (hsize : l.xSize = min p.id p.seqBacktrack)
    (hcells : ∀ i, S i → l.items[p.id - i]? ≠ some SEQ_UNSEEN) :
    MemoryOk width p1 S ∧ l1.xSize = min p1.id p1.seqBacktrack ∧
      ∀ i, S i → l1.items[p1.id - i]? ≠ some SEQ_UNSEEN := by
  have hcells1 : ∀ i, S i → l1.items[p1.id - i]? ≠ some SEQ_UNSEEN := fun i hi hu =>
    hcells i hi (hset.unseen _ (by rw [← hset.id]; exact hu))
  have hsize1 : l1.xSize = min p1.id p1.seqBacktrack := by
    rw [hset.size, hset.id, hset.seqBacktrack]
    exact hsize
  refine ⟨⟨hset.seqBacktrack.trans h.width_eq, hset.time.trans h.time, ?_,
    .inr ⟨l1, hset.mode, hsize1, hcells1⟩⟩, hsize1, hcells1⟩
  rw [hset.id]
  exact h.positive

theorem MemoryOk.accepted {l' : CircList Int} {now : Int} (hm : BacktrackMode p l)
    (hsize : l.xSize = min p.id p.seqBacktrack)
    (hcells : ∀ i, S i → l.items[p.id - i]? ≠ some SEQ_UNSEEN) (htime : pin.time = 0)
    (hnow : SEQ_EXPIRED < now) (hacc : Accepted now p l pin p' l') :
    Learns width S pin.id p' true := by
  have htime' : pin.time = p.time := htime.trans h.time.symm
  have hle := hacc.admits.le_addedId htime'
  have hself : pin.id ≤ addedId p l pin := by
    unfold addedId
    split <;> omega
  have hall : ∀ i, (S i ∨ true = true ∧ i = pin.id) → 0 < i ∧ i ≤ p'.id := by
    rw [hacc.id]
    rintro i (hi | ⟨-, rfl⟩)
    · exact ⟨(h.positive i hi).1, (h.positive i hi).2.trans hle⟩
    · exact ⟨Nat.pos_of_ne_zero hacc.admits.1, hself⟩
  refine ⟨fun _ hS => ?_, hacc.seqBacktrack.trans h.width_eq, hacc.time.trans htime, hall,
    .inr ⟨l', hacc.mode, hacc.size, fun i hi hcell => ?_⟩⟩
  · obtain ⟨-, hlt | ⟨-, hgt | hcell⟩⟩ := hacc.admits
    · omega
    · have := (h.positive _ hS).2
      omega
    · exact hcells _ hS hcell
  · have hlen := (List.getElem?_eq_some_iff.mp hcell).1
    rw [l'.items_length] at hlen
    rw [hacc.cells _ hlen, hacc.id, some_inj] at hcell
    rw [hacc.size, hacc.id, hacc.seqBacktrack] at hlen
    refine addedCell_ne_unseen hm hsize htime' hnow (hall i hi).1 ?_ (by omega) hcell
    rcases hi with hi | ⟨-, rfl⟩
    · exact .inr ⟨(h.positive i hi).2, hcells i hi⟩
    · exact .inl rfl

/-- **One arrival.** -/
theorem MemoryOk.receive {a : Arrival Int} (htime : a.time = 0)
    (hclk : SEQ_EXPIRED < a.now ∨ width = 0) {ok : Bool}
    (hstep : packetIdReceive p a = some (p', ok)) : Learns width S a.id p' ok := by
  rcases h.mode with hs | ⟨l, hm, hsize, hcells⟩
  · exact h.receive_sequential hs htime hstep
  · obtain ⟨p1, l1, hset, hcase⟩ := packetIdReceive_cases hm a
    obtain ⟨h1, hsize1, hcells1⟩ := h.settles hset hsize hcells
    rcases hcase with ⟨hrej, -⟩ | ⟨p2, l2, hok, hacc⟩
    · cases hrej.symm.trans hstep
      exact learns_reject h1
    · cases hok.symm.trans hstep
      have hnow : SEQ_EXPIRED < a.now := hclk.resolve_right fun h0 => by
        have := hm.seqBacktrack_pos
        rw [h.width_eq] at this
        omega
      exact h1.accepted hset.mode hsize1 hcells1 htime hnow hacc

end

end Memory

/-! ## All epochs -/

/-- A received packet with the clock at its arrival. -/
structure Received where
  now : Int
  pkt : DataPacket
deriving DecidableEq, Repr

/-- The epoch and the id of a received packet. -/
def Received.epochId (r : Received) : Nat × Nat :=
  ((packetIdReadEpoch r.pkt.wireId).1, (packetIdReadEpoch r.pkt.wireId).2.id)

def receiveStep (hmacSha256 : Bytes → Bytes → Bytes) (co : CryptoOptions) (r : Received) :
    Option (CryptoOptions × Bool) :=
  openvpnDecryptAead hmacSha256 r.now co r.pkt

/-- The receive state rejects every pair of `S`: each window remembers the pairs
of its key's epoch, and all pairs are of epochs up to the current one. -/
structure ReplayOk (width : Nat) (co : CryptoOptions) (S : Nat × Nat → Prop) : Prop where
  current : MemoryOk width co.packetId.recv (fun i => S (co.decrypt.epoch, i))
  retiring : co.epochRetiringDataReceiveKey.epoch ≠ 0 →
    co.epochRetiringDataReceiveKey.epoch < co.decrypt.epoch ∧
    MemoryOk width co.epochRetiringKeyPidRecv
      (fun i => S (co.epochRetiringDataReceiveKey.epoch, i))
  past : ∀ k, S k → k.1 ≤ co.decrypt.epoch

section Epochs

variable {hmacSha256 : Bytes → Bytes → Bytes} {width : Nat} {co co' : CryptoOptions}
  {S : Nat × Nat → Prop}

section

variable (h : ReplayOk width co S)

include h

theorem ReplayOk.mono {S' : Nat × Nat → Prop} (hS : ∀ k, S' k → S k) : ReplayOk width co S' :=
  ⟨h.current.mono fun _ hi => hS _ hi,
    fun hr => ⟨(h.retiring hr).1, (h.retiring hr).2.mono fun _ hi => hS _ hi⟩,
    fun k hk => h.past k (hS k hk)⟩

theorem ReplayOk.countFailure (slot : KeySlot) : ReplayOk width (co.countFailure slot) S := by
  cases slot with
  | current | retiring | future i => exact ⟨h.current, h.retiring, h.past⟩

variable {ok : Bool}

omit h in
theorem MemoryOk.check {p p' : PacketIdRec} {S : Nat → Prop} (h : MemoryOk width p S) {now : Int}
    (htime : pin.time = 0) (hclk : SEQ_EXPIRED < now ∨ width = 0)
    (hstep : packetIdCheck now p pin = some (p', ok)) : Learns width S pin.id p' ok := by
  obtain ⟨a, rfl, rfl, heq⟩ := packetIdCheck_eq now p pin
  exact h.receive htime hclk (heq ▸ hstep)

/-- **A move to a new receive key.** The current window retires with its key;
the new epoch has no pair to remember yet. -/
theorem ReplayOk.replace {epoch : Nat} (hlt : co.decrypt.epoch < epoch)
    (hrep : epochReplaceUpdateRecvKey hmacSha256 co epoch = some co') :
    ReplayOk width co' S ∧ co'.decrypt.epoch = epoch := by
  obtain ⟨newCtx, co1, fresh, future, recv, hep, hpull, hmove, rfl⟩ :=
    epochReplaceUpdateRecvKey_cases hrep
  have hinit : packetIdInitRecv .cleared co.packetId.recv.seqBacktrack
      co.packetId.recv.timeBacktrack = some fresh := by
    unfold packetIdMoveRecv at hmove
    split at hmove
    · cases hmove
    · rename_i hinit
      cases hmove
      exact hinit
  obtain ⟨hf, he, -⟩ := packetIdInitRecv_fresh hinit
  rw [Int.toNat_natCast, h.current.width_eq] at hf
  refine ⟨⟨?_, fun _ => ⟨?_, h.current⟩, fun k hk => ?_⟩, hep⟩
  · refine (memoryOk_fresh hf he).mono fun i hi => ?_
    have := h.past _ hi
    simp only [hep] at this
    omega
  · simpa only [hep] using hlt
  · have := h.past k hk
    simp only [hep]
    omega

/-- An accepted pair is new to the window of its key. -/
theorem ReplayOk.checkReplay {now : Int} {epoch : Nat} {slot : KeySlot} (h0 : epoch ≠ 0)
    (htime : pin.time = 0) (hclk : SEQ_EXPIRED < now ∨ width = 0)
    (hslot : epochLookupDecryptKey co epoch = some slot)
    (hchk : cryptoCheckReplay hmacSha256 now co pin epoch = some (co', ok)) :
    (ok = true → ¬ S (epoch, pin.id)) ∧
      ReplayOk width co' (fun k => S k ∨ ok = true ∧ k = (epoch, pin.id)) := by
  -- the check in the window of the current key, from any state of that epoch
  have hcurrent : ∀ co1 : CryptoOptions, ReplayOk width co1 S → co1.decrypt.epoch = epoch →
      ∀ p, packetIdCheck now co1.packetId.recv pin = some (p, ok) →
      (ok = true → ¬ S (epoch, pin.id)) ∧
        ReplayOk width (co1.withRecv p) (fun k => S k ∨ ok = true ∧ k = (epoch, pin.id)) := by
    rintro co1 h1 rfl p hp
    obtain ⟨hnew, hmem⟩ := h1.current.check htime hclk hp
    refine ⟨hnew, hmem.mono ?_, fun hr => ⟨(h1.retiring hr).1, (h1.retiring hr).2.mono ?_⟩, ?_⟩
    · rintro i (hi | ⟨hok, heq⟩)
      · exact .inl hi
      · cases heq
        exact .inr ⟨hok, rfl⟩
    · rintro i (hi | ⟨-, heq⟩)
      · exact hi
      · exact absurd (congrArg Prod.fst heq) (Nat.ne_of_lt (h1.retiring hr).1)
    · rintro k (hk | ⟨-, rfl⟩)
      · exact h1.past k hk
      · exact Nat.le_refl _
  rcases cryptoCheckReplay_cases h0 hchk with ⟨hcur, p, hp, rfl⟩ |
    ⟨hcur, hret, p, hp, rfl⟩ | ⟨hcur, hret, co1, p, hrep, hp, rfl⟩
  · exact hcurrent co h hcur p hp
  · -- the window of the retiring key
    subst hret
    obtain ⟨hlt, hret⟩ := h.retiring h0
    obtain ⟨hnew, hmem⟩ := hret.check htime hclk hp
    refine ⟨hnew, h.current.mono ?_, fun _ => ⟨hlt, hmem.mono ?_⟩, ?_⟩
    · rintro i (hi | ⟨-, heq⟩)
      · exact hi
      · exact absurd (congrArg Prod.fst heq) hcur
    · rintro i (hi | ⟨hok, heq⟩)
      · exact .inl hi
      · cases heq
        exact .inr ⟨hok, rfl⟩
    · rintro k (hk | ⟨-, rfl⟩)
      · exact h.past k hk
      · exact Nat.le_of_lt hlt
  · -- a later epoch: move first
    have hlt : co.decrypt.epoch < epoch := by
      rcases epochLookupDecryptKey_epoch hslot with h | h | h
      · exact absurd h hcur
      · exact absurd h hret
      · exact h.1
    obtain ⟨h1, hep⟩ := h.replace hlt hrep
    exact hcurrent co1 h1 hep p hp

/-- **One received packet.** An accepted pair was not accepted before, and is
remembered from then on. -/
theorem ReplayOk.receive {r : Received} (hclk : SEQ_EXPIRED < r.now ∨ width = 0)
    (hstep : receiveStep hmacSha256 co r = some (co', ok)) :
    (ok = true → ¬ S r.epochId) ∧
      ReplayOk width co' (fun k => S k ∨ ok = true ∧ k = r.epochId) := by
  rcases openvpnDecryptAead_cases hstep with ⟨rfl, hdrop⟩ | ⟨h0, slot, co1, hslot, hchk, rfl⟩
  · refine ⟨fun h => absurd h Bool.false_ne_true, ReplayOk.mono (S := S) ?_ fun k hk =>
      hk.resolve_right fun h => absurd h.1 Bool.false_ne_true⟩
    rcases hdrop with rfl | ⟨slot, rfl⟩
    · exact h
    · exact h.countFailure slot
  · obtain ⟨hnew, h1⟩ := h.checkReplay h0 rfl hclk hslot hchk
    refine ⟨hnew, ?_⟩
    cases ok with
    | false => exact h1
    | true => exact ⟨h1.current, h1.retiring, h1.past⟩

end

end Epochs

theorem replayOk_init {hmacSha256 : Bytes → Bytes → Bytes} {kt : KeyType}
    {e1Send e1Recv : EpochKey} {count : Nat} {seqBacktrack timeBacktrack : Int}
    {pid : PacketId} {co : CryptoOptions}
    (hpid : packetIdInit seqBacktrack timeBacktrack = some pid)
    (hinit : epochInitKeyCtx hmacSha256 (.fresh pid) kt e1Send e1Recv count = some co) :
    ReplayOk seqBacktrack.toNat co (fun _ => False) := by
  obtain ⟨hf, he, -⟩ := packetIdInitRecv_fresh (packetIdInit_recv hpid)
  obtain ⟨-, -, future, recv, rfl⟩ := epochInitKeyCtx_cases hinit
  exact ⟨memoryOk_fresh hf he, fun h => absurd rfl h, fun _ h => h.elim⟩

/-- **No replay across epoch changes.** Whatever packets arrive, in whatever
order and under whatever clock above the two reserved values (in sequential mode
under any clock), no pair of epoch and id is accepted twice. -/
theorem epoch_packets_accepted_once (hmacSha256 : Bytes → Bytes → Bytes) (kt : KeyType)
    (e1Send e1Recv : EpochKey) (count : Nat) (seqBacktrack timeBacktrack : Int)
    (pid : PacketId) (co co' : CryptoOptions) (rs : List Received) (verdicts : List Bool)
    (hpid : packetIdInit seqBacktrack timeBacktrack = some pid)
    (hinit : epochInitKeyCtx hmacSha256 (.fresh pid) kt e1Send e1Recv count = some co)
    (hclock : ∀ r ∈ rs, SEQ_EXPIRED < r.now ∨ seqBacktrack = 0)
    (hrun : run (receiveStep hmacSha256) co rs = some (co', verdicts)) :
    ((accepted rs verdicts).map Received.epochId).Nodup := by
  refine (run_accepted_nodup (I := ReplayOk seqBacktrack.toNat)
    (G := fun r => SEQ_EXPIRED < r.now ∨ seqBacktrack.toNat = 0)
    (fun co S r co' h hG hstep => ?_) (fun co S r co' h hG hstep => ?_)
    (replayOk_init hpid hinit) (fun r hr => (hclock r hr).imp_right (by rintro rfl; rfl))
    hrun).1
  · exact (h.receive hG hstep).2.mono fun k hk => .inl hk
  · obtain ⟨hnew, h'⟩ := h.receive hG hstep
    exact ⟨hnew rfl, h'.mono fun k hk => hk.imp_right fun hk => ⟨rfl, hk⟩⟩

/-- The verdicts on `rs`, from a fresh start with constant key material. -/
def verdictsFromStart (seqBacktrack timeBacktrack : Int) (count : Nat) (rs : List Received) :
    Option (List Bool) := do
  let pid ← packetIdInit seqBacktrack timeBacktrack
  let co ← epochInitKeyCtx (fun _ _ => []) (.fresh pid) ⟨32, 12, false⟩ ⟨[], 1⟩ ⟨[], 1⟩ count
  let (_, verdicts) ← run (receiveStep fun _ _ => []) co rs
  some verdicts

/-- Ids `1` and `2` of epoch `1`, a move to epoch `2`, replays of both epochs
under the retiring and the new key, and a move to epoch `3`. -/
def packetsAcrossEpochs : List Received :=
  [⟨100, ⟨0x1000000000002, true, 0⟩⟩, ⟨100, ⟨0x1000000000001, true, 0⟩⟩,
    ⟨101, ⟨0x2000000000001, true, 0⟩⟩, ⟨102, ⟨0x1000000000002, true, 0⟩⟩,
    ⟨102, ⟨0x2000000000001, true, 0⟩⟩, ⟨103, ⟨0x3000000000001, true, 0⟩⟩,
    ⟨104, ⟨0x1000000000001, true, 0⟩⟩]

theorem epoch_packets_accepted_once_three_epochs :
    verdictsFromStart 4 15 3 packetsAcrossEpochs =
      some [true, true, true, false, false, true, false] ∧
    ((accepted packetsAcrossEpochs [true, true, true, false, false, true, false]).map
      Received.epochId).Nodup := by
  refine (and_iff_left_of_imp fun h => ?_).mpr (by decide +kernel)
  simp only [verdictsFromStart, bind_eq_bind, bind_eq_some_iff] at h
  obtain ⟨pid, hpid, co, hinit, ⟨co', verdicts⟩, hrun, heq⟩ := h
  cases heq
  exact epoch_packets_accepted_once _ _ _ _ _ 4 15 pid co co' packetsAcrossEpochs _ hpid hinit
    (by decide) hrun

/-- At a clock reading of `1` an accepted id is not marked, and the same packet
is accepted again. -/
theorem epoch_packet_accepted_twice_at_clock_one :
    verdictsFromStart 4 15 3
      [⟨1, ⟨0x1000000000001, true, 0⟩⟩, ⟨1, ⟨0x1000000000001, true, 0⟩⟩] = some [true, true] := by
  decide +kernel

end OpenVpn
