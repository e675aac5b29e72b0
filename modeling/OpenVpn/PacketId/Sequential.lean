import Mathlib.Data.List.Chain
import OpenVpn.PacketId.Window

/-!
# Packet ids in sequential mode

Over TCP packets arrive in order, so the receiver wants each id to follow the one before:
the next id under the same time, or the first one under a later time. The sender starts a
new time when its 32-bit counter is used up.

* `writeStep` — one `packet_id_write`, with the pair a receiver reads from what it wrote.
* `LongSendOk.update` — an update of the send state gives the next pair.
* `LongSendOk.accepted` — a receiver accepts the pairs of a run in order.
* `Sequential.accepted_chain` — what a receiver accepts of any sequence.
* `sequential_mode` — both, and the short form.
-/

namespace OpenVpn

open Base List Option Nat Int Prod

/-- `a` comes before `b`: by time, then by id. -/
def PacketIdNet.Before (a b : PacketIdNet) : Prop :=
  a.time < b.time ∨ a.time = b.time ∧ a.id < b.id

/-- `b` follows `a` without a gap. -/
def PacketIdNet.Next (a b : PacketIdNet) : Prop :=
  b.time = a.time ∧ b.id = a.id + 1 ∨ a.time < b.time ∧ b.id = 1

variable {a b : PacketIdNet}

theorem PacketIdNet.Before.trans {c : PacketIdNet} (h : a.Before b) (h' : b.Before c) :
    a.Before c := by
  unfold PacketIdNet.Before at *
  omega

theorem PacketIdNet.Before.ne (h : a.Before b) : a ≠ b := by
  intro heq
  subst heq
  unfold PacketIdNet.Before at h
  omega

/-! ## The sender -/

/-- A call of `packet_id_write`. -/
structure WriteCall where
  now : Int
  buf : Buffer
  prepend : Bool

/-- The long form fits. -/
def WriteCall.HasRoom (w : WriteCall) : Prop :=
  if w.prepend then 8 ≤ w.buf.offset
  else w.buf.offset + w.buf.contents.length + 8 ≤ w.buf.capacity

instance (w : WriteCall) : Decidable w.HasRoom := by
  unfold WriteCall.HasRoom
  infer_instance

/-- A call, and the pair a receiver reads from the bytes it wrote. -/
def writeStep (longForm : Bool) (p : PacketIdSend) (w : WriteCall) :
    Option (PacketIdSend × Option PacketIdNet) :=
  match packetIdWrite w.now p w.buf longForm w.prepend with
  | (p, none) => some (p, none)
  | (p, some buf) =>
    let bytes := if w.prepend then buf.contents else buf.contents.drop w.buf.contents.length
    some (p, (packetIdRead bytes longForm).map (·.1))

/-- The bytes of an id in one of the forms. -/
def idBytes (longForm : Bool) (p : PacketIdSend) : Bytes :=
  if longForm then wireBytes p else beBytes 4 p.id

/-- The pair a receiver reads in one of the forms. -/
def idPin (longForm : Bool) (p : PacketIdSend) : PacketIdNet :=
  if longForm then wirePin p else ⟨p.id % 0x100000000, 0⟩

theorem packetIdRead_idBytes (longForm : Bool) (p : PacketIdSend) (rest : Bytes) :
    packetIdRead (idBytes longForm p ++ rest) longForm = some (idPin longForm p, rest) := by
  cases longForm with
  | true => exact packetIdRead_wireBytes p rest
  | false =>
    have hid := bufRead_append (beBytes 4 p.id) rest
    rw [beBytes_length] at hid
    simp only [packetIdRead, idBytes, Bool.false_eq_true, if_false, hid, bind_some,
      beNat_beBytes, idPin]
    rfl

variable {now : Int} {p p' : PacketIdSend} {longForm : Bool}

def packetIdSize (longForm : Bool) : Nat := if longForm then 8 else 4

@[simp] theorem length_idBytes (longForm : Bool) (p : PacketIdSend) :
    (idBytes longForm p).length = packetIdSize longForm := by
  cases longForm <;> simp [idBytes, packetIdSize, wireBytes]

variable {buf buf' : Buffer} {prepend : Bool}

theorem packetIdWrite_eq (hupd : packetIdSendUpdate now p longForm = some p') :
    packetIdWrite now p buf longForm prepend = (p', if prepend then
      bufWritePrepend buf (idBytes longForm p') else bufExtend buf (idBytes longForm p')) := by
  have hwr : ∀ buf n, bufWrite buf (beBytes 4 n) = bufExtend buf (beBytes 4 n) :=
    fun buf n => bufWrite_eq_extend buf (by simp [BUF_SIZE_MAX])
  unfold packetIdWrite
  simp only [hupd, hwr]
  cases prepend with
  | true =>
    cases longForm with
    | true => exact congrArg (p', ·) (bufWritePrepend_bind buf _ _)
    | false => rfl
  | false =>
    cases longForm with
    | true => exact congrArg (p', ·) (bufExtend_bind buf _ _)
    | false => exact congrArg (p', ·) (bind_fun_some _)

theorem packetIdWrite_eq_some (h : packetIdWrite now p buf longForm prepend = (p', some buf')) :
    packetIdSendUpdate now p longForm = some p' ∧
      buf'.contents = if prepend then idBytes longForm p' ++ buf.contents
        else buf.contents ++ idBytes longForm p' := by
  cases hupd : packetIdSendUpdate now p longForm with
  | none =>
    unfold packetIdWrite at h
    rw [hupd] at h
    cases h
  | some q =>
    rw [packetIdWrite_eq hupd, mk.injEq] at h
    obtain ⟨rfl, hwr⟩ := h
    refine ⟨rfl, ?_⟩
    cases prepend with
    | true => exact (bufWritePrepend_eq_some hwr).2
    | false => exact bufExtend_eq_some hwr

variable {w : WriteCall} {o : Option PacketIdNet}

/-- **A call**: the update fails and nothing is written, or it succeeds and, if there is
room, its pair is written. -/
theorem writeStep_cases (h : writeStep longForm p w = some (p', o)) :
    (packetIdSendUpdate w.now p longForm = none ∧ p'.id = p.id ∧ (p.time ≠ 0 → p' = p) ∧
        o = none) ∨
      (packetIdSendUpdate w.now p longForm = some p' ∧
        (o = none ∧ (packetIdWrite w.now p w.buf longForm w.prepend).2 = none ∨
          o = some (idPin longForm p'))) := by
  unfold writeStep at h
  split at h
  case h_1 q hwr =>
    cases h
    cases hupd : packetIdSendUpdate w.now p longForm with
    | none =>
      unfold packetIdWrite at hwr
      rw [hupd] at hwr
      cases hwr
      refine .inl ⟨rfl, rfl, fun hne => ?_, rfl⟩
      rw [if_neg hne]
    | some q' =>
      have hq : q' = p' := by
        rw [packetIdWrite_eq hupd] at hwr
        exact congrArg fst hwr
      rw [hq]
      exact .inr ⟨rfl, .inl ⟨rfl, congrArg snd hwr⟩⟩
  case h_2 q buf' hwr =>
    obtain ⟨hupd, hcon⟩ := packetIdWrite_eq_some hwr
    dsimp only at h
    have hread : (packetIdRead (if w.prepend then buf'.contents
        else buf'.contents.drop w.buf.contents.length) longForm).map (·.1) =
          some (idPin longForm q) := by
      cases hprep : w.prepend with
      | true =>
        rw [hprep, if_pos rfl] at hcon
        rw [if_pos rfl, hcon, packetIdRead_idBytes, map_some]
      | false =>
        rw [hprep, if_neg Bool.false_ne_true] at hcon
        have hnil := packetIdRead_idBytes longForm q []
        rw [append_nil] at hnil
        rw [if_neg Bool.false_ne_true, hcon, drop_left, hnil, Option.map_some]
    rw [hread] at h
    cases h
    exact .inr ⟨hupd, .inr rfl⟩

theorem packetIdWrite_isSome (hupd : packetIdSendUpdate now p longForm = some p')
    (hroom : if prepend then packetIdSize longForm ≤ buf.offset
      else buf.offset + buf.contents.length + packetIdSize longForm ≤ buf.capacity) :
    ∃ buf', packetIdWrite now p buf longForm prepend = (p', some buf') ∧
      (prepend = true → buf'.offset = buf.offset - packetIdSize longForm) := by
  rw [packetIdWrite_eq hupd]
  rw [← length_idBytes longForm p'] at hroom ⊢
  cases prepend with
  | true =>
    obtain ⟨buf', hwr, hoff, -⟩ := bufWritePrepend_isSome hroom
    exact ⟨buf', by rw [if_pos rfl, hwr], fun _ => hoff⟩
  | false =>
    rw [if_neg Bool.false_ne_true, Nat.add_assoc] at hroom
    obtain ⟨buf', hwr, -⟩ := bufExtend_isSome hroom
    exact ⟨buf', by rw [if_neg Bool.false_ne_true, hwr],
      fun h => absurd h Bool.false_ne_true⟩

theorem WriteCall.HasRoom.write (h : w.HasRoom)
    (hupd : packetIdSendUpdate w.now p true = some p') :
    (packetIdWrite w.now p w.buf true w.prepend).2 ≠ none := by
  obtain ⟨buf', hwr, -⟩ := packetIdWrite_isSome hupd h
  rw [hwr]
  exact some_ne_none _

/-! ## Runs of the sender -/

/-- A send state that is used with clocks of 32 bits. -/
structure LongSendOk (p : PacketIdSend) : Prop where
  id : p.id ≤ PACKET_ID_MAX
  time : 0 ≤ p.time ∧ p.time < 0x100000000
  unused : p.time = 0 → p.id = 0

/-- The pair of a send state. -/
def PacketIdSend.pin (p : PacketIdSend) : PacketIdNet := ⟨p.id, p.time⟩

theorem LongSendOk.wirePin (h : LongSendOk p) : wirePin p = p.pin := by
  have hid : p.id < 0x100000000 := lt_succ_of_le h.id
  have htime := h.time
  unfold OpenVpn.wirePin PacketIdSend.pin netTime
  rw [mod_eq_of_lt hid, emod_eq_of_lt htime.1 htime.2, toNat_of_nonneg htime.1]

theorem packetIdSendUpdate_eq_some (h : packetIdSendUpdate now p longForm = some p') :
    (p.id ≠ PACKET_ID_MAX ∧ p'.id = p.id + 1 ∧ p'.time = if p.time = 0 then now else p.time) ∨
      (longForm = true ∧ (if p.time = 0 then now else p.time) < now ∧ p'.id = 1 ∧
        p'.time = now) := by
  have hid : (if p.time = 0 then { p with time := now } else p).id = p.id := by split <;> rfl
  have htime : (if p.time = 0 then { p with time := now } else p).time =
      if p.time = 0 then now else p.time := by split <;> rfl
  unfold packetIdSendUpdate at h
  dsimp only at h
  rw [hid, htime] at h
  by_cases hmax : p.id = PACKET_ID_MAX
  · rw [if_pos hmax, ite_none_left_eq_some] at h
    obtain ⟨hroll, hp⟩ := h
    cases hp
    rw [Bool.or_eq_true, not_or, Bool.not_eq_true', Bool.not_eq_false, decide_eq_true_eq] at hroll
    exact .inr ⟨hroll.1, not_le.mp hroll.2, rfl, rfl⟩
  · rw [if_neg hmax] at h
    cases h
    exact .inl ⟨hmax, rfl, rfl⟩

theorem packetIdSendUpdate_eq_none (h : packetIdSendUpdate now p longForm = none) :
    p.id = PACKET_ID_MAX := by
  by_contra hmax
  have hid : (if p.time = 0 then { p with time := now } else p).id = p.id := by split <;> rfl
  unfold packetIdSendUpdate at h
  dsimp only at h
  rw [hid, if_neg hmax] at h
  cases h

theorem LongSendOk.update (h : LongSendOk p) (hnow : 0 < now ∧ now < 0x100000000)
    (hupd : packetIdSendUpdate now p true = some p') : LongSendOk p' ∧ p.pin.Next p'.pin := by
  have hid := h.id
  have htime := h.time
  have hunused := h.unused
  have hmax : PACKET_ID_MAX = 4294967295 := rfl
  suffices hall : p'.id ≤ PACKET_ID_MAX ∧ (0 < p'.time ∧ p'.time < 0x100000000) ∧
      (p'.time = p.time ∧ p'.id = p.id + 1 ∨ p.time < p'.time ∧ p'.id = 1) from
    ⟨⟨hall.1, ⟨le_of_lt hall.2.1.1, hall.2.1.2⟩, fun h0 => absurd hall.2.1.1 (by omega)⟩,
      hall.2.2⟩
  by_cases hzero : p.time = 0
  · rcases packetIdSendUpdate_eq_some hupd with ⟨hne, hid', htime'⟩ | ⟨-, hlt, -, -⟩
    · rw [if_pos hzero] at htime'
      have h0 := hunused hzero
      omega
    · rw [if_pos hzero] at hlt
      omega
  · rcases packetIdSendUpdate_eq_some hupd with ⟨hne, hid', htime'⟩ | ⟨-, hlt, hid', htime'⟩
    · rw [if_neg hzero] at htime'
      omega
    · rw [if_neg hzero] at hlt
      omega

theorem LongSendOk.step (h : LongSendOk p) (hnow : 0 < w.now ∧ w.now < 0x100000000)
    (hstep : writeStep true p w = some (p', o)) :
    LongSendOk p' ∧ (p' = p ∧ o = none ∨
      p.pin.Next p'.pin ∧ (o = some p'.pin ∨ o = none ∧ ¬w.HasRoom)) := by
  rcases writeStep_cases hstep with ⟨hnone, hid, hsame, ho⟩ | ⟨hupd, ho⟩
  · have htime : p.time ≠ 0 := by
      intro hzero
      have hmax : (0 : Nat) = PACKET_ID_MAX :=
        (h.unused hzero).symm.trans (packetIdSendUpdate_eq_none hnone)
      exact absurd hmax (by decide)
    have hp := hsame htime
    rw [hp]
    exact ⟨h, .inl ⟨rfl, ho⟩⟩
  · obtain ⟨hok, hnext⟩ := h.update hnow hupd
    refine ⟨hok, .inr ⟨hnext, ?_⟩⟩
    rcases ho with ⟨ho, hfull⟩ | ho
    · exact .inr ⟨ho, fun hroom => hroom.write hupd hfull⟩
    · rw [← hok.wirePin]
      exact .inl ho

/-! ## The receiver -/

theorem Sequential.accept {r : PacketIdRec} (h : Sequential r) (a : Arrival Int)
    {last : PacketIdNet} (hnext : last.Next (pinOf a)) (htime : r.time = last.time)
    (hid : r.id = last.id) :
    ∃ r', packetIdReceive r a = some (r', true) ∧ Sequential r' ∧ r'.time = a.time ∧
      r'.id = a.id := by
  have hfol : Follows r (pinOf a) := by
    unfold Follows
    rw [htime, hid]
    rcases hnext with ⟨hsame, hsucc⟩ | ⟨hlat, hone⟩
    · exact ⟨by omega, .inl ⟨hsame, .inr hsucc⟩⟩
    · exact ⟨by omega, .inr ⟨hlat, hone⟩⟩
  obtain ⟨r1, hr1, -, -, ⟨-, hnot⟩ | ⟨hrecv, -⟩⟩ := h.receive_cases a
  · exact absurd hfol hnot
  · exact ⟨_, hrecv, ⟨hr1.initialized, hr1.seqBacktrack, hr1.timeBacktrack, hr1.list⟩, rfl, rfl⟩

/-- **In order**, the pairs of a run are all accepted. -/
theorem LongSendOk.accepted {writes : List WriteCall}
    (hnow : ∀ w ∈ writes, 0 < w.now ∧ w.now < 0x100000000) (hroom : ∀ w ∈ writes, w.HasRoom) :
    ∀ (p p' : PacketIdSend) (os : List (Option PacketIdNet)) (r : PacketIdRec)
      (arrivals : List (Arrival Int)), LongSendOk p →
      run (writeStep true) p writes = some (p', os) → Sequential r → r.time = p.time →
      r.id = p.id → arrivals.map pinOf = emitted os →
      ∃ r', run packetIdReceive r arrivals = some (r', arrivals.map fun _ => true) := by
  induction writes with
  | nil =>
    intro p p' os r arrivals _ hrun _ _ _ hps
    cases hrun
    rw [map_eq_nil_iff.mp hps]
    exact ⟨r, rfl⟩
  | cons w writes ih =>
    intro p p' os r arrivals hok hrun hr htime hid hps
    obtain ⟨p1, o, os', hstep, hrest, rfl⟩ := run_cons_inv hrun
    have htail := ih (fun w' hw' => hnow w' (mem_cons_of_mem _ hw'))
      (fun w' hw' => hroom w' (mem_cons_of_mem _ hw'))
    obtain ⟨hok1, ⟨rfl, rfl⟩ | ⟨hnext, rfl | ⟨-, hfull⟩⟩⟩ :=
      hok.step (hnow w mem_cons_self) hstep
    · exact htail _ _ _ _ _ hok1 hrest hr htime hid hps
    · cases arrivals with
      | nil => cases hps
      | cons a arrivals =>
        have hcons : pinOf a :: arrivals.map pinOf = p1.pin :: emitted os' := hps
        obtain ⟨ha, hrestPairs⟩ := cons.inj hcons
        obtain ⟨r1, hrecv, hr1, htime1, hid1⟩ :=
          hr.accept a (by rw [ha]; exact hnext) htime hid
        obtain ⟨r', hrun'⟩ := htail _ _ _ _ _ hok1 hrest hr1
          (htime1.trans (congrArg PacketIdNet.time ha))
          (hid1.trans (congrArg PacketIdNet.id ha)) hrestPairs
        exact ⟨r', run_cons hrecv hrun'⟩
    · exact absurd (hroom w mem_cons_self) hfull

theorem Follows.before {r : PacketIdRec} {pin : PacketIdNet} (h : Follows r pin) :
    (⟨r.id, r.time⟩ : PacketIdNet).Before pin := by
  obtain ⟨hne, ⟨hsame, hid⟩ | ⟨hlat, -⟩⟩ := h
  · right
    show r.time = pin.time ∧ r.id < pin.id
    omega
  · exact .inl hlat

/-- **Any sequence** of pairs: those that are accepted follow each other. -/
theorem Sequential.accepted_chain (arrivals : List (Arrival Int)) :
    ∀ r, Sequential r → ∃ r' oks, run packetIdReceive r arrivals = some (r', oks) ∧
      ((accepted arrivals oks).map pinOf).IsChain PacketIdNet.Next ∧
      ((accepted arrivals oks).map pinOf).Pairwise PacketIdNet.Before ∧
      (∀ pin ∈ (accepted arrivals oks).map pinOf, (⟨r.id, r.time⟩ : PacketIdNet).Before pin) ∧
      ∀ pin ∈ ((accepted arrivals oks).map pinOf).head?, Follows r pin := by
  induction arrivals with
  | nil =>
    intro r _
    exact ⟨r, [], rfl, isChain_nil, List.Pairwise.nil,
      fun pin hpin => absurd hpin not_mem_nil, fun pin hpin => by cases hpin⟩
  | cons a arrivals ih =>
    intro r hr
    obtain ⟨r1, hr1, htime, hid, ⟨hreject, -⟩ | ⟨haccept, hfol⟩⟩ := hr.receive_cases a
    · obtain ⟨r', oks, hrun, hch, hpair, haft, hhead⟩ := ih r1 hr1
      refine ⟨r', false :: oks, run_cons hreject hrun, hch, hpair, ?_, ?_⟩
      · rw [htime, hid] at haft
        exact haft
      · intro pin hpin
        have hfol := hhead pin hpin
        unfold Follows at hfol ⊢
        rw [htime, hid] at hfol
        exact hfol
    · obtain ⟨r', oks, hrun, hch, hpair, haft, hhead⟩ :=
        ih { r1 with time := a.time, id := a.id }
          ⟨hr1.initialized, hr1.seqBacktrack, hr1.timeBacktrack, hr1.list⟩
      refine ⟨r', true :: oks, run_cons haccept hrun, ?_, ?_, ?_, ?_⟩
      · refine isChain_cons.mpr ⟨fun pin hpin => ?_, hch⟩
        obtain ⟨-, ⟨hsame, hzero | hsucc⟩ | ⟨hlat, hone⟩⟩ := hhead pin hpin
        · exact absurd hzero hfol.1
        · exact .inl ⟨hsame, hsucc⟩
        · exact .inr ⟨hlat, hone⟩
      · exact pairwise_cons.mpr ⟨haft, hpair⟩
      · intro pin hpin
        rcases mem_cons.mp hpin with rfl | hpin
        · exact hfol.before
        · exact hfol.before.trans (haft pin hpin)
      · intro pin hpin
        cases hpin
        exact hfol

/-! ## The mode as a whole -/

/-- The order of pairs as one number. -/
def PacketIdNet.rank (pin : PacketIdNet) : Nat := pin.time.toNat * 0x100000000 + pin.id

def PacketIdNet.Small (pin : PacketIdNet) : Prop := 0 ≤ pin.time ∧ pin.id < 0x100000000

theorem PacketIdNet.Small.before (ha : a.Small) (hb : b.Small) (h : a.rank < b.rank) :
    a.Before b := by
  unfold PacketIdNet.Small at ha hb
  unfold PacketIdNet.rank at h
  unfold PacketIdNet.Before
  omega

theorem PacketIdNet.Next.rank_lt (ha : a.Small) (h : a.Next b) : a.rank < b.rank := by
  unfold PacketIdNet.Small at ha
  unfold PacketIdNet.Next at h
  unfold PacketIdNet.rank
  omega

theorem LongSendOk.small (h : LongSendOk p) : p.pin.Small :=
  ⟨h.time.1, lt_succ_of_le h.id⟩

theorem LongSendOk.increasing {writes : List WriteCall} {os : List (Option PacketIdNet)}
    (h : LongSendOk p) (hnow : ∀ w ∈ writes, 0 < w.now ∧ w.now < 0x100000000)
    (hrun : run (writeStep true) p writes = some (p', os)) :
    (emitted os).Pairwise PacketIdNet.Before := by
  have hstep : ∀ (p : PacketIdSend) (w : WriteCall) (p' : PacketIdSend) (o : Option PacketIdNet),
      LongSendOk p → (0 < w.now ∧ w.now < 0x100000000) → writeStep true p w = some (p', o) →
      LongSendOk p' ∧ p.pin.rank ≤ p'.pin.rank ∧
        ∀ x ∈ o, p.pin.rank < x.rank ∧ x.rank ≤ p'.pin.rank ∧ x.Small := by
    intro p w p' o hok hw hstep
    obtain ⟨hok', ⟨rfl, rfl⟩ | ⟨hnext, ho⟩⟩ := hok.step hw hstep
    · exact ⟨hok', le_refl _, fun x hx => by cases hx⟩
    · have hlt := hnext.rank_lt hok.small
      refine ⟨hok', le_of_lt hlt, fun x hx => ?_⟩
      rcases ho with rfl | ⟨rfl, -⟩
      · cases hx
        exact ⟨hlt, le_refl _, hok'.small⟩
      · cases hx
  obtain ⟨-, hpair, hall⟩ := run_emitted_increasing (fun p => p.pin.rank) PacketIdNet.rank hstep h
    hnow hrun
  exact hpair.imp_of_mem fun ha hb hlt => (hall _ ha).2.before (hall _ hb).2 hlt

theorem writeStep_short (hid : p.id ≤ PACKET_ID_MAX) (hstep : writeStep false p w = some (p', o)) :
    p'.id ≤ PACKET_ID_MAX ∧ p.id ≤ p'.id ∧ ∀ x ∈ o, p.id < x.id ∧ x.id ≤ p'.id ∧ x.time = 0 := by
  have hmax : PACKET_ID_MAX = 4294967295 := rfl
  rcases writeStep_cases hstep with ⟨-, hsame, -, rfl⟩ | ⟨hupd, ho⟩
  · rw [hsame]
    exact ⟨hid, le_refl _, fun x hx => by cases hx⟩
  · rcases packetIdSendUpdate_eq_some hupd with ⟨hne, hsucc, -⟩ | ⟨hlong, -⟩
    · refine ⟨by omega, by omega, fun x hx => ?_⟩
      rcases ho with ⟨rfl, -⟩ | rfl
      · cases hx
      · cases hx
        show p.id < p'.id % 0x100000000 ∧ p'.id % 0x100000000 ≤ p'.id ∧ (0 : Int) = 0
        omega
    · cases hlong

/-- **Sequential mode.** The pairs of a run in long form increase, and a receiver in
sequential mode accepts them in order. Of any sequence it accepts pairs that follow each
other without a gap, so none twice. In short form the ids increase, and the call fails
when they are used up. -/
theorem sequential_mode (writes : List WriteCall)
    (hnow : ∀ w ∈ writes, 0 < w.now ∧ w.now < 0x100000000) (hroom : ∀ w ∈ writes, w.HasRoom)
    {p : PacketIdSend} {os : List (Option PacketIdNet)}
    (hrun : run (writeStep true) resetPacketIdSend writes = some (p, os)) {timeBacktrack : Int}
    {recv : PacketIdRec} (hinit : packetIdInitRecv .cleared 0 timeBacktrack = some recv) :
    (emitted os).Pairwise PacketIdNet.Before ∧
      (∀ arrivals : List (Arrival Int), arrivals.map pinOf = emitted os →
        ∃ r, run packetIdReceive recv arrivals = some (r, arrivals.map fun _ => true)) ∧
      (∀ arrivals : List (Arrival Int), ∃ r oks, run packetIdReceive recv arrivals = some (r, oks) ∧
        ((accepted arrivals oks).map pinOf).Pairwise PacketIdNet.Before ∧
        ((accepted arrivals oks).map pinOf).Nodup ∧
        ((accepted arrivals oks).map pinOf).IsChain PacketIdNet.Next) ∧
      (∀ calls p' os', run (writeStep false) resetPacketIdSend calls = some (p', os') →
        p'.id ≤ PACKET_ID_MAX ∧ (emitted os').Pairwise (fun a b => a.id < b.id)) ∧
      ∀ now p' buf prepend, p'.id = PACKET_ID_MAX →
        (packetIdWrite now p' buf false prepend).2 = none ∧
          (packetIdWrite now p' buf false prepend).1.id = PACKET_ID_MAX := by
  have hstart : LongSendOk resetPacketIdSend := ⟨by decide, by decide, fun _ => rfl⟩
  cases hinit
  have hrecv : Sequential { PacketIdRec.cleared with initialized := true } := ⟨rfl, rfl, rfl, rfl⟩
  refine ⟨hstart.increasing hnow hrun, ?_, ?_, ?_, ?_⟩
  · intro arrivals hpairs
    exact LongSendOk.accepted hnow hroom _ _ _ _ _ hstart hrun hrecv rfl rfl hpairs
  · intro arrivals
    obtain ⟨r, oks, hrun', hchain, hpair, -⟩ := Sequential.accepted_chain arrivals _ hrecv
    exact ⟨r, oks, hrun', hpair, hpair.imp PacketIdNet.Before.ne, hchain⟩
  · intro calls p' os' hrun'
    obtain ⟨hid, hpair, -⟩ := run_emitted_increasing PacketIdSend.id PacketIdNet.id
      (I := fun p => p.id ≤ PACKET_ID_MAX) (G := fun _ => True) (Q := fun x => x.time = 0)
      (fun p w p' o hid _ hstep => writeStep_short hid hstep) (zero_le _)
      (fun _ _ => trivial) hrun'
    exact ⟨hid, hpair⟩
  · intro now p' buf prepend hmax
    have hnone : packetIdSendUpdate now p' false = none := by
      cases hupdate : packetIdSendUpdate now p' false with
      | none => rfl
      | some q =>
        rcases packetIdSendUpdate_eq_some hupdate with ⟨hne, -⟩ | ⟨hlong, -⟩
        · exact absurd hmax hne
        · cases hlong
    unfold packetIdWrite
    rw [hnone]
    exact ⟨rfl, hmax⟩

/-- A call at a time, into an empty buffer of some size. -/
def writeAt (now : Int) (size : Nat) : WriteCall := ⟨now, ⟨size, 0, [], zero_le _⟩, false⟩

theorem sequential_mode_three :
    ∃ r, run packetIdReceive { PacketIdRec.cleared with initialized := true }
        [⟨9, false, 5, 1⟩, ⟨9, true, 5, 2⟩, ⟨9, false, 5, 3⟩] = some (r, [true, true, true]) :=
  (sequential_mode [writeAt 5 8, writeAt 5 8, writeAt 6 8] (by decide) (by decide)
    rfl (rfl : packetIdInitRecv .cleared 0 0 = _)).2.1
      [⟨9, false, 5, 1⟩, ⟨9, true, 5, 2⟩, ⟨9, false, 5, 3⟩] (by decide)

/-- A call without room uses up an id, and the receiver stops at the gap. A time beyond 32
bits is cut, so that the first id of a new time is not accepted. -/
theorem skipped_id_rejected :
    (run (writeStep true) resetPacketIdSend [writeAt 5 8, writeAt 5 7, writeAt 5 8]).map (·.2) =
        some [some ⟨1, 5⟩, none, some ⟨3, 5⟩] ∧
      (run packetIdReceive { PacketIdRec.cleared with initialized := true }
        [⟨9, false, 5, 1⟩, ⟨9, false, 5, 3⟩]).map (·.2) = some [true, false] ∧
      (writeStep true ⟨PACKET_ID_MAX, 0xffffffff⟩ (writeAt 0x100000000 8)).map (·.2) =
        some (some ⟨1, 0⟩) := by
  decide

end OpenVpn
