import Mathlib.Data.List.Dedup
import OpenVpn.Control.Window

/-!
# Early retransmission

A packet of the control channel is sent again before its time when three later ones seem
to have been acknowledged. The counter behind this counts acknowledgements, not packets,
and a peer repeats its recent acknowledgements in every packet.

* `senderStep` — the send side under a clock; its log says what was sent and acknowledged.
* `SenderOk` — a counter is the number of acknowledgements since the packet was sent.
* `reliableSend_eq_iff` — which packet is picked.
* `early_retransmit_distinct` — when a packet is sent early, and what that means where no
  acknowledgement is repeated.
-/

namespace OpenVpn

open Base List Option Int

/-- The send array and the clock. -/
structure Sender where
  rel : Reliable
  now : Int

/-- What happens on the send side; the clock does not go back. -/
inductive SenderEvent
  | tick (seconds : Nat)
  | queue (opcode : Nat) (payload : Bytes)
  | acks (ack : ReliableAck)
  | send
  | scheduleNow

/-- What the send side has done and learned. -/
inductive SenderLog
  | sent (id : PacketIdType)
  | acked (id : PacketIdType)
  deriving DecidableEq

def senderStep (s : Sender) : SenderEvent → Option (Sender × List SenderLog)
  | .tick seconds => some ({ s with now := s.now + seconds }, [])
  | .queue opcode payload =>
    match queueOutgoing s.rel opcode payload with
    | none => none
    | some (rel, _) => some ({ s with rel }, [])
  | .acks ack => some ({ s with rel := reliableSendPurge s.rel ack }, ack.packetId.map .acked)
  | .send =>
    match reliableSend s.rel s.now with
    | none => some (s, [])
    | some (best, rel) => some ({ s with rel }, [.sent best.packetId])
  | .scheduleNow => some ({ s with rel := reliableScheduleNow s.rel s.now }, [])

/-! ## The log -/

/-- One entry of the log, for the acknowledgements since `id` was sent. -/
def sinceStep (id : PacketIdType) (acks : List PacketIdType) : SenderLog → List PacketIdType
  | .sent k => if k = id then [] else acks
  | .acked a => acks ++ [a]

/-- The acknowledgements received since `id` was last sent. -/
def acksSince (id : PacketIdType) (log : List SenderLog) : List PacketIdType :=
  log.foldl (sinceStep id) []

/-- How many acknowledgements of larger ids there are among them. -/
def ackCount (id : PacketIdType) (log : List SenderLog) : Nat :=
  (acksSince id log).countP (fun a => decide (id < a))

/-- How many different packets later than `id` they acknowledge. -/
def laterAcked (id : PacketIdType) (log : List SenderLog) : Nat :=
  ((acksSince id log).filter (reliablePidMin id)).dedup.length

/-- Since `id` was last sent no packet was acknowledged twice, and none that was sent before
the ids wrapped around. -/
structure PlainAcks (id : PacketIdType) (log : List SenderLog) : Prop where
  once : (acksSince id log).Nodup
  unwrapped : ∀ a ∈ acksSince id log, a.toNat < id.toNat + 2 ^ 31

/-- Then every acknowledgement that is counted is one of another later packet. -/
theorem PlainAcks.ackCount_le {id : PacketIdType} {log : List SenderLog} (h : PlainAcks id log) :
    ackCount id log ≤ laterAcked id log := by
  unfold ackCount laterAcked
  rw [(h.once.filter _).dedup, ← countP_eq_length_filter]
  refine countP_mono_left fun a ha hlarger => ?_
  have hnear := h.unwrapped a ha
  have hlt : id.toNat < a.toNat := BitVec.lt_def.mp (of_decide_eq_true hlarger)
  have hmid : (0x80000000#32).toNat = 2 ^ 31 := rfl
  rw [reliablePidMin, reliablePidInRange1, subtractPid, ← decide_not, decide_eq_true_eq,
    BitVec.lt_def, hmid, BitVec.toNat_sub]
  have := a.isLt
  omega

theorem acksSince_acked (id : PacketIdType) (log : List SenderLog) (ids : List PacketIdType) :
    acksSince id (log ++ ids.map .acked) = acksSince id log ++ ids := by
  unfold acksSince
  rw [foldl_append]
  generalize log.foldl (sinceStep id) [] = acks
  induction ids generalizing acks with
  | nil => exact (append_nil acks).symm
  | cons a ids ih =>
    rw [map_cons, foldl_cons]
    show (ids.map SenderLog.acked).foldl (sinceStep id) (acks ++ [a]) = _
    rw [ih, append_assoc]
    rfl

theorem acksSince_sent (id k : PacketIdType) (log : List SenderLog) :
    acksSince id (log ++ [.sent k]) = if k = id then [] else acksSince id log := by
  unfold acksSince
  rw [foldl_append]
  rfl

/-! ## The counters -/

variable {rel rel' : Reliable}

variable {i : Nat}

/-- A record counts once for each larger id it names. -/
theorem reliableSendPurge_nAcks {ack : ReliableAck} {e' : ReliableEntry}
    (h : (reliableSendPurge rel ack).ActiveAt i e') :
    ∃ e, rel.ActiveAt i e ∧ e'.packetId = e.packetId ∧ e'.nextTry = e.nextTry ∧
      e'.nAcks = e.nAcks + ack.packetId.countP (fun a => decide (e.packetId < a)) := by
  have hent : ∀ (ids : List PacketIdType) (e : ReliableEntry),
      (purgeEntries ids e).active = true → (purgeEntries ids e).nextTry = e.nextTry ∧
        (purgeEntries ids e).nAcks = e.nAcks + ids.countP (fun a => decide (e.packetId < a)) := by
    intro ids
    induction ids with
    | nil => exact fun e _ => ⟨rfl, rfl⟩
    | cons pid ids ih =>
      intro e hact
      obtain ⟨htry, hcnt⟩ := ih (purgeEntry pid e) hact
      have hold := (purgeEntries_keeps ids (purgeEntry pid e)).2.2 hact
      change (purgeEntries ids (purgeEntry pid e)).nextTry = e.nextTry ∧
        (purgeEntries ids (purgeEntry pid e)).nAcks = _
      rw [htry, hcnt, countP_cons, (purgeEntry_keeps pid e).1]
      unfold purgeEntry at hold ⊢
      split at hold
      case isTrue => cases hold
      case isFalse hoth =>
        rw [if_neg hoth]
        split at hold
        case isTrue hlarger =>
          rw [if_pos hlarger]
          rw [Bool.and_eq_true] at hlarger
          rw [if_pos hlarger.2]
          exact ⟨rfl, Nat.add_right_comm e.nAcks 1 _⟩
        case isFalse hsmaller =>
          rw [if_neg hsmaller]
          rw [hold, Bool.true_and] at hsmaller
          rw [if_neg hsmaller]
          exact ⟨rfl, rfl⟩
  obtain ⟨hi, hact⟩ := h
  rw [reliableSendPurge_array, getElem?_map] at hi
  obtain ⟨e, he, rfl⟩ := map_eq_some_iff.mp hi
  obtain ⟨hid, -, hold⟩ := purgeEntries_keeps ack.packetId e
  exact ⟨e, ⟨he, hold hact⟩, hid, hent ack.packetId e hact⟩

/-- The send array is a window, and each counter is the number of acknowledgements since
the packet was sent, unless the packet is due anyway. -/
structure SenderOk (n room : Nat) (s : Sender) (log : List SenderLog) : Prop where
  clock : 0 ≤ s.now
  window : SendWindowOk n room s.rel
  counts : ∀ i e, s.rel.ActiveAt i e → e.nextTry ≤ s.now ∨
    (.sent e.packetId ∈ log ∧ e.nAcks = ackCount e.packetId log)

theorem ackCount_acked (id : PacketIdType) (log : List SenderLog) (ids : List PacketIdType) :
    ackCount id (log ++ ids.map .acked) =
      ackCount id log + ids.countP (fun a => decide (id < a)) := by
  unfold ackCount
  rw [acksSince_acked, countP_append]

variable {n room : Nat} {s s' : Sender} {log new : List SenderLog}

theorem SenderOk.acks (h : SenderOk n room s log) (ack : ReliableAck) :
    SenderOk n room { s with rel := reliableSendPurge s.rel ack }
      (log ++ ack.packetId.map .acked) where
  clock := h.clock
  window := h.window.purge ack
  counts := by
    intro i e' hi
    obtain ⟨e, he, hid, htry, hcnt⟩ := reliableSendPurge_nAcks hi
    rw [hid, htry, hcnt, ackCount_acked]
    rcases h.counts i e he with hdue | ⟨hsent, hsame⟩
    · exact .inl hdue
    · exact .inr ⟨mem_append_left _ hsent, by rw [hsame]⟩

theorem SenderOk.scheduleNow (h : SenderOk n room s log) :
    SenderOk n room { s with rel := reliableScheduleNow s.rel s.now } log where
  clock := h.clock
  window := by
    refine h.window.kept (length_map _) rfl rfl ?_
    refine fun i e' hi => map_keeps hi fun e => ?_
    split
    · exact ⟨rfl, rfl, id⟩
    · exact ⟨rfl, rfl, id⟩
  counts := by
    intro i e' hi
    obtain ⟨hget, hact⟩ := hi
    change (s.rel.array.map _)[i]? = some e' at hget
    rw [getElem?_map] at hget
    obtain ⟨e, he, rfl⟩ := map_eq_some_iff.mp hget
    left
    split
    case isTrue => exact le_refl _
    case isFalse hfree =>
      rw [if_neg hfree] at hact
      exact absurd hact hfree

theorem SenderOk.queue (h : SenderOk n room s log) (hn : 0 < n ∧ n < 2 ^ 31) {opcode : Nat}
    {payload : Bytes} {handed : Option Bytes}
    (hq : queueOutgoing s.rel opcode payload = some (rel', handed)) :
    SenderOk n room { s with rel := rel' } log where
  clock := h.clock
  window := by
    obtain ⟨rel1, handed1, hstep, hok⟩ := h.window.step hn (.queue opcode payload)
    change queueOutgoing s.rel opcode payload = some (rel1, handed1) at hstep
    rw [hq] at hstep
    cases hstep
    exact hok
  counts := by
    intro i e hi
    rcases queueOutgoing_cases hq with ⟨-, rfl⟩ | ⟨x, -, -, hsl⟩
    · exact h.counts i e hi
    · rcases hsl i e hi with hold | ⟨-, htry, -⟩
      · exact h.counts i e hold
      · left
        rw [htry]
        exact h.clock

/-! ## Which packet is sent -/

theorem bestToSend_oldest (hn : n < 2 ^ 31) (now : Int) (slots : List ReliableEntry) :
    ∀ (i : Nat) (best : Option (Nat × ReliableEntry)),
      (∀ e ∈ slots, e.active = true → rel.age e.packetId ≤ n) →
      (∀ b, best = some b → rel.age b.2.packetId ≤ n) →
      (∀ b, best = some b → ∃ r, bestToSend now slots i best = some r ∧
        rel.age b.2.packetId ≤ rel.age r.2.packetId) ∧
      ∀ e ∈ slots, e.due now = true → ∃ r, bestToSend now slots i best = some r ∧
        rel.age e.packetId ≤ rel.age r.2.packetId := by
  induction slots with
  | nil =>
    intro i best _ _
    exact ⟨fun b hb => ⟨b, hb, Nat.le_refl _⟩, fun e he => absurd he not_mem_nil⟩
  | cons e slots ih =>
    intro i best hsl hbest
    have htail := fun e' he' => hsl e' (mem_cons_of_mem _ he')
    have hact : e.due now = true → rel.age e.packetId ≤ n := fun hdue =>
      hsl e mem_cons_self (due_active hdue)
    unfold bestToSend
    by_cases htk :
        (e.due now && best.all (fun b => reliablePidMin e.packetId b.2.packetId)) = true
    · rw [if_pos htk]
      obtain ⟨hdue, hall⟩ := Bool.and_eq_true_iff.mp htk
      obtain ⟨hfst, hrest⟩ := ih (i + 1) (some (i, e)) htail
        (fun b hb => by cases hb; exact hact hdue)
      obtain ⟨r, hr, hle⟩ := hfst (i, e) rfl
      change rel.age e.packetId ≤ rel.age r.2.packetId at hle
      refine ⟨?_, ?_⟩
      · intro b hb
        rw [hb] at hall
        have hmin : reliablePidMin e.packetId b.2.packetId = true := hall
        rw [reliablePidMin_age hn (hact hdue) (hbest b hb), decide_eq_true_eq] at hmin
        exact ⟨r, hr, by omega⟩
      · intro e' he' hdue'
        rcases mem_cons.mp he' with rfl | he'
        · exact ⟨r, hr, hle⟩
        · exact hrest e' he' hdue'
    · rw [if_neg htk]
      obtain ⟨hfst, hrest⟩ := ih (i + 1) best htail hbest
      refine ⟨hfst, ?_⟩
      intro e' he' hdue'
      rcases mem_cons.mp he' with rfl | he'
      · -- the slot was passed over for an older one
        cases best with
        | none => exact absurd (by rw [hdue']; rfl) htk
        | some b =>
          have hmin : ¬reliablePidMin e'.packetId b.2.packetId = true := by
            intro hmin
            exact htk (by rw [hdue']; exact hmin)
          rw [reliablePidMin_age hn (hact hdue') (hbest b rfl), decide_eq_true_eq] at hmin
          obtain ⟨r, hr, hle⟩ := hfst b rfl
          exact ⟨r, hr, by omega⟩
      · exact hrest e' he' hdue'

variable {now : Int}

variable {best : ReliableEntry}

theorem reliableSend_eq_some :
    (∃ rel', reliableSend rel now = some (best, rel')) ↔
      ∃ i, bestToSend now rel.array 0 none = some (i, best) := by
  unfold reliableSend
  constructor
  · rintro ⟨rel', h⟩
    split at h
    · cases h
    · rename_i i b hbest
      cases h
      exact ⟨i, hbest⟩
  · rintro ⟨i, h⟩
    rw [h]
    exact ⟨_, rfl⟩

/-- **The packet that is sent** is the first in sequence of those that are due. -/
theorem SendWindowOk.reliableSend_eq_iff (h : SendWindowOk n room rel) (hn : n < 2 ^ 31)
    {e : ReliableEntry} (he : rel.ActiveAt i e) :
    (∃ rel', reliableSend rel now = some (e, rel')) ↔
      e.due now = true ∧ ∀ j f, rel.ActiveAt j f → f.due now = true → f.packetId ≠ e.packetId →
        reliablePidMin e.packetId f.packetId = true := by
  have hages : ∀ f ∈ rel.array, f.active = true → rel.age f.packetId ≤ n := by
    intro f hf hact
    obtain ⟨j, hj⟩ := mem_iff_getElem?.mp hf
    exact (h.window j f ⟨hj, hact⟩).2
  have holdest := (bestToSend_oldest hn now rel.array 0 none hages (fun b hb => by cases hb)).2
  rw [reliableSend_eq_some]
  constructor
  · rintro ⟨j, hbest⟩
    refine ⟨(bestToSend_activeAt hbest).2, ?_⟩
    intro k f hf hdue hne
    obtain ⟨r, hr, hle⟩ := holdest f (mem_of_getElem? hf.1) hdue
    rw [hbest] at hr
    cases hr
    have hlt : rel.age f.packetId ≠ rel.age e.packetId := fun heq => hne (age_inj heq)
    rw [reliablePidMin_age hn (h.window i e he).2 (h.window k f hf).2, decide_eq_true_eq]
    change rel.age f.packetId ≤ rel.age e.packetId at hle
    omega
  · rintro ⟨hdue, hfst⟩
    obtain ⟨⟨j, b⟩, hbest, hle⟩ := holdest e (mem_of_getElem? he.1) hdue
    change rel.age e.packetId ≤ rel.age b.packetId at hle
    obtain ⟨hb, hbdue⟩ := bestToSend_activeAt hbest
    have hsame : b.packetId = e.packetId := by
      by_contra hne
      have hmin := hfst j b hb hbdue hne
      rw [reliablePidMin_age hn (h.window i e he).2 (h.window j b hb).2, decide_eq_true_eq] at hmin
      omega
    obtain rfl := h.distinct j i b e hb he hsame
    have heq := hb.1.symm.trans he.1
    cases heq
    exact ⟨j, hbest⟩

/-! ## Runs -/

theorem SenderOk.send (h : SenderOk n room s log)
    (hsend : reliableSend s.rel s.now = some (best, rel')) :
    SenderOk n room { s with rel := rel' } (log ++ [.sent best.packetId]) := by
  unfold reliableSend at hsend
  split at hsend
  case h_1 => cases hsend
  case h_2 i b hbest =>
    cases hsend
    have hactive := (bestToSend_activeAt hbest).1
    refine ⟨h.clock, h.window.kept (modifySlot_size _ _ _) rfl rfl ?_, ?_⟩
    · exact fun j e' hj => modifySlot_keeps hj fun _ => ⟨rfl, rfl, id⟩
    · intro j e' hj
      obtain ⟨hget, hact⟩ := hj
      rw [modifySlot_getElem?] at hget
      split at hget
      case isTrue hij =>
        obtain ⟨e, he, rfl⟩ := map_eq_some_iff.mp hget
        rw [← hij, hactive.1] at he
        cases he
        refine .inr ⟨mem_append_right _ (mem_singleton_self _), ?_⟩
        show 0 = ackCount best.packetId (log ++ [.sent best.packetId])
        unfold ackCount
        rw [acksSince_sent, if_pos rfl]
        rfl
      case isFalse hij =>
        -- no other slot holds the packet that was sent
        have hne : best.packetId ≠ e'.packetId := fun heq =>
          hij (h.window.distinct i j best e' hactive ⟨hget, hact⟩ heq)
        unfold ackCount
        rw [acksSince_sent, if_neg hne]
        rcases h.counts j e' ⟨hget, hact⟩ with hdue | ⟨hsent, hcnt⟩
        · exact .inl hdue
        · exact .inr ⟨mem_append_left _ hsent, hcnt⟩

/-- **One event** of the sender. -/
theorem SenderOk.step (h : SenderOk n room s log) (hn : 0 < n ∧ n < 2 ^ 31) {event : SenderEvent}
    (hstep : senderStep s event = some (s', new)) : SenderOk n room s' (log ++ new) := by
  cases event with
  | tick seconds =>
    cases hstep
    rw [append_nil]
    have hforward : s.now ≤ s.now + seconds := by omega
    refine ⟨le_trans h.clock hforward, h.window, fun i e he => ?_⟩
    rcases h.counts i e he with hdue | hcnt
    · exact .inl (le_trans hdue hforward)
    · exact .inr hcnt
  | queue opcode payload =>
    simp only [senderStep] at hstep
    split at hstep
    case h_1 => cases hstep
    case h_2 rel' handed hq =>
      cases hstep
      rw [append_nil]
      exact h.queue hn hq
  | acks ack =>
    cases hstep
    exact h.acks ack
  | send =>
    simp only [senderStep] at hstep
    split at hstep
    case h_1 =>
      cases hstep
      rw [append_nil]
      exact h
    case h_2 best rel' hsend =>
      cases hstep
      exact h.send hsend
  | scheduleNow =>
    cases hstep
    rw [append_nil]
    exact h.scheduleNow

/-- The empty send array with its timeout, at a time. -/
def Sender.start (rel : Reliable) (timeout now : Int) : Sender :=
  ⟨{ rel with initialTimeout := timeout }, now⟩

/-- **Runs** from the empty send array. -/
theorem senderOk_run {bufSize offset arraySize : Nat} {hold : Bool} {rel0 : Reliable}
    (hinit : reliableInit bufSize offset arraySize hold = some rel0) (hoff : 4 ≤ offset)
    {timeout : Int} (hnow : 0 ≤ now) {events : List SenderEvent} {logs : List (List SenderLog)}
    (hrun : run senderStep (Sender.start rel0 timeout now) events = some (s, logs)) :
    SenderOk arraySize (bufSize - offset) s logs.flatten ∧ arraySize < 2 ^ 31 := by
  obtain ⟨hwin, hn⟩ := sendWindowOk_reliableInit hinit hoff
  have hstart : SenderOk arraySize (bufSize - offset) (Sender.start rel0 timeout now)
      (flatten []) := by
    refine ⟨hnow, hwin.kept rfl rfl rfl fun i e hi => ⟨e, hi, rfl, rfl, id⟩, fun i e hi => ?_⟩
    obtain ⟨buf, rfl, -⟩ := reliableInit_eq_some hinit
    exact absurd hi (not_activeAt_cleared buf offset arraySize hold i e)
  refine ⟨?_, hn.2⟩
  have hlog := run_history
    (I := fun s (logs : List (List SenderLog)) =>
      SenderOk arraySize (bufSize - offset) s logs.flatten)
    (G := fun _ => True) ?_ hstart (fun _ _ => trivial) hrun
  · exact hlog
  · intro s past event s' new h _ hstep
    rw [flatten_append, flatten_singleton]
    exact h.step hn hstep

/-- **Early retransmission.** A packet whose time has not come was sent before. It is sent
again exactly if it is the first of those that are due and three acknowledgements of larger
ids have come since. Where no packet is acknowledged twice and the ids have not wrapped
around, these are acknowledgements of three different later packets. -/
theorem early_retransmit_distinct {bufSize offset arraySize : Nat} {hold : Bool}
    {rel₀ : Reliable} (hinit : reliableInit bufSize offset arraySize hold = some rel₀)
    (hoff : 4 ≤ offset) (timeout : Int) {now : Int} (hnow : 0 ≤ now)
    (events : List SenderEvent) {logs : List (List SenderLog)}
    (hrun : run senderStep (Sender.start rel₀ timeout now) events = some (s, logs))
    {i : Nat} {e : ReliableEntry} (he : s.rel.ActiveAt i e) (hearly : s.now < e.nextTry) :
    .sent e.packetId ∈ logs.flatten ∧
      ((∃ rel', reliableSend s.rel s.now = some (e, rel')) ↔
        N_ACK_RETRANSMIT ≤ ackCount e.packetId logs.flatten ∧
          ∀ j f, s.rel.ActiveAt j f → f.due s.now = true → f.packetId ≠ e.packetId →
            reliablePidMin e.packetId f.packetId = true) ∧
      (PlainAcks e.packetId logs.flatten → (∃ rel', reliableSend s.rel s.now = some (e, rel')) →
        N_ACK_RETRANSMIT ≤ laterAcked e.packetId logs.flatten) := by
  obtain ⟨hok, hn⟩ := senderOk_run hinit hoff hnow hrun
  obtain ⟨hsent, hcount⟩ := (hok.counts i e he).resolve_left (not_le.mpr hearly)
  have hdue : e.due s.now = true ↔ N_ACK_RETRANSMIT ≤ ackCount e.packetId logs.flatten := by
    unfold ReliableEntry.due
    rw [he.2, Bool.true_and, Bool.or_eq_true, decide_eq_true_eq, decide_eq_true_eq, hcount]
    exact or_iff_left (not_le.mpr hearly)
  rw [hok.window.reliableSend_eq_iff hn he, hdue]
  exact ⟨hsent, Iff.rfl, fun hplain hpicked => hpicked.1.trans hplain.ackCount_le⟩

theorem sampleSender_fits : 16 + ([] : Bytes).length ≤ 64 := by decide

/-- Four slots, a timeout of two seconds, at time 10. -/
def sampleSender : Sender :=
  Sender.start (Reliable.cleared ⟨64, 16, [], sampleSender_fits⟩ 16 4 false) 2 10

/-- Four packets are sent, and acknowledgement records arrive. -/
def sampleRun (records : List ReliableAck) : List SenderEvent :=
  [.queue 4 [1], .queue 4 [2], .queue 4 [3], .queue 4 [4], .send, .send, .send, .send] ++
    records.map .acks

/-- The packet that is sent after the run: its id, whether it is sent early, and how many
later packets have been acknowledged. -/
def sentAfter (records : List ReliableAck) : Option (PacketIdType × Bool × Nat) :=
  (run senderStep sampleSender (sampleRun records)).bind fun r =>
    (reliableSend r.1.rel r.1.now).map fun sent =>
      (sent.1.packetId, decide (r.1.now < sent.1.nextTry), laterAcked sent.1.packetId r.2.flatten)

theorem early_retransmit_three_packets :
    ∃ s logs e, run senderStep sampleSender (sampleRun [⟨[1, 2, 3], by decide⟩]) = some (s, logs) ∧
      (∃ rel', reliableSend s.rel s.now = some (e, rel')) ∧ s.now < e.nextTry ∧
      PlainAcks e.packetId logs.flatten ∧
      N_ACK_RETRANSMIT ≤ laterAcked e.packetId logs.flatten := by
  have hplain : PlainAcks 0#32 ([.sent 0, .sent 1, .sent 2, .sent 3, .acked 1, .acked 2, .acked 3] :
      List SenderLog) := ⟨by decide, by simp [acksSince, sinceStep]⟩
  refine ⟨_, _, _, rfl, ⟨_, rfl⟩, by decide, hplain, ?_⟩
  exact (early_retransmit_distinct (i := 0) (rfl : reliableInit 64 16 4 false = _) (by decide) 2
    (by decide : (0 : Int) ≤ 10) (sampleRun [⟨[1, 2, 3], by decide⟩]) rfl ⟨rfl, rfl⟩
    (by decide)).2.2 hplain ⟨_, rfl⟩

/-- Packet 0 is lost. The peer acknowledges packet 1, and names it again in its next two
packets; then packet 0 is sent early, although no other packet has been acknowledged. -/
theorem repeated_ack_counted :
    (reliableAckWrite ⟨[1], by decide⟩ .empty ⟨64, 40, [], by decide⟩ sampleSessionId 4 true).map
        (fun r => (r.1.packetId, r.2.1.packetId, r.2.2.map (·.contents))) =
      some ([], [1], some (ackRecord [1] sampleSessionId)) ∧
    (reliableAckWrite .empty ⟨[1], by decide⟩ ⟨64, 40, [], by decide⟩ sampleSessionId 4 true).map
        (fun r => (r.1.packetId, r.2.1.packetId, r.2.2.map (·.contents))) =
      some ([], [1], some (ackRecord [1] sampleSessionId)) ∧
    sentAfter [⟨[1], by decide⟩, ⟨[1], by decide⟩, ⟨[1], by decide⟩] = some (0, true, 1) := by
  decide

end OpenVpn
