import OpenVpn.Base.CString
import OpenVpn.Options.PullFilter

/-!
# Push replies

A server sends its options to a client in one or more messages of bounded size, each
ended by a marker that says whether another one follows. The client cuts the messages
into lines.

* `sendPushOptions`, `sendPushReply` — the server; `receivedLines` — the client.
* `Bundled` — what the server has sent and what it still holds.
* `pushedLines_join` — the lines a client finds in a message.
* `push_reply_round_trip` — nothing is lost, cut or reordered on the way.
-/

namespace OpenVpn

open Base List Option

def PUSH_BUNDLE_SIZE : Nat := 1024

def pushReplyCmd : Bytes := ascii "PUSH_REPLY"

/-- Another message follows. -/
def continuationMore : Bytes := ascii "push-continuation 2"

/-- This was the last of several messages. -/
def continuationLast : Bytes := ascii "push-continuation 1"

structure PushEntry where
  enable : Bool
  option : Bytes

/-- The buffer of `send_push_reply`, its flags, and the messages sent so far. -/
structure PushState where
  buf : Buffer
  pushSent : Bool
  multiPush : Bool
  sent : List Bytes

def bufResetLen (buf : Buffer) : Buffer := ⟨buf.capacity, 0, [], by simp⟩

section Server

variable (status : Nat → Bool)

/-- `send_control_channel_string`; `status n` is the result of the `n`-th call. -/
def sendControlChannelString (s : PushState) : Option PushState :=
  if status s.sent.length then some { s with sent := s.sent ++ [s.buf.contents] } else none

/-- A full bundle is sent and a new one begun. -/
def flushBundle (s : PushState) : Option PushState :=
  (sendControlChannelString status
    { s with buf := bufPrintf s.buf (44 :: continuationMore) }).map fun s =>
      { s with
        buf := bufPrintf (bufResetLen s.buf) pushReplyCmd
        pushSent := true
        multiPush := true }

/-- An enabled option in `send_push_options`; there is no result if it is too long. -/
def sendPushOption (safeCap : Nat) (s : PushState) (option : Bytes) : Option PushState :=
  (if safeCap ≤ s.buf.contents.length + option.length then flushBundle status s else some s).bind
    fun s =>
      if safeCap ≤ s.buf.contents.length + option.length then none
      else some { s with buf := bufPrintf s.buf (44 :: option) }

def sendPushOptions (safeCap : Nat) : PushState → List PushEntry → Option PushState
  | s, [] => some s
  | s, e :: es =>
    if e.enable then
      (sendPushOption status safeCap s e.option).bind fun s => sendPushOptions safeCap s es
    else sendPushOptions safeCap s es

theorem pushBuf_fits : 0 + ([] : Bytes).length ≤ PUSH_BUNDLE_SIZE := by decide

def markLast (s : PushState) : PushState :=
  if s.multiPush then { s with buf := bufPrintf s.buf (44 :: continuationLast) } else s

/-- The end of `send_push_reply`: what is left is sent, and an empty reply if nothing
has been sent at all. -/
def finishPushReply (s : PushState) : Option (List Bytes) :=
  (if pushReplyCmd.length < (markLast s).buf.contents.length then
    (sendControlChannelString status (markLast s)).map fun s => { s with pushSent := true }
  else some (markLast s)).bind fun s =>
    if s.pushSent then some s.sent
    else
      (sendControlChannelString status
        { s with buf := bufPrintf (bufResetLen s.buf) pushReplyCmd }).map PushState.sent

/-- `send_push_reply`: the messages that were sent, if it succeeds. -/
def sendPushReply (common perClient : List PushEntry) : Option (List Bytes) :=
  let buf : Buffer := ⟨PUSH_BUNDLE_SIZE, 0, [], pushBuf_fits⟩
  let safeCap := bufForwardCapacity buf - 84
  (sendPushOptions status safeCap ⟨bufPrintf buf pushReplyCmd, false, false, []⟩ common).bind
    fun s => (sendPushOptions status safeCap s perClient).bind (finishPushReply status)

end Server

/-- `process_incoming_push_reply`: the lines of a message that `apply_push_options` sees. -/
def receivedLines (buf : Bytes) : List Bytes :=
  if pushReplyCmd.isPrefixOf buf then
    match buf.drop pushReplyCmd.length with
    | 44 :: rest => pushedLines rest
    | _ => []
  else []

/-! ## The abstract reply -/

def enabledOptions (entries : List PushEntry) : List Bytes :=
  (entries.filter PushEntry.enable).map PushEntry.option

/-- Options that can be pushed: non-empty C strings without commas, of at most 255
characters. -/
structure Pushable (option : Bytes) : Prop where
  nonempty : option ≠ []
  text_string : 0 ∉ option
  no_comma : 44 ∉ option
  length : option.length ≤ 255

def pushMessage (lines : List Bytes) : Bytes := pushReplyCmd ++ lines.flatMap fun l => 44 :: l

/-- Bundles of options with the markers behind them. -/
def markedBundles : List (List Bytes) → List (List Bytes)
  | [] => []
  | [b] => [b ++ [continuationLast]]
  | b :: b' :: bs => (b ++ [continuationMore]) :: markedBundles (b' :: bs)

/-- The lines of a reply: a single message has no marker. -/
def replyLines : List (List Bytes) → List (List Bytes)
  | [b] => [b]
  | bs => markedBundles bs

/-! ## The server -/

theorem pushMessage_concat (lines : List Bytes) (l : Bytes) :
    pushMessage (lines ++ [l]) = pushMessage lines ++ 44 :: l := by
  simp [pushMessage]

theorem markedBundles_concat (bs : List (List Bytes)) (b : List Bytes) :
    markedBundles (bs ++ [b]) = bs.map (· ++ [continuationMore]) ++ [b ++ [continuationLast]] := by
  induction bs with
  | nil => rfl
  | cons a bs ih =>
    obtain ⟨c, cs, hcs⟩ := exists_cons_of_ne_nil
      (append_ne_nil_of_right_ne_nil bs (cons_ne_nil b []))
    rw [cons_append, hcs, markedBundles, ← hcs, ih]
    rfl

theorem replyLines_concat {bs : List (List Bytes)} (b : List Bytes) (hbs : bs ≠ []) :
    replyLines (bs ++ [b]) = bs.map (· ++ [continuationMore]) ++ [b ++ [continuationLast]] := by
  rw [← markedBundles_concat]
  obtain ⟨a, bs, rfl⟩ := exists_cons_of_ne_nil hbs
  obtain ⟨c, cs, hcs⟩ := exists_cons_of_ne_nil
    (append_ne_nil_of_right_ne_nil bs (cons_ne_nil b []))
  rw [cons_append, hcs]
  rfl

theorem bufResetLen_cmd {buf : Buffer} (hcap : buf.capacity = PUSH_BUNDLE_SIZE) :
    (bufPrintf (bufResetLen buf) pushReplyCmd).contents = pushMessage [] := by
  apply bufPrintf_contents
  show pushReplyCmd.length < buf.capacity - (0 + ([] : Bytes).length)
  rw [hcap]
  decide

variable {cur : List Bytes}

theorem pushMessage_length_lt (hne : cur ≠ []) :
    pushReplyCmd.length < (pushMessage cur).length := by
  obtain ⟨l, cur, rfl⟩ := exists_cons_of_ne_nil hne
  rw [pushMessage, length_append, flatMap_cons, length_append, length_cons]
  omega

/-- The bundles `done` have been sent, the options `cur` are in the buffer. -/
structure Bundled (s : PushState) (done : List (List Bytes)) (cur : List Bytes) : Prop where
  capacity : s.buf.capacity = PUSH_BUNDLE_SIZE
  offset : s.buf.offset = 0
  contents : s.buf.contents = pushMessage cur
  length : (pushMessage cur).length ≤ 940
  sent : s.sent = done.map fun b => pushMessage (b ++ [continuationMore])
  short : ∀ b ∈ done, (pushMessage b).length ≤ 940
  pushSent : s.pushSent = !done.isEmpty
  multiPush : s.multiPush = !done.isEmpty

section Loop

variable {status : Nat → Bool}

variable {s : PushState} {done : List (List Bytes)}

theorem Bundled.print (h : Bundled s done cur) {l : Bytes}
    (hl : (pushMessage cur).length + l.length + 1 < 1024) :
    (bufPrintf s.buf (44 :: l)).contents = pushMessage (cur ++ [l]) := by
  rw [pushMessage_concat, ← h.contents]
  apply bufPrintf_contents
  rw [bufForwardCapacity, h.capacity, h.offset, h.contents, PUSH_BUNDLE_SIZE, length_cons]
  omega

variable (hstatus : ∀ n, status n = true)

include hstatus

theorem sendControlChannelString_ok (s : PushState) :
    sendControlChannelString status s = some { s with sent := s.sent ++ [s.buf.contents] } :=
  if_pos (hstatus _)

theorem Bundled.flush (h : Bundled s done cur) :
    ∃ s', flushBundle status s = some s' ∧ Bundled s' (done ++ [cur]) [] := by
  have hlen := h.length
  have hmarker : continuationMore.length = 19 := by decide
  have hpr := h.print (l := continuationMore) (by omega)
  refine ⟨_, by rw [flushBundle, sendControlChannelString_ok hstatus, map_some], ?_⟩
  refine ⟨h.capacity, rfl, bufResetLen_cmd h.capacity, by decide, ?_, ?_, ?_, ?_⟩
  · show s.sent ++ [(bufPrintf s.buf (44 :: continuationMore)).contents] = _
    rw [hpr, h.sent, map_append, map_singleton]
  · intro b hb
    rcases mem_append.mp hb with hb | hb
    · exact h.short b hb
    · rw [mem_singleton.mp hb]
      exact hlen
  · simp
  · simp

/-- **One option.** It goes into the bundle at hand, or into a new one. -/
theorem Bundled.option (h : Bundled s done cur) {o : Bytes} (ho : o.length ≤ 255) :
    ∃ s' done' cur', sendPushOption status 940 s o = some s' ∧ Bundled s' done' cur' ∧
      done'.flatten ++ cur' = done.flatten ++ cur ++ [o] := by
  -- after a flush there is room for every option
  obtain ⟨s1, done1, cur1, hflush, h1, hsame, hroom⟩ : ∃ s1 done1 cur1,
      (if 940 ≤ s.buf.contents.length + o.length then flushBundle status s else some s) =
          some s1 ∧ Bundled s1 done1 cur1 ∧ done1.flatten ++ cur1 = done.flatten ++ cur ∧
        (pushMessage cur1).length + o.length < 940 := by
    rw [h.contents]
    by_cases hfull : 940 ≤ (pushMessage cur).length + o.length
    · obtain ⟨s', hs', h'⟩ := h.flush hstatus
      have hcmd : (pushMessage []).length = 10 := by decide
      exact ⟨s', done ++ [cur], [], by rw [if_pos hfull, hs'], h', by simp, by omega⟩
    · exact ⟨s, done, cur, by rw [if_neg hfull], h, rfl, by omega⟩
  have hpr := h1.print (l := o) (by omega)
  have hlen : (pushMessage (cur1 ++ [o])).length ≤ 940 := by
    rw [pushMessage_concat, length_append, length_cons]
    omega
  refine ⟨{ s1 with buf := bufPrintf s1.buf (44 :: o) }, done1, cur1 ++ [o], ?_,
    ⟨h1.capacity, h1.offset, hpr, hlen, h1.sent, h1.short, h1.pushSent, h1.multiPush⟩, ?_⟩
  · rw [sendPushOption, hflush, bind_some, if_neg (by rw [h1.contents]; omega)]
  · rw [← append_assoc, hsame]

theorem Bundled.options {entries : List PushEntry}
    (hents : ∀ o ∈ enabledOptions entries, o.length ≤ 255) (h : Bundled s done cur) :
    ∃ s' done' cur', sendPushOptions status 940 s entries = some s' ∧ Bundled s' done' cur' ∧
      done'.flatten ++ cur' = done.flatten ++ cur ++ enabledOptions entries := by
  induction entries generalizing s done cur with
  | nil => exact ⟨s, done, cur, rfl, h, by simp [enabledOptions]⟩
  | cons e entries ih =>
    by_cases henable : e.enable = true
    · have hopts : enabledOptions (e :: entries) = e.option :: enabledOptions entries := by
        simp [enabledOptions, henable]
      rw [hopts, forall_mem_cons] at hents
      obtain ⟨s1, done1, cur1, hs1, h1, hsame1⟩ := h.option hstatus hents.1
      obtain ⟨s2, done2, cur2, hs2, h2, hsame2⟩ := ih hents.2 h1
      refine ⟨s2, done2, cur2, ?_, h2, ?_⟩
      · rw [sendPushOptions, if_pos henable, hs1, bind_some, hs2]
      · rw [hsame2, hsame1, hopts, append_assoc, singleton_append]
    · have hopts : enabledOptions (e :: entries) = enabledOptions entries := by
        simp [enabledOptions, henable]
      rw [hopts] at hents ⊢
      obtain ⟨s', done', cur', hs', h', hsame⟩ := ih hents h
      exact ⟨s', done', cur', by rw [sendPushOptions, if_neg henable, hs'], h', hsame⟩

/-- **The end of a reply.** -/
theorem Bundled.finish (h : Bundled s done cur) :
    finishPushReply status s = some ((replyLines (done ++ [cur])).map pushMessage) := by
  have hlen := h.length
  by_cases hdone : done = []
  · subst hdone
    have hmulti : s.multiPush = false := h.multiPush
    have hpush : s.pushSent = false := h.pushSent
    have hsent : s.sent = [] := h.sent
    have hmark : markLast s = s := if_neg (by simp [hmulti])
    rw [finishPushReply, hmark, h.contents]
    by_cases hcur : cur = []
    · subst hcur
      rw [if_neg (by decide), bind_some, if_neg (by simp [hpush]),
        sendControlChannelString_ok hstatus, map_some]
      dsimp only
      rw [bufResetLen_cmd h.capacity, hsent]
      rfl
    · rw [if_pos (pushMessage_length_lt hcur), sendControlChannelString_ok hstatus]
      simp [hsent, h.contents, replyLines]
  · have hmulti : s.multiPush = true := by simp [h.multiPush, hdone]
    have hmarker : continuationLast.length = 19 := by decide
    have hpr := h.print (l := continuationLast) (by omega)
    rw [finishPushReply, markLast, if_pos hmulti, hpr,
      if_pos (pushMessage_length_lt (append_ne_nil_of_right_ne_nil _ (by simp))),
      sendControlChannelString_ok hstatus, replyLines_concat cur hdone]
    simp [hpr, h.sent]

end Loop

/-! ## The client -/

theorem pushedLines_nil : pushedLines [] = [] := by
  rw [pushedLines]
  split
  case h_1 => rfl
  case h_2 line rest hp => simp [bufParse, bufParseLoop] at hp

theorem pushedLines_field {buf line rest : Bytes}
    (hp : bufParse 44 OPTION_PARM_SIZE buf = (true, line, rest)) :
    pushedLines buf = line :: pushedLines rest := by
  rw [pushedLines]
  split
  case h_1 _ _ hparse' => cases hparse'.symm.trans hp
  case h_2 _ _ hparse' =>
    cases hparse'.symm.trans hp
    rfl

/-- A line that survives the cutting of a message. -/
structure PlainLine (l : Bytes) : Prop where
  text_string : 0 ∉ l
  no_comma : 44 ∉ l
  length : l.length ≤ 255

theorem Pushable.plainLine {o : Bytes} (h : Pushable o) : PlainLine o :=
  ⟨h.text_string, h.no_comma, h.length⟩

theorem PlainLine.parse {l : Bytes} (h : PlainLine l) {d : UInt8} (hd : d = 0 ∨ d = 44)
    (rest : Bytes) : bufParse 44 OPTION_PARM_SIZE (l ++ d :: rest) = (true, l, rest) := by
  have hplain : ∀ c ∈ l, ¬(c = 0 ∨ c = 44) := by
    intro c hc hend
    rcases hend with rfl | rfl
    · exact h.text_string hc
    · exact h.no_comma hc
  exact bufParse_field hd rest hplain (Nat.lt_succ_of_le h.length)

theorem pushedLines_join {l : Bytes} {ls : List Bytes} (hl : PlainLine l)
    (hls : ∀ l' ∈ ls, PlainLine l') :
    pushedLines (l ++ ((ls.flatMap fun l' => 44 :: l') ++ [0])) = l :: ls := by
  induction ls generalizing l with
  | nil =>
    rw [flatMap_nil, nil_append, pushedLines_field (hl.parse (.inl rfl) []), pushedLines_nil]
  | cons l' ls ih =>
    rw [forall_mem_cons] at hls
    rw [flatMap_cons, append_assoc, cons_append,
      pushedLines_field (hl.parse (.inr rfl) _), ih hls.1 hls.2]

variable {lines : List Bytes}

theorem receivedLines_pushMessage (h : ∀ l ∈ lines, PlainLine l) :
    receivedLines (pushMessage lines ++ [0]) = lines := by
  have hcmd : pushReplyCmd.isPrefixOf (pushMessage lines ++ [0]) = true := by
    rw [pushMessage, append_assoc]
    exact isPrefixOf_iff_prefix.mpr (prefix_append _ _)
  rw [receivedLines, if_pos hcmd, pushMessage, append_assoc, drop_left]
  cases lines with
  | nil => rfl
  | cons l ls =>
    rw [forall_mem_cons] at h
    rw [flatMap_cons, append_assoc, cons_append]
    exact pushedLines_join h.1 h.2

/-! ## The round trip -/

theorem mem_replyLines {done : List (List Bytes)} (h : lines ∈ replyLines (done ++ [cur])) :
    ∃ b ∈ done ++ [cur], lines = b ∨ lines = b ++ [continuationMore] ∨
      lines = b ++ [continuationLast] := by
  by_cases hdone : done = []
  · subst hdone
    exact ⟨cur, by simp, .inl (mem_singleton.mp h)⟩
  · rw [replyLines_concat cur hdone] at h
    rcases mem_append.mp h with h | h
    · obtain ⟨b, hb, rfl⟩ := mem_map.mp h
      exact ⟨b, mem_append_left _ hb, .inr (.inl rfl)⟩
    · exact ⟨cur, by simp, .inr (.inr (mem_singleton.mp h))⟩

theorem Bundled.replyLines_plain {s : PushState} {done : List (List Bytes)} (h : Bundled s done cur)
    (hplain : ∀ o ∈ done.flatten ++ cur, PlainLine o)
    (hls : lines ∈ replyLines (done ++ [cur])) :
    (∀ l ∈ lines, PlainLine l) ∧ (pushMessage lines).length < PUSH_BUNDLE_SIZE := by
  obtain ⟨b, hb, hshape⟩ := mem_replyLines hls
  have hmarkers : PlainLine continuationMore ∧ PlainLine continuationLast :=
    ⟨⟨by decide, by decide, by decide⟩, ⟨by decide, by decide, by decide⟩⟩
  have hsh : (pushMessage b).length ≤ 940 := by
    rcases mem_append.mp hb with hb | hb
    · exact h.short b hb
    · rw [mem_singleton.mp hb]
      exact h.length
  have hbplain : ∀ l ∈ b, PlainLine l := by
    intro l hl
    apply hplain
    rcases mem_append.mp hb with hb | hb
    · exact mem_append_left _ (mem_flatten.mpr ⟨b, hb, hl⟩)
    · exact mem_append_right _ (mem_singleton.mp hb ▸ hl)
  have hmarked : ∀ m, m.length ≤ 19 → PlainLine m → (∀ l ∈ b ++ [m], PlainLine l) ∧
      (pushMessage (b ++ [m])).length < PUSH_BUNDLE_SIZE := by
    intro m hm hmplain
    refine ⟨?_, ?_⟩
    · intro l hl
      rcases mem_append.mp hl with hl | hl
      · exact hbplain l hl
      · rw [mem_singleton.mp hl]
        exact hmplain
    · rw [pushMessage_concat, length_append, length_cons, PUSH_BUNDLE_SIZE]
      omega
  rcases hshape with rfl | rfl | rfl
  · exact ⟨hbplain, by rw [PUSH_BUNDLE_SIZE]; omega⟩
  · exact hmarked _ (by decide) hmarkers.1
  · exact hmarked _ (by decide) hmarkers.2

/-- **Push reply round trip.** The enabled options are sent in bundles: every message is
shorter than the buffer, so that nothing was cut off, several messages carry the
continuation markers, and the client cuts each message into the options of its bundle
and the marker. -/
theorem push_reply_round_trip (status : Nat → Bool) (hstatus : ∀ n, status n = true)
    (common perClient : List PushEntry)
    (hoptions : ∀ o ∈ enabledOptions common ++ enabledOptions perClient, Pushable o) :
    ∃ bundles, bundles ≠ [] ∧
      bundles.flatten = enabledOptions common ++ enabledOptions perClient ∧
      sendPushReply status common perClient = some ((replyLines bundles).map pushMessage) ∧
      (∀ lines ∈ replyLines bundles, (pushMessage lines).length < PUSH_BUNDLE_SIZE ∧
        receivedLines (pushMessage lines ++ [0]) = lines) := by
  have hstart : Bundled ⟨bufPrintf ⟨PUSH_BUNDLE_SIZE, 0, [], pushBuf_fits⟩ pushReplyCmd, false,
      false, []⟩ [] [] :=
    ⟨rfl, rfl, rfl, by decide, rfl, by simp, rfl, rfl⟩
  obtain ⟨s1, done1, cur1, hs1, h1, hsame1⟩ := hstart.options hstatus fun o ho =>
    (hoptions o (mem_append_left _ ho)).length
  obtain ⟨s2, done2, cur2, hs2, h2, hsame2⟩ := h1.options hstatus fun o ho =>
    (hoptions o (mem_append_right _ ho)).length
  have hall : done2.flatten ++ cur2 = enabledOptions common ++ enabledOptions perClient := by
    rw [hsame2, hsame1]
    rfl
  have hcap : bufForwardCapacity ⟨PUSH_BUNDLE_SIZE, 0, [], pushBuf_fits⟩ - 84 = 940 := by decide
  refine ⟨done2 ++ [cur2], by simp, by simpa using hall, ?_, ?_⟩
  · rw [sendPushReply, hcap, hs1, bind_some, hs2, bind_some, h2.finish hstatus]
  · intro lines hlines
    obtain ⟨hplain, hshort⟩ := h2.replyLines_plain
      (fun o ho => (hoptions o (hall ▸ ho)).plainLine) hlines
    exact ⟨hshort, receivedLines_pushMessage hplain⟩

/-- Twelve common options of ninety characters and one for the client do not fit into one
message; one that is switched off is not sent. -/
theorem push_reply_round_trip_two :
    ∃ bundles, 2 ≤ bundles.length ∧
      bundles.flatten = replicate 12 (replicate 90 97) ++ [ascii "peer-id 0"] ∧
      sendPushReply (fun _ => true)
          (⟨false, ascii "ping 10"⟩ :: replicate 12 ⟨true, replicate 90 97⟩)
          [⟨true, ascii "peer-id 0"⟩] = some ((replyLines bundles).map pushMessage) ∧
      ∀ lines ∈ replyLines bundles, receivedLines (pushMessage lines ++ [0]) = lines := by
  have hpushable : ∀ o ∈ replicate 12 (replicate 90 97) ++ [ascii "peer-id 0"],
      Pushable o := by
    intro o ho
    rcases mem_append.mp ho with ho | ho
    · rw [eq_of_mem_replicate ho]
      exact ⟨by decide, by simp, by simp, by simp⟩
    · rw [mem_singleton.mp ho]
      exact ⟨by decide, by decide, by decide, by decide⟩
  obtain ⟨bundles, hne, hflatten, hsent, hlines⟩ := push_reply_round_trip (fun _ => true)
    (fun _ => rfl) (⟨false, ascii "ping 10"⟩ :: replicate 12 ⟨true, replicate 90 97⟩)
    [⟨true, ascii "peer-id 0"⟩] hpushable
  refine ⟨bundles, ?_, hflatten, hsent, fun lines hmem => (hlines lines hmem).2⟩
  match bundles, hne, hflatten, hlines with
  | [b], _, hflatten, hlines =>
    have hshort := (hlines b mem_cons_self).1
    have hb : b = replicate 12 (replicate 90 97) ++ [ascii "peer-id 0"] :=
      flatten_singleton.symm.trans hflatten
    simp only [hb, pushMessage, flatMap_append, length_append, length_flatMap, map_replicate,
      sum_replicate_nat, length_cons, length_replicate, PUSH_BUNDLE_SIZE] at hshort
    omega
  | _ :: _ :: _, _, _, _ => exact Nat.le_add_left 2 _

end OpenVpn
