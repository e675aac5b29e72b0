import Mathlib.Data.List.TakeWhile
import OpenVpn.Base.CString
import OpenVpn.Util.Buffer

/-!
# Commands on the control channel

A message on the control channel holds commands that end with a NUL. `extract_command_buffer`
takes the first of them; the loop of `check_incoming_control_channel` goes on while more than
one byte is left, so an empty command at the very end is not seen. Before a message is logged,
`sanitize_control_message` hides what follows certain texts.

* `extractCommandBuffer_segment` — one call takes one segment.
* `control_commands_extracted` — the loop takes all of them but an empty last one.
* `log_redaction_noninterfering` — the log does not depend on the texts that are hidden.
-/

namespace OpenVpn

open Base List

/-- `CC_CRLF | CC_NULL` -/
def ccCrlfNull (c : UInt8) : Bool := c == 13 || c == 10 || c == 0

/-- `CC_PRINT | CC_NULL`, but not `CC_CRLF` -/
def controlChar (c : UInt8) : Bool := (ccPrint c || c == 0) && !(c == 13 || c == 10)

def bufChomp (cap : Nat) (buf : Bytes) : Bytes :=
  bufNullTerminate cap (buf.rdropWhile ccCrlfNull)

/-- The command, and what is left of the message. -/
def extractCommandBuffer (buf : Bytes) : Option (Bytes × Bytes) :=
  let cmdlen := (buf.takeWhile (· ≠ 0)).length
  if buf.length ≤ cmdlen then some ([], buf.drop cmdlen)
  -- the buffer of the command is allocated with `alloc_buf_gc`
  else if cmdlen + 1 < BUF_SIZE_MAX then
    let cmdbuf := bufChomp (cmdlen + 1) (buf.take (cmdlen + 1))
    some (if cmdbuf.all controlChar then cmdbuf else [], buf.drop (cmdlen + 1))
  else none

theorem extractCommandBuffer_rest {buf cmd rest : Bytes} (hlen : 1 < buf.length)
    (h : extractCommandBuffer buf = some (cmd, rest)) : rest.length < buf.length := by
  grind [extractCommandBuffer]

/-- The commands that the loop takes from a message. -/
def controlCommands (buf : Bytes) : Option (List Bytes) :=
  if _hlen : 1 < buf.length then
    match _hcmd : extractCommandBuffer buf with
    | none => none
    | some (cmd, rest) => (controlCommands rest).map (cmd :: ·)
  else some []
  termination_by buf.length
  decreasing_by exact extractCommandBuffer_rest _hlen _hcmd

/-- The commands that are executed. -/
def checkIncomingControlChannel (buf : Bytes) : Option (List Bytes) :=
  (controlCommands buf).map fun cmds => cmds.filter fun cmd => 0 < cmd.length

/-! ## Segments -/

def command (seg : Bytes) : Bytes :=
  if (chomp seg).all ccPrint then chomp seg ++ [0] else []

variable {buf seg rest : Bytes}

theorem controlChar_eq {c : UInt8} (h : c ≠ 0) : controlChar c = ccPrint c := by
  by_cases hcrlf : c = 13 ∨ c = 10
  · rcases hcrlf with rfl | rfl <;> rfl
  · have hcr : (c == 13) = false := by grind
    have hlf : (c == 10) = false := by grind
    simp [controlChar, hcr, hlf, beq_false_of_ne h]

theorem bufChomp_eq {cap : Nat} (hroom : (buf.rdropWhile ccCrlfNull).length < cap) :
    bufChomp cap buf = buf.rdropWhile ccCrlfNull ++ [0] := by
  have hlast : (buf.rdropWhile ccCrlfNull).getLast? ≠ some 0 := by
    intro h
    have hne : buf.rdropWhile ccCrlfNull ≠ [] := by
      rintro hnil
      simp [hnil] at h
    rw [getLast?_eq_some_getLast hne, Option.some_inj] at h
    exact rdropWhile_last_not ccCrlfNull _ hne (by rw [h]; rfl)
  rw [bufChomp, bufNullTerminate, if_neg hlast, if_pos hroom, bufWriteU8, if_pos hroom]

theorem rdropWhile_crlf (hseg : 0 ∉ seg) : (seg ++ [0]).rdropWhile ccCrlfNull = chomp seg := by
  rw [rdropWhile_concat_pos _ _ _ rfl]
  induction seg using reverseRecOn with
  | nil => rfl
  | append_singleton seg c ih => grind [chomp, rdropWhile_concat, ccCrlfNull]

theorem extractCommandBuffer_segment (hseg : 0 ∉ seg) (hlen : seg.length + 1 < BUF_SIZE_MAX)
    (rest : Bytes) : extractCommandBuffer (seg ++ 0 :: rest) = some (command seg, rest) := by
  have htake : (seg ++ 0 :: rest).takeWhile (· ≠ 0) = seg := by
    rw [takeWhile_append_of_pos fun c hc => by simpa using ne_of_mem_of_not_mem hc hseg,
      takeWhile_cons_of_neg (by simp), append_nil]
  have htext := rdropWhile_crlf hseg
  have hsub : chomp seg <+: seg := rdropWhile_prefix _ seg
  have hchomp : bufChomp (seg.length + 1) (seg ++ [0]) = chomp seg ++ [0] := by
    rw [← htext]
    exact bufChomp_eq (by rw [htext]; exact Nat.lt_succ_of_le hsub.length_le)
  have hval : (chomp seg ++ [0]).all controlChar = (chomp seg).all ccPrint := by
    rw [all_append, show [(0 : UInt8)].all controlChar = true from rfl, Bool.and_true,
      Bool.eq_iff_iff, all_eq_true, all_eq_true]
    refine forall₂_congr fun c hc => ?_
    rw [controlChar_eq (ne_of_mem_of_not_mem (hsub.subset hc) hseg)]
  rw [extractCommandBuffer, htake, if_neg (by simp), if_pos hlen,
    show (seg ++ 0 :: rest).take (seg.length + 1) = seg ++ [0] from take_length_add_append 1]
  simp only [hchomp, hval]
  simp [command]

/-- What a call finds: a segment, or only bytes after the last NUL. -/
theorem extractCommandBuffer_cases (hlen : buf.length < BUF_SIZE_MAX) :
    (0 ∉ buf ∧ extractCommandBuffer buf = some ([], [])) ∨
    ∃ seg rest, buf = seg ++ 0 :: rest ∧ 0 ∉ seg ∧
      extractCommandBuffer buf = some (command seg, rest) := by
  by_cases hmem : 0 ∈ buf
  · obtain ⟨seg, rest, rfl, hseg⟩ := eq_append_cons_of_mem hmem
    refine .inr ⟨seg, rest, rfl, hseg, extractCommandBuffer_segment hseg ?_ rest⟩
    simp only [length_append, length_cons] at hlen
    omega
  · have htake : buf.takeWhile (· ≠ 0) = buf :=
      takeWhile_eq_self_iff.mpr fun c hc => by simpa using ne_of_mem_of_not_mem hc hmem
    refine .inl ⟨hmem, ?_⟩
    rw [extractCommandBuffer, htake, if_pos le_rfl, drop_length]

/-- The segments that the loop reaches: all that end with a NUL, but not an empty one at the end
of the message. -/
def loopSegments (buf : Bytes) : List Bytes :=
  let segs := buf.splitOn 0
  if [[], []] <:+ segs then segs.dropLast.dropLast else segs.dropLast

theorem loopSegments_of_notMem (hbuf : 0 ∉ buf) : loopSegments buf = [] := by
  rw [loopSegments, splitOn_eq_singleton hbuf, if_neg fun h => by simpa using h.length_le]
  rfl

theorem loopSegments_segment (hseg : 0 ∉ seg) (hlen : 1 < (seg ++ 0 :: rest).length) :
    loopSegments (seg ++ 0 :: rest) = seg :: loopSegments rest := by
  have hne : rest.splitOn 0 ≠ [] := splitOn_ne_nil 0 rest
  have hend : [[], []] ≠ seg :: rest.splitOn 0 := by
    intro h
    obtain ⟨rfl, hrest⟩ := cons.inj h
    have hnil : rest = [] := (intercalate_splitOn 0).symm.trans (by rw [← hrest]; rfl)
    simp [hnil] at hlen
  rw [loopSegments, splitOn_append_cons_self_of_not_mem hseg, loopSegments]
  simp only [suffix_cons_iff, hend, false_or, dropLast_cons_of_ne_nil hne]
  split
  case isFalse => rfl
  case isTrue h =>
    obtain ⟨init, hinit⟩ := h
    rw [← hinit, dropLast_append_cons, dropLast_cons_of_ne_nil (by simp)]

theorem controlCommands_eq (hlen : buf.length < BUF_SIZE_MAX) : ∃ tail : List Bytes,
    (tail = [] ∨ tail = [[]]) ∧
      controlCommands buf = some ((loopSegments buf).map command ++ tail) := by
  fun_induction controlCommands buf with
  | case1 buf hlong hcmd =>
    rcases extractCommandBuffer_cases hlen with ⟨-, h⟩ | ⟨_, _, -, -, h⟩ <;>
      cases hcmd.symm.trans h
  | case2 buf hlong cmd rest hcmd ih =>
    rcases extractCommandBuffer_cases hlen with ⟨hbuf, h⟩ | ⟨seg, rest', rfl, hseg, h⟩
    · cases hcmd.symm.trans h
      refine ⟨[[]], .inr rfl, ?_⟩
      rw [controlCommands, dif_neg (by simp), loopSegments_of_notMem hbuf]
      rfl
    · cases hcmd.symm.trans h
      obtain ⟨tail, htail, heq⟩ := ih (by simp at hlen; omega)
      exact ⟨tail, htail, by rw [heq, loopSegments_segment hseg hlong]; rfl⟩
  | case3 buf hsh =>
    refine ⟨[], .inl rfl, ?_⟩
    by_cases hbuf : 0 ∈ buf
    · obtain rfl : buf = [0] := by
        grind [length_eq_one_iff, length_pos_of_mem]
      rfl
    · rw [loopSegments_of_notMem hbuf]
      rfl

/-- **Commands of a message.** The loop ends, and takes the segments one after the other, each
for itself; then it finds at most the bytes after the last NUL, of which nothing is executed. -/
theorem control_commands_extracted (hlen : buf.length < BUF_SIZE_MAX) :
    (∃ tail : List Bytes, (tail = [] ∨ tail = [[]]) ∧
      controlCommands buf = some ((loopSegments buf).map command ++ tail)) ∧
    checkIncomingControlChannel buf =
      some (((loopSegments buf).map command).filter fun cmd => 0 < cmd.length) := by
  obtain ⟨tail, htail, heq⟩ := controlCommands_eq hlen
  refine ⟨⟨tail, htail, heq⟩, ?_⟩
  rw [checkIncomingControlChannel, heq, Option.map_some, filter_append]
  rcases htail with rfl | rfl <;> simp

/-- A message with an empty command and a rest. -/
theorem control_commands_three : checkIncomingControlChannel [65, 13, 10, 0, 0, 66, 0, 67] =
    some [[65, 0], [0], [66, 0]] :=
  (control_commands_extracted (by decide)).2

/-- The last of two segments is empty, and is not extracted. -/
theorem last_empty_command_skipped : controlCommands [65, 0, 0] = some [[65, 0]] ∧
    ([65, 0, 0].splitOn (0 : UInt8)).dropLast.map command = [[65, 0], [0]] := by
  have hcmd : extractCommandBuffer [65, 0, 0] = some ([65, 0], [0]) := rfl
  have hrest : controlCommands [0] = some [] := by rw [controlCommands, dif_neg (by decide)]
  refine ⟨?_, rfl⟩
  rw [controlCommands, dif_pos (by decide)]
  split
  case h_1 h => cases h.symm.trans hcmd
  case h_2 h =>
    cases h.symm.trans hcmd
    rw [hrest]
    rfl

/-! ## What is logged -/

/-- The state of the scanner at a character `c`, which starts `src`. -/
def startRedact (showKeys : Bool) (c : UInt8) (src : Bytes) (st : Bool × Nat) : Bool × Nat :=
  if c = 83 ∧ ascii "SESS_ID_" <+: src then (true, 7)
  else if c = 101 ∧ ascii "echo " <+: src then (true, 4)
  else if ¬showKeys ∧ c = 97 ∧ ascii "auth-token " <+: src then (true, 10)
  else st

/-- The loop of `sanitize_control_message`; `showKeys` stands for `check_debug_level`. -/
def sanitizeLoop (showKeys : Bool) : (st : Bool × Nat) → (src : Bytes) → Bytes
  | _, [] => []
  | st, c :: src =>
    let (redact, skip) := if c = 44 then (false, 0) else startRedact showKeys c (c :: src) st
    if redact then
      if 0 < skip then c :: sanitizeLoop showKeys (redact, skip - 1) src
      else sanitizeLoop showKeys (redact, skip) src
    else c :: sanitizeLoop showKeys (redact, skip) src

def sanitizeControlMessage (showKeys : Bool) (src : Bytes) : Bytes :=
  sanitizeLoop showKeys (false, 0) src

def hiddenMarkers : List Bytes := [ascii "SESS_ID_", ascii "echo ", ascii "auth-token "]

/-- A text that is hidden: it is part of one item and contains no marker. -/
structure Secret (s : Bytes) : Prop where
  item : 44 ∉ s
  unmarked : ∀ k ∈ hiddenMarkers, ¬k <:+: s

/-- An item ends before `rest`. -/
def ItemEnd (rest : Bytes) : Prop := ∀ c ∈ rest.head?, c = 44

/-- Messages that differ only in the texts between a marker and the end of its item. -/
inductive EqualButHidden : Bytes → Bytes → Prop
  | nil : EqualButHidden [] []
  | cons (c : UInt8) {m m' : Bytes} : EqualButHidden m m' → EqualButHidden (c :: m) (c :: m')
  | hidden {k s s' rest rest' : Bytes} : k ∈ hiddenMarkers → Secret s → Secret s' → ItemEnd rest →
      ItemEnd rest' → EqualButHidden rest rest' →
      EqualButHidden (k ++ (s ++ rest)) (k ++ (s' ++ rest'))

section Redaction

variable {c : UInt8} {k t m m' s rest : Bytes} {st : Bool × Nat}

theorem startRedact_of_not (h : ∀ k ∈ hiddenMarkers, ¬k <+: m) (showKeys : Bool) :
    startRedact showKeys c m st = st := by
  simp only [hiddenMarkers, forall_mem_cons] at h
  simp [startRedact, h]

/-- No marker continues the rest of a marker. -/
theorem marker_prefix_suffix {k' : Bytes} (hk : k ∈ hiddenMarkers) (hk' : k' ∈ hiddenMarkers)
    (hsuf : t <:+ k') (h : k <+: t) : t <+: k := by
  have hall : (hiddenMarkers.all fun k => hiddenMarkers.all fun k' => k'.tails.all fun t =>
    !k.isPrefixOf t || t.isPrefixOf k) = true := rfl
  have hchk := all_eq_true.mp (all_eq_true.mp (all_eq_true.mp hall k hk) k' hk') t
    ((mem_tails t k').mpr hsuf)
  simpa [ isPrefixOf_iff_prefix.mpr h] using hchk

theorem EqualButHidden.prefix_iff (h : EqualButHidden m m') (hk : k ∈ hiddenMarkers)
    (ht : t <:+ k) : t <+: m ↔ t <+: m' := by
  induction h generalizing t with
  | nil => exact Iff.rfl
  | cons c h ih =>
    cases t with
    | nil => simp
    | cons d t => simp only [cons_prefix_cons, ih ((suffix_cons d t).trans ht)]
  | @hidden k' s s' rest rest' hk' _ _ _ _ _ _ =>
    have hinside : ∀ x, t <+: k' ++ x ↔ t <+: k' := by
      refine fun x => ⟨fun h => ?_, fun h => h.trans (prefix_append k' x)⟩
      obtain h | h := prefix_or_prefix_of_prefix h (prefix_append k' x)
      · exact h
      · exact marker_prefix_suffix hk' hk ht h
    rw [hinside, hinside]

theorem sanitizeLoop_marker (hk : k ∈ hiddenMarkers) (m : Bytes) :
    sanitizeLoop false st (k ++ m) = k.dropLast ++ sanitizeLoop false (true, 0) m := by
  simp only [hiddenMarkers, mem_cons, not_mem_nil, or_false] at hk
  rcases hk with rfl | rfl | rfl <;> rfl

/-- A marker that starts in an item ends in it. -/
theorem ItemEnd.within (hrest : ItemEnd rest) (hk : 44 ∉ k) (h : k <+: s ++ rest) : k <+: s := by
  obtain h' | ⟨u, rfl⟩ := prefix_or_prefix_of_prefix h (prefix_append s rest)
  · exact h'
  · have hu := (prefix_append_right_inj s).mp h
    cases u with
    | nil => simp
    | cons c u =>
      obtain ⟨v, rfl⟩ := hu
      have hc : c = 44 := hrest c rfl
      simp [hc] at hk

theorem Secret.sanitizeLoop (hs : Secret s) (hrest : ItemEnd rest) :
    sanitizeLoop false (true, 0) (s ++ rest) = sanitizeLoop false (true, 0) rest := by
  induction s with
  | nil => rfl
  | cons c s ih =>
    have hcomma : ∀ k ∈ hiddenMarkers, (44 : UInt8) ∉ k := by decide
    have hkeep : startRedact false c (c :: (s ++ rest)) (true, 0) = (true, 0) := startRedact_of_not
      (fun k hk h => hs.unmarked k hk (hrest.within (hcomma k hk) h).isInfix) false
    have htail : Secret s := ⟨fun h => hs.item (mem_cons_of_mem c h),
      fun k hk h => hs.unmarked k hk (h.trans (suffix_cons c s).isInfix)⟩
    have hc : c ≠ 44 := fun h => hs.item (by simp [h])
    rw [cons_append, OpenVpn.sanitizeLoop, if_neg hc, hkeep]
    exact ih htail

theorem EqualButHidden.sanitizeLoop (h : EqualButHidden m m') :
    sanitizeLoop false st m = sanitizeLoop false st m' := by
  induction h generalizing st with
  | nil => rfl
  | @cons c m m' h ih =>
    -- the scanner looks ahead for markers, which start in both or in none
    have hahead : ∀ k ∈ hiddenMarkers, k <+: c :: m ↔ k <+: c :: m' := fun k hk =>
      (EqualButHidden.cons c h).prefix_iff hk (suffix_refl k)
    simp only [hiddenMarkers, forall_mem_cons] at hahead
    have hstart : startRedact false c (c :: m) st = startRedact false c (c :: m') st := by
      simp [startRedact, hahead]
    simp only [OpenVpn.sanitizeLoop, hstart, ih]
  | hidden hk hs hs' hrest hrest' _ ih =>
    rw [sanitizeLoop_marker hk, sanitizeLoop_marker hk, hs.sanitizeLoop hrest,
      hs'.sanitizeLoop hrest', ih]

theorem sanitizeLoop_unmarked (h : ∀ k ∈ hiddenMarkers, ¬k <:+: m) (showKeys : Bool) :
    sanitizeLoop showKeys (false, 0) m = m := by
  induction m with
  | nil => rfl
  | cons c m ih =>
    have hkeep : startRedact showKeys c (c :: m) (false, 0) = (false, 0) :=
      startRedact_of_not (fun k hk hp => h k hk hp.isInfix) showKeys
    have htail := ih fun k hk hi => h k hk (hi.trans (suffix_cons c m).isInfix)
    simp only [sanitizeLoop, hkeep, ite_self]
    rw [if_neg Bool.false_ne_true, htail]

/-- **Redaction.** At normal verbosity, messages that differ in hidden texts only are logged
alike, and one without markers is logged as it is. -/
theorem log_redaction_noninterfering :
    (∀ m m', EqualButHidden m m' →
      sanitizeControlMessage false m = sanitizeControlMessage false m') ∧
    ∀ m, (∀ k ∈ hiddenMarkers, ¬k <:+: m) → sanitizeControlMessage false m = m :=
  ⟨fun _ _ h => h.sanitizeLoop, fun _ h => sanitizeLoop_unmarked h false⟩

/-- Tokens of different lengths. -/
theorem log_redaction_noninterfering_token :
    sanitizeControlMessage false (ascii "auth-token " ++ ([65] ++ [44, 66])) =
      sanitizeControlMessage false (ascii "auth-token " ++ ([67, 68] ++ [44, 66])) :=
  log_redaction_noninterfering.1 _ _ (.hidden (by decide) ⟨by decide, by decide⟩
    ⟨by decide, by decide⟩ (by simp [ItemEnd]) (by simp [ItemEnd]) (.cons 44 (.cons 66 .nil)))

end Redaction

end OpenVpn
