import Mathlib.Data.List.Infix
import OpenVpn.Util.Buffer

/-!
# Splitting a buffer into lines

`buf_parse` is called until it returns false. It reads a byte before it looks for room in the
line, and then ends the line in its last cell, so a segment that does not fit loses two bytes
at every break (one of them may be the delimiter).

* `bufParse_cases` — one call: a segment that fits, the end of the buffer, or a break.
* `line_split_iff` — no byte is lost exactly if every segment fits into the line.
-/

namespace OpenVpn

open Base List Prod

/-- The lines that repeated calls of `buf_parse` return. -/
def bufLines (delim : UInt8) (size : Nat) (buf : Bytes) : List Bytes :=
  match _hparse : bufParse delim size buf with
  | (false, _, _) => []
  | (true, line, rest) => line :: bufLines delim size rest
  termination_by buf.length
  decreasing_by exact bufParse_rest _hparse

variable {delim : UInt8} {size : Nat} {buf : Bytes}

/-- A call takes a segment, the rest of the buffer, or the start of a segment that is too long. -/
theorem bufParse_cases (delim : UInt8) (hsize : 2 ≤ size) (hnul : 0 ∉ buf) :
    (∃ seg rest, buf = seg ++ delim :: rest ∧ delim ∉ seg ∧ seg.length < size ∧
      bufParse delim size buf = (true, seg, rest)) ∨
    (delim ∉ buf ∧ buf.length < size ∧ bufParse delim size buf = (!buf.isEmpty, buf, [])) ∨
    ∃ line rest, buf = line ++ rest ∧ delim ∉ line ∧ line.length = size ∧
      bufParse delim size buf = (true, line.take (size - 1), rest.drop 1) := by
  -- the first `size` characters decide: is there a delimiter among them, or the end?
  by_cases hmem : delim ∈ buf.take size
  · obtain ⟨seg, rest, htake, hseg⟩ := eq_append_cons_of_mem hmem
    have hlen : seg.length < size := by
      have := congrArg length htake
      simp at this
      omega
    obtain ⟨tail, hbuf⟩ : ∃ tail, buf = seg ++ delim :: tail :=
      ⟨rest ++ buf.drop size, by
        rw [← cons_append, ← append_assoc, ← htake, take_append_drop]⟩
    have hplain : ∀ c ∈ seg, ¬(c = 0 ∨ c = delim) := by
      rintro c hc (rfl | rfl)
      · exact hnul (by rw [hbuf]; simp [hc])
      · exact hseg hc
    refine .inl ⟨seg, _, hbuf, hseg, hlen, ?_⟩
    rw [hbuf]
    exact bufParse_field (.inr rfl) _ hplain hlen
  · have hplain : ∀ c ∈ buf.take size, ¬(c = 0 ∨ c = delim) := by
      rintro c hc (rfl | rfl)
      · exact hnul (mem_of_mem_take hc)
      · exact hmem hc
    have hloop : bufParseLoop delim size buf [] =
        bufParseLoop delim size (buf.drop size) (buf.take size) := by
      simpa using bufParseLoop_plain (buf.drop size) [] hplain (by simp)
    rcases Nat.lt_or_ge buf.length size with hlt | hge
    · rw [take_of_length_le hlt.le] at hmem hloop
      rw [drop_of_length_le hlt.le, bufParseLoop] at hloop
      refine .inr (.inl ⟨hmem, hlt, ?_⟩)
      rw [bufParse, hloop]
      simp only [take_of_length_le (Nat.le_sub_one_of_lt hlt), Bool.true_and]
    · refine .inr (.inr ⟨buf.take size, buf.drop size, by simp, hmem, by simpa using hge, ?_⟩)
      have hline : ((buf.take size).take (size - 1)).isEmpty = false := by
        cases buf <;> simp_all
        omega
      rw [bufParse, hloop]
      cases hrest : buf.drop size with
      | nil => simp [bufParseLoop, hline]
      | cons c rest => simp [bufParseLoop, hline, hge]

theorem exists_long_segment {line : Bytes} (hline : delim ∉ line) (rest : Bytes) :
    ∃ seg ∈ (line ++ rest).splitOn delim, line.length ≤ seg.length := by
  by_cases hmem : delim ∈ rest
  · obtain ⟨as, bs, rfl, has⟩ := eq_append_cons_of_mem hmem
    rw [← append_assoc, splitOn_append_cons_self_of_not_mem (by grind)]
    exact ⟨line ++ as, mem_cons_self, by simp⟩
  · rw [splitOn_eq_singleton (by grind)]
    exact ⟨line ++ rest, mem_cons_self, by simp⟩

theorem filter_segment {seg : Bytes} (hseg : delim ∉ seg) : seg.filter (· ≠ delim) = seg := by
  rw [filter_eq_self]
  grind

/-- The lines are parts of the buffer, and hold all of it iff every segment fits. -/
theorem bufLines_spec (hsize : 2 ≤ size) (hnul : 0 ∉ buf) :
    (bufLines delim size buf).flatten.length ≤ (buf.filter (· ≠ delim)).length ∧
      ((bufLines delim size buf).flatten = buf.filter (· ≠ delim) ↔
        ∀ seg ∈ buf.splitOn delim, seg.length < size) ∧
      ∀ line ∈ bufLines delim size buf, line.length ≤ size - 1 ∧ delim ∉ line ∧ line <:+: buf := by
  fun_induction bufLines delim size buf with
  | case1 buf line rest hp =>
    have hbuf : buf = [] := by
      rcases bufParse_cases delim hsize hnul with ⟨_, _, _, _, _, h⟩ | ⟨_, _, h⟩ |
        ⟨_, _, _, _, _, h⟩
      · cases hp.symm.trans h
      · have hemp := congrArg fst (hp.symm.trans h)
        simpa using hemp
      · cases hp.symm.trans h
    subst hbuf
    simp
    omega
  | case2 buf line rest hp ih =>
    rcases bufParse_cases delim hsize hnul with ⟨seg, rest', rfl, hseg, hlen, h⟩ |
      ⟨hdelim, hlen, h⟩ | ⟨full, rest', rfl, hfull, hlen, h⟩
    · cases hp.symm.trans h
      obtain ⟨hle, hiff, hls⟩ := ih (by simp at hnul; exact hnul.2.2)
      have hfilter : (line ++ delim :: rest).filter (· ≠ delim) =
          line ++ rest.filter (· ≠ delim) := by
        rw [filter_append, filter_segment hseg]
        simp
      rw [splitOn_append_cons_self_of_not_mem hseg, hfilter, flatten_cons,
        append_cancel_left_eq, hiff]
      refine ⟨by simpa using hle, by simp [hlen], forall_mem_cons.mpr
        ⟨⟨by omega, hseg, (prefix_append _ _).isInfix⟩, fun l hl => ?_⟩⟩
      obtain ⟨hl1, hl2, hl3⟩ := hls l hl
      exact ⟨hl1, hl2, hl3.trans ⟨line ++ [delim], [], by simp⟩⟩
    · obtain ⟨rfl, rfl⟩ := (mk.inj (hp.symm.trans h)).imp_right mk.inj |>.2
      obtain ⟨hle, -, hls⟩ := ih not_mem_nil
      have hnone : (bufLines delim size []).flatten = [] :=
        eq_nil_of_length_eq_zero (by simpa using hle)
      rw [splitOn_eq_singleton hdelim, filter_segment hdelim, flatten_cons, hnone, append_nil]
      refine ⟨le_rfl, by simp [hlen], forall_mem_cons.mpr
        ⟨⟨by omega, hdelim, infix_rfl⟩, fun l hl => ?_⟩⟩
      obtain ⟨hl1, hl2, hl3⟩ := hls l hl
      exact ⟨hl1, hl2, hl3.trans nil_infix⟩
    · cases hp.symm.trans h
      obtain ⟨hle, -, hls⟩ := ih (by grind)
      -- the last character of the full line is gone, so there are fewer than before
      have hlt : (full.take (size - 1) :: bufLines delim size (rest'.drop 1)).flatten.length <
          ((full ++ rest').filter (· ≠ delim)).length := by
        have hrest := ((rest'.drop_sublist 1).filter (· ≠ delim)).length_le
        rw [filter_append, filter_segment hfull, flatten_cons, length_append,
          length_append, length_take]
        omega
      obtain ⟨seg, hseg, hlong⟩ := exists_long_segment hfull rest'
      refine ⟨hlt.le, ⟨fun heq => absurd (congrArg length heq) hlt.ne, fun hall => ?_⟩,
        forall_mem_cons.mpr ⟨⟨by simp, ?_, ?_⟩, fun l hl => ?_⟩⟩
      · have := hall seg hseg
        omega
      · exact fun hmem => hfull (mem_of_mem_take hmem)
      · exact (( take_prefix _ _).trans (prefix_append _ _)).isInfix
      · obtain ⟨hl1, hl2, hl3⟩ := hls l hl
        exact ⟨hl1, hl2, hl3.trans ((rest'.drop_suffix 1).trans (suffix_append _ _)).isInfix⟩

/-- **Lines of a buffer.** The lines are parts of the buffer without a delimiter that leave
room for a NUL; together they have every byte of it but the delimiters exactly if each
segment is shorter than the line. -/
theorem line_split_iff (delim : UInt8) (hsize : 2 ≤ size) (hnul : 0 ∉ buf) :
    ((bufLines delim size buf).flatten = buf.filter (· ≠ delim) ∧
      ∀ line ∈ bufLines delim size buf, line.length ≤ size - 1 ∧ delim ∉ line ∧ line <:+: buf) ↔
    ∀ seg ∈ buf.splitOn delim, seg.length < size := by
  obtain ⟨-, hiff, hlines⟩ := bufLines_spec hsize hnul
  exact ⟨fun h => hiff.mp h.1, fun h => ⟨hiff.mpr h, hlines⟩⟩

/-- `ab cd` in lines of three characters. -/
theorem line_split_two_words : (bufLines 32 4 [97, 98, 32, 99, 100]).flatten = [97, 98, 99, 100] :=
  ((line_split_iff 32 (by decide) (by decide)).mpr (by decide)).1

/-- `abcd` in lines of two characters. -/
theorem long_segment_loses_bytes : bufLines 10 3 [97, 98, 99, 100] = [[97, 98]] := by
  have hparse : bufParse 10 3 [97, 98, 99, 100] = (true, [97, 98], []) := rfl
  have hend : bufParse 10 3 [] = (false, [], []) := rfl
  rw [bufLines]
  split
  case h_1 h => cases h.symm.trans hparse
  case h_2 h =>
    cases h.symm.trans hparse
    rw [bufLines]
    split
    case h_1 => rfl
    case h_2 h => cases h.symm.trans hend

end OpenVpn
