import Mathlib.Data.List.DropRight
import OpenVpn.Base.Bytes

/-!
# Bounded buffers

`struct buffer`: a window `[offset, offset + len)` into `capacity` bytes of
memory. Only the bytes of the window are ever read, so the model keeps them as a
list; that the window lies inside the memory is a field of the structure.
-/

namespace OpenVpn

open Base List

def BUF_SIZE_MAX : Nat := 1000000

structure Buffer where
  capacity : Nat
  offset : Nat
  contents : Bytes
  fits : offset + contents.length ≤ capacity
  deriving DecidableEq

def allocBuf (size : Nat) : Option Buffer :=
  if size < BUF_SIZE_MAX then some ⟨size, 0, [], by simp⟩ else none

/-- Empty the window and place it at `offset`. -/
def bufInit (buf : Buffer) (offset : Nat) : Option Buffer :=
  if h : offset ≤ buf.capacity then
    some { capacity := buf.capacity, offset, contents := [], fits := by simpa using h }
  else none

def bufSafe (buf : Buffer) (len : Nat) : Bool :=
  decide (len < BUF_SIZE_MAX) && decide (buf.offset + buf.contents.length + len ≤ buf.capacity)

/-- Append to the window. -/
def bufWrite (dest : Buffer) (src : Bytes) : Option Buffer :=
  if h : bufSafe dest src.length then
    some { dest with
      contents := dest.contents ++ src
      fits := by
        simp only [bufSafe, Bool.and_eq_true, decide_eq_true_eq] at h
        simp only [length_append]
        omega }
  else none

/-- Put bytes in front of the window, into the headroom. -/
def bufWritePrepend (dest : Buffer) (src : Bytes) : Option Buffer :=
  if h : src.length ≤ dest.offset then
    some
      { capacity := dest.capacity
        offset := dest.offset - src.length
        contents := src ++ dest.contents
        fits := by
          have := dest.fits
          simp only [length_append]
          omega }
  else none

/-- Drop bytes at the front of the window. -/
def bufAdvance (buf : Buffer) (size : Nat) : Option Buffer :=
  if h : size ≤ buf.contents.length then
    some
      { capacity := buf.capacity
        offset := buf.offset + size
        contents := buf.contents.drop size
        fits := by
          have := buf.fits
          rw [length_drop]
          omega }
  else none

/-- Widen the window over the bytes behind it, which hold `added`. -/
def bufExtend (buf : Buffer) (added : Bytes) : Option Buffer :=
  if h : buf.offset + (buf.contents.length + added.length) ≤ buf.capacity then
    some { buf with contents := buf.contents ++ added, fits := by rw [length_append]; exact h }
  else none

/-- Set the length of the window to `len`, if it is longer. -/
def bufTruncate (buf : Buffer) (len : Nat) : Buffer :=
  { buf with
    contents := buf.contents.take len
    fits := by
      have := buf.fits
      rw [length_take]
      omega }

def bufForwardCapacity (buf : Buffer) : Nat := buf.capacity - (buf.offset + buf.contents.length)

/-- `buf_printf` of a text: what does not fit with its NUL is cut off. -/
def bufPrintf (buf : Buffer) (text : Bytes) : Buffer :=
  { buf with
    contents := buf.contents ++ text.take (bufForwardCapacity buf - 1)
    fits := by
      have := buf.fits
      rw [length_append, length_take, bufForwardCapacity]
      omega }

def bufPuts (buf : Buffer) (str : Bytes) : Buffer := bufPrintf buf str

def chomp (str : Bytes) : Bytes := str.rdropWhile fun c => c = 13 ∨ c = 10

/-- `buf_write_u8` into a buffer of `cap` bytes; a byte that does not fit is lost. -/
def bufWriteU8 (cap : Nat) (buf : Bytes) (c : UInt8) : Bytes :=
  if buf.length < cap then buf ++ [c] else buf

def bufNullTerminate (cap : Nat) (buf : Bytes) : Bytes :=
  if buf.getLast? = some 0 then buf
  else bufWriteU8 cap (if buf.length < cap then buf else buf.dropLast) 0

/-- Read the first `size` bytes of a window. -/
def bufRead (src : Bytes) (size : Nat) : Option (Bytes × Bytes) :=
  if src.length < size then none else some (src.take size, src.drop size)

variable {size : Nat}

theorem allocBuf_isSome (h : size < BUF_SIZE_MAX) :
    ∃ buf, allocBuf size = some buf ∧ buf.offset = 0 ∧ buf.capacity = size ∧ buf.contents = [] :=
  ⟨_, if_pos h, rfl, rfl, rfl⟩

variable {buf : Buffer}

theorem bufInit_eq_some {buf' : Buffer} {offset : Nat} (h : bufInit buf offset = some buf') :
    buf'.capacity = buf.capacity ∧ buf'.offset = offset ∧ buf'.contents = [] := by
  unfold bufInit at h
  split at h
  · cases h
    exact ⟨rfl, rfl, rfl⟩
  · cases h

theorem bufInit_isSome {offset : Nat} (h : offset ≤ buf.capacity) :
    ∃ buf', bufInit buf offset = some buf' ∧ buf'.capacity = buf.capacity ∧
      buf'.offset = offset ∧ buf'.contents = [] :=
  ⟨_, dif_pos h, rfl, rfl, rfl⟩

variable {dest dest' : Buffer} {src : Bytes}

theorem bufWrite_eq_some (h : bufWrite dest src = some dest') :
    dest'.capacity = dest.capacity ∧ dest'.offset = dest.offset ∧
      dest'.contents = dest.contents ++ src := by
  unfold bufWrite at h
  split at h
  · cases h
    exact ⟨rfl, rfl, rfl⟩
  · cases h

theorem bufWritePrepend_isSome (h : src.length ≤ dest.offset) :
    ∃ dest', bufWritePrepend dest src = some dest' ∧ dest'.offset = dest.offset - src.length ∧
      dest'.contents = src ++ dest.contents :=
  ⟨_, dif_pos h, rfl, rfl⟩

theorem bufWritePrepend_eq_some (h : bufWritePrepend dest src = some dest') :
    dest'.capacity = dest.capacity ∧ dest'.contents = src ++ dest.contents := by
  unfold bufWritePrepend at h
  split at h
  · cases h
    exact ⟨rfl, rfl⟩
  · cases h

theorem bufAdvance_eq_none (h : buf.contents.length < size) : bufAdvance buf size = none :=
  dif_neg (Nat.not_le.mpr h)

theorem bufAdvance_isSome (h : size ≤ buf.contents.length) :
    ∃ buf', bufAdvance buf size = some buf' ∧ buf'.offset = buf.offset + size ∧
      buf'.capacity = buf.capacity ∧ buf'.contents = buf.contents.drop size :=
  ⟨_, dif_pos h, rfl, rfl, rfl⟩

theorem bufExtend_eq_some {buf' : Buffer} {added : Bytes} (h : bufExtend buf added = some buf') :
    buf'.contents = buf.contents ++ added := by
  unfold bufExtend at h
  split at h
  · cases h
    rfl
  · cases h

theorem bufExtend_isSome {added : Bytes}
    (h : buf.offset + (buf.contents.length + added.length) ≤ buf.capacity) :
    ∃ buf', bufExtend buf added = some buf' ∧ buf'.offset = buf.offset ∧
      buf'.capacity = buf.capacity ∧ buf'.contents = buf.contents ++ added :=
  ⟨_, dif_pos h, rfl, rfl, rfl⟩

/-- Two writes are one. -/
theorem bufWritePrepend_bind (dest : Buffer) (src src' : Bytes) :
    (bufWritePrepend dest src).bind (bufWritePrepend · src') =
      bufWritePrepend dest (src' ++ src) := by
  unfold bufWritePrepend
  grind

theorem bufExtend_bind (buf : Buffer) (added added' : Bytes) :
    (bufExtend buf added).bind (bufExtend · added') = bufExtend buf (added ++ added') := by
  unfold bufExtend
  grind

/-- The limit of the size is all that `buf_write` checks in addition. -/
theorem bufWrite_eq_extend (dest : Buffer) (hsize : src.length < BUF_SIZE_MAX) :
    bufWrite dest src = bufExtend dest src := by
  unfold bufWrite bufExtend bufSafe
  simp only [hsize, decide_true, Bool.true_and, decide_eq_true_eq, Nat.add_assoc]

theorem bufSafe_of {buf : Buffer} {len : Nat} (hsize : len < BUF_SIZE_MAX)
    (h : buf.offset + buf.contents.length + len ≤ buf.capacity) : bufSafe buf len = true :=
  Bool.and_eq_true_iff.mpr ⟨decide_eq_true hsize, decide_eq_true h⟩

theorem bufWrite_isSome (dest : Buffer) (src : Bytes) (hsize : src.length < BUF_SIZE_MAX)
    (h : dest.offset + dest.contents.length + src.length ≤ dest.capacity) :
    ∃ dest', bufWrite dest src = some dest' ∧ dest'.offset = dest.offset ∧
      dest'.capacity = dest.capacity ∧ dest'.contents = dest.contents ++ src :=
  ⟨_, dif_pos (bufSafe_of hsize h), rfl, rfl, rfl⟩

theorem bufPrintf_contents {text : Bytes} (h : text.length < bufForwardCapacity buf) :
    (bufPrintf buf text).contents = buf.contents ++ text := by
  show buf.contents ++ text.take _ = _
  rw [take_of_length_le (by omega)]

theorem bufRead_append (bs rest : Bytes) : bufRead (bs ++ rest) bs.length = some (bs, rest) := by
  have hlen : ¬ (bs ++ rest).length < bs.length := by
    rw [length_append]
    omega
  rw [bufRead, if_neg hlen, take_left, drop_left]

/-! ## Strings -/

/-- `isspace` of the C locale. -/
def isspace (c : UInt8) : Bool := decide (9 ≤ c ∧ c ≤ 13) || c == 32

/-- `CC_PRINT` without `CC_CRLF`. -/
def ccPrint (c : UInt8) : Bool := decide (32 ≤ c) && c != 127

/-- `string_mod` with these classes: what does not print becomes an underscore. -/
def stringModRemapName (str : Bytes) : Bytes := str.map fun c => if ccPrint c then c else 95

/-! ## Fields of a buffer -/

/-- The loop of `buf_parse`: the characters up to the delimiter, whether the buffer
ended before it, and what is left. A byte that finds the line full is lost. -/
def bufParseLoop (delim : UInt8) (size : Nat) : (buf line : Bytes) → Bytes × Bool × Bytes
  | [], line => (line, true, [])
  | c :: buf, line =>
    if c = 0 ∨ c = delim then (line, false, buf)
    else if size ≤ line.length then (line, false, buf)
    else bufParseLoop delim size buf (line ++ [c])

/-- `buf_parse` into a line of `size` bytes: whether there was a field, the field,
and what is left of the buffer. -/
def bufParse (delim : UInt8) (size : Nat) (buf : Bytes) : Bool × Bytes × Bytes :=
  match bufParseLoop delim size buf [] with
  | (line, eol, rest) =>
    (!(eol && (line.take (size - 1)).isEmpty), line.take (size - 1), rest)

variable {delim : UInt8}

theorem bufParseLoop_plain (rest : Bytes) {field : Bytes} (line : Bytes)
    (hplain : ∀ c ∈ field, ¬(c = 0 ∨ c = delim)) (hlen : line.length + field.length ≤ size) :
    bufParseLoop delim size (field ++ rest) line =
      bufParseLoop delim size rest (line ++ field) := by
  induction field generalizing line with
  | nil => simp
  | cons c field ih =>
    have hc : ¬(c = 0 ∨ c = delim) := hplain c mem_cons_self
    have hroom : ¬size ≤ line.length := by
      simp only [length_cons] at hlen
      omega
    rw [cons_append, bufParseLoop, if_neg hc, if_neg hroom,
      ih _ (fun c' hc' => hplain c' (mem_cons_of_mem c hc')) (by simp at hlen ⊢; omega)]
    simp

theorem bufParse_field {d : UInt8} (hd : d = 0 ∨ d = delim) (rest : Bytes) {field : Bytes}
    (hplain : ∀ c ∈ field, ¬(c = 0 ∨ c = delim)) (hlen : field.length < size) :
    bufParse delim size (field ++ d :: rest) = (true, field, rest) := by
  have hloop := bufParseLoop_plain (d :: rest) [] hplain (by simpa using hlen.le)
  rw [bufParseLoop, if_pos hd] at hloop
  rw [bufParse, hloop]
  simp only [nil_append, Bool.false_and, Bool.not_false]
  rw [take_of_length_le (by omega)]

theorem bufParseLoop_bounds (delim : UInt8) (size : Nat) (buf line : Bytes) :
    ∃ field, (bufParseLoop delim size buf line).1 = line ++ field ∧ field <+: buf ∧
      ∀ c ∈ field, ¬(c = 0 ∨ c = delim) := by
  induction buf generalizing line with
  | nil => exact ⟨[], by simp [bufParseLoop]⟩
  | cons c buf ih =>
    by_cases hend : (c = 0 ∨ c = delim) ∨ size ≤ line.length
    · refine ⟨[], ?_, nil_prefix, by simp⟩
      rcases hend with hend | hend
      · simp [bufParseLoop, hend]
      · simp [bufParseLoop, hend]
    · rw [not_or] at hend
      obtain ⟨field, hfld, hpre, hno⟩ := ih (line ++ [c])
      refine ⟨c :: field, ?_, cons_prefix_cons.mpr ⟨rfl, hpre⟩, ?_⟩
      · rw [bufParseLoop, if_neg hend.1, if_neg hend.2, hfld]
        simp
      · intro c' hc'
        rcases mem_cons.mp hc' with rfl | hc'
        · exact hend.1
        · exact hno c' hc'

theorem bufParseLoop_rest (delim : UInt8) (size : Nat) (buf line : Bytes) :
    (bufParseLoop delim size buf line).2.2.length ≤ buf.length - 1 := by
  induction buf generalizing line with
  | nil => simp [bufParseLoop]
  | cons c buf ih =>
    unfold bufParseLoop
    split
    case isTrue => simp
    case isFalse =>
      split
      case isTrue => simp
      case isFalse =>
        have hrest := ih (line ++ [c])
        rw [length_cons]
        omega

theorem bufParse_rest {buf line rest : Bytes} (h : bufParse delim size buf = (true, line, rest)) :
    rest.length < buf.length := by
  have hrest : rest = (bufParseLoop delim size buf []).2.2 :=
    (congrArg (fun r => r.2.2) h).symm
  cases buf with
  | nil => simp [bufParse, bufParseLoop] at h
  | cons c buf =>
    have hle := bufParseLoop_rest delim size (c :: buf) []
    rw [hrest]
    rw [length_cons] at hle ⊢
    omega

end OpenVpn
