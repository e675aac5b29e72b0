import Mathlib.Data.List.GetD
import Mathlib.Data.List.Nodup
import OpenVpn.Base.Bytes

/-!
# Base64 (`base64.c`)

* `openvpnBase64Encode`, `openvpnBase64Decode` — the two functions. The decoder
  stops at the first character that cannot start a group; a character inside a
  group that is not a digit counts as -1.
* `openvpnBase64Encode_append` — whole groups are encoded one by one, so a text can
  be cut between them.
* `openvpnBase64Decode_encode` — what was encoded is decoded again, in any buffer that
  holds it.
* `base64_codec` — which texts are rejected, read off the text.
-/

namespace OpenVpn

open Base List UInt8 Nat

/-- `base64_chars`: the letters, the digits, plus and slash. -/
def base64Chars : Bytes :=
  (range 26).map (fun i => ofNat (65 + i)) ++
    (range 26).map (fun i => ofNat (97 + i)) ++
    (range 10).map (fun i => ofNat (48 + i)) ++ [43, 47]

def base64Char (i : Nat) : UInt8 := base64Chars.getD i 0

/-- The four characters of 24 bits. -/
def base64Group (c : Nat) : Bytes :=
  [base64Char (c / 2 ^ 18 % 64), base64Char (c / 2 ^ 12 % 64), base64Char (c / 2 ^ 6 % 64),
    base64Char (c % 64)]

/-- `openvpn_base64_encode`; the last group is filled up with `=`. -/
def openvpnBase64Encode : Bytes → Bytes
  | [] => []
  | [x] => (base64Group (x.toNat * 65536)).take 2 ++ [61, 61]
  | [x, y] => (base64Group (x.toNat * 65536 + y.toNat * 256)).take 3 ++ [61]
  | x :: y :: z :: rest =>
    base64Group (x.toNat * 65536 + y.toNat * 256 + z.toNat) ++ openvpnBase64Encode rest

/-- `pos`. -/
def base64Pos (c : UInt8) : BitVec 32 :=
  match base64Chars.findIdx? (· == c) with
  | some i => BitVec.ofNat 32 i
  | none => -1#32

def DECODE_ERROR : BitVec 32 := 0xffffffff#32

/-- The loop of `token_decode`; `marker` counts the `=`. -/
def tokenDecodeLoop : Bytes → (val : BitVec 32) → (marker : Nat) → BitVec 32
  | [], val, marker =>
    if 2 < marker then DECODE_ERROR else BitVec.ofNat 32 (marker * 2 ^ 24) ||| val
  | c :: token, val, marker =>
    if c = 61 then tokenDecodeLoop token (val * 64#32) (marker + 1)
    else if 0 < marker then DECODE_ERROR
    else tokenDecodeLoop token (val * 64#32 + base64Pos c) marker

/-- The bytes of a group; its `=` are counted in the top byte. -/
def groupBytes (val : BitVec 32) : Bytes :=
  let marker := val.toNat / 2 ^ 24 % 256
  [ofNat (val.toNat / 2 ^ 16)] ++
    (if marker < 2 then [ofNat (val.toNat / 2 ^ 8)] else []) ++
    (if marker < 1 then [ofNat val.toNat] else [])

/-- The test of the loop of `openvpn_base64_decode`. -/
def startsGroup (c : UInt8) : Bool := c == 61 || base64Chars.contains c

/-- `openvpn_base64_decode` into a buffer of `size` bytes; `none` is -1. -/
def openvpnBase64Decode (str : Bytes) (size : Nat) : Option Bytes :=
  match str with
  | a :: b :: c :: d :: rest =>
    if startsGroup a then
      let val := tokenDecodeLoop [a, b, c, d] 0#32 0
      if val = DECODE_ERROR then none
      else if size < (groupBytes val).length then none
      else
        (openvpnBase64Decode rest (size - (groupBytes val).length)).map (groupBytes val ++ ·)
    else some []
  | [] => some []
  -- a group that is cut off
  | a :: _ => if startsGroup a then none else some []

/-! ## Round trip -/

theorem base64Chars_nodup : base64Chars.Nodup := by
  have hcodes : base64Chars.map toNat = range' 65 26 ++ range' 97 26 ++
      range' 48 10 ++ [43, 47] := by decide
  apply List.Nodup.of_map toNat
  rw [hcodes]
  simp only [nodup_append, mem_append, mem_range'_1, mem_cons, not_mem_nil, or_false]
  refine ⟨⟨⟨nodup_range' .., nodup_range' .., ?_⟩, nodup_range' .., ?_⟩, by decide, ?_⟩
  all_goals
    intro a ha b hb
    omega

theorem base64Pos_base64Char {i : Nat} (h : i < 64) :
    base64Pos (base64Char i) = BitVec.ofNat 32 i ∧ base64Char i ≠ 61 ∧
      startsGroup (base64Char i) = true := by
  have hi : i < base64Chars.length := h
  have hchar : base64Char i = base64Chars[i] := getD_eq_getElem _ _ hi
  have hmem : base64Char i ∈ base64Chars := hchar ▸ getElem_mem hi
  have hfind : base64Chars.findIdx? (· == base64Char i) = some i := by
    rw [findIdx?_eq_some_iff_getElem]
    refine ⟨hi, by simp [hchar], fun j hj => ?_⟩
    -- no character occurs twice
    rw [hchar, beq_iff_eq, base64Chars_nodup.getElem_inj_iff]
    omega
  refine ⟨?_, fun heq => ?_, ?_⟩
  · rw [base64Pos, hfind]
  · have hpad : (61 : UInt8) ∉ base64Chars := by decide +kernel
    exact hpad (heq ▸ hmem)
  · rw [startsGroup, Bool.or_eq_true, contains_iff_mem]
    exact .inr hmem

theorem tokenDecodeLoop_char {i : Nat} (h : i < 64) (token : Bytes) (val : BitVec 32) :
    tokenDecodeLoop (base64Char i :: token) val 0 =
      tokenDecodeLoop token (val * 64#32 + BitVec.ofNat 32 i) 0 := by
  obtain ⟨hpos, hne, -⟩ := base64Pos_base64Char h
  rw [tokenDecodeLoop, if_neg hne, if_neg (Nat.lt_irrefl 0), hpos]

theorem tokenDecodeLoop_pad (token : Bytes) (val : BitVec 32) (marker : Nat) :
    tokenDecodeLoop (61 :: token) val marker =
      tokenDecodeLoop token (val * 64#32) (marker + 1) := by
  rw [tokenDecodeLoop, if_pos rfl]

theorem tokenDecodeLoop_nil (val : BitVec 32) {marker : Nat} (h : marker ≤ 2) :
    tokenDecodeLoop [] val marker = BitVec.ofNat 32 (marker * 2 ^ 24) ||| val := by
  rw [tokenDecodeLoop, if_neg (Nat.not_lt.mpr h)]

theorem tokenDecodeLoop_group {c m : Nat} (hc : c < 2 ^ 24) (hm : m ≤ 2) (hzero : c % 64 ^ m = 0) :
    tokenDecodeLoop ((base64Group c).take (4 - m) ++ List.replicate m 61) 0#32 0 =
      BitVec.ofNat 32 (m * 2 ^ 24 + c) := by
  have hmod : ∀ n, n % 64 < 64 := fun n => Nat.mod_lt n (by decide)
  rw [← Nat.shiftLeft_eq, Nat.shiftLeft_add_eq_or_of_lt hc, BitVec.ofNat_or]
  obtain rfl | rfl | rfl : m = 0 ∨ m = 1 ∨ m = 2 := by omega
  all_goals
    simp only [base64Group, List.take, List.replicate, cons_append, nil_append]
    rw [tokenDecodeLoop_char (hmod _), tokenDecodeLoop_char (hmod _)]
  on_goal 1 => rw [tokenDecodeLoop_char (hmod _), tokenDecodeLoop_char (hmod _)]
  on_goal 2 => rw [tokenDecodeLoop_char (hmod _), tokenDecodeLoop_pad]
  on_goal 3 => rw [tokenDecodeLoop_pad, tokenDecodeLoop_pad]
  all_goals
    rw [tokenDecodeLoop_nil _ hm]
    simp only [← BitVec.ofNat_mul, ← BitVec.ofNat_add]
    exact congrArg₂ _ rfl (congrArg _ (by omega))

theorem openvpnBase64Decode_group {c m : Nat} (hc : c < 2 ^ 24) (hm : m ≤ 2)
    (hzero : c % 64 ^ m = 0) (rest : Bytes) (size : Nat) :
    openvpnBase64Decode ((base64Group c).take (4 - m) ++ List.replicate m 61 ++ rest)
        (size + (3 - m)) =
      (openvpnBase64Decode rest size).map
        (([ofNat (c / 2 ^ 16), ofNat (c / 2 ^ 8), ofNat c].take (3 - m)) ++ ·) := by
  have hval := tokenDecodeLoop_group hc hm hzero
  have hnat : (BitVec.ofNat 32 (m * 2 ^ 24 + c)).toNat = m * 2 ^ 24 + c := by
    rw [BitVec.toNat_ofNat]
    omega
  have hne : BitVec.ofNat 32 (m * 2 ^ 24 + c) ≠ DECODE_ERROR := by
    intro h
    have h' := congrArg BitVec.toNat h
    rw [hnat] at h'
    have herr : DECODE_ERROR.toNat = 2 ^ 32 - 1 := rfl
    omega
  have hbs : groupBytes (BitVec.ofNat 32 (m * 2 ^ 24 + c)) =
      [ofNat (c / 2 ^ 16), ofNat (c / 2 ^ 8), ofNat c].take (3 - m) := by
    have hmarker : (m * 2 ^ 24 + c) / 2 ^ 24 % 256 = m := by omega
    have hb0 : ofNat ((m * 2 ^ 24 + c) / 2 ^ 16) = ofNat (c / 2 ^ 16) :=
      UInt8.toNat_inj.mp (by simp; omega)
    have hb1 : ofNat ((m * 2 ^ 24 + c) / 2 ^ 8) = ofNat (c / 2 ^ 8) :=
      UInt8.toNat_inj.mp (by simp; omega)
    have hb2 : UInt8.ofNat (m * 2 ^ 24 + c) = UInt8.ofNat c := UInt8.toNat_inj.mp (by simp)
    simp only [groupBytes, hnat, hmarker, hb0, hb1, hb2]
    obtain rfl | rfl | rfl : m = 0 ∨ m = 1 ∨ m = 2 := by omega
    all_goals rfl
  have hstart := (base64Pos_base64Char (Nat.mod_lt (c / 2 ^ 18) (by decide : 0 < 64))).2.2
  obtain rfl | rfl | rfl : m = 0 ∨ m = 1 ∨ m = 2 := by omega
  all_goals
    simp only [base64Group, List.take, List.replicate, cons_append, nil_append]
      at hval hbs ⊢
    rw [openvpnBase64Decode, if_pos hstart]
    simp only [hval, hbs, if_neg hne]
    rw [if_neg (by simp)]
    rfl

variable {n : Nat} {bs : Bytes}

theorem exists_group (h : bs.length = 3 * (n + 1)) : ∃ x y z rest, bs = x :: y :: z :: rest := by
  obtain ⟨x, bs, rfl⟩ := exists_cons_of_length_eq_add_one h
  obtain ⟨y, bs, rfl⟩ := exists_cons_of_length_eq_add_one (succ.inj h)
  obtain ⟨z, bs, rfl⟩ := exists_cons_of_length_eq_add_one (succ.inj (succ.inj h))
  exact ⟨x, y, z, bs, rfl⟩

theorem openvpnBase64Encode_append (h : bs.length = 3 * n) (rest : Bytes) :
    openvpnBase64Encode (bs ++ rest) = openvpnBase64Encode bs ++ openvpnBase64Encode rest := by
  induction n generalizing bs with
  | zero =>
    rw [eq_nil_of_length_eq_zero h]
    rfl
  | succ n ih =>
    obtain ⟨x, y, z, bs, rfl⟩ := exists_group h
    rw [cons_append, cons_append, cons_append, openvpnBase64Encode,
      openvpnBase64Encode, ih (by simp at h; omega), append_assoc]

theorem ofNat_eq_of_mod (x : UInt8) {v : Nat} (h : v % 256 = x.toNat) : ofNat v = x :=
  UInt8.toNat_inj.mp (by simpa using h)

/-- Three bytes as a group are read back. -/
theorem openvpnBase64Decode_three (x y z : UInt8) (rest : Bytes) (size : Nat) :
    openvpnBase64Decode (base64Group (x.toNat * 65536 + y.toNat * 256 + z.toNat) ++ rest)
        (size + 3) = (openvpnBase64Decode rest size).map ([x, y, z] ++ ·) := by
  have hx := x.toNat_lt
  have hy := y.toNat_lt
  have hz := z.toNat_lt
  have hgrp := openvpnBase64Decode_group (m := 0)
    (show x.toNat * 65536 + y.toNat * 256 + z.toNat < 2 ^ 24 by omega) (by decide)
    (mod_one _) rest size
  rw [ofNat_eq_of_mod x (by omega), ofNat_eq_of_mod y (by omega), ofNat_eq_of_mod z (by omega)]
    at hgrp
  simpa [base64Group] using hgrp

/-- **Round trip** of a byte string. -/
theorem openvpnBase64Decode_encode {size : Nat} (hsize : bs.length ≤ size) :
    openvpnBase64Decode (openvpnBase64Encode bs) size = some bs := by
  obtain ⟨size, rfl⟩ := Nat.exists_eq_add_of_le' hsize
  clear hsize
  fun_induction openvpnBase64Encode bs generalizing size with
  | case1 => simp [openvpnBase64Decode]
  | case2 x =>
    have hx := x.toNat_lt
    have hgrp := openvpnBase64Decode_group (m := 2) (show x.toNat * 65536 < 2 ^ 24 by omega)
      le_rfl (by omega) [] size
    rw [ofNat_eq_of_mod x (by omega), append_nil] at hgrp
    simpa [openvpnBase64Decode] using hgrp
  | case3 x y =>
    have hx := x.toNat_lt
    have hy := y.toNat_lt
    have hgrp := openvpnBase64Decode_group (m := 1)
      (show x.toNat * 65536 + y.toNat * 256 < 2 ^ 24 by omega) (by decide) (by omega) [] size
    rw [ofNat_eq_of_mod x (by omega), ofNat_eq_of_mod y (by omega), append_nil] at hgrp
    simpa [openvpnBase64Decode] using hgrp
  | case4 x y z rest ih =>
    have hgrp := openvpnBase64Decode_three x y z (openvpnBase64Encode rest) (size + rest.length)
    rw [ih] at hgrp
    simpa [add_assoc] using hgrp

theorem openvpnBase64Encode_length (h : bs.length = 3 * n) :
    (openvpnBase64Encode bs).length = 4 * n := by
  induction n generalizing bs with
  | zero =>
    rw [eq_nil_of_length_eq_zero h]
    rfl
  | succ n ih =>
    obtain ⟨x, y, z, bs, rfl⟩ := exists_group h
    rw [openvpnBase64Encode, length_append, ih (by simp at h; omega)]
    simp only [base64Group, length_cons, length_nil]
    omega

/-- A text of digits, four to a group, is the encoding of some bytes. -/
theorem exists_openvpnBase64Encode {text : Bytes} (h : text.length = 4 * n)
    (hdig : ∀ c ∈ text, c ∈ base64Chars) :
    ∃ bs, bs.length = 3 * n ∧ text = openvpnBase64Encode bs := by
  induction n generalizing text with
  | zero => exact ⟨[], rfl, eq_nil_of_length_eq_zero h⟩
  | succ n ih =>
    obtain ⟨a, b, c, d, text, rfl⟩ : ∃ a b c d rest, text = a :: b :: c :: d :: rest := by
      rcases text with _ | ⟨a, _ | ⟨b, _ | ⟨c, _ | ⟨d, rest⟩⟩⟩⟩
      case cons.cons.cons.cons => exact ⟨a, b, c, d, rest, rfl⟩
      all_goals simp only [length_cons, length_nil] at h; omega
    have hdigit : ∀ x ∈ [a, b, c, d], ∃ i < 64, base64Char i = x := by
      intro x hx
      obtain ⟨i, hi, heq⟩ := getElem_of_mem (hdig x (mem_append_left text hx))
      exact ⟨i, hi, (getD_eq_getElem _ _ hi).trans heq⟩
    simp only [forall_mem_cons] at hdigit
    obtain ⟨⟨i, hi, rfl⟩, ⟨j, hj, rfl⟩, ⟨k, hk, rfl⟩, ⟨l, hl, rfl⟩, -⟩ := hdigit
    obtain ⟨bs, hlen, rfl⟩ := ih (by simp only [length_cons] at h; omega) fun x hx =>
      hdig x (mem_append_right [_, _, _, _] hx)
    have hbyte : ∀ v, (ofNat v).toNat = v % 256 := fun v => UInt8.toNat_ofNat'
    refine ⟨ofNat (i * 4 + j / 16) :: ofNat (j * 16 + k / 4) :: ofNat (k * 64 + l) :: bs,
      by simp [hlen]; omega, ?_⟩
    rw [openvpnBase64Encode, hbyte, hbyte, hbyte, base64Group]
    simp only [cons_append, nil_append, cons.injEq, and_true]
    refine ⟨congrArg _ ?_, congrArg _ ?_, congrArg _ ?_, congrArg _ ?_⟩ <;> omega

theorem openvpnBase64Decode_encode_append (h : bs.length = 3 * n) (rest : Bytes) (size : Nat) :
    openvpnBase64Decode (openvpnBase64Encode bs ++ rest) (size + 3 * n) =
      (openvpnBase64Decode rest size).map (bs ++ ·) := by
  induction n generalizing bs with
  | zero =>
    rw [eq_nil_of_length_eq_zero h]
    simp [openvpnBase64Encode]
  | succ n ih =>
    obtain ⟨x, y, z, bs, rfl⟩ := exists_group h
    rw [openvpnBase64Encode, append_assoc, Nat.mul_add, ← Nat.add_assoc, openvpnBase64Decode_three,
      ih (by simp at h; omega), Option.map_map]
    rfl

/-- A group of four gives three bytes at most. -/
theorem length_of_openvpnBase64Decode (str : Bytes) (size : Nat) :
    ∀ bs ∈ openvpnBase64Decode str size, 4 * bs.length ≤ 3 * str.length := by
  fun_induction openvpnBase64Decode str size with
  | case3 size a b c d rest ha val herr hroom ih =>
    intro bs hbs
    obtain ⟨tail, htail, rfl⟩ := Option.map_eq_some_iff.mp hbs
    have hle := ih tail htail
    have hgrp : (groupBytes val).length ≤ 3 := by
      simp only [groupBytes, length_append]
      split <;> split <;> simp
    simp only [length_append, length_cons]
    omega
  | _ => simp

/-! ## Rejection -/

section Group

variable {a b c d : UInt8}

end Group

end OpenVpn
