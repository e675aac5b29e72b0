import Mathlib.Data.Int.ModEq
import Mathlib.Tactic.Ring
import OpenVpn.Base.Bytes

/-!
# Sums of 16-bit words in one's complement

The internet checksum of a byte string is the sum of its big-endian 16-bit words modulo
65535. Swapping the bytes of all words multiplies the sum by 256, which is a unit, so a
host computes with words in its own byte order.

* `onesSum` — the sum; `onesSum_set`, `onesSum_append` say how it changes.
* `Endian.word`, `Endian.setWord` — words in the byte order of the host.
* `onesSum_setWord` — a word that is replaced adds the difference.
-/

namespace OpenVpn.Base

open List Nat Int UInt8

/-- The sum of the words of a byte string; `high` says whether the first byte is the high
byte of a word. -/
def onesSum : (high : Bool) → Bytes → Int
  | _, [] => 0
  | high, b :: bs => (if high then 256 else 1) * b.toNat + onesSum (!high) bs

/-- The sum of a text that carries its checksum; folded into 16 bits it is 0xffff. -/
def OnesValid (s : Int) : Prop := 0 < s ∧ s % 65535 = 0

instance (s : Int) : Decidable (OnesValid s) := inferInstanceAs (Decidable (_ ∧ _))

theorem onesSum_nonneg (high : Bool) (bs : Bytes) : 0 ≤ onesSum high bs := by
  induction bs generalizing high with
  | nil => exact le_refl 0
  | cons b bs ih =>
    have hrest := ih (!high)
    unfold onesSum
    split <;> omega

/-- What the byte with index `i` counts. -/
def byteWeight (high : Bool) (i : Nat) : Int :=
  if i % 2 = 0 then (if high then 256 else 1) else if high then 1 else 256

variable {i : Nat}

theorem byteWeight_even (high : Bool) (hi : i % 2 = 0) :
    byteWeight high i = if high then 256 else 1 := if_pos hi

theorem byteWeight_odd (high : Bool) (hi : i % 2 = 1) :
    byteWeight high i = if high then 1 else 256 :=
  if_neg (by rw [hi]; exact one_ne_zero)

theorem byteWeight_succ (high : Bool) (i : Nat) :
    byteWeight high (i + 1) = byteWeight (!high) i := by
  rcases mod_two_eq_zero_or_one i with h | h
  · rw [byteWeight_odd high (by omega), byteWeight_even (!high) h]
    cases high <;> rfl
  · rw [byteWeight_even high (by omega), byteWeight_odd (!high) h]
    cases high <;> rfl

variable {bs : Bytes}

theorem onesSum_set (high : Bool) (hi : i < bs.length) (b : UInt8) :
    onesSum high (bs.set i b) =
      onesSum high bs + byteWeight high i * ((b.toNat : Int) - (bs.getD i 0).toNat) := by
  induction bs generalizing high i with
  | nil => cases hi
  | cons a bs ih =>
    cases i with
    | zero =>
      rw [set_cons_zero, getD_cons_zero]
      rw [byteWeight_even high rfl]
      unfold onesSum
      ring
    | succ i =>
      rw [set_cons_succ, getD_cons_succ, byteWeight_succ]
      unfold onesSum
      rw [ih (!high) (lt_of_succ_lt_succ hi)]
      ring

theorem onesSum_append (heven : bs.length % 2 = 0) (cs : Bytes) :
    onesSum true (bs ++ cs) = onesSum true bs + onesSum true cs := by
  have hgen : ∀ (bs : Bytes) (high : Bool), onesSum high (bs ++ cs) =
      onesSum high bs + onesSum (if bs.length % 2 = 0 then high else !high) cs := by
    intro bs
    induction bs with
    | nil =>
      intro high
      exact (zero_add _).symm
    | cons b bs ih =>
      intro high
      have hparity : (if bs.length % 2 = 0 then !high else !!high) =
          if (b :: bs).length % 2 = 0 then high else !high := by
        rw [length_cons, Bool.not_not]
        rcases mod_two_eq_zero_or_one bs.length with h | h
        · rw [if_pos h, if_neg (by omega)]
        · rw [if_neg (by omega), if_pos (by omega)]
      rw [cons_append, onesSum, ih, hparity, onesSum, add_assoc]
  rw [hgen bs true, if_pos heven]

variable {n : Nat}

theorem onesSum_take_drop (heven : n % 2 = 0) (hn : n ≤ bs.length) :
    onesSum true bs = onesSum true (bs.take n) + onesSum true (bs.drop n) := by
  conv_lhs => rw [← take_append_drop n bs]
  apply onesSum_append
  rw [length_take, min_eq_left hn]
  exact heven

/-! ## Words of the host -/

/-- The byte order of the host. -/
inductive Endian
  | little
  | big
  deriving DecidableEq

/-- Two bytes of memory as a word. -/
def Endian.word : Endian → UInt8 → UInt8 → Nat
  | .little, b₀, b₁ => b₀.toNat + 256 * b₁.toNat
  | .big, b₀, b₁ => 256 * b₀.toNat + b₁.toNat

/-- The bytes of a word in memory. -/
def Endian.store : Endian → Nat → UInt8 × UInt8
  | .little, w => (UInt8.ofNat w, UInt8.ofNat (w / 256))
  | .big, w => (UInt8.ofNat (w / 256), UInt8.ofNat w)

/-- A number in network byte order, as the host sees it. -/
def Endian.hton (e : Endian) (v : Nat) : Nat := e.word (UInt8.ofNat (v / 256)) (UInt8.ofNat v)

/-- The factor between the words of the host and those of the network. -/
def Endian.factor : Endian → Int
  | .little => 256
  | .big => 1

def wordAt (e : Endian) (bs : Bytes) (i : Nat) : Nat := e.word (bs.getD i 0) (bs.getD (i + 1) 0)

def setWord (e : Endian) (bs : Bytes) (i w : Nat) : Bytes :=
  (bs.set i (e.store w).1).set (i + 1) (e.store w).2

theorem Endian.word_lt (e : Endian) (b0 b1 : UInt8) : e.word b0 b1 < 65536 := by
  have h0 := b0.toNat_lt
  have h1 := b1.toNat_lt
  cases e with
  | little =>
    show b0.toNat + 256 * b1.toNat < 65536
    omega
  | big =>
    show 256 * b0.toNat + b1.toNat < 65536
    omega

variable {w : Nat}

theorem Endian.word_store (e : Endian) (hw : w < 65536) :
    e.word (e.store w).1 (e.store w).2 = w := by
  cases e with
  | little =>
    show (UInt8.ofNat w).toNat + 256 * (UInt8.ofNat (w / 256)).toNat = w
    rw [toNat_ofNat', toNat_ofNat']
    omega
  | big =>
    show 256 * (UInt8.ofNat (w / 256)).toNat + (UInt8.ofNat w).toNat = w
    rw [toNat_ofNat', toNat_ofNat']
    omega

theorem Endian.factor_mul_word (e : Endian) (b0 b1 : UInt8) :
    e.factor * (e.word b0 b1 : Int) ≡ 256 * b0.toNat + b1.toNat [ZMOD 65535] := by
  cases e with
  | little =>
    show (256 : Int) * ((b0.toNat + 256 * b1.toNat : Nat) : Int) ≡ _ [ZMOD 65535]
    unfold Int.ModEq
    push_cast
    omega
  | big =>
    show (1 : Int) * ((256 * b0.toNat + b1.toNat : Nat) : Int) ≡ _ [ZMOD 65535]
    unfold Int.ModEq
    push_cast
    omega

theorem Endian.factor_mul_hton (e : Endian) {v : Nat} (hv : v < 65536) :
    e.factor * (e.hton v : Int) ≡ v [ZMOD 65535] := by
  have hbs : (256 : Int) * (UInt8.ofNat (v / 256)).toNat + (UInt8.ofNat v).toNat = v := by
    rw [toNat_ofNat', toNat_ofNat']
    omega
  have hword := e.factor_mul_word (UInt8.ofNat (v / 256)) (UInt8.ofNat v)
  rw [hbs] at hword
  exact hword

theorem length_setWord (e : Endian) (bs : Bytes) (i w : Nat) :
    (setWord e bs i w).length = bs.length := by
  unfold setWord
  rw [length_set, length_set]

theorem getD_set_ne (bs : Bytes) {j : Nat} (h : i ≠ j) (b : UInt8) :
    (bs.set i b).getD j 0 = bs.getD j 0 := by
  rw [getD_eq_getElem?_getD, getElem?_set_ne h, ← getD_eq_getElem?_getD]

theorem getD_set_self (h : i < bs.length) (b : UInt8) : (bs.set i b).getD i 0 = b := by
  rw [getD_eq_getElem?_getD, getElem?_set_self h, Option.getD_some]

theorem getD_setWord_of_ne (e : Endian) (bs : Bytes) {j : Nat} (w : Nat) (hj : j ≠ i ∧ j ≠ i + 1) :
    (setWord e bs i w).getD j 0 = bs.getD j 0 := by
  unfold setWord
  rw [getD_set_ne _ (Ne.symm hj.2), getD_set_ne _ (Ne.symm hj.1)]

theorem wordAt_setWord_self {e : Endian} (hi : i + 1 < bs.length) (hw : w < 65536) :
    wordAt e (setWord e bs i w) i = w := by
  unfold wordAt setWord
  rw [getD_set_ne _ (ne_of_gt (lt_succ_self i)), getD_set_self (by omega),
    getD_set_self (by rw [length_set]; exact hi), e.word_store hw]

theorem setWord_wordAt (e : Endian) (hi : i + 1 < bs.length) :
    setWord e bs i (wordAt e bs i) = bs := by
  have hstore : ∀ b0 b1 : UInt8, e.store (e.word b0 b1) = (b0, b1) := by
    intro b0 b1
    have h0 := b0.toNat_lt
    have h1 := b1.toNat_lt
    cases e with
    | little | big =>
      simp only [Endian.store, Endian.word, Prod.mk.injEq, ← UInt8.toNat_inj, UInt8.toNat_ofNat']
      omega
  have hget : ∀ {j : Nat}, j < bs.length → bs.set j (bs.getD j 0) = bs := by
    intro j hj
    rw [getD_eq_getElem?_getD, getElem?_eq_getElem hj]
    exact set_getElem_self hj
  unfold setWord wordAt
  rw [hstore, hget (by omega), hget hi]

theorem take_setWord (e : Endian) (bs : Bytes) (w : Nat) (h : n ≤ i) :
    (setWord e bs i w).take n = bs.take n := by
  unfold setWord
  rw [take_set_of_le (by omega), take_set_of_le h]

theorem drop_setWord (e : Endian) (bs : Bytes) (w : Nat) (h : i + 1 < n) :
    (setWord e bs i w).drop n = bs.drop n := by
  unfold setWord
  rw [drop_set_of_lt h, drop_set_of_lt (by omega)]

theorem onesSum_set_set (hi : i + 1 < bs.length) (b0 b1 : UInt8) :
    onesSum true ((bs.set i b0).set (i + 1) b1) =
      onesSum true bs + byteWeight true i * ((b0.toNat : Int) - (bs.getD i 0).toNat) +
        byteWeight true (i + 1) * ((b1.toNat : Int) - (bs.getD (i + 1) 0).toNat) := by
  rw [onesSum_set true (by rw [length_set]; exact hi), onesSum_set true (by omega),
    getD_set_ne _ (Nat.ne_of_lt (Nat.lt_succ_self i))]

/-- **A word** at an even index that is replaced adds the difference to the sum. -/
theorem onesSum_setWord (e : Endian) (heven : i % 2 = 0) (hi : i + 1 < bs.length) (hw : w < 65536) :
    onesSum true (setWord e bs i w) ≡
      onesSum true bs + e.factor * ((w : Int) - wordAt e bs i) [ZMOD 65535] := by
  have hnew := e.factor_mul_word (e.store w).1 (e.store w).2
  rw [e.word_store hw] at hnew
  have hold := e.factor_mul_word (bs.getD i 0) (bs.getD (i + 1) 0)
  have hhigh : byteWeight true i = 256 := byteWeight_even true heven
  have hlow : byteWeight true (i + 1) = 1 := byteWeight_odd true (by omega)
  unfold setWord
  rw [onesSum_set_set hi, hhigh, hlow]
  have hsum := (hnew.sub hold).symm.add_left (onesSum true bs)
  calc _ = onesSum true bs + (256 * (((e.store w).1.toNat : Int)) + (e.store w).2.toNat -
          (256 * ((bs.getD i 0).toNat : Int) + (bs.getD (i + 1) 0).toNat)) := by ring
    _ ≡ onesSum true bs + (e.factor * w - e.factor * wordAt e bs i) [ZMOD 65535] := hsum
    _ = onesSum true bs + e.factor * ((w : Int) - wordAt e bs i) := by ring

end OpenVpn.Base
