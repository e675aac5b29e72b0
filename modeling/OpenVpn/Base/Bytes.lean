import Mathlib.Algebra.Order.Ring.Nat
import Mathlib.Data.List.Basic
import Mathlib.Data.List.Induction

/-!
# Byte strings and big-endian numbers

Numbers on the wire are written most significant byte first: `beBytes n v` is
the `n`-byte form of `v`, `beNat` reads one back. Texts are made of fields with a
separator between them: `joinText` writes them, `splitText` reads them.

A sequence of byte strings is sent over a byte stream by writing each one after its
length in `w` bytes. `frames_eq_header` is the rule a reader needs: a stream that starts
with the header of length `l` starts with a string of length `l`.

`linesFrom d p s` reads the stream `s` after the beginning `p` of a line: it gives the
lines that end in `s` with a delimiter `d`, without the delimiters, and what is left of
the stream. `linesFrom_append` cuts the stream anywhere.
-/

namespace OpenVpn.Base

open List Nat

abbrev Bytes := List UInt8

/-- The big-endian form of `v` in `n` bytes; higher digits are cut off. -/
def beBytes : (n v : Nat) → Bytes
  | 0, _ => []
  | n + 1, v => beBytes n (v / 256) ++ [UInt8.ofNat v]

/-- The number a byte string stands for. -/
def beNat (bs : Bytes) : Nat := bs.foldl (fun v b => v * 256 + b.toNat) 0

@[simp] theorem beBytes_length (n v : Nat) : (beBytes n v).length = n := by
  induction n generalizing v with
  | zero => rfl
  | succ n ih => simp [beBytes, ih]

@[simp] theorem beNat_concat (bs : Bytes) (b : UInt8) :
    beNat (bs ++ [b]) = beNat bs * 256 + b.toNat := by
  simp [beNat]

theorem beNat_lt (bs : Bytes) : beNat bs < 256 ^ bs.length := by
  induction bs using reverseRecOn with
  | nil => simp [beNat]
  | append_singleton bs b ih =>
    have hb := b.toNat_lt
    rw [beNat_concat, length_append, length_singleton, pow_succ]
    omega

theorem beNat_beBytes (n v : Nat) : beNat (beBytes n v) = v % 256 ^ n := by
  induction n generalizing v with
  | zero => simp [beBytes, beNat, mod_one]
  | succ n ih =>
    have hspl : v % 256 ^ (n + 1) = v % 256 + 256 * (v / 256 % 256 ^ n) := by
      rw [pow_succ', mod_mul]
    rw [beBytes, beNat_concat, ih, UInt8.toNat_ofNat', hspl]
    omega

theorem beNat_append (xs ys : Bytes) :
    beNat (xs ++ ys) = beNat xs * 256 ^ ys.length + beNat ys := by
  induction ys using reverseRecOn with
  | nil => simp [beNat]
  | append_singleton ys b ih =>
    rw [← append_assoc, beNat_concat, ih, beNat_concat, length_append,
      length_singleton, pow_succ, add_mul, mul_assoc, add_assoc]

theorem beNat_inj {xs ys : Bytes} (hlen : xs.length = ys.length) (h : beNat xs = beNat ys) :
    xs = ys := by
  induction xs using reverseRecOn generalizing ys with
  | nil => exact (eq_nil_of_length_eq_zero hlen.symm).symm
  | append_singleton xs x ih =>
    rcases eq_nil_or_concat' ys with rfl | ⟨ys, y, rfl⟩
    · simp at hlen
    · rw [beNat_concat, beNat_concat] at h
      have hx := x.toNat_lt
      have hy := y.toNat_lt
      have hlast : x = y := UInt8.toNat_inj.mp (by omega)
      rw [length_append, length_append] at hlen
      rw [ih (add_right_cancel hlen) (by omega), hlast]

theorem beBytes_inj {w v v' : Nat} (hv : v < 256 ^ w) (hv' : v' < 256 ^ w)
    (h : beBytes w v = beBytes w v') : v = v' := by
  have hnat := congrArg beNat h
  rwa [beNat_beBytes, beNat_beBytes, mod_eq_of_lt hv, mod_eq_of_lt hv'] at hnat

/-! ## Separated fields -/

section Text

variable {α : Type} (sep : UInt8) (tok : α → Bytes) (untok : Bytes → Option α)

def joinText (l : List α) : Bytes := [sep].intercalate (l.map tok)

def splitText (t : Bytes) : Option (List α) := (t.splitOn sep).mapM untok

variable {sep tok untok}

theorem splitText_joinText (htok : ∀ a, untok (tok a) = some a) (hsep : ∀ a, sep ∉ tok a)
    {l : List α} (hl : l ≠ []) : splitText sep untok (joinText sep tok l) = some l := by
  have hspl : (joinText sep tok l).splitOn sep = l.map tok := by
    apply splitOn_intercalate
    · simpa using fun a _ => hsep a
    · simpa using hl
  rw [splitText, hspl]
  clear hspl hl
  induction l with
  | nil => rfl
  | cons a l ih => simp [htok, ih]

theorem joinText_cons_cons (a b : α) (l : List α) :
    joinText sep tok (a :: b :: l) = tok a ++ sep :: joinText sep tok (b :: l) := by
  simp [joinText, intercalate]

theorem joinText_concat (l : List α) (a : α) :
    joinText sep tok (l ++ [a]) = if l = [] then tok a else joinText sep tok l ++ sep :: tok a := by
  induction l with
  | nil => simp [joinText, intercalate]
  | cons b l ih =>
    rw [if_neg (cons_ne_nil b l), cons_append]
    cases l with
    | nil => simp [joinText, intercalate]
    | cons c l =>
      rw [if_neg (cons_ne_nil c l), cons_append] at ih
      rw [cons_append, joinText_cons_cons, ih, joinText_cons_cons, append_assoc, cons_append]

theorem mem_joinText {P : UInt8 → Prop} {l : List α} (hsep : P sep)
    (htok : ∀ a ∈ l, ∀ c ∈ tok a, P c) : ∀ c ∈ joinText sep tok l, P c := by
  induction l with
  | nil => simp [joinText, intercalate]
  | cons a l ih =>
    cases l with
    | nil => simpa [joinText, intercalate] using htok a
    | cons b l =>
      intro c hc
      rw [joinText_cons_cons, mem_append, mem_cons] at hc
      rcases hc with hc | rfl | hc
      · exact htok a mem_cons_self c hc
      · exact hsep
      · exact ih (fun a' ha' => htok a' (mem_cons_of_mem a ha')) c hc

theorem joinText_length {k n : Nat} (htok : ∀ a, (tok a).length ≤ k) {l : List α}
    (hl : l.length = n + 1) : (joinText sep tok l).length ≤ k + n * (k + 1) := by
  induction n generalizing l with
  | zero =>
    obtain ⟨a, rfl⟩ := length_eq_one_iff.mp hl
    simpa [joinText, intercalate] using htok a
  | succ n ih =>
    obtain ⟨a, l, rfl⟩ := exists_cons_of_length_eq_add_one hl
    obtain ⟨b, l, rfl⟩ := exists_cons_of_length_eq_add_one (succ.inj hl)
    have ha := htok a
    have hrest := ih (succ.inj hl)
    rw [joinText_cons_cons, length_append, length_cons, succ_mul]
    omega

theorem joinText_ne_nil (htok : ∀ a, tok a ≠ []) {l : List α} (hl : l ≠ []) :
    joinText sep tok l ≠ [] := by
  obtain ⟨a, l, rfl⟩ := exists_cons_of_ne_nil hl
  cases l with
  | nil => simpa [joinText, intercalate] using htok a
  | cons b l => simp [joinText_cons_cons]

end Text

/-! ## Length-prefixed framing -/

section Framing

variable {w l : Nat} {ps : List Bytes} {rest : Bytes}

/-- A byte string after its length. -/
def frame (w : Nat) (p : Bytes) : Bytes := beBytes w p.length ++ p

/-- The stream that carries a sequence of byte strings. -/
def frames (w : Nat) (ps : List Bytes) : Bytes := ps.flatMap (frame w)

@[simp] theorem frames_nil (w : Nat) : frames w [] = [] := rfl

theorem frames_cons (w : Nat) (p : Bytes) (ps : List Bytes) :
    frames w (p :: ps) = beBytes w p.length ++ (p ++ frames w ps) := by
  rw [frames, flatMap_cons, frame, append_assoc]
  rfl

theorem frames_eq_header (hw : 0 < w) (hps : ∀ p ∈ ps, p.length < 256 ^ w) (hl : l < 256 ^ w)
    (h : beBytes w l ++ rest = frames w ps) :
    ∃ p ps', ps = p :: ps' ∧ p.length = l ∧ rest = p ++ frames w ps' := by
  cases ps with
  | nil =>
    have hlen := congrArg length h
    rw [frames_nil, length_append, beBytes_length, length_nil] at hlen
    omega
  | cons p ps' =>
    rw [frames_cons] at h
    have hspl := append_inj h (by rw [beBytes_length, beBytes_length])
    have hp := hps p mem_cons_self
    exact ⟨p, ps', rfl, (beBytes_inj hl hp hspl.1).symm, hspl.2⟩

theorem frames_take_header {bs : Bytes} (hw : w ≤ bs.length) (hne : 0 < w)
    (h : bs ++ rest = frames w ps) :
    ∃ p ps', ps = p :: ps' ∧ bs.take w = beBytes w p.length := by
  cases ps with
  | nil =>
    have hlen := congrArg length h
    rw [frames_nil, length_append, length_nil] at hlen
    omega
  | cons p ps' =>
    rw [frames_cons, ← take_append_drop w bs, append_assoc] at h
    exact ⟨p, ps', rfl, (append_inj h (by rw [beBytes_length, length_take]; omega)).1⟩

end Framing

/-! ## Lines of a stream -/

section Lines

variable {α : Type*} [DecidableEq α] {d : α}

def linesFrom (d : α) : (p : List α) → List α → List (List α) × List α
  | p, [] => ([], p)
  | p, c :: s =>
    if c = d then
      let r := linesFrom d [] s
      (p :: r.1, r.2)
    else linesFrom d (p ++ [c]) s

theorem linesFrom_append (p s t : List α) :
    linesFrom d p (s ++ t) =
      let r := linesFrom d p s
      let r' := linesFrom d r.2 t
      (r.1 ++ r'.1, r'.2) := by
  induction s generalizing p with
  | nil => rfl
  | cons c s ih =>
    simp only [cons_append, linesFrom]
    split
    · rw [ih []]
      rfl
    · exact ih (p ++ [c])

theorem linesFrom_beginning {p : List α} (hp : d ∉ p) (q s : List α) :
    linesFrom d q (p ++ s) = linesFrom d (q ++ p) s := by
  induction p generalizing q with
  | nil => rw [nil_append, append_nil]
  | cons c p ih =>
    have hc : c ≠ d := fun h => hp (h ▸ mem_cons_self)
    rw [cons_append, linesFrom, if_neg hc, ih fun h => hp (mem_cons_of_mem c h),
      append_assoc, singleton_append]

theorem linesFrom_of_not_mem {s : List α} (hs : d ∉ s) : linesFrom d [] s = ([], s) := by
  have h := linesFrom_beginning hs [] []
  rwa [append_nil, nil_append] at h

theorem linesFrom_line {line : List α} (hline : d ∉ line) (s : List α) :
    linesFrom d [] (line ++ d :: s) = (line :: (linesFrom d [] s).1, (linesFrom d [] s).2) := by
  rw [linesFrom_beginning hline, nil_append, linesFrom, if_pos rfl]

theorem not_mem_linesFrom {p : List α} (hp : d ∉ p) (s : List α) : d ∉ (linesFrom d p s).2 := by
  induction s generalizing p with
  | nil => exact hp
  | cons c s ih =>
    rw [linesFrom]
    split
    · exact ih not_mem_nil
    · next hc =>
        apply ih
        simp [hp, Ne.symm hc]

end Lines

end OpenVpn.Base
