import Mathlib.Data.List.GetD
import Mathlib.Data.Nat.ModEq

/-!
# Bounded queues

`ring array d head len` lists the `len` cells of an array from `head` on, wrapping at its
end. A client that pops at the head (`ring_succ`), pushes at the tail (`ring_push`) and
overwrites cells in between (`ring_set`) sees a list.

A `Fifo` keeps its entries in the order of their addition. An entry can be
revoked while it waits; it keeps its place and is passed over when the queue is
read. Adding to a full queue drops the oldest entry that is not revoked.

Entries that have left the queue are kept in `gone` together with their fate,
so that `entries` lists everything that was ever added: what is read
(`taken`) is what was added, in order, less what was revoked and what was
dropped.
-/

namespace OpenVpn.Base

open List Nat Function

variable {α : Type*}

/-! ## Ring buffers -/

/-- The `len` cells from `head` on. -/
def ring (array : List α) (d : α) (head len : Nat) : List α :=
  (range len).map fun i => array.getD ((head + i) % array.length) d

@[simp] theorem ring_length (array : List α) (d : α) (head len : Nat) :
    (ring array d head len).length = len := by
  simp [ring]

theorem ring_mod (array : List α) (d : α) (head len : Nat) :
    ring array d (head % array.length) len = ring array d head len := by
  simp only [ring, mod_add_mod]

theorem ring_succ (array : List α) (d : α) (head len : Nat) :
    ring array d head (len + 1) =
      array.getD (head % array.length) d :: ring array d (head + 1) len := by
  simp only [ring, range_succ_eq_map, map_cons, map_map, Nat.add_zero]
  congr 1
  apply map_congr_left
  intro i _
  show array.getD ((head + (i + 1)) % array.length) d = _
  rw [Nat.add_right_comm, Nat.add_assoc]

theorem ring_getElem? {array : List α} {d : α} {head len i : Nat} (hi : i < len) :
    (ring array d head len)[i]? = some (array.getD ((head + i) % array.length) d) := by
  simp [ring, hi]

theorem ring_cell_inj {head n i j : Nat} (hi : i < n) (hj : j < n)
    (h : (head + i) % n = (head + j) % n) : i = j := by
  have hmod : i ≡ j [MOD n] := Nat.ModEq.add_left_cancel' head h
  exact hmod.eq_of_lt_of_lt hi hj

theorem ring_set (array : List α) (d x : α) (head : Nat) {len i : Nat} (hi : i < len)
    (hlen : len ≤ array.length) :
    ring (array.set ((head + i) % array.length) x) d head len =
      (ring array d head len).set i x := by
  apply ext_getElem?
  intro j
  have hcell : (head + i) % array.length < array.length := mod_lt _ (by omega)
  by_cases hj : j < len
  · rw [ring_getElem? hj, length_set, getElem?_set]
    by_cases hij : i = j
    · subst hij
      rw [if_pos rfl, ring_length, if_pos hi, getD_eq_getElem?_getD,
        getElem?_set_self hcell, Option.getD_some]
    · have hne : (head + i) % array.length ≠ (head + j) % array.length :=
        fun h => hij (ring_cell_inj (by omega) (by omega) h)
      rw [if_neg hij, ring_getElem? hj, getD_eq_getElem?_getD, getElem?_set_ne hne,
        getD_eq_getElem?_getD]
  · rw [getElem?_eq_none (by simpa using hj), getElem?_eq_none (by simpa using hj)]

theorem ring_push (array : List α) (d x : α) (head : Nat) {len : Nat} (hlen : len < array.length) :
    ring (array.set ((head + len) % array.length) x) d head (len + 1) =
      ring array d head len ++ [x] := by
  rw [ring_set array d x head (lt_succ_self len) hlen]
  have hspl : ring array d head (len + 1) = ring array d head len ++
      [array.getD ((head + len) % array.length) d] := by
    simp [ring, range_succ]
  rw [hspl, set_append_right _ _ (by simp)]
  simp

/-! ## Queues with revocation -/

/-- How an entry left the queue. -/
inductive Fate where
  | taken
  | dropped
  | revoked
  deriving DecidableEq

/-- `gone` in the order of addition, `queue` behind it; a queued entry is `true`
until it is revoked. -/
structure Fifo (α : Type*) where
  gone : List (α × Fate)
  queue : List (α × Bool)

namespace Fifo

def empty : Fifo α := ⟨[], []⟩

/-- Everything that was added, in order. -/
def entries (f : Fifo α) : List α := f.gone.map Prod.fst ++ f.queue.map Prod.fst

/-- What was read. -/
def taken (f : Fifo α) : List α := (f.gone.filter (·.2 = .taken)).map Prod.fst

/-- Remove the oldest entry that is not revoked, passing over those that are. -/
def pop (fate : Fate) (f : Fifo α) : Fifo α × Option α :=
  let passed := (f.queue.takeWhile (!·.2)).map fun e => (e.1, Fate.revoked)
  match f.queue.dropWhile (!·.2) with
  | [] => (⟨f.gone ++ passed, []⟩, none)
  | e :: rest => (⟨f.gone ++ passed ++ [(e.1, fate)], rest⟩, some e.1)

/-- Make room if the queue is full, then add at the end. -/
def push (capacity : Nat) (x : α) (f : Fifo α) : Fifo α :=
  let f := if f.queue.length = capacity then (f.pop .dropped).1 else f
  ⟨f.gone, f.queue ++ [(x, true)]⟩

/-- Revoke the queued entries that meet `p`. -/
def revoke (p : α → Bool) (f : Fifo α) : Fifo α :=
  ⟨f.gone, f.queue.map fun e => (e.1, e.2 && !p e.1)⟩

theorem entries_pop (fate : Fate) (f : Fifo α) : (f.pop fate).1.entries = f.entries := by
  have hspl := takeWhile_append_dropWhile (p := fun e : α × Bool => !e.2) (l := f.queue)
  have hmap : f.queue.map Prod.fst = (f.queue.takeWhile (!·.2)).map Prod.fst ++
      (f.queue.dropWhile (!·.2)).map Prod.fst := by
    rw [← map_append, hspl]
  unfold pop entries
  rw [hmap]
  cases f.queue.dropWhile (!·.2) with
  | nil => simp [comp_def]
  | cons e rest => simp [comp_def]

theorem taken_pop (fate : Fate) (f : Fifo α) :
    (f.pop fate).1.taken = f.taken ++ if fate = .taken then (f.pop fate).2.toList else [] := by
  have hpassed : ((f.queue.takeWhile (!·.2)).map fun e => (e.1, Fate.revoked)).filter
      (·.2 = .taken) = [] := by
    simp
  unfold pop taken
  cases f.queue.dropWhile (!·.2) with
  | nil =>
    simp only [filter_append, hpassed]
    split <;> simp
  | cons e rest =>
    simp only [filter_append, hpassed]
    split
    · next h => simp [h]
    · next h => simp [h]

theorem pop_queue (fate : Fate) (f : Fifo α) :
    (f.pop fate).1.queue = (f.queue.dropWhile (!·.2)).tail ∧
      (f.pop fate).2 = (f.queue.dropWhile (!·.2)).head?.map Prod.fst := by
  unfold pop
  cases f.queue.dropWhile (!·.2) with
  | nil => exact ⟨rfl, rfl⟩
  | cons e rest => exact ⟨rfl, rfl⟩

theorem entries_push (capacity : Nat) (x : α) (f : Fifo α) :
    (f.push capacity x).entries = f.entries ++ [x] := by
  have hadd : ∀ g : Fifo α, (⟨g.gone, g.queue ++ [(x, true)]⟩ : Fifo α).entries =
      g.entries ++ [x] := by
    intro g
    simp [entries]
  unfold push
  rw [hadd]
  split
  · rw [entries_pop]
  · rfl

theorem taken_push (capacity : Nat) (x : α) (f : Fifo α) : (f.push capacity x).taken = f.taken := by
  unfold push
  split
  · show (f.pop .dropped).1.taken = f.taken
    rw [taken_pop]
    simp
  · rfl

theorem entries_revoke (p : α → Bool) (f : Fifo α) : (f.revoke p).entries = f.entries := by
  simp [revoke, entries, comp_def]

end Fifo

end OpenVpn.Base
