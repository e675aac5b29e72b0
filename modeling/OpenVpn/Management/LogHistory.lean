import Mathlib.Data.List.TakeDrop
import OpenVpn.Base.Fifo
import OpenVpn.Base.Run
import OpenVpn.Util.CircList

/-!
# The log history of the management interface

The last messages are kept in a ring, which can be replaced by one of another capacity.

* `logHistoryAdd`, `logHistoryResize`, `logHistoryRef` — the ring.
* `listStep` — what it stands for: a list that is cut to its newest `capacity` elements.
* `log_history_refines` — every run of the ring is one of the list.
-/

namespace OpenVpn

open Base List Nat

/-- `struct log_history`, with a base inside the array and a size it can hold. -/
structure LogHistory (α : Type) where
  base : Nat
  size : Nat
  array : List α
  base_lt : base < array.length
  size_le : size ≤ array.length

variable {α : Type} (zero : α)

namespace LogHistory

def capacity (h : LogHistory α) : Nat := h.array.length

def logIndex (h : LogHistory α) (i : Nat) : Nat := (moduloAdd h.base i h.capacity).toNat

theorem logIndex_eq (h : LogHistory α) {i : Nat} (hi : i ≤ h.capacity) :
    h.logIndex i = (h.base + i) % h.capacity := by
  have hlt : h.base < h.capacity := h.base_lt
  have hok : ModuloAddOk h.base i h.capacity := ⟨by omega, by omega, by omega, by omega⟩
  rw [logIndex, moduloAdd_eq_emod hok]
  exact Int.toNat_natCast _

theorem logIndex_lt (h : LogHistory α) {i : Nat} (hi : i ≤ h.capacity) :
    h.logIndex i < h.array.length := by
  rw [h.logIndex_eq hi]
  exact mod_lt _ (zero_lt_of_lt h.base_lt)

theorem capacity_pos (h : LogHistory α) : 0 < h.capacity := zero_lt_of_lt h.base_lt

end LogHistory

/-- `log_history_init`, with cleared entries. -/
def logHistoryInit (capacity : Nat) : Option (LogHistory α) :=
  if h : 0 < capacity then
    some ⟨0, 0, replicate capacity zero, by simpa using h, zero_le _⟩
  else none

def logHistoryAdd (h : LogHistory α) (le : α) : LogHistory α :=
  if hfull : h.size = h.capacity then
    { base := h.logIndex 1
      size := h.size
      array := h.array.set h.base le
      base_lt := by rw [length_set]; exact h.logIndex_lt h.capacity_pos
      size_le := by rw [length_set]; exact h.size_le }
  else
    { base := h.base
      size := h.size + 1
      array := h.array.set (h.logIndex h.size) le
      base_lt := by rw [length_set]; exact h.base_lt
      size_le := by rw [length_set]; exact lt_of_le_of_ne h.size_le hfull }

/-- The entries, oldest first. -/
def LogHistory.entries (h : LogHistory α) : List α :=
  (range h.size).map fun i => h.array.getD (h.logIndex i) zero

/-- `log_history_resize`: the entries are added to a new history. -/
def logHistoryResize (h : LogHistory α) (capacity : Nat) : Option (LogHistory α) :=
  if capacity ≠ h.capacity then
    (logHistoryInit zero capacity).map fun newlog => (h.entries zero).foldl logHistoryAdd newlog
  else some h

def logHistoryRef (h : LogHistory α) (index : Int) : Option α :=
  if 0 ≤ index ∧ index < h.size then h.array[h.logIndex (h.size - 1 - index).toNat]? else none

/-! ## The list of a ring -/

def LogHistory.recent (h : LogHistory α) : List α := (h.entries zero).reverse

@[simp] theorem LogHistory.recent_length (h : LogHistory α) : (h.recent zero).length = h.size := by
  simp [recent, entries]

theorem LogHistory.entries_eq_ring (h : LogHistory α) :
    h.entries zero = ring h.array zero h.base h.size := by
  refine map_congr_left fun i hi => ?_
  rw [h.logIndex_eq ((mem_range.mp hi).le.trans h.size_le), capacity]

theorem logHistoryInit_spec {capacity : Nat} (hcap : 0 < capacity) :
    ∃ h, logHistoryInit zero capacity = some h ∧ h.capacity = capacity ∧ h.recent zero = [] :=
  ⟨_, dif_pos hcap, length_replicate, rfl⟩

/-- A full ring loses its oldest entry. -/
theorem logHistoryAdd_spec (h : LogHistory α) (le : α) :
    (logHistoryAdd h le).capacity = h.capacity ∧
      (logHistoryAdd h le).recent zero = (le :: h.recent zero).take h.capacity := by
  simp only [LogHistory.recent, LogHistory.entries_eq_ring]
  unfold logHistoryAdd
  split
  case isTrue hfull =>
    -- the oldest entry is overwritten, and is then the newest
    obtain ⟨n, hn⟩ : ∃ n, h.array.length = n + 1 := exists_eq_add_one.mpr h.capacity_pos
    have hcell : (h.base + 1 + n) % h.array.length = h.base := by
      rw [hn, add_assoc, add_comm 1 n, add_mod_right, mod_eq_of_lt (hn ▸ h.base_lt)]
    have hpush := ring_push h.array zero le (h.base + 1) (show n < h.array.length by omega)
    rw [hcell, ← ring_mod, length_set] at hpush
    refine ⟨length_set, ?_⟩
    have hbase : h.logIndex 1 = (h.base + 1) % h.array.length := h.logIndex_eq h.capacity_pos
    show (ring (h.array.set h.base le) zero (h.logIndex 1) h.size).reverse = _
    rw [hbase, hfull, show h.capacity = n + 1 from hn, hpush, ring_succ]
    simp
  case isFalse hfull =>
    have hsize : h.size < h.array.length := lt_of_le_of_ne h.size_le hfull
    refine ⟨length_set, ?_⟩
    show (ring (h.array.set (h.logIndex h.size) le) zero h.base (h.size + 1)).reverse = _
    rw [h.logIndex_eq h.size_le, LogHistory.capacity, ring_push _ _ _ _ hsize, reverse_append,
      take_of_length_le (by simpa using succ_le_of_lt hsize)]
    rfl

theorem foldl_logHistoryAdd (l : List α) (h : LogHistory α) :
    (l.foldl logHistoryAdd h).capacity = h.capacity ∧
      (l.foldl logHistoryAdd h).recent zero = (l.reverse ++ h.recent zero).take h.capacity := by
  induction l generalizing h with
  | nil => exact ⟨rfl, (take_of_length_le ((h.recent_length zero).trans_le h.size_le)).symm⟩
  | cons e l ih =>
    obtain ⟨hcap, hrec⟩ := ih (logHistoryAdd h e)
    obtain ⟨hcap1, hrecent1⟩ := logHistoryAdd_spec zero h e
    rw [foldl_cons, hcap, hrec, hcap1, hrecent1, reverse_cons, append_assoc,
      singleton_append, take_append, take_take, min_eq_left (sub_le _ _),
      ← take_append]
    exact ⟨rfl, rfl⟩

theorem logHistoryResize_spec (h : LogHistory α) {capacity : Nat} (hcap : 0 < capacity) :
    ∃ h', logHistoryResize zero h capacity = some h' ∧ h'.capacity = capacity ∧
      h'.recent zero = (h.recent zero).take capacity := by
  unfold logHistoryResize
  split
  case isTrue =>
    obtain ⟨newlog, hnew, hcap', hemp⟩ := logHistoryInit_spec zero hcap
    obtain ⟨hcap'', hrec⟩ := foldl_logHistoryAdd zero (h.entries zero) newlog
    rw [hemp, append_nil, hcap'] at hrec
    exact ⟨_, by rw [hnew, Option.map_some], hcap''.trans hcap', hrec⟩
  case isFalse hsame =>
    obtain rfl : capacity = h.capacity := not_not.mp hsame
    refine ⟨h, rfl, rfl, (take_of_length_le ?_).symm⟩
    exact (h.recent_length zero).trans_le h.size_le

theorem logHistoryRef_eq (h : LogHistory α) (index : Int) :
    logHistoryRef h index = if 0 ≤ index then (h.recent zero)[index.toNat]? else none := by
  unfold logHistoryRef
  by_cases hneg : 0 ≤ index
  · obtain ⟨i, rfl⟩ := Int.eq_ofNat_of_zero_le hneg
    rw [if_pos hneg, Int.toNat_natCast]
    by_cases hi : i < h.size
    · have hget : (h.entries zero)[h.size - 1 - i]? =
          some (h.array.getD (h.logIndex (h.size - 1 - i)) zero) := by
        rw [LogHistory.entries, getElem?_map, getElem?_range (by omega)]
        rfl
      have hlt := h.logIndex_lt (((sub_le _ i).trans (sub_le _ 1)).trans h.size_le)
      rw [if_pos ⟨hneg, by omega⟩, show ((h.size : Int) - 1 - i).toNat = h.size - 1 - i by omega,
        getElem?_eq_getElem hlt, ← getD_eq_getElem _ zero hlt, ← hget, LogHistory.recent,
        getElem?_reverse (by simpa [LogHistory.entries] using hi)]
      simp [LogHistory.entries]
    · rw [if_neg (by omega), getElem?_eq_none (by simpa using hi)]
  · rw [if_neg (by omega), if_neg hneg]

/-! ## Runs -/

inductive LogEvent (α : Type)
  | add (le : α)
  | resize (capacity : Nat) (pos : 0 < capacity)
  | ref (index : Int)

def logStep (h : LogHistory α) : LogEvent α → Option (LogHistory α × Option α)
  | .add le => some (logHistoryAdd h le, none)
  | .resize capacity _ => (logHistoryResize zero h capacity).map (·, none)
  | .ref index => some (h, logHistoryRef h index)

/-- How many entries are kept, and the entries from the newest on. -/
def listStep : Nat × List α → LogEvent α → Option ((Nat × List α) × Option α)
  | (capacity, l), .add le => some ((capacity, (le :: l).take capacity), none)
  | (_, l), .resize capacity _ => some ((capacity, l.take capacity), none)
  | (capacity, l), .ref index =>
    some ((capacity, l), if 0 ≤ index then l[index.toNat]? else none)

theorem logStep_refines (h : LogHistory α) (e : LogEvent α) :
    ∃ h' o, logStep zero h e = some (h', o) ∧
      listStep (h.capacity, h.recent zero) e = some ((h'.capacity, h'.recent zero), o) := by
  cases e with
  | add le =>
    refine ⟨logHistoryAdd h le, none, rfl, ?_⟩
    rw [(logHistoryAdd_spec zero h le).1, (logHistoryAdd_spec zero h le).2]
    rfl
  | resize capacity pos =>
    obtain ⟨h', hresize, hcap, hrec⟩ := logHistoryResize_spec zero h pos
    refine ⟨h', none, by rw [logStep, hresize]; rfl, ?_⟩
    rw [hcap, hrec]
    rfl
  | ref index =>
    refine ⟨h, _, rfl, ?_⟩
    rw [logHistoryRef_eq zero]
    rfl

/-- **The log history.** A ring of any positive capacity goes through every sequence of
additions and of changes to positive capacities as the list does, and gives the same answers
at any time. -/
theorem log_history_refines {capacity : Nat} (hcap : 0 < capacity) (events : List (LogEvent α)) :
    ∃ h₀ h outs, logHistoryInit zero capacity = some h₀ ∧
      run (logStep zero) h₀ events = some (h, outs) ∧
      run listStep (capacity, []) events = some ((h.capacity, h.recent zero), outs) := by
  obtain ⟨h₀, hinit, hcap0, hrecent0⟩ := logHistoryInit_spec zero hcap
  have hstep : ∀ h t e, t = (h.capacity, h.recent zero) → True → ∃ h' t' o,
      logStep zero h e = some (h', o) ∧ listStep t e = some (t', o) ∧
        t' = (h'.capacity, h'.recent zero) := by
    rintro h _ e rfl -
    obtain ⟨h', o, hring, hlist⟩ := logStep_refines zero h e
    exact ⟨h', _, o, hring, hlist, rfl⟩
  obtain ⟨h, _, outs, hring, hlist, rfl⟩ := run_lockstep hstep rfl (runGuard_true h₀ events)
  rw [hcap0, hrecent0] at hlist
  exact ⟨h₀, h, outs, hinit, hring, hlist⟩

/-- Three messages in a history of two, which is then cut to one. -/
theorem log_history_three : 0 < 2 ∧ ∃ h₀ h outs, logHistoryInit 0 2 = some h₀ ∧
    run (logStep 0) h₀ [.add 5, .add 6, .add 7, .ref 1, .resize 1 one_pos, .ref 0, .ref 1] =
      some (h, outs) ∧
    run listStep (2, []) [.add 5, .add 6, .add 7, .ref 1, .resize 1 one_pos, .ref 0, .ref 1] =
      some ((h.capacity, h.recent 0), outs) :=
  ⟨Nat.two_pos, log_history_refines 0 Nat.two_pos _⟩

end OpenVpn
