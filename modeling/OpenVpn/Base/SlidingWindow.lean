import OpenVpn.Base.Run
import Mathlib.Order.Lattice

/-!
# Sliding acceptance windows

The abstract receiver of numbered messages: messages carry a time stamp and a
positive number, and the receiver keeps the greatest time stamp it accepted
(`base`), the greatest number accepted under it (`high`), and every number
accepted under it together with the clock at that moment (`seen`). It forgets
nothing. A number is acceptable when it is above `high`, or when it lies within
`width` of `high`, was not accepted before, and is not expired: no number at or
above it was accepted longer than `back` before the last expiry pass.

`run_accepted_nodup` instantiates to `SlidingWindow.accepted_nodup`: no pair of
time stamp and number is accepted twice.
-/

namespace OpenVpn.Base

/-- The state of the abstract receiver. -/
structure SlidingWindow (τ : Type*) where
  base : τ
  high : Nat
  /-- The numbers accepted under `base`, each with the clock of its acceptance. -/
  seen : List (Nat × Int)
  /-- The clock of the last expiry pass. -/
  reaped : Int

/-- A message with the clock at its arrival; `reap` says whether the receiver
makes an expiry pass before it looks at the message. -/
structure Arrival (τ : Type*) where
  now : Int
  reap : Bool
  time : τ
  id : Nat

namespace SlidingWindow

variable {τ : Type*}

/-- `id` was accepted under the current base. -/
def Seen (w : SlidingWindow τ) (id : Nat) : Prop := ∃ t, (id, t) ∈ w.seen

/-- `id` is expired: some number at or above it is too old. `back = 0` switches
expiry off. -/
def Expired (back : Int) (w : SlidingWindow τ) (id : Nat) : Prop :=
  back ≠ 0 ∧ ∃ k t, (k, t) ∈ w.seen ∧ id ≤ k ∧ t + back < w.reaped

instance (w : SlidingWindow τ) (id : Nat) : Decidable (w.Seen id) :=
  decidable_of_iff (∃ e ∈ w.seen, e.1 = id)
    ⟨fun ⟨e, he, h⟩ => ⟨e.2, h ▸ he⟩, fun ⟨t, ht⟩ => ⟨(id, t), ht, rfl⟩⟩

instance (back : Int) (w : SlidingWindow τ) (id : Nat) : Decidable (w.Expired back id) :=
  decidable_of_iff (back ≠ 0 ∧ ∃ e ∈ w.seen, id ≤ e.1 ∧ e.2 + back < w.reaped)
    ⟨fun ⟨hb, e, he, h⟩ => ⟨hb, e.1, e.2, he, h⟩, fun ⟨hb, k, t, he, h⟩ => ⟨hb, (k, t), he, h⟩⟩

/-- The window with nothing accepted yet. -/
def initial (base : τ) : SlidingWindow τ := { base := base, high := 0, seen := [], reaped := 0 }

/-- An expiry pass. -/
def reap (now : Int) (w : SlidingWindow τ) : SlidingWindow τ := { w with reaped := now }

/-- The expiry pass an arrival asks for. -/
def tick (w : SlidingWindow τ) (a : Arrival τ) : SlidingWindow τ :=
  if a.reap then w.reap a.now else w

@[simp] theorem reap_seen (now : Int) (w : SlidingWindow τ) :
    (w.reap now).seen = w.seen := rfl

@[simp] theorem seen_reap (now : Int) (w : SlidingWindow τ) (id : Nat) :
    (w.reap now).Seen id ↔ w.Seen id := Iff.rfl

variable {back : Int} {w : SlidingWindow τ} {id : Nat}

theorem Expired.mono {id' : Nat} (h : w.Expired back id) (hle : id' ≤ id) : w.Expired back id' := by
  obtain ⟨hb, k, t, hmem, hk, ht⟩ := h
  exact ⟨hb, k, t, hmem, Nat.le_trans hle hk, ht⟩

theorem Expired.reap {now : Int} (h : w.Expired back id) (hle : w.reaped ≤ now) :
    (w.reap now).Expired back id := by
  obtain ⟨hb, k, t, hmem, hk, ht⟩ := h
  exact ⟨hb, k, t, hmem, hk, Int.lt_of_lt_of_le ht hle⟩

variable [LinearOrder τ]

def Accepts (width : Nat) (back : Int) (w : SlidingWindow τ) (time : τ) (id : Nat) : Prop :=
  id ≠ 0 ∧ (w.base < time ∨ w.base = time ∧
    (w.high < id ∨ w.high < id + width ∧ ¬ w.Seen id ∧ ¬ w.Expired back id))

instance (width : Nat) (back : Int) (w : SlidingWindow τ) (time : τ) (id : Nat) :
    Decidable (w.Accepts width back time id) := by
  unfold Accepts; infer_instance

/-- Accept a message: a greater time stamp starts a new base. -/
def accept (now : Int) (w : SlidingWindow τ) (time : τ) (id : Nat) : SlidingWindow τ :=
  if w.base < time then { base := time, high := id, seen := [(id, now)], reaped := w.reaped }
  else { w with high := max w.high id, seen := (id, now) :: w.seen }

/-- The receiver's reaction to an arrival. -/
def step (width : Nat) (back : Int) (w : SlidingWindow τ) (a : Arrival τ) :
    Option (SlidingWindow τ × Bool) :=
  if (w.tick a).Accepts width back a.time a.id then
    some ((w.tick a).accept a.now a.time a.id, true)
  else some (w.tick a, false)

/-! ## No pair is accepted twice -/

/-- The window remembers a pair: it is of an older base, or of the current one
and among the numbers seen. -/
def Remembers (w : SlidingWindow τ) (k : τ × Nat) : Prop :=
  k.1 < w.base ∨ k.1 = w.base ∧ w.Seen k.2 ∧ k.2 ≤ w.high

theorem Remembers.not_accepts {time : τ} (h : w.Remembers (time, id)) (width : Nat) (back : Int) :
    ¬ w.Accepts width back time id := by
  rintro ⟨_, hlt | ⟨heq, hnew⟩⟩
  · rcases h with h | ⟨h, -⟩
    · exact lt_asymm h hlt
    · exact absurd h (ne_of_gt hlt)
  · rcases h with h | ⟨-, hseen, hle⟩
    · exact absurd heq.symm (ne_of_lt h)
    · rcases hnew with hgt | ⟨-, hns, -⟩
      · exact absurd hle (Nat.not_le.mpr hgt)
      · exact hns hseen

theorem Remembers.tick {k : τ × Nat} (h : w.Remembers k) (a : Arrival τ) :
    (w.tick a).Remembers k := by
  unfold SlidingWindow.tick
  split
  · exact h
  · exact h

theorem Remembers.accept {k : τ × Nat} (h : w.Remembers k) (now : Int) (time : τ) (id : Nat) :
    (w.accept now time id).Remembers k := by
  unfold SlidingWindow.accept
  split
  · rename_i hlt
    rcases h with h | ⟨h, -⟩
    · exact .inl (lt_trans h hlt)
    · exact .inl (h ▸ hlt)
  · rcases h with h | ⟨h, ⟨t, ht⟩, hle⟩
    · exact .inl h
    · exact .inr ⟨h, ⟨t, List.mem_cons_of_mem _ ht⟩, Nat.le_trans hle (Nat.le_max_left ..)⟩

theorem remembers_accepted {width : Nat} {time : τ} (h : w.Accepts width back time id) (now : Int) :
    (w.accept now time id).Remembers (time, id) := by
  unfold SlidingWindow.accept
  split
  · exact .inr ⟨rfl, ⟨now, List.mem_cons_self⟩, Nat.le_refl _⟩
  · rename_i hlt
    obtain ⟨-, hbase | ⟨hbase, -⟩⟩ := h
    · exact absurd hbase hlt
    · exact .inr ⟨hbase.symm, ⟨now, List.mem_cons_self⟩, Nat.le_max_right ..⟩

theorem accepted_nodup {width : Nat} {base : τ} {as : List (Arrival τ)} {os : List Bool}
    (h : run (step width back) (initial base) as = some (w, os)) :
    ((accepted as os).map fun a => (a.time, a.id)).Nodup := by
  refine (run_accepted_nodup (I := fun w S => ∀ k, S k → w.Remembers k) (G := fun _ => True)
    (S := fun _ => False) ?_ ?_ (fun _ hk => hk.elim) (fun _ _ => trivial) h).1
  · intro w S a w' hI _ hstep k hk
    unfold step at hstep
    split at hstep
    · cases hstep
    · cases hstep
      exact (hI k hk).tick a
  · intro w S a w' hI _ hstep
    unfold step at hstep
    split at hstep
    · rename_i hacc
      cases hstep
      refine ⟨fun hk => ((hI _ hk).tick a).not_accepts width back hacc, ?_⟩
      rintro k (hk | rfl)
      · exact ((hI k hk).tick a).accept _ _ _
      · exact remembers_accepted hacc _
    · cases hstep

end SlidingWindow

end OpenVpn.Base
