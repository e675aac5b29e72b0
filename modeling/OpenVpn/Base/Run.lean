import Mathlib.Data.List.Basic

/-!
# Runs of an aborting transition function

The systems of this development are functions `step : σ → ε → Option (σ × ο)`:
a state consumes an event and either aborts (`none`, a failed assertion of the
source) or yields the next state and an output. `run` folds a list of events
and collects the outputs. The kit has

* **inversion** — `run_cons_inv`, and the other direction `run_cons`;
* **the invariant rule** — `run_invariant`, `run_history`, `run_outputs`: what
  one step preserves (of the state, of the state and the outputs so far) or
  guarantees of its output holds of the whole run;
* **progress** — `run_isSome`, `run_trace`: a step that never aborts gives a run that
  never aborts;
* **simulation** — `run_refines`, `run_lockstep`, `run_simulates`: matching steps
  give matching runs with the same outputs; the last one is for events under a
  clock that never goes back;
* **order** — `run_emitted_increasing`: values emitted along a position that
  never goes back increase;
* **uniqueness** — `run_accepted_nodup`: a system that remembers what it
  accepted accepts nothing twice;
* **leases** — `Leased.take`, `Leased.drop`: the invariant of a system whose members take
  slots, at most one each, and give them back.

Events may carry a guard `G : σ → ε → Prop` that is required of every event in
the state it is consumed in (`RunGuard`).
-/

namespace OpenVpn.Base

open List

variable {σ τ ε ο : Type*}

/-- Fold the events, collecting the outputs; abort as soon as a step does. -/
def run (step : σ → ε → Option (σ × ο)) : σ → List ε → Option (σ × List ο)
  | s, [] => some (s, [])
  | s, e :: es =>
    match step s e with
    | none => none
    | some (s', o) =>
      match run step s' es with
      | none => none
      | some (s'', os) => some (s'', o :: os)

/-- Every event meets the guard in the state that consumes it. -/
def RunGuard (step : σ → ε → Option (σ × ο)) (G : σ → ε → Prop) : σ → List ε → Prop
  | _, [] => True
  | s, e :: es => G s e ∧ ∀ s' o, step s e = some (s', o) → RunGuard step G s' es

instance RunGuard.decidable {step : σ → ε → Option (σ × ο)} {G : σ → ε → Prop}
    [∀ s e, Decidable (G s e)] : ∀ s es, Decidable (RunGuard step G s es)
  | _, [] => isTrue trivial
  | s, e :: es =>
    match hstep : step s e with
    | none =>
      decidable_of_iff (G s e)
        ⟨fun h => ⟨h, fun _ _ he => absurd (hstep.symm.trans he) nofun⟩, And.left⟩
    | some (s', o) =>
      have : Decidable (RunGuard step G s' es) := RunGuard.decidable s' es
      decidable_of_iff (G s e ∧ RunGuard step G s' es)
        ⟨fun h => ⟨h.1, fun _ _ he => by cases hstep.symm.trans he; exact h.2⟩,
          fun h => ⟨h.1, h.2 s' o hstep⟩⟩

variable {step : σ → ε → Option (σ × ο)}

theorem runGuard_true (s : σ) (es : List ε) : RunGuard step (fun _ _ => True) s es := by
  induction es generalizing s with
  | nil => trivial
  | cons e es ih => exact ⟨trivial, fun s' _ _ => ih s'⟩

theorem RunGuard.and {G G' : σ → ε → Prop} {s : σ} {es : List ε} (h : RunGuard step G s es)
    (h' : RunGuard step G' s es) : RunGuard step (fun s e => G s e ∧ G' s e) s es := by
  induction es generalizing s with
  | nil => trivial
  | cons e es ih =>
    exact ⟨⟨h.1, h'.1⟩, fun s' o hstep => ih (h.2 s' o hstep) (h'.2 s' o hstep)⟩

variable {s s'' : σ} {e : ε} {es : List ε} {os : List ο}

theorem run_cons_inv (h : run step s (e :: es) = some (s'', os)) :
    ∃ s' o os', step s e = some (s', o) ∧ run step s' es = some (s'', os') ∧ os = o :: os' := by
  rw [run] at h
  split at h
  · cases h
  · next s' o hstep =>
      split at h
      · cases h
      · next hrun =>
          cases h
          exact ⟨s', o, _, hstep, hrun, rfl⟩

variable {s' : σ}

theorem run_cons {o : ο} (hstep : step s e = some (s', o))
    (hrun : run step s' es = some (s'', os)) : run step s (e :: es) = some (s'', o :: os) := by
  simp only [run, hstep, hrun]

theorem run_append {es' : List ε} {os' : List ο} (h : run step s es = some (s', os))
    (h' : run step s' es' = some (s'', os')) : run step s (es ++ es') = some (s'', os ++ os') := by
  induction es generalizing s os with
  | nil =>
    cases h
    exact h'
  | cons e es ih =>
    obtain ⟨s1, o, os1, hstep, hrun, rfl⟩ := run_cons_inv h
    exact run_cons hstep (ih hrun)

variable {I : σ → Prop} {G : σ → ε → Prop}

/-- **The invariant rule.** What every guarded step preserves, every guarded
run preserves. -/
theorem run_invariant (hstep : ∀ s e s' o, I s → G s e → step s e = some (s', o) → I s') (hI : I s)
    (hG : RunGuard step G s es) (h : run step s es = some (s', os)) : I s' := by
  induction es generalizing s os with
  | nil => cases h; exact hI
  | cons e es ih =>
    obtain ⟨s1, o, os', h1, hrun, rfl⟩ := run_cons_inv h
    exact ih (hstep s e s1 o hI hG.1 h1) (hG.2 s1 o h1) hrun

/-- What every guarded step says of its event and its output holds all along a run. -/
theorem run_outputs {Q : ε → ο → Prop}
    (hstep : ∀ s e s' o, G s e → step s e = some (s', o) → Q e o) (hG : RunGuard step G s es)
    (h : run step s es = some (s', os)) : ∀ e o, (e, o) ∈ es.zip os → Q e o := by
  induction es generalizing s os with
  | nil => simp
  | cons e es ih =>
    obtain ⟨s1, o, os', h1, hrun, rfl⟩ := run_cons_inv h
    intro e' o' hmem
    rw [zip_cons_cons, mem_cons] at hmem
    cases hmem with
    | inl heq =>
      cases heq
      exact hstep s e s1 o hG.1 h1
    | inr htail => exact ih (hG.2 s1 o h1) hrun e' o' htail

/-- **The invariant rule with a history.** An invariant of the state and of the
outputs so far, kept by every guarded step, is kept by every guarded run. -/
theorem run_history {I : σ → List ο → Prop} {G : ε → Prop}
    (hstep : ∀ s h e s' o, I s h → G e → step s e = some (s', o) → I s' (h ++ [o])) {past : List ο}
    (hI : I s past) (hG : ∀ e ∈ es, G e) (h : run step s es = some (s', os)) :
    I s' (past ++ os) := by
  induction es generalizing s past os with
  | nil =>
    cases h
    rw [append_nil]
    exact hI
  | cons e es ih =>
    obtain ⟨s1, o, os', h1, hrun, rfl⟩ := run_cons_inv h
    rw [append_cons]
    exact ih (hstep s past e s1 o hI (hG e mem_cons_self) h1)
      (fun e' he' => hG e' (mem_cons_of_mem e he')) hrun

/-- **Progress with a history.** The invariant is of the events and the outputs so far
and of the state; a step may use which events are still to come. -/
theorem run_trace {I : List ε → List ο → σ → Prop} {all : List ε}
    (hstep : ∀ pre e post os s, all = pre ++ e :: post → I pre os s → G s e →
      ∃ s' o, step s e = some (s', o) ∧ I (pre ++ [e]) (os ++ [o]) s') (hI : I [] [] s)
    (hG : RunGuard step G s all) : ∃ s' os, run step s all = some (s', os) ∧ I all os s' := by
  -- the induction is on the events to come
  have hrest : ∀ post pre past s, all = pre ++ post → I pre past s → RunGuard step G s post →
      ∃ s' os, run step s post = some (s', os) ∧ I all (past ++ os) s' := by
    intro post
    induction post with
    | nil =>
      intro pre past s hall hI _
      rw [append_nil] at hall
      exact ⟨s, [], rfl, by rwa [hall, append_nil]⟩
    | cons e post ih =>
      intro pre past s hall hI hG
      obtain ⟨s1, o, h1, hI1⟩ := hstep pre e post past s hall hI hG.1
      rw [append_cons] at hall
      obtain ⟨s', os, hrun, hI'⟩ := ih _ _ s1 hall hI1 (hG.2 s1 o h1)
      rw [← append_cons] at hI'
      exact ⟨s', o :: os, run_cons h1 hrun, hI'⟩
  exact hrest all [] [] s rfl hI hG

/-- **Progress.** Where every guarded step succeeds and keeps the invariant, a
guarded run never aborts and ends in the invariant. -/
theorem run_isSome (hstep : ∀ s e, I s → G s e → ∃ s' o, step s e = some (s', o) ∧ I s') (hI : I s)
    (hG : RunGuard step G s es) : ∃ s' os, run step s es = some (s', os) ∧ I s' :=
  run_trace (I := fun _ _ => I) (fun _ e _ _ s _ => hstep s e) hI hG

variable {step' : τ → ε → Option (τ × ο)} {t : τ}

/-- **Simulation under a clock.** The events carry readings of a clock that
never goes back, and the relation may depend on the last reading. Where related
states take matching steps with the same output, related states have matching
runs with the same outputs. -/
theorem run_simulates {clock : ε → Int} {G : ε → Prop} {R : Int → σ → τ → Prop}
    (hstep : ∀ c s t e, R c s t → c ≤ clock e → G e → ∃ s' t' o,
      step s e = some (s', o) ∧ step' t e = some (t', o) ∧ R (clock e) s' t') {c : Int}
    (hR : R c s t) (hc : ∀ e ∈ es, c ≤ clock e) (hmono : (es.map clock).Pairwise (· ≤ ·))
    (hG : ∀ e ∈ es, G e) :
    ∃ c' s' t' os, run step s es = some (s', os) ∧ run step' t es = some (t', os) ∧ R c' s' t' := by
  induction es generalizing c s t with
  | nil => exact ⟨c, s, t, [], rfl, rfl, hR⟩
  | cons e es ih =>
    rw [map_cons, pairwise_cons] at hmono
    obtain ⟨s1, t1, o, hs, ht, hR1⟩ :=
      hstep c s t e hR (hc e mem_cons_self) (hG e mem_cons_self)
    obtain ⟨c', s', t', os, hrs, hrt, hR'⟩ := ih hR1
      (fun e' he' => hmono.1 _ (mem_map_of_mem he')) hmono.2
      (fun e' he' => hG e' (mem_cons_of_mem _ he'))
    exact ⟨c', s', t', o :: os, run_cons hs hrs, run_cons ht hrt, hR'⟩

/-- **Refinement.** Where every step of the abstract system is matched by one of
the concrete system with the same output, every abstract run is matched. -/
theorem run_refines {R : σ → τ → Prop} (hstep : ∀ s t e t' o, R s t → step' t e = some (t', o) →
      ∃ s', step s e = some (s', o) ∧ R s' t') {t' : τ} (hR : R s t)
    (h : run step' t es = some (t', os)) : ∃ s', run step s es = some (s', os) ∧ R s' t' := by
  induction es generalizing s t os with
  | nil =>
    cases h
    exact ⟨s, rfl, hR⟩
  | cons e es ih =>
    obtain ⟨t1, o, os', h1, hrun, rfl⟩ := run_cons_inv h
    obtain ⟨s1, hs, hR1⟩ := hstep s t e t1 o hR h1
    obtain ⟨s', hrs, hR'⟩ := ih hR1 hrun
    exact ⟨s', run_cons hs hrs, hR'⟩

/-- **Lockstep.** Where related states take matching steps on every event that
meets the guard, related states have matching runs. -/
theorem run_lockstep {R : σ → τ → Prop} (hstep : ∀ s t e, R s t → G s e → ∃ s' t' o,
      step s e = some (s', o) ∧ step' t e = some (t', o) ∧ R s' t') (hR : R s t)
    (hG : RunGuard step G s es) :
    ∃ s' t' os, run step s es = some (s', os) ∧ run step' t es = some (t', os) ∧ R s' t' := by
  induction es generalizing s t with
  | nil => exact ⟨s, t, [], rfl, rfl, hR⟩
  | cons e es ih =>
    obtain ⟨s1, t1, o, hs, ht, hR1⟩ := hstep s t e hR hG.1
    obtain ⟨s', t', os, hrs, hrt, hR'⟩ := ih hR1 (hG.2 s1 o hs)
    exact ⟨s', t', o :: os, run_cons hs hrs, run_cons ht hrt, hR'⟩

/-! ## Emissions

A step whose output is an `Option` emits a value or nothing. -/

/-- The values a run emits, in order. -/
def emitted (os : List (Option ο)) : List ο := os.filterMap id

/-- **Emissions increase.** Where the state has a position that never goes back
and every emitted value lies above the position before the step and not above
the one after it, the values a run emits are strictly increasing. -/
theorem run_emitted_increasing (pos : σ → Nat) (val : ο → Nat)
    {step : σ → ε → Option (σ × Option ο)} {G : ε → Prop} {Q : ο → Prop}
    (hstep : ∀ s e s' o, I s → G e → step s e = some (s', o) → I s' ∧ pos s ≤ pos s' ∧
      ∀ x ∈ o, pos s < val x ∧ val x ≤ pos s' ∧ Q x) {os : List (Option ο)} (hI : I s)
    (hG : ∀ e ∈ es, G e) (h : run step s es = some (s', os)) :
    I s' ∧ (emitted os).Pairwise (val · < val ·) ∧ ∀ x ∈ emitted os, pos s < val x ∧ Q x := by
  induction es generalizing s os with
  | nil =>
    cases h
    exact ⟨hI, List.Pairwise.nil, by simp [emitted]⟩
  | cons e es ih =>
    obtain ⟨s1, o, os', h1, hrun, rfl⟩ := run_cons_inv h
    obtain ⟨hI1, hle, ho⟩ := hstep s e s1 o hI (hG e mem_cons_self) h1
    obtain ⟨hI', hpair, hall⟩ := ih hI1 (fun e' he' => hG e' (mem_cons_of_mem e he')) hrun
    have htail : ∀ x ∈ emitted os', pos s < val x ∧ Q x := fun x hx =>
      ⟨Nat.lt_of_le_of_lt hle (hall x hx).1, (hall x hx).2⟩
    cases o with
    | none => exact ⟨hI', hpair, htail⟩
    | some x =>
      obtain ⟨hlt, hle', hQ⟩ := ho x rfl
      refine ⟨hI', pairwise_cons.mpr ⟨fun y hy => ?_, hpair⟩,
        forall_mem_cons.mpr ⟨⟨hlt, hQ⟩, htail⟩⟩
      exact Nat.lt_of_le_of_lt hle' (hall y hy).1

/-! ## Verdicts

A step whose output is a `Bool` accepts or rejects its event. -/

/-- The events a run accepts, in order. -/
def accepted : List ε → List Bool → List ε
  | e :: es, true :: os => e :: accepted es os
  | _ :: es, false :: os => accepted es os
  | _, _ => []

@[simp] theorem accepted_nil (os : List Bool) : accepted ([] : List ε) os = [] := by
  cases os <;> rfl

@[simp] theorem accepted_cons_true (e : ε) (es : List ε) (os : List Bool) :
    accepted (e :: es) (true :: os) = e :: accepted es os := rfl

theorem run_accepted {step : σ → ε → Option (σ × Bool)} {Q : ε → Prop}
    (hstep : ∀ s e s' ok, I s → step s e = some (s', ok) → I s' ∧ (ok = true → Q e))
    {os : List Bool} (hI : I s) (h : run step s es = some (s', os)) :
    ∀ e ∈ accepted es os, Q e := by
  induction es generalizing s os with
  | nil => cases h; simp
  | cons e es ih =>
    obtain ⟨s1, o, os', h1, hrun, rfl⟩ := run_cons_inv h
    obtain ⟨hI1, hQ⟩ := hstep s e s1 o hI h1
    cases o with
    | false => exact ih hI1 hrun
    | true => exact forall_mem_cons.mpr ⟨hQ rfl, ih hI1 hrun⟩

/-- **No key is accepted twice.** `I s S` says that `s` remembers the set `S` of
keys. Where a rejecting step keeps what is remembered, and an accepting step
accepts only a key not remembered and remembers it from then on, the keys a run
accepts are distinct (and none was remembered before). -/
theorem run_accepted_nodup {κ : Type*} {step : σ → ε → Option (σ × Bool)} {key : ε → κ}
    {I : σ → (κ → Prop) → Prop} {G : ε → Prop}
    (hrej : ∀ s S e s', I s S → G e → step s e = some (s', false) → I s' S)
    (hacc : ∀ s S e s', I s S → G e → step s e = some (s', true) →
      ¬ S (key e) ∧ I s' (fun k => S k ∨ k = key e)) {S : κ → Prop} {os : List Bool} (hI : I s S)
    (hG : ∀ e ∈ es, G e) (h : run step s es = some (s', os)) :
    ((accepted es os).map key).Nodup ∧ ∀ k ∈ (accepted es os).map key, ¬ S k := by
  induction es generalizing s S os with
  | nil => cases h; simp
  | cons e es ih =>
    obtain ⟨s1, o, os', h1, hrun, rfl⟩ := run_cons_inv h
    have hGe := hG e mem_cons_self
    have hGes := fun e' he' => hG e' (mem_cons_of_mem e he')
    cases o with
    | false => exact ih (hrej s S e s1 hI hGe h1) hGes hrun
    | true =>
      obtain ⟨hnew, hI1⟩ := hacc s S e s1 hI hGe h1
      obtain ⟨hnd, hout⟩ := ih hI1 hGes hrun
      rw [accepted_cons_true, map_cons, nodup_cons, forall_mem_cons]
      exact ⟨⟨fun hk => hout _ hk (.inr rfl), hnd⟩, hnew, fun k hk hS => hout k hk (.inl hS)⟩

/-! ## Leases

Holders `ι` take slots `κ`. The slots marked as used are those that somebody holds, and
nobody shares one. -/

section Lease

open Function

variable {ι κ : Type*}

structure Leased (used : κ → Prop) (holds : ι → Option κ) : Prop where
  used_iff : ∀ k, used k ↔ ∃ i, holds i = some k
  exclusive : ∀ i j k, holds i = some k → holds j = some k → i = j

theorem Leased.empty : Leased (fun _ : κ => False) (fun _ : ι => none) :=
  ⟨by simp, by simp⟩

theorem Leased.congr {used used' : κ → Prop} {holds holds' : ι → Option κ}
    (h : Leased used holds) (hused : ∀ k, used' k ↔ used k) (hholds : ∀ i, holds' i = holds i) :
    Leased used' holds' := by
  obtain rfl : used' = used := funext fun k => propext (hused k)
  obtain rfl : holds' = holds := funext hholds
  exact h

variable [DecidableEq ι] {used : κ → Prop} {holds : ι → Option κ}

theorem Leased.take (h : Leased used holds) {i : ι} {k : κ} (hk : ¬used k) (hi : holds i = none) :
    Leased (fun k' => k' = k ∨ used k') (Function.update holds i (some k)) where
  used_iff k' := by
    constructor
    · rintro (rfl | hused)
      · exact ⟨i, update_self ..⟩
      · obtain ⟨j, hj⟩ := (h.used_iff k').mp hused
        have hne : j ≠ i := fun heq => by simp [← heq, hj] at hi
        exact ⟨j, (update_of_ne hne ..).trans hj⟩
    · rintro ⟨j, hj⟩
      by_cases hji : j = i
      · subst hji
        rw [update_self] at hj
        exact .inl (Option.some.inj hj).symm
      · rw [update_of_ne hji] at hj
        exact .inr ((h.used_iff k').mpr ⟨j, hj⟩)
  exclusive := by
    -- a slot that is held already is not the free one
    have hfree : ∀ j, holds j ≠ some k := fun j hj => hk ((h.used_iff k).mpr ⟨j, hj⟩)
    intro j j' k' hj hj'
    have hex := h.exclusive j j' k'
    grind [update_apply]

theorem Leased.drop (h : Leased used holds) (i : ι) :
    Leased (fun k => used k ∧ holds i ≠ some k) (Function.update holds i none) where
  used_iff k := by
    rw [h.used_iff]
    constructor
    · rintro ⟨⟨j, hj⟩, hne⟩
      have hji : j ≠ i := fun heq => hne (heq ▸ hj)
      exact ⟨j, (update_of_ne hji ..).trans hj⟩
    · rintro ⟨j, hj⟩
      have hji : j ≠ i := fun heq => by simp [heq] at hj
      rw [update_of_ne hji] at hj
      exact ⟨⟨j, hj⟩, fun hi => hji (h.exclusive j i k hj hi)⟩
  exclusive j j' k hj hj' := by
    have hex := h.exclusive j j' k
    grind [update_apply]

end Lease

end OpenVpn.Base
