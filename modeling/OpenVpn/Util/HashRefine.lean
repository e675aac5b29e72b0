import Mathlib.Data.Finmap
import OpenVpn.Base.Run
import OpenVpn.Util.Hash

/-!
# The hash table is a finite map

The abstract table is a finite map from keys, taken up to the table's compare
function, to values. `hashCall` is what a caller can do with a table, `mapCall`
what it means for the map.

* `Represents` — the table stores what the map holds, and counts it.
* `hashCall_refines` — one call.
* `hash_refines_finite_map` — every sequence of calls on a fresh table.
-/

namespace OpenVpn

open Base Option Int

section

variable {κ β : Type} {ops : HashOps κ}

/-- Keys that compare equal are the same key. -/
def HashOps.setoid (ops : HashOps κ) : Setoid κ where
  r k k' := ops.compareFunction k k'
  iseqv := ⟨ops.refl, ops.symm, ops.trans⟩

def HashOps.Class (ops : HashOps κ) : Type := Quotient ops.setoid

def HashOps.cls (ops : HashOps κ) (key : κ) : ops.Class := Quotient.mk ops.setoid key

theorem HashOps.cls_eq {key key' : κ} : ops.cls key = ops.cls key' ↔ ops.compareFunction key key' :=
  Quotient.eq (r := ops.setoid)

instance : DecidableEq ops.Class :=
  fun a b => Quotient.recOnSubsingleton₂ a b fun key key' =>
    decidable_of_iff (ops.compareFunction key key') HashOps.cls_eq.symm

/-- What a table stands for. -/
abbrev HashMap (ops : HashOps κ) (β : Type) : Type := Finmap fun _ : ops.Class => β

/-- A use of the table. -/
inductive HashCall (κ β : Type) where
  | lookup (key : κ)
  | add (key : κ) (value : β) (replace : Bool)
  /-- `hash_add_fast` on the bucket of the key; the caller knows it is absent -/
  | addFast (key : κ) (value : β)
  | remove (key : κ)

inductive HashReply (β : Type) where
  | value (v : Option β)
  | done (ret : Bool)
  | stored
  deriving DecidableEq

/-- The calls as the table answers them. -/
def hashCall (hash : Hash ops β) : HashCall κ β → Option (Hash ops β × HashReply β)
  | .lookup key => some ((hashLookup hash key).1, .value (hashLookup hash key).2)
  | .add key value replace =>
    some ((hashAdd hash key value replace).1, .done (hashAdd hash key value replace).2)
  | .addFast key value =>
    let hv := ops.hashFunction key
    some (hashAddFast hash (hash.index hv) key hv value, .stored)
  | .remove key => some ((hashRemove hash key).1, .done (hashRemove hash key).2)

/-- The calls as the map answers them. `hash_add_fast` is for absent keys. -/
def mapCall (m : HashMap ops β) : HashCall κ β → Option (HashMap ops β × HashReply β)
  | .lookup key => some (m, .value (m.lookup (ops.cls key)))
  | .add key value replace =>
    -- without `replace` a key that is present keeps its value
    if ops.cls key ∈ m ∧ replace = false then some (m, .done false)
    else some (m.insert (ops.cls key) value, .done true)
  | .addFast key value =>
    if ops.cls key ∈ m then none else some (m.insert (ops.cls key) value, .stored)
  | .remove key => some (m.erase (ops.cls key), .done (decide (ops.cls key ∈ m)))

/-- The table finds what the map holds, and `n_elements` is its size. -/
structure Represents (hash : Hash ops β) (m : HashMap ops β) : Prop where
  ok : hash.Ok
  find : ∀ key, hash.find key = m.lookup (ops.cls key)
  count : hash.nElements = m.keys.card

variable {hash : Hash ops β} {m : HashMap ops β}

theorem Represents.absent_iff (h : Represents hash m) (key : κ) :
    hash.find key = none ↔ ops.cls key ∉ m := by
  rw [h.find]
  exact Finmap.lookup_eq_none

theorem keys_insert (m : HashMap ops β) (k : ops.Class) (value : β) :
    (m.insert k value).keys = insert k m.keys := by
  ext k'
  simp only [Finmap.mem_keys, Finmap.mem_insert, Finset.mem_insert]

theorem Represents.insert (h : Represents hash m) {hash' : Hash ops β} {key : κ} {value : β}
    (hok : hash'.Ok)
    (hcnt : hash'.nElements = hash.nElements + (if hash.find key = none then 1 else 0))
    (hfind : ∀ key', hash'.find key' =
      if ops.compareFunction key' key then some value else hash.find key') :
    Represents hash' (m.insert (ops.cls key) value) := by
  refine ⟨hok, fun key' => ?_, ?_⟩
  · rw [hfind]
    split
    · next hcmp => rw [HashOps.cls_eq.mpr hcmp, Finmap.lookup_insert]
    · next hcmp =>
        rw [Finmap.lookup_insert_of_ne _ fun heq => hcmp (HashOps.cls_eq.mp heq)]
        exact h.find key'
  · rw [hcnt, h.count, keys_insert]
    by_cases hmem : ops.cls key ∈ m
    · rw [if_neg (mt (h.absent_iff key).mp (not_not.mpr hmem)),
        Finset.insert_eq_of_mem (Finmap.mem_keys.mpr hmem), add_zero]
    · rw [if_pos ((h.absent_iff key).mpr hmem),
        Finset.card_insert_of_notMem (mt Finmap.mem_keys.mp hmem)]
      rfl

theorem Represents.erase (h : Represents hash m) {hash' : Hash ops β} {key : κ} (hok : hash'.Ok)
    (hcnt : hash'.nElements = hash.nElements - (if hash.find key = none then 0 else 1))
    (hfind : ∀ key', hash'.find key' =
      if ops.compareFunction key' key then none else hash.find key') :
    Represents hash' (m.erase (ops.cls key)) := by
  refine ⟨hok, fun key' => ?_, ?_⟩
  · rw [hfind]
    split
    · next hcmp => rw [HashOps.cls_eq.mpr hcmp, Finmap.lookup_erase]
    · next hcmp =>
        rw [Finmap.lookup_erase_ne fun heq => hcmp (HashOps.cls_eq.mp heq)]
        exact h.find key'
  · rw [hcnt, h.count, Finmap.keys_erase]
    by_cases hmem : ops.cls key ∈ m
    · have hcard := Finset.card_erase_add_one (Finmap.mem_keys.mpr hmem)
      rw [if_neg (mt (h.absent_iff key).mp (not_not.mpr hmem))]
      omega
    · rw [if_pos ((h.absent_iff key).mpr hmem),
        Finset.erase_eq_of_notMem (mt Finmap.mem_keys.mp hmem), sub_zero]

theorem Represents.lookup (h : Represents hash m) (key : κ) :
    Represents (hashLookup hash key).1 m := by
  obtain ⟨hok, hcnt, hfind⟩ := hashLookup_spec h.ok key
  refine ⟨hok, fun key' => ?_, hcnt.trans h.count⟩
  rw [hfind]
  exact h.find key'

/-- **Each call** on the table is one on the map. -/
theorem hashCall_refines (hash : Hash ops β) (m : HashMap ops β) (call : HashCall κ β)
    (m' : HashMap ops β) (reply : HashReply β) (h : Represents hash m)
    (hcall : mapCall m call = some (m', reply)) :
    ∃ hash', hashCall hash call = some (hash', reply) ∧ Represents hash' m' := by
  cases call with
  | lookup key =>
    cases hcall
    refine ⟨_, ?_, h.lookup key⟩
    rw [← h.find]
    rfl
  | add key value replace =>
    obtain ⟨hret, hok, hcnt, hfind⟩ := hashAdd_spec h.ok key value replace
    simp only [mapCall] at hcall
    split at hcall
    · -- present and not to be replaced: the search was all that happened
      next hkeep =>
        cases hcall
        have hpres : hash.find key ≠ none := mt (h.absent_iff key).mp (not_not.mpr hkeep.1)
        have hfail : (hashAdd hash key value replace).2 = false := by
          rw [hret, hkeep.2, Bool.false_or, Option.isNone_eq_false_iff, Option.isSome_iff_ne_none]
          exact hpres
        refine ⟨_, congrArg (fun b => some (_, HashReply.done b)) hfail, hok, fun key' => ?_, ?_⟩
        · rw [hfind, hfail, if_neg (by simp)]
          exact h.find key'
        · rw [hcnt, if_neg hpres, add_zero]
          exact h.count
    · next hstore =>
        cases hcall
        have hdone : (hashAdd hash key value replace).2 = true := by
          rw [hret, Bool.or_eq_true, isNone_iff_eq_none, h.absent_iff]
          by_cases hmem : ops.cls key ∈ m
          · exact .inl (Bool.eq_true_of_not_eq_false fun hr => hstore ⟨hmem, hr⟩)
          · exact .inr hmem
        refine ⟨_, congrArg (fun b => some (_, HashReply.done b)) hdone, h.insert hok hcnt ?_⟩
        intro key'
        rw [hfind, hdone]
        simp
  | addFast key value =>
    simp only [mapCall] at hcall
    split at hcall
    · cases hcall
    · next hmem =>
        cases hcall
        have habs := (h.absent_iff key).mpr hmem
        obtain ⟨hok, hcnt, hfind⟩ := hashAddFast_spec h.ok habs value
        exact ⟨_, rfl, h.insert hok (by rw [hcnt, if_pos habs]) hfind⟩
  | remove key =>
    cases hcall
    obtain ⟨hret, hok, hcnt, hfind⟩ := hashRemove_spec h.ok key
    refine ⟨_, congrArg (fun b => some (_, HashReply.done b)) ?_, h.erase hok hcnt hfind⟩
    rw [hret, Bool.eq_iff_iff, decide_eq_true_eq, Option.isSome_iff_ne_none, ne_eq, h.absent_iff,
      not_not]

theorem represents_hashInit {nBuckets : Nat} (h : hashInit ops β nBuckets = some hash) :
    Represents hash ∅ := by
  obtain ⟨hok, hcnt, hfind⟩ := hashInit_spec h
  refine ⟨hok, fun key => ?_, ?_⟩
  · rw [hfind, Finmap.lookup_empty]
  · rw [hcnt, Finmap.keys_empty, Finset.card_empty]
    rfl

/-- **The table is a finite map.** Whatever the number of buckets and the hash
function, a table answers every sequence of calls as the map does, stores what
the map holds and counts it; a further lookup changes no binding. -/
theorem hash_refines_finite_map {nBuckets : Nat} (hinit : hashInit ops β nBuckets = some hash)
    {calls : List (HashCall κ β)} {replies : List (HashReply β)}
    (hcalls : run mapCall (∅ : HashMap ops β) calls = some (m, replies)) :
    ∃ hash', run hashCall hash calls = some (hash', replies) ∧
      (∀ key, (hashLookup hash' key).2 = m.lookup (ops.cls key)) ∧
      (∀ key key', (hashLookup (hashLookup hash' key).1 key').2 = (hashLookup hash' key').2) ∧
      hash'.nElements = m.keys.card := by
  obtain ⟨hash', hrun, hrep⟩ :=
    run_refines hashCall_refines (represents_hashInit hinit) hcalls
  refine ⟨hash', hrun, hrep.find, fun key key' => ?_, hrep.count⟩
  exact ((hrep.lookup key).find key').trans (hrep.find key').symm

end

/-- Keys compared by their last digit, hashed by its parity. -/
def lastDigitOps : HashOps Nat where
  hashFunction n := BitVec.ofNat 32 (n % 10 % 2)
  compareFunction n n' := n % 10 == n' % 10
  refl _ := beq_self_eq_true _
  symm h := beq_iff_eq.mpr (beq_iff_eq.mp h).symm
  trans h h' := beq_iff_eq.mpr ((beq_iff_eq.mp h).trans (beq_iff_eq.mp h'))
  compat h := by rw [beq_iff_eq.mp h]

def lastDigitCalls : List (HashCall Nat Nat) :=
  [.add 12 1 false, .addFast 14 2, .add 22 3 false, .add 32 4 true, .lookup 32, .remove 4]

theorem hash_refines_finite_map_last_digit :
    ∃ hash hash', hashInit lastDigitOps Nat 3 = some hash ∧
      run hashCall hash lastDigitCalls = some (hash', [.done true, .stored, .done false,
        .done true, .value (some 4), .done true]) ∧ hash'.nElements = 1 := by
  obtain ⟨hash, hinit⟩ := isSome_iff_exists.mp
    (show (hashInit lastDigitOps Nat 3).isSome by decide)
  have hreplies : (run mapCall (∅ : HashMap lastDigitOps Nat) lastDigitCalls).map
      (fun r => (r.2, r.1.keys.card)) = some ([.done true, .stored, .done false,
        .done true, .value (some 4), .done true], 1) := by
    decide
  obtain ⟨⟨m, replies⟩, hcalls, heq⟩ := map_eq_some_iff.mp hreplies
  obtain ⟨hash', hrun, -, -, hcount⟩ := hash_refines_finite_map hinit hcalls
  rw [Prod.mk.injEq] at heq
  exact ⟨hash, hash', hinit, by rw [hrun, ← heq.1], by rw [hcount, heq.2]; rfl⟩

end OpenVpn
