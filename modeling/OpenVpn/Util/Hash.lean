import Mathlib.Algebra.Order.Group.Int
import Mathlib.Data.List.Basic
import Mathlib.Data.List.GetD
import Mathlib.Data.Nat.Bits
import Mathlib.Tactic.Ring
import OpenVpn.Base.MoveToFront
import OpenVpn.Util.CircList

/-!
# The hash table

`struct hash` of `list.c`: an array of buckets, their number a power of two,
each a linked list searched by hash value and compare function. A successful
search moves its element to the head of the bucket.

* `hashInit`, `hashLookup`, `hashAdd`, `hashAddFast`, `hashRemove` — the
  operations.
* `Hash.Ok` — every element is in the bucket of its hash value, no two elements
  of a bucket have equal keys, `n_elements` counts the elements.
* `Hash.find` — the map from keys to values a table stands for. The `*_spec`
  theorems say what each operation does to it.
-/

namespace OpenVpn

open Base List

/-- The two functions a table is initialised with: `hash_function` at the
table's `iv`, and `compare_function`. Keys are compared by an equivalence that
the hash value respects. -/
structure HashOps (κ : Type) where
  hashFunction : κ → BitVec 32
  compareFunction : κ → κ → Bool
  refl : ∀ k, compareFunction k k
  symm : ∀ {k k'}, compareFunction k k' → compareFunction k' k
  trans : ∀ {k k' k''}, compareFunction k k' → compareFunction k' k'' → compareFunction k k''
  compat : ∀ {k k'}, compareFunction k k' → hashFunction k = hashFunction k'

structure HashElement (κ β : Type) where
  value : β
  key : κ
  hashValue : BitVec 32

/-- `struct hash`. The mask is one less than the number of buckets. -/
structure Hash {κ : Type} (ops : HashOps κ) (β : Type) where
  nElements : Int
  buckets : List (List (HashElement κ β))
  sized : ∃ k, buckets.length = 2 ^ k

section

variable {κ β : Type} {ops : HashOps κ}

def hashInit (ops : HashOps κ) (β : Type) (nBuckets : Nat) : Option (Hash ops β) :=
  if nBuckets = 0 then none
  else
    match h : adjustPowerOf2 nBuckets with
    | none => none
    | some n =>
      -- `ALLOC_ARRAY` gives up on more than 32 bits worth of pointers
      if 8 * n ≤ 0xFFFFFFFF then
        some ⟨0, replicate n [], by
          rw [length_replicate]
          exact adjustPowerOf2Loop_pow (k := 0) h⟩
      else none

namespace Hash

/-- `hv & hash->mask`. -/
def index (hash : Hash ops β) (hv : BitVec 32) : Nat := hv.toNat &&& (hash.buckets.length - 1)

def bucket (hash : Hash ops β) (i : Nat) : List (HashElement κ β) := hash.buckets.getD i []

def setBucket (hash : Hash ops β) (i : Nat) (b : List (HashElement κ β)) : Hash ops β :=
  { hash with
    buckets := hash.buckets.set i b
    sized := by rw [length_set]; exact hash.sized }

/-- Write to the element that a search has left at the head of its bucket. -/
def writeHead (hash : Hash ops β) (i : Nat) (he : HashElement κ β) : Hash ops β :=
  hash.setBucket i (he :: (hash.bucket i).tail)

def setCount (hash : Hash ops β) (n : Int) : Hash ops β := { hash with nElements := n }

end Hash

/-- The test of the search loops. -/
def hashHit (ops : HashOps κ) (key : κ) (hv : BitVec 32) (he : HashElement κ β) : Bool :=
  hv == he.hashValue && ops.compareFunction key he.key

/-- `hash_lookup_fast`, which moves the element it finds to the head. -/
def hashLookupFast (hash : Hash ops β) (i : Nat) (key : κ) (hv : BitVec 32) :
    Hash ops β × Option (HashElement κ β) :=
  (hash.setBucket i (promote (hashHit ops key hv) (hash.bucket i)),
    (hash.bucket i).find? (hashHit ops key hv))

def hashLookup (hash : Hash ops β) (key : κ) : Hash ops β × Option β :=
  let hv := ops.hashFunction key
  let found := hashLookupFast hash (hash.index hv) key hv
  (found.1, found.2.map HashElement.value)

/-- `hash_add_fast`; the caller knows that the key is absent. -/
def hashAddFast (hash : Hash ops β) (i : Nat) (key : κ) (hv : BitVec 32) (value : β) : Hash ops β :=
  (hash.setBucket i (⟨value, key, hv⟩ :: hash.bucket i)).setCount (hash.nElements + 1)

/-- `hash_add`. A search that succeeds has put the element at the head, where
its value is replaced if the caller asks for it. -/
def hashAdd (hash : Hash ops β) (key : κ) (value : β) (replace : Bool) : Hash ops β × Bool :=
  let hv := ops.hashFunction key
  let i := hash.index hv
  match hashLookupFast hash i key hv with
  | (hash, some he) =>
    if replace then (hash.setBucket i ({ he with value := value } :: (hash.bucket i).tail), true)
    else (hash, false)
  | (hash, none) => (hashAddFast hash i key hv value, true)

def hashRemoveFast (hash : Hash ops β) (i : Nat) (key : κ) (hv : BitVec 32) : Hash ops β × Bool :=
  match (hash.bucket i).find? (hashHit ops key hv) with
  | none => (hash, false)
  | some _ =>
    ((hash.setBucket i ((hash.bucket i).eraseP (hashHit ops key hv))).setCount
      (hash.nElements - 1), true)

def hashRemove (hash : Hash ops β) (key : κ) : Hash ops β × Bool :=
  let hv := ops.hashFunction key
  hashRemoveFast hash (hash.index hv) key hv

/-! ## What a table stands for -/

namespace Hash

def elements (hash : Hash ops β) : List (HashElement κ β) := hash.buckets.flatten

/-- The value stored for a key. -/
def find (hash : Hash ops β) (key : κ) : Option β := (hashLookup hash key).2

def indexOf (hash : Hash ops β) (key : κ) : Nat := hash.index (ops.hashFunction key)

/-- The element that a search for the key finds, and the others of its bucket. -/
def hit (hash : Hash ops β) (key : κ) : Option (HashElement κ β) :=
  (hash.bucket (hash.indexOf key)).find? (hashHit ops key (ops.hashFunction key))

def others (hash : Hash ops β) (key : κ) : List (HashElement κ β) :=
  (hash.bucket (hash.indexOf key)).eraseP (hashHit ops key (ops.hashFunction key))

def Apart (ops : HashOps κ) (x y : HashElement κ β) : Prop := ¬ ops.compareFunction x.key y.key

structure Ok (hash : Hash ops β) : Prop where
  /-- Every element is stored where its key's hash value leads. -/
  placed : ∀ i, ∀ he ∈ hash.bucket i,
    he.hashValue = ops.hashFunction he.key ∧ hash.index he.hashValue = i
  apart : ∀ i, (hash.bucket i).Pairwise (Apart ops)
  counted : hash.nElements = hash.elements.length

theorem index_lt (hash : Hash ops β) (hv : BitVec 32) : hash.index hv < hash.buckets.length := by
  obtain ⟨k, hk⟩ := hash.sized
  unfold index
  rw [hk, Nat.and_two_pow_sub_one_eq_mod]
  exact Nat.mod_lt _ (Nat.two_pow_pos k)

theorem indexOf_lt (hash : Hash ops β) (key : κ) : hash.indexOf key < hash.buckets.length :=
  hash.index_lt _

variable {hash : Hash ops β} {i : Nat} {he : HashElement κ β} {key : κ}

theorem bucket_setBucket (hash : Hash ops β) (hi : i < hash.buckets.length)
    (b : List (HashElement κ β)) (j : Nat) :
    (hash.setBucket i b).bucket j = if j = i then b else hash.bucket j := by
  unfold bucket setBucket
  rw [getD_eq_getElem?_getD, getD_eq_getElem?_getD, getElem?_set]
  split
  · next h => subst h; simp
  · next h => rw [if_neg (Ne.symm h)]

theorem countP_setBucket (hash : Hash ops β) (hi : i < hash.buckets.length)
    (b : List (HashElement κ β)) (p : HashElement κ β → Bool) :
    (hash.setBucket i b).elements.countP p + (hash.bucket i).countP p =
      hash.elements.countP p + b.countP p :=
  countP_flatten_set hi b p

theorem mem_elements (hash : Hash ops β) (he : HashElement κ β) :
    he ∈ hash.elements ↔ ∃ i, he ∈ hash.bucket i := by
  unfold elements bucket
  rw [mem_flatten]
  constructor
  · rintro ⟨b, hb, hhe⟩
    obtain ⟨i, hi, rfl⟩ := getElem_of_mem hb
    exact ⟨i, by rw [getD_eq_getElem _ _ hi]; exact hhe⟩
  · rintro ⟨i, hhe⟩
    by_cases hi : i < hash.buckets.length
    · rw [getD_eq_getElem _ _ hi] at hhe
      exact ⟨_, getElem_mem hi, hhe⟩
    · rw [getD_eq_default _ _ (Nat.le_of_not_lt hi)] at hhe
      cases hhe

theorem exact_hashHit (key : κ) (hv : BitVec 32) :
    Exact (Apart ops) (hashHit (β := β) ops key hv) := by
  intro x y hx hy happ
  unfold hashHit at hx hy
  rw [Bool.and_eq_true] at hx hy
  exact happ (ops.trans (ops.symm hx.2) hy.2)

section

variable (hok : hash.Ok)

include hok

theorem Ok.mem_bucket (i : Nat) (he : HashElement κ β) :
    he ∈ hash.bucket i ↔ he ∈ hash.elements ∧ hash.index he.hashValue = i := by
  rw [mem_elements]
  constructor
  · intro h
    exact ⟨⟨i, h⟩, (hok.placed i he h).2⟩
  · rintro ⟨⟨j, hj⟩, rfl⟩
    rw [(hok.placed j he hj).2]
    exact hj

theorem Ok.hashHit_iff (hmem : he ∈ hash.elements) (key : κ) :
    hashHit ops key (ops.hashFunction key) he ↔ ops.compareFunction key he.key := by
  obtain ⟨i, hi⟩ := (hash.mem_elements he).mp hmem
  unfold hashHit
  rw [Bool.and_eq_true, beq_iff_eq, (hok.placed i he hi).1]
  exact ⟨And.right, fun h => ⟨ops.compat h, h⟩⟩

theorem Ok.index_eq (hmem : he ∈ hash.elements) (hcmp : ops.compareFunction key he.key) :
    hash.index he.hashValue = hash.indexOf key := by
  have hhit := (hok.hashHit_iff hmem key).mpr hcmp
  unfold hashHit at hhit
  rw [Bool.and_eq_true, beq_iff_eq] at hhit
  rw [← hhit.1, indexOf]

theorem Ok.search (key : κ) (he : HashElement κ β) :
    hash.hit key = some he ↔ he ∈ hash.elements ∧ ops.compareFunction key he.key := by
  unfold hit
  rw [find?_eq_some_iff_mem (exact_hashHit key _) (hok.apart _), hok.mem_bucket]
  constructor
  · rintro ⟨⟨hmem, _⟩, hhit⟩
    exact ⟨hmem, (hok.hashHit_iff hmem key).mp hhit⟩
  · rintro ⟨hmem, hcmp⟩
    exact ⟨⟨hmem, hok.index_eq hmem hcmp⟩, (hok.hashHit_iff hmem key).mpr hcmp⟩

theorem Ok.mem_others : he ∈ hash.others key ↔ (he ∈ hash.elements ∧
    hash.index he.hashValue = hash.indexOf key) ∧ ¬ops.compareFunction key he.key := by
  unfold others
  rw [mem_eraseP_iff (exact_hashHit key _) (hok.apart _), hok.mem_bucket]
  exact and_congr_right fun h => not_congr (hok.hashHit_iff h.1 key)

theorem Ok.find_eq_some {value : β} :
    hash.find key = some value ↔
      ∃ he ∈ hash.elements, ops.compareFunction key he.key ∧ he.value = value := by
  show Option.map _ _ = _ ↔ _
  rw [Option.map_eq_some_iff]
  constructor
  · rintro ⟨he, hfind, hval⟩
    obtain ⟨hmem, hcmp⟩ := (hok.search key he).mp hfind
    exact ⟨he, hmem, hcmp, hval⟩
  · rintro ⟨he, hmem, hcmp, hval⟩
    exact ⟨he, (hok.search key he).mpr ⟨hmem, hcmp⟩, hval⟩

theorem Ok.find_congr {key' : κ} (h : ops.compareFunction key key') :
    hash.find key = hash.find key' := by
  apply Option.ext
  intro v
  rw [hok.find_eq_some, hok.find_eq_some]
  constructor
  · rintro ⟨he, hmem, hcmp, hval⟩
    exact ⟨he, hmem, ops.trans (ops.symm h) hcmp, hval⟩
  · rintro ⟨he, hmem, hcmp, hval⟩
    exact ⟨he, hmem, ops.trans h hcmp, hval⟩

theorem Ok.setBucket (hi : i < hash.buckets.length) {b : List (HashElement κ β)} {n : Int}
    (hplaced : ∀ he ∈ b, he.hashValue = ops.hashFunction he.key ∧ hash.index he.hashValue = i)
    (hapart : b.Pairwise (Apart ops))
    (hn : n + (hash.bucket i).length = hash.nElements + b.length) :
    ((hash.setBucket i b).setCount n).Ok := by
  have hbucket : ∀ j, ((hash.setBucket i b).setCount n).bucket j =
      if j = i then b else hash.bucket j := hash.bucket_setBucket hi b
  have hidx : ∀ hv, ((hash.setBucket i b).setCount n).index hv = hash.index hv := by
    intro hv
    show hv.toNat &&& ((hash.buckets.set i b).length - 1) = _
    rw [length_set]
    rfl
  constructor
  case placed =>
    intro j he hmem
    rw [hbucket] at hmem
    rw [hidx]
    split at hmem
    · next hj => subst hj; exact hplaced he hmem
    · exact hok.placed j he hmem
  case apart =>
    intro j
    rw [hbucket]
    split
    · exact hapart
    · exact hok.apart j
  case counted =>
    have hlen := hash.countP_setBucket hi b fun _ => true
    rw [countP_true] at hlen
    have hcnt := hok.counted
    show n = ((hash.setBucket i b).elements.length : Int)
    omega

theorem Ok.mem_setBucket (hi : i < hash.buckets.length) (b : List (HashElement κ β))
    (he : HashElement κ β) :
    he ∈ (hash.setBucket i b).elements ↔
      he ∈ b ∨ (he ∈ hash.elements ∧ hash.index he.hashValue ≠ i) := by
  rw [mem_elements]
  constructor
  · rintro ⟨j, hj⟩
    rw [hash.bucket_setBucket hi] at hj
    split at hj
    · exact .inl hj
    · next hne =>
        obtain ⟨hmem, hidx⟩ := (hok.mem_bucket j he).mp hj
        exact .inr ⟨hmem, hidx ▸ hne⟩
  · rintro (h | ⟨hmem, hne⟩)
    · exact ⟨i, by rw [hash.bucket_setBucket hi, if_pos rfl]; exact h⟩
    · refine ⟨hash.index he.hashValue, ?_⟩
      rw [hash.bucket_setBucket hi, if_neg hne]
      exact (hok.mem_bucket _ he).mpr ⟨hmem, rfl⟩

end

end Hash

/-! ## The operations -/

section

variable {hash hash' : Hash ops β} {he : HashElement κ β} {key : κ}

theorem hashInit_spec {nBuckets : Nat} (h : hashInit ops β nBuckets = some hash) :
    hash.Ok ∧ hash.nElements = 0 ∧ ∀ key, hash.find key = none := by
  have hemp : hash.nElements = 0 ∧ ∀ i, hash.bucket i = [] := by
    unfold hashInit at h
    split at h
    · cases h
    · split at h
      · cases h
      · split at h
        · cases h
          refine ⟨rfl, fun i => ?_⟩
          show (replicate _ []).getD i [] = []
          rw [getD_eq_getElem?_getD, getElem?_replicate]
          split <;> rfl
        · cases h
  have helements : hash.elements = [] := by
    rw [eq_nil_iff_forall_not_mem]
    intro he hmem
    obtain ⟨i, hi⟩ := (hash.mem_elements he).mp hmem
    rw [hemp.2 i] at hi
    cases hi
  have hok : hash.Ok := by
    constructor
    case placed => intro i he hmem; rw [hemp.2 i] at hmem; cases hmem
    case apart => intro i; rw [hemp.2 i]; exact List.Pairwise.nil
    case counted => rw [hemp.1, helements]; rfl
  refine ⟨hok, hemp.1, fun key => ?_⟩
  rw [Option.eq_none_iff_forall_ne_some]
  intro v hv
  obtain ⟨he, hmem, _⟩ := hok.find_eq_some.mp hv
  rw [helements] at hmem
  cases hmem

section

variable (hok : hash.Ok)

include hok

theorem hashLookup_spec (key : κ) :
    (hashLookup hash key).1.Ok ∧ (hashLookup hash key).1.nElements = hash.nElements ∧
      ∀ key', (hashLookup hash key).1.find key' = hash.find key' := by
  have hi := hash.index_lt (ops.hashFunction key)
  have hperm := promote_perm (hashHit ops key (ops.hashFunction key))
    (hash.bucket (hash.index (ops.hashFunction key)))
  have hok' : (hashLookup hash key).1.Ok := by
    apply hok.setBucket (n := hash.nElements) hi
    · intro he hmem
      exact hok.placed _ he (hperm.mem_iff.mp hmem)
    · exact (hperm.pairwise_iff fun h h' => h (ops.symm h')).mpr (hok.apart _)
    · rw [hperm.length_eq]
  refine ⟨hok', rfl, fun key' => Option.ext fun v => ?_⟩
  rw [hok'.find_eq_some, hok.find_eq_some]
  have hmem : ∀ he, he ∈ (hashLookup hash key).1.elements ↔ he ∈ hash.elements := by
    intro he
    refine (hok.mem_setBucket hi _ he).trans ?_
    rw [hperm.mem_iff, hok.mem_bucket, ← and_or_left]
    exact and_iff_left (em _)
  simp only [hmem]

theorem Hash.Ok.find_replaced (hok' : hash'.Ok) {stored : Option (HashElement κ β)}
    (hkey : ∀ x, stored = some x → ops.compareFunction key x.key) (hmem : ∀ x, x ∈ hash'.elements ↔
      stored = some x ∨ (x ∈ hash.elements ∧ ¬ops.compareFunction key x.key)) (key' : κ) :
    hash'.find key' =
      if ops.compareFunction key' key then stored.map HashElement.value else hash.find key' := by
  apply Option.ext
  intro v
  rw [hok'.find_eq_some]
  simp only [hmem]
  split
  · next hcmp =>
      rw [Option.map_eq_some_iff]
      constructor
      · rintro ⟨x, hx | ⟨_, hne⟩, hcx, hv⟩
        · exact ⟨x, hx, hv⟩
        · exact absurd (ops.trans (ops.symm hcmp) hcx) hne
      · rintro ⟨x, hx, hv⟩
        exact ⟨x, .inl hx, ops.trans hcmp (hkey x hx), hv⟩
  · next hcmp =>
      rw [hok.find_eq_some]
      constructor
      · rintro ⟨x, hx | ⟨hx, _⟩, hcx, hv⟩
        · exact absurd (ops.trans hcx (ops.symm (hkey x hx))) hcmp
        · exact ⟨x, hx, hcx, hv⟩
      · rintro ⟨x, hx, hcx, hv⟩
        exact ⟨x, .inr ⟨hx, fun hk => hcmp (ops.trans hcx (ops.symm hk))⟩, hcx, hv⟩

/-- **The rule for a change at a key**: what was stored for it is replaced. -/
theorem Hash.Ok.replace (stored : Option (HashElement κ β)) {n : Int}
    (hstored : ∀ x, stored = some x →
      ops.compareFunction key x.key ∧ x.hashValue = ops.hashFunction key)
    (hn : n + (hash.bucket (hash.indexOf key)).length =
      hash.nElements + (stored.toList ++ hash.others key).length) :
    let hash' := (hash.setBucket (hash.indexOf key) (stored.toList ++ hash.others key)).setCount n
    hash'.Ok ∧ ∀ key', hash'.find key' =
      if ops.compareFunction key' key then stored.map HashElement.value else hash.find key' := by
  intro hash'
  have hi := hash.indexOf_lt key
  have hok' : hash'.Ok := by
    refine hok.setBucket hi (fun x hx => ?_) ?_ hn
    · rcases mem_append.mp hx with hx | hx
      · obtain ⟨hcmp, hhv⟩ := hstored x (Option.mem_toList.mp hx)
        exact ⟨hhv.trans (ops.compat hcmp), congrArg hash.index hhv⟩
      · exact hok.placed _ x ((hok.mem_bucket _ x).mpr (hok.mem_others.mp hx).1)
    · refine pairwise_append.mpr
        ⟨by cases stored <;> simp, (hok.apart _).sublist eraseP_sublist, ?_⟩
      intro x hx y hy hcmp
      exact (hok.mem_others.mp hy).2 (ops.trans (hstored x (Option.mem_toList.mp hx)).1 hcmp)
  refine ⟨hok', hok.find_replaced hok' (fun x hx => (hstored x hx).1) fun x => ?_⟩
  refine (hok.mem_setBucket hi _ x).trans ?_
  rw [mem_append, Option.mem_toList, or_assoc, hok.mem_others]
  refine or_congr_right ⟨?_, fun ⟨hx, hne⟩ => ?_⟩
  · rintro (⟨⟨hx, _⟩, hne⟩ | ⟨hx, hidx⟩)
    · exact ⟨hx, hne⟩
    · exact ⟨hx, fun hcmp => hidx (hok.index_eq hx hcmp)⟩
  · by_cases hidx : hash.index x.hashValue = hash.indexOf key
    · exact .inl ⟨⟨hx, hidx⟩, hne⟩
    · exact .inr ⟨hx, hidx⟩

theorem hashAddFast_spec (habs : hash.find key = none) (value : β) :
    let hash' := hashAddFast hash (hash.index (ops.hashFunction key)) key
      (ops.hashFunction key) value
    hash'.Ok ∧ hash'.nElements = hash.nElements + 1 ∧
      ∀ key', hash'.find key' =
        if ops.compareFunction key' key then some value else hash.find key' := by
  have hoths : hash.others key = hash.bucket (hash.indexOf key) :=
    eraseP_of_forall_not (find?_eq_none.mp (Option.map_eq_none_iff.mp habs))
  have hspec := hok.replace (n := hash.nElements + 1) (some ⟨value, key, ops.hashFunction key⟩)
    (by rintro x ⟨⟩; exact ⟨ops.refl key, rfl⟩) (by rw [hoths]; simp; omega)
  rw [hoths] at hspec
  exact ⟨hspec.1, rfl, hspec.2⟩

theorem Hash.Ok.exchange (hhit : hash.hit key = some he) (he' : HashElement κ β)
    (hkey : ops.compareFunction he'.key he.key) (hhv : he'.hashValue = he.hashValue) :
    let hash' := hash.setBucket (hash.indexOf key) (he' :: hash.others key)
    hash'.Ok ∧ hash'.nElements = hash.nElements ∧
      ∀ key', hash'.find key' =
        if ops.compareFunction key' key then some he'.value else hash.find key' := by
  obtain ⟨_, hcmp⟩ := (hok.search key he).mp hhit
  have hpl := (hok.placed _ he (mem_of_find?_eq_some hhit)).1
  have hlen := (cons_eraseP_perm hhit).length_eq
  have hspec := hok.replace (n := hash.nElements) (some he')
    (by
      rintro x ⟨⟩
      exact ⟨ops.trans hcmp (ops.symm hkey), hhv.trans (hpl.trans (ops.compat hcmp).symm)⟩)
    (by rw [← hlen]; rfl)
  exact ⟨hspec.1, rfl, hspec.2⟩

omit hok in
theorem writeHead_hashLookup (hhit : hash.hit key = some he) {he' : HashElement κ β} :
    (hashLookup hash key).1.writeHead (hash.indexOf key) he' =
      hash.setBucket (hash.indexOf key) (he' :: hash.others key) := by
  have hbucket : (hashLookup hash key).1.bucket (hash.indexOf key) = he :: hash.others key := by
    show (hash.setBucket (hash.indexOf key) _).bucket _ = _
    rw [hash.bucket_setBucket (hash.indexOf_lt key), if_pos rfl]
    exact promote_of_find? hhit
  unfold Hash.writeHead
  rw [hbucket, tail_cons]
  simp only [hashLookup, hashLookupFast, Hash.setBucket, Hash.indexOf, set_set]

omit hok in
theorem index_hashLookup (key : κ) (hv : BitVec 32) :
    (hashLookup hash key).1.index hv = hash.index hv := by
  show _ &&& ((hash.buckets.set _ _).length - 1) = _
  rw [length_set]
  rfl

/-- **`hash_add`** on the map that the table stands for. -/
theorem hashAdd_spec (key : κ) (value : β) (replace : Bool) :
    let added := hashAdd hash key value replace
    added.2 = (replace || (hash.find key).isNone) ∧ added.1.Ok ∧
      added.1.nElements = hash.nElements + (if hash.find key = none then 1 else 0) ∧
      ∀ key', added.1.find key' =
        if ops.compareFunction key' key ∧ added.2 = true then some value else hash.find key' := by
  intro added
  obtain ⟨hok1, hn1, hfind1⟩ := hashLookup_spec hok key
  have hfast : hashLookupFast hash (hash.index (ops.hashFunction key)) key (ops.hashFunction key) =
      ((hashLookup hash key).1, hash.hit key) := rfl
  cases hhit : hash.hit key with
  | some he =>
    have hsome : hash.find key = some he.value := congrArg (Option.map _) hhit
    cases replace with
    | false =>
      have hadd : added = ((hashLookup hash key).1, false) := by
        show hashAdd hash key value false = _
        simp only [hashAdd, hfast, hhit]
        rfl
      rw [hadd, hsome]
      refine ⟨rfl, hok1, by simp [hn1], fun key' => ?_⟩
      rw [if_neg (by simp)]
      exact hfind1 key'
    | true =>
      have hadd : added = (hash.setBucket (hash.indexOf key)
          ({ he with value := value } :: hash.others key), true) := by
        rw [← writeHead_hashLookup hhit]
        show hashAdd hash key value true = _
        simp only [hashAdd, hfast, hhit, if_true]
        rfl
      obtain ⟨hok2, hn2, hfind2⟩ :=
        hok.exchange hhit { he with value := value } (ops.refl _) rfl
      rw [hadd, hsome]
      refine ⟨rfl, hok2, by simp [hn2], fun key' => ?_⟩
      rw [hfind2 key']
      simp
  | none =>
    have hnone : hash.find key = none := congrArg (Option.map _) hhit
    have hadd : added = (hashAddFast (hashLookup hash key).1
        ((hashLookup hash key).1.index (ops.hashFunction key)) key
        (ops.hashFunction key) value, true) := by
      rw [index_hashLookup]
      show hashAdd hash key value replace = _
      simp only [hashAdd, hfast, hhit]
    obtain ⟨hok2, hn2, hfind2⟩ := hashAddFast_spec hok1 ((hfind1 key).trans hnone) value
    rw [hadd, hnone]
    refine ⟨by simp, hok2, by rw [hn2, hn1]; simp, fun key' => ?_⟩
    rw [hfind2 key', hfind1 key']
    simp

theorem hashRemove_spec (key : κ) :
    let removed := hashRemove hash key
    removed.2 = (hash.find key).isSome ∧ removed.1.Ok ∧
      removed.1.nElements = hash.nElements - (if hash.find key = none then 0 else 1) ∧
      ∀ key', removed.1.find key' =
        if ops.compareFunction key' key then none else hash.find key' := by
  intro removed
  have hrem : removed = match hash.hit key with
      | none => (hash, false)
      | some _ => ((hash.setBucket (hash.indexOf key) (hash.others key)).setCount
          (hash.nElements - 1), true) := rfl
  cases hhit : hash.hit key with
  | none =>
    have hnone : hash.find key = none := congrArg (Option.map _) hhit
    have hremoved : removed = (hash, false) := by rw [hrem, hhit]
    rw [hremoved, hnone]
    refine ⟨rfl, hok, by simp, fun key' => ?_⟩
    split
    · next hcmp => rw [hok.find_congr hcmp, hnone]
    · rfl
  | some he =>
    have hsome : hash.find key = some he.value := congrArg (Option.map _) hhit
    have hlen : (he :: hash.others key).length = _ := (cons_eraseP_perm hhit).length_eq
    have hspec := hok.replace (n := hash.nElements - 1) none (fun x hx => by cases hx) (by
      rw [← hlen]
      simp)
    rw [hrem, hhit, hsome]
    exact ⟨rfl, hspec.1, by simp [Hash.setCount], hspec.2⟩

/-! ## Counting elements -/

end

section

variable (p : HashElement κ β → Bool)

theorem countP_hashLookup (key : κ) :
    (hashLookup hash key).1.elements.countP p = hash.elements.countP p := by
  have hcnt := hash.countP_setBucket (hash.indexOf_lt key)
    (promote (hashHit ops key (ops.hashFunction key)) (hash.bucket (hash.indexOf key))) p
  rw [(promote_perm _ _).countP_eq] at hcnt
  exact Nat.add_right_cancel hcnt

theorem countP_hashAddFast (i : Nat) (hi : i < hash.buckets.length) (key : κ) (hv : BitVec 32)
    (value : β) :
    (hashAddFast hash i key hv value).elements.countP p =
      hash.elements.countP p + (if p ⟨value, key, hv⟩ then 1 else 0) := by
  have hcnt := hash.countP_setBucket hi (⟨value, key, hv⟩ :: hash.bucket i) p
  rw [countP_cons] at hcnt
  show (hash.setBucket i _).elements.countP p = _
  omega

theorem countP_writeHead (hhit : hash.hit key = some he) (he' : HashElement κ β) :
    ((hashLookup hash key).1.writeHead (hash.index (ops.hashFunction key)) he').elements.countP p +
        (if p he then 1 else 0) =
      hash.elements.countP p + (if p he' then 1 else 0) := by
  have hcnt := hash.countP_setBucket (hash.indexOf_lt key) (he' :: hash.others key) p
  have hperm : (he :: hash.others key).countP p = _ := (cons_eraseP_perm hhit).countP_eq p
  rw [← Hash.indexOf, writeHead_hashLookup hhit]
  rw [countP_cons] at hcnt hperm
  omega

end

end

/-! ## Tables of objects that know their key

A table in which every value is stored under a key of its own: `S value key`
says that `value` is in the table under `key`. -/

namespace Hash

/-- The table finds the values of `S`, each under the keys equal to its own. -/
def Indexes (hash : Hash ops β) (S : β → κ → Prop) : Prop :=
  hash.Ok ∧ ∀ key value, hash.find key = some value ↔
    ∃ k, S value k ∧ ops.compareFunction key k

variable {hash : Hash ops β} {S S' : β → κ → Prop} {key : κ} {value : β}

section

variable (h : hash.Indexes S)

include h

theorem Indexes.congr (hS : ∀ v k, S v k ↔ S' v k) : hash.Indexes S' := by
  refine ⟨h.1, fun key value => ?_⟩
  rw [h.2]
  simp only [hS]

theorem Indexes.find (hkey : S value key) : hash.find key = some value :=
  (h.2 key value).mpr ⟨key, hkey, ops.refl key⟩

omit h in
theorem indexes_hashInit {nBuckets : Nat} (h : hashInit ops β nBuckets = some hash) :
    hash.Indexes fun _ _ => False := by
  obtain ⟨hok, _, hnone⟩ := hashInit_spec h
  refine ⟨hok, fun key value => ?_⟩
  rw [hnone]
  constructor
  · intro hv; cases hv
  · rintro ⟨_, hfalse, _⟩
    exact hfalse.elim

theorem Indexes.lookup (key : κ) : (hashLookup hash key).1.Indexes S := by
  obtain ⟨hok, _, hfind⟩ := hashLookup_spec h.1 key
  refine ⟨hok, fun key' value => ?_⟩
  rw [hfind]
  exact h.2 key' value

theorem Indexes.remove (hkey : S value key) (hown : ∀ k, S value k → ops.compareFunction k key) :
    (hashRemove hash key).2 = true ∧
      (hashRemove hash key).1.Indexes fun v k => S v k ∧ v ≠ value := by
  obtain ⟨hret, hok, _, hfind⟩ := hashRemove_spec h.1 key
  refine ⟨by rw [hret, h.find hkey]; rfl, hok, fun key' v => ?_⟩
  rw [hfind]
  constructor
  · intro hv
    split at hv
    · cases hv
    · next hne =>
        obtain ⟨k, hk, hcmp⟩ := (h.2 key' v).mp hv
        refine ⟨k, ⟨hk, ?_⟩, hcmp⟩
        rintro rfl
        exact hne (ops.trans hcmp (hown k hk))
  · rintro ⟨k, ⟨hk, hne⟩, hcmp⟩
    rw [if_neg]
    · exact (h.2 key' v).mpr ⟨k, hk, hcmp⟩
    · intro hcmp'
      have hv := (h.2 key' v).mpr ⟨k, hk, hcmp⟩
      rw [(h.2 key' value).mpr ⟨key, hkey, hcmp'⟩] at hv
      cases hv
      exact hne rfl

theorem Indexes.insert {hash' : Hash ops β} (habs : hash.find key = none) (hok : hash'.Ok)
    (hfind : ∀ key', hash'.find key' =
      if ops.compareFunction key' key then some value else hash.find key') :
    hash'.Indexes fun v k => S v k ∨ (v = value ∧ k = key) := by
  refine ⟨hok, fun key' v => ?_⟩
  rw [hfind]
  split
  · next hcmp =>
      constructor
      · intro hv
        cases hv
        exact ⟨key, .inr ⟨rfl, rfl⟩, hcmp⟩
      · rintro ⟨k, hk | ⟨rfl, rfl⟩, hcmp'⟩
        · rw [(h.2 key v).mpr ⟨k, hk, ops.trans (ops.symm hcmp) hcmp'⟩] at habs
          cases habs
        · rfl
  · next hcmp =>
      rw [h.2]
      constructor
      · rintro ⟨k, hk, hcmp'⟩
        exact ⟨k, .inl hk, hcmp'⟩
      · rintro ⟨k, hk | ⟨rfl, rfl⟩, hcmp'⟩
        · exact ⟨k, hk, hcmp'⟩
        · exact absurd hcmp' hcmp

theorem Indexes.add (habs : hash.find key = none) (value : β) :
    (hashAdd hash key value false).1.Indexes fun v k => S v k ∨ (v = value ∧ k = key) := by
  obtain ⟨hret, hok, _, hfind⟩ := hashAdd_spec h.1 key value false
  refine h.insert habs hok fun key' => ?_
  rw [hfind, hret, habs]
  simp

theorem Indexes.add_failed (hret : (hashAdd hash key value false).2 = false) :
    (hashAdd hash key value false).1.Indexes S := by
  obtain ⟨_, hok, _, hfind⟩ := hashAdd_spec h.1 key value false
  refine ⟨hok, fun key' v => ?_⟩
  rw [hfind, hret, if_neg (by simp)]
  exact h.2 key' v

end

end Hash

end

end OpenVpn
