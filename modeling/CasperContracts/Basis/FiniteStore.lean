import Mathlib.Data.Finmap
import Mathlib.Algebra.Order.BigOperators.Group.Multiset
import Mathlib.Algebra.Order.Group.Nat
import Mathlib.Algebra.BigOperators.Ring.Multiset
import Mathlib.Algebra.Ring.Nat

/-!
# Sums over finite stores

A finite map under repeated insertion, and the sum of a weight over its
entries.  `total_insert` says how one insertion moves every such sum, whether
or not the key was present; `total_congr` and `le_total` compare sums and
single entries.
-/

namespace CasperContracts.Basis

abbrev FiniteStore (κ β : Type) := Finmap fun _ : κ => β

namespace FiniteStore

variable {κ β : Type}

section Insertion

variable [DecidableEq κ]

theorem insert_erase (store : FiniteStore κ β) (key : κ) (value : β) :
    Finmap.insert key value (Finmap.erase key store) =
      Finmap.insert key value store := by
  apply Finmap.ext_lookup
  intro other
  by_cases same : other = key
  · subst same
    rw [Finmap.lookup_insert, Finmap.lookup_insert]
  · rw [Finmap.lookup_insert_of_ne _ same, Finmap.lookup_insert_of_ne _ same,
      Finmap.lookup_erase_ne same]

theorem insert_of_lookup {store : FiniteStore κ β} {key : κ} {value : β}
    (found : store.lookup key = some value) :
    Finmap.insert key value store = store := by
  apply Finmap.ext_lookup
  intro other
  by_cases same : other = key
  · subst same
    rw [Finmap.lookup_insert, found]
  · rw [Finmap.lookup_insert_of_ne _ same]

theorem mem_entries_iff {store : FiniteStore κ β} {key : κ} {value : β} :
    ⟨key, value⟩ ∈ store.entries ↔ store.lookup key = some value := by
  induction store using Finmap.induction_on with
  | H list =>
      rw [Finmap.lookup_toFinmap, AList.toFinmap_entries, Multiset.mem_coe]
      exact (AList.mem_lookup_iff).symm

end Insertion

section Total

variable {M : Type} [AddCommMonoid M]

def total (weight : κ → β → M) (store : FiniteStore κ β) : M :=
  (store.entries.map fun entry => weight entry.1 entry.2).sum

variable [DecidableEq κ]

theorem total_insert_of_lookup_none (weight : κ → β → M)
    {store : FiniteStore κ β} {key : κ} (absent : store.lookup key = none)
    (value : β) :
    total weight (Finmap.insert key value store) =
      weight key value + total weight store := by
  have notMem : key ∉ store := Finmap.lookup_eq_none.mp absent
  rw [total, total, Finmap.entries_insert_of_notMem notMem,
    Multiset.map_cons, Multiset.sum_cons]

theorem total_congr {weight weight' : κ → β → M} {store : FiniteStore κ β}
    (same : ∀ key value, store.lookup key = some value →
      weight key value = weight' key value) :
    total weight store = total weight' store := by
  unfold total
  congr 1
  apply Multiset.map_congr rfl
  intro entry member
  obtain ⟨key, value⟩ := entry
  exact same key value (mem_entries_iff.mp member)

/-- One insertion trades the weight of the old entry, zero if there was none,
for the weight of the new one.  The weights may change at the inserted key. -/
theorem total_insert_of_congr (weight weight' : κ → β → M) (store : FiniteStore κ β)
    (key : κ) (value : β)
    (same : ∀ other, other ≠ key → ∀ value, store.lookup other = some value →
      weight' other value = weight other value) :
    total weight' (Finmap.insert key value store) +
        (store.lookup key).elim 0 (weight key) =
      total weight store + weight' key value := by
  have fresh : (Finmap.erase key store).lookup key = none :=
    Finmap.lookup_erase key store
  have others : total weight' (Finmap.erase key store) =
      total weight (Finmap.erase key store) := by
    apply total_congr
    intro other value found
    by_cases equal : other = key
    · rw [equal, fresh] at found
      cases found
    · rw [Finmap.lookup_erase_ne equal] at found
      exact same other equal value found
  have inserted : total weight' (Finmap.insert key value store) =
      weight' key value + total weight (Finmap.erase key store) := by
    rw [← insert_erase, total_insert_of_lookup_none weight' fresh, others]
  cases found : store.lookup key with
  | none =>
      have unchanged : Finmap.erase key store = store := by
        apply Finmap.ext_lookup
        intro other
        by_cases same : other = key
        · rw [same, Finmap.lookup_erase, found]
        · exact Finmap.lookup_erase_ne same
      rw [inserted, unchanged, Option.elim_none, add_zero, add_comm]
  | some old =>
      have restored : total weight store =
          weight key old + total weight (Finmap.erase key store) := by
        rw [← total_insert_of_lookup_none weight fresh, insert_erase,
          insert_of_lookup found]
      rw [inserted, restored, Option.elim_some]
      ac_rfl

theorem total_insert (weight : κ → β → M) (store : FiniteStore κ β)
    (key : κ) (value : β) :
    total weight (Finmap.insert key value store) +
        (store.lookup key).elim 0 (weight key) =
      total weight store + weight key value :=
  total_insert_of_congr weight weight store key value fun _ _ _ _ => rfl

theorem total_eq_add (weight : κ → β → M) {store : FiniteStore κ β} {key : κ} {value : β}
    (found : store.lookup key = some value) :
    total weight store = weight key value +
      total (fun other value => if other = key then 0 else weight other value) store := by
  let others : κ → β → M := fun other value => if other = key then 0 else weight other value
  have traded := total_insert_of_congr weight others store key value
    fun other different _ _ => if_neg different
  rw [insert_of_lookup found, found, Option.elim_some] at traded
  have none : others key value = 0 := if_pos rfl
  rw [none, add_zero] at traded
  rw [← traded, add_comm]

end Total

theorem le_total [DecidableEq κ] (weight : κ → β → Nat) {store : FiniteStore κ β}
    {key : κ} {value : β} (found : store.lookup key = some value) :
    weight key value ≤ total weight store :=
  Multiset.single_le_sum (fun _ _ => Nat.zero_le _) _
    (Multiset.mem_map_of_mem (fun entry : Sigma fun _ : κ => β =>
      weight entry.1 entry.2) (mem_entries_iff.mpr found))

theorem total_le_total [DecidableEq κ] {weight weight' : κ → β → Nat}
    {store : FiniteStore κ β}
    (le : ∀ key value, store.lookup key = some value →
      weight key value ≤ weight' key value) :
    total weight store ≤ total weight' store :=
  Multiset.sum_map_le_sum_map _ _ fun entry member =>
    le entry.1 entry.2 (mem_entries_iff.mp member)

theorem total_mul (factor : Nat) (weight : κ → β → Nat)
    (store : FiniteStore κ β) :
    total (fun key value => weight key value * factor) store =
      total weight store * factor := by
  unfold total
  exact Multiset.sum_map_mul_right

/-! ## Slices -/

section Slice

variable {ι : Type} [DecidableEq ι]

private def sliceEntry (i : ι) (entry : Sigma fun _ : κ × ι => β) :
    Option (Sigma fun _ : κ => β) :=
  if entry.1.2 = i then some ⟨entry.1.1, entry.2⟩ else none

private theorem mem_sliceEntry {i : ι} {entry : Sigma fun _ : κ × ι => β}
    {key : κ} {value : β} :
    sliceEntry i entry = some ⟨key, value⟩ ↔ entry = ⟨(key, i), value⟩ := by
  obtain ⟨⟨otherKey, j⟩, otherValue⟩ := entry
  by_cases same : j = i
  · subst same
    simp [sliceEntry]
  · simp [sliceEntry, same]

private theorem nodupKeys_slice (store : FiniteStore (κ × ι) β) (i : ι) :
    (store.entries.filterMap (sliceEntry i)).NodupKeys := by
  let sliceKey : κ × ι → Option κ := fun key => if key.2 = i then some key.1 else none
  have keys : (store.entries.filterMap (sliceEntry i)).keys =
      store.entries.keys.filterMap sliceKey := by
    rw [Multiset.keys, Multiset.map_filterMap, Multiset.keys, Multiset.filterMap_map]
    congr 1
    funext entry
    by_cases inSlice : entry.1.2 = i <;> simp [sliceEntry, sliceKey, inSlice]
  rw [← Multiset.nodup_keys, keys]
  refine Multiset.Nodup.filterMap _ ?_ store.nodupKeys.nodup_keys
  intro entry entry' key leftFound rightFound
  obtain ⟨left, leftIndex⟩ := entry
  obtain ⟨right, rightIndex⟩ := entry'
  simp only [sliceKey, Option.mem_def, Option.ite_none_right_eq_some,
    Option.some.injEq] at leftFound rightFound
  obtain ⟨rfl, rfl⟩ := leftFound
  obtain ⟨rfl, rfl⟩ := rightFound
  rfl

/-- The entries whose key has the given second component. -/
def slice (store : FiniteStore (κ × ι) β) (i : ι) : FiniteStore κ β where
  entries := store.entries.filterMap (sliceEntry i)
  nodupKeys := nodupKeys_slice store i

/-- A sum over a slice is the sum over the store of the weight cut down to the
slice. -/
theorem total_slice {M : Type} [AddCommMonoid M] (weight : κ → β → M)
    (store : FiniteStore (κ × ι) β) (i : ι) :
    total weight (slice store i) =
      total (fun key value => if key.2 = i then weight key.1 value else 0) store := by
  change (Multiset.map _ (store.entries.filterMap (sliceEntry i))).sum = _
  unfold total
  induction store.entries using Multiset.induction_on with
  | empty => rfl
  | cons entry entries ih =>
      rw [Multiset.map_cons, Multiset.sum_cons, ← ih]
      by_cases inSlice : entry.1.2 = i
      · have kept : sliceEntry i entry = some ⟨entry.1.1, entry.2⟩ := if_pos inSlice
        rw [Multiset.filterMap_cons_some _ _ _ kept, Multiset.map_cons,
          Multiset.sum_cons]
        simp only [if_pos inSlice]
      · have dropped : sliceEntry i entry = none := if_neg inSlice
        rw [Multiset.filterMap_cons_none _ _ dropped]
        simp only [if_neg inSlice, zero_add]

variable [DecidableEq κ]

theorem lookup_slice (store : FiniteStore (κ × ι) β) (i : ι) (key : κ) :
    (slice store i).lookup key = store.lookup (key, i) := by
  apply Option.ext
  intro value
  rw [← mem_entries_iff, ← mem_entries_iff]
  change _ ∈ store.entries.filterMap (sliceEntry i) ↔ _
  simp only [Multiset.mem_filterMap, mem_sliceEntry, exists_eq_right]

theorem slice_insert_same (store : FiniteStore (κ × ι) β) (key : κ) (i : ι)
    (value : β) :
    slice (Finmap.insert (key, i) value store) i =
      Finmap.insert key value (slice store i) := by
  apply Finmap.ext_lookup
  intro other
  rw [lookup_slice]
  by_cases same : other = key
  · rw [same, Finmap.lookup_insert, Finmap.lookup_insert]
  · have different : (other, i) ≠ (key, i) := fun equal => same (congrArg Prod.fst equal)
    rw [Finmap.lookup_insert_of_ne _ different, Finmap.lookup_insert_of_ne _ same,
      lookup_slice]

theorem slice_insert_other (store : FiniteStore (κ × ι) β) (key : κ) {i j : ι}
    (other : j ≠ i) (value : β) :
    slice (Finmap.insert (key, j) value store) i = slice store i := by
  apply Finmap.ext_lookup
  intro otherKey
  have different : (otherKey, i) ≠ (key, j) :=
    fun equal => other (congrArg Prod.snd equal).symm
  rw [lookup_slice, lookup_slice, Finmap.lookup_insert_of_ne _ different]

end Slice

/-! ## Encoded stores -/

section Encodes

variable {κ' β' : Type} [DecidableEq κ] [DecidableEq κ']
variable {encodeKey : κ → κ'} {encodeValue : β → β'}

/-- `coded` holds the entries of `store` under encoded keys, with encoded
values, and nothing else. -/
def Encodes (encodeKey : κ → κ') (encodeValue : β → β')
    (store : FiniteStore κ β) (coded : FiniteStore κ' β') : Prop :=
  ∀ key' value', coded.lookup key' = some value' ↔
    ∃ key value, store.lookup key = some value ∧
      encodeKey key = key' ∧ encodeValue value = value'

theorem encodes_empty :
    Encodes encodeKey encodeValue (∅ : FiniteStore κ β) (∅ : FiniteStore κ' β') := by
  intro key' value'
  simp

theorem Encodes.lookup {store : FiniteStore κ β} {coded : FiniteStore κ' β'}
    (encodes : Encodes encodeKey encodeValue store coded)
    (injective : Function.Injective encodeKey) (key : κ) :
    coded.lookup (encodeKey key) = (store.lookup key).map encodeValue := by
  cases found : store.lookup key with
  | some value =>
      exact (encodes _ _).mpr ⟨key, value, found, rfl, rfl⟩
  | none =>
      rw [Option.map_none, Option.eq_none_iff_forall_not_mem]
      intro value' codedFound
      obtain ⟨other, value, otherFound, sameKey, -⟩ := (encodes _ _).mp codedFound
      rw [injective sameKey, found] at otherFound
      cases otherFound

theorem Encodes.insert {store : FiniteStore κ β} {coded : FiniteStore κ' β'}
    (encodes : Encodes encodeKey encodeValue store coded)
    (injective : Function.Injective encodeKey) (key : κ) (value : β) :
    Encodes encodeKey encodeValue (Finmap.insert key value store)
      (Finmap.insert (encodeKey key) (encodeValue value) coded) := by
  intro key' value'
  by_cases same : key' = encodeKey key
  · subst same
    rw [Finmap.lookup_insert]
    constructor
    · intro codedFound
      cases codedFound
      exact ⟨key, value, Finmap.lookup_insert store, rfl, rfl⟩
    · intro given
      obtain ⟨other, found, otherFound, sameKey, rfl⟩ := given
      rw [injective sameKey, Finmap.lookup_insert] at otherFound
      cases otherFound
      rfl
  · rw [Finmap.lookup_insert_of_ne _ same, encodes]
    constructor
    · intro given
      obtain ⟨other, found, otherFound, rfl, rfl⟩ := given
      have different : other ≠ key := fun equal => same (by rw [equal])
      exact ⟨other, found,
        by rw [Finmap.lookup_insert_of_ne _ different, otherFound], rfl, rfl⟩
    · intro given
      obtain ⟨other, found, otherFound, rfl, rfl⟩ := given
      have different : other ≠ key := fun equal => same (by rw [equal])
      rw [Finmap.lookup_insert_of_ne _ different] at otherFound
      exact ⟨other, found, otherFound, rfl, rfl⟩

theorem Encodes.total {M : Type} [AddCommMonoid M] {store : FiniteStore κ β}
    {coded : FiniteStore κ' β'}
    (encodes : Encodes encodeKey encodeValue store coded)
    (injective : Function.Injective encodeKey) (weight : κ' → β' → M) :
    total weight coded =
      total (fun key value => weight (encodeKey key) (encodeValue value)) store := by
  let encode : (Sigma fun _ : κ => β) → Sigma fun _ : κ' => β' :=
    fun entry => ⟨encodeKey entry.1, encodeValue entry.2⟩
  have distinct : (store.entries.map encode).Nodup := by
    apply Multiset.Nodup.of_map Sigma.fst
    rw [Multiset.map_map]
    change (store.entries.map fun entry => encodeKey entry.1).Nodup
    have keys := store.nodupKeys.nodup_keys.map injective
    rwa [Multiset.keys, Multiset.map_map] at keys
  have sameEntries : coded.entries = store.entries.map encode := by
    rw [Multiset.Nodup.ext coded.nodup_entries distinct]
    intro entry
    obtain ⟨key', value'⟩ := entry
    rw [mem_entries_iff, encodes, Multiset.mem_map]
    constructor
    · intro given
      obtain ⟨key, value, found, rfl, rfl⟩ := given
      exact ⟨⟨key, value⟩, mem_entries_iff.mpr found, rfl⟩
    · intro given
      obtain ⟨⟨key, value⟩, member, equal⟩ := given
      cases equal
      exact ⟨key, value, mem_entries_iff.mp member, rfl, rfl⟩
  rw [FiniteStore.total, sameEntries, Multiset.map_map]
  rfl

end Encodes

end FiniteStore

end CasperContracts.Basis
