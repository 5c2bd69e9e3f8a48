import Mathlib.Data.List.Nodup
import Mathlib.Data.List.Perm.Basic

/-!
# Keys listed by owner

Every key has at most one owner, and every owner a list of keys.  `Indexes` says
that the lists are exact, and the rules below that they stay exact when a key
gets its first owner or loses its last one.  A key is taken from a list by
`swapRemove`, which lets the last element take the place of the removed one.
-/

namespace CasperContracts.Basis

/-! ## Removal by swapping -/

section SwapRemove

variable {α : Type}

/-- The last element takes the place of the removed one. -/
def swapRemove (list : List α) (idx : Nat) : List α :=
  match list.getLast? with
  | some last => (list.set idx last).dropLast
  | none => []

theorem perm_swapRemove {list : List α} {idx : Nat} (inside : idx < list.length) :
    list.Perm (list[idx] :: swapRemove list idx) := by
  obtain ⟨front, last, rfl⟩ : ∃ front last, list = front ++ [last] := by
    have nonempty : list ≠ [] := List.ne_nil_of_length_pos (Nat.zero_lt_of_lt inside)
    exact ⟨list.dropLast, list.getLast nonempty, (List.dropLast_append_getLast nonempty).symm⟩
  rw [List.length_append, List.length_singleton] at inside
  simp only [swapRemove, List.getLast?_concat]
  by_cases isLast : idx = front.length
  · subst isLast
    simp [List.perm_append_singleton]
  · have inFront : idx < front.length := by omega
    rw [List.set_append_left _ _ inFront, List.dropLast_concat,
      List.getElem_append_left inFront]
    have swapped := (List.set_perm_cons_eraseIdx inFront last).symm
    calc (front ++ [last]).Perm (last :: front) := List.perm_append_singleton last front
      List.Perm _ (last :: front[idx] :: front.eraseIdx idx) :=
        (List.getElem_cons_eraseIdx_perm inFront).symm.cons last
      List.Perm _ (front[idx] :: last :: front.eraseIdx idx) := List.Perm.swap _ _ _
      List.Perm _ (front[idx] :: front.set idx last) := swapped.cons _

section Positions

variable [DecidableEq α] {list : List α} {value other : α} {idx : Nat}

theorem perm_of_idxOf? (found : list.idxOf? value = some idx) :
    list.Perm (value :: swapRemove list idx) := by
  obtain ⟨inside, rfl, -⟩ := List.idxOf?_eq_some_iff.mp found
  exact perm_swapRemove inside

theorem nodup_swapRemove (nodup : list.Nodup) (found : list.idxOf? value = some idx) :
    (swapRemove list idx).Nodup :=
  (List.nodup_cons.mp ((perm_of_idxOf? found).nodup_iff.mp nodup)).2

theorem mem_swapRemove (nodup : list.Nodup) (found : list.idxOf? value = some idx) :
    other ∈ swapRemove list idx ↔ other ∈ list ∧ other ≠ value := by
  have perm := perm_of_idxOf? found
  have absent := (List.nodup_cons.mp (perm.nodup_iff.mp nodup)).1
  rw [perm.mem_iff, List.mem_cons]
  constructor
  · intro member
    refine ⟨.inr member, fun same => absent ?_⟩
    exact same ▸ member
  · intro given
    obtain ⟨equal | member, different⟩ := given
    · exact absurd equal different
    · exact member

theorem exists_idxOf? (member : value ∈ list) : ∃ idx, list.idxOf? value = some idx :=
  Option.isSome_iff_exists.mp (List.isSome_idxOf?.mpr member)

end Positions

end SwapRemove

/-! ## The index -/

section Index

variable {κ α : Type}

/-- The list of every owner has no duplicates and consists of the owner's keys. -/
structure Indexes (owner : κ → Option α) (lists : α → List κ) : Prop where
  nodup : ∀ holder, (lists holder).Nodup
  mem_iff : ∀ holder key, key ∈ lists holder ↔ owner key = some holder

theorem indexes_empty : Indexes (fun _ : κ => (none : Option α)) fun _ => [] where
  nodup := fun _ => List.nodup_nil
  mem_iff := by simp

variable {owner owner' : κ → Option α} {lists lists' : α → List κ} {holder : α} {key : κ}

theorem Indexes.congr (indexes : Indexes owner lists)
    (owners : ∀ other, owner' other = owner other) : Indexes owner' lists where
  nodup := indexes.nodup
  mem_iff := fun other key' => by rw [owners, indexes.mem_iff]

variable [DecidableEq κ] [DecidableEq α]

/-- A key without an owner is pushed to the list of its first one. -/
theorem Indexes.acquire (indexes : Indexes owner lists) (free : owner key = none)
    (owners : ∀ other, owner' other = if other = key then some holder else owner other)
    (pushed : ∀ other, lists' other =
      if other = holder then lists other ++ [key] else lists other) :
    Indexes owner' lists' := by
  have unlisted : ∀ other, key ∉ lists other := by
    intro other
    rw [indexes.mem_iff, free]
    simp
  constructor
  · intro other
    rw [pushed]
    split
    · exact List.Nodup.append (indexes.nodup other) (List.nodup_singleton key)
        (by simpa using unlisted other)
    · exact indexes.nodup other
  · intro other key'
    rw [pushed, owners]
    by_cases same : key' = key
    · subst same
      by_cases mine : other = holder
      · simp [mine]
      · simp [mine, Ne.symm mine, unlisted other]
    · by_cases mine : other = holder <;> simp [mine, same, indexes.mem_iff]

/-- A key that loses its owner is swapped out of the owner's list. -/
theorem Indexes.release (indexes : Indexes owner lists) {idx : Nat}
    (listed : (lists holder).idxOf? key = some idx)
    (owners : ∀ other, owner' other = if other = key then none else owner other)
    (dropped : ∀ other, lists' other =
      if other = holder then swapRemove (lists other) idx else lists other) :
    Indexes owner' lists' := by
  have owned : owner key = some holder := by
    rw [← indexes.mem_iff]
    exact List.isSome_idxOf?.mp (by rw [listed]; rfl)
  constructor
  · intro other
    rw [dropped]
    split
    · rename_i mine
      subst mine
      exact nodup_swapRemove (indexes.nodup other) listed
    · exact indexes.nodup other
  · intro other key'
    rw [dropped, owners]
    by_cases mine : other = holder
    · subst mine
      rw [if_pos rfl, mem_swapRemove (indexes.nodup other) listed, indexes.mem_iff]
      by_cases same : key' = key <;> simp [same]
    · rw [if_neg mine, indexes.mem_iff]
      by_cases same : key' = key
      · subst same
        simp [owned, Ne.symm mine]
      · simp [same]

end Index

end CasperContracts.Basis
