import Mathlib.Algebra.Ring.Nat
import Mathlib.Data.List.Nodup
import CasperContracts.Basis.Interleaving

/-!
# Ids from a counter

A storage keeps the next free id and a slot for each id.  An allocating entry
point reads the counter, fills the slot, and writes the counter back, with
requests in between.  As long as no other allocating entry point is entered
meanwhile, the recorded ids are `0, 1, 2, …` in order and no slot is filled
twice, whatever else is called back.
-/

namespace CasperContracts.Basis

open Prog

/-- Where a storage keeps the counter and the slots, and which events and entry
points allocate. -/
structure Registry (σ ω κ η X : Type) where
  fresh : σ → Prop
  wellFormed : σ → Prop
  index : σ → Option UInt64
  /-- What never changes once the storage is set up. -/
  home : σ → Option η
  slot : σ → UInt64 → Option X
  id? : ω → Option UInt64
  allocates : κ → Prop

namespace Registry

variable {σ ω κ η X : Type} (R : Registry σ ω κ η X)

def ids (log : List ω) : List UInt64 :=
  log.filterMap R.id?

@[simp] theorem ids_append (log more : List ω) :
    R.ids (log ++ more) = R.ids log ++ R.ids more :=
  List.filterMap_append

/-- An allocating entry point is in progress. -/
def Busy (stack : List κ) : Prop :=
  ∃ k ∈ stack, R.allocates k

/-- The ids handed out are `0, 1, 2, …` in order. -/
def Listed (log : List ω) : Prop :=
  ∃ n < 2 ^ 64, R.ids log = (List.range n).map UInt64.ofNat

/-- The counter and the slots of a storage that is set up.  The slot of the next
id may have been filled when an allocating entry point is in progress. -/
structure Sound (busy : Prop) (next : UInt64) (v : Inside σ ω) : Prop where
  wellFormed : R.wellFormed v.storage
  index : R.index v.storage = some next
  ids : R.ids v.log = (List.range next.toNat).map UInt64.ofNat
  below : ∀ id, (R.slot v.storage id).isSome → id < next ∨ busy ∧ id = next

/-- What happens while entry points are open: ids are only added, and none while
an allocating one waits. -/
structure Grows (stack : List κ) (v v' : Inside σ ω) : Prop where
  index : ∀ i, R.index v.storage = some i → ∃ i', R.index v'.storage = some i' ∧ i ≤ i'
  home : ∀ h, R.home v.storage = some h → R.home v'.storage = some h
  slot : ∀ id, (R.slot v.storage id).isSome → (R.slot v'.storage id).isSome
  listed : R.Listed v.log → R.Listed v'.log
  still : R.Busy stack → R.index v'.storage = R.index v.storage ∧
    ∀ id, (R.slot v'.storage id).isSome → (R.slot v.storage id).isSome

/-- While control is outside, the storage is as it was installed or sound. -/
def Ready (stack : List κ) (v : Inside σ ω) : Prop :=
  (R.fresh v.storage ∧ R.index v.storage = none ∧ R.ids v.log = [] ∧ ¬ R.Busy stack) ∨
    ∃ next, R.Sound (R.Busy stack) next v

/-- An allocating entry point fills no slot that is filled. -/
def Keeps (k : κ) (v v' : Inside σ ω) : Prop :=
  R.allocates k → ∀ id x, R.slot v.storage id = some x → R.slot v'.storage id = some x

/-- An allocating entry point is entered while no other is in progress. -/
def Alone (stack : List κ) (k : κ) : Prop :=
  R.allocates k → ¬ R.Busy stack

/-- An allocating entry point is entered while there is an id left for it. -/
def Few (log : List ω) (k : κ) : Prop :=
  R.allocates k → (R.ids log).length + 1 < 2 ^ 64

/-- Any call may be made inside another one of the same deploy, as long as there is
an id left for it.  Calls come with the context of their deploy. -/
def Reentrant {context call E : Type} (R : Registry σ ω (context × call) η X)
    (stack : List (context × call)) (w : World σ E ω) (entry : context × call) : Prop :=
  (∀ outer ∈ stack, outer.1 = entry.1) ∧ R.Few w.log entry

/-- The same with no allocating call inside another one. -/
def Lone {context call E : Type} (R : Registry σ ω (context × call) η X)
    (stack : List (context × call)) (w : World σ E ω) (entry : context × call) : Prop :=
  R.Reentrant stack w entry ∧ R.Alone stack entry

section Decidable

variable {context call E : Type} (R : Registry σ ω (context × call) η X)
variable [DecidableEq context] [DecidablePred R.allocates]
variable (stack : List (context × call)) (w : World σ E ω) (entry : context × call)

instance : Decidable (R.Reentrant stack w entry) :=
  inferInstanceAs (Decidable ((∀ outer ∈ stack, outer.1 = entry.1) ∧
    (R.allocates entry → (R.ids w.log).length + 1 < 2 ^ 64)))

instance : Decidable (R.Lone stack w entry) :=
  inferInstanceAs (Decidable (R.Reentrant stack w entry ∧
    (R.allocates entry → ¬ ∃ k ∈ stack, R.allocates k)))

end Decidable

section Laws

variable {R} {stack : List κ} {k : κ} {u v v' : Inside σ ω} {busy : Prop} {next : UInt64}

theorem busy_cons : R.Busy (k :: stack) ↔ R.allocates k ∨ R.Busy stack := by
  simp [Busy]

theorem not_busy_nil : ¬ R.Busy [] := by
  simp [Busy]

theorem Listed.nodup {log : List ω} (listed : R.Listed log) : (R.ids log).Nodup := by
  obtain ⟨n, few, ids⟩ := listed
  rw [ids]
  refine List.Nodup.map_on (fun a memA b memB same => ?_) List.nodup_range
  have ofNatA : (UInt64.ofNat a).toNat = a :=
    UInt64.toNat_ofNat_of_lt' (Nat.lt_trans (List.mem_range.mp memA) few)
  have ofNatB : (UInt64.ofNat b).toNat = b :=
    UInt64.toNat_ofNat_of_lt' (Nat.lt_trans (List.mem_range.mp memB) few)
  rw [← ofNatA, ← ofNatB, same]

theorem Sound.mono {busy' : Prop} (implied : busy → busy') (sound : R.Sound busy next v) :
    R.Sound busy' next v where
  wellFormed := sound.wellFormed
  index := sound.index
  ids := sound.ids
  below := fun id filled => (sound.below id filled).imp_right (And.imp_left implied)

theorem Sound.length_ids (sound : R.Sound busy next v) :
    (R.ids v.log).length = next.toNat := by
  rw [sound.ids, List.length_map, List.length_range]

theorem Sound.ready (implied : busy → R.Busy stack) (sound : R.Sound busy next v) :
    R.Ready stack v :=
  .inr ⟨next, sound.mono implied⟩

theorem Ready.sound (ready : R.Ready stack v) (found : R.index v.storage = some next) :
    R.Sound (R.Busy stack) next v := by
  rcases ready with ⟨-, none, -⟩ | ⟨next', sound⟩
  · rw [none] at found
    cases found
  · rw [sound.index, Option.some.injEq] at found
    exact found ▸ sound

theorem Grows.refl : R.Grows stack v v where
  index := fun i found => ⟨i, found, UInt64.le_refl i⟩
  home := fun _ found => found
  slot := fun _ filled => filled
  listed := id
  still := fun _ => ⟨rfl, fun _ filled => filled⟩

theorem Grows.trans (first : R.Grows stack u v) (second : R.Grows stack v v') :
    R.Grows stack u v' where
  index := by
    intro i found
    obtain ⟨j, foundV, le⟩ := first.index i found
    obtain ⟨i', foundV', le'⟩ := second.index j foundV
    exact ⟨i', foundV', UInt64.le_trans le le'⟩
  home := fun h found => second.home h (first.home h found)
  slot := fun id filled => second.slot id (first.slot id filled)
  listed := second.listed ∘ first.listed
  still := by
    intro waiting
    obtain ⟨index, slots⟩ := first.still waiting
    obtain ⟨index', slots'⟩ := second.still waiting
    exact ⟨index'.trans index, fun id filled => slots id (slots' id filled)⟩

theorem Grows.pop (grows : R.Grows (k :: stack) v v') : R.Grows stack v v' where
  index := grows.index
  home := grows.home
  slot := grows.slot
  listed := grows.listed
  still := fun waiting => grows.still (busy_cons.mpr (.inr waiting))

end Laws

def discipline : Discipline σ ω κ where
  inv := R.Ready
  rely := R.Grows
  own := R.Keeps
  refl := .refl
  trans := .trans
  pop := .pop
  own_refl := fun _ _ _ filled => filled

/-! ## Writes -/

/-- A write to the slot of an id. -/
structure Fills (id : UInt64) (storage storage' : σ) : Prop where
  wellFormed : R.wellFormed storage'
  index : R.index storage' = R.index storage
  home : R.home storage' = R.home storage
  others : ∀ other, other ≠ id → R.slot storage' other = R.slot storage other
  filled : (R.slot storage' id).isSome

structure Counts (next : UInt64) (storage storage' : σ) : Prop where
  wellFormed : R.wellFormed storage'
  index : R.index storage' = some next
  home : R.home storage' = R.home storage
  slot : ∀ id, R.slot storage' id = R.slot storage id

/-- A change that touches neither the counter nor a free slot. -/
structure Quiet (v v' : Inside σ ω) : Prop where
  fresh : R.index v.storage = none → R.fresh v.storage → R.fresh v'.storage
  wellFormed : R.wellFormed v.storage → R.wellFormed v'.storage
  index : R.index v'.storage = R.index v.storage
  home : R.home v'.storage = R.home v.storage
  slot : ∀ id, (R.slot v'.storage id).isSome = (R.slot v.storage id).isSome
  ids : R.ids v'.log = R.ids v.log

section Quiet

variable {R} {stack : List κ} {k : κ} {v v' : Inside σ ω} {busy : Prop} {next : UInt64}

theorem Quiet.grows (quiet : R.Quiet v v') : R.Grows stack v v' where
  index := fun i found => ⟨i, quiet.index.trans found, UInt64.le_refl i⟩
  home := fun h found => quiet.home.trans found
  slot := fun id filled => (quiet.slot id).trans filled
  listed := by
    intro listed
    rw [Listed, quiet.ids]
    exact listed
  still := fun _ => ⟨quiet.index, fun id filled => (quiet.slot id).symm.trans filled⟩

theorem Quiet.sound (quiet : R.Quiet v v') (sound : R.Sound busy next v) :
    R.Sound busy next v' where
  wellFormed := quiet.wellFormed sound.wellFormed
  index := quiet.index.trans sound.index
  ids := quiet.ids.trans sound.ids
  below := fun id filled => sound.below id ((quiet.slot id).symm.trans filled)

theorem Quiet.ready (quiet : R.Quiet v v') (ready : R.Ready stack v) : R.Ready stack v' := by
  rcases ready with ⟨fresh, index, ids, idle⟩ | ⟨next, sound⟩
  · exact .inl ⟨quiet.fresh index fresh, quiet.index.trans index, quiet.ids.trans ids, idle⟩
  · exact .inr ⟨next, quiet.sound sound⟩

theorem Quiet.of_log {event : ω} (none : R.id? event = none) :
    R.Quiet v { v with log := v.log ++ [event] } where
  fresh := fun _ => id
  wellFormed := id
  index := rfl
  home := rfl
  slot := fun _ => rfl
  ids := by simp [Registry.ids, none]

theorem Quiet.of_fills {slot : UInt64} {storage' : σ}
    (fills : R.Fills slot v.storage storage') (found : R.index v.storage = some next)
    (filled : (R.slot v.storage slot).isSome) :
    R.Quiet v { v with storage := storage' } where
  fresh := by simp [found]
  wellFormed := fun _ => fills.wellFormed
  index := fills.index
  home := fills.home
  slot := by
    intro id
    by_cases same : id = slot
    · rw [same, filled]
      exact fills.filled
    · rw [fills.others id same]
  ids := rfl

theorem keeps_of_not_allocates (none : ¬ R.allocates k) : R.Keeps k v v' :=
  fun allocates => absurd allocates none

theorem Ready.step (none : ¬ R.allocates k) (quiet : R.Quiet v v')
    (ready : R.Ready stack v) :
    R.Grows stack v v' ∧ R.Keeps k v v' ∧ R.Ready stack v' :=
  ⟨quiet.grows, keeps_of_not_allocates none, quiet.ready ready⟩

theorem ready_setUp {storage' : σ} (none : ¬ R.allocates k) (idle : ¬ R.Busy stack)
    (noIndex : R.index v.storage = .none) (noHome : R.home v.storage = .none)
    (noSlot : ∀ id, R.slot v.storage id = .none) (noIds : R.ids v.log = [])
    (wellFormed : R.wellFormed storage') (index : R.index storage' = some 0)
    (empty : ∀ id, R.slot storage' id = .none) :
    R.Grows stack v { v with storage := storage' } ∧
      R.Keeps k v { v with storage := storage' } ∧
      R.Ready stack { v with storage := storage' } := by
  refine ⟨?_, keeps_of_not_allocates none, .inr ⟨0, wellFormed, index, noIds, ?_⟩⟩
  · exact {
      index := by simp [noIndex]
      home := by simp [noHome]
      slot := by simp [noSlot]
      listed := fun listed => listed
      still := fun waiting => absurd waiting idle }
  · simp [empty]

end Quiet

/-! ## Entry points that do not allocate -/

/-- The storage is set up at `home`, and the slot of `id` is filled. -/
structure Holds (home : η) (id : UInt64) (stack : List κ) (v : Inside σ ω) : Prop where
  sound : ∃ next, R.Sound (R.Busy stack) next v
  home : R.home v.storage = some home
  filled : (R.slot v.storage id).isSome

/-- A part of an entry point that changes the slot of `id` at most. -/
def Plain {ε γ α : Type} (home : η) (id : UInt64) (stack : List κ) (k : κ)
    (p : Prog σ ε γ ω α) : Prop :=
  ∀ v, R.Holds home id stack v →
    R.discipline.Meets stack k p (fun _ => R.Holds home id stack) v

section Plain

variable {ε γ α β : Type} {R}
variable {home : η} {id : UInt64} {stack : List κ} {k : κ} {v v' : Inside σ ω}

theorem Holds.ready (holds : R.Holds home id stack v) : R.Ready stack v :=
  .inr holds.sound

theorem Holds.quiet (quiet : R.Quiet v v') (holds : R.Holds home id stack v) :
    R.Holds home id stack v' where
  sound := by
    obtain ⟨next, sound⟩ := holds.sound
    exact ⟨next, quiet.sound sound⟩
  home := quiet.home.trans holds.home
  filled := (quiet.slot id).trans holds.filled

theorem ready_cons (none : ¬ R.allocates k) : R.Ready (k :: stack) v ↔ R.Ready stack v := by
  simp only [Ready, busy_cons, none, false_or]

/-- What an entry point relies on while it waits. -/
theorem Holds.waited (none : ¬ R.allocates k) (holds : R.Holds home id stack v)
    (ready : R.Ready (k :: stack) v') (grows : R.Grows (k :: stack) v v') :
    R.Holds home id stack v' where
  sound := by
    obtain ⟨next, sound⟩ := holds.sound
    obtain ⟨next', found, -⟩ := grows.index next sound.index
    exact ⟨next', ((ready_cons none).mp ready).sound found⟩
  home := grows.home home holds.home
  filled := grows.slot id holds.filled

theorem plain_pure {value : α} :
    R.Plain home id stack k (Pure.pure value : Prog σ ε γ ω α) :=
  fun _ holds => holds

theorem plain_fail {error : ε} : R.Plain home id stack k (fail error : Prog σ ε γ ω α) :=
  fun _ _ => trivial

theorem Plain.bind {p : Prog σ ε γ ω α} {f : α → Prog σ ε γ ω β}
    (first : R.Plain home id stack k p) (second : ∀ a, R.Plain home id stack k (f a)) :
    R.Plain home id stack k (p >>= f) := by
  intro v holds
  rw [Discipline.meets_bind]
  exact (first v holds).mono fun a v' holds' => second a v' holds'

theorem plain_ofExcept {result : Except ε α} :
    R.Plain home id stack k (Prog.ofExcept result : Prog σ ε γ ω α) := by
  intro v holds
  rw [Discipline.meets_ofExcept]
  exact fun _ _ => holds

theorem plain_reads {g : σ → Except ε α} :
    R.Plain home id stack k (reads g : Prog σ ε γ ω α) := by
  intro v holds
  rw [Discipline.meets_reads]
  exact fun _ _ => holds

theorem plain_request (none : ¬ R.allocates k) {c : γ} :
    R.Plain home id stack k (request c : Prog σ ε γ ω Unit) := by
  intro v holds
  rw [Discipline.meets_request]
  exact ⟨(ready_cons none).mpr holds.ready,
    fun v' ready grows => holds.waited none ready grows⟩

theorem Holds.step (none : ¬ R.allocates k) (quiet : R.Quiet v v')
    (holds : R.Holds home id stack v) :
    R.Grows stack v v' ∧ R.Keeps k v v' ∧ R.Holds home id stack v' :=
  ⟨quiet.grows, keeps_of_not_allocates none, holds.quiet quiet⟩

theorem plain_record (none : ¬ R.allocates k) {event : ω} (other : R.id? event = .none) :
    R.Plain home id stack k (record event : Prog σ ε γ ω Unit) := by
  intro v holds
  rw [Discipline.meets_record]
  exact holds.step none (.of_log other)

theorem plain_updates (none : ¬ R.allocates k) {g : σ → Except ε σ}
    (fills : ∀ storage storage', R.wellFormed storage → R.home storage = some home →
      g storage = .ok storage' → R.Fills id storage storage') :
    R.Plain home id stack k (updates g : Prog σ ε γ ω Unit) := by
  intro v holds
  rw [Discipline.meets_updates]
  intro storage' written
  obtain ⟨next, sound⟩ := holds.sound
  have fillsHere := fills v.storage storage' sound.wellFormed holds.home written
  exact holds.step none (.of_fills fillsHere sound.index holds.filled)

end Plain

/-! ## Entry points that allocate -/

section Allocate

variable {ε γ : Type} {R}
variable {stack : List κ} {k : κ} {v v' : Inside σ ω} {busy : Prop} {next : UInt64}

/-- What an allocating entry point relies on while it waits: nothing happens to
the counter and the free slots. -/
theorem Sound.waited (allocates : R.allocates k) (sound : R.Sound busy next v)
    (ready : R.Ready (k :: stack) v') (grows : R.Grows (k :: stack) v v') :
    R.Sound busy next v' := by
  obtain ⟨index, slots⟩ := grows.still (busy_cons.mpr (.inl allocates))
  have soundNow := ready.sound (index.trans sound.index)
  exact {
    wellFormed := soundNow.wellFormed
    index := soundNow.index
    ids := soundNow.ids
    below := fun id filled => sound.below id (slots id filled) }

/-- The slot of the next id is filled while no other entry point allocates. -/
theorem Sound.fill {storage' : σ} (sound : R.Sound False next v) (alone : ¬ R.Busy stack)
    (fills : R.Fills next v.storage storage') :
    R.Grows stack v { v with storage := storage' } ∧
      R.Keeps k v { v with storage := storage' } ∧
      R.Sound True next { v with storage := storage' } := by
  have free : ∀ {id}, (R.slot v.storage id).isSome → id ≠ next := by
    intro id filled same
    rcases sound.below id filled with lt | ⟨impossible, -⟩
    · exact absurd (same ▸ lt) (UInt64.lt_irrefl next)
    · exact impossible
  refine ⟨?_, ?_, ?_⟩
  · exact {
      index := fun i found => ⟨i, fills.index.trans found, UInt64.le_refl i⟩
      home := fun h found => fills.home.trans found
      slot := fun id filled => by
        rw [fills.others id (free filled)]
        exact filled
      listed := fun listed => listed
      still := fun waiting => absurd waiting alone }
  · intro _ id x found
    rw [fills.others id (free (by simp [found]))]
    exact found
  · refine ⟨fills.wellFormed, fills.index.trans sound.index, sound.ids, ?_⟩
    intro id filled
    by_cases same : id = next
    · exact .inr ⟨trivial, same⟩
    · rw [fills.others id same] at filled
      exact (sound.mono False.elim).below id filled

theorem meets_count {g : σ → Except ε σ} {event : ω} (sound : R.Sound True next v)
    (alone : ¬ R.Busy stack) (few : next.toNat + 1 < 2 ^ 64)
    (counts : ∀ storage storage', R.wellFormed storage → g storage = .ok storage' →
      R.Counts (next + 1) storage storage')
    (own : R.id? event = some next) :
    R.discipline.Meets stack k
      (do
        updates g
        record event : Prog σ ε γ ω Unit)
      (fun _ => R.Ready stack) v := by
  have succ : (next + 1).toNat = next.toNat + 1 := by
    rw [UInt64.toNat_add]
    exact Nat.mod_eq_of_lt few
  have le : next ≤ next + 1 := by
    rw [UInt64.le_iff_toNat_le, succ]
    exact Nat.le_succ _
  have nextIds : R.ids (v.log ++ [event]) =
      (List.range (next + 1).toNat).map UInt64.ofNat := by
    rw [ids_append, sound.ids, succ, List.range_succ, List.map_append]
    simp [ids, own]
  simp only [Discipline.meets_bind, Discipline.meets_updates, Discipline.meets_record]
  intro storage' written
  have counted := counts v.storage storage' sound.wellFormed written
  refine ⟨?_, ?_, ?_, ?_, ?_⟩
  · exact {
      index := by
        intro i found
        rw [sound.index, Option.some.injEq] at found
        exact ⟨next + 1, counted.index, found ▸ le⟩
      home := fun h found => counted.home.trans found
      slot := fun id filled => by
        rw [counted.slot id]
        exact filled
      listed := fun listed => listed
      still := fun waiting => absurd waiting alone }
  · intro _ id x found
    exact (counted.slot id).trans found
  · exact {
      index := fun i found => ⟨i, found, UInt64.le_refl i⟩
      home := fun h found => found
      slot := fun id filled => filled
      listed := fun _ => ⟨_, succ ▸ few, nextIds⟩
      still := fun waiting => absurd waiting alone }
  · exact fun _ _ _ found => found
  · refine .inr ⟨next + 1, counted.wellFormed, counted.index, nextIds, fun id filled => ?_⟩
    rw [counted.slot id] at filled
    rw [UInt64.lt_iff_toNat_lt, succ]
    rcases sound.below id filled with lt | ⟨-, same⟩
    · exact .inl (Nat.lt_succ_of_lt (UInt64.lt_iff_toNat_lt.mp lt))
    · exact .inl (same ▸ Nat.lt_succ_self _)

end Allocate

/-! ## Runs -/

section Runs

variable {ε γ E : Type} {R}
variable {program : κ → Prog σ ε γ ω Unit} {allowed : List κ → World σ E ω → κ → Prop}
variable {w : World σ E ω} {c c' c'' : Config σ ε γ ω κ E}

/-- In a run from a fresh storage every id is recorded once, the counter never
decreases, and no step of an allocating entry point changes a filled slot. -/
theorem allocated_once (guards : R.discipline.Guards program allowed)
    (fresh : R.fresh w.storage) (index : R.index w.storage = none) (log : w.log = [])
    (run : SmallSteps program allowed ⟨[], w⟩ c) (later : SmallSteps program allowed c c') :
    (R.ids c'.world.log).Nodup ∧
      (∀ i i', R.index c.world.storage = some i → R.index c'.world.storage = some i' →
        i ≤ i') ∧
      ∀ c'' frame, SmallStep program allowed c' c'' → c'.frames.head? = some frame →
        R.Keeps frame.entry c'.world.inside c''.world.inside := by
  have installed : R.discipline.Safe ([] : List (Frame σ ε γ ω κ)) w.inside :=
    .inl ⟨fresh, index, by simp [World.inside, log, ids], not_busy_nil⟩
  obtain ⟨safe, grows⟩ := Discipline.Safe.steps guards run installed
  obtain ⟨safe', grows'⟩ := Discipline.Safe.steps guards later safe
  have listed : R.Listed w.inside.log := ⟨0, by decide, by simp [World.inside, log, ids]⟩
  refine ⟨(grows'.listed (grows.listed listed)).nodup, ?_, ?_⟩
  · intro i i' found found'
    obtain ⟨j, foundJ, le⟩ := grows'.index i found
    cases foundJ.symm.trans found'
    exact le
  · exact fun c'' frame step innermost => Discipline.Safe.own step innermost safe'

end Runs

end Registry

end CasperContracts.Basis
