import CasperContracts.Host.Types

/-!
# The global state of a contract

A contract reaches its storage by name: a named key holds an address, the global
state holds a typed value under the address, and the items of a dictionary stand
under the address that the dictionary was seeded with.

`Shows` relates such a state to what it stands for, a partial function from the
names of a contract to their contents.  It has one lemma for each operation.
-/

namespace CasperContracts.Host

open CasperContracts.Basis

/-- The name of a key, character by character. -/
abbrev Name := List Char

structure URef where
  address : Nat
  deriving DecidableEq

inductive Key where
  | account (hash : AccountHash)
  | hash (value : Bytes32)
  | uref (address : URef)
  deriving DecidableEq

/-- `Key::into_uref`, `Key::as_uref` and the conversion behind `try_into`. -/
def Key.intoURef : Key → Option URef
  | .uref address => some address
  | _ => none

inductive StoredValue where
  | unit
  | i32 (value : Int32)
  | bool (value : Bool)
  | u64 (value : UInt64)
  | accountHash (value : AccountHash)
  | contractPackageHash (value : ContractPackageHash)
  | u64s (value : List UInt64)
  deriving DecidableEq

/-- Types whose values can be kept under an address, each apart from the others. -/
class CLTyped (α : Type) where
  toValue : α → StoredValue
  fromValue : StoredValue → Option α
  fromValue_toValue : ∀ value, fromValue (toValue value) = some value

export CLTyped (toValue fromValue fromValue_toValue)

attribute [simp] CLTyped.fromValue_toValue

instance : CLTyped Bool where
  toValue := .bool
  fromValue
    | .bool value => some value
    | _ => none
  fromValue_toValue := fun _ => rfl

instance : CLTyped Int32 where
  toValue := .i32
  fromValue
    | .i32 value => some value
    | _ => none
  fromValue_toValue := fun _ => rfl

instance : CLTyped UInt64 where
  toValue := .u64
  fromValue
    | .u64 value => some value
    | _ => none
  fromValue_toValue := fun _ => rfl

instance : CLTyped AccountHash where
  toValue := .accountHash
  fromValue
    | .accountHash value => some value
    | _ => none
  fromValue_toValue := fun _ => rfl

instance : CLTyped ContractPackageHash where
  toValue := .contractPackageHash
  fromValue
    | .contractPackageHash value => some value
    | _ => none
  fromValue_toValue := fun _ => rfl

instance : CLTyped (List UInt64) where
  toValue := .u64s
  fromValue
    | .u64s value => some value
    | _ => none
  fromValue_toValue := fun _ => rfl

abbrev NamedKeys := FiniteStore Name Key

/-- The named keys of a contract, the values under their addresses, and the items of its
dictionaries by the seed and the item key. -/
structure GlobalState where
  namedKeys : NamedKeys
  values : FiniteStore URef StoredValue
  items : FiniteStore (URef × DictKey) (List UInt8)
  nextAddress : Nat

namespace GlobalState

def empty : GlobalState where
  namedKeys := ∅
  values := ∅
  items := ∅
  nextAddress := 0

def newURef (value : StoredValue) (state : GlobalState) : URef × GlobalState :=
  let uref : URef := ⟨state.nextAddress⟩
  (uref, { state with
    values := Finmap.insert uref value state.values
    nextAddress := state.nextAddress + 1 })

def write (uref : URef) (value : StoredValue) (state : GlobalState) : GlobalState :=
  { state with values := Finmap.insert uref value state.values }

def putKey (name : Name) (key : Key) (state : GlobalState) : GlobalState :=
  { state with namedKeys := Finmap.insert name key state.namedKeys }

def dictionaryGet (seed : URef) (itemKey : DictKey) (state : GlobalState) :
    Option (List UInt8) :=
  state.items.lookup (seed, itemKey)

def dictionaryPut (seed : URef) (itemKey : DictKey) (value : List UInt8)
    (state : GlobalState) : GlobalState :=
  { state with items := Finmap.insert (seed, itemKey) value state.items }

end GlobalState

/-! ## What a state stands for -/

inductive Slot where
  | cell (value : StoredValue)
  | dictionary (items : Dictionary)

namespace GlobalState

def Holds (state : GlobalState) (uref : URef) : Slot → Prop
  | .cell value => state.values.lookup uref = some value
  | .dictionary items =>
      ∀ itemKey, state.dictionaryGet uref itemKey = items.lookup itemKey

/-- The name has an address and the slot stands under it, or the name is free. -/
def Binds (state : GlobalState) (name : Name) : Option Slot → Prop
  | none => state.namedKeys.lookup name = none
  | some slot =>
      ∃ uref, state.namedKeys.lookup name = some (.uref uref) ∧ state.Holds uref slot

variable {κ : Type} (name : κ → Name)

/-- The state shows `view`: each name is bound to its slot, no two names share an
address, and nothing stands at or beyond the next address. -/
structure Shows (state : GlobalState) (view : κ → Option Slot) : Prop where
  binds : ∀ k, state.Binds (name k) (view k)
  apart : ∀ k k' uref, state.namedKeys.lookup (name k) = some (.uref uref) →
    state.namedKeys.lookup (name k') = some (.uref uref) → k = k'
  allocated : ∀ k uref, state.namedKeys.lookup (name k) = some (.uref uref) →
    uref.address < state.nextAddress
  seeded : ∀ uref itemKey, state.nextAddress ≤ uref.address →
    state.dictionaryGet uref itemKey = none

variable {name}
variable {state state' : GlobalState} {view : κ → Option Slot} {k : κ}

theorem shows_empty : GlobalState.empty.Shows name fun _ => none where
  binds := fun k => Finmap.lookup_empty (name k)
  apart := by
    intro k k' uref bound
    cases (Finmap.lookup_empty (name k)).symm.trans bound
  allocated := by
    intro k uref bound
    cases (Finmap.lookup_empty (name k)).symm.trans bound
  seeded := fun uref itemKey _ => Finmap.lookup_empty (uref, itemKey)

namespace Shows

/-! Reading. -/

theorem lookup_none (shows : state.Shows name view) (absent : view k = none) :
    state.namedKeys.lookup (name k) = none := by
  have binds := shows.binds k
  rw [absent] at binds
  exact binds

theorem lookup_some (shows : state.Shows name view) {slot : Slot}
    (present : view k = some slot) :
    ∃ uref, state.namedKeys.lookup (name k) = some (.uref uref) ∧ state.Holds uref slot := by
  have binds := shows.binds k
  rw [present] at binds
  exact binds

/-! Writing. -/

variable [DecidableEq κ]

/-- The contents of one name have changed, and no name has changed its address. -/
private theorem rewrite (shows : state.Shows name view) (state' : GlobalState)
    (slot : Slot) {uref : URef}
    (bound : state.namedKeys.lookup (name k) = some (.uref uref))
    (names : state'.namedKeys = state.namedKeys)
    (address : state'.nextAddress = state.nextAddress) (holds : state'.Holds uref slot)
    (others : ∀ uref' slot', uref' ≠ uref → state.Holds uref' slot' →
      state'.Holds uref' slot')
    (seeded : ∀ uref' itemKey, uref' ≠ uref →
      state'.dictionaryGet uref' itemKey = state.dictionaryGet uref' itemKey) :
    state'.Shows name (Function.update view k (some slot)) where
  binds := by
    intro k'
    by_cases same : k' = k
    · subst same
      rw [Function.update_self]
      exact ⟨uref, names ▸ bound, holds⟩
    · rw [Function.update_of_ne same]
      cases found : view k' with
      | none =>
          change state'.namedKeys.lookup (name k') = none
          rw [names]
          exact shows.lookup_none found
      | some slot' =>
          obtain ⟨uref', bound', holds'⟩ := shows.lookup_some found
          have other : uref' ≠ uref := by
            intro equal
            subst equal
            exact same (shows.apart k' k uref' bound' bound)
          exact ⟨uref', names ▸ bound', others uref' slot' other holds'⟩
  apart := by
    rw [names]
    exact shows.apart
  allocated := by
    rw [names, address]
    exact shows.allocated
  seeded := by
    intro uref' itemKey beyond
    rw [address] at beyond
    have other : uref' ≠ uref := by
      intro equal
      subst equal
      have below := shows.allocated k uref' bound
      omega
    rw [seeded uref' itemKey other]
    exact shows.seeded uref' itemKey beyond

/-- A name has been bound to the next address.  It need not have been free. -/
private theorem bind (injective : Function.Injective name) (shows : state.Shows name view)
    (state' : GlobalState) (slot : Slot)
    (names : state'.namedKeys =
      Finmap.insert (name k) (.uref ⟨state.nextAddress⟩) state.namedKeys)
    (address : state'.nextAddress = state.nextAddress + 1)
    (holds : state'.Holds ⟨state.nextAddress⟩ slot)
    (others : ∀ uref' slot', uref'.address < state.nextAddress → state.Holds uref' slot' →
      state'.Holds uref' slot')
    (items : state'.items = state.items) :
    state'.Shows name (Function.update view k (some slot)) := by
  have atName : state'.namedKeys.lookup (name k) = some (.uref ⟨state.nextAddress⟩) := by
    rw [names, Finmap.lookup_insert]
  have atOther : ∀ k', k' ≠ k →
      state'.namedKeys.lookup (name k') = state.namedKeys.lookup (name k') := by
    intro k' other
    rw [names, Finmap.lookup_insert_of_ne _ fun same => other (injective same)]
  have old : ∀ k' uref, k' ≠ k → state'.namedKeys.lookup (name k') = some (.uref uref) →
      uref.address < state.nextAddress := by
    intro k' uref other bound
    rw [atOther k' other] at bound
    exact shows.allocated k' uref bound
  have new : ∀ uref, state'.namedKeys.lookup (name k) = some (.uref uref) →
      uref.address = state.nextAddress := by
    intro uref bound
    rw [atName] at bound
    cases bound
    rfl
  constructor
  · intro k'
    by_cases same : k' = k
    · subst same
      rw [Function.update_self]
      exact ⟨_, atName, holds⟩
    · rw [Function.update_of_ne same]
      cases found : view k' with
      | none =>
          change state'.namedKeys.lookup (name k') = none
          rw [atOther k' same]
          exact shows.lookup_none found
      | some slot' =>
          obtain ⟨uref', bound', holds'⟩ := shows.lookup_some found
          have below := shows.allocated k' uref' bound'
          exact ⟨uref', (atOther k' same).trans bound', others uref' slot' below holds'⟩
  · intro left right uref boundLeft boundRight
    by_cases leftNew : left = k
    · by_cases rightNew : right = k
      · rw [leftNew, rightNew]
      · subst leftNew
        have at' := new uref boundLeft
        have below := old right uref rightNew boundRight
        omega
    · by_cases rightNew : right = k
      · subst rightNew
        have at' := new uref boundRight
        have below := old left uref leftNew boundLeft
        omega
      · rw [atOther left leftNew] at boundLeft
        rw [atOther right rightNew] at boundRight
        exact shows.apart left right uref boundLeft boundRight
  · intro k' uref bound
    rw [address]
    by_cases same : k' = k
    · subst same
      have at' := new uref bound
      omega
    · have below := old k' uref same bound
      omega
  · intro uref itemKey beyond
    rw [address] at beyond
    rw [dictionaryGet, items]
    exact shows.seeded uref itemKey (by omega)

theorem write (shows : state.Shows name view) {uref : URef} {value : StoredValue}
    (bound : state.namedKeys.lookup (name k) = some (.uref uref)) :
    (state.write uref value).Shows name (Function.update view k (some (.cell value))) := by
  apply shows.rewrite (state.write uref value) (.cell value) bound rfl rfl
  · exact Finmap.lookup_insert _
  · intro uref' slot' other holds
    cases slot' with
    | cell value' => exact (Finmap.lookup_insert_of_ne _ other).trans holds
    | dictionary items => exact holds
  · exact fun _ _ _ => rfl

private theorem holds_newURef {value : StoredValue} {uref : URef} {slot : Slot} {bindings}
    (old : uref.address < state.nextAddress) (holds : state.Holds uref slot) :
    Holds { (state.newURef value).2 with namedKeys := bindings } uref slot := by
  cases slot with
  | cell value' =>
      have other : uref ≠ ⟨state.nextAddress⟩ := by
        intro same
        subst same
        exact Nat.lt_irrefl _ old
      exact (Finmap.lookup_insert_of_ne _ other).trans holds
  | dictionary items => exact holds

theorem putNew (injective : Function.Injective name) (shows : state.Shows name view)
    (value : StoredValue) :
    ((state.newURef value).2.putKey (name k) (.uref (state.newURef value).1)).Shows name
      (Function.update view k (some (.cell value))) :=
  shows.bind injective _ (.cell value) rfl rfl (Finmap.lookup_insert _)
    (fun _ _ => holds_newURef) rfl

theorem putDictionary (injective : Function.Injective name) (shows : state.Shows name view) :
    ((state.newURef .unit).2.putKey (name k) (.uref (state.newURef .unit).1)).Shows name
      (Function.update view k (some (.dictionary ∅))) := by
  have blank : ∀ itemKey, state.dictionaryGet ⟨state.nextAddress⟩ itemKey =
      (∅ : Dictionary).lookup itemKey := by
    intro itemKey
    rw [Finmap.lookup_empty]
    exact shows.seeded _ itemKey (le_refl _)
  exact shows.bind injective _ (.dictionary ∅) rfl rfl blank (fun _ _ => holds_newURef) rfl

theorem dictionaryPut (shows : state.Shows name view) {seed : URef} {items : Dictionary}
    (present : view k = some (.dictionary items))
    (bound : state.namedKeys.lookup (name k) = some (.uref seed)) (itemKey : DictKey)
    (value : List UInt8) :
    (state.dictionaryPut seed itemKey value).Shows name
      (Function.update view k (some (.dictionary (Finmap.insert itemKey value items)))) := by
  obtain ⟨seed', bound', holds⟩ := shows.lookup_some present
  rw [bound] at bound'
  cases bound'
  have elsewhere : ∀ uref' itemKey', uref' ≠ seed →
      (state.dictionaryPut seed itemKey value).dictionaryGet uref' itemKey' =
        state.dictionaryGet uref' itemKey' := by
    intro uref' itemKey' other
    apply Finmap.lookup_insert_of_ne
    intro same
    exact other (congrArg Prod.fst same)
  apply shows.rewrite (state.dictionaryPut seed itemKey value)
    (.dictionary (Finmap.insert itemKey value items)) bound rfl rfl
  · intro itemKey'
    by_cases same : itemKey' = itemKey
    · subst same
      rw [Finmap.lookup_insert]
      exact Finmap.lookup_insert _
    · have distinct : (seed, itemKey') ≠ (seed, itemKey) :=
        fun equal => same (congrArg Prod.snd equal)
      rw [Finmap.lookup_insert_of_ne _ same, ← holds itemKey']
      exact Finmap.lookup_insert_of_ne _ distinct
  · intro uref' slot' other holds'
    cases slot' with
    | cell value' => exact holds'
    | dictionary items' =>
        exact fun itemKey' => (elsewhere uref' itemKey' other).trans (holds' itemKey')
  · exact elsewhere

end Shows

end GlobalState

end CasperContracts.Host
