import CasperContracts.Basis.Frames
import CasperContracts.Host.GlobalState

/-!
# Named keys in a call

A call works on a copy of the named keys that was made when it started.  It looks names
up in the copy; a name that it creates goes to the copy and to the contract, and stays
hidden from the calls that wait for this one.  `Utils.getKey` and `Utils.setKey` are the
two functions both contracts go through.

`Sees` says of a call in progress what `Shows` says of a state, with one lemma for each
operation.  Names keep their addresses as long as a call runs, which is what it may rely
on while it waits for a token.
-/

namespace CasperContracts.Host

open CasperContracts.Basis

/-- A call that does not return: as a contract fails, or with one of the errors that
only a read or a write by name can give. -/
inductive Fault where
  | failure (failure : Failure)
  | unexpectedKeyVariant
  | read
  | valueNotFound
  deriving DecidableEq

def reverts (error : ApiError) : Fault :=
  .failure (.revert error)

/-- `unwrap_or_revert_with`, for any fault. -/
def orFault {α : Type} (fault : Fault) : Option α → Except Fault α
  | some value => .ok value
  | none => .error fault

def orFailure {α : Type} : Except Failure α → Except Fault α
  | .ok value => .ok value
  | .error failure => .error (.failure failure)

/-- A call in progress: its copy of the named keys, and the global state. -/
abbrev Frame := Framed NamedKeys GlobalState

namespace Frame

/-- `storage::new_uref`. -/
def newURef (value : StoredValue) (frame : Frame) : URef × Frame :=
  let (uref, shared) := frame.shared.newURef value
  (uref, { frame with shared })

/-- `storage::write`. -/
def write (uref : URef) (value : StoredValue) (frame : Frame) : Frame :=
  { frame with shared := frame.shared.write uref value }

/-- `runtime::put_key`. -/
def putKey (name : Name) (key : Key) (frame : Frame) : Frame where
  own := Finmap.insert name key frame.own
  shared := frame.shared.putKey name key

/-- `storage::new_dictionary`, which refuses a name already in use. -/
def newDictionary (name : Name) (frame : Frame) : Except Fault Frame :=
  match frame.own.lookup name with
  | some _ => .error (reverts .invalidArgument)
  | none =>
      let (uref, frame) := frame.newURef .unit
      .ok (frame.putKey name (.uref uref))

/-- `runtime::has_key`. -/
def hasKey (name : Name) (frame : Frame) : Bool :=
  (frame.own.lookup name).isSome

/-- The seed of a dictionary, `runtime::get_key` followed by `as_uref`; the caller gives
the errors for a missing name and for a key of another kind. -/
def seedURef (missing variant : ApiError) (name : Name) (frame : Frame) :
    Except Fault URef := do
  let key ← orFault (reverts missing) (frame.own.lookup name)
  orFault (reverts variant) key.intoURef

/-- `storage::dictionary_get`. -/
def dictionaryGet (seed : URef) (itemKey : DictKey) (frame : Frame) : Option (List UInt8) :=
  frame.shared.dictionaryGet seed itemKey

/-- `storage::dictionary_put`. -/
def dictionaryPut (seed : URef) (itemKey : DictKey) (value : List UInt8) (frame : Frame) :
    Frame :=
  { frame with shared := frame.shared.dictionaryPut seed itemKey value }

end Frame

namespace Utils

variable {α : Type} [CLTyped α]

def getKey (α : Type) [CLTyped α] (name : Name) (frame : Frame) : Except Fault α := do
  let key ← orFault (reverts .missingKey) (frame.own.lookup name)
  let key ← orFault .unexpectedKeyVariant key.intoURef
  let value ← orFault .valueNotFound (frame.shared.values.lookup key)
  orFault .read (fromValue value)

def setKey (name : Name) (value : α) (frame : Frame) : Except Fault Frame :=
  match frame.own.lookup name with
  | some key => do
      let keyRef ← orFault .unexpectedKeyVariant key.intoURef
      return frame.write keyRef (toValue value)
  | none =>
      let (key, frame) := frame.newURef (toValue value)
      .ok (frame.putKey name (.uref key))

end Utils

/-! ## What a call sees -/

/-- Every name of one is a name of the other, for the same key. -/
def NamedKeys.Within (names names' : NamedKeys) : Prop :=
  ∀ name key, names.lookup name = some key → names'.lookup name = some key

namespace NamedKeys.Within

variable {names names' : NamedKeys} {name : Name}

theorem insert_new (within : names.Within names') (new : names'.lookup name = none) (key : Key) :
    names.Within (Finmap.insert name key names') := by
  intro other key' found
  have kept := within other key' found
  have different : other ≠ name := by
    intro same
    subst same
    cases new.symm.trans kept
  exact (Finmap.lookup_insert_of_ne _ different).trans kept

theorem insert_both (within : names.Within names') (name : Name) (key : Key) :
    NamedKeys.Within (Finmap.insert name key names) (Finmap.insert name key names') := by
  intro other key' found
  by_cases same : other = name
  · subst same
    rw [Finmap.lookup_insert] at found ⊢
    exact found
  · rw [Finmap.lookup_insert_of_ne _ same] at found ⊢
    exact within other key' found

end NamedKeys.Within

/-- The copy has all names of the contract. -/
def Frame.Whole (frame : Frame) : Prop :=
  frame.own = frame.shared.namedKeys

/-- What a name means to the call it means to the contract. -/
def Frame.UpToDate (frame : Frame) (name : Name) : Prop :=
  frame.own.lookup name = frame.shared.namedKeys.lookup name

theorem Frame.Whole.upToDate {frame : Frame} (whole : frame.Whole) (name : Name) :
    frame.UpToDate name :=
  congrArg (fun names => Finmap.lookup name names) whole

/-- A call that started with the names `known` sees `view`: the state shows it, and the
names of the copy, `known` among them, are names of the contract. -/
structure Sees {κ : Type} (name : κ → Name) (known : NamedKeys) (view : κ → Option Slot)
    (frame : Frame) : Prop where
  shows : frame.shared.Shows name view
  started : known.Within frame.own
  current : frame.own.Within frame.shared.namedKeys

/-- The failure of a contract, reported from below. -/
def Reports (failure : Failure) (fault : Fault) : Prop :=
  fault = .failure failure

theorem Reports.functional (failure : Failure) (left right : Fault)
    (isLeft : Reports failure left) (isRight : Reports failure right) : left = right :=
  Eq.trans isLeft (Eq.symm isRight)

theorem agree_orFailure {α : Type} (result : Except Failure α) :
    Agree Reports Eq result (orFailure result) := by
  cases result with
  | ok value => exact .ok rfl
  | error failure => exact .error rfl

theorem agree_orFault {α : Type} (error : ApiError) (option : Option α) :
    Agree Reports Eq (unwrapOrRevertWith error option) (orFault (reverts error) option) := by
  cases option with
  | some value => exact .ok rfl
  | none => exact .error rfl

namespace Sees

open GlobalState

variable {κ : Type} {name : κ → Name} {known : NamedKeys} {view : κ → Option Slot}
variable {frame : Frame} {k : κ}

theorem start {state : GlobalState} (shows : state.Shows name view) :
    Sees name state.namedKeys view ⟨state.namedKeys, state⟩ :=
  ⟨shows, fun _ _ found => found, fun _ _ found => found⟩

theorem upToDate (sees : Sees name known view frame) (knows : frame.own.lookup (name k) ≠ none) :
    frame.UpToDate (name k) := by
  obtain ⟨key, found⟩ := Option.ne_none_iff_exists'.mp knows
  rw [Frame.UpToDate, found, sees.current _ _ found]

theorem upToDate_of_known (sees : Sees name known view frame)
    (knows : known.lookup (name k) ≠ none) : frame.UpToDate (name k) := by
  obtain ⟨key, found⟩ := Option.ne_none_iff_exists'.mp knows
  have own := sees.started _ _ found
  rw [Frame.UpToDate, own, sees.current _ _ own]

/-! Reading. -/

/-- A name with contents is known to a call that is up to date with it. -/
theorem knows (sees : Sees name known view frame) (upToDate : frame.UpToDate (name k))
    {slot : Slot} (present : view k = some slot) : frame.own.lookup (name k) ≠ none := by
  obtain ⟨uref, bound, -⟩ := sees.shows.lookup_some present
  rw [upToDate, bound]
  simp

theorem present (sees : Sees name known view frame) (knows : frame.own.lookup (name k) ≠ none) :
    view k ≠ none := by
  intro absent
  apply knows
  rw [sees.upToDate knows]
  exact sees.shows.lookup_none absent

theorem hasKey (sees : Sees name known view frame) (upToDate : frame.UpToDate (name k)) :
    frame.hasKey (name k) = (view k).isSome := by
  rw [Frame.hasKey, upToDate]
  cases found : view k with
  | none =>
      rw [sees.shows.lookup_none found]
      rfl
  | some slot =>
      obtain ⟨uref, bound, -⟩ := sees.shows.lookup_some found
      rw [bound]
      rfl

theorem getKey_some {α : Type} [CLTyped α] {value : α} (sees : Sees name known view frame)
    (upToDate : frame.UpToDate (name k)) (present : view k = some (.cell (toValue value))) :
    Utils.getKey α (name k) frame = .ok value := by
  obtain ⟨uref, bound, holds⟩ := sees.shows.lookup_some present
  have stored : frame.shared.values.lookup uref = some (toValue value) := holds
  rw [Utils.getKey, upToDate, bound]
  change orFault .valueNotFound (frame.shared.values.lookup uref) >>= (fun value =>
    orFault .read (fromValue value)) = .ok value
  rw [stored]
  change orFault .read (fromValue (toValue value)) = .ok value
  rw [fromValue_toValue]
  rfl

theorem agree_getKey_some {α : Type} [CLTyped α] {value : α}
    (sees : Sees name known view frame) (upToDate : frame.UpToDate (name k))
    (present : view k = some (.cell (toValue value))) :
    Agree Reports Eq (.ok value) (Utils.getKey α (name k) frame) := by
  rw [sees.getKey_some upToDate present]
  exact .ok rfl

/-- A field that may be absent reads the same as its name. -/
theorem agree_getKey {α : Type} [CLTyped α] {option : Option α}
    (sees : Sees name known view frame) (upToDate : frame.UpToDate (name k))
    (field : view k = option.map fun value => .cell (toValue value)) :
    Agree Reports (fun value value' => value' = value ∧ option = some value)
      (unwrapOrRevertWith .missingKey option) (Utils.getKey α (name k) frame) := by
  cases option with
  | none =>
      have missing : Utils.getKey α (name k) frame = .error (reverts .missingKey) := by
        rw [Utils.getKey, upToDate, sees.shows.lookup_none field]
        rfl
      rw [missing]
      exact .error rfl
  | some value =>
      rw [sees.getKey_some upToDate field]
      exact .ok ⟨rfl, rfl⟩

/-- So does a dictionary, whatever error a key of another kind would give. -/
theorem agree_seedURef {missing : ApiError} (variant : ApiError) {option : Option Dictionary}
    (sees : Sees name known view frame) (upToDate : frame.UpToDate (name k))
    (field : view k = option.map .dictionary) :
    Agree Reports (fun items seed => option = some items ∧
        frame.own.lookup (name k) = some (.uref seed) ∧
        ∀ itemKey, frame.dictionaryGet seed itemKey = items.lookup itemKey)
      (unwrapOrRevertWith missing option) (frame.seedURef missing variant (name k)) := by
  cases option with
  | none =>
      rw [Frame.seedURef, upToDate, sees.shows.lookup_none field]
      exact .error rfl
  | some items =>
      obtain ⟨seed, bound, holds⟩ := sees.shows.lookup_some field
      have found : frame.own.lookup (name k) = some (.uref seed) := upToDate.trans bound
      rw [Frame.seedURef, found]
      exact .ok ⟨rfl, rfl, holds⟩

/-! Writing. -/

variable [DecidableEq κ]

/-- `set_key` succeeds unless the name is that of a dictionary, and makes the name stand
for the value. -/
theorem setKey {α : Type} [CLTyped α] (injective : Function.Injective name)
    (sees : Sees name known view frame) (value : α)
    (cell : ∀ items, view k ≠ some (.dictionary items)) :
    ∃ frame', Utils.setKey (name k) value frame = .ok frame' ∧
      Sees name known (Function.update view k (some (.cell (toValue value)))) frame' ∧
      (frame.Whole → frame'.Whole) := by
  cases found : frame.own.lookup (name k) with
  | none =>
      -- the contract may have the name by now: a call inside this one has created it
      refine ⟨((frame.newURef (toValue value)).2.putKey (name k)
        (.uref (frame.newURef (toValue value)).1)), ?_, ⟨?_, ?_, ?_⟩, ?_⟩
      · rw [Utils.setKey, found]
      · exact sees.shows.putNew injective (toValue value)
      · exact sees.started.insert_new found _
      · exact sees.current.insert_both _ _
      · exact fun whole => congrArg (Finmap.insert _ _) whole
  | some key =>
      have bound := sees.current _ _ found
      cases present : view k with
      | none => cases bound.symm.trans (sees.shows.lookup_none present)
      | some slot =>
          cases slot with
          | dictionary items => exact absurd present (cell items)
          | cell old =>
              obtain ⟨uref, isUref, -⟩ := sees.shows.lookup_some present
              cases bound.symm.trans isUref
              refine ⟨frame.write uref (toValue value), ?_, ⟨?_, sees.started, sees.current⟩,
                id⟩
              · rw [Utils.setKey, found]
                rfl
              · exact sees.shows.write isUref

theorem newDictionary_none (injective : Function.Injective name)
    (sees : Sees name known view frame) (whole : frame.Whole) (free : view k = none) :
    ∃ frame', frame.newDictionary (name k) = .ok frame' ∧
      Sees name known (Function.update view k (some (.dictionary ∅))) frame' ∧
      frame'.Whole := by
  have found : frame.own.lookup (name k) = none :=
    (whole.upToDate (name k)).trans (sees.shows.lookup_none free)
  refine ⟨(frame.newURef .unit).2.putKey (name k) (.uref (frame.newURef .unit).1), ?_,
    ⟨?_, ?_, ?_⟩, ?_⟩
  · rw [Frame.newDictionary, found]
  · exact sees.shows.putDictionary injective
  · exact sees.started.insert_new found _
  · exact sees.current.insert_both _ _
  · exact congrArg (Finmap.insert _ _) whole

omit [DecidableEq κ] in
theorem newDictionary_some (sees : Sees name known view frame) (whole : frame.Whole)
    {slot : Slot} (present : view k = some slot) :
    frame.newDictionary (name k) = .error (reverts .invalidArgument) := by
  obtain ⟨uref, bound, -⟩ := sees.shows.lookup_some present
  rw [Frame.newDictionary, whole.upToDate (name k), bound]

theorem dictionaryPut (sees : Sees name known view frame) {seed : URef} {items : Dictionary}
    (present : view k = some (.dictionary items))
    (bound : frame.own.lookup (name k) = some (.uref seed)) (itemKey : DictKey)
    (value : List UInt8) :
    Sees name known
      (Function.update view k (some (.dictionary (Finmap.insert itemKey value items))))
      (frame.dictionaryPut seed itemKey value) where
  shows := sees.shows.dictionaryPut present (sees.current _ _ bound) itemKey value
  started := sees.started
  current := sees.current

end Sees

/-! ## Calls of a contract whose storage is a record -/

section Calls

variable {κ σ γ ω : Type} (name : κ → Name) (slot : σ → κ → Option Slot)

/-- The record stands for the state, -/
def Shown (storage : σ) (state : GlobalState) : Prop :=
  state.Shows name (slot storage)

/-- and for what a call sees that started with the names `known`. -/
def Seen (known : NamedKeys) (storage : σ) (frame : Frame) : Prop :=
  Sees name known (slot storage) frame

/-- A call that has not created a name or made a request yet. -/
structure Starting (known : NamedKeys) (storage : σ) (frame : Frame) : Prop where
  inside : Seen name slot known storage frame
  whole : frame.Whole
  fresh : frame.own = known

/-- No name of the contract is lost or moved. -/
def NamesStay (_ : σ) (state : GlobalState) (_ : σ) (state' : GlobalState) : Prop :=
  state.namedKeys.Within state'.namedKeys

theorem rely_namesStay : Rely (NamesStay (σ := σ)) where
  refl := fun _ _ _ _ found => found
  trans := fun first second name key found => second name key (first name key found)

variable {name slot}

/-- A program that is simulated from the start of a call on is simulated as a call. -/
theorem simulates_framed {p : Prog σ Failure γ ω Unit} {q : Prog Frame Fault γ ω Unit}
    {storage : σ} {state : GlobalState} (shown : Shown name slot storage state)
    (sim : ∀ frame, Starting name slot state.namedKeys storage frame →
      Simulates (Seen name slot state.namedKeys) (KeepsOwn NamesStay) Reports
        (fun _ storage' _ frame' => Seen name slot state.namedKeys storage' frame') p storage q
        frame) :
    Simulates (Shown name slot) NamesStay Reports
      (fun _ storage' _ state' =>
        Shown name slot storage' state' ∧ NamesStay storage state storage' state')
      p storage (q.framed GlobalState.namedKeys) state := by
  apply Simulates.getRight
  have started := sim ⟨state.namedKeys, state⟩ ⟨Sees.start shown, rfl, rfl⟩
  have kept := started.keeping (R := Shown name slot) (fun _ _ seen => seen.shows)
    fun _ frame _ state' seen shown stays =>
      ⟨shown, seen.started, fun name key own => stays name key (seen.current name key own)⟩
  apply kept.mono
  intro _ storage' _ state' ends
  obtain ⟨own, seen⟩ := ends
  exact ⟨seen.shows, fun name key found => seen.current name key (seen.started name key found)⟩

end Calls

end CasperContracts.Host
