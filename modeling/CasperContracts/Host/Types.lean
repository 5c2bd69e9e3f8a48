import CasperContracts.Basis.Word256
import CasperContracts.Basis.FiniteStore
import CasperContracts.Basis.Resumption

/-!
# What the contracts take from the Casper host

Hashes and the way they print, the errors a call can end in, the dictionaries
of the global state, and the context of a deploy.
-/

namespace CasperContracts.Host

open CasperContracts.Basis

abbrev Bytes32 := { bytes : List UInt8 // bytes.length = 32 }

def Bytes32.filled (byte : UInt8) : Bytes32 :=
  ⟨List.replicate 32 byte, List.length_replicate⟩

structure AccountHash where
  value : Bytes32
  deriving DecidableEq

structure ContractHash where
  value : Bytes32
  deriving DecidableEq

structure ContractPackageHash where
  value : Bytes32
  deriving DecidableEq

/-- A hash from a slice of exactly 32 bytes. -/
def bytes32? (bytes : List UInt8) : Option Bytes32 :=
  if width : bytes.length = 32 then some ⟨bytes, width⟩ else none

@[simp] theorem bytes32?_val (hash : Bytes32) : bytes32? hash.val = some hash :=
  dif_pos hash.property

/-- Lower-case hexadecimal, two characters a byte. -/
def encodeLower (bytes : List UInt8) : List Char :=
  bytes.flatMap fun byte =>
    [Nat.digitChar (byte.toNat / 16), Nat.digitChar (byte.toNat % 16)]

@[simp] theorem length_encodeLower (bytes : List UInt8) :
    (encodeLower bytes).length = 2 * bytes.length := by
  induction bytes with
  | nil => rfl
  | cons byte bytes ih =>
      simp only [encodeLower, List.flatMap_cons, List.length_append,
        List.length_cons, List.length_nil] at ih ⊢
      omega

def AccountHash.toChars (hash : AccountHash) : List Char :=
  encodeLower hash.value.val

def ContractPackageHash.toChars (hash : ContractPackageHash) : List Char :=
  encodeLower hash.value.val

def decimal (value : UInt64) : List Char :=
  Nat.toDigits 10 value.toNat

theorem decimal_injective {a b : UInt64} (same : decimal a = decimal b) : a = b := by
  have numbers := congrArg (fun chars => Nat.ofDigitChars 10 chars 0) same
  simp only [decimal, Nat.ofDigitChars_ten_toDigits] at numbers
  exact UInt64.toNat_inj.mp numbers

/-- The item keys of a dictionary, character by character. -/
abbrev DictKey := List Char

abbrev Dictionary := FiniteStore DictKey (List UInt8)

inductive ApiError where
  | none
  | invalidArgument
  | permissionDenied
  | invalidPurse
  | missingKey
  | formatting
  | user (code : UInt16)
  deriving DecidableEq

/-- A call that does not return: it reverts with an error, or it panics. -/
inductive Failure where
  | revert (error : ApiError)
  | panic
  deriving DecidableEq

/-- `unwrap_or_revert_with`. -/
def unwrapOrRevertWith {α : Type} (error : ApiError) : Option α → Except Failure α
  | some value => .ok value
  | .none => .error (.revert error)

/-- `unwrap_or_revert` on a missing value. -/
def unwrapOrRevert {α : Type} : Option α → Except Failure α :=
  unwrapOrRevertWith .none

/-- `unwrap`, and the arithmetic operators that panic. -/
def orPanic {α : Type} : Option α → Except Failure α
  | some value => .ok value
  | .none => .error .panic

@[simp] theorem unwrapOrRevertWith_eq_ok {α : Type} {error : ApiError}
    {option : Option α} {value : α} :
    unwrapOrRevertWith error option = .ok value ↔ option = some value := by
  cases option <;> simp [unwrapOrRevertWith]

@[simp] theorem orPanic_eq_ok {α : Type} {option : Option α} {value : α} :
    orPanic option = .ok value ↔ option = some value := by
  cases option <;> simp [orPanic]

@[simp] theorem bind_eq_ok {α β : Type} {first : Except Failure α}
    {next : α → Except Failure β} {result : β} :
    (first >>= next) = .ok result ↔
      ∃ value, first = .ok value ∧ next value = .ok result := by
  cases first with
  | error error => simp [Bind.bind, Except.bind]
  | ok value => simp [Bind.bind, Except.bind]

theorem bind_eq_error {α β : Type} {first : Except Failure α}
    {next : α → Except Failure β} {failure : Failure} :
    (first >>= next) = .error failure ↔ first = .error failure ∨
      ∃ value, first = .ok value ∧ next value = .error failure := by
  cases first with
  | error error => simp [Bind.bind, Except.bind]
  | ok value => simp [Bind.bind, Except.bind]

theorem unwrapOrRevertWith_eq_error {α : Type} {error : ApiError} {option : Option α}
    {failure : Failure} :
    unwrapOrRevertWith error option = .error failure ↔
      option = none ∧ .revert error = failure := by
  cases option <;> simp [unwrapOrRevertWith]

@[simp] theorem pure_eq_ok {α : Type} {value result : α} :
    (pure value : Except Failure α) = .ok result ↔ value = result := by
  simp [Pure.pure, Except.pure]

theorem mapM_eq_ok {α β : Type} {round : α → Except Failure β} {list : List α}
    {results : List β} :
    list.mapM round = .ok results ↔
      List.Forall₂ (fun value result => round value = .ok result) list results := by
  induction list generalizing results with
  | nil =>
      rw [List.mapM_nil, pure_eq_ok, List.forall₂_nil_left_iff]
      exact eq_comm
  | cons value list ih =>
      simp only [List.mapM_cons, bind_eq_ok, pure_eq_ok, ih, List.forall₂_cons_left_iff]
      constructor
      · intro given
        obtain ⟨result, first, results, rest, rfl⟩ := given
        exact ⟨result, results, first, rest, rfl⟩
      · intro given
        obtain ⟨result, results, first, rest, rfl⟩ := given
        exact ⟨result, first, results, rest, rfl⟩

/-- What every call of a deploy reads from the runtime. -/
structure Context where
  caller : AccountHash
  blocktime : UInt64
  deriving DecidableEq

end CasperContracts.Host
