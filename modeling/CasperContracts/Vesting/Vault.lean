import CasperContracts.Basis.Specification
import CasperContracts.Host.Refusal
import CasperContracts.Vesting.Run

/-!
# What the vesting contract is for

A `Vault` keeps grants: amounts of tokens that fall due to an owner at given times.
Each call is one executable step that fails or says what is asked of the tokens and
what the vault becomes.  There are no bytes, keys or lists of ids here, and the id of
a grant is its place in the order of creation.
-/

namespace CasperContracts.Vesting

open CasperContracts.Basis Host

/-- Tokens that fall due to an owner; all of them fit in one payment. -/
structure Grant where
  since : UInt64
  owner : AccountHash
  token : ContractHash
  schedules : List LockSchedule
  fits : remaining schedules < 2 ^ 256
  deriving DecidableEq

namespace Grant

/-! ## Schedules -/

/-- Equal parts that fall due one gap after the other.  The times wrap around. -/
def parts (first gap : Nat) (amount : U256) (count : Nat) : List LockSchedule :=
  (List.range count).map fun i => {
    release := .ofNat (first + i * gap)
    amount := ⟨amount.toNat / count, lt_of_le_of_lt (Nat.div_le_self _ _) amount.isLt⟩ }

theorem remaining_parts (first gap : Nat) (amount : U256) (count : Nat) :
    remaining (parts first gap amount count) = count * (amount.toNat / count) := by
  rw [remaining, parts, List.map_map]
  rw [List.sum_eq_card_nsmul _ (amount.toNat / count)]
  · simp
  · intro part member
    obtain ⟨i, -, rfl⟩ := List.mem_map.mp member
    rfl

def dueOf (time : UInt64) (schedules : List LockSchedule) : List LockSchedule :=
  schedules.filter fun s => s.release ≤ time

theorem remaining_dueOf (time : UInt64) (schedules : List LockSchedule) :
    remaining (dueOf time schedules) +
      remaining (schedules.map (LockSchedule.claimed time)) = remaining schedules := by
  induction schedules with
  | nil => rfl
  | cons s schedules ih =>
      by_cases isDue : s.release ≤ time
      · have kept : dueOf time (s :: schedules) = s :: dueOf time schedules := by
          simp [dueOf, isDue]
        rw [kept, List.map_cons, remaining_cons, remaining_cons, remaining_cons,
          claimed_of_due isDue, U256.toNat_zero]
        omega
      · have dropped : dueOf time (s :: schedules) = dueOf time schedules := by
          simp [dueOf, isDue]
        rw [dropped, List.map_cons, remaining_cons, remaining_cons,
          claimed_of_not_due (UInt64.not_le.mp isDue)]
        omega

theorem remaining_dueOf_le (time : UInt64) (schedules : List LockSchedule) :
    remaining (dueOf time schedules) ≤ remaining schedules := by
  rw [← remaining_dueOf time schedules]
  exact Nat.le_add_right _ _

/-! ## Operations -/

variable (grant : Grant) (time : UInt64)

def moved (schedules : List LockSchedule) (index : Nat) (newRelease : UInt64) :
    List LockSchedule :=
  schedules.modify index fun s => { s with release := newRelease }

theorem moved_eq_set {schedules : List LockSchedule} {index : Nat} {s : LockSchedule}
    (here : schedules[index]? = some s) (newRelease : UInt64) :
    moved schedules index newRelease = schedules.set index { s with release := newRelease } := by
  rw [moved, List.modify_eq_set_getElem?, here]
  rfl

theorem remaining_moved (schedules : List LockSchedule) (index : Nat) (newRelease : UInt64) :
    remaining (moved schedules index newRelease) = remaining schedules := by
  cases here : schedules[index]? with
  | none => rw [moved, List.modify_eq_set_getElem?, here]; rfl
  | some s =>
      rw [moved_eq_set here]
      exact remaining_set here

def postpone (index : Nat) (newRelease : UInt64) : Grant where
  since := grant.since
  owner := grant.owner
  token := grant.token
  schedules := moved grant.schedules index newRelease
  fits := by
    rw [remaining_moved]
    exact grant.fits

def giveTo (newOwner : AccountHash) : Grant :=
  { grant with owner := newOwner }

def due : U256 :=
  ⟨remaining (dueOf time grant.schedules),
    lt_of_le_of_lt (remaining_dueOf_le time grant.schedules) grant.fits⟩

def settle : Grant where
  since := grant.since
  owner := grant.owner
  token := grant.token
  schedules := grant.schedules.map (LockSchedule.claimed time)
  fits := lt_of_le_of_lt remaining_claimed_le grant.fits

theorem due_add_settle :
    (grant.due time).toNat + remaining (grant.settle time).schedules =
      remaining grant.schedules :=
  remaining_dueOf time grant.schedules

def info (lockId : UInt64) : VestInfo where
  id := lockId
  lockTime := grant.since
  recipient := grant.owner
  tokenHash := grant.token
  schedules := grant.schedules

end Grant

/-! ## The vault -/

/-- What the vault keeps for its users: its own name, and every grant ever made, a
settled one as `none`. -/
structure Registry where
  self : ContractPackageHash
  grants : List (Option Grant)
  deriving DecidableEq

structure Vault where
  admin : AccountHash
  paused : Bool
  registry : Option Registry
  deriving DecidableEq

/-- A step that gives an error when it has no result. -/
def NeverPanics {α : Type} (result : Except Failure α) : Prop :=
  result ≠ .error .panic

theorem NeverPanics.bind {α β : Type} {first : Except Failure α} {next : α → Except Failure β}
    (head : NeverPanics first) (rest : ∀ value, NeverPanics (next value)) :
    NeverPanics (first >>= next) := by
  intro panics
  rcases bind_eq_error.mp panics with panics | ⟨value, -, panics⟩
  · exact head panics
  · exact rest value panics

theorem neverPanics_refuse (condition : Prop) [Decidable condition] (error : ApiError) :
    NeverPanics (refuse condition error) := by
  unfold refuse NeverPanics
  split <;> simp

theorem neverPanics_unwrap {α : Type} (error : ApiError) (option : Option α) :
    NeverPanics (unwrapOrRevertWith error option) := by
  cases option <;> simp [NeverPanics, unwrapOrRevertWith]

theorem neverPanics_ok {α : Type} (value : α) : NeverPanics (.ok value) := by
  simp [NeverPanics]

def Registry.grantOf (registry : Registry) (context : Context) (lockId : UInt64) :
    Except Failure Grant := do
  refuse (registry.grants.length < lockId.toNat) .invalidArgument
  let entry ← unwrapOrRevert registry.grants[lockId.toNat]?
  let grant ← unwrapOrRevertWith .missingKey entry
  refuse (grant.owner ≠ context.caller) .invalidPurse
  return grant

theorem grantOf_eq_ok {registry : Registry} {context : Context} {lockId : UInt64}
    {grant : Grant} : registry.grantOf context lockId = .ok grant ↔
      registry.grants[lockId.toNat]? = some (some grant) ∧ grant.owner = context.caller := by
  simp only [Registry.grantOf, refuse_bind]
  constructor
  · intro found
    split at found
    · cases found
    · cases here : registry.grants[lockId.toNat]? with
      | none =>
          rw [here] at found
          cases found
      | some entry =>
          cases entry with
          | none =>
              rw [here] at found
              cases found
          | some other =>
              rw [here] at found
              change (if _ then _ else _) = _ at found
              split at found
              · cases found
              · rename_i same
                cases found
                exact ⟨rfl, not_not.mp same⟩
  · intro given
    obtain ⟨here, owned⟩ := given
    have inside : lockId.toNat < registry.grants.length :=
      (List.getElem?_eq_some_iff.mp here).1
    rw [if_neg (Nat.lt_asymm inside), here]
    change (if _ then _ else _) = _
    rw [if_neg (not_not.mpr owned)]
    rfl

namespace Vault

def installed (admin : AccountHash) (paused : Bool) : Vault := ⟨admin, paused, none⟩

def grant (vault : Vault) (lockId : UInt64) : Option Grant := do
  let registry ← vault.registry
  let entry ← registry.grants[lockId.toNat]?
  entry

def add (vault : Vault) (registry : Registry) (grant : Grant) : Vault :=
  { vault with registry := some { registry with grants := registry.grants ++ [some grant] } }

def put (vault : Vault) (registry : Registry) (lockId : UInt64) (entry : Option Grant) : Vault :=
  { vault with
    registry := some { registry with grants := registry.grants.set lockId.toNat entry } }

/-- What the owner of a grant may do unless the vault is paused. -/
def access (vault : Vault) (context : Context) (lockId : UInt64) :
    Except Failure (Registry × Grant) := do
  refuse vault.paused (.user 14)
  let registry ← unwrapOrRevertWith .missingKey vault.registry
  let grant ← registry.grantOf context lockId
  return (registry, grant)

theorem access_eq_ok {vault : Vault} {context : Context} {lockId : UInt64}
    {registry : Registry} {grant : Grant} :
    vault.access context lockId = .ok (registry, grant) ↔
      vault.paused = false ∧ vault.registry = some registry ∧
        registry.grants[lockId.toNat]? = some (some grant) ∧ grant.owner = context.caller := by
  simp only [access, bind_eq_ok, refuse_eq_ok, unwrapOrRevertWith_eq_ok, grantOf_eq_ok,
    pure_eq_ok, Prod.mk.injEq]
  constructor
  · intro given
    obtain ⟨_, unpaused, other, opened, other', found, rfl, rfl⟩ := given
    exact ⟨Bool.eq_false_iff.mpr unpaused, opened, found⟩
  · intro given
    obtain ⟨unpaused, opened, found⟩ := given
    exact ⟨(), Bool.eq_false_iff.mp unpaused, registry, opened, grant, found, rfl, rfl⟩

def step : Specification Context Call Vault Failure TokenCall Event
  | _, .init contHash, vault => do
      refuse vault.registry.isSome .permissionDenied
      return ⟨[], [], { vault with registry := some ⟨contHash, []⟩ }⟩
  | context, .lock tokh cliffAmount cliffDurtime timeBetweenLocks numberOfLocks, vault => do
      refuse vault.paused (.user 14)
      let registry ← unwrapOrRevert vault.registry
      let first := context.blocktime.toNat + cliffDurtime.toNat
      refuse (2 ^ 64 ≤ first) .none
      refuse (numberOfLocks = 0) .invalidArgument
      refuse (2 ^ 64 ≤ timeBetweenLocks.toNat * (numberOfLocks.toNat - 1)) .none
      let grant : Grant := {
        since := context.blocktime
        owner := context.caller
        token := tokh
        schedules := Grant.parts first timeBetweenLocks.toNat cliffAmount numberOfLocks.toNat
        fits := by
          rw [Grant.remaining_parts]
          exact lt_of_le_of_lt (Nat.mul_div_le _ _) cliffAmount.isLt }
      return {
        requests :=
          [.transferFrom tokh (.account context.caller) (.contract registry.self) cliffAmount]
        events := [.locked (grant.info (.ofNat registry.grants.length))]
        next := vault.add registry grant }
  | context, .extendLock lockId index newRelease, vault => do
      let (registry, grant) ← vault.access context lockId
      let schedule ← unwrapOrRevertWith .invalidArgument grant.schedules[index.toNat]?
      refuse (schedule.release > newRelease) .none
      return ⟨[], [], vault.put registry lockId (grant.postpone index.toNat newRelease)⟩
  | context, .transferLock lockId newOwner, vault => do
      let (registry, grant) ← vault.access context lockId
      return ⟨[], [], vault.put registry lockId (grant.giveTo newOwner)⟩
  | context, .claim lockId, vault => do
      let (registry, grant) ← vault.access context lockId
      let amount := grant.due context.blocktime
      refuse (amount.toNat = 0) (.user 9)
      let left := grant.settle context.blocktime
      return {
        requests := [.transfer grant.token (.account context.caller) amount]
        events := [.claimed {
          lockId
          payee := context.caller
          timestamp := context.blocktime
          amount
          before := grant.schedules
          after := left.schedules }]
        next := vault.put registry lockId
          (if remaining left.schedules = 0 then none else some left) }
  | context, .setAdmin account, vault => do
      refuse (context.caller ≠ vault.admin) .invalidPurse
      return ⟨[], [], { vault with admin := account }⟩
  | context, .setPauseContract, vault => do
      refuse (context.caller ≠ vault.admin) .invalidPurse
      return ⟨[], [], { vault with paused := !vault.paused }⟩

/-! ## Refusals -/

section Refusals

variable {context : Context} {vault : Vault} {lockId : UInt64}

theorem neverPanics_access : NeverPanics (vault.access context lockId) := by
  refine (neverPanics_refuse _ _).bind fun _ => (neverPanics_unwrap _ _).bind fun registry => ?_
  refine NeverPanics.bind ?_ fun grant => neverPanics_ok (registry, grant)
  refine (neverPanics_refuse _ _).bind fun _ => (neverPanics_unwrap _ _).bind fun entry => ?_
  refine (neverPanics_unwrap _ _).bind fun grant => (neverPanics_refuse _ _).bind fun _ => ?_
  exact neverPanics_ok grant

/-- Whatever a step refuses, it gives an error for it. -/
theorem neverPanics_step (call : Call) : NeverPanics (vault.step context call) := by
  cases call with
  | init => exact (neverPanics_refuse _ _).bind fun _ => neverPanics_ok _
  | lock =>
      refine (neverPanics_refuse _ _).bind fun _ => (neverPanics_unwrap _ _).bind fun _ => ?_
      refine (neverPanics_refuse _ _).bind fun _ => (neverPanics_refuse _ _).bind fun _ => ?_
      exact (neverPanics_refuse _ _).bind fun _ => neverPanics_ok _
  | extendLock =>
      refine neverPanics_access.bind fun _ => (neverPanics_unwrap _ _).bind fun _ => ?_
      exact (neverPanics_refuse _ _).bind fun _ => neverPanics_ok _
  | transferLock => exact neverPanics_access.bind fun _ => neverPanics_ok _
  | claim =>
      exact neverPanics_access.bind fun _ => (neverPanics_refuse _ _).bind fun _ =>
        neverPanics_ok _
  | setAdmin => exact (neverPanics_refuse _ _).bind fun _ => neverPanics_ok _
  | setPauseContract => exact (neverPanics_refuse _ _).bind fun _ => neverPanics_ok _

end Refusals

end Vault

end CasperContracts.Vesting
