import CasperContracts.Vesting.VaultRefinement

/-!
# Calls on different locks

The ids of an account are swapped around by what happens to its locks, so the storage
depends on the order of calls.  The vault does not: calls on different locks commute,
and a batch of them that goes through in one order goes through in every order.
-/

namespace CasperContracts.Vesting

open CasperContracts.Basis Host Prog

/-- The lock a call changes, if there is one. -/
def Call.lockId? : Call → Option UInt64
  | .extendLock lockId _ _ => some lockId
  | .transferLock lockId _ => some lockId
  | .claim lockId => some lockId
  | .init _ => none
  | .lock _ _ _ _ _ => none
  | .setAdmin _ => none
  | .setPauseContract => none

def DifferentLocks (one other : Context × Call) : Prop :=
  ∃ lockId lockId', one.2.lockId? = some lockId ∧ other.2.lockId? = some lockId' ∧
    lockId ≠ lockId'

theorem DifferentLocks.symm {one other : Context × Call} (apart : DifferentLocks one other) :
    DifferentLocks other one := by
  obtain ⟨lockId, lockId', touches, touches', different⟩ := apart
  exact ⟨lockId', lockId, touches', touches, different.symm⟩

section Touch

variable {context : Context} {call : Call} {lockId other : UInt64} {vault : Vault}
  {effect : Effect TokenCall Event Vault} {registry : Registry} {grant : Grant}
  {entry : Option Grant}

/-- A call on a lock depends on nothing but the grant of its caller, and changes
nothing else. -/
theorem Vault.step_eq_ok (touches : call.lockId? = some lockId)
    (isStep : vault.step context call = .ok effect) :
    ∃ registry grant entry, vault.access context lockId = .ok (registry, grant) ∧
      effect.next = vault.put registry lockId entry ∧
      ∀ (vault' : Vault) registry', vault'.access context lockId = .ok (registry', grant) →
        vault'.step context call =
          .ok ⟨effect.requests, effect.events, vault'.put registry' lockId entry⟩ := by
  cases call with
  | init => cases touches
  | lock => cases touches
  | setAdmin => cases touches
  | setPauseContract => cases touches
  | extendLock id index newRelease =>
      cases touches
      simp only [step, bind_eq_ok, unwrapOrRevertWith_eq_ok, refuse_eq_ok, pure_eq_ok] at isStep
      obtain ⟨⟨registry, grant⟩, found, schedule, here, _, later, rfl⟩ := isStep
      refine ⟨registry, grant, _, found, rfl, fun vault' registry' found' => ?_⟩
      simp [step, found', here, unwrapOrRevertWith, refuse, later]
  | transferLock id newOwner =>
      cases touches
      simp only [step, bind_eq_ok, pure_eq_ok] at isStep
      obtain ⟨⟨registry, grant⟩, found, rfl⟩ := isStep
      refine ⟨registry, grant, _, found, rfl, fun vault' registry' found' => ?_⟩
      simp [step, found']
  | claim id =>
      cases touches
      simp only [step, bind_eq_ok, refuse_eq_ok, pure_eq_ok] at isStep
      obtain ⟨⟨registry, grant⟩, found, _, nonzero, rfl⟩ := isStep
      refine ⟨registry, grant, _, found, rfl, fun vault' registry' found' => ?_⟩
      simp [step, found', refuse, nonzero]

theorem Vault.access_put (different : lockId ≠ other) {registry' : Registry} :
    (vault.put registry lockId entry).access context other = .ok (registry', grant) ↔
      registry' = { registry with grants := registry.grants.set lockId.toNat entry } ∧
        Vault.access { vault with registry := some registry } context other =
          .ok (registry, grant) := by
  have apart : lockId.toNat ≠ other.toNat := fun same => different (UInt64.toNat_inj.mp same)
  simp only [access_eq_ok, put, Option.some.injEq]
  constructor
  · intro given
    obtain ⟨unpaused, rfl, found, owned⟩ := given
    rw [List.getElem?_set_ne apart] at found
    exact ⟨rfl, unpaused, trivial, found, owned⟩
  · intro given
    obtain ⟨rfl, unpaused, -, found, owned⟩ := given
    refine ⟨unpaused, rfl, ?_, owned⟩
    rw [List.getElem?_set_ne apart]
    exact found

end Touch

theorem commute_of_different {one other : Context × Call} (apart : DifferentLocks one other) :
    Specification.Commute Vault.step one other := by
  obtain ⟨lockId, lockId', touches, touches', different⟩ := apart
  intro vault first second isFirst isSecond
  obtain ⟨registry, grant, entry, found, next, again⟩ := Vault.step_eq_ok touches isFirst
  obtain ⟨unpaused, opened, -⟩ := Vault.access_eq_ok.mp found
  obtain ⟨registry', grant', entry', found', next', again'⟩ :=
    Vault.step_eq_ok touches' isSecond
  have same : { vault with registry := some registry } = vault := by
    rw [← opened]
  rw [next, Vault.access_put different, same] at found'
  obtain ⟨rfl, foundFirst⟩ := found'
  have isSecond' := again' vault registry foundFirst
  have foundLast : (vault.put registry lockId' entry').access one.1 lockId =
      .ok ({ registry with grants := registry.grants.set lockId'.toNat entry' }, grant) := by
    rw [Vault.access_put different.symm, same]
    exact ⟨rfl, found⟩
  refine ⟨_, _, isSecond', again _ _ foundLast, rfl, rfl, ?_⟩
  have apart : lockId.toNat ≠ lockId'.toNat := fun equal => different (UInt64.toNat_inj.mp equal)
  rw [next', next]
  simp only [Vault.put]
  rw [List.set_comm _ _ apart]

section Histories

variable {E : Type} {answer : TokenCall → E → E → Prop} {drift : E → E → Prop}
variable {admin : AccountHash} {paused : Bool} {e e' : E} {start start' now now' : UInt64}
  {steps steps' : List (Step Context Call Storage E Event)} {w w' : VestWorld E}

/-- Two histories begin with the same calls and go on with calls on different locks, in
two orders and maybe among other tokens.  In the end the contract shows the same vault
and has recorded the same events up to their order; and wherever the second one has got
to, the contract does not fail in a call that is still to come. -/
theorem order_irrelevant {common batch batch' : List (Context × Call)}
    (one : VestHistory answer drift start ⟨.installed admin paused, e, []⟩ steps now w)
    (few : FewLocks w.log) (isBatch : calls steps = common ++ batch)
    (apart : batch.Pairwise DifferentLocks)
    (other : VestHistory answer drift start' ⟨.installed admin paused, e', []⟩ steps' now' w')
    (few' : FewLocks w'.log) (isOther : calls steps' = common ++ batch') :
    (batch.Perm batch' → w.log.Perm w'.log ∧
      ∃ vault : Vault, vault.ShownBy w.storage ∧ vault.ShownBy w'.storage) ∧
    ∀ context call rest, batch.Perm (batch' ++ (context, call) :: rest) →
      ∀ failed, ¬ Fails (Quiet answer) (call.program context) w' failed := by
  obtain ⟨vault, replayedOne, realises⟩ := realised one few
  obtain ⟨vault', replayedOther, realises'⟩ := realised other few'
  rw [isBatch, Specification.replay_append_eq_ok] at replayedOne
  rw [isOther, Specification.replay_append_eq_ok] at replayedOther
  obtain ⟨first, middle, later, replayedCommon, replayedBatch, log⟩ := replayedOne
  obtain ⟨_, _, later', sameCommon, replayedBatch', log'⟩ := replayedOther
  cases replayedCommon.symm.trans sameCommon
  have commute : batch.Pairwise fun one other =>
      Specification.Commute Vault.step one other ∧
        Specification.Commute Vault.step other one :=
    apart.imp fun apart => ⟨commute_of_different apart, commute_of_different apart.symm⟩
  constructor
  · intro perm
    obtain ⟨events, replayed, permEvents⟩ :=
      Specification.replay_perm perm commute replayedBatch
    cases replayed.symm.trans replayedBatch'
    rw [log, log']
    exact ⟨permEvents.append_left first, vault, realises.shown, realises'.shown⟩
  · intro context call rest perm failed
    obtain ⟨events, replayed, -⟩ := Specification.replay_perm perm commute replayedBatch
    obtain ⟨_, _, _, sameBatch, onward, -⟩ := Specification.replay_append_eq_ok.mp replayed
    cases sameBatch.symm.trans replayedBatch'
    obtain ⟨effect, _, isStep, -⟩ := Specification.replay_cons_eq_ok.mp onward
    have meets : Follows (call.program context) w'.storage w'.log (vault'.step context call) :=
      follows_step realises' call
    rw [isStep] at meets
    exact (meets.of_ok answer).1 failed

end Histories

section Sample

open Sample Staking.Sample

/-- Two stakers lock, and then each changes its own lock. -/
def changedInOrder : VestWorld Erc20Ledger :=
  after
    [setUp, (10, staker 1, .lock tokenA (units 30) 20 50 3),
      (10, staker 2, .lock tokenA (units 20) 20 50 2), (40, staker 1, .claim 0),
      (40, staker 2, .transferLock 1 (staker 1))]
    0 opening (by decide +kernel)

def changedInReverse : VestWorld Erc20Ledger :=
  after
    [setUp, (10, staker 1, .lock tokenA (units 30) 20 50 3),
      (10, staker 2, .lock tokenA (units 20) 20 50 2),
      (40, staker 2, .transferLock 1 (staker 1)), (40, staker 1, .claim 0)]
    0 opening (by decide +kernel)

theorem order_irrelevant_changed :
    ∃ vault : Vault, vault.ShownBy changedInOrder.storage ∧
      vault.ShownBy changedInReverse.storage := by
  obtain ⟨steps, now, one, isBatch⟩ :
      ∃ steps now, VestHistory answer drift 0 opening steps now changedInOrder ∧ _ :=
    history_calls _
  obtain ⟨steps', now', other, isOther⟩ :
      ∃ steps now, VestHistory answer drift 0 opening steps now changedInReverse ∧ _ :=
    history_calls _
  let common : List (Context × Call) :=
    [({ caller := owner, blocktime := 0 }, .init package),
      ({ caller := staker 1, blocktime := 10 }, .lock tokenA (units 30) 20 50 3),
      ({ caller := staker 2, blocktime := 10 }, .lock tokenA (units 20) 20 50 2)]
  let claimed : Context × Call := ({ caller := staker 1, blocktime := 40 }, .claim 0)
  let handed : Context × Call :=
    ({ caller := staker 2, blocktime := 40 }, .transferLock 1 (staker 1))
  have apart : [claimed, handed].Pairwise DifferentLocks := by
    refine List.pairwise_pair.mpr ⟨0, 1, rfl, rfl, by decide⟩
  have batch : calls steps = common ++ [claimed, handed] := isBatch
  have batch' : calls steps' = common ++ [handed, claimed] := isOther
  have result := order_irrelevant one (by decide +kernel) batch apart other
    (by decide +kernel) batch'
  exact (result.1 (.swap handed claimed [])).2

end Sample

end CasperContracts.Vesting
