import CasperContracts.Staking.Run
import CasperContracts.Vesting.Book

/-!
# The keys of both contracts

Pools, locks and user records are found by the front of a printed hash and a
number behind it, with nothing in between.  The front always has fifteen
characters, so no two records share a key unless they share both parts.
-/

namespace CasperContracts

open CasperContracts.Basis Host

/-- Pools and locks with different ids have different keys, and a user record's
key tells the front of the account's hash and the pool. -/
theorem record_keys_distinct :
    (∀ (hash : ContractPackageHash) (storage storage' : Staking.Storage),
      storage.selfContractHash = some hash → storage'.selfContractHash = some hash →
      ∀ i j : UInt64, i ≠ j → ∃ key key',
        Staking.makePoolKeyId i storage = .ok key ∧
        Staking.makePoolKeyId j storage' = .ok key' ∧ key ≠ key') ∧
    (∀ (hash : ContractPackageHash) (storage storage' : Vesting.Storage),
      storage.selfContractHash = some hash → storage'.selfContractHash = some hash →
      ∀ i j : UInt64, i ≠ j → ∃ key key',
        Vesting.makeLockKeyId i storage = .ok key ∧
        Vesting.makeLockKeyId j storage' = .ok key' ∧ key ≠ key') ∧
    ∀ (context context' : Context) (i j : UInt64),
      Staking.makeUserKeyById context i = Staking.makeUserKeyById context' j ↔
        context.caller.toChars.take 15 = context'.caller.toChars.take 15 ∧ i = j := by
  refine ⟨?_, ?_, ?_⟩
  · intro hash storage storage' stored stored' i j different
    exact ⟨_, _, Staking.makePoolKeyId_of_hash stored i,
      Staking.makePoolKeyId_of_hash stored' j,
      fun same => different (numberedKey_injective _ same)⟩
  · intro hash storage storage' stored stored' i j different
    exact ⟨_, _, Vesting.makeLockKeyId_of_hash stored i,
      Vesting.makeLockKeyId_of_hash stored' j,
      fun same => different (numberedKey_injective _ same)⟩
  · intro context context' i j
    rw [Staking.makeUserKeyById_eq, Staking.makeUserKeyById_eq,
      RecordKey.encode_injective.eq_iff, Staking.recordKey, Staking.recordKey, Prod.mk.injEq,
      Subtype.ext_iff]
    rfl

/-- Pools 1 and 11 of one contract, although the first key is a prefix of the
second. -/
theorem record_keys_distinct_oneEleven :
    ∃ key key',
      Staking.makePoolKeyId 1
        { Staking.Storage.installed ⟨.filled 7⟩ with
          selfContractHash := some ⟨.filled 9⟩ } = .ok key ∧
      Staking.makePoolKeyId 11
        { Staking.Storage.installed ⟨.filled 7⟩ with
          selfContractHash := some ⟨.filled 9⟩ } = .ok key' ∧
      key ≠ key' :=
  record_keys_distinct.1 ⟨.filled 9⟩ _ _ rfl rfl 1 11 (by decide)

end CasperContracts
