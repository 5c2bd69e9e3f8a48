import CasperContracts.Basis.Custody
import CasperContracts.Staking.Change
import CasperContracts.Staking.Named
import CasperContracts.Staking.Run

/-!
# The staking contract: the record stands for the named keys

The contract has seven names.  A record stands for a global state that shows its
fields under them, and every entry point over the named keys does what it does over
the record (`stake_keys_refined`), among tokens that may call back at any time.
-/

namespace CasperContracts.Staking.Named

open CasperContracts.Basis Host GlobalState Prog

inductive NamedKey where
  | counter
  | admin
  | initialized
  | index
  | selfContractHash
  | dicStakeInfos
  | userInfos
  deriving DecidableEq

def NamedKey.name : NamedKey → Name
  | .counter => contractName
  | .admin => keyNameAdmin
  | .initialized => keyNameInitialized
  | .index => keyNameIndex
  | .selfContractHash => keyNameSelfContractHash
  | .dicStakeInfos => keyNameDicStakeInfos
  | .userInfos => keyNameUserInfos

theorem NamedKey.name_injective : Function.Injective NamedKey.name := by
  intro k k' same
  cases k <;> cases k' <;> first | rfl | exact absurd same (by decide)

def slot (storage : Storage) : NamedKey → Option Slot
  | .counter => some (.cell (toValue (0 : Int32)))
  | .admin => some (.cell (toValue storage.admin))
  | .initialized => some (.cell (toValue storage.initialized))
  | .index => storage.index.map fun index => .cell (toValue index)
  | .selfContractHash => storage.selfContractHash.map fun hash => .cell (toValue hash)
  | .dicStakeInfos => storage.stakeInfos.map .dictionary
  | .userInfos => storage.userInfos.map .dictionary

theorem slot_admin (storage : Storage) (admin : AccountHash) :
    slot { storage with admin } =
      Function.update (slot storage) .admin (some (.cell (toValue admin))) := by
  funext k
  cases k <;> rfl

theorem slot_initialized (storage : Storage) (initialized : Bool) :
    slot { storage with initialized } =
      Function.update (slot storage) .initialized (some (.cell (toValue initialized))) := by
  funext k
  cases k <;> rfl

theorem slot_index (storage : Storage) (index : UInt64) :
    slot { storage with index := some index } =
      Function.update (slot storage) .index (some (.cell (toValue index))) := by
  funext k
  cases k <;> rfl

theorem slot_selfContractHash (storage : Storage) (hash : ContractPackageHash) :
    slot { storage with selfContractHash := some hash } =
      Function.update (slot storage) .selfContractHash (some (.cell (toValue hash))) := by
  funext k
  cases k <;> rfl

theorem slot_stakeInfos (storage : Storage) (items : Dictionary) :
    slot { storage with stakeInfos := some items } =
      Function.update (slot storage) .dicStakeInfos (some (.dictionary items)) := by
  funext k
  cases k <;> rfl

theorem slot_userInfos (storage : Storage) (items : Dictionary) :
    slot { storage with userInfos := some items } =
      Function.update (slot storage) .userInfos (some (.dictionary items)) := by
  funext k
  cases k <;> rfl

theorem slot_ne_dictionary (storage : Storage) {k : NamedKey} (stakes : k ≠ .dicStakeInfos)
    (users : k ≠ .userInfos) (items : Dictionary) : slot storage k ≠ some (.dictionary items) := by
  cases k with
  | dicStakeInfos => exact absurd rfl stakes
  | userInfos => exact absurd rfl users
  | _ => simp [slot]

/-- The record stands for the named keys. -/
abbrev Stands : Storage → GlobalState → Prop :=
  Shown NamedKey.name slot

/-- It stands for what a call sees that started with the names `known`. -/
abbrev Inside (known : NamedKeys) : Storage → Frame → Prop :=
  Seen NamedKey.name slot known

/-- And it stands for what such a call sees first. -/
abbrev Opened (known : NamedKeys) : Storage → Frame → Prop :=
  Starting NamedKey.name slot known

variable {known : NamedKeys} {storage storage' : Storage} {frame : Frame} {context : Context}

theorem Opened.seen (opened : Opened known storage frame) : Inside known storage frame :=
  opened.inside

/-- The names by which a pool is found, which a call has read before it waits. -/
structure KnowsPools (known : NamedKeys) : Prop where
  index : known.lookup keyNameIndex ≠ none
  selfContractHash : known.lookup keyNameSelfContractHash ≠ none
  stakeInfos : known.lookup keyNameDicStakeInfos ≠ none

namespace Inside

/-! ## Reading -/

theorem selfContractHash (inside : Inside known storage frame)
    (upToDate : frame.UpToDate keyNameSelfContractHash) :
    Agree Reports (fun hash hash' => hash' = hash ∧ storage.selfContractHash = some hash)
      (Staking.selfContractHash storage) (Named.selfContractHash frame) :=
  inside.agree_getKey (k := NamedKey.selfContractHash) upToDate rfl

theorem index (inside : Inside known storage frame) (upToDate : frame.UpToDate keyNameIndex) :
    Agree Reports (fun index index' => index' = index ∧ storage.index = some index)
      (getKey storage.index) (Utils.getKey UInt64 keyNameIndex frame) :=
  inside.agree_getKey (k := NamedKey.index) upToDate rfl

theorem stakeSeed (inside : Inside known storage frame)
    (upToDate : frame.UpToDate keyNameDicStakeInfos) (missing variant : ApiError) :
    Agree Reports (fun items seed => storage.stakeInfos = some items ∧
        frame.own.lookup keyNameDicStakeInfos = some (.uref seed) ∧
        ∀ itemKey, frame.dictionaryGet seed itemKey = items.lookup itemKey)
      (unwrapOrRevertWith missing storage.stakeInfos)
      (frame.seedURef missing variant keyNameDicStakeInfos) :=
  inside.agree_seedURef (k := NamedKey.dicStakeInfos) variant upToDate rfl

theorem userSeed (inside : Inside known storage frame)
    (upToDate : frame.UpToDate keyNameUserInfos) (missing variant : ApiError) :
    Agree Reports (fun items seed => storage.userInfos = some items ∧
        frame.own.lookup keyNameUserInfos = some (.uref seed) ∧
        ∀ itemKey, frame.dictionaryGet seed itemKey = items.lookup itemKey)
      (unwrapOrRevertWith missing storage.userInfos)
      (frame.seedURef missing variant keyNameUserInfos) :=
  inside.agree_seedURef (k := NamedKey.userInfos) variant upToDate rfl

theorem makePoolKeyId (inside : Inside known storage frame)
    (upToDate : frame.UpToDate keyNameSelfContractHash) (poolId : UInt64) :
    Agree Reports (fun key key' => key' = key ∧ storage.selfContractHash ≠ none)
      (Staking.makePoolKeyId poolId storage) (Named.makePoolKeyId poolId frame) := by
  apply (inside.selfContractHash upToDate).bind
  intro cHash cHash' found
  obtain ⟨rfl, stored⟩ := found
  exact .ok ⟨rfl, by simp [stored]⟩

theorem isIdValid (inside : Inside known storage frame)
    (upToDate : frame.UpToDate keyNameIndex) (input : UInt64) :
    Agree Reports (fun _ _ => storage.index ≠ none) (Staking.isIdValid input storage)
      (Named.isIdValid input frame) := by
  apply (inside.index upToDate).bind
  intro currentIndex currentIndex' found
  obtain ⟨rfl, stored⟩ := found
  by_cases below : currentIndex' < input
  · rw [if_pos below, if_pos below]
    exact .error rfl
  · rw [if_neg below, if_neg below]
    exact .ok (by simp [stored])

/-! ## Writing -/

private theorem setKey {α : Type} [CLTyped α] (inside : Inside known storage frame)
    (k : NamedKey) (value : α)
    (updated : slot storage' = Function.update (slot storage) k (some (.cell (toValue value))))
    (stakes : k ≠ .dicStakeInfos) (users : k ≠ .userInfos) :
    ∃ frame', Utils.setKey k.name value frame = .ok frame' ∧ Inside known storage' frame' := by
  obtain ⟨frame', success, sees, -⟩ := Sees.setKey NamedKey.name_injective inside value
    (slot_ne_dictionary storage stakes users)
  exact ⟨frame', success, (by rw [Inside, Seen, updated]; exact sees)⟩

theorem setIndex (inside : Inside known storage frame) (index : UInt64) :
    ∃ frame', Utils.setKey keyNameIndex index frame = .ok frame' ∧
      Inside known { storage with index := some index } frame' :=
  inside.setKey .index index (slot_index storage index) (by simp) (by simp)

theorem putStake (inside : Inside known storage frame) {items : Dictionary} {seed : URef}
    (stored : storage.stakeInfos = some items)
    (bound : frame.own.lookup keyNameDicStakeInfos = some (.uref seed))
    (itemKey : DictKey) (value : List UInt8) :
    Inside known { storage with stakeInfos := some (Finmap.insert itemKey value items) }
      (frame.dictionaryPut seed itemKey value) := by
  have present : slot storage .dicStakeInfos = some (.dictionary items) := by
    rw [slot, stored]
    rfl
  rw [Inside, Seen, slot_stakeInfos]
  exact Sees.dictionaryPut inside present bound itemKey value

theorem putUser (inside : Inside known storage frame) {items : Dictionary} {seed : URef}
    (stored : storage.userInfos = some items)
    (bound : frame.own.lookup keyNameUserInfos = some (.uref seed))
    (itemKey : DictKey) (value : List UInt8) :
    Inside known { storage with userInfos := some (Finmap.insert itemKey value items) }
      (frame.dictionaryPut seed itemKey value) := by
  have present : slot storage .userInfos = some (.dictionary items) := by
    rw [slot, stored]
    rfl
  rw [Inside, Seen, slot_userInfos]
  exact Sees.dictionaryPut inside present bound itemKey value

theorem updateStorage (inside : Inside known storage frame) (knows : KnowsPools known)
    (users : known.lookup keyNameUserInfos ≠ none) (stakePool : StakePool)
    (userInfo : UserInfo) (poolId : UInt64) :
    Agree Reports (Inside known)
      (Staking.updateStorage context stakePool userInfo poolId storage)
      (Named.updateStorage context stakePool userInfo poolId frame) := by
  apply (inside.isIdValid (inside.upToDate_of_known (k := NamedKey.index) knows.index) poolId).bind
  intro _ _ _
  apply (inside.stakeSeed
    (inside.upToDate_of_known (k := NamedKey.dicStakeInfos) knows.stakeInfos) _ _).bind
  intro items seed found
  obtain ⟨stored, bound, -⟩ := found
  apply (inside.userSeed (inside.upToDate_of_known (k := NamedKey.userInfos) users) _ _).bind
  intro items' userSeed found
  obtain ⟨storedUsers, boundUsers, -⟩ := found
  apply (inside.makePoolKeyId
    (inside.upToDate_of_known (k := NamedKey.selfContractHash) knows.selfContractHash) poolId).bind
  intro _ dictionaryItemKey same
  obtain ⟨rfl, -⟩ := same
  have written := inside.putStake stored bound dictionaryItemKey stakePool.pack
  exact .ok (written.putUser storedUsers boundUsers (makeUserKeyById context poolId)
    userInfo.pack)

theorem putPool (inside : Inside known storage frame) (knows : KnowsPools known)
    (poolId : UInt64) (pool : StakePool) :
    Agree Reports (Inside known) (Staking.putPool (.user 1) poolId pool storage)
      (Named.putPool poolId pool frame) := by
  apply (inside.stakeSeed
    (inside.upToDate_of_known (k := NamedKey.dicStakeInfos) knows.stakeInfos) _ _).bind
  intro items seed found
  obtain ⟨stored, bound, -⟩ := found
  apply (inside.makePoolKeyId
    (inside.upToDate_of_known (k := NamedKey.selfContractHash) knows.selfContractHash) poolId).bind
  intro _ dictionaryItemKey same
  obtain ⟨rfl, -⟩ := same
  exact .ok (inside.putStake stored bound dictionaryItemKey pool.pack)

private theorem newDictionary (inside : Inside known storage frame) (whole : frame.Whole)
    (k : NamedKey) {option : Option Dictionary} (field : slot storage k = option.map .dictionary) :
    Agree Reports (fun items frame' =>
        Sees NamedKey.name known (Function.update (slot storage) k (some (.dictionary items)))
          frame' ∧ frame'.Whole)
      (Staking.newDictionary option) (frame.newDictionary k.name) := by
  cases option with
  | some items =>
      rw [inside.newDictionary_some whole field]
      exact .error rfl
  | none =>
      obtain ⟨frame', made, sees, whole'⟩ :=
        inside.newDictionary_none NamedKey.name_injective whole field
      rw [made]
      exact .ok ⟨sees, whole'⟩

end Inside

namespace Opened

/-! ## What a call does before it waits -/

theorem initialized (opened : Opened known storage frame) :
    Agree Reports Eq (.ok storage.initialized)
      (Utils.getKey Bool keyNameInitialized frame) :=
  opened.inside.agree_getKey_some (k := NamedKey.initialized) (opened.whole.upToDate _) rfl

theorem admin (opened : Opened known storage frame) :
    Agree Reports Eq (.ok storage.admin) (Utils.getKey AccountHash keyNameAdmin frame) :=
  opened.inside.agree_getKey_some (k := NamedKey.admin) (opened.whole.upToDate _) rfl

private theorem knows (opened : Opened known storage frame) {k : NamedKey}
    (present : slot storage k ≠ none) : known.lookup k.name ≠ none := by
  obtain ⟨contents, found⟩ := Option.ne_none_iff_exists'.mp present
  have own := opened.inside.knows (opened.whole.upToDate k.name) found
  rw [opened.fresh] at own
  exact own

theorem index (opened : Opened known storage frame) :
    Agree Reports Eq (getKey storage.index) (Utils.getKey UInt64 keyNameIndex frame) := by
  apply (opened.seen.index (opened.whole.upToDate _)).mono
  intro index index' found
  exact found.1.symm

theorem selfContractHash (opened : Opened known storage frame) :
    Agree Reports Eq (Staking.selfContractHash storage) (Named.selfContractHash frame) := by
  apply (opened.seen.selfContractHash (opened.whole.upToDate _)).mono
  intro hash hash' found
  exact found.1.symm

/-- A pool that has been found can be found again. -/
theorem getPool (opened : Opened known storage frame) (poolId : UInt64) :
    Agree Reports (fun pool pool' => pool' = pool ∧ KnowsPools known)
      (Staking.getPool poolId storage) (Named.getPool poolId frame) := by
  apply (opened.seen.isIdValid (opened.whole.upToDate _) poolId).bind
  intro _ _ counted
  apply (opened.seen.stakeSeed (opened.whole.upToDate _) _ _).bind
  intro items seed found
  obtain ⟨stored, -, holds⟩ := found
  apply (opened.seen.makePoolKeyId (opened.whole.upToDate _) poolId).bind
  intro _ dictionaryItemKey same
  obtain ⟨rfl, named⟩ := same
  have knowsPools : KnowsPools known := {
    index := opened.knows (k := NamedKey.index) (by simpa [slot] using counted)
    selfContractHash :=
      opened.knows (k := NamedKey.selfContractHash) (by simpa [slot] using named)
    stakeInfos := opened.knows (k := NamedKey.dicStakeInfos) (by simp [slot, stored]) }
  rw [holds]
  apply (agree_orFault (.user 7) (items.lookup dictionaryItemKey)).bind
  intro stakePoolBytes _ same
  subst same
  exact (agree_orFailure _).mono fun _ _ same => ⟨same.symm, knowsPools⟩

theorem getUserInfoForPool (opened : Opened known storage frame) (poolId : UInt64) :
    Agree Reports (fun user user' => user' = user ∧ known.lookup keyNameUserInfos ≠ none)
      (Staking.getUserInfoForPool context poolId storage)
      (Named.getUserInfoForPool context poolId frame) := by
  apply (opened.seen.isIdValid (opened.whole.upToDate _) poolId).bind
  intro _ _ _
  apply (opened.seen.userSeed (opened.whole.upToDate _) .none .none).bind
  intro items seed found
  obtain ⟨stored, -, holds⟩ := found
  have knowsUsers : known.lookup keyNameUserInfos ≠ none :=
    opened.knows (k := NamedKey.userInfos) (by simp [slot, stored])
  dsimp only
  rw [holds]
  cases items.lookup (makeUserKeyById context poolId) with
  | some user => exact (agree_orFailure _).mono fun _ _ same => ⟨same.symm, knowsUsers⟩
  | none => exact .ok ⟨rfl, knowsUsers⟩

/-- The write of `add_pool`, which has read the seed before. -/
theorem putNew (opened : Opened known storage frame) {items : Dictionary} {seed : URef}
    (stored : storage.stakeInfos = some items)
    (bound : frame.own.lookup keyNameDicStakeInfos = some (.uref seed))
    (poolId : UInt64) (pool : StakePool) :
    Agree Reports (Opened known) (Staking.putPool .none poolId pool storage) (do
      let dictionaryItemKey ← Named.makePoolKeyId poolId frame
      return frame.dictionaryPut seed dictionaryItemKey pool.pack) := by
  rw [Staking.putPool, stored]
  apply (opened.seen.makePoolKeyId (opened.whole.upToDate _) poolId).bind
  intro _ dictionaryItemKey same
  obtain ⟨rfl, -⟩ := same
  exact .ok ⟨opened.seen.putStake stored bound dictionaryItemKey pool.pack, opened.whole,
    opened.fresh⟩

/-- `init` finds the two dictionaries missing on both sides, or one of them on both. -/
theorem create (opened : Opened known storage frame) (contHash : ContractPackageHash) :
    Agree Reports (Inside known)
      (do
        let stakeInfos ← Staking.newDictionary storage.stakeInfos
        let userInfos ← Staking.newDictionary storage.userInfos
        return { storage with
          stakeInfos := some stakeInfos
          userInfos := some userInfos
          selfContractHash := some contHash
          index := some 0
          initialized := true })
      (do
        let frame ← frame.newDictionary keyNameDicStakeInfos
        let frame ← frame.newDictionary keyNameUserInfos
        let frame ← Utils.setKey keyNameSelfContractHash contHash frame
        let frame ← Utils.setKey keyNameIndex (0 : UInt64) frame
        Utils.setKey keyNameInitialized true frame) := by
  apply (opened.seen.newDictionary opened.whole .dicStakeInfos rfl).bind
  intro stakeInfos frame₁ created
  obtain ⟨sees₁, whole₁⟩ := created
  rw [← slot_stakeInfos] at sees₁
  apply (Inside.newDictionary sees₁ whole₁ .userInfos rfl).bind
  intro userInfos frame₂ created
  obtain ⟨sees₂, -⟩ := created
  rw [← slot_userInfos] at sees₂
  obtain ⟨frame₃, named, inside₃⟩ := Inside.setKey sees₂ .selfContractHash contHash
    (slot_selfContractHash _ contHash) (by simp) (by simp)
  obtain ⟨frame₄, counted, inside₄⟩ := inside₃.setIndex 0
  obtain ⟨frame₅, marked, inside₅⟩ := inside₄.setKey .initialized true
    (slot_initialized _ true) (by simp) (by simp)
  change Agree Reports _ _
    (Utils.setKey NamedKey.selfContractHash.name contHash frame₂ >>= _)
  rw [named]
  change Agree Reports _ _ (Utils.setKey keyNameIndex (0 : UInt64) frame₃ >>= _)
  rw [counted]
  change Agree Reports _ _ (Utils.setKey NamedKey.initialized.name true frame₄)
  rw [marked]
  exact .ok inside₅

end Opened

/-! ## The entry points -/

section Entries

variable {α β : Type} {post : α → Storage → β → Frame → Prop}

/-- The programs side by side in one call: they issue the same requests, rely on names to
stay while they wait, and `post` holds in the end. -/
abbrev SideBySide (known : NamedKeys) (post : α → Storage → β → Frame → Prop)
    (program : Prog Storage Failure TokenCall Event α) (storage : Storage)
    (program' : Prog Frame Fault TokenCall Event β) (frame : Frame) : Prop :=
  Simulates (Inside known) (KeepsOwn NamesStay) Reports post program storage program' frame

abbrev Ends (known : NamedKeys) (_ : Unit) (storage : Storage) (_ : Unit) (frame : Frame) :
    Prop :=
  Inside known storage frame

private theorem simulates_revertIf_bind {condition : Prop} [Decidable condition]
    {error : ApiError} {rest : Unit → Prog Storage Failure TokenCall Event α}
    {rest' : Unit → Prog Frame Fault TokenCall Event β}
    (onward : SideBySide known post (rest ()) storage (rest' ()) frame) :
    SideBySide known post (Staking.revertIf condition error >>= rest) storage
      (revertIf condition error >>= rest') frame := by
  by_cases holds : condition
  · rw [Staking.revertIf, revertIf, if_pos holds, if_pos holds]
    exact .fail rfl
  · rw [Staking.revertIf, revertIf, if_neg holds, if_neg holds]
    exact onward

private theorem simulates_arith_bind {γ : Type} {result : Option γ}
    {next : γ → Prog Storage Failure TokenCall Event α}
    {next' : γ → Prog Frame Fault TokenCall Event β}
    (onward : ∀ value, SideBySide known post (next value) storage (next' value) frame) :
    SideBySide known post (Staking.arith result >>= next) storage (arith result >>= next')
      frame := by
  apply Simulates.ofExcept_bind
  · exact agree_orFailure (orPanic result)
  intro value _ same
  subst same
  exact onward value

private theorem simulates_spender_bind (inside : Inside known storage frame)
    (knows : KnowsPools known)
    {next : ContractPackageHash → Prog Storage Failure TokenCall Event α}
    {next' : ContractPackageHash → Prog Frame Fault TokenCall Event β}
    (onward : ∀ spender,
      SideBySide known post (next spender) storage (next' spender) frame) :
    SideBySide known post (Prog.reads Staking.selfContractHash >>= next) storage
      (Prog.reads selfContractHash >>= next') frame := by
  apply Simulates.reads_bind
  · exact inside.selfContractHash
      (inside.upToDate_of_known (k := NamedKey.selfContractHash) knows.selfContractHash)
  intro spender _ found
  obtain ⟨rfl, -⟩ := found
  exact onward _

/-- `update_pool` returns the same pool on both sides and leaves the storages alone. -/
private theorem simulates_updatePool (opened : Opened known storage frame) (poolId : UInt64) :
    SideBySide known
      (fun pool storage' pool' frame' => pool' = pool ∧ storage' = storage ∧ frame' = frame ∧
        KnowsPools known)
      (Staking.updatePool context poolId) storage (updatePool context poolId) frame := by
  apply Simulates.reads_bind
  · exact opened.getPool poolId
  intro pool _ found
  obtain ⟨rfl, knows⟩ := found
  apply Simulates.ofExcept_bind
  · exact agree_orFailure _
  intro found _ same
  subst same
  obtain ⟨updated, credit⟩ := found
  cases credit with
  | some credit => exact .emit (.pure ⟨rfl, rfl, rfl, knows⟩)
  | none => exact .pure ⟨rfl, rfl, rfl, knows⟩

private theorem simulates_updatePool_bind (opened : Opened known storage frame)
    {poolId : UInt64} {next : StakePool → Prog Storage Failure TokenCall Event α}
    {next' : StakePool → Prog Frame Fault TokenCall Event β}
    (onward : KnowsPools known →
      ∀ pool, SideBySide known post (next pool) storage (next' pool) frame) :
    SideBySide known post (Staking.updatePool context poolId >>= next) storage
      (updatePool context poolId >>= next') frame := by
  apply (simulates_updatePool opened poolId).bind
  intro pool _ _ _ found
  obtain ⟨rfl, rfl, rfl, knows⟩ := found
  exact onward knows _

private theorem simulates_userInfo_bind (opened : Opened known storage frame)
    {poolId : UInt64} {next : UserInfo → Prog Storage Failure TokenCall Event α}
    {next' : UserInfo → Prog Frame Fault TokenCall Event β}
    (onward : known.lookup keyNameUserInfos ≠ none →
      ∀ user, SideBySide known post (next user) storage (next' user) frame) :
    SideBySide known post
      (Prog.reads (Staking.getUserInfoForPool context poolId) >>= next) storage
      (Prog.reads (getUserInfoForPool context poolId) >>= next') frame := by
  apply Simulates.reads_bind
  · exact opened.getUserInfoForPool poolId
  intro user _ found
  obtain ⟨rfl, knows⟩ := found
  exact onward knows _

/-! ### Payments and updates -/

private theorem simulates_payDeposit (inside : Inside known storage frame)
    (knows : KnowsPools known) (pending amount : U256)
    (rewardToken stakingToken : ContractHash) :
    SideBySide known (Ends known)
      (Staking.payDeposit context pending amount rewardToken stakingToken) storage
      (payDeposit context pending amount rewardToken stakingToken) frame := by
  rw [Staking.payDeposit, payDeposit]
  cases DepositScenario.getScenario pending amount rewardToken stakingToken with
  | pendingZero =>
      apply simulates_spender_bind inside knows
      intro spender
      exact Simulates.request inside fun _ _ after _ => after
  | equalTokenPendingGreater =>
      apply simulates_arith_bind
      intro net
      exact Simulates.request inside fun _ _ after _ => after
  | equalTokenPendingLesser =>
      apply simulates_spender_bind inside knows
      intro spender
      apply simulates_arith_bind
      intro net
      exact Simulates.request inside fun _ _ after _ => after
  | claimRewardAndDeposit =>
      apply Simulates.request_bind inside
      intro storage₁ frame₁ inside₁ _
      -- the name is read after a request: the call has known it from its start
      apply simulates_spender_bind inside₁ knows
      intro spender
      exact Simulates.request inside₁ fun _ _ after _ => after

private theorem simulates_payWithdraw (inside : Inside known storage frame)
    (pending amount : U256) (rewardToken stakingToken : ContractHash) :
    SideBySide known (Ends known)
      (Staking.payWithdraw context pending amount rewardToken stakingToken) storage
      (payWithdraw context pending amount rewardToken stakingToken) frame := by
  rw [Staking.payWithdraw, payWithdraw]
  cases WithdrawScenario.getScenario pending rewardToken stakingToken with
  | pendingZero => exact Simulates.request inside fun _ _ after _ => after
  | equalTokens =>
      apply simulates_arith_bind
      intro total
      exact Simulates.request inside fun _ _ after _ => after
  | differentTokens =>
      apply Simulates.request_bind inside
      intro storage₁ frame₁ inside₁ _
      exact Simulates.request inside₁ fun _ _ after _ => after

private theorem simulates_updateStorage_bind (inside : Inside known storage frame)
    (knows : KnowsPools known) (users : known.lookup keyNameUserInfos ≠ none)
    {stakePool : StakePool} {userInfo : UserInfo} {poolId : UInt64}
    {rest : Unit → Prog Storage Failure TokenCall Event Unit}
    {rest' : Unit → Prog Frame Fault TokenCall Event Unit}
    (onward : ∀ storage' frame', Inside known storage' frame' →
      SideBySide known (Ends known) (rest ()) storage' (rest' ()) frame') :
    SideBySide known (Ends known)
      (Prog.updates (Staking.updateStorage context stakePool userInfo poolId) >>= rest) storage
      (Prog.updates (updateStorage context stakePool userInfo poolId) >>= rest') frame := by
  apply Simulates.updates_bind
  · exact inside.updateStorage knows users stakePool userInfo poolId
  exact onward

private theorem simulates_firstDeposit (inside : Inside known storage frame)
    (knows : KnowsPools known) (users : known.lookup keyNameUserInfos ≠ none)
    (amount newAmount : U256) (stakePool : StakePool) (poolId : UInt64) :
    SideBySide known (Ends known)
      (Staking.firstDeposit context amount newAmount stakePool poolId) storage
      (firstDeposit context amount newAmount stakePool poolId) frame := by
  apply simulates_arith_bind
  intro totalStaked
  apply simulates_arith_bind
  intro product
  apply simulates_arith_bind
  intro precision
  apply simulates_arith_bind
  intro rewardDebt
  apply simulates_spender_bind inside knows
  intro spender
  apply Simulates.request_bind inside
  intro storage₁ frame₁ inside₁ _
  apply simulates_updateStorage_bind inside₁ knows users
  intro storage₂ frame₂ inside₂
  exact Simulates.record inside₂

private theorem simulates_topUpDeposit (inside : Inside known storage frame)
    (knows : KnowsPools known) (users : known.lookup keyNameUserInfos ≠ none)
    (amount newAmount : U256) (stakePool : StakePool) (userInfo : UserInfo)
    (poolId : UInt64) :
    SideBySide known (Ends known)
      (Staking.topUpDeposit context amount newAmount stakePool userInfo poolId) storage
      (topUpDeposit context amount newAmount stakePool userInfo poolId) frame := by
  apply simulates_arith_bind
  intro precision
  apply simulates_arith_bind
  intro product
  apply simulates_arith_bind
  intro quotient
  apply simulates_arith_bind
  intro pending
  apply simulates_arith_bind
  intro totalStaked
  apply simulates_arith_bind
  intro newProduct
  apply simulates_arith_bind
  intro rewardDebt
  apply (simulates_payDeposit inside knows _ _ _ _).bind
  intro _ storage₁ _ frame₁ inside₁
  apply simulates_updateStorage_bind inside₁ knows users
  intro storage₂ frame₂ inside₂
  exact .emit (Simulates.record inside₂)

/-! ### One entry point after another -/

private theorem simulates_deposit (opened : Opened known storage frame) (amount : U256)
    (poolId : UInt64) :
    SideBySide known (Ends known) (Staking.deposit context amount poolId) storage
      (deposit context amount poolId) frame := by
  apply simulates_revertIf_bind
  apply simulates_updatePool_bind opened
  intro knows stakePool
  apply simulates_revertIf_bind
  apply simulates_userInfo_bind opened
  intro users userInfo
  apply simulates_arith_bind
  intro newAmount
  by_cases first : userInfo.amount.isZero
  · rw [if_pos first, if_pos first]
    exact simulates_firstDeposit opened.seen knows users amount newAmount stakePool poolId
  · rw [if_neg first, if_neg first]
    exact simulates_topUpDeposit opened.seen knows users amount newAmount stakePool userInfo
      poolId

private theorem simulates_withdraw (opened : Opened known storage frame) (amount : U256)
    (poolId : UInt64) :
    SideBySide known (Ends known) (Staking.withdraw context amount poolId) storage
      (withdraw context amount poolId) frame := by
  apply simulates_revertIf_bind
  apply simulates_userInfo_bind opened
  intro users userInfo
  apply simulates_updatePool_bind opened
  intro knows stakePool
  apply simulates_revertIf_bind
  apply simulates_arith_bind
  intro newAmount
  apply simulates_arith_bind
  intro precision
  apply simulates_arith_bind
  intro product
  apply simulates_arith_bind
  intro quotient
  apply simulates_arith_bind
  intro pending
  apply simulates_arith_bind
  intro totalStaked
  apply simulates_arith_bind
  intro newProduct
  apply simulates_arith_bind
  intro rewardDebt
  apply (simulates_payWithdraw opened.seen _ _ _ _).bind
  intro _ storage₁ _ frame₁ inside₁
  apply simulates_updateStorage_bind inside₁ knows users
  intro storage₂ frame₂ inside₂
  exact .emit (Simulates.record inside₂)

private theorem simulates_emergencyWithdraw (opened : Opened known storage frame)
    (poolId : UInt64) :
    SideBySide known (Ends known) (Staking.emergencyWithdraw context poolId) storage
      (emergencyWithdraw context poolId) frame := by
  apply Simulates.reads_bind
  · exact opened.getPool poolId
  intro stakePool _ found
  obtain ⟨rfl, knows⟩ := found
  apply simulates_userInfo_bind opened
  intro users userInfo
  apply simulates_revertIf_bind
  apply simulates_arith_bind
  intro totalStaked
  apply Simulates.request_bind opened.seen
  intro storage₁ frame₁ inside₁ _
  apply simulates_updateStorage_bind inside₁ knows users
  intro storage₂ frame₂ inside₂
  exact Simulates.record inside₂

private theorem simulates_stopReward (opened : Opened known storage frame) (poolId : UInt64) :
    SideBySide known (Ends known) (Staking.stopReward context poolId) storage
      (stopReward context poolId) frame := by
  apply simulates_updatePool_bind opened
  intro knows pool
  apply simulates_revertIf_bind
  apply simulates_revertIf_bind
  apply simulates_arith_bind
  intro amount
  apply simulates_arith_bind
  intro refund
  apply Simulates.request_bind opened.seen
  intro storage₁ frame₁ inside₁ _
  apply Simulates.updates_bind
  · exact inside₁.putPool knows poolId { pool with endTime := context.blocktime }
  intro storage₂ frame₂ inside₂
  exact Simulates.record inside₂

private theorem simulates_addPool (opened : Opened known storage frame)
    (stakingToken rewardToken : ContractHash) (startTime endTime precision : UInt64)
    (totalReward : U256) :
    SideBySide known (Ends known)
      (Staking.addPool context stakingToken rewardToken startTime endTime precision
        totalReward) storage
      (addPool context stakingToken rewardToken startTime endTime precision totalReward)
      frame := by
  apply simulates_revertIf_bind
  apply simulates_revertIf_bind
  apply simulates_revertIf_bind
  apply Simulates.reads_bind
  · exact opened.seen.stakeSeed (opened.whole.upToDate _) .none .none
  intro items seed found
  obtain ⟨stored, bound, -⟩ := found
  apply Simulates.reads_bind
  · exact opened.index
  intro currentIndex _ same
  subst same
  apply Simulates.updates_bind
  · exact opened.putNew stored bound currentIndex _
  intro storage₁ frame₁ opened₁
  apply Simulates.reads_bind
  · exact opened₁.selfContractHash
  intro spender _ same
  subst same
  apply Simulates.request_bind opened₁.seen
  intro storage₂ frame₂ inside₂ _
  apply Simulates.updates_bind
  · obtain ⟨frame₃, success, inside₃⟩ := inside₂.setIndex (currentIndex + 1)
    rw [success]
    exact Agree.ok inside₃
  intro storage₃ frame₃ inside₃
  exact Simulates.record inside₃

private theorem simulates_init (opened : Opened known storage frame)
    (contHash : ContractPackageHash) :
    SideBySide known (Ends known) (Staking.init contHash) storage (init contHash) frame := by
  apply Simulates.reads_bind
  · exact opened.initialized
  intro isInitialized _ same
  subst same
  apply simulates_revertIf_bind
  exact Simulates.updates (opened.create contHash)

private theorem simulates_saveMe (opened : Opened known storage frame)
    (tokenHash : ContractHash) (amount : U256) :
    SideBySide known (Ends known) (Staking.saveMe context tokenHash amount) storage
      (saveMe context tokenHash amount) frame := by
  apply Simulates.reads_bind
  · exact opened.admin
  intro admin _ same
  subst same
  apply simulates_revertIf_bind
  exact Simulates.request opened.seen fun _ _ after _ => after

private theorem simulates_setAdmin (opened : Opened known storage frame)
    (account : AccountHash) :
    SideBySide known (Ends known) (Staking.setAdmin context account) storage
      (setAdmin context account) frame := by
  apply Simulates.reads_bind
  · exact opened.admin
  intro admin _ same
  subst same
  apply simulates_revertIf_bind
  apply Simulates.updates
  obtain ⟨frame', success, after⟩ :=
    opened.seen.setKey .admin account (slot_admin storage account) (by simp) (by simp)
  have written : Utils.setKey keyNameAdmin account frame = .ok frame' := success
  rw [written]
  exact .ok after

theorem simulates_body (opened : Opened known storage frame) (entry : Call) :
    SideBySide known (Ends known) (entry.program context) storage (body context entry)
      frame := by
  cases entry with
  | init contHash => exact simulates_init opened contHash
  | addPool stakingToken rewardToken startTime endTime precision totalReward =>
      exact simulates_addPool opened stakingToken rewardToken startTime endTime precision
        totalReward
  | deposit amount poolId => exact simulates_deposit opened amount poolId
  | withdraw amount poolId => exact simulates_withdraw opened amount poolId
  | emergencyWithdraw poolId => exact simulates_emergencyWithdraw opened poolId
  | stopReward poolId => exact simulates_stopReward opened poolId
  | saveMe tokenHash amount => exact simulates_saveMe opened tokenHash amount
  | setAdmin account => exact simulates_setAdmin opened account

theorem simulatesAll (context : Context) :
    SimulatesAll Stands NamesStay Reports (Call.program context) (program context) := by
  intro entry storage state stands
  exact simulates_framed stands fun _ opened => simulates_body opened entry

end Entries

/-! ## From the installation on -/

theorem stands_call (installer : Context) :
    Stands (.installed installer.caller) (call installer) := by
  have shows₁ := shows_empty.putNew NamedKey.name_injective (k := NamedKey.counter)
    (toValue (0 : Int32))
  have shows₂ := shows₁.putNew NamedKey.name_injective (k := NamedKey.admin)
    (toValue installer.caller)
  have shows₃ := shows₂.putNew NamedKey.name_injective (k := NamedKey.initialized)
    (toValue false)
  have named : (call installer).Shows NamedKey.name _ := shows₃
  change GlobalState.Shows _ _ _
  convert named using 1
  funext k
  cases k <;> rfl

section Deploys

variable {E : Type} {answer : TokenCall → E → E → Prop} {drift : E → E → Prop}
variable {hostile : TokenCall → Prop} {installer : Context} {outside : E} {start : UInt64}

/-- Tokens that may call back into the contract over its named keys. -/
abbrev NamedTokens (answer : TokenCall → E → E → Prop) (drift : E → E → Prop)
    (hostile : TokenCall → Prop) (context : Context) (depth : Nat) (entry : Call) :
    TokenCall → World GlobalState E Event → World GlobalState E Event → Prop :=
  Embedded (program context) answer drift hostile (fun _ _ _ => True) depth [entry]

abbrev RecordTokens (answer : TokenCall → E → E → Prop) (drift : E → E → Prop)
    (hostile : TokenCall → Prop) (context : Context) (depth : Nat) (entry : Call) :
    TokenCall → StakeWorld E → StakeWorld E → Prop :=
  Embedded (Call.program context) answer drift hostile (fun _ _ _ => True) depth [entry]

/-- The worlds reached from an installation, over the named keys. -/
abbrev NamedReached (answer : TokenCall → E → E → Prop) (drift : E → E → Prop)
    (hostile : TokenCall → Prop) (installer : Context) (outside : E) (start now : UInt64)
    (v : World GlobalState E Event) : Prop :=
  Deploys program Context.blocktime answer drift hostile (fun _ _ _ _ => True) start
    ⟨call installer, outside, []⟩ now v

abbrev RecordReached (answer : TokenCall → E → E → Prop) (drift : E → E → Prop)
    (hostile : TokenCall → Prop) (installer : Context) (outside : E) (start now : UInt64)
    (w : StakeWorld E) : Prop :=
  Deploys Call.program Context.blocktime answer drift hostile (fun _ _ _ _ => True) start
    ⟨.installed installer.caller, outside, []⟩ now w

/-- Over its named keys the contract does what it does over the record, whoever calls back
into it: each reaches what the other reaches, with the same events and the same outside
world, and a call fails on both sides in the same way or on none.  So no call ends on a
key of the wrong kind or on a missing or misread value. -/
theorem stake_keys_refined :
    (∀ now v, NamedReached answer drift hostile installer outside start now v →
      ∃ w, RecordReached answer drift hostile installer outside start now w ∧
        Alike Stands w v) ∧
    (∀ now w, RecordReached answer drift hostile installer outside start now w →
      ∃ v, NamedReached answer drift hostile installer outside start now v ∧
        Alike Stands w v) ∧
    ∀ (w : StakeWorld E) v, Alike Stands w v →
      ∀ (context : Context) (entry : Call) (depth : Nat) (fault : Fault),
        Fails (NamedTokens answer drift hostile context depth entry)
            (program context entry) v fault ↔
          ∃ failure, fault = .failure failure ∧
            Fails (RecordTokens answer drift hostile context depth entry)
              (entry.program context) w failure := by
  have alike : Alike Stands (⟨.installed installer.caller, outside, []⟩ : StakeWorld E)
      ⟨call installer, outside, []⟩ := ⟨stands_call installer, rfl, rfl⟩
  exact Deploys.refined rely_namesStay simulatesAll Reports.functional alike

end Deploys

end CasperContracts.Staking.Named
