import CasperContracts.Staking.Stakes

/-!
# The terms of a pool

Every operation writes a whole pool back.  What it was created with stays in
it nevertheless: only the end moves, towards an earlier time and by its owner,
and the clock and the accumulator of the pool do not go back.  The entries of
the pool dictionary are the pools below the index, and an operation writes no
entry but that of its own pool.
-/

namespace CasperContracts.Staking

open CasperContracts.Basis Host Prog

/-- The pool whose entry a call on a pool reads and writes. -/
def Call.poolId? : Call → Option UInt64
  | .deposit _ poolId => some poolId
  | .withdraw _ poolId => some poolId
  | .emergencyWithdraw poolId => some poolId
  | .stopReward poolId => some poolId
  | _ => none

/-- The pool a call works on; `add_pool` works on the next one. -/
def Call.target (storage : Storage) : Call → Option UInt64
  | .addPool _ _ _ _ _ _ => storage.index
  | entry => entry.poolId?

def entryOf (poolId : UInt64) (storage : Storage) : Option (List UInt8) :=
  match storage.stakeInfos, makePoolKeyId poolId storage with
  | some dictionary, .ok key => dictionary.lookup key
  | _, _ => none

section Entries

variable {storage : Storage} {book : Book} {poolId : UInt64}

theorem Represents.entryOf_eq (represents : Represents storage book) (poolId : UInt64) :
    entryOf poolId storage = (book.pool poolId).map StakePool.pack := by
  obtain ⟨dictionary, stored, encodes⟩ := represents.pools
  simp only [entryOf, stored, represents.makePoolKeyId_eq]
  exact encodes.lookup (numberedKey_injective _) poolId

theorem entryOf_installed {admin : AccountHash} :
    entryOf poolId (.installed admin) = none :=
  rfl

theorem Represents.isIdValid_or_reverts (represents : Represents storage book)
    (poolId : UInt64) :
    isIdValid poolId storage = .ok () ∨
      isIdValid poolId storage = .error (.revert .invalidArgument) := by
  by_cases valid : poolId ≤ book.index
  · exact .inl (represents.isIdValid_eq_ok.mpr valid)
  · right
    simp only [isIdValid, getKey, bind_eq_error, unwrapOrRevertWith_eq_ok,
      represents.index, Option.some.injEq, exists_eq_left', if_pos (UInt64.not_le.mp valid)]
    exact .inr trivial

theorem Represents.getPool_absent (represents : Represents storage book)
    (absent : book.pool poolId = none) :
    ∃ error, getPool poolId storage = .error (.revert error) := by
  obtain ⟨dictionary, stored, encodes⟩ := represents.pools
  have missing := encodes.lookup (numberedKey_injective _) poolId
  rw [← Book.pool, absent] at missing
  rcases represents.isIdValid_or_reverts poolId with valid | invalid
  · refine ⟨.user 7, ?_⟩
    simp [getPool, bind_eq_error, valid, stored, represents.makePoolKeyId_eq, missing,
      unwrapOrRevertWith_eq_error]
  · exact ⟨_, bind_eq_error.mpr (.inl invalid)⟩

theorem Represents.getUserInfo_or_reverts (represents : Represents storage book)
    (context : Context) (poolId : UInt64) :
    (∃ user, getUserInfoForPool context poolId storage = .ok user) ∨
      getUserInfoForPool context poolId storage = .error (.revert .invalidArgument) := by
  rcases represents.isIdValid_or_reverts poolId with valid | invalid
  · exact .inl ⟨_, represents.getUserInfoForPool_eq_ok.mpr
      ⟨represents.isIdValid_eq_ok.mp valid, rfl⟩⟩
  · exact .inr (bind_eq_error.mpr (.inl invalid))

end Entries

/-! ## Calls on pools that do not exist -/

section Absent

variable {E : Type} {respond : TokenCall → StakeWorld E → StakeWorld E → Prop}
variable {context : Context} {entry : Call} {poolId : UInt64} {w : StakeWorld E}
  {book : Book}

/-- A program that reverts, and has no other way to end. -/
def Reverts (respond : TokenCall → StakeWorld E → StakeWorld E → Prop)
    (program : Contract Unit) (w : StakeWorld E) : Prop :=
  (∃ error, Fails respond program w (.revert error)) ∧ ∀ w', ¬ Runs respond program w () w'

theorem reverts_of_reads {α : Type} {g : Storage → Except Failure α}
    {f : α → Contract Unit} {error : ApiError}
    (read : g w.storage = .error (.revert error)) :
    Reverts respond (Prog.reads g >>= f) w := by
  refine ⟨⟨error, fails_reads_bind.mpr (.inl read)⟩, fun w' run => ?_⟩
  obtain ⟨_, succeeds, -⟩ := runs_reads_bind.mp run
  rw [read] at succeeds
  cases succeeds

theorem reverts_after_reads {α : Type} {g : Storage → Except Failure α}
    {f : α → Contract Unit} {a : α} (read : g w.storage = .ok a)
    (rest : Reverts respond (f a) w) : Reverts respond (Prog.reads g >>= f) w := by
  obtain ⟨⟨error, fails⟩, never⟩ := rest
  refine ⟨⟨error, fails_reads_bind.mpr (.inr ⟨a, read, fails⟩)⟩, fun w' run => ?_⟩
  obtain ⟨b, reads, later⟩ := runs_reads_bind.mp run
  rw [read, Except.ok.injEq] at reads
  exact never w' (reads ▸ later)

theorem reverts_revertIf {condition : Prop} [Decidable condition] {error : ApiError}
    {f : Unit → Contract Unit} (rest : Reverts respond (f ()) w) :
    Reverts respond (revertIf condition error >>= f) w := by
  obtain ⟨⟨later, fails⟩, never⟩ := rest
  constructor
  · by_cases holds : condition
    · exact ⟨error, fails_revertIf_bind.mpr (.inl ⟨holds, rfl⟩)⟩
    · exact ⟨later, fails_revertIf_bind.mpr (.inr ⟨holds, fails⟩)⟩
  · intro w' run
    exact never w' (runs_revertIf_bind.mp run).2

theorem reverts_updatePool {f : StakePool → Contract Unit} {error : ApiError}
    (read : getPool poolId w.storage = .error (.revert error)) :
    Reverts respond (updatePool context poolId >>= f) w := by
  constructor
  · exact ⟨error, fails_updatePool_bind.mpr (.inl read)⟩
  · intro w' run
    obtain ⟨pool, accrued, credit, succeeds, -⟩ := runs_updatePool_bind.mp run
    rw [read] at succeeds
    cases succeeds

/-- Every operation on a pool that is not stored reverts. -/
theorem reverts_of_absent (represents : Represents w.storage book)
    (absent : book.pool poolId = none) (on : entry.poolId? = some poolId) :
    Reverts respond (entry.program context) w := by
  obtain ⟨error, read⟩ := represents.getPool_absent absent
  cases entry with
  | deposit amount other =>
      cases on
      exact reverts_revertIf (reverts_updatePool read)
  | withdraw amount other =>
      cases on
      refine reverts_revertIf ?_
      rcases represents.getUserInfo_or_reverts context poolId with ⟨user, known⟩ | unknown
      · exact reverts_after_reads known (reverts_updatePool read)
      · exact reverts_of_reads unknown
  | emergencyWithdraw other =>
      cases on
      exact reverts_of_reads read
  | stopReward other =>
      cases on
      exact reverts_updatePool read
  | init => cases on
  | addPool => cases on
  | saveMe => cases on
  | setAdmin => cases on

end Absent

/-! ## What becomes of a pool -/

/-- How a pool may have changed since it was `first`. -/
structure Aged (first pool : StakePool) : Prop where
  terms : pool.terms = first.terms
  endTime : pool.endTime ≤ first.endTime
  last : first.lastRewardTimestamp ≤ pool.lastRewardTimestamp
  acc : first.accTokenPerShare.toNat ≤ pool.accTokenPerShare.toNat

section Aged

variable {context : Context} {selfHash : ContractPackageHash} {poolId : UInt64}
  {first pool pool' : StakePool} {members members' : Members} {call : Call}
  {events : List Event}

theorem Aged.refl : Aged pool pool :=
  ⟨rfl, UInt64.le_refl _, UInt64.le_refl _, le_refl _⟩

theorem Aged.trans (aged : Aged first pool) (later : Aged pool pool') :
    Aged first pool' where
  terms := later.terms.trans aged.terms
  endTime := UInt64.le_trans later.endTime aged.endTime
  last := UInt64.le_trans aged.last later.last
  acc := le_trans aged.acc later.acc

private theorem Accrual.aged {accrued : StakePool} {credit : Option Credit}
    {now : UInt64} (accrual : Accrual now pool accrued credit) (endTime : UInt64)
    (totalStaked : U256) (le : endTime ≤ pool.endTime) :
    Aged pool { accrued with endTime, totalStaked } where
  terms := accrual.terms_eq
  endTime := le
  last := UInt64.le_iff_toNat_le.mpr accrual.last_le
  acc := accrual.acc_le

theorem PoolChange.aged
    (change : PoolChange context selfHash poolId pool members call events pool' members') :
    Aged pool pool' := by
  cases change with
  | settle accrual =>
      exact accrual.aged _ _ (UInt64.le_of_eq accrual.endTime_eq)
  | emergencyWithdraw => exact ⟨rfl, UInt64.le_refl _, UInt64.le_refl _, le_refl _⟩
  | stopReward accrual owner running =>
      exact accrual.aged _ _ (UInt64.le_of_lt running)

/-- Only its owner moves the end of a pool, and only forwards in time. -/
theorem PoolChange.endTime_moves
    (change : PoolChange context selfHash poolId pool members call events pool' members')
    (moved : pool'.endTime ≠ pool.endTime) :
    call = .stopReward poolId ∧ context.caller = pool.owner ∧
      pool'.endTime < pool.endTime := by
  cases change with
  | settle accrual => exact absurd accrual.endTime_eq moved
  | emergencyWithdraw => exact absurd rfl moved
  | stopReward accrual owner running => exact ⟨rfl, owner.symm, running⟩

theorem aged_invariant (permitted : Context → Call → Storage → Prop) (poolId : UInt64)
    (first : StakePool) :
    PoolInvariant permitted poolId fun _ pool _ _ => Aged first pool where
  wait := fun aged _ => aged
  change := fun aged _ _ _ change => aged.trans change.aged

end Aged

/-! ## What a call writes -/

private theorem Settled.target_eq {context : Context} {selfHash : ContractPackageHash}
    {poolId : UInt64} {accrued : StakePool} {user user' : UserInfo} {call : Call}
    {requests : List TokenCall} {events : List Event}
    (settled : Settled context selfHash poolId accrued user user' call requests events)
    (storage : Storage) : call.target storage = some poolId := by
  cases settled <;> rfl

theorem Change.pool_of_other {context : Context} {book book' : Book} {call : Call}
    {requests : List TokenCall} {events : List Event} {poolId : UInt64} {storage : Storage}
    (change : Change context book call requests events book')
    (represents : Represents storage book) (other : call.target storage ≠ some poolId) :
    book'.pool poolId = book.pool poolId := by
  have elsewhere {written : UInt64} (pool : StakePool)
      (target : call.target storage = some written) :
      (book.putPool written pool).pool poolId = book.pool poolId := by
    rw [target, ne_eq, Option.some.injEq] at other
    rw [Book.putPool_pool, if_neg (Ne.symm other)]
  cases change with
  | addPool new => exact elsewhere _ represents.index
  | settle valid found accrual settled => exact elsewhere _ (settled.target_eq storage)
  | emergencyWithdraw => exact elsewhere _ rfl
  | stopReward => exact elsewhere _ rfl
  | saveMe => rfl
  | setAdmin => rfl

section Runs

variable {E : Type} {around : Surroundings E} {admin : AccountHash} {start : UInt64}
variable {outside : E} {moment later : Moment E}

private theorem entryOf_of_call {context : Context} {entry : Call} {w : StakeWorld E}
    {poolId : UInt64}
    (run : Run around unrestricted (installed admin start outside) moment)
    (success : Runs (Quiet around.answer) (entry.program context) moment.world () w)
    (other : entry.target moment.world.storage ≠ some poolId) :
    entryOf poolId w.storage = entryOf poolId moment.world.storage := by
  rcases run.represents with ⟨admin', fresh⟩ | ⟨book, represents⟩
  · rw [fresh, entryOf_installed]
    obtain ⟨-, ⟨admin'', stillFresh⟩ | ⟨selfHash, represents⟩⟩ :=
      runs_installed fresh success
    · rw [stillFresh, entryOf_installed]
    · rw [represents.entryOf_eq]
      rfl
  · obtain ⟨book', requests, events, change, represents', -, -⟩ :=
      change_of_runs represents success
    rw [represents'.entryOf_eq, represents.entryOf_eq,
      change.pool_of_other represents other]

theorem Run.created_once {poolId : UInt64}
    (run : Run around unrestricted (installed admin start outside) moment)
    (few : (poolsCreated moment.world.log).length < 2 ^ 64)
    (born : createdUnder poolId moment.world.log ≠ []) :
    ∃ first, createdUnder poolId moment.world.log = [first] := by
  have initially : ∀ (_ : UInt64) admin selfHash (_ : E),
      (poolsCreated []).length < 2 ^ 64 → Roster (.empty admin selfHash) [] := by
    intro _ admin selfHash _ _
    exact ⟨rfl, fun _ lt => absurd lt (UInt64.not_lt.mpr UInt64.zero_le), fun _ _ => rfl⟩
  rcases run.from_installed (roster_invariant around) initially with
    ⟨log, -⟩ | ⟨book, -, roster⟩
  · rw [log] at born
    exact absurd rfl born
  · by_cases below : poolId < book.index
    · exact (roster few).below poolId below
    · exact absurd ((roster few).above poolId (UInt64.not_lt.mp below)) born

private theorem Run.created_onward {poolId : UInt64} {pool : StakePool}
    (run : Run around unrestricted (installed admin start outside) moment)
    (onward : Run around unrestricted moment later)
    (few : (poolsCreated later.world.log).length < 2 ^ 64)
    (read : getPool poolId moment.world.storage = .ok pool) :
    ∃ first, createdUnder poolId moment.world.log = [first] ∧
      createdUnder poolId later.world.log = [first] := by
  have born : createdUnder poolId moment.world.log ≠ [] :=
    fun none => (run.unborn none).1 pool read
  have bornLater : createdUnder poolId later.world.log ≠ [] := by
    obtain ⟨more, log⟩ := onward.log_extends
    rw [log, createdUnder_append]
    exact List.append_ne_nil_of_left_ne_nil born _
  obtain ⟨first, once⟩ := (run.trans onward).created_once few bornLater
  exact ⟨first, onward.created_earlier once born, once⟩

theorem Run.aged {poolId : UInt64} {pool : StakePool}
    (run : Run around unrestricted (installed admin start outside) moment)
    (onward : Run around unrestricted moment later)
    (few : (poolsCreated later.world.log).length < 2 ^ 64)
    (read : getPool poolId moment.world.storage = .ok pool) :
    ∃ pool', getPool poolId later.world.storage = .ok pool' ∧ Aged pool pool' := by
  obtain ⟨first, born, once⟩ := run.created_onward onward few read
  rcases run.represents with ⟨admin', fresh⟩ | ⟨book, represents⟩
  · rw [fresh] at read
    exact absurd read getPool_installed
  obtain ⟨-, found⟩ := represents.getPool_eq_ok.mp read
  obtain ⟨book', pool', represents', found', aged⟩ :=
    onward.pool_onward (aged_invariant _ poolId pool) represents found .refl born once
  rcases (run.trans onward).sound few with ⟨admin', fresh⟩ | ⟨book'', same, sound, -⟩
  · rw [fresh] at represents'
    cases represents'.initialized
  · -- both books stand for the same entries
    have sameIndex := represents'.index.symm.trans same.index
    have sameEntry := (represents'.entryOf_eq poolId).symm.trans (same.entryOf_eq poolId)
    rw [found', Option.map_some, eq_comm, Option.map_eq_some_iff] at sameEntry
    obtain ⟨pool'', found'', -⟩ := sameEntry
    have below := (sound poolId pool'' found'').1
    rw [← Option.some.inj sameIndex] at below
    exact ⟨pool', represents'.getPool_eq_ok.mpr ⟨UInt64.le_of_lt below, found'⟩, aged⟩

private theorem endTime_of_call {context : Context} {entry : Call} {w : StakeWorld E}
    {poolId : UInt64} {pool pool' : StakePool}
    (run : Run around unrestricted (installed admin start outside) moment)
    (le : moment.now ≤ context.blocktime)
    (success : Runs (Quiet around.answer) (entry.program context) moment.world () w)
    (few : (poolsCreated w.log).length < 2 ^ 64)
    (read : getPool poolId moment.world.storage = .ok pool)
    (read' : getPool poolId w.storage = .ok pool')
    (moved : pool'.endTime ≠ pool.endTime) :
    entry = .stopReward poolId ∧ context.caller = pool.owner ∧
      pool'.endTime < pool.endTime := by
  have next : Run around unrestricted moment { now := context.blocktime, world := w } :=
    Run.start.call le trivial success
  obtain ⟨first, born, once⟩ := run.created_onward next few read
  rcases run.represents with ⟨admin', fresh⟩ | ⟨book, represents⟩
  · rw [fresh] at read
    exact absurd read getPool_installed
  obtain ⟨-, found⟩ := represents.getPool_eq_ok.mp read
  obtain ⟨book', requests, events, change, represents', log, -⟩ :=
    change_of_runs represents success
  obtain ⟨-, found'⟩ := represents'.getPool_eq_ok.mp read'
  have notAgain : createdUnder poolId events = [] := by
    change createdUnder poolId w.log = [first] at once
    rw [log, createdUnder_append, born] at once
    simpa using once
  rcases change.on_pool found notAgain with
    ⟨-, same, -⟩ | ⟨changed, -, -, foundAgain, step⟩
  · rw [found', Option.some.injEq] at same
    exact absurd (congrArg StakePool.endTime same) moved
  · rw [found', Option.some.injEq] at foundAgain
    subst foundAgain
    exact step.endTime_moves moved

/-- In every run with fewer than `2 ^ 64` pools created.  The entries are those of
the ids below the index, and each holds a pool with its own id; an operation on
another id reverts.  A pool keeps its terms, its clock and its accumulator do not
go back, and its end moves only when its owner stops it, to an earlier time.  An
operation on one pool leaves the bytes of the others as they are. -/
theorem pools_keep_terms
    (run : Run around unrestricted (installed admin start outside) moment)
    (onward : Run around unrestricted moment later)
    (few : (poolsCreated later.world.log).length < 2 ^ 64) :
    (∀ index, later.world.storage.index = some index → ∀ poolId,
      ((entryOf poolId later.world.storage).isSome ↔ poolId < index) ∧
      (∀ bytes, entryOf poolId later.world.storage = some bytes →
        ∃ pool, StakePool.unpack bytes = some pool ∧ pool.id = poolId) ∧
      (index ≤ poolId → ∀ entry : Call, entry.poolId? = some poolId → ∀ context,
        Reverts (Quiet around.answer) (entry.program context) later.world)) ∧
    (∀ poolId pool, getPool poolId moment.world.storage = .ok pool →
      ∃ pool', getPool poolId later.world.storage = .ok pool' ∧ Aged pool pool') ∧
    ∀ (context : Context) (entry : Call) (w : StakeWorld E),
      later.now ≤ context.blocktime →
      Runs (Quiet around.answer) (entry.program context) later.world () w →
      ∀ poolId,
        (entry.target later.world.storage ≠ some poolId →
          entryOf poolId w.storage = entryOf poolId later.world.storage) ∧
        ((poolsCreated w.log).length < 2 ^ 64 → ∀ pool pool',
          getPool poolId later.world.storage = .ok pool →
          getPool poolId w.storage = .ok pool' → pool'.endTime ≠ pool.endTime →
          entry = .stopReward poolId ∧ context.caller = pool.owner ∧
            pool'.endTime < pool.endTime) := by
  have whole := run.trans onward
  refine ⟨fun index indexKnown poolId => ?_, fun poolId pool read =>
    run.aged onward few read, fun context entry w le success poolId =>
    ⟨entryOf_of_call whole success, fun fewAfter pool pool' read read' moved =>
      endTime_of_call whole le success fewAfter read read' moved⟩⟩
  have aged : ∀ poolId first, PoolInvariant unrestricted poolId
      fun _ pool _ _ => first.id = poolId ∧ Aged first pool := fun poolId first =>
    { wait := fun aged _ => aged
      change := fun aged _ _ _ change => ⟨aged.1, aged.2.trans change.aged⟩ }
  rcases whole.pools (fun poolId first _ pool _ _ => first.id = poolId ∧ Aged first pool)
      aged (fun _ _ _ new => ⟨new.id, .refl⟩) few with
    ⟨admin', fresh⟩ | ⟨book, represents, below, above⟩
  · rw [fresh] at indexKnown
    cases indexKnown
  rw [represents.index, Option.some.injEq] at indexKnown
  subst indexKnown
  rw [represents.entryOf_eq]
  by_cases isBelow : poolId < book.index
  · obtain ⟨first, pool, -, found, id, aged⟩ := below poolId isBelow
    rw [found]
    refine ⟨by simp [isBelow], ?_, fun notBelow => ?_⟩
    · intro bytes stored
      cases stored
      exact ⟨pool, StakePool.unpack_pack pool, (congrArg Terms.id aged.terms).trans id⟩
    · exact absurd isBelow (UInt64.not_lt.mpr notBelow)
  · have absent := (above poolId (UInt64.not_lt.mp isBelow)).1
    rw [absent]
    refine ⟨by simp [isBelow], fun bytes stored => (by cases stored), ?_⟩
    intro _ entry on context
    exact reverts_of_absent represents absent on

end Runs

section Sample

open Sample

/-- A pool that has just been created. -/
def young : Moment Erc20Ledger :=
  after unrestricted [setUp, (10, owner, .addPool tokenA tokenA 100 200 18 (units 1000))]
    opening (by decide +kernel)

theorem run_young : Run around unrestricted opening young :=
  run_after _

/-- The same pool, after a deposit and stopped by its owner, next to another one. -/
def old : Moment Erc20Ledger :=
  after unrestricted
    [(20, staker 1, .deposit (units 10) 0), (150, owner, .stopReward 0),
      (160, owner, .addPool tokenB tokenA 300 400 20 (units 500))]
    young (by decide +kernel)

private theorem run_old : Run around unrestricted young old :=
  run_after _

theorem pools_keep_terms_old :
    (entryOf 1 old.world.storage).isSome ∧
      Reverts (Quiet around.answer)
        (Call.program { caller := staker 1, blocktime := 170 } (.deposit (units 1) 2))
        old.world ∧
      ∃ pool, getPool 0 old.world.storage = .ok pool ∧ Aged usual pool := by
  have kept := pools_keep_terms run_young run_old (by decide +kernel)
  have index : old.world.storage.index = some 2 := by decide +kernel
  refine ⟨((kept.1 2 index 1).1).mpr (by decide), ?_, ?_⟩
  · exact (kept.1 2 index 2).2.2 (by decide) _ rfl _
  · exact kept.2.1 0 usual (by decide +kernel)

end Sample

end CasperContracts.Staking
