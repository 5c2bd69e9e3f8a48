import CasperContracts.Staking.Farm
import CasperContracts.Staking.Trace

/-!
# The contract keeps a farm

The stored bytes stand for a farm, and every entry point meets the step of the farm: it
fails where the step fails, with the same error, and otherwise asks the tokens for the
same and leaves a storage that stands for the next farm.
-/

namespace CasperContracts.Staking

open CasperContracts.Basis Host Prog

/-! ## Storage and farm -/

structure Estate.KeptIn (estate : Estate) (book : Book) : Prop where
  self : book.selfHash = estate.self
  count : book.index.toNat = estate.plots.length
  pools : ∀ poolId,
    book.pool poolId = estate.plots[poolId.toNat]?.map fun plot => plot.record poolId
  users : ∀ key poolId, book.user (key, poolId) = estate.user key poolId

/-- The storage and the log of the contract stand for a farm. -/
inductive StandsFor : Storage → Farm → List Event → Prop where
  | closed {admin : AccountHash} : StandsFor (.installed admin) (.installed admin) []
  | opened {storage : Storage} {book : Book} {estate : Estate} {log : List Event}
      (represents : Represents storage book) (kept : estate.KeptIn book)
      (created : (poolsCreated log).length = estate.plots.length) :
      StandsFor storage ⟨book.admin, some estate⟩ log

def FewPools (log : List Event) : Prop :=
  (poolsCreated log).length < 2 ^ 64

instance (log : List Event) : Decidable (FewPools log) :=
  inferInstanceAs (Decidable (_ < _))

theorem FewPools.earlier {log more : List Event} (few : FewPools (log ++ more)) :
    FewPools log := by
  rw [FewPools, poolsCreated_append, List.length_append] at few
  exact Nat.lt_of_le_of_lt (Nat.le_add_right _ _) few

/-- The contract does what the step of the farm says. -/
abbrev Follows (program : Contract Unit) (storage : Storage) (log : List Event)
    (step : Except Failure (Effect TokenCall Event Farm)) : Prop :=
  Meets StandsFor FewPools program storage log step

/-! ## Plots -/

namespace Plot

variable {plot plot' settled : Plot} {now : UInt64} {key : KeyPrefix} {credit : Option Credit}
  {amount due left : U256}

/-- An update does not touch the shares. -/
theorem shares_of_advance (advanced : plot.advance now = .ok (plot', credit)) :
    plot'.shares = plot.shares ∧ plot'.precision = plot.precision := by
  unfold advance at advanced
  split at advanced
  · cases advanced
    exact ⟨rfl, rfl⟩
  · split at advanced
    · cases advanced
      exact ⟨rfl, rfl⟩
    · split at advanced
      · cases advanced
        exact ⟨rfl, rfl⟩
      · simp only [bind_eq_ok, pure_eq_ok, Prod.mk.injEq] at advanced
        obtain ⟨rewards, -, scaled, -, grown, grows, rfl, -⟩ := advanced
        unfold grow at grows
        split at grows
        · cases grows
          exact ⟨rfl, rfl⟩
        · cases grows

theorem user_of_advance (advanced : plot.advance now = .ok (plot', credit)) :
    plot'.user = plot.user := by
  obtain ⟨shares, precision⟩ := shares_of_advance advanced
  funext key
  simp only [user, stake, scale, shares, precision]

theorem user_of_empty (plot : Plot) (empty : plot.shares = ∅) (key : KeyPrefix) :
    plot.user key = UserInfo.default := by
  have none : plot.shares.share key = Share.none := by
    rw [empty]
    rfl
  have noDebt : Share.none.settled plot.scale = U256.zero :=
    U256.toNat_injective (by simp [Share.settled, Share.none, Tally.earned])
  rw [user, stake, none, noDebt]
  rfl

theorem checkedPow_scale (plot : Plot) :
    ∃ scale : U256, U256.ten.checkedPow (.ofUInt64 plot.precision) = some scale ∧
      scale.toNat = plot.scale := by
  apply U256.exists_checkedPow
  have small : plot.precision.toNat ≤ 36 := UInt64.le_iff_toNat_le.mp plot.precise.2
  exact lt_of_le_of_lt (Nat.pow_le_pow_right (by decide) small) (by decide)

/-- What the contract computes a stake to have yielded. -/
theorem exists_earned (plot : Plot) {precision stake : U256}
    (power : U256.ten.checkedPow (.ofUInt64 plot.precision) = some precision)
    (fits : stake.toNat * plot.yield.toNat < 2 ^ 256) :
    ∃ product earned, stake.checkedMul plot.yield = some product ∧
      product.checkedDiv precision = some earned ∧
      earned.toNat = stake.toNat * plot.yield.toNat / plot.scale := by
  obtain ⟨scale, power', isScale⟩ := plot.checkedPow_scale
  cases power.symm.trans power'
  have positive : 0 < precision.toNat := by
    rw [isScale]
    exact Nat.pow_pos (by decide)
  obtain ⟨product, multiplied, isProduct⟩ := U256.exists_checkedMul fits
  obtain ⟨earned, quotient, isEarned⟩ := U256.exists_checkedDiv (a := product) positive
  rw [isProduct, isScale] at isEarned
  exact ⟨product, earned, multiplied, quotient, isEarned⟩

theorem getMin_eq (a b : UInt64) : getMin a b = min a b := by
  change (if b < a then b else a) = if a ≤ b then a else b
  by_cases le : a ≤ b
  · rw [if_pos le, if_neg (UInt64.not_lt.mpr le)]
  · rw [if_neg le, if_pos (UInt64.not_le.mp le)]

theorem getMax_eq (a b : UInt64) : getMax a b = max a b := by
  change (if b < a then a else b) = if a ≤ b then b else a
  by_cases le : a ≤ b
  · rw [if_pos le, if_neg (UInt64.not_lt.mpr le)]
  · rw [if_neg le, if_pos (UInt64.not_le.mp le)]

theorem updatedPool_record (plot : Plot) (poolId now : UInt64) :
    updatedPool now (plot.record poolId) =
      (plot.advance now).map fun result => (result.1.record poolId, result.2) := by
  obtain ⟨scale, power, isScale⟩ := plot.checkedPow_scale
  simp only [updatedPool, advance]
  split
  · rename_i settled
    have kept : now ≤ plot.updated := settled
    rw [if_pos kept]
    rfl
  rename_i notSettled
  have later : ¬ now ≤ plot.updated := notSettled
  rw [if_neg later]
  split
  · rename_i nothing
    have idle : plot.total.toNat = 0 ∨ now < plot.startTime := by simpa [record] using nothing
    rw [if_pos idle]
    rfl
  rename_i something
  have busy : ¬ (plot.total.toNat = 0 ∨ now < plot.startTime) := by
    simpa [record] using something
  rw [if_neg busy]
  split
  · rename_i ended
    have exceeds : plot.endTime < plot.updated := ended
    rw [if_pos exceeds]
    rfl
  rename_i notEnded
  have open' : ¬ plot.endTime < plot.updated := notEnded
  rw [if_neg open']
  simp only [record, power, orPanic, ok_bind, getMin_eq, getMax_eq, rewardFor, bind_assoc,
    map_bind]
  apply bind_congr_right
  intro promised
  apply bind_congr_right
  intro rewards
  rw [← isScale]
  apply bind_congr_right
  intro scaled
  have positive : 0 < plot.total.toNat := by omega
  obtain ⟨share, quotient, isShare⟩ := U256.exists_checkedDiv (a := scaled) positive
  rw [quotient]
  simp only [← isShare, grow]
  change orPanic (U256.ofNat? _) >>= _ = _
  by_cases fits : plot.yield.toNat + share.toNat < 2 ^ 256
  · simp only [U256.ofNat?, dif_pos fits]
    rfl
  · simp only [U256.ofNat?, dif_neg fits]
    rfl

/-- A settled plot differs in the share of the member and the total. -/
structure Settles (plot : Plot) (key : KeyPrefix) (stake : U256) (settled : Plot) : Prop where
  record : ∀ poolId, settled.record poolId =
    { plot.record poolId with totalStaked := settled.total }
  total : settled.total.toNat + (plot.stake key).toNat = plot.total.toNat + stake.toNat
  amount : (settled.user key).amount = stake
  debt : (settled.user key).rewardDebt.toNat = stake.toNat * plot.yield.toNat / plot.scale
  others : ∀ other, other ≠ key → settled.user other = plot.user other

/-- A settlement succeeds when the new total fits and so does what the new stake would have
earned from the beginning. -/
theorem settle_cases (plot : Plot) (key : KeyPrefix) (stake : U256) :
    (∃ settled, plot.settle key stake = .ok settled ∧ plot.Settles key stake settled ∧
      stake.toNat * plot.yield.toNat < 2 ^ 256) ∨
    plot.settle key stake = .error .panic ∧ (2 ^ 256 ≤ stake.toNat * plot.yield.toNat ∨
      2 ^ 256 + (plot.stake key).toNat ≤ plot.total.toNat + stake.toNat) := by
  unfold settle
  by_cases product : stake.toNat * plot.yield.toNat < 2 ^ 256
  · have exchange := plot.shares.total_insert key ⟨stake, plot.yield.toNat, product⟩
    change _ + (plot.stake key).toNat = plot.total.toNat + stake.toNat at exchange
    rw [dif_pos product]
    simp only
    split
    · rename_i fits
      refine .inl ⟨_, rfl, ⟨fun _ => rfl, exchange, ?_, ?_, ?_⟩, product⟩
      · simp only [user, Plot.stake, Shares.share_insert, if_true]
      · simp only [user, Shares.share_insert, if_true]
        rfl
      · intro other different
        simp only [user, Plot.stake, Shares.share_insert, different, if_false]
        rfl
    · rename_i exceeds
      exact .inr ⟨rfl, .inr (by omega)⟩
  · rw [dif_neg product]
    exact .inr ⟨rfl, .inl (Nat.not_lt.mp product)⟩

theorem due_cases (plot : Plot) (key : KeyPrefix) :
    (∃ due, plot.due key = .ok due ∧
      (plot.stake key).toNat * plot.yield.toNat < 2 ^ 256 ∧
      (plot.stake key).toNat * plot.yield.toNat / plot.scale =
        due.toNat + (plot.user key).rewardDebt.toNat) ∨
    plot.due key = .error .panic ∧ 2 ^ 256 ≤ (plot.stake key).toNat * plot.yield.toNat := by
  unfold due
  by_cases product : (plot.stake key).toNat * plot.yield.toNat < 2 ^ 256
  · rw [word_of_lt product, ok_bind]
    refine .inl ⟨_, rfl, product, ?_⟩
    have earlier : (plot.user key).rewardDebt.toNat ≤
        (plot.stake key).toNat * plot.yield.toNat / plot.scale :=
      Nat.div_le_div_right (Nat.mul_le_mul_left _ (plot.since_le key))
    exact (Nat.sub_add_cancel earlier).symm
  · rw [word_of_le (Nat.not_lt.mp product)]
    exact .inr ⟨rfl, Nat.not_lt.mp product⟩

structure Leaves (plot : Plot) (key : KeyPrefix) (due stake : U256) (settled : Plot) :
    Prop where
  settles : plot.Settles key stake settled
  old : (plot.stake key).toNat * plot.yield.toNat < 2 ^ 256
  new : stake.toNat * plot.yield.toNat < 2 ^ 256
  owed : (plot.stake key).toNat * plot.yield.toNat / plot.scale =
    due.toNat + (plot.user key).rewardDebt.toNat

theorem enter_cases (plot : Plot) (key : KeyPrefix) (amount : U256) :
    (∃ due stake settled, plot.enter key amount = .ok (due, settled) ∧
      stake.toNat = amount.toNat + (plot.stake key).toNat ∧
      plot.Leaves key due stake settled) ∨
    plot.enter key amount = .error .panic ∧ (2 ^ 256 ≤ plot.total.toNat + amount.toNat ∨
      2 ^ 256 ≤ (amount.toNat + (plot.stake key).toNat) * plot.yield.toNat) := by
  unfold enter
  rcases plot.due_cases key with ⟨due, isDue, old, owed⟩ | ⟨panics, exceeds⟩
  · rw [isDue, ok_bind]
    by_cases fits : amount.toNat + (plot.stake key).toNat < 2 ^ 256
    · rw [word_of_lt fits, ok_bind]
      rcases plot.settle_cases key ⟨_, fits⟩ with ⟨settled, settles, how, new⟩ | ⟨panics, exceeds⟩
      · rw [settles, ok_bind]
        exact .inl ⟨due, ⟨_, fits⟩, settled, rfl, rfl, ⟨how, old, new, owed⟩⟩
      · rw [panics]
        refine .inr ⟨rfl, ?_⟩
        rcases exceeds with exceeds | exceeds
        · exact .inr exceeds
        · left
          change _ ≤ plot.total.toNat + (amount.toNat + (plot.stake key).toNat) at exceeds
          omega
    · rw [word_of_le (Nat.not_lt.mp fits)]
      refine .inr ⟨rfl, .inl ?_⟩
      have within : (plot.stake key).toNat ≤ plot.total.toNat := plot.shares.stake_le key
      omega
  · rw [panics]
    refine .inr ⟨rfl, .inr (le_trans exceeds ?_)⟩
    exact Nat.mul_le_mul_right _ (Nat.le_add_left _ _)

theorem leave_cases (plot : Plot) (key : KeyPrefix) (amount : U256) :
    (∃ due left settled, plot.leave key amount = .ok (due, left, settled) ∧
      (plot.stake key).toNat = left.toNat + amount.toNat ∧
      plot.Leaves key due left settled) ∨
    plot.leave key amount = .error .panic ∧ ((plot.stake key).toNat < amount.toNat ∨
      2 ^ 256 ≤ (plot.stake key).toNat * plot.yield.toNat) := by
  unfold leave
  cases taken : (plot.stake key).checkedSub amount with
  | none =>
      refine .inr ⟨rfl, .inl ?_⟩
      by_contra enough
      have some := U256.isSome_checkedSub.mpr (Nat.not_lt.mp enough)
      rw [taken] at some
      cases some
  | some left =>
      have difference := U256.checkedSub_eq_some.mp taken
      simp only [orPanic, ok_bind]
      rcases plot.due_cases key with ⟨due, isDue, old, owed⟩ | ⟨panics, exceeds⟩
      · rw [isDue, ok_bind]
        have le : left.toNat * plot.yield.toNat ≤
            (plot.stake key).toNat * plot.yield.toNat :=
          Nat.mul_le_mul_right _ (by omega)
        rcases plot.settle_cases key left with ⟨settled, settles, how, new⟩ | ⟨-, exceeds⟩
        · rw [settles, ok_bind]
          exact .inl ⟨due, left, settled, rfl, difference, ⟨how, old, new, owed⟩⟩
        · have total := plot.total.isLt
          omega
      · rw [panics]
        exact .inr ⟨rfl, .inr exceeds⟩

end Plot

/-! ## Reading -/

section Reading

variable {storage : Storage} {book book' : Book} {estate : Estate} {farm : Farm}
  {log : List Event} {poolId : UInt64} {context : Context}

theorem Estate.KeptIn.isIdValid_eq (kept : estate.KeptIn book)
    (represents : Represents storage book) :
    isIdValid poolId storage = estate.valid poolId := by
  have bound : book.index < poolId ↔ estate.plots.length < poolId.toNat := by
    rw [UInt64.lt_iff_toNat_lt, kept.count]
  simp only [isIdValid, getKey, represents.index, Estate.valid, refuse, ← bound]
  rfl

/-- `get_pool` reads the plot, or fails as the farm does. -/
theorem StandsFor.getPool_eq (stands : StandsFor storage farm log) :
    getPool poolId storage = (farm.plotAt poolId).map fun found => found.2.record poolId := by
  cases stands with
  | closed => rfl
  | @opened _ book estate _ represents kept created =>
      obtain ⟨dictionary, stored, encodes⟩ := represents.pools
      have read := encodes.lookup (numberedKey_injective _) poolId
      have found := kept.pools poolId
      rw [Book.pool] at found
      simp only [getPool, Farm.plotAt, kept.isIdValid_eq represents, unwrapOrRevertWith,
        ok_bind, map_bind]
      apply bind_congr_right
      intro _
      simp only [stored, represents.makePoolKeyId_eq, ok_bind]
      rw [read, found]
      cases estate.plots[poolId.toNat]? with
      | none => rfl
      | some plot =>
          simp only [Option.map_some, ok_bind, StakePool.unpack_pack, orPanic]
          rfl

theorem StandsFor.getUser_eq (stands : StandsFor storage farm log) :
    getUserInfoForPool context poolId storage = farm.userAt context.caller poolId := by
  cases stands with
  | closed => rfl
  | @opened _ book estate _ represents kept created =>
      obtain ⟨dictionary, stored, encodes⟩ := represents.users
      have read := encodes.lookup RecordKey.encode_injective (recordKey context.caller poolId)
      have found := kept.users context.caller.keyPrefix poolId
      rw [Book.user] at found
      simp only [getUserInfoForPool, Farm.userAt, kept.isIdValid_eq represents,
        unwrapOrRevertWith, ok_bind]
      apply bind_congr_right
      intro _
      rw [← found, stored, makeUserKeyById_eq]
      simp only [unwrapOrRevert, unwrapOrRevertWith, ok_bind, read]
      change _ = (.ok ((book.users.lookup (recordKey context.caller poolId)).getD _) :
        Except Failure UserInfo)
      cases book.users.lookup (recordKey context.caller poolId) with
      | none => rfl
      | some user => simp [orPanic]

end Reading

/-! ## Writing -/

section Writing

variable {book book' : Book} {estate : Estate} {poolId : UInt64} {before settled : Plot}

theorem Estate.KeptIn.put (kept : estate.KeptIn book)
    (here : estate.plots[poolId.toNat]? = some before) (self : book'.selfHash = book.selfHash)
    (index : book'.index = book.index)
    (pools : ∀ other, book'.pool other =
      if other = poolId then some (settled.record poolId) else book.pool other)
    (users : ∀ key other, book'.user (key, other) =
      if other = poolId then settled.user key else book.user (key, other)) :
    Estate.KeptIn { estate with plots := estate.plots.set poolId.toNat settled } book' where
  self := self.trans kept.self
  count := by
    rw [List.length_set, index]
    exact kept.count
  pools := by
    intro other
    have inside : poolId.toNat < estate.plots.length := (List.getElem?_eq_some_iff.mp here).1
    rw [pools]
    by_cases same : other = poolId
    · subst same
      rw [if_pos rfl, List.getElem?_set_self inside, Option.map_some]
    · have apart : poolId.toNat ≠ other.toNat :=
        fun equal => same (UInt64.toNat_inj.mp equal.symm)
      rw [if_neg same, List.getElem?_set_ne apart]
      exact kept.pools other
  users := by
    intro key other
    have inside : poolId.toNat < estate.plots.length := (List.getElem?_eq_some_iff.mp here).1
    rw [users, Estate.user]
    by_cases same : other = poolId
    · subst same
      rw [if_pos rfl, List.getElem?_set_self inside]
      rfl
    · have apart : poolId.toNat ≠ other.toNat :=
        fun equal => same (UInt64.toNat_inj.mp equal.symm)
      rw [if_neg same, List.getElem?_set_ne apart]
      exact kept.users key other

theorem Estate.KeptIn.add (kept : estate.KeptIn book) {plot : Plot}
    (room : estate.plots.length + 1 < 2 ^ 64)
    (empty : ∀ key, plot.user key = UserInfo.default) :
    Estate.KeptIn { estate with plots := estate.plots ++ [plot] }
      { book.putPool book.index (plot.record book.index) with index := book.index + 1 } where
  self := kept.self
  count := by
    rw [UInt64.toNat_add, kept.count, List.length_append]
    exact Nat.mod_eq_of_lt room
  pools := by
    intro other
    change (book.putPool book.index (plot.record book.index)).pool other = _
    rw [Book.putPool_pool]
    by_cases same : other = book.index
    · rw [if_pos same, same, kept.count]
      simp
    · have apart : other.toNat ≠ estate.plots.length := by
        rw [← kept.count]
        exact fun equal => same (UInt64.toNat_inj.mp equal)
      rw [if_neg same, kept.pools, List.getElem?_append]
      split
      · rfl
      · rename_i beyond
        rw [List.getElem?_eq_none (by omega), List.getElem?_eq_none (by simp; omega)]
  users := by
    intro key other
    change book.user (key, other) = _
    rw [kept.users, Estate.user, Estate.user, List.getElem?_append]
    split
    · rfl
    · rename_i beyond
      rw [List.getElem?_eq_none (Nat.not_lt.mp beyond)]
      cases (other.toNat - estate.plots.length) with
      | zero => exact (empty key).symm
      | succ => rfl

end Writing

/-! ## Shared steps -/

section Steps

variable {storage : Storage} {farm : Farm} {log : List Event} {context : Context}

theorem follows_refuse {condition condition' : Prop} [Decidable condition]
    [Decidable condition'] {error : ApiError} {f : Unit → Contract Unit}
    {g : Unit → Except Failure (Effect TokenCall Event Farm)} (same : condition ↔ condition')
    (onward : ¬ condition' → Follows (f ()) storage log (g ())) :
    Follows (revertIf condition error >>= f) storage log
      (refuse condition' error >>= g) :=
  Meets.guard_bind same onward

theorem follows_arith {α : Type} {result : Option α} {value : α} {f : α → Contract Unit}
    {step : Except Failure (Effect TokenCall Event Farm)} (same : result = some value)
    (onward : Follows (f value) storage log step) :
    Follows (arith result >>= f) storage log step :=
  Meets.ofExcept_bind_ok (by rw [same]; rfl) onward

/-- Arithmetic that panics now or later. -/
theorem follows_panic {α : Type} {result : Option α} {f : α → Contract Unit}
    (onward : ∀ value, result = some value → Follows (f value) storage log (.error .panic)) :
    Follows (arith result >>= f) storage log (.error .panic) := by
  apply Meets.ofExcept_bind_error
  cases computed : result with
  | none => exact .inl rfl
  | some value => exact .inr ⟨value, rfl, onward value computed⟩

theorem follows_both {α : Type} {result : Option α} {f : α → Contract Unit}
    {g : α → Except Failure (Effect TokenCall Event Farm)}
    (onward : ∀ value, result = some value → Follows (f value) storage log (g value)) :
    Follows (arith result >>= f) storage log (orPanic result >>= g) := by
  cases computed : result with
  | none => exact .error rfl
  | some value => exact onward value computed

/-- What a visit of a plot finds: the book with its plots, and the plot brought up to date. -/
structure Visit (storage : Storage) (farm : Farm) (log : List Event) (poolId : UInt64)
    (book : Book) (estate : Estate) (plot : Plot) : Prop where
  farm_eq : farm = ⟨book.admin, some estate⟩
  represents : Represents storage book
  kept : estate.KeptIn book
  created : (poolsCreated log).length = estate.plots.length
  here : ∃ before, estate.plots[poolId.toNat]? = some before ∧ plot.user = before.user

theorem Visit.recorded {poolId : UInt64} {book : Book} {estate : Estate} {plot : Plot}
    (visit : Visit storage farm log poolId book estate plot) (credit : Option Credit) :
    Visit storage farm (log ++ creditEvents poolId credit) poolId book estate plot where
  farm_eq := visit.farm_eq
  represents := visit.represents
  kept := visit.kept
  created := by
    rw [← visit.created]
    cases credit <;> simp [creditEvents, poolsCreated]
  here := visit.here

theorem plotAt_eq_ok {farm : Farm} {poolId : UInt64} {estate : Estate} {plot : Plot} :
    farm.plotAt poolId = .ok (estate, plot) ↔
      farm.estate = some estate ∧ estate.plots[poolId.toNat]? = some plot := by
  simp only [Farm.plotAt, Estate.valid, bind_eq_ok, refuse_eq_ok, unwrapOrRevertWith_eq_ok,
    pure_eq_ok, Prod.mk.injEq]
  constructor
  · intro given
    obtain ⟨_, opened, _, -, _, here, rfl, rfl⟩ := given
    exact ⟨opened, here⟩
  · intro given
    obtain ⟨opened, here⟩ := given
    have inside : poolId.toNat < estate.plots.length := (List.getElem?_eq_some_iff.mp here).1
    exact ⟨estate, opened, (), Nat.lt_asymm inside, plot, here, rfl, rfl⟩

theorem follows_getPool (stands : StandsFor storage farm log) {poolId : UInt64}
    {f : StakePool → Contract Unit}
    {g : Estate × Plot → Except Failure (Effect TokenCall Event Farm)}
    (onward : ∀ book estate plot, Visit storage farm log poolId book estate plot →
      Follows (f (plot.record poolId)) storage log (g (estate, plot))) :
    Follows (Prog.reads (getPool poolId) >>= f) storage log (farm.plotAt poolId >>= g) := by
  apply Meets.reads_bind _ stands.getPool_eq
  intro found isFound
  obtain ⟨estate, plot⟩ := found
  obtain ⟨opened, here⟩ := plotAt_eq_ok.mp isFound
  cases stands with
  | closed => cases opened
  | @opened _ book _ _ represents kept created =>
      cases opened
      exact onward book estate plot ⟨rfl, represents, kept, created, plot, here, rfl⟩

theorem follows_updatePool (stands : StandsFor storage farm log) {poolId : UInt64}
    {f : StakePool → Contract Unit}
    {next : Estate → Plot → Except Failure (Effect TokenCall Event Farm)}
    (onward : ∀ book estate plot log, Visit storage farm log poolId book estate plot →
      Follows (f (plot.record poolId)) storage log (next estate plot)) :
    Follows (updatePool context poolId >>= f) storage log
      (farm.visit context poolId next) := by
  simp only [updatePool, Farm.visit, bind_bind]
  apply follows_getPool stands
  intro book estate before visit
  apply Meets.ofExcept_bind _ (before.updatedPool_record poolId context.blocktime)
  intro result advanced
  obtain ⟨plot, credit⟩ := result
  obtain ⟨_, here, same⟩ := visit.here
  have found : Visit storage farm log poolId book estate plot :=
    { visit with here := ⟨_, here, (Plot.user_of_advance advanced).trans same⟩ }
  have met := onward book estate plot _ (found.recorded credit)
  apply Meets.recorded _ met
  cases credit <;> rfl

end Steps

/-! ## Payments -/

section Payments

variable {context : Context} {storage : Storage} {due amount : U256}
  {rewardToken stakingToken : ContractHash} {rest : Unit → Contract Unit}
  {events : List Event} {result : Except Failure (Unit × Storage)}

theorem outcome_arith_bind {α : Type} {computed : Option α} {value : α}
    {f : α → Contract Unit} (same : computed = some value) :
    (arith computed >>= f).outcome storage = (f value).outcome storage := by
  rw [same]
  rfl

theorem outcome_spender_bind {self : ContractPackageHash}
    {f : ContractPackageHash → Contract Unit}
    (known : selfContractHash storage = .ok self) :
    (Prog.reads selfContractHash >>= f).outcome storage = (f self).outcome storage := by
  rw [outcome_reads_bind, known]
  rfl

theorem checkedSub_less {a b : U256} (le : b.toNat ≤ a.toNat) :
    a.checkedSub b = some (less a b) :=
  U256.checkedSub_eq_some.mpr (Nat.sub_add_cancel le).symm

theorem depositRequests_of_zero {self : ContractPackageHash} {caller : AccountHash}
    (zero : due.toNat = 0) :
    depositRequests self caller rewardToken stakingToken due amount =
      [.transferFrom stakingToken (.account caller) (.contract self) amount] := by
  have whole : less amount due = amount := U256.toNat_injective (by simp [less, zero])
  simp [depositRequests, claimRequests, zero, whole]

theorem outcome_payDeposit_bind {self : ContractPackageHash}
    (known : selfContractHash storage = .ok self)
    (later : (rest ()).outcome storage = ⟨[], events, result⟩) :
    (payDeposit context due amount rewardToken stakingToken >>= rest).outcome storage =
      ⟨depositRequests self context.caller rewardToken stakingToken due amount, events,
        result⟩ := by
  by_cases zero : due.toNat = 0
  · rw [payDeposit_of_zero zero, bind_bind, outcome_spender_bind known,
      depositRequests_of_zero zero]
    exact outcome_request_bind later
  · by_cases equal : rewardToken = stakingToken
    · by_cases greater : amount.toNat < due.toNat
      · rw [payDeposit_of_lt equal greater, bind_bind,
          outcome_arith_bind (checkedSub_less greater.le), depositRequests, if_pos equal,
          if_pos greater]
        exact outcome_request_bind later
      · have le := Nat.not_lt.mp greater
        rw [payDeposit_of_le equal zero le, bind_bind, outcome_spender_bind known, bind_bind,
          outcome_arith_bind (checkedSub_less le), depositRequests, if_pos equal,
          if_neg greater]
        exact outcome_request_bind later
    · rw [payDeposit_of_ne equal zero, bind_bind, depositRequests, if_neg equal,
        claimRequests, if_neg zero]
      apply outcome_request_bind
      rw [bind_bind, outcome_spender_bind known]
      exact outcome_request_bind later

/-- The payment of a withdrawal goes out unless the sum does not fit. -/
theorem payWithdraw_cases (context : Context) (due amount : U256)
    (rewardToken stakingToken : ContractHash) :
    (∃ requests, withdrawRequests context.caller rewardToken stakingToken due amount =
        .ok requests ∧
      ∀ {storage : Storage} {rest : Unit → Contract Unit} {events : List Event}
        {result : Except Failure (Unit × Storage)},
        (rest ()).outcome storage = ⟨[], events, result⟩ →
        (payWithdraw context due amount rewardToken stakingToken >>= rest).outcome storage =
          ⟨requests, events, result⟩) ∨
    withdrawRequests context.caller rewardToken stakingToken due amount = .error .panic ∧
      ∀ {storage : Storage} {rest : Unit → Contract Unit},
        (payWithdraw context due amount rewardToken stakingToken >>= rest).outcome storage =
          ⟨[], [], .error .panic⟩ := by
  by_cases equal : rewardToken = stakingToken
  · by_cases zero : due.toNat = 0
    · left
      have fits : due.toNat + amount.toNat < 2 ^ 256 := by
        rw [zero, Nat.zero_add]
        exact amount.isLt
      have whole : (⟨due.toNat + amount.toNat, fits⟩ : U256) = amount :=
        U256.toNat_injective (by simp [zero])
      refine ⟨[.transfer stakingToken (.account context.caller) amount], ?_, ?_⟩
      · rw [withdrawRequests, if_pos equal, word_of_lt fits, ok_bind, whole]
        rfl
      · intro storage rest events result later
        rw [payWithdraw_of_zero zero]
        exact outcome_request_bind later
    · by_cases fits : due.toNat + amount.toNat < 2 ^ 256
      · left
        obtain ⟨both, sum, -⟩ := U256.exists_checkedAdd fits
        have isBoth : (⟨due.toNat + amount.toNat, fits⟩ : U256) = both :=
          U256.toNat_injective (U256.checkedAdd_eq_some.mp sum).symm
        refine ⟨[.transfer stakingToken (.account context.caller) both], ?_, ?_⟩
        · rw [withdrawRequests, if_pos equal, word_of_lt fits, ok_bind, isBoth]
          rfl
        · intro storage rest events result later
          rw [payWithdraw_of_eq equal zero, bind_bind, outcome_arith_bind sum]
          exact outcome_request_bind later
      · right
        have exceeds := Nat.not_lt.mp fits
        have none : due.checkedAdd amount = none := by
          rw [U256.checkedAdd, U256.ofNat?, dif_neg fits]
        refine ⟨?_, ?_⟩
        · rw [withdrawRequests, if_pos equal, word_of_le exceeds]
          rfl
        · intro storage rest
          rw [payWithdraw_of_eq equal zero, bind_bind, none]
          rfl
  · left
    refine ⟨_, by rw [withdrawRequests, if_neg equal], ?_⟩
    intro storage rest events result later
    by_cases zero : due.toNat = 0
    · rw [payWithdraw_of_zero zero, claimRequests, if_pos zero]
      exact outcome_request_bind later
    · rw [payWithdraw_of_ne equal zero, bind_bind, claimRequests, if_neg zero]
      exact outcome_request_bind (outcome_request_bind later)

end Payments

/-! ## Entry points -/

section EntryPoints

variable {storage : Storage} {farm : Farm} {log : List Event} {context : Context}
  {poolId : UInt64}

namespace Visit

variable {book : Book} {estate : Estate} {plot settled : Plot} {stake : U256}

theorem valid (visit : Visit storage farm log poolId book estate plot) :
    poolId ≤ book.index := by
  obtain ⟨before, here, -⟩ := visit.here
  rw [UInt64.le_iff_toNat_le, visit.kept.count]
  exact (List.getElem?_eq_some_iff.mp here).1.le

theorem getUser_eq (visit : Visit storage farm log poolId book estate plot) :
    getUserInfoForPool context poolId storage = .ok (plot.user context.caller.keyPrefix) := by
  obtain ⟨before, here, same⟩ := visit.here
  refine visit.represents.getUserInfoForPool_eq_ok.mpr ⟨visit.valid, ?_⟩
  rw [recordKey, visit.kept.users, Estate.user, here, same]
  rfl

/-- The storage after a settlement stands for the farm with the settled plot. -/
theorem written (visit : Visit storage farm log poolId book estate plot)
    (how : plot.Settles context.caller.keyPrefix stake settled) {totalStaked rewardDebt : U256}
    (total : totalStaked.toNat + (plot.stake context.caller.keyPrefix).toNat =
      plot.total.toNat + stake.toNat)
    (debt : rewardDebt.toNat = stake.toNat * plot.yield.toNat / plot.scale) :
    ∃ storage', updateStorage context { plot.record poolId with totalStaked }
        { amount := stake, rewardDebt } poolId storage = .ok storage' ∧
      ∀ events, poolsCreated events = [] →
        StandsFor storage' (farm.put estate poolId settled) (log ++ events) := by
  obtain ⟨before, here, same⟩ := visit.here
  have sum := how.total
  have sameTotal : settled.total = totalStaked := U256.toNat_injective (by omega)
  have sameUser : settled.user context.caller.keyPrefix = { amount := stake, rewardDebt } := by
    have sameDebt := U256.toNat_injective (how.debt.trans debt.symm)
    rw [← how.amount, ← sameDebt]
  let book' := (book.putPool poolId (settled.record poolId)).putUser
    (recordKey context.caller poolId) (settled.user context.caller.keyPrefix)
  have pools : ∀ other, book'.pool other =
      if other = poolId then some (settled.record poolId) else book.pool other := by
    intro other
    rw [Book.putUser_pool, Book.putPool_pool]
  have users : ∀ key other, book'.user (key, other) =
      if other = poolId then settled.user key else book.user (key, other) := by
    intro key other
    rw [Book.putUser_user, Book.putPool_user, recordKey]
    by_cases inPool : other = poolId
    · subst inPool
      by_cases own : key = context.caller.keyPrefix
      · rw [own, if_pos rfl, if_pos rfl]
      · rw [if_neg (fun equal => own (Prod.mk.inj equal).1), if_pos rfl, how.others key own, same,
          visit.kept.users, Estate.user, here]
        rfl
    · rw [if_neg (fun equal => inPool (Prod.mk.inj equal).2), if_neg inPool]
  have record : settled.record poolId = { plot.record poolId with totalStaked } := by
    rw [how.record, sameTotal]
  obtain ⟨storage', updated⟩ := visit.represents.exists_updateStorage context
    (settled.record poolId) (settled.user context.caller.keyPrefix) visit.valid
  have represents' := visit.represents.updateStorage_eq_ok updated
  rw [record, sameUser] at updated
  refine ⟨storage', updated, fun events none => ?_⟩
  have created : (poolsCreated (log ++ events)).length =
      (estate.plots.set poolId.toNat settled).length := by
    rw [poolsCreated_append, none, List.append_nil, List.length_set]
    exact visit.created
  have stands := StandsFor.opened represents' (visit.kept.put here rfl rfl pools users) created
  rw [visit.farm_eq]
  exact stands

theorem stopped (visit : Visit storage farm log poolId book estate plot) (now : UInt64) :
    ∃ storage', putPool (.user 1) poolId { plot.record poolId with endTime := now } storage =
        .ok storage' ∧
      ∀ events, poolsCreated events = [] →
        StandsFor storage' (farm.put estate poolId { plot with endTime := now })
          (log ++ events) := by
  obtain ⟨before, here, same⟩ := visit.here
  obtain ⟨dictionary, stored, -⟩ := visit.represents.pools
  let ended : Plot := { plot with endTime := now }
  obtain ⟨storage', written⟩ : ∃ storage', putPool (.user 1) poolId (ended.record poolId)
      storage = .ok storage' := by
    simp [putPool, visit.represents.makePoolKeyId_eq, stored]
  refine ⟨storage', written, fun events none => ?_⟩
  have represents' := visit.represents.putPool_eq_ok written
  have users : ∀ key other, (book.putPool poolId (ended.record poolId)).user (key, other) =
      if other = poolId then ended.user key else book.user (key, other) := by
    intro key other
    rw [Book.putPool_user]
    split
    · rename_i inPool
      rw [visit.kept.users, inPool, Estate.user, here]
      exact (congrFun same key).symm
    · rfl
  have kept' : Estate.KeptIn { estate with plots := estate.plots.set poolId.toNat ended }
      (book.putPool poolId (ended.record poolId)) :=
    visit.kept.put here rfl rfl (fun other => Book.putPool_pool book poolId other _) users
  have created : (poolsCreated (log ++ events)).length =
      (estate.plots.set poolId.toNat ended).length := by
    rw [poolsCreated_append, none, List.append_nil, List.length_set]
    exact visit.created
  have stands := StandsFor.opened represents' kept' created
  rw [visit.farm_eq]
  exact stands

end Visit

theorem StandsFor.admin_eq (stands : StandsFor storage farm log) :
    storage.admin = farm.admin := by
  cases stands with
  | closed => rfl
  | opened represents kept created => exact represents.admin

namespace Visit

variable {book : Book} {estate : Estate} {plot settled : Plot}
  {amount due stake precision : U256}

theorem selfContractHash_eq (visit : Visit storage farm log poolId book estate plot) :
    selfContractHash storage = .ok estate.self := by
  rw [← visit.kept.self]
  exact visit.represents.selfContractHash_eq

theorem deposited (visit : Visit storage farm log poolId book estate plot)
    (power : U256.ten.checkedPow (.ofUInt64 plot.precision) = some precision)
    (sum : stake.toNat = amount.toNat + (plot.stake context.caller.keyPrefix).toNat)
    (how : plot.Leaves context.caller.keyPrefix due stake settled) :
    ∃ totalStaked product rewardDebt storage',
      plot.total.checkedAdd amount = some totalStaked ∧
      stake.checkedMul plot.yield = some product ∧
      product.checkedDiv precision = some rewardDebt ∧
      updateStorage context { plot.record poolId with totalStaked }
        { amount := stake, rewardDebt } poolId storage = .ok storage' ∧
      ∀ events, poolsCreated events = [] →
        StandsFor storage' (farm.put estate poolId settled) (log ++ events) := by
  have total := how.settles.total
  have fits : plot.total.toNat + amount.toNat < 2 ^ 256 := by
    have bound := settled.total.isLt
    omega
  obtain ⟨totalStaked, staked, isTotal⟩ := U256.exists_checkedAdd fits
  obtain ⟨product, rewardDebt, multiplied, quotient, isDebt⟩ :=
    plot.exists_earned power how.new
  have grown : totalStaked.toNat + (plot.stake context.caller.keyPrefix).toNat =
      plot.total.toNat + stake.toNat := by omega
  obtain ⟨storage', updated, stands'⟩ := visit.written how.settles grown isDebt
  exact ⟨totalStaked, product, rewardDebt, storage', staked, multiplied, quotient, updated,
    stands'⟩

/-- Who has no stake yet is owed nothing, and the amount is pulled. -/
theorem follows_firstDeposit (visit : Visit storage farm log poolId book estate plot)
    (sum : stake.toNat = amount.toNat + (plot.stake context.caller.keyPrefix).toNat)
    (how : plot.Leaves context.caller.keyPrefix due stake settled)
    (none : (plot.stake context.caller.keyPrefix).toNat = 0) :
    Follows (firstDeposit context amount stake (plot.record poolId) poolId) storage log (.ok {
      requests := depositRequests estate.self context.caller plot.rewardToken
        plot.stakingToken due amount
      events := [.deposited poolId context.caller amount]
      next := farm.put estate poolId settled }) := by
  obtain ⟨precision, power, -⟩ := plot.checkedPow_scale
  obtain ⟨totalStaked, product, rewardDebt, storage', staked, multiplied, quotient, updated,
    stands'⟩ := visit.deposited power sum how
  rw [firstDeposit]
  apply follows_arith staked
  apply follows_arith multiplied
  apply follows_arith power
  apply follows_arith quotient
  apply Meets.reads_bind_ok visit.selfContractHash_eq
  have nothing : due.toNat = 0 := by
    have owed := how.owed
    rw [none, Nat.zero_mul, Nat.zero_div] at owed
    omega
  rw [depositRequests_of_zero nothing]
  refine .ok (outcome_request_bind (outcome_updates_bind updated rfl)) fun _ => ?_
  exact stands' _ rfl

/-- Who has a stake is paid what is due on it. -/
theorem follows_topUpDeposit (visit : Visit storage farm log poolId book estate plot)
    (sum : stake.toNat = amount.toNat + (plot.stake context.caller.keyPrefix).toNat)
    (how : plot.Leaves context.caller.keyPrefix due stake settled) :
    Follows (topUpDeposit context amount stake (plot.record poolId)
      (plot.user context.caller.keyPrefix) poolId) storage log (.ok {
      requests := depositRequests estate.self context.caller plot.rewardToken
        plot.stakingToken due amount
      events := [.rewardPaid poolId context.caller due,
        .deposited poolId context.caller amount]
      next := farm.put estate poolId settled }) := by
  obtain ⟨precision, power, -⟩ := plot.checkedPow_scale
  obtain ⟨earned, worth, multipliedOld, quotientOld, isWorth⟩ := plot.exists_earned power how.old
  rw [how.owed] at isWorth
  obtain ⟨totalStaked, product, rewardDebt, storage', staked, multiplied, quotient, updated,
    stands'⟩ := visit.deposited power sum how
  rw [topUpDeposit]
  apply follows_arith power
  apply follows_arith multipliedOld
  apply follows_arith quotientOld
  apply follows_arith (U256.checkedSub_eq_some.mpr isWorth)
  apply follows_arith staked
  apply follows_arith multiplied
  apply follows_arith quotient
  refine .ok (outcome_payDeposit_bind visit.selfContractHash_eq
    (outcome_updates_bind updated rfl)) fun _ => ?_
  exact stands' _ rfl

end Visit

section Overflow

variable {amount newAmount : U256} {pool : StakePool} {user : UserInfo}

theorem follows_firstDeposit_panic
    (overflow : ∀ totalStaked product, pool.totalStaked.checkedAdd amount = some totalStaked →
      newAmount.checkedMul pool.accTokenPerShare ≠ some product) :
    Follows (firstDeposit context amount newAmount pool poolId) storage log
      (.error .panic) := by
  rw [firstDeposit]
  apply follows_panic
  intro totalStaked staked
  apply follows_panic
  intro product multiplied
  exact absurd multiplied (overflow totalStaked product staked)

theorem follows_topUpDeposit_panic
    (overflow : ∀ totalStaked product, pool.totalStaked.checkedAdd amount = some totalStaked →
      newAmount.checkedMul pool.accTokenPerShare ≠ some product) :
    Follows (topUpDeposit context amount newAmount pool user poolId) storage log
      (.error .panic) := by
  rw [topUpDeposit]
  apply follows_panic
  intro precision _
  apply follows_panic
  intro earned _
  apply follows_panic
  intro worth _
  apply follows_panic
  intro pending _
  apply follows_panic
  intro totalStaked staked
  apply follows_panic
  intro product multiplied
  exact absurd multiplied (overflow totalStaked product staked)

end Overflow

theorem follows_deposit (stands : StandsFor storage farm log) (amount : U256) :
    Follows (deposit context amount poolId) storage log
      (farm.step context (.deposit amount poolId)) := by
  apply follows_refuse U256.isZero_iff
  intro nonzero
  apply follows_updatePool stands
  intro book estate plot log visit
  apply follows_refuse Iff.rfl
  intro opened
  apply Meets.reads_bind_ok visit.getUser_eq
  rcases plot.enter_cases context.caller.keyPrefix amount with
    ⟨due, stake, settled, entered, sum, how⟩ | ⟨panics, exceeds⟩
  · simp only [entered, ok_bind]
    have isSum : amount.checkedAdd (plot.user context.caller.keyPrefix).amount = some stake :=
      U256.checkedAdd_eq_some.mpr sum
    apply follows_arith isSum
    split
    · rename_i fresh
      have none : (plot.stake context.caller.keyPrefix).toNat = 0 := U256.isZero_iff.mp fresh
      rw [if_pos none]
      exact visit.follows_firstDeposit sum how none
    · rename_i staking
      have some : (plot.stake context.caller.keyPrefix).toNat ≠ 0 :=
        fun zero => staking (U256.isZero_iff.mpr zero)
      rw [if_neg some]
      exact visit.follows_topUpDeposit sum how
  · simp only [panics, error_bind]
    apply follows_panic
    intro newAmount sum
    have isSum : newAmount.toNat = _ := U256.checkedAdd_eq_some.mp sum
    have overflow : ∀ totalStaked product, plot.total.checkedAdd amount = some totalStaked →
        newAmount.checkedMul plot.yield ≠ some product := by
      intro totalStaked product staked multiplied
      have isTotal := U256.checkedAdd_eq_some.mp staked
      have isProduct := U256.checkedMul_eq_some.mp multiplied
      have fits := totalStaked.isLt
      have fits' := product.isLt
      rw [isTotal] at fits
      rw [isProduct, isSum] at fits'
      change (amount.toNat + (plot.stake context.caller.keyPrefix).toNat) * _ < _ at fits'
      rcases exceeds with exceeds | exceeds <;> omega
    split
    · exact follows_firstDeposit_panic overflow
    · exact follows_topUpDeposit_panic overflow

/-- Where an account has no record there is no plot, for the same reason. -/
theorem plotAt_eq_error {account : AccountHash} {failure : Failure}
    (missing : farm.userAt account poolId = .error failure) :
    farm.plotAt poolId = .error failure := by
  simp only [Farm.userAt, Farm.plotAt, bind_eq_error] at missing ⊢
  rcases missing with none | ⟨estate, opened, invalid | ⟨_, -, ⟨⟩⟩⟩
  · exact .inl none
  · exact .inr ⟨estate, opened, .inl invalid⟩

theorem follows_user (stands : StandsFor storage farm log) {f : UserInfo → Contract Unit}
    {next : Estate → Plot → Except Failure (Effect TokenCall Event Farm)}
    (onward : ∀ user, getUserInfoForPool context poolId storage = .ok user →
      Follows (f user) storage log (farm.visit context poolId next)) :
    Follows (Prog.reads (getUserInfoForPool context poolId) >>= f) storage log
      (farm.visit context poolId next) := by
  cases read : getUserInfoForPool context poolId storage with
  | ok user => exact Meets.reads_bind_ok read (onward user read)
  | error failure =>
      have missing := stands.getUser_eq.symm.trans read
      rw [Farm.visit, plotAt_eq_error missing, error_bind]
      apply Meets.congr (outcome_reads_bind _)
      rw [read]
      exact .error rfl

theorem follows_withdraw (stands : StandsFor storage farm log) (amount : U256) :
    Follows (withdraw context amount poolId) storage log
      (farm.step context (.withdraw amount poolId)) := by
  apply follows_refuse U256.isZero_iff
  intro nonzero
  apply follows_user stands
  intro user readUser
  apply follows_updatePool stands
  intro book estate plot log visit
  cases readUser.symm.trans visit.getUser_eq
  apply follows_refuse U256.isZero_iff
  intro staking
  obtain ⟨precision, power, -⟩ := plot.checkedPow_scale
  rcases plot.leave_cases context.caller.keyPrefix amount with
    ⟨due, left, settled, leaves, difference, how⟩ | ⟨panics, exceeds⟩
  · simp only [leaves, ok_bind]
    have within : (plot.stake context.caller.keyPrefix).toNat ≤ plot.total.toNat :=
      plot.shares.stake_le _
    obtain ⟨totalStaked, staked, isTotal⟩ :=
      U256.exists_checkedSub (le_trans (by omega : amount.toNat ≤ _) within)
    obtain ⟨earned, worth, multipliedOld, quotientOld, isWorth⟩ :=
      plot.exists_earned power how.old
    rw [how.owed] at isWorth
    obtain ⟨product, rewardDebt, multiplied, quotient, isDebt⟩ :=
      plot.exists_earned power how.new
    have lowered : totalStaked.toNat + (plot.stake context.caller.keyPrefix).toNat =
        plot.total.toNat + left.toNat := by omega
    obtain ⟨storage', updated, stands'⟩ := visit.written how.settles lowered isDebt
    apply follows_arith (U256.checkedSub_eq_some.mpr difference)
    apply follows_arith power
    apply follows_arith multipliedOld
    apply follows_arith quotientOld
    apply follows_arith (U256.checkedSub_eq_some.mpr isWorth)
    apply follows_arith staked
    apply follows_arith multiplied
    apply follows_arith quotient
    rcases payWithdraw_cases context due amount plot.rewardToken plot.stakingToken with
      ⟨requests, paid, outcome⟩ | ⟨panics, outcome⟩
    · simp only [paid, ok_bind]
      refine .ok (outcome (outcome_updates_bind updated rfl)) fun _ => ?_
      exact stands' _ rfl
    · simp only [panics, error_bind]
      exact .error outcome
  · simp only [panics, error_bind]
    apply follows_panic
    intro newAmount taken
    apply follows_panic
    intro _ _
    apply follows_panic
    intro product multiplied
    have difference := U256.checkedSub_eq_some.mp taken
    have isProduct := U256.checkedMul_eq_some.mp multiplied
    have fits := product.isLt
    rw [isProduct] at fits
    change (plot.stake context.caller.keyPrefix).toNat * plot.yield.toNat < _ at fits
    change (plot.stake context.caller.keyPrefix).toNat = _ at difference
    exfalso
    rcases exceeds with exceeds | exceeds <;> omega

theorem follows_emergencyWithdraw (stands : StandsFor storage farm log) :
    Follows (emergencyWithdraw context poolId) storage log
      (farm.step context (.emergencyWithdraw poolId)) := by
  apply follows_getPool stands
  intro book estate plot visit
  apply Meets.reads_bind_ok visit.getUser_eq
  apply follows_refuse U256.isZero_iff
  intro staking
  have within : (plot.stake context.caller.keyPrefix).toNat ≤ plot.total.toNat :=
    plot.shares.stake_le _
  rcases plot.settle_cases context.caller.keyPrefix U256.zero with
    ⟨settled, settles, how, -⟩ | ⟨-, exceeds⟩
  · simp only [settles, ok_bind]
    obtain ⟨totalStaked, staked, isTotal⟩ := U256.exists_checkedSub within
    have lowered : totalStaked.toNat + (plot.stake context.caller.keyPrefix).toNat =
        plot.total.toNat + U256.zero.toNat := by
      rw [U256.toNat_zero]
      omega
    have noDebt : U256.zero.toNat = U256.zero.toNat * plot.yield.toNat / plot.scale := by
      simp
    obtain ⟨storage', updated, stands'⟩ := visit.written how lowered noDebt
    apply follows_arith staked
    refine .ok (outcome_request_bind (outcome_updates_bind updated rfl)) fun _ => ?_
    exact stands' _ rfl
  · exfalso
    have total := plot.total.isLt
    simp only [U256.toNat_zero, Nat.zero_mul] at exceeds
    omega

theorem follows_stopReward (stands : StandsFor storage farm log) :
    Follows (stopReward context poolId) storage log
      (farm.step context (.stopReward poolId)) := by
  simp only [stopReward, Farm.step]
  apply follows_updatePool stands
  intro book estate plot log visit
  apply follows_refuse Iff.rfl
  intro owner
  apply follows_refuse Iff.rfl
  intro running
  simp only [Plot.rewardFor, bind_assoc, ← Plot.getMax_eq]
  apply follows_both
  intro promised _
  apply follows_both
  intro refund _
  obtain ⟨storage', written, stands'⟩ := visit.stopped context.blocktime
  refine .ok (outcome_request_bind (outcome_updates_bind written rfl)) fun _ => ?_
  exact stands' _ rfl

theorem follows_saveMe (stands : StandsFor storage farm log) (tokenHash : ContractHash)
    (amount : U256) :
    Follows (saveMe context tokenHash amount) storage log
      (farm.step context (.saveMe tokenHash amount)) := by
  apply Meets.reads_bind_ok rfl
  rw [stands.admin_eq]
  apply follows_refuse Iff.rfl
  intro isAdmin
  refine .ok rfl fun _ => ?_
  rw [List.append_nil]
  exact stands

theorem follows_setAdmin (stands : StandsFor storage farm log) (account : AccountHash) :
    Follows (setAdmin context account) storage log
      (farm.step context (.setAdmin account)) := by
  apply Meets.reads_bind_ok rfl
  rw [stands.admin_eq]
  apply follows_refuse Iff.rfl
  intro isAdmin
  refine .ok rfl fun _ => ?_
  rw [List.append_nil]
  cases stands with
  | closed => exact .closed
  | opened represents kept created =>
      exact .opened (represents.setAdmin account) ⟨kept.self, kept.count, kept.pools, kept.users⟩
        created

theorem follows_init (stands : StandsFor storage farm log) (contHash : ContractPackageHash) :
    Follows (init contHash) storage log (farm.step context (.init contHash)) := by
  cases stands with
  | @closed admin =>
      refine .ok rfl fun _ => ?_
      have kept : Estate.KeptIn ⟨contHash, []⟩ (.empty admin contHash) :=
        ⟨rfl, rfl, fun _ => rfl, fun _ _ => rfl⟩
      exact .opened (represents_initialised admin contHash) kept rfl
  | opened represents kept created =>
      apply Meets.reads_bind_ok rfl
      rw [represents.initialized]
      exact .error rfl

theorem follows_addPool (stands : StandsFor storage farm log)
    (stakingToken rewardToken : ContractHash) (startTime endTime precision : UInt64)
    (totalReward : U256) :
    Follows (addPool context stakingToken rewardToken startTime endTime precision totalReward)
      storage log (farm.step context
        (.addPool stakingToken rewardToken startTime endTime precision totalReward)) := by
  apply follows_refuse Iff.rfl
  intro inTime
  apply follows_refuse U256.isZero_iff
  intro nonzero
  by_cases precise : 18 ≤ precision ∧ precision ≤ 36
  · simp only [dif_pos precise, revertIf, not_not.mpr precise, if_false]
    cases stands with
    | closed => exact .error rfl
    | @opened _ book estate _ represents kept created =>
        obtain ⟨dictionary, stored, -⟩ := represents.pools
        apply Meets.reads_bind_ok (a := dictionary) (by rw [stored]; rfl)
        apply Meets.reads_bind_ok (a := book.index) (by rw [represents.index]; rfl)
        have next : book.index = .ofNat estate.plots.length := by
          rw [← kept.count, UInt64.ofNat_toNat]
        let plot : Plot := {
          stakingToken, rewardToken, startTime, endTime, precision
          owner := context.caller
          totalReward
          updated := 0
          yield := U256.zero
          shares := ∅
          precise
          settled := fun _ _ found => by cases found
          fits := by decide }
        obtain ⟨storage', written⟩ : ∃ storage', putPool .none book.index
            (plot.record book.index) storage = .ok storage' := by
          simp [putPool, represents.makePoolKeyId_eq, stored]
        have represents' := represents.putPool_eq_ok written
        have self : selfContractHash storage' = .ok estate.self := by
          rw [← kept.self]
          exact represents'.selfContractHash_eq
        change Follows _ storage log (.ok {
          requests := [.transferFrom rewardToken (.account context.caller)
            (.contract estate.self) totalReward]
          events := [.poolAdded (plot.record (.ofNat estate.plots.length))]
          next := Farm.add ⟨book.admin, some estate⟩ estate plot })
        rw [← next]
        refine .ok (outcome_updates_bind written ((outcome_spender_bind self).trans
          (outcome_request_bind (outcome_updates_bind rfl rfl)))) fun few => ?_
        have grown : (poolsCreated (log ++ [.poolAdded (plot.record book.index)])).length =
            (estate.plots ++ [plot]).length := by
          rw [poolsCreated_append, List.length_append, created, List.length_append]
          rfl
        have room : estate.plots.length + 1 < 2 ^ 64 := by
          change _ < _ at few
          rw [grown, List.length_append] at few
          exact few
        have stands := StandsFor.opened (represents'.setIndex (book.index + 1))
          (kept.add room (plot.user_of_empty rfl)) grown
        exact stands
  · simp only [dif_neg precise, revertIf, if_pos precise]
    exact .error rfl

theorem follows_step (stands : StandsFor storage farm log) (call : Call) :
    Follows (call.program context) storage log (farm.step context call) := by
  cases call with
  | init contHash => exact follows_init stands contHash
  | addPool stakingToken rewardToken startTime endTime precision totalReward =>
      exact follows_addPool stands stakingToken rewardToken startTime endTime precision totalReward
  | deposit amount poolId => exact follows_deposit stands amount
  | withdraw amount poolId => exact follows_withdraw stands amount
  | emergencyWithdraw poolId => exact follows_emergencyWithdraw stands
  | stopReward poolId => exact follows_stopReward stands
  | saveMe tokenHash amount => exact follows_saveMe stands tokenHash amount
  | setAdmin account => exact follows_setAdmin stands account

end EntryPoints

/-! ## Histories -/

/-- What anyone can read of the contract is what the farm holds. -/
structure Farm.ShownBy (farm : Farm) (storage : Storage) : Prop where
  admin : storage.admin = farm.admin
  initialized : storage.initialized = farm.estate.isSome
  self : storage.selfContractHash = farm.estate.map Estate.self
  index : storage.index = farm.estate.map fun estate => .ofNat estate.plots.length
  pools : ∀ poolId,
    getPool poolId storage = (farm.plotAt poolId).map fun found => found.2.record poolId
  users : ∀ context poolId,
    getUserInfoForPool context poolId storage = farm.userAt context.caller poolId

theorem StandsFor.shown {storage : Storage} {farm : Farm} {log : List Event}
    (stands : StandsFor storage farm log) : farm.ShownBy storage := by
  refine ⟨stands.admin_eq, ?_, ?_, ?_, fun _ => stands.getPool_eq, fun _ _ => stands.getUser_eq⟩
  · cases stands with
    | closed => rfl
    | opened represents kept created => exact represents.initialized
  · cases stands with
    | closed => rfl
    | opened represents kept created =>
        rw [represents.selfHash, kept.self]
        rfl
  · cases stands with
    | closed => rfl
    | opened represents kept created =>
        rw [represents.index, Option.map_some, ← kept.count, UInt64.ofNat_toNat]

section Histories

variable {E : Type} {around : Surroundings E} {permitted : Context → Call → Storage → Prop}
  {admin : AccountHash} {e : E} {start now : UInt64} {steps : List (StakeStep E)}
  {w : StakeWorld E}

/-- The whole behaviour of the contract.  A history from the installation is a replay of
its calls on the farm, with the same events, and what can be read in the end is what the
farm holds.  From there every call fails exactly when and how the step of the farm does,
and otherwise goes through exactly when the tokens answer what the step asks of them, and
shows the next farm. -/
theorem farm_refined
    (history : History (around.setting permitted) start ⟨.installed admin, e, []⟩ steps now w)
    (few : FewPools w.log) :
    ∃ farm : Farm, Farm.step.replay (calls steps) (.installed admin) = .ok (w.log, farm) ∧
      farm.ShownBy w.storage ∧
      ∀ (context : Context) (call : Call),
        match farm.step context call with
        | .error refusal =>
            (∀ w', ¬ Runs (Quiet around.answer) (call.program context) w () w') ∧
            ∀ failed, Fails (Quiet around.answer) (call.program context) w failed ↔
              failed = refusal
        | .ok effect =>
            (∀ failed, ¬ Fails (Quiet around.answer) (call.program context) w failed) ∧
            ∃ storage', (FewPools (w.log ++ effect.events) → effect.next.ShownBy storage') ∧
              ∀ w', Runs (Quiet around.answer) (call.program context) w () w' ↔
                ∃ e', Answers around.answer effect.requests w.outside e' ∧
                  w' = ⟨storage', e', w.log ++ effect.events⟩ := by
  have each : ∀ context call storage farm log, StandsFor storage farm log →
      Meets StandsFor FewPools ((around.setting permitted).program context call) storage log
        (farm.step context call) :=
    fun context call storage farm log stands => follows_step stands call
  obtain ⟨events, farm, replayed, log, stands⟩ :=
    history.specified (fun _ _ few => few.earlier) each .closed few
  rw [List.nil_append] at log
  subst log
  refine ⟨farm, replayed, stands.shown, fun context call => ?_⟩
  have meets : Follows (call.program context) w.storage w.log (farm.step context call) :=
    follows_step stands call
  cases isStep : farm.step context call with
  | error refusal =>
      rw [isStep] at meets
      exact meets.of_error around.answer
  | ok effect =>
      rw [isStep] at meets
      obtain ⟨safe, storage', stands', runs⟩ := meets.of_ok around.answer
      exact ⟨safe, storage', fun few => (stands' few).shown, runs⟩

end Histories

section Sample

open Sample

/-- Two pools.  The stakers of the first come, are paid and leave, one of them in a hurry;
the second is stopped. -/
def seasons : List (StakeStep Erc20Ledger) × StakeWorld Erc20Ledger :=
  traced
    [setUp, (10, owner, .addPool tokenA tokenA 100 200 18 (units 1000)),
      (20, staker 1, .deposit (units 10) 0),
      (20, owner, .addPool tokenB tokenB 50 150 20 (units 500)),
      (120, staker 2, .deposit (units 30) 0), (130, owner, .stopReward 1),
      (150, staker 1, .withdraw (units 4) 0), (160, staker 2, .emergencyWithdraw 0)]
    opening (by decide +kernel)

/-- In the farm the first staker has six left. -/
theorem farm_refined_seasons :
    ∃ farm : Farm, farm.ShownBy seasons.2.storage ∧
      ∃ user, farm.userAt (staker 1) 0 = .ok user ∧ user.amount.toNat = 6 := by
  obtain ⟨later, history⟩ : ∃ later, History (around.setting unrestricted) opening.now
      opening.world seasons.1 later seasons.2 := history_traced _
  obtain ⟨farm, -, shown, -⟩ := farm_refined history (by decide +kernel)
  refine ⟨farm, shown, ?_⟩
  have reads : (getUserInfoForPool { caller := staker 1, blocktime := 0 } 0
      seasons.2.storage).map (fun user => user.amount.toNat) = .ok 6 := by decide +kernel
  rw [shown.users] at reads
  cases found : farm.userAt (staker 1) 0 with
  | error failure =>
      rw [found] at reads
      cases reads
  | ok user =>
      rw [found] at reads
      exact ⟨user, rfl, Except.ok.inj reads⟩

end Sample

end CasperContracts.Staking
