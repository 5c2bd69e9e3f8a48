import CasperContracts.Basis.ShareTally
import CasperContracts.Basis.Specification
import CasperContracts.Host.Refusal
import CasperContracts.Staking.OnePool

/-!
# What the staking contract is for

A `Farm` has plots.  Members put stakes into a plot, and its reward is shared out among
them second by second.  Each call is one executable step that fails or says what is asked
of the tokens and what the farm becomes.  There are no bytes and keys here, no stored
totals and no debts: the total of a plot is what its members have in it, and a member has
a stake and the yield of its plot when it was last settled.
-/

namespace CasperContracts.Staking

open CasperContracts.Basis Host

/-- A stake, and what one unit of stake had earned when it was last settled. -/
structure Share where
  stake : U256
  since : Nat
  fits : stake.toNat * since < 2 ^ 256
  deriving DecidableEq

abbrev Shares := FiniteStore KeyPrefix Share

def Share.none : Share := ⟨U256.zero, 0, by decide⟩

/-- What a share had earned when it was last settled. -/
def Share.settled (share : Share) (scale : Nat) : U256 :=
  ⟨Tally.earned scale share.since share.stake.toNat,
    lt_of_le_of_lt (Nat.div_le_self _ _) share.fits⟩

def Shares.total (shares : Shares) : Nat :=
  FiniteStore.total (fun _ share => share.stake.toNat) shares

def Shares.share (shares : Shares) (key : KeyPrefix) : Share :=
  (shares.lookup key).getD Share.none

theorem Shares.share_insert (shares : Shares) (key other : KeyPrefix) (share : Share) :
    Shares.share (shares.insert key share) other =
      if other = key then share else shares.share other := by
  by_cases same : other = key
  · subst same
    simp [Shares.share]
  · simp [Shares.share, same, Finmap.lookup_insert_of_ne _ same]

theorem Shares.total_insert (shares : Shares) (key : KeyPrefix) (share : Share) :
    Shares.total (shares.insert key share) + (shares.share key).stake.toNat =
      shares.total + share.stake.toNat := by
  have exchange := FiniteStore.total_insert (fun _ share => share.stake.toNat) shares key share
  cases found : shares.lookup key with
  | none => simpa [Shares.total, Shares.share, found, Share.none] using exchange
  | some old => simpa [Shares.total, Shares.share, found] using exchange

theorem Shares.stake_le (shares : Shares) (key : KeyPrefix) :
    (shares.share key).stake.toNat ≤ shares.total := by
  cases found : shares.lookup key with
  | none => simp [Shares.share, found, Share.none]
  | some share =>
      simp only [Shares.share, found, Option.getD_some]
      exact FiniteStore.le_total (fun _ share => share.stake.toNat) found

/-! ## Plots -/

/-- A reward, the time in which it is shared out, and those who take part.  The yield is
what one unit of stake has earned so far, times the scale. -/
structure Plot where
  stakingToken : ContractHash
  rewardToken : ContractHash
  startTime : UInt64
  endTime : UInt64
  precision : UInt64
  owner : AccountHash
  totalReward : U256
  updated : UInt64
  yield : U256
  shares : Shares
  precise : 18 ≤ precision ∧ precision ≤ 36
  settled : ∀ key share, shares.lookup key = some share → share.since ≤ yield.toNat
  fits : shares.total < 2 ^ 256

namespace Plot

variable (plot : Plot) (now : UInt64) (key : KeyPrefix)

def scale : Nat := 10 ^ plot.precision.toNat

def total : U256 := ⟨plot.shares.total, plot.fits⟩

def stake : U256 := (plot.shares.share key).stake

def user : UserInfo where
  amount := plot.stake key
  rewardDebt := (plot.shares.share key).settled plot.scale

def record (poolId : UInt64) : StakePool where
  id := poolId
  lastRewardTimestamp := plot.updated
  stakingToken := plot.stakingToken
  rewardToken := plot.rewardToken
  startTime := plot.startTime
  endTime := plot.endTime
  precision := plot.precision
  owner := plot.owner
  totalReward := plot.totalReward
  accTokenPerShare := plot.yield
  totalStaked := plot.total

theorem since_le : (plot.shares.share key).since ≤ plot.yield.toNat := by
  cases found : plot.shares.lookup key with
  | none => simp [Shares.share, found, Share.none]
  | some share =>
      simp only [Shares.share, found, Option.getD_some]
      exact plot.settled key share found

/-! ### Operations -/

/-- The reward for some seconds.  The length of the window wraps around when the end comes
before the start. -/
def rewardFor (seconds : UInt64) : Except Failure U256 := do
  let promised ← word (seconds.toNat * plot.totalReward.toNat)
  orPanic (promised.checkedDiv (.ofUInt64 (plot.endTime - plot.startTime)))

def grow (growth : Nat) : Except Failure Plot :=
  if fits : plot.yield.toNat + growth < 2 ^ 256 then
    .ok { plot with
      updated := now
      yield := ⟨plot.yield.toNat + growth, fits⟩
      settled := fun key share found =>
        le_trans (plot.settled key share found) (Nat.le_add_right _ _) }
  else
    .error .panic

/-- The seconds since the last update are shared out, if there is anyone to share with. -/
def advance : Except Failure (Plot × Option Credit) :=
  if now ≤ plot.updated then
    .ok (plot, none)
  else if plot.total.toNat = 0 ∨ now < plot.startTime then
    .ok ({ plot with updated := now }, none)
  else if plot.endTime < plot.updated then
    .ok (plot, none)
  else do
    let unlocked := min now plot.endTime - max plot.startTime plot.updated
    let rewards ← plot.rewardFor unlocked
    let scaled ← word (rewards.toNat * plot.scale)
    let share : U256 :=
      ⟨scaled.toNat / plot.total.toNat, lt_of_le_of_lt (Nat.div_le_self _ _) scaled.isLt⟩
    let grown ← plot.grow now share.toNat
    return (grown, some { unlocked, rewards, totalStaked := plot.total, share })

def due : Except Failure U256 := do
  let product ← word ((plot.stake key).toNat * plot.yield.toNat)
  return ⟨product.toNat / plot.scale - (plot.user key).rewardDebt.toNat,
    lt_of_le_of_lt (Nat.sub_le _ _) (lt_of_le_of_lt (Nat.div_le_self _ _) product.isLt)⟩

def settle (stake : U256) : Except Failure Plot :=
  if product : stake.toNat * plot.yield.toNat < 2 ^ 256 then
    let share : Share := ⟨stake, plot.yield.toNat, product⟩
    if fits : Shares.total (plot.shares.insert key share) < 2 ^ 256 then
      .ok { plot with
        shares := plot.shares.insert key share
        settled := by
          intro other otherShare found
          by_cases same : other = key
          · subst same
            rw [Finmap.lookup_insert, Option.some.injEq] at found
            exact found ▸ le_refl _
          · rw [Finmap.lookup_insert_of_ne _ same] at found
            exact plot.settled other otherShare found
        fits }
    else
      .error .panic
  else
    .error .panic

/-- A member adds to its stake: what it is owed, and the plot with the new stake. -/
def enter (amount : U256) : Except Failure (U256 × Plot) := do
  let due ← plot.due key
  let stake ← word (amount.toNat + (plot.stake key).toNat)
  let settled ← plot.settle key stake
  return (due, settled)

/-- A member takes from its stake: what it is owed, what it leaves in the plot, and the
plot with that. -/
def leave (amount : U256) : Except Failure (U256 × U256 × Plot) := do
  let left ← orPanic ((plot.stake key).checkedSub amount)
  let due ← plot.due key
  let settled ← plot.settle key left
  return (due, left, settled)

end Plot

/-! ## Payments -/

section Payments

variable (self : ContractPackageHash) (caller : AccountHash)
  (rewardToken stakingToken : ContractHash) (due amount : U256)

def less (a b : U256) : U256 :=
  ⟨a.toNat - b.toNat, lt_of_le_of_lt (Nat.sub_le _ _) a.isLt⟩

def claimRequests : List TokenCall :=
  if due.toNat = 0 then [] else [.transfer rewardToken (.account caller) due]

/-- A deposit claims what is due; in one token only the difference is paid. -/
def depositRequests : List TokenCall :=
  if rewardToken = stakingToken then
    if amount.toNat < due.toNat then
      [.transfer stakingToken (.account caller) (less due amount)]
    else
      [.transferFrom stakingToken (.account caller) (.contract self) (less amount due)]
  else
    claimRequests caller rewardToken due ++
      [.transferFrom stakingToken (.account caller) (.contract self) amount]

/-- A withdrawal too; in one token both are paid at once. -/
def withdrawRequests : Except Failure (List TokenCall) :=
  if rewardToken = stakingToken then do
    let both ← word (due.toNat + amount.toNat)
    return [.transfer stakingToken (.account caller) both]
  else
    .ok (claimRequests caller rewardToken due ++
      [.transfer stakingToken (.account caller) amount])

end Payments

/-! ## The farm -/

/-- What the farm keeps for its users: its own name, and every plot ever let. -/
structure Estate where
  self : ContractPackageHash
  plots : List Plot

structure Farm where
  admin : AccountHash
  estate : Option Estate

/-- A list of plots has a place for an id, or the id is the next one. -/
def Estate.valid (estate : Estate) (poolId : UInt64) : Except Failure Unit :=
  refuse (estate.plots.length < poolId.toNat) .invalidArgument

/-- The record of a member; there is none in a plot that is not let yet. -/
def Estate.user (estate : Estate) (key : KeyPrefix) (poolId : UInt64) : UserInfo :=
  estate.plots[poolId.toNat]?.elim UserInfo.default fun plot => plot.user key

namespace Farm

def installed (admin : AccountHash) : Farm := ⟨admin, none⟩

variable (farm : Farm)

def plotAt (poolId : UInt64) : Except Failure (Estate × Plot) := do
  let estate ← unwrapOrRevertWith .missingKey farm.estate
  estate.valid poolId
  let plot ← unwrapOrRevertWith (.user 7) estate.plots[poolId.toNat]?
  return (estate, plot)

def userAt (account : AccountHash) (poolId : UInt64) : Except Failure UserInfo := do
  let estate ← unwrapOrRevertWith .missingKey farm.estate
  estate.valid poolId
  return estate.user account.keyPrefix poolId

def add (estate : Estate) (plot : Plot) : Farm :=
  { farm with estate := some { estate with plots := estate.plots ++ [plot] } }

def put (estate : Estate) (poolId : UInt64) (plot : Plot) : Farm :=
  { farm with estate := some { estate with plots := estate.plots.set poolId.toNat plot } }

/-- A plot is brought up to date before anything else is done in it. -/
def visit (context : Context) (poolId : UInt64)
    (next : Estate → Plot → Except Failure (Effect TokenCall Event Farm)) :
    Except Failure (Effect TokenCall Event Farm) := do
  let (estate, before) ← farm.plotAt poolId
  let (plot, credit) ← before.advance context.blocktime
  recording (creditEvents poolId credit) (next estate plot)

def step : Specification Context Call Farm Failure TokenCall Event
  | _, .init contHash, farm => do
      refuse farm.estate.isSome .permissionDenied
      return ⟨[], [], { farm with estate := some ⟨contHash, []⟩ }⟩
  | context, .addPool stakingToken rewardToken startTime endTime precision totalReward,
      farm => do
      refuse (startTime < context.blocktime ∨ endTime < context.blocktime) .invalidArgument
      refuse (totalReward.toNat = 0) .invalidArgument
      if precise : 18 ≤ precision ∧ precision ≤ 36 then
        let estate ← unwrapOrRevert farm.estate
        let plot : Plot := {
          stakingToken, rewardToken, startTime, endTime, precision
          owner := context.caller
          totalReward
          updated := 0
          yield := U256.zero
          shares := ∅
          precise
          settled := fun _ _ found => by cases found
          fits := by decide }
        return {
          requests := [.transferFrom rewardToken (.account context.caller)
            (.contract estate.self) totalReward]
          events := [.poolAdded (plot.record (.ofNat estate.plots.length))]
          next := farm.add estate plot }
      else
        .error (.revert .invalidArgument)
  | context, .deposit amount poolId, farm => do
      refuse (amount.toNat = 0) .invalidArgument
      farm.visit context poolId fun estate plot => do
        refuse (plot.endTime < context.blocktime) .invalidArgument
        let key := context.caller.keyPrefix
        let (due, settled) ← plot.enter key amount
        let paid : List Event :=
          if (plot.stake key).toNat = 0 then [] else [.rewardPaid poolId context.caller due]
        return {
          requests := depositRequests estate.self context.caller plot.rewardToken
            plot.stakingToken due amount
          events := paid ++ [.deposited poolId context.caller amount]
          next := farm.put estate poolId settled }
  | context, .withdraw amount poolId, farm => do
      refuse (amount.toNat = 0) .invalidArgument
      farm.visit context poolId fun estate plot => do
        let key := context.caller.keyPrefix
        refuse ((plot.stake key).toNat = 0) .invalidArgument
        let (due, left, settled) ← plot.leave key amount
        let requests ←
          withdrawRequests context.caller plot.rewardToken plot.stakingToken due amount
        return {
          requests
          events := [.rewardPaid poolId context.caller due,
            .withdrawn poolId context.caller amount left]
          next := farm.put estate poolId settled }
  | context, .emergencyWithdraw poolId, farm => do
      let (estate, plot) ← farm.plotAt poolId
      let key := context.caller.keyPrefix
      let stake := plot.stake key
      refuse (stake.toNat = 0) .invalidArgument
      let settled ← plot.settle key U256.zero
      return {
        requests := [.transfer plot.stakingToken (.account context.caller) stake]
        events := [.emergencyWithdrawn poolId context.caller stake]
        next := farm.put estate poolId settled }
  | context, .stopReward poolId, farm =>
      farm.visit context poolId fun estate plot => do
        let now := context.blocktime
        refuse (plot.owner ≠ context.caller) .invalidPurse
        refuse (plot.endTime ≤ now) .invalidArgument
        let refund ← plot.rewardFor (plot.endTime - max now plot.startTime)
        return {
          requests := [.transfer plot.stakingToken (.account context.caller) refund]
          events := [.stopped poolId now refund]
          next := farm.put estate poolId { plot with endTime := now } }
  | context, .saveMe tokenHash amount, farm => do
      refuse (context.caller ≠ farm.admin) .invalidPurse
      return ⟨[.transfer tokenHash (.account context.caller) amount], [], farm⟩
  | context, .setAdmin account, farm => do
      refuse (context.caller ≠ farm.admin) .invalidPurse
      return ⟨[], [], { farm with admin := account }⟩

end Farm

end CasperContracts.Staking
