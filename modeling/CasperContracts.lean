import CasperContracts.Basis.Resumption
import CasperContracts.Basis.CallBacks
import CasperContracts.Basis.History
import CasperContracts.Basis.LittleEndian
import CasperContracts.Basis.Word256
import CasperContracts.Basis.FiniteStore
import CasperContracts.Host.Types
import CasperContracts.Host.Token
import CasperContracts.Host.Keys
import CasperContracts.Staking.Pool
import CasperContracts.Staking.Codec
import CasperContracts.Staking.Stake
import CasperContracts.Staking.Book
import CasperContracts.Staking.Accrual
import CasperContracts.Staking.Change
import CasperContracts.Staking.Phases
import CasperContracts.Staking.Run
import CasperContracts.Basis.ShareTally
import CasperContracts.Staking.OnePool
import CasperContracts.Staking.Stakes
import CasperContracts.Staking.Payments
import CasperContracts.Staking.Emergency
import CasperContracts.Staking.Netting
import CasperContracts.Staking.Emission
import CasperContracts.Staking.Distribution
import CasperContracts.Staking.Splitting
import CasperContracts.Staking.Window
import CasperContracts.Staking.Headroom
import CasperContracts.Staking.StopReward
import CasperContracts.Staking.Frame
import CasperContracts.Staking.Ledger
import CasperContracts.Staking.Reentrancy
import CasperContracts.Staking.Isolation
import CasperContracts.Staking.Terms
import CasperContracts.Staking.Trace
import CasperContracts.Staking.Events
import CasperContracts.Staking.Block
import CasperContracts.Staking.Treatment
import CasperContracts.Basis.OwnerIndex
import CasperContracts.Vesting.Lock
import CasperContracts.Vesting.Vest
import CasperContracts.Vesting.Book
import CasperContracts.Vesting.Schedule
import CasperContracts.Vesting.Change
import CasperContracts.Vesting.Codec
import CasperContracts.Keys
import CasperContracts.Vesting.Run
import CasperContracts.Vesting.Ids
import CasperContracts.Vesting.Ownership
import CasperContracts.Vesting.Payouts
import CasperContracts.Vesting.Backing
import CasperContracts.Vesting.Creation
import CasperContracts.Basis.Interleaving
import CasperContracts.Basis.Allocation
import CasperContracts.Staking.Allocation
import CasperContracts.Vesting.Allocation
import CasperContracts.Allocation
import CasperContracts.Basis.Custody
import CasperContracts.Vesting.Reentrancy
import CasperContracts.Vesting.HonestLocks
import CasperContracts.Basis.Simulation
import CasperContracts.Basis.Frames
import CasperContracts.Basis.Specification
import CasperContracts.Host.GlobalState
import CasperContracts.Host.Frame
import CasperContracts.Vesting.Named
import CasperContracts.Vesting.Refinement
import CasperContracts.Staking.Named
import CasperContracts.Staking.Refinement
import CasperContracts.Vesting.Vault
import CasperContracts.Vesting.VaultRefinement
import CasperContracts.Vesting.Commuting
import CasperContracts.Vesting.PaidOut
import CasperContracts.Basis.ProRata
import CasperContracts.Staking.FairShare
import CasperContracts.Staking.Exits
import CasperContracts.Host.Refusal
import CasperContracts.Staking.Farm
import CasperContracts.Staking.FarmRefinement
