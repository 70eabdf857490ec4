import Hwal.Support.CheckedArithmetic
import Hwal.Support.Guards
import Hwal.Support.BalanceLedger
import Hwal.Support.TransitionTrace
import Hwal.Support.ByteStrings
import Hwal.Accounts
import Hwal.Ed25519
import Hwal.Runtime
import Hwal.ConfigInstructions
import Hwal.FeedInstructions
import Hwal.LazerInstruction
import Hwal.PositionInstructions
import Hwal.TickEvaluation
import Hwal.Settlement
import Hwal.Delegation
import Hwal.Program
import Hwal.StepEffects
import Hwal.AccountEffects
import Hwal.Invariants
import Hwal.Lifecycle
import Hwal.Custody
import Hwal.Progress
import Hwal.PriceHistory
import Hwal.TriggerHistory
import Hwal.LazerVerification
import Hwal.FeedHistory
import Hwal.OwnerConsent
import Hwal.ConfigLedger
import Hwal.DelegationExit
import Hwal.Coherence
import Hwal.PositionMachine
import Hwal.SettlementDeltas
import Hwal.RentRule
import Hwal.OrderIndependence
import Hwal.Alike
import Hwal.ExtraTicks
import Hwal.OpenUpdateAgreement
import Hwal.Duality
import Hwal.EvaluationOrder
import Hwal.FeedProvenance
import Hwal.SettlementArithmetic
import Hwal.Support.InPlace
import Hwal.LazerHandler
import Hwal.AccountData
import Hwal.EventData
import Hwal.EventLog
import Hwal.EventReplay
import Hwal.InstructionData
import Hwal.PositionLog
import Hwal.KeeperBot
import Hwal.Support.AtomicBatch
import Hwal.Transactions
import Hwal.Governance
import Hwal.Locality
import Hwal.Parallel
import Hwal.PriceNews
import Hwal.SigningCost
import Hwal.AccountIdentity
import Hwal.ErrorCatalogue
import Hwal.KeeperDuty
import Hwal.DelegationMark
import Hwal.PriceUnits
import Hwal.OpenAccess
import Hwal.Isolation
