import AccountServices.Foundation.Program
import AccountServices.Foundation.Refinement
import AccountServices.Foundation.SlotTable
import AccountServices.Foundation.Word
import AccountServices.Foundation.Upsert
import AccountServices.Foundation.EvenSplit
import AccountServices.Foundation.Frames
import AccountServices.Common.Types
import AccountServices.Common.SecurityIdentity
import AccountServices.Order.OrderBook
import AccountServices.Order.BookTerms
import AccountServices.Order.BookInvariant
import AccountServices.Order.BookStates
import AccountServices.Order.Registration
import AccountServices.Order.ChildChanges
import AccountServices.Order.ParentStatus
import AccountServices.Order.ParentFills
import AccountServices.Shm.SpscQueue
import AccountServices.Shm.QueueRefinement
import AccountServices.Shm.OrdersShm
import AccountServices.Portfolio.PositionManager
import AccountServices.Portfolio.PositionRows
import AccountServices.Portfolio.PositionCalls
import AccountServices.Portfolio.FundLedger
import AccountServices.Portfolio.PositionLoader
import AccountServices.Portfolio.CsvNumbers
import AccountServices.Portfolio.PositionTable
import AccountServices.Portfolio.PositionLoading
import AccountServices.Risk.RiskManager
import AccountServices.Execution.SessionState
import AccountServices.Execution.SlicePlan
import AccountServices.Core.World
import AccountServices.Order.Router
import AccountServices.Order.Handover
import AccountServices.Execution.Engine
import AccountServices.Core.EventLoop
import AccountServices.Order.Recovery
import AccountServices.Order.RecoveredBook
import AccountServices.Order.LatestSnapshots
import AccountServices.Order.CrashRecovery
import AccountServices.Execution.Budget
import AccountServices.Core.Settlement
import AccountServices.Core.Response
import AccountServices.Core.Request
import AccountServices.Core.TerminalStates
import AccountServices.Core.FundReservation
import AccountServices.Core.Archiving
import AccountServices.Core.WorkingReservation
import AccountServices.Core.Invariant
import AccountServices.Core.Atomicity
import AccountServices.Core.CancelRouting
import AccountServices.Core.Restart
import AccountServices.Core.OrderIds
import AccountServices.Core.Admission
import AccountServices.Foundation.Interference
import AccountServices.Core.Interleaving
import AccountServices.Core.CancelFanOut
import AccountServices.Core.SlotMirror
import AccountServices.Execution.Turns
import AccountServices.Execution.EngineRuns
import AccountServices.Execution.Stopping
import AccountServices.Execution.SingleChild
import AccountServices.Execution.SequentialClips
import AccountServices.Execution.ChildRecords
import AccountServices.Execution.TwapPacing
import AccountServices.Foundation.Lockstep
import AccountServices.Common.CanonicalKeys
import AccountServices.Order.KeyForms
import AccountServices.Execution.KeyForms
import AccountServices.Gateway.Mapper
import AccountServices.Gateway.Loop
import AccountServices.Gateway.SimBroker
import AccountServices.Gateway.SimOrders
import AccountServices.Logging.LogRing
import AccountServices.Logging.LogLaps
import AccountServices.Logging.AsyncLogger
import AccountServices.Logging.LossAccounting
import AccountServices.Logging.ReadNew
import AccountServices.Gateway.Moves
import AccountServices.Gateway.Lives
import AccountServices.Gateway.Orderly
import AccountServices.Gateway.Retries
import AccountServices.Gateway.Events
import AccountServices.Core.KeyInterchange
import AccountServices.Foundation.Windows
import AccountServices.Risk.RateLimit
import AccountServices.Risk.PriceLimits
import AccountServices.Core.RiskReservation
import AccountServices.Order.FillAccumulation
import AccountServices.Foundation.Stages
import AccountServices.Core.ConfigManager
import AccountServices.Core.ConfigLoading
import AccountServices.Foundation.SharedObject
import AccountServices.Shm.QueueAccesses
import AccountServices.Shm.QueueTraffic
import AccountServices.Foundation.SeqLock
import AccountServices.Shm.PoolAccesses
import AccountServices.Shm.PoolLinearizable
import AccountServices.Foundation.LockedRows
import AccountServices.Portfolio.RowLocks
import AccountServices.Api.PositionMonitor
import AccountServices.Core.HeldSlots
import AccountServices.Api.OrderApi
import AccountServices.Api.Desk
import AccountServices.Api.PlacedOrders
import AccountServices.Api.Batches
import AccountServices.Core.SentSlots
import AccountServices.Api.SentOrders
