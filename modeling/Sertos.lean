import Sertos.Lib.Trace
import Sertos.Lib.HandOver
import Sertos.Lib.Bundle
import Sertos.Lib.Countdown
import Sertos.Lib.Worklist
import Sertos.Lib.Ownership
import Sertos.Lib.Turns
import Sertos.Lib.Service
import Sertos.Lib.Shares
import Sertos.Lib.Bytes
import Sertos.Lib.Circular
import Sertos.Lib.Layout
import Sertos.Lib.Contexts
import Sertos.Lib.Rv32
import Sertos.Kernel
import Sertos.Scheduler
import Sertos.Links
import Sertos.PriorityInsertion
import Sertos.Task
import Sertos.Mutex
import Sertos.Invariant
import Sertos.Moves
import Sertos.Switching
import Sertos.Frames
import Sertos.DelayWalk
import Sertos.LinkedRuns
import Sertos.Steps
import Sertos.Startup
import Sertos.Calls
import Sertos.Representation
import Sertos.Preemption
import Sertos.WakeUp
import Sertos.Expiry
import Sertos.PeriodicDelay
import Sertos.Milliseconds
import Sertos.BlockingWindow
import Sertos.RoundRobin
import Sertos.Accounting
import Sertos.StatsQueries
import Sertos.RiscV
import Sertos.RiscVTrap
import Sertos.RiscVTimer
import Sertos.WindowsPort
import Sertos.StackFrames
import Sertos.Interleaving
import Sertos.LostWakeUp
import Sertos.MutualExclusion
import Sertos.MutexCalls
import Sertos.LockTimeout
import Sertos.PriorityBookkeeping
import Sertos.PriorityInheritance
import Sertos.SemTokens
import Sertos.Waiting
import Sertos.WaitOrder
import Sertos.Queue
import Sertos.QueueData
import Sertos.QueueWakeUps
import Sertos.StreamBuffer
import Sertos.StreamWakeUps
import Sertos.StreamData
import Sertos.StreamDeletion
import Sertos.Capacity
import Sertos.IsrVariants
import Sertos.Deletion
import Sertos.Lifecycle
import Sertos.Retirement
import Sertos.Cycle
import Sertos.CycleMoves
import Sertos.Snapshots
import Sertos.Orderly
import Sertos.TaskSections
import Sertos.RiscVLock
import Sertos.WakeUpStatus
import Sertos.BlockedReturn
import Sertos.Yielding
import Sertos.PriorityRestore
import Sertos.Suspension
import Sertos.TaskDeletion
import Sertos.SetPriority
import Sertos.Resorting
import Sertos.HeldPriority
import Sertos.Sleepers
import Sertos.PendingLocks
import Sertos.FailedLock
import Sertos.StateTable
import Sertos.Timer
import Sertos.TimerList
import Sertos.TimerSchedule
import Sertos.TimerCallbacks
import Sertos.TimerRounds
import Sertos.TimerRestarts
import Sertos.TimerStops
import Sertos.Pool
import Sertos.PoolBalance
import Sertos.CortexM
import Sertos.ContextSwitch
import Sertos.RiscVContext
import Sertos.Milliseconds
import Sertos.ObjectRuns
import Sertos.CriticalNesting
import Sertos.LinkedTasks
import Sertos.LinkedTaskRuns
