import Kaya.Refine.Tree
import Kaya.Refine.Asl
import Kaya.Abstract.Nuc
import Kaya.Refine.Rep
import Kaya.Refine.Kill
import Kaya.Abstract.Inv
import Kaya.Abstract.Step
import Kaya.Abstract.Books
import Kaya.Abstract.Access
import Kaya.Abstract.Clock
import Kaya.Abstract.SoftBlock
import Kaya.Abstract.Ends
import Kaya.Abstract.Resume
import Kaya.Refine.Handlers
import Kaya.Refine.Boot
import Kaya.Lib.Run
import Kaya.Lib.Semaphore
import Kaya.Refine.Runs
import Kaya.Refine.Readout
import Kaya.Results.Places
import Kaya.Results.Semaphores
import Kaya.Results.Clock
import Kaya.Results.Resume
import Kaya.Results.SoftBlock
import Kaya.Nucleus.Devices
import Kaya.Results.Acknowledge
import Kaya.Abstract.Request
import Kaya.Results.Rendezvous
import Kaya.Lib.Calls
import Kaya.Results.SemaphoreMap
import Kaya.Lib.Siblings
import Kaya.Refine.Children
import Kaya.Results.Queues
import Kaya.Results.Trees
import Kaya.Abstract.Turnover
import Kaya.Results.RoundRobin
import Kaya.Lib.Ledger
import Kaya.Results.CpuTime
import Kaya.Refine.Vectors
import Kaya.Results.PassUp
import Kaya.Lib.Mutex
import Kaya.Support.InitProc
import Kaya.Support.SysSupport
import Kaya.Support.Pager
import Kaya.Support.Words
import Kaya.Results.SharedPages
import Kaya.Support.Moves
import Kaya.Support.DiskLock
import Kaya.Results.Transfers
import Kaya.Lib.Frames
import Kaya.Support.Tables
import Kaya.Support.Pool
import Kaya.Results.Residency
import Kaya.Results.FlatMemory
import Kaya.Lib.Drive
import Kaya.Support.Alone
import Kaya.Results.Faults
import Kaya.Lib.Holders
import Kaya.Support.Holding
import Kaya.Results.DeadHolders
import Kaya.Results.UserSyscalls
import Kaya.Results.Recycling
import Kaya.Results.Descriptors
import Kaya.Lib.Register
import Kaya.Results.Elapsed
import Kaya.Results.FrameSelection
import Kaya.Lib.Stores
import Kaya.Support.Loading
import Kaya.Results.ProgramImage
import Kaya.Results.StringLength
import Kaya.Support.Failing
import Kaya.Results.FailedTransfers
import Kaya.Results.TerminalHalves
import Kaya.Nucleus.Idle
import Kaya.Abstract.Served
import Kaya.Refine.Idle
import Kaya.Results.IdleBranch
import Kaya.Lib.Descent
import Kaya.Refine.Kin
import Kaya.Refine.Subtree
import Kaya.Results.Termination
import Kaya.Lib.Drain
import Kaya.Support.Draining
import Kaya.Results.NoDeadlock
import Kaya.Lib.Rotation
import Kaya.Results.Isolation
import Kaya.Results.Replacement
import Kaya.Support.Boot
import Kaya.Support.Handover
import Kaya.Results.Startup
import Kaya.Abstract.Proper
import Kaya.Results.TwoLevels
import Kaya.Results.CriticalSections
import Kaya.Support.Tapes
import Kaya.Results.Programs
import Kaya.Abstract.Deaths
import Kaya.Lib.Line
import Kaya.Results.BoundedWaiting
import Kaya.Results.LifeCycle
import Kaya.Abstract.SemAdd
import Kaya.Results.StaleTerminations
import Kaya.Results.Output
import Kaya.Results.SharedMemory
