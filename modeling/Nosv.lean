import Nosv.Ext.Finmap
import Nosv.Ext.Lts
import Nosv.Ext.Pairing
import Nosv.Ext.Trace
import Nosv.Ext.SortedHeap
import Nosv.IoUring.Types
import Nosv.IoUring.Submission
import Nosv.IoUring.Driver
import Nosv.IoUring.Machine
import Nosv.IoUring.Moves
import Nosv.IoUring.Parking
import Nosv.IoUring.Threads
import Nosv.IoUring.Registry
import Nosv.IoUring.Traffic
import Nosv.IoUring.Withdrawals
import Nosv.IoUring.Accounts
import Nosv.IoUring.Contexts
import Nosv.IoUring.View
import Nosv.IoUring.Drain
import Nosv.IoUring.Admission
import Nosv.IoUring.Delivery
import Nosv.IoUring.Wakes
import Nosv.IoUring.Owned
import Nosv.IoUring.Dropped
import Nosv.IoUring.Shutdown
import Nosv.IoUring.Resting
import Nosv.IoUring.Order
import Nosv.IoUring.Revoked
import Nosv.IoUring.Fifo
import Nosv.IoUring.Releasing
import Nosv.IoUring.Finishing
import Nosv.IoUring.Overrun
import Nosv.Native
import Nosv.Task.Core
import Nosv.Task.Machine
import Nosv.Task.Wakes
import Nosv.Task.Join
import Nosv.Runtime.Core
import Nosv.Runtime.Machine
import Nosv.Runtime.Spawning
import Nosv.Runtime.Draining
import Nosv.Runtime.Teardown
import Nosv.Runtime.BlockOn
import Nosv.Timer.Core
import Nosv.Timer.Machine
import Nosv.Timer.Registered
import Nosv.Timer.Punctual
import Nosv.Timer.Closing
import Nosv.Timer.Returning
import Nosv.Timer.Pass
import Nosv.Io.Core
import Nosv.Io.Future
import Nosv.Io.Buffer
import Nosv.Io.Transfer
import Nosv.Io.File
import Nosv.Io.Positioned
import Nosv.Io.Net
import Nosv.Io.Exact
import Nosv.Io.Ready
import Nosv.Ext.Reentrancy
import Nosv.Ext.LockOrder
import Nosv.Locks.Programs
import Nosv.Locks.Unlocked
import Nosv.Locks.Ordered
import Nosv.Process.Contract
import Nosv.Process.Closed
import Nosv.Process.Fork
import Nosv.Process.Build
import Nosv.Process.Built
