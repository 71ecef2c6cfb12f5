import AsyncResource.Lib.System
import AsyncResource.Lib.Tasks
import AsyncResource.Lib.RefCount
import AsyncResource.Lib.Refinement
import AsyncResource.OptionLock.Lock
import AsyncResource.OptionLock.Contention
import AsyncResource.OptionLock.Atomic
import AsyncResource.OptionLock.Forgotten
import AsyncResource.OptionLock.OnceCell
import AsyncResource.Suspend.Channel
import AsyncResource.Suspend.SendOnceShape
import AsyncResource.Suspend.SendOnceValue
import AsyncResource.Suspend.SendOnceSlot
import AsyncResource.Suspend.SendOnceBox
import AsyncResource.Suspend.SendOnceWake
import AsyncResource.Suspend.OneShot
import AsyncResource.Suspend.Listening
import AsyncResource.Suspend.Exclusive
import AsyncResource.Suspend.NotifyOnce
import AsyncResource.Suspend.ThreadIsolation
import AsyncResource.Suspend.Wakeable
import AsyncResource.Suspend.ChannelOrder
import AsyncResource.Suspend.LinkTryRecv
import AsyncResource.Suspend.LinkTimeout
import AsyncResource.Suspend.LinkNotice
import AsyncResource.Suspend.ChannelLock
import AsyncResource.Suspend.ChannelCancel
import AsyncResource.Suspend.OnceTracked
import AsyncResource.Suspend.NullWaker
import AsyncResource.Suspend.Faithful
import AsyncResource.Suspend.StreamStall
import AsyncResource.Pool.Capacity
import AsyncResource.Pool.Failures
import AsyncResource.Pool.Stranded
import AsyncResource.Pool.Registry
import AsyncResource.Pool.Busy
import AsyncResource.Pool.Closed
import AsyncResource.Pool.Shutdown
import AsyncResource.Pool.Vigil
import AsyncResource.Pool.Discard
import AsyncResource.Pool.HandOver
import AsyncResource.Pool.Idle
import AsyncResource.Pool.Drain
import AsyncResource.Pool.Timers
import AsyncResource.Pool.Serving
import AsyncResource.Util.Stop
import AsyncResource.Util.Unwinding
import AsyncResource.Util.Sentinel
import AsyncResource.Pool.Expiry
import AsyncResource.Pool.StaleTimer
import AsyncResource.Pool.Holders
import AsyncResource.Pool.Deadlines
import AsyncResource.Pool.Progress
import AsyncResource.Pool.Alone
import AsyncResource.Pool.Turn
import AsyncResource.Resource.LockPlaces
import AsyncResource.Suspend.ThreadFreed
