import UcosIII.Lists.RdyHeap
import UcosIII.Runs.BasePrio
import UcosIII.Runs.Broadcast
import UcosIII.Runs.CpuUsage
import UcosIII.Runs.DelayTicks
import UcosIII.Runs.Deletion
import UcosIII.Runs.Delivery
import UcosIII.Runs.FlagConsume
import UcosIII.Runs.FlagOrder
import UcosIII.Runs.IntPosts
import UcosIII.Runs.MsgPool
import UcosIII.Runs.OwnAbort
import UcosIII.Runs.OwnQueue
import UcosIII.Runs.Partition
import UcosIII.Runs.PendAbort
import UcosIII.Runs.Periodic
import UcosIII.Runs.Port
import UcosIII.Runs.Preemption
import UcosIII.Runs.PrioTable
import UcosIII.Runs.Requests
import UcosIII.Runs.RoundRobin
import UcosIII.Runs.SchedLock
import UcosIII.Runs.StatPass
import UcosIII.Runs.Suspension
import UcosIII.Runs.TickTimes
import UcosIII.Runs.TimeSet
import UcosIII.Runs.Timers
import UcosIII.Runs.Timestamps
import UcosIII.Runs.TmrCallbacks
