import Mathlib.Data.Nat.Notation
import Mathlib.Data.BitVec

namespace UcosIII

def statScale (max : BitVec 32) : BitVec 32 × BitVec 32 :=
  if max < 400000 then (10000, 1)
  else if max < 4000000 then (1000, 10)
  else if max < 40000000 then (100, 100)
  else if max < 400000000 then (10, 1000)
  else (1, 10000)

/-- The counters of the idle task, and the usage computed from them. -/
structure StatCtrs where
  statTaskCtr : BitVec 32
  statTaskCtrRun : BitVec 32
  statTaskCtrMax : BitVec 32
  statTaskCPUUsage : BitVec 16
  statTaskCPUUsageMax : BitVec 16

def statOverall (c : StatCtrs) : StatCtrs :=
  let c := { c with statTaskCtrRun := c.statTaskCtr, statTaskCtr := 0 }
  if c.statTaskCtrMax > c.statTaskCtrRun then
    let (ctrMult, ctrDiv) := statScale c.statTaskCtrMax
    let ctrMax := c.statTaskCtrMax / ctrDiv
    let usage := (10000 - ctrMult * c.statTaskCtrRun / ctrMax).setWidth 16
    { c with
      statTaskCPUUsage := usage
      statTaskCPUUsageMax := if c.statTaskCPUUsageMax < usage then usage else c.statTaskCPUUsageMax }
  else { c with statTaskCPUUsage := 10000 }

/-- What the statistics task keeps in a task control block. -/
structure TaskCycles where
  cyclesTotal : BitVec 32
  cyclesTotalPrev : BitVec 32
  cpuUsage : BitVec 16
  cpuUsageMax : BitVec 16

/-- The first walk over the tasks: the tasks afterwards, and `cycles_total` from `sum` on. -/
def statCycles : BitVec 32 → List TaskCycles → BitVec 32 × List TaskCycles
  | sum, [] => (sum, [])
  | sum, c :: cs =>
    let c := { c with cyclesTotalPrev := c.cyclesTotal, cyclesTotal := 0 }
    let (total, cs) := statCycles (sum + c.cyclesTotalPrev) cs
    (total, c :: cs)

def cyclesScale (total : BitVec 32) : BitVec 32 × BitVec 32 :=
  if total > 0 then ((statScale total).1, total / (statScale total).2) else (0, 1)

def statTaskUsage (cyclesMult cyclesMax : BitVec 32) (c : TaskCycles) : TaskCycles :=
  let usage : BitVec 16 := (cyclesMult * c.cyclesTotalPrev / cyclesMax).setWidth 16
  let usage := if usage > 10000 then 10000 else usage
  { c with cpuUsage := usage, cpuUsageMax := if c.cpuUsageMax < usage then usage else c.cpuUsageMax }

def statTasks (cs : List TaskCycles) : List TaskCycles :=
  let (total, cs) := statCycles 0 cs
  let (cyclesMult, cyclesMax) := cyclesScale total
  cs.map (statTaskUsage cyclesMult cyclesMax)

end UcosIII
