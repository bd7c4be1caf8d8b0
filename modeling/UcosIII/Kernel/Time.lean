import UcosIII.Kernel.Task

namespace UcosIII

/-- The part that the delay calls share: the calling task is put on the tick wheel. -/
def timeDly (dly : Tick) (opt : Opt) : K Err := do
  let t ← getCur
  modTcb t fun c => { c with taskState := .dly }
  let e ← tickListInsert t dly opt
  if e ≠ .none then return e
  rdyListRemove t
  osSched
  return .none

def isRelative (opt : Opt) : Bool := opt = optTimeDly ∨ opt = optTimeTimeout ∨ opt = optTimePeriodic

def osTimeDly (dly : Tick) (opt : Opt) : K Err := do
  let s ← Prog.get
  if s.intNestingCtr > 0 then return .timeDlyISR
  if s.schedLockNestingCtr > 0 then return .schedLocked
  if isRelative opt ∧ dly = 0 then return .timeZeroDly
  if isRelative opt = false ∧ opt ≠ optTimeMatch then return .optInvalid
  timeDly dly opt

structure HMSM where
  hours : BitVec 16
  minutes : BitVec 16
  seconds : BitVec 16
  milli : BitVec 32
deriving DecidableEq

/-- The checks of the arguments of `OSTimeDlyHMSM`. -/
def hmsmCheck (a : HMSM) (opt : Opt) : Option Err :=
  let optTime := opt &&& optTimeMask
  if isRelative optTime ∧ a.milli = 0 ∧ a.seconds = 0 ∧ a.minutes = 0 ∧ a.hours = 0 then some .timeZeroDly
  else if isRelative optTime = false ∧ optTime ≠ optTimeMatch then some .optInvalid
  else if opt &&& ~~~ optTimeOptsMask ≠ 0 then some .optInvalid
  else if opt &&& optTimeHMSMNonStrict = 0 then
    if a.milli > 999 then some .timeInvalidMilliseconds
    else if a.seconds > 59 then some .timeInvalidSeconds
    else if a.minutes > 59 then some .timeInvalidMinutes
    else if a.hours > 99 then some .timeInvalidHours
    else none
  else
    if a.minutes > 9999 then some .timeInvalidMinutes
    else if a.hours > 999 then some .timeInvalidHours
    else none

/-- The number of ticks that `OSTimeDlyHMSM` waits, in 32-bit arithmetic. -/
def hmsmTicks (tickRate : Tick) (a : HMSM) : Tick :=
  (a.hours.setWidth 32 * 3600 + a.minutes.setWidth 32 * 60 + a.seconds.setWidth 32) * tickRate +
    (tickRate * (a.milli + 500 / tickRate)) / 1000

def osTimeDlyHMSM (a : HMSM) (opt : Opt) : K Err := do
  let s ← Prog.get
  if s.intNestingCtr > 0 then return .timeDlyISR
  if s.schedLockNestingCtr > 0 then return .schedLocked
  match hmsmCheck a opt with
  | some e => return e
  | none =>
    let ticks := hmsmTicks (BitVec.ofNat 32 (← Prog.ask).tickRateHz) a
    if ticks > 0 then timeDly ticks (opt &&& optTimeMask) else return .timeZeroDly

def osTimeGet : K Ret := do
  return { err := .none, val := (← Prog.get).tickCtr.toNat }

def osTimeSet (ticks : Tick) : K Err := do
  Prog.modify fun s => { s with tickCtr := ticks }
  return .none

def osTimeTick : K Unit := do
  let _ ← osTaskSemPost (some tickTaskTCB) optPostNone
  schedRoundRobin (← Prog.get).prioCur
  Prog.modify fun s => { s with tmrUpdateCtr := s.tmrUpdateCtr - 1 }
  let s ← Prog.get
  if s.tmrUpdateCtr = 0 then
    Prog.modify fun s => { s with tmrUpdateCtr := s.tmrUpdateCnt }
    let _ ← osTaskSemPost (some tmrTaskTCB) optPostNone

/-- The beginning of `OSStatTaskCPUUsageInit` (`os_stat.c`), which suspends the timer task while the idle counter is
measured: the answer that is given before another task runs or the calling task waits for the clock tick, if there is one. -/
def osStatTaskCPUUsageInit : K (Option Err) := do
  let cur := (← Prog.get).tcbCurPtr
  let e ← osTaskSuspend (some tmrTaskTCB)
  if e ≠ .none then return some e
  if (← Prog.get).tcbCurPtr ≠ cur then return none
  let e ← osTimeDly 2 optTimeDly
  if e ≠ .none then return some e
  return none

end UcosIII
