import UcosIII.Kernel.Semaphore
import UcosIII.Kernel.Mutex
import UcosIII.Kernel.Flag
import UcosIII.Kernel.PendMulti
import UcosIII.Kernel.Time

/-!
The kernel as a whole: the calls that tasks and interrupt handlers make, what else can happen, and the
runs from `OSInit` on. A call that waits has not returned when another task runs; it goes on from where
it waits, with `finish`, once its task runs again.
-/

namespace UcosIII

inductive Call where
  | taskCreate (a : TaskArgs)
  | taskDel (p : Option TcbId)
  | taskSuspend (p : Option TcbId)
  | taskResume (p : Option TcbId)
  | taskChangePrio (p : Option TcbId) (prioNew : ℕ)
  | taskTimeQuantaSet (p : Option TcbId) (timeQuanta : Tick)
  | taskSemPend (timeout : Tick) (opt : Opt)
  | taskSemPendAbort (p : Option TcbId) (opt : Opt)
  | taskSemPost (p : Option TcbId) (opt : Opt)
  | taskSemSet (p : Option TcbId) (cnt : ℕ)
  | taskQPend (timeout : Tick) (opt : Opt) (hasSize : Bool)
  | taskQPendAbort (p : Option TcbId) (opt : Opt)
  | taskQPost (p : Option TcbId) (pVoid : Option ℕ) (msgSize : ℕ) (opt : Opt)
  | taskQFlush (p : Option TcbId)
  | semCreate (p : Option ObjId) (cnt : ℕ)
  | semPend (p : Option ObjId) (timeout : Tick) (opt : Opt)
  | semPendAbort (p : Option ObjId) (opt : Opt)
  | semPost (p : Option ObjId) (opt : Opt)
  | semSet (p : Option ObjId) (cnt : ℕ)
  | qCreate (p : Option ObjId) (maxQty : ℕ)
  | qPend (p : Option ObjId) (timeout : Tick) (opt : Opt) (hasSize : Bool)
  | qPendAbort (p : Option ObjId) (opt : Opt)
  | qPost (p : Option ObjId) (pVoid : Option ℕ) (msgSize : ℕ) (opt : Opt)
  | mutexCreate (p : Option ObjId)
  | mutexPend (p : Option ObjId) (timeout : Tick) (opt : Opt)
  | mutexPost (p : Option ObjId) (opt : Opt)
  | flagCreate (p : Option ObjId) (flags : Flags)
  | flagPend (p : Option ObjId) (flags : Flags) (timeout : Tick) (opt : Opt)
  | flagPendGetFlagsRdy
  | flagPost (p : Option ObjId) (flags : Flags) (opt : Opt)
  | pendMulti (tbl : Option ℕ) (objs : List (Option ObjId)) (timeout : Tick) (opt : Opt)
  | timeDly (dly : Tick) (opt : Opt)
  | timeDlyHMSM (a : HMSM) (opt : Opt)
  | timeGet
  | timeSet (ticks : Tick)
  | schedLock
  | schedUnlock
  | schedRoundRobinCfg (en : Bool) (dfltTimeQuanta : Tick)
  | schedRoundRobinYield
deriving DecidableEq

/-- What can happen: a call, the rest of a call that waited, the start of multitasking, the entry and exit
of an interrupt handler, the tick interrupt, one turn of the tick task, and the passing of time. -/
inductive Event where
  | call (c : Call)
  | finish
  | start
  | intEnter
  | intExit
  | timeTick
  | tickUpdate
  | clock (ts : ℕ)
deriving DecidableEq

def osStart : K Err := do
  if (← Prog.get).running then return .osRunning
  let p ← prioGetHighest
  let l ← getRdyList p
  Prog.modify fun s =>
    { s with prioHighRdy := p, prioCur := p, tcbHighRdyPtr := l.headPtr, tcbCurPtr := l.headPtr, running := true }
  return .fatalReturn

def errOnly (m : K Err) : K (Option Ret) := do return some { err := ← m }

def always (m : K Ret) : K (Option Ret) := do return some (← m)

def Call.exec : Call → K (Option Ret)
  | taskCreate a => errOnly (osTaskCreate a)
  | taskDel p => errOnly (osTaskDel p)
  | taskSuspend p => errOnly (osTaskSuspend p)
  | taskResume p => errOnly (osTaskResume p)
  | taskChangePrio p prioNew => errOnly (osTaskChangePrio p prioNew)
  | taskTimeQuantaSet p timeQuanta => errOnly (osTaskTimeQuantaSet p timeQuanta)
  | taskSemPend timeout opt => osTaskSemPend timeout opt
  | taskSemPendAbort p opt => always (osTaskSemPendAbort p opt)
  | taskSemPost p opt => always (osTaskSemPost p opt)
  | taskSemSet p cnt => always (osTaskSemSet p cnt)
  | taskQPend timeout opt hasSize => osTaskQPend timeout opt hasSize
  | taskQPendAbort p opt => always (osTaskQPendAbort p opt)
  | taskQPost p pVoid msgSize opt => errOnly (osTaskQPost p pVoid msgSize opt)
  | taskQFlush p => always (osTaskQFlush p)
  | semCreate p cnt => errOnly (osSemCreate p cnt)
  | semPend p timeout opt => osSemPend p timeout opt
  | semPendAbort p opt => always (osSemPendAbort p opt)
  | semPost p opt => always (osSemPost p opt)
  | semSet p cnt => errOnly (osSemSet p cnt)
  | qCreate p maxQty => errOnly (osQCreate p maxQty)
  | qPend p timeout opt hasSize => osQPend p timeout opt hasSize
  | qPendAbort p opt => always (osQPendAbort p opt)
  | qPost p pVoid msgSize opt => errOnly (osQPost p pVoid msgSize opt)
  | mutexCreate p => errOnly (osMutexCreate p)
  | mutexPend p timeout opt => osMutexPend p timeout opt
  | mutexPost p opt => errOnly (osMutexPost p opt)
  | flagCreate p flags => errOnly (osFlagCreate p flags)
  | flagPend p flags timeout opt => osFlagPend p flags timeout opt
  | flagPendGetFlagsRdy => always osFlagPendGetFlagsRdy
  | flagPost p flags opt => osFlagPost p flags opt
  | pendMulti tbl objs timeout opt => osPendMulti tbl objs timeout opt
  | timeDly dly opt => errOnly (osTimeDly dly opt)
  | timeDlyHMSM a opt => errOnly (osTimeDlyHMSM a opt)
  | timeGet => always osTimeGet
  | timeSet ticks => errOnly (osTimeSet ticks)
  | schedLock => errOnly osSchedLock
  | schedUnlock => errOnly osSchedUnlock
  | schedRoundRobinCfg en dfltTimeQuanta => errOnly (osSchedRoundRobinCfg en dfltTimeQuanta)
  | schedRoundRobinYield => errOnly osSchedRoundRobinYield

/-- What the call of a task has still to do after its wait. -/
def Cont.run : Cont → K (Option Ret)
  | none => return some { err := .none }
  | semPend o => always (semPendFinish o)
  | qPend => always qPendFinish
  | mutexPend _ => always mutexPendFinish
  | flagPend o mode consume => always (flagPendFinish o mode consume)
  | flagPost o => always (flagPostFinish o)
  | multiPend => always multiPendFinish
  | taskSemPend => always taskSemPendFinish
  | taskQPend => always taskQPendFinish

def finish : K (Option Ret) := do
  let t ← getCur
  let k := (← Prog.get).cont t
  Prog.modify fun s => { s with cont := Function.update s.cont t .none }
  k.run

def noAnswer (m : K Unit) : K (Option Ret) := do m; return none

def Event.exec : Event → K (Option Ret)
  | call c => c.exec
  | finish => UcosIII.finish
  | start => errOnly osStart
  | intEnter => noAnswer osIntEnter
  | intExit => noAnswer osIntExit
  | timeTick => noAnswer osTimeTick
  | tickUpdate => noAnswer tickListUpdate
  | clock ts => noAnswer (Prog.modify fun s => { s with tsNow := ts })

def Call.creates : Call → Option (ObjId × ObjType)
  | semCreate p _ => p.map (·, .sem)
  | qCreate p _ => p.map (·, .q)
  | mutexCreate p => p.map (·, .mutex)
  | flagCreate p _ => p.map (·, .flag)
  | _ => none

/-- The calls that set up tasks and objects, which may precede `OSStart`. -/
def Call.setsUp : Call → Bool
  | taskCreate _ | semCreate .. | qCreate .. | mutexCreate _ | flagCreate .. => true
  | _ => false

def Call.starts : Call → Option TcbId
  | taskCreate a => a.tcb
  | _ => none

/-- What callers keep to: a task control block is set up while it is dormant, an object while no task
waits on it, and never as an object of another kind. -/
def Call.Fair (s : OS) (c : Call) : Prop :=
  (∀ t ∈ c.starts, (s.tcb t).taskState = .del) ∧
  ∀ x ∈ c.creates, (s.obj x.1).type = .none ∨ (s.obj x.1).type = x.2 ∧ (s.obj x.1).pendList.nbrEntries = 0

/-- The current task is running, and not in the middle of a call. -/
def OS.atTask (s : OS) : Prop :=
  s.running = true ∧ s.intNestingCtr = 0 ∧ ∀ t ∈ s.tcbCurPtr, s.cont t = .none

/-- When an event can happen: tasks and interrupt handlers make calls, one at a time. -/
def Enabled (s : OS) : Event → Prop
  | .call c => c.Fair s ∧ (s.atTask ∨ s.running = true ∧ 0 < s.intNestingCtr ∨ s.running = false ∧ c.setsUp = true)
  | .finish => s.running = true ∧ s.intNestingCtr = 0 ∧ ∃ t ∈ s.tcbCurPtr, s.cont t ≠ .none
  | .start => s.running = false
  | .intEnter => s.running = true
  | .intExit | .timeTick => s.running = true ∧ 0 < s.intNestingCtr
  | .tickUpdate => s.atTask ∧ s.tcbCurPtr = some tickTaskTCB
  | .clock _ => True

section initial

def TCB.dormant (cfg : Cfg) : TCB := { TCB.init cfg with taskState := .del }

/-- The variables as `OSInit` sets them, before it creates the tasks of the kernel. -/
def OS.boot (cfg : Cfg) : OS where
  tcb _ := TCB.dormant cfg
  obj _ :=
    { type := .none, pendList := pendListEmpty, ctr := 0, msgQ := MsgQ.init 0, ownerTCBPtr := none,
      ownerOriginalPrio := 0, ownerNestingCtr := 0, flags := 0, ts := 0 }
  pendData _ :=
    { prevPtr := none, nextPtr := none, tcbPtr := none, pendObjPtr := none, rdyObjPtr := none, rdyMsgPtr := none,
      rdyMsgSize := 0, rdyTS := 0 }
  msg m :=
    { nextPtr := if m + 1 < cfg.msgPoolSize then some (m + 1) else none, msgPtr := none, msgSize := 0, msgTS := 0 }
  msgPool := { nextPtr := some 0, nbrFree := cfg.msgPoolSize, nbrUsed := 0, nbrUsedMax := 0 }
  prioTbl _ := 0
  rdyList _ := { headPtr := none, tailPtr := none, nbrEntries := 0 }
  tickWheel _ := { firstPtr := none, nbrEntries := 0, nbrEntriesMax := 0 }
  tickCtr := 0
  tcbCurPtr := none
  tcbHighRdyPtr := none
  prioCur := 0
  prioHighRdy := 0
  intNestingCtr := 0
  schedLockNestingCtr := 0
  running := false
  schedRoundRobinEn := false
  schedRoundRobinDfltTimeQuanta := BitVec.ofNat 32 (cfg.tickRateHz / 10)
  tmrUpdateCtr := BitVec.ofNat 32 (cfg.tickRateHz / if cfg.tmrTaskRateHz > 0 then cfg.tmrTaskRateHz else 10)
  tmrUpdateCnt := BitVec.ofNat 32 (cfg.tickRateHz / if cfg.tmrTaskRateHz > 0 then cfg.tmrTaskRateHz else 10)
  tsNow := 0
  cont _ := .none

/-- A task of the kernel, whose arguments pass the checks of `OSTaskCreate`. -/
def kernelTask (t : TcbId) (prio : ℕ) : K Unit :=
  taskStart t
    { tcb := some t, hasTask := true, prio := prio, hasStk := true, stkLimit := 0, stkSize := 0, qSize := 0,
      timeQuanta := 0 }

def osInit : K Unit := do
  let cfg ← Prog.ask
  kernelTask idleTaskTCB (cfg.prioMax - 1)
  kernelTask tickTaskTCB cfg.tickTaskPrio
  kernelTask statTaskTCB cfg.statTaskPrio
  kernelTask tmrTaskTCB cfg.tmrTaskPrio

end initial

/-- One step of a run: the state before it, the event and the answer, `none` if a call has not returned. -/
structure Step where
  pre : OS
  event : Event
  ret : Option Ret

def Step.Fits (cfg : Cfg) (x : Step) : Prop := Prog.Fits cfg x.event.exec x.pre

def NoWrap (cfg : Cfg) (h : List Step) : Prop := ∀ x ∈ h, x.Fits cfg

/-- The runs from `OSInit` on, the last step first. Every step keeps to `P`, which may look back on the
steps before it. The counters are read as the machine has them or as numbers. -/
inductive RunIn (c : Reading) (cfg : Cfg) (P : List Step → Step → Prop) : List Step → OS → Prop
  | init {s : OS} (h : Prog.RunsIn c cfg osInit (OS.boot cfg) () s) : RunIn c cfg P [] s
  | step {h : List Step} {s s' : OS} {e : Event} {r : Option Ret} (run : RunIn c cfg P h s) (enabled : Enabled s e)
      (exec : Prog.RunsIn c cfg e.exec s r s') (keeps : P h ⟨s, e, r⟩) : RunIn c cfg P (⟨s, e, r⟩ :: h) s'

/-- The runs of the code, whose counters have 16 bits. -/
abbrev CodeRun := RunIn .word

/-- The runs in which the counters are natural numbers. -/
abbrev Run := RunIn .nat

theorem RunIn.mono {c : Reading} {cfg : Cfg} {P P' : List Step → Step → Prop} {h : List Step} {s : OS}
    (run : RunIn c cfg P h s) (hP : ∀ h x, P h x → P' h x) : RunIn c cfg P' h s := by
  induction run with
  | init hs => exact .init hs
  | step _ he hx hk ih => exact .step ih he hx (hP _ _ hk)

end UcosIII
