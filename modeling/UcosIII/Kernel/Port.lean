import UcosIII.Kernel.System

/-!
The port to Win32 (`os_cpu_c.c`). Every task has a thread, and a record about it at the base of its stack. The system
calls are taken to succeed; of threads and events, what the port makes of them is modelled. Names, traces and the hooks
of the application are left out.
-/

namespace UcosIII

abbrev StkId := ℕ

abbrev ThreadId := ℕ

inductive OSTaskState where
  | none | created | running | suspended | interrupted | terminating | terminated
deriving DecidableEq, Repr

structure WinEvent where
  signalled : Bool
  waiter : Option ThreadId
deriving DecidableEq

/-- A thread: how often it has been suspended, whether it waits for an event, and whether it is over. -/
structure WinThread where
  suspendCnt : ℕ
  waits : Bool
  exited : Bool
deriving DecidableEq

structure OSTask where
  nextPtr : Option StkId
  prevPtr : Option StkId
  ostcbPtr : Option TcbId
  taskState : OSTaskState
  threadID : ThreadId
  threadHandle : Option ThreadId
  initSignalPtr : Option WinEvent
  signalPtr : Option WinEvent
deriving DecidableEq

/-- `StkPtr` stands for the field of the task control blocks. Threads are numbered in the order of their creation, and
`incoming` tells in which states `OSCtxSw` and `OSIntCurTaskResume` have found the task to go on with, the last one
first. -/
structure Port where
  os : OS
  stkPtr : TcbId → Option StkId
  osTask : StkId → OSTask
  osTaskListPtr : Option StkId
  thread : ThreadId → WinThread
  nbrThreads : ℕ
  incoming : List OSTaskState

abbrev KW := Prog Cfg Port

namespace Port

def modOSTask (p : Port) (k : StkId) (f : OSTask → OSTask) : Port :=
  { p with osTask := Function.update p.osTask k (f (p.osTask k)) }

def modThread (p : Port) (i : ThreadId) (f : WinThread → WinThread) : Port :=
  { p with thread := Function.update p.thread i (f (p.thread i)) }

end Port

def onPort {α : Type} (m : K α) : KW α := Prog.zoom id Port.os (fun s p => { p with os := s }) m

def getOSTask (k : StkId) : KW OSTask := do return (← Prog.get).osTask k

def modOSTask (k : StkId) (f : OSTask → OSTask) : KW Unit := Prog.modify fun p => p.modOSTask k f

def modThread (i : ThreadId) (f : WinThread → WinThread) : KW Unit := Prog.modify fun p => p.modThread i f

section win32

def createThread : KW ThreadId := do
  let i := (← Prog.get).nbrThreads
  modThread i fun _ => { suspendCnt := 1, waits := false, exited := false }
  Prog.modify fun p => { p with nbrThreads := i + 1 }
  return i

def suspendThread (h : Option ThreadId) : KW Unit := do
  modThread (← Prog.deref h) fun c => { c with suspendCnt := c.suspendCnt + 1 }

def resumeThread (h : Option ThreadId) : KW Unit := do
  modThread (← Prog.deref h) fun c => { c with suspendCnt := c.suspendCnt - 1 }

def terminateThread (h : Option ThreadId) : KW Unit := do
  modThread (← Prog.deref h) fun c => { c with exited := true }

def exitThread (self : ThreadId) : KW Unit := modThread self fun c => { c with exited := true }

/-- `SetEvent(p_task->SignalPtr)`: the event lets one thread go on. -/
def setSignal (k : StkId) : KW Unit := do
  let e ← Prog.deref (← getOSTask k).signalPtr
  match e.waiter with
  | none => modOSTask k fun c => { c with signalPtr := some { e with signalled := true } }
  | some i =>
    modOSTask k fun c => { c with signalPtr := some { e with waiter := none } }
    modThread i fun c => { c with waits := false }

/-- `WaitForSingleObject(p_task->SignalPtr, INFINITE)`, called by the thread `self`. -/
def waitSignal (self : ThreadId) (k : StkId) : KW Unit := do
  let e ← Prog.deref (← getOSTask k).signalPtr
  if e.signalled then modOSTask k fun c => { c with signalPtr := some { e with signalled := false } }
  else
    modOSTask k fun c => { c with signalPtr := some { e with waiter := some self } }
    modThread self fun c => { c with waits := true }

end win32

def osTaskGetStep (t : TcbId) : Option StkId → KW (Option StkId ⊕ Option StkId)
  | none => return .inr none
  | some k => do
    let c ← getOSTask k
    if c.ostcbPtr = some t then return .inr (some k)
    return .inl c.nextPtr

def osTaskGet (t : TcbId) : KW (Option StkId) := do
  let p ← Prog.get
  match p.stkPtr t with
  | some k => return some k
  | none => Prog.loop (osTaskGetStep t) p.osTaskListPtr

def osTaskStkInit (k : StkId) : KW Unit :=
  modOSTask k fun _ =>
    { nextPtr := none, prevPtr := none, ostcbPtr := none, taskState := .none, threadID := 0, threadHandle := none,
      initSignalPtr := none, signalPtr := none }

def osTaskCreateHook (t : TcbId) : KW Unit := do
  let k ← Prog.deref (← osTaskGet t)
  modOSTask k fun c => { c with signalPtr := some ⟨false, none⟩, initSignalPtr := some ⟨false, none⟩ }
  let i ← createThread
  modOSTask k fun c => { c with threadHandle := some i, threadID := i }
  modOSTask k fun c => { c with taskState := .created, ostcbPtr := some t, prevPtr := none }
  match (← Prog.get).osTaskListPtr with
  | none => modOSTask k fun c => { c with nextPtr := none }
  | some k1 =>
    modOSTask k fun c => { c with nextPtr := some k1 }
    modOSTask k1 fun c => { c with prevPtr := some k }
  Prog.modify fun p => { p with osTaskListPtr := some k }

def osTaskTerminate (k : StkId) : KW Unit := do
  modOSTask k fun c =>
    { c with
      ostcbPtr := none, taskState := .terminated, threadID := 0, threadHandle := none, initSignalPtr := none,
      signalPtr := none }
  let c ← getOSTask k
  match c.prevPtr with
  | none =>
    Prog.modify fun p => { p with osTaskListPtr := c.nextPtr }
    match c.nextPtr with
    | none => pure ()
    | some k1 => modOSTask k1 fun c => { c with prevPtr := none }
    modOSTask k fun c => { c with nextPtr := none }
  | some k0 =>
    match c.nextPtr with
    | none =>
      modOSTask k0 fun c => { c with nextPtr := none }
      modOSTask k fun c => { c with prevPtr := none }
    | some k1 =>
      modOSTask k0 fun c => { c with nextPtr := some k1 }
      modOSTask k1 fun c => { c with prevPtr := some k0 }
      modOSTask k fun c => { c with nextPtr := none, prevPtr := none }

def osTaskKill (k : StkId) : KW Unit := do
  terminateThread (← getOSTask k).threadHandle
  osTaskTerminate k

def osTaskDelHook (self : ThreadId) (t : TcbId) : KW Unit := do
  match ← osTaskGet t with
  | none => return ()
  | some k =>
    let c ← getOSTask k
    match c.taskState with
    | .running => if self = c.threadID then modOSTask k fun c => { c with taskState := .terminating } else osTaskKill k
    | .created | .suspended | .interrupted => osTaskKill k
    | .none | .terminating | .terminated => return ()

/-- A new thread runs `OSTaskW32` up to the signal that it has been set up. -/
def osTaskW32 (i : ThreadId) (t : TcbId) : KW Unit := do
  let k ← Prog.deref (← osTaskGet t)
  modOSTask k fun c => { c with taskState := .suspended }
  waitSignal i k
  modOSTask k fun c => { c with taskState := .running, initSignalPtr := some ⟨true, none⟩ }

/-- `ResumeThread` for a thread that has not run yet, and `SignalObjectAndWait`, which waits until it has set up its
task `t`. -/
def startThread (k : StkId) (t : TcbId) : KW Unit := do
  let c ← getOSTask k
  resumeThread c.threadHandle
  setSignal k
  osTaskW32 c.threadID t

/-- The task `t`, with its record at `k`, goes on; `false` if the state of the task does not allow it. -/
def goOn (k : StkId) (t : TcbId) : KW Bool := do
  let c ← getOSTask k
  Prog.modify fun p => { p with incoming := c.taskState :: p.incoming }
  match c.taskState with
  | .created =>
    startThread k t
    return true
  | .suspended =>
    modOSTask k fun c => { c with taskState := .running }
    setSignal k
    return true
  | .interrupted =>
    modOSTask k fun c => { c with taskState := .running }
    resumeThread c.threadHandle
    return true
  | .none | .running | .terminating | .terminated => return false

def osStartHighRdy : KW Unit := do
  let t ← Prog.deref (← Prog.get).os.tcbHighRdyPtr
  startThread (← Prog.deref (← osTaskGet t)) t

/-- `OSCtxSw`, called by the thread `self`; it returns when the thread goes on. -/
def osCtxSw (self : ThreadId) : KW Unit := do
  let cur ← Prog.deref (← osTaskGet (← Prog.deref (← Prog.get).os.tcbCurPtr))
  onPort ctxSw
  if (← getOSTask cur).taskState = .running then modOSTask cur fun c => { c with taskState := .suspended }
  let t ← Prog.deref (← Prog.get).os.tcbHighRdyPtr
  if ← goOn (← Prog.deref (← osTaskGet t)) t then
    if (← getOSTask cur).taskState = .terminating then
      osTaskTerminate cur
      exitThread self
    else waitSignal self cur

def osIntCurTaskSuspend : KW Bool := do
  let k ← Prog.deref (← osTaskGet (← Prog.deref (← Prog.get).os.tcbCurPtr))
  let c ← getOSTask k
  match c.taskState with
  | .running =>
    suspendThread c.threadHandle
    modOSTask k fun c => { c with taskState := .interrupted }
    return true
  | .terminating =>
    osTaskKill k
    return true
  | .none | .created | .suspended | .interrupted | .terminated => return false

def osIntCurTaskResume : KW Bool := do
  let t ← Prog.deref (← Prog.get).os.tcbHighRdyPtr
  goOn (← Prog.deref (← osTaskGet t)) t

/-- What `OSTickW32` does for a tick. `OSIntCtxSw` only sets the variables of the kernel. -/
def osTickW32 : KW Unit := do
  if ← osIntCurTaskSuspend then
    onPort osIntEnter
    onPort osTimeTick
    onPort osIntExit
    let _ ← osIntCurTaskResume

def osSchedW32 (self : ThreadId) : KW Unit := do
  let p ← Prog.get
  if p.os.intNestingCtr > 0 then return ()
  if p.os.schedLockNestingCtr > 0 then return ()
  let prio ← onPort prioGetHighest
  let l ← onPort (getRdyList prio)
  Prog.modify fun p => { p with os := { p.os with prioHighRdy := prio, tcbHighRdyPtr := l.headPtr } }
  if l.headPtr = p.os.tcbCurPtr then return ()
  osCtxSw self

/-- `OSTaskCreate` up to the critical section in which the task becomes ready; its stack is `k`. -/
def osTaskSetUp (t : TcbId) (k : StkId) : KW Unit := do
  osTaskStkInit k
  Prog.modify fun p => { p with stkPtr := Function.update p.stkPtr t (some k) }
  osTaskCreateHook t

/-- `OSTaskDel` up to its call of `OSSched`; `OS_TaskInitTCB` clears the stack pointer. -/
def osTaskDelW32 (self : ThreadId) (p : Option TcbId) : KW Err := do
  if (← Prog.get).os.intNestingCtr > 0 then return .taskDelISR
  if p = some idleTaskTCB then return .taskDelIdle
  let t ← onPort (orCur p)
  if (← onPort (getTcb t)).taskState = .del then return .stateInvalid
  osTaskDelHook self t
  onPort (taskErase t)
  Prog.modify fun p => { p with stkPtr := Function.update p.stkPtr t none }
  return .none

/-- The variables of the port as `OSInitHook` sets them; the thread of `main` has the number 1. -/
def Port.boot (cfg : Cfg) : Port where
  os := OS.boot cfg
  stkPtr _ := none
  osTask _ :=
    { nextPtr := none, prevPtr := none, ostcbPtr := none, taskState := .none, threadID := 0, threadHandle := none,
      initSignalPtr := none, signalPtr := none }
  osTaskListPtr := none
  thread _ := { suspendCnt := 0, waits := false, exited := true }
  nbrThreads := 2
  incoming := []

def kernelTaskW32 (t : TcbId) (k : StkId) (prio : ℕ) : KW Unit := do
  osTaskSetUp t k
  onPort (kernelTask t prio)

/-- `OSInit`, with the stacks of the tasks that it creates. -/
def osInitW32 (stk : TcbId → StkId) : KW Unit := do
  let cfg ← Prog.ask
  kernelTaskW32 idleTaskTCB (stk idleTaskTCB) (cfg.prioMax - 1)
  kernelTaskW32 tickTaskTCB (stk tickTaskTCB) cfg.tickTaskPrio
  kernelTaskW32 statTaskTCB (stk statTaskTCB) cfg.statTaskPrio
  kernelTaskW32 tmrTaskTCB (stk tmrTaskTCB) cfg.tmrTaskPrio

def osStartW32 : KW Unit := do
  let _ ← onPort osStart
  osStartHighRdy

end UcosIII
