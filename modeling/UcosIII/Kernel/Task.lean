import UcosIII.Kernel.Core

namespace UcosIII

def orCur (p : Option TcbId) : K TcbId :=
  match p with
  | some t => return t
  | none => getCur

def TCB.init (cfg : Cfg) : TCB where
  nextPtr := none
  prevPtr := none
  tickNextPtr := none
  tickPrevPtr := none
  tickSpokePtr := none
  pendDataTblPtr := none
  pendDataTblEntries := 0
  pendOn := .nothing
  pendStatus := .ok
  taskState := .rdy
  prio := cfg.prioMax
  timeQuanta := 0
  timeQuantaCtr := 0
  msgPtr := none
  msgSize := 0
  msgQ := MsgQ.init 0
  ts := 0
  semCtr := 0
  tickCtrPrev := tickThInit
  tickCtrMatch := 0
  tickRemain := 0
  flagsPend := 0
  flagsRdy := 0
  flagsOpt := 0
  suspendCtr := 0

def taskInitTCB (t : TcbId) : K Unit := do
  let cfg ← Prog.ask
  modTcb t fun _ => TCB.init cfg

/-- The arguments of `OSTaskCreate` that the kernel keeps or checks. -/
structure TaskArgs where
  tcb : Option TcbId
  hasTask : Bool
  prio : ℕ
  hasStk : Bool
  stkLimit : ℕ
  stkSize : ℕ
  qSize : ℕ
  timeQuanta : Tick
deriving DecidableEq

/-- The checks of `OSTaskCreate`: the error, or the task control block to set up. -/
def taskCreateCheck (cfg : Cfg) (s : OS) (a : TaskArgs) : Err ⊕ TcbId :=
  if s.intNestingCtr > 0 then .inl .taskCreateISR
  else match a.tcb with
  | none => .inl .tcbInvalid
  | some t =>
    if a.hasTask = false then .inl .taskInvalid
    else if a.hasStk = false then .inl .stkInvalid
    else if a.stkSize < cfg.stkSizeMin then .inl .stkSizeInvalid
    else if a.stkLimit ≥ a.stkSize then .inl .stkLimitInvalid
    else if a.prio ≥ cfg.prioMax then .inl .prioInvalid
    else if a.prio = cfg.prioMax - 1 ∧ t ≠ idleTaskTCB then .inl .prioInvalid
    else .inr t

def taskStart (t : TcbId) (a : TaskArgs) : K Unit := do
  taskInitTCB t
  let dflt := (← Prog.get).schedRoundRobinDfltTimeQuanta
  modTcb t fun c =>
    { c with
      prio := a.prio
      timeQuanta := a.timeQuanta
      timeQuantaCtr := if a.timeQuanta = 0 then dflt else a.timeQuanta
      msgQ := MsgQ.init a.qSize }
  prioInsert a.prio
  rdyListInsertTail t

def osTaskCreate (a : TaskArgs) : K Err := do
  match taskCreateCheck (← Prog.ask) (← Prog.get) a with
  | .inl e => return e
  | .inr t =>
    taskStart t a
    if (← Prog.get).running = false then return .none
    osSched
    return .none

def taskUnlink (t : TcbId) : K Unit := do
  let c ← getTcb t
  match c.taskState with
  | .rdy => rdyListRemove t
  | .suspended | .del => return ()
  | .dly | .dlySuspended => tickListRemove t
  | .pend | .pendSuspended | .pendTimeout | .pendTimeoutSuspended =>
    tickListRemove t
    match c.pendOn with
    | .nothing | .taskQ | .taskSem => return ()
    | .flag | .multi | .mutex | .q | .sem => pendListRemove t

def taskErase (t : TcbId) : K Unit := do
  taskUnlink t
  let _ ← msgQFreeAll (← getTcb t).msgQ
  taskInitTCB t
  modTcb t fun c => { c with taskState := .del }
  Prog.modify fun s => { s with cont := Function.update s.cont t .none }

def osTaskDel (p : Option TcbId) : K Err := do
  if (← Prog.get).intNestingCtr > 0 then return .taskDelISR
  if p = some idleTaskTCB then return .taskDelIdle
  let t ← orCur p
  if (← getTcb t).taskState = .del then return .stateInvalid
  taskErase t
  osSched
  return .none

def suspendTcb (t : TcbId) : K Err := do
  match (← getTcb t).taskState with
  | .rdy =>
    modTcb t fun c => { c with taskState := .suspended, suspendCtr := 1 }
    rdyListRemove t
    return .none
  | .dly =>
    modTcb t fun c => { c with taskState := .dlySuspended, suspendCtr := 1 }
    return .none
  | .pend =>
    modTcb t fun c => { c with taskState := .pendSuspended, suspendCtr := 1 }
    return .none
  | .pendTimeout =>
    modTcb t fun c => { c with taskState := .pendTimeoutSuspended, suspendCtr := 1 }
    return .none
  | .suspended | .dlySuspended | .pendSuspended | .pendTimeoutSuspended =>
    modTcb t fun c => { c with suspendCtr := c.suspendCtr + 1 }
    return .none
  | .del => return .stateInvalid

def taskSuspend (p : Option TcbId) : K Err := do
  let t ← orCur p
  let s ← Prog.get
  if some t = s.tcbCurPtr ∧ s.schedLockNestingCtr > 0 then return .schedLocked
  let e ← suspendTcb t
  if e = .stateInvalid then return e
  osSched
  return e

def osTaskSuspend (p : Option TcbId) : K Err := do
  if (← Prog.get).intNestingCtr > 0 then return .taskSuspendISR
  if p = some idleTaskTCB then return .taskSuspendIdle
  taskSuspend p

/-- Undoes one suspension of `t`; the last one leaves the task in state `st`. -/
def resumeInto (t : TcbId) (st : TaskState) : K Unit := do
  modTcb t fun c => { c with suspendCtr := c.suspendCtr - 1 }
  if (← getTcb t).suspendCtr = 0 then modTcb t fun c => { c with taskState := st }

def resumeTcb (t : TcbId) : K Err := do
  match (← getTcb t).taskState with
  | .rdy | .dly | .pend | .pendTimeout => return .taskNotSuspended
  | .suspended =>
    resumeInto t .rdy
    if (← getTcb t).suspendCtr = 0 then taskRdy t
    return .none
  | .dlySuspended =>
    resumeInto t .dly
    return .none
  | .pendSuspended =>
    resumeInto t .pend
    return .none
  | .pendTimeoutSuspended =>
    resumeInto t .pendTimeout
    return .none
  | .del => return .stateInvalid

def taskResume (t : TcbId) : K Err := do
  let e ← resumeTcb t
  if e = .stateInvalid then return e
  osSched
  return e

def osTaskResume (p : Option TcbId) : K Err := do
  let s ← Prog.get
  if s.intNestingCtr > 0 then return .taskResumeISR
  if p = none ∨ p = s.tcbCurPtr then return .taskResumeSelf
  taskResume (← Prog.deref p)

/-- Moves the ready task `t` to the list of priority `prio`: at its head, or at its tail. -/
def rdyChangePrio (t : TcbId) (prio : ℕ) (atHead : Bool) : K Unit := do
  rdyListRemove t
  modTcb t fun c => { c with prio := prio }
  prioInsert prio
  if atHead then rdyListInsertHead t else rdyListInsertTail t

def changePrioTcb (t : TcbId) (prioNew : ℕ) (self : Bool) : K Err := do
  let c ← getTcb t
  match c.taskState with
  | .rdy =>
    rdyChangePrio t prioNew self
    return .none
  | .dly | .suspended | .dlySuspended =>
    modTcb t fun c => { c with prio := prioNew }
    return .none
  | .pend | .pendTimeout | .pendSuspended | .pendTimeoutSuspended =>
    match c.pendOn with
    | .taskQ | .taskSem | .flag =>
      modTcb t fun c => { c with prio := prioNew }
      return .none
    | .mutex | .multi | .q | .sem =>
      pendListChangePrio t prioNew
      return .none
    | .nothing => return .none
  | .del => return .stateInvalid

def osTaskChangePrio (p : Option TcbId) (prioNew : ℕ) : K Err := do
  if (← Prog.get).intNestingCtr > 0 then return .taskChangePrioISR
  if prioNew ≥ (← Prog.ask).prioMax - 1 then return .prioInvalid
  let t ← orCur p
  let e ← changePrioTcb t prioNew (p = none)
  if e = .stateInvalid then return e
  osSched
  return e

def osTaskTimeQuantaSet (p : Option TcbId) (timeQuanta : Tick) : K Err := do
  let s ← Prog.get
  if s.intNestingCtr > 0 then return .setISR
  let t ← orCur p
  modTcb t fun c => { c with timeQuanta := if timeQuanta = 0 then s.schedRoundRobinDfltTimeQuanta else timeQuanta }
  modTcb t fun c => { c with timeQuantaCtr := if c.timeQuanta > c.timeQuantaCtr then c.timeQuanta else c.timeQuantaCtr }
  return .none

def pendOptValid (opt : Opt) : Bool := opt = optPendBlocking ∨ opt = optPendNonBlocking

/-- The options of a post to a task semaphore, of a mutex post and of the task pend-aborts. -/
def postOptValid (opt : Opt) : Bool := opt = optPostNone ∨ opt = optPostNoSched

def schedOpt (opt : Opt) : K Unit := do
  if opt &&& optPostNoSched = 0 then osSched

/-- `OSSched` by a call that has still `k` to do when its task runs again: the call has not returned. -/
def waitThen (k : Cont) : K (Option Ret) := do
  let t ← getCur
  Prog.modify fun s => { s with cont := Function.update s.cont t k }
  osSched
  return none

def osTaskSemPend (timeout : Tick) (opt : Opt) : K (Option Ret) := do
  let s ← Prog.get
  if s.intNestingCtr > 0 then return some { err := .pendISR }
  if pendOptValid opt = false then return some { err := .optInvalid }
  let t ← getCur
  let c ← getTcb t
  if c.semCtr > 0 then
    modTcb t fun c => { c with semCtr := c.semCtr - 1 }
    return some { err := .none, val := c.semCtr - 1, ts := c.ts }
  if opt &&& optPendNonBlocking ≠ 0 then return some { err := .pendWouldBlock }
  if s.schedLockNestingCtr > 0 then return some { err := .schedLocked }
  pend none .taskSem timeout
  waitThen .taskSemPend

def taskSemPendFinish : K Ret := do
  let c ← getTcb (← getCur)
  match c.pendStatus with
  | .ok => return { err := .none, val := c.semCtr, ts := c.ts }
  | .abort => return { err := .pendAbort, val := c.semCtr, ts := c.ts }
  | .timeout => return { err := .timeout, val := c.semCtr }
  | .del => return { err := .statusInvalid, val := c.semCtr }

def osTaskSemPendAbort (p : Option TcbId) (opt : Opt) : K Ret := do
  let s ← Prog.get
  if s.intNestingCtr > 0 then return { err := .pendAbortISR }
  if postOptValid opt = false then return { err := .optInvalid }
  if p = none ∨ p = s.tcbCurPtr then return { err := .pendAbortSelf }
  let t ← Prog.deref p
  if (← getTcb t).pendOn ≠ .taskSem then return { err := .pendAbortNone }
  pendAbort none t s.tsNow
  schedOpt opt
  return { err := .none, val := 1 }

def taskSemInc (t : TcbId) : K Ret := do
  let c ← getTcb t
  if c.semCtr = 0xFFFFFFFF then return { err := .semOvf }
  modTcb t fun c => { c with semCtr := c.semCtr + 1 }
  return { err := .none, val := c.semCtr + 1 }

def taskSemPost (p : Option TcbId) (opt : Opt) (ts : ℕ) : K Ret := do
  let t ← orCur p
  modTcb t fun c => { c with ts := ts }
  let c ← getTcb t
  match c.taskState with
  | .rdy | .dly | .suspended | .dlySuspended => taskSemInc t
  | .pend | .pendTimeout | .pendSuspended | .pendTimeoutSuspended =>
    if c.pendOn = .taskSem then
      post none t none 0 ts
      let ctr := (← getTcb t).semCtr
      schedOpt opt
      return { err := .none, val := ctr }
    else taskSemInc t
  | .del => return { err := .stateInvalid }

def osTaskSemPost (p : Option TcbId) (opt : Opt) : K Ret := do
  if postOptValid opt = false then return { err := .optInvalid }
  taskSemPost p opt (← tsGet)

def osTaskSemSet (p : Option TcbId) (cnt : ℕ) : K Ret := do
  if (← Prog.get).intNestingCtr > 0 then return { err := .setISR }
  let t ← orCur p
  let ctr := (← getTcb t).semCtr
  modTcb t fun c => { c with semCtr := cnt }
  return { err := .none, val := ctr }

def osTaskQFlush (p : Option TcbId) : K Ret := do
  if (← Prog.get).intNestingCtr > 0 then return { err := .flushISR }
  let t ← orCur p
  let (q, entries) ← msgQFreeAll (← getTcb t).msgQ
  modTcb t fun c => { c with msgQ := q }
  return { err := .none, val := entries }

def osTaskQPend (timeout : Tick) (opt : Opt) (hasSize : Bool) : K (Option Ret) := do
  let s ← Prog.get
  if s.intNestingCtr > 0 then return some { err := .pendISR }
  if hasSize = false then return some { err := .ptrInvalid }
  if pendOptValid opt = false then return some { err := .optInvalid }
  let t ← getCur
  let (q, r) ← msgQGet (← getTcb t).msgQ
  modTcb t fun c => { c with msgQ := q }
  if r.err = .none then return some r
  if opt &&& optPendNonBlocking ≠ 0 then return some { err := .pendWouldBlock }
  if s.schedLockNestingCtr > 0 then return some { err := .schedLocked }
  pend none .taskQ timeout
  waitThen .taskQPend

def taskQPendFinish : K Ret := do
  let c ← getTcb (← getCur)
  match c.pendStatus with
  | .ok => return { err := .none, msgPtr := c.msgPtr, msgSize := c.msgSize, ts := c.ts }
  | .abort => return { err := .pendAbort }
  | .timeout | .del => return { err := .timeout, ts := c.ts }

def osTaskQPendAbort (p : Option TcbId) (opt : Opt) : K Ret := do
  let s ← Prog.get
  if s.intNestingCtr > 0 then return { err := .pendAbortISR }
  if postOptValid opt = false then return { err := .optInvalid }
  if p = none ∨ p = s.tcbCurPtr then return { err := .pendAbortSelf }
  let t ← Prog.deref p
  if (← getTcb t).pendOn ≠ .taskQ then return { err := .pendAbortNone }
  pendAbort none t s.tsNow
  schedOpt opt
  return { err := .none, val := 1 }

def taskQPut (t : TcbId) (pVoid : Option ℕ) (msgSize : ℕ) (opt : Opt) (ts : ℕ) : K Err := do
  let (q, e) ← msgQPut (← getTcb t).msgQ pVoid msgSize opt ts
  modTcb t fun c => { c with msgQ := q }
  return e

def taskQPost (p : Option TcbId) (pVoid : Option ℕ) (msgSize : ℕ) (opt : Opt) (ts : ℕ) : K Err := do
  let t ← orCur p
  let c ← getTcb t
  match c.taskState with
  | .rdy | .dly | .suspended | .dlySuspended => taskQPut t pVoid msgSize opt ts
  | .pend | .pendTimeout | .pendSuspended | .pendTimeoutSuspended =>
    if c.pendOn = .taskQ then
      post none t pVoid msgSize ts
      schedOpt opt
      return .none
    else taskQPut t pVoid msgSize opt ts
  | .del => return .stateInvalid

def taskQPostOptValid (opt : Opt) : Bool :=
  opt = optPostFifo ∨ opt = optPostLifo ∨ opt = optPostFifo ||| optPostNoSched ∨ opt = optPostLifo ||| optPostNoSched

def osTaskQPost (p : Option TcbId) (pVoid : Option ℕ) (msgSize : ℕ) (opt : Opt) : K Err := do
  if taskQPostOptValid opt = false then return .optInvalid
  taskQPost p pVoid msgSize opt (← tsGet)

end UcosIII
