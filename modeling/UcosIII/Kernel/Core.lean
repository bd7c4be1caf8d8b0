import UcosIII.Kernel.ReadyList
import UcosIII.Kernel.TickList
import UcosIII.Kernel.PendList
import UcosIII.Kernel.Message

/-!
The internal functions of `os_core.c` that make tasks wait and make them ready, the scheduler, and
the walk of `OS_TickListUpdate`.
-/

namespace UcosIII

@[grind =] def TaskState.isSuspended : TaskState → Bool
  | suspended | dlySuspended | pendSuspended | pendTimeoutSuspended | del => true
  | rdy | dly | pend | pendTimeout => false

def taskBlock (t : TcbId) (timeout : Tick) : K Unit := do
  if timeout > 0 then
    match ← tickListInsert t timeout optTimeTimeout with
    | .none => modTcb t fun c => { c with taskState := .pendTimeout }
    | _ => modTcb t fun c => { c with taskState := .pend }
  else modTcb t fun c => { c with taskState := .pend }
  rdyListRemove t

def taskRdy (t : TcbId) : K Unit := do
  tickListRemove t
  if (← getTcb t).taskState.isSuspended = false then rdyListInsert t

/-- `OS_Pend`, with the on-stack entry `pend_data` of the calling task. -/
def pend (o : Option ObjId) (pendingOn : PendOn) (timeout : Tick) : K Unit := do
  let t ← getCur
  modTcb t fun c => { c with pendOn := pendingOn, pendStatus := .ok }
  taskBlock t timeout
  match o with
  | some o =>
    modPendData (t, 0) fun e => { e with pendObjPtr := some o }
    pendDataInit t (t, 0) 1
    pendListInsertPrio o (t, 0)
  | none => modTcb t fun c => { c with pendDataTblEntries := 0, pendDataTblPtr := none }

/-- Ends the wait of `t`, which becomes ready, or plainly suspended if it was suspended. -/
def pendAbort (o : Option ObjId) (t : TcbId) (ts : ℕ) : K Unit := do
  let c ← getTcb t
  match c.taskState with
  | .rdy | .dly | .suspended | .dlySuspended | .del => return ()
  | .pend | .pendTimeout =>
    if c.pendOn = .multi then pendAbort1 o t ts
    modTcb t fun c => { c with msgPtr := none, msgSize := 0, ts := ts }
    if o ≠ none then pendListRemove t
    taskRdy t
    modTcb t fun c => { c with taskState := .rdy, pendStatus := .abort, pendOn := .nothing }
  | .pendSuspended | .pendTimeoutSuspended =>
    if c.pendOn = .multi then pendAbort1 o t ts
    modTcb t fun c => { c with msgPtr := none, msgSize := 0, ts := ts }
    if o ≠ none then pendListRemove t
    tickListRemove t
    modTcb t fun c => { c with taskState := .suspended, pendStatus := .abort, pendOn := .nothing }

def post (o : Option ObjId) (t : TcbId) (pVoid : Option ℕ) (msgSize ts : ℕ) : K Unit := do
  let c ← getTcb t
  match c.taskState with
  | .rdy | .dly | .suspended | .dlySuspended | .del => return ()
  | .pend | .pendTimeout =>
    if c.pendOn = .multi then post1 o t pVoid msgSize ts
    else modTcb t fun c => { c with msgPtr := pVoid, msgSize := msgSize, ts := ts }
    if o ≠ none then pendListRemove t
    taskRdy t
    modTcb t fun c => { c with taskState := .rdy, pendStatus := .ok, pendOn := .nothing }
  | .pendSuspended | .pendTimeoutSuspended =>
    if c.pendOn = .multi then post1 o t pVoid msgSize ts
    else modTcb t fun c => { c with msgPtr := pVoid, msgSize := msgSize, ts := ts }
    tickListRemove t
    if o ≠ none then pendListRemove t
    modTcb t fun c => { c with taskState := .suspended, pendStatus := .ok, pendOn := .nothing }

/-- `OSCtxSw` and `OSIntCtxSw`, as far as the kernel's variables go. -/
def ctxSw : K Unit := Prog.modify fun s => { s with tcbCurPtr := s.tcbHighRdyPtr, prioCur := s.prioHighRdy }

/-- The common part of `OSSched` and `OSIntExit`: switch to the head of the best ready list. -/
def reschedule : K Unit := do
  let p ← prioGetHighest
  let l ← getRdyList p
  Prog.modify fun s => { s with prioHighRdy := p, tcbHighRdyPtr := l.headPtr }
  if l.headPtr = (← Prog.get).tcbCurPtr then return ()
  let _ ← Prog.deref l.headPtr
  ctxSw

def osSched : K Unit := do
  let s ← Prog.get
  if s.intNestingCtr > 0 then return ()
  if s.schedLockNestingCtr > 0 then return ()
  reschedule

def osIntEnter : K Unit := do
  let s ← Prog.get
  if s.running = false then return ()
  if s.intNestingCtr ≥ 250 then return ()
  Prog.modify fun s => { s with intNestingCtr := s.intNestingCtr + 1 }

def osIntExit : K Unit := do
  let s ← Prog.get
  if s.running = false then return ()
  if s.intNestingCtr = 0 then return ()
  Prog.modify fun s => { s with intNestingCtr := s.intNestingCtr - 1 }
  if s.intNestingCtr - 1 > 0 then return ()
  if s.schedLockNestingCtr > 0 then return ()
  reschedule

def osSchedLock : K Err := do
  let s ← Prog.get
  if s.intNestingCtr > 0 then return .schedLockISR
  if s.running = false then return .osNotRunning
  if s.schedLockNestingCtr ≥ 250 then return .lockNestingOvf
  Prog.modify fun s => { s with schedLockNestingCtr := s.schedLockNestingCtr + 1 }
  return .none

def osSchedUnlock : K Err := do
  let s ← Prog.get
  if s.intNestingCtr > 0 then return .schedUnlockISR
  if s.running = false then return .osNotRunning
  if s.schedLockNestingCtr = 0 then return .schedNotLocked
  Prog.modify fun s => { s with schedLockNestingCtr := s.schedLockNestingCtr - 1 }
  if s.schedLockNestingCtr - 1 > 0 then return .schedLocked
  osSched
  return .none

def osSchedRoundRobinCfg (en : Bool) (dfltTimeQuanta : Tick) : K Err := do
  let rate := (← Prog.ask).tickRateHz
  Prog.modify fun s =>
    { s with
      schedRoundRobinEn := en
      schedRoundRobinDfltTimeQuanta := if dfltTimeQuanta > 0 then dfltTimeQuanta else BitVec.ofNat 32 (rate / 10) }
  return .none

/-- Loads the time slice of the new head of the list of priority `p`. -/
def loadTimeQuanta (p : ℕ) : K Unit := do
  let t ← Prog.deref (← getRdyList p).headPtr
  let dflt := (← Prog.get).schedRoundRobinDfltTimeQuanta
  modTcb t fun c => { c with timeQuantaCtr := if c.timeQuanta = 0 then dflt else c.timeQuanta }

def osSchedRoundRobinYield : K Err := do
  let s ← Prog.get
  if s.intNestingCtr > 0 then return .yieldISR
  if s.schedLockNestingCtr > 0 then return .schedLocked
  if s.schedRoundRobinEn = false then return .roundRobinDisabled
  if (← getRdyList s.prioCur).nbrEntries < 2 then return .roundRobin1
  rdyListMoveHeadToTail s.prioCur
  loadTimeQuanta s.prioCur
  osSched
  return .none

def schedRoundRobin (p : ℕ) : K Unit := do
  let s ← Prog.get
  if s.schedRoundRobinEn = false then return ()
  let l ← getRdyList p
  match l.headPtr with
  | none => return ()
  | some t =>
    if t = idleTaskTCB then return ()
    if (← getTcb t).timeQuantaCtr > 0 then modTcb t fun c => { c with timeQuantaCtr := c.timeQuantaCtr - 1 }
    if (← getTcb t).timeQuantaCtr > 0 then return ()
    if l.nbrEntries < 2 then return ()
    if s.schedLockNestingCtr > 0 then return ()
    rdyListMoveHeadToTail p
    loadTimeQuanta p

/-- What `OS_TickListUpdate` does with the entry `t`; the answer tells whether the walk is over. -/
def tickListExpire (t : TcbId) : K Bool := do
  let now := (← Prog.get).tickCtr
  let c ← getTcb t
  match c.taskState with
  | .rdy | .pend | .suspended | .pendSuspended | .del => return false
  | .dly =>
    modTcb t fun c => { c with tickRemain := c.tickCtrMatch - now }
    if now = c.tickCtrMatch then
      modTcb t fun c => { c with taskState := .rdy }
      taskRdy t
      return false
    else return true
  | .pendTimeout =>
    modTcb t fun c => { c with tickRemain := c.tickCtrMatch - now }
    if now = c.tickCtrMatch then
      let ts ← tsGet
      modTcb t fun c => { c with msgPtr := none, msgSize := 0, ts := ts }
      pendListRemove t
      taskRdy t
      modTcb t fun c => { c with taskState := .rdy, pendStatus := .timeout, pendOn := .nothing }
      return false
    else return true
  | .dlySuspended =>
    modTcb t fun c => { c with tickRemain := c.tickCtrMatch - now }
    if now = c.tickCtrMatch then
      modTcb t fun c => { c with taskState := .suspended }
      tickListRemove t
      return false
    else return true
  | .pendTimeoutSuspended =>
    modTcb t fun c => { c with tickRemain := c.tickCtrMatch - now }
    if now = c.tickCtrMatch then
      let ts ← tsGet
      modTcb t fun c => { c with msgPtr := none, msgSize := 0, ts := ts }
      pendListRemove t
      tickListRemove t
      modTcb t fun c => { c with taskState := .suspended, pendStatus := .timeout, pendOn := .nothing }
      return false
    else return true

def tickListUpdateStep (p : Option TcbId) : K (Option TcbId ⊕ Unit) :=
  match p with
  | none => return .inr ()
  | some t => do
    let next := (← getTcb t).tickNextPtr
    if ← tickListExpire t then return .inr () else return .inl next

def tickListUpdate : K Unit := do
  Prog.modify fun s => { s with tickCtr := s.tickCtr + 1 }
  let i := (← Prog.get).tickCtr.toNat % (← Prog.ask).tickWheelSize
  Prog.loop tickListUpdateStep (← getSpoke i).firstPtr

end UcosIII
