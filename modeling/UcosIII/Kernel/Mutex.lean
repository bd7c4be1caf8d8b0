import UcosIII.Kernel.Task

namespace UcosIII

def osMutexCreate (p : Option ObjId) : K Err := do
  if (← Prog.get).intNestingCtr > 0 then return .createISR
  match p with
  | none => return .objPtrNull
  | some o =>
    let prioMax := (← Prog.ask).prioMax
    modObj o fun b =>
      { b with
        type := .mutex, ownerTCBPtr := none, ownerNestingCtr := 0, ts := 0, ownerOriginalPrio := prioMax,
        pendList := pendListEmpty }
    return .none

/-- Raises the owner `t` of a mutex to the priority of the calling task. -/
def mutexBoost (t : TcbId) (prio : ℕ) : K Err := do
  match (← getTcb t).taskState with
  | .rdy =>
    rdyChangePrio t prio true
    return .none
  | .dly | .dlySuspended | .suspended =>
    modTcb t fun c => { c with prio := prio }
    return .none
  | .pend | .pendTimeout | .pendSuspended | .pendTimeoutSuspended =>
    pendListChangePrio t prio
    return .none
  | .del => return .stateInvalid

/-- The part of `OSMutexPend` where the calling task `t` finds the mutex taken and waits. -/
def mutexWait (o : ObjId) (t : TcbId) (timeout : Tick) : K (Option Ret) := do
  let owner ← Prog.deref (← getObj o).ownerTCBPtr
  let prio := (← getTcb t).prio
  let e ← if (← getTcb owner).prio > prio then mutexBoost owner prio else pure .none
  if e ≠ .none then return some { err := e }
  pend (some o) .mutex timeout
  waitThen (.mutexPend o)

def osMutexPend (p : Option ObjId) (timeout : Tick) (opt : Opt) : K (Option Ret) := do
  let s ← Prog.get
  if s.intNestingCtr > 0 then return some { err := .pendISR }
  match p with
  | none => return some { err := .objPtrNull }
  | some o =>
    if pendOptValid opt = false then return some { err := .optInvalid }
    let b ← getObj o
    if b.type ≠ .mutex then return some { err := .objType }
    let t ← getCur
    if b.ownerNestingCtr = 0 then
      let prio := (← getTcb t).prio
      modObj o fun b => { b with ownerTCBPtr := some t, ownerOriginalPrio := prio, ownerNestingCtr := 1 }
      return some { err := .none, ts := b.ts }
    if some t = b.ownerTCBPtr then
      modObj o fun b => { b with ownerNestingCtr := b.ownerNestingCtr + 1 }
      return some { err := .mutexOwner, ts := b.ts }
    if opt &&& optPendNonBlocking ≠ 0 then return some { err := .pendWouldBlock }
    if s.schedLockNestingCtr > 0 then return some { err := .schedLocked }
    mutexWait o t timeout

def mutexPendFinish : K Ret := do
  let c ← getTcb (← getCur)
  match c.pendStatus with
  | .ok => return { err := .none, ts := c.ts }
  | .abort => return { err := .pendAbort, ts := c.ts }
  | .timeout => return { err := .timeout }
  | .del => return { err := .objDel, ts := c.ts }

/-- Gives the calling task `t` the priority saved when it took the mutex. -/
def mutexRestore (o : ObjId) (t : TcbId) : K Unit := do
  let prio := (← getObj o).ownerOriginalPrio
  if (← getTcb t).prio ≠ prio then
    rdyChangePrio t prio false
    Prog.modify fun s => { s with prioCur := prio }

def mutexHandOff (o : ObjId) (ts : ℕ) : K Unit := do
  let e ← getPendData (← Prog.deref (← getObj o).pendList.headPtr)
  let t ← Prog.deref e.tcbPtr
  let prio := (← getTcb t).prio
  modObj o fun b => { b with ownerTCBPtr := some t, ownerOriginalPrio := prio, ownerNestingCtr := 1 }
  post (some o) t none 0 ts

def osMutexPost (p : Option ObjId) (opt : Opt) : K Err := do
  let s ← Prog.get
  if s.intNestingCtr > 0 then return .postISR
  match p with
  | none => return .objPtrNull
  | some o =>
    if postOptValid opt = false then return .optInvalid
    let b ← getObj o
    if b.type ≠ .mutex then return .objType
    let t ← getCur
    if some t ≠ b.ownerTCBPtr then return .mutexNotOwner
    modObj o fun b => { b with ts := s.tsNow, ownerNestingCtr := b.ownerNestingCtr - 1 }
    if (← getObj o).ownerNestingCtr > 0 then return .mutexNesting
    if b.pendList.nbrEntries = 0 then
      modObj o fun b => { b with ownerTCBPtr := none, ownerNestingCtr := 0 }
      return .none
    mutexRestore o t
    mutexHandOff o s.tsNow
    schedOpt opt
    return .none

end UcosIII
