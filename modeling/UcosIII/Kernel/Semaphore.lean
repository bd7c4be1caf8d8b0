import UcosIII.Kernel.Task

namespace UcosIII

/-- The loop of `OS_SemPost` and `OS_QPost` over `cnt` entries from `p` on. -/
def postLoop (o : ObjId) (pVoid : Option ℕ) (msgSize ts : ℕ) : ℕ → Option PdId → K Unit
  | 0, _ => pure ()
  | cnt + 1, p => do
    let e ← getPendData (← Prog.deref p)
    let t ← Prog.deref e.tcbPtr
    post (some o) t pVoid msgSize ts
    postLoop o pVoid msgSize ts cnt e.nextPtr

/-- One turn of the loop of the pend-aborts, after `nbrTasks` of them. -/
def pendAbortStep (o : ObjId) (opt : Opt) (ts nbrTasks : ℕ) : K (ℕ ⊕ ℕ) := do
  let l := (← getObj o).pendList
  if l.nbrEntries = 0 then return .inr nbrTasks
  let e ← getPendData (← Prog.deref l.headPtr)
  let t ← Prog.deref e.tcbPtr
  pendAbort (some o) t ts
  if opt ≠ optPendAbortAll then return .inr (nbrTasks + 1)
  return .inl (nbrTasks + 1)

def pendAbortOptValid (opt : Opt) : Bool :=
  opt = optPendAbort1 ∨ opt = optPendAbortAll ∨ opt = optPendAbort1 ||| optPostNoSched ∨
    opt = optPendAbortAll ||| optPostNoSched

/-- `OSSemPendAbort` and `OSQPendAbort`, which differ in the type of the object. -/
def objPendAbort (type : ObjType) (p : Option ObjId) (opt : Opt) : K Ret := do
  let s ← Prog.get
  if s.intNestingCtr > 0 then return { err := .pendAbortISR }
  match p with
  | none => return { err := .objPtrNull }
  | some o =>
    if pendAbortOptValid opt = false then return { err := .optInvalid }
    if (← getObj o).type ≠ type then return { err := .objType }
    if (← getObj o).pendList.nbrEntries = 0 then return { err := .pendAbortNone }
    let nbrTasks ← Prog.loop (pendAbortStep o opt s.tsNow) 0
    schedOpt opt
    return { err := .none, val := nbrTasks }

def osSemCreate (p : Option ObjId) (cnt : ℕ) : K Err := do
  if (← Prog.get).intNestingCtr > 0 then return .createISR
  match p with
  | none => return .objPtrNull
  | some o =>
    modObj o fun b => { b with type := .sem, ctr := cnt, ts := 0, pendList := pendListEmpty }
    return .none

def osSemPend (p : Option ObjId) (timeout : Tick) (opt : Opt) : K (Option Ret) := do
  let s ← Prog.get
  if s.intNestingCtr > 0 then return some { err := .pendISR }
  match p with
  | none => return some { err := .objPtrNull }
  | some o =>
    if pendOptValid opt = false then return some { err := .optInvalid }
    let b ← getObj o
    if b.type ≠ .sem then return some { err := .objType }
    if b.ctr > 0 then
      modObj o fun b => { b with ctr := b.ctr - 1 }
      return some { err := .none, val := b.ctr - 1, ts := b.ts }
    if opt &&& optPendNonBlocking ≠ 0 then return some { err := .pendWouldBlock, val := b.ctr }
    if s.schedLockNestingCtr > 0 then return some { err := .schedLocked }
    pend (some o) .sem timeout
    waitThen (.semPend o)

def semPendFinish (o : ObjId) : K Ret := do
  let c ← getTcb (← getCur)
  let b ← getObj o
  match c.pendStatus with
  | .ok => return { err := .none, val := b.ctr, ts := c.ts }
  | .abort => return { err := .pendAbort, val := b.ctr, ts := c.ts }
  | .timeout => return { err := .timeout, val := b.ctr }
  | .del => return { err := .objDel, val := b.ctr, ts := c.ts }

def osSemPendAbort (p : Option ObjId) (opt : Opt) : K Ret := objPendAbort .sem p opt

def semPost (o : ObjId) (opt : Opt) (ts : ℕ) : K Ret := do
  let b ← getObj o
  if b.pendList.nbrEntries = 0 then
    if b.ctr = 0xFFFFFFFF then return { err := .semOvf }
    modObj o fun b => { b with ctr := b.ctr + 1, ts := ts }
    return { err := .none, val := b.ctr + 1 }
  let cnt := if opt &&& optPostAll ≠ 0 then b.pendList.nbrEntries else 1
  postLoop o none 0 ts cnt b.pendList.headPtr
  let ctr := (← getObj o).ctr
  schedOpt opt
  return { err := .none, val := ctr }

def semPostOptValid (opt : Opt) : Bool :=
  opt = optPost1 ∨ opt = optPostAll ∨ opt = optPost1 ||| optPostNoSched ∨ opt = optPostAll ||| optPostNoSched

def osSemPost (p : Option ObjId) (opt : Opt) : K Ret := do
  match p with
  | none => return { err := .objPtrNull }
  | some o =>
    if semPostOptValid opt = false then return { err := .optInvalid }
    if (← getObj o).type ≠ .sem then return { err := .objType }
    semPost o opt (← tsGet)

def osSemSet (p : Option ObjId) (cnt : ℕ) : K Err := do
  if (← Prog.get).intNestingCtr > 0 then return .setISR
  match p with
  | none => return .objPtrNull
  | some o =>
    let b ← getObj o
    if b.type ≠ .sem then return .objType
    if b.ctr > 0 ∨ b.pendList.nbrEntries = 0 then
      modObj o fun b => { b with ctr := cnt }
      return .none
    return .taskWaiting

def osQCreate (p : Option ObjId) (maxQty : ℕ) : K Err := do
  if (← Prog.get).intNestingCtr > 0 then return .createISR
  match p with
  | none => return .objPtrNull
  | some o =>
    if maxQty = 0 then return .qSize
    modObj o fun b => { b with type := .q, msgQ := MsgQ.init maxQty, pendList := pendListEmpty }
    return .none

def osQPend (p : Option ObjId) (timeout : Tick) (opt : Opt) (hasSize : Bool) : K (Option Ret) := do
  let s ← Prog.get
  if s.intNestingCtr > 0 then return some { err := .pendISR }
  match p with
  | none => return some { err := .objPtrNull }
  | some o =>
    if hasSize = false then return some { err := .ptrInvalid }
    if pendOptValid opt = false then return some { err := .optInvalid }
    if (← getObj o).type ≠ .q then return some { err := .objType }
    let (q, r) ← msgQGet (← getObj o).msgQ
    modObj o fun b => { b with msgQ := q }
    if r.err = .none then return some r
    if opt &&& optPendNonBlocking ≠ 0 then return some { err := .pendWouldBlock }
    if s.schedLockNestingCtr > 0 then return some { err := .schedLocked }
    pend (some o) .q timeout
    waitThen .qPend

def qPendFinish : K Ret := do
  let c ← getTcb (← getCur)
  match c.pendStatus with
  | .ok => return { err := .none, msgPtr := c.msgPtr, msgSize := c.msgSize, ts := c.ts }
  | .abort => return { err := .pendAbort, ts := c.ts }
  | .timeout => return { err := .timeout }
  | .del => return { err := .objDel, ts := c.ts }

def osQPendAbort (p : Option ObjId) (opt : Opt) : K Ret := objPendAbort .q p opt

def qPost (o : ObjId) (pVoid : Option ℕ) (msgSize : ℕ) (opt : Opt) (ts : ℕ) : K Err := do
  let b ← getObj o
  if b.pendList.nbrEntries = 0 then
    let postType := if opt &&& optPostLifo = 0 then optPostFifo else optPostLifo
    let (q, e) ← msgQPut b.msgQ pVoid msgSize postType ts
    modObj o fun b => { b with msgQ := q }
    return e
  let cnt := if opt &&& optPostAll ≠ 0 then b.pendList.nbrEntries else 1
  postLoop o pVoid msgSize ts cnt b.pendList.headPtr
  schedOpt opt
  return .none

def qPostOptValid (opt : Opt) : Bool :=
  taskQPostOptValid opt ∨ opt = optPostFifo ||| optPostAll ∨ opt = optPostLifo ||| optPostAll ∨
    opt = optPostFifo ||| optPostAll ||| optPostNoSched ∨ opt = optPostLifo ||| optPostAll ||| optPostNoSched

def osQPost (p : Option ObjId) (pVoid : Option ℕ) (msgSize : ℕ) (opt : Opt) : K Err := do
  match p with
  | none => return .objPtrNull
  | some o =>
    if qPostOptValid opt = false then return .optInvalid
    if (← getObj o).type ≠ .q then return .objType
    qPost o pVoid msgSize opt (← tsGet)

end UcosIII
