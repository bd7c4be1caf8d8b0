import UcosIII.Kernel.Task

namespace UcosIII

def storeTable : PdId → List (Option ObjId) → K Unit
  | _, [] => pure ()
  | d, o :: os => do
    modPendData d fun e => { e with pendObjPtr := o }
    storeTable (d.1, d.2 + 1) os

def pendMultiValidate : ℕ → PdId → K Bool
  | 0, _ => return true
  | k + 1, d => do
    match (← getPendData d).pendObjPtr with
    | none => return false
    | some o =>
      let b ← getObj o
      if b.type = .sem ∨ b.type = .q then pendMultiValidate k (d.1, d.2 + 1) else return false

/-- Takes what the object of entry `d` has to give; the answer tells whether there was something. -/
def pendMultiGetRdy1 (d : PdId) : K Bool := do
  modPendData d fun e =>
    { e with
      rdyObjPtr := none, rdyMsgPtr := none, rdyMsgSize := 0, rdyTS := 0, nextPtr := none, prevPtr := none,
      tcbPtr := none }
  let o ← Prog.deref (← getPendData d).pendObjPtr
  let b ← getObj o
  match b.type with
  | .q =>
    let (q, r) ← msgQGet b.msgQ
    modObj o fun b => { b with msgQ := q }
    if r.err = .none then
      modPendData d fun e =>
        { e with rdyObjPtr := e.pendObjPtr, rdyMsgPtr := r.msgPtr, rdyMsgSize := r.msgSize, rdyTS := r.ts }
      return true
    return false
  | .sem =>
    if b.ctr > 0 then
      modObj o fun b => { b with ctr := b.ctr - 1 }
      modPendData d fun e => { e with rdyObjPtr := e.pendObjPtr, rdyTS := b.ts }
      return true
    return false
  | .none | .flag | .mutex => return false

def pendMultiGetRdy : ℕ → PdId → K ℕ
  | 0, _ => return 0
  | k + 1, d => do
    let rdy ← pendMultiGetRdy1 d
    let nbrObjRdy ← pendMultiGetRdy k (d.1, d.2 + 1)
    return if rdy then nbrObjRdy + 1 else nbrObjRdy

def pendMultiWait1 (t : TcbId) (d : PdId) : K Unit := do
  modPendData d fun e => { e with tcbPtr := some t }
  let o ← Prog.deref (← getPendData d).pendObjPtr
  match (← getObj o).type with
  | .sem | .q => pendListInsertPrio o d
  | .none | .flag | .mutex => return ()

def pendMultiWait (d : PdId) (tblSize : ℕ) (timeout : Tick) : K Unit := do
  let t ← getCur
  modTcb t fun c =>
    { c with pendOn := .multi, pendStatus := .ok, pendDataTblEntries := tblSize, pendDataTblPtr := some d }
  taskBlock t timeout
  forEntries (pendMultiWait1 t) tblSize d

def osPendMulti (tbl : Option ℕ) (objs : List (Option ObjId)) (timeout : Tick) (opt : Opt) : K (Option Ret) := do
  let s ← Prog.get
  if s.intNestingCtr > 0 then return some { err := .pendISR }
  match tbl with
  | none => return some { err := .ptrInvalid }
  | some i =>
    let d := (← getCur, i)
    storeTable d objs
    if objs.length = 0 then return some { err := .ptrInvalid }
    if pendOptValid opt = false then return some { err := .optInvalid }
    if (← pendMultiValidate objs.length d) = false then return some { err := .objType }
    let nbrObjRdy ← pendMultiGetRdy objs.length d
    if nbrObjRdy > 0 then return some { err := .none, val := nbrObjRdy }
    if opt &&& optPendNonBlocking ≠ 0 then return some { err := .pendWouldBlock }
    if s.schedLockNestingCtr > 0 then return some { err := .schedLocked }
    pendMultiWait d objs.length timeout
    waitThen .multiPend

def multiPendFinish : K Ret := do
  let t ← getCur
  let c ← getTcb t
  modTcb t fun c => { c with pendStatus := .ok }
  match c.pendStatus with
  | .ok => return { err := .none, val := 1 }
  | .abort => return { err := .pendAbort, val := 1 }
  | .timeout => return { err := .timeout, val := 1 }
  | .del => return { err := .objDel, val := 1 }

end UcosIII
