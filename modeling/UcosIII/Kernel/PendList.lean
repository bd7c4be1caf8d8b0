import UcosIII.Kernel.Types

namespace UcosIII

def pendListEmpty : PendList where
  headPtr := none
  tailPtr := none
  nbrEntries := 0

def modPendList (o : ObjId) (f : PendList → PendList) : K Unit :=
  modObj o fun b => { b with pendList := f b.pendList }

def incPendList (o : ObjId) : K Unit := do
  let k ← objQtyInc (← getObj o).pendList.nbrEntries
  modPendList o fun l => { l with nbrEntries := k }

def decPendList (o : ObjId) : K Unit := do
  let k ← objQtyDec (← getObj o).pendList.nbrEntries
  modPendList o fun l => { l with nbrEntries := k }

/-- The search of `OS_PendListInsertPrio`: the first entry of lower priority, from `d` on. -/
def pendListFind (prio : ℕ) (d : Option PdId) : K (Option PdId ⊕ Option PdId) :=
  match d with
  | none => return .inr none
  | some d => do
    let e ← getPendData d
    let t ← Prog.deref e.tcbPtr
    if prio < (← getTcb t).prio then return .inr (some d) else return .inl e.nextPtr

def pendListInsertPrio (o : ObjId) (d : PdId) : K Unit := do
  let t ← Prog.deref (← getPendData d).tcbPtr
  let prio := (← getTcb t).prio
  let l := (← getObj o).pendList
  if l.nbrEntries = 0 then
    modPendData d fun e => { e with nextPtr := none, prevPtr := none }
    modPendList o fun _ => { headPtr := some d, tailPtr := some d, nbrEntries := 1 }
  else
    incPendList o
    match ← Prog.loop (pendListFind prio) l.headPtr with
    | none =>
      modPendData d fun e => { e with nextPtr := none, prevPtr := l.tailPtr }
      let dp ← Prog.deref l.tailPtr
      modPendData dp fun e => { e with nextPtr := some d }
      modPendList o fun l => { l with tailPtr := some d }
    | some dn =>
      match (← getPendData dn).prevPtr with
      | none =>
        modPendData dn fun e => { e with prevPtr := some d }
        modPendData d fun e => { e with prevPtr := none, nextPtr := some dn }
        modPendList o fun l => { l with headPtr := some d }
      | some dp =>
        modPendData d fun e => { e with prevPtr := some dp, nextPtr := some dn }
        modPendData dp fun e => { e with nextPtr := some d }
        modPendData dn fun e => { e with prevPtr := some d }

def pendListRemove1 (o : ObjId) (d : PdId) : K Unit := do
  let e ← getPendData d
  if (← getObj o).pendList.nbrEntries = 1 then
    modPendList o fun l => { l with headPtr := none, tailPtr := none }
  else if e.prevPtr = none then
    let dn ← Prog.deref e.nextPtr
    modPendData dn fun e => { e with prevPtr := none }
    modPendList o fun l => { l with headPtr := some dn }
  else if e.nextPtr = none then
    let dp ← Prog.deref e.prevPtr
    modPendData dp fun e => { e with nextPtr := none }
    modPendList o fun l => { l with tailPtr := some dp }
  else
    let dp ← Prog.deref e.prevPtr
    let dn ← Prog.deref e.nextPtr
    modPendData dp fun e => { e with nextPtr := some dn }
    modPendData dn fun e => { e with prevPtr := some dp }
  decPendList o
  modPendData d fun e => { e with nextPtr := none, prevPtr := none }

def forEntries (body : PdId → K Unit) : ℕ → PdId → K Unit
  | 0, _ => pure ()
  | k + 1, d => do
    body d
    forEntries body k (d.1, d.2 + 1)

/-- Runs `body` on the table of a task, whose pointer is only followed when there are entries. -/
def forTable (body : PdId → K Unit) (t : TcbId) : K Unit := do
  let c ← getTcb t
  if c.pendDataTblEntries = 0 then return ()
  let d ← Prog.deref c.pendDataTblPtr
  forEntries body c.pendDataTblEntries d

def pendListRemove (t : TcbId) : K Unit := do
  forTable (fun d => do
    let o ← Prog.deref (← getPendData d).pendObjPtr
    pendListRemove1 o d) t
  modTcb t fun c => { c with pendDataTblEntries := 0, pendDataTblPtr := none }

def pendListChangePrio (t : TcbId) (prioNew : ℕ) : K Unit := do
  modTcb t fun c => { c with prio := prioNew }
  forTable (fun d => do
    let o ← Prog.deref (← getPendData d).pendObjPtr
    if 1 < (← getObj o).pendList.nbrEntries then
      pendListRemove1 o d
      pendListInsertPrio o d) t

/-- `OS_PendDataInit`, for the table entry `d` of task `t`. -/
def pendDataInit1 (t : TcbId) (d : PdId) : K Unit :=
  modPendData d fun e =>
    { e with
      nextPtr := none, prevPtr := none, rdyObjPtr := none, rdyMsgPtr := none, rdyMsgSize := 0,
      rdyTS := 0, tcbPtr := some t }

def pendDataInit (t : TcbId) (d : PdId) (tblSize : ℕ) : K Unit := do
  modTcb t fun c => { c with pendDataTblEntries := tblSize, pendDataTblPtr := some d }
  forEntries (pendDataInit1 t) tblSize d

/-- The entry of the table from `d` on that waits on `o`, if any: `OS_Post1` and `OS_PendAbort1`
mark the first one. -/
def markEntry (o : Option ObjId) (f : PendData → PendData) : ℕ → PdId → K Unit
  | 0, _ => pure ()
  | k + 1, d => do
    if o = (← getPendData d).pendObjPtr then modPendData d f
    else markEntry o f k (d.1, d.2 + 1)

def post1 (o : Option ObjId) (t : TcbId) (pVoid : Option ℕ) (msgSize ts : ℕ) : K Unit := do
  let c ← getTcb t
  if c.pendDataTblEntries = 0 then return ()
  let d ← Prog.deref c.pendDataTblPtr
  markEntry o (fun e => { e with rdyObjPtr := o, rdyMsgPtr := pVoid, rdyMsgSize := msgSize, rdyTS := ts })
    c.pendDataTblEntries d

def pendAbort1 (o : Option ObjId) (t : TcbId) (ts : ℕ) : K Unit := do
  let c ← getTcb t
  if c.pendDataTblEntries = 0 then return ()
  let d ← Prog.deref c.pendDataTblPtr
  markEntry o (fun e => { e with rdyObjPtr := o, rdyTS := ts }) c.pendDataTblEntries d

end UcosIII
