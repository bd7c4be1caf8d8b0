import UcosIII.Kernel.Types

/-!
Message queues over the pool of free messages (`os_msg.c`). A queue is passed as the way to read it
and the way to store it back, since both kernel objects and task control blocks hold one.
-/

namespace UcosIII

def MsgQ.init (size : ℕ) : MsgQ where
  inPtr := none
  outPtr := none
  nbrEntriesSize := size
  nbrEntries := 0
  nbrEntriesMax := 0

inductive QLoc where
  | obj (o : ObjId)
  | tcb (t : TcbId)
deriving DecidableEq

namespace OS

def msgQ (s : OS) : QLoc → MsgQ
  | .obj o => (s.obj o).msgQ
  | .tcb t => (s.tcb t).msgQ

def setMsgQ (s : OS) (l : QLoc) (q : MsgQ) : OS :=
  match l with
  | .obj o => s.modObj o fun b => { b with msgQ := q }
  | .tcb t => s.modTcb t fun c => { c with msgQ := q }

theorem msgQ_setMsgQ (s : OS) (l : QLoc) (q : MsgQ) : (s.setMsgQ l q).msgQ = Function.update s.msgQ l q := by
  funext l'
  cases l with
  | obj o =>
    cases l' with
    | obj o' => by_cases h : o' = o <;> simp [setMsgQ, msgQ, modObj, h]
    | tcb t' => simp [setMsgQ, msgQ, modObj]
  | tcb t =>
    cases l' with
    | obj o' => simp [setMsgQ, msgQ, modTcb]
    | tcb t' => by_cases h : t' = t <;> simp [setMsgQ, msgQ, modTcb, h]

end OS

def modMsgPool (f : MsgPool → MsgPool) : K Unit := Prog.modify fun s => { s with msgPool := f s.msgPool }

def getMsgPool : K MsgPool := do return (← Prog.get).msgPool

/-- The loop of `OS_MsgPoolCreate`, with the number of iterations left. -/
def msgPoolCreateLoop : ℕ → MsgId → K Unit
  | 0, m => modMsg m fun _ => { nextPtr := none, msgPtr := none, msgSize := 0, msgTS := 0 }
  | k + 1, m => do
    modMsg m fun _ => { nextPtr := some (m + 1), msgPtr := none, msgSize := 0, msgTS := 0 }
    msgPoolCreateLoop k (m + 1)

def msgPoolCreate (m : MsgId) (size : ℕ) : K Unit := msgPoolCreateLoop (size - 1) m

def msgPoolInit : K Unit := do
  let cfg ← Prog.ask
  msgPoolCreate 0 cfg.msgPoolSize
  modMsgPool fun _ => { nextPtr := some 0, nbrFree := cfg.msgPoolSize, nbrUsed := 0, nbrUsedMax := 0 }

/-- `OS_MsgQFreeAll`: the queue afterwards and the number of messages it held. -/
def msgQFreeAll (q : MsgQ) : K (MsgQ × ℕ) := do
  if q.nbrEntries > 0 then
    let m ← Prog.deref q.inPtr
    let pool ← getMsgPool
    modMsg m fun g => { g with nextPtr := pool.nextPtr }
    modMsgPool fun pool =>
      { pool with
        nextPtr := q.outPtr, nbrUsed := pool.nbrUsed - q.nbrEntries, nbrFree := pool.nbrFree + q.nbrEntries }
    return ({ q with nbrEntries := 0, nbrEntriesMax := 0, inPtr := none, outPtr := none }, q.nbrEntries)
  else return (q, 0)

/-- `OS_MsgQGet`: the queue afterwards and the message taken, or `OS_ERR_Q_EMPTY`. -/
def msgQGet (q : MsgQ) : K (MsgQ × Ret) := do
  if q.nbrEntries = 0 then return (q, { err := .qEmpty })
  else
    let m ← Prog.deref q.outPtr
    let g ← getMsg m
    let q' := if g.nextPtr = none then { q with outPtr := none, inPtr := none, nbrEntries := 0 }
      else { q with outPtr := g.nextPtr, nbrEntries := q.nbrEntries - 1 }
    let pool ← getMsgPool
    modMsg m fun g => { g with nextPtr := pool.nextPtr }
    modMsgPool fun pool =>
      { pool with nextPtr := some m, nbrFree := pool.nbrFree + 1, nbrUsed := pool.nbrUsed - 1 }
    return (q', { err := .none, msgPtr := g.msgPtr, msgSize := g.msgSize, ts := g.msgTS })

def msgQPut (q : MsgQ) (pVoid : Option ℕ) (msgSize : ℕ) (opt : Opt) (ts : ℕ) : K (MsgQ × Err) := do
  if q.nbrEntries ≥ q.nbrEntriesSize then return (q, .qMax)
  else if (← getMsgPool).nbrFree = 0 then return (q, .msgPoolEmpty)
  else
    let m ← Prog.deref (← getMsgPool).nextPtr
    let g ← getMsg m
    modMsgPool fun pool =>
      { nextPtr := g.nextPtr, nbrFree := pool.nbrFree - 1, nbrUsed := pool.nbrUsed + 1,
        nbrUsedMax := max pool.nbrUsedMax (pool.nbrUsed + 1) }
    let q' ← if q.nbrEntries = 0 then pure { q with inPtr := some m, outPtr := some m, nbrEntries := 1 }
      else if opt &&& optPostLifo = optPostFifo then do
        let mIn ← Prog.deref q.inPtr
        modMsg mIn fun g => { g with nextPtr := some m }
        modMsg m fun g => { g with nextPtr := none }
        pure { q with inPtr := some m, nbrEntries := q.nbrEntries + 1 }
      else do
        modMsg m fun g => { g with nextPtr := q.outPtr }
        pure { q with outPtr := some m, nbrEntries := q.nbrEntries + 1 }
    modMsg m fun g => { g with msgPtr := pVoid, msgSize := msgSize, msgTS := ts }
    return ({ q' with nbrEntriesMax := max q'.nbrEntriesMax q'.nbrEntries }, .none)

end UcosIII
