import UcosIII.Kernel.Types

/-!
The tick wheel (`os_tick.c`): task `t` waits in the doubly linked list of spoke
`tickCtrMatch % tickWheelSize`, in order of remaining time.
-/

namespace UcosIII

/-- The times that `OS_TickListInsert` gives the task, or `none` when it does not delay. -/
def tickMatch (c : TCB) (tickCtr time : Tick) (opt : Opt) : Option TCB :=
  if opt = optTimeMatch then
    let delta := time - tickCtr - 1
    if delta > tickThRdy then none
    else some { c with tickCtrMatch := time, tickRemain := delta + 1 }
  else if time > 0 then
    if opt = optTimePeriodic then
      let next := c.tickCtrPrev + time
      let due := if next - tickCtr - 1 < time then next else tickCtr + time
      some { c with tickCtrMatch := due, tickRemain := due - tickCtr, tickCtrPrev := due }
    else some { c with tickCtrMatch := tickCtr + time, tickRemain := time }
  else none

/-- The walk of `OS_TickListInsert` along spoke `i`, standing on `t1`. -/
def tickListWalk (t : TcbId) (i : ℕ) (t1 : TcbId) : K (TcbId ⊕ Unit) := do
  let now := (← Prog.get).tickCtr
  modTcb t1 fun c => { c with tickRemain := c.tickCtrMatch - now }
  let c1 ← getTcb t1
  if (← getTcb t).tickRemain > c1.tickRemain then
    match c1.tickNextPtr with
    | some t2 => return .inl t2
    | none =>
      modTcb t fun c => { c with tickNextPtr := none, tickPrevPtr := some t1 }
      modTcb t1 fun c => { c with tickNextPtr := some t }
      return .inr ()
  else
    match c1.tickPrevPtr with
    | none =>
      modTcb t fun c => { c with tickPrevPtr := none, tickNextPtr := some t1 }
      modTcb t1 fun c => { c with tickPrevPtr := some t }
      modSpoke i fun k => { k with firstPtr := some t }
      return .inr ()
    | some t0 =>
      modTcb t fun c => { c with tickPrevPtr := some t0, tickNextPtr := some t1 }
      modTcb t0 fun c => { c with tickNextPtr := some t }
      modTcb t1 fun c => { c with tickPrevPtr := some t }
      return .inr ()

def incSpoke (i : ℕ) : K Unit := do
  let k ← objQtyInc (← getSpoke i).nbrEntries
  modSpoke i fun s => { s with nbrEntries := k }

def decSpoke (i : ℕ) : K Unit := do
  let k ← objQtyDec (← getSpoke i).nbrEntries
  modSpoke i fun s => { s with nbrEntries := k }

/-- The part of `OS_TickListInsert` that links the task into its spoke. -/
def tickListLink (t : TcbId) : K Unit := do
  let i := (← getTcb t).tickCtrMatch.toNat % (← Prog.ask).tickWheelSize
  let k ← getSpoke i
  if k.nbrEntries = 0 then
    modTcb t fun c => { c with tickNextPtr := none, tickPrevPtr := none }
    modSpoke i fun k => { k with firstPtr := some t, nbrEntries := 1 }
  else
    match k.firstPtr with
    | none => pure ()
    | some t1 => Prog.loop (tickListWalk t i) t1
    incSpoke i
  modSpoke i fun k => { k with nbrEntriesMax := max k.nbrEntriesMax k.nbrEntries }
  modTcb t fun c => { c with tickSpokePtr := some i }

def tickListInsert (t : TcbId) (time : Tick) (opt : Opt) : K Err := do
  match tickMatch (← getTcb t) (← Prog.get).tickCtr time opt with
  | none =>
    modTcb t fun c => { c with tickCtrMatch := 0, tickRemain := 0, tickSpokePtr := none }
    return .timeZeroDly
  | some c =>
    modTcb t fun _ => c
    tickListLink t
    return .none

def tickListRemove (t : TcbId) : K Unit := do
  match (← getTcb t).tickSpokePtr with
  | none => return ()
  | some i =>
    modTcb t fun c => { c with tickRemain := 0 }
    let c ← getTcb t
    if (← getSpoke i).firstPtr = some t then
      modSpoke i fun k => { k with firstPtr := c.tickNextPtr }
      match c.tickNextPtr with
      | none => pure ()
      | some t1 => modTcb t1 fun c => { c with tickPrevPtr := none }
    else
      let t1 ← Prog.deref c.tickPrevPtr
      modTcb t1 fun c1 => { c1 with tickNextPtr := c.tickNextPtr }
      match c.tickNextPtr with
      | none => pure ()
      | some t2 => modTcb t2 fun c2 => { c2 with tickPrevPtr := some t1 }
    modTcb t fun c => { c with tickNextPtr := none, tickPrevPtr := none, tickSpokePtr := none, tickCtrMatch := 0 }
    decSpoke i

end UcosIII
