import UcosIII.Kernel.Prio

namespace UcosIII

def incRdyList (p : ℕ) : K Unit := do
  let k ← objQtyInc (← getRdyList p).nbrEntries
  modRdyList p fun l => { l with nbrEntries := k }

def decRdyList (p : ℕ) : K Unit := do
  let k ← objQtyDec (← getRdyList p).nbrEntries
  modRdyList p fun l => { l with nbrEntries := k }

def rdyListInsertHead (t : TcbId) : K Unit := do
  let p := (← getTcb t).prio
  let l ← getRdyList p
  if l.nbrEntries = 0 then
    modTcb t fun c => { c with nextPtr := none, prevPtr := none }
    modRdyList p fun _ => { headPtr := some t, tailPtr := some t, nbrEntries := 1 }
  else
    incRdyList p
    modTcb t fun c => { c with nextPtr := l.headPtr, prevPtr := none }
    let t2 ← Prog.deref l.headPtr
    modTcb t2 fun c => { c with prevPtr := some t }
    modRdyList p fun l => { l with headPtr := some t }

def rdyListInsertTail (t : TcbId) : K Unit := do
  let p := (← getTcb t).prio
  let l ← getRdyList p
  if l.nbrEntries = 0 then
    modTcb t fun c => { c with nextPtr := none, prevPtr := none }
    modRdyList p fun _ => { headPtr := some t, tailPtr := some t, nbrEntries := 1 }
  else
    incRdyList p
    modTcb t fun c => { c with nextPtr := none, prevPtr := l.tailPtr }
    let t2 ← Prog.deref l.tailPtr
    modTcb t2 fun c => { c with nextPtr := some t }
    modRdyList p fun l => { l with tailPtr := some t }

def rdyListInsert (t : TcbId) : K Unit := do
  let p := (← getTcb t).prio
  prioInsert p
  if p = (← Prog.get).prioCur then rdyListInsertTail t else rdyListInsertHead t

def rdyListMoveHeadToTail (p : ℕ) : K Unit := do
  let l ← getRdyList p
  match l.nbrEntries with
  | 0 => return ()
  | 1 => return ()
  | 2 =>
    let t1 ← Prog.deref l.headPtr
    let t2 ← Prog.deref l.tailPtr
    modTcb t1 fun c => { c with prevPtr := some t2, nextPtr := none }
    modTcb t2 fun c => { c with prevPtr := none, nextPtr := some t1 }
    modRdyList p fun l => { l with headPtr := some t2, tailPtr := some t1 }
  | _ =>
    let t1 ← Prog.deref l.headPtr
    let t2 ← Prog.deref l.tailPtr
    let t3 ← Prog.deref (← getTcb t1).nextPtr
    modTcb t3 fun c => { c with prevPtr := none }
    modTcb t1 fun c => { c with nextPtr := none, prevPtr := some t2 }
    modTcb t2 fun c => { c with nextPtr := some t1 }
    modRdyList p fun l => { l with headPtr := some t3, tailPtr := some t1 }

def rdyListRemove (t : TcbId) : K Unit := do
  let c ← getTcb t
  match c.prevPtr, c.nextPtr with
  | none, none =>
    modRdyList c.prio fun _ => { headPtr := none, tailPtr := none, nbrEntries := 0 }
    prioRemove c.prio
  | none, some t2 =>
    decRdyList c.prio
    modTcb t2 fun c => { c with prevPtr := none }
    modRdyList c.prio fun l => { l with headPtr := some t2 }
  | some t1, none =>
    decRdyList c.prio
    modTcb t1 fun c => { c with nextPtr := none }
    modRdyList c.prio fun l => { l with tailPtr := some t1 }
  | some t1, some t2 =>
    decRdyList c.prio
    modTcb t1 fun c => { c with nextPtr := some t2 }
    modTcb t2 fun c => { c with prevPtr := some t1 }
  modTcb t fun c => { c with prevPtr := none, nextPtr := none }

end UcosIII
