import UcosIII.Kernel.ReadyList

/-!
The ready lists (`os_core.c`) with `NbrEntries` as a word of 16 bits: the functions of the kernel model on nothing but the
links, the lists and the bitmap.
-/

namespace UcosIII

structure RdyTCB where
  prio : ℕ
  nextPtr : Option TcbId
  prevPtr : Option TcbId

structure RdyList16 where
  headPtr : Option TcbId
  tailPtr : Option TcbId
  nbrEntries : BitVec 16

structure RdyHeap where
  tcb : TcbId → RdyTCB
  rdyList : ℕ → RdyList16
  prioTbl : ℕ → BitVec 32

namespace RdyHeap

def modTcb (h : RdyHeap) (t : TcbId) (f : RdyTCB → RdyTCB) : RdyHeap :=
  { h with tcb := Function.update h.tcb t (f (h.tcb t)) }

def modRdyList (h : RdyHeap) (p : ℕ) (f : RdyList16 → RdyList16) : RdyHeap :=
  { h with rdyList := Function.update h.rdyList p (f (h.rdyList p)) }

def prioRemove (h : RdyHeap) (p : ℕ) : RdyHeap :=
  { h with prioTbl := Function.update h.prioTbl (p / 32) (h.prioTbl (p / 32) &&& ~~~ prioBit p) }

/-- `OS_RdyListInsertHead`; reading through a null pointer gives no heap. -/
def rdyListInsertHead (h : RdyHeap) (t : TcbId) : Option RdyHeap :=
  let p := (h.tcb t).prio
  let l := h.rdyList p
  if l.nbrEntries = 0 then
    some ((h.modTcb t fun c => { c with nextPtr := none, prevPtr := none }).modRdyList p fun _ =>
      { headPtr := some t, tailPtr := some t, nbrEntries := 1 })
  else
    l.headPtr.map fun t2 =>
      let h := h.modTcb t fun c => { c with nextPtr := l.headPtr, prevPtr := none }
      let h := h.modTcb t2 fun c => { c with prevPtr := some t }
      h.modRdyList p fun l => { l with headPtr := some t, nbrEntries := l.nbrEntries + 1 }

def rdyListInsertTail (h : RdyHeap) (t : TcbId) : Option RdyHeap :=
  let p := (h.tcb t).prio
  let l := h.rdyList p
  if l.nbrEntries = 0 then
    some ((h.modTcb t fun c => { c with nextPtr := none, prevPtr := none }).modRdyList p fun _ =>
      { headPtr := some t, tailPtr := some t, nbrEntries := 1 })
  else
    l.tailPtr.map fun t2 =>
      let h := h.modTcb t fun c => { c with nextPtr := none, prevPtr := l.tailPtr }
      let h := h.modTcb t2 fun c => { c with nextPtr := some t }
      h.modRdyList p fun l => { l with tailPtr := some t, nbrEntries := l.nbrEntries + 1 }

def rdyListMoveHeadToTail (h : RdyHeap) (p : ℕ) : Option RdyHeap :=
  let l := h.rdyList p
  if l.nbrEntries = 0 ∨ l.nbrEntries = 1 then some h
  else if l.nbrEntries = 2 then do
    let t1 ← l.headPtr
    let t2 ← l.tailPtr
    let h := h.modTcb t1 fun c => { c with prevPtr := some t2, nextPtr := none }
    let h := h.modTcb t2 fun c => { c with prevPtr := none, nextPtr := some t1 }
    some (h.modRdyList p fun l => { l with headPtr := some t2, tailPtr := some t1 })
  else do
    let t1 ← l.headPtr
    let t2 ← l.tailPtr
    let t3 ← (h.tcb t1).nextPtr
    let h := h.modTcb t3 fun c => { c with prevPtr := none }
    let h := h.modTcb t1 fun c => { c with nextPtr := none, prevPtr := some t2 }
    let h := h.modTcb t2 fun c => { c with nextPtr := some t1 }
    some (h.modRdyList p fun l => { l with headPtr := some t3, tailPtr := some t1 })

def rdyListRemove (h : RdyHeap) (t : TcbId) : RdyHeap :=
  let p := (h.tcb t).prio
  let h := match (h.tcb t).prevPtr, (h.tcb t).nextPtr with
    | none, none => (h.modRdyList p fun _ => { headPtr := none, tailPtr := none, nbrEntries := 0 }).prioRemove p
    | none, some t2 =>
      (h.modTcb t2 fun c => { c with prevPtr := none }).modRdyList p fun l =>
        { l with headPtr := some t2, nbrEntries := l.nbrEntries - 1 }
    | some t1, none =>
      (h.modTcb t1 fun c => { c with nextPtr := none }).modRdyList p fun l =>
        { l with tailPtr := some t1, nbrEntries := l.nbrEntries - 1 }
    | some t1, some t2 =>
      ((h.modTcb t1 fun c => { c with nextPtr := some t2 }).modTcb t2 fun c => { c with prevPtr := some t1 }).modRdyList p
        fun l => { l with nbrEntries := l.nbrEntries - 1 }
  h.modTcb t fun c => { c with prevPtr := none, nextPtr := none }

end RdyHeap

end UcosIII
