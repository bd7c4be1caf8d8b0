import UcosIII.Kernel.Flag

/-!
Event flags (`os_flag.c`) in the build with the wait for cleared flags, `OS_CFG_FLAG_MODE_CLR_EN`. A group is modelled with
the tasks that its pend list leads to and the 16-bit counter of the list, and a task with what a wait for flags reads and
writes of it; any task that is in no call may make the next one.
-/

namespace UcosIII

structure FlagTcb where
  prio : ℕ
  flagsPend : Flags
  flagsRdy : Flags
  flagsOpt : Opt
  pendStatus : PendStatus
  ts : ℕ

structure FlagGrp where
  flags : Flags
  ts : ℕ
  pendList : List TcbId
  nbrEntries : BitVec 16

/-- `call` is the group, the mode and the consumption of the `OSFlagPend` that a task has stopped in. -/
structure FlagSys where
  grp : ObjId → FlagGrp
  tcb : TcbId → FlagTcb
  call : TcbId → Option (ObjId × Opt × Bool)

def flagsReadyClr (mode : Opt) (grpFlags flags : Flags) : Option (Flags × Bool) :=
  if mode = optPendFlagSetAll then some (grpFlags &&& flags, grpFlags &&& flags = flags)
  else if mode = optPendFlagSetAny then some (grpFlags &&& flags, grpFlags &&& flags ≠ 0)
  else if mode = optPendFlagClrAll then some (~~~ grpFlags &&& flags, ~~~ grpFlags &&& flags = flags)
  else if mode = optPendFlagClrAny then some (~~~ grpFlags &&& flags, ~~~ grpFlags &&& flags ≠ 0)
  else none

/-- The flags of the group when `flagsRdy` have been consumed, or no answer for a mode that does not exist. -/
def flagsConsumed (mode : Opt) (grpFlags flagsRdy : Flags) : Option Flags :=
  if mode = optPendFlagSetAll ∨ mode = optPendFlagSetAny then some (grpFlags &&& ~~~ flagsRdy)
  else if mode = optPendFlagClrAll ∨ mode = optPendFlagClrAny then some (grpFlags ||| flagsRdy)
  else none

namespace FlagSys

def modGrp (d : FlagSys) (o : ObjId) (f : FlagGrp → FlagGrp) : FlagSys :=
  { d with grp := Function.update d.grp o (f (d.grp o)) }

def modTcb (d : FlagSys) (t : TcbId) (f : FlagTcb → FlagTcb) : FlagSys :=
  { d with tcb := Function.update d.tcb t (f (d.tcb t)) }

def setCall (d : FlagSys) (t : TcbId) (c : Option (ObjId × Opt × Bool)) : FlagSys :=
  { d with call := Function.update d.call t c }

def insertPrioLoop (d : FlagSys) (t : TcbId) : List TcbId → List TcbId
  | [] => [t]
  | u :: l => if (d.tcb t).prio < (d.tcb u).prio then t :: u :: l else u :: d.insertPrioLoop t l

def pendListInsertPrio (d : FlagSys) (t : TcbId) (g : FlagGrp) : FlagGrp :=
  { g with
    pendList := if g.nbrEntries = 0 then [t] else d.insertPrioLoop t g.pendList
    nbrEntries := g.nbrEntries + 1 }

def pendListRemove1 (t : TcbId) (g : FlagGrp) : FlagGrp :=
  { g with
    pendList := if g.nbrEntries = 1 then [] else g.pendList.erase t
    nbrEntries := g.nbrEntries - 1 }

def flagBlock (d : FlagSys) (t : TcbId) (o : ObjId) (flags : Flags) (opt : Opt) : FlagSys :=
  (d.modTcb t fun c => { c with flagsPend := flags, flagsOpt := opt, flagsRdy := 0, pendStatus := .ok }).modGrp o
    (d.pendListInsertPrio t)

/-- `OSFlagPend` by task `t`; there is no answer yet if the task waits. -/
def flagPend (d : FlagSys) (t : TcbId) (o : ObjId) (flags : Flags) (opt : Opt) (locked : Bool) : Option Ret × FlagSys :=
  if flagPendOptValid opt = false then (some { err := .optInvalid }, d)
  else
    let consume : Bool := opt &&& optPendFlagConsume ≠ 0
    let mode := opt &&& optPendFlagMask
    match flagsReadyClr mode (d.grp o).flags flags with
    | none => (some { err := .optInvalid }, d)
    | some (flagsRdy, true) =>
      let d' := if consume then
          d.modGrp o fun g => { g with flags := (flagsConsumed mode g.flags flagsRdy).getD g.flags }
        else d
      (some { err := .none, val := flagsRdy.toNat, ts := (d.grp o).ts }, d'.modTcb t fun c => { c with flagsRdy := flagsRdy })
    | some (_, false) =>
      if opt &&& optPendNonBlocking ≠ 0 then (some { err := .pendWouldBlock }, d)
      else if locked then (some { err := .schedLocked }, d)
      else (none, (d.flagBlock t o flags opt).setCall t (some (o, mode, consume)))

def flagPendFinish (d : FlagSys) (t : TcbId) (o : ObjId) (mode : Opt) (consume : Bool) : Ret × FlagSys :=
  let c := d.tcb t
  let d' := d.setCall t none
  match c.pendStatus with
  | .ok =>
    if consume = false then ({ err := .none, val := c.flagsRdy.toNat, ts := c.ts }, d')
    else
      match flagsConsumed mode (d.grp o).flags c.flagsRdy with
      | some flags =>
        ({ err := .none, val := c.flagsRdy.toNat, ts := c.ts }, d'.modGrp o fun g => { g with flags := flags })
      | none => ({ err := .optInvalid, ts := c.ts }, d')
  | .abort => ({ err := .pendAbort, ts := c.ts }, d')
  | .timeout => ({ err := .timeout }, d')
  | .del => ({ err := .objDel, ts := c.ts }, d')

def flagTaskRdy (d : FlagSys) (o : ObjId) (t : TcbId) (flagsRdy : Flags) (ts : ℕ) : FlagSys :=
  (d.modTcb t fun c => { c with flagsRdy := flagsRdy, pendStatus := .ok, ts := ts }).modGrp o (pendListRemove1 t)

/-- The loop of `OS_FlagPost` over the tasks of the pend list; the answer tells whether it met a mode that does not
exist. -/
def flagPostLoop (o : ObjId) (ts : ℕ) : List TcbId → FlagSys → Bool × FlagSys
  | [], d => (false, d)
  | t :: l, d =>
    match flagsReadyClr ((d.tcb t).flagsOpt &&& optPendFlagMask) (d.grp o).flags (d.tcb t).flagsPend with
    | none => (true, d)
    | some (flagsRdy, true) => flagPostLoop o ts l (d.flagTaskRdy o t flagsRdy ts)
    | some (_, false) => flagPostLoop o ts l d

def flagPost (d : FlagSys) (o : ObjId) (flags : Flags) (opt : Opt) (ts : ℕ) : Err × FlagSys :=
  if flagPostOptValid opt = false then (.optInvalid, d)
  else
    let d₁ := d.modGrp o fun g =>
      if opt = optPostFlagSet ∨ opt = optPostFlagSet ||| optPostNoSched then { g with flags := g.flags ||| flags, ts := ts }
      else { g with flags := g.flags &&& ~~~ flags, ts := ts }
    if (d₁.grp o).nbrEntries = 0 then (.none, d₁)
    else
      match flagPostLoop o ts (d₁.grp o).pendList d₁ with
      | (true, d₂) => (.flagPendOpt, d₂)
      | (false, d₂) => (.none, d₂)

/-- The wait of `t` in the group ends with a timeout or an abort. -/
def endWait (d : FlagSys) (t : TcbId) (o : ObjId) (st : PendStatus) : FlagSys :=
  (d.modTcb t fun c => { c with pendStatus := st }).modGrp o (pendListRemove1 t)

end FlagSys

inductive FlagEvent where
  | pend (t : TcbId) (o : ObjId) (flags : Flags) (opt : Opt) (locked : Bool)
  | finish (t : TcbId) (o : ObjId) (mode : Opt) (consume : Bool)
  | post (o : ObjId) (flags : Flags) (opt : Opt) (ts : ℕ)
  | endWait (t : TcbId) (o : ObjId) (st : PendStatus)

namespace FlagEvent

def exec (d : FlagSys) : FlagEvent → FlagSys
  | pend t o flags opt locked => (d.flagPend t o flags opt locked).2
  | finish t o mode consume => (d.flagPendFinish t o mode consume).2
  | post o flags opt ts => (d.flagPost o flags opt ts).2
  | endWait t o st => d.endWait t o st

/-- A task makes a call when it is in none, and goes on when it has left the pend list. -/
def Enabled (d : FlagSys) : FlagEvent → Prop
  | pend t .. => d.call t = none
  | finish t o mode consume => d.call t = some (o, mode, consume) ∧ t ∉ (d.grp o).pendList
  | post .. => True
  | endWait t o st => t ∈ (d.grp o).pendList ∧ st ≠ .ok

end FlagEvent

/-- The runs from the creation of the groups on. Every step keeps to `P`. -/
inductive FlagRun (P : FlagSys → FlagEvent → Prop) : FlagSys → Prop
  | init {d : FlagSys} (lists : ∀ o, (d.grp o).pendList = [] ∧ (d.grp o).nbrEntries = 0)
      (calls : ∀ t, d.call t = none) : FlagRun P d
  | step {d : FlagSys} {e : FlagEvent} (run : FlagRun P d) (enabled : e.Enabled d) (keeps : P d e) : FlagRun P (e.exec d)

end UcosIII
