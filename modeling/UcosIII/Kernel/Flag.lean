import UcosIII.Kernel.Semaphore

namespace UcosIII

def osFlagCreate (p : Option ObjId) (flags : Flags) : K Err := do
  if (← Prog.get).intNestingCtr > 0 then return .createISR
  match p with
  | none => return .objPtrNull
  | some o =>
    modObj o fun b => { b with type := .flag, flags := flags, ts := 0, pendList := pendListEmpty }
    return .none

/-- The flags that are ready for a wait on `flags`, and whether they end it; no answer for a mode that
is not built in. -/
def flagsReady (mode : Opt) (grpFlags flags : Flags) : Option (Flags × Bool) :=
  let flagsRdy := grpFlags &&& flags
  if mode = optPendFlagSetAll then some (flagsRdy, flagsRdy = flags)
  else if mode = optPendFlagSetAny then some (flagsRdy, flagsRdy ≠ 0)
  else none

def flagPendOptValid (opt : Opt) : Bool :=
  [optPendFlagClrAll, optPendFlagClrAny, optPendFlagSetAll, optPendFlagSetAny].any fun m =>
    opt = m ∨ opt = m ||| optPendFlagConsume ∨ opt = m ||| optPendNonBlocking ∨
      opt = m ||| optPendFlagConsume ||| optPendNonBlocking

def flagBlock (o : ObjId) (flags : Flags) (opt : Opt) (timeout : Tick) : K Unit := do
  let t ← getCur
  modTcb t fun c => { c with flagsPend := flags, flagsOpt := opt, flagsRdy := 0 }
  pend (some o) .flag timeout

def osFlagPend (p : Option ObjId) (flags : Flags) (timeout : Tick) (opt : Opt) : K (Option Ret) := do
  let s ← Prog.get
  if s.intNestingCtr > 0 then return some { err := .pendISR }
  match p with
  | none => return some { err := .objPtrNull }
  | some o =>
    if flagPendOptValid opt = false then return some { err := .optInvalid }
    let b ← getObj o
    if b.type ≠ .flag then return some { err := .objType }
    let consume : Bool := opt &&& optPendFlagConsume ≠ 0
    let mode := opt &&& optPendFlagMask
    match flagsReady mode b.flags flags with
    | none => return some { err := .optInvalid }
    | some (flagsRdy, true) =>
      if consume then modObj o fun b => { b with flags := b.flags &&& ~~~ flagsRdy }
      modTcb (← getCur) fun c => { c with flagsRdy := flagsRdy }
      return some { err := .none, val := flagsRdy.toNat, ts := b.ts }
    | some (_, false) =>
      if opt &&& optPendNonBlocking ≠ 0 then return some { err := .pendWouldBlock }
      if s.schedLockNestingCtr > 0 then return some { err := .schedLocked }
      flagBlock o flags opt timeout
      waitThen (.flagPend o mode consume)

def flagPendFinish (o : ObjId) (mode : Opt) (consume : Bool) : K Ret := do
  let c ← getTcb (← getCur)
  match c.pendStatus with
  | .ok =>
    if consume = false then return { err := .none, val := c.flagsRdy.toNat, ts := c.ts }
    if mode = optPendFlagSetAll ∨ mode = optPendFlagSetAny then
      modObj o fun b => { b with flags := b.flags &&& ~~~ c.flagsRdy }
      return { err := .none, val := c.flagsRdy.toNat, ts := c.ts }
    return { err := .optInvalid, ts := c.ts }
  | .abort => return { err := .pendAbort, ts := c.ts }
  | .timeout => return { err := .timeout }
  | .del => return { err := .objDel, ts := c.ts }

def osFlagPendGetFlagsRdy : K Ret := do
  if (← Prog.get).intNestingCtr > 0 then return { err := .pendISR }
  let c ← getTcb (← getCur)
  return { err := .none, val := c.flagsRdy.toNat }

def flagTaskRdy (t : TcbId) (flagsRdy : Flags) (ts : ℕ) : K Unit := do
  modTcb t fun c => { c with flagsRdy := flagsRdy, pendStatus := .ok, pendOn := .nothing, ts := ts }
  match (← getTcb t).taskState with
  | .rdy | .dly | .dlySuspended | .suspended | .del => pure ()
  | .pend | .pendTimeout =>
    taskRdy t
    modTcb t fun c => { c with taskState := .rdy }
  | .pendSuspended | .pendTimeoutSuspended => modTcb t fun c => { c with taskState := .suspended }
  pendListRemove t

/-- One turn of the loop of `OS_FlagPost`; the answer tells whether the loop met a wait of a mode that
is not built in. -/
def flagPostStep (o : ObjId) (ts : ℕ) (p : Option PdId) : K (Option PdId ⊕ Bool) :=
  match p with
  | none => return .inr false
  | some d => do
    let e ← getPendData d
    match e.tcbPtr with
    | none => return .inr false
    | some t =>
      let c ← getTcb t
      match flagsReady (c.flagsOpt &&& optPendFlagMask) (← getObj o).flags c.flagsPend with
      | none => return .inr true
      | some (flagsRdy, true) =>
        flagTaskRdy t flagsRdy ts
        return .inl e.nextPtr
      | some (_, false) => return .inl e.nextPtr

def flagPost (o : ObjId) (flags : Flags) (opt : Opt) (ts : ℕ) : K (Option Ret) := do
  if opt = optPostFlagSet ∨ opt = optPostFlagSet ||| optPostNoSched then
    modObj o fun b => { b with flags := b.flags ||| flags, ts := ts }
  else modObj o fun b => { b with flags := b.flags &&& ~~~ flags, ts := ts }
  let b ← getObj o
  if b.pendList.nbrEntries = 0 then return some { err := .none, val := b.flags.toNat }
  let d ← Prog.deref b.pendList.headPtr
  if ← Prog.loop (flagPostStep o ts) (some d) then return some { err := .flagPendOpt }
  if opt &&& optPostNoSched = 0 ∧ (← Prog.get).intNestingCtr = 0 then waitThen (.flagPost o)
  else return some { err := .none, val := (← getObj o).flags.toNat }

def flagPostOptValid (opt : Opt) : Bool :=
  opt = optPostFlagSet ∨ opt = optPostFlagClr ∨ opt = optPostFlagSet ||| optPostNoSched ∨
    opt = optPostFlagClr ||| optPostNoSched

def osFlagPost (p : Option ObjId) (flags : Flags) (opt : Opt) : K (Option Ret) := do
  match p with
  | none => return some { err := .objPtrNull }
  | some o =>
    if flagPostOptValid opt = false then return some { err := .optInvalid }
    if (← getObj o).type ≠ .flag then return some { err := .objType }
    flagPost o flags opt (← tsGet)

def osFlagPendAbort (p : Option ObjId) (opt : Opt) : K Ret := objPendAbort .flag p opt

def flagPostFinish (o : ObjId) : K Ret := do
  return { err := .none, val := (← getObj o).flags.toNat }

end UcosIII
