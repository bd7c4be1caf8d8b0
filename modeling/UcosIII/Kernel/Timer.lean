import UcosIII.Kernel.Core

/-!
The timers (`os_tmr.c`). A running timer waits in the doubly linked list of spoke `match % tmrWheelSize` of a
wheel of its own, which the timer task turns. Names and lists for debuggers are left out.
-/

namespace UcosIII

abbrev TmrId := ℕ

abbrev Callback := ℕ

inductive TmrState where
  | unused | stopped | running | completed
deriving DecidableEq, Repr

def optTmrNone : Opt := 0x0000
def optTmrOneShot : Opt := 0x0001
def optTmrPeriodic : Opt := 0x0002
def optTmrCallback : Opt := 0x0003
def optTmrCallbackArg : Opt := 0x0004

def optLinkDly : Opt := 0x0000
def optLinkPeriodic : Opt := 0x0001

/-- `OS_TMR`; `isTmr` says that the field `Type` is `OS_OBJ_TYPE_TMR`. -/
structure Tmr where
  isTmr : Bool
  callbackPtr : Option Callback
  callbackPtrArg : Option ℕ
  nextPtr : Option TmrId
  prevPtr : Option TmrId
  matchCtr : Tick
  remain : Tick
  dly : Tick
  period : Tick
  opt : Opt
  state : TmrState
deriving DecidableEq

structure TmrSpoke where
  firstPtr : Option TmrId
  nbrEntries : BitVec 16
  nbrEntriesMax : BitVec 16
deriving DecidableEq

structure Firing where
  fnct : Callback
  tmr : TmrId
  arg : Option ℕ
deriving DecidableEq

/-- The kernel with the timers; `firings` tells which callbacks have run, the last first. -/
structure Sys where
  os : OS
  tmr : TmrId → Tmr
  tmrWheel : ℕ → TmrSpoke
  tmrTickCtr : Tick
  tmrQty : ℕ
  firings : List Firing

/-- The configuration with the size of the timer wheel and the callback functions of the application,
which call the kernel but not the timers. -/
structure TmrCfg where
  cfg : Cfg
  tmrWheelSize : ℕ
  callback : Callback → TmrId → Option ℕ → K Unit
  tmrWheelSize_pos : 0 < tmrWheelSize

theorem repository_tmrWheelSize_pos : 0 < 17 := by decide

def TmrCfg.repository : TmrCfg where
  cfg := Cfg.repository
  tmrWheelSize := 17
  callback _ _ _ := pure ()
  tmrWheelSize_pos := repository_tmrWheelSize_pos

abbrev T := Prog TmrCfg Sys

namespace Sys

def modTmr (s : Sys) (t : TmrId) (f : Tmr → Tmr) : Sys :=
  { s with tmr := Function.update s.tmr t (f (s.tmr t)) }

def modTmrSpoke (s : Sys) (i : ℕ) (f : TmrSpoke → TmrSpoke) : Sys :=
  { s with tmrWheel := Function.update s.tmrWheel i (f (s.tmrWheel i)) }

end Sys

def onKernel {α : Type} (m : K α) : T α := Prog.zoom TmrCfg.cfg Sys.os (fun o s => { s with os := o }) m

def getTmr (t : TmrId) : T Tmr := do return (← Prog.get).tmr t

def modTmr (t : TmrId) (f : Tmr → Tmr) : T Unit := Prog.modify fun s => s.modTmr t f

def getTmrSpoke (i : ℕ) : T TmrSpoke := do return (← Prog.get).tmrWheel i

def modTmrSpoke (i : ℕ) (f : TmrSpoke → TmrSpoke) : T Unit := Prog.modify fun s => s.modTmrSpoke i f

def runCallback (fnct : Callback) (t : TmrId) (arg : Option ℕ) : T Unit := do
  Prog.modify fun s => { s with firings := ⟨fnct, t, arg⟩ :: s.firings }
  onKernel ((← Prog.ask).callback fnct t arg)

/-- The walk of `OS_TmrLink` along spoke `i`, standing on `t1`. -/
def tmrLinkWalk (t : TmrId) (i : ℕ) (t1 : TmrId) : T (TmrId ⊕ Unit) := do
  let now := (← Prog.get).tmrTickCtr
  modTmr t1 fun c => { c with remain := c.matchCtr - now }
  let c1 ← getTmr t1
  if (← getTmr t).remain > c1.remain then
    match c1.nextPtr with
    | some t2 => return .inl t2
    | none =>
      modTmr t fun c => { c with nextPtr := none, prevPtr := some t1 }
      modTmr t1 fun c => { c with nextPtr := some t }
      return .inr ()
  else
    match c1.prevPtr with
    | none =>
      modTmr t fun c => { c with prevPtr := none, nextPtr := some t1 }
      modTmr t1 fun c => { c with prevPtr := some t }
      modTmrSpoke i fun k => { k with firstPtr := some t }
      return .inr ()
    | some t0 =>
      modTmr t fun c => { c with prevPtr := some t0, nextPtr := some t1 }
      modTmr t0 fun c => { c with nextPtr := some t }
      modTmr t1 fun c => { c with prevPtr := some t }
      return .inr ()

/-- The number of ticks from now on that `OS_TmrLink` lets go by. -/
def linkTicks (c : Tmr) (opt : Opt) : Tick :=
  if opt = optLinkPeriodic then c.period else if c.dly = 0 then c.period else c.dly

/-- The part of `OS_TmrLink` that links the timer into its spoke. -/
def tmrLinkSpoke (t : TmrId) : T Unit := do
  let i := (← getTmr t).matchCtr.toNat % (← Prog.ask).tmrWheelSize
  match (← getTmrSpoke i).firstPtr with
  | none =>
    modTmr t fun c => { c with nextPtr := none, prevPtr := none }
    modTmrSpoke i fun k => { k with firstPtr := some t, nbrEntries := 1 }
  | some t1 =>
    let now := (← Prog.get).tmrTickCtr
    modTmr t fun c => { c with remain := c.matchCtr - now }
    Prog.loop (tmrLinkWalk t i) t1
    modTmrSpoke i fun k => { k with nbrEntries := k.nbrEntries + 1 }
  modTmrSpoke i fun k => { k with nbrEntriesMax := if k.nbrEntriesMax < k.nbrEntries then k.nbrEntries else k.nbrEntriesMax }

def tmrLink (t : TmrId) (opt : Opt) : T Unit := do
  let now := (← Prog.get).tmrTickCtr
  modTmr t fun c => { c with state := .running, matchCtr := linkTicks c opt + now }
  tmrLinkSpoke t

def tmrUnlink (t : TmrId) : T Unit := do
  let c ← getTmr t
  let i := c.matchCtr.toNat % (← Prog.ask).tmrWheelSize
  if (← getTmrSpoke i).firstPtr = some t then
    modTmrSpoke i fun k => { k with firstPtr := c.nextPtr }
    match c.nextPtr with
    | none => pure ()
    | some t1 => modTmr t1 fun c1 => { c1 with prevPtr := none }
  else
    let t1 ← Prog.deref c.prevPtr
    modTmr t1 fun c1 => { c1 with nextPtr := c.nextPtr }
    match c.nextPtr with
    | none => pure ()
    | some t2 => modTmr t2 fun c2 => { c2 with prevPtr := some t1 }
  modTmr t fun c => { c with state := .stopped, nextPtr := none, prevPtr := none }
  modTmrSpoke i fun k => { k with nbrEntries := k.nbrEntries - 1 }

def osTmrCreate (p : Option TmrId) (dly period : Tick) (opt : Opt) (callback : Option Callback) (arg : Option ℕ) : T Err := do
  if (← Prog.get).os.intNestingCtr > 0 then return .tmrISR
  match p with
  | none => return .objPtrNull
  | some t =>
    if opt = optTmrPeriodic then
      if period = 0 then return .tmrInvalidPeriod
    else if opt = optTmrOneShot then
      if dly = 0 then return .tmrInvalidDly
    else return .optInvalid
    modTmr t fun _ =>
      { isTmr := true, callbackPtr := callback, callbackPtrArg := arg, nextPtr := none, prevPtr := none, matchCtr := 0,
        remain := 0, dly := dly, period := period, opt := opt, state := .stopped }
    Prog.modify fun s => { s with tmrQty := s.tmrQty + 1 }
    return .none

/-- What `OSTmrStart`, `OSTmrStop`, `OSTmrRemainGet` and `OSTmrStateGet` ask of their callers before they look at
the timer. -/
def checkTmr (p : Option TmrId) (m : TmrId → T Ret) : T Ret := do
  let s ← Prog.get
  if s.os.intNestingCtr > 0 then return { err := .tmrISR }
  match p with
  | none => return { err := .tmrInvalid }
  | some t => if (s.tmr t).isTmr = false then return { err := .objType } else m t

def osTmrStart (p : Option TmrId) : T Ret :=
  checkTmr p fun t => do
    let _ ← onKernel osSchedLock
    match (← getTmr t).state with
    | .running =>
      tmrUnlink t
      tmrLink t optLinkDly
      let _ ← onKernel osSchedUnlock
      return { err := .none, val := 1 }
    | .stopped | .completed =>
      tmrLink t optLinkDly
      let _ ← onKernel osSchedUnlock
      return { err := .none, val := 1 }
    | .unused =>
      let _ ← onKernel osSchedUnlock
      return { err := .tmrInactive }

/-- The callback that `OSTmrStop` runs, with the argument `arg`. -/
def stopCallback (t : TmrId) (arg : Option ℕ) : T Err := do
  match (← getTmr t).callbackPtr with
  | none => return .tmrNoCallback
  | some f =>
    runCallback f t arg
    return .none

def osTmrStop (p : Option TmrId) (opt : Opt) (callbackArg : Option ℕ) : T Ret :=
  checkTmr p fun t => do
    let _ ← onKernel osSchedLock
    match (← getTmr t).state with
    | .running =>
      tmrUnlink t
      if opt = optTmrCallback then
        let e ← stopCallback t (← getTmr t).callbackPtrArg
        let _ ← onKernel osSchedUnlock
        return { err := e, val := 1 }
      else if opt = optTmrCallbackArg then
        let e ← stopCallback t callbackArg
        let _ ← onKernel osSchedUnlock
        return { err := e, val := 1 }
      else if opt = optTmrNone then
        let _ ← onKernel osSchedUnlock
        return { err := .none, val := 1 }
      else
        let _ ← onKernel osSchedUnlock
        return { err := .optInvalid }
    | .completed | .stopped =>
      let _ ← onKernel osSchedUnlock
      return { err := .tmrStopped, val := 1 }
    | .unused =>
      let _ ← onKernel osSchedUnlock
      return { err := .tmrInactive }

def osTmrRemainGet (p : Option TmrId) : T Ret :=
  checkTmr p fun t => do
    let _ ← onKernel osSchedLock
    let c ← getTmr t
    match c.state with
    | .running =>
      let remain := c.matchCtr - (← Prog.get).tmrTickCtr
      modTmr t fun c => { c with remain := remain }
      let _ ← onKernel osSchedUnlock
      return { err := .none, val := remain.toNat }
    | .stopped =>
      let remain := if c.opt = optTmrPeriodic ∧ c.dly = 0 then c.period else c.dly
      modTmr t fun c => { c with remain := remain }
      let _ ← onKernel osSchedUnlock
      return { err := .none, val := remain.toNat }
    | .completed =>
      let _ ← onKernel osSchedUnlock
      return { err := .none }
    | .unused =>
      let _ ← onKernel osSchedUnlock
      return { err := .tmrInactive }

/-- The number of the state, as `OSTmrStateGet` returns it. -/
def TmrState.code : TmrState → ℕ
  | unused => 0
  | stopped => 1
  | running => 2
  | completed => 3

def osTmrStateGet (p : Option TmrId) : T Ret :=
  checkTmr p fun t => do return { err := .none, val := (← getTmr t).state.code }

def tmrTaskStep (p : Option TmrId) : T (Option TmrId ⊕ Unit) :=
  match p with
  | none => return .inr ()
  | some t => do
    let c ← getTmr t
    if (← Prog.get).tmrTickCtr = c.matchCtr then
      tmrUnlink t
      if (← getTmr t).opt = optTmrPeriodic then tmrLink t optLinkPeriodic
      else modTmr t fun c => { c with state := .completed }
      match (← getTmr t).callbackPtr with
      | none => pure ()
      | some f => runCallback f t (← getTmr t).callbackPtrArg
      return .inl c.nextPtr
    else return .inr ()

def tmrTask : T Unit := do
  let _ ← onKernel osSchedLock
  Prog.modify fun s => { s with tmrTickCtr := s.tmrTickCtr + 1 }
  let i := (← Prog.get).tmrTickCtr.toNat % (← Prog.ask).tmrWheelSize
  Prog.loop tmrTaskStep (← getTmrSpoke i).firstPtr
  let _ ← onKernel osSchedUnlock

/-- The kernel `o` with the timers as `OS_TmrInit` sets them up, but for the time that the clock starts with. -/
def tmrInit (o : OS) (start : Tick) : Sys where
  os := o
  tmr _ :=
    { isTmr := false, callbackPtr := none, callbackPtrArg := none, nextPtr := none, prevPtr := none, matchCtr := 0,
      remain := 0, dly := 0, period := 0, opt := 0, state := .unused }
  tmrWheel _ := { firstPtr := none, nbrEntries := 0, nbrEntriesMax := 0 }
  tmrTickCtr := start
  tmrQty := 0
  firings := []

end UcosIII
