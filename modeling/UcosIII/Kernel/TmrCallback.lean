import UcosIII.Kernel.Timer

/-!
The timer task with callbacks that start and stop timers (`os_tmr.c`). What callbacks do is given by a script: the
callback that runs when `k` others have been run makes the calls of entry `k`, and none past the end. A callback may
decide by anything it sees, so a run of callbacks with any behaviour is a run by some script.
-/

namespace UcosIII

inductive TmrOp where
  | start (p : Option TmrId)
  | stop (p : Option TmrId) (opt : Opt) (callbackArg : Option ℕ)
deriving DecidableEq

abbrev TmrScript := List (List TmrOp)

/-- `(*p_fnct)((void *)p_tmr, arg)`, for callbacks in general. -/
abbrev RunCallback := Callback → TmrId → Option ℕ → T Unit

def stopCallbackBy (run : RunCallback) (t : TmrId) (arg : Option ℕ) : T Err := do
  match (← getTmr t).callbackPtr with
  | none => return .tmrNoCallback
  | some f =>
    run f t arg
    return .none

def osTmrStopBy (run : RunCallback) (p : Option TmrId) (opt : Opt) (callbackArg : Option ℕ) : T Ret :=
  checkTmr p fun t => do
    let _ ← onKernel osSchedLock
    match (← getTmr t).state with
    | .running =>
      tmrUnlink t
      if opt = optTmrCallback then
        let e ← stopCallbackBy run t (← getTmr t).callbackPtrArg
        let _ ← onKernel osSchedUnlock
        return { err := e, val := 1 }
      else if opt = optTmrCallbackArg then
        let e ← stopCallbackBy run t callbackArg
        let _ ← onKernel osSchedUnlock
        return { err := e, val := 1 }
      else if opt = optTmrNone then
        let _ ← onKernel osSchedUnlock
        return { err := .none, val := 1 }
      else
        let _ ← onKernel osSchedUnlock
        return { err := .optInvalid }
    | .completed | .stopped =>
      let _ ← onKernel osSchedUnlock
      return { err := .tmrStopped, val := 1 }
    | .unused =>
      let _ ← onKernel osSchedUnlock
      return { err := .tmrInactive }

theorem osTmrStop_eq (p : Option TmrId) (opt : Opt) (arg : Option ℕ) :
    osTmrStop p opt arg = osTmrStopBy runCallback p opt arg :=
  rfl

namespace TmrOp

def exec (run : RunCallback) : TmrOp → T Unit
  | start p => do let _ ← osTmrStart p
  | stop p opt callbackArg => do let _ ← osTmrStopBy run p opt callbackArg

def execAll (run : RunCallback) : List TmrOp → T Unit
  | [] => pure ()
  | op :: ops => do
    op.exec run
    execAll run ops

end TmrOp

/-- A callback by the script, with at most `k` callbacks inside each other. -/
def callbackN (script : TmrScript) : ℕ → RunCallback
  | 0, _, _, _ => Prog.fault
  | k + 1, f, t, arg => do
    let ops := script.getD (← Prog.get).firings.length []
    Prog.modify fun s => { s with firings := ⟨f, t, arg⟩ :: s.firings }
    TmrOp.execAll (callbackN script k) ops

section below

open Prog

variable {run run' : RunCallback} {t : TmrId}

theorem below_stopCallbackBy (h : ∀ f t arg, Below (run f t arg) (run' f t arg)) (arg : Option ℕ) :
    Below (stopCallbackBy run t arg) (stopCallbackBy run' t arg) := by
  refine below_bind (below_refl _) fun a => ?_
  cases a.callbackPtr with
  | none => exact below_refl _
  | some f => exact below_bind (h f t arg) fun _ => below_refl _

theorem below_osTmrStopBy (h : ∀ f t arg, Below (run f t arg) (run' f t arg)) (p : Option TmrId) (opt : Opt)
    (arg : Option ℕ) : Below (osTmrStopBy run p opt arg) (osTmrStopBy run' p opt arg) := by
  refine below_bind (below_refl _) fun s => below_ite (below_refl _) ?_
  cases p with
  | none => exact below_refl _
  | some t =>
    refine below_ite (below_refl _) (below_bind (below_refl _) fun _ => below_bind (below_refl _) fun a => ?_)
    cases a.state with
    | running =>
      refine below_bind (below_refl _) fun _ => below_ite ?_ (below_ite ?_ (below_refl _))
      · exact below_bind (below_refl _) fun _ => below_bind (below_stopCallbackBy h _) fun _ => below_refl _
      · exact below_bind (below_stopCallbackBy h _) fun _ => below_refl _
    | stopped | completed | unused => exact below_refl _

theorem TmrOp.below_exec (h : ∀ f t arg, Below (run f t arg) (run' f t arg)) (op : TmrOp) :
    Below (op.exec run) (op.exec run') := by
  cases op with
  | start p => exact below_refl _
  | stop p opt arg => exact below_bind (below_osTmrStopBy h p opt arg) fun _ => below_refl _

theorem TmrOp.below_execAll (h : ∀ f t arg, Below (run f t arg) (run' f t arg)) (ops : List TmrOp) :
    Below (TmrOp.execAll run ops) (TmrOp.execAll run' ops) := by
  induction ops with
  | nil => exact below_refl _
  | cons op ops ih => exact below_bind (op.below_exec h) fun _ => ih

theorem below_callbackN (script : TmrScript) {k k' : ℕ} (hk : k ≤ k') (f : Callback) (t : TmrId) (arg : Option ℕ) :
    Below (callbackN script k f t arg) (callbackN script k' f t arg) := by
  induction k generalizing k' f t arg with
  | zero => exact below_fault _
  | succ k ih =>
    obtain ⟨k', rfl⟩ : ∃ j, k' = j + 1 := ⟨k' - 1, by omega⟩
    refine below_bind (below_refl _) fun s => below_bind (below_refl _) fun _ => ?_
    exact TmrOp.below_execAll (fun f t arg => ih (by omega) f t arg) _

end below

def runCallbackBy (script : TmrScript) : RunCallback := fun f t arg =>
  Prog.bounded (fun k => callbackN script k f t arg) fun hk => below_callbackN script hk f t arg

/-- A timer that a turn of the timer task has dealt with, and how many callbacks had been run before. -/
abbrev Expiry := TmrId × ℕ

/-- One turn of the inner loop of `OS_TmrTask`; `done` are the timers that it has dealt with. -/
def tmrTaskStepBy (script : TmrScript) (x : Option TmrId × List Expiry) :
    T ((Option TmrId × List Expiry) ⊕ List Expiry) :=
  match x with
  | (none, done) => return .inr done
  | (some t, done) => do
    let c ← getTmr t
    if (← Prog.get).tmrTickCtr = c.matchCtr then
      let calls := (← Prog.get).firings.length
      tmrUnlink t
      if (← getTmr t).opt = optTmrPeriodic then tmrLink t optLinkPeriodic
      else modTmr t fun c => { c with state := .completed }
      match (← getTmr t).callbackPtr with
      | none => pure ()
      | some f => runCallbackBy script f t (← getTmr t).callbackPtrArg
      return .inl (c.nextPtr, done ++ [(t, calls)])
    else return .inr done

/-- One turn of `OS_TmrTask`, after its `OSTaskSemPend`. -/
def tmrTaskBy (script : TmrScript) : T (List Expiry) := do
  let _ ← onKernel osSchedLock
  Prog.modify fun s => { s with tmrTickCtr := s.tmrTickCtr + 1 }
  let i := (← Prog.get).tmrTickCtr.toNat % (← Prog.ask).tmrWheelSize
  let expiries ← Prog.loop (tmrTaskStepBy script) ((← getTmrSpoke i).firstPtr, [])
  let _ ← onKernel osSchedUnlock
  return expiries

end UcosIII
