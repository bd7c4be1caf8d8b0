import UcosIII.Kernel.Script

/-!
`OSTaskSemPendAbort` (`os_task.c`), one critical section at a time. The first one tests what the target waits on, the second
one ends its wait; between them the caller may be preempted, and anything may happen. `OSTaskQPendAbort` does both in one
critical section, as the call of the kernel does.
-/

namespace UcosIII

def taskSemPendAbortTest (p : Option TcbId) (opt : Opt) : K (Ret ⊕ TcbId) := do
  let s ← Prog.get
  if s.intNestingCtr > 0 then return .inl { err := .pendAbortISR }
  if postOptValid opt = false then return .inl { err := .optInvalid }
  if p = none ∨ p = s.tcbCurPtr then return .inl { err := .pendAbortSelf }
  let t ← Prog.deref p
  if (← getTcb t).pendOn ≠ .taskSem then return .inl { err := .pendAbortNone }
  return .inr t

def taskSemPendAbortRest (t : TcbId) (opt : Opt) : K Ret := do
  let s ← Prog.get
  pendAbort none t s.tsNow
  schedOpt opt
  return { err := .none, val := 1 }

/-- `mid` is the target and the option of the call whose first critical section a task has left. -/
structure AbortSys where
  os : OS
  mid : TcbId → Option (TcbId × Opt)

inductive AbortEvent where
  | event (e : Event)
  | test (p : Option TcbId) (opt : Opt)
  | rest

/-- A step of a run: the state before it, the event and the answer. -/
structure AbortRec where
  pre : AbortSys
  event : AbortEvent
  ret : Option Ret

def AbortSys.free (d : AbortSys) : Prop := ∀ t ∈ d.os.tcbCurPtr, d.mid t = none

def Event.inTwo : Event → Bool
  | .call (.taskSemPendAbort ..) => true
  | _ => false

def Event.byTask (s : OS) : Event → Bool
  | .call _ => s.intNestingCtr = 0
  | .finish | .tickUpdate => true
  | .start | .intEnter | .intExit | .timeTick | .clock _ => false

def AbortSys.after (d : AbortSys) (s : OS) : AbortSys :=
  { os := s, mid := fun t => if (s.tcb t).taskState = .del then none else d.mid t }

inductive AbortStep (c : Reading) (cfg : Cfg) : AbortSys → AbortEvent → Option Ret → AbortSys → Prop
  | event {d : AbortSys} {e : Event} {r : Option Ret} {s : OS} (enabled : Enabled d.os e)
      (free : e.byTask d.os = true → d.free) (other : e.inTwo = false) (exec : Prog.RunsIn c cfg e.exec d.os r s) :
      AbortStep c cfg d (.event e) r (d.after s)
  | refused {d : AbortSys} {p : Option TcbId} {opt : Opt} {r : Ret} {s : OS} (atTask : d.os.atTask) (free : d.free)
      (exec : Prog.RunsIn c cfg (taskSemPendAbortTest p opt) d.os (.inl r) s) :
      AbortStep c cfg d (.test p opt) (some r) { d with os := s }
  | tested {d : AbortSys} {p : Option TcbId} {opt : Opt} {u t : TcbId} {s : OS} (atTask : d.os.atTask) (free : d.free)
      (cur : d.os.tcbCurPtr = some u) (exec : Prog.RunsIn c cfg (taskSemPendAbortTest p opt) d.os (.inr t) s) :
      AbortStep c cfg d (.test p opt) none { os := s, mid := Function.update d.mid u (some (t, opt)) }
  | rest {d : AbortSys} {opt : Opt} {u t : TcbId} {r : Ret} {s : OS} (atTask : d.os.atTask)
      (cur : d.os.tcbCurPtr = some u) (mid : d.mid u = some (t, opt))
      (exec : Prog.RunsIn c cfg (taskSemPendAbortRest t opt) d.os r s) :
      AbortStep c cfg d .rest (some r) { os := s, mid := Function.update d.mid u none }

/-- The runs from `OSInit` on, the last step first, in which every step keeps to `P`. -/
inductive AbortRun (c : Reading) (cfg : Cfg) (P : List AbortRec → AbortRec → Prop) : List AbortRec → AbortSys → Prop
  | init {s : OS} (h : Prog.RunsIn c cfg osInit (OS.boot cfg) () s) : AbortRun c cfg P [] ⟨s, fun _ => none⟩
  | step {h : List AbortRec} {d d' : AbortSys} {e : AbortEvent} {r : Option Ret} (run : AbortRun c cfg P h d)
      (step : AbortStep c cfg d e r d') (keeps : P h ⟨d, e, r⟩) : AbortRun c cfg P (⟨d, e, r⟩ :: h) d'

end UcosIII
