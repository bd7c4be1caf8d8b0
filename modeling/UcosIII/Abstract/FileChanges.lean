import UcosIII.Abstract.Files
import UcosIII.Abstract.Refinement

namespace UcosIII

open Prog

namespace File

def fresh (f : File) : File where
  state := .rdy
  suspendCtr := 0
  pendOn := .nothing
  pendStatus := .ok
  table := []
  mail := ⟨none, 0, 0⟩
  semCtr := 0
  msgs := 0
  flagsPend := 0
  flagsRdy := 0
  flagsOpt := 0
  row := f.row
  cont := f.cont

def erased (f : File) : File := { f.fresh with state := .del, cont := .none }

def suspended (f : File) : File :=
  match f.state with
  | .rdy => { f with state := .suspended, suspendCtr := 1 }
  | .dly => { f with state := .dlySuspended, suspendCtr := 1 }
  | .pend => { f with state := .pendSuspended, suspendCtr := 1 }
  | .pendTimeout => { f with state := .pendTimeoutSuspended, suspendCtr := 1 }
  | .suspended | .dlySuspended | .pendSuspended | .pendTimeoutSuspended => { f with suspendCtr := f.suspendCtr + 1 }
  | .del => f

def lessSuspended (st : TaskState) (f : File) : File :=
  { f with suspendCtr := f.suspendCtr - 1, state := if f.suspendCtr - 1 = 0 then st else f.state }

def resumed (f : File) : File :=
  match f.state with
  | .suspended => f.lessSuspended .rdy
  | .dlySuspended => f.lessSuspended .dly
  | .pendSuspended => f.lessSuspended .pend
  | .pendTimeoutSuspended => f.lessSuspended .pendTimeout
  | .rdy | .dly | .pend | .pendTimeout | .del => f

def signalled (ts : ℕ) (f : File) : File :=
  let f' := { f with mail := { f.mail with ts := ts } }
  if f.state.isPend = true ∧ f.pendOn = .taskSem then f'.posted none ⟨none, 0, ts⟩
  else if f.state = .del ∨ f.semCtr = 0xFFFFFFFF then f'
  else { f' with semCtr := f.semCtr + 1 }

def waits (t : TcbId) (o : Option ObjId) (kind : PendOn) (timed : Bool) (k : Cont) (f : File) : File :=
  { f with
    state := if timed then .pendTimeout else .pend
    pendOn := kind
    pendStatus := .ok
    table := if o = none then [] else [(t, 0)]
    row := if o = none then f.row else Function.update f.row 0 (o, ⟨none, none, 0, 0⟩)
    cont := k }

def waitsMulti (t : TcbId) (i : ℕ) (objs : List (Option ObjId)) (timed : Bool) (f : File) : File :=
  { f with
    state := if timed then .pendTimeout else .pend
    pendOn := .multi
    pendStatus := .ok
    table := entriesFrom (t, i) objs.length
    row := fun j => if h : i ≤ j ∧ j - i < objs.length then (objs.get ⟨j - i, h.2⟩, ⟨none, none, 0, 0⟩) else f.row j
    cont := .multiPend }

end File

/-- `p_tcb`, or the calling task for the null pointer. -/
def OS.Target (s : OS) (p : Option TcbId) (t : TcbId) : Prop := p = some t ∨ p = none ∧ s.tcbCurPtr = some t

instance (s : OS) (p : Option TcbId) (t : TcbId) : Decidable (s.Target p t) := inferInstanceAs (Decidable (_ ∨ _))

theorem OS.Target.unique {s : OS} {p : Option TcbId} {t u : TcbId} (hu : s.Target p u) (ht : s.Target p t) : u = t := by
  rcases hu with hu | ⟨hu, hcu⟩ <;> rcases ht with ht | ⟨ht, hct⟩
  · exact Option.some_inj.mp (hu.symm.trans ht)
  · rw [hu] at ht
    cases ht
  · rw [hu] at ht
    cases ht
  · exact Option.some_inj.mp (hcu.symm.trans hct)

def Event.Change (s : OS) (r : Option Ret) (t : TcbId) (f f' : File) : Event → Prop
  | .call (.taskCreate a) => a.tcb = some t ∧ f' = f.fresh
  | .call (.taskDel p) => s.Target p t ∧ f' = f.erased
  | .call (.taskSuspend p) => s.Target p t ∧ f' = f.suspended
  | .call (.taskResume p) => p = some t ∧ f' = f.resumed
  | .call (.taskSemSet p cnt) => s.intNestingCtr = 0 ∧ s.Target p t ∧ f' = { f with semCtr := cnt }
  | .call (.taskSemPost p opt) => postOptValid opt = true ∧ s.Target p t ∧ f' = f.signalled s.tsNow
  | .timeTick => (t = tickTaskTCB ∨ t = tmrTaskTCB ∧ s.tmrUpdateCtr - 1 = 0) ∧ f' = f.signalled s.tsNow
  | .call (.taskQPost p pVoid msgSize _) =>
    s.Target p t ∧ (f.state.isPend = true ∧ f.pendOn = .taskQ ∧ f' = f.posted none ⟨pVoid, msgSize, s.tsNow⟩ ∨
      ¬ (f.state.isPend = true ∧ f.pendOn = .taskQ) ∧ ∃ k, f' = { f with msgs := k })
  | .call (.taskQFlush p) => s.Target p t ∧ f' = { f with msgs := 0 }
  | .call (.semPost (some o) _) | .call (.mutexPost (some o) _) =>
    f.state.isPend = true ∧ f' = f.posted (some o) ⟨none, 0, s.tsNow⟩
  | .call (.qPost (some o) pVoid msgSize _) => f.state.isPend = true ∧ f' = f.posted (some o) ⟨pVoid, msgSize, s.tsNow⟩
  | .call (.flagPost (some o) _ _) =>
    f.state.isPend = true ∧ (∃ flagsRdy, f' = f.flagged flagsRdy s.tsNow) ∨
      s.tcbCurPtr = some t ∧ r = none ∧ f' = { f with cont := .flagPost o }
  | .call (.semPendAbort (some o) _) | .call (.qPendAbort (some o) _) =>
    f.state.isPend = true ∧ f' = f.aborted (some o) s.tsNow
  | .call (.taskSemPendAbort p _) => p = some t ∧ f.state.isPend = true ∧ f.pendOn = .taskSem ∧ f' = f.aborted none s.tsNow
  | .call (.taskQPendAbort p _) => p = some t ∧ f.state.isPend = true ∧ f.pendOn = .taskQ ∧ f' = f.aborted none s.tsNow
  | .tickUpdate => f' = f.expired s.tsNow
  | .call (.timeDly ..) | .call (.timeDlyHMSM ..) => s.tcbCurPtr = some t ∧ f' = { f with state := .dly }
  | .call (.taskSemPend ..) => s.tcbCurPtr = some t ∧ match r with
    | none => f.semCtr = 0 ∧ ∃ timed, f' = f.waits t none .taskSem timed .taskSemPend
    | some _ => 0 < f.semCtr ∧ f' = { f with semCtr := f.semCtr - 1 }
  | .call (.taskQPend ..) => s.tcbCurPtr = some t ∧ match r with
    | none => f.msgs = 0 ∧ ∃ timed, f' = f.waits t none .taskQ timed .taskQPend
    | some _ => ∃ k, f' = { f with msgs := k }
  | .call (.semPend (some o) ..) => s.tcbCurPtr = some t ∧ r = none ∧ ∃ timed, f' = f.waits t (some o) .sem timed (.semPend o)
  | .call (.qPend (some o) ..) => s.tcbCurPtr = some t ∧ r = none ∧ ∃ timed, f' = f.waits t (some o) .q timed .qPend
  | .call (.mutexPend (some o) ..) =>
    s.tcbCurPtr = some t ∧ r = none ∧ ∃ timed, f' = f.waits t (some o) .mutex timed (.mutexPend o)
  | .call (.flagPend (some o) flags _ opt) => s.tcbCurPtr = some t ∧ match r with
    | none => ∃ timed, f' = { f with flagsPend := flags, flagsOpt := opt, flagsRdy := 0 }.waits t (some o) .flag timed
        (.flagPend o (opt &&& optPendFlagMask) (opt &&& optPendFlagConsume ≠ 0))
    | some _ => ∃ flagsRdy, f' = { f with flagsRdy := flagsRdy }
  | .call (.pendMulti (some i) objs ..) => s.tcbCurPtr = some t ∧ match r with
    | none => ∃ timed, f' = f.waitsMulti t i objs timed
    | some _ => ∃ row, f' = { f with row := row }
  | .finish => s.tcbCurPtr = some t ∧
    f' = { f with cont := .none, pendStatus := if f.cont = .multiPend then .ok else f.pendStatus }
  | _ => False

def Filed (s : OS) (e : Event) (r : Option Ret) (s' : OS) : Prop :=
  ∀ t, s'.file t = s.file t ∨ e.Change s r t (s.file t) (s'.file t)

variable {n : ℕ} {cfg : Cfg} {s s' : OS} {a : Abs} {t x : TcbId} {d : PdId} {o : Option ObjId} {e : Event} {r : Option Ret}
  {α β : Type}

theorem Filed.same (h : s'.file = s.file) : Filed s e r s' := fun t => .inl (congrFun h t)

theorem Filed.one {f : File} (h : s'.file = Function.update s.file t f) (hf : e.Change s r t (s.file t) f) :
    Filed s e r s' := by
  intro x
  rw [h, Function.update_apply]
  split
  · subst x
    exact .inr hf
  · exact .inl rfl

theorem Filed.of_keeps {m : K (Option Ret)} (h : Keeps OS.file m) : wp n cfg m (fun r s' => Filed s e r s') s :=
  (h n cfg s).mono fun _ _ hs => .same hs

section quiet

theorem keeps_file_loadTimeQuanta (p : ℕ) : Keeps OS.file (loadTimeQuanta p) := by
  refine keeps_bind (keeps_getRdyList p) fun _ => keeps_bind (keeps_deref _) fun t => keeps_bind keeps_get fun _ => ?_
  exact keeps_file_modTcb (by intro c r k; rfl) t

def OS.noMsgs (s : OS) : OS := { s with msg := fun _ => ⟨none, none, 0, 0⟩, msgPool := ⟨none, 0, 0, 0⟩ }

theorem keeps_noMsgs_modMsg (m : MsgId) (f : Msg → Msg) : Keeps OS.noMsgs (modMsg m f) := keeps_modify fun _ => rfl

theorem keeps_noMsgs_modMsgPool (f : MsgPool → MsgPool) : Keeps OS.noMsgs (modMsgPool f) := keeps_modify fun _ => rfl

theorem keeps_noMsgs_msgQFreeAll (q : MsgQ) : Keeps OS.noMsgs (msgQFreeAll q) := by
  rw [msgQFreeAll]
  refine keeps_ite (keeps_bind (keeps_deref _) fun m => keeps_bind keeps_getMsgPool fun _ => ?_) (keeps_pure _)
  exact keeps_bind (keeps_noMsgs_modMsg m _) fun _ => keeps_bind (keeps_noMsgs_modMsgPool _) fun _ => keeps_pure _

theorem keeps_noMsgs_msgQGet (q : MsgQ) : Keeps OS.noMsgs (msgQGet q) := by
  rw [msgQGet]
  refine keeps_ite (keeps_pure _) (keeps_bind (keeps_deref _) fun m => keeps_bind (keeps_getMsg m) fun g => ?_)
  refine keeps_bind keeps_getMsgPool fun _ => keeps_bind (keeps_noMsgs_modMsg m _) fun _ => ?_
  exact keeps_bind (keeps_noMsgs_modMsgPool _) fun _ => keeps_pure _

theorem keeps_noMsgs_msgQPut (q : MsgQ) (pVoid : Option ℕ) (msgSize : ℕ) (opt : Opt) (ts : ℕ) :
    Keeps OS.noMsgs (msgQPut q pVoid msgSize opt ts) := by
  have hmsg := keeps_noMsgs_modMsg
  have hpool := keeps_noMsgs_modMsgPool
  rw [msgQPut]
  refine keeps_ite (keeps_pure _) (keeps_bind keeps_getMsgPool fun _ => keeps_ite (keeps_pure _) ?_)
  refine keeps_bind keeps_getMsgPool fun pool => keeps_bind (keeps_deref _) fun m => keeps_bind (keeps_getMsg m) fun g => ?_
  refine keeps_bind (hpool _) fun _ => keeps_ite ?_ (keeps_ite ?_ ?_)
  all_goals grind

theorem keeps_file_rdyChangePrio (t : TcbId) (prio : ℕ) (atHead : Bool) : Keeps OS.file (rdyChangePrio t prio atHead) := by
  refine keeps_bind (keeps_file_rdyListRemove t) fun _ => keeps_bind (keeps_file_modTcb (by intro c r k; rfl) t) fun _ => ?_
  refine keeps_bind (keeps_file_prioInsert prio) fun _ => keeps_ite (keeps_file_rdyListInsertHead t) ?_
  exact keeps_file_rdyListInsertTail t

theorem keeps_file_pendListChangePrio (t : TcbId) (prio : ℕ) : Keeps OS.file (pendListChangePrio t prio) := by
  refine keeps_bind (keeps_file_modTcb (by intro c r k; rfl) t) fun _ => keeps_forTable (fun d => ?_) t
  refine keeps_bind (keeps_getPendData d) fun _ => keeps_bind (keeps_deref _) fun o => keeps_bind (keeps_getObj o) fun _ => ?_
  refine keeps_ite (keeps_bind (keeps_file_pendListRemove1 o d) fun _ => ?_) (keeps_pure ())
  exact keeps_file_pendListInsertPrio o d

theorem keeps_file_osTaskChangePrio (p : Option TcbId) (prioNew : ℕ) : Keeps OS.file (osTaskChangePrio p prioNew) := by
  have hprio (t : TcbId) : Keeps OS.file (modTcb t fun c => { c with prio := prioNew }) :=
    keeps_file_modTcb (by intro c r k; rfl) t
  have htcb (t : TcbId) (self : Bool) : Keeps OS.file (changePrioTcb t prioNew self) := by
    rw [changePrioTcb]
    refine keeps_bind (keeps_getTcb t) fun c => ?_
    cases c.taskState with
    | rdy => exact keeps_bind (keeps_file_rdyChangePrio t prioNew self) fun _ => keeps_pure _
    | dly | suspended | dlySuspended => exact keeps_bind (hprio t) fun _ => keeps_pure _
    | del => exact keeps_pure _
    | pend | pendTimeout | pendSuspended | pendTimeoutSuspended =>
      cases c.pendOn with
      | taskQ | taskSem | flag => exact keeps_bind (hprio t) fun _ => keeps_pure _
      | mutex | multi | q | sem => exact keeps_bind (keeps_file_pendListChangePrio t prioNew) fun _ => keeps_pure _
      | nothing => exact keeps_pure _
  refine keeps_bind keeps_get fun _ => keeps_ite (keeps_pure _) (keeps_bind keeps_ask fun _ => keeps_ite (keeps_pure _) ?_)
  refine keeps_bind (keeps_orCur p) fun t => keeps_bind (htcb t _) fun _ => keeps_ite (keeps_pure _) ?_
  exact keeps_bind keeps_file_osSched fun _ => keeps_pure _

theorem keeps_file_osTaskTimeQuantaSet (p : Option TcbId) (q : Tick) : Keeps OS.file (osTaskTimeQuantaSet p q) := by
  refine keeps_bind keeps_get fun _ => keeps_ite (keeps_pure _) (keeps_bind (keeps_orCur p) fun t => ?_)
  refine keeps_bind (keeps_file_modTcb (by intro c r k; rfl) t) fun _ => ?_
  exact keeps_bind (keeps_file_modTcb (by intro c r k; rfl) t) fun _ => keeps_pure _

theorem keeps_file_objects :
    (∀ p cnt, Keeps OS.file (osSemCreate p cnt)) ∧ (∀ p cnt, Keeps OS.file (osSemSet p cnt)) ∧
      (∀ p q, Keeps OS.file (osQCreate p q)) ∧ (∀ p, Keeps OS.file (osMutexCreate p)) ∧
      ∀ p f, Keeps OS.file (osFlagCreate p f) := by
  refine ⟨fun p cnt => ?_, fun p cnt => ?_, fun p q => ?_, fun p => ?_, fun p f => ?_⟩
  · refine keeps_bind keeps_get fun _ => keeps_ite (keeps_pure _) ?_
    cases p with
    | none => exact keeps_pure _
    | some o => exact keeps_bind (keeps_file_modObj o _) fun _ => keeps_pure _
  · refine keeps_bind keeps_get fun _ => keeps_ite (keeps_pure _) ?_
    cases p with
    | none => exact keeps_pure _
    | some o =>
      refine keeps_bind (keeps_getObj o) fun _ => keeps_ite (keeps_pure _) (keeps_ite ?_ (keeps_pure _))
      exact keeps_bind (keeps_file_modObj o _) fun _ => keeps_pure _
  · refine keeps_bind keeps_get fun _ => keeps_ite (keeps_pure _) ?_
    cases p with
    | none => exact keeps_pure _
    | some o => exact keeps_ite (keeps_pure _) (keeps_bind (keeps_file_modObj o _) fun _ => keeps_pure _)
  · refine keeps_bind keeps_get fun _ => keeps_ite (keeps_pure _) ?_
    cases p with
    | none => exact keeps_pure _
    | some o => exact keeps_bind keeps_ask fun _ => keeps_bind (keeps_file_modObj o _) fun _ => keeps_pure _
  · refine keeps_bind keeps_get fun _ => keeps_ite (keeps_pure _) ?_
    cases p with
    | none => exact keeps_pure _
    | some o => exact keeps_bind (keeps_file_modObj o _) fun _ => keeps_pure _

theorem keeps_file_osSchedUnlock : Keeps OS.file osSchedUnlock := by
  refine keeps_bind keeps_get fun _ => keeps_ite (keeps_pure _) (keeps_ite (keeps_pure _) (keeps_ite (keeps_pure _) ?_))
  refine keeps_bind (keeps_modify fun _ => rfl) fun _ => keeps_ite (keeps_pure _) ?_
  exact keeps_bind keeps_file_osSched fun _ => keeps_pure _

theorem keeps_file_osSchedLock : Keeps OS.file osSchedLock := by
  refine keeps_bind keeps_get fun _ => keeps_ite (keeps_pure _) (keeps_ite (keeps_pure _) (keeps_ite (keeps_pure _) ?_))
  exact keeps_bind (keeps_modify fun _ => rfl) fun _ => keeps_pure _

theorem keeps_file_osSchedRoundRobinYield : Keeps OS.file osSchedRoundRobinYield := by
  refine keeps_bind keeps_get fun s => keeps_ite (keeps_pure _) (keeps_ite (keeps_pure _) (keeps_ite (keeps_pure _) ?_))
  refine keeps_bind (keeps_getRdyList _) fun _ => keeps_ite (keeps_pure _) ?_
  refine keeps_bind (keeps_file_rdyListMoveHeadToTail _) fun _ => keeps_bind (keeps_file_loadTimeQuanta _) fun _ => ?_
  exact keeps_bind keeps_file_osSched fun _ => keeps_pure _

theorem keeps_file_schedRoundRobin (p : ℕ) : Keeps OS.file (schedRoundRobin p) := by
  refine keeps_bind keeps_get fun s => keeps_ite (keeps_pure _) (keeps_bind (keeps_getRdyList p) fun l => ?_)
  cases l.headPtr with
  | none => exact keeps_pure _
  | some t =>
    have hrest : Keeps OS.file (do
        if (← getTcb t).timeQuantaCtr > 0 then return ()
        if l.nbrEntries < 2 then return ()
        if s.schedLockNestingCtr > 0 then return ()
        rdyListMoveHeadToTail p
        loadTimeQuanta p) := by
      refine keeps_bind (keeps_getTcb t) fun _ => keeps_ite (keeps_pure _) (keeps_ite (keeps_pure _) ?_)
      refine keeps_ite (keeps_pure _) (keeps_bind (keeps_file_rdyListMoveHeadToTail p) fun _ => ?_)
      exact keeps_file_loadTimeQuanta p
    refine keeps_ite (keeps_pure _) (keeps_bind (keeps_getTcb t) fun _ => ?_)
    exact keeps_ite (keeps_bind (keeps_file_modTcb (by intro c r k; rfl) t) fun _ => hrest) hrest

theorem keeps_file_osIntExit : Keeps OS.file osIntExit := by
  refine keeps_bind keeps_get fun _ => keeps_ite (keeps_pure _) (keeps_ite (keeps_pure _) ?_)
  refine keeps_bind (keeps_modify fun _ => rfl) fun _ => keeps_ite (keeps_pure _) (keeps_ite (keeps_pure _) ?_)
  exact keeps_file_reschedule

theorem keeps_file_osIntEnter : Keeps OS.file osIntEnter := by
  refine keeps_bind keeps_get fun _ => keeps_ite (keeps_pure _) (keeps_ite (keeps_pure _) ?_)
  exact keeps_modify fun _ => rfl

theorem keeps_file_osStart : Keeps OS.file osStart := by
  refine keeps_bind keeps_get fun _ => keeps_ite (keeps_pure _) ?_
  refine keeps_bind (keeps_bind keeps_ask fun _ => keeps_prioScan _ _) fun p => keeps_bind (keeps_getRdyList p) fun _ => ?_
  exact keeps_bind (keeps_modify fun _ => rfl) fun _ => keeps_pure _

end quiet

section task

theorem wp_target {p : Option TcbId} {Q : TcbId → OS → Prop} :
    wp n cfg (orCur p) Q s ↔ ∀ t, s.Target p t → Q t s := by
  cases p <;> simp [orCur, OS.Target]

def ChangesOne (g : File → File) (W : TcbId → Prop) (s s' : OS) : Prop :=
  s'.file = s.file ∨ ∃ t, W t ∧ s'.file = Function.update s.file t (g (s.file t))

theorem ChangesOne.filed {g : File → File} {W : TcbId → Prop} (h : ChangesOne g W s s')
    (hW : ∀ t, W t → e.Change s r t (s.file t) (g (s.file t))) : Filed s e r s' := by
  rcases h with h | ⟨t, ht, h⟩
  · exact .same h
  · exact .one h (hW t ht)

/-- The call changes the file of the task it is about by `g` if it answers without an error, and no file otherwise. -/
def Answers (g : File → File) (W : TcbId → Prop) (x : Err) (s s' : OS) : Prop :=
  x = .none ∧ (∃ t, W t ∧ s'.file = Function.update s.file t (g (s.file t))) ∨ x ≠ .none ∧ s'.file = s.file

theorem Answers.filed {g : File → File} {W : TcbId → Prop} {x : Err} (h : Answers g W x s s')
    (hW : ∀ t, W t → e.Change s r t (s.file t) (g (s.file t))) : Filed s e r s' := by
  rcases h with ⟨-, t, ht, h⟩ | ⟨-, h⟩
  · exact .one h (hW t ht)
  · exact .same h

theorem suspendTcb_file : wp n cfg (suspendTcb t) (fun x s' =>
    x = (if (s.file t).state = .del then .stateInvalid else .none) ∧
      s'.file = Function.update s.file t (s.file t).suspended) s := by
  have hset (st : TaskState) (k : ℕ) : Alters t (fun f => { f with state := st, suspendCtr := BitVec.ofNat 8 k })
      (modTcb t fun c => { c with taskState := st, suspendCtr := BitVec.ofNat 8 k }) := alters_modTcb (by intro c r k; rfl)
  have hinc : Alters t (fun f => { f with suspendCtr := f.suspendCtr + 1 })
      (modTcb t fun c => { c with suspendCtr := c.suspendCtr + 1 }) := alters_modTcb (by intro c r k; rfl)
  rw [suspendTcb, wp_bind, wp_getTcb]
  cases hs : (s.tcb t).taskState with
  | rdy =>
    rw [File.suspended, show (s.file t).state = .rdy from hs, wp_bind]
    refine (hset .suspended 1 n cfg s).mono fun _ s₁ h₁ => ?_
    rw [wp_bind]
    exact (keeps_file_rdyListRemove t n cfg s₁).mono fun _ s₂ h₂ => wp_pure.mpr ⟨rfl, h₂.trans h₁⟩
  | dly =>
    rw [File.suspended, show (s.file t).state = .dly from hs, wp_bind]
    exact (hset .dlySuspended 1 n cfg s).mono fun _ s₁ h₁ => wp_pure.mpr ⟨rfl, h₁⟩
  | pend =>
    rw [File.suspended, show (s.file t).state = .pend from hs, wp_bind]
    exact (hset .pendSuspended 1 n cfg s).mono fun _ s₁ h₁ => wp_pure.mpr ⟨rfl, h₁⟩
  | pendTimeout =>
    rw [File.suspended, show (s.file t).state = .pendTimeout from hs, wp_bind]
    exact (hset .pendTimeoutSuspended 1 n cfg s).mono fun _ s₁ h₁ => wp_pure.mpr ⟨rfl, h₁⟩
  | suspended | dlySuspended | pendSuspended | pendTimeoutSuspended =>
    have hst : (s.file t).state = (s.tcb t).taskState := rfl
    rw [wp_bind]
    refine (hinc n cfg s).mono fun _ s₁ h₁ => wp_pure.mpr ⟨by simp [hst, hs], h₁.trans ?_⟩
    simp only [File.suspended, hst, hs]
  | del =>
    refine wp_pure.mpr ⟨by simp [show (s.file t).state = .del from hs], ?_⟩
    rw [File.suspended, show (s.file t).state = .del from hs]
    exact (Function.update_eq_self t s.file).symm

theorem osTaskSuspend_file (p : Option TcbId) :
    wp n cfg (osTaskSuspend p) (fun x s' => Answers File.suspended
      (fun t => s.Target p t ∧ (s.file t).state ≠ .del ∧ s.intNestingCtr = 0) x s s') s := by
  rw [osTaskSuspend, wp_bind, wp_get, wp_ite]
  refine ⟨fun _ => wp_pure.mpr (.inr ⟨by simp, rfl⟩), fun hint => wp_ite.mpr ⟨fun _ => wp_pure.mpr (.inr ⟨by simp, rfl⟩), fun _ => ?_⟩⟩
  rw [taskSuspend, wp_bind, wp_target]
  intro t ht
  rw [wp_bind, wp_get, wp_ite]
  refine ⟨fun _ => wp_pure.mpr (.inr ⟨by simp, rfl⟩), fun _ => ?_⟩
  rw [wp_bind]
  refine suspendTcb_file.mono ?_
  rintro _ s₁ ⟨rfl, h₁⟩
  by_cases hd : (s.file t).state = .del
  · rw [if_pos hd, if_pos rfl, wp_pure]
    refine .inr ⟨by simp, h₁.trans ?_⟩
    rw [File.suspended, hd]
    exact Function.update_eq_self t s.file
  · rw [if_neg hd, if_neg (by simp), wp_bind]
    exact (keeps_file_osSched n cfg s₁).mono fun _ s₂ h₂ => wp_pure.mpr (.inl ⟨rfl, t, ⟨ht, hd, by omega⟩, h₂.trans h₁⟩)

theorem resumeInto_file (st : TaskState) :
    wp n cfg (resumeInto t st) (fun _ s' => s'.file = Function.update s.file t ((s.file t).lessSuspended st)) s := by
  have hctr : (s.file t).suspendCtr = (s.tcb t).suspendCtr := rfl
  rw [resumeInto, wp_bind, wp_modTcb, wp_bind, wp_getTcb, OS.modTcb_tcb, if_pos rfl, wp_ite, File.lessSuspended, hctr]
  constructor
  · intro h0
    rw [wp_modTcb, OS.file_modTcb, OS.file_modTcb, Function.update_idem, OS.modTcb_tcb, if_pos rfl, if_pos h0]
    rfl
  · intro h0
    rw [wp_pure, OS.file_modTcb, if_neg h0]
    rfl

def TaskState.isHeld : TaskState → Bool
  | suspended | dlySuspended | pendSuspended | pendTimeoutSuspended => true
  | rdy | dly | pend | pendTimeout | del => false

theorem resumeTcb_file : wp n cfg (resumeTcb t) (fun x s' => (x = .none ↔ (s.file t).state.isHeld = true) ∧
    s'.file = Function.update s.file t (s.file t).resumed) s := by
  have hself : s.file = Function.update s.file t (s.file t) := (Function.update_eq_self t s.file).symm
  have hst : (s.file t).state = (s.tcb t).taskState := rfl
  rw [resumeTcb, wp_bind, wp_getTcb, File.resumed, hst]
  cases (s.tcb t).taskState with
  | rdy | dly | pend | pendTimeout | del => exact wp_pure.mpr ⟨by simp [TaskState.isHeld], hself⟩
  | suspended =>
    rw [wp_bind]
    refine (resumeInto_file .rdy).mono fun _ s₁ h₁ => ?_
    rw [wp_bind, wp_getTcb, wp_ite]
    refine ⟨fun _ => ?_, fun _ => wp_pure.mpr ⟨by simp [TaskState.isHeld], h₁⟩⟩
    rw [wp_bind]
    refine (keeps_file_taskRdy t n cfg s₁).mono fun _ s₂ h₂ => wp_pure.mpr ⟨by simp [TaskState.isHeld], h₂.trans h₁⟩
  | dlySuspended =>
    rw [wp_bind]
    exact (resumeInto_file .dly).mono fun _ s₁ h₁ => wp_pure.mpr ⟨by simp [TaskState.isHeld], h₁⟩
  | pendSuspended =>
    rw [wp_bind]
    exact (resumeInto_file .pend).mono fun _ s₁ h₁ => wp_pure.mpr ⟨by simp [TaskState.isHeld], h₁⟩
  | pendTimeoutSuspended =>
    rw [wp_bind]
    exact (resumeInto_file .pendTimeout).mono fun _ s₁ h₁ => wp_pure.mpr ⟨by simp [TaskState.isHeld], h₁⟩

theorem osTaskResume_file (p : Option TcbId) :
    wp n cfg (osTaskResume p) (fun x s' => Answers File.resumed (fun t => p = some t ∧ (s.file t).state.isHeld = true) x s s') s := by
  rw [osTaskResume, wp_bind, wp_get, wp_ite]
  refine ⟨fun _ => wp_pure.mpr (.inr ⟨by simp, rfl⟩), fun _ => wp_ite.mpr ⟨fun _ => wp_pure.mpr (.inr ⟨by simp, rfl⟩), fun _ => ?_⟩⟩
  rw [wp_bind, wp_deref]
  intro t ht
  rw [taskResume, wp_bind]
  refine resumeTcb_file.mono ?_
  rintro x s₁ ⟨hx, h₁⟩
  have hend (s₂ : OS) (h₂ : s₂.file = s₁.file) : Answers File.resumed (fun t => p = some t ∧
    (s.file t).state.isHeld = true) x s s₂ := by
    by_cases hh : (s.file t).state.isHeld = true
    · exact .inl ⟨hx.mpr hh, t, ⟨ht, hh⟩, h₂.trans h₁⟩
    · refine .inr ⟨fun h0 => hh (hx.mp h0), (h₂.trans h₁).trans ?_⟩
      rw [show (s.file t).resumed = s.file t by cases hs : (s.file t).state <;> simp_all [File.resumed, TaskState.isHeld]]
      exact Function.update_eq_self t s.file
  rw [wp_ite]
  refine ⟨fun _ => wp_pure.mpr (hend s₁ rfl), fun _ => ?_⟩
  rw [wp_bind]
  exact (keeps_file_osSched n cfg s₁).mono fun _ s₂ h₂ => wp_pure.mpr (hend s₂ h₂)

theorem taskStart_file (args : TaskArgs) :
    wp n cfg (taskStart t args) (fun _ s' => s'.file = Function.update s.file t (s.file t).fresh) s := by
  rw [taskStart, wp_bind, taskInitTCB, wp_bind, wp_ask, wp_modTcb, wp_bind, wp_get, wp_bind, wp_modTcb, wp_bind]
  refine (keeps_file_prioInsert _ n cfg _).mono fun _ s₁ h₁ => ?_
  refine (keeps_file_rdyListInsertTail t n cfg s₁).mono fun _ s₂ h₂ => ?_
  rw [h₂, h₁, OS.file_modTcb, OS.file_modTcb, Function.update_idem, OS.modTcb_tcb, if_pos rfl]
  rfl

theorem osTaskCreate_file (args : TaskArgs) :
    wp n cfg (osTaskCreate args) (fun x s' => Answers File.fresh (fun t => args.tcb = some t) x s s') s := by
  rw [osTaskCreate, wp_bind, wp_ask, wp_bind, wp_get]
  cases hc : taskCreateCheck cfg s args with
  | inl x => exact wp_pure.mpr (.inr ⟨taskCreateCheck_inl hc, rfl⟩)
  | inr t =>
    have ht : args.tcb = some t := (taskCreateCheck_inr hc).1
    rw [wp_bind]
    refine (taskStart_file args).mono fun _ s₁ h₁ => ?_
    rw [wp_bind, wp_get, wp_ite]
    refine ⟨fun _ => wp_pure.mpr (.inl ⟨rfl, t, ht, h₁⟩), fun _ => ?_⟩
    rw [wp_bind]
    exact (keeps_file_osSched n cfg s₁).mono fun _ s₂ h₂ => wp_pure.mpr (.inl ⟨rfl, t, ht, h₂.trans h₁⟩)

theorem taskUnlink_file :
    wp n cfg (taskUnlink t) (fun _ s' => ∃ l, s'.file = Function.update s.file t { s.file t with table := l }) s := by
  have hsame : s.file = Function.update s.file t { s.file t with table := (s.file t).table } :=
    (Function.update_eq_self t s.file).symm
  have hquiet {m : K Unit} (hm : Keeps OS.file m) :
      wp n cfg m (fun _ s' => ∃ l, s'.file = Function.update s.file t { s.file t with table := l }) s :=
    (hm n cfg s).mono fun _ _ h' => ⟨_, h'.trans hsame⟩
  rw [taskUnlink, wp_bind, wp_getTcb]
  cases (s.tcb t).taskState with
  | rdy => exact hquiet (keeps_file_rdyListRemove t)
  | suspended | del => exact hquiet (keeps_pure _)
  | dly | dlySuspended => exact hquiet (keeps_file_tickListRemove t)
  | pend | pendSuspended | pendTimeout | pendTimeoutSuspended =>
    cases (s.tcb t).pendOn with
    | nothing | taskQ | taskSem => exact hquiet (keeps_bind (keeps_file_tickListRemove t) fun _ => keeps_pure _)
    | flag | multi | mutex | q | sem =>
      rw [wp_bind]
      refine (keeps_file_tickListRemove t n cfg s).mono fun _ s₁ h₁ => ?_
      refine pendListRemove_file.mono fun _ s₂ h₂ => ⟨[], ?_⟩
      rw [h₂, h₁]

theorem taskErase_file :
    wp n cfg (taskErase t) (fun _ s' => s'.file = Function.update s.file t (s.file t).erased) s := by
  rw [taskErase, wp_bind]
  refine taskUnlink_file.mono ?_
  rintro _ s₁ ⟨l, h₁⟩
  rw [wp_bind, wp_getTcb, wp_bind]
  refine (((keeps_noMsgs_msgQFreeAll _).comp OS.file) n cfg s₁).mono fun _ s₂ h₂ => ?_
  change s₂.file = s₁.file at h₂
  rw [wp_bind, taskInitTCB, wp_bind, wp_ask, wp_modTcb, wp_bind, wp_modTcb, wp_modify]
  have hrow : s₂.rows t = s.rows t := by
    have hf := congrFun (h₂.trans h₁) t
    rw [Function.update_self] at hf
    exact congrArg File.row hf
  funext x
  have hx := congrFun (h₂.trans h₁) x
  rw [Function.update_apply] at hx ⊢
  by_cases hxt : x = t
  · subst hxt
    rw [if_pos rfl]
    simp only [OS.file, OS.modTcb_tcb, Function.update_self, if_pos]
    change (TCB.file _ (s₂.rows x) _) = _
    rw [hrow]
    rfl
  · rw [if_neg hxt] at hx ⊢
    rw [← hx]
    simp only [OS.file, OS.modTcb_tcb, if_neg hxt, Function.update_of_ne hxt]
    rfl

theorem osTaskDel_file (p : Option TcbId) :
    wp n cfg (osTaskDel p) (fun x s' => Answers File.erased (s.Target p) x s s') s := by
  rw [osTaskDel, wp_bind, wp_get, wp_ite]
  refine ⟨fun _ => wp_pure.mpr (.inr ⟨by simp, rfl⟩), fun _ => wp_ite.mpr ⟨fun _ => wp_pure.mpr (.inr ⟨by simp, rfl⟩), fun _ => ?_⟩⟩
  rw [wp_bind, wp_target]
  intro t ht
  rw [wp_bind, wp_getTcb, wp_ite]
  refine ⟨fun _ => wp_pure.mpr (.inr ⟨by simp, rfl⟩), fun _ => ?_⟩
  rw [wp_bind]
  refine taskErase_file.mono fun _ s₁ h₁ => ?_
  rw [wp_bind]
  exact (keeps_file_osSched n cfg s₁).mono fun _ s₂ h₂ => wp_pure.mpr (.inl ⟨rfl, t, ht, h₂.trans h₁⟩)

theorem osTaskSemSet_file (p : Option TcbId) (cnt : ℕ) :
    wp n cfg (osTaskSemSet p cnt) (fun _ s' => ChangesOne (fun f => { f with semCtr := cnt })
      (fun t => s.intNestingCtr = 0 ∧ s.Target p t) s s') s := by
  rw [osTaskSemSet, wp_bind, wp_get, wp_ite]
  refine ⟨fun _ => wp_pure.mpr (.inl rfl), fun h0 => ?_⟩
  rw [wp_bind, wp_target]
  intro t ht
  rw [wp_bind, wp_getTcb, wp_bind]
  exact wp_modTcb_file fun s₁ h₁ => wp_pure.mpr (.inr ⟨t, ⟨Nat.eq_zero_of_not_pos h0, ht⟩, h₁⟩)

theorem timeDly_file (dly : Tick) (opt : Opt) :
    wp n cfg (timeDly dly opt) (fun _ s' => ChangesOne (fun f => { f with state := .dly })
      (fun t => s.tcbCurPtr = some t) s s') s := by
  rw [timeDly, wp_bind, wp_getCur]
  intro t ht
  rw [wp_bind]
  refine wp_modTcb_file fun s₁ h₁ => ?_
  rw [wp_bind]
  refine (keeps_file_tickListInsert t dly opt n cfg s₁).mono fun x s₂ h₂ => ?_
  rw [wp_ite]
  refine ⟨fun _ => wp_pure.mpr (.inr ⟨t, ht, h₂.trans h₁⟩), fun _ => ?_⟩
  rw [wp_bind]
  refine (keeps_file_rdyListRemove t n cfg s₂).mono fun _ s₃ h₃ => ?_
  rw [wp_bind]
  exact (keeps_file_osSched n cfg s₃).mono fun _ s₄ h₄ =>
    wp_pure.mpr (.inr ⟨t, ht, h₄.trans (h₃.trans (h₂.trans h₁))⟩)

theorem osTimeDly_file (dly : Tick) (opt : Opt) :
    wp n cfg (osTimeDly dly opt) (fun _ s' => ChangesOne (fun f => { f with state := .dly })
      (fun t => s.tcbCurPtr = some t) s s') s := by
  rw [osTimeDly, wp_bind, wp_get, wp_ite]
  refine ⟨fun _ => wp_pure.mpr (.inl rfl), fun _ => wp_ite.mpr ⟨fun _ => wp_pure.mpr (.inl rfl), fun _ => ?_⟩⟩
  refine wp_ite.mpr ⟨fun _ => wp_pure.mpr (.inl rfl), fun _ => wp_ite.mpr ⟨fun _ => wp_pure.mpr (.inl rfl), fun _ => ?_⟩⟩
  exact timeDly_file dly opt

end task

end UcosIII
