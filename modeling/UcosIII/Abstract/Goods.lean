import UcosIII.Abstract.FileCalls

namespace UcosIII

open Prog

structure Goods where
  obj : ObjId → Obj
  msgQ : TcbId → MsgQ
  msg : MsgId → Msg
  msgPool : MsgPool

def OS.goods (s : OS) : Goods where
  obj o := { s.obj o with pendList := pendListEmpty }
  msgQ t := (s.tcb t).msgQ
  msg := s.msg
  msgPool := s.msgPool

variable {n : ℕ} {cfg : Cfg} {s s' : OS} {t : TcbId} {o : ObjId} {α : Type}

section views

theorem OS.goods_modTcb {f : TCB → TCB} (hf : ∀ c, (f c).msgQ = c.msgQ) (t : TcbId) : (s.modTcb t f).goods = s.goods := by
  have hq : (fun x => ((s.modTcb t f).tcb x).msgQ) = fun x => (s.tcb x).msgQ := by
    funext x
    rw [OS.modTcb_tcb]
    split
    · subst x
      exact hf _
    · rfl
  unfold OS.goods
  rw [hq]
  rfl

theorem keeps_goods_modTcb {f : TCB → TCB} (hf : ∀ c, (f c).msgQ = c.msgQ) (t : TcbId) : Keeps OS.goods (modTcb t f) :=
  keeps_modify fun _ => OS.goods_modTcb hf t

theorem keeps_goods_modPendData (d : PdId) (f : PendData → PendData) : Keeps OS.goods (modPendData d f) :=
  keeps_modify fun _ => rfl

theorem OS.goods_eq (h : s'.goods = s.goods) (o : ObjId) : s'.obj o = { s.obj o with pendList := (s'.obj o).pendList } := by
  have ho : ({ s'.obj o with pendList := pendListEmpty } : Obj) = { s.obj o with pendList := pendListEmpty } :=
    (congrArg (fun g : Goods => g.obj o) h :)
  calc s'.obj o = { ({ s'.obj o with pendList := pendListEmpty } : Obj) with pendList := (s'.obj o).pendList } := rfl
    _ = _ := by rw [ho]

end views

section waits

theorem keeps_goods_pendListRemove (t : TcbId) : Keeps OS.goods (pendListRemove t) := by
  intro n cfg s
  refine pendListRemove_frame.mono fun _ s' hs => ?_
  calc s'.goods = (s.modTcb t TCB.noTable).goods := (congrArg OS.goods hs :)
    _ = s.goods := OS.goods_modTcb (by intro c; rfl) t

theorem keeps_goods_tickListRemove (t : TcbId) : Keeps OS.goods (tickListRemove t) := (keeps_tickListRemove t).comp OS.goods

theorem keeps_goods_rdyListRemove (t : TcbId) : Keeps OS.goods (rdyListRemove t) := (keeps_rdyListRemove t).comp OS.goods

theorem keeps_goods_taskRdy (t : TcbId) : Keeps OS.goods (taskRdy t) := by
  refine keeps_bind (keeps_goods_tickListRemove t) fun _ => keeps_bind (keeps_getTcb t) fun _ => ?_
  exact keeps_ite ((keeps_rdyListInsert t).comp OS.goods) (keeps_pure ())

theorem keeps_goods_markEntry (p : Option ObjId) (f : PendData → PendData) (k : ℕ) (d : PdId) :
    Keeps OS.goods (markEntry p f k d) := by
  induction k generalizing d with
  | zero => exact keeps_pure ()
  | succ k ih => exact keeps_bind (keeps_getPendData d) fun _ => keeps_ite (keeps_goods_modPendData d f) (ih _)

theorem keeps_goods_markTable (p : Option ObjId) (f : PendData → PendData) (t : TcbId) : Keeps OS.goods (do
    let c ← getTcb t
    if c.pendDataTblEntries = 0 then return ()
    let d ← Prog.deref c.pendDataTblPtr
    markEntry p f c.pendDataTblEntries d) := by
  refine keeps_bind (keeps_getTcb t) fun _ => keeps_ite (keeps_pure ()) ?_
  exact keeps_bind (keeps_deref _) fun d => keeps_goods_markEntry p f _ d

theorem keeps_goods_unpend {k : Unit → K α} (p : Option ObjId) (t : TcbId) (hk : ∀ x, Keeps OS.goods (k x)) :
    Keeps OS.goods (if p ≠ none then pendListRemove t >>= k else k ()) :=
  keeps_ite (keeps_bind (keeps_goods_pendListRemove t) hk) (hk ())

theorem keeps_goods_post (p : Option ObjId) (t : TcbId) (pVoid : Option ℕ) (msgSize ts : ℕ) :
    Keeps OS.goods (post p t pVoid msgSize ts) := by
  have hset (f : TCB → TCB) (hf : ∀ c, (f c).msgQ = c.msgQ) : Keeps OS.goods (modTcb t f) := keeps_goods_modTcb hf t
  refine keeps_bind (keeps_getTcb t) fun c => ?_
  cases c.taskState with
  | rdy | dly | suspended | dlySuspended | del => exact keeps_pure ()
  | pend | pendTimeout =>
    have hend : Keeps OS.goods (if p ≠ none then (do
        pendListRemove t
        taskRdy t
        modTcb t fun c => { c with taskState := .rdy, pendStatus := .ok, pendOn := .nothing }) else (do
        taskRdy t
        modTcb t fun c => { c with taskState := .rdy, pendStatus := .ok, pendOn := .nothing })) :=
      keeps_goods_unpend p t fun _ => keeps_bind (keeps_goods_taskRdy t) fun _ => hset _ fun _ => rfl
    exact keeps_ite (keeps_bind (keeps_goods_markTable p _ t) fun _ => hend) (keeps_bind (hset _ fun _ => rfl) fun _ => hend)
  | pendSuspended | pendTimeoutSuspended =>
    have hend : Keeps OS.goods (do
        tickListRemove t
        if p ≠ none then pendListRemove t
        modTcb t fun c => { c with taskState := .suspended, pendStatus := .ok, pendOn := .nothing }) :=
      keeps_bind (keeps_goods_tickListRemove t) fun _ => keeps_goods_unpend p t fun _ => hset _ fun _ => rfl
    exact keeps_ite (keeps_bind (keeps_goods_markTable p _ t) fun _ => hend) (keeps_bind (hset _ fun _ => rfl) fun _ => hend)

theorem keeps_goods_pendAbort (p : Option ObjId) (t : TcbId) (ts : ℕ) : Keeps OS.goods (pendAbort p t ts) := by
  have hset (f : TCB → TCB) (hf : ∀ c, (f c).msgQ = c.msgQ) : Keeps OS.goods (modTcb t f) := keeps_goods_modTcb hf t
  have hfirst {m : K Unit} (c : TCB) (hm : Keeps OS.goods m) :
      Keeps OS.goods (if c.pendOn = .multi then pendAbort1 p t ts >>= fun _ => m else m) :=
    keeps_ite (keeps_bind (keeps_goods_markTable p _ t) fun _ => hm) hm
  refine keeps_bind (keeps_getTcb t) fun c => ?_
  cases c.taskState with
  | rdy | dly | suspended | dlySuspended | del => exact keeps_pure ()
  | pend | pendTimeout =>
    apply hfirst
    refine keeps_bind (hset _ fun _ => rfl) fun _ => keeps_goods_unpend p t fun _ => ?_
    exact keeps_bind (keeps_goods_taskRdy t) fun _ => hset _ fun _ => rfl
  | pendSuspended | pendTimeoutSuspended =>
    apply hfirst
    refine keeps_bind (hset _ fun _ => rfl) fun _ => keeps_goods_unpend p t fun _ => ?_
    exact keeps_bind (keeps_goods_tickListRemove t) fun _ => hset _ fun _ => rfl

theorem keeps_goods_flagTaskRdy (t : TcbId) (flagsRdy : Flags) (ts : ℕ) : Keeps OS.goods (flagTaskRdy t flagsRdy ts) := by
  have hset (f : TCB → TCB) (hf : ∀ c, (f c).msgQ = c.msgQ) : Keeps OS.goods (modTcb t f) := keeps_goods_modTcb hf t
  refine keeps_bind (hset _ fun _ => rfl) fun _ => keeps_bind (keeps_getTcb t) fun c => ?_
  cases c.taskState with
  | rdy | dly | dlySuspended | suspended | del => exact keeps_goods_pendListRemove t
  | pend | pendTimeout =>
    refine keeps_bind (keeps_goods_taskRdy t) fun _ => keeps_bind (hset _ fun _ => rfl) fun _ => ?_
    exact keeps_goods_pendListRemove t
  | pendSuspended | pendTimeoutSuspended =>
    exact keeps_bind (hset _ fun _ => rfl) fun _ => keeps_goods_pendListRemove t

theorem keeps_goods_taskBlock (t : TcbId) (timeout : Tick) : Keeps OS.goods (taskBlock t timeout) := by
  have hrest (st : TaskState) :
      Keeps OS.goods (modTcb t (fun c => { c with taskState := st }) >>= fun _ => rdyListRemove t) :=
    keeps_bind (keeps_goods_modTcb (by intro c; rfl) t) fun _ => keeps_goods_rdyListRemove t
  refine keeps_ite (keeps_bind ((keeps_tickListInsert t timeout optTimeTimeout).comp OS.goods) fun x => ?_) (hrest _)
  cases x <;> exact hrest _

theorem keeps_goods_pend (p : Option ObjId) (kind : PendOn) (timeout : Tick) : Keeps OS.goods (pend p kind timeout) := by
  have hset (t : TcbId) (f : TCB → TCB) (hf : ∀ c, (f c).msgQ = c.msgQ) : Keeps OS.goods (modTcb t f) :=
    keeps_goods_modTcb hf t
  refine keeps_bind keeps_getCur fun t => keeps_bind (hset t _ fun _ => rfl) fun _ => ?_
  refine keeps_bind (keeps_goods_taskBlock t timeout) fun _ => ?_
  cases p with
  | none => exact hset t _ fun _ => rfl
  | some o =>
    refine keeps_bind (keeps_goods_modPendData _ _) fun _ => keeps_bind ?_ fun _ => ?_
    · exact keeps_bind (hset t _ fun _ => rfl) fun _ => keeps_forEntries (fun d => keeps_goods_modPendData d _) 1 (t, 0)
    · exact (keeps_pendListInsertPrio (t, 0) o).comp OS.goods

theorem keeps_goods_pendMultiWait (d : PdId) (tblSize : ℕ) (timeout : Tick) :
    Keeps OS.goods (pendMultiWait d tblSize timeout) := by
  refine keeps_bind keeps_getCur fun t => keeps_bind (keeps_goods_modTcb (by intro c; rfl) t) fun _ => ?_
  refine keeps_bind (keeps_goods_taskBlock t timeout) fun _ => keeps_forEntries (fun d => ?_) tblSize d
  refine keeps_bind (keeps_goods_modPendData d _) fun _ => keeps_bind (keeps_getPendData d) fun _ => ?_
  refine keeps_bind (keeps_deref _) fun o => keeps_bind (keeps_getObj o) fun b => ?_
  cases b.type with
  | sem | q => exact (keeps_pendListInsertPrio d o).comp OS.goods
  | none | flag | mutex => exact keeps_pure ()

end waits

section sched

theorem keeps_goods_osSched : Keeps OS.goods osSched := keeps_osSched (fun _ _ _ => rfl) fun _ _ _ => rfl

theorem keeps_goods_schedOpt (opt : Opt) : Keeps OS.goods (schedOpt opt) := keeps_ite keeps_goods_osSched (keeps_pure ())

theorem keeps_goods_waitThen (k : Cont) : Keeps OS.goods (waitThen k) := by
  refine keeps_bind keeps_getCur fun _ => keeps_bind (keeps_modify fun _ => rfl) fun _ => ?_
  exact keeps_bind keeps_goods_osSched fun _ => keeps_pure _

theorem keeps_goods_pendThen (p : Option ObjId) (kind : PendOn) (timeout : Tick) (k : Cont) :
    Keeps OS.goods (pend p kind timeout >>= fun _ => waitThen k) :=
  keeps_bind (keeps_goods_pend p kind timeout) fun _ => keeps_goods_waitThen k

end sched

section tasks

theorem keeps_goods_orCur (p : Option TcbId) : Keeps OS.goods (orCur p) := keeps_orCur p

theorem keeps_goods_suspendTcb (t : TcbId) : Keeps OS.goods (suspendTcb t) := by
  have hset (f : TCB → TCB) (hf : ∀ c, (f c).msgQ = c.msgQ) : Keeps OS.goods (modTcb t f >>= fun _ => pure Err.none) :=
    keeps_bind (keeps_goods_modTcb hf t) fun _ => keeps_pure _
  refine keeps_bind (keeps_getTcb t) fun c => ?_
  cases c.taskState with
  | rdy =>
    refine keeps_bind (keeps_goods_modTcb (by intro c; rfl) t) fun _ => ?_
    exact keeps_bind (keeps_goods_rdyListRemove t) fun _ => keeps_pure _
  | dly | pend | pendTimeout | suspended | dlySuspended | pendSuspended | pendTimeoutSuspended => exact hset _ fun _ => rfl
  | del => exact keeps_pure _

theorem keeps_goods_osTaskSuspend (p : Option TcbId) : Keeps OS.goods (osTaskSuspend p) := by
  refine keeps_bind keeps_get fun _ => keeps_ite (keeps_pure _) (keeps_ite (keeps_pure _) ?_)
  refine keeps_bind (keeps_goods_orCur p) fun t => keeps_bind keeps_get fun _ => keeps_ite (keeps_pure _) ?_
  refine keeps_bind (keeps_goods_suspendTcb t) fun _ => keeps_ite (keeps_pure _) ?_
  exact keeps_bind keeps_goods_osSched fun _ => keeps_pure _

theorem keeps_goods_resumeInto (t : TcbId) (st : TaskState) : Keeps OS.goods (resumeInto t st) := by
  refine keeps_bind (keeps_goods_modTcb (by intro c; rfl) t) fun _ => keeps_bind (keeps_getTcb t) fun _ => ?_
  exact keeps_ite (keeps_goods_modTcb (by intro c; rfl) t) (keeps_pure ())

theorem keeps_goods_resumeTcb (t : TcbId) : Keeps OS.goods (resumeTcb t) := by
  refine keeps_bind (keeps_getTcb t) fun c => ?_
  cases c.taskState with
  | rdy | dly | pend | pendTimeout | del => exact keeps_pure _
  | suspended =>
    refine keeps_bind (keeps_goods_resumeInto t .rdy) fun _ => keeps_bind (keeps_getTcb t) fun _ => ?_
    exact keeps_ite (keeps_bind (keeps_goods_taskRdy t) fun _ => keeps_pure _) (keeps_pure _)
  | dlySuspended | pendSuspended | pendTimeoutSuspended =>
    exact keeps_bind (keeps_goods_resumeInto t _) fun _ => keeps_pure _

theorem keeps_goods_osTaskResume (p : Option TcbId) : Keeps OS.goods (osTaskResume p) := by
  refine keeps_bind keeps_get fun _ => keeps_ite (keeps_pure _) (keeps_ite (keeps_pure _) ?_)
  refine keeps_bind (keeps_deref p) fun t => keeps_bind (keeps_goods_resumeTcb t) fun _ => keeps_ite (keeps_pure _) ?_
  exact keeps_bind keeps_goods_osSched fun _ => keeps_pure _

theorem keeps_goods_rdyChangePrio (t : TcbId) (prio : ℕ) (atHead : Bool) : Keeps OS.goods (rdyChangePrio t prio atHead) := by
  refine keeps_bind (keeps_goods_rdyListRemove t) fun _ => keeps_bind (keeps_goods_modTcb (by intro c; rfl) t) fun _ => ?_
  refine keeps_bind ((keeps_prioInsert prio).comp OS.goods) fun _ => keeps_ite ?_ ?_
  · exact (keeps_rdyListInsertHead t).comp OS.goods
  · exact (keeps_rdyListInsertTail t).comp OS.goods

theorem keeps_goods_pendListChangePrio (t : TcbId) (prio : ℕ) : Keeps OS.goods (pendListChangePrio t prio) := by
  refine keeps_bind (keeps_goods_modTcb (by intro c; rfl) t) fun _ => keeps_forTable (fun d => ?_) t
  refine keeps_bind (keeps_getPendData d) fun _ => keeps_bind (keeps_deref _) fun o => keeps_bind (keeps_getObj o) fun _ => ?_
  refine keeps_ite (keeps_bind ((keeps_pendListRemove1 d o).comp OS.goods) fun _ => ?_) (keeps_pure ())
  exact (keeps_pendListInsertPrio d o).comp OS.goods

theorem keeps_goods_osTaskChangePrio (p : Option TcbId) (prioNew : ℕ) : Keeps OS.goods (osTaskChangePrio p prioNew) := by
  have hprio (t : TcbId) : Keeps OS.goods (modTcb t fun c => { c with prio := prioNew }) :=
    keeps_goods_modTcb (by intro c; rfl) t
  refine keeps_bind keeps_get fun _ => keeps_ite (keeps_pure _) (keeps_bind keeps_ask fun _ => keeps_ite (keeps_pure _) ?_)
  refine keeps_bind (keeps_goods_orCur p) fun t => keeps_bind (keeps_bind (keeps_getTcb t) fun c => ?_) fun _ =>
    keeps_ite (keeps_pure _) (keeps_bind keeps_goods_osSched fun _ => keeps_pure _)
  cases c.taskState with
  | rdy => exact keeps_bind (keeps_goods_rdyChangePrio t prioNew _) fun _ => keeps_pure _
  | dly | suspended | dlySuspended => exact keeps_bind (hprio t) fun _ => keeps_pure _
  | pend | pendTimeout | pendSuspended | pendTimeoutSuspended =>
    dsimp only
    cases c.pendOn with
    | taskQ | taskSem | flag => exact keeps_bind (hprio t) fun _ => keeps_pure _
    | mutex | multi | q | sem => exact keeps_bind (keeps_goods_pendListChangePrio t prioNew) fun _ => keeps_pure _
    | nothing => exact keeps_pure _
  | del => exact keeps_pure _

theorem keeps_goods_osTaskTimeQuantaSet (p : Option TcbId) (timeQuanta : Tick) :
    Keeps OS.goods (osTaskTimeQuantaSet p timeQuanta) := by
  refine keeps_bind keeps_get fun _ => keeps_ite (keeps_pure _) (keeps_bind (keeps_goods_orCur p) fun t => ?_)
  refine keeps_bind (keeps_goods_modTcb (by intro c; rfl) t) fun _ => ?_
  exact keeps_bind (keeps_goods_modTcb (by intro c; rfl) t) fun _ => keeps_pure _

theorem keeps_goods_osTaskSemPend (timeout : Tick) (opt : Opt) : Keeps OS.goods (osTaskSemPend timeout opt) := by
  refine keeps_bind keeps_get fun _ => keeps_ite (keeps_pure _) (keeps_ite (keeps_pure _) ?_)
  refine keeps_bind keeps_getCur fun t => keeps_bind (keeps_getTcb t) fun _ => keeps_ite ?_ ?_
  · exact keeps_bind (keeps_goods_modTcb (by intro c; rfl) t) fun _ => keeps_pure _
  · exact keeps_ite (keeps_pure _) (keeps_ite (keeps_pure _) (keeps_goods_pendThen none .taskSem timeout .taskSemPend))

theorem keeps_goods_taskPendAbort (kind : PendOn) (p : Option TcbId) (opt : Opt) : Keeps OS.goods (do
    let s ← Prog.get
    if s.intNestingCtr > 0 then return ({ err := .pendAbortISR } : Ret)
    if postOptValid opt = false then return { err := .optInvalid }
    if p = none ∨ p = s.tcbCurPtr then return { err := .pendAbortSelf }
    let t ← Prog.deref p
    if (← getTcb t).pendOn ≠ kind then return { err := .pendAbortNone }
    pendAbort none t s.tsNow
    schedOpt opt
    return { err := .none, val := 1 }) := by
  refine keeps_bind keeps_get fun _ => keeps_ite (keeps_pure _) (keeps_ite (keeps_pure _) (keeps_ite (keeps_pure _) ?_))
  refine keeps_bind (keeps_deref p) fun t => keeps_bind (keeps_getTcb t) fun _ => keeps_ite (keeps_pure _) ?_
  refine keeps_bind (keeps_goods_pendAbort none t _) fun _ => keeps_bind (keeps_goods_schedOpt opt) fun _ => keeps_pure _

theorem keeps_goods_osTaskSemPost (p : Option TcbId) (opt : Opt) : Keeps OS.goods (osTaskSemPost p opt) := by
  have hinc (t : TcbId) : Keeps OS.goods (taskSemInc t) := by
    refine keeps_bind (keeps_getTcb t) fun _ => keeps_ite (keeps_pure _) ?_
    exact keeps_bind (keeps_goods_modTcb (by intro c; rfl) t) fun _ => keeps_pure _
  refine keeps_ite (keeps_pure _) (keeps_bind keeps_tsGet fun ts => ?_)
  refine keeps_bind (keeps_goods_orCur p) fun t => keeps_bind (keeps_goods_modTcb (by intro c; rfl) t) fun _ => ?_
  refine keeps_bind (keeps_getTcb t) fun c => ?_
  cases c.taskState with
  | rdy | dly | suspended | dlySuspended => exact hinc t
  | pend | pendTimeout | pendSuspended | pendTimeoutSuspended =>
    refine keeps_ite (keeps_bind (keeps_goods_post none t none 0 ts) fun _ => ?_) (hinc t)
    exact keeps_bind (keeps_getTcb t) fun _ => keeps_bind (keeps_goods_schedOpt opt) fun _ => keeps_pure _
  | del => exact keeps_pure _

theorem keeps_goods_osTaskSemSet (p : Option TcbId) (cnt : ℕ) : Keeps OS.goods (osTaskSemSet p cnt) := by
  refine keeps_bind keeps_get fun _ => keeps_ite (keeps_pure _) (keeps_bind (keeps_goods_orCur p) fun t => ?_)
  refine keeps_bind (keeps_getTcb t) fun _ => ?_
  exact keeps_bind (keeps_goods_modTcb (by intro c; rfl) t) fun _ => keeps_pure _

end tasks

section time

theorem keeps_goods_timeDly (dly : Tick) (opt : Opt) : Keeps OS.goods (timeDly dly opt) := by
  refine keeps_bind keeps_getCur fun t => keeps_bind (keeps_goods_modTcb (by intro c; rfl) t) fun _ => ?_
  refine keeps_bind ((keeps_tickListInsert t dly opt).comp OS.goods) fun _ => keeps_ite (keeps_pure _) ?_
  exact keeps_bind (keeps_goods_rdyListRemove t) fun _ => keeps_bind keeps_goods_osSched fun _ => keeps_pure _

theorem keeps_goods_osTimeDly (dly : Tick) (opt : Opt) : Keeps OS.goods (osTimeDly dly opt) := by
  refine keeps_bind keeps_get fun _ => keeps_ite (keeps_pure _) (keeps_ite (keeps_pure _) ?_)
  exact keeps_ite (keeps_pure _) (keeps_ite (keeps_pure _) (keeps_goods_timeDly dly opt))

theorem keeps_goods_osTimeDlyHMSM (a : HMSM) (opt : Opt) : Keeps OS.goods (osTimeDlyHMSM a opt) := by
  refine keeps_bind keeps_get fun _ => keeps_ite (keeps_pure _) (keeps_ite (keeps_pure _) ?_)
  cases hmsmCheck a opt with
  | some e => exact keeps_pure _
  | none => exact keeps_bind keeps_ask fun _ => keeps_ite (keeps_goods_timeDly _ _) (keeps_pure _)

theorem keeps_goods_loadTimeQuanta (p : ℕ) : Keeps OS.goods (loadTimeQuanta p) := by
  refine keeps_bind (keeps_getRdyList p) fun _ => keeps_bind (keeps_deref _) fun t => keeps_bind keeps_get fun _ => ?_
  exact keeps_goods_modTcb (by intro c; rfl) t

theorem keeps_goods_schedRoundRobin (p : ℕ) : Keeps OS.goods (schedRoundRobin p) := by
  have hrot : Keeps OS.goods (rdyListMoveHeadToTail p >>= fun _ => loadTimeQuanta p) :=
    keeps_bind ((keeps_rdyListMoveHeadToTail p).comp OS.goods) fun _ => keeps_goods_loadTimeQuanta p
  refine keeps_bind keeps_get fun _ => keeps_ite (keeps_pure _) (keeps_bind (keeps_getRdyList p) fun l => ?_)
  cases l.headPtr with
  | none => exact keeps_pure _
  | some t =>
    refine keeps_ite (keeps_pure _) (keeps_bind (keeps_getTcb t) fun _ => ?_)
    have hlast (b : OS) : Keeps OS.goods (do
        if (← getTcb t).timeQuantaCtr > 0 then return ()
        if l.nbrEntries < 2 then return ()
        if b.schedLockNestingCtr > 0 then return ()
        rdyListMoveHeadToTail p
        loadTimeQuanta p) := by
      refine keeps_bind (keeps_getTcb t) fun _ => keeps_ite (keeps_pure _) (keeps_ite (keeps_pure _) ?_)
      exact keeps_ite (keeps_pure _) hrot
    exact keeps_ite (keeps_bind (keeps_goods_modTcb (by intro c; rfl) t) fun _ => hlast _) (hlast _)

theorem keeps_goods_osTimeTick : Keeps OS.goods osTimeTick := by
  refine keeps_bind (keeps_goods_osTaskSemPost _ _) fun _ => keeps_bind keeps_get fun _ => ?_
  refine keeps_bind (keeps_goods_schedRoundRobin _) fun _ => keeps_bind (keeps_modify fun _ => rfl) fun _ => ?_
  refine keeps_bind keeps_get fun _ => keeps_ite (keeps_bind (keeps_modify fun _ => rfl) fun _ => ?_) (keeps_pure _)
  exact keeps_bind (keeps_goods_osTaskSemPost _ _) fun _ => keeps_pure _

theorem keeps_goods_tickListExpire (t : TcbId) : Keeps OS.goods (tickListExpire t) := by
  have hset (f : TCB → TCB) (hf : ∀ c, (f c).msgQ = c.msgQ) : Keeps OS.goods (modTcb t f) := keeps_goods_modTcb hf t
  refine keeps_bind keeps_get fun _ => keeps_bind (keeps_getTcb t) fun c => ?_
  cases c.taskState with
  | rdy | pend | suspended | pendSuspended | del => exact keeps_pure _
  | dly =>
    refine keeps_bind (hset _ fun _ => rfl) fun _ => keeps_ite ?_ (keeps_pure _)
    exact keeps_bind (hset _ fun _ => rfl) fun _ => keeps_bind (keeps_goods_taskRdy t) fun _ => keeps_pure _
  | dlySuspended =>
    refine keeps_bind (hset _ fun _ => rfl) fun _ => keeps_ite ?_ (keeps_pure _)
    exact keeps_bind (hset _ fun _ => rfl) fun _ => keeps_bind (keeps_goods_tickListRemove t) fun _ => keeps_pure _
  | pendTimeout =>
    refine keeps_bind (hset _ fun _ => rfl) fun _ => keeps_ite (keeps_bind keeps_tsGet fun _ => ?_) (keeps_pure _)
    refine keeps_bind (hset _ fun _ => rfl) fun _ => keeps_bind (keeps_goods_pendListRemove t) fun _ => ?_
    exact keeps_bind (keeps_goods_taskRdy t) fun _ => keeps_bind (hset _ fun _ => rfl) fun _ => keeps_pure _
  | pendTimeoutSuspended =>
    refine keeps_bind (hset _ fun _ => rfl) fun _ => keeps_ite (keeps_bind keeps_tsGet fun _ => ?_) (keeps_pure _)
    refine keeps_bind (hset _ fun _ => rfl) fun _ => keeps_bind (keeps_goods_pendListRemove t) fun _ => ?_
    exact keeps_bind (keeps_goods_tickListRemove t) fun _ => keeps_bind (hset _ fun _ => rfl) fun _ => keeps_pure _

theorem keeps_goods_tickListUpdate : Keeps OS.goods tickListUpdate := by
  refine keeps_bind (keeps_modify fun _ => rfl) fun _ => keeps_bind keeps_get fun _ => keeps_bind keeps_ask fun _ => ?_
  refine keeps_bind (keeps_getSpoke _) fun _ => keeps_loop (fun p => ?_) _
  cases p with
  | none => exact keeps_pure _
  | some t =>
    refine keeps_bind (keeps_getTcb t) fun _ => keeps_bind (keeps_goods_tickListExpire t) fun _ => ?_
    exact keeps_ite (keeps_pure _) (keeps_pure _)

theorem keeps_goods_osIntExit : Keeps OS.goods osIntExit := by
  refine keeps_bind keeps_get fun _ => keeps_ite (keeps_pure _) (keeps_ite (keeps_pure _) ?_)
  refine keeps_bind (keeps_modify fun _ => rfl) fun _ => keeps_ite (keeps_pure _) (keeps_ite (keeps_pure _) ?_)
  exact keeps_reschedule (fun _ _ _ => rfl) fun _ _ _ => rfl

theorem keeps_goods_osIntEnter : Keeps OS.goods osIntEnter := by
  refine keeps_bind keeps_get fun _ => keeps_ite (keeps_pure _) (keeps_ite (keeps_pure _) ?_)
  exact keeps_modify fun _ => rfl

theorem keeps_goods_osStart : Keeps OS.goods osStart := by
  refine keeps_bind keeps_get fun _ => keeps_ite (keeps_pure _) ?_
  refine keeps_bind (keeps_bind keeps_ask fun _ => keeps_prioScan _ _) fun p => keeps_bind (keeps_getRdyList p) fun _ => ?_
  exact keeps_bind (keeps_modify fun _ => rfl) fun _ => keeps_pure _

theorem keeps_goods_osSchedLock : Keeps OS.goods osSchedLock := by
  refine keeps_bind keeps_get fun _ => keeps_ite (keeps_pure _) (keeps_ite (keeps_pure _) (keeps_ite (keeps_pure _) ?_))
  exact keeps_bind (keeps_modify fun _ => rfl) fun _ => keeps_pure _

theorem keeps_goods_osSchedUnlock : Keeps OS.goods osSchedUnlock := by
  refine keeps_bind keeps_get fun _ => keeps_ite (keeps_pure _) (keeps_ite (keeps_pure _) (keeps_ite (keeps_pure _) ?_))
  refine keeps_bind (keeps_modify fun _ => rfl) fun _ => keeps_ite (keeps_pure _) ?_
  exact keeps_bind keeps_goods_osSched fun _ => keeps_pure _

theorem keeps_goods_osSchedRoundRobinYield : Keeps OS.goods osSchedRoundRobinYield := by
  refine keeps_bind keeps_get fun _ => keeps_ite (keeps_pure _) (keeps_ite (keeps_pure _) (keeps_ite (keeps_pure _) ?_))
  refine keeps_bind (keeps_getRdyList _) fun _ => keeps_ite (keeps_pure _) ?_
  refine keeps_bind ((keeps_rdyListMoveHeadToTail _).comp OS.goods) fun _ =>
    keeps_bind (keeps_goods_loadTimeQuanta _) fun _ => ?_
  exact keeps_bind keeps_goods_osSched fun _ => keeps_pure _

end time

section objects

theorem keeps_goods_postLoop (o : ObjId) (pVoid : Option ℕ) (msgSize ts cnt : ℕ) (p : Option PdId) :
    Keeps OS.goods (postLoop o pVoid msgSize ts cnt p) := by
  induction cnt generalizing p with
  | zero => exact keeps_pure ()
  | succ cnt ih =>
    refine keeps_bind (keeps_deref p) fun d => keeps_bind (keeps_getPendData d) fun _ => keeps_bind (keeps_deref _) fun t => ?_
    exact keeps_bind (keeps_goods_post _ t _ _ _) fun _ => ih _

theorem keeps_goods_objPendAbort (type : ObjType) (p : Option ObjId) (opt : Opt) :
    Keeps OS.goods (objPendAbort type p opt) := by
  refine keeps_bind keeps_get fun _ => keeps_ite (keeps_pure _) ?_
  cases p with
  | none => exact keeps_pure _
  | some o =>
    refine keeps_ite (keeps_pure _) (keeps_bind (keeps_getObj o) fun _ => keeps_ite (keeps_pure _) ?_)
    refine keeps_bind (keeps_getObj o) fun _ => keeps_ite (keeps_pure _) (keeps_bind (keeps_loop (fun k => ?_) 0) fun _ => ?_)
    · refine keeps_bind (keeps_getObj o) fun _ => keeps_ite (keeps_pure _) (keeps_bind (keeps_deref _) fun d => ?_)
      refine keeps_bind (keeps_getPendData d) fun _ => keeps_bind (keeps_deref _) fun t => ?_
      exact keeps_bind (keeps_goods_pendAbort _ t _) fun _ => keeps_ite (keeps_pure _) (keeps_pure _)
    · exact keeps_bind (keeps_goods_schedOpt opt) fun _ => keeps_pure _

theorem keeps_goods_mutexBoost (t : TcbId) (prio : ℕ) : Keeps OS.goods (mutexBoost t prio) := by
  have hprio : Keeps OS.goods (modTcb t fun c => { c with prio := prio }) := keeps_goods_modTcb (by intro c; rfl) t
  refine keeps_bind (keeps_getTcb t) fun c => ?_
  cases c.taskState with
  | rdy => exact keeps_bind (keeps_goods_rdyChangePrio t prio true) fun _ => keeps_pure _
  | dly | dlySuspended | suspended => exact keeps_bind hprio fun _ => keeps_pure _
  | pend | pendTimeout | pendSuspended | pendTimeoutSuspended =>
    exact keeps_bind (keeps_goods_pendListChangePrio t prio) fun _ => keeps_pure _
  | del => exact keeps_pure _

theorem keeps_goods_mutexRestore (o : ObjId) (t : TcbId) : Keeps OS.goods (mutexRestore o t) := by
  refine keeps_bind (keeps_getObj o) fun _ => keeps_bind (keeps_getTcb t) fun _ => keeps_ite ?_ (keeps_pure ())
  exact keeps_bind (keeps_goods_rdyChangePrio t _ false) fun _ => keeps_modify fun _ => rfl

end objects

end UcosIII
