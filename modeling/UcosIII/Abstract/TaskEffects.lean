import UcosIII.Abstract.Effects

namespace UcosIII

open Prog

variable {n : ℕ} {cfg : Cfg} {s s' : OS} {a : Abs} {t t' : TcbId} {d : PdId}

theorem suspendTcb_spec (h : Rep cfg s a) (hI : a.Sound cfg) :
    wp n cfg (suspendTcb t)
      (fun e s' => Rep cfg s' (a.suspend t) ∧ e = if (a.task t).state = .del then .stateInvalid else .none) s := by
  have hst := h.state t
  have hprio := hI.ready t (a.task t).prio
  rw [suspendTcb, wp_bind, wp_getTcb, hst]
  cases hs : (a.task t).state <;> rw [hs] at hst
  case rdy =>
    rw [wp_bind, wp_modTcb, wp_bind]
    have h₁ : Rep cfg (s.modTcb t fun c => { c with taskState := .suspended, suspendCtr := 1 }) (a.modTask t Task.suspend) :=
      h.modTcb rfl (by simp [TCB.view, TCB.table, Task.suspend, hst, TaskState.suspend, TaskState.isSuspended])
    refine (rdyListRemove_spec h₁ ?_).mono fun _ s' h' => ?_
    · rw [Abs.ready_modTask, Abs.task_modTask, if_pos rfl]
      exact hprio.mpr ⟨hs, rfl⟩
    · simpa [Abs.suspend, hs] using h'
  case del => simpa [Abs.suspend, hs] using h
  all_goals
    simp only [wp_bind, wp_modTcb, wp_pure, Abs.suspend, hs, reduceCtorEq, if_false, and_true]
    exact h.modTcb rfl (by simp [TCB.view, TCB.table, Task.suspend, hst, TaskState.suspend, TaskState.isSuspended])

theorem resumeInto_spec {st : TaskState} (h : Rep cfg s a) (hst : (a.task t).state.resume = st) :
    wp n cfg (resumeInto t st) (fun _ s' => Rep cfg s' (a.modTask t Task.resume)) s := by
  have hctr : (s.tcb t).suspendCtr = (a.task t).suspendCtr := by rw [h.task]; rfl
  have h₁ : Rep cfg (s.modTcb t fun c => { c with suspendCtr := c.suspendCtr - 1 })
      (a.modTask t fun c => { c with suspendCtr := c.suspendCtr - 1 }) := h.modTcb rfl rfl
  simp only [resumeInto, wp_bind, wp_modTcb, wp_getTcb, wp_ite, wp_pure, OS.modTcb_tcb, if_true, hctr]
  constructor
  · intro hz
    have h₂ : Rep cfg ((s.modTcb t fun c => { c with suspendCtr := c.suspendCtr - 1 }).modTcb t
        fun c => { c with taskState := st }) _ := h₁.modTcb (g := fun c => { c with state := st }) rfl rfl
    rw [Abs.modTask_modTask] at h₂
    rwa [Abs.modTask_congr]
    simp only [Task.resume, if_pos hz, hst]
  · intro hz
    rwa [Abs.modTask_congr]
    simp only [Task.resume, if_neg hz]

theorem resumeTcb_spec (h : Rep cfg s a) (hI : a.Sound cfg) :
    wp n cfg (resumeTcb t)
      (fun e s' => Rep cfg s' (a.resume t) ∧ (e = .stateInvalid ↔ (a.task t).state = .del)) s := by
  rw [resumeTcb, wp_bind, wp_getTcb, h.state]
  cases hs : (a.task t).state with
  | rdy | dly | pend | pendTimeout | del => simpa [Abs.resume, hs] using h
  | dlySuspended | pendSuspended | pendTimeoutSuspended =>
    rw [wp_bind]
    refine (resumeInto_spec h (by rw [hs]; rfl)).mono fun _ s₁ h₁ => ?_
    simpa [Abs.resume, hs] using h₁
  | suspended =>
    rw [wp_bind]
    refine (resumeInto_spec h (by rw [hs]; rfl)).mono fun _ s₁ h₁ => ?_
    have hctr : (s₁.tcb t).suspendCtr = (a.task t).suspendCtr - 1 := by
      have := congrArg Task.suspendCtr (h₁.task t)
      rw [Abs.task_modTask, if_pos rfl] at this
      exact this.symm
    rw [wp_bind, wp_getTcb, wp_ite, hctr]
    constructor
    · intro hz
      rw [wp_bind]
      refine (taskRdy_spec h₁ (hI.ready.not_mem (by simp [hs]))).mono fun _ s₂ h₂ => ?_
      have hrun : ((a.modTask t Task.resume).task t).state.isSuspended = false := by
        rw [Abs.task_modTask, if_pos rfl, Task.resume, if_pos hz, hs]
        rfl
      rw [if_pos hrun] at h₂
      simp only [wp_pure, Abs.resume, hs, if_pos hz]
      exact ⟨h₂, by simp⟩
    · intro hz
      simp only [wp_pure, Abs.resume, hs, if_neg hz]
      exact ⟨h₁, by simp⟩

theorem rdyChangePrio_spec (h : Rep cfg s a) (hI : a.Sound cfg) (hs : (a.task t).state = .rdy) (p : ℕ) (atHead : Bool) :
    wp n cfg (rdyChangePrio t p atHead) (fun _ s' => Rep cfg s' (a.move t p atHead)) s := by
  have hmem := (hI.ready t _).mpr ⟨hs, rfl⟩
  rw [rdyChangePrio, wp_bind]
  refine (rdyListRemove_spec h hmem).mono fun _ s₁ h₁ => ?_
  rw [wp_bind, wp_modTcb]
  have h₂ : Rep cfg (s₁.modTcb t fun c => { c with prio := p }) ((a.dequeue t).modTask t fun c => { c with prio := p }) :=
    h₁.modTcb rfl rfl
  have hp : ((s₁.modTcb t fun c => { c with prio := p }).tcb t).prio = p := by simp [OS.modTcb]
  have hnot : ∀ q, t ∉ ((a.dequeue t).modTask t fun c => { c with prio := p }).ready q := by
    intro q hq
    rw [Abs.ready_modTask, Abs.mem_dequeue (h.nodup _)] at hq
    exact hq.2 ⟨rfl, ((hI.ready t q).mp hq.1).2.symm⟩
  generalize s₁.modTcb t _ = s₂ at *
  cases atHead with
  | true =>
    have := rdyListInsertHead_spec (n := n) h₂ hnot
    rw [hp] at this
    simpa [Abs.move] using this
  | false =>
    have := rdyListInsertTail_spec (n := n) h₂ hnot
    rw [hp] at this
    simpa [Abs.move] using this

theorem changePrioTcb_spec (h : Rep cfg s a) (hI : a.Sound cfg) (p : ℕ) (self : Bool) :
    wp n cfg (changePrioTcb t p self)
      (fun e s' => Rep cfg s' (a.reprio t p self) ∧ e = if (a.task t).state = .del then .stateInvalid else .none) s := by
  have hset : Rep cfg (s.modTcb t fun c => { c with prio := p }) (a.modTask t fun c => { c with prio := p }) :=
    h.modTcb rfl rfl
  rw [changePrioTcb, wp_bind, wp_getTcb, h.state, h.pendOn]
  cases hs : (a.task t).state with
  | rdy =>
    rw [wp_bind]
    refine (rdyChangePrio_spec h hI hs p self).mono fun _ s' h' => ?_
    simpa [Abs.reprio, hs] using h'
  | del => simpa [Abs.reprio, hs] using h
  | dly | suspended | dlySuspended => simpa [Abs.reprio, hs] using hset
  | pend | pendTimeout | pendSuspended | pendTimeoutSuspended =>
    cases hk : (a.task t).pendOn with
    | taskQ | taskSem | flag => simpa [Abs.reprio, hs, hk] using hset
    | mutex | multi | q | sem =>
      rw [wp_bind]
      refine (pendListChangePrio_spec h hI.wait.linked hI.wait.back).mono fun _ s' h' => ?_
      simpa [Abs.reprio, hs, hk] using h'
    | nothing => simpa [Abs.reprio, hs, hk] using h

theorem mutexBoost_spec (h : Rep cfg s a) (hI : a.Sound cfg) (p : ℕ) :
    wp n cfg (mutexBoost t p)
      (fun e s' => Rep cfg s' (a.boost t p) ∧ e = if (a.task t).state = .del then .stateInvalid else .none) s := by
  have hset : Rep cfg (s.modTcb t fun c => { c with prio := p }) (a.modTask t fun c => { c with prio := p }) :=
    h.modTcb rfl rfl
  rw [mutexBoost, wp_bind, wp_getTcb, h.state]
  cases hs : (a.task t).state with
  | rdy =>
    rw [wp_bind]
    refine (rdyChangePrio_spec h hI hs p true).mono fun _ s' h' => ?_
    simpa [Abs.boost, hs] using h'
  | del => simpa [Abs.boost, hs] using h
  | dly | suspended | dlySuspended => simpa [Abs.boost, hs] using hset
  | pend | pendTimeout | pendSuspended | pendTimeoutSuspended =>
    rw [wp_bind]
    refine (pendListChangePrio_spec h hI.wait.linked hI.wait.back).mono fun _ s' h' => ?_
    simpa [Abs.boost, hs] using h'

theorem taskStart_spec (h : Rep cfg s a) (hI : a.Sound cfg) (hs : (a.task t).state = .del) (args : TaskArgs) :
    wp n cfg (taskStart t args) (fun _ s' => Rep cfg s' (a.start t args.prio)) s := by
  have hnot := hI.ready.not_mem (t := t) (by simp [hs])
  simp only [taskStart, taskInitTCB, wp_bind, wp_ask, wp_modTcb, wp_get]
  have h₁ : Rep cfg ((s.modTcb t fun _ => TCB.init cfg).modTcb t fun c =>
      { c with
        prio := args.prio
        timeQuanta := args.timeQuanta
        timeQuantaCtr := if args.timeQuanta = 0 then s.schedRoundRobinDfltTimeQuanta else args.timeQuanta
        msgQ := MsgQ.init args.qSize })
      (((a.modTask t fun _ => Task.fresh cfg.prioMax).resetWheel t).modTask t fun c => { c with prio := args.prio }) :=
    (h.modTcb_off hnot rfl rfl).modTcb rfl rfl
  have hp := h₁.prio t
  rw [Abs.task_modTask, if_pos rfl] at hp
  have := rdyListInsertTail_spec (n := n) h₁ hnot
  rw [hp, wp_bind] at this
  have heq : a.start t args.prio = (((a.modTask t fun _ => Task.fresh cfg.prioMax).resetWheel t).modTask t
      fun c => { c with prio := args.prio }).enqueueTail t := by
    simp [Abs.start, Abs.enqueueTail, Abs.setReady, Abs.modTask, Abs.resetWheel, Task.fresh]
  rw [heq]
  exact this

theorem taskUnlink_spec (h : Rep cfg s a) (hI : a.Sound cfg) :
    wp n cfg (taskUnlink t) (fun _ s' => Rep cfg s' (a.unlink t)) s := by
  rw [taskUnlink, wp_bind, wp_getTcb, h.state, h.pendOn, Abs.unlink]
  cases hs : (a.task t).state with
  | rdy => exact rdyListRemove_spec h ((hI.ready t _).mpr ⟨hs, rfl⟩)
  | suspended | del => simpa using h
  | dly | dlySuspended =>
    simp only [Abs.unpend_of_nil (hI.wait.table_nil (t := t) (by simp [hs, TaskState.isPend]))]
    exact tickListRemove_spec h
  | pend | pendSuspended | pendTimeout | pendTimeoutSuspended =>
    rw [wp_bind]
    refine (tickListRemove_spec h).mono fun _ s₁ h₁ => ?_
    have htbl := hI.wait.table_iff t
    cases hk : (a.task t).pendOn with
    | nothing | taskQ | taskSem =>
      simp only [Abs.unpend_of_nil (a := a) (t := t) (by simpa [hk, PendOn.onObject] using htbl)]
      simpa using h₁
    | flag | multi | mutex | q | sem => exact pendListRemove_spec h₁ hI.offWheel.wait.linked

theorem taskErase_spec (h : Rep cfg s a) (hI : a.Sound cfg) :
    wp n cfg (taskErase t) (fun _ s' => Rep cfg s' (a.erase t cfg.prioMax)) s := by
  rw [taskErase, wp_bind]
  refine (taskUnlink_spec h hI).mono fun _ s₁ h₁ => ?_
  rw [wp_bind, wp_getTcb]
  refine quiet_then h₁ (keeps_msgQFreeAll _) fun _ s₂ h₂ => ?_
  simp only [taskInitTCB, wp_bind, wp_ask, wp_modTcb, wp_modify]
  have h₃ : Rep cfg ((s₂.modTcb t fun _ => TCB.init cfg).modTcb t fun c => { c with taskState := .del })
      ((((a.unlink t).modTask t fun _ => Task.fresh cfg.prioMax).resetWheel t).modTask t
        fun c => { c with state := .del }) :=
    (h₂.modTcb_off (hI.unlinked h.nodup t) rfl rfl).modTcb rfl rfl
  convert h₃.setCont t .none using 1
  simp [Abs.erase, Abs.modTask, Abs.resetWheel]

section blocking

variable {kind : PendOn}

theorem taskBlock_spec {g : Task → Task} (h : Rep cfg s (a.modTask t g)) (ht : t ∈ a.ready (a.task t).prio)
    (hg : (g (a.task t)).prio = (a.task t).prio) (timeout : Tick) :
    wp n cfg (taskBlock t timeout) (fun _ s' => ∃ timed : Bool, Rep cfg s'
      (((a.modTask t fun c => { g c with state := if timed then .pendTimeout else .pend }).dequeue t).timer t timed)) s := by
  have hfin : ∀ (timed : Bool) s₁, Rep cfg s₁ ((a.modTask t g).timer t timed) → wp n cfg
      (do modTcb t (fun c => { c with taskState := if timed then .pendTimeout else .pend }); rdyListRemove t)
      (fun _ s' => ∃ timed : Bool, Rep cfg s' (((a.modTask t fun c =>
        { g c with state := if timed then .pendTimeout else .pend }).dequeue t).timer t timed)) s₁ := by
    intro timed s₁ h₁
    have h₂ : Rep cfg (s₁.modTcb t fun c => { c with taskState := if timed then .pendTimeout else .pend }) _ :=
      h₁.modTcb (g := fun c => { c with state := if timed then .pendTimeout else .pend }) rfl rfl
    rw [wp_bind, wp_modTcb]
    refine (rdyListRemove_spec h₂ ?_).mono fun _ s' h' => ⟨timed, ?_⟩
    · rw [Abs.ready_modTask, Abs.task_modTask, if_pos rfl, Abs.task_timer, Abs.task_modTask, if_pos rfl, hg]
      exact ht
    · convert h' using 1
      simp [Abs.timer, Abs.dequeue, Abs.setReady, Abs.modTask]
  rw [taskBlock, wp_ite]
  refine ⟨fun hpos => ?_, fun _ => hfin false s (by rwa [Abs.timer_false])⟩
  rw [wp_bind]
  refine (tickListInsert_spec h timeout optTimeTimeout).mono ?_
  rintro e s₁ ⟨h₁, herr⟩
  have he : e = .none := by
    rw [herr, tickMatch, if_neg (by decide), if_pos hpos, if_neg (by decide)]
    simp
  subst he
  refine hfin true s₁ ?_
  rw [Abs.timer_true]
  exact (h₁.resolve_right fun h' => h'.1 rfl).2

theorem pend_spec (h : Rep cfg s a) (hI : a.Sound cfg) (hc : a.cur = some t) (hs : (a.task t).state = .rdy)
    (o : Option ObjId) (timeout : Tick) :
    wp n cfg (pend o kind timeout) (fun _ s' => ∃ timed, Rep cfg s' (a.pendOn t o kind timed)) s := by
  have hmem := (hI.ready t _).mpr ⟨hs, rfl⟩
  have hoff : ∀ o, (t, 0) ∉ a.waiting o := fun o => hI.wait.not_mem (by simp [hs, TaskState.isPend]) o 0
  rw [pend, wp_bind, wp_getCur, ← h.cur, hc]
  rintro _ ⟨⟩
  rw [wp_bind, wp_modTcb, wp_bind]
  have h₁ : Rep cfg (s.modTcb t fun c => { c with pendOn := kind, pendStatus := .ok })
      (a.modTask t fun c => { c with pendOn := kind, pendStatus := .ok }) := h.modTcb rfl rfl
  refine (taskBlock_spec h₁ hmem rfl timeout).mono ?_
  rintro _ s₂ ⟨timed, h₂⟩
  refine wp.mono (Q := fun _ s' => Rep cfg s' (a.pendOn t o kind timed)) ?_ fun _ s' h' => ⟨timed, h'⟩
  cases o with
  | none =>
    rw [wp_modTcb]
    have h₃ : Rep cfg (s₂.modTcb t fun c => { c with pendDataTblEntries := 0, pendDataTblPtr := none }) _ :=
      h₂.modTcb (g := fun c => { c with table := [] }) rfl rfl
    convert h₃ using 1
    simp [Abs.pendOn, Abs.block, Abs.timer, Abs.dequeue, Abs.setReady, Abs.modTask]
  | some o =>
    simp only [pendDataInit, pendDataInit1, forEntries, wp_bind, wp_modPendData, wp_modTcb, wp_pure]
    have h₃ : Rep cfg (s₂.modPendData (t, 0) fun e => { e with pendObjPtr := some o }) _ :=
      h₂.modPendData (g := fun e => { e with obj := some o }) hoff id rfl
    have h₄ : Rep cfg ((s₂.modPendData (t, 0) fun e => { e with pendObjPtr := some o }).modTcb t
        fun c => { c with pendDataTblEntries := 1, pendDataTblPtr := some (t, 0) }) _ :=
      h₃.modTcb (g := fun c => { c with table := [(t, 0)] }) rfl rfl
    have h₅ : Rep cfg (((s₂.modPendData (t, 0) fun e => { e with pendObjPtr := some o }).modTcb t
        fun c => { c with pendDataTblEntries := 1, pendDataTblPtr := some (t, 0) }).modPendData (t, 0) fun e =>
          { e with
            nextPtr := none, prevPtr := none, rdyObjPtr := none, rdyMsgPtr := none, rdyMsgSize := 0, rdyTS := 0,
            tcbPtr := some t }) _ :=
      h₄.modPendData (g := fun e => { e with tcb := some t }) hoff (fun _ => rfl) rfl
    refine (pendListInsertPrio_spec h₅ hoff ?_).mono fun _ s' h' => ?_
    · intro x hx
      rcases List.mem_cons.mp hx with rfl | hx
      · simp [Abs.modEntry]
      · have hne : x ≠ (t, 0) := fun e => hoff o (e ▸ hx)
        simpa [Abs.modEntry, Abs.modTask, Abs.dequeue, Abs.setReady, Abs.timer, hne] using hI.wait.back o x hx
    · convert h' using 1
      simp [Abs.pendOn, Abs.attach, Abs.block, Abs.timer, Abs.dequeue, Abs.setReady, Abs.modTask, Abs.modEntry, Abs.link]

theorem pendMultiWait1_spec {o : ObjId} (h : Rep cfg s a) (hd : d.1 = t) (ho : (a.entry d).obj = some o)
    (htype : (a.obj o).type = .sem ∨ (a.obj o).type = .q) (hoff : ∀ o, d ∉ a.waiting o)
    (hback : ∀ o, ∀ x ∈ a.waiting o, (a.entry x).tcb = some x.1) :
    wp n cfg (pendMultiWait1 t d) (fun _ s' => Rep cfg s' (Abs.attach t a d)) s := by
  rw [pendMultiWait1, wp_bind, wp_modPendData]
  have h₁ : Rep cfg (s.modPendData d fun e => { e with tcbPtr := some t }) _ :=
    h.modPendData (g := fun e => { e with tcb := some t }) hoff id rfl
  generalize s.modPendData d _ = s₁ at h₁
  have hobj : (s₁.pendData d).pendObjPtr = some o := by
    refine (congrArg Entry.obj (h₁.entry d)).symm.trans ?_
    simp [Abs.modEntry, ho]
  have hkind : (s₁.obj o).type = (a.obj o).type := (congrArg Sync.type (h₁.obj o)).symm
  have hlink : wp n cfg (pendListInsertPrio o d) (fun _ s' => Rep cfg s' (Abs.attach t a d)) s₁ := by
    refine (pendListInsertPrio_spec h₁ hoff ?_).mono fun _ s' h' => ?_
    · intro x hx
      rcases List.mem_cons.mp hx with rfl | hx
      · simp [Abs.modEntry, hd]
      · have hne : x ≠ d := fun e => hoff o (e ▸ hx)
        simpa [Abs.modEntry, hne] using hback o x hx
    · rwa [Abs.attach, ho]
  rw [wp_bind, wp_getPendData, wp_bind, wp_deref, hobj]
  rintro _ ⟨⟩
  rw [wp_bind, wp_getObj, hkind]
  rcases htype with ht | ht <;> rw [ht] <;> exact hlink

theorem pendMultiWait_spec {k : ℕ} (h : Rep cfg s a) (hI : a.Sound cfg) (hc : a.cur = some t)
    (hs : (a.task t).state = .rdy) (hd : d.1 = t)
    (hobj : ∀ x ∈ entriesFrom d k, ∃ o, (a.entry x).obj = some o ∧ ((a.obj o).type = .sem ∨ (a.obj o).type = .q))
    (timeout : Tick) :
    wp n cfg (pendMultiWait d k timeout) (fun _ s' => ∃ timed, Rep cfg s'
      ((entriesFrom d k).foldl (Abs.attach t) (a.block t .multi timed (entriesFrom d k)))) s := by
  have hmem := (hI.ready t _).mpr ⟨hs, rfl⟩
  have hoff : ∀ x ∈ entriesFrom d k, ∀ o, x ∉ a.waiting o := by
    intro x hx o
    have := hI.wait.not_mem (t := t) (by simp [hs, TaskState.isPend]) o x.2
    rwa [← hd, ← (mem_entriesFrom.mp hx).1] at this
  rw [pendMultiWait, wp_bind, wp_getCur, ← h.cur, hc]
  rintro _ ⟨⟩
  rw [wp_bind, wp_modTcb, wp_bind]
  have h₁ : Rep cfg (s.modTcb t fun c =>
      { c with pendOn := .multi, pendStatus := .ok, pendDataTblEntries := k, pendDataTblPtr := some d })
      (a.modTask t fun c => { c with pendOn := .multi, pendStatus := .ok, table := entriesFrom d k }) :=
    h.modTcb rfl rfl
  refine (taskBlock_spec h₁ hmem rfl timeout).mono ?_
  rintro _ s₂ ⟨timed, h₂⟩
  refine wp.mono (wp_forEntries (fun ds s' => ∃ a', Rep cfg s' a' ∧ ds.Nodup ∧ (∀ x ∈ ds, x ∈ entriesFrom d k) ∧
    (∀ x, (a'.entry x).obj = (a.entry x).obj) ∧ a'.obj = a.obj ∧ (∀ x ∈ ds, ∀ o, x ∉ a'.waiting o) ∧
    (∀ o, ∀ x ∈ a'.waiting o, (a'.entry x).tcb = some x.1) ∧ ds.foldl (Abs.attach t) a' =
      (entriesFrom d k).foldl (Abs.attach t) (a.block t .multi timed (entriesFrom d k))) ?_ ?_) ?_
  · rintro x ds s' ⟨a', h', hnd, hsub, hent, hob, hno, hback, hfold⟩
    obtain ⟨o, ho, htype⟩ := hobj x (hsub x (by simp))
    have hx1 : x.1 = t := (mem_entriesFrom.mp (hsub x (by simp))).1.trans hd
    rw [← hent] at ho
    rw [← hob] at htype
    refine (pendMultiWait1_spec h' hx1 ho htype (hno x (by simp)) hback).mono fun _ s'' h'' => ?_
    refine ⟨_, h'', hnd.of_cons, fun y hy => hsub y (by simp [hy]), ?_, ?_, ?_, ?_, hfold⟩
    · intro y
      rw [Abs.attach_entry_obj, hent]
    · rw [Abs.attach_obj, hob]
    · intro y hy o' hm
      have hyx : y ≠ x := fun e => (List.nodup_cons.mp hnd).1 (e ▸ hy)
      rw [Abs.mem_attach_waiting] at hm
      exact hm.elim (hno y (by simp [hy]) o') fun h => hyx h.1
    · intro o' y hm
      rw [Abs.mem_attach_waiting] at hm
      rw [Abs.attach_entry_tcb (by simp [ho])]
      split
      · rename_i hyx
        rw [hyx, hx1]
      · rename_i hyx
        exact hback o' y (hm.resolve_right fun h => hyx h.1)
  · exact ⟨_, h₂, nodup_entriesFrom, fun _ h => h, fun _ => rfl, rfl, hoff, hI.wait.back, rfl⟩
  · rintro _ s' ⟨a', h', -, -, -, -, -, -, rfl⟩
    exact ⟨timed, h'⟩

end blocking

end UcosIII
