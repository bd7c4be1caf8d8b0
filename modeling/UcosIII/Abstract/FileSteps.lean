import UcosIII.Abstract.FileChanges

namespace UcosIII

open Prog

variable {n : ℕ} {cfg : Cfg} {s s' : OS} {a : Abs} {t x : TcbId} {d : PdId} {o : Option ObjId} {e : Event} {r : Option Ret}
  {α β : Type}

section signal

theorem Rep.own (hrep : Rep cfg s a) (hI : a.Sound cfg) (t : TcbId) (d : PdId) (hd : d ∈ (s.file t).table) : d.1 = t := by
  have hmem : d ∈ (a.task t).table := by
    rw [hrep.task]
    exact hd
  exact (hI.wait.own t d hmem).1

theorem taskSemInc_file : wp n cfg (taskSemInc t) (fun _ s' => s'.file = Function.update s.file t
    (if (s.file t).semCtr = 0xFFFFFFFF then s.file t else { s.file t with semCtr := (s.file t).semCtr + 1 })) s := by
  have hctr : (s.file t).semCtr = (s.tcb t).semCtr := rfl
  rw [taskSemInc, wp_bind, wp_getTcb, wp_ite, hctr]
  constructor
  · intro hmax
    rw [wp_pure, if_pos hmax]
    exact (Function.update_eq_self t s.file).symm
  · intro hmax
    rw [wp_bind, if_neg hmax]
    exact wp_modTcb_file fun s₁ h₁ => wp_pure.mpr h₁

theorem taskSemPost_file (hown : ∀ t, ∀ d ∈ (s.file t).table, d.1 = t) (p : Option TcbId) (opt : Opt) (ts : ℕ) :
    wp n cfg (taskSemPost p opt ts) (fun _ s' => ∃ t, s.Target p t ∧
      s'.file = Function.update s.file t ((s.file t).signalled ts)) s := by
  rw [taskSemPost, wp_bind, wp_target]
  intro t ht
  rw [wp_bind]
  refine wp_modTcb_file fun s₁ h₁ => ?_
  have hf₁ : s₁.file t = { s.file t with mail := { (s.file t).mail with ts := ts } } := by
    rw [h₁, Function.update_self]
    rfl
  have hst : (s₁.tcb t).taskState = (s.file t).state := (congrArg File.state hf₁ :)
  have hon : (s₁.tcb t).pendOn = (s.file t).pendOn := (congrArg File.pendOn hf₁ :)
  have hctr : (s₁.file t).semCtr = (s.file t).semCtr := (congrArg File.semCtr hf₁ :)
  -- the signal is counted
  have hcount (hnd : (s.file t).state ≠ .del) (hno : ¬ ((s.file t).state.isPend = true ∧ (s.file t).pendOn = .taskSem)) :
      wp n cfg (taskSemInc t) (fun _ s' => ∃ t, s.Target p t ∧
        s'.file = Function.update s.file t ((s.file t).signalled ts)) s₁ := by
    refine taskSemInc_file.mono fun _ s₂ h₂ => ⟨t, ht, ?_⟩
    rw [h₂, h₁, Function.update_self, Function.update_idem]
    rw [h₁, Function.update_self] at hctr
    rw [hctr, File.signalled, if_neg hno]
    congr 1
    by_cases hmax : (s.file t).semCtr = 0xFFFFFFFF
    · rw [if_pos hmax, if_pos (.inr hmax)]
      rfl
    · rw [if_neg hmax, if_neg (by simp [hnd, hmax])]
      rfl
  rw [wp_bind, wp_getTcb, hst, hon]
  cases hs : (s.file t).state with
  | rdy | dly | suspended | dlySuspended => exact hcount (by simp [hs]) (by simp [hs, TaskState.isPend])
  | del =>
    refine wp_pure.mpr ⟨t, ht, ?_⟩
    rw [h₁, File.signalled, if_neg (by simp [hs, TaskState.isPend]), if_pos (.inl hs)]
    rfl
  | pend | pendTimeout | pendSuspended | pendTimeoutSuspended =>
    rw [wp_ite]
    constructor
    · intro hsem
      have hp : (s.file t).state.isPend = true := by simp [hs, TaskState.isPend]
      have hp₁ : (s₁.file t).state.isPend = true := by rw [hf₁]; exact hp
      have hown₁ : ∀ d ∈ (s₁.file t).table, d.1 = t := by
        rw [hf₁]
        exact hown t
      rw [wp_bind]
      refine (post_file hown₁ none 0 ts).mono fun _ s₂ h₂ => ?_
      rw [wp_bind, wp_getTcb, wp_bind]
      refine (keeps_file_schedOpt opt n cfg s₂).mono fun _ s₃ h₃ => wp_pure.mpr ⟨t, ht, ?_⟩
      rw [h₃, h₂, if_pos hp₁, hf₁, h₁, Function.update_idem, File.signalled, if_pos ⟨hp, hsem⟩]
    · intro hsem
      exact hcount (by simp [hs]) fun hc => hsem hc.2

theorem osTaskSemPost_file (hown : ∀ t, ∀ d ∈ (s.file t).table, d.1 = t) (p : Option TcbId) (opt : Opt) :
    wp n cfg (osTaskSemPost p opt) (fun _ s' => ChangesOne (File.signalled s.tsNow)
      (fun t => postOptValid opt = true ∧ s.Target p t) s s') s := by
  rw [osTaskSemPost, wp_ite]
  refine ⟨fun _ => wp_pure.mpr (.inl rfl), fun hopt => ?_⟩
  rw [wp_bind, wp_tsGet]
  refine (taskSemPost_file hown p opt s.tsNow).mono ?_
  rintro _ s' ⟨t, ht, h'⟩
  exact .inr ⟨t, ⟨by simpa using hopt, ht⟩, h'⟩

theorem msgQFreeAll_file (q : MsgQ) :
    wp n cfg (msgQFreeAll q) (fun x s' => s'.file = s.file ∧ x.1.nbrEntries = 0) s := by
  have hempty : wp n cfg (msgQFreeAll q) (fun x _ => x.1.nbrEntries = 0) s := by
    rw [msgQFreeAll, wp_ite]
    refine ⟨fun _ => ?_, fun h0 => wp_pure.mpr (Nat.eq_zero_of_not_pos h0)⟩
    rw [wp_bind, wp_deref]
    intro m _
    rw [wp_bind, getMsgPool, wp_bind, wp_get, wp_pure, wp_bind, modMsg, wp_modify, wp_bind, modMsgPool, wp_modify]
    exact wp_pure.mpr rfl
  exact ((keeps_noMsgs_msgQFreeAll q).comp OS.file n cfg s).and hempty

theorem wp_setMsgs {m : K (MsgQ × α)} {R : MsgQ → α → Prop} (hm : wp n cfg m (fun x s' => s'.file = s.file ∧ R x.1 x.2) s)
    (t : TcbId) {k : MsgQ × α → K β} {Q : β → OS → Prop} (hQ : ∀ (q : MsgQ) (x : α) (s' : OS), R q x →
      s'.file = Function.update s.file t { s.file t with msgs := q.nbrEntries } → wp n cfg (k (q, x)) Q s') :
    wp n cfg (do
      let x ← m
      modTcb t fun c => { c with msgQ := x.1 }
      k x) Q s := by
  rw [wp_bind]
  refine hm.mono ?_
  rintro ⟨q, x⟩ s₁ ⟨h₁, hR⟩
  rw [wp_bind]
  refine wp_modTcb_file fun s₂ h₂ => hQ q x s₂ hR ?_
  rw [h₂, ← h₁]
  rfl

theorem osTaskQFlush_file (p : Option TcbId) :
    wp n cfg (osTaskQFlush p) (fun _ s' => ChangesOne (fun f => { f with msgs := 0 }) (s.Target p) s s') s := by
  rw [osTaskQFlush, wp_bind, wp_get, wp_ite]
  refine ⟨fun _ => wp_pure.mpr (.inl rfl), fun _ => ?_⟩
  rw [wp_bind, wp_target]
  intro t ht
  rw [wp_bind, wp_getTcb]
  refine wp_setMsgs (R := fun q _ => q.nbrEntries = 0) (msgQFreeAll_file _) t fun q _ s' h0 h' => wp_pure.mpr ?_
  rw [h0] at h'
  exact .inr ⟨t, ht, h'⟩

theorem osTaskQPost_file (hown : ∀ t, ∀ d ∈ (s.file t).table, d.1 = t) (p : Option TcbId) (pVoid : Option ℕ) (msgSize : ℕ)
    (opt : Opt) :
    wp n cfg (osTaskQPost p pVoid msgSize opt) (fun r s' => Filed s (.call (.taskQPost p pVoid msgSize opt))
      (some { err := r }) s') s := by
  have hput (t : TcbId) (ht : s.Target p t) (hq : ¬ ((s.file t).state.isPend = true ∧ (s.file t).pendOn = .taskQ)) :
      wp n cfg (taskQPut t pVoid msgSize opt s.tsNow) (fun r s' => Filed s (.call (.taskQPost p pVoid msgSize opt))
        (some { err := r }) s') s := by
    rw [taskQPut, wp_bind, wp_getTcb]
    refine wp_setMsgs (R := fun _ _ => True) (((keeps_noMsgs_msgQPut _ _ _ _ _).comp OS.file n cfg s).mono ?_) t ?_
    · exact fun _ _ h => ⟨h, trivial⟩
    · exact fun q _ s' _ h' => wp_pure.mpr (.one h' ⟨ht, .inr ⟨hq, _, rfl⟩⟩)
  rw [osTaskQPost, wp_ite]
  refine ⟨fun _ => wp_pure.mpr (.same rfl), fun _ => ?_⟩
  rw [wp_bind, wp_tsGet, taskQPost, wp_bind, wp_target]
  intro t ht
  have hst (st : TaskState) (hs : (s.tcb t).taskState = st) : (s.file t).state = st := hs
  rw [wp_bind, wp_getTcb]
  cases hs : (s.tcb t).taskState with
  | rdy | dly | suspended | dlySuspended => exact hput t ht (by rw [hst _ hs]; simp [TaskState.isPend])
  | del => exact wp_pure.mpr (.same rfl)
  | pend | pendTimeout | pendSuspended | pendTimeoutSuspended =>
    rw [wp_ite]
    refine ⟨fun hq => ?_, fun hq => hput t ht fun hc => hq hc.2⟩
    have hp : (s.file t).state.isPend = true := by
      rw [show (s.file t).state = _ from hs]
      rfl
    rw [wp_bind]
    refine (post_file (hown t) pVoid msgSize s.tsNow).mono fun _ s₁ h₁ => ?_
    rw [wp_bind]
    refine (keeps_file_schedOpt opt n cfg s₁).mono fun _ s₂ h₂ => wp_pure.mpr ?_
    rw [if_pos hp] at h₁
    exact .one (h₂.trans h₁) ⟨ht, .inl ⟨hp, hq, rfl⟩⟩

theorem taskPendAbort_file {kind : PendOn} {opt : Opt} (hown : ∀ t, ∀ d ∈ (s.file t).table, d.1 = t)
    (hpend : ∀ t, (s.file t).pendOn = kind → (s.file t).state.isPend = true) (p : Option TcbId) :
    wp n cfg (do
      let t ← Prog.deref p
      if (← getTcb t).pendOn ≠ kind then return ({ err := .pendAbortNone } : Ret)
      pendAbort none t s.tsNow
      schedOpt opt
      return ({ err := .none, val := 1 } : Ret)) (fun _ s' => ChangesOne (File.aborted none s.tsNow)
        (fun t => p = some t ∧ (s.file t).state.isPend = true ∧ (s.file t).pendOn = kind) s s') s := by
  rw [wp_bind, wp_deref]
  intro t ht
  rw [wp_bind, wp_getTcb, wp_ite]
  refine ⟨fun _ => wp_pure.mpr (.inl rfl), fun hk => ?_⟩
  have hk' : (s.file t).pendOn = kind := not_not.mp hk
  rw [wp_bind]
  refine (pendAbort_file (hown t) s.tsNow).mono fun _ s₁ h₁ => ?_
  rw [wp_bind]
  refine (keeps_file_schedOpt opt n cfg s₁).mono fun _ s₂ h₂ => wp_pure.mpr (.inr ⟨t, ⟨ht, hpend t hk', hk'⟩, ?_⟩)
  rw [h₂, h₁, if_pos (hpend t hk')]

end signal

section now

def OS.clocks (s : OS) : ℕ × Tick := (s.tsNow, s.tmrUpdateCtr)

theorem keeps_now_modTcb (t : TcbId) (f : TCB → TCB) : Keeps OS.clocks (modTcb t f) := keeps_modify fun _ => rfl

theorem keeps_now_taskRdy (t : TcbId) : Keeps OS.clocks (taskRdy t) := by
  rw [taskRdy]
  refine keeps_bind ((keeps_tickListRemove t).comp OS.clocks) fun _ => keeps_bind (keeps_getTcb t) fun _ => ?_
  exact keeps_ite ((keeps_rdyListInsert t).comp OS.clocks) (keeps_pure ())

theorem keeps_now_pendListRemove (t : TcbId) : Keeps OS.clocks (pendListRemove t) := by
  intro n cfg s
  exact pendListRemove_frame.mono fun _ s' hs => (congrArg OS.clocks hs :)

theorem keeps_now_schedOpt (opt : Opt) : Keeps OS.clocks (schedOpt opt) := by
  have hscan (fuel ix : ℕ) : Keeps OS.clocks (prioScan fuel ix) := by
    induction fuel generalizing ix with
    | zero => exact keeps_fault
    | succ fuel ih => exact keeps_bind (keeps_getPrioTbl ix) fun _ => keeps_ite (ih _) (keeps_pure _)
  have hre : Keeps OS.clocks reschedule := by
    refine keeps_bind (keeps_bind keeps_ask fun _ => hscan _ _) fun p => keeps_bind (keeps_getRdyList p) fun _ => ?_
    refine keeps_bind (keeps_modify fun _ => rfl) fun _ => keeps_bind keeps_get fun _ => ?_
    exact keeps_ite (keeps_pure _) (keeps_bind (keeps_deref _) fun _ => keeps_modify fun _ => rfl)
  refine keeps_ite (keeps_bind keeps_get fun _ => keeps_ite (keeps_pure _) (keeps_ite (keeps_pure _) hre)) (keeps_pure _)

theorem keeps_now_post (o : Option ObjId) (t : TcbId) (pVoid : Option ℕ) (msgSize ts : ℕ) :
    Keeps OS.clocks (post o t pVoid msgSize ts) := by
  have hmark (f : PendData → PendData) (k : ℕ) (d : PdId) : Keeps OS.clocks (markEntry o f k d) := by
    induction k generalizing d with
    | zero => exact keeps_pure _
    | succ k ih => exact keeps_bind (keeps_getPendData d) fun _ => keeps_ite (keeps_modify fun _ => rfl) (ih _)
  have hpost1 : Keeps OS.clocks (post1 o t pVoid msgSize ts) := by
    refine keeps_bind (keeps_getTcb t) fun _ => keeps_ite (keeps_pure _) (keeps_bind (keeps_deref _) fun d => ?_)
    exact hmark _ _ d
  rw [post]
  refine keeps_bind (keeps_getTcb t) fun c => ?_
  cases c.taskState with
  | rdy | dly | suspended | dlySuspended | del => exact keeps_pure _
  | pend | pendTimeout =>
    have hend (x : Unit) : Keeps OS.clocks (do
        taskRdy t
        modTcb t fun c => { c with taskState := .rdy, pendStatus := .ok, pendOn := .nothing }) :=
      keeps_bind (keeps_now_taskRdy t) fun _ => keeps_now_modTcb t _
    have hun := keeps_ite (c := o ≠ none) (keeps_bind (keeps_now_pendListRemove t) hend) (hend ())
    exact keeps_ite (keeps_bind hpost1 fun _ => hun) (keeps_bind (keeps_now_modTcb t _) fun _ => hun)
  | pendSuspended | pendTimeoutSuspended =>
    have hend (x : Unit) : Keeps OS.clocks
        (modTcb t fun c => { c with taskState := .suspended, pendStatus := .ok, pendOn := .nothing }) :=
      keeps_now_modTcb t _
    have hun := keeps_bind ((keeps_tickListRemove t).comp OS.clocks) fun _ : Unit =>
      keeps_ite (c := o ≠ none) (keeps_bind (keeps_now_pendListRemove t) hend) (hend ())
    exact keeps_ite (keeps_bind hpost1 fun _ => hun) (keeps_bind (keeps_now_modTcb t _) fun _ => hun)

theorem keeps_now_osTaskSemPost (p : Option TcbId) (opt : Opt) : Keeps OS.clocks (osTaskSemPost p opt) := by
  have hinc (t : TcbId) : Keeps OS.clocks (taskSemInc t) :=
    keeps_bind (keeps_getTcb t) fun _ => keeps_ite (keeps_pure _) (keeps_bind (keeps_now_modTcb t _) fun _ => keeps_pure _)
  refine keeps_ite (keeps_pure _) (keeps_bind keeps_tsGet fun ts => keeps_bind (keeps_orCur p) fun t => ?_)
  refine keeps_bind (keeps_now_modTcb t _) fun _ => keeps_bind (keeps_getTcb t) fun c => ?_
  cases c.taskState with
  | rdy | dly | suspended | dlySuspended => exact hinc t
  | del => exact keeps_pure _
  | pend | pendTimeout | pendSuspended | pendTimeoutSuspended =>
    refine keeps_ite (keeps_bind (keeps_now_post none t none 0 ts) fun _ => keeps_bind (keeps_getTcb t) fun _ => ?_) (hinc t)
    exact keeps_bind (keeps_now_schedOpt opt) fun _ => keeps_pure _

theorem keeps_now_schedRoundRobin (p : ℕ) : Keeps OS.clocks (schedRoundRobin p) := by
  refine keeps_bind keeps_get fun s => keeps_ite (keeps_pure _) (keeps_bind (keeps_getRdyList p) fun l => ?_)
  cases l.headPtr with
  | none => exact keeps_pure _
  | some t =>
    have hload : Keeps OS.clocks (loadTimeQuanta p) := by
      refine keeps_bind (keeps_getRdyList p) fun _ => keeps_bind (keeps_deref _) fun t => keeps_bind keeps_get fun _ => ?_
      exact keeps_now_modTcb t _
    have hrest : Keeps OS.clocks (do
        if (← getTcb t).timeQuantaCtr > 0 then return ()
        if l.nbrEntries < 2 then return ()
        if s.schedLockNestingCtr > 0 then return ()
        rdyListMoveHeadToTail p
        loadTimeQuanta p) := by
      refine keeps_bind (keeps_getTcb t) fun _ => keeps_ite (keeps_pure _) (keeps_ite (keeps_pure _) ?_)
      exact keeps_ite (keeps_pure _) (keeps_bind ((keeps_rdyListMoveHeadToTail p).comp OS.clocks) fun _ => hload)
    refine keeps_ite (keeps_pure _) (keeps_bind (keeps_getTcb t) fun _ => ?_)
    exact keeps_ite (keeps_bind (keeps_now_modTcb t _) fun _ => hrest) hrest

theorem keeps_now_tickListExpire (t : TcbId) : Keeps OS.clocks (tickListExpire t) := by
  have hoff := (keeps_tickListRemove t).comp OS.clocks
  rw [tickListExpire]
  refine keeps_bind keeps_get fun _ => keeps_bind (keeps_getTcb t) fun c => ?_
  cases c.taskState with
  | rdy | pend | suspended | pendSuspended | del => exact keeps_pure _
  | dly =>
    refine keeps_bind (keeps_now_modTcb t _) fun _ => keeps_ite ?_ (keeps_pure _)
    exact keeps_bind (keeps_now_modTcb t _) fun _ => keeps_bind (keeps_now_taskRdy t) fun _ => keeps_pure _
  | dlySuspended =>
    refine keeps_bind (keeps_now_modTcb t _) fun _ => keeps_ite ?_ (keeps_pure _)
    exact keeps_bind (keeps_now_modTcb t _) fun _ => keeps_bind hoff fun _ => keeps_pure _
  | pendTimeout =>
    refine keeps_bind (keeps_now_modTcb t _) fun _ => keeps_ite (keeps_bind keeps_tsGet fun ts => ?_) (keeps_pure _)
    refine keeps_bind (keeps_now_modTcb t _) fun _ => keeps_bind (keeps_now_pendListRemove t) fun _ => ?_
    exact keeps_bind (keeps_now_taskRdy t) fun _ => keeps_bind (keeps_now_modTcb t _) fun _ => keeps_pure _
  | pendTimeoutSuspended =>
    refine keeps_bind (keeps_now_modTcb t _) fun _ => keeps_ite (keeps_bind keeps_tsGet fun ts => ?_) (keeps_pure _)
    refine keeps_bind (keeps_now_modTcb t _) fun _ => keeps_bind (keeps_now_pendListRemove t) fun _ => ?_
    exact keeps_bind hoff fun _ => keeps_bind (keeps_now_modTcb t _) fun _ => keeps_pure _

end now

section ticks

theorem File.table_signalled (f : File) (ts : ℕ) : (f.signalled ts).table = f.table := by
  rw [signalled]
  split
  · rw [posted]
    split
    · rw [mark_eq]
      rfl
    · rfl
  · split <;> rfl

theorem osTimeTick_signals (hown : ∀ t, ∀ d ∈ (s.file t).table, d.1 = t) :
    wp n cfg osTimeTick (fun _ s' => ∀ t, s'.file t = if t = tickTaskTCB ∨ t = tmrTaskTCB ∧ s.tmrUpdateCtr - 1 = 0 then
      (s.file t).signalled s.tsNow else s.file t) s := by
  have hpost (t : TcbId) (s₁ : OS) (hown₁ : ∀ t, ∀ d ∈ (s₁.file t).table, d.1 = t) :
      wp n cfg (osTaskSemPost (some t) optPostNone)
        (fun _ s' => s'.file = Function.update s₁.file t ((s₁.file t).signalled s₁.tsNow)) s₁ := by
    rw [osTaskSemPost, if_neg (by decide), wp_bind, wp_tsGet]
    refine (taskSemPost_file hown₁ (some t) optPostNone s₁.tsNow).mono ?_
    rintro _ s' ⟨t', ht', h'⟩
    obtain rfl : t = t' := by simpa [OS.Target] using ht'
    exact h'
  rw [osTimeTick, wp_bind]
  refine ((hpost tickTaskTCB s hown).and (keeps_now_osTaskSemPost (some tickTaskTCB) optPostNone n cfg s)).mono ?_
  rintro _ s₁ ⟨h₁, hn₁⟩
  rw [wp_bind, wp_get, wp_bind]
  refine ((keeps_file_schedRoundRobin s₁.prioCur n cfg s₁).and (keeps_now_schedRoundRobin s₁.prioCur n cfg s₁)).mono ?_
  rintro _ s₂ ⟨h₂, hn₂⟩
  have hnow : s₂.tsNow = s.tsNow := (congrArg Prod.fst (hn₂.trans hn₁) :)
  have hctr : s₂.tmrUpdateCtr = s.tmrUpdateCtr := (congrArg Prod.snd (hn₂.trans hn₁) :)
  have hfile : s₂.file = Function.update s.file tickTaskTCB ((s.file tickTaskTCB).signalled s.tsNow) := h₂.trans h₁
  have hne : tmrTaskTCB ≠ tickTaskTCB := by decide
  have hown₂ : ∀ t, ∀ d ∈ (s₂.file t).table, d.1 = t := by
    intro t
    have htab : (s₂.file t).table = (s.file t).table := by
      rw [hfile, Function.update_apply]
      split
      · rename_i ht
        rw [ht, File.table_signalled]
      · rfl
    rw [htab]
    exact hown t
  rw [wp_bind, wp_modify, wp_bind, wp_get, wp_ite]
  constructor
  · intro h0
    have h0' : s.tmrUpdateCtr - 1 = 0 := by
      rw [← hctr]
      exact h0
    rw [wp_bind, wp_modify, wp_bind]
    refine wp.mono (hpost tmrTaskTCB _ hown₂) fun _ s₃ h₃ => wp_pure.mpr ?_
    intro t
    change s₃.file = Function.update s₂.file tmrTaskTCB ((s₂.file tmrTaskTCB).signalled s₂.tsNow) at h₃
    rw [h₃, hnow, hfile, Function.update_of_ne hne, Function.update_apply, Function.update_apply]
    by_cases ht : t = tmrTaskTCB
    · rw [if_pos ht, if_pos (.inr ⟨ht, h0'⟩), ht]
    · rw [if_neg ht]
      by_cases ht' : t = tickTaskTCB
      · rw [if_pos ht', if_pos (.inl ht'), ht']
      · rw [if_neg ht', if_neg (by simp [ht, ht'])]
  · intro h0
    have h0' : ¬ s.tmrUpdateCtr - 1 = 0 := by
      rw [← hctr]
      exact h0
    refine wp_pure.mpr fun t => ?_
    change s₂.file t = _
    rw [hfile, Function.update_apply]
    by_cases ht : t = tickTaskTCB
    · simp [ht]
    · rw [if_neg ht, if_neg]
      rintro (h | ⟨-, h⟩)
      · exact ht h
      · exact h0' h

theorem osTimeTick_file (hown : ∀ t, ∀ d ∈ (s.file t).table, d.1 = t) :
    wp n cfg osTimeTick (fun _ s' => Filed s .timeTick r s') s := by
  refine (osTimeTick_signals hown).mono fun _ s' h' t => ?_
  rw [h' t]
  split
  · rename_i ht
    exact .inr ⟨ht, rfl⟩
  · exact .inl rfl

theorem File.expired_expired (f : File) (ts : ℕ) : (f.expired ts).expired ts = f.expired ts := by
  cases hs : f.state with
  | rdy | pend | suspended | pendSuspended | del => simp [expired, hs]
  | dly | dlySuspended => simp [expired, TaskState.expired, hs]
  | pendTimeout | pendTimeoutSuspended => simp [expired, hs, woken, TaskState.woken, TaskState.isSuspended]

theorem tickListUpdate_file : wp n cfg tickListUpdate (fun _ s' => Filed s .tickUpdate r s') s := by
  have hloop (p : Option TcbId) {s₁ : OS} (hf : s₁.file = s.file) (hn : s₁.tsNow = s.tsNow) :
      wp n cfg (Prog.loop tickListUpdateStep p) (fun _ s' => Filed s .tickUpdate r s') s₁ := by
    refine wp_loop (fun _ s' => (∀ t, s'.file t = s.file t ∨ s'.file t = (s.file t).expired s.tsNow) ∧
      s'.tsNow = s.tsNow) ?_ ⟨fun t => .inl (congrFun hf t), hn⟩
    rintro p s₁ ⟨h₁, hn₁⟩
    cases p with
    | none => exact wp_pure.mpr h₁
    | some t =>
      rw [tickListUpdateStep, wp_bind, wp_getTcb, wp_bind]
      refine (tickListExpire_file.and (keeps_now_tickListExpire t n cfg s₁)).mono ?_
      rintro x s₂ ⟨h₂, hn₂⟩
      have hI : (∀ t, s₂.file t = s.file t ∨ s₂.file t = (s.file t).expired s.tsNow) ∧ s₂.tsNow = s.tsNow := by
        refine ⟨fun y => ?_, (congrArg Prod.fst hn₂ :).trans hn₁⟩
        rcases h₂ with h₂ | ⟨-, -, h₂⟩
        · rw [h₂]
          exact h₁ y
        · rw [h₂, Function.update_apply]
          split
          · subst y
            rw [hn₁]
            rcases h₁ t with h | h
            · exact .inr (by rw [h])
            · exact .inr (by rw [h, File.expired_expired])
          · exact h₁ y
      rw [wp_ite]
      exact ⟨fun _ => wp_pure.mpr hI.1, fun _ => wp_pure.mpr hI⟩
  rw [tickListUpdate, wp_bind, wp_modify, wp_bind, wp_get, wp_bind, wp_ask, wp_bind, wp_getSpoke]
  exact hloop _ rfl rfl

end ticks

section ends

theorem TaskState.isPend_woken (st : TaskState) : st.woken.isPend = false := by
  rw [woken]
  split <;> rfl

theorem File.isPend_posted (f : File) (o : Option ObjId) (m : Mail) : (f.posted o m).state.isPend = false :=
  TaskState.isPend_woken _

theorem File.isPend_aborted (f : File) (o : Option ObjId) (ts : ℕ) : (f.aborted o ts).state.isPend = false :=
  TaskState.isPend_woken _

def Served (g : File → File) (s s' : OS) : Prop :=
  ∀ t, s'.file t = s.file t ∨ (s.file t).state.isPend = true ∧ s'.file t = g (s.file t)

theorem Served.refl (g : File → File) (s : OS) : Served g s s := fun _ => .inl rfl

theorem Served.next {g : File → File} {s₀ : OS} (hg : ∀ f, (g f).state.isPend = false) (h : Served g s₀ s)
    (h' : s'.file = Function.update s.file t (if (s.file t).state.isPend = true then g (s.file t) else s.file t)) :
    Served g s₀ s' := by
  intro x
  rw [h', Function.update_apply]
  split
  · subst x
    rcases h t with ht | ⟨hp, ht⟩
    · rw [ht]
      split
      · rename_i hp
        exact .inr ⟨hp, rfl⟩
      · exact .inl rfl
    · rw [ht, if_neg (by simp [hg])]
      exact .inr ⟨hp, rfl⟩
  · exact h x

theorem Served.own {g : File → File} (hg : ∀ f, (g f).table = []) (h : Served g s s')
    (hown : ∀ t, ∀ d ∈ (s.file t).table, d.1 = t) : ∀ t, ∀ d ∈ (s'.file t).table, d.1 = t := by
  intro t
  rcases h t with ht | ⟨-, ht⟩
  · rw [ht]
    exact hown t
  · rw [ht, hg]
    simp

theorem postLoop_file {o : ObjId} (hown : ∀ t, ∀ d ∈ (s.file t).table, d.1 = t) (pVoid : Option ℕ) (msgSize ts cnt : ℕ)
    (p : Option PdId) :
    wp n cfg (postLoop o pVoid msgSize ts cnt p) (fun _ s' => Served (File.posted (some o) ⟨pVoid, msgSize, ts⟩) s s') s := by
  suffices h : ∀ s₁, Served (File.posted (some o) ⟨pVoid, msgSize, ts⟩) s s₁ →
      wp n cfg (postLoop o pVoid msgSize ts cnt p) (fun _ s' => Served (File.posted (some o) ⟨pVoid, msgSize, ts⟩) s s') s₁ from
    h s (.refl _ s)
  induction cnt generalizing p with
  | zero => exact fun s₁ h₁ => wp_pure.mpr h₁
  | succ cnt ih =>
    intro s₁ h₁
    rw [postLoop, wp_bind, wp_deref]
    rintro d rfl
    rw [wp_bind, wp_getPendData, wp_bind, wp_deref]
    rintro t -
    rw [wp_bind]
    refine (post_file (h₁.own (fun _ => rfl) hown t) pVoid msgSize ts).mono fun _ s₂ h₂ => ?_
    exact ih _ s₂ (h₁.next (fun f => f.isPend_posted _ _) h₂)

theorem pendAbortLoop_file {o : ObjId} {opt : Opt} (hown : ∀ t, ∀ d ∈ (s.file t).table, d.1 = t) (ts : ℕ) :
    wp n cfg (Prog.loop (pendAbortStep o opt ts) 0) (fun _ s' => Served (File.aborted (some o) ts) s s') s := by
  refine wp_loop (fun _ s' => Served (File.aborted (some o) ts) s s') ?_ (.refl _ s)
  intro k s₁ h₁
  rw [pendAbortStep, wp_bind, wp_getObj, wp_ite]
  refine ⟨fun _ => wp_pure.mpr h₁, fun _ => ?_⟩
  rw [wp_bind, wp_deref]
  rintro d -
  rw [wp_bind, wp_getPendData, wp_bind, wp_deref]
  rintro t -
  rw [wp_bind]
  refine (pendAbort_file (h₁.own (fun _ => rfl) hown t) ts).mono fun _ s₂ h₂ => ?_
  have hs₂ : Served (File.aborted (some o) ts) s s₂ := h₁.next (fun f => f.isPend_aborted _ _) h₂
  rw [wp_ite]
  exact ⟨fun _ => wp_pure.mpr hs₂, fun _ => wp_pure.mpr hs₂⟩

theorem semPost_file {o : ObjId} (hown : ∀ t, ∀ d ∈ (s.file t).table, d.1 = t) (opt : Opt) (ts : ℕ) :
    wp n cfg (semPost o opt ts) (fun _ s' => Served (File.posted (some o) ⟨none, 0, ts⟩) s s') s := by
  rw [semPost, wp_bind, wp_getObj, wp_ite]
  constructor
  · intro _
    rw [wp_ite]
    refine ⟨fun _ => wp_pure.mpr (.refl _ s), fun _ => ?_⟩
    rw [wp_bind, wp_modObj]
    exact wp_pure.mpr fun t => .inl rfl
  · intro _
    rw [wp_bind]
    refine (postLoop_file hown none 0 ts _ _).mono fun _ s₁ h₁ => ?_
    rw [wp_bind, wp_getObj, wp_bind]
    refine (keeps_file_schedOpt opt n cfg s₁).mono fun _ s₂ h₂ => wp_pure.mpr fun t => ?_
    rw [h₂]
    exact h₁ t

theorem qPost_file {o : ObjId} (hown : ∀ t, ∀ d ∈ (s.file t).table, d.1 = t) (pVoid : Option ℕ) (msgSize : ℕ) (opt : Opt)
    (ts : ℕ) :
    wp n cfg (qPost o pVoid msgSize opt ts) (fun _ s' => Served (File.posted (some o) ⟨pVoid, msgSize, ts⟩) s s') s := by
  rw [qPost, wp_bind, wp_getObj, wp_ite]
  constructor
  · intro _
    rw [wp_bind]
    refine ((keeps_noMsgs_msgQPut _ _ _ _ _).comp OS.file n cfg s).mono fun _ s₁ h₁ => ?_
    rw [wp_bind, wp_modObj]
    exact wp_pure.mpr fun t => .inl (congrFun h₁ t)
  · intro _
    rw [wp_bind]
    refine (postLoop_file hown pVoid msgSize ts _ _).mono fun _ s₁ h₁ => ?_
    rw [wp_bind]
    refine (keeps_file_schedOpt opt n cfg s₁).mono fun _ s₂ h₂ => wp_pure.mpr fun t => ?_
    rw [h₂]
    exact h₁ t

theorem objPendAbort_file (hown : ∀ t, ∀ d ∈ (s.file t).table, d.1 = t) (type : ObjType) (p : Option ObjId) (opt : Opt) :
    wp n cfg (objPendAbort type p opt) (fun _ s' => s'.file = s.file ∨
      ∃ o, p = some o ∧ Served (File.aborted (some o) s.tsNow) s s') s := by
  rw [objPendAbort.eq_def, wp_bind, wp_get, wp_ite]
  refine ⟨fun _ => wp_pure.mpr (.inl rfl), fun _ => ?_⟩
  cases p with
  | none => exact wp_pure.mpr (.inl rfl)
  | some o =>
    dsimp only
    rw [wp_ite]
    refine ⟨fun _ => wp_pure.mpr (.inl rfl), fun _ => ?_⟩
    rw [wp_bind, wp_getObj, wp_ite]
    refine ⟨fun _ => wp_pure.mpr (.inl rfl), fun _ => ?_⟩
    rw [wp_bind, wp_getObj, wp_ite]
    refine ⟨fun _ => wp_pure.mpr (.inl rfl), fun _ => ?_⟩
    rw [wp_bind]
    refine (pendAbortLoop_file hown s.tsNow).mono fun _ s₁ h₁ => ?_
    rw [wp_bind]
    refine (keeps_file_schedOpt opt n cfg s₁).mono fun _ s₂ h₂ => wp_pure.mpr (.inr ⟨o, rfl, fun t => ?_⟩)
    rw [h₂]
    exact h₁ t

theorem osMutexPost_file (hown : ∀ t, ∀ d ∈ (s.file t).table, d.1 = t) (p : Option ObjId) (opt : Opt) :
    wp n cfg (osMutexPost p opt) (fun _ s' => s'.file = s.file ∨
      ∃ o, p = some o ∧ Served (File.posted (some o) ⟨none, 0, s.tsNow⟩) s s') s := by
  have hrestore (o : ObjId) (t : TcbId) : Keeps OS.file (mutexRestore o t) := by
    refine keeps_bind (keeps_getObj o) fun b => keeps_bind (keeps_getTcb t) fun _ => keeps_ite ?_ (keeps_pure _)
    exact keeps_bind (keeps_file_rdyChangePrio t _ false) fun _ => keeps_modify fun _ => rfl
  rw [osMutexPost.eq_def, wp_bind, wp_get, wp_ite]
  refine ⟨fun _ => wp_pure.mpr (.inl rfl), fun _ => ?_⟩
  cases p with
  | none => exact wp_pure.mpr (.inl rfl)
  | some o =>
    dsimp only
    rw [wp_ite]
    refine ⟨fun _ => wp_pure.mpr (.inl rfl), fun _ => ?_⟩
    rw [wp_bind, wp_getObj, wp_ite]
    refine ⟨fun _ => wp_pure.mpr (.inl rfl), fun _ => ?_⟩
    rw [wp_bind, wp_getCur]
    intro t _
    rw [wp_ite]
    refine ⟨fun _ => wp_pure.mpr (.inl rfl), fun _ => ?_⟩
    rw [wp_bind]
    refine (keeps_file_modObj o _ n cfg s).mono fun _ s₁ h₁ => ?_
    rw [wp_bind, wp_getObj, wp_ite]
    refine ⟨fun _ => wp_pure.mpr (.inl h₁), fun _ => ?_⟩
    rw [wp_ite]
    constructor
    · intro _
      rw [wp_bind]
      exact (keeps_file_modObj o _ n cfg s₁).mono fun _ s₂ h₂ => wp_pure.mpr (.inl (h₂.trans h₁))
    · intro _
      rw [wp_bind]
      refine (hrestore o t n cfg s₁).mono fun _ s₂ h₂ => ?_
      rw [wp_bind, mutexHandOff, wp_bind, wp_getObj, wp_bind, wp_deref]
      rintro d -
      rw [wp_bind, wp_getPendData, wp_bind, wp_deref]
      rintro w -
      rw [wp_bind, wp_getTcb, wp_bind]
      refine (keeps_file_modObj o _ n cfg s₂).mono fun _ s₃ h₃ => ?_
      have hf₃ : s₃.file = s.file := h₃.trans (h₂.trans h₁)
      refine (post_file (by rw [hf₃]; exact hown w) none 0 s.tsNow).mono fun _ s₄ h₄ => ?_
      rw [hf₃] at h₄
      rw [wp_bind]
      refine (keeps_file_schedOpt opt n cfg s₄).mono fun _ s₅ h₅ => wp_pure.mpr (.inr ⟨o, rfl, ?_⟩)
      exact (Served.refl _ s).next (fun f => f.isPend_posted _ _) (h₅.trans h₄)

end ends

section flags

namespace File

def hit (g : Flags) (f : File) : Option Flags :=
  match flagsReady (f.flagsOpt &&& optPendFlagMask) g f.flagsPend with
  | some (flagsRdy, true) => some flagsRdy
  | _ => none

def flagPosted (g : Flags) (ts : ℕ) (f : File) : File :=
  match f.hit g with
  | some flagsRdy => f.flagged flagsRdy ts
  | none => f

end File

theorem Abs.Sound.hit_mode (hI : a.Sound cfg) (hrep : Rep cfg s a) (hk : (a.task t).pendOn = .flag) (g : Flags) :
    flagsReady ((s.tcb t).flagsOpt &&& optPendFlagMask) g (s.tcb t).flagsPend =
      some (((s.file t).hit g).getD (g &&& (s.tcb t).flagsPend), ((s.file t).hit g).isSome) := by
  have hopt : (s.tcb t).flagsOpt = (a.task t).flagsOpt := by
    rw [hrep.task]
    rfl
  have hsome : ∃ x, flagsReady ((s.tcb t).flagsOpt &&& optPendFlagMask) g (s.tcb t).flagsPend =
    some (g &&& (s.tcb t).flagsPend, x) := by
    rw [hopt]
    rcases hI.wait.mode t hk with hm | hm
    · exact ⟨decide (g &&& (s.tcb t).flagsPend = (s.tcb t).flagsPend), by rw [hm, flagsReady, if_pos rfl]⟩
    · refine ⟨decide (g &&& (s.tcb t).flagsPend ≠ 0), ?_⟩
      rw [hm, flagsReady, if_neg (by decide), if_pos rfl]
  obtain ⟨x, hx⟩ := hsome
  have hhit : (s.file t).hit g = if x = true then some (g &&& (s.tcb t).flagsPend) else none := by
    rw [File.hit]
    change (match flagsReady ((s.tcb t).flagsOpt &&& optPendFlagMask) g (s.tcb t).flagsPend with
      | some (flagsRdy, true) => some flagsRdy
      | _ => none) = _
    rw [hx]
    cases x <;> rfl
  rw [hx, hhit]
  cases x <;> rfl

theorem Abs.Sound.flag_nodup (hI : a.Sound cfg) {o : ObjId} (ho : (a.obj o).type = .flag) (hnd : (a.waiting o).Nodup) :
    ((a.waiting o).map Prod.fst).Nodup := by
  refine (List.nodup_map_iff_inj_on hnd).mpr fun d hd d' hd' h => ?_
  rw [(hI.flag_wait ho hd).2.2.1, (hI.flag_wait ho hd').2.2.1, h]

/-- The walk of a flag post over the list of `o`: it has been at `done`, and woken the tasks that the flags `g` hit. -/
structure FlagWalk (cfg : Cfg) (s₀ : OS) (a : Abs) (o : ObjId) (g : Flags) (ts : ℕ) (done rest : List PdId) (s : OS)
    (b : Abs) : Prop where
  rep : Rep cfg s b
  sound : b.Sound cfg
  frame : b.frame = a.frame
  type : (b.obj o).type = .flag
  nodup : ((done ++ rest).map Prod.fst).Nodup
  waiting : b.waiting o = (done.filter fun d => ((s₀.file d.1).hit g).isNone) ++ rest
  file : ∀ t, s.file t = if t ∈ done.map Prod.fst then (s₀.file t).flagPosted g ts else s₀.file t
  flags : (s.obj o).flags = g

section FlagWalk

variable {s₀ : OS} {b : Abs} {o : ObjId} {g : Flags} {ts : ℕ} {done rest : List PdId}

theorem FlagWalk.start (h : Rep cfg s a) (hI : a.Sound cfg) (ho : (a.obj o).type = .flag) (hg : (s.obj o).flags = g) :
    FlagWalk cfg s a o g ts [] (a.waiting o) s a where
  rep := h
  sound := hI
  frame := rfl
  type := ho
  nodup := hI.flag_nodup ho (h.pend.list o).dlist.nodup
  waiting := rfl
  file t := by simp
  flags := hg

theorem FlagWalk.file_cur (h : FlagWalk cfg s₀ a o g ts done (d :: rest) s b) : s.file d.1 = s₀.file d.1 := by
  have hnd := h.nodup
  rw [List.map_append, List.nodup_append] at hnd
  rw [h.file, if_neg]
  intro hmem
  exact hnd.2.2 d.1 hmem d.1 (by simp) rfl

theorem FlagWalk.mem (h : FlagWalk cfg s₀ a o g ts done (d :: rest) s b) : d ∈ b.waiting o := by
  rw [h.waiting]
  simp

theorem FlagWalk.next {b' : Abs} (h : FlagWalk cfg s₀ a o g ts done (d :: rest) s b) (h' : Rep cfg s' b') (hI' : b'.Sound cfg)
    (hframe : b'.frame = b.frame)
    (hw : b'.waiting o = if ((s₀.file d.1).hit g).isNone then b.waiting o else (b.waiting o).erase d)
    (hf : s'.file = Function.update s.file d.1 ((s₀.file d.1).flagPosted g ts)) (hg : (s'.obj o).flags = g) :
    FlagWalk cfg s₀ a o g ts (done ++ [d]) rest s' b' := by
  have ho : (b'.obj o).type = .flag := ((congrArg (fun x : Abs => (x.obj o).type) hframe :)).trans h.type
  refine ⟨h', hI', hframe.trans h.frame, ho, by simpa using h.nodup, ?_, fun t => ?_, hg⟩
  · rw [hw, List.filter_append, h.waiting]
    split
    · rename_i hn
      simp [hn]
    · rename_i hn
      have hnd := (h.rep.pend.list o).dlist.nodup
      rw [h.waiting, List.nodup_append] at hnd
      rw [List.erase_append_right _ fun hmem => hnd.2.2 d hmem d List.mem_cons_self rfl]
      simp [hn]
  · rw [hf, Function.update_apply]
    by_cases ht : t = d.1
    · subst ht
      simp
    · rw [if_neg ht, h.file]
      refine if_congr ?_ rfl rfl
      rw [List.map_append, List.mem_append, List.map_singleton, List.mem_singleton]
      exact (or_iff_left ht).symm

theorem FlagWalk.step (h : FlagWalk cfg s₀ a o g ts done (d :: rest) s b) :
    wp n cfg (flagPostStep o ts (some d)) (fun x s' => x = .inl rest.head? ∧
      ∃ b', FlagWalk cfg s₀ a o g ts (done ++ [d]) rest s' b' ∧ (b' = b ∨ b' = b.flagWake d.1)) s := by
  obtain ⟨hk, hp, hd, -⟩ := h.sound.flag_wait h.type h.mem
  have hnext : (s.pendData d).nextPtr = rest.head? := ((h.rep.pend.list o).dlist.links _ d rest h.waiting).1
  rw [flagPostStep, wp_bind, wp_getPendData, h.rep.tcbPtr h.sound h.mem]
  dsimp only
  rw [wp_bind, wp_getTcb, wp_bind, wp_getObj, h.flags, h.sound.hit_mode h.rep hk, h.file_cur, hnext]
  cases hh : (s₀.file d.1).hit g with
  | none =>
    refine wp_pure.mpr ⟨rfl, b, h.next h.rep h.sound rfl (by simp [hh]) ?_ h.flags, .inl rfl⟩
    rw [File.flagPosted, hh, ← h.file_cur]
    exact (Function.update_eq_self d.1 s.file).symm
  | some flagsRdy =>
    have hp' : (s.file d.1).state.isPend = true := by
      rw [show (s.file d.1).state = (b.task d.1).state from h.rep.state d.1]
      exact hp
    rw [Option.getD, Option.isSome, wp_bind]
    refine (((flagTaskRdy_spec h.rep h.sound hp flagsRdy ts).and (flagTaskRdy_file hp' flagsRdy ts)).and
      (keeps_flagData_flagTaskRdy d.1 flagsRdy ts n cfg s)).mono ?_
    rintro _ s' ⟨⟨h', hf⟩, hdata⟩
    have hflags : (s'.obj o).flags = (s.obj o).flags := (congrArg (fun x : (TcbId → Flags) × (ObjId → Flags) => x.2 o) hdata :)
    refine wp_pure.mpr ⟨rfl, b.flagWake d.1, h.next h' (h.sound.flagWake d.1) (Abs.frame_flagWake d.1) ?_ ?_
      (hflags.trans h.flags), .inr rfl⟩
    · rw [hh, if_neg (by simp), b.waiting_flagWake d.1 hp, List.Nodup.erase_eq_filter (h.rep.pend.list o).dlist.nodup]
      apply List.filter_congr
      intro x hx
      have hmem : x ∈ (b.task d.1).table ↔ x = d := by
        constructor
        · intro hx'
          rw [h.sound.wait.single d.1 (by simp [hk]) x hx', hd]
        · rintro rfl
          exact ((h.sound.wait.mem_iff o x).mp h.mem).1
      rw [Bool.eq_iff_iff]
      simp [hmem]
    · rw [hf, h.file_cur, File.flagPosted, hh]

theorem flagPostLoop_walk (h : FlagWalk cfg s₀ a o g ts done rest s b) :
    wp n cfg (Prog.loop (flagPostStep o ts) rest.head?) (fun bad s' => bad = false ∧
      ∃ b', FlagWalk cfg s₀ a o g ts (done ++ rest) [] s' b') s := by
  refine wp_loop (fun p s' => ∃ done' rest' b', done' ++ rest' = done ++ rest ∧ p = rest'.head? ∧
    FlagWalk cfg s₀ a o g ts done' rest' s' b') ?_ ⟨done, rest, b, rfl, rfl, h⟩
  rintro _ s' ⟨done', rest', b', heq, rfl, h'⟩
  cases rest' with
  | nil =>
    rw [List.append_nil] at heq
    subst heq
    exact wp_pure.mpr ⟨rfl, b', h'⟩
  | cons d rest' =>
    refine h'.step.mono ?_
    rintro _ s'' ⟨rfl, b'', h'', -⟩
    exact ⟨_, _, b'', by simpa using heq, rfl, h''⟩

end FlagWalk

end flags

end UcosIII
