import UcosIII.Abstract.Sound
import UcosIII.Kernel.Semaphore
import UcosIII.Kernel.Mutex
import UcosIII.Kernel.Flag
import UcosIII.Kernel.PendMulti
import UcosIII.Kernel.Time

namespace UcosIII

open Prog

variable {n : ℕ} {cfg : Cfg} {s s' : OS} {a : Abs} {t t' : TcbId} {d : PdId} {o : Option ObjId}

section quiet

variable {γ : Type}

theorem OS.key_modTcb_of {f : TCB → TCB} (hf : (f (s.tcb t)).key = (s.tcb t).key) : (s.modTcb t f).key = s.key := by
  simp only [key, modTcb, OS.mk.injEq, and_true]
  funext x
  by_cases hx : x = t
  · subst hx
    simpa using hf
  · simp [hx]

@[grind ←] theorem OS.key_modTcb {f : TCB → TCB} (hf : ∀ c, (f c).key = c.key) : (s.modTcb t f).key = s.key :=
  key_modTcb_of (hf _)

@[grind ←] theorem OS.key_modObj {o : ObjId} {f : Obj → Obj} (hf : ∀ b, (f b).key = b.key) :
    (s.modObj o f).key = s.key := by
  simp only [key, modObj, OS.mk.injEq, and_true, true_and]
  funext x
  by_cases hx : x = o
  · subst hx
    simpa using hf (s.obj x)
  · simp [hx]

@[grind ←] theorem OS.key_modPendData {f : PendData → PendData} (hf : ∀ e, (f e).key = e.key) :
    (s.modPendData d f).key = s.key := by
  simp only [key, modPendData, OS.mk.injEq, and_true, true_and]
  funext x
  by_cases hx : x = d
  · subst hx
    simpa using hf (s.pendData x)
  · simp [hx]

@[grind ←] theorem keeps_modMsg (m : MsgId) (f : Msg → Msg) : Keeps OS.key (modMsg m f) := keeps_modify fun _ => rfl

@[grind ←] theorem keeps_modMsgPool (f : MsgPool → MsgPool) : Keeps OS.key (modMsgPool f) := keeps_modify fun _ => rfl

@[grind ←] theorem keeps_getMsgPool {v : OS → γ} : Keeps v getMsgPool := by grind [getMsgPool]

@[grind ←] theorem keeps_msgQFreeAll (q : MsgQ) : Keeps OS.key (msgQFreeAll q) := by grind [msgQFreeAll]

@[grind ←] theorem keeps_msgQGet (q : MsgQ) : Keeps OS.key (msgQGet q) := by grind [msgQGet]

@[grind ←] theorem keeps_msgQPut (q : MsgQ) (pVoid : Option ℕ) (msgSize : ℕ) (opt : Opt) (ts : ℕ) :
    Keeps OS.key (msgQPut q pVoid msgSize opt ts) := by
  rw [msgQPut]
  refine keeps_ite (keeps_pure _) (keeps_bind keeps_getMsgPool fun _ => keeps_ite (keeps_pure _) ?_)
  refine keeps_bind keeps_getMsgPool fun pool => keeps_bind (keeps_deref _) fun m => keeps_bind (keeps_getMsg m) fun g => ?_
  refine keeps_bind (keeps_modMsgPool _) fun _ => keeps_ite ?_ (keeps_ite ?_ ?_)
  all_goals grind

theorem keeps_markEntry {f : PendData → PendData} (hf : ∀ e, (f e).key = e.key) (k : ℕ) (d : PdId) :
    Keeps OS.key (markEntry o f k d) := by
  induction k generalizing d with
  | zero => exact keeps_pure ()
  | succ k ih =>
    intro n cfg s
    simp only [markEntry, wp_bind, wp_getPendData, wp_ite, wp_modPendData]
    exact ⟨fun _ => OS.key_modPendData hf, fun _ => ih _ n cfg s⟩

@[grind ←] theorem keeps_post1 (t : TcbId) (pVoid : Option ℕ) (msgSize ts : ℕ) :
    Keeps OS.key (post1 o t pVoid msgSize ts) := by
  have hmark := fun k d => keeps_markEntry (o := o)
    (f := fun e => { e with rdyObjPtr := o, rdyMsgPtr := pVoid, rdyMsgSize := msgSize, rdyTS := ts }) (fun _ => rfl) k d
  grind [post1]

@[grind ←] theorem keeps_pendAbort1 (t : TcbId) (ts : ℕ) : Keeps OS.key (pendAbort1 o t ts) := by
  have hmark := fun k d => keeps_markEntry (o := o) (f := fun e => { e with rdyObjPtr := o, rdyTS := ts }) (fun _ => rfl) k d
  grind [pendAbort1]

theorem keeps_key_modTcb {f : TCB → TCB} (hf : ∀ c, (f c).key = c.key) : Keeps OS.key (modTcb t f) :=
  keeps_modify fun _ => OS.key_modTcb hf

variable {α β : Type} {m m' : K β} {k : β → K α} {Q : α → OS → Prop} {c : Prop} [Decidable c]

theorem quiet_then (h : Rep cfg s a) (hm : Keeps OS.key m) (hk : ∀ b s', Rep cfg s' a → wp n cfg (k b) Q s') :
    wp n cfg (m >>= k) Q s := by
  rw [wp_bind]
  exact (hm n cfg s).mono fun b s' e => hk b s' (h.of_key e)

theorem quiet_ite (h : Rep cfg s a) (hm : Keeps OS.key m) (hm' : Keeps OS.key m')
    (hk : ∀ b s', Rep cfg s' a → wp n cfg (k b) Q s') : wp n cfg (if c then m >>= k else m' >>= k) Q s := by
  rw [wp_ite]
  exact ⟨fun _ => quiet_then h hm hk, fun _ => quiet_then h hm' hk⟩

end quiet

theorem tickListRemove_spec (h : Rep cfg s a) : wp n cfg (tickListRemove t) (fun _ s' => Rep cfg s' (a.offWheel t)) s := by
  have hw : wp n cfg (tickListRemove t)
      (fun _ s' => a.wheelOk = true → WheelRep cfg s' (Function.update a.onWheel t false)) s := by
    by_cases hok : a.wheelOk = true
    · exact (tickListRemove_wheel (h.wheel hok)).mono fun _ _ h' _ => h'
    · exact fun _ _ _ h' => absurd h' hok
  refine ((keeps_tickListRemove t n cfg s).and hw).mono ?_
  rintro _ s' ⟨e, hw'⟩
  exact h.of_noTick e hw'

theorem tickListInsert_spec (h : Rep cfg s a) (time : Tick) (opt : Opt) :
    wp n cfg (tickListInsert t time opt) (fun e s' =>
      (e = .none ∧ Rep cfg s' (a.toWheel t) ∨ e ≠ .none ∧ Rep cfg s' (a.resetWheel t)) ∧
        (e = .none ↔ tickMatch (s.tcb t) s.tickCtr time opt ≠ none)) s := by
  have hw : wp n cfg (tickListInsert t time opt) (fun e s' => (a.wheelOk && !a.onWheel t) = true →
      (e = .none ∧ WheelRep cfg s' (Function.update a.onWheel t true) ∨ e ≠ .none ∧ WheelRep cfg s' a.onWheel)) s := by
    by_cases hok : a.wheelOk = true ∧ a.onWheel t = false
    · exact (tickListInsert_wheel (h.wheel hok.1) hok.2 time opt).mono fun _ _ h' _ => h'
    · exact fun _ _ _ h' => absurd (by simpa using h') hok
  refine (((keeps_tickListInsert t time opt n cfg s).and hw).and (tickListInsert_err time opt)).mono ?_
  rintro e s' ⟨⟨hs, hw'⟩, herr⟩
  refine ⟨?_, herr⟩
  by_cases he : e = .none
  · refine .inl ⟨he, h.of_noTick hs fun hok => ?_⟩
    exact ((hw' hok).resolve_right fun h' => h'.1 he).2
  · refine .inr ⟨he, h.of_noTick hs fun hok => ?_⟩
    exact ((hw' hok).resolve_left fun h' => he h'.1).2

theorem taskRdy_spec (h : Rep cfg s a) (ht : ∀ q, t ∉ a.ready q) :
    wp n cfg (taskRdy t) (fun _ s' => Rep cfg s'
      (if (a.task t).state.isSuspended = false then (a.enqueue t).offWheel t else a.offWheel t)) s := by
  rw [taskRdy, wp_bind]
  refine (tickListRemove_spec h).mono fun _ s₁ h₁ => ?_
  rw [wp_bind, wp_getTcb, h₁.state]
  change wp n cfg (if (a.task t).state.isSuspended = false then _ else _) _ _
  split
  · exact rdyListInsert_spec h₁ ht
  · rwa [wp_pure]

section wake

variable {st : PendStatus}

theorem unlink_then {Q : Unit → OS → Prop} {k : K Unit} (h : Rep cfg s a) (hI : a.WaitOk)
    (ho : o = none → (a.task t).table = []) (hQ : ∀ s', Rep cfg s' (a.unpend t) → wp n cfg k Q s') :
    wp n cfg (if o ≠ none then do pendListRemove t; k else k) Q s := by
  rw [wp_ite, wp_bind]
  constructor
  · intro _
    exact (pendListRemove_spec h hI.linked).mono fun _ s' h' => hQ s' h'
  · intro hn
    refine hQ s ?_
    rwa [Abs.unpend_of_nil (ho (not_not.mp hn))]

def TCB.woken (state : TaskState) (st : PendStatus) (c : TCB) : TCB :=
  { c with taskState := state, pendStatus := st, pendOn := .nothing }

theorem wakeRdy_spec (st : PendStatus) (h : Rep cfg s (a.unpend t)) (hI : a.Sound cfg)
    (hp : (a.task t).state.isPend = true) (hs : (a.task t).state.isSuspended = false) :
    wp n cfg (do taskRdy t; modTcb t (TCB.woken .rdy st)) (fun _ s' => Rep cfg s' (a.wake t st)) s := by
  have hrdy : (a.task t).state ≠ .rdy := by grind
  rw [wp_bind]
  refine (taskRdy_spec h (hI.ready.not_mem hrdy)).mono fun _ s' h' => ?_
  have hs' : ((a.unpend t).task t).state.isSuspended = false := by simpa [Abs.task_unpend] using hs
  rw [if_pos hs'] at h'
  rw [wp_modTcb, Abs.wake, if_neg (by simp [hp]), if_pos hs]
  have h'' := h'.modTcb (t := t) (f := TCB.woken .rdy st)
    (g := fun c => { c with state := .rdy, pendStatus := st, pendOn := .nothing }) rfl rfl
  exact h''

theorem wakeSuspended_spec (st : PendStatus) (h : Rep cfg s ((a.unpend t).offWheel t)) (hp : (a.task t).state.isPend = true)
    (hs : (a.task t).state.isSuspended = true) :
    wp n cfg (modTcb t (TCB.woken .suspended st)) (fun _ s' => Rep cfg s' (a.wake t st)) s := by
  rw [wp_modTcb, Abs.wake, if_neg (by simp [hp]), if_neg (by simp [hs])]
  have h' := h.modTcb (t := t) (f := TCB.woken .suspended st)
    (g := fun c => { c with state := .suspended, pendStatus := st, pendOn := .nothing }) rfl rfl
  exact h'

theorem post_spec (h : Rep cfg s a) (hI : a.Sound cfg) (ho : o = none → (a.task t).table = []) (pVoid : Option ℕ)
    (msgSize ts : ℕ) : wp n cfg (post o t pVoid msgSize ts) (fun _ s' => Rep cfg s' (a.wake t .ok)) s := by
  rw [post, wp_bind, wp_getTcb, h.state]
  cases hs : (a.task t).state with
  | rdy | dly | suspended | dlySuspended | del => simpa [Abs.wake, hs, TaskState.isPend] using h
  | pend | pendTimeout =>
    refine quiet_ite h (keeps_post1 t pVoid msgSize ts) (keeps_key_modTcb fun _ => rfl) fun _ s₁ h₁ => ?_
    refine unlink_then h₁ hI.wait ho fun s₂ h₂ => ?_
    exact wakeRdy_spec .ok h₂ hI (by simp [hs, TaskState.isPend]) (by simp [hs, TaskState.isSuspended])
  | pendSuspended | pendTimeoutSuspended =>
    refine quiet_ite h (keeps_post1 t pVoid msgSize ts) (keeps_key_modTcb fun _ => rfl) fun _ s₁ h₁ => ?_
    rw [wp_bind]
    refine (tickListRemove_spec h₁).mono fun _ s₂ h₂ => ?_
    refine unlink_then h₂ hI.offWheel.wait ho fun s₃ h₃ => ?_
    exact wakeSuspended_spec .ok h₃ (by simp [hs, TaskState.isPend]) (by simp [hs, TaskState.isSuspended])

theorem pendAbort_spec (h : Rep cfg s a) (hI : a.Sound cfg) (ho : o = none → (a.task t).table = []) (ts : ℕ) :
    wp n cfg (pendAbort o t ts) (fun _ s' => Rep cfg s' (a.wake t .abort)) s := by
  rw [pendAbort, wp_bind, wp_getTcb, h.state]
  cases hs : (a.task t).state with
  | rdy | dly | suspended | dlySuspended | del => simpa [Abs.wake, hs, TaskState.isPend] using h
  | pend | pendTimeout =>
    refine quiet_ite h (keeps_pendAbort1 t ts) (keeps_pure ()) fun _ s₁ h₁ => ?_
    refine quiet_then h₁ (keeps_key_modTcb fun _ => rfl) fun _ s₂ h₂ => ?_
    refine unlink_then h₂ hI.wait ho fun s₃ h₃ => ?_
    exact wakeRdy_spec .abort h₃ hI (by simp [hs, TaskState.isPend]) (by simp [hs, TaskState.isSuspended])
  | pendSuspended | pendTimeoutSuspended =>
    refine quiet_ite h (keeps_pendAbort1 t ts) (keeps_pure ()) fun _ s₁ h₁ => ?_
    refine quiet_then h₁ (keeps_key_modTcb fun _ => rfl) fun _ s₂ h₂ => ?_
    refine unlink_then h₂ hI.wait ho fun s₃ h₃ => ?_
    rw [wp_bind]
    refine (tickListRemove_spec h₃).mono fun _ s₄ h₄ => ?_
    exact wakeSuspended_spec .abort h₄ (by simp [hs, TaskState.isPend]) (by simp [hs, TaskState.isSuspended])

theorem flagTaskRdy_spec (h : Rep cfg s a) (hI : a.Sound cfg) (hp : (a.task t).state.isPend = true) (flagsRdy : Flags)
    (ts : ℕ) : wp n cfg (flagTaskRdy t flagsRdy ts) (fun _ s' => Rep cfg s' (a.flagWake t)) s := by
  have hrdy : (a.task t).state ≠ .rdy := by grind
  rw [flagTaskRdy, wp_bind, wp_modTcb]
  have h₁ : Rep cfg (s.modTcb t fun c => { c with flagsRdy := flagsRdy, pendStatus := .ok, pendOn := .nothing, ts := ts })
      (a.modTask t fun c => { c with pendStatus := .ok, pendOn := .nothing }) := h.modTcb rfl rfl
  generalize s.modTcb t _ = s₁ at h₁
  have hst : (s₁.tcb t).taskState = (a.task t).state := by rw [h₁.state, Abs.task_modTask, if_pos rfl]
  rw [wp_bind, wp_getTcb, hst]
  cases hs : (a.task t).state with
  | rdy | dly | suspended | dlySuspended | del => simp [hs, TaskState.isPend] at hp
  | pend | pendTimeout =>
    rw [wp_bind]
    refine (taskRdy_spec h₁ (hI.ready.not_mem hrdy)).mono fun _ s₂ h₂ => ?_
    rw [if_pos (by simp [Abs.task_modTask, hs, TaskState.isSuspended])] at h₂
    rw [wp_bind, wp_modTcb]
    have h₃ : Rep cfg (s₂.modTcb t fun c => { c with taskState := .rdy })
        ((((a.modTask t fun c => { c with pendStatus := .ok, pendOn := .nothing }).enqueue t).offWheel t).modTask t
          fun c => { c with state := .rdy }) := h₂.modTcb rfl rfl
    refine (pendListRemove_spec h₃ ?_).mono fun _ s₄ h₄ => ?_
    · intro d hd
      refine hI.wait.linked (t := t) d ?_
      simpa [Abs.task_modTask, Abs.enqueue, Abs.task_setReady, Abs.offWheel] using hd
    · convert h₄ using 1
      simp [Abs.flagWake, Abs.wake, hs, TaskState.isPend, TaskState.isSuspended, Abs.unpend, Abs.enqueue, Abs.modTask,
        Abs.setReady, Abs.offWheel]
  | pendSuspended | pendTimeoutSuspended =>
    rw [wp_bind, wp_modTcb]
    have h₃ : Rep cfg (s₁.modTcb t fun c => { c with taskState := .suspended })
        ((a.modTask t fun c => { c with pendStatus := .ok, pendOn := .nothing }).modTask t
          fun c => { c with state := .suspended }) := h₁.modTcb rfl rfl
    refine (pendListRemove_spec h₃ ?_).mono fun _ s₄ h₄ => ?_
    · intro d hd
      exact hI.wait.linked (t := t) d (by simpa [Abs.task_modTask] using hd)
    · convert h₄ using 1
      simp [Abs.flagWake, hs, TaskState.isPend, TaskState.isSuspended, Abs.unpend, Abs.modTask]

theorem tickListExpire_spec (h : Rep cfg s a) (hI : a.Sound cfg) :
    wp n cfg (tickListExpire t) (fun _ s' => Rep cfg s' a ∨ Rep cfg s' (a.expire t)) s := by
  have hremain : ∀ now, Rep cfg (s.modTcb t fun c => { c with tickRemain := c.tickCtrMatch - now }) a := by
    intro now
    have e : (s.modTcb t fun c => { c with tickRemain := c.tickCtrMatch - now }).noTick = s.noTick :=
      OS.noTick_modTcb fun _ => rfl
    exact h.congr (congrArg OS.key e :) (.modTcb rfl rfl rfl rfl)
  rw [tickListExpire, wp_bind, wp_get, wp_bind, wp_getTcb, h.state]
  cases hs : (a.task t).state with
  | rdy | pend | suspended | pendSuspended | del => simpa using .inl h
  | dly =>
    simp only [wp_bind, wp_modTcb, wp_ite, wp_pure]
    refine ⟨fun _ => ?_, fun _ => .inl (hremain _)⟩
    refine (taskRdy_spec ((hremain _).modTcb (g := fun c => { c with state := .rdy }) rfl rfl) ?_).mono ?_
    · exact hI.ready.not_mem (by simp [hs])
    · intro _ s' h'
      rw [if_pos (by simp [Abs.task_modTask, TaskState.isSuspended])] at h'
      rw [wp_pure, Abs.expire, hs]
      exact .inr h'
  | dlySuspended =>
    simp only [wp_bind, wp_modTcb, wp_ite, wp_pure]
    refine ⟨fun _ => ?_, fun _ => .inl (hremain _)⟩
    refine (tickListRemove_spec ((hremain _).modTcb (g := fun c => { c with state := .suspended }) rfl rfl)).mono ?_
    intro _ s' h'
    rw [wp_pure, Abs.expire, hs]
    exact .inr h'
  | pendTimeout =>
    simp only [wp_bind, wp_modTcb, wp_ite, wp_pure, wp_tsGet]
    refine ⟨fun _ => ?_, fun _ => .inl (hremain _)⟩
    refine (pendListRemove_spec ((hremain s.tickCtr).of_key ?_) hI.wait.linked).mono fun _ s₁ h₁ => ?_
    · exact OS.key_modTcb fun _ => rfl
    have hwake := wakeRdy_spec (n := n) .timeout h₁ hI (by simp [hs, TaskState.isPend]) (by simp [hs, TaskState.isSuspended])
    rw [wp_bind] at hwake ⊢
    refine hwake.mono fun _ s₂ h₂ => ?_
    rw [wp_bind, wp_modTcb, wp_pure, Abs.expire, hs]
    exact .inr (wp_modTcb.mp h₂)
  | pendTimeoutSuspended =>
    simp only [wp_bind, wp_modTcb, wp_ite, wp_pure, wp_tsGet]
    refine ⟨fun _ => ?_, fun _ => .inl (hremain _)⟩
    refine (pendListRemove_spec ((hremain s.tickCtr).of_key ?_) hI.wait.linked).mono fun _ s₁ h₁ => ?_
    · exact OS.key_modTcb fun _ => rfl
    rw [wp_bind]
    refine (tickListRemove_spec h₁).mono fun _ s₂ h₂ => ?_
    have hwake := wakeSuspended_spec (n := n) .timeout h₂ (by simp [hs, TaskState.isPend])
      (by simp [hs, TaskState.isSuspended])
    rw [wp_bind, wp_modTcb, wp_pure, Abs.expire, hs]
    exact .inr (wp_modTcb.mp hwake)

end wake

end UcosIII
