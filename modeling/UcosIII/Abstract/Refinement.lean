import UcosIII.Abstract.ObjectCalls

/-!
Every event of the kernel refines a step on abstract states, and so every run of the kernel is one of
abstract states. What holds of the abstract states of a run is proved by induction over it.
-/

namespace UcosIII

open Prog

variable {n : ℕ} {cfg : Cfg} {s s' : OS} {a a' : Abs} {e : Event} {r : Option Ret}

section finish

variable {γ : Type} {v : OS → γ}

theorem keeps_semPendFinish (o : ObjId) : Keeps v (semPendFinish o) := by
  refine keeps_bind keeps_getCur fun t => keeps_bind (keeps_getTcb t) fun c => keeps_bind (keeps_getObj o) fun _ => ?_
  cases c.pendStatus <;> exact keeps_pure _

theorem keeps_qPendFinish : Keeps v qPendFinish := by
  refine keeps_bind keeps_getCur fun t => keeps_bind (keeps_getTcb t) fun c => ?_
  cases c.pendStatus <;> exact keeps_pure _

theorem keeps_taskSemPendFinish : Keeps v taskSemPendFinish := by
  refine keeps_bind keeps_getCur fun t => keeps_bind (keeps_getTcb t) fun c => ?_
  cases c.pendStatus <;> exact keeps_pure _

theorem keeps_taskQPendFinish : Keeps v taskQPendFinish := by
  refine keeps_bind keeps_getCur fun t => keeps_bind (keeps_getTcb t) fun c => ?_
  cases c.pendStatus <;> exact keeps_pure _

theorem keeps_flagPostFinish (o : ObjId) : Keeps v (flagPostFinish o) :=
  keeps_bind (keeps_getObj o) fun _ => keeps_pure _

theorem keeps_flagPendFinish (o : ObjId) (mode : Opt) (consume : Bool) : Keeps OS.key (flagPendFinish o mode consume) := by
  refine keeps_bind keeps_getCur fun t => keeps_bind (keeps_getTcb t) fun c => ?_
  cases c.pendStatus with
  | abort | timeout | del => exact keeps_pure _
  | ok =>
    refine keeps_ite (keeps_pure _) (keeps_ite ?_ (keeps_pure _))
    exact keeps_bind (keeps_key_modObj fun _ => rfl) fun _ => keeps_pure _

theorem quietFinish_sim {t : TcbId} {m : K (Option Ret)} (hcur : a.cur = some t)
    (hk : ∀ o, a.cont t ≠ .mutexPend o) (h : Rep cfg s' (a.setCont t .none)) (hm : Keeps OS.key m) :
    wp n cfg m (Sim cfg s a .finish) s' :=
  (hm n cfg s').mono fun _ _ e => ⟨_, h.of_key e, .finish hcur hk .refl⟩

theorem finish_sim (H : Ready cfg s a) (hrun : a.running = true) : wp n cfg Event.finish.exec (Sim cfg s a .finish) s := by
  rw [Event.exec, UcosIII.finish, wp_bind, wp_getCur, ← H.rep.cur]
  intro t hcur
  have hcont : s.cont t = a.cont t := congrFun H.rep.cont.symm t
  rw [wp_bind, wp_get, wp_bind, wp_modify]
  have h₁ := H.rep.setCont t .none
  generalize ({ s with cont := Function.update s.cont t .none } : OS) = s₁ at h₁
  rw [hcont]
  have hcur₁ : s₁.tcbCurPtr = some t := h₁.cur.symm.trans hcur
  cases hk : a.cont t with
  | none => exact quietFinish_sim hcur (by simp [hk]) h₁ (keeps_pure _)
  | semPend o => exact quietFinish_sim hcur (by simp [hk]) h₁ (keeps_always (keeps_semPendFinish o))
  | qPend => exact quietFinish_sim hcur (by simp [hk]) h₁ (keeps_always keeps_qPendFinish)
  | flagPend o mode consume =>
    exact quietFinish_sim hcur (by simp [hk]) h₁ (keeps_always (keeps_flagPendFinish o mode consume))
  | flagPost o => exact quietFinish_sim hcur (by simp [hk]) h₁ (keeps_always (keeps_flagPostFinish o))
  | taskSemPend => exact quietFinish_sim hcur (by simp [hk]) h₁ (keeps_always keeps_taskSemPendFinish)
  | taskQPend => exact quietFinish_sim hcur (by simp [hk]) h₁ (keeps_always keeps_taskQPendFinish)
  | mutexPend o =>
    have hst : (s₁.tcb t).pendStatus = (a.task t).pendStatus := (congrArg Task.pendStatus (h₁.task t)).symm
    rw [Cont.run, wp_always, mutexPendFinish, wp_bind, wp_getCur, hcur₁]
    rintro _ ⟨⟩
    rw [wp_bind, wp_getTcb, hst]
    cases hp : (a.task t).pendStatus <;> exact wp_pure.mpr ⟨_, h₁, .mutexReturn hcur hk (by rw [hp]; rfl)⟩
  | multiPend =>
    have hnp : (a.task t).state.isPend = false := by
      obtain ⟨c, hc, hs⟩ := H.cur.runs hrun
      rw [hcur] at hc
      cases hc
      rcases hs with hs | ⟨hs, -⟩ <;> rw [hs] <;> rfl
    rw [Cont.run, wp_always, multiPendFinish, wp_bind, wp_getCur, hcur₁]
    rintro _ ⟨⟩
    rw [wp_bind, wp_getTcb, wp_bind, wp_modTcb]
    have h₂ : Rep cfg (s₁.modTcb t fun c => { c with pendStatus := .ok })
        ((a.setCont t .none).modTask t fun c => { c with pendStatus := .ok }) := h₁.modTcb rfl rfl
    have hcont : (a.setCont t .none).cont t = .none := Function.update_self ..
    have hend : ∀ r, Sim cfg s a .finish (some r) (s₁.modTcb t fun c => { c with pendStatus := .ok }) := fun r =>
      ⟨_, h₂, .finish hcur (by simp [hk]) (.one (x := .pendStatus t .ok) trivial ⟨hnp, hcont⟩ H.rep.nodup)⟩
    cases (s₁.tcb t).pendStatus <;> exact wp_pure.mpr (hend _)

end finish

section events

theorem keeps_osFlagPendGetFlagsRdy {γ : Type} {v : OS → γ} : Keeps v osFlagPendGetFlagsRdy := by
  refine keeps_bind keeps_get fun _ => keeps_ite (keeps_pure _) (keeps_bind keeps_getCur fun t => ?_)
  exact keeps_bind (keeps_getTcb t) fun _ => keeps_pure _

theorem keeps_osSchedRoundRobinCfg (en : Bool) (dfltTimeQuanta : Tick) :
    Keeps OS.key (osSchedRoundRobinCfg en dfltTimeQuanta) :=
  keeps_bind keeps_ask fun _ => keeps_bind (keeps_modify fun _ => rfl) fun _ => keeps_pure _

theorem Call.exec_sim (H : Ready cfg s a) {c : Call} (he : Enabled s (.call c)) :
    wp n cfg c.exec (Sim cfg s a (.call c)) s := by
  obtain ⟨hfair, hwho⟩ := he
  have hrun : c.setsUp = false → a.running = true := by
    intro hc
    rw [H.rep.running]
    rcases hwho with h | h | h
    · exact h.1
    · exact h.1
    · rw [hc] at h
      exact absurd h.2 Bool.false_ne_true
  cases c with
  | taskCreate args => exact osTaskCreate_sim H hfair.1
  | taskDel p => exact osTaskDel_sim H (hrun rfl) p
  | taskSuspend p => exact osTaskSuspend_sim H (hrun rfl) p
  | taskResume p => exact osTaskResume_sim H (hrun rfl) p
  | taskChangePrio p prioNew => exact osTaskChangePrio_sim H (hrun rfl) p prioNew
  | taskTimeQuantaSet p q => exact quiet_sim H (keeps_errOnly (keeps_osTaskTimeQuantaSet p q)) fun _ => id
  | taskSemPend timeout opt => exact osTaskSemPend_sim H (hrun rfl) timeout opt
  | taskSemPendAbort p opt => exact osTaskSemPendAbort_sim H (hrun rfl) p opt
  | taskSemPost p opt => exact osTaskSemPost_sim H (hrun rfl) p opt
  | taskSemSet p cnt => exact quiet_sim H (keeps_always (keeps_osTaskSemSet p cnt)) fun _ => id
  | taskQPend timeout opt hasSize => exact osTaskQPend_sim H (hrun rfl) timeout opt hasSize
  | taskQPendAbort p opt => exact osTaskQPendAbort_sim H (hrun rfl) p opt
  | taskQPost p pVoid msgSize opt => exact osTaskQPost_sim H (hrun rfl) p pVoid msgSize opt
  | taskQFlush p => exact quiet_sim H (keeps_always (keeps_osTaskQFlush p)) fun _ => id
  | semCreate p cnt => exact osSemCreate_sim H p cnt hfair
  | semPend p timeout opt => exact osSemPend_sim H (hrun rfl) p timeout opt
  | semPendAbort p opt => exact osSemPendAbort_sim H (hrun rfl) p opt
  | semPost p opt => exact osSemPost_sim H (hrun rfl) p opt
  | semSet p cnt => exact osSemSet_sim H p cnt
  | qCreate p maxQty => exact osQCreate_sim H p maxQty hfair
  | qPend p timeout opt hasSize => exact osQPend_sim H (hrun rfl) p timeout opt hasSize
  | qPendAbort p opt => exact osQPendAbort_sim H (hrun rfl) p opt
  | qPost p pVoid msgSize opt => exact osQPost_sim H (hrun rfl) p pVoid msgSize opt
  | mutexCreate p => exact osMutexCreate_sim H p hfair
  | mutexPend p timeout opt => exact osMutexPend_sim H (hrun rfl) p timeout opt
  | mutexPost p opt => exact osMutexPost_sim H (hrun rfl) p opt
  | flagCreate p flags => exact osFlagCreate_sim H p flags hfair
  | flagPend p flags timeout opt => exact osFlagPend_sim H (hrun rfl) p flags timeout opt
  | flagPendGetFlagsRdy => exact quiet_sim H (keeps_always keeps_osFlagPendGetFlagsRdy) fun _ => id
  | flagPost p flags opt => exact osFlagPost_sim H (hrun rfl) p flags opt
  | pendMulti tbl objs timeout opt => exact osPendMulti_sim H (hrun rfl) tbl objs timeout opt
  | timeDly dly opt => exact osTimeDly_sim H (hrun rfl) dly opt
  | timeDlyHMSM x opt => exact osTimeDlyHMSM_sim H (hrun rfl) x opt
  | timeGet => exact quiet_sim H (keeps_always (keeps_bind keeps_get fun _ => keeps_pure _)) fun _ => id
  | timeSet ticks => exact osTimeSet_sim H ticks
  | schedLock => exact osSchedLock_sim H (hrun rfl)
  | schedUnlock => exact osSchedUnlock_sim H
  | schedRoundRobinCfg en q => exact quiet_sim H (keeps_errOnly (keeps_osSchedRoundRobinCfg en q)) fun _ => id
  | schedRoundRobinYield => exact osSchedRoundRobinYield_sim H (hrun rfl)

theorem Event.exec_sim (H : Ready cfg s a) (he : Enabled s e) : wp n cfg e.exec (Sim cfg s a e) s := by
  cases e with
  | call c => exact c.exec_sim H he
  | finish => exact finish_sim H (H.rep.running.trans he.1)
  | start => exact osStart_sim H
  | intEnter => exact osIntEnter_sim H (H.rep.running.trans he)
  | intExit => exact osIntExit_sim H
  | timeTick => exact osTimeTick_sim H (by rw [H.rep.intNesting]; exact he.2)
  | tickUpdate => exact tickListUpdate_sim H
  | clock ts => exact wp_noAnswer.mpr (wp_modify.mpr (.calm (H.rep.of_key rfl) id))

end events

section runs

namespace Abs

def boot (cfg : Cfg) : Abs where
  task _ := { Task.fresh cfg.prioMax with state := .del }
  entry _ := ⟨none, none⟩
  obj _ := ⟨.none, none, 0, 0⟩
  ready _ := []
  waiting _ := []
  onWheel _ := false
  wheelOk := true
  cur := none
  prioCur := 0
  intNesting := 0
  lockNesting := 0
  running := false
  cont _ := .none

def init (cfg : Cfg) : Abs :=
  ((((boot cfg).start idleTaskTCB (cfg.prioMax - 1)).start tickTaskTCB cfg.tickTaskPrio).start statTaskTCB
    cfg.statTaskPrio).start tmrTaskTCB cfg.tmrTaskPrio

theorem sound_boot : (boot cfg).Sound cfg := by
  refine ⟨fun t p => ?_, ⟨?_, ?_, ?_, ?_, ?_, ?_, ?_⟩, ?_⟩ <;> simp [boot, Task.fresh, TaskState.isPend, PendOn.onObject]

theorem curOk_init : (init cfg).CurOk := ⟨fun h => absurd h Bool.false_ne_true, fun _ => ⟨rfl, rfl, rfl⟩⟩

end Abs

theorem rep_boot : Rep cfg (OS.boot cfg) (Abs.boot cfg) := by
  refine ⟨⟨⟨fun p _ => ?_, fun _ _ => rfl, fun p q t ht => ?_⟩, fun p _ => ?_⟩,
    ⟨fun o => ?_, fun o o' d hd => ?_, fun d _ => rfl⟩,
    fun _ => ⟨fun _ => [], ?_, ?_⟩, ?_⟩
  · exact ⟨.nil, rfl, rfl, rfl⟩
  · simp [Abs.boot] at ht
  · simp [Abs.boot, OS.boot]
  · exact ⟨.nil, rfl, rfl, rfl⟩
  · simp [Abs.boot] at hd
  · exact ⟨fun i _ => ⟨none, .nil, rfl, rfl, rfl⟩, fun i x hx => absurd hx List.not_mem_nil, fun x _ => rfl⟩
  · simp [Abs.boot]
  · rfl

theorem kernelTask_spec {t : TcbId} {p : ℕ} (h : Rep cfg s a) (hI : a.Sound cfg) (hs : (a.task t).state = .del) :
    wp n cfg (kernelTask t p) (fun _ s' => Rep cfg s' (a.start t p) ∧ (a.start t p).Sound cfg) s :=
  (taskStart_spec h hI hs _).mono fun _ _ h' => ⟨h', hI.start hs p⟩

theorem osInit_spec : wp n cfg osInit (fun _ s => Ready cfg s (Abs.init cfg)) (OS.boot cfg) := by
  rw [osInit, wp_bind, wp_ask, wp_bind]
  refine (kernelTask_spec rep_boot Abs.sound_boot rfl).mono ?_
  rintro _ s₁ ⟨h₁, hI₁⟩
  rw [wp_bind]
  refine (kernelTask_spec h₁ hI₁ rfl).mono ?_
  rintro _ s₂ ⟨h₂, hI₂⟩
  rw [wp_bind]
  refine (kernelTask_spec h₂ hI₂ rfl).mono ?_
  rintro _ s₃ ⟨h₃, hI₃⟩
  refine (kernelTask_spec h₃ hI₃ rfl).mono ?_
  rintro _ s₄ ⟨h₄, hI₄⟩
  exact ⟨h₄, hI₄, Abs.curOk_init⟩

theorem Event.exec_ready (H : Ready cfg s a) (he : Enabled s e) (hx : Prog.Runs cfg e.exec s r s')
    (hp : ¬ PassedMatch cfg s e) : ∃ a', Ready cfg s' a' ∧ AStep cfg s a e r a' := by
  obtain ⟨a', h', hstep⟩ := hx.wp fun n => Event.exec_sim H he
  exact ⟨a', ⟨h', hstep.sound H.sound H.rep.nodup hp, hstep.curOk H.sound H.cur H.rep.nodup hp⟩, hstep⟩

theorem Run.invariant {P : List Step → Step → Prop} {I : List Step → Abs → Prop} {h : List Step} (run : Run cfg P h s)
    (hP : ∀ h x, P h x → ¬ PassedMatch cfg x.pre x.event) (h0 : I [] (Abs.init cfg))
    (hstep : ∀ h s a e r a', Ready cfg s a → I h a → Enabled s e → P h ⟨s, e, r⟩ → AStep cfg s a e r a' →
    I (⟨s, e, r⟩ :: h) a') :
    ∃ a, Ready cfg s a ∧ I h a := by
  induction run with
  | init hx => exact ⟨_, hx.wp fun n => osInit_spec, h0⟩
  | step _ he hx hk ih =>
    obtain ⟨a, H, hI⟩ := ih
    obtain ⟨a', H', hs⟩ := Event.exec_ready H he hx (hP _ _ hk)
    exact ⟨a', H', hstep _ _ _ _ _ _ H hI he hk hs⟩

end runs

end UcosIII
