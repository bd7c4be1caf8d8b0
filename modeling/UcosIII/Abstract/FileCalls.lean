import UcosIII.Abstract.FileTables

namespace UcosIII

open Prog

variable {n : ℕ} {cfg : Cfg} {s s' : OS} {a : Abs} {t x : TcbId} {o : Option ObjId} {e : Event} {r : Option Ret} {kind : PendOn}
  {k : Cont}

section finish

theorem keeps_file_flagPendFinish (o : ObjId) (mode : Opt) (consume : Bool) :
    Keeps OS.file (flagPendFinish o mode consume) := by
  refine keeps_bind keeps_getCur fun t => keeps_bind (keeps_getTcb t) fun c => ?_
  cases c.pendStatus with
  | abort | timeout | del => exact keeps_pure _
  | ok =>
    refine keeps_ite (keeps_pure _) (keeps_ite ?_ (keeps_pure _))
    exact keeps_bind (keeps_file_modObj o _) fun _ => keeps_pure _

theorem keeps_mutexPendFinish {γ : Type} {v : OS → γ} : Keeps v mutexPendFinish := by
  refine keeps_bind keeps_getCur fun t => keeps_bind (keeps_getTcb t) fun c => ?_
  cases c.pendStatus <;> exact keeps_pure _

theorem finish_file : wp n cfg finish (fun r s' => Filed s .finish r s') s := by
  rw [finish, wp_bind, wp_getCur]
  intro t ht
  rw [wp_bind, wp_get, wp_bind, wp_modify]
  have h₁ := OS.file_setCont (s := s) t .none
  have hc₁ : ({ s with cont := Function.update s.cont t .none } : OS).tcbCurPtr = some t := ht
  generalize ({ s with cont := Function.update s.cont t .none } : OS) = s₁ at h₁ hc₁
  have hquiet {m : K (Option Ret)} (hm : Keeps OS.file m) (hk : s.cont t ≠ .multiPend) :
      wp n cfg m (fun r s' => Filed s .finish r s') s₁ := by
    refine (hm n cfg s₁).mono fun _ s₂ h₂ => .one (h₂.trans h₁) ⟨ht, ?_⟩
    rw [if_neg (show (s.file t).cont ≠ .multiPend from hk)]
  cases hk : s.cont t with
  | none => exact hquiet (keeps_pure _) (by simp [hk])
  | semPend o => exact hquiet (keeps_always (keeps_semPendFinish o)) (by simp [hk])
  | qPend => exact hquiet (keeps_always keeps_qPendFinish) (by simp [hk])
  | flagPend o mode consume => exact hquiet (keeps_always (keeps_file_flagPendFinish o mode consume)) (by simp [hk])
  | flagPost o => exact hquiet (keeps_always (keeps_flagPostFinish o)) (by simp [hk])
  | taskSemPend => exact hquiet (keeps_always keeps_taskSemPendFinish) (by simp [hk])
  | taskQPend => exact hquiet (keeps_always keeps_taskQPendFinish) (by simp [hk])
  | mutexPend o => exact hquiet (keeps_always keeps_mutexPendFinish) (by simp [hk])
  | multiPend =>
    rw [Cont.run, wp_always, multiPendFinish, wp_bind, wp_getCur, hc₁]
    rintro _ ⟨⟩
    have hok : Alters t (fun f => { f with pendStatus := .ok }) (modTcb t fun c => { c with pendStatus := .ok }) :=
      alters_modTcb (by intro c r k; rfl)
    rw [wp_bind, wp_getTcb, wp_bind]
    refine (hok.next h₁).mono fun _ s₂ h₂ => ?_
    have hend (r : Ret) : Filed s .finish (some r) s₂ := by
      refine .one h₂ ⟨ht, ?_⟩
      rw [if_pos (show (s.file t).cont = .multiPend from hk)]
    cases (s₁.tcb t).pendStatus <;> exact wp_pure.mpr (hend _)

end finish

section events

theorem osTaskSemPendAbort_file (hown : ∀ t, ∀ d ∈ (s.file t).table, d.1 = t)
    (hpend : ∀ t, (s.file t).pendOn = .taskSem → (s.file t).state.isPend = true) (p : Option TcbId) (opt : Opt) :
    wp n cfg (osTaskSemPendAbort p opt) (fun _ s' => ChangesOne (File.aborted none s.tsNow)
      (fun t => p = some t ∧ (s.file t).state.isPend = true ∧ (s.file t).pendOn = .taskSem) s s') s := by
  rw [osTaskSemPendAbort, wp_bind, wp_get, wp_ite]
  refine ⟨fun _ => wp_pure.mpr (.inl rfl), fun _ => wp_ite.mpr ⟨fun _ => wp_pure.mpr (.inl rfl), fun _ =>
    wp_ite.mpr ⟨fun _ => wp_pure.mpr (.inl rfl), fun _ => ?_⟩⟩⟩
  exact taskPendAbort_file hown hpend p

theorem osTaskQPendAbort_file (hown : ∀ t, ∀ d ∈ (s.file t).table, d.1 = t)
    (hpend : ∀ t, (s.file t).pendOn = .taskQ → (s.file t).state.isPend = true) (p : Option TcbId) (opt : Opt) :
    wp n cfg (osTaskQPendAbort p opt) (fun _ s' => ChangesOne (File.aborted none s.tsNow)
      (fun t => p = some t ∧ (s.file t).state.isPend = true ∧ (s.file t).pendOn = .taskQ) s s') s := by
  rw [osTaskQPendAbort, wp_bind, wp_get, wp_ite]
  refine ⟨fun _ => wp_pure.mpr (.inl rfl), fun _ => wp_ite.mpr ⟨fun _ => wp_pure.mpr (.inl rfl), fun _ =>
    wp_ite.mpr ⟨fun _ => wp_pure.mpr (.inl rfl), fun _ => ?_⟩⟩⟩
  exact taskPendAbort_file hown hpend p

theorem Served.filed {g : File → File} (h : Served g s s')
    (hg : ∀ t, (s.file t).state.isPend = true → e.Change s r t (s.file t) (g (s.file t))) : Filed s e r s' := by
  intro t
  rcases h t with ht | ⟨hp, ht⟩
  · exact .inl ht
  · refine .inr ?_
    rw [ht]
    exact hg t hp

theorem osSemPost_file (hown : ∀ t, ∀ d ∈ (s.file t).table, d.1 = t) (p : Option ObjId) (opt : Opt) :
    wp n cfg (osSemPost p opt) (fun _ s' => s'.file = s.file ∨
      ∃ o, p = some o ∧ Served (File.posted (some o) ⟨none, 0, s.tsNow⟩) s s') s := by
  rw [osSemPost.eq_def]
  cases p with
  | none => exact wp_pure.mpr (.inl rfl)
  | some o =>
    dsimp only
    refine wp_ite.mpr ⟨fun _ => wp_pure.mpr (.inl rfl), fun _ => ?_⟩
    rw [wp_bind, wp_getObj, wp_ite]
    refine ⟨fun _ => wp_pure.mpr (.inl rfl), fun _ => ?_⟩
    rw [wp_bind, wp_tsGet]
    exact (semPost_file hown opt s.tsNow).mono fun _ _ h => .inr ⟨o, rfl, h⟩

theorem osQPost_file (hown : ∀ t, ∀ d ∈ (s.file t).table, d.1 = t) (p : Option ObjId) (pVoid : Option ℕ) (msgSize : ℕ)
    (opt : Opt) :
    wp n cfg (osQPost p pVoid msgSize opt) (fun _ s' => s'.file = s.file ∨
      ∃ o, p = some o ∧ Served (File.posted (some o) ⟨pVoid, msgSize, s.tsNow⟩) s s') s := by
  rw [osQPost.eq_def]
  cases p with
  | none => exact wp_pure.mpr (.inl rfl)
  | some o =>
    dsimp only
    refine wp_ite.mpr ⟨fun _ => wp_pure.mpr (.inl rfl), fun _ => ?_⟩
    rw [wp_bind, wp_getObj, wp_ite]
    refine ⟨fun _ => wp_pure.mpr (.inl rfl), fun _ => ?_⟩
    rw [wp_bind, wp_tsGet]
    exact (qPost_file hown pVoid msgSize opt s.tsNow).mono fun _ _ h => .inr ⟨o, rfl, h⟩

theorem osTimeDlyHMSM_file (x : HMSM) (opt : Opt) :
    wp n cfg (osTimeDlyHMSM x opt) (fun _ s' => ChangesOne (fun f => { f with state := .dly })
      (fun t => s.tcbCurPtr = some t) s s') s := by
  rw [osTimeDlyHMSM, wp_bind, wp_get, wp_ite]
  refine ⟨fun _ => wp_pure.mpr (.inl rfl), fun _ => wp_ite.mpr ⟨fun _ => wp_pure.mpr (.inl rfl), fun _ => ?_⟩⟩
  cases hmsmCheck x opt with
  | some e => exact wp_pure.mpr (.inl rfl)
  | none =>
    dsimp only
    rw [wp_bind, wp_ask, wp_ite]
    exact ⟨fun _ => timeDly_file _ _, fun _ => wp_pure.mpr (.inl rfl)⟩

theorem Ready.pendOn_iff (H : Ready cfg s a) (t : TcbId) : (s.file t).pendOn ≠ .nothing ↔ (s.file t).state.isPend = true := by
  have hon : (s.file t).pendOn = (a.task t).pendOn := H.rep.pendOn t
  have hst : (s.file t).state = (a.task t).state := H.rep.state t
  rw [hon, hst]
  exact H.sound.wait.pendOn_iff t

theorem Call.exec_file (H : Ready cfg s a) (c : Call) :
    wp n cfg c.exec (fun r s' => Filed s (.call c) r s') s := by
  have hown : ∀ t, ∀ d ∈ (s.file t).table, d.1 = t := fun t d hd => H.rep.own H.sound t d hd
  have hpend : ∀ t k, k ≠ .nothing → (s.file t).pendOn = k → (s.file t).state.isPend = true := by
    intro t k hk ht
    exact (H.pendOn_iff t).mp (by rw [ht]; exact hk)
  cases c with
  | taskCreate args =>
    exact wp_errOnly.mpr ((osTaskCreate_file args).mono fun _ _ h => h.filed fun t ht => ⟨ht, rfl⟩)
  | taskDel p => exact wp_errOnly.mpr ((osTaskDel_file p).mono fun _ _ h => h.filed fun t ht => ⟨ht, rfl⟩)
  | taskSuspend p => exact wp_errOnly.mpr ((osTaskSuspend_file p).mono fun _ _ h => h.filed fun t ht => ⟨ht.1, rfl⟩)
  | taskResume p => exact wp_errOnly.mpr ((osTaskResume_file p).mono fun _ _ h => h.filed fun t ht => ⟨ht.1, rfl⟩)
  | taskChangePrio p prioNew => exact .of_keeps (keeps_errOnly (keeps_file_osTaskChangePrio p prioNew))
  | taskTimeQuantaSet p q => exact .of_keeps (keeps_errOnly (keeps_file_osTaskTimeQuantaSet p q))
  | taskSemPend timeout opt => exact osTaskSemPend_file timeout opt
  | taskSemPendAbort p opt =>
    refine wp_always.mpr ((osTaskSemPendAbort_file hown (fun t => hpend t _ (by simp)) p opt).mono fun _ _ h => ?_)
    exact h.filed fun t ht => ⟨ht.1, ht.2.1, ht.2.2, rfl⟩
  | taskSemPost p opt =>
    exact wp_always.mpr ((osTaskSemPost_file hown p opt).mono fun _ _ h => h.filed fun t ht => ⟨ht.1, ht.2, rfl⟩)
  | taskSemSet p cnt => exact wp_always.mpr ((osTaskSemSet_file p cnt).mono fun _ _ h => h.filed fun t ht => ⟨ht.1, ht.2, rfl⟩)
  | taskQPend timeout opt hasSize => exact osTaskQPend_file timeout opt hasSize
  | taskQPendAbort p opt =>
    refine wp_always.mpr ((osTaskQPendAbort_file hown (fun t => hpend t _ (by simp)) p opt).mono fun _ _ h => ?_)
    exact h.filed fun t ht => ⟨ht.1, ht.2.1, ht.2.2, rfl⟩
  | taskQPost p pVoid msgSize opt =>
    exact wp_errOnly.mpr (osTaskQPost_file hown p pVoid msgSize opt)
  | taskQFlush p => exact wp_always.mpr ((osTaskQFlush_file p).mono fun _ _ h => h.filed fun t ht => ⟨ht, rfl⟩)
  | semCreate p cnt => exact .of_keeps (keeps_errOnly (keeps_file_objects.1 p cnt))
  | semPend p timeout opt => exact osSemPend_file p timeout opt
  | semPendAbort p opt =>
    refine wp_always.mpr ((objPendAbort_file hown .sem p opt).mono fun _ _ h => ?_)
    rcases h with h | ⟨o, rfl, h⟩
    · exact .same h
    · exact h.filed fun t hp => ⟨hp, rfl⟩
  | semPost p opt =>
    refine wp_always.mpr ((osSemPost_file hown p opt).mono fun _ _ h => ?_)
    rcases h with h | ⟨o, rfl, h⟩
    · exact .same h
    · exact h.filed fun t hp => ⟨hp, rfl⟩
  | semSet p cnt => exact .of_keeps (keeps_errOnly (keeps_file_objects.2.1 p cnt))
  | qCreate p maxQty => exact .of_keeps (keeps_errOnly (keeps_file_objects.2.2.1 p maxQty))
  | qPend p timeout opt hasSize => exact osQPend_file p timeout opt hasSize
  | qPendAbort p opt =>
    refine wp_always.mpr ((objPendAbort_file hown .q p opt).mono fun _ _ h => ?_)
    rcases h with h | ⟨o, rfl, h⟩
    · exact .same h
    · exact h.filed fun t hp => ⟨hp, rfl⟩
  | qPost p pVoid msgSize opt =>
    refine wp_errOnly.mpr ((osQPost_file hown p pVoid msgSize opt).mono fun _ _ h => ?_)
    rcases h with h | ⟨o, rfl, h⟩
    · exact .same h
    · exact h.filed fun t hp => ⟨hp, rfl⟩
  | mutexCreate p => exact .of_keeps (keeps_errOnly (keeps_file_objects.2.2.2.1 p))
  | mutexPend p timeout opt => exact osMutexPend_file p timeout opt
  | mutexPost p opt =>
    refine wp_errOnly.mpr ((osMutexPost_file hown p opt).mono fun _ _ h => ?_)
    rcases h with h | ⟨o, rfl, h⟩
    · exact .same h
    · exact h.filed fun t hp => ⟨hp, rfl⟩
  | flagCreate p flags => exact .of_keeps (keeps_errOnly (keeps_file_objects.2.2.2.2 p flags))
  | flagPend p flags timeout opt => exact osFlagPend_file p flags timeout opt
  | flagPendGetFlagsRdy => exact .of_keeps (keeps_always keeps_osFlagPendGetFlagsRdy)
  | flagPost p flags opt => exact osFlagPost_file H p flags opt
  | pendMulti tbl objs timeout opt => exact osPendMulti_file tbl objs timeout opt
  | timeDly dly opt => exact wp_errOnly.mpr ((osTimeDly_file dly opt).mono fun _ _ h => h.filed fun t ht => ⟨ht, rfl⟩)
  | timeDlyHMSM x opt => exact wp_errOnly.mpr ((osTimeDlyHMSM_file x opt).mono fun _ _ h => h.filed fun t ht => ⟨ht, rfl⟩)
  | timeGet => exact .of_keeps (keeps_always (keeps_bind keeps_get fun _ => keeps_pure _))
  | timeSet ticks => exact .of_keeps (keeps_errOnly (keeps_bind (keeps_modify fun _ => rfl) fun _ => keeps_pure _))
  | schedLock => exact .of_keeps (keeps_errOnly keeps_file_osSchedLock)
  | schedUnlock => exact .of_keeps (keeps_errOnly keeps_file_osSchedUnlock)
  | schedRoundRobinCfg en q =>
    exact .of_keeps (keeps_errOnly (keeps_bind keeps_ask fun _ => keeps_bind (keeps_modify fun _ => rfl) fun _ => keeps_pure _))
  | schedRoundRobinYield => exact .of_keeps (keeps_errOnly keeps_file_osSchedRoundRobinYield)

theorem Event.exec_file (H : Ready cfg s a) (e : Event) : wp n cfg e.exec (fun r s' => Filed s e r s') s := by
  cases e with
  | call c => exact c.exec_file H
  | finish => exact finish_file
  | start => exact .of_keeps (keeps_errOnly keeps_file_osStart)
  | intEnter => exact .of_keeps (keeps_bind keeps_file_osIntEnter fun _ => keeps_pure _)
  | intExit => exact .of_keeps (keeps_bind keeps_file_osIntExit fun _ => keeps_pure _)
  | timeTick =>
    exact wp_noAnswer.mpr (osTimeTick_file fun t d hd => H.rep.own H.sound t d hd)
  | tickUpdate => exact wp_noAnswer.mpr tickListUpdate_file
  | clock ts => exact .of_keeps (keeps_bind (keeps_modify fun _ => rfl) fun _ => keeps_pure _)

end events

section turns

/-- The posts: the tick posts to the tick task and the timer task. -/
def Event.isPost : Event → Bool
  | call (.semPost ..) | call (.qPost ..) | call (.mutexPost ..) | call (.flagPost ..) | call (.taskSemPost ..)
  | call (.taskQPost ..) | timeTick => true
  | _ => false

def Event.isAbort : Event → Bool
  | call (.semPendAbort ..) | call (.qPendAbort ..) | call (.taskSemPendAbort ..) | call (.taskQPendAbort ..) => true
  | _ => false

def Event.Signals (s : OS) (t : TcbId) : Event → Prop
  | call (.taskSemPost p opt) => postOptValid opt = true ∧ s.Target p t
  | timeTick => t = tickTaskTCB ∨ t = tmrTaskTCB ∧ s.tmrUpdateCtr - 1 = 0
  | _ => False

inductive File.Turn (s : OS) (e : Event) (r : Option Ret) (t : TcbId) (f : File) : File → Prop
  | fresh {args : TaskArgs} (he : e = .call (.taskCreate args)) (ht : args.tcb = some t) : Turn s e r t f f.fresh
  | erased {p : Option TcbId} (he : e = .call (.taskDel p)) (ht : s.Target p t) : Turn s e r t f f.erased
  | suspended {p : Option TcbId} (he : e = .call (.taskSuspend p)) (ht : s.Target p t) : Turn s e r t f f.suspended
  | resumed (he : e = .call (.taskResume (some t))) : Turn s e r t f f.resumed
  | semSet {p : Option TcbId} {cnt : ℕ} (he : e = .call (.taskSemSet p cnt)) (h0 : s.intNestingCtr = 0) (ht : s.Target p t) :
      Turn s e r t f { f with semCtr := cnt }
  | signalled (he : e.Signals s t) : Turn s e r t f (f.signalled s.tsNow)
  | posted {o : Option ObjId} {m : Mail} (he : e.isPost = true) (hp : f.state.isPend = true) (hm : m.ts = s.tsNow)
      (ho : o = none → f.pendOn = .taskQ) : Turn s e r t f (f.posted o m)
  | flagged {o : ObjId} {flags : Flags} {opt : Opt} (he : e = .call (.flagPost (some o) flags opt))
      (hp : f.state.isPend = true) (flagsRdy : Flags) : Turn s e r t f (f.flagged flagsRdy s.tsNow)
  | flagPosts {o : ObjId} {flags : Flags} {opt : Opt} (he : e = .call (.flagPost (some o) flags opt))
      (hcur : s.tcbCurPtr = some t) (hr : r = none) : Turn s e r t f { f with cont := .flagPost o }
  | aborted {o : Option ObjId} (he : e.isAbort = true) (hp : f.state.isPend = true)
      (ho : o = none → f.pendOn = .taskSem ∨ f.pendOn = .taskQ) : Turn s e r t f (f.aborted o s.tsNow)
  | expired (he : e = .tickUpdate) : Turn s e r t f (f.expired s.tsNow)
  | delayed {c : Call} (he : e = .call c) (hcur : s.tcbCurPtr = some t) : Turn s e r t f { f with state := .dly }
  | semTaken {c : Call} (he : e = .call c) (hcur : s.tcbCurPtr = some t) (h0 : 0 < f.semCtr) :
      Turn s e r t f { f with semCtr := f.semCtr - 1 }
  | msgs {c : Call} {k : ℕ} (he : e = .call c)
      (hk : k = 0 ∨ s.tcbCurPtr = some t ∨ ¬ (f.state.isPend = true ∧ f.pendOn = .taskQ)) :
      Turn s e r t f { f with msgs := k }
  | waits {c : Call} {o : Option ObjId} {kind : PendOn} {k : Cont} (he : e = .call c) (hcur : s.tcbCurPtr = some t)
      (hr : r = none) (hkind : kind ≠ .multi ∧ kind ≠ .nothing) (hk : k ≠ .multiPend ∧ k ≠ .none)
      (hsem : kind = .taskSem → f.semCtr = 0) (hq : kind = .taskQ → f.msgs = 0) (flags : Flags × Flags × Opt) (timed : Bool) :
      Turn s e r t f ({ f with flagsPend := flags.1, flagsRdy := flags.2.1, flagsOpt := flags.2.2 }.waits t o kind timed k)
  | waitsMulti {i : ℕ} {objs : List (Option ObjId)} {timeout : Tick} {opt : Opt}
      (he : e = .call (.pendMulti (some i) objs timeout opt)) (hcur : s.tcbCurPtr = some t) (hr : r = none) (timed : Bool) :
      Turn s e r t f (f.waitsMulti t i objs timed)
  | rows {c : Call} (he : e = .call c) (hcur : s.tcbCurPtr = some t) (row : ℕ → Option ObjId × Row) :
      Turn s e r t f { f with row := row }
  | flagsRdy {c : Call} (he : e = .call c) (hcur : s.tcbCurPtr = some t) (flagsRdy : Flags) :
      Turn s e r t f { f with flagsRdy := flagsRdy }
  | finished (he : e = .finish) (hcur : s.tcbCurPtr = some t) : Turn s e r t f
      { f with cont := .none, pendStatus := if f.cont = .multiPend then .ok else f.pendStatus }

theorem Event.Change.turn {f f' : File} (h : e.Change s r t f f') : f.Turn s e r t f' := by
  cases e with
  | start | intEnter | intExit | clock => exact h.elim
  | finish =>
    obtain ⟨hcur, rfl⟩ := h
    exact .finished rfl hcur
  | timeTick =>
    obtain ⟨ht, rfl⟩ := h
    exact .signalled ht
  | tickUpdate =>
    cases h
    exact .expired rfl
  | call c =>
    cases c with
    | taskChangePrio | taskTimeQuantaSet | semCreate | semSet | qCreate | mutexCreate | flagCreate
    | flagPendGetFlagsRdy | timeGet | timeSet | schedLock | schedUnlock | schedRoundRobinCfg | schedRoundRobinYield =>
      exact h.elim
    | taskCreate args =>
      obtain ⟨ht, rfl⟩ := h
      exact .fresh rfl ht
    | taskDel p =>
      obtain ⟨ht, rfl⟩ := h
      exact .erased rfl ht
    | taskSuspend p =>
      obtain ⟨ht, rfl⟩ := h
      exact .suspended rfl ht
    | taskResume p =>
      obtain ⟨rfl, rfl⟩ := h
      exact .resumed rfl
    | taskSemSet p cnt =>
      obtain ⟨h0, ht, rfl⟩ := h
      exact .semSet rfl h0 ht
    | taskSemPost p opt =>
      obtain ⟨hopt, ht, rfl⟩ := h
      exact .signalled ⟨hopt, ht⟩
    | taskQPost p pVoid msgSize opt =>
      rcases h with ⟨-, ⟨hp, hk, rfl⟩ | ⟨hq, k, rfl⟩⟩
      · exact .posted rfl hp rfl fun _ => hk
      · exact .msgs rfl (.inr (.inr hq))
    | taskQFlush p =>
      obtain ⟨-, rfl⟩ := h
      exact .msgs rfl (.inl rfl)
    | semPost p opt | mutexPost p opt | qPost p pVoid msgSize opt =>
      cases p with
      | none => exact h.elim
      | some o =>
        obtain ⟨hp, rfl⟩ := h
        exact .posted rfl hp rfl (by simp)
    | semPendAbort p opt | qPendAbort p opt =>
      cases p with
      | none => exact h.elim
      | some o =>
        obtain ⟨hp, rfl⟩ := h
        exact .aborted rfl hp (by simp)
    | taskSemPendAbort p opt =>
      obtain ⟨-, hp, hk, rfl⟩ := h
      exact .aborted rfl hp fun _ => .inl hk
    | taskQPendAbort p opt =>
      obtain ⟨-, hp, hk, rfl⟩ := h
      exact .aborted rfl hp fun _ => .inr hk
    | timeDly | timeDlyHMSM =>
      obtain ⟨hcur, rfl⟩ := h
      exact .delayed rfl hcur
    | flagPost p flags opt =>
      cases p with
      | none => exact h.elim
      | some o =>
        rcases h with ⟨hp, flagsRdy, rfl⟩ | ⟨hcur, rfl, rfl⟩
        · exact .flagged rfl hp flagsRdy
        · exact .flagPosts rfl hcur rfl
    | taskSemPend timeout opt =>
      obtain ⟨hcur, h⟩ := h
      cases r with
      | none =>
        obtain ⟨h0, timed, rfl⟩ := h
        exact .waits rfl hcur rfl (by simp) (by simp) (fun _ => h0) (by simp) (f.flagsPend, f.flagsRdy, f.flagsOpt) timed
      | some r =>
        obtain ⟨h0, rfl⟩ := h
        exact .semTaken rfl hcur h0
    | taskQPend timeout opt hasSize =>
      obtain ⟨hcur, h⟩ := h
      cases r with
      | none =>
        obtain ⟨h0, timed, rfl⟩ := h
        exact .waits rfl hcur rfl (by simp) (by simp) (by simp) (fun _ => h0) (f.flagsPend, f.flagsRdy, f.flagsOpt) timed
      | some r =>
        obtain ⟨k, rfl⟩ := h
        exact .msgs rfl (.inr (.inl hcur))
    | semPend p timeout opt | qPend p timeout opt hasSize | mutexPend p timeout opt =>
      cases p with
      | none => exact h.elim
      | some o =>
        obtain ⟨hcur, rfl, timed, rfl⟩ := h
        exact .waits rfl hcur rfl (by simp) (by simp) (by simp) (by simp) (f.flagsPend, f.flagsRdy, f.flagsOpt) timed
    | flagPend p flags timeout opt =>
      cases p with
      | none => exact h.elim
      | some o =>
        obtain ⟨hcur, h⟩ := h
        cases r with
        | none =>
          obtain ⟨timed, rfl⟩ := h
          exact .waits rfl hcur rfl (by simp) (by simp) (by simp) (by simp) (flags, 0, opt) timed
        | some r =>
          obtain ⟨flagsRdy, rfl⟩ := h
          exact .flagsRdy rfl hcur flagsRdy
    | pendMulti tbl objs timeout opt =>
      cases tbl with
      | none => exact h.elim
      | some i =>
        obtain ⟨hcur, h⟩ := h
        cases r with
        | none =>
          obtain ⟨timed, rfl⟩ := h
          exact .waitsMulti rfl hcur rfl timed
        | some r =>
          obtain ⟨row, rfl⟩ := h
          exact .rows rfl hcur row

end turns

section shapes

namespace File

theorem suspended_shape (f : File) :
    ∃ st c, f.suspended = { f with state := st, suspendCtr := c } ∧ st.isPend = f.state.isPend ∧
      (st = .del → f.state = .del) := by
  refine ⟨f.suspended.state, f.suspended.suspendCtr, ?_, ?_⟩
  · rw [suspended]
    split <;> rfl
  · cases hs : f.state <;> simp [suspended, hs, TaskState.isPend]

theorem resumed_shape (f : File) :
    ∃ st c, f.resumed = { f with state := st, suspendCtr := c } ∧ st.isPend = f.state.isPend ∧
      (st = .del → f.state = .del) := by
  refine ⟨f.resumed.state, f.resumed.suspendCtr, ?_, ?_⟩
  · rw [resumed]
    split <;> rfl
  · cases hs : f.state with
    | rdy | dly | pend | pendTimeout | del => simp [resumed, hs, TaskState.isPend]
    | suspended | dlySuspended | pendSuspended | pendTimeoutSuspended =>
      simp only [resumed, hs, lessSuspended]
      split <;> simp [TaskState.isPend]

theorem signalled_shape (f : File) (ts : ℕ) :
    f.state.isPend = true ∧ f.pendOn = .taskSem ∧
        f.signalled ts = { f with mail := { f.mail with ts := ts } }.posted none ⟨none, 0, ts⟩ ∨
      ¬ (f.state.isPend = true ∧ f.pendOn = .taskSem) ∧
        ∃ c, f.signalled ts = { f with mail := { f.mail with ts := ts }, semCtr := c } := by
  rw [signalled]
  split
  · rename_i hp
    exact .inl ⟨hp.1, hp.2, rfl⟩
  · rename_i hp
    refine .inr ⟨hp, ?_⟩
    split
    · exact ⟨f.semCtr, rfl⟩
    · exact ⟨f.semCtr + 1, rfl⟩

theorem expired_shape (f : File) (ts : ℕ) :
    f.state.isPend = true ∧ f.expired ts = { f with mail := ⟨none, 0, ts⟩, table := [] }.woken .timeout ∨
      ∃ st, f.expired ts = { f with state := st } ∧ st.isPend = f.state.isPend ∧ (st = .del → f.state = .del) := by
  cases hs : f.state with
  | pendTimeout | pendTimeoutSuspended => exact .inl ⟨rfl, by simp only [expired, hs]⟩
  | dly => exact .inr ⟨.rdy, by simp only [expired, TaskState.expired, hs], rfl, by simp⟩
  | dlySuspended => exact .inr ⟨.suspended, by simp only [expired, TaskState.expired, hs], rfl, by simp⟩
  | rdy | pend | suspended | pendSuspended | del =>
    have hf : f.expired ts = f := by simp only [expired, hs]
    exact .inr ⟨f.state, hf, by rw [hs], by simp [hs]⟩

theorem isPend_woken (f : File) (st : PendStatus) : (f.woken st).state.isPend = false := TaskState.isPend_woken _

theorem posted_mail {f : File} (hm : f.pendOn ≠ .multi) (o : Option ObjId) (m : Mail) : (f.posted o m).mail = m := by
  rw [posted, if_neg hm]
  rfl

theorem posted_shape (f : File) (o : Option ObjId) (m : Mail) :
    ∃ tbl row x, f.posted o m = { f with table := tbl, row := row, mail := x }.woken .ok := by
  rw [posted]
  split
  · rw [mark_eq]
    exact ⟨_, _, f.mail, rfl⟩
  · exact ⟨_, f.row, m, rfl⟩

theorem aborted_shape (f : File) (o : Option ObjId) (ts : ℕ) :
    ∃ tbl row x, f.aborted o ts = { f with table := tbl, row := row, mail := x }.woken .abort := by
  rw [aborted]
  split
  · rw [mark_eq]
    exact ⟨_, _, _, rfl⟩
  · exact ⟨_, f.row, _, rfl⟩

end File

end shapes

section waits

def Call.waitsFor : Call → Option (PendOn × Option ObjId)
  | .taskSemPend .. => some (.taskSem, none)
  | .taskQPend .. => some (.taskQ, none)
  | .semPend (some o) .. => some (.sem, some o)
  | .qPend (some o) .. => some (.q, some o)
  | .mutexPend (some o) .. => some (.mutex, some o)
  | .flagPend (some o) .. => some (.flag, some o)
  | _ => none

theorem Event.Change.newWait {f f' : File} (hc : e.Change s r t f f') (hp : f.state.isPend = false)
    (hp' : f'.state.isPend = true) : r = none ∧ s.tcbCurPtr = some t ∧
      ((∃ c kind p, e = .call c ∧ c.waitsFor = some (kind, p) ∧ f'.pendOn = kind ∧
          f'.table = (if p = none then [] else [(t, 0)]) ∧ ∀ o ∈ p, (f'.row 0).1 = some o) ∨
        ∃ i objs timeout opt timed, e = .call (.pendMulti (some i) objs timeout opt) ∧ f' = f.waitsMulti t i objs timed) := by
  have hidle (hn : f'.state.isPend = false) : False := by
    rw [hn] at hp'
    cases hp'
  have hold (hn : f'.state.isPend = f.state.isPend) : False := hidle (hn.trans hp)
  cases e with
  | start | intEnter | intExit | clock => exact hc.elim
  | finish =>
    obtain ⟨-, rfl⟩ := hc
    exact (hold rfl).elim
  | timeTick =>
    obtain ⟨-, rfl⟩ := hc
    rcases f.signalled_shape s.tsNow with ⟨-, -, hs⟩ | ⟨-, c, hs⟩
    · exact (hidle (by rw [hs]; exact File.isPend_posted _ _ _)).elim
    · exact (hold (by rw [hs])).elim
  | tickUpdate =>
    cases hc
    rcases f.expired_shape s.tsNow with ⟨hpf, -⟩ | ⟨st, hs, hst, -⟩
    · rw [hp] at hpf
      cases hpf
    · exact (hold (by rw [hs, ← hst])).elim
  | call c =>
    cases c with
    | taskChangePrio | taskTimeQuantaSet | semCreate | semSet | qCreate | mutexCreate | flagCreate
    | flagPendGetFlagsRdy | timeGet | timeSet | schedLock | schedUnlock | schedRoundRobinCfg | schedRoundRobinYield =>
      exact hc.elim
    | taskCreate | taskDel =>
      obtain ⟨-, rfl⟩ := hc
      exact (hidle rfl).elim
    | taskSuspend p =>
      obtain ⟨-, rfl⟩ := hc
      obtain ⟨st, c, hs, hst, -⟩ := f.suspended_shape
      exact (hold (by rw [hs, ← hst])).elim
    | taskResume p =>
      obtain ⟨-, rfl⟩ := hc
      obtain ⟨st, c, hs, hst, -⟩ := f.resumed_shape
      exact (hold (by rw [hs, ← hst])).elim
    | taskSemSet p cnt =>
      obtain ⟨-, -, rfl⟩ := hc
      exact (hold rfl).elim
    | taskSemPost p opt =>
      obtain ⟨-, -, rfl⟩ := hc
      rcases f.signalled_shape s.tsNow with ⟨-, -, hs⟩ | ⟨-, c, hs⟩
      · exact (hidle (by rw [hs]; exact File.isPend_posted _ _ _)).elim
      · exact (hold (by rw [hs])).elim
    | taskQPost p pVoid msgSize opt =>
      rcases hc with ⟨-, ⟨-, -, rfl⟩ | ⟨-, k, rfl⟩⟩
      · exact (hidle (File.isPend_posted _ _ _)).elim
      · exact (hold rfl).elim
    | taskQFlush p =>
      obtain ⟨-, rfl⟩ := hc
      exact (hold rfl).elim
    | semPost p opt | mutexPost p opt | qPost p pVoid msgSize opt =>
      cases p with
      | none => exact hc.elim
      | some o =>
        obtain ⟨-, rfl⟩ := hc
        exact (hidle (File.isPend_posted _ _ _)).elim
    | semPendAbort p opt | qPendAbort p opt =>
      cases p with
      | none => exact hc.elim
      | some o =>
        obtain ⟨-, rfl⟩ := hc
        exact (hidle (File.isPend_aborted _ _ _)).elim
    | taskSemPendAbort p opt | taskQPendAbort p opt =>
      obtain ⟨-, -, -, rfl⟩ := hc
      exact (hidle (File.isPend_aborted _ _ _)).elim
    | timeDly | timeDlyHMSM =>
      obtain ⟨-, rfl⟩ := hc
      exact (hidle rfl).elim
    | flagPost p flags opt =>
      cases p with
      | none => exact hc.elim
      | some o =>
        rcases hc with ⟨-, flagsRdy, rfl⟩ | ⟨-, -, rfl⟩
        · exact (hidle (File.isPend_woken _ _)).elim
        · exact (hold rfl).elim
    | taskSemPend timeout opt | taskQPend timeout opt hasSize =>
      obtain ⟨hcur, hc⟩ := hc
      cases r with
      | none =>
        obtain ⟨-, timed, rfl⟩ := hc
        exact ⟨rfl, hcur, .inl ⟨_, _, _, rfl, rfl, rfl, by simp [File.waits], by simp⟩⟩
      | some r =>
        obtain ⟨_, rfl⟩ := hc
        exact (hold rfl).elim
    | semPend p timeout opt | qPend p timeout opt hasSize | mutexPend p timeout opt =>
      cases p with
      | none => exact hc.elim
      | some o =>
        obtain ⟨hcur, hr, timed, rfl⟩ := hc
        exact ⟨hr, hcur, .inl ⟨_, _, _, rfl, rfl, rfl, by simp [File.waits], by simp [File.waits]⟩⟩
    | pendMulti tbl objs timeout opt =>
      cases tbl with
      | none => exact hc.elim
      | some i =>
        obtain ⟨hcur, hc⟩ := hc
        cases r with
        | none =>
          obtain ⟨timed, rfl⟩ := hc
          exact ⟨rfl, hcur, .inr ⟨i, objs, timeout, opt, timed, rfl, rfl⟩⟩
        | some r =>
          obtain ⟨row, rfl⟩ := hc
          exact (hold rfl).elim
    | flagPend p flags timeout opt =>
      cases p with
      | none => exact hc.elim
      | some o =>
        obtain ⟨hcur, hc⟩ := hc
        cases r with
        | none =>
          obtain ⟨timed, rfl⟩ := hc
          exact ⟨rfl, hcur, .inl ⟨_, _, _, rfl, rfl, rfl, by simp [File.waits], by simp [File.waits]⟩⟩
        | some r =>
          obtain ⟨flagsRdy, rfl⟩ := hc
          exact (hold rfl).elim

theorem Event.Change.sameWait {f f' : File} (hc : e.Change s r t f f') (hcur : s.tcbCurPtr = some t → f.state.isPend = false)
    (hp : f.state.isPend = true) (hp' : f'.state.isPend = true) :
    f'.pendOn = f.pendOn ∧ f'.table = f.table ∧ f'.row = f.row ∧ f'.flagsPend = f.flagsPend ∧ f'.flagsOpt = f.flagsOpt := by
  have hidle (hn : f'.state.isPend = false) : False := by
    rw [hn] at hp'
    cases hp'
  have hno (hct : s.tcbCurPtr = some t) : False := by
    rw [hcur hct] at hp
    cases hp
  cases hc.turn with
  | fresh | erased => exact (hidle rfl).elim
  | suspended =>
    obtain ⟨st, c, hs, -⟩ := f.suspended_shape
    rw [hs]
    exact ⟨rfl, rfl, rfl, rfl, rfl⟩
  | resumed =>
    obtain ⟨st, c, hs, -⟩ := f.resumed_shape
    rw [hs]
    exact ⟨rfl, rfl, rfl, rfl, rfl⟩
  | semSet | msgs => exact ⟨rfl, rfl, rfl, rfl, rfl⟩
  | signalled =>
    rcases f.signalled_shape s.tsNow with ⟨-, -, hs⟩ | ⟨-, c, hs⟩
    · exact (hidle (by rw [hs]; exact File.isPend_posted _ _ _)).elim
    · rw [hs]
      exact ⟨rfl, rfl, rfl, rfl, rfl⟩
  | posted => exact (hidle (File.isPend_posted _ _ _)).elim
  | flagged => exact (hidle (File.isPend_woken _ _)).elim
  | aborted => exact (hidle (File.isPend_aborted _ _ _)).elim
  | expired =>
    rcases f.expired_shape s.tsNow with ⟨-, hs⟩ | ⟨st, hs, -⟩
    · exact (hidle (by rw [hs]; exact File.isPend_woken _ _)).elim
    · rw [hs]
      exact ⟨rfl, rfl, rfl, rfl, rfl⟩
  | flagPosts _ hct | delayed _ hct | semTaken _ hct | waits _ hct | waitsMulti _ hct | rows _ hct | flagsRdy _ hct
  | finished _ hct => exact (hno hct).elim

end waits

section runs

def File.AtStart (f : File) : Prop :=
  (f.state = .rdy ∨ f.state = .del) ∧ f.suspendCtr = 0 ∧ f.pendOn = .nothing ∧ f.pendStatus = .ok ∧ f.table = [] ∧
      f.semCtr = 0 ∧
    f.cont = .none

theorem osInit_file : wp n cfg osInit (fun _ s => ∀ t, (s.file t).AtStart) (OS.boot cfg) := by
  have hstart (t : TcbId) (p : ℕ) {s : OS} (h : ∀ t, (s.file t).AtStart) :
      wp n cfg (kernelTask t p) (fun _ s' => ∀ t, (s'.file t).AtStart) s := by
    refine (taskStart_file _).mono fun _ s' h' x => ?_
    rw [h', Function.update_apply]
    split
    · exact ⟨.inl rfl, rfl, rfl, rfl, rfl, rfl, (h t).2.2.2.2.2.2⟩
    · exact h x
  have hboot : ∀ t, ((OS.boot cfg).file t).AtStart := fun t => ⟨.inr rfl, rfl, rfl, rfl, rfl, rfl, rfl⟩
  rw [osInit, wp_bind, wp_ask, wp_bind]
  refine (hstart _ _ hboot).mono fun _ s₁ h₁ => ?_
  rw [wp_bind]
  refine (hstart _ _ h₁).mono fun _ s₂ h₂ => ?_
  rw [wp_bind]
  exact (hstart _ _ h₂).mono fun _ s₃ h₃ => hstart _ _ h₃

/-- What holds after `OSInit`, and is kept by every event for what it makes of the files, holds in every run. -/
theorem Run.files_init {P : List Step → Step → Prop} {I : List Step → OS → Prop} {h : List Step} (run : Run cfg P h s)
    (hP : ∀ h x, P h x → ¬ PassedMatch cfg x.pre x.event)
    (h0 : ∀ s, Prog.Runs cfg osInit (OS.boot cfg) () s → (∀ t, (s.file t).AtStart) → I [] s)
    (hstep : ∀ h s a e r s' a', Ready cfg s a → I h s → Enabled s e → P h ⟨s, e, r⟩ → Prog.Runs cfg e.exec s r s' →
      Filed s e r s' → Ready cfg s' a' → AStep cfg s a e r a' → I (⟨s, e, r⟩ :: h) s') : (∃ a, Ready cfg s a) ∧ I h s := by
  induction run with
  | init hx => exact ⟨⟨_, hx.wp fun n => osInit_spec⟩, h0 _ hx (hx.wp fun n => osInit_file)⟩
  | step _ he hx hk ih =>
    obtain ⟨⟨a, H⟩, hI⟩ := ih
    obtain ⟨a', H', hs⟩ := Event.exec_ready H he hx (hP _ _ hk)
    exact ⟨⟨a', H'⟩, hstep _ _ a _ _ _ a' H hI he hk hx (hx.wp fun n => Event.exec_file H _) H' hs⟩

theorem Run.files {P : List Step → Step → Prop} {I : List Step → OS → Prop} {h : List Step} (run : Run cfg P h s)
    (hP : ∀ h x, P h x → ¬ PassedMatch cfg x.pre x.event)
    (h0 : ∀ s, (∀ t, (s.file t).AtStart) → I [] s)
    (hstep : ∀ h s a e r s' a', Ready cfg s a → I h s → Enabled s e → P h ⟨s, e, r⟩ → Prog.Runs cfg e.exec s r s' →
      Filed s e r s' → Ready cfg s' a' → AStep cfg s a e r a' → I (⟨s, e, r⟩ :: h) s') : (∃ a, Ready cfg s a) ∧ I h s :=
  run.files_init hP (fun s _ => h0 s) hstep

end runs

end UcosIII
