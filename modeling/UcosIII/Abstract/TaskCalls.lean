import UcosIII.Abstract.Invariant

namespace UcosIII

open Prog

/-- The event leads from what `a` stands for to something that an abstract step leads to. -/
def Sim (cfg : Cfg) (s : OS) (a : Abs) (e : Event) (r : Option Ret) (s' : OS) : Prop :=
  ∃ a', Rep cfg s' a' ∧ AStep cfg s a e r a'

structure Ready (cfg : Cfg) (s : OS) (a : Abs) : Prop where
  rep : Rep cfg s a
  sound : a.Sound cfg
  cur : a.CurOk

def Env.plain : Env := ⟨False, False, False⟩

variable {n : ℕ} {cfg : Cfg} {s s' s₁ : OS} {a b : Abs} {t : TcbId} {o : Option ObjId} {e : Event} {r : Option Ret}

section answers

@[simp] theorem wp_errOnly {m : K Err} {Q : Option Ret → OS → Prop} :
    wp n cfg (errOnly m) Q s ↔ wp n cfg m (fun x s' => Q (some { err := x }) s') s := by
  exact wp_bind_pure

@[simp] theorem wp_always {m : K Ret} {Q : Option Ret → OS → Prop} :
    wp n cfg (always m) Q s ↔ wp n cfg m (fun x s' => Q (some x) s') s := by
  exact wp_bind_pure

@[simp] theorem wp_noAnswer {m : K Unit} {Q : Option Ret → OS → Prop} :
    wp n cfg (noAnswer m) Q s ↔ wp n cfg m (fun _ s' => Q none s') s := by
  exact wp_bind_pure

end answers

section acts

variable {E E' : Env} {S : Act → Prop}

theorem Act.Valid.weaken {x : Act} (h : x.Valid E a) (hF : E.flagHit → E'.flagHit)
    (hI : E.idleStops → E'.idleStops) (hC : E.isCall → E'.isCall) : x.Valid E' a := by
  have hmay : ∀ t, MayStop E a t → MayStop E' a t :=
    fun t ⟨h1, h2, h3, h4, h5, h6⟩ => ⟨h1, h2, h3, h4, fun h => hI (h5 h), hC h6⟩
  cases x with
  | flagWake t => exact ⟨h.1, fun hs => hF (h.2 hs)⟩
  | suspend t => exact ⟨h.1, h.2.1, fun ht => hI (h.2.2 ht)⟩
  | pendOn t o kind timed => exact ⟨hmay t h.1, h.2⟩
  | pendMulti t timed ds => exact ⟨hmay t h.1, h.2⟩
  | delay t => exact hmay t h
  | wake | expire | rotate | resume | flagsOpt | pendStatus | store => exact h

theorem Abs.Acts.weaken (h : a.Acts E S b) (hF : E.flagHit → E'.flagHit) (hI : E.idleStops → E'.idleStops)
    (hC : E.isCall → E'.isCall) : a.Acts E' S b := by
  induction h with
  | refl => exact .refl
  | snoc _ hS hv hnd ih => exact .snoc ih hS (hv.weaken hF hI hC) hnd

theorem Abs.Acts.of_plain (h : a.Acts .plain S b) : a.Acts E S b := h.weaken False.elim False.elim False.elim

theorem Abs.Acts.any (h : a.Acts E S b) : a.Acts E (fun _ => True) b := h.mono fun _ _ => trivial

theorem Abs.Acts.one {x : Act} (hS : S x) (hv : x.Valid E a) (hnd : ∀ p, (a.ready p).Nodup) :
    a.Acts E S (x.apply a) := .snoc .refl hS hv hnd

end acts

section outcomes

variable {k : Cont} {kind : PendOn}

theorem Sim.calm (h : Rep cfg s' a) (hc : ¬ Counts e r) : Sim cfg s a e r s' := ⟨a, h, .still hc .refl⟩

theorem Sim.still (h : Rep cfg s' b) (hc : ¬ Counts e r) (hacts : a.Acts .plain Act.Still b) : Sim cfg s a e r s' :=
  ⟨b, h, .still hc hacts.of_plain⟩

theorem schedOpt_sim {opt : Opt} (h : Rep cfg s₁ b) (hrun : a.running = true)
    (hacts : a.Acts (env s e r) Act.Wakes b) (hc : ¬ Counts e r)
    (hno : opt &&& optPostNoSched ≠ 0 → e.noSched = true) :
    wp n cfg (schedOpt opt) (fun _ s' => Sim cfg s a e r s') s₁ := by
  refine (schedOpt_spec h opt).mono ?_
  rintro _ s' ⟨a', h', hs⟩
  refine ⟨a', h', ?_⟩
  split at hs
  · exact .sched hc hrun hacts.any hs
  · subst hs
    exact .acts hc hacts (.inr (.inl (hno ‹_›)))

theorem osSched_sim (h : Rep cfg s₁ b) (hrun : a.running = true) (hacts : a.Acts (env s e r) (fun _ => True) b)
    (hc : ¬ Counts e r) : wp n cfg osSched (fun _ s' => Sim cfg s a e r s') s₁ := by
  refine (osSched_spec h).mono ?_
  rintro _ s' ⟨a', h', hs⟩
  exact ⟨a', h', .sched hc hrun hacts hs⟩

theorem waitThen_sim (h : Rep cfg s₁ b) (hcur : a.cur = some t) (hint : a.intNesting = 0)
    (hacts : a.Acts (env s e none) (fun _ => True) b) (hc : ¬ Counts e none) (hk : ∀ o, k ≠ .mutexPend o)
    (hcall : ∃ c, e = .call c) : wp n cfg (waitThen k) (Sim cfg s a e) s₁ := by
  refine (waitThen_spec h (hacts.cur.trans hcur) k).mono ?_
  rintro _ s' ⟨rfl, a', h', hs⟩
  exact ⟨a', h', .leave hc hcur hint hk hacts hs hcall⟩

theorem pend_sim (h : Rep cfg s₁ b) (hI : b.Sound cfg) (hacts : a.Acts (env s e none) (fun _ => True) b)
    (hv : (Act.pendOn t o kind true).Valid (env s e none) b) (hc : ¬ Counts e none) (hk : ∀ o, k ≠ .mutexPend o)
    (timeout : Tick) : wp n cfg (do pend o kind timeout; waitThen k) (Sim cfg s a e) s₁ := by
  obtain ⟨hcur, hs, hint, -, -, hcall⟩ := hv.1
  rw [wp_bind]
  refine (pend_spec h hI hcur hs o timeout).mono ?_
  rintro _ s₂ ⟨timed, h₂⟩
  have hacts' : a.Acts (env s e none) (fun _ => True) (b.pendOn t o kind timed) :=
    hacts.snoc (x := .pendOn t o kind timed) trivial hv h.nodup
  exact waitThen_sim h₂ (hacts.cur.symm.trans hcur) (hacts.intNesting.symm.trans hint) hacts' hc hk hcall

end outcomes

namespace Ready

theorem running_cur (h : Ready cfg s a) (hrun : a.running = true) (hlock : ¬ s.schedLockNestingCtr > 0) :
    ∃ c, a.cur = some c ∧ (a.task c).state = .rdy := by
  obtain ⟨c, hc, hs⟩ := h.cur.runs hrun
  refine ⟨c, hc, hs.resolve_right fun h' => hlock ?_⟩
  rw [← h.rep.lockNesting]
  exact h'.2

theorem int_eq (h : Ready cfg s a) (hint : ¬ s.intNestingCtr > 0) : a.intNesting = 0 := by
  rw [h.rep.intNesting]
  omega

theorem lock_eq (h : Ready cfg s a) (hlock : ¬ s.schedLockNestingCtr > 0) : a.lockNesting = 0 := by
  rw [h.rep.lockNesting]
  omega

theorem mayStop (h : Ready cfg s a) {c : Call} (hint : ¬ s.intNestingCtr > 0) (hlock : ¬ s.schedLockNestingCtr > 0)
    (hcur : a.cur = some t) (hs : (a.task t).state = .rdy) (hstop : c.stops r) :
    Act.MayStop (env s (.call c) r) a t := by
  refine ⟨hcur, hs, h.int_eq hint, h.lock_eq hlock, ?_, c, rfl⟩
  rintro rfl
  exact ⟨h.rep.cur.symm.trans hcur, c, rfl, hstop⟩

end Ready

theorem wp_orCur {p : Option TcbId} {Q : TcbId → OS → Prop} (h : Rep cfg s a) :
    wp n cfg (orCur p) Q s ↔ ∀ t, a.Target p t → Q t s := by
  cases p <;> simp [orCur, Abs.Target, h.cur]

section tasks

theorem taskCreateCheck_inl {args : TaskArgs} {x : Err} (h : taskCreateCheck cfg s args = .inl x) : x ≠ .none := by
  unfold taskCreateCheck at h
  rintro rfl
  repeat' split at h
  all_goals simp at h

theorem taskCreateCheck_inr {args : TaskArgs} (h : taskCreateCheck cfg s args = .inr t) :
    args.tcb = some t ∧ args.prio < cfg.prioMax ∧ s.intNestingCtr = 0 := by
  unfold taskCreateCheck at h
  repeat' split at h
  all_goals simp_all

theorem osTaskCreate_sim (H : Ready cfg s a) {args : TaskArgs} (hd : ∀ t ∈ args.tcb, (s.tcb t).taskState = .del) :
    wp n cfg (Call.taskCreate args).exec (Sim cfg s a (.call (.taskCreate args))) s := by
  rw [Call.exec, wp_errOnly, osTaskCreate, wp_bind, wp_ask, wp_bind, wp_get]
  cases hchk : taskCreateCheck cfg s args with
  | inl x => exact wp_pure.mpr (.calm H.rep (taskCreateCheck_inl hchk))
  | inr t =>
    obtain ⟨ht, hp, hint⟩ := taskCreateCheck_inr hchk
    have hdel : (a.task t).state = .del := (H.rep.state t).symm.trans (hd t ht)
    have hint' : a.intNesting = 0 := H.rep.intNesting.trans hint
    rw [wp_bind]
    refine (taskStart_spec H.rep H.sound hdel args).mono fun _ s₁ h₁ => ?_
    have hrun : s₁.running = a.running := h₁.running.symm
    rw [wp_bind, wp_get, wp_ite, hrun]
    constructor
    · intro hr
      exact wp_pure.mpr ⟨_, h₁, .create ht hdel hp hint' (by simp [hr])⟩
    · intro hr
      rw [wp_bind]
      refine (osSched_spec h₁).mono ?_
      rintro _ s' ⟨a', h', hs⟩
      exact wp_pure.mpr ⟨a', h', .create ht hdel hp hint' (by simpa [hr] using hs)⟩

theorem osTaskDel_sim (H : Ready cfg s a) (hrun : a.running = true) (p : Option TcbId) :
    wp n cfg (Call.taskDel p).exec (Sim cfg s a (.call (.taskDel p))) s := by
  rw [Call.exec, wp_errOnly, osTaskDel, wp_bind, wp_get, wp_ite]
  refine ⟨fun _ => wp_pure.mpr (.calm H.rep id), fun hint => ?_⟩
  rw [wp_ite]
  refine ⟨fun _ => wp_pure.mpr (.calm H.rep id), fun hp => ?_⟩
  rw [wp_bind, wp_orCur H.rep]
  intro t ht
  rw [wp_bind, wp_getTcb, H.rep.state, wp_ite]
  refine ⟨fun _ => wp_pure.mpr (.calm H.rep id), fun hd => ?_⟩
  rw [wp_bind]
  refine (taskErase_spec H.rep H.sound).mono fun _ s₁ h₁ => ?_
  rw [wp_bind]
  refine (osSched_spec h₁).mono ?_
  rintro _ s' ⟨a', h', hs⟩
  refine wp_pure.mpr ⟨a', h', .delete hrun ht hd (H.int_eq hint) ?_ hs⟩
  rintro rfl
  obtain rfl | ⟨rfl, hcur⟩ := ht
  · exact absurd rfl hp
  · exact ⟨H.rep.cur.symm.trans hcur, _, rfl, _, rfl, rfl⟩

theorem osTaskSuspend_sim (H : Ready cfg s a) (hrun : a.running = true) (p : Option TcbId) :
    wp n cfg (Call.taskSuspend p).exec (Sim cfg s a (.call (.taskSuspend p))) s := by
  rw [Call.exec, wp_errOnly, osTaskSuspend, wp_bind, wp_get, wp_ite]
  refine ⟨fun _ => wp_pure.mpr (.calm H.rep id), fun hint => ?_⟩
  rw [wp_ite]
  refine ⟨fun _ => wp_pure.mpr (.calm H.rep id), fun hp => ?_⟩
  rw [taskSuspend, wp_bind, wp_orCur H.rep]
  intro t ht
  rw [wp_bind, wp_get, wp_ite]
  refine ⟨fun _ => wp_pure.mpr (.calm H.rep id), fun hself => ?_⟩
  rw [wp_bind]
  refine (suspendTcb_spec H.rep H.sound).mono ?_
  rintro x s₁ ⟨h₁, rfl⟩
  rw [wp_ite]
  by_cases hd : (a.task t).state = .del
  · rw [Abs.suspend, if_pos hd] at h₁
    exact ⟨fun _ => wp_pure.mpr (.calm h₁ id), fun hne => absurd (if_pos hd) hne⟩
  · rw [if_neg hd]
    refine ⟨fun h => absurd h (by simp), fun _ => ?_⟩
    rw [wp_bind]
    refine (osSched_sim h₁ hrun (.one (x := .suspend t) trivial ?_ H.rep.nodup) id).mono fun _ _ h => wp_pure.mpr h
    refine ⟨H.int_eq hint, fun hcur => ?_, ?_⟩
    · by_contra hl
      rw [H.rep.lockNesting] at hl
      exact hself ⟨hcur.symm.trans H.rep.cur, Nat.pos_of_ne_zero hl⟩
    · rintro rfl
      obtain rfl | ⟨rfl, hcur⟩ := ht
      · exact absurd rfl hp
      · exact ⟨H.rep.cur.symm.trans hcur, _, rfl, _, rfl, rfl⟩

theorem osTaskResume_sim (H : Ready cfg s a) (hrun : a.running = true) (p : Option TcbId) :
    wp n cfg (Call.taskResume p).exec (Sim cfg s a (.call (.taskResume p))) s := by
  rw [Call.exec, wp_errOnly, osTaskResume, wp_bind, wp_get, wp_ite]
  refine ⟨fun _ => wp_pure.mpr (.calm H.rep id), fun hint => ?_⟩
  rw [wp_ite]
  refine ⟨fun _ => wp_pure.mpr (.calm H.rep id), fun hp => ?_⟩
  rw [wp_bind, wp_deref]
  intro t _
  rw [taskResume, wp_bind]
  refine (resumeTcb_spec H.rep H.sound).mono ?_
  rintro x s₁ ⟨h₁, hx⟩
  rw [wp_ite]
  constructor
  · intro he
    rw [Abs.resume, hx.mp he] at h₁
    exact wp_pure.mpr (.calm h₁ id)
  · intro _
    rw [wp_bind]
    exact (osSched_sim h₁ hrun (.one (x := .resume t) trivial trivial H.rep.nodup) id).mono fun _ _ h => wp_pure.mpr h

theorem osTaskChangePrio_sim (H : Ready cfg s a) (hrun : a.running = true) (p : Option TcbId) (prioNew : ℕ) :
    wp n cfg (Call.taskChangePrio p prioNew).exec (Sim cfg s a (.call (.taskChangePrio p prioNew))) s := by
  rw [Call.exec, wp_errOnly, osTaskChangePrio, wp_bind, wp_get, wp_ite]
  refine ⟨fun _ => wp_pure.mpr (.calm H.rep (by simp [Counts])), fun hint => ?_⟩
  rw [wp_bind, wp_ask, wp_ite]
  refine ⟨fun _ => wp_pure.mpr (.calm H.rep (by simp [Counts])), fun hp => ?_⟩
  rw [wp_bind, wp_orCur H.rep]
  intro t ht
  rw [wp_bind]
  refine (changePrioTcb_spec H.rep H.sound prioNew (p = none)).mono ?_
  rintro x s₁ ⟨h₁, rfl⟩
  rw [wp_ite]
  by_cases hd : (a.task t).state = .del
  · rw [Abs.reprio, hd] at h₁
    rw [if_pos hd]
    exact ⟨fun _ => wp_pure.mpr (.calm h₁ (by simp [Counts])), fun hne => absurd rfl hne⟩
  · rw [if_neg hd]
    refine ⟨fun h => absurd h (by simp), fun _ => ?_⟩
    rw [wp_bind]
    refine (osSched_spec h₁).mono ?_
    rintro _ s' ⟨a', h', hs⟩
    exact wp_pure.mpr ⟨a', h', .changePrio hrun ht hd (H.int_eq hint) (by omega) hs⟩

theorem quiet_sim {m : K (Option Ret)} (H : Ready cfg s a) (hm : Keeps OS.key m) (hc : ∀ r, ¬ Counts e r) :
    wp n cfg m (Sim cfg s a e) s :=
  (hm n cfg s).mono fun r _ hs => .calm (H.rep.of_key hs) (hc r)

@[grind ←] theorem keeps_errOnly {γ : Type} {v : OS → γ} {m : K Err} (h : Keeps v m) : Keeps v (errOnly m) :=
  keeps_bind h fun _ => keeps_pure _

@[grind ←] theorem keeps_always {γ : Type} {v : OS → γ} {m : K Ret} (h : Keeps v m) : Keeps v (always m) :=
  keeps_bind h fun _ => keeps_pure _

theorem keeps_orCur {γ : Type} {v : OS → γ} (p : Option TcbId) : Keeps v (orCur p) := by
  cases p
  · exact keeps_getCur
  · exact keeps_pure _

theorem keeps_osTaskTimeQuantaSet (p : Option TcbId) (q : Tick) : Keeps OS.key (osTaskTimeQuantaSet p q) := by
  refine keeps_bind keeps_get fun _ => keeps_ite (keeps_pure _) (keeps_bind (keeps_orCur p) fun _ => ?_)
  refine keeps_bind (keeps_key_modTcb fun _ => rfl) fun _ => keeps_bind (keeps_key_modTcb fun _ => rfl) fun _ => ?_
  exact keeps_pure _

theorem keeps_osTaskSemSet (p : Option TcbId) (cnt : ℕ) : Keeps OS.key (osTaskSemSet p cnt) := by
  refine keeps_bind keeps_get fun _ => keeps_ite (keeps_pure _) (keeps_bind (keeps_orCur p) fun _ => ?_)
  refine keeps_bind (keeps_getTcb _) fun _ => keeps_bind (keeps_key_modTcb fun _ => rfl) fun _ => ?_
  exact keeps_pure _

theorem keeps_osTaskQFlush (p : Option TcbId) : Keeps OS.key (osTaskQFlush p) := by
  refine keeps_bind keeps_get fun _ => keeps_ite (keeps_pure _) (keeps_bind (keeps_orCur p) fun _ => ?_)
  refine keeps_bind (keeps_getTcb _) fun _ => keeps_bind (keeps_msgQFreeAll _) fun _ => ?_
  exact keeps_bind (keeps_key_modTcb fun _ => rfl) fun _ => keeps_pure _

theorem pendTail_sim {c : Call} {k : Cont} {kind : PendOn} {r₁ r₂ : Ret} (H : Ready cfg s a) (hrun : a.running = true)
    (h₁ : Rep cfg s₁ a) (hint : ¬ s.intNestingCtr > 0) (hc : ∀ r, ¬ Counts (.call c) r) (hstop : c.stops none)
    (hkind : kind ≠ .nothing ∧ kind ≠ .mutex ∧ kind ≠ .multi ∧ kind ≠ .flag) (ho : o ≠ none ↔ kind.onObject = true)
    (hacc : ∀ x ∈ o, kind.accepts (a.obj x).type = true) (hk : ∀ o, k ≠ .mutexPend o) (opt : Opt) (timeout : Tick) :
    wp n cfg (do
      if opt &&& optPendNonBlocking ≠ 0 then return some r₁
      if s.schedLockNestingCtr > 0 then return some r₂
      pend o kind timeout
      waitThen k) (Sim cfg s a (.call c)) s₁ := by
  rw [wp_ite]
  refine ⟨fun _ => wp_pure.mpr (.calm h₁ (hc _)), fun _ => ?_⟩
  rw [wp_ite]
  refine ⟨fun _ => wp_pure.mpr (.calm h₁ (hc _)), fun hlock => ?_⟩
  obtain ⟨t, hcur, hs⟩ := H.running_cur hrun hlock
  refine pend_sim h₁ H.sound .refl (t := t) ?_ (hc _) hk timeout
  exact ⟨H.mayStop hint hlock hcur hs hstop, hkind.1, hkind.2.1, hkind.2.2.1, ho, hacc, fun h => absurd h hkind.2.2.2⟩

theorem osTaskSemPend_sim (H : Ready cfg s a) (hrun : a.running = true) (timeout : Tick) (opt : Opt) :
    wp n cfg (Call.taskSemPend timeout opt).exec (Sim cfg s a (.call (.taskSemPend timeout opt))) s := by
  rw [Call.exec, osTaskSemPend, wp_bind, wp_get, wp_ite]
  refine ⟨fun _ => wp_pure.mpr (.calm H.rep id), fun hint => ?_⟩
  rw [wp_ite]
  refine ⟨fun _ => wp_pure.mpr (.calm H.rep id), fun _ => ?_⟩
  rw [wp_bind, wp_getCur]
  intro t _
  rw [wp_bind, wp_getTcb, wp_ite]
  constructor
  · intro _
    rw [wp_bind, wp_modTcb]
    exact wp_pure.mpr (.calm (H.rep.of_key (OS.key_modTcb fun _ => rfl)) id)
  · intro _
    exact pendTail_sim H hrun H.rep hint (fun _ => id) (by exact rfl) (by simp) (by simp [PendOn.onObject]) (by simp) (by simp)
      opt timeout

theorem osTaskQPend_sim (H : Ready cfg s a) (hrun : a.running = true) (timeout : Tick) (opt : Opt) (hasSize : Bool) :
    wp n cfg (Call.taskQPend timeout opt hasSize).exec (Sim cfg s a (.call (.taskQPend timeout opt hasSize))) s := by
  rw [Call.exec, osTaskQPend, wp_bind, wp_get, wp_ite]
  refine ⟨fun _ => wp_pure.mpr (.calm H.rep id), fun hint => ?_⟩
  rw [wp_ite]
  refine ⟨fun _ => wp_pure.mpr (.calm H.rep id), fun _ => ?_⟩
  rw [wp_ite]
  refine ⟨fun _ => wp_pure.mpr (.calm H.rep id), fun _ => ?_⟩
  rw [wp_bind, wp_getCur]
  intro t _
  rw [wp_bind, wp_getTcb]
  refine quiet_then H.rep (keeps_msgQGet _) fun x s₁ h₁ => ?_
  refine quiet_then h₁ (keeps_key_modTcb fun _ => rfl) fun _ s₂ h₂ => ?_
  rw [wp_ite]
  constructor
  · intro _
    exact wp_pure.mpr (.calm h₂ id)
  · intro _
    exact pendTail_sim H hrun h₂ hint (fun _ => id) (by exact rfl) (by simp) (by simp [PendOn.onObject]) (by simp) (by simp)
      opt timeout

theorem Abs.Sound.table_own (hI : a.Sound cfg) (hk : (a.task t).pendOn = .taskSem ∨ (a.task t).pendOn = .taskQ) :
    (a.task t).table = [] := by
  have := hI.wait.table_iff t
  rcases hk with hk | hk <;> simpa [hk, PendOn.onObject] using this

theorem taskPendAbort_sim {c : Call} {kind : PendOn} {r₁ : Ret} {opt : Opt} {p : Option TcbId} (H : Ready cfg s a)
    (hrun : a.running = true) (hc : ∀ r, ¬ Counts (.call c) r) (hkind : kind = .taskSem ∨ kind = .taskQ)
    (hno : opt &&& optPostNoSched ≠ 0 → c.noSched = true) :
    wp n cfg (do
      let t ← Prog.deref p
      if (← getTcb t).pendOn ≠ kind then return ({ err := .pendAbortNone } : Ret)
      pendAbort none t s.tsNow
      schedOpt opt
      return r₁) (fun x s' => Sim cfg s a (.call c) (some x) s') s := by
  rw [wp_bind, wp_deref]
  intro t _
  rw [wp_bind, wp_getTcb, H.rep.pendOn, wp_ite]
  refine ⟨fun _ => wp_pure.mpr (.calm H.rep (hc _)), fun hk => ?_⟩
  rw [not_not] at hk
  rw [wp_bind]
  refine (pendAbort_spec H.rep H.sound (fun _ => H.sound.table_own (hk ▸ hkind)) s.tsNow).mono fun _ s₁ h₁ => ?_
  rw [wp_bind]
  refine (schedOpt_sim h₁ hrun (.one (x := .wake t .abort) trivial ?_ H.rep.nodup) (hc _) hno).mono
    fun _ _ h => wp_pure.mpr h
  change (a.task t).pendOn ≠ .mutex
  rcases hkind with h | h <;> simp [hk, h]

theorem osTaskSemPendAbort_sim (H : Ready cfg s a) (hrun : a.running = true) (p : Option TcbId) (opt : Opt) :
    wp n cfg (Call.taskSemPendAbort p opt).exec (Sim cfg s a (.call (.taskSemPendAbort p opt))) s := by
  rw [Call.exec, wp_always, osTaskSemPendAbort, wp_bind, wp_get, wp_ite]
  refine ⟨fun _ => wp_pure.mpr (.calm H.rep id), fun hint => ?_⟩
  rw [wp_ite]
  refine ⟨fun _ => wp_pure.mpr (.calm H.rep id), fun _ => ?_⟩
  rw [wp_ite]
  refine ⟨fun _ => wp_pure.mpr (.calm H.rep id), fun _ => ?_⟩
  exact taskPendAbort_sim H hrun (fun _ => id) (.inl rfl) fun h => by simpa [Call.noSched] using h

theorem osTaskQPendAbort_sim (H : Ready cfg s a) (hrun : a.running = true) (p : Option TcbId) (opt : Opt) :
    wp n cfg (Call.taskQPendAbort p opt).exec (Sim cfg s a (.call (.taskQPendAbort p opt))) s := by
  rw [Call.exec, wp_always, osTaskQPendAbort, wp_bind, wp_get, wp_ite]
  refine ⟨fun _ => wp_pure.mpr (.calm H.rep id), fun hint => ?_⟩
  rw [wp_ite]
  refine ⟨fun _ => wp_pure.mpr (.calm H.rep id), fun _ => ?_⟩
  rw [wp_ite]
  refine ⟨fun _ => wp_pure.mpr (.calm H.rep id), fun _ => ?_⟩
  exact taskPendAbort_sim H hrun (fun _ => id) (.inr rfl) fun h => by simpa [Call.noSched] using h

def Posted (a : Abs) (opt : Opt) (a' : Abs) : Prop :=
  a' = a ∨ ∃ t, (a.task t).pendOn ≠ .mutex ∧
    if opt &&& optPostNoSched = 0 then (a.wake t .ok).Sched a' else a' = a.wake t .ok

theorem Posted.sim {opt : Opt} {c : Call} {a' : Abs} (H : Ready cfg s a) (hrun : a.running = true) (h : Rep cfg s' a')
    (hp : Posted a opt a') (hc : ¬ Counts (.call c) r) (hno : opt &&& optPostNoSched ≠ 0 → c.noSched = true) :
    Sim cfg s a (.call c) r s' := by
  obtain rfl | ⟨t, hk, hs⟩ := hp
  · exact .calm h hc
  · have hacts : ∀ E, a.Acts E Act.Wakes (a.wake t .ok) := fun E => .one (x := .wake t .ok) trivial hk H.rep.nodup
    refine ⟨a', h, ?_⟩
    split at hs
    · exact .sched hc hrun (hacts _).any hs
    · subst hs
      exact .acts hc (hacts _) (.inr (.inl (hno ‹_›)))

theorem schedPosted_spec {opt : Opt} {α : Type} {x : α} (h : Rep cfg s₁ (a.wake t .ok)) (hk : (a.task t).pendOn ≠ .mutex) :
    wp n cfg (do schedOpt opt; return x) (fun _ s' => ∃ a', Rep cfg s' a' ∧ Posted a opt a') s₁ := by
  rw [wp_bind]
  refine (schedOpt_spec h opt).mono ?_
  rintro _ s' ⟨a', h', hs⟩
  exact wp_pure.mpr ⟨a', h', .inr ⟨t, hk, hs⟩⟩

theorem keeps_taskSemInc (t : TcbId) : Keeps OS.key (taskSemInc t) := by
  refine keeps_bind (keeps_getTcb t) fun c => keeps_ite (keeps_pure _) ?_
  exact keeps_bind (keeps_key_modTcb fun _ => rfl) fun _ => keeps_pure _

theorem taskSemPost_spec (h : Rep cfg s a) (hI : a.Sound cfg) (p : Option TcbId) (opt : Opt) (ts : ℕ) :
    wp n cfg (taskSemPost p opt ts) (fun _ s' => ∃ a', Rep cfg s' a' ∧ Posted a opt a') s := by
  rw [taskSemPost, wp_bind, wp_orCur h]
  intro t _
  refine quiet_then h (keeps_key_modTcb fun _ => rfl) fun _ s₁ h₁ => ?_
  have hinc : wp n cfg (taskSemInc t) (fun _ s' => ∃ a', Rep cfg s' a' ∧ Posted a opt a') s₁ :=
    (keeps_taskSemInc t n cfg s₁).mono fun _ _ e => ⟨a, h₁.of_key e, .inl rfl⟩
  rw [wp_bind, wp_getTcb, h₁.state, h₁.pendOn]
  cases hs : (a.task t).state with
  | rdy | dly | suspended | dlySuspended => exact hinc
  | pend | pendTimeout | pendSuspended | pendTimeoutSuspended =>
    rw [wp_ite]
    refine ⟨fun hk => ?_, fun _ => hinc⟩
    rw [wp_bind]
    refine (post_spec h₁ hI (fun _ => hI.table_own (.inl hk)) none 0 ts).mono fun _ s₂ h₂ => ?_
    rw [wp_bind, wp_getTcb]
    exact schedPosted_spec h₂ (by simp [hk])
  | del => exact wp_pure.mpr ⟨a, h₁, .inl rfl⟩

theorem keeps_taskQPut (t : TcbId) (pVoid : Option ℕ) (msgSize : ℕ) (opt : Opt) (ts : ℕ) :
    Keeps OS.key (taskQPut t pVoid msgSize opt ts) := by
  refine keeps_bind (keeps_getTcb t) fun c => keeps_bind (keeps_msgQPut _ _ _ _ _) fun x => ?_
  exact keeps_bind (keeps_key_modTcb fun _ => rfl) fun _ => keeps_pure _

theorem taskQPost_spec (h : Rep cfg s a) (hI : a.Sound cfg) (p : Option TcbId) (pVoid : Option ℕ) (msgSize : ℕ)
    (opt : Opt) (ts : ℕ) :
    wp n cfg (taskQPost p pVoid msgSize opt ts) (fun _ s' => ∃ a', Rep cfg s' a' ∧ Posted a opt a') s := by
  rw [taskQPost, wp_bind, wp_orCur h]
  intro t _
  have hput : wp n cfg (taskQPut t pVoid msgSize opt ts) (fun _ s' => ∃ a', Rep cfg s' a' ∧ Posted a opt a') s :=
    (keeps_taskQPut t pVoid msgSize opt ts n cfg s).mono fun _ _ e => ⟨a, h.of_key e, .inl rfl⟩
  rw [wp_bind, wp_getTcb, h.state, h.pendOn]
  cases hs : (a.task t).state with
  | rdy | dly | suspended | dlySuspended => exact hput
  | pend | pendTimeout | pendSuspended | pendTimeoutSuspended =>
    rw [wp_ite]
    refine ⟨fun hk => ?_, fun _ => hput⟩
    rw [wp_bind]
    refine (post_spec h hI (fun _ => hI.table_own (.inr hk)) pVoid msgSize ts).mono fun _ s₂ h₂ => ?_
    exact schedPosted_spec h₂ (by simp [hk])
  | del => exact wp_pure.mpr ⟨a, h, .inl rfl⟩

theorem osTaskSemPost_sim (H : Ready cfg s a) (hrun : a.running = true) (p : Option TcbId) (opt : Opt) :
    wp n cfg (Call.taskSemPost p opt).exec (Sim cfg s a (.call (.taskSemPost p opt))) s := by
  rw [Call.exec, wp_always, osTaskSemPost, wp_ite]
  refine ⟨fun _ => wp_pure.mpr (.calm H.rep id), fun _ => ?_⟩
  rw [wp_bind, wp_tsGet]
  refine (taskSemPost_spec H.rep H.sound p opt s.tsNow).mono ?_
  rintro _ s' ⟨a', h', hp⟩
  exact hp.sim H hrun h' id fun h => by simpa [Call.noSched] using h

theorem osTaskQPost_sim (H : Ready cfg s a) (hrun : a.running = true) (p : Option TcbId) (pVoid : Option ℕ)
    (msgSize : ℕ) (opt : Opt) :
    wp n cfg (Call.taskQPost p pVoid msgSize opt).exec (Sim cfg s a (.call (.taskQPost p pVoid msgSize opt))) s := by
  rw [Call.exec, wp_errOnly, osTaskQPost, wp_ite]
  refine ⟨fun _ => wp_pure.mpr (.calm H.rep id), fun _ => ?_⟩
  rw [wp_bind, wp_tsGet]
  refine (taskQPost_spec H.rep H.sound p pVoid msgSize opt s.tsNow).mono ?_
  rintro _ s' ⟨a', h', hp⟩
  exact hp.sim H hrun h' id fun h => by simpa [Call.noSched] using h

end tasks

section time

theorem tickMatch_none {c : TCB} {now time : Tick} {opt : Opt} (h : tickMatch c now time opt = none)
    (hpos : opt ≠ optTimeMatch → time > 0) : opt = optTimeMatch ∧ time - now - 1 > tickThRdy := by
  unfold tickMatch at h
  split at h
  · refine ⟨‹_›, ?_⟩
    by_contra hle
    simp at h
    exact hle h
  · rw [if_pos (hpos ‹_›)] at h
    split at h <;> cases h

theorem timeDly_sim {c : Call} {dly : Tick} {opt : Opt} (H : Ready cfg s a) (hrun : a.running = true)
    (hint : ¬ s.intNestingCtr > 0) (hlock : ¬ s.schedLockNestingCtr > 0) (hc : ∀ r, ¬ Counts (.call c) r)
    (hstop : c.stops (some { err := .none }))
    (hpass : ∀ tcb : TCB, tickMatch tcb s.tickCtr dly opt = none → PassedMatch cfg s (.call c)) :
    wp n cfg (timeDly dly opt) (fun x s' => Sim cfg s a (.call c) (some { err := x }) s') s := by
  obtain ⟨t, hcur, hs⟩ := H.running_cur hrun hlock
  rw [timeDly, wp_bind, wp_getCur, ← H.rep.cur, hcur]
  rintro _ ⟨⟩
  rw [wp_bind, wp_modTcb]
  have h₁ : Rep cfg (s.modTcb t fun c => { c with taskState := .dly }) (a.modTask t fun c => { c with state := .dly }) :=
    H.rep.modTcb rfl rfl
  rw [wp_bind]
  refine (tickListInsert_spec h₁ dly opt).mono ?_
  rintro x s₂ ⟨hrep, hx⟩
  rw [wp_ite]
  constructor
  · intro hne
    rcases hrep with ⟨rfl, -⟩ | ⟨-, h₂⟩
    · exact absurd rfl hne
    · exact wp_pure.mpr ⟨_, h₂, .refuse (hc _) hcur hs (hpass _ (not_not.mp fun hn => hne (hx.mpr hn)))⟩
  · intro he
    have h₂ := (hrep.resolve_right fun h' => he h'.1).2
    rw [wp_bind]
    refine (rdyListRemove_spec h₂ ?_).mono fun _ s₃ h₃ => ?_
    · change t ∈ a.ready ((a.modTask t fun c => { c with state := .dly }).task t).prio
      rw [Abs.task_modTask, if_pos rfl]
      exact (H.sound.ready t _).mpr ⟨hs, rfl⟩
    · rw [wp_bind]
      have hv : (Act.delay t).Valid (env s (.call c) (some { err := .none })) a := H.mayStop hint hlock hcur hs hstop
      refine (osSched_sim (b := a.delay t) h₃ hrun (.one (x := .delay t) trivial hv H.rep.nodup) (hc _)).mono
        fun _ _ h => wp_pure.mpr h

theorem osTimeDly_sim (H : Ready cfg s a) (hrun : a.running = true) (dly : Tick) (opt : Opt) :
    wp n cfg (Call.timeDly dly opt).exec (Sim cfg s a (.call (.timeDly dly opt))) s := by
  rw [Call.exec, wp_errOnly, osTimeDly, wp_bind, wp_get, wp_ite]
  refine ⟨fun _ => wp_pure.mpr (.calm H.rep id), fun hint => ?_⟩
  rw [wp_ite]
  refine ⟨fun _ => wp_pure.mpr (.calm H.rep id), fun hlock => ?_⟩
  rw [wp_ite]
  refine ⟨fun _ => wp_pure.mpr (.calm H.rep id), fun hzero => ?_⟩
  rw [wp_ite]
  refine ⟨fun _ => wp_pure.mpr (.calm H.rep id), fun hopt => ?_⟩
  refine timeDly_sim H hrun hint hlock (fun _ => id) ⟨_, rfl, rfl⟩ fun tcb hm => ?_
  refine ⟨by omega, by omega, tickMatch_none hm fun hne => (BitVec.pos_iff_ne_zero _).mpr fun hz => ?_⟩
  exact hzero ⟨by simpa [hne] using hopt, hz⟩

theorem osTimeDlyHMSM_sim (H : Ready cfg s a) (hrun : a.running = true) (x : HMSM) (opt : Opt) :
    wp n cfg (Call.timeDlyHMSM x opt).exec (Sim cfg s a (.call (.timeDlyHMSM x opt))) s := by
  rw [Call.exec, wp_errOnly, osTimeDlyHMSM, wp_bind, wp_get, wp_ite]
  refine ⟨fun _ => wp_pure.mpr (.calm H.rep id), fun hint => ?_⟩
  rw [wp_ite]
  refine ⟨fun _ => wp_pure.mpr (.calm H.rep id), fun hlock => ?_⟩
  cases hchk : hmsmCheck x opt with
  | some _ => exact wp_pure.mpr (.calm H.rep id)
  | none =>
    rw [wp_bind, wp_ask]
    dsimp only
    rw [wp_ite]
    refine ⟨fun hpos => ?_, fun _ => wp_pure.mpr (.calm H.rep id)⟩
    refine timeDly_sim H hrun hint hlock (fun _ => id) ⟨_, rfl, rfl⟩ fun tcb hm => ?_
    obtain ⟨hmatch, hpassed⟩ := tickMatch_none hm fun _ => hpos
    exact ⟨by omega, by omega, hchk, hmatch, hpos, hpassed⟩

theorem osTimeSet_sim (H : Ready cfg s a) (ticks : Tick) :
    wp n cfg (Call.timeSet ticks).exec (Sim cfg s a (.call (.timeSet ticks))) s :=
  quiet_sim H (keeps_errOnly (keeps_bind (keeps_modify fun _ => rfl) fun _ => keeps_pure _)) fun _ => id

theorem keeps_loadTimeQuanta (p : ℕ) : Keeps OS.key (loadTimeQuanta p) := by
  refine keeps_bind (keeps_getRdyList p) fun _ => keeps_bind (keeps_deref _) fun t => keeps_bind keeps_get fun _ => ?_
  exact keeps_key_modTcb fun _ => rfl

theorem schedRoundRobin_spec (h : Rep cfg s a) (p : ℕ) :
    wp n cfg (schedRoundRobin p) (fun _ s' => Rep cfg s' a ∨ Rep cfg s' (a.rotate p)) s := by
  rw [schedRoundRobin, wp_bind, wp_get, wp_ite]
  refine ⟨fun _ => wp_pure.mpr (.inl h), fun _ => ?_⟩
  rw [wp_bind, wp_getRdyList]
  intro hp
  cases (s.rdyList p).headPtr with
  | none => exact wp_pure.mpr (.inl h)
  | some t =>
    rw [wp_ite]
    refine ⟨fun _ => wp_pure.mpr (.inl h), fun _ => ?_⟩
    rw [wp_bind, wp_getTcb]
    refine quiet_ite (c := (s.tcb t).timeQuantaCtr > 0) h ?_ (keeps_pure ()) fun _ s₁ h₁ => ?_
    · exact keeps_key_modTcb fun _ => rfl
    rw [wp_bind, wp_getTcb, wp_ite]
    refine ⟨fun _ => wp_pure.mpr (.inl h₁), fun _ => ?_⟩
    rw [wp_ite]
    refine ⟨fun _ => wp_pure.mpr (.inl h₁), fun _ => ?_⟩
    rw [wp_ite]
    refine ⟨fun _ => wp_pure.mpr (.inl h₁), fun _ => ?_⟩
    rw [wp_bind]
    refine (rdyListMoveHeadToTail_spec h₁ p).mono fun _ s₂ h₂ => ?_
    exact (keeps_loadTimeQuanta p n cfg s₂).mono fun _ _ e => .inr (h₂.of_key e)

theorem osSchedRoundRobinYield_sim (H : Ready cfg s a) (hrun : a.running = true) :
    wp n cfg Call.schedRoundRobinYield.exec (Sim cfg s a (.call .schedRoundRobinYield)) s := by
  rw [Call.exec, wp_errOnly, osSchedRoundRobinYield, wp_bind, wp_get, wp_ite]
  refine ⟨fun _ => wp_pure.mpr (.calm H.rep id), fun hint => ?_⟩
  rw [wp_ite]
  refine ⟨fun _ => wp_pure.mpr (.calm H.rep id), fun hlock => ?_⟩
  rw [wp_ite]
  refine ⟨fun _ => wp_pure.mpr (.calm H.rep id), fun _ => ?_⟩
  rw [wp_bind, wp_getRdyList]
  intro hp
  rw [wp_ite]
  refine ⟨fun _ => wp_pure.mpr (.calm H.rep id), fun _ => ?_⟩
  rw [wp_bind]
  refine (rdyListMoveHeadToTail_spec H.rep s.prioCur).mono fun _ s₂ h₂ => ?_
  refine quiet_then h₂ (keeps_loadTimeQuanta s.prioCur) fun _ s₃ h₃ => ?_
  rw [wp_bind]
  refine (osSched_sim (b := a.rotate s.prioCur) h₃ hrun (.one (x := .rotate s.prioCur) trivial trivial H.rep.nodup) id).mono
    fun _ _ h => wp_pure.mpr h

theorem Posted.acts {opt : Opt} {a' : Abs} (hp : Posted a opt a') (hint : 0 < a.intNesting) (hnd : ∀ p, (a.ready p).Nodup) :
    a.Acts .plain Act.Wakes a' := by
  obtain rfl | ⟨t, hk, hs⟩ := hp
  · exact .refl
  · have hacts : a.Acts .plain Act.Wakes (a.wake t .ok) := .one (x := .wake t .ok) trivial hk hnd
    have ha' : a' = a.wake t .ok := by
      split at hs
      · obtain ⟨-, h⟩ | ⟨-, h⟩ | ⟨h, -⟩ := hs
        · exact h
        · exact h
        · rw [hacts.intNesting] at h
          omega
      · exact hs
    rwa [ha']

theorem osTaskSemPost_acts (h : Rep cfg s a) (hI : a.Sound cfg) (hint : 0 < a.intNesting) (p : Option TcbId) (opt : Opt) :
    wp n cfg (osTaskSemPost p opt) (fun _ s' => ∃ a', Rep cfg s' a' ∧ a.Acts .plain Act.Wakes a') s := by
  rw [osTaskSemPost, wp_ite]
  refine ⟨fun _ => wp_pure.mpr ⟨a, h, .refl⟩, fun _ => ?_⟩
  rw [wp_bind, wp_tsGet]
  refine (taskSemPost_spec h hI p opt s.tsNow).mono ?_
  rintro _ s' ⟨a', h', hp⟩
  exact ⟨a', h', hp.acts hint h.nodup⟩

theorem Abs.Acts.trans {E : Env} {S : Act → Prop} {c : Abs} (h : a.Acts E S b) (h' : b.Acts E S c) : a.Acts E S c := by
  induction h' with
  | refl => exact h
  | snoc _ hS hv hnd ih => exact .snoc ih hS hv hnd

theorem osTimeTick_acts (h : Rep cfg s a) (hI : a.Sound cfg) (hint : 0 < a.intNesting) :
    wp n cfg osTimeTick (fun _ s' => ∃ a', Rep cfg s' a' ∧ a.Acts .plain Act.Wakes a') s := by
  rw [osTimeTick, wp_bind]
  refine (osTaskSemPost_acts h hI hint _ _).mono ?_
  rintro _ s₁ ⟨a₁, h₁, hacts₁⟩
  rw [wp_bind, wp_get, wp_bind]
  refine (schedRoundRobin_spec h₁ s₁.prioCur).mono fun _ s₂ h₂ => ?_
  obtain ⟨a₂, h₂, hacts₂⟩ : ∃ a₂, Rep cfg s₂ a₂ ∧ a₁.Acts .plain Act.Wakes a₂ := by
    rcases h₂ with h₂ | h₂
    · exact ⟨_, h₂, .refl⟩
    · exact ⟨_, h₂, .one (x := .rotate s₁.prioCur) trivial trivial h₁.nodup⟩
  replace hacts₂ := hacts₁.trans hacts₂
  refine quiet_then h₂ (keeps_modify fun _ => rfl) fun _ s₃ h₃ => ?_
  rw [wp_bind, wp_get, wp_ite]
  refine ⟨fun _ => ?_, fun _ => wp_pure.mpr ⟨_, h₃, hacts₂⟩⟩
  refine quiet_then h₃ (keeps_modify fun _ => rfl) fun _ s₄ h₄ => ?_
  rw [wp_bind]
  refine (osTaskSemPost_acts h₄ (hI.acts hacts₂) (by rw [hacts₂.intNesting]; exact hint) _ _).mono ?_
  rintro _ s₅ ⟨a₅, h₅, hacts₅⟩
  exact wp_pure.mpr ⟨_, h₅, hacts₂.trans hacts₅⟩

theorem osTimeTick_sim (H : Ready cfg s a) (hint : 0 < a.intNesting) :
    wp n cfg Event.timeTick.exec (Sim cfg s a .timeTick) s := by
  rw [Event.exec, wp_noAnswer]
  refine (osTimeTick_acts H.rep H.sound hint).mono ?_
  rintro _ s' ⟨a', h', hacts⟩
  exact ⟨_, h', .acts id hacts.of_plain (.inl hint)⟩

theorem tickListUpdate_sim (H : Ready cfg s a) : wp n cfg Event.tickUpdate.exec (Sim cfg s a .tickUpdate) s := by
  rw [Event.exec, wp_noAnswer, tickListUpdate, wp_bind, wp_modify]
  have h₁ : Rep cfg { s with tickCtr := s.tickCtr + 1 } a := H.rep.of_key rfl
  generalize ({ s with tickCtr := s.tickCtr + 1 } : OS) = s₁ at h₁
  rw [wp_bind, wp_get, wp_bind, wp_ask, wp_bind, wp_getSpoke]
  refine (wp_loop (fun _ s' => ∃ a', Rep cfg s' a' ∧ a.Acts .plain Act.Wakes a') (Q := fun _ s' =>
    ∃ a', Rep cfg s' a' ∧ a.Acts .plain Act.Wakes a') ?_ ⟨a, h₁, .refl⟩).mono ?_
  · rintro p s₂ ⟨a₂, h₂, hacts⟩
    cases p with
    | none => exact wp_pure.mpr ⟨a₂, h₂, hacts⟩
    | some t =>
      rw [tickListUpdateStep, wp_bind, wp_getTcb, wp_bind]
      refine (tickListExpire_spec h₂ (H.sound.acts hacts)).mono fun x s₃ h₃ => ?_
      have hstep : ∃ a', Rep cfg s₃ a' ∧ a.Acts .plain Act.Wakes a' := by
        rcases h₃ with h₃ | h₃
        · exact ⟨_, h₃, hacts⟩
        · exact ⟨_, h₃, hacts.snoc (x := .expire t) trivial trivial h₂.nodup⟩
      rw [wp_ite]
      exact ⟨fun _ => wp_pure.mpr hstep, fun _ => wp_pure.mpr hstep⟩
  · rintro _ s' ⟨a', h', hacts⟩
    exact ⟨a', h', .acts id hacts.of_plain (.inr (.inr rfl))⟩

end time

section scheduler

theorem osSchedLock_sim (H : Ready cfg s a) (hrun : a.running = true) :
    wp n cfg Call.schedLock.exec (Sim cfg s a (.call .schedLock)) s := by
  simp only [Call.exec, wp_errOnly, osSchedLock, wp_bind, wp_get, wp_ite, wp_pure, wp_modify]
  refine ⟨fun _ => .calm H.rep (by simp [Counts]), fun hint => ⟨fun _ => .calm H.rep (by simp [Counts]), fun _ =>
    ⟨fun _ => .calm H.rep (by simp [Counts]), fun hlock => ?_⟩⟩⟩
  have h₁ : Rep cfg { s with schedLockNestingCtr := s.schedLockNestingCtr + 1 } { a with lockNesting := a.lockNesting + 1 } :=
    H.rep.of_globals rfl rfl (congrArg (fun x : Abs => { x with lockNesting := x.lockNesting + 1 }) H.rep.globals_eq :)
  refine ⟨_, h₁, .lock hrun (H.int_eq hint) ?_⟩
  rw [H.rep.lockNesting]
  omega

theorem osSchedUnlock_sim (H : Ready cfg s a) : wp n cfg Call.schedUnlock.exec (Sim cfg s a (.call .schedUnlock)) s := by
  simp only [Call.exec, wp_errOnly, osSchedUnlock, wp_bind, wp_get, wp_ite, wp_pure, wp_modify]
  refine ⟨fun _ => .calm H.rep (by simp [Counts]), fun hint => ⟨fun _ => .calm H.rep (by simp [Counts]), fun _ =>
    ⟨fun _ => .calm H.rep (by simp [Counts]), fun hlock => ?_⟩⟩⟩
  have h₁ : Rep cfg { s with schedLockNestingCtr := s.schedLockNestingCtr - 1 } { a with lockNesting := a.lockNesting - 1 } :=
    H.rep.of_globals rfl rfl (congrArg (fun x : Abs => { x with lockNesting := x.lockNesting - 1 }) H.rep.globals_eq :)
  have hctr := H.rep.lockNesting
  have hpos : 0 < a.lockNesting := by omega
  constructor
  · intro hl
    refine ⟨_, h₁, .unlock (H.int_eq hint) hpos ?_ (.inr (.inl ⟨?_, rfl⟩))⟩
    · rw [hctr, if_pos hl]
    · change 0 < a.lockNesting - 1
      omega
  · intro hl
    refine (osSched_spec h₁).mono ?_
    rintro _ s' ⟨a', h', hs⟩
    refine wp_pure.mpr ⟨a', h', .unlock (H.int_eq hint) hpos ?_ hs⟩
    rw [hctr, if_neg hl]

theorem osIntEnter_sim (H : Ready cfg s a) (hrun : a.running = true) :
    wp n cfg Event.intEnter.exec (Sim cfg s a .intEnter) s := by
  simp only [Event.exec, wp_noAnswer, osIntEnter, wp_bind, wp_get, wp_ite, wp_pure, wp_modify]
  refine ⟨fun _ => .calm H.rep id, fun _ => ⟨fun _ => .calm H.rep id, fun _ => ?_⟩⟩
  have h₁ : Rep cfg { s with intNestingCtr := s.intNestingCtr + 1 } { a with intNesting := a.intNesting + 1 } :=
    H.rep.of_globals rfl rfl (congrArg (fun x : Abs => { x with intNesting := x.intNesting + 1 }) H.rep.globals_eq :)
  exact ⟨_, h₁, .intEnter hrun⟩

theorem osIntExit_sim (H : Ready cfg s a) : wp n cfg Event.intExit.exec (Sim cfg s a .intExit) s := by
  simp only [Event.exec, wp_noAnswer, osIntExit, wp_bind, wp_get, wp_ite, wp_pure, wp_modify]
  refine ⟨fun _ => .calm H.rep id, fun _ => ⟨fun _ => .calm H.rep id, fun hint => ?_⟩⟩
  have h₁ : Rep cfg { s with intNestingCtr := s.intNestingCtr - 1 } { a with intNesting := a.intNesting - 1 } :=
    H.rep.of_globals rfl rfl (congrArg (fun x : Abs => { x with intNesting := x.intNesting - 1 }) H.rep.globals_eq :)
  have hint' := H.rep.intNesting
  have hlock' := H.rep.lockNesting
  have hpos : 0 < a.intNesting := by omega
  refine ⟨fun hi => ⟨_, h₁, .intExit hpos (.inl ⟨?_, rfl⟩)⟩, fun hi => ⟨fun hl => ⟨_, h₁, .intExit hpos (.inr (.inl ⟨?_, rfl⟩))⟩,
    fun hl => ?_⟩⟩
  · change 0 < a.intNesting - 1
    omega
  · change 0 < a.lockNesting
    omega
  · refine (reschedule_spec h₁).mono ?_
    rintro _ s' ⟨a', h', hs⟩
    refine ⟨a', h', .intExit hpos (.inr (.inr ⟨?_, ?_, hs⟩))⟩
    · change a.intNesting - 1 = 0
      omega
    · change a.lockNesting = 0
      omega

theorem osStart_sim (H : Ready cfg s a) : wp n cfg Event.start.exec (Sim cfg s a .start) s := by
  rw [Event.exec, wp_errOnly, osStart, wp_bind, wp_get, wp_ite]
  refine ⟨fun _ => wp_pure.mpr (.calm H.rep id), fun hrun => ?_⟩
  rw [wp_bind]
  refine (prioGetHighest_spec H.rep.rdy).mono ?_
  rintro p s₁ ⟨hs, hbest⟩
  subst hs
  rw [wp_bind, wp_getRdyList]
  intro hp
  obtain ⟨t, ht⟩ : ∃ t, (a.ready p).head? = some t := ⟨_, List.head?_eq_some_head hbest.1⟩
  rw [H.rep.head hp, ht, wp_bind, wp_modify]
  have hstop : a.running = false := by
    rw [H.rep.running]
    simpa using hrun
  refine wp_pure.mpr ⟨_, ?_, .start hstop ⟨ht, hbest.2⟩⟩
  refine H.rep.of_globals rfl rfl ?_
  exact (congrArg (fun x : Abs => { x with cur := some t, prioCur := p, running := true }) H.rep.globals_eq :)

end scheduler

end UcosIII
