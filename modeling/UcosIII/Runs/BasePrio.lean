import UcosIII.Runs.Inheritance

namespace UcosIII

open Prog

variable {cfg : Cfg} {s s' : OS} {a a' b : Abs} {h : List Step} {t w : TcbId} {o : ObjId} {d : PdId} {e : Event}
  {r : Option Ret} {E : Env} {S : Act → Prop} {base : TcbId → ℕ}

section base

def kernelPrio (cfg : Cfg) (t : TcbId) : ℕ :=
  if t = tmrTaskTCB then cfg.tmrTaskPrio
  else if t = statTaskTCB then cfg.statTaskPrio
  else if t = tickTaskTCB then cfg.tickTaskPrio
  else if t = idleTaskTCB then cfg.prioMax - 1
  else cfg.prioMax

def givenPrio (t : TcbId) (x : Step) : Option ℕ :=
  match x.event, x.ret with
  | .call (.taskCreate args), some r => if r.err = .none ∧ args.tcb = some t then some args.prio else none
  | .call (.taskChangePrio p q), some r =>
    if r.err = .none ∧ (p = some t ∨ p = none ∧ x.pre.tcbCurPtr = some t) then some q else none
  | _, _ => none

def basePrio (cfg : Cfg) : List Step → TcbId → ℕ
  | [], t => kernelPrio cfg t
  | x :: h, t => (givenPrio t x).getD (basePrio cfg h t)

theorem givenPrio_eq_none (hc : ¬ Counts e r) : givenPrio t ⟨s, e, r⟩ = none := by
  unfold givenPrio
  split
  · rename_i he hr
    dsimp only at he hr
    subst he hr
    exact if_neg fun h => hc h.1
  · rename_i he hr
    dsimp only at he hr
    subst he hr
    exact if_neg fun h => hc h.1
  · rfl

theorem basePrio_cons (hg : givenPrio t ⟨s, e, r⟩ = none) : basePrio cfg (⟨s, e, r⟩ :: h) t = basePrio cfg h t := by
  rw [basePrio, hg]
  rfl

end base

section conditions

def Owns (s : OS) (t : TcbId) (o : ObjId) : Prop := (s.obj o).type = .mutex ∧ (s.obj o).ownerTCBPtr = some t

instance (s : OS) (t : TcbId) (o : ObjId) : Decidable (Owns s t o) := inferInstanceAs (Decidable (_ ∧ _))

/-- The post gives back the last mutex of a task without giving it its base priority: without tasks that wait,
it keeps the one it has; otherwise it is given the one saved. -/
def PostForgets (base : TcbId → ℕ) (s : OS) (o : ObjId) (opt : Opt) : Prop :=
  s.intNestingCtr = 0 ∧ postOptValid opt = true ∧ ∃ t ∈ s.tcbCurPtr, Owns s t o ∧ (s.obj o).ownerNestingCtr = 1 ∧
    (∀ o' ≠ o, ¬ Owns s t o') ∧
    if (s.obj o).pendList.nbrEntries = 0 then (s.tcb t).prio ≠ base t else (s.obj o).ownerOriginalPrio ≠ base t

/-- The pend takes the last mutex of a task that is above its base priority, whose nesting counter has come
back to zero. -/
def PendForgets (base : TcbId → ℕ) (s : OS) (o : ObjId) (opt : Opt) : Prop :=
  s.intNestingCtr = 0 ∧ pendOptValid opt = true ∧ (s.obj o).ownerNestingCtr = 0 ∧ ∃ w, Owns s w o ∧
    s.tcbCurPtr ≠ some w ∧ (s.tcb w).taskState ≠ .del ∧ (∀ o' ≠ o, ¬ Owns s w o') ∧ (s.tcb w).prio ≠ base w

/-- The event leaves a task without mutexes at another priority than its base priority. -/
def Forgets (base : TcbId → ℕ) (s : OS) : Event → Prop
  | .call (.mutexPend (some o) _ opt) => PendForgets base s o opt
  | .call (.mutexPost (some o) opt) => PostForgets base s o opt
  | _ => False

end conditions

namespace Abs

def Holds (a : Abs) (t : TcbId) : Prop := ∃ o, (a.obj o).type = .mutex ∧ (a.obj o).owner = some t

def Back (base : TcbId → ℕ) (a : Abs) : Prop :=
  ∀ t, (a.task t).state ≠ .del → ¬ a.Holds t → (a.task t).prio = base t

theorem Back.congr (hB : a.Back base) (hobj : b.obj = a.obj)
    (ht : ∀ t, (b.task t).state ≠ .del → (a.task t).state ≠ .del ∧ (b.task t).prio = (a.task t).prio) : b.Back base := by
  intro t hs hno
  obtain ⟨hs', hp⟩ := ht t hs
  rw [hp]
  apply hB t hs'
  rwa [Holds, hobj] at hno

theorem Back.acts (hB : a.Back base) (hacts : a.Acts E S b) : b.Back base :=
  hB.congr hacts.obj fun t hs => ⟨mt (hacts.del_iff t).mpr hs, hacts.prio t⟩

theorem Back.sched (hB : a.Back base) (hs : a.Sched a') : a'.Back base := by
  obtain ⟨-, rfl⟩ | ⟨-, rfl⟩ | ⟨-, -, p, t, -, rfl⟩ := hs <;> exact hB

theorem Back.modObj {f : Sync → Sync} (hB : a.Back base) (hm : (f (a.obj o)).type = (a.obj o).type)
    (hf : ∀ t, (a.obj o).type = .mutex → (a.obj o).owner = some t → (f (a.obj o)).owner ≠ some t →
      (∀ o' ≠ o, (a.obj o').type = .mutex → (a.obj o').owner ≠ some t) → (a.task t).state ≠ .del →
      (a.task t).prio = base t) : (a.modObj o f).Back base := by
  intro t hs hno
  have hout : ∀ o' ≠ o, (a.obj o').type = .mutex → (a.obj o').owner ≠ some t := by
    intro o' hoo hm' ho'
    apply hno
    refine ⟨o', ?_, ?_⟩ <;> rwa [obj_modObj, if_neg hoo]
  by_cases hown : (a.obj o).type = .mutex ∧ (a.obj o).owner = some t
  · refine hf t hown.1 hown.2 (fun h => hno ⟨o, ?_, ?_⟩) hout hs
    · rw [obj_modObj, if_pos rfl, hm, hown.1]
    · rw [obj_modObj, if_pos rfl, h]
  · apply hB t hs
    rintro ⟨o', hm', ho'⟩
    by_cases hoo : o' = o
    · subst hoo
      exact hown ⟨hm', ho'⟩
    · exact hout o' hoo hm' ho'

theorem Back.start {base' : TcbId → ℕ} {p : ℕ} (hB : a.Back base) (hp : base' t = p) (hne : ∀ x ≠ t, base' x = base x) :
    (a.start t p).Back base' := by
  intro x hs hno
  by_cases hx : x = t
  · rw [hx, task_start, if_pos rfl, hp]
    rfl
  · rw [task_start, if_neg hx] at hs ⊢
    rw [hne x hx]
    exact hB x hs hno

theorem Back.reprio {base' : TcbId → ℕ} {p : ℕ} {self : Bool} (hB : a.Back base) (hI : a.Sound cfg)
    (hd : (a.task t).state ≠ .del)
    (hp : base' t = p) (hne : ∀ x ≠ t, base' x = base x) : (a.reprio t p self).Back base' := by
  intro x hs hno
  rw [Holds, obj_reprio] at hno
  by_cases hx : x = t
  · rw [hx, task_reprio hI.wait, if_pos ⟨rfl, hd⟩, hp]
  · rw [task_reprio hI.wait, if_neg fun h => hx h.1] at hs ⊢
    rw [hne x hx]
    exact hB x hs hno

theorem Back.wait {timed : Bool} (hB : a.Back base) (hm : (a.obj o).type = .mutex) (hcur : (a.task t).state = .rdy)
    (ho : (a.obj o).owner = some w)
    (hb : if (a.task t).prio < (a.task w).prio then (a.task w).state ≠ .del ∧ b = a.boost w (a.task t).prio else b = a) :
    (b.pendOn t (some o) .mutex timed).Back base := by
  have hBb : b.Back base := by
    split at hb
    · rw [hb.2]
      intro x hs hno
      rw [Holds, obj_boost] at hno
      have hx : x ≠ w := by
        rintro rfl
        exact hno ⟨o, hm, ho⟩
      rw [task_boost, if_neg fun h => hx h.1] at hs ⊢
      exact hB x hs hno
    · rwa [hb]
  have htb : (b.task t).state ≠ .del := by
    split at hb
    · rw [hb.2, task_boost]
      split
      · exact hb.1
      · simp [hcur]
    · simp [hb, hcur]
  have hframe := frame_pendOn (a := b) t (some o) .mutex timed
  refine hBb.congr (congrArg (fun y : Abs => y.obj) hframe :) fun x hs =>
    ⟨?_, (congrArg (fun y : Abs => (y.task x).prio) hframe :)⟩
  rw [task_pendOn] at hs
  split at hs
  · rename_i hx
    rwa [hx]
  · exact hs

theorem Back.handOff (hB : a.Back base) (hm : (a.obj o).type = .mutex) (ho : (a.obj o).owner = some t)
    (hback : (∀ o' ≠ o, (a.obj o').type = .mutex → (a.obj o').owner ≠ some t) → (a.obj o).ownerPrio = base t) :
    ((a.restore t (a.obj o).ownerPrio).handOff o d.1).Back base := by
  intro x hs hno
  have hxd : x ≠ d.1 := by
    rintro rfl
    apply hno
    refine ⟨o, ?_, ?_⟩ <;> rw [obj_handOff, if_pos rfl]
    rw [obj_restore, hm]
  have hout : ∀ o' ≠ o, (a.obj o').type = .mutex → (a.obj o').owner ≠ some x := by
    intro o' hoo hm' ho'
    apply hno
    refine ⟨o', ?_, ?_⟩ <;> rwa [obj_handOff, if_neg hoo, obj_restore]
  rw [task_handOff, if_neg hxd, task_restore] at hs ⊢
  by_cases hx : x = t
  · subst hx
    rw [if_pos rfl]
    exact hback hout
  · rw [if_neg hx] at hs ⊢
    apply hB x hs
    rintro ⟨o', hm', ho'⟩
    by_cases hoo : o' = o
    · rw [hoo, ho] at ho'
      exact hx (Option.some_inj.mp ho').symm
    · exact hout o' hoo hm' ho'

end Abs

theorem Rep.owns_iff (h : Rep cfg s a) : Owns s t o ↔ (a.obj o).type = .mutex ∧ (a.obj o).owner = some t := by
  rw [Owns, h.type, h.owner]

/-- What `¬ Forgets` says of a post that gives back the last mutex of a task. -/
theorem Ready.back_post {opt : Opt} (H : Ready cfg s a) (hno : ¬ Forgets base s (.call (.mutexPost (some o) opt)))
    (hcur : a.cur = some t) (hint : a.intNesting = 0) (hm : (a.obj o).type = .mutex) (ho : (a.obj o).owner = some t)
    (hz : (a.obj o).nesting - 1 = 0) (hopt : postOptValid opt = true)
    (hout : ∀ o' ≠ o, (a.obj o').type = .mutex → (a.obj o').owner ≠ some t) :
    if (s.obj o).pendList.nbrEntries = 0 then (a.task t).prio = base t else (a.obj o).ownerPrio = base t := by
  by_contra hne
  apply hno
  refine ⟨?_, hopt, t, ?_, H.rep.owns_iff.mpr ⟨hm, ho⟩, ?_, fun o' hoo hown => ?_, ?_⟩
  · rw [← H.rep.intNesting, hint]
  · rw [← H.rep.cur, hcur]
    rfl
  · rw [H.rep.nesting]
    bv_omega
  · obtain ⟨hm', ho'⟩ := H.rep.owns_iff.mp hown
    exact hout o' hoo hm' ho'
  · rw [H.rep.prio, H.rep.ownerPrio]
    split <;> simp_all

theorem Ready.back_take {timeout : Tick} {opt : Opt} (H : Ready cfg s a)
    (hno : ¬ Forgets base s (.call (.mutexPend (some o) timeout opt))) (hcur : a.cur = some t) (hint : a.intNesting = 0)
    (hm : (a.obj o).type = .mutex) (ho : (a.obj o).owner = some w) (hz : (a.obj o).nesting = 0)
    (hopt : pendOptValid opt = true) (hwt : t ≠ w) (hs : (a.task w).state ≠ .del)
    (hout : ∀ o' ≠ o, (a.obj o').type = .mutex → (a.obj o').owner ≠ some w) : (a.task w).prio = base w := by
  by_contra hne
  apply hno
  refine ⟨?_, hopt, ?_, w, H.rep.owns_iff.mpr ⟨hm, ho⟩, ?_, ?_, fun o' hoo hown => ?_, ?_⟩
  · rw [← H.rep.intNesting, hint]
  · rw [H.rep.nesting, hz]
  · rw [← H.rep.cur, hcur]
    simpa using hwt
  · rwa [H.rep.state]
  · obtain ⟨hm', ho'⟩ := H.rep.owns_iff.mp hown
    exact hout o' hoo hm' ho'
  · rwa [H.rep.prio]

theorem AStep.back (hstep : AStep cfg s a e r a') (H : Ready cfg s a) (he : Enabled s e) (hp : ¬ PassedMatch cfg s e)
    (hkeep : KeepsMutexes s e) (hno : ¬ Forgets (basePrio cfg h) s e) (hB : a.Back (basePrio cfg h)) :
    a'.Back (basePrio cfg (⟨s, e, r⟩ :: h)) := by
  have hsame (hc : ¬ Counts e r) : basePrio cfg (⟨s, e, r⟩ :: h) = basePrio cfg h :=
    funext fun t => basePrio_cons (givenPrio_eq_none hc)
  cases hstep with
  | still hc hacts =>
    rw [hsame hc]
    exact hB.acts hacts
  | acts hc hacts =>
    rw [hsame hc]
    exact hB.acts hacts
  | sched hc _ hacts hs =>
    rw [hsame hc]
    exact (hB.acts hacts).sched hs
  | leave hc _ _ _ hacts hs =>
    rw [hsame hc]
    have hB' := hB.acts hacts
    apply Abs.Back.sched _ hs
    exact hB'
  | @finish t _ _ _ _ hacts => exact Abs.Back.acts (a := a.setCont t .none) hB hacts
  | mutexReturn | lock | intEnter | start => exact hB
  | @create args t _ ht hd _ _ hs =>
    have hB' : (a.start t args.prio).Back (basePrio cfg (⟨s, .call (.taskCreate args), some { err := .none }⟩ :: h)) := by
      apply hB.start
      · simp [basePrio, givenPrio, ht]
      · intro x hx
        have hne : ¬ t = x := fun h => hx h.symm
        simp [basePrio, givenPrio, ht, hne]
    split at hs
    · exact hB'.sched hs
    · rw [hs]
      exact hB'
  | delete => exact absurd hkeep id
  | @changePrio p q t _ _ ht hd _ _ hs =>
    apply Abs.Back.sched _ hs
    have htarget : ∀ x, (p = some x ∨ p = none ∧ s.tcbCurPtr = some x) ↔ x = t := by
      intro x
      rw [← H.rep.cur]
      rcases ht with rfl | ⟨rfl, hcur⟩
      · simp [eq_comm]
      · simp [hcur, eq_comm]
    apply hB.reprio H.sound hd
    · simp [basePrio, givenPrio, htarget]
    · intro x hx
      simp [basePrio, givenPrio, htarget, hx]
  | refuse _ _ _ h => exact absurd h hp
  | @object c r o k hc hw =>
    have hnc : ¬ Counts (.call c) r := by
      cases c <;> first | exact id | cases hc
    rw [hsame hnc]
    have hnm : (a.obj o).type ≠ .mutex := by
      rw [← H.rep.type]
      intro hm
      rcases he.1.2 _ hc with hno | hsame
      · rw [hno] at hm
        cases hm
      · have hk : ObjType.mutex = k := hm.symm.trans hsame.1
        rw [← hk] at hc
        exact hkeep.creates hc hm
    intro t hs hno
    apply hB t hs
    rintro ⟨o', hm', ho'⟩
    have hoo : o' ≠ o := fun h => hnm (h ▸ hm')
    apply hno
    refine ⟨o', ?_, ?_⟩ <;> rwa [Abs.obj_modObj, if_neg hoo]
  | @take o t timeout opt r hcur hm hz hr hint hopt =>
    apply Abs.Back.modObj hB rfl
    intro w hm' ho hne hout hs
    exact H.back_take hno hcur hint hm ho hz hopt (fun h => hne (by rw [h])) hs hout
  | @nest o t timeout opt r hcur hm hz ho =>
    apply Abs.Back.modObj hB rfl
    intro w _ ho' hne
    exact absurd ho' hne
  | @unnest o t opt hcur hm ho hz =>
    apply Abs.Back.modObj hB rfl
    intro w _ ho' hne
    exact absurd ho' hne
  | @release o t opt hcur hm ho hz hw hint hopt =>
    apply Abs.Back.modObj hB rfl
    intro w _ ho' _ hout _
    rw [ho] at ho'
    cases ho'
    have hback := H.back_post hno hcur hint hm ho hz hopt hout
    rwa [if_pos ((H.rep.nbrEntries o).mpr hw)] at hback
  | @wait o t w timed timeout opt b _ hstop hm hz ho hne hb _ hs =>
    apply Abs.Back.sched _ hs
    have hB' : (b.pendOn t (some o) .mutex timed).Back (basePrio cfg h) := hB.wait hm hstop.2.1 ho hb
    exact hB'
  | @handOff o t d opt _ hcur hint hm ho hz hw _ hs hopt =>
    have hB' : ((a.restore t (a.obj o).ownerPrio).handOff o d.1).Back (basePrio cfg h) := by
      apply hB.handOff hm ho
      intro hout
      have hback := H.back_post hno hcur hint hm ho hz hopt hout
      rwa [if_neg (H.rep.pendNbr_ne hw)] at hback
    split at hs
    · exact hB'.sched hs
    · rw [hs]
      exact hB'
  | unlock _ _ _ hs | intExit _ hs =>
    apply Abs.Back.sched _ hs
    exact hB

/-- Every task that owns no mutex has its base priority. -/
def PriosBack (cfg : Cfg) (h : List Step) (s : OS) : Prop :=
  ∀ t, (s.tcb t).taskState ≠ .del → (∀ o, ¬ Owns s t o) → (s.tcb t).prio = basePrio cfg h t

/-- The runs in which no task is deleted and no mutex set up anew. -/
def MutexRun (cfg : Cfg) (x : Step) : Prop := ¬ PassedMatch cfg x.pre x.event ∧ KeepsMutexes x.pre x.event

instance (cfg : Cfg) (x : Step) : Decidable (MutexRun cfg x) := inferInstanceAs (Decidable (_ ∧ _))

theorem back_init : (Abs.init cfg).Back (basePrio cfg []) := by
  intro t hs _
  simp only [Abs.init, Abs.task_start, basePrio, kernelPrio] at hs ⊢
  repeat' split
  all_goals rfl

theorem run_priosBack (run : Run cfg (fun h x => MutexRun cfg x ∧ ¬ Forgets (basePrio cfg h) x.pre x.event) h s) :
    PriosBack cfg h s := by
  obtain ⟨a, H, hB⟩ := run.invariant (I := fun h a => a.Back (basePrio cfg h)) (fun _ _ hP => hP.1.1) back_init
    fun h s a e r a' H hB he hP hstep => hstep.back H he hP.1.1 hP.1.2 hP.2 hB
  intro t hs hno
  rw [H.rep.prio]
  apply hB t
  · rwa [← H.rep.state]
  · rintro ⟨o, hm, ho⟩
    exact hno o (H.rep.owns_iff.mpr ⟨hm, ho⟩)

def Event.creates : Event → Option (ObjId × ObjType)
  | call c => c.creates
  | _ => none

theorem AStep.obj_type (hstep : AStep cfg s a e r a') (hc : ∀ k, e.creates ≠ some (o, k)) :
    (a'.obj o).type = (a.obj o).type := by
  have hmod {b : Abs} {o' : ObjId} {f : Sync → Sync} (hf : (f (b.obj o')).type = (b.obj o').type) :
      ((b.modObj o' f).obj o).type = (b.obj o).type := by
    rw [Abs.obj_modObj]
    split
    · rename_i hoo
      rw [hf, hoo]
    · rfl
  cases hstep with
  | still _ h | acts _ h => rw [h.obj]
  | sched _ _ h hs => rw [hs.obj, h.obj]
  | leave _ _ _ _ h hs =>
    rw [hs.obj]
    exact congrArg (fun f : ObjId → Sync => (f o).type) h.obj
  | finish _ _ h =>
    rw [h.obj]
    rfl
  | mutexReturn | lock | intEnter | start | refuse => rfl
  | create _ _ _ _ hs =>
    split at hs
    · rw [hs.obj]
      rfl
    · rw [hs]
      rfl
  | @delete p t _ _ _ _ _ _ hs =>
    rw [hs.obj]
    exact congrArg (fun f : ObjId → Sync => (f o).type) (a.obj_unlink t)
  | changePrio _ _ _ _ _ hs => rw [hs.obj, Abs.obj_reprio]
  | @object c r o' k ho _ =>
    rw [Abs.obj_modObj, if_neg]
    rintro rfl
    exact hc k ho
  | take | nest | unnest | release => exact hmod rfl
  | @wait o' t w timed _ _ b _ _ _ _ _ _ hb _ hs =>
    have hobj : (b.pendOn t (some o') .mutex timed).obj = b.obj := Abs.attach_obj _
    rw [hs.obj]
    change ((b.pendOn t (some o') .mutex timed).obj o).type = _
    rw [hobj]
    split at hb
    · rw [hb.2, Abs.obj_boost]
    · rw [hb]
  | @handOff o' t d _ _ _ _ _ _ _ _ _ hs =>
    have hobj : (((a.restore t (a.obj o').ownerPrio).handOff o' d.1).obj o).type = (a.obj o).type := by
      rw [Abs.obj_handOff, Abs.obj_restore]
      split
      · rename_i hoo
        rw [hoo]
      · rfl
    split at hs
    · rw [hs.obj, hobj]
    · rw [hs, hobj]
  | unlock _ _ _ hs | intExit _ hs => rw [hs.obj]

theorem run_obj_type {P : Step → Prop} (run : Run cfg (fun _ x => P x) h s) (hP : ∀ x, P x → ¬ PassedMatch cfg x.pre x.event)
    (hc : ∀ x, P x → ∀ k, x.event.creates ≠ some (o, k)) : (s.obj o).type = .none := by
  obtain ⟨a, H, ho⟩ := run.invariant (I := fun _ a => (a.obj o).type = .none) (fun _ => hP) rfl
    fun h s a e r a' H ho he hPx hstep => (hstep.obj_type (hc _ hPx)).trans ho
  rw [H.rep.type, ho]

/-- Task 4 takes mutex 1 while it is raised for mutex 0. It gives mutex 0 back first, and keeps the priority that
was saved with mutex 1. -/
theorem crossed_forgets : ∃ h s, Run Cfg.repository (fun _ x => MutexRun Cfg.repository x) h s ∧
    ¬ PriosBack Cfg.repository h s := by
  obtain ⟨h, s, run, hs, ho0, ho1, hp, hb⟩ := Run.of_play Cfg.repository
    (fun _ x => MutexRun Cfg.repository x ∧ ∀ y ∈ x.event.creates, y.1 < 2) 60
    (fun h s => (s.tcb 4).taskState = .rdy ∧ ¬ Owns s 4 0 ∧ ¬ Owns s 4 1 ∧ (s.tcb 4).prio = 6 ∧
      basePrio Cfg.repository h 4 = 8)
    [.newTask 4 8, .call (.mutexCreate (some 0)), .call (.mutexCreate (some 1)), .start,
      .call (.mutexPend (some 0) 0 optPendBlocking), .newTask 5 6, .call (.mutexPend (some 0) 0 optPendBlocking),
      .call (.mutexPend (some 1) 0 optPendBlocking), .newTask 6 5, .call (.mutexPend (some 1) 0 optPendBlocking),
      .call (.mutexPost (some 0) 0), .finish, .call (.mutexPend (some 1) 0 optPendBlocking),
      .call (.mutexPost (some 1) 0)] (by decide +kernel)
  refine ⟨h, s, run.mono fun _ _ hP => hP.1, fun hback => ?_⟩
  have hno : ∀ o, ¬ Owns s 4 o := by
    intro o hown
    by_cases ho : o < 2
    · obtain rfl | rfl := Nat.le_one_iff_eq_zero_or_eq_one.mp (Nat.le_of_lt_succ ho)
      · exact ho0 hown
      · exact ho1 hown
    · have htype : (s.obj o).type = .none := by
        apply run_obj_type run
        · exact fun x hP => hP.1.1
        · intro x hP k hk
          exact ho (hP.2 _ hk)
      rw [hown.1] at htype
      cases htype
  have := hback 4 (by simp [hs]) hno
  omega

def HandsBack (base : TcbId → ℕ) (s : OS) : Event → Prop
  | .call (.mutexPend (some o) _ _) => (s.obj o).ownerNestingCtr = 0 → (s.obj o).ownerTCBPtr = none
  | .call (.mutexPost (some o) _) =>
    (s.obj o).pendList.nbrEntries ≠ 0 ∧ ∀ t ∈ s.tcbCurPtr, (s.obj o).ownerOriginalPrio = base t
  | _ => True

def Event.pendsOn : Event → Option ObjId
  | .call (.mutexPend p _ _) => p
  | _ => none

def Event.postsTo : Event → Option ObjId
  | .call (.mutexPost p _) => p
  | _ => none

theorem handsBack_iff (base : TcbId → ℕ) (s : OS) (e : Event) : ((∀ o ∈ e.pendsOn, (s.obj o).ownerNestingCtr = 0 →
      (s.obj o).ownerTCBPtr = none) ∧ ∀ o ∈ e.postsTo, (s.obj o).pendList.nbrEntries ≠ 0 ∧
        ∀ t ∈ s.tcbCurPtr, (s.obj o).ownerOriginalPrio = base t) ↔ HandsBack base s e := by
  unfold HandsBack
  split
  · simp [Event.pendsOn, Event.postsTo]
  · simp [Event.pendsOn, Event.postsTo]
  · rename_i hpend hpost
    apply iff_of_true _ trivial
    constructor
    · intro o ho
      unfold Event.pendsOn at ho
      split at ho
      · rw [Option.mem_def] at ho
        subst ho
        exact (hpend _ _ _ rfl).elim
      · cases ho
    · intro o ho
      unfold Event.postsTo at ho
      split at ho
      · rw [Option.mem_def] at ho
        subst ho
        exact (hpost _ _ rfl).elim
      · cases ho

instance (base : TcbId → ℕ) (s : OS) (e : Event) : Decidable (HandsBack base s e) :=
  decidable_of_iff _ (handsBack_iff base s e)

theorem HandsBack.not_forgets (hb : HandsBack base s e) : ¬ Forgets base s e := by
  intro hf
  unfold Forgets at hf
  split at hf
  · obtain ⟨-, -, hz, w, hown, -⟩ := hf
    cases hown.2.symm.trans (hb hz)
  · obtain ⟨-, -, t, ht, -, -, -, hf⟩ := hf
    rw [if_neg hb.1] at hf
    exact hf (hb.2 t ht)
  · exact hf

/-- A task that owned one mutex hands it over to the task that waits for it. -/
theorem run_priosBack_handOff : ∃ h s, Run Cfg.repository
    (fun h x => MutexRun Cfg.repository x ∧ ¬ Forgets (basePrio Cfg.repository h) x.pre x.event) h s ∧
    s.tcbCurPtr = some 5 ∧ (s.tcb 4).prio = 8 ∧ PriosBack Cfg.repository h s := by
  obtain ⟨h, s, run, hc, h4⟩ := Run.of_play Cfg.repository
    (fun h x => MutexRun Cfg.repository x ∧ HandsBack (basePrio Cfg.repository h) x.pre x.event) 40
    (fun _ s => s.tcbCurPtr = some 5 ∧ (s.tcb 4).prio = 8)
    [.newTask 4 8, .call (.mutexCreate (some 0)), .start, .call (.mutexPend (some 0) 0 optPendBlocking), .newTask 5 6,
      .call (.mutexPend (some 0) 0 optPendBlocking), .call (.mutexPost (some 0) 0)] (by decide +kernel)
  have run' : Run Cfg.repository
      (fun h x => MutexRun Cfg.repository x ∧ ¬ Forgets (basePrio Cfg.repository h) x.pre x.event) h s :=
    run.mono fun _ _ hP => ⟨hP.1, hP.2.not_forgets⟩
  exact ⟨h, s, run', hc, h4, run_priosBack run'⟩

end UcosIII
