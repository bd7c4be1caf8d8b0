import UcosIII.Runs.PendOrder

namespace UcosIII

open Prog

variable {cfg : Cfg} {s s' : OS} {a a' b : Abs} {h : List Step} {t w : TcbId} {o : ObjId} {d : PdId} {e : Event}
  {r : Option Ret} {E : Env} {S : Act → Prop}

section conditions

/-- The event is a nested pend that would take the nesting counter past its last value. -/
def NestsDeeper (s : OS) : Event → Prop
  | .call (.mutexPend (some o) _ opt) =>
    s.intNestingCtr = 0 ∧ pendOptValid opt = true ∧ (s.obj o).type = .mutex ∧ (s.obj o).ownerNestingCtr = 255 ∧
      (s.obj o).ownerTCBPtr = s.tcbCurPtr
  | _ => False

instance (s : OS) (e : Event) : Decidable (NestsDeeper s e) := by
  unfold NestsDeeper
  split <;> infer_instance

def KeepsMutexes (s : OS) : Event → Prop
  | .call (.taskDel _) => False
  | .call (.mutexCreate (some o)) => (s.obj o).type ≠ .mutex
  | _ => True

instance (s : OS) (e : Event) : Decidable (KeepsMutexes s e) := by
  cases e with
  | call c =>
    cases c with
    | mutexCreate p => cases p <;> dsimp only [KeepsMutexes] <;> infer_instance
    | _ => dsimp only [KeepsMutexes]; infer_instance
  | finish | start | intEnter | intExit | timeTick | tickUpdate | clock => exact .isTrue trivial

end conditions

section owners

namespace Abs

structure OwnerOk (b : Sync) (l : List PdId) : Prop where
  owned : b.owner ≠ none ↔ b.nesting ≠ 0
  waited : l ≠ [] → b.owner ≠ none
  other : ∀ d ∈ l, b.owner ≠ some d.1

def MutexOk (a : Abs) : Prop := ∀ o, (a.obj o).type = .mutex → OwnerOk (a.obj o) (a.waiting o)

theorem OwnerOk.sub {b : Sync} {l l' : List PdId} (h : OwnerOk b l) (hl : ∀ d ∈ l', d ∈ l) : OwnerOk b l' where
  owned := h.owned
  waited hne := by
    obtain ⟨d, hd⟩ := List.exists_mem_of_ne_nil l' hne
    exact h.waited (List.ne_nil_of_mem (hl d hd))
  other d hd := h.other d (hl d hd)

theorem MutexOk.sub (hM : a.MutexOk) (hobj : b.obj = a.obj)
    (hw : ∀ o, (a.obj o).type = .mutex → ∀ d ∈ b.waiting o, d ∈ a.waiting o) : b.MutexOk := by
  intro o ho
  rw [hobj] at ho ⊢
  exact (hM o ho).sub (hw o ho)

theorem MutexOk.modObj {f : Sync → Sync} (hM : a.MutexOk)
    (hf : (f (a.obj o)).type = .mutex → OwnerOk (f (a.obj o)) (a.waiting o)) : (a.modObj o f).MutexOk := by
  intro o' ho'
  rw [obj_modObj] at ho' ⊢
  split at ho'
  · rename_i hoo
    rw [if_pos hoo, hoo]
    exact hf ho'
  · rename_i hoo
    rw [if_neg hoo]
    exact hM o' ho'

theorem mem_waiting_pendOn {o' : ObjId} {kind : PendOn} {timed : Bool} :
    d ∈ (a.pendOn t (some o) kind timed).waiting o' ↔ d ∈ a.waiting o' ∨ d = (t, 0) ∧ o' = o := by
  rw [pendOn, mem_attach_waiting]
  apply or_congr Iff.rfl
  apply and_congr_right
  rintro rfl
  change (Function.update a.entry (t, 0) { a.entry (t, 0) with obj := some o } (t, 0)).obj = some o' ↔ o' = o
  rw [Function.update_self, Option.some_inj]
  exact eq_comm

theorem entry_pendOn_self {kind : PendOn} {timed : Bool} :
    ((a.pendOn t (some o) kind timed).entry (t, 0)).obj = some o := by
  rw [pendOn, attach_entry_obj]
  change (Function.update a.entry (t, 0) { a.entry (t, 0) with obj := some o } (t, 0)).obj = some o
  rw [Function.update_self]

theorem entry_pendOn_of_ne {kind : PendOn} {timed : Bool} (hd : w ≠ t) :
    ((a.pendOn t (some o) kind timed).entry (w, 0)).obj = (a.entry (w, 0)).obj := by
  rw [pendOn, attach_entry_obj]
  change (Function.update a.entry (t, 0) { a.entry (t, 0) with obj := some o } (w, 0)).obj = (a.entry (w, 0)).obj
  rw [Function.update_of_ne]
  intro h
  exact hd (congrArg Prod.fst h)

theorem Acts.mem_mutex (hacts : a.Acts E S b) (ho : (a.obj o).type = .mutex) (hd : d ∈ b.waiting o) : d ∈ a.waiting o := by
  induction hacts with
  | refl => exact hd
  | @snoc b x hacts _ hv _ ih =>
    have ho' : (b.obj o).type = .mutex := by rw [hacts.obj, ho]
    cases x with
    | wake t st => exact ih ((b.waiting_wake_sublist t st o).mem hd)
    | flagWake t => exact ih ((b.waiting_flagWake_sublist t o).mem hd)
    | expire t => exact ih ((b.waiting_expire_sublist t o).mem hd)
    | suspend t =>
      rw [Act.apply, waiting_suspend] at hd
      exact ih hd
    | resume t =>
      rw [Act.apply, waiting_resume] at hd
      exact ih hd
    | pendOn t x kind timed =>
      cases x with
      | none => exact ih hd
      | some x =>
        rw [Act.apply, mem_waiting_pendOn] at hd
        rcases hd with hd | ⟨rfl, rfl⟩
        · exact ih hd
        · obtain ⟨-, -, hk, -, -, hacc, -⟩ := hv
          have := hacc _ rfl
          rw [ho'] at this
          cases kind <;> simp [PendOn.accepts] at this hk
    | pendMulti t timed ds =>
      rw [Act.apply, mem_foldl_attach_waiting] at hd
      rcases hd with hd | ⟨hd, hx⟩
      · exact ih hd
      · obtain ⟨o', he, hacc⟩ := hv.2.2.2 d hd
        have hoo : o' = o := Option.some_inj.mp (he.symm.trans hx)
        rw [hoo, ho'] at hacc
        simp [PendOn.accepts] at hacc
    | rotate | delay | flagsOpt | pendStatus | store => exact ih hd

theorem MutexOk.acts (hM : a.MutexOk) (hacts : a.Acts E S b) : b.MutexOk :=
  hM.sub hacts.obj fun _ ho _ => hacts.mem_mutex ho

theorem MutexOk.sched (hM : a.MutexOk) (hs : a.Sched a') : a'.MutexOk := by
  obtain ⟨-, rfl⟩ | ⟨-, rfl⟩ | ⟨-, -, p, t, -, rfl⟩ := hs <;> exact hM

theorem obj_reprio (a : Abs) (t : TcbId) (p : ℕ) (self : Bool) : (a.reprio t p self).obj = a.obj := by
  rw [reprio]
  cases (a.task t).state <;> cases (a.task t).pendOn <;> first | rfl | rw [obj_move]

theorem obj_restore (a : Abs) (t : TcbId) (p : ℕ) : (a.restore t p).obj = a.obj := by
  rw [restore]
  split
  · rfl
  · exact a.obj_move t p false

theorem obj_handOff (a : Abs) (o o' : ObjId) (w : TcbId) : (a.handOff o w).obj o' =
    if o' = o then { a.obj o with owner := some w, ownerPrio := (a.task w).prio, nesting := 1 } else a.obj o' := by
  rw [handOff, obj_wake, obj_modObj]

theorem Sound.pendOn_mutex (hI : a.Sound cfg) (ho : (a.obj o).type = .mutex) (hd : d ∈ a.waiting o) :
    (a.task d.1).pendOn = .mutex := by
  have hacc := hI.accepts hd
  rw [ho] at hacc
  cases hk : (a.task d.1).pendOn <;> simp [hk, PendOn.accepts] at hacc ⊢

theorem WaitOk.isPend (h : a.WaitOk) (hd : d ∈ a.waiting o) : (a.task d.1).state.isPend = true := by
  by_contra hp
  exact h.not_mem (by simpa using hp) o d.2 hd

theorem Sound.mem_handOff {x : PdId} {o' : ObjId} {p : ℕ} (hI : a.Sound cfg) (hd : d ∈ a.waiting o)
    (hx : x ∈ ((a.restore t p).handOff o d.1).waiting o') : x ∈ a.waiting o' ∧ x.1 ≠ d.1 := by
  have htask := a.task_restore t d.1 p
  have hst : ((a.restore t p).task d.1).state = (a.task d.1).state := by grind
  have htab : ((a.restore t p).task d.1).table = (a.task d.1).table := by grind
  rw [Abs.handOff, waiting_wake _ _ _ (hst ▸ hI.wait.isPend hd)] at hx
  change x ∈ ((a.restore t p).waiting o').filter (· ∉ ((a.restore t p).task d.1).table) at hx
  rw [waiting_restore, htab, List.mem_filter] at hx
  obtain ⟨hm, hn⟩ := hx
  refine ⟨hm, fun hxd => ?_⟩
  have hmem := ((hI.wait.mem_iff o' x).mp hm).1
  rw [hxd] at hmem
  simp [hmem] at hn

end Abs

theorem BitVec.succ_ne_zero {x : BitVec 8} (h : x ≠ 255) : x + 1 ≠ 0 := by
  intro h0
  apply h
  bv_omega

theorem Ready.nesting_ne {timeout : Tick} {opt : Opt} (H : Ready cfg s a)
    (hn : ¬ NestsDeeper s (.call (.mutexPend (some o) timeout opt))) (hcur : a.cur = some t) (hm : (a.obj o).type = .mutex)
    (ho : (a.obj o).owner = some t) (hint : a.intNesting = 0) (hopt : pendOptValid opt = true) :
    (a.obj o).nesting ≠ 255 := by
  intro h255
  apply hn
  refine ⟨?_, hopt, ?_, ?_, ?_⟩
  · rw [← H.rep.intNesting, hint]
  · rw [H.rep.type, hm]
  · rw [← h255, H.rep.obj]
    rfl
  · rw [← H.rep.cur, hcur, ← ho, H.rep.obj]
    rfl

theorem AStep.mutexOk (hstep : AStep cfg s a e r a') (H : Ready cfg s a) (hp : ¬ PassedMatch cfg s e)
    (hn : ¬ NestsDeeper s e) (hM : a.MutexOk) : a'.MutexOk := by
  cases hstep with
  | still _ h => exact hM.acts h
  | acts _ h => exact hM.acts h
  | sched _ _ h hs => exact (hM.acts h).sched hs
  | leave _ _ _ _ h hs =>
    have hM' := hM.acts h
    apply Abs.MutexOk.sched _ hs
    exact hM'
  | @finish t _ _ _ _ h => exact Abs.MutexOk.acts (a := a.setCont t .none) hM h
  | mutexReturn | lock | intEnter | start => exact hM
  | create _ _ _ _ hs =>
    split at hs
    · apply Abs.MutexOk.sched _ hs
      exact hM
    · rw [hs]
      exact hM
  | @delete p t _ _ _ _ _ _ hs =>
    apply Abs.MutexOk.sched _ hs
    apply hM.sub (a.obj_unlink t)
    intro o _ d hd
    exact (a.waiting_unlink_sublist t o).mem hd
  | @changePrio p q t _ _ _ _ _ _ hs =>
    apply Abs.MutexOk.sched _ hs
    apply hM.sub (a.obj_reprio t q _)
    intro o _ d hd
    exact (Abs.mem_waiting_reprio H.sound.wait t q _ o d).mp hd
  | refuse _ _ _ h => exact absurd h hp
  | @object c r o k _ hw =>
    apply hM.modObj
    intro hk
    rw [hw]
    have hkm : k = .mutex := by
      by_contra hne
      rw [Sync.create, if_neg hne] at hk
      exact hne hk
    rw [Sync.create, if_pos hkm]
    exact ⟨by simp, by simp, by simp⟩
  | @take o t timeout opt r hcur hm hz hr =>
    have hok := hM o hm
    have hnone : (a.obj o).owner = none := by
      by_contra hne
      exact hok.owned.mp hne hz
    have hw : a.waiting o = [] := by
      by_contra hne
      exact hok.waited hne hnone
    apply hM.modObj
    intro _
    rw [hw]
    exact ⟨by simp, by simp, by simp⟩
  | @nest o t timeout opt r hcur hm hz ho hint hopt hr =>
    have hok := hM o hm
    have hne := H.nesting_ne hn hcur hm ho hint hopt
    apply hM.modObj
    intro _
    exact ⟨iff_of_true (hok.owned.mpr hz) (BitVec.succ_ne_zero hne), hok.waited, hok.other⟩
  | @unnest o t opt hcur hm ho hz =>
    have hok := hM o hm
    have hown : (a.obj o).owner ≠ none := by
      rw [ho]
      exact Option.some_ne_none t
    apply hM.modObj
    intro _
    exact ⟨iff_of_true hown hz, hok.waited, hok.other⟩
  | @release o t opt hcur hm ho hz hw =>
    apply hM.modObj
    intro _
    rw [hw]
    exact ⟨by simp, by simp, by simp⟩
  | @wait o t w timed timeout opt b _ hstop hm hz ho hne hb _ hs =>
    apply Abs.MutexOk.sched _ hs
    have hbobj : b.obj = a.obj := by
      split at hb
      · rw [hb.2, Abs.obj_boost]
      · rw [hb]
    have hbw : ∀ o, ∀ d ∈ b.waiting o, d ∈ a.waiting o := by
      intro o d hd
      split at hb
      · rw [hb.2] at hd
        exact (Abs.mem_waiting_boost H.sound.wait w _ o d).mp hd
      · rwa [hb] at hd
    intro o' ho'
    have hobj : ((b.pendOn t (some o) .mutex timed).setCont t (.mutexPend o)).obj = a.obj := by
      rw [← hbobj]
      exact Abs.attach_obj _
    rw [hobj] at ho' ⊢
    have hmem : ∀ d ∈ (b.pendOn t (some o) .mutex timed).waiting o', d ∈ a.waiting o' ∨ d = (t, 0) ∧ o' = o := by
      intro d hd
      rcases Abs.mem_waiting_pendOn.mp hd with hd | hd
      · exact .inl (hbw o' d hd)
      · exact .inr hd
    have hok := hM o' ho'
    refine ⟨hok.owned, fun hne => ?_, fun d hd => ?_⟩
    · obtain ⟨d, hd⟩ := List.exists_mem_of_ne_nil _ hne
      rcases hmem d hd with hd | ⟨-, rfl⟩
      · exact hok.waited (List.ne_nil_of_mem hd)
      · rw [ho]
        exact Option.some_ne_none w
    · rcases hmem d hd with hd | ⟨rfl, rfl⟩
      · exact hok.other d hd
      · rw [ho]
        exact fun h => hne (Option.some_inj.mp h)
  | @handOff o t d opt _ hcur hint hm ho hz hw hrdy hs =>
    have hM' : ((a.restore t (a.obj o).ownerPrio).handOff o d.1).MutexOk := by
      intro o' ho'
      rw [Abs.obj_handOff] at ho' ⊢
      have hmem : ∀ x ∈ ((a.restore t (a.obj o).ownerPrio).handOff o d.1).waiting o', x ∈ a.waiting o' ∧ x.1 ≠ d.1 :=
        fun x hx => H.sound.mem_handOff (List.mem_of_mem_head? hw) hx
      split
      · refine ⟨by simp, by simp, fun x hx => ?_⟩
        have := (hmem x hx).2
        simpa using this.symm
      · rename_i hoo
        rw [if_neg hoo, Abs.obj_restore] at ho'
        rw [Abs.obj_restore]
        exact (hM o' ho').sub fun x hx => (hmem x hx).1
    split at hs
    · exact hM'.sched hs
    · rw [hs]
      exact hM'
  | unlock _ _ _ hs | intExit _ hs =>
    apply Abs.MutexOk.sched _ hs
    exact hM

end owners

section pends

def HandsTo (t : TcbId) (o : ObjId) (x : Step) : Prop :=
  ∃ opt r, x.event = .call (.mutexPost (some o) opt) ∧ x.ret = some r ∧ r.err = .none ∧
    ∃ d, x.pre.pendAt o 0 = some d ∧ (x.pre.pendData d).tcbPtr = some t

def BlocksOn (t : TcbId) (o : ObjId) (x : Step) : Prop :=
  ∃ timeout opt, x.event = .call (.mutexPend (some o) timeout opt) ∧ x.ret = none ∧ x.pre.tcbCurPtr = some t ∧
    x.pre.intNestingCtr = 0

/-- The task has been made the owner of `o` by a post since it last began to wait for it. -/
def MadeOwner (t : TcbId) (o : ObjId) : List Step → Prop
  | [] => False
  | x :: h => HandsTo t o x ∨ ¬ BlocksOn t o x ∧ MadeOwner t o h

theorem TaskState.expired_or (st : TaskState) (h : st.isPend = true) :
    (st = .pendTimeout ∨ st = .pendTimeoutSuspended) ∨ st = .pend ∨ st = .pendSuspended := by
  cases st <;> simp [TaskState.isPend] at h ⊢

namespace Abs

/-- Where a task can be that is in the middle of a pend on `o`: it waits, or its wait is over. -/
def InPend (a : Abs) (t : TcbId) (o : ObjId) (made : Prop) : Prop :=
  (a.task t).pendOn = .mutex ∧ (a.entry (t, 0)).obj = some o ∧ ¬ made ∨
  (a.task t).state.isPend = false ∧ (a.task t).state ≠ .del ∧
    ((a.task t).pendStatus = .ok ∧ made ∨ (a.task t).pendStatus = .timeout ∧ ¬ made)

variable {made : Prop}

theorem InPend.congr (h : a.InPend t o made) (ht : b.task t = a.task t)
    (he : (a.task t).pendOn = .mutex → (b.entry (t, 0)).obj = (a.entry (t, 0)).obj) : b.InPend t o made := by
  rcases h with ⟨hk, ho, hm⟩ | h
  · refine .inl ⟨?_, ?_, hm⟩
    · rw [ht, hk]
    · rw [he hk, ho]
  · refine .inr ?_
    rwa [ht]

theorem Act.entry_obj {x : Act} (hv : x.Valid E a) (hs : (a.task d.1).state.isPend = true) :
    ((x.apply a).entry d).obj = (a.entry d).obj := by
  cases x with
  | wake t st => rw [Act.apply, entry_wake]
  | flagWake t => rw [Act.apply, entry_flagWake]
  | expire t =>
    rw [Act.apply, expire]
    cases (a.task t).state <;> first | rfl | rw [entry_wake]
  | suspend t =>
    rw [Act.apply, suspend]
    repeat' split
    all_goals rfl
  | resume t =>
    rw [Act.apply, resume]
    repeat' split
    all_goals rfl
  | pendOn t o kind timed =>
    cases o with
    | none => rfl
    | some o =>
      rw [Act.apply, pendOn, attach_entry_obj]
      change (Function.update a.entry (t, 0) { a.entry (t, 0) with obj := some o } d).obj = _
      rw [Function.update_of_ne]
      rintro rfl
      rw [hv.1.2.1] at hs
      cases hs
  | pendMulti t timed ds => rw [Act.apply, foldl_attach_entry_obj]; rfl
  | store d' e =>
    change (Function.update a.entry d' e d).obj = _
    rw [Function.update_of_ne]
    rintro rfl
    have hv' : (a.task d.1).state.isPend = false := hv
    rw [hs] at hv'
    cases hv'
  | rotate | delay | flagsOpt | pendStatus => rfl

theorem InPend.act {x : Act} (h : a.InPend t o made) (hv : x.Valid E a) (hI : a.Sound cfg) (hk : a.cont t ≠ .none)
    (hno : ¬ Act.MayStop E a t) : (x.apply a).InPend t o made := by
  have hpend := hI.wait.pendOn_iff t
  have he (hm : (a.task t).pendOn = .mutex) : ((x.apply a).entry (t, 0)).obj = (a.entry (t, 0)).obj := by
    apply Act.entry_obj hv
    rw [← hpend, hm]
    simp
  cases x with
  | wake w st =>
    refine h.congr ?_ he
    have hvt : (a.task w).pendOn ≠ .mutex := hv
    rw [Act.apply, task_wake]
    split
    · rename_i hw
      subst hw
      have hp : (a.task t).state.isPend = false := by
        rcases h with ⟨hm, -⟩ | h
        · exact absurd hm hvt
        · exact h.1
      rw [Task.woken, if_neg (by simp [hp])]
    · rfl
  | flagWake w =>
    refine h.congr ?_ he
    rw [Act.apply, task_flagWake]
    split
    · rename_i hw
      subst hw
      have hf : (a.task t).pendOn = .flag := hv.1
      rcases h with ⟨hm, -⟩ | h
      · simp [hf] at hm
      · simp [hf, h.1] at hpend
    · rfl
  | expire w =>
    by_cases hw : t = w
    · subst hw
      have htask := task_expire a t t
      rw [if_pos rfl] at htask
      rcases h with ⟨hm, ho, hn⟩ | ⟨hp, hd, hst⟩
      · have hp : (a.task t).state.isPend = true := by
          rw [← hpend, hm]
          simp
        -- a wait with a timeout ends, any other goes on
        rcases TaskState.expired_or (a.task t).state hp with hT | hT
        · refine .inr ?_
          rw [Act.apply, htask]
          grind
        · refine .inl ⟨?_, ?_, hn⟩
          · rw [Act.apply, htask]
            grind
          · rw [he hm, ho]
      · refine .inr ?_
        rw [Act.apply, htask]
        grind
    · refine h.congr ?_ he
      rw [Act.apply, task_expire, if_neg hw]
  | suspend w =>
    have htask := task_suspend a w t
    rcases h with ⟨hm, ho, hn⟩ | ⟨hp, hd, hst⟩
    · refine .inl ⟨?_, (he hm).trans ho, hn⟩
      rw [Act.apply, htask]
      split <;> grind
    · refine .inr ?_
      rw [Act.apply, htask]
      split <;> grind [TaskState.suspend_ne_del]
  | resume w =>
    have htask := task_resume a w t
    rcases h with ⟨hm, ho, hn⟩ | ⟨hp, hd, hst⟩
    · refine .inl ⟨?_, (he hm).trans ho, hn⟩
      rw [Act.apply, htask]
      split <;> grind
    · refine .inr ?_
      rw [Act.apply, htask]
      split <;> grind [TaskState.resume_ne_del]
  | pendOn w o' kind timed =>
    have hw : t ≠ w := by
      rintro rfl
      exact hno hv.1
    refine h.congr ?_ he
    rw [Act.apply, task_pendOn, if_neg hw]
  | pendMulti w timed ds =>
    have hw : t ≠ w := by
      rintro rfl
      exact hno hv.1
    refine h.congr ?_ he
    rw [Act.apply, foldl_attach_task, task_block, if_neg hw]
  | delay w =>
    have hw : t ≠ w := by
      rintro rfl
      exact hno hv
    refine h.congr ?_ he
    rw [Act.apply, task_delay, if_neg hw]
  | flagsOpt w opt =>
    have htask := task_modTask a w t fun c => { c with flagsOpt := opt }
    rcases h with ⟨hm, ho, hn⟩ | h
    · refine .inl ⟨?_, (he hm).trans ho, hn⟩
      rw [Act.apply, htask]
      split <;> grind
    · refine .inr ?_
      rw [Act.apply, htask]
      split <;> grind
  | pendStatus w st =>
    have hw : t ≠ w := by
      rintro rfl
      exact hk hv.2
    refine h.congr ?_ he
    rw [Act.apply, task_modTask, if_neg hw]
  | rotate | store => exact h.congr rfl he

theorem InPend.acts (h : a.InPend t o made) (hacts : a.Acts E S b) (hI : a.Sound cfg) (hk : a.cont t ≠ .none)
    (hno : E.isCall → a.intNesting = 0 → a.cur ≠ some t) : b.InPend t o made := by
  induction hacts with
  | refl => exact h
  | snoc hacts _ hv _ ih =>
    apply ih.act hv (hI.acts hacts)
    · rwa [hacts.cont]
    · rintro ⟨hcur, -, hint, -, -, hcall⟩
      rw [hacts.cur] at hcur
      rw [hacts.intNesting] at hint
      exact hno hcall hint hcur

end Abs

theorem Ready.cont_cur (H : Ready cfg s a) (he : Enabled s e) (hcall : ∃ c, e = .call c) (hint : a.intNesting = 0)
    (hcur : a.cur = some t) : a.cont t = .none := by
  obtain ⟨c, rfl⟩ := hcall
  have hrun := AStep.running_of_cur H.cur hcur
  rw [H.rep.running] at hrun
  rw [H.rep.intNesting] at hint
  rw [H.rep.cur] at hcur
  rw [H.rep.cont]
  rcases he.2 with h | h | h
  · exact h.2.2 t hcur
  · omega
  · rw [hrun] at h
    cases h.1

theorem HandsTo.counts (hh : HandsTo t o ⟨s, e, r⟩) : Counts e r := by
  obtain ⟨opt, x, he, hr, hx, -⟩ := hh
  dsimp only at he hr
  rw [he, hr]
  exact .inl hx

theorem Ready.not_blocksOn (H : Ready cfg s a) (he : Enabled s e) (hk : a.cont t ≠ .none) : ¬ BlocksOn t o ⟨s, e, r⟩ := by
  rintro ⟨timeout, opt, hev, -, hcur, hint⟩
  dsimp only at hev hcur hint
  apply hk
  apply H.cont_cur he ⟨_, hev⟩
  · rw [H.rep.intNesting, hint]
  · rw [H.rep.cur, hcur]

def Abs.PendsOk (h : List Step) (a : Abs) : Prop := ∀ t o, a.cont t = .mutexPend o → a.InPend t o (MadeOwner t o h)

theorem Abs.PendsOk.step (hP : a.PendsOk h) (H : Ready cfg s a) (he : Enabled s e)
    (hh : ∀ t o, ¬ HandsTo t o ⟨s, e, r⟩)
    (hstep : ∀ t o m, b.cont t = .mutexPend o → a.cont t = .mutexPend o ∧ (a.InPend t o m → b.InPend t o m)) :
    b.PendsOk (⟨s, e, r⟩ :: h) := by
  intro t o hk
  obtain ⟨hk', himp⟩ := hstep t o (MadeOwner t o (⟨s, e, r⟩ :: h)) hk
  apply himp
  have hb : ¬ BlocksOn t o ⟨s, e, r⟩ := H.not_blocksOn he (by simp [hk'])
  have hmade : MadeOwner t o (⟨s, e, r⟩ :: h) ↔ MadeOwner t o h := by
    simp [MadeOwner, hh t o, hb]
  rw [hmade]
  exact hP t o hk'

theorem Abs.PendsOk.sched (hP : a.PendsOk h) (hs : a.Sched a') : a'.PendsOk h := by
  obtain ⟨-, rfl⟩ | ⟨-, rfl⟩ | ⟨-, -, p, t, -, rfl⟩ := hs <;> exact hP

theorem Abs.PendsOk.acts (hP : a.PendsOk h) (H : Ready cfg s a) (he : Enabled s e) (hc : ¬ Counts e r)
    (hacts : a.Acts (env s e r) S b) : b.PendsOk (⟨s, e, r⟩ :: h) := by
  refine hP.step H he (fun t o hh => hc hh.counts) fun t o m hk => ?_
  rw [hacts.cont] at hk
  refine ⟨hk, fun h => h.acts hacts H.sound (by simp [hk]) fun hcall hint hcur => ?_⟩
  have := H.cont_cur he hcall hint hcur
  simp [hk] at this

theorem Abs.entry_unlink (a : Abs) (t : TcbId) : (a.unlink t).entry = a.entry := by
  rw [Abs.unlink]
  cases (a.task t).state <;> rfl

section priorities

variable {m : Prop} {p : ℕ}

theorem Abs.InPend.of_prio (h : a.InPend t o m) (ht : b.task t = { a.task t with prio := p }) (he : b.entry = a.entry) :
    b.InPend t o m := by
  unfold Abs.InPend
  rw [ht, he]
  exact h

theorem Abs.entry_move (a : Abs) (t : TcbId) (p : ℕ) (atHead : Bool) : (a.move t p atHead).entry = a.entry := by
  cases atHead <;> rfl

theorem Abs.InPend.reprio {self : Bool} (h : a.InPend t o m) (hw : a.WaitOk) : (a.reprio w p self).InPend t o m := by
  have he : (a.reprio w p self).entry = a.entry := by
    rw [Abs.reprio]
    cases (a.task w).state <;> cases (a.task w).pendOn <;> first | rfl | rw [Abs.entry_move]
  have htask := Abs.task_reprio hw w t p self
  split at htask
  · rename_i htw
    exact h.of_prio (p := p) (by rw [htask, htw.1]) he
  · exact h.of_prio htask he

theorem Abs.InPend.boost (h : a.InPend t o m) : (a.boost w p).InPend t o m := by
  have he : (a.boost w p).entry = a.entry := by
    rw [Abs.boost]
    cases (a.task w).state <;> rfl
  have htask := a.task_boost w t p
  split at htask
  · rename_i htw
    exact h.of_prio (p := p) (by rw [htask, htw.1]) he
  · exact h.of_prio htask he

theorem Abs.entry_restore (a : Abs) (t : TcbId) (p : ℕ) : (a.restore t p).entry = a.entry := by
  rw [Abs.restore]
  split
  · rfl
  · exact a.entry_move t p false

theorem Abs.InPend.restore (h : a.InPend t o m) : (a.restore w p).InPend t o m := by
  have htask := a.task_restore w t p
  split at htask
  · rename_i htw
    exact h.of_prio (p := p) (by rw [htask, htw]) (a.entry_restore w p)
  · exact h.of_prio htask (a.entry_restore w p)

end priorities

theorem AStep.pendsOk (hstep : AStep cfg s a e r a') (H : Ready cfg s a) (he : Enabled s e) (hp : ¬ PassedMatch cfg s e)
    (hP : a.PendsOk h) : a'.PendsOk (⟨s, e, r⟩ :: h) := by
  cases hstep with
  | still hc hacts => exact hP.acts H he hc hacts
  | acts hc hacts => exact hP.acts H he hc hacts
  | sched hc _ hacts hs => exact (hP.acts H he hc hacts).sched hs
  | @leave _ t k _ _ hc hcur _ hk hacts hs =>
    have hP' := hP.acts H he hc hacts
    apply Abs.PendsOk.sched _ hs
    intro t' o hk'
    rw [Abs.cont_setCont] at hk'
    split at hk'
    · exact absurd hk' (hk o)
    · exact hP' t' o hk'
  | @finish t _ _ hcur hk hacts =>
    refine hP.step H he (fun t o hh => ?_) fun t' o m hk' => ?_
    · obtain ⟨_, _, h, _⟩ := hh
      cases h
    · rw [hacts.cont, Abs.cont_setCont] at hk'
      split at hk'
      · cases hk'
      · rename_i ht
        refine ⟨hk', fun h => ?_⟩
        have h' : (a.setCont t .none).InPend t' o m := h
        apply h'.acts hacts (H.sound.congr rfl rfl rfl rfl rfl)
        · rw [Abs.cont_setCont, if_neg ht, hk']
          simp
        · intro _ _ hc
          exact ht (Option.some_inj.mp (hc.symm.trans hcur))
  | @mutexReturn t o r hcur hk hr =>
    refine hP.step H he (fun t o hh => ?_) fun t' o m hk' => ?_
    · obtain ⟨_, _, h, _⟩ := hh
      cases h
    · rw [Abs.cont_setCont] at hk'
      split at hk'
      · cases hk'
      · exact ⟨hk', id⟩
  | lock | intEnter | start =>
    refine hP.step H he ?_ fun t o m hk => ⟨hk, id⟩
    rintro t o ⟨_, _, h, _⟩
    cases h
  | @create args t _ ht hd _ _ hs =>
    have hP' : (a.start t args.prio).PendsOk (⟨s, .call (.taskCreate args), some { err := .none }⟩ :: h) := by
      refine hP.step H he (fun t o hh => ?_) fun t' o m hk => ⟨hk, fun h => ?_⟩
      · obtain ⟨_, _, h, _⟩ := hh
        cases h
      · have hne : t' ≠ t := by
          rintro rfl
          have hpend := H.sound.wait.pendOn_iff t'
          rcases h with ⟨hm, -⟩ | ⟨-, hdel, -⟩
          · simp [hm, hd, TaskState.isPend] at hpend
          · exact hdel hd
        exact h.congr (by rw [Abs.task_start, if_neg hne]) fun _ => rfl
    split at hs
    · exact hP'.sched hs
    · rwa [hs]
  | @delete p t _ _ _ _ _ _ hs =>
    apply Abs.PendsOk.sched _ hs
    refine hP.step H he (fun t o hh => ?_) fun t' o m hk => ?_
    · obtain ⟨_, _, h, _⟩ := hh
      cases h
    · rw [Abs.erase, Abs.cont_setCont] at hk
      split at hk
      · cases hk
      · rename_i ht
        change (a.unlink t).cont t' = _ at hk
        rw [Abs.cont_unlink] at hk
        refine ⟨hk, fun h => h.congr (by rw [Abs.task_erase, if_neg ht]) fun _ => ?_⟩
        change ((a.unlink t).entry (t', 0)).obj = _
        rw [Abs.entry_unlink]
  | @changePrio p q t _ _ _ _ _ _ hs =>
    apply Abs.PendsOk.sched _ hs
    refine hP.step H he (fun t o hh => ?_) fun t' o m hk => ?_
    · obtain ⟨_, _, h, _⟩ := hh
      cases h
    · rw [Abs.cont_reprio] at hk
      exact ⟨hk, fun h => h.reprio H.sound.wait⟩
  | refuse _ _ _ h => exact absurd h hp
  | @object c r o k hc hw =>
    refine hP.step H he (fun t o hh => ?_) fun t o m hk => ⟨hk, id⟩
    obtain ⟨_, _, h, _⟩ := hh
    cases h
    cases hc
  | take | nest =>
    refine hP.step H he (fun t o hh => ?_) fun t o m hk => ⟨hk, id⟩
    obtain ⟨_, _, h, _⟩ := hh
    cases h
  | unnest =>
    refine hP.step H he (fun t o hh => ?_) fun t o m hk => ⟨hk, id⟩
    obtain ⟨_, _, _, h, hx, _⟩ := hh
    cases h
    cases hx
  | @release o t opt hcur hm ho hz hw =>
    refine hP.step H he (fun t o' hh => ?_) fun t o m hk => ⟨hk, id⟩
    obtain ⟨_, _, h, -, -, d, hd, -⟩ := hh
    cases h
    have hd' : s.pendAt o 0 = some d := hd
    rw [H.rep.pendAt_eq, hw] at hd'
    cases hd'
  | @wait o t w timed timeout opt b _ hstop hm hz ho hne hb _ hs =>
    apply Abs.PendsOk.sched _ hs
    have hbc : b.cont = a.cont := by
      split at hb
      · rw [hb.2, Abs.cont_boost]
      · rw [hb]
    intro t' o' hk
    rw [Abs.cont_setCont] at hk
    split at hk
    · -- the task that waits now has not been made the owner since
      rename_i ht
      cases hk
      subst ht
      have htask := b.task_pendOn t' t' (some o) .mutex timed
      rw [if_pos rfl] at htask
      refine .inl ⟨?_, ?_, ?_⟩
      · exact (congrArg Task.pendOn htask :)
      · exact Abs.entry_pendOn_self
      · rintro (⟨_, _, h, _⟩ | ⟨hb, -⟩)
        · cases h
        · apply hb
          refine ⟨timeout, opt, rfl, rfl, ?_, ?_⟩
          · exact H.rep.cur.symm.trans hstop.1
          · exact H.rep.intNesting.symm.trans hstop.2.2.1
    · rename_i ht
      rw [Abs.cont_pendOn, hbc] at hk
      have hno : ¬ BlocksOn t' o' ⟨s, .call (.mutexPend (some o) timeout opt), none⟩ := H.not_blocksOn he (by simp [hk])
      have hmade : MadeOwner t' o' (⟨s, .call (.mutexPend (some o) timeout opt), none⟩ :: h) ↔ MadeOwner t' o' h := by
        rw [MadeOwner, and_iff_right hno, or_iff_right]
        rintro ⟨_, _, h, _⟩
        cases h
      rw [hmade]
      have hb' : b.InPend t' o' (MadeOwner t' o' h) := by
        split at hb
        · rw [hb.2]
          exact (hP t' o' hk).boost
        · rw [hb]
          exact hP t' o' hk
      apply hb'.congr
      · exact (b.task_pendOn t t' (some o) .mutex timed).trans (if_neg ht)
      · intro _
        exact Abs.entry_pendOn_of_ne ht
  | @handOff o t d opt _ hcur hint hm ho hz hw hrdy hs =>
    have hd : d ∈ a.waiting o := List.mem_of_mem_head? hw
    have hat : s.pendAt o 0 = some d := by rw [H.rep.pendAt_eq, ← List.head?_eq_getElem?, hw]
    have hP' : ((a.restore t (a.obj o).ownerPrio).handOff o d.1).PendsOk
        (⟨s, .call (.mutexPost (some o) opt), some { err := .none }⟩ :: h) := by
      intro t' o' hk
      rw [Abs.handOff, Abs.cont_wake] at hk
      change (a.restore t (a.obj o).ownerPrio).cont t' = _ at hk
      rw [Abs.cont_restore] at hk
      have hno : ¬ BlocksOn t' o' ⟨s, .call (.mutexPost (some o) opt), some { err := .none }⟩ :=
        H.not_blocksOn he (by simp [hk])
      by_cases ht : t' = d.1
      · subst ht
        have hp := H.sound.wait.isPend hd
        rcases hP d.1 o' hk with ⟨hmx, hent, -⟩ | ⟨hnp, -⟩
        · obtain ⟨htab, hobj⟩ := (H.sound.wait.mem_iff o d).mp hd
          have hd0 := H.sound.wait.single d.1 (by simp [hmx]) d htab
          rw [← hd0, hobj] at hent
          cases hent
          have htask := a.task_restore t d.1 (a.obj o).ownerPrio
          refine .inr ?_
          rw [Abs.task_handOff, if_pos rfl]
          refine ⟨by grind, by grind, .inl ⟨by grind, .inl ⟨opt, _, rfl, rfl, rfl, d, hat, H.rep.tcbPtr H.sound hd⟩⟩⟩
        · rw [hp] at hnp
          cases hnp
      · have hmade : MadeOwner t' o' (⟨s, .call (.mutexPost (some o) opt), some { err := .none }⟩ :: h) ↔
            MadeOwner t' o' h := by
          rw [MadeOwner, and_iff_right hno, or_iff_right]
          rintro ⟨_, _, h, -, -, x, hx, hxt⟩
          cases h
          rw [hat] at hx
          cases hx
          rw [H.rep.tcbPtr H.sound hd] at hxt
          exact ht (Option.some_inj.mp hxt).symm
        rw [hmade]
        apply (Abs.InPend.restore (hP t' o' hk)).congr
        · rw [Abs.task_handOff, if_neg ht]
        · intro _
          rw [Abs.handOff, Abs.entry_wake]
          rfl
    split at hs
    · exact hP'.sched hs
    · rwa [hs]
  | unlock _ _ _ hs | intExit _ hs =>
    apply Abs.PendsOk.sched _ hs
    refine hP.step H he (fun t o hh => ?_) fun t o m hk => ⟨hk, id⟩
    obtain ⟨_, _, h, _⟩ := hh
    cases h

theorem AStep.pendReturns (hstep : AStep cfg s a .finish r a') (H : Ready cfg s a) (hP : a.PendsOk h) (hcur : a.cur = some t)
    (hk : a.cont t = .mutexPend o) : ∃ x, r = some x ∧ (x.err = .none ↔ MadeOwner t o h) ∧
      (x.err = .timeout ↔ ¬ MadeOwner t o h) := by
  cases hstep with
  | still hc | acts hc | sched hc | leave hc | refuse hc => exact absurd trivial hc
  | finish hcur' hk' =>
    rw [hcur] at hcur'
    cases hcur'
    exact absurd hk (hk' o)
  | mutexReturn hcur' hk' hr =>
    rw [hcur] at hcur'
    cases hcur'
    refine ⟨_, rfl, ?_⟩
    rw [hr]
    rcases hP t o hk with ⟨hm, hent, -⟩ | ⟨-, -, ⟨hst, hmade⟩ | ⟨hst, hmade⟩⟩
    · -- the running task does not wait
      have htab := (H.sound.wait.table_iff t).mpr (by rw [hm]; rfl)
      obtain ⟨d, hd⟩ := List.exists_mem_of_ne_nil _ htab
      have hd0 := H.sound.wait.single t (by simp [hm]) d hd
      subst hd0
      have hmem := (H.sound.wait.mem_iff o (t, 0)).mpr ⟨hd, hent⟩
      exact absurd rfl (H.cur.not_waiting H.sound hcur o hmem)
    · simp [hst, hmade, PendStatus.mutexErr]
    · simp [hst, hmade, PendStatus.mutexErr]

end pends

section handOff

/-- The mutexes after a run, and what its last step did to one. -/
structure HandOffOk (h : List Step) (s : OS) : Prop where
  owned : ∀ o, (s.obj o).type = .mutex → ((s.obj o).ownerTCBPtr ≠ none ↔ (s.obj o).ownerNestingCtr ≠ 0)
  waited : ∀ o k d, (s.obj o).type = .mutex → s.pendAt o k = some d → (s.obj o).ownerTCBPtr ≠ none
  other : ∀ o k d, (s.obj o).type = .mutex → s.pendAt o k = some d → (s.pendData d).tcbPtr ≠ (s.obj o).ownerTCBPtr
  handOff : ∀ x ∈ h.head?, ∀ o opt r d, x.event = .call (.mutexPost (some o) opt) → x.ret = some r → r.err = .none →
    x.pre.pendAt o 0 = some d →
      (s.obj o).ownerTCBPtr = (x.pre.pendData d).tcbPtr ∧ (s.obj o).ownerNestingCtr = 1 ∧ ∀ k, s.pendAt o k ≠ some d
  returns : ∀ x ∈ h.head?, ∀ t o, x.event = .finish → x.pre.tcbCurPtr = some t → x.pre.cont t = .mutexPend o →
    ∃ r, x.ret = some r ∧ (r.err = .none ↔ MadeOwner t o h.tail) ∧ (r.err = .timeout → ¬ MadeOwner t o h.tail)

theorem Rep.owner (h : Rep cfg s a) (o : ObjId) : (s.obj o).ownerTCBPtr = (a.obj o).owner :=
  (congrArg Sync.owner (h.obj o)).symm

theorem Rep.nesting (h : Rep cfg s a) (o : ObjId) : (s.obj o).ownerNestingCtr = (a.obj o).nesting :=
  (congrArg Sync.nesting (h.obj o)).symm

theorem Abs.Sched.obj (hs : a.Sched a') : a'.obj = a.obj := by
  obtain ⟨-, rfl⟩ | ⟨-, rfl⟩ | ⟨-, -, p, t, -, rfl⟩ := hs <;> rfl

theorem AStep.handOff_effect {opt : Opt} {x : Ret} (hstep : AStep cfg s a (.call (.mutexPost (some o) opt)) (some x) a')
    (H : Ready cfg s a) (hx : x.err = .none) (hd : (a.waiting o).head? = some d) :
    (a'.obj o).owner = some d.1 ∧ (a'.obj o).nesting = 1 ∧ d ∉ a'.waiting o := by
  obtain ⟨t, -, hs⟩ := hstep.handedOff hx hd
  have hobj : (((a.restore t (a.obj o).ownerPrio).handOff o d.1).obj o).owner = some d.1 ∧
      (((a.restore t (a.obj o).ownerPrio).handOff o d.1).obj o).nesting = 1 := by
    rw [Abs.obj_handOff, if_pos rfl]
    exact ⟨rfl, rfl⟩
  have hno : d ∉ ((a.restore t (a.obj o).ownerPrio).handOff o d.1).waiting o :=
    fun hm => (H.sound.mem_handOff (List.mem_of_mem_head? hd) hm).2 rfl
  rcases hs with hs | rfl
  · rw [hs.obj, hs.waiting]
    exact ⟨hobj.1, hobj.2, hno⟩
  · exact ⟨hobj.1, hobj.2, hno⟩

theorem run_handOffOk (run : CodeRun cfg (fun _ x => ¬ PassedMatch cfg x.pre x.event ∧
    ¬ NestsDeeper x.pre x.event) h s) (hfit : NoWrap cfg h) : HandOffOk h s := by
  replace run : Run cfg _ h s := run.fits hfit .nat
  have hinit : (Abs.init cfg).MutexOk ∧ (Abs.init cfg).PendsOk [] := ⟨fun o ho => (nomatch ho), fun t o hk => (nomatch hk)⟩
  have hstate {h s} (run : Run cfg (fun _ x => ¬ PassedMatch cfg x.pre x.event ∧ ¬ NestsDeeper x.pre x.event) h s) :
      ∃ a, Ready cfg s a ∧ a.MutexOk ∧ a.PendsOk h :=
    run.invariant (I := fun h a => a.MutexOk ∧ a.PendsOk h) (fun _ _ hP => hP.1) hinit
      fun h s a e r a' H hI he hP hstep => ⟨hstep.mutexOk H hP.1 hP.2 hI.1, hstep.pendsOk H he hP.1 hI.2⟩
  obtain ⟨a, H, hM, -⟩ := hstate run
  have hlast : ∀ x ∈ h.head?, ∃ b, Ready cfg x.pre b ∧ b.PendsOk h.tail ∧ ∃ a', Ready cfg s a' ∧
      AStep cfg x.pre b x.event x.ret a' := by
    cases run with
    | init => simp
    | step run he hx hk =>
      rintro _ ⟨⟩
      obtain ⟨b, Hb, -, hP⟩ := hstate run
      obtain ⟨a', H', hstep⟩ := Event.exec_ready Hb he hx hk.1
      exact ⟨b, Hb, hP, a', H', hstep⟩
  refine ⟨fun o ho => ?_, fun o k d ho hd => ?_, fun o k d ho hd => ?_, fun x hx o opt r d he hr hn hd => ?_,
    fun x hx t o he hcur hk => ?_⟩
  · rw [H.rep.type] at ho
    rw [H.rep.owner, H.rep.nesting]
    exact (hM o ho).owned
  · rw [H.rep.type] at ho
    rw [H.rep.owner]
    exact (hM o ho).waited (List.ne_nil_of_mem ((H.rep.pendAt_iff o d).mp ⟨k, hd⟩))
  · rw [H.rep.type] at ho
    have hmem := (H.rep.pendAt_iff o d).mp ⟨k, hd⟩
    rw [H.rep.tcbPtr H.sound hmem, H.rep.owner]
    exact fun h => (hM o ho).other d hmem h.symm
  · obtain ⟨b, Hb, -, a', H', hstep⟩ := hlast x hx
    rw [Hb.rep.pendAt_eq, ← List.head?_eq_getElem?] at hd
    rw [he, hr] at hstep
    obtain ⟨ho, hn', hno⟩ := hstep.handOff_effect Hb hn hd
    rw [H'.rep.owner, H'.rep.nesting, Hb.rep.tcbPtr Hb.sound (List.mem_of_mem_head? hd)]
    refine ⟨ho, hn', fun k hk => hno ?_⟩
    exact (H'.rep.pendAt_iff o d).mp ⟨k, hk⟩
  · obtain ⟨b, Hb, hP, a', H', hstep⟩ := hlast x hx
    rw [he] at hstep
    rw [← Hb.rep.cur] at hcur
    rw [← Hb.rep.cont] at hk
    obtain ⟨r, hr, hnone, htime⟩ := hstep.pendReturns Hb hP hcur hk
    exact ⟨r, hr, hnone, htime.mp⟩

/-- A task waits for a mutex, is made its owner and returns. -/
theorem run_handOffOk_post : ∃ h s, CodeRun Cfg.repository
    (fun _ x => ¬ PassedMatch Cfg.repository x.pre x.event ∧ ¬ NestsDeeper x.pre x.event) h s ∧
    NoWrap Cfg.repository h ∧
    (s.obj 0).ownerTCBPtr = some 5 ∧ (h.head?.map fun x => (x.event, x.ret.map Ret.err)) = some (.finish,
    some .none) ∧ HandOffOk h s := by
  obtain ⟨h, s, run, hfit, ho, hr⟩ := RunIn.of_play .word Cfg.repository
    (fun _ x => ¬ PassedMatch Cfg.repository x.pre x.event ∧ ¬ NestsDeeper x.pre x.event) 60
    (fun h s => (s.obj 0).ownerTCBPtr = some 5 ∧
      (h.head?.map fun x => (x.event, x.ret.map Ret.err)) = some (.finish, some .none))
    [.newTask 4 6, .call (.mutexCreate (some 0)), .start, .call (.mutexPend (some 0) 0 optPendBlocking), .newTask 5 5,
      .call (.mutexPend (some 0) 10 optPendBlocking), .call (.mutexPost (some 0) optPostNone), .finish] (by decide +kernel)
  exact ⟨h, s, run, hfit, ho, hr, run_handOffOk run hfit⟩

/-- The owner of a mutex for which 65536 tasks wait posts it: none of them becomes the owner. -/
theorem run_handOffOk_overflow : ∃ h s, CodeRun Cfg.repository
    (fun _ x => ¬ PassedMatch Cfg.repository x.pre x.event ∧ ¬ NestsDeeper x.pre x.event) h s ∧ ¬ HandOffOk h s := by
  obtain ⟨h, h₀, s, run, -, htype, hown, hhead⟩ := RunIn.of_crowd Cfg.repository 60
    [.newTask 4 7, .newTask 5 4, .call (.mutexCreate (some 0)), .call (.semCreate (some 1) 0), .start,
      .call (.mutexPend (some 0) 0 optPendBlocking), .call (.semPend (some 1) 0 optPendBlocking)]
    [.call (.semPost (some 1) optPost1), .finish, .call (.mutexPost (some 0) optPostNone)]
    (P := fun x => ¬ PassedMatch Cfg.repository x.pre x.event ∧ ¬ NestsDeeper x.pre x.event)
    (F := fun B => B.pendCrowd 0 .mutex (.mutexPend 0) 65536) (H := fun B => B.HostsMutex 0)
    (Q := fun _ s => (s.obj 0).type = .mutex ∧ (s.obj 0).ownerTCBPtr = none ∧ (s.obj 0).pendList.headPtr = some (10, 0))
    (fun _ hP => hP.1) (fun h B run hB hdel => mutexCrowd_gathers run hB hdel (fun _ _ _ => ⟨id, id⟩)
      fun _ _ hown => ⟨id, fun hdeep => hown hdeep.2.2.2.2⟩)
    (by decide +kernel)
  exact ⟨_, s, run, fun hok => hok.waited 0 0 _ htype hhead hown⟩

end handOff

end UcosIII
