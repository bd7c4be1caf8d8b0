import UcosIII.Abstract.Refinement
import UcosIII.Kernel.Script
import UcosIII.Lists.Counters

/-!
Runs with more tasks than the counter of a list can count. `OS_OBJ_QTY` has 16 bits: when 65536 tasks are in a ready
list or in the pend list of an object, its counter is 0 again and the kernel takes the list for empty.
-/

namespace UcosIII

open Prog

variable {n k : ℕ} {cfg : Cfg} {s s' : OS} {a a' b : Abs} {t : TcbId} {e : Event} {r : Option Ret} {E : Env}
  {S : Act → Prop} {h : List Step}

section dormant

theorem TaskState.suspend_ne_del {st : TaskState} (h : st ≠ .del) : st.suspend ≠ .del := by
  cases st <;> simp [TaskState.suspend] at h ⊢

theorem TaskState.resume_ne_del {st : TaskState} (h : st ≠ .del) : st.resume ≠ .del := by
  cases st <;> simp [TaskState.resume] at h ⊢

theorem Act.del_iff {x : Act} (hv : x.Valid E a) (t : TcbId) :
    ((x.apply a).task t).state = .del ↔ (a.task t).state = .del := by
  cases x with
  | wake w st =>
    rw [Act.apply, Abs.task_wake]
    split <;> grind
  | flagWake w =>
    rw [Act.apply, Abs.task_flagWake]
    split <;> grind
  | expire w =>
    rw [Act.apply, Abs.task_expire]
    split <;> grind
  | suspend w =>
    rw [Act.apply, Abs.task_suspend]
    split <;> grind [TaskState.suspend_ne_del]
  | resume w =>
    rw [Act.apply, Abs.task_resume]
    split <;> grind [TaskState.resume_ne_del]
  | pendOn w o kind timed =>
    have hs := hv.1.2.1
    rw [Act.apply, Abs.task_pendOn]
    split <;> grind
  | pendMulti w timed ds =>
    have hs := hv.1.2.1
    rw [Act.apply, Abs.foldl_attach_task, Abs.task_block]
    split <;> grind
  | delay w =>
    have hs : (a.task w).state = .rdy := hv.2.1
    rw [Act.apply, Abs.task_delay]
    split <;> grind
  | flagsOpt w opt | pendStatus w st =>
    rw [Act.apply, Abs.task_modTask]
    split <;> grind
  | rotate | store => exact Iff.rfl

theorem Abs.Acts.del_iff (hacts : a.Acts E S b) (t : TcbId) : (b.task t).state = .del ↔ (a.task t).state = .del := by
  induction hacts with
  | refl => exact Iff.rfl
  | snoc _ _ hv _ ih => exact (Act.del_iff hv t).trans ih

theorem Abs.Sched.task (h : a.Sched a') : a'.task = a.task := by
  obtain ⟨-, rfl⟩ | ⟨-, rfl⟩ | ⟨-, -, p, t, -, rfl⟩ := h <;> rfl

def Event.starts : Event → Option TcbId
  | .call c => c.starts
  | _ => none

theorem AStep.dormant (hstep : AStep cfg s a e r a') (hw : a.WaitOk) (hnew : e.starts ≠ some t)
    (hs : (a.task t).state = .del) : (a'.task t).state = .del := by
  cases hstep with
  | still _ h => exact (h.del_iff t).mpr hs
  | acts _ h => exact (h.del_iff t).mpr hs
  | sched _ _ h hsch =>
    rw [hsch.task]
    exact (h.del_iff t).mpr hs
  | leave _ _ _ _ h hsch =>
    rw [hsch.task]
    exact (h.del_iff t).mpr hs
  | finish _ _ h => exact (h.del_iff t).mpr hs
  | mutexReturn | object | take | nest | unnest | release | lock | intEnter | start => exact hs
  | @create args w _ hw' _ _ _ hs' =>
    have hne : t ≠ w := fun h => hnew (hw'.trans (congrArg some h.symm))
    have hstart : ((a.start w args.prio).task t).state = .del := by
      rw [Abs.task_start, if_neg hne]
      exact hs
    split at hs'
    · rwa [hs'.task]
    · rwa [hs']
  | @delete p w _ _ _ _ _ _ hsch =>
    rw [hsch.task, Abs.task_erase]
    grind
  | @changePrio p q w _ _ _ _ _ _ hsch =>
    rw [hsch.task, Abs.task_reprio hw]
    grind
  | @refuse _ _ w _ _ hrdy =>
    change ((a.modTask w fun c => { c with state := .dly }).task t).state = .del
    grind
  | @wait o w u timed _ _ b _ hstop _ _ _ _ hb _ hsch =>
    have hrdy := hstop.2.1
    rw [hsch.task]
    change ((b.pendOn w (some o) .mutex timed).task t).state = .del
    rw [Abs.task_pendOn]
    split at hb
    · rw [hb.2, Abs.task_boost, Abs.task_boost]
      grind
    · rw [hb]
      grind
  | @handOff o w d opt _ _ _ _ _ _ hhead _ hsch =>
    have htask : ((a.restore w (a.obj o).ownerPrio).handOff o d.1).task t = a'.task t := by
      split at hsch
      · rw [hsch.task]
      · rw [hsch]
    have hd := ((hw.mem_iff o d).mp (List.mem_of_mem_head? hhead)).1
    have hne : d.1 ≠ t := by
      rintro rfl
      rw [hw.table_nil (by rw [hs]; rfl)] at hd
      cases hd
    rw [← htask, Abs.task_handOff, Abs.task_restore, Abs.task_restore]
    grind
  | unlock _ _ _ hsch | intExit _ hsch =>
    rw [hsch.task]
    exact hs

structure Abs.Untouched (a : Abs) (t : TcbId) : Prop where
  state : (a.task t).state = .del
  cont : a.cont t = .none
  cur : a.cur ≠ some t

theorem Abs.Sched.cur_or (hs : a.Sched a') (hI : a'.Sound cfg) (hcur : a'.cur = some t) :
    a.cur = some t ∨ (a'.task t).state = .rdy := by
  obtain ⟨-, rfl⟩ | ⟨-, rfl⟩ | ⟨-, -, p, u, hb, rfl⟩ := hs
  · exact .inl hcur
  · exact .inl hcur
  · obtain rfl : u = t := Option.some_inj.mp hcur
    exact .inr ((hI.ready u p).mp (List.mem_of_mem_head? hb.1)).1

theorem Abs.Sched.cont (hs : a.Sched a') : a'.cont = a.cont := by
  obtain ⟨-, rfl⟩ | ⟨-, rfl⟩ | ⟨-, -, p, u, -, rfl⟩ := hs <;> rfl

theorem AStep.untouched (hstep : AStep cfg s a e r a') (hI : a.Sound cfg) (hI' : a'.Sound cfg) (hnew : e.starts ≠ some t)
    (h : a.Untouched t) : a'.Untouched t := by
  have hdel := hstep.dormant hI.wait hnew h.state
  suffices h' : a'.cont t = .none ∧ a'.cur ≠ some t from ⟨hdel, h'.1, h'.2⟩
  have hsched {b : Abs} (hs : b.Sched a') (hk : b.cont t = .none) (hc : b.cur ≠ some t) :
    a'.cont t = .none ∧ a'.cur ≠ some t := by
    refine ⟨by rw [hs.cont, hk], fun hcur => ?_⟩
    rcases hs.cur_or hI' hcur with hb | hb
    · exact hc hb
    · rw [hdel] at hb
      cases hb
  have hset {b : Abs} {u : TcbId} (k : Cont) (hu : a.cur = some u) (hk : b.cont t = .none) :
    (b.setCont u k).cont t = .none := by
    have hne : t ≠ u := fun htu => h.cur (htu ▸ hu)
    change Function.update b.cont u k t = .none
    rw [Function.update_of_ne hne, hk]
  cases hstep with
  | still _ hacts | acts _ hacts => exact ⟨by rw [hacts.cont, h.cont], by rw [hacts.cur]; exact h.cur⟩
  | sched _ _ hacts hs => exact hsched hs (by rw [hacts.cont, h.cont]) (by rw [hacts.cur]; exact h.cur)
  | leave _ hu _ _ hacts hs =>
    exact hsched hs (hset _ hu (by rw [hacts.cont, h.cont])) (fun hc => h.cur (hacts.cur.symm.trans hc))
  | finish hu _ hacts => exact ⟨by rw [hacts.cont]; exact hset _ hu h.cont, fun hc => h.cur (hacts.cur.symm.trans hc)⟩
  | mutexReturn hu => exact ⟨hset _ hu h.cont, h.cur⟩
  | refuse | object | take | nest | unnest | release | lock | intEnter => exact ⟨h.cont, h.cur⟩
  | create _ _ _ _ hs =>
    split at hs
    · exact hsched hs h.cont h.cur
    · exact hs ▸ ⟨h.cont, h.cur⟩
  | @delete p u _ _ _ _ _ _ hs =>
    have hk : (a.erase u cfg.prioMax).cont t = .none := by
      rw [Abs.erase, Abs.cont_setCont]
      split
      · rfl
      · change (a.unlink u).cont t = .none
        rw [Abs.cont_unlink, h.cont]
    exact hsched hs hk fun hc => h.cur ((congrArg Prod.fst (Abs.who_erase a u cfg.prioMax)).symm.trans hc)
  | @changePrio p q u _ _ _ _ _ _ hs =>
    exact hsched hs (by rw [Abs.cont_reprio, h.cont])
      fun hc => h.cur ((congrArg Prod.fst (Abs.who_reprio a u q (p = none))).symm.trans hc)
  | @wait o w u timed _ _ b _ hstop _ _ _ _ hb _ hs =>
    have hb' : b.cont = a.cont ∧ b.cur = a.cur := by
      split at hb
      · rw [hb.2]
        exact ⟨Abs.cont_boost _ _ _, congrArg Prod.fst (Abs.who_boost _ _ _)⟩
      · rw [hb]
        exact ⟨rfl, rfl⟩
    refine hsched hs (hset _ hstop.1 (by rw [Abs.cont_pendOn, hb'.1, h.cont])) fun hc => h.cur ?_
    exact hb'.2.symm.trans ((congrArg Prod.fst (Abs.who_of_frame (Abs.frame_pendOn _ _ _ _))).symm.trans hc)
  | @handOff o w d opt _ _ _ _ _ _ _ _ hs =>
    have hk : ((a.restore w (a.obj o).ownerPrio).handOff o d.1).cont = a.cont :=
      (Abs.cont_wake _ _ _).trans (Abs.cont_restore _ _ _)
    have hwho : ((a.restore w (a.obj o).ownerPrio).handOff o d.1).cur = a.cur :=
      congrArg Prod.fst ((Abs.who_handOff _ _ _).trans (Abs.who_restore _ _ _))
    have hcur := fun hc => h.cur (hwho.symm.trans hc)
    split at hs
    · exact hsched hs (by rw [hk, h.cont]) hcur
    · exact hs ▸ ⟨by rw [hk, h.cont], hcur⟩
  | unlock _ _ _ hs => exact hsched hs h.cont h.cur
  | intExit _ hs => exact hsched hs h.cont h.cur
  | @start _ p u _ hb =>
    refine ⟨h.cont, fun hc => ?_⟩
    obtain rfl : u = t := Option.some_inj.mp hc
    have := ((hI.ready u p).mp (List.mem_of_mem_head? hb.1)).1
    rw [h.state] at this
    cases this

/-- A task that no step of the run has set up is as `OSInit` leaves it. -/
theorem RunIn.untouched {P : List Step → Step → Prop} (run : RunIn .word cfg P h s) (hfit : NoWrap cfg h)
    (hP : ∀ h x, P h x → ¬ PassedMatch cfg x.pre x.event) (hnew : ∀ x ∈ h, x.event.starts ≠ some t) (ht : 4 ≤ t) :
    (s.tcb t).taskState = .del ∧ s.cont t = .none := by
  have hinit : (Abs.init cfg).Untouched t := by
    have hne : t ≠ idleTaskTCB ∧ t ≠ tickTaskTCB ∧ t ≠ statTaskTCB ∧ t ≠ tmrTaskTCB := by
      refine ⟨?_, ?_, ?_, ?_⟩ <;> rintro rfl <;> exact absurd ht (by decide)
    refine ⟨?_, rfl, fun hc => by cases hc⟩
    rw [Abs.init, Abs.task_start, if_neg hne.2.2.2, Abs.task_start, if_neg hne.2.2.1, Abs.task_start, if_neg hne.2.1,
      Abs.task_start, if_neg hne.1]
    rfl
  replace run : Run cfg P h s := run.fits hfit .nat
  obtain ⟨a, H, hU⟩ := run.invariant
    (I := fun h a => (∀ x ∈ h, x.event.starts ≠ some t) → a.Untouched t) hP (fun _ => hinit)
    fun h s a e r a' H hU he hP' hstep hnew => by
      obtain ⟨hnew, hold⟩ := List.forall_mem_cons.mp hnew
      exact hstep.untouched H.sound (hstep.sound H.sound H.rep.nodup (hP _ _ hP')) hnew (hU hold)
  exact ⟨(H.rep.state t).trans (hU hnew).state, (congrFun H.rep.cont t).symm.trans (hU hnew).cont⟩

end dormant

section script

variable {P : Step → Prop} [DecidablePred P]

theorem RunIn.of_crowd (cfg : Cfg) (n : ℕ) (es₀ es : List Event) {F : OS → OS} {H : OS → Prop} [DecidablePred H]
    {Q : List Step → OS → Prop} [∀ h s, Decidable (Q h s)] (hP : ∀ x, P x → ¬ PassedMatch cfg x.pre x.event)
    (hF : ∀ h s, CodeRun cfg (fun _ => P) h s → H s → (∀ t, 10 ≤ t → (s.tcb t).taskState = .del ∧ s.cont t = .none) →
      ∃ h', CodeRun cfg (fun _ => P) h' (F s))
    (hp : ((play cfg (fun _ => P) n es₀).any fun x => H x.2 ∧ (∀ y ∈ x.1, ∀ t ∈ y.event.starts, t < 10) ∧
      ((codePlay cfg P n es [] (F x.2)).any fun y => Q y.1 y.2) = true) = true) :
    ∃ h h₀ s, CodeRun cfg (fun _ => P) (h ++ h₀) s ∧ h.map Step.event = es.reverse ∧ Q h s := by
  obtain ⟨⟨h₀, s₀⟩, hes, hQ⟩ := (Option.any_eq_true _ _).mp hp
  obtain ⟨⟨⟨⟩, s₁⟩, h1, hes⟩ := Option.bind_eq_some_iff.mp hes
  rw [Option.join_eq_some_iff] at h1
  obtain ⟨hhosts, hnew, hrest⟩ := of_decide_eq_true hQ
  obtain ⟨⟨h, s⟩, hplay, hQ⟩ := (Option.any_eq_true _ _).mp hrest
  obtain ⟨run, hfit⟩ := RunIn.of_playFrom (.init (runsIn_of_checked h1 .word)) (fun x hx => by cases hx) hes
  obtain ⟨h', run'⟩ := hF h₀ s₀ run hhosts fun t ht =>
    run.untouched hfit (fun _ x => hP x) (fun x hx hst => absurd (hnew x hx t hst) (Nat.not_lt.mpr ht))
      (Nat.le_trans (by decide) ht)
  exact ⟨h, h', s, RunIn.of_codePlay (h := []) run' hplay, (codePlay_events hplay).trans (List.append_nil _),
    of_decide_eq_true hQ⟩

end script

section ready

/-- A task of priority 5 as `OSTaskCreate` sets it up, with its links in the ready list. -/
def crowdTCB (dflt : Tick) (prev next : Option TcbId) : TCB :=
  { TCB.init Cfg.repository with prio := 5, timeQuantaCtr := dflt, nextPtr := next, prevPtr := prev }

/-- `k` tasks of priority 5 are created in the state `B`, from task 10 on; the counter of their list has the lower 16 bits
of `k`. -/
def OS.rdyCrowd (B : OS) (k : ℕ) : OS :=
  { B with
    tcb := fun x =>
      if 10 ≤ x ∧ x < 10 + k then
        crowdTCB B.schedRoundRobinDfltTimeQuanta (if x = 10 then none else some (x - 1))
          (if x + 1 < 10 + k then some (x + 1) else none)
      else B.tcb x
    rdyList := Function.update B.rdyList 5 { headPtr := some 10, tailPtr := some (9 + k), nbrEntries := k % 65536 }
    prioTbl := Function.update B.prioTbl 0 (B.prioTbl 0 ||| prioBit 5) }

def crowdArgs (t : TcbId) : TaskArgs where
  tcb := some t
  hasTask := true
  prio := 5
  hasStk := true
  stkLimit := 10
  stkSize := 100
  qSize := 0
  timeQuanta := 0

theorem taskCreateCheck_crowd (hint : s.intNestingCtr = 0) : taskCreateCheck Cfg.repository s (crowdArgs t) = .inr t := by
  rw [taskCreateCheck, if_neg (by omega)]
  rfl

def OS.HostsReady (B : OS) : Prop := B.running = false ∧ B.intNestingCtr = 0 ∧ (B.rdyList 5).nbrEntries = 0

instance : DecidablePred OS.HostsReady := fun B => inferInstanceAs (Decidable (B.running = false ∧ _))

theorem taskStart_ready_first {B : OS} (hempty : (B.rdyList 5).nbrEntries = 0) :
    (taskStart 10 (crowdArgs 10)).run .word 1 Cfg.repository B = some ((), B.rdyCrowd 1) := by
  have hlt : (0 : ℕ) < prioTblSize Cfg.repository := by decide
  have hp : 5 < Cfg.repository.prioMax := by decide
  simp [taskStart, crowdArgs, taskInitTCB, modTcb, prioInsert, modPrioTbl, rdyListInsertTail, getTcb, getRdyList, OS.modTcb,
    OS.modPrioTbl, modRdyList, hlt, hp, OS.rdyCrowd, hempty, OS.modRdyList]
  funext (x : ℕ)
  by_cases h1 : x = 10
  · subst h1
    simp [crowdTCB, TCB.init]
  · have h2 : ¬ (10 ≤ x ∧ x < 11) := by omega
    simp [h1, h2]

theorem taskStart_ready_next {B : OS} (hk : 0 < k) (hk' : k < 65536) :
    (taskStart (10 + k) (crowdArgs (10 + k))).run .word 1 Cfg.repository (B.rdyCrowd k) = some ((), B.rdyCrowd (k + 1)) := by
  have hnbr : k % 65536 ≠ 0 := by omega
  have hlt : (0 : ℕ) < prioTblSize Cfg.repository := by decide
  have hp : 5 < Cfg.repository.prioMax := by decide
  simp [taskStart, crowdArgs, taskInitTCB, modTcb, prioInsert, modPrioTbl, rdyListInsertTail, getTcb, getRdyList, OS.modTcb,
    OS.modPrioTbl, incRdyList, objQtyInc, modRdyList, hlt, hp, OS.rdyCrowd, hnbr, OS.modRdyList]
  refine ⟨?_, ?_, ?_⟩
  · funext (x : ℕ)
    by_cases h1 : x = 10 + k
    · subst h1
      have h2 : 10 + (k + 1) ≤ 10 + k + 1 := by omega
      simp [crowdTCB, TCB.init, hk.ne', h2]
    · by_cases h2 : x = 9 + k
      · subst h2
        have h3 : 10 ≤ 9 + k := by omega
        have h4 : 9 + k < 10 + (k + 1) := by omega
        have h5 : 9 + k + 1 < 10 + (k + 1) := by omega
        have h6 : 10 + k = 9 + k + 1 := by omega
        simp [h3, h4, h5, h6, crowdTCB, TCB.init]
      · have h3 : (10 ≤ x ∧ x < 10 + k) ↔ 10 ≤ x ∧ x < 10 + (k + 1) := by omega
        simp only [ne_eq, h1, not_false_eq_true, Function.update_of_ne, h2, h3]
        split
        · have h4 : x + 1 < 10 + k ↔ x + 1 < 10 + (k + 1) := by omega
          rw [if_congr h4 rfl rfl]
        · rfl
  · rw [BitVec.or_assoc, BitVec.or_self]
  · rw [show 9 + (k + 1) = 10 + k from by omega]

theorem not_idleStops_newTask {p : ℕ} : ¬ IdleStops s (.newTask t p) r := by
  rintro ⟨-, c, hc, hs⟩
  cases hc
  exact hs

theorem rdyCrowd_gathers {P : Step → Prop} {B : OS} (run : CodeRun Cfg.repository (fun _ => P) h B) (hB : B.HostsReady)
    (hdel : ∀ t, 10 ≤ t → (B.tcb t).taskState = .del ∧ B.cont t = .none) (hP : ∀ s t r, P ⟨s, .newTask t 5, r⟩)
    (hk : k < 65536) :
    ∃ h', CodeRun Cfg.repository (fun _ => P) h' (B.rdyCrowd (k + 1)) := by
  obtain ⟨hrun, hint, hempty⟩ := hB
  have hcreate {s s' : OS} {t : TcbId} (hs : s.running = false) (hi : s.intNestingCtr = 0) (hs' : s'.running = false)
      (hx : (taskStart t (crowdArgs t)).run .word 1 Cfg.repository s = some ((), s')) :
      (Event.newTask t 5).exec.run .word 1 Cfg.repository s = some (some { err := .none }, s') := by
    change (errOnly (osTaskCreate (crowdArgs t))).run .word 1 Cfg.repository s = _
    simp only [errOnly, osTaskCreate, bind_apply, ask_apply, get_apply, Option.bind_some, taskCreateCheck_crowd hi, hx]
    simp [hs']
  have henabled {s : OS} {t : TcbId} (hs : s.running = false) (hd : (s.tcb t).taskState = .del) : Enabled s (.newTask t 5) :=
    ⟨⟨fun x hx => by cases hx; exact hd, fun x hx => by cases hx⟩, .inr (.inr ⟨hs, rfl⟩)⟩
  induction k with
  | zero => exact ⟨_, .step run (henabled hrun (hdel 10 (Nat.le_refl _)).1)
      ⟨1, hcreate hrun hint hrun (taskStart_ready_first hempty)⟩ (hP _ _ _)⟩
  | succ k ih =>
    obtain ⟨h', run'⟩ := ih (by omega)
    refine ⟨_, .step run' (henabled (t := 10 + (k + 1)) hrun ?_)
      ⟨1, hcreate hrun hint hrun (taskStart_ready_next (by omega) hk)⟩ (hP _ _ _)⟩
    have hlast : ¬ (10 ≤ 10 + (k + 1) ∧ 10 + (k + 1) < 10 + (k + 1)) := by omega
    change (if 10 ≤ 10 + (k + 1) ∧ 10 + (k + 1) < 10 + (k + 1) then _ else B.tcb (10 + (k + 1))).taskState = .del
    rw [if_neg hlast]
    exact (hdel _ (Nat.le_add_right _ _)).1

theorem rdyCrowd_listed (B : OS) (hk : 0 < k) : Listed (B.rdyCrowd k).rdyNext (B.rdyCrowd k).rdyPrev (some 10) (some (9 + k)) k
    (List.range' 10 k) := by
  have hrow (x : ℕ) (hx : 10 ≤ x ∧ x < 10 + k) : (B.rdyCrowd k).tcb x = crowdTCB B.schedRoundRobinDfltTimeQuanta
      (if x = 10 then none else some (x - 1)) (if x + 1 < 10 + k then some (x + 1) else none) := if_pos hx
  refine ⟨⟨List.nodup_range', fun xs x ys e => ?_⟩, ?_, ?_, by rw [List.length_range']⟩
  · have hat (j : ℕ) : (xs ++ x :: ys)[j]? = if j < k then some (10 + j) else none := by
      rw [← e]
      split
      · rw [List.getElem?_range' ‹j < k›, Nat.one_mul]
      · rw [List.getElem?_eq_none (by rw [List.length_range']; omega)]
    have hx := hat xs.length
    rw [List.getElem?_append_right (Nat.le_refl _), Nat.sub_self, List.getElem?_cons_zero] at hx
    split at hx
    · rename_i hlt
      obtain rfl := Option.some_inj.mp hx
      have hnext := hat (xs.length + 1)
      rw [List.getElem?_append_right (Nat.le_succ _), Nat.succ_eq_add_one, Nat.add_sub_cancel_left, List.getElem?_cons_succ,
        ← List.head?_eq_getElem?] at hnext
      change ((B.rdyCrowd k).tcb (10 + xs.length)).nextPtr = _ ∧ ((B.rdyCrowd k).tcb (10 + xs.length)).prevPtr = _
      rw [hrow _ (by omega), hnext]
      refine ⟨?_, ?_⟩
      · change (if 10 + xs.length + 1 < 10 + k then some (10 + xs.length + 1) else none) = _
        exact if_congr (by omega) rfl rfl
      · change (if 10 + xs.length = 10 then none else some (10 + xs.length - 1)) = _
        have hlast := hat (xs.length - 1)
        cases hxs : xs.length with
        | zero => rw [List.length_eq_zero_iff.mp hxs]; rfl
        | succ j =>
          rw [List.getElem?_append_left (by omega), ← List.getLast?_eq_getElem?, if_pos (by omega)] at hlast
          rw [hlast, hxs, if_neg (by omega)]
          rfl
    · cases hx
  · rw [List.head?_range', if_neg hk.ne']
  · rw [List.getLast?_range', if_neg hk.ne']
    exact congrArg some (by omega : (9 + k : ℕ) = 10 + k - 1)

end ready

end UcosIII
