import UcosIII.Runs.PendCrowds
import UcosIII.Runs.ReadyTable

namespace UcosIII

open Prog

variable {cfg : Cfg} {s : OS} {a a' b : Abs} {h : List Step} {t : TcbId} {e : Event} {r : Option Ret} {E : Env}

section pendLists

def OS.pendAt (s : OS) (o : ObjId) (k : ℕ) : Option PdId := chainAt s.pdNext (s.obj o).pendList.headPtr k

/-- The pend lists have the entries of the waiting tasks, once each, and are well formed. -/
structure WaitAgrees (s : OS) : Prop where
  pendOn_iff : ∀ t, (s.tcb t).pendOn ≠ .nothing ↔ (s.tcb t).taskState.isPend = true
  linked : ∀ t, (s.tcb t).pendOn.onObject = true → ∃ d, (s.tcb t).pendDataTblPtr = some d ∧ 0 < (s.tcb t).pendDataTblEntries ∧
    ∀ i < (s.tcb t).pendDataTblEntries, (s.pendData (d.1, d.2 + i)).tcbPtr = some t ∧
      ∃ o, (s.pendData (d.1, d.2 + i)).pendObjPtr = some o ∧ ∃! k, s.pendAt o k = some (d.1, d.2 + i)
  off : ∀ t, (s.tcb t).pendOn.onObject = false → ∀ o k d, s.pendAt o k = some d → d.1 ≠ t ∧ (s.pendData d).tcbPtr ≠ some t
  lists : ∀ o, ∃ l, Listed s.pdNext s.pdPrev (s.obj o).pendList.headPtr (s.obj o).pendList.tailPtr
    (s.obj o).pendList.nbrEntries l

theorem Rep.pendAt_iff (h : Rep cfg s a) (o : ObjId) (d : PdId) : (∃ k, s.pendAt o k = some d) ↔ d ∈ a.waiting o :=
  (h.pend.list o).chainAt_some

theorem Rep.pendAt_unique (h : Rep cfg s a) (o : ObjId) (d : PdId) : (∃! k, s.pendAt o k = some d) ↔ d ∈ a.waiting o :=
  (h.pend.list o).chainAt_unique

theorem Rep.pendAt_none (h : Rep cfg s a) (hnbr : (s.obj o).pendList.nbrEntries = 0) (k : ℕ) : s.pendAt o k = none := by
  refine ((h.pend.list o).chainAt_eq k).trans ?_
  rw [(h.pend.list o).nbr_eq_zero.mp hnbr, List.getElem?_nil]

theorem Rep.table (h : Rep cfg s a) (t : TcbId) : (a.task t).table = (s.tcb t).table := congrArg Task.table (h.task t)

theorem TCB.mem_table {c : TCB} {d : PdId} {i : ℕ} (hd : c.pendDataTblPtr = some d) (hi : i < c.pendDataTblEntries) :
    (d.1, d.2 + i) ∈ c.table := by
  rw [TCB.table, hd]
  exact mem_entriesFrom.mpr ⟨rfl, Nat.le_add_right _ _, Nat.add_lt_add_left hi _⟩

theorem Ready.waitAgrees (H : Ready cfg s a) : WaitAgrees s where
  pendOn_iff t := by
    rw [H.rep.state, H.rep.pendOn]
    exact H.sound.wait.pendOn_iff t
  linked t ht := by
    rw [H.rep.pendOn] at ht
    have htab := (H.sound.wait.table_iff t).mpr ht
    rw [H.rep.table] at htab
    cases hd : (s.tcb t).pendDataTblPtr with
    | none => simp [TCB.table, hd] at htab
    | some d =>
      refine ⟨d, rfl, ?_, fun i hi => ?_⟩
      · apply Nat.pos_of_ne_zero
        intro h0
        simp [TCB.table, hd, h0, entriesFrom] at htab
      · have hmem := TCB.mem_table hd hi
        rw [← H.rep.table] at hmem
        have hown := H.sound.wait.own t _ hmem
        obtain ⟨o, ho, hdo⟩ := H.sound.wait.linked _ hmem
        rw [H.rep.entry] at hown ho
        exact ⟨hown.2, o, ho, (H.rep.pendAt_unique o _).mpr hdo⟩
  off t ht o k d hk := by
    rw [H.rep.pendOn] at ht
    have hmem := (H.rep.pendAt_iff o d).mp ⟨k, hk⟩
    have hback := H.rep.tcbPtr H.sound hmem
    have hne : d.1 ≠ t := by
      rintro rfl
      have htab := List.ne_nil_of_mem ((H.sound.wait.mem_iff o d).mp hmem).1
      rw [(H.sound.wait.table_iff d.1)] at htab
      rw [ht] at htab
      cases htab
    exact ⟨hne, fun h' => hne (Option.some_inj.mp (hback.symm.trans h'))⟩
  lists o := ⟨a.waiting o, H.rep.pend.list o⟩

theorem run_waitAgrees (run : CodeRun cfg (fun _ x => ¬ PassedMatch cfg x.pre x.event) h s)
    (hfit : NoWrap cfg h) : WaitAgrees s := by
  replace run : Run cfg _ h s := run.fits hfit .nat
  obtain ⟨a, H, -⟩ := run.invariant (I := fun _ _ => True) (fun _ _ => id) trivial fun _ _ _ _ _ _ _ _ _ _ _ => trivial
  exact H.waitAgrees

/-- A task that waits on two semaphores, one of them listed twice. -/
theorem run_waitAgrees_multi : ∃ h s, CodeRun Cfg.repository (fun _ x => ¬ PassedMatch Cfg.repository x.pre x.event) h s ∧
    NoWrap Cfg.repository h ∧
    (s.tcb 4).pendDataTblEntries = 3 ∧ (s.obj 0).pendList.nbrEntries = 2 ∧ WaitAgrees s := by
  obtain ⟨h, s, run, hfit, h1, h2⟩ := RunIn.of_play .word Cfg.repository (fun _ x =>
    ¬ PassedMatch Cfg.repository x.pre x.event) 40
    (fun _ s => (s.tcb 4).pendDataTblEntries = 3 ∧ (s.obj 0).pendList.nbrEntries = 2)
    [.newTask 4 5, .call (.semCreate (some 0) 0), .call (.semCreate (some 1) 0), .start,
      .call (.pendMulti (some 0) [some 0, some 1, some 0] 10 optPendBlocking)] (by decide +kernel)
  exact ⟨h, s, run, hfit, h1, h2, run_waitAgrees run hfit⟩

/-- With 65536 tasks in a pend list its counter is 0. -/
theorem run_waitAgrees_overflow : ∃ h s, CodeRun Cfg.repository (fun _ x => ¬ PassedMatch Cfg.repository x.pre x.event) h s ∧
    ¬ WaitAgrees s := by
  obtain ⟨h, h₀, s, run, -, hhead, hnbr⟩ := RunIn.of_crowd Cfg.repository 40 [.newTask 4 7, .call (.semCreate (some 0) 0),
    .start] []
    (P := fun x => ¬ PassedMatch Cfg.repository x.pre x.event) (F := fun B => B.pendCrowd 0 .sem (.semPend 0) 65536)
    (H := fun B => B.HostsSem 0)
    (Q := fun _ s => (s.obj 0).pendList.headPtr = some (10, 0) ∧ (s.obj 0).pendList.nbrEntries = 0)
    (fun _ hP => hP) (fun h B run hB hdel => semCrowd_gathers run hB hdel (fun _ _ _ => id) fun _ _ => id) (by decide +kernel)
  refine ⟨_, s, run, fun hok => ?_⟩
  obtain ⟨l, hl⟩ := hok.lists 0
  rw [hhead, hnbr] at hl
  obtain rfl : l = [] := List.length_eq_zero_iff.mp hl.nbr_eq.symm
  cases hl.head_eq

end pendLists

section wheel

@[grind =] theorem TaskState.isTimed_suspend (st : TaskState) : st.suspend.isTimed = st.isTimed := by cases st <;> rfl

@[grind =] theorem TaskState.isTimed_resume (st : TaskState) : st.resume.isTimed = st.isTimed := by cases st <;> rfl

namespace Abs

structure WheelOk (a : Abs) : Prop where
  ok : a.wheelOk = true
  iff : ∀ t, a.onWheel t = (a.task t).state.isTimed

theorem WheelOk.congr (h : a.WheelOk) (hok : b.wheelOk = a.wheelOk) (hon : b.onWheel = a.onWheel)
    (ht : ∀ t, (b.task t).state.isTimed = (a.task t).state.isTimed) : b.WheelOk := by
  refine ⟨hok.trans h.ok, fun t => ?_⟩
  rw [hon, ht, h.iff]

theorem WheelOk.off (h : a.WheelOk) (hok : b.wheelOk = a.wheelOk) (hon : b.onWheel = Function.update a.onWheel t false)
    (hs : (b.task t).state.isTimed = false) (ht : ∀ x ≠ t, b.task x = a.task x) : b.WheelOk := by
  refine ⟨hok.trans h.ok, fun x => ?_⟩
  rw [hon]
  by_cases hx : x = t
  · subst hx
    simp [hs]
  · rw [Function.update_of_ne hx, ht x hx, h.iff]

theorem WheelOk.wake (h : a.WheelOk) (t : TcbId) (st : PendStatus) : (a.wake t st).WheelOk := by
  by_cases hp : (a.task t).state.isPend = false
  · rwa [Abs.wake, if_pos hp]
  · have htask := task_wake a t t st
    apply h.off (t := t)
    · rw [Abs.wake, if_neg hp]
      split <;> rfl
    · rw [Abs.wake, if_neg hp]
      split <;> rfl
    · rw [htask, if_pos rfl]
      grind
    · intro x hx
      rw [task_wake, if_neg hx]

theorem WheelOk.flagWake (h : a.WheelOk) (t : TcbId) (ht : (a.task t).state ≠ .pendTimeoutSuspended) :
    (a.flagWake t).WheelOk := by
  rw [Abs.flagWake]
  split
  · rename_i hsus
    have hs : (a.task t).state = .pendSuspended := by
      cases h' : (a.task t).state <;> simp_all [TaskState.isPend, TaskState.isSuspended]
    refine h.congr rfl rfl fun x => ?_
    rw [task_modTask]
    by_cases hx : x = t
    · rw [if_pos hx, hx, hs]
      rfl
    · rw [if_neg hx, task_unpend, if_neg hx]
  · exact h.wake t .ok

theorem WheelOk.expire (h : a.WheelOk) (t : TcbId) : (a.expire t).WheelOk := by
  have htask := fun x => task_expire a t x
  cases hs : (a.task t).state with
  | rdy | pend | suspended | pendSuspended | del => rwa [Abs.expire, hs]
  | pendTimeout | pendTimeoutSuspended =>
    rw [Abs.expire, hs]
    exact h.wake t .timeout
  | dly | dlySuspended =>
    apply h.off (t := t)
    · rw [Abs.expire, hs]
      rfl
    · rw [Abs.expire, hs]
      rfl
    · rw [htask, if_pos rfl]
      grind
    · intro x hx
      rw [htask, if_neg hx]

theorem WheelOk.suspend (h : a.WheelOk) (t : TcbId) : (a.suspend t).WheelOk := by
  apply h.congr
  · rw [Abs.suspend]
    repeat' split
    all_goals rfl
  · rw [Abs.suspend]
    repeat' split
    all_goals rfl
  · intro x
    rw [task_suspend]
    grind

theorem WheelOk.resume (h : a.WheelOk) (t : TcbId) : (a.resume t).WheelOk := by
  have htask := fun x => task_resume a t x
  have hoff : (a.task t).state = .suspended → Function.update a.onWheel t false = a.onWheel := by
    intro hs
    rw [Function.update_eq_self_iff, h.iff, hs]
    rfl
  apply h.congr
  · rw [Abs.resume]
    repeat' split
    all_goals rfl
  · rw [Abs.resume]
    split
    · split
      · exact hoff ‹_›
      · rfl
    all_goals rfl
  · intro x
    rw [htask]
    grind

theorem WheelOk.timer (h : a.WheelOk) (hs : (a.task t).state = .rdy) {timed : Bool}
    (hok : b.wheelOk = (a.timer t timed).wheelOk)
    (hon : b.onWheel = (a.timer t timed).onWheel) (ht : (b.task t).state.isTimed = timed)
    (hx : ∀ x ≠ t, b.task x = a.task x) : b.WheelOk := by
  have hofft : a.onWheel t = false := by rw [h.iff, hs]; rfl
  refine ⟨?_, fun x => ?_⟩
  · rw [hok]
    simp [Abs.timer, h.ok, hofft]
  · rw [hon]
    by_cases hxt : x = t
    · subst hxt
      cases timed <;> simp [Abs.timer, ht, hofft]
    · rw [hx x hxt, ← h.iff]
      cases timed <;> simp [Abs.timer, hxt]

theorem wheel_attach (a : Abs) (d : PdId) : (attach t a d).onWheel = a.onWheel ∧ (attach t a d).wheelOk = a.wheelOk := by
  rw [attach]
  split <;> exact ⟨rfl, rfl⟩

theorem wheel_foldl_attach (a : Abs) (ds : List PdId) :
    (ds.foldl (attach t) a).onWheel = a.onWheel ∧ (ds.foldl (attach t) a).wheelOk = a.wheelOk := by
  induction ds generalizing a with
  | nil => exact ⟨rfl, rfl⟩
  | cons d ds ih =>
    obtain ⟨h1, h2⟩ := wheel_attach (t := t) a d
    rw [List.foldl_cons, (ih _).1, (ih _).2, h1, h2]
    exact ⟨rfl, rfl⟩

theorem WheelOk.pendOn (h : a.WheelOk) (hs : (a.task t).state = .rdy) (o : Option ObjId) (kind : PendOn) (timed : Bool) :
    (a.pendOn t o kind timed).WheelOk := by
  have htask := fun x => task_pendOn a t x o kind timed
  have hwheel : (a.pendOn t o kind timed).onWheel = (a.timer t timed).onWheel ∧
      (a.pendOn t o kind timed).wheelOk = (a.timer t timed).wheelOk := by
    cases o with
    | none => exact ⟨rfl, rfl⟩
    | some o => exact wheel_attach _ _
  apply h.timer hs hwheel.2 hwheel.1
  · rw [htask, if_pos rfl]
    cases timed <;> rfl
  · intro x hx
    rw [htask, if_neg hx]

theorem WheelOk.act {x : Act} (h : a.WheelOk) (hv : x.Valid E a) (hE : ¬ E.flagHit) : (x.apply a).WheelOk := by
  cases x with
  | wake t st => exact h.wake t st
  | flagWake t => exact h.flagWake t fun hs => hE (hv.2 hs)
  | expire t => exact h.expire t
  | rotate p => exact h.congr rfl rfl fun _ => rfl
  | suspend t => exact h.suspend t
  | resume t => exact h.resume t
  | pendOn t o kind timed => exact h.pendOn hv.1.2.1 o kind timed
  | pendMulti t timed ds =>
    obtain ⟨h1, h2⟩ := wheel_foldl_attach (t := t) (a.block t .multi timed ds) ds
    apply h.timer hv.1.2.1 h2 h1
    · rw [foldl_attach_task, task_block, if_pos rfl]
      cases timed <;> rfl
    · intro x hx
      rw [foldl_attach_task, task_block, if_neg hx]
  | delay t =>
    have htask := fun x => task_delay a t x
    have hwheel : (a.delay t).onWheel = (a.timer t true).onWheel ∧ (a.delay t).wheelOk = (a.timer t true).wheelOk := by
      rw [timer_true]
      exact ⟨rfl, rfl⟩
    apply h.timer hv.2.1 hwheel.2 hwheel.1
    · rw [htask, if_pos rfl]
      rfl
    · intro x hx
      rw [htask, if_neg hx]
  | flagsOpt t opt =>
    refine h.congr rfl rfl fun x => ?_
    grind [Act.apply]
  | pendStatus t st =>
    refine h.congr rfl rfl fun x => ?_
    grind [Act.apply]
  | store d e => exact h.congr rfl rfl fun _ => rfl

theorem WheelOk.acts {S : Act → Prop} (h : a.WheelOk) (hacts : a.Acts E S b) (hE : ¬ E.flagHit) : b.WheelOk := by
  induction hacts with
  | refl => exact h
  | snoc _ _ hv _ ih => exact ih.act hv hE

theorem WheelOk.sched (h : a.WheelOk) (hs : a.Sched a') : a'.WheelOk := by
  obtain ⟨-, rfl⟩ | ⟨-, rfl⟩ | ⟨-, -, p, t, -, rfl⟩ := hs
  · exact h
  · exact h
  · exact h.congr rfl rfl fun _ => rfl

theorem wheel_move (a : Abs) (t : TcbId) (p : ℕ) (atHead : Bool) :
    (a.move t p atHead).onWheel = a.onWheel ∧ (a.move t p atHead).wheelOk = a.wheelOk := by
  cases atHead <;> exact ⟨rfl, rfl⟩

theorem WheelOk.reprio (h : a.WheelOk) (hw : a.WaitOk) (t : TcbId) (p : ℕ) (self : Bool) : (a.reprio t p self).WheelOk := by
  have hwheel : (a.reprio t p self).onWheel = a.onWheel ∧ (a.reprio t p self).wheelOk = a.wheelOk := by
    rw [Abs.reprio]
    cases (a.task t).state <;> cases (a.task t).pendOn <;> first | exact wheel_move a t p self | exact ⟨rfl, rfl⟩
  refine h.congr hwheel.2 hwheel.1 fun x => ?_
  rw [task_reprio hw]
  grind

theorem WheelOk.boost (h : a.WheelOk) (t : TcbId) (p : ℕ) : (a.boost t p).WheelOk := by
  have hwheel : (a.boost t p).onWheel = a.onWheel ∧ (a.boost t p).wheelOk = a.wheelOk := by
    rw [Abs.boost]
    cases (a.task t).state <;> exact ⟨rfl, rfl⟩
  refine h.congr hwheel.2 hwheel.1 fun x => ?_
  rw [task_boost]
  grind

theorem WheelOk.restore (h : a.WheelOk) (t : TcbId) (p : ℕ) : (a.restore t p).WheelOk := by
  rw [Abs.restore]
  split
  · exact h
  · obtain ⟨h1, h2⟩ := wheel_move a t p false
    refine h.congr h2 h1 fun x => ?_
    change ((a.move t p false).task x).state.isTimed = _
    rw [task_move]
    grind

theorem WheelOk.start (h : a.WheelOk) (hd : (a.task t).state = .del) (p : ℕ) : (a.start t p).WheelOk := by
  have hoff : a.onWheel t = false := by rw [h.iff, hd]; rfl
  refine ⟨?_, fun x => ?_⟩
  · change (a.wheelOk && !a.onWheel t) = true
    simp [h.ok, hoff]
  · change a.onWheel x = _
    rw [task_start, h.iff]
    grind

theorem WheelOk.erase (h : a.WheelOk) (t : TcbId) (p : ℕ) : (a.erase t p).WheelOk := by
  have hoff : a.onWheel t = (a.task t).state.isTimed := h.iff t
  have hon : ∀ x, (a.unlink t).onWheel x = if x = t then false else a.onWheel x := by
    intro x
    by_cases hx : x = t
    · subst hx
      cases hs : (a.task x).state <;> simp [unlink, hs, dequeue, setReady, offWheel, hoff, TaskState.isTimed]
    · cases hs : (a.task t).state <;> simp [unlink, hs, dequeue, setReady, offWheel, unpend, modTask, hx]
  have hok : (a.unlink t).wheelOk = a.wheelOk := by
    rw [unlink]
    cases (a.task t).state <;> rfl
  refine ⟨?_, fun x => ?_⟩
  · change ((a.unlink t).wheelOk && !(a.unlink t).onWheel t) = true
    rw [hon, hok]
    simp [h.ok]
  · change (a.unlink t).onWheel x = _
    rw [hon, task_erase, h.iff]
    grind

end Abs

theorem AStep.wheelOk (hstep : AStep cfg s a e r a') (H : Ready cfg s a) (hp : ¬ PassedMatch cfg s e) (hE : ¬ FlagHit s e)
    (hW : a.WheelOk) : a'.WheelOk := by
  cases hstep with
  | still _ h => exact hW.acts h hE
  | acts _ h => exact hW.acts h hE
  | sched _ _ h hs => exact (hW.acts h hE).sched hs
  | leave _ _ _ _ h hs =>
    apply Abs.WheelOk.sched _ hs
    exact (hW.acts h hE).congr rfl rfl fun _ => rfl
  | @finish t _ _ _ _ h =>
    have hW' : (a.setCont t .none).WheelOk := hW.congr rfl rfl fun _ => rfl
    exact hW'.acts h hE
  | mutexReturn | object | take | nest | unnest | release | lock | intEnter | start => exact hW.congr rfl rfl fun _ => rfl
  | create _ hd _ _ hs =>
    split at hs
    · exact (hW.start hd _).sched hs
    · exact hs ▸ hW.start hd _
  | delete _ _ _ _ _ hs => exact (hW.erase _ _).sched hs
  | changePrio _ _ _ _ _ hs => exact (hW.reprio H.sound.wait _ _ _).sched hs
  | refuse _ _ _ h => exact absurd h hp
  | @wait o t w timed _ _ b _ hstop _ _ _ hne hb _ hs =>
    apply Abs.WheelOk.sched _ hs
    have hWb : b.WheelOk := by
      split at hb
      · rw [hb.2]
        exact hW.boost w _
      · rwa [hb]
    have hst : (b.task t).state = .rdy := by
      split at hb
      · rw [hb.2, Abs.task_boost, if_neg fun h => hne h.1.symm]
        exact hstop.2.1
      · rw [hb]
        exact hstop.2.1
    have hWp := hWb.pendOn hst (some o) .mutex timed
    exact hWp.congr rfl rfl fun _ => rfl
  | @handOff o t d opt _ _ _ _ _ _ _ _ hs =>
    have hW' : ((a.restore t (a.obj o).ownerPrio).handOff o d.1).WheelOk := by
      apply Abs.WheelOk.wake
      exact (hW.restore _ _).congr rfl rfl fun _ => rfl
    split at hs
    · exact hW'.sched hs
    · exact hs ▸ hW'
  | unlock _ _ _ hs =>
    apply Abs.WheelOk.sched _ hs
    exact hW.congr rfl rfl fun _ => rfl
  | intExit _ hs =>
    apply Abs.WheelOk.sched _ hs
    exact hW.congr rfl rfl fun _ => rfl

def OS.spokeAt (s : OS) (i k : ℕ) : Option TcbId := chainAt s.tickNext (s.tickWheel i).firstPtr k

/-- The tasks that wait for a tick are linked on the spoke of that tick, once, and no other task is on the
wheel. -/
structure WheelAgrees (cfg : Cfg) (s : OS) : Prop where
  linked : ∀ t, (s.tcb t).taskState.isTimed = true →
    (s.tcb t).tickSpokePtr = some ((s.tcb t).tickCtrMatch.toNat % cfg.tickWheelSize) ∧
    (∃! k, s.spokeAt ((s.tcb t).tickCtrMatch.toNat % cfg.tickWheelSize) k = some t) ∧
    ∀ i < cfg.tickWheelSize, i ≠ (s.tcb t).tickCtrMatch.toNat % cfg.tickWheelSize → ∀ k, s.spokeAt i k ≠ some t
  off : ∀ t, (s.tcb t).taskState.isTimed = false → ∀ i < cfg.tickWheelSize, ∀ k, s.spokeAt i k ≠ some t
  lists : ∀ i < cfg.tickWheelSize, ∃ l tail, Listed s.tickNext s.tickPrev (s.tickWheel i).firstPtr tail
    (s.tickWheel i).nbrEntries l

theorem Ready.wheelAgrees (H : Ready cfg s a) (hW : a.WheelOk) : WheelAgrees cfg s := by
  obtain ⟨V, hV, hon⟩ := H.rep.wheel hW.ok
  have hat : ∀ i < cfg.tickWheelSize, ∀ t, (∃ k, s.spokeAt i k = some t) ↔ t ∈ V i := by
    intro i hi t
    obtain ⟨tail, hl⟩ := hV.list i hi
    exact hl.chainAt_some
  constructor
  · intro t ht
    have htw : a.onWheel t = true := by rwa [hW.iff, ← H.rep.state]
    obtain ⟨i, hi⟩ := (hon t).mp htw
    obtain ⟨hlt, hspoke, hdue⟩ := hV.mem i t hi
    change (s.tcb t).tickCtrMatch.toNat % cfg.tickWheelSize = i at hdue
    rw [hdue]
    refine ⟨hspoke, ?_, fun j hj hne k hk => ?_⟩
    · obtain ⟨tail, hl⟩ := hV.list i hlt
      exact hl.chainAt_unique.mpr hi
    · exact hne (hV.disjoint ((hat j hj t).mp ⟨k, hk⟩) hi)
  · intro t ht i hi k hk
    have htw := (hon t).mpr ⟨i, (hat i hi t).mp ⟨k, hk⟩⟩
    rw [hW.iff, ← H.rep.state, ht] at htw
    cases htw
  · intro i hi
    obtain ⟨tail, hl⟩ := hV.list i hi
    exact ⟨V i, tail, hl⟩

theorem Abs.wheelOk_init : (Abs.init cfg).WheelOk := by
  have h : (Abs.boot cfg).WheelOk := ⟨rfl, fun _ => rfl⟩
  have h1 := h.start (t := idleTaskTCB) rfl (cfg.prioMax - 1)
  have h2 := h1.start (t := tickTaskTCB) rfl cfg.tickTaskPrio
  have h3 := h2.start (t := statTaskTCB) rfl cfg.statTaskPrio
  exact h3.start (t := tmrTaskTCB) rfl cfg.tmrTaskPrio

theorem Run.wheelAgrees (run : Run cfg (fun _ x => ¬ PassedMatch cfg x.pre x.event ∧ ¬ FlagHit x.pre x.event) h s) :
    WheelAgrees cfg s := by
  obtain ⟨a, H, hW⟩ := run.invariant (I := fun _ => Abs.WheelOk) (fun _ _ => And.left) Abs.wheelOk_init
    fun _ _ _ _ _ _ H hW _ hk hstep => hstep.wheelOk H hk.1 hk.2 hW
  exact H.wheelAgrees hW

/-- In a run without a delay until a passed tick, and without a flag post that ends the timed wait of a
suspended task, the tick wheel agrees with the task states in every state. -/
theorem run_wheelAgrees
    (run : CodeRun cfg (fun _ x => ¬ PassedMatch cfg x.pre x.event ∧ ¬ FlagHit x.pre x.event) h s)
    (hfit : NoWrap cfg h) : WheelAgrees cfg s := Run.wheelAgrees (run.fits hfit .nat)

theorem run_wheelAgrees_delay : ∃ h s, CodeRun Cfg.repository
    (fun _ x => ¬ PassedMatch Cfg.repository x.pre x.event ∧ ¬ FlagHit x.pre x.event) h s ∧ NoWrap Cfg.repository h ∧
    (s.tcb 4).taskState = .dly ∧ WheelAgrees Cfg.repository s := by
  let script : List Event := [.newTask 4 5, .start, .call (.timeDly 3 optTimeDly)]
  obtain ⟨h, s, run, hfit, hs⟩ := RunIn.of_play .word Cfg.repository
    (fun _ x => ¬ PassedMatch Cfg.repository x.pre x.event ∧ x.event ∈ script) 40
    (fun _ s => (s.tcb 4).taskState = .dly) script (by decide +kernel)
  have run' : CodeRun Cfg.repository (fun _ x => ¬ PassedMatch Cfg.repository x.pre x.event ∧ ¬ FlagHit x.pre x.event) h s := by
    apply run.mono
    rintro _ ⟨s₀, e, r⟩ ⟨hp, hmem⟩
    change e ∈ script at hmem
    simp only [script, List.mem_cons, List.not_mem_nil, or_false] at hmem
    obtain rfl | rfl | rfl := hmem <;> exact ⟨hp, id⟩
  exact ⟨h, s, run', hfit, hs, run_wheelAgrees run' hfit⟩

/-- A flag post ends the timed wait of a suspended task, and leaves it on the wheel. -/
theorem flagPost_breaks_wheelAgrees : ∃ h s, CodeRun Cfg.repository (fun _ _ => True) h s ∧
    ¬ WheelAgrees Cfg.repository s := by
  obtain ⟨h, s, run, -, hs, hk⟩ := RunIn.of_play .word Cfg.repository (fun _ _ => True) 40
    (fun _ s => (s.tcb 4).taskState = .suspended ∧ s.spokeAt 10 0 = some 4)
    [.newTask 4 5, .newTask 5 6, .call (.flagCreate (some 0) 0), .start,
      .call (.flagPend (some 0) 1 10 optPendFlagSetAll), .call (.taskSuspend (some 4)),
      .call (.flagPost (some 0) 1 optPostFlagSet)] (by decide +kernel)
  refine ⟨h, s, run, fun hagree => ?_⟩
  exact hagree.off 4 (by rw [hs]; rfl) 10 (by decide) 0 hk

end wheel

end UcosIII
