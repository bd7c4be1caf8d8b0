import UcosIII.Runs.Crowds

namespace UcosIII

open Prog

variable {cfg : Cfg} {s : OS} {a a' : Abs} {h : List Step} {t : TcbId} {e : Event} {r : Option Ret}

section agreement

/-- The task in place `k` of the ready list of priority `p`. -/
def OS.rdyAt (s : OS) (p k : ℕ) : Option TcbId := chainAt s.rdyNext (s.rdyList p).headPtr k

/-- A live task is ready if and only if it is linked, once, in the ready list of its priority; a task
that is not ready is linked in no ready list. -/
def ReadyAgrees (cfg : Cfg) (s : OS) : Prop := ∀ t,
  ((s.tcb t).taskState ≠ .del → ((s.tcb t).taskState = .rdy ↔
    (s.tcb t).prio < cfg.prioMax ∧ ∃! k, s.rdyAt (s.tcb t).prio k = some t)) ∧
  ((s.tcb t).taskState ≠ .rdy → ∀ p < cfg.prioMax, ∀ k, s.rdyAt p k ≠ some t)

theorem Rep.rdyAt_iff (h : Rep cfg s a) {p : ℕ} (hp : p < cfg.prioMax) : (∃ k, s.rdyAt p k = some t) ↔ t ∈ a.ready p :=
  (h.rdy.lists.list p hp).chainAt_some

theorem Rep.rdyAt_unique (h : Rep cfg s a) {p : ℕ} (hp : p < cfg.prioMax) :
    (∃! k, s.rdyAt p k = some t) ↔ t ∈ a.ready p := (h.rdy.lists.list p hp).chainAt_unique

theorem Rep.lt_prioMax (h : Rep cfg s a) {p : ℕ} (ht : t ∈ a.ready p) : p < cfg.prioMax := by
  by_contra hp
  rw [h.rdy.lists.beyond p (by omega)] at ht
  exact List.not_mem_nil ht

theorem Ready.readyAgrees (H : Ready cfg s a) : ReadyAgrees cfg s := by
  intro t
  have hready := H.sound.ready t
  rw [H.rep.state, H.rep.prio]
  refine ⟨fun _ => ⟨fun hs => ?_, ?_⟩, fun hs p hp k hk => ?_⟩
  · have hmem := (hready _).mpr ⟨hs, rfl⟩
    have hlt := H.rep.lt_prioMax hmem
    exact ⟨hlt, (H.rep.rdyAt_unique hlt).mpr hmem⟩
  · rintro ⟨hlt, hk⟩
    exact ((hready _).mp ((H.rep.rdyAt_unique hlt).mp hk)).1
  · exact hs ((hready p).mp ((H.rep.rdyAt_iff hp).mp ⟨k, hk⟩)).1

/-- In a run without a delay until a passed tick the ready lists agree with the task states in every state. -/
theorem run_readyAgrees (run : CodeRun cfg (fun _ x => ¬ PassedMatch cfg x.pre x.event) h s)
    (hfit : NoWrap cfg h) : ReadyAgrees cfg s := by
  replace run : Run cfg _ h s := run.fits hfit .nat
  obtain ⟨a, H, -⟩ := run.invariant (I := fun _ _ => True) (fun _ _ => id) trivial fun _ _ _ _ _ _ _ _ _ _ _ => trivial
  exact H.readyAgrees

/-- A task that waits for its time is taken out of its ready list. -/
theorem run_readyAgrees_delay : ∃ h s, CodeRun Cfg.repository (fun _ x => ¬ PassedMatch Cfg.repository x.pre x.event) h
    s ∧ NoWrap Cfg.repository h ∧
    (s.tcb 4).taskState = .dly ∧ ReadyAgrees Cfg.repository s := by
  obtain ⟨h, s, run, hfit, hs⟩ := RunIn.of_play .word Cfg.repository (fun _ x => ¬ PassedMatch Cfg.repository x.pre x.event) 40
    (fun _ s => (s.tcb 4).taskState = .dly)
    [.newTask 4 5, .start, .call (.timeDly 3 optTimeDly)] (by decide +kernel)
  exact ⟨h, s, run, hfit, hs, run_readyAgrees run hfit⟩

/-- A task that asks for a delay until tick 0 at tick 0 is refused, but its state is changed. -/
theorem passedMatch_breaks_readyAgrees : ∃ h s, CodeRun Cfg.repository (fun _ _ => True) h s ∧
    ¬ ReadyAgrees Cfg.repository s := by
  obtain ⟨h, s, run, -, hs, hk⟩ := RunIn.of_play .word Cfg.repository (fun _ _ => True) 40
    (fun _ s => (s.tcb 4).taskState = .dly ∧ s.rdyAt 5 0 = some 4)
    [.newTask 4 5, .start, .call (.timeDly 0 optTimeMatch)] (by decide +kernel)
  refine ⟨h, s, run, fun hagree => ?_⟩
  exact (hagree 4).2 (by simp [hs]) 5 (by decide) 0 hk

end agreement

section idle

variable {E : Env} {S : Act → Prop} {b : Abs}

theorem act_state_idle {x : Act} (hv : x.Valid E a) (hE : ¬ E.idleStops) (hs : (a.task idleTaskTCB).state = .rdy) :
    ((x.apply a).task idleTaskTCB).state = .rdy := by
  cases x with
  | wake t st => grind [Act.apply, Abs.task_wake]
  | flagWake t => grind [Act.apply, Abs.task_flagWake]
  | expire t => grind [Act.apply, Abs.task_expire]
  | rotate p => exact hs
  | suspend t =>
    have hne : idleTaskTCB ≠ t := fun h => hE (hv.2.2 h.symm)
    grind [Act.apply, Abs.task_suspend]
  | resume t => grind [Act.apply, Abs.task_resume]
  | pendOn t o kind timed =>
    have hne : idleTaskTCB ≠ t := fun h => hE (hv.1.2.2.2.2.1 h.symm)
    grind [Act.apply, Abs.task_pendOn]
  | pendMulti t timed ds =>
    have hne : idleTaskTCB ≠ t := fun h => hE (hv.1.2.2.2.2.1 h.symm)
    rw [Act.apply, Abs.foldl_attach_task, Abs.task_block, if_neg hne]
    exact hs
  | delay t =>
    have hne : idleTaskTCB ≠ t := fun h => hE (hv.2.2.2.2.1 h.symm)
    grind [Act.apply, Abs.task_delay]
  | flagsOpt t opt => grind [Act.apply]
  | pendStatus t st => grind [Act.apply]
  | store d e => exact hs

theorem Abs.Acts.idle (h : a.Acts E S b) (hE : ¬ E.idleStops) (hs : (a.task idleTaskTCB).state = .rdy) :
    (b.task idleTaskTCB).state = .rdy := by
  induction h with
  | refl => exact hs
  | snoc _ _ hv _ ih => exact act_state_idle hv hE ih

theorem AStep.idle (hstep : AStep cfg s a e r a') (hI : a.Sound cfg) (hp : ¬ PassedMatch cfg s e) (hE : ¬ IdleStops s e r)
    (hs : (a.task idleTaskTCB).state = .rdy) : (a'.task idleTaskTCB).state = .rdy := by
  cases hstep with
  | still _ h => exact h.idle hE hs
  | acts _ h => exact h.idle hE hs
  | sched _ _ h hsch => rw [hsch.task]; exact h.idle hE hs
  | leave _ _ _ _ h hsch => rw [hsch.task]; exact h.idle hE hs
  | finish _ _ h => exact h.idle hE hs
  | mutexReturn | object | take | nest | unnest | release | lock | intEnter | start => exact hs
  | @create args t _ _ hd _ _ hsch =>
    have hne : idleTaskTCB ≠ t := by
      rintro rfl
      simp [hs] at hd
    split at hsch
    · rw [hsch.task, Abs.task_start, if_neg hne]
      exact hs
    · rw [hsch, Abs.task_start, if_neg hne]
      exact hs
  | @delete p t _ _ _ _ _ hidle hsch =>
    have hne : idleTaskTCB ≠ t := fun h => hE (hidle h.symm)
    rw [hsch.task, Abs.task_erase, if_neg hne]
    exact hs
  | changePrio _ _ _ _ _ hsch =>
    rw [hsch.task, Abs.task_reprio hI.wait]
    grind
  | refuse _ _ _ h => exact absurd h hp
  | @wait o t w timed _ _ b _ hstop _ _ _ _ hb _ hsch =>
    have hne : idleTaskTCB ≠ t := fun h => hE (hstop.2.2.2.2.1 h.symm)
    have hbs : (b.task idleTaskTCB).state = .rdy := by
      split at hb
      · rw [hb.2, Abs.task_boost]
        grind
      · rwa [hb]
    rw [hsch.task]
    change ((b.pendOn t (some o) .mutex timed).task idleTaskTCB).state = .rdy
    rw [Abs.task_pendOn, if_neg hne]
    exact hbs
  | @handOff o t d opt _ _ _ _ _ _ _ _ hsch =>
    have hrest : (((a.restore t (a.obj o).ownerPrio).handOff o d.1).task idleTaskTCB).state = .rdy := by
      rw [Abs.task_handOff, Abs.task_restore, Abs.task_restore]
      grind
    split at hsch
    · rwa [hsch.task]
    · rwa [hsch]
  | unlock _ _ _ hsch => rw [hsch.task]; exact hs
  | intExit _ hsch => rw [hsch.task]; exact hs

end idle

section table

/-- The ready table is well formed, and the search for the highest priority is safe. -/
structure ReadyTableOk (cfg : Cfg) (s : OS) : Prop where
  bits : ∀ p < cfg.prioMax, (s.prioTbl (p / 32)).getLsbD (31 - p % 32) = true ↔ 0 < (s.rdyList p).nbrEntries
  lists : ∀ p < cfg.prioMax, ∃ l, Listed s.rdyNext s.rdyPrev (s.rdyList p).headPtr (s.rdyList p).tailPtr
    (s.rdyList p).nbrEntries l ∧ ∀ t ∈ l, (s.tcb t).prio = p
  idle : (s.tcb idleTaskTCB).taskState = .rdy
  highest : ∀ n, ∃ p < cfg.prioMax, prioGetHighest n cfg s = some (p, s) ∧
    (∃ t, (s.tcb t).taskState = .rdy ∧ (s.tcb t).prio = p) ∧ ∀ t, (s.tcb t).taskState = .rdy → p ≤ (s.tcb t).prio

theorem Ready.readyTableOk (H : Ready cfg s a) (hidle : (a.task idleTaskTCB).state = .rdy) : ReadyTableOk cfg s where
  bits p hp := by
    rw [H.rep.rdy.bits p (by rw [prioTblSize]; omega), (H.rep.rdy.lists.list p hp).nbr_eq, List.length_pos_iff]
    rfl
  lists p hp := by
    refine ⟨a.ready p, H.rep.rdy.lists.list p hp, fun t ht => ?_⟩
    rw [H.rep.prio]
    exact ((H.sound.ready t p).mp ht).2
  idle := (H.rep.state _).trans hidle
  highest n := by
    have hmem := (H.sound.ready idleTaskTCB _).mpr ⟨hidle, rfl⟩
    obtain ⟨p, hret, hne, hbest⟩ := prioGetHighest_returns (n := n) H.rep.rdy (List.ne_nil_of_mem hmem)
    obtain ⟨t, ht⟩ := List.exists_mem_of_ne_nil _ hne
    refine ⟨p, H.rep.lt_prioMax ht, hret, ⟨t, ?_⟩, fun x hx => ?_⟩
    · rw [H.rep.state, H.rep.prio]
      exact (H.sound.ready t p).mp ht
    · rw [H.rep.state] at hx
      rw [H.rep.prio]
      exact hbest _ (List.ne_nil_of_mem ((H.sound.ready x _).mpr ⟨hx, rfl⟩))

theorem run_readyTableOk
    (run : CodeRun cfg (fun _ x => ¬ PassedMatch cfg x.pre x.event ∧ ¬ IdleStops x.pre x.event x.ret) h s)
    (hfit : NoWrap cfg h) : ReadyTableOk cfg s := by
  replace run : Run cfg _ h s := run.fits hfit .nat
  obtain ⟨a, H, hidle⟩ := run.invariant (I := fun _ a => (a.task idleTaskTCB).state = .rdy) (fun _ _ => And.left) rfl
    fun _ _ _ _ _ _ H hs _ hk hstep => hstep.idle H.sound hk.1 hk.2 hs
  exact H.readyTableOk hidle

theorem run_readyTableOk_delay : ∃ h s, CodeRun Cfg.repository
    (fun _ x => ¬ PassedMatch Cfg.repository x.pre x.event ∧ ¬ IdleStops x.pre x.event x.ret) h s ∧
    NoWrap Cfg.repository h ∧
    (s.tcb 4).taskState = .dly ∧ ReadyTableOk Cfg.repository s := by
  obtain ⟨h, s, run, hfit, hs⟩ := RunIn.of_play .word Cfg.repository
    (fun _ x => ¬ PassedMatch Cfg.repository x.pre x.event ∧ ¬ IdleStops x.pre x.event x.ret) 40
    (fun _ s => (s.tcb 4).taskState = .dly) [.newTask 4 5, .start, .call (.timeDly 3 optTimeDly)] (by decide +kernel)
  exact ⟨h, s, run, hfit, hs, run_readyTableOk run hfit⟩

/-- With 65536 tasks in a ready list its counter is 0, and the bit of the list is set. -/
theorem run_readyTableOk_overflow : ∃ h s, CodeRun Cfg.repository
    (fun _ x => ¬ PassedMatch Cfg.repository x.pre x.event ∧ ¬ IdleStops x.pre x.event x.ret) h s ∧
    ¬ ReadyTableOk Cfg.repository s := by
  obtain ⟨h, h₀, s, run, -, hbit, hnbr⟩ := RunIn.of_crowd Cfg.repository 40 [] []
    (P := fun x => ¬ PassedMatch Cfg.repository x.pre x.event ∧ ¬ IdleStops x.pre x.event x.ret)
    (F := fun B => B.rdyCrowd 65536) (H := OS.HostsReady)
    (Q := fun _ s => (s.prioTbl 0).getLsbD 26 = true ∧ (s.rdyList 5).nbrEntries = 0)
    (fun _ hP => hP.1) (fun h B run hB hdel => rdyCrowd_gathers run hB hdel (fun _ _ _ => ⟨id, not_idleStops_newTask⟩)
    (by decide))
    (by decide +kernel)
  refine ⟨_, s, run, fun hok => ?_⟩
  have hpos := (hok.bits 5 (by decide)).mp hbit
  rw [hnbr] at hpos
  exact absurd hpos (by decide)

end table

end UcosIII
