import UcosIII.Lib.Chain
import UcosIII.Abstract.Returns
import UcosIII.Runs.Inheritance
import UcosIII.Runs.TimerTask

namespace UcosIII

open Prog

variable {n : ℕ} {cfg : Cfg} {s s' : OS} {a a' b : Abs} {h : List Step} {t : TcbId} {o : ObjId} {d : PdId} {e : Event}
  {r : Option Ret} {st : PendStatus} {S : Finset TcbId}

section fit

structure Fit (cfg : Cfg) (s : OS) (a : Abs) : Prop where
  rep : Rep cfg s a
  sound : a.Sound cfg
  wheelOk : a.wheelOk = true
  prio : ∀ t, (a.task t).state ≠ .del → (a.task t).prio < cfg.prioMax

def Abs.Tabled (cfg : Cfg) (a : Abs) : Prop :=
  ∀ t, (a.task t).state ≠ .del → (a.task t).state ≠ .rdy → (a.task t).prio < cfg.prioMax

theorem Ready.prio_lt (H : Ready cfg s a) (hT : a.Tabled cfg) (t : TcbId) (ht : (a.task t).state ≠ .del) :
    (a.task t).prio < cfg.prioMax := by
  by_cases hr : (a.task t).state = .rdy
  · exact H.rep.rdy.lists.lt_of_mem ((H.sound.ready t _).mpr ⟨hr, rfl⟩)
  · exact hT t ht hr

theorem Abs.Tabled.congr (hT : a.Tabled cfg) (hb : ∀ t, b.task t = a.task t) : b.Tabled cfg := by
  intro t
  rw [hb t]
  exact hT t

theorem Abs.Tabled.sched (hT : a.Tabled cfg) (hs : a.Sched a') : a'.Tabled cfg := hT.congr fun t => by rw [hs.task]

theorem AStep.tabled (hstep : AStep cfg s a e r a') (H : Ready cfg s a) (hp : ¬ PassedMatch cfg s e) (hT : a.Tabled cfg) :
    a'.Tabled cfg := by
  have hlt := H.prio_lt hT
  have hacts {E : Env} {S : Act → Prop} {a b : Abs} (hlt : ∀ t, (a.task t).state ≠ .del → (a.task t).prio < cfg.prioMax)
      (h : a.Acts E S b) : b.Tabled cfg := by
    intro t hd _
    rw [h.prio t]
    exact hlt t fun h0 => hd ((h.del_iff t).mpr h0)
  cases hstep with
  | still _ h => exact hacts hlt h
  | acts _ h => exact hacts hlt h
  | sched _ _ h hs => exact (hacts hlt h).sched hs
  | @leave _ t k b _ _ _ _ _ h hs =>
    have hT' : b.Tabled cfg := hacts hlt h
    exact Abs.Tabled.sched (a := b.setCont t k) hT' hs
  | @finish t _ _ _ _ h => exact hacts (a := a.setCont t .none) hlt h
  | mutexReturn | object | take | nest | unnest | release | lock | intEnter | start => exact hT
  | @create args t _ _ _ _ _ hs =>
    have hT' : (a.start t args.prio).Tabled cfg := by
      intro x hd hr
      rw [Abs.task_start] at hd hr ⊢
      split
      · rename_i hx
        rw [if_pos hx] at hr
        exact absurd rfl hr
      · rename_i hx
        rw [if_neg hx] at hd
        exact hlt x hd
    split at hs
    · exact hT'.sched hs
    · exact hs ▸ hT'
  | @delete p t _ _ _ _ _ _ hs =>
    have hT' : (a.erase t cfg.prioMax).Tabled cfg := by
      intro x hd _
      rw [Abs.task_erase] at hd ⊢
      split
      · rename_i hx
        rw [if_pos hx] at hd
        exact absurd rfl hd
      · rename_i hx
        rw [if_neg hx] at hd
        exact hlt x hd
    exact hT'.sched hs
  | @changePrio p q t _ _ _ _ _ hq hs =>
    have hT' : (a.reprio t q (p = none)).Tabled cfg := by
      intro x hd _
      rw [Abs.task_reprio H.sound.wait] at hd ⊢
      split
      · dsimp only
        omega
      · rename_i hx
        rw [if_neg hx] at hd
        exact hlt x hd
    exact hT'.sched hs
  | refuse _ _ _ h => exact absurd h hp
  | @wait o t w timed _ _ b _ hstop _ _ _ _ hb _ hs =>
    have hb' : ∀ x, (b.task x).state ≠ .del → (b.task x).prio < cfg.prioMax := by
      intro x hd
      split at hb
      · rw [hb.2, Abs.task_boost] at hd ⊢
        split
        · exact hlt t (by simp [hstop.2.1])
        · rename_i hx
          rw [if_neg hx] at hd
          exact hlt x hd
      · rw [hb] at hd ⊢
        exact hlt x hd
    have hT' : ((b.pendOn t (some o) .mutex timed).setCont t (.mutexPend o)).Tabled cfg := by
      intro x hd _
      change ((b.pendOn t (some o) .mutex timed).task x).prio < _
      change ((b.pendOn t (some o) .mutex timed).task x).state ≠ _ at hd
      rw [Abs.task_pendOn] at hd ⊢
      split
      · have hst : (b.task t).state ≠ .del := by
          split at hb
          · rw [hb.2, Abs.task_boost]
            split
            · exact hb.1
            · simp [hstop.2.1]
          · rw [hb]
            simp [hstop.2.1]
        exact hb' t hst
      · rename_i hx
        rw [if_neg hx] at hd
        exact hb' x hd
    exact hT'.sched hs
  | @handOff o t d opt _ hcur _ _ _ _ _ hrdy hs =>
    have hT' : ((a.restore t (a.obj o).ownerPrio).handOff o d.1).Tabled cfg := by
      have hrest : (a.restore t (a.obj o).ownerPrio).Tabled cfg := by
        intro x hd hr
        rw [Abs.task_restore] at hd hr ⊢
        split
        · rename_i hx
          rw [if_pos hx] at hd hr
          by_cases hpp : (a.task t).prio = (a.obj o).ownerPrio
          · dsimp only
            rw [← hpp]
            exact hlt t hd
          · exact absurd (hrdy hpp) hr
        · rename_i hx
          rw [if_neg hx] at hd
          exact hlt x hd
      intro x hd hr
      rw [Abs.task_handOff] at hd hr ⊢
      split
      · rename_i hx
        rw [if_pos hx] at hd hr
        by_cases hpd : ((a.restore t (a.obj o).ownerPrio).task d.1).state.isPend = true
        · have := hrest d.1 (by grind) (by grind)
          grind
        · have hw : ((a.restore t (a.obj o).ownerPrio).task d.1).woken .ok = (a.restore t (a.obj o).ownerPrio).task d.1 := by
            rw [Task.woken, if_neg hpd]
          rw [hw] at hd hr ⊢
          exact hrest d.1 hd hr
      · rename_i hx
        rw [if_neg hx] at hd hr
        exact hrest x hd hr
    split at hs
    · exact hT'.sched hs
    · exact hs ▸ hT'
  | unlock _ _ _ hs => exact Abs.Tabled.sched (a := { a with lockNesting := a.lockNesting - 1 }) hT hs
  | intExit _ hs => exact Abs.Tabled.sched (a := { a with intNesting := a.intNesting - 1 }) hT hs

theorem run_fit (run : Run cfg (fun _ x => ¬ PassedMatch cfg x.pre x.event ∧ ¬ FlagHit x.pre x.event) h s) :
    ∃ a, Ready cfg s a ∧ Fit cfg s a := by
  have hinit : (Abs.init cfg).Tabled cfg := by
    intro t
    simp only [Abs.init, Abs.task_start]
    split
    · simp [Task.fresh]
    split
    · simp [Task.fresh]
    split
    · simp [Task.fresh]
    split
    · simp [Task.fresh]
    · simp [Abs.boot]
  obtain ⟨a, H, hW, hT⟩ := run.invariant (I := fun _ a => a.WheelOk ∧ a.Tabled cfg) (fun _ _ => And.left)
    ⟨Abs.wheelOk_init, hinit⟩
    fun _ _ _ _ _ _ H hI _ hk hstep => ⟨hstep.wheelOk H hk.1 hk.2 hI.1, hstep.tabled H hk.1 hI.2⟩
  exact ⟨a, H, H.rep, H.sound, hW.ok, H.prio_lt hT⟩

def Event.postsFlags : Event → Bool
  | .call (.flagPost ..) => true
  | _ => false

theorem not_flagHit (he : e.postsFlags = false) : ¬ FlagHit s e := by
  intro hf
  unfold FlagHit at hf
  split at hf
  · cases he
  · exact hf

theorem CodeRun.of_play_flagless (cfg : Cfg) (n : ℕ) (Q : List Step → OS → Prop) [∀ h s, Decidable (Q h s)] (es : List Event)
    (hp : ((play cfg (fun _ x => ¬ PassedMatch cfg x.pre x.event ∧ x.event.postsFlags = false) n es).any
      fun x => Q x.1 x.2) = true) :
    ∃ h s, CodeRun cfg (fun _ x => ¬ PassedMatch cfg x.pre x.event ∧ ¬ FlagHit x.pre x.event) h s ∧ NoWrap cfg h ∧
      Q h s := by
  obtain ⟨h, s, run, hfit, hQ⟩ := RunIn.of_play .word cfg _ n Q es hp
  exact ⟨h, s, run.mono fun _ _ hx => ⟨hx.1, not_flagHit hx.2⟩, hfit, hQ⟩

end fit

section ended

namespace Abs

theorem Sound.mem_table (hI : a.Sound cfg) (hd : d ∈ a.waiting o) (t : TcbId) : d ∈ (a.task t).table ↔ d.1 = t := by
  constructor
  · exact fun hm => (hI.wait.own t d hm).1
  · rintro rfl
    exact ((hI.wait.mem_iff o d).mp hd).1

theorem Sound.waiting_wake (hI : a.Sound cfg) (t : TcbId) (st : PendStatus) (o : ObjId) :
    (a.wake t st).waiting o = (a.waiting o).filter fun d => d.1 ≠ t := by
  by_cases hp : (a.task t).state.isPend = true
  · rw [Abs.waiting_wake _ _ _ hp]
    apply List.filter_congr
    intro d hd
    exact decide_eq_decide.mpr (not_congr (hI.mem_table hd t))
  · rw [wake_of_not_pend (by simpa using hp)]
    symm
    rw [List.filter_eq_self]
    intro d hd
    rw [decide_eq_true_eq]
    rintro rfl
    exact hI.wait.not_mem (by simpa using hp) o d.2 hd

theorem Sound.off_wake (hI : a.Sound cfg) (t : TcbId) (hd : d.1 = t) (o : ObjId) : d ∉ (a.wake t .ok).waiting o := by
  rw [hI.waiting_wake]
  intro hmem
  simpa [hd] using (List.mem_filter.mp hmem).2

theorem Sound.isPend_of_mem (hI : a.Sound cfg) (hd : d ∈ a.waiting o) : (a.task d.1).state.isPend = true := by
  by_contra hp
  exact hI.wait.not_mem (by simpa using hp) o d.2 hd

structure Ended (S : Finset TcbId) (st : PendStatus) (a b : Abs) : Prop where
  task : ∀ t, b.task t = if t ∈ S then (a.task t).woken st else a.task t
  waiting : ∀ o, b.waiting o = (a.waiting o).filter fun d => d.1 ∉ S
  frame : b.frame = a.frame
  entry : b.entry = a.entry

theorem Ended.refl (st : PendStatus) (a : Abs) : a.Ended ∅ st a := by
  refine ⟨fun t => ?_, fun o => ?_, rfl, rfl⟩
  · rw [if_neg (by simp)]
  · simp

theorem Ended.wake (h : a.Ended S st b) (hI : b.Sound cfg) (ht : t ∉ S) : a.Ended (insert t S) st (b.wake t st) := by
  refine ⟨fun x => ?_, fun o => ?_, ?_, ?_⟩
  · rw [task_wake]
    by_cases hx : x = t
    · subst hx
      rw [if_pos rfl, if_pos (Finset.mem_insert_self x S), h.task, if_neg ht]
    · rw [if_neg hx, h.task]
      simp [hx]
  · rw [hI.waiting_wake, h.waiting, List.filter_filter]
    apply List.filter_congr
    intro d _
    simp [Finset.mem_insert]
  · rw [frame_wake, h.frame]
  · funext d
    rw [entry_wake, h.entry]

theorem Ended.not_mem (h : a.Ended S st b) (hd : d ∈ b.waiting o) : d.1 ∉ S := by
  rw [h.waiting, List.mem_filter] at hd
  simpa using hd.2

theorem Ended.mem (h : a.Ended S st b) (hd : d ∈ b.waiting o) : d ∈ a.waiting o := by
  rw [h.waiting, List.mem_filter] at hd
  exact hd.1

theorem Ended.sched (h : a.Ended S st b) (hs : b.Sched a') :
    (∀ t, a'.task t = if t ∈ S then (a.task t).woken st else a.task t) ∧
      ∀ o, a'.waiting o = (a.waiting o).filter fun d => d.1 ∉ S := by
  rw [hs.waiting]
  exact ⟨fun t => by rw [hs.task, h.task], h.waiting⟩

end Abs

theorem Task.prio_woken (st : PendStatus) (c : Task) : (c.woken st).prio = c.prio := by
  rw [Task.woken]
  split <;> rfl

theorem Task.woken_ne_del {c : Task} (h : (c.woken st).state ≠ .del) : c.state ≠ .del := by
  intro hd
  apply h
  rw [Task.woken, if_neg (by simp [hd, TaskState.isPend])]
  exact hd

theorem Abs.wheelOk_wake (a : Abs) (t : TcbId) (st : PendStatus) : (a.wake t st).wheelOk = a.wheelOk := by
  rw [wake]
  split
  · rfl
  split <;> rfl

theorem Fit.wake (F : Fit cfg s a) (h' : Rep cfg s' (a.wake t st)) : Fit cfg s' (a.wake t st) := by
  refine ⟨h', F.sound.wake t st, ?_, fun x hx => ?_⟩
  · rw [Abs.wheelOk_wake, F.wheelOk]
  · rw [Abs.task_wake] at hx ⊢
    split
    · rename_i hxt
      rw [if_pos hxt] at hx
      rw [Task.prio_woken]
      exact F.prio t (Task.woken_ne_del hx)
    · rename_i hxt
      rw [if_neg hxt] at hx
      exact F.prio x hx

theorem Fit.waiter (F : Fit cfg s a) (hd : d ∈ a.waiting o) :
    (a.task d.1).prio < cfg.prioMax ∧ (a.task d.1).table ≠ [] := by
  have hp := F.sound.isPend_of_mem hd
  refine ⟨F.prio d.1 ?_, List.ne_nil_of_mem ((F.sound.wait.mem_iff o d).mp hd).1⟩
  intro h0
  rw [h0] at hp
  cases hp

end ended

section sched

theorem schedOpt_returns (h : s.intNestingCtr = 0 → s.schedLockNestingCtr = 0 → Schedulable cfg s) (opt : Opt) :
    Returns n cfg (schedOpt opt) s := by
  rw [schedOpt]
  apply returns_ite
  · intro _
    rw [Returns, osSched, twp_bind, twp_get, twp_ite]
    refine ⟨fun _ => returns_pure (), fun hi => twp_ite.mpr ⟨fun _ => returns_pure (), fun hl => ?_⟩⟩
    exact (reschedule_returns (h (by omega) (by omega))).mono fun _ _ _ => trivial
  · intro _
    exact returns_pure ()

/-- The current task has not waited, so that there is a task to go on with. -/
theorem Ready.schedulable (H : Ready cfg s a) (hrun : s.running = true) (hE : a.Ended S st b) (F : Fit cfg s' b) :
    s'.intNestingCtr = 0 → s'.schedLockNestingCtr = 0 → Schedulable cfg s' := by
  intro _ hl
  obtain ⟨c, -, hc⟩ := H.cur.runs (H.rep.running.trans hrun)
  have hlock : a.lockNesting = 0 := by
    have hf : b.lockNesting = a.lockNesting := (congrArg Abs.lockNesting hE.frame :)
    rw [← hf, F.rep.lockNesting, hl]
  have hrdy : (a.task c).state = .rdy := by
    rcases hc with hc | ⟨-, hc⟩
    · exact hc
    · omega
  have hb : (b.task c).state = .rdy := by
    rw [hE.task]
    split
    · rw [Task.woken, if_neg (by simp [hrdy, TaskState.isPend])]
      exact hrdy
    · exact hrdy
  exact ⟨b.ready, _, F.rep.rdy, List.ne_nil_of_mem ((F.sound.ready c _).mpr ⟨hb, rfl⟩)⟩

theorem Ready.schedOpt_ended (H : Ready cfg s a) (hrun : s.running = true) (hE : a.Ended S st b) (F : Fit cfg s' b)
    (opt : Opt) : twp n cfg (schedOpt opt) (fun _ s'' => ∃ b', Rep cfg s'' b' ∧ b'.Sound cfg ∧
      (∀ t, b'.task t = if t ∈ S then (a.task t).woken st else a.task t) ∧
      ∀ o, b'.waiting o = (a.waiting o).filter fun d => d.1 ∉ S) s' := by
  refine ((schedOpt_returns (H.schedulable hrun hE F) opt).twp (schedOpt_spec F.rep opt)).mono ?_
  rintro _ s'' ⟨b', h', hs⟩
  split at hs
  · exact ⟨b', h', F.sound.sched hs, hE.sched hs⟩
  · subst hs
    exact ⟨b', h', F.sound, hE.task, hE.waiting⟩

end sched

section tasks

def OS.pendEntries (s : OS) (o : ObjId) : List PdId :=
  Chain.walk s.pdNext (s.obj o).pendList.nbrEntries (s.obj o).pendList.headPtr

/-- The tasks that the entries of the pend list of `o` belong to, in the order of the entries. -/
def OS.pendTasks (s : OS) (o : ObjId) : List TcbId := (s.pendEntries o).filterMap fun d => (s.pendData d).tcbPtr

theorem Rep.pendEntries_eq (hrep : Rep cfg s a) (o : ObjId) : s.pendEntries o = a.waiting o := (hrep.pend.list o).walk_eq

theorem Rep.pendTasks_eq (hrep : Rep cfg s a) (hI : a.Sound cfg) (o : ObjId) :
    s.pendTasks o = (a.waiting o).map Prod.fst := by
  rw [OS.pendTasks, hrep.pendEntries_eq, ← List.filterMap_eq_map]
  apply List.filterMap_congr
  intro d hd
  exact hrep.tcbPtr hI hd

def OS.rdyTasks (s : OS) (p : ℕ) : List TcbId := Chain.walk s.rdyNext (s.rdyList p).nbrEntries (s.rdyList p).headPtr

theorem Rep.rdyTasks_eq (hrep : Rep cfg s a) {p : ℕ} (hp : p < cfg.prioMax) : s.rdyTasks p = a.ready p :=
  (hrep.rdy.lists.list p hp).walk_eq

end tasks

end UcosIII
