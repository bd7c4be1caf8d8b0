import UcosIII.Runs.ReadyTable

namespace UcosIII

open Prog

variable {cfg : Cfg} {s : OS} {a a' b : Abs} {h : List Step} {t : TcbId} {e : Event} {r : Option Ret} {E : Env}

namespace Abs

theorem Sched.intNesting (h : a.Sched a') : a'.intNesting = a.intNesting := by
  obtain ⟨-, rfl⟩ | ⟨-, rfl⟩ | ⟨-, -, p, t, -, rfl⟩ := h <;> rfl

theorem Sched.lockNesting (h : a.Sched a') : a'.lockNesting = a.lockNesting := by
  obtain ⟨-, rfl⟩ | ⟨-, rfl⟩ | ⟨-, -, p, t, -, rfl⟩ := h <;> rfl

theorem Sched.ready (h : a.Sched a') : a'.ready = a.ready := by
  obtain ⟨-, rfl⟩ | ⟨-, rfl⟩ | ⟨-, -, p, t, -, rfl⟩ := h <;> rfl

def Preempts (a : Abs) : Prop :=
  a.running = true → a.intNesting = 0 → a.lockNesting = 0 → a.cur ≠ some tickTaskTCB → ∃ p t, a.cur = some t ∧ a.Best p t

theorem Sched.preempts (h : a.Sched a') : a'.Preempts := by
  intro _ hint hlock _
  rw [h.intNesting] at hint
  rw [h.lockNesting] at hlock
  obtain ⟨hi, -⟩ | ⟨hl, -⟩ | ⟨-, -, p, t, hb, rfl⟩ := h
  · omega
  · omega
  · exact ⟨p, t, rfl, hb⟩

theorem Preempts.congr (h : a.Preempts) (hw : b.who = a.who) (hr : b.ready = a.ready) : b.Preempts := by
  obtain ⟨hcur, hint, hlock, hrun⟩ : b.cur = a.cur ∧ b.intNesting = a.intNesting ∧ b.lockNesting = a.lockNesting ∧
    b.running = a.running := by simpa [who] using hw
  intro h1 h2 h3 h4
  obtain ⟨p, t, hc, hb⟩ := h (hrun ▸ h1) (hint ▸ h2) (hlock ▸ h3) (hcur ▸ h4)
  exact ⟨p, t, hcur.trans hc, by rwa [Best, hr]⟩

theorem Acts.ready_still (h : a.Acts E Act.Still b) : b.ready = a.ready := by
  induction h with
  | refl => rfl
  | @snoc b x _ hx _ _ ih =>
    cases x with
    | flagsOpt | pendStatus | store => exact ih
    | wake | flagWake | expire | rotate | suspend | resume | pendOn | pendMulti | delay => exact hx.elim

end Abs

theorem AStep.preempts (hstep : AStep cfg s a e r a') (he : Enabled s e) (H : Ready cfg s a)
    (hp : ¬ PassedMatch cfg s e) (hno : e.noSched = false) (hpre : a.Preempts) : a'.Preempts := by
  cases hstep with
  | still _ h => exact hpre.congr (Abs.who_of_frame h.frame) h.ready_still
  | acts _ h hwhy =>
    intro _ hint _ htick
    rcases hwhy with hwhy | hwhy | hwhy
    · rw [h.intNesting] at hint
      omega
    · simp [hno] at hwhy
    · subst hwhy
      refine absurd ?_ htick
      rw [h.cur, H.rep.cur]
      exact he.2
  | sched _ _ _ hs => exact hs.preempts
  | leave _ _ _ _ _ hs => exact hs.preempts
  | @finish t _ _ _ _ h =>
    have hpre' : (a.setCont t .none).Preempts := hpre.congr rfl rfl
    exact hpre'.congr (Abs.who_of_frame h.frame) h.ready_still
  | mutexReturn | object | take | nest | unnest | release => exact hpre.congr rfl rfl
  | create _ _ _ _ hs =>
    split at hs
    · exact hs.preempts
    · subst hs
      intro hr
      exact absurd hr ‹_›
  | delete _ _ _ _ _ hs => exact hs.preempts
  | changePrio _ _ _ _ _ hs => exact hs.preempts
  | refuse _ _ _ h => exact absurd h hp
  | wait _ _ _ _ _ _ _ hs => exact hs.preempts
  | handOff _ _ _ _ _ _ _ hs =>
    rw [if_pos (by simpa [Event.noSched, Call.noSched] using hno)] at hs
    exact hs.preempts
  | lock => exact fun _ _ h => absurd h (Nat.succ_ne_zero _)
  | unlock _ _ _ hs => exact hs.preempts
  | intEnter => exact fun _ h => absurd h (Nat.succ_ne_zero _)
  | intExit _ hs => exact hs.preempts
  | start _ hb => exact fun _ _ _ _ => ⟨_, _, rfl, hb⟩

/-- In a run without `OS_OPT_POST_NO_SCHED`, the task that the kernel returns to, if it is not the tick
task, is the first of the ready tasks of the best priority. -/
theorem run_preempts (run : CodeRun cfg (fun _ x => ¬ PassedMatch cfg x.pre x.event ∧
    ¬ IdleStops x.pre x.event x.ret ∧ x.event.noSched = false) h s) (hfit : NoWrap cfg h)
    (hrun : s.running = true) (hint : s.intNestingCtr = 0) (hlock : s.schedLockNestingCtr = 0)
    (htick : s.tcbCurPtr ≠ some tickTaskTCB) :
    ∃ t p, s.tcbCurPtr = some t ∧ p < cfg.prioMax ∧ (s.rdyList p).headPtr = some t ∧
      ∀ x, (s.tcb x).taskState = .rdy → p ≤ (s.tcb x).prio := by
  replace run : Run cfg _ h s := run.fits hfit .nat
  obtain ⟨a, H, hpre⟩ := run.invariant (I := fun _ => Abs.Preempts) (fun _ _ => And.left)
    (fun h => absurd h Bool.false_ne_true) fun _ _ _ _ _ _ H hpre he hk hstep => hstep.preempts he H hk.1 hk.2.2 hpre
  obtain ⟨p, t, hcur, hhead, hbest⟩ := hpre (H.rep.running.trans hrun) (H.rep.intNesting.trans hint)
    (H.rep.lockNesting.trans hlock) (by rwa [H.rep.cur])
  have hlt := H.rep.lt_prioMax (List.mem_of_mem_head? hhead)
  refine ⟨t, p, H.rep.cur.symm.trans hcur, hlt, (H.rep.head hlt).trans hhead, fun x hx => ?_⟩
  rw [H.rep.state] at hx
  rw [H.rep.prio]
  exact hbest _ (List.ne_nil_of_mem ((H.sound.ready x _).mpr ⟨hx, rfl⟩))

/-- A post readies a task of a better priority, which runs at once. -/
theorem run_preempts_post : ∃ h s, CodeRun Cfg.repository (fun _ x => ¬ PassedMatch Cfg.repository x.pre x.event ∧
      ¬ IdleStops x.pre x.event x.ret ∧ x.event.noSched = false) h s ∧ NoWrap Cfg.repository h ∧
    s.tcbCurPtr = some 4 ∧ ∃ t p, s.tcbCurPtr = some t ∧ p < Cfg.repository.prioMax ∧ (s.rdyList p).headPtr = some t ∧
      ∀ x, (s.tcb x).taskState = .rdy → p ≤ (s.tcb x).prio := by
  obtain ⟨h, s, run, hfit, hcur, h1, h2, h3⟩ := RunIn.of_play .word Cfg.repository
    (fun _ x => ¬ PassedMatch Cfg.repository x.pre x.event ∧ ¬ IdleStops x.pre x.event x.ret ∧ x.event.noSched = false) 40
    (fun _ s => s.tcbCurPtr = some 4 ∧ s.running = true ∧ s.intNestingCtr = 0 ∧ s.schedLockNestingCtr = 0)
    [.newTask 4 5, .newTask 5 6, .call (.semCreate (some 0) 0), .start, .call (.semPend (some 0) 0 optPendBlocking),
      .call (.semPost (some 0) optPost1)] (by decide +kernel)
  exact ⟨h, s, run, hfit, hcur, run_preempts run hfit h1 h2 h3 (by simp [hcur, tickTaskTCB])⟩

/-- A task comes to a ready list of 65536 tasks and is alone in it; when it stops, a task of a lower priority runs. -/
theorem run_preempts_overflow : ∃ h s, CodeRun Cfg.repository (fun _ x => ¬ PassedMatch Cfg.repository x.pre x.event ∧
      ¬ IdleStops x.pre x.event x.ret ∧ x.event.noSched = false) h s ∧
    s.running = true ∧ s.intNestingCtr = 0 ∧ s.schedLockNestingCtr = 0 ∧ s.tcbCurPtr ≠ some tickTaskTCB ∧
    ¬ ∃ t p, s.tcbCurPtr = some t ∧ p < Cfg.repository.prioMax ∧ (s.rdyList p).headPtr = some t ∧
      ∀ x, (s.tcb x).taskState = .rdy → p ≤ (s.tcb x).prio := by
  obtain ⟨h, h₀, s, run, -, hrun, hint, hlock, hcur, hst, hprio, hhead⟩ := RunIn.of_crowd Cfg.repository 40
    [.newTask 4 6] [.newTask 65546 5, .start, .call (.taskSuspend none)]
    (P := fun x => ¬ PassedMatch Cfg.repository x.pre x.event ∧ ¬ IdleStops x.pre x.event x.ret ∧ x.event.noSched = false)
    (F := fun B => B.rdyCrowd 65536) (H := OS.HostsReady)
    (Q := fun _ s => s.running = true ∧ s.intNestingCtr = 0 ∧ s.schedLockNestingCtr = 0 ∧ s.tcbCurPtr = some 4 ∧
      (s.tcb 10).taskState = .rdy ∧ (s.tcb 10).prio = 5 ∧ ∀ p ∈ List.range 6, (s.rdyList p).headPtr ≠ some 4)
    (fun _ hP => hP.1) (fun h B run hB hdel => rdyCrowd_gathers run hB hdel (fun _ _ _ => ⟨id, not_idleStops_newTask, rfl⟩) (by decide))
    (by decide +kernel)
  refine ⟨_, s, run, hrun, hint, hlock, by rw [hcur]; decide, ?_⟩
  rintro ⟨t, p, ht, -, hp, hbest⟩
  obtain rfl : 4 = t := Option.some_inj.mp (hcur.symm.trans ht)
  exact hhead p (List.mem_range.mpr (Nat.lt_succ_of_le (hprio ▸ hbest 10 hst))) hp

section current

/-- The running task changes its own priority and goes on running: the scheduler is locked, or no other
ready task comes before it at the new priority. -/
def ReprioInPlace (cfg : Cfg) (s : OS) : Event → Prop
  | .call (.taskChangePrio p q) =>
    s.intNestingCtr = 0 ∧ q < cfg.prioMax - 1 ∧ (p = none ∨ p = s.tcbCurPtr) ∧ q ≠ s.prioCur ∧
      (0 < s.schedLockNestingCtr ∨ ∀ x, some x ≠ s.tcbCurPtr → (s.tcb x).taskState = .rdy →
        q < (s.tcb x).prio ∨ p = none ∧ q = (s.tcb x).prio)
  | _ => False

/-- The running task deletes itself while the scheduler is locked, and so goes on running. -/
def DeletesSelfLocked (s : OS) : Event → Prop
  | .call (.taskDel p) => s.intNestingCtr = 0 ∧ 0 < s.schedLockNestingCtr ∧ (p = none ∨ p = s.tcbCurPtr)
  | _ => False

instance (s : OS) (e : Event) : Decidable (DeletesSelfLocked s e) := by
  unfold DeletesSelfLocked
  split <;> infer_instance

namespace Abs

def Current (a : Abs) : Prop :=
  a.running = true → ∃ c, a.cur = some c ∧ (a.task c).state = .rdy ∧ a.prioCur = (a.task c).prio

theorem Sched.current (hs : b.Sched a') (hI : b.Sound cfg) (hheld : 0 < b.intNesting ∨ 0 < b.lockNesting → b.Current)
    (hsame : ∀ p c, b.cur = some c → b.Best p c → b.prioCur = (b.task c).prio) : a'.Current := by
  obtain ⟨hi, rfl⟩ | ⟨hl, rfl⟩ | ⟨-, -, p, t, hb, rfl⟩ := hs
  · exact hheld (.inl hi)
  · exact hheld (.inr hl)
  · intro _
    obtain ⟨hst, hprio⟩ := (hI.ready t p).mp (List.mem_of_mem_head? hb.1)
    refine ⟨t, rfl, hst, ?_⟩
    rw [switch]
    split
    · exact hsame p t ‹_› hb
    · exact hprio.symm

theorem Acts.prioCur {S : Act → Prop} (h : a.Acts E S b) : b.prioCur = a.prioCur :=
  (congrArg (fun y : Abs => y.prioCur) h.frame :)

theorem Current.acts {S : Act → Prop} (h : a.Current) (hacts : a.Acts E S b)
    (hS : (∀ x, S x → x.Wakes ∨ x.Still) ∨ 0 < a.intNesting ∨ 0 < a.lockNesting) : b.Current := by
  intro hrun
  obtain ⟨c, hc, hst, hp⟩ := h (hacts.running ▸ hrun)
  refine ⟨c, hacts.cur.trans hc, (hacts.state_cur hc (.inl hst) hS).trans hst, ?_⟩
  rw [hacts.prioCur, hacts.prio, hp]

theorem Current.congr (h : a.Current) (hcur : b.cur = a.cur) (hrun : b.running = true → a.running = true)
    (hp : b.prioCur = a.prioCur)
    (ht : ∀ c, a.cur = some c → (a.task c).state = .rdy → (b.task c).state = .rdy ∧ (b.task c).prio = (a.task c).prio) :
    b.Current := by
  intro h1
  obtain ⟨c, hc, hst, hpc⟩ := h (hrun h1)
  obtain ⟨hst', hp'⟩ := ht c hc hst
  exact ⟨c, hcur.trans hc, hst', by rw [hp, hpc, hp']⟩

theorem Current.sched (h : b.Current) (hrun : b.running = true) (hI : b.Sound cfg) (hs : b.Sched a') : a'.Current := by
  refine hs.current hI (fun _ => h) fun p c hc _ => ?_
  obtain ⟨c', hc', -, hp⟩ := h hrun
  rw [hc] at hc'
  cases hc'
  exact hp

theorem prioCur_move (a : Abs) (t : TcbId) (p : ℕ) (atHead : Bool) : (a.move t p atHead).prioCur = a.prioCur := by
  cases atHead <;> rfl

theorem prioCur_reprio (a : Abs) (t : TcbId) (p : ℕ) (self : Bool) : (a.reprio t p self).prioCur = a.prioCur := by
  rw [reprio]
  cases (a.task t).state <;> cases (a.task t).pendOn <;> first | exact prioCur_move a t p self | rfl

theorem mem_ready_move (hnd : ∀ p, (a.ready p).Nodup) {x : TcbId} {q : ℕ} (hx : x ≠ t) (atHead : Bool) (p : ℕ) :
    x ∈ (a.move t p atHead).ready q ↔ x ∈ a.ready q := by
  have hmem := mem_dequeue (hnd (a.task t).prio) x q
  cases atHead
  · refine (mem_enqueueTail _ t x q).trans ?_
    simp only [ready_modTask, hmem, hx, false_and, not_false_eq_true, and_true, or_false]
  · refine (mem_enqueueHead _ t x q).trans ?_
    simp only [ready_modTask, hmem, hx, false_and, not_false_eq_true, and_true, or_false]

theorem head_ready_move {x : TcbId} {p : ℕ} (hr : a.ReadyOk) (hnd : ∀ p, (a.ready p).Nodup) (hx : x ≠ t)
    (hmem : x ∈ a.ready p) :
    ((a.move t p false).ready p).head? ≠ some t := by
  have hlist : (a.move t p false).ready p = (a.dequeue t).ready p ++ [t] := by
    change (Abs.enqueueTail ((a.dequeue t).modTask t fun c => { c with prio := p }) t).ready p = _
    rw [enqueueTail, ready_setReady, task_modTask, if_pos rfl, if_pos rfl]
    rfl
  have hdeq : x ∈ (a.dequeue t).ready p := (mem_dequeue (hnd _) x p).mpr ⟨hmem, fun h => hx h.1⟩
  rw [hlist]
  intro hhead
  cases hl : (a.dequeue t).ready p with
  | nil => simp [hl] at hdeq
  | cons y l =>
    rw [hl] at hhead
    have hyt : y = t := by simpa using hhead
    have ht : t ∈ (a.dequeue t).ready p := by simp [hl, hyt]
    obtain ⟨htp, hne⟩ := (mem_dequeue (hnd _) t p).mp ht
    exact hne ⟨rfl, ((hr t p).mp htp).2.symm⟩

end Abs

theorem Abs.Sched.current_reprio {p : Option TcbId} {q : ℕ} (H : Ready cfg s a) (hC : a.Current) (hrun : a.running = true)
    (hcur : a.cur = some t) (hint : a.intNesting = 0) (hq : q < cfg.prioMax - 1) (hp : p = none ∨ p = some t)
    (hnot : ¬ ReprioInPlace cfg s (.call (.taskChangePrio p q))) (hs : (a.reprio t q (p = none)).Sched a') : a'.Current := by
  obtain ⟨c, hc, hst, hpc⟩ := hC hrun
  rw [hcur] at hc
  cases hc
  have hnd := H.rep.nodup
  have hsound := H.sound.reprio hnd t q (p = none)
  have hprio : ((a.reprio t q (p = none)).task t).prio = q := by
    rw [Abs.task_reprio H.sound.wait, if_pos ⟨rfl, by simp [hst]⟩]
  have hmove : a.reprio t q (p = none) = a.move t q (p = none) := by rw [Abs.reprio, hst]
  have hwho := Abs.who_reprio a t q (p = none)
  have hpcur := Abs.prioCur_reprio a t q (p = none)
  by_cases hsame : q = a.prioCur
  · have hC' : (a.reprio t q (p = none)).Current := fun _ =>
      ⟨t, (congrArg Prod.fst hwho).trans hcur, by rw [Abs.task_reprio H.sound.wait]; grind, by rw [hpcur, hprio, hsame]⟩
    exact hC'.sched ((congrArg (fun x => x.2.2.2) hwho).trans hrun) hsound hs
  · have hplace : ¬ (0 < s.schedLockNestingCtr ∨ ∀ x, some x ≠ s.tcbCurPtr → (s.tcb x).taskState = .rdy →
        q < (s.tcb x).prio ∨ p = none ∧ q = (s.tcb x).prio) := by
      intro h
      refine hnot ⟨H.rep.intNesting.symm.trans hint, hq, ?_, by rwa [← H.rep.prioCur], h⟩
      rwa [← H.rep.cur, hcur]
    rw [not_or, not_forall] at hplace
    obtain ⟨hlock, x, hx⟩ := hplace
    simp only [Classical.not_imp, not_or, not_and, not_lt] at hx
    obtain ⟨hxc, hxs, hxle, hxe⟩ := hx
    rw [← H.rep.cur, hcur] at hxc
    rw [H.rep.state] at hxs
    rw [H.rep.prio] at hxle hxe
    have hxt : x ≠ t := fun e => hxc (by rw [e])
    have hxmem : x ∈ a.ready (a.task x).prio := (H.sound.ready x _).mpr ⟨hxs, rfl⟩
    refine hs.current hsound (fun hheld => ?_) fun p' c hc hb => ?_
    · have h1 : (a.reprio t q (p = none)).intNesting = a.intNesting := (congrArg (fun x => x.2.1) hwho :)
      have h2 : (a.reprio t q (p = none)).lockNesting = a.lockNesting := (congrArg (fun x => x.2.2.1) hwho :)
      have h3 := H.rep.lockNesting
      omega
    · -- the task is not the first of the best list any more
      have hct : c = t := Option.some_inj.mp (hc.symm.trans ((congrArg Prod.fst hwho).trans hcur))
      subst hct
      have hpq : p' = q := (((hsound.ready c p').mp (List.mem_of_mem_head? hb.1)).2).symm.trans hprio
      subst hpq
      have hxmem' : x ∈ (a.reprio c p' (p = none)).ready (a.task x).prio := by
        rw [hmove, Abs.mem_ready_move hnd hxt]
        exact hxmem
      have hle := hb.2 _ (List.ne_nil_of_mem hxmem')
      have heq : (a.task x).prio = p' := by omega
      have hpn : p ≠ none := fun h => hxe h heq.symm
      refine absurd hb.1 ?_
      rw [hmove, decide_eq_false hpn]
      exact Abs.head_ready_move H.sound.ready hnd hxt (heq ▸ hxmem)

theorem AStep.current (hstep : AStep cfg s a e r a') (H : Ready cfg s a) (hp : ¬ PassedMatch cfg s e)
    (hplace : ¬ ReprioInPlace cfg s e) (hdel : ¬ DeletesSelfLocked s e) (hC : a.Current) : a'.Current := by
  have hnd := H.rep.nodup
  cases hstep with
  | still _ h => exact hC.acts h (.inl fun _ => .inr)
  | acts _ h => exact hC.acts h (.inl fun _ => .inl)
  | @sched _ _ b _ _ hrun h hs =>
    refine hs.current (H.sound.acts h) (fun hheld => hC.acts h (.inr ?_)) fun p c hc _ => ?_
    · rwa [← h.intNesting, ← h.lockNesting]
    · obtain ⟨c', hc', -, hpc⟩ := hC hrun
      rw [← h.cur, hc] at hc'
      cases hc'
      rw [h.prioCur, h.prio, hpc]
  | @leave _ t k b _ _ hcur _ _ h hs =>
    have hrun := running_of_cur H.cur hcur
    refine hs.current ((H.sound.acts h).setCont t k) (fun hheld => ?_) fun p c hc _ => ?_
    · have hC' := hC.acts h (.inr (by rwa [← h.intNesting, ← h.lockNesting]))
      exact hC'.congr rfl id rfl fun _ _ h' => ⟨h', rfl⟩
    · obtain ⟨c', hc', -, hpc⟩ := hC hrun
      rw [← h.cur] at hc'
      cases hc.symm.trans hc'
      change b.prioCur = (b.task c).prio
      rw [h.prioCur, h.prio, hpc]
  | @finish t _ _ _ _ h =>
    have hC' : (a.setCont t .none).Current := hC.congr rfl id rfl fun _ _ h' => ⟨h', rfl⟩
    exact hC'.acts h (.inl fun _ => .inr)
  | mutexReturn | object | take | nest | unnest | release =>
    exact hC.congr rfl id rfl fun _ _ h' => ⟨h', rfl⟩
  | @create args t _ _ hd _ _ hs =>
    split at hs
    · rename_i hrun
      have hC' : (a.start t args.prio).Current := by
        refine hC.congr rfl id rfl fun c _ hst => ?_
        have hne : c ≠ t := by
          rintro rfl
          simp [hst] at hd
        rw [Abs.task_start, if_neg hne]
        exact ⟨hst, rfl⟩
      exact hC'.sched hrun (H.sound.start hd _) hs
    · subst hs
      exact fun hr => absurd hr ‹_›
  | @delete p t _ hrun ht hd hint _ hs =>
    have hwho := Abs.who_erase a t cfg.prioMax
    have hsound := H.sound.erase hnd t
    by_cases hct : a.cur = some t
    · -- the scheduler is not locked, and the deleted task is in no ready list
      have hlock : a.lockNesting = 0 := by
        by_contra hl
        refine hdel ⟨H.rep.intNesting.symm.trans hint, ?_, ?_⟩
        · rw [← H.rep.lockNesting]
          exact Nat.pos_of_ne_zero hl
        · rw [← H.rep.cur, hct]
          exact ht.symm.imp And.left id
      refine hs.current hsound (fun hheld => ?_) fun p c hc hb => ?_
      · have h1 : (a.erase t cfg.prioMax).intNesting = a.intNesting := (congrArg (fun x => x.2.1) hwho :)
        have h2 : (a.erase t cfg.prioMax).lockNesting = a.lockNesting := (congrArg (fun x => x.2.2.1) hwho :)
        omega
      · have hc' : c = t := Option.some_inj.mp (hc.symm.trans ((congrArg Prod.fst hwho).trans hct))
        subst hc'
        have := ((hsound.ready c p).mp (List.mem_of_mem_head? hb.1)).1
        rw [Abs.task_erase, if_pos rfl] at this
        cases this
    · have hC' : (a.erase t cfg.prioMax).Current := by
        refine hC.congr (congrArg Prod.fst hwho) (fun _ => hrun) ?_ fun c hc hst => ?_
        · change (a.unlink t).prioCur = a.prioCur
          rw [Abs.unlink]
          cases (a.task t).state <;> rfl
        · have hne : c ≠ t := by
            rintro rfl
            exact hct hc
          rw [Abs.task_erase, if_neg hne]
          exact ⟨hst, rfl⟩
      exact hC'.sched ((congrArg (fun x => x.2.2.2) hwho).trans hrun) hsound hs
  | @changePrio p q t _ hrun ht hd hint hq hs =>
    by_cases hct : a.cur = some t
    · exact hs.current_reprio H hC hrun hct hint hq (ht.symm.imp And.left id) hplace
    · have hwho := Abs.who_reprio a t q (p = none)
      have hC' : (a.reprio t q (p = none)).Current := by
        refine hC.congr (congrArg Prod.fst hwho) (fun _ => hrun) (Abs.prioCur_reprio a t q _) fun c hc hst => ?_
        have hne : c ≠ t := by
          rintro rfl
          exact hct hc
        rw [Abs.task_reprio H.sound.wait, if_neg fun h => hne h.1]
        exact ⟨hst, rfl⟩
      exact hC'.sched ((congrArg (fun x => x.2.2.2) hwho).trans hrun) (H.sound.reprio hnd t q _) hs
  | refuse _ _ _ h => exact absurd h hp
  | @wait o t w timed _ _ b _ hstop hm _ _ hne hb hnd' hs =>
    have hsound : (b.pendOn t (some o) .mutex timed).Sound cfg := sound_waiting H.sound hnd hstop.2.1 hm hne hb hnd'
    have hwho : (b.pendOn t (some o) .mutex timed).who = a.who := by
      refine (Abs.who_of_frame (Abs.frame_pendOn _ _ _ _)).trans ?_
      split at hb
      · rw [hb.2, Abs.who_boost]
      · rw [hb]
    obtain ⟨hcur, hint, hlock, -⟩ : (b.pendOn t (some o) .mutex timed).cur = a.cur ∧
      (b.pendOn t (some o) .mutex timed).intNesting = a.intNesting ∧
      (b.pendOn t (some o) .mutex timed).lockNesting = a.lockNesting ∧ _ := by simpa [Abs.who] using hwho
    refine hs.current (hsound.setCont _ _) (fun hheld => ?_) fun p c hc hbest => ?_
    · have h1 : 0 < a.intNesting ∨ 0 < a.lockNesting := by rwa [← hint, ← hlock]
      have h2 := hstop.2.2
      omega
    · -- the waiting task is not ready
      have hct : c = t := Option.some_inj.mp (hc.symm.trans (hcur.trans hstop.1))
      subst hct
      have hst := (((hsound.setCont c (.mutexPend o)).ready c p).mp (List.mem_of_mem_head? hbest.1)).1
      change ((b.pendOn c (some o) .mutex timed).task c).state = .rdy at hst
      rw [Abs.task_pendOn, if_pos rfl] at hst
      cases timed <;> cases hst
  | @handOff o t d opt _ hcur _ _ _ _ _ hrdy hs =>
    have hrun := running_of_cur H.cur hcur
    have hwho : ((a.restore t (a.obj o).ownerPrio).handOff o d.1).who = a.who :=
      (Abs.who_handOff _ _ _).trans (Abs.who_restore _ _ _)
    have hsound := (H.sound.restore hnd hrdy).handOff o d.1
    have hC' : ((a.restore t (a.obj o).ownerPrio).handOff o d.1).Current := by
      intro _
      obtain ⟨c, hc, hst, hpc⟩ := hC hrun
      rw [hcur] at hc
      cases hc
      refine ⟨t, (congrArg Prod.fst hwho).trans hcur, ?_, ?_⟩
      · rw [Abs.task_handOff, Abs.task_restore, Abs.task_restore]
        grind
      · have hpcur : ((a.restore t (a.obj o).ownerPrio).handOff o d.1).prioCur =
            (a.restore t (a.obj o).ownerPrio).prioCur := (congrArg (fun y : Abs => y.prioCur) (Abs.frame_wake d.1 .ok) :)
        rw [hpcur, Abs.task_handOff, Abs.task_restore, Abs.task_restore, Abs.restore]
        grind
    split at hs
    · exact hC'.sched ((congrArg (fun x => x.2.2.2) hwho).trans hrun) hsound hs
    · exact hs ▸ hC'
  | lock => exact hC.congr rfl id rfl fun _ _ h' => ⟨h', rfl⟩
  | unlock _ hlock _ hs =>
    have hrun : a.running = true := by
      by_contra hr
      have := (H.cur.stopped (by simpa using hr)).2.1
      omega
    have hC' : Abs.Current { a with lockNesting := a.lockNesting - 1 } := hC.congr rfl id rfl fun _ _ h' => ⟨h', rfl⟩
    exact hC'.sched hrun (H.sound.congr rfl rfl rfl rfl rfl) hs
  | intEnter => exact hC.congr rfl id rfl fun _ _ h' => ⟨h', rfl⟩
  | intExit hint hs =>
    have hrun : a.running = true := by
      by_contra hr
      have := (H.cur.stopped (by simpa using hr)).1
      omega
    have hC' : Abs.Current { a with intNesting := a.intNesting - 1 } := hC.congr rfl id rfl fun _ _ h' => ⟨h', rfl⟩
    exact hC'.sched hrun (H.sound.congr rfl rfl rfl rfl rfl) hs
  | @start _ p t _ hb =>
    obtain ⟨hst, hprio⟩ := (H.sound.ready t p).mp (List.mem_of_mem_head? hb.1)
    exact fun _ => ⟨t, rfl, hst, hprio.symm⟩

/-- In a run in which the running task neither changes its priority in place nor deletes itself with the
scheduler locked, `OSPrioCur` is the priority of the running task; a task readied at that priority goes
behind the others, and the list that round-robin scheduling turns has the running task in it. -/
theorem run_prioCur (run : CodeRun cfg (fun _ x => ¬ PassedMatch cfg x.pre x.event ∧ ¬ ReprioInPlace cfg x.pre x.event ∧
      ¬ DeletesSelfLocked x.pre x.event) h s) (hfit : NoWrap cfg h) (hrun : s.running = true) :
    ∃ c, s.tcbCurPtr = some c ∧ s.prioCur = (s.tcb c).prio ∧ (∃! k, s.rdyAt s.prioCur k = some c) ∧
      ∀ t s', (∀ p < cfg.prioMax, ∀ k, s.rdyAt p k ≠ some t) → (s.tcb t).prio = (s.tcb c).prio →
        Fits cfg (rdyListInsert t) s → RunsIn .word cfg (rdyListInsert t) s () s' →
        (s'.rdyList s.prioCur).tailPtr = some t ∧ (s'.rdyList s.prioCur).headPtr = (s.rdyList s.prioCur).headPtr := by
  replace run : Run cfg _ h s := run.fits hfit .nat
  obtain ⟨a, H, hC⟩ := run.invariant (I := fun _ => Abs.Current) (fun _ _ => And.left)
    (fun h => absurd h Bool.false_ne_true) fun _ _ _ _ _ _ H hC _ hk hstep => hstep.current H hk.1 hk.2.1 hk.2.2 hC
  obtain ⟨c, hc, hst, hp⟩ := hC (H.rep.running.trans hrun)
  have hmem : c ∈ a.ready a.prioCur := (H.sound.ready c _).mpr ⟨hst, hp.symm⟩
  have hlt := H.rep.lt_prioMax hmem
  rw [← H.rep.prioCur]
  refine ⟨c, H.rep.cur.symm.trans hc, hp.trans (H.rep.prio c).symm, (H.rep.rdyAt_unique hlt).mpr hmem, ?_⟩
  intro t s' hoff hpt hf hx
  have hoff' : ∀ q, t ∉ a.ready q := by
    intro q hq
    obtain ⟨k, hk⟩ := (H.rep.rdyAt_iff (H.rep.lt_prioMax hq)).mpr hq
    exact hoff q (H.rep.lt_prioMax hq) k hk
  have h' := (hx.fits hf .nat).wp fun n => rdyListInsert_spec H.rep hoff'
  have hpt' : (a.task t).prio = a.prioCur := by rw [← H.rep.prio, hpt, H.rep.prio, hp]
  have hlist : (a.enqueue t).ready a.prioCur = a.ready a.prioCur ++ [t] := by
    rw [Abs.enqueue, Abs.ready_setReady, hpt', if_pos rfl, if_pos rfl]
  constructor
  · rw [(h'.rdy.lists.list a.prioCur hlt).tail_eq, hlist, List.getLast?_concat]
  · rw [h'.head hlt, H.rep.head hlt, hlist]
    cases hl : a.ready a.prioCur with
    | nil => simp [hl] at hmem
    | cons x l => rfl

/-- A task that lowers its own priority below that of another ready task stops running. -/
theorem run_prioCur_yield : ∃ h s, CodeRun Cfg.repository (fun _ x => ¬ PassedMatch Cfg.repository x.pre x.event ∧
      ¬ ReprioInPlace Cfg.repository x.pre x.event ∧ ¬ DeletesSelfLocked x.pre x.event) h s ∧ NoWrap Cfg.repository h ∧
    s.tcbCurPtr = some 5 ∧
    ∃ c, s.tcbCurPtr = some c ∧ s.prioCur = (s.tcb c).prio ∧ (∃! k, s.rdyAt s.prioCur k = some c) ∧
      ∀ t s', (∀ p < Cfg.repository.prioMax, ∀ k, s.rdyAt p k ≠ some t) → (s.tcb t).prio = (s.tcb c).prio →
        Fits Cfg.repository (rdyListInsert t) s → RunsIn .word Cfg.repository (rdyListInsert t) s () s' →
        (s'.rdyList s.prioCur).tailPtr = some t ∧ (s'.rdyList s.prioCur).headPtr = (s.rdyList s.prioCur).headPtr := by
  let script : List Event := [.newTask 4 5, .newTask 5 6, .start, .call (.taskChangePrio none 7)]
  obtain ⟨h, s, run, hfit, hcur, hrun⟩ := RunIn.of_play .word Cfg.repository
    (fun _ x => x.event ∈ script ∧ (x.event = .call (.taskChangePrio none 7) → x.pre.schedLockNestingCtr = 0 ∧
      x.pre.tcbCurPtr = some 4 ∧ (x.pre.tcb 5).taskState = .rdy ∧ (x.pre.tcb 5).prio = 6)) 40
    (fun _ s => s.tcbCurPtr = some 5 ∧ s.running = true) script (by decide +kernel)
  have run' : CodeRun Cfg.repository (fun _ x => ¬ PassedMatch Cfg.repository x.pre x.event ∧
      ¬ ReprioInPlace Cfg.repository x.pre x.event ∧ ¬ DeletesSelfLocked x.pre x.event) h s := by
    apply run.mono
    rintro _ ⟨s₀, e, r⟩ ⟨hmem, hwhy⟩
    change e ∈ script at hmem
    simp only [script, List.mem_cons, List.not_mem_nil, or_false] at hmem
    obtain rfl | rfl | rfl | rfl := hmem
    · exact ⟨id, id, id⟩
    · exact ⟨id, id, id⟩
    · exact ⟨id, id, id⟩
    · obtain ⟨hlock, hcur₀, hst, hprio⟩ := hwhy rfl
      refine ⟨id, ?_, id⟩
      rintro ⟨-, -, -, -, hl | hno⟩
      · exact absurd hlock hl.ne'
      · have := hno 5 (by rw [hcur₀]; decide) hst
        rw [hprio] at this
        omega
  exact ⟨h, s, run', hfit, hcur, run_prioCur run' hfit hrun⟩

/-- A task that raises its own priority and goes on running leaves `OSPrioCur` behind. -/
theorem reprio_leaves_prioCur : ∃ h s, CodeRun Cfg.repository (fun _ _ => True) h s ∧ s.running = true ∧
    s.intNestingCtr = 0 ∧ ¬ ∃ c, s.tcbCurPtr = some c ∧ s.prioCur = (s.tcb c).prio := by
  obtain ⟨h, s, run, -, hs⟩ := RunIn.of_play .word Cfg.repository (fun _ _ => True) 40
    (fun _ s => s.running = true ∧ s.intNestingCtr = 0 ∧ ¬ ∃ c ∈ s.tcbCurPtr, s.prioCur = (s.tcb c).prio)
    [.newTask 4 5, .start, .call (.taskChangePrio none 3)] (by decide +kernel)
  exact ⟨h, s, run, hs⟩

end current

end UcosIII
