import UcosIII.Abstract.Goods
import UcosIII.Runs.Inheritance
import UcosIII.Runs.SchedLock

namespace UcosIII

open Prog

variable {n : ℕ} {cfg : Cfg} {t u : TcbId}

section calls

/-- What the critical sections of the other calls of the kernel do as long as its data are in order: they do not set up,
delete or switch tasks. -/
structure KernelMove (cfg : Cfg) (s s' : OS) : Prop where
  sound : ∃ a, Rep cfg s' a ∧ a.Sound cfg
  del : ∀ t, (s'.tcb t).taskState = .del ↔ (s.tcb t).taskState = .del
  cur : s'.tcbCurPtr = s.tcbCurPtr
  high : s'.tcbHighRdyPtr = s.tcbHighRdyPtr
  running : s'.running = s.running
  intNesting : s'.intNestingCtr = s.intNestingCtr

variable {s : OS} {a a' : Abs} {c : Call} {r : Option Ret}

theorem Abs.Sched.running (h : a.Sched a') : a'.running = a.running := by
  obtain ⟨-, rfl⟩ | ⟨-, rfl⟩ | ⟨-, -, p, t, -, rfl⟩ := h <;> rfl

theorem AStep.stays (hstep : AStep cfg s a (.call c) r a') : a'.running = a.running ∧ a'.intNesting = a.intNesting := by
  have hwho {b : Abs} (h : b.who = a.who) : b.running = a.running ∧ b.intNesting = a.intNesting := by
    simp only [Abs.who, Prod.mk.injEq] at h
    exact ⟨h.2.2.2, h.2.1⟩
  have hsched {b : Abs} (hs : b.Sched a') (h : b.running = a.running ∧ b.intNesting = a.intNesting) :
      a'.running = a.running ∧ a'.intNesting = a.intNesting := ⟨hs.running.trans h.1, hs.intNesting.trans h.2⟩
  cases hstep with
  | still _ h => exact hwho (Abs.who_of_frame h.frame)
  | acts _ h => exact hwho (Abs.who_of_frame h.frame)
  | sched _ _ h hs => exact hsched hs (hwho (Abs.who_of_frame h.frame))
  | @leave _ t k b _ _ _ _ _ h hs => exact hsched (b := b.setCont t k) hs (hwho (Abs.who_of_frame h.frame) :)
  | refuse | object | take | nest | unnest | release | lock => exact ⟨rfl, rfl⟩
  | @create args t _ _ _ _ _ hs =>
    split at hs
    · exact hsched hs ⟨rfl, rfl⟩
    · exact hs ▸ ⟨rfl, rfl⟩
  | delete _ _ _ _ _ hs => exact hsched hs (hwho (Abs.who_erase _ _ _))
  | changePrio _ _ _ _ _ hs => exact hsched hs (hwho (Abs.who_reprio _ _ _ _))
  | @wait o t w timed _ _ b _ _ _ _ _ _ hb _ hs =>
    refine hsched hs (hwho ?_)
    refine (Abs.who_of_frame (Abs.frame_pendOn _ _ _ _)).trans ?_
    split at hb
    · rw [hb.2, Abs.who_boost]
    · rw [hb]
  | @handOff o t d opt _ _ _ _ _ _ _ _ hs =>
    have h : ((a.restore t (a.obj o).ownerPrio).handOff o d.1).who = a.who :=
      (Abs.who_handOff _ _ _).trans (Abs.who_restore _ _ _)
    split at hs
    · exact hsched hs (hwho h)
    · exact hs ▸ hwho h
  | unlock _ _ _ hs => exact hsched hs ⟨rfl, rfl⟩

/-- A call with the scheduler locked, where `OSSched` leaves `OSTCBHighRdyPtr` as it is, is such a critical section,
unless it sets up a task or deletes one. -/
theorem Ready.kernelMove (H : Ready cfg s a) (he : Enabled s (.call c)) (hnew : c.starts = none)
    (hdel : ∀ p, c ≠ .taskDel p) (hlocked : 0 < s.schedLockNestingCtr) :
    wp n cfg (Event.exec (.call c)) (fun _ s' => 0 < s'.schedLockNestingCtr → s'.tcbHighRdyPtr = s.tcbHighRdyPtr →
      KernelMove cfg s s') s := by
  refine (Event.exec_sim H he).mono fun r s' ⟨a', h', hstep⟩ hlocked' hhigh => ?_
  have hpassed : ¬ PassedMatch cfg s (.call c) := by
    cases c <;> simp [PassedMatch] <;> omega
  have hcur : a'.cur = a.cur := hstep.cur_of_locked H.cur (by rwa [h'.lockNesting])
  have hiff (t : TcbId) : (a'.task t).state = .del ↔ (a.task t).state = .del := by
    refine ⟨fun hd => by_contra fun hs => ?_, hstep.dormant H.sound.wait (by simp [Event.starts, hnew])⟩
    obtain ⟨p, hp, -⟩ := hstep.deleted H.sound.wait hs hd
    exact hdel p (Event.call.inj hp)
  exact {
    sound := ⟨a', h', hstep.sound H.sound H.rep.nodup hpassed⟩
    del := fun t => by rw [h'.state, H.rep.state, hiff]
    cur := by rw [← h'.cur, ← H.rep.cur, hcur]
    high := hhigh
    running := by rw [← h'.running, ← H.rep.running, hstep.stays.1]
    intNesting := by rw [← h'.intNesting, ← H.rep.intNesting, hstep.stays.2] }

end calls

section kernel

variable {s s' : OS} {a a' : Abs}

structure SameTasks (s s' : OS) : Prop where
  del : ∀ t, (s'.tcb t).taskState = .del ↔ (s.tcb t).taskState = .del
  cur : s'.tcbCurPtr = s.tcbCurPtr
  running : s'.running = s.running
  intNesting : s'.intNestingCtr = s.intNestingCtr
  lockNesting : s'.schedLockNestingCtr = s.schedLockNestingCtr

theorem SameTasks.of_acts {E : Env} {S : Act → Prop} (h : Rep cfg s a) (h' : Rep cfg s' a') (hacts : a.Acts E S a') :
    SameTasks s s' where
  del t := by rw [h.state, h'.state, Abs.Acts.del_iff hacts]
  cur := by rw [← h.cur, ← h'.cur, hacts.cur]
  running := by rw [← h.running, ← h'.running, hacts.running]
  intNesting := by rw [← h.intNesting, ← h'.intNesting, hacts.intNesting]
  lockNesting := by rw [← h.lockNesting, ← h'.lockNesting, hacts.lockNesting]

def OS.heldHigh (s : OS) : ℕ × Option TcbId := (s.intNestingCtr, if 0 < s.intNestingCtr then s.tcbHighRdyPtr else none)

theorem keeps_held_osSched : Keeps OS.heldHigh osSched := by
  intro n cfg s
  rw [osSched, wp_bind, wp_get, wp_ite]
  refine ⟨fun _ => wp_pure.mpr rfl, fun hint => wp_ite.mpr ⟨fun _ => wp_pure.mpr rfl, fun _ => ?_⟩⟩
  have hz : s.intNestingCtr = 0 := by omega
  have hk := keeps_reschedule (v := fun x : OS => x.intNestingCtr) (fun _ _ _ => rfl) (fun _ _ _ => rfl) n cfg s
  refine hk.mono fun _ s' h' => ?_
  have h'' : s'.intNestingCtr = s.intNestingCtr := h'
  simp [OS.heldHigh, h'', hz]

theorem keeps_held_modTcb (t : TcbId) (f : TCB → TCB) : Keeps OS.heldHigh (modTcb t f) := keeps_modify fun _ => rfl

theorem keeps_held_taskRdy (t : TcbId) : Keeps OS.heldHigh (taskRdy t) := by
  rw [taskRdy]
  refine keeps_bind ((keeps_tickListRemove t).comp OS.heldHigh) fun _ => keeps_bind (keeps_getTcb t) fun _ => ?_
  exact keeps_ite ((keeps_rdyListInsert t).comp OS.heldHigh) (keeps_pure _)

theorem keeps_held_markEntry (o : Option ObjId) (f : PendData → PendData) (j : ℕ) (d : PdId) :
    Keeps OS.heldHigh (markEntry o f j d) := by
  induction j generalizing d with
  | zero => exact keeps_pure ()
  | succ j ih =>
    exact keeps_bind (keeps_getPendData d) fun _ => keeps_ite (keeps_modify fun _ => rfl) (ih _)

theorem keeps_held_post (t : TcbId) (ts : ℕ) : Keeps OS.heldHigh (UcosIII.post none t none 0 ts) := by
  have hmark : Keeps OS.heldHigh (post1 none t none 0 ts) := by
    refine keeps_bind (keeps_getTcb t) fun _ => keeps_ite (keeps_pure ()) ?_
    exact keeps_bind (keeps_deref _) fun d => keeps_held_markEntry none _ _ d
  have hend (m : K Unit) (hm : Keeps OS.heldHigh m) (m' : K Unit) :
      Keeps OS.heldHigh (if (none : Option ObjId) ≠ none then m' else m) := by
    rw [if_neg (by simp)]
    exact hm
  refine keeps_bind (keeps_getTcb t) fun c => ?_
  cases c.taskState with
  | rdy | dly | suspended | dlySuspended | del => exact keeps_pure ()
  | pend | pendTimeout =>
    have hrdy := hend _ (keeps_bind (keeps_held_taskRdy t) fun _ => keeps_held_modTcb t fun c =>
      { c with taskState := .rdy, pendStatus := .ok, pendOn := .nothing })
    exact keeps_ite (keeps_bind hmark fun _ => hrdy _) (keeps_bind (keeps_held_modTcb t _) fun _ => hrdy _)
  | pendSuspended | pendTimeoutSuspended =>
    have hset := keeps_held_modTcb t fun c => { c with taskState := .suspended, pendStatus := .ok, pendOn := .nothing }
    have hrdy (m' : K Unit) := keeps_bind ((keeps_tickListRemove t).comp OS.heldHigh) fun _ => hend _ hset m'
    exact keeps_ite (keeps_bind hmark fun _ => hrdy _) (keeps_bind (keeps_held_modTcb t _) fun _ => hrdy _)

theorem keeps_held_osTaskSemPost (p : Option TcbId) (opt : Opt) : Keeps OS.heldHigh (osTaskSemPost p opt) := by
  have hinc (t : TcbId) : Keeps OS.heldHigh (taskSemInc t) := by
    refine keeps_bind (keeps_getTcb t) fun _ => keeps_ite (keeps_pure _) ?_
    exact keeps_bind (keeps_held_modTcb t _) fun _ => keeps_pure _
  refine keeps_ite (keeps_pure _) (keeps_bind keeps_tsGet fun ts => ?_)
  have hcur : Keeps OS.heldHigh (orCur p) := by
    cases p <;> simp only [orCur]
    · exact keeps_getCur
    · exact keeps_pure _
  refine keeps_bind hcur fun t => keeps_bind (keeps_held_modTcb t _) fun _ => ?_
  refine keeps_bind (keeps_getTcb t) fun c => ?_
  cases c.taskState with
  | rdy | dly | suspended | dlySuspended => exact hinc t
  | pend | pendTimeout | pendSuspended | pendTimeoutSuspended =>
    refine keeps_ite (keeps_bind (keeps_held_post t ts) fun _ => ?_) (hinc t)
    refine keeps_bind (keeps_getTcb t) fun _ => keeps_bind ?_ fun _ => keeps_pure _
    exact keeps_ite keeps_held_osSched (keeps_pure _)
  | del => exact keeps_pure _

theorem keeps_held_schedRoundRobin (p : ℕ) : Keeps OS.heldHigh (schedRoundRobin p) := by
  have hrot : Keeps OS.heldHigh (rdyListMoveHeadToTail p >>= fun _ => loadTimeQuanta p) := by
    refine keeps_bind ((keeps_rdyListMoveHeadToTail p).comp OS.heldHigh) fun _ => ?_
    refine keeps_bind (keeps_getRdyList p) fun _ => keeps_bind (keeps_deref _) fun t => keeps_bind keeps_get fun _ => ?_
    exact keeps_held_modTcb t _
  refine keeps_bind keeps_get fun _ => keeps_ite (keeps_pure _) (keeps_bind (keeps_getRdyList p) fun l => ?_)
  cases l.headPtr with
  | none => exact keeps_pure _
  | some t =>
    refine keeps_ite (keeps_pure _) (keeps_bind (keeps_getTcb t) fun _ => ?_)
    have hlast (b : OS) : Keeps OS.heldHigh (do
        if (← getTcb t).timeQuantaCtr > 0 then return ()
        if l.nbrEntries < 2 then return ()
        if b.schedLockNestingCtr > 0 then return ()
        rdyListMoveHeadToTail p
        loadTimeQuanta p) := by
      refine keeps_bind (keeps_getTcb t) fun _ => keeps_ite (keeps_pure _) (keeps_ite (keeps_pure _) ?_)
      exact keeps_ite (keeps_pure _) hrot
    exact keeps_ite (keeps_bind (keeps_held_modTcb t _) fun _ => hlast _) (hlast _)

theorem keeps_held_osTimeTick : Keeps OS.heldHigh osTimeTick := by
  refine keeps_bind (keeps_held_osTaskSemPost _ _) fun _ => keeps_bind keeps_get fun _ => ?_
  refine keeps_bind (keeps_held_schedRoundRobin _) fun _ => keeps_bind (keeps_modify fun _ => rfl) fun _ => ?_
  refine keeps_bind keeps_get fun _ => keeps_ite (keeps_bind (keeps_modify fun _ => rfl) fun _ => ?_) (keeps_pure _)
  exact keeps_bind (keeps_held_osTaskSemPost _ _) fun _ => keeps_pure _

def OS.who (s : OS) : Option TcbId × Option TcbId × Bool × ℕ × ℕ :=
  (s.tcbHighRdyPtr, s.tcbCurPtr, s.running, s.intNestingCtr, s.schedLockNestingCtr)

theorem keeps_who_modTcb (t : TcbId) (f : TCB → TCB) : Keeps OS.who (modTcb t f) := keeps_modify fun _ => rfl

theorem keeps_who_taskStart (t : TcbId) (x : TaskArgs) : Keeps OS.who (taskStart t x) := by
  refine keeps_bind (keeps_bind keeps_ask fun _ => keeps_who_modTcb t _) fun _ => ?_
  refine keeps_bind keeps_get fun _ => keeps_bind (keeps_who_modTcb t _) fun _ => ?_
  refine keeps_bind ((keeps_prioInsert _).comp OS.who) fun _ => ?_
  exact (keeps_rdyListInsertTail t).comp OS.who

theorem keeps_who_taskErase (t : TcbId) : Keeps OS.who (taskErase t) := by
  have hpend : Keeps OS.who (pendListRemove t) := by
    intro n cfg s
    exact pendListRemove_frame.mono fun _ s' hs => (congrArg OS.who hs :)
  have hrdy : Keeps OS.who (rdyListRemove t) := (keeps_rdyListRemove t).comp OS.who
  have htick : Keeps OS.who (tickListRemove t) := (keeps_tickListRemove t).comp OS.who
  have hunlink : Keeps OS.who (taskUnlink t) := by
    refine keeps_bind (keeps_getTcb t) fun c => ?_
    cases c.taskState with
    | rdy => exact hrdy
    | suspended | del => exact keeps_pure _
    | dly | dlySuspended => exact htick
    | pend | pendSuspended | pendTimeout | pendTimeoutSuspended =>
      refine keeps_bind htick fun _ => ?_
      cases c.pendOn with
      | nothing | taskQ | taskSem => exact keeps_pure _
      | flag | multi | mutex | q | sem => exact hpend
  rw [taskErase]
  refine keeps_bind hunlink fun _ => keeps_bind (keeps_getTcb t) fun _ => ?_
  refine keeps_bind ((keeps_noMsgs_msgQFreeAll _).comp OS.who) fun _ => ?_
  refine keeps_bind (keeps_bind keeps_ask fun _ => keeps_who_modTcb t _) fun _ => ?_
  exact keeps_bind (keeps_who_modTcb t _) fun _ => keeps_modify fun _ => rfl

theorem reschedule_best (h : Rep cfg s a) : wp n cfg reschedule (fun _ s' => ∃ q t, a.Best q t ∧
    s'.tcbCurPtr = some t ∧ s'.tcbHighRdyPtr = some t ∧ Rep cfg s' (a.switch q t)) s := by
  rw [reschedule, wp_bind]
  refine (prioGetHighest_spec h.rdy).mono ?_
  rintro q s₁ ⟨rfl, hbest⟩
  rw [wp_bind, wp_getRdyList]
  intro hq
  obtain ⟨t, ht⟩ : ∃ t, (a.ready q).head? = some t := ⟨_, List.head?_eq_some_head hbest.1⟩
  rw [h.head hq]
  simp only [ht, wp_bind, wp_modify, wp_get, wp_ite, wp_pure, wp_deref, ctxSw, Option.some_inj]
  constructor
  · intro hcur
    refine ⟨q, t, ⟨ht, hbest.2⟩, hcur.symm, rfl, h.of_globals rfl rfl ?_⟩
    rw [Abs.switch, if_pos (h.cur.trans hcur.symm), hcur]
    exact (congrArg (fun x : Abs => { x with cur := s₁.tcbCurPtr }) h.globals_eq :)
  · rintro hcur _ rfl
    refine ⟨q, t, ⟨ht, hbest.2⟩, rfl, rfl, h.of_globals rfl rfl ?_⟩
    rw [Abs.switch, if_neg fun e => hcur (e.symm.trans h.cur)]
    exact (congrArg (fun x : Abs => { x with cur := some t, prioCur := q }) h.globals_eq :)

end kernel

end UcosIII
