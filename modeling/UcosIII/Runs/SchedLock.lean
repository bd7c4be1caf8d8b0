import UcosIII.Lists.Timer
import UcosIII.Runs.MutexOwner
import UcosIII.Runs.Preemption

namespace UcosIII

open Prog

variable {cfg : Cfg} {s s' : OS} {a a' b : Abs} {t c : TcbId} {e : Event} {r : Option Ret} {E : Env}

section steps

def Event.locks (r : Option Ret) : Event → Bool
  | .call .schedLock => r.any fun x => x.err = .none
  | _ => false

def Event.unlocks (r : Option Ret) : Event → Bool
  | .call .schedUnlock => r.any fun x => x.err = .none ∨ x.err = .schedLocked
  | _ => false

theorem counts_of_locks (h : e.locks r = true ∨ e.unlocks r = true) : Counts e r := by
  cases e with
  | call c =>
    cases c with
    | schedLock | schedUnlock =>
      cases r with
      | none => simp [Event.locks, Event.unlocks] at h
      | some x => simpa [Event.locks, Event.unlocks, Counts] using h
    | _ => simp [Event.locks, Event.unlocks] at h
  | _ => simp [Event.locks, Event.unlocks] at h

namespace Abs

def Locked (a b : Abs) : Prop := b.cur = a.cur ∧ b.lockNesting = a.lockNesting

theorem Locked.of_who (h : b.who = a.who) : a.Locked b := by
  obtain ⟨hcur, -, hlock, -⟩ : b.cur = a.cur ∧ b.intNesting = a.intNesting ∧ b.lockNesting = a.lockNesting ∧
    b.running = a.running := by simpa [who] using h
  exact ⟨hcur, hlock⟩

theorem Locked.acts {S : Act → Prop} (h : a.Acts E S b) : a.Locked b := .of_who (who_of_frame h.frame)

end Abs

theorem AStep.locked (hstep : AStep cfg s a e r a') :
    ∃ b : Abs, b.cur = a.cur ∧
      b.lockNesting + (if e.unlocks r then 1 else 0) = a.lockNesting + (if e.locks r then 1 else 0) ∧
      (a' = b ∨ b.Sched a' ∨ b = a ∧ a.running = false ∧ a'.lockNesting = a.lockNesting) := by
  have hidle (hc : ¬ Counts e r) : e.locks r = false ∧ e.unlocks r = false := by
    constructor
    · exact Bool.eq_false_iff.mpr fun h => hc (counts_of_locks (.inl h))
    · exact Bool.eq_false_iff.mpr fun h => hc (counts_of_locks (.inr h))
  have hsame {b : Abs} (ha : a' = b ∨ b.Sched a' ∨ b = a ∧ a.running = false ∧ a'.lockNesting = a.lockNesting)
      (h : e.locks r = false ∧ e.unlocks r = false) (hb : a.Locked b) :
      ∃ b : Abs, b.cur = a.cur ∧
        b.lockNesting + (if e.unlocks r then 1 else 0) = a.lockNesting + (if e.locks r then 1 else 0) ∧
        (a' = b ∨ b.Sched a' ∨ b = a ∧ a.running = false ∧ a'.lockNesting = a.lockNesting) := by
    refine ⟨b, hb.1, ?_, ha⟩
    rw [h.1, h.2, hb.2]
  cases hstep with
  | still hc h => exact hsame (.inl rfl) (hidle hc) (.acts h)
  | acts hc h => exact hsame (.inl rfl) (hidle hc) (.acts h)
  | sched hc _ h hs => exact hsame (.inr (.inl hs)) (hidle hc) (.acts h)
  | leave hc _ _ _ h hs => exact hsame (.inr (.inl hs)) (hidle hc) (Abs.Locked.acts h :)
  | finish _ _ h => exact hsame (.inl rfl) ⟨rfl, rfl⟩ (Abs.Locked.acts h :)
  | mutexReturn | take | nest | unnest | release | intEnter => exact hsame (.inl rfl) ⟨rfl, rfl⟩ ⟨rfl, rfl⟩
  | start hr => exact hsame (.inr (.inr ⟨rfl, hr, rfl⟩)) ⟨rfl, rfl⟩ ⟨rfl, rfl⟩
  | @create args t _ _ _ _ _ hs =>
    refine hsame (b := a.start t args.prio) ?_ ⟨rfl, rfl⟩ ⟨rfl, rfl⟩
    split at hs
    · exact .inr (.inl hs)
    · exact .inl hs
  | delete _ _ _ _ _ hs => exact hsame (.inr (.inl hs)) ⟨rfl, rfl⟩ (.of_who (Abs.who_erase _ _ _))
  | changePrio _ _ _ _ _ hs => exact hsame (.inr (.inl hs)) ⟨rfl, rfl⟩ (.of_who (Abs.who_reprio _ _ _ _))
  | refuse hc => exact hsame (.inl rfl) (hidle hc) ⟨rfl, rfl⟩
  | @object c _ _ _ ho =>
    refine hsame (.inl rfl) ?_ ⟨rfl, rfl⟩
    cases c <;> first | exact ⟨rfl, rfl⟩ | cases ho
  | wait _ _ _ _ _ hb _ hs =>
    refine hsame (.inr (.inl hs)) ⟨rfl, rfl⟩ (.of_who ?_)
    refine (Abs.who_of_frame (Abs.frame_pendOn _ _ _ _)).trans ?_
    split at hb
    · rw [hb.2, Abs.who_boost]
    · rw [hb]
  | @handOff o t d opt _ _ _ _ _ _ _ _ hs =>
    refine hsame (b := (a.restore t (a.obj o).ownerPrio).handOff o d.1) ?_ ⟨rfl, rfl⟩ (.of_who ?_)
    · split at hs
      · exact .inr (.inl hs)
      · exact .inl hs
    · exact (Abs.who_handOff _ _ _).trans (Abs.who_restore _ _ _)
  | lock => exact ⟨{ a with lockNesting := a.lockNesting + 1 }, rfl, by simp [Event.locks, Event.unlocks], .inl rfl⟩
  | unlock _ hlock hx hs =>
    refine ⟨{ a with lockNesting := a.lockNesting - 1 }, rfl, ?_, .inr (.inl hs)⟩
    change a.lockNesting - 1 + _ = _
    rw [hx]
    split <;> simp [Event.locks, Event.unlocks] <;> omega
  | intExit _ hs => exact hsame (.inr (.inl hs)) ⟨rfl, rfl⟩ ⟨rfl, rfl⟩

theorem AStep.lockNesting (hstep : AStep cfg s a e r a') :
    a'.lockNesting + (if e.unlocks r then 1 else 0) = a.lockNesting + (if e.locks r then 1 else 0) := by
  obtain ⟨b, -, hb, rfl | hs | ⟨rfl, -, hl⟩⟩ := hstep.locked
  · exact hb
  · rwa [hs.lockNesting]
  · rwa [hl]

theorem AStep.cur_of_locked (hstep : AStep cfg s a e r a') (hC : a.CurOk) (hl : 0 < a'.lockNesting) : a'.cur = a.cur := by
  obtain ⟨b, hcur, hb, rfl | hs | ⟨rfl, hr, h0⟩⟩ := hstep.locked
  · exact hcur
  · rw [hs.lockNesting] at hl
    obtain ⟨-, rfl⟩ | ⟨-, rfl⟩ | ⟨-, h0, -⟩ := hs
    · exact hcur
    · exact hcur
    · omega
  · rw [h0, (hC.stopped hr).2.1] at hl
    omega

theorem Act.state_ne_del {x : Act} (h : (a.task t).state ≠ .del) : ((x.apply a).task t).state ≠ .del := by
  have hwoken (st : PendStatus) : ((a.task t).woken st).state ≠ .del := by grind
  cases x with
  | wake w st =>
    rw [Act.apply, Abs.task_wake]
    grind
  | flagWake w =>
    rw [Act.apply, Abs.task_flagWake]
    grind
  | expire w =>
    rw [Act.apply, Abs.task_expire]
    grind
  | suspend w =>
    rw [Act.apply, Abs.task_suspend]
    grind [TaskState.suspend_ne_del]
  | resume w =>
    rw [Act.apply, Abs.task_resume]
    grind [TaskState.resume_ne_del]
  | pendOn w o kind timed =>
    rw [Act.apply, Abs.task_pendOn]
    grind
  | pendMulti w timed ds =>
    rw [Act.apply, Abs.foldl_attach_task, Abs.task_block]
    grind
  | delay w =>
    rw [Act.apply, Abs.task_delay]
    grind
  | flagsOpt w opt => grind [Act.apply]
  | pendStatus w st => grind [Act.apply]
  | rotate | store => exact h

theorem Abs.Acts.state_ne_del {S : Act → Prop} (hacts : a.Acts E S b) (h : (a.task t).state ≠ .del) :
    (b.task t).state ≠ .del := by
  induction hacts with
  | refl => exact h
  | snoc _ _ _ _ ih => exact Act.state_ne_del ih

theorem AStep.deleted (hstep : AStep cfg s a e r a') (hw : a.WaitOk) (hs : (a.task t).state ≠ .del)
    (hd : (a'.task t).state = .del) : ∃ p, e = .call (.taskDel p) ∧ a.Target p t ∧ a.intNesting = 0 := by
  cases hstep with
  | still _ h => exact absurd hd (h.state_ne_del hs)
  | acts _ h => exact absurd hd (h.state_ne_del hs)
  | sched _ _ h hsch =>
    rw [hsch.task] at hd
    exact absurd hd (h.state_ne_del hs)
  | leave _ _ _ _ h hsch =>
    rw [hsch.task] at hd
    exact absurd hd (h.state_ne_del hs)
  | @finish w _ _ _ _ h => exact absurd hd (h.state_ne_del (a := a.setCont w .none) hs)
  | mutexReturn | object | take | nest | unnest | release | lock | intEnter | start => exact absurd hd hs
  | @create args w _ _ _ _ _ hsch =>
    have htask := Abs.task_start a w t args.prio
    split at hsch
    · rw [hsch.task] at hd
      grind
    · rw [hsch] at hd
      grind
  | @delete p w _ _ ht _ hint _ hsch =>
    rw [hsch.task, Abs.task_erase] at hd
    split at hd
    · rename_i hx
      exact ⟨p, rfl, hx ▸ ht, hint⟩
    · exact absurd hd hs
  | @changePrio p q w _ _ _ _ _ _ hsch =>
    rw [hsch.task, Abs.task_reprio hw] at hd
    grind
  | @refuse _ _ w =>
    change ((a.modTask w fun c => { c with state := .dly }).task t).state = .del at hd
    grind
  | @wait o w u timed _ _ b _ _ _ _ _ _ hb _ hsch =>
    rw [hsch.task] at hd
    change ((b.pendOn w (some o) .mutex timed).task t).state = .del at hd
    rw [Abs.task_pendOn] at hd
    split at hb
    · rw [hb.2, Abs.task_boost, Abs.task_boost] at hd
      grind
    · rw [hb] at hd
      grind
  | @handOff o w d opt _ _ _ _ _ _ _ _ hsch =>
    have htask : ((a.restore w (a.obj o).ownerPrio).handOff o d.1).task t = a'.task t := by
      split at hsch
      · rw [hsch.task]
      · rw [hsch]
    rw [← htask, Abs.task_handOff, Abs.task_restore, Abs.task_restore] at hd
    grind
  | unlock _ _ _ hsch =>
    rw [hsch.task] at hd
    exact absurd hd hs
  | intExit _ hsch =>
    rw [hsch.task] at hd
    exact absurd hd hs

def Abs.Alive (a : Abs) : Prop := a.running = true → ∃ c, a.cur = some c ∧ (a.task c).state = .rdy

theorem AStep.alive (hstep : AStep cfg s a e r a') (H : Ready cfg s a) (H' : Ready cfg s' a')
    (hdel : ¬ DeletesSelfLocked s e) (hA : a.Alive) : a'.Alive := by
  intro hrun'
  obtain ⟨c, hc, hs | ⟨hd, hl⟩⟩ := H'.cur.runs hrun'
  · exact ⟨c, hc, hs⟩
  · -- a dormant task that runs has deleted itself in this very step
    have hcur := (hstep.cur_of_locked H.cur hl).symm.trans hc
    obtain ⟨c', hc', hs⟩ := hA (AStep.running_of_cur H.cur hcur)
    have hcc : c' = c := Option.some_inj.mp (hc'.symm.trans hcur)
    subst hcc
    obtain ⟨p, rfl, ht, hint⟩ := hstep.deleted H.sound.wait (by simp [hs]) hd
    refine absurd ?_ hdel
    refine ⟨H.rep.intNesting.symm.trans hint, ?_, ?_⟩
    · have hlock : a'.lockNesting = a.lockNesting := hstep.lockNesting
      rwa [← H.rep.lockNesting, ← hlock]
    · rw [← H.rep.cur, hcur]
      exact ht.symm.imp And.left id

end steps

section services

/-- A step, and whether a timer service takes it rather than the application. -/
structure Deed where
  step : Step
  byTmr : Bool

namespace Deed

/-- A call of the application that has locked the scheduler. -/
def takes (x : Deed) : Bool := !x.byTmr && x.step.event.locks x.step.ret

def gives (x : Deed) : Bool := !x.byTmr && x.step.event.unlocks x.step.ret

def enters (x : Deed) : Bool := x.byTmr && x.step.event = .call .schedLock

def leaves (x : Deed) : Bool := x.byTmr && x.step.event = .call .schedUnlock

end Deed

def heldLocks (h : List Deed) : ℕ := h.countP Deed.takes - h.countP Deed.gives

/-- How many timer services have begun and not ended. -/
def openServices (h : List Deed) : ℕ := h.countP Deed.enters - h.countP Deed.leaves

/-- The steps that are taken by timer services, which task code calls. -/
def Serves : List Deed → Prop
  | [] => True
  | x :: h => Serves h ∧ (x.byTmr = true → x.step.pre.intNestingCtr = 0 ∧
      (x.step.event = .call .schedLock ∨ x.step.event = .call .schedUnlock ∧ 0 < openServices h))

/-- No timer service begins when the scheduler is locked as often as it can be, and in the callback of a timer
the application unlocks only what it has locked. -/
def LocksPair : List Deed → Prop
  | [] => True
  | x :: h => LocksPair h ∧ (x.enters = true → x.step.pre.schedLockNestingCtr < 250) ∧
      (x.gives = true → 0 < openServices h → 0 < heldLocks h)

instance decidableServes : (h : List Deed) → Decidable (Serves h)
  | [] => inferInstanceAs (Decidable True)
  | x :: h =>
    have := decidableServes h
    inferInstanceAs (Decidable (Serves h ∧ (x.byTmr = true → x.step.pre.intNestingCtr = 0 ∧
      (x.step.event = .call .schedLock ∨ x.step.event = .call .schedUnlock ∧ 0 < openServices h))))

instance decidableLocksPair : (h : List Deed) → Decidable (LocksPair h)
  | [] => inferInstanceAs (Decidable True)
  | x :: h =>
    have := decidableLocksPair h
    inferInstanceAs (Decidable (LocksPair h ∧ (x.enters = true → x.step.pre.schedLockNestingCtr < 250) ∧
      (x.gives = true → 0 < openServices h → 0 < heldLocks h)))

structure Tallies (h : List Deed) (n : ℕ) : Prop where
  total : n + h.countP Deed.gives + h.countP Deed.leaves = h.countP Deed.takes + h.countP Deed.enters
  gives_le : h.countP Deed.gives ≤ h.countP Deed.takes
  leaves_le : h.countP Deed.leaves ≤ h.countP Deed.enters

theorem Tallies.eq {h : List Deed} {n : ℕ} (ht : Tallies h n) : n = heldLocks h + openServices h := by
  have := ht.total
  have := ht.gives_le
  have := ht.leaves_le
  unfold heldLocks openServices
  omega

theorem schedLock_answer (hx : Prog.Runs cfg (Event.exec (.call .schedLock)) s r s') (hint : s.intNestingCtr = 0)
    (hrun : s.running = true) (hlt : s.schedLockNestingCtr < 250) : (Event.call .schedLock).locks r = true := by
  refine hx.wp (Q := fun r _ => (Event.call .schedLock).locks r = true) fun n => ?_
  simp [Event.exec, Call.exec, errOnly, osSchedLock, hint, hrun, not_le.mpr hlt, Event.locks]

theorem schedUnlock_answer (hx : Prog.Runs cfg (Event.exec (.call .schedUnlock)) s r s') (hint : s.intNestingCtr = 0)
    (hrun : s.running = true) (hlt : 0 < s.schedLockNestingCtr) : (Event.call .schedUnlock).unlocks r = true := by
  refine hx.wp (Q := fun r _ => (Event.call .schedUnlock).unlocks r = true) fun n => ?_
  simp [Event.exec, Call.exec, errOnly, osSchedUnlock, hint, hrun, hlt.ne', Event.unlocks]
  intro _ _ _ _
  simp

theorem Tallies.step {h : List Deed} {x : Deed} (ht : Tallies h s.schedLockNestingCtr) (H : Ready cfg s a)
    (he : Enabled s x.step.event) (hx : Prog.Runs cfg x.step.event.exec s x.step.ret s')
    (hstep : AStep cfg s a x.step.event x.step.ret a') (H' : Ready cfg s' a') (hpre : x.step.pre = s)
    (hserves : Serves (x :: h)) (hpair : LocksPair (x :: h)) : Tallies (x :: h) s'.schedLockNestingCtr := by
  obtain ⟨⟨pre, e, r⟩, byTmr⟩ := x
  obtain rfl : pre = s := hpre
  have hcount := hstep.lockNesting
  rw [H.rep.lockNesting, H'.rep.lockNesting] at hcount
  obtain ⟨htotal, hgives, hleaves⟩ := ht
  cases byTmr with
  | false =>
    have hg := hpair.2.2
    have hboth : ¬ (e.locks r = true ∧ e.unlocks r = true) := by
      rintro ⟨h1, h2⟩
      unfold Event.locks at h1
      split at h1
      · cases h2
      · cases h1
    dsimp only [Deed.gives] at hg hcount
    unfold heldLocks openServices at hg
    rcases Bool.eq_false_or_eq_true (e.locks r) with hl | hl <;>
      rcases Bool.eq_false_or_eq_true (e.unlocks r) with hu | hu
    · exact absurd ⟨hl, hu⟩ hboth
    all_goals
      rw [hl, hu] at hcount
      simp only [hu, Bool.not_false, Bool.true_and, true_implies, Bool.false_eq_true, false_implies] at hg
      constructor <;> simp [Deed.takes, Deed.gives, Deed.enters, Deed.leaves, hl, hu] at hcount ⊢ <;> omega
  | true =>
    obtain ⟨hint, hcall⟩ := hserves.2 rfl
    have hrun : pre.running = true := by
      have hset (c : Call) (hc : c.setsUp = false) (hev : e = .call c) : pre.running = true := by
        have he' : Enabled pre (.call c) := hev ▸ he
        rcases he'.2 with h | h | h
        · exact h.1
        · exact h.1
        · rw [hc] at h
          cases h.2
      rcases hcall with hev | ⟨hev, -⟩
      · exact hset .schedLock rfl hev
      · exact hset .schedUnlock rfl hev
    rcases hcall with rfl | ⟨rfl, hopen⟩
    · have hl := schedLock_answer hx hint hrun (hpair.2.1 rfl)
      have hu : (Event.call .schedLock).unlocks r = false := rfl
      dsimp only at hcount
      rw [hl, hu] at hcount
      constructor <;> simp [Deed.takes, Deed.gives, Deed.enters, Deed.leaves] at hcount ⊢ <;> omega
    · have hpos : 0 < pre.schedLockNestingCtr := by
        unfold openServices at hopen
        omega
      have hu := schedUnlock_answer hx hint hrun hpos
      have hl : (Event.call .schedUnlock).locks r = false := rfl
      dsimp only at hcount
      rw [hl, hu] at hcount
      unfold openServices at hopen
      constructor <;> simp [Deed.takes, Deed.gives, Deed.enters, Deed.leaves] at hcount ⊢ <;> omega

/-- The steps of the history, without who takes them. -/
abbrev steps (h : List Deed) : List Step := h.map Deed.step

/-- What holds of a run without delays to the past in which no task deletes itself with the scheduler locked. -/
abbrev LockRun (c : Reading) (cfg : Cfg) (h : List Deed) (s : OS) : Prop :=
  RunIn c cfg (fun _ x => ¬ PassedMatch cfg x.pre x.event ∧ ¬ DeletesSelfLocked x.pre x.event) (steps h) s

theorem LockRun.tallies {h : List Deed} (run : LockRun .nat cfg h s) (hserves : Serves h) (hpair : LocksPair h) :
    ∃ a, Ready cfg s a ∧ a.Alive ∧ Tallies h s.schedLockNestingCtr := by
  induction h generalizing s with
  | nil =>
    cases run with
    | init hx =>
      have H : Ready cfg s (Abs.init cfg) := hx.wp fun n => osInit_spec
      refine ⟨_, H, fun hr => absurd hr Bool.false_ne_true, ?_⟩
      rw [← H.rep.lockNesting]
      exact ⟨rfl, le_refl _, le_refl _⟩
  | cons x h ih =>
    obtain ⟨⟨pre, e, r⟩, byTmr⟩ := x
    cases run with
    | step run he hx hk =>
      obtain ⟨a, H, hA, ht⟩ := ih run hserves.1 hpair.1
      obtain ⟨a', H', hstep⟩ := Event.exec_ready H he hx hk.1
      exact ⟨a', H', hstep.alive H H' hk.2 hA, ht.step H he hx hstep H' rfl hserves hpair⟩

theorem LockRun.cur_eq {seg h : List Deed} {x : Deed} (run : LockRun .nat cfg (seg ++ x :: h) s)
    (hserves : Serves (seg ++ x :: h)) (hpair : LocksPair (seg ++ x :: h))
    (hheld : ∀ l, l <:+ seg → heldLocks h < heldLocks (l ++ x :: h)) : s.tcbCurPtr = x.step.pre.tcbCurPtr := by
  have hstays {pre s : OS} {e : Event} {r : Option Ret} {byTmr : Bool} {h' : List Deed}
      (run : LockRun .nat cfg (⟨⟨pre, e, r⟩, byTmr⟩ :: h') s) (hs : Serves (⟨⟨pre, e, r⟩, byTmr⟩ :: h'))
      (hp : LocksPair (⟨⟨pre, e, r⟩, byTmr⟩ :: h')) (hpos : 0 < heldLocks (⟨⟨pre, e, r⟩, byTmr⟩ :: h')) :
      s.tcbCurPtr = pre.tcbCurPtr := by
    have hn := (run.tallies hs hp).choose_spec.2.2.eq
    cases run with
    | step run he hx hk =>
      obtain ⟨a, H, -⟩ := LockRun.tallies run hs.1 hp.1
      obtain ⟨a', H', hstep⟩ := Event.exec_ready H he hx hk.1
      rw [← H.rep.cur, ← H'.rep.cur]
      apply hstep.cur_of_locked H.cur
      rw [H'.rep.lockNesting, hn]
      omega
  induction seg generalizing s with
  | nil =>
    have h0 := hheld [] List.suffix_rfl
    exact hstays run hserves hpair (Nat.zero_lt_of_lt h0)
  | cons y seg ih =>
    obtain ⟨⟨pre, e, r⟩, byTmr⟩ := y
    have h0 := hheld _ List.suffix_rfl
    have hcur := hstays run hserves hpair (Nat.zero_lt_of_lt h0)
    cases run with
    | step run _ _ _ =>
      exact hcur.trans (ih run hserves.1 hpair.1 fun l hl => hheld l (hl.trans (List.suffix_cons _ seg)))

/-- In a run in which no timer service begins with the scheduler locked as often as it can be and no task deletes
itself with the scheduler locked, the counter is the number of locks that the application holds, and of timer
services in progress; from a lock until it is taken back the same task runs, and it is in its ready list. -/
theorem run_schedLock {h : List Deed} (run : LockRun .word cfg h s) (hfit : NoWrap cfg (steps h)) (hserves : Serves h)
    (hpair : LocksPair h) :
    s.schedLockNestingCtr = heldLocks h + openServices h ∧
    ∀ seg x h₀, h = seg ++ x :: h₀ → x.takes = true →
      (∀ l, l <:+ seg → heldLocks h₀ < heldLocks (l ++ x :: h₀)) →
      s.tcbCurPtr = x.step.pre.tcbCurPtr ∧
      ∃ c, s.tcbCurPtr = some c ∧ (s.tcb c).taskState = .rdy ∧ ∃! k, s.rdyAt (s.tcb c).prio k = some c := by
  replace run : LockRun .nat cfg h s := run.fits hfit .nat
  obtain ⟨a, H, hA, ht⟩ := run.tallies hserves hpair
  refine ⟨ht.eq, ?_⟩
  rintro seg x h₀ rfl hx hheld
  refine ⟨run.cur_eq hserves hpair hheld, ?_⟩
  have hpos : 0 < s.schedLockNestingCtr := by
    have h0 := hheld seg List.suffix_rfl
    have hn := ht.eq
    omega
  have hrun : a.running = true := by
    by_contra hr
    have h0 := (H.cur.stopped (by simpa using hr)).2.1
    rw [H.rep.lockNesting] at h0
    omega
  obtain ⟨c, hc, hs⟩ := hA hrun
  have hmem : c ∈ a.ready (a.task c).prio := (H.sound.ready c _).mpr ⟨hs, rfl⟩
  refine ⟨c, H.rep.cur.symm.trans hc, (H.rep.state c).trans hs, ?_⟩
  rw [H.rep.prio]
  exact (H.rep.rdyAt_unique (H.rep.lt_prioMax hmem)).mpr hmem

end services

section served

variable {α β : Type} {n : ℕ} {σ : Sys}

inductive Called (c : TmrCfg) (o : OS) : OS → Prop
  | refl : Called c o o
  | snoc {o₁ o₂ : OS} {f : Callback} {t : TmrId} {arg : Option ℕ} (h : Called c o o₁)
      (hx : Prog.Runs c.cfg (c.callback f t arg) o₁ () o₂) : Called c o o₂

theorem Called.trans {c : TmrCfg} {o o₁ o₂ : OS} (h : Called c o o₁) (h' : Called c o₁ o₂) : Called c o o₂ := by
  induction h' with
  | refl => exact h
  | snoc _ hx ih => exact ih.snoc hx

/-- What a timer service does to the kernel: it refuses at once, or it calls `OSSchedLock`, runs callbacks, and calls
`OSSchedUnlock`, whatever the first has answered. -/
def TmrServed (c : TmrCfg) (o o' : OS) : Prop :=
  o' = o ∨ ∃ r r' o₁ o₂, Prog.Runs c.cfg (Event.exec (.call .schedLock)) o r o₁ ∧ Called c o₁ o₂ ∧
    Prog.Runs c.cfg (Event.exec (.call .schedUnlock)) o₂ r' o'

def Works (m : T α) : Prop := ∀ (n : ℕ) c σ, wp n c m (fun _ σ' => Called c σ.os σ'.os) σ

/-- The program touches the kernel through callbacks, and ends with `OSSchedUnlock`. -/
def Ends (m : T α) : Prop :=
  ∀ (n : ℕ) c σ, wp n c m (fun _ σ' => ∃ r' o₂, Called c σ.os o₂ ∧
    Prog.Runs c.cfg (Event.exec (.call .schedUnlock)) o₂ r' σ'.os) σ

theorem Works.of_keeps {m : T α} (h : Keeps Sys.os m) : Works m := by
  intro n c σ
  refine (h n c σ).mono fun _ σ' hos => ?_
  rw [hos]
  exact .refl

theorem Works.bind {m : T α} {f : α → T β} (hm : Works m) (hf : ∀ a, Works (f a)) : Works (m >>= f) := by
  intro n c σ
  rw [wp_bind]
  refine (hm n c σ).mono fun a σ₁ h₁ => ?_
  exact (hf a n c σ₁).mono fun _ σ₂ h₂ => h₁.trans h₂

theorem Ends.bind {m : T α} {f : α → T β} (hm : Works m) (hf : ∀ a, Ends (f a)) : Ends (m >>= f) := by
  intro n c σ
  rw [wp_bind]
  refine (hm n c σ).mono fun a σ₁ h₁ => ?_
  refine (hf a n c σ₁).mono ?_
  rintro _ σ₂ ⟨r', o₂, h₂, hx⟩
  exact ⟨r', o₂, h₁.trans h₂, hx⟩

theorem ends_unlock (a : α) : Ends (do let _ ← onKernel osSchedUnlock; return a) := by
  intro n c σ
  rw [wp_bind, wp_onKernel]
  intro x o hx
  rw [wp_pure]
  refine ⟨some { err := x }, σ.os, .refl, n, ?_⟩
  simp [Event.exec, Call.exec, errOnly, hx]

theorem Ends.served {c : TmrCfg} {m : T α} (hm : Ends m) :
    wp n c (do let _ ← onKernel osSchedLock; m) (fun _ σ' => TmrServed c σ.os σ'.os) σ := by
  rw [wp_bind, wp_onKernel]
  intro x o hx
  refine (hm n c _).mono ?_
  rintro _ σ' ⟨r', o₂, hcalled, hunlock⟩
  refine .inr ⟨some { err := x }, r', o, o₂, ⟨n, ?_⟩, hcalled, hunlock⟩
  simp [Event.exec, Call.exec, errOnly, hx]

theorem served_checkTmr {c : TmrCfg} {m : TmrId → T Ret} (p : Option TmrId) (hm : ∀ t, Ends (m t)) :
    wp n c (checkTmr p fun t => do let _ ← onKernel osSchedLock; m t) (fun _ σ' => TmrServed c σ.os σ'.os) σ := by
  rw [checkTmr, wp_bind, wp_get, wp_ite]
  refine ⟨fun _ => wp_pure.mpr (.inl rfl), fun _ => ?_⟩
  cases p with
  | none => exact wp_pure.mpr (.inl rfl)
  | some t =>
    rw [wp_ite]
    exact ⟨fun _ => wp_pure.mpr (.inl rfl), fun _ => (hm t).served⟩

theorem Works.loop {body : β → T (β ⊕ α)} (h : ∀ b, Works (body b)) (b : β) : Works (loop body b) := by
  intro n c σ
  refine wp_loop (fun _ σ' => Called c σ.os σ'.os) ?_ .refl
  intro b' σ₁ h₁
  refine (h b' n c σ₁).mono fun x σ₂ h₂ => ?_
  cases x <;> exact h₁.trans h₂

theorem keeps_os {m : T α} (h : Keeps Sys.beside m) : Keeps Sys.os m := h.comp Prod.fst

theorem works_getTmr (t : TmrId) : Works (getTmr t) := .of_keeps (keeps_os (keeps_beside_getTmr t))

theorem works_runCallback (f : Callback) (t : TmrId) (arg : Option ℕ) : Works (runCallback f t arg) := by
  intro n c σ
  rw [runCallback, wp_bind, wp_modify, wp_bind, wp_ask, wp_onKernel]
  intro _ o hx
  exact Called.refl.snoc ⟨n, hx⟩

theorem works_stopCallback (t : TmrId) (arg : Option ℕ) : Works (stopCallback t arg) := by
  refine (works_getTmr t).bind fun a => ?_
  cases a.callbackPtr with
  | none => exact .of_keeps (keeps_pure _)
  | some f => exact (works_runCallback f t arg).bind fun _ => .of_keeps (keeps_pure _)

variable {c : TmrCfg} {p : Option TmrId}

theorem osTmrStart_served : wp n c (osTmrStart p) (fun _ σ' => TmrServed c σ.os σ'.os) σ := by
  refine served_checkTmr p fun t => Ends.bind (works_getTmr t) fun a => ?_
  cases a.state with
  | unused => exact ends_unlock _
  | stopped => exact Ends.bind (.of_keeps (keeps_os (keeps_beside_tmrLink _ _))) fun _ => ends_unlock _
  | running =>
    exact Ends.bind (.of_keeps (keeps_os (keeps_beside_tmrUnlink _))) fun _ =>
      Ends.bind (.of_keeps (keeps_os (keeps_beside_tmrLink _ _))) fun _ => ends_unlock _
  | completed => exact Ends.bind (.of_keeps (keeps_os (keeps_beside_tmrLink _ _))) fun _ => ends_unlock _

theorem ends_ite {q : Prop} [Decidable q] {m m' : T α} (h : Ends m) (h' : Ends m') : Ends (if q then m else m') := by
  split
  · exact h
  · exact h'

theorem osTmrStop_served {opt : Opt} {arg : Option ℕ} :
    wp n c (osTmrStop p opt arg) (fun _ σ' => TmrServed c σ.os σ'.os) σ := by
  refine served_checkTmr p fun t => Ends.bind (works_getTmr t) fun a => ?_
  cases a.state with
  | unused | stopped | completed => exact ends_unlock _
  | running =>
    refine Ends.bind (.of_keeps (keeps_os (keeps_beside_tmrUnlink _))) fun _ => ends_ite ?_ (ends_ite ?_ (ends_ite ?_ ?_))
    · exact Ends.bind (works_getTmr t) fun _ => Ends.bind (works_stopCallback _ _) fun _ => ends_unlock _
    · exact Ends.bind (works_stopCallback _ _) fun _ => ends_unlock _
    · exact ends_unlock _
    · exact ends_unlock _

theorem osTmrRemainGet_served : wp n c (osTmrRemainGet p) (fun _ σ' => TmrServed c σ.os σ'.os) σ := by
  refine served_checkTmr p fun t => Ends.bind (works_getTmr t) fun a => ?_
  cases a.state with
  | unused | completed => exact ends_unlock _
  | running =>
    exact Ends.bind (.of_keeps keeps_get) fun _ => Ends.bind (.of_keeps (keeps_os (keeps_beside_modTmr _ _))) fun _ =>
      ends_unlock _
  | stopped => exact Ends.bind (.of_keeps (keeps_os (keeps_beside_modTmr _ _))) fun _ => ends_unlock _

theorem works_tmrTaskStep (q : Option TmrId) : Works (tmrTaskStep q) := by
  cases q with
  | none => exact .of_keeps (keeps_pure _)
  | some t =>
    refine (works_getTmr t).bind fun a => Works.bind (.of_keeps keeps_get) fun σ₀ => ?_
    dsimp only
    split
    · refine Works.bind (.of_keeps (keeps_os (keeps_beside_tmrUnlink _))) fun _ => (works_getTmr t).bind fun a' => ?_
      split
      · refine Works.bind (.of_keeps (keeps_os (keeps_beside_tmrLink _ _))) fun _ => (works_getTmr t).bind fun b => ?_
        cases b.callbackPtr with
        | none => exact .of_keeps (keeps_bind (keeps_pure _) fun _ => keeps_pure _)
        | some f => exact (works_getTmr t).bind fun _ => (works_runCallback _ _ _).bind fun _ => .of_keeps (keeps_pure _)
      · refine Works.bind (.of_keeps (keeps_os (keeps_beside_modTmr _ _))) fun _ => (works_getTmr t).bind fun b => ?_
        cases b.callbackPtr with
        | none => exact .of_keeps (keeps_bind (keeps_pure _) fun _ => keeps_pure _)
        | some f => exact (works_getTmr t).bind fun _ => (works_runCallback _ _ _).bind fun _ => .of_keeps (keeps_pure _)
    · exact .of_keeps (keeps_pure _)

theorem tmrTask_served : wp n c tmrTask (fun _ σ' => TmrServed c σ.os σ'.os) σ := by
  apply Ends.served
  refine Ends.bind (.of_keeps (keeps_modify fun _ => rfl)) fun _ => Ends.bind (.of_keeps keeps_get) fun _ =>
    Ends.bind (.of_keeps keeps_ask) fun _ => Ends.bind (.of_keeps (keeps_os (keeps_beside_getTmrSpoke _))) fun _ => ?_
  exact Ends.bind (.loop works_tmrTaskStep _) fun _ => ends_unlock ()

end served

/-- The deeds of a script; the timer services take the steps that `byTmr` names, counted from the last. -/
def deedsOf (byTmr : List ℕ) (h : List Step) : List Deed := h.mapIdx fun i x => ⟨x, i ∈ byTmr⟩

theorem steps_deedsOf (byTmr : List ℕ) (h : List Step) : steps (deedsOf byTmr h) = h := by
  apply List.ext_getElem
  · simp [steps, deedsOf]
  · intro i h₁ h₂
    simp [steps, deedsOf]

/-- A task locks the scheduler and starts a timer; an interrupt handler and the task ready a better task, which does
not run. -/
theorem run_schedLock_held : ∃ h s, (s.tcb 5).taskState = .rdy ∧ s.tcbCurPtr = some 4 ∧
    LockRun .word Cfg.repository h s ∧ NoWrap Cfg.repository (steps h) ∧
    s.schedLockNestingCtr = heldLocks h + openServices h ∧
    ∀ seg x h₀, h = seg ++ x :: h₀ → x.takes = true →
      (∀ l, l <:+ seg → heldLocks h₀ < heldLocks (l ++ x :: h₀)) →
      s.tcbCurPtr = x.step.pre.tcbCurPtr ∧
      ∃ c, s.tcbCurPtr = some c ∧ (s.tcb c).taskState = .rdy ∧ ∃! k, s.rdyAt (s.tcb c).prio k = some c := by
  obtain ⟨h, s, run, hfit, hst, hcur, hserves, hpair⟩ := RunIn.of_play .word Cfg.repository
    (fun _ x => ¬ PassedMatch Cfg.repository x.pre x.event ∧ ¬ DeletesSelfLocked x.pre x.event) 40
    (fun h s => (s.tcb 5).taskState = .rdy ∧ s.tcbCurPtr = some 4 ∧ Serves (deedsOf [2, 5] h) ∧ LocksPair (deedsOf [2, 5] h))
    [.newTask 4 7, .newTask 5 6, .start, .call (.taskSuspend none), .call .schedLock, .call .schedLock, .intEnter, .intExit,
      .call .schedUnlock, .call (.taskResume (some 5)), .clock 3]
    (by decide +kernel)
  rw [← steps_deedsOf [2, 5] h] at run hfit
  exact ⟨_, s, hst, hcur, run, hfit, run_schedLock run hfit hserves hpair⟩

/-- With the scheduler locked 250 times, starting a timer takes a lock of the application away; and a task that deletes
itself with the scheduler locked goes on running in no ready list. -/
theorem tmrStart_loses_lock :
    (∃ h s r σ, LockRun .word Cfg.repository h s ∧ (∀ x ∈ h, x.byTmr = false) ∧ heldLocks h = 250 ∧
      s.schedLockNestingCtr = 250 ∧
      Prog.RunsIn .word TmrCfg.repository
        (do let _ ← osTmrCreate (some 0) 5 0 optTmrOneShot none none; osTmrStart (some 0)) (tmrInit s 0) r σ ∧
      r.err = .none ∧ σ.os.schedLockNestingCtr = 249) ∧
    ∃ h s, CodeRun Cfg.repository (fun _ _ => True) h s ∧ s.schedLockNestingCtr = 1 ∧ s.tcbCurPtr = some 4 ∧
      ∀ p < Cfg.repository.prioMax, ∀ k, s.rdyAt p k ≠ some 4 := by
  constructor
  · obtain ⟨h, s, run, -, hheld, hlock, hx⟩ := RunIn.of_play .word Cfg.repository
      (fun _ x => ¬ PassedMatch Cfg.repository x.pre x.event ∧ ¬ DeletesSelfLocked x.pre x.event) 40
      (fun h s => heldLocks (deedsOf [] h) = 250 ∧ s.schedLockNestingCtr = 250 ∧
        ((do let _ ← osTmrCreate (some 0) 5 0 optTmrOneShot none none; osTmrStart (some 0) : T Ret).checked 40
          TmrCfg.repository (tmrInit s 0)).join.any (fun x => x.1.err = .none ∧ x.2.os.schedLockNestingCtr = 249) = true)
      (.newTask 4 7 :: .start :: List.replicate 250 (.call .schedLock)) (by decide +kernel)
    obtain ⟨r, σ, hrun, -, hrσ⟩ := Prog.runsIn_of_any hx .word
    obtain ⟨hr, hσ⟩ := of_decide_eq_true hrσ
    refine ⟨deedsOf [] h, s, r, σ, ?_, ?_, hheld, hlock, hrun, hr, hσ⟩
    · rw [LockRun, steps_deedsOf]
      exact run
    · simp only [deedsOf, List.mem_mapIdx, List.not_mem_nil, decide_false]
      rintro _ ⟨i, hi, rfl⟩
      rfl
  · obtain ⟨h, s, run, hfit, hlock, hcur, hdel⟩ := RunIn.of_play .word Cfg.repository
      (fun _ x => ¬ PassedMatch Cfg.repository x.pre x.event) 40
      (fun _ s => s.schedLockNestingCtr = 1 ∧ s.tcbCurPtr = some 4 ∧ (s.tcb 4).taskState = .del)
      [.newTask 4 7, .start, .call .schedLock, .call (.taskDel none)] (by decide +kernel)
    refine ⟨h, s, run.mono fun _ _ _ => trivial, hlock, hcur, fun p hp k hk => ?_⟩
    have run' : Run Cfg.repository _ h s := run.fits hfit .nat
    obtain ⟨a, H, -⟩ := run'.invariant (I := fun _ _ => True) (fun _ _ => id) trivial fun _ _ _ _ _ _ _ _ _ _ _ => trivial
    have hmem := (H.rep.rdyAt_iff hp).mp ⟨k, hk⟩
    have hst := ((H.sound.ready 4 p).mp hmem).1
    rw [← H.rep.state, hdel] at hst
    cases hst

end UcosIII
