import UcosIII.Abstract.FileCalls
import UcosIII.Runs.Waking

namespace UcosIII

open Prog

variable {n : ℕ} {cfg : Cfg} {s s' : OS} {a : Abs} {t : TcbId} {e : Event} {r : Option Ret} {h : List Step}

/-- The calls that report the time of the post after their wait. -/
def Cont.stamps : Cont → Bool
  | semPend _ | qPend | mutexPend _ | flagPend .. | taskSemPend | taskQPend => true
  | none | flagPost _ | multiPend => false

def waitEnd (t : TcbId) : List Step → OS → Option Step
  | [], _ => none
  | x :: h, s =>
    if (x.pre.tcb t).taskState.isPend = true ∧ (s.tcb t).taskState.isPend = false then some x else waitEnd t h x.pre

namespace File

def Returning (f : File) : Prop := f.cont.stamps = true ∧ f.state.isPend = false ∧ f.pendStatus = .ok

end File

/-- The event signals a task that has been woken by a post at another time and has not returned from its call. -/
def LateSignal (s : OS) (e : Event) : Prop := ∃ t, e.Signals s t ∧ (s.file t).Returning ∧ (s.tcb t).ts ≠ s.tsNow

section step

variable {f f' : File}

def File.Paired (f : File) : Prop :=
  (f.state.isPend = true → f.pendOn = .multi → f.cont.stamps = false) ∧ (f.state = .del → f.cont.stamps = false)

theorem File.paired_of_idle (hs : f.state.isPend = false) (hd : f.state = .del → f.cont.stamps = false) : f.Paired := by
  refine ⟨fun hp => ?_, hd⟩
  rw [hs] at hp
  cases hp

theorem File.paired_woken (f : File) (st : PendStatus) : (f.woken st).Paired := by
  apply paired_of_idle (f.isPend_woken st)
  intro hd
  simp only [woken, TaskState.woken] at hd
  split at hd <;> cases hd

theorem File.Paired.turn (hf : f.Paired) (hT : f.Turn s e r t f') (hcur : s.tcbCurPtr = some t → f.state.isPend = false) :
    f'.Paired := by
  cases hT with
  | fresh | delayed => exact paired_of_idle rfl (by simp [fresh])
  | erased => exact paired_of_idle rfl fun _ => rfl
  | posted | flagged | aborted => exact paired_woken _ _
  | semSet | msgs | rows | flagsRdy | semTaken => exact hf
  | flagPosts _ hc | finished _ hc => exact paired_of_idle (hcur hc) fun _ => rfl
  | waits _ _ _ hkind _ _ _ _ timed => exact ⟨fun _ hk => absurd hk hkind.1, by cases timed <;> simp [File.waits]⟩
  | waitsMulti => exact ⟨fun _ _ => rfl, fun _ => rfl⟩
  | suspended =>
    obtain ⟨st, c, h₁, h₂, h₃⟩ := f.suspended_shape
    rw [h₁]
    exact ⟨fun hp hk => hf.1 (h₂ ▸ hp) hk, fun hd => hf.2 (h₃ hd)⟩
  | resumed =>
    obtain ⟨st, c, h₁, h₂, h₃⟩ := f.resumed_shape
    rw [h₁]
    exact ⟨fun hp hk => hf.1 (h₂ ▸ hp) hk, fun hd => hf.2 (h₃ hd)⟩
  | signalled =>
    rcases f.signalled_shape s.tsNow with ⟨-, -, h₁⟩ | ⟨-, c, h₁⟩
    · rw [h₁]
      exact paired_woken _ _
    · rw [h₁]
      exact hf
  | expired =>
    rcases f.expired_shape s.tsNow with ⟨-, h₁⟩ | ⟨st, h₁, h₂, h₃⟩
    · rw [h₁]
      exact paired_woken _ _
    · rw [h₁]
      exact ⟨fun hp hk => hf.1 (h₂ ▸ hp) hk, fun hd => hf.2 (h₃ hd)⟩

theorem Event.Signals.isPost (h : e.Signals s t) : e.isPost = true := by
  cases e with
  | timeTick => rfl
  | call c =>
    cases c with
    | taskSemPost => rfl
    | _ => exact h.elim
  | _ => exact h.elim

theorem File.Turn.returning (hT : f.Turn s e r t f') (hf : f.Paired) 
    (hdorm : ∀ args, e = .call (.taskCreate args) → args.tcb = some t → f.state = .del)
    (hcur : s.tcbCurPtr = some t → f.state.isPend = false) (hr : f'.Returning) :
    f.Returning ∧ (f'.mail.ts = f.mail.ts ∨ e.Signals s t ∧ f'.mail.ts = s.tsNow) ∨
      f.state.isPend = true ∧ e.isPost = true ∧ f'.mail.ts = s.tsNow := by
  obtain ⟨hk, hs, hok⟩ := hr
  have hmulti (hp : f.state.isPend = true) (hk : f.cont.stamps = true) : f.pendOn ≠ .multi := by
    intro hm
    rw [hf.1 hp hm] at hk
    cases hk
  cases hT with
  | fresh he ht =>
    rw [show f.fresh.cont.stamps = _ from hf.2 (hdorm _ he ht)] at hk
    cases hk
  | erased => cases hk
  | delayed _ hc => exact .inl ⟨⟨hk, hcur hc, hok⟩, .inl rfl⟩
  | posted he hp hm =>
    have hk' : f.cont.stamps = true := by
      obtain ⟨_, _, _, h₁⟩ := f.posted_shape _ _
      rw [h₁] at hk
      exact hk
    rw [posted_mail (hmulti hp hk')]
    exact .inr ⟨hp, he, hm⟩
  | flagged he hp =>
    subst he
    exact .inr ⟨hp, rfl, rfl⟩
  | aborted => cases hok
  | semSet | msgs | rows | flagsRdy | semTaken => exact .inl ⟨⟨hk, hs, hok⟩, .inl rfl⟩
  | flagPosts | finished => cases hk
  | waits _ _ _ _ _ _ _ _ timed => cases timed <;> cases hs
  | waitsMulti => cases hk
  | suspended =>
    obtain ⟨st, c, h₁, h₂, -⟩ := f.suspended_shape
    rw [h₁] at hk hs hok ⊢
    exact .inl ⟨⟨hk, h₂ ▸ hs, hok⟩, .inl rfl⟩
  | resumed =>
    obtain ⟨st, c, h₁, h₂, -⟩ := f.resumed_shape
    rw [h₁] at hk hs hok ⊢
    exact .inl ⟨⟨hk, h₂ ▸ hs, hok⟩, .inl rfl⟩
  | signalled he =>
    rcases f.signalled_shape s.tsNow with ⟨hp, hon, h₁⟩ | ⟨-, c, h₁⟩
    · rw [h₁, posted_mail (by simp [hon])]
      exact .inr ⟨hp, he.isPost, rfl⟩
    · rw [h₁] at hk hs hok ⊢
      exact .inl ⟨⟨hk, hs, hok⟩, .inr ⟨he, rfl⟩⟩
  | expired =>
    rcases f.expired_shape s.tsNow with ⟨-, h₁⟩ | ⟨st, h₁, h₂, -⟩
    · rw [h₁] at hok
      cases hok
    · rw [h₁] at hk hs hok ⊢
      exact .inl ⟨⟨hk, h₂ ▸ hs, hok⟩, .inl rfl⟩

end step

section runs

structure Stamped (h : List Step) (s : OS) : Prop where
  paired : ∀ t, (s.file t).Paired
  stamped : ∀ t, (s.file t).Returning → ∃ x, waitEnd t h s = some x ∧ x.event.isPost = true ∧ (s.tcb t).ts = x.pre.tsNow

theorem Stamped.start (h0 : ∀ t, (s.file t).AtStart) : Stamped [] s := by
  have hidle (t : TcbId) : (s.file t).cont.stamps = false := by
    rw [(h0 t).2.2.2.2.2.2]
    rfl
  refine ⟨fun t => ⟨fun _ _ => hidle t, fun _ => hidle t⟩, fun t hr => ?_⟩
  rw [File.Returning, hidle] at hr
  exact absurd hr.1 Bool.false_ne_true

theorem Stamped.step (H : Ready cfg s a) (hS : Stamped h s) (he : Enabled s e) (hlate : ¬ LateSignal s e)
    (hF : Filed s e r s') : Stamped (⟨s, e, r⟩ :: h) s' := by
  have hdorm (t : TcbId) (args : TaskArgs) (hc : e = .call (.taskCreate args)) (ht : args.tcb = some t) :
      (s.file t).state = .del := by
    subst hc
    exact he.1.1 t ht
  refine ⟨fun t => ?_, fun t hr => ?_⟩
  · rcases hF t with hf | hf
    · rw [hf]
      exact hS.paired t
    · exact (hS.paired t).turn hf.turn fun hc => H.not_pend hc
  -- a task that was returning keeps its time
  have hold (hret : (s.file t).Returning) (hts : (s'.file t).mail.ts = (s.file t).mail.ts) :
      ∃ x, waitEnd t (⟨s, e, r⟩ :: h) s' = some x ∧ x.event.isPost = true ∧ (s'.tcb t).ts = x.pre.tsNow := by
    obtain ⟨x, hx, hp, hx'⟩ := hS.stamped t hret
    refine ⟨x, ?_, hp, (hts.trans hx' :)⟩
    have hnp : (s.tcb t).taskState.isPend = false := hret.2.1
    rw [waitEnd, if_neg (by simp [hnp]), hx]
  rcases hF t with hf | hf
  · rw [hf] at hr
    exact hold hr (by rw [hf])
  · rcases hf.turn.returning (hS.paired t) (hdorm t) (fun hc => H.not_pend hc) hr with ⟨hret, hts⟩ | ⟨hp, hpost, hts⟩
    · rcases hts with hts | ⟨hsig, hts⟩
      · exact hold hret hts
      · have hsame : (s.tcb t).ts = s.tsNow := by
          by_contra hne
          exact hlate ⟨t, hsig, hret, hne⟩
        exact hold hret (hts.trans hsame.symm)
    · refine ⟨⟨s, e, r⟩, ?_, hpost, hts⟩
      rw [waitEnd, if_pos ⟨hp, hr.2.1⟩]

theorem finish_stamp (hcur : s.tcbCurPtr = some t) (hk : (s.cont t).stamps = true) :
    wp n cfg Event.finish.exec (fun r _ => ∀ x ∈ r, x.err = .none →
      (s.tcb t).pendStatus = .ok ∧ x.ts = (s.tcb t).ts) s := by
  rw [Event.exec, UcosIII.finish, wp_bind, wp_getCur, hcur]
  rintro _ ⟨⟩
  rw [wp_bind, wp_get, wp_bind, wp_modify]
  have hc : ({ s with cont := Function.update s.cont t .none } : OS).tcbCurPtr = some t := hcur
  have ht : ({ s with cont := Function.update s.cont t .none } : OS).tcb t = s.tcb t := rfl
  generalize ({ s with cont := Function.update s.cont t .none } : OS) = s₁ at hc ht
  cases hcont : s.cont t with
  | none | flagPost | multiPend =>
    rw [hcont] at hk
    cases hk
  | semPend o =>
    rw [Cont.run, wp_always, semPendFinish, wp_bind, wp_getCur, hc]
    rintro _ ⟨⟩
    rw [wp_bind, wp_getTcb, wp_bind, wp_getObj, ht]
    cases (s.tcb t).pendStatus <;> exact wp_pure.mpr (by simp)
  | qPend =>
    rw [Cont.run, wp_always, qPendFinish, wp_bind, wp_getCur, hc]
    rintro _ ⟨⟩
    rw [wp_bind, wp_getTcb, ht]
    cases (s.tcb t).pendStatus <;> exact wp_pure.mpr (by simp)
  | mutexPend o =>
    rw [Cont.run, wp_always, mutexPendFinish, wp_bind, wp_getCur, hc]
    rintro _ ⟨⟩
    rw [wp_bind, wp_getTcb, ht]
    cases (s.tcb t).pendStatus <;> exact wp_pure.mpr (by simp)
  | taskSemPend =>
    rw [Cont.run, wp_always, taskSemPendFinish, wp_bind, wp_getCur, hc]
    rintro _ ⟨⟩
    rw [wp_bind, wp_getTcb, ht]
    cases (s.tcb t).pendStatus <;> exact wp_pure.mpr (by simp)
  | taskQPend =>
    rw [Cont.run, wp_always, taskQPendFinish, wp_bind, wp_getCur, hc]
    rintro _ ⟨⟩
    rw [wp_bind, wp_getTcb, ht]
    cases (s.tcb t).pendStatus <;> exact wp_pure.mpr (by simp)
  | flagPend o mode consume =>
    rw [Cont.run, wp_always, flagPendFinish, wp_bind, wp_getCur, hc]
    rintro _ ⟨⟩
    rw [wp_bind, wp_getTcb, ht]
    cases (s.tcb t).pendStatus with
    | abort | timeout | del => exact wp_pure.mpr (by simp)
    | ok =>
      refine wp_ite.mpr ⟨fun _ => wp_pure.mpr (by simp), fun _ => wp_ite.mpr ⟨fun _ => ?_, fun _ => wp_pure.mpr (by simp)⟩⟩
      rw [wp_bind, wp_modObj]
      exact wp_pure.mpr (by simp)

/-- In a run without late signals, a call that had to wait and is answered without an error reports the time of the
post that ended its wait. -/
theorem run_stamps (run : CodeRun cfg (fun _ x => ¬ PassedMatch cfg x.pre x.event ∧ ¬ LateSignal x.pre x.event) h s)
    (hfit : NoWrap cfg h) (hcur : s.tcbCurPtr = some t) (hk : (s.cont t).stamps = true) {x : Ret}
    (hx : Prog.RunsIn .word cfg Event.finish.exec s (some x) s') (hok : x.err = .none) :
    ∃ y, waitEnd t h s = some y ∧ y.event.isPost = true ∧ x.ts = y.pre.tsNow := by
  replace run : Run cfg _ h s := run.fits hfit .nat
  replace hx := hx.fits (countless_finish _ _) .nat
  obtain ⟨⟨a, H⟩, hS⟩ := run.files (I := Stamped) (fun _ _ hP => hP.1) (fun _ h0 => .start h0)
    fun h s a e r s' a' H hS he hP _ hF _ _ => hS.step H he hP.2 hF
  obtain ⟨hst, hts⟩ := (hx.wp fun n => finish_stamp hcur hk) x rfl hok
  rw [hts]
  exact hS.stamped t ⟨hk, H.not_pend hcur, hst⟩

def Event.isSignal : Event → Bool
  | call (.taskSemPost ..) | timeTick => true
  | _ => false

theorem not_lateSignal (he : e.isSignal = false) : ¬ LateSignal s e := by
  rintro ⟨t, hsig, -⟩
  cases e with
  | timeTick => cases he
  | call c =>
    cases c with
    | taskSemPost => cases he
    | _ => exact hsig.elim
  | _ => exact hsig.elim

/-- A task waits for a semaphore and is woken at time 100. -/
theorem run_stamps_semPend : ∃ h s x s', CodeRun Cfg.repository
      (fun _ x => ¬ PassedMatch Cfg.repository x.pre x.event ∧ ¬ LateSignal x.pre x.event) h s ∧ NoWrap Cfg.repository h ∧
    s.tcbCurPtr = some 4 ∧ s.cont 4 = .semPend 0 ∧ Prog.RunsIn .word Cfg.repository Event.finish.exec s (some x) s' ∧
    x.err = .none ∧ ∃ y, waitEnd 4 h s = some y ∧ y.event.isPost = true ∧ x.ts = y.pre.tsNow := by
  obtain ⟨h, s, run, hfit, hcur, hk, hx⟩ := RunIn.of_play .word Cfg.repository
    (fun _ x => ¬ PassedMatch Cfg.repository x.pre x.event ∧ x.event.isSignal = false) 60
    (fun _ s => s.tcbCurPtr = some 4 ∧ s.cont 4 = .semPend 0 ∧
      ((Event.finish.exec.checked 60 Cfg.repository s).join.any fun y =>
        y.1 = some { err := .none, val := 0, ts := 100 }) = true)
    [.newTask 4 5, .newTask 5 6, .call (.semCreate (some 0) 0), .start,
      .call (.semPend (some 0) 0 optPendBlocking), .clock 100, .call (.semPost (some 0) optPost1)]
    (by decide +kernel)
  obtain ⟨x, s', hx, -, hr⟩ := Prog.runsIn_of_any hx .word
  have hx' : x = some { err := .none, val := 0, ts := 100 } := of_decide_eq_true hr
  subst hx'
  have run' : CodeRun Cfg.repository
      (fun _ x => ¬ PassedMatch Cfg.repository x.pre x.event ∧ ¬ LateSignal x.pre x.event) h s :=
    run.mono fun _ _ hP => ⟨hP.1, not_lateSignal hP.2⟩
  exact ⟨h, s, _, s', run', hfit, hcur, hk, hx, rfl, run_stamps run' hfit hcur (by rw [hk]; rfl) hx rfl⟩

/-- The post at time 100 does not switch to the task that it wakes. A signal at time 200 reaches the task before it runs,
and its `OSSemPend` reports that time. -/
theorem semPend_reports_signal : ∃ h s s' y, CodeRun Cfg.repository (fun _ _ => True) h s ∧ s.tcbCurPtr = some 4 ∧
    s.cont 4 = .semPend 0 ∧
    Prog.RunsIn .word Cfg.repository Event.finish.exec s (some { err := .none, val := 0, ts := 200 }) s' ∧
    waitEnd 4 h s = some y ∧ y.event = .call (.semPost (some 0) (optPost1 ||| optPostNoSched)) ∧ y.pre.tsNow = 100 := by
  obtain ⟨h, s, run, -, hcur, hk, hx, hy⟩ := RunIn.of_play .word Cfg.repository (fun _ _ => True) 60
    (fun h s => s.tcbCurPtr = some 4 ∧ s.cont 4 = .semPend 0 ∧
      ((Event.finish.exec.checked 60 Cfg.repository s).join.any fun y =>
        y.1 = some { err := .none, val := 0, ts := 200 }) = true ∧
      ((waitEnd 4 h s).any fun y => y.event = .call (.semPost (some 0) (optPost1 ||| optPostNoSched)) ∧
          y.pre.tsNow = 100) = true)
    [.newTask 4 5, .newTask 5 6, .call (.semCreate (some 0) 0), .start,
      .call (.semPend (some 0) 0 optPendBlocking), .clock 100, .call (.semPost (some 0) (optPost1 ||| optPostNoSched)),
      .clock 200, .call (.taskSemPost (some 4) optPostNone), .call .schedLock, .call .schedUnlock]
    (by decide +kernel)
  obtain ⟨x, s', hx, -, hr⟩ := Prog.runsIn_of_any hx .word
  obtain ⟨y, hy, hy'⟩ := (Option.any_eq_true _ _).mp hy
  have hx' : x = some { err := .none, val := 0, ts := 200 } := of_decide_eq_true hr
  subst hx'
  exact ⟨h, s, s', y, run, hcur, hk, hx, hy, of_decide_eq_true hy'⟩

end runs

end UcosIII
