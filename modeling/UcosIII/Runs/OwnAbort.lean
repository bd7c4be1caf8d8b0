import UcosIII.Kernel.OwnAbort
import UcosIII.Runs.MultiPend
import UcosIII.Runs.TickWheel

namespace UcosIII

open Prog

variable {n : ℕ} {cfg : Cfg} {d d' : AbortSys} {s s' : OS} {a : Abs} {e : AbortEvent} {r : Ret} {t : TcbId} {opt : Opt}
  {p : Option TcbId} {o : ObjId} {h : List AbortRec}

/-- The event ends the wait of `t` on its own semaphore: a signal, the tick of its timeout, or its deletion. -/
def Event.EndsOwn (s : OS) (t : TcbId) (e : Event) : Prop :=
  e.Signals s t ∨ e = .tickUpdate ∧ (s.tcb t).taskState.isTimed = true ∧ s.tickDue t = s.tickCtr + 1 ∨
    s.intNestingCtr = 0 ∧ ∃ p, e = .call (.taskDel p) ∧ s.Target p t

def AbortRec.Begins (t : TcbId) (x : AbortRec) : Prop :=
  x.ret = none ∧ ((∃ timeout opt, x.event = .event (.call (.taskSemPend timeout opt)) ∧ x.pre.os.tcbCurPtr = some t) ∨
    ∃ opt, x.event = .test (some t) opt)

/-- The step ends the wait of `t` on its own semaphore: an event, or the second critical section of another abort. -/
def AbortRec.Ends (t : TcbId) (x : AbortRec) : Prop :=
  (∃ e, x.event = .event e ∧ e.EndsOwn x.pre.os t) ∨
    x.event = .rest ∧ ∃ u opt, x.pre.os.tcbCurPtr = some u ∧ x.pre.mid u = some (t, opt)

def StillWaits (t : TcbId) : List AbortRec → Prop
  | [] => False
  | x :: h => x.Begins t ∨ ¬ x.Ends t ∧ StillWaits t h

def AbortRec.Fits (cfg : Cfg) (x : AbortRec) : Prop :=
  (∀ e, x.event = .event e → Prog.Fits cfg e.exec x.pre.os) ∧
    ∀ u t opt, x.event = .rest → x.pre.os.tcbCurPtr = some u → x.pre.mid u = some (t, opt) →
      Prog.Fits cfg (taskSemPendAbortRest t opt) x.pre.os

def AbortRec.Good (cfg : Cfg) (h : List AbortRec) (x : AbortRec) : Prop :=
  (∀ u t opt, x.event = .rest → x.pre.os.tcbCurPtr = some u → x.pre.mid u = some (t, opt) → StillWaits t h) ∧
    (∀ e, x.event = .event e → ¬ PassedMatch cfg x.pre.os e) ∧ x.Fits cfg

section test

theorem taskSemPendAbortTest_spec : wp n cfg (taskSemPendAbortTest p opt) (fun x s' => s' = s ∧
    (∀ r, x = .inl r → r.val = 0) ∧ ∀ t, x = .inr t →
      p = some t ∧ postOptValid opt = true ∧ some t ≠ s.tcbCurPtr ∧ (s.tcb t).pendOn = .taskSem) s := by
  rw [taskSemPendAbortTest, wp_bind, wp_get, wp_ite]
  refine ⟨fun _ => wp_pure.mpr (by simp), fun _ => ?_⟩
  rw [wp_ite]
  refine ⟨fun _ => wp_pure.mpr (by simp), fun hopt => ?_⟩
  rw [wp_ite]
  refine ⟨fun _ => wp_pure.mpr (by simp), fun hself => ?_⟩
  rw [wp_bind, wp_deref]
  rintro t rfl
  rw [wp_bind, wp_getTcb, wp_ite]
  refine ⟨fun _ => wp_pure.mpr (by simp), fun hon => wp_pure.mpr ⟨rfl, by simp, ?_⟩⟩
  rintro u hu
  cases hu
  exact ⟨rfl, by simpa using hopt, fun h => hself (.inr h), not_not.mp hon⟩

theorem countless_taskSemPendAbortTest : Countless (taskSemPendAbortTest p opt) := by
  grind [taskSemPendAbortTest]

theorem AbortRun.fits {c : Reading} {P : List AbortRec → AbortRec → Prop} (run : AbortRun c cfg P h d)
    (hP : ∀ h x, P h x → x.Fits cfg) (c' : Reading) : AbortRun c' cfg P h d := by
  induction run with
  | init hx => exact .init (hx.fits fits_osInit c')
  | step _ hstep hk ih =>
    refine ih.step ?_ hk
    obtain ⟨hfit, hfit'⟩ := hP _ _ hk
    cases hstep with
    | event he hfree ho hx => exact .event he hfree ho (hx.fits (hfit _ rfl) c')
    | refused hat hfree hx => exact .refused hat hfree (hx.fits (countless_taskSemPendAbortTest _ _) c')
    | tested hat hfree hcur hx => exact .tested hat hfree hcur (hx.fits (countless_taskSemPendAbortTest _ _) c')
    | rest hat hcur hmid hx => exact .rest hat hcur hmid (hx.fits (hfit' _ _ _ rfl hcur hmid) c')

end test

section waits

theorem keeps_others_tickListExpire : Keeps (OS.tickOthers t) (tickListExpire t) := by
  have hself {f : TCB → TCB} : Keeps (OS.tickOthers t) (modTcb t f) :=
    keeps_modify fun _ => OS.tickOthers_modTcb fun h => absurd rfl h
  refine keeps_bind keeps_get fun s => keeps_bind (keeps_getTcb t) fun c => ?_
  split
  all_goals try exact keeps_pure _
  · refine keeps_bind hself fun _ => keeps_ite (keeps_bind hself fun _ => ?_) (keeps_pure _)
    exact keeps_bind keeps_others_taskRdy fun _ => keeps_pure _
  · refine keeps_bind hself fun _ => keeps_ite (keeps_bind keeps_tsGet fun _ => keeps_bind hself fun _ => ?_) (keeps_pure _)
    refine keeps_bind keeps_others_pendListRemove fun _ => keeps_bind keeps_others_taskRdy fun _ => ?_
    exact keeps_bind hself fun _ => keeps_pure _
  · refine keeps_bind hself fun _ => keeps_ite (keeps_bind hself fun _ => ?_) (keeps_pure _)
    exact keeps_bind keeps_others_tickListRemove fun _ => keeps_pure _
  · refine keeps_bind hself fun _ => keeps_ite (keeps_bind keeps_tsGet fun _ => keeps_bind hself fun _ => ?_) (keeps_pure _)
    refine keeps_bind keeps_others_pendListRemove fun _ => keeps_bind keeps_others_tickListRemove fun _ => ?_
    exact keeps_bind hself fun _ => keeps_pure _

theorem tickListExpire_stays (hno : ¬ ((s.tcb t).taskState.isTimed = true ∧ s.tickDue t = s.tickCtr)) :
    wp n cfg (tickListExpire t)
      (fun _ s' => s'.tickCtr = s.tickCtr ∧ s'.tickDue t = s.tickDue t ∧ s'.file t = s.file t) s := by
  have hfile : wp n cfg (tickListExpire t) (fun _ s' => s'.file t = s.file t) s := by
    refine tickListExpire_file.mono fun _ s' h' => ?_
    rcases h' with h' | ⟨hdue, htimed, -⟩
    · rw [h']
    · exact absurd ⟨htimed, hdue⟩ hno
  by_cases htimed : (s.tcb t).taskState.isTimed = true
  · refine ((tickListExpire_early htimed fun h => hno ⟨htimed, h⟩).and hfile).mono ?_
    rintro _ s' ⟨⟨-, hw, hc, -⟩, hf⟩
    exact ⟨hc, hw.due t, hf⟩
  · rw [tickListExpire, wp_bind, wp_get, wp_bind, wp_getTcb]
    cases hs : (s.tcb t).taskState with
    | rdy | pend | suspended | pendSuspended | del => exact wp_pure.mpr ⟨rfl, rfl, rfl⟩
    | dly | pendTimeout | dlySuspended | pendTimeoutSuspended => exact absurd (by rw [hs]; rfl) htimed

theorem tickListUpdate_file_early (hno : ¬ ((s.tcb t).taskState.isTimed = true ∧ s.tickDue t = s.tickCtr + 1)) :
    wp n cfg tickListUpdate (fun _ s' => s'.file t = s.file t) s := by
  rw [tickListUpdate, wp_bind, wp_modify, wp_bind, wp_get, wp_bind, wp_ask, wp_bind, wp_getSpoke]
  suffices hloop : ∀ p s₁, s₁.tickCtr = s.tickCtr + 1 ∧ s₁.tickDue t = s.tickDue t ∧ s₁.file t = s.file t →
      wp n cfg (Prog.loop tickListUpdateStep p) (fun _ s' => s'.file t = s.file t) s₁ from hloop _ _ ⟨rfl, rfl, rfl⟩
  intro p s₀ h₀
  refine wp_loop (fun _ s' => s'.tickCtr = s.tickCtr + 1 ∧ s'.tickDue t = s.tickDue t ∧ s'.file t = s.file t) ?_ h₀
  rintro q s₁ ⟨hctr, hdue, hfile⟩
  cases q with
  | none => exact wp_pure.mpr hfile
  | some u =>
    rw [tickListUpdateStep, wp_bind, wp_getTcb, wp_bind]
    have hstep : wp n cfg (tickListExpire u)
        (fun _ s₂ => s₂.tickCtr = s.tickCtr + 1 ∧ s₂.tickDue t = s.tickDue t ∧ s₂.file t = s.file t) s₁ := by
      by_cases hut : u = t
      · subst hut
        have hst : (s₁.tcb u).taskState = (s.tcb u).taskState := (congrArg File.state hfile :)
        have hno₁ : ¬ ((s₁.tcb u).taskState.isTimed = true ∧ s₁.tickDue u = s₁.tickCtr) := by
          rw [hst, hdue, hctr]
          exact hno
        refine (tickListExpire_stays hno₁).mono ?_
        rintro _ s₂ ⟨hc, hd, hf⟩
        exact ⟨hc.trans hctr, hd.trans hdue, hf.trans hfile⟩
      · refine ((keeps_others_tickListExpire n cfg s₁).and tickListExpire_file).mono ?_
        rintro x s₂ ⟨hk, hf⟩
        have hx := congrFun (congrArg Prod.snd hk) t
        simp only [OS.tickOthers, if_neg (Ne.symm hut), Option.some.injEq, Prod.mk.injEq] at hx
        refine ⟨(congrArg Prod.fst hk :).trans hctr, hx.2.trans hdue, ?_⟩
        rcases hf with hf | ⟨-, -, hf⟩
        · rw [hf, hfile]
        · rw [hf, Function.update_of_ne (Ne.symm hut), hfile]
    refine hstep.mono fun x s₂ h₂ => ?_
    rw [wp_ite]
    exact ⟨fun _ => wp_pure.mpr h₂.2.2, fun _ => wp_pure.mpr h₂⟩

theorem osTaskDel_refused (hint : s.intNestingCtr ≠ 0) : wp n cfg (osTaskDel p) (fun _ s' => s' = s) s := by
  rw [osTaskDel, wp_bind, wp_get, if_pos (Nat.pos_of_ne_zero hint)]
  exact wp_pure.mpr rfl

theorem Ready.ownWait_kept {e : Event} {r : Option Ret} (H : Ready cfg s a) (he : Enabled s e)
    (hx : Runs cfg e.exec s r s') (hon : (s.file t).pendOn = .taskSem) (hend : ¬ e.EndsOwn s t) (htwo : e.inTwo = false) :
    (s'.file t).pendOn = .taskSem := by
  have hp : (s.file t).state.isPend = true := (H.pendOn_iff t).mp (by rw [hon]; simp)
  have hold {f' : File} (hf : s'.file t = f') (hk : f'.pendOn = (s.file t).pendOn) : (s'.file t).pendOn = .taskSem := by
    rw [hf, hk]
    exact hon
  have hidle (hcur : s.tcbCurPtr = some t) : False := by
    rw [H.not_pend hcur] at hp
    cases hp
  have hout (o : ObjId) : t ∉ s.pendTasks o := by
    intro ht
    have hacc := H.accepts ht
    rw [hon] at hacc
    cases hacc
  have hpost {o : ObjId} (ho : e.postObj = some o) : (s'.file t).pendOn = .taskSem := by
    obtain ⟨k, hk⟩ := H.unreached hx ho (hout o)
    exact hold hk rfl
  have habort {o : ObjId} (ho : e.abortObj = some o) : (s'.file t).pendOn = .taskSem := hold (H.unaborted hx ho (hout o)) rfl
  rcases hx.wp (fun n => Event.exec_file H e) t with hsame | hc
  · exact hold hsame rfl
  have hturn := hc.turn
  obtain ⟨f', hf⟩ : ∃ f', s'.file t = f' := ⟨_, rfl⟩
  rw [hf] at hturn
  cases hturn with
  | fresh he' ht' =>
    subst he'
    have hdel : (s.file t).state = .del := he.1.1 t ht'
    rw [hdel] at hp
    cases hp
  | @erased p he' ht' =>
    by_cases hint : s.intNestingCtr = 0
    · exact absurd (.inr (.inr ⟨hint, p, he', ht'⟩)) hend
    · subst he'
      have hsame := hx.wp (Q := fun _ s' => s' = s) fun n => wp_errOnly.mpr (osTaskDel_refused hint)
      rw [hsame]
      exact hon
  | suspended =>
    obtain ⟨st, c, hs, -⟩ := (s.file t).suspended_shape
    exact hold (hf.trans hs) rfl
  | resumed =>
    obtain ⟨st, c, hs, -⟩ := (s.file t).resumed_shape
    exact hold (hf.trans hs) rfl
  | semSet | msgs => exact hold hf rfl
  | signalled hs => exact absurd (.inl hs) hend
  | posted he' _ _ hnone =>
    unfold Event.isPost at he'
    split at he'
    · rename_i p _
      cases p with
      | none => exact hc.elim
      | some o' => exact hpost rfl
    · rename_i p _ _ _
      cases p with
      | none => exact hc.elim
      | some o' => exact hpost rfl
    · rename_i p _
      cases p with
      | none => exact hc.elim
      | some o' => exact hpost rfl
    · rename_i p _ _
      cases p with
      | none => exact hc.elim
      | some o' => exact hpost rfl
    · exact absurd (.inl ⟨hc.1, hc.2.1⟩) hend
    · rcases hc with ⟨-, ⟨-, hk, -⟩ | ⟨-, k, hs⟩⟩
      · rw [hon] at hk
        cases hk
      · exact hold hs rfl
    · exact absurd (.inl hc.1) hend
    · cases he'
  | flagged he' =>
    subst he'
    exact hpost rfl
  | flagPosts _ hcur => exact (hidle hcur).elim
  | aborted he' =>
    unfold Event.isAbort at he'
    split at he'
    · rename_i p _
      cases p with
      | none => exact hc.elim
      | some o' => exact habort rfl
    · rename_i p _
      cases p with
      | none => exact hc.elim
      | some o' => exact habort rfl
    · cases htwo
    · have hk := hc.2.2.1
      rw [hon] at hk
      cases hk
    · cases he'
  | expired he' =>
    subst he'
    have hfile := hx.wp (Q := fun _ s' => s'.file t = s.file t) fun n =>
      wp_noAnswer.mpr (tickListUpdate_file_early fun h => hend (.inr (.inl ⟨rfl, h⟩)))
    exact hold hfile rfl
  | delayed _ hcur | semTaken _ hcur | waits _ hcur | waitsMulti _ hcur | rows _ hcur | flagsRdy _ hcur | finished _ hcur =>
    exact (hidle hcur).elim

theorem osTaskSemPend_waits {timeout : Tick} (ht : s.tcbCurPtr = some t) :
    wp n cfg (osTaskSemPend timeout opt) (fun r s' => r = none → (s'.file t).pendOn = .taskSem) s := by
  rw [osTaskSemPend, wp_bind, wp_get, wp_ite]
  refine ⟨fun _ => wp_pure.mpr (by simp), fun _ => wp_ite.mpr ⟨fun _ => wp_pure.mpr (by simp), fun _ => ?_⟩⟩
  rw [wp_bind, wp_getCur]
  intro u hu
  rw [wp_bind, wp_getTcb, wp_ite]
  refine ⟨fun _ => ?_, fun _ => wp_ite.mpr ⟨fun _ => wp_pure.mpr (by simp), fun _ => ?_⟩⟩
  · rw [wp_bind, wp_modTcb]
    exact wp_pure.mpr (by simp)
  · refine wp_ite.mpr ⟨fun _ => wp_pure.mpr (by simp), fun _ => ?_⟩
    refine (pendThen_file none .taskSem timeout .taskSemPend).mono ?_
    rintro _ s' ⟨-, u', hu', timed, h'⟩ -
    obtain rfl : t = u' := Option.some_inj.mp (ht.symm.trans hu')
    rw [h', Function.update_self]
    rfl

end waits

section runs

theorem taskSemPendAbortRest_call (hat : s.atTask) (hopt : postOptValid opt = true) (hself : some t ≠ s.tcbCurPtr)
    (hk : (s.tcb t).pendOn = .taskSem) (hx : Runs cfg (taskSemPendAbortRest t opt) s r s') :
    Runs cfg (Event.call (.taskSemPendAbort (some t) opt)).exec s (some r) s' := by
  obtain ⟨n, hx⟩ := hx
  have hint : ¬ s.intNestingCtr > 0 := by simp [hat.2.1]
  have heq : osTaskSemPendAbort (some t) opt n cfg s = taskSemPendAbortRest t opt n cfg s := by
    simp [osTaskSemPendAbort, taskSemPendAbortRest, hint, hopt, hself, getTcb, hk]
  exact ⟨n, by simp [Event.exec, Call.exec, always, heq, hx]⟩

theorem taskSemPendAbortRest_file {k : PendOn} (H : Ready cfg s a) (hk : (s.tcb t).pendOn = k) (hne : k ≠ .nothing) :
    wp n cfg (taskSemPendAbortRest t opt) (fun r s' => r = { err := .none, val := 1 } ∧
      s'.file t = (s.file t).aborted none s.tsNow ∧ ∀ u ≠ t, s'.file u = s.file u) s := by
  have hpend := (H.pendOn_iff t).mp (by rw [show (s.file t).pendOn = k from hk]; exact hne)
  rw [taskSemPendAbortRest, wp_bind, wp_get, wp_bind]
  refine (pendAbort_file (fun d hd => H.rep.own H.sound t d hd) s.tsNow).mono fun _ s₁ h₁ => ?_
  rw [wp_bind]
  refine (keeps_file_schedOpt opt n cfg s₁).mono fun _ s₂ h₂ => wp_pure.mpr ⟨rfl, ?_, fun u hu => ?_⟩
  · rw [h₂, h₁, Function.update_self, if_pos hpend]
  · rw [h₂, h₁, Function.update_of_ne hu]

theorem osTaskQPendAbort_ends (H : Ready cfg s a) : wp n cfg (osTaskQPendAbort p opt) (fun r s' => r.val = 1 →
    ∃ t, p = some t ∧ (s.tcb t).pendOn = .taskQ ∧ s'.file t = (s.file t).aborted none s.tsNow) s := by
  rw [osTaskQPendAbort, wp_bind, wp_get, wp_ite]
  refine ⟨fun _ => wp_pure.mpr (by simp), fun _ => wp_ite.mpr ⟨fun _ => wp_pure.mpr (by simp), fun _ => ?_⟩⟩
  refine wp_ite.mpr ⟨fun _ => wp_pure.mpr (by simp), fun _ => ?_⟩
  rw [wp_bind, wp_deref]
  rintro t rfl
  rw [wp_bind, wp_getTcb, wp_ite]
  refine ⟨fun _ => wp_pure.mpr (by simp), fun hon => ?_⟩
  have hon' : (s.tcb t).pendOn = .taskQ := not_not.mp hon
  exact (taskSemPendAbortRest_file H hon' (by simp)).mono fun _ s' h' _ => ⟨t, rfl, hon', h'.2.1⟩

structure AbortSys.MidOk (d : AbortSys) (h : List AbortRec) : Prop where
  mid : ∀ u t opt, d.mid u = some (t, opt) → t ≠ u ∧ postOptValid opt = true
  waits : ∀ t, StillWaits t h → (d.os.file t).pendOn = .taskSem

theorem AbortRun.ready (run : AbortRun .nat cfg (AbortRec.Good cfg) h d) : (∃ a, Ready cfg d.os a) ∧ d.MidOk h := by
  induction run with
  | init hx => exact ⟨⟨_, hx.wp fun n => osInit_spec⟩, by simp, fun t ht => ht.elim⟩
  | @step h d d' e r _ hstep hk ih =>
    obtain ⟨⟨a, H⟩, hm⟩ := ih
    cases hstep with
    | @event e r s he hfree htwo hx =>
      obtain ⟨a', H', -⟩ := Event.exec_ready H he hx (hk.2.1 _ rfl)
      refine ⟨⟨a', H'⟩, fun u t opt hmid => hm.mid u t opt ?_, fun t ht => ?_⟩
      · simp only [AbortSys.after] at hmid
        split at hmid
        · cases hmid
        · exact hmid
      · rcases ht with ⟨hr, ⟨timeout, opt, hev, hcur⟩ | ⟨opt, hev⟩⟩ | ⟨hend, hstill⟩
        · cases hev
          exact hx.wp (Q := fun r s' => r = none → (s'.file t).pendOn = .taskSem) (fun n => osTaskSemPend_waits hcur) hr
        · cases hev
        · exact H.ownWait_kept he hx (hm.waits t hstill) (fun h => hend (.inl ⟨_, rfl, h⟩)) htwo
    | refused hat hfree hx =>
      obtain ⟨rfl, -⟩ := hx.wp fun n => taskSemPendAbortTest_spec
      refine ⟨⟨a, H⟩, hm.mid, fun t ht => hm.waits t ?_⟩
      rcases ht with ⟨hr, -⟩ | ⟨-, hstill⟩
      · cases hr
      · exact hstill
    | @tested p opt u t s hat hfree hcur hx =>
      obtain ⟨rfl, -, hspec⟩ := hx.wp fun n => taskSemPendAbortTest_spec
      obtain ⟨rfl, hopt, hself, hon⟩ := hspec t rfl
      refine ⟨⟨a, H⟩, fun u' t' opt' hmid => ?_, fun t' ht' => ?_⟩
      · by_cases hu : u' = u
        · subst hu
          simp only [Function.update_self, Option.some.injEq, Prod.mk.injEq] at hmid
          obtain ⟨rfl, rfl⟩ := hmid
          refine ⟨?_, hopt⟩
          rintro rfl
          exact hself hcur.symm
        · simp only [Function.update_of_ne hu] at hmid
          exact hm.mid u' t' opt' hmid
      · rcases ht' with ⟨-, ⟨_, _, hev, -⟩ | ⟨opt', hev⟩⟩ | ⟨-, hstill⟩
        · cases hev
        · cases hev
          exact hon
        · exact hm.waits t' hstill
    | @rest opt u t r s hat hcur hmid hx =>
      obtain ⟨htu, hopt⟩ := hm.mid u t opt hmid
      have hpend := hm.waits t (hk.1 u t opt rfl hcur hmid)
      have hself : some t ≠ d.os.tcbCurPtr := by
        rw [hcur]
        simpa using htu
      have hcall := taskSemPendAbortRest_call hat hopt hself hpend hx
      have he : Enabled d.os (.call (.taskSemPendAbort (some t) opt)) := by
        refine ⟨⟨?_, ?_⟩, .inl hat⟩ <;> simp [Call.starts, Call.creates]
      obtain ⟨a', H', -⟩ := Event.exec_ready H he hcall (by simp [PassedMatch])
      obtain ⟨-, -, hothers⟩ := hx.wp fun n => taskSemPendAbortRest_file H hpend (by simp)
      refine ⟨⟨a', H'⟩, fun u' t' opt' hmid' => ?_, fun t' ht' => ?_⟩
      · by_cases hu : u' = u
        · subst hu
          simp at hmid'
        · simp only [Function.update_of_ne hu] at hmid'
          exact hm.mid u' t' opt' hmid'
      · rcases ht' with ⟨hr, -⟩ | ⟨hend, hstill⟩
        · cases hr
        · have hne : t' ≠ t := by
            rintro rfl
            exact hend (.inr ⟨rfl, u, opt, hcur, hmid⟩)
          change (s.file t').pendOn = .taskSem
          rw [hothers t' hne]
          exact hm.waits t' hstill

/-- The target waited so, the wait has been aborted, and the target is in no pend list. -/
structure EndedOwn (s : OS) (k : PendOn) (t : TcbId) (s' : OS) : Prop where
  waited : (s.tcb t).pendOn = k ∧ (s.tcb t).taskState.isPend = true
  aborted : (s'.tcb t).pendOn = .nothing ∧ (s'.tcb t).pendStatus = .abort ∧ (s'.tcb t).taskState.isPend = false
  apart : ∀ o, t ∉ s'.pendTasks o

theorem Ready.not_listed (H : Ready cfg s a) (ht : (s.tcb t).pendOn = .nothing) (o : ObjId) : t ∉ s.pendTasks o := by
  rw [H.rep.pendTasks_eq H.sound]
  intro hmem
  obtain ⟨d, hd, rfl⟩ := List.mem_map.mp hmem
  have htab := ((H.sound.wait.mem_iff o d).mp hd).1
  have hon := (H.sound.wait.table_iff d.1).mp (List.ne_nil_of_mem htab)
  have hno : (a.task d.1).pendOn = .nothing := by rw [← H.rep.pendOn, ht]
  rw [hno] at hon
  cases hon

theorem Ready.endedOwn {a' : Abs} {k : PendOn} (H : Ready cfg s a) (H' : Ready cfg s' a') (hk : (s.tcb t).pendOn = k)
    (hne : k ≠ .nothing) (hfile : s'.file t = (s.file t).aborted none s.tsNow) : EndedOwn s k t s' := by
  have hon : (s'.tcb t).pendOn = .nothing := congrArg File.pendOn hfile
  have hst : (s'.tcb t).pendStatus = .abort := congrArg File.pendStatus hfile
  refine ⟨⟨hk, (H.pendOn_iff t).mp (by rw [show (s.file t).pendOn = k from hk]; exact hne)⟩, ⟨hon, hst, ?_⟩, H'.not_listed hon⟩
  by_contra hpend
  rw [Bool.not_eq_false] at hpend
  exact (H'.pendOn_iff t).mpr hpend hon

def AbortEvent.isOwnAbort : AbortEvent → Bool
  | .test .. | .rest | .event (.call (.taskQPendAbort ..)) => true
  | .event _ => false

/-- The wait that the step of a call is to end: its kind, and the target of the call. -/
def AbortEvent.Aborts (d : AbortSys) (k : PendOn) (t : TcbId) : AbortEvent → Prop
  | .rest => k = .taskSem ∧ ∃ u opt, d.os.tcbCurPtr = some u ∧ d.mid u = some (t, opt)
  | .event (.call (.taskQPendAbort p _)) => k = .taskQ ∧ p = some t
  | _ => False

/-- A call that returns `DEF_TRUE` ends a wait of its target on its own semaphore or queue, if no event has ended the wait
between the two critical sections of `OSTaskSemPendAbort`. -/
theorem abortRun_ended (run : AbortRun .word cfg (AbortRec.Good cfg) h d) (hstep : AbortStep .word cfg d e (some r) d')
    (hk : AbortRec.Good cfg h ⟨d, e, some r⟩) (he : e.isOwnAbort = true) (hr : r.val = 1) :
    ∃ k t, e.Aborts d k t ∧ EndedOwn d.os k t d'.os := by
  have run' := (run.step hstep hk).fits (fun _ _ hg => hg.2.2) .nat
  obtain ⟨⟨a', H'⟩, -⟩ := run'.ready
  cases run' with
  | step run hstep _ =>
    obtain ⟨⟨a, H⟩, hm⟩ := run.ready
    cases hstep with
    | @event e _ s _ _ _ hx =>
      cases e with
      | call c =>
        cases c with
        | taskQPendAbort p opt =>
          obtain ⟨t, rfl, hon, hfile⟩ := hx.wp (Q := fun r s' => ∀ x, r = some x → x.val = 1 →
            ∃ t, p = some t ∧ (d.os.tcb t).pendOn = .taskQ ∧ s'.file t = (d.os.file t).aborted none d.os.tsNow) (fun n =>
              wp_always.mpr ((osTaskQPendAbort_ends H).mono fun x s' h' => by rintro _ ⟨⟩; exact h')) r rfl hr
          exact ⟨.taskQ, t, ⟨rfl, rfl⟩, H.endedOwn H' hon (by simp) hfile⟩
        | _ => cases he
      | _ => cases he
    | refused hat hfree hx =>
      obtain ⟨-, hval, -⟩ := hx.wp fun n => taskSemPendAbortTest_spec
      rw [hval r rfl] at hr
      cases hr
    | @rest opt u t r s hat hcur hmid hx =>
      have hpend : (d.os.tcb t).pendOn = .taskSem := hm.waits t (hk.1 u t opt rfl hcur hmid)
      obtain ⟨-, hfile, -⟩ := hx.wp fun n => taskSemPendAbortRest_file H hpend (by simp)
      exact ⟨.taskSem, t, ⟨rfl, u, opt, hcur, hmid⟩, H.endedOwn H' hpend (by simp) hfile⟩

end runs

section script

instance (d : AbortSys) : Decidable d.free := inferInstanceAs (Decidable (∀ t ∈ d.os.tcbCurPtr, d.mid t = none))

def AbortSys.next (cfg : Cfg) (n : ℕ) (d : AbortSys) : AbortEvent → Option (Option Ret × AbortSys)
  | .event e =>
    if Enabled d.os e ∧ (e.byTask d.os = true → d.free) ∧ e.inTwo = false then
      (e.exec.checked n cfg d.os).join.map fun x => (x.1, d.after x.2)
    else none
  | .test p opt =>
    if d.os.atTask ∧ d.free then
      ((taskSemPendAbortTest p opt).checked n cfg d.os).join.bind fun x =>
        match x.1 with
        | .inl r => some (some r, { d with os := x.2 })
        | .inr t => d.os.tcbCurPtr.map fun u => (none, { os := x.2, mid := Function.update d.mid u (some (t, opt)) })
    else none
  | .rest =>
    if d.os.atTask then
      d.os.tcbCurPtr.bind fun u => (d.mid u).bind fun m =>
        ((taskSemPendAbortRest m.1 m.2).checked n cfg d.os).join.map fun x =>
          (some x.1, { os := x.2, mid := Function.update d.mid u none })
    else none

theorem AbortSys.next_step {x : Option Ret × AbortSys} (hx : d.next cfg n e = some x) (c : Reading) :
    AbortStep c cfg d e x.1 x.2 ∧ AbortRec.Fits cfg ⟨d, e, x.1⟩ := by
  cases e with
  | event e =>
    rw [AbortSys.next] at hx
    split at hx
    · rename_i hen
      obtain ⟨y, hy, rfl⟩ := Option.map_eq_some_iff.mp hx
      rw [Option.join_eq_some_iff] at hy
      refine ⟨.event hen.1 hen.2.1 hen.2.2 (runsIn_of_checked hy c), ?_, by simp⟩
      rintro _ ⟨⟩
      exact fits_of_checked hy
    · cases hx
  | test p opt =>
    rw [AbortSys.next] at hx
    split at hx
    · rename_i hen
      obtain ⟨⟨y, s⟩, hy, hx⟩ := Option.bind_eq_some_iff.mp hx
      rw [Option.join_eq_some_iff] at hy
      have hfit {r : Option Ret} : AbortRec.Fits cfg ⟨d, .test p opt, r⟩ := ⟨by simp, by simp⟩
      cases y with
      | inl r =>
        cases hx
        exact ⟨.refused hen.1 hen.2 (runsIn_of_checked hy c), hfit⟩
      | inr t =>
        obtain ⟨u, hu, rfl⟩ := Option.map_eq_some_iff.mp hx
        exact ⟨.tested hen.1 hen.2 hu (runsIn_of_checked hy c), hfit⟩
    · cases hx
  | rest =>
    rw [AbortSys.next] at hx
    split at hx
    · rename_i hat
      obtain ⟨u, hu, hx⟩ := Option.bind_eq_some_iff.mp hx
      obtain ⟨⟨t, opt⟩, hm, hx⟩ := Option.bind_eq_some_iff.mp hx
      obtain ⟨y, hy, rfl⟩ := Option.map_eq_some_iff.mp hx
      rw [Option.join_eq_some_iff] at hy
      refine ⟨.rest hat hu hm (runsIn_of_checked hy c), by simp, fun u' t' opt' _ hu' hm' => ?_⟩
      cases hu.symm.trans hu'
      cases hm.symm.trans hm'
      exact fits_of_checked hy
    · cases hx

def AbortSys.play (cfg : Cfg) (n : ℕ) : List AbortEvent → AbortSys → Option AbortSys
  | [], d => some d
  | e :: es, d => (d.next cfg n e).bind fun x => play cfg n es x.2

theorem AbortRun.of_play {c : Reading} (run : AbortRun c cfg (fun _ x => x.Fits cfg) h d) {es : List AbortEvent}
    (hx : d.play cfg n es = some d') : ∃ h', AbortRun c cfg (fun _ x => x.Fits cfg) h' d' := by
  induction es generalizing d h with
  | nil =>
    cases hx
    exact ⟨h, run⟩
  | cons e es ih =>
    rw [AbortSys.play] at hx
    obtain ⟨x, hx, hes⟩ := Option.bind_eq_some_iff.mp hx
    obtain ⟨hstep, hfit⟩ := AbortSys.next_step hx c
    exact ih (run.step hstep hfit) hes

theorem RunIn.abortRun {c : Reading} {P : List Step → Step → Prop} {Q : List AbortRec → AbortRec → Prop} {h : List Step}
    (run : RunIn c cfg P h s) (hfit : NoWrap cfg h) (hP : ∀ h' h x, P h x → x.Fits cfg →
      x.event.inTwo = false ∧ Q h' ⟨⟨x.pre, fun _ => none⟩, .event x.event, x.ret⟩) :
    ∃ h', AbortRun c cfg Q h' ⟨s, fun _ => none⟩ := by
  induction run with
  | init hx => exact ⟨[], .init hx⟩
  | @step h s s' e r _ he hx hk ih =>
    obtain ⟨hstep, hfit⟩ := List.forall_mem_cons.mp hfit
    obtain ⟨h', run⟩ := ih hfit
    obtain ⟨htwo, hQ⟩ := hP h' h _ hk hstep
    have hnext := run.step (.event he (fun _ _ _ => rfl) htwo hx) hQ
    have hafter : AbortSys.after ⟨s, fun _ => none⟩ s' = ⟨s', fun _ => none⟩ := by
      simp [AbortSys.after]
    rw [hafter] at hnext
    exact ⟨_, hnext⟩

end script

/-- Task 5 aborts the wait of task 4 on its semaphore; time passes between the two critical sections. -/
theorem abortRun_ended_sem : ∃ h d d' r, AbortRun .word Cfg.repository (AbortRec.Good Cfg.repository) h d ∧
    AbortStep .word Cfg.repository d .rest (some r) d' ∧ r.val = 1 ∧ EndedOwn d.os .taskSem 4 d'.os := by
  obtain ⟨h, s, run, hfit, htest⟩ := RunIn.of_play .word Cfg.repository
    (fun _ x => ¬ PassedMatch Cfg.repository x.pre x.event ∧ x.event.inTwo = false) 60
    (fun _ s => ((AbortSys.next Cfg.repository 60 ⟨s, fun _ => none⟩ (.test (some 4) 0)).any fun x =>
      x.1 = none ∧ (x.2.next Cfg.repository 60 (.event (.clock 100))).any fun y =>
        y.2.os.tcbCurPtr = some 5 ∧ y.2.mid 5 = some (4, 0) ∧
        (y.2.next Cfg.repository 60 .rest).any fun z => z.1.any fun r => r.val = 1) = true)
    [.newTask 4 5, .newTask 5 6, .start, .call (.taskSemPend 0 optPendBlocking)] (by decide +kernel)
  obtain ⟨⟨r₁, d₁⟩, hx, hx'⟩ := (Option.any_eq_true _ _).mp htest
  obtain ⟨rfl, hclock⟩ := of_decide_eq_true hx'
  obtain ⟨⟨r₂, d₂⟩, hy, hy'⟩ := (Option.any_eq_true _ _).mp hclock
  obtain ⟨hcur, hmid, hrest⟩ := of_decide_eq_true hy'
  obtain ⟨⟨_, d'⟩, hz, hz'⟩ := (Option.any_eq_true _ _).mp hrest
  obtain ⟨r, rfl, hr⟩ := (Option.any_eq_true _ _).mp hz'
  have hr : r.val = 1 := of_decide_eq_true hr
  obtain ⟨h₀, run₀⟩ : ∃ h₀, AbortRun .word Cfg.repository (AbortRec.Good Cfg.repository) h₀ ⟨s, fun _ => none⟩ := by
    refine run.abortRun hfit fun h' h x hx hfit => ⟨hx.2, by simp, ?_, ?_, by simp⟩
    · rintro _ ⟨⟩
      exact hx.1
    · rintro _ ⟨⟩
      exact hfit
  obtain ⟨hstep₁, hfit₁⟩ := AbortSys.next_step hx .word
  obtain ⟨hstep₂, hfit₂⟩ := AbortSys.next_step hy .word
  obtain ⟨hstep₃, hfit₃⟩ := AbortSys.next_step hz .word
  have run₁ := run₀.step hstep₁ ⟨by simp, by simp, hfit₁⟩
  have run₂ := run₁.step hstep₂ ⟨by simp, by simp [PassedMatch], hfit₂⟩
  have hgood : AbortRec.Good Cfg.repository (⟨d₁, .event (.clock 100), r₂⟩ :: ⟨⟨s, fun _ => none⟩, .test (some 4) 0, none⟩ :: h₀)
      ⟨d₂, .rest, some r⟩ := by
    refine ⟨fun u t opt _ hu hm => ?_, by simp, hfit₃⟩
    cases hcur.symm.trans hu
    cases hmid.symm.trans hm
    exact .inr ⟨by simp [AbortRec.Ends, Event.EndsOwn, Event.Signals], .inl ⟨rfl, .inr ⟨0, rfl⟩⟩⟩
  obtain ⟨k, t, ⟨rfl, u, opt, hu, hm⟩, hend⟩ := abortRun_ended run₂ hstep₃ hgood rfl hr
  cases hcur.symm.trans hu
  cases hmid.symm.trans hm
  exact ⟨_, d₂, d', r, run₂, hstep₃, hr, hend⟩

/-- Between the two critical sections an interrupt signals task 4, which then waits for a semaphore. The abort succeeds, and
task 4 is ready and still in the pend list. -/
theorem taskSemPendAbort_strays : ∃ h d d' r, AbortRun .word Cfg.repository (fun _ x => x.Fits Cfg.repository) h d ∧
    AbortStep .word Cfg.repository d .rest (some r) d' ∧ r.val = 1 ∧ AbortEvent.rest.Aborts d .taskSem 4 ∧
    (d.os.tcb 4).pendOn = .sem ∧ (d'.os.tcb 4).taskState = .rdy ∧ d'.os.pendTasks 0 = [4] ∧
    ¬ ∃ k, EndedOwn d.os k 4 d'.os := by
  obtain ⟨h, s, run, hfit, hplay⟩ := RunIn.of_play .word Cfg.repository (fun _ x => x.event.inTwo = false) 60
    (fun _ s => ((AbortSys.play Cfg.repository 60
      [.test (some 4) 0, .event .intEnter, .event (.call (.taskSemPost (some 4) 0)), .event .intExit, .event .finish,
        .event (.call (.semPend (some 0) 0 optPendBlocking))] ⟨s, fun _ => none⟩).any fun d =>
      d.os.tcbCurPtr = some 5 ∧ d.mid 5 = some (4, 0) ∧ (d.os.tcb 4).pendOn = .sem ∧
      (d.next Cfg.repository 60 .rest).any fun y => y.1.any (fun r => r.val = 1) ∧ (y.2.os.tcb 4).taskState = .rdy ∧
        y.2.os.pendTasks 0 = [4]) = true)
    [.newTask 4 5, .newTask 5 6, .call (.semCreate (some 0) 0), .start, .call (.taskSemPend 0 optPendBlocking)]
    (by decide +kernel)
  obtain ⟨d, hd, hd'⟩ := (Option.any_eq_true _ _).mp hplay
  obtain ⟨hcur, hmid, hon, hrest⟩ := of_decide_eq_true hd'
  obtain ⟨⟨_, d'⟩, hy, hy'⟩ := (Option.any_eq_true _ _).mp hrest
  obtain ⟨hz, hrdy, hlist⟩ := of_decide_eq_true hy'
  obtain ⟨r, rfl, hr⟩ := (Option.any_eq_true _ _).mp hz
  obtain ⟨h₀, run₀⟩ : ∃ h₀, AbortRun .word Cfg.repository (fun _ x => x.Fits Cfg.repository) h₀ ⟨s, fun _ => none⟩ := by
    refine run.abortRun hfit fun h' h x hx hfit => ⟨hx, ?_, by simp⟩
    rintro _ ⟨⟩
    exact hfit
  obtain ⟨h₁, run₁⟩ := run₀.of_play hd
  refine ⟨h₁, d, d', r, run₁, (AbortSys.next_step hy .word).1, of_decide_eq_true hr, ⟨rfl, 5, 0, hcur, hmid⟩, hon, hrdy,
    hlist, ?_⟩
  rintro ⟨k, hend⟩
  have hno := hend.apart 0
  rw [hlist] at hno
  simp at hno

end UcosIII
