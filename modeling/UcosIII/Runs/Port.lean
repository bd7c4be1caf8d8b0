import UcosIII.Runs.PortSteps

/-!
The port to Win32 runs one task at a time. A run goes from `OSInit` on through the critical sections of the calls, the
calls of `OSSched`, and the ticks, in any order; a tick may come between a critical section and the call of `OSSched`
that follows it.
-/

namespace UcosIII

open Prog

variable {n : ℕ} {cfg : Cfg} {p p' : Port} {t u : TcbId} {k : StkId} {i : ThreadId}

section deletions

variable {a : Abs}

theorem PortInv.del (H : PortInv cfg p) (hrun : p.os.running = true) {j : StkId} (hi : p.MayCall j) {x : Option TcbId}
    (hlock : x = none ∨ x = p.os.tcbCurPtr → p.os.schedLockNestingCtr = 0) :
    wp n cfg (osTaskDelW32 (p.osTask j).threadID x) (fun _ p' => PortInv cfg p') p := by
  obtain ⟨a, h, hI⟩ := H.kernel
  obtain ⟨kc, tc, ht⟩ := H.started hrun
  obtain ⟨hst, hself⟩ := ht.running H.tasks hrun hi
  rw [hself, osTaskDelW32, wp_bind, wp_get, wp_ite]
  refine ⟨fun _ => wp_pure.mpr H, fun _ => wp_ite.mpr ⟨fun _ => wp_pure.mpr H, fun _ => ?_⟩⟩
  rw [wp_bind, wp_onPort, wp_orCur h]
  intro t htarget
  rw [wp_bind, wp_onPort, wp_getTcb, wp_ite]
  refine ⟨fun _ => wp_pure.mpr H, fun hdel => ?_⟩
  obtain ⟨k, hs⟩ := H.live t hdel
  have hk := H.tasks.holds (H.tasks.own t k hs)
  -- what follows the hook: the task is taken out of the kernel
  have herase (q : Port) (ho : q.os = p.os) (hinc : q.incoming = p.incoming)
      (hq : ∀ o : OS, Rep cfg o (a.erase t cfg.prioMax) → o.who = p.os.who →
        PortInv cfg { q with os := o, stkPtr := Function.update q.stkPtr t none }) :
      wp n cfg (onPort (taskErase t) >>= fun _ =>
        Prog.modify (fun p : Port => { p with stkPtr := Function.update p.stkPtr t none }) >>= fun _ => pure Err.none)
        (fun _ p' => PortInv cfg p') q := by
    rw [wp_bind, wp_onPort, ho]
    refine ((taskErase_spec h hI).and (keeps_who_taskErase t n cfg p.os)).mono ?_
    rintro _ o ⟨h', hwho⟩
    rw [wp_bind, wp_modify, wp_pure]
    exact hq o h' hwho
  have hlive (o : OS) (q : Port) (h' : Rep cfg o (a.erase t cfg.prioMax)) (hq : q.stkPtr = p.stkPtr) (v : TcbId)
      (hv : (o.tcb v).taskState ≠ .del) : ∃ k, Function.update q.stkPtr t none v = some k := by
    rw [h'.state, Abs.task_erase] at hv
    by_cases hvt : v = t
    · rw [if_pos hvt] at hv
      exact absurd rfl hv
    · rw [if_neg hvt, ← h.state] at hv
      simpa [hvt, hq] using H.live v hv
  rw [wp_bind, osTaskDelHook, wp_bind]
  refine wp.mono (osTaskGet_stkPtr hs) ?_
  rintro _ q ⟨rfl, rfl⟩
  dsimp only
  rw [wp_bind, wp_getOSTask]
  by_cases htc : t = tc
  · subst htc
    obtain rfl : k = kc := ht.holds.unique ht.rest hk
    have hl : p.os.schedLockNestingCtr = 0 := by
      refine hlock ?_
      cases x with
      | none => exact .inl rfl
      | some v =>
        obtain rfl : v = t := by simpa [Abs.Target, eq_comm] using htarget
        exact .inr ht.cur.symm
    rw [hst]
    dsimp only
    rw [if_pos rfl, wp_modOSTask]
    refine herase _ rfl rfl fun o h' hwho => ?_
    simp only [OS.who, Prod.mk.injEq] at hwho
    obtain ⟨hhigh', hcur', hrun', hint', hlock'⟩ := hwho
    have hthread := hk.thread
    have hsignal := hk.signal
    rw [hst] at hthread hsignal
    have hmod : Touched (· = k) p (p.modOSTask k fun c => { c with taskState := .terminating }) :=
      touched_modOSTask fun _ => ⟨rfl, rfl, rfl⟩
    generalize hq₂ : ({ p.modOSTask k fun c => { c with taskState := .terminating } with
      os := o,
      stkPtr := Function.update (p.modOSTask k fun c => { c with taskState := .terminating }).stkPtr t none } : Port)
        = q₂
    have htouch : Touched (· = k) p q₂ := by
      subst hq₂
      refine ⟨fun v hv => ?_, hmod.nbr, hmod.tcb, hmod.threadID, hmod.handle, hmod.other, hmod.thread⟩
      have hvt : v ≠ t := fun he => hv k rfl (he ▸ hk.tcb)
      simp [hvt]
    have hold : q₂.Holds k t := by
      subst hq₂
      refine ⟨?_, ?_, ?_, ?_, ?_, ?_, ?_⟩
      · simpa using hk.tcb
      · simp
      · simp [Port.Free]
      · simpa using hk.handle
      · simpa using hk.bound
      · simpa [OSTaskState.thread] using hthread
      · simpa [OSTaskState.signal] using hsignal
    obtain ⟨hT, hw⟩ := H.tasks.touched_one hk ht.rest htouch hold
    have hstate : (q₂.osTask k).taskState = .terminating := by
      subst hq₂
      simp
    have hos : q₂.os = o := by rw [← hq₂]
    refine .of_turn ⟨_, hos ▸ h', hI.erase h.nodup t⟩ ?_ hT ?_ ?_ ⟨?_, ?_, hold, .inr ⟨hstate, ?_, ?_⟩, hw⟩ ?_
    · rw [hos, hint', H.calm]
    · subst hq₂
      exact fun v hv => hlive o _ h' rfl v hv
    · rw [hos, hrun', hrun]
    · rw [hos, hcur', ht.cur]
    · rw [hos, hhigh', ht.high]
    · rw [hos, hlock', hl]
    · rw [hos, h'.state, Abs.task_erase, if_pos rfl]
    · subst hq₂
      exact H.incoming
  · have hne : k ≠ kc := by
      rintro rfl
      exact htc (Option.some_inj.mp (hk.tcb.symm.trans ht.holds.tcb))
    have hkill : wp n cfg (osTaskKill k) (fun _ q' => wp n cfg (onPort (taskErase t) >>= fun _ =>
        Prog.modify (fun p : Port => { p with stkPtr := Function.update p.stkPtr t none }) >>= fun _ => pure Err.none)
        (fun _ p' => PortInv cfg p') q') p := by
      refine (osTaskKill_spec hk).mono ?_
      rintro _ q' ⟨ho, hinc, hstk, hd⟩
      refine herase q' ho hinc fun o h' hwho => ?_
      simp only [OS.who, Prod.mk.injEq] at hwho
      obtain ⟨hhigh', hcur', hrun', hint', hlock'⟩ := hwho
      have hd' : Dropped k t p { q' with os := o, stkPtr := Function.update q'.stkPtr t none } := by
        rw [hstk]
        exact ⟨hd.gone, hd.dead, hd.stk, hd.core, hd.thread, hd.stkPtr, hd.nbr⟩
      have hone (y : StkId) (hy : p.Holds y t) : y = k := by
        have hyc : y ≠ kc := by
          rintro rfl
          exact htc (Option.some_inj.mp (hy.tcb.symm.trans ht.holds.tcb))
        have hys := hy.stkPtr (ht.rest y t hy hyc).ne_terminating
        rw [hs] at hys
        exact (Option.some_inj.mp hys).symm
      refine .of_turn ⟨_, h', hI.erase h.nodup t⟩ (hint'.trans H.calm) (H.tasks.dropped hk hd' hone) (fun v hv => ?_)
        (hrun'.trans hrun) ⟨hcur'.trans ht.cur, hhigh'.trans ht.high, ?_, .inl ((hd'.state hne.symm).trans hst),
          fun y v hy hyc => ?_⟩ ?_
      · exact hlive o q' h' hstk v hv
      · exact hd'.holds H.tasks hk hne.symm ht.holds (Ne.symm htc)
      · obtain ⟨hyk, hy'⟩ := hd'.old H.tasks hy
        rw [hd'.state hyk]
        exact ht.rest y v hy' hyc
      · intro st hst'
        exact H.incoming st (hinc ▸ hst')
    have hgo := ht.rest k t hk hne
    rcases hgo with hgo | hgo | hgo <;> rw [hgo] <;> exact hkill

end deletions

section results

theorem portInv_boot : PortInv cfg (Port.boot cfg) := by
  have hnone (k : StkId) (t : TcbId) : ¬ (Port.boot cfg).Holds k t := fun h => h.live (.inl rfl)
  refine ⟨⟨_, rep_boot, Abs.sound_boot⟩, rfl, ⟨fun k => .inl ⟨.inl rfl, rfl⟩, ?_, ?_, ?_⟩, ?_, ?_, ?_, ?_⟩
  · intro t k h
    cases h
  · intro k k' t t' h
    exact absurd h (hnone k t)
  · intro i hi
    cases hi.2.2
  · exact fun t ht => absurd rfl ht
  · intro _ k t h
    exact absurd h (hnone k t)
  · intro h
    cases h
  · intro st h
    cases h

theorem PortInv.kernelTaskW32 (H : PortInv cfg p) {prio : ℕ} (hrun : p.os.running = false)
    (hdel : (p.os.tcb t).taskState = .del) (hstk : p.stkPtr t = none) (hfree : p.Free k) :
    wp n cfg (UcosIII.kernelTaskW32 t k prio) (fun _ p' => PortInv cfg p' ∧ p'.os.running = false ∧
      (∀ v ≠ t, (p.os.tcb v).taskState = .del → (p'.os.tcb v).taskState = .del) ∧
      (∀ v ≠ t, p'.stkPtr v = p.stkPtr v) ∧ ∀ x ≠ k, p.Free x → p'.Free x) p := by
  rw [UcosIII.kernelTaskW32, wp_bind]
  refine ((H.setUp (j := 0) (.inl hrun) hstk hfree).and osTaskSetUp_spec).mono ?_
  rintro _ q ⟨Hq, hd⟩
  have hrun' : q.os.running = false := hd.os ▸ hrun
  have hdel' : (q.os.tcb t).taskState = .del := hd.os ▸ hdel
  obtain ⟨a, h, hI⟩ := Hq.kernel
  have hframe (x : TaskArgs) : wp n cfg (onPort (taskStart t x)) (fun _ p' => p'.os.running = false ∧
      (∀ v ≠ t, (q.os.tcb v).taskState = .del → (p'.os.tcb v).taskState = .del) ∧ p'.stkPtr = q.stkPtr ∧
      p'.osTask = q.osTask) q := by
    rw [wp_onPort]
    refine ((taskStart_spec h hI (h.state t ▸ hdel') x).and (keeps_who_taskStart t x n cfg q.os)).mono ?_
    rintro _ o ⟨h', hwho⟩
    simp only [OS.who, Prod.mk.injEq] at hwho
    refine ⟨hwho.2.2.1.trans hrun', fun v hv hd' => ?_, rfl, rfl⟩
    rw [h'.state, Abs.task_start, if_neg hv, ← h.state]
    exact hd'
  rw [kernelTask]
  refine ((Hq.ready (j := 0) (.inl hrun') hdel' (by simp [hd.stkPtr])).and (hframe _)).mono ?_
  rintro _ q' ⟨Hq', hr, hv, hs, ho⟩
  refine ⟨Hq', hr, fun v hvt hvd => hv v hvt (hd.os ▸ hvd), fun v hvt => ?_, fun x hx hxf => ?_⟩
  · rw [hs, hd.stkPtr, Function.update_of_ne hvt]
  · exact hxf.of_core ((congrArg OSTask.core (congrFun ho x)).trans (hd.core_of_ne hx))

theorem osInitW32_spec {stk : TcbId → StkId}
    (own : ([idleTaskTCB, tickTaskTCB, statTaskTCB, tmrTaskTCB].map stk).Nodup) :
    wp n cfg (osInitW32 stk) (fun _ p' => PortInv cfg p') (Port.boot cfg) := by
  simp only [List.map_cons, List.map_nil, List.nodup_cons, List.mem_cons, List.not_mem_nil, or_false, not_or] at own
  obtain ⟨⟨h01, h02, h03⟩, ⟨h12, h13⟩, h23, -⟩ := own
  rw [osInitW32, wp_bind, wp_ask, wp_bind]
  refine (portInv_boot.kernelTaskW32 rfl rfl rfl (.inl rfl)).mono ?_
  rintro _ p₁ ⟨H₁, hr₁, hd₁, hs₁, hf₁⟩
  rw [wp_bind]
  refine (H₁.kernelTaskW32 hr₁ (hd₁ _ (by decide) rfl) (hs₁ _ (by decide)) (hf₁ _ (Ne.symm h01) (.inl rfl))).mono ?_
  rintro _ p₂ ⟨H₂, hr₂, hd₂, hs₂, hf₂⟩
  rw [wp_bind]
  refine (H₂.kernelTaskW32 hr₂ (hd₂ _ (by decide) (hd₁ _ (by decide) rfl))
    ((hs₂ _ (by decide)).trans (hs₁ _ (by decide))) (hf₂ _ (Ne.symm h12) (hf₁ _ (Ne.symm h02) (.inl rfl)))).mono ?_
  rintro _ p₃ ⟨H₃, hr₃, hd₃, hs₃, hf₃⟩
  refine (H₃.kernelTaskW32 hr₃ (hd₃ _ (by decide) (hd₂ _ (by decide) (hd₁ _ (by decide) rfl)))
    ((hs₃ _ (by decide)).trans ((hs₂ _ (by decide)).trans (hs₁ _ (by decide))))
    (hf₃ _ (Ne.symm h23) (hf₂ _ (Ne.symm h13) (hf₁ _ (Ne.symm h03) (.inl rfl))))).mono ?_
  rintro _ p₄ ⟨H₄, -⟩
  exact H₄

theorem fits_onPort {α : Type} {m : K α} (h : Fits cfg m p.os) : Fits cfg (onPort m) p := by
  intro n hn
  obtain ⟨x, hx⟩ := Option.ne_none_iff_exists'.mp (h n)
  have hx' : (m.checked n cfg p.os).map _ = none := hn
  rw [hx] at hx'
  cases hx'

theorem countless_osTaskGet : Countless (osTaskGet t) := by
  refine countless_bind countless_get fun p => ?_
  cases p.stkPtr t with
  | some k => exact countless_pure
  | none =>
    refine countless_loop (fun x => ?_) _
    cases x with
    | none => exact countless_pure
    | some k =>
      exact countless_bind (countless_bind countless_get fun _ => countless_pure) fun _ =>
        countless_ite countless_pure countless_pure

theorem countless_osTaskSetUp : Countless (osTaskSetUp t k) := by
  have hset (k : StkId) (f : OSTask → OSTask) : Countless (modOSTask k f) := countless_modify
  refine countless_bind (hset k _) fun _ => countless_bind countless_modify fun _ =>
    countless_bind countless_osTaskGet fun x => ?_
  refine countless_bind countless_deref fun x => countless_bind (hset x _) fun _ => countless_bind ?_ fun i => ?_
  · exact countless_bind countless_get fun _ => countless_bind countless_modify fun _ =>
      countless_bind countless_modify fun _ =>
      countless_pure
  refine countless_bind (hset x _) fun _ => countless_bind (hset x _) fun _ => countless_bind countless_get fun p => ?_
  cases p.osTaskListPtr with
  | none => exact countless_bind (hset x _) fun _ => countless_modify
  | some k₁ => exact countless_bind (hset x _) fun _ => countless_bind (hset k₁ _) fun _ => countless_modify

theorem keeps_os_osTaskSetUp : Keeps Port.os (osTaskSetUp t k) := by
  have hset (k : StkId) (f : OSTask → OSTask) : Keeps Port.os (modOSTask k f) := keeps_modify fun _ => rfl
  have hget : Keeps Port.os (osTaskGet t) := by
    refine keeps_bind keeps_get fun p => ?_
    cases p.stkPtr t with
    | some k => exact keeps_pure _
    | none =>
      refine keeps_loop (fun x => ?_) _
      cases x with
      | none => exact keeps_pure _
      | some k => exact keeps_bind (keeps_bind keeps_get fun _ => keeps_pure _) fun _ => keeps_ite (keeps_pure _) (keeps_pure _)
  refine keeps_bind (hset k _) fun _ => keeps_bind (keeps_modify fun _ => rfl) fun _ => keeps_bind hget fun x => ?_
  refine keeps_bind (keeps_deref _) fun x => keeps_bind (hset x _) fun _ => keeps_bind ?_ fun i => ?_
  · exact keeps_bind keeps_get fun _ => keeps_bind (keeps_modify fun _ => rfl) fun _ => keeps_bind (keeps_modify fun _ => rfl)
      fun _ => keeps_pure _
  refine keeps_bind (hset x _) fun _ => keeps_bind (hset x _) fun _ => keeps_bind keeps_get fun p => ?_
  cases p.osTaskListPtr with
  | none => exact keeps_bind (hset x _) fun _ => keeps_modify fun _ => rfl
  | some k₁ => exact keeps_bind (hset x _) fun _ => keeps_bind (hset k₁ _) fun _ => keeps_modify fun _ => rfl

theorem fits_kernelTaskW32 (cfg : Cfg) (t : TcbId) (k : StkId) (prio : ℕ) {j : ℕ} (h : p.os.RdyAtMost j) (hj : j + 1 < 2 ^ 16) :
    Fits cfg (UcosIII.kernelTaskW32 t k prio) p ∧
      ∀ n : ℕ, wp n cfg (UcosIII.kernelTaskW32 t k prio) (fun _ p' => p'.os.RdyAtMost (j + 1)) p := by
  have hset (n : ℕ) : wp n cfg (osTaskSetUp t k) (fun _ p' => p'.os.RdyAtMost j) p :=
    (keeps_os_osTaskSetUp n cfg p).mono fun _ _ ho => ho ▸ h
  refine ⟨fits_bind (countless_osTaskSetUp _ _) fun n => (hset n).mono fun _ q hq => ?_, fun n => ?_⟩
  · exact fits_onPort (fits_kernelTask hq hj)
  · rw [UcosIII.kernelTaskW32, wp_bind]
    exact (hset n).mono fun _ q hq => wp_onPort.mpr (kernelTask_atMost hq)

theorem fits_osInitW32 {stk : TcbId → StkId} : Fits cfg (osInitW32 stk) (Port.boot cfg) := by
  refine fits_bind (countless_ask _ _) fun n => ?_
  rw [wp_ask]
  have h0 : (Port.boot cfg).os.RdyAtMost 0 := fun _ => le_refl 0
  obtain ⟨f₀, h₁⟩ := fits_kernelTaskW32 cfg idleTaskTCB (stk idleTaskTCB) (cfg.prioMax - 1) h0 (by decide)
  refine fits_bind f₀ fun n => (h₁ n).mono fun _ p₁ h₁ => ?_
  obtain ⟨f₁, h₂⟩ := fits_kernelTaskW32 cfg tickTaskTCB (stk tickTaskTCB) (cfg.tickTaskPrio) h₁ (by decide)
  refine fits_bind f₁ fun n => (h₂ n).mono fun _ p₂ h₂ => ?_
  obtain ⟨f₂, h₃⟩ := fits_kernelTaskW32 cfg statTaskTCB (stk statTaskTCB) (cfg.statTaskPrio) h₂ (by decide)
  refine fits_bind f₂ fun n => (h₃ n).mono fun _ p₃ h₃ => ?_
  exact (fits_kernelTaskW32 cfg tmrTaskTCB _ _ h₃ (by decide)).1

theorem PortRun.fits {c : Reading} {P : Port → PortStep → Prop} (hP : ∀ p e, P p e → Fits cfg e.exec p)
    (run : PortRun c cfg P p)
    (c' : Reading) : PortRun c' cfg P p := by
  induction run with
  | init own exec => exact .init own (exec.fits fits_osInitW32 c')
  | step _ enabled exec ok ih => exact .step ih enabled (exec.fits (hP _ _ ok) c') ok

theorem PortRun.mono {c : Reading} {P P' : Port → PortStep → Prop} (run : PortRun c cfg P p) (hP : ∀ p e, P p e → P' p e) :
    PortRun c cfg P' p := by
  induction run with
  | init own exec => exact .init own exec
  | step _ enabled exec ok ih => exact .step ih enabled exec (hP _ _ ok)

theorem PortStep.exec_inv (H : PortInv cfg p) {e : PortStep} (enabled : e.Enabled cfg p) (ok : e.Orderly cfg p)
    (exec : Prog.Runs cfg e.exec p () p') : PortInv cfg p' := by
  apply exec.wp (Q := fun _ p' => PortInv cfg p')
  intro n
  cases e with
  | kernel k o => exact wp_modify.mpr (H.kernelMove enabled (ok.2 k o rfl))
  | setUp k t stk => exact H.setUp enabled.1 enabled.2.1.2 enabled.2.2
  | ready k t x => exact H.ready enabled.1 enabled.2.1.1 enabled.2.1.2
  | del k x =>
    rw [PortStep.exec, wp_bind, wp_getOSTask, wp_bind]
    exact (H.del enabled.1 enabled.2.1 enabled.2.2).mono fun _ _ h => wp_pure.mpr h
  | start => exact H.start enabled
  | sched k =>
    rw [PortStep.exec, wp_bind, wp_getOSTask]
    exact H.sched enabled.1 enabled.2
  | tick => exact H.tick enabled

theorem PortRun.inv (run : PortRun .nat cfg (PortStep.Orderly cfg) p) : PortInv cfg p := by
  induction run with
  | init own exec => exact exec.wp fun n => osInitW32_spec own
  | step _ enabled exec ok ih => exact PortStep.exec_inv ih enabled ok exec

/-- The task of the current task control block runs, and no other does, or it is about to end, and none does; its thread
is the only one that can run. -/
def Port.OneTask (p : Port) : Prop :=
  ∃ t k, p.os.tcbCurPtr = some t ∧ (p.osTask k).ostcbPtr = some t ∧
    ((p.osTask k).taskState = .running ∧ (∀ x, (p.osTask x).taskState = .running → x = k) ∨
      (p.osTask k).taskState = .terminating ∧ ∀ x, (p.osTask x).taskState ≠ .running) ∧
    ∀ i, (p.thread i).Ready ↔ i = (p.osTask k).threadID

/-- The record of `t` is found, and `t` can be gone on with unless it is the current task. -/
def Port.Found (p : Port) (t : TcbId) : Prop :=
  ∃ k, p.stkPtr t = some k ∧ (p.osTask k).ostcbPtr = some t ∧
    (p.os.tcbCurPtr ≠ some t → (p.osTask k).taskState = .created ∨ (p.osTask k).taskState = .suspended ∨
      (p.osTask k).taskState = .interrupted)

structure Port.InStep (cfg : Cfg) (p : Port) : Prop where
  cur : p.os.tcbCurPtr = p.os.tcbHighRdyPtr
  one : p.OneTask
  incoming : ∀ st ∈ p.incoming, st = .created ∨ st = .suspended ∨ st = .interrupted
  ready : ∀ q < cfg.prioMax, ∀ t ∈ p.os.rdyTasks q, p.Found t
  live : ∀ t, (p.os.tcb t).taskState ≠ .del → p.Found t

theorem PortInv.inStep (H : PortInv cfg p) (started : p.os.running = true) : p.InStep cfg := by
  obtain ⟨k, t, ht⟩ := H.started started
  have hone (x : StkId) (hx : (p.osTask x).taskState = .running) : x = k := by
    by_contra hne
    obtain ⟨hfree, -⟩ | ⟨v, hv⟩ := H.tasks.each x
    · simp [Port.Free, hx] at hfree
    · have hgo := ht.rest x v hv hne
      simp [OSTaskState.CanGoOn, hx] at hgo
  have hlive (v : TcbId) (hv : (p.os.tcb v).taskState ≠ .del) : p.Found v := by
    obtain ⟨x, hs⟩ := H.live v hv
    have hx := H.tasks.holds (H.tasks.own v x hs)
    refine ⟨x, hs, hx.tcb, fun hcur => ht.rest x v hx ?_⟩
    rintro rfl
    exact hcur (ht.cur.trans (ht.holds.tcb.symm.trans hx.tcb))
  refine ⟨ht.cur.trans ht.high.symm, ⟨t, k, ht.cur, ht.holds.tcb, ?_, fun i => ⟨ht.thread_eq H.tasks, ?_⟩⟩,
    H.incoming, fun q hq v hv => hlive v ?_, hlive⟩
  · rcases ht.state with hst | ⟨hst, -, -⟩
    · exact .inl ⟨hst, hone⟩
    · refine .inr ⟨hst, fun x hx => ?_⟩
      rw [hone x hx, hst] at hx
      cases hx
  · rintro rfl
    rw [ht.holds.thread]
    rcases ht.state with hst | ⟨hst, -, -⟩ <;> simp [hst, OSTaskState.thread, WinThread.Ready]
  · obtain ⟨a, h, hI⟩ := H.kernel
    rw [h.rdyTasks_eq hq] at hv
    have hrdy : (p.os.tcb v).taskState = .rdy := (h.state v).trans ((hI.ready v q).mp hv).1
    rw [hrdy]
    decide

end results

section scripts

def OS.codeMove (cfg : Cfg) (n : ℕ) (s : OS) (e : Event) : Option OS :=
  (e.exec.checked n cfg s).join.map fun x =>
    { x.2 with
      tcbCurPtr := s.tcbCurPtr, tcbHighRdyPtr := s.tcbHighRdyPtr, prioCur := s.prioCur, prioHighRdy := s.prioHighRdy }

def Event.isSection : Event → Bool
  | call (.taskCreate _) | call (.taskDel _) => false
  | call _ | finish => true
  | _ => false

def OS.CodeMove (cfg : Cfg) (s s' : OS) : Prop := ∃ n e, Enabled s e ∧ e.isSection = true ∧ s.codeMove cfg n e = some s'

instance Port.decidableMayCall (p : Port) (k : StkId) : Decidable (p.MayCall k) := by
  unfold Port.MayCall WinThread.Ready
  infer_instance

instance Port.decidableFree (p : Port) (k : StkId) : Decidable (p.Free k) := by
  unfold Port.Free
  infer_instance

instance PortStep.decidableEnabled (cfg : Cfg) (p : Port) : (e : PortStep) → Decidable (e.Enabled cfg p)
  | .kernel k _ => inferInstanceAs (Decidable (p.MayCall k))
  | .setUp k t stk => inferInstanceAs (Decidable (p.MayCall k ∧ ((p.os.tcb t).taskState = .del ∧ p.stkPtr t = none) ∧ p.Free stk))
  | .ready k t x => inferInstanceAs (Decidable (p.MayCall k ∧ ((p.os.tcb t).taskState = .del ∧ p.stkPtr t ≠ none) ∧
      taskCreateCheck cfg p.os x = .inr t))
  | .del k x => inferInstanceAs (Decidable (p.os.running = true ∧ p.MayCall k ∧
      (x = none ∨ x = p.os.tcbCurPtr → p.os.schedLockNestingCtr = 0)))
  | .start => inferInstanceAs (Decidable (p.os.running = false))
  | .sched k => inferInstanceAs (Decidable (p.os.running = true ∧ (p.thread (p.osTask k).threadID).suspendCnt = 0 ∧ _ ∧ _))
  | .tick => inferInstanceAs (Decidable (p.os.running = true))

variable (cfg) (n : ℕ)

def playPortFrom : List (StkId × Event ⊕ PortStep) → Port → Option Port
  | [], p => some p
  | .inl (k, e) :: es, p =>
    if p.MayCall k ∧ Enabled p.os e ∧ e.isSection = true then
      (p.os.codeMove cfg n e).bind fun o => playPortFrom es { p with os := o }
    else none
  | .inr (.kernel _ _) :: _, _ => none
  | .inr e :: es, p => if e.Enabled cfg p then (e.exec.checked n cfg p).join.bind fun x => playPortFrom es x.2 else none

def playPort (es : List (StkId × Event ⊕ PortStep)) : Option Port :=
  ((osInitW32 id).checked n cfg (Port.boot cfg)).join.bind fun x => playPortFrom cfg n es x.2

variable {cfg n}

theorem PortRun.of_playFrom {M : OS → OS → Prop} {es : List (StkId × Event ⊕ PortStep)}
    (hM : (∃ k e, .inl (k, e) ∈ es) → ∀ s s', OS.CodeMove cfg s s' → M s s')
    (run : PortRun .word cfg (fun p e => Fits cfg e.exec p ∧ ∀ k o, e = .kernel k o → M p.os o) p)
    (hp : playPortFrom cfg n es p = some p') :
    PortRun .word cfg (fun p e => Fits cfg e.exec p ∧ ∀ k o, e = .kernel k o → M p.os o) p' := by
  induction es generalizing p with
  | nil =>
    cases hp
    exact run
  | cons x es ih =>
    have hM' (h : ∃ k e, .inl (k, e) ∈ es) := hM (h.imp fun _ => .imp fun _ => List.mem_cons_of_mem x)
    have hstep {e : PortStep} (he : e.Enabled cfg p) (hk : ∀ k o, e ≠ .kernel k o)
        (hp : ((e.exec.checked n cfg p).join.bind fun x => playPortFrom cfg n es x.2) = some p') :
        PortRun .word cfg (fun p e => Fits cfg e.exec p ∧ ∀ k o, e = .kernel k o → M p.os o) p' := by
      obtain ⟨⟨_, p₁⟩, hx, hp⟩ := Option.bind_eq_some_iff.mp hp
      rw [Option.join_eq_some_iff] at hx
      exact ih hM' (.step run he (runsIn_of_checked hx .word) ⟨fits_of_checked hx, fun k o h => absurd h (hk k o)⟩) hp
    cases x with
    | inl x =>
      obtain ⟨k, e⟩ := x
      rw [playPortFrom] at hp
      split at hp
      · rename_i he
        obtain ⟨o, ho, hp⟩ := Option.bind_eq_some_iff.mp hp
        refine ih hM' (.step (e := .kernel k o) run he.1 ⟨0, rfl⟩ ⟨fits_plain, ?_⟩) hp
        rintro _ _ ⟨⟩
        exact hM ⟨k, e, List.mem_cons_self⟩ _ _ ⟨n, e, he.2.1, he.2.2, ho⟩
      · cases hp
    | inr e =>
      cases e with
      | kernel => cases hp
      | setUp | ready | del | start | sched | tick =>
        rw [playPortFrom] at hp
        split at hp
        · rename_i he
          exact hstep he (by intro k o h; cases h) hp
        · cases hp
        · intro k o h
          cases h

theorem PortRun.of_play (cfg : Cfg) (M : OS → OS → Prop) (es : List (StkId × Event ⊕ PortStep))
    (hM : (∃ k e, .inl (k, e) ∈ es) → ∀ s s', OS.CodeMove cfg s s' → M s s') (Q : Port → Prop) [∀ p, Decidable (Q p)] (n : ℕ)
    (hp : ((playPort cfg n es).any fun p => Q p) = true) :
    ∃ p, PortRun .word cfg (fun p e => Fits cfg e.exec p ∧ ∀ k o, e = .kernel k o → M p.os o) p ∧ Q p := by
  obtain ⟨p, hes, hQ⟩ := (Option.any_eq_true _ _).mp hp
  obtain ⟨⟨_, p₀⟩, h0, hp⟩ := Option.bind_eq_some_iff.mp hes
  rw [Option.join_eq_some_iff] at h0
  have own : ([idleTaskTCB, tickTaskTCB, statTaskTCB, tmrTaskTCB].map id).Nodup := by decide
  exact ⟨p, .of_playFrom hM (.init own (runsIn_of_checked h0 .word)) hp, of_decide_eq_true hQ⟩

def newArgs (t : TcbId) (prio : ℕ) : TaskArgs :=
  { tcb := some t, hasTask := true, prio := prio, hasStk := true, stkLimit := 10, stkSize := 100, qSize := 0, timeQuanta := 0 }

end scripts

end UcosIII
