import UcosIII.Lists.Counters
import UcosIII.Runs.PortKernel
import UcosIII.Runs.PortTasks
import UcosIII.Runs.Waking

namespace UcosIII

open Prog

variable {n : ℕ} {cfg : Cfg} {p p' : Port} {t u : TcbId} {k : StkId} {i : ThreadId}

section runs

/-- The thread of the record at `k` is in the code of its task, or in a call other than a deletion of its own task. Before
the start it is the thread of `main` that calls. -/
def Port.MayCall (p : Port) (k : StkId) : Prop :=
  p.os.running = false ∨ (p.osTask k).ostcbPtr ≠ none ∧ (p.thread (p.osTask k).threadID).Ready ∧
    (p.osTask k).taskState ≠ .terminating

/-- What is done in one step: by the task with its record at `k`, or by the thread of the tick. -/
inductive PortStep where
  | kernel (k : StkId) (o : OS)
  | setUp (k : StkId) (t : TcbId) (stk : StkId)
  | ready (k : StkId) (t : TcbId) (x : TaskArgs)
  | del (k : StkId) (x : Option TcbId)
  | start
  | sched (k : StkId)
  | tick

namespace PortStep

def exec : PortStep → KW Unit
  | kernel _ o => Prog.modify fun p => { p with os := o }
  | setUp _ t stk => osTaskSetUp t stk
  | ready _ t x => onPort (taskStart t x)
  | del k x => do
    let c ← getOSTask k
    let _ ← osTaskDelW32 c.threadID x
  | start => osStartW32
  | sched k => do
    let c ← getOSTask k
    osSchedW32 c.threadID
  | tick => osTickW32

/-- Tasks are set up on stacks of their own, while they are dormant, and no task deletes itself with the scheduler
locked. -/
def Enabled (cfg : Cfg) (p : Port) : PortStep → Prop
  | kernel k _ => p.MayCall k
  | setUp k t stk => p.MayCall k ∧ ((p.os.tcb t).taskState = .del ∧ p.stkPtr t = none) ∧ p.Free stk
  | ready k t x => p.MayCall k ∧ ((p.os.tcb t).taskState = .del ∧ p.stkPtr t ≠ none) ∧ taskCreateCheck cfg p.os x = .inr t
  | del k x => p.os.running = true ∧ p.MayCall k ∧ (x = none ∨ x = p.os.tcbCurPtr → p.os.schedLockNestingCtr = 0)
  | start => p.os.running = false
  | sched k => p.os.running = true ∧ (p.thread (p.osTask k).threadID).Ready
  | tick => p.os.running = true

/-- No counter of the kernel wraps, and a critical section of some other call leaves the data of the kernel in order. -/
def Orderly (cfg : Cfg) (p : Port) (e : PortStep) : Prop :=
  Fits cfg e.exec p ∧ ∀ k o, e = .kernel k o → KernelMove cfg p.os o

end PortStep

/-- The runs of the kernel on the port, in steps that meet `P`. -/
inductive PortRun (c : Reading) (cfg : Cfg) (P : Port → PortStep → Prop) : Port → Prop
  | init {p : Port} {stk : TcbId → StkId} (own : ([idleTaskTCB, tickTaskTCB, statTaskTCB, tmrTaskTCB].map stk).Nodup)
      (exec : RunsIn c cfg (osInitW32 stk) (Port.boot cfg) () p) : PortRun c cfg P p
  | step {p p' : Port} {e : PortStep} (run : PortRun c cfg P p) (enabled : e.Enabled cfg p)
      (exec : RunsIn c cfg e.exec p () p') (ok : P p e) : PortRun c cfg P p'

end runs

section invariant

/-- The task `t`, with its record at `k`, is the current one. It runs, or is about to end. -/
structure Port.Turn (p : Port) (k : StkId) (t : TcbId) : Prop where
  cur : p.os.tcbCurPtr = some t
  high : p.os.tcbHighRdyPtr = some t
  holds : p.Holds k t
  state : (p.osTask k).taskState = .running ∨ (p.osTask k).taskState = .terminating ∧
    p.os.schedLockNestingCtr = 0 ∧ (p.os.tcb t).taskState = .del
  rest : p.OthersWait k

structure PortInv (cfg : Cfg) (p : Port) : Prop where
  kernel : ∃ a, Rep cfg p.os a ∧ a.Sound cfg
  calm : p.os.intNestingCtr = 0
  tasks : p.Tasks
  live : ∀ t, (p.os.tcb t).taskState ≠ .del → ∃ k, p.stkPtr t = some k
  stopped : p.os.running = false → ∀ k t, p.Holds k t → (p.osTask k).taskState = .created
  started : p.os.running = true → ∃ k t, p.Turn k t
  incoming : ∀ st ∈ p.incoming, st.CanGoOn

theorem PortInv.of_turn (hkernel : ∃ a, Rep cfg p.os a ∧ a.Sound cfg) (hcalm : p.os.intNestingCtr = 0)
    (hT : p.Tasks) (hlive : ∀ t, (p.os.tcb t).taskState ≠ .del → ∃ k, p.stkPtr t = some k) (hrun : p.os.running = true)
    (ht : p.Turn k t) (hinc : ∀ st ∈ p.incoming, st.CanGoOn) : PortInv cfg p :=
  ⟨hkernel, hcalm, hT, hlive, fun h => absurd (hrun.symm.trans h) (by decide), fun _ => ⟨k, t, ht⟩, hinc⟩

variable {o : OS}

theorem holds_setOS : Port.Holds { p with os := o } k t ↔ p.Holds k t :=
  ⟨fun h => ⟨h.tcb, h.stk, h.live, h.handle, h.bound, h.thread, h.signal⟩,
    fun h => ⟨h.tcb, h.stk, h.live, h.handle, h.bound, h.thread, h.signal⟩⟩

theorem othersWait_setOS : Port.OthersWait { p with os := o } k ↔ p.OthersWait k := by
  simp only [Port.OthersWait, holds_setOS]

theorem Port.Tasks.setOS (h : p.Tasks) : Port.Tasks { p with os := o } :=
  ⟨fun k => (h.each k).imp_right fun ⟨t, ht⟩ => ⟨t, holds_setOS.mpr ht⟩, h.own,
    fun k k' t t' hk hk' => h.inj k k' t t' (holds_setOS.mp hk) (holds_setOS.mp hk'),
    fun i hi => (h.others i hi).imp fun _ h' => h'.imp fun _ h'' => ⟨holds_setOS.mpr h''.1, h''.2⟩⟩

theorem Port.Turn.thread_eq (ht : p.Turn k t) (h : p.Tasks) (hi : (p.thread i).Ready) : i = (p.osTask k).threadID := by
  obtain ⟨x, v, hv, rfl⟩ := h.others i hi
  by_contra hne
  have hx : x ≠ k := fun he => hne (by rw [he])
  rw [hv.thread] at hi
  exact (ht.rest x v hv hx).not_ready hi

theorem Port.Turn.running (ht : p.Turn k t) (h : p.Tasks) (hrun : p.os.running = true) {x : StkId} (hx : p.MayCall x) :
    (p.osTask k).taskState = .running ∧ x = k := by
  rcases hx with hx | ⟨htcb, hready, hst⟩
  · rw [hrun] at hx
    cases hx
  · obtain ⟨v, hv⟩ := Option.ne_none_iff_exists'.mp htcb
    obtain rfl : x = k := h.inj x k v t (h.holds hv) ht.holds (ht.thread_eq h hready)
    exact ⟨ht.state.resolve_right fun h' => hst h'.1, rfl⟩

theorem PortInv.setOS (H : PortInv cfg p) {j : StkId} (hi : p.MayCall j) (hkernel : ∃ a, Rep cfg o a ∧ a.Sound cfg)
    (hwho : o.tcbHighRdyPtr = p.os.tcbHighRdyPtr ∧ o.tcbCurPtr = p.os.tcbCurPtr ∧ o.running = p.os.running ∧
      o.intNestingCtr = p.os.intNestingCtr)
    (hlive : ∀ t, (o.tcb t).taskState ≠ .del → ∃ k, p.stkPtr t = some k) : PortInv cfg { p with os := o } := by
  obtain ⟨hhigh, hcur, hrun, hint⟩ := hwho
  refine ⟨hkernel, hint.trans H.calm, H.tasks.setOS, hlive, fun h k t hk => ?_, fun h => ?_, H.incoming⟩
  · exact H.stopped (hrun.symm.trans h) k t (holds_setOS.mp hk)
  · have hrun' := hrun.symm.trans h
    obtain ⟨k, t, ht⟩ := H.started hrun'
    exact ⟨k, t, hcur.trans ht.cur, hhigh.trans ht.high, holds_setOS.mpr ht.holds, .inl (ht.running H.tasks hrun' hi).1,
      othersWait_setOS.mpr ht.rest⟩

theorem PortInv.kernelMove (H : PortInv cfg p) {j : StkId} (hi : p.MayCall j) (hm : KernelMove cfg p.os o) :
    PortInv cfg { p with os := o } :=
  H.setOS hi hm.sound ⟨hm.high, hm.cur, hm.running, hm.intNesting⟩ fun t ht => H.live t (mt (hm.del t).mpr ht)

theorem PortInv.ready (H : PortInv cfg p) {j : StkId} (hi : p.MayCall j) {x : TaskArgs} (hdel : (p.os.tcb t).taskState = .del)
    (hstk : p.stkPtr t ≠ none) : wp n cfg (onPort (taskStart t x)) (fun _ p' => PortInv cfg p') p := by
  obtain ⟨a, h, hI⟩ := H.kernel
  have hs : (a.task t).state = .del := h.state t ▸ hdel
  rw [wp_onPort]
  refine ((taskStart_spec h hI hs x).and (keeps_who_taskStart t x n cfg p.os)).mono ?_
  rintro _ o ⟨h', hwho⟩
  simp only [OS.who, Prod.mk.injEq] at hwho
  refine H.setOS hi ⟨_, h', hI.start hs _⟩ ⟨hwho.1, hwho.2.1, hwho.2.2.1, hwho.2.2.2.1⟩ fun v hv => ?_
  by_cases hvt : v = t
  · subst hvt
    exact Option.ne_none_iff_exists'.mp hstk
  · refine H.live v fun hd => hv ?_
    rw [h'.state, Abs.task_start, if_neg hvt, ← h.state]
    exact hd

structure Added (k : StkId) (t : TcbId) (p p' : Port) : Prop where
  os : p'.os = p.os
  incoming : p'.incoming = p.incoming
  stkPtr : p'.stkPtr = Function.update p.stkPtr t (some k)
  nbr : p'.nbrThreads = p.nbrThreads + 1
  thread : p'.thread = Function.update p.thread p.nbrThreads ⟨1, false, false⟩
  core : (fun x => (p'.osTask x).core) = fun x =>
    if x = k then (some t, .created, p.nbrThreads, some p.nbrThreads, some ⟨false, none⟩) else (p.osTask x).core

theorem wp_added {m : KW Unit} (h : Added k t p p') (hm : Keeps Port.cores m) :
    wp n cfg m (fun _ q => Added k t p q) p' := by
  refine (hm n cfg p').mono fun _ q hq => ?_
  simp only [Port.cores, Prod.mk.injEq] at hq
  obtain ⟨ho, hinc, hs, hn, ht, hc⟩ := hq
  exact ⟨ho.trans h.os, hinc.trans h.incoming, hs.trans h.stkPtr, hn.trans h.nbr, ht.trans h.thread, hc.trans h.core⟩

theorem osTaskSetUp_spec : wp n cfg (osTaskSetUp t k) (fun _ p' => Added k t p p') p := by
  rw [osTaskSetUp, wp_bind, osTaskStkInit, wp_modOSTask, wp_bind, wp_modify, osTaskCreateHook, wp_bind]
  refine wp.mono (osTaskGet_stkPtr (k := k) (by simp)) ?_
  rintro x q ⟨rfl, rfl⟩
  rw [wp_bind, wp_deref]
  rintro _ ⟨⟩
  rw [wp_bind, wp_modOSTask, wp_bind, createThread, wp_bind, wp_get, wp_bind, wp_modThread, wp_bind, wp_modify, wp_pure,
    wp_bind, wp_modOSTask, wp_bind, wp_modOSTask]
  refine wp_added ⟨rfl, rfl, rfl, rfl, ?_, ?_⟩ ?_
  · simp
  · funext x
    by_cases hx : x = k
    · subst hx
      simp [OSTask.core]
    · simp [hx]
  · refine keeps_bind keeps_get fun q => ?_
    cases q.osTaskListPtr with
    | none => exact keeps_bind (keeps_cores_modOSTask fun _ => rfl) fun _ => keeps_modify fun _ => rfl
    | some k1 =>
      refine keeps_bind (keeps_cores_modOSTask fun _ => rfl) fun _ => keeps_bind ?_ fun _ => keeps_modify fun _ => rfl
      exact keeps_cores_modOSTask fun _ => rfl

theorem Added.core_of_ne (hd : Added k t p p') {x : StkId} (hx : x ≠ k) : (p'.osTask x).core = (p.osTask x).core := by
  simpa [hx] using congrFun hd.core x

theorem Added.holds (hd : Added k t p p') (hfree : p.Free k) (hnone : ∀ x, ¬ p.Holds x t) {x : StkId}
    (hv : p.Holds x u) :
    x ≠ k ∧ p'.Holds x u := by
  have hx : x ≠ k := fun he => hv.live (he ▸ hfree)
  have hu : u ≠ t := fun he => hnone x (he ▸ hv)
  refine ⟨hx, hv.of_core (hd.core_of_ne hx) (by simp [hd.stkPtr, hu]) (by simp [hd.nbr]) ?_⟩
  rw [hd.thread, Function.update_of_ne (Nat.ne_of_lt hv.bound)]

theorem Added.new (hd : Added k t p p') : p'.Holds k t ∧ (p'.osTask k).taskState = .created ∧
    (p'.osTask k).threadID = p.nbrThreads := by
  have hc := congrFun hd.core k
  simp only [if_pos, OSTask.core, Prod.mk.injEq] at hc
  obtain ⟨htcb, hst, hid, hhandle, hsignal⟩ := hc
  refine ⟨⟨htcb, ?_, ?_, ?_, ?_, ?_, ?_⟩, hst, hid⟩
  · simp [hd.stkPtr, hst]
  · simp [Port.Free, hst]
  · rw [hhandle, hid]
  · rw [hid, hd.nbr]
    exact Nat.lt_succ_self _
  · rw [hid, hd.thread, hst, Function.update_self]
    rfl
  · rw [hsignal, hst]
    rfl

theorem Added.old (hd : Added k t p p') (h : p.Tasks) {x : StkId} (hx : x ≠ k) (hv : p'.Holds x u) :
    p.Holds x u ∧ (p'.osTask x).taskState = (p.osTask x).taskState ∧
      (p'.osTask x).threadID = (p.osTask x).threadID := by
  have hc := hd.core_of_ne hx
  exact ⟨h.holds ((OSTask.tcb_of_core hc).symm.trans hv.tcb), OSTask.state_of_core hc, OSTask.threadID_of_core hc⟩

theorem Port.Tasks.added (h : p.Tasks) (hd : Added k t p p') (hfree : p.Free k) (hnone : ∀ x, ¬ p.Holds x t) :
    p'.Tasks := by
  obtain ⟨hk, hst, hid⟩ := hd.new
  refine ⟨fun x => ?_, fun v x hx => ?_, fun x y v w hv hw he => ?_, fun i hi => ?_⟩
  · by_cases hx : x = k
    · subst hx
      exact .inr ⟨t, hk⟩
    · obtain ⟨hfree', hnone'⟩ | ⟨v, hv⟩ := h.each x
      · exact .inl ⟨hfree'.of_core (hd.core_of_ne hx), (OSTask.tcb_of_core (hd.core_of_ne hx)).trans hnone'⟩
      · exact .inr ⟨v, (hd.holds hfree hnone hv).2⟩
  · by_cases hv : v = t
    · subst hv
      rw [hd.stkPtr, Function.update_self] at hx
      cases hx
      exact hk.tcb
    · rw [hd.stkPtr, Function.update_of_ne hv] at hx
      exact (hd.holds hfree hnone (h.holds (h.own v x hx))).2.tcb
  · by_cases hx : x = k <;> by_cases hy : y = k
    · rw [hx, hy]
    · obtain ⟨hw', -, hid'⟩ := hd.old h hy hw
      rw [hx, hid, hid'] at he
      exact absurd he.symm (Nat.ne_of_lt hw'.bound)
    · obtain ⟨hv', -, hid'⟩ := hd.old h hx hv
      rw [hy, hid, hid'] at he
      exact absurd he (Nat.ne_of_lt hv'.bound)
    · obtain ⟨hv', -, hidx⟩ := hd.old h hx hv
      obtain ⟨hw', -, hidy⟩ := hd.old h hy hw
      exact h.inj x y v w hv' hw' (hidx.symm.trans (he.trans hidy))
  · by_cases hi' : i = p.nbrThreads
    · rw [hd.thread, hi', Function.update_self] at hi
      cases hi.1
    · rw [hd.thread, Function.update_of_ne hi'] at hi
      obtain ⟨x, v, hv, he⟩ := h.others i hi
      obtain ⟨hx, hv'⟩ := hd.holds hfree hnone hv
      exact ⟨x, v, hv', (hd.old h hx hv').2.2.trans he⟩

theorem PortInv.not_holds (H : PortInv cfg p) {j : StkId} (hi : p.MayCall j) (hstk : p.stkPtr t = none) (x : StkId) :
    ¬ p.Holds x t := by
  intro hx
  suffices hst : (p.osTask x).taskState ≠ .terminating by
    have h' := hx.stkPtr hst
    rw [hstk] at h'
    cases h'
  by_cases hrun : p.os.running = true
  · obtain ⟨k, v, ht⟩ := H.started hrun
    by_cases hxk : x = k
    · rw [hxk, (ht.running H.tasks hrun hi).1]
      decide
    · exact (ht.rest x t hx hxk).ne_terminating
  · rw [H.stopped (by simpa using hrun) x t hx]
    decide

theorem PortInv.setUp (H : PortInv cfg p) {j : StkId} (hi : p.MayCall j) (hstk : p.stkPtr t = none) (hfree : p.Free k) :
    wp n cfg (osTaskSetUp t k) (fun _ p' => PortInv cfg p') p := by
  refine osTaskSetUp_spec.mono fun _ q hd => ?_
  have hnone := H.not_holds hi hstk
  obtain ⟨hk, hst, -⟩ := hd.new
  refine ⟨hd.os ▸ H.kernel, hd.os ▸ H.calm, H.tasks.added hd hfree hnone, fun v hv => ?_, fun hrun x v hx => ?_,
    fun hrun => ?_, ?_⟩
  · by_cases hvt : v = t
    · exact ⟨k, by simp [hd.stkPtr, hvt]⟩
    · rw [hd.os] at hv
      simpa [hd.stkPtr, hvt] using H.live v hv
  · rw [hd.os] at hrun
    by_cases hxk : x = k
    · rw [hxk, hst]
    · obtain ⟨hx', hst', -⟩ := hd.old H.tasks hxk hx
      rw [hst', H.stopped hrun x v hx']
  · rw [hd.os] at hrun
    obtain ⟨kc, tc, ht⟩ := H.started hrun
    obtain ⟨hkc, hhold⟩ := hd.holds hfree hnone ht.holds
    refine ⟨kc, tc, hd.os ▸ ht.cur, hd.os ▸ ht.high, hhold, ?_, fun x v hx hne => ?_⟩
    · rw [(hd.old H.tasks hkc hhold).2.1, hd.os]
      exact ht.state
    · by_cases hxk : x = k
      · rw [hxk, hst]
        exact .inl rfl
      · obtain ⟨hx', hst', -⟩ := hd.old H.tasks hxk hx
        rw [hst']
        exact ht.rest x v hx' hne
  · rw [hd.incoming]
    exact H.incoming

end invariant

section steps

variable {s : OS} {a : Abs}

theorem PortInv.start (H : PortInv cfg p) (hstop : p.os.running = false) :
    wp n cfg osStartW32 (fun _ p' => PortInv cfg p') p := by
  obtain ⟨a, h, hI⟩ := H.kernel
  rw [osStartW32, wp_bind, wp_onPort, osStart, wp_bind, wp_get, wp_ite]
  refine ⟨fun hrun => absurd hrun (by simp [hstop]), fun _ => ?_⟩
  rw [wp_bind]
  refine (prioGetHighest_spec h.rdy).mono ?_
  rintro q o ⟨rfl, hbest⟩
  rw [wp_bind, wp_getRdyList]
  intro hq
  obtain ⟨t, ht⟩ : ∃ t, (a.ready q).head? = some t := ⟨_, List.head?_eq_some_head hbest.1⟩
  rw [h.head hq, ht, wp_bind, wp_modify, wp_pure, osStartHighRdy, wp_bind, wp_get, wp_bind, wp_deref]
  rintro _ ⟨⟩
  have hrdy : (p.os.tcb t).taskState = .rdy := (h.state t).trans (Abs.Best.ready ⟨ht, hbest.2⟩ hI)
  obtain ⟨k, hs⟩ := H.live t (by simp [hrdy])
  have hk := H.tasks.holds (H.tasks.own t k hs)
  have hst := H.stopped hstop k t hk
  have hrest : p.OthersWait k := fun x v hv _ => .inl (H.stopped hstop x v hv)
  rw [wp_bind]
  refine wp.mono (osTaskGet_stkPtr (by exact hs)) ?_
  rintro x q' ⟨rfl, rfl⟩
  rw [wp_bind, wp_deref]
  rintro _ ⟨⟩
  refine wp.mono (startThread_spec (holds_setOS.mpr hk) (by exact hst)) ?_
  rintro _ q' ⟨ho, hinc, hstk, htouch, hhold, hrun⟩
  obtain ⟨hT, hw⟩ := H.tasks.touched_one hk hrest htouch.of_setOS hhold
  have hrep : Rep cfg q'.os { a with cur := some t, prioCur := q, running := true } := by
    rw [ho]
    refine h.of_globals rfl rfl ?_
    exact (congrArg (fun x : Abs => { x with cur := some t, prioCur := q, running := true }) h.globals_eq :)
  refine .of_turn ⟨_, hrep, hI.congr rfl rfl rfl rfl rfl⟩ ?_ hT (fun v hv => ?_) ?_ ⟨?_, ?_, hhold, .inl hrun, hw⟩ ?_
  · rw [ho]
    exact H.calm
  · rw [ho] at hv
    rw [hstk]
    exact H.live v hv
  · rw [ho]
  · rw [ho]
  · rw [ho]
  · rw [hinc]
    exact H.incoming

theorem PortInv.sched (H : PortInv cfg p) (hrun : p.os.running = true) (hi : (p.thread i).Ready) :
    wp n cfg (osSchedW32 i) (fun _ p' => PortInv cfg p') p := by
  obtain ⟨a, h, hI⟩ := H.kernel
  obtain ⟨kc, tc, ht⟩ := H.started hrun
  rw [osSchedW32, wp_bind, wp_get, wp_ite]
  refine ⟨fun _ => wp_pure.mpr H, fun _ => wp_ite.mpr ⟨fun _ => wp_pure.mpr H, fun _ => ?_⟩⟩
  rw [wp_bind, wp_onPort]
  refine (prioGetHighest_spec h.rdy).mono ?_
  rintro q o ⟨rfl, hbest⟩
  rw [wp_bind, wp_onPort, wp_getRdyList]
  intro hq
  obtain ⟨t, hhead⟩ : ∃ t, (a.ready q).head? = some t := ⟨_, List.head?_eq_some_head hbest.1⟩
  have hrdy : (p.os.tcb t).taskState = .rdy := (h.state t).trans (Abs.Best.ready ⟨hhead, hbest.2⟩ hI)
  rw [h.head hq, hhead, wp_bind, wp_modify, wp_ite]
  constructor
  · intro hcur
    refine wp_pure.mpr ⟨⟨a, h.of_key rfl, hI⟩, H.calm, H.tasks.setOS, H.live, fun h' => ?_, fun _ => ?_, H.incoming⟩
    · exact absurd (hrun.symm.trans h') (by decide)
    · obtain rfl : t = tc := Option.some_inj.mp (hcur.trans ht.cur)
      exact ⟨kc, t, hcur.symm, rfl, holds_setOS.mpr ht.holds, ht.state, othersWait_setOS.mpr ht.rest⟩
  · intro hcur
    obtain ⟨kh, hs⟩ := H.live t (by simp [hrdy])
    have hh := H.tasks.holds (H.tasks.own t kh hs)
    have hne : kh ≠ kc := by
      rintro rfl
      exact hcur ((hh.tcb.symm.trans ht.holds.tcb).trans ht.cur.symm)
    refine wp.mono (osCtxSw_spec (H.tasks.setOS) (by exact ht.cur) (by rfl) (holds_setOS.mpr ht.holds)
      (by exact ht.state.imp_right And.left) (othersWait_setOS.mpr ht.rest) (holds_setOS.mpr hh) hne
      (by exact ht.thread_eq H.tasks hi)) ?_
    rintro _ q' ⟨ho, hinc, hstk, hT, hhold, hst, hw⟩
    have hrep : Rep cfg q'.os (a.switch q t) := by
      rw [ho]
      refine h.of_globals rfl rfl ?_
      rw [Abs.switch, if_neg fun e => hcur (e.symm.trans h.cur)]
      exact (congrArg (fun x : Abs => { x with cur := some t, prioCur := q }) h.globals_eq :)
    refine .of_turn ⟨_, hrep, hI.switch⟩ ?_ hT (fun v hv => ?_) ?_ ⟨?_, ?_, hhold, .inl hst, hw⟩ ?_
    · rw [ho]
      exact H.calm
    · rw [ho] at hv
      rw [hstk]
      exact H.live v hv
    · rw [ho]
      exact hrun
    · rw [ho]
    · rw [ho]
    · rw [hinc]
      intro st hst
      rcases List.mem_cons.mp hst with rfl | hst
      · exact ht.rest kh t hh hne
      · exact H.incoming st hst

theorem osIntCurTaskSuspend_spec (h : p.Tasks) (ht : p.Turn k t) : wp n cfg osIntCurTaskSuspend (fun b p' => b = true ∧
    p'.os = p.os ∧ p'.incoming = p.incoming ∧ p'.stkPtr = p.stkPtr ∧ p'.Tasks ∧
    ∀ x v, p'.Holds x v → (p'.osTask x).taskState.CanGoOn) p := by
  rw [osIntCurTaskSuspend, wp_bind, wp_get, wp_bind, wp_deref, ht.cur]
  rintro _ ⟨⟩
  rw [wp_bind]
  refine (osTaskGet_spec h).mono ?_
  rintro x q ⟨rfl, hx, -⟩
  rw [wp_bind, wp_deref]
  rintro y rfl
  obtain rfl : y = k := ht.holds.unique ht.rest (hx y rfl)
  rw [wp_bind, wp_getOSTask]
  have hc := ht.holds
  rcases ht.state with hst | ⟨hst, -, -⟩ <;> rw [hst] <;> dsimp only
  · rw [wp_bind]
    refine wp_suspendThread hc.handle ?_
    rw [wp_bind, wp_modOSTask, wp_pure]
    have hthread := hc.thread
    have hsignal := hc.signal
    rw [hst] at hthread hsignal
    have htouch : Touched (· = y) q ((q.modThread (q.osTask y).threadID
        fun c => { c with suspendCnt := c.suspendCnt + 1 }).modOSTask y
        fun c => { c with taskState := .interrupted }) :=
      (touched_modThread rfl).trans (touched_modOSTask fun _ => ⟨rfl, rfl, rfl⟩)
    have hold : Port.Holds ((q.modThread (q.osTask y).threadID
        fun c => { c with suspendCnt := c.suspendCnt + 1 }).modOSTask y
        fun c => { c with taskState := .interrupted }) y t := by
      refine ⟨?_, ?_, ?_, ?_, ?_, ?_, ?_⟩
      · simpa using hc.tcb
      · simpa using hc.stkPtr (by simp [hst])
      · simp [Port.Free]
      · simpa using hc.handle
      · simpa using hc.bound
      · simp [hthread, OSTaskState.thread]
      · simpa [OSTaskState.signal] using hsignal
    obtain ⟨hT, hw⟩ := h.touched_one hc ht.rest htouch hold
    refine ⟨rfl, rfl, rfl, rfl, hT, fun x v hv => ?_⟩
    by_cases hxy : x = y
    · simp [hxy, OSTaskState.CanGoOn]
    · exact hw x v hv hxy
  · rw [wp_bind]
    refine (osTaskKill_spec hc).mono ?_
    rintro _ q' ⟨ho, hinc, hs, hd⟩
    have hnone : q.stkPtr t = none := by rw [hc.stk, if_pos hst]
    rw [← hnone, Function.update_eq_self, ← hs] at hd
    refine wp_pure.mpr ⟨rfl, ho, hinc, hs, h.dropped hc hd fun x => hc.unique ht.rest, fun x v hv => ?_⟩
    obtain ⟨hxy, hv'⟩ := hd.old h hv
    rw [hd.state hxy]
    exact ht.rest x v hv' hxy

end steps

section interrupts

variable {s s' : OS} {a : Abs}

structure Ticked (cfg : Cfg) (s s' : OS) : Prop where
  kernel : ∃ a, Rep cfg s' a ∧ a.Sound cfg
  calm : s'.intNestingCtr = 0
  running : s'.running = s.running
  del : ∀ t, (s'.tcb t).taskState = .del ↔ (s.tcb t).taskState = .del
  who : 0 < s.schedLockNestingCtr ∧ s'.tcbCurPtr = s.tcbCurPtr ∧ s'.tcbHighRdyPtr = s.tcbHighRdyPtr ∨
    ∃ t, s'.tcbCurPtr = some t ∧ s'.tcbHighRdyPtr = some t ∧ (s'.tcb t).taskState = .rdy

theorem osIntExit_ticked {s₀ : OS} (h : Rep cfg s a) (hI : a.Sound cfg) (hrun : s₀.running = true)
    (hint : s₀.intNestingCtr = 0) (hsame : SameTasks { s₀ with intNestingCtr := s₀.intNestingCtr + 1 } s)
    (hhigh : s.tcbHighRdyPtr = s₀.tcbHighRdyPtr) : wp n cfg osIntExit (fun _ s' => Ticked cfg s₀ s') s := by
  have hrun' : s.running = true := hsame.running.trans hrun
  have hint' : s.intNestingCtr = 1 := hsame.intNesting.trans (by simp [hint])
  have h₁ : Rep cfg { s with intNestingCtr := s.intNestingCtr - 1 } { a with intNesting := a.intNesting - 1 } := by
    refine h.of_globals rfl rfl ?_
    rw [h.intNesting]
    exact (congrArg (fun x : Abs => { x with intNesting := s.intNestingCtr - 1 }) h.globals_eq :)
  have hI₁ : Abs.Sound cfg { a with intNesting := a.intNesting - 1 } := hI.congr rfl rfl rfl rfl rfl
  rw [osIntExit, wp_bind, wp_get, wp_ite]
  refine ⟨fun h' => absurd (hrun'.symm.trans h') (by decide), fun _ => wp_ite.mpr ⟨fun h' => by omega, fun _ => ?_⟩⟩
  rw [wp_bind, wp_modify, wp_ite]
  refine ⟨fun h' => by omega, fun _ => wp_ite.mpr ⟨fun hlock => wp_pure.mpr ?_, fun _ => ?_⟩⟩
  · refine ⟨⟨_, h₁, hI₁⟩, by simp [hint'], hsame.running, hsame.del, .inl ⟨?_, hsame.cur, hhigh⟩⟩
    have hl : s.schedLockNestingCtr = s₀.schedLockNestingCtr := hsame.lockNesting
    omega
  · have hkeep := keeps_reschedule (v := fun x : OS => (x.intNestingCtr, x.running, fun t => (x.tcb t).taskState))
      (fun _ _ _ => rfl) (fun _ _ _ => rfl)
    refine ((reschedule_best h₁).and (hkeep n cfg _)).mono ?_
    rintro _ s' ⟨⟨q, t, hb, hcur, hhigh', h'⟩, hk⟩
    simp only [Prod.mk.injEq] at hk
    obtain ⟨hint'', hrun'', hst⟩ := hk
    refine ⟨⟨_, h', hI₁.switch⟩, hint''.trans (by simp [hint']), hrun''.trans hsame.running, fun v => ?_,
      .inr ⟨t, hcur, hhigh', ?_⟩⟩
    · rw [congrFun hst v]
      exact hsame.del v
    · rw [congrFun hst t]
      exact (h₁.state t).trans (hb.ready hI₁)

theorem PortInv.tick (H : PortInv cfg p) (hrun : p.os.running = true) :
    wp n cfg osTickW32 (fun _ p' => PortInv cfg p') p := by
  obtain ⟨a, h, hI⟩ := H.kernel
  obtain ⟨kc, tc, ht⟩ := H.started hrun
  rw [osTickW32, wp_bind]
  refine (osIntCurTaskSuspend_spec H.tasks ht).mono ?_
  rintro b q ⟨rfl, ho, hinc, hstk, hT, hall⟩
  rw [if_pos rfl, wp_bind, wp_onPort, osIntEnter, wp_bind, wp_get, wp_ite]
  refine ⟨fun h' => ?_, fun _ => wp_ite.mpr ⟨fun h' => ?_, fun _ => ?_⟩⟩
  · rw [ho, hrun] at h'
    cases h'
  · rw [ho, H.calm] at h'
    omega
  rw [wp_modify, wp_bind, wp_onPort]
  have h₁ : Rep cfg { q.os with intNestingCtr := q.os.intNestingCtr + 1 }
      { a with intNesting := a.intNesting + 1 } := by
    rw [ho]
    refine h.of_globals rfl rfl ?_
    rw [h.intNesting]
    exact (congrArg (fun x : Abs => { x with intNesting := p.os.intNestingCtr + 1 }) h.globals_eq :)
  have hI₁ : Abs.Sound cfg { a with intNesting := a.intNesting + 1 } := hI.congr rfl rfl rfl rfl rfl
  refine ((osTimeTick_acts h₁ hI₁ (Nat.succ_pos _)).and (keeps_held_osTimeTick n cfg _)).mono ?_
  rintro _ o₂ ⟨⟨a₂, h₂, hacts⟩, hheld⟩
  have hsame := SameTasks.of_acts h₁ h₂ hacts
  have hhigh : o₂.tcbHighRdyPtr = q.os.tcbHighRdyPtr := by
    have hint : o₂.intNestingCtr = q.os.intNestingCtr + 1 := hsame.intNesting
    simpa [OS.heldHigh, hint] using hheld
  rw [wp_bind, wp_onPort]
  refine (osIntExit_ticked h₂ (hI₁.acts hacts) (by rw [ho]; exact hrun) (by rw [ho]; exact H.calm) hsame hhigh).mono ?_
  intro _ o₃ hticked
  rw [ho] at hticked
  -- the task to go on with has a stack pointer: it is ready, or it is the one that was stopped
  obtain ⟨t, k, hcur₃, hhigh₃, hs⟩ :
      ∃ t k, o₃.tcbCurPtr = some t ∧ o₃.tcbHighRdyPtr = some t ∧ p.stkPtr t = some k := by
    rcases hticked.who with ⟨hlock, hcur, hhigh⟩ | ⟨t, hcur, hhigh, hrdy⟩
    · refine ⟨tc, kc, hcur.trans ht.cur, hhigh.trans ht.high, ht.holds.stkPtr fun hst => ?_⟩
      rcases ht.state with h' | ⟨-, h', -⟩
      · rw [hst] at h'
        cases h'
      · omega
    · obtain ⟨k, hs⟩ := H.live t (mt (hticked.del t).mpr (by simp [hrdy]))
      exact ⟨t, k, hcur, hhigh, hs⟩
  rw [← hstk] at hs
  have hk := hT.holds (hT.own t k hs)
  change wp n cfg (osIntCurTaskResume >>= fun _ => pure ()) _ { q with os := o₃ }
  rw [osIntCurTaskResume, wp_bind, wp_bind, wp_get, wp_bind, wp_deref]
  rintro v hv
  obtain rfl : t = v := Option.some_inj.mp (hhigh₃.symm.trans hv)
  rw [wp_bind]
  refine wp.mono (osTaskGet_stkPtr (by exact hs)) ?_
  rintro x q' ⟨rfl, rfl⟩
  rw [wp_bind, wp_deref]
  rintro _ ⟨⟩
  refine wp.mono (goOn_alone hT.setOS (holds_setOS.mpr hk) (by exact hall k t hk)
    (othersWait_setOS.mpr fun x v hv _ => hall x v hv)) ?_
  rintro b q' ⟨-, ho', hinc', hstk', hT', hhold, hst, hw⟩
  refine wp_pure.mpr (.of_turn ?_ ?_ hT' (fun v hv => ?_) ?_ ⟨?_, ?_, hhold, .inl hst, hw⟩ ?_)
  · rw [ho']
    exact hticked.kernel
  · rw [ho']
    exact hticked.calm
  · rw [ho'] at hv
    rw [hstk']
    change ∃ k, q.stkPtr v = some k
    rw [hstk]
    exact H.live v (mt (hticked.del v).mpr hv)
  · rw [ho']
    exact hticked.running.trans hrun
  · rw [ho']
    exact hcur₃
  · rw [ho']
    exact hhigh₃
  · rw [hinc']
    intro st hst
    rcases List.mem_cons.mp hst with rfl | hst
    · exact hall k t hk
    · exact H.incoming st (hinc ▸ hst)

end interrupts

end UcosIII
