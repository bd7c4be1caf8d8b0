import UcosIII.Kernel.Port

namespace UcosIII

open Prog

variable {n : ℕ} {cfg : Cfg} {p p' p'' : Port} {t u : TcbId} {k : StkId} {i : ThreadId} {st : OSTaskState}
  {X : StkId → Prop}

section tasks

def WinThread.Ready (c : WinThread) : Prop := c.suspendCnt = 0 ∧ c.waits = false ∧ c.exited = false

def Port.Free (p : Port) (k : StkId) : Prop := (p.osTask k).taskState = .none ∨ (p.osTask k).taskState = .terminated

def OSTaskState.thread : OSTaskState → WinThread
  | created | interrupted => ⟨1, false, false⟩
  | suspended => ⟨0, true, false⟩
  | running | terminating => ⟨0, false, false⟩
  | none | terminated => ⟨0, false, true⟩

/-- The signal of a task in that state, which its thread `i` waits for if it is suspended. -/
def OSTaskState.signal (i : ThreadId) : OSTaskState → WinEvent
  | suspended => ⟨false, some i⟩
  | _ => ⟨false, .none⟩

def OSTaskState.CanGoOn (st : OSTaskState) : Prop := st = created ∨ st = suspended ∨ st = interrupted

theorem OSTaskState.CanGoOn.not_ready (h : st.CanGoOn) : ¬ st.thread.Ready := by
  rcases h with rfl | rfl | rfl <;> simp [thread, WinThread.Ready]

/-- The record at `k` is that of `t`, and the thread and the signal are as its state says. -/
structure Port.Holds (p : Port) (k : StkId) (t : TcbId) : Prop where
  tcb : (p.osTask k).ostcbPtr = some t
  stk : p.stkPtr t = if (p.osTask k).taskState = .terminating then none else some k
  live : ¬ p.Free k
  handle : (p.osTask k).threadHandle = some (p.osTask k).threadID
  bound : (p.osTask k).threadID < p.nbrThreads
  thread : p.thread (p.osTask k).threadID = (p.osTask k).taskState.thread
  signal : (p.osTask k).signalPtr = some ((p.osTask k).taskState.signal (p.osTask k).threadID)

structure Port.Tasks (p : Port) : Prop where
  each : ∀ k, p.Free k ∧ (p.osTask k).ostcbPtr = none ∨ ∃ t, p.Holds k t
  own : ∀ t k, p.stkPtr t = some k → (p.osTask k).ostcbPtr = some t
  inj : ∀ k k' t t', p.Holds k t → p.Holds k' t' → (p.osTask k).threadID = (p.osTask k').threadID → k = k'
  others : ∀ i, (p.thread i).Ready → ∃ k t, p.Holds k t ∧ (p.osTask k).threadID = i

theorem Port.Tasks.holds (h : p.Tasks) (hk : (p.osTask k).ostcbPtr = some t) : p.Holds k t := by
  obtain ⟨-, hnone⟩ | ⟨u, hu⟩ := h.each k
  · rw [hnone] at hk
    cases hk
  · have htu := hu.tcb
    rw [hk] at htu
    cases htu
    exact hu

theorem Port.Holds.stkPtr (h : p.Holds k t) (hst : (p.osTask k).taskState ≠ .terminating) : p.stkPtr t = some k := by
  rw [h.stk, if_neg hst]

/-- Only the records in `X`, their threads and the stack pointers of their tasks may have changed. -/
structure Touched (X : StkId → Prop) (p p' : Port) : Prop where
  stkPtr : ∀ t, (∀ k, X k → (p.osTask k).ostcbPtr ≠ some t) → p'.stkPtr t = p.stkPtr t
  nbr : p'.nbrThreads = p.nbrThreads
  tcb : ∀ k, (p'.osTask k).ostcbPtr = (p.osTask k).ostcbPtr
  threadID : ∀ k, (p'.osTask k).threadID = (p.osTask k).threadID
  handle : ∀ k, (p'.osTask k).threadHandle = (p.osTask k).threadHandle
  other : ∀ k, ¬ X k → (p'.osTask k).taskState = (p.osTask k).taskState ∧
    (p'.osTask k).signalPtr = (p.osTask k).signalPtr
  thread : ∀ j, (∀ k, X k → j ≠ (p.osTask k).threadID) → p'.thread j = p.thread j

theorem Touched.of_os (hs : p'.stkPtr = p.stkPtr) (hn : p'.nbrThreads = p.nbrThreads) (ho : p'.osTask = p.osTask)
    (ht : p'.thread = p.thread) : Touched X p p' := by
  refine ⟨fun t _ => by rw [hs], hn, ?_, ?_, ?_, ?_, fun j _ => by rw [ht]⟩ <;> intro k <;> simp [ho]

theorem Touched.of_setOS {o : OS} (h : Touched X { p with os := o } p') : Touched X p p' :=
  ⟨h.stkPtr, h.nbr, h.tcb, h.threadID, h.handle, h.other, h.thread⟩

theorem Touched.trans (h : Touched X p p') (h' : Touched X p' p'') : Touched X p p'' where
  stkPtr t ht := (h'.stkPtr t fun k hk => h.tcb k ▸ ht k hk).trans (h.stkPtr t ht)
  nbr := h'.nbr.trans h.nbr
  tcb k := (h'.tcb k).trans (h.tcb k)
  threadID k := (h'.threadID k).trans (h.threadID k)
  handle k := (h'.handle k).trans (h.handle k)
  other k hk := ⟨(h'.other k hk).1.trans (h.other k hk).1, (h'.other k hk).2.trans (h.other k hk).2⟩
  thread j hj := (h'.thread j fun k hk => h.threadID k ▸ hj k hk).trans (h.thread j hj)

theorem Touched.mono {Y : StkId → Prop} (h : Touched X p p') (hK : ∀ k, X k → Y k) : Touched Y p p' where
  stkPtr t ht := h.stkPtr t fun k hk => ht k (hK k hk)
  nbr := h.nbr
  tcb := h.tcb
  threadID := h.threadID
  handle := h.handle
  other k hk := h.other k fun hk' => hk (hK k hk')
  thread j hj := h.thread j fun k hk => hj k (hK k hk)

theorem Touched.holds (ht : Touched X p p') (h : p.Tasks) (hk : ¬ X k) (hh : p.Holds k t)
    (hK : ∀ x, X x → ∃ v, p.Holds x v) (hstk : ∀ x, X x → (p.osTask x).ostcbPtr ≠ some t) : p'.Holds k t := by
  obtain ⟨hst, hsig⟩ := ht.other k hk
  refine ⟨(ht.tcb k).trans hh.tcb, ?_, ?_, ?_, ?_, ?_, ?_⟩
  · rw [ht.stkPtr t hstk, hst, hh.stk]
  · rw [Port.Free, hst]
    exact hh.live
  · rw [ht.handle, ht.threadID, hh.handle]
  · rw [ht.threadID, ht.nbr]
    exact hh.bound
  · rw [ht.threadID, hst, ht.thread, hh.thread]
    intro x hx heq
    obtain ⟨v, hv⟩ := hK x hx
    exact hk (h.inj k x t v hh hv heq ▸ hx)
  · rw [hsig, hst, ht.threadID, hh.signal]

theorem Port.Tasks.touched (h : p.Tasks) (ht : Touched X p p') (hK : ∀ k, X k → ∃ t, p'.Holds k t)
    (hstk : ∀ k t x, ¬ X k → p.Holds k t → X x → (p.osTask x).ostcbPtr ≠ some t) : p'.Tasks := by
  have hold (x : StkId) (v : TcbId) (hv : p'.Holds x v) : p.Holds x v := h.holds ((ht.tcb x).symm.trans hv.tcb)
  have hK' (x : StkId) (hx : X x) : ∃ v, p.Holds x v := (hK x hx).imp fun v => hold x v
  have hnew (x : StkId) (v : TcbId) (hv : p.Holds x v) : p'.Holds x v := by
    by_cases hx : X x
    · obtain ⟨w, hw⟩ := hK x hx
      have hvw := hv.tcb
      rw [(hold x w hw).tcb] at hvw
      cases hvw
      exact hw
    · exact ht.holds h hx hv hK' fun y hy => hstk x v y hx hv hy
  refine ⟨fun k => ?_, fun t k hk => ?_, fun k k' t t' hk hk' he => ?_, fun i hi => ?_⟩
  · obtain ⟨hfree, hnone⟩ | ⟨t, hk⟩ := h.each k
    · have hk : ¬ X k := fun hk => by
        obtain ⟨v, hv⟩ := hK' k hk
        exact hv.live hfree
      refine .inl ⟨?_, (ht.tcb k).trans hnone⟩
      rw [Port.Free, (ht.other k hk).1]
      exact hfree
    · exact .inr ⟨t, hnew k t hk⟩
  · by_cases hx : ∃ x, X x ∧ (p.osTask x).ostcbPtr = some t
    · obtain ⟨x, hx, hxt⟩ := hx
      have hh := (hnew x t (h.holds hxt))
      have hs := hh.stk
      rw [hk] at hs
      split at hs
      · cases hs
      · cases hs
        exact hh.tcb
    · rw [ht.stkPtr t fun x hx' hxt => hx ⟨x, hx', hxt⟩] at hk
      rw [ht.tcb]
      exact h.own t k hk
  · rw [ht.threadID, ht.threadID] at he
    exact h.inj k k' t t' (hold k t hk) (hold k' t' hk') he
  · by_cases hx : ∃ x, X x ∧ i = (p.osTask x).threadID
    · obtain ⟨x, hx, rfl⟩ := hx
      obtain ⟨v, hv⟩ := hK x hx
      exact ⟨x, v, hv, ht.threadID x⟩
    · rw [ht.thread i fun x hx' he => hx ⟨x, hx', he⟩] at hi
      obtain ⟨k, t, hk, he⟩ := h.others i hi
      exact ⟨k, t, hnew k t hk, (ht.threadID k).trans he⟩

end tasks

section programs

variable {f : OSTask → OSTask} {g : WinThread → WinThread} {α : Type}

theorem wp_onPort {m : K α} {Q : α → Port → Prop} :
    wp n cfg (onPort m) Q p ↔ wp n cfg m (fun a o => Q a { p with os := o }) p.os := wp_zoom

@[simp] theorem Port.osTask_modOSTask : (p.modOSTask k f).osTask = Function.update p.osTask k (f (p.osTask k)) := rfl

@[simp] theorem Port.thread_modOSTask : (p.modOSTask k f).thread = p.thread := rfl

@[simp] theorem Port.stkPtr_modOSTask : (p.modOSTask k f).stkPtr = p.stkPtr := rfl

@[simp] theorem Port.nbrThreads_modOSTask : (p.modOSTask k f).nbrThreads = p.nbrThreads := rfl

@[simp] theorem Port.stkPtr_modThread : (p.modThread i g).stkPtr = p.stkPtr := rfl

@[simp] theorem Port.incoming_modOSTask : (p.modOSTask k f).incoming = p.incoming := rfl

@[simp] theorem Port.incoming_modThread : (p.modThread i g).incoming = p.incoming := rfl

@[simp] theorem Port.nbrThreads_modThread : (p.modThread i g).nbrThreads = p.nbrThreads := rfl

@[simp] theorem Port.osTask_modThread : (p.modThread i g).osTask = p.osTask := rfl

@[simp] theorem Port.thread_modThread : (p.modThread i g).thread = Function.update p.thread i (g (p.thread i)) := rfl

@[simp] theorem wp_getOSTask {Q : OSTask → Port → Prop} : wp n cfg (getOSTask k) Q p ↔ Q (p.osTask k) p := by
  simp [getOSTask]

@[simp] theorem wp_modOSTask {Q : Unit → Port → Prop} : wp n cfg (modOSTask k f) Q p ↔ Q () (p.modOSTask k f) :=
  wp_modify

@[simp] theorem wp_modThread {Q : Unit → Port → Prop} : wp n cfg (modThread i g) Q p ↔ Q () (p.modThread i g) :=
  wp_modify

theorem wp_resumeThread {h : Option ThreadId} {Q : Unit → Port → Prop} (hh : h = some i)
    (hQ : Q () (p.modThread i fun c => { c with suspendCnt := c.suspendCnt - 1 })) : wp n cfg (resumeThread h) Q p := by
  subst hh
  simpa [resumeThread] using hQ

theorem wp_suspendThread {h : Option ThreadId} {Q : Unit → Port → Prop} (hh : h = some i)
    (hQ : Q () (p.modThread i fun c => { c with suspendCnt := c.suspendCnt + 1 })) :
    wp n cfg (suspendThread h) Q p := by
  subst hh
  simpa [suspendThread] using hQ

theorem setSignal_kept {b : Bool} {Q : Unit → Port → Prop} (he : (p.osTask k).signalPtr = some ⟨b, none⟩)
    (hQ : Q () (p.modOSTask k fun c => { c with signalPtr := some ⟨true, none⟩ })) : wp n cfg (setSignal k) Q p := by
  rw [setSignal, wp_bind, wp_getOSTask, wp_bind, wp_deref, he]
  rintro _ ⟨⟩
  exact wp_modOSTask.mpr hQ

theorem setSignal_wakes {b : Bool} {Q : Unit → Port → Prop} (he : (p.osTask k).signalPtr = some ⟨b, some i⟩)
    (hQ : Q () ((p.modOSTask k fun c => { c with signalPtr := some ⟨b, none⟩ }).modThread i fun c =>
      { c with waits := false })) : wp n cfg (setSignal k) Q p := by
  rw [setSignal, wp_bind, wp_getOSTask, wp_bind, wp_deref, he]
  rintro _ ⟨⟩
  exact wp_bind.mpr (wp_modOSTask.mpr (wp_modThread.mpr hQ))

theorem waitSignal_kept {w : Option ThreadId} {Q : Unit → Port → Prop} (he : (p.osTask k).signalPtr = some ⟨true, w⟩)
    (hQ : Q () (p.modOSTask k fun c => { c with signalPtr := some ⟨false, w⟩ })) : wp n cfg (waitSignal i k) Q p := by
  rw [waitSignal, wp_bind, wp_getOSTask, wp_bind, wp_deref, he]
  rintro _ ⟨⟩
  exact wp_ite.mpr ⟨fun _ => wp_modOSTask.mpr hQ, fun h => absurd rfl h⟩

theorem waitSignal_waits {w : Option ThreadId} {Q : Unit → Port → Prop} (he : (p.osTask k).signalPtr = some ⟨false, w⟩)
    (hQ : Q () ((p.modOSTask k fun c => { c with signalPtr := some ⟨false, some i⟩ }).modThread i
      fun c => { c with waits := true })) : wp n cfg (waitSignal i k) Q p := by
  rw [waitSignal, wp_bind, wp_getOSTask, wp_bind, wp_deref, he]
  rintro _ ⟨⟩
  exact wp_ite.mpr ⟨fun h => (by cases h), fun _ => wp_bind.mpr (wp_modOSTask.mpr (wp_modThread.mpr hQ))⟩

theorem osTaskGet_spec (h : p.Tasks) : wp n cfg (osTaskGet t) (fun x p' => p' = p ∧ (∀ k, x = some k → p.Holds k t) ∧
    ∀ k, p.stkPtr t = some k → x = some k) p := by
  rw [osTaskGet.eq_def, wp_bind, wp_get]
  cases hs : p.stkPtr t with
  | some k =>
    refine wp_pure.mpr ⟨rfl, ?_, fun _ h' => h'⟩
    rintro _ ⟨⟩
    exact h.holds (h.own t k hs)
  | none =>
    refine wp_loop (fun _ q => q = p) ?_ rfl
    rintro x q rfl
    cases x with
    | none => exact wp_pure.mpr ⟨rfl, by simp, by simp⟩
    | some k =>
      rw [osTaskGetStep, wp_bind, wp_getOSTask, wp_ite]
      constructor
      · intro hk
        refine wp_pure.mpr ⟨rfl, ?_, by simp⟩
        rintro _ ⟨⟩
        exact h.holds hk
      · exact fun _ => wp_pure.mpr rfl

theorem osTaskGet_stkPtr (hs : p.stkPtr t = some k) : wp n cfg (osTaskGet t) (fun x p' => x = some k ∧ p' = p) p := by
  rw [osTaskGet.eq_def, wp_bind, wp_get, hs]
  exact wp_pure.mpr ⟨rfl, rfl⟩

theorem touched_modOSTask
    (hf : ∀ c, (f c).ostcbPtr = c.ostcbPtr ∧ (f c).threadID = c.threadID ∧ (f c).threadHandle = c.threadHandle) :
    Touched (· = k) p (p.modOSTask k f) := by
  have hrec (x : StkId) : (Function.update p.osTask k (f (p.osTask k)) x).ostcbPtr = (p.osTask x).ostcbPtr ∧
      (Function.update p.osTask k (f (p.osTask k)) x).threadID = (p.osTask x).threadID ∧
      (Function.update p.osTask k (f (p.osTask k)) x).threadHandle = (p.osTask x).threadHandle := by
    by_cases hx : x = k
    · subst hx
      simpa using hf (p.osTask x)
    · simp [hx]
  refine ⟨fun _ _ => rfl, rfl, fun x => (hrec x).1, fun x => (hrec x).2.1, fun x => (hrec x).2.2, fun x hx => ?_,
    fun _ _ => rfl⟩
  simp [show x ≠ k from hx]

theorem touched_modThread (hi : i = (p.osTask k).threadID) : Touched (· = k) p (p.modThread i g) := by
  refine ⟨fun _ _ => rfl, rfl, fun _ => rfl, fun _ => rfl, fun _ => rfl, fun _ _ => ⟨rfl, rfl⟩, fun j hj => ?_⟩
  have hj := hj k rfl
  rw [← hi] at hj
  simp [hj]

theorem touched_mod
    (hf : ∀ c, (f c).ostcbPtr = c.ostcbPtr ∧ (f c).threadID = c.threadID ∧ (f c).threadHandle = c.threadHandle)
    (hi : i = (p.osTask k).threadID) : Touched (· = k) p ((p.modOSTask k f).modThread i g) :=
  (touched_modOSTask hf).trans (touched_modThread (by simp [hi, hf]))

theorem startThread_spec (h : p.Holds k t) (hst : (p.osTask k).taskState = .created) :
    wp n cfg (startThread k t) (fun _ p' => p'.os = p.os ∧ p'.incoming = p.incoming ∧ p'.stkPtr = p.stkPtr ∧
      Touched (· = k) p p' ∧ p'.Holds k t ∧ (p'.osTask k).taskState = .running) p := by
  have hs := h.stkPtr (by simp [hst])
  have hthread := h.thread
  have hsignal := h.signal
  rw [hst] at hthread hsignal
  rw [startThread, wp_bind, wp_getOSTask, wp_bind]
  refine wp_resumeThread h.handle ?_
  rw [wp_bind]
  refine setSignal_kept (b := false) hsignal ?_
  rw [osTaskW32, wp_bind]
  refine (osTaskGet_stkPtr (p := (p.modThread _ _).modOSTask _ _) hs).mono ?_
  rintro x q ⟨rfl, rfl⟩
  rw [wp_bind, wp_deref]
  rintro _ ⟨⟩
  rw [wp_bind, wp_modOSTask, wp_bind]
  refine waitSignal_kept (w := none) (by simp) ?_
  rw [wp_modOSTask]
  have he : ∀ q : Port, q = ((p.modOSTask k fun c =>
      { c with signalPtr := some ⟨false, none⟩, taskState := .running, initSignalPtr := some ⟨true, none⟩ }).modThread
        (p.osTask k).threadID fun c => { c with suspendCnt := c.suspendCnt - 1 }) → q.os = p.os ∧
      q.incoming = p.incoming ∧ q.stkPtr = p.stkPtr ∧ Touched (· = k) p q ∧ q.Holds k t ∧
      (q.osTask k).taskState = .running := by
    rintro q rfl
    refine ⟨rfl, rfl, rfl, touched_mod (fun _ => ⟨rfl, rfl, rfl⟩) rfl, ⟨?_, ?_, ?_, ?_, ?_, ?_, ?_⟩, by simp⟩
    · simpa using h.tcb
    · simpa using hs
    · simp [Port.Free]
    · simpa using h.handle
    · simpa using h.bound
    · simp [hthread, OSTaskState.thread]
    · simp [OSTaskState.signal]
  refine he _ ?_
  simp [Port.modOSTask, Port.modThread]

theorem goOn_spec (h : p.Holds k t) (hst : (p.osTask k).taskState.CanGoOn) :
    wp n cfg (goOn k t) (fun x p' => x = true ∧ p'.os = p.os ∧ p'.incoming = (p.osTask k).taskState :: p.incoming ∧
      p'.stkPtr = p.stkPtr ∧ Touched (· = k) p p' ∧ p'.Holds k t ∧ (p'.osTask k).taskState = .running) p := by
  have hs : p.stkPtr t = some k := h.stkPtr (by rcases hst with h | h | h <;> simp [h])
  have hthread := h.thread
  have hsignal := h.signal
  rw [goOn.eq_def, wp_bind, wp_getOSTask, wp_bind, wp_modify]
  rcases hst with hst | hst | hst <;> rw [hst] at hthread hsignal ⊢ <;> dsimp only
  · rw [wp_bind]
    have h' : Port.Holds { p with incoming := .created :: p.incoming } k t :=
      ⟨h.tcb, h.stk, h.live, h.handle, h.bound, h.thread, h.signal⟩
    refine (startThread_spec h' hst).mono ?_
    rintro _ q ⟨ho, hinc, hstk, ht, hq⟩
    have ht' : Touched (· = k) p q :=
      Touched.trans (.of_os rfl rfl rfl rfl : Touched _ p { p with incoming := .created :: p.incoming }) ht
    exact wp_pure.mpr ⟨rfl, ho, hinc, hstk, ht', hq⟩
  · rw [wp_bind, wp_modOSTask, wp_bind]
    refine setSignal_wakes (b := false) (i := (p.osTask k).threadID) (by simpa [OSTaskState.signal] using hsignal) ?_
    rw [wp_pure]
    refine ⟨rfl, rfl, rfl, rfl, ?_, ⟨?_, ?_, ?_, ?_, ?_, ?_, ?_⟩, by simp⟩
    · refine Touched.trans (.of_os rfl rfl rfl rfl : Touched _ p { p with incoming := .suspended :: p.incoming }) ?_
      have ht := touched_mod (p := { p with incoming := .suspended :: p.incoming }) (k := k)
        (i := (p.osTask k).threadID)
        (f := fun c => { c with taskState := .running, signalPtr := some ⟨false, none⟩ })
        (g := fun c => { c with waits := false }) (fun _ => ⟨rfl, rfl, rfl⟩) rfl
      simpa [Port.modOSTask, Port.modThread] using ht
    · simpa using h.tcb
    · simpa using hs
    · simp [Port.Free]
    · simpa using h.handle
    · simpa using h.bound
    · simp [hthread, OSTaskState.thread]
    · simp [OSTaskState.signal]
  · rw [wp_bind, wp_modOSTask, wp_bind]
    refine wp_resumeThread h.handle (wp_pure.mpr ?_)
    refine ⟨rfl, rfl, rfl, rfl, ?_, ⟨?_, ?_, ?_, ?_, ?_, ?_, ?_⟩, by simp⟩
    · refine Touched.trans (.of_os rfl rfl rfl rfl : Touched _ p { p with incoming := .interrupted :: p.incoming }) ?_
      exact touched_mod (fun _ => ⟨rfl, rfl, rfl⟩) rfl
    · simpa using h.tcb
    · simpa using hs
    · simp [Port.Free]
    · simpa using h.handle
    · simpa using h.bound
    · simp [hthread, OSTaskState.thread]
    · simpa [OSTaskState.signal] using hsignal

end programs

section records

variable {f : OSTask → OSTask} {g : WinThread → WinThread}

def OSTask.core (c : OSTask) := (c.ostcbPtr, c.taskState, c.threadID, c.threadHandle, c.signalPtr)

theorem OSTask.tcb_of_core {c c' : OSTask} (h : c'.core = c.core) : c'.ostcbPtr = c.ostcbPtr := congrArg (·.1) h

theorem OSTask.state_of_core {c c' : OSTask} (h : c'.core = c.core) : c'.taskState = c.taskState := congrArg (·.2.1) h

theorem OSTask.threadID_of_core {c c' : OSTask} (h : c'.core = c.core) : c'.threadID = c.threadID :=
  congrArg (·.2.2.1) h

theorem Port.Free.of_core (h : p.Free k) (hc : (p'.osTask k).core = (p.osTask k).core) : p'.Free k := by
  rw [Port.Free, OSTask.state_of_core hc]
  exact h

def Port.cores (p : Port) := (p.os, p.incoming, p.stkPtr, p.nbrThreads, p.thread, fun k => (p.osTask k).core)

theorem keeps_cores_modOSTask (hf : ∀ c, (f c).core = c.core) : Keeps Port.cores (modOSTask k f) := by
  refine keeps_modify fun q => ?_
  simp only [Port.cores, Port.modOSTask, Prod.mk.injEq, true_and]
  funext x
  by_cases hx : x = k
  · subst hx
    simp [hf]
  · simp [hx]

theorem Port.Holds.of_core (h : p.Holds k t) (hc : (p'.osTask k).core = (p.osTask k).core)
    (hs : p'.stkPtr t = p.stkPtr t) (hn : p.nbrThreads ≤ p'.nbrThreads)
    (ht : p'.thread (p.osTask k).threadID = p.thread (p.osTask k).threadID) :
    p'.Holds k t := by
  simp only [OSTask.core, Prod.mk.injEq] at hc
  obtain ⟨htcb, hst, hid, hhandle, hsignal⟩ := hc
  refine ⟨htcb.trans h.tcb, ?_, ?_, ?_, ?_, ?_, ?_⟩
  · rw [hs, hst, h.stk]
  · rw [Port.Free, hst]
    exact h.live
  · rw [hhandle, hid, h.handle]
  · rw [hid]
    exact Nat.lt_of_lt_of_le h.bound hn
  · rw [hid, hst, ht, h.thread]
  · rw [hsignal, hst, hid, h.signal]

structure Dropped (k : StkId) (t : TcbId) (p p' : Port) : Prop where
  gone : (p'.osTask k).ostcbPtr = none ∧ p'.Free k
  dead : ¬ (p'.thread (p.osTask k).threadID).Ready
  stk : p'.stkPtr t = none
  core : ∀ x ≠ k, (p'.osTask x).core = (p.osTask x).core
  thread : ∀ j ≠ (p.osTask k).threadID, p'.thread j = p.thread j
  stkPtr : ∀ v ≠ t, p'.stkPtr v = p.stkPtr v
  nbr : p'.nbrThreads = p.nbrThreads

theorem Dropped.holds (hd : Dropped k t p p') (h : p.Tasks) (hk : p.Holds k t) {x : StkId} (hx : x ≠ k)
    (hv : p.Holds x u) (hne : u ≠ t) : p'.Holds x u :=
  hv.of_core (hd.core x hx) (hd.stkPtr u hne) hd.nbr.ge (hd.thread _ fun he => hx (h.inj x k u t hv hk he))

theorem Dropped.old (hd : Dropped k t p p') (h : p.Tasks) {x : StkId} (hv : p'.Holds x u) : x ≠ k ∧ p.Holds x u := by
  have hx : x ≠ k := fun he => hv.live (he ▸ hd.gone.2)
  exact ⟨hx, h.holds ((OSTask.tcb_of_core (hd.core x hx)).symm.trans hv.tcb)⟩

theorem Dropped.state (hd : Dropped k t p p') {x : StkId} (hx : x ≠ k) :
    (p'.osTask x).taskState = (p.osTask x).taskState := OSTask.state_of_core (hd.core x hx)

theorem Port.Tasks.dropped (h : p.Tasks) (hk : p.Holds k t) (hd : Dropped k t p p')
    (hone : ∀ x, p.Holds x t → x = k) : p'.Tasks := by
  have hnew (x : StkId) (v : TcbId) (hx : x ≠ k) (hv : p.Holds x v) : p'.Holds x v :=
    hd.holds h hk hx hv fun he => hx (hone x (he ▸ hv))
  refine ⟨fun x => ?_, fun v x hx => ?_, fun x y v w hv hw he => ?_, fun i hi => ?_⟩
  · by_cases hx : x = k
    · subst hx
      exact .inl ⟨hd.gone.2, hd.gone.1⟩
    · obtain ⟨hfree, hnone⟩ | ⟨v, hv⟩ := h.each x
      · exact .inl ⟨hfree.of_core (hd.core x hx), (OSTask.tcb_of_core (hd.core x hx)).trans hnone⟩
      · exact .inr ⟨v, hnew x v hx hv⟩
  · have hvt : v ≠ t := by
      rintro rfl
      rw [hd.stk] at hx
      cases hx
    rw [hd.stkPtr v hvt] at hx
    have htcb := h.own v x hx
    refine (hnew x v (fun he => hvt ?_) (h.holds htcb)).tcb
    rw [he, hk.tcb] at htcb
    exact (Option.some_inj.mp htcb).symm
  · obtain ⟨hxk, hv⟩ := hd.old h hv
    obtain ⟨hyk, hw⟩ := hd.old h hw
    rw [OSTask.threadID_of_core (hd.core x hxk), OSTask.threadID_of_core (hd.core y hyk)] at he
    exact h.inj x y v w hv hw he
  · have hi' : i ≠ (p.osTask k).threadID := fun he => hd.dead (he ▸ hi)
    rw [hd.thread i hi'] at hi
    obtain ⟨x, v, hv, he⟩ := h.others i hi
    have hx : x ≠ k := fun hx => hi' (by rw [← he, hx])
    exact ⟨x, v, hnew x v hx hv, (OSTask.threadID_of_core (hd.core x hx)).trans he⟩

theorem osTaskTerminate_spec : wp n cfg (osTaskTerminate k) (fun _ p' => p'.cores = (p.modOSTask k fun c =>
    { c with
      ostcbPtr := none, taskState := .terminated, threadID := 0, threadHandle := none, initSignalPtr := none,
      signalPtr := none }).cores) p := by
  have hlink (x : StkId) (f : OSTask → OSTask) (hf : ∀ c, (f c).core = c.core) : Keeps Port.cores (modOSTask x f) :=
    keeps_cores_modOSTask hf
  rw [osTaskTerminate, wp_bind, wp_modOSTask, wp_bind, wp_getOSTask]
  generalize (p.modOSTask k _) = q
  generalize (q.osTask k).nextPtr = next
  have hrest : ∀ m : KW Unit, Keeps Port.cores m → wp n cfg m (fun _ p' => p'.cores = q.cores) q :=
    fun m hm => hm n cfg q
  apply hrest
  cases (q.osTask k).prevPtr with
  | none =>
    refine keeps_bind (keeps_modify fun _ => rfl) fun _ => ?_
    cases next with
    | none => exact hlink k _ fun _ => rfl
    | some k1 => exact keeps_bind (hlink k1 _ fun _ => rfl) fun _ => hlink k _ fun _ => rfl
  | some k0 =>
    cases next with
    | none => exact keeps_bind (hlink k0 _ fun _ => rfl) fun _ => hlink k _ fun _ => rfl
    | some k1 =>
      refine keeps_bind (hlink k0 _ fun _ => rfl) fun _ => keeps_bind (hlink k1 _ fun _ => rfl) fun _ => ?_
      exact hlink k _ fun _ => rfl

theorem dropped_of_cores (hs : p'.stkPtr = Function.update p.stkPtr t none)
    (hn : p'.nbrThreads = p.nbrThreads)
    (ht : p'.thread =
      Function.update p.thread (p.osTask k).threadID { p.thread (p.osTask k).threadID with exited := true })
    (hc : (fun x => (p'.osTask x).core) =
      fun x => if x = k then (none, .terminated, 0, none, none) else (p.osTask x).core) : Dropped k t p p' := by
  have hck := congrFun hc k
  simp only [if_pos, OSTask.core, Prod.mk.injEq] at hck
  refine ⟨⟨hck.1, .inr hck.2.1⟩, ?_, ?_, fun x hx => ?_, fun j hj => ?_, fun v hv => ?_, hn⟩
  · simp [ht, WinThread.Ready]
  · simp [hs]
  · simpa [hx] using congrFun hc x
  · simp [ht, hj]
  · simp [hs, hv]

theorem osTaskKill_spec (hk : p.Holds k t) : wp n cfg (osTaskKill k) (fun _ p' => p'.os = p.os ∧
    p'.incoming = p.incoming ∧ p'.stkPtr = p.stkPtr ∧
    Dropped k t p { p' with stkPtr := Function.update p.stkPtr t none }) p := by
  rw [osTaskKill, wp_bind, wp_getOSTask, wp_bind, terminateThread, wp_bind, wp_deref, hk.handle]
  rintro _ ⟨⟩
  rw [wp_modThread]
  refine osTaskTerminate_spec.mono ?_
  intro _ q hq
  simp only [Port.cores, Prod.mk.injEq] at hq
  obtain ⟨ho, hinc, hs, hn, ht, hc⟩ := hq
  refine ⟨ho, hinc, hs, dropped_of_cores rfl hn ht (hc.trans ?_)⟩
  funext x
  by_cases hx : x = k
  · subst hx
    simp [OSTask.core]
  · simp [hx]

end records

section switches

variable {kc kh : StkId} {tc th : TcbId}

def Port.OthersWait (p : Port) (k : StkId) : Prop := ∀ x v, p.Holds x v → x ≠ k → (p.osTask x).taskState.CanGoOn

theorem Port.Holds.unique (h : p.Holds k t) (hrest : p.OthersWait k) {x : StkId} (hx : p.Holds x t) : x = k := by
  by_contra hne
  have hgo := hrest x t hx hne
  have hs := hx.stkPtr (by rcases hgo with h | h | h <;> simp [h])
  rw [h.stk] at hs
  split at hs
  · cases hs
  · exact hne (Option.some_inj.mp hs).symm

theorem OSTaskState.CanGoOn.ne_terminating (h : st.CanGoOn) : st ≠ .terminating := by
  rcases h with rfl | rfl | rfl <;> decide

theorem Port.Tasks.touched_one (h : p.Tasks) (hk : p.Holds k t) (hrest : p.OthersWait k) (ht : Touched (· = k) p p')
    (hq : p'.Holds k t) : p'.Tasks ∧ p'.OthersWait k := by
  refine ⟨h.touched ht ?_ ?_, fun x v hv hxk => ?_⟩
  · rintro _ rfl
    exact ⟨t, hq⟩
  · rintro x v y hxk hv rfl hy
    rw [hk.tcb] at hy
    cases hy
    exact hxk (hk.unique hrest hv)
  · rw [(ht.other x hxk).1]
    exact hrest x v (h.holds ((ht.tcb x).symm.trans hv.tcb)) hxk

theorem goOn_alone (h : p.Tasks) (hk : p.Holds k t) (hst : (p.osTask k).taskState.CanGoOn) (hrest : p.OthersWait k) :
    wp n cfg (goOn k t) (fun x p' => x = true ∧ p'.os = p.os ∧ p'.incoming = (p.osTask k).taskState :: p.incoming ∧
      p'.stkPtr = p.stkPtr ∧ p'.Tasks ∧ p'.Holds k t ∧ (p'.osTask k).taskState = .running ∧ p'.OthersWait k) p := by
  refine (goOn_spec hk hst).mono ?_
  rintro x q ⟨hx, ho, hinc, hs, ht, hq, hrun⟩
  obtain ⟨hT, hw⟩ := h.touched_one hk hrest ht hq
  exact ⟨hx, ho, hinc, hs, hT, hq, hrun, hw⟩

theorem osCtxSw_spec (h : p.Tasks) (hcur : p.os.tcbCurPtr = some tc) (hhigh : p.os.tcbHighRdyPtr = some th)
    (hc : p.Holds kc tc) (hst : (p.osTask kc).taskState = .running ∨ (p.osTask kc).taskState = .terminating)
    (hrest : p.OthersWait kc) (hh : p.Holds kh th) (hne : kh ≠ kc) (hself : i = (p.osTask kc).threadID) :
    wp n cfg (osCtxSw i) (fun _ p' =>
      p'.os = { p.os with tcbCurPtr := p.os.tcbHighRdyPtr, prioCur := p.os.prioHighRdy } ∧
      p'.incoming = (p.osTask kh).taskState :: p.incoming ∧ p'.stkPtr = p.stkPtr ∧ p'.Tasks ∧ p'.Holds kh th ∧
      (p'.osTask kh).taskState = .running ∧ p'.OthersWait kh) p := by
  have hgo := hrest kh th hh hne
  have hids : (p.osTask kc).threadID ≠ (p.osTask kh).threadID := fun he => hne (h.inj kc kh tc th hc hh he).symm
  have hth : p.stkPtr th = some kh := hh.stkPtr hgo.ne_terminating
  have hthc : th ≠ tc := by
    rintro rfl
    exact hne (hc.unique hrest hh)
  rw [osCtxSw, wp_bind, wp_get, wp_bind, wp_deref, hcur]
  rintro _ ⟨⟩
  rw [wp_bind]
  refine (osTaskGet_spec h).mono ?_
  rintro x q ⟨rfl, hx, -⟩
  rw [wp_bind, wp_deref]
  rintro k rfl
  obtain rfl : k = kc := hc.unique hrest (hx k rfl)
  rw [wp_bind, wp_onPort, ctxSw, wp_modify, wp_bind, wp_getOSTask]
  dsimp only
  rcases hst with hst | hst
  · -- the thread of the current task is still ready when the other one goes on, and then waits
    rw [if_pos hst, wp_bind, wp_modOSTask, wp_bind, wp_get, wp_bind, wp_deref]
    rintro v hv
    obtain rfl : th = v := Option.some_inj.mp (hhigh.symm.trans hv)
    rw [wp_bind]
    refine wp.mono (osTaskGet_stkPtr (by exact hth)) ?_
    rintro x q₂ ⟨rfl, rfl⟩
    rw [wp_bind, wp_deref]
    rintro _ ⟨⟩
    rw [wp_bind]
    refine wp.mono (goOn_spec (hh.of_core (by simp [hne]) (by rfl) (by exact le_rfl) (by rfl)) ?_) ?_
    · simpa [hne] using hgo
    rintro b q₃ ⟨rfl, ho, hinc, hs, ht, hq, hrun⟩
    have htouch : Touched (fun x => x = k ∨ x = kh) q q₃ := by
      refine Touched.of_setOS (Touched.trans (Touched.mono (touched_modOSTask ?_) fun x hx => .inl hx)
        (ht.mono fun x hx => .inr hx))
      exact fun _ => ⟨rfl, rfl, rfl⟩
    obtain ⟨hstk, hsig⟩ := ht.other k hne.symm
    have hsig' := hc.signal
    rw [hst] at hsig'
    simp only [Port.osTask_modOSTask, Function.update_self] at hstk hsig
    rw [if_pos rfl, wp_bind, wp_getOSTask, if_neg (by simp [hstk])]
    refine waitSignal_waits (w := none) (hsig.trans hsig') ?_
    have hself' : i = (q₃.osTask k).threadID := by rw [hself, htouch.threadID]
    have htouch' := htouch.trans ((touched_mod (f := fun c => { c with signalPtr := some ⟨false, some i⟩ })
      (g := fun c => { c with waits := true }) (fun _ => ⟨rfl, rfl, rfl⟩) hself').mono fun _ => .inl)
    have hthread : q₃.thread i = ⟨0, false, false⟩ := by
      have h' := hc.thread
      rw [hst, ← hself] at h'
      rw [ht.thread i, Port.thread_modOSTask]
      · exact h'
      · rintro _ rfl
        rw [hself, Port.osTask_modOSTask, Function.update_of_ne hne]
        exact hids
    have hold : Port.Holds ((q₃.modOSTask k fun c => { c with signalPtr := some ⟨false, some i⟩ }).modThread i
        fun c => { c with waits := true }) k tc := by
      refine ⟨?_, ?_, ?_, ?_, ?_, ?_, ?_⟩
      · simpa [htouch.tcb] using hc.tcb
      · simpa [hs, hstk] using hc.stkPtr (by simp [hst])
      · simp [Port.Free, hstk]
      · simpa [htouch.handle, htouch.threadID] using hc.handle
      · simpa [htouch.threadID, htouch.nbr] using hc.bound
      · simp [← hself', hthread, hstk, OSTaskState.thread]
      · simp [← hself', hstk, OSTaskState.signal]
    have hold' : Port.Holds ((q₃.modOSTask k fun c => { c with signalPtr := some ⟨false, some i⟩ }).modThread i
        fun c => { c with waits := true }) kh th := by
      refine hq.of_core (by simp [hne]) rfl le_rfl ?_
      rw [htouch.threadID, hself]
      simp [hids.symm]
    refine ⟨ho, ?_, ?_, h.touched htouch' ?_ ?_, hold', ?_, ?_⟩
    · simpa [hne] using hinc
    · exact hs
    · rintro _ (rfl | rfl)
      · exact ⟨tc, hold⟩
      · exact ⟨_, hold'⟩
    · rintro x v y hx hv (rfl | rfl) hy
      · rw [hc.tcb] at hy
        cases hy
        exact hx (.inl (hc.unique hrest hv))
      · rw [hh.tcb] at hy
        cases hy
        have hgox := hrest x _ hv fun he => hx (.inl he)
        have hvx := hv.stkPtr hgox.ne_terminating
        rw [hth] at hvx
        exact hx (.inr (Option.some_inj.mp hvx).symm)
    · simpa [hne] using hrun
    · intro x v hv hx
      by_cases hxk : x = k
      · subst hxk
        simp [hstk, OSTaskState.CanGoOn]
      · rw [(htouch'.other x (by simp [hx, hxk])).1]
        exact hrest x v (h.holds ((htouch'.tcb x).symm.trans hv.tcb)) hxk
  · rw [if_neg (by simp [hst]), wp_bind, wp_get, wp_bind, wp_deref]
    rintro v hv
    obtain rfl : th = v := Option.some_inj.mp (hhigh.symm.trans hv)
    rw [wp_bind]
    refine wp.mono (osTaskGet_stkPtr (by exact hth)) ?_
    rintro x q₂ ⟨rfl, rfl⟩
    rw [wp_bind, wp_deref]
    rintro _ ⟨⟩
    rw [wp_bind]
    refine wp.mono (goOn_spec (hh.of_core (by rfl) (by rfl) (by exact le_rfl) (by rfl)) (by exact hgo)) ?_
    rintro b q₃ ⟨rfl, ho, hinc, hs, ht, hq, hrun⟩
    have htouch : Touched (· = kh) q q₃ := ht.of_setOS
    have hstk : (q₃.osTask k).taskState = .terminating := (htouch.other k hne.symm).1.trans hst
    have hone (x : StkId) (hx : q₃.Holds x tc) : x = k := hc.unique hrest (h.holds ((htouch.tcb x).symm.trans hx.tcb))
    have hT : q₃.Tasks := by
      refine h.touched htouch ?_ ?_
      · rintro _ rfl
        exact ⟨_, hq⟩
      · rintro x v _ hx hv rfl hy
        rw [hh.tcb] at hy
        cases hy
        by_cases hxk : x = k
        · subst hxk
          exact hthc (Option.some_inj.mp (hv.tcb.symm.trans hc.tcb))
        · have hvx := hv.stkPtr (hrest x _ hv hxk).ne_terminating
          rw [hth] at hvx
          exact hx (Option.some_inj.mp hvx).symm
    have hc₃ : q₃.Holds k tc := hT.holds ((htouch.tcb k).trans hc.tcb)
    rw [if_pos rfl, wp_bind, wp_getOSTask, if_pos hstk, wp_bind]
    refine osTaskTerminate_spec.mono ?_
    intro _ q₄ hq₄
    simp only [Port.cores, Prod.mk.injEq] at hq₄
    obtain ⟨ho₄, hinc₄, hs₄, hn₄, ht₄, hc₄⟩ := hq₄
    rw [exitThread, wp_modThread]
    have hnone : q₃.stkPtr tc = none := by rw [hc₃.stk, if_pos hstk]
    have hdrop : Dropped k tc q₃ (q₄.modThread i fun c => { c with exited := true }) := by
      refine dropped_of_cores ?_ hn₄ ?_ ?_
      · rw [← hnone, Function.update_eq_self]
        exact hs₄
      · rw [htouch.threadID, ← hself, Port.thread_modThread, ht₄]
        rfl
      · refine hc₄.trans ?_
        funext x
        by_cases hx : x = k
        · subst hx
          simp [OSTask.core]
        · simp [hx]
    have hids₃ : (q₃.osTask kh).threadID ≠ i := by
      rw [htouch.threadID, hself]
      exact hids.symm
    have hq₄ : Port.Holds (q₄.modThread i fun c => { c with exited := true }) kh th := hdrop.holds hT hc₃ hne hq hthc
    refine ⟨ho₄.trans ho, hinc₄.trans hinc, hs₄.trans hs, hT.dropped hc₃ hdrop hone, hq₄, ?_, ?_⟩
    · exact (hdrop.state hne).trans hrun
    · intro x v hv hx
      obtain ⟨hxk, hv₃⟩ := hdrop.old hT hv
      rw [hdrop.state hxk, (htouch.other x hx).1]
      exact hrest x v (h.holds ((htouch.tcb x).symm.trans hv₃.tcb)) hxk

end switches

end UcosIII
