import UcosIII.Abstract.FileSteps
import UcosIII.Kernel.IntQ
import UcosIII.Lib.Circular

namespace UcosIII

open Prog Circular

variable {n size : ℕ} {cfg : Cfg} {s s' : OS} {t : TcbId} {e x got : IntQEntry} {d d' : IntSys} {ls : List IntLabel}
  {done w rep : List IntQEntry} {P : IntQEntry → Prop} {α : Type}

section kernel

def OS.intQView (s : OS) : (TcbId → ℕ) × TaskState × RdyList × Bool :=
  (fun t => (s.tcb t).prio, (s.tcb intQTaskTCB).taskState, s.rdyList 0, (s.prioTbl 0).getLsbD 31)

def OS.IntQUp (s : OS) : Prop := s.IntQApart ∧ s.IntQListed

theorem OS.IntQApart.congr (h : s.IntQApart) (hp : ∀ t, (s'.tcb t).prio = (s.tcb t).prio)
    (hs : (s'.tcb intQTaskTCB).taskState = (s.tcb intQTaskTCB).taskState) : s'.IntQApart := by
  refine ⟨fun t ht => ?_, hs.trans h.rdy⟩
  rw [hp]
  exact h.prio t ht

theorem OS.IntQApart.of_view (h : s.IntQApart) (hv : s'.intQView = s.intQView) : s'.IntQApart := by
  simp only [intQView, Prod.mk.injEq] at hv
  exact h.congr (congrFun hv.1) hv.2.1

theorem OS.IntQUp.congr (h : s.IntQUp) (hv : s'.intQView = s.intQView) : s'.IntQUp := by
  have ha := h.1.of_view hv
  simp only [intQView, Prod.mk.injEq] at hv
  exact ⟨ha, hv.2.2.1.trans h.2.list, hv.2.2.2.trans h.2.bit⟩

theorem OS.IntQUp.of_keeps {m : K α} (h : s.IntQUp) (hm : Keeps OS.intQView m) :
    wp n cfg m (fun _ s' => s'.IntQUp) s := (hm n cfg s).mono fun _ _ hv => h.congr hv

theorem intQView_modTcb {f : TCB → TCB} (hp : (f (s.tcb t)).prio = (s.tcb t).prio)
    (hs : t = intQTaskTCB → (f (s.tcb t)).taskState = (s.tcb t).taskState) : (s.modTcb t f).intQView = s.intQView := by
  simp only [OS.intQView, Prod.mk.injEq]
  refine ⟨OS.each_modTcb TCB.prio hp, ?_, rfl, rfl⟩
  rw [OS.modTcb_tcb]
  split
  · rename_i h
    rw [hs h.symm, h]
  · rfl

theorem keeps_intQView_modTcb {f : TCB → TCB} (hf : ∀ c, (f c).prio = c.prio ∧ (f c).taskState = c.taskState) :
    Keeps OS.intQView (modTcb t f) := keeps_modify fun _ => intQView_modTcb (hf _).1 fun _ => (hf _).2

theorem keeps_intQView_modRdyList {p : ℕ} (hp : p ≠ 0) (f : RdyList → RdyList) : Keeps OS.intQView (modRdyList p f) := by
  refine keeps_bind keeps_ask fun _ => keeps_ite (keeps_modify fun s => ?_) keeps_fault
  simp only [OS.intQView, OS.modRdyList_rdyList, if_neg hp.symm]
  rfl

theorem keeps_intQView_incRdyList {p : ℕ} (hp : p ≠ 0) : Keeps OS.intQView (incRdyList p) :=
  keeps_bind (keeps_getRdyList p) fun _ => keeps_bind (keeps_objQtyInc _) fun _ => keeps_intQView_modRdyList hp _

theorem keeps_intQView_decRdyList {p : ℕ} (hp : p ≠ 0) : Keeps OS.intQView (decRdyList p) :=
  keeps_bind (keeps_getRdyList p) fun _ => keeps_bind (keeps_objQtyDec _) fun _ => keeps_intQView_modRdyList hp _

theorem prioBit_bit_zero {p : ℕ} (hp : p ≠ 0) (h0 : p / 32 = 0) : (prioBit p).getLsbD 31 = false := by
  have h := prioBit_getLsbD (p := 0) (q := p)
  have hne : ¬ 0 % 32 = p % 32 := by omega
  rw [decide_eq_false hne] at h
  exact h

theorem keeps_intQView_modPrioTbl {p : ℕ} {f : BitVec 32 → BitVec 32}
    (hf : p / 32 = 0 → ∀ w, (f w).getLsbD 31 = w.getLsbD 31) : Keeps OS.intQView (modPrioTbl (p / 32) f) := by
  refine keeps_bind keeps_ask fun _ => keeps_ite (keeps_modify fun s => ?_) keeps_fault
  simp only [OS.intQView, OS.modPrioTbl, Function.update_apply]
  split
  · rename_i h0
    rw [hf h0.symm, ← h0]
  · rfl

theorem keeps_intQView_prioInsert {p : ℕ} (hp : p ≠ 0) : Keeps OS.intQView (prioInsert p) := by
  apply keeps_intQView_modPrioTbl
  intro h0 w
  rw [BitVec.getLsbD_or, prioBit_bit_zero hp h0, Bool.or_false]

theorem keeps_intQView_prioRemove {p : ℕ} (hp : p ≠ 0) : Keeps OS.intQView (prioRemove p) := by
  apply keeps_intQView_modPrioTbl
  intro h0 w
  rw [BitVec.getLsbD_and, BitVec.getLsbD_not, prioBit_bit_zero hp h0]
  simp

theorem OS.IntQUp.modTcb {f : TCB → TCB} (h : s.IntQUp) (hp : (f (s.tcb t)).prio = (s.tcb t).prio)
    (hs : t = intQTaskTCB → (f (s.tcb t)).taskState = (s.tcb t).taskState) : (s.modTcb t f).IntQUp :=
  h.congr (intQView_modTcb hp hs)

theorem OS.IntQUp.ne (h : s.IntQUp) (hs : (s.tcb t).taskState ≠ .rdy) : t ≠ intQTaskTCB := by
  rintro rfl
  exact hs h.1.rdy

theorem rdyListInsert_up (h : s.IntQUp) (ht : t ≠ intQTaskTCB) : wp n cfg (rdyListInsert t) (fun _ s' => s'.IntQUp) s := by
  have hp := h.1.prio t ht
  have hlinks (u : TcbId) (f : TCB → TCB) (hf : ∀ c, (f c).prio = c.prio ∧ (f c).taskState = c.taskState) :
      Keeps OS.intQView (UcosIII.modTcb u f) := keeps_intQView_modTcb hf
  have hhead (s : OS) (h : s.IntQUp) (hp : (s.tcb t).prio ≠ 0) :
      wp n cfg (rdyListInsertHead t) (fun _ s' => s'.IntQUp) s := by
    rw [rdyListInsertHead, wp_bind, wp_getTcb]
    refine h.of_keeps (keeps_bind (keeps_getRdyList _) fun _ => keeps_ite ?_ ?_)
    · exact keeps_bind (hlinks _ _ fun _ => ⟨rfl, rfl⟩) fun _ => keeps_intQView_modRdyList hp _
    · refine keeps_bind (keeps_intQView_incRdyList hp) fun _ => ?_
      refine keeps_bind (hlinks _ _ fun _ => ⟨rfl, rfl⟩) fun _ => keeps_bind (keeps_deref _) fun _ => ?_
      exact keeps_bind (hlinks _ _ fun _ => ⟨rfl, rfl⟩) fun _ => keeps_intQView_modRdyList hp _
  have htail (s : OS) (h : s.IntQUp) (hp : (s.tcb t).prio ≠ 0) :
      wp n cfg (rdyListInsertTail t) (fun _ s' => s'.IntQUp) s := by
    rw [rdyListInsertTail, wp_bind, wp_getTcb]
    refine h.of_keeps (keeps_bind (keeps_getRdyList _) fun _ => keeps_ite ?_ ?_)
    · exact keeps_bind (hlinks _ _ fun _ => ⟨rfl, rfl⟩) fun _ => keeps_intQView_modRdyList hp _
    · refine keeps_bind (keeps_intQView_incRdyList hp) fun _ => ?_
      refine keeps_bind (hlinks _ _ fun _ => ⟨rfl, rfl⟩) fun _ => keeps_bind (keeps_deref _) fun _ => ?_
      exact keeps_bind (hlinks _ _ fun _ => ⟨rfl, rfl⟩) fun _ => keeps_intQView_modRdyList hp _
  rw [rdyListInsert, wp_bind, wp_getTcb, wp_bind]
  refine (h.of_keeps (keeps_intQView_prioInsert hp)).mono fun _ s₁ h₁ => ?_
  rw [wp_bind, wp_get, wp_ite]
  exact ⟨fun _ => htail s₁ h₁ (h₁.1.prio t ht), fun _ => hhead s₁ h₁ (h₁.1.prio t ht)⟩

theorem rdyListRemove_up (h : s.IntQUp) (ht : t ≠ intQTaskTCB) : wp n cfg (rdyListRemove t) (fun _ s' => s'.IntQUp) s := by
  have hp := h.1.prio t ht
  have hlinks (u : TcbId) (f : TCB → TCB) (hf : ∀ c, (f c).prio = c.prio ∧ (f c).taskState = c.taskState) :
      Keeps OS.intQView (UcosIII.modTcb u f) := keeps_intQView_modTcb hf
  have hlist := @keeps_intQView_modRdyList _ hp
  have hdec := keeps_intQView_decRdyList hp
  rw [rdyListRemove, wp_bind, wp_getTcb]
  apply h.of_keeps
  cases (s.tcb t).prevPtr with
  | none =>
    cases (s.tcb t).nextPtr with
    | none =>
      refine keeps_bind (hlist _) fun _ => keeps_bind (keeps_intQView_prioRemove hp) fun _ => ?_
      exact hlinks _ _ fun _ => ⟨rfl, rfl⟩
    | some t2 =>
      refine keeps_bind hdec fun _ => keeps_bind (hlinks _ _ fun _ => ⟨rfl, rfl⟩) fun _ => ?_
      exact keeps_bind (hlist _) fun _ => hlinks _ _ fun _ => ⟨rfl, rfl⟩
  | some t1 =>
    cases (s.tcb t).nextPtr with
    | none =>
      refine keeps_bind hdec fun _ => keeps_bind (hlinks _ _ fun _ => ⟨rfl, rfl⟩) fun _ => ?_
      exact keeps_bind (hlist _) fun _ => hlinks _ _ fun _ => ⟨rfl, rfl⟩
    | some t2 =>
      refine keeps_bind hdec fun _ => keeps_bind (hlinks _ _ fun _ => ⟨rfl, rfl⟩) fun _ => ?_
      exact keeps_bind (hlinks _ _ fun _ => ⟨rfl, rfl⟩) fun _ => hlinks _ _ fun _ => ⟨rfl, rfl⟩

theorem keeps_intQView_osSched : Keeps OS.intQView osSched := keeps_osSched (fun _ _ _ => rfl) fun _ _ _ => rfl

theorem keeps_intQView_schedOpt (opt : Opt) : Keeps OS.intQView (schedOpt opt) := by
  rw [schedOpt]
  exact keeps_ite keeps_intQView_osSched (keeps_pure _)

theorem keeps_intQView_pendListRemove (t : TcbId) : Keeps OS.intQView (pendListRemove t) := by
  refine keeps_bind (keeps_forTable (fun d => keeps_bind (keeps_getPendData d) fun _ => ?_) t) fun _ => ?_
  · exact keeps_bind (keeps_deref _) fun o => (keeps_pendListRemove1 d o).comp OS.intQView
  · exact keeps_intQView_modTcb fun _ => ⟨rfl, rfl⟩

theorem taskRdy_up (h : s.IntQUp) (ht : t ≠ intQTaskTCB) : wp n cfg (taskRdy t) (fun _ s' => s'.IntQUp) s := by
  rw [taskRdy, wp_bind]
  refine (h.of_keeps ((keeps_tickListRemove t).comp OS.intQView)).mono fun _ s₁ h₁ => ?_
  rw [wp_bind, wp_getTcb, wp_ite]
  exact ⟨fun _ => rdyListInsert_up h₁ ht, fun _ => wp_pure.mpr h₁⟩

theorem post_up (h : s.IntQUp) (o : Option ObjId) (pVoid : Option ℕ) (msgSize ts : ℕ) :
    wp n cfg (post o t pVoid msgSize ts) (fun _ s' => s'.IntQUp) s := by
  have hmark {c : Prop} [Decidable c] : Keeps OS.intQView (if c then post1 o t pVoid msgSize ts
      else modTcb t fun c => { c with msgPtr := pVoid, msgSize := msgSize, ts := ts }) :=
    keeps_ite ((keeps_post1 t pVoid msgSize ts).comp OS.intQView) (keeps_intQView_modTcb fun _ => ⟨rfl, rfl⟩)
  have hunpend := keeps_intQView_pendListRemove t
  have hstate (st : TaskState) {s : OS} (h : s.IntQUp) (ht : t ≠ intQTaskTCB) :
      wp n cfg (modTcb t fun c => { c with taskState := st, pendStatus := .ok, pendOn := .nothing })
        (fun _ s' => s'.IntQUp) s := wp_modTcb.mpr (h.modTcb rfl fun hc => absurd hc ht)
  rw [post, wp_bind, wp_getTcb]
  cases hs : (s.tcb t).taskState with
  | rdy | dly | suspended | dlySuspended | del => exact wp_pure.mpr h
  | pend | pendTimeout =>
    have ht : t ≠ intQTaskTCB := h.ne (by simp [hs])
    refine wp_ite_bind.mpr ((h.of_keeps hmark).mono fun _ s₁ h₁ => ?_)
    have hready (s₂ : OS) (h₂ : s₂.IntQUp) : wp n cfg (do
        taskRdy t
        modTcb t fun c => { c with taskState := .rdy, pendStatus := .ok, pendOn := .nothing }) (fun _ s' => s'.IntQUp) s₂ := by
      rw [wp_bind]
      exact (taskRdy_up h₂ ht).mono fun _ _ h₃ => hstate .rdy h₃ ht
    refine wp_ite.mpr ⟨fun _ => ?_, fun _ => hready s₁ h₁⟩
    rw [wp_bind]
    exact (h₁.of_keeps hunpend).mono fun _ s₂ h₂ => hready s₂ h₂
  | pendSuspended | pendTimeoutSuspended =>
    have ht : t ≠ intQTaskTCB := h.ne (by simp [hs])
    refine wp_ite_bind.mpr ((h.of_keeps hmark).mono fun _ s₁ h₁ => ?_)
    rw [wp_bind]
    refine (h₁.of_keeps ((keeps_tickListRemove t).comp OS.intQView)).mono fun _ s₂ h₂ => ?_
    refine wp_ite.mpr ⟨fun _ => ?_, fun _ => hstate .suspended h₂ ht⟩
    rw [wp_bind]
    exact (h₂.of_keeps hunpend).mono fun _ s₃ h₃ => hstate .suspended h₃ ht

theorem postLoop_up (h : s.IntQUp) (o : ObjId) (pVoid : Option ℕ) (msgSize ts k : ℕ) (p : Option PdId) :
    wp n cfg (postLoop o pVoid msgSize ts k p) (fun _ s' => s'.IntQUp) s := by
  induction k generalizing p s with
  | zero => exact wp_pure.mpr h
  | succ k ih =>
    rw [postLoop, wp_bind, wp_deref]
    intro d _
    rw [wp_bind, wp_getPendData, wp_bind, wp_deref]
    intro t _
    rw [wp_bind]
    exact (post_up h (some o) pVoid msgSize ts).mono fun _ s₁ h₁ => ih h₁ _

theorem semPost_up (h : s.IntQUp) (o : ObjId) (opt : Opt) (ts : ℕ) :
    wp n cfg (semPost o opt ts) (fun _ s' => s'.IntQUp) s := by
  rw [semPost, wp_bind, wp_getObj, wp_ite]
  refine ⟨fun _ => wp_ite.mpr ⟨fun _ => wp_pure.mpr h, fun _ => ?_⟩, fun _ => ?_⟩
  · rw [wp_bind, wp_modObj]
    exact wp_pure.mpr (h.congr rfl)
  · rw [wp_bind]
    refine (postLoop_up h o none 0 ts _ _).mono fun _ s₁ h₁ => ?_
    rw [wp_bind, wp_getObj, wp_bind]
    exact (h₁.of_keeps (keeps_intQView_schedOpt opt)).mono fun _ _ h₂ => wp_pure.mpr h₂

theorem qPost_up (h : s.IntQUp) (o : ObjId) (pVoid : Option ℕ) (msgSize : ℕ) (opt : Opt) (ts : ℕ) :
    wp n cfg (qPost o pVoid msgSize opt ts) (fun _ s' => s'.IntQUp) s := by
  rw [qPost, wp_bind, wp_getObj, wp_ite]
  refine ⟨fun _ => ?_, fun _ => ?_⟩
  · refine h.of_keeps (keeps_bind ((keeps_msgQPut _ _ _ _ _).comp OS.intQView) fun _ => ?_)
    exact keeps_bind (keeps_modify fun _ => rfl) fun _ => keeps_pure _
  · rw [wp_bind]
    refine (postLoop_up h o pVoid msgSize ts _ _).mono fun _ s₁ h₁ => ?_
    rw [wp_bind]
    exact (h₁.of_keeps (keeps_intQView_schedOpt opt)).mono fun _ _ h₂ => wp_pure.mpr h₂

theorem taskQPost_up (h : s.IntQUp) (p : Option TcbId) (pVoid : Option ℕ) (msgSize : ℕ) (opt : Opt) (ts : ℕ) :
    wp n cfg (taskQPost p pVoid msgSize opt ts) (fun _ s' => s'.IntQUp) s := by
  have hput (t : TcbId) : wp n cfg (taskQPut t pVoid msgSize opt ts) (fun _ s' => s'.IntQUp) s := by
    refine h.of_keeps (keeps_bind (keeps_getTcb t) fun _ => ?_)
    refine keeps_bind ((keeps_msgQPut _ _ _ _ _).comp OS.intQView) fun _ => ?_
    exact keeps_bind (keeps_intQView_modTcb fun _ => ⟨rfl, rfl⟩) fun _ => keeps_pure _
  rw [taskQPost, wp_bind, wp_target]
  intro t _
  rw [wp_bind, wp_getTcb]
  cases (s.tcb t).taskState with
  | rdy | dly | suspended | dlySuspended => exact hput t
  | del => exact wp_pure.mpr h
  | pend | pendTimeout | pendSuspended | pendTimeoutSuspended =>
    rw [wp_ite]
    refine ⟨fun _ => ?_, fun _ => hput t⟩
    rw [wp_bind]
    refine (post_up h none pVoid msgSize ts).mono fun _ s₁ h₁ => ?_
    rw [wp_bind]
    exact (h₁.of_keeps (keeps_intQView_schedOpt opt)).mono fun _ _ h₂ => wp_pure.mpr h₂

theorem taskSemPost_up (h : s.IntQUp) (p : Option TcbId) (opt : Opt) (ts : ℕ) :
    wp n cfg (taskSemPost p opt ts) (fun _ s' => s'.IntQUp) s := by
  rw [taskSemPost, wp_bind, wp_target]
  intro t _
  rw [wp_bind, wp_modTcb, wp_bind, wp_getTcb]
  have h₁ : (s.modTcb t fun c => { c with ts := ts }).IntQUp := h.modTcb rfl fun _ => rfl
  have hinc : wp n cfg (taskSemInc t) (fun _ s' => s'.IntQUp) (s.modTcb t fun c => { c with ts := ts }) := by
    refine h₁.of_keeps (keeps_bind (keeps_getTcb t) fun _ => keeps_ite (keeps_pure _) ?_)
    exact keeps_bind (keeps_intQView_modTcb fun _ => ⟨rfl, rfl⟩) fun _ => keeps_pure _
  cases ((s.modTcb t fun c => { c with ts := ts }).tcb t).taskState with
  | rdy | dly | suspended | dlySuspended => exact hinc
  | del => exact wp_pure.mpr h₁
  | pend | pendTimeout | pendSuspended | pendTimeoutSuspended =>
    rw [wp_ite]
    refine ⟨fun _ => ?_, fun _ => hinc⟩
    rw [wp_bind]
    refine (post_up h₁ none none 0 ts).mono fun _ s₂ h₂ => ?_
    rw [wp_bind, wp_getTcb, wp_bind]
    exact (h₂.of_keeps (keeps_intQView_schedOpt opt)).mono fun _ _ h₃ => wp_pure.mpr h₃

theorem taskSuspend_up (h : s.IntQUp) (ht : t ≠ intQTaskTCB) :
    wp n cfg (taskSuspend (some t)) (fun _ s' => s'.IntQUp) s := by
  have hset (f : TCB → TCB) (hf : ∀ c, (f c).prio = c.prio) : (s.modTcb t f).IntQUp :=
    h.modTcb (hf _) fun hc => absurd hc ht
  have htcb : wp n cfg (suspendTcb t) (fun _ s' => s'.IntQUp) s := by
    rw [suspendTcb, wp_bind, wp_getTcb]
    cases (s.tcb t).taskState with
    | rdy =>
      rw [wp_bind, wp_modTcb, wp_bind]
      have h₁ := hset (fun c => { c with taskState := .suspended, suspendCtr := 1 }) fun _ => rfl
      exact (rdyListRemove_up h₁ ht).mono fun _ _ h₂ => wp_pure.mpr h₂
    | dly | pend | pendTimeout | suspended | dlySuspended | pendSuspended | pendTimeoutSuspended =>
      rw [wp_bind, wp_modTcb]
      exact wp_pure.mpr (hset _ fun _ => rfl)
    | del => exact wp_pure.mpr h
  rw [taskSuspend, wp_bind, orCur, wp_pure, wp_bind, wp_get, wp_ite]
  refine ⟨fun _ => wp_pure.mpr h, fun _ => ?_⟩
  rw [wp_bind]
  refine htcb.mono fun _ s₁ h₁ => wp_ite.mpr ⟨fun _ => wp_pure.mpr h₁, fun _ => ?_⟩
  rw [wp_bind]
  exact (h₁.of_keeps keeps_intQView_osSched).mono fun _ _ h₂ => wp_pure.mpr h₂

theorem taskResume_up (h : s.IntQUp) : wp n cfg (taskResume t) (fun _ s' => s'.IntQUp) s := by
  have hinto (st : TaskState) (ht : t ≠ intQTaskTCB) : wp n cfg (resumeInto t st) (fun _ s' => s'.IntQUp) s := by
    have h₁ : (s.modTcb t fun c => { c with suspendCtr := c.suspendCtr - 1 }).IntQUp := h.modTcb rfl fun _ => rfl
    rw [resumeInto, wp_bind, wp_modTcb, wp_bind, wp_getTcb, wp_ite]
    refine ⟨fun _ => ?_, fun _ => wp_pure.mpr h₁⟩
    rw [wp_modTcb]
    exact h₁.modTcb rfl fun hc => absurd hc ht
  have htcb : wp n cfg (resumeTcb t) (fun _ s' => s'.IntQUp) s := by
    rw [resumeTcb, wp_bind, wp_getTcb]
    cases hs : (s.tcb t).taskState with
    | rdy | dly | pend | pendTimeout | del => exact wp_pure.mpr h
    | suspended =>
      have ht : t ≠ intQTaskTCB := h.ne (by simp [hs])
      rw [wp_bind]
      refine (hinto .rdy ht).mono fun _ s₁ h₁ => ?_
      rw [wp_bind, wp_getTcb]
      refine wp_ite.mpr ⟨fun _ => ?_, fun _ => wp_pure.mpr h₁⟩
      rw [wp_bind]
      exact (taskRdy_up h₁ ht).mono fun _ _ h₂ => wp_pure.mpr h₂
    | dlySuspended | pendSuspended | pendTimeoutSuspended =>
      rw [wp_bind]
      exact (hinto _ (h.ne (by simp [hs]))).mono fun _ _ h₁ => wp_pure.mpr h₁
  rw [taskResume, wp_bind]
  refine htcb.mono fun _ s₁ h₁ => wp_ite.mpr ⟨fun _ => wp_pure.mpr h₁, fun _ => ?_⟩
  rw [wp_bind]
  exact (h₁.of_keeps keeps_intQView_osSched).mono fun _ _ h₂ => wp_pure.mpr h₂

theorem flagTaskRdy_up (h : s.IntQUp) (flagsRdy : Flags) (ts : ℕ) :
    wp n cfg (flagTaskRdy t flagsRdy ts) (fun _ s' => s'.IntQUp) s := by
  have hend (s₁ : OS) (h₁ : s₁.IntQUp) : wp n cfg (pendListRemove t) (fun _ s' => s'.IntQUp) s₁ :=
    h₁.of_keeps (keeps_intQView_pendListRemove t)
  have h₁ : (s.modTcb t fun c => { c with flagsRdy := flagsRdy, pendStatus := .ok, pendOn := .nothing, ts := ts }).IntQUp :=
    h.modTcb rfl fun _ => rfl
  rw [flagTaskRdy, wp_bind, wp_modTcb, wp_bind, wp_getTcb]
  generalize (s.modTcb t fun c => { c with flagsRdy := flagsRdy, pendStatus := .ok, pendOn := .nothing, ts := ts }) = s₁ at *
  cases hs : (s₁.tcb t).taskState with
  | rdy | dly | dlySuspended | suspended | del => exact hend s₁ h₁
  | pend | pendTimeout =>
    have ht : t ≠ intQTaskTCB := h₁.ne (by simp [hs])
    rw [wp_bind]
    refine (taskRdy_up h₁ ht).mono fun _ s₂ h₂ => ?_
    rw [wp_bind, wp_modTcb]
    exact hend _ (h₂.modTcb rfl fun hc => absurd hc ht)
  | pendSuspended | pendTimeoutSuspended =>
    have ht : t ≠ intQTaskTCB := h₁.ne (by simp [hs])
    rw [wp_bind, wp_modTcb]
    exact hend _ (h₁.modTcb rfl fun hc => absurd hc ht)

theorem flagPost_up (h : s.IntQUp) (o : ObjId) (flags : Flags) (opt : Opt) (ts : ℕ) :
    wp n cfg (flagPost o flags opt ts) (fun _ s' => s'.IntQUp) s := by
  have hstep (p : Option PdId) (s : OS) (h : s.IntQUp) :
      wp n cfg (flagPostStep o ts p) (fun _ s' => s'.IntQUp) s := by
    cases p with
    | none => exact wp_pure.mpr h
    | some d =>
      rw [flagPostStep, wp_bind, wp_getPendData]
      cases (s.pendData d).tcbPtr with
      | none => exact wp_pure.mpr h
      | some t =>
        dsimp only
        rw [wp_bind, wp_getTcb, wp_bind, wp_getObj]
        cases flagsReady ((s.tcb t).flagsOpt &&& optPendFlagMask) (s.obj o).flags (s.tcb t).flagsPend with
        | none => exact wp_pure.mpr h
        | some x =>
          obtain ⟨flagsRdy, done⟩ := x
          cases done with
          | false => exact wp_pure.mpr h
          | true =>
            dsimp only
            rw [wp_bind]
            exact (flagTaskRdy_up h flagsRdy ts).mono fun _ _ h₁ => wp_pure.mpr h₁
  have hrest (s : OS) (h : s.IntQUp) : wp n cfg (do
      let b ← getObj o
      if b.pendList.nbrEntries = 0 then return some ({ err := .none, val := b.flags.toNat } : Ret)
      let d ← Prog.deref b.pendList.headPtr
      if ← Prog.loop (flagPostStep o ts) (some d) then return some ({ err := .flagPendOpt } : Ret)
      if opt &&& optPostNoSched = 0 ∧ (← Prog.get).intNestingCtr = 0 then waitThen (.flagPost o)
      else return some ({ err := .none, val := (← getObj o).flags.toNat } : Ret)) (fun _ s' => s'.IntQUp) s := by
    rw [wp_bind, wp_getObj, wp_ite]
    refine ⟨fun _ => wp_pure.mpr h, fun _ => ?_⟩
    rw [wp_bind, wp_deref]
    intro d _
    have hloop : wp n cfg (Prog.loop (flagPostStep o ts) (some d)) (fun _ s' => s'.IntQUp) s := by
      refine wp_loop (fun _ s => s.IntQUp) (fun p s h => (hstep p s h).mono ?_) h
      rintro (p' | b) s' h'
      · exact h'
      · exact h'
    rw [wp_bind]
    refine hloop.mono fun b s₁ h₁ => wp_ite.mpr ⟨fun _ => wp_pure.mpr h₁, fun _ => ?_⟩
    rw [wp_bind, wp_get, wp_ite]
    constructor
    · intro _
      rw [waitThen, wp_bind, wp_getCur]
      intro t _
      rw [wp_bind, wp_modify, wp_bind]
      have h₂ : OS.IntQUp { s₁ with cont := Function.update s₁.cont t (.flagPost o) } := h₁.congr rfl
      exact (h₂.of_keeps keeps_intQView_osSched).mono fun _ _ h₃ => wp_pure.mpr h₃
    · intro _
      rw [wp_bind, wp_getObj]
      exact wp_pure.mpr h₁
  rw [flagPost]
  refine wp_ite.mpr ⟨fun _ => ?_, fun _ => ?_⟩
  · rw [wp_bind, wp_modObj]
    exact hrest _ (h.congr rfl)
  · rw [wp_bind, wp_modObj]
    exact hrest _ (h.congr rfl)

theorem rdyListMoveHeadToTail_up {p : ℕ} (h : s.IntQUp) (hp : p ≠ 0) :
    wp n cfg (rdyListMoveHeadToTail p) (fun _ s' => s'.IntQUp) s := by
  have hlinks (u : TcbId) (f : TCB → TCB) (hf : ∀ c, (f c).prio = c.prio ∧ (f c).taskState = c.taskState) :
      Keeps OS.intQView (modTcb u f) := keeps_intQView_modTcb hf
  rw [rdyListMoveHeadToTail]
  refine h.of_keeps (keeps_bind (keeps_getRdyList p) fun l => ?_)
  rcases l.nbrEntries with _ | _ | _ | k
  · exact keeps_pure _
  · exact keeps_pure _
  · refine keeps_bind (keeps_deref _) fun _ => keeps_bind (keeps_deref _) fun _ => ?_
    refine keeps_bind (hlinks _ _ fun _ => ⟨rfl, rfl⟩) fun _ => keeps_bind (hlinks _ _ fun _ => ⟨rfl, rfl⟩) fun _ => ?_
    exact keeps_intQView_modRdyList hp _
  · refine keeps_bind (keeps_deref _) fun _ => keeps_bind (keeps_deref _) fun _ => keeps_bind (keeps_getTcb _) fun _ => ?_
    refine keeps_bind (keeps_deref _) fun _ => keeps_bind (hlinks _ _ fun _ => ⟨rfl, rfl⟩) fun _ => ?_
    refine keeps_bind (hlinks _ _ fun _ => ⟨rfl, rfl⟩) fun _ => keeps_bind (hlinks _ _ fun _ => ⟨rfl, rfl⟩) fun _ => ?_
    exact keeps_intQView_modRdyList hp _

theorem schedRoundRobin_up (h : s.IntQUp) (p : ℕ) : wp n cfg (schedRoundRobin p) (fun _ s' => s'.IntQUp) s := by
  rw [schedRoundRobin, wp_bind, wp_get, wp_ite]
  refine ⟨fun _ => wp_pure.mpr h, fun _ => ?_⟩
  rw [wp_bind, wp_getRdyList]
  intro _
  generalize hl : s.rdyList p = l
  cases l.headPtr with
  | none => exact wp_pure.mpr h
  | some t =>
    have hrest (s₁ : OS) (h₁ : s₁.IntQUp) : wp n cfg (do
        if (← getTcb t).timeQuantaCtr > 0 then return ()
        if l.nbrEntries < 2 then return ()
        if s.schedLockNestingCtr > 0 then return ()
        rdyListMoveHeadToTail p
        loadTimeQuanta p) (fun _ s' => s'.IntQUp) s₁ := by
      rw [wp_bind, wp_getTcb, wp_ite]
      refine ⟨fun _ => wp_pure.mpr h₁, fun _ => wp_ite.mpr ⟨fun _ => wp_pure.mpr h₁, fun hlt => ?_⟩⟩
      refine wp_ite.mpr ⟨fun _ => wp_pure.mpr h₁, fun _ => ?_⟩
      have hp : p ≠ 0 := by
        rintro rfl
        rw [h.2.list] at hl
        subst hl
        exact hlt (by decide)
      rw [wp_bind]
      refine (rdyListMoveHeadToTail_up h₁ hp).mono fun _ s₂ h₂ => h₂.of_keeps ?_
      refine keeps_bind (keeps_getRdyList p) fun _ => keeps_bind (keeps_deref _) fun _ => keeps_bind keeps_get fun _ => ?_
      exact keeps_intQView_modTcb fun _ => ⟨rfl, rfl⟩
    refine wp_ite.mpr ⟨fun _ => wp_pure.mpr h, fun _ => ?_⟩
    rw [wp_bind, wp_getTcb]
    refine wp_ite.mpr ⟨fun _ => ?_, fun _ => hrest s h⟩
    rw [wp_bind, wp_modTcb]
    exact hrest _ (h.modTcb rfl fun _ => rfl)

theorem intQTmrSignal_up (h : s.IntQUp) : wp n cfg intQTmrSignal (fun _ s' => s'.IntQUp) s := by
  rw [intQTmrSignal, wp_bind, wp_modify, wp_bind, wp_get, wp_ite]
  refine ⟨fun _ => ?_, fun _ => wp_pure.mpr (h.congr rfl)⟩
  rw [wp_bind, wp_modify, wp_bind, wp_tsGet, wp_bind]
  refine (taskSemPost_up ?_ (some tmrTaskTCB) optPostNone _).mono fun _ _ h₁ => wp_pure.mpr h₁
  exact h.congr rfl

/-- The post suspends the task that makes it again. -/
def IntQEntry.SuspendsIntQ (e : IntQEntry) : Prop :=
  e.type = .taskSuspend ∧ (e.objPtr = none ∨ e.objPtr = some intQTaskTCB)

theorem rePost_up (h : s.IntQUp) (he : ¬ e.SuspendsIntQ) : wp n cfg e.rePost (fun _ s' => s'.IntQUp) s := by
  rw [IntQEntry.rePost]
  cases ht : e.type with
  | none => exact wp_pure.mpr h
  | flag =>
    rw [wp_bind, wp_deref]
    intro o _
    rw [wp_bind]
    exact (flagPost_up h o _ _ _).mono fun _ _ h₁ => wp_pure.mpr h₁
  | q =>
    rw [wp_bind, wp_deref]
    intro o _
    rw [wp_bind]
    exact (qPost_up h o _ _ _ _).mono fun _ _ h₁ => wp_pure.mpr h₁
  | sem =>
    rw [wp_bind, wp_deref]
    intro o _
    rw [wp_bind]
    exact (semPost_up h o _ _).mono fun _ _ h₁ => wp_pure.mpr h₁
  | taskMsg =>
    rw [wp_bind]
    exact (taskQPost_up h _ _ _ _ _).mono fun _ _ h₁ => wp_pure.mpr h₁
  | taskResume =>
    rw [wp_bind, wp_deref]
    intro t _
    rw [wp_bind]
    exact (taskResume_up h).mono fun _ _ h₁ => wp_pure.mpr h₁
  | taskSignal =>
    rw [wp_bind]
    exact (taskSemPost_up h _ _ _).mono fun _ _ h₁ => wp_pure.mpr h₁
  | taskSuspend =>
    cases ho : e.objPtr with
    | none => exact absurd ⟨ht, .inl ho⟩ he
    | some t =>
      have hne : t ≠ intQTaskTCB := by
        rintro rfl
        exact he ⟨ht, .inr ho⟩
      rw [wp_bind]
      exact (taskSuspend_up h hne).mono fun _ _ h₁ => wp_pure.mpr h₁
  | tick =>
    rw [wp_bind]
    exact (taskSemPost_up h _ _ _).mono fun _ _ h₁ => wp_pure.mpr h₁

end kernel

section ring

@[simp] theorem wp_onOS {m : K α} {Q : α → IntSys → Prop} :
    wp n cfg (onOS m) Q d ↔ wp n cfg m (fun a s => Q a { d with os := s }) d.os := wp_zoom

namespace IntQEntry

/-- The call that is to be made again for a post: its type and the arguments that the call takes. -/
def call (e : IntQEntry) : IntQEntry := e.type.fields.foldl (fun got f => e.read f got) (blank e.type)

theorem read_comm (e got : IntQEntry) (f g : IntQField) : e.read f (e.read g got) = e.read g (e.read f got) := by
  cases f <;> cases g <;> rfl

instance (e : IntQEntry) : RightCommutative fun got f => e.read f got := ⟨fun got f g => e.read_comm got g f⟩

def Loaded (todo : List IntQField) (got e : IntQEntry) : Prop := todo.foldl (fun got f => e.read f got) got = e.call

theorem Loaded.read {todo : List IntQField} {f : IntQField} (h : Loaded todo got e) (hf : f ∈ todo) :
    Loaded (todo.erase f) (e.read f got) e := by
  have hp := (List.perm_cons_erase hf).foldl_eq (f := fun got f => e.read f got) got
  rw [Loaded, ← h, hp]
  rfl

end IntQEntry

def IntQPhase.Ok (done w rep : List IntQEntry) : IntQPhase → Prop
  | check | sched => rep = done.map IntQEntry.call
  | select => rep = done.map IntQEntry.call ∧ w ≠ []
  | roundRobin => rep = done.map IntQEntry.call ∧ ∃ x w', w = x :: w' ∧ x.type = .tick
  | load todo got => rep = done.map IntQEntry.call ∧ ∃ x w', w = x :: w' ∧ IntQEntry.Loaded todo got x
  | tmr | release => ∃ x w', w = x :: w' ∧ rep = (done ++ [x]).map IntQEntry.call

/-- The posts `done` have been released and the posts `w` are in the ring. -/
structure IntSys.Ring (size : ℕ) (done w rep : List IntQEntry) (d : IntSys) : Prop where
  next : ∀ i < size, d.q.nextPtr i = if i + 1 = size then 0 else i + 1
  inPtr : d.q.inPtr = (done.length + w.length) % size
  outPtr : d.q.outPtr = done.length % size
  count : d.q.nbrEntries = w.length
  le : w.length ≤ size
  holds : Holds size d.q.entry done.length w
  phase : d.phase.Ok done w rep

theorem intQInitLoop_next (fuel i : ℕ) (q : IntQ) (j : ℕ) :
    (intQInitLoop fuel i q).nextPtr j = if i ≤ j ∧ j < i + fuel then j + 1 else q.nextPtr j := by
  induction fuel generalizing i q with
  | zero =>
    rw [intQInitLoop, if_neg (by omega)]
  | succ fuel ih =>
    rw [intQInitLoop, ih]
    dsimp only
    rcases eq_or_ne j i with rfl | hj
    · rw [if_neg (by omega), Function.update_self, if_pos (by omega)]
    · rw [Function.update_of_ne hj]
      have hiff : (i + 1 ≤ j ∧ j < i + 1 + fuel) ↔ (i ≤ j ∧ j < i + (fuel + 1)) := by omega
      rw [if_congr hiff rfl rfl]

theorem intQInit_ring (hsize : 0 < size) (s : OS) (q : IntQ) (p : ℕ) :
    IntSys.Ring size [] [] [] ⟨s, intQInit size q, p, .check⟩ where
  next i hi := by
    simp only [intQInit, Function.update_apply, intQInitLoop_next]
    split <;> split <;> try split
    all_goals omega
  inPtr := (Nat.zero_mod size).symm
  outPtr := (Nat.zero_mod size).symm
  count := rfl
  le := Nat.zero_le _
  holds := .nil
  phase := rfl

theorem IntQPhase.Ok.post {p : IntQPhase} (h : p.Ok done w rep) (e : IntQEntry) : p.Ok done (w ++ [e]) rep := by
  cases p with
  | check | sched => exact h
  | select => exact ⟨h.1, by simp⟩
  | roundRobin | load =>
    obtain ⟨h₁, x, w', rfl, h₂⟩ := h
    exact ⟨h₁, x, w' ++ [e], rfl, h₂⟩
  | tmr | release =>
    obtain ⟨x, w', rfl, h₂⟩ := h
    exact ⟨x, w' ++ [e], rfl, h₂⟩

theorem intQPost_spec : wp n cfg (intQPost size e) (fun err d' =>
    if d.q.nbrEntries < size then
      err = .none ∧ d'.phase = d.phase ∧ d'.q.nextPtr = d.q.nextPtr ∧ d'.q.inPtr = d.q.nextPtr d.q.inPtr ∧
        d'.q.outPtr = d.q.outPtr ∧ d'.q.nbrEntries = d.q.nbrEntries + 1 ∧
        d'.q.entry = Function.update d.q.entry d.q.inPtr e ∧ d'.os.tcb = d.os.tcb ∧ d'.os.IntQListed
    else err = .intQFull ∧ d' = { d with q := { d.q with ovfCtr := d.q.ovfCtr + 1 } }) d := by
  rw [intQPost, wp_bind, wp_get, wp_ite]
  constructor
  · intro hlt
    simp only [modIntQ, prioInsert, wp_bind, wp_modify, wp_onOS, wp_modRdyList, wp_modPrioTbl, wp_pure]
    intro _ _
    simp only [if_pos hlt, true_and]
    refine ⟨rfl, ?_, ?_⟩
    · simp [OS.modPrioTbl, OS.modRdyList]
    · simp [OS.modPrioTbl, OS.modRdyList, prioBit]
  · intro hge
    rw [wp_bind, modIntQ, wp_modify, wp_pure, if_neg hge]
    exact ⟨rfl, rfl⟩

theorem IntSys.Ring.post (H : d.Ring size done w rep) (hsize : 0 < size) (hd : d.q.nbrEntries < size)
    (hphase : d'.phase = d.phase) (hnext : d'.q.nextPtr = d.q.nextPtr) (hin : d'.q.inPtr = d.q.nextPtr d.q.inPtr)
    (hout : d'.q.outPtr = d.q.outPtr) (hnbr : d'.q.nbrEntries = d.q.nbrEntries + 1)
    (hentry : d'.q.entry = Function.update d.q.entry d.q.inPtr e) : d'.Ring size done (w ++ [e]) rep := by
  have hlt : w.length < size := H.count ▸ hd
  have hlen : (w ++ [e]).length = w.length + 1 := by simp
  refine ⟨?_, ?_, ?_, ?_, ?_, ?_, ?_⟩
  · rw [hnext]
    exact H.next
  · rw [hin, H.inPtr, H.next _ (Nat.mod_lt _ hsize), hlen, ← Nat.add_assoc, next_slot hsize]
  · rw [hout, H.outPtr]
  · rw [hnbr, H.count, hlen]
  · omega
  · rw [hentry, H.inPtr]
    exact H.holds.push hlt e
  · rw [hphase]
    exact H.phase.post e

theorem IntSys.Ring.head (H : d.Ring size done (x :: w) rep) : d.q.entry d.q.outPtr = x := by
  rw [H.outPtr]
  exact H.holds.head

theorem IntSys.Ring.goTo (H : d.Ring size done w rep) {p : IntQPhase} {rep' : List IntQEntry} (hp : p.Ok done w rep')
    (s : OS) : IntSys.Ring size done w rep' { d with os := s, phase := p } :=
  ⟨H.next, H.inPtr, H.outPtr, H.count, H.le, H.holds, hp⟩

theorem IntSys.Ring.release (H : d.Ring size done (x :: w) rep) (hsize : 0 < size)
    (hrep : rep = (done ++ [x]).map IntQEntry.call) : IntSys.Ring size (done ++ [x]) w rep
      { d with q := { d.q with outPtr := d.q.nextPtr d.q.outPtr, nbrEntries := d.q.nbrEntries - 1 }, phase := .check } where
  next := H.next
  inPtr := by
    have h := H.inPtr
    simp only [List.length_append, List.length_cons, List.length_nil] at h ⊢
    rw [h]
    congr 1
    omega
  outPtr := by
    dsimp only
    rw [H.outPtr, H.next _ (Nat.mod_lt _ hsize), List.length_append, List.length_singleton, next_slot hsize]
  count := by
    have h := H.count
    simp only [List.length_cons] at h ⊢
    omega
  le := by
    have h := H.le
    simp only [List.length_cons] at h
    omega
  holds := by
    rw [List.length_append]
    exact H.holds.tail
  phase := hrep

end ring

section run

/-- The posts `done` have been released and the posts `w` wait, and the task is ready if there are any. -/
structure IntSys.Serving (size : ℕ) (ls : List IntLabel) (done w : List IntQEntry) (d : IntSys) : Prop where
  accepted : accepted ls = done ++ w
  released : released ls = done.length
  ring : d.Ring size done w (reposted ls)
  apart : d.os.IntQApart
  listed : w ≠ [] → d.os.IntQListed
  posts : ∀ x ∈ done ++ w, ¬ x.SuspendsIntQ

theorem IntQEntry.not_suspendsIntQ_call (h : ¬ x.SuspendsIntQ) : ¬ x.call.SuspendsIntQ := by
  obtain ⟨type, objPtr, msgPtr, msgSize, flags, opt, ts⟩ := x
  cases type with
  | taskSuspend => exact h
  | _ =>
    rintro ⟨ht, -⟩
    cases ht

theorem IntSys.Serving.quiet (H : d.Serving size ls done w) (p : IntQPhase) (hp : p.Ok done w (reposted ls)) {s : OS}
    (ha : s.IntQApart) (hl : w ≠ [] → s.IntQListed) :
    ∃ done w, IntSys.Serving size (.quiet :: ls) done w { d with os := s, phase := p } :=
  ⟨done, w, H.accepted, H.released, H.ring.goTo hp s, ha, hl, H.posts⟩

theorem IntSys.Serving.up (H : d.Serving size ls done w) (hw : w ≠ []) : d.os.IntQUp := ⟨H.apart, H.listed hw⟩

theorem IntSys.Serving.task (H : d.Serving size ls done w) (hsize : 0 < size) (f : IntQField) :
    wp n cfg (intQTaskStep f) (fun l d' => ∃ done w, d'.Serving size (l :: ls) done w) d := by
  have hphase := H.ring.phase
  obtain ⟨s, q, p, phase⟩ := d
  rw [intQTaskStep, wp_bind, wp_get]
  cases phase with
  | check =>
    refine wp_ite.mpr ⟨fun h0 => ?_, fun h0 => ?_⟩
    · -- nothing waits, so that nothing is asked of the ready list
      have hw : w = [] := List.length_eq_zero_iff.mp (H.ring.count.symm.trans h0)
      simp only [prioRemove, goTo, wp_bind, wp_onOS, wp_modRdyList, wp_modPrioTbl, wp_modify, wp_pure]
      intro _ _
      exact H.quiet .sched hphase (H.apart.congr (fun _ => rfl) rfl) fun hne => absurd hw hne
    · have hw : w ≠ [] := by
        rintro rfl
        exact h0 H.ring.count
      rw [goTo, wp_bind, wp_modify, wp_pure]
      exact H.quiet .select ⟨hphase, hw⟩ H.apart H.listed
  | sched =>
    rw [wp_bind, wp_onOS]
    refine (keeps_intQView_osSched n cfg s).mono fun _ s₁ hv => ?_
    rw [goTo, wp_bind, wp_modify, wp_pure]
    exact H.quiet .check hphase (H.apart.of_view hv) fun hw => ((H.up hw).congr hv).2
  | select =>
    obtain ⟨hrep, hw⟩ := hphase
    obtain ⟨x, w', rfl⟩ := List.exists_cons_of_ne_nil hw
    have hx := H.ring.head
    dsimp only at hx ⊢
    rw [goTo, wp_bind, wp_modify, wp_pure, hx]
    split
    · rename_i ht
      exact H.quiet .roundRobin ⟨hrep, x, w', rfl, ht⟩ H.apart H.listed
    · exact H.quiet (.load x.type.fields (.blank x.type)) ⟨hrep, x, w', rfl, rfl⟩ H.apart H.listed
  | roundRobin =>
    obtain ⟨hrep, x, w', rfl, ht⟩ := hphase
    rw [wp_bind, wp_onOS]
    refine (schedRoundRobin_up (H.up (by simp)) p).mono fun _ s₁ h₁ => ?_
    rw [goTo, wp_bind, wp_modify, wp_pure]
    refine H.quiet (.load PostType.tick.fields (.blank .tick)) ⟨hrep, x, w', rfl, ?_⟩ h₁.1 fun _ => h₁.2
    rw [← ht]
    rfl
  | load todo got =>
    obtain ⟨hrep, x, w', rfl, hload⟩ := hphase
    cases todo with
    | nil =>
      -- the call is complete
      obtain rfl : got = x.call := hload
      have hn := IntQEntry.not_suspendsIntQ_call (H.posts x (by simp))
      rw [wp_bind, wp_onOS]
      refine (rePost_up (H.up (by simp)) hn).mono fun _ s₁ h₁ => ?_
      rw [goTo, wp_bind, wp_modify, wp_pure]
      have hrep' : reposted ls ++ [x.call] = (done ++ [x]).map IntQEntry.call := by
        rw [hrep, List.map_append]
        rfl
      refine ⟨done, x :: w', H.accepted, H.released, H.ring.goTo ?_ s₁, h₁.1, fun _ => h₁.2, H.posts⟩
      split
      · exact ⟨x, w', rfl, hrep'⟩
      · exact ⟨x, w', rfl, hrep'⟩
    | cons g todo =>
      refine wp_ite.mpr ⟨fun hf => ?_, fun _ => wp_fault⟩
      have hx := H.ring.head
      dsimp only at hx ⊢
      rw [goTo, wp_bind, wp_modify, wp_pure, hx]
      exact H.quiet (.load ((g :: todo).erase f) (x.read f got)) ⟨hrep, x, w', rfl, hload.read hf⟩ H.apart H.listed
  | tmr =>
    obtain ⟨x, w', rfl, hrep⟩ := hphase
    rw [wp_bind, wp_onOS]
    refine (intQTmrSignal_up (H.up (by simp))).mono fun _ s₁ h₁ => ?_
    rw [goTo, wp_bind, wp_modify, wp_pure]
    exact H.quiet .release ⟨x, w', rfl, hrep⟩ h₁.1 fun _ => h₁.2
  | release =>
    obtain ⟨x, w', rfl, hrep⟩ := hphase
    rw [modIntQ, wp_bind, wp_modify, wp_bind, goTo, wp_modify, wp_pure]
    have happ : (done ++ [x]) ++ w' = done ++ x :: w' := by simp
    refine ⟨done ++ [x], w', H.accepted.trans happ.symm, ?_, H.ring.release hsize hrep, H.apart,
      fun _ => H.listed (by simp), ?_⟩
    · rw [UcosIII.released, H.released, List.length_append, List.length_singleton]
    · rw [happ]
      exact H.posts

theorem IntSys.Serving.post (H : d.Serving size ls done w) (hsize : 0 < size) (he : ¬ e.SuspendsIntQ) :
    wp n cfg (intQPost size e) (fun x d' => ∃ done w, d'.Serving size (.post e x :: ls) done w) d := by
  refine intQPost_spec.mono fun x d' hd => ?_
  split at hd
  · rename_i hlt
    obtain ⟨rfl, hphase, hnext, hin, hout, hnbr, hentry, htcb, hlist⟩ := hd
    have hring := H.ring.post hsize hlt hphase hnext hin hout hnbr hentry
    refine ⟨done, w ++ [e], ?_, H.released, hring, ?_, fun _ => hlist, ?_⟩
    · rw [UcosIII.accepted, H.accepted, List.append_assoc]
    · exact H.apart.congr (fun t => by rw [htcb]) (by rw [htcb])
    · intro y hy
      rw [← List.append_assoc] at hy
      rcases List.mem_append.mp hy with hy | hy
      · exact H.posts y hy
      · rw [List.mem_singleton.mp hy]
        exact he
  · obtain ⟨rfl, rfl⟩ := hd
    have hring := H.ring
    exact ⟨done, w, H.accepted, H.released,
      ⟨hring.next, hring.inPtr, hring.outPtr, hring.count, hring.le, hring.holds, hring.phase⟩, H.apart, H.listed, H.posts⟩

theorem IntSys.Serving.os {m : K Unit} (H : d.Serving size ls done w) (hm : Keeps OS.intQView m) :
    wp n cfg (do onOS m; return IntLabel.quiet) (fun l d' => ∃ done w, d'.Serving size (l :: ls) done w) d := by
  rw [wp_bind, wp_onOS]
  refine (hm n cfg d.os).mono fun _ s₁ hv => wp_pure.mpr ?_
  exact H.quiet d.phase H.ring.phase (H.apart.of_view hv) fun hw => ((H.up hw).congr hv).2

theorem keeps_intQView_osIntEnter : Keeps OS.intQView osIntEnter := by
  refine keeps_bind keeps_get fun _ => keeps_ite (keeps_pure _) (keeps_ite (keeps_pure _) ?_)
  exact keeps_modify fun _ => rfl

theorem keeps_intQView_osIntExit : Keeps OS.intQView osIntExit := by
  refine keeps_bind keeps_get fun _ => keeps_ite (keeps_pure _) (keeps_ite (keeps_pure _) ?_)
  refine keeps_bind (keeps_modify fun _ => rfl) fun _ => keeps_ite (keeps_pure _) (keeps_ite (keeps_pure _) ?_)
  exact keeps_reschedule (fun _ _ _ => rfl) fun _ _ _ => rfl

theorem IntRun.serving (hsize : 0 < size) (run : IntRun cfg size (fun e => ¬ e.SuspendsIntQ) ls d) :
    ∃ done w, d.Serving size ls done w := by
  induction run with
  | init apart listed =>
    exact ⟨[], [], rfl, rfl, intQInit_ring hsize _ _ _, apart, fun _ => listed, by simp⟩
  | @step ls d d' e l _ he hx hP ih =>
    obtain ⟨done, w, H⟩ := ih
    cases e with
    | intEnter => exact hx.wp fun n => H.os keeps_intQView_osIntEnter
    | intExit => exact hx.wp fun n => H.os keeps_intQView_osIntExit
    | post e =>
      have hpost (n : ℕ) : wp n cfg (IntEvent.exec size (.post e)) (fun l d' => ∃ done w,
        d'.Serving size (l :: ls) done w) d := by
        rw [IntEvent.exec, wp_bind]
        exact (H.post hsize (hP e rfl)).mono fun _ _ h => wp_pure.mpr h
      exact hx.wp hpost
    | task f => exact hx.wp fun n => H.task hsize f

theorem IntQPhase.Ok.reposted {p : IntQPhase} (h : p.Ok done w rep) :
    rep = done.map IntQEntry.call ∨ ∃ x w', w = x :: w' ∧ rep = (done ++ [x]).map IntQEntry.call := by
  cases p with
  | check | sched => exact .inl h
  | select | roundRobin | load => exact .inl h.1
  | tmr | release => exact .inr h

/-- The number of accepted posts that have not been fully processed. -/
def held (ls : List IntLabel) : ℕ := (accepted ls).length - released ls

/-- The deferred posts are made again in their order and once each. -/
structure Replayed (cfg : Cfg) (size : ℕ) (ls : List IntLabel) (d : IntSys) : Prop where
  order : reposted ls <+: (accepted ls).map IntQEntry.call
  once : released ls ≤ (reposted ls).length ∧ (reposted ls).length ≤ released ls + 1
  all : held ls = 0 → reposted ls = (accepted ls).map IntQEntry.call
  full : ∀ e x d', Runs cfg (intQPost size e) d x d' →
    (x = .intQFull ↔ held ls = size) ∧ (x = .none ↔ held ls < size) ∧
      (x = .intQFull → d' = { d with q := { d.q with ovfCtr := d.q.ovfCtr + 1 } })
  ready : 0 < held ls → d.os.IntQListed

/-- As long as no interrupt suspends the task that it interrupts, the posts of interrupts are made again in their order
and once each, and the task that does so is ready while there are any. -/
theorem intRun_replayed (hsize : 1 ≤ size) (run : IntRun cfg size (fun e => ¬ e.SuspendsIntQ) ls d) :
    Replayed cfg size ls d := by
  obtain ⟨done, w, H⟩ := run.serving hsize
  have hheld : held ls = w.length := by
    rw [held, H.accepted, H.released, List.length_append]
    omega
  have hmap : (accepted ls).map IntQEntry.call = done.map IntQEntry.call ++ w.map IntQEntry.call := by
    rw [H.accepted, List.map_append]
  have hrep := H.ring.phase.reposted
  refine ⟨?_, ?_, ?_, ?_, ?_⟩
  · rw [hmap]
    rcases hrep with hrep | ⟨x, w', rfl, hrep⟩
    · rw [hrep]
      exact List.prefix_append _ _
    · rw [hrep, List.map_append, List.map_cons]
      exact ⟨w'.map IntQEntry.call, by simp⟩
  · rw [H.released]
    rcases hrep with hrep | ⟨x, w', -, hrep⟩ <;> rw [hrep] <;> simp
  · intro h0
    have hw : w = [] := List.length_eq_zero_iff.mp (hheld.symm.trans h0)
    rcases hrep with hrep | ⟨x, w', hw', -⟩
    · rw [hmap, hrep, hw]
      simp
    · rw [hw] at hw'
      cases hw'
  · intro e x d' hx
    have hd := hx.wp fun n => intQPost_spec
    have hle := H.ring.le
    rw [H.ring.count, ← hheld] at hd
    split at hd
    · rename_i hlt
      refine ⟨⟨fun h => ?_, fun h => absurd h (by omega)⟩, ⟨fun _ => hlt, fun _ => hd.1⟩, fun h => ?_⟩
      · rw [hd.1] at h
        cases h
      · rw [hd.1] at h
        cases h
    · rename_i hge
      refine ⟨⟨fun _ => by omega, fun _ => hd.1⟩, ⟨fun h => ?_, fun h => absurd h hge⟩, fun _ => hd.2⟩
      rw [hd.1] at h
      cases h
  · intro hpos
    apply H.listed
    rintro rfl
    rw [hheld] at hpos
    cases hpos

end run

section script

/-- The kernel right after `OSStart` has switched to the task, with the idle task as the only other one. -/
def OS.intQStart (cfg : Cfg) : OS :=
  { OS.boot cfg with
    tcb := fun t =>
      if t = intQTaskTCB then { TCB.dormant cfg with prio := 0, taskState := .rdy }
      else if t = idleTaskTCB then { TCB.dormant cfg with prio := cfg.prioMax - 1, taskState := .rdy }
      else TCB.dormant cfg
    rdyList := fun p =>
      if p = 0 then { headPtr := some intQTaskTCB, tailPtr := some intQTaskTCB, nbrEntries := 1 }
      else if p = cfg.prioMax - 1 then { headPtr := some idleTaskTCB, tailPtr := some idleTaskTCB, nbrEntries := 1 }
      else { headPtr := none, tailPtr := none, nbrEntries := 0 }
    prioTbl := fun i => (if i = 0 then prioBit 0 else 0) ||| if i = (cfg.prioMax - 1) / 32 then prioBit (cfg.prioMax - 1) else 0
    tcbCurPtr := some intQTaskTCB
    running := true }

theorem intQStart_apart : (OS.intQStart cfg).IntQApart := by
  have hlt := cfg.tickTaskPrio_lt
  refine ⟨fun t ht => ?_, by simp [OS.intQStart]⟩
  simp only [OS.intQStart, if_neg ht]
  split
  · have hpos : cfg.prioMax - 1 ≠ 0 := by omega
    exact hpos
  · have hpos : cfg.prioMax ≠ 0 := by omega
    exact hpos

theorem intQStart_listed : (OS.intQStart cfg).IntQListed := by
  refine ⟨by simp [OS.intQStart], ?_⟩
  simp [OS.intQStart, prioBit]

def IntEvent.keeps (P : IntQEntry → Bool) : IntEvent → Bool
  | post e => P e
  | intEnter | intExit | task _ => true

def intPlay (cfg : Cfg) (size : ℕ) (P : IntQEntry → Bool) (n : ℕ) :
    List IntEvent → List IntLabel → IntSys → Option (List IntLabel × IntSys)
  | [], ls, d => some (ls, d)
  | e :: es, ls, d =>
    if e.Enabled d ∧ e.keeps P = true then (e.exec size n cfg d).bind fun x => intPlay cfg size P n es (x.1 :: ls) x.2
    else none

theorem IntRun.mono {Q : IntQEntry → Prop} (run : IntRun cfg size P ls d) (hQ : ∀ e, P e → Q e) :
    IntRun cfg size Q ls d := by
  induction run with
  | init ha hl => exact .init ha hl
  | step _ he hx hP ih => exact .step ih he hx fun x h => hQ x (hP x h)

theorem IntRun.of_intPlay {R : IntQEntry → Bool} {es : List IntEvent} {ls' : List IntLabel}
    (run : IntRun cfg size (fun e => R e = true) ls d) (hp : intPlay cfg size R n es ls d = some (ls', d')) :
    IntRun cfg size (fun e => R e = true) ls' d' := by
  induction es generalizing ls d with
  | nil =>
    cases hp
    exact run
  | cons e es ih =>
    rw [intPlay] at hp
    split at hp
    · rename_i he
      obtain ⟨⟨l, d₁⟩, hx, hp⟩ := Option.bind_eq_some_iff.mp hp
      refine ih (.step run he.1 ⟨n, hx⟩ ?_) hp
      rintro x rfl
      exact he.2
    · cases hp

/-- Into a ring of two, an interrupt posts a semaphore, a signal and a tick, of which the last is refused. -/
theorem intRun_replayed_two : ∃ ls d, IntRun Cfg.repository 2 (fun e => ¬ e.SuspendsIntQ) ls d ∧ 1 ≤ 2 ∧
    ls.any (fun l => l = .post (.blank .tick) .intQFull) = true ∧ (accepted ls).length = 2 ∧ held ls = 0 ∧
    Replayed Cfg.repository 2 ls d := by
  have hplay : ((intPlay Cfg.repository 2 (fun e => e.type ≠ .taskSuspend) 40
      ([.intEnter, .post ⟨.sem, some 0, none, 0, 0, optPost1, 7⟩, .post ⟨.taskSignal, some 0, none, 0, 0, optPostNone, 8⟩,
        .post (.blank .tick), .intExit, .task .ts, .task .ts, .task .ts, .task .opt, .task .objPtr, .intEnter, .intExit] ++
        [.task .ts, .task .ts, .task .ts, .task .ts, .task .opt, .task .ts, .task .objPtr, .task .ts, .task .ts])
      [] ⟨OS.intQStart Cfg.repository, intQInit 2 ⟨fun _ => .blank .none, fun _ => 0, 0, 0, 0, 0, 0⟩, 0, .check⟩).any fun x =>
        x.1.any (fun l => l = .post (.blank .tick) .intQFull) = true ∧ (accepted x.1).length = 2 ∧ held x.1 = 0) = true := by
    decide +kernel
  obtain ⟨⟨ls, d⟩, hes, hQ⟩ := (Option.any_eq_true _ _).mp hplay
  obtain ⟨h₁, h₂, h₃⟩ := of_decide_eq_true hQ
  have run := IntRun.of_intPlay (.init intQStart_apart intQStart_listed) hes
  have run' : IntRun Cfg.repository 2 (fun e => ¬ e.SuspendsIntQ) ls d :=
    run.mono fun e he hs => of_decide_eq_true he hs.1
  exact ⟨ls, d, run', by decide, h₁, h₂, h₃, intRun_replayed (by decide) run'⟩

/-- An interrupt suspends the task that it interrupts. The task that makes the call again suspends itself: it is off the
ready list, and the post is still in the ring. -/
theorem intQ_suspends_itself : ∃ ls d, IntRun Cfg.repository 2 (fun _ => True) ls d ∧
    accepted ls = [.blank .taskSuspend] ∧ d.q.nbrEntries = 1 ∧ (d.os.rdyList 0).nbrEntries = 0 ∧
    ¬ Replayed Cfg.repository 2 ls d := by
  have hplay : ((intPlay Cfg.repository 2 (fun _ => true) 40
      [.intEnter, .post (.blank .taskSuspend), .intExit, .task .objPtr, .task .objPtr, .task .objPtr, .task .objPtr]
      [] ⟨OS.intQStart Cfg.repository, intQInit 2 ⟨fun _ => .blank .none, fun _ => 0, 0, 0, 0, 0, 0⟩, 0, .check⟩).any fun x =>
        accepted x.1 = [.blank .taskSuspend] ∧ x.2.q.nbrEntries = 1 ∧ (x.2.os.rdyList 0).nbrEntries = 0 ∧ held x.1 = 1)
      = true := by decide +kernel
  obtain ⟨⟨ls, d⟩, hes, hQ⟩ := (Option.any_eq_true _ _).mp hplay
  obtain ⟨h₁, h₂, h₃, h₄⟩ := of_decide_eq_true hQ
  have run := IntRun.of_intPlay (.init intQStart_apart intQStart_listed) hes
  refine ⟨ls, d, run.mono fun _ _ => trivial, h₁, h₂, h₃, fun hR => ?_⟩
  have hheld : held ls = 1 := h₄
  have hl := (hR.ready (by omega)).list
  rw [hl] at h₃
  cases h₃

end script

end UcosIII
