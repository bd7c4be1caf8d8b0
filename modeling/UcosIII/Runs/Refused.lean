import UcosIII.Abstract.FileCalls

namespace UcosIII

open Prog

variable {n : ℕ} {cfg : Cfg} {s s' : OS} {a : Abs} {t : TcbId} {o : ObjId} {r : Option Ret}

/-- The error says that the request was refused; the others tell how a request went that was granted. -/
def Err.refuses : Err → Bool
  | none | mutexNesting | mutexOwner | pendAbort | timeout | objDel | statusInvalid | tmrStopped | tmrNoCallback => false
  | _ => true

def Refused (r : Option Ret) : Prop := ∃ x ∈ r, x.err.refuses = true

/-- A call that is answered with `r` has left everything as it was if it was refused. -/
def NoOp (s : OS) (r : Option Ret) (s' : OS) : Prop := Refused r → s' = s

section rules

variable {α : Type} {Q : α → OS → Prop}

theorem NoOp.same : NoOp s r s := fun _ => rfl

theorem NoOp.granted {x : Ret} (hx : x.err.refuses = false) : NoOp s (some x) s' := by
  rintro ⟨y, hy, h⟩
  cases hy
  rw [hx] at h
  cases h

theorem NoOp.waits : NoOp s none s' := by
  rintro ⟨y, hy, -⟩
  cases hy

theorem noOp_waitThen (k : Cont) : wp n cfg (waitThen k) (fun r s' => NoOp s r s') s' :=
  wp_bind_any fun _ _ => wp_bind_any fun _ _ => wp_bind_any fun _ _ => wp_pure.mpr .waits

end rules

section tasks

theorem osTaskCreate_noOp (x : TaskArgs) : wp n cfg (osTaskCreate x) (fun e s' => NoOp s (some { err := e }) s') s := by
  rw [osTaskCreate, wp_bind, wp_ask, wp_bind, wp_get]
  cases taskCreateCheck cfg s x with
  | inl e => exact wp_pure.mpr .same
  | inr t =>
    refine wp_bind_any fun _ _ => wp_bind.mpr (wp_get.mpr (wp_ite.mpr ⟨fun _ => wp_pure.mpr (.granted rfl), fun _ => ?_⟩))
    exact wp_bind_any fun _ _ => wp_pure.mpr (.granted rfl)

theorem osTaskDel_noOp (p : Option TcbId) : wp n cfg (osTaskDel p) (fun e s' => NoOp s (some { err := e }) s') s := by
  rw [osTaskDel, wp_bind, wp_get, wp_ite]
  refine ⟨fun _ => wp_pure.mpr .same, fun _ => wp_ite.mpr ⟨fun _ => wp_pure.mpr .same, fun _ => ?_⟩⟩
  rw [wp_bind, wp_target]
  intro t _
  rw [wp_bind, wp_getTcb, wp_ite]
  refine ⟨fun _ => wp_pure.mpr .same, fun _ => ?_⟩
  exact wp_bind_any fun _ _ => wp_bind_any fun _ _ => wp_pure.mpr (.granted rfl)

theorem suspendTcb_noOp (t : TcbId) : wp n cfg (suspendTcb t) (fun e s' => e = .none ∨ e = .stateInvalid ∧ s' = s) s := by
  rw [suspendTcb, wp_bind, wp_getTcb]
  cases (s.tcb t).taskState with
  | rdy => exact wp_bind_any fun _ _ => wp_bind_any fun _ _ => wp_pure.mpr (.inl rfl)
  | del => exact wp_pure.mpr (.inr ⟨rfl, rfl⟩)
  | _ => exact wp_bind_any fun _ _ => wp_pure.mpr (.inl rfl)

theorem osTaskSuspend_noOp (p : Option TcbId) : wp n cfg (osTaskSuspend p) (fun e s' => NoOp s (some { err := e }) s') s := by
  rw [osTaskSuspend, wp_bind, wp_get, wp_ite]
  refine ⟨fun _ => wp_pure.mpr .same, fun _ => wp_ite.mpr ⟨fun _ => wp_pure.mpr .same, fun _ => ?_⟩⟩
  rw [taskSuspend, wp_bind, wp_target]
  intro t _
  rw [wp_bind, wp_get, wp_ite]
  refine ⟨fun _ => wp_pure.mpr .same, fun _ => ?_⟩
  rw [wp_bind]
  refine (suspendTcb_noOp t).mono fun e s₁ h => wp_ite.mpr ⟨fun he => wp_pure.mpr ?_, fun he => ?_⟩
  · rcases h with rfl | ⟨-, rfl⟩
    · cases he
    · exact .same
  · obtain rfl := h.resolve_right fun h' => he h'.1
    exact wp_bind_any fun _ _ => wp_pure.mpr (.granted rfl)

theorem resumeTcb_noOp (t : TcbId) : wp n cfg (resumeTcb t) (fun e s' =>
    e = .none ∧ (s.tcb t).taskState.isSuspended = true ∨
    s' = s ∧ (e = .taskNotSuspended ∧ (s.tcb t).taskState.isSuspended = false ∨
      e = .stateInvalid ∧ (s.tcb t).taskState.isSuspended = true)) s := by
  rw [resumeTcb, wp_bind, wp_getTcb]
  cases (s.tcb t).taskState with
  | rdy | dly | pend | pendTimeout => exact wp_pure.mpr (.inr ⟨rfl, .inl ⟨rfl, rfl⟩⟩)
  | suspended =>
    refine wp_bind_any fun _ _ => wp_bind.mpr (wp_getTcb.mpr (wp_ite.mpr ⟨fun _ => ?_, fun _ => wp_pure.mpr (.inl ⟨rfl, rfl⟩)⟩))
    exact wp_bind_any fun _ _ => wp_pure.mpr (.inl ⟨rfl, rfl⟩)
  | dlySuspended | pendSuspended | pendTimeoutSuspended => exact wp_bind_any fun _ _ => wp_pure.mpr (.inl ⟨rfl, rfl⟩)
  | del => exact wp_pure.mpr (.inr ⟨rfl, .inr ⟨rfl, rfl⟩⟩)

theorem changePrioTcb_noOp (t : TcbId) (prio : ℕ) (self : Bool) :
    wp n cfg (changePrioTcb t prio self) (fun e s' => e = .none ∨ e = .stateInvalid ∧ s' = s) s := by
  rw [changePrioTcb, wp_bind, wp_getTcb]
  cases (s.tcb t).taskState with
  | rdy | dly | suspended | dlySuspended => exact wp_bind_any fun _ _ => wp_pure.mpr (.inl rfl)
  | pend | pendTimeout | pendSuspended | pendTimeoutSuspended =>
    cases (s.tcb t).pendOn with
    | nothing => exact wp_pure.mpr (.inl rfl)
    | _ => exact wp_bind_any fun _ _ => wp_pure.mpr (.inl rfl)
  | del => exact wp_pure.mpr (.inr ⟨rfl, rfl⟩)

theorem osTaskChangePrio_noOp (p : Option TcbId) (prio : ℕ) :
    wp n cfg (osTaskChangePrio p prio) (fun e s' => NoOp s (some { err := e }) s') s := by
  rw [osTaskChangePrio, wp_bind, wp_get, wp_ite]
  refine ⟨fun _ => wp_pure.mpr .same, fun _ => ?_⟩
  rw [wp_bind, wp_ask, wp_ite]
  refine ⟨fun _ => wp_pure.mpr .same, fun _ => ?_⟩
  rw [wp_bind, wp_target]
  intro t _
  rw [wp_bind]
  refine (changePrioTcb_noOp t prio _).mono fun e s₁ h => wp_ite.mpr ⟨fun he => wp_pure.mpr ?_, fun he => ?_⟩
  · rcases h with rfl | ⟨-, rfl⟩
    · cases he
    · exact .same
  · obtain rfl := h.resolve_right fun h' => he h'.1
    exact wp_bind_any fun _ _ => wp_pure.mpr (.granted rfl)

theorem osTaskTimeQuantaSet_noOp (p : Option TcbId) (v : Tick) :
    wp n cfg (osTaskTimeQuantaSet p v) (fun e s' => NoOp s (some { err := e }) s') s := by
  rw [osTaskTimeQuantaSet, wp_bind, wp_get, wp_ite]
  refine ⟨fun _ => wp_pure.mpr .same, fun _ => ?_⟩
  exact wp_bind_any fun _ _ => wp_bind_any fun _ _ => wp_bind_any fun _ _ => wp_pure.mpr (.granted rfl)

theorem osTaskSemPend_noOp (timeout : Tick) (opt : Opt) :
    wp n cfg (osTaskSemPend timeout opt) (fun r s' => NoOp s r s') s := by
  rw [osTaskSemPend, wp_bind, wp_get, wp_ite]
  refine ⟨fun _ => wp_pure.mpr .same, fun _ => wp_ite.mpr ⟨fun _ => wp_pure.mpr .same, fun _ => ?_⟩⟩
  rw [wp_bind, wp_getCur]
  intro t _
  rw [wp_bind, wp_getTcb, wp_ite]
  refine ⟨fun _ => wp_bind_any fun _ _ => wp_pure.mpr (.granted rfl), fun _ => ?_⟩
  refine wp_ite.mpr ⟨fun _ => wp_pure.mpr .same, fun _ => wp_ite.mpr ⟨fun _ => wp_pure.mpr .same, fun _ => ?_⟩⟩
  exact wp_bind_any fun _ _ => noOp_waitThen _

theorem osTaskSemPendAbort_noOp (p : Option TcbId) (opt : Opt) :
    wp n cfg (osTaskSemPendAbort p opt) (fun x s' => NoOp s (some x) s') s := by
  rw [osTaskSemPendAbort, wp_bind, wp_get, wp_ite]
  refine ⟨fun _ => wp_pure.mpr .same, fun _ => wp_ite.mpr ⟨fun _ => wp_pure.mpr .same, fun _ => ?_⟩⟩
  refine wp_ite.mpr ⟨fun _ => wp_pure.mpr .same, fun _ => ?_⟩
  rw [wp_bind, wp_deref]
  intro t _
  rw [wp_bind, wp_getTcb, wp_ite]
  refine ⟨fun _ => wp_pure.mpr .same, fun _ => ?_⟩
  exact wp_bind_any fun _ _ => wp_bind_any fun _ _ => wp_pure.mpr (.granted rfl)

theorem osTaskQPendAbort_noOp (p : Option TcbId) (opt : Opt) :
    wp n cfg (osTaskQPendAbort p opt) (fun x s' => NoOp s (some x) s') s := by
  rw [osTaskQPendAbort, wp_bind, wp_get, wp_ite]
  refine ⟨fun _ => wp_pure.mpr .same, fun _ => wp_ite.mpr ⟨fun _ => wp_pure.mpr .same, fun _ => ?_⟩⟩
  refine wp_ite.mpr ⟨fun _ => wp_pure.mpr .same, fun _ => ?_⟩
  rw [wp_bind, wp_deref]
  intro t _
  rw [wp_bind, wp_getTcb, wp_ite]
  refine ⟨fun _ => wp_pure.mpr .same, fun _ => ?_⟩
  exact wp_bind_any fun _ _ => wp_bind_any fun _ _ => wp_pure.mpr (.granted rfl)

theorem osTaskSemSet_noOp (p : Option TcbId) (cnt : ℕ) : wp n cfg (osTaskSemSet p cnt) (fun x s' => NoOp s (some x) s') s := by
  rw [osTaskSemSet, wp_bind, wp_get, wp_ite]
  refine ⟨fun _ => wp_pure.mpr .same, fun _ => ?_⟩
  exact wp_bind_any fun _ _ => wp_bind_any fun _ _ => wp_bind_any fun _ _ => wp_pure.mpr (.granted rfl)

theorem osTaskQFlush_noOp (p : Option TcbId) : wp n cfg (osTaskQFlush p) (fun x s' => NoOp s (some x) s') s := by
  rw [osTaskQFlush, wp_bind, wp_get, wp_ite]
  refine ⟨fun _ => wp_pure.mpr .same, fun _ => ?_⟩
  exact wp_bind_any fun _ _ => wp_bind_any fun _ _ => wp_bind_any fun _ _ => wp_bind_any fun _ _ => wp_pure.mpr (.granted rfl)

end tasks

section messages

theorem msgQGet_noOp (q : MsgQ) : wp n cfg (msgQGet q) (fun x s' => x.2.err = .none ∨ x.1 = q ∧ s' = s) s := by
  rw [msgQGet, wp_ite]
  refine ⟨fun _ => wp_pure.mpr (.inr ⟨rfl, rfl⟩), fun _ => ?_⟩
  refine wp_bind_any fun _ _ => wp_bind_any fun _ _ => ?_
  exact wp_bind_any fun _ _ => wp_bind_any fun _ _ => wp_bind_any fun _ _ => wp_pure.mpr (.inl rfl)

theorem msgQPut_noOp (q : MsgQ) (pVoid : Option ℕ) (msgSize : ℕ) (opt : Opt) (ts : ℕ) :
    wp n cfg (msgQPut q pVoid msgSize opt ts) (fun x s' => x.2 = .none ∨ x.1 = q ∧ s' = s) s := by
  rw [msgQPut, wp_ite]
  refine ⟨fun _ => wp_pure.mpr (.inr ⟨rfl, rfl⟩), fun _ => ?_⟩
  rw [wp_bind]
  unfold getMsgPool
  rw [wp_bind_pure, wp_get, wp_ite]
  refine ⟨fun _ => wp_pure.mpr (.inr ⟨rfl, rfl⟩), fun _ => ?_⟩
  refine wp_bind_any fun _ _ => wp_bind_any fun _ _ => wp_bind_any fun _ _ => wp_bind_any fun _ _ => ?_
  have hend {m : K MsgQ} (f : MsgQ → K Unit) (g : MsgQ → MsgQ) (s₁ : OS) :
      wp n cfg (do let q' ← m; f q'; return (g q', Err.none)) (fun x s' => x.2 = .none ∨ x.1 = q ∧ s' = s) s₁ :=
    wp_bind_any fun _ _ => wp_bind_any fun _ _ => wp_pure.mpr (.inl rfl)
  refine wp_ite.mpr ⟨fun _ => hend _ _ _, fun _ => wp_ite.mpr ⟨fun _ => ?_, fun _ => ?_⟩⟩
  · exact wp_bind_any fun _ _ => wp_bind_any fun _ _ => wp_bind_any fun _ _ => hend _ _ _
  · exact wp_bind_any fun _ _ => hend _ _ _

theorem OS.modTcb_self (s : OS) (t : TcbId) {f : TCB → TCB} (hf : f (s.tcb t) = s.tcb t) : s.modTcb t f = s := by
  rw [modTcb, hf, Function.update_eq_self]

theorem OS.modObj_self (s : OS) (o : ObjId) {f : Obj → Obj} (hf : f (s.obj o) = s.obj o) : s.modObj o f = s := by
  rw [modObj, hf, Function.update_eq_self]

theorem osTaskQPend_noOp (timeout : Tick) (opt : Opt) (hasSize : Bool) :
    wp n cfg (osTaskQPend timeout opt hasSize) (fun r s' => NoOp s r s') s := by
  rw [osTaskQPend, wp_bind, wp_get, wp_ite]
  refine ⟨fun _ => wp_pure.mpr .same, fun _ => wp_ite.mpr ⟨fun _ => wp_pure.mpr .same, fun _ => ?_⟩⟩
  refine wp_ite.mpr ⟨fun _ => wp_pure.mpr .same, fun _ => ?_⟩
  rw [wp_bind, wp_getCur]
  intro t _
  rw [wp_bind, wp_getTcb, wp_bind]
  refine (msgQGet_noOp _).mono ?_
  rintro ⟨q, x⟩ s₁ hx
  rw [wp_bind, wp_modTcb]
  dsimp only at hx ⊢
  rw [wp_ite]
  refine ⟨fun hnone => wp_pure.mpr (.granted (by rw [hnone]; rfl)), fun hne => ?_⟩
  obtain ⟨rfl, rfl⟩ := hx.resolve_left hne
  rw [OS.modTcb_self _ _ rfl, wp_ite]
  refine ⟨fun _ => wp_pure.mpr .same, fun _ => wp_ite.mpr ⟨fun _ => wp_pure.mpr .same, fun _ => ?_⟩⟩
  exact wp_bind_any fun _ _ => noOp_waitThen _

theorem taskQPut_noOp (t : TcbId) (pVoid : Option ℕ) (msgSize : ℕ) (opt : Opt) (ts : ℕ) :
    wp n cfg (taskQPut t pVoid msgSize opt ts) (fun e s' => NoOp s (some { err := e }) s') s := by
  rw [taskQPut, wp_bind, wp_getTcb, wp_bind]
  refine (msgQPut_noOp _ pVoid msgSize opt ts).mono ?_
  rintro ⟨q, e⟩ s₁ hx
  rw [wp_bind, wp_modTcb]
  refine wp_pure.mpr ?_
  rcases hx with hx | ⟨hq, rfl⟩
  · dsimp only at hx ⊢
    rw [hx]
    exact .granted rfl
  · dsimp only at hq ⊢
    rw [hq, OS.modTcb_self _ _ rfl]
    exact .same

theorem osTaskQPost_noOp (p : Option TcbId) (pVoid : Option ℕ) (msgSize : ℕ) (opt : Opt) :
    wp n cfg (osTaskQPost p pVoid msgSize opt) (fun e s' => NoOp s (some { err := e }) s') s := by
  rw [osTaskQPost, wp_ite]
  refine ⟨fun _ => wp_pure.mpr .same, fun _ => ?_⟩
  rw [wp_bind, wp_tsGet, taskQPost, wp_bind, wp_target]
  intro t _
  rw [wp_bind, wp_getTcb]
  cases (s.tcb t).taskState with
  | rdy | dly | suspended | dlySuspended => exact taskQPut_noOp t pVoid msgSize opt _
  | pend | pendTimeout | pendSuspended | pendTimeoutSuspended =>
    refine wp_ite.mpr ⟨fun _ => ?_, fun _ => taskQPut_noOp t pVoid msgSize opt _⟩
    exact wp_bind_any fun _ _ => wp_bind_any fun _ _ => wp_pure.mpr (.granted rfl)
  | del => exact wp_pure.mpr .same

theorem osQPend_noOp (p : Option ObjId) (timeout : Tick) (opt : Opt) (hasSize : Bool) :
    wp n cfg (osQPend p timeout opt hasSize) (fun r s' => NoOp s r s') s := by
  rw [osQPend.eq_def, wp_bind, wp_get, wp_ite]
  refine ⟨fun _ => wp_pure.mpr .same, fun _ => ?_⟩
  cases p with
  | none => exact wp_pure.mpr .same
  | some o =>
    dsimp only
    rw [wp_ite]
    refine ⟨fun _ => wp_pure.mpr .same, fun _ => wp_ite.mpr ⟨fun _ => wp_pure.mpr .same, fun _ => ?_⟩⟩
    rw [wp_bind, wp_getObj, wp_ite]
    refine ⟨fun _ => wp_pure.mpr .same, fun _ => ?_⟩
    rw [wp_bind, wp_getObj, wp_bind]
    refine (msgQGet_noOp _).mono ?_
    rintro ⟨q, x⟩ s₁ hx
    rw [wp_bind, wp_modObj]
    dsimp only at hx ⊢
    rw [wp_ite]
    refine ⟨fun hnone => wp_pure.mpr (.granted (by rw [hnone]; rfl)), fun hne => ?_⟩
    obtain ⟨rfl, rfl⟩ := hx.resolve_left hne
    rw [OS.modObj_self _ _ rfl, wp_ite]
    refine ⟨fun _ => wp_pure.mpr .same, fun _ => wp_ite.mpr ⟨fun _ => wp_pure.mpr .same, fun _ => ?_⟩⟩
    exact wp_bind_any fun _ _ => noOp_waitThen _

theorem osQPost_noOp (p : Option ObjId) (pVoid : Option ℕ) (msgSize : ℕ) (opt : Opt) :
    wp n cfg (osQPost p pVoid msgSize opt) (fun e s' => NoOp s (some { err := e }) s') s := by
  rw [osQPost.eq_def]
  cases p with
  | none => exact wp_pure.mpr .same
  | some o =>
    dsimp only
    rw [wp_ite]
    refine ⟨fun _ => wp_pure.mpr .same, fun _ => ?_⟩
    rw [wp_bind, wp_getObj, wp_ite]
    refine ⟨fun _ => wp_pure.mpr .same, fun _ => ?_⟩
    rw [wp_bind, wp_tsGet, qPost, wp_bind, wp_getObj, wp_ite]
    refine ⟨fun _ => ?_, fun _ => wp_bind_any fun _ _ => wp_bind_any fun _ _ => wp_pure.mpr (.granted rfl)⟩
    rw [wp_bind]
    refine (msgQPut_noOp _ pVoid msgSize _ _).mono ?_
    rintro ⟨q, e⟩ s₁ hx
    rw [wp_bind, wp_modObj]
    refine wp_pure.mpr ?_
    rcases hx with hx | ⟨hq, rfl⟩
    · dsimp only at hx ⊢
      rw [hx]
      exact .granted rfl
    · dsimp only at hq ⊢
      rw [hq, OS.modObj_self _ _ rfl]
      exact .same

end messages

section objects

theorem objPendAbort_noOp (type : ObjType) (p : Option ObjId) (opt : Opt) :
    wp n cfg (objPendAbort type p opt) (fun x s' => NoOp s (some x) s') s := by
  rw [objPendAbort.eq_def, wp_bind, wp_get, wp_ite]
  refine ⟨fun _ => wp_pure.mpr .same, fun _ => ?_⟩
  cases p with
  | none => exact wp_pure.mpr .same
  | some o =>
    dsimp only
    rw [wp_ite]
    refine ⟨fun _ => wp_pure.mpr .same, fun _ => ?_⟩
    rw [wp_bind, wp_getObj, wp_ite]
    refine ⟨fun _ => wp_pure.mpr .same, fun _ => ?_⟩
    rw [wp_bind, wp_getObj, wp_ite]
    refine ⟨fun _ => wp_pure.mpr .same, fun _ => ?_⟩
    exact wp_bind_any fun _ _ => wp_bind_any fun _ _ => wp_pure.mpr (.granted rfl)

theorem osSemPend_noOp (p : Option ObjId) (timeout : Tick) (opt : Opt) :
    wp n cfg (osSemPend p timeout opt) (fun r s' => NoOp s r s') s := by
  rw [osSemPend.eq_def, wp_bind, wp_get, wp_ite]
  refine ⟨fun _ => wp_pure.mpr .same, fun _ => ?_⟩
  cases p with
  | none => exact wp_pure.mpr .same
  | some o =>
    dsimp only
    rw [wp_ite]
    refine ⟨fun _ => wp_pure.mpr .same, fun _ => ?_⟩
    rw [wp_bind, wp_getObj, wp_ite]
    refine ⟨fun _ => wp_pure.mpr .same, fun _ => ?_⟩
    rw [wp_ite]
    refine ⟨fun _ => wp_bind_any fun _ _ => wp_pure.mpr (.granted rfl), fun _ => ?_⟩
    refine wp_ite.mpr ⟨fun _ => wp_pure.mpr .same, fun _ => wp_ite.mpr ⟨fun _ => wp_pure.mpr .same, fun _ => ?_⟩⟩
    exact wp_bind_any fun _ _ => noOp_waitThen _

theorem osSemPost_noOp (p : Option ObjId) (opt : Opt) : wp n cfg (osSemPost p opt) (fun x s' => NoOp s (some x) s') s := by
  rw [osSemPost.eq_def]
  cases p with
  | none => exact wp_pure.mpr .same
  | some o =>
    dsimp only
    rw [wp_ite]
    refine ⟨fun _ => wp_pure.mpr .same, fun _ => ?_⟩
    rw [wp_bind, wp_getObj, wp_ite]
    refine ⟨fun _ => wp_pure.mpr .same, fun _ => ?_⟩
    rw [wp_bind, wp_tsGet, semPost, wp_bind, wp_getObj, wp_ite]
    constructor
    · intro _
      refine wp_ite.mpr ⟨fun _ => wp_pure.mpr .same, fun _ => ?_⟩
      exact wp_bind_any fun _ _ => wp_pure.mpr (.granted rfl)
    · intro _
      exact wp_bind_any fun _ _ => wp_bind_any fun _ _ => wp_bind_any fun _ _ => wp_pure.mpr (.granted rfl)

theorem osSemSet_noOp (p : Option ObjId) (cnt : ℕ) :
    wp n cfg (osSemSet p cnt) (fun e s' => NoOp s (some { err := e }) s') s := by
  rw [osSemSet.eq_def, wp_bind, wp_get, wp_ite]
  refine ⟨fun _ => wp_pure.mpr .same, fun _ => ?_⟩
  cases p with
  | none => exact wp_pure.mpr .same
  | some o =>
    dsimp only
    rw [wp_bind, wp_getObj, wp_ite]
    refine ⟨fun _ => wp_pure.mpr .same, fun _ => ?_⟩
    exact wp_ite.mpr ⟨fun _ => wp_bind_any fun _ _ => wp_pure.mpr (.granted rfl), fun _ => wp_pure.mpr .same⟩

theorem osQCreate_noOp (p : Option ObjId) (maxQty : ℕ) :
    wp n cfg (osQCreate p maxQty) (fun e s' => NoOp s (some { err := e }) s') s := by
  rw [osQCreate.eq_def, wp_bind, wp_get, wp_ite]
  refine ⟨fun _ => wp_pure.mpr .same, fun _ => ?_⟩
  cases p with
  | none => exact wp_pure.mpr .same
  | some o => exact wp_ite.mpr ⟨fun _ => wp_pure.mpr .same, fun _ => wp_bind_any fun _ _ => wp_pure.mpr (.granted rfl)⟩

theorem osSemCreate_noOp (p : Option ObjId) (cnt : ℕ) :
    wp n cfg (osSemCreate p cnt) (fun e s' => NoOp s (some { err := e }) s') s := by
  rw [osSemCreate.eq_def, wp_bind, wp_get, wp_ite]
  refine ⟨fun _ => wp_pure.mpr .same, fun _ => ?_⟩
  cases p with
  | none => exact wp_pure.mpr .same
  | some o => exact wp_bind_any fun _ _ => wp_pure.mpr (.granted rfl)

theorem osMutexCreate_noOp (p : Option ObjId) : wp n cfg (osMutexCreate p) (fun e s' => NoOp s (some { err := e }) s') s := by
  rw [osMutexCreate.eq_def, wp_bind, wp_get, wp_ite]
  refine ⟨fun _ => wp_pure.mpr .same, fun _ => ?_⟩
  cases p with
  | none => exact wp_pure.mpr .same
  | some o => exact wp_bind_any fun _ _ => wp_bind_any fun _ _ => wp_pure.mpr (.granted rfl)

theorem osFlagCreate_noOp (p : Option ObjId) (flags : Flags) :
    wp n cfg (osFlagCreate p flags) (fun e s' => NoOp s (some { err := e }) s') s := by
  rw [osFlagCreate.eq_def, wp_bind, wp_get, wp_ite]
  refine ⟨fun _ => wp_pure.mpr .same, fun _ => ?_⟩
  cases p with
  | none => exact wp_pure.mpr .same
  | some o => exact wp_bind_any fun _ _ => wp_pure.mpr (.granted rfl)

theorem osMutexPend_noOp (p : Option ObjId) (timeout : Tick) (opt : Opt) :
    wp n cfg (osMutexPend p timeout opt) (fun r s' => NoOp s r s') s := by
  have hboost (w : TcbId) (prio : ℕ) : wp n cfg (mutexBoost w prio) (fun e s' => e = .none ∨ s' = s) s := by
    rw [mutexBoost, wp_bind, wp_getTcb]
    cases (s.tcb w).taskState with
    | del => exact wp_pure.mpr (.inr rfl)
    | _ => exact wp_bind_any fun _ _ => wp_pure.mpr (.inl rfl)
  rw [osMutexPend.eq_def, wp_bind, wp_get, wp_ite]
  refine ⟨fun _ => wp_pure.mpr .same, fun _ => ?_⟩
  cases p with
  | none => exact wp_pure.mpr .same
  | some o =>
    dsimp only
    rw [wp_ite]
    refine ⟨fun _ => wp_pure.mpr .same, fun _ => ?_⟩
    rw [wp_bind, wp_getObj, wp_ite]
    refine ⟨fun _ => wp_pure.mpr .same, fun _ => ?_⟩
    rw [wp_bind, wp_getCur]
    intro t _
    rw [wp_ite, wp_ite]
    refine ⟨fun _ => wp_bind_any fun _ _ => wp_bind_any fun _ _ => wp_pure.mpr (.granted rfl), fun _ =>
      ⟨fun _ => wp_bind_any fun _ _ => wp_pure.mpr (.granted rfl), fun _ => ?_⟩⟩
    refine wp_ite.mpr ⟨fun _ => wp_pure.mpr .same, fun _ => wp_ite.mpr ⟨fun _ => wp_pure.mpr .same, fun _ => ?_⟩⟩
    rw [mutexWait, wp_bind, wp_getObj, wp_bind, wp_deref]
    intro w _
    rw [wp_bind, wp_getTcb, wp_bind, wp_getTcb]
    have hend (e : Err) (s₁ : OS) (he : e = .none ∨ s₁ = s) : wp n cfg (do
        if e ≠ .none then return some { err := e }
        pend (some o) .mutex timeout
        waitThen (.mutexPend o)) (fun r s' => NoOp s r s') s₁ := by
      rw [wp_ite]
      refine ⟨fun hne => wp_pure.mpr ?_, fun _ => wp_bind_any fun _ _ => noOp_waitThen _⟩
      rw [he.resolve_left hne]
      exact .same
    rw [wp_ite]
    constructor
    · intro _
      rw [wp_bind]
      exact (hboost w _).mono hend
    · intro _
      rw [wp_bind]
      exact wp_pure.mpr (hend _ _ (.inl rfl))

theorem osMutexPost_noOp (p : Option ObjId) (opt : Opt) :
    wp n cfg (osMutexPost p opt) (fun e s' => NoOp s (some { err := e }) s') s := by
  rw [osMutexPost.eq_def, wp_bind, wp_get, wp_ite]
  refine ⟨fun _ => wp_pure.mpr .same, fun _ => ?_⟩
  cases p with
  | none => exact wp_pure.mpr .same
  | some o =>
    dsimp only
    rw [wp_ite]
    refine ⟨fun _ => wp_pure.mpr .same, fun _ => ?_⟩
    rw [wp_bind, wp_getObj, wp_ite]
    refine ⟨fun _ => wp_pure.mpr .same, fun _ => ?_⟩
    rw [wp_bind, wp_getCur]
    intro t _
    rw [wp_ite]
    refine ⟨fun _ => wp_pure.mpr .same, fun _ => ?_⟩
    refine wp_bind_any fun _ s₁ => wp_bind_any fun _ _ => wp_ite.mpr ⟨fun _ => wp_pure.mpr (.granted rfl), fun _ => ?_⟩
    refine wp_ite.mpr ⟨fun _ => wp_bind_any fun _ _ => wp_pure.mpr (.granted rfl), fun _ => ?_⟩
    exact wp_bind_any fun _ _ => wp_bind_any fun _ _ => wp_bind_any fun _ _ => wp_pure.mpr (.granted rfl)

theorem osFlagPend_noOp (p : Option ObjId) (flags : Flags) (timeout : Tick) (opt : Opt) :
    wp n cfg (osFlagPend p flags timeout opt) (fun r s' => NoOp s r s') s := by
  rw [osFlagPend.eq_def, wp_bind, wp_get, wp_ite]
  refine ⟨fun _ => wp_pure.mpr .same, fun _ => ?_⟩
  cases p with
  | none => exact wp_pure.mpr .same
  | some o =>
    dsimp only
    rw [wp_ite]
    refine ⟨fun _ => wp_pure.mpr .same, fun _ => ?_⟩
    rw [wp_bind, wp_getObj, wp_ite]
    refine ⟨fun _ => wp_pure.mpr .same, fun _ => ?_⟩
    cases flagsReady (opt &&& optPendFlagMask) (s.obj o).flags flags with
    | none => exact wp_pure.mpr .same
    | some x =>
      obtain ⟨flagsRdy, _ | _⟩ := x
      · refine wp_ite.mpr ⟨fun _ => wp_pure.mpr .same, fun _ => wp_ite.mpr ⟨fun _ => wp_pure.mpr .same, fun _ => ?_⟩⟩
        exact wp_bind_any fun _ _ => noOp_waitThen _
      · refine wp_ite.mpr ⟨fun _ => wp_bind_any fun _ _ => ?_, fun _ => ?_⟩
        · exact wp_bind_any fun _ _ => wp_bind_any fun _ _ => wp_pure.mpr (.granted rfl)
        · exact wp_bind_any fun _ _ => wp_bind_any fun _ _ => wp_pure.mpr (.granted rfl)

theorem osFlagPendGetFlagsRdy_noOp : wp n cfg osFlagPendGetFlagsRdy (fun x s' => NoOp s (some x) s') s := by
  rw [osFlagPendGetFlagsRdy, wp_bind, wp_get, wp_ite]
  exact ⟨fun _ => wp_pure.mpr .same, fun _ => wp_bind_any fun _ _ => wp_bind_any fun _ _ => wp_pure.mpr (.granted rfl)⟩

theorem osFlagPost_noOp (H : Ready cfg s a) (p : Option ObjId) (flags : Flags) (opt : Opt) :
    wp n cfg (osFlagPost p flags opt) (fun r s' => NoOp s r s') s := by
  rw [osFlagPost.eq_def]
  cases p with
  | none => exact wp_pure.mpr .same
  | some o =>
    dsimp only
    rw [wp_ite]
    refine ⟨fun _ => wp_pure.mpr .same, fun _ => ?_⟩
    rw [wp_bind, wp_getObj, wp_ite]
    refine ⟨fun _ => wp_pure.mpr .same, fun htype => ?_⟩
    have ho : (a.obj o).type = .flag := by rw [← H.rep.type, not_not.mp htype]
    have hrest (f : Obj → Obj) (hf : ∀ x, (f x).key = x.key) : wp n cfg (do
        let b ← getObj o
        if b.pendList.nbrEntries = 0 then return some { err := .none, val := b.flags.toNat }
        let d ← Prog.deref b.pendList.headPtr
        if ← Prog.loop (flagPostStep o s.tsNow) (some d) then return some { err := .flagPendOpt }
        if opt &&& optPostNoSched = 0 ∧ (← Prog.get).intNestingCtr = 0 then waitThen (.flagPost o)
        else return some { err := .none, val := (← getObj o).flags.toNat })
        (fun r s' => NoOp s r s') (s.modObj o f) := by
      have h₁ : Rep cfg (s.modObj o f) a := H.rep.of_key (OS.key_modObj hf)
      rw [wp_bind, wp_getObj, wp_ite]
      refine ⟨fun _ => wp_pure.mpr (.granted rfl), fun _ => ?_⟩
      rw [wp_bind, wp_deref, h₁.pendHead]
      intro d hd
      rw [wp_bind, ← hd]
      refine (flagPostLoop_walk (.start h₁ H.sound ho rfl)).mono ?_
      rintro _ s₂ ⟨rfl, -⟩
      rw [if_neg Bool.false_ne_true, wp_bind, wp_get, wp_ite]
      exact ⟨fun _ => noOp_waitThen _, fun _ => wp_bind_any fun _ _ => wp_pure.mpr (.granted rfl)⟩
    rw [wp_bind, wp_tsGet, flagPost, wp_ite]
    refine ⟨fun _ => ?_, fun _ => ?_⟩
    · rw [wp_bind, wp_modObj]
      exact hrest _ fun _ => rfl
    · rw [wp_bind, wp_modObj]
      exact hrest _ fun _ => rfl

end objects

end UcosIII
