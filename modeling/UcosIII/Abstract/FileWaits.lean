import UcosIII.Abstract.FileSteps

namespace UcosIII

open Prog

variable {n : ℕ} {cfg : Cfg} {s s' : OS} {a : Abs} {t x : TcbId} {o : Option ObjId} {e : Event} {r : Option Ret} {kind : PendOn}
  {k : Cont}

section waits

theorem OS.file_setCont (t : TcbId) (k : Cont) : ({ s with cont := Function.update s.cont t k } : OS).file =
    Function.update s.file t { s.file t with cont := k } := by
  funext x
  change (s.tcb x).file (s.rows x) (Function.update s.cont t k x) = _
  rw [Function.update_apply, Function.update_apply]
  split
  · subst x
    rfl
  · rfl

theorem waitThen_file (k : Cont) : wp n cfg (waitThen k) (fun r s' => r = none ∧ ∃ t, s.tcbCurPtr = some t ∧
    s'.file = Function.update s.file t { s.file t with cont := k }) s := by
  rw [waitThen, wp_bind, wp_getCur]
  intro t ht
  rw [wp_bind, wp_modify, wp_bind]
  refine (keeps_file_osSched n cfg _).mono fun _ s₁ h₁ => wp_pure.mpr ⟨rfl, t, ht, ?_⟩
  rw [h₁, OS.file_setCont]

theorem keeps_cur_modTcb (t : TcbId) (f : TCB → TCB) : Keeps OS.tcbCurPtr (modTcb t f) := keeps_modify fun _ => rfl

theorem keeps_cur_modPendData (d : PdId) (f : PendData → PendData) : Keeps OS.tcbCurPtr (modPendData d f) :=
  keeps_modify fun _ => rfl

theorem keeps_cur_taskBlock (t : TcbId) (timeout : Tick) : Keeps OS.tcbCurPtr (taskBlock t timeout) := by
  have hrest (f : TCB → TCB) : Keeps OS.tcbCurPtr (modTcb t f >>= fun _ => rdyListRemove t) :=
    keeps_bind (keeps_modify fun _ => rfl) fun _ => (keeps_rdyListRemove t).comp OS.tcbCurPtr
  rw [taskBlock]
  refine keeps_ite (keeps_bind ((keeps_tickListInsert t timeout optTimeTimeout).comp OS.tcbCurPtr) fun x => ?_) (hrest _)
  cases x <;> exact hrest _

theorem keeps_cur_pend (o : Option ObjId) (kind : PendOn) (timeout : Tick) : Keeps OS.tcbCurPtr (pend o kind timeout) := by
  refine keeps_bind keeps_getCur fun t => keeps_bind (keeps_modify fun _ => rfl) fun _ => ?_
  refine keeps_bind (keeps_cur_taskBlock t timeout) fun _ => ?_
  cases o with
  | none => exact keeps_modify fun _ => rfl
  | some o =>
    refine keeps_bind (keeps_modify fun _ => rfl) fun _ => keeps_bind ?_ fun _ =>
      (keeps_pendListInsertPrio (t, 0) o).comp OS.tcbCurPtr
    have hinit (d : PdId) : Keeps OS.tcbCurPtr (pendDataInit1 t d) := keeps_modify fun _ => rfl
    exact keeps_bind (keeps_modify fun _ => rfl) fun _ => keeps_forEntries hinit 1 (t, 0)

theorem taskBlock_file (timeout : Tick) : wp n cfg (taskBlock t timeout) (fun _ s' =>
    ∃ timed : Bool, s'.file = Function.update s.file t { s.file t with state := if timed then .pendTimeout else .pend }) s := by
  have hstate (timed : Bool) : Alters t (fun f => { f with state := if timed then .pendTimeout else .pend })
      (modTcb t (fun c => { c with taskState := if timed then .pendTimeout else .pend }) >>= fun _ => rdyListRemove t) := by
    have h₁ : Alters t (fun f => { f with state := if timed then .pendTimeout else .pend })
        (modTcb t fun c => { c with taskState := if timed then .pendTimeout else .pend }) :=
      alters_modTcb (by intro c r k; rfl)
    exact h₁.bind fun _ => .of_keeps (keeps_file_rdyListRemove t)
  rw [taskBlock, wp_ite]
  constructor
  · intro _
    rw [wp_bind]
    refine (keeps_file_tickListInsert t timeout optTimeTimeout n cfg s).mono fun x s₁ h₁ => ?_
    have h₁' := h₁.trans (Function.update_eq_self t s.file).symm
    cases x with
    | none => exact ((hstate true).next h₁').mono fun _ _ h => ⟨true, h⟩
    | _ => exact ((hstate false).next h₁').mono fun _ _ h => ⟨false, h⟩
  · intro _
    exact (hstate false n cfg s).mono fun _ _ h => ⟨false, h⟩

theorem alters_modPendData {f : PendData → PendData} {g : Option ObjId × Row → Option ObjId × Row} {i : ℕ}
    (hf : ∀ e, ((f e).pendObjPtr, (f e).row) = g (e.pendObjPtr, e.row)) :
    Alters t (fun x => x.setRow i (g (x.row i))) (modPendData (t, i) f) := by
  intro n cfg s
  rw [wp_modPendData, OS.file_modPendData, hf]
  rfl

theorem pend_file (o : Option ObjId) (kind : PendOn) (timeout : Tick) :
    wp n cfg (pend o kind timeout) (fun _ s' => ∃ t, s.tcbCurPtr = some t ∧ ∃ timed,
      s'.file = Function.update s.file t ((s.file t).waits t o kind timed (s.file t).cont)) s := by
  rw [pend, wp_bind, wp_getCur]
  intro t ht
  have hkind : Alters t (fun f => { f with pendOn := kind, pendStatus := .ok })
      (modTcb t fun c => { c with pendOn := kind, pendStatus := .ok }) := alters_modTcb (by intro c r k; rfl)
  rw [wp_bind]
  refine (hkind n cfg s).mono fun _ s₁ h₁ => ?_
  rw [wp_bind]
  refine (taskBlock_file timeout).mono ?_
  rintro _ s₂ ⟨timed, h₂⟩
  rw [h₁, Function.update_self, Function.update_idem] at h₂
  cases o with
  | none =>
    have hnone : Alters t (fun f => { f with table := [] }) (modTcb t fun c =>
        { c with pendDataTblEntries := 0, pendDataTblPtr := none }) := alters_modTcb (by intro c r k; rfl)
    exact (hnone.next h₂).mono fun _ s₃ h₃ => ⟨t, ht, timed, h₃⟩
  | some o =>
    have hobj : Alters t (fun f => f.setRow 0 (some o, (f.row 0).2))
        (modPendData (t, 0) fun e => { e with pendObjPtr := some o }) :=
      alters_modPendData (g := fun x => (some o, x.2)) (by intro e; rfl)
    have htab : Alters t (fun f => { f with table := [(t, 0)] })
        (modTcb t fun c => { c with pendDataTblEntries := 1, pendDataTblPtr := some (t, 0) }) :=
      alters_modTcb (by intro c r k; rfl)
    have hrow : Alters t (fun f => f.setRow 0 ((f.row 0).1, ⟨none, none, 0, 0⟩)) (pendDataInit1 t (t, 0)) :=
      alters_modPendData (g := fun x => (x.1, ⟨none, none, 0, 0⟩)) (by intro e; rfl)
    have hinit := htab.bind fun _ : Unit => hrow.bind fun _ : Unit => Alters.of_keeps (keeps_pure ())
    refine ((hobj.bind fun _ : Unit => hinit.bind fun _ : Unit =>
      Alters.of_keeps (keeps_file_pendListInsertPrio o (t, 0))).next h₂).mono fun _ s₃ h₃ => ⟨t, ht, timed, h₃.trans ?_⟩
    congr 1
    simp [File.waits, File.setRow]

theorem pendThen_file (o : Option ObjId) (kind : PendOn) (timeout : Tick) (k : Cont) :
    wp n cfg (pend o kind timeout >>= fun _ => waitThen k) (fun r s' => r = none ∧ ∃ t, s.tcbCurPtr = some t ∧
      ∃ timed, s'.file = Function.update s.file t ((s.file t).waits t o kind timed k)) s := by
  rw [wp_bind]
  refine ((pend_file o kind timeout).and (keeps_cur_pend o kind timeout n cfg s)).mono ?_
  rintro _ s₁ ⟨⟨t, ht, timed, h₁⟩, hc⟩
  refine (waitThen_file k).mono ?_
  rintro _ s₂ ⟨rfl, x, hx, h₂⟩
  have hxt : t = x := by simpa [hc, ht] using hx
  subst hxt
  refine ⟨rfl, t, ht, timed, ?_⟩
  rw [h₂, h₁, Function.update_self, Function.update_idem]
  rfl

theorem osSemPend_file (p : Option ObjId) (timeout : Tick) (opt : Opt) :
    wp n cfg (osSemPend p timeout opt) (fun r s' => Filed s (.call (.semPend p timeout opt)) r s') s := by
  rw [osSemPend.eq_def, wp_bind, wp_get, wp_ite]
  refine ⟨fun _ => wp_pure.mpr (.same rfl), fun _ => ?_⟩
  cases p with
  | none => exact wp_pure.mpr (.same rfl)
  | some o =>
    dsimp only
    rw [wp_ite]
    refine ⟨fun _ => wp_pure.mpr (.same rfl), fun _ => ?_⟩
    rw [wp_bind, wp_getObj, wp_ite]
    refine ⟨fun _ => wp_pure.mpr (.same rfl), fun _ => wp_ite.mpr ⟨fun _ => ?_, fun _ => ?_⟩⟩
    · rw [wp_bind, wp_modObj]
      exact wp_pure.mpr (.same rfl)
    refine wp_ite.mpr ⟨fun _ => wp_pure.mpr (.same rfl), fun _ => wp_ite.mpr ⟨fun _ => wp_pure.mpr (.same rfl), fun _ => ?_⟩⟩
    refine (pendThen_file (some o) .sem timeout (.semPend o)).mono ?_
    rintro _ s' ⟨rfl, t, ht, timed, h'⟩
    exact .one h' ⟨ht, rfl, timed, rfl⟩

theorem msgQGet_file (q : MsgQ) :
    wp n cfg (msgQGet q) (fun _ s' => s'.file = s.file ∧ s'.tcbCurPtr = s.tcbCurPtr) s :=
  ((keeps_noMsgs_msgQGet q).comp OS.file n cfg s).and ((keeps_noMsgs_msgQGet q).comp OS.tcbCurPtr n cfg s)

theorem msgQGet_none (q : MsgQ) :
    wp n cfg (msgQGet q) (fun x _ => x.2.err ≠ .none → x.1 = q ∧ q.nbrEntries = 0) s := by
  rw [msgQGet, wp_ite]
  refine ⟨fun h0 => wp_pure.mpr fun _ => ⟨rfl, h0⟩, fun _ => ?_⟩
  rw [wp_bind, wp_deref]
  intro m _
  rw [wp_bind, getMsg, wp_bind, wp_get, wp_pure, wp_bind, getMsgPool, wp_bind, wp_get, wp_pure, wp_bind, modMsg, wp_modify,
    wp_bind, modMsgPool, wp_modify]
  exact wp_pure.mpr fun h => absurd rfl h

theorem osQPend_file (p : Option ObjId) (timeout : Tick) (opt : Opt) (hasSize : Bool) :
    wp n cfg (osQPend p timeout opt hasSize) (fun r s' => Filed s (.call (.qPend p timeout opt hasSize)) r s') s := by
  rw [osQPend.eq_def, wp_bind, wp_get, wp_ite]
  refine ⟨fun _ => wp_pure.mpr (.same rfl), fun _ => ?_⟩
  cases p with
  | none => exact wp_pure.mpr (.same rfl)
  | some o =>
    dsimp only
    refine wp_ite.mpr ⟨fun _ => wp_pure.mpr (.same rfl), fun _ => wp_ite.mpr ⟨fun _ => wp_pure.mpr (.same rfl), fun _ => ?_⟩⟩
    rw [wp_bind, wp_getObj, wp_ite]
    refine ⟨fun _ => wp_pure.mpr (.same rfl), fun _ => ?_⟩
    rw [wp_bind, wp_getObj, wp_bind]
    refine (msgQGet_file _).mono ?_
    rintro ⟨q, x⟩ s₁ ⟨hf₁, hc₁⟩
    dsimp only
    rw [wp_bind, wp_modObj, wp_ite]
    have hsame (r : Option Ret) : Filed s (.call (.qPend (some o) timeout opt hasSize)) r (s₁.modObj o fun b =>
      { b with msgQ := q }) :=
      .same hf₁
    refine ⟨fun _ => wp_pure.mpr (hsame _), fun _ => wp_ite.mpr ⟨fun _ => wp_pure.mpr (hsame _), fun _ =>
      wp_ite.mpr ⟨fun _ => wp_pure.mpr (hsame _), fun _ => ?_⟩⟩⟩
    refine (pendThen_file (some o) .q timeout .qPend).mono ?_
    rintro _ s' ⟨rfl, t, ht, timed, h'⟩
    refine .one (h'.trans ?_) ⟨hc₁.symm.trans ht, rfl, timed, rfl⟩
    change Function.update s₁.file t ((s₁.file t).waits t (some o) .q timed .qPend) = _
    rw [hf₁]

theorem keeps_file_mutexBoost (t : TcbId) (prio : ℕ) : Keeps OS.file (mutexBoost t prio) := by
  have hprio : Keeps OS.file (modTcb t fun c => { c with prio := prio }) := keeps_file_modTcb (by intro c r k; rfl) t
  refine keeps_bind (keeps_getTcb t) fun c => ?_
  cases c.taskState with
  | rdy => exact keeps_bind (keeps_file_rdyChangePrio t prio true) fun _ => keeps_pure _
  | dly | dlySuspended | suspended => exact keeps_bind hprio fun _ => keeps_pure _
  | pend | pendTimeout | pendSuspended | pendTimeoutSuspended =>
    exact keeps_bind (keeps_file_pendListChangePrio t prio) fun _ => keeps_pure _
  | del => exact keeps_pure _

theorem keeps_cur_mutexBoost (t : TcbId) (prio : ℕ) : Keeps OS.tcbCurPtr (mutexBoost t prio) := by
  have hprio : Keeps OS.tcbCurPtr (modTcb t fun c => { c with prio := prio }) := keeps_modify fun _ => rfl
  have hrdy : Keeps OS.tcbCurPtr (rdyChangePrio t prio true) := by
    refine keeps_bind ((keeps_rdyListRemove t).comp OS.tcbCurPtr) fun _ => keeps_bind hprio fun _ => ?_
    refine keeps_bind ((keeps_prioInsert prio).comp OS.tcbCurPtr) fun _ => keeps_ite ?_ ?_
    · exact (keeps_rdyListInsertHead t).comp OS.tcbCurPtr
    · exact (keeps_rdyListInsertTail t).comp OS.tcbCurPtr
  have hpend : Keeps OS.tcbCurPtr (pendListChangePrio t prio) := by
    refine keeps_bind hprio fun _ => keeps_forTable (fun d => keeps_bind (keeps_getPendData d) fun _ => ?_) t
    refine keeps_bind (keeps_deref _) fun o => keeps_bind (keeps_getObj o) fun _ => keeps_ite ?_ (keeps_pure _)
    refine keeps_bind ((keeps_pendListRemove1 d o).comp OS.tcbCurPtr) fun _ => ?_
    exact (keeps_pendListInsertPrio d o).comp OS.tcbCurPtr
  refine keeps_bind (keeps_getTcb t) fun c => ?_
  cases c.taskState with
  | rdy => exact keeps_bind hrdy fun _ => keeps_pure _
  | dly | dlySuspended | suspended => exact keeps_bind hprio fun _ => keeps_pure _
  | pend | pendTimeout | pendSuspended | pendTimeoutSuspended => exact keeps_bind hpend fun _ => keeps_pure _
  | del => exact keeps_pure _

theorem osMutexPend_file (p : Option ObjId) (timeout : Tick) (opt : Opt) :
    wp n cfg (osMutexPend p timeout opt) (fun r s' => Filed s (.call (.mutexPend p timeout opt)) r s') s := by
  rw [osMutexPend.eq_def, wp_bind, wp_get, wp_ite]
  refine ⟨fun _ => wp_pure.mpr (.same rfl), fun _ => ?_⟩
  cases p with
  | none => exact wp_pure.mpr (.same rfl)
  | some o =>
    dsimp only
    rw [wp_ite]
    refine ⟨fun _ => wp_pure.mpr (.same rfl), fun _ => ?_⟩
    rw [wp_bind, wp_getObj, wp_ite]
    refine ⟨fun _ => wp_pure.mpr (.same rfl), fun _ => ?_⟩
    rw [wp_bind, wp_getCur]
    intro t _
    refine wp_ite.mpr ⟨fun _ => ?_, fun _ => wp_ite.mpr ⟨fun _ => ?_, fun _ => ?_⟩⟩
    · rw [wp_bind, wp_getTcb, wp_bind, wp_modObj]
      exact wp_pure.mpr (.same rfl)
    · rw [wp_bind, wp_modObj]
      exact wp_pure.mpr (.same rfl)
    refine wp_ite.mpr ⟨fun _ => wp_pure.mpr (.same rfl), fun _ => wp_ite.mpr ⟨fun _ => wp_pure.mpr (.same rfl), fun _ => ?_⟩⟩
    rw [mutexWait, wp_bind, wp_getObj, wp_bind, wp_deref]
    intro w _
    have hrest (x : Err) (s₁ : OS) (h₁ : s₁.file = s.file) (hc₁ : s₁.tcbCurPtr = s.tcbCurPtr) :
        wp n cfg (do
          if x ≠ .none then return some ({ err := x } : Ret)
          pend (some o) .mutex timeout
          waitThen (.mutexPend o)) (fun r s' => Filed s (.call (.mutexPend (some o) timeout opt)) r s') s₁ := by
      refine wp_ite.mpr ⟨fun _ => wp_pure.mpr (.same h₁), fun _ => ?_⟩
      refine (pendThen_file (some o) .mutex timeout (.mutexPend o)).mono ?_
      rintro _ s' ⟨rfl, t, ht, timed, h'⟩
      rw [h₁] at h'
      exact .one h' ⟨hc₁.symm.trans ht, rfl, timed, rfl⟩
    rw [wp_bind, wp_getTcb, wp_bind, wp_getTcb]
    refine wp_ite_bind.mpr ?_
    rw [wp_ite]
    refine ⟨fun _ => ?_, fun _ => wp_pure.mpr (hrest .none s rfl rfl)⟩
    refine ((keeps_file_mutexBoost w _ n cfg s).and (keeps_cur_mutexBoost w _ n cfg s)).mono ?_
    rintro x s₁ ⟨h₁, hc₁⟩
    exact hrest x s₁ h₁ hc₁

theorem osTaskSemPend_file (timeout : Tick) (opt : Opt) :
    wp n cfg (osTaskSemPend timeout opt) (fun r s' => Filed s (.call (.taskSemPend timeout opt)) r s') s := by
  rw [osTaskSemPend, wp_bind, wp_get, wp_ite]
  refine ⟨fun _ => wp_pure.mpr (.same rfl), fun _ => wp_ite.mpr ⟨fun _ => wp_pure.mpr (.same rfl), fun _ => ?_⟩⟩
  rw [wp_bind, wp_getCur]
  intro t ht
  rw [wp_bind, wp_getTcb, wp_ite]
  constructor
  · intro hctr
    rw [wp_bind]
    exact wp_modTcb_file fun s₁ h₁ => wp_pure.mpr (.one h₁ ⟨ht, hctr, rfl⟩)
  · intro h0
    refine wp_ite.mpr ⟨fun _ => wp_pure.mpr (.same rfl), fun _ => wp_ite.mpr ⟨fun _ => wp_pure.mpr (.same rfl), fun _ => ?_⟩⟩
    refine (pendThen_file none .taskSem timeout .taskSemPend).mono ?_
    rintro _ s' ⟨rfl, x, hx, timed, h'⟩
    obtain rfl : t = x := Option.some.inj (ht.symm.trans hx)
    exact .one h' ⟨ht, Nat.eq_zero_of_not_pos h0, timed, rfl⟩

theorem osTaskQPend_file (timeout : Tick) (opt : Opt) (hasSize : Bool) :
    wp n cfg (osTaskQPend timeout opt hasSize) (fun r s' => Filed s (.call (.taskQPend timeout opt hasSize)) r s') s := by
  rw [osTaskQPend, wp_bind, wp_get, wp_ite]
  refine ⟨fun _ => wp_pure.mpr (.same rfl), fun _ => wp_ite.mpr ⟨fun _ => wp_pure.mpr (.same rfl), fun _ =>
    wp_ite.mpr ⟨fun _ => wp_pure.mpr (.same rfl), fun _ => ?_⟩⟩⟩
  rw [wp_bind, wp_getCur]
  intro t ht
  rw [wp_bind, wp_getTcb, wp_bind]
  refine ((msgQGet_file _).and (msgQGet_none _)).mono ?_
  rintro ⟨q, x⟩ s₁ ⟨⟨hf₁, hc₁⟩, hempty⟩
  dsimp only at hempty ⊢
  have hf₂ : (s₁.modTcb t fun c => { c with msgQ := q }).file =
      Function.update s.file t { s.file t with msgs := q.nbrEntries } := by
    rw [OS.file_modTcb, ← hf₁]
    rfl
  have htaken (r : Ret) : Filed s (.call (.taskQPend timeout opt hasSize)) (some r)
      (s₁.modTcb t fun c => { c with msgQ := q }) := .one hf₂ ⟨ht, _, rfl⟩
  rw [wp_bind, wp_modTcb, wp_ite]
  refine ⟨fun _ => wp_pure.mpr (htaken _), fun hx => wp_ite.mpr ⟨fun _ => wp_pure.mpr (htaken _), fun _ =>
    wp_ite.mpr ⟨fun _ => wp_pure.mpr (htaken _), fun _ => ?_⟩⟩⟩
  refine (pendThen_file none .taskQ timeout .taskQPend).mono ?_
  rintro _ s' ⟨rfl, x, hx', timed, h'⟩
  obtain rfl : t = x := Option.some.inj ((ht.symm.trans hc₁.symm).trans hx')
  obtain ⟨rfl, h0⟩ := hempty hx
  have hf₃ : (s₁.modTcb t fun c => { c with msgQ := (s.tcb t).msgQ }).file = s.file :=
    hf₂.trans (Function.update_eq_self t s.file)
  rw [hf₃] at h'
  exact .one h' ⟨ht, h0, timed, rfl⟩

theorem osFlagPend_file (p : Option ObjId) (flags : Flags) (timeout : Tick) (opt : Opt) :
    wp n cfg (osFlagPend p flags timeout opt) (fun r s' => Filed s (.call (.flagPend p flags timeout opt)) r s') s := by
  rw [osFlagPend.eq_def, wp_bind, wp_get, wp_ite]
  refine ⟨fun _ => wp_pure.mpr (.same rfl), fun _ => ?_⟩
  cases p with
  | none => exact wp_pure.mpr (.same rfl)
  | some o =>
    dsimp only
    rw [wp_ite]
    refine ⟨fun _ => wp_pure.mpr (.same rfl), fun _ => ?_⟩
    rw [wp_bind, wp_getObj, wp_ite]
    refine ⟨fun _ => wp_pure.mpr (.same rfl), fun _ => ?_⟩
    cases flagsReady (opt &&& optPendFlagMask) (s.obj o).flags flags with
    | none => exact wp_pure.mpr (.same rfl)
    | some x =>
      obtain ⟨flagsRdy, done⟩ := x
      cases done with
      | true =>
        have hset (s₁ : OS) (h₁ : s₁.file = s.file) (hc₁ : s₁.tcbCurPtr = s.tcbCurPtr) : wp n cfg (do
            modTcb (← getCur) fun c => { c with flagsRdy := flagsRdy }
            return some { err := .none, val := flagsRdy.toNat, ts := (s.obj o).ts })
            (fun r s' => Filed s (.call (.flagPend (some o) flags timeout opt)) r s') s₁ := by
          rw [wp_bind, wp_getCur]
          intro t ht
          have hmod : Alters t (fun f => { f with flagsRdy := flagsRdy }) (modTcb t fun c => { c with flagsRdy := flagsRdy }) :=
            alters_modTcb (by intro c r k; rfl)
          rw [wp_bind]
          refine (hmod n cfg s₁).mono fun _ s₂ h₂ => wp_pure.mpr ?_
          rw [h₁] at h₂
          exact .one h₂ ⟨hc₁.symm.trans ht, flagsRdy, rfl⟩
        dsimp only
        rw [wp_ite]
        refine ⟨fun _ => ?_, fun _ => hset s rfl rfl⟩
        rw [wp_bind, wp_modObj]
        exact hset _ rfl rfl
      | false =>
        refine wp_ite.mpr ⟨fun _ => wp_pure.mpr (.same rfl), fun _ => wp_ite.mpr ⟨fun _ => wp_pure.mpr (.same rfl), fun _ => ?_⟩⟩
        rw [flagBlock, wp_bind, wp_bind, wp_getCur]
        intro t ht
        have hmod : Alters t (fun f => { f with flagsPend := flags, flagsOpt := opt, flagsRdy := 0 })
            (modTcb t fun c => { c with flagsPend := flags, flagsOpt := opt, flagsRdy := 0 }) :=
          alters_modTcb (by intro c r k; rfl)
        rw [wp_bind]
        refine ((hmod n cfg s).and (keeps_cur_modTcb t _ n cfg s)).mono ?_
        rintro _ s₁ ⟨h₁, hc₁⟩
        refine wp_bind.mp ((pendThen_file (some o) .flag timeout _).mono ?_)
        rintro _ s' ⟨rfl, x, hx, timed, h'⟩
        have hxt : t = x := by simpa [hc₁, ht] using hx
        subst hxt
        rw [h₁, Function.update_self, Function.update_idem] at h'
        exact .one h' ⟨ht, timed, rfl⟩

theorem Ready.cur_state (H : Ready cfg s a) (hcur : s.tcbCurPtr = some t) :
    (s.file t).state = .rdy ∨ (s.file t).state = .del := by
  have hrun : a.running = true := by
    by_contra hr
    have hnone := (H.cur.stopped (by simpa using hr)).2.2
    rw [H.rep.cur, hcur] at hnone
    cases hnone
  obtain ⟨c, hc, hs⟩ := H.cur.runs hrun
  have hct : c = t := by simpa [H.rep.cur, hcur] using hc.symm
  have hst : (s.file t).state = (a.task t).state := H.rep.state t
  rw [hst, ← hct]
  exact hs.imp_right And.left

theorem Ready.not_pend (H : Ready cfg s a) (hcur : s.tcbCurPtr = some t) : (s.file t).state.isPend = false := by
  rcases H.cur_state hcur with hs | hs <;> rw [hs] <;> rfl

theorem osFlagPost_file (H : Ready cfg s a) (p : Option ObjId) (flags : Flags) (opt : Opt) :
    wp n cfg (osFlagPost p flags opt) (fun r s' => Filed s (.call (.flagPost p flags opt)) r s') s := by
  rw [osFlagPost.eq_def]
  cases p with
  | none => exact wp_pure.mpr (.same rfl)
  | some o =>
    dsimp only
    rw [wp_ite]
    refine ⟨fun _ => wp_pure.mpr (.same rfl), fun hopt => ?_⟩
    rw [wp_bind, wp_getObj, wp_ite]
    refine ⟨fun _ => wp_pure.mpr (.same rfl), fun htype => ?_⟩
    have ho : (a.obj o).type = .flag := by rw [← H.rep.type, not_not.mp htype]
    have hrest (f : Obj → Obj) (hf : ∀ x, (f x).key = x.key) : wp n cfg (do
        let b ← getObj o
        if b.pendList.nbrEntries = 0 then return some { err := .none, val := b.flags.toNat }
        let d ← Prog.deref b.pendList.headPtr
        if ← Prog.loop (flagPostStep o s.tsNow) (some d) then return some { err := .flagPendOpt }
        if opt &&& optPostNoSched = 0 ∧ (← Prog.get).intNestingCtr = 0 then waitThen (.flagPost o)
        else return some { err := .none, val := (← getObj o).flags.toNat })
        (fun r s' => Filed s (.call (.flagPost (some o) flags opt)) r s') (s.modObj o f) := by
      have h₁ : Rep cfg (s.modObj o f) a := H.rep.of_key (OS.key_modObj hf)
      rw [wp_bind, wp_getObj, wp_ite]
      refine ⟨fun _ => wp_pure.mpr (.same rfl), fun _ => ?_⟩
      rw [wp_bind, wp_deref, h₁.pendHead]
      intro d hd
      rw [wp_bind, ← hd]
      refine (flagPostLoop_walk (.start h₁ H.sound ho rfl)).mono ?_
      rintro _ s₂ ⟨rfl, b, h₂⟩
      -- the files of the tasks that are woken
      have hfile (t : TcbId) : s₂.file t = s.file t ∨
          (s.file t).state.isPend = true ∧ ∃ flagsRdy, s₂.file t = (s.file t).flagged flagsRdy s.tsNow := by
        rw [h₂.file]
        split
        · rename_i ht
          obtain ⟨d, hd, rfl⟩ := List.mem_map.mp ht
          have hp : (s.file d.1).state.isPend = true := by
            rw [show (s.file d.1).state = (a.task d.1).state from H.rep.state d.1]
            exact (H.sound.flag_wait ho hd).2.1
          change (s.file d.1).flagPosted _ _ = _ ∨ _ ∧ ∃ _, (s.file d.1).flagPosted _ _ = _
          rw [File.flagPosted]
          split
          · exact .inr ⟨hp, _, rfl⟩
          · exact .inl rfl
        · exact .inl rfl
      rw [if_neg Bool.false_ne_true, wp_bind, wp_get, wp_ite]
      constructor
      · intro _
        refine (waitThen_file (.flagPost o)).mono ?_
        rintro _ s₃ ⟨rfl, t, ht, h₃⟩ x
        have hcur : s.tcbCurPtr = some t := by
          rw [← H.rep.cur, ← ht, ← h₂.rep.cur]
          exact (congrArg Abs.cur h₂.frame.symm :)
        rw [h₃, Function.update_apply]
        split
        · subst x
          have hf : s₂.file t = s.file t := (hfile t).resolve_right fun hp => by simp [H.not_pend hcur] at hp
          refine .inr (.inr ⟨hcur, rfl, ?_⟩)
          rw [hf]
        · exact (hfile x).imp id .inl
      · intro _
        rw [wp_bind, wp_getObj]
        exact wp_pure.mpr fun t => (hfile t).imp id .inl
    rw [wp_bind, wp_tsGet, flagPost, wp_ite]
    refine ⟨fun _ => ?_, fun _ => ?_⟩
    · rw [wp_bind, wp_modObj]
      exact hrest _ fun _ => rfl
    · rw [wp_bind, wp_modObj]
      exact hrest _ fun _ => rfl

end waits

end UcosIII
