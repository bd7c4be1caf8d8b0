import UcosIII.Kernel.Time
import UcosIII.Runs.Refused
import UcosIII.Runs.Timers

/-!
The services that find out too late that they have to refuse a request, and the requests to all of the services, of
the kernel and of the timers, in any state that they can be made in.
-/

namespace UcosIII

open Prog

variable {n : ℕ} {cfg : Cfg} {s s' : OS} {a : Abs} {t : TcbId}

section exceptions

theorem tickMatch_eq_none_iff {c : TCB} {now time : Tick} {opt : Opt} (hpos : opt ≠ optTimeMatch → time > 0) :
    tickMatch c now time opt = none ↔ opt = optTimeMatch ∧ time - now - 1 > tickThRdy := by
  refine ⟨fun h => tickMatch_none h hpos, ?_⟩
  rintro ⟨rfl, h⟩
  rw [tickMatch, if_pos rfl]
  exact if_pos h

theorem tickListInsert_refuses (t : TcbId) (time : Tick) (opt : Opt) :
    wp n cfg (tickListInsert t time opt) (fun e _ => e ≠ .none → e.refuses = true) s := by
  rw [tickListInsert, wp_bind, wp_getTcb, wp_bind, wp_get]
  cases tickMatch (s.tcb t) s.tickCtr time opt with
  | none => exact wp_bind_any fun _ _ => wp_pure.mpr fun _ => rfl
  | some c => exact wp_bind_any fun _ _ => wp_bind_any fun _ _ => wp_pure.mpr fun h => absurd rfl h

theorem timeDly_noOp (H : Ready cfg s a) (hrun : a.running = true) (hlock : ¬ s.schedLockNestingCtr > 0) {dly : Tick}
    {opt : Opt} (hpos : opt ≠ optTimeMatch → dly > 0) : wp n cfg (timeDly dly opt) (fun e s' =>
      NoOp s (some { err := e }) s' ↔ ¬ (opt = optTimeMatch ∧ dly - s.tickCtr - 1 > tickThRdy)) s := by
  obtain ⟨t, hcur, hs⟩ := H.running_cur hrun hlock
  rw [timeDly, wp_bind, wp_getCur, ← H.rep.cur, hcur]
  rintro _ ⟨⟩
  rw [wp_bind, wp_modTcb]
  have h₁ : Rep cfg (s.modTcb t fun c => { c with taskState := .dly }) (a.modTask t fun c => { c with state := .dly }) :=
    H.rep.modTcb rfl rfl
  rw [wp_bind]
  refine (tickListInsert_spec h₁ dly opt).and (tickListInsert_refuses _ _ _) |>.mono ?_
  rintro x s₂ ⟨⟨hrep, hx⟩, href⟩
  rw [wp_ite]
  constructor
  · intro hne
    have hpass := (tickMatch_eq_none_iff hpos).mp (not_not.mp fun h => hne (hx.mpr h))
    have h₂ := (hrep.resolve_left fun h' => hne h'.1).2
    refine wp_pure.mpr (iff_of_false (fun h => ?_) (not_not.mpr hpass))
    have heq := h ⟨_, rfl, href hne⟩
    have hdly : (s₂.tcb t).taskState = .dly := by
      rw [h₂.state]
      change ((a.modTask t fun c => { c with state := .dly }).task t).state = .dly
      rw [Abs.task_modTask, if_pos rfl]
    rw [heq, H.rep.state, hs] at hdly
    cases hdly
  · intro he
    have hpass := mt (tickMatch_eq_none_iff (c := (s.modTcb t _).tcb t) hpos).mpr (hx.mp (not_not.mp he))
    exact wp_bind_any fun _ _ => wp_bind_any fun _ _ => wp_pure.mpr (iff_of_true (.granted rfl) hpass)

theorem osTimeDly_noOp (H : Ready cfg s a) (hrun : a.running = true) (dly : Tick) (opt : Opt) :
    wp n cfg (osTimeDly dly opt) (fun e s' =>
      NoOp s (some { err := e }) s' ↔ ¬ PassedMatch cfg s (.call (.timeDly dly opt))) s := by
  rw [osTimeDly, wp_bind, wp_get, wp_ite]
  refine ⟨fun hint => wp_pure.mpr (iff_of_true .same fun h => ?_), fun hint => ?_⟩
  · exact absurd h.1 (by omega)
  rw [wp_ite]
  refine ⟨fun hlock => wp_pure.mpr (iff_of_true .same fun h => ?_), fun hlock => ?_⟩
  · exact absurd h.2.1 (by omega)
  rw [wp_ite]
  refine ⟨fun hzero => wp_pure.mpr (iff_of_true .same fun h => ?_), fun hzero => wp_ite.mpr ⟨fun hopt => ?_, fun hopt => ?_⟩⟩
  · obtain ⟨-, -, rfl, -⟩ := h
    exact absurd hzero.1 (by decide)
  · exact wp_pure.mpr (iff_of_true .same fun h => hopt.2 h.2.2.1)
  · refine (timeDly_noOp H hrun hlock fun hne => (BitVec.pos_iff_ne_zero _).mpr fun hz => ?_).mono fun e s' h => ?_
    · exact hzero ⟨by simpa [hne] using hopt, hz⟩
    · rw [h]
      exact not_congr ⟨fun h => ⟨by omega, by omega, h⟩, fun h => h.2.2⟩

theorem osTimeDlyHMSM_noOp (H : Ready cfg s a) (hrun : a.running = true) (x : HMSM) (opt : Opt) :
    wp n cfg (osTimeDlyHMSM x opt) (fun e s' =>
      NoOp s (some { err := e }) s' ↔ ¬ PassedMatch cfg s (.call (.timeDlyHMSM x opt))) s := by
  rw [osTimeDlyHMSM, wp_bind, wp_get, wp_ite]
  refine ⟨fun hint => wp_pure.mpr (iff_of_true .same fun h => ?_), fun hint => ?_⟩
  · exact absurd h.1 (by omega)
  rw [wp_ite]
  refine ⟨fun hlock => wp_pure.mpr (iff_of_true .same fun h => ?_), fun hlock => ?_⟩
  · exact absurd h.2.1 (by omega)
  cases hchk : hmsmCheck x opt with
  | some e =>
    refine wp_pure.mpr (iff_of_true .same fun h => ?_)
    rw [h.2.2.1] at hchk
    cases hchk
  | none =>
    dsimp only
    rw [wp_bind, wp_ask, wp_ite]
    refine ⟨fun hpos => ?_, fun hpos => wp_pure.mpr (iff_of_true .same fun h => hpos h.2.2.2.2.1)⟩
    refine (timeDly_noOp H hrun hlock fun _ => hpos).mono fun e s' h => ?_
    rw [h]
    exact not_congr ⟨fun h => ⟨by omega, by omega, hchk, h.1, hpos, h.2⟩, fun h => ⟨h.2.2.2.1, h.2.2.2.2.2⟩⟩

def StampsRefused (s : OS) (p : Option TcbId) (opt : Opt) : Prop :=
  postOptValid opt = true ∧ ∃ t, s.Target p t ∧ (s.tcb t).ts ≠ s.tsNow ∧
    ((s.tcb t).taskState = .del ∨ (s.tcb t).semCtr = 0xFFFFFFFF ∧ (s.tcb t).pendOn ≠ .taskSem)

theorem taskSemInc_noOp {s₁ : OS} (h₁ : s₁ = s.modTcb t fun c => { c with ts := s.tsNow }) :
    wp n cfg (taskSemInc t) (fun x s' => NoOp s (some x) s' ↔
      ¬ ((s.tcb t).ts ≠ s.tsNow ∧ (s.tcb t).semCtr = 0xFFFFFFFF)) s₁ := by
  have hctr : (s₁.tcb t).semCtr = (s.tcb t).semCtr := by rw [h₁, OS.modTcb_tcb, if_pos rfl]
  rw [taskSemInc, wp_bind, wp_getTcb, hctr, wp_ite]
  constructor
  · intro hfull
    refine wp_pure.mpr ⟨fun h => ?_, fun h _ => ?_⟩
    · rintro ⟨hts, -⟩
      have heq := h ⟨_, rfl, rfl⟩
      rw [h₁] at heq
      have hts' := congrArg (fun x : OS => (x.tcb t).ts) heq
      simp only [OS.modTcb_tcb, if_pos] at hts'
      exact hts hts'.symm
    · rw [h₁]
      refine OS.modTcb_self s t ?_
      rw [← not_not.mp fun hts => h ⟨hts, hfull⟩]
  · intro hfull
    exact wp_bind_any fun _ _ => wp_pure.mpr (iff_of_true (.granted rfl) fun h => hfull h.2)

theorem osTaskSemPost_noOp (H : Ready cfg s a) (p : Option TcbId) (opt : Opt) :
    wp n cfg (osTaskSemPost p opt) (fun x s' => NoOp s (some x) s' ↔ ¬ StampsRefused s p opt) s := by
  rw [osTaskSemPost, wp_ite]
  refine ⟨fun hopt => wp_pure.mpr (iff_of_true .same fun h => ?_), fun hopt => ?_⟩
  · rw [h.1] at hopt
    cases hopt
  rw [wp_bind, wp_tsGet, taskSemPost, wp_bind, wp_target]
  intro t ht
  have hspoils : StampsRefused s p opt ↔ (s.tcb t).ts ≠ s.tsNow ∧
      ((s.tcb t).taskState = .del ∨ (s.tcb t).semCtr = 0xFFFFFFFF ∧ (s.tcb t).pendOn ≠ .taskSem) := by
    refine ⟨?_, fun h => ⟨by simpa using hopt, t, ht, h⟩⟩
    rintro ⟨-, u, hu, h⟩
    rwa [← hu.unique ht]
  have hpend : (s.tcb t).pendOn ≠ .nothing ↔ (s.tcb t).taskState.isPend = true := by
    rw [H.rep.pendOn, H.rep.state]
    exact H.sound.wait.pendOn_iff t
  have hinc (hst : (s.tcb t).taskState ≠ .del) (hno : (s.tcb t).pendOn ≠ .taskSem) :
      wp n cfg (taskSemInc t) (fun x s' => NoOp s (some x) s' ↔ ¬ StampsRefused s p opt)
        (s.modTcb t fun c => { c with ts := s.tsNow }) := by
    refine (taskSemInc_noOp rfl).mono fun x s' h => ?_
    rw [h, hspoils]
    exact not_congr ⟨fun h => ⟨h.1, .inr ⟨h.2, hno⟩⟩, fun h => ⟨h.1, (h.2.resolve_left hst).1⟩⟩
  rw [wp_bind, wp_modTcb, wp_bind, wp_getTcb, OS.modTcb_tcb, if_pos rfl]
  cases hst : (s.tcb t).taskState with
  | rdy | dly | suspended | dlySuspended =>
    refine hinc (by simp [hst]) fun hno => ?_
    have hp := hpend.mp (by simp [hno])
    rw [hst] at hp
    cases hp
  | pend | pendTimeout | pendSuspended | pendTimeoutSuspended =>
    dsimp only
    rw [wp_ite]
    refine ⟨fun hsem => ?_, fun hsem => hinc (by simp [hst]) hsem⟩
    refine wp_bind_any fun _ _ => wp_bind_any fun _ _ => wp_bind_any fun _ _ => wp_pure.mpr (iff_of_true (.granted rfl) ?_)
    rw [hspoils, hst]
    rintro ⟨-, h | h⟩
    · cases h
    · exact h.2 hsem
  | del =>
    refine wp_pure.mpr ⟨fun h hspoil => ?_, fun h _ => ?_⟩
    · have hts' := congrArg (fun x : OS => (x.tcb t).ts) (h ⟨_, rfl, rfl⟩)
      simp only [OS.modTcb_tcb, if_pos] at hts'
      exact (hspoils.mp hspoil).1 hts'.symm
    · refine OS.modTcb_self s t ?_
      rw [← not_not.mp fun hts => h (hspoils.mpr ⟨hts, .inl hst⟩)]

def OS.Scheduled (cfg : Cfg) (s : OS) : Prop :=
  s.prioHighRdy < cfg.prioMax ∧ (∀ p < s.prioHighRdy, (s.rdyList p).headPtr = none) ∧
    (s.rdyList s.prioHighRdy).headPtr = s.tcbHighRdyPtr ∧ s.tcbHighRdyPtr = s.tcbCurPtr ∧ s.tcbCurPtr ≠ none

instance (cfg : Cfg) (s : OS) : Decidable (s.Scheduled cfg) := inferInstanceAs (Decidable (_ ∧ _))

theorem reschedule_same (h : Rep cfg s a) : wp n cfg reschedule (fun _ s' => s' = s ↔ s.Scheduled cfg) s := by
  rw [reschedule, wp_bind]
  refine (prioGetHighest_spec h.rdy).mono ?_
  rintro p s₁ ⟨rfl, hne, hbest⟩
  rw [wp_bind, wp_getRdyList]
  intro hp
  obtain ⟨t, ht⟩ : ∃ t, (s₁.rdyList p).headPtr = some t := by
    rw [h.head hp]
    exact ⟨_, List.head?_eq_some_head hne⟩
  have hprio (hs : s₁.Scheduled cfg) : s₁.prioHighRdy = p := by
    obtain ⟨hlt, hnone, hhead, hcur, hsome⟩ := hs
    refine Nat.le_antisymm (not_lt.mp fun hlt' => ?_) (hbest _ fun hnil => hsome ?_)
    · rw [hnone p hlt'] at ht
      cases ht
    · rw [← hcur, ← hhead, h.head hlt, hnil]
      rfl
  simp only [ht, wp_bind, wp_modify, wp_get, wp_ite, wp_pure, wp_deref, ctxSw]
  constructor
  · intro hcur
    constructor
    · intro heq
      have hhigh : p = s₁.prioHighRdy := (congrArg OS.prioHighRdy heq :)
      have htcb : some t = s₁.tcbHighRdyPtr := (congrArg OS.tcbHighRdyPtr heq :)
      refine ⟨hhigh ▸ hp, fun q hq => ?_, by rw [← hhigh, ht, htcb], by rw [← htcb, hcur], by rw [← hcur]; simp⟩
      rw [h.head (by omega)]
      by_contra hnil
      have hle := hbest q fun h' => hnil (by rw [h']; rfl)
      omega
    · intro hs
      rw [← hprio hs, hcur.trans hs.2.2.2.1.symm]
  · rintro hcur _ -
    refine iff_of_false (fun heq => hcur (congrArg OS.tcbCurPtr heq :)) fun hs => hcur ?_
    rw [← hs.2.2.2.1, ← hs.2.2.1, hprio hs, ht]

def ResumeSwitches (cfg : Cfg) (s : OS) (p : Option TcbId) : Prop :=
  s.intNestingCtr = 0 ∧ s.schedLockNestingCtr = 0 ∧ p ≠ s.tcbCurPtr ∧
    (∃ t ∈ p, (s.tcb t).taskState.isSuspended = false) ∧ ¬ s.Scheduled cfg

theorem osTaskResume_noOp (H : Ready cfg s a) (p : Option TcbId) :
    wp n cfg (osTaskResume p) (fun e s' => NoOp s (some { err := e }) s' ↔ ¬ ResumeSwitches cfg s p) s := by
  rw [osTaskResume, wp_bind, wp_get, wp_ite]
  refine ⟨fun hint => wp_pure.mpr (iff_of_true .same fun h => absurd h.1 (by omega)), fun hint => ?_⟩
  rw [wp_ite]
  refine ⟨fun hself => wp_pure.mpr (iff_of_true .same fun h => ?_), fun hself => ?_⟩
  · rcases hself with rfl | hself
    · obtain ⟨_, ⟨⟩, -⟩ := h.2.2.2.1
    · exact h.2.2.1 hself
  rw [wp_bind, wp_deref]
  rintro t rfl
  have hcur : some t ≠ s.tcbCurPtr := fun h => hself (.inr h)
  have hspoils : ResumeSwitches cfg s (some t) ↔
      s.schedLockNestingCtr = 0 ∧ (s.tcb t).taskState.isSuspended = false ∧ ¬ s.Scheduled cfg := by
    refine ⟨?_, fun h => ⟨by omega, h.1, hcur, ⟨t, rfl, h.2.1⟩, h.2.2⟩⟩
    rintro ⟨-, hlock, -, ⟨_, ⟨⟩, hst⟩, hs⟩
    exact ⟨hlock, hst, hs⟩
  rw [taskResume, wp_bind]
  refine (resumeTcb_noOp t).mono ?_
  rintro e s₁ (⟨rfl, hst⟩ | ⟨rfl, ⟨rfl, hst⟩ | ⟨rfl, hst⟩⟩)
  · refine wp_bind_any fun _ _ => wp_pure.mpr (iff_of_true (.granted rfl) fun h => ?_)
    rw [hspoils, hst] at h
    exact absurd h.2.1 (by decide)
  · rw [if_neg (by decide), osSched, wp_bind, wp_bind, wp_get, wp_ite]
    refine ⟨fun h => absurd h hint, fun _ => ?_⟩
    rw [wp_ite]
    refine ⟨fun hlock => wp_pure.mpr (wp_pure.mpr (iff_of_true .same fun h => ?_)), fun hlock => ?_⟩
    · exact absurd (hspoils.mp h).1 (by omega)
    · refine (reschedule_same H.rep).mono fun _ s₂ h₂ => wp_pure.mpr ?_
      rw [hspoils, ← h₂]
      constructor
      · intro h hs
        exact hs.2.2 (h ⟨_, rfl, rfl⟩)
      · intro h _
        exact not_not.mp fun hne => h ⟨by omega, hst, hne⟩
  · refine wp_pure.mpr (iff_of_true .same fun h => ?_)
    rw [hspoils, hst] at h
    exact absurd h.2.1 (by decide)

end exceptions

section calls

def Call.listed : Call → Bool
  | pendMulti .. | timeGet | timeSet _ | schedLock | schedUnlock | schedRoundRobinCfg .. | schedRoundRobinYield => false
  | _ => true

/-- The call is refused after it has changed something. -/
def Call.Spoils (cfg : Cfg) (s : OS) : Call → Prop
  | timeDly dly opt => PassedMatch cfg s (.call (.timeDly dly opt))
  | timeDlyHMSM x opt => PassedMatch cfg s (.call (.timeDlyHMSM x opt))
  | taskSemPost p opt => StampsRefused s p opt
  | taskResume p => ResumeSwitches cfg s p
  | _ => False

theorem Call.exec_noOp (H : Ready cfg s a) {c : Call} (hrun : a.running = true ∨ c.setsUp = true) (hc : c.listed = true) :
    wp n cfg c.exec (fun r s' => NoOp s r s' ↔ ¬ c.Spoils cfg s) s := by
  have hno {m : K (Option Ret)} (h : wp n cfg m (fun r s' => NoOp s r s') s) :
      wp n cfg m (fun r s' => NoOp s r s' ↔ ¬ False) s := h.mono fun _ _ h' => iff_of_true h' id
  cases c with
  | taskCreate x => exact hno (wp_errOnly.mpr (osTaskCreate_noOp x))
  | taskDel p => exact hno (wp_errOnly.mpr (osTaskDel_noOp p))
  | taskSuspend p => exact hno (wp_errOnly.mpr (osTaskSuspend_noOp p))
  | taskResume p => exact wp_errOnly.mpr (osTaskResume_noOp H p)
  | taskChangePrio p prioNew => exact hno (wp_errOnly.mpr (osTaskChangePrio_noOp p prioNew))
  | taskTimeQuantaSet p v => exact hno (wp_errOnly.mpr (osTaskTimeQuantaSet_noOp p v))
  | taskSemPend timeout opt => exact hno (osTaskSemPend_noOp timeout opt)
  | taskSemPendAbort p opt => exact hno (wp_always.mpr (osTaskSemPendAbort_noOp p opt))
  | taskSemPost p opt => exact wp_always.mpr (osTaskSemPost_noOp H p opt)
  | taskSemSet p cnt => exact hno (wp_always.mpr (osTaskSemSet_noOp p cnt))
  | taskQPend timeout opt hasSize => exact hno (osTaskQPend_noOp timeout opt hasSize)
  | taskQPendAbort p opt => exact hno (wp_always.mpr (osTaskQPendAbort_noOp p opt))
  | taskQPost p pVoid msgSize opt => exact hno (wp_errOnly.mpr (osTaskQPost_noOp p pVoid msgSize opt))
  | taskQFlush p => exact hno (wp_always.mpr (osTaskQFlush_noOp p))
  | semCreate p cnt => exact hno (wp_errOnly.mpr (osSemCreate_noOp p cnt))
  | semPend p timeout opt => exact hno (osSemPend_noOp p timeout opt)
  | semPendAbort p opt => exact hno (wp_always.mpr (objPendAbort_noOp .sem p opt))
  | semPost p opt => exact hno (wp_always.mpr (osSemPost_noOp p opt))
  | semSet p cnt => exact hno (wp_errOnly.mpr (osSemSet_noOp p cnt))
  | qCreate p maxQty => exact hno (wp_errOnly.mpr (osQCreate_noOp p maxQty))
  | qPend p timeout opt hasSize => exact hno (osQPend_noOp p timeout opt hasSize)
  | qPendAbort p opt => exact hno (wp_always.mpr (objPendAbort_noOp .q p opt))
  | qPost p pVoid msgSize opt => exact hno (wp_errOnly.mpr (osQPost_noOp p pVoid msgSize opt))
  | mutexCreate p => exact hno (wp_errOnly.mpr (osMutexCreate_noOp p))
  | mutexPend p timeout opt => exact hno (osMutexPend_noOp p timeout opt)
  | mutexPost p opt => exact hno (wp_errOnly.mpr (osMutexPost_noOp p opt))
  | flagCreate p flags => exact hno (wp_errOnly.mpr (osFlagCreate_noOp p flags))
  | flagPend p flags timeout opt => exact hno (osFlagPend_noOp p flags timeout opt)
  | flagPendGetFlagsRdy => exact hno (wp_always.mpr osFlagPendGetFlagsRdy_noOp)
  | flagPost p flags opt => exact hno (osFlagPost_noOp H p flags opt)
  | timeDly dly opt => exact wp_errOnly.mpr (osTimeDly_noOp H (hrun.resolve_right (by simp [Call.setsUp])) dly opt)
  | timeDlyHMSM x opt => exact wp_errOnly.mpr (osTimeDlyHMSM_noOp H (hrun.resolve_right (by simp [Call.setsUp])) x opt)
  | pendMulti | timeGet | timeSet | schedLock | schedUnlock | schedRoundRobinCfg | schedRoundRobinYield => cases hc

def StatInitSuspends (s : OS) : Prop :=
  s.intNestingCtr = 0 ∧ 0 < s.schedLockNestingCtr ∧ s.tcbCurPtr ≠ some tmrTaskTCB ∧ (s.tcb tmrTaskTCB).taskState ≠ .del

theorem Task.suspend_ne {c : Task} (hc : c.state ≠ .del) : c.suspend ≠ c := by
  intro h
  have hst : c.state.suspend = c.state := (congrArg Task.state h :)
  have hctr : (if c.state.isSuspended then c.suspendCtr + 1 else 1) = c.suspendCtr := (congrArg Task.suspendCtr h :)
  cases hs : c.state <;> rw [hs] at hst hctr
  case del => exact hc hs
  case rdy | dly | pend | pendTimeout => cases hst
  all_goals
    have hsucc : c.suspendCtr + 1 = c.suspendCtr := hctr
    bv_omega

theorem suspendTcb_held (H : Ready cfg s a) (t : TcbId) : wp n cfg (suspendTcb t) (fun e s' =>
    (s.tcb t).taskState = .del ∧ e = .stateInvalid ∧ s' = s ∨ (s.tcb t).taskState ≠ .del ∧ e = .none ∧ s' ≠ s ∧
      s'.intNestingCtr = s.intNestingCtr ∧ s'.schedLockNestingCtr = s.schedLockNestingCtr ∧ s'.tcbCurPtr = s.tcbCurPtr) s := by
  refine (suspendTcb_spec H.rep H.sound).and (suspendTcb_noOp t) |>.mono ?_
  rintro e s' ⟨⟨h', he⟩, hno⟩
  by_cases hdel : (a.task t).state = .del
  · rw [if_pos hdel] at he
    exact .inl ⟨(H.rep.state t).trans hdel, he, (hno.resolve_left (by simp [he])).2⟩
  · rw [if_neg hdel] at he
    obtain ⟨b, hb, hint, hlock, hcur, htask⟩ : ∃ b, Rep cfg s' b ∧ b.intNesting = a.intNesting ∧
        b.lockNesting = a.lockNesting ∧ b.cur = a.cur ∧ b.task t = (a.task t).suspend := by
      refine ⟨_, h', ?_⟩
      rw [Abs.suspend, if_neg hdel]
      split <;> exact ⟨rfl, rfl, rfl, (Abs.task_modTask _ _ _ _).trans (if_pos rfl)⟩
    refine .inr ⟨fun h => hdel ((H.rep.state t).symm.trans h), he, ?_, ?_, ?_, ?_⟩
    · rintro rfl
      rw [hb.task, ← H.rep.task] at htask
      exact Task.suspend_ne hdel htask.symm
    · rw [← hb.intNesting, hint, H.rep.intNesting]
    · rw [← hb.lockNesting, hlock, H.rep.lockNesting]
    · rw [← hb.cur, hcur, H.rep.cur]

theorem osTimeDly_granted {dly : Tick} {opt : Opt} (hint : s.intNestingCtr = 0) (hlock : s.schedLockNestingCtr = 0)
    (hopt : isRelative opt = true) (hdly : dly ≠ 0) : wp n cfg (osTimeDly dly opt) (fun e _ => e = .none) s := by
  rw [osTimeDly, wp_bind, wp_get, if_neg (by omega), if_neg (by omega), if_neg fun h => hdly h.2, if_neg (by simp [hopt]),
    timeDly,
    wp_bind, wp_getCur]
  intro t _
  rw [wp_bind, wp_modTcb, wp_bind]
  refine (tickListInsert_err dly opt).mono fun e s₁ he => ?_
  have hnone : e = .none := by
    refine he.mpr fun h => ?_
    obtain ⟨rfl, -⟩ := tickMatch_none h fun _ => (BitVec.pos_iff_ne_zero _).mpr hdly
    exact absurd hopt (by decide)
  rw [if_neg (not_not.mpr hnone)]
  exact wp_bind_any fun _ _ => wp_bind_any fun _ _ => wp_pure.mpr rfl

theorem osStatTaskCPUUsageInit_noOp (H : Ready cfg s a) : wp n cfg osStatTaskCPUUsageInit (fun r s' =>
    ((∃ e ∈ r, e.refuses = true) → s' = s) ↔ ¬ StatInitSuspends s) s := by
  have hsame {e : Err} (h : ¬ StatInitSuspends s) :
      ((∃ x ∈ some e, x.refuses = true) → s = s) ↔ ¬ StatInitSuspends s := iff_of_true (fun _ => rfl) h
  rw [osStatTaskCPUUsageInit, wp_bind, wp_get, wp_bind, osTaskSuspend, wp_bind, wp_get, wp_ite]
  refine ⟨fun hint => wp_pure.mpr (wp_pure.mpr (hsame fun h => absurd h.1 (by omega))), fun hint => ?_⟩
  rw [if_neg (by decide), taskSuspend, wp_bind, orCur, wp_pure, wp_bind, wp_get, wp_ite]
  refine ⟨fun hself => wp_pure.mpr (wp_pure.mpr (hsame fun h => h.2.2.1 hself.1.symm)), fun hself => ?_⟩
  rw [wp_bind]
  refine (suspendTcb_held H tmrTaskTCB).mono ?_
  rintro e s₁ (⟨hdel, rfl, rfl⟩ | ⟨hdel, rfl, hne, hint₁, hlock₁, hcur₁⟩)
  · exact wp_pure.mpr (wp_pure.mpr (hsame fun h => h.2.2.2 hdel))
  rw [if_neg (by decide), wp_bind]
  by_cases hlock : s.schedLockNestingCtr > 0
  · have hspoils : StatInitSuspends s := ⟨by omega, hlock, fun h => hself ⟨h.symm, hlock⟩, hdel⟩
    rw [osSched, wp_bind, wp_get, if_neg (by omega), if_pos (by omega), wp_pure, wp_pure, if_neg (by simp), wp_bind, wp_get,
      if_neg (not_not.mpr hcur₁), wp_bind, osTimeDly, wp_bind, wp_get, if_neg (by omega), if_pos (by omega), wp_pure]
    exact wp_pure.mpr (iff_of_false (fun h => hne (h ⟨_, rfl, rfl⟩)) (not_not.mpr hspoils))
  · have hspoils : ¬ StatInitSuspends s := fun h => hlock h.2.1
    have hk : Keeps (fun x : OS => (x.intNestingCtr, x.schedLockNestingCtr)) osSched :=
      keeps_osSched (fun _ _ _ => rfl) fun _ _ _ => rfl
    refine (hk n cfg s₁).mono fun _ s₂ h₂ => wp_pure.mpr ?_
    obtain ⟨hint₂, hlock₂⟩ := Prod.mk.inj h₂
    rw [if_neg (by simp), wp_bind, wp_get, wp_ite]
    have hwaits {s' : OS} : ((∃ x ∈ (none : Option Err), x.refuses = true) → s' = s) ↔ ¬ StatInitSuspends s :=
      iff_of_true (by rintro ⟨x, hx, -⟩; cases hx) hspoils
    refine ⟨fun _ => wp_pure.mpr hwaits, fun _ => ?_⟩
    rw [wp_bind]
    refine (osTimeDly_granted (by omega) (by omega) rfl (by decide)).mono ?_
    rintro _ s₃ rfl
    exact wp_pure.mpr hwaits

end calls

section timers

variable {c : TmrCfg} {x y : Sys}

def OnlySetUp (f g : TmrId → Tmr) : Prop :=
  ∀ t, (g t).isTmr = true → (g t).state = .unused → (f t).isTmr = true ∧ (f t).state = .unused

instance : Std.Refl OnlySetUp := ⟨fun _ _ h h' => ⟨h, h'⟩⟩

instance : IsTrans (TmrId → Tmr) OnlySetUp :=
  ⟨fun _ _ _ h h' t ht hs => h t (h' t ht hs).1 (h' t ht hs).2⟩

abbrev SetsUp {α : Type} (m : T α) : Prop := Grows OnlySetUp Sys.tmr m

theorem setsUp_modTmr {f : Tmr → Tmr} (hf : ∀ a, (f a).isTmr = true → (f a).state = .unused → a.isTmr = true ∧
    a.state = .unused)
    (t : TmrId) : SetsUp (modTmr t f) := by
  refine grows_modify fun s u => ?_
  by_cases hu : u = t
  · subst hu
    simpa [Sys.modTmr] using hf (s.tmr u)
  · simpa [Sys.modTmr, Function.update_of_ne hu] using fun h h' => ⟨h, h'⟩

theorem setsUp_onKernel {α : Type} {m : K α} : SetsUp (onKernel m) :=
  fun _ _ _ => wp_onKernel.mpr fun _ _ _ _ h h' => ⟨h, h'⟩

theorem setsUp_pure {α : Type} (a : α) : SetsUp (pure a) := (keeps_pure a : Keeps Sys.tmr _).grows

theorem setsUp_get : SetsUp Prog.get := (keeps_get : Keeps Sys.tmr _).grows

theorem setsUp_ask : SetsUp Prog.ask := (keeps_ask : Keeps Sys.tmr _).grows

theorem setsUp_deref {α : Type} (p : Option α) : SetsUp (Prog.deref p) := (keeps_deref p : Keeps Sys.tmr _).grows

theorem setsUp_modify {f : Sys → Sys} (hf : ∀ s, (f s).tmr = s.tmr) : SetsUp (Prog.modify f) :=
  (keeps_modify hf : Keeps Sys.tmr _).grows

theorem setsUp_modTmrSpoke (i : ℕ) (f : TmrSpoke → TmrSpoke) : SetsUp (modTmrSpoke i f) := setsUp_modify fun _ => rfl

theorem setsUp_getTmr (t : TmrId) : SetsUp (getTmr t) := grows_bind setsUp_get fun _ => setsUp_pure _

theorem setsUp_getTmrSpoke (i : ℕ) : SetsUp (getTmrSpoke i) := grows_bind setsUp_get fun _ => setsUp_pure _

theorem setsUp_links {f : Tmr → Tmr} (hf : ∀ a, (f a).isTmr = a.isTmr ∧ (f a).state = a.state) (t : TmrId) :
    SetsUp (modTmr t f) :=
  setsUp_modTmr (fun a h h' => ⟨(hf a).1 ▸ h, (hf a).2 ▸ h'⟩) t

theorem setsUp_state {f : Tmr → Tmr} (hf : ∀ a, (f a).state ≠ .unused) (t : TmrId) : SetsUp (modTmr t f) :=
  setsUp_modTmr (fun a _ h => absurd h (hf a)) t

theorem setsUp_tmrUnlink (t : TmrId) : SetsUp (tmrUnlink t) := by
  refine grows_bind (setsUp_getTmr t) fun a => grows_bind setsUp_ask fun _ =>
    grows_bind (setsUp_getTmrSpoke _) fun k => ?_
  have hend (i : ℕ) : SetsUp (do
      modTmr t fun c => { c with state := .stopped, nextPtr := none, prevPtr := none }
      modTmrSpoke i fun k => { k with nbrEntries := k.nbrEntries - 1 }) :=
    grows_bind (setsUp_state (fun _ => by simp) t) fun _ => setsUp_modTmrSpoke _ _
  dsimp only
  apply grows_ite
  · refine grows_bind (setsUp_modTmrSpoke _ _) fun _ => ?_
    cases a.nextPtr with
    | none => exact hend _
    | some _ => exact grows_bind (setsUp_links (by simp) _) fun _ => hend _
  · refine grows_bind (setsUp_deref _) fun _ => grows_bind (setsUp_links (by simp) _) fun _ => ?_
    cases a.nextPtr with
    | none => exact hend _
    | some _ => exact grows_bind (setsUp_links (by simp) _) fun _ => hend _

theorem setsUp_tmrLinkWalk (t : TmrId) (i : ℕ) (t1 : TmrId) : SetsUp (tmrLinkWalk t i t1) := by
  unfold tmrLinkWalk
  refine grows_bind setsUp_get fun _ => grows_bind (setsUp_links (by simp) _) fun _ =>
    grows_bind (setsUp_getTmr _) fun c1 => grows_bind (setsUp_getTmr _) fun c => ?_
  apply grows_ite
  · cases c1.nextPtr with
    | some t2 => exact setsUp_pure _
    | none =>
      exact grows_bind (setsUp_links (by simp) _) fun _ => grows_bind (setsUp_links (by simp) _) fun _ => setsUp_pure _
  · cases c1.prevPtr with
    | none =>
      exact grows_bind (setsUp_links (by simp) _) fun _ => grows_bind (setsUp_links (by simp) _) fun _ =>
        grows_bind (setsUp_modTmrSpoke _ _) fun _ => setsUp_pure _
    | some t0 =>
      exact grows_bind (setsUp_links (by simp) _) fun _ => grows_bind (setsUp_links (by simp) _) fun _ =>
        grows_bind (setsUp_links (by simp) _) fun _ => setsUp_pure _

theorem setsUp_tmrLink (t : TmrId) (opt : Opt) : SetsUp (tmrLink t opt) := by
  refine grows_bind setsUp_get fun _ => grows_bind (setsUp_state (fun _ => by simp) t) fun _ => ?_
  refine grows_bind (setsUp_getTmr _) fun _ => grows_bind setsUp_ask fun _ =>
    grows_bind (setsUp_getTmrSpoke _) fun k => ?_
  cases k.firstPtr with
  | none =>
    exact grows_bind (setsUp_links (by simp) _) fun _ => grows_bind (setsUp_modTmrSpoke _ _) fun _ =>
      setsUp_modTmrSpoke _ _
  | some t1 =>
    exact grows_bind setsUp_get fun _ => grows_bind (setsUp_links (by simp) _) fun _ =>
      grows_bind (grows_loop (setsUp_tmrLinkWalk _ _) _) fun _ => grows_bind (setsUp_modTmrSpoke _ _) fun _ =>
        setsUp_modTmrSpoke _ _

theorem setsUp_runCallback (f : Callback) (t : TmrId) (arg : Option ℕ) : SetsUp (runCallback f t arg) :=
  grows_bind (setsUp_modify (by simp)) fun _ =>
    grows_bind setsUp_ask fun _ => setsUp_onKernel

theorem setsUp_stopCallback (t : TmrId) (arg : Option ℕ) : SetsUp (stopCallback t arg) := by
  refine grows_bind (setsUp_getTmr t) fun a => ?_
  cases a.callbackPtr with
  | none => exact setsUp_pure _
  | some f => exact grows_bind (setsUp_runCallback f t arg) fun _ => setsUp_pure _

theorem setsUp_checkTmr {m : TmrId → T Ret} (p : Option TmrId) (hm : ∀ t, SetsUp (m t)) : SetsUp (checkTmr p m) := by
  refine grows_bind setsUp_get fun s => grows_ite (setsUp_pure _) ?_
  cases p with
  | none => exact setsUp_pure _
  | some t => exact grows_ite (setsUp_pure _) (hm t)

theorem setsUp_unlock {α : Type} (x : α) : SetsUp (do let _ ← onKernel osSchedUnlock; return x) :=
  grows_bind setsUp_onKernel fun _ => setsUp_pure _

theorem TmrCall.setsUp (k : TmrCall) : SetsUp k.exec := by
  cases k with
  | create p dly period opt callback arg =>
    refine grows_bind ?_ fun _ => setsUp_pure _
    refine grows_bind setsUp_get fun s => grows_ite (setsUp_pure _) ?_
    cases p with
    | none => exact setsUp_pure _
    | some t =>
      have hset : SetsUp (do
          modTmr t fun _ =>
            { isTmr := true, callbackPtr := callback, callbackPtrArg := arg, nextPtr := none, prevPtr := none, matchCtr := 0,
              remain := 0, dly := dly, period := period, opt := opt, state := .stopped }
          Prog.modify fun s => { s with tmrQty := s.tmrQty + 1 }
          return Err.none) :=
        grows_bind (setsUp_state (by simp) t) fun _ => grows_bind (setsUp_modify (by simp)) fun _ =>
          setsUp_pure _
      exact grows_ite (grows_ite (setsUp_pure _) hset) (grows_ite (grows_ite (setsUp_pure _) hset) (setsUp_pure _))
  | start p =>
    refine setsUp_checkTmr p fun t => grows_bind setsUp_onKernel fun _ => grows_bind (setsUp_getTmr t) fun a => ?_
    cases a.state with
    | running => exact grows_bind (setsUp_tmrUnlink t) fun _ => grows_bind (setsUp_tmrLink t _) fun _ => setsUp_unlock _
    | stopped | completed => exact grows_bind (setsUp_tmrLink t _) fun _ => setsUp_unlock _
    | unused => exact setsUp_unlock _
  | stop p opt arg =>
    refine setsUp_checkTmr p fun t => grows_bind setsUp_onKernel fun _ => grows_bind (setsUp_getTmr t) fun a => ?_
    cases a.state with
    | running =>
      refine grows_bind (setsUp_tmrUnlink t) fun _ => grows_ite ?_ (grows_ite ?_ (grows_ite (setsUp_unlock _)
        (setsUp_unlock _)))
      · exact grows_bind (setsUp_getTmr t) fun _ => grows_bind (setsUp_stopCallback t _) fun _ => setsUp_unlock _
      · exact grows_bind (setsUp_stopCallback t _) fun _ => setsUp_unlock _
    | stopped | completed | unused => exact setsUp_unlock _
  | remainGet p =>
    refine setsUp_checkTmr p fun t => grows_bind setsUp_onKernel fun _ => grows_bind (setsUp_getTmr t) fun a => ?_
    cases a.state with
    | running =>
      exact grows_bind setsUp_get fun _ => grows_bind (setsUp_links (by simp) t) fun _ => setsUp_unlock _
    | stopped => exact grows_bind (setsUp_links (by simp) t) fun _ => setsUp_unlock _
    | completed | unused => exact setsUp_unlock _
  | stateGet p => exact setsUp_checkTmr p fun t => grows_bind (setsUp_getTmr t) fun _ => setsUp_pure _

theorem setsUp_tmrTask : SetsUp tmrTask := by
  refine grows_bind setsUp_onKernel fun _ => grows_bind (setsUp_modify (by simp)) fun _ => ?_
  refine grows_bind setsUp_get fun _ => grows_bind setsUp_ask fun _ => ?_
  refine grows_bind (setsUp_getTmrSpoke _) fun k => ?_
  refine grows_bind (grows_loop (fun p => ?_) _) fun _ => setsUp_unlock _
  unfold tmrTaskStep
  cases p with
  | none => exact setsUp_pure _
  | some t =>
    refine grows_bind (setsUp_getTmr t) fun a => grows_bind setsUp_get fun _ => ?_
    refine grows_ite (grows_bind (setsUp_tmrUnlink t) fun _ => grows_bind (setsUp_getTmr t) fun _ => ?_) (setsUp_pure _)
    refine grows_ite (grows_bind (setsUp_tmrLink t _) fun _ => ?_) (grows_bind (setsUp_state (by simp) t) fun _ => ?_)
    all_goals
      refine grows_bind (setsUp_getTmr t) fun b => ?_
      cases b.callbackPtr with
      | none => exact setsUp_pure _
      | some f =>
        exact grows_bind (setsUp_getTmr t) fun _ => grows_bind (setsUp_runCallback f t _) fun _ => setsUp_pure _

theorem tmrRun_setUp {h : List TmrEvent} (run : TmrRun c h x) (t : TmrId) (ht : (x.tmr t).isTmr = true) :
    (x.tmr t).state ≠ .unused := by
  induction run with
  | init ho start => cases ht
  | call run fair exec ih =>
    intro hs
    have hback := exec.wp fun n => TmrCall.setsUp _ n c _
    exact ih (hback t ht hs).1 (hback t ht hs).2
  | tick run exec hf ih =>
    intro hs
    have hback := exec.wp fun n => setsUp_tmrTask n c _
    exact ih (hback t ht hs).1 (hback t ht hs).2
  | kernel run ho ih => exact ih ht

/-- A running timer is stopped before the option is looked at. -/
def TmrCall.Spoils (x : Sys) : TmrCall → Prop
  | stop p opt _ => x.os.intNestingCtr = 0 ∧ (∃ t ∈ p, (x.tmr t).isTmr = true ∧ (x.tmr t).state = .running) ∧
      opt ≠ optTmrNone ∧ opt ≠ optTmrCallback ∧ opt ≠ optTmrCallbackArg
  | _ => False

/-- A call that is answered with `r` has left everything as it was if it was refused, unless `P`. -/
def TmrNoOp (P : Prop) (x : Sys) (r : Ret) (y : Sys) : Prop := (r.err.refuses = true → y = x) ↔ ¬ P

theorem TmrNoOp.same {P : Prop} {r : Ret} (hP : ¬ P) : TmrNoOp P x r x := iff_of_true (fun _ => rfl) hP

theorem TmrNoOp.granted {P : Prop} {r : Ret} (hr : r.err.refuses = false) (hP : ¬ P) : TmrNoOp P x r y :=
  iff_of_true (fun h => by rw [hr] at h; cases h) hP

theorem checkTmr_noOp {P : Prop} {m : TmrId → T Ret} {p : Option TmrId}
    (hm : ∀ t, p = some t → x.os.intNestingCtr = 0 → (x.tmr t).isTmr = true → wp n c (m t) (TmrNoOp P x) x)
    (hP : P → x.os.intNestingCtr = 0 ∧ ∃ t ∈ p, (x.tmr t).isTmr = true) : wp n c (checkTmr p m) (TmrNoOp P x) x := by
  rw [checkTmr.eq_def, wp_bind, wp_get, wp_ite]
  refine ⟨fun hint => wp_pure.mpr (.same fun h => absurd (hP h).1 (by omega)), fun hint => ?_⟩
  cases p with
  | none =>
    refine wp_pure.mpr (.same fun h => ?_)
    obtain ⟨t, ⟨⟩, -⟩ := (hP h).2
  | some t =>
    dsimp only
    rw [wp_ite]
    refine ⟨fun htmr => wp_pure.mpr (.same fun h => ?_), fun htmr => hm t rfl (by omega) (by simpa using htmr)⟩
    obtain ⟨_, ⟨⟩, h⟩ := (hP h).2
    rw [h] at htmr
    cases htmr

theorem wp_locked {m : Tmr → T Ret} {t : TmrId} {Q : Ret → Sys → Prop} (hm : ∀ y, y.tmr = x.tmr → wp n c (m (x.tmr t)) Q y) :
    wp n c (do let _ ← onKernel osSchedLock; let a ← getTmr t; m a) Q x := by
  refine wp_bind.mpr (wp_onKernel.mpr fun _ o _ => ?_)
  exact wp_bind.mpr (wp_bind.mpr (wp_get.mpr (wp_pure.mpr (hm _ rfl))))

theorem wp_unlock {r : Ret} {Q : Ret → Sys → Prop} (h : ∀ o, Q r { x with os := o }) :
    wp n c (do let _ ← onKernel osSchedUnlock; return r) Q x :=
  wp_bind.mpr (wp_onKernel.mpr fun _ o _ => wp_pure.mpr (h o))

theorem tmrUnlink_stops (t : TmrId) : wp n c (tmrUnlink t) (fun _ y => (y.tmr t).state = .stopped) x := by
  have hend (i : ℕ) (y : Sys) : wp n c (do
      modTmr t fun c => { c with state := .stopped, nextPtr := none, prevPtr := none }
      modTmrSpoke i fun k => { k with nbrEntries := k.nbrEntries - 1 }) (fun _ y => (y.tmr t).state = .stopped) y :=
    wp_bind.mpr (wp_modify.mpr (wp_modify.mpr (by simp [Sys.modTmr, Sys.modTmrSpoke])))
  refine wp_bind_any fun a _ => wp_bind_any fun _ _ => wp_bind_any fun _ _ => ?_
  dsimp only
  rw [wp_ite]
  constructor
  · intro _
    refine wp_bind_any fun _ _ => ?_
    cases a.nextPtr with
    | none => exact hend _ _
    | some _ => exact wp_bind_any fun _ _ => hend _ _
  · intro _
    refine wp_bind_any fun _ _ => wp_bind_any fun _ _ => ?_
    cases a.nextPtr with
    | none => exact hend _ _
    | some _ => exact wp_bind_any fun _ _ => hend _ _

theorem stopCallback_grants (t : TmrId) (arg : Option ℕ) :
    wp n c (stopCallback t arg) (fun e _ => e.refuses = false) x := by
  refine wp_bind_any fun a y => ?_
  cases a.callbackPtr with
  | none => exact wp_pure.mpr rfl
  | some f => exact wp_bind_any fun _ _ => wp_pure.mpr rfl

theorem TmrCall.exec_noOp (hset : ∀ t, (x.tmr t).isTmr = true → (x.tmr t).state ≠ .unused) (k : TmrCall) :
    wp n c k.exec (TmrNoOp (k.Spoils x) x) x := by
  have hgrant {P : Prop} {r : Ret} (hr : r.err.refuses = false) (hP : ¬ P) {y : Sys} :
      wp n c (do let _ ← onKernel osSchedUnlock; return r) (TmrNoOp P x) y := wp_unlock fun _ => .granted hr hP
  cases k with
  | create p dly period opt callback arg =>
    have hcreate : wp n c (osTmrCreate p dly period opt callback arg)
        (fun e y => TmrNoOp False x { err := e } y) x := by
      rw [osTmrCreate.eq_def, wp_bind, wp_get, wp_ite]
      refine ⟨fun _ => wp_pure.mpr (.same id), fun _ => ?_⟩
      cases p with
      | none => exact wp_pure.mpr (.same id)
      | some t =>
        dsimp only
        rw [wp_ite, wp_ite, wp_ite, wp_ite]
        have hset {m m' : T Unit} {y : Sys} : wp n c (do m; m'; return Err.none)
          (fun e y => TmrNoOp False x { err := e } y) y :=
          wp_bind_any fun _ _ => wp_bind_any fun _ _ => wp_pure.mpr (.granted rfl id)
        exact ⟨fun _ => ⟨fun _ => wp_pure.mpr (.same id), fun _ => hset⟩, fun _ =>
          ⟨fun _ => ⟨fun _ => wp_pure.mpr (.same id), fun _ => hset⟩, fun _ => wp_pure.mpr (.same id)⟩⟩
    exact wp_bind.mpr (hcreate.mono fun _ _ h => wp_pure.mpr h)
  | start p =>
    refine checkTmr_noOp (fun t _ _ htmr => wp_locked fun y _ => ?_) False.elim
    cases hst : (x.tmr t).state with
    | running => exact wp_bind_any fun _ _ => wp_bind_any fun _ _ => hgrant rfl id
    | stopped | completed => exact wp_bind_any fun _ _ => hgrant rfl id
    | unused => exact absurd hst (hset t htmr)
  | stop p opt arg =>
    refine checkTmr_noOp (fun t ht hint htmr => wp_locked fun y _ => ?_) fun h => ⟨h.1, h.2.1.imp fun t ht => ⟨ht.1, ht.2.1⟩⟩
    have hidle (hst : (x.tmr t).state ≠ .running) : ¬ TmrCall.Spoils x (.stop p opt arg) := by
      rintro ⟨-, ⟨u, hu, -, hrun⟩, -⟩
      rw [ht] at hu
      cases hu
      exact hst hrun
    cases hst : (x.tmr t).state with
    | stopped | completed => exact hgrant rfl (hidle (by simp [hst]))
    | unused => exact absurd hst (hset t htmr)
    | running =>
      dsimp only
      rw [wp_bind]
      refine (tmrUnlink_stops t).mono fun _ z hz => ?_
      rw [wp_ite, wp_ite, wp_ite]
      refine ⟨fun ho => ?_, fun hcb => ⟨fun ho => ?_, fun harg => ⟨fun ho => ?_, fun hno => ?_⟩⟩⟩
      · refine wp_bind_any fun _ _ => wp_bind.mpr ((stopCallback_grants t _).mono fun e _ he => ?_)
        exact hgrant he fun h => h.2.2.2.1 ho
      · exact wp_bind.mpr ((stopCallback_grants t _).mono fun e _ he => hgrant he fun h => h.2.2.2.2 ho)
      · exact hgrant rfl fun h => h.2.2.1 ho
      · have hspoils : TmrCall.Spoils x (.stop p opt arg) := ⟨hint, ⟨t, ht, htmr, hst⟩, hno, hcb, harg⟩
        refine wp_unlock fun o => iff_of_false (fun h => ?_) (not_not.mpr hspoils)
        have hsame : z.tmr t = x.tmr t := (congrArg (fun w : Sys => w.tmr t) (h rfl) :)
        rw [hsame, hst] at hz
        cases hz
  | remainGet p =>
    refine checkTmr_noOp (fun t _ _ htmr => wp_locked fun y _ => ?_) False.elim
    cases hst : (x.tmr t).state with
    | running => exact wp_bind_any fun _ _ => wp_bind_any fun _ _ => hgrant rfl id
    | stopped => exact wp_bind_any fun _ _ => hgrant rfl id
    | completed => exact hgrant rfl id
    | unused => exact absurd hst (hset t htmr)
  | stateGet p => exact checkTmr_noOp (fun t _ _ _ => wp_bind_any fun _ _ => wp_pure.mpr (.granted rfl id)) False.elim

end timers

section requests

variable {c : TmrCfg} {x y : Sys}

/-- A call to one of the services that can be refused. -/
inductive Request where
  | kernel (k : Call)
  | timer (k : TmrCall)
  | statInit

/-- The error that the caller gets at once, if it does not wait. -/
def Request.exec : Request → T (Option Err)
  | kernel k => do return (← onKernel k.exec).map Ret.err
  | timer k => do return some (← k.exec).err
  | statInit => onKernel osStatTaskCPUUsageInit

def Request.Enabled (x : Sys) : Request → Prop
  | kernel k => k.listed = true ∧ UcosIII.Enabled x.os (.call k)
  | timer k => k.Fair x
  | statInit => x.os.atTask ∨ x.os.running = true ∧ 0 < x.os.intNestingCtr

def Request.Spoils (c : TmrCfg) (x : Sys) : Request → Prop
  | kernel k => k.Spoils c.cfg x.os
  | timer k => k.Spoils x
  | statInit => StatInitSuspends x.os

/-- The states that calls to the kernel and to the timers lead to. -/
def Reached (c : TmrCfg) (x : Sys) : Prop :=
  (∃ h, TmrRun c h x) ∧ ∃ h, Run c.cfg (fun _ k => ¬ PassedMatch c.cfg k.pre k.event) h x.os

theorem runs_onKernel {α : Type} {m : K α} {r : α} {o : OS} (h : Prog.Runs c.cfg m x.os r o) :
    Prog.Runs c (onKernel m) x r { x with os := o } := by
  obtain ⟨n, h⟩ := h
  exact ⟨n, Option.map_eq_some_iff.mpr ⟨(r, o), h, rfl⟩⟩

theorem Reached.of_run {h : List Step} {o : OS}
    (run : Run c.cfg (fun _ x => ¬ PassedMatch c.cfg x.pre x.event ∧ ¬ IdleStops x.pre x.event x.ret) h o) :
    Reached c (tmrInit o 0) :=
  ⟨⟨[], .init (run_schedulable run) 0⟩, h, run.mono fun _ _ hP => hP.1⟩

end requests

end UcosIII
