import UcosIII.Lists.Returns
import UcosIII.Abstract.Effects
import UcosIII.Abstract.Sched

namespace UcosIII

open Prog

variable {n : ℕ} {cfg : Cfg} {s s' : OS} {a : Abs} {t : TcbId} {d : PdId} {o : ObjId} {α β : Type}

section quiet

theorem Returns.quiet_then {m : K β} {k : β → K α} (h : Rep cfg s a) (hr : Returns n cfg m s) (hm : Keeps OS.key m)
    (hk : ∀ b s', Rep cfg s' a → Returns n cfg (k b) s') : Returns n cfg (m >>= k) s :=
  hr.bind (hm n cfg s) fun b s' e => hk b s' (h.of_key e)

theorem returns_modTcb (f : TCB → TCB) : Returns n cfg (modTcb t f) s := twp_modTcb.mpr trivial

theorem markEntry_returns (p : Option ObjId) (f : PendData → PendData) (k : ℕ) (d : PdId) :
    Returns n cfg (markEntry p f k d) s := by
  induction k generalizing d with
  | zero => exact returns_pure ()
  | succ k ih =>
    rw [Returns, markEntry, twp_bind, twp_getPendData, twp_ite]
    exact ⟨fun _ => twp_modPendData.mpr trivial, fun _ => ih _⟩

theorem Rep.tblPtr (h : Rep cfg s a) (ht : (a.task t).table ≠ []) : ∃ d, (s.tcb t).pendDataTblPtr = some d := by
  rw [h.task] at ht
  cases hd : (s.tcb t).pendDataTblPtr with
  | none => simp [TCB.view, TCB.table, hd] at ht
  | some d => exact ⟨d, rfl⟩

theorem post1_returns (h : Rep cfg s a) (ht : (a.task t).table ≠ []) (p : Option ObjId) (pVoid : Option ℕ) (msgSize ts : ℕ) :
    Returns n cfg (post1 p t pVoid msgSize ts) s := by
  obtain ⟨d, hd⟩ := h.tblPtr ht
  rw [Returns, post1, twp_bind, twp_getTcb, twp_ite]
  refine ⟨fun _ => twp_pure.mpr trivial, fun _ => ?_⟩
  rw [twp_bind, twp_deref]
  exact ⟨d, hd, markEntry_returns _ _ _ _⟩

theorem pendAbort1_returns (h : Rep cfg s a) (ht : (a.task t).table ≠ []) (p : Option ObjId) (ts : ℕ) :
    Returns n cfg (pendAbort1 p t ts) s := by
  obtain ⟨d, hd⟩ := h.tblPtr ht
  rw [Returns, pendAbort1, twp_bind, twp_getTcb, twp_ite]
  refine ⟨fun _ => twp_pure.mpr trivial, fun _ => ?_⟩
  rw [twp_bind, twp_deref]
  exact ⟨d, hd, markEntry_returns _ _ _ _⟩

end quiet

section wake

theorem tickListRemove_returns_of (h : Rep cfg s a) (hok : a.wheelOk = true) : Returns n cfg (tickListRemove t) s :=
  tickListRemove_returns (h.wheel hok)

theorem pendListRemove_returns_of (h : Rep cfg s a) (hI : a.WaitOk) (ht : (a.task t).table ≠ []) :
    Returns n cfg (pendListRemove t) s := by
  rw [h.task] at ht
  refine pendListRemove_returns h.pend ht fun d hd => ?_
  obtain ⟨o, ho, hdo⟩ := hI.linked (t := t) d (by rwa [h.task])
  exact ⟨o, by rwa [h.entry] at ho, hdo⟩

theorem taskRdy_returns (h : Rep cfg s a) (hok : a.wheelOk = true) (hp : (a.task t).prio < cfg.prioMax) :
    Returns n cfg (taskRdy t) s := by
  rw [taskRdy]
  refine (tickListRemove_returns_of h hok).bind (tickListRemove_spec h) fun _ s₁ h₁ => ?_
  rw [Returns, twp_bind, twp_getTcb, twp_ite]
  refine ⟨fun _ => rdyListInsert_returns h₁.rdy ?_, fun _ => twp_pure.mpr trivial⟩
  rw [h₁.prio]
  exact hp

theorem post_returns (h : Rep cfg s a) (hI : a.Sound cfg) (hok : a.wheelOk = true) (hp : (a.task t).prio < cfg.prioMax)
    (ht : (a.task t).table ≠ []) (pVoid : Option ℕ) (msgSize ts : ℕ) :
    Returns n cfg (post (some o) t pVoid msgSize ts) s := by
  have hset : Keeps OS.key (modTcb t fun c => { c with msgPtr := pVoid, msgSize := msgSize, ts := ts }) :=
    keeps_key_modTcb fun _ => rfl
  rw [Returns, post, twp_bind, twp_getTcb, h.state]
  cases (a.task t).state with
  | rdy | dly | suspended | dlySuspended | del => exact returns_pure ()
  | pend | pendTimeout =>
    have hend : ∀ s₁, Rep cfg s₁ a → Returns n cfg (do
        pendListRemove t
        taskRdy t
        modTcb t fun c => { c with taskState := .rdy, pendStatus := .ok, pendOn := .nothing }) s₁ := by
      intro s₁ h₁
      refine (pendListRemove_returns_of h₁ hI.wait ht).bind (pendListRemove_spec h₁ hI.wait.linked) fun _ s₂ h₂ => ?_
      refine (taskRdy_returns h₂ hok ?_).bind (Q := fun _ _ => True) (fun _ _ _ => trivial) fun _ _ _ => returns_modTcb _
      rwa [Abs.task_unpend, if_pos rfl]
    refine returns_ite (fun _ => ?_) fun _ => ?_
    · exact (post1_returns h ht _ pVoid msgSize ts).quiet_then h (keeps_post1 t pVoid msgSize ts) fun _ s₁ h₁ => hend s₁ h₁
    · exact (returns_modTcb _).quiet_then h hset fun _ s₁ h₁ => hend s₁ h₁
  | pendSuspended | pendTimeoutSuspended =>
    have hend : ∀ s₁, Rep cfg s₁ a → Returns n cfg (do
        tickListRemove t
        pendListRemove t
        modTcb t fun c => { c with taskState := .suspended, pendStatus := .ok, pendOn := .nothing }) s₁ := by
      intro s₁ h₁
      refine (tickListRemove_returns_of h₁ hok).bind (tickListRemove_spec h₁) fun _ s₂ h₂ => ?_
      refine (pendListRemove_returns_of h₂ hI.offWheel.wait ht).bind (Q := fun _ _ => True) (fun _ _ _ => trivial) ?_
      exact fun _ _ _ => returns_modTcb _
    refine returns_ite (fun _ => ?_) fun _ => ?_
    · exact (post1_returns h ht _ pVoid msgSize ts).quiet_then h (keeps_post1 t pVoid msgSize ts) fun _ s₁ h₁ => hend s₁ h₁
    · exact (returns_modTcb _).quiet_then h hset fun _ s₁ h₁ => hend s₁ h₁

theorem pendAbort_returns (h : Rep cfg s a) (hI : a.Sound cfg) (hok : a.wheelOk = true)
    (hp : (a.task t).prio < cfg.prioMax) (ht : (a.task t).table ≠ []) (ts : ℕ) :
    Returns n cfg (pendAbort (some o) t ts) s := by
  have hset : Keeps OS.key (modTcb t fun c => { c with msgPtr := none, msgSize := 0, ts := ts }) :=
    keeps_key_modTcb fun _ => rfl
  rw [Returns, pendAbort, twp_bind, twp_getTcb, h.state]
  cases (a.task t).state with
  | rdy | dly | suspended | dlySuspended | del => exact returns_pure ()
  | pend | pendTimeout =>
    have hend : ∀ s₁, Rep cfg s₁ a → Returns n cfg (do
        modTcb t fun c => { c with msgPtr := none, msgSize := 0, ts := ts }
        pendListRemove t
        taskRdy t
        modTcb t fun c => { c with taskState := .rdy, pendStatus := .abort, pendOn := .nothing }) s₁ := by
      intro s₁ h₁
      refine (returns_modTcb _).quiet_then h₁ hset fun _ s₂ h₂ => ?_
      refine (pendListRemove_returns_of h₂ hI.wait ht).bind (pendListRemove_spec h₂ hI.wait.linked) fun _ s₃ h₃ => ?_
      refine (taskRdy_returns h₃ hok ?_).bind (Q := fun _ _ => True) (fun _ _ _ => trivial) fun _ _ _ => returns_modTcb _
      rwa [Abs.task_unpend, if_pos rfl]
    refine returns_ite (fun _ => ?_) fun _ => hend s h
    exact (pendAbort1_returns h ht _ ts).quiet_then h (keeps_pendAbort1 t ts) fun _ s₁ h₁ => hend s₁ h₁
  | pendSuspended | pendTimeoutSuspended =>
    have hend : ∀ s₁, Rep cfg s₁ a → Returns n cfg (do
        modTcb t fun c => { c with msgPtr := none, msgSize := 0, ts := ts }
        pendListRemove t
        tickListRemove t
        modTcb t fun c => { c with taskState := .suspended, pendStatus := .abort, pendOn := .nothing }) s₁ := by
      intro s₁ h₁
      refine (returns_modTcb _).quiet_then h₁ hset fun _ s₂ h₂ => ?_
      refine (pendListRemove_returns_of h₂ hI.wait ht).bind (pendListRemove_spec h₂ hI.wait.linked) fun _ s₃ h₃ => ?_
      exact (tickListRemove_returns_of h₃ hok).bind (Q := fun _ _ => True) (fun _ _ _ => trivial) fun _ _ _ => returns_modTcb _
    refine returns_ite (fun _ => ?_) fun _ => hend s h
    exact (pendAbort1_returns h ht _ ts).quiet_then h (keeps_pendAbort1 t ts) fun _ s₁ h₁ => hend s₁ h₁

end wake

end UcosIII
