import UcosIII.Lib.Wheel
import UcosIII.Runs.Waiting

namespace UcosIII

open Prog

variable {n : ℕ} {cfg : Cfg} {s s' : OS} {V : ℕ → List TcbId} {t : TcbId} {i : ℕ}

section frame

def OS.tickOthers (t : TcbId) (s : OS) : Tick × (TcbId → Option (TaskState × Tick)) :=
  (s.tickCtr, fun x => if x = t then none else some ((s.tcb x).taskState, s.tickDue x))

theorem OS.tickOthers_modTcb {x : TcbId} {f : TCB → TCB}
    (hf : x ≠ t → (f (s.tcb x)).taskState = (s.tcb x).taskState ∧ (f (s.tcb x)).tickCtrMatch = (s.tcb x).tickCtrMatch) :
    (s.modTcb x f).tickOthers t = s.tickOthers t := by
  simp only [tickOthers, Prod.mk.injEq]
  refine ⟨rfl, funext fun y => ?_⟩
  by_cases hy : y = t
  · rw [if_pos hy, if_pos hy]
  · rw [if_neg hy, if_neg hy, tickDue_modTcb, modTcb_tcb]
    by_cases hyx : y = x
    · subst hyx
      rw [if_pos rfl, if_pos rfl, (hf hy).1, (hf hy).2]
      rfl
    · rw [if_neg hyx, if_neg hyx]

theorem keeps_others_tickListRemove : Keeps (OS.tickOthers t) (tickListRemove t) := by
  have hself (s : OS) (f : TCB → TCB) : (s.modTcb t f).tickOthers t = s.tickOthers t :=
    OS.tickOthers_modTcb fun h => absurd rfl h
  have hnext (s : OS) (x : TcbId) (p : Option TcbId) :
      (s.modTcb x fun c => { c with tickNextPtr := p }).tickOthers t = s.tickOthers t :=
    OS.tickOthers_modTcb fun _ => ⟨rfl, rfl⟩
  have hprev (s : OS) (x : TcbId) (p : Option TcbId) :
      (s.modTcb x fun c => { c with tickPrevPtr := p }).tickOthers t = s.tickOthers t :=
    OS.tickOthers_modTcb fun _ => ⟨rfl, rfl⟩
  have hspoke (s : OS) (i : ℕ) (f : TickSpoke → TickSpoke) : (s.modSpoke i f).tickOthers t = s.tickOthers t := rfl
  intro n cfg s
  simp only [tickListRemove, wp_bind, wp_getTcb]
  split
  · rw [wp_pure]
  · simp only [wp_bind, wp_modTcb, wp_getTcb, wp_getSpoke, wp_ite, wp_modSpoke, wp_deref]
    refine ⟨fun _ => ?_, fun _ t1 _ => ?_⟩ <;> split <;>
      simp only [wp_bind, wp_modTcb, wp_decSpoke, hself, hnext, hprev, hspoke]

theorem tickOthers_of_noPend (h : s'.noPend = s.noPend) : s'.tickOthers t = s.tickOthers t := (congrArg (OS.tickOthers t) h :)

theorem keeps_others_pendListRemove : Keeps (OS.tickOthers t) (pendListRemove t) := by
  intro n cfg s
  refine pendListRemove_frame.mono fun _ s' hs => ?_
  exact (tickOthers_of_noPend hs).trans (OS.tickOthers_modTcb fun _ => ⟨rfl, rfl⟩)

theorem keeps_others_rdyListInsert : Keeps (OS.tickOthers t) (rdyListInsert t) := by
  intro n cfg s
  refine (keeps_rdyListInsert t n cfg s).mono fun _ s' hs => ?_
  exact (congrArg (OS.tickOthers t) hs :)

theorem keeps_others_taskRdy : Keeps (OS.tickOthers t) (taskRdy t) := by
  rw [taskRdy]
  refine keeps_bind keeps_others_tickListRemove fun _ => keeps_bind (keeps_getTcb t) fun _ => ?_
  exact keeps_ite keeps_others_rdyListInsert (keeps_pure ())

theorem SameWheel.of_noPend (h : s'.noPend = s.noPend) : SameWheel s s' := by
  refine ⟨fun x => ?_, fun x => ?_, fun x => ?_, fun x => ?_, fun i => ?_⟩
  · exact (congrArg (fun y : OS => y.tickNext x) h :)
  · exact (congrArg (fun y : OS => y.tickPrev x) h :)
  · exact (congrArg (fun y : OS => y.tickSpoke x) h :)
  · exact (congrArg (fun y : OS => y.tickDue x) h :)
  · exact (congrArg (fun y : OS => y.tickWheel i) h :)

theorem SameWheel.of_noRdy (h : s'.noRdy = s.noRdy) : SameWheel s s' := by
  refine ⟨fun x => ?_, fun x => ?_, fun x => ?_, fun x => ?_, fun i => ?_⟩
  · exact (congrArg (fun y : OS => y.tickNext x) h :)
  · exact (congrArg (fun y : OS => y.tickPrev x) h :)
  · exact (congrArg (fun y : OS => y.tickSpoke x) h :)
  · exact (congrArg (fun y : OS => y.tickDue x) h :)
  · exact (congrArg (fun y : OS => y.tickWheel i) h :)

theorem pendListRemove_sameWheel : wp n cfg (pendListRemove t) (fun _ s' => SameWheel s s') s := by
  refine pendListRemove_frame.mono fun _ s' hs => ?_
  exact (SameWheel.modTcb rfl rfl rfl rfl).trans (.of_noPend hs)

theorem taskRdy_lists (h : WheelLists cfg s V) :
    wp n cfg (taskRdy t) (fun _ s' => WheelLists cfg s' fun i => (V i).erase t) s := by
  rw [taskRdy, wp_bind]
  refine (tickListRemove_lists h).mono fun _ s₁ h₁ => ?_
  rw [wp_bind, wp_getTcb, wp_ite]
  refine ⟨fun _ => ?_, fun _ => wp_pure.mpr h₁⟩
  exact (keeps_rdyListInsert t n cfg s₁).mono fun _ s₂ hs => h₁.congr (.of_noRdy hs)

end frame

section expire

theorem tickListExpire_early (hst : (s.tcb t).taskState.isTimed = true) (hdue : s.tickDue t ≠ s.tickCtr) :
    wp n cfg (tickListExpire t) (fun x s' => x = true ∧ SameWheel s s' ∧ s'.tickCtr = s.tickCtr ∧
      ∀ x, (s'.tcb x).taskState = (s.tcb x).taskState) s := by
  have hne : ¬ s.tickCtr = (s.tcb t).tickCtrMatch := fun h => hdue h.symm
  have hmod : SameWheel s (s.modTcb t fun c => { c with tickRemain := c.tickCtrMatch - s.tickCtr }) :=
    .modTcb rfl rfl rfl rfl
  have hstate : ∀ x, ((s.modTcb t fun c => { c with tickRemain := c.tickCtrMatch - s.tickCtr }).tcb x).taskState =
      (s.tcb x).taskState := by
    intro x
    rw [OS.modTcb_tcb]
    split
    · rename_i hx
      rw [hx]
    · rfl
  rw [tickListExpire, wp_bind, wp_get, wp_bind, wp_getTcb]
  cases hs : (s.tcb t).taskState with
  | dly | pendTimeout | dlySuspended | pendTimeoutSuspended =>
    dsimp only
    rw [wp_bind, wp_modTcb, if_neg hne, wp_pure]
    exact ⟨rfl, hmod, rfl, hstate⟩
  | rdy | pend | suspended | pendSuspended | del => simp [hs, TaskState.isTimed] at hst

theorem tickListExpire_due (h : WheelLists cfg s V) (hst : (s.tcb t).taskState.isTimed = true)
    (hdue : s.tickDue t = s.tickCtr) :
    wp n cfg (tickListExpire t) (fun x s' => x = false ∧ WheelLists cfg s' (fun i => (V i).erase t) ∧
      s'.tickOthers t = s.tickOthers t) s := by
  have heq : s.tickCtr = (s.tcb t).tickCtrMatch := hdue.symm
  have hself (s : OS) (f : TCB → TCB) : (s.modTcb t f).tickOthers t = s.tickOthers t :=
    OS.tickOthers_modTcb fun h => absurd rfl h
  have hmod {s : OS} {V : ℕ → List TcbId} {f : TCB → TCB} (h : WheelLists cfg s V)
      (hf : (f (s.tcb t)).tickNextPtr = (s.tcb t).tickNextPtr ∧ (f (s.tcb t)).tickPrevPtr = (s.tcb t).tickPrevPtr ∧
        (f (s.tcb t)).tickSpokePtr = (s.tcb t).tickSpokePtr ∧ (f (s.tcb t)).tickCtrMatch = (s.tcb t).tickCtrMatch) :
      WheelLists cfg (s.modTcb t f) V := h.congr (.modTcb hf.1 hf.2.1 hf.2.2.1 hf.2.2.2)
  rw [tickListExpire, wp_bind, wp_get, wp_bind, wp_getTcb]
  cases hs : (s.tcb t).taskState with
  | dly =>
    dsimp only
    rw [wp_bind, wp_modTcb, if_pos heq, wp_bind, wp_modTcb, wp_bind]
    refine ((taskRdy_lists (hmod (hmod h ⟨rfl, rfl, rfl, rfl⟩) ⟨rfl, rfl, rfl, rfl⟩)).and (keeps_others_taskRdy n cfg _)).mono ?_
    rintro _ s' ⟨h', ho⟩
    refine wp_pure.mpr ⟨rfl, h', ?_⟩
    rw [ho, hself, hself]
  | dlySuspended =>
    dsimp only
    rw [wp_bind, wp_modTcb, if_pos heq, wp_bind, wp_modTcb, wp_bind]
    refine ((tickListRemove_lists (hmod (hmod h ⟨rfl, rfl, rfl, rfl⟩) ⟨rfl, rfl, rfl, rfl⟩)).and
      (keeps_others_tickListRemove n cfg _)).mono ?_
    rintro _ s' ⟨h', ho⟩
    refine wp_pure.mpr ⟨rfl, h', ?_⟩
    rw [ho, hself, hself]
  | pendTimeout =>
    dsimp only
    rw [wp_bind, wp_modTcb, if_pos heq, wp_bind, wp_tsGet, wp_bind, wp_modTcb, wp_bind]
    refine (pendListRemove_sameWheel.and (keeps_others_pendListRemove n cfg _)).mono ?_
    rintro _ s₁ ⟨hw₁, ho₁⟩
    have h₁ := (hmod (hmod h ⟨rfl, rfl, rfl, rfl⟩) ⟨rfl, rfl, rfl, rfl⟩).congr hw₁
    rw [wp_bind]
    refine ((taskRdy_lists h₁).and (keeps_others_taskRdy n cfg _)).mono ?_
    rintro _ s₂ ⟨h₂, ho₂⟩
    rw [wp_bind, wp_modTcb]
    refine wp_pure.mpr ⟨rfl, hmod h₂ ⟨rfl, rfl, rfl, rfl⟩, ?_⟩
    rw [hself, ho₂, ho₁, hself, hself]
  | pendTimeoutSuspended =>
    dsimp only
    rw [wp_bind, wp_modTcb, if_pos heq, wp_bind, wp_tsGet, wp_bind, wp_modTcb, wp_bind]
    refine (pendListRemove_sameWheel.and (keeps_others_pendListRemove n cfg _)).mono ?_
    rintro _ s₁ ⟨hw₁, ho₁⟩
    have h₁ := (hmod (hmod h ⟨rfl, rfl, rfl, rfl⟩) ⟨rfl, rfl, rfl, rfl⟩).congr hw₁
    rw [wp_bind]
    refine ((tickListRemove_lists h₁).and (keeps_others_tickListRemove n cfg _)).mono ?_
    rintro _ s₂ ⟨h₂, ho₂⟩
    rw [wp_bind, wp_modTcb]
    refine wp_pure.mpr ⟨rfl, hmod h₂ ⟨rfl, rfl, rfl, rfl⟩, ?_⟩
    rw [hself, ho₂, ho₁, hself, hself]
  | rdy | pend | suspended | pendSuspended | del => simp [hs, TaskState.isTimed] at hst

theorem keeps_state_tickListRemove {x : TcbId} : Keeps (fun s : OS => (s.tcb x).taskState) (tickListRemove t) := by
  intro n cfg s
  refine (keeps_tickListRemove t n cfg s).mono fun _ s' hs => ?_
  exact (congrArg (fun y : OS => (y.tcb x).taskState) hs :)

theorem keeps_state_taskRdy {x : TcbId} : Keeps (fun s : OS => (s.tcb x).taskState) (taskRdy t) := by
  rw [taskRdy]
  refine keeps_bind keeps_state_tickListRemove fun _ => keeps_bind (keeps_getTcb t) fun _ => ?_
  refine keeps_ite (fun n cfg s => ?_) (keeps_pure ())
  refine (keeps_rdyListInsert t n cfg s).mono fun _ s' hs => ?_
  exact (congrArg (fun y : OS => (y.tcb x).taskState) hs :)

theorem tickListExpire_expired (hst : (s.tcb t).taskState.isTimed = true) (hdue : s.tickDue t = s.tickCtr) :
    wp n cfg (tickListExpire t) (fun _ s' => (s'.tcb t).taskState = (s.tcb t).taskState.expired) s := by
  have heq : s.tickCtr = (s.tcb t).tickCtrMatch := hdue.symm
  have hself (s : OS) (f : TCB → TCB) : ((s.modTcb t f).tcb t).taskState = (f (s.tcb t)).taskState := by
    rw [OS.modTcb_tcb, if_pos rfl]
  rw [tickListExpire, wp_bind, wp_get, wp_bind, wp_getTcb]
  cases hs : (s.tcb t).taskState with
  | dly =>
    dsimp only
    rw [wp_bind, wp_modTcb, if_pos heq, wp_bind, wp_modTcb, wp_bind]
    refine (keeps_state_taskRdy (x := t) n cfg _).mono fun _ s' h' => ?_
    rw [wp_pure]
    exact h'.trans (hself _ _)
  | dlySuspended =>
    dsimp only
    rw [wp_bind, wp_modTcb, if_pos heq, wp_bind, wp_modTcb, wp_bind]
    refine (keeps_state_tickListRemove (x := t) n cfg _).mono fun _ s' h' => ?_
    rw [wp_pure]
    exact h'.trans (hself _ _)
  | pendTimeout =>
    dsimp only
    rw [wp_bind, wp_modTcb, if_pos heq, wp_bind, wp_tsGet, wp_bind, wp_modTcb, wp_bind]
    intro _ s₁ _
    rw [wp_bind]
    intro _ s₂ _
    rw [wp_bind, wp_modTcb, wp_pure, hself]
    rfl
  | pendTimeoutSuspended =>
    dsimp only
    rw [wp_bind, wp_modTcb, if_pos heq, wp_bind, wp_tsGet, wp_bind, wp_modTcb, wp_bind]
    intro _ s₁ _
    rw [wp_bind]
    intro _ s₂ _
    rw [wp_bind, wp_modTcb, wp_pure, hself]
    rfl
  | rdy | pend | suspended | pendSuspended | del => simp [hs, TaskState.isTimed] at hst

end expire

section update

/-- The walk of an update has taken the tasks `xs` off the spoke `i` and stands before `ys`. -/
structure Walked (cfg : Cfg) (s : OS) (V : ℕ → List TcbId) (i : ℕ) (xs ys : List TcbId) (s₁ : OS) : Prop where
  split : V i = xs ++ ys
  due : ∀ x ∈ xs, s.tickDue x = s.tickCtr + 1
  ctr : s₁.tickCtr = s.tickCtr + 1
  lists : WheelLists cfg s₁ (Function.update V i ys)
  same : ∀ j, ∀ x ∈ Function.update V i ys j, (s₁.tcb x).taskState = (s.tcb x).taskState ∧ s₁.tickDue x = s.tickDue x
  expired : ∀ x ∈ xs, (s₁.tcb x).taskState = (s.tcb x).taskState.expired

theorem Walked.step {xs ys : List TcbId} {s₁ : OS} (h : Walked cfg s V i xs (t :: ys) s₁) (hV : WheelLists cfg s V)
    (hst : (s.tcb t).taskState.isTimed = true) :
    wp n cfg (tickListExpire t) (fun x s₂ => if x = true then s.tickDue t ≠ s.tickCtr + 1 ∧ Walked cfg s V i xs (t :: ys) s₂
      else Walked cfg s V i (xs ++ [t]) ys s₂) s₁ := by
  have hti : t ∈ V i := by simp [h.split]
  have hself := h.same i t (by simp)
  have hst₁ : (s₁.tcb t).taskState.isTimed = true := by rwa [hself.1]
  by_cases hdue : s.tickDue t = s.tickCtr + 1
  · have hdue₁ : s₁.tickDue t = s₁.tickCtr := by rw [hself.2, hdue, h.ctr]
    refine ((tickListExpire_due h.lists hst₁ hdue₁).and (tickListExpire_expired hst₁ hdue₁)).mono ?_
    rintro _ s₂ ⟨⟨rfl, h₂, ho⟩, hexp⟩
    have hother : ∀ x ≠ t, (s₂.tcb x).taskState = (s₁.tcb x).taskState ∧ s₂.tickDue x = s₁.tickDue x := by
      intro x hxt
      have hx₂ := congrFun (congrArg Prod.snd ho) x
      simpa only [OS.tickOthers, if_neg hxt, Option.some.injEq, Prod.mk.injEq] using hx₂
    have hV₂ : (fun j => (Function.update V i (t :: ys) j).erase t) = Function.update V i ys := by
      funext j
      by_cases hj : j = i
      · subst hj
        simp
      · rw [Function.update_of_ne hj, Function.update_of_ne hj]
        apply List.erase_of_not_mem
        intro htj
        exact hj (hV.disjoint htj hti)
    rw [hV₂] at h₂
    have hctr : s₂.tickCtr = s₁.tickCtr := congrArg Prod.fst ho
    rw [if_neg (by simp)]
    refine ⟨?_, ?_, hctr.trans h.ctr, h₂, fun j x hx => ?_, fun x hx => ?_⟩
    · rw [h.split, List.append_assoc]
      rfl
    · intro x hx
      rcases List.mem_append.mp hx with hx | hx
      · exact h.due x hx
      · rwa [List.mem_singleton.mp hx]
    · have hx' : x ∈ Function.update V i (t :: ys) j := by
        rw [← hV₂] at hx
        exact List.mem_of_mem_erase hx
      have hxt : x ≠ t := by
        rintro rfl
        rw [← hV₂] at hx
        exact ((h.lists.nodup j).mem_erase_iff.mp hx).1 rfl
      rw [(hother x hxt).1, (hother x hxt).2]
      exact h.same j x hx'
    · rcases List.mem_append.mp hx with hx | hx
      · have hnd : (xs ++ t :: ys).Nodup := h.split ▸ hV.nodup i
        have hxt : x ≠ t := fun hxt => List.disjoint_of_nodup_append hnd (hxt ▸ hx) List.mem_cons_self
        rw [(hother x hxt).1]
        exact h.expired x hx
      · rw [List.mem_singleton.mp hx, hexp, hself.1]
  · have hdue₁ : s₁.tickDue t ≠ s₁.tickCtr := by rwa [hself.2, h.ctr]
    refine (tickListExpire_early hst₁ hdue₁).mono ?_
    rintro _ s₂ ⟨rfl, hw, hc, hstate⟩
    rw [if_pos rfl]
    refine ⟨hdue, h.split, h.due, hc.trans h.ctr, h.lists.congr hw, fun j x hx => ?_, fun x hx => ?_⟩
    · rw [hstate x, hw.due x]
      exact h.same j x hx
    · rw [hstate x]
      exact h.expired x hx

theorem tickListUpdate_spec (h : WheelLists cfg s V) (hs : Wheel.Sorted cfg.tickWheelSize s.tickCtr s.tickDue V)
    (ha : Wheel.Ahead s.tickCtr s.tickDue V) (hst : ∀ i, ∀ t ∈ V i, (s.tcb t).taskState.isTimed = true) :
    wp n cfg tickListUpdate (fun _ s' => s'.tickCtr = s.tickCtr + 1 ∧ ∃ V', WheelLists cfg s' V' ∧
      Wheel.Sorted cfg.tickWheelSize s'.tickCtr s'.tickDue V' ∧ Wheel.Ahead s'.tickCtr s'.tickDue V' ∧
      (∀ i x, x ∈ V' i ↔ x ∈ V i ∧ s.tickDue x ≠ s.tickCtr + 1) ∧ (∀ i, ∀ x ∈ V' i, s'.tickDue x = s.tickDue x) ∧
      ∀ i, ∀ x ∈ V i, s.tickDue x = s.tickCtr + 1 → (s'.tcb x).taskState = (s.tcb x).taskState.expired) s := by
  let i := (s.tickCtr + 1).toNat % cfg.tickWheelSize
  have hi : i < cfg.tickWheelSize := Nat.mod_lt _ cfg.tickWheelSize_pos
  have hend : ∀ xs ys s', Walked cfg s V i xs ys s' → (∀ x, ys.head? = some x → s.tickDue x ≠ s.tickCtr + 1) →
      s'.tickCtr = s.tickCtr + 1 ∧ ∃ V', WheelLists cfg s' V' ∧
      Wheel.Sorted cfg.tickWheelSize s'.tickCtr s'.tickDue V' ∧ Wheel.Ahead s'.tickCtr s'.tickDue V' ∧
      (∀ i x, x ∈ V' i ↔ x ∈ V i ∧ s.tickDue x ≠ s.tickCtr + 1) ∧ (∀ i, ∀ x ∈ V' i, s'.tickDue x = s.tickDue x) ∧
      ∀ i, ∀ x ∈ V i, s.tickDue x = s.tickCtr + 1 → (s'.tcb x).taskState = (s.tcb x).taskState.expired := by
    intro xs ys s' hw hhead
    have hsub : ∀ j, (Function.update V i ys j).Sublist (V j) := by
      intro j
      by_cases hj : j = i
      · subst hj
        rw [Function.update_self, hw.split]
        exact List.sublist_append_right xs ys
      · rw [Function.update_of_ne hj]
    have hdue : ∀ j, ∀ x ∈ Function.update V i ys j, s'.tickDue x = s.tickDue x := fun j x hx => (hw.same j x hx).2
    have hsorted : Wheel.Sorted cfg.tickWheelSize s'.tickCtr s'.tickDue (Function.update V i ys) := by
      rw [hw.ctr]
      exact (hs.tick ha).sub hsub hdue
    have hahead : Wheel.Ahead s'.tickCtr s'.tickDue (Function.update V i ys) := by
      apply hsorted.ahead
      rw [hw.ctr, Function.update_self]
      intro x hx
      rw [hdue i x (by rw [Function.update_self]; exact List.mem_of_mem_head? hx)]
      exact hhead x hx
    have hleft : ∀ j, ∀ x ∈ Function.update V i ys j, s.tickDue x ≠ s.tickCtr + 1 := by
      intro j x hx
      rw [← hdue j x hx, ← hw.ctr]
      exact hahead j x hx
    refine ⟨hw.ctr, _, hw.lists, hsorted, hahead, fun j x => ?_, hdue, fun j x hx hxd => ?_⟩
    · constructor
      · intro hx
        exact ⟨(hsub j).mem hx, hleft j x hx⟩
      · rintro ⟨hx, hne⟩
        by_cases hj : j = i
        · subst hj
          rw [hw.split, List.mem_append] at hx
          rw [Function.update_self]
          exact hx.resolve_left fun hx => hne (hw.due x hx)
        · rwa [Function.update_of_ne hj]
    · have hj : j = i := by
        have := hs.hash j x hx
        rw [hxd] at this
        exact this.symm
      subst hj
      rw [hw.split, List.mem_append] at hx
      apply hw.expired x
      refine hx.resolve_right fun hx => hleft i x ?_ hxd
      rwa [Function.update_self]
  rw [tickListUpdate, wp_bind, wp_modify, wp_bind, wp_get, wp_bind, wp_ask, wp_bind, wp_getSpoke]
  refine wp_loop (fun p s₁ => ∃ xs ys, p = ys.head? ∧ Walked cfg s V i xs ys s₁) ?_ ?_
  · rintro p s₁ ⟨xs, ys, rfl, hw⟩
    cases ys with
    | nil => exact wp_pure.mpr (hend xs [] s₁ hw (by simp))
    | cons t ys =>
      have hnext : s₁.tickNext t = ys.head? := by
        obtain ⟨tail, hl⟩ := hw.lists.list i hi
        rw [Function.update_self] at hl
        exact (hl.dlist.links [] t ys rfl).1
      rw [List.head?_cons, tickListUpdateStep, wp_bind, wp_getTcb, wp_bind]
      refine (hw.step h (hst i t (by simp [hw.split]))).mono ?_
      intro x s₂ h₂
      cases x with
      | true =>
        obtain ⟨hne, h₂⟩ := h₂
        refine wp_pure.mpr (hend xs (t :: ys) s₂ h₂ ?_)
        rintro _ ⟨⟩
        exact hne
      | false => exact wp_pure.mpr ⟨xs ++ [t], ys, hnext, h₂⟩
  · obtain ⟨tail, hl⟩ := h.list i hi
    refine ⟨[], V i, hl.head_eq, rfl, by simp, rfl, ?_, fun j x _ => ⟨rfl, rfl⟩, by simp⟩
    rw [Function.update_eq_self]
    exact h.congr ⟨fun _ => rfl, fun _ => rfl, fun _ => rfl, fun _ => rfl, fun _ => rfl⟩

end update

section insert

def tickDistance (c : TCB) (now time : Tick) (opt : Opt) : ℕ :=
  if opt = optTimeMatch then (time - now).toNat
  else if opt = optTimePeriodic ∧ c.tickCtrPrev + time - now - 1 < time then (c.tickCtrPrev + time - now).toNat
  else time.toNat

theorem tickMatch_distance {c c' : TCB} {now time : Tick} {opt : Opt} (h : tickMatch c now time opt = some c') :
    c'.tickRemain = c'.tickCtrMatch - now ∧ c'.tickRemain ≠ 0 ∧ c'.tickRemain.toNat = tickDistance c now time opt := by
  unfold tickMatch at h
  unfold tickDistance
  split at h
  · rename_i hopt
    rw [if_pos hopt]
    dsimp only at h
    split at h
    · cases h
    · rename_i hth
      cases h
      have hsub : time - now - 1 + 1 = time - now := by bv_omega
      dsimp only
      rw [hsub]
      refine ⟨rfl, fun h0 => hth ?_, rfl⟩
      rw [h0]
      decide
  · rename_i hopt
    rw [if_neg hopt]
    split at h
    · rename_i hpos
      have hne : time ≠ 0 := by
        rintro rfl
        simp at hpos
      have hrel : now + time - now = time := by bv_omega
      split at h
      · rename_i hper
        cases h
        dsimp only
        by_cases hnext : c.tickCtrPrev + time - now - 1 < time
        · rw [if_pos hnext, if_pos ⟨hper, hnext⟩]
          refine ⟨rfl, fun h0 => ?_, rfl⟩
          rw [h0] at hnext
          bv_omega
        · rw [if_neg hnext, if_neg fun h => hnext h.2, hrel]
          exact ⟨rfl, hne, rfl⟩
      · rename_i hper
        cases h
        dsimp only
        rw [if_neg fun h => hper h.1, hrel]
        exact ⟨rfl, hne, rfl⟩
    · cases h

structure TickAdded (cfg : Cfg) (s s' : OS) (V V' : ℕ → List TcbId) (t : TcbId) (d : ℕ) : Prop where
  lists : WheelLists cfg s' V'
  sorted : Wheel.Sorted cfg.tickWheelSize s'.tickCtr s'.tickDue V'
  ahead : Wheel.Ahead s'.tickCtr s'.tickDue V'
  mem : ∀ x, (∃ i, x ∈ V' i) ↔ x = t ∨ ∃ i, x ∈ V i
  ctr : s'.tickCtr = s.tickCtr
  others : ∀ x ≠ t, s'.tickDue x = s.tickDue x
  left : (s'.tickDue t - s'.tickCtr).toNat = d

theorem tickListInsert_added (h : WheelLists cfg s V) (hs : Wheel.Sorted cfg.tickWheelSize s.tickCtr s.tickDue V)
    (ha : Wheel.Ahead s.tickCtr s.tickDue V) (ht : ∀ i, t ∉ V i) (time : Tick) (opt : Opt) :
    wp n cfg (tickListInsert t time opt) (fun e s' =>
      if e = .none then ∃ V', TickAdded cfg s s' V V' t (tickDistance (s.tcb t) s.tickCtr time opt)
      else WheelLists cfg s' V ∧ s'.tickCtr = s.tickCtr ∧ ∀ x ≠ t, s'.tickDue x = s.tickDue x) s := by
  rw [tickListInsert, wp_bind, wp_getTcb, wp_bind, wp_get]
  cases hm : tickMatch (s.tcb t) s.tickCtr time opt with
  | none =>
    dsimp only
    rw [wp_bind, wp_modTcb, wp_pure, if_neg (by simp)]
    refine ⟨h.modTcb_off ht rfl, rfl, fun x hx => ?_⟩
    rw [OS.tickDue_modTcb, if_neg hx]
  | some c =>
    dsimp only
    rw [wp_bind, wp_modTcb, wp_bind]
    obtain ⟨hrem, hne, hdist⟩ := tickMatch_distance hm
    have h₁ : WheelLists cfg (s.modTcb t fun _ => c) V := h.modTcb_off ht ((tickMatch_links hm).trans (h.off t ht))
    have hdue₁ : ∀ x ≠ t, (s.modTcb t fun _ => c).tickDue x = s.tickDue x := by
      intro x hx
      rw [OS.tickDue_modTcb, if_neg hx]
    have hself₁ : (s.modTcb t fun _ => c).tickDue t = c.tickCtrMatch := by rw [OS.tickDue_modTcb, if_pos rfl]
    have hremain : ((s.modTcb t fun _ => c).tcb t).tickRemain = (s.modTcb t fun _ => c).tickDue t - s.tickCtr := by
      rw [hself₁, OS.modTcb_tcb, if_pos rfl, hrem]
    have hout : ∀ i, ∀ x ∈ V i, x ≠ t := by
      rintro i x hx rfl
      exact ht i hx
    refine (tickListLink_lists h₁ ht).mono ?_
    rintro _ s' ⟨xs, ys, hsplit, hlists, hdue, hctr, hbefore, hafter⟩
    rw [wp_pure, if_pos rfl]
    generalize hi : ((s.modTcb t fun _ => c).tickDue t).toNat % cfg.tickWheelSize = i at hsplit hlists
    have hmem : ∀ j x, x ∈ Function.update V i (xs ++ t :: ys) j ↔ x ∈ V j ∨ x = t ∧ j = i := by
      intro j x
      by_cases hj : j = i
      · subst hj
        rw [Function.update_self, hsplit]
        simp only [List.mem_append, List.mem_cons]
        tauto
      · rw [Function.update_of_ne hj]
        simp [hj]
    have hsorted : Wheel.Sorted cfg.tickWheelSize s'.tickCtr s'.tickDue (Function.update V i (xs ++ t :: ys)) := by
      have hsV : Wheel.Sorted cfg.tickWheelSize s.tickCtr s'.tickDue V := by
        apply hs.congr
        intro i x hx
        rw [hdue, hdue₁ x (hout i x hx)]
      rw [hctr]
      refine hsV.insert hsplit (by rw [hdue, hi]) (fun y hy => ?_) fun y hy => ?_
      · have := hbefore y hy
        rw [hremain] at this
        rw [hdue, hdue]
        exact BitVec.le_of_lt this
      · have := hafter y hy
        rw [hremain] at this
        rw [hdue, hdue]
        exact this
    have hleft : s'.tickDue t - s'.tickCtr = c.tickRemain := by
      rw [hctr, hdue, hself₁, hrem]
      rfl
    refine ⟨_, hlists, hsorted, ?_, fun x => ?_, hctr, fun x hx => ?_, ?_⟩
    · intro j x hx
      by_cases hxt : x = t
      · rw [hxt]
        intro h0
        rw [h0, BitVec.sub_self] at hleft
        exact hne hleft.symm
      · rw [hdue, hdue₁ x hxt, hctr]
        exact ha j x (((hmem j x).mp hx).resolve_right fun h => hxt h.1)
    · simp only [hmem, exists_or, exists_and_left, exists_eq, and_true]
      exact or_comm
    · rw [hdue, hdue₁ x hx]
    · rw [hleft, hdist]

end insert

end UcosIII
