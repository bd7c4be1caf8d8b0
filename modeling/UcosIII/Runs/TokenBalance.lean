import UcosIII.Runs.TokenGains

namespace UcosIII

open Prog

variable {n : ℕ} {cfg : Cfg} {s s' : OS} {a b a' : Abs} {t : TcbId} {o : ObjId} {d : PdId} {e : Event} {r : Option Ret}
  {h : List Step}

def Event.resets (r : Option Ret) (o : ObjId) : Event → Prop
  | .call (.semCreate p _) | .call (.semSet p _) => p = some o ∧ granted r = true
  | _ => False

section balance

theorem Ready.nbr_eq_zero (H : Ready cfg s a) : (s.obj o).pendList.nbrEntries = 0 ↔ s.pendTasks o = [] := by
  rw [H.rep.pendTasks_eq H.sound, List.map_eq_nil_iff]
  exact (H.rep.pend.list o).nbr_eq_zero

theorem Ready.sum_gained (H : Ready cfg s a) (hU : s.Unreported) (ho : (s.obj o).type = .sem) (he : Enabled s e)
    (hx : Runs cfg e.exec s r s') (hF : Filed s e r s') (hone : e.postsAll = false) :
    ∑ t ∈ (s.pendTasks o).toFinset, s.gained s' o t = if e.posts r o = 1 ∧ s.pendTasks o ≠ [] then 1 else 0 := by
  rw [Finset.sum_congr rfl fun t ht => H.gained_eq hU ho (List.mem_toFinset.mp ht) he hx hF hone]
  by_cases hp : e.posts r o = 1
  · cases hl : s.pendTasks o with
    | nil => simp
    | cons c l =>
      simp only [hp, true_and, List.head?_cons, Option.some.injEq, Finset.sum_ite_eq]
      simp
  · simp [hp]

theorem osPendMulti_task (tbl : Option ℕ) (objs : List (Option ObjId)) (timeout : Tick) (opt : Opt) :
    wp n cfg (osPendMulti tbl objs timeout opt) (fun r _ => granted r = true → s.intNestingCtr = 0) s := by
  rw [osPendMulti, wp_bind, wp_get, wp_ite]
  refine ⟨fun _ => wp_pure.mpr (by simp [granted]), fun h0 => ?_⟩
  intro _ _ _ _
  omega

theorem Ready.balance (H : Ready cfg s a) (hU : s.Unreported) (ho : (s.obj o).type = .sem) (he : Enabled s e)
    (hx : Runs cfg e.exec s r s') (hF : Filed s e r s') (hone : e.postsAll = false) (hr : ¬ e.resets r o) :
    (s.obj o).ctr + e.posts r o = (s'.obj o).ctr + e.takes s r s' o := by
  have hD : e.Deals s r s' := hx.wp fun n => Event.exec_deals e
  rw [Event.takes, H.sum_gained hU ho he hx hF hone]
  have hquiet (hs : (s'.stock o).ctr = (s.stock o).ctr) (hp : e.posts r o = 0) (ht : e.takesNow s r s' o = 0) :
      (s.obj o).ctr + e.posts r o = (s'.obj o).ctr + (e.takesNow s r s' o +
        if e.posts r o = 1 ∧ s.pendTasks o ≠ [] then 1 else 0) := by
    have hs' : (s'.obj o).ctr = (s.obj o).ctr := hs
    rw [hp, ht, hs', if_neg (by simp)]
  have hkeep (hs : s'.stock = s.stock) : (s'.stock o).ctr = (s.stock o).ctr := by rw [hs]
  have hother {o' : ObjId} {x : Stock} (hs : s'.stock = Function.update s.stock o' x) (hx : o = o' → x.ctr = (s.stock o').ctr) :
      (s'.stock o).ctr = (s.stock o).ctr := by
    rw [hs, Function.update_apply]
    split
    · rename_i h
      rw [h]
      exact hx h
    · rfl
  cases e with
  | start | intEnter | intExit | clock | timeTick | tickUpdate => exact hquiet (hkeep hD) rfl rfl
  | finish =>
    rcases hD with hD | ⟨t, o', m, -, -, hD⟩
    · exact hquiet (hkeep hD) rfl rfl
    · exact hquiet (hother hD fun _ => rfl) rfl rfl
  | call c =>
    cases c with
    | semCreate p cnt =>
      cases p with
      | none => exact hquiet (hkeep hD) rfl rfl
      | some o' =>
        rw [Event.Deals] at hD
        split at hD
        · rename_i hg
          refine hquiet (hother hD fun h => absurd ⟨?_, hg⟩ hr) rfl rfl
          rw [h]
        · exact hquiet (hkeep hD) rfl rfl
    | qCreate p maxQty | mutexCreate p | flagCreate p flags =>
      cases p with
      | none => exact hquiet (hkeep hD) rfl rfl
      | some o' =>
        rw [Event.Deals] at hD
        split at hD
        · exact hquiet (hother hD fun _ => rfl) rfl rfl
        · exact hquiet (hkeep hD) rfl rfl
    | semPend p timeout opt =>
      cases p with
      | none => exact hquiet (hkeep hD) rfl rfl
      | some o' =>
        rw [Event.Deals] at hD
        split at hD
        · rename_i hg
          obtain ⟨-, hpos, hs⟩ := hD
          by_cases ho' : o' = o
          · subst ho'
            have hs' : (s'.obj o').ctr = (s.obj o').ctr - 1 := by
              change (s'.stock o').ctr = _
              rw [hs, Function.update_self]
              rfl
            have hpos' : 0 < (s.obj o').ctr := hpos
            simp only [Event.posts, Event.takesNow, hg, hs']
            simp
            omega
          · exact hquiet (hother hs fun h => absurd h.symm ho') rfl (if_neg fun h => ho' h.1)
        · rename_i hg
          exact hquiet (hkeep hD.1) rfl (if_neg fun h => hg h.2)
    | semPost p opt =>
      cases p with
      | none => exact hquiet (hkeep hD) rfl rfl
      | some o' =>
        rw [Event.Deals] at hD
        split at hD
        · rename_i hg
          obtain ⟨-, hs⟩ := hD
          by_cases ho' : o' = o
          · subst ho'
            have hp : Event.posts r o' (.call (.semPost (some o') opt)) = 1 := if_pos ⟨rfl, hg⟩
            have hs' : (s'.obj o').ctr = if s.pendTasks o' = [] then (s.obj o').ctr + 1 else (s.obj o').ctr := by
              change (s'.stock o').ctr = _
              rw [hs]
              by_cases h0 : s.pendTasks o' = []
              · rw [if_pos (H.nbr_eq_zero.mpr h0), if_pos h0, Function.update_self]
                rfl
              · rw [if_neg fun h => h0 (H.nbr_eq_zero.mp h), if_neg h0]
                rfl
            rw [hp, hs']
            by_cases h0 : s.pendTasks o' = [] <;> simp [h0, Event.takesNow]
          · refine hquiet ?_ (if_neg fun h => ho' h.1) rfl
            split at hs
            · exact hother hs fun h => absurd h.symm ho'
            · exact hkeep hs
        · rename_i hg
          exact hquiet (hkeep hD) (if_neg fun h => hg h.2) rfl
    | semSet p cnt =>
      cases p with
      | none => exact hquiet (hkeep hD) rfl rfl
      | some o' =>
        rw [Event.Deals] at hD
        split at hD
        · rename_i hg
          refine hquiet (hother hD.2.2 fun h => absurd ⟨?_, hg⟩ hr) rfl rfl
          rw [h]
        · exact hquiet (hkeep hD) rfl rfl
    | pendMulti tbl objs timeout opt =>
      cases tbl with
      | none => exact hquiet (hkeep hD) rfl rfl
      | some i =>
        obtain ⟨t, hcur, hD⟩ := hD
        split at hD
        · rename_i hg
          have h0 : s.intNestingCtr = 0 := (hx.wp fun n => osPendMulti_task (some i) objs timeout opt) hg
          have hctr : (s.obj o).ctr = (s'.obj o).ctr + s'.reports (t, i) objs.length o := by
            have hctr := (hD o).2.2
            rw [if_pos (show (s.stock o).type = .sem from ho)] at hctr
            exact hctr
          simp [Event.posts, Event.takesNow, hg, hcur h0, hctr]
        · rename_i hg
          exact hquiet (hkeep hD.1) rfl (if_neg hg)
    | flagPend p flags timeout opt =>
      cases p with
      | none => exact hquiet (hkeep hD) rfl rfl
      | some o' =>
        rcases hD with hD | ⟨-, m, hD⟩
        · exact hquiet (hkeep hD.1) rfl rfl
        · exact hquiet (hother hD fun _ => rfl) rfl rfl
    | flagPost p flags opt =>
      cases p with
      | none => exact hquiet (hkeep hD) rfl rfl
      | some o' =>
        rcases hD with hD | ⟨-, -, hD⟩
        · exact hquiet (hkeep hD.1) rfl rfl
        · exact hquiet (hother hD fun _ => rfl) rfl rfl
    | taskCreate | taskDel | taskSuspend | taskResume | taskChangePrio | taskTimeQuantaSet | taskSemPend | taskSemPendAbort
    | taskSemPost | taskSemSet | taskQPend | taskQPendAbort | taskQPost | taskQFlush | semPendAbort | qPend | qPendAbort
    | qPost | mutexPend | mutexPost | flagPendGetFlagsRdy | timeDly | timeDlyHMSM | timeGet | timeSet | schedLock
    | schedUnlock | schedRoundRobinCfg | schedRoundRobinYield => exact hquiet (hkeep hD) rfl rfl

end balance

section spare

theorem Event.Deals.count (hD : e.Deals s r s') (o : ObjId) :
    (∃ c k, e = .call c ∧ c.creates = some (o, k) ∧ granted r = true ∧ (s'.stock o).type = k ∧
      ∀ cnt, c = .semCreate (some o) cnt → (s'.stock o).ctr = cnt) ∨
    (s'.stock o).type = (s.stock o).type ∧ ((s'.stock o).ctr ≤ (s.stock o).ctr ∨ (s.obj o).pendList.nbrEntries = 0 ∨
      0 < (s.stock o).ctr) := by
  have hkeep (hs : s'.stock = s.stock) : (s'.stock o).type = (s.stock o).type ∧ ((s'.stock o).ctr ≤ (s.stock o).ctr ∨
      (s.obj o).pendList.nbrEntries = 0 ∨ 0 < (s.stock o).ctr) := by
    rw [hs]
    exact ⟨rfl, .inl le_rfl⟩
  have hupd {o' : ObjId} {x : Stock} (hs : s'.stock = Function.update s.stock o' x) (ht : o = o' → x.type = (s.stock o').type)
      (hx : o = o' → x.ctr ≤ (s.stock o').ctr ∨ (s.obj o').pendList.nbrEntries = 0 ∨ 0 < (s.stock o').ctr) :
      (s'.stock o).type = (s.stock o).type ∧ ((s'.stock o).ctr ≤ (s.stock o).ctr ∨
        (s.obj o).pendList.nbrEntries = 0 ∨ 0 < (s.stock o).ctr) := by
    rw [hs, Function.update_apply]
    split
    · rename_i h
      subst h
      exact ⟨ht rfl, hx rfl⟩
    · exact ⟨rfl, .inl le_rfl⟩
  cases e with
  | start | intEnter | intExit | clock | timeTick | tickUpdate => exact .inr (hkeep hD)
  | finish =>
    rcases hD with hD | ⟨t, o', m, -, -, hD⟩
    · exact .inr (hkeep hD)
    · exact .inr (hupd hD (fun _ => rfl) fun _ => .inl le_rfl)
  | call c =>
    cases c with
    | semCreate p cnt =>
      cases p with
      | none => exact .inr (hkeep hD)
      | some o' =>
        rw [Event.Deals] at hD
        split at hD
        · rename_i hg
          by_cases ho : o' = o
          · subst ho
            refine .inl ⟨_, _, rfl, rfl, hg, ?_, ?_⟩
            · rw [hD, Function.update_self]
            · rintro _ ⟨⟩
              rw [hD, Function.update_self]
          · exact .inr (hupd hD (fun h => absurd h.symm ho) fun h => absurd h.symm ho)
        · exact .inr (hkeep hD)
    | qCreate p maxQty | mutexCreate p | flagCreate p flags =>
      cases p with
      | none => exact .inr (hkeep hD)
      | some o' =>
        rw [Event.Deals] at hD
        split at hD
        · rename_i hg
          by_cases ho : o' = o
          · subst ho
            refine .inl ⟨_, _, rfl, rfl, hg, ?_, by simp⟩
            rw [hD, Function.update_self]
          · exact .inr (hupd hD (fun h => absurd h.symm ho) fun h => absurd h.symm ho)
        · exact .inr (hkeep hD)
    | semPend p timeout opt =>
      cases p with
      | none => exact .inr (hkeep hD)
      | some o' =>
        rw [Event.Deals] at hD
        split at hD
        · exact .inr (hupd hD.2.2 (fun _ => rfl) fun _ => .inl (Nat.sub_le _ _))
        · exact .inr (hkeep hD.1)
    | semPost p opt =>
      cases p with
      | none => exact .inr (hkeep hD)
      | some o' =>
        rw [Event.Deals] at hD
        split at hD
        · obtain ⟨-, hs⟩ := hD
          split at hs
          · rename_i h0
            exact .inr (hupd hs (fun _ => rfl) fun _ => .inr (.inl h0))
          · exact .inr (hkeep hs)
        · exact .inr (hkeep hD)
    | semSet p cnt =>
      cases p with
      | none => exact .inr (hkeep hD)
      | some o' =>
        rw [Event.Deals] at hD
        split at hD
        · exact .inr (hupd hD.2.2 (fun _ => rfl) fun _ => .inr hD.2.1.symm)
        · exact .inr (hkeep hD)
    | pendMulti tbl objs timeout opt =>
      cases tbl with
      | none => exact .inr (hkeep hD)
      | some i =>
        obtain ⟨t, -, hD⟩ := hD
        split at hD
        · obtain ⟨ht, -, hc⟩ := hD o
          exact .inr ⟨ht, .inl (by omega)⟩
        · exact .inr (hkeep hD.1)
    | flagPend p flags timeout opt =>
      cases p with
      | none => exact .inr (hkeep hD)
      | some o' =>
        rcases hD with hD | ⟨-, m, hD⟩
        · exact .inr (hkeep hD.1)
        · exact .inr (hupd hD (fun _ => rfl) fun _ => .inl le_rfl)
    | flagPost p flags opt =>
      cases p with
      | none => exact .inr (hkeep hD)
      | some o' =>
        rcases hD with hD | ⟨-, -, hD⟩
        · exact .inr (hkeep hD.1)
        · exact .inr (hupd hD (fun _ => rfl) fun _ => .inl le_rfl)
    | taskCreate | taskDel | taskSuspend | taskResume | taskChangePrio | taskTimeQuantaSet | taskSemPend | taskSemPendAbort
    | taskSemPost | taskSemSet | taskQPend | taskQPendAbort | taskQPost | taskQFlush | semPendAbort | qPend | qPendAbort
    | qPost | mutexPend | mutexPost | flagPendGetFlagsRdy | timeDly | timeDlyHMSM | timeGet | timeSet | schedLock
    | schedUnlock | schedRoundRobinCfg | schedRoundRobinYield => exact .inr (hkeep hD)

def OS.Spare (s : OS) : Prop := ∀ o, (s.obj o).type = .sem → 0 < (s.obj o).ctr → s.pendTasks o = []

theorem Ready.created_empty {c : Call} {k : ObjType} (H : Ready cfg s a) (he : Enabled s (.call c))
    (hc : c.creates = some (o, k)) : s.pendTasks o = [] := by
  rcases he.1.2 (o, k) hc with hnone | ⟨-, h0⟩
  · by_contra hne
    obtain ⟨t, ht⟩ := List.exists_mem_of_ne_nil _ hne
    have hacc := H.accepts ht
    rw [hnone] at hacc
    cases hk : (s.file t).pendOn <;> simp [hk, PendOn.accepts] at hacc
  · exact H.nbr_eq_zero.mp h0

theorem OS.Spare.step (hS : s.Spare) (H : Ready cfg s a) (H' : Ready cfg s' a') (he : Enabled s e)
    (hx : Runs cfg e.exec s r s') (hF : Filed s e r s') : s'.Spare := by
  have hD : e.Deals s r s' := hx.wp fun n => Event.exec_deals e
  intro o ho hpos
  by_contra hne
  obtain ⟨t, ht⟩ := List.exists_mem_of_ne_nil _ hne
  rcases H.on_step hF (H'.mem_pendTasks.mp ht) with hold | ⟨rfl, ⟨c, kind, rfl, hc, hkind⟩ | ⟨i, objs, timeout, opt, rfl, hmem⟩⟩
  · -- the task has been waiting, and the count has been raised
    have ht₀ := H.mem_pendTasks.mpr hold
    rcases hD.count o with ⟨c, k, rfl, hc, -⟩ | ⟨htype, hctr⟩
    · rw [H.created_empty he hc] at ht₀
      cases ht₀
    · have hempty : s.pendTasks o = [] := by
        have ho' : (s.obj o).type = .sem := htype.symm.trans ho
        rcases hctr with hle | h0 | hp
        · exact hS o ho' (Nat.lt_of_lt_of_le hpos hle)
        · exact H.nbr_eq_zero.mp h0
        · exact hS o ho' hp
      rw [hempty] at ht₀
      cases ht₀
  · have hk : kind = .sem := by
      rcases H'.on_sem ho ht with hk | hk
      · exact hkind.symm.trans hk
      · rw [hkind] at hk
        subst hk
        exact absurd hc Call.waitsFor_ne_multi
    subst hk
    unfold Call.waitsFor at hc
    split at hc <;> cases hc
    rw [Event.Deals, if_neg (by simp [granted])] at hD
    obtain ⟨hs, hz⟩ := hD
    have hz' : (s.stock o).ctr = 0 := (hz rfl).2
    have hpos' : 0 < (s'.stock o).ctr := hpos
    rw [hs, hz'] at hpos'
    omega
  · obtain ⟨t', -, hD⟩ := hD
    rw [if_neg (by simp [granted])] at hD
    have htype : (s.stock o).type = .sem := by
      rw [← hD.1]
      exact ho
    have hz := hD.2 rfl (some o) hmem o rfl htype
    have hpos' : 0 < (s'.stock o).ctr := hpos
    rw [hD.1, hz] at hpos'
    omega

end spare

end UcosIII
