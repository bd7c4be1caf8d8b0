import UcosIII.Runs.TmrEffects

namespace UcosIII

open Prog

variable {n : ℕ} {c : TmrCfg} {s s' : Sys} {V : ℕ → List TmrId} {t x : TmrId} {script : TmrScript} {now : Tick}

section follow

variable {ts P : List TmrId} {A B : Acc} {o : OS}

theorem keeps_intNesting_lock : Keeps OS.intNestingCtr osSchedLock := by
  unfold osSchedLock
  refine keeps_bind keeps_get fun _ => keeps_ite (keeps_pure _) (keeps_ite (keeps_pure _) (keeps_ite (keeps_pure _) ?_))
  exact keeps_bind (keeps_modify fun _ => rfl) fun _ => keeps_pure _

theorem keeps_intNesting_unlock : Keeps OS.intNestingCtr osSchedUnlock := by
  unfold osSchedUnlock
  refine keeps_bind keeps_get fun _ => keeps_ite (keeps_pure _) (keeps_ite (keeps_pure _) (keeps_ite (keeps_pure _) ?_))
  refine keeps_bind (keeps_modify fun _ => rfl) fun _ => keeps_ite (keeps_pure _) ?_
  exact keeps_bind (keeps_osSched (v := OS.intNestingCtr) (fun _ _ _ => rfl) (fun _ _ _ => rfl)) fun _ => keeps_pure _

/-- The state is as the callbacks are followed: the timers are those of `A`, the wheel is in order, and the timers that are
due are `P`, as they come on their spoke. All timers are among `ts`. -/
structure Follows (c : TmrCfg) (now : Tick) (ts : List TmrId) (s : Sys) (A : Acc) (P : List TmrId) : Prop where
  order : ∃ V, TmrOrder c.tmrWheelSize s V ∧ P = (V (now.toNat % c.tmrWheelSize)).filter fun x => s.due x = now
  ctr : s.tmrTickCtr = now
  tmr : ∀ x, (s.tmr x).core = (A.tmr x).core
  calls : s.firings.length = A.calls
  os : Schedulable c.cfg s.os
  task : s.os.intNestingCtr = 0
  made : ∀ x, (s.tmr x).isTmr = true → x ∈ ts
  loose : Loose s

namespace Follows

theorem isTmr (F : Follows c now ts s A P) (x : TmrId) : (s.tmr x).isTmr = (A.tmr x).isTmr := (congrArg Tmr.isTmr (F.tmr x) :)

theorem state (F : Follows c now ts s A P) (x : TmrId) : (s.tmr x).state = (A.tmr x).state := (congrArg Tmr.state (F.tmr x) :)

theorem due (F : Follows c now ts s A P) (x : TmrId) : s.due x = (A.tmr x).matchCtr := (congrArg Tmr.matchCtr (F.tmr x) :)

theorem valid (F : Follows c now ts s A P) : A.Valid := by
  intro x hx
  obtain ⟨V, h, -⟩ := F.order
  refine (h.valid x ((F.isTmr x).trans hx)).congr ?_
  exact (congrArg Tmr.args (F.tmr x).symm :)

theorem mem (F : Follows c now ts s A P) : x ∈ P ↔ A.Pend now x := by
  obtain ⟨V, h, rfl⟩ := F.order
  rw [List.mem_filter, decide_eq_true_iff, Acc.Pend, ← F.isTmr, ← F.state, ← F.due]
  constructor
  · rintro ⟨hx, hdue⟩
    exact ⟨h.made _ x hx, (h.lists.running x).mpr ⟨_, hx⟩, hdue⟩
  · rintro ⟨-, hrun, hdue⟩
    obtain ⟨i, hi⟩ := (h.lists.running x).mp hrun
    have hi' := h.lists.hash i x hi
    rw [hdue] at hi'
    rw [hi']
    exact ⟨hi, hdue⟩

theorem nodup (F : Follows c now ts s A P) : P.Nodup := by
  obtain ⟨V, h, rfl⟩ := F.order
  apply List.Nodup.filter
  obtain ⟨tail, hl⟩ := h.lists.list _ (Nat.mod_lt _ c.tmrWheelSize_pos)
  exact hl.dlist.nodup

theorem length_lt (F : Follows c now ts s A P) (hn : ts.length < n) {V : ℕ → List TmrId}
    (h : TmrOrder c.tmrWheelSize s V) (i : ℕ) : (V i).length < n := by
  have hts : ∀ x, (s.tmr x).state = .running → x ∈ ts := by
    intro x hx
    obtain ⟨j, hj⟩ := (h.lists.running x).mp hx
    exact F.made x (h.made j x hj)
  exact lt_of_le_of_lt (h.lists.length_le c.tmrWheelSize_pos hts i) hn

theorem kernel {l : List Firing} (F : Follows c now ts s A P) (ho : Schedulable c.cfg o) (ht : o.intNestingCtr = 0) :
    Follows c now ts { s with os := o, firings := l } { A with calls := l.length } P := by
  obtain ⟨V, h, hP⟩ := F.order
  exact ⟨⟨V, h.kernel, hP⟩, F.ctr, F.tmr, rfl, ho, ht, F.made, F.loose⟩

theorem onOS (F : Follows c now ts s A P) (ho : Schedulable c.cfg o) (ht : o.intNestingCtr = 0) :
    Follows c now ts { s with os := o } A P := by
  have h := F.kernel (l := s.firings) ho ht
  rw [F.calls] at h
  exact h

theorem write {f : Tmr → Tmr} {a : Tmr} {P' : List TmrId} (F : Follows c now ts s A P)
    (horder : ∃ V, TmrOrder c.tmrWheelSize s' V ∧ P' = (V (now.toNat % c.tmrWheelSize)).filter fun x => s'.due x = now)
    (hcore : s'.core = (s.modTmr t f).core) (ha : (f (s.tmr t)).core = a.core) (hargs : (f (s.tmr t)).args = (s.tmr t).args)
    (hself : a.state ≠ .running → s'.prev t = none)
    (hother : ∀ x ≠ t, (s.tmr x).state ≠ .running → s'.prev x = s.prev x) : Follows c now ts s' (A.set t a) P' := by
  have hos : s'.os = s.os := (congrArg Sys.os hcore :)
  have hfirings : s'.firings = s.firings := (congrArg Sys.firings hcore :)
  have htmr (x : TmrId) : (s'.tmr x).core = ((A.set t a).tmr x).core := by
    rw [Sys.tmr_of_core hcore, Acc.set_tmr]
    split
    · exact ha
    · exact F.tmr x
  refine ⟨horder, ?_, htmr, ?_, hos ▸ F.os, ?_, fun x hx => ?_, fun x hx => ?_⟩
  · exact (congrArg Sys.tmrTickCtr hcore :).trans F.ctr
  · rw [hfirings]
    exact F.calls
  · rw [hos]
    exact F.task
  · apply F.made x
    rw [← hx]
    exact (congrArg Tmr.isTmr (Sys.args_eq hcore hargs x).symm :)
  · have hst : (s'.tmr x).state = ((A.set t a).tmr x).state := (congrArg Tmr.state (htmr x) :)
    rw [hst, Acc.set_tmr] at hx
    split at hx
    · rename_i hxt
      rw [hxt]
      exact hself hx
    · rename_i hxt
      rw [← F.state] at hx
      rw [hother x hxt hx]
      exact F.loose x hx

theorem link {opt : Opt} (F : Follows c now ts s A P) (hn : ts.length < n) (hst : (A.tmr t).state ≠ .running)
    (hmade : (A.tmr t).isTmr = true) (hticks : linkTicks (A.tmr t) opt ≠ 0) :
    twp n c (tmrLink t opt) (fun _ s' => Follows c now ts s' (A.set t ((A.tmr t).linked opt now)) P) s := by
  obtain ⟨V, h, hP⟩ := F.order
  have hoff (i : ℕ) : t ∉ V i := by
    intro hi
    rw [← F.state] at hst
    exact hst ((h.lists.running t).mpr ⟨i, hi⟩)
  refine ((tmrLink_order h hoff ((F.isTmr t).trans hmade) (F.length_lt hn h)).and
    (tmrLink_prev h.lists hoff (F.length_lt hn h))).mono ?_
  rintro _ s' ⟨⟨j, xs, ys, hadd, h'⟩, hprev⟩
  have hself : ((s.tmr t).linked opt s.tmrTickCtr).core = ((A.tmr t).linked opt now).core := by
    rw [F.ctr]
    exact (congrArg (fun a : Tmr => a.linked opt now) (F.tmr t) :)
  have htmr := Sys.tmr_of_core hadd.core
  have hdue : ∀ x ≠ t, s'.due x = s.due x := by
    intro x hxt
    have hx := htmr x
    rw [if_neg hxt] at hx
    exact (congrArg Tmr.matchCtr hx :)
  have hdue' : s'.due t ≠ now := by
    have hx := htmr t
    rw [if_pos rfl, hself] at hx
    have hd : s'.due t = ((A.tmr t).linked opt now).matchCtr := (congrArg Tmr.matchCtr hx :)
    rw [hd]
    exact Acc.linked_due_ne hticks
  refine F.write ⟨_, h', ?_⟩ hadd.core hself rfl (fun hr => absurd rfl hr) fun x hxt hx =>
    hprev x hxt fun i hi => hx ((h.lists.running x).mpr ⟨i, hi⟩)
  have hfilter (l : List TmrId) (hl : t ∉ l) :
      (l.filter fun x => decide (s'.due x = now)) = l.filter fun x => decide (s.due x = now) := by
    apply List.filter_congr
    intro x hx
    rw [hdue x fun hxt => hl (hxt ▸ hx)]
  rw [hP]
  by_cases hi : now.toNat % c.tmrWheelSize = j
  · have hsplit := hadd.split
    have ht := hoff j
    rw [hsplit, List.mem_append, not_or] at ht
    rw [hi, Function.update_self, hsplit, List.filter_append, List.filter_append, List.filter_cons,
      if_neg (by simpa using hdue'), hfilter xs ht.1, hfilter ys ht.2]
  · rw [Function.update_of_ne hi, hfilter _ (hoff _)]

theorem unlink (F : Follows c now ts s A P) (hst : (A.tmr t).state = .running) :
    twp n c (tmrUnlink t) (fun _ s' => Follows c now ts s' (A.set t (A.tmr t).unlinked) (P.erase t)) s := by
  obtain ⟨V, h, hP⟩ := F.order
  obtain ⟨i, hti⟩ := (h.lists.running t).mp ((F.state t).trans hst)
  refine ((tmrUnlink_order h hti).and_wp tmrUnlink_prev).mono ?_
  rintro _ s' ⟨⟨h', hcore⟩, hprev, hother⟩
  have hself : ((s.tmr t).unlinked).core = ((A.tmr t).unlinked).core := (congrArg Tmr.unlinked (F.tmr t) :)
  have hdue (x : TmrId) : s'.due x = s.due x := by
    have hx := Sys.tmr_of_core hcore x
    split at hx
    · rename_i hxt
      rw [hxt] at hx ⊢
      exact (congrArg Tmr.matchCtr hx :)
    · exact (congrArg Tmr.matchCtr hx :)
  refine F.write ⟨_, h', ?_⟩ hcore hself rfl (fun _ => hprev) fun x hxt hx => hother x hxt fun hnext => ?_
  case refine_2 =>
    -- the timer behind `t` is on the spoke
    obtain ⟨xs, ys, hV⟩ := List.append_of_mem hti
    obtain ⟨tail, hl⟩ := h.lists.list i (h.lists.hash i t hti ▸ Nat.mod_lt _ c.tmrWheelSize_pos)
    rw [hV] at hl
    rw [hl.dlist.next_eq] at hnext
    apply hx
    rw [h.lists.running]
    exact ⟨i, by rw [hV]; exact List.mem_append_right _ (List.mem_cons_of_mem _ (List.mem_of_mem_head? hnext))⟩
  simp only [hdue]
  have hnd := h.lists.nodup c.tmrWheelSize_pos hti
  by_cases hi : now.toNat % c.tmrWheelSize = i
  · rw [hi, Function.update_self, hP, hi, hnd.erase_eq_filter, (hnd.filter _).erase_eq_filter, List.filter_filter,
      List.filter_filter]
    apply List.filter_congr
    intro x _
    rw [Bool.and_comm]
  · rw [Function.update_of_ne hi, hP]
    apply List.erase_of_not_mem
    intro ht
    exact hi (h.lists.disjoint (List.mem_of_mem_filter ht) hti)

theorem locked (F : Follows c now ts s A P) :
    twp n c (onKernel osSchedLock) (fun _ s₁ => Follows c now ts s₁ A P ∧ ∃ o, s₁ = { s with os := o }) s := by
  rw [twp_onKernel]
  refine ((osSchedLock_returns F.os).and_wp (keeps_intNesting_lock n c.cfg s.os)).mono ?_
  rintro _ o ⟨ho, ht⟩
  exact ⟨F.onOS ho (ht.trans F.task), o, rfl⟩

theorem lock {α : Type} {m : T α} {Q : α → Sys → Prop} (F : Follows c now ts s A P)
    (hm : ∀ s₁, Follows c now ts s₁ A P → twp n c m Q s₁) : twp n c (do let _ ← onKernel osSchedLock; m) Q s := by
  rw [twp_bind]
  exact F.locked.mono fun _ s₁ h => hm s₁ h.1

theorem unlock {α : Type} {a : α} (F : Follows c now ts s A P) :
    twp n c (do let _ ← onKernel osSchedUnlock; return a) (fun r s' => r = a ∧ Follows c now ts s' A P) s := by
  rw [twp_bind, twp_onKernel]
  refine ((osSchedUnlock_returns F.os).and_wp (keeps_intNesting_unlock n c.cfg s.os)).mono ?_
  rintro _ o ⟨ho, ht⟩
  exact twp_pure.mpr ⟨rfl, F.onOS ho (ht.trans F.task)⟩

theorem check {m : TmrId → T Ret} {p : Option TmrId} {Q : Ret → Sys → Prop} (F : Follows c now ts s A P)
    (hno : ∀ r, (∀ t, p = some t → (A.tmr t).isTmr = false) → Q r s)
    (hm : ∀ t, p = some t → (A.tmr t).isTmr = true → twp n c (m t) Q s) : twp n c (checkTmr p m) Q s := by
  rw [checkTmr, twp_bind, twp_get, twp_ite]
  refine ⟨fun h => absurd h (by rw [F.task]; omega), fun _ => ?_⟩
  cases p with
  | none => exact twp_pure.mpr (hno _ (by simp))
  | some t =>
    rw [twp_ite, F.isTmr]
    refine ⟨fun h => twp_pure.mpr (hno _ ?_), fun h => hm t rfl (by simpa using h)⟩
    rintro _ ⟨⟩
    exact h

theorem set_set (A : Acc) (t : TmrId) (a b : Tmr) : (A.set t a).set t b = A.set t b := by
  simp [Acc.set]

theorem tmrStart (F : Follows c now ts s A P) (hn : ts.length < n) (p : Option TmrId) :
    twp n c (osTmrStart p) (fun _ s' => ∃ P', List.Sublist P' P ∧ Follows c now ts s' (A.start now p) P') s := by
  apply F.check
  · intro r hno
    refine ⟨P, List.Sublist.refl P, ?_⟩
    cases p with
    | none => exact F
    | some t =>
      rw [Acc.start, if_neg (by simp [hno t rfl])]
      exact F
  · rintro t rfl hmade
    apply F.lock
    intro s₁ F₁
    have hticks : linkTicks (A.tmr t) optLinkDly ≠ 0 := linkTicks_ne_zero (F.valid t hmade)
    have hend (s₂ : Sys) (P' : List TmrId) (r : Ret) (hP : List.Sublist P' P)
        (F₂ : Follows c now ts s₂ (A.set t ((A.tmr t).linked optLinkDly now)) P') (hst : (A.tmr t).state ≠ .unused) :
        twp n c (do let _ ← onKernel osSchedUnlock; return r)
          (fun _ s' => ∃ P', List.Sublist P' P ∧ Follows c now ts s' (A.start now (some t)) P') s₂ := by
      refine F₂.unlock.mono fun _ s₃ h₃ => ⟨P', hP, ?_⟩
      rw [Acc.start, if_pos ⟨hmade, hst⟩]
      exact h₃.2
    rw [twp_bind, twp_getTmr, F₁.state]
    cases hst : (A.tmr t).state with
    | running =>
      dsimp only
      rw [twp_bind]
      refine (F₁.unlink hst).mono fun _ s₂ F₂ => ?_
      rw [twp_bind]
      have hself : (A.set t (A.tmr t).unlinked).tmr t = (A.tmr t).unlinked := by rw [Acc.set_tmr, if_pos rfl]
      refine (F₂.link hn ?_ ?_ ?_).mono fun _ s₃ F₃ => ?_
      · rw [hself]
        simp [Tmr.unlinked]
      · rw [hself]
        exact hmade
      · rw [hself]
        exact hticks
      · rw [hself, set_set] at F₃
        exact hend s₃ _ _ List.erase_sublist F₃ (by simp [hst])
    | stopped | completed =>
      dsimp only
      rw [twp_bind]
      refine (F₁.link hn (by simp [hst]) hmade hticks).mono fun _ s₂ F₂ => ?_
      exact hend s₂ _ _ (List.Sublist.refl P) F₂ (by simp [hst])
    | unused =>
      refine F₁.unlock.mono fun _ s₂ h₂ => ⟨P, List.Sublist.refl P, ?_⟩
      rw [Acc.start, if_neg (by simp [hst])]
      exact h₂.2

def Does (c : TmrCfg) (n : ℕ) (now : Tick) (ts : List TmrId) (b : ℕ) (run : RunCallback) (call : Acc → Acc) : Prop :=
  ∀ s A P f t arg, b ≤ A.calls → Follows c now ts s A P →
    twp n c (run f t arg) (fun _ s' => ∃ P', List.Sublist P' P ∧ Follows c now ts s' (call A) P') s

theorem tmrStop {run : RunCallback} {call : Acc → Acc} {b : ℕ} (F : Follows c now ts s A P) (hrun : Does c n now ts b run call)
    (hb : b ≤ A.calls) (p : Option TmrId) (opt : Opt) (arg : Option ℕ) :
    twp n c (osTmrStopBy run p opt arg)
      (fun _ s' => ∃ P', List.Sublist P' P ∧ Follows c now ts s' (A.stop call opt p) P') s := by
  apply F.check
  · intro r hno
    refine ⟨P, List.Sublist.refl P, ?_⟩
    cases p with
    | none => exact F
    | some t =>
      rw [Acc.stop, if_neg (by simp [hno t rfl])]
      exact F
  · rintro t rfl hmade
    apply F.lock
    intro s₁ F₁
    rw [twp_bind, twp_getTmr, F₁.state]
    cases hst : (A.tmr t).state with
    | running =>
      dsimp only
      rw [twp_bind]
      refine (F₁.unlink hst).mono fun _ s₂ F₂ => ?_
      have hcb : (s₂.tmr t).callbackPtr = (A.tmr t).callbackPtr := by
        have ht := F₂.tmr t
        rw [Acc.set_tmr, if_pos rfl] at ht
        exact (congrArg Tmr.callbackPtr ht :)
      have hend (s₃ : Sys) (P' : List TmrId) (r : Ret) (hP : List.Sublist P' P)
          (F₃ : Follows c now ts s₃ (A.stop call opt (some t)) P') :
          twp n c (do let _ ← onKernel osSchedUnlock; return r)
            (fun _ s' => ∃ P', List.Sublist P' P ∧ Follows c now ts s' (A.stop call opt (some t)) P') s₃ :=
        F₃.unlock.mono fun _ s₄ h₄ => ⟨P', hP, h₄.2⟩
      have hstop (h : ¬ ((opt = optTmrCallback ∨ opt = optTmrCallbackArg) ∧ (A.tmr t).callbackPtr ≠ none)) :
          Follows c now ts s₂ (A.stop call opt (some t)) (P.erase t) := by
        rw [Acc.stop, if_pos ⟨hmade, hst⟩, if_neg h]
        exact F₂
      have hcallback (h : opt = optTmrCallback ∨ opt = optTmrCallbackArg) (arg' : Option ℕ) (m : Err → Ret) :
          twp n c (do
            let e ← stopCallbackBy run t arg'
            let _ ← onKernel osSchedUnlock
            return m e) (fun _ s' => ∃ P', List.Sublist P' P ∧ Follows c now ts s' (A.stop call opt (some t)) P') s₂ := by
        rw [twp_bind, stopCallbackBy, twp_bind, twp_getTmr, hcb]
        cases hptr : (A.tmr t).callbackPtr with
        | none =>
          rw [twp_pure]
          exact hend s₂ _ _ List.erase_sublist (hstop fun hh => hh.2 hptr)
        | some f =>
          dsimp only
          rw [twp_bind]
          refine (hrun s₂ (A.set t (A.tmr t).unlinked) _ f t arg' hb F₂).mono ?_
          rintro _ s₃ ⟨P', hP', F₃⟩
          rw [twp_pure]
          apply hend s₃ P' _ (hP'.trans List.erase_sublist)
          rw [Acc.stop, if_pos ⟨hmade, hst⟩, if_pos ⟨h, by simp [hptr]⟩]
          exact F₃
      rw [twp_ite, twp_ite, twp_ite]
      refine ⟨fun h => ?_, fun h => ⟨fun h' => ?_, fun h' => ⟨fun _ => ?_, fun _ => ?_⟩⟩⟩
      · rw [twp_bind, twp_getTmr]
        exact hcallback (.inl h) _ _
      · exact hcallback (.inr h') _ _
      · exact hend s₂ _ _ List.erase_sublist (hstop fun hh => hh.1.elim h h')
      · exact hend s₂ _ _ List.erase_sublist (hstop fun hh => hh.1.elim h h')
    | stopped | completed | unused =>
      refine F₁.unlock.mono fun _ s₂ h₂ => ⟨P, List.Sublist.refl P, ?_⟩
      rw [Acc.stop, if_neg (by simp [hst])]
      exact h₂.2

theorem execAll {run : RunCallback} {call : Acc → Acc} {b : ℕ} {ops : List TmrOp} (F : Follows c now ts s A P)
    (hn : ts.length < n) (hrun : Does c n now ts b run call) (hb : b ≤ A.calls)
    (hcall : ∀ B, B.Valid → Acc.Later script now [] B (call B)) :
    twp n c (TmrOp.execAll run ops)
      (fun _ s' => ∃ P', List.Sublist P' P ∧ Follows c now ts s' (ops.foldl (Acc.op call now) A) P') s := by
  induction ops generalizing s A P with
  | nil => exact twp_pure.mpr ⟨P, List.Sublist.refl P, F⟩
  | cons op ops ih =>
    have hlater : Acc.Later script now [op] A (A.op call now op) := Acc.op_later hcall F.valid
    rw [TmrOp.execAll, twp_bind]
    have hop : twp n c (op.exec run)
        (fun _ s' => ∃ P', List.Sublist P' P ∧ Follows c now ts s' (A.op call now op) P') s := by
      cases op with
      | start p =>
        rw [TmrOp.exec, twp_bind]
        exact (F.tmrStart hn p).mono fun _ s' h' => twp_pure.mpr h'
      | stop p opt arg =>
        rw [TmrOp.exec, twp_bind]
        exact (F.tmrStop hrun hb p opt arg).mono fun _ s' h' => twp_pure.mpr h'
    refine hop.mono ?_
    rintro _ s₁ ⟨P₁, hP₁, F₁⟩
    refine (ih F₁ (hb.trans hlater.calls)).mono ?_
    rintro _ s₂ ⟨P₂, hP₂, F₂⟩
    exact ⟨P₂, hP₂.trans hP₁, F₂⟩

/-- A callback does what its entry says, if the bounds on nested callbacks are large enough: `d` entries are left. -/
theorem callbackN {d k m : ℕ} (hn : ts.length < n) (hk : d < k) (hm : d < m) :
    Does c n now ts (script.length - d) (UcosIII.callbackN script k) (Acc.callback script now m) := by
  induction d generalizing k m with
  | zero =>
    obtain ⟨k, rfl⟩ : ∃ j, k = j + 1 := ⟨k - 1, by omega⟩
    obtain ⟨m, rfl⟩ : ∃ j, m = j + 1 := ⟨m - 1, by omega⟩
    intro s A P f t arg hb F
    have hnil : script.getD A.calls [] = [] := by
      rw [List.getD_eq_getElem?_getD, List.getElem?_eq_none (by omega)]
      rfl
    rw [UcosIII.callbackN, twp_bind, twp_get, twp_bind, twp_modify, F.calls, hnil, Acc.callback, hnil]
    refine twp_pure.mpr ⟨P, List.Sublist.refl P, ?_⟩
    have F' := F.kernel (l := ⟨f, t, arg⟩ :: s.firings) F.os F.task
    rw [List.length_cons, F.calls] at F'
    exact F'
  | succ d ih =>
    obtain ⟨k, rfl⟩ : ∃ j, k = j + 1 := ⟨k - 1, by omega⟩
    obtain ⟨m, rfl⟩ : ∃ j, m = j + 1 := ⟨m - 1, by omega⟩
    intro s A P f t arg hb F
    rw [UcosIII.callbackN, twp_bind, twp_get, twp_bind, twp_modify, F.calls, Acc.callback]
    have F' := F.kernel (l := ⟨f, t, arg⟩ :: s.firings) F.os F.task
    rw [List.length_cons, F.calls] at F'
    refine F'.execAll hn (ih (k := k) (m := m) (by omega) (by omega)) ?_ fun B hB => Acc.callback_later m hB
    change script.length - d ≤ A.calls + 1
    omega

theorem runCallbackBy (hn : ts.length < n) (hs : script.length < n) :
    Does c n now ts 0 (UcosIII.runCallbackBy script) (Acc.callback script now (script.length + 1)) := by
  intro s A P f t arg _ F
  exact callbackN hn hs (Nat.lt_succ_self script.length) s A P f t arg (by omega) F

end Follows

section firings

abbrev Notes {α : Type} (m : T α) : Prop := Grows List.IsSuffix Sys.firings m

theorem notes_of_keeps {α : Type} {m : T α} (h : Keeps Sys.beside m) : Notes m :=
  (h.comp fun b => b.2.2).grows

theorem notes_onKernel {α : Type} {m : K α} : Notes (onKernel m) := by
  intro n c s
  rw [wp_onKernel]
  exact fun _ _ _ => List.suffix_refl _

theorem notes_unlock {α : Type} {a : α} : Notes (do let _ ← onKernel osSchedUnlock; return a) :=
  grows_bind notes_onKernel fun _ => (keeps_pure a).grows

theorem notes_check {m : TmrId → T Ret} (p : Option TmrId) (hm : ∀ t, Notes (m t)) : Notes (checkTmr p m) := by
  refine grows_bind keeps_get.grows fun s => grows_ite (keeps_pure _).grows ?_
  cases p with
  | none => exact (keeps_pure _).grows
  | some t => exact grows_ite (keeps_pure _).grows (hm t)

theorem notes_getTmr : Notes (getTmr t) := notes_of_keeps (keeps_beside_getTmr t)

theorem notes_osTmrStart (p : Option TmrId) : Notes (osTmrStart p) := by
  refine notes_check p fun t => grows_bind notes_onKernel fun _ => grows_bind notes_getTmr fun a => ?_
  have hlink (opt : Opt) : Notes (tmrLink t opt) := notes_of_keeps (keeps_beside_tmrLink t opt)
  cases a.state with
  | running =>
    refine grows_bind (notes_of_keeps (keeps_beside_tmrUnlink t)) fun _ => ?_
    exact grows_bind (hlink _) fun _ => notes_unlock
  | stopped | completed => exact grows_bind (hlink _) fun _ => notes_unlock
  | unused => exact notes_unlock

theorem notes_osTmrStopBy {run : RunCallback} (hrun : ∀ f t arg, Notes (run f t arg)) (p : Option TmrId) (opt : Opt)
    (arg : Option ℕ) : Notes (osTmrStopBy run p opt arg) := by
  refine notes_check p fun t => grows_bind notes_onKernel fun _ => grows_bind notes_getTmr fun a => ?_
  have hcallback (arg : Option ℕ) : Notes (stopCallbackBy run t arg) := by
    refine grows_bind notes_getTmr fun b => ?_
    cases b.callbackPtr with
    | none => exact (keeps_pure _).grows
    | some f => exact grows_bind (hrun f t arg) fun _ => (keeps_pure _).grows
  cases a.state with
  | running =>
    refine grows_bind (notes_of_keeps (keeps_beside_tmrUnlink t)) fun _ => grows_ite ?_ (grows_ite ?_ (grows_ite ?_ ?_))
    · exact grows_bind notes_getTmr fun b => grows_bind (hcallback _) fun _ => notes_unlock
    · exact grows_bind (hcallback _) fun _ => notes_unlock
    · exact notes_unlock
    · exact notes_unlock
  | stopped | completed | unused => exact notes_unlock

theorem notes_execAll {run : RunCallback} (hrun : ∀ f t arg, Notes (run f t arg)) (ops : List TmrOp) :
    Notes (TmrOp.execAll run ops) := by
  induction ops with
  | nil => exact (keeps_pure _).grows
  | cons op ops ih =>
    refine grows_bind ?_ fun _ => ih
    cases op with
    | start p => exact grows_bind (notes_osTmrStart p) fun _ => (keeps_pure _).grows
    | stop p opt arg => exact grows_bind (notes_osTmrStopBy hrun p opt arg) fun _ => (keeps_pure _).grows

theorem callbackN_notes {f : Callback} {arg : Option ℕ} (k : ℕ) :
    wp n c (callbackN script k f t arg) (fun _ s' => (⟨f, t, arg⟩ :: s.firings) <:+ s'.firings) s := by
  induction k generalizing n c s f t arg with
  | zero => exact wp_fault
  | succ k ih =>
    have hnotes (f : Callback) (t : TmrId) (arg : Option ℕ) : Notes (callbackN script k f t arg) := by
      intro n c s
      exact ih.mono fun _ _ h => (List.suffix_cons _ _).trans h
    rw [callbackN, wp_bind, wp_get, wp_bind, wp_modify]
    exact notes_execAll hnotes _ n c _

theorem runCallbackBy_notes {f : Callback} {arg : Option ℕ} :
    wp n c (runCallbackBy script f t arg) (fun _ s' => (⟨f, t, arg⟩ :: s.firings) <:+ s'.firings) s :=
  callbackN_notes (n := n) n

end firings

/-- Whenever a callback returns, the timer that was next among those that are due is still due, or it has been started
again and no other is due any more. -/
inductive Spares (script : TmrScript) (now : Tick) : Acc → List TmrId → Prop
  | nil {A : Acc} : Spares script now A []
  | last {A : Acc} {t : TmrId} : Spares script now A [t]
  | next {A : Acc} {t q : TmrId} {L : List TmrId} (due : (A.fire script now t).Pend now q)
      (rest : Spares script now (A.fire script now t) (q :: L.filter ((A.fire script now t).Pend now))) :
      Spares script now A (t :: q :: L)
  | moved {A : Acc} {t q : TmrId} {L : List TmrId} (started : ((A.fire script now t).tmr q).matchCtr ≠ now)
      (none : ∀ x ∈ L, ¬ (A.fire script now t).Pend now x) : Spares script now A (t :: q :: L)

theorem Acc.set_fired_args (A : Acc) (x : TmrId) : ((A.set t ((A.tmr t).fired now)).tmr x).args = (A.tmr x).args := by
  rw [set_tmr]
  split
  · rename_i h
    rw [h, Tmr.fired_args]
  · rfl

/-- How a turn of the inner loop of `OS_TmrTask` ends, once the timer has been dealt with: its callback runs, and the walk
goes on with `x`. -/
def turnEnd (script : TmrScript) (t : TmrId) (x : Option TmrId × List Expiry) :
    T ((Option TmrId × List Expiry) ⊕ List Expiry) := do
  match (← getTmr t).callbackPtr with
  | none => pure ()
  | some f => runCallbackBy script f t (← getTmr t).callbackPtrArg
  return .inl x

structure Acc.FiredTo (script : TmrScript) (now : Tick) (t : TmrId) (A B : Acc) : Prop where
  calls : A.calls ≤ B.calls
  args : ∀ x, (B.tmr x).args = (A.tmr x).args
  pend : ∀ x, B.Pend now x → A.Pend now x ∧ x ≠ t ∧ ¬ TouchedIn script [] A.calls B.calls x
  same : ∀ x, x ≠ t → ¬ TouchedIn script [] A.calls B.calls x → B.tmr x = A.tmr x
  due : ∀ x, (A.tmr x).matchCtr ≠ now → (B.tmr x).matchCtr ≠ now

theorem Acc.fire_firedTo {A : Acc} (hv : A.Valid) (ht : A.Pend now t) : Acc.FiredTo script now t A (A.fire script now t) := by
  have hne : (A.set t ((A.tmr t).fired now)).Pend now t → False := by
    intro h
    rw [Acc.Pend, Acc.set_tmr, if_pos rfl] at h
    obtain ⟨-, hrun, hdue⟩ := h
    rw [Tmr.fired] at hrun hdue
    split at hdue
    · rename_i hper
      refine Acc.linked_due_ne ?_ hdue
      rw [linkTicks, if_pos rfl]
      rcases hv t ht.1 with h | h
      · exact h.2
      · rw [hper] at h
        exact absurd h.1 (by decide)
    · rename_i hone
      rw [if_neg hone] at hrun
      cases hrun
  have hset : ∀ x, (A.set t ((A.tmr t).fired now)).Pend now x → A.Pend now x ∧ x ≠ t := by
    intro x hx
    by_cases hxt : x = t
    · subst hxt
      exact absurd hx hne
    · rw [Acc.Pend, Acc.set_tmr, if_neg hxt] at hx
      exact ⟨hx, hxt⟩
  have hdue : ∀ x, (A.tmr x).matchCtr ≠ now → ((A.set t ((A.tmr t).fired now)).tmr x).matchCtr ≠ now := by
    intro x hx
    rw [Acc.set_tmr]
    split
    · rename_i hxt
      rw [hxt] at hx
      exact absurd ht.2.2 hx
    · exact hx
  have hvalid : (A.set t ((A.tmr t).fired now)).Valid := hv.args A.set_fired_args
  have hlater (B : Acc) (h : Acc.Later script now [] (A.set t ((A.tmr t).fired now)) B) : Acc.FiredTo script now t A B := by
    refine ⟨h.calls, fun x => (h.args x).trans (A.set_fired_args x), fun x hx => ?_, fun x hxt hx => ?_,
      fun x hx => h.due x (hdue x hx)⟩
    · obtain ⟨hx', hno⟩ := h.pend x hx
      exact ⟨(hset x hx').1, (hset x hx').2, hno⟩
    · rw [h.same x hx, Acc.set_tmr, if_neg hxt]
  rw [Acc.fire]
  split
  · exact hlater _ (.refl _)
  · exact hlater _ (Acc.callback_later _ hvalid)

namespace Follows

theorem spoke (F : Follows c now ts s A P) :
    (∀ t L, P = t :: L → ∃ M : List TmrId, s.tmrAt (now.toNat % c.tmrWheelSize) 0 = some t ∧ s.next t = M.head? ∧
      L = M.filter (fun x => s.due x = now) ∧ ∀ q L', L = q :: L' → M.head? = some q) ∧
    (P = [] → ∀ p, s.tmrAt (now.toNat % c.tmrWheelSize) 0 = some p → s.due p ≠ now) := by
  obtain ⟨V, h, rfl⟩ := F.order
  have hi := Nat.mod_lt now.toNat c.tmrWheelSize_pos
  obtain ⟨tail, hl⟩ := h.lists.list _ hi
  have hsorted := h.sorted.sorted (now.toNat % c.tmrWheelSize)
  have hhead := h.lists.tmrAt_eq hi 0
  rw [F.ctr] at hsorted
  generalize V (now.toNat % c.tmrWheelSize) = l at *
  -- an entry before one that is due is due
  have hfirst : ∀ y M, (y :: M).Pairwise (fun x y => s.due x - now ≤ s.due y - now) → s.due y ≠ now → ∀ x ∈ y :: M,
    s.due x ≠ now := by
    intro y M hp hy x hx
    rcases List.mem_cons.mp hx with rfl | hx
    · exact hy
    · intro he
      have hle := (List.pairwise_cons.mp hp).1 x hx
      rw [he, BitVec.sub_self, BitVec.le_def] at hle
      apply hy
      rw [← Wheel.left_eq_zero]
      simpa using hle
  cases l with
  | nil => exact ⟨fun t L h => by simp at h, fun _ p hp => by simp [hhead] at hp⟩
  | cons y M =>
    rw [List.getElem?_cons_zero] at hhead
    constructor
    · intro t L hP
      have hy : s.due y = now := by
        by_contra hy
        have hall := hfirst y M hsorted hy
        rw [List.filter_eq_nil_iff.mpr (by simpa using hall)] at hP
        cases hP
      rw [List.filter_cons, if_pos (by simpa using hy), List.cons.injEq] at hP
      obtain ⟨rfl, rfl⟩ := hP
      refine ⟨M, hhead, (hl.dlist.links [] y M rfl).1, rfl, fun q L' hL => ?_⟩
      cases M with
      | nil => cases hL
      | cons z N =>
        have hz : s.due z = now := by
          by_contra hz
          have hall := hfirst z N (List.pairwise_cons.mp hsorted).2 hz
          rw [List.filter_eq_nil_iff.mpr (by simpa using hall)] at hL
          cases hL
        rw [List.filter_cons, if_pos (by simpa using hz), List.cons.injEq] at hL
        rw [List.head?_cons, hL.1]
    · intro hP p hp he
      rw [hhead] at hp
      cases hp
      rw [List.filter_cons, if_pos (by simpa using he)] at hP
      cases hP

theorem complete (F : Follows c now ts s A P) (hst : (A.tmr t).state ≠ .running) :
    Follows c now ts (s.modTmr t fun a => { a with state := .completed }) (A.set t { A.tmr t with state := .completed }) P := by
  obtain ⟨V, h, hP⟩ := F.order
  have hoff (i : ℕ) : t ∉ V i := by
    intro hi
    rw [← F.state] at hst
    exact hst ((h.lists.running t).mpr ⟨i, hi⟩)
  have hdue (x : TmrId) : (s.modTmr t fun a => { a with state := .completed }).due x = s.due x := by
    rw [Sys.due, Sys.modTmr_tmr]
    split
    · rename_i hx
      rw [hx]
      rfl
    · rfl
  refine F.write ⟨V, h.modTmr_off hoff (by simp) (.inr rfl), ?_⟩ rfl ?_ rfl (fun _ => ?_) fun x hxt _ => ?_
  · simp only [hdue]
    exact hP
  · exact (congrArg (fun a : Tmr => { a with state := .completed }) (F.tmr t) :)
  · rw [Sys.prev_modTmr, if_pos rfl]
    rw [← F.state] at hst
    exact F.loose t hst
  · rw [Sys.prev_modTmr, if_neg hxt]

theorem turn {L : List TmrId} {done : List Expiry} (F : Follows c now ts s A (t :: L)) (hn : ts.length < n)
    (hs : script.length < n) :
    twp n c (tmrTaskStepBy script (some t, done)) (fun r s' => ∃ q P', r = .inl (q, done ++ [(t, A.calls)]) ∧
      List.Sublist P' L ∧ Follows c now ts s' (A.fire script now t) P' ∧ (∀ q' L', L = q' :: L' → q = some q') ∧
      (L = [] → ∀ q', q = some q' → (A.tmr q').matchCtr ≠ now) ∧ ((A.firing t).toList ++ s.firings) <:+ s'.firings) s := by
  obtain ⟨M, -, hnext, hL, hfirst⟩ := F.spoke.1 t L rfl
  have ht : A.Pend now t := F.mem.mp (List.mem_cons_self ..)
  have hlast : L = [] → ∀ q', M.head? = some q' → (A.tmr q').matchCtr ≠ now := by
    intro hnil q' hq' he
    have hmem : q' ∈ L := by
      rw [hL, List.mem_filter, decide_eq_true_iff, F.due]
      exact ⟨List.mem_of_mem_head? hq', he⟩
    rw [hnil] at hmem
    cases hmem
  have hgo (q' : TmrId) (L' : List TmrId) (h : L = q' :: L') : M.head? = some q' := hfirst q' L' h
  rw [tmrTaskStepBy, twp_bind, twp_getTmr, twp_bind, twp_get, twp_ite, F.ctr, Sys.tmr_matchCtr, F.due, ht.2.2,
    Sys.tmr_nextPtr, hnext]
  refine ⟨fun _ => ?_, fun h => absurd rfl h⟩
  rw [twp_bind, twp_get, F.calls, twp_bind]
  refine ((F.unlink ht.2.1).and_wp (keeps_beside_tmrUnlink t n c s)).mono ?_
  rintro _ s₂ ⟨F₂, hbeside⟩
  rw [List.erase_cons_head] at F₂
  have hfirings : s₂.firings = s.firings := (congrArg (fun b : OS × Tick × List Firing => b.2.2) hbeside :)
  have hself : (A.set t (A.tmr t).unlinked).tmr t = (A.tmr t).unlinked := by rw [Acc.set_tmr, if_pos rfl]
  -- what is left to do once the timer has been linked again or completed
  have hend (s₃ : Sys) (F₃ : Follows c now ts s₃ (A.set t ((A.tmr t).fired now)) L) (h₃ : s₃.firings = s.firings) :
      twp n c (turnEnd script t (M.head?, done ++ [(t, A.calls)])) (fun r s' => ∃ q P', r = .inl (q, done ++ [(t, A.calls)]) ∧
        List.Sublist P' L ∧ Follows c now ts s' (A.fire script now t) P' ∧ (∀ q' L', L = q' :: L' → q = some q') ∧
        (L = [] → ∀ q', q = some q' → (A.tmr q').matchCtr ≠ now) ∧ ((A.firing t).toList ++ s.firings) <:+ s'.firings) s₃ := by
    have hargs : (s₃.tmr t).args = (A.tmr t).args := (args_of_core (F₃.tmr t)).trans (A.set_fired_args t)
    have hcb : (s₃.tmr t).callbackPtr = (A.tmr t).callbackPtr := (congrArg Tmr.callbackPtr hargs :)
    have harg : (s₃.tmr t).callbackPtrArg = (A.tmr t).callbackPtrArg := (congrArg Tmr.callbackPtrArg hargs :)
    rw [turnEnd, twp_bind, twp_getTmr, hcb]
    cases hptr : (A.tmr t).callbackPtr with
    | none =>
      refine twp_pure.mpr ⟨M.head?, L, rfl, List.Sublist.refl L, ?_, hgo, hlast, ?_⟩
      · rw [Acc.fire, if_pos hptr]
        exact F₃
      · rw [Acc.firing, hptr, h₃]
        exact List.suffix_refl _
    | some f =>
      dsimp only
      rw [twp_bind, twp_getTmr, twp_bind]
      refine ((runCallbackBy hn hs s₃ (A.set t ((A.tmr t).fired now)) L f t _ (Nat.zero_le _) F₃).and_wp
        runCallbackBy_notes).mono ?_
      rintro _ s₄ ⟨⟨P', hP', F₄⟩, hnotes⟩
      refine twp_pure.mpr ⟨M.head?, P', rfl, hP', ?_, hgo, hlast, ?_⟩
      · rw [Acc.fire, if_neg (by simp [hptr])]
        exact F₄
      · rw [Acc.firing, hptr]
        rw [h₃, harg] at hnotes
        exact hnotes
  have hopt : (s₂.tmr t).opt = (A.tmr t).opt := by
    have h₂ := F₂.tmr t
    rw [hself] at h₂
    exact (congrArg Tmr.opt h₂ :)
  rw [twp_bind, twp_getTmr, twp_ite, hopt]
  constructor
  · intro hper
    rw [twp_bind]
    have hticks : linkTicks (A.tmr t) optLinkPeriodic ≠ 0 := by
      rw [linkTicks, if_pos rfl]
      rcases F.valid t ht.1 with h | h
      · exact h.2
      · rw [hper] at h
        exact absurd h.1 (by decide)
    refine ((F₂.link hn ?_ ?_ ?_).and_wp (keeps_beside_tmrLink t _ n c s₂)).mono ?_
    · rw [hself]
      simp [Tmr.unlinked]
    · rw [hself]
      exact ht.1
    · rw [hself]
      exact hticks
    · rintro _ s₃ ⟨F₃, hbeside⟩
      rw [hself, set_set] at F₃
      apply hend
      · rw [Tmr.fired, if_pos hper]
        exact F₃
      · have hfirings₃ : s₃.firings = s₂.firings := (congrArg (fun b : OS × Tick × List Firing => b.2.2) hbeside :)
        exact hfirings₃.trans hfirings
  · intro hone
    rw [twp_bind, twp_modTmr]
    have F₃ := F₂.complete (t := t) (by rw [hself]; simp [Tmr.unlinked])
    rw [hself, set_set] at F₃
    apply hend
    · rw [Tmr.fired, if_neg hone]
      exact F₃
    · exact hfirings

theorem stopped_faults {done : List Expiry} {Q : (Option TmrId × List Expiry) ⊕ List Expiry → Sys → Prop}
    (F : Follows c now ts s A P)
    (hdue : (A.tmr x).matchCtr = now) (hx : ¬ A.Pend now x) : wp n c (tmrTaskStepBy script (some x, done)) Q s := by
  obtain ⟨V, h, -⟩ := F.order
  have hoff (i : ℕ) : x ∉ V i := by
    intro hi
    apply hx
    rw [Acc.Pend, ← F.isTmr, ← F.state]
    exact ⟨h.made i x hi, (h.lists.running x).mpr ⟨i, hi⟩, hdue⟩
  have hst : (s.tmr x).state ≠ .running := by
    intro hrun
    obtain ⟨i, hi⟩ := (h.lists.running x).mp hrun
    exact hoff i hi
  have hfirst : (s.tmrWheel (now.toNat % c.tmrWheelSize)).firstPtr ≠ some x := by
    obtain ⟨tail, hl⟩ := h.lists.list _ (Nat.mod_lt now.toNat c.tmrWheelSize_pos)
    rw [hl.head_eq]
    intro hhead
    exact hoff _ (List.mem_of_mem_head? hhead)
  have hunlink (Q' : Unit → Sys → Prop) : wp n c (tmrUnlink x) Q' s := by
    unfold tmrUnlink getTmr getTmrSpoke
    have hmatch : (s.tmr x).matchCtr = now := (F.due x).trans hdue
    have hprev : (s.tmr x).prevPtr = none := F.loose x hst
    simp only [wp_bind, wp_get, wp_pure, wp_ask, wp_ite, hmatch, hprev, wp_deref]
    refine ⟨fun he => absurd he hfirst, fun _ t1 ht1 => ?_⟩
    cases ht1
  rw [tmrTaskStepBy]
  unfold getTmr
  simp only [wp_bind, wp_get, wp_pure, wp_ite]
  refine ⟨fun _ => hunlink _, fun hne => absurd ?_ hne⟩
  rw [F.ctr]
  exact ((F.due x).trans hdue).symm

theorem eq_filter {L : List TmrId} (F : Follows c now ts s A P) (hsub : List.Sublist P L) (hL : L.Nodup) :
    P = L.filter (A.Pend now) := by
  have hall : P.filter (A.Pend now) = P := by
    rw [List.filter_eq_self]
    intro x hx
    exact decide_eq_true (F.mem.mp hx)
  have hsub' : List.Sublist P (L.filter (A.Pend now)) := by
    rw [← hall]
    exact hsub.filter _
  apply hsub'.eq_of_length
  apply List.Perm.length_eq
  rw [List.perm_ext_iff_of_nodup F.nodup (hL.filter _)]
  intro x
  rw [List.mem_filter, decide_eq_true_iff, F.mem]
  refine ⟨fun hx => ⟨hsub.mem (F.mem.mpr hx), hx⟩, And.right⟩

end Follows

end follow

end UcosIII
