import UcosIII.Runs.TimerTask

namespace UcosIII

open Prog

variable {n : ℕ} {c : TmrCfg} {s s' : Sys} {V : ℕ → List TmrId} {t : TmrId} {i : ℕ} {o : OS}

section calls

inductive TmrCall where
  | create (p : Option TmrId) (dly period : Tick) (opt : Opt) (callback : Option Callback) (arg : Option ℕ)
  | start (p : Option TmrId)
  | stop (p : Option TmrId) (opt : Opt) (callbackArg : Option ℕ)
  | remainGet (p : Option TmrId)
  | stateGet (p : Option TmrId)

def TmrCall.exec : TmrCall → T Ret
  | create p dly period opt callback arg => do return { err := ← osTmrCreate p dly period opt callback arg }
  | start p => osTmrStart p
  | stop p opt callbackArg => osTmrStop p opt callbackArg
  | remainGet p => osTmrRemainGet p
  | stateGet p => osTmrStateGet p

def TmrCall.Fair (s : Sys) : TmrCall → Prop
  | create p .. => ∀ t ∈ p, (s.tmr t).state ≠ .running
  | _ => True

def stopErrs : List Err := [.none, .tmrNoCallback, .optInvalid]

def onTmr (t : TmrId) (g : Tmr → Tmr) (x : TmrId) (a : Tmr) : Tmr := if x = t then g a else a

theorem onTmr_self (g : Tmr → Tmr) (a : Tmr) : onTmr t g t a = g a := if_pos rfl

theorem onTmr_of_ne {x : TmrId} (hx : x ≠ t) (g : Tmr → Tmr) (a : Tmr) : onTmr t g x a = a := if_neg hx

def TmrCall.effect (now : Tick) (e : Err) : TmrCall → TmrId → Tmr → Tmr
  | create p dly period opt callback arg, x, a =>
    if p = some x ∧ e = .none then
      { isTmr := true, callbackPtr := callback, callbackPtrArg := arg, nextPtr := none, prevPtr := none, matchCtr := 0,
        remain := 0, dly := dly, period := period, opt := opt, state := .stopped }
    else a
  | start p, x, a => if p = some x ∧ e = .none then a.linked optLinkDly now else a
  | stop p _ _, x, a => if p = some x ∧ e ∈ stopErrs then a.unlinked else a
  | _, _, a => a

structure TmrOk (c : TmrCfg) (s : Sys) (V : ℕ → List TmrId) : Prop where
  order : TmrOrder c.tmrWheelSize s V
  ahead : Wheel.Ahead s.tmrTickCtr s.due V
  os : Schedulable c.cfg s.os

def TmrAfter (c : TmrCfg) (s : Sys) (f : TmrId → Tmr → Tmr) (s' : Sys) : Prop :=
  (∃ V', TmrOk c s' V') ∧ s'.tmrTickCtr = s.tmrTickCtr ∧ ∀ x, (s'.tmr x).core = (f x (s.tmr x)).core

theorem TmrOk.kernel {l : List Firing} (h : TmrOk c s V) (ho : Schedulable c.cfg o) :
    TmrOk c { s with os := o, firings := l } V :=
  ⟨h.order.kernel, h.ahead, ho⟩

theorem TmrAfter.same (h : TmrOk c s V) {f : TmrId → Tmr → Tmr} (hf : ∀ x a, f x a = a) : TmrAfter c s f s := by
  refine ⟨⟨V, h⟩, rfl, fun x => ?_⟩
  rw [hf]

theorem TmrAfter.kernel {l : List Firing} {f : TmrId → Tmr → Tmr} (h : TmrAfter c s f s') (ho : Schedulable c.cfg o) :
    TmrAfter c s f { s' with os := o, firings := l } := by
  obtain ⟨⟨V', h'⟩, hctr, htmr⟩ := h
  exact ⟨⟨V', h'.kernel ho⟩, hctr, htmr⟩

theorem unlock_after {r : Ret} {k : TmrCall} (h : TmrAfter c s (k.effect s.tmrTickCtr r.err) s') :
    twp n c (do let _ ← onKernel osSchedUnlock; return r) (fun r s'' => TmrAfter c s (k.effect s.tmrTickCtr r.err) s'') s' := by
  have ho : Schedulable c.cfg s'.os := by
    obtain ⟨⟨V', h'⟩, -⟩ := h
    exact h'.os
  rw [twp_bind, twp_onKernel]
  exact (osSchedUnlock_returns ho).mono fun _ o ho' => twp_pure.mpr (h.kernel ho')

theorem TmrCall.effect_refused {k : TmrCall} {now : Tick} {e : Err} {x : TmrId} {a : Tmr} (he : e ∉ stopErrs) :
    k.effect now e x a = a := by
  have hne : e ≠ .none := by
    rintro rfl
    exact he (by decide)
  cases k with
  | create p dly period opt callback arg => exact if_neg fun h => hne h.2
  | start p => exact if_neg fun h => hne h.2
  | stop p opt arg => exact if_neg fun h => he h.2
  | remainGet p => rfl
  | stateGet p => rfl

theorem checkTmr_after {m : TmrId → T Ret} {p : Option TmrId} {k : TmrCall} (h : TmrOk c s V)
    (hm : ∀ t, p = some t → (s.tmr t).isTmr = true →
      twp n c (m t) (fun r s' => TmrAfter c s (k.effect s.tmrTickCtr r.err) s') s) :
    twp n c (checkTmr p m) (fun r s' => TmrAfter c s (k.effect s.tmrTickCtr r.err) s') s := by
  have hrefused : ∀ e, e ∉ stopErrs → TmrAfter c s (k.effect s.tmrTickCtr e) s :=
    fun e he => .same h fun x a => TmrCall.effect_refused he
  rw [checkTmr, twp_bind, twp_get, twp_ite]
  refine ⟨fun _ => twp_pure.mpr (hrefused _ (by decide)), fun _ => ?_⟩
  cases p with
  | none => exact twp_pure.mpr (hrefused _ (by decide))
  | some t =>
    rw [twp_ite]
    refine ⟨fun _ => twp_pure.mpr (hrefused _ (by decide)), fun hmade => hm t rfl ?_⟩
    simpa using hmade

theorem linkTicks_ne_zero {a : Tmr} (h : a.Valid) : linkTicks a optLinkDly ≠ 0 := by
  rw [linkTicks, if_neg (by decide)]
  split
  · rename_i hz
    rcases h with h | h
    · exact h.2
    · exact absurd hz h.2
  · assumption

theorem TmrOk.not_mem (h : TmrOk c s V) (ht : (s.tmr t).state ≠ .running) (i : ℕ) : t ∉ V i :=
  fun hi => ht ((h.order.lists.running t).mpr ⟨i, hi⟩)

theorem link_after {ts : List TmrId} (h : TmrOk c s V) (ht : (s.tmr t).state ≠ .running) (hmade : (s.tmr t).isTmr = true)
    (hts : ∀ x, (s.tmr x).state = .running → x ∈ ts) (hn : ts.length < n) :
    twp n c (tmrLink t optLinkDly)
      (fun _ s' => TmrAfter c s (onTmr t fun a => a.linked optLinkDly s.tmrTickCtr) s') s := by
  have hlen : ∀ i, (V i).length < n := fun i => lt_of_le_of_lt (h.order.lists.length_le c.tmrWheelSize_pos hts i) hn
  refine (tmrLink_order h.order (h.not_mem ht) hmade hlen).mono ?_
  rintro _ s' ⟨i, xs, ys, hadd, horder⟩
  have hctr : s'.tmrTickCtr = s.tmrTickCtr := (congrArg Sys.tmrTickCtr hadd.core :)
  have hos : s'.os = s.os := (congrArg Sys.os hadd.core :)
  have htmr := Sys.tmr_of_core hadd.core
  refine ⟨⟨_, horder, fun j x hx => ?_, hos ▸ h.os⟩, hctr, fun x => ?_⟩
  · have hx' := htmr x
    rw [hctr]
    by_cases hxt : x = t
    · rw [if_pos hxt] at hx'
      have hdue : s'.due x = linkTicks (s.tmr t) optLinkDly + s.tmrTickCtr := (congrArg Tmr.matchCtr hx' :)
      rw [hdue]
      intro he
      apply linkTicks_ne_zero (h.order.valid t hmade)
      simpa using he
    · rw [if_neg hxt] at hx'
      have hdue : s'.due x = s.due x := (congrArg Tmr.matchCtr hx' :)
      rw [hdue]
      apply h.ahead j
      by_cases hj : j = i
      · subst hj
        rw [Function.update_self] at hx
        rw [hadd.split]
        simpa [hxt] using hx
      · rwa [Function.update_of_ne hj] at hx
  · rw [htmr x]
    by_cases hxt : x = t
    · rw [if_pos hxt, hxt, onTmr_self]
    · rw [if_neg hxt, onTmr_of_ne hxt]

theorem unlink_after (h : TmrOk c s V) (ht : (s.tmr t).state = .running) :
    twp n c (tmrUnlink t) (fun _ s' => TmrAfter c s (onTmr t Tmr.unlinked) s') s := by
  obtain ⟨i, hi⟩ := (h.order.lists.running t).mp ht
  refine (tmrUnlink_order h.order hi).mono ?_
  rintro _ s' ⟨horder, hcore⟩
  have hctr : s'.tmrTickCtr = s.tmrTickCtr := (congrArg Sys.tmrTickCtr hcore :)
  have hos : s'.os = s.os := (congrArg Sys.os hcore :)
  have htmr := Sys.tmr_of_core hcore
  refine ⟨⟨_, horder, fun j x hx => ?_, hos ▸ h.os⟩, hctr, fun x => ?_⟩
  · have hx' := htmr x
    have hdue : s'.due x = s.due x := by
      by_cases hxt : x = t
      · subst hxt
        rw [if_pos rfl] at hx'
        exact (congrArg Tmr.matchCtr hx' :)
      · rw [if_neg hxt] at hx'
        exact (congrArg Tmr.matchCtr hx' :)
    rw [hdue, hctr]
    apply h.ahead j
    by_cases hj : j = i
    · subst hj
      rw [Function.update_self] at hx
      exact List.mem_of_mem_erase hx
    · rwa [Function.update_of_ne hj] at hx
  · rw [htmr x]
    by_cases hxt : x = t
    · rw [if_pos hxt, hxt, onTmr_self]
    · rw [if_neg hxt, onTmr_of_ne hxt]

theorem osTmrStart_after {ts : List TmrId} (p : Option TmrId) (h : TmrOk c s V)
    (hts : ∀ x, (s.tmr x).state = .running → x ∈ ts) (hn : ts.length < n) :
    twp n c (osTmrStart p) (fun r s' => TmrAfter c s ((TmrCall.start p).effect s.tmrTickCtr r.err) s') s := by
  apply checkTmr_after h
  rintro t rfl hmade
  rw [twp_bind, twp_onKernel]
  refine (osSchedLock_returns h.os).mono fun _ o₁ ho₁ => ?_
  have h₁ : TmrOk c { s with os := o₁ } V := h.kernel ho₁
  have hstart : ∀ s', TmrAfter c { s with os := o₁ } (onTmr t fun a => a.linked optLinkDly s.tmrTickCtr) s' →
      TmrAfter c s ((TmrCall.start (some t)).effect s.tmrTickCtr .none) s' := by
    rintro s' ⟨hok, hctr, htmr⟩
    refine ⟨hok, hctr, fun x => (htmr x).trans ?_⟩
    rw [TmrCall.effect]
    by_cases hxt : x = t
    · rw [hxt, onTmr_self, if_pos ⟨rfl, rfl⟩]
    · rw [onTmr_of_ne hxt, if_neg fun he => hxt (Option.some.inj he.1).symm]
  rw [twp_bind, twp_getTmr]
  cases hst : (s.tmr t).state with
  | running =>
    dsimp only
    rw [twp_bind]
    refine (unlink_after h₁ hst).mono ?_
    rintro _ s₂ ⟨⟨V₂, h₂⟩, hctr₂, htmr₂⟩
    have hself : (s₂.tmr t).core = (s.tmr t).unlinked.core := by rw [htmr₂ t, onTmr_self]
    have hstop : (s₂.tmr t).state = .stopped := (congrArg Tmr.state hself :)
    have hmade₂ : (s₂.tmr t).isTmr = true := (congrArg Tmr.isTmr hself :).trans hmade
    have hts₂ : ∀ x, (s₂.tmr x).state = .running → x ∈ ts := by
      intro x hx
      have hx' := htmr₂ x
      by_cases hxt : x = t
      · rw [hxt, hstop] at hx
        cases hx
      · rw [onTmr_of_ne hxt] at hx'
        apply hts
        rw [← hx]
        exact (congrArg Tmr.state hx'.symm :)
    rw [twp_bind]
    refine (link_after h₂ (by rw [hstop]; decide) hmade₂ hts₂ hn).mono ?_
    rintro _ s₃ ⟨hok, hctr₃, htmr₃⟩
    apply unlock_after
    apply hstart
    refine ⟨hok, hctr₃.trans hctr₂, fun x => (htmr₃ x).trans ?_⟩
    by_cases hxt : x = t
    · subst hxt
      rw [onTmr_self, onTmr_self, hctr₂]
      exact (congrArg (fun a : Tmr => a.linked optLinkDly s.tmrTickCtr) hself :)
    · rw [onTmr_of_ne hxt, onTmr_of_ne hxt, htmr₂ x, onTmr_of_ne hxt]
  | stopped | completed =>
    dsimp only
    rw [twp_bind]
    exact (link_after h₁ (by rw [hst]; decide) hmade hts hn).mono fun _ s' h' => unlock_after (hstart s' h')
  | unused =>
    apply unlock_after
    exact .same h₁ fun x a => TmrCall.effect_refused (by decide)

theorem osTmrStop_after {k : ℕ} (p : Option TmrId) (opt : Opt) (arg : Option ℕ) (hc : CallbacksReturn c k) (hk : k ≤ n)
    (h : TmrOk c s V) :
    twp n c (osTmrStop p opt arg) (fun r s' => TmrAfter c s ((TmrCall.stop p opt arg).effect s.tmrTickCtr r.err) s') s := by
  apply checkTmr_after h
  rintro t rfl hmade
  rw [twp_bind, twp_onKernel]
  refine (osSchedLock_returns h.os).mono fun _ o₁ ho₁ => ?_
  have h₁ : TmrOk c { s with os := o₁ } V := h.kernel ho₁
  rw [twp_bind, twp_getTmr]
  cases hst : (s.tmr t).state with
  | running =>
    dsimp only
    rw [twp_bind]
    refine (unlink_after h₁ hst).mono fun _ s₂ h₂ => ?_
    -- whatever the option, the timer is stopped
    have hstop : ∀ e ∈ stopErrs, ∀ s', TmrAfter c { s with os := o₁ } (onTmr t Tmr.unlinked) s' →
        TmrAfter c s ((TmrCall.stop (some t) opt arg).effect s.tmrTickCtr e) s' := by
      rintro e he s' ⟨hok, hctr, htmr⟩
      refine ⟨hok, hctr, fun x => (htmr x).trans ?_⟩
      rw [TmrCall.effect]
      by_cases hxt : x = t
      · rw [hxt, onTmr_self, if_pos ⟨rfl, he⟩]
      · rw [onTmr_of_ne hxt, if_neg fun he => hxt (Option.some.inj he.1).symm]
    have hcallback : ∀ arg', twp n c (stopCallback t arg') (fun e s' => e ∈ stopErrs ∧
        TmrAfter c { s with os := o₁ } (onTmr t Tmr.unlinked) s') s₂ := by
      intro arg'
      rw [stopCallback, twp_bind, twp_getTmr]
      cases (s₂.tmr t).callbackPtr with
      | none => exact twp_pure.mpr ⟨by decide, h₂⟩
      | some f =>
        have ho₂ : Schedulable c.cfg s₂.os := by
          obtain ⟨⟨V₂, h₂⟩, -⟩ := h₂
          exact h₂.os
        dsimp only
        rw [twp_bind]
        refine (runCallback_returns hc hk ho₂ f arg').mono ?_
        rintro _ s₃ ⟨o, ho, rfl⟩
        exact twp_pure.mpr ⟨by decide, h₂.kernel ho⟩
    rw [twp_ite, twp_ite, twp_ite]
    refine ⟨fun _ => ?_, fun _ => ⟨fun _ => ?_, fun _ => ⟨fun _ => ?_, fun _ => ?_⟩⟩⟩
    · rw [twp_bind, twp_getTmr, twp_bind]
      exact (hcallback _).mono fun e s₃ h₃ => unlock_after (hstop e h₃.1 s₃ h₃.2)
    · rw [twp_bind]
      exact (hcallback _).mono fun e s₃ h₃ => unlock_after (hstop e h₃.1 s₃ h₃.2)
    · exact unlock_after (hstop _ (by decide) s₂ h₂)
    · exact unlock_after (hstop _ (by decide) s₂ h₂)
  | stopped | completed =>
    apply unlock_after
    exact .same h₁ fun x a => TmrCall.effect_refused (by decide)
  | unused =>
    apply unlock_after
    exact .same h₁ fun x a => TmrCall.effect_refused (by decide)

theorem TmrOk.remain (h : TmrOk c s V) (v : Tick) :
    TmrAfter c s (fun _ a => a) (s.modTmr t fun a => { a with remain := v }) := by
  have hcore : (s.modTmr t fun a => { a with remain := v }).core = s.core := Sys.core_modTmr rfl
  have hnext : (s.modTmr t fun a => { a with remain := v }).next = s.next := funext fun x => by grind
  have hprev : (s.modTmr t fun a => { a with remain := v }).prev = s.prev := funext fun x => by grind
  have htmr : ∀ x, ((s.modTmr t fun a => { a with remain := v }).tmr x).core = (s.tmr x).core :=
    fun x => (congrArg (fun y : Sys => y.tmr x) hcore :)
  have hdue : (s.modTmr t fun a => { a with remain := v }).due = s.due := funext (SameLinks.due hcore)
  refine ⟨⟨V, ⟨⟨fun i hi => ?_, h.order.lists.count, fun i x hx => ?_, fun x => ?_⟩, ?_, fun x hx => ?_, fun i x hx => ?_⟩, ?_, h.os⟩,
    rfl, htmr⟩
  · rw [hnext, hprev]
    exact h.order.lists.list i hi
  · rw [hdue]
    exact h.order.lists.hash i x hx
  · rw [← h.order.lists.running x]
    have hst : ((s.modTmr t fun a => { a with remain := v }).tmr x).state = (s.tmr x).state := (congrArg Tmr.state (htmr x) :)
    rw [hst]
  · rw [hdue]
    exact h.order.sorted
  · have hargs : ((s.modTmr t fun a => { a with remain := v }).tmr x).args = (s.tmr x).args := (congrArg Tmr.args (htmr x) :)
    refine (h.order.valid x ?_).congr hargs
    rw [← hx]
    exact (congrArg Tmr.isTmr hargs.symm :)
  · rw [← h.order.made i x hx]
    exact (congrArg Tmr.isTmr (htmr x) :)
  · rw [hdue]
    exact h.ahead

theorem osTmrRemainGet_after (p : Option TmrId) (h : TmrOk c s V) :
    twp n c (osTmrRemainGet p) (fun r s' => TmrAfter c s ((TmrCall.remainGet p).effect s.tmrTickCtr r.err) s') s := by
  apply checkTmr_after h
  rintro t rfl hmade
  rw [twp_bind, twp_onKernel]
  refine (osSchedLock_returns h.os).mono fun _ o₁ ho₁ => ?_
  have h₁ : TmrOk c { s with os := o₁ } V := h.kernel ho₁
  rw [twp_bind, twp_getTmr]
  cases hst : (s.tmr t).state with
  | running =>
    dsimp only
    rw [twp_bind, twp_get, twp_bind, twp_modTmr]
    apply unlock_after (k := .remainGet (some t))
    exact h₁.remain _
  | stopped =>
    dsimp only
    rw [twp_bind, twp_modTmr]
    apply unlock_after (k := .remainGet (some t))
    exact h₁.remain _
  | completed =>
    apply unlock_after (k := .remainGet (some t))
    exact .same h₁ fun x a => rfl
  | unused =>
    apply unlock_after (k := .remainGet (some t))
    exact .same h₁ fun x a => rfl

theorem osTmrCreate_after (p : Option TmrId) (dly period : Tick) (opt : Opt) (f : Option Callback) (arg : Option ℕ)
    (h : TmrOk c s V) (hfair : (TmrCall.create p dly period opt f arg).Fair s) :
    twp n c (osTmrCreate p dly period opt f arg)
      (fun e s' => TmrAfter c s ((TmrCall.create p dly period opt f arg).effect s.tmrTickCtr e) s') s := by
  have hrefused : ∀ e ≠ Err.none, TmrAfter c s ((TmrCall.create p dly period opt f arg).effect s.tmrTickCtr e) s :=
    fun e he => .same h fun x a => if_neg fun hx => he hx.2
  unfold osTmrCreate
  rw [twp_bind, twp_get, twp_ite]
  refine ⟨fun _ => twp_pure.mpr (hrefused _ (by decide)), fun _ => ?_⟩
  cases p with
  | none => exact twp_pure.mpr (hrefused _ (by decide))
  | some t =>
    have hmade : ∀ a : Tmr, a.Valid → a.state = .stopped → TmrOk c { s.modTmr t fun _ => a with tmrQty := s.tmrQty + 1 } V := by
      intro a ha hst
      have hoff := h.order.modTmr_off (h.not_mem (hfair t rfl)) (f := fun _ => a) (by rw [hst]; decide) (.inl ha)
      refine ⟨⟨⟨hoff.lists.list, hoff.lists.count, hoff.lists.hash, hoff.lists.running⟩, hoff.sorted, hoff.valid, hoff.made⟩,
        fun i x hx => ?_, h.os⟩
      have hxt : x ≠ t := fun he => h.not_mem (hfair t rfl) i (he ▸ hx)
      have hdue : (s.modTmr t fun _ => a).due x = s.due x := by
        rw [Sys.due, Sys.modTmr_tmr, if_neg hxt]
        rfl
      exact fun he => h.ahead i x hx (hdue.symm.trans he)
    have hdone : ∀ a : Tmr, TmrOk c { s.modTmr t fun _ => a with tmrQty := s.tmrQty + 1 } V →
        (∀ x b, (TmrCall.create (some t) dly period opt f arg).effect s.tmrTickCtr .none x b = onTmr t (fun _ => a) x b) →
        TmrAfter c s ((TmrCall.create (some t) dly period opt f arg).effect s.tmrTickCtr .none)
          { s.modTmr t fun _ => a with tmrQty := s.tmrQty + 1 } := by
      intro a hok he
      refine ⟨⟨V, hok⟩, rfl, fun x => ?_⟩
      rw [he]
      change (((s.modTmr t fun _ => a)).tmr x).core = _
      rw [Sys.modTmr_tmr, onTmr]
    have heff : ∀ x b, (TmrCall.create (some t) dly period opt f arg).effect s.tmrTickCtr .none x b = onTmr t (fun _ =>
        { isTmr := true, callbackPtr := f, callbackPtrArg := arg, nextPtr := none, prevPtr := none, matchCtr := 0,
          remain := 0, dly := dly, period := period, opt := opt, state := .stopped }) x b := by
      intro x b
      rw [TmrCall.effect]
      by_cases hxt : x = t
      · rw [hxt, onTmr_self, if_pos ⟨rfl, rfl⟩]
      · rw [onTmr_of_ne hxt, if_neg fun he => hxt (Option.some.inj he.1).symm]
    simp only [twp_bind, twp_ite, twp_pure, twp_modTmr, twp_modify]
    refine ⟨fun hper => ⟨fun _ => hrefused _ (by decide), fun hp => ?_⟩, fun hper => ⟨fun hone => ⟨fun _ => hrefused _ (by decide),
      fun hd => ?_⟩, fun _ => hrefused _ (by decide)⟩⟩
    · exact hdone _ (hmade _ (.inl ⟨hper, hp⟩) rfl) heff
    · exact hdone _ (hmade _ (.inr ⟨hone, hd⟩) rfl) heff

theorem tmrCall_spec {k : ℕ} {ts : List TmrId} (call : TmrCall) (hc : CallbacksReturn c k) (hk : k ≤ n) (h : TmrOk c s V)
    (hts : ∀ x, (s.tmr x).state = .running → x ∈ ts) (hn : ts.length < n) (hfair : call.Fair s) :
    twp n c call.exec (fun r s' => TmrAfter c s (call.effect s.tmrTickCtr r.err) s') s := by
  cases call with
  | create p dly period opt f arg =>
    rw [TmrCall.exec, twp_bind]
    exact (osTmrCreate_after p dly period opt f arg h hfair).mono fun e s' h' => twp_pure.mpr h'
  | start p => exact osTmrStart_after p h hts hn
  | stop p opt arg => exact osTmrStop_after p opt arg hc hk h
  | remainGet p => exact osTmrRemainGet_after p h
  | stateGet p =>
    apply checkTmr_after (k := .stateGet p) h
    rintro t rfl hmade
    rw [twp_bind, twp_getTmr, twp_pure]
    exact .same h fun x a => rfl

end calls

section ticks

/-- The ticks from a start to the first firing: `Dly`, or `Period` if `Dly` is zero. -/
def Tmr.firstTicks (a : Tmr) : ℕ := if a.dly = 0 then a.period.toNat else a.dly.toNat

def Tmr.DueAt (a : Tmr) (k : ℕ) : Prop :=
  if a.opt = optTmrPeriodic then a.firstTicks ≤ k ∧ (k - a.firstTicks) % a.period.toNat = 0 else k = a.dly.toNat

def Tmr.ticksLeft (a : Tmr) (k : ℕ) : ℕ :=
  if k < a.firstTicks then a.firstTicks - k
  else if a.opt = optTmrPeriodic then a.period.toNat - (k - a.firstTicks) % a.period.toNat else 0

variable {a : Tmr} {k : ℕ}

theorem Tmr.Valid.period_pos (h : a.Valid) (hper : a.opt = optTmrPeriodic) : 0 < a.period.toNat := by
  rcases h with h | h
  · apply Nat.pos_of_ne_zero
    intro hz
    exact h.2 (BitVec.eq_of_toNat_eq hz)
  · rw [hper] at h
    exact absurd h.1 (by decide)

theorem Tmr.Valid.firstTicks_eq (h : a.Valid) (hper : a.opt ≠ optTmrPeriodic) : a.firstTicks = a.dly.toNat := by
  rcases h with h | h
  · exact absurd h.1 hper
  · rw [firstTicks, if_neg h.2]

theorem Tmr.ticksLeft_succ (h : a.Valid) : a.ticksLeft (k + 1) =
    if a.ticksLeft k = 1 then (if a.opt = optTmrPeriodic then a.period.toNat else 0) else a.ticksLeft k - 1 := by
  rw [ticksLeft, ticksLeft]
  by_cases hlt : k + 1 < a.firstTicks
  · have hk : k < a.firstTicks := by omega
    have hne : ¬ a.firstTicks - k = 1 := by omega
    rw [if_pos hlt, if_pos hk, if_neg hne]
    omega
  · rw [if_neg hlt]
    by_cases hk : k < a.firstTicks
    · have he : k + 1 = a.firstTicks := by omega
      have hone : a.firstTicks - k = 1 := by omega
      rw [if_pos hk, if_pos hone, he, Nat.sub_self, Nat.zero_mod, Nat.sub_zero]
    · rw [if_neg hk]
      by_cases hper : a.opt = optTmrPeriodic
      · have hpos := h.period_pos hper
        have hmod := Nat.mod_lt (k - a.firstTicks) hpos
        have hsucc : k + 1 - a.firstTicks = k - a.firstTicks + 1 := by omega
        rw [if_pos hper, if_pos hper, if_pos hper, hsucc, Nat.add_mod_eq_ite]
        by_cases hone : a.period.toNat = 1
        · rw [hone]
          simp [Nat.mod_one]
        · rw [Nat.mod_eq_of_lt (by omega : 1 < a.period.toNat)]
          split <;> split <;> omega
      · simp [hper]

theorem Tmr.dueAt_succ (h : a.Valid) : a.DueAt (k + 1) ↔ a.ticksLeft k = 1 := by
  rw [DueAt, ticksLeft]
  by_cases hper : a.opt = optTmrPeriodic
  · have hpos := h.period_pos hper
    rw [if_pos hper, if_pos hper]
    by_cases hk : k < a.firstTicks
    · rw [if_pos hk]
      constructor
      · rintro ⟨hle, -⟩
        omega
      · intro he
        have he' : k + 1 = a.firstTicks := by omega
        rw [he', Nat.sub_self, Nat.zero_mod]
        exact ⟨le_refl _, rfl⟩
    · rw [if_neg hk]
      have hmod := Nat.mod_lt (k - a.firstTicks) hpos
      have hsucc : k + 1 - a.firstTicks = k - a.firstTicks + 1 := by omega
      rw [hsucc, Nat.add_mod_eq_ite]
      by_cases hone : a.period.toNat = 1
      · rw [hone]
        simp [Nat.mod_one]
        omega
      · rw [Nat.mod_eq_of_lt (by omega : 1 < a.period.toNat)]
        split <;> omega
  · rw [if_neg hper, if_neg hper, h.firstTicks_eq hper]
    split <;> omega

end ticks

section runs

/-- What has happened: a call and the error it was answered with, and a turn of the timer task with the callbacks it
ran, the last first. -/
inductive TmrEvent where
  | call (k : TmrCall) (e : Err)
  | tick (fired : List Firing)

/-- The sequences of calls and of turns of the timer task, the last first, from any time of the clock on. In between,
the kernel may do what it does. -/
inductive TmrRun (c : TmrCfg) : List TmrEvent → Sys → Prop
  | init {o : OS} (ho : Schedulable c.cfg o) (start : Tick) : TmrRun c [] (tmrInit o start)
  | call {h : List TmrEvent} {s s' : Sys} {k : TmrCall} {r : Ret} (run : TmrRun c h s) (fair : k.Fair s)
      (exec : Prog.Runs c k.exec s r s') : TmrRun c (.call k r.err :: h) s'
  | tick {h : List TmrEvent} {s s' : Sys} {fired : List Firing} (run : TmrRun c h s) (exec : Prog.Runs c tmrTask s () s')
      (hf : s'.firings = fired ++ s.firings) : TmrRun c (.tick fired :: h) s'
  | kernel {h : List TmrEvent} {s : Sys} {o : OS} (run : TmrRun c h s) (ho : Schedulable c.cfg o) :
    TmrRun c h { s with os := o }

def sinceStart (t : TmrId) : List TmrEvent → Option ℕ
  | [] => none
  | .tick _ :: h => (sinceStart t h).map (· + 1)
  | .call (.start p) e :: h => if p = some t ∧ e = .none then some 0 else sinceStart t h
  | .call (.stop p _ _) e :: h => if p = some t ∧ e ∈ stopErrs then none else sinceStart t h
  | .call (.create p _ _ _ _ _) e :: h => if p = some t ∧ e = .none then none else sinceStart t h
  | .call _ _ :: h => sinceStart t h

def Sys.tmrAt (s : Sys) (i k : ℕ) : Option TmrId := chainAt s.next (s.tmrWheel i).firstPtr k

/-- The wheel is in order, the timers are in the states that the history tells, those that were due have fired in the
last tick and no others, and whatever is called next returns. -/
structure TmrOnTime (c : TmrCfg) (h : List TmrEvent) (s : Sys) : Prop where
  linked : ∀ t, (s.tmr t).state = .running ↔ ∃! x : ℕ × ℕ, x.1 < c.tmrWheelSize ∧ s.tmrAt x.1 x.2 = some t
  spoke : ∀ i < c.tmrWheelSize, ∀ k t, s.tmrAt i k = some t → (s.tmr t).matchCtr.toNat % c.tmrWheelSize = i
  sorted : ∀ i < c.tmrWheelSize, ∀ j k x y, j < k → s.tmrAt i j = some x → s.tmrAt i k = some y →
    (s.tmr x).matchCtr - s.tmrTickCtr ≤ (s.tmr y).matchCtr - s.tmrTickCtr
  running : ∀ t, (s.tmr t).state = .running ↔
    ∃ k, sinceStart t h = some k ∧ ((s.tmr t).opt = optTmrPeriodic ∨ k < (s.tmr t).dly.toNat)
  completed : ∀ t k, sinceStart t h = some k → (s.tmr t).opt ≠ optTmrPeriodic → (s.tmr t).dly.toNat ≤ k →
    (s.tmr t).state = .completed
  fires : ∀ fired h', h = .tick fired :: h' → fired.Nodup ∧ ∀ x : Firing, x ∈ fired ↔
    (s.tmr x.tmr).callbackPtr = some x.fnct ∧ (s.tmr x.tmr).callbackPtrArg = x.arg ∧
      ∃ k, sinceStart x.tmr h' = some k ∧ (s.tmr x.tmr).DueAt (k + 1)
  returns : (∀ k : TmrCall, k.Fair s → ∃ r s', Prog.Runs c k.exec s r s') ∧ ∃ s', Prog.Runs c tmrTask s () s'

def Kept (s : Sys) (t : TmrId) : Option ℕ → Prop
  | none => (s.tmr t).state ≠ .running
  | some k => (s.tmr t).isTmr = true ∧
    if (s.tmr t).ticksLeft k = 0 then (s.tmr t).state = .completed
    else (s.tmr t).state = .running ∧ (s.left t).toNat = (s.tmr t).ticksLeft k

structure TmrInv (c : TmrCfg) (h : List TmrEvent) (s : Sys) (V : ℕ → List TmrId) (ts : List TmrId) : Prop where
  ok : TmrOk c s V
  mem : ∀ x, (s.tmr x).state = .running → x ∈ ts
  kept : ∀ t, Kept s t (sinceStart t h)

variable {h : List TmrEvent} {ts : List TmrId}

theorem Tmr.ticksLeft_congr {a b : Tmr} (hab : a.args = b.args) (k : ℕ) : a.ticksLeft k = b.ticksLeft k := by
  have hopt : a.opt = b.opt := (congrArg Tmr.opt hab :)
  have hper : a.period = b.period := (congrArg Tmr.period hab :)
  have hdly : a.dly = b.dly := (congrArg Tmr.dly hab :)
  rw [ticksLeft, ticksLeft, firstTicks, firstTicks, hopt, hper, hdly]

theorem args_of_core {a b : Tmr} (h : a.core = b.core) : a.args = b.args := (congrArg Tmr.args h :)

theorem Kept.congr {r : Option ℕ} (hk : Kept s t r) (htmr : (s'.tmr t).core = (s.tmr t).core)
    (hctr : s'.tmrTickCtr = s.tmrTickCtr) : Kept s' t r := by
  have hst : (s'.tmr t).state = (s.tmr t).state := (congrArg Tmr.state htmr :)
  have his : (s'.tmr t).isTmr = (s.tmr t).isTmr := (congrArg Tmr.isTmr htmr :)
  have hleft : s'.left t = s.left t := by
    have hdue : s'.due t = s.due t := (congrArg Tmr.matchCtr htmr :)
    rw [Sys.left, Sys.left, hdue, hctr]
  cases r with
  | none =>
    rw [Kept, hst]
    exact hk
  | some k =>
    rw [Kept, hst, his, hleft, Tmr.ticksLeft_congr (args_of_core htmr)]
    exact hk

theorem Kept.started (htmr : (s'.tmr t).core = ((s.tmr t).linked optLinkDly s.tmrTickCtr).core)
    (hctr : s'.tmrTickCtr = s.tmrTickCtr) (hmade : (s.tmr t).isTmr = true) (hv : (s.tmr t).Valid) : Kept s' t (some 0) := by
  have hst : (s'.tmr t).state = .running := (congrArg Tmr.state htmr :)
  have his : (s'.tmr t).isTmr = (s.tmr t).isTmr := (congrArg Tmr.isTmr htmr :)
  have hargs : (s'.tmr t).args = (s.tmr t).args := (args_of_core htmr :)
  have hdue : s'.due t = linkTicks (s.tmr t) optLinkDly + s.tmrTickCtr := (congrArg Tmr.matchCtr htmr :)
  have hfirst : (linkTicks (s.tmr t) optLinkDly).toNat = (s.tmr t).firstTicks := by
    rw [linkTicks, if_neg (by decide), Tmr.firstTicks]
    split <;> rfl
  have hpos : (s.tmr t).firstTicks ≠ 0 := by
    rw [← hfirst]
    intro hz
    exact linkTicks_ne_zero hv (BitVec.eq_of_toNat_eq hz)
  have hleft : (s.tmr t).ticksLeft 0 = (s.tmr t).firstTicks := by
    rw [Tmr.ticksLeft, if_pos (Nat.pos_of_ne_zero hpos), Nat.sub_zero]
  refine ⟨his.trans hmade, ?_⟩
  rw [Tmr.ticksLeft_congr hargs, hleft, if_neg hpos]
  refine ⟨hst, ?_⟩
  rw [Sys.left, hdue, hctr, BitVec.add_sub_cancel, hfirst]

variable {D : List TmrId} {V' : ℕ → List TmrId}

theorem Kept.mem_iff (hk : Kept s t (sinceStart t h)) (hF : Fired c s.ticked D s' V')
    (ha : Wheel.Ahead s'.tmrTickCtr s'.due V') :
    t ∈ D ↔ ∃ k, sinceStart t h = some k ∧ (s.tmr t).ticksLeft k = 1 := by
  have hD : t ∈ D ↔ (s.tmr t).state = .running ∧ s.due t = s.tmrTickCtr + 1 := hF.mem_iff ha t
  rw [hD]
  cases hs : sinceStart t h with
  | none =>
    rw [hs] at hk
    simp only [reduceCtorEq, false_and, exists_false, iff_false, not_and]
    exact fun hrun => absurd hrun hk
  | some k =>
    rw [hs] at hk
    obtain ⟨hmade, hk⟩ := hk
    simp only [Option.some.injEq, exists_eq_left']
    split at hk
    · rename_i hz
      rw [hk, hz]
      simp
    · rename_i hnz
      have hne : s.due t ≠ s.tmrTickCtr := by
        intro he
        apply hnz
        rw [← hk.2]
        exact Wheel.left_eq_zero.mpr he
      have hsucc := Wheel.left_succ hne
      have hzero : (s.due t - (s.tmrTickCtr + 1)).toNat = 0 ↔ s.due t = s.tmrTickCtr + 1 := Wheel.left_eq_zero
      have hleft : (s.due t - s.tmrTickCtr).toNat = (s.tmr t).ticksLeft k := hk.2
      rw [and_iff_right hk.1, ← hzero]
      omega

theorem Kept.ticked (hk : Kept s t (sinceStart t h)) (hF : Fired c s.ticked D s' V') (ha : Wheel.Ahead s'.tmrTickCtr s'.due V')
    (hv : (s.tmr t).isTmr = true → (s.tmr t).Valid) : Kept s' t ((sinceStart t h).map (· + 1)) := by
  have hD := hk.mem_iff hF ha
  have htmr : (s'.tmr t).core = if t ∈ D then ((s.tmr t).fired (s.tmrTickCtr + 1)).core else (s.tmr t).core := hF.tmr t
  have hctr : s'.tmrTickCtr = s.tmrTickCtr + 1 := hF.ctr
  have hargs : (s'.tmr t).args = (s.tmr t).args := hF.args t
  have his : (s'.tmr t).isTmr = (s.tmr t).isTmr := (congrArg Tmr.isTmr hargs :)
  cases hs : sinceStart t h with
  | none =>
    rw [hs] at hk hD
    rw [if_neg (by simp [hD])] at htmr
    have hst : (s'.tmr t).state = (s.tmr t).state := (congrArg Tmr.state htmr :)
    rw [Option.map_none, Kept, hst]
    exact hk
  | some k =>
    rw [hs] at hk hD
    obtain ⟨hmade, hk⟩ := hk
    simp only [Option.some.injEq, exists_eq_left'] at hD
    rw [Option.map_some]
    refine ⟨his.trans hmade, ?_⟩
    rw [Tmr.ticksLeft_congr hargs, Tmr.ticksLeft_succ (hv hmade)]
    by_cases hone : (s.tmr t).ticksLeft k = 1
    · rw [if_pos (hD.mpr hone), Tmr.fired] at htmr
      rw [if_pos hone]
      by_cases hper : (s.tmr t).opt = optTmrPeriodic
      · rw [if_pos hper] at htmr
        have hdue : s'.due t = (s.tmr t).period + (s.tmrTickCtr + 1) := (congrArg Tmr.matchCtr htmr :)
        have hpos := (hv hmade).period_pos hper
        rw [if_pos hper, if_neg (by omega)]
        refine ⟨(congrArg Tmr.state htmr :), ?_⟩
        rw [Sys.left, hdue, hctr, BitVec.add_sub_cancel]
      · rw [if_neg hper] at htmr
        rw [if_neg hper, if_pos rfl]
        exact (congrArg Tmr.state htmr :)
    · rw [if_neg (mt hD.mp hone)] at htmr
      have hst : (s'.tmr t).state = (s.tmr t).state := (congrArg Tmr.state htmr :)
      rw [if_neg hone, hst]
      split at hk
      · rename_i hz
        rw [if_pos (by omega)]
        exact hk
      · rename_i hnz
        have hne : s.due t ≠ s.tmrTickCtr := by
          intro he
          apply hnz
          rw [← hk.2]
          exact Wheel.left_eq_zero.mpr he
        have hsucc := Wheel.left_succ hne
        have hleft : (s.due t - s.tmrTickCtr).toNat = (s.tmr t).ticksLeft k := hk.2
        have hdue : s'.due t = s.due t := (congrArg Tmr.matchCtr htmr :)
        rw [if_neg (by omega)]
        refine ⟨hk.1, ?_⟩
        rw [Sys.left, hdue, hctr]
        omega

def TmrCall.tmr : TmrCall → Option TmrId
  | create p .. | start p | stop p .. | remainGet p | stateGet p => p

theorem TmrCall.effect_of_ne {k : TmrCall} {now : Tick} {e : Err} {x : TmrId} (hx : k.tmr ≠ some x) (a : Tmr) :
    k.effect now e x a = a := by
  cases k with
  | create p dly period opt callback arg => exact if_neg fun h => hx h.1
  | start p => exact if_neg fun h => hx h.1
  | stop p opt arg => exact if_neg fun h => hx h.1
  | remainGet p => rfl
  | stateGet p => rfl

theorem Kept.called {k : TmrCall} {e : Err} (hk : Kept s t (sinceStart t h)) (hok : TmrOk c s V)
    (hafter : TmrAfter c s (k.effect s.tmrTickCtr e) s') : Kept s' t (sinceStart t (.call k e :: h)) := by
  obtain ⟨⟨V', hok'⟩, hctr, htmr⟩ := hafter
  have ht := htmr t
  cases k with
  | create p dly period opt callback arg =>
    rw [sinceStart]
    rw [TmrCall.effect] at ht
    split
    · rename_i he
      rw [if_pos he] at ht
      have hst : (s'.tmr t).state = .stopped := (congrArg Tmr.state ht :)
      rw [Kept, hst]
      decide
    · rename_i he
      rw [if_neg he] at ht
      exact hk.congr ht hctr
  | start p =>
    rw [sinceStart]
    rw [TmrCall.effect] at ht
    split
    · rename_i he
      rw [if_pos he] at ht
      have hrun : (s'.tmr t).state = .running := (congrArg Tmr.state ht :)
      obtain ⟨i, hi⟩ := (hok'.order.lists.running t).mp hrun
      have hmade : (s.tmr t).isTmr = true := by
        rw [← hok'.order.made i t hi]
        exact (congrArg Tmr.isTmr ht.symm :)
      exact Kept.started ht hctr hmade (hok.order.valid t hmade)
    · rename_i he
      rw [if_neg he] at ht
      exact hk.congr ht hctr
  | stop p opt arg =>
    rw [sinceStart]
    rw [TmrCall.effect] at ht
    split
    · rename_i he
      rw [if_pos he] at ht
      have hst : (s'.tmr t).state = .stopped := (congrArg Tmr.state ht :)
      rw [Kept, hst]
      decide
    · rename_i he
      rw [if_neg he] at ht
      exact hk.congr ht hctr
  | remainGet p => exact hk.congr ht hctr
  | stateGet p => exact hk.congr ht hctr

variable {k : ℕ}

theorem TmrInv.called {call : TmrCall} {e : Err} (hI : TmrInv c h s V ts)
    (hafter : TmrAfter c s (call.effect s.tmrTickCtr e) s') : ∃ V' ts', TmrInv c (.call call e :: h) s' V' ts' := by
  obtain ⟨⟨V', hok'⟩, hctr, htmr⟩ := id hafter
  refine ⟨V', call.tmr.toList ++ ts, hok', fun x hx => ?_, fun t => (hI.kept t).called hI.ok hafter⟩
  rw [List.mem_append, Option.mem_toList]
  by_cases hxt : call.tmr = some x
  · exact .inl hxt
  · have hx' := htmr x
    rw [TmrCall.effect_of_ne hxt] at hx'
    right
    apply hI.mem
    rw [← hx]
    exact (congrArg Tmr.state hx'.symm :)

theorem TmrInv.ticked {fired : List Firing} (hI : TmrInv c h s V ts) (hF : Fired c s.ticked D s' V')
    (ha : Wheel.Ahead s'.tmrTickCtr s'.due V') : TmrInv c (.tick fired :: h) s' V' ts where
  ok := ⟨hF.order, ha, hF.os⟩
  mem := hF.running hI.mem
  kept t := (hI.kept t).ticked hF ha (hI.ok.order.valid t)

theorem tmrInv_of_run (hc : CallbacksReturn c k) (run : TmrRun c h s) : ∃ V ts, TmrInv c h s V ts := by
  induction run with
  | init ho start =>
    refine ⟨fun _ => [], [], ⟨⟨⟨fun i _ => ⟨none, .nil⟩, fun i _ => rfl, by simp, fun x => ?_⟩, ⟨by simp, by simp⟩, fun t ht => ?_, by simp⟩,
      fun i x hx => by simp at hx, ho⟩, fun x hx => ?_, fun t => ?_⟩
    · simp [tmrInit]
    · cases ht
    · cases hx
    · exact fun hx => by cases hx
  | call run fair exec ih =>
    obtain ⟨V, ts, hI⟩ := ih
    apply hI.called
    apply exec.twp (k := max k (ts.length + 1))
    intro n hn
    exact tmrCall_spec _ hc (by omega) hI.ok hI.mem (by omega) fair
  | tick run exec hf ih =>
    obtain ⟨V, ts, hI⟩ := ih
    obtain ⟨D, V', hF, ha⟩ := exec.twp (k := max k (ts.length + 1)) fun n hn =>
      tmrTask_spec hc (by omega) hI.ok.order hI.ok.ahead hI.mem (by omega) hI.ok.os
    exact ⟨V', ts, hI.ticked hF ha⟩
  | kernel run ho ih =>
    obtain ⟨V, ts, hI⟩ := ih
    exact ⟨V, ts, hI.ok.kernel ho, hI.mem, fun t => (hI.kept t).congr rfl rfl⟩

theorem TmrLists.tmrAt_eq {W : ℕ} (hV : TmrLists W s V) (hi : i < W) (k : ℕ) : s.tmrAt i k = (V i)[k]? := by
  obtain ⟨tail, hl⟩ := hV.list i hi
  exact hl.chainAt_eq k

theorem TmrLists.linked {W : ℕ} (hV : TmrLists W s V) (hW : 0 < W) :
    (s.tmr t).state = .running ↔ ∃! x : ℕ × ℕ, x.1 < W ∧ s.tmrAt x.1 x.2 = some t := by
  rw [hV.running]
  constructor
  · rintro ⟨i, hti⟩
    have hi : i < W := by
      rw [← hV.hash i t hti]
      exact Nat.mod_lt _ hW
    obtain ⟨j, hj⟩ := List.mem_iff_getElem?.mp hti
    refine ⟨(i, j), ⟨hi, (hV.tmrAt_eq hi j).trans hj⟩, ?_⟩
    rintro ⟨i', j'⟩ ⟨hi', hj'⟩
    rw [hV.tmrAt_eq hi'] at hj'
    obtain rfl : i' = i := hV.disjoint (List.mem_of_getElem? hj') hti
    have hlt : j' < (V i').length := (List.getElem?_eq_some_iff.mp hj').1
    obtain rfl : j' = j := (List.getElem?_inj hlt (hV.nodup hW hti)).mp (hj'.trans hj.symm)
    rfl
  · rintro ⟨⟨i, j⟩, ⟨hi, hj⟩, -⟩
    rw [hV.tmrAt_eq hi] at hj
    exact ⟨i, List.mem_of_getElem? hj⟩

theorem TmrInv.running_iff (hI : TmrInv c h s V ts) : (s.tmr t).state = .running ↔
    ∃ k, sinceStart t h = some k ∧ ((s.tmr t).opt = optTmrPeriodic ∨ k < (s.tmr t).dly.toNat) := by
  have hk := hI.kept t
  cases hs : sinceStart t h with
  | none =>
    rw [hs] at hk
    simp only [reduceCtorEq, false_and, exists_false, iff_false]
    exact hk
  | some k =>
    rw [hs] at hk
    obtain ⟨hmade, hk⟩ := hk
    have hv := hI.ok.order.valid t hmade
    have hleft : (s.tmr t).ticksLeft k ≠ 0 ↔ (s.tmr t).opt = optTmrPeriodic ∨ k < (s.tmr t).dly.toNat := by
      rw [Tmr.ticksLeft]
      by_cases hper : (s.tmr t).opt = optTmrPeriodic
      · have hmod := Nat.mod_lt (k - (s.tmr t).firstTicks) (hv.period_pos hper)
        simp only [hper, if_true, true_or, iff_true]
        split <;> omega
      · rw [if_neg hper, hv.firstTicks_eq hper]
        simp only [hper, false_or]
        split <;> omega
    simp only [Option.some.injEq, exists_eq_left', ← hleft]
    split at hk
    · rename_i hz
      rw [hk, hz]
      simp
    · rename_i hnz
      exact iff_of_true hk.1 hnz

theorem TmrInv.completed (hI : TmrInv c h s V ts) {k : ℕ} (hs : sinceStart t h = some k)
    (hper : (s.tmr t).opt ≠ optTmrPeriodic) (hk : (s.tmr t).dly.toNat ≤ k) : (s.tmr t).state = .completed := by
  have hkept := hI.kept t
  rw [hs] at hkept
  obtain ⟨hmade, hkept⟩ := hkept
  have hz : (s.tmr t).ticksLeft k = 0 := by
    rw [Tmr.ticksLeft, (hI.ok.order.valid t hmade).firstTicks_eq hper, if_neg (by omega), if_neg hper]
  rwa [if_pos hz] at hkept

theorem Sys.firing_eq_some {x : Firing} : s.firing t = some x ↔
    t = x.tmr ∧ (s.tmr x.tmr).callbackPtr = some x.fnct ∧ (s.tmr x.tmr).callbackPtrArg = x.arg := by
  rw [firing, Option.map_eq_some_iff]
  constructor
  · rintro ⟨f, hf, rfl⟩
    exact ⟨rfl, hf, rfl⟩
  · rintro ⟨rfl, hf, ha⟩
    exact ⟨x.fnct, hf, by rw [ha]⟩

theorem TmrInv.fires {fired : List Firing} (hI : TmrInv c h s V ts) (hF : Fired c s.ticked D s' V')
    (ha : Wheel.Ahead s'.tmrTickCtr s'.due V') (hf : s'.firings = fired ++ s.firings) : fired.Nodup ∧ ∀ x : Firing, x ∈ fired ↔
    (s'.tmr x.tmr).callbackPtr = some x.fnct ∧ (s'.tmr x.tmr).callbackPtrArg = x.arg ∧
      ∃ k, sinceStart x.tmr h = some k ∧ (s'.tmr x.tmr).DueAt (k + 1) := by
  have hfired : fired = (D.filterMap s.ticked.firing).reverse := by
    have happ := hf.symm.trans hF.firings
    exact List.append_cancel_right happ
  rw [hfired]
  constructor
  · rw [List.nodup_reverse]
    apply hF.nodup.filterMap
    intro a b x hax hbx
    rw [Option.mem_def, Sys.firing_eq_some] at hax hbx
    rw [hax.1, hbx.1]
  · intro x
    have hargs : (s'.tmr x.tmr).args = (s.tmr x.tmr).args := hF.args x.tmr
    have hcb : (s'.tmr x.tmr).callbackPtr = (s.tmr x.tmr).callbackPtr := (congrArg Tmr.callbackPtr hargs :)
    have harg : (s'.tmr x.tmr).callbackPtrArg = (s.tmr x.tmr).callbackPtrArg := (congrArg Tmr.callbackPtrArg hargs :)
    have hdue : (∃ k, sinceStart x.tmr h = some k ∧ (s'.tmr x.tmr).DueAt (k + 1)) ↔ x.tmr ∈ D := by
      rw [(hI.kept x.tmr).mem_iff hF ha]
      refine exists_congr fun k => and_congr_right fun hs => ?_
      have hkept := hI.kept x.tmr
      rw [hs] at hkept
      have hv := (hI.ok.order.valid x.tmr hkept.1).congr hargs
      rw [Tmr.dueAt_succ hv, Tmr.ticksLeft_congr hargs]
    rw [List.mem_reverse, List.mem_filterMap, hcb, harg, hdue]
    constructor
    · rintro ⟨t, ht, hx⟩
      obtain ⟨rfl, h₁, h₂⟩ := Sys.firing_eq_some.mp hx
      exact ⟨h₁, h₂, ht⟩
    · rintro ⟨h₁, h₂, ht⟩
      exact ⟨x.tmr, ht, Sys.firing_eq_some.mpr ⟨rfl, h₁, h₂⟩⟩

theorem tmrRun_fires {fired : List Firing} (hc : CallbacksReturn c k) (run : TmrRun c (.tick fired :: h) s) :
    fired.Nodup ∧ ∀ x : Firing, x ∈ fired ↔ (s.tmr x.tmr).callbackPtr = some x.fnct ∧ (s.tmr x.tmr).callbackPtrArg = x.arg ∧
      ∃ k, sinceStart x.tmr h = some k ∧ (s.tmr x.tmr).DueAt (k + 1) := by
  generalize hg : TmrEvent.tick fired :: h = g at run
  induction run with
  | init ho start => cases hg
  | call run fair exec ih => cases hg
  | tick run exec hf ih =>
    cases hg
    obtain ⟨V, ts, hI⟩ := tmrInv_of_run hc run
    obtain ⟨D, V', hF, ha⟩ := exec.twp (k := max k (ts.length + 1)) fun n hn =>
      tmrTask_spec hc (by omega) hI.ok.order hI.ok.ahead hI.mem (by omega) hI.ok.os
    exact hI.fires hF ha hf
  | kernel run ho ih => exact ih hg

end runs

end UcosIII
