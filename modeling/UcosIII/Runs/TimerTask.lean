import UcosIII.Lists.Timer
import UcosIII.Runs.ReadyTable

namespace UcosIII

open Prog

variable {n : ℕ} {c : TmrCfg} {s s' : Sys} {V : ℕ → List TmrId} {t : TmrId} {i : ℕ} {o : OS}

section kernel

def Schedulable (cfg : Cfg) (o : OS) : Prop := ∃ R p, RdyRep cfg o R ∧ R p ≠ []

theorem Schedulable.congr {cfg : Cfg} {o' : OS} (h : Schedulable cfg o) (htcb : o'.tcb = o.tcb) (hl : o'.rdyList = o.rdyList)
    (hb : o'.prioTbl = o.prioTbl) : Schedulable cfg o' := by
  obtain ⟨R, p, hR, hp⟩ := h
  have hn : o'.rdyNext = o.rdyNext := by
    funext x
    rw [OS.rdyNext, htcb]
    rfl
  have hpr : o'.rdyPrev = o.rdyPrev := by
    funext x
    rw [OS.rdyPrev, htcb]
    rfl
  exact ⟨R, p, hR.congr hn hpr hl hb, hp⟩

theorem reschedule_returns {cfg : Cfg} (h : Schedulable cfg o) :
    twp n cfg reschedule (fun _ o' => Schedulable cfg o') o := by
  obtain ⟨R, p, hR, hp⟩ := h
  obtain ⟨q, hq, hbest⟩ := prioGetHighest_returns (n := n) hR hp
  have hlt : q < cfg.prioMax := by
    by_contra hcon
    exact hbest.1 (hR.lists.beyond q (by omega))
  have hhead : (o.rdyList q).headPtr ≠ none := by
    rw [(hR.lists.list q hlt).head_eq]
    exact mt List.head?_eq_none_iff.mp hbest.1
  obtain ⟨x, hx⟩ := Option.ne_none_iff_exists'.mp hhead
  have hhigh : twp n cfg prioGetHighest (fun p o' => p = q ∧ o' = o) o := ⟨q, o, hq, rfl, rfl⟩
  have hrdy : twp n cfg (getRdyList q) (fun l o' => l = o.rdyList q ∧ o' = o) o := by
    simp [getRdyList, hlt]
  rw [reschedule, twp_bind]
  refine hhigh.mono ?_
  rintro _ o' ⟨rfl, rfl⟩
  rw [twp_bind]
  refine hrdy.mono ?_
  rintro _ o' ⟨rfl, rfl⟩
  rw [twp_bind, twp_modify, twp_bind, twp_get, twp_ite]
  have hsame : Schedulable cfg o' := ⟨R, p, hR, hp⟩
  refine ⟨fun _ => twp_pure.mpr (hsame.congr rfl rfl rfl), fun _ => ?_⟩
  rw [twp_bind, twp_deref]
  refine ⟨x, hx, ?_⟩
  rw [ctxSw, twp_modify]
  exact hsame.congr rfl rfl rfl

theorem osSchedLock_returns {cfg : Cfg} (h : Schedulable cfg o) :
    twp n cfg osSchedLock (fun _ o' => Schedulable cfg o') o := by
  simp only [osSchedLock, twp_bind, twp_get, twp_ite, twp_pure, twp_modify]
  exact ⟨fun _ => h, fun _ => ⟨fun _ => h, fun _ => ⟨fun _ => h, fun _ => h.congr rfl rfl rfl⟩⟩⟩

theorem osSchedUnlock_returns {cfg : Cfg} (h : Schedulable cfg o) :
    twp n cfg osSchedUnlock (fun _ o' => Schedulable cfg o') o := by
  simp only [osSchedUnlock, osSched, twp_bind, twp_get, twp_ite, twp_pure, twp_modify]
  have hdec : Schedulable cfg { o with schedLockNestingCtr := o.schedLockNestingCtr - 1 } := h.congr rfl rfl rfl
  refine ⟨fun _ => h, fun _ => ⟨fun _ => h, fun _ => ⟨fun _ => h, fun _ => ⟨fun _ => hdec, fun _ =>
    ⟨fun _ => hdec, fun _ => ⟨fun _ => hdec, fun _ => ?_⟩⟩⟩⟩⟩⟩
  exact (reschedule_returns hdec).mono fun _ o' h' => twp_pure.mpr h'

theorem run_schedulable {cfg : Cfg} {h : List Step} {o : OS}
    (run : Run cfg (fun _ x => ¬ PassedMatch cfg x.pre x.event ∧ ¬ IdleStops x.pre x.event x.ret) h o) : Schedulable cfg o := by
  obtain ⟨a, H, hidle⟩ := run.invariant (I := fun _ a => (a.task idleTaskTCB).state = .rdy) (fun _ _ => And.left) rfl
    fun _ _ _ _ _ _ H hs _ hk hstep => hstep.idle H.sound hk.1 hk.2 hs
  have hmem := (H.sound.ready idleTaskTCB _).mpr ⟨hidle, rfl⟩
  exact ⟨a.ready, _, H.rep.rdy, List.ne_nil_of_mem hmem⟩

end kernel

section order

def Tmr.args (a : Tmr) : Tmr := { a.core with matchCtr := 0, state := .unused }

def Tmr.Valid (a : Tmr) : Prop := a.opt = optTmrPeriodic ∧ a.period ≠ 0 ∨ a.opt = optTmrOneShot ∧ a.dly ≠ 0

theorem Tmr.Valid.congr {a b : Tmr} (h : a.Valid) (hab : b.args = a.args) : b.Valid := by
  have hopt : b.opt = a.opt := (congrArg Tmr.opt hab :)
  have hper : b.period = a.period := (congrArg Tmr.period hab :)
  have hdly : b.dly = a.dly := (congrArg Tmr.dly hab :)
  rw [Valid, hopt, hper, hdly]
  exact h

theorem Sys.args_eq {f : Tmr → Tmr} (hcore : s'.core = (s.modTmr t f).core) (hf : (f (s.tmr t)).args = (s.tmr t).args)
    (x : TmrId) : (s'.tmr x).args = (s.tmr x).args := by
  have hx : (s'.tmr x).args = ((s.modTmr t f).tmr x).args := (congrArg (fun y : Sys => (y.tmr x).args) hcore :)
  rw [hx, modTmr_tmr]
  split
  · rename_i hxt
    rw [hxt, hf]
  · rfl

structure TmrOrder (W : ℕ) (s : Sys) (V : ℕ → List TmrId) : Prop where
  lists : TmrLists W s V
  sorted : Wheel.Sorted W s.tmrTickCtr s.due V
  valid : ∀ t, (s.tmr t).isTmr = true → (s.tmr t).Valid
  made : ∀ i, ∀ t ∈ V i, (s.tmr t).isTmr = true

theorem TmrLists.length_le {W : ℕ} {ts : List TmrId} (h : TmrLists W s V) (hW : 0 < W)
    (hts : ∀ x, (s.tmr x).state = .running → x ∈ ts) (i : ℕ) : (V i).length ≤ ts.length := by
  have hsub : V i ⊆ ts := fun x hx => hts x ((h.running x).mpr ⟨i, hx⟩)
  have hnd : (V i).Nodup := by
    by_cases hi : i < W
    · obtain ⟨tail, hl⟩ := h.list i hi
      exact hl.dlist.nodup
    · have hnil : V i = [] := by
        apply List.eq_nil_iff_forall_not_mem.mpr
        intro x hx
        have := h.hash i x hx
        have := Nat.mod_lt (s.due x).toNat hW
        omega
      rw [hnil]
      exact List.nodup_nil
  exact (List.subperm_of_subset hnd hsub).length_le

theorem TmrOrder.of_args {W : ℕ} {V' : ℕ → List TmrId} (h : TmrOrder W s V) (hargs : ∀ x, (s'.tmr x).args = (s.tmr x).args)
    (hlists : TmrLists W s' V') (hsorted : Wheel.Sorted W s'.tmrTickCtr s'.due V')
    (hmade : ∀ i, ∀ x ∈ V' i, (s.tmr x).isTmr = true) : TmrOrder W s' V' := by
  have his : ∀ x, (s'.tmr x).isTmr = (s.tmr x).isTmr := fun x => (congrArg Tmr.isTmr (hargs x) :)
  refine ⟨hlists, hsorted, fun x hx => ?_, fun i x hx => ?_⟩
  · rw [his] at hx
    exact (h.valid x hx).congr (hargs x)
  · rw [his]
    exact hmade i x hx

theorem tmrUnlink_order (h : TmrOrder c.tmrWheelSize s V) (ht : t ∈ V i) :
    twp n c (tmrUnlink t) (fun _ s' => TmrOrder c.tmrWheelSize s' (Function.update V i ((V i).erase t)) ∧
      s'.core = (s.modTmr t Tmr.unlinked).core) s := by
  refine (tmrUnlink_spec h.lists ht).mono ?_
  rintro _ s' ⟨hlists, hcore⟩
  have hctr : s'.tmrTickCtr = s.tmrTickCtr := (congrArg Sys.tmrTickCtr hcore :)
  have hdue : ∀ x, s'.due x = s.due x := by
    intro x
    have hx : s'.due x = (s.modTmr t Tmr.unlinked).due x := (congrArg (fun y : Sys => y.due x) hcore :)
    rw [hx, Sys.due, Sys.modTmr_tmr]
    split
    · rename_i hxt
      rw [hxt]
      rfl
    · rfl
  have hsub : ∀ j, (Function.update V i ((V i).erase t) j).Sublist (V j) := by
    intro j
    by_cases hj : j = i
    · subst hj
      rw [Function.update_self]
      exact List.erase_sublist
    · rw [Function.update_of_ne hj]
  refine ⟨h.of_args (Sys.args_eq hcore rfl) hlists ?_ fun j x hx => h.made j x ((hsub j).mem hx), hcore⟩
  rw [hctr]
  exact h.sorted.sub hsub fun _ x _ => hdue x

theorem tmrLink_order {opt : Opt} (h : TmrOrder c.tmrWheelSize s V) (ht : ∀ i, t ∉ V i) (hmade : (s.tmr t).isTmr = true)
    (hn : ∀ i, (V i).length < n) :
    twp n c (tmrLink t opt) (fun _ s' => ∃ i xs ys, TmrAdded c.tmrWheelSize s s' V t opt i xs ys ∧
      TmrOrder c.tmrWheelSize s' (Function.update V i (xs ++ t :: ys))) s := by
  refine (tmrLink_spec h.lists ht hn).mono ?_
  rintro _ s' ⟨i, xs, ys, hadd⟩
  have hctr : s'.tmrTickCtr = s.tmrTickCtr := (congrArg Sys.tmrTickCtr hadd.core :)
  have hdue : ∀ x ≠ t, s'.due x = s.due x := by
    intro x hxt
    have hx : s'.due x = (s.modTmr t fun a => a.linked opt s.tmrTickCtr).due x :=
      (congrArg (fun y : Sys => y.due x) hadd.core :)
    rw [hx, Sys.due, Sys.modTmr_tmr, if_neg hxt]
    rfl
  have hsorted : Wheel.Sorted c.tmrWheelSize s'.tmrTickCtr s'.due V := by
    rw [hctr]
    apply h.sorted.congr
    intro j x hx
    exact hdue x fun hxt => ht j (hxt ▸ hx)
  refine ⟨i, xs, ys, hadd, h.of_args (Sys.args_eq hadd.core rfl) hadd.lists ?_ fun j x hx => ?_⟩
  · apply hsorted.insert hadd.split hadd.spoke
    · intro y hy
      exact BitVec.le_of_lt (hadd.before y hy)
    · exact hadd.after
  · by_cases hxt : x = t
    · rw [hxt]
      exact hmade
    · apply h.made j
      by_cases hj : j = i
      · subst hj
        rw [Function.update_self] at hx
        rw [hadd.split]
        simpa [hxt] using hx
      · rwa [Function.update_of_ne hj] at hx

end order

section turn

/-- The callback functions return, and leave the kernel with a task to run. -/
def CallbacksReturn (c : TmrCfg) (k : ℕ) : Prop :=
  ∀ n, k ≤ n → ∀ f t a o, Schedulable c.cfg o → twp n c.cfg (c.callback f t a) (fun _ o' => Schedulable c.cfg o') o

def Sys.firing (s : Sys) (t : TmrId) : Option Firing :=
  (s.tmr t).callbackPtr.map fun f => ⟨f, t, (s.tmr t).callbackPtrArg⟩

def Tmr.fired (a : Tmr) (now : Tick) : Tmr :=
  if a.opt = optTmrPeriodic then a.linked optLinkPeriodic now else { a with state := .completed }

theorem TmrOrder.kernel {W : ℕ} {l : List Firing} (h : TmrOrder W s V) : TmrOrder W { s with os := o, firings := l } V :=
  ⟨⟨h.lists.list, h.lists.count, h.lists.hash, h.lists.running⟩, h.sorted, h.valid, h.made⟩

theorem runCallback_returns {k : ℕ} (hc : CallbacksReturn c k) (hk : k ≤ n) (ho : Schedulable c.cfg s.os) (f : Callback)
    (arg : Option ℕ) :
    twp n c (runCallback f t arg) (fun _ s' => ∃ o, Schedulable c.cfg o ∧
      s' = { s with os := o, firings := ⟨f, t, arg⟩ :: s.firings }) s := by
  rw [runCallback, twp_bind, twp_modify, twp_bind, twp_ask, twp_onKernel]
  exact (hc n hk f t arg s.os ho).mono fun _ o' ho' => ⟨o', ho', rfl⟩

theorem tmrTask_callback {k : ℕ} (hc : CallbacksReturn c k) (hk : k ≤ n) (ho : Schedulable c.cfg s.os) (q : Option TmrId) :
    twp n c (do
        match (← getTmr t).callbackPtr with
        | none => pure ()
        | some f => runCallback f t (← getTmr t).callbackPtrArg
        return (.inl q : Option TmrId ⊕ Unit))
      (fun r s' => r = .inl q ∧ ∃ o, Schedulable c.cfg o ∧
        s' = { s with os := o, firings := (s.firing t).toList ++ s.firings }) s := by
  rw [twp_bind, twp_getTmr, Sys.firing]
  cases (s.tmr t).callbackPtr with
  | none => exact twp_pure.mpr ⟨rfl, s.os, ho, rfl⟩
  | some f =>
    dsimp only
    rw [twp_bind, twp_getTmr, twp_bind]
    refine (runCallback_returns hc hk ho f _).mono ?_
    rintro _ s' ⟨o, ho', rfl⟩
    exact twp_pure.mpr ⟨rfl, o, ho', rfl⟩

/-- The walk of the timer task goes on with `p`: the first timer of the spoke, unless none is due any more. -/
def GoesOn (s : Sys) (V : ℕ → List TmrId) (i : ℕ) (p : Option TmrId) : Prop :=
  p = (V i).head? ∨ Wheel.Ahead s.tmrTickCtr s.due V ∧ ∀ x, p = some x → s.due x ≠ s.tmrTickCtr

theorem TmrOrder.modTmr_off {W : ℕ} {f : Tmr → Tmr} (h : TmrOrder W s V) (ht : ∀ i, t ∉ V i)
    (hf : (f (s.tmr t)).state ≠ .running)
    (hv : (f (s.tmr t)).Valid ∨ (f (s.tmr t)).args = (s.tmr t).args) : TmrOrder W (s.modTmr t f) V := by
  have hother : ∀ x ≠ t, (s.modTmr t f).tmr x = s.tmr x := by
    intro x hxt
    rw [Sys.modTmr_tmr, if_neg hxt]
  have hne : ∀ i, ∀ x ∈ V i, x ≠ t := fun i x hx hxt => ht i (hxt ▸ hx)
  refine ⟨h.lists.modTmr_off ht hf, ?_, fun x hx => ?_, fun i x hx => ?_⟩
  · apply h.sorted.congr
    intro i x hx
    rw [Sys.due, hother x (hne i x hx)]
    rfl
  · by_cases hxt : x = t
    · subst hxt
      rw [Sys.modTmr_tmr, if_pos rfl] at hx ⊢
      rcases hv with hv | hargs
      · exact hv
      · refine (h.valid x ?_).congr hargs
        rw [← hx]
        exact (congrArg Tmr.isTmr hargs.symm :)
    · rw [hother x hxt] at hx ⊢
      exact h.valid x hx
  · rw [hother x (hne i x hx)]
    exact h.made i x hx

theorem not_mem_update_erase {W : ℕ} {L : List TmrId} (h : TmrLists W s V) (hV : V i = t :: L) (hnd : (V i).Nodup) (j : ℕ) :
    t ∉ Function.update V i ((V i).erase t) j := by
  by_cases hj : j = i
  · subst hj
    rw [Function.update_self]
    exact fun ht => (hnd.mem_erase_iff.mp ht).1 rfl
  · rw [Function.update_of_ne hj]
    intro ht
    exact hj (h.disjoint ht (by simp [hV]))

theorem TmrLists.nodup {W : ℕ} (h : TmrLists W s V) (hW : 0 < W) (ht : t ∈ V i) : (V i).Nodup := by
  have hi : i < W := by
    rw [← h.hash i t ht]
    exact Nat.mod_lt _ hW
  obtain ⟨tail, hl⟩ := h.list i hi
  exact hl.dlist.nodup

theorem fire_oneShot {L : List TmrId} (h : TmrOrder c.tmrWheelSize s V) (hopt : (s.tmr t).opt ≠ optTmrPeriodic)
    (hV : V i = t :: L)
    (hcore : s'.core = (s.modTmr t Tmr.unlinked).core)
    (h' : TmrOrder c.tmrWheelSize s' (Function.update V i ((V i).erase t))) :
    ∃ V', TmrOrder c.tmrWheelSize (s'.modTmr t fun a => { a with state := .completed }) V' ∧
      (s'.modTmr t fun a => { a with state := .completed }).core = (s.modTmr t fun a => a.fired s.tmrTickCtr).core ∧
      GoesOn (s'.modTmr t fun a => { a with state := .completed }) V' i L.head? := by
  have hnd := h.lists.nodup c.tmrWheelSize_pos (t := t) (i := i) (by simp [hV])
  refine ⟨_, h'.modTmr_off (not_mem_update_erase h.lists hV hnd) (by simp) (.inr rfl), ?_, .inl ?_⟩
  · rw [Sys.core_modTmr_comp hcore fun a b hab => (congrArg (fun x : Tmr => { x with state := .completed }) hab :)]
    apply congrArg Sys.core
    apply Sys.modTmr_eq
    rw [Tmr.fired, if_neg hopt]
    rfl
  · rw [Function.update_self, hV, List.erase_cons_head]

theorem fire_periodic {L xs ys : List TmrId} {s₁ : Sys} {j : ℕ} (h : TmrOrder c.tmrWheelSize s V)
    (hopt : (s.tmr t).opt = optTmrPeriodic) (hi : s.tmrTickCtr.toNat % c.tmrWheelSize = i) (hV : V i = t :: L)
    (hcore : s₁.core = (s.modTmr t Tmr.unlinked).core)
    (hadd : TmrAdded c.tmrWheelSize s₁ s' (Function.update V i ((V i).erase t)) t optLinkPeriodic j xs ys)
    (h' : TmrOrder c.tmrWheelSize s' (Function.update (Function.update V i ((V i).erase t)) j (xs ++ t :: ys))) :
    ∃ V', TmrOrder c.tmrWheelSize s' V' ∧ s'.core = (s.modTmr t fun a => a.fired s.tmrTickCtr).core ∧
      GoesOn s' V' i L.head? := by
  have hctr₁ : s₁.tmrTickCtr = s.tmrTickCtr := (congrArg Sys.tmrTickCtr hcore :)
  have hctr : s'.tmrTickCtr = s.tmrTickCtr := (congrArg Sys.tmrTickCtr hadd.core :).trans hctr₁
  have hfired : s'.core = (s.modTmr t fun a => a.fired s.tmrTickCtr).core := by
    have hlink : ∀ a b : Tmr, a.core = b.core →
        (a.linked optLinkPeriodic s₁.tmrTickCtr).core = (b.linked optLinkPeriodic s₁.tmrTickCtr).core :=
      fun a b hab => (congrArg (fun x : Tmr => x.linked optLinkPeriodic s₁.tmrTickCtr) hab :)
    rw [hadd.core, Sys.core_modTmr_comp hcore hlink, hctr₁]
    apply congrArg Sys.core
    apply Sys.modTmr_eq
    rw [Tmr.fired, if_pos hopt]
    rfl
  refine ⟨_, h', hfired, ?_⟩
  have hL : Function.update V i ((V i).erase t) i = L := by rw [Function.update_self, hV, List.erase_cons_head]
  by_cases hj : i = j
  · subst hj
    have hsplit := hadd.split
    rw [hL] at hsplit
    cases xs with
    | cons x xs =>
      left
      rw [Function.update_self, hsplit]
      rfl
    | nil =>
      -- `t` is the first of its spoke again, so none is due any more
      right
      have htmr : (s'.tmr t).core = ((s.tmr t).fired s.tmrTickCtr).core := by rw [Sys.tmr_of_core hfired, if_pos rfl]
      have hper : (s.tmr t).period ≠ 0 := by
        rcases h.valid t (h.made i t (by simp [hV])) with hv | hv
        · exact hv.2
        · rw [hopt] at hv
          exact absurd hv.1 (by decide)
      have hdue : s'.due t = (s.tmr t).period + s.tmrTickCtr := by
        rw [Tmr.fired, if_pos hopt] at htmr
        exact (congrArg Tmr.matchCtr htmr :)
      have hne : s'.due t ≠ s'.tmrTickCtr := by
        rw [hdue, hctr]
        intro he
        apply hper
        simpa using he
      constructor
      · apply h'.sorted.ahead
        rw [hctr, hi, Function.update_self]
        rintro x ⟨⟩
        rwa [hctr] at hne
      · intro x hx he
        rw [hsplit] at hx
        have hle := hadd.after x hx
        rw [Sys.left, Sys.left, he, BitVec.sub_self, BitVec.le_def] at hle
        apply hne
        rw [← Wheel.left_eq_zero]
        simpa using hle
  · left
    rw [Function.update_of_ne hj, hL]

structure Fired (c : TmrCfg) (s : Sys) (D : List TmrId) (s₁ : Sys) (V₁ : ℕ → List TmrId) : Prop where
  order : TmrOrder c.tmrWheelSize s₁ V₁
  ctr : s₁.tmrTickCtr = s.tmrTickCtr
  tmr : ∀ x, (s₁.tmr x).core = if x ∈ D then ((s.tmr x).fired s.tmrTickCtr).core else (s.tmr x).core
  due : ∀ x ∈ D, (s.tmr x).state = .running ∧ s.due x = s.tmrTickCtr
  nodup : D.Nodup
  firings : s₁.firings = (D.filterMap s.firing).reverse ++ s.firings
  os : Schedulable c.cfg s₁.os

theorem Tmr.fired_args (a : Tmr) (now : Tick) : (a.fired now).args = a.args := by
  rw [fired]
  split <;> rfl

theorem Tmr.fired_core {a b : Tmr} {now : Tick} (h : a.core = b.core) : (a.fired now).core = (b.fired now).core := by
  have hopt : a.opt = b.opt := (congrArg Tmr.opt h :)
  by_cases hper : b.opt = optTmrPeriodic
  · rw [fired, fired, if_pos hper, if_pos (hopt.trans hper)]
    exact (congrArg (fun x : Tmr => x.linked optLinkPeriodic now) h :)
  · rw [fired, fired, if_neg hper, if_neg fun he => hper (hopt.symm.trans he)]
    exact (congrArg (fun x : Tmr => { x with state := .completed }) h :)

variable {D : List TmrId} {s₁ : Sys}

theorem Fired.args (h : Fired c s D s₁ V) (x : TmrId) : (s₁.tmr x).args = (s.tmr x).args := by
  have hx := congrArg Tmr.args (h.tmr x)
  change (s₁.tmr x).args = _ at hx
  rw [hx]
  split
  · exact Tmr.fired_args _ _
  · rfl

theorem Fired.not_mem (h : Fired c s D s₁ V) (ht : t ∈ V i) (hdue : s₁.due t = s.tmrTickCtr) : t ∉ D := by
  intro hD
  have htmr := h.tmr t
  rw [if_pos hD, Tmr.fired] at htmr
  have hvalid := (h.order.valid t (h.order.made i t ht)).congr (h.args t).symm
  by_cases hopt : (s.tmr t).opt = optTmrPeriodic
  · rw [if_pos hopt] at htmr
    have hd : s₁.due t = (s.tmr t).period + s.tmrTickCtr := (congrArg Tmr.matchCtr htmr :)
    rcases hvalid with hv | hv
    · apply hv.2
      rw [hdue] at hd
      simpa using hd.symm
    · rw [hopt] at hv
      exact absurd hv.1 (by decide)
  · rw [if_neg hopt] at htmr
    have hst : (s₁.tmr t).state = .completed := (congrArg Tmr.state htmr :)
    have hrun := (h.order.lists.running t).mpr ⟨i, ht⟩
    rw [hst] at hrun
    cases hrun

theorem Fired.fire {V' : ℕ → List TmrId} (h : Fired c s D s₁ V) (ht : t ∈ V i) (hdue : s₁.due t = s.tmrTickCtr)
    (h' : TmrOrder c.tmrWheelSize s' V') (hcore : s'.core = (s₁.modTmr t fun a => a.fired s₁.tmrTickCtr).core)
    (ho : Schedulable c.cfg o) :
    Fired c s (D ++ [t]) { s' with os := o, firings := (s'.firing t).toList ++ s'.firings } V' := by
  have hD := h.not_mem ht hdue
  have hctr : s'.tmrTickCtr = s₁.tmrTickCtr := (congrArg Sys.tmrTickCtr hcore :)
  have hfirings : s'.firings = s₁.firings := (congrArg Sys.firings hcore :)
  have hsame : (s₁.tmr t).core = (s.tmr t).core := by rw [h.tmr, if_neg hD]
  have hargs : (s'.tmr t).args = (s.tmr t).args := (Sys.args_eq hcore (Tmr.fired_args _ _) t).trans (h.args t)
  have hfiring : s'.firing t = s.firing t := by
    have hcb : (s'.tmr t).callbackPtr = (s.tmr t).callbackPtr := (congrArg Tmr.callbackPtr hargs :)
    have harg : (s'.tmr t).callbackPtrArg = (s.tmr t).callbackPtrArg := (congrArg Tmr.callbackPtrArg hargs :)
    rw [Sys.firing, Sys.firing, hcb, harg]
  refine ⟨h'.kernel, hctr.trans h.ctr, fun x => ?_, fun x hx => ?_, ?_, ?_, ho⟩
  · have hx := Sys.tmr_of_core hcore x
    by_cases hxt : x = t
    · subst hxt
      rw [if_pos rfl, h.ctr] at hx
      rw [if_pos (by simp), hx]
      exact Tmr.fired_core hsame
    · rw [if_neg hxt, h.tmr] at hx
      simpa [hxt] using hx
  · rcases List.mem_append.mp hx with hx | hx
    · exact h.due x hx
    · rw [List.mem_singleton.mp hx]
      constructor
      · have hst : (s₁.tmr t).state = (s.tmr t).state := (congrArg Tmr.state hsame :)
        rw [← hst]
        exact (h.order.lists.running t).mpr ⟨i, ht⟩
      · rw [← hdue]
        exact (congrArg Tmr.matchCtr hsame.symm :)
  · rw [List.nodup_append]
    refine ⟨h.nodup, by simp, fun x hx y hy hxy => hD ?_⟩
    rwa [← List.mem_singleton.mp hy, ← hxy]
  · rw [hfiring, hfirings, h.firings, List.filterMap_append]
    cases hf : s.firing t <;> simp [hf]

theorem tmrTaskStep_due {k : ℕ} {L : List TmrId} (hc : CallbacksReturn c k) (hk : k ≤ n) (h : Fired c s D s₁ V)
    (hi : s.tmrTickCtr.toNat % c.tmrWheelSize = i) (hV : V i = t :: L) (hdue : s₁.due t = s.tmrTickCtr)
    (hn : ∀ i, (V i).length < n) :
    twp n c (tmrTaskStep (some t)) (fun r s₂ => ∃ V₂, r = .inl L.head? ∧ Fired c s (D ++ [t]) s₂ V₂ ∧
        GoesOn s₂ V₂ i L.head?) s₁ := by
  have hti : t ∈ V i := by simp [hV]
  have hlt : i < c.tmrWheelSize := hi ▸ Nat.mod_lt _ c.tmrWheelSize_pos
  have hnd := h.order.lists.nodup c.tmrWheelSize_pos hti
  have hnext : s₁.next t = L.head? := by
    obtain ⟨tail, hl⟩ := h.order.lists.list i hlt
    rw [hV] at hl
    exact (hl.dlist.links [] t L rfl).1
  have hctr₁ : s₁.tmrTickCtr.toNat % c.tmrWheelSize = i := by rw [h.ctr, hi]
  -- what is left to do once the timer has been unlinked and dealt with
  have hend : ∀ s' : Sys, s'.os = s₁.os → (∃ V', TmrOrder c.tmrWheelSize s' V' ∧
      s'.core = (s₁.modTmr t fun a => a.fired s₁.tmrTickCtr).core ∧ GoesOn s' V' i L.head?) →
      twp n c (do
        match (← getTmr t).callbackPtr with
        | none => pure ()
        | some f => runCallback f t (← getTmr t).callbackPtrArg
        return (.inl L.head? : Option TmrId ⊕ Unit))
      (fun r s₂ => ∃ V₂, r = .inl L.head? ∧ Fired c s (D ++ [t]) s₂ V₂ ∧ GoesOn s₂ V₂ i L.head?) s' := by
    rintro s' hos ⟨V', horder, hcore, hgo⟩
    refine (tmrTask_callback hc hk (hos ▸ h.os) L.head?).mono ?_
    rintro r s₂ ⟨rfl, o, ho, rfl⟩
    exact ⟨V', rfl, h.fire hti hdue horder hcore ho, hgo⟩
  rw [tmrTaskStep, twp_bind, twp_getTmr, twp_bind, twp_get, twp_ite, Sys.tmr_matchCtr, Sys.tmr_nextPtr, hdue, h.ctr, hnext]
  refine ⟨fun _ => ?_, fun hne => absurd rfl hne⟩
  rw [twp_bind]
  refine (tmrUnlink_order h.order hti).mono ?_
  rintro _ s₂ ⟨horder, hcore⟩
  have hopt : (s₂.tmr t).opt = (s₁.tmr t).opt := (congrArg Tmr.opt (Sys.args_eq hcore rfl t) :)
  have hos : s₂.os = s₁.os := (congrArg Sys.os hcore :)
  have hmade : (s₂.tmr t).isTmr = true := by
    rw [← h.order.made i t hti]
    exact (congrArg Tmr.isTmr (Sys.args_eq hcore rfl t) :)
  rw [twp_bind, twp_getTmr, twp_ite, hopt]
  constructor
  · intro hper
    rw [twp_bind]
    have hlen : ∀ j, (Function.update V i ((V i).erase t) j).length < n := by
      intro j
      by_cases hj : j = i
      · subst hj
        rw [Function.update_self]
        exact lt_of_le_of_lt List.length_erase_le (hn j)
      · rw [Function.update_of_ne hj]
        exact hn j
    refine (tmrLink_order horder (not_mem_update_erase h.order.lists hV hnd) hmade hlen).mono ?_
    rintro _ s₃ ⟨j, xs, ys, hadd, horder₃⟩
    apply hend s₃ ((congrArg Sys.os hadd.core :).trans hos)
    exact fire_periodic h.order hper hctr₁ hV hcore hadd horder₃
  · intro hone
    rw [twp_bind, twp_modTmr]
    apply hend (s₂.modTmr t fun a => { a with state := .completed }) hos
    exact fire_oneShot h.order hone hV hcore horder

def Sys.ticked (s : Sys) : Sys := { s with tmrTickCtr := s.tmrTickCtr + 1 }

theorem Fired.length_lt {ts : List TmrId} (h : Fired c s D s₁ V) (hts : ∀ x, (s.tmr x).state = .running → x ∈ ts) :
    D.length ≤ ts.length := (List.subperm_of_subset h.nodup fun x hx => hts x (h.due x hx).1).length_le

theorem Fired.running {ts : List TmrId} (h : Fired c s D s₁ V) (hts : ∀ x, (s.tmr x).state = .running → x ∈ ts) (x : TmrId)
    (hx : (s₁.tmr x).state = .running) : x ∈ ts := by
  apply hts
  by_cases hD : x ∈ D
  · exact (h.due x hD).1
  · have htmr := h.tmr x
    rw [if_neg hD] at htmr
    rw [← hx]
    exact (congrArg Tmr.state htmr.symm :)

theorem Fired.mem_iff (h : Fired c s D s₁ V) (ha : Wheel.Ahead s₁.tmrTickCtr s₁.due V) (x : TmrId) :
    x ∈ D ↔ (s.tmr x).state = .running ∧ s.due x = s.tmrTickCtr := by
  refine ⟨h.due x, fun ⟨hrun, hdue⟩ => ?_⟩
  by_contra hD
  have htmr := h.tmr x
  rw [if_neg hD] at htmr
  have hrun₁ : (s₁.tmr x).state = .running := (congrArg Tmr.state htmr :).trans hrun
  have hdue₁ : s₁.due x = s.tmrTickCtr := (congrArg Tmr.matchCtr htmr :).trans hdue
  obtain ⟨j, hj⟩ := (h.order.lists.running x).mp hrun₁
  exact ha j x hj (hdue₁.trans h.ctr.symm)

theorem tmrTaskLoop_spec {k : ℕ} {ts : List TmrId} {p : Option TmrId} (hc : CallbacksReturn c k) (hk : k ≤ n)
    (hts : ∀ x, (s.tmr x).state = .running → x ∈ ts) (hn : ts.length < n)
    (hi : s.tmrTickCtr.toNat % c.tmrWheelSize = i) (h : Fired c s [] s₁ V) (hp : p = (V i).head?) :
    twp n c (Prog.loop tmrTaskStep p) (fun _ s' => ∃ D V', Fired c s D s' V' ∧ Wheel.Ahead s'.tmrTickCtr s'.due V') s₁ := by
  -- every turn but the last fires a timer, and no timer fires twice
  refine twp_loop (fun m p s₁ => ∃ D V₁, Fired c s D s₁ V₁ ∧ GoesOn s₁ V₁ i p ∧ m = ts.length - D.length) (k := ts.length)
    ?_ ⟨[], V, h, .inl hp, rfl⟩ hn
  rintro m p s₁ ⟨D, V₁, hF, hgo, rfl⟩
  have hend (hh : ∀ x, p = some x → s₁.due x ≠ s₁.tmrTickCtr) : ∃ D V', Fired c s D s₁ V' ∧
    Wheel.Ahead s₁.tmrTickCtr s₁.due V' := by
    rcases hgo with rfl | hgo
    · refine ⟨D, V₁, hF, hF.order.sorted.ahead ?_⟩
      rwa [hF.ctr, hi, ← hF.ctr]
    · exact ⟨D, V₁, hF, hgo.1⟩
  cases p with
  | none => exact twp_pure.mpr (hend (by simp))
  | some t =>
    by_cases hdue : s₁.due t = s₁.tmrTickCtr
    · have hhead : (V₁ i).head? = some t := by
        rcases hgo with hgo | hgo
        · exact hgo.symm
        · exact absurd hdue (hgo.2 t rfl)
      obtain ⟨L, hL⟩ := List.head?_eq_some_iff.mp hhead
      have hlen : ∀ i, (V₁ i).length < n := by
        intro j
        exact lt_of_le_of_lt (hF.order.lists.length_le c.tmrWheelSize_pos (hF.running hts) j) hn
      refine (tmrTaskStep_due hc hk hF hi hL (hdue.trans hF.ctr) hlen).mono ?_
      rintro r s₂ ⟨V₂, rfl, hF₂, hgo₂⟩
      have hlt := hF₂.length_lt hts
      rw [List.length_append, List.length_singleton] at hlt
      refine ⟨_, ?_, D ++ [t], V₂, hF₂, hgo₂, rfl⟩
      rw [List.length_append, List.length_singleton]
      omega
    · rw [tmrTaskStep, twp_bind, twp_getTmr, twp_bind, twp_get, twp_ite]
      refine ⟨fun he => absurd he.symm hdue, fun _ => twp_pure.mpr (hend ?_)⟩
      rintro x ⟨⟩
      exact hdue

theorem tmrTask_spec {k : ℕ} {ts : List TmrId} (hc : CallbacksReturn c k) (hk : k ≤ n) (h : TmrOrder c.tmrWheelSize s V)
    (ha : Wheel.Ahead s.tmrTickCtr s.due V) (hts : ∀ x, (s.tmr x).state = .running → x ∈ ts) (hn : ts.length < n)
    (ho : Schedulable c.cfg s.os) :
    twp n c tmrTask (fun _ s' => ∃ D V', Fired c s.ticked D s' V' ∧ Wheel.Ahead s'.tmrTickCtr s'.due V') s := by
  rw [tmrTask, twp_bind, twp_onKernel]
  refine (osSchedLock_returns ho).mono fun _ o₁ ho₁ => ?_
  rw [twp_bind, twp_modify, twp_bind, twp_get, twp_bind, twp_ask, twp_bind, twp_getTmrSpoke]
  generalize hi : (s.tmrTickCtr + 1).toNat % c.tmrWheelSize = i
  have horder : TmrOrder c.tmrWheelSize s.ticked V :=
    ⟨⟨h.lists.list, h.lists.count, h.lists.hash, h.lists.running⟩, h.sorted.tick ha, h.valid, h.made⟩
  have hF : Fired c s.ticked [] { s.ticked with os := o₁ } V :=
    ⟨horder.kernel, rfl, fun _ => rfl, by simp, List.nodup_nil, rfl, ho₁⟩
  obtain ⟨tail, hl⟩ := h.lists.list i (hi ▸ Nat.mod_lt _ c.tmrWheelSize_pos)
  rw [twp_bind]
  refine (tmrTaskLoop_spec (s := s.ticked) hc hk hts hn hi hF hl.head_eq).mono ?_
  rintro _ s₂ ⟨D, V', hF₂, ha₂⟩
  rw [twp_bind, twp_onKernel]
  refine (osSchedUnlock_returns hF₂.os).mono fun _ o₂ ho₂ => twp_pure.mpr ⟨D, V', ?_, ha₂⟩
  exact ⟨hF₂.order.kernel, hF₂.ctr, hF₂.tmr, hF₂.due, hF₂.nodup, hF₂.firings, ho₂⟩

end turn

end UcosIII
