import UcosIII.Runs.HandOvers

namespace UcosIII

open Prog

variable {n N : ℕ} {cfg : Cfg} {s s' : OS} {a a' : Abs} {t : TcbId} {o : ObjId} {d : PdId} {e : Event} {r : Option Ret}
  {h : List Step} {l : QLoc}

section returns

def Call.queue (t : TcbId) : Call → Option QLoc
  | qPend p .. => p.map .obj
  | taskQPend .. => some (.tcb t)
  | _ => none

def Cont.onQueue : Cont → Bool
  | qPend | taskQPend => true
  | _ => false

def OS.gives (s s' : OS) (t : TcbId) : QLoc → Multiset Item
  | .obj o => if t ∈ s.pendTasks o then s.receives s' o t else 0
  | .tcb u => if u = t then s.handed s' (.tcb u) else 0

def File.WaitsAt (f : File) (t : TcbId) : QLoc → Prop
  | .obj o => f.On o ∧ f.pendOn = .q
  | .tcb u => u = t ∧ f.state.isPend = true ∧ f.pendOn = .taskQ

theorem File.WaitsAt.isPend {f : File} (hw : f.WaitsAt t l) : f.state.isPend = true := by
  cases l with
  | obj o => exact hw.1.1
  | tcb u => exact hw.2.1

def WaitOver (h : List Step) (s : OS) (t : TcbId) : Prop :=
  (s.file t).state.isPend = false ∧ (s.file t).state ≠ .del ∧
    ∃ z, wokenBy t h s = some z ∧ (z.1.pre.EndsOk z.2 t ↔ (s.file t).pendStatus = .ok)

def LetterStage (h : List Step) (s : OS) (t : TcbId) (l : QLoc) : Prop :=
  (s.file t).WaitsAt t l ∨ (s.file t).state.isPend = false ∧ ((s.file t).pendStatus = .ok → ∃ z m, wokenBy t h s = some z ∧
    z.1.event.sends z.1.pre z.1.ret l = {m} ∧ z.1.pre.gives z.2 t l = {m} ∧
    (s.file t).mail.msgPtr = m.ptr ∧ (s.file t).mail.msgSize = m.size)

def LetterWaits (h : List Step) (s : OS) : Prop := ∀ t, (s.cont t).onQueue = true → ∃ y c l,
  opened t h s = some y ∧ y.1.event = .call c ∧ c.queue t = some l ∧ LetterStage h s t l

theorem Ready.gives_eq (H : Ready cfg s a) (hU : s.Unreported) (hw : (s.file t).WaitsAt t l) (he : Enabled s e)
    (hx : Runs cfg e.exec s r s') (hF : Filed s e r s') (hone : e.copies = false) (hend : s.EndsOk s' t) :
    e.sends s r l = {(s'.file t).mail.item} ∧ s.gives s' t l = {(s'.file t).mail.item} := by
  cases l with
  | obj o =>
    obtain ⟨hon, hk⟩ := hw
    have ht := H.mem_pendTasks.mpr hon
    have hq : (s.obj o).type = .q := by
      have hacc := H.accepts ht
      rw [hk] at hacc
      cases hs : (s.obj o).type <;> simp [hs, PendOn.accepts] at hacc ⊢
    have hgot : s.receives s' o t = {(s'.file t).mail.item} := by
      rw [OS.receives, if_pos hend, if_neg]
      · rfl
      · change ¬ (s.file t).pendOn = .multi
        rw [hk]
        simp
    refine ⟨?_, (if_pos ht).trans hgot⟩
    rw [H.receives_eq hU hq ht he hx hF hone] at hgot
    split at hgot
    · exact hgot
    · exact absurd hgot.symm (Multiset.singleton_ne_zero _)
  | tcb u =>
    obtain ⟨rfl, hwait⟩ := hw
    have hwl : (s.tcb u).WaitsLetter := hwait
    have hgot : s.handed s' (.tcb u) = {(s'.file u).mail.item} := if_pos ⟨hwl, hend⟩
    refine ⟨?_, (if_pos rfl).trans hgot⟩
    rwa [H.handed_own he hx hF, if_pos hwl] at hgot

theorem Ready.over_step (H : Ready cfg s a) (hO : (s.file t).state.isPend = true ∨ WaitOver h s t) (he : Enabled s e)
    (hx : Runs cfg e.exec s r s') (hF : Filed s e r s') (hk : s.cont t ≠ .none) (hk' : s'.cont t = s.cont t) :
    (s'.file t).state.isPend = true ∨ WaitOver (⟨s, e, r⟩ :: h) s' t := by
  rcases hO with hp | ⟨hp, hd, z, hz, hok⟩
  · cases hp' : (s'.file t).state.isPend with
    | true => exact .inl rfl
    | false =>
      have hdel : (s'.file t).state ≠ .del := by
        intro hdel
        rcases hF t with hsame | hc
        · rw [hsame, hp] at hp'
          cases hp'
        · rcases hc.dormant hdel with hd | hf
          · rw [hd] at hp
            cases hp
          · have hk₀ : s'.cont t = .none := (congrArg File.cont hf :)
            exact hk (hk'.symm.trans hk₀)
      refine .inr ⟨hp', hdel, (⟨s, e, r⟩, s'), ?_, fun hend => hend.2.2.2, fun hst => ⟨hp, hp', hdel, hst⟩⟩
      rw [wokenBy, if_pos]
      exact ⟨hp, hp'⟩
  · obtain ⟨hl, hp', hd'⟩ := H.returning he hx hF hk hk' hp hd
    have hst : (s'.file t).pendStatus = (s.file t).pendStatus := congrArg Prod.fst hl
    refine .inr ⟨hp', hd', z, ?_, ?_⟩
    · rw [wokenBy_same (.inl hp), hz]
    · rw [hst]
      exact hok

theorem LetterStage.step (hS : LetterStage h s t l) (H : Ready cfg s a) (hU : s.Unreported)
    (hO : (s.file t).state.isPend = true ∨ WaitOver h s t) (he : Enabled s e)
    (hx : Runs cfg e.exec s r s') (hF : Filed s e r s') (hone : e.copies = false) (hk : s.cont t ≠ .none)
    (hk' : s'.cont t = s.cont t) : LetterStage (⟨s, e, r⟩ :: h) s' t l := by
  rcases hS with hw | ⟨hp, hgot⟩
  · have hp := hw.isPend
    cases hp' : (s'.file t).state.isPend with
    | true =>
      left
      rcases hF t with hsame | hc
      · rwa [hsame]
      · obtain ⟨hon, htab, hrow, -⟩ := hc.sameWait (fun hcur => H.not_pend hcur) hp hp'
        cases l with
        | obj o =>
          obtain ⟨⟨-, d, hd, ho⟩, hkind⟩ := hw
          exact ⟨⟨hp', d, htab ▸ hd, hrow ▸ ho⟩, hon.trans hkind⟩
        | tcb u => exact ⟨hw.1, hp', hon.trans hw.2.2⟩
    | false =>
      refine .inr ⟨hp', fun hst => ?_⟩
      rcases H.over_step hO he hx hF hk hk' with hno | ⟨-, hdel, -⟩
      · rw [hp'] at hno
        cases hno
      obtain ⟨hsent, hgot⟩ := H.gives_eq hU hw he hx hF hone ⟨hp, hp', hdel, hst⟩
      refine ⟨(⟨s, e, r⟩, s'), _, ?_, hsent, hgot, rfl, rfl⟩
      rw [wokenBy, if_pos]
      exact ⟨hp, hp'⟩
  · rcases hO with hno | ⟨-, hd, -⟩
    · rw [hp] at hno
      cases hno
    obtain ⟨hl, hp', hd'⟩ := H.returning he hx hF hk hk' hp hd
    have hst : (s'.file t).pendStatus = (s.file t).pendStatus := congrArg Prod.fst hl
    have hptr : (s'.file t).mail.msgPtr = (s.file t).mail.msgPtr := congrArg (fun x => x.2.1) hl
    have hsize : (s'.file t).mail.msgSize = (s.file t).mail.msgSize := congrArg (fun x => x.2.2.1) hl
    refine .inr ⟨hp', ?_⟩
    rw [hst, hptr, hsize, wokenBy_same (.inl hp)]
    exact hgot

def Cont.waits : Cont → Bool
  | none | flagPost _ => false
  | _ => true

theorem Cont.waits_of_onQueue {k : Cont} (hk : k.onQueue = true) : k.waits = true := by
  cases k <;> first | rfl | cases hk

theorem Event.Change.wait_begins {f f' : File} (hc : e.Change s r t f f') (hk : f'.cont.waits = true) (hne : f'.cont ≠ f.cont) :
    s.tcbCurPtr = some t ∧ f'.state.isPend = true := by
  have hold (hcont : f'.cont = f.cont) : False := hne hcont
  cases hc.turn with
  | fresh | semSet | flagged | delayed | semTaken | msgs | rows | flagsRdy => exact (hold rfl).elim
  | erased | flagPosts | finished => cases hk
  | suspended =>
    obtain ⟨st, c, hs, -, -⟩ := f.suspended_shape
    exact (hold (congrArg File.cont hs :)).elim
  | resumed =>
    obtain ⟨st, c, hs, -, -⟩ := f.resumed_shape
    exact (hold (congrArg File.cont hs :)).elim
  | signalled =>
    rcases f.signalled_shape s.tsNow with ⟨-, -, hs⟩ | ⟨-, c, hs⟩
    · obtain ⟨tbl, row, x, hp⟩ := File.posted_shape { f with mail := { f.mail with ts := s.tsNow } } none ⟨none, 0, s.tsNow⟩
      exact (hold (congrArg File.cont (hs.trans hp) :)).elim
    · exact (hold (congrArg File.cont hs :)).elim
  | @posted o m =>
    obtain ⟨tbl, row, x, hp⟩ := f.posted_shape o m
    exact (hold (congrArg File.cont hp :)).elim
  | @aborted o =>
    obtain ⟨tbl, row, x, hp⟩ := f.aborted_shape o s.tsNow
    exact (hold (congrArg File.cont hp :)).elim
  | expired =>
    rcases f.expired_shape s.tsNow with ⟨-, hs⟩ | ⟨st, hs, -, -⟩
    · exact (hold (congrArg File.cont hs :)).elim
    · exact (hold (congrArg File.cont hs :)).elim
  | waits _ hcur _ _ _ _ _ _ timed => cases timed <;> exact ⟨hcur, rfl⟩
  | waitsMulti _ hcur _ timed => cases timed <;> exact ⟨hcur, rfl⟩

theorem Event.Change.queue_begins {f f' : File} (hc : e.Change s r t f f') (hf : s.tcbCurPtr = some t → f.state.isPend = false)
    (hk : f'.cont.onQueue = true) (hne : f'.cont ≠ f.cont) : s.tcbCurPtr = some t ∧ ∃ c l, e = .call c ∧
      c.pends = true ∧ c.queue t = some l ∧ f'.WaitsAt t l := by
  obtain ⟨hcur, hp⟩ := hc.wait_begins (Cont.waits_of_onQueue hk) hne
  refine ⟨hcur, ?_⟩
  obtain ⟨rfl, -, ⟨c, kind, p, rfl, hwf, hkind, htab, hrow⟩ | ⟨i, objs, timeout, opt, timed, -, rfl⟩⟩ := hc.newWait (hf hcur) hp
  · unfold Call.waitsFor at hwf
    split at hwf <;> cases hwf
    · obtain ⟨-, -, timed, rfl⟩ := hc
      cases hk
    · exact ⟨_, .tcb t, rfl, rfl, rfl, rfl, hp, hkind⟩
    · obtain ⟨-, -, timed, rfl⟩ := hc
      cases hk
    · rename_i o timeout opt hasSize
      refine ⟨_, .obj o, rfl, rfl, rfl, ⟨hp, (t, 0), ?_, hrow o rfl⟩, hkind⟩
      rw [htab]
      simp
    · obtain ⟨-, -, timed, rfl⟩ := hc
      cases hk
    · obtain ⟨-, timed, rfl⟩ := hc
      cases hk
  · cases hk

def WaitsOver (h : List Step) (s : OS) : Prop :=
  ∀ t, (s.cont t).waits = true → (s.file t).state.isPend = true ∨ WaitOver h s t

theorem WaitsOver.step (hO : WaitsOver h s) (H : Ready cfg s a) (he : Enabled s e) (hx : Runs cfg e.exec s r s')
    (hF : Filed s e r s') : WaitsOver (⟨s, e, r⟩ :: h) s' := by
  intro t hk'
  by_cases hk : s'.cont t = s.cont t
  · rw [hk] at hk'
    refine H.over_step (hO t hk') he hx hF ?_ hk
    intro hnone
    rw [hnone] at hk'
    cases hk'
  · rcases hF t with hsame | hc
    · exact absurd (congrArg File.cont hsame) hk
    · exact .inl (hc.wait_begins hk' hk).2

theorem LetterWaits.step (hW : LetterWaits h s) (hO : WaitsOver h s) (H : Ready cfg s a) (hU : s.Unreported)
    (he : Enabled s e) (hx : Runs cfg e.exec s r s') (hF : Filed s e r s') (hone : e.copies = false) :
    LetterWaits (⟨s, e, r⟩ :: h) s' := by
  intro t hk'
  by_cases hk : s'.cont t = s.cont t
  · rw [hk] at hk'
    have hne : s.cont t ≠ .none := by
      intro hnone
      rw [hnone] at hk'
      cases hk'
    obtain ⟨y, c, l, hopen, hy, hc, hS⟩ := hW t hk'
    refine ⟨y, c, l, ?_, hy, hc, hS.step H hU (hO t (Cont.waits_of_onQueue hk')) he hx hF hone hne hk⟩
    rw [opened, if_neg, hopen]
    exact fun h' => hne h'.1
  · rcases hF t with hsame | hc
    · exact absurd (congrArg File.cont hsame) hk
    · obtain ⟨hcur, c, l, rfl, hpends, hl, hw⟩ := hc.queue_begins (fun hcur => H.not_pend hcur) hk' hk
      refine ⟨(⟨s, .call c, r⟩, s'), c, l, ?_, rfl, hl, .inl hw⟩
      rw [opened, if_pos]
      refine ⟨Call.opens hpends he hx hcur hk, ?_⟩
      intro hnone
      rw [hnone] at hk'
      cases hk'

theorem finish_letter {x : Ret} (hcur : s.tcbCurPtr = some t) (hk : (s.cont t).onQueue = true)
    (hx : Runs cfg Event.finish.exec s (some x) s') : (x.err = .none ↔ (s.tcb t).pendStatus = .ok) ∧
      (x.err = .none → x.msgPtr = (s.tcb t).msgPtr ∧ x.msgSize = (s.tcb t).msgSize) := by
  refine hx.wp (Q := fun r _ => ∀ x ∈ r, (x.err = .none ↔ (s.tcb t).pendStatus = .ok) ∧
      (x.err = .none → x.msgPtr = (s.tcb t).msgPtr ∧ x.msgSize = (s.tcb t).msgSize)) (fun n => ?_) x rfl
  rw [Event.exec, UcosIII.finish, wp_bind, wp_getCur, hcur]
  rintro _ ⟨⟩
  rw [wp_bind, wp_get, wp_bind, wp_modify]
  cases hc : s.cont t with
  | qPend =>
    rw [Cont.run, wp_always, qPendFinish, wp_bind, wp_getCur]
    intro u hu
    obtain rfl : t = u := Option.some.inj (hcur.symm.trans hu)
    rw [wp_bind, wp_getTcb]
    dsimp only
    cases (s.tcb t).pendStatus <;> exact wp_pure.mpr (by simp)
  | taskQPend =>
    rw [Cont.run, wp_always, taskQPendFinish, wp_bind, wp_getCur]
    intro u hu
    obtain rfl : t = u := Option.some.inj (hcur.symm.trans hu)
    rw [wp_bind, wp_getTcb]
    dsimp only
    cases (s.tcb t).pendStatus <;> exact wp_pure.mpr (by simp)
  | _ =>
    rw [hc] at hk
    cases hk

end returns

section posts

def Event.postsMsg : Event → Bool
  | .call (.qPost ..) | .call (.taskQPost ..) => true
  | _ => false

/-- What becomes of a message that is posted while tasks wait for it, and that a post which is refused delivers nothing. -/
structure HandsOn (s : OS) (e : Event) (r : Option Ret) (s' : OS) : Prop where
  first : ∀ o t m, (s.pendTasks o).head? = some t → e.sends s r (.obj o) = {m} →
    (∀ u ∈ s.pendTasks o, (s.tcb t).prio ≤ (s.tcb u).prio) ∧ s.EndsOk s' t ∧ s.gives s' t (.obj o) = {m} ∧
      ∀ u, u ≠ t → s.gives s' u (.obj o) = 0
  own : ∀ t m, (s.tcb t).WaitsLetter → e.sends s r (.tcb t) = {m} → s.EndsOk s' t ∧ s.gives s' t (.tcb t) = {m}
  refused : e.postsMsg = true → granted r = false → s'.letters = s.letters ∧ ∀ t, ¬ s.EndsOk s' t

theorem osTaskQPost_refused (p : Option TcbId) (pVoid : Option ℕ) (msgSize : ℕ) (opt : Opt) :
    wp n cfg (osTaskQPost p pVoid msgSize opt) (fun x s' => x ≠ .none → ∀ t, (s'.tcb t).taskState = (s.tcb t).taskState) s := by
  rw [osTaskQPost]
  refine wp_ite.mpr ⟨fun _ => wp_pure.mpr fun _ _ => rfl, fun _ => ?_⟩
  rw [wp_bind, wp_tsGet, taskQPost, wp_bind, wp_target]
  intro t ht
  rw [wp_bind, wp_getTcb]
  have hput : wp n cfg (taskQPut t pVoid msgSize opt s.tsNow)
      (fun x s' => x ≠ .none → ∀ t, (s'.tcb t).taskState = (s.tcb t).taskState) s := by
    rw [taskQPut, wp_bind, wp_getTcb, wp_bind]
    refine ((keeps_noMsgs_msgQPut _ pVoid msgSize _ _).comp OS.tcb n cfg s).mono fun _ s₁ h₁ => ?_
    have htcb : s₁.tcb = s.tcb := h₁
    rw [wp_bind, wp_modTcb]
    refine wp_pure.mpr fun _ u => ?_
    rw [OS.modTcb_tcb, htcb]
    split
    · rename_i hu
      rw [hu]
    · rfl
  have hlong : wp n cfg (do
      if (s.tcb t).pendOn = .taskQ then
        post none t pVoid msgSize s.tsNow
        schedOpt opt
        return .none
      else taskQPut t pVoid msgSize opt s.tsNow)
      (fun x s' => x ≠ .none → ∀ t, (s'.tcb t).taskState = (s.tcb t).taskState) s := by
    refine wp_ite.mpr ⟨fun _ => ?_, fun _ => hput⟩
    rw [wp_bind]
    intro _ s₁ _
    rw [wp_bind]
    intro _ s₂ _
    exact wp_pure.mpr fun hne => absurd rfl hne
  cases (s.tcb t).taskState with
  | rdy | dly | suspended | dlySuspended => exact hput
  | pend | pendTimeout | pendSuspended | pendTimeoutSuspended => exact hlong
  | del => exact wp_pure.mpr fun _ _ => rfl

theorem Event.postsMsg_refused (hx : Runs cfg e.exec s r s') (he : e.postsMsg = true) (hg : granted r = false) (t : TcbId) :
    (s'.tcb t).taskState = (s.tcb t).taskState := by
  unfold Event.postsMsg at he
  split at he
  · rename_i p v z opt
    refine hx.wp (Q := fun r s' => granted r = false → (s'.tcb t).taskState = (s.tcb t).taskState)
      (fun n => wp_errOnly.mpr ?_) hg
    cases p with
    | none => exact wp_pure.mpr fun _ => rfl
    | some o =>
      refine (osQPost_refused o v z opt).mono fun x s' h' hx => ?_
      exact congrArg File.state (congrFun (h' (by simpa [granted] using hx)) t)
  · refine hx.wp (Q := fun r s' => granted r = false → (s'.tcb t).taskState = (s.tcb t).taskState)
      (fun n => wp_errOnly.mpr ?_) hg
    exact (osTaskQPost_refused _ _ _ _).mono fun x s' h' hx => h' (by simpa [granted] using hx) t
  · cases he

theorem Ready.head_best {u : TcbId} (H : Ready cfg s a) (hO : PrioOrdered s) (ho : (s.obj o).type = .q)
    (ht : (s.pendTasks o).head? = some t) (hu : u ∈ s.pendTasks o) : (s.tcb t).prio ≤ (s.tcb u).prio := by
  rw [H.rep.pendTasks_eq H.sound] at ht hu
  rw [List.head?_map] at ht
  obtain ⟨d, hd, rfl⟩ := Option.map_eq_some_iff.mp ht
  obtain ⟨x, hx, rfl⟩ := List.mem_map.mp hu
  obtain ⟨j, hj, hjx⟩ := List.mem_iff_getElem.mp hx
  have hd₀ : s.pendAt o 0 = some d := by
    rw [H.rep.pendAt_eq, ← List.head?_eq_getElem?]
    exact hd
  have hx' : s.pendAt o j = some x := by
    rw [H.rep.pendAt_eq, ← hjx]
    exact List.getElem?_eq_getElem hj
  rcases Nat.eq_zero_or_pos j with rfl | hpos
  · rw [Option.some.inj (hd₀.symm.trans hx')]
  · exact hO o 0 j d x (by rw [ho]; rfl) hpos hd₀ hx'

theorem OS.endsOk_of_receives {m : Item} (h : s.receives s' o t = {m}) : s.EndsOk s' t := by
  by_contra hno
  rw [OS.receives, if_neg hno] at h
  exact Multiset.singleton_ne_zero _ h.symm

theorem Ready.handsOn (H : Ready cfg s a) (hU : s.Unreported) (hO : PrioOrdered s) (hm : e.Mails s r s') (he : Enabled s e)
    (hx : Runs cfg e.exec s r s') (hF : Filed s e r s') (hone : e.copies = false) : HandsOn s e r s' := by
  refine ⟨fun o t m ht hs => ?_, fun t m hw hs => ?_, fun hpost hg => ⟨?_, fun t hend => ?_⟩⟩
  · have hq : (s.obj o).type = .q := by
      unfold Event.sends at hs
      split at hs
      · split at hs
        · rename_i hc
          obtain ⟨ho, hg⟩ := hc
          cases ho
          rw [Event.Mails, if_pos hg] at hm
          exact hm.1
        · exact absurd hs.symm (Multiset.singleton_ne_zero _)
      · exact absurd hs.symm (Multiset.singleton_ne_zero _)
      · exact absurd hs.symm (Multiset.singleton_ne_zero _)
    have hmem := List.mem_of_mem_head? ht
    have hgot : s.receives s' o t = {m} := by
      rw [H.receives_eq hU hq hmem he hx hF hone, if_pos ht, hs]
    refine ⟨fun u hu => H.head_best hO hq ht hu, OS.endsOk_of_receives hgot, (if_pos hmem).trans hgot, fun u hu => ?_⟩
    rw [OS.gives]
    split
    · rename_i hu'
      rw [H.receives_eq hU hq hu' he hx hF hone, if_neg]
      intro hh
      exact hu (Option.some.inj (hh.symm.trans ht))
    · rfl
  · have hgot : s.handed s' (.tcb t) = {m} := by
      rw [H.handed_own he hx hF, if_pos hw, hs]
    refine ⟨?_, (if_pos rfl).trans hgot⟩
    by_contra hno
    rw [OS.handed, if_neg fun h' => hno h'.2] at hgot
    exact Multiset.singleton_ne_zero _ hgot.symm
  · unfold Event.postsMsg at hpost
    split at hpost
    · rename_i p _ _ _
      cases p with
      | none => exact hm
      | some o =>
        rw [Event.Mails, if_neg (by simp [hg])] at hm
        exact hm
    · rw [Event.Mails, if_neg (by simp [hg])] at hm
      exact hm
    · cases hpost
  · obtain ⟨hp, hp', -⟩ := hend
    rw [Event.postsMsg_refused hx hpost hg t, hp] at hp'
    cases hp'

end posts

/-- The steps since the queue at `l` was set up or emptied, each with the state after it. -/
def sinceEmptied (l : QLoc) : List Step → OS → List (Step × OS)
  | [], _ => []
  | x :: h, s => if x.event.empties x.pre x.ret l then [] else (x, s) :: sinceEmptied l h x.pre

def QueueBalance (h : List Step) (s : OS) (l : QLoc) : Prop :=
  ((sinceEmptied l h s).map fun y => y.1.event.sends y.1.pre y.1.ret l).sum =
    (s.letters l : Multiset Item) + ((sinceEmptied l h s).map fun y => y.1.event.delivers y.1.pre y.1.ret y.2 l).sum

/-- The step is no delay to a tick that has passed, sets up no queue that holds messages, and posts no message to all. -/
def Mailing (cfg : Cfg) (s : OS) (e : Event) : Prop := ¬ PassedMatch cfg s e ∧ e.spills s = false ∧ e.copies = false

/-- How the queues of the objects and of the tasks deliver, in the state `s` at the end of the run `h`. -/
structure QueuesDeliver (cfg : Cfg) (h : List Step) (s : OS) : Prop where
  idle : ∀ l, s.IsQueue l → s.letters l ≠ [] → ¬ s.Awaited l
  empty : ∀ o, (s.obj o).type = .q → s.letters (.obj o) ≠ [] → ∀ k, s.pendAt o k = none
  balance : ∀ l, s.IsQueue l → QueueBalance h s l
  step : ∀ e r s', Enabled s e → Mailing cfg s e → Fits cfg e.exec s → RunsIn .word cfg e.exec s r s' →
    e.Mails s r s' ∧ HandsOn s e r s'
  returns : ∀ t x s', s.tcbCurPtr = some t → (s.cont t).onQueue = true → Enabled s .finish →
    RunsIn .word cfg Event.finish.exec s (some x) s' → ∃ y c l z, opened t h s = some y ∧ y.1.event = .call c ∧
      c.queue t = some l ∧ wokenBy t h s = some z ∧ (x.err = .none ↔ z.1.pre.EndsOk z.2 t) ∧
      (x.err = .none → ∃ m, z.1.event.sends z.1.pre z.1.ret l = {m} ∧ z.1.pre.gives z.2 t l = {m} ∧
        x.msgPtr = m.ptr ∧ x.msgSize = m.size)
  reports : ∀ t x s', s.tcbCurPtr = some t → s.cont t = .multiPend → Enabled s .finish →
    RunsIn .word cfg Event.finish.exec s (some x) s' → ∃ y i objs timeout opt z, opened t h s = some y ∧
      y.1.event = .call (.pendMulti (some i) objs timeout opt) ∧ wokenBy t h s = some z ∧
      (x.err = .none ↔ z.1.pre.EndsOk z.2 t) ∧
      (x.err = .none → ∃ d ∈ entriesFrom (t, i) objs.length, ∃ o, (s'.pendData d).rdyObjPtr = some o ∧
        HandsOver z t o (s'.pendData d).letter)

section runs

def QueuesBalanced (h : List Step) (s : OS) : Prop := ∀ l, s.IsQueue l → QueueBalance h s l

theorem QueuesBalanced.step (hB : QueuesBalanced h s) (H : Ready cfg s a) (hU : s.Unreported) (hP : s.Posted N)
    (he : Enabled s e) (hk : Mailing cfg s e) (hx : Runs cfg e.exec s r s') (hF : Filed s e r s') (hm : e.Mails s r s') :
    QueuesBalanced (⟨s, e, r⟩ :: h) s' := by
  intro l hq
  cases hemp : e.empties s r l with
  | true => simp [QueueBalance, sinceEmptied, hemp, hP.emptied he hk.2.1 hm hemp]
  | false =>
    have hq₀ := hq.before hx hemp
    have hb := H.mail_balance hU hm hq₀ he hx hF hk.2.2 hemp
    have hold : QueueBalance h s l := hB l hq₀
    simp only [QueueBalance, sinceEmptied, hemp, Bool.false_eq_true, ↓reduceIte, List.map_cons, List.sum_cons] at hold ⊢
    rw [hold, ← add_assoc, ← add_assoc, ← hb, add_comm (e.sends s r l)]

structure Mailroom (cfg : Cfg) (h : List Step) (s : OS) : Prop where
  posted : s.Posted cfg.msgPoolSize
  unreported : s.Unreported
  idle : s.Idle
  balanced : QueuesBalanced h s
  ended : WaitsOver h s
  letters : LetterWaits h s
  multi : MultiWaits h s

theorem Mailroom.init (hx : Runs cfg osInit (OS.boot cfg) () s) (h0 : ∀ t, (s.file t).AtStart) : Mailroom cfg [] s := by
  have hnone (t : TcbId) : s.cont t = .none := (h0 t).2.2.2.2.2.2
  have hnp (t : TcbId) : (s.file t).state.isPend = false := by
    rcases (h0 t).1 with hs | hs <;> rw [hs] <;> rfl
  have hP : s.Posted cfg.msgPoolSize := .init hx
  have hnoq {o : ObjId} (hq : (s.obj o).type = .q) : False := by
    rw [osInit_none hx o] at hq
    cases hq
  refine ⟨hP, fun t hp => ?_, fun l hq hw => ?_, fun l hq => ?_, fun t hk => ?_, fun t hk => ?_, fun t hk => ?_⟩
  · rw [hnp t] at hp
    cases hp
  · cases l with
    | obj o => exact (hnoq hq).elim
    | tcb t =>
      have hp : (s.file t).state.isPend = true := hw.1
      rw [hnp t] at hp
      cases hp
  · cases l with
    | obj o => exact (hnoq hq).elim
    | tcb t =>
      have hnil : s.letters (.tcb t) = [] := (hx.wp fun n => osInit_letters).2 _
      simp [QueueBalance, sinceEmptied, hnil]
  all_goals
    rw [hnone t] at hk
    cases hk

theorem Mailroom.step (hI : Mailroom cfg h s) (H : Ready cfg s a) (H' : Ready cfg s' a') (he : Enabled s e)
    (hk : Mailing cfg s e) (hx : Runs cfg e.exec s r s') (hF : Filed s e r s') : Mailroom cfg (⟨s, e, r⟩ :: h) s' := by
  obtain ⟨hP', hm⟩ := hI.posted.step he hk.2.1 hx hF
  exact ⟨hP', hI.unreported.step H hF, hI.idle.step hI.posted H H' he hk.2.1 hx hF hm,
    hI.balanced.step H hI.unreported hI.posted he hk hx hF hm, hI.ended.step H he hx hF,
    hI.letters.step hI.ended H hI.unreported he hx hF hk.2.2, hI.multi.step H hI.posted.mailed he hx hF⟩

/-- In every run, what is posted is delivered once. -/
theorem run_queuesDeliver (run : CodeRun cfg (fun _ x => Mailing cfg x.pre x.event) h s)
    (hfit : NoWrap cfg h) : QueuesDeliver cfg h s := by
  replace run : Run cfg _ h s := run.fits hfit .nat
  obtain ⟨⟨a, H⟩, hI⟩ := run.files_init (I := Mailroom cfg) (fun _ _ hP => hP.1) (fun _ => Mailroom.init)
    fun _ _ _ _ _ _ _ H hI he hP hx hF H' _ => hI.step H H' he hP hx hF
  obtain ⟨b, Hb, hO⟩ := run.invariant (I := fun _ a => a.Ordered fun _ => False) (fun _ _ hP => hP.1) ordered_init
    fun _ _ _ _ _ _ H hO _ hp hstep => (hstep.placed H hp.1 (absurd rfl) hO).elim fun _ hP => hP.ordered.of_rank
  have hempty (o : ObjId) (ho : (s.obj o).type = .q) (hne : s.letters (.obj o) ≠ []) : s.pendTasks o = [] :=
    not_not.mp fun hw => hne (hI.idle (.obj o) ho hw)
  refine ⟨fun l hq hne hw => hne (hI.idle l hq hw), fun o ho hne => H.rep.pendAt_none (H.nbr_eq_zero.mpr (hempty o ho hne)),
    hI.balanced, fun e r s' he hk hf hx => ?_,
    fun t x s' hcur hk _ hx => ?_, fun t x s' hcur hk _ hx => ?_⟩
  · replace hx := hx.fits hf .nat
    have hF : Filed s e r s' := hx.wp fun n => Event.exec_file H e
    obtain ⟨-, hm⟩ := hI.posted.step he hk.2.1 hx hF
    exact ⟨hm, H.handsOn hI.unreported (Hb.rep.prioOrdered hO) hm he hx hF hk.2.2⟩
  · replace hx := hx.fits (countless_finish _ _) .nat
    obtain ⟨y, c, l, hopen, hy, hc, hS⟩ := hI.letters t hk
    obtain ⟨hiff, hmsg⟩ := finish_letter hcur hk hx
    have hdone := H.not_pend hcur
    rcases hI.ended t (Cont.waits_of_onQueue hk) with hno | ⟨-, -, z, hz, hok⟩
    · rw [hdone] at hno
      cases hno
    refine ⟨y, c, l, z, hopen, hy, hc, hz, hiff.trans hok.symm, fun herr => ?_⟩
    rcases hS with hw | ⟨-, hgot⟩
    · have hno := hw.isPend
      rw [hdone] at hno
      cases hno
    · obtain ⟨z', m, hz', hsent, hgives, hptr, hsize⟩ := hgot (hiff.mp herr)
      obtain rfl : z = z' := Option.some.inj (hz.symm.trans hz')
      exact ⟨m, hsent, hgives, (hmsg herr).1.trans hptr, (hmsg herr).2.trans hsize⟩
  · replace hx := hx.fits (countless_finish _ _) .nat
    obtain ⟨y, i, objs, timeout, opt, hopen, hy, -, hR⟩ := hI.multi.later H hcur hk hx
    have hiff : x.err = .none ↔ (s.tcb t).pendStatus = .ok := ((hx.wp fun n => finish_multi hcur hk).2.2 x rfl).2.1
    have hdone := H.not_pend hcur
    rcases hI.ended t (by rw [hk]; rfl) with hno | ⟨-, -, z, hz, hok⟩
    · rw [hdone] at hno
      cases hno
    refine ⟨y, i, objs, timeout, opt, z, hopen, hy, hz, hiff.trans hok.symm, fun herr => ?_⟩
    have hrep := hR.mpr (by rw [hiff.mp herr]; simp)
    obtain ⟨d, hd, o, z', hrdy, hz', hgive⟩ := hrep.given herr
    obtain rfl : z = z' := Option.some.inj (hz.symm.trans hz')
    exact ⟨d, hd, o, hrdy, hgive⟩

/-- The first of two messages ends the wait of task 4, which is about to return it; the second stays in the queue. -/
theorem run_queuesDeliver_two : ∃ h s, CodeRun Cfg.repository (fun _ x => Mailing Cfg.repository x.pre x.event) h s ∧
    NoWrap Cfg.repository h ∧
    s.tcbCurPtr = some 4 ∧ s.cont 4 = .qPend ∧ Enabled s .finish ∧ (s.tcb 4).msgPtr = some 77 ∧
    (s.letters (.obj 1)).map Item.ptr = [some 78] ∧ QueuesDeliver Cfg.repository h s := by
  obtain ⟨h, s, run, hfit, hcur, hk, he, hm, hl⟩ := RunIn.of_play .word Cfg.repository
    (fun _ x => ¬ PassedMatch Cfg.repository x.pre x.event ∧ x.event.spills x.pre = false ∧ x.event.copies = false) 60
    (fun _ s => s.tcbCurPtr = some 4 ∧ s.cont 4 = .qPend ∧ Enabled s .finish ∧ (s.tcb 4).msgPtr = some 77 ∧
      (s.letters (.obj 1)).map Item.ptr = [some 78])
    [.newTask 4 5, .newTask 5 6, .call (.qCreate (some 1) 3), .start, .call (.qPend (some 1) 10 optPendBlocking true),
      .intEnter, .call (.qPost (some 1) (some 77) 4 optPostFifo), .call (.qPost (some 1) (some 78) 4 optPostLifo), .intExit]
    (by decide +kernel)
  exact ⟨h, s, run, hfit, hcur, hk, he, hm, hl, run_queuesDeliver run hfit⟩

/-- A message posted to a queue on which 65536 tasks wait stays in the queue. -/
theorem run_queuesDeliver_overflow : ∃ h s, CodeRun Cfg.repository (fun _ x => Mailing Cfg.repository x.pre x.event) h s ∧
    ¬ QueuesDeliver Cfg.repository h s := by
  obtain ⟨h, h₀, s, run, -, htype, hletter, hhead⟩ := RunIn.of_crowd Cfg.repository 40
    [.newTask 4 7, .call (.qCreate (some 0) 3), .start] [.call (.qPost (some 0) (some 77) 4 optPostFifo)]
    (P := fun x => ¬ PassedMatch Cfg.repository x.pre x.event ∧ x.event.spills x.pre = false ∧ x.event.copies = false)
    (F := fun B => B.pendCrowd 0 .q .qPend 65536) (H := fun B => B.HostsQ 0)
    (Q := fun _ s => (s.obj 0).type = .q ∧ (s.letters (.obj 0)).length = 1 ∧ (s.obj 0).pendList.headPtr = some (10, 0))
    (fun _ hP => hP.1) (fun h B run hB hdel => qCrowd_gathers run hB hdel (fun _ _ _ => ⟨id, rfl, rfl⟩) fun _ _ =>
    ⟨id, rfl, rfl⟩)
    (by decide +kernel)
  refine ⟨_, s, run, fun hok => ?_⟩
  have hne : s.letters (.obj 0) ≠ [] := fun h0 => by
    rw [h0] at hletter
    cases hletter
  have hnone : s.pendAt 0 0 = none := hok.empty 0 htype hne 0
  rw [OS.pendAt, chainAt, hhead] at hnone
  cases hnone

end runs

end UcosIII
