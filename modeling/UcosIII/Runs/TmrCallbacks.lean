import UcosIII.Runs.TmrFollows

namespace UcosIII

open Prog

variable {n : ℕ} {c : TmrCfg} {s s' : Sys} {V : ℕ → List TmrId} {t x : TmrId} {script : TmrScript} {now : Tick}

section follow

variable {ts P : List TmrId} {A B : Acc} {o : OS}

/-- The walk of the timer task has dealt with the timers `done` on its way from `A` to `B`. -/
structure Dealt (script : TmrScript) (now : Tick) (A : Acc) (done : List Expiry) (B : Acc) : Prop where
  calls : A.calls ≤ B.calls
  args : ∀ x, (B.tmr x).args = (A.tmr x).args
  pend : ∀ x, B.Pend now x → A.Pend now x ∧ x ∉ done.map Prod.fst ∧ ¬ TouchedIn script [] A.calls B.calls x
  covers : ∀ x, A.Pend now x → ¬ TouchedIn script [] A.calls B.calls x → B.Pend now x ∨ x ∈ done.map Prod.fst
  spared : ∀ e ∈ done, A.Pend now e.1 ∧ e.2 ≤ B.calls ∧ ¬ TouchedIn script [] A.calls e.2 e.1
  nodup : (done.map Prod.fst).Nodup

theorem not_touchedIn_self {i : ℕ} : ¬ TouchedIn script [] i i x := by
  rintro ((h | ⟨_, _, h⟩) | ⟨k, h1, h2, -⟩)
  · cases h
  · cases h
  · omega

theorem Dealt.init (A : Acc) : Dealt script now A [] A where
  calls := le_refl _
  args _ := rfl
  pend x hx := ⟨hx, by simp, not_touchedIn_self⟩
  covers x hx _ := .inl hx
  spared e he := by cases he
  nodup := by simp

theorem touchedIn_trans {i j k : ℕ} (hij : i ≤ j) (hjk : j ≤ k) :
    TouchedIn script [] i k x ↔ TouchedIn script [] i j x ∨ TouchedIn script [] j k x := by
  change TouchedIn script ([] ++ []) i k x ↔ _
  exact Acc.touchedIn_append hij hjk

theorem Dealt.fire {done : List Expiry} {C : Acc} (h : Dealt script now A done B) (ht : B.Pend now t)
    (hfire : Acc.FiredTo script now t B C) : Dealt script now A (done ++ [(t, B.calls)]) C := by
  have htouch (x : TmrId) : TouchedIn script [] A.calls C.calls x ↔
      TouchedIn script [] A.calls B.calls x ∨ TouchedIn script [] B.calls C.calls x := touchedIn_trans h.calls hfire.calls
  refine ⟨h.calls.trans hfire.calls, fun x => (hfire.args x).trans (h.args x), fun x hx => ?_, fun x hx hno => ?_,
    fun e he => ?_, ?_⟩
  · obtain ⟨hB, hxt, hno⟩ := hfire.pend x hx
    obtain ⟨hA, hdone, hno'⟩ := h.pend x hB
    refine ⟨hA, ?_, ?_⟩
    · simp only [List.map_append, List.map_cons, List.map_nil, List.mem_append, List.mem_singleton, not_or]
      exact ⟨hdone, hxt⟩
    · rw [htouch, not_or]
      exact ⟨hno', hno⟩
  · rw [htouch, not_or] at hno
    rw [List.map_append, List.mem_append]
    rcases h.covers x hx hno.1 with hB | hdone
    · by_cases hxt : x = t
      · right
        right
        simp [hxt]
      · left
        rw [Acc.Pend, hfire.same x hxt hno.2]
        exact hB
    · exact .inr (.inl hdone)
  · rcases List.mem_append.mp he with he | he
    · obtain ⟨hA, hle, hno⟩ := h.spared e he
      exact ⟨hA, hle.trans hfire.calls, hno⟩
    · rw [List.mem_singleton] at he
      rw [he]
      obtain ⟨hA, -, hno⟩ := h.pend t ht
      exact ⟨hA, hfire.calls, hno⟩
  · rw [List.map_append, List.nodup_append]
    refine ⟨h.nodup, by simp, fun a ha b hb hab => ?_⟩
    have hbt : b = t := by simpa using hb
    rw [hab, hbt] at ha
    exact (h.pend t ht).2.1 ha

def Ran (A : Acc) (done : List Expiry) (l : List Firing) : Prop :=
  ∀ e ∈ done, ∀ y, A.firing e.1 = some y → l.reverse[e.2]? = some y

theorem Ran.append {done : List Expiry} {l l' : List Firing} (h : Ran A done l) (hl : ((A.firing t).toList ++ l) <:+ l') :
    Ran A (done ++ [(t, l.length)]) l' := by
  obtain ⟨m, rfl⟩ := hl
  intro e he y hy
  rw [List.reverse_append, List.reverse_append]
  rcases List.mem_append.mp he with he | he
  · have hey := h e he y hy
    have hlt := (List.getElem?_eq_some_iff.mp hey).1
    rw [List.getElem?_append_left (by rw [List.length_append]; omega), List.getElem?_append_left hlt]
    exact hey
  · rw [List.mem_singleton] at he
    rw [he] at hy ⊢
    rw [hy]
    simp

structure Stands (c : TmrCfg) (now : Tick) (ts : List TmrId) (s : Sys) (A : Acc) (P : List TmrId) (p : Option TmrId) :
    Prop where
  follows : Follows c now ts s A P
  first : ∀ q L, P = q :: L → p = some q
  ends : P = [] → ∀ q, p = some q → (A.tmr q).matchCtr ≠ now

namespace Stands

variable {p : Option TmrId} {done : List Expiry} {L : List TmrId} {q : TmrId}

theorem stop (F : Follows c now ts s A P) (hp : ∀ q, p = some q → (A.tmr q).matchCtr ≠ now) :
    twp n c (tmrTaskStepBy script (p, done)) (fun r s' => r = .inr done ∧ s' = s) s := by
  cases p with
  | none => exact twp_pure.mpr ⟨rfl, rfl⟩
  | some q =>
    rw [tmrTaskStepBy, twp_bind, twp_getTmr, twp_bind, twp_get, twp_ite]
    refine ⟨fun he => absurd ?_ (hp q rfl), fun _ => twp_pure.mpr ⟨rfl, rfl⟩⟩
    rw [← F.due, ← F.ctr]
    exact he.symm

theorem turn (S : Stands c now ts s A (t :: L) p) (hn : ts.length < n) (hs : script.length < n) :
    twp n c (tmrTaskStepBy script (p, done)) (fun r s' => ∃ q, r = .inl (q, done ++ [(t, A.calls)]) ∧
      Follows c now ts s' (A.fire script now t) (L.filter ((A.fire script now t).Pend now)) ∧
        (∀ q' L', L = q' :: L' → q = some q') ∧
      (L = [] → ∀ q', q = some q' → ((A.fire script now t).tmr q').matchCtr ≠ now) ∧
      ((A.firing t).toList ++ s.firings) <:+ s'.firings) s := by
  obtain rfl := S.first t L rfl
  have ht : A.Pend now t := S.follows.mem.mp (List.mem_cons_self ..)
  refine (S.follows.turn hn hs).mono ?_
  rintro r s' ⟨q, P', rfl, hsub, F', hfirst, hends, hfirings⟩
  have hnd : L.Nodup := (List.nodup_cons.mp S.follows.nodup).2
  obtain rfl := F'.eq_filter hsub hnd
  refine ⟨q, rfl, F', hfirst, fun hL q' hq' => ?_, hfirings⟩
  exact (Acc.fire_firedTo S.follows.valid ht).due q' (hends hL q' hq')

theorem next (F : Follows c now ts s A ((q :: L).filter (A.Pend now))) (hdue : A.Pend now q) :
    Stands c now ts s A (q :: L.filter (A.Pend now)) (some q) := by
  rw [List.filter_cons, if_pos (decide_eq_true hdue)] at F
  refine ⟨F, ?_, fun h => absurd h (List.cons_ne_nil _ _)⟩
  rintro q' L' ⟨⟩
  rfl

theorem none_due (F : Follows c now ts s A (L.filter (A.Pend now))) (hnone : ∀ x ∈ L, ¬ A.Pend now x)
    (hp : ∀ q, p = some q → (A.tmr q).matchCtr ≠ now) : Stands c now ts s A [] p := by
  have hnil : L.filter (A.Pend now) = [] := by
    rw [List.filter_eq_nil_iff]
    intro x hx
    simpa using hnone x hx
  rw [hnil] at F
  exact ⟨F, fun q L h => absurd h.symm (List.cons_ne_nil q L), fun _ => hp⟩

theorem loop_stop {j : ℕ} (F : Follows c now ts s A P) (hp : ∀ q, p = some q → (A.tmr q).matchCtr ≠ now) :
    twp n c (loopN (tmrTaskStepBy script) (j + 1) (p, done)) (fun log s' => log = done ∧ s' = s) s := by
  rw [loopN, twp_bind]
  refine (stop F hp).mono ?_
  rintro _ _ ⟨rfl, rfl⟩
  exact twp_pure.mpr ⟨rfl, rfl⟩

theorem ran {A₀ : Acc} (F : Follows c now ts s A P) (hargs : ∀ x, (A.tmr x).args = (A₀.tmr x).args) (R : Ran A₀ done s.firings)
    (hfirings : ((A.firing t).toList ++ s.firings) <:+ s'.firings) : Ran A₀ (done ++ [(t, A.calls)]) s'.firings := by
  have hcb : (A.tmr t).callbackPtr = (A₀.tmr t).callbackPtr := (congrArg Tmr.callbackPtr (hargs t) :)
  have harg : (A.tmr t).callbackPtrArg = (A₀.tmr t).callbackPtrArg := (congrArg Tmr.callbackPtrArg (hargs t) :)
  rw [← F.calls]
  apply R.append
  rw [Acc.firing, ← hcb, ← harg]
  exact hfirings

theorem loop {A₀ : Acc} {j : ℕ} (hspares : Spares script now A P) (S : Stands c now ts s A P p) (W : Dealt script now A₀ done A)
    (R : Ran A₀ done s.firings) (hn : ts.length < n) (hs : script.length < n) (hj : P.length < j) :
    twp n c (loopN (tmrTaskStepBy script) j (p, done))
      (fun log s' => ∃ B, Follows c now ts s' B [] ∧ Dealt script now A₀ log B ∧ Ran A₀ log s'.firings) s := by
  induction hspares generalizing s p done j with
  | nil =>
    obtain ⟨j, rfl⟩ : ∃ i, j = i + 1 := ⟨j - 1, by simp at hj; omega⟩
    refine (loop_stop S.follows (S.ends rfl)).mono ?_
    rintro _ _ ⟨rfl, rfl⟩
    exact ⟨_, S.follows, W, R⟩
  | @last A t =>
    obtain ⟨j, rfl⟩ : ∃ i, j = i + 2 := ⟨j - 2, by simp at hj; omega⟩
    have ht : A.Pend now t := S.follows.mem.mp (List.mem_cons_self ..)
    rw [loopN, twp_bind]
    refine (S.turn hn hs).mono ?_
    rintro _ s' ⟨q, rfl, F, -, hends, hfirings⟩
    refine (loop_stop F (hends rfl)).mono ?_
    rintro _ _ ⟨rfl, rfl⟩
    exact ⟨_, F, W.fire ht (Acc.fire_firedTo S.follows.valid ht), ran S.follows W.args R hfirings⟩
  | @next A t q L due rest ih =>
    obtain ⟨j, rfl⟩ : ∃ i, j = i + 1 := ⟨j - 1, by simp at hj; omega⟩
    have ht : A.Pend now t := S.follows.mem.mp (List.mem_cons_self ..)
    rw [loopN, twp_bind]
    refine (S.turn hn hs).mono ?_
    rintro _ s' ⟨q', rfl, F, hfirst, -, hfirings⟩
    obtain rfl := hfirst q L rfl
    apply ih (next F due) (W.fire ht (Acc.fire_firedTo S.follows.valid ht)) (ran S.follows W.args R hfirings)
    have hle := List.length_filter_le ((A.fire script now t).Pend now) L
    simp only [List.length_cons] at hj ⊢
    omega
  | @moved A t q L started none =>
    obtain ⟨j, rfl⟩ : ∃ i, j = i + 2 := ⟨j - 2, by simp at hj; omega⟩
    have ht : A.Pend now t := S.follows.mem.mp (List.mem_cons_self ..)
    rw [loopN, twp_bind]
    refine (S.turn hn hs).mono ?_
    rintro _ s' ⟨q', rfl, F, hfirst, -, hfirings⟩
    obtain rfl := hfirst q L rfl
    have hall : ∀ x ∈ q :: L, ¬ (A.fire script now t).Pend now x := by
      intro x hx
      rcases List.mem_cons.mp hx with rfl | hx
      · exact fun h => started h.2.2
      · exact none x hx
    have S' : Stands c now ts s' (A.fire script now t) [] (some q) := by
      apply none_due F hall
      rintro _ ⟨⟩
      exact started
    refine (loop_stop S'.follows (S'.ends rfl)).mono ?_
    rintro _ _ ⟨rfl, rfl⟩
    exact ⟨_, S'.follows, W.fire ht (Acc.fire_firedTo S.follows.valid ht), ran S.follows W.args R hfirings⟩

theorem loop_of_not_spares {A₀ : Acc} {j : ℕ} (hspares : ¬ Spares script now A P) (S : Stands c now ts s A P p)
    (W : Dealt script now A₀ done A) (hn : ts.length < n) (hs : script.length < n) :
    wp n c (loopN (tmrTaskStepBy script) j (p, done))
      (fun log s' => ∃ B x, Dealt script now A₀ log B ∧ B.Pend now x ∧ s'.firings.length = B.calls) s := by
  induction j generalizing s A P p done with
  | zero => exact wp_fault
  | succ j ih =>
    obtain ⟨t, q, L, rfl⟩ : ∃ t q L, P = t :: q :: L := by
      rcases P with _ | ⟨t, _ | ⟨q, L⟩⟩
      · exact absurd .nil hspares
      · exact absurd .last hspares
      · exact ⟨t, q, L, rfl⟩
    have ht : A.Pend now t := S.follows.mem.mp (List.mem_cons_self ..)
    have W' : Dealt script now A₀ (done ++ [(t, A.calls)]) (A.fire script now t) :=
      W.fire ht (Acc.fire_firedTo S.follows.valid ht)
    rw [loopN]
    refine (S.turn hn hs).wp_bind ?_
    rintro _ s' ⟨q', rfl, F, hfirst, -⟩
    obtain rfl := hfirst q L rfl
    by_cases hdue : (A.fire script now t).Pend now q
    · exact ih (fun h => hspares (.next hdue h)) (next F hdue) W'
    · dsimp only
      cases j with
      | zero => exact wp_fault
      | succ j =>
        by_cases hmatch : ((A.fire script now t).tmr q).matchCtr = now
        · rw [loopN, wp_bind]
          exact F.stopped_faults hmatch hdue
        · obtain ⟨x, hx, hpend⟩ : ∃ x ∈ L, (A.fire script now t).Pend now x := by
            by_contra hcon
            apply hspares
            apply Spares.moved hmatch
            intro x hx hpend
            exact hcon ⟨x, hx, hpend⟩
          have hstop : ∀ q', some q = some q' → ((A.fire script now t).tmr q').matchCtr ≠ now := by
            rintro _ ⟨⟩
            exact hmatch
          obtain ⟨log, s'', hrun, rfl, rfl⟩ : twp n c (loopN (tmrTaskStepBy script) (j + 1) (some q, done ++ [(t, A.calls)]))
            (fun log s'' => log = done ++ [(t, A.calls)] ∧ s'' = s') s' := loop_stop F hstop
          intro log' s₂ hrun'
          rw [hrun] at hrun'
          cases hrun'
          exact ⟨_, x, W', hpend, F.calls⟩

end Stands

/-- The timers that are due in the next tick are those of `L`, as they come on their spoke. -/
def DueTimers (c : TmrCfg) (s : Sys) (L : List TmrId) : Prop :=
  ∃ M : List TmrId, (∀ k, s.tmrAt ((s.tmrTickCtr + 1).toNat % c.tmrWheelSize) k = M[k]?) ∧
    L = M.filter fun x => s.due x = s.tmrTickCtr + 1

theorem DueTimers.unique {L L' : List TmrId} (h : DueTimers c s L) (h' : DueTimers c s L') : L = L' := by
  obtain ⟨M, hM, rfl⟩ := h
  obtain ⟨M', hM', rfl⟩ := h'
  rw [List.ext_getElem? fun k => (hM k).symm.trans (hM' k)]

theorem dueTimers_of_walk {L M : List TmrId} (hM : Chain.walk s.next (M.length + 1)
    (s.tmrWheel ((s.tmrTickCtr + 1).toNat % c.tmrWheelSize)).firstPtr = M)
    (hL : (M.filter fun x => s.due x = s.tmrTickCtr + 1) = L) : DueTimers c s L :=
  ⟨M, chainAt_of_walk hM, hL.symm⟩

theorem Follows.ahead (F : Follows c now ts s A []) (h : TmrOrder c.tmrWheelSize s V)
    (hV : [] = (V (now.toNat % c.tmrWheelSize)).filter fun x => s.due x = now) : Wheel.Ahead s.tmrTickCtr s.due V := by
  rw [F.ctr]
  intro i x hx hdue
  have hi := h.lists.hash i x hx
  rw [hdue] at hi
  have hmem : x ∈ (V (now.toNat % c.tmrWheelSize)).filter fun x => s.due x = now := by
    rw [List.mem_filter, hi]
    exact ⟨hx, decide_eq_true hdue⟩
  rw [← hV] at hmem
  cases hmem

theorem Follows.ticked {L : List TmrId} (F : Follows c now ts s A []) (hdue : DueTimers c s L) :
    Follows c (now + 1) ts s.ticked A L := by
  obtain ⟨V, h, hV⟩ := F.order
  have hctr := F.ctr
  subst hctr
  refine ⟨⟨V, ⟨⟨h.lists.list, h.lists.count, h.lists.hash, h.lists.running⟩, h.sorted.tick (F.ahead h hV), h.valid, h.made⟩, ?_⟩,
    rfl, F.tmr, F.calls, F.os, F.task, F.made, F.loose⟩
  exact hdue.unique ⟨_, h.lists.tmrAt_eq (Nat.mod_lt (s.tmrTickCtr + 1).toNat c.tmrWheelSize_pos), rfl⟩

theorem Follows.dueTimers (F : Follows c now ts s A []) : ∃ L, DueTimers c s L := by
  obtain ⟨V, h, -⟩ := F.order
  exact ⟨_, _, h.lists.tmrAt_eq (Nat.mod_lt (s.tmrTickCtr + 1).toNat c.tmrWheelSize_pos), rfl⟩

theorem Follows.stands (F : Follows c now ts s A P) :
    Stands c now ts s A P (s.tmrWheel (now.toNat % c.tmrWheelSize)).firstPtr := by
  have hfirst : (s.tmrWheel (now.toNat % c.tmrWheelSize)).firstPtr = s.tmrAt (now.toNat % c.tmrWheelSize) 0 := rfl
  refine ⟨F, fun t L hP => ?_, fun hP q hq => ?_⟩
  · obtain ⟨M, hhead, -⟩ := F.spoke.1 t L hP
    exact hhead
  · rw [← F.due]
    exact F.spoke.2 hP q (hfirst ▸ hq)

theorem Follows.task_returns {L : List TmrId} (F : Follows c now ts s A []) (hdue : DueTimers c s L)
    (hspares : Spares script (now + 1) A L) (hn : ts.length < n) (hs : script.length < n) (hlen : L.length < n) :
    twp n c (tmrTaskBy script) (fun log s' => ∃ B, Follows c (now + 1) ts s' B [] ∧ Dealt script (now + 1) A log B ∧
      Ran A log s'.firings) s := by
  obtain rfl : s.tmrTickCtr = now := F.ctr
  rw [tmrTaskBy, twp_bind]
  refine F.locked.mono ?_
  rintro _ s₁ ⟨F₁, o, rfl⟩
  rw [twp_bind, twp_modify, twp_bind, twp_get, twp_bind, twp_ask, twp_bind, twp_getTmrSpoke, twp_bind]
  have hnil : Ran A [] s.firings := fun e he => by cases he
  refine (Stands.loop (n := n) hspares (F₁.ticked hdue).stands (.init A) hnil hn hs hlen).mono ?_
  rintro log s₂ ⟨B, F₂, W, R⟩
  rw [twp_bind, twp_onKernel]
  refine ((osSchedUnlock_returns F₂.os).and_wp (keeps_intNesting_unlock n c.cfg s₂.os)).mono ?_
  rintro _ o' ⟨ho, ht⟩
  exact twp_pure.mpr ⟨B, F₂.onOS ho (ht.trans F₂.task), W, R⟩

theorem Follows.task_fails {L : List TmrId} (F : Follows c now ts s A []) (hdue : DueTimers c s L)
    (hspares : ¬ Spares script (now + 1) A L) (hn : ts.length < n) (hs : script.length < n) :
    wp n c (tmrTaskBy script) (fun log s' => ∃ B x, Dealt script (now + 1) A log B ∧ B.Pend (now + 1) x ∧
      s'.firings.length = B.calls) s := by
  obtain rfl : s.tmrTickCtr = now := F.ctr
  rw [tmrTaskBy]
  refine F.locked.wp_bind ?_
  rintro _ s₁ ⟨F₁, o, rfl⟩
  unfold getTmrSpoke
  simp only [wp_bind, wp_modify, wp_get, wp_ask, wp_pure]
  refine (Stands.loop_of_not_spares (n := n) hspares (F₁.ticked hdue).stands (.init A) hn hs).mono ?_
  rintro log s₂ ⟨B, x, W, hx, hcalls⟩
  rw [wp_bind, wp_onKernel]
  intro _ o' _
  exact wp_pure.mpr ⟨B, x, W, hx, hcalls⟩

section runs

def Sys.acc (s : Sys) : Acc := ⟨s.tmr, s.firings.length⟩

def TmrCall.execBy (script : TmrScript) : TmrCall → T Ret
  | create p dly period opt callback arg => (TmrCall.create p dly period opt callback arg).exec
  | start p => osTmrStart p
  | stop p opt callbackArg => osTmrStopBy (runCallbackBy script) p opt callbackArg
  | remainGet p => osTmrRemainGet p
  | stateGet p => osTmrStateGet p

/-- The states that calls of the timer services and turns of the timer task lead to, from any time of the clock on, if the
callbacks spare the timers that the turns go on with. In between, the kernel may do what it does. -/
inductive TmrCbRun (c : TmrCfg) (script : TmrScript) : Sys → Prop
  | init {o : OS} (ho : Schedulable c.cfg o) (start : Tick) : TmrCbRun c script (tmrInit o start)
  | call {s s' : Sys} {k : TmrCall} {r : Ret} (run : TmrCbRun c script s) (fair : k.Fair s)
      (exec : Prog.Runs c (k.execBy script) s r s') : TmrCbRun c script s'
  | turn {s s' : Sys} {L : List TmrId} {log : List Expiry} (run : TmrCbRun c script s) (task : s.os.intNestingCtr = 0)
      (due : DueTimers c s L) (spares : Spares script (s.tmrTickCtr + 1) s.acc L)
      (exec : Prog.Runs c (tmrTaskBy script) s log s') : TmrCbRun c script s'
  | kernel {s : Sys} {o : OS} (run : TmrCbRun c script s) (ho : Schedulable c.cfg o) : TmrCbRun c script { s with os := o }

/-- What a turn of the timer task should do. It has dealt with the timers of `log`, and their callbacks have run. -/
structure PassOk (c : TmrCfg) (script : TmrScript) (s : Sys) (log : List Expiry) (s' : Sys) : Prop where
  lists : ∃ V, TmrLists c.tmrWheelSize s' V
  linked : ∀ t, (s'.tmr t).state = .running ↔ ∃! x : ℕ × ℕ, x.1 < c.tmrWheelSize ∧ s'.tmrAt x.1 x.2 = some t
  due : ∀ e ∈ log, (s.tmr e.1).state = .running ∧ (s.tmr e.1).matchCtr = s.tmrTickCtr + 1
  once : (log.map Prod.fst).Nodup
  ran : Ran s.acc log s'.firings
  spared : ∀ e ∈ log, ¬ TouchedIn script [] s.firings.length e.2 e.1
  fires : ∀ t, (s.tmr t).state = .running → (s.tmr t).matchCtr = s.tmrTickCtr + 1 →
    ¬ TouchedIn script [] s.firings.length s'.firings.length t → t ∈ log.map Prod.fst

def Quiet (c : TmrCfg) (ts : List TmrId) (s : Sys) : Prop :=
  Follows c s.tmrTickCtr ts { s with os := { s.os with intNestingCtr := 0 } } s.acc []

theorem Follows.quiet (F : Follows c now ts s A []) : Quiet c ts s := by
  have hctr : s.tmrTickCtr = now := F.ctr
  subst hctr
  obtain ⟨V, h, hV⟩ := F.order
  exact ⟨⟨V, h.kernel, hV⟩, rfl, fun _ => rfl, rfl, F.os.congr rfl rfl rfl, rfl, F.made, F.loose⟩

namespace Quiet

theorem follows (Q : Quiet c ts s) (h : s.os.intNestingCtr = 0) : Follows c s.tmrTickCtr ts s s.acc [] := by
  have hos : { s.os with intNestingCtr := 0 } = s.os := by rw [← h]
  rw [Quiet, hos] at Q
  exact Q

theorem made (Q : Quiet c ts s) (hx : (s.tmr x).isTmr = true) : x ∈ ts := by
  rw [Quiet] at Q
  exact Q.made x hx

theorem loose (Q : Quiet c ts s) : Loose s := by
  rw [Quiet] at Q
  exact Q.loose

theorem tmrOk (Q : Quiet c ts s) : ∃ V, TmrOk c s V := by
  rw [Quiet] at Q
  obtain ⟨V, h, hV⟩ := Q.order
  exact ⟨V, h.kernel (o := s.os) (l := s.firings), Q.ahead h hV, Q.os.congr rfl rfl rfl⟩

theorem kernel (Q : Quiet c ts s) (ho : Schedulable c.cfg o) : Quiet c ts { s with os := o } := by
  rw [Quiet] at Q
  exact (Q.onOS (o := { o with intNestingCtr := 0 }) (ho.congr rfl rfl rfl) rfl).quiet

theorem after {f : TmrId → Tmr → Tmr} {ts' : List TmrId} (Q : Quiet c ts s) (h : TmrAfter c s f s')
    (hmade : ∀ x, (f x (s.tmr x)).isTmr = true → (s.tmr x).isTmr = true ∨ x ∈ ts')
    (hrun : ∀ x, (s.tmr x).state = .running → (f x (s.tmr x)).state = .running)
    (hprev : ∀ x, s'.prev x = s.prev x ∨ s'.prev x = none) : Quiet c (ts' ++ ts) s' := by
  obtain ⟨⟨V, hok⟩, hctr, htmr⟩ := h
  refine ⟨⟨V, hok.order.kernel, ?_⟩, rfl, fun _ => rfl, rfl, hok.os.congr rfl rfl rfl, rfl, fun x hx => ?_, fun x hx => ?_⟩
  · symm
    rw [List.filter_eq_nil_iff]
    intro x hx
    rw [decide_eq_true_iff]
    exact hok.ahead _ x hx
  · have his : (s'.tmr x).isTmr = (f x (s.tmr x)).isTmr := (congrArg Tmr.isTmr (htmr x) :)
    rw [List.mem_append]
    rcases hmade x (his.symm.trans hx) with hx | hx
    · exact .inr (Q.made hx)
    · exact .inl hx
  · have hst : (s'.tmr x).state = (f x (s.tmr x)).state := (congrArg Tmr.state (htmr x) :)
    have hloose : s.prev x = none := by
      apply Q.loose x
      intro hr
      exact hx (hst.trans (hrun x hr))
    rcases hprev x with h | h
    · exact h.trans hloose
    · exact h

theorem osTmrCreate_prev {p : Option TmrId} {dly period : Tick} {opt : Opt} {f : Option Callback} {arg : Option ℕ} :
    wp n c (osTmrCreate p dly period opt f arg) (fun _ s' => ∀ x, s'.prev x = s.prev x ∨ s'.prev x = none) s := by
  have hsame (e : Err) : wp n c (return e : T Err) (fun _ s' => ∀ x, s'.prev x = s.prev x ∨ s'.prev x = none) s :=
    wp_pure.mpr fun _ => .inl rfl
  have hend (t : TmrId) (a : Tmr) (ha : a.prevPtr = none) : wp n c (do
      modTmr t fun _ => a
      Prog.modify fun s => { s with tmrQty := s.tmrQty + 1 }
      return Err.none) (fun _ s' => ∀ x, s'.prev x = s.prev x ∨ s'.prev x = none) s := by
    rw [wp_bind, modTmr, wp_modify, wp_bind, wp_modify]
    refine wp_pure.mpr fun x => ?_
    change ((s.modTmr t fun _ => a).tmr x).prevPtr = _ ∨ ((s.modTmr t fun _ => a).tmr x).prevPtr = _
    rw [Sys.modTmr_tmr]
    split
    · exact .inr ha
    · exact .inl rfl
  unfold osTmrCreate
  rw [wp_bind, wp_get, wp_ite]
  refine ⟨fun _ => hsame _, fun _ => ?_⟩
  cases p with
  | none => exact hsame _
  | some t =>
    rw [wp_ite, wp_ite, wp_ite, wp_ite]
    refine ⟨fun _ => ⟨fun _ => hsame _, fun _ => hend t _ rfl⟩, fun _ => ⟨fun _ => ⟨fun _ => hsame _, fun _ => hend t _ rfl⟩,
      fun _ => hsame _⟩⟩

theorem keeps_prev_remainGet (p : Option TmrId) : Keeps Sys.prev (osTmrRemainGet p) := by
  have hunlock (r : Ret) : Keeps Sys.prev (do let _ ← onKernel osSchedUnlock; return r : T Ret) := by
    intro n c s
    rw [wp_bind, wp_onKernel]
    exact fun _ _ _ => wp_pure.mpr rfl
  have hremain (t : TmrId) (v : Tick) : Keeps Sys.prev (modTmr t fun a => { a with remain := v }) := by
    refine keeps_modify fun s => funext fun x => ?_
    rw [Sys.prev, Sys.modTmr_tmr]
    split
    · rename_i h
      rw [h]
      rfl
    · rfl
  refine keeps_bind keeps_get fun s => keeps_ite (keeps_pure _) ?_
  cases p with
  | none => exact keeps_pure _
  | some t =>
    refine keeps_ite (keeps_pure _) (keeps_bind ?_ fun _ => keeps_bind (keeps_bind keeps_get fun _ => keeps_pure _) fun a => ?_)
    · intro n c s
      rw [wp_onKernel]
      exact fun _ _ _ => rfl
    · cases a.state with
      | running => exact keeps_bind keeps_get fun _ => keeps_bind (hremain _ _) fun _ => hunlock _
      | stopped => exact keeps_bind (hremain _ _) fun _ => hunlock _
      | completed | unused => exact hunlock _

theorem called {k : TmrCall} (Q : Quiet c ts s) (hfair : k.Fair s) (hn : ts.length < n) (hs : script.length < n) :
    twp n c (k.execBy script) (fun _ s' => Quiet c (k.tmr.toList ++ ts) s') s := by
  obtain ⟨V, hok⟩ := Q.tmrOk
  have hmore (s' : Sys) (Q' : Quiet c ts s') : Quiet c (k.tmr.toList ++ ts) s' := by
    rw [Quiet] at Q' ⊢
    exact { Q' with made := fun x hx => List.mem_append_right _ (Q'.made x hx) }
  -- a start or a stop is refused in an interrupt
  have hisr (m : TmrId → T Ret) (p : Option TmrId)
      (hm : s.os.intNestingCtr = 0 → twp n c (checkTmr p m) (fun _ s' => Quiet c ts s') s) :
      twp n c (checkTmr p m) (fun _ s' => Quiet c (k.tmr.toList ++ ts) s') s := by
    by_cases h : s.os.intNestingCtr = 0
    · exact (hm h).mono fun _ s' h' => hmore s' h'
    · rw [checkTmr, twp_bind, twp_get, twp_ite]
      exact ⟨fun _ => twp_pure.mpr (hmore s Q), fun hle => absurd hle (by omega)⟩
  cases k with
  | start p =>
    apply hisr
    intro h
    refine ((Q.follows h).tmrStart hn p).mono ?_
    rintro _ s' ⟨P', hP', F'⟩
    rw [List.sublist_nil.mp hP'] at F'
    exact F'.quiet
  | stop p opt arg =>
    apply hisr
    intro h
    refine ((Q.follows h).tmrStop (Follows.runCallbackBy hn hs) (Nat.zero_le _) p opt arg).mono ?_
    rintro _ s' ⟨P', hP', F'⟩
    rw [List.sublist_nil.mp hP'] at F'
    exact F'.quiet
  | create p dly period opt f arg =>
    rw [TmrCall.execBy, TmrCall.exec, twp_bind]
    refine ((osTmrCreate_after p dly period opt f arg hok hfair).and_wp osTmrCreate_prev).mono ?_
    rintro e s' ⟨hafter, hprev⟩
    refine twp_pure.mpr (Q.after hafter (fun x hx => ?_) (fun x hx => ?_) hprev)
    · rw [TmrCall.effect] at hx
      split at hx
      · rename_i hp
        right
        rw [TmrCall.tmr, hp.1]
        exact List.mem_singleton_self x
      · exact .inl hx
    · rw [TmrCall.effect, if_neg]
      · exact hx
      · intro hp
        exact hfair x hp.1 hx
  | remainGet p =>
    refine ((osTmrRemainGet_after p hok).and_wp (keeps_prev_remainGet p n c s)).mono ?_
    rintro r s' ⟨hafter, hprev'⟩
    exact Q.after hafter (fun x hx => .inl hx) (fun x hx => hx) fun x => .inl (congrFun hprev' x)
  | stateGet p =>
    apply hisr
    intro h
    refine (Q.follows h).check (fun _ _ => Q) fun t _ _ => ?_
    rw [twp_bind, twp_getTmr]
    exact twp_pure.mpr Q

theorem init (ho : Schedulable c.cfg o) (start : Tick) : Quiet c [] (tmrInit o start) := by
  have hlists : TmrLists c.tmrWheelSize (tmrInit o start) fun _ => [] := by
    refine ⟨fun i _ => ⟨none, .nil⟩, fun i _ => rfl, by simp, fun x => ?_⟩
    simp [tmrInit]
  have horder : TmrOrder c.tmrWheelSize (tmrInit o start) fun _ => [] := by
    refine ⟨hlists, ⟨by simp, by simp⟩, fun t ht => ?_, by simp⟩
    cases ht
  refine ⟨⟨_, horder.kernel, rfl⟩, rfl, fun _ => rfl, rfl, ho.congr rfl rfl rfl, rfl, fun x hx => ?_, fun _ _ => rfl⟩
  cases hx

end Quiet

theorem tmrCbRun_quiet (run : TmrCbRun c script s) : ∃ ts, Quiet c ts s := by
  induction run with
  | init ho start => exact ⟨[], Quiet.init ho start⟩
  | @call s s' k r run fair exec ih =>
    obtain ⟨ts, Q⟩ := ih
    refine ⟨k.tmr.toList ++ ts, ?_⟩
    apply exec.twp (k := max ts.length script.length + 1) (Q := fun _ s' => Quiet c (k.tmr.toList ++ ts) s')
    intro n hn
    exact Q.called fair (by omega) (by omega)
  | @turn s s' L log run task due spares exec ih =>
    obtain ⟨ts, Q⟩ := ih
    refine ⟨ts, ?_⟩
    apply exec.twp (k := max (max ts.length script.length) L.length + 1)
    intro n hn
    refine ((Q.follows task).task_returns due spares (by omega) (by omega) (by omega)).mono ?_
    rintro log s₂ ⟨B, F, -⟩
    exact F.quiet
  | kernel run ho ih =>
    obtain ⟨ts, Q⟩ := ih
    exact ⟨ts, Q.kernel ho⟩

theorem passOk_of_spares {L : List TmrId} (run : TmrCbRun c script s) (htask : s.os.intNestingCtr = 0)
    (hdue : DueTimers c s L) (hspares : Spares script (s.tmrTickCtr + 1) s.acc L) :
    ∃ log s', Prog.Runs c (tmrTaskBy script) s log s' ∧ PassOk c script s log s' := by
  obtain ⟨ts, Q⟩ := tmrCbRun_quiet run
  let n := max (max ts.length script.length) L.length + 1
  obtain ⟨log, s', hrun, B, F, W, R⟩ : twp n c (tmrTaskBy script) (fun log s' => ∃ B, Follows c (s.tmrTickCtr + 1) ts s' B [] ∧
      Dealt script (s.tmrTickCtr + 1) s.acc log B ∧ Ran s.acc log s'.firings) s :=
    (Q.follows htask).task_returns hdue hspares (by omega) (by omega) (by omega)
  obtain ⟨V, h, -⟩ := F.order
  refine ⟨log, s', ⟨n, hrun⟩, ⟨V, h.lists⟩, fun t => h.lists.linked c.tmrWheelSize_pos, fun e he => ?_, W.nodup, R,
    fun e he => (W.spared e he).2.2, fun t hst hdue hno => ?_⟩
  · exact (W.spared e he).1.2
  · obtain ⟨V₀, h₀⟩ := Q.tmrOk
    obtain ⟨i, hi⟩ := (h₀.order.lists.running t).mp hst
    rw [F.calls] at hno
    refine (W.covers t ⟨h₀.order.made i t hi, hst, hdue⟩ hno).resolve_left fun hpend => ?_
    cases F.mem.mpr hpend

theorem spares_of_passOk {log : List Expiry} (run : TmrCbRun c script s) (htask : s.os.intNestingCtr = 0)
    (exec : Prog.Runs c (tmrTaskBy script) s log s') (hok : PassOk c script s log s') :
    ∃ L, DueTimers c s L ∧ Spares script (s.tmrTickCtr + 1) s.acc L := by
  obtain ⟨ts, Q⟩ := tmrCbRun_quiet run
  obtain ⟨L, hdue⟩ := (Q.follows htask).dueTimers
  refine ⟨L, hdue, ?_⟩
  by_contra hspares
  obtain ⟨m, hm⟩ := exec
  let n := max m (max ts.length script.length + 1)
  have hn := (tmrTaskBy script).more (le_max_left m (max ts.length script.length + 1)) hm
  obtain ⟨B, x, W, hx, hcalls⟩ := (Q.follows htask).task_fails (n := n) hdue hspares (by omega) (by omega) log s' hn
  obtain ⟨hA, hlog, hno⟩ := W.pend x hx
  rw [← hcalls] at hno
  exact hlog (hok.fires x hA.2.1 hA.2.2 hno)

/-- Whatever the timers and the callbacks, a turn of the timer task does what it should exactly if each callback spares the
timer that the task goes on with. -/
theorem tmrTask_callbacks (run : TmrCbRun c script s) (htask : s.os.intNestingCtr = 0) :
    (∃ log s', Prog.Runs c (tmrTaskBy script) s log s' ∧ PassOk c script s log s') ↔
      ∃ L, DueTimers c s L ∧ Spares script (s.tmrTickCtr + 1) s.acc L := by
  constructor
  · rintro ⟨log, s', exec, hok⟩
    exact spares_of_passOk run htask exec hok
  · rintro ⟨L, hdue, hspares⟩
    exact passOk_of_spares run htask hdue hspares

section play

instance (s : Sys) : (k : TmrCall) → Decidable (k.Fair s)
  | .create p _ _ _ _ _ => inferInstanceAs (Decidable (∀ t ∈ p, (s.tmr t).state ≠ .running))
  | .start _ => isTrue trivial
  | .stop _ _ _ => isTrue trivial
  | .remainGet _ => isTrue trivial
  | .stateGet _ => isTrue trivial

def playCbs (c : TmrCfg) (n : ℕ) (script : TmrScript) : List TmrCall → Sys → Option Sys
  | [], s => some s
  | k :: ks, s => if k.Fair s then (k.execBy script n c s).bind fun x => playCbs c n script ks x.2 else none

theorem TmrCbRun.of_play {ks : List TmrCall} (run : TmrCbRun c script s) (hplay : playCbs c n script ks s = some s') :
    TmrCbRun c script s' := by
  induction ks generalizing s with
  | nil =>
    cases hplay
    exact run
  | cons k ks ih =>
    rw [playCbs] at hplay
    split at hplay
    · rename_i hfair
      obtain ⟨⟨r, s₁⟩, hx, hrest⟩ := Option.bind_eq_some_iff.mp hplay
      exact ih (run.call hfair ⟨n, hx⟩) hrest
    · cases hplay

def startAll (ts : List TmrId) : List TmrCall :=
  ts.flatMap fun t => [.create (some t) 1 0 optTmrOneShot (some 7) none, .start (some t)]

theorem tmrCbRun_startAll {ts : List TmrId} {Q : Sys → Prop} [DecidablePred Q]
    (hplay : ((osInit 9 Cfg.repository (OS.boot Cfg.repository)).bind fun o =>
      playCbs TmrCfg.repository 9 script (startAll ts) (tmrInit o.2 0)).any (fun s => Q s) = true) :
    ∃ s, TmrCbRun TmrCfg.repository script s ∧ Q s := by
  obtain ⟨s, hb, hQ⟩ := (Option.any_eq_true _ _).mp hplay
  obtain ⟨⟨⟨⟩, o⟩, ho, hb⟩ := Option.bind_eq_some_iff.mp hb
  have hsch : Schedulable TmrCfg.repository.cfg o := run_schedulable (.init ⟨9, ho⟩)
  exact ⟨s, (TmrCbRun.init hsch 0).of_play hb, of_decide_eq_true hQ⟩

end play

/-- The callback of the first of three timers that are due stops the last of them and starts its own timer again. -/
theorem tmrTask_callbacks_three : ∃ s, TmrCbRun TmrCfg.repository [[.stop (some 0) optTmrNone none, .start (some 2)]] s ∧
    DueTimers TmrCfg.repository s [2, 1, 0] ∧
    ∃ log s', Prog.Runs TmrCfg.repository (tmrTaskBy [[.stop (some 0) optTmrNone none, .start (some 2)]]) s log s' ∧
      PassOk TmrCfg.repository [[.stop (some 0) optTmrNone none, .start (some 2)]] s log s' := by
  have hplay : ((osInit 9 Cfg.repository (OS.boot Cfg.repository)).bind fun o =>
      playCbs TmrCfg.repository 9 [[.stop (some 0) optTmrNone none, .start (some 2)]] (startAll [0, 1, 2]) (tmrInit o.2 0)).any
        (fun s => s.os.intNestingCtr = 0 ∧ (Chain.walk s.next 4
            (s.tmrWheel ((s.tmrTickCtr + 1).toNat % TmrCfg.repository.tmrWheelSize)).firstPtr = [2, 1, 0] ∧
            ([2, 1, 0].filter fun x => s.due x = s.tmrTickCtr + 1) = [2, 1, 0]) ∧
          (s.acc.fire [[.stop (some 0) optTmrNone none, .start (some 2)]] (s.tmrTickCtr + 1) 2).Pend (s.tmrTickCtr + 1) 1 ∧
          ¬ (s.acc.fire [[.stop (some 0) optTmrNone none, .start (some 2)]] (s.tmrTickCtr + 1) 2).Pend (s.tmrTickCtr + 1) 0)
        = true := by
    decide +kernel
  obtain ⟨s, run, htask, ⟨hwalk, hall⟩, h₁, h₀⟩ := tmrCbRun_startAll hplay
  have hdue : DueTimers TmrCfg.repository s [2, 1, 0] := dueTimers_of_walk (M := [2, 1, 0]) hwalk hall
  refine ⟨s, run, hdue, (tmrTask_callbacks run htask).mpr ⟨_, hdue, ?_⟩⟩
  apply Spares.next h₁
  rw [List.filter_cons, if_neg (by simpa using h₀)]
  exact .last

/-- The callback of the first of two timers that are due stops the other. -/
theorem tmrTask_stops_next : ∃ s, TmrCbRun TmrCfg.repository [[.stop (some 0) optTmrNone none]] s ∧ s.os.intNestingCtr = 0 ∧
    DueTimers TmrCfg.repository s [1, 0] ∧
    ¬ ∃ log s', Prog.Runs TmrCfg.repository (tmrTaskBy [[.stop (some 0) optTmrNone none]]) s log s' ∧
      PassOk TmrCfg.repository [[.stop (some 0) optTmrNone none]] s log s' := by
  have hplay : ((osInit 9 Cfg.repository (OS.boot Cfg.repository)).bind fun o =>
      playCbs TmrCfg.repository 9 [[.stop (some 0) optTmrNone none]] (startAll [0, 1]) (tmrInit o.2 0)).any
        (fun s => s.os.intNestingCtr = 0 ∧ (Chain.walk s.next 3
            (s.tmrWheel ((s.tmrTickCtr + 1).toNat % TmrCfg.repository.tmrWheelSize)).firstPtr = [1, 0] ∧
            ([1, 0].filter fun x => s.due x = s.tmrTickCtr + 1) = [1, 0]) ∧
          ¬ (s.acc.fire [[.stop (some 0) optTmrNone none]] (s.tmrTickCtr + 1) 1).Pend (s.tmrTickCtr + 1) 0 ∧
          ((s.acc.fire [[.stop (some 0) optTmrNone none]] (s.tmrTickCtr + 1) 1).tmr 0).matchCtr = s.tmrTickCtr + 1) = true := by
    decide +kernel
  obtain ⟨s, run, htask, ⟨hwalk, hall⟩, hpend, hmatch⟩ := tmrCbRun_startAll hplay
  have hdue : DueTimers TmrCfg.repository s [1, 0] := dueTimers_of_walk (M := [1, 0]) hwalk hall
  refine ⟨s, run, htask, hdue, ?_⟩
  rintro ⟨log, s', exec, hok⟩
  obtain ⟨L, hL, hspares⟩ := spares_of_passOk run htask exec hok
  obtain rfl := hdue.unique hL
  cases hspares with
  | next due _ => exact hpend due
  | moved started _ => exact started hmatch

end runs

end follow

end UcosIII
