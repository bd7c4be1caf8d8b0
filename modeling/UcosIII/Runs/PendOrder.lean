import UcosIII.Runs.PendPlaces

namespace UcosIII

open Prog

variable {cfg : Cfg} {s : OS} {a a' b : Abs} {K : ObjType → Prop} {T T' : TcbId → Prop} {h : List Step} {t : TcbId}
  {d : PdId} {e : Event} {r : Option Ret} {E : Env}

section served

def ServesOne (o : ObjId) : Event → Option Ret → Prop
  | .call (.semPost (some o') opt), some r | .call (.qPost (some o') _ _ opt), some r =>
    o' = o ∧ opt &&& optPostAll = 0 ∧ r.err = .none
  | .call (.semPendAbort (some o') opt), some r | .call (.qPendAbort (some o') opt), some r =>
    o' = o ∧ opt ≠ optPendAbortAll ∧ r.err = .none
  | .call (.mutexPost (some o') _), some r => o' = o ∧ r.err = .none
  | _, _ => False

/-- The wait of `t` is over, and the entries of the other tasks are where they were. -/
structure Abs.Served (a b : Abs) (t : TcbId) : Prop where
  waiting : ∃ st, b.waiting = (a.wake t st).waiting
  pendOn : (b.task t).pendOn = .nothing

theorem Abs.Sched.waiting (hs : a.Sched a') : a'.waiting = a.waiting := by
  obtain ⟨-, rfl⟩ | ⟨-, rfl⟩ | ⟨-, -, p, t, -, rfl⟩ := hs <;> rfl

theorem Abs.Served.sched (h : a.Served b t) (hs : b.Sched a') : a.Served a' t := by
  obtain ⟨st, hw⟩ := h.waiting
  refine ⟨⟨st, hs.waiting.trans hw⟩, ?_⟩
  rw [hs.task]
  exact h.pendOn

theorem Abs.Sound.served_wake (hI : a.Sound cfg) (t : TcbId) (st : PendStatus) : a.Served (a.wake t st) t := by
  refine ⟨⟨st, rfl⟩, ?_⟩
  have := hI.wait.pendOn_iff t
  rw [Abs.task_wake, if_pos rfl]
  grind

variable {n : ℕ} {o : ObjId}

theorem Rep.pendNbr_ne (h : Rep cfg s a) (hd : (a.waiting o).head? = some d) : (s.obj o).pendList.nbrEntries ≠ 0 := by
  have hnbr : (s.obj o).pendList.nbrEntries = (a.waiting o).length := (h.pend.list o).nbr_eq
  cases hl : a.waiting o with
  | nil => simp [hl] at hd
  | cons => simp [hnbr, hl]

theorem schedOpt_served {opt : Opt} (h : Rep cfg s b) (hw : a.Served b t) :
    wp n cfg (schedOpt opt) (fun _ s' => ∃ a', Rep cfg s' a' ∧ a.Served a' t) s := by
  refine (schedOpt_spec h opt).mono ?_
  rintro _ s' ⟨a', h', hs⟩
  refine ⟨a', h', ?_⟩
  split at hs
  · exact hw.sched hs
  · rwa [hs]

theorem postLoop_one (h : Rep cfg s a) (hI : a.Sound cfg) (hd : (a.waiting o).head? = some d) (pVoid : Option ℕ)
    (msgSize ts : ℕ) : wp n cfg (postLoop o pVoid msgSize ts 1 (s.obj o).pendList.headPtr)
      (fun _ s' => ∃ b, Rep cfg s' b ∧ a.Served b d.1) s := by
  rw [postLoop, wp_bind, wp_deref, h.pendHead, hd]
  rintro _ ⟨⟩
  rw [wp_bind, wp_getPendData, wp_bind, wp_deref, h.tcbPtr hI (List.mem_of_mem_head? hd)]
  rintro _ ⟨⟩
  rw [wp_bind]
  refine (post_spec h hI (by simp) pVoid msgSize ts).mono ?_
  intro _ s' h'
  exact wp_pure.mpr ⟨_, h', hI.served_wake d.1 .ok⟩

theorem semPost_one {opt : Opt} {ts : ℕ} (h : Rep cfg s a) (hI : a.Sound cfg) (hd : (a.waiting o).head? = some d)
    (hopt : opt &&& optPostAll = 0) :
    wp n cfg (semPost o opt ts) (fun _ s' => ∃ b, Rep cfg s' b ∧ a.Served b d.1) s := by
  rw [semPost, wp_bind, wp_getObj, wp_ite]
  constructor
  · intro hz
    exact absurd hz (h.pendNbr_ne hd)
  · intro _
    rw [wp_bind, if_neg (by simpa using hopt)]
    refine (postLoop_one h hI hd none 0 ts).mono ?_
    rintro _ s₁ ⟨b, h₁, hw⟩
    rw [wp_bind, wp_getObj, wp_bind]
    exact (schedOpt_served h₁ hw).mono fun _ _ h' => wp_pure.mpr h'

theorem qPost_one {pVoid : Option ℕ} {msgSize : ℕ} {opt : Opt} {ts : ℕ} (h : Rep cfg s a) (hI : a.Sound cfg)
    (hd : (a.waiting o).head? = some d) (hopt : opt &&& optPostAll = 0) :
    wp n cfg (qPost o pVoid msgSize opt ts) (fun _ s' => ∃ b, Rep cfg s' b ∧ a.Served b d.1) s := by
  rw [qPost, wp_bind, wp_getObj, wp_ite]
  constructor
  · intro hz
    exact absurd hz (h.pendNbr_ne hd)
  · intro _
    rw [wp_bind, if_neg (by simpa using hopt)]
    refine (postLoop_one h hI hd pVoid msgSize ts).mono ?_
    rintro _ s₁ ⟨b, h₁, hw⟩
    rw [wp_bind]
    exact (schedOpt_served h₁ hw).mono fun _ _ h' => wp_pure.mpr h'

theorem pendAbortLoop_one {opt : Opt} {ts : ℕ} (h : Rep cfg s a) (hI : a.Sound cfg) (hd : (a.waiting o).head? = some d)
    (hopt : opt ≠ optPendAbortAll) :
    wp n cfg (Prog.loop (pendAbortStep o opt ts) 0) (fun _ s' => ∃ b, Rep cfg s' b ∧ a.Served b d.1) s := by
  refine wp_loop (fun _ s' => s' = s) ?_ rfl
  rintro k _ rfl
  rw [pendAbortStep, wp_bind, wp_getObj, wp_ite]
  constructor
  · intro hz
    exact absurd hz (h.pendNbr_ne hd)
  · intro _
    rw [wp_bind, wp_deref, h.pendHead, hd]
    rintro _ ⟨⟩
    rw [wp_bind, wp_getPendData, wp_bind, wp_deref, h.tcbPtr hI (List.mem_of_mem_head? hd)]
    rintro _ ⟨⟩
    rw [wp_bind]
    refine (pendAbort_spec h hI (by simp) ts).mono ?_
    intro _ s' h'
    rw [if_pos hopt]
    exact wp_pure.mpr ⟨_, h', hI.served_wake d.1 .abort⟩

theorem objPendAbort_one {type : ObjType} {opt : Opt} (h : Rep cfg s a) (hI : a.Sound cfg)
    (hd : (a.waiting o).head? = some d) (hopt : opt ≠ optPendAbortAll) :
    wp n cfg (objPendAbort type (some o) opt) (fun r s' => r.err = .none → ∃ b, Rep cfg s' b ∧ a.Served b d.1) s := by
  rw [objPendAbort.eq_def, wp_bind, wp_get, wp_ite]
  refine ⟨fun _ => wp_pure.mpr (by simp), fun _ => ?_⟩
  dsimp only
  rw [wp_ite]
  refine ⟨fun _ => wp_pure.mpr (by simp), fun _ => ?_⟩
  rw [wp_bind, wp_getObj, wp_ite]
  refine ⟨fun _ => wp_pure.mpr (by simp), fun _ => ?_⟩
  rw [wp_bind, wp_getObj, wp_ite]
  refine ⟨fun _ => wp_pure.mpr (by simp), fun _ => ?_⟩
  rw [wp_bind]
  refine (pendAbortLoop_one h hI hd hopt).mono ?_
  rintro k s₁ ⟨b, h₁, hw⟩
  rw [wp_bind]
  exact (schedOpt_served h₁ hw).mono fun _ _ h' => wp_pure.mpr fun _ => h'

theorem osSemPost_one {opt : Opt} (h : Rep cfg s a) (hI : a.Sound cfg) (hd : (a.waiting o).head? = some d)
    (hopt : opt &&& optPostAll = 0) :
    wp n cfg (osSemPost (some o) opt) (fun r s' => r.err = .none → ∃ b, Rep cfg s' b ∧ a.Served b d.1) s := by
  rw [osSemPost.eq_def]
  dsimp only
  rw [wp_ite]
  refine ⟨fun _ => wp_pure.mpr (by simp), fun _ => ?_⟩
  rw [wp_bind, wp_getObj, wp_ite]
  refine ⟨fun _ => wp_pure.mpr (by simp), fun _ => ?_⟩
  rw [wp_bind, wp_tsGet]
  exact (semPost_one h hI hd hopt).mono fun _ _ h' _ => h'

theorem osQPost_one {pVoid : Option ℕ} {msgSize : ℕ} {opt : Opt} (h : Rep cfg s a) (hI : a.Sound cfg)
    (hd : (a.waiting o).head? = some d) (hopt : opt &&& optPostAll = 0) :
    wp n cfg (osQPost (some o) pVoid msgSize opt) (fun x s' => x = .none → ∃ b, Rep cfg s' b ∧ a.Served b d.1) s := by
  rw [osQPost.eq_def]
  dsimp only
  rw [wp_ite]
  refine ⟨fun _ => wp_pure.mpr (by simp), fun _ => ?_⟩
  rw [wp_bind, wp_getObj, wp_ite]
  refine ⟨fun _ => wp_pure.mpr (by simp), fun _ => ?_⟩
  rw [wp_bind, wp_tsGet]
  exact (qPost_one h hI hd hopt).mono fun _ _ h' _ => h'

theorem AStep.handedOff {opt : Opt} {r : Ret} (hstep : AStep cfg s a (.call (.mutexPost (some o) opt)) (some r) a')
    (hr : r.err = .none) (hd : (a.waiting o).head? = some d) :
    ∃ t, a.cur = some t ∧ (((a.restore t (a.obj o).ownerPrio).handOff o d.1).Sched a' ∨
      a' = (a.restore t (a.obj o).ownerPrio).handOff o d.1) := by
  cases hstep with
  | still hc | acts hc | sched hc | refuse hc => exact absurd (.inl hr) hc
  | object ho => simp [Call.creates] at ho
  | unnest => simp at hr
  | release _ _ _ _ hw => simp [hw] at hd
  | @handOff _ t d' _ _ hcur _ _ _ _ hw _ hs =>
    rw [hd] at hw
    cases hw
    refine ⟨t, hcur, ?_⟩
    split at hs
    · exact .inl hs
    · exact .inr hs

theorem Abs.waiting_wake_congr {st : PendStatus} (hw : b.waiting = a.waiting) (hs : (b.task t).state = (a.task t).state)
    (ht : (b.task t).table = (a.task t).table) : (b.wake t st).waiting = (a.wake t st).waiting := by
  funext o
  by_cases hp : (a.task t).state.isPend = true
  · rw [waiting_wake _ _ _ (by rwa [hs]), waiting_wake _ _ _ hp, hw, ht]
  · rw [wake_of_not_pend (by rw [hs]; simpa using hp), wake_of_not_pend (by simpa using hp), hw]

theorem Abs.Sound.served_handOff {p : ℕ} {w : TcbId} (hI : a.Sound cfg) : a.Served ((a.restore t p).handOff o w) w := by
  have htask : (a.restore t p).task w = { a.task w with prio := ((a.restore t p).task w).prio } := by
    rw [Abs.task_restore]
    split
    · rename_i hw
      rw [hw]
    · rfl
  refine ⟨⟨.ok, ?_⟩, ?_⟩
  · apply Abs.waiting_wake_congr
    · exact Abs.waiting_restore a t p
    · exact (congrArg Task.state htask :)
    · exact (congrArg Task.table htask :)
  · have := hI.wait.pendOn_iff w
    have h1 := congrArg Task.state htask
    have h2 := congrArg Task.pendOn htask
    dsimp only at h1 h2
    rw [Abs.task_handOff, if_pos rfl]
    grind

theorem Ready.served {s' : OS} (H : Ready cfg s a) (he : Enabled s e) (hx : Prog.Runs cfg e.exec s r s')
    (hd : (a.waiting o).head? = some d) (hone : ServesOne o e r) : ∃ b, Rep cfg s' b ∧ a.Served b d.1 := by
  unfold ServesOne at hone
  split at hone
  · obtain ⟨rfl, hopt, hr⟩ := hone
    refine hx.wp (Q := fun r s' => ∀ x ∈ r, x.err = .none → ∃ b, Rep cfg s' b ∧ a.Served b d.1) (fun n => ?_) _ rfl hr
    rw [Event.exec, Call.exec, wp_always]
    exact (osSemPost_one H.rep H.sound hd hopt).mono fun _ _ h' => by simpa using h'
  · obtain ⟨rfl, hopt, hr⟩ := hone
    refine hx.wp (Q := fun r s' => ∀ x ∈ r, x.err = .none → ∃ b, Rep cfg s' b ∧ a.Served b d.1) (fun n => ?_) _ rfl hr
    rw [Event.exec, Call.exec, wp_errOnly]
    exact (osQPost_one H.rep H.sound hd hopt).mono fun _ _ h' => by simpa using h'
  · obtain ⟨rfl, hopt, hr⟩ := hone
    refine hx.wp (Q := fun r s' => ∀ x ∈ r, x.err = .none → ∃ b, Rep cfg s' b ∧ a.Served b d.1) (fun n => ?_) _ rfl hr
    rw [Event.exec, Call.exec, wp_always, osSemPendAbort]
    exact (objPendAbort_one H.rep H.sound hd hopt).mono fun _ _ h' => by simpa using h'
  · obtain ⟨rfl, hopt, hr⟩ := hone
    refine hx.wp (Q := fun r s' => ∀ x ∈ r, x.err = .none → ∃ b, Rep cfg s' b ∧ a.Served b d.1) (fun n => ?_) _ rfl hr
    rw [Event.exec, Call.exec, wp_always, osQPendAbort]
    exact (objPendAbort_one H.rep H.sound hd hopt).mono fun _ _ h' => by simpa using h'
  · obtain ⟨rfl, hr⟩ := hone
    obtain ⟨a', h', hstep⟩ := hx.wp fun n => Event.exec_sim H he
    obtain ⟨t, -, hs | rfl⟩ := hstep.handedOff hr hd
    · exact ⟨a', h', H.sound.served_handOff.sched hs⟩
    · exact ⟨_, h', H.sound.served_handOff⟩
  · cases hone

end served

section runs

def ObjType.ordered : ObjType → Bool
  | sem | q | mutex => true
  | none | flag => false

def PrioOrdered (s : OS) : Prop := ∀ o i j x y, (s.obj o).type.ordered = true → i < j → s.pendAt o i = some x →
  s.pendAt o j = some y → s.pdPrio x ≤ s.pdPrio y

def Inserted (s s' : OS) (o : ObjId) (x : PdId) : Prop := (∀ k, s.pendAt o k ≠ some x) ∨ s'.pdPrio x ≠ s.pdPrio x

def InsertsBehind (s s' : OS) : Prop := ∀ o i j x y, (s'.obj o).type.ordered = true → i < j → s'.pendAt o i = some x →
  s'.pendAt o j = some y → Inserted s s' o x → ¬ Inserted s s' o y → s'.pdPrio x < s'.pdPrio y

/-- The wait of the task of entry `d` is over. No task that waited on `o` had a better priority, and the others
wait on. -/
structure ServesBest (s s' : OS) (o : ObjId) (d : PdId) : Prop where
  best : ∀ k x, s.pendAt o k = some x → s.pdPrio d ≤ s.pdPrio x
  ended : (s'.tcb d.1).pendOn = .nothing
  gone : ∀ o' k x, s'.pendAt o' k = some x → x.1 ≠ d.1
  rest : ∀ k x, s.pendAt o k = some x → x.1 ≠ d.1 → ∃ k', s'.pendAt o k' = some x

/-- What holds of the pend lists after a run, and of its last step. -/
structure KeepsOrder (h : List Step) (s : OS) : Prop where
  ordered : PrioOrdered s
  behind : ∀ x ∈ h.head?, InsertsBehind x.pre s
  serves : ∀ x ∈ h.head?, ∀ o d, (x.pre.obj o).type.ordered = true → x.pre.pendAt o 0 = some d →
    ServesOne o x.event x.ret → ServesBest x.pre s o d

theorem Rep.pdPrio (h : Rep cfg s a) (d : PdId) : s.pdPrio d = a.pdPrio d := h.prio d.1

theorem Rep.pendAt_eq (h : Rep cfg s a) (o : ObjId) (k : ℕ) : s.pendAt o k = (a.waiting o)[k]? :=
  (h.pend.list o).chainAt_eq k

theorem Abs.Served.of_rep {s' : OS} (h : a.Served b t) (hb : Rep cfg s' b) (ha : Rep cfg s' a') : a.Served a' t := by
  have hw : a'.waiting = b.waiting := by
    funext o
    apply List.ext_getElem?
    intro k
    rw [← ha.pendAt_eq, hb.pendAt_eq]
  refine ⟨?_, ?_⟩
  · rw [hw]
    exact h.waiting
  · rw [← ha.pendOn, hb.pendOn]
    exact h.pendOn

theorem ObjType.ne_flag {k : ObjType} (h : k.ordered = true) : k ≠ .flag := by
  rintro rfl
  cases h

theorem Rep.inOrder {o : ObjId} {i j : ℕ} {x y : PdId} (h : Rep cfg s a) (hO : a.Sorted K T)
    (ho : K (s.obj o).type) (hij : i < j) (hx : s.pendAt o i = some x) (hy : s.pendAt o j = some y) :
    a.rank T x ≤ a.rank T y := by
  rw [h.pendAt_eq] at hx hy
  obtain ⟨hi, rfl⟩ := List.getElem?_eq_some_iff.mp hx
  obtain ⟨hj, rfl⟩ := List.getElem?_eq_some_iff.mp hy
  have hlist := hO o (by rwa [← h.type])
  exact List.pairwise_iff_getElem.mp hlist i j hi hj hij

theorem Rep.prioOrdered (h : Rep cfg s a) (hO : a.Ordered fun _ => False) : PrioOrdered s := by
  intro o i j x y ho hij hx hy
  have hle := h.inOrder hO (ObjType.ne_flag ho) hij hx hy
  rw [h.pdPrio, h.pdPrio]
  exact (Abs.rank_le_iff (T := fun _ => False) id).mp hle

theorem Rep.inserted {s' : OS} {o : ObjId} {x : PdId} (h : Rep cfg s a) (h' : Rep cfg s' b) :
    Inserted s s' o x ↔ a.Newly b o x := by
  rw [Inserted, Abs.Newly, h.pdPrio, h'.pdPrio, ← h.pendAt_iff]
  simp

theorem Rep.insertsBehind {s' : OS} (h : Rep cfg s a) (h' : Rep cfg s' b) (hP : a.Placed b (· ≠ .flag) T) :
    InsertsBehind s s' := by
  intro o i j x y ho hij hx hy hnx hny
  have hle := h'.inOrder hP.ordered (ObjType.ne_flag ho) hij hx hy
  rw [h.inserted h', hP.newly o x ((h'.pendAt_iff o x).mp ⟨i, hx⟩)] at hnx
  rw [h.inserted h', hP.newly o y ((h'.pendAt_iff o y).mp ⟨j, hy⟩)] at hny
  unfold Abs.rank at hle
  rw [if_pos hnx, if_neg hny] at hle
  rw [h'.pdPrio, h'.pdPrio]
  omega

theorem Ready.servesBest {s' : OS} {o : ObjId} (H : Ready cfg s a) (hO : a.Sorted K fun _ => False)
    (ho : K (s.obj o).type) (hd : s.pendAt o 0 = some d) (h' : Rep cfg s' b) (hI : b.Sound cfg)
    (hw : a.Served b d.1) : ServesBest s s' o d where
  best k x hx := by
    rcases Nat.eq_zero_or_pos k with rfl | hk
    · rw [hd] at hx
      cases hx
      exact le_rfl
    · have hle := H.rep.inOrder hO ho hk hd hx
      rw [H.rep.pdPrio, H.rep.pdPrio]
      exact (Abs.rank_le_iff (T := fun _ => False) id).mp hle
  ended := by
    rw [h'.pendOn]
    exact hw.pendOn
  gone o' k x hx := by
    apply hI.not_waiting _ o' ((h'.pendAt_iff o' x).mp ⟨k, hx⟩)
    have := hI.wait.pendOn_iff d.1
    simpa [hw.pendOn] using this
  rest k x hx hne := by
    obtain ⟨st, hwait⟩ := hw.waiting
    rw [h'.pendAt_iff, hwait]
    have hm : x ∈ a.waiting o := (H.rep.pendAt_iff o x).mp ⟨k, hx⟩
    by_cases hp : (a.task d.1).state.isPend = true
    · rw [Abs.waiting_wake _ _ _ hp, List.mem_filter]
      refine ⟨hm, ?_⟩
      have : x ∉ (a.task d.1).table := fun hmem => hne (H.sound.wait.own d.1 x hmem).1
      simpa using this
    · rwa [Abs.wake_of_not_pend (by simpa using hp)]

theorem ordered_init : (Abs.init cfg).Ordered fun _ => False := fun _ _ => List.Pairwise.nil

theorem run_keepsOrder (run : CodeRun cfg (fun _ x => ¬ PassedMatch cfg x.pre x.event) h s)
    (hfit : NoWrap cfg h) : KeepsOrder h s := by
  replace run : Run cfg _ h s := run.fits hfit .nat
  cases run with
  | init hx =>
    have H := hx.wp fun n => osInit_spec
    exact ⟨H.rep.prioOrdered ordered_init, by simp, by simp⟩
  | step run he hx hk =>
    obtain ⟨a, H, hO⟩ := Run.invariant (I := fun _ a => a.Ordered fun _ => False) run (fun _ _ => id) ordered_init
      fun _ _ _ _ _ _ H hO _ hp hstep => (hstep.placed H hp (absurd rfl) hO).elim fun _ hP => hP.ordered.of_rank
    obtain ⟨a', H', hstep⟩ := Event.exec_ready H he hx hk
    obtain ⟨T, hP⟩ := hstep.placed H hk (absurd rfl) hO
    refine ⟨H'.rep.prioOrdered hP.ordered.of_rank, ?_, ?_⟩
    · rintro _ ⟨⟩
      exact H.rep.insertsBehind H'.rep hP
    · rintro _ ⟨⟩ o d ho hd hone
      have hhead : (a.waiting o).head? = some d := by
        rw [List.head?_eq_getElem?, ← H.rep.pendAt_eq]
        exact hd
      obtain ⟨b, h', hw⟩ := H.served he hx hhead hone
      exact H.servesBest hO (ObjType.ne_flag ho) hd H'.rep H'.sound (hw.of_rep h' H'.rep)

/-- A task that waits on a semaphore twice is given a better priority than the one in front of it, and is served. -/
theorem run_keepsOrder_reprio : ∃ h s, CodeRun Cfg.repository (fun _ x => ¬ PassedMatch Cfg.repository x.pre x.event) h
    s ∧ NoWrap Cfg.repository h ∧
    (s.tcb 4).pendOn = .sem ∧ (s.tcb 5).pendOn = .nothing ∧ s.tcbCurPtr = some 5 ∧ KeepsOrder h s := by
  obtain ⟨h, s, run, hfit, h4, h5, hc⟩ := RunIn.of_play .word Cfg.repository (fun _ x =>
    ¬ PassedMatch Cfg.repository x.pre x.event) 60
    (fun _ s => (s.tcb 4).pendOn = .sem ∧ (s.tcb 5).pendOn = .nothing ∧ s.tcbCurPtr = some 5)
    [.newTask 4 5, .newTask 5 6, .newTask 6 7, .call (.semCreate (some 0) 0), .start,
      .call (.semPend (some 0) 0 optPendBlocking), .call (.pendMulti (some 0) [some 0, some 0] 0 optPendBlocking),
      .call (.taskChangePrio (some 5) 4), .call (.semPost (some 0) optPost1)] (by decide +kernel)
  exact ⟨h, s, run, hfit, h4, h5, hc, run_keepsOrder run hfit⟩

/-- A post to a semaphore with 65536 waiting tasks serves none of them. -/
theorem run_keepsOrder_overflow : ∃ h s, CodeRun Cfg.repository (fun _ x => ¬ PassedMatch Cfg.repository x.pre x.event) h s ∧
    ¬ KeepsOrder h s := by
  obtain ⟨h, h₀, s, run, hevents, hpost, hwaits⟩ := RunIn.of_crowd Cfg.repository 40
    [.newTask 4 7, .call (.semCreate (some 0) 0), .start] [.call (.semPost (some 0) optPost1)]
    (P := fun x => ¬ PassedMatch Cfg.repository x.pre x.event) (F := fun B => B.pendCrowd 0 .sem (.semPend 0) 65536)
    (H := fun B => B.HostsSem 0)
    (Q := fun h s => (∀ x ∈ h, (x.pre.obj 0).type = .sem ∧ (x.pre.obj 0).pendList.headPtr = some (10, 0) ∧
      x.ret.map Ret.err = some .none) ∧ (s.tcb 10).pendOn = .sem)
    (fun _ hP => hP) (fun h B run hB hdel => semCrowd_gathers run hB hdel (fun _ _ _ => id) fun _ _ => id) (by decide +kernel)
  obtain ⟨x, rfl⟩ : ∃ x, h = [x] := by
    rw [← List.length_eq_one_iff, ← List.length_map Step.event, hevents]
    rfl
  obtain ⟨htype, hhead, hret⟩ := hpost x List.mem_cons_self
  obtain ⟨r, hr, herr⟩ := Option.map_eq_some_iff.mp hret
  refine ⟨_, s, run, fun hok => ?_⟩
  have hone : ServesOne 0 x.event x.ret := by
    rw [List.singleton_inj.mp hevents, hr]
    exact ⟨rfl, rfl, herr⟩
  have hserved := hok.serves x rfl 0 (10, 0) (by rw [htype]; rfl) hhead hone
  rw [hserved.ended] at hwaits
  cases hwaits

end runs

end UcosIII
