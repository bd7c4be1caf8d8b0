import UcosIII.Abstract.TaskCalls

namespace UcosIII

open Prog

variable {n : ℕ} {cfg : Cfg} {s s' s₁ : OS} {a b : Abs} {t : TcbId} {o : ObjId} {e : Event} {r : Option Ret} {p : Option ObjId}

theorem Rep.type (h : Rep cfg s a) (o : ObjId) : (s.obj o).type = (a.obj o).type :=
  (congrArg Sync.type (h.obj o)).symm

theorem keeps_key_modObj {f : Obj → Obj} (hf : ∀ b, (f b).key = b.key) : Keeps OS.key (modObj o f) :=
  keeps_modify fun _ => OS.key_modObj hf

section create

theorem create_sim {c : Call} {k : ObjType} {f : Obj → Obj} (H : Ready cfg s a) (hc : c.creates = some (o, k))
    (hfair : c.Fair s) (hf : (f (s.obj o)).pendList = pendListEmpty)
    (hv : (f (s.obj o)).view = Sync.create cfg k (s.obj o).view) : Sim cfg s a (.call c) r (s.modObj o f) := by
  have hempty : a.waiting o = [] := by
    rcases hfair.2 (o, k) hc with hn | ⟨-, hn⟩
    · by_contra hne
      obtain ⟨d, hd⟩ := List.exists_mem_of_ne_nil _ hne
      have hacc := H.sound.accepts hd
      rw [← H.rep.type, hn] at hacc
      cases hk : (a.task d.1).pendOn <;> simp [hk, PendOn.accepts] at hacc
    · exact (H.rep.nbrEntries o).mp hn
  have hlist := H.rep.pend.list o
  rw [hempty] at hlist
  have hpl : (s.obj o).pendList = pendListEmpty := by
    obtain ⟨-, h1, h2, h3⟩ := hlist
    change s.pendList o = _
    cases hl : s.pendList o
    simp_all [pendListEmpty]
  exact ⟨_, H.rep.modObj (hf.trans hpl.symm) hv, .object hc hempty⟩

theorem osSemCreate_sim (H : Ready cfg s a) (p : Option ObjId) (cnt : ℕ) (hfair : (Call.semCreate p cnt).Fair s) :
    wp n cfg (Call.semCreate p cnt).exec (Sim cfg s a (.call (.semCreate p cnt))) s := by
  rw [Call.exec, wp_errOnly, osSemCreate.eq_def, wp_bind, wp_get, wp_ite]
  refine ⟨fun _ => wp_pure.mpr (.calm H.rep id), fun _ => ?_⟩
  cases p with
  | none => exact wp_pure.mpr (.calm H.rep id)
  | some o =>
    rw [wp_bind, wp_modObj]
    exact wp_pure.mpr (create_sim H rfl hfair rfl rfl)

theorem osQCreate_sim (H : Ready cfg s a) (p : Option ObjId) (maxQty : ℕ) (hfair : (Call.qCreate p maxQty).Fair s) :
    wp n cfg (Call.qCreate p maxQty).exec (Sim cfg s a (.call (.qCreate p maxQty))) s := by
  rw [Call.exec, wp_errOnly, osQCreate.eq_def, wp_bind, wp_get, wp_ite]
  refine ⟨fun _ => wp_pure.mpr (.calm H.rep id), fun _ => ?_⟩
  cases p with
  | none => exact wp_pure.mpr (.calm H.rep id)
  | some o =>
    rw [wp_ite]
    refine ⟨fun _ => wp_pure.mpr (.calm H.rep id), fun _ => ?_⟩
    rw [wp_bind, wp_modObj]
    exact wp_pure.mpr (create_sim H rfl hfair rfl rfl)

theorem osFlagCreate_sim (H : Ready cfg s a) (p : Option ObjId) (flags : Flags) (hfair : (Call.flagCreate p flags).Fair s) :
    wp n cfg (Call.flagCreate p flags).exec (Sim cfg s a (.call (.flagCreate p flags))) s := by
  rw [Call.exec, wp_errOnly, osFlagCreate.eq_def, wp_bind, wp_get, wp_ite]
  refine ⟨fun _ => wp_pure.mpr (.calm H.rep id), fun _ => ?_⟩
  cases p with
  | none => exact wp_pure.mpr (.calm H.rep id)
  | some o =>
    rw [wp_bind, wp_modObj]
    exact wp_pure.mpr (create_sim H rfl hfair rfl rfl)

theorem osMutexCreate_sim (H : Ready cfg s a) (p : Option ObjId) (hfair : (Call.mutexCreate p).Fair s) :
    wp n cfg (Call.mutexCreate p).exec (Sim cfg s a (.call (.mutexCreate p))) s := by
  rw [Call.exec, wp_errOnly, osMutexCreate.eq_def, wp_bind, wp_get, wp_ite]
  refine ⟨fun _ => wp_pure.mpr (.calm H.rep id), fun _ => ?_⟩
  cases p with
  | none => exact wp_pure.mpr (.calm H.rep id)
  | some o =>
    rw [wp_bind, wp_ask, wp_bind, wp_modObj]
    exact wp_pure.mpr (create_sim H rfl hfair rfl rfl)

end create

section loops

theorem Abs.Sound.not_mutex (hI : a.Sound cfg) (ho : (a.obj o).type ≠ .mutex) {d : PdId} (hd : d ∈ a.waiting o) :
    (a.task d.1).pendOn ≠ .mutex := by
  intro hk
  have hacc := hI.accepts hd
  rw [hk] at hacc
  cases ht : (a.obj o).type <;> simp [ht, PendOn.accepts] at hacc ho

theorem Rep.tcbPtr (h : Rep cfg s a) (hI : a.Sound cfg) {d : PdId} (hd : d ∈ a.waiting o) :
    (s.pendData d).tcbPtr = some d.1 := (congrArg Entry.tcb (h.entry d)).symm.trans (hI.wait.back o d hd)

theorem pendAbortLoop_spec (h : Rep cfg s a) (hI : a.Sound cfg) (ho : (a.obj o).type ≠ .mutex) (opt : Opt) (ts k : ℕ) :
    wp n cfg (Prog.loop (pendAbortStep o opt ts) k)
      (fun _ s' => ∃ b, Rep cfg s' b ∧ a.Acts .plain Act.Wakes b) s := by
  refine wp_loop (fun _ s' => ∃ b, Rep cfg s' b ∧ a.Acts .plain Act.Wakes b) ?_ ⟨a, h, .refl⟩
  rintro k s₁ ⟨b, h₁, hacts⟩
  have hI₁ := hI.acts hacts
  rw [pendAbortStep, wp_bind, wp_getObj, wp_ite]
  refine ⟨fun _ => wp_pure.mpr ⟨b, h₁, hacts⟩, fun _ => ?_⟩
  rw [wp_bind, wp_deref, h₁.pendHead]
  intro d hd
  have hmem : d ∈ b.waiting o := List.mem_of_mem_head? hd
  rw [wp_bind, wp_getPendData, wp_bind, wp_deref, h₁.tcbPtr hI₁ hmem]
  rintro _ ⟨⟩
  rw [wp_bind]
  refine (pendAbort_spec h₁ hI₁ (by simp) ts).mono fun _ s₂ h₂ => ?_
  have hv : (b.task d.1).pendOn ≠ .mutex := hI₁.not_mutex (by rwa [hacts.obj]) hmem
  have hstep : ∃ b', Rep cfg s₂ b' ∧ a.Acts .plain Act.Wakes b' :=
    ⟨_, h₂, hacts.snoc (x := .wake d.1 .abort) trivial hv h₁.nodup⟩
  rw [wp_ite]
  exact ⟨fun _ => wp_pure.mpr hstep, fun _ => wp_pure.mpr hstep⟩

theorem Abs.wake_of_not_pend {st : PendStatus} (hs : (a.task t).state.isPend = false) : a.wake t st = a := by
  rw [wake, if_pos hs]

theorem Abs.waiting_wake (a : Abs) (t : TcbId) (st : PendStatus) (hp : (a.task t).state.isPend = true) (o : ObjId) :
    (a.wake t st).waiting o = (a.waiting o).filter (· ∉ (a.task t).table) := by
  rw [wake, if_neg (by simp [hp])]
  split <;> rfl

def OnList (o : ObjId) (a : Abs) (p : Option PdId) : Prop :=
  ∀ d ∈ p, d ∈ a.waiting o ∨
    (∀ o', d ∉ a.waiting o') ∧ (a.entry d).tcb = some d.1 ∧ (a.task d.1).state.isPend = false

theorem Rep.next_mem (h : Rep cfg s a) {d d' : PdId} (hd : d ∈ a.waiting o) (hn : (s.pendData d).nextPtr = some d') :
    d' ∈ a.waiting o := by
  obtain ⟨xs, ys, hxy⟩ := List.append_of_mem hd
  have := ((h.pend.list o).dlist.links xs d ys hxy).1
  rw [show s.pdNext d = some d' from hn] at this
  rw [hxy]
  have hmem := List.mem_of_mem_head? this.symm
  simp [hmem]

theorem Abs.entry_wake (a : Abs) (t : TcbId) (st : PendStatus) (d : PdId) : (a.wake t st).entry d = a.entry d := by
  rw [wake]
  split
  · rfl
  split <;> rfl

theorem OnList.wake (hI : a.Sound cfg) {d d' : PdId} (hd : d ∈ a.waiting o) (hd' : d' ∈ a.waiting o) (st : PendStatus) :
    d' ∈ (a.wake d.1 st).waiting o ∨ (∀ o', d' ∉ (a.wake d.1 st).waiting o') ∧
      ((a.wake d.1 st).entry d').tcb = some d'.1 ∧ ((a.wake d.1 st).task d'.1).state.isPend = false := by
  have hpend : (a.task d.1).state.isPend = true := by
    have htbl : (a.task d.1).table ≠ [] := List.ne_nil_of_mem ((hI.wait.mem_iff o d).mp hd).1
    have h1 := hI.wait.table_iff d.1
    have h2 := hI.wait.pendOn_iff d.1
    grind
  by_cases htab : d' ∈ (a.task d.1).table
  · have hown := (hI.wait.own d.1 d' htab).1
    refine .inr ⟨fun o' => ?_, ?_, ?_⟩
    · rw [a.waiting_wake d.1 st hpend]
      simp [htab]
    · rw [a.entry_wake, hI.wait.back o d' hd']
    · rw [hown, Abs.task_wake, if_pos rfl]
      grind
  · refine .inl ?_
    rw [a.waiting_wake d.1 st hpend]
    simp [hd', htab]

theorem postLoop_spec (h : Rep cfg s a) (hI : a.Sound cfg) (ho : (a.obj o).type ≠ .mutex) (pVoid : Option ℕ)
    (msgSize ts cnt : ℕ) {d : Option PdId} (hd : OnList o a d) :
    wp n cfg (postLoop o pVoid msgSize ts cnt d) (fun _ s' => ∃ b, Rep cfg s' b ∧ a.Acts .plain Act.Wakes b) s := by
  induction cnt generalizing s a d with
  | zero => exact wp_pure.mpr ⟨a, h, .refl⟩
  | succ cnt ih =>
    rw [postLoop, wp_bind, wp_deref]
    rintro d rfl
    rw [wp_bind, wp_getPendData]
    rcases hd d rfl with hmem | ⟨hoff, htcb, hnp⟩
    · rw [wp_bind, wp_deref, h.tcbPtr hI hmem]
      rintro _ ⟨⟩
      rw [wp_bind]
      refine (post_spec h hI (by simp) pVoid msgSize ts).mono fun _ s₂ h₂ => ?_
      have hacts : a.Acts .plain Act.Wakes (a.wake d.1 .ok) :=
        .one (x := .wake d.1 .ok) trivial (hI.not_mutex ho hmem) h.nodup
      have hnext : OnList o (a.wake d.1 .ok) (s.pendData d).nextPtr := fun d' hd' =>
        OnList.wake hI hmem (h.next_mem hmem hd') .ok
      refine (ih h₂ (hI.acts hacts) (by rwa [hacts.obj]) hnext).mono ?_
      rintro _ s' ⟨b, h', hacts'⟩
      exact ⟨b, h', hacts.trans hacts'⟩
    · have htcb' : (s.pendData d).tcbPtr = some d.1 := (congrArg Entry.tcb (h.entry d)).symm.trans htcb
      rw [wp_bind, wp_deref, htcb']
      rintro _ ⟨⟩
      rw [wp_bind]
      refine (post_spec h hI (by simp) pVoid msgSize ts).mono fun _ s₂ h₂ => ?_
      rw [Abs.wake_of_not_pend hnp] at h₂
      have hnone : (s.pendData d).nextPtr = none := h.pend.off d hoff
      rw [hnone]
      exact ih h₂ hI ho (by simp [OnList])

end loops

section semaphores

theorem osSemPend_sim (H : Ready cfg s a) (hrun : a.running = true) (p : Option ObjId) (timeout : Tick) (opt : Opt) :
    wp n cfg (Call.semPend p timeout opt).exec (Sim cfg s a (.call (.semPend p timeout opt))) s := by
  rw [Call.exec, osSemPend.eq_def, wp_bind, wp_get, wp_ite]
  refine ⟨fun _ => wp_pure.mpr (.calm H.rep id), fun hint => ?_⟩
  cases p with
  | none => exact wp_pure.mpr (.calm H.rep id)
  | some o =>
    rw [wp_ite]
    refine ⟨fun _ => wp_pure.mpr (.calm H.rep id), fun _ => ?_⟩
    rw [wp_bind, wp_getObj, wp_ite]
    refine ⟨fun _ => wp_pure.mpr (.calm H.rep id), fun htype => ?_⟩
    rw [wp_ite]
    constructor
    · intro _
      refine quiet_then H.rep (keeps_key_modObj fun _ => rfl) fun _ s₁ h₁ => ?_
      exact wp_pure.mpr (.calm h₁ id)
    · intro _
      refine pendTail_sim H hrun H.rep hint (fun _ => id) (by exact rfl) (by simp) (by simp [PendOn.onObject]) ?_ (by simp)
        opt timeout
      intro x hx
      rw [← Option.mem_some.mp hx, ← H.rep.type, not_not.mp htype]
      rfl

theorem osQPend_sim (H : Ready cfg s a) (hrun : a.running = true) (p : Option ObjId) (timeout : Tick) (opt : Opt)
    (hasSize : Bool) :
    wp n cfg (Call.qPend p timeout opt hasSize).exec (Sim cfg s a (.call (.qPend p timeout opt hasSize))) s := by
  rw [Call.exec, osQPend.eq_def, wp_bind, wp_get, wp_ite]
  refine ⟨fun _ => wp_pure.mpr (.calm H.rep id), fun hint => ?_⟩
  cases p with
  | none => exact wp_pure.mpr (.calm H.rep id)
  | some o =>
    rw [wp_ite]
    refine ⟨fun _ => wp_pure.mpr (.calm H.rep id), fun _ => ?_⟩
    rw [wp_ite]
    refine ⟨fun _ => wp_pure.mpr (.calm H.rep id), fun _ => ?_⟩
    rw [wp_bind, wp_getObj, wp_ite]
    refine ⟨fun _ => wp_pure.mpr (.calm H.rep id), fun htype => ?_⟩
    rw [wp_bind, wp_getObj]
    refine quiet_then H.rep (keeps_msgQGet _) fun x s₁ h₁ => ?_
    refine quiet_then h₁ (keeps_key_modObj fun _ => rfl) fun _ s₂ h₂ => ?_
    rw [wp_ite]
    constructor
    · intro _
      exact wp_pure.mpr (.calm h₂ id)
    · intro _
      refine pendTail_sim H hrun h₂ hint (fun _ => id) (by exact rfl) (by simp) (by simp [PendOn.onObject]) ?_ (by simp)
        opt timeout
      intro x hx
      rw [← Option.mem_some.mp hx, ← H.rep.type, not_not.mp htype]
      rfl

theorem objPendAbort_sim {c : Call} {type : ObjType} (H : Ready cfg s a) (hrun : a.running = true) (ht : type ≠ .mutex)
    (hc : ∀ r, ¬ Counts (.call c) r) (p : Option ObjId) (opt : Opt)
    (hno : opt &&& optPostNoSched ≠ 0 → c.noSched = true) :
    wp n cfg (objPendAbort type p opt) (fun x s' => Sim cfg s a (.call c) (some x) s') s := by
  rw [objPendAbort.eq_def, wp_bind, wp_get, wp_ite]
  refine ⟨fun _ => wp_pure.mpr (.calm H.rep (hc _)), fun hint => ?_⟩
  cases p with
  | none => exact wp_pure.mpr (.calm H.rep (hc _))
  | some o =>
    rw [wp_ite]
    refine ⟨fun _ => wp_pure.mpr (.calm H.rep (hc _)), fun _ => ?_⟩
    rw [wp_bind, wp_getObj, wp_ite]
    refine ⟨fun _ => wp_pure.mpr (.calm H.rep (hc _)), fun htype => ?_⟩
    rw [wp_bind, wp_getObj, wp_ite]
    refine ⟨fun _ => wp_pure.mpr (.calm H.rep (hc _)), fun _ => ?_⟩
    rw [wp_bind]
    refine (pendAbortLoop_spec H.rep H.sound ?_ opt s.tsNow 0).mono ?_
    · rw [← H.rep.type, not_not.mp htype]
      exact ht
    · rintro k s₁ ⟨b, h₁, hacts⟩
      rw [wp_bind]
      exact (schedOpt_sim h₁ hrun hacts.of_plain (hc _) hno).mono fun _ _ h => wp_pure.mpr h

theorem osSemPendAbort_sim (H : Ready cfg s a) (hrun : a.running = true) (p : Option ObjId) (opt : Opt) :
    wp n cfg (Call.semPendAbort p opt).exec (Sim cfg s a (.call (.semPendAbort p opt))) s := by
  rw [Call.exec, wp_always, osSemPendAbort]
  exact objPendAbort_sim H hrun (by simp) (fun _ => id) p opt fun h => by simpa [Call.noSched] using h

theorem osQPendAbort_sim (H : Ready cfg s a) (hrun : a.running = true) (p : Option ObjId) (opt : Opt) :
    wp n cfg (Call.qPendAbort p opt).exec (Sim cfg s a (.call (.qPendAbort p opt))) s := by
  rw [Call.exec, wp_always, osQPendAbort]
  exact objPendAbort_sim H hrun (by simp) (fun _ => id) p opt fun h => by simpa [Call.noSched] using h

theorem OnList.head (h : Rep cfg s a) : OnList o a (s.obj o).pendList.headPtr := by
  intro d hd
  rw [h.pendHead] at hd
  exact .inl (List.mem_of_mem_head? hd)

theorem osSemPost_sim (H : Ready cfg s a) (hrun : a.running = true) (p : Option ObjId) (opt : Opt) :
    wp n cfg (Call.semPost p opt).exec (Sim cfg s a (.call (.semPost p opt))) s := by
  rw [Call.exec, wp_always, osSemPost.eq_def]
  cases p with
  | none => exact wp_pure.mpr (.calm H.rep id)
  | some o =>
    dsimp only
    rw [wp_ite]
    refine ⟨fun _ => wp_pure.mpr (.calm H.rep id), fun _ => ?_⟩
    rw [wp_bind, wp_getObj, wp_ite]
    refine ⟨fun _ => wp_pure.mpr (.calm H.rep id), fun htype => ?_⟩
    rw [wp_bind, wp_tsGet, semPost, wp_bind, wp_getObj, wp_ite]
    constructor
    · intro _
      rw [wp_ite]
      refine ⟨fun _ => wp_pure.mpr (.calm H.rep id), fun _ => ?_⟩
      refine quiet_then H.rep (keeps_key_modObj fun _ => rfl) fun _ s₁ h₁ => ?_
      exact wp_pure.mpr (.calm h₁ id)
    · intro _
      rw [wp_bind]
      refine (postLoop_spec H.rep H.sound ?_ none 0 s.tsNow _ (OnList.head H.rep)).mono ?_
      · rw [← H.rep.type, not_not.mp htype]
        simp
      · rintro _ s₁ ⟨b, h₁, hacts⟩
        rw [wp_bind, wp_getObj, wp_bind]
        exact (schedOpt_sim h₁ hrun hacts.of_plain id fun h => by simpa [Event.noSched, Call.noSched] using h).mono
          fun _ _ h => wp_pure.mpr h

theorem osQPost_sim (H : Ready cfg s a) (hrun : a.running = true) (p : Option ObjId) (pVoid : Option ℕ) (msgSize : ℕ)
    (opt : Opt) :
    wp n cfg (Call.qPost p pVoid msgSize opt).exec (Sim cfg s a (.call (.qPost p pVoid msgSize opt))) s := by
  rw [Call.exec, wp_errOnly, osQPost.eq_def]
  cases p with
  | none => exact wp_pure.mpr (.calm H.rep id)
  | some o =>
    dsimp only
    rw [wp_ite]
    refine ⟨fun _ => wp_pure.mpr (.calm H.rep id), fun _ => ?_⟩
    rw [wp_bind, wp_getObj, wp_ite]
    refine ⟨fun _ => wp_pure.mpr (.calm H.rep id), fun htype => ?_⟩
    rw [wp_bind, wp_tsGet, qPost, wp_bind, wp_getObj, wp_ite]
    constructor
    · intro _
      refine quiet_then H.rep (keeps_msgQPut _ _ _ _ _) fun _ s₁ h₁ => ?_
      refine quiet_then h₁ (keeps_key_modObj fun _ => rfl) fun _ s₂ h₂ => ?_
      exact wp_pure.mpr (.calm h₂ id)
    · intro _
      rw [wp_bind]
      refine (postLoop_spec H.rep H.sound ?_ pVoid msgSize s.tsNow _ (OnList.head H.rep)).mono ?_
      · rw [← H.rep.type, not_not.mp htype]
        simp
      · rintro _ s₁ ⟨b, h₁, hacts⟩
        rw [wp_bind]
        exact (schedOpt_sim h₁ hrun hacts.of_plain id fun h => by simpa [Event.noSched, Call.noSched] using h).mono
          fun _ _ h => wp_pure.mpr h

theorem osSemSet_sim (H : Ready cfg s a) (p : Option ObjId) (cnt : ℕ) :
    wp n cfg (Call.semSet p cnt).exec (Sim cfg s a (.call (.semSet p cnt))) s := by
  refine quiet_sim H (keeps_errOnly ?_) fun _ => id
  rw [osSemSet.eq_def]
  refine keeps_bind keeps_get fun _ => keeps_ite (keeps_pure _) ?_
  cases p with
  | none => exact keeps_pure _
  | some o =>
    refine keeps_bind (keeps_getObj o) fun _ => keeps_ite (keeps_pure _) (keeps_ite ?_ (keeps_pure _))
    exact keeps_bind (keeps_key_modObj fun _ => rfl) fun _ => keeps_pure _

end semaphores

section mutexes

theorem mutexWait_sim {timeout : Tick} {opt : Opt} (H : Ready cfg s a)
    (hstop : Act.MayStop (env s (.call (.mutexPend (some o) timeout opt)) none) a t)
    (hm : (a.obj o).type = .mutex) (hz : (a.obj o).nesting ≠ 0) (hne : (a.obj o).owner ≠ some t)
    (hopt : pendOptValid opt = true) (hblock : opt &&& optPendNonBlocking = 0) :
    wp n cfg (mutexWait o t timeout) (Sim cfg s a (.call (.mutexPend (some o) timeout opt))) s := by
  have hrdy := hstop.2.1
  have howner : (s.obj o).ownerTCBPtr = (a.obj o).owner := (congrArg Sync.owner (H.rep.obj o)).symm
  rw [mutexWait, wp_bind, wp_getObj, wp_bind, wp_deref, howner]
  intro w hw
  have hwt : w ≠ t := fun h => hne (h ▸ hw)
  rw [wp_bind, wp_getTcb, wp_bind, wp_getTcb, H.rep.prio, H.rep.prio]
  -- the rest of the call, from the state that the boost leaves
  have hrest : ∀ b s₁, Rep cfg s₁ b → b.Sound cfg → (b.task t).state = .rdy → b.cur = some t →
      (if (a.task t).prio < (a.task w).prio then (a.task w).state ≠ .del ∧ b = a.boost w (a.task t).prio else b = a) →
      wp n cfg (do pend (some o) .mutex timeout; waitThen (.mutexPend o))
        (Sim cfg s a (.call (.mutexPend (some o) timeout opt))) s₁ := by
    intro b s₁ h₁ hI₁ hs₁ hcur₁ hb
    rw [wp_bind]
    refine (pend_spec h₁ hI₁ hcur₁ hs₁ (some o) timeout).mono ?_
    rintro _ s₂ ⟨timed, h₂⟩
    have hcur₂ : (b.pendOn t (some o) .mutex timed).cur = some t :=
      (congrArg (fun y : Abs => y.cur) (Abs.frame_pendOn t (some o) .mutex timed)).trans hcur₁
    refine (waitThen_spec h₂ hcur₂ (.mutexPend o)).mono ?_
    rintro _ s' ⟨rfl, a', h', hs⟩
    exact ⟨a', h', .wait hstop hm hz hw hwt hb h₁.nodup hs hopt hblock⟩
  by_cases hp : (a.task w).prio > (a.task t).prio
  · rw [if_pos hp, wp_bind]
    refine (mutexBoost_spec H.rep H.sound (a.task t).prio).mono ?_
    rintro x s₁ ⟨h₁, rfl⟩
    rw [wp_ite]
    by_cases hd : (a.task w).state = .del
    · rw [if_pos hd]
      rw [Abs.boost, hd] at h₁
      exact ⟨fun _ => wp_pure.mpr (.calm h₁ (by simp [Counts])), fun h => absurd (by simp) h⟩
    · rw [if_neg hd]
      refine ⟨fun h => absurd rfl h, fun _ => ?_⟩
      refine hrest _ _ h₁ (H.sound.boost H.rep.nodup w _) ?_ ?_ (by rw [if_pos hp]; exact ⟨hd, rfl⟩)
      · rw [Abs.task_boost, if_neg fun h => hwt h.1.symm]
        exact hrdy
      · exact (congrArg Prod.fst (Abs.who_boost a w (a.task t).prio)).trans hstop.1
  · rw [if_neg hp, wp_bind, wp_pure, wp_ite]
    refine ⟨fun h => absurd rfl h, fun _ => ?_⟩
    exact hrest a s H.rep H.sound hrdy hstop.1 (by rw [if_neg hp])

theorem osMutexPend_sim (H : Ready cfg s a) (hrun : a.running = true) (p : Option ObjId) (timeout : Tick) (opt : Opt) :
    wp n cfg (Call.mutexPend p timeout opt).exec (Sim cfg s a (.call (.mutexPend p timeout opt))) s := by
  rw [Call.exec, osMutexPend.eq_def, wp_bind, wp_get, wp_ite]
  refine ⟨fun _ => wp_pure.mpr (.calm H.rep (by simp [Counts])), fun hint => ?_⟩
  cases p with
  | none => exact wp_pure.mpr (.calm H.rep (by simp [Counts]))
  | some o =>
    have hnest : (s.obj o).ownerNestingCtr = (a.obj o).nesting := (congrArg Sync.nesting (H.rep.obj o)).symm
    have howner : (s.obj o).ownerTCBPtr = (a.obj o).owner := (congrArg Sync.owner (H.rep.obj o)).symm
    rw [wp_ite]
    refine ⟨fun _ => wp_pure.mpr (.calm H.rep (by simp [Counts])), fun hopt => ?_⟩
    rw [wp_bind, wp_getObj, wp_ite]
    refine ⟨fun _ => wp_pure.mpr (.calm H.rep (by simp [Counts])), fun htype => ?_⟩
    have hm : (a.obj o).type = .mutex := (H.rep.type o).symm.trans (not_not.mp htype)
    rw [wp_bind, wp_getCur, ← H.rep.cur]
    intro t hcur
    rw [wp_ite, hnest]
    constructor
    · intro hz
      rw [wp_bind, wp_getTcb, wp_bind, wp_modObj, H.rep.prio]
      refine wp_pure.mpr ⟨_, H.rep.modObj rfl rfl, .take hcur hm hz rfl (H.int_eq hint) (by simpa using hopt)⟩
    · intro hz
      rw [wp_ite, howner]
      constructor
      · intro ho
        rw [wp_bind, wp_modObj]
        exact wp_pure.mpr ⟨_, H.rep.modObj rfl rfl, .nest hcur hm hz ho.symm (H.int_eq hint) (by simpa using hopt) rfl⟩
      · intro ho
        rw [wp_ite]
        refine ⟨fun _ => wp_pure.mpr (.calm H.rep (by simp [Counts])), fun hblock => ?_⟩
        rw [wp_ite]
        refine ⟨fun _ => wp_pure.mpr (.calm H.rep (by simp [Counts])), fun hlock => ?_⟩
        obtain ⟨t', hcur', hs⟩ := H.running_cur hrun hlock
        rw [hcur] at hcur'
        cases hcur'
        exact mutexWait_sim H (H.mayStop hint hlock hcur hs rfl) hm hz (fun h => ho h.symm) (by simpa using hopt)
          (not_not.mp hblock)

theorem Abs.restore_modObj (a : Abs) (o : ObjId) (f : Sync → Sync) (t : TcbId) (p : ℕ) :
    (a.modObj o f).restore t p = (a.restore t p).modObj o f := by
  by_cases h : (a.task t).prio = p
  · rw [restore, if_pos (show ((a.modObj o f).task t).prio = p from h), restore, if_pos h]
  · rw [restore, if_neg (show ¬ ((a.modObj o f).task t).prio = p from h), restore, if_neg h]
    rfl

theorem Abs.waiting_restore (a : Abs) (t : TcbId) (p : ℕ) : (a.restore t p).waiting = a.waiting := by
  rw [restore]
  split <;> rfl

theorem Abs.handOff_modObj (a : Abs) (o : ObjId) (w : TcbId) :
    (a.modObj o fun b => { b with nesting := b.nesting - 1 }).handOff o w = a.handOff o w := by
  simp only [handOff]
  congr 1
  simp [Abs.modObj]

theorem osMutexPost_sim (H : Ready cfg s a) (hrun : a.running = true) (p : Option ObjId) (opt : Opt) :
    wp n cfg (Call.mutexPost p opt).exec (Sim cfg s a (.call (.mutexPost p opt))) s := by
  rw [Call.exec, wp_errOnly, osMutexPost.eq_def, wp_bind, wp_get, wp_ite]
  refine ⟨fun _ => wp_pure.mpr (.calm H.rep (by simp [Counts])), fun hint => ?_⟩
  cases p with
  | none => exact wp_pure.mpr (.calm H.rep (by simp [Counts]))
  | some o =>
    have hnest : (s.obj o).ownerNestingCtr = (a.obj o).nesting := (congrArg Sync.nesting (H.rep.obj o)).symm
    have howner : (s.obj o).ownerTCBPtr = (a.obj o).owner := (congrArg Sync.owner (H.rep.obj o)).symm
    rw [wp_ite]
    refine ⟨fun _ => wp_pure.mpr (.calm H.rep (by simp [Counts])), fun hopt => ?_⟩
    replace hopt : postOptValid opt = true := by simpa using hopt
    rw [wp_bind, wp_getObj, wp_ite]
    refine ⟨fun _ => wp_pure.mpr (.calm H.rep (by simp [Counts])), fun htype => ?_⟩
    have hm : (a.obj o).type = .mutex := (H.rep.type o).symm.trans (not_not.mp htype)
    rw [wp_bind, wp_getCur, ← H.rep.cur]
    intro t hcur
    rw [wp_ite, howner]
    refine ⟨fun _ => wp_pure.mpr (.calm H.rep (by simp [Counts])), fun ho => ?_⟩
    replace ho : (a.obj o).owner = some t := (not_not.mp ho).symm
    have h₁ : Rep cfg (s.modObj o fun b => { b with ts := s.tsNow, ownerNestingCtr := b.ownerNestingCtr - 1 })
        (a.modObj o fun b => { b with nesting := b.nesting - 1 }) := H.rep.modObj rfl rfl
    have hctr : ((s.modObj o fun b => { b with ts := s.tsNow, ownerNestingCtr := b.ownerNestingCtr - 1 }).obj o).ownerNestingCtr =
        (a.obj o).nesting - 1 := by rw [OS.modObj_obj, if_pos rfl, ← hnest]
    rw [wp_bind, wp_modObj, wp_bind, wp_getObj, wp_ite, hctr]
    generalize s.modObj o _ = s₁ at h₁
    constructor
    · intro hpos
      exact wp_pure.mpr ⟨_, h₁, .unnest hcur hm ho ((BitVec.pos_iff_ne_zero _).mp hpos) (H.int_eq hint)⟩
    · intro hz
      have hz' : (a.obj o).nesting - 1 = 0 := not_not.mp fun h => hz ((BitVec.pos_iff_ne_zero _).mpr h)
      rw [wp_ite]
      constructor
      · intro hempty
        rw [wp_bind, wp_modObj]
        have h₂ : Rep cfg (s₁.modObj o fun b => { b with ownerTCBPtr := none, ownerNestingCtr := 0 })
            ((a.modObj o fun b => { b with nesting := b.nesting - 1 }).modObj o fun b =>
                { b with owner := none, nesting := 0 }) :=
          h₁.modObj rfl rfl
        refine wp_pure.mpr ⟨_, ?_, .release hcur hm ho hz' ((H.rep.nbrEntries o).mp hempty) (H.int_eq hint) hopt⟩
        convert h₂ using 1
        simp [Abs.modObj]
      · intro hempty
        have hI₁ : (a.modObj o fun b => { b with nesting := b.nesting - 1 }).Sound cfg := H.sound.modObj rfl
        have hstate : (a.task t).state = .rdy ∨ (a.task t).state = .del := by
          obtain ⟨c, hc, hs⟩ := H.cur.runs hrun
          rw [hcur] at hc
          cases hc
          exact hs.imp id And.left
        have hprio : ((a.modObj o fun b => { b with nesting := b.nesting - 1 }).obj o).ownerPrio = (a.obj o).ownerPrio := by
          simp [Abs.modObj]
        rw [wp_bind]
        refine (mutexRestore_spec h₁ hI₁ hstate).mono ?_
        rintro _ s₂ ⟨h₂, hrdy⟩
        rw [hprio] at h₂ hrdy
        have hnd₁ : ∀ p, ((a.modObj o fun b => { b with nesting := b.nesting - 1 }).ready p).Nodup := H.rep.nodup
        rw [wp_bind]
        refine (mutexHandOff_spec h₂ (hI₁.restore hnd₁ hrdy)).mono ?_
        rintro _ s₃ ⟨d, hd, h₃⟩
        have heq : ((a.modObj o fun b => { b with nesting := b.nesting - 1 }).restore t (a.obj o).ownerPrio).handOff o d.1 =
            (a.restore t (a.obj o).ownerPrio).handOff o d.1 := by
          rw [Abs.restore_modObj, Abs.handOff_modObj]
        have hd' : (a.waiting o).head? = some d := by rwa [Abs.waiting_restore] at hd
        rw [heq] at h₃
        rw [wp_bind]
        refine (schedOpt_spec h₃ opt).mono ?_
        rintro _ s' ⟨a', h', hs⟩
        exact wp_pure.mpr ⟨a', h', .handOff hcur (H.int_eq hint) hm ho hz' hd' hrdy hs hopt⟩

end mutexes

section flags

theorem flagsReady_mode {mode : Opt} {grpFlags flags : Flags} {x : Flags × Bool} (h : flagsReady mode grpFlags flags = some x) :
    mode = optPendFlagSetAll ∨ mode = optPendFlagSetAny := by
  by_contra hn
  rw [not_or] at hn
  simp [flagsReady, hn.1, hn.2] at h

theorem osFlagPend_sim (H : Ready cfg s a) (hrun : a.running = true) (p : Option ObjId) (flags : Flags) (timeout : Tick)
    (opt : Opt) :
    wp n cfg (Call.flagPend p flags timeout opt).exec (Sim cfg s a (.call (.flagPend p flags timeout opt))) s := by
  rw [Call.exec, osFlagPend.eq_def, wp_bind, wp_get, wp_ite]
  refine ⟨fun _ => wp_pure.mpr (.calm H.rep id), fun hint => ?_⟩
  cases p with
  | none => exact wp_pure.mpr (.calm H.rep id)
  | some o =>
    rw [wp_ite]
    refine ⟨fun _ => wp_pure.mpr (.calm H.rep id), fun _ => ?_⟩
    rw [wp_bind, wp_getObj, wp_ite]
    refine ⟨fun _ => wp_pure.mpr (.calm H.rep id), fun htype => ?_⟩
    dsimp only
    cases hrdy : flagsReady (opt &&& optPendFlagMask) (s.obj o).flags flags with
    | none => exact wp_pure.mpr (.calm H.rep id)
    | some x =>
      obtain ⟨flagsRdy, done⟩ := x
      cases done with
      | true =>
        have hrest : ∀ s₁, Rep cfg s₁ a → wp n cfg (do
            modTcb (← getCur) fun c => { c with flagsRdy := flagsRdy }
            return some { err := .none, val := flagsRdy.toNat, ts := (s.obj o).ts })
            (Sim cfg s a (.call (.flagPend (some o) flags timeout opt))) s₁ := by
          intro s₁ h₁
          refine quiet_then h₁ keeps_getCur fun t s₂ h₂ => ?_
          refine quiet_then h₂ (keeps_key_modTcb fun _ => rfl) fun _ s₃ h₃ => ?_
          exact wp_pure.mpr (.calm h₃ id)
        dsimp only
        rw [wp_ite]
        refine ⟨fun _ => ?_, fun _ => hrest s H.rep⟩
        exact quiet_then H.rep (keeps_key_modObj fun _ => rfl) fun _ s₁ h₁ => hrest s₁ h₁
      | false =>
        rw [wp_ite]
        refine ⟨fun _ => wp_pure.mpr (.calm H.rep id), fun _ => ?_⟩
        rw [wp_ite]
        refine ⟨fun _ => wp_pure.mpr (.calm H.rep id), fun hlock => ?_⟩
        obtain ⟨t, hcur, hs⟩ := H.running_cur hrun hlock
        have hk : (a.task t).pendOn ≠ .flag := by
          have := H.sound.wait.pendOn_iff t
          grind
        rw [flagBlock, wp_bind, wp_bind, wp_getCur, ← H.rep.cur, hcur]
        rintro _ ⟨⟩
        rw [wp_bind, wp_modTcb]
        have h₁ : Rep cfg (s.modTcb t fun c => { c with flagsPend := flags, flagsOpt := opt, flagsRdy := 0 })
            (a.modTask t fun c => { c with flagsOpt := opt }) := H.rep.modTcb rfl rfl
        have hacts : a.Acts (env s (.call (.flagPend (some o) flags timeout opt)) none) (fun _ => True)
            (a.modTask t fun c => { c with flagsOpt := opt }) := .one (x := .flagsOpt t opt) trivial hk H.rep.nodup
        obtain ⟨h1, h2, h3, h4, h5⟩ := H.mayStop (r := none) (c := .flagPend (some o) flags timeout opt) hint hlock hcur hs rfl
        have hv : (Act.pendOn t (some o) .flag true).Valid (env s (.call (.flagPend (some o) flags timeout opt)) none)
            (a.modTask t fun c => { c with flagsOpt := opt }) := by
          refine ⟨⟨h1, ?_, h3, h4, h5⟩, by simp, by simp, by simp, by simp [PendOn.onObject], ?_, ?_⟩
          · rw [Abs.task_modTask, if_pos rfl]
            exact h2
          · intro x hx
            rw [← Option.mem_some.mp hx, Abs.obj_modTask, ← H.rep.type, not_not.mp htype]
            rfl
          · intro _
            rw [Abs.task_modTask, if_pos rfl]
            exact flagsReady_mode hrdy
        have hpend := pend_sim (n := n) (k := .flagPend o (opt &&& optPendFlagMask) (decide (opt &&& optPendFlagConsume ≠ 0)))
          h₁ (H.sound.acts hacts) hacts hv id (by simp) timeout
        rw [wp_bind] at hpend
        exact hpend

section post

def OS.flagData (s : OS) : (TcbId → Flags) × (ObjId → Flags) :=
  (fun t => (s.tcb t).flagsPend, fun o => (s.obj o).flags)

theorem OS.flagData_modTcb {f : TCB → TCB} (hf : ∀ c, (f c).flagsPend = c.flagsPend) (t : TcbId) :
    (s.modTcb t f).flagData = s.flagData := by
  simp only [flagData, Prod.mk.injEq]
  refine ⟨funext fun x => ?_, rfl⟩
  rw [OS.modTcb_tcb]
  split
  · subst x
    exact hf _
  · rfl

theorem keeps_flagData_modTcb {f : TCB → TCB} (hf : ∀ c, (f c).flagsPend = c.flagsPend) (t : TcbId) :
    Keeps OS.flagData (modTcb t f) := keeps_modify fun _ => OS.flagData_modTcb hf t

theorem keeps_flagData_pendListRemove (t : TcbId) : Keeps OS.flagData (pendListRemove t) := by
  intro n cfg s
  refine pendListRemove_frame.mono fun _ s' hs => ?_
  calc s'.flagData = (s.modTcb t TCB.noTable).flagData := (congrArg OS.flagData hs :)
    _ = s.flagData := OS.flagData_modTcb (by intro c; rfl) t

theorem keeps_flagData_taskRdy (t : TcbId) : Keeps OS.flagData (taskRdy t) := by
  have h1 : Keeps OS.flagData (tickListRemove t) := (keeps_tickListRemove t).comp OS.flagData
  have h2 : Keeps OS.flagData (rdyListInsert t) := (keeps_rdyListInsert t).comp OS.flagData
  rw [taskRdy]
  exact keeps_bind h1 fun _ => keeps_bind (keeps_getTcb t) fun _ => keeps_ite h2 (keeps_pure ())

theorem keeps_flagData_flagTaskRdy (t : TcbId) (flagsRdy : Flags) (ts : ℕ) : Keeps OS.flagData (flagTaskRdy t flagsRdy ts) := by
  rw [flagTaskRdy]
  refine keeps_bind (keeps_flagData_modTcb (by intro c; rfl) t) fun _ => keeps_bind (keeps_getTcb t) fun c => ?_
  have hrm := keeps_flagData_pendListRemove t
  cases c.taskState with
  | rdy | dly | dlySuspended | suspended | del => exact hrm
  | pend | pendTimeout =>
    refine keeps_bind (keeps_flagData_taskRdy t) fun _ => keeps_bind (keeps_flagData_modTcb (by intro c; rfl) t) fun _ => ?_
    exact hrm
  | pendSuspended | pendTimeoutSuspended => exact keeps_bind (keeps_flagData_modTcb (by intro c; rfl) t) fun _ => hrm

theorem Abs.waiting_flagWake (a : Abs) (t : TcbId) (hp : (a.task t).state.isPend = true) (o : ObjId) :
    (a.flagWake t).waiting o = (a.waiting o).filter (· ∉ (a.task t).table) := by
  rw [flagWake]
  split
  · rfl
  · exact a.waiting_wake t .ok hp o

theorem Abs.entry_flagWake (a : Abs) (t : TcbId) (d : PdId) : (a.flagWake t).entry d = a.entry d := by
  rw [flagWake]
  split
  · rfl
  · exact a.entry_wake t .ok d

theorem Rep.next_ne (h : Rep cfg s a) {d d' : PdId} (hd : d ∈ a.waiting o) (hn : (s.pendData d).nextPtr = some d') :
    d' ≠ d := by
  obtain ⟨xs, ys, hxy⟩ := List.append_of_mem hd
  have hlink := ((h.pend.list o).dlist.links xs d ys hxy).1
  rw [show s.pdNext d = some d' from hn] at hlink
  have hnd := (h.pend.list o).dlist.nodup
  rw [hxy, List.nodup_append] at hnd
  rintro rfl
  exact (List.nodup_cons.mp hnd.2.1).1 (List.mem_of_mem_head? hlink.symm)

theorem Abs.Sound.flag_wait (hI : a.Sound cfg) (ho : (a.obj o).type = .flag) {d : PdId} (hd : d ∈ a.waiting o) :
    (a.task d.1).pendOn = .flag ∧ (a.task d.1).state.isPend = true ∧ d = (d.1, 0) ∧ (a.entry d).obj = some o := by
  have hacc := hI.accepts hd
  have hmem := (hI.wait.mem_iff o d).mp hd
  have hk : (a.task d.1).pendOn = .flag := by
    rw [ho] at hacc
    cases hk : (a.task d.1).pendOn <;> simp [hk, PendOn.accepts] at hacc ⊢
  refine ⟨hk, ?_, hI.wait.single d.1 (by simp [hk]) d hmem.1, hmem.2⟩
  exact (hI.wait.pendOn_iff d.1).mp (by simp [hk])

structure FlagLoop (cfg : Cfg) (E : Env) (s₀ : OS) (a : Abs) (o : ObjId) (p : Option PdId) (s : OS) (b : Abs) : Prop where
  rep : Rep cfg s b
  acts : a.Acts E Act.Wakes b
  data : s.flagData = s₀.flagData
  task : ∀ t, b.task t = a.task t ∨ (b.task t).state.isPend = false
  entry : b.entry = a.entry
  mem : ∀ d ∈ p, d ∈ b.waiting o

section FlagLoop

variable {E : Env} {s₀ : OS} {d : PdId}

theorem FlagLoop.next (h : FlagLoop cfg E s₀ a o (some d) s b) : FlagLoop cfg E s₀ a o (s.pendData d).nextPtr s b where
  rep := h.rep
  acts := h.acts
  data := h.data
  task := h.task
  entry := h.entry
  mem _ hd' := h.rep.next_mem (h.mem d rfl) hd'

theorem FlagLoop.wake (h : FlagLoop cfg E s₀ a o (some d) s b) (hI : a.Sound cfg) (ho : (a.obj o).type = .flag)
    (hv : (b.task d.1).state = .pendTimeoutSuspended → E.flagHit) (h' : Rep cfg s' (b.flagWake d.1))
    (hdata : s'.flagData = s.flagData) : FlagLoop cfg E s₀ a o (s.pendData d).nextPtr s' (b.flagWake d.1) := by
  have hmem := h.mem d rfl
  have hIb := hI.acts h.acts
  obtain ⟨hk, hp, hd, -⟩ := hIb.flag_wait (by rwa [h.acts.obj]) hmem
  refine ⟨h', h.acts.snoc (x := .flagWake d.1) trivial ⟨hk, hv⟩ h.rep.nodup, hdata.trans h.data, fun t => ?_, ?_, ?_⟩
  · rw [Abs.task_flagWake]
    split
    · refine .inr ?_
      grind
    · exact h.task t
  · funext x
    rw [b.entry_flagWake, h.entry]
  · intro d' hd'
    rw [b.waiting_flagWake d.1 hp]
    refine List.mem_filter.mpr ⟨h.rep.next_mem hmem hd', ?_⟩
    have htab : d' ∉ (b.task d.1).table := by
      intro hmem'
      have := hIb.wait.single d.1 (by simp [hk]) d' hmem'
      exact h.rep.next_ne hmem hd' (this.trans hd.symm)
    simpa using htab

theorem FlagLoop.wait (h : FlagLoop cfg E s₀ a o (some d) s b) (hI : a.Sound cfg) (ho : (a.obj o).type = .flag) :
    b.task d.1 = a.task d.1 ∧ (a.task d.1).pendOn = .flag ∧ (a.entry (d.1, 0)).obj = some o := by
  have hIb := hI.acts h.acts
  obtain ⟨hk, hp, hd, he⟩ := hIb.flag_wait (by rwa [h.acts.obj]) (h.mem d rfl)
  have htask := (h.task d.1).resolve_right (by simp [hp])
  refine ⟨htask, by rwa [← htask], ?_⟩
  rwa [← hd, ← h.entry]

theorem flagPostStep_spec {p : Option PdId} (h : FlagLoop cfg E s₀ a o p s b) (hI : a.Sound cfg) (ho : (a.obj o).type = .flag)
    (hhit : ∀ t x, (a.task t).state = .pendTimeoutSuspended → (a.task t).pendOn = .flag → (a.entry (t, 0)).obj = some o →
      flagsReady ((a.task t).flagsOpt &&& optPendFlagMask) (s₀.obj o).flags (s₀.tcb t).flagsPend = some (x, true) →
      E.flagHit) (ts : ℕ) :
    wp n cfg (flagPostStep o ts p) (fun x s' => Sum.elim (fun p' => ∃ b, FlagLoop cfg E s₀ a o p' s' b)
      (fun bad => bad = false ∧ ∃ b, Rep cfg s' b ∧ a.Acts E Act.Wakes b) x) s := by
  rw [flagPostStep.eq_def]
  cases p with
  | none => exact wp_pure.mpr ⟨rfl, b, h.rep, h.acts⟩
  | some d =>
    have hmem := h.mem d rfl
    have hIb := hI.acts h.acts
    obtain ⟨htask, hk, hentry⟩ := h.wait hI ho
    have hpend : (s.tcb d.1).flagsPend = (s₀.tcb d.1).flagsPend := (congrArg (fun x => x.1 d.1) h.data :)
    have hgrp : (s.obj o).flags = (s₀.obj o).flags := (congrArg (fun x => x.2 o) h.data :)
    have hopt : (s.tcb d.1).flagsOpt = (a.task d.1).flagsOpt := by
      rw [← htask, h.rep.task]
      rfl
    dsimp only
    rw [wp_bind, wp_getPendData, h.rep.tcbPtr hIb hmem]
    dsimp only
    rw [wp_bind, wp_getTcb, wp_bind, wp_getObj, hopt, hpend, hgrp]
    cases hrdy : flagsReady ((a.task d.1).flagsOpt &&& optPendFlagMask) (s₀.obj o).flags (s₀.tcb d.1).flagsPend with
    | none =>
      -- a waiting task gave a mode that is built in
      rcases hI.wait.mode d.1 hk with hm | hm <;> simp [hm, flagsReady, optPendFlagSetAll, optPendFlagSetAny] at hrdy
    | some x =>
      obtain ⟨flagsRdy, done⟩ := x
      cases done with
      | false => exact wp_pure.mpr ⟨b, h.next⟩
      | true =>
        dsimp only
        rw [wp_bind]
        have hp : (b.task d.1).state.isPend = true := (hIb.flag_wait (by rwa [h.acts.obj]) hmem).2.1
        refine ((flagTaskRdy_spec h.rep hIb hp flagsRdy ts).and (keeps_flagData_flagTaskRdy d.1 flagsRdy ts n cfg s)).mono ?_
        rintro _ s' ⟨h', hdata⟩
        refine wp_pure.mpr ⟨_, h.wake hI ho (fun hs => ?_) h' hdata⟩
        rw [htask] at hs
        exact hhit d.1 flagsRdy hs hk hentry hrdy

end FlagLoop

theorem flagPost_sim {flags : Flags} {opt : Opt} (H : Ready cfg s a) (hrun : a.running = true) (ho : (a.obj o).type = .flag)
    (hopt : flagPostOptValid opt = true) (ts : ℕ) :
    wp n cfg (flagPost o flags opt ts) (Sim cfg s a (.call (.flagPost (some o) flags opt))) s := by
  have hrest : ∀ s₁, Rep cfg s₁ a → (s₁.obj o).flags = postedFlags opt (s.obj o).flags flags →
      (∀ t, (s₁.tcb t).flagsPend = (s.tcb t).flagsPend) → wp n cfg (do
        let b ← getObj o
        if b.pendList.nbrEntries = 0 then return some { err := .none, val := b.flags.toNat }
        let d ← Prog.deref b.pendList.headPtr
        if ← Prog.loop (flagPostStep o ts) (some d) then return some { err := .flagPendOpt }
        if opt &&& optPostNoSched = 0 ∧ (← Prog.get).intNestingCtr = 0 then waitThen (.flagPost o)
        else return some { err := .none, val := (← getObj o).flags.toNat })
        (Sim cfg s a (.call (.flagPost (some o) flags opt))) s₁ := by
    intro s₁ h₁ hgrp hpend
    rw [wp_bind, wp_getObj, wp_ite]
    refine ⟨fun _ => wp_pure.mpr (.calm h₁ id), fun _ => ?_⟩
    rw [wp_bind, wp_deref, h₁.pendHead]
    intro d hd
    rw [wp_bind]
    refine (wp_loop (fun p s' => ∃ b, FlagLoop cfg (env s (.call (.flagPost (some o) flags opt)) none) s₁ a o p s' b)
      ?_ (Q := fun bad s' => bad = false ∧ ∃ b, Rep cfg s' b ∧
        a.Acts (env s (.call (.flagPost (some o) flags opt)) none) Act.Wakes b) ?_).mono ?_
    · rintro p s₂ ⟨b, hb⟩
      refine flagPostStep_spec hb H.sound ho ?_ ts
      intro t x hs hk he hr
      rw [hgrp, hpend] at hr
      refine ⟨hopt, t, x, (H.rep.state t).trans hs, (H.rep.pendOn t).trans hk, ?_, ?_⟩
      · rwa [H.rep.entry] at he
      · rwa [H.rep.task] at hr
    · refine ⟨a, h₁, .refl, rfl, fun _ => .inl rfl, rfl, ?_⟩
      rintro _ ⟨⟩
      exact List.mem_of_mem_head? hd
    · rintro _ s₂ ⟨rfl, b, h₂, hacts⟩
      obtain ⟨t, hcur, -⟩ := H.cur.runs hrun
      rw [if_neg Bool.false_ne_true, wp_bind, wp_get, ← h₂.intNesting, hacts.intNesting, wp_ite]
      constructor
      · intro h
        exact waitThen_sim h₂ hcur h.2 hacts.any id (by simp) ⟨_, rfl⟩
      · intro h
        rw [wp_bind, wp_getObj]
        refine wp_pure.mpr ⟨b, h₂, .acts id (hacts.weaken id ?_ id) ?_⟩
        · rintro ⟨-, c, hc, hstop⟩
          cases hc
          exact hstop.elim
        · by_cases hno : opt &&& optPostNoSched = 0
          · exact .inl (Nat.pos_of_ne_zero fun hi => h ⟨hno, hi⟩)
          · exact .inr (.inl (by simpa [Event.noSched, Call.noSched] using hno))
  have hset : ∀ f : Obj → Obj, (∀ x, (f x).key = x.key) → (f (s.obj o)).flags = postedFlags opt (s.obj o).flags flags →
      Rep cfg (s.modObj o f) a ∧ ((s.modObj o f).obj o).flags = postedFlags opt (s.obj o).flags flags := by
    intro f hf hflags
    refine ⟨H.rep.of_key (OS.key_modObj hf), ?_⟩
    rwa [OS.modObj_obj, if_pos rfl]
  rw [flagPost, wp_ite]
  constructor
  · intro hset'
    obtain ⟨h1, h2⟩ := hset (fun b => { b with flags := b.flags ||| flags, ts := ts }) (fun _ => rfl)
      (by rw [postedFlags, if_pos hset'])
    rw [wp_bind, wp_modObj]
    exact hrest _ h1 h2 fun _ => rfl
  · intro hset'
    obtain ⟨h1, h2⟩ := hset (fun b => { b with flags := b.flags &&& ~~~ flags, ts := ts }) (fun _ => rfl)
      (by rw [postedFlags, if_neg hset'])
    rw [wp_bind, wp_modObj]
    exact hrest _ h1 h2 fun _ => rfl

theorem osFlagPost_sim (H : Ready cfg s a) (hrun : a.running = true) (p : Option ObjId) (flags : Flags) (opt : Opt) :
    wp n cfg (Call.flagPost p flags opt).exec (Sim cfg s a (.call (.flagPost p flags opt))) s := by
  rw [Call.exec, osFlagPost.eq_def]
  cases p with
  | none => exact wp_pure.mpr (.calm H.rep id)
  | some o =>
    dsimp only
    rw [wp_ite]
    refine ⟨fun _ => wp_pure.mpr (.calm H.rep id), fun hopt => ?_⟩
    rw [wp_bind, wp_getObj, wp_ite]
    refine ⟨fun _ => wp_pure.mpr (.calm H.rep id), fun htype => ?_⟩
    rw [wp_bind, wp_tsGet]
    refine flagPost_sim H hrun ?_ (Bool.not_eq_false _ |>.mp hopt) s.tsNow
    rw [← H.rep.type, not_not.mp htype]

end post

end flags

section several

structure Stored (cfg : Cfg) (s : OS) (a b : Abs) : Prop where
  rep : Rep cfg s b
  acts : a.Acts .plain Act.Still b
  task : b.task = a.task

theorem Stored.sound (h : Stored cfg s a b) (hI : a.Sound cfg) : b.Sound cfg := hI.acts h.acts

theorem Stored.store {d : PdId} {f : PendData → PendData} {e : Entry} (h : Stored cfg s a b) (hI : a.Sound cfg)
    (hs : (a.task d.1).state.isPend = false) (hn : (f (s.pendData d)).nextPtr = none ∨
      (f (s.pendData d)).nextPtr = (s.pendData d).nextPtr) (hv : (f (s.pendData d)).view = e) :
    Stored cfg (s.modPendData d f) a (b.modEntry d fun _ => e) := by
  have hs' : (b.task d.1).state.isPend = false := by rwa [h.task]
  refine ⟨?_, h.acts.snoc (x := .store d e) trivial hs' h.rep.nodup, h.task⟩
  refine h.rep.modPendData (fun o => (h.sound hI).wait.not_mem hs' o d.2) (fun h0 => ?_) hv
  exact hn.elim id fun h1 => h1.trans h0

theorem storeTable_spec {d : PdId} (h : Stored cfg s a b) (hI : a.Sound cfg) (hs : (a.task d.1).state.isPend = false)
    (objs : List (Option ObjId)) : wp n cfg (storeTable d objs) (fun _ s' => ∃ b', Stored cfg s' a b') s := by
  induction objs generalizing s b d with
  | nil => exact wp_pure.mpr ⟨b, h⟩
  | cons o objs ih =>
    rw [storeTable, wp_bind, wp_modPendData]
    exact ih (d := (d.1, d.2 + 1)) (h.store hI hs (.inr rfl) rfl) hs

theorem pendMultiValidate_spec (h : Rep cfg s a) (k : ℕ) (d : PdId) :
    wp n cfg (pendMultiValidate k d) (fun ok s' => s' = s ∧ (ok = true → ∀ x ∈ entriesFrom d k,
      ∃ o, (a.entry x).obj = some o ∧ ((a.obj o).type = .sem ∨ (a.obj o).type = .q))) s := by
  induction k generalizing d with
  | zero => exact wp_pure.mpr ⟨rfl, by simp [entriesFrom]⟩
  | succ k ih =>
    have hobj : (s.pendData d).pendObjPtr = (a.entry d).obj := by rw [h.entry]; rfl
    rw [pendMultiValidate, wp_bind, wp_getPendData, hobj]
    cases ho : (a.entry d).obj with
    | none => exact wp_pure.mpr ⟨rfl, by simp⟩
    | some o =>
      dsimp only
      rw [wp_bind, wp_getObj, h.type, wp_ite]
      refine ⟨fun htype => (ih _).mono ?_, fun _ => wp_pure.mpr ⟨rfl, by simp⟩⟩
      rintro ok s' ⟨rfl, hok⟩
      refine ⟨rfl, fun h1 x hx => ?_⟩
      rw [entriesFrom] at hx
      rcases List.mem_cons.mp hx with rfl | hx
      · exact ⟨o, ho, htype⟩
      · exact hok h1 x hx

theorem pendMultiGetRdy1_spec {d : PdId} (h : Stored cfg s a b) (hI : a.Sound cfg) (hs : (a.task d.1).state.isPend = false) :
    wp n cfg (pendMultiGetRdy1 d)
      (fun _ s' => ∃ b', Stored cfg s' a b' ∧ ∀ x, (b'.entry x).obj = (b.entry x).obj) s := by
  rw [pendMultiGetRdy1, wp_bind, wp_modPendData]
  have h₁ := h.store (d := d) (e := ⟨none, (b.entry d).obj⟩)
    (f := fun e => { e with
      rdyObjPtr := none, rdyMsgPtr := none, rdyMsgSize := 0, rdyTS := 0, nextPtr := none, prevPtr := none, tcbPtr := none })
    hI hs (.inl rfl) (by rw [h.rep.entry]; rfl)
  generalize s.modPendData d _ = s₁ at h₁
  have hobj : ∀ x, ((b.modEntry d fun _ => ⟨none, (b.entry d).obj⟩).entry x).obj = (b.entry x).obj := by
    intro x
    by_cases hx : x = d
    · subst hx
      simp [Abs.modEntry]
    · simp [Abs.modEntry, hx]
  have hdone : ∀ s', Rep cfg s' (b.modEntry d fun _ => ⟨none, (b.entry d).obj⟩) →
      ∃ b', Stored cfg s' a b' ∧ ∀ x, (b'.entry x).obj = (b.entry x).obj := fun s' h' => ⟨_, ⟨h', h₁.acts, h₁.task⟩, hobj⟩
  rw [wp_bind, wp_getPendData, wp_bind, wp_deref]
  intro o _
  rw [wp_bind, wp_getObj]
  cases (s₁.obj o).type with
  | none | flag | mutex => exact wp_pure.mpr (hdone _ h₁.rep)
  | q =>
    dsimp only
    refine quiet_then h₁.rep (keeps_msgQGet _) fun x s₂ h₂ => ?_
    refine quiet_then h₂ (keeps_key_modObj fun _ => rfl) fun _ s₃ h₃ => ?_
    rw [wp_ite]
    refine ⟨fun _ => ?_, fun _ => wp_pure.mpr (hdone _ h₃)⟩
    rw [wp_bind, wp_modPendData]
    exact wp_pure.mpr (hdone _ (h₃.of_key (OS.key_modPendData fun _ => rfl)))
  | sem =>
    dsimp only
    rw [wp_ite]
    refine ⟨fun _ => ?_, fun _ => wp_pure.mpr (hdone _ h₁.rep)⟩
    refine quiet_then h₁.rep (keeps_key_modObj fun _ => rfl) fun _ s₂ h₂ => ?_
    rw [wp_bind, wp_modPendData]
    exact wp_pure.mpr (hdone _ (h₂.of_key (OS.key_modPendData fun _ => rfl)))

theorem pendMultiGetRdy_spec {d : PdId} (h : Stored cfg s a b) (hI : a.Sound cfg) (hs : (a.task d.1).state.isPend = false)
    (k : ℕ) : wp n cfg (pendMultiGetRdy k d)
      (fun _ s' => ∃ b', Stored cfg s' a b' ∧ ∀ x, (b'.entry x).obj = (b.entry x).obj) s := by
  induction k generalizing s b d with
  | zero => exact wp_pure.mpr ⟨b, h, fun _ => rfl⟩
  | succ k ih =>
    rw [pendMultiGetRdy, wp_bind]
    refine (pendMultiGetRdy1_spec h hI hs).mono ?_
    rintro rdy s₁ ⟨b₁, h₁, ho₁⟩
    rw [wp_bind]
    refine (ih (d := (d.1, d.2 + 1)) h₁ hs).mono ?_
    rintro nbr s₂ ⟨b₂, h₂, ho₂⟩
    exact wp_pure.mpr ⟨b₂, h₂, fun x => (ho₂ x).trans (ho₁ x)⟩

theorem osPendMulti_sim (H : Ready cfg s a) (hrun : a.running = true) (tbl : Option ℕ) (objs : List (Option ObjId))
    (timeout : Tick) (opt : Opt) :
    wp n cfg (Call.pendMulti tbl objs timeout opt).exec (Sim cfg s a (.call (.pendMulti tbl objs timeout opt))) s := by
  rw [Call.exec, osPendMulti.eq_def, wp_bind, wp_get, wp_ite]
  refine ⟨fun _ => wp_pure.mpr (.calm H.rep id), fun hint => ?_⟩
  cases tbl with
  | none => exact wp_pure.mpr (.calm H.rep id)
  | some i =>
    dsimp only
    rw [wp_bind, wp_getCur, ← H.rep.cur]
    intro t hcur
    have hnp : (a.task t).state.isPend = false := by
      obtain ⟨c, hc, hs⟩ := H.cur.runs hrun
      rw [hcur] at hc
      cases hc
      rcases hs with hs | ⟨hs, -⟩ <;> rw [hs] <;> rfl
    rw [wp_bind]
    refine (storeTable_spec (d := (t, i)) ⟨H.rep, .refl, rfl⟩ H.sound hnp objs).mono ?_
    rintro _ s₁ ⟨b₁, h₁⟩
    have hend : ∀ {s' b'} r, Stored cfg s' a b' → Sim cfg s a (.call (.pendMulti (some i) objs timeout opt)) (some r) s' :=
      fun _ h' => .still h'.rep id h'.acts
    rw [wp_ite]
    refine ⟨fun _ => wp_pure.mpr (hend _ h₁), fun hlen => ?_⟩
    rw [wp_ite]
    refine ⟨fun _ => wp_pure.mpr (hend _ h₁), fun _ => ?_⟩
    rw [wp_bind]
    refine (pendMultiValidate_spec h₁.rep _ _).mono ?_
    rintro ok s₂ ⟨rfl, hobj⟩
    rw [wp_ite]
    refine ⟨fun _ => wp_pure.mpr (hend _ h₁), fun hok => ?_⟩
    replace hobj := hobj (Bool.not_eq_false _ |>.mp hok)
    rw [wp_bind]
    refine (pendMultiGetRdy_spec (d := (t, i)) h₁ H.sound hnp _).mono ?_
    rintro nbr s₃ ⟨b₃, h₃, ho₃⟩
    rw [wp_ite]
    refine ⟨fun _ => wp_pure.mpr (hend _ h₃), fun _ => ?_⟩
    rw [wp_ite]
    refine ⟨fun _ => wp_pure.mpr (hend _ h₃), fun _ => ?_⟩
    rw [wp_ite]
    refine ⟨fun _ => wp_pure.mpr (hend _ h₃), fun hlock => ?_⟩
    obtain ⟨t', hcur', hs⟩ := H.running_cur hrun hlock
    rw [hcur] at hcur'
    cases hcur'
    have hs₃ : (b₃.task t).state = .rdy := by rwa [h₃.task]
    have hobj₃ : ∀ x ∈ entriesFrom (t, i) objs.length,
        ∃ o, (b₃.entry x).obj = some o ∧ ((b₃.obj o).type = .sem ∨ (b₃.obj o).type = .q) := by
      intro x hx
      rw [ho₃, h₃.acts.obj, ← h₁.acts.obj]
      exact hobj x hx
    rw [wp_bind]
    refine (pendMultiWait_spec h₃.rep (h₃.sound H.sound) (h₃.acts.cur.trans hcur) hs₃ rfl hobj₃ timeout).mono ?_
    rintro _ s₄ ⟨timed, h₄⟩
    refine waitThen_sim h₄ hcur (H.int_eq hint) (h₃.acts.of_plain.any.snoc (x := .pendMulti t timed _) trivial ?_ h₃.rep.nodup)
      id (by simp) ⟨_, rfl⟩
    obtain ⟨-, -, -, -, hidle⟩ :=
      H.mayStop (r := none) (c := .pendMulti (some i) objs timeout opt) hint hlock hcur hs rfl
    refine ⟨⟨h₃.acts.cur.trans hcur, hs₃, h₃.acts.intNesting.trans (H.int_eq hint),
      h₃.acts.lockNesting.trans (H.lock_eq hlock), hidle⟩, ?_, fun d hd => (mem_entriesFrom.mp hd).1, fun d hd => ?_⟩
    · cases hl : objs.length with
      | zero => exact absurd hl hlen
      | succ k => simp [entriesFrom]
    · obtain ⟨o, ho, htype⟩ := hobj₃ d hd
      refine ⟨o, ho, ?_⟩
      rcases htype with h | h <;> rw [h] <;> rfl

end several

end UcosIII
