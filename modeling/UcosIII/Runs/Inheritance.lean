import UcosIII.Runs.MutexLedger

namespace UcosIII

open Prog

variable {cfg : Cfg} {s s' : OS} {a a' b : Abs} {h : List Step} {t w : TcbId} {o : ObjId} {d : PdId} {e : Event}
  {r : Option Ret} {E : Env} {S : Act → Prop}

section conditions

def KeepsPrios : Event → Prop
  | .call (.taskDel _) | .call (.taskChangePrio ..) => False
  | _ => True

def Event.keepsPrios : Event → Bool
  | .call (.taskDel _) | .call (.taskChangePrio ..) => false
  | _ => true

theorem keepsPrios_iff (e : Event) : e.keepsPrios = true ↔ KeepsPrios e := by
  unfold Event.keepsPrios KeepsPrios
  split <;> simp

instance (e : Event) : Decidable (KeepsPrios e) := decidable_of_iff _ (keepsPrios_iff e)

/-- The pend takes a mutex for which a task of better priority waits, or raises an owner that waits itself for
a mutex whose owner stays below. -/
def PendInverts (s : OS) (o : ObjId) (opt : Opt) : Prop :=
  s.intNestingCtr = 0 ∧ pendOptValid opt = true ∧ (s.obj o).type = .mutex ∧ ∃ t ∈ s.tcbCurPtr,
    ((s.obj o).ownerNestingCtr = 0 ∧
        (∃ k < (s.obj o).pendList.nbrEntries, ∃ d ∈ s.pendAt o k, s.pdPrio d < (s.tcb t).prio) ∨
      (s.obj o).ownerNestingCtr ≠ 0 ∧ opt &&& optPendNonBlocking = 0 ∧ s.schedLockNestingCtr = 0 ∧
        ∃ w ∈ (s.obj o).ownerTCBPtr, (s.tcb t).prio < (s.tcb w).prio ∧ (s.tcb w).pendOn = .mutex ∧
          ∃ o' ∈ (s.pendData (w, 0)).pendObjPtr, ∃ u ∈ (s.obj o').ownerTCBPtr, (s.tcb t).prio < (s.tcb u).prio)

instance (s : OS) (o : ObjId) (opt : Opt) : Decidable (PendInverts s o opt) := by
  unfold PendInverts
  infer_instance

/-- The post hands a mutex over and brings the owner back to a priority below that of a task that waits for
another of its mutexes. -/
def PostInverts (s : OS) (o : ObjId) (opt : Opt) : Prop :=
  s.intNestingCtr = 0 ∧ postOptValid opt = true ∧ (s.obj o).type = .mutex ∧ ∃ t ∈ s.tcbCurPtr,
    (s.obj o).ownerTCBPtr = some t ∧ (s.obj o).ownerNestingCtr = 1 ∧ (s.obj o).pendList.nbrEntries ≠ 0 ∧
      ∃ o' ≠ o, (s.obj o').type = .mutex ∧ (s.obj o').ownerTCBPtr = some t ∧
        ∃ k < (s.obj o').pendList.nbrEntries, ∃ d ∈ s.pendAt o' k, s.pdPrio d < (s.obj o).ownerOriginalPrio

/-- The event leaves the owner of a mutex below a task that waits for it. -/
def Inverts (s : OS) : Event → Prop
  | .call (.mutexPend (some o) _ opt) => PendInverts s o opt
  | .call (.mutexPost (some o) opt) => PostInverts s o opt
  | _ => False

end conditions

section live

namespace Abs

structure Live (a : Abs) : Prop where
  owner : ∀ o w, (a.obj o).type = .mutex → (a.obj o).owner = some w → (a.task w).state ≠ .del
  cur : ∀ t, a.cur = some t → (a.task t).state ≠ .del

theorem Live.congr (hL : a.Live) (hobj : b.obj = a.obj) (hdel : ∀ t, (a.task t).state ≠ .del → (b.task t).state ≠ .del)
    (hcur : b.cur = a.cur) : b.Live := by
  refine ⟨fun o w hm ho => ?_, fun t ht => ?_⟩
  · rw [hobj] at hm ho
    exact hdel w (hL.owner o w hm ho)
  · rw [hcur] at ht
    exact hdel t (hL.cur t ht)

theorem Live.acts (hL : a.Live) (hacts : a.Acts E S b) : b.Live :=
  hL.congr hacts.obj (fun t => mt (hacts.del_iff t).mp) hacts.cur

theorem Best.ready {p : ℕ} (hb : a.Best p t) (hI : a.Sound cfg) : (a.task t).state = .rdy :=
  ((hI.ready t p).mp (List.mem_of_mem_head? hb.1)).1

theorem Live.sched (hL : a.Live) (hs : a.Sched a') (hI : a'.Sound cfg) : a'.Live := by
  obtain ⟨-, rfl⟩ | ⟨-, rfl⟩ | ⟨-, -, p, t, hb, rfl⟩ := hs
  · exact hL
  · exact hL
  · refine ⟨hL.owner, ?_⟩
    rintro _ ⟨⟩
    have hrdy := Best.ready (a := a.switch p t) hb hI
    rw [hrdy]
    simp

theorem Live.modObj {f : Sync → Sync} (hL : a.Live)
    (hf : ∀ w, (f (a.obj o)).type = .mutex → (f (a.obj o)).owner = some w → (a.task w).state ≠ .del) :
    (a.modObj o f).Live := by
  refine ⟨fun o' w hm ho => ?_, hL.cur⟩
  rw [obj_modObj] at hm ho
  split at ho
  · rename_i hoo
    rw [if_pos hoo] at hm
    exact hf w hm ho
  · rename_i hoo
    rw [if_neg hoo] at hm
    exact hL.owner o' w hm ho

theorem Live.boost (hL : a.Live) (p : ℕ) : (a.boost w p).Live := by
  refine hL.congr (a.obj_boost w p) (fun t ht => ?_) (congrArg Prod.fst (a.who_boost w p))
  rw [task_boost]
  split
  · rename_i htw
    rwa [htw.1] at ht
  · exact ht

theorem Live.pendOn {timed : Bool} (hL : a.Live) : (a.pendOn t (some o) .mutex timed).Live := by
  have hframe := frame_pendOn (a := a) t (some o) .mutex timed
  refine hL.congr (congrArg (fun y : Abs => y.obj) hframe :) (fun x hx => ?_) (congrArg (fun y : Abs => y.cur) hframe :)
  rw [task_pendOn]
  split
  · cases timed <;> simp
  · exact hx

theorem Live.handOff {p : ℕ} (hL : a.Live) (hd : (a.task d.1).state.isPend = true) :
    ((a.restore t p).handOff o d.1).Live := by
  have hstate : ∀ x, ((a.restore t p).task x).state = (a.task x).state := by
    intro x
    rw [task_restore]
    split
    · rename_i hx
      rw [hx]
    · rfl
  have hlive : ∀ x, (a.task x).state ≠ .del → (((a.restore t p).handOff o d.1).task x).state ≠ .del := by
    intro x hx
    rw [task_handOff]
    split
    · rename_i hxd
      have := hstate d.1
      rw [hxd] at hx
      grind
    · rwa [hstate]
  have hnew : (a.task d.1).state ≠ .del := by
    intro h
    rw [h] at hd
    cases hd
  have hcur : ((a.restore t p).handOff o d.1).cur = a.cur :=
    (congrArg Prod.fst (who_handOff (a.restore t p) o d.1)).trans (congrArg Prod.fst (a.who_restore t p))
  refine ⟨fun o' w hm ho => ?_, fun x hx => ?_⟩
  · rw [obj_handOff, obj_restore] at hm ho
    apply hlive
    split at ho
    · cases ho
      exact hnew
    · rename_i hoo
      rw [if_neg hoo] at hm
      exact hL.owner o' w hm ho
  · rw [hcur] at hx
    exact hlive x (hL.cur x hx)

theorem Live.start {p : ℕ} (hL : a.Live) : (a.start t p).Live := by
  refine hL.congr rfl (fun x hx => ?_) rfl
  rw [task_start]
  split
  · simp [Task.fresh]
  · exact hx

end Abs

theorem AStep.live (hstep : AStep cfg s a e r a') (H : Ready cfg s a) (hp : ¬ PassedMatch cfg s e) (hk : KeepsPrios e)
    (hL : a.Live) : a'.Live := by
  have hI := hstep.sound H.sound H.rep.nodup hp
  cases hstep with
  | still _ h => exact hL.acts h
  | acts _ h => exact hL.acts h
  | sched _ _ h hs => exact (hL.acts h).sched hs hI
  | leave _ _ _ _ h hs =>
    have hL' := hL.acts h
    refine Abs.Live.sched ?_ hs hI
    exact ⟨hL'.owner, hL'.cur⟩
  | @finish t _ _ _ _ h => exact Abs.Live.acts (a := a.setCont t .none) ⟨hL.owner, hL.cur⟩ h
  | mutexReturn | lock | intEnter => exact ⟨hL.owner, hL.cur⟩
  | start _ hb =>
    refine ⟨hL.owner, ?_⟩
    rintro _ ⟨⟩
    have hrdy := hb.ready H.sound
    rw [hrdy]
    simp
  | create _ _ _ _ hs =>
    split at hs
    · exact hL.start.sched hs hI
    · rw [hs]
      exact hL.start
  | delete | changePrio => exact absurd hk id
  | refuse _ _ _ h => exact absurd h hp
  | @object c r o k _ hw =>
    apply hL.modObj
    intro w hm ho
    unfold Sync.create at hm ho
    split at ho
    · cases ho
    · rename_i hne
      rw [if_neg hne] at hm
      exact absurd hm hne
  | @take o t timeout opt r hcur =>
    apply hL.modObj
    rintro w _ ⟨⟩
    exact hL.cur t hcur
  | @nest o t timeout opt r hcur hm hz ho =>
    apply hL.modObj
    intro w
    exact hL.owner o w
  | @unnest o t opt hcur hm ho hz =>
    apply hL.modObj
    intro w
    exact hL.owner o w
  | @release o t opt =>
    apply hL.modObj
    rintro w _ ⟨⟩
  | @wait o t w timed timeout opt b _ hstop hm hz ho hne hb _ hs =>
    have hLb : b.Live := by
      split at hb
      · rw [hb.2]
        exact hL.boost _
      · rwa [hb]
    have hL' : (b.pendOn t (some o) .mutex timed).Live := hLb.pendOn
    refine Abs.Live.sched ?_ hs hI
    exact ⟨hL'.owner, hL'.cur⟩
  | @handOff o t d opt _ hcur hint hm ho hz hw hrdy hs =>
    have hL' : ((a.restore t (a.obj o).ownerPrio).handOff o d.1).Live :=
      hL.handOff (H.sound.wait.isPend (List.mem_of_mem_head? hw))
    split at hs
    · exact hL'.sched hs hI
    · rw [hs]
      exact hL'
  | unlock _ _ _ hs | intExit _ hs =>
    refine Abs.Live.sched ?_ hs hI
    exact ⟨hL.owner, hL.cur⟩

end live

section inversion

namespace Abs

def Above (a : Abs) : Prop := ∀ o d, (a.obj o).type = .mutex → d ∈ a.waiting o →
  ∃ w, (a.obj o).owner = some w ∧ (a.task w).prio ≤ a.pdPrio d

theorem Above.sub (hA : a.Above) (hobj : b.obj = a.obj)
    (hw : ∀ o, (a.obj o).type = .mutex → ∀ d ∈ b.waiting o, d ∈ a.waiting o)
    (hp : ∀ t, (b.task t).prio = (a.task t).prio) : b.Above := by
  intro o d hm hd
  rw [hobj] at hm ⊢
  obtain ⟨w, ho, hle⟩ := hA o d hm (hw o hm d hd)
  refine ⟨w, ho, ?_⟩
  rwa [pdPrio, hp, hp]

theorem Above.acts (hA : a.Above) (hacts : a.Acts E S b) : b.Above :=
  hA.sub hacts.obj (fun _ ho _ => hacts.mem_mutex ho) hacts.prio

theorem Above.sched (hA : a.Above) (hs : a.Sched a') : a'.Above := by
  obtain ⟨-, rfl⟩ | ⟨-, rfl⟩ | ⟨-, -, p, t, -, rfl⟩ := hs <;> exact hA

theorem Above.modObj {f : Sync → Sync} (hA : a.Above)
    (hf : ∀ d ∈ a.waiting o, (f (a.obj o)).type = .mutex →
      ∃ w, (f (a.obj o)).owner = some w ∧ (a.task w).prio ≤ a.pdPrio d) : (a.modObj o f).Above := by
  intro o' d hm hd
  rw [obj_modObj] at hm ⊢
  split at hm
  · rename_i hoo
    rw [if_pos hoo]
    subst hoo
    exact hf d hd hm
  · rename_i hoo
    rw [if_neg hoo]
    exact hA o' d hm hd

theorem Above.start {p : ℕ} (hA : a.Above) (hL : a.Live) (hI : a.Sound cfg) (hd : (a.task t).state = .del) :
    (a.start t p).Above := by
  intro o d hm hw
  obtain ⟨w, ho, hle⟩ := hA o d hm hw
  have hwt : w ≠ t := by
    rintro rfl
    exact hL.owner o w hm ho hd
  have hdt : d.1 ≠ t := hI.not_waiting (by rw [hd]; rfl) o hw
  refine ⟨w, ho, ?_⟩
  rw [pdPrio, task_start, if_neg hwt, task_start, if_neg hdt]
  exact hle

theorem Sound.entry_mutex (hI : a.Sound cfg) (hm : (a.obj o).type = .mutex) (hd : d ∈ a.waiting o) :
    d = (d.1, 0) ∧ (a.task d.1).pendOn = .mutex ∧ (a.entry (d.1, 0)).obj = some o := by
  have hk := hI.pendOn_mutex hm hd
  obtain ⟨htab, hobj⟩ := (hI.wait.mem_iff o d).mp hd
  have heq := hI.wait.single d.1 (by simp [hk]) d htab
  refine ⟨heq, hk, ?_⟩
  rw [← heq]
  exact hobj

/-- The owner `w` of the mutex that `t` waits for is raised, and no owner of a mutex that `w` waits for is left
behind. -/
theorem Above.wait {timed : Bool} (hA : a.Above) (hI : a.Sound cfg) (ho : (a.obj o).owner = some w) (hne : w ≠ t)
    (hb : if (a.task t).prio < (a.task w).prio then (a.task w).state ≠ .del ∧ b = a.boost w (a.task t).prio else b = a)
    (hno : (a.task t).prio < (a.task w).prio → (a.task w).pendOn = .mutex → ∀ o' u, (a.entry (w, 0)).obj = some o' →
      (a.obj o').owner = some u → (a.task u).prio ≤ (a.task t).prio) : (b.pendOn t (some o) .mutex timed).Above := by
  have hobj : (b.pendOn t (some o) .mutex timed).obj = a.obj := by
    have hpend : (b.pendOn t (some o) .mutex timed).obj = b.obj := attach_obj _
    rw [hpend]
    split at hb
    · rw [hb.2, obj_boost]
    · rw [hb]
  have hprio : ∀ x, ((b.pendOn t (some o) .mutex timed).task x).prio =
      if x = w ∧ (a.task t).prio < (a.task w).prio then (a.task t).prio else (a.task x).prio := by
    intro x
    have hbx : ((b.pendOn t (some o) .mutex timed).task x).prio = (b.task x).prio :=
      (congrArg (fun y : Abs => (y.task x).prio) (frame_pendOn t (some o) .mutex timed) :)
    rw [hbx]
    split at hb
    · rename_i hlt
      rw [hb.2, task_boost]
      by_cases hx : x = w <;> simp [hx, hb.1, hlt]
    · rename_i hlt
      simp [hb, hlt]
  have hmem : ∀ o' x, x ∈ (b.pendOn t (some o) .mutex timed).waiting o' → x ∈ a.waiting o' ∨ x = (t, 0) ∧ o' = o := by
    intro o' x hx
    rcases mem_waiting_pendOn.mp hx with hx | hx
    · left
      split at hb
      · rw [hb.2] at hx
        exact (mem_waiting_boost hI.wait w _ o' x).mp hx
      · rwa [hb] at hx
    · exact .inr hx
  intro o' d hm hd
  rw [hobj] at hm ⊢
  rcases hmem o' d hd with hd | ⟨rfl, rfl⟩
  · obtain ⟨u, hu, hle⟩ := hA o' d hm hd
    refine ⟨u, hu, ?_⟩
    rw [pdPrio, hprio, hprio]
    rw [pdPrio] at hle
    obtain ⟨-, hk, he⟩ := hI.entry_mutex hm hd
    by_cases hlt : (a.task t).prio < (a.task w).prio
    · simp only [hlt, and_true]
      by_cases hdw : d.1 = w
      · have hlow : (a.task u).prio ≤ (a.task t).prio := by
          rw [hdw] at hk he
          exact hno hlt hk o' u he hu
        rw [if_pos hdw]
        split <;> omega
      · rw [if_neg hdw]
        split
        · rename_i huw
          rw [huw] at hle
          omega
        · exact hle
    · simpa only [hlt, and_false, if_false] using hle
  · refine ⟨w, ho, ?_⟩
    have htw : ((t, 0) : PdId).1 ≠ w := fun h => hne h.symm
    rw [pdPrio, hprio, hprio, if_neg (fun h : (t, 0).1 = w ∧ _ => htw h.1)]
    split
    · exact le_rfl
    · rename_i hlt
      simp only [true_and] at hlt
      change (a.task w).prio ≤ (a.task t).prio
      omega

theorem Above.handOff (hA : a.Above) (hO : a.Ordered fun _ => False) (hI : a.Sound cfg) (hC : a.CurOk) (hcur : a.cur = some t)
    (hm : (a.obj o).type = .mutex) (hw : (a.waiting o).head? = some d)
    (hno : ∀ o' x, o' ≠ o → (a.obj o').type = .mutex → (a.obj o').owner = some t → x ∈ a.waiting o' →
      (a.obj o).ownerPrio ≤ a.pdPrio x) : ((a.restore t (a.obj o).ownerPrio).handOff o d.1).Above := by
  have hprio : ∀ x, (((a.restore t (a.obj o).ownerPrio).handOff o d.1).task x).prio =
      if x = t then (a.obj o).ownerPrio else (a.task x).prio := by
    intro x
    have hr : ((a.restore t (a.obj o).ownerPrio).task x).prio = if x = t then (a.obj o).ownerPrio else (a.task x).prio := by
      rw [task_restore]
      split <;> rfl
    rw [← hr]
    exact (congrArg (fun y : Abs => (y.task x).prio) (frame_wake d.1 .ok) :)
  have hout : ∀ o', ∀ x ∈ a.waiting o', x.1 ≠ t := fun o' x => hC.not_waiting hI hcur o'
  have hmem := List.mem_of_mem_head? hw
  intro o' x hm' hx
  obtain ⟨hxa, -⟩ := hI.mem_handOff hmem hx
  rw [pdPrio, hprio, if_neg (hout o' x hxa)]
  rw [obj_handOff, obj_restore] at hm' ⊢
  split
  · rename_i hoo
    subst hoo
    refine ⟨d.1, rfl, ?_⟩
    rw [hprio, if_neg (hout o' d hmem)]
    have hlist := hO o' (by simp [hm])
    cases hl : a.waiting o' with
    | nil => simp [hl] at hw
    | cons y ys =>
      rw [hl] at hw hlist hxa
      cases hw
      rcases List.mem_cons.mp hxa with rfl | hxa
      · exact le_rfl
      · exact (rank_le_iff (T := fun _ => False) id).mp ((List.pairwise_cons.mp hlist).1 x hxa)
  · rename_i hoo
    rw [if_neg hoo] at hm'
    obtain ⟨u, hu, hle⟩ := hA o' x hm' hxa
    refine ⟨u, hu, ?_⟩
    rw [hprio]
    split
    · rename_i hut
      rw [hut] at hu
      exact hno o' x hoo hm' hu hxa
    · exact hle

end Abs

theorem Rep.pendAt_lt (h : Rep cfg s a) (hd : d ∈ a.waiting o) :
    ∃ k < (s.obj o).pendList.nbrEntries, s.pendAt o k = some d := by
  obtain ⟨k, hk, rfl⟩ := List.getElem_of_mem hd
  have hnbr : (s.obj o).pendList.nbrEntries = (a.waiting o).length := (h.pend.list o).nbr_eq
  refine ⟨k, ?_, ?_⟩
  · rwa [hnbr]
  · rw [h.pendAt_eq]
    exact List.getElem?_eq_getElem hk

theorem Rep.pendObj (h : Rep cfg s a) (d : PdId) : (s.pendData d).pendObjPtr = (a.entry d).obj := by
  rw [h.entry]
  rfl

theorem Rep.ownerPrio (h : Rep cfg s a) (o : ObjId) : (s.obj o).ownerOriginalPrio = (a.obj o).ownerPrio := by
  rw [h.obj]
  rfl

theorem Ready.above_take {timeout : Tick} {opt : Opt} (H : Ready cfg s a)
    (hno : ¬ Inverts s (.call (.mutexPend (some o) timeout opt))) (hcur : a.cur = some t) (hm : (a.obj o).type = .mutex)
    (hz : (a.obj o).nesting = 0) (hint : a.intNesting = 0) (hopt : pendOptValid opt = true) (hd : d ∈ a.waiting o) :
    (a.task t).prio ≤ a.pdPrio d := by
  by_contra hlt
  apply hno
  obtain ⟨k, hk, hat⟩ := H.rep.pendAt_lt hd
  refine ⟨?_, hopt, ?_, t, ?_, .inl ⟨?_, k, hk, d, hat, ?_⟩⟩
  · rw [← H.rep.intNesting, hint]
  · rw [H.rep.type, hm]
  · rw [← H.rep.cur, hcur]
    rfl
  · rw [H.rep.nesting, hz]
  · rw [H.rep.pdPrio, H.rep.prio]
    omega

theorem Ready.above_wait {timeout : Tick} {opt : Opt} {o' : ObjId} {u : TcbId} (H : Ready cfg s a)
    (hno : ¬ Inverts s (.call (.mutexPend (some o) timeout opt))) (hcur : a.cur = some t) (hint : a.intNesting = 0)
    (hlock : a.lockNesting = 0) (hm : (a.obj o).type = .mutex) (hz : (a.obj o).nesting ≠ 0) (ho : (a.obj o).owner = some w)
    (hopt : pendOptValid opt = true) (hblock : opt &&& optPendNonBlocking = 0)
    (hlt : (a.task t).prio < (a.task w).prio) (hk : (a.task w).pendOn = .mutex) (hobj : (a.entry (w, 0)).obj = some o')
    (hu : (a.obj o').owner = some u) : (a.task u).prio ≤ (a.task t).prio := by
  by_contra hgt
  apply hno
  refine ⟨?_, hopt, ?_, t, ?_, .inr ⟨?_, hblock, ?_, w, ?_, ?_, ?_, o', ?_, u, ?_, ?_⟩⟩
  · rw [← H.rep.intNesting, hint]
  · rw [H.rep.type, hm]
  · rw [← H.rep.cur, hcur]
    rfl
  · rwa [H.rep.nesting]
  · rw [← H.rep.lockNesting, hlock]
  · rw [H.rep.owner, ho]
    rfl
  · rwa [H.rep.prio, H.rep.prio]
  · rw [H.rep.pendOn, hk]
  · rw [H.rep.pendObj, hobj]
    rfl
  · rw [H.rep.owner, hu]
    rfl
  · rw [H.rep.prio, H.rep.prio]
    omega

theorem Ready.above_post {opt : Opt} {o' : ObjId} {x : PdId} (H : Ready cfg s a)
    (hno : ¬ Inverts s (.call (.mutexPost (some o) opt))) (hcur : a.cur = some t) (hint : a.intNesting = 0)
    (hm : (a.obj o).type = .mutex) (ho : (a.obj o).owner = some t) (hz : (a.obj o).nesting - 1 = 0)
    (hw : (a.waiting o).head? = some d) (hopt : postOptValid opt = true) (hoo : o' ≠ o) (hm' : (a.obj o').type = .mutex)
    (ho' : (a.obj o').owner = some t) (hx : x ∈ a.waiting o') : (a.obj o).ownerPrio ≤ a.pdPrio x := by
  by_contra hlt
  apply hno
  obtain ⟨k, hk, hat⟩ := H.rep.pendAt_lt hx
  refine ⟨?_, hopt, ?_, t, ?_, ?_, ?_, H.rep.pendNbr_ne hw, o', hoo, ?_, ?_, k, hk, x, hat, ?_⟩
  · rw [← H.rep.intNesting, hint]
  · rw [H.rep.type, hm]
  · rw [← H.rep.cur, hcur]
    rfl
  · rw [H.rep.owner, ho]
  · rw [H.rep.nesting]
    bv_omega
  · rw [H.rep.type, hm']
  · rw [H.rep.owner, ho']
  · rw [H.rep.pdPrio, H.rep.ownerPrio]
    omega

theorem AStep.above (hstep : AStep cfg s a e r a') (H : Ready cfg s a) (hp : ¬ PassedMatch cfg s e) (hk : KeepsPrios e)
    (hno : ¬ Inverts s e) (hO : a.Ordered fun _ => False) (hL : a.Live) (hA : a.Above) : a'.Above := by
  cases hstep with
  | still _ h => exact hA.acts h
  | acts _ h => exact hA.acts h
  | sched _ _ h hs => exact (hA.acts h).sched hs
  | leave _ _ _ _ h hs =>
    have hA' := hA.acts h
    apply Abs.Above.sched _ hs
    exact hA'
  | @finish t _ _ _ _ h => exact Abs.Above.acts (a := a.setCont t .none) hA h
  | mutexReturn | lock | intEnter | start => exact hA
  | @create args t _ _ hd _ _ hs =>
    have hA' : (a.start t args.prio).Above := hA.start hL H.sound hd
    split at hs
    · exact hA'.sched hs
    · rw [hs]
      exact hA'
  | delete | changePrio => exact absurd hk id
  | refuse _ _ _ h => exact absurd h hp
  | @object c r o k _ hw =>
    apply hA.modObj
    intro d hd
    rw [hw] at hd
    cases hd
  | @take o t timeout opt r hcur hm hz _ hint hopt =>
    apply hA.modObj
    intro d hd _
    exact ⟨t, rfl, H.above_take hno hcur hm hz hint hopt hd⟩
  | @nest o t timeout opt r hcur hm =>
    apply hA.modObj
    intro d hd _
    exact hA o d hm hd
  | @unnest o t opt hcur hm =>
    apply hA.modObj
    intro d hd _
    exact hA o d hm hd
  | @release o t opt hcur hm ho hz hw =>
    apply hA.modObj
    intro d hd
    rw [hw] at hd
    cases hd
  | @wait o t w timed timeout opt b _ hstop hm hz ho hne hb _ hs hopt hblock =>
    obtain ⟨hcur, -, hint, hlock, -⟩ := hstop
    apply Abs.Above.sched _ hs
    have hA' : (b.pendOn t (some o) .mutex timed).Above := by
      apply hA.wait H.sound ho hne hb
      intro hlt hk o' u hobj hu
      exact H.above_wait hno hcur hint hlock hm hz ho hopt hblock hlt hk hobj hu
    exact hA'
  | @handOff o t d opt _ hcur hint hm ho hz hw _ hs hopt =>
    have hA' : ((a.restore t (a.obj o).ownerPrio).handOff o d.1).Above := by
      apply hA.handOff hO H.sound H.cur hcur hm hw
      intro o' x hoo hm' ho' hx
      exact H.above_post hno hcur hint hm ho hz hw hopt hoo hm' ho' hx
    split at hs
    · exact hA'.sched hs
    · rw [hs]
      exact hA'
  | unlock _ _ _ hs | intExit _ hs =>
    apply Abs.Above.sched _ hs
    exact hA

/-- The owner of every mutex has a priority at least as good as that of any task that waits for it. -/
def OwnersAbove (s : OS) : Prop := ∀ o k d, (s.obj o).type = .mutex → s.pendAt o k = some d →
  ∃ w, (s.obj o).ownerTCBPtr = some w ∧ (s.tcb w).prio ≤ s.pdPrio d

/-- The runs without changes of priority from outside. -/
def Plain (cfg : Cfg) (x : Step) : Prop := ¬ PassedMatch cfg x.pre x.event ∧ KeepsPrios x.event

instance (cfg : Cfg) (x : Step) : Decidable (Plain cfg x) := inferInstanceAs (Decidable (_ ∧ _))

theorem run_ownersAbove (run : CodeRun cfg (fun _ x => Plain cfg x ∧ ¬ Inverts x.pre x.event) h s)
    (hfit : NoWrap cfg h) : OwnersAbove s := by
  replace run : Run cfg _ h s := run.fits hfit .nat
  have hinit : (Abs.init cfg).Live := ⟨fun o w hm => (nomatch hm), fun t ht => (nomatch ht)⟩
  obtain ⟨a, H, -, -, hA⟩ := run.invariant (I := fun _ a => a.Ordered (fun _ => False) ∧ a.Live ∧ a.Above)
    (fun _ _ hP => hP.1.1) ⟨ordered_init, hinit, fun o d hm => (nomatch hm)⟩
    fun h s a e r a' H hI he hP hstep => ⟨(hstep.placed H hP.1.1 (absurd rfl) hI.1).elim fun _ hT => hT.ordered.of_rank,
      hstep.live H hP.1.1 hP.1.2 hI.2.1, hstep.above H hP.1.1 hP.1.2 hP.2 hI.1 hI.2.1 hI.2.2⟩
  intro o k d hm hk
  obtain ⟨w, ho, hle⟩ := hA o d (by rw [← H.rep.type, hm]) ((H.rep.pendAt_iff o d).mp ⟨k, hk⟩)
  refine ⟨w, ?_, ?_⟩
  · rw [H.rep.owner, ho]
  · rwa [H.rep.prio, H.rep.pdPrio]

/-- Task 5 waits for the mutex of task 4 and is raised by task 6, which waits for a mutex of task 5. -/
theorem chain_inverts : ∃ h s, CodeRun Cfg.repository (fun _ x => Plain Cfg.repository x) h s ∧ ¬ OwnersAbove s := by
  obtain ⟨h, s, run, -, hm, hd, ho, h4, h5⟩ := RunIn.of_play .word Cfg.repository (fun _ x => Plain Cfg.repository x) 40
    (fun _ s => (s.obj 0).type = .mutex ∧ s.pendAt 0 0 = some (5, 0) ∧ (s.obj 0).ownerTCBPtr = some 4 ∧
      (s.tcb 4).prio = 7 ∧ s.pdPrio (5, 0) = 5)
    [.newTask 4 8, .call (.mutexCreate (some 0)), .call (.mutexCreate (some 1)), .start,
      .call (.mutexPend (some 0) 0 optPendBlocking), .newTask 5 7, .call (.mutexPend (some 1) 0 optPendBlocking),
      .call (.mutexPend (some 0) 0 optPendBlocking), .newTask 6 5, .call (.mutexPend (some 1) 0 optPendBlocking)]
    (by decide +kernel)
  refine ⟨h, s, run, fun hA => ?_⟩
  obtain ⟨w, hw, hle⟩ := hA 0 0 (5, 0) hm hd
  rw [ho] at hw
  cases hw
  omega

/-- A task that owns a mutex and does not wait is raised. -/
theorem run_ownersAbove_raised : ∃ h s, CodeRun Cfg.repository
    (fun _ x => Plain Cfg.repository x ∧ ¬ Inverts x.pre x.event) h s ∧ NoWrap Cfg.repository h ∧
    s.pendAt 0 0 = some (5, 0) ∧ (s.tcb 4).prio = 6 ∧ OwnersAbove s := by
  obtain ⟨h, s, run, hfit, hd, h4⟩ := RunIn.of_play .word Cfg.repository
    (fun _ x => Plain Cfg.repository x ∧ ¬ PendInverts x.pre 0 optPendBlocking ∧ x.event ∈
      [.newTask 4 8, .newTask 5 6, .call (.mutexCreate (some 0)), .start, .call (.mutexPend (some 0) 0 optPendBlocking)]) 40
    (fun _ s => s.pendAt 0 0 = some (5, 0) ∧ (s.tcb 4).prio = 6)
    [.newTask 4 8, .call (.mutexCreate (some 0)), .start, .call (.mutexPend (some 0) 0 optPendBlocking), .newTask 5 6,
      .call (.mutexPend (some 0) 0 optPendBlocking)] (by decide +kernel)
  have run' : CodeRun Cfg.repository (fun _ x => Plain Cfg.repository x ∧ ¬ Inverts x.pre x.event) h s := by
    apply run.mono
    rintro _ x ⟨hp, hi, he⟩
    refine ⟨hp, ?_⟩
    simp only [List.mem_cons, List.not_mem_nil, or_false] at he
    rcases he with he | he | he | he | he <;> rw [he] <;> first | exact hi | exact id
  exact ⟨h, s, run', hfit, hd, h4, run_ownersAbove run' hfit⟩

end inversion

end UcosIII
