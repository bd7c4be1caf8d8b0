import Mathlib.Algebra.BigOperators.Group.Finset.Piecewise
import UcosIII.Runs.FlagWaits

namespace UcosIII

open Prog

variable {n : ℕ} {cfg : Cfg} {s s' : OS} {a b a' : Abs} {t : TcbId} {o : ObjId} {d : PdId} {e : Event} {r : Option Ret}
  {h : List Step}

section reach

def Event.postObj : Event → Option ObjId
  | .call (.semPost p _) | .call (.qPost p ..) | .call (.mutexPost p _) | .call (.flagPost p ..) => p
  | _ => none

theorem postLoop_reaches {p : Option PdId} {T : List TcbId} (hrep : Rep cfg s b) (hI : b.Sound cfg)
    (hT : ∀ d ∈ b.waiting o, d.1 ∈ T)
    (hp : ∀ d ∈ p, d.1 ∈ T ∧ (s.pendData d).tcbPtr = some d.1 ∧ (d ∈ b.waiting o ∨ ∀ o, d ∉ b.waiting o))
    (pVoid : Option ℕ) (msgSize ts cnt : ℕ) :
    wp n cfg (postLoop o pVoid msgSize ts cnt p) (fun _ s' => ∀ t ∉ T, s'.file t = s.file t) s := by
  induction cnt generalizing s b p with
  | zero => exact wp_pure.mpr fun _ _ => rfl
  | succ cnt ih =>
    rw [postLoop, wp_bind, wp_deref]
    rintro d rfl
    obtain ⟨hdT, htcb, hd⟩ := hp d rfl
    rw [wp_bind, wp_getPendData, wp_bind, wp_deref, htcb]
    rintro _ ⟨⟩
    rw [wp_bind]
    have hnext : ∀ x ∈ (s.pendData d).nextPtr, x ∈ b.waiting o := by
      intro x hx
      rcases hd with hd | hd
      · obtain ⟨A, B, hAB⟩ := List.append_of_mem hd
        have hlink : (s.pendData d).nextPtr = B.head? := ((hrep.pend.list o).dlist.links A d B hAB).1
        rw [hlink] at hx
        rw [hAB]
        exact List.mem_append_right A (List.mem_cons_of_mem d (List.mem_of_mem_head? hx))
      · have hnone : (s.pendData d).nextPtr = none := hrep.pend.off d hd
        rw [hnone] at hx
        cases hx
    refine ((post_spec hrep hI (by simp) pVoid msgSize ts).and (post_file (hrep.own hI d.1) pVoid msgSize ts)).mono ?_
    rintro _ s₁ ⟨h₁, hf₁⟩
    refine (ih h₁ (hI.wake d.1 .ok) (fun x hx => hT x ?_) fun x hx => ?_).mono ?_
    · rw [hI.waiting_wake] at hx
      exact (List.mem_filter.mp hx).1
    · have hmem := hnext x hx
      refine ⟨hT x hmem, ?_, ?_⟩
      · have he := h₁.entry x
        rw [Abs.entry_wake, hrep.entry] at he
        exact (congrArg Entry.tcb he).symm.trans (hrep.tcbPtr hI hmem)
      · by_cases hxd : x.1 = d.1
        · exact .inr fun o' => hI.off_wake d.1 hxd o'
        · refine .inl ?_
          rw [hI.waiting_wake]
          exact List.mem_filter.mpr ⟨hmem, by simpa using hxd⟩
    · intro _ s₂ h₂ t ht
      rw [h₂ t ht, hf₁, Function.update_of_ne]
      rintro rfl
      exact ht hdT

theorem Ready.postLoop_reaches (H : Ready cfg s a) (pVoid : Option ℕ) (msgSize ts cnt : ℕ) :
    wp n cfg (postLoop o pVoid msgSize ts cnt (s.obj o).pendList.headPtr)
      (fun _ s' => ∀ t ∉ s.pendTasks o, s'.file t = s.file t) s := by
  refine UcosIII.postLoop_reaches (b := a) H.rep H.sound (fun d hd => ?_) (fun d hd => ?_) pVoid msgSize ts cnt
  · rw [H.rep.pendTasks_eq H.sound]
    exact List.mem_map_of_mem hd
  · rw [H.rep.pendHead] at hd
    have hmem := List.mem_of_mem_head? hd
    refine ⟨?_, H.rep.tcbPtr H.sound hmem, .inl hmem⟩
    rw [H.rep.pendTasks_eq H.sound]
    exact List.mem_map_of_mem hmem

theorem Ready.osSemPost_reaches (H : Ready cfg s a) (opt : Opt) :
    wp n cfg (osSemPost (some o) opt) (fun _ s' => ∀ t ∉ s.pendTasks o, s'.file t = s.file t) s := by
  rw [osSemPost, wp_ite]
  refine ⟨fun _ => wp_pure.mpr fun _ _ => rfl, fun _ => ?_⟩
  rw [wp_bind, wp_getObj, wp_ite]
  refine ⟨fun _ => wp_pure.mpr fun _ _ => rfl, fun _ => ?_⟩
  rw [wp_bind, wp_tsGet, semPost, wp_bind, wp_getObj, wp_ite]
  constructor
  · intro _
    rw [wp_ite]
    refine ⟨fun _ => wp_pure.mpr fun _ _ => rfl, fun _ => ?_⟩
    rw [wp_bind, wp_modObj]
    exact wp_pure.mpr fun _ _ => rfl
  · intro _
    rw [wp_bind]
    refine (H.postLoop_reaches none 0 _ _).mono fun _ s₁ h₁ => ?_
    rw [wp_bind, wp_getObj, wp_bind]
    refine (keeps_file_schedOpt opt n cfg s₁).mono fun _ s₂ h₂ => wp_pure.mpr fun t ht => ?_
    rw [h₂, h₁ t ht]

theorem Ready.osQPost_reaches (H : Ready cfg s a) (pVoid : Option ℕ) (msgSize : ℕ) (opt : Opt) :
    wp n cfg (osQPost (some o) pVoid msgSize opt) (fun _ s' => ∀ t ∉ s.pendTasks o, s'.file t = s.file t) s := by
  rw [osQPost, wp_ite]
  refine ⟨fun _ => wp_pure.mpr fun _ _ => rfl, fun _ => ?_⟩
  rw [wp_bind, wp_getObj, wp_ite]
  refine ⟨fun _ => wp_pure.mpr fun _ _ => rfl, fun _ => ?_⟩
  rw [wp_bind, wp_tsGet, qPost, wp_bind, wp_getObj, wp_ite]
  constructor
  · intro _
    rw [wp_bind]
    refine ((keeps_noMsgs_msgQPut _ pVoid msgSize _ _).comp OS.file n cfg s).mono fun _ s₁ h₁ => ?_
    have hf₁ : s₁.file = s.file := h₁
    rw [wp_bind, wp_modObj]
    refine wp_pure.mpr fun t _ => ?_
    rw [← hf₁]
    rfl
  · intro _
    rw [wp_bind]
    refine (H.postLoop_reaches pVoid msgSize _ _).mono fun _ s₁ h₁ => ?_
    rw [wp_bind]
    refine (keeps_file_schedOpt opt n cfg s₁).mono fun _ s₂ h₂ => wp_pure.mpr fun t ht => ?_
    rw [h₂, h₁ t ht]

theorem Ready.osFlagPost_reaches (H : Ready cfg s a) (flags : Flags) (opt : Opt) :
    wp n cfg (osFlagPost (some o) flags opt) (fun _ s' => ∀ t ∉ s.pendTasks o, ∃ k,
        s'.file t = { s.file t with cont := k }) s := by
  by_cases hopt : flagPostOptValid opt = true
  · by_cases ho : (s.obj o).type = .flag
    · refine (osFlagPost_walk H hopt ho).mono ?_
      rintro _ s' ⟨-, -, -, -, -, hfile⟩ t ht
      obtain ⟨k, hk⟩ := hfile t
      rw [H.rep.pendTasks_eq H.sound] at ht
      rw [if_neg ht] at hk
      exact ⟨k, hk⟩
    · rw [osFlagPost, if_neg (by simp [hopt]), wp_bind, wp_getObj, if_pos ho]
      exact wp_pure.mpr fun t _ => ⟨s.cont t, rfl⟩
  · rw [osFlagPost, if_pos (by simpa using hopt)]
    exact wp_pure.mpr fun t _ => ⟨s.cont t, rfl⟩

def OS.pends (s : OS) : (ObjId → PendList) × (PdId → PendData) := (s.pendList, s.pendData)

theorem keeps_pends_mutexRestore (o : ObjId) (t : TcbId) : Keeps OS.pends (mutexRestore o t) := by
  refine keeps_bind (keeps_getObj o) fun b => keeps_bind (keeps_getTcb t) fun _ => keeps_ite ?_ (keeps_pure _)
  refine keeps_bind ?_ fun _ => keeps_modify fun _ => rfl
  refine keeps_bind ((keeps_rdyListRemove t).comp OS.pends) fun _ => keeps_bind (keeps_modify fun _ => rfl) fun _ => ?_
  refine keeps_bind ((keeps_prioInsert _).comp OS.pends) fun _ => ?_
  exact (keeps_rdyListInsertTail t).comp OS.pends

theorem Ready.osMutexPost_reaches (H : Ready cfg s a) (opt : Opt) :
    wp n cfg (osMutexPost (some o) opt) (fun _ s' => ∀ t ∉ s.pendTasks o, s'.file t = s.file t) s := by
  have hrestore (t : TcbId) : Keeps OS.file (mutexRestore o t) := by
    refine keeps_bind (keeps_getObj o) fun b => keeps_bind (keeps_getTcb t) fun _ => keeps_ite ?_ (keeps_pure _)
    exact keeps_bind (keeps_file_rdyChangePrio t _ false) fun _ => keeps_modify fun _ => rfl
  have hset {s₁ : OS} {f : Obj → Obj} (hf : ∀ b, (f b).pendList = b.pendList) : (s₁.modObj o f).pends = s₁.pends := by
    unfold OS.pends
    refine Prod.ext (funext fun x => ?_) rfl
    change ((s₁.modObj o f).obj x).pendList = (s₁.obj x).pendList
    rw [OS.modObj_obj]
    split
    · rename_i hx
      rw [hf, hx]
    · rfl
  rw [osMutexPost, wp_bind, wp_get, wp_ite]
  refine ⟨fun _ => wp_pure.mpr fun _ _ => rfl, fun _ => ?_⟩
  dsimp only
  rw [wp_ite]
  refine ⟨fun _ => wp_pure.mpr fun _ _ => rfl, fun _ => ?_⟩
  rw [wp_bind, wp_getObj, wp_ite]
  refine ⟨fun _ => wp_pure.mpr fun _ _ => rfl, fun _ => ?_⟩
  rw [wp_bind, wp_getCur]
  intro c _
  rw [wp_ite]
  refine ⟨fun _ => wp_pure.mpr fun _ _ => rfl, fun _ => ?_⟩
  rw [wp_bind, wp_modObj, wp_bind, wp_getObj, wp_ite]
  refine ⟨fun _ => wp_pure.mpr fun _ _ => rfl, fun _ => ?_⟩
  rw [wp_ite]
  constructor
  · intro _
    rw [wp_bind, wp_modObj]
    exact wp_pure.mpr fun _ _ => rfl
  · intro _
    rw [wp_bind]
    refine ((hrestore c n cfg _).and (keeps_pends_mutexRestore o c n cfg _)).mono ?_
    rintro _ s₁ ⟨hf₁, hp₁⟩
    have hf₁' : s₁.file = s.file := hf₁
    rw [hset (by intro b; rfl)] at hp₁
    have hhead : (s₁.obj o).pendList.headPtr = (a.waiting o).head? := by
      rw [← H.rep.pendHead]
      exact congrArg PendList.headPtr (congrFun (congrArg Prod.fst hp₁) o)
    rw [wp_bind, mutexHandOff, wp_bind, wp_getObj, wp_bind, wp_deref, hhead]
    intro d hd
    have hmem := List.mem_of_mem_head? hd
    have hdata : s₁.pendData = s.pendData := congrArg Prod.snd hp₁
    have htcb : (s₁.pendData d).tcbPtr = some d.1 := by
      rw [hdata]
      exact H.rep.tcbPtr H.sound hmem
    rw [wp_bind, wp_getPendData, wp_bind, wp_deref, htcb]
    rintro _ ⟨⟩
    rw [wp_bind, wp_getTcb, wp_bind]
    refine (keeps_file_modObj o _ n cfg s₁).mono fun _ s₂ h₂ => ?_
    have hf₂ : s₂.file = s.file := h₂.trans hf₁'
    refine (post_file (by rw [hf₂]; exact H.rep.own H.sound d.1) none 0 _).mono fun _ s₃ h₃ => ?_
    rw [wp_bind]
    refine (keeps_file_schedOpt opt n cfg s₃).mono fun _ s₄ h₄ => wp_pure.mpr fun t ht => ?_
    rw [h₄, h₃, Function.update_of_ne, hf₂]
    rintro rfl
    apply ht
    rw [H.rep.pendTasks_eq H.sound]
    exact List.mem_map_of_mem hmem

theorem Ready.unreached (H : Ready cfg s a) (hx : Runs cfg e.exec s r s') (he : e.postObj = some o) (ht : t ∉ s.pendTasks o) :
    ∃ k, s'.file t = { s.file t with cont := k } := by
  unfold Event.postObj at he
  split at he
  · subst he
    refine ⟨s.cont t, ?_⟩
    exact hx.wp (Q := fun _ s' => s'.file t = s.file t) fun n =>
      wp_always.mpr ((H.osSemPost_reaches _).mono fun _ _ h' => h' t ht)
  · subst he
    refine ⟨s.cont t, ?_⟩
    exact hx.wp (Q := fun _ s' => s'.file t = s.file t) fun n =>
      wp_errOnly.mpr ((H.osQPost_reaches _ _ _).mono fun _ _ h' => h' t ht)
  · subst he
    refine ⟨s.cont t, ?_⟩
    exact hx.wp (Q := fun _ s' => s'.file t = s.file t) fun n =>
      wp_errOnly.mpr ((H.osMutexPost_reaches _).mono fun _ _ h' => h' t ht)
  · subst he
    exact hx.wp (Q := fun _ s' => ∃ k, s'.file t = { s.file t with cont := k }) fun n =>
      (H.osFlagPost_reaches _ _).mono fun _ _ h' => h' t ht
  · cases he

end reach

section waits

def File.On (f : File) (o : ObjId) : Prop := f.state.isPend = true ∧ ∃ d ∈ f.table, (f.row d.2).1 = some o

theorem Ready.mem_pendTasks (H : Ready cfg s a) : t ∈ s.pendTasks o ↔ (s.file t).On o := by
  have htab : (s.file t).table = (a.task t).table := by
    rw [H.rep.task]
    rfl
  rw [H.rep.pendTasks_eq H.sound, List.mem_map]
  constructor
  · rintro ⟨d, hd, rfl⟩
    obtain ⟨hmem, hobj⟩ := (H.sound.wait.mem_iff o d).mp hd
    refine ⟨?_, d, by rwa [htab], ?_⟩
    · exact (congrArg TaskState.isPend (H.rep.state d.1)).trans (H.sound.isPend_of_mem hd)
    · rw [H.rep.entry] at hobj
      exact hobj
  · rintro ⟨-, d, hd, hobj⟩
    rw [htab] at hd
    obtain ⟨rfl, -⟩ := H.sound.wait.own t d hd
    refine ⟨d, (H.sound.wait.mem_iff o d).mpr ⟨hd, ?_⟩, rfl⟩
    rw [H.rep.entry]
    exact hobj

theorem Ready.accepts (H : Ready cfg s a) (ht : t ∈ s.pendTasks o) : (s.file t).pendOn.accepts (s.obj o).type = true := by
  rw [H.rep.pendTasks_eq H.sound] at ht
  obtain ⟨d, hd, rfl⟩ := List.mem_map.mp ht
  have hacc := H.sound.accepts hd
  rwa [← H.rep.type, ← H.rep.pendOn] at hacc

theorem Ready.on_sem (H : Ready cfg s a) (ho : (s.obj o).type = .sem) (ht : t ∈ s.pendTasks o) :
    (s.file t).pendOn = .sem ∨ (s.file t).pendOn = .multi := by
  have hacc := H.accepts ht
  rw [ho] at hacc
  cases hk : (s.file t).pendOn <;> simp [hk, PendOn.accepts] at hacc ⊢

theorem Ready.on_one (H : Ready cfg s a) {o' : ObjId} (hk : (s.file t).pendOn ≠ .multi) (ht : t ∈ s.pendTasks o)
    (ht' : t ∈ s.pendTasks o') : o' = o := by
  obtain ⟨-, d, hd, ho⟩ := H.mem_pendTasks.mp ht
  obtain ⟨-, d', hd', ho'⟩ := H.mem_pendTasks.mp ht'
  have hsingle (x : PdId) (hx : x ∈ (s.file t).table) : x = (t, 0) := by
    refine H.sound.wait.single t ?_ x ?_
    · rw [← H.rep.pendOn]
      exact hk
    · rw [H.rep.task]
      exact hx
  rw [hsingle d hd] at ho
  rw [hsingle d' hd'] at ho'
  exact Option.some.inj (ho'.symm.trans ho)

def OS.Unreported (s : OS) : Prop := ∀ t, (s.file t).state.isPend = true → (s.file t).pendOn = .multi →
  ∀ d ∈ (s.file t).table, ((s.file t).row d.2).2.rdyObj = none

theorem Call.waitsFor_ne_multi {c : Call} {p : Option ObjId} : c.waitsFor ≠ some (.multi, p) := by
  unfold Call.waitsFor
  split <;> simp

theorem OS.Unreported.step (hU : s.Unreported) (H : Ready cfg s a) (hF : Filed s e r s') : s'.Unreported := by
  intro t hp hk d hd
  rcases hF t with hsame | hc
  · rw [hsame] at hp hk hd ⊢
    exact hU t hp hk d hd
  by_cases hp₀ : (s.file t).state.isPend = true
  · obtain ⟨hon, htab, hrow, -⟩ := hc.sameWait (fun hcur => H.not_pend hcur) hp₀ hp
    rw [hrow]
    exact hU t hp₀ (hon ▸ hk) d (htab ▸ hd)
  · obtain ⟨-, -, ⟨c, kind, p, -, hc, hkind, -⟩ | ⟨i, objs, timeout, opt, timed, -, hf⟩⟩ := hc.newWait (by simpa using hp₀) hp
    · rw [hk] at hkind
      subst hkind
      exact absurd hc Call.waitsFor_ne_multi
    · rw [hf] at hd ⊢
      obtain ⟨h1, h2, h3⟩ := mem_entriesFrom.mp hd
      simp only [File.waitsMulti]
      rw [dif_pos ⟨h2, by omega⟩]

theorem Ready.on_step (H : Ready cfg s a) (hF : Filed s e r s') (hon : (s'.file t).On o) : (s.file t).On o ∨
    r = none ∧ ((∃ c kind, e = .call c ∧ c.waitsFor = some (kind, some o) ∧ (s'.file t).pendOn = kind) ∨
      ∃ i objs timeout opt, e = .call (.pendMulti (some i) objs timeout opt) ∧ some o ∈ objs) := by
  obtain ⟨hp, d, hd, hrow⟩ := hon
  rcases hF t with hsame | hc
  · rw [hsame] at hp hd hrow
    exact .inl ⟨hp, d, hd, hrow⟩
  by_cases hp₀ : (s.file t).state.isPend = true
  · obtain ⟨-, htab, hrow', -⟩ := hc.sameWait (fun hcur => H.not_pend hcur) hp₀ hp
    rw [htab] at hd
    rw [hrow'] at hrow
    exact .inl ⟨hp₀, d, hd, hrow⟩
  · right
    obtain ⟨hr, -, ⟨c, kind, p, he, hc, hkind, htab, hrow'⟩ | ⟨i, objs, timeout, opt, timed, he, hf⟩⟩ :=
      hc.newWait (by simpa using hp₀) hp
    · cases p with
      | none =>
        rw [htab, if_pos rfl] at hd
        cases hd
      | some o' =>
        rw [htab, if_neg (by simp), List.mem_singleton] at hd
        subst hd
        rw [hrow' o' rfl] at hrow
        cases hrow
        exact ⟨hr, .inl ⟨c, kind, he, hc, hkind⟩⟩
    · refine ⟨hr, .inr ⟨i, objs, timeout, opt, he, ?_⟩⟩
      rw [hf] at hd hrow
      obtain ⟨h1, h2, h3⟩ := mem_entriesFrom.mp hd
      dsimp only at h2 h3
      simp only [File.waitsMulti] at hrow
      rw [dif_pos ⟨h2, by omega⟩] at hrow
      exact hrow ▸ List.get_mem objs _

end waits

def OS.gained (s s' : OS) (o : ObjId) (t : TcbId) : ℕ :=
  if (s'.tcb t).taskState.isPend = false ∧ (s'.tcb t).taskState ≠ .del ∧ (s'.tcb t).pendStatus = .ok then
    if (s.tcb t).pendOn = .multi then (s.tcb t).table.countP fun d => (s'.pendData d).rdyObjPtr = some o else 1
  else 0

def Event.takesNow (s : OS) (r : Option Ret) (s' : OS) (o : ObjId) : Event → ℕ
  | .call (.semPend (some o') ..) => if o' = o ∧ granted r = true then 1 else 0
  | .call (.pendMulti (some i) objs ..) =>
    if granted r = true then s.tcbCurPtr.elim 0 fun t => s'.reports (t, i) objs.length o else 0
  | _ => 0

/-- The counts of `o` that are taken in a step, by the calling task and by tasks that waited. -/
def Event.takes (s : OS) (r : Option Ret) (s' : OS) (o : ObjId) (e : Event) : ℕ :=
  e.takesNow s r s' o + ∑ t ∈ (s.pendTasks o).toFinset, s.gained s' o t

def Event.posts (r : Option Ret) (o : ObjId) : Event → ℕ
  | .call (.semPost (some o') _) => if o' = o ∧ granted r = true then 1 else 0
  | _ => 0

/-- The event is a post to all the tasks that wait on a semaphore. -/
def Event.postsAll : Event → Bool
  | .call (.semPost _ opt) => opt &&& optPostAll ≠ 0
  | _ => false

section gains

theorem OS.gained_of_pend (h : (s'.file t).state.isPend = true) : s.gained s' o t = 0 := by
  have h' : (s'.tcb t).taskState.isPend = true := h
  rw [OS.gained, if_neg (by simp [h'])]

theorem File.reports_posted {f : File} {o' : ObjId} {m : Mail} (hk : f.pendOn = .multi) (hnd : (f.table.map Prod.snd).Nodup)
    (hnone : ∀ d ∈ f.table, (f.row d.2).2.rdyObj = none) (hmem : ∃ d ∈ f.table, (f.row d.2).1 = some o') :
    (f.table.countP fun d => ((f.posted (some o') m).row d.2).2.rdyObj = some o) = if o' = o then 1 else 0 := by
  have hfind : (f.table.find? fun d => (f.row d.2).1 = some o').isSome := by
    obtain ⟨d, hd, hobj⟩ := hmem
    rw [List.find?_isSome]
    exact ⟨d, hd, decide_eq_true hobj⟩
  obtain ⟨x, hx⟩ := Option.isSome_iff_exists.mp hfind
  have hfirst : f.firstRow (some o') = some x.2 := by
    rw [File.firstRow, hx]
    rfl
  have hrow (j : ℕ) : (f.posted (some o') m).row j =
      Function.update f.row x.2 ((f.row x.2).1, ⟨some o', m.msgPtr, m.msgSize, m.ts⟩) j := by
    rw [File.posted, if_pos hk, File.mark, hfirst]
    rfl
  have hpred : ∀ d ∈ f.table, (decide (((f.posted (some o') m).row d.2).2.rdyObj = some o) = true ↔
      (decide (d.2 = x.2 ∧ o' = o) = true)) := by
    intro d hd
    rw [hrow, Function.update_apply]
    by_cases hdx : d.2 = x.2
    · simp [hdx]
    · simp [hdx, hnone d hd]
  rw [List.countP_congr hpred]
  by_cases ho : o' = o
  · rw [if_pos ho]
    have hcount : (f.table.countP fun d => d.2 = x.2 ∧ o' = o) = (f.table.map Prod.snd).count x.2 := by
      rw [List.count, List.countP_map]
      apply List.countP_congr
      intro d _
      simp [ho]
    rw [hcount]
    exact List.count_eq_one_of_mem hnd (List.mem_map_of_mem (List.mem_of_find?_eq_some hx))
  · rw [if_neg ho, List.countP_eq_zero]
    simp [ho]

theorem Ready.gained_posted (H : Ready cfg s a) (hU : s.Unreported) {o' : ObjId} {m : Mail} (ht : t ∈ s.pendTasks o)
    (ht' : t ∈ s.pendTasks o') (hf : s'.file t = (s.file t).posted (some o') m) :
    s.gained s' o t = if o' = o then 1 else 0 := by
  obtain ⟨hp, d, hd, -⟩ := H.mem_pendTasks.mp ht
  have hnp : (s'.tcb t).taskState.isPend = false := (congrArg (fun f : File => f.state.isPend) hf).trans
    (File.isPend_posted _ _ _)
  obtain ⟨tbl, row, x, hshape⟩ := (s.file t).posted_shape (some o') m
  have hwoken : (s'.tcb t).taskState = (s.file t).state.woken := (congrArg File.state (hf.trans hshape) :)
  have hdel : (s'.tcb t).taskState ≠ .del := by
    rw [hwoken, TaskState.woken]
    split <;> simp
  have hok : (s'.tcb t).pendStatus = .ok := (congrArg File.pendStatus (hf.trans hshape) :)
  rw [OS.gained, if_pos ⟨hnp, hdel, hok⟩]
  by_cases hk : (s.file t).pendOn = .multi
  · have hown := H.rep.own H.sound t
    have hrows : ((s.tcb t).table.countP fun d => (s'.pendData d).rdyObjPtr = some o) =
        (s.file t).table.countP fun d => (((s.file t).posted (some o') m).row d.2).2.rdyObj = some o := by
      apply List.countP_congr
      intro d hd
      obtain ⟨t', j⟩ := d
      obtain rfl : t' = t := hown (t', j) hd
      rw [← hf]
      rfl
    have hnd : ((s.file t).table.map Prod.snd).Nodup := by
      have htab := H.rep.nodup_table t
      rw [H.rep.task] at htab
      refine (List.nodup_map_iff_inj_on htab).mpr fun x hx y hy hxy => ?_
      exact Prod.ext ((hown x hx).trans (hown y hy).symm) hxy
    rw [if_pos (show (s.tcb t).pendOn = .multi from hk), hrows]
    exact File.reports_posted hk hnd (hU t hp hk) (H.mem_pendTasks.mp ht').2
  · rw [if_neg (show ¬ (s.tcb t).pendOn = .multi from hk), if_pos (H.on_one hk ht ht')]

def Event.postKind : Event → ObjType
  | .call (.semPost ..) => .sem
  | .call (.qPost ..) => .q
  | .call (.mutexPost ..) => .mutex
  | .call (.flagPost ..) => .flag
  | _ => .none

theorem Event.post_refused (hx : Runs cfg e.exec s r s') (he : e.postObj = some o) (hk : (s.obj o).type ≠ e.postKind) :
    s'.file = s.file := by
  unfold Event.postObj at he
  split at he
  · subst he
    have hk' : (s.obj o).type ≠ .sem := hk
    refine hx.wp (Q := fun _ s' => s'.file = s.file) fun n => wp_always.mpr ?_
    rw [osSemPost, wp_ite]
    refine ⟨fun _ => wp_pure.mpr rfl, fun _ => ?_⟩
    rw [wp_bind, wp_getObj, if_pos hk']
    exact wp_pure.mpr rfl
  · subst he
    have hk' : (s.obj o).type ≠ .q := hk
    refine hx.wp (Q := fun _ s' => s'.file = s.file) fun n => wp_errOnly.mpr ?_
    rw [osQPost, wp_ite]
    refine ⟨fun _ => wp_pure.mpr rfl, fun _ => ?_⟩
    rw [wp_bind, wp_getObj, if_pos hk']
    exact wp_pure.mpr rfl
  · subst he
    have hk' : (s.obj o).type ≠ .mutex := hk
    refine hx.wp (Q := fun _ s' => s'.file = s.file) fun n => wp_errOnly.mpr ?_
    rw [osMutexPost, wp_bind, wp_get, wp_ite]
    refine ⟨fun _ => wp_pure.mpr rfl, fun _ => ?_⟩
    dsimp only
    rw [wp_ite]
    refine ⟨fun _ => wp_pure.mpr rfl, fun _ => ?_⟩
    rw [wp_bind, wp_getObj, if_pos hk']
    exact wp_pure.mpr rfl
  · rename_i flags opt
    subst he
    have hk' : (s.obj o).type ≠ .flag := hk
    refine hx.wp (Q := fun _ s' => s'.file = s.file) fun n => ?_
    rw [Event.exec, Call.exec, osFlagPost, wp_ite]
    refine ⟨fun _ => wp_pure.mpr rfl, fun _ => ?_⟩
    rw [wp_bind, wp_getObj, if_pos hk']
    exact wp_pure.mpr rfl
  · cases he

theorem Ready.osSemPost_hands (H : Ready cfg s a) {opt : Opt} (hopt : opt &&& optPostAll = 0) :
    wp n cfg (osSemPost (some o) opt) (fun x s' => s'.file = if x.err = .none then (a.waiting o).head?.elim s.file fun d =>
      Function.update s.file d.1 ((s.file d.1).posted (some o) ⟨none, 0, s.tsNow⟩) else s.file) s := by
  rw [osSemPost, wp_ite]
  refine ⟨fun _ => wp_pure.mpr rfl, fun _ => ?_⟩
  rw [wp_bind, wp_getObj, wp_ite]
  refine ⟨fun _ => wp_pure.mpr rfl, fun _ => ?_⟩
  rw [wp_bind, wp_tsGet, semPost, wp_bind, wp_getObj, wp_ite]
  constructor
  · intro h0
    have hnil : a.waiting o = [] := (H.rep.pend.list o).nbr_eq_zero.mp h0
    rw [wp_ite]
    refine ⟨fun _ => wp_pure.mpr rfl, fun _ => ?_⟩
    rw [wp_bind, wp_modObj]
    refine wp_pure.mpr ?_
    rw [if_pos rfl, hnil]
    rfl
  · intro hne
    rw [wp_bind, if_neg (by simpa using hopt), postLoop, wp_bind, wp_deref, H.rep.pendHead]
    intro d hd
    have hmem := List.mem_of_mem_head? hd
    have hp : (s.file d.1).state.isPend = true :=
      (congrArg TaskState.isPend (H.rep.state d.1)).trans (H.sound.isPend_of_mem hmem)
    rw [wp_bind, wp_getPendData, wp_bind, wp_deref, H.rep.tcbPtr H.sound hmem]
    rintro _ ⟨⟩
    rw [wp_bind]
    refine (post_file (H.rep.own H.sound d.1) none 0 s.tsNow).mono fun _ s₁ h₁ => wp_pure.mpr ?_
    rw [wp_bind, wp_getObj, wp_bind]
    refine (keeps_file_schedOpt opt n cfg s₁).mono fun _ s₂ h₂ => wp_pure.mpr ?_
    rw [h₂, h₁, if_pos hp, if_pos rfl, hd]
    rfl

theorem Event.posts_of_ne (h : ∀ opt, e ≠ .call (.semPost (some o) opt)) : e.posts r o = 0 := by
  unfold Event.posts
  split
  · rename_i o' opt
    refine if_neg fun hc => ?_
    obtain ⟨rfl, -⟩ := hc
    exact h opt rfl
  · rfl

theorem Ready.gained_other (H : Ready cfg s a) (hU : s.Unreported) (ho : (s.obj o).type = .sem) (ht : t ∈ s.pendTasks o)
    {o' : ObjId} (ht' : t ∈ s.pendTasks o') (hF : Filed s e r s') (hkind : (s.obj o').type = e.postKind)
    (ho' : e.postObj = some o') (hsem : ¬ ∃ opt, e = .call (.semPost (some o') opt)) : s.gained s' o t = 0 := by
  have hp : (s.file t).state.isPend = true := (H.mem_pendTasks.mp ht).1
  have hon := H.on_sem ho ht
  have hacc := H.accepts ht'
  unfold Event.postObj at ho'
  split at ho'
  · subst ho'
    exact absurd ⟨_, rfl⟩ hsem
  · subst ho'
    have hq : (s.obj o').type = .q := hkind
    rcases hF t with hsame | hc
    · exact OS.gained_of_pend (by rw [hsame]; exact hp)
    · rw [H.gained_posted hU ht ht' hc.2, if_neg]
      rintro rfl
      rw [ho] at hq
      cases hq
  · have hm : (s.obj o').type = .mutex := hkind
    rw [hm] at hacc
    rcases hon with hon | hon <;> rw [hon] at hacc <;> cases hacc
  · have hf : (s.obj o').type = .flag := hkind
    rw [hf] at hacc
    rcases hon with hon | hon <;> rw [hon] at hacc <;> cases hacc
  · cases ho'

theorem Ready.ended_ok (H : Ready cfg s a) (hp : (s.file t).state.isPend = true) (he : Enabled s e)
    (hx : Runs cfg e.exec s r s') (hF : Filed s e r s') (hend : (s'.file t).state.isPend = false)
    (hdel : (s'.file t).state ≠ .del) (hok : (s'.file t).pendStatus = .ok) :
    (∃ o, e.postObj = some o ∧ t ∈ s.pendTasks o) ∨ (s.file t).pendOn = .taskQ ∨
      (s.file t).pendOn = .taskSem ∧ e.Signals s t := by
  have hold {f' : File} (hf : s'.file t = f') (hst : f'.state.isPend = (s.file t).state.isPend) : False := by
    rw [hf, hst, hp] at hend
    cases hend
  have hpost {o : ObjId} (ho : e.postObj = some o) : ∃ o, e.postObj = some o ∧ t ∈ s.pendTasks o := by
    by_cases ht : t ∈ s.pendTasks o
    · exact ⟨o, ho, ht⟩
    · obtain ⟨k, hk⟩ := H.unreached hx ho ht
      exact (hold hk rfl).elim
  rcases hF t with hsame | hc
  · exact (hold hsame rfl).elim
  have hidle (hcur : s.tcbCurPtr = some t) : False := by
    rw [H.not_pend hcur] at hp
    cases hp
  have hsignal (hs : e.Signals s t) (hf : s'.file t = (s.file t).signalled s.tsNow) :
      (s.file t).pendOn = .taskSem ∧ e.Signals s t := by
    rcases (s.file t).signalled_shape s.tsNow with ⟨-, hk, -⟩ | ⟨-, c, hs⟩
    · exact ⟨hk, hs⟩
    · exact (hold (hf.trans hs) rfl).elim
  have hturn := hc.turn
  obtain ⟨f', hf⟩ : ∃ f', s'.file t = f' := ⟨_, rfl⟩
  rw [hf] at hturn
  cases hturn with
  | fresh he' ht' =>
    subst he'
    have hdel : (s.file t).state = .del := he.1.1 t ht'
    rw [hdel] at hp
    cases hp
  | erased => exact absurd (by rw [hf]; rfl) hdel
  | suspended =>
    obtain ⟨st, c, hs, hst, -⟩ := (s.file t).suspended_shape
    exact (hold (hf.trans hs) hst).elim
  | resumed =>
    obtain ⟨st, c, hs, hst, -⟩ := (s.file t).resumed_shape
    exact (hold (hf.trans hs) hst).elim
  | semSet | msgs => exact (hold hf rfl).elim
  | signalled hs => exact .inr (.inr (hsignal hs hf))
  | posted he' _ _ hnone =>
    unfold Event.isPost at he'
    split at he'
    · rename_i p _
      cases p with
      | none => exact hc.elim
      | some o' => exact .inl (hpost rfl)
    · rename_i p _ _ _
      cases p with
      | none => exact hc.elim
      | some o' => exact .inl (hpost rfl)
    · rename_i p _
      cases p with
      | none => exact hc.elim
      | some o' => exact .inl (hpost rfl)
    · rename_i p _ _
      cases p with
      | none => exact hc.elim
      | some o' => exact .inl (hpost rfl)
    · exact .inr (.inr (hsignal ⟨hc.1, hc.2.1⟩ hc.2.2))
    · rcases hc with ⟨-, ⟨-, hk, -⟩ | ⟨-, k, hs⟩⟩
      · exact .inr (.inl hk)
      · exact (hold hs rfl).elim
    · exact .inr (.inr (hsignal hc.1 hc.2))
    · cases he'
  | flagged he' =>
    subst he'
    exact .inl (hpost rfl)
  | flagPosts he' =>
    subst he'
    exact .inl (hpost rfl)
  | aborted =>
    obtain ⟨tbl, row, x, hs⟩ := (s.file t).aborted_shape _ s.tsNow
    rw [hf, hs] at hok
    cases hok
  | expired =>
    rcases (s.file t).expired_shape s.tsNow with ⟨-, hs⟩ | ⟨st, hs, hst, -⟩
    · rw [hf, hs] at hok
      cases hok
    · exact (hold (hf.trans hs) hst).elim
  | delayed _ hcur | semTaken _ hcur | waits _ hcur | waitsMulti _ hcur | rows _ hcur | flagsRdy _ hcur | finished _ hcur =>
    exact (hidle hcur).elim

theorem Ready.gained_eq (H : Ready cfg s a) (hU : s.Unreported) (ho : (s.obj o).type = .sem) (ht : t ∈ s.pendTasks o)
    (he : Enabled s e) (hx : Runs cfg e.exec s r s') (hF : Filed s e r s') (hone : e.postsAll = false) :
    s.gained s' o t = if e.posts r o = 1 ∧ (s.pendTasks o).head? = some t then 1 else 0 := by
  have hp : (s.file t).state.isPend = true := (H.mem_pendTasks.mp ht).1
  have hon := H.on_sem ho ht
  have hsame (hf : (s'.file t).state = (s.file t).state) : s.gained s' o t = 0 := by
    apply OS.gained_of_pend
    rw [hf]
    exact hp
  by_cases hpost : ∃ o', e.postObj = some o'
  · obtain ⟨o', ho'⟩ := hpost
    by_cases hsem : ∃ opt, e = .call (.semPost (some o') opt)
    · obtain ⟨opt, rfl⟩ := hsem
      have hopt : opt &&& optPostAll = 0 := by simpa [Event.postsAll] using hone
      have hhands : ∀ x ∈ r, s'.file = if x.err = .none then (a.waiting o').head?.elim s.file fun d =>
          Function.update s.file d.1 ((s.file d.1).posted (some o') ⟨none, 0, s.tsNow⟩) else s.file := by
        refine hx.wp (Q := fun r s' => ∀ x ∈ r, s'.file = if x.err = .none then (a.waiting o').head?.elim s.file fun d =>
          Function.update s.file d.1 ((s.file d.1).posted (some o') ⟨none, 0, s.tsNow⟩) else s.file) fun n => ?_
        exact wp_always.mpr ((H.osSemPost_hands hopt).mono fun x s' h' => by simpa using h')
      cases r with
      | none => exact absurd (hx.wp (Q := fun r _ => r ≠ none) fun n => wp_always.mpr fun _ _ _ => by simp) (by simp)
      | some x =>
        have hf := hhands x rfl
        have hhead : (s.pendTasks o').head? = (a.waiting o').head?.map Prod.fst := by
          rw [H.rep.pendTasks_eq H.sound, List.head?_map]
        by_cases hx0 : x.err = .none
        · rw [if_pos hx0] at hf
          cases hd : (a.waiting o').head? with
          | none =>
            rw [hd] at hf hhead
            rw [hsame (by rw [hf]; rfl), if_neg]
            rintro ⟨hpo, hh⟩
            have hoo : o' = o := by
              by_contra hne
              simp [Event.posts, hne] at hpo
            subst hoo
            rw [hhead] at hh
            cases hh
          | some d =>
            rw [hd] at hf hhead
            by_cases htd : t = d.1
            · subst htd
              have ht' : d.1 ∈ s.pendTasks o' := List.mem_of_mem_head? hhead
              rw [H.gained_posted hU ht ht' (by rw [hf]; exact Function.update_self ..)]
              by_cases hoo : o' = o
              · subst hoo
                rw [if_pos rfl, if_pos ⟨by simp [Event.posts, granted, hx0], hhead⟩]
              · rw [if_neg hoo, if_neg]
                rintro ⟨hpo, -⟩
                simp [Event.posts, hoo] at hpo
            · rw [hsame (by rw [hf]; exact congrArg File.state (Function.update_of_ne htd _ _)), if_neg]
              rintro ⟨hpo, hh⟩
              have hoo : o' = o := by
                by_contra hne
                simp [Event.posts, hne] at hpo
              subst hoo
              rw [hhead] at hh
              exact htd (Option.some.inj hh).symm
        · rw [if_neg hx0] at hf
          rw [hsame (by rw [hf]), if_neg]
          rintro ⟨hpo, -⟩
          simp [Event.posts, granted, hx0] at hpo
    · rw [Event.posts_of_ne (fun opt he => hsem ⟨opt, ?_⟩), if_neg (by simp)]
      · by_cases hkind : (s.obj o').type = e.postKind
        · by_cases ht' : t ∈ s.pendTasks o'
          · exact H.gained_other hU ho ht ht' hF hkind ho' hsem
          · obtain ⟨k, hk⟩ := H.unreached hx ho' ht'
            exact hsame (by rw [hk])
        · exact hsame (by rw [Event.post_refused hx ho' hkind])
      · subst he
        cases ho'
        rfl
  · rw [Event.posts_of_ne (fun opt he => hpost ⟨o, by rw [he]; rfl⟩), if_neg (by simp)]
    rw [OS.gained, if_neg]
    rintro ⟨hend, hdel, hok⟩
    rcases H.ended_ok hp he hx hF hend hdel hok with ⟨o', ho', -⟩ | hk | ⟨hk, -⟩
    · exact hpost ⟨o', ho'⟩
    · rcases hon with hon | hon <;> rw [hon] at hk <;> cases hk
    · rcases hon with hon | hon <;> rw [hon] at hk <;> cases hk

end gains

end UcosIII
