import UcosIII.Abstract.Stock
import UcosIII.Runs.Waking

namespace UcosIII

open Prog

variable {n : ℕ} {cfg : Cfg} {s s' : OS} {a b : Abs} {t : TcbId} {o : ObjId} {e : Event} {r : Option Ret} {h : List Step}
  {flags g : Flags} {opt : Opt}

def TCB.Satisfied (c : TCB) (g : Flags) : Prop :=
  c.flagsOpt &&& optPendFlagMask = optPendFlagSetAll ∧ g &&& c.flagsPend = c.flagsPend ∨
    c.flagsOpt &&& optPendFlagMask = optPendFlagSetAny ∧ g &&& c.flagsPend ≠ 0

instance (c : TCB) (g : Flags) : Decidable (c.Satisfied g) := inferInstanceAs (Decidable (_ ∨ _))

section hits

theorem File.hit_of_taken {f : File} (hf : f.hit g = none) (m : Flags) : f.hit (g &&& m) = none := by
  have hcomm : g &&& m &&& f.flagsPend = g &&& f.flagsPend &&& m := by
    rw [BitVec.and_assoc, BitVec.and_comm m, BitVec.and_assoc]
  have hall (h : g &&& f.flagsPend &&& m = f.flagsPend) : g &&& f.flagsPend = f.flagsPend := by
    calc g &&& f.flagsPend = g &&& (g &&& f.flagsPend &&& m) := by rw [h]
      _ = g &&& f.flagsPend &&& m := by rw [← BitVec.and_assoc, ← BitVec.and_assoc, BitVec.and_self]
      _ = f.flagsPend := h
  have hany (h : g &&& f.flagsPend &&& m ≠ 0) : g &&& f.flagsPend ≠ 0 := by
    intro h0
    apply h
    rw [h0]
    exact BitVec.zero_and
  unfold File.hit flagsReady at hf ⊢
  rw [hcomm]
  by_cases h₁ : f.flagsOpt &&& optPendFlagMask = optPendFlagSetAll
  · simp only [h₁, ↓reduceIte] at hf ⊢
    by_cases h₂ : g &&& f.flagsPend &&& m = f.flagsPend
    · simp [hall h₂] at hf
    · simp [h₂]
  · simp only [h₁, ↓reduceIte] at hf ⊢
    by_cases h₂ : f.flagsOpt &&& optPendFlagMask = optPendFlagSetAny
    · simp only [h₂, ↓reduceIte] at hf ⊢
      by_cases h₃ : g &&& f.flagsPend &&& m = 0
      · simp [h₃]
      · have := hany h₃
        simp_all
    · simp [h₂]

theorem OS.hit_iff (s : OS) (t : TcbId) (g : Flags) :
    (s.file t).hit g = if (s.tcb t).Satisfied g then some (g &&& (s.tcb t).flagsPend) else none := by
  have ho : (s.file t).flagsOpt = (s.tcb t).flagsOpt := rfl
  have hp : (s.file t).flagsPend = (s.tcb t).flagsPend := rfl
  unfold File.hit flagsReady TCB.Satisfied
  rw [ho, hp]
  by_cases h₁ : (s.tcb t).flagsOpt &&& optPendFlagMask = optPendFlagSetAll
  · have hne : ¬ optPendFlagSetAll = optPendFlagSetAny := by decide
    by_cases h₂ : g &&& (s.tcb t).flagsPend = (s.tcb t).flagsPend <;> simp [h₁, h₂, hne]
  · by_cases h₂ : (s.tcb t).flagsOpt &&& optPendFlagMask = optPendFlagSetAny
    · have hne : ¬ optPendFlagSetAny = optPendFlagSetAll := by decide
      by_cases h₃ : g &&& (s.tcb t).flagsPend = 0#32 <;> simp [h₂, h₃, hne]
    · simp [h₁, h₂]

end hits

section post

theorem Ready.mem_waiting (H : Ready cfg s a) (hon : (s.file t).pendOn.onObject = true) (hm : (s.file t).pendOn ≠ .multi)
    (hrow : ((s.file t).row 0).1 = some o) : (t, 0) ∈ a.waiting o := by
  have hk : (a.task t).pendOn = (s.file t).pendOn := (H.rep.pendOn t).symm
  obtain ⟨d, hd⟩ := List.exists_mem_of_ne_nil _ ((H.sound.wait.table_iff t).mpr (by rw [hk, hon]))
  have hdt := H.sound.wait.single t (by rwa [hk]) d hd
  subst hdt
  refine (H.sound.wait.mem_iff o (t, 0)).mpr ⟨hd, ?_⟩
  rw [H.rep.entry]
  exact hrow

theorem osFlagPost_walk (H : Ready cfg s a) (hopt : flagPostOptValid opt = true) (ho : (s.obj o).type = .flag) :
    wp n cfg (osFlagPost (some o) flags opt) (fun r s' => (∀ x ∈ r, x.err = .none) ∧
      ∃ b, Rep cfg s' b ∧ b.Sound cfg ∧
        b.waiting o = (a.waiting o).filter (fun d => ((s.file d.1).hit (postedFlags opt (s.obj o).flags flags)).isNone) ∧
        ∀ t, ∃ k, s'.file t = { (if t ∈ (a.waiting o).map Prod.fst then
          (s.file t).flagPosted (postedFlags opt (s.obj o).flags flags) s.tsNow else s.file t) with cont := k }) s := by
  have ho' : (a.obj o).type = .flag := by rw [← H.rep.type, ho]
  have hrest (f : Obj → Obj) (hf : ∀ x, (f x).key = x.key)
      (hg : (f (s.obj o)).flags = postedFlags opt (s.obj o).flags flags) : wp n cfg (do
      let b ← getObj o
      if b.pendList.nbrEntries = 0 then return some { err := .none, val := b.flags.toNat }
      let d ← Prog.deref b.pendList.headPtr
      if ← Prog.loop (flagPostStep o s.tsNow) (some d) then return some { err := .flagPendOpt }
      if opt &&& optPostNoSched = 0 ∧ (← Prog.get).intNestingCtr = 0 then waitThen (.flagPost o)
      else return some { err := .none, val := (← getObj o).flags.toNat })
      (fun r s' => (∀ x ∈ r, x.err = .none) ∧ ∃ b, Rep cfg s' b ∧ b.Sound cfg ∧
        b.waiting o = (a.waiting o).filter (fun d => ((s.file d.1).hit (postedFlags opt (s.obj o).flags flags)).isNone) ∧
        ∀ t, ∃ k, s'.file t = { (if t ∈ (a.waiting o).map Prod.fst then
          (s.file t).flagPosted (postedFlags opt (s.obj o).flags flags) s.tsNow else s.file t) with cont := k })
      (s.modObj o f) := by
    have h₁ : Rep cfg (s.modObj o f) a := H.rep.of_key (OS.key_modObj hf)
    have hg' : ((s.modObj o f).obj o).flags = postedFlags opt (s.obj o).flags flags := by
      rw [OS.modObj_obj, if_pos rfl, hg]
    rw [wp_bind, wp_getObj, wp_ite]
    constructor
    · intro h0
      have hnil : a.waiting o = [] := (h₁.pend.list o).nbr_eq_zero.mp h0
      refine wp_pure.mpr ⟨by simp, a, h₁, H.sound, by simp [hnil], fun t => ⟨s.cont t, ?_⟩⟩
      simp only [hnil, List.map_nil, List.not_mem_nil, ↓reduceIte]
      rfl
    intro _
    rw [wp_bind, wp_deref, h₁.pendHead]
    intro d hd
    rw [wp_bind, ← hd]
    refine (flagPostLoop_walk (.start h₁ H.sound ho' hg')).mono ?_
    rintro _ s₂ ⟨rfl, b, h₂⟩
    have hwait := h₂.waiting
    rw [List.append_nil, List.nil_append] at hwait
    have hfile (t : TcbId) : s₂.file t = if t ∈ (a.waiting o).map Prod.fst then
        (s.file t).flagPosted (postedFlags opt (s.obj o).flags flags) s.tsNow else s.file t := by
      rw [h₂.file, List.nil_append]
      rfl
    rw [if_neg Bool.false_ne_true, wp_bind, wp_get, wp_ite]
    constructor
    · intro _
      rw [waitThen, wp_bind, wp_getCur]
      intro c _
      rw [wp_bind, wp_modify, wp_bind]
      have h₃ := h₂.rep.setCont c (.flagPost o)
      refine ((osSched_spec h₃).and (keeps_file_osSched n cfg _)).mono ?_
      rintro _ s₄ ⟨⟨b', h₄, hs⟩, hf⟩
      refine wp_pure.mpr ⟨by simp, b', h₄, (h₂.sound.setCont c (.flagPost o)).sched hs, ?_, fun t => ?_⟩
      · rw [hs.waiting]
        exact hwait
      · rw [hf, OS.file_setCont, Function.update_apply]
        split
        · rename_i htc
          subst htc
          exact ⟨.flagPost o, by rw [hfile]⟩
        · exact ⟨(s₂.file t).cont, by rw [← hfile t]⟩
    · intro _
      rw [wp_bind, wp_getObj]
      exact wp_pure.mpr ⟨by simp, b, h₂.rep, h₂.sound, hwait, fun t => ⟨(s₂.file t).cont, by rw [← hfile t]⟩⟩
  rw [osFlagPost, wp_ite]
  refine ⟨fun hno => absurd hopt (by simp [hno]), fun _ => ?_⟩
  rw [wp_bind, wp_getObj, wp_ite]
  refine ⟨fun hno => absurd ho hno, fun _ => ?_⟩
  rw [wp_bind, wp_tsGet, flagPost, wp_ite]
  constructor
  · intro hset
    rw [wp_bind, wp_modObj]
    exact hrest _ (fun _ => rfl) (by rw [postedFlags, if_pos hset])
  · intro hset
    rw [wp_bind, wp_modObj]
    exact hrest _ (fun _ => rfl) (by rw [postedFlags, if_neg hset])

end post

section step

def File.SameFlagWait (f f' : File) : Prop :=
  f.state.isPend = true ∧ f.pendOn = .flag ∧ (f'.row 0).1 = (f.row 0).1 ∧ f'.flagsPend = f.flagsPend ∧ f'.flagsOpt = f.flagsOpt

theorem Event.Change.flagWait {f f' : File} (hc : e.Change s r t f f') (hcur : s.tcbCurPtr = some t → f.state.isPend = false)
    (hp : f'.state.isPend = true) (hk : f'.pendOn = .flag) : f.SameFlagWait f' ∨
      ∃ o flags timeout opt, e = .call (.flagPend (some o) flags timeout opt) ∧ r = none ∧ (f'.row 0).1 = some o ∧
        f'.flagsPend = flags ∧ f'.flagsOpt = opt := by
  by_cases hp₀ : f.state.isPend = true
  · obtain ⟨hon, -, hrow, hflags, hopt⟩ := hc.sameWait hcur hp₀ hp
    exact .inl ⟨hp₀, hon ▸ hk, by rw [hrow], hflags, hopt⟩
  · obtain ⟨rfl, -, ⟨c, kind, p, rfl, hw, hkind, -⟩ | ⟨i, objs, timeout, opt, timed, -, hf⟩⟩ :=
      hc.newWait (by simpa using hp₀) hp
    · rw [hk] at hkind
      subst hkind
      unfold Call.waitsFor at hw
      split at hw <;> cases hw
      rename_i o' flags timeout opt
      obtain ⟨-, timed, rfl⟩ := hc
      exact .inr ⟨o', flags, timeout, opt, rfl, rfl, by simp [File.waits], rfl, rfl⟩
    · rw [hf] at hk
      cases hk

theorem Event.Deals.group_flags (hD : e.Deals s r s') (o : ObjId) : (∃ m, (s'.stock o).flags = (s.stock o).flags &&& m) ∨
    (∃ flags opt, e = .call (.flagPost (some o) flags opt) ∧ flagPostOptValid opt = true ∧ (s.stock o).type = .flag ∧
      (s'.stock o).flags = postedFlags opt (s.stock o).flags flags) ∨ ∃ flags, e = .call (.flagCreate (some o) flags) := by
  have hsame (hs : (s'.stock o).flags = (s.stock o).flags) : ∃ m, (s'.stock o).flags = (s.stock o).flags &&& m :=
    ⟨BitVec.allOnes 32, by rw [hs, BitVec.and_allOnes]⟩
  have hkeep (hs : s'.stock = s.stock) : ∃ m, (s'.stock o).flags = (s.stock o).flags &&& m := hsame (by rw [hs])
  have hupd {o' : ObjId} {x : Stock} (hs : s'.stock = Function.update s.stock o' x) (hx : x.flags = (s.stock o').flags) :
      ∃ m, (s'.stock o).flags = (s.stock o).flags &&& m := by
    apply hsame
    rw [hs, Function.update_apply]
    split
    · subst o
      exact hx
    · rfl
  have htake {o' : ObjId} {m : Flags}
      (hs : s'.stock = Function.update s.stock o' { s.stock o' with flags := (s.stock o').flags &&& ~~~ m }) :
      ∃ m, (s'.stock o).flags = (s.stock o).flags &&& m := by
    by_cases ho : o = o'
    · subst ho
      exact ⟨~~~ m, by rw [hs, Function.update_self]⟩
    · apply hsame
      rw [hs, Function.update_of_ne ho]
  cases e with
  | start | intEnter | intExit | clock | timeTick | tickUpdate => exact .inl (hkeep hD)
  | finish =>
    rcases hD with hD | ⟨t, o', m, -, -, hD⟩
    · exact .inl (hkeep hD)
    · exact .inl (htake hD)
  | call c =>
    cases c with
    | semCreate p cnt | mutexCreate p | qCreate p maxQty =>
      cases p with
      | none => exact .inl (hkeep hD)
      | some o' =>
        rw [Deals] at hD
        split at hD
        · exact .inl (hupd hD rfl)
        · exact .inl (hkeep hD)
    | flagCreate p flags =>
      cases p with
      | none => exact .inl (hkeep hD)
      | some o' =>
        rw [Deals] at hD
        split at hD
        · by_cases ho : o = o'
          · subst ho
            exact .inr (.inr ⟨flags, rfl⟩)
          · refine .inl (hsame ?_)
            rw [hD, Function.update_of_ne ho]
        · exact .inl (hkeep hD)
    | semPend p timeout opt =>
      cases p with
      | none => exact .inl (hkeep hD)
      | some o' =>
        rw [Deals] at hD
        split at hD
        · exact .inl (hupd hD.2.2 rfl)
        · exact .inl (hkeep hD.1)
    | semPost p opt =>
      cases p with
      | none => exact .inl (hkeep hD)
      | some o' =>
        rw [Deals] at hD
        split at hD
        · obtain ⟨-, hD⟩ := hD
          split at hD
          · exact .inl (hupd hD rfl)
          · exact .inl (hkeep hD)
        · exact .inl (hkeep hD)
    | semSet p cnt =>
      cases p with
      | none => exact .inl (hkeep hD)
      | some o' =>
        rw [Deals] at hD
        split at hD
        · exact .inl (hupd hD.2.2 rfl)
        · exact .inl (hkeep hD)
    | pendMulti tbl objs timeout opt =>
      cases tbl with
      | none => exact .inl (hkeep hD)
      | some i =>
        obtain ⟨t, -, hD⟩ := hD
        split at hD
        · exact .inl (hsame (hD o).2.1)
        · exact .inl (hkeep hD.1)
    | flagPend p flags timeout opt =>
      cases p with
      | none => exact .inl (hkeep hD)
      | some o' =>
        rcases hD with hD | ⟨-, m, hD⟩
        · exact .inl (hkeep hD.1)
        · exact .inl (htake hD)
    | flagPost p flags opt =>
      cases p with
      | none => exact .inl (hkeep hD)
      | some o' =>
        rcases hD with hD | ⟨hopt, htype, hD⟩
        · exact .inl (hkeep hD.1)
        · by_cases ho : o = o'
          · subst ho
            exact .inr (.inl ⟨flags, opt, rfl, hopt, htype, by rw [hD, Function.update_self]⟩)
          · refine .inl (hsame ?_)
            rw [hD, Function.update_of_ne ho]
    | taskCreate | taskDel | taskSuspend | taskResume | taskChangePrio | taskTimeQuantaSet | taskSemPend | taskSemPendAbort
    | taskSemPost | taskSemSet | taskQPend | taskQPendAbort | taskQPost | taskQFlush | semPendAbort | qPend | qPendAbort
    | qPost | mutexPend | mutexPost | flagPendGetFlagsRdy | timeDly | timeDlyHMSM | timeGet | timeSet | schedLock
    | schedUnlock | schedRoundRobinCfg | schedRoundRobinYield => exact .inl (hkeep hD)

def OS.Unmet (s : OS) : Prop := ∀ t o, (s.file t).state.isPend = true → (s.file t).pendOn = .flag →
  ((s.file t).row 0).1 = some o → (s.file t).hit (s.stock o).flags = none

theorem File.SameFlagWait.hit_eq {f f' : File} (h : f.SameFlagWait f') (g : Flags) : f'.hit g = f.hit g := by
  obtain ⟨-, -, -, hflags, hopt⟩ := h
  rw [File.hit, File.hit, hflags, hopt]

theorem File.hit_of_flagPosted {f : File} {ts : ℕ} (h : (f.flagPosted g ts).state.isPend = true) : f.hit g = none := by
  cases hh : f.hit g with
  | none => rfl
  | some flagsRdy =>
    rw [File.flagPosted, hh] at h
    have hno := File.isPend_woken { f with flagsRdy := flagsRdy, mail := { f.mail with ts := ts }, table := [] } .ok
    exact absurd h (by rw [Bool.not_eq_true]; exact hno)

theorem OS.Unmet.step (hI : s.Unmet) (H : Ready cfg s a) (he : Enabled s e) (hx : Runs cfg e.exec s r s')
    (hF : Filed s e r s') :
    s'.Unmet := by
  have hD : e.Deals s r s' := hx.wp fun n => Event.exec_deals e
  intro t o hp hk hrow
  have hwait : (s.file t).SameFlagWait (s'.file t) ∨
      ∃ o flags timeout opt, e = .call (.flagPend (some o) flags timeout opt) ∧ r = none ∧ ((s'.file t).row 0).1 = some o ∧
        (s'.file t).flagsPend = flags ∧ (s'.file t).flagsOpt = opt := by
    rcases hF t with hsame | hc
    · rw [hsame] at hp hk ⊢
      exact .inl ⟨hp, hk, rfl, rfl, rfl⟩
    · exact hc.flagWait (fun hct => H.not_pend hct) hp hk
  rcases hwait with hw | ⟨o', flags, timeout, opt, rfl, rfl, hrow', hfl, hop⟩
  · rw [hw.hit_eq]
    obtain ⟨hp₀, hk₀, hrow₀, -⟩ := hw
    rw [hrow₀] at hrow
    have hold := hI t o hp₀ hk₀ hrow
    have hmem := H.mem_waiting (o := o) (by rw [hk₀]; rfl) (by rw [hk₀]; simp) hrow
    rcases hD.group_flags o with ⟨m, hm⟩ | ⟨flags, opt, rfl, hopt, htype, hnew⟩ | ⟨flags, rfl⟩
    · rw [hm]
      exact File.hit_of_taken hold m
    · rw [hnew]
      obtain ⟨-, b, -, -, -, hfile⟩ := hx.wp fun n => osFlagPost_walk H hopt htype
      obtain ⟨k, hk⟩ := hfile t
      rw [if_pos (List.mem_map_of_mem hmem)] at hk
      rw [hk] at hp
      exact File.hit_of_flagPosted hp
    · -- a group is not created while a task waits on it
      have hacc := H.sound.accepts hmem
      rcases he.1.2 _ rfl with hnone | ⟨-, hempty⟩
      · rw [← H.rep.type, hnone] at hacc
        cases hk' : (a.task t).pendOn <;> simp [hk', PendOn.accepts] at hacc
      · rw [(H.rep.pend.list o).nbr_eq_zero.mp hempty] at hmem
        cases hmem
  · rcases hD with ⟨hs, hwait⟩ | ⟨hg, -⟩
    · obtain rfl : o = o' := by
        rw [hrow] at hrow'
        exact Option.some.inj hrow'
      obtain ⟨-, x, hx⟩ := hwait rfl
      rw [File.hit, hfl, hop, hs, hx]
    · cases hg

theorem run_unmet (run : Run cfg (fun _ x => ¬ PassedMatch cfg x.pre x.event) h s) : s.Unmet := by
  refine (run.files (I := fun _ s => s.Unmet) (fun _ _ => id) (fun s h0 => ?_) ?_).2
  · intro t o hp
    rcases (h0 t).1 with hs | hs <;> rw [hs] at hp <;> cases hp
  · intro h s a e r s' a' H hI he _ hx hF _ _
    exact hI.step H he hx hF

end step

section settles

theorem flagTaskRdy_returns (h : Rep cfg s a) (hI : a.Sound cfg) (hok : a.wheelOk = true)
    (hprio : (a.task t).prio < cfg.prioMax)
    (ht : (a.task t).table ≠ []) (flagsRdy : Flags) (ts : ℕ) : Returns n cfg (flagTaskRdy t flagsRdy ts) s := by
  have hrm {s₂ : OS} {b : Abs} (h₂ : Rep cfg s₂ b) (htab : (b.task t).table = (a.task t).table) (he : b.entry = a.entry)
      (hw : b.waiting = a.waiting) : Returns n cfg (pendListRemove t) s₂ := by
    have htab' : s₂.table t = (a.task t).table := by
      rw [← htab, h₂.task]
      rfl
    refine pendListRemove_returns h₂.pend (by rwa [htab']) fun d hd => ?_
    rw [htab'] at hd
    obtain ⟨o, ho, hdo⟩ := hI.wait.linked (t := t) d hd
    refine ⟨o, ?_, by rwa [hw]⟩
    rw [← he, h₂.entry] at ho
    exact ho
  rw [Returns, flagTaskRdy, twp_bind, twp_modTcb]
  have h₁ : Rep cfg (s.modTcb t fun c => { c with flagsRdy := flagsRdy, pendStatus := .ok, pendOn := .nothing, ts := ts })
      (a.modTask t fun c => { c with pendStatus := .ok, pendOn := .nothing }) := h.modTcb rfl rfl
  generalize s.modTcb t _ = s₁ at h₁
  have hst : (s₁.tcb t).taskState = (a.task t).state := by rw [h₁.state, Abs.task_modTask, if_pos rfl]
  rw [twp_bind, twp_getTcb, hst]
  have hwaits {s₂ : OS} {b : Abs} {st : TaskState} (h₂ : Rep cfg s₂ b) (htab : (b.task t).table = (a.task t).table)
      (he : b.entry = a.entry) (hw : b.waiting = a.waiting) :
      Returns n cfg (modTcb t (fun c => { c with taskState := st }) >>= fun _ => pendListRemove t) s₂ := by
    rw [Returns, twp_bind, twp_modTcb]
    have h₃ : Rep cfg (s₂.modTcb t fun c => { c with taskState := st }) (b.modTask t fun c => { c with state := st }) :=
      h₂.modTcb rfl rfl
    exact hrm h₃ (by rw [Abs.task_modTask, if_pos rfl, htab]) he hw
  cases hs : (a.task t).state with
  | rdy | dly | suspended | dlySuspended | del => exact hrm h₁ (by rw [Abs.task_modTask, if_pos rfl]) rfl rfl
  | pend | pendTimeout =>
    dsimp only
    have hq : ∀ q, t ∉ (a.modTask t fun c => { c with pendStatus := .ok, pendOn := .nothing }).ready q :=
      hI.ready.not_mem (by simp [hs])
    have hprio' : ((a.modTask t fun c => { c with pendStatus := .ok, pendOn := .nothing }).task t).prio < cfg.prioMax := by
      rwa [Abs.task_modTask, if_pos rfl]
    refine (taskRdy_returns h₁ hok hprio').bind (taskRdy_spec h₁ hq) fun _ s₂ h₂ => ?_
    rw [if_pos (by simp [Abs.task_modTask, hs, TaskState.isSuspended])] at h₂
    apply hwaits h₂ _ rfl rfl
    simp [Abs.task_modTask, Abs.enqueue, Abs.task_setReady, Abs.offWheel]
  | pendSuspended | pendTimeoutSuspended => exact hwaits h₁ (by rw [Abs.task_modTask, if_pos rfl]) rfl rfl

theorem Fit.flagWake (F : Fit cfg s a) (h' : Rep cfg s' (a.flagWake t)) : Fit cfg s' (a.flagWake t) := by
  refine ⟨h', F.sound.flagWake t, ?_, fun x hx => ?_⟩
  · rw [Abs.flagWake]
    split
    · exact F.wheelOk
    · rw [Abs.wheelOk_wake, F.wheelOk]
  · rw [Abs.task_flagWake] at hx ⊢
    split
    · rename_i hxt
      rw [if_pos hxt] at hx
      rw [Task.prio_woken]
      exact F.prio t (Task.woken_ne_del hx)
    · rename_i hxt
      rw [if_neg hxt] at hx
      exact F.prio x hx

variable {s₀ : OS} {ts : ℕ} {done rest : List PdId} {d : PdId}

theorem FlagWalk.step_returns (h : FlagWalk cfg s₀ a o g ts done (d :: rest) s b) (F : Fit cfg s b) :
    Returns n cfg (flagPostStep o ts (some d)) s := by
  rw [Returns, flagPostStep, twp_bind, twp_getPendData, h.rep.tcbPtr h.sound h.mem]
  dsimp only
  rw [twp_bind, twp_getTcb, twp_bind, twp_getObj]
  obtain ⟨hprio, htab⟩ := F.waiter h.mem
  split
  · exact returns_pure _
  · exact (flagTaskRdy_returns h.rep h.sound F.wheelOk hprio htab _ ts).bind (Q := fun _ _ => True) (fun _ _ _ => trivial)
      fun _ _ _ => returns_pure _
  · exact returns_pure _

theorem flagPostLoop_returns (h : FlagWalk cfg s₀ a o g ts done rest s b) (F : Fit cfg s b) (hn : rest.length < n) :
    twp n cfg (Prog.loop (flagPostStep o ts) rest.head?) (fun bad s' => bad = false ∧
      ∃ b', FlagWalk cfg s₀ a o g ts (done ++ rest) [] s' b' ∧ Fit cfg s' b') s := by
  refine twp_loop (fun k p s' => ∃ done' rest' b', done' ++ rest' = done ++ rest ∧ k = rest'.length ∧ p = rest'.head? ∧
    FlagWalk cfg s₀ a o g ts done' rest' s' b' ∧ Fit cfg s' b') ?_ ⟨done, rest, b, rfl, rfl, rfl, h, F⟩ hn
  rintro _ _ s' ⟨done', rest', b', heq, rfl, rfl, h', F'⟩
  cases rest' with
  | nil =>
    rw [List.append_nil] at heq
    subst heq
    exact twp_pure.mpr ⟨rfl, b', h', F'⟩
  | cons d rest' =>
    refine ((h'.step_returns F').twp h'.step).mono ?_
    rintro _ s'' ⟨rfl, b'', h'', rfl | rfl⟩
    · exact ⟨rest'.length, by simp, _, _, _, by simpa using heq, rfl, rfl, h'', h''.rep, F'.sound, F'.wheelOk, F'.prio⟩
    · exact ⟨rest'.length, by simp, _, _, _, by simpa using heq, rfl, rfl, h'', F'.flagWake h''.rep⟩

theorem FlagWalk.schedulable (H : Ready cfg s₀ a) (hrun : s₀.running = true) (h : FlagWalk cfg s₀ a o g ts (a.waiting o) [] s b)
    (hl : s.schedLockNestingCtr = 0) : Schedulable cfg s := by
  obtain ⟨c, -, hc⟩ := H.cur.runs (H.rep.running.trans hrun)
  have hlock : a.lockNesting = 0 := by
    have hf : b.lockNesting = a.lockNesting := (congrArg Abs.lockNesting h.frame :)
    rw [← hf, h.rep.lockNesting, hl]
  have hrdy : (a.task c).state = .rdy := by
    rcases hc with hc | ⟨-, hc⟩
    · exact hc
    · omega
  have hnot : c ∉ (a.waiting o).map Prod.fst := by
    intro hmem
    obtain ⟨d, hd, rfl⟩ := List.mem_map.mp hmem
    have hp := H.sound.isPend_of_mem hd
    rw [hrdy] at hp
    cases hp
  have hb : (b.task c).state = .rdy := by
    have hf := h.file c
    rw [if_neg hnot] at hf
    calc (b.task c).state = (s.file c).state := (h.rep.state c).symm
      _ = (s₀.file c).state := by rw [hf]
      _ = (a.task c).state := H.rep.state c
      _ = .rdy := hrdy
  exact ⟨b.ready, _, h.rep.rdy, List.ne_nil_of_mem ((h.sound.ready c _).mpr ⟨hb, rfl⟩)⟩

theorem osFlagPost_returns (H : Ready cfg s a) (F : Fit cfg s a) (hrun : s.running = true) (ho : (s.obj o).type = .flag)
    (flags : Flags) (opt : Opt) (hn : (a.waiting o).length < n) :
    Returns n cfg (osFlagPost (some o) flags opt) s := by
  have ho' : (a.obj o).type = .flag := by rw [← H.rep.type, ho]
  have hrest (f : Obj → Obj) (hf : ∀ x, (f x).key = x.key) : Returns n cfg (do
      let b ← getObj o
      if b.pendList.nbrEntries = 0 then return some { err := .none, val := b.flags.toNat }
      let d ← Prog.deref b.pendList.headPtr
      if ← Prog.loop (flagPostStep o s.tsNow) (some d) then return some { err := .flagPendOpt }
      if opt &&& optPostNoSched = 0 ∧ (← Prog.get).intNestingCtr = 0 then waitThen (.flagPost o)
      else return some { err := .none, val := (← getObj o).flags.toNat }) (s.modObj o f) := by
    have h₁ : Rep cfg (s.modObj o f) a := H.rep.of_key (OS.key_modObj hf)
    have H₁ : Ready cfg (s.modObj o f) a := ⟨h₁, H.sound, H.cur⟩
    rw [Returns, twp_bind, twp_getObj, twp_ite]
    refine ⟨fun _ => returns_pure _, fun hne => ?_⟩
    have hhead : ∃ d, ((s.modObj o f).obj o).pendList.headPtr = some d := by
      rw [h₁.pendHead]
      cases hw : a.waiting o with
      | nil => exact absurd ((h₁.pend.list o).nbr_eq_zero.mpr hw) hne
      | cons d l => exact ⟨d, rfl⟩
    obtain ⟨d, hd⟩ := hhead
    rw [twp_bind, twp_deref]
    refine ⟨d, hd, ?_⟩
    rw [h₁.pendHead] at hd
    rw [twp_bind, ← hd]
    have hW : FlagWalk cfg _ a o _ s.tsNow [] (a.waiting o) _ a := FlagWalk.start h₁ H.sound ho' rfl
    refine (flagPostLoop_returns hW ⟨h₁, F.sound, F.wheelOk, F.prio⟩ hn).mono ?_
    rintro _ s₂ ⟨rfl, b, h₂, -⟩
    rw [if_neg Bool.false_ne_true, twp_bind, twp_get, twp_ite]
    constructor
    · intro _
      rw [waitThen, twp_bind, twp_getCur]
      obtain ⟨c, hc, -⟩ := H₁.cur.runs (H₁.rep.running.trans hrun)
      have hcur : b.cur = a.cur := (congrArg Abs.cur h₂.frame :)
      refine ⟨c, by rw [← h₂.rep.cur, hcur, hc], ?_⟩
      rw [twp_bind, twp_modify, twp_bind, osSched, twp_bind, twp_get, twp_ite]
      refine ⟨fun _ => twp_pure.mpr (returns_pure _), fun _ => twp_ite.mpr ⟨fun _ => twp_pure.mpr (returns_pure _), fun hl => ?_⟩⟩
      have hS := h₂.schedulable H₁ hrun (Nat.eq_zero_of_not_pos hl)
      have hS' : Schedulable cfg { s₂ with cont := Function.update s₂.cont c (.flagPost o) } := hS.congr rfl rfl rfl
      exact (reschedule_returns hS').mono fun _ _ _ => returns_pure _
    · intro _
      rw [twp_bind, twp_getObj]
      exact returns_pure _
  rw [Returns, osFlagPost, twp_ite]
  refine ⟨fun _ => returns_pure _, fun _ => ?_⟩
  rw [twp_bind, twp_getObj, twp_ite]
  refine ⟨fun _ => returns_pure _, fun _ => ?_⟩
  rw [twp_bind, twp_tsGet, flagPost, twp_ite]
  constructor
  · intro _
    rw [twp_bind, twp_modObj]
    exact hrest _ fun _ => rfl
  · intro _
    rw [twp_bind, twp_modObj]
    exact hrest _ fun _ => rfl

end settles

/-- A post that leaves the group `o` with the flags `g` has ended the waits that `g` meets, and no others. -/
structure FlagsPosted (cfg : Cfg) (s s' : OS) (o : ObjId) (g : Flags) : Prop where
  flags : (s'.obj o).flags = g
  list : s'.pendTasks o = (s.pendTasks o).filter fun t => ¬ (s.tcb t).Satisfied g
  ended : ∀ t ∈ s.pendTasks o, (s.tcb t).Satisfied g →
    (s'.tcb t).taskState = (if (s.tcb t).taskState.isSuspended then .suspended else .rdy) ∧ (s'.tcb t).pendOn = .nothing ∧
    (s'.tcb t).pendStatus = .ok ∧ (s'.tcb t).flagsRdy = g &&& (s.tcb t).flagsPend
  placed : ∀ t ∈ s.pendTasks o, (s.tcb t).Satisfied g → ((s'.tcb t).taskState = .rdy → t ∈ s'.rdyTasks (s'.tcb t).prio) ∧
    ∀ i < cfg.tickWheelSize, ∀ k, s'.spokeAt i k ≠ some t
  kept : ∀ t, ¬ (t ∈ s.pendTasks o ∧ (s.tcb t).Satisfied g) → (s'.tcb t).taskState = (s.tcb t).taskState ∧
    (s'.tcb t).pendOn = (s.tcb t).pendOn ∧ (s'.tcb t).pendStatus = (s.tcb t).pendStatus ∧
    (s'.tcb t).flagsRdy = (s.tcb t).flagsRdy

/-- No task waits for flags that are there, and every post ends the waits that the new flags meet. -/
structure FlagsServe (cfg : Cfg) (s : OS) : Prop where
  unmet : ∀ o, (s.obj o).type = .flag → ∀ t ∈ s.pendTasks o, ¬ (s.tcb t).Satisfied (s.obj o).flags
  posts : ∀ o flags opt, (s.obj o).type = .flag → flagPostOptValid opt = true →
    Enabled s (.call (.flagPost (some o) flags opt)) → ¬ FlagHit s (.call (.flagPost (some o) flags opt)) →
    Fits cfg (osFlagPost (some o) flags opt) s → SettlesIn .word cfg (osFlagPost (some o) flags opt) s fun r s' =>
      (∀ x ∈ r, x.err = .none) ∧
      FlagsPosted cfg s s' o (postedFlags opt (s.obj o).flags flags)

section serve

theorem Ready.not_satisfied (H : Ready cfg s a) (hU : s.Unmet) (ho : (s.obj o).type = .flag) (ht : t ∈ s.pendTasks o) :
    ¬ (s.tcb t).Satisfied (s.obj o).flags := by
  rw [H.rep.pendTasks_eq H.sound] at ht
  obtain ⟨d, hd, rfl⟩ := List.mem_map.mp ht
  obtain ⟨hk, hp, hd0, hobj⟩ := H.sound.flag_wait (by rw [← H.rep.type, ho]) hd
  have hrow : ((s.file d.1).row 0).1 = some o := by
    rw [hd0, H.rep.entry] at hobj
    exact hobj
  have hnone := hU d.1 o ((congrArg TaskState.isPend (H.rep.state d.1)).trans hp) ((H.rep.pendOn d.1).trans hk) hrow
  intro hs
  rw [OS.hit_iff, show (s.stock o).flags = (s.obj o).flags from rfl, if_pos hs] at hnone
  cases hnone

theorem Ready.flagsPosted (H : Ready cfg s a) (hflags : (s'.obj o).flags = g) (h' : Rep cfg s' b) (hI' : b.Sound cfg)
    (hwait : b.waiting o = (a.waiting o).filter fun d => ((s.file d.1).hit g).isNone)
    (hfile : ∀ t, ∃ k, s'.file t = { (if t ∈ (a.waiting o).map Prod.fst then (s.file t).flagPosted g s.tsNow
      else s.file t) with cont := k })
    (hoff : ∀ t, (s'.tcb t).taskState.isTimed = false → ∀ i < cfg.tickWheelSize, ∀ k, s'.spokeAt i k ≠ some t) :
    FlagsPosted cfg s s' o g := by
  have hmem (t : TcbId) : t ∈ s.pendTasks o ↔ t ∈ (a.waiting o).map Prod.fst := by rw [H.rep.pendTasks_eq H.sound]
  have hended : ∀ t ∈ s.pendTasks o, (s.tcb t).Satisfied g →
      (s'.tcb t).taskState = (if (s.tcb t).taskState.isSuspended then .suspended else .rdy) ∧ (s'.tcb t).pendOn = .nothing ∧
      (s'.tcb t).pendStatus = .ok ∧ (s'.tcb t).flagsRdy = g &&& (s.tcb t).flagsPend := by
    intro t ht hs
    obtain ⟨k, hk⟩ := hfile t
    rw [if_pos ((hmem t).mp ht), File.flagPosted, OS.hit_iff, if_pos hs] at hk
    exact ⟨(congrArg File.state hk :), (congrArg File.pendOn hk :), (congrArg File.pendStatus hk :),
      (congrArg File.flagsRdy hk :)⟩
  refine ⟨hflags, ?_, hended, fun t ht hs => ?_, fun t ht => ?_⟩
  · rw [h'.pendTasks_eq hI', H.rep.pendTasks_eq H.sound, hwait, List.filter_map]
    congr 1
    apply List.filter_congr
    intro d _
    rw [OS.hit_iff]
    by_cases hs : (s.tcb d.1).Satisfied g <;> simp [hs]
  · have hst := (hended t ht hs).1
    refine ⟨fun hr => ?_, hoff t ?_⟩
    · have hb : t ∈ b.ready (s'.tcb t).prio := (hI'.ready t _).mpr ⟨by rw [← h'.state, hr], by rw [h'.prio]⟩
      rwa [h'.rdyTasks_eq (h'.rdy.lists.lt_of_mem hb)]
    · rw [hst]
      split <;> rfl
  · obtain ⟨k, hk⟩ := hfile t
    have hsame : s'.file t = { s.file t with cont := k } := by
      rw [hk]
      split
      · rename_i hin
        have hs : ¬ (s.tcb t).Satisfied g := fun hs => ht ⟨(hmem t).mpr hin, hs⟩
        rw [File.flagPosted, OS.hit_iff, if_neg hs]
      · rfl
    exact ⟨(congrArg File.state hsame :), (congrArg File.pendOn hsame :), (congrArg File.pendStatus hsame :),
      (congrArg File.flagsRdy hsame :)⟩

end serve

/-- In a run without a flag post that ends the timed wait of a suspended task, and without a delay until a passed tick, no
task waits for flags that are there. -/
theorem run_flagsServe (run : CodeRun cfg (fun _ x => ¬ PassedMatch cfg x.pre x.event ∧
    ¬ FlagHit x.pre x.event) h s) (hfit : NoWrap cfg h) : FlagsServe cfg s := by
  replace run : Run cfg _ h s := run.fits hfit .nat
  obtain ⟨a, H, F⟩ := run_fit run
  have hU := run_unmet (run.mono fun _ _ hP => hP.1)
  refine ⟨fun o ho t ht => H.not_satisfied hU ho ht, fun o flags opt ho hopt he hno hx => ?_⟩
  have hrun : s.running = true := by
    rcases he.2 with hat | ⟨hr, -⟩ | ⟨-, hset⟩
    · exact hat.1
    · exact hr
    · cases hset
  refine hx.settlesIn_iff.mpr ⟨(a.waiting o).length + 1, fun n hn => ?_⟩
  obtain ⟨r, s', hx, -⟩ := osFlagPost_returns H F hrun ho flags opt (n := n) (by omega)
  refine ⟨r, s', hx, ?_⟩
  have hruns : Runs cfg (Event.call (.flagPost (some o) flags opt)).exec s r s' := ⟨n, hx⟩
  have hagree := Run.wheelAgrees (run.step he hruns ⟨by simp [PassedMatch], hno⟩)
  obtain ⟨herr, b, h', hI', hwait, hfile⟩ := osFlagPost_walk H hopt ho r s' hx
  refine ⟨herr, H.flagsPosted ?_ h' hI' hwait hfile hagree.off⟩
  have hD := hruns.wp fun n => Event.exec_deals (.call (.flagPost (some o) flags opt))
  rcases hD with ⟨-, x, rfl, hx'⟩ | ⟨-, -, hs⟩
  · have := herr x rfl
    rcases hx' with hx' | hx' <;> rw [hx'] at this <;> cases this
  · calc (s'.obj o).flags = (s'.stock o).flags := rfl
      _ = _ := by rw [hs, Function.update_self]; rfl

/-- Task 4 waits for bit 0, and task 5, which is suspended, for one of the bits 0 and 1. -/
theorem run_flagsServe_suspended : ∃ h s, CodeRun Cfg.repository
    (fun _ x => ¬ PassedMatch Cfg.repository x.pre x.event ∧ ¬ FlagHit x.pre x.event) h s ∧
    NoWrap Cfg.repository h ∧ (s.obj 0).type = .flag ∧ s.pendTasks 0 = [4, 5] ∧ (s.tcb 5).taskState = .pendSuspended ∧
    Enabled s (.call (.flagPost (some 0) 2 optPostFlagSet)) ∧ FlagsServe Cfg.repository s := by
  obtain ⟨h, s, run, hfit, ho, hl, hst, he⟩ := CodeRun.of_play_flagless Cfg.repository 60
    (fun _ s => (s.obj 0).type = .flag ∧ s.pendTasks 0 = [4, 5] ∧ (s.tcb 5).taskState = .pendSuspended ∧
      Enabled s (.call (.flagPost (some 0) 2 optPostFlagSet)))
    [.newTask 4 5, .newTask 5 6, .newTask 6 7, .call (.flagCreate (some 0) 0), .start,
      .call (.flagPend (some 0) 1 10 optPendFlagSetAll), .call (.flagPend (some 0) 3 0 optPendFlagSetAny),
      .call (.taskSuspend (some 5))] (by decide +kernel)
  exact ⟨h, s, run, hfit, ho, hl, hst, he, run_flagsServe run hfit⟩

section fault

theorem tickListRemove_faults {n : Bound} {i : ℕ} (hspoke : (s.tcb t).tickSpokePtr = some i)
    (hprev : (s.tcb t).tickPrevPtr = none)
    (hfirst : (s.tickWheel i).firstPtr ≠ some t) : wp n cfg (tickListRemove t) (fun _ _ => False) s := by
  rw [tickListRemove, wp_bind, wp_getTcb, hspoke]
  dsimp only
  rw [wp_bind, wp_modTcb, wp_bind, wp_getTcb, wp_bind, wp_getSpoke, wp_ite]
  refine ⟨fun hf => absurd hf hfirst, fun _ => ?_⟩
  rw [wp_bind, wp_deref, OS.modTcb_tcb, if_pos rfl]
  intro t1 ht1
  rw [hprev] at ht1
  cases ht1

theorem osFlagPost_faults {n : Bound} {d : PdId} {i : ℕ} (hset : opt = optPostFlagSet) (ho : (s.obj o).type = .flag)
    (hn : (s.obj o).pendList.nbrEntries ≠ 0) (hhead : (s.obj o).pendList.headPtr = some d)
    (htcb : (s.pendData d).tcbPtr = some t) (hst : (s.tcb t).taskState = .pendTimeout)
    (hrdy : flagsReady ((s.tcb t).flagsOpt &&& optPendFlagMask) ((s.obj o).flags ||| flags) (s.tcb t).flagsPend =
      some (g, true))
    (hspoke : (s.tcb t).tickSpokePtr = some i) (hprev : (s.tcb t).tickPrevPtr = none)
    (hfirst : (s.tickWheel i).firstPtr ≠ some t) :
    wp n cfg (osFlagPost (some o) flags opt) (fun _ _ => False) s := by
  subst hset
  rw [osFlagPost, wp_ite]
  refine ⟨fun hno => absurd hno (by decide), fun _ => ?_⟩
  rw [wp_bind, wp_getObj, wp_ite]
  refine ⟨fun hno => absurd ho hno, fun _ => ?_⟩
  rw [wp_bind, wp_tsGet, flagPost, if_pos (.inl rfl), wp_bind, wp_modObj, wp_bind, wp_getObj, wp_ite, OS.modObj_obj, if_pos rfl]
  refine ⟨fun h0 => absurd h0 hn, fun _ => ?_⟩
  rw [wp_bind, wp_deref, hhead]
  rintro _ ⟨⟩
  rw [wp_bind]
  refine wp_loop (fun p s' => p = some d ∧ s' = s.modObj o fun b => { b with flags := b.flags ||| flags, ts := s.tsNow })
    ?_ ⟨rfl, rfl⟩
  rintro _ _ ⟨rfl, rfl⟩
  have hobj : ((s.modObj o fun b => { b with flags := b.flags ||| flags, ts := s.tsNow }).obj o).flags =
      (s.obj o).flags ||| flags := by rw [OS.modObj_obj, if_pos rfl]
  have hpd : ((s.modObj o fun b => { b with flags := b.flags ||| flags, ts := s.tsNow }).pendData d).tcbPtr = some t := htcb
  have htask : (s.modObj o fun b => { b with flags := b.flags ||| flags, ts := s.tsNow }).tcb t = s.tcb t := rfl
  rw [flagPostStep, wp_bind, wp_getPendData, hpd]
  dsimp only
  rw [wp_bind, wp_getTcb, wp_bind, wp_getObj, hobj, htask, hrdy]
  dsimp only
  rw [wp_bind, flagTaskRdy, wp_bind, wp_modTcb, wp_bind, wp_getTcb, OS.modTcb_tcb, if_pos rfl, htask]
  dsimp only
  rw [hst]
  dsimp only
  rw [wp_bind, taskRdy, wp_bind]
  refine (tickListRemove_faults (i := i) ?_ ?_ ?_).mono fun _ _ h => h.elim
  · rw [OS.modTcb_tcb, if_pos rfl]
    exact hspoke
  · rw [OS.modTcb_tcb, if_pos rfl]
    exact hprev
  · exact hfirst

/-- Task 5 waits for bit 0 for 34 ticks, behind task 4 on its spoke, and is suspended. A post ends its wait and leaves it on
the spoke, where its control block is set up again. The wait of task 4 is then lost from the spoke, and the post that is to
end it follows a null pointer. -/
theorem flagPost_leaves_waiter : ∃ h s, CodeRun Cfg.repository (fun _ x => ¬ PassedMatch Cfg.repository x.pre x.event) h s ∧
    (s.obj 0).type = .flag ∧ Enabled s (.call (.flagPost (some 0) 2 optPostFlagSet)) ∧ 4 ∈ s.pendTasks 0 ∧
    (s.tcb 4).Satisfied (postedFlags optPostFlagSet (s.obj 0).flags 2) ∧
    ∀ n, (osFlagPost (some 0) 2 optPostFlagSet).run .word n Cfg.repository s = none := by
  obtain ⟨h, s, run, -, ho, he, hmem, hsat, hn, hhead, htcb, hst, hrdy, hspoke, hprev, hfirst⟩ :=
    RunIn.of_play .word Cfg.repository
    (fun _ x => ¬ PassedMatch Cfg.repository x.pre x.event) 60
    (fun _ s => (s.obj 0).type = .flag ∧ Enabled s (.call (.flagPost (some 0) 2 optPostFlagSet)) ∧ 4 ∈ s.pendTasks 0 ∧
      (s.tcb 4).Satisfied (postedFlags optPostFlagSet (s.obj 0).flags 2) ∧ (s.obj 0).pendList.nbrEntries ≠ 0 ∧
      (s.obj 0).pendList.headPtr = some (4, 0) ∧ (s.pendData (4, 0)).tcbPtr = some 4 ∧
      (s.tcb 4).taskState = .pendTimeout ∧
      flagsReady ((s.tcb 4).flagsOpt &&& optPendFlagMask) ((s.obj 0).flags ||| 2) (s.tcb 4).flagsPend = some (2, true) ∧
      (s.tcb 4).tickSpokePtr = some 0 ∧ (s.tcb 4).tickPrevPtr = none ∧ (s.tickWheel 0).firstPtr ≠ some 4)
    [.newTask 4 5, .newTask 5 6, .newTask 6 7, .newTask 7 8, .call (.flagCreate (some 0) 0), .start,
      .call (.flagPend (some 0) 2 17 optPendFlagSetAll), .call (.flagPend (some 0) 1 34 optPendFlagSetAll),
      .call (.taskSuspend (some 5)), .call (.flagPost (some 0) 1 optPostFlagSet), .finish, .call (.taskDel (some 5)),
      .newTask 5 6, .call (.flagPend (some 0) 4 40 optPendFlagSetAll), .call (.flagPend (some 0) 8 34 optPendFlagSetAll)]
    (by decide +kernel)
  refine ⟨h, s, run, ho, he, hmem, hsat, fun n => ?_⟩
  cases hx : (osFlagPost (some 0) 2 optPostFlagSet).run .word n Cfg.repository s with
  | none => rfl
  | some x => exact (osFlagPost_faults (n := ⟨.word, n⟩) rfl ho hn hhead htcb hst hrdy hspoke hprev hfirst x.1 x.2 hx).elim

end fault

end UcosIII
