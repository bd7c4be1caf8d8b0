import UcosIII.Runs.Letters
import UcosIII.Runs.Preemption
import UcosIII.Runs.TickWheel
import UcosIII.Runs.Tokens
import UcosIII.Runs.Waking

namespace UcosIII

open Prog Chain

variable {n N : ℕ} {cfg : Cfg} {s s' : OS} {a a' b : Abs} {t u : TcbId} {o : ObjId} {d : PdId} {e : Event} {r : Option Ret}
  {h : List Step} {V : ℕ → List TcbId} {p : Option TcbId} {C : Option QLoc → List MsgId}

def TCB.apart (c : TCB) : TCB := { c with nextPtr := none, prevPtr := none, tickNextPtr := none, tickPrevPtr := none }

def OS.spokeTasks (s : OS) (i : ℕ) : List TcbId := walk s.tickNext (s.tickWheel i).nbrEntries (s.tickWheel i).firstPtr

/-- What a step has left as it was that concerns `t` alone: of the other tasks everything but their links, of the objects
and the entries everything but the pend lists; and the lists are well formed, without `t`. -/
structure Untouched (cfg : Cfg) (s s' : OS) (t : TcbId) : Prop where
  tcb : ∀ u, u ≠ t → (s'.tcb u).apart = (s.tcb u).apart ∧ s'.cont u = s.cont u
  obj : ∀ o, (s'.obj o).noPend = (s.obj o).noPend
  pendData : ∀ d, (s'.pendData d).noPend = (s.pendData d).noPend
  tickCtr : s'.tickCtr = s.tickCtr
  queues : ∀ l, l ≠ .tcb t → s'.queued l = s.queued l ∧ s'.letters l = s.letters l
  rdy : ∀ p < cfg.prioMax, Listed s'.rdyNext s'.rdyPrev (s'.rdyList p).headPtr (s'.rdyList p).tailPtr
    (s'.rdyList p).nbrEntries ((s.rdyTasks p).erase t)
  wheel : ∀ i < cfg.tickWheelSize, ∃ tail, Listed s'.tickNext s'.tickPrev (s'.tickWheel i).firstPtr tail
    (s'.tickWheel i).nbrEntries ((s.spokeTasks i).erase t)
  pend : ∀ o, Listed s'.pdNext s'.pdPrev (s'.obj o).pendList.headPtr (s'.obj o).pendList.tailPtr
    (s'.obj o).pendList.nbrEntries ((s.pendEntries o).filter (·.1 ≠ t))

/-- Nothing is left of the task `t`, and everything else is there. -/
structure LeavesNothing (cfg : Cfg) (s s' : OS) (t : TcbId) : Prop where
  state : (s'.tcb t).taskState = .del
  ready : ∀ p < cfg.prioMax, ∀ k, s'.rdyAt p k ≠ some t
  wheel : ∀ i < cfg.tickWheelSize, ∀ k, s'.spokeAt i k ≠ some t
  pend : ∀ o k d, s'.pendAt o k = some d → d.1 ≠ t ∧ (s'.pendData d).tcbPtr ≠ some t
  owner : ∀ o, (s'.obj o).type = .mutex → (s'.obj o).ownerTCBPtr ≠ some t
  queue : s'.queued (.tcb t) = [] ∧ ∀ m ∈ s.queued (.tcb t), m ∈ s'.freeMsgs
  others : Untouched cfg s s' t
  held : ∀ o, (s.obj o).type = .mutex → (s.obj o).ownerTCBPtr = some t →
    ∀ u ∈ (s'.obj o).ownerTCBPtr, (s'.tcb u).taskState ≠ .del

def OS.OwnsMutex (s : OS) (t : TcbId) : Prop := ∃ o, (s.obj o).type = .mutex ∧ (s.obj o).ownerTCBPtr = some t

section frame

def OS.beside (t : TcbId) (s : OS) : (TcbId → Option (TCB × Cont)) × (ObjId → Obj) × (PdId → PendData) × Tick :=
  (fun u => if u = t then none else some ((s.tcb u).apart, s.cont u), fun o => (s.obj o).noPend,
    fun d => (s.pendData d).noPend, s.tickCtr)

theorem OS.beside_modTcb {f : TCB → TCB} (hf : u ≠ t → (f (s.tcb u)).apart = (s.tcb u).apart) :
    (s.modTcb u f).beside t = s.beside t := by
  simp only [OS.beside, Prod.mk.injEq]
  refine ⟨funext fun x => ?_, rfl, rfl, rfl⟩
  by_cases hx : x = t
  · rw [if_pos hx, if_pos hx]
  · rw [if_neg hx, if_neg hx, OS.modTcb_tcb]
    by_cases hxu : x = u
    · subst hxu
      rw [if_pos rfl, hf hx]
      rfl
    · rw [if_neg hxu]
      rfl

theorem keeps_beside_rdyListRemove : Keeps (OS.beside t) (rdyListRemove t) := by
  intro n cfg s
  refine (keeps_rdyListRemove t n cfg s).mono fun _ s' hs => ?_
  exact (congrArg (OS.beside t) hs :)

theorem keeps_beside_tickListRemove : Keeps (OS.beside t) (tickListRemove t) := by
  have hself (s : OS) (f : TCB → TCB) : (s.modTcb t f).beside t = s.beside t :=
    OS.beside_modTcb fun h => absurd rfl h
  have hnext (s : OS) (x : TcbId) (p : Option TcbId) :
      (s.modTcb x fun c => { c with tickNextPtr := p }).beside t = s.beside t :=
    OS.beside_modTcb fun _ => rfl
  have hprev (s : OS) (x : TcbId) (p : Option TcbId) :
      (s.modTcb x fun c => { c with tickPrevPtr := p }).beside t = s.beside t :=
    OS.beside_modTcb fun _ => rfl
  have hspoke (s : OS) (i : ℕ) (f : TickSpoke → TickSpoke) : (s.modSpoke i f).beside t = s.beside t := rfl
  intro n cfg s
  simp only [tickListRemove, wp_bind, wp_getTcb]
  split
  · rw [wp_pure]
  · simp only [wp_bind, wp_modTcb, wp_getTcb, wp_getSpoke, wp_ite, wp_modSpoke, wp_deref]
    refine ⟨fun _ => ?_, fun _ t1 _ => ?_⟩ <;> split <;>
      simp only [wp_bind, wp_modTcb, wp_decSpoke, hself, hnext, hprev, hspoke]

theorem keeps_beside_pendListRemove : Keeps (OS.beside t) (pendListRemove t) := by
  intro n cfg s
  refine pendListRemove_frame.mono fun _ s' hs => ?_
  have hbeside : s'.beside t = (s.modTcb t TCB.noTable).beside t := (congrArg (OS.beside t) hs :)
  exact hbeside.trans (OS.beside_modTcb fun h => absurd rfl h)

theorem keeps_beside_taskUnlink : Keeps (OS.beside t) (taskUnlink t) := by
  rw [taskUnlink]
  refine keeps_bind (keeps_getTcb t) fun c => ?_
  cases c.taskState with
  | rdy => exact keeps_beside_rdyListRemove
  | suspended | del => exact keeps_pure _
  | dly | dlySuspended => exact keeps_beside_tickListRemove
  | pend | pendSuspended | pendTimeout | pendTimeoutSuspended =>
    refine keeps_bind keeps_beside_tickListRemove fun _ => ?_
    cases c.pendOn with
    | nothing | taskQ | taskSem => exact keeps_pure _
    | flag | multi | mutex | q | sem => exact keeps_beside_pendListRemove

theorem keeps_beside_taskErase : Keeps (OS.beside t) (taskErase t) := by
  have hself (s : OS) (f : TCB → TCB) : (s.modTcb t f).beside t = s.beside t :=
    OS.beside_modTcb fun h => absurd rfl h
  rw [taskErase]
  refine keeps_bind keeps_beside_taskUnlink fun _ => keeps_bind (keeps_getTcb t) fun c => ?_
  refine keeps_bind ((keeps_noMsgs_msgQFreeAll c.msgQ).comp (OS.beside t)) fun _ => ?_
  refine keeps_bind (keeps_bind keeps_ask fun _ => keeps_modify fun s => hself s _) fun _ => ?_
  refine keeps_bind (keeps_modify fun s => hself s _) fun _ => keeps_modify fun s => ?_
  refine Prod.ext (funext fun x => ?_) rfl
  simp only [OS.beside]
  by_cases hx : x = t
  · rw [if_pos hx, if_pos hx]
  · rw [if_neg hx, if_neg hx, Function.update_of_ne hx]

end frame

section deletion

theorem taskErase_wheel (hV : WheelLists cfg s V) (hoff : (s.tcb t).taskState.isTimed = false → ∀ i, t ∉ V i) :
    wp n cfg (taskErase t) (fun _ s' => WheelLists cfg s' fun i => (V i).erase t) s := by
  have hkeep (hst : (s.tcb t).taskState.isTimed = false) : (fun i => (V i).erase t) = V := by
    funext i
    exact List.erase_of_not_mem (hoff hst i)
  have hgone : ∀ i, t ∉ (V i).erase t := fun i hi => ((hV.nodup i).mem_erase_iff.mp hi).1 rfl
  have hunlink : wp n cfg (taskUnlink t) (fun _ s' => WheelLists cfg s' fun i => (V i).erase t) s := by
    rw [taskUnlink, wp_bind, wp_getTcb]
    cases hs : (s.tcb t).taskState with
    | rdy =>
      rw [hkeep (by rw [hs]; rfl)]
      exact (keeps_rdyListRemove t n cfg s).mono fun _ s' h' => hV.congr (.of_noRdy h')
    | suspended | del =>
      rw [hkeep (by rw [hs]; rfl)]
      exact wp_pure.mpr hV
    | dly | dlySuspended => exact tickListRemove_lists hV
    | pend | pendSuspended | pendTimeout | pendTimeoutSuspended =>
      dsimp only
      rw [wp_bind]
      refine (tickListRemove_lists hV).mono fun _ s₁ h₁ => ?_
      cases (s.tcb t).pendOn with
      | nothing | taskQ | taskSem => exact wp_pure.mpr h₁
      | flag | multi | mutex | q | sem => exact pendListRemove_sameWheel.mono fun _ s₂ h₂ => h₁.congr h₂
  rw [taskErase, wp_bind]
  refine hunlink.mono fun _ s₁ h₁ => ?_
  rw [wp_bind, wp_getTcb, wp_bind]
  refine (keeps_noMsgs_msgQFreeAll (s₁.tcb t).msgQ n cfg s₁).mono fun _ s₂ hs₂ => ?_
  have hsame : SameWheel s₁ s₂ := by
    refine ⟨fun x => ?_, fun x => ?_, fun x => ?_, fun x => ?_, fun i => ?_⟩
    · exact (congrArg (fun y : OS => y.tickNext x) hs₂ :)
    · exact (congrArg (fun y : OS => y.tickPrev x) hs₂ :)
    · exact (congrArg (fun y : OS => y.tickSpoke x) hs₂ :)
    · exact (congrArg (fun y : OS => y.tickDue x) hs₂ :)
    · exact (congrArg (fun y : OS => y.tickWheel i) hs₂ :)
  rw [wp_bind, taskInitTCB, wp_bind, wp_ask, wp_modTcb, wp_bind, wp_modTcb, wp_modify]
  have h₃ : WheelLists cfg (OS.modTcb s₂ t fun _ => TCB.init cfg) fun i => (V i).erase t :=
    (h₁.congr hsame).modTcb_off hgone rfl
  have h₄ : WheelLists cfg ((OS.modTcb s₂ t fun _ => TCB.init cfg).modTcb t fun c => { c with taskState := .del })
      fun i => (V i).erase t := h₃.congr (.modTcb rfl rfl rfl rfl)
  exact h₄.congr ⟨fun _ => rfl, fun _ => rfl, fun _ => rfl, fun _ => rfl, fun _ => rfl⟩

theorem osTaskDel_then {Q : OS → Prop} (hQ : ∀ t, s.Target p t → wp n cfg (taskErase t) (fun _ s' => Q s') s)
    (hsched : ∀ s₁, Q s₁ → wp n cfg osSched (fun _ s' => Q s') s₁) :
    wp n cfg (osTaskDel p) (fun x s' => x = .none → Q s') s := by
  rw [osTaskDel, wp_bind, wp_get]
  refine wp_ite.mpr ⟨fun _ => wp_pure.mpr (by simp), fun _ => wp_ite.mpr ⟨fun _ => wp_pure.mpr (by simp), fun _ => ?_⟩⟩
  rw [wp_bind, wp_target]
  intro t ht
  rw [wp_bind, wp_getTcb]
  refine wp_ite.mpr ⟨fun _ => wp_pure.mpr (by simp), fun _ => ?_⟩
  rw [wp_bind]
  refine (hQ t ht).mono fun _ s₁ h₁ => ?_
  rw [wp_bind]
  exact (hsched s₁ h₁).mono fun _ s₂ h₂ => wp_pure.mpr fun _ => h₂

theorem osTaskDel_wheel (hV : WheelLists cfg s V) (hoff : (s.tcb t).taskState.isTimed = false → ∀ i, t ∉ V i)
    (ht : s.Target p t) : wp n cfg (osTaskDel p) (fun x s' => x = .none → WheelLists cfg s' fun i => (V i).erase t) s := by
  refine osTaskDel_then (fun u hu => ?_) fun s₁ h₁ => ?_
  · obtain rfl : u = t := hu.unique ht
    exact taskErase_wheel hV hoff
  · refine (keeps_osSched (v := fun s => (s.tcb, s.tickWheel)) (fun _ _ _ => rfl)
      (fun _ _ _ => rfl) n cfg s₁).mono fun _ s₂ h₂ => ?_
    have htcb : s₂.tcb = s₁.tcb := congrArg Prod.fst h₂
    have hwheel : s₂.tickWheel = s₁.tickWheel := congrArg Prod.snd h₂
    refine h₁.congr ⟨fun x => ?_, fun x => ?_, fun x => ?_, fun x => ?_, fun i => ?_⟩
    · exact (congrArg (fun f : TcbId → TCB => (f x).tickNextPtr) htcb :)
    · exact (congrArg (fun f : TcbId → TCB => (f x).tickPrevPtr) htcb :)
    · exact (congrArg (fun f : TcbId → TCB => (f x).tickSpokePtr) htcb :)
    · exact (congrArg (fun f : TcbId → TCB => (f x).tickCtrMatch) htcb :)
    · rw [hwheel]

theorem osTaskDel_beside (ht : s.Target p t) :
    wp n cfg (osTaskDel p) (fun x s' => x = .none → s'.beside t = s.beside t) s := by
  refine osTaskDel_then (fun u hu => ?_) fun s₁ h₁ => ?_
  · obtain rfl : u = t := hu.unique ht
    exact keeps_beside_taskErase n cfg s
  · refine (keeps_osSched (v := OS.beside t) (fun _ _ _ => rfl) (fun _ _ _ => rfl) n cfg s₁).mono fun _ s₂ h₂ => ?_
    exact Eq.trans h₂ h₁

theorem osTaskDel_rep (h : Rep cfg s a) (hI : a.Sound cfg) (ht : s.Target p t) :
    wp n cfg (osTaskDel p) (fun x s' => x = .none → ∃ a', Rep cfg s' a' ∧ (a.erase t cfg.prioMax).Sched a') s := by
  rw [osTaskDel, wp_bind, wp_get]
  refine wp_ite.mpr ⟨fun _ => wp_pure.mpr (by simp), fun _ => wp_ite.mpr ⟨fun _ => wp_pure.mpr (by simp), fun _ => ?_⟩⟩
  rw [wp_bind, wp_target]
  intro u hu
  obtain rfl : u = t := hu.unique ht
  rw [wp_bind, wp_getTcb]
  refine wp_ite.mpr ⟨fun _ => wp_pure.mpr (by simp), fun _ => ?_⟩
  rw [wp_bind]
  refine (taskErase_spec h hI).mono fun _ s₁ h₁ => ?_
  rw [wp_bind]
  refine (osSched_spec h₁).mono ?_
  rintro _ s' ⟨a', h', hs⟩
  exact wp_pure.mpr fun _ => ⟨a', h', hs⟩

end deletion

section lists

namespace Abs

theorem Sound.ready_unlink (hI : a.Sound cfg) (t : TcbId) (p : ℕ) : (a.unlink t).ready p = (a.ready p).erase t := by
  have hout (hs : (a.task t).state ≠ .rdy) : (a.ready p).erase t = a.ready p :=
    List.erase_of_not_mem (hI.ready.not_mem hs p)
  rw [unlink]
  cases hs : (a.task t).state with
  | rdy =>
    simp only [dequeue, setReady, Function.update_apply]
    split
    · rename_i hp
      rw [hp]
    · rename_i hp
      symm
      apply List.erase_of_not_mem
      intro hm
      exact hp ((hI.ready t p).mp hm).2.symm
  | suspended | del | dly | dlySuspended | pend | pendTimeout | pendSuspended | pendTimeoutSuspended =>
    exact (hout (by rw [hs]; simp)).symm

theorem Sound.waiting_unlink (hI : a.Sound cfg) (t : TcbId) (o : ObjId) :
    (a.unlink t).waiting o = (a.waiting o).filter fun d => d.1 ≠ t := by
  have hout (hp : (a.task t).state.isPend = false) : ((a.waiting o).filter fun d => d.1 ≠ t) = a.waiting o := by
    rw [List.filter_eq_self]
    intro d hd
    rw [decide_eq_true_eq]
    rintro rfl
    exact hI.wait.not_mem hp o d.2 hd
  have hunpend : (a.unpend t).waiting o = (a.waiting o).filter fun d => d.1 ≠ t := by
    apply List.filter_congr
    intro d hd
    exact decide_eq_decide.mpr (not_congr (hI.mem_table hd t))
  rw [unlink]
  cases hs : (a.task t).state with
  | rdy | suspended | del => exact (hout (by rw [hs]; rfl)).symm
  | dly | dlySuspended | pend | pendTimeout | pendSuspended | pendTimeoutSuspended => exact hunpend

end Abs

theorem Ready.del_untouched (H : Ready cfg s a) (hW : a.WheelOk) (hM : s.Msgs N C) (ht : s.Target p t)
    (hx : Runs cfg (osTaskDel p) s .none s') : Untouched cfg s s' t ∧ s'.Msgs N (freed C (.tcb t)) ∧
      ∃ a', Rep cfg s' a' ∧ a'.task t = { Task.fresh cfg.prioMax with state := .del } ∧
        (∀ q, t ∉ a'.ready q) ∧ (∀ o, ∀ d ∈ a'.waiting o, d.1 ≠ t) ∧ a'.entry = a.entry := by
  obtain ⟨V, hV, hon⟩ := H.rep.wheel hW.ok
  have hoff : (s.tcb t).taskState.isTimed = false → ∀ i, t ∉ V i := by
    intro hst i hi
    have htw := (hon t).mpr ⟨i, hi⟩
    rw [hW.iff, ← H.rep.state, hst] at htw
    cases htw
  have hwheel := (hx.wp fun n => osTaskDel_wheel hV hoff ht) rfl
  have hbeside := (hx.wp fun n => osTaskDel_beside ht) rfl
  obtain ⟨a', h', hs⟩ := (hx.wp fun n => osTaskDel_rep H.rep H.sound ht) rfl
  have hmsgs := hx.wp fun n => osTaskDel_msgs hM p
  rw [if_pos rfl] at hmsgs
  obtain ⟨u, hu, hitem, hM'⟩ := hmsgs
  obtain rfl : u = t := hu.unique ht
  have hready (q : ℕ) : a'.ready q = (a.ready q).erase u := by
    rw [hs.ready]
    exact H.sound.ready_unlink u q
  have hwaiting (o : ObjId) : a'.waiting o = (a.waiting o).filter fun d => d.1 ≠ u := by
    rw [hs.waiting]
    exact H.sound.waiting_unlink u o
  have hentry : a'.entry = a.entry := by
    have he : (a.erase u cfg.prioMax).entry = a.entry := a.entry_unlink u
    rw [← he]
    obtain ⟨-, rfl⟩ | ⟨-, rfl⟩ | ⟨-, -, q, x, -, rfl⟩ := hs <;> rfl
  refine ⟨⟨fun x hxu => ?_, fun o => ?_, fun d => ?_, ?_, fun l hl => ?_, fun q hq => ?_, fun i hi => ?_, fun o => ?_⟩, hM',
    a', h', ?_, fun q hq => ?_, fun o d hd => ?_, hentry⟩
  · have hone := congrFun (congrArg Prod.fst hbeside) x
    simpa only [OS.beside, if_neg hxu, Option.some.injEq, Prod.mk.injEq] using hone
  · exact congrFun (congrArg (fun x => x.2.1) hbeside) o
  · exact congrFun (congrArg (fun x => x.2.2.1) hbeside) d
  · exact congrArg (fun x => x.2.2.2) hbeside
  · have hC : freed C (.tcb u) (some l) = C (some l) := by rw [freed_some, if_neg hl]
    rw [hM'.queued, hM.queued, hM'.letters, hM.letters, hC, hitem]
    exact ⟨rfl, rfl⟩
  · rw [H.rep.rdyTasks_eq hq, ← hready]
    exact h'.rdy.lists.list q hq
  · obtain ⟨tail, hl⟩ := hV.list i hi
    have hspoke : s.spokeTasks i = V i := hl.walk_eq
    rw [hspoke]
    exact hwheel.list i hi
  · rw [H.rep.pendEntries_eq, ← hwaiting]
    exact h'.pend.list o
  · rw [hs.task, Abs.task_erase, if_pos rfl]
  · rw [hready] at hq
    exact ((H.rep.nodup q).mem_erase_iff.mp hq).1 rfl
  · rw [hwaiting] at hd
    simpa using (List.mem_filter.mp hd).2

end lists

section runs

/-- The step is no delay to a tick that has passed, no flag post that leaves a task on the wheel, and sets up no queue that
holds messages. -/
def Tidy (cfg : Cfg) (s : OS) (e : Event) : Prop := ¬ PassedMatch cfg s e ∧ ¬ FlagHit s e ∧ e.spills s = false

theorem OS.Msgs.freeMsgs (h : s.Msgs N C) : s.freeMsgs = C none := by
  rw [OS.freeMsgs, h.nbrFree]
  exact h.free.walk_eq

/-- In every run, a deletion that is granted leaves nothing of the task behind if and only if the task owns no mutex. -/
theorem run_deletes (run : CodeRun cfg (fun _ x => Tidy cfg x.pre x.event) h s) (hfit : NoWrap cfg h)
    (ht : s.Target p t) (hf : Fits cfg (Event.call (.taskDel p)).exec s)
    (hx : RunsIn .word cfg (Event.call (.taskDel p)).exec s r s') (hg : granted r = true) :
    LeavesNothing cfg s s' t ↔ ¬ s.OwnsMutex t := by
  replace run : Run cfg _ h s := run.fits hfit .nat
  replace hx := hx.fits hf .nat
  obtain ⟨a, H, hW⟩ := run.invariant (I := fun _ => Abs.WheelOk) (fun _ _ => And.left) Abs.wheelOk_init
    fun _ _ _ _ _ _ H hW _ hk hstep => hstep.wheelOk H hk.1 hk.2.1 hW
  obtain ⟨C, hM⟩ := (run_posted run fun _ _ hk => ⟨hk.1, hk.2.2⟩).mailed
  have hx' : Runs cfg (osTaskDel p) s .none s' := by
    obtain ⟨n, hn⟩ := hx
    obtain ⟨⟨x, s₁⟩, hdel, hret⟩ := Option.bind_eq_some_iff.mp hn
    obtain ⟨rfl, rfl⟩ := Prod.mk.inj (Option.some.inj hret)
    have hx : x = .none := by simpa [granted] using hg
    exact ⟨n, hx ▸ hdel⟩
  obtain ⟨hU, hM', a', h', htask, hready, hwaiting, hentry⟩ := H.del_untouched hW hM ht hx'
  have hsame (o : ObjId) : (s'.obj o).type = (s.obj o).type ∧ (s'.obj o).ownerTCBPtr = (s.obj o).ownerTCBPtr := by
    have hobj := hU.obj o
    exact ⟨(congrArg Obj.type hobj :), (congrArg Obj.ownerTCBPtr hobj :)⟩
  have hstate : (s'.tcb t).taskState = .del := by
    have hview := (h'.task t).symm.trans htask
    exact (congrArg Task.state hview :)
  constructor
  · rintro hL ⟨o, ho, hown⟩
    exact hL.owner o ((hsame o).1.trans ho) ((hsame o).2.trans hown)
  · intro hno
    refine ⟨hstate, fun q hq k hk => ?_, fun i hi k hk => ?_, fun o k d hk => ?_, fun o ho hown => ?_, ⟨?_, fun m hm => ?_⟩, hU,
      fun o ho hown => (hno ⟨o, ho, hown⟩).elim⟩
    · exact hready q ((h'.rdyAt_iff hq).mp ⟨k, hk⟩)
    · obtain ⟨tail, hl⟩ := hU.wheel i hi
      obtain ⟨V, hV, -⟩ := H.rep.wheel hW.ok
      obtain ⟨_, hl₀⟩ := hV.list i hi
      have hmem : t ∈ (s.spokeTasks i).erase t := hl.chainAt_some.mp ⟨k, hk⟩
      rw [OS.spokeTasks, hl₀.walk_eq] at hmem
      exact ((hV.nodup i).mem_erase_iff.mp hmem).1 rfl
    · have hmem := (h'.pendAt_iff o d).mp ⟨k, hk⟩
      have hd := hwaiting o d hmem
      refine ⟨hd, fun htcb => hd ?_⟩
      have hback : (s.pendData d).tcbPtr = some d.1 := by
        have hin : d ∈ (s.pendEntries o).filter (·.1 ≠ t) := (hU.pend o).chainAt_some.mp ⟨k, hk⟩
        rw [H.rep.pendEntries_eq] at hin
        exact H.rep.tcbPtr H.sound (List.mem_filter.mp hin).1
      have hkept : (s'.pendData d).tcbPtr = (s.pendData d).tcbPtr := (congrArg PendData.tcbPtr (hU.pendData d) :)
      rw [hkept, hback] at htcb
      exact Option.some.inj htcb
    · exact hno ⟨o, (hsame o).1.symm.trans ho, (hsame o).2.symm.trans hown⟩
    · rw [hM'.queued, freed_some, if_pos rfl]
    · rw [hM.queued] at hm
      rw [hM'.freeMsgs, freed, Function.update_self]
      exact List.mem_append_left _ hm

theorem Run.no_mutex {P : List Step → Step → Prop} (run : Run cfg P h s) (hP : ∀ h x, P h x → ¬ PassedMatch cfg x.pre x.event)
    (hno : ∀ h x, P h x → ∀ o, x.event ≠ .call (.mutexCreate (some o))) (o : ObjId) : (s.obj o).type ≠ .mutex := by
  refine (run.files_init (I := fun _ s => ∀ o, (s.obj o).type ≠ .mutex) hP (fun s hx _ o => ?_) ?_).2 o
  · rw [osInit_none hx o]
    simp
  · intro h s a e r s' a' _ hI _ hk hx _ _ _ o
    have hD : e.Deals s r s' := hx.wp fun n => Event.exec_deals e
    rcases hD.count o with ⟨c, k, rfl, hc, -, htype, -⟩ | ⟨htype, -⟩
    · intro hm
      have hm' : k = .mutex := htype.symm.trans hm
      subst hm'
      cases c with
      | mutexCreate p =>
        cases p with
        | none => cases hc
        | some o' => exact hno _ _ hk o' rfl
      | _ => simp [Call.creates] at hc
    · intro hm
      exact hI o (htype.symm.trans hm)

/-- Task 4, which has a message in its queue, is deleted while it waits on a semaphore with a timeout. -/
theorem run_deletes_waiting : ∃ h s s', CodeRun Cfg.repository (fun _ x => Tidy Cfg.repository x.pre x.event) h s ∧
    NoWrap Cfg.repository h ∧ (s.tcb 4).taskState = .pendTimeout ∧ s.letters (.tcb 4) ≠ [] ∧
    LeavesNothing Cfg.repository s s' 4 := by
  let script : List Event :=
    [.call (.taskCreate
      { tcb := some 4, hasTask := true, prio := 5, hasStk := true, stkLimit := 10, stkSize := 100, qSize := 3,
        timeQuanta := 0 }), .newTask 5 6, .call (.semCreate (some 0) 0), .start,
      .call (.semPend (some 0) 10 optPendBlocking), .call (.taskQPost (some 4) (some 77) 4 optPostFifo)]
  obtain ⟨h, s, run, hfit, hst, hq, hx⟩ := RunIn.of_play .word Cfg.repository
    (fun _ x => ¬ PassedMatch Cfg.repository x.pre x.event ∧ x.event.postsFlags = false ∧ x.event.spills x.pre = false ∧
      x.event ∈ script) 60
    (fun _ s => (s.tcb 4).taskState = .pendTimeout ∧ s.letters (.tcb 4) ≠ [] ∧
      (((Event.call (.taskDel (some 4))).exec.checked 60 Cfg.repository s).join.any fun y => granted y.1) = true)
    script (by decide +kernel)
  have run' : CodeRun Cfg.repository (fun _ x => Tidy Cfg.repository x.pre x.event) h s :=
    run.mono fun _ _ hk => ⟨hk.1, not_flagHit hk.2.1, hk.2.2.1⟩
  have hno : ∀ o, (s.obj o).type ≠ .mutex := by
    refine Run.no_mutex (run.fits hfit .nat) (fun _ _ hk => hk.1) fun _ x hk o he => ?_
    have hmem := hk.2.2.2
    rw [he] at hmem
    simp [script, Event.newTask] at hmem
  obtain ⟨x, s', hx, hf, hg⟩ := runsIn_of_any hx .word
  refine ⟨h, s, s', run', hfit, hst, hq, (run_deletes run' hfit (.inl rfl) hf hx hg).mpr ?_⟩
  rintro ⟨o, ho, -⟩
  exact hno o ho

/-- Task 4 deletes itself while it owns the mutex. It goes on owning it, and task 5 cannot have it. -/
theorem taskDel_keeps_mutex : ∃ h s s' s'', CodeRun Cfg.repository (fun _ x => Tidy Cfg.repository x.pre x.event) h s ∧
    s.tcbCurPtr = some 4 ∧ RunsIn .word Cfg.repository (Event.call (.taskDel none)).exec s (some { err := .none }) s' ∧
    ¬ LeavesNothing Cfg.repository s s' 4 ∧ s'.tcbCurPtr = some 5 ∧ (s'.tcb 4).taskState = .del ∧
    RunsIn .word Cfg.repository (Event.call (.mutexPend (some 0) 0 optPendNonBlocking)).exec s'
      (some { err := .pendWouldBlock }) s'' := by
  obtain ⟨h, s, run, -, hcur, hown, hx⟩ := RunIn.of_play .word Cfg.repository
    (fun _ x => ¬ PassedMatch Cfg.repository x.pre x.event ∧ x.event.postsFlags = false ∧ x.event.spills x.pre = false) 60
    (fun _ s => s.tcbCurPtr = some 4 ∧ ((s.obj 0).type = .mutex ∧ (s.obj 0).ownerTCBPtr = some 4) ∧
      (((Event.call (.taskDel none)).exec.checked 60 Cfg.repository s).join.any fun y =>
        y.1 = some { err := .none } ∧ y.2.tcbCurPtr = some 5 ∧ (y.2.tcb 4).taskState = .del ∧
          ((Event.call (.mutexPend (some 0) 0 optPendNonBlocking)).exec.checked 60 Cfg.repository y.2).join.any (fun z =>
            z.1 = some { err := .pendWouldBlock }) = true) = true)
    [.newTask 4 5, .newTask 5 6, .call (.mutexCreate (some 0)), .start, .call (.mutexPend (some 0) 0 optPendBlocking)]
    (by decide +kernel)
  have run' : CodeRun Cfg.repository (fun _ x => Tidy Cfg.repository x.pre x.event) h s :=
    run.mono fun _ _ hk => ⟨hk.1, not_flagHit hk.2.1, hk.2.2⟩
  obtain ⟨x, s', hx, -, hr⟩ := runsIn_of_any hx .word
  obtain ⟨hret, hcur', hst, hpend⟩ := of_decide_eq_true hr
  obtain ⟨y, s'', hy, -, hy'⟩ := runsIn_of_any hpend .word
  obtain rfl : x = some { err := .none } := hret
  obtain rfl : y = some { err := .pendWouldBlock } := of_decide_eq_true hy'
  refine ⟨h, s, s', s'', run', hcur, hx, fun hL => ?_, hcur', hst, hy⟩
  have hobj := hL.others.obj 0
  refine hL.owner 0 ?_ ?_
  · exact (congrArg Obj.type hobj :).trans hown.1
  · exact (congrArg Obj.ownerTCBPtr hobj :).trans hown.2

end runs

end UcosIII
