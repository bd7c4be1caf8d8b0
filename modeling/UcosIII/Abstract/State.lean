import UcosIII.Lists.Ready
import UcosIII.Lists.Pend
import UcosIII.Lists.Tick

/-!
The kernel without its pointers: what a task is doing, the ready tasks of every priority in order, the
entries that wait on every object in order, and the tasks on the tick wheel. `Rep cfg s a` says that the
variables in `s` stand for the abstract state `a`; data that no decision on tasks depends on are not part
of it. The tick wheel is trusted only while `wheelOk` holds: a task that is set up anew, or inserted
again, while it is still on the wheel cuts the list of its spoke.
-/

namespace UcosIII

open Prog

structure Task where
  state : TaskState
  prio : ℕ
  pendOn : PendOn
  pendStatus : PendStatus
  table : List PdId
  suspendCtr : BitVec 8
  flagsOpt : Opt

structure Entry where
  tcb : Option TcbId
  obj : Option ObjId

structure Sync where
  type : ObjType
  owner : Option TcbId
  ownerPrio : ℕ
  nesting : BitVec 8

structure Abs where
  task : TcbId → Task
  entry : PdId → Entry
  obj : ObjId → Sync
  ready : ℕ → List TcbId
  waiting : ObjId → List PdId
  onWheel : TcbId → Bool
  wheelOk : Bool
  cur : Option TcbId
  prioCur : ℕ
  intNesting : ℕ
  lockNesting : ℕ
  running : Bool
  cont : TcbId → Cont

namespace Abs

def modTask (a : Abs) (t : TcbId) (f : Task → Task) : Abs :=
  { a with task := Function.update a.task t (f (a.task t)) }

def modEntry (a : Abs) (d : PdId) (f : Entry → Entry) : Abs :=
  { a with entry := Function.update a.entry d (f (a.entry d)) }

def modObj (a : Abs) (o : ObjId) (f : Sync → Sync) : Abs :=
  { a with obj := Function.update a.obj o (f (a.obj o)) }

def setReady (a : Abs) (p : ℕ) (L : List TcbId) : Abs := { a with ready := Function.update a.ready p L }

def pdPrio (a : Abs) (d : PdId) : ℕ := (a.task d.1).prio

def enqueueHead (a : Abs) (t : TcbId) : Abs := a.setReady (a.task t).prio (t :: a.ready (a.task t).prio)

def enqueueTail (a : Abs) (t : TcbId) : Abs := a.setReady (a.task t).prio (a.ready (a.task t).prio ++ [t])

def enqueue (a : Abs) (t : TcbId) : Abs :=
  a.setReady (a.task t).prio
    (if (a.task t).prio = a.prioCur then a.ready (a.task t).prio ++ [t] else t :: a.ready (a.task t).prio)

def dequeue (a : Abs) (t : TcbId) : Abs := a.setReady (a.task t).prio ((a.ready (a.task t).prio).erase t)

def toWheel (a : Abs) (t : TcbId) : Abs :=
  { a with onWheel := Function.update a.onWheel t true, wheelOk := a.wheelOk && !a.onWheel t }

def offWheel (a : Abs) (t : TcbId) : Abs := { a with onWheel := Function.update a.onWheel t false }

def resetWheel (a : Abs) (t : TcbId) : Abs := { a with wheelOk := a.wheelOk && !a.onWheel t }

def setCont (a : Abs) (t : TcbId) (k : Cont) : Abs := { a with cont := Function.update a.cont t k }

def unpend (a : Abs) (t : TcbId) : Abs :=
  { a.modTask t fun c => { c with table := [] } with
    waiting := fun o => (a.waiting o).filter (· ∉ (a.task t).table) }

def link (a : Abs) (o : ObjId) (d : PdId) : Abs :=
  { a with waiting := Function.update a.waiting o (insPrio a.pdPrio d (a.waiting o)) }

def repend (a : Abs) (t : TcbId) (prio : ℕ) : Abs :=
  let a' := a.modTask t fun c => { c with prio := prio }
  { a' with waiting := (a.task t).table.foldl (reinsert a'.pdPrio fun d => (a.entry d).obj) a.waiting }

theorem modTask_modTask (a : Abs) (t : TcbId) (f g : Task → Task) :
    (a.modTask t f).modTask t g = a.modTask t fun c => g (f c) := by
  simp only [modTask, Function.update_self, Function.update_idem]

theorem modTask_congr {a : Abs} {t : TcbId} {f g : Task → Task} (h : f (a.task t) = g (a.task t)) :
    a.modTask t f = a.modTask t g := by
  rw [modTask, h, modTask]

end Abs

def TCB.view (c : TCB) : Task where
  state := c.taskState
  prio := c.prio
  pendOn := c.pendOn
  pendStatus := c.pendStatus
  table := c.table
  suspendCtr := c.suspendCtr
  flagsOpt := c.flagsOpt

structure Links where
  nextPtr : Option TcbId
  prevPtr : Option TcbId
  tickNextPtr : Option TcbId
  tickPrevPtr : Option TcbId
  tickSpokePtr : Option ℕ
  tickCtrMatch : Tick

def TCB.links (c : TCB) : Links where
  nextPtr := c.nextPtr
  prevPtr := c.prevPtr
  tickNextPtr := c.tickNextPtr
  tickPrevPtr := c.tickPrevPtr
  tickSpokePtr := c.tickSpokePtr
  tickCtrMatch := c.tickCtrMatch

def PendData.view (e : PendData) : Entry where
  tcb := e.tcbPtr
  obj := e.pendObjPtr

def Obj.view (b : Obj) : Sync where
  type := b.type
  owner := b.ownerTCBPtr
  ownerPrio := b.ownerOriginalPrio
  nesting := b.ownerNestingCtr

def OS.abs (s : OS) (a : Abs) : Abs :=
  { a with
    task := fun t => (s.tcb t).view
    entry := fun d => (s.pendData d).view
    obj := fun o => (s.obj o).view
    cur := s.tcbCurPtr
    prioCur := s.prioCur
    intNesting := s.intNestingCtr
    lockNesting := s.schedLockNestingCtr
    running := s.running
    cont := s.cont }

def OS.globals (s : OS) (a : Abs) : Abs :=
  { a with
    cur := s.tcbCurPtr, prioCur := s.prioCur, intNesting := s.intNestingCtr, lockNesting := s.schedLockNestingCtr,
    running := s.running, cont := s.cont }

def OS.noGlobals (s : OS) : OS :=
  { s with
    tcbCurPtr := none, tcbHighRdyPtr := none, prioCur := 0, prioHighRdy := 0, intNestingCtr := 0,
    schedLockNestingCtr := 0, running := false, cont := fun _ => .none }

def Abs.noGlobals (a : Abs) : Abs :=
  { a with cur := none, prioCur := 0, intNesting := 0, lockNesting := 0, running := false, cont := fun _ => .none }

structure Rep (cfg : Cfg) (s : OS) (a : Abs) : Prop where
  rdy : RdyRep cfg s a.ready
  pend : PendRep s a.waiting
  wheel : a.wheelOk = true → WheelRep cfg s a.onWheel
  abs : s.abs a = a

section quiet

@[grind =] def TCB.key (c : TCB) : TCB :=
  { c with
    timeQuanta := 0, timeQuantaCtr := 0, msgPtr := none, msgSize := 0, msgQ := ⟨none, none, 0, 0, 0⟩, ts := 0,
    semCtr := 0, flagsPend := 0, flagsRdy := 0 }

@[grind =] def PendData.key (e : PendData) : PendData :=
  { e with rdyObjPtr := none, rdyMsgPtr := none, rdyMsgSize := 0, rdyTS := 0 }

@[grind =] def Obj.key (b : Obj) : Obj := { b with ctr := 0, msgQ := ⟨none, none, 0, 0, 0⟩, flags := 0, ts := 0 }

def OS.key (s : OS) : OS :=
  { s with
    tcb := fun t => (s.tcb t).key, obj := fun o => (s.obj o).key, pendData := fun d => (s.pendData d).key,
    msg := fun _ => ⟨none, none, 0, 0⟩, msgPool := ⟨none, 0, 0, 0⟩, tickCtr := 0, tcbHighRdyPtr := none,
    prioHighRdy := 0, schedRoundRobinEn := false, schedRoundRobinDfltTimeQuanta := 0, tmrUpdateCtr := 0,
    tmrUpdateCnt := 0, tsNow := 0 }

end quiet

variable {n : ℕ} {cfg : Cfg} {s s' : OS} {a : Abs} {t t' : TcbId} {d : PdId} {o : ObjId}

namespace Rep

theorem task (h : Rep cfg s a) (t : TcbId) : a.task t = (s.tcb t).view := by rw [← h.abs]; rfl

theorem entry (h : Rep cfg s a) (d : PdId) : a.entry d = (s.pendData d).view := by rw [← h.abs]; rfl

theorem obj (h : Rep cfg s a) (o : ObjId) : a.obj o = (s.obj o).view := by rw [← h.abs]; rfl

theorem cur (h : Rep cfg s a) : a.cur = s.tcbCurPtr := by rw [← h.abs]; rfl

theorem prioCur (h : Rep cfg s a) : a.prioCur = s.prioCur := by rw [← h.abs]; rfl

theorem state (h : Rep cfg s a) (t : TcbId) : (s.tcb t).taskState = (a.task t).state := by rw [h.task]; rfl

theorem prio (h : Rep cfg s a) (t : TcbId) : (s.tcb t).prio = (a.task t).prio := by rw [h.task]; rfl

theorem pendOn (h : Rep cfg s a) (t : TcbId) : (s.tcb t).pendOn = (a.task t).pendOn := by rw [h.task]; rfl

theorem nodup (h : Rep cfg s a) (p : ℕ) : (a.ready p).Nodup := by
  by_cases hp : p < cfg.prioMax
  · exact (h.rdy.lists.list p hp).dlist.nodup
  · rw [h.rdy.lists.beyond p (by omega)]
    exact List.nodup_nil

theorem congr (h : Rep cfg s a) (e : s'.key.noTick = s.key.noTick) (w : SameWheel s s') : Rep cfg s' a := by
  refine ⟨h.rdy.congr ?_ ?_ ?_ ?_, h.pend.congr ?_ ?_ ?_, fun hok => (h.wheel hok).congr w, ?_⟩
  · exact (congrArg OS.rdyNext e :)
  · exact (congrArg OS.rdyPrev e :)
  · exact (congrArg (fun x : OS => x.rdyList) e :)
  · exact (congrArg (fun x : OS => x.prioTbl) e :)
  · exact (congrArg OS.pdNext e :)
  · exact (congrArg OS.pdPrev e :)
  · exact (congrArg OS.pendList e :)
  · exact (congrArg (fun x : OS => x.abs a) e).trans h.abs

theorem of_key (h : Rep cfg s a) (e : s'.key = s.key) : Rep cfg s' a := by
  refine h.congr (congrArg OS.noTick e) ⟨fun x => ?_, fun x => ?_, fun x => ?_, fun x => ?_, fun i => ?_⟩
  · exact (congrArg (fun y : OS => y.tickNext x) e :)
  · exact (congrArg (fun y : OS => y.tickPrev x) e :)
  · exact (congrArg (fun y : OS => y.tickSpoke x) e :)
  · exact (congrArg (fun y : OS => y.tickDue x) e :)
  · exact (congrArg (fun y : OS => y.tickWheel i) e :)

theorem of_noTick {w : TcbId → Bool} {ok : Bool} (h : Rep cfg s a) (e : s'.noTick = s.noTick)
    (hw : ok = true → WheelRep cfg s' w) : Rep cfg s' { a with onWheel := w, wheelOk := ok } := by
  refine ⟨h.rdy.congr ?_ ?_ ?_ ?_, h.pend.congr ?_ ?_ ?_, hw, ?_⟩
  · exact (congrArg OS.rdyNext e :)
  · exact (congrArg OS.rdyPrev e :)
  · exact (congrArg (fun x : OS => x.rdyList) e :)
  · exact (congrArg (fun x : OS => x.prioTbl) e :)
  · exact (congrArg OS.pdNext e :)
  · exact (congrArg OS.pdPrev e :)
  · exact (congrArg OS.pendList e :)
  · rw [← h.abs]
    exact (congrArg (fun x : OS => { x.abs a with onWheel := w, wheelOk := ok }) e :)

theorem of_noRdy {R : ℕ → List TcbId} (h : Rep cfg s a) (hr : RdyRep cfg s' R) (e : s'.noRdy = s.noRdy) :
    Rep cfg s' { a with ready := R } := by
  refine ⟨hr, h.pend.congr ?_ ?_ ?_, fun hok => (h.wheel hok).congr ⟨fun x => ?_, fun x => ?_, fun x => ?_, fun x => ?_,
    fun i => ?_⟩, ?_⟩
  · exact (congrArg OS.pdNext e :)
  · exact (congrArg OS.pdPrev e :)
  · exact (congrArg OS.pendList e :)
  · exact (congrArg (fun y : OS => y.tickNext x) e :)
  · exact (congrArg (fun y : OS => y.tickPrev x) e :)
  · exact (congrArg (fun y : OS => y.tickSpoke x) e :)
  · exact (congrArg (fun y : OS => y.tickDue x) e :)
  · exact (congrArg (fun y : OS => y.tickWheel i) e :)
  · rw [← h.abs]
    exact (congrArg (fun x : OS => { x.abs a with ready := R }) e :)

theorem of_noPend {W : ObjId → List PdId} (h : Rep cfg s a) (hw : PendRep s' W) (e : s'.noPend = s.noPend) :
    Rep cfg s' { a with waiting := W } := by
  refine ⟨h.rdy.congr ?_ ?_ ?_ ?_, hw, fun hok => (h.wheel hok).congr ⟨fun x => ?_, fun x => ?_, fun x => ?_, fun x => ?_,
    fun i => ?_⟩, ?_⟩
  · exact (congrArg OS.rdyNext e :)
  · exact (congrArg OS.rdyPrev e :)
  · exact (congrArg (fun x : OS => x.rdyList) e :)
  · exact (congrArg (fun x : OS => x.prioTbl) e :)
  · exact (congrArg (fun y : OS => y.tickNext x) e :)
  · exact (congrArg (fun y : OS => y.tickPrev x) e :)
  · exact (congrArg (fun y : OS => y.tickSpoke x) e :)
  · exact (congrArg (fun y : OS => y.tickDue x) e :)
  · exact (congrArg (fun y : OS => y.tickWheel i) e :)
  · rw [← h.abs]
    exact (congrArg (fun x : OS => { x.abs a with waiting := W }) e :)

theorem abs_modTcb {f : TCB → TCB} {g : Task → Task} (h : Rep cfg s a) (hv : (f (s.tcb t)).view = g (s.tcb t).view) :
    (s.modTcb t f).abs (a.modTask t g) = a.modTask t g := by
  conv_rhs => rw [← h.abs]
  simp only [OS.abs, Abs.modTask, OS.modTcb, Abs.mk.injEq, and_true]
  funext x
  by_cases hx : x = t
  · subst hx
    simpa using hv
  · simp [hx]

theorem modTcb {f : TCB → TCB} {g : Task → Task} (h : Rep cfg s a) (hl : (f (s.tcb t)).links = (s.tcb t).links)
    (hv : (f (s.tcb t)).view = g (s.tcb t).view) : Rep cfg (s.modTcb t f) (a.modTask t g) := by
  simp only [TCB.links, Links.mk.injEq] at hl
  obtain ⟨hn, hp, htn, htp, hts, htd⟩ := hl
  refine ⟨h.rdy.congr ?_ ?_ rfl rfl, h.pend.congr rfl rfl rfl,
    fun hok => (h.wheel hok).congr (.modTcb htn htp hts htd), h.abs_modTcb hv⟩
  · funext x
    rw [OS.rdyNext_modTcb]
    split
    · subst x
      exact hn
    · rfl
  · funext x
    rw [OS.rdyPrev_modTcb]
    split
    · subst x
      exact hp
    · rfl

theorem modTcb_off {f : TCB → TCB} {g : Task → Task} (h : Rep cfg s a) (ht : ∀ q, t ∉ a.ready q)
    (hsp : (f (s.tcb t)).tickSpokePtr = none) (hv : (f (s.tcb t)).view = g (s.tcb t).view) :
    Rep cfg (s.modTcb t f) ((a.modTask t g).resetWheel t) := by
  refine ⟨⟨⟨fun p hp => ?_, h.rdy.lists.beyond, h.rdy.lists.disjoint⟩, h.rdy.bits⟩, h.pend.congr rfl rfl rfl, ?_, ?_⟩
  · refine (h.rdy.lists.list p hp).congr fun x hx => ?_
    have hxt : x ≠ t := fun e => ht p (e ▸ hx)
    rw [OS.rdyNext_modTcb, OS.rdyPrev_modTcb, if_neg hxt, if_neg hxt]
    exact ⟨rfl, rfl⟩
  · intro hok
    obtain ⟨hok, hoff⟩ : a.wheelOk = true ∧ a.onWheel t = false := by simpa [Abs.resetWheel, Abs.modTask] using hok
    exact (h.wheel hok).modTcb_off hoff hsp
  · exact congrArg (fun b : Abs => b.resetWheel t) (h.abs_modTcb hv)

theorem modObj {f : Obj → Obj} {g : Sync → Sync} (h : Rep cfg s a) (hl : (f (s.obj o)).pendList = (s.obj o).pendList)
    (hv : (f (s.obj o)).view = g (s.obj o).view) : Rep cfg (s.modObj o f) (a.modObj o g) := by
  refine ⟨h.rdy.congr rfl rfl rfl rfl, h.pend.congr rfl rfl ?_,
    fun hok => (h.wheel hok).congr ⟨fun _ => rfl, fun _ => rfl, fun _ => rfl, fun _ => rfl, fun _ => rfl⟩, ?_⟩
  · funext x
    by_cases hx : x = o
    · subst hx
      simpa [OS.pendList, OS.modObj] using hl
    · simp [OS.pendList, OS.modObj, hx]
  · conv_rhs => rw [← h.abs]
    simp only [OS.abs, Abs.modObj, OS.modObj, Abs.mk.injEq, and_true, true_and]
    funext x
    by_cases hx : x = o
    · subst hx
      simpa using hv
    · simp [hx]

theorem modPendData {f : PendData → PendData} {g : Entry → Entry} (h : Rep cfg s a) (hd : ∀ o, d ∉ a.waiting o)
    (hn : (s.pendData d).nextPtr = none → (f (s.pendData d)).nextPtr = none)
    (hv : (f (s.pendData d)).view = g (s.pendData d).view) : Rep cfg (s.modPendData d f) (a.modEntry d g) := by
  refine ⟨h.rdy.congr rfl rfl rfl rfl, ⟨fun o => ?_, h.pend.disjoint, fun x hx => ?_⟩,
    fun hok => (h.wheel hok).congr ⟨fun _ => rfl, fun _ => rfl, fun _ => rfl, fun _ => rfl, fun _ => rfl⟩, ?_⟩
  · refine (h.pend.list o).congr fun x hx => ?_
    have hxd : x ≠ d := fun e => hd o (e ▸ hx)
    rw [OS.pdNext_modPendData, OS.pdPrev_modPendData, if_neg hxd, if_neg hxd]
    exact ⟨rfl, rfl⟩
  · rw [OS.pdNext_modPendData]
    split
    · exact hn (h.pend.off d hd)
    · exact h.pend.off x hx
  · conv_rhs => rw [← h.abs]
    simp only [OS.abs, Abs.modEntry, OS.modPendData, Abs.mk.injEq, and_true, true_and]
    funext x
    by_cases hx : x = d
    · subst hx
      simpa using hv
    · simp [hx]

theorem of_globals {a' : Abs} (h : Rep cfg s a) (hs : s'.noGlobals = s.noGlobals) (ha : a'.noGlobals = a.noGlobals)
    (habs : s'.globals a' = a') : Rep cfg s' a' := by
  have hr : a'.ready = a.ready := (congrArg (fun x : Abs => x.ready) ha :)
  have hw : a'.waiting = a.waiting := (congrArg (fun x : Abs => x.waiting) ha :)
  have hv : a'.onWheel = a.onWheel := (congrArg (fun x : Abs => x.onWheel) ha :)
  have hok : a'.wheelOk = a.wheelOk := (congrArg (fun x : Abs => x.wheelOk) ha :)
  refine ⟨?_, ?_, ?_, ?_⟩
  · rw [hr]
    refine h.rdy.congr ?_ ?_ ?_ ?_
    · exact (congrArg OS.rdyNext hs :)
    · exact (congrArg OS.rdyPrev hs :)
    · exact (congrArg (fun x : OS => x.rdyList) hs :)
    · exact (congrArg (fun x : OS => x.prioTbl) hs :)
  · rw [hw]
    refine h.pend.congr ?_ ?_ ?_
    · exact (congrArg OS.pdNext hs :)
    · exact (congrArg OS.pdPrev hs :)
    · exact (congrArg OS.pendList hs :)
  · rw [hok, hv]
    refine fun hok => (h.wheel hok).congr ⟨fun x => ?_, fun x => ?_, fun x => ?_, fun x => ?_, fun i => ?_⟩
    · exact (congrArg (fun y : OS => y.tickNext x) hs :)
    · exact (congrArg (fun y : OS => y.tickPrev x) hs :)
    · exact (congrArg (fun y : OS => y.tickSpoke x) hs :)
    · exact (congrArg (fun y : OS => y.tickDue x) hs :)
    · exact (congrArg (fun y : OS => y.tickWheel i) hs :)
  · have htask : a'.task = fun t => (s'.tcb t).view := by
      rw [show a'.task = a.task from (congrArg (fun x : Abs => x.task) ha :)]
      funext t
      exact (h.task t).trans (congrArg (fun x : OS => (x.tcb t).view) hs.symm :)
    have hentry : a'.entry = fun d => (s'.pendData d).view := by
      rw [show a'.entry = a.entry from (congrArg (fun x : Abs => x.entry) ha :)]
      funext d
      exact (h.entry d).trans (congrArg (fun x : OS => (x.pendData d).view) hs.symm :)
    have hobj : a'.obj = fun o => (s'.obj o).view := by
      rw [show a'.obj = a.obj from (congrArg (fun x : Abs => x.obj) ha :)]
      funext o
      exact (h.obj o).trans (congrArg (fun x : OS => (x.obj o).view) hs.symm :)
    conv_rhs => rw [← habs]
    simp only [OS.abs, OS.globals, htask, hentry, hobj]

theorem globals_eq (h : Rep cfg s a) : s.globals a = a := by
  calc s.globals a = s.globals (s.abs a) := by rw [h.abs]
    _ = s.abs a := rfl
    _ = a := h.abs

theorem setCont (h : Rep cfg s a) (t : TcbId) (k : Cont) :
    Rep cfg { s with cont := Function.update s.cont t k } (a.setCont t k) := by
  refine h.of_globals rfl rfl ?_
  exact (congrArg (fun x : Abs => x.setCont t k) h.globals_eq :)

end Rep

section primitives

theorem rdyListInsertHead_spec (h : Rep cfg s a) (ht : ∀ q, t ∉ a.ready q) :
    wp n cfg (do prioInsert (s.tcb t).prio; rdyListInsertHead t) (fun _ s' => Rep cfg s' (a.enqueueHead t)) s := by
  simp only [prioInsert, wp_bind, wp_modPrioTbl]
  intro _
  have hl : RdyLists cfg (s.modPrioTbl ((s.tcb t).prio / 32) (· ||| prioBit (s.tcb t).prio)) a.ready :=
    ⟨h.rdy.lists.list, h.rdy.lists.beyond, h.rdy.lists.disjoint⟩
  refine ((rdyListInsertHead_rep hl h.rdy.bits.insert ht).and (keeps_rdyListInsertHead t n cfg _)).mono ?_
  rintro _ s' ⟨hr, e⟩
  rw [Abs.enqueueHead, Abs.setReady, h.task]
  exact h.of_noRdy hr e

theorem rdyListInsertTail_spec (h : Rep cfg s a) (ht : ∀ q, t ∉ a.ready q) :
    wp n cfg (do prioInsert (s.tcb t).prio; rdyListInsertTail t) (fun _ s' => Rep cfg s' (a.enqueueTail t)) s := by
  simp only [prioInsert, wp_bind, wp_modPrioTbl]
  intro _
  have hl : RdyLists cfg (s.modPrioTbl ((s.tcb t).prio / 32) (· ||| prioBit (s.tcb t).prio)) a.ready :=
    ⟨h.rdy.lists.list, h.rdy.lists.beyond, h.rdy.lists.disjoint⟩
  refine ((rdyListInsertTail_rep hl h.rdy.bits.insert ht).and (keeps_rdyListInsertTail t n cfg _)).mono ?_
  rintro _ s' ⟨hr, e⟩
  rw [Abs.enqueueTail, Abs.setReady, h.task]
  exact h.of_noRdy hr e

theorem rdyListInsert_spec (h : Rep cfg s a) (ht : ∀ q, t ∉ a.ready q) :
    wp n cfg (rdyListInsert t) (fun _ s' => Rep cfg s' (a.enqueue t)) s := by
  refine ((rdyListInsert_rep h.rdy ht).and (keeps_rdyListInsert t n cfg s)).mono ?_
  rintro _ s' ⟨hr, e⟩
  have hr' := h.of_noRdy hr e
  rw [← h.prioCur] at hr'
  rw [Abs.enqueue, Abs.setReady, h.task]
  exact hr'

theorem rdyListRemove_spec (h : Rep cfg s a) (ht : t ∈ a.ready (a.task t).prio) :
    wp n cfg (rdyListRemove t) (fun _ s' => Rep cfg s' (a.dequeue t)) s := by
  rw [h.task] at ht
  refine ((rdyListRemove_rep h.rdy ht).and (keeps_rdyListRemove t n cfg s)).mono ?_
  rintro _ s' ⟨hr, e⟩
  rw [Abs.dequeue, Abs.setReady, h.task]
  exact h.of_noRdy hr e

theorem rdyListMoveHeadToTail_spec (h : Rep cfg s a) (p : ℕ) :
    wp n cfg (rdyListMoveHeadToTail p) (fun _ s' => Rep cfg s' (a.setReady p ((a.ready p).rotate 1))) s := by
  refine ((rdyListMoveHeadToTail_rep h.rdy).and (keeps_rdyListMoveHeadToTail p n cfg s)).mono ?_
  rintro _ s' ⟨hr, e⟩
  exact h.of_noRdy hr e

theorem pendListRemove_spec (h : Rep cfg s a)
    (ht : ∀ d ∈ (a.task t).table, ∃ o, (a.entry d).obj = some o ∧ d ∈ a.waiting o) :
    wp n cfg (pendListRemove t) (fun _ s' => Rep cfg s' (a.unpend t)) s := by
  have ht' : ∀ d ∈ s.table t, ∃ o, (s.pendData d).pendObjPtr = some o ∧ d ∈ a.waiting o := by
    intro d hd
    obtain ⟨o, ho, hdo⟩ := ht d (by rwa [h.task])
    exact ⟨o, by rwa [h.entry] at ho, hdo⟩
  refine ((pendListRemove_rep h.pend ht').and pendListRemove_frame).mono ?_
  rintro _ s' ⟨hw, e⟩
  have hmod : Rep cfg (s.modTcb t TCB.noTable) (a.modTask t fun c => { c with table := [] }) := h.modTcb rfl rfl
  have := hmod.of_noPend hw e
  rwa [Abs.unpend, h.task]

theorem pendListInsertPrio_spec (h : Rep cfg s a) (hd : ∀ o', d ∉ a.waiting o')
    (ht : ∀ x ∈ d :: a.waiting o, (a.entry x).tcb = some x.1) :
    wp n cfg (pendListInsertPrio o d) (fun _ s' => Rep cfg s' (a.link o d)) s := by
  have ht' : ∀ x ∈ d :: a.waiting o, (s.pendData x).tcbPtr = some x.1 := by
    intro x hx
    have := ht x hx
    rwa [h.entry] at this
  have hprio : a.pdPrio = s.pdPrio := by
    funext x
    rw [Abs.pdPrio, h.task]
    rfl
  refine ((pendListInsertPrio_rep h.pend hd ht').and (keeps_pendListInsertPrio d o n cfg s)).mono ?_
  rintro _ s' ⟨hw, e⟩
  rw [Abs.link, hprio]
  exact h.of_noPend hw e

theorem pendListChangePrio_spec {p : ℕ} (h : Rep cfg s a)
    (ht : ∀ d ∈ (a.task t).table, ∃ o, (a.entry d).obj = some o ∧ d ∈ a.waiting o)
    (hW : ∀ o, ∀ x ∈ a.waiting o, (a.entry x).tcb = some x.1) :
    wp n cfg (pendListChangePrio t p) (fun _ s' => Rep cfg s' (a.repend t p)) s := by
  have ht' : ∀ d ∈ s.table t, ∃ o, (s.pendData d).pendObjPtr = some o ∧ d ∈ a.waiting o := by
    intro d hd
    obtain ⟨o, ho, hdo⟩ := ht d (by rwa [h.task])
    exact ⟨o, by rwa [h.entry] at ho, hdo⟩
  have hW' : ∀ o, ∀ x ∈ a.waiting o, (s.pendData x).tcbPtr = some x.1 := by
    intro o x hx
    have := hW o x hx
    rwa [h.entry] at this
  have hmod : Rep cfg (s.modTcb t (TCB.setPrio p)) (a.modTask t fun c => { c with prio := p }) := h.modTcb rfl rfl
  have hprio : (a.modTask t fun c => { c with prio := p }).pdPrio = (s.modTcb t (TCB.setPrio p)).pdPrio := by
    funext x
    rw [Abs.pdPrio, hmod.task]
    rfl
  have hobj : (fun d => (a.entry d).obj) = fun d => (s.pendData d).pendObjPtr := by
    funext d
    rw [h.entry]
    rfl
  refine (pendListChangePrio_rep h.pend ht' hW').mono ?_
  rintro _ s' ⟨e, hw⟩
  simp only [Abs.repend]
  rw [hprio, hobj, h.task]
  exact hmod.of_noPend hw e

end primitives

end UcosIII
