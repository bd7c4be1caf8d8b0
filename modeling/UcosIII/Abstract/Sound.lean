import UcosIII.Abstract.State
import UcosIII.Kernel.Core

namespace UcosIII

@[grind =] def TaskState.isPend : TaskState → Bool
  | pend | pendTimeout | pendSuspended | pendTimeoutSuspended => true
  | rdy | dly | suspended | dlySuspended | del => false

@[grind =] def TaskState.isTimed : TaskState → Bool
  | dly | pendTimeout | dlySuspended | pendTimeoutSuspended => true
  | rdy | pend | suspended | pendSuspended | del => false

@[grind =] def PendOn.onObject : PendOn → Bool
  | flag | multi | mutex | q | sem => true
  | nothing | taskQ | taskSem => false

@[grind =] def PendOn.accepts : PendOn → ObjType → Bool
  | flag, .flag | mutex, .mutex | q, .q | sem, .sem | multi, .sem | multi, .q => true
  | _, _ => false

namespace Abs

def ReadyOk (a : Abs) : Prop := ∀ t p, t ∈ a.ready p ↔ (a.task t).state = .rdy ∧ (a.task t).prio = p

structure WaitOk (a : Abs) : Prop where
  pendOn_iff : ∀ t, (a.task t).pendOn ≠ .nothing ↔ (a.task t).state.isPend = true
  table_iff : ∀ t, (a.task t).table ≠ [] ↔ (a.task t).pendOn.onObject = true
  own : ∀ t, ∀ d ∈ (a.task t).table, d.1 = t ∧ (a.entry d).tcb = some t
  obj : ∀ t, ∀ d ∈ (a.task t).table, ∃ o, (a.entry d).obj = some o ∧ (a.task t).pendOn.accepts (a.obj o).type = true
  mem_iff : ∀ o d, d ∈ a.waiting o ↔ d ∈ (a.task d.1).table ∧ (a.entry d).obj = some o
  single : ∀ t, (a.task t).pendOn ≠ .multi → ∀ d ∈ (a.task t).table, d = (t, 0)
  mode : ∀ t, (a.task t).pendOn = .flag →
    (a.task t).flagsOpt &&& optPendFlagMask = optPendFlagSetAll ∨ (a.task t).flagsOpt &&& optPendFlagMask = optPendFlagSetAny

structure Sound (cfg : Cfg) (a : Abs) : Prop where
  ready : a.ReadyOk
  wait : a.WaitOk
  del_prio : ∀ t, (a.task t).state = .del → cfg.prioMax ≤ (a.task t).prio

variable {cfg : Cfg} {a : Abs} {t t' : TcbId} {d : PdId} {o : ObjId}

section fields

variable (a : Abs) (t t' : TcbId) (d d' : PdId) (o o' : ObjId) (p p' : ℕ)

@[grind =] theorem task_modTask (f : Task → Task) :
    (a.modTask t f).task t' = if t' = t then f (a.task t) else a.task t' := by
  by_cases h : t' = t <;> simp [modTask, h]

@[grind =] theorem entry_modTask (f : Task → Task) : (a.modTask t f).entry d = a.entry d := rfl

@[grind =] theorem obj_modTask (f : Task → Task) : (a.modTask t f).obj o = a.obj o := rfl

@[grind =] theorem ready_modTask (f : Task → Task) : (a.modTask t f).ready p = a.ready p := rfl

@[grind =] theorem waiting_modTask (f : Task → Task) : (a.modTask t f).waiting o = a.waiting o := rfl

@[grind =] theorem task_setReady (L : List TcbId) : (a.setReady p L).task t = a.task t := rfl

@[grind =] theorem entry_setReady (L : List TcbId) : (a.setReady p L).entry d = a.entry d := rfl

@[grind =] theorem obj_setReady (L : List TcbId) : (a.setReady p L).obj o = a.obj o := rfl

@[grind =] theorem ready_setReady (L : List TcbId) :
    (a.setReady p L).ready p' = if p' = p then L else a.ready p' := by
  by_cases h : p' = p <;> simp [setReady, h]

@[grind =] theorem waiting_setReady (L : List TcbId) : (a.setReady p L).waiting o = a.waiting o := rfl

@[grind =] theorem task_unpend : (a.unpend t).task t' = if t' = t then { a.task t with table := [] } else a.task t' := by
  by_cases h : t' = t <;> simp [unpend, modTask, h]

@[grind =] theorem waiting_unpend : (a.unpend t).waiting o = (a.waiting o).filter (· ∉ (a.task t).table) := rfl

@[grind =] theorem entry_unpend : (a.unpend t).entry d = a.entry d := rfl

@[grind =] theorem obj_unpend : (a.unpend t).obj o = a.obj o := rfl

@[grind =] theorem ready_unpend : (a.unpend t).ready p = a.ready p := rfl

theorem obj_modObj (f : Sync → Sync) : (a.modObj o f).obj o' = if o' = o then f (a.obj o) else a.obj o' :=
  Function.update_apply ..

end fields

theorem ReadyOk.not_mem (h : a.ReadyOk) (ht : (a.task t).state ≠ .rdy) (p : ℕ) : t ∉ a.ready p :=
  fun hm => ht ((h t p).mp hm).1

theorem WaitOk.linked (h : a.WaitOk) : ∀ d ∈ (a.task t).table, ∃ o, (a.entry d).obj = some o ∧ d ∈ a.waiting o := by
  intro d hd
  obtain ⟨o, ho, -⟩ := h.obj t d hd
  have hown := (h.own t d hd).1
  subst hown
  exact ⟨o, ho, (h.mem_iff o d).mpr ⟨hd, ho⟩⟩

theorem WaitOk.back (h : a.WaitOk) : ∀ o, ∀ x ∈ a.waiting o, (a.entry x).tcb = some x.1 := by
  intro o x hx
  exact (h.own x.1 x ((h.mem_iff o x).mp hx).1).2

section parts

variable {f : Task → Task}

theorem mem_enqueue (a : Abs) (t x : TcbId) (p : ℕ) :
    x ∈ (a.enqueue t).ready p ↔ x ∈ a.ready p ∨ x = t ∧ p = (a.task t).prio := by
  rw [enqueue, ready_setReady]
  grind

theorem mem_enqueueHead (a : Abs) (t x : TcbId) (p : ℕ) :
    x ∈ (a.enqueueHead t).ready p ↔ x ∈ a.ready p ∨ x = t ∧ p = (a.task t).prio := by
  rw [enqueueHead, ready_setReady]
  grind

theorem mem_enqueueTail (a : Abs) (t x : TcbId) (p : ℕ) :
    x ∈ (a.enqueueTail t).ready p ↔ x ∈ a.ready p ∨ x = t ∧ p = (a.task t).prio := by
  rw [enqueueTail, ready_setReady]
  grind

theorem mem_dequeue (hnd : (a.ready (a.task t).prio).Nodup) (x : TcbId) (p : ℕ) :
    x ∈ (a.dequeue t).ready p ↔ x ∈ a.ready p ∧ ¬ (x = t ∧ p = (a.task t).prio) := by
  rw [dequeue, ready_setReady]
  grind [List.Nodup.mem_erase_iff]

theorem ReadyOk.modTask (h : a.ReadyOk) (hs : (f (a.task t)).state = .rdy ↔ (a.task t).state = .rdy)
    (hp : (f (a.task t)).prio = (a.task t).prio) : (a.modTask t f).ReadyOk := by
  intro x p
  rw [ready_modTask, task_modTask, h x p]
  grind

theorem ReadyOk.modTask_of_ne (h : a.ReadyOk) (hs : (a.task t).state ≠ .rdy) (hs' : (f (a.task t)).state ≠ .rdy) :
    (a.modTask t f).ReadyOk := by
  intro x p
  rw [ready_modTask, task_modTask, h x p]
  grind

theorem ReadyOk.arrive (h : a.ReadyOk) (hs : (a.task t).state ≠ .rdy) (hf : (f (a.task t)).state = .rdy) :
    ((a.modTask t f).enqueue t).ReadyOk := by
  intro x p
  have hx := h x p
  rw [mem_enqueue, ready_modTask, hx, enqueue, task_setReady, task_modTask]
  grind

theorem enqueue_modTask (hp : (f (a.task t)).prio = (a.task t).prio) :
    (a.enqueue t).modTask t f = (a.modTask t f).enqueue t := by
  simp only [enqueue, Abs.modTask, Abs.setReady, Function.update_self, hp]

theorem ReadyOk.dequeue (h : a.ReadyOk) (hnd : ∀ p, (a.ready p).Nodup) (hf : (f (a.task t)).state ≠ .rdy) :
    ((a.dequeue t).modTask t f).ReadyOk := by
  intro x p
  have hx := h x p
  rw [ready_modTask, mem_dequeue (hnd _), hx, task_modTask, Abs.dequeue, task_setReady, task_setReady]
  grind

theorem ReadyOk.depart (h : a.ReadyOk) (hnd : ∀ p, (a.ready p).Nodup)
    (hf : (f (a.task t)).state ≠ .rdy) (hp : (f (a.task t)).prio = (a.task t).prio) :
    ((a.modTask t f).dequeue t).ReadyOk := by
  have heq : (a.modTask t f).dequeue t = (a.dequeue t).modTask t f := by
    simp only [Abs.dequeue, Abs.modTask, Abs.setReady, Function.update_self, hp]
  rw [heq]
  exact h.dequeue hnd hf

theorem WaitOk.setReady (h : a.WaitOk) {p : ℕ} {L : List TcbId} : (a.setReady p L).WaitOk :=
  ⟨h.pendOn_iff, h.table_iff, h.own, h.obj, h.mem_iff, h.single, h.mode⟩

theorem WaitOk.modTask (h : a.WaitOk) (hs : (f (a.task t)).state.isPend = (a.task t).state.isPend)
    (ho : (f (a.task t)).pendOn = (a.task t).pendOn) (ht : (f (a.task t)).table = (a.task t).table)
    (hm : (f (a.task t)).flagsOpt = (a.task t).flagsOpt) : (a.modTask t f).WaitOk := by
  obtain ⟨h1, h2, h3, h4, h5, h6, h7⟩ := h
  refine ⟨?_, ?_, ?_, ?_, ?_, ?_, ?_⟩
  all_goals grind

theorem WaitOk.unpend (h : a.WaitOk) (hs : ∀ c, (f c).state.isPend = false) (ho : ∀ c, (f c).pendOn = .nothing)
    (ht : ∀ c, c.table = [] → (f c).table = []) : ((a.unpend t).modTask t f).WaitOk := by
  obtain ⟨h1, h2, h3, h4, h5, h6, h7⟩ := h
  refine ⟨?_, ?_, ?_, ?_, ?_, ?_, ?_⟩
  all_goals grind

end parts

theorem ReadyOk.unpend (h : a.ReadyOk) (t : TcbId) : (a.unpend t).ReadyOk := by
  intro x p
  rw [ready_unpend, task_unpend, h x p]
  grind

theorem unpend_of_nil (ht : (a.task t).table = []) : a.unpend t = a := by
  have htask : Function.update a.task t { a.task t with table := [] } = a.task := by
    rw [Function.update_eq_self_iff, ← ht]
  simp only [Abs.unpend, Abs.modTask, htask, ht, List.not_mem_nil, not_false_eq_true, decide_true, List.filter_true]

theorem Sound.congr {a' : Abs} (h : a.Sound cfg) (ht : a'.task = a.task) (he : a'.entry = a.entry) (ho : a'.obj = a.obj)
    (hr : a'.ready = a.ready) (hw : a'.waiting = a.waiting) : a'.Sound cfg := by
  obtain ⟨task, entry, obj, ready, waiting, _, _, _, _, _, _, _, _⟩ := a'
  subst ht he ho hr hw
  exact ⟨h.ready, ⟨h.wait.pendOn_iff, h.wait.table_iff, h.wait.own, h.wait.obj, h.wait.mem_iff, h.wait.single,
    h.wait.mode⟩, h.del_prio⟩

theorem Sound.offWheel (h : a.Sound cfg) : (a.offWheel t).Sound cfg := h.congr rfl rfl rfl rfl rfl

theorem Sound.toWheel (h : a.Sound cfg) : (a.toWheel t).Sound cfg := h.congr rfl rfl rfl rfl rfl

theorem Sound.resetWheel (h : a.Sound cfg) : (a.resetWheel t).Sound cfg := h.congr rfl rfl rfl rfl rfl

/-- The wait of `t` ends with status `st`: the task is ready, or plainly suspended if it was suspended. -/
def wake (a : Abs) (t : TcbId) (st : PendStatus) : Abs :=
  if (a.task t).state.isPend = false then a
  else if (a.task t).state.isSuspended = false then
    (((a.unpend t).enqueue t).modTask t fun c =>
      { c with state := .rdy, pendStatus := st, pendOn := .nothing }).offWheel t
  else
    ((a.unpend t).modTask t fun c => { c with state := .suspended, pendStatus := st, pendOn := .nothing }).offWheel t

theorem Sound.wakeRdy (h : a.Sound cfg) (hp : (a.task t).state.isPend = true) (st : PendStatus) :
    (((a.unpend t).enqueue t).modTask t fun c =>
      { c with state := .rdy, pendStatus := st, pendOn := .nothing }).Sound cfg := by
  have hdel := h.del_prio
  rw [enqueue_modTask rfl]
  refine ⟨(h.ready.unpend t).arrive ?_ rfl, (h.wait.unpend ?_ ?_ ?_).setReady, ?_⟩
  all_goals grind [enqueue]

theorem Sound.wakeSuspended (h : a.Sound cfg) (hp : (a.task t).state.isPend = true) (st : PendStatus) :
    ((a.unpend t).modTask t fun c => { c with state := .suspended, pendStatus := st, pendOn := .nothing }).Sound cfg := by
  have hdel := h.del_prio
  refine ⟨(h.ready.unpend t).modTask_of_ne ?_ ?_, h.wait.unpend ?_ ?_ ?_, ?_⟩
  all_goals grind

theorem Sound.wake (h : a.Sound cfg) (t : TcbId) (st : PendStatus) : (a.wake t st).Sound cfg := by
  rw [Abs.wake]
  split
  · exact h
  · have hp : (a.task t).state.isPend = true := Bool.not_eq_false _ |>.mp ‹_›
    split
    · exact (h.wakeRdy hp st).offWheel
    · exact (h.wakeSuspended hp st).offWheel

def flagWake (a : Abs) (t : TcbId) : Abs :=
  if (a.task t).state.isPend = true ∧ (a.task t).state.isSuspended = true then
    (a.unpend t).modTask t fun c => { c with state := .suspended, pendStatus := .ok, pendOn := .nothing }
  else a.wake t .ok

theorem Sound.flagWake (h : a.Sound cfg) (t : TcbId) : (a.flagWake t).Sound cfg := by
  rw [Abs.flagWake]
  split
  · exact h.wakeSuspended (by tauto) .ok
  · exact h.wake t .ok

def expire (a : Abs) (t : TcbId) : Abs :=
  match (a.task t).state with
  | .dly => ((a.modTask t fun c => { c with state := .rdy }).enqueue t).offWheel t
  | .dlySuspended => (a.modTask t fun c => { c with state := .suspended }).offWheel t
  | .pendTimeout | .pendTimeoutSuspended => a.wake t .timeout
  | .rdy | .pend | .suspended | .pendSuspended | .del => a

theorem Sound.expire (h : a.Sound cfg) (t : TcbId) : (a.expire t).Sound cfg := by
  have hdel := h.del_prio
  rw [Abs.expire]
  split
  · refine Sound.offWheel ⟨h.ready.arrive ?_ rfl, (h.wait.modTask ?_ rfl rfl rfl).setReady, ?_⟩
    all_goals grind [enqueue]
  · refine Sound.offWheel ⟨h.ready.modTask_of_ne ?_ ?_, h.wait.modTask ?_ rfl rfl rfl, ?_⟩
    all_goals grind
  · exact h.wake t .timeout
  · exact h.wake t .timeout
  all_goals exact h

end Abs

@[grind =] def TaskState.suspend : TaskState → TaskState
  | rdy => suspended
  | dly => dlySuspended
  | pend => pendSuspended
  | pendTimeout => pendTimeoutSuspended
  | st => st

@[grind =] def TaskState.resume : TaskState → TaskState
  | suspended => rdy
  | dlySuspended => dly
  | pendSuspended => pend
  | pendTimeoutSuspended => pendTimeout
  | st => st

namespace TaskState

variable (st : TaskState)

@[grind =] theorem isPend_suspend : st.suspend.isPend = st.isPend := by cases st <;> rfl

@[grind =] theorem isPend_resume : st.resume.isPend = st.isPend := by cases st <;> rfl

theorem suspend_ne_rdy : st.suspend ≠ rdy := by cases st <;> decide

theorem suspend_eq_del : st.suspend = del ↔ st = del := by cases st <;> decide

end TaskState

@[grind =] def Task.suspend (c : Task) : Task :=
  { c with state := c.state.suspend, suspendCtr := if c.state.isSuspended then c.suspendCtr + 1 else 1 }

@[grind =] def Task.resume (c : Task) : Task :=
  { c with suspendCtr := c.suspendCtr - 1, state := if c.suspendCtr - 1 = 0 then c.state.resume else c.state }

@[grind =] def Task.fresh (prio : ℕ) : Task where
  state := .rdy
  prio := prio
  pendOn := .nothing
  pendStatus := .ok
  table := []
  suspendCtr := 0
  flagsOpt := 0

namespace Abs

variable {cfg : Cfg} {a : Abs} {t : TcbId}

def suspend (a : Abs) (t : TcbId) : Abs :=
  if (a.task t).state = .del then a
  else if (a.task t).state = .rdy then (a.modTask t Task.suspend).dequeue t
  else a.modTask t Task.suspend

theorem Sound.suspend (h : a.Sound cfg) (hnd : ∀ p, (a.ready p).Nodup) (t : TcbId) : (a.suspend t).Sound cfg := by
  have hdel := h.del_prio
  have hw : (a.modTask t Task.suspend).WaitOk := h.wait.modTask (by grind) rfl rfl rfl
  rw [Abs.suspend]
  split
  · exact h
  · split
    · refine ⟨h.ready.depart hnd (TaskState.suspend_ne_rdy _) rfl, hw.setReady, ?_⟩
      grind [dequeue, TaskState.suspend_eq_del]
    · refine ⟨h.ready.modTask_of_ne ‹_› (TaskState.suspend_ne_rdy _), hw, ?_⟩
      grind [TaskState.suspend_eq_del]

def resume (a : Abs) (t : TcbId) : Abs :=
  match (a.task t).state with
  | .suspended =>
    if (a.task t).suspendCtr - 1 = 0 then ((a.modTask t Task.resume).enqueue t).offWheel t
    else a.modTask t Task.resume
  | .dlySuspended | .pendSuspended | .pendTimeoutSuspended => a.modTask t Task.resume
  | .rdy | .dly | .pend | .pendTimeout | .del => a

theorem Sound.resume (h : a.Sound cfg) (t : TcbId) : (a.resume t).Sound cfg := by
  have hdel := h.del_prio
  have hw : (a.modTask t Task.resume).WaitOk := h.wait.modTask (by grind) rfl rfl rfl
  rw [Abs.resume]
  split
  · split
    · refine Sound.offWheel ⟨h.ready.arrive ?_ ?_, hw.setReady, ?_⟩
      all_goals grind [enqueue]
    · refine ⟨h.ready.modTask_of_ne ?_ ?_, hw, ?_⟩
      all_goals grind
  iterate 3
    · refine ⟨h.ready.modTask_of_ne ?_ ?_, hw, ?_⟩
      all_goals grind
  all_goals exact h

def move (a : Abs) (t : TcbId) (p : ℕ) (atHead : Bool) : Abs :=
  let a' := (a.dequeue t).modTask t fun c => { c with prio := p }
  if atHead then a'.enqueueHead t else a'.enqueueTail t

theorem Sound.move (h : a.Sound cfg) (hnd : ∀ p, (a.ready p).Nodup) (hs : (a.task t).state = .rdy) (p : ℕ)
    (atHead : Bool) : (a.move t p atHead).Sound cfg := by
  have hdel := h.del_prio
  have hready := h.ready
  have hw : ((a.dequeue t).modTask t fun c => { c with prio := p }).WaitOk := h.wait.setReady.modTask rfl rfl rfl rfl
  have hmem := mem_dequeue (hnd (a.task t).prio)
  simp only [Abs.move]
  cases atHead
  · refine ⟨?_, hw.setReady, ?_⟩
    · intro x q
      have := hready x q
      grind [mem_enqueueTail, enqueueTail, dequeue]
    · grind [enqueueTail, dequeue]
  · refine ⟨?_, hw.setReady, ?_⟩
    · intro x q
      have := hready x q
      grind [mem_enqueueHead, enqueueHead, dequeue]
    · grind [enqueueHead, dequeue]

theorem mem_waiting_repend (h : a.WaitOk) (t : TcbId) (p : ℕ) (o : ObjId) (d : PdId) :
    d ∈ (a.repend t p).waiting o ↔ d ∈ a.waiting o := by
  refine (foldl_reinsert_perm ?_ o).mem_iff
  intro x hx o' ho'
  obtain ⟨o'', ho'', hmem⟩ := h.linked x hx
  rw [ho''] at ho'
  cases ho'
  exact hmem

theorem Sound.setPrio (h : a.Sound cfg) (hs : (a.task t).state ≠ .rdy) (hd : (a.task t).state ≠ .del) (p : ℕ) :
    (a.modTask t fun c => { c with prio := p }).Sound cfg := by
  refine ⟨h.ready.modTask_of_ne hs hs, h.wait.modTask rfl rfl rfl rfl, ?_⟩
  have hdel := h.del_prio
  grind

theorem Sound.repend (h : a.Sound cfg) (hs : (a.task t).state ≠ .rdy) (hd : (a.task t).state ≠ .del) (p : ℕ) :
    (a.repend t p).Sound cfg := by
  obtain ⟨hr, hw, hp⟩ := h.setPrio hs hd p
  refine ⟨hr, ⟨hw.pendOn_iff, hw.table_iff, hw.own, hw.obj, ?_, hw.single, hw.mode⟩, hp⟩
  intro o d
  rw [mem_waiting_repend h.wait]
  exact hw.mem_iff o d

def reprio (a : Abs) (t : TcbId) (p : ℕ) (self : Bool) : Abs :=
  match (a.task t).state with
  | .rdy => a.move t p self
  | .dly | .suspended | .dlySuspended => a.modTask t fun c => { c with prio := p }
  | .pend | .pendTimeout | .pendSuspended | .pendTimeoutSuspended =>
    match (a.task t).pendOn with
    | .taskQ | .taskSem | .flag => a.modTask t fun c => { c with prio := p }
    | .mutex | .multi | .q | .sem => a.repend t p
    | .nothing => a
  | .del => a

theorem Sound.reprio (h : a.Sound cfg) (hnd : ∀ p, (a.ready p).Nodup) (t : TcbId) (p : ℕ) (self : Bool) :
    (a.reprio t p self).Sound cfg := by
  rw [Abs.reprio]
  cases hst : (a.task t).state with
  | rdy => exact h.move hnd hst p self
  | del => exact h
  | dly | suspended | dlySuspended => exact h.setPrio (by simp [hst]) (by simp [hst]) p
  | pend | pendTimeout | pendSuspended | pendTimeoutSuspended =>
    cases (a.task t).pendOn with
    | taskQ | taskSem | flag => exact h.setPrio (by simp [hst]) (by simp [hst]) p
    | mutex | multi | q | sem => exact h.repend (by simp [hst]) (by simp [hst]) p
    | nothing => exact h

def boost (a : Abs) (t : TcbId) (p : ℕ) : Abs :=
  match (a.task t).state with
  | .rdy => a.move t p true
  | .dly | .suspended | .dlySuspended => a.modTask t fun c => { c with prio := p }
  | .pend | .pendTimeout | .pendSuspended | .pendTimeoutSuspended => a.repend t p
  | .del => a

theorem Sound.boost (h : a.Sound cfg) (hnd : ∀ p, (a.ready p).Nodup) (t : TcbId) (p : ℕ) :
    (a.boost t p).Sound cfg := by
  rw [Abs.boost]
  cases hst : (a.task t).state with
  | rdy => exact h.move hnd hst p true
  | del => exact h
  | dly | suspended | dlySuspended => exact h.setPrio (by simp [hst]) (by simp [hst]) p
  | pend | pendTimeout | pendSuspended | pendTimeoutSuspended => exact h.repend (by simp [hst]) (by simp [hst]) p

/-- The first ready task of priority `p` goes behind the others. -/
def rotate (a : Abs) (p : ℕ) : Abs := a.setReady p ((a.ready p).rotate 1)

theorem Sound.rotate (h : a.Sound cfg) (p : ℕ) : (a.rotate p).Sound cfg := by
  refine ⟨?_, h.wait.setReady, h.del_prio⟩
  intro x q
  refine Iff.trans ?_ (h.ready x q)
  rw [Abs.rotate, ready_setReady]
  split
  · subst q
    exact List.mem_rotate
  · rfl

def start (a : Abs) (t : TcbId) (prio : ℕ) : Abs := ((a.modTask t fun _ => Task.fresh prio).enqueueTail t).resetWheel t

theorem WaitOk.table_nil (h : a.WaitOk) (hs : (a.task t).state.isPend = false) : (a.task t).table = [] := by
  have h1 := h.pendOn_iff t
  have h2 := h.table_iff t
  grind

theorem WaitOk.not_mem (h : a.WaitOk) (hs : (a.task t).state.isPend = false) (o : ObjId) (k : ℕ) :
    (t, k) ∉ a.waiting o := by
  intro hm
  have := ((h.mem_iff o (t, k)).mp hm).1
  rw [h.table_nil hs] at this
  cases this

theorem Sound.start (h : a.Sound cfg) (hs : (a.task t).state = .del) (prio : ℕ) : (a.start t prio).Sound cfg := by
  have htbl : (a.task t).table = [] := h.wait.table_nil (by simp [hs, TaskState.isPend])
  obtain ⟨hr, ⟨h1, h2, h3, h4, h5, h6, h7⟩, h8⟩ := h
  refine Sound.resetWheel ⟨?_, WaitOk.setReady ⟨?_, ?_, ?_, ?_, ?_, ?_, ?_⟩, ?_⟩
  · intro x q
    have hx := hr x q
    rw [mem_enqueueTail, enqueueTail, task_setReady]
    grind
  all_goals grind [enqueueTail]

def unlink (a : Abs) (t : TcbId) : Abs :=
  match (a.task t).state with
  | .rdy => a.dequeue t
  | .suspended | .del => a
  | .dly | .dlySuspended | .pend | .pendTimeout | .pendSuspended | .pendTimeoutSuspended => (a.unpend t).offWheel t

theorem Sound.setCont (h : a.Sound cfg) (t : TcbId) (k : Cont) : (a.setCont t k).Sound cfg :=
  h.congr rfl rfl rfl rfl rfl

/-- The task is taken off the lists and left dormant. -/
def erase (a : Abs) (t : TcbId) (prioMax : ℕ) : Abs :=
  (((a.unlink t).modTask t fun _ => { Task.fresh prioMax with state := .del }).resetWheel t).setCont t .none

theorem Sound.unlinked (h : a.Sound cfg) (hnd : ∀ p, (a.ready p).Nodup) (t : TcbId) (q : ℕ) :
    t ∉ (a.unlink t).ready q := by
  have hout := h.ready.not_mem (t := t)
  rw [unlink]
  cases hs : (a.task t).state with
  | rdy =>
    rw [mem_dequeue (hnd _)]
    rintro ⟨hm, hne⟩
    exact hne ⟨rfl, ((h.ready t q).mp hm).2.symm⟩
  | suspended | del | dly | dlySuspended | pend | pendTimeout | pendSuspended | pendTimeoutSuspended =>
    exact hout (by simp [hs]) q

theorem Sound.dormant (h : a.Sound cfg) (hs : (a.task t).state ≠ .rdy) :
    ((a.unpend t).modTask t fun _ => { Task.fresh cfg.prioMax with state := .del }).Sound cfg := by
  have hdel := h.del_prio
  refine ⟨(h.ready.unpend t).modTask_of_ne ?_ (by simp), h.wait.unpend (fun _ => rfl) (fun _ => rfl) fun _ _ => rfl, ?_⟩
  all_goals grind

theorem Sound.erase (h : a.Sound cfg) (hnd : ∀ p, (a.ready p).Nodup) (t : TcbId) :
    (a.erase t cfg.prioMax).Sound cfg := by
  have hnil : (a.task t).state.isPend = false → a.unpend t = a := fun hp => unpend_of_nil (h.wait.table_nil hp)
  refine Sound.setCont (Sound.resetWheel ?_) t .none
  rw [unlink]
  cases hs : (a.task t).state with
  | rdy =>
    have hw := h.wait.unpend (t := t) (f := fun _ => { Task.fresh cfg.prioMax with state := .del }) (fun _ => rfl)
      (fun _ => rfl) fun _ _ => rfl
    rw [hnil (by simp [hs, TaskState.isPend])] at hw
    have hdel := h.del_prio
    refine ⟨h.ready.dequeue hnd (by simp), hw.setReady, ?_⟩
    grind [dequeue]
  | suspended | del =>
    have := h.dormant (t := t) (by simp [hs])
    rwa [hnil (by simp [hs, TaskState.isPend])] at this
  | dly | dlySuspended | pend | pendTimeout | pendSuspended | pendTimeoutSuspended =>
    exact (h.dormant (by simp [hs])).offWheel

def timer (a : Abs) (t : TcbId) (timed : Bool) : Abs :=
  { a with
    onWheel := if timed then Function.update a.onWheel t true else a.onWheel
    wheelOk := a.wheelOk && !(timed && a.onWheel t) }

theorem timer_true : a.timer t true = a.toWheel t := by simp [timer, toWheel]

theorem timer_false : a.timer t false = a := by simp [timer]

section timer

variable (timed : Bool)

@[grind =] theorem task_timer (x : TcbId) : (a.timer t timed).task x = a.task x := rfl

@[grind =] theorem entry_timer (x : PdId) : (a.timer t timed).entry x = a.entry x := rfl

@[grind =] theorem obj_timer (x : ObjId) : (a.timer t timed).obj x = a.obj x := rfl

@[grind =] theorem ready_timer (x : ℕ) : (a.timer t timed).ready x = a.ready x := rfl

@[grind =] theorem waiting_timer (x : ObjId) : (a.timer t timed).waiting x = a.waiting x := rfl

end timer

def block (a : Abs) (t : TcbId) (kind : PendOn) (timed : Bool) (ds : List PdId) : Abs :=
  ((a.modTask t fun c =>
    { c with
      pendOn := kind, pendStatus := .ok, state := if timed then .pendTimeout else .pend,
      table := ds }).dequeue t).timer t timed

section block

variable (kind : PendOn) (timed : Bool) (ds : List PdId)

theorem task_block (x : TcbId) : (a.block t kind timed ds).task x =
    if x = t then
      { a.task t with
        pendOn := kind, pendStatus := .ok, state := if timed then .pendTimeout else .pend, table := ds }
    else a.task x := by
  rw [block, task_timer, dequeue, task_setReady, task_modTask]

theorem entry_block (x : PdId) : (a.block t kind timed ds).entry x = a.entry x := entry_timer timed x

theorem obj_block (x : ObjId) : (a.block t kind timed ds).obj x = a.obj x := obj_timer timed x

theorem waiting_block (x : ObjId) : (a.block t kind timed ds).waiting x = a.waiting x := waiting_timer timed x

end block

def attach (t : TcbId) (a : Abs) (d : PdId) : Abs :=
  match (a.entry d).obj with
  | none => a
  | some o => (a.modEntry d fun e => { e with tcb := some t }).link o d

section attach

variable {ds : List PdId}

theorem attach_task (d : PdId) : (attach t a d).task = a.task := by
  rw [attach]
  split <;> rfl

theorem attach_ready (d : PdId) : (attach t a d).ready = a.ready := by
  rw [attach]
  split <;> rfl

theorem attach_obj (d : PdId) : (attach t a d).obj = a.obj := by
  rw [attach]
  split <;> rfl

theorem attach_entry_obj (d x : PdId) : ((attach t a d).entry x).obj = (a.entry x).obj := by
  rw [attach]
  split
  · rfl
  · by_cases hx : x = d <;> simp [link, modEntry, hx]

theorem attach_entry_tcb {d : PdId} (hd : (a.entry d).obj ≠ none) (x : PdId) :
    ((attach t a d).entry x).tcb = if x = d then some t else (a.entry x).tcb := by
  obtain ⟨o, ho⟩ := Option.ne_none_iff_exists'.mp hd
  by_cases hx : x = d <;> simp [attach, ho, link, modEntry, hx]

theorem mem_attach_waiting (d x : PdId) (o : ObjId) :
    x ∈ (attach t a d).waiting o ↔ x ∈ a.waiting o ∨ x = d ∧ (a.entry x).obj = some o := by
  rw [attach]
  split
  · grind
  · rename_i o' ho
    by_cases h : o = o'
    · subst h
      simp only [link, Function.update_self, (insPrio_perm _ _ _).mem_iff, List.mem_cons]
      grind [modEntry]
    · simp only [link, Function.update_of_ne h]
      grind [modEntry]

theorem foldl_attach_task : (ds.foldl (attach t) a).task = a.task := by
  induction ds generalizing a with
  | nil => rfl
  | cons d ds ih => rw [List.foldl_cons, ih, attach_task]

theorem foldl_attach_ready : (ds.foldl (attach t) a).ready = a.ready := by
  induction ds generalizing a with
  | nil => rfl
  | cons d ds ih => rw [List.foldl_cons, ih, attach_ready]

theorem foldl_attach_obj : (ds.foldl (attach t) a).obj = a.obj := by
  induction ds generalizing a with
  | nil => rfl
  | cons d ds ih => rw [List.foldl_cons, ih, attach_obj]

theorem foldl_attach_entry_obj (x : PdId) : ((ds.foldl (attach t) a).entry x).obj = (a.entry x).obj := by
  induction ds generalizing a with
  | nil => rfl
  | cons d ds ih => rw [List.foldl_cons, ih, attach_entry_obj]

theorem foldl_attach_entry_tcb (hds : ∀ d ∈ ds, (a.entry d).obj ≠ none) (x : PdId) :
    ((ds.foldl (attach t) a).entry x).tcb = if x ∈ ds then some t else (a.entry x).tcb := by
  induction ds generalizing a with
  | nil => rfl
  | cons d ds ih =>
    rw [List.foldl_cons, ih fun y hy => by rw [attach_entry_obj]; exact hds y (by simp [hy]),
      attach_entry_tcb (hds d (by simp))]
    grind

theorem mem_foldl_attach_waiting (x : PdId) (o : ObjId) :
    x ∈ (ds.foldl (attach t) a).waiting o ↔ x ∈ a.waiting o ∨ x ∈ ds ∧ (a.entry x).obj = some o := by
  induction ds generalizing a with
  | nil => simp
  | cons d ds ih =>
    rw [List.foldl_cons, ih, mem_attach_waiting, attach_entry_obj]
    grind

theorem Sound.blockAll {kind : PendOn} {timed : Bool} (h : a.Sound cfg) (hnd : ∀ p, (a.ready p).Nodup)
    (hs : (a.task t).state = .rdy) (hk : kind ≠ .nothing) (hds : ds ≠ [] ↔ kind.onObject = true)
    (hown : ∀ d ∈ ds, d.1 = t)
    (hobj : ∀ d ∈ ds, ∃ o, (a.entry d).obj = some o ∧ kind.accepts (a.obj o).type = true)
    (hsingle : kind ≠ .multi → ∀ d ∈ ds, d = (t, 0))
    (hmode : kind = .flag → (a.task t).flagsOpt &&& optPendFlagMask = optPendFlagSetAll ∨
      (a.task t).flagsOpt &&& optPendFlagMask = optPendFlagSetAny) :
    (ds.foldl (attach t) (a.block t kind timed ds)).Sound cfg := by
  have htbl := h.wait.table_nil (t := t) (by simp [hs, TaskState.isPend])
  have hready : (a.block t kind timed ds).ReadyOk := by
    intro x q
    rw [block, ready_timer, task_timer]
    exact h.ready.depart hnd (by cases timed <;> simp) rfl x q
  have hne : ∀ d ∈ ds, ((a.block t kind timed ds).entry d).obj ≠ none := by
    intro d hd
    obtain ⟨o, ho, -⟩ := hobj d hd
    exact Option.ne_none_iff_exists'.mpr ⟨o, by rwa [entry_block]⟩
  obtain ⟨hr, ⟨h1, h2, h3, h4, h5, h6, h7⟩, h8⟩ := h
  refine ⟨?_, ⟨?_, ?_, ?_, ?_, ?_, ?_, ?_⟩, ?_⟩
  · intro x q
    rw [foldl_attach_ready, foldl_attach_task]
    exact hready x q
  all_goals simp only [foldl_attach_task, foldl_attach_obj, foldl_attach_entry_obj, foldl_attach_entry_tcb hne,
    mem_foldl_attach_waiting, task_block, entry_block, obj_block, waiting_block]
  all_goals clear hready hne
  all_goals grind

end attach

/-- `OS_Pend` by the ready task `t`: on object `o` with the entry on its stack, or on its own. -/
def pendOn (a : Abs) (t : TcbId) (o : Option ObjId) (kind : PendOn) (timed : Bool) : Abs :=
  match o with
  | none => a.block t kind timed []
  | some o => attach t ((a.modEntry (t, 0) fun e => { e with obj := some o }).block t kind timed [(t, 0)]) (t, 0)

def delay (a : Abs) (t : TcbId) : Abs := ((a.modTask t fun c => { c with state := .dly }).dequeue t).toWheel t

theorem Sound.delay (h : a.Sound cfg) (hnd : ∀ p, (a.ready p).Nodup) (hs : (a.task t).state = .rdy) :
    (a.delay t).Sound cfg := by
  have hdel := h.del_prio
  refine Sound.toWheel ⟨h.ready.depart hnd (by simp) rfl, (h.wait.modTask ?_ rfl rfl rfl).setReady, ?_⟩
  all_goals grind [dequeue]

theorem Sound.modObj {o : ObjId} {f : Sync → Sync} (h : a.Sound cfg) (hf : (f (a.obj o)).type = (a.obj o).type) :
    (a.modObj o f).Sound cfg := by
  obtain ⟨hr, hw, hd⟩ := h
  refine ⟨hr, ⟨hw.pendOn_iff, hw.table_iff, hw.own, ?_, hw.mem_iff, hw.single, hw.mode⟩, hd⟩
  intro t d hd
  obtain ⟨o', ho, hacc⟩ := hw.obj t d hd
  refine ⟨o', ho, ?_⟩
  by_cases h : o' = o
  · subst h
    simpa [Abs.modObj, hf] using hacc
  · simpa [Abs.modObj, h] using hacc

theorem Sound.create {o : ObjId} {f : Sync → Sync} (h : a.Sound cfg) (hf : a.waiting o = []) :
    (a.modObj o f).Sound cfg := by
  obtain ⟨hr, hw, hd⟩ := h
  refine ⟨hr, ⟨hw.pendOn_iff, hw.table_iff, hw.own, ?_, hw.mem_iff, hw.single, hw.mode⟩, hd⟩
  intro t d hd
  obtain ⟨o', ho, hacc⟩ := hw.obj t d hd
  have hne : o' ≠ o := by
    rintro rfl
    have := (hw.mem_iff o' d).mpr ⟨(hw.own t d hd).1 ▸ hd, ho⟩
    simp [hf] at this
  exact ⟨o', ho, by simpa [Abs.modObj, hne] using hacc⟩

theorem Sound.modEntry {d : PdId} {f : Entry → Entry} (h : a.Sound cfg) (hd : d ∉ (a.task d.1).table) :
    (a.modEntry d f).Sound cfg := by
  obtain ⟨hr, hw, hp⟩ := h
  have hne : ∀ t, ∀ x ∈ (a.task t).table, x ≠ d := by
    rintro t x hx rfl
    have := (hw.own t x hx).1
    subst this
    exact hd hx
  have hkeep : ∀ t, ∀ x ∈ (a.task t).table, (a.modEntry d f).entry x = a.entry x := by
    intro t x hx
    simp [Abs.modEntry, hne t x hx]
  refine ⟨hr, ⟨hw.pendOn_iff, hw.table_iff, ?_, ?_, ?_, hw.single, hw.mode⟩, hp⟩
  · intro t x hx
    rw [hkeep t x hx]
    exact hw.own t x hx
  · intro t x hx
    rw [hkeep t x hx]
    exact hw.obj t x hx
  · intro o x
    refine (hw.mem_iff o x).trans (and_congr_right fun hx => ?_)
    rw [hkeep x.1 x hx]

theorem Sound.pendOn {o : Option ObjId} {kind : PendOn} {timed : Bool} (h : a.Sound cfg) (hnd : ∀ p, (a.ready p).Nodup)
    (hs : (a.task t).state = .rdy) (hk : kind ≠ .nothing)
    (ho : o ≠ none ↔ kind.onObject = true) (hacc : ∀ x ∈ o, kind.accepts (a.obj x).type = true)
    (hmode : kind = .flag → (a.task t).flagsOpt &&& optPendFlagMask = optPendFlagSetAll ∨
      (a.task t).flagsOpt &&& optPendFlagMask = optPendFlagSetAny) : (a.pendOn t o kind timed).Sound cfg := by
  cases o with
  | none =>
    change (List.foldl (attach t) (a.block t kind timed []) []).Sound cfg
    exact h.blockAll hnd hs hk (by simpa using ho) (by simp) (by simp) (by simp) hmode
  | some o =>
    have htbl := h.wait.table_nil (t := t) (by simp [hs, TaskState.isPend])
    have h' : (a.modEntry (t, 0) fun e => { e with obj := some o }).Sound cfg := h.modEntry (by simp [htbl])
    change (List.foldl (attach t) (Abs.block _ t kind timed [(t, 0)]) [(t, 0)]).Sound cfg
    refine h'.blockAll hnd hs hk (by simpa using ho) (by simp) ?_ (by simp) hmode
    intro d hd
    rw [List.mem_singleton.mp hd]
    exact ⟨o, by simp [Abs.modEntry], hacc o rfl⟩

end Abs

end UcosIII
