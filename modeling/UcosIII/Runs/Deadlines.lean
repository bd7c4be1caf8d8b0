import UcosIII.Abstract.FileCalls

/-!
No call but the task's own starts a delay: of a task that does not run, the tick that its delay or timeout matches is
left as it is, or the task leaves its spoke.
-/

namespace UcosIII

open Prog

variable {n : ℕ} {cfg : Cfg} {s s' : OS} {t u : TcbId} {o : ObjId} {e : Event} {r : Option Ret} {α β : Type}

section rules

def OS.deadline (t : TcbId) (s : OS) : Option ℕ × Tick := ((s.tcb t).tickSpokePtr, (s.tcb t).tickCtrMatch)

def DueKept (x y : Option ℕ × Tick) : Prop := y.1 = none ∨ y = x

instance : Std.Refl DueKept := ⟨fun _ => .inr rfl⟩

instance : IsTrans _ DueKept where
  trans x y z hxy hyz := by
    rcases hyz with hz | hz
    · exact .inl hz
    · exact hz ▸ hxy

def Defers (t : TcbId) (m : K α) : Prop := Grows DueKept (OS.deadline t) m

def Blocks (t : TcbId) (m : K α) : Prop :=
  ∀ (n : ℕ) cfg s, s.tcbCurPtr ≠ some t → wp n cfg m (fun _ s' => DueKept (s.deadline t) (s'.deadline t)) s

def OS.caller (t : TcbId) (s : OS) : Option TcbId × Option ℕ × Tick := (s.tcbCurPtr, s.deadline t)

namespace Defers

theorem of_keeps {m : K α} (h : Keeps (OS.deadline t) m) : Defers t m := h.grows

theorem bind {m : K β} {f : β → K α} (hm : Defers t m) (hf : ∀ b, Defers t (f b)) : Defers t (m >>= f) := grows_bind hm hf

theorem read {m : K β} {f : β → K α} (hm : Keeps (OS.deadline t) m) (hf : ∀ b, Defers t (f b)) : Defers t (m >>= f) :=
  (of_keeps hm).bind hf

theorem ite {c : Prop} [Decidable c] {m m' : K α} (h : Defers t m) (h' : Defers t m') : Defers t (if c then m else m') :=
  grows_ite h h'

theorem pure (a : α) : Defers t (Pure.pure a : K α) := of_keeps (keeps_pure a)

theorem blocks {m : K α} (h : Defers t m) : Blocks t m := fun n cfg s _ => h n cfg s

end Defers

namespace Blocks

theorem read {m : K β} {f : β → K α} (hm : Keeps (OS.caller t) m) (hf : ∀ b, Blocks t (f b)) : Blocks t (m >>= f) := by
  intro n cfg s hs
  rw [wp_bind]
  refine (hm n cfg s).mono fun b s' h => ?_
  have hcur : s'.tcbCurPtr = s.tcbCurPtr := (congrArg Prod.fst h :)
  have hdue : s'.deadline t = s.deadline t := (congrArg Prod.snd h :)
  rw [← hdue]
  exact hf b n cfg s' (hcur ▸ hs)

theorem bind {m : K β} {f : β → K α} (hm : Blocks t m) (hf : ∀ b, Defers t (f b)) : Blocks t (m >>= f) := by
  intro n cfg s hs
  rw [wp_bind]
  exact (hm n cfg s hs).mono fun b s' h => (hf b n cfg s').mono fun _ _ h' => IsTrans.trans _ _ _ h h'

theorem ite {c : Prop} [Decidable c] {m m' : K α} (h : Blocks t m) (h' : Blocks t m') : Blocks t (if c then m else m') := by
  split
  · exact h
  · exact h'

theorem pure (a : α) : Blocks t (Pure.pure a : K α) := (Defers.pure a).blocks

theorem getCur {f : TcbId → K α} (hf : ∀ u, u ≠ t → Defers t (f u)) : Blocks t (UcosIII.getCur >>= f) := by
  intro n cfg s hs
  rw [wp_bind, wp_getCur]
  intro u hu
  exact hf u (fun h => hs (h ▸ hu)) n cfg s

end Blocks

def Timeless (f : TCB → TCB) : Prop := ∀ c, ((f c).tickSpokePtr, (f c).tickCtrMatch) = (c.tickSpokePtr, c.tickCtrMatch)

theorem OS.deadline_modTcb {f : TCB → TCB} (hf : Timeless f) (x : TcbId) (s : OS) :
    (s.modTcb x f).deadline t = s.deadline t := by
  unfold OS.deadline
  rw [OS.modTcb_tcb]
  split
  · subst x
    exact hf _
  · rfl

theorem OS.deadline_modTcb_ne (f : TCB → TCB) (hu : u ≠ t) (s : OS) : (s.modTcb u f).deadline t = s.deadline t := by
  unfold OS.deadline
  rw [OS.modTcb_tcb, if_neg (Ne.symm hu)]

theorem keeps_caller_modTcb (f : TCB → TCB) (hf : Timeless f) (x : TcbId) : Keeps (OS.caller t) (modTcb x f) :=
  keeps_modify fun s => by rw [OS.caller, OS.deadline_modTcb hf]; rfl

theorem Defers.of_caller {m : K α} (h : Keeps (OS.caller t) m) : Defers t m := .of_keeps (h.comp Prod.snd)

theorem Defers.set {x : TcbId} (f : TCB → TCB) {m : Unit → K α} (hf : Timeless f) (hm : ∀ b, Defers t (m b)) :
    Defers t (modTcb x f >>= m) :=
  (of_caller (keeps_caller_modTcb f hf x)).bind hm

theorem Defers.set' {x : TcbId} (f : TCB → TCB) (hf : Timeless f) : Defers t (modTcb x f) :=
    .of_caller (keeps_caller_modTcb f hf x)

end rules

section lists

theorem keeps_caller_modPendData (d : PdId) (f : PendData → PendData) : Keeps (OS.caller t) (modPendData d f) :=
  keeps_modify fun _ => rfl

theorem keeps_caller_modObj (o : ObjId) (f : Obj → Obj) : Keeps (OS.caller t) (modObj o f) := keeps_modify fun _ => rfl

theorem keeps_caller_rdyListRemove (x : TcbId) : Keeps (OS.caller t) (rdyListRemove x) :=
  (keeps_rdyListRemove x).comp (OS.caller t)

theorem keeps_caller_pendListInsertPrio (d : PdId) : Keeps (OS.caller t) (pendListInsertPrio o d) :=
  (keeps_pendListInsertPrio d o).comp (OS.caller t)

theorem keeps_deadline_osSched : Keeps (OS.deadline t) osSched := keeps_osSched (fun _ _ _ => rfl) fun _ _ _ => rfl

theorem defers_tickListRemove (x : TcbId) : Defers t (tickListRemove x) := by
  have hspoke (i : ℕ) (f : TickSpoke → TickSpoke) : Keeps (OS.deadline t) (modSpoke i f) := keeps_modify fun _ => rfl
  have hend (i : ℕ) : Defers t (do
      modTcb x fun c => { c with tickNextPtr := none, tickPrevPtr := none, tickSpokePtr := none, tickCtrMatch := 0 }
      decSpoke i) := by
    refine .bind ?_ fun _ => .read (keeps_getSpoke i) fun k => .read (keeps_objQtyDec _) fun _ => .of_keeps (hspoke i _)
    refine grows_modify fun s => ?_
    by_cases hx : x = t
    · subst hx
      exact .inl (by simp [OS.deadline, OS.modTcb_tcb])
    · exact .inr (OS.deadline_modTcb_ne _ hx s)
  refine .read (keeps_getTcb x) fun c => ?_
  cases c.tickSpokePtr with
  | none => exact .pure ()
  | some i =>
    refine .set _ (fun _ => rfl) fun _ => .read (keeps_getTcb x) fun c => .read (keeps_getSpoke i) fun k => .ite ?_ ?_
    · refine .read (hspoke i _) fun _ => ?_
      cases c.tickNextPtr with
      | none => exact hend i
      | some t1 => exact .set _ (fun _ => rfl) fun _ => hend i
    · refine .read (keeps_deref _) fun t1 => .set _ (fun _ => rfl) fun _ => ?_
      cases c.tickNextPtr with
      | none => exact hend i
      | some t2 => exact .set _ (fun _ => rfl) fun _ => hend i

theorem keeps_deadline_modSpoke (i : ℕ) (f : TickSpoke → TickSpoke) : Keeps (OS.deadline t) (modSpoke i f) :=
  keeps_modify fun _ => rfl

theorem defers_tickListWalk (x : TcbId) (i : ℕ) (t1 : TcbId) : Defers t (tickListWalk x i t1) := by
  refine .read keeps_get fun s => .set _ (fun _ => rfl) fun _ => .read (keeps_getTcb t1) fun c1 =>
    .read (keeps_getTcb x) fun c => ?_
  refine .ite ?_ ?_
  · cases c1.tickNextPtr with
    | some t2 => exact .pure _
    | none => exact .set _ (fun _ => rfl) fun _ => .set _ (fun _ => rfl) fun _ => .pure _
  · cases c1.tickPrevPtr with
    | none =>
      exact .set _ (fun _ => rfl) fun _ => .set _ (fun _ => rfl) fun _ => .read (keeps_deadline_modSpoke i _) fun _ => .pure _
    | some t0 => exact .set _ (fun _ => rfl) fun _ => .set _ (fun _ => rfl) fun _ => .set _ (fun _ => rfl) fun _ => .pure _

theorem defers_tickListInsert (hu : u ≠ t) (time : Tick) (opt : Opt) : Defers t (tickListInsert u time opt) := by
  have hset (f : TCB → TCB) : Keeps (OS.deadline t) (modTcb u f) := keeps_modify fun s => OS.deadline_modTcb_ne f hu s
  have hend (i : ℕ) : Defers t (do
      modSpoke i fun k => { k with nbrEntriesMax := max k.nbrEntriesMax k.nbrEntries }
      modTcb u fun c => { c with tickSpokePtr := some i }) :=
    .read (keeps_deadline_modSpoke i _) fun _ => .of_keeps (hset _)
  have hinc (i : ℕ) : Defers t (do
      incSpoke i
      modSpoke i fun k => { k with nbrEntriesMax := max k.nbrEntriesMax k.nbrEntries }
      modTcb u fun c => { c with tickSpokePtr := some i }) :=
    .bind (.read (keeps_getSpoke i) fun k => .read (keeps_objQtyInc _) fun _ => .of_keeps (keeps_deadline_modSpoke i _))
      fun _ =>
      hend i
  refine .read (keeps_getTcb u) fun c => .read keeps_get fun s => ?_
  cases tickMatch c s.tickCtr time opt with
  | none => exact .read (hset _) fun _ => .pure _
  | some c' =>
    refine .read (hset _) fun _ => .bind ?_ fun _ => .pure _
    refine .read (keeps_getTcb u) fun c => .read keeps_ask fun cfg => .read (keeps_getSpoke _) fun k => .ite ?_ ?_
    · exact .read (hset _) fun _ => .read (keeps_deadline_modSpoke _ _) fun _ => hend _
    · cases k.firstPtr with
      | none => exact hinc _
      | some t1 => exact .bind (grows_loop (fun x => defers_tickListWalk u _ x) t1) fun _ => hinc _

theorem defers_pendListRemove (x : TcbId) : Defers t (pendListRemove x) := by
  refine .of_keeps fun n cfg s => pendListRemove_frame.mono fun _ s' hs => ?_
  calc s'.deadline t = (s.modTcb x TCB.noTable).deadline t := (congrArg (OS.deadline t) hs :)
    _ = s.deadline t := OS.deadline_modTcb (f := TCB.noTable) (fun _ => rfl) x s

theorem defers_taskRdy (x : TcbId) : Defers t (taskRdy x) := by
  refine .bind (defers_tickListRemove x) fun _ => .read (keeps_getTcb x) fun _ => .ite ?_ (.pure ())
  exact .of_keeps ((keeps_rdyListInsert x).comp (OS.deadline t))

theorem defers_taskBlock (hu : u ≠ t) (timeout : Tick) : Defers t (taskBlock u timeout) := by
  have hrest (st : TaskState) : Defers t (modTcb u (fun c => { c with taskState := st }) >>= fun _ => rdyListRemove u) :=
    .set _ (fun _ => rfl) fun _ => .of_caller (keeps_caller_rdyListRemove u)
  refine .ite (.bind (defers_tickListInsert hu timeout optTimeTimeout) fun x => ?_) (hrest _)
  cases x <;> exact hrest _

end lists

section waits

theorem keeps_caller_markEntry (p : Option ObjId) (f : PendData → PendData) (k : ℕ) (d : PdId) :
    Keeps (OS.caller t) (markEntry p f k d) := by
  induction k generalizing d with
  | zero => exact keeps_pure ()
  | succ k ih => exact keeps_bind (keeps_getPendData d) fun _ => keeps_ite (keeps_caller_modPendData d f) (ih _)

theorem Defers.ends {p : Option ObjId} {x : TcbId} {unlink : K Unit} {f : TCB → TCB} (hu : Defers t unlink) (hf : Timeless f) :
    Defers t (do
      if p ≠ none then pendListRemove x
      unlink
      modTcb x f) :=
  .ite (.bind (defers_pendListRemove x) fun _ => .bind hu fun _ => .set' f hf) (.bind hu fun _ => .set' f hf)

theorem defers_post1 (p : Option ObjId) (x : TcbId) (pVoid : Option ℕ) (msgSize ts : ℕ) :
    Defers t (post1 p x pVoid msgSize ts) :=
  .read (keeps_getTcb x) fun _ => .ite (.pure ()) (.read (keeps_deref _) fun d => .of_caller (keeps_caller_markEntry p _ _ d))

theorem defers_pendAbort1 (p : Option ObjId) (x : TcbId) (ts : ℕ) : Defers t (pendAbort1 p x ts) :=
  .read (keeps_getTcb x) fun _ => .ite (.pure ()) (.read (keeps_deref _) fun d => .of_caller (keeps_caller_markEntry p _ _ d))

theorem defers_post (p : Option ObjId) (x : TcbId) (pVoid : Option ℕ) (msgSize ts : ℕ) :
    Defers t (post p x pVoid msgSize ts) := by
  have hrdy : Defers t (do
      if p ≠ none then pendListRemove x
      taskRdy x
      modTcb x fun c => { c with taskState := .rdy, pendStatus := .ok, pendOn := .nothing }) :=
    .ends (defers_taskRdy x) fun _ => rfl
  have hset : Timeless fun c : TCB => { c with taskState := .suspended, pendStatus := .ok, pendOn := .nothing } := fun _ => rfl
  have hheld : Defers t (do
      tickListRemove x
      if p ≠ none then pendListRemove x
      modTcb x fun c => { c with taskState := .suspended, pendStatus := .ok, pendOn := .nothing }) :=
    .bind (defers_tickListRemove x) fun _ =>
      .ite (.bind (defers_pendListRemove x) fun _ => .set' _ hset) (.set' _ hset)
  refine .read (keeps_getTcb x) fun c => ?_
  cases c.taskState with
  | rdy | dly | suspended | dlySuspended | del => exact .pure ()
  | pend | pendTimeout =>
    exact .ite (.bind (defers_post1 p x pVoid msgSize ts) fun _ => hrdy) (.set _ (fun _ => rfl) fun _ => hrdy)
  | pendSuspended | pendTimeoutSuspended =>
    exact .ite (.bind (defers_post1 p x pVoid msgSize ts) fun _ => hheld) (.set _ (fun _ => rfl) fun _ => hheld)

theorem defers_pendAbort (p : Option ObjId) (x : TcbId) (ts : ℕ) : Defers t (pendAbort p x ts) := by
  refine .read (keeps_getTcb x) fun c => ?_
  cases c.taskState with
  | rdy | dly | suspended | dlySuspended | del => exact .pure ()
  | pend | pendTimeout =>
    have hend := Defers.set (t := t) (x := x) (fun c => { c with msgPtr := none, msgSize := 0, ts := ts })
      (fun _ => rfl) fun _ =>
      Defers.ends (p := p) (x := x) (f := fun c => { c with taskState := .rdy, pendStatus := .abort, pendOn := .nothing })
        (defers_taskRdy x) fun _ => rfl
    exact .ite (.bind (defers_pendAbort1 p x ts) fun _ => hend) hend
  | pendSuspended | pendTimeoutSuspended =>
    have hend := Defers.set (t := t) (x := x) (fun c => { c with msgPtr := none, msgSize := 0, ts := ts })
      (fun _ => rfl) fun _ =>
      Defers.ends (p := p) (x := x) (f := fun c => { c with taskState := .suspended, pendStatus := .abort, pendOn := .nothing })
        (defers_tickListRemove x) fun _ => rfl
    exact .ite (.bind (defers_pendAbort1 p x ts) fun _ => hend) hend

theorem defers_flagTaskRdy (x : TcbId) (flagsRdy : Flags) (ts : ℕ) : Defers t (flagTaskRdy x flagsRdy ts) := by
  refine .set _ (fun _ => rfl) fun _ => .read (keeps_getTcb x) fun c => ?_
  cases c.taskState with
  | rdy | dly | dlySuspended | suspended | del => exact defers_pendListRemove x
  | pend | pendTimeout => exact .bind (defers_taskRdy x) fun _ => .set _ (fun _ => rfl) fun _ => defers_pendListRemove x
  | pendSuspended | pendTimeoutSuspended => exact .set _ (fun _ => rfl) fun _ => defers_pendListRemove x

theorem defers_tickListExpire (x : TcbId) : Defers t (tickListExpire x) := by
  refine .read keeps_get fun s => .read (keeps_getTcb x) fun c => ?_
  cases c.taskState with
  | rdy | pend | suspended | pendSuspended | del => exact .pure _
  | dly =>
    exact .set _ (fun _ => rfl) fun _ => .ite (.set _ (fun _ => rfl) fun _ => .bind (defers_taskRdy x) fun _ => .pure _)
      (.pure _)
  | dlySuspended =>
    exact .set _ (fun _ => rfl) fun _ => .ite (.set _ (fun _ => rfl) fun _ => .bind (defers_tickListRemove x) fun _ =>
      .pure _) (.pure _)
  | pendTimeout =>
    refine .set _ (fun _ => rfl) fun _ => .ite (.read keeps_tsGet fun ts => .set _ (fun _ => rfl) fun _ => ?_) (.pure _)
    exact .bind (defers_pendListRemove x) fun _ => .bind (defers_taskRdy x) fun _ => .set _ (fun _ => rfl) fun _ => .pure _
  | pendTimeoutSuspended =>
    refine .set _ (fun _ => rfl) fun _ => .ite (.read keeps_tsGet fun ts => .set _ (fun _ => rfl) fun _ => ?_) (.pure _)
    exact .bind (defers_pendListRemove x) fun _ => .bind (defers_tickListRemove x) fun _ => .set _ (fun _ => rfl) fun _ =>
      .pure _

theorem defers_tickListUpdate : Defers t tickListUpdate := by
  refine .read (keeps_modify fun _ => rfl) fun _ => .read keeps_get fun s => .read keeps_ask fun cfg => ?_
  refine .read (keeps_getSpoke _) fun k => grows_loop (fun p => ?_) k.firstPtr
  cases p with
  | none => exact Defers.pure _
  | some x =>
    exact Defers.read (keeps_getTcb x) fun _ => .bind (defers_tickListExpire x) fun _ => .ite (.pure _) (.pure _)

theorem defers_waitThen (k : Cont) : Defers t (waitThen k) :=
  .read keeps_getCur fun _ => .read (keeps_modify fun _ => rfl) fun _ => .read keeps_deadline_osSched fun _ => .pure _

theorem blocks_pend (p : Option ObjId) (kind : PendOn) (timeout : Tick) : Blocks t (pend p kind timeout) := by
  refine .getCur fun u hu => .set _ (fun _ => rfl) fun _ => .bind (defers_taskBlock hu timeout) fun _ => ?_
  cases p with
  | none => exact .set' _ fun _ => rfl
  | some o =>
    refine .of_caller (keeps_bind (keeps_caller_modPendData _ _) fun _ => keeps_bind ?_ fun _ =>
      keeps_caller_pendListInsertPrio _)
    exact keeps_bind (keeps_caller_modTcb _ (by intro c; rfl) u) fun _ =>
      keeps_forEntries (fun d => keeps_caller_modPendData d _) 1 (u, 0)

theorem blocks_pendThen (p : Option ObjId) (kind : PendOn) (timeout : Tick) (k : Cont) :
    Blocks t (pend p kind timeout >>= fun _ => waitThen k) :=
  (blocks_pend p kind timeout).bind fun _ => defers_waitThen k

theorem blocks_pendMultiWait (d : PdId) (tblSize : ℕ) (timeout : Tick) : Blocks t (pendMultiWait d tblSize timeout) := by
  refine .getCur fun u hu => .set _ (fun _ => rfl) fun _ => .bind (defers_taskBlock hu timeout) fun _ => ?_
  refine .of_caller (keeps_forEntries (fun d => ?_) tblSize d)
  refine keeps_bind (keeps_caller_modPendData d _) fun _ => keeps_bind (keeps_getPendData d) fun _ => ?_
  refine keeps_bind (keeps_deref _) fun o => keeps_bind (keeps_getObj o) fun b => ?_
  cases b.type with
  | sem | q => exact keeps_caller_pendListInsertPrio d
  | none | flag | mutex => exact keeps_pure ()

end waits

section tasks

theorem defers_schedThen {f : Unit → K α} (opt : Opt) (hf : ∀ b, Defers t (f b)) : Defers t (schedOpt opt >>= f) :=
  .read (keeps_ite keeps_deadline_osSched (keeps_pure ())) hf

theorem defers_taskUnlink (x : TcbId) : Defers t (taskUnlink x) := by
  refine .read (keeps_getTcb x) fun c => ?_
  cases c.taskState with
  | rdy => exact .of_caller (keeps_caller_rdyListRemove x)
  | suspended | del => exact .pure ()
  | dly | dlySuspended => exact defers_tickListRemove x
  | pend | pendSuspended | pendTimeout | pendTimeoutSuspended =>
    refine .bind (defers_tickListRemove x) fun _ => ?_
    cases c.pendOn with
    | nothing | taskQ | taskSem => exact .pure ()
    | flag | multi | mutex | q | sem => exact defers_pendListRemove x

theorem defers_taskInitTCB (x : TcbId) : Defers t (taskInitTCB x) := by
  refine .read keeps_ask fun cfg => grows_modify fun s => ?_
  by_cases hx : x = t
  · subst hx
    exact .inl (by simp [OS.deadline, OS.modTcb_tcb, TCB.init])
  · exact .inr (OS.deadline_modTcb_ne _ hx s)

theorem defers_osTaskCreate (a : TaskArgs) : Defers t (osTaskCreate a) := by
  refine .read keeps_ask fun cfg => .read keeps_get fun s => ?_
  cases taskCreateCheck cfg s a with
  | inl x => exact .pure x
  | inr x =>
    have hstart : Defers t (taskStart x a) := by
      refine .bind (defers_taskInitTCB x) fun _ => .read keeps_get fun s => .set _ (fun _ => rfl) fun _ => ?_
      refine .read ((keeps_prioInsert a.prio).comp (OS.deadline t)) fun _ => ?_
      exact .of_keeps ((keeps_rdyListInsertTail x).comp (OS.deadline t))
    refine .bind hstart fun _ => .read keeps_get fun s => .ite (.pure _) ?_
    exact .read keeps_deadline_osSched fun _ => .pure _

theorem defers_osTaskDel (p : Option TcbId) : Defers t (osTaskDel p) := by
  have herase (x : TcbId) : Defers t (taskErase x) := by
    refine .bind (defers_taskUnlink x) fun _ => .read (keeps_getTcb x) fun c =>
      .read ((keeps_noMsgs_msgQFreeAll _).comp (OS.deadline t)) fun _ => ?_
    exact .bind (defers_taskInitTCB x) fun _ => .set _ (fun _ => rfl) fun _ => .of_keeps (keeps_modify fun _ => rfl)
  refine .read keeps_get fun s => .ite (.pure _) (.ite (.pure _) (.read (keeps_orCur p) fun x => .read (keeps_getTcb x) fun c => ?_))
  exact .ite (.pure _) (.bind (herase x) fun _ => .read keeps_deadline_osSched fun _ => .pure _)

theorem defers_osTaskSuspend (p : Option TcbId) : Defers t (osTaskSuspend p) := by
  have hsuspend (x : TcbId) : Defers t (suspendTcb x) := by
    refine .read (keeps_getTcb x) fun c => ?_
    cases c.taskState with
    | rdy => exact .set _ (fun _ => rfl) fun _ => .bind (.of_caller (keeps_caller_rdyListRemove x)) fun _ => .pure _
    | dly | pend | pendTimeout => exact .set _ (fun _ => rfl) fun _ => .pure _
    | suspended | dlySuspended | pendSuspended | pendTimeoutSuspended => exact .set _ (fun _ => rfl) fun _ => .pure _
    | del => exact .pure _
  refine .read keeps_get fun s => .ite (.pure _) (.ite (.pure _) (.read (keeps_orCur p) fun x => .read keeps_get fun s => ?_))
  refine .ite (.pure _) (.bind (hsuspend x) fun y => .ite (.pure _) (.read keeps_deadline_osSched fun _ => .pure _))

theorem defers_osTaskResume (p : Option TcbId) : Defers t (osTaskResume p) := by
  have hinto (x : TcbId) (st : TaskState) : Defers t (resumeInto x st) :=
    .set _ (fun _ => rfl) fun _ => .read (keeps_getTcb x) fun _ => .ite (.set' _ fun _ => rfl) (.pure ())
  have hresume (x : TcbId) : Defers t (resumeTcb x) := by
    refine .read (keeps_getTcb x) fun c => ?_
    cases c.taskState with
    | rdy | dly | pend | pendTimeout | del => exact .pure _
    | suspended =>
      refine .bind (hinto x .rdy) fun _ => .read (keeps_getTcb x) fun _ => .ite ?_ (.pure _)
      exact .bind (defers_taskRdy x) fun _ => .pure _
    | dlySuspended | pendSuspended | pendTimeoutSuspended => exact .bind (hinto x _) fun _ => .pure _
  refine .read keeps_get fun s => .ite (.pure _) (.ite (.pure _) (.read (keeps_deref p) fun x => .bind (hresume x) fun y => ?_))
  exact .ite (.pure _) (.read keeps_deadline_osSched fun _ => .pure _)

theorem keeps_caller_pendListChangePrio (x : TcbId) (prio : ℕ) : Keeps (OS.caller t) (pendListChangePrio x prio) := by
  refine keeps_bind (keeps_caller_modTcb _ (by intro c; rfl) x) fun _ => keeps_bind (keeps_getTcb x) fun c => ?_
  refine keeps_ite (keeps_pure ()) (keeps_bind (keeps_deref _) fun d => keeps_forEntries (fun d => ?_) _ d)
  refine keeps_bind (keeps_getPendData d) fun e => keeps_bind (keeps_deref _) fun o => keeps_bind (keeps_getObj o) fun _ => ?_
  refine keeps_ite (keeps_bind ((keeps_pendListRemove1 d o).comp (OS.caller t)) fun _ => ?_) (keeps_pure ())
  exact keeps_caller_pendListInsertPrio d

theorem keeps_caller_rdyChangePrio (x : TcbId) (prio : ℕ) (atHead : Bool) :
    Keeps (OS.caller t) (rdyChangePrio x prio atHead) := by
  refine keeps_bind (keeps_caller_rdyListRemove x) fun _ => keeps_bind (keeps_caller_modTcb _ (by intro c; rfl) x) fun _ => ?_
  refine keeps_bind ((keeps_prioInsert prio).comp (OS.caller t)) fun _ => ?_
  cases atHead with
  | true => exact (keeps_rdyListInsertHead x).comp (OS.caller t)
  | false => exact (keeps_rdyListInsertTail x).comp (OS.caller t)

theorem defers_osTaskChangePrio (p : Option TcbId) (prioNew : ℕ) : Defers t (osTaskChangePrio p prioNew) := by
  have hchange (x : TcbId) (self : Bool) : Keeps (OS.caller t) (changePrioTcb x prioNew self) := by
    refine keeps_bind (keeps_getTcb x) fun c => ?_
    cases c.taskState with
    | rdy => exact keeps_bind (keeps_caller_rdyChangePrio x prioNew self) fun _ => keeps_pure _
    | dly | suspended | dlySuspended => exact keeps_bind (keeps_caller_modTcb _ (by intro c; rfl) x) fun _ => keeps_pure _
    | pend | pendTimeout | pendSuspended | pendTimeoutSuspended =>
      cases c.pendOn with
      | taskQ | taskSem | flag => exact keeps_bind (keeps_caller_modTcb _ (by intro c; rfl) x) fun _ => keeps_pure _
      | mutex | multi | q | sem => exact keeps_bind (keeps_caller_pendListChangePrio x prioNew) fun _ => keeps_pure _
      | nothing => exact keeps_pure _
    | del => exact keeps_pure _
  refine .read keeps_get fun s => .ite (.pure _) (.read keeps_ask fun cfg => .ite (.pure _) (.read (keeps_orCur p) fun x => ?_))
  refine .bind (.of_caller (hchange x _)) fun y => .ite (.pure _) (.read keeps_deadline_osSched fun _ => .pure _)

theorem defers_osTaskTimeQuantaSet (p : Option TcbId) (timeQuanta : Tick) : Defers t (osTaskTimeQuantaSet p timeQuanta) :=
  .read keeps_get fun _ => .ite (.pure _) (.read (keeps_orCur p) fun _ =>
    .set _ (fun _ => rfl) fun _ => .set _ (fun _ => rfl) fun _ => .pure _)

theorem defers_taskPendAbort (kind : PendOn) (p : Option TcbId) (opt : Opt) : Defers t (do
    let s ← Prog.get
    if s.intNestingCtr > 0 then return ({ err := .pendAbortISR } : Ret)
    if postOptValid opt = false then return { err := .optInvalid }
    if p = none ∨ p = s.tcbCurPtr then return { err := .pendAbortSelf }
    let x ← Prog.deref p
    if (← getTcb x).pendOn ≠ kind then return { err := .pendAbortNone }
    pendAbort none x s.tsNow
    schedOpt opt
    return { err := .none, val := 1 }) := by
  refine .read keeps_get fun s => .ite (.pure _) (.ite (.pure _) (.ite (.pure _) (.read (keeps_deref p) fun x => ?_)))
  refine .read (keeps_getTcb x) fun _ => .ite (.pure _) (.bind (defers_pendAbort none x s.tsNow) fun _ => ?_)
  exact defers_schedThen opt fun _ => .pure _

theorem defers_taskSemInc (x : TcbId) : Defers t (taskSemInc x) :=
  .read (keeps_getTcb x) fun _ => .ite (.pure _) (.set _ (fun _ => rfl) fun _ => .pure _)

theorem defers_osTaskSemPost (p : Option TcbId) (opt : Opt) : Defers t (osTaskSemPost p opt) := by
  refine .ite (.pure _) (.read keeps_tsGet fun ts => .read (keeps_orCur p) fun x => .set _ (fun _ => rfl) fun _ => ?_)
  refine .read (keeps_getTcb x) fun c => ?_
  cases c.taskState with
  | rdy | dly | suspended | dlySuspended => exact defers_taskSemInc x
  | pend | pendTimeout | pendSuspended | pendTimeoutSuspended =>
    refine .ite (.bind (defers_post none x none 0 ts) fun _ => .read (keeps_getTcb x) fun _ => ?_) (defers_taskSemInc x)
    exact defers_schedThen opt fun _ => .pure _
  | del => exact .pure _

theorem defers_osTaskSemSet (p : Option TcbId) (cnt : ℕ) : Defers t (osTaskSemSet p cnt) :=
  .read keeps_get fun _ => .ite (.pure _) (.read (keeps_orCur p) fun x => .read (keeps_getTcb x) fun _ =>
    .set _ (fun _ => rfl) fun _ => .pure _)

theorem defers_osTaskQFlush (p : Option TcbId) : Defers t (osTaskQFlush p) :=
  .read keeps_get fun _ => .ite (.pure _) (.read (keeps_orCur p) fun x => .read (keeps_getTcb x) fun _ =>
    .read ((keeps_noMsgs_msgQFreeAll _).comp (OS.deadline t)) fun _ => .set _ (fun _ => rfl) fun _ => .pure _)

theorem defers_osTaskQPost (p : Option TcbId) (pVoid : Option ℕ) (msgSize : ℕ) (opt : Opt) :
    Defers t (osTaskQPost p pVoid msgSize opt) := by
  have hput (x : TcbId) (ts : ℕ) : Defers t (taskQPut x pVoid msgSize opt ts) :=
    .read (keeps_getTcb x) fun _ => .read ((keeps_noMsgs_msgQPut _ _ _ _ _).comp (OS.deadline t)) fun _ =>
      .set _ (fun _ => rfl) fun _ => .pure _
  refine .ite (.pure _) (.read keeps_tsGet fun ts => .read (keeps_orCur p) fun x => .read (keeps_getTcb x) fun c => ?_)
  cases c.taskState with
  | rdy | dly | suspended | dlySuspended => exact hput x ts
  | pend | pendTimeout | pendSuspended | pendTimeoutSuspended =>
    refine .ite (.bind (defers_post none x pVoid msgSize ts) fun _ => ?_) (hput x ts)
    exact defers_schedThen opt fun _ => .pure _
  | del => exact .pure _

theorem blocks_osTaskSemPend (timeout : Tick) (opt : Opt) : Blocks t (osTaskSemPend timeout opt) := by
  refine .read keeps_get fun s => .ite (.pure _) (.ite (.pure _) (.read keeps_getCur fun u => .read (keeps_getTcb u) fun c => ?_))
  refine .ite (.read (keeps_caller_modTcb _ (by intro c; rfl) u) fun _ => .pure _) (.ite (.pure _) (.ite (.pure _) ?_))
  exact blocks_pendThen none .taskSem timeout .taskSemPend

theorem blocks_osTaskQPend (timeout : Tick) (opt : Opt) (hasSize : Bool) : Blocks t (osTaskQPend timeout opt hasSize) := by
  refine .read keeps_get fun s => .ite (.pure _) (.ite (.pure _) (.ite (.pure _) (.read keeps_getCur fun u => ?_)))
  refine .read (keeps_getTcb u) fun c => .read ((keeps_noMsgs_msgQGet _).comp (OS.caller t)) fun x => ?_
  refine .read (keeps_caller_modTcb _ (by intro c; rfl) u) fun _ => .ite (.pure _) (.ite (.pure _) (.ite (.pure _) ?_))
  exact blocks_pendThen none .taskQ timeout .taskQPend

end tasks

section objects

theorem defers_set (o : ObjId) (f : Obj → Obj) {m : Unit → K α} (hm : ∀ b, Defers t (m b)) : Defers t (modObj o f >>= m) :=
  (Defers.of_caller (keeps_caller_modObj o f)).bind hm

theorem blocks_set (o : ObjId) (f : Obj → Obj) {m : Unit → K α} (hm : ∀ b, Blocks t (m b)) : Blocks t (modObj o f >>= m) :=
  .read (keeps_caller_modObj o f) hm

theorem defers_postLoop (o : ObjId) (pVoid : Option ℕ) (msgSize ts : ℕ) (k : ℕ) (p : Option PdId) :
    Defers t (postLoop o pVoid msgSize ts k p) := by
  induction k generalizing p with
  | zero => exact .pure ()
  | succ k ih =>
    refine .read (keeps_deref p) fun d => .read (keeps_getPendData d) fun e => .read (keeps_deref _) fun x => ?_
    exact .bind (defers_post (some o) x pVoid msgSize ts) fun _ => ih _

theorem defers_objPendAbort (type : ObjType) (p : Option ObjId) (opt : Opt) : Defers t (objPendAbort type p opt) := by
  have hstep (o : ObjId) (ts k : ℕ) : Defers t (pendAbortStep o opt ts k) := by
    refine .read (keeps_getObj o) fun b => .ite (.pure _) (.read (keeps_deref _) fun d =>
      .read (keeps_getPendData d) fun e => ?_)
    exact .read (keeps_deref _) fun x => .bind (defers_pendAbort (some o) x ts) fun _ => .ite (.pure _) (.pure _)
  refine .read keeps_get fun s => .ite (.pure _) ?_
  cases p with
  | none => exact .pure _
  | some o =>
    refine .ite (.pure _) (.read (keeps_getObj o) fun b => .ite (.pure _) (.read (keeps_getObj o) fun b => .ite (.pure _) ?_))
    exact .bind (grows_loop (fun k => hstep o s.tsNow k) 0) fun _ => defers_schedThen opt fun _ => .pure _

theorem defers_osSemPost (p : Option ObjId) (opt : Opt) : Defers t (osSemPost p opt) := by
  cases p with
  | none => exact .pure _
  | some o =>
    refine .ite (.pure _) (.read (keeps_getObj o) fun b => .ite (.pure _) (.read keeps_tsGet fun ts => ?_))
    refine .read (keeps_getObj o) fun b => .ite (.ite (.pure _) (defers_set o _ fun _ => .pure _)) ?_
    refine .bind (defers_postLoop o none 0 ts _ _) fun _ => .read (keeps_getObj o) fun _ => ?_
    exact defers_schedThen opt fun _ => .pure _

theorem defers_osQPost (p : Option ObjId) (pVoid : Option ℕ) (msgSize : ℕ) (opt : Opt) :
    Defers t (osQPost p pVoid msgSize opt) := by
  cases p with
  | none => exact .pure _
  | some o =>
    refine .ite (.pure _) (.read (keeps_getObj o) fun b => .ite (.pure _) (.read keeps_tsGet fun ts => ?_))
    refine .read (keeps_getObj o) fun b => .ite ?_ (.bind (defers_postLoop o pVoid msgSize ts _ _) fun _ => ?_)
    · exact .read ((keeps_noMsgs_msgQPut _ _ _ _ _).comp (OS.deadline t)) fun _ => defers_set o _ fun _ => .pure _
    · exact defers_schedThen opt fun _ => .pure _

theorem blocks_osSemPend (p : Option ObjId) (timeout : Tick) (opt : Opt) : Blocks t (osSemPend p timeout opt) := by
  refine .read keeps_get fun s => .ite (.pure _) ?_
  cases p with
  | none => exact .pure _
  | some o =>
    refine .ite (.pure _) (.read (keeps_getObj o) fun b => .ite (.pure _) (.ite (blocks_set o _ fun _ => .pure _) ?_))
    exact .ite (.pure _) (.ite (.pure _) (blocks_pendThen (some o) .sem timeout (.semPend o)))

theorem blocks_osQPend (p : Option ObjId) (timeout : Tick) (opt : Opt) (hasSize : Bool) :
    Blocks t (osQPend p timeout opt hasSize) := by
  refine .read keeps_get fun s => .ite (.pure _) ?_
  cases p with
  | none => exact .pure _
  | some o =>
    refine .ite (.pure _) (.ite (.pure _) (.read (keeps_getObj o) fun b => .ite (.pure _) (.read (keeps_getObj o) fun b => ?_)))
    refine .read ((keeps_noMsgs_msgQGet _).comp (OS.caller t)) fun x => blocks_set o _ fun _ => .ite (.pure _) ?_
    exact .ite (.pure _) (.ite (.pure _) (blocks_pendThen (some o) .q timeout .qPend))

theorem blocks_osMutexPend (p : Option ObjId) (timeout : Tick) (opt : Opt) : Blocks t (osMutexPend p timeout opt) := by
  have hboost (x : TcbId) (prio : ℕ) : Keeps (OS.caller t) (mutexBoost x prio) := by
    refine keeps_bind (keeps_getTcb x) fun c => ?_
    cases c.taskState with
    | rdy => exact keeps_bind (keeps_caller_rdyChangePrio x prio true) fun _ => keeps_pure _
    | dly | dlySuspended | suspended => exact keeps_bind (keeps_caller_modTcb _ (by intro c; rfl) x) fun _ => keeps_pure _
    | pend | pendTimeout | pendSuspended | pendTimeoutSuspended =>
      exact keeps_bind (keeps_caller_pendListChangePrio x prio) fun _ => keeps_pure _
    | del => exact keeps_pure _
  have hwait (o : ObjId) (u : TcbId) : Blocks t (mutexWait o u timeout) := by
    refine .read (keeps_getObj o) fun b => .read (keeps_deref _) fun owner => .read (keeps_getTcb u) fun c => ?_
    have hend (e : Err) : Blocks t (if e ≠ .none then (pure (some { err := e }) : K (Option Ret)) else do
        pend (some o) .mutex timeout
        waitThen (.mutexPend o)) :=
      .ite (.pure _) (blocks_pendThen (some o) .mutex timeout (.mutexPend o))
    exact .read (keeps_getTcb owner) fun co => .ite (.read (hboost owner c.prio) hend) (.read (keeps_pure _) hend)
  refine .read keeps_get fun s => .ite (.pure _) ?_
  cases p with
  | none => exact .pure _
  | some o =>
    refine .ite (.pure _) (.read (keeps_getObj o) fun b => .ite (.pure _) (.read keeps_getCur fun u => ?_))
    refine .ite (.read (keeps_getTcb u) fun c => blocks_set o _ fun _ => .pure _) (.ite (blocks_set o _ fun _ => .pure _) ?_)
    exact .ite (.pure _) (.ite (.pure _) (hwait o u))

theorem defers_osMutexPost (p : Option ObjId) (opt : Opt) : Defers t (osMutexPost p opt) := by
  have hrestore (o : ObjId) (u : TcbId) : Defers t (mutexRestore o u) := by
    refine .read (keeps_getObj o) fun b => .read (keeps_getTcb u) fun c => .ite ?_ (.pure ())
    exact .bind (.of_caller (keeps_caller_rdyChangePrio u _ false)) fun _ => .of_keeps (keeps_modify fun _ => rfl)
  have hhand (o : ObjId) (ts : ℕ) : Defers t (mutexHandOff o ts) := by
    refine .read (keeps_getObj o) fun b => .read (keeps_deref _) fun d => .read (keeps_getPendData d) fun e => ?_
    refine .read (keeps_deref _) fun x => .read (keeps_getTcb x) fun c => defers_set o _ fun _ => ?_
    exact defers_post (some o) x none 0 ts
  refine .read keeps_get fun s => .ite (.pure _) ?_
  cases p with
  | none => exact .pure _
  | some o =>
    refine .ite (.pure _) (.read (keeps_getObj o) fun b => .ite (.pure _) (.read keeps_getCur fun u => .ite (.pure _) ?_))
    refine defers_set o _ fun _ => .read (keeps_getObj o) fun b => .ite (.pure _) (.ite (defers_set o _ fun _ => .pure _) ?_)
    exact .bind (hrestore o u) fun _ => .bind (hhand o s.tsNow) fun _ => defers_schedThen opt fun _ => .pure _

theorem blocks_osFlagPend (p : Option ObjId) (flags : Flags) (timeout : Tick) (opt : Opt) :
    Blocks t (osFlagPend p flags timeout opt) := by
  refine .read keeps_get fun s => .ite (.pure _) ?_
  cases p with
  | none => exact .pure _
  | some o =>
    refine .ite (.pure _) (.read (keeps_getObj o) fun b => .ite (.pure _) ?_)
    dsimp only
    cases flagsReady (opt &&& optPendFlagMask) b.flags flags with
    | none => exact .pure _
    | some x =>
      obtain ⟨flagsRdy, done⟩ := x
      cases done with
      | true =>
        have hset (x : Option Ret) : Blocks t (do
            modTcb (← getCur) fun c => { c with flagsRdy := flagsRdy }
            return x) :=
          .read keeps_getCur fun u => .read (keeps_caller_modTcb _ (by intro c; rfl) u) fun _ => .pure _
        exact .ite (blocks_set o _ fun _ => hset _) (hset _)
      | false =>
        have hblock : Blocks t (flagBlock o flags opt timeout) :=
          .read keeps_getCur fun u => .read (keeps_caller_modTcb _ (by intro c; rfl) u) fun _ =>
            blocks_pend (some o) .flag timeout
        exact .ite (.pure _) (.ite (.pure _) (hblock.bind fun _ => defers_waitThen _))

theorem defers_osFlagPost (p : Option ObjId) (flags : Flags) (opt : Opt) : Defers t (osFlagPost p flags opt) := by
  have hstep (o : ObjId) (ts : ℕ) (d : Option PdId) : Defers t (flagPostStep o ts d) := by
    cases d with
    | none => exact .pure _
    | some d =>
      refine .read (keeps_getPendData d) fun e => ?_
      cases e.tcbPtr with
      | none => exact .pure _
      | some x =>
        refine .read (keeps_getTcb x) fun c => .read (keeps_getObj o) fun b => ?_
        cases flagsReady (c.flagsOpt &&& optPendFlagMask) b.flags c.flagsPend with
        | none => exact .pure _
        | some y =>
          obtain ⟨flagsRdy, done⟩ := y
          cases done with
          | true => exact .bind (defers_flagTaskRdy x flagsRdy ts) fun _ => .pure _
          | false => exact .pure _
  have hpost (o : ObjId) (ts : ℕ) : Defers t (flagPost o flags opt ts) := by
    have hrest : Defers t (do
        let b ← getObj o
        if b.pendList.nbrEntries = 0 then return some { err := .none, val := b.flags.toNat }
        let d ← Prog.deref b.pendList.headPtr
        if ← Prog.loop (flagPostStep o ts) (some d) then return some { err := .flagPendOpt }
        if opt &&& optPostNoSched = 0 ∧ (← Prog.get).intNestingCtr = 0 then waitThen (.flagPost o)
        else return some { err := .none, val := (← getObj o).flags.toNat }) := by
      refine .read (keeps_getObj o) fun b => .ite (.pure _) (.read (keeps_deref _) fun d => ?_)
      refine .bind (grows_loop (fun d => hstep o ts d) (some d)) fun _ => .ite (.pure _) (.read keeps_get fun _ => ?_)
      exact .ite (defers_waitThen _) (.read (keeps_getObj o) fun _ => .pure _)
    exact .ite (defers_set o _ fun _ => hrest) (defers_set o _ fun _ => hrest)
  cases p with
  | none => exact .pure _
  | some o => exact .ite (.pure _) (.read (keeps_getObj o) fun b => .ite (.pure _) (.read keeps_tsGet fun ts => hpost o ts))

theorem blocks_osPendMulti (tbl : Option ℕ) (objs : List (Option ObjId)) (timeout : Tick) (opt : Opt) :
    Blocks t (osPendMulti tbl objs timeout opt) := by
  have hstore (l : List (Option ObjId)) (d : PdId) : Keeps (OS.caller t) (storeTable d l) := by
    induction l generalizing d with
    | nil => exact keeps_pure ()
    | cons x l ih => exact keeps_bind (keeps_caller_modPendData d _) fun _ => ih _
  have hvalid (k : ℕ) (d : PdId) : Keeps (OS.caller t) (pendMultiValidate k d) := by
    induction k generalizing d with
    | zero => exact keeps_pure _
    | succ k ih =>
      refine keeps_bind (keeps_getPendData d) fun e => ?_
      cases e.pendObjPtr with
      | none => exact keeps_pure _
      | some o => exact keeps_bind (keeps_getObj o) fun b => keeps_ite (ih _) (keeps_pure _)
  have hrdy (d : PdId) : Keeps (OS.caller t) (pendMultiGetRdy1 d) := by
    refine keeps_bind (keeps_caller_modPendData d _) fun _ => keeps_bind (keeps_getPendData d) fun e => ?_
    refine keeps_bind (keeps_deref _) fun o => keeps_bind (keeps_getObj o) fun b => ?_
    cases b.type with
    | q =>
      refine keeps_bind ((keeps_noMsgs_msgQGet _).comp (OS.caller t)) fun x => keeps_bind (keeps_caller_modObj o _) fun _ => ?_
      exact keeps_ite (keeps_bind (keeps_caller_modPendData d _) fun _ => keeps_pure _) (keeps_pure _)
    | sem =>
      refine keeps_ite (keeps_bind (keeps_caller_modObj o _) fun _ => ?_) (keeps_pure _)
      exact keeps_bind (keeps_caller_modPendData d _) fun _ => keeps_pure _
    | none | flag | mutex => exact keeps_pure _
  have hall (k : ℕ) (d : PdId) : Keeps (OS.caller t) (pendMultiGetRdy k d) := by
    induction k generalizing d with
    | zero => exact keeps_pure _
    | succ k ih => exact keeps_bind (hrdy d) fun _ => keeps_bind (ih _) fun _ => keeps_pure _
  refine .read keeps_get fun s => .ite (.pure _) ?_
  cases tbl with
  | none => exact .pure _
  | some i =>
    refine .read keeps_getCur fun u => .read (hstore objs (u, i)) fun _ => .ite (.pure _) (.ite (.pure _) ?_)
    refine .read (hvalid _ _) fun _ => .ite (.pure _) (.read (hall _ _) fun _ => .ite (.pure _)
      (.ite (.pure _) (.ite (.pure _) ?_)))
    exact (blocks_pendMultiWait (u, i) objs.length timeout).bind fun _ => defers_waitThen .multiPend

end objects

section events

theorem blocks_timeDly (dly : Tick) (opt : Opt) : Blocks t (timeDly dly opt) := by
  refine .getCur fun u hu => .set _ (fun _ => rfl) fun _ => .bind (defers_tickListInsert hu dly opt) fun x => .ite (.pure _) ?_
  exact .bind (.of_caller (keeps_caller_rdyListRemove u)) fun _ => .read keeps_deadline_osSched fun _ => .pure _

theorem keeps_deadline_reschedule : Keeps (OS.deadline t) reschedule := keeps_reschedule (fun _ _ _ => rfl) fun _ _ _ => rfl

theorem defers_loadTimeQuanta (p : ℕ) : Defers t (loadTimeQuanta p) :=
  .read (keeps_getRdyList p) fun _ => .read (keeps_deref _) fun _ => .read keeps_get fun _ => .set' _ fun _ => rfl

theorem defers_move (p : ℕ) {m : Unit → K α} (hm : ∀ b, Defers t (m b)) : Defers t (rdyListMoveHeadToTail p >>= m) :=
  .read ((keeps_rdyListMoveHeadToTail p).comp (OS.deadline t)) hm

theorem defers_schedRoundRobin (p : ℕ) : Defers t (schedRoundRobin p) := by
  refine .read keeps_get fun s => .ite (.pure ()) (.read (keeps_getRdyList p) fun l => ?_)
  cases l.headPtr with
  | none => exact .pure ()
  | some x =>
    have hend : Defers t (do
        if (← getTcb x).timeQuantaCtr > 0 then return ()
        if l.nbrEntries < 2 then return ()
        if s.schedLockNestingCtr > 0 then return ()
        rdyListMoveHeadToTail p
        loadTimeQuanta p) :=
      .read (keeps_getTcb x) fun _ => .ite (.pure ()) (.ite (.pure ())
        (.ite (.pure ()) (defers_move p fun _ => defers_loadTimeQuanta p)))
    exact .ite (.pure ()) (.read (keeps_getTcb x) fun _ => .ite (.set _ (fun _ => rfl) fun _ => hend) hend)

theorem defers_osTimeTick : Defers t osTimeTick := by
  refine .bind (defers_osTaskSemPost _ _) fun _ => .read keeps_get fun s => .bind (defers_schedRoundRobin _) fun _ => ?_
  refine .read (keeps_modify fun _ => rfl) fun _ => .read keeps_get fun s => .ite ?_ (.pure ())
  exact .read (keeps_modify fun _ => rfl) fun _ => .bind (defers_osTaskSemPost _ _) fun _ => .pure ()

theorem defers_errOnly {m : K Err} (h : Defers t m) : Defers t (errOnly m) := h.bind fun _ => .pure _

theorem defers_always {m : K Ret} (h : Defers t m) : Defers t (always m) := h.bind fun _ => .pure _

theorem defers_create {m : K Err} (h : Defers t m) : Defers t (errOnly do
    if (← Prog.get).intNestingCtr > 0 then return Err.createISR
    m) :=
  defers_errOnly (.read keeps_get fun _ => .ite (.pure _) h)

theorem Call.exec_blocks (c : Call) : Blocks t c.exec := by
  cases c with
  | taskCreate a => exact (defers_errOnly (defers_osTaskCreate a)).blocks
  | taskDel p => exact (defers_errOnly (defers_osTaskDel p)).blocks
  | taskSuspend p => exact (defers_errOnly (defers_osTaskSuspend p)).blocks
  | taskResume p => exact (defers_errOnly (defers_osTaskResume p)).blocks
  | taskChangePrio p prioNew => exact (defers_errOnly (defers_osTaskChangePrio p prioNew)).blocks
  | taskTimeQuantaSet p q => exact (defers_errOnly (defers_osTaskTimeQuantaSet p q)).blocks
  | taskSemPend timeout opt => exact blocks_osTaskSemPend timeout opt
  | taskSemPendAbort p opt => exact (defers_always (defers_taskPendAbort .taskSem p opt)).blocks
  | taskSemPost p opt => exact (defers_always (defers_osTaskSemPost p opt)).blocks
  | taskSemSet p cnt => exact (defers_always (defers_osTaskSemSet p cnt)).blocks
  | taskQPend timeout opt hasSize => exact blocks_osTaskQPend timeout opt hasSize
  | taskQPendAbort p opt => exact (defers_always (defers_taskPendAbort .taskQ p opt)).blocks
  | taskQPost p pVoid msgSize opt => exact (defers_errOnly (defers_osTaskQPost p pVoid msgSize opt)).blocks
  | taskQFlush p => exact (defers_always (defers_osTaskQFlush p)).blocks
  | semCreate p _ | mutexCreate p | flagCreate p _ =>
    refine (defers_create ?_).blocks
    cases p with
    | none => exact .pure _
    | some o => first | exact defers_set o _ fun _ => .pure _ | exact .read keeps_ask fun _ => defers_set o _ fun _ => .pure _
  | qCreate p _ =>
    refine (defers_create ?_).blocks
    cases p with
    | none => exact .pure _
    | some o => exact .ite (.pure _) (defers_set o _ fun _ => .pure _)
  | semPend p timeout opt => exact blocks_osSemPend p timeout opt
  | semPendAbort p opt => exact (defers_always (defers_objPendAbort .sem p opt)).blocks
  | semPost p opt => exact (defers_always (defers_osSemPost p opt)).blocks
  | semSet p cnt =>
    refine (defers_errOnly (.read keeps_get fun _ => .ite (.pure _) ?_)).blocks
    cases p with
    | none => exact .pure _
    | some o =>
      refine .read (keeps_getObj o) fun b => .ite (.pure _) (.ite (defers_set o _ fun _ => .pure _) (.pure _))
  | qPend p timeout opt hasSize => exact blocks_osQPend p timeout opt hasSize
  | qPendAbort p opt => exact (defers_always (defers_objPendAbort .q p opt)).blocks
  | qPost p pVoid msgSize opt => exact (defers_errOnly (defers_osQPost p pVoid msgSize opt)).blocks
  | mutexPend p timeout opt => exact blocks_osMutexPend p timeout opt
  | mutexPost p opt => exact (defers_errOnly (defers_osMutexPost p opt)).blocks
  | flagPend p flags timeout opt => exact blocks_osFlagPend p flags timeout opt
  | flagPendGetFlagsRdy =>
    refine (defers_always (.read keeps_get fun _ => .ite (.pure _) ?_)).blocks
    exact .read keeps_getCur fun u => .read (keeps_getTcb u) fun _ => .pure _
  | flagPost p flags opt => exact (defers_osFlagPost p flags opt).blocks
  | pendMulti tbl objs timeout opt => exact blocks_osPendMulti tbl objs timeout opt
  | timeDly dly opt =>
    refine .bind (.read keeps_get fun s => ?_) fun _ => .pure _
    exact .ite (.pure _) (.ite (.pure _) (.ite (.pure _) (.ite (.pure _) (blocks_timeDly dly opt))))
  | timeDlyHMSM a opt =>
    refine .bind (.read keeps_get fun s => .ite (.pure _) (.ite (.pure _) ?_)) fun _ => .pure _
    cases hmsmCheck a opt with
    | some e => exact .pure _
    | none => exact .read keeps_ask fun cfg => .ite (blocks_timeDly _ _) (.pure _)
  | timeGet => exact (defers_always (.read keeps_get fun _ => .pure _)).blocks
  | timeSet ticks =>
    have hset : Keeps (OS.deadline t) (osTimeSet ticks) := keeps_bind (keeps_modify fun _ => rfl) fun _ => keeps_pure _
    exact (defers_errOnly (.of_keeps hset)).blocks
  | schedLock =>
    refine (defers_errOnly (.read keeps_get fun s => .ite (.pure _) (.ite (.pure _) (.ite (.pure _) ?_)))).blocks
    exact .read (keeps_modify fun _ => rfl) fun _ => .pure _
  | schedUnlock =>
    refine (defers_errOnly (.read keeps_get fun s => .ite (.pure _) (.ite (.pure _) (.ite (.pure _) ?_)))).blocks
    exact .read (keeps_modify fun _ => rfl) fun _ => .ite (.pure _) (.read keeps_deadline_osSched fun _ => .pure _)
  | schedRoundRobinCfg en q =>
    have hcfg : Keeps (OS.deadline t) (osSchedRoundRobinCfg en q) :=
      keeps_bind keeps_ask fun _ => keeps_bind (keeps_modify fun _ => rfl) fun _ => keeps_pure _
    exact (defers_errOnly (.of_keeps hcfg)).blocks
  | schedRoundRobinYield =>
    refine (defers_errOnly (.read keeps_get fun s => .ite (.pure _) (.ite (.pure _) (.ite (.pure _) ?_)))).blocks
    refine .read (keeps_getRdyList _) fun l => .ite (.pure _) (defers_move _ fun _ =>
      .bind (defers_loadTimeQuanta _) fun _ => ?_)
    exact .read keeps_deadline_osSched fun _ => .pure _

theorem defers_finish : Defers t finish := by
  refine .read keeps_getCur fun u => .read keeps_get fun s => .read (keeps_modify fun _ => rfl) fun _ => ?_
  have hread (k : TCB → K Ret) (hk : ∀ c, Defers t (k c)) : Defers t (do k (← getTcb (← getCur))) :=
    .read keeps_getCur fun x => .read (keeps_getTcb x) hk
  cases s.cont u with
  | none => exact .pure _
  | semPend o =>
    refine defers_always (hread _ fun c => .read (keeps_getObj o) fun b => ?_)
    cases c.pendStatus <;> exact .pure _
  | qPend | taskSemPend | taskQPend | mutexPend o =>
    refine defers_always (hread _ fun c => ?_)
    cases c.pendStatus <;> exact .pure _
  | flagPost o => exact defers_always (.read (keeps_getObj o) fun _ => .pure _)
  | multiPend =>
    refine defers_always (.read keeps_getCur fun x => .read (keeps_getTcb x) fun c => .set _ (fun _ => rfl) fun _ => ?_)
    cases c.pendStatus <;> exact .pure _
  | flagPend o mode consume =>
    refine defers_always (hread _ fun c => ?_)
    cases c.pendStatus with
    | abort | timeout | del => exact .pure _
    | ok => exact .ite (.pure _) (.ite (defers_set o _ fun _ => .pure _) (.pure _))

theorem Event.exec_blocks (e : Event) : Blocks t e.exec := by
  have hno {m : K Unit} (hm : Defers t m) : Blocks t (noAnswer m) := (hm.bind fun _ => .pure _).blocks
  cases e with
  | call c => exact c.exec_blocks
  | finish => exact defers_finish.blocks
  | start =>
    refine (defers_errOnly (.read keeps_get fun s => .ite (.pure _) ?_)).blocks
    exact .read (keeps_bind keeps_ask fun _ => keeps_prioScan _ _) fun p => .read (keeps_getRdyList p) fun l =>
      .read (keeps_modify fun _ => rfl) fun _ => .pure _
  | intEnter =>
    refine hno (.read keeps_get fun s => .ite (.pure ()) (.ite (.pure ()) ?_))
    exact .of_keeps (keeps_modify fun _ => rfl)
  | intExit =>
    refine hno (.read keeps_get fun s => .ite (.pure ()) (.ite (.pure ()) (.read (keeps_modify fun _ => rfl) fun _ => ?_)))
    exact .ite (.pure ()) (.ite (.pure ()) (.of_keeps keeps_deadline_reschedule))
  | timeTick => exact hno defers_osTimeTick
  | tickUpdate => exact hno defers_tickListUpdate
  | clock ts => exact hno (.of_keeps (keeps_modify fun _ => rfl))

theorem Event.deadline (hx : Prog.Runs cfg e.exec s r s') (hcur : s.tcbCurPtr ≠ some t) :
    (s'.tcb t).tickSpokePtr = none ∨ s'.deadline t = s.deadline t :=
  hx.wp fun n => e.exec_blocks n cfg s hcur

end events

end UcosIII
