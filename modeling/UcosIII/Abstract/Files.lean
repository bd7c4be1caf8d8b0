import UcosIII.Abstract.Effects
import UcosIII.Abstract.Invariant
import UcosIII.Abstract.Sched

/-!
What the kernel keeps for a task apart from the lists it is on, its priority and its timing: what it is doing and
waits for, and what has been left for it. A post writes the message and the time into the control block of the task,
or, if the task waits on several objects, into the first row of its table that names the object.
-/

namespace UcosIII

open Prog

structure Mail where
  msgPtr : Option ℕ
  msgSize : ℕ
  ts : ℕ
deriving DecidableEq

structure Row where
  rdyObj : Option ObjId
  msgPtr : Option ℕ
  msgSize : ℕ
  ts : ℕ
deriving DecidableEq

/-- The rows of the table of a task hold the object waited on and what has been left there; `msgs` are the messages in
the queue of the task. -/
structure File where
  state : TaskState
  suspendCtr : BitVec 8
  pendOn : PendOn
  pendStatus : PendStatus
  table : List PdId
  mail : Mail
  semCtr : ℕ
  msgs : ℕ
  flagsPend : Flags
  flagsRdy : Flags
  flagsOpt : Opt
  row : ℕ → Option ObjId × Row
  cont : Cont

def TCB.mail (c : TCB) : Mail := ⟨c.msgPtr, c.msgSize, c.ts⟩

def PendData.row (e : PendData) : Row := ⟨e.rdyObjPtr, e.rdyMsgPtr, e.rdyMsgSize, e.rdyTS⟩

def TCB.file (c : TCB) (row : ℕ → Option ObjId × Row) (k : Cont) : File where
  state := c.taskState
  suspendCtr := c.suspendCtr
  pendOn := c.pendOn
  pendStatus := c.pendStatus
  table := c.table
  mail := c.mail
  semCtr := c.semCtr
  msgs := c.msgQ.nbrEntries
  flagsPend := c.flagsPend
  flagsRdy := c.flagsRdy
  flagsOpt := c.flagsOpt
  row := row
  cont := k

def OS.rows (s : OS) (t : TcbId) (i : ℕ) : Option ObjId × Row := ((s.pendData (t, i)).pendObjPtr, (s.pendData (t, i)).row)

def OS.file (s : OS) (t : TcbId) : File := (s.tcb t).file (s.rows t) (s.cont t)

namespace File

def firstRow (f : File) (o : Option ObjId) : Option ℕ := (f.table.find? fun d => (f.row d.2).1 = o).map Prod.snd

def setRow (f : File) (i : ℕ) (r : Option ObjId × Row) : File := { f with row := Function.update f.row i r }

def mark (f : File) (o : Option ObjId) (g : Row → Row) : File :=
  match f.firstRow o with
  | none => f
  | some i => f.setRow i ((f.row i).1, g (f.row i).2)

theorem mark_eq (f : File) (o : Option ObjId) (g : Row → Row) : f.mark o g = { f with row := (f.mark o g).row } := by
  rw [mark]
  split <;> rfl

def woken (st : PendStatus) (f : File) : File := { f with state := f.state.woken, pendStatus := st, pendOn := .nothing }

def unpend (o : Option ObjId) (f : File) : File := { f with table := if o = none then f.table else [] }

def posted (o : Option ObjId) (m : Mail) (f : File) : File :=
  ((if f.pendOn = .multi then f.mark o fun _ => ⟨o, m.msgPtr, m.msgSize, m.ts⟩ else { f with mail := m }).unpend o).woken .ok

def aborted (o : Option ObjId) (ts : ℕ) (f : File) : File :=
  let f' := if f.pendOn = .multi then f.mark o fun r => { r with rdyObj := o, ts := ts } else f
  ({ f' with mail := ⟨none, 0, ts⟩ }.unpend o).woken .abort

def flagged (flagsRdy : Flags) (ts : ℕ) (f : File) : File :=
  { f with flagsRdy := flagsRdy, mail := { f.mail with ts := ts }, table := [] }.woken .ok

def expired (ts : ℕ) (f : File) : File :=
  match f.state with
  | .dly | .dlySuspended => { f with state := f.state.expired }
  | .pendTimeout | .pendTimeoutSuspended => { f with mail := ⟨none, 0, ts⟩, table := [] }.woken .timeout
  | .rdy | .pend | .suspended | .pendSuspended | .del => f

end File

variable {n : ℕ} {cfg : Cfg} {s s' : OS} {a : Abs} {t x : TcbId} {d : PdId} {o : Option ObjId} {α β : Type}

section views

theorem OS.file_modTcb (f : TCB → TCB) : (s.modTcb t f).file =
    Function.update s.file t ((f (s.tcb t)).file (s.rows t) (s.cont t)) := by
  funext x
  rw [OS.file, OS.modTcb_tcb, Function.update_apply]
  split
  · subst x
    rfl
  · rfl

theorem OS.file_modTcb_of {f : TCB → TCB} (hf : ∀ r k, (f (s.tcb t)).file r k = (s.tcb t).file r k) :
    (s.modTcb t f).file = s.file := by
  rw [OS.file_modTcb, hf]
  exact Function.update_eq_self t s.file

theorem keeps_file_modTcb {f : TCB → TCB} (hf : ∀ c r k, (f c).file r k = c.file r k) (t : TcbId) :
    Keeps OS.file (modTcb t f) :=
  keeps_modify fun _ => OS.file_modTcb_of (hf _)

theorem wp_modTcb_file {f : TCB → TCB} {Q : Unit → OS → Prop}
    (hQ : ∀ s', s'.file = Function.update s.file t ((f (s.tcb t)).file (s.rows t) (s.cont t)) → Q () s') :
    wp n cfg (modTcb t f) Q s := wp_modTcb.mpr (hQ _ (OS.file_modTcb f))

theorem keeps_file_modObj (o : ObjId) (f : Obj → Obj) : Keeps OS.file (modObj o f) := keeps_modify fun _ => rfl

end views

section lists

theorem keeps_file_rdyListInsert (t : TcbId) : Keeps OS.file (rdyListInsert t) := (keeps_rdyListInsert t).comp OS.file

theorem keeps_file_rdyListInsertHead (t : TcbId) : Keeps OS.file (rdyListInsertHead t) :=
  (keeps_rdyListInsertHead t).comp OS.file

theorem keeps_file_rdyListInsertTail (t : TcbId) : Keeps OS.file (rdyListInsertTail t) :=
  (keeps_rdyListInsertTail t).comp OS.file

theorem keeps_file_rdyListRemove (t : TcbId) : Keeps OS.file (rdyListRemove t) := (keeps_rdyListRemove t).comp OS.file

theorem keeps_file_rdyListMoveHeadToTail (p : ℕ) : Keeps OS.file (rdyListMoveHeadToTail p) :=
  (keeps_rdyListMoveHeadToTail p).comp OS.file

theorem keeps_file_prioInsert (p : ℕ) : Keeps OS.file (prioInsert p) := (keeps_prioInsert p).comp OS.file

theorem keeps_file_tickListInsert (t : TcbId) (time : Tick) (opt : Opt) : Keeps OS.file (tickListInsert t time opt) :=
  (keeps_tickListInsert t time opt).comp OS.file

theorem keeps_file_tickListRemove (t : TcbId) : Keeps OS.file (tickListRemove t) := (keeps_tickListRemove t).comp OS.file

theorem keeps_file_pendListInsertPrio (o : ObjId) (d : PdId) : Keeps OS.file (pendListInsertPrio o d) :=
  (keeps_pendListInsertPrio d o).comp OS.file

theorem keeps_file_pendListRemove1 (o : ObjId) (d : PdId) : Keeps OS.file (pendListRemove1 o d) :=
  (keeps_pendListRemove1 d o).comp OS.file

theorem keeps_file_taskRdy (t : TcbId) : Keeps OS.file (taskRdy t) := by
  rw [taskRdy]
  refine keeps_bind (keeps_file_tickListRemove t) fun _ => keeps_bind (keeps_getTcb t) fun _ => ?_
  exact keeps_ite (keeps_file_rdyListInsert t) (keeps_pure ())

theorem pendListRemove_file :
    wp n cfg (pendListRemove t) (fun _ s' => s'.file = Function.update s.file t { s.file t with table := [] }) s := by
  refine pendListRemove_frame.mono fun _ s' hs => ?_
  calc s'.file = (s.modTcb t TCB.noTable).file := (congrArg OS.file hs :)
    _ = _ := OS.file_modTcb _

end lists

section sched

theorem keeps_prioScan {γ : Type} {v : OS → γ} (fuel ix : ℕ) : Keeps v (prioScan fuel ix) := by
  induction fuel generalizing ix with
  | zero => exact keeps_fault
  | succ fuel ih =>
    rw [prioScan]
    exact keeps_bind (keeps_getPrioTbl ix) fun _ => keeps_ite (ih _) (keeps_pure _)

theorem keeps_reschedule {γ : Type} {v : OS → γ} (hhigh : ∀ s p c, v { s with prioHighRdy := p, tcbHighRdyPtr := c } = v s)
    (hcur : ∀ s p c, v { s with prioCur := p, tcbCurPtr := c } = v s) : Keeps v reschedule := by
  rw [reschedule, prioGetHighest]
  refine keeps_bind (keeps_bind keeps_ask fun _ => keeps_prioScan _ _) fun p => keeps_bind (keeps_getRdyList p) fun l => ?_
  refine keeps_bind (keeps_modify fun s => hhigh s _ _) fun _ => keeps_bind keeps_get fun _ => ?_
  exact keeps_ite (keeps_pure _) (keeps_bind (keeps_deref _) fun _ => keeps_modify fun s => hcur s _ _)

theorem keeps_osSched {γ : Type} {v : OS → γ} (hhigh : ∀ s p c, v { s with prioHighRdy := p, tcbHighRdyPtr := c } = v s)
    (hcur : ∀ s p c, v { s with prioCur := p, tcbCurPtr := c } = v s) : Keeps v osSched := by
  rw [osSched]
  refine keeps_bind keeps_get fun _ => keeps_ite (keeps_pure _) (keeps_ite (keeps_pure _) ?_)
  exact keeps_reschedule hhigh hcur

theorem keeps_file_reschedule : Keeps OS.file reschedule := keeps_reschedule (fun _ _ _ => rfl) fun _ _ _ => rfl

theorem keeps_file_osSched : Keeps OS.file osSched := keeps_osSched (fun _ _ _ => rfl) fun _ _ _ => rfl

theorem keeps_file_schedOpt (opt : Opt) : Keeps OS.file (schedOpt opt) := by
  rw [schedOpt]
  exact keeps_ite keeps_file_osSched (keeps_pure _)

end sched

section marks

theorem wp_ite_bind {c : Prop} [Decidable c] {m m' : K β} {k : β → K α} {Q : α → OS → Prop} :
    wp n cfg (if c then m >>= k else m' >>= k) Q s ↔
      wp n cfg (if c then m else m') (fun b s' => wp n cfg (k b) Q s') s := by
  split <;> exact wp_bind

theorem markEntry_eq {f : PendData → PendData} (k : ℕ) (d : PdId) :
    wp n cfg (markEntry o f k d) (fun _ s' => s' =
      ((entriesFrom d k).find? fun d => (s.pendData d).pendObjPtr = o).elim s fun x => s.modPendData x f) s := by
  induction k generalizing d with
  | zero => exact wp_pure.mpr rfl
  | succ k ih =>
    rw [markEntry, wp_bind, wp_getPendData, wp_ite]
    constructor
    · intro hd
      rw [wp_modPendData, entriesFrom, List.find?_cons_of_pos (by simp [hd])]
      rfl
    · intro hd
      refine (ih (d.1, d.2 + 1)).mono fun _ s' hs => ?_
      rw [entriesFrom, List.find?_cons_of_neg (by simpa using Ne.symm hd)]
      exact hs

theorem OS.file_modPendData (d : PdId) (f : PendData → PendData) : (s.modPendData d f).file =
    Function.update s.file d.1
      ((s.file d.1).setRow d.2 ((f (s.pendData d)).pendObjPtr, (f (s.pendData d)).row)) := by
  obtain ⟨t, i⟩ := d
  have hrows (x : TcbId) : (s.modPendData (t, i) f).rows x =
      if x = t then Function.update (s.rows t) i ((f (s.pendData (t, i))).pendObjPtr, (f (s.pendData (t, i))).row)
      else s.rows x := by
    funext j
    simp only [OS.rows, OS.modPendData_pendData, Prod.mk.injEq]
    by_cases hx : x = t
    · subst hx
      by_cases hj : j = i
      · subst hj
        simp
      · simp [hj, OS.rows]
    · simp [hx, OS.rows]
  funext x
  rw [OS.file, hrows, Function.update_apply]
  split
  · rename_i hx
    subst hx
    rfl
  · rfl

theorem markTable_file {f : PendData → PendData} {g : Row → Row} (hobj : ∀ e, (f e).pendObjPtr = e.pendObjPtr)
    (hrow : ∀ e, (f e).row = g e.row) (hown : ∀ d ∈ (s.file t).table, d.1 = t) :
    wp n cfg (do
      let c ← getTcb t
      if c.pendDataTblEntries = 0 then return ()
      let d ← Prog.deref c.pendDataTblPtr
      markEntry o f c.pendDataTblEntries d) (fun _ s' => s'.file = Function.update s.file t ((s.file t).mark o g)) s := by
  have hnone (hf : (s.file t).firstRow o = none) : Function.update s.file t ((s.file t).mark o g) = s.file := by
    rw [File.mark, hf]
    exact Function.update_eq_self t s.file
  rw [wp_bind, wp_getTcb, wp_ite]
  constructor
  · intro h0
    have hnil : (s.file t).table = [] := by
      change (s.tcb t).table = []
      rw [TCB.table, h0]
      split <;> rfl
    rw [wp_pure, hnone]
    rw [File.firstRow, hnil]
    rfl
  · intro _
    rw [wp_bind, wp_deref]
    rintro d hd
    have htab : (s.file t).table = entriesFrom d (s.tcb t).pendDataTblEntries := by
      change (s.tcb t).table = _
      rw [TCB.table, hd]
    refine (markEntry_eq _ d).mono ?_
    rintro _ s' rfl
    rw [← htab]
    have hfind : ((s.file t).table.find? fun d => (s.pendData d).pendObjPtr = o) =
        (s.file t).table.find? fun d => ((s.file t).row d.2).1 = o := by
      rw [← List.head?_filter, ← List.head?_filter]
      congr 1
      apply List.filter_congr
      intro x hx
      have hx' : x.1 = t := hown x hx
      subst hx'
      rfl
    rw [hfind]
    cases hx : (s.file t).table.find? fun d => ((s.file t).row d.2).1 = o with
    | none =>
      rw [hnone]
      · rfl
      · rw [File.firstRow, hx]
        rfl
    | some x =>
      have hxt : x.1 = t := hown x (List.mem_of_find?_eq_some hx)
      have hrow₁ : (s.file t).firstRow o = some x.2 := by
        rw [File.firstRow, hx]
        rfl
      subst hxt
      rw [Option.elim, OS.file_modPendData, File.mark, hrow₁, hobj, hrow]
      rfl

end marks

section alters

def Alters (t : TcbId) (g : File → File) (m : K α) : Prop :=
  ∀ (n : ℕ) cfg s, wp n cfg m (fun _ s' => s'.file = Function.update s.file t (g (s.file t))) s

theorem Alters.of_keeps {m : K α} (h : Keeps OS.file m) : Alters t id m := by
  intro n cfg s
  refine (h n cfg s).mono fun _ s' hs => ?_
  rw [hs]
  exact (Function.update_eq_self t s.file).symm

theorem alters_modTcb {f : TCB → TCB} {g : File → File} (hf : ∀ c r k, (f c).file r k = g (c.file r k)) :
    Alters t g (modTcb t f) := by
  intro n cfg s
  rw [wp_modTcb, OS.file_modTcb, hf]
  rfl

theorem alters_pendListRemove : Alters t (fun f => { f with table := [] }) (pendListRemove t) :=
  fun _ _ _ => pendListRemove_file

theorem Alters.next {m : K β} {g : File → File} {f : File} {s₀ : OS} (h : Alters t g m)
    (hs : s.file = Function.update s₀.file t f) : wp n cfg m (fun _ s' => s'.file = Function.update s₀.file t (g f)) s := by
  refine (h n cfg s).mono fun _ s' h' => ?_
  rw [h', hs, Function.update_self, Function.update_idem]

theorem Alters.bind {m : K β} {k : β → K α} {g g' : File → File} (hm : Alters t g m) (hk : ∀ b, Alters t g' (k b)) :
    Alters t (g' ∘ g) (m >>= k) := by
  intro n cfg s
  rw [wp_bind]
  exact (hm n cfg s).mono fun b s' h' => (hk b).next h'

end alters

section waits

theorem tell_file (hown : ∀ d ∈ (s.file t).table, d.1 = t) (pVoid : Option ℕ) (msgSize ts : ℕ) :
    wp n cfg (if (s.tcb t).pendOn = .multi then post1 o t pVoid msgSize ts
        else modTcb t fun c => { c with msgPtr := pVoid, msgSize := msgSize, ts := ts })
      (fun _ s' => s'.file = Function.update s.file t
        (if (s.file t).pendOn = .multi then (s.file t).mark o fun _ => ⟨o, pVoid, msgSize, ts⟩
          else { s.file t with mail := ⟨pVoid, msgSize, ts⟩ })) s := by
  rw [wp_ite]
  constructor
  · intro hm
    rw [if_pos (show (s.file t).pendOn = .multi from hm)]
    exact markTable_file (by intro e; rfl) (by intro e; rfl) hown
  · intro hm
    rw [if_neg (show ¬ (s.file t).pendOn = .multi from hm)]
    exact wp_modTcb_file fun s' h' => h'

theorem alters_unpend {k : Unit → K α} {g : File → File} (hk : ∀ x, Alters t g (k x)) :
    Alters t (fun f => g (f.unpend o)) (if o ≠ none then pendListRemove t >>= k else k ()) := by
  by_cases ho : o = none
  · rw [if_neg (by simp [ho])]
    subst ho
    exact hk ()
  · rw [if_pos ho]
    have h := alters_pendListRemove.bind hk
    have hg : (fun f : File => g (f.unpend o)) = g ∘ fun f => { f with table := [] } := by
      funext f
      rw [Function.comp, File.unpend, if_neg ho]
    rw [hg]
    exact h

theorem woken_of_state (st : TaskState) (ps : PendStatus) (f : File) (hst : f.state.woken = st) :
    { f with state := st, pendStatus := ps, pendOn := .nothing } = f.woken ps := by
  rw [File.woken, hst]

theorem post_file (hown : ∀ d ∈ (s.file t).table, d.1 = t) (pVoid : Option ℕ) (msgSize ts : ℕ) :
    wp n cfg (post o t pVoid msgSize ts) (fun _ s' => s'.file = Function.update s.file t
      (if (s.file t).state.isPend = true then (s.file t).posted o ⟨pVoid, msgSize, ts⟩ else s.file t)) s := by
  have hself : Function.update s.file t (s.file t) = s.file := Function.update_eq_self t s.file
  have hstate : (s.file t).state = (s.tcb t).taskState := rfl
  have hmod (st : TaskState) : Alters t (fun f => { f with state := st, pendStatus := .ok, pendOn := .nothing })
      (modTcb t fun c => { c with taskState := st, pendStatus := .ok, pendOn := .nothing }) :=
    alters_modTcb (by intro c r k; rfl)
  have htell : ((if (s.file t).pendOn = .multi then (s.file t).mark o fun _ => ⟨o, pVoid, msgSize, ts⟩
      else { s.file t with mail := ⟨pVoid, msgSize, ts⟩ }).unpend o).state = (s.tcb t).taskState := by
    split
    · rw [File.mark_eq]
      rfl
    · rfl
  rw [post, wp_bind, wp_getTcb]
  cases hs : (s.tcb t).taskState with
  | rdy | dly | suspended | dlySuspended | del =>
    have hn : ¬ (s.file t).state.isPend = true := by simp [hstate, hs, TaskState.isPend]
    rw [wp_pure, if_neg hn, hself]
  | pend | pendTimeout =>
    have hp : (s.file t).state.isPend = true := by simp [hstate, hs, TaskState.isPend]
    simp only [if_pos hp]
    refine wp_ite_bind.mpr ((tell_file hown pVoid msgSize ts).mono fun _ s₁ h₁ => ?_)
    have hend := alters_unpend (o := o) fun _ => (Alters.of_keeps (keeps_file_taskRdy t)).bind fun _ : Unit => hmod .rdy
    refine (hend.next h₁).mono fun _ s₂ h₂ => h₂.trans ?_
    exact congrArg (Function.update s.file t)
      (woken_of_state .rdy .ok _ ((congrArg TaskState.woken htell).trans (by rw [hs]; rfl)))
  | pendSuspended | pendTimeoutSuspended =>
    have hp : (s.file t).state.isPend = true := by simp [hstate, hs, TaskState.isPend]
    simp only [if_pos hp]
    refine wp_ite_bind.mpr ((tell_file hown pVoid msgSize ts).mono fun _ s₁ h₁ => ?_)
    have hend := (Alters.of_keeps (keeps_file_tickListRemove t)).bind fun _ : Unit =>
      alters_unpend (o := o) fun _ => hmod .suspended
    refine (hend.next h₁).mono fun _ s₂ h₂ => h₂.trans ?_
    exact congrArg (Function.update s.file t)
      (woken_of_state .suspended .ok _ ((congrArg TaskState.woken htell).trans (by rw [hs]; rfl)))

theorem pendAbort_file (hown : ∀ d ∈ (s.file t).table, d.1 = t) (ts : ℕ) :
    wp n cfg (pendAbort o t ts) (fun _ s' => s'.file = Function.update s.file t
      (if (s.file t).state.isPend = true then (s.file t).aborted o ts else s.file t)) s := by
  have hself : Function.update s.file t (s.file t) = s.file := Function.update_eq_self t s.file
  have hstate : (s.file t).state = (s.tcb t).taskState := rfl
  have hmod (st : TaskState) : Alters t (fun f => { f with state := st, pendStatus := .abort, pendOn := .nothing })
      (modTcb t fun c => { c with taskState := st, pendStatus := .abort, pendOn := .nothing }) :=
    alters_modTcb (by intro c r k; rfl)
  have hmail : Alters t (fun f => { f with mail := ⟨none, 0, ts⟩ })
      (modTcb t fun c => { c with msgPtr := none, msgSize := 0, ts := ts }) := alters_modTcb (by intro c r k; rfl)
  have hmark : ((if (s.file t).pendOn = .multi then (s.file t).mark o fun r => { r with rdyObj := o, ts := ts }
      else s.file t)).state = (s.tcb t).taskState := by
    split
    · rw [File.mark_eq]
      rfl
    · rfl
  -- the row of a task that waits on several objects
  have hfirst (k : Unit → K Unit) (g : File → File) (hk : ∀ x, Alters t g (k x)) :
      wp n cfg (if (s.tcb t).pendOn = .multi then pendAbort1 o t ts >>= k else k ()) (fun _ s' =>
        s'.file = Function.update s.file t (g (if (s.file t).pendOn = .multi then
          (s.file t).mark o fun r => { r with rdyObj := o, ts := ts } else s.file t))) s := by
    rw [wp_ite]
    constructor
    · intro hm
      rw [if_pos (show (s.file t).pendOn = .multi from hm), wp_bind]
      exact (markTable_file (by intro e; rfl) (by intro e; rfl) hown).mono fun x s₁ h₁ => (hk x).next h₁
    · intro hm
      rw [if_neg (show ¬ (s.file t).pendOn = .multi from hm)]
      exact hk () n cfg s
  rw [pendAbort, wp_bind, wp_getTcb]
  cases hs : (s.tcb t).taskState with
  | rdy | dly | suspended | dlySuspended | del =>
    have hn : ¬ (s.file t).state.isPend = true := by simp [hstate, hs, TaskState.isPend]
    rw [wp_pure, if_neg hn, hself]
  | pend | pendTimeout =>
    have hp : (s.file t).state.isPend = true := by simp [hstate, hs, TaskState.isPend]
    simp only [if_pos hp]
    refine (hfirst _ _ fun _ => hmail.bind fun _ => alters_unpend (o := o) fun _ =>
      (Alters.of_keeps (keeps_file_taskRdy t)).bind fun _ : Unit => hmod .rdy).mono fun _ s₂ h₂ => h₂.trans ?_
    exact congrArg (Function.update s.file t)
      (woken_of_state .rdy .abort _ ((congrArg TaskState.woken hmark).trans (by rw [hs]; rfl)))
  | pendSuspended | pendTimeoutSuspended =>
    have hp : (s.file t).state.isPend = true := by simp [hstate, hs, TaskState.isPend]
    simp only [if_pos hp]
    refine (hfirst _ _ fun _ => hmail.bind fun _ => alters_unpend (o := o) fun _ =>
      (Alters.of_keeps (keeps_file_tickListRemove t)).bind fun _ : Unit => hmod .suspended).mono fun _ s₂ h₂ => h₂.trans ?_
    exact congrArg (Function.update s.file t)
      (woken_of_state .suspended .abort _ ((congrArg TaskState.woken hmark).trans (by rw [hs]; rfl)))

theorem flagTaskRdy_file (hp : (s.file t).state.isPend = true) (flagsRdy : Flags) (ts : ℕ) :
    wp n cfg (flagTaskRdy t flagsRdy ts) (fun _ s' => s'.file = Function.update s.file t
      ((s.file t).flagged flagsRdy ts)) s := by
  have hstate : (s.file t).state = (s.tcb t).taskState := rfl
  have hset : Alters t (fun f => { f with flagsRdy := flagsRdy, pendStatus := .ok, pendOn := .nothing, mail := { f.mail with ts := ts } })
      (modTcb t fun c => { c with flagsRdy := flagsRdy, pendStatus := .ok, pendOn := .nothing, ts := ts }) :=
    alters_modTcb (by intro c r k; rfl)
  have hmod (st : TaskState) : Alters t (fun f => { f with state := st }) (modTcb t fun c => { c with taskState := st }) :=
    alters_modTcb (by intro c r k; rfl)
  rw [flagTaskRdy, wp_bind]
  refine (hset n cfg s).mono fun _ s₁ h₁ => ?_
  rw [wp_bind, wp_getTcb]
  have hs₁ : (s₁.tcb t).taskState = (s.tcb t).taskState := by
    have := congrFun h₁ t
    rw [Function.update_self] at this
    exact congrArg File.state this
  rw [hs₁]
  cases hs : (s.tcb t).taskState with
  | rdy | dly | suspended | dlySuspended | del => simp [hstate, hs, TaskState.isPend] at hp
  | pend | pendTimeout =>
    refine (((Alters.of_keeps (keeps_file_taskRdy t)).bind fun _ : Unit => (hmod .rdy).bind fun _ : Unit =>
      alters_pendListRemove).next h₁).mono fun _ s₂ h₂ => h₂.trans ?_
    have hw : (s.file t).state.woken = .rdy := by rw [hstate, hs]; rfl
    simp only [File.flagged, File.woken, hw]
    rfl
  | pendSuspended | pendTimeoutSuspended =>
    refine (((hmod .suspended).bind fun _ : Unit => alters_pendListRemove).next h₁).mono fun _ s₂ h₂ => h₂.trans ?_
    have hw : (s.file t).state.woken = .suspended := by rw [hstate, hs]; rfl
    simp only [File.flagged, File.woken, hw]
    rfl

theorem tickListExpire_file :
    wp n cfg (tickListExpire t) (fun _ s' => s'.file = s.file ∨ (s.tcb t).tickCtrMatch = s.tickCtr ∧
      (s.tcb t).taskState.isTimed = true ∧ s'.file = Function.update s.file t ((s.file t).expired s.tsNow)) s := by
  have hrem (x : Tick) : (s.modTcb t fun c => { c with tickRemain := c.tickCtrMatch - x }).file =
      Function.update s.file t (s.file t) := (OS.file_modTcb_of (by intro r k; rfl)).trans (Function.update_eq_self t s.file).symm
  have hself : Function.update s.file t (s.file t) = s.file := Function.update_eq_self t s.file
  have hmod (st : TaskState) : Alters t (fun f => { f with state := st }) (modTcb t fun c => { c with taskState := st }) :=
    alters_modTcb (by intro c r k; rfl)
  have hend (st : TaskState) : Alters t (fun f => { f with state := st, pendStatus := .timeout, pendOn := .nothing })
      (modTcb t fun c => { c with taskState := st, pendStatus := .timeout, pendOn := .nothing }) :=
    alters_modTcb (by intro c r k; rfl)
  have hmail (ts : ℕ) : Alters t (fun f => { f with mail := ⟨none, 0, ts⟩ })
      (modTcb t fun c => { c with msgPtr := none, msgSize := 0, ts := ts }) := alters_modTcb (by intro c r k; rfl)
  have hrdy : Alters t id (taskRdy t) := .of_keeps (keeps_file_taskRdy t)
  have hoff : Alters t id (tickListRemove t) := .of_keeps (keeps_file_tickListRemove t)
  have hret : Alters t id (pure false : K Bool) := .of_keeps (keeps_pure _)
  rw [tickListExpire, wp_bind, wp_get, wp_bind, wp_getTcb]
  cases hs : (s.tcb t).taskState with
  | rdy | pend | suspended | pendSuspended | del => exact wp_pure.mpr (.inl rfl)
  | dly =>
    rw [wp_bind, wp_modTcb, wp_ite]
    refine ⟨fun hnow => ?_, fun _ => wp_pure.mpr (.inl ((hrem _).trans hself))⟩
    refine (((hmod .rdy).bind fun _ : Unit => hrdy.bind fun _ : Unit => hret).next (hrem _)).mono fun _ s₂ h₂ =>
      .inr ⟨hnow.symm, rfl, h₂.trans ?_⟩
    rw [File.expired, show (s.file t).state = .dly from hs]
    rfl
  | dlySuspended =>
    rw [wp_bind, wp_modTcb, wp_ite]
    refine ⟨fun hnow => ?_, fun _ => wp_pure.mpr (.inl ((hrem _).trans hself))⟩
    refine (((hmod .suspended).bind fun _ : Unit => hoff.bind fun _ : Unit => hret).next (hrem _)).mono
      fun _ s₂ h₂ => .inr ⟨hnow.symm, rfl, h₂.trans ?_⟩
    rw [File.expired, show (s.file t).state = .dlySuspended from hs]
    rfl
  | pendTimeout =>
    rw [wp_bind, wp_modTcb, wp_ite]
    refine ⟨fun hnow => ?_, fun _ => wp_pure.mpr (.inl ((hrem _).trans hself))⟩
    rw [wp_bind, wp_tsGet]
    refine (((hmail _).bind fun _ : Unit => alters_pendListRemove.bind fun _ : Unit => hrdy.bind fun _ : Unit =>
      (hend .rdy).bind fun _ : Unit => hret).next (hrem _)).mono fun _ s₂ h₂ => .inr ⟨hnow.symm, rfl, h₂.trans ?_⟩
    rw [File.expired, show (s.file t).state = .pendTimeout from hs]
    rfl
  | pendTimeoutSuspended =>
    rw [wp_bind, wp_modTcb, wp_ite]
    refine ⟨fun hnow => ?_, fun _ => wp_pure.mpr (.inl ((hrem _).trans hself))⟩
    rw [wp_bind, wp_tsGet]
    refine (((hmail _).bind fun _ : Unit => alters_pendListRemove.bind fun _ : Unit => hoff.bind fun _ : Unit =>
      (hend .suspended).bind fun _ : Unit => hret).next (hrem _)).mono fun _ s₂ h₂ => .inr ⟨hnow.symm, rfl, h₂.trans ?_⟩
    rw [File.expired, show (s.file t).state = .pendTimeoutSuspended from hs]
    rfl

end waits

end UcosIII
