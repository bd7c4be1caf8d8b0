import UcosIII.Kernel.System
import UcosIII.Lists.Ready

/-!
The counters of the lists. In a run in which none of them wraps they may be read as natural numbers.
-/

namespace UcosIII

open Prog

variable {cfg : Cfg} {s s' : OS} {t : TcbId} {o : ObjId} {n p k : ℕ}

section countless

@[simp, grind ←] theorem countless_getTcb : Countless (getTcb t) := by grind [getTcb]

@[simp, grind ←] theorem countless_modTcb {f : TCB → TCB} : Countless (modTcb t f) := by grind [modTcb]

@[simp, grind ←] theorem countless_getRdyList : Countless (getRdyList p) := by grind [getRdyList]

@[simp, grind ←] theorem countless_modRdyList {f : RdyList → RdyList} : Countless (modRdyList p f) := by
  grind [modRdyList]

@[simp, grind ←] theorem countless_prioInsert : Countless (prioInsert p) := by grind [prioInsert, modPrioTbl]

@[simp, grind ←] theorem countless_taskInitTCB : Countless (taskInitTCB t) := by grind [taskInitTCB]

@[simp, grind ←] theorem countless_getObj : Countless (getObj o) := by grind [getObj]

@[simp, grind ←] theorem countless_modObj {f : Obj → Obj} : Countless (modObj o f) := countless_plain

@[simp, grind ←] theorem countless_getCur : Countless getCur := by grind [getCur]

theorem countless_contRun (k : Cont) : Countless k.run := by
  cases k <;> rw [Cont.run]
  case none => exact countless_pure
  all_goals refine countless_bind ?_ fun _ => countless_pure
  case semPend => grind [semPendFinish]
  case qPend => grind [qPendFinish]
  case mutexPend => grind [mutexPendFinish]
  case flagPend => grind [flagPendFinish]
  case flagPost => grind [flagPostFinish]
  case multiPend => grind [multiPendFinish]
  case taskSemPend => grind [taskSemPendFinish]
  case taskQPend => grind [taskQPendFinish]

theorem countless_finish : Countless finish :=
  countless_bind countless_getCur fun _ => countless_bind countless_get fun _ =>
    countless_bind countless_modify fun _ => countless_contRun _

end countless

theorem fits_objQtyInc (h : k + 1 < 65536) : Fits cfg (objQtyInc k) s := fits_count (Nat.mod_eq_of_lt h)

theorem fits_incRdyList (h : (s.rdyList p).nbrEntries + 1 < 65536) : Fits cfg (incRdyList p) s := by
  refine fits_bind (countless_getRdyList _ _) fun n => ?_
  rw [wp_getRdyList]
  intro _
  exact fits_bind (fits_objQtyInc h) fun n => fun _ _ _ => countless_modRdyList _ _

theorem fits_rdyListInsertTail (h : (s.rdyList (s.tcb t).prio).nbrEntries + 1 < 65536) :
    Fits cfg (rdyListInsertTail t) s := by
  refine fits_bind (countless_getTcb _ _) fun n => ?_
  rw [wp_getTcb]
  refine fits_bind (countless_getRdyList _ _) fun n => ?_
  rw [wp_getRdyList]
  intro _
  refine fits_ite (fun _ => ?_) fun _ => ?_
  · exact countless_bind countless_modTcb (fun _ => countless_modRdyList) _ _
  · refine fits_bind (fits_incRdyList h) fun n => fun _ s' _ => ?_
    have htail : Countless (deref (s.rdyList (s.tcb t).prio).tailPtr >>= fun t2 => do
        modTcb t2 fun c => { c with nextPtr := some t }
        modRdyList (s.tcb t).prio fun l => { l with tailPtr := some t }) := by grind
    exact countless_bind countless_modTcb (fun _ => htail) _ _

section init

def OS.RdyAtMost (s : OS) (k : ℕ) : Prop := ∀ p, (s.rdyList p).nbrEntries ≤ k

theorem rdyListInsertTail_atMost (h : s.RdyAtMost k) : wp n cfg (rdyListInsertTail t) (fun _ s' => s'.RdyAtMost (k + 1)) s := by
  have hset {s' : OS} {p : ℕ} {f : RdyList → RdyList} (hs : s'.RdyAtMost (k + 1)) (hf : (f (s'.rdyList p)).nbrEntries ≤ k + 1) :
      (s'.modRdyList p f).RdyAtMost (k + 1) := by
    intro q
    rw [OS.modRdyList_rdyList]
    split
    · exact hf
    · exact hs q
  have h' : s.RdyAtMost (k + 1) := fun q => (h q).trans k.le_succ
  simp only [rdyListInsertTail, wp_bind, wp_getTcb, wp_getRdyList, wp_ite, wp_modTcb, wp_modRdyList, wp_incRdyList,
    wp_deref]
  intro _
  constructor
  · exact fun _ _ => hset h' (Nat.succ_pos k)
  · intro _ _ t2 _ _
    have hinc := hset (f := fun l => { l with nbrEntries := l.nbrEntries + 1 }) h' (Nat.succ_le_succ (h (s.tcb t).prio))
    exact hset hinc (hinc (s.tcb t).prio)

theorem kernelTask_atMost (h : s.RdyAtMost k) : wp n cfg (kernelTask t p) (fun _ s' => s'.RdyAtMost (k + 1)) s := by
  rw [kernelTask, taskStart, taskInitTCB]
  simp only [wp_bind, wp_ask, wp_get, wp_modTcb, prioInsert, wp_modPrioTbl]
  exact fun _ => rdyListInsertTail_atMost h

theorem fits_kernelTask (h : s.RdyAtMost k) (hk : k + 1 < 65536) : Fits cfg (kernelTask t p) s := by
  refine fits_bind (countless_taskInitTCB _ _) fun n => ?_
  rw [taskInitTCB, wp_bind, wp_ask, wp_modTcb]
  refine fits_bind (countless_get _ _) fun n => ?_
  rw [wp_get]
  refine fits_bind (countless_modTcb _ _) fun n => ?_
  rw [wp_modTcb]
  refine fits_bind (countless_prioInsert _ _) fun n => ?_
  rw [prioInsert, wp_modPrioTbl]
  exact fun _ => fits_rdyListInsertTail (Nat.lt_of_le_of_lt (Nat.succ_le_succ (h _)) hk)

theorem fits_osInit : Fits cfg osInit (OS.boot cfg) := by
  refine fits_bind (countless_ask _ _) fun n => ?_
  rw [wp_ask]
  have h0 : (OS.boot cfg).RdyAtMost 0 := fun _ => le_refl 0
  refine fits_bind (fits_kernelTask h0 (by decide)) fun n => (kernelTask_atMost h0).mono fun _ s₁ h₁ => ?_
  refine fits_bind (fits_kernelTask h₁ (by decide)) fun n => (kernelTask_atMost h₁).mono fun _ s₂ h₂ => ?_
  refine fits_bind (fits_kernelTask h₂ (by decide)) fun n => (kernelTask_atMost h₂).mono fun _ s₃ h₃ => ?_
  exact fits_kernelTask h₃ (by decide)

end init

theorem RunIn.fits {c : Reading} {P : List Step → Step → Prop} {h : List Step} (run : RunIn c cfg P h s)
    (hfit : NoWrap cfg h) (c' : Reading) : RunIn c' cfg P h s := by
  induction run with
  | init hx => exact .init (hx.fits fits_osInit c')
  | step _ he hx hk ih =>
    obtain ⟨hx', hfit⟩ := List.forall_mem_cons.mp hfit
    exact .step (ih hfit) he (hx.fits hx' c') hk

end UcosIII
