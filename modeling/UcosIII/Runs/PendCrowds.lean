import UcosIII.Runs.Crowds

namespace UcosIII

open Prog

variable {n k : ℕ} {cfg : Cfg} {s s' : OS} {t : TcbId} {h : List Step}

section pend

variable {o : ObjId} {kind : PendOn} {c : Cont}

/-- `k` tasks of priority 5 have been created in the state `B`, from task 10 on, and wait on the object `o`; the counter of
its pend list has the lower 16 bits of `k`. -/
def OS.pendCrowd (B : OS) (o : ObjId) (kind : PendOn) (c : Cont) (k : ℕ) : OS :=
  { B with
    tcb := fun x =>
      if 10 ≤ x ∧ x < 10 + k then
        { crowdTCB B.schedRoundRobinDfltTimeQuanta none none with
          taskState := .pend, pendOn := kind, pendDataTblPtr := some (x, 0), pendDataTblEntries := 1 }
      else B.tcb x
    pendData := fun d =>
      if (10 ≤ d.1 ∧ d.1 < 10 + k) ∧ d.2 = 0 then
        { prevPtr := if d.1 = 10 then none else some (d.1 - 1, 0)
          nextPtr := if d.1 + 1 < 10 + k then some (d.1 + 1, 0) else none
          tcbPtr := some d.1, pendObjPtr := some o, rdyObjPtr := none, rdyMsgPtr := none, rdyMsgSize := 0, rdyTS := 0 }
      else B.pendData d
    obj := Function.update B.obj o
      { B.obj o with pendList := { headPtr := some (10, 0), tailPtr := some (9 + k, 0), nbrEntries := k % 65536 } }
    cont := fun x => if 10 ≤ x ∧ x < 10 + k then c else B.cont x }

def OS.withNew (s : OS) (t : TcbId) : OS :=
  { s with
    tcb := Function.update s.tcb t (crowdTCB s.schedRoundRobinDfltTimeQuanta none none)
    rdyList := Function.update s.rdyList 5 { headPtr := some t, tailPtr := some t, nbrEntries := 1 }
    prioTbl := Function.update s.prioTbl 0 (s.prioTbl 0 ||| prioBit 5)
    prioCur := 5
    prioHighRdy := 5
    tcbCurPtr := some t
    tcbHighRdyPtr := some t }

@[mk_iff]
structure OS.HostsPend (B : OS) : Prop where
  running : B.running = true
  intNesting : B.intNestingCtr = 0
  lockNesting : B.schedLockNestingCtr = 0
  cur : B.tcbCurPtr = some 4
  high : B.tcbHighRdyPtr = some 4
  prioCur : B.prioCur = 7
  prioHigh : B.prioHighRdy = 7
  cont : B.cont 4 = .none
  empty : (B.rdyList 5).headPtr = none ∧ (B.rdyList 5).tailPtr = none ∧ (B.rdyList 5).nbrEntries = 0
  head : (B.rdyList 7).headPtr = some 4
  bit : (B.prioTbl 0 ||| prioBit 5) &&& ~~~ prioBit 5 = B.prioTbl 0
  best : B.prioTbl 0 ≠ 0#32 ∧ cntLeadZeros32 (B.prioTbl 0) = 7
  bestNew : cntLeadZeros32 (B.prioTbl 0 ||| prioBit 5) = 5

instance : DecidablePred OS.HostsPend := fun B => decidable_of_iff' _ (OS.hostsPend_iff B)

theorem OS.HostsPend.rdyList {B : OS} (hB : B.HostsPend) : { headPtr := none, tailPtr := none, nbrEntries := 0 } =
    B.rdyList 5 := by
  rw [← hB.empty.2.2]
  nth_rewrite 1 [← hB.empty.1]
  rw [← hB.empty.2.1]

theorem osSched_switch {p : ℕ} {u : TcbId} (hint : s.intNestingCtr = 0) (hlock : s.schedLockNestingCtr = 0)
    (hne : s.prioTbl 0 ≠ 0#32) (hp : cntLeadZeros32 (s.prioTbl 0) = p) (hlt : p < Cfg.repository.prioMax)
    (hhead : (s.rdyList p).headPtr = some u) (hcur : s.tcbCurPtr ≠ some u) :
    osSched.run .word n Cfg.repository s =
      some ((), { s with prioHighRdy := p, prioCur := p, tcbHighRdyPtr := some u, tcbCurPtr := some u }) := by
  have hsize : prioTblSize Cfg.repository = 1 := by decide
  have hne' : ¬ some u = s.tcbCurPtr := fun h => hcur h.symm
  simp [osSched, hint, hlock, reschedule, prioGetHighest, hsize, prioScan, getPrioTbl, hne, hp, hlt, getRdyList,
    hhead, hne', ctxSw]

theorem newTask_crowd (hs : s.HostsPend) (ht : t ≠ 4) :
    (Event.newTask t 5).exec.run .word n Cfg.repository s = some (some { err := .none }, s.withNew t) := by
  have hlt : (0 : ℕ) < prioTblSize Cfg.repository := by decide
  have hp : 5 < Cfg.repository.prioMax := by decide
  have hbit : prioBit 5 ≠ 0#32 := by decide
  have hstart : (taskStart t (crowdArgs t)).run .word n Cfg.repository s = some ((), { s with
      tcb := Function.update s.tcb t (crowdTCB s.schedRoundRobinDfltTimeQuanta none none)
      rdyList := Function.update s.rdyList 5 { headPtr := some t, tailPtr := some t, nbrEntries := 1 }
      prioTbl := Function.update s.prioTbl 0 (s.prioTbl 0 ||| prioBit 5) }) := by
    simp [taskStart, crowdArgs, taskInitTCB, modTcb, prioInsert, modPrioTbl, rdyListInsertTail, getTcb, getRdyList, OS.modTcb,
      OS.modPrioTbl, modRdyList, hlt, hp, hs.empty.2.2, OS.modRdyList, crowdTCB, TCB.init]
  change (errOnly (osTaskCreate (crowdArgs t))).run .word n Cfg.repository s = _
  simp only [errOnly, osTaskCreate, bind_apply, ask_apply, get_apply, Option.bind_some, taskCreateCheck_crowd hs.intNesting,
    hstart, hs.running, Bool.true_eq_false, if_false]
  rw [osSched_switch (u := t) (p := 5)]
  · simp [OS.withNew, hs.running]
  · exact hs.intNesting
  · exact hs.lockNesting
  · simp [hbit]
  · simp [hs.bestNew]
  · exact hp
  · simp
  · rw [hs.cur]
    exact fun h => ht (Option.some_inj.mp h).symm

structure OS.CrowdRows (s : OS) (k : ℕ) : Prop where
  owner : ∀ x, 10 ≤ x → x < 10 + k → (s.pendData (x, 0)).tcbPtr = some x
  next : ∀ x, 10 ≤ x → x < 10 + k → (s.pendData (x, 0)).nextPtr = if x + 1 < 10 + k then some (x + 1, 0) else none
  prio : ∀ x, 10 ≤ x → x < 10 + k → (s.tcb x).prio = 5

theorem pendListFind_crowd (hs : s.CrowdRows k) (hk : 0 < k) :
    (loop (pendListFind 5) (some (10, 0))).run .word (k + 1) cfg s = some (none, s) := by
  have hwalk (j x : ℕ) (hj : x + j = 10 + k) (hx : 10 ≤ x) :
      (loopN (pendListFind 5) (j + 1) (if x < 10 + k then some (x, 0) else none)).run .word (k + 1) cfg s = some (none, s) := by
    induction j generalizing x with
    | zero =>
      rw [if_neg (by omega)]
      rfl
    | succ j ih =>
      have hlt : x < 10 + k := by omega
      have hbody : (pendListFind 5 (some (x, 0))).run .word (k + 1) cfg s =
          some (.inl (if x + 1 < 10 + k then some (x + 1, 0) else none), s) := by
        simp [pendListFind, getPendData, getTcb, hs.owner x hx hlt, hs.prio x hx hlt, hs.next x hx hlt]
      rw [if_pos hlt, loopN, bind_apply, hbody]
      exact ih (x + 1) (by omega) (by omega)
  have := hwalk k 10 rfl (Nat.le_refl _)
  rwa [if_pos (by omega)] at this

theorem pend_crowd_first {B : OS} (hB : B.HostsPend) (hobj : (B.obj o).pendList.nbrEntries = 0) :
    (pend (some o) kind 0 >>= fun _ => waitThen c).run .word 1 Cfg.repository (B.withNew 10) =
    some (none, B.pendCrowd o kind c 1) := by
  have hlt : (0 : ℕ) < prioTblSize Cfg.repository := by decide
  have hp : 5 < Cfg.repository.prioMax := by decide
  simp [pend, getCur, OS.withNew, modTcb, taskBlock, rdyListRemove, getTcb, OS.modTcb, modRdyList, OS.modRdyList, prioRemove,
    modPrioTbl, hlt, hp, crowdTCB, modPendData, OS.modPendData, pendDataInit, forEntries, pendDataInit1,
      pendListInsertPrio, getPendData,
    getObj, hobj, modPendList, modObj, OS.modObj, waitThen, OS.modPrioTbl, hB.bit]
  rw [osSched_switch (u := 4) (p := 7)]
  · simp [OS.pendCrowd, hB.cur, hB.high, hB.prioCur, hB.prioHigh]
    have hcrowd (x : ℕ) : 10 ≤ x ∧ x < 11 ↔ x = 10 := by omega
    refine ⟨?_, ?_, ?_, ?_⟩
    · funext (x : ℕ)
      by_cases hx : x = 10 <;> simp [hcrowd, hx, crowdTCB, TCB.init]
    · funext d
      obtain ⟨x, i⟩ := d
      by_cases hx : x = 10 <;> by_cases hi : i = 0 <;> simp [hcrowd, hx, hi]
    · exact hB.rdyList
    · funext (x : ℕ)
      by_cases hx : x = 10 <;> simp [hcrowd, hx]
  · exact hB.intNesting
  · exact hB.lockNesting
  · simp [hB.best.1]
  · simp [hB.best.2]
  · decide
  · simp [hB.head]
  · simp

theorem pend_crowd_next {B : OS} (hB : B.HostsPend) (hk : 0 < k) (hk' : k < 65536) :
    (pend (some o) kind 0 >>= fun _ => waitThen c).run .word (k + 1) Cfg.repository
    ((B.pendCrowd o kind c k).withNew (10 + k)) =
      some (none, B.pendCrowd o kind c (k + 1)) := by
  have hnbr : k % 65536 ≠ 0 := by omega
  have hlt : (0 : ℕ) < prioTblSize Cfg.repository := by decide
  have hp : 5 < Cfg.repository.prioMax := by decide
  simp [pend, getCur, OS.withNew, modTcb, taskBlock, rdyListRemove, getTcb, OS.modTcb, modRdyList, OS.modRdyList, prioRemove,
    modPrioTbl, hlt, hp, crowdTCB, modPendData, OS.modPendData, pendDataInit, forEntries, pendDataInit1,
      pendListInsertPrio, getPendData,
    getObj, modPendList, modObj, OS.modObj, waitThen, OS.modPrioTbl, hB.bit, OS.pendCrowd, hnbr, incPendList, objQtyInc]
  rw [pendListFind_crowd (k := k)]
  · simp
    rw [osSched_switch (u := 4) (p := 7)]
    · simp [hB.cur, hB.high, hB.prioCur, hB.prioHigh]
      have hcrowd (x : ℕ) (hx : x ≠ 10 + k) : (10 ≤ x ∧ x < 10 + (k + 1)) ↔ 10 ≤ x ∧ x < 10 + k := by omega
      refine ⟨?_, ?_, ?_, ?_, ?_⟩
      · funext (x : ℕ)
        by_cases hx : x = 10 + k
        · simp [hx, TCB.init]
        · simp [hcrowd x hx, hx, TCB.init]
      · rw [show 9 + (k + 1) = 10 + k from by omega]
      · have hlast : 10 ≤ 9 + k ∧ 9 + k < 10 + k ∧ 9 + k < 10 + (k + 1) ∧ 9 + k + 1 < 10 + (k + 1) ∧ 9 + k + 1 = 10 + k :=
          by omega
        funext d
        obtain ⟨(x : ℕ), i⟩ := d
        by_cases hi : i = 0
        · by_cases hx : x = 10 + k
          · subst hx
            have hend : 10 + (k + 1) ≤ 10 + k + 1 := by omega
            simp [hi, hk.ne', hend]
          · by_cases hx' : x = 9 + k
            · subst hx'
              simp [hi, hlast]
            · have hnext : x + 1 < 10 + k ↔ x + 1 < 10 + (k + 1) := by omega
              simp [hi, hx, hx', hcrowd x hx, hnext]
        · simp [hi]
      · exact hB.rdyList
      · funext (x : ℕ)
        by_cases hx : x = 10 + k
        · simp [hx]
        · simp [hcrowd x hx, hx]
    · exact hB.intNesting
    · exact hB.lockNesting
    · simp [hB.best.1]
    · simp [hB.best.2]
    · decide
    · simp [hB.head]
    · have hne : (10 + k : ℕ) ≠ 4 := by omega
      simp [hne]
  · refine ⟨fun x h1 h2 => ?_, fun x h1 h2 => ?_, fun x h1 h2 => ?_⟩
    · have hx : x ≠ 10 + k := by omega
      simp [hx, h1, h2]
    · have hx : x ≠ 10 + k := by omega
      simp [hx, h1, h2]
    · have hx : x ≠ 10 + k := by omega
      simp [hx, h1, h2]
  · exact hk

theorem OS.HostsPend.pendCrowd {B : OS} (hB : B.HostsPend) : (B.pendCrowd o kind c k).HostsPend :=
  { hB with }

/-- The task `t` of a crowd runs, at priority 5, and the object `o` is as in `B` but for its pend list. -/
structure OS.Visited (B : OS) (o : ObjId) (t : TcbId) (s : OS) : Prop where
  intNesting : s.intNestingCtr = 0
  lockNesting : s.schedLockNestingCtr = 0
  cur : s.tcbCurPtr = some t
  prio : (s.tcb t).prio = 5
  older : ∀ x : TcbId, x < 10 → s.tcb x = B.tcb x
  obj : s.obj o = { B.obj o with pendList := (s.obj o).pendList }

theorem OS.HostsPend.visited {B : OS} (hB : B.HostsPend) (ht : 10 ≤ t) : B.Visited o t (B.withNew t) := by
  refine ⟨hB.intNesting, hB.lockNesting, rfl, ?_, fun x hx => ?_, rfl⟩
  · simp [OS.withNew, crowdTCB]
  · have hne : x ≠ t := Nat.ne_of_lt (Nat.lt_of_lt_of_le hx ht)
    simp [OS.withNew, hne]

theorem OS.HostsPend.visited_crowd {B : OS} (hB : B.HostsPend) (ht : 10 ≤ t) :
    B.Visited o t ((B.pendCrowd o kind c k).withNew t) := by
  obtain ⟨h1, h2, h3, h4, h5, -⟩ := (hB.pendCrowd (o := o) (k := k)).visited (o := o) ht
  refine ⟨h1, h2, h3, h4, fun x hx => (h5 x hx).trans ?_, ?_⟩
  · exact if_neg fun hx' => Nat.not_le.mpr hx hx'.1
  · simp [OS.withNew, OS.pendCrowd]

theorem osSemPend_visited {B : OS} (hs : B.Visited o t s) (htype : (B.obj o).type = .sem) (hctr : (B.obj o).ctr = 0) :
    (osSemPend (some o) 0 optPendBlocking).run .word n cfg s =
      (pend (some o) .sem 0 >>= fun _ => waitThen (.semPend o)).run .word n cfg s := by
  have htype' : (s.obj o).type = .sem := by rw [hs.obj, htype]
  have hctr' : (s.obj o).ctr = 0 := by rw [hs.obj, hctr]
  have hopt : pendOptValid optPendBlocking = true := rfl
  have hblock : optPendBlocking &&& optPendNonBlocking = 0 := rfl
  simp [osSemPend, getObj, hs.intNesting, hs.lockNesting, htype', hctr', hopt, hblock]

theorem osQPend_visited {B : OS} (hs : B.Visited o t s) (htype : (B.obj o).type = .q) (hq : (B.obj o).msgQ.nbrEntries = 0) :
    (osQPend (some o) 0 optPendBlocking true).run .word n cfg s =
      (pend (some o) .q 0 >>= fun _ => waitThen .qPend).run .word n cfg s := by
  have htype' : (s.obj o).type = .q := by rw [hs.obj, htype]
  have hq' : (s.obj o).msgQ.nbrEntries = 0 := by rw [hs.obj, hq]
  have hopt : pendOptValid optPendBlocking = true := rfl
  have hblock : optPendBlocking &&& optPendNonBlocking = 0 := rfl
  have hsame : s.modObj o (fun b => { b with msgQ := (s.obj o).msgQ }) = s :=
    congrArg (fun f => { s with obj := f }) (Function.update_eq_self o s.obj)
  simp [osQPend, getObj, msgQGet, modObj, hs.intNesting, hs.lockNesting, htype', hq', hopt, hblock, hsame]

theorem osMutexPend_visited {B : OS} {w : TcbId} (hs : B.Visited o t s) (htype : (B.obj o).type = .mutex)
    (hnest : (B.obj o).ownerNestingCtr ≠ 0#8) (hown : (B.obj o).ownerTCBPtr = some w) (hw : w < 10) (ht : 10 ≤ t)
    (hprio : (B.tcb w).prio ≤ 5) :
    (osMutexPend (some o) 0 optPendBlocking).run .word n cfg s =
      (pend (some o) .mutex 0 >>= fun _ => waitThen (.mutexPend o)).run .word n cfg s := by
  have htype' : (s.obj o).type = .mutex := by rw [hs.obj, htype]
  have hnest' : (s.obj o).ownerNestingCtr ≠ 0#8 := by rwa [hs.obj]
  have hown' : (s.obj o).ownerTCBPtr = some w := by rw [hs.obj, hown]
  have hprio' : ¬ 5 < (s.tcb w).prio := by rw [hs.older w hw]; exact Nat.not_lt.mpr hprio
  have hne : t ≠ w := fun h => Nat.not_le.mpr hw (h ▸ ht)
  have hopt : pendOptValid optPendBlocking = true := rfl
  have hblock : optPendBlocking &&& optPendNonBlocking = 0 := rfl
  simp [osMutexPend, mutexWait, getObj, getCur, getTcb, hs.intNesting, hs.lockNesting, hs.cur, hs.prio, htype', hnest',
    hown', hne,
    hprio', hopt, hblock]

/-- The crowd gathers: one after the other the tasks are created, run, and wait by the call `q`. -/
theorem pendCrowd_gathers {P : Step → Prop} {B : OS} {q : Call} (run : CodeRun Cfg.repository (fun _ => P) h B)
    (hB : B.HostsPend)
    (hobj : (B.obj o).pendList.nbrEntries = 0) (hdel : ∀ t, 10 ≤ t → (B.tcb t).taskState = .del ∧ B.cont t = .none)
    (hq : ∀ n t s, 10 ≤ t → B.Visited o t s → (Event.call q).exec.run .word n Cfg.repository s =
      (pend (some o) kind 0 >>= fun _ => waitThen c).run .word n Cfg.repository s)
    (hfair : ∀ s, q.Fair s) (hP : ∀ s t r, P ⟨s, .newTask t 5, r⟩)
    (hP' : ∀ t s r, 10 ≤ t → B.Visited o t s → P ⟨s, .call q, r⟩) (hk : k < 65536) :
    ∃ h', CodeRun Cfg.repository (fun _ => P) h' (B.pendCrowd o kind c (k + 1)) := by
  have hnew {s : OS} {t : TcbId} {h : List Step} (run : CodeRun Cfg.repository (fun _ => P) h s) (hs : s.HostsPend)
    (ht : 10 ≤ t)
      (hd : (s.tcb t).taskState = .del) : ∃ h', CodeRun Cfg.repository (fun _ => P) h' (s.withNew t) := by
    refine ⟨_, .step run (e := .newTask t 5) ⟨⟨fun x hx => ?_, fun x hx => by cases hx⟩, .inl ?_⟩ ⟨1, newTask_crowd hs ?_⟩ (hP _ _ _)⟩
    · cases hx
      exact hd
    · refine ⟨hs.running, hs.intNesting, fun x hx => ?_⟩
      rw [hs.cur] at hx
      cases hx
      exact hs.cont
    · rintro rfl
      exact absurd ht (by decide)
  have hwait {s : OS} {t : TcbId} {n : ℕ} {h : List Step} (run : CodeRun Cfg.repository (fun _ => P) h (s.withNew t))
      (hs : s.HostsPend) (hc : s.cont t = .none) (hv : B.Visited o t (s.withNew t)) (ht : 10 ≤ t) {s' : OS}
      (hx : (pend (some o) kind 0 >>= fun _ => waitThen c).run .word n Cfg.repository (s.withNew t) = some (none, s')) :
      ∃ h', CodeRun Cfg.repository (fun _ => P) h' s' := by
    refine ⟨_, .step run (e := .call q) ⟨hfair _, .inl ⟨hs.running, hs.intNesting, fun x hx => ?_⟩⟩
      ⟨n, (hq n t _ ht hv).trans hx⟩ (hP' t _ _ ht hv)⟩
    cases hx
    exact hc
  induction k with
  | zero =>
    obtain ⟨h₁, run₁⟩ := hnew run hB (Nat.le_refl _) (hdel 10 (Nat.le_refl _)).1
    exact hwait run₁ hB (hdel 10 (Nat.le_refl _)).2 (hB.visited (Nat.le_refl _)) (Nat.le_refl _) (pend_crowd_first hB hobj)
  | succ k ih =>
    obtain ⟨h₁, run₁⟩ := ih (by omega)
    have hlast : ¬ (10 ≤ 10 + (k + 1) ∧ 10 + (k + 1) < 10 + (k + 1)) := by omega
    have hle : 10 ≤ 10 + (k + 1) := Nat.le_add_right _ _
    obtain ⟨hd, hc⟩ := hdel _ hle
    obtain ⟨h₂, run₂⟩ := hnew run₁ hB.pendCrowd hle ((congrArg TCB.taskState (if_neg hlast)).trans hd)
    exact hwait run₂ hB.pendCrowd ((if_neg hlast).trans hc) (hB.visited_crowd hle) hle (pend_crowd_next hB (Nat.succ_pos _) hk)

def OS.HostsSem (B : OS) (o : ObjId) : Prop :=
  B.HostsPend ∧ (B.obj o).pendList.nbrEntries = 0 ∧ (B.obj o).type = .sem ∧ (B.obj o).ctr = 0

instance : DecidablePred fun B : OS => B.HostsSem o := fun B => inferInstanceAs (Decidable (B.HostsPend ∧ _))

theorem semCrowd_gathers {P : Step → Prop} {B : OS} (run : CodeRun Cfg.repository (fun _ => P) h B) (hB : B.HostsSem o)
    (hdel : ∀ t, 10 ≤ t → (B.tcb t).taskState = .del ∧ B.cont t = .none) (hP : ∀ s t r, P ⟨s, .newTask t 5, r⟩)
    (hP' : ∀ s r, P ⟨s, .call (.semPend (some o) 0 optPendBlocking), r⟩) :
    ∃ h', CodeRun Cfg.repository (fun _ => P) h' (B.pendCrowd o .sem (.semPend o) 65536) :=
  pendCrowd_gathers (q := .semPend (some o) 0 optPendBlocking) run hB.1 hB.2.1 hdel (fun _ _ _ _ hv =>
    osSemPend_visited hv hB.2.2.1 hB.2.2.2)
    (fun _ => ⟨fun _ hx => (by cases hx), fun _ hx => (by cases hx)⟩) hP (fun _ _ _ _ _ => hP' _ _) (by decide)

def OS.HostsQ (B : OS) (o : ObjId) : Prop :=
  B.HostsPend ∧ (B.obj o).pendList.nbrEntries = 0 ∧ (B.obj o).type = .q ∧ (B.obj o).msgQ.nbrEntries = 0

instance : DecidablePred fun B : OS => B.HostsQ o := fun B => inferInstanceAs (Decidable (B.HostsPend ∧ _))

theorem qCrowd_gathers {P : Step → Prop} {B : OS} (run : CodeRun Cfg.repository (fun _ => P) h B) (hB : B.HostsQ o)
    (hdel : ∀ t, 10 ≤ t → (B.tcb t).taskState = .del ∧ B.cont t = .none) (hP : ∀ s t r, P ⟨s, .newTask t 5, r⟩)
    (hP' : ∀ s r, P ⟨s, .call (.qPend (some o) 0 optPendBlocking true), r⟩) :
    ∃ h', CodeRun Cfg.repository (fun _ => P) h' (B.pendCrowd o .q .qPend 65536) :=
  pendCrowd_gathers (q := .qPend (some o) 0 optPendBlocking true) run hB.1 hB.2.1 hdel
    (fun _ _ _ _ hv => osQPend_visited hv hB.2.2.1 hB.2.2.2)
    (fun _ => ⟨fun _ hx => (by cases hx), fun _ hx => (by cases hx)⟩) hP (fun _ _ _ _ _ => hP' _ _) (by decide)

def OS.HostsMutex (B : OS) (o : ObjId) : Prop :=
  B.HostsPend ∧ (B.obj o).pendList.nbrEntries = 0 ∧ (B.obj o).type = .mutex ∧ (B.obj o).ownerNestingCtr ≠ 0#8 ∧
    (B.obj o).ownerTCBPtr = some 5 ∧ (B.tcb 5).prio ≤ 5

instance : DecidablePred fun B : OS => B.HostsMutex o := fun B => inferInstanceAs (Decidable (B.HostsPend ∧ _))

theorem mutexCrowd_gathers {P : Step → Prop} {B : OS} (run : CodeRun Cfg.repository (fun _ => P) h B) (hB : B.HostsMutex o)
    (hdel : ∀ t, 10 ≤ t → (B.tcb t).taskState = .del ∧ B.cont t = .none) (hP : ∀ s t r, P ⟨s, .newTask t 5, r⟩)
    (hP' : ∀ s r, (s.obj o).ownerTCBPtr ≠ s.tcbCurPtr → P ⟨s, .call (.mutexPend (some o) 0 optPendBlocking), r⟩) :
    ∃ h', CodeRun Cfg.repository (fun _ => P) h' (B.pendCrowd o .mutex (.mutexPend o) 65536) := by
  obtain ⟨hhost, hnbr, htype, hnest, hown, hprio⟩ := hB
  refine pendCrowd_gathers (q := .mutexPend (some o) 0 optPendBlocking) run hhost hnbr hdel
    (fun _ _ _ ht hv => osMutexPend_visited hv htype hnest hown (by decide) ht hprio)
    (fun _ => ⟨fun _ hx => (by cases hx), fun _ hx => (by cases hx)⟩) hP (fun t s r ht hv => hP' s r ?_) (by decide)
  rw [hv.obj, hv.cur]
  rintro hcur
  obtain rfl : 5 = t := Option.some_inj.mp (hown.symm.trans hcur)
  exact absurd ht (by decide)

end pend

end UcosIII
