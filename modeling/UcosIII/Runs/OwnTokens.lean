import UcosIII.Runs.TokenBalance

namespace UcosIII

open Prog

variable {n : ℕ} {cfg : Cfg} {s s' : OS} {a b a' : Abs} {t : TcbId} {o : ObjId} {d : PdId} {e : Event} {r : Option Ret}
  {h : List Step}

def TCB.WaitsOwn (c : TCB) : Prop := c.taskState.isPend = true ∧ c.pendOn = .taskSem

instance (c : TCB) : Decidable c.WaitsOwn := inferInstanceAs (Decidable (_ ∧ _))

def TCB.TakesSignal (c : TCB) : Prop := c.taskState ≠ .del ∧ (c.WaitsOwn ∨ c.semCtr ≠ 0xFFFFFFFF)

instance (c : TCB) : Decidable c.TakesSignal := inferInstanceAs (Decidable (_ ∧ _))

/-- A signal to `t` that is answered without an error. The tick interrupt signals the tick task and the timer task. -/
def Event.signals (s : OS) (r : Option Ret) (t : TcbId) : Event → ℕ
  | .call (.taskSemPost p _) => if s.Target p t ∧ granted r = true then 1 else 0
  | .timeTick => if (t = tickTaskTCB ∨ t = tmrTaskTCB ∧ s.tmrUpdateCtr - 1 = 0) ∧ (s.tcb t).TakesSignal then 1 else 0
  | _ => 0

def OS.gainedOwn (s s' : OS) (t : TcbId) : ℕ :=
  if (s.tcb t).WaitsOwn ∧ (s'.tcb t).taskState.isPend = false ∧ (s'.tcb t).taskState ≠ .del ∧ (s'.tcb t).pendStatus = .ok
  then 1 else 0

def Event.takesOwn (s : OS) (r : Option Ret) (s' : OS) (t : TcbId) (e : Event) : ℕ :=
  (match e with
    | .call (.taskSemPend ..) => if s.tcbCurPtr = some t ∧ granted r = true then 1 else 0
    | _ => 0) + s.gainedOwn s' t

def Event.restarts (s : OS) (r : Option Ret) (t : TcbId) : Event → Bool
  | .call (.taskCreate args) => args.tcb = some t ∧ granted r = true
  | .call (.taskDel p) => s.Target p t ∧ granted r = true
  | _ => false

def Event.resetsOwn (s : OS) (r : Option Ret) (t : TcbId) : Event → Prop
  | .call (.taskSemSet p _) => s.Target p t ∧ granted r = true
  | _ => False

section own

theorem OS.signalled_balance (hf : s'.file t = (s.file t).signalled s.tsNow) :
    (s.tcb t).semCtr + (if (s.tcb t).TakesSignal then 1 else 0) = (s'.tcb t).semCtr + s.gainedOwn s' t := by
  by_cases hw : (s.tcb t).WaitsOwn
  · have hnd : (s.tcb t).taskState ≠ .del := by
      intro hd
      have hp := hw.1
      rw [hd] at hp
      cases hp
    rw [if_pos ⟨hnd, .inl hw⟩]
    have hf' : s'.file t = { s.file t with mail := { (s.file t).mail with ts := s.tsNow } }.posted none ⟨none, 0, s.tsNow⟩ := by
      rw [hf, File.signalled, if_pos (show (s.file t).state.isPend = true ∧ (s.file t).pendOn = .taskSem from hw)]
    obtain ⟨tbl, row, x, hs⟩ := File.posted_shape { s.file t with mail := { (s.file t).mail with ts := s.tsNow } } none
      ⟨none, 0, s.tsNow⟩
    have hshape := hf'.trans hs
    have hctr : (s'.tcb t).semCtr = (s.tcb t).semCtr := (congrArg File.semCtr hshape :)
    have hst : (s'.tcb t).taskState = (s.tcb t).taskState.woken := (congrArg File.state hshape :)
    have hok : (s'.tcb t).pendStatus = .ok := (congrArg File.pendStatus hshape :)
    have hend : (s'.tcb t).taskState.isPend = false ∧ (s'.tcb t).taskState ≠ .del := by
      rw [hst, TaskState.woken]
      split <;> simp [TaskState.isPend]
    rw [hctr, OS.gainedOwn, if_pos ⟨hw, hend.1, hend.2, hok⟩]
  · have hw' : ¬ ((s.file t).state.isPend = true ∧ (s.file t).pendOn = .taskSem) := hw
    have hgain : s.gainedOwn s' t = 0 := if_neg fun h => hw h.1
    rw [File.signalled, if_neg hw'] at hf
    by_cases hno : (s.file t).state = .del ∨ (s.file t).semCtr = 0xFFFFFFFF
    · rw [if_pos hno] at hf
      have hctr : (s'.tcb t).semCtr = (s.tcb t).semCtr := (congrArg File.semCtr hf :)
      rw [if_neg, hctr, hgain]
      rintro ⟨hnd, hw'' | hmax⟩
      · exact hw hw''
      · rcases hno with hno | hno
        · exact hnd hno
        · exact hmax hno
    · rw [if_neg hno] at hf
      have hctr : (s'.tcb t).semCtr = (s.tcb t).semCtr + 1 := (congrArg File.semCtr hf :)
      rw [not_or] at hno
      rw [if_pos ⟨hno.1, .inr hno.2⟩, hctr, hgain]

theorem Answers.elim_not {g : File → File} {W : TcbId → Prop} {x : Err} (h : Answers g W x s s') (ht : ¬ (x = .none ∧ W t)) :
    s'.file t = s.file t := by
  rcases h with ⟨hx, t', hW, h⟩ | ⟨-, h⟩
  · rw [h, Function.update_of_ne]
    rintro rfl
    exact ht ⟨hx, hW⟩
  · rw [h]

theorem taskSemPost_answers (p : Option TcbId) (opt : Opt) (ts : ℕ) :
    wp n cfg (taskSemPost p opt ts) (fun x _ => ∀ t, s.Target p t → (x.err = .none ↔ (s.tcb t).TakesSignal)) s := by
  rw [taskSemPost, wp_bind, wp_target]
  intro t ht
  rw [wp_bind, wp_modTcb, wp_bind, wp_getTcb, OS.modTcb_tcb, if_pos rfl]
  have hall {x : Ret} (hx : x.err = .none ↔ (s.tcb t).TakesSignal) :
      ∀ t, s.Target p t → (x.err = .none ↔ (s.tcb t).TakesSignal) := by
    intro t' ht'
    rw [ht'.unique ht]
    exact hx
  have hinc (hnd : (s.tcb t).taskState ≠ .del) (hw : ¬ (s.tcb t).WaitsOwn) : wp n cfg (taskSemInc t)
      (fun x _ => ∀ t, s.Target p t → (x.err = .none ↔ (s.tcb t).TakesSignal)) (s.modTcb t fun c => { c with ts := ts }) := by
    rw [taskSemInc, wp_bind, wp_getTcb, OS.modTcb_tcb, if_pos rfl, wp_ite]
    constructor
    · intro hmax
      refine wp_pure.mpr (hall ⟨by simp, fun h => ?_⟩)
      exact (h.2.resolve_left hw hmax).elim
    · intro hmax
      rw [wp_bind, wp_modTcb]
      exact wp_pure.mpr (hall ⟨fun _ => ⟨hnd, .inr hmax⟩, fun _ => rfl⟩)
  dsimp only
  cases hst : (s.tcb t).taskState with
  | rdy | dly | suspended | dlySuspended =>
    refine hinc (by simp [hst]) fun hw => ?_
    have hp := hw.1
    rw [hst] at hp
    cases hp
  | del => exact wp_pure.mpr (hall ⟨by simp, fun h => absurd hst h.1⟩)
  | pend | pendTimeout | pendSuspended | pendTimeoutSuspended =>
    rw [wp_ite]
    constructor
    · intro hk
      have hw : (s.tcb t).WaitsOwn := ⟨by rw [hst]; rfl, hk⟩
      rw [wp_bind]
      intro _ s₁ _
      rw [wp_bind, wp_getTcb, wp_bind]
      intro _ s₂ _
      exact wp_pure.mpr (hall ⟨fun _ => ⟨by simp [hst], .inl hw⟩, fun _ => rfl⟩)
    · intro hk
      exact hinc (by simp [hst]) fun hw => hk hw.2

theorem osTaskSemPend_takes (timeout : Tick) (opt : Opt) : wp n cfg (osTaskSemPend timeout opt) (fun r s' =>
    if granted r = true then ∃ t, s.tcbCurPtr = some t ∧ 0 < (s.file t).semCtr ∧
      s'.file = Function.update s.file t { s.file t with semCtr := (s.file t).semCtr - 1 }
    else ∀ t, (s'.file t).semCtr = (s.file t).semCtr) s := by
  rw [osTaskSemPend, wp_bind, wp_get, wp_ite]
  refine ⟨fun _ => wp_pure.mpr fun _ => rfl, fun _ => wp_ite.mpr ⟨fun _ => wp_pure.mpr fun _ => rfl, fun _ => ?_⟩⟩
  rw [wp_bind, wp_getCur]
  intro t ht
  rw [wp_bind, wp_getTcb, wp_ite]
  constructor
  · intro hctr
    rw [wp_bind]
    exact wp_modTcb_file fun s₁ h₁ => wp_pure.mpr ⟨t, ht, hctr, h₁⟩
  · intro _
    refine wp_ite.mpr ⟨fun _ => wp_pure.mpr fun _ => rfl, fun _ => wp_ite.mpr ⟨fun _ => wp_pure.mpr fun _ => rfl, fun _ => ?_⟩⟩
    refine (pendThen_file none .taskSem timeout .taskSemPend).mono ?_
    rintro _ s' ⟨rfl, x, hx, timed, h'⟩ u
    rw [h', Function.update_apply]
    split
    · rename_i hu
      rw [hu]
      rfl
    · rfl

def Event.countsOwn : Event → Bool
  | .call (.taskSemPost ..) | .timeTick | .call (.taskSemPend ..) | .call (.taskSemSet ..) | .call (.taskCreate _)
  | .call (.taskDel _) => true
  | _ => false

theorem Event.Change.semCtr_eq {f f' : File} (hc : e.Change s r t f f') (he : e.countsOwn = false) : f'.semCtr = f.semCtr := by
  have hposted (o : Option ObjId) (m : Mail) : (f.posted o m).semCtr = f.semCtr := by
    obtain ⟨tbl, row, x, hs⟩ := f.posted_shape o m
    rw [hs]
    rfl
  have haborted (o : Option ObjId) (ts : ℕ) : (f.aborted o ts).semCtr = f.semCtr := by
    obtain ⟨tbl, row, x, hs⟩ := f.aborted_shape o ts
    rw [hs]
    rfl
  cases e with
  | start | intEnter | intExit | clock => exact hc.elim
  | timeTick => cases he
  | finish =>
    obtain ⟨-, rfl⟩ := hc
    rfl
  | tickUpdate =>
    cases hc
    rcases f.expired_shape s.tsNow with ⟨-, hs⟩ | ⟨st, hs, -⟩
    · rw [hs]
      rfl
    · rw [hs]
  | call c =>
    cases c with
    | taskSemPost | taskSemPend | taskSemSet | taskCreate | taskDel => cases he
    | taskChangePrio | taskTimeQuantaSet | semCreate | semSet | qCreate | mutexCreate | flagCreate
    | flagPendGetFlagsRdy | timeGet | timeSet | schedLock | schedUnlock | schedRoundRobinCfg | schedRoundRobinYield =>
      exact hc.elim
    | taskSuspend p =>
      obtain ⟨-, rfl⟩ := hc
      obtain ⟨st, c, hs, -⟩ := f.suspended_shape
      rw [hs]
    | taskResume p =>
      obtain ⟨-, rfl⟩ := hc
      obtain ⟨st, c, hs, -⟩ := f.resumed_shape
      rw [hs]
    | taskQPost p pVoid msgSize opt =>
      rcases hc with ⟨-, ⟨-, -, rfl⟩ | ⟨-, k, rfl⟩⟩
      · exact hposted _ _
      · rfl
    | taskQFlush p =>
      obtain ⟨-, rfl⟩ := hc
      rfl
    | semPost p opt | mutexPost p opt | qPost p pVoid msgSize opt =>
      cases p with
      | none => exact hc.elim
      | some o =>
        obtain ⟨-, rfl⟩ := hc
        exact hposted _ _
    | semPendAbort p opt | qPendAbort p opt =>
      cases p with
      | none => exact hc.elim
      | some o =>
        obtain ⟨-, rfl⟩ := hc
        exact haborted _ _
    | taskSemPendAbort p opt | taskQPendAbort p opt =>
      obtain ⟨-, -, -, rfl⟩ := hc
      exact haborted _ _
    | timeDly | timeDlyHMSM =>
      obtain ⟨-, rfl⟩ := hc
      rfl
    | flagPost p flags opt =>
      cases p with
      | none => exact hc.elim
      | some o =>
        rcases hc with ⟨-, flagsRdy, rfl⟩ | ⟨-, -, rfl⟩ <;> rfl
    | taskQPend timeout opt hasSize =>
      obtain ⟨-, hc⟩ := hc
      cases r with
      | none =>
        obtain ⟨-, timed, rfl⟩ := hc
        rfl
      | some r =>
        obtain ⟨k, rfl⟩ := hc
        rfl
    | semPend p timeout opt | qPend p timeout opt hasSize | mutexPend p timeout opt =>
      cases p with
      | none => exact hc.elim
      | some o =>
        obtain ⟨-, -, timed, rfl⟩ := hc
        rfl
    | pendMulti tbl objs timeout opt =>
      cases tbl with
      | none => exact hc.elim
      | some i =>
        obtain ⟨-, hc⟩ := hc
        cases r with
        | none =>
          obtain ⟨timed, rfl⟩ := hc
          rfl
        | some r =>
          obtain ⟨row, rfl⟩ := hc
          rfl
    | flagPend p flags timeout opt =>
      cases p with
      | none => exact hc.elim
      | some o =>
        obtain ⟨-, hc⟩ := hc
        cases r with
        | none =>
          obtain ⟨timed, rfl⟩ := hc
          rfl
        | some r =>
          obtain ⟨flagsRdy, rfl⟩ := hc
          rfl

theorem OS.gainedOwn_same (hf : s'.file t = s.file t) : s.gainedOwn s' t = 0 := by
  have hst : (s'.tcb t).taskState = (s.tcb t).taskState := (congrArg File.state hf :)
  refine if_neg ?_
  rintro ⟨hw, hend, -⟩
  rw [hst, hw.1] at hend
  cases hend

theorem Ready.gainedOwn_eq_zero (H : Ready cfg s a) (he : Enabled s e) (hx : Runs cfg e.exec s r s') (hF : Filed s e r s')
    (hs : ¬ e.Signals s t) : s.gainedOwn s' t = 0 := by
  refine if_neg ?_
  rintro ⟨hw, hend, hdel, hok⟩
  have hk : (s.file t).pendOn = .taskSem := hw.2
  rcases H.ended_ok hw.1 he hx hF hend hdel hok with ⟨o, -, ht⟩ | hq | ⟨-, hs'⟩
  · have hacc := H.accepts ht
    rw [hk] at hacc
    cases hacc
  · rw [hk] at hq
    cases hq
  · exact hs hs'

theorem OS.balanceOwn_same (hf : s'.file t = s.file t) : (s.tcb t).semCtr = (s'.tcb t).semCtr + s.gainedOwn s' t := by
  rw [OS.gainedOwn_same hf]
  exact (congrArg File.semCtr hf :).symm

theorem Ready.balanceOwn_post {p : Option TcbId} {opt : Opt} (H : Ready cfg s a)
    (hx : Runs cfg (Event.call (.taskSemPost p opt)).exec s r s') : (s.tcb t).semCtr +
      Event.signals s r t (.call (.taskSemPost p opt)) = (s'.tcb t).semCtr + s.gainedOwn s' t := by
  have hpost : (∃ x, r = some x ∧ x.err ≠ .none) ∧ s'.file = s.file ∨ ∃ x, r = some x ∧
      (∀ t, s.Target p t → (x.err = .none ↔ (s.tcb t).TakesSignal)) ∧
      ∃ t, s.Target p t ∧ s'.file = Function.update s.file t ((s.file t).signalled s.tsNow) := by
    refine hx.wp (Q := fun r s' => (∃ x, r = some x ∧ x.err ≠ .none) ∧ s'.file = s.file ∨ ∃ x, r = some x ∧
      (∀ t, s.Target p t → (x.err = .none ↔ (s.tcb t).TakesSignal)) ∧
      ∃ t, s.Target p t ∧ s'.file = Function.update s.file t ((s.file t).signalled s.tsNow)) fun n => wp_always.mpr ?_
    rw [osTaskSemPost, wp_ite]
    refine ⟨fun _ => wp_pure.mpr (.inl ⟨⟨_, rfl, by simp⟩, rfl⟩), fun _ => ?_⟩
    rw [wp_bind, wp_tsGet]
    refine ((taskSemPost_answers p opt s.tsNow).and
      (taskSemPost_file (fun t d hd => H.rep.own H.sound t d hd) p opt s.tsNow)).mono ?_
    rintro x s' ⟨hans, hfile⟩
    exact .inr ⟨x, rfl, hans, hfile⟩
  rcases hpost with ⟨⟨x, rfl, hx0⟩, hf⟩ | ⟨x, rfl, hans, t', ht', hf⟩
  · have hsig : Event.signals s (some x) t (.call (.taskSemPost p opt)) = 0 :=
      if_neg fun h => hx0 (by simpa [granted] using h.2)
    rw [hsig]
    exact OS.balanceOwn_same (by rw [hf])
  · by_cases htt : t = t'
    · subst htt
      have hsig : Event.signals s (some x) t (.call (.taskSemPost p opt)) = if (s.tcb t).TakesSignal then 1 else 0 := by
        refine if_congr ?_ rfl rfl
        rw [← hans t ht']
        simp [ht', granted]
      rw [hsig]
      exact OS.signalled_balance (by rw [hf, Function.update_self])
    · have hsig : Event.signals s (some x) t (.call (.taskSemPost p opt)) = 0 := if_neg fun h => htt (h.1.unique ht')
      rw [hsig]
      exact OS.balanceOwn_same (by rw [hf, Function.update_of_ne htt])

theorem Ready.balanceOwn_tick (H : Ready cfg s a) (hx : Runs cfg Event.timeTick.exec s r s') :
    (s.tcb t).semCtr + Event.signals s r t .timeTick = (s'.tcb t).semCtr + s.gainedOwn s' t := by
  have hf : s'.file t = if t = tickTaskTCB ∨ t = tmrTaskTCB ∧ s.tmrUpdateCtr - 1 = 0 then
      (s.file t).signalled s.tsNow else s.file t := by
    refine hx.wp (Q := fun _ s' => s'.file t = if t = tickTaskTCB ∨ t = tmrTaskTCB ∧ s.tmrUpdateCtr - 1 = 0 then
      (s.file t).signalled s.tsNow else s.file t) fun n => wp_noAnswer.mpr ?_
    exact (osTimeTick_signals fun t d hd => H.rep.own H.sound t d hd).mono fun _ _ h' => h' t
  rw [Event.signals]
  by_cases ht : t = tickTaskTCB ∨ t = tmrTaskTCB ∧ s.tmrUpdateCtr - 1 = 0
  · rw [if_pos ht] at hf
    rw [if_congr (and_iff_right ht) rfl rfl]
    exact OS.signalled_balance hf
  · rw [if_neg ht] at hf
    rw [if_neg fun h => ht h.1]
    exact OS.balanceOwn_same hf

theorem Ready.balanceOwn_pend {timeout : Tick} {opt : Opt} (H : Ready cfg s a)
    (he : Enabled s (.call (.taskSemPend timeout opt))) (hx : Runs cfg (Event.call (.taskSemPend timeout opt)).exec s r s')
    (hF : Filed s (.call (.taskSemPend timeout opt)) r s') :
    (s.tcb t).semCtr = (s'.tcb t).semCtr + Event.takesOwn s r s' t (.call (.taskSemPend timeout opt)) := by
  have htakes := hx.wp fun n => osTaskSemPend_takes timeout opt
  rw [Event.takesOwn, H.gainedOwn_eq_zero he hx hF id, Nat.add_zero]
  split at htakes
  · rename_i hg
    obtain ⟨t', hcur, hpos, hf⟩ := htakes
    by_cases htt : t = t'
    · subst htt
      have hctr : (s'.tcb t).semCtr = (s.tcb t).semCtr - 1 := by
        change (s'.file t).semCtr = _
        rw [hf, Function.update_self]
        rfl
      have hpos' : 0 < (s.tcb t).semCtr := hpos
      rw [if_pos ⟨hcur, hg⟩, hctr]
      omega
    · have hctr : (s'.tcb t).semCtr = (s.tcb t).semCtr := by
        change (s'.file t).semCtr = _
        rw [hf, Function.update_of_ne htt]
        rfl
      rw [if_neg fun h => htt (Option.some.inj (h.1.symm.trans hcur)), hctr, Nat.add_zero]
  · rename_i hg
    have hctr : (s'.tcb t).semCtr = (s.tcb t).semCtr := htakes t
    rw [if_neg fun h => hg h.2, hctr, Nat.add_zero]

theorem osTaskSemSet_unset {p : Option TcbId} {cnt : ℕ} : wp n cfg (osTaskSemSet p cnt)
    (fun x s' => ¬ (s.Target p t ∧ x.err = .none) → s'.file t = s.file t) s := by
  rw [osTaskSemSet, wp_bind, wp_get, wp_ite]
  refine ⟨fun _ => wp_pure.mpr fun _ => rfl, fun _ => ?_⟩
  rw [wp_bind, wp_target]
  intro t' ht'
  rw [wp_bind, wp_getTcb, wp_bind]
  refine wp_modTcb_file fun s₁ h₁ => wp_pure.mpr fun hno => ?_
  rw [h₁, Function.update_of_ne]
  rintro rfl
  exact hno ⟨ht', rfl⟩

theorem Ready.balanceOwn (H : Ready cfg s a) (he : Enabled s e) (hx : Runs cfg e.exec s r s') (hF : Filed s e r s')
    (hr : e.restarts s r t = false) (hset : ¬ e.resetsOwn s r t) :
    (s.tcb t).semCtr + e.signals s r t = (s'.tcb t).semCtr + e.takesOwn s r s' t := by
  have htake {e : Event} (h : ∀ timeout opt, e ≠ .call (.taskSemPend timeout opt)) :
      e.takesOwn s r s' t = s.gainedOwn s' t := by
    unfold Event.takesOwn
    split
    · exact absurd rfl (h _ _)
    · exact Nat.zero_add _
  have hquiet (hc : e.countsOwn = false) : ¬ e.Signals s t ∧ e.signals s r t = 0 ∧ e.takesOwn s r s' t = s.gainedOwn s' t := by
    refine ⟨?_, ?_, htake ?_⟩
    · unfold Event.Signals
      split
      · cases hc
      · cases hc
      · exact id
    · unfold Event.signals
      split
      · cases hc
      · cases hc
      · rfl
    · rintro timeout opt rfl
      cases hc
  cases hc : e.countsOwn with
  | false =>
    have hctr : (s'.tcb t).semCtr = (s.tcb t).semCtr := by
      rcases hF t with hf | hc'
      · exact (congrArg File.semCtr hf :)
      · exact (hc'.semCtr_eq hc :)
    obtain ⟨h₁, h₂, h₃⟩ := hquiet hc
    rw [h₂, h₃, H.gainedOwn_eq_zero he hx hF h₁, hctr]
  | true =>
    unfold Event.countsOwn at hc
    split at hc
    · rw [htake (by simp)]
      exact H.balanceOwn_post hx
    · rw [htake (by simp)]
      exact H.balanceOwn_tick hx
    · exact H.balanceOwn_pend he hx hF
    · rename_i p cnt
      rw [htake (by simp)]
      refine OS.balanceOwn_same (hx.wp (Q := fun r s' => ¬ (s.Target p t ∧ granted r = true) → s'.file t = s.file t)
        (fun n => wp_always.mpr ?_) hset)
      exact osTaskSemSet_unset.mono fun x s' h' hno => h' fun h => hno ⟨h.1, by simp [granted, h.2]⟩
    · rename_i args
      rw [htake (by simp)]
      refine OS.balanceOwn_same (hx.wp (Q := fun r s' => ¬ (args.tcb = some t ∧ granted r = true) → s'.file t = s.file t)
        (fun n => wp_errOnly.mpr ?_) (of_decide_eq_false hr))
      exact (osTaskCreate_file args).mono fun x s' h' hno => h'.elim_not fun h => hno ⟨h.2, by simp [granted, h.1]⟩
    · rename_i p
      rw [htake (by simp)]
      refine OS.balanceOwn_same (hx.wp (Q := fun r s' => ¬ (s.Target p t ∧ granted r = true) → s'.file t = s.file t)
        (fun n => wp_errOnly.mpr ?_) (of_decide_eq_false hr))
      exact (osTaskDel_file p).mono fun x s' h' hno => h'.elim_not fun h => hno ⟨h.2, by simp [granted, h.1]⟩
    · cases hc

end own

end UcosIII
