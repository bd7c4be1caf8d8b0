import UcosIII.Runs.MutexOwner

namespace UcosIII

open Prog

section steps

def Takes (t : TcbId) (o : ObjId) (x : Step) : Prop :=
  x.pre.tcbCurPtr = some t ∧
    ((∃ timeout opt r, x.event = .call (.mutexPend (some o) timeout opt) ∧ x.ret = some r ∧
      (r.err = .none ∨ r.err = .mutexOwner)) ∨
    x.event = .finish ∧ x.pre.cont t = .mutexPend o ∧ ∃ r, x.ret = some r ∧ r.err = .none)

def Gives (t : TcbId) (o : ObjId) (x : Step) : Prop :=
  x.pre.tcbCurPtr = some t ∧
    ∃ opt r, x.event = .call (.mutexPost (some o) opt) ∧ x.ret = some r ∧ (r.err = .none ∨ r.err = .mutexNesting)

instance (t : TcbId) (o : ObjId) (x : Step) : Decidable (Takes t o x) :=
  decidable_of_iff (x.pre.tcbCurPtr = some t ∧ (match x.event, x.ret with
    | .call (.mutexPend (some o') _ _), some r => decide (o' = o ∧ (r.err = .none ∨ r.err = .mutexOwner))
    | .finish, some r => decide (x.pre.cont t = .mutexPend o ∧ r.err = .none)
    | _, _ => false) = true) (by
    unfold Takes
    apply and_congr_right
    intro _
    split
    · simp_all
    · simp_all
    · grind)

instance (t : TcbId) (o : ObjId) (x : Step) : Decidable (Gives t o x) :=
  decidable_of_iff (x.pre.tcbCurPtr = some t ∧ (match x.event, x.ret with
    | .call (.mutexPost (some o') _), some r => decide (o' = o ∧ (r.err = .none ∨ r.err = .mutexNesting))
    | _, _ => false) = true) (by
    unfold Gives
    apply and_congr_right
    intro _
    split
    · simp_all
    · grind)

def balance (t : TcbId) (o : ObjId) : List Step → ℤ
  | [] => 0
  | x :: h => balance t o h + (if Takes t o x then 1 else 0) - if Gives t o x then 1 else 0

end steps

variable {cfg : Cfg} {s s' : OS} {a a' b : Abs} {h : List Step} {t w : TcbId} {o : ObjId} {d : PdId} {e : Event}
  {r : Option Ret} {E : Env} {S : Act → Prop}

section ledger

def Granted (h : List Step) (k : Cont) (t : TcbId) (o : ObjId) : Prop := k = .mutexPend o ∧ MadeOwner t o h

open Classical in
structure Abs.Ledger (h : List Step) (a : Abs) : Prop where
  count : ∀ t o, (if (a.obj o).owner = some t then ((a.obj o).nesting.toNat : ℤ) else 0) =
    balance t o h + if Granted h (a.cont t) t o then 1 else 0
  granted : ∀ t o, Granted h (a.cont t) t o → (a.obj o).owner = some t
  other : ∀ o, (a.obj o).type ≠ .mutex → (a.obj o).owner = none
  waits : ∀ t, (a.task t).pendOn = .mutex → ∃ o, a.cont t = .mutexPend o

theorem Takes.counts (hT : Takes t o ⟨s, e, r⟩) : Counts e r := by
  obtain ⟨-, ⟨timeout, opt, x, he, hr, hx⟩ | ⟨he, -⟩⟩ := hT
  · dsimp only at he hr
    rw [he, hr]
    exact hx
  · dsimp only at he
    rw [he]
    trivial

theorem Gives.counts (hG : Gives t o ⟨s, e, r⟩) : Counts e r := by
  obtain ⟨-, opt, x, he, hr, hx⟩ := hG
  dsimp only at he hr
  rw [he, hr]
  exact hx

def OffLedger (x : Step) : Prop := ∀ t o, ¬ Takes t o x ∧ ¬ Gives t o x ∧ ¬ HandsTo t o x

theorem OffLedger.of_counts (hc : ¬ Counts e r) : OffLedger ⟨s, e, r⟩ :=
  fun _ _ => ⟨fun hT => hc hT.counts, fun hG => hc hG.counts, fun hh => hc hh.counts⟩

def Event.onMutex : Event → Bool
  | .call (.mutexPend ..) | .call (.mutexPost ..) | .finish => true
  | _ => false

theorem OffLedger.of_event (he : e.onMutex = false) : OffLedger ⟨s, e, r⟩ := by
  intro t o
  refine ⟨?_, ?_, ?_⟩
  · rintro ⟨-, ⟨_, _, _, rfl, _⟩ | ⟨rfl, -⟩⟩ <;> cases he
  · rintro ⟨-, _, _, rfl, _⟩
    cases he
  · rintro ⟨_, _, rfl, _⟩
    cases he

theorem Abs.Acts.pendOn_mutex (hacts : a.Acts E S b) (hk : (b.task t).pendOn = .mutex) : (a.task t).pendOn = .mutex := by
  induction hacts with
  | refl => exact hk
  | @snoc b x hacts _ hv _ ih =>
    apply ih
    cases x with
    | wake w st => grind [Act.apply, Abs.task_wake]
    | flagWake w => grind [Act.apply, Abs.task_flagWake]
    | expire w => grind [Act.apply, Abs.task_expire]
    | suspend w => grind [Act.apply, Abs.task_suspend]
    | resume w => grind [Act.apply, Abs.task_resume]
    | pendOn w o kind timed =>
      have hne : kind ≠ .mutex := hv.2.2.1
      grind [Act.apply, Abs.task_pendOn]
    | pendMulti w timed ds =>
      rw [Act.apply, Abs.foldl_attach_task, Abs.task_block] at hk
      split at hk
      · cases hk
      · exact hk
    | delay w => grind [Act.apply, Abs.task_delay]
    | flagsOpt w opt => grind [Act.apply]
    | pendStatus w st => grind [Act.apply]
    | rotate | store => exact hk

theorem Ready.madeOwner_cons (H : Ready cfg s a) (he : Enabled s e) (hk : a.cont t = .mutexPend o)
    (hh : ¬ HandsTo t o ⟨s, e, r⟩) : MadeOwner t o (⟨s, e, r⟩ :: h) ↔ MadeOwner t o h := by
  have hb : ¬ BlocksOn t o ⟨s, e, r⟩ := H.not_blocksOn he (by simp [hk])
  rw [MadeOwner, and_iff_right hb, or_iff_right hh]

theorem balance_cons (x : Step) (hT : ¬ Takes t o x) (hG : ¬ Gives t o x) : balance t o (x :: h) = balance t o h := by
  rw [balance, if_neg hT, if_neg hG]
  omega

namespace Abs

open Classical in
theorem Ledger.of_granted {x : Step} (hL : a.Ledger h) (hobj : b.obj = a.obj)
    (hgr : ∀ t o, Granted (x :: h) (b.cont t) t o ↔ Granted h (a.cont t) t o)
    (hw : ∀ t, (b.task t).pendOn = .mutex → ∃ o, b.cont t = .mutexPend o) (hoff : OffLedger x) : b.Ledger (x :: h) := by
  refine ⟨fun t o => ?_, fun t o hg => ?_, fun o ho => ?_, hw⟩
  · rw [balance_cons _ (hoff t o).1 (hoff t o).2.1, hobj, if_congr (hgr t o) rfl rfl]
    exact hL.count t o
  · rw [hobj]
    exact hL.granted t o ((hgr t o).mp hg)
  · rw [hobj] at ho ⊢
    exact hL.other o ho

theorem Ledger.keep (hL : a.Ledger h) (H : Ready cfg s a) (he : Enabled s e) (hobj : b.obj = a.obj)
    (hcont : ∀ t o, b.cont t = .mutexPend o ↔ a.cont t = .mutexPend o)
    (hw : ∀ t, (b.task t).pendOn = .mutex → (a.task t).pendOn = .mutex) (hoff : OffLedger ⟨s, e, r⟩) :
    b.Ledger (⟨s, e, r⟩ :: h) := by
  refine hL.of_granted hobj (fun t o => ?_) (fun t ht => ?_) hoff
  · unfold Granted
    rw [hcont]
    apply and_congr_right
    intro hk
    exact H.madeOwner_cons he hk (hoff t o).2.2
  · obtain ⟨o, hk⟩ := hL.waits t (hw t ht)
    exact ⟨o, (hcont t o).mpr hk⟩

open Classical in
theorem Ledger.modObj {f : Sync → Sync} (hL : a.Ledger h) (H : Ready cfg s a) (he : Enabled s e) (hnone : a.cont t = .none)
    (hf : (f (a.obj o)).type = .mutex) (hb : ∀ w, (a.obj o).owner = some w → w = t)
    (ha : ∀ w, (f (a.obj o)).owner = some w → w = t) (hh : ∀ t o, ¬ HandsTo t o ⟨s, e, r⟩)
    (honly : ∀ t' o', Takes t' o' ⟨s, e, r⟩ ∨ Gives t' o' ⟨s, e, r⟩ → t' = t ∧ o' = o)
    (hcount : (if (f (a.obj o)).owner = some t then ((f (a.obj o)).nesting.toNat : ℤ) else 0) =
      (if (a.obj o).owner = some t then ((a.obj o).nesting.toNat : ℤ) else 0) +
        (balance t o (⟨s, e, r⟩ :: h) - balance t o h)) : (a.modObj o f).Ledger (⟨s, e, r⟩ :: h) := by
  have hgr : ∀ t' o', Granted (⟨s, e, r⟩ :: h) (a.cont t') t' o' ↔ Granted h (a.cont t') t' o' := by
    intro t' o'
    unfold Granted
    apply and_congr_right
    intro hk
    exact H.madeOwner_cons he hk (hh t' o')
  have hno : ∀ o', ¬ Granted h (a.cont t) t o' := by
    rintro o' ⟨hk, -⟩
    rw [hnone] at hk
    cases hk
  refine ⟨fun t' o' => ?_, fun t' o' hg => ?_, fun o' ho' => ?_, hL.waits⟩
  · change _ = _ + if Granted (⟨s, e, r⟩ :: h) (a.cont t') t' o' then 1 else 0
    have hcnt := hL.count t' o'
    rw [obj_modObj, if_congr (hgr t' o') rfl rfl]
    by_cases ht : t' = t
    · subst ht
      rw [if_neg (hno o')] at hcnt ⊢
      split
      · rename_i ho
        subst ho
        omega
      · rename_i ho
        rw [balance_cons]
        · exact hcnt
        · exact fun h => ho (honly _ _ (.inl h)).2
        · exact fun h => ho (honly _ _ (.inr h)).2
    · have hbal : balance t' o' (⟨s, e, r⟩ :: h) = balance t' o' h := by
        apply balance_cons
        · exact fun h => ht (honly _ _ (.inl h)).1
        · exact fun h => ht (honly _ _ (.inr h)).1
      rw [hbal]
      split
      · rename_i ho
        subst ho
        rw [if_neg fun h => ht (hb t' h)] at hcnt
        rw [if_neg fun h => ht (ha t' h)]
        exact hcnt
      · exact hcnt
  · have hg' := (hgr t' o').mp hg
    have hown := hL.granted t' o' hg'
    rw [obj_modObj]
    split
    · rename_i ho
      subst ho
      have := hb t' hown
      subst this
      exact absurd hg' (hno o')
    · exact hown
  · rw [obj_modObj] at ho' ⊢
    split at ho'
    · exact absurd hf ho'
    · rename_i ho
      rw [if_neg ho]
      exact hL.other o' ho'

theorem Ledger.sched (hL : a.Ledger h) (hs : a.Sched a') : a'.Ledger h := by
  obtain ⟨-, rfl⟩ | ⟨-, rfl⟩ | ⟨-, -, p, t, -, rfl⟩ := hs
  · exact hL
  · exact hL
  · exact ⟨hL.count, hL.granted, hL.other, hL.waits⟩

theorem Ledger.acts (hL : a.Ledger h) (H : Ready cfg s a) (he : Enabled s e) (hc : ¬ Counts e r)
    (hacts : a.Acts (env s e r) S b) : b.Ledger (⟨s, e, r⟩ :: h) := by
  apply hL.keep H he hacts.obj
  · intro t o
    rw [hacts.cont]
  · intro t
    exact hacts.pendOn_mutex
  · exact .of_counts hc

end Abs

theorem notHands_pend {p : Option ObjId} {timeout : Tick} {opt : Opt} (t : TcbId) (o : ObjId) :
    ¬ HandsTo t o ⟨s, .call (.mutexPend p timeout opt), r⟩ := by
  rintro ⟨_, _, h, _⟩
  cases h

theorem notGives_pend {p : Option ObjId} {timeout : Tick} {opt : Opt} :
    ¬ Gives t o ⟨s, .call (.mutexPend p timeout opt), r⟩ := by
  rintro ⟨-, _, _, h, _⟩
  cases h

theorem notTakes_post {p : Option ObjId} {opt : Opt} : ¬ Takes t o ⟨s, .call (.mutexPost p opt), r⟩ := by
  rintro ⟨-, ⟨_, _, _, h, _⟩ | ⟨h, -⟩⟩ <;> cases h

theorem Ready.onLedger_pend {t' : TcbId} {o' : ObjId} {timeout : Tick} {opt : Opt} (H : Ready cfg s a) (hcur : a.cur = some t)
    (hx : Takes t' o' ⟨s, .call (.mutexPend (some o) timeout opt), r⟩ ∨
      Gives t' o' ⟨s, .call (.mutexPend (some o) timeout opt), r⟩) : t' = t ∧ o' = o := by
  rcases hx with ⟨hcur', ⟨_, _, _, h, _⟩ | ⟨h, -⟩⟩ | hG
  · dsimp only at hcur'
    rw [← H.rep.cur, hcur] at hcur'
    cases h
    exact ⟨(Option.some_inj.mp hcur').symm, rfl⟩
  · cases h
  · exact absurd hG notGives_pend

theorem Ready.onLedger_post {t' : TcbId} {o' : ObjId} {opt : Opt} (H : Ready cfg s a) (hcur : a.cur = some t)
    (hx : Takes t' o' ⟨s, .call (.mutexPost (some o) opt), r⟩ ∨ Gives t' o' ⟨s, .call (.mutexPost (some o) opt), r⟩) :
    t' = t ∧ o' = o := by
  rcases hx with hT | ⟨hcur', _, _, h, _⟩
  · exact absurd hT notTakes_post
  · dsimp only at hcur'
    rw [← H.rep.cur, hcur] at hcur'
    cases h
    exact ⟨(Option.some_inj.mp hcur').symm, rfl⟩

theorem Call.creates_offMutex {c : Call} {x : ObjId × ObjType} (hc : c.creates = some x) :
    (Event.call c).onMutex = false := by
  cases c <;> first | rfl | cases hc

theorem KeepsMutexes.creates {c : Call} (hkeep : KeepsMutexes s (.call c)) (hc : c.creates = some (o, .mutex)) :
    (s.obj o).type ≠ .mutex := by
  cases c with
  | mutexCreate p =>
    simp only [Call.creates, Option.map_eq_some_iff, Prod.mk.injEq, and_true, exists_eq_right] at hc
    subst hc
    exact hkeep
  | semCreate p | qCreate p | flagCreate p => cases p <;> simp [Call.creates] at hc
  | _ => cases hc

theorem Abs.Ledger.create {k : ObjType} (hL : a.Ledger h) (hnone : (a.obj o).owner = none) :
    (a.modObj o (Sync.create cfg k)).Ledger h := by
  have hnone' : (Sync.create cfg k (a.obj o)).owner = none := by
    unfold Sync.create
    split
    · rfl
    · exact hnone
  refine ⟨fun t' o' => ?_, fun t' o' hg => ?_, fun o' ho' => ?_, hL.waits⟩
  · have hcnt := hL.count t' o'
    rw [Abs.obj_modObj]
    split
    · rename_i ho
      subst ho
      rw [if_neg (by simp [hnone])] at hcnt
      rw [if_neg (by simp [hnone'])]
      exact hcnt
    · exact hcnt
  · have hown := hL.granted t' o' hg
    rw [Abs.obj_modObj]
    split
    · rename_i ho
      rw [ho, hnone] at hown
      cases hown
    · exact hown
  · rw [Abs.obj_modObj] at ho' ⊢
    split
    · exact hnone'
    · rename_i ho
      rw [if_neg ho] at ho'
      exact hL.other o' ho'

open Classical in
theorem Abs.Ledger.mutexReturn {x : Ret} (hL : a.Ledger h) (H : Ready cfg s a) (he : Enabled s .finish) (hP : a.PendsOk h)
    (hcur : a.cur = some t) (hk : a.cont t = .mutexPend o) (hr : x.err = (a.task t).pendStatus.mutexErr) :
    (a.setCont t .none).Ledger (⟨s, .finish, some x⟩ :: h) := by
  have hstep : AStep cfg s a .finish (some x) (a.setCont t .none) := .mutexReturn hcur hk hr
  obtain ⟨_, hx, hnone, -⟩ := hstep.pendReturns H hP hcur hk
  cases hx
  have hcur' : s.tcbCurPtr = some t := H.rep.cur.symm.trans hcur
  have hcont : s.cont t = .mutexPend o := by rw [← H.rep.cont, hk]
  have hT : ∀ t' o', Takes t' o' ⟨s, .finish, some x⟩ ↔ t' = t ∧ o' = o ∧ MadeOwner t o h := by
    intro t' o'
    constructor
    · rintro ⟨hc, ⟨_, _, _, h, _⟩ | ⟨-, hk', _, hx, hxn⟩⟩
      · cases h
      · cases hx
        dsimp only at hc hk'
        rw [hcur'] at hc
        cases hc
        rw [hcont] at hk'
        cases hk'
        exact ⟨rfl, rfl, hnone.mp hxn⟩
    · rintro ⟨rfl, rfl, hmade⟩
      exact ⟨hcur', .inr ⟨rfl, hcont, x, rfl, hnone.mpr hmade⟩⟩
  have hG : ∀ t' o', ¬ Gives t' o' ⟨s, .finish, some x⟩ := by
    rintro t' o' ⟨-, _, _, h, _⟩
    cases h
  have hh : ∀ t' o', ¬ HandsTo t' o' ⟨s, .finish, some x⟩ := by
    rintro t' o' ⟨_, _, h, _⟩
    cases h
  have hgr : ∀ t' o', Granted (⟨s, .finish, some x⟩ :: h) ((a.setCont t .none).cont t') t' o' ↔
      t' ≠ t ∧ Granted h (a.cont t') t' o' := by
    intro t' o'
    rw [cont_setCont]
    split
    · rename_i ht
      simp [Granted, ht]
    · rename_i ht
      rw [and_iff_right ht]
      apply and_congr_right
      intro hk'
      exact H.madeOwner_cons he hk' (hh t' o')
  refine ⟨fun t' o' => ?_, fun t' o' hg => ?_, hL.other, fun t' ht' => ?_⟩
  · have hcnt := hL.count t' o'
    change (if (a.obj o').owner = some t' then ((a.obj o').nesting.toNat : ℤ) else 0) = _
    rw [hcnt, balance, if_neg (hG t' o'), if_congr (hT t' o') rfl rfl, if_congr (hgr t' o') rfl rfl]
    by_cases ht : t' = t
    · subst ht
      have h0 : ¬ (t' ≠ t' ∧ Granted h (a.cont t') t' o') := fun hg => hg.1 rfl
      have hg : Granted h (a.cont t') t' o' ↔ t' = t' ∧ o' = o ∧ MadeOwner t' o h := by
        rw [Granted, hk]
        constructor
        · rintro ⟨hoo, hmade⟩
          cases hoo
          exact ⟨rfl, rfl, hmade⟩
        · rintro ⟨-, rfl, hmade⟩
          exact ⟨rfl, hmade⟩
      rw [if_neg h0, if_congr hg rfl rfl]
      omega
    · have h0 : ¬ (t' = t ∧ o' = o ∧ MadeOwner t o h) := fun hg => ht hg.1
      rw [if_neg h0, if_congr (and_iff_right ht) rfl rfl]
      omega
  · exact hL.granted t' o' ((hgr t' o').mp hg).2
  · obtain ⟨o', hk'⟩ := hL.waits t' ht'
    refine ⟨o', ?_⟩
    rw [cont_setCont, if_neg]
    · exact hk'
    · -- the running task does not wait
      rintro rfl
      have htab := (H.sound.wait.table_iff t').mpr (by rw [show (a.task t').pendOn = .mutex from ht']; rfl)
      obtain ⟨d, hd⟩ := List.exists_mem_of_ne_nil _ htab
      obtain ⟨o'', -, hmem⟩ := H.sound.wait.linked d hd
      exact H.cur.not_waiting H.sound hcur o'' hmem (H.sound.wait.own t' d hd).1

open Classical in
theorem Abs.Ledger.handOff {opt : Opt} (hL : a.Ledger h) (H : Ready cfg s a)
    (he : Enabled s (.call (.mutexPost (some o) opt))) (hP : a.PendsOk h) (hcur : a.cur = some t) (hint : a.intNesting = 0)
    (hm : (a.obj o).type = .mutex) (ho : (a.obj o).owner = some t) (hz : (a.obj o).nesting - 1 = 0)
    (hw : (a.waiting o).head? = some d) : ((a.restore t (a.obj o).ownerPrio).handOff o d.1).Ledger
      (⟨s, .call (.mutexPost (some o) opt), some { err := .none }⟩ :: h) := by
  have hd : d ∈ a.waiting o := List.mem_of_mem_head? hw
  have hnone := H.cont_cur he ⟨_, rfl⟩ hint hcur
  have hdt : d.1 ≠ t := H.cur.not_waiting H.sound hcur o hd
  obtain ⟨hk, hnot⟩ : a.cont d.1 = .mutexPend o ∧ ¬ MadeOwner d.1 o h := by
    obtain ⟨o', hk⟩ := hL.waits d.1 (H.sound.pendOn_mutex hm hd)
    rcases hP d.1 o' hk with ⟨hmx, hent, hn⟩ | ⟨hnp, -⟩
    · obtain ⟨htab, hobj⟩ := (H.sound.wait.mem_iff o d).mp hd
      rw [← H.sound.wait.single d.1 (by simp [hmx]) d htab, hobj] at hent
      cases hent
      exact ⟨hk, hn⟩
    · rw [H.sound.wait.isPend hd] at hnp
      cases hnp
  have hat : s.pendAt o 0 = some d := by rw [H.rep.pendAt_eq, ← List.head?_eq_getElem?, hw]
  have hh : ∀ t' o', HandsTo t' o' ⟨s, .call (.mutexPost (some o) opt), some { err := .none }⟩ ↔ t' = d.1 ∧ o' = o := by
    intro t' o'
    constructor
    · rintro ⟨_, _, h, -, -, x, hx, hxt⟩
      cases h
      dsimp only at hx hxt
      rw [hat] at hx
      cases hx
      rw [H.rep.tcbPtr H.sound hd] at hxt
      exact ⟨(Option.some_inj.mp hxt).symm, rfl⟩
    · rintro ⟨rfl, rfl⟩
      exact ⟨opt, _, rfl, rfl, rfl, d, hat, H.rep.tcbPtr H.sound hd⟩
  have hcont : ((a.restore t (a.obj o).ownerPrio).handOff o d.1).cont = a.cont := by
    rw [Abs.handOff, cont_wake]
    exact cont_restore a t _
  have hgr : ∀ t' o', Granted (⟨s, .call (.mutexPost (some o) opt), some { err := .none }⟩ :: h) (a.cont t') t' o' ↔
      t' = d.1 ∧ o' = o ∨ Granted h (a.cont t') t' o' := by
    intro t' o'
    by_cases hx : t' = d.1 ∧ o' = o
    · obtain ⟨rfl, rfl⟩ := hx
      simp only [true_and, true_or, iff_true]
      exact ⟨hk, .inl ((hh _ _).mpr ⟨rfl, rfl⟩)⟩
    · rw [or_iff_right hx]
      apply and_congr_right
      intro hk'
      exact H.madeOwner_cons he hk' (mt (hh t' o').mp hx)
  have hG : ∀ t' o', Gives t' o' ⟨s, .call (.mutexPost (some o) opt), some { err := .none }⟩ ↔ t' = t ∧ o' = o := by
    intro t' o'
    constructor
    · intro hG
      exact H.onLedger_post hcur (.inr hG)
    · rintro ⟨rfl, rfl⟩
      exact ⟨H.rep.cur.symm.trans hcur, opt, _, rfl, rfl, .inl rfl⟩
  have hone : (a.obj o).nesting.toNat = 1 := by bv_omega
  refine ⟨fun t' o' => ?_, fun t' o' hg => ?_, fun o' ho' => ?_, fun t' ht' => ?_⟩
  · have hcnt := hL.count t' o'
    rw [hcont, obj_handOff, balance, if_neg notTakes_post, if_congr (hG t' o') rfl rfl, if_congr (hgr t' o') rfl rfl,
      obj_restore]
    by_cases hoo : o' = o
    · subst hoo
      rw [if_pos rfl]
      by_cases htd : t' = d.1
      · -- the new owner
        subst htd
        have hng : ¬ Granted h (a.cont d.1) d.1 o' := fun hg => hnot hg.2
        rw [ho, if_neg (by simpa using hdt.symm), if_neg hng] at hcnt
        have h1 : ((1 : BitVec 8).toNat : ℤ) = 1 := rfl
        rw [if_pos rfl, if_neg fun h => hdt h.1, if_pos (.inl ⟨rfl, rfl⟩), h1]
        omega
      · have hne : ¬ (t' = d.1 ∧ o' = o') := fun h => htd h.1
        rw [if_neg (by simpa using Ne.symm htd), if_congr (or_iff_right hne) rfl rfl]
        by_cases htt : t' = t
        · -- the task that gives the mutex back
          subst htt
          have hng : ¬ Granted h (a.cont t') t' o' := by
            rintro ⟨hk', -⟩
            rw [hnone] at hk'
            cases hk'
          rw [if_pos ho, if_neg hng, hone] at hcnt
          rw [if_pos ⟨rfl, rfl⟩, if_neg hng]
          omega
        · rw [ho, if_neg (by simpa using Ne.symm htt)] at hcnt
          rw [if_neg fun h => htt h.1]
          omega
    · have hng : ¬ (t' = t ∧ o' = o) := fun h => hoo h.2
      have hne : ¬ (t' = d.1 ∧ o' = o) := fun h => hoo h.2
      rw [if_neg hoo, if_neg hng, if_congr (or_iff_right hne) rfl rfl]
      omega
  · rw [hcont, hgr] at hg
    rw [obj_handOff, obj_restore]
    rcases hg with ⟨rfl, rfl⟩ | hg
    · rw [if_pos rfl]
    · have hown := hL.granted t' o' hg
      split
      · rename_i hoo
        rw [hoo, ho] at hown
        cases hown
        rw [hnone] at hg
        cases hg.1
      · exact hown
  · rw [obj_handOff, obj_restore] at ho' ⊢
    split at ho'
    · exact absurd hm ho'
    · rename_i hoo
      rw [if_neg hoo]
      exact hL.other o' ho'
  · rw [hcont]
    rw [task_handOff] at ht'
    have htask := a.task_restore t t' (a.obj o).ownerPrio
    have hpend := H.sound.wait.pendOn_iff d.1
    have htask' := a.task_restore t d.1 (a.obj o).ownerPrio
    apply hL.waits t'
    split at ht'
    · have := H.sound.wait.isPend hd
      grind
    · grind

theorem AStep.ledger (hstep : AStep cfg s a e r a') (H : Ready cfg s a) (he : Enabled s e) (hp : ¬ PassedMatch cfg s e)
    (hn : ¬ NestsDeeper s e) (hkeep : KeepsMutexes s e) (hM : a.MutexOk) (hP : a.PendsOk h) (hL : a.Ledger h) :
    a'.Ledger (⟨s, e, r⟩ :: h) := by
  cases hstep with
  | still hc hacts => exact hL.acts H he hc hacts
  | acts hc hacts => exact hL.acts H he hc hacts
  | sched hc _ hacts hs => exact (hL.acts H he hc hacts).sched hs
  | @leave _ t k b _ hc hcur hint hk hacts hs hcall =>
    apply Abs.Ledger.sched _ hs
    have hnone := H.cont_cur he hcall hint hcur
    refine hL.keep H he ?_ (fun t' o => ?_) (fun t' => ?_) (.of_counts hc)
    · exact hacts.obj
    · rw [Abs.cont_setCont, hacts.cont]
      split
      · rename_i ht
        simp [hk o, ht, hnone]
      · rfl
    · exact hacts.pendOn_mutex
  | @finish t _ _ hcur hk hacts =>
    refine hL.keep H he ?_ (fun t' o => ?_) (fun t' => ?_) fun t' o => ⟨?_, ?_, ?_⟩
    · exact hacts.obj
    · rw [hacts.cont, Abs.cont_setCont]
      split
      · rename_i ht
        simp [hk o, ht]
      · rfl
    · exact hacts.pendOn_mutex
    · rintro ⟨hcur', ⟨_, _, _, h, _⟩ | ⟨-, hk', -⟩⟩
      · cases h
      · dsimp only at hcur' hk'
        rw [← H.rep.cur, hcur] at hcur'
        cases hcur'
        rw [← H.rep.cont] at hk'
        exact hk o hk'
    · rintro ⟨-, _, _, h, _⟩
      cases h
    · rintro ⟨_, _, h, _⟩
      cases h
  | @mutexReturn t o x hcur hk hr => exact hL.mutexReturn H he hP hcur hk hr
  | lock | intEnter | start =>
    refine hL.keep H he ?_ (fun _ _ => ?_) (fun _ => ?_) (.of_event rfl)
    · rfl
    · rfl
    · exact id
  | @create args t _ ht hd _ _ hs =>
    have hL' : (a.start t args.prio).Ledger (⟨s, .call (.taskCreate args), some { err := .none }⟩ :: h) := by
      refine hL.keep H he ?_ (fun _ _ => ?_) (fun t' ht' => ?_) (.of_event rfl)
      · rfl
      · rfl
      · rw [Abs.task_start] at ht'
        split at ht'
        · cases ht'
        · exact ht'
    split at hs
    · exact hL'.sched hs
    · rwa [hs]
  | delete => exact hkeep.elim
  | @changePrio p q t _ _ _ _ _ _ hs =>
    apply Abs.Ledger.sched _ hs
    refine hL.keep H he ?_ (fun t' o => ?_) (fun t' ht' => ?_) (.of_event rfl)
    · exact a.obj_reprio t q _
    · rw [Abs.cont_reprio]
    · rw [Abs.task_reprio H.sound.wait] at ht'
      split at ht'
      · rename_i htt
        rw [htt.1]
        exact ht'
      · exact ht'
  | refuse _ _ _ h => exact absurd h hp
  | @object c r o k hc hw =>
    have hnone : (a.obj o).owner = none := by
      apply hL.other
      intro hm
      have hfair := he.1.2 (o, k) hc
      rw [H.rep.type, hm] at hfair
      simp only [reduceCtorEq, false_or] at hfair
      rw [← hfair.1] at hc
      exact (hkeep.creates hc) (by rw [H.rep.type, hm])
    exact (hL.keep (b := a) H he rfl (fun _ _ => Iff.rfl) (fun _ => id) (.of_event (Call.creates_offMutex hc))).create hnone
  | @take o t timeout opt x hcur hm hz hr hint =>
    have hnone : (a.obj o).owner = none := by
      by_contra hne
      exact (hM o hm).owned.mp hne hz
    have hT : Takes t o ⟨s, .call (.mutexPend (some o) timeout opt), some x⟩ :=
      ⟨H.rep.cur.symm.trans hcur, .inl ⟨timeout, opt, x, rfl, rfl, .inl hr⟩⟩
    apply hL.modObj H he (H.cont_cur he ⟨_, rfl⟩ hint hcur) hm
    · simp [hnone]
    · intro w hw
      exact (Option.some_inj.mp hw).symm
    · exact notHands_pend
    · exact fun t' o' => H.onLedger_pend hcur
    · rw [balance, if_pos hT, if_neg notGives_pend, if_pos rfl, if_neg (by simp [hnone])]
      have h1 : ((1 : BitVec 8).toNat : ℤ) = 1 := rfl
      rw [h1]
      omega
  | @nest o t timeout opt x hcur hm hz ho hint hopt hr =>
    have hT : Takes t o ⟨s, .call (.mutexPend (some o) timeout opt), some x⟩ :=
      ⟨H.rep.cur.symm.trans hcur, .inl ⟨timeout, opt, x, rfl, rfl, .inr hr⟩⟩
    have hne := H.nesting_ne hn hcur hm ho hint hopt
    apply hL.modObj H he (H.cont_cur he ⟨_, rfl⟩ hint hcur) hm
    · simp [ho]
    · simp [ho]
    · exact notHands_pend
    · exact fun t' o' => H.onLedger_pend hcur
    · rw [balance, if_pos hT, if_neg notGives_pend, if_pos ho, if_pos ho]
      have : ((a.obj o).nesting + 1).toNat = (a.obj o).nesting.toNat + 1 := by bv_omega
      rw [this]
      push_cast
      omega
  | @unnest o t opt hcur hm ho hz hint =>
    have hG : Gives t o ⟨s, .call (.mutexPost (some o) opt), some { err := .mutexNesting }⟩ :=
      ⟨H.rep.cur.symm.trans hcur, opt, _, rfl, rfl, .inr rfl⟩
    have hne : (a.obj o).nesting ≠ 0 := (hM o hm).owned.mp (by simp [ho])
    apply hL.modObj H he (H.cont_cur he ⟨_, rfl⟩ hint hcur) hm
    · simp [ho]
    · simp [ho]
    · rintro t' o' ⟨_, _, _, h, hx, _⟩
      cases h
      cases hx
    · exact fun t' o' => H.onLedger_post hcur
    · rw [balance, if_neg notTakes_post, if_pos hG, if_pos ho, if_pos ho]
      have : (a.obj o).nesting.toNat = ((a.obj o).nesting - 1).toNat + 1 := by bv_omega
      rw [this]
      push_cast
      omega
  | @release o t opt hcur hm ho hz hw hint =>
    have hG : Gives t o ⟨s, .call (.mutexPost (some o) opt), some { err := .none }⟩ :=
      ⟨H.rep.cur.symm.trans hcur, opt, _, rfl, rfl, .inl rfl⟩
    have hone : (a.obj o).nesting = 1 := by bv_omega
    apply hL.modObj H he (H.cont_cur he ⟨_, rfl⟩ hint hcur) hm
    · simp [ho]
    · simp
    · rintro t' o' ⟨_, _, h, -, -, d, hd, -⟩
      cases h
      have hd' : s.pendAt o 0 = some d := hd
      rw [H.rep.pendAt_eq, hw] at hd'
      cases hd'
    · exact fun t' o' => H.onLedger_post hcur
    · rw [balance, if_neg notTakes_post, if_pos hG, if_pos ho, if_neg (by simp), hone]
      have h1 : ((1 : BitVec 8).toNat : ℤ) = 1 := rfl
      rw [h1]
      omega
  | @wait o t w timed timeout opt b _ hstop hm hz ho hne hb _ hs =>
    apply Abs.Ledger.sched _ hs
    have hnone := H.cont_cur he ⟨_, rfl⟩ hstop.2.2.1 hstop.1
    have hbc : b.cont = a.cont := by
      split at hb
      · rw [hb.2, Abs.cont_boost]
      · rw [hb]
    have hoff : OffLedger ⟨s, .call (.mutexPend (some o) timeout opt), none⟩ := by
      refine fun t' o' => ⟨?_, notGives_pend, notHands_pend t' o'⟩
      rintro ⟨-, ⟨_, _, _, -, h, _⟩ | ⟨h, -⟩⟩ <;> cases h
    refine hL.of_granted ?_ (fun t' o' => ?_) (fun t' ht' => ?_) hoff
    · have hobj : (b.pendOn t (some o) .mutex timed).obj = b.obj := Abs.attach_obj _
      split at hb
      · rw [hb.2, Abs.obj_boost] at hobj
        rw [hb.2]
        exact hobj
      · rw [hb] at hobj ⊢
        exact hobj
    · rw [Abs.cont_setCont]
      split
      · -- the task that waits now has not been granted the mutex
        rename_i ht
        subst ht
        have hblocks : BlocksOn t' o ⟨s, .call (.mutexPend (some o) timeout opt), none⟩ :=
          ⟨timeout, opt, rfl, rfl, H.rep.cur.symm.trans hstop.1, H.rep.intNesting.symm.trans hstop.2.2.1⟩
        apply iff_of_false
        · rintro ⟨hk, hmade⟩
          cases hk
          rcases hmade with hh | ⟨hb', -⟩
          · exact notHands_pend _ _ hh
          · exact hb' hblocks
        · rintro ⟨hk, -⟩
          rw [hnone] at hk
          cases hk
      · rw [Abs.cont_pendOn, hbc]
        apply and_congr_right
        intro hk
        exact H.madeOwner_cons he hk (hoff t' o').2.2
    · rw [Abs.cont_setCont]
      split
      · exact ⟨o, rfl⟩
      · rename_i ht
        have htask := (b.task_pendOn t t' (some o) .mutex timed).trans (if_neg ht)
        change ((b.pendOn t (some o) .mutex timed).task t').pendOn = _ at ht'
        rw [htask] at ht'
        rw [Abs.cont_pendOn, hbc]
        apply hL.waits t'
        split at hb
        · rw [hb.2, Abs.task_boost] at ht'
          split at ht'
          · rename_i hw
            rw [hw.1]
            exact ht'
          · exact ht'
        · rwa [hb] at ht'
  | @handOff o t d opt _ hcur hint hm ho hz hw hrdy hs =>
    have hL' := hL.handOff H he hP hcur hint hm ho hz hw
    split at hs
    · exact hL'.sched hs
    · rwa [hs]
  | unlock _ _ _ hs | intExit _ hs =>
    apply Abs.Ledger.sched _ hs
    refine hL.keep H he ?_ (fun _ _ => ?_) (fun _ => ?_) (.of_event rfl)
    · rfl
    · rfl
    · exact id

/-- Who owns a mutex after a run, by the answers that its tasks have got. -/
structure LedgerOk (h : List Step) (s : OS) : Prop where
  owner_iff : ∀ t o, (s.obj o).ownerTCBPtr = some t ↔ 0 < balance t o h ∨ Granted h (s.cont t) t o
  excludes : ∀ x ∈ h.head?, ∀ t t' o, Takes t' o x → t ≠ t' → balance t o h ≤ 0 ∧ balance t o h.tail ≤ 0

/-- The runs in which no task is deleted, no mutex set up anew, and no nested pend wraps a counter. -/
def WithinNesting (cfg : Cfg) (_ : List Step) (x : Step) : Prop :=
  ¬ PassedMatch cfg x.pre x.event ∧ KeepsMutexes x.pre x.event ∧ ¬ NestsDeeper x.pre x.event

instance (cfg : Cfg) (h : List Step) (x : Step) : Decidable (WithinNesting cfg h x) :=
  inferInstanceAs (Decidable (_ ∧ _ ∧ _))

theorem Abs.Ledger.nesting_pos (hL : a.Ledger h) (hM : a.MutexOk) (ho : (a.obj o).owner = some t) :
    0 < (a.obj o).nesting.toNat := by
  have hm : (a.obj o).type = .mutex := by
    by_contra hm
    simp [hL.other o hm] at ho
  have hne := (hM o hm).owned.mp (by simp [ho])
  apply Nat.pos_of_ne_zero
  intro h0
  exact hne (BitVec.eq_of_toNat_eq h0)

open Classical in
theorem Abs.Ledger.balance_nonneg (hL : a.Ledger h) (hM : a.MutexOk) (t : TcbId) (o : ObjId) : 0 ≤ balance t o h := by
  have hcnt := hL.count t o
  by_cases ho : (a.obj o).owner = some t
  · have hpos := hL.nesting_pos hM ho
    rw [if_pos ho] at hcnt
    split at hcnt <;> omega
  · have hng : ¬ Granted h (a.cont t) t o := fun hg => ho (hL.granted t o hg)
    rw [if_neg ho, if_neg hng] at hcnt
    omega

open Classical in
theorem Abs.Ledger.owner_iff (hL : a.Ledger h) (hM : a.MutexOk) (t : TcbId) (o : ObjId) :
    (a.obj o).owner = some t ↔ 0 < balance t o h ∨ Granted h (a.cont t) t o := by
  have hcnt := hL.count t o
  constructor
  · intro ho
    have hpos := hL.nesting_pos hM ho
    rw [if_pos ho] at hcnt
    by_cases hg : Granted h (a.cont t) t o
    · exact .inr hg
    · rw [if_neg hg] at hcnt
      left
      omega
  · rintro (hpos | hg)
    · by_contra ho
      rw [if_neg ho] at hcnt
      split at hcnt <;> omega
    · exact hL.granted t o hg

theorem run_ledger (run : Run cfg (WithinNesting cfg) h s) : ∃ a, Ready cfg s a ∧ a.MutexOk ∧ a.PendsOk h ∧ a.Ledger h := by
  have hinit : (Abs.init cfg).Ledger [] := by
    refine ⟨fun t o => ?_, fun t o hg => ?_, fun o _ => rfl, fun t ht => ?_⟩
    · have h0 : ¬ Granted [] ((Abs.init cfg).cont t) t o := fun hg => hg.2
      rw [if_neg h0]
      rfl
    · exact absurd hg.2 id
    · simp only [Abs.init, Abs.task_start] at ht
      repeat' split at ht
      all_goals cases ht
  exact run.invariant (I := fun h a => a.MutexOk ∧ a.PendsOk h ∧ a.Ledger h) (fun _ _ hP => hP.1)
    ⟨fun o ho => (by cases ho), fun t o hk => (by cases hk), hinit⟩
    fun h s a e r a' H hI he hP hstep => ⟨hstep.mutexOk H hP.1 hP.2.2 hI.1, hstep.pendsOk H he hP.1 hI.2.1,
      hstep.ledger H he hP.1 hP.2.2 hP.2.1 hI.1 hI.2.1 hI.2.2⟩

theorem run_ledgerOk (run : CodeRun cfg (WithinNesting cfg) h s) (hfit : NoWrap cfg h) : LedgerOk h s := by
  replace run : Run cfg _ h s := run.fits hfit .nat
  obtain ⟨a, H, hM, -, hL⟩ := run_ledger run
  have hiff : ∀ t o, (s.obj o).ownerTCBPtr = some t ↔ 0 < balance t o h ∨ Granted h (s.cont t) t o := by
    intro t o
    rw [H.rep.owner, ← H.rep.cont]
    exact hL.owner_iff hM t o
  refine ⟨hiff, ?_⟩
  cases run with
  | init => simp
  | @step h' s' _ e r run he hx hk =>
    rintro _ ⟨⟩ t t' o hT hne
    obtain ⟨a', -, hM', -, hL'⟩ := run_ledger run
    have hT' : ¬ Takes t o ⟨s', e, r⟩ := by
      intro hT'
      exact hne (Option.some_inj.mp (hT'.1.symm.trans hT.1))
    have hG' : ¬ Gives t o ⟨s', e, r⟩ := by
      intro hG'
      exact hne (Option.some_inj.mp (hG'.1.symm.trans hT.1))
    have hG : ¬ Gives t' o ⟨s', e, r⟩ := by
      rintro ⟨-, _, _, hev, _⟩
      rcases hT with ⟨-, ⟨_, _, _, hev', _⟩ | ⟨hev', _⟩⟩ <;> rw [hev] at hev' <;> cases hev'
    have hpos : 0 < balance t' o (⟨s', e, r⟩ :: h') := by
      have := hL'.balance_nonneg hM' t' o
      rw [balance, if_pos hT, if_neg hG]
      omega
    have hown := (hiff t' o).mpr (.inl hpos)
    have hle : balance t o (⟨s', e, r⟩ :: h') ≤ 0 := by
      by_contra hlt
      have := (hiff t o).mpr (.inl (by omega))
      rw [hown] at this
      exact hne (Option.some_inj.mp this).symm
    refine ⟨hle, ?_⟩
    rwa [balance_cons _ hT' hG'] at hle

/-- A task that takes a mutex 256 times loses it to another task. -/
theorem nesting_breaks_ledger : ∃ h s, CodeRun Cfg.repository
    (fun _ x => ¬ PassedMatch Cfg.repository x.pre x.event ∧ KeepsMutexes x.pre x.event) h s ∧
    balance 5 0 h = 256 ∧ (s.obj 0).ownerTCBPtr = some 4 ∧ ¬ LedgerOk h s := by
  obtain ⟨h, s, run, -, hb, ho⟩ := RunIn.of_play .word Cfg.repository
    (fun _ x => ¬ PassedMatch Cfg.repository x.pre x.event ∧ KeepsMutexes x.pre x.event) 40
    (fun h s => balance 5 0 h = 256 ∧ (s.obj 0).ownerTCBPtr = some 4)
    ([.newTask 4 6, .call (.mutexCreate (some 0)), .call (.mutexCreate (some 1)), .start,
      .call (.mutexPend (some 1) 0 optPendBlocking), .newTask 5 5] ++
      List.replicate 256 (.call (.mutexPend (some 0) 0 optPendBlocking)) ++
      [.call (.mutexPend (some 1) 0 optPendBlocking), .call (.mutexPend (some 0) 0 optPendBlocking)]) (by decide +kernel)
  refine ⟨h, s, run, hb, ho, fun hL => ?_⟩
  have := (hL.owner_iff 5 0).mpr (.inl (by omega))
  rw [ho] at this
  cases this

/-- A task takes a mutex twice while another waits for it. -/
theorem run_ledgerOk_nested : ∃ h s, CodeRun Cfg.repository (WithinNesting Cfg.repository) h s ∧
    NoWrap Cfg.repository h ∧ balance 4 0 h = 2 ∧
    (s.obj 0).pendList.nbrEntries = 1 ∧ LedgerOk h s := by
  obtain ⟨h, s, run, hfit, hb, hw⟩ := RunIn.of_play .word Cfg.repository (WithinNesting Cfg.repository) 40
    (fun h s => balance 4 0 h = 2 ∧ (s.obj 0).pendList.nbrEntries = 1)
    [.newTask 4 6, .call (.mutexCreate (some 0)), .start, .call (.mutexPend (some 0) 0 optPendBlocking), .newTask 5 5,
      .call (.mutexPend (some 0) 10 optPendBlocking), .call (.mutexPend (some 0) 0 optPendBlocking)] (by decide +kernel)
  exact ⟨h, s, run, hfit, hb, hw, run_ledgerOk run hfit⟩

end ledger

end UcosIII
