import UcosIII.Abstract.Goods

namespace UcosIII

open Prog

structure Stock where
  type : ObjType
  ctr : ℕ
  flags : Flags

def Goods.stock (g : Goods) (o : ObjId) : Stock := ⟨(g.obj o).type, (g.obj o).ctr, (g.obj o).flags⟩

def OS.stock (s : OS) (o : ObjId) : Stock := ⟨(s.obj o).type, (s.obj o).ctr, (s.obj o).flags⟩

def granted : Option Ret → Bool
  | some x => x.err = .none
  | none => false

def OS.reports (s : OS) (d : PdId) (k : ℕ) (o : ObjId) : ℕ :=
  (entriesFrom d k).countP fun d => (s.pendData d).rdyObjPtr = some o

def OS.consumes (s : OS) (t : TcbId) (o : ObjId) : Prop :=
  (s.tcb t).pendStatus = .ok ∧ ∃ mode, s.cont t = .flagPend o mode true

def Event.Deals (s : OS) (r : Option Ret) (s' : OS) : Event → Prop
  | .call (.semCreate (some o) cnt) =>
    s'.stock = if granted r then Function.update s.stock o { s.stock o with type := .sem, ctr := cnt } else s.stock
  | .call (.qCreate (some o) _) =>
    s'.stock = if granted r then Function.update s.stock o { s.stock o with type := .q } else s.stock
  | .call (.mutexCreate (some o)) =>
    s'.stock = if granted r then Function.update s.stock o { s.stock o with type := .mutex } else s.stock
  | .call (.flagCreate (some o) flags) =>
    s'.stock = if granted r then Function.update s.stock o { s.stock o with type := .flag, flags := flags } else s.stock
  | .call (.semPend (some o) ..) =>
    if granted r then (s.stock o).type = .sem ∧ 0 < (s.stock o).ctr ∧
      s'.stock = Function.update s.stock o { s.stock o with ctr := (s.stock o).ctr - 1 }
    else s'.stock = s.stock ∧ (r = none → (s.stock o).type = .sem ∧ (s.stock o).ctr = 0)
  | .call (.semPost (some o) _) =>
    if granted r then (s.stock o).type = .sem ∧ s'.stock = if (s.obj o).pendList.nbrEntries = 0 then
      Function.update s.stock o { s.stock o with ctr := (s.stock o).ctr + 1 } else s.stock
    else s'.stock = s.stock
  | .call (.semSet (some o) cnt) =>
    if granted r then (s.stock o).type = .sem ∧ (0 < (s.stock o).ctr ∨ (s.obj o).pendList.nbrEntries = 0) ∧
      s'.stock = Function.update s.stock o { s.stock o with ctr := cnt }
    else s'.stock = s.stock
  | .call (.pendMulti (some i) objs ..) => ∃ t, (s.intNestingCtr = 0 → s.tcbCurPtr = some t) ∧
    if granted r then ∀ o, (s'.stock o).type = (s.stock o).type ∧ (s'.stock o).flags = (s.stock o).flags ∧
      (s.stock o).ctr = (s'.stock o).ctr + if (s.stock o).type = .sem then s'.reports (t, i) objs.length o else 0
    else s'.stock = s.stock ∧ (r = none → ∀ p ∈ objs, ∀ o ∈ p, (s.stock o).type = .sem → (s.stock o).ctr = 0)
  | .call (.flagPend (some o) flags _ opt) => s'.stock = s.stock ∧ (r = none → (s.stock o).type = .flag ∧
      ∃ x, flagsReady (opt &&& optPendFlagMask) (s.stock o).flags flags = some (x, false)) ∨
    granted r = true ∧ ∃ m, s'.stock = Function.update s.stock o { s.stock o with flags := (s.stock o).flags &&& ~~~ m }
  | .call (.flagPost (some o) flags opt) => s'.stock = s.stock ∧ (∃ x, r = some x ∧ (x.err = .optInvalid ∨ x.err = .objType)) ∨
    flagPostOptValid opt = true ∧ (s.stock o).type = .flag ∧
      s'.stock = Function.update s.stock o { s.stock o with flags := postedFlags opt (s.stock o).flags flags }
  | .finish => s'.stock = s.stock ∨ ∃ t o m, s.tcbCurPtr = some t ∧ s.consumes t o ∧
      s'.stock = Function.update s.stock o { s.stock o with flags := (s.stock o).flags &&& ~~~ m }
  | _ => s'.stock = s.stock

variable {n : ℕ} {cfg : Cfg} {s s' : OS} {t : TcbId} {o : ObjId} {α : Type} {r : Option Ret}

section views

theorem OS.stock_modObj (f : Obj → Obj) (o : ObjId) : (s.modObj o f).stock =
    Function.update s.stock o ⟨(f (s.obj o)).type, (f (s.obj o)).ctr, (f (s.obj o)).flags⟩ := by
  funext x
  rw [OS.stock, OS.modObj_obj, Function.update_apply]
  split
  · subst x
    rfl
  · rfl

theorem keeps_stock_modObj {f : Obj → Obj} (hf : ∀ b, (f b).type = b.type ∧ (f b).ctr = b.ctr ∧ (f b).flags = b.flags)
    (o : ObjId) : Keeps OS.stock (modObj o f) := by
  apply keeps_modify
  intro s
  rw [OS.stock_modObj, (hf _).1, (hf _).2.1, (hf _).2.2]
  exact Function.update_eq_self o s.stock

theorem keeps_stock_modTcb (t : TcbId) (f : TCB → TCB) : Keeps OS.stock (modTcb t f) := keeps_modify fun _ => rfl

theorem keeps_stock_msgQGet (q : MsgQ) : Keeps OS.stock (msgQGet q) := (keeps_noMsgs_msgQGet q).comp OS.stock

theorem keeps_stock_msgQPut (q : MsgQ) (pVoid : Option ℕ) (msgSize : ℕ) (opt : Opt) (ts : ℕ) :
    Keeps OS.stock (msgQPut q pVoid msgSize opt ts) := (keeps_noMsgs_msgQPut q pVoid msgSize opt ts).comp OS.stock

theorem keeps_stock_msgQFreeAll (q : MsgQ) : Keeps OS.stock (msgQFreeAll q) := (keeps_noMsgs_msgQFreeAll q).comp OS.stock

end views

section tasks

theorem keeps_stock_taskStart (t : TcbId) (a : TaskArgs) : Keeps OS.stock (taskStart t a) := by
  refine keeps_bind (keeps_bind keeps_ask fun _ => keeps_stock_modTcb t _) fun _ => ?_
  refine keeps_bind keeps_get fun _ => keeps_bind (keeps_stock_modTcb t _) fun _ => ?_
  refine keeps_bind ((keeps_prioInsert _).comp OS.stock) fun _ => ?_
  exact (keeps_rdyListInsertTail t).comp OS.stock

theorem keeps_stock_osInit : Keeps OS.stock osInit := by
  refine keeps_bind keeps_ask fun _ => keeps_bind (keeps_stock_taskStart _ _) fun _ => ?_
  refine keeps_bind (keeps_stock_taskStart _ _) fun _ => keeps_bind (keeps_stock_taskStart _ _) fun _ => ?_
  exact keeps_stock_taskStart _ _

theorem keeps_stock_osTaskCreate (a : TaskArgs) : Keeps OS.stock (osTaskCreate a) := by
  refine keeps_bind keeps_ask fun c => keeps_bind keeps_get fun s => ?_
  cases taskCreateCheck c s a with
  | inl e => exact keeps_pure _
  | inr t =>
    refine keeps_bind (keeps_stock_taskStart t a) fun _ => ?_
    refine keeps_bind keeps_get fun _ => keeps_ite (keeps_pure _) ?_
    exact keeps_bind (keeps_goods_osSched.comp Goods.stock) fun _ => keeps_pure _

theorem keeps_stock_osTaskDel (p : Option TcbId) : Keeps OS.stock (osTaskDel p) := by
  have hunlink (t : TcbId) : Keeps OS.stock (taskUnlink t) := by
    refine keeps_bind (keeps_getTcb t) fun c => ?_
    cases c.taskState with
    | rdy => exact ((keeps_goods_rdyListRemove t).comp Goods.stock)
    | suspended | del => exact keeps_pure _
    | dly | dlySuspended => exact ((keeps_goods_tickListRemove t).comp Goods.stock)
    | pend | pendSuspended | pendTimeout | pendTimeoutSuspended =>
      refine keeps_bind ((keeps_goods_tickListRemove t).comp Goods.stock) fun _ => ?_
      cases c.pendOn with
      | nothing | taskQ | taskSem => exact keeps_pure _
      | flag | multi | mutex | q | sem => exact ((keeps_goods_pendListRemove t).comp Goods.stock)
  refine keeps_bind keeps_get fun _ => keeps_ite (keeps_pure _) (keeps_ite (keeps_pure _) ?_)
  refine keeps_bind (keeps_orCur p) fun t => keeps_bind (keeps_getTcb t) fun _ => keeps_ite (keeps_pure _) ?_
  refine keeps_bind (keeps_bind (hunlink t) fun _ => keeps_bind (keeps_getTcb t) fun c => ?_) fun _ =>
    keeps_bind (keeps_goods_osSched.comp Goods.stock) fun _ => keeps_pure _
  refine keeps_bind (keeps_stock_msgQFreeAll c.msgQ) fun _ => keeps_bind (keeps_bind keeps_ask fun _ => ?_) fun _ => ?_
  · exact keeps_stock_modTcb t _
  · exact keeps_bind (keeps_stock_modTcb t _) fun _ => keeps_modify fun _ => rfl

theorem keeps_stock_osTaskQPend (timeout : Tick) (opt : Opt) (hasSize : Bool) :
    Keeps OS.stock (osTaskQPend timeout opt hasSize) := by
  refine keeps_bind keeps_get fun _ => keeps_ite (keeps_pure _) (keeps_ite (keeps_pure _) (keeps_ite (keeps_pure _) ?_))
  refine keeps_bind keeps_getCur fun t => keeps_bind (keeps_getTcb t) fun _ => keeps_bind (keeps_stock_msgQGet _) fun _ => ?_
  refine keeps_bind (keeps_stock_modTcb t _) fun _ => keeps_ite (keeps_pure _) (keeps_ite (keeps_pure _) ?_)
  exact keeps_ite (keeps_pure _) ((keeps_goods_pendThen none .taskQ timeout .taskQPend).comp Goods.stock)

theorem keeps_stock_osTaskQPost (p : Option TcbId) (pVoid : Option ℕ) (msgSize : ℕ) (opt : Opt) :
    Keeps OS.stock (osTaskQPost p pVoid msgSize opt) := by
  have hput (t : TcbId) (ts : ℕ) : Keeps OS.stock (taskQPut t pVoid msgSize opt ts) := by
    refine keeps_bind (keeps_getTcb t) fun _ => keeps_bind (keeps_stock_msgQPut _ _ _ _ _) fun _ => ?_
    exact keeps_bind (keeps_stock_modTcb t _) fun _ => keeps_pure _
  refine keeps_ite (keeps_pure _) (keeps_bind keeps_tsGet fun ts => keeps_bind (keeps_orCur p) fun t => ?_)
  refine keeps_bind (keeps_getTcb t) fun c => ?_
  cases c.taskState with
  | rdy | dly | suspended | dlySuspended => exact hput t ts
  | pend | pendTimeout | pendSuspended | pendTimeoutSuspended =>
    refine keeps_ite (keeps_bind ((keeps_goods_post none t pVoid msgSize ts).comp Goods.stock) fun _ => ?_) (hput t ts)
    exact keeps_bind ((keeps_goods_schedOpt opt).comp Goods.stock) fun _ => keeps_pure _
  | del => exact keeps_pure _

theorem keeps_stock_osTaskQFlush (p : Option TcbId) : Keeps OS.stock (osTaskQFlush p) := by
  refine keeps_bind keeps_get fun _ => keeps_ite (keeps_pure _) (keeps_bind (keeps_orCur p) fun t => ?_)
  refine keeps_bind (keeps_getTcb t) fun _ => keeps_bind (keeps_stock_msgQFreeAll _) fun _ => ?_
  exact keeps_bind (keeps_stock_modTcb t _) fun _ => keeps_pure _

end tasks

section objects

theorem keeps_stock_osQPend (p : Option ObjId) (timeout : Tick) (opt : Opt) (hasSize : Bool) :
    Keeps OS.stock (osQPend p timeout opt hasSize) := by
  refine keeps_bind keeps_get fun _ => keeps_ite (keeps_pure _) ?_
  cases p with
  | none => exact keeps_pure _
  | some o =>
    refine keeps_ite (keeps_pure _) (keeps_ite (keeps_pure _) (keeps_bind (keeps_getObj o) fun _ => ?_))
    refine keeps_ite (keeps_pure _) (keeps_bind (keeps_getObj o) fun _ => keeps_bind (keeps_stock_msgQGet _) fun _ => ?_)
    refine keeps_bind (keeps_stock_modObj (by intro b; exact ⟨rfl, rfl, rfl⟩) o) fun _ => keeps_ite (keeps_pure _) ?_
    exact keeps_ite (keeps_pure _) (keeps_ite (keeps_pure _) ((keeps_goods_pendThen (some o) .q timeout .qPend).comp Goods.stock))

theorem keeps_stock_osQPost (p : Option ObjId) (pVoid : Option ℕ) (msgSize : ℕ) (opt : Opt) :
    Keeps OS.stock (osQPost p pVoid msgSize opt) := by
  unfold osQPost
  cases p with
  | none => exact keeps_pure _
  | some o =>
    refine keeps_ite (keeps_pure _) (keeps_bind (keeps_getObj o) fun _ => keeps_ite (keeps_pure _) ?_)
    refine keeps_bind keeps_tsGet fun ts => keeps_bind (keeps_getObj o) fun b => keeps_ite ?_ ?_
    · refine keeps_bind (keeps_stock_msgQPut _ _ _ _ _) fun _ => ?_
      exact keeps_bind (keeps_stock_modObj (by intro b; exact ⟨rfl, rfl, rfl⟩) o) fun _ => keeps_pure _
    · refine keeps_bind ((keeps_goods_postLoop o pVoid msgSize ts _ _).comp Goods.stock) fun _ => ?_
      exact keeps_bind ((keeps_goods_schedOpt opt).comp Goods.stock) fun _ => keeps_pure _

section mutexes

variable {β : Type} {w : Goods → β}

def Goods.NoOwners (w : Goods → β) : Prop := ∀ (s : OS) (o : ObjId) (f : Obj → Obj),
  (∀ b, (f b).type = b.type ∧ (f b).ctr = b.ctr ∧ (f b).flags = b.flags ∧ (f b).msgQ = b.msgQ) →
    w (s.modObj o f).goods = w s.goods

theorem keeps_osMutexPend (hw : Goods.NoOwners w) (p : Option ObjId) (timeout : Tick) (opt : Opt) :
    Keeps (fun s : OS => w s.goods) (osMutexPend p timeout opt) := by
  have hset (o : ObjId) (f : Obj → Obj)
      (hf : ∀ b, (f b).type = b.type ∧ (f b).ctr = b.ctr ∧ (f b).flags = b.flags ∧ (f b).msgQ = b.msgQ) (x : Option Ret) :
      Keeps (fun s : OS => w s.goods) (modObj o f >>= fun _ => pure x) :=
    keeps_bind (keeps_modify fun s => hw s o f hf) fun _ => keeps_pure _
  refine keeps_bind keeps_get fun _ => keeps_ite (keeps_pure _) ?_
  cases p with
  | none => exact keeps_pure _
  | some o =>
    refine keeps_ite (keeps_pure _) (keeps_bind (keeps_getObj o) fun _ => keeps_ite (keeps_pure _) ?_)
    refine keeps_bind keeps_getCur fun t => keeps_ite (keeps_bind (keeps_getTcb t) fun _ => ?_) (keeps_ite ?_ ?_)
    · exact hset o _ (by intro b; exact ⟨rfl, rfl, rfl, rfl⟩) _
    · exact hset o _ (by intro b; exact ⟨rfl, rfl, rfl, rfl⟩) _
    refine keeps_ite (keeps_pure _) (keeps_ite (keeps_pure _) (keeps_bind (keeps_getObj o) fun _ => ?_))
    refine keeps_bind (keeps_deref _) fun u => keeps_bind (keeps_getTcb t) fun _ => keeps_bind (keeps_getTcb u) fun _ => ?_
    have hrest (e : Err) : Keeps (fun s : OS => w s.goods) (do
        if e ≠ .none then return some ({ err := e } : Ret)
        pend (some o) .mutex timeout
        waitThen (.mutexPend o)) :=
      keeps_ite (keeps_pure _) ((keeps_goods_pendThen (some o) .mutex timeout (.mutexPend o)).comp w)
    exact keeps_ite (keeps_bind ((keeps_goods_mutexBoost u _).comp w) hrest) (keeps_bind (keeps_pure _) hrest)

theorem keeps_osMutexPost (hw : Goods.NoOwners w) (p : Option ObjId) (opt : Opt) :
    Keeps (fun s : OS => w s.goods) (osMutexPost p opt) := by
  have hset (o : ObjId) (f : Obj → Obj)
      (hf : ∀ b, (f b).type = b.type ∧ (f b).ctr = b.ctr ∧ (f b).flags = b.flags ∧ (f b).msgQ = b.msgQ) :
      Keeps (fun s : OS => w s.goods) (modObj o f) := keeps_modify fun s => hw s o f hf
  refine keeps_bind keeps_get fun _ => keeps_ite (keeps_pure _) ?_
  cases p with
  | none => exact keeps_pure _
  | some o =>
    refine keeps_ite (keeps_pure _) (keeps_bind (keeps_getObj o) fun _ => keeps_ite (keeps_pure _) ?_)
    refine keeps_bind keeps_getCur fun t => keeps_ite (keeps_pure _) ?_
    refine keeps_bind (hset o _ (by intro b; exact ⟨rfl, rfl, rfl, rfl⟩)) fun _ => ?_
    refine keeps_bind (keeps_getObj o) fun _ => keeps_ite (keeps_pure _) (keeps_ite ?_ ?_)
    · exact keeps_bind (hset o _ (by intro b; exact ⟨rfl, rfl, rfl, rfl⟩)) fun _ => keeps_pure _
    refine keeps_bind ((keeps_goods_mutexRestore o t).comp w) fun _ => keeps_bind ?_ fun _ =>
      keeps_bind ((keeps_goods_schedOpt opt).comp w) fun _ => keeps_pure _
    refine keeps_bind (keeps_getObj o) fun _ => keeps_bind (keeps_deref _) fun d => keeps_bind (keeps_getPendData d) fun _ => ?_
    refine keeps_bind (keeps_deref _) fun u => keeps_bind (keeps_getTcb u) fun _ => ?_
    refine keeps_bind (hset o _ (by intro b; exact ⟨rfl, rfl, rfl, rfl⟩)) fun _ => ?_
    exact (keeps_goods_post (some o) u none 0 _).comp w

theorem Goods.noOwners_stock : Goods.NoOwners Goods.stock := by
  intro s o f hf
  change (s.modObj o f).stock = s.stock
  rw [OS.stock_modObj, (hf _).1, (hf _).2.1, (hf _).2.2.1]
  exact Function.update_eq_self o s.stock

end mutexes

end objects

section deals

theorem osSemPend_deals (o : ObjId) (timeout : Tick) (opt : Opt) :
    wp n cfg (osSemPend (some o) timeout opt) (fun r s' => Event.Deals s r s' (.call (.semPend (some o) timeout opt))) s := by
  have href (x : Ret) (hx : x.err ≠ .none) : Event.Deals s (some x) s (.call (.semPend (some o) timeout opt)) := by
    rw [Event.Deals, if_neg (by simpa [granted] using hx)]
    exact ⟨rfl, by simp⟩
  rw [osSemPend.eq_def, wp_bind, wp_get, wp_ite]
  refine ⟨fun _ => wp_pure.mpr (href _ (by simp)), fun _ => ?_⟩
  dsimp only
  rw [wp_ite]
  refine ⟨fun _ => wp_pure.mpr (href _ (by simp)), fun _ => ?_⟩
  rw [wp_bind, wp_getObj, wp_ite]
  refine ⟨fun _ => wp_pure.mpr (href _ (by simp)), fun htype => ?_⟩
  have htype' : (s.stock o).type = .sem := not_not.mp htype
  rw [wp_ite]
  constructor
  · intro hctr
    rw [wp_bind, wp_modObj]
    have hok (v ts : ℕ) : granted (some { err := .none, val := v, ts := ts }) = true := rfl
    refine wp_pure.mpr ?_
    rw [Event.Deals, if_pos (hok _ _)]
    exact ⟨htype', hctr, OS.stock_modObj _ o⟩
  · intro hctr
    refine wp_ite.mpr ⟨fun _ => wp_pure.mpr (href _ (by simp)), fun _ => wp_ite.mpr ⟨fun _ => wp_pure.mpr (href _ (by simp)), fun _ => ?_⟩⟩
    refine (((keeps_goods_pendThen (some o) .sem timeout (.semPend o)).comp Goods.stock n cfg s).and
      (pendThen_file (some o) .sem timeout (.semPend o))).mono ?_
    rintro _ s' ⟨hs, rfl, -⟩
    rw [Event.Deals, if_neg (by simp [granted])]
    exact ⟨hs, fun _ => ⟨htype', Nat.eq_zero_of_not_pos hctr⟩⟩

theorem osSemPost_deals (o : ObjId) (opt : Opt) :
    wp n cfg (osSemPost (some o) opt) (fun r s' => Event.Deals s (some r) s' (.call (.semPost (some o) opt))) s := by
  have href (x : Ret) (hx : x.err ≠ .none) : Event.Deals s (some x) s (.call (.semPost (some o) opt)) := by
    rw [Event.Deals, if_neg (by simpa [granted] using hx)]
  rw [osSemPost]
  rw [wp_ite]
  refine ⟨fun _ => wp_pure.mpr (href _ (by simp)), fun _ => ?_⟩
  rw [wp_bind, wp_getObj, wp_ite]
  refine ⟨fun _ => wp_pure.mpr (href _ (by simp)), fun htype => ?_⟩
  have htype' : (s.stock o).type = .sem := not_not.mp htype
  have hok (v : ℕ) : granted (some { err := .none, val := v }) = true := rfl
  rw [wp_bind, wp_tsGet, semPost, wp_bind, wp_getObj, wp_ite]
  constructor
  · intro h0
    rw [wp_ite]
    refine ⟨fun _ => wp_pure.mpr (href _ (by simp)), fun _ => ?_⟩
    rw [wp_bind, wp_modObj]
    refine wp_pure.mpr ?_
    rw [Event.Deals, if_pos (hok _), if_pos h0]
    exact ⟨htype', OS.stock_modObj _ o⟩
  · intro h0
    rw [wp_bind]
    refine ((keeps_goods_postLoop o none 0 _ _ _).comp Goods.stock n cfg s).mono fun _ s₁ h₁ => ?_
    rw [wp_bind, wp_getObj, wp_bind]
    refine ((keeps_goods_schedOpt opt).comp Goods.stock n cfg s₁).mono fun _ s₂ h₂ => wp_pure.mpr ?_
    rw [Event.Deals, if_pos (hok _), if_neg h0]
    exact ⟨htype', h₂.trans h₁⟩

theorem osSemSet_deals (o : ObjId) (cnt : ℕ) :
    wp n cfg (osSemSet (some o) cnt) (fun x s' => Event.Deals s (some { err := x }) s' (.call (.semSet (some o) cnt))) s := by
  have href (x : Err) (hx : x ≠ .none) : Event.Deals s (some { err := x }) s (.call (.semSet (some o) cnt)) := by
    rw [Event.Deals, if_neg (by simpa [granted] using hx)]
  rw [osSemSet.eq_def, wp_bind, wp_get, wp_ite]
  refine ⟨fun _ => wp_pure.mpr (href _ (by simp)), fun _ => ?_⟩
  dsimp only
  rw [wp_bind, wp_getObj, wp_ite]
  refine ⟨fun _ => wp_pure.mpr (href _ (by simp)), fun htype => ?_⟩
  rw [wp_ite]
  refine ⟨fun hctr => ?_, fun _ => wp_pure.mpr (href _ (by simp))⟩
  rw [wp_bind, wp_modObj]
  refine wp_pure.mpr ?_
  rw [Event.Deals, if_pos (show granted (some { err := .none }) = true from rfl)]
  exact ⟨not_not.mp htype, hctr, OS.stock_modObj _ o⟩

theorem keeps_goods_flagBlock (o : ObjId) (flags : Flags) (opt : Opt) (timeout : Tick) (k : Cont) :
    Keeps OS.goods (flagBlock o flags opt timeout >>= fun _ => waitThen k) := by
  refine keeps_bind (keeps_bind keeps_getCur fun t => ?_) fun _ => keeps_goods_waitThen _
  exact keeps_bind (keeps_goods_modTcb (by intro c; rfl) t) fun _ => keeps_goods_pend (some o) .flag timeout

theorem osFlagPend_deals (o : ObjId) (flags : Flags) (timeout : Tick) (opt : Opt) :
    wp n cfg (osFlagPend (some o) flags timeout opt)
      (fun r s' => Event.Deals s r s' (.call (.flagPend (some o) flags timeout opt))) s := by
  have href (x : Ret) : Event.Deals s (some x) s (.call (.flagPend (some o) flags timeout opt)) := .inl ⟨rfl, by simp⟩
  rw [osFlagPend.eq_def, wp_bind, wp_get, wp_ite]
  refine ⟨fun _ => wp_pure.mpr (href _), fun _ => ?_⟩
  dsimp only
  rw [wp_ite]
  refine ⟨fun _ => wp_pure.mpr (href _), fun _ => ?_⟩
  rw [wp_bind, wp_getObj, wp_ite]
  refine ⟨fun _ => wp_pure.mpr (href _), fun htype => ?_⟩
  have htype' : (s.stock o).type = .flag := not_not.mp htype
  cases hrdy : flagsReady (opt &&& optPendFlagMask) (s.obj o).flags flags with
  | none => exact wp_pure.mpr (href _)
  | some x =>
    obtain ⟨flagsRdy, done⟩ := x
    cases done with
    | true =>
      have hset (s₁ : OS) (x : Ret)
          (h₁ : ∀ s', s'.stock = s₁.stock → Event.Deals s (some x) s' (.call (.flagPend (some o) flags timeout opt))) :
          wp n cfg (do
            modTcb (← getCur) fun c => { c with flagsRdy := flagsRdy }
            return some x) (fun r s' => Event.Deals s r s' (.call (.flagPend (some o) flags timeout opt))) s₁ := by
        rw [wp_bind, wp_getCur]
        intro t _
        rw [wp_bind, wp_modTcb]
        exact wp_pure.mpr (h₁ _ rfl)
      dsimp only
      rw [wp_ite]
      constructor
      · intro _
        rw [wp_bind, wp_modObj]
        exact hset _ _ fun s' h' => .inr ⟨rfl, flagsRdy, h'.trans (OS.stock_modObj _ o)⟩
      · intro _
        exact hset s _ fun s' h' => .inl ⟨h', by simp⟩
    | false =>
      refine wp_ite.mpr ⟨fun _ => wp_pure.mpr (href _), fun _ => wp_ite.mpr ⟨fun _ => wp_pure.mpr (href _), fun _ => ?_⟩⟩
      refine ((keeps_goods_flagBlock o flags opt timeout _).comp Goods.stock n cfg s).mono fun r s' hs =>
        .inl ⟨hs, fun _ => ⟨htype', flagsRdy, ?_⟩⟩
      exact hrdy

theorem keeps_goods_flagPostStep (o : ObjId) (ts : ℕ) (p : Option PdId) : Keeps OS.goods (flagPostStep o ts p) := by
  cases p with
  | none => exact keeps_pure _
  | some d =>
    refine keeps_bind (keeps_getPendData d) fun e => ?_
    cases e.tcbPtr with
    | none => exact keeps_pure _
    | some t =>
      refine keeps_bind (keeps_getTcb t) fun c => keeps_bind (keeps_getObj o) fun b => ?_
      cases flagsReady (c.flagsOpt &&& optPendFlagMask) b.flags c.flagsPend with
      | none => exact keeps_pure _
      | some x =>
        obtain ⟨flagsRdy, done⟩ := x
        cases done with
        | false => exact keeps_pure _
        | true => exact keeps_bind (keeps_goods_flagTaskRdy t flagsRdy _) fun _ => keeps_pure _

theorem keeps_goods_flagPostRest (o : ObjId) (opt : Opt) (ts : ℕ) : Keeps OS.goods (do
    let b ← getObj o
    if b.pendList.nbrEntries = 0 then return some ({ err := .none, val := b.flags.toNat } : Ret)
    let d ← Prog.deref b.pendList.headPtr
    if ← Prog.loop (flagPostStep o ts) (some d) then return some { err := .flagPendOpt }
    if opt &&& optPostNoSched = 0 ∧ (← Prog.get).intNestingCtr = 0 then waitThen (.flagPost o)
    else return some { err := .none, val := (← getObj o).flags.toNat }) := by
  refine keeps_bind (keeps_getObj o) fun _ => keeps_ite (keeps_pure _) (keeps_bind (keeps_deref _) fun d => ?_)
  refine keeps_bind (keeps_loop (keeps_goods_flagPostStep o ts) (some d)) fun _ => keeps_ite (keeps_pure _) ?_
  refine keeps_bind keeps_get fun _ => ?_
  exact keeps_ite (keeps_goods_waitThen _) (keeps_bind (keeps_getObj o) fun _ => keeps_pure _)

theorem osFlagPost_deals (o : ObjId) (flags : Flags) (opt : Opt) :
    wp n cfg (osFlagPost (some o) flags opt)
      (fun r s' => Event.Deals s r s' (.call (.flagPost (some o) flags opt))) s := by
  rw [osFlagPost]
  rw [wp_ite]
  refine ⟨fun _ => wp_pure.mpr (.inl ⟨rfl, _, rfl, .inl rfl⟩), fun hopt => ?_⟩
  rw [wp_bind, wp_getObj, wp_ite]
  refine ⟨fun _ => wp_pure.mpr (.inl ⟨rfl, _, rfl, .inr rfl⟩), fun htype => ?_⟩
  rw [wp_bind, wp_tsGet, flagPost]
  have hpost (s₁ : OS) (h₁ : s₁.stock = Function.update s.stock o { s.stock o with flags := postedFlags opt (s.stock o).flags flags }) :=
    ((keeps_goods_flagPostRest o opt s.tsNow).comp Goods.stock n cfg s₁).mono fun r s' (hs : s'.stock = s₁.stock) =>
      (.inr ⟨by simpa using hopt, not_not.mp htype, hs.trans h₁⟩ :
        Event.Deals s r s' (.call (.flagPost (some o) flags opt)))
  rw [wp_ite]
  constructor
  · intro hset
    rw [wp_bind, wp_modObj]
    apply hpost
    rw [OS.stock_modObj, postedFlags, if_pos hset]
    rfl
  · intro hset
    rw [wp_bind, wp_modObj]
    apply hpost
    rw [OS.stock_modObj, postedFlags, if_neg hset]
    rfl

end deals

section several

theorem storeTable_objs (objs : List (Option ObjId)) (d : PdId) : wp n cfg (storeTable d objs) (fun _ s' =>
    s'.goods = s.goods ∧ (∀ x ∉ entriesFrom d objs.length, s'.pendData x = s.pendData x) ∧
      (entriesFrom d objs.length).map (fun x => (s'.pendData x).pendObjPtr) = objs) s := by
  induction objs generalizing d s with
  | nil => exact wp_pure.mpr ⟨rfl, fun _ _ => rfl, rfl⟩
  | cons o objs ih =>
    rw [storeTable, wp_bind, wp_modPendData]
    refine (ih (d.1, d.2 + 1)).mono ?_
    rintro _ s' ⟨hgoods, hother, hobjs⟩
    have hd : d ∉ entriesFrom (d.1, d.2 + 1) objs.length := by
      intro hmem
      have := (mem_entriesFrom.mp hmem).2.1
      dsimp only at this
      omega
    refine ⟨hgoods, fun x hx => ?_, ?_⟩
    · rw [List.length_cons, entriesFrom, List.mem_cons, not_or] at hx
      rw [hother x hx.2, OS.modPendData_pendData, if_neg hx.1]
    · rw [List.length_cons, entriesFrom, List.map_cons, hobjs, hother d hd, OS.modPendData_pendData, if_pos rfl]

theorem OS.pendObjPtr_modPendData {f : PendData → PendData} (hf : ∀ e, (f e).pendObjPtr = e.pendObjPtr) (d x : PdId) :
    ((s.modPendData d f).pendData x).pendObjPtr = (s.pendData x).pendObjPtr := by
  rw [OS.modPendData_pendData]
  split
  · subst x
    exact hf _
  · rfl

theorem pendMultiGetRdy1_stock (d : PdId) : wp n cfg (pendMultiGetRdy1 d) (fun b s' => ∃ o,
    (s.pendData d).pendObjPtr = some o ∧ (∀ x, (s'.pendData x).pendObjPtr = (s.pendData x).pendObjPtr) ∧
    (∀ x ≠ d, s'.pendData x = s.pendData x) ∧ (s'.pendData d).rdyObjPtr = (if b then some o else none) ∧
    if (s.stock o).type = .sem then
      if b then 0 < (s.stock o).ctr ∧ s'.stock = Function.update s.stock o { s.stock o with ctr := (s.stock o).ctr - 1 }
      else s'.stock = s.stock ∧ (s.stock o).ctr = 0
    else s'.stock = s.stock) s := by
  rw [pendMultiGetRdy1, wp_bind, wp_modPendData, wp_bind, wp_getPendData, wp_bind, wp_deref]
  intro o ho
  rw [OS.modPendData_pendData, if_pos rfl] at ho
  rw [wp_bind, wp_getObj]
  generalize hs₁ : (s.modPendData d fun e => { e with
    rdyObjPtr := none, rdyMsgPtr := none, rdyMsgSize := 0, rdyTS := 0, nextPtr := none, prevPtr := none,
    tcbPtr := none }) = s₁
  have hstock : s₁.stock = s.stock := by rw [← hs₁]; rfl
  have htype : (s₁.obj o).type = (s.stock o).type := congrArg Stock.type (congrFun hstock o)
  have hctr : (s₁.obj o).ctr = (s.stock o).ctr := congrArg Stock.ctr (congrFun hstock o)
  have hobj₁ (x : PdId) : (s₁.pendData x).pendObjPtr = (s.pendData x).pendObjPtr := by
    rw [← hs₁]
    exact OS.pendObjPtr_modPendData (by intro e; rfl) d x
  have hother₁ (x : PdId) (hx : x ≠ d) : s₁.pendData x = s.pendData x := by
    rw [← hs₁, OS.modPendData_pendData, if_neg hx]
  have hnone : (s₁.pendData d).rdyObjPtr = none := by
    rw [← hs₁, OS.modPendData_pendData, if_pos rfl]
  cases ht : (s₁.obj o).type with
  | none | flag | mutex =>
    refine wp_pure.mpr ⟨o, ho, hobj₁, hother₁, hnone, ?_⟩
    rw [if_neg (by rw [← htype, ht]; simp)]
    exact hstock
  | q =>
    rw [wp_bind]
    refine (((keeps_noMsgs_msgQGet _).comp OS.pendData n cfg s₁).and (keeps_stock_msgQGet _ n cfg s₁)).mono ?_
    rintro ⟨q, r⟩ s₂ ⟨hpd, hst⟩
    have hpd' : s₂.pendData = s₁.pendData := hpd
    dsimp only
    have hst₂ : (s₂.modObj o fun b => { b with msgQ := q }).stock = s.stock := by
      rw [OS.stock_modObj]
      exact ((Function.update_eq_self o s₂.stock).trans hst).trans hstock
    have hsem : ¬ (s.stock o).type = .sem := by rw [← htype, ht]; simp
    rw [wp_bind, wp_modObj, wp_ite]
    constructor
    · intro _
      rw [wp_bind, wp_modPendData]
      refine wp_pure.mpr ⟨o, ho, fun x => ?_, fun x hx => ?_, ?_, ?_⟩
      · rw [← hobj₁, ← hpd']
        exact OS.pendObjPtr_modPendData (by intro e; rfl) d x
      · rw [← hother₁ x hx, ← hpd', OS.modPendData_pendData, if_neg hx]
        rfl
      · rw [OS.modPendData_pendData, if_pos rfl, if_pos rfl]
        change (s₂.pendData d).pendObjPtr = _
        rw [hpd', hobj₁, ho]
      · rw [if_neg hsem]
        exact hst₂
    · intro _
      refine wp_pure.mpr ⟨o, ho, fun x => ?_, fun x hx => ?_, ?_, ?_⟩
      · rw [← hobj₁, ← hpd']
        rfl
      · rw [← hother₁ x hx, ← hpd']
        rfl
      · rw [if_neg Bool.false_ne_true, ← hnone, ← hpd']
        rfl
      · rw [if_neg hsem]
        exact hst₂
  | sem =>
    have hsem : (s.stock o).type = .sem := by rw [← htype, ht]
    rw [wp_ite]
    constructor
    · intro hpos
      rw [wp_bind, wp_modObj, wp_bind, wp_modPendData]
      refine wp_pure.mpr ⟨o, ho, fun x => ?_, fun x hx => ?_, ?_, ?_⟩
      · rw [← hobj₁]
        exact OS.pendObjPtr_modPendData (by intro e; rfl) d x
      · rw [← hother₁ x hx, OS.modPendData_pendData, if_neg hx]
        rfl
      · rw [OS.modPendData_pendData, if_pos rfl, if_pos rfl]
        change (s₁.pendData d).pendObjPtr = _
        rw [hobj₁, ho]
      · rw [if_pos hsem, if_pos rfl, ← hstock]
        have hpos' : 0 < (s₁.stock o).ctr := hpos
        exact ⟨hpos', (OS.stock_modObj (fun b => { b with ctr := b.ctr - 1 }) o :)⟩
    · intro hpos
      refine wp_pure.mpr ⟨o, ho, hobj₁, hother₁, hnone, ?_⟩
      rw [if_pos hsem, if_neg Bool.false_ne_true]
      exact ⟨hstock, by omega⟩

theorem OS.reports_succ (d : PdId) (k : ℕ) (o : ObjId) : s.reports d (k + 1) o =
    s.reports (d.1, d.2 + 1) k o + if (s.pendData d).rdyObjPtr = some o then 1 else 0 := by
  unfold OS.reports
  rw [entriesFrom, List.countP_cons]
  simp

theorem not_mem_entriesFrom_succ (d : PdId) (k : ℕ) : d ∉ entriesFrom (d.1, d.2 + 1) k := by
  intro hmem
  have hle := (mem_entriesFrom.mp hmem).2.1
  dsimp only at hle
  omega

theorem pendMultiGetRdy_stock (k : ℕ) (d : PdId) : wp n cfg (pendMultiGetRdy k d) (fun nbr s' =>
    (∀ x ∉ entriesFrom d k, s'.pendData x = s.pendData x) ∧
    (∀ o, (s'.stock o).type = (s.stock o).type ∧ (s'.stock o).flags = (s.stock o).flags ∧
      (s.stock o).ctr = (s'.stock o).ctr + if (s.stock o).type = .sem then s'.reports d k o else 0) ∧
    (nbr = 0 → s'.stock = s.stock ∧ ∀ x ∈ entriesFrom d k, ∀ o ∈ (s.pendData x).pendObjPtr,
      (s.stock o).type = .sem → (s.stock o).ctr = 0)) s := by
  induction k generalizing d s with
  | zero =>
    refine wp_pure.mpr ⟨fun _ _ => rfl, fun o => ⟨rfl, rfl, ?_⟩, fun _ => ⟨rfl, by simp [entriesFrom]⟩⟩
    simp [OS.reports, entriesFrom]
  | succ k ih =>
    rw [pendMultiGetRdy, wp_bind]
    refine (pendMultiGetRdy1_stock d).mono ?_
    rintro b s₁ ⟨o₁, ho₁, hobj, hother, hrdy, hone⟩
    rw [wp_bind]
    refine (ih (d.1, d.2 + 1)).mono ?_
    rintro nbr s₂ ⟨hother₂, hctr₂, hnone₂⟩
    have hd : (s₂.pendData d).rdyObjPtr = if b then some o₁ else none := by
      rw [hother₂ d (not_mem_entriesFrom_succ d k), hrdy]
    have hfirst (o : ObjId) : (s₁.stock o).type = (s.stock o).type ∧ (s₁.stock o).flags = (s.stock o).flags ∧
        (s.stock o).ctr = (s₁.stock o).ctr + if (s.stock o).type = .sem ∧ (s₂.pendData d).rdyObjPtr = some o then 1 else 0 := by
      rw [hd]
      cases b with
      | false =>
        have hsame : s₁.stock = s.stock := by
          split at hone
          · exact hone.1
          · exact hone
        simp [hsame]
      | true =>
        by_cases hsem : (s.stock o₁).type = .sem
        · rw [if_pos hsem, if_pos rfl] at hone
          by_cases ho : o = o₁
          · subst ho
            have := hone.1
            simp only [hone.2, Function.update_self, hsem, ↓reduceIte, and_self, true_and]
            omega
          · simp [hone.2, ho, Ne.symm ho]
        · rw [if_neg hsem] at hone
          by_cases ho : o = o₁
          · subst ho
            simp [hone, hsem]
          · simp [hone, Ne.symm ho]
    refine wp_pure.mpr ⟨fun x hx => ?_, fun o => ?_, fun h0 => ?_⟩
    · rw [entriesFrom, List.mem_cons, not_or] at hx
      rw [hother₂ x hx.2, hother x hx.1]
    · obtain ⟨h1, h2, h3⟩ := hfirst o
      obtain ⟨h1', h2', h3'⟩ := hctr₂ o
      refine ⟨h1'.trans h1, h2'.trans h2, ?_⟩
      rw [OS.reports_succ, h3, h3', h1]
      by_cases hsem : (s.stock o).type = .sem
      · simp only [hsem, ↓reduceIte, true_and]
        omega
      · simp [hsem]
    · cases b with
      | true => simp at h0
      | false =>
        obtain ⟨hs₂, hzero⟩ := hnone₂ (by simpa using h0)
        have hsame : s₁.stock = s.stock ∧ ((s.stock o₁).type = .sem → (s.stock o₁).ctr = 0) := by
          split at hone
          · exact ⟨hone.1, fun _ => hone.2⟩
          · rename_i hsem
            exact ⟨hone, fun h => absurd h hsem⟩
        refine ⟨hs₂.trans hsame.1, ?_⟩
        rw [entriesFrom]
        intro x hx o ho
        rcases List.mem_cons.mp hx with rfl | hx
        · rw [ho₁] at ho
          cases ho
          exact hsame.2
        · have := hzero x hx o (by rwa [hobj])
          rwa [hsame.1] at this

theorem osPendMulti_deals (i : ℕ) (objs : List (Option ObjId)) (timeout : Tick) (opt : Opt) :
    wp n cfg (osPendMulti (some i) objs timeout opt)
      (fun r s' => Event.Deals s r s' (.call (.pendMulti (some i) objs timeout opt))) s := by
  rw [osPendMulti.eq_def, wp_bind, wp_get, wp_ite]
  constructor
  · intro hint
    refine wp_pure.mpr ⟨0, fun h0 => absurd h0 (by omega), ?_⟩
    rw [if_neg (by simp [granted])]
    exact ⟨rfl, by simp⟩
  intro _
  dsimp only
  rw [wp_bind, wp_getCur]
  intro t ht
  rw [wp_bind]
  refine (storeTable_objs objs (t, i)).mono ?_
  rintro _ s₁ ⟨hgoods, -, hobjs⟩
  have hs₁ : s₁.stock = s.stock := congrArg Goods.stock hgoods
  have href (x : Ret) (hx : x.err ≠ .none) (s' : OS) (h' : s'.stock = s.stock) :
      Event.Deals s (some x) s' (.call (.pendMulti (some i) objs timeout opt)) := by
    refine ⟨t, fun _ => ht, ?_⟩
    rw [if_neg (by simpa [granted] using hx)]
    exact ⟨h', by simp⟩
  refine wp_ite.mpr ⟨fun _ => wp_pure.mpr (href _ (by simp) s₁ hs₁), fun _ =>
    wp_ite.mpr ⟨fun _ => wp_pure.mpr (href _ (by simp) s₁ hs₁), fun _ => ?_⟩⟩
  rw [wp_bind]
  refine (keeps_pendMultiValidate objs.length (t, i) n cfg s₁ (v := fun s => s)).mono ?_
  rintro ok s₂ hs₂
  change s₂ = s₁ at hs₂
  subst hs₂
  rw [wp_ite]
  refine ⟨fun _ => wp_pure.mpr (href _ (by simp) s₂ hs₁), fun _ => ?_⟩
  rw [wp_bind]
  refine (pendMultiGetRdy_stock objs.length (t, i)).mono ?_
  rintro nbr s₃ ⟨-, hctr, hzero⟩
  rw [wp_ite]
  constructor
  · intro _
    refine wp_pure.mpr ⟨t, fun _ => ht, ?_⟩
    rw [if_pos (show granted (some { err := .none, val := nbr }) = true from rfl), ← hs₁]
    exact hctr
  · intro h0
    obtain ⟨hs₃, hzero⟩ := hzero (by omega)
    refine wp_ite.mpr ⟨fun _ => wp_pure.mpr (href _ (by simp) s₃ (hs₃.trans hs₁)), fun _ =>
      wp_ite.mpr ⟨fun _ => wp_pure.mpr (href _ (by simp) s₃ (hs₃.trans hs₁)), fun _ => ?_⟩⟩
    rw [wp_bind]
    refine ((keeps_goods_pendMultiWait _ _ _).comp Goods.stock n cfg s₃).mono fun _ s₄ h₄ => ?_
    refine (((keeps_goods_waitThen _).comp Goods.stock n cfg s₄).and (waitThen_file _)).mono ?_
    rintro _ s₅ ⟨h₅, rfl, -⟩
    refine ⟨t, fun _ => ht, ?_⟩
    rw [if_neg (by simp [granted])]
    refine ⟨((h₅.trans h₄).trans hs₃).trans hs₁, fun _ p hp o ho => ?_⟩
    rw [← hobjs] at hp
    obtain ⟨x, hx, rfl⟩ := List.mem_map.mp hp
    have := hzero x hx o ho
    rwa [hs₁] at this

end several

section events

theorem finish_deals : wp n cfg Event.finish.exec (fun r s' => Event.Deals s r s' .finish) s := by
  rw [Event.exec, finish, wp_bind, wp_getCur]
  intro t ht
  rw [wp_bind, wp_get, wp_bind, wp_modify]
  have hkeep {m : K (Option Ret)} (hm : Keeps OS.stock m) :
      wp n cfg m (fun r s' => Event.Deals s r s' .finish) { s with cont := Function.update s.cont t .none } :=
    (hm n cfg _).mono fun r s' hs => .inl hs
  cases hk : s.cont t with
  | none => exact hkeep (keeps_pure _)
  | semPend o =>
    refine hkeep (keeps_always (keeps_bind keeps_getCur fun x => keeps_bind (keeps_getTcb x) fun c => ?_))
    refine keeps_bind (keeps_getObj o) fun b => ?_
    cases c.pendStatus <;> exact keeps_pure _
  | qPend | taskSemPend | taskQPend =>
    refine hkeep (keeps_always (keeps_bind keeps_getCur fun x => keeps_bind (keeps_getTcb x) fun c => ?_))
    cases c.pendStatus <;> exact keeps_pure _
  | mutexPend o =>
    refine hkeep (keeps_always (keeps_bind keeps_getCur fun x => keeps_bind (keeps_getTcb x) fun c => ?_))
    cases c.pendStatus <;> exact keeps_pure _
  | flagPost o => exact hkeep (keeps_always (keeps_bind (keeps_getObj o) fun _ => keeps_pure _))
  | multiPend =>
    refine hkeep (keeps_always (keeps_bind keeps_getCur fun x => keeps_bind (keeps_getTcb x) fun c => ?_))
    refine keeps_bind (keeps_stock_modTcb x _) fun _ => ?_
    cases c.pendStatus <;> exact keeps_pure _
  | flagPend o mode consume =>
    rw [Cont.run, wp_always, flagPendFinish, wp_bind, wp_getCur]
    intro x hx
    obtain rfl : t = x := Option.some.inj (ht.symm.trans hx)
    rw [wp_bind, wp_getTcb]
    dsimp only
    cases hst : (s.tcb t).pendStatus with
    | abort | timeout | del => exact wp_pure.mpr (.inl rfl)
    | ok =>
      rw [wp_ite]
      refine ⟨fun _ => wp_pure.mpr (.inl rfl), fun hc => wp_ite.mpr ⟨fun _ => ?_, fun _ => wp_pure.mpr (.inl rfl)⟩⟩
      have hc' : consume = true := by simpa using hc
      subst hc'
      rw [wp_bind, wp_modObj]
      exact wp_pure.mpr (.inr ⟨t, o, (s.tcb t).flagsRdy, ht, ⟨hst, mode, hk⟩, (OS.stock_modObj _ o :)⟩)

theorem wp_create {m : K Err} {Q : Err → OS → Prop} (hisr : Q .createISR s) (hm : wp n cfg m Q s) : wp n cfg (do
    if (← Prog.get).intNestingCtr > 0 then return Err.createISR
    m) Q s := by
  rw [wp_bind, wp_get, wp_ite]
  exact ⟨fun _ => wp_pure.mpr hisr, fun _ => hm⟩

theorem Call.exec_deals (c : Call) : wp n cfg c.exec (fun r s' => Event.Deals s r s' (.call c)) s := by
  cases c with
  | taskCreate a => exact keeps_errOnly (keeps_stock_osTaskCreate a) n cfg s
  | taskDel p => exact keeps_errOnly (keeps_stock_osTaskDel p) n cfg s
  | taskSuspend p => exact (keeps_errOnly (keeps_goods_osTaskSuspend p)).comp Goods.stock n cfg s
  | taskResume p => exact (keeps_errOnly (keeps_goods_osTaskResume p)).comp Goods.stock n cfg s
  | taskChangePrio p prioNew => exact (keeps_errOnly (keeps_goods_osTaskChangePrio p prioNew)).comp Goods.stock n cfg s
  | taskTimeQuantaSet p q => exact (keeps_errOnly (keeps_goods_osTaskTimeQuantaSet p q)).comp Goods.stock n cfg s
  | taskSemPend timeout opt => exact (keeps_goods_osTaskSemPend timeout opt).comp Goods.stock n cfg s
  | taskSemPendAbort p opt => exact (keeps_always (keeps_goods_taskPendAbort .taskSem p opt)).comp Goods.stock n cfg s
  | taskSemPost p opt => exact (keeps_always (keeps_goods_osTaskSemPost p opt)).comp Goods.stock n cfg s
  | taskSemSet p cnt => exact (keeps_always (keeps_goods_osTaskSemSet p cnt)).comp Goods.stock n cfg s
  | taskQPend timeout opt hasSize => exact keeps_stock_osTaskQPend timeout opt hasSize n cfg s
  | taskQPendAbort p opt => exact (keeps_always (keeps_goods_taskPendAbort .taskQ p opt)).comp Goods.stock n cfg s
  | taskQPost p pVoid msgSize opt => exact keeps_errOnly (keeps_stock_osTaskQPost p pVoid msgSize opt) n cfg s
  | taskQFlush p => exact keeps_always (keeps_stock_osTaskQFlush p) n cfg s
  | semPendAbort p opt => exact (keeps_always (keeps_goods_objPendAbort .sem p opt)).comp Goods.stock n cfg s
  | qPendAbort p opt => exact (keeps_always (keeps_goods_objPendAbort .q p opt)).comp Goods.stock n cfg s
  | qPend p timeout opt hasSize => exact keeps_stock_osQPend p timeout opt hasSize n cfg s
  | qPost p pVoid msgSize opt => exact keeps_errOnly (keeps_stock_osQPost p pVoid msgSize opt) n cfg s
  | mutexPend p timeout opt => exact keeps_osMutexPend Goods.noOwners_stock p timeout opt n cfg s
  | mutexPost p opt => exact keeps_errOnly (keeps_osMutexPost Goods.noOwners_stock p opt) n cfg s
  | flagPendGetFlagsRdy =>
    refine keeps_always (v := OS.stock) (keeps_bind keeps_get fun _ => keeps_ite (keeps_pure _) ?_) n cfg s
    exact keeps_bind keeps_getCur fun t => keeps_bind (keeps_getTcb t) fun _ => keeps_pure _
  | timeDly dly opt => exact (keeps_errOnly (keeps_goods_osTimeDly dly opt)).comp Goods.stock n cfg s
  | timeDlyHMSM a opt => exact (keeps_errOnly (keeps_goods_osTimeDlyHMSM a opt)).comp Goods.stock n cfg s
  | timeGet => exact keeps_always (v := OS.stock) (keeps_bind keeps_get fun _ => keeps_pure _) n cfg s
  | timeSet ticks =>
    have hset : Keeps OS.stock (osTimeSet ticks) := keeps_bind (keeps_modify fun _ => rfl) fun _ => keeps_pure _
    exact keeps_errOnly hset n cfg s
  | schedLock => exact (keeps_errOnly keeps_goods_osSchedLock).comp Goods.stock n cfg s
  | schedUnlock => exact (keeps_errOnly keeps_goods_osSchedUnlock).comp Goods.stock n cfg s
  | schedRoundRobinCfg en q =>
    refine keeps_errOnly (v := OS.stock) (keeps_bind keeps_ask fun _ => ?_) n cfg s
    exact keeps_bind (keeps_modify fun _ => rfl) fun _ => keeps_pure _
  | schedRoundRobinYield => exact (keeps_errOnly keeps_goods_osSchedRoundRobinYield).comp Goods.stock n cfg s
  | semCreate p cnt =>
    cases p with
    | none => exact wp_errOnly.mpr (wp_create (by rfl) (wp_pure.mpr (by rfl)))
    | some o =>
      refine wp_errOnly.mpr (wp_create (by rfl) ?_)
      rw [wp_bind, wp_modObj]
      exact wp_pure.mpr (OS.stock_modObj _ o)
  | qCreate p maxQty =>
    cases p with
    | none => exact wp_errOnly.mpr (wp_create (by rfl) (wp_pure.mpr (by rfl)))
    | some o =>
      refine wp_errOnly.mpr (wp_create (by rfl) (wp_ite.mpr ⟨fun _ => wp_pure.mpr (by rfl), fun _ => ?_⟩))
      rw [wp_bind, wp_modObj]
      exact wp_pure.mpr (OS.stock_modObj _ o)
  | mutexCreate p =>
    cases p with
    | none => exact wp_errOnly.mpr (wp_create (by rfl) (wp_pure.mpr (by rfl)))
    | some o =>
      refine wp_errOnly.mpr (wp_create (by rfl) ?_)
      rw [wp_bind, wp_ask, wp_bind, wp_modObj]
      exact wp_pure.mpr (OS.stock_modObj _ o)
  | flagCreate p flags =>
    cases p with
    | none => exact wp_errOnly.mpr (wp_create (by rfl) (wp_pure.mpr (by rfl)))
    | some o =>
      refine wp_errOnly.mpr (wp_create (by rfl) ?_)
      rw [wp_bind, wp_modObj]
      exact wp_pure.mpr (OS.stock_modObj _ o)
  | semPend p timeout opt =>
    cases p with
    | none => exact (keeps_bind keeps_get fun _ => keeps_ite (keeps_pure _)
      (keeps_pure _) : Keeps OS.stock (osSemPend none timeout opt)) n cfg s
    | some o => exact osSemPend_deals o timeout opt
  | semPost p opt =>
    cases p with
    | none => exact keeps_always (v := OS.stock) (keeps_pure _) n cfg s
    | some o => exact wp_always.mpr (osSemPost_deals o opt)
  | semSet p cnt =>
    cases p with
    | none => exact keeps_errOnly (v := OS.stock) (keeps_bind keeps_get fun _ => keeps_ite (keeps_pure _)
      (keeps_pure _)) n cfg s
    | some o => exact wp_errOnly.mpr (osSemSet_deals o cnt)
  | flagPend p flags timeout opt =>
    cases p with
    | none => exact (keeps_bind keeps_get fun _ => keeps_ite (keeps_pure _)
      (keeps_pure _) : Keeps OS.stock (osFlagPend none flags timeout opt)) n cfg s
    | some o => exact osFlagPend_deals o flags timeout opt
  | flagPost p flags opt =>
    cases p with
    | none => exact wp_pure.mpr rfl
    | some o => exact osFlagPost_deals o flags opt
  | pendMulti tbl objs timeout opt =>
    cases tbl with
    | none => exact (keeps_bind keeps_get fun _ => keeps_ite (keeps_pure _)
      (keeps_pure _) : Keeps OS.stock (osPendMulti none objs timeout opt)) n cfg s
    | some i => exact osPendMulti_deals i objs timeout opt

theorem Event.exec_deals (e : Event) : wp n cfg e.exec (fun r s' => e.Deals s r s') s := by
  cases e with
  | call c => exact c.exec_deals
  | finish => exact finish_deals
  | start => exact (keeps_errOnly keeps_goods_osStart).comp Goods.stock n cfg s
  | intEnter => exact keeps_bind (v := OS.stock) (keeps_goods_osIntEnter.comp Goods.stock) (fun _ => keeps_pure _) n cfg s
  | intExit => exact keeps_bind (v := OS.stock) (keeps_goods_osIntExit.comp Goods.stock) (fun _ => keeps_pure _) n cfg s
  | timeTick => exact keeps_bind (v := OS.stock) (keeps_goods_osTimeTick.comp Goods.stock) (fun _ => keeps_pure _) n cfg s
  | tickUpdate => exact keeps_bind (v := OS.stock) (keeps_goods_tickListUpdate.comp Goods.stock) (fun _ => keeps_pure _) n cfg s
  | clock ts =>
    have hset : Keeps OS.stock (Event.clock ts).exec := keeps_bind (keeps_modify fun _ => rfl) fun _ => keeps_pure _
    exact hset n cfg s

end events

end UcosIII
