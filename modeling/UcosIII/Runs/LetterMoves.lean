import UcosIII.Abstract.Stock
import UcosIII.Runs.MsgPool

namespace UcosIII

open Prog Chain

def OS.letters (s : OS) (l : QLoc) : List Item := (s.queued l).map s.item

def OS.Mailed (s : OS) (N : ℕ) : Prop := ∃ C, s.Msgs N C

def putLetter (opt : Opt) (x : Item) (L : List Item) : List Item :=
  if opt &&& optPostLifo = optPostFifo then L ++ [x] else x :: L

def OS.rowLetters (s : OS) (d : PdId) (k : ℕ) (o : ObjId) : List Item :=
  (entriesFrom d k).filterMap fun d =>
    if (s.pendData d).rdyObjPtr = some o then
      some ⟨(s.pendData d).rdyMsgPtr, (s.pendData d).rdyMsgSize, (s.pendData d).rdyTS⟩
    else none

/-- The letters that a granted call on several objects has taken from the queue at `l`. -/
def OS.rowsTook (s : OS) (d : PdId) (k : ℕ) : QLoc → List Item
  | .obj o => if (s.obj o).type = .q then s.rowLetters d k o else []
  | .tcb _ => []

def TCB.WaitsLetter (c : TCB) : Prop := c.taskState.isPend = true ∧ c.pendOn = .taskQ

instance (c : TCB) : Decidable c.WaitsLetter := inferInstanceAs (Decidable (_ ∧ _))

def Event.Mails (s : OS) (r : Option Ret) (s' : OS) : Event → Prop
  | .call (.taskDel p) | .call (.taskQFlush p) =>
    if granted r then ∃ t, s.Target p t ∧ s'.letters = Function.update s.letters (.tcb t) [] else s'.letters = s.letters
  | .call (.taskQPend ..) =>
    if granted r then ∃ t x L, s.tcbCurPtr = some t ∧ s.letters (.tcb t) = x :: L ∧ r = some x.ret ∧
      s'.letters = Function.update s.letters (.tcb t) L
    else s'.letters = s.letters ∧ (r = none → ∃ t, s.tcbCurPtr = some t ∧ s.letters (.tcb t) = [])
  | .call (.taskQPost p v z opt) =>
    if granted r then ∃ t, s.Target p t ∧ (s.tcb t).taskState ≠ .del ∧
      s'.letters = if (s.tcb t).WaitsLetter then s.letters
        else Function.update s.letters (.tcb t) (putLetter opt ⟨v, z, s.tsNow⟩ (s.letters (.tcb t)))
    else s'.letters = s.letters
  | .call (.qPend (some o) ..) =>
    if granted r then (s.obj o).type = .q ∧ ∃ x L, s.letters (.obj o) = x :: L ∧ r = some x.ret ∧
      s'.letters = Function.update s.letters (.obj o) L
    else s'.letters = s.letters ∧ (r = none → (s.obj o).type = .q ∧ s.letters (.obj o) = [])
  | .call (.qPost (some o) v z opt) =>
    if granted r then (s.obj o).type = .q ∧ s'.letters = if (s.obj o).pendList.nbrEntries = 0 then
      Function.update s.letters (.obj o) (putLetter opt ⟨v, z, s.tsNow⟩ (s.letters (.obj o))) else s.letters
    else s'.letters = s.letters
  | .call (.pendMulti (some i) objs ..) => ∃ t, (s.intNestingCtr = 0 → s.tcbCurPtr = some t) ∧
    if granted r then ∀ l, s.letters l = s'.rowsTook (t, i) objs.length l ++ s'.letters l
    else s'.letters = s.letters ∧ (r = none → ∀ p ∈ objs, ∀ o ∈ p, (s.obj o).type = .q → s.letters (.obj o) = [])
  | _ => s'.letters = s.letters

def Event.setsUpQ : Event → Option QLoc
  | .call (.qCreate (some o) _) => some (.obj o)
  | .call (.taskCreate a) => a.tcb.map .tcb
  | _ => none

variable {N n : ℕ} {cfg : Cfg} {s s' s₁ : OS} {l : QLoc} {C : Option QLoc → List MsgId} {t : TcbId} {o : ObjId}

section views

theorem OS.Msgs.queued (h : s.Msgs N C) (l : QLoc) : s.queued l = C (some l) := by
  rw [OS.queued, h.nbr]
  exact (h.leads l).walk_eq

theorem OS.Msgs.letters (h : s.Msgs N C) (l : QLoc) : s.letters l = (C (some l)).map s.item := by
  rw [OS.letters, h.queued]

theorem OS.Msgs.deqs (h : s.Msgs N C) :
    Deqs N (fun l => (s.msgQ l).nbrEntriesSize) s C ⟨s.letters, (C none).length⟩ :=
  ⟨h, fun _ => rfl, h.letters, rfl⟩

theorem Deqs.mailed {cap : QLoc → ℕ} {D : Deques} (h : Deqs N cap s C D) : s.Mailed N ∧ s.letters = D.contents := by
  refine ⟨⟨C, h.msgs⟩, ?_⟩
  funext l
  rw [h.contents, h.msgs.letters]

structure MsgStore where
  msg : MsgId → Msg
  pool : MsgPool
  q : QLoc → MsgQ

def OS.msgStore (s : OS) : MsgStore := ⟨s.msg, s.msgPool, s.msgQ⟩

def Goods.msgStore (g : Goods) : MsgStore where
  msg := g.msg
  pool := g.msgPool
  q
    | .obj o => (g.obj o).msgQ
    | .tcb t => g.msgQ t

theorem OS.goods_msgStore (s : OS) : s.goods.msgStore = s.msgStore := by
  have hq : s.goods.msgStore.q = s.msgQ := by
    funext l
    cases l <;> rfl
  change (⟨s.msg, s.msgPool, s.goods.msgStore.q⟩ : MsgStore) = _
  rw [hq]
  rfl

theorem OS.item_of_msgStore (h : s'.msgStore = s.msgStore) : s'.item = s.item := by
  have hmsg : s'.msg = s.msg := congrArg MsgStore.msg h
  funext m
  rw [OS.item, hmsg]
  rfl

theorem OS.msgNext_of_msgStore (h : s'.msgStore = s.msgStore) : s'.msgNext = s.msgNext := by
  have hmsg : s'.msg = s.msg := congrArg MsgStore.msg h
  funext m
  rw [OS.msgNext, hmsg]
  rfl

theorem OS.letters_of_msgStore (h : s'.msgStore = s.msgStore) : s'.letters = s.letters := by
  have hq : s'.msgQ = s.msgQ := congrArg MsgStore.q h
  funext l
  simp only [OS.letters, OS.queued, hq]
  rw [OS.msgNext_of_msgStore h, OS.item_of_msgStore h]

theorem OS.Msgs.of_msgStore (hC : s.Msgs N C) (h : s'.msgStore = s.msgStore) : s'.Msgs N C := by
  have hpool : s'.msgPool = s.msgPool := congrArg MsgStore.pool h
  have hq : s'.msgQ = s.msgQ := congrArg MsgStore.q h
  rwa [OS.Msgs, OS.msgNext_of_msgStore h, hpool, hq]

theorem OS.Mailed.of_msgStore (hM : s.Mailed N) (h : s'.msgStore = s.msgStore) : s'.Mailed N := by
  obtain ⟨C, hC⟩ := hM
  exact ⟨C, hC.of_msgStore h⟩

theorem keeps_msgStore_of_goods {α : Type} {m : K α} (h : Keeps OS.goods m) : Keeps OS.msgStore m := by
  intro n cfg s
  refine (h.comp Goods.msgStore n cfg s).mono fun _ s' hs => ?_
  change s'.goods.msgStore = s.goods.msgStore at hs
  rwa [OS.goods_msgStore, OS.goods_msgStore] at hs

end views

section operations

theorem msgQGet_letters (h : s.Mailed N) (l : QLoc) : wp n cfg (msgQGet (s.msgQ l)) (fun x s₁ =>
    (s₁.setMsgQ l x.1).Mailed N ∧ (s.letters l = [] ∧ x.2 = { err := .qEmpty } ∧ (s₁.setMsgQ l x.1).letters = s.letters ∨
      ∃ y L, s.letters l = y :: L ∧ x.2 = y.ret ∧ (s₁.setMsgQ l x.1).letters = Function.update s.letters l L)) s := by
  obtain ⟨C, hC⟩ := h
  rintro ⟨q, r⟩ s₁ hrun
  have hexec : (MsgOp.get l).exec n cfg s = some (r, s₁.setMsgQ l q) := by simp [MsgOp.exec, hrun]
  obtain ⟨s', C', hget, hD⟩ : ∃ s' C', (MsgOp.get l).exec n cfg s = some (_, s') ∧ _ := hC.deqs.get
  rw [hexec] at hget
  obtain ⟨rfl, rfl⟩ := Prod.mk.inj (Option.some.inj hget)
  obtain ⟨hM, hL⟩ := hD.mailed
  refine ⟨hM, ?_⟩
  cases hs : s.letters l with
  | nil =>
    simp only [Deques.step, hs] at hL ⊢
    exact .inl ⟨trivial, trivial, hL⟩
  | cons y L =>
    simp only [Deques.step, hs] at hL ⊢
    exact .inr ⟨y, L, rfl, rfl, hL⟩

theorem msgQPut_letters (h : s.Mailed N) (l : QLoc) (x : Item) (opt : Opt) :
    wp n cfg (msgQPut (s.msgQ l) x.ptr x.size opt x.ts) (fun y s₁ => (s₁.setMsgQ l y.1).Mailed N ∧
      (s₁.setMsgQ l y.1).letters =
        if y.2 = .none then Function.update s.letters l (putLetter opt x (s.letters l)) else s.letters) s := by
  obtain ⟨C, hC⟩ := h
  rintro ⟨q, e⟩ s₁ hrun
  have hexec : (MsgOp.put l x opt).exec n cfg s = some ({ err := e }, s₁.setMsgQ l q) := by simp [MsgOp.exec, hrun]
  obtain ⟨s', C', hput, hD, -⟩ : ∃ s' C', (MsgOp.put l x opt).exec n cfg s = some (_, s') ∧ _ := hC.deqs.put x opt
  rw [hexec] at hput
  obtain ⟨he, rfl⟩ := Prod.mk.inj (Option.some.inj hput)
  obtain ⟨hM, hL⟩ := hD.mailed
  refine ⟨hM, ?_⟩
  rw [hL]
  unfold Deques.step at he ⊢
  dsimp only at he ⊢
  split at he
  · rename_i hfull
    obtain rfl : e = .qMax := congrArg Ret.err he
    rw [if_pos hfull, if_neg (by simp)]
  · rename_i hfull
    rw [if_neg hfull]
    split at he
    · rename_i hz
      obtain rfl : e = .msgPoolEmpty := congrArg Ret.err he
      rw [if_pos hz, if_neg (by simp)]
    · rename_i hz
      obtain rfl : e = .none := congrArg Ret.err he
      rw [if_neg hz, if_pos rfl]
      rfl

theorem msgQFreeAll_letters (h : s.Mailed N) (l : QLoc) : wp n cfg (msgQFreeAll (s.msgQ l)) (fun x s₁ =>
    (s₁.setMsgQ l x.1).Mailed N ∧ (s₁.setMsgQ l x.1).letters = Function.update s.letters l []) s := by
  obtain ⟨C, hC⟩ := h
  rintro ⟨q, k⟩ s₁ hrun
  have hexec : (MsgOp.freeAll l).exec n cfg s = some ({ err := .none, val := k }, s₁.setMsgQ l q) := by
    simp [MsgOp.exec, hrun]
  obtain ⟨s', C', hfree, hD⟩ : ∃ s' C', (MsgOp.freeAll l).exec n cfg s = some (_, s') ∧ _ := hC.deqs.freeAll
  rw [hexec] at hfree
  obtain ⟨-, rfl⟩ := Prod.mk.inj (Option.some.inj hfree)
  exact hD.mailed

theorem OS.item_setMsgQ (q : MsgQ) : (s.setMsgQ l q).item = s.item := by cases l <;> rfl

theorem OS.msgNext_setMsgQ (q : MsgQ) : (s.setMsgQ l q).msgNext = s.msgNext := by cases l <;> rfl

theorem OS.msgPool_setMsgQ (q : MsgQ) : (s.setMsgQ l q).msgPool = s.msgPool := by cases l <;> rfl

theorem MsgRep.reset {next : MsgId → Option MsgId} {pool : MsgPool} {Q : QLoc → MsgQ} {q : MsgQ} (h : MsgRep N next pool Q C)
    (hnil : C (some l) = []) (hq : q.nbrEntries = 0) : MsgRep N next pool (Function.update Q l q) C := by
  refine ⟨fun l' => ?_, fun l' hne => ?_, fun l' => ?_, h.free, h.nbrFree, h.total, h.part⟩ <;> by_cases hl' : l' = l
  · rw [hl', hnil]
    trivial
  · rw [Function.update_of_ne hl']
    exact h.leads l'
  · rw [hl', hnil] at hne
    exact absurd rfl hne
  · rw [Function.update_of_ne hl']
    exact h.last l' hne
  · rw [hl', hnil, Function.update_self, hq, List.length_nil]
  · rw [Function.update_of_ne hl']
    exact h.nbr l'

theorem OS.Mailed.reset {q : MsgQ} (h : s.Mailed N) (hl : s.letters l = []) (hq : q.nbrEntries = 0) :
    (s.setMsgQ l q).Mailed N ∧ (s.setMsgQ l q).letters = s.letters := by
  obtain ⟨C, hC⟩ := h
  have hnil : C (some l) = [] := by
    rw [hC.letters] at hl
    exact List.map_eq_nil_iff.mp hl
  have hC' : (s.setMsgQ l q).Msgs N C := by
    rw [OS.Msgs, OS.msgNext_setMsgQ, OS.msgPool_setMsgQ, OS.msgQ_setMsgQ]
    exact MsgRep.reset hC hnil hq
  refine ⟨⟨C, hC'⟩, ?_⟩
  funext l'
  rw [hC'.letters, hC.letters, OS.item_setMsgQ]

def freed (C : Option QLoc → List MsgId) (l : QLoc) : Option QLoc → List MsgId :=
  Function.update (Function.update C (some l) []) none (C (some l) ++ C none)

theorem freed_some (C : Option QLoc → List MsgId) (l l' : QLoc) : freed C l (some l') = if l' = l then [] else C (some l') := by
  rw [freed, Function.update_of_ne (by simp), Function.update_apply]
  simp

theorem msgQFreeAll_msgs (h : s.Msgs N C) (l : QLoc) : wp n cfg (msgQFreeAll (s.msgQ l)) (fun x s₁ =>
    s₁.item = s.item ∧ s₁.noMsgs = s.noMsgs ∧
      MsgRep N s₁.msgNext s₁.msgPool (Function.update s.msgQ l x.1) (freed C l)) s := by
  rintro ⟨q, k⟩ s₁ hrun
  have hn : s₁.noMsgs = s.noMsgs := keeps_noMsgs_msgQFreeAll (s.msgQ l) n cfg s _ _ hrun
  by_cases hL : C (some l) = []
  · have h0 : (s.msgQ l).nbrEntries = 0 := by rw [h.nbr, hL, List.length_nil]
    rw [msgQFreeAll_empty h0] at hrun
    cases hrun
    refine ⟨rfl, rfl, ?_⟩
    have hC : freed C l = C := by
      funext l'
      cases l' with
      | none => rw [freed, Function.update_self, hL, List.nil_append]
      | some l' =>
        rw [freed_some]
        split
        · rename_i hl
          rw [hl, hL]
        · rfl
    rw [Function.update_eq_self, hC]
    exact h
  · obtain ⟨q, s', hfree, -, -, hitem, hrep⟩ :
        ∃ q s', msgQFreeAll (s.msgQ l) n cfg s = some ((q, (C (some l)).length), s') ∧ _ := msgQFreeAll_ok h hL
    rw [hfree] at hrun
    cases hrun
    exact ⟨hitem, hn, hrep⟩

end operations

section tasks

theorem mails_of_store {m : K (Option Ret)} {e : Event} (h : s.Mailed N) (hm : Keeps OS.msgStore m)
    (he : ∀ r s', s'.letters = s.letters → e.Mails s r s') :
    wp n cfg m (fun r s' => s'.Mailed N ∧ e.Mails s r s') s :=
  (hm n cfg s).mono fun r s' hs => ⟨h.of_msgStore hs, he r s' (OS.letters_of_msgStore hs)⟩

theorem OS.letters_goods (hs : s'.goods = s.goods) : s'.letters = s.letters := by
  apply OS.letters_of_msgStore
  rw [← OS.goods_msgStore, ← OS.goods_msgStore, hs]

theorem OS.Mailed.goods (h : s.Mailed N) (hs : s'.goods = s.goods) : s'.Mailed N := by
  apply h.of_msgStore
  rw [← OS.goods_msgStore, ← OS.goods_msgStore, hs]

theorem OS.msgStore_modTcb (f : TCB → TCB) (t : TcbId) :
    (s.modTcb t f).msgStore = (s.setMsgQ (.tcb t) (f (s.tcb t)).msgQ).msgStore := by
  have hq : (s.modTcb t f).msgQ = (s.setMsgQ (.tcb t) (f (s.tcb t)).msgQ).msgQ := by
    rw [OS.msgQ_setMsgQ]
    funext l
    cases l with
    | obj o => rfl
    | tcb x =>
      rw [Function.update_apply]
      change ((s.modTcb t f).tcb x).msgQ = _
      rw [OS.modTcb_tcb]
      split
      · rename_i hx
        rw [if_pos (by rw [hx])]
      · rename_i hx
        rw [if_neg (by simpa using hx)]
        rfl
  change (⟨s.msg, s.msgPool, (s.modTcb t f).msgQ⟩ : MsgStore) = ⟨s.msg, s.msgPool, _⟩
  rw [hq]

theorem OS.msgStore_modObj (f : Obj → Obj) (o : ObjId) :
    (s.modObj o f).msgStore = (s.setMsgQ (.obj o) (f (s.obj o)).msgQ).msgStore := by
  have hq : (s.modObj o f).msgQ = (s.setMsgQ (.obj o) (f (s.obj o)).msgQ).msgQ := by
    rw [OS.msgQ_setMsgQ]
    funext l
    cases l with
    | tcb t => rfl
    | obj x =>
      rw [Function.update_apply]
      change ((s.modObj o f).obj x).msgQ = _
      rw [OS.modObj_obj]
      split
      · rename_i hx
        rw [if_pos (by rw [hx])]
      · rename_i hx
        rw [if_neg (by simpa using hx)]
        rfl
  change (⟨s.msg, s.msgPool, (s.modObj o f).msgQ⟩ : MsgStore) = ⟨s.msg, s.msgPool, _⟩
  rw [hq]

theorem keeps_msgStore_modObj {f : Obj → Obj} (hf : ∀ b, (f b).msgQ = b.msgQ) (o : ObjId) :
    Keeps OS.msgStore (modObj o f) := by
  apply keeps_modify
  intro s
  rw [OS.msgStore_modObj, hf]
  exact congrArg OS.msgStore (OS.setMsgQ_self s (.obj o))

theorem OS.msgStore_setMsgQ (q : MsgQ) : (s.setMsgQ l q).msgStore = ⟨s.msg, s.msgPool, Function.update s.msgQ l q⟩ := by
  have hrest : (s.setMsgQ l q).msg = s.msg ∧ (s.setMsgQ l q).msgPool = s.msgPool := by cases l <;> exact ⟨rfl, rfl⟩
  rw [OS.msgStore, hrest.1, hrest.2, OS.msgQ_setMsgQ]

theorem OS.Mailed.setUpTcb {f : TCB → TCB} (h : s.Mailed N) (ht : s.letters (.tcb t) = [])
    (hf : ∀ c, (f c).msgQ.nbrEntries = 0) : (s.modTcb t f).Mailed N ∧ (s.modTcb t f).letters = s.letters := by
  obtain ⟨h', hl⟩ := h.reset ht (hf (s.tcb t))
  have hsame := OS.msgStore_modTcb (s := s) f t
  exact ⟨h'.of_msgStore hsame, (OS.letters_of_msgStore hsame).trans hl⟩

theorem taskStart_letters (h : s.Mailed N) (t : TcbId) (a : TaskArgs) (ht : s.letters (.tcb t) = []) :
    wp n cfg (taskStart t a) (fun _ s' => s'.Mailed N ∧ s'.letters = s.letters) s := by
  rw [taskStart, wp_bind, taskInitTCB, wp_bind, wp_ask, wp_modTcb, wp_bind, wp_get, wp_bind, wp_modTcb, wp_bind]
  obtain ⟨h₁, hl₁⟩ := h.setUpTcb (f := fun _ => TCB.init cfg) ht (by intro c; rfl)
  obtain ⟨h₂, hl₂⟩ := h₁.setUpTcb (t := t) (f := fun c =>
    { c with
      prio := a.prio
      timeQuanta := a.timeQuanta
      timeQuantaCtr := if a.timeQuanta = 0 then (s.modTcb t fun _ => TCB.init cfg).schedRoundRobinDfltTimeQuanta
        else a.timeQuanta
      msgQ := MsgQ.init a.qSize }) (by rw [hl₁, ht]) (by intro c; rfl)
  refine ((keeps_prioInsert a.prio).comp OS.goods n cfg _).mono fun _ s₃ h₃ => ?_
  refine ((keeps_rdyListInsertTail t).comp OS.goods n cfg s₃).mono fun _ s₄ h₄ => ?_
  have hs : s₄.goods = _ := h₄.trans h₃
  exact ⟨h₂.goods hs, (OS.letters_goods hs).trans (hl₂.trans hl₁)⟩

theorem osTaskCreate_letters (h : s.Mailed N) (a : TaskArgs) (ha : ∀ t ∈ a.tcb, s.letters (.tcb t) = []) :
    wp n cfg (osTaskCreate a) (fun _ s' => s'.Mailed N ∧ s'.letters = s.letters) s := by
  rw [osTaskCreate, wp_bind, wp_ask, wp_bind, wp_get]
  cases hc : taskCreateCheck cfg s a with
  | inl e => exact wp_pure.mpr ⟨h, rfl⟩
  | inr t =>
    have ht : a.tcb = some t := by
      unfold taskCreateCheck at hc
      cases hp : a.tcb with
      | none =>
        rw [hp] at hc
        split at hc <;> cases hc
      | some u =>
        rw [hp] at hc
        dsimp only at hc
        repeat' split at hc
        all_goals first | cases hc; rfl | cases hc
    dsimp only
    rw [wp_bind]
    refine (taskStart_letters h t a (ha t ht)).mono fun _ s₁ h₁ => ?_
    rw [wp_bind, wp_get]
    refine wp_ite.mpr ⟨fun _ => wp_pure.mpr h₁, fun _ => ?_⟩
    rw [wp_bind]
    refine (keeps_goods_osSched n cfg s₁).mono fun _ s₂ h₂ => wp_pure.mpr ?_
    exact ⟨h₁.1.goods h₂, (OS.letters_goods h₂).trans h₁.2⟩

theorem keeps_goods_taskUnlink (t : TcbId) : Keeps OS.goods (taskUnlink t) := by
  refine keeps_bind (keeps_getTcb t) fun c => ?_
  cases c.taskState with
  | rdy => exact keeps_goods_rdyListRemove t
  | suspended | del => exact keeps_pure _
  | dly | dlySuspended => exact keeps_goods_tickListRemove t
  | pend | pendSuspended | pendTimeout | pendTimeoutSuspended =>
    refine keeps_bind (keeps_goods_tickListRemove t) fun _ => ?_
    cases c.pendOn with
    | nothing | taskQ | taskSem => exact keeps_pure _
    | flag | multi | mutex | q | sem => exact keeps_goods_pendListRemove t

theorem osTaskDel_msgs (h : s.Msgs N C) (p : Option TcbId) : wp n cfg (osTaskDel p) (fun x s' =>
    if x = .none then ∃ t, s.Target p t ∧ s'.item = s.item ∧ s'.Msgs N (freed C (.tcb t)) else s' = s) s := by
  rw [osTaskDel, wp_bind, wp_get]
  refine wp_ite.mpr ⟨fun _ => wp_pure.mpr (by simp), fun _ => wp_ite.mpr ⟨fun _ => wp_pure.mpr (by simp), fun _ => ?_⟩⟩
  rw [wp_bind, wp_target]
  intro t ht
  rw [wp_bind, wp_getTcb]
  refine wp_ite.mpr ⟨fun _ => wp_pure.mpr (by simp), fun _ => ?_⟩
  rw [wp_bind, taskErase, wp_bind]
  refine (keeps_msgStore_of_goods (keeps_goods_taskUnlink t) n cfg s).mono fun _ s₁ hs₁ => ?_
  have h₁ : s₁.Msgs N C := h.of_msgStore hs₁
  rw [wp_bind, wp_getTcb, wp_bind]
  refine (msgQFreeAll_msgs h₁ (.tcb t)).mono ?_
  rintro ⟨q, k⟩ s₂ ⟨hitem, hn, hrep⟩
  have hq₂ : s₂.msgQ = s₁.msgQ := by
    funext l
    cases l with
    | obj o => exact (congrArg (fun x : OS => (x.obj o).msgQ) hn :)
    | tcb u => exact (congrArg (fun x : OS => (x.tcb u).msgQ) hn :)
  rw [wp_bind, taskInitTCB, wp_bind, wp_ask, wp_modTcb, wp_bind, wp_modTcb, wp_modify, wp_bind]
  refine (keeps_msgStore_of_goods keeps_goods_osSched n cfg _).mono fun _ s₃ hs₃ => wp_pure.mpr ?_
  -- The queue that has been given up is not stored: the control block is wiped.
  have hstore : s₃.msgStore = ⟨s₂.msg, s₂.msgPool, Function.update s₂.msgQ (.tcb t) (MsgQ.init 0)⟩ := by
    refine hs₃.trans ?_
    change (OS.modTcb (OS.modTcb s₂ t fun _ => TCB.init cfg) t fun c => { c with taskState := .del }).msgStore = _
    rw [OS.msgStore_modTcb, OS.msgStore_setMsgQ]
    have hq : (OS.modTcb s₂ t fun _ => TCB.init cfg).msgQ = Function.update s₂.msgQ (.tcb t) (MsgQ.init 0) := by
      have := congrArg MsgStore.q (OS.msgStore_modTcb (s := s₂) (fun _ => TCB.init cfg) t)
      rw [OS.msgStore_setMsgQ] at this
      exact this
    rw [hq, Function.update_idem, OS.modTcb_tcb, if_pos rfl]
    rfl
  have hreset := hrep.reset (l := .tcb t) (q := MsgQ.init 0) (by rw [freed_some, if_pos rfl]) rfl
  rw [Function.update_idem, ← hq₂] at hreset
  have hmsgs : (OS.setMsgQ s₂ (.tcb t) (MsgQ.init 0)).Msgs N (freed C (.tcb t)) := by
    rw [OS.Msgs, OS.msgNext_setMsgQ, OS.msgPool_setMsgQ, OS.msgQ_setMsgQ]
    exact hreset
  have hsame : s₃.msgStore = (OS.setMsgQ s₂ (.tcb t) (MsgQ.init 0)).msgStore := by rw [hstore, OS.msgStore_setMsgQ]
  rw [if_pos rfl]
  refine ⟨t, ht, ?_, hmsgs.of_msgStore hsame⟩
  rw [OS.item_of_msgStore hsame, OS.item_setMsgQ, hitem, OS.item_of_msgStore hs₁]

theorem osTaskDel_letters (h : s.Mailed N) (p : Option TcbId) : wp n cfg (osTaskDel p) (fun x s' => s'.Mailed N ∧
    Event.Mails s (some { err := x }) s' (.call (.taskDel p))) s := by
  obtain ⟨C, hC⟩ := h
  refine (osTaskDel_msgs hC p).mono fun x s' h' => ?_
  by_cases hx : x = .none
  · rw [if_pos hx] at h'
    obtain ⟨t, ht, hitem, hmsgs⟩ := h'
    refine ⟨⟨_, hmsgs⟩, ?_⟩
    rw [Event.Mails, if_pos (by simpa [granted] using hx)]
    refine ⟨t, ht, ?_⟩
    funext l
    rw [hmsgs.letters, freed_some, Function.update_apply, hitem]
    split
    · rfl
    · rw [hC.letters]
  · rw [if_neg hx] at h'
    subst h'
    refine ⟨⟨C, hC⟩, ?_⟩
    rw [Event.Mails, if_neg (by simpa [granted] using hx)]

theorem osTaskQFlush_letters (h : s.Mailed N) (p : Option TcbId) : wp n cfg (osTaskQFlush p) (fun x s' => s'.Mailed N ∧
    Event.Mails s (some x) s' (.call (.taskQFlush p))) s := by
  rw [osTaskQFlush, wp_bind, wp_get]
  refine wp_ite.mpr ⟨fun _ => wp_pure.mpr ⟨h, ?_⟩, fun _ => ?_⟩
  · rw [Event.Mails, if_neg (by simp [granted])]
  rw [wp_bind, wp_target]
  intro t ht
  rw [wp_bind, wp_getTcb, wp_bind]
  refine (msgQFreeAll_letters h (.tcb t)).mono ?_
  rintro ⟨q, k⟩ s₁ ⟨h₁, hl₁⟩
  rw [wp_bind, wp_modTcb]
  refine wp_pure.mpr ⟨h₁, ?_⟩
  rw [Event.Mails, if_pos (by rfl)]
  exact ⟨t, ht, hl₁⟩

theorem osTaskQPend_letters (h : s.Mailed N) (timeout : Tick) (opt : Opt) (hasSize : Bool) :
    wp n cfg (osTaskQPend timeout opt hasSize) (fun r s' => s'.Mailed N ∧
      Event.Mails s r s' (.call (.taskQPend timeout opt hasSize))) s := by
  have href (x : Ret) (hx : x.err ≠ .none) (s' : OS) (h' : s'.Mailed N) (hl : s'.letters = s.letters) :
      s'.Mailed N ∧ Event.Mails s (some x) s' (.call (.taskQPend timeout opt hasSize)) := by
    refine ⟨h', ?_⟩
    rw [Event.Mails, if_neg (by simpa [granted] using hx)]
    exact ⟨hl, by simp⟩
  rw [osTaskQPend, wp_bind, wp_get]
  refine wp_ite.mpr ⟨fun _ => wp_pure.mpr (href _ (by simp) s h rfl), fun _ => ?_⟩
  refine wp_ite.mpr ⟨fun _ => wp_pure.mpr (href _ (by simp) s h rfl), fun _ => ?_⟩
  refine wp_ite.mpr ⟨fun _ => wp_pure.mpr (href _ (by simp) s h rfl), fun _ => ?_⟩
  rw [wp_bind, wp_getCur]
  intro t ht
  rw [wp_bind, wp_getTcb, wp_bind]
  refine (msgQGet_letters h (.tcb t)).mono ?_
  rintro ⟨q, r⟩ s₁ ⟨h₁, ⟨hnil, rfl, hl₁⟩ | ⟨y, L, hy, rfl, hl₁⟩⟩
  · rw [wp_bind, wp_modTcb]
    dsimp only
    refine wp_ite.mpr ⟨(fun he => by cases he), fun _ => ?_⟩
    refine wp_ite.mpr ⟨fun _ => wp_pure.mpr (href _ (by simp) _ h₁ hl₁), fun _ => ?_⟩
    refine wp_ite.mpr ⟨fun _ => wp_pure.mpr (href _ (by simp) _ h₁ hl₁), fun _ => ?_⟩
    refine ((keeps_goods_pendThen none .taskQ timeout .taskQPend n cfg _).and (pendThen_file none .taskQ timeout .taskQPend)).mono ?_
    rintro _ s₂ ⟨hs₂, rfl, -⟩
    refine ⟨h₁.goods hs₂, ?_⟩
    rw [Event.Mails, if_neg (by simp [granted])]
    exact ⟨(OS.letters_goods hs₂).trans hl₁, fun _ => ⟨t, ht, hnil⟩⟩
  · rw [wp_bind, wp_modTcb]
    refine wp_ite.mpr ⟨fun _ => wp_pure.mpr ⟨h₁, ?_⟩, fun he => absurd rfl he⟩
    rw [Event.Mails, if_pos (by rfl)]
    exact ⟨t, y, L, ht, hy, rfl, hl₁⟩

theorem osTaskQPost_letters (h : s.Mailed N) (p : Option TcbId) (pVoid : Option ℕ) (msgSize : ℕ) (opt : Opt) :
    wp n cfg (osTaskQPost p pVoid msgSize opt) (fun x s' => s'.Mailed N ∧
      Event.Mails s (some { err := x }) s' (.call (.taskQPost p pVoid msgSize opt))) s := by
  have href (x : Err) (hx : x ≠ .none) (s' : OS) (h' : s'.Mailed N) (hl : s'.letters = s.letters) :
      s'.Mailed N ∧ Event.Mails s (some { err := x }) s' (.call (.taskQPost p pVoid msgSize opt)) := by
    refine ⟨h', ?_⟩
    rw [Event.Mails, if_neg (by simpa [granted] using hx)]
    exact hl
  rw [osTaskQPost]
  refine wp_ite.mpr ⟨fun _ => wp_pure.mpr (href _ (by simp) s h rfl), fun _ => ?_⟩
  rw [wp_bind, wp_tsGet, taskQPost, wp_bind, wp_target]
  intro t ht
  rw [wp_bind, wp_getTcb]
  have hput (hdel : (s.tcb t).taskState ≠ .del) (hno : ¬ (s.tcb t).WaitsLetter) :
      wp n cfg (taskQPut t pVoid msgSize opt s.tsNow) (fun x s' => s'.Mailed N ∧
        Event.Mails s (some { err := x }) s' (.call (.taskQPost p pVoid msgSize opt))) s := by
    rw [taskQPut, wp_bind, wp_getTcb, wp_bind]
    refine (msgQPut_letters h (.tcb t) ⟨pVoid, msgSize, s.tsNow⟩ opt).mono ?_
    rintro ⟨q, e⟩ s₁ ⟨h₁, hl₁⟩
    rw [wp_bind, wp_modTcb]
    dsimp only at hl₁
    by_cases he : e = .none
    · subst he
      rw [if_pos rfl] at hl₁
      refine wp_pure.mpr ⟨h₁, ?_⟩
      rw [Event.Mails, if_pos (by rfl)]
      refine ⟨t, ht, hdel, ?_⟩
      rw [if_neg hno]
      exact hl₁
    · rw [if_neg he] at hl₁
      exact wp_pure.mpr (href e he _ h₁ hl₁)
  have hlong (hst : (s.tcb t).taskState.isPend = true) (hdel : (s.tcb t).taskState ≠ .del) : wp n cfg (do
      if (s.tcb t).pendOn = .taskQ then
        post none t pVoid msgSize s.tsNow
        schedOpt opt
        return .none
      else taskQPut t pVoid msgSize opt s.tsNow) (fun x s' => s'.Mailed N ∧
        Event.Mails s (some { err := x }) s' (.call (.taskQPost p pVoid msgSize opt))) s := by
    refine wp_ite.mpr ⟨fun hon => ?_, fun hon => hput hdel fun hw => hon hw.2⟩
    rw [wp_bind]
    refine (keeps_goods_post none t pVoid msgSize s.tsNow n cfg s).mono fun _ s₁ hs₁ => ?_
    rw [wp_bind]
    refine (keeps_goods_schedOpt opt n cfg s₁).mono fun _ s₂ hs₂ => wp_pure.mpr ?_
    have hs := hs₂.trans hs₁
    refine ⟨h.goods hs, ?_⟩
    rw [Event.Mails, if_pos (by rfl)]
    refine ⟨t, ht, hdel, ?_⟩
    rw [if_pos ⟨hst, hon⟩]
    exact OS.letters_goods hs
  cases hst : (s.tcb t).taskState with
  | rdy | dly | suspended | dlySuspended =>
    refine hput (by rw [hst]; simp) fun hw => ?_
    have := hw.1
    rw [hst] at this
    cases this
  | pend | pendTimeout | pendSuspended | pendTimeoutSuspended => exact hlong (by rw [hst]; rfl) (by rw [hst]; simp)
  | del => exact wp_pure.mpr (href _ (by simp) s h rfl)

end tasks

end UcosIII
