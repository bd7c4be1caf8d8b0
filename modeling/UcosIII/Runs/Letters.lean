import UcosIII.Runs.LetterMoves

namespace UcosIII

open Prog Chain

variable {N n : ℕ} {cfg : Cfg} {s s' s₁ : OS} {l : QLoc} {C : Option QLoc → List MsgId} {t : TcbId} {o : ObjId}

section objects

theorem osQCreate_letters (h : s.Mailed N) (o : ObjId) (maxQty : ℕ) (ho : s.letters (.obj o) = []) :
    wp n cfg (osQCreate (some o) maxQty) (fun _ s' => s'.Mailed N ∧ s'.letters = s.letters) s := by
  rw [osQCreate]
  refine wp_create ⟨h, rfl⟩ (wp_ite.mpr ⟨fun _ => wp_pure.mpr ⟨h, rfl⟩, fun _ => ?_⟩)
  rw [wp_bind, wp_modObj]
  obtain ⟨h', hl⟩ := h.reset (q := MsgQ.init maxQty) ho rfl
  have hsame : (s.modObj o fun b => { b with type := .q, msgQ := MsgQ.init maxQty, pendList := pendListEmpty }).msgStore =
      (s.setMsgQ (.obj o) (MsgQ.init maxQty)).msgStore := OS.msgStore_modObj _ o
  exact wp_pure.mpr ⟨h'.of_msgStore hsame, (OS.letters_of_msgStore hsame).trans hl⟩

theorem osQPend_letters (h : s.Mailed N) (o : ObjId) (timeout : Tick) (opt : Opt) (hasSize : Bool) :
    wp n cfg (osQPend (some o) timeout opt hasSize) (fun r s' => s'.Mailed N ∧
      Event.Mails s r s' (.call (.qPend (some o) timeout opt hasSize))) s := by
  have href (x : Ret) (hx : x.err ≠ .none) (s' : OS) (h' : s'.Mailed N) (hl : s'.letters = s.letters) :
      s'.Mailed N ∧ Event.Mails s (some x) s' (.call (.qPend (some o) timeout opt hasSize)) := by
    refine ⟨h', ?_⟩
    rw [Event.Mails, if_neg (by simpa [granted] using hx)]
    exact ⟨hl, by simp⟩
  rw [osQPend.eq_def, wp_bind, wp_get]
  refine wp_ite.mpr ⟨fun _ => wp_pure.mpr (href _ (by simp) s h rfl), fun _ => ?_⟩
  dsimp only
  refine wp_ite.mpr ⟨fun _ => wp_pure.mpr (href _ (by simp) s h rfl), fun _ => ?_⟩
  refine wp_ite.mpr ⟨fun _ => wp_pure.mpr (href _ (by simp) s h rfl), fun _ => ?_⟩
  rw [wp_bind, wp_getObj]
  refine wp_ite.mpr ⟨fun _ => wp_pure.mpr (href _ (by simp) s h rfl), fun htype => ?_⟩
  have htype' : (s.obj o).type = .q := not_not.mp htype
  rw [wp_bind, wp_getObj, wp_bind]
  refine (msgQGet_letters h (.obj o)).mono ?_
  rintro ⟨q, r⟩ s₁ ⟨h₁, ⟨hnil, rfl, hl₁⟩ | ⟨y, L, hy, rfl, hl₁⟩⟩
  · rw [wp_bind, wp_modObj]
    dsimp only
    refine wp_ite.mpr ⟨(fun he => by cases he), fun _ => ?_⟩
    refine wp_ite.mpr ⟨fun _ => wp_pure.mpr (href _ (by simp) _ h₁ hl₁), fun _ => ?_⟩
    refine wp_ite.mpr ⟨fun _ => wp_pure.mpr (href _ (by simp) _ h₁ hl₁), fun _ => ?_⟩
    refine ((keeps_goods_pendThen (some o) .q timeout .qPend n cfg _).and (pendThen_file (some o) .q timeout .qPend)).mono ?_
    rintro _ s₂ ⟨hs₂, rfl, -⟩
    refine ⟨h₁.goods hs₂, ?_⟩
    rw [Event.Mails, if_neg (by simp [granted])]
    exact ⟨(OS.letters_goods hs₂).trans hl₁, fun _ => ⟨htype', hnil⟩⟩
  · rw [wp_bind, wp_modObj]
    dsimp only
    refine wp_ite.mpr ⟨fun _ => wp_pure.mpr ⟨h₁, ?_⟩, fun he => absurd rfl he⟩
    rw [Event.Mails, if_pos (by rfl)]
    exact ⟨htype', y, L, hy, rfl, hl₁⟩

theorem putLetter_postType (opt : Opt) (x : Item) (L : List Item) :
    putLetter (if opt &&& optPostLifo = 0 then optPostFifo else optPostLifo) x L = putLetter opt x L := by
  unfold putLetter
  by_cases hopt : opt &&& optPostLifo = 0
  · rw [if_pos hopt, if_pos (by decide), if_pos (by rw [hopt]; rfl)]
  · rw [if_neg hopt, if_neg (by decide), if_neg (by simpa [optPostFifo] using hopt)]

theorem osQPost_letters (h : s.Mailed N) (o : ObjId) (pVoid : Option ℕ) (msgSize : ℕ) (opt : Opt) :
    wp n cfg (osQPost (some o) pVoid msgSize opt) (fun x s' => s'.Mailed N ∧
      Event.Mails s (some { err := x }) s' (.call (.qPost (some o) pVoid msgSize opt))) s := by
  have href (x : Err) (hx : x ≠ .none) (s' : OS) (h' : s'.Mailed N) (hl : s'.letters = s.letters) :
      s'.Mailed N ∧ Event.Mails s (some { err := x }) s' (.call (.qPost (some o) pVoid msgSize opt)) := by
    refine ⟨h', ?_⟩
    rw [Event.Mails, if_neg (by simpa [granted] using hx)]
    exact hl
  rw [osQPost.eq_def]
  refine wp_ite.mpr ⟨fun _ => wp_pure.mpr (href _ (by simp) s h rfl), fun _ => ?_⟩
  rw [wp_bind, wp_getObj]
  refine wp_ite.mpr ⟨fun _ => wp_pure.mpr (href _ (by simp) s h rfl), fun htype => ?_⟩
  have htype' : (s.obj o).type = .q := not_not.mp htype
  rw [wp_bind, wp_tsGet, qPost, wp_bind, wp_getObj, wp_ite]
  constructor
  · intro h0
    rw [wp_bind]
    refine (msgQPut_letters h (.obj o) ⟨pVoid, msgSize, s.tsNow⟩ _).mono ?_
    rintro ⟨q, e⟩ s₁ ⟨h₁, hl₁⟩
    rw [wp_bind, wp_modObj]
    dsimp only at hl₁
    by_cases he : e = .none
    · subst he
      rw [if_pos rfl, putLetter_postType] at hl₁
      refine wp_pure.mpr ⟨h₁, ?_⟩
      rw [Event.Mails, if_pos (by rfl), if_pos h0]
      exact ⟨htype', hl₁⟩
    · rw [if_neg he] at hl₁
      exact wp_pure.mpr (href e he _ h₁ hl₁)
  · intro h0
    rw [wp_bind]
    refine (keeps_goods_postLoop o pVoid msgSize _ _ _ n cfg s).mono fun _ s₁ hs₁ => ?_
    rw [wp_bind]
    refine (keeps_goods_schedOpt opt n cfg s₁).mono fun _ s₂ hs₂ => wp_pure.mpr ?_
    have hs := hs₂.trans hs₁
    refine ⟨h.goods hs, ?_⟩
    rw [Event.Mails, if_pos (by rfl), if_neg h0]
    exact ⟨htype', OS.letters_goods hs⟩

end objects

section several

def PendData.letter (e : PendData) : Item := ⟨e.rdyMsgPtr, e.rdyMsgSize, e.rdyTS⟩

def OS.RowTakes (s : OS) (d : PdId) (o : ObjId) (b : Bool) (s' : OS) : Prop :=
  if (s.obj o).type = .q then
    if b then ∃ x L, s.letters (.obj o) = x :: L ∧ s'.letters = Function.update s.letters (.obj o) L ∧
      (s'.pendData d).letter = x
    else s'.letters = s.letters ∧ s.letters (.obj o) = []
  else s'.letters = s.letters

theorem OS.RowTakes.took {d : PdId} {b : Bool} (h : s.RowTakes d o b s') (l : QLoc) : s.letters l =
    (if b = true ∧ (s.obj o).type = .q ∧ l = .obj o then [(s'.pendData d).letter] else []) ++ s'.letters l := by
  unfold OS.RowTakes at h
  split at h
  · rename_i hq
    cases b with
    | false => simp [((if_neg Bool.false_ne_true).mp h).1]
    | true =>
      obtain ⟨x, L, hx, hL, rfl⟩ := (if_pos rfl).mp h
      by_cases hl : l = .obj o
      · simp [hl, hq, hx, hL]
      · simp [hl, hL]
  · rename_i hq
    simp [h, hq]

theorem OS.RowTakes.none {d : PdId} (h : s.RowTakes d o false s') :
    s'.letters = s.letters ∧ ((s.obj o).type = .q → s.letters (.obj o) = []) := by
  unfold OS.RowTakes at h
  split at h
  · exact ⟨((if_neg Bool.false_ne_true).mp h).1, fun _ => ((if_neg Bool.false_ne_true).mp h).2⟩
  · rename_i hq
    exact ⟨h, fun hq' => absurd hq' hq⟩

theorem pendMultiGetRdy1_letters (h : s.Mailed N) (d : PdId) : wp n cfg (pendMultiGetRdy1 d) (fun b s' => s'.Mailed N ∧
    ∀ o, (s.pendData d).pendObjPtr = some o → s.RowTakes d o b s') s := by
  rw [pendMultiGetRdy1, wp_bind, wp_modPendData, wp_bind, wp_getPendData, wp_bind, wp_deref]
  intro o ho
  rw [OS.modPendData_pendData, if_pos rfl] at ho
  rw [wp_bind, wp_getObj]
  generalize hs₁ : (s.modPendData d fun e => { e with
    rdyObjPtr := none, rdyMsgPtr := none, rdyMsgSize := 0, rdyTS := 0, nextPtr := none, prevPtr := none,
    tcbPtr := none }) = s₁
  have hgoods : s₁.goods = s.goods := by rw [← hs₁]; rfl
  have hobj : s₁.obj = s.obj := by rw [← hs₁]; rfl
  have h₁ : s₁.Mailed N := h.goods hgoods
  have hl₁ : s₁.letters = s.letters := OS.letters_goods hgoods
  have hone {b : Bool} {s' : OS} (h' : s'.Mailed N) (hQ : s.RowTakes d o b s') : s'.Mailed N ∧
      ∀ o, (s.pendData d).pendObjPtr = some o → s.RowTakes d o b s' := by
    refine ⟨h', fun o' ho' => ?_⟩
    obtain rfl : o = o' := Option.some.inj (ho.symm.trans ho')
    exact hQ
  rw [hobj]
  cases ht : (s.obj o).type with
  | none | flag | mutex =>
    refine wp_pure.mpr (hone h₁ ?_)
    rw [OS.RowTakes, if_neg (by rw [ht]; simp)]
    exact hl₁
  | sem =>
    rw [wp_ite]
    refine ⟨fun _ => ?_, fun _ => wp_pure.mpr (hone h₁ ?_)⟩
    · rw [wp_bind, wp_modObj, wp_bind, wp_modPendData]
      have hsame : (s₁.modObj o fun b => { b with ctr := b.ctr - 1 }).msgStore = s₁.msgStore := by
        rw [OS.msgStore_modObj]
        exact congrArg OS.msgStore (OS.setMsgQ_self s₁ (.obj o))
      refine wp_pure.mpr (hone (h₁.of_msgStore hsame) ?_)
      rw [OS.RowTakes, if_neg (by rw [ht]; simp)]
      exact (OS.letters_of_msgStore hsame).trans hl₁
    · rw [OS.RowTakes, if_neg (by rw [ht]; simp)]
      exact hl₁
  | q =>
    have hq : (s.obj o).msgQ = s₁.msgQ (.obj o) := by
      rw [← hobj]
      rfl
    dsimp only
    rw [wp_bind, hq]
    refine (msgQGet_letters h₁ (.obj o)).mono ?_
    rintro ⟨q, r⟩ s₂ ⟨h₂, ⟨hnil, rfl, hl₂⟩ | ⟨y, L, hy, rfl, hl₂⟩⟩
    · rw [wp_bind, wp_modObj]
      dsimp only
      refine wp_ite.mpr ⟨(fun he => by cases he), fun _ => wp_pure.mpr (hone h₂ ?_)⟩
      rw [OS.RowTakes, if_pos ht, if_neg Bool.false_ne_true, ← hl₁]
      exact ⟨hl₂, hnil⟩
    · rw [wp_bind, wp_modObj]
      refine wp_ite.mpr ⟨fun _ => ?_, fun he => absurd rfl he⟩
      rw [wp_bind, wp_modPendData]
      refine wp_pure.mpr (hone h₂ ?_)
      rw [OS.RowTakes, if_pos ht, if_pos rfl, ← hl₁]
      refine ⟨y, L, hy, hl₂, ?_⟩
      rw [OS.modPendData_pendData, if_pos rfl]
      rfl

theorem OS.rowLetters_succ (d : PdId) (k : ℕ) (o : ObjId) : s.rowLetters d (k + 1) o =
    (if (s.pendData d).rdyObjPtr = some o then [(s.pendData d).letter] else []) ++ s.rowLetters (d.1, d.2 + 1) k o := by
  unfold OS.rowLetters
  rw [entriesFrom, List.filterMap_cons]
  by_cases h : (s.pendData d).rdyObjPtr = some o
  · simp [h, PendData.letter]
  · simp [h]

theorem pendMultiGetRdy_letters (h : s.Mailed N) (k : ℕ) (d : PdId) : wp n cfg (pendMultiGetRdy k d) (fun nbr s' =>
    s'.Mailed N ∧ (∀ x ∉ entriesFrom d k, s'.pendData x = s.pendData x) ∧ (∀ o, (s'.obj o).type = (s.obj o).type) ∧
    (∀ l, s.letters l = s'.rowsTook d k l ++ s'.letters l) ∧
    (nbr = 0 → s'.letters = s.letters ∧ ∀ x ∈ entriesFrom d k, ∀ o ∈ (s.pendData x).pendObjPtr,
      (s.obj o).type = .q → s.letters (.obj o) = [])) s := by
  induction k generalizing d s with
  | zero =>
    refine wp_pure.mpr ⟨h, fun _ _ => rfl, fun _ => rfl, fun l => ?_, fun _ => ⟨rfl, by simp [entriesFrom]⟩⟩
    cases l with
    | tcb t => rfl
    | obj o =>
      rw [OS.rowsTook, OS.rowLetters, entriesFrom]
      split <;> rfl
  | succ k ih =>
    rw [pendMultiGetRdy, wp_bind]
    refine ((pendMultiGetRdy1_stock d).and (pendMultiGetRdy1_letters h d)).mono ?_
    rintro b s₁ ⟨⟨o₁, ho₁, hobj, hother, hrdy, hone⟩, h₁, hl₁⟩
    have hl₁ := hl₁ o₁ ho₁
    have htype₁ (o : ObjId) : (s₁.obj o).type = (s.obj o).type := by
      have hs : (s₁.stock o).type = (s.stock o).type := by
        split at hone
        · cases b with
          | true =>
            rw [if_pos rfl] at hone
            rw [hone.2, Function.update_apply]
            split
            · rename_i ho
              rw [ho]
            · rfl
          | false =>
            rw [if_neg Bool.false_ne_true] at hone
            rw [hone.1]
        · rw [hone]
      exact hs
    rw [wp_bind]
    refine (ih h₁ (d.1, d.2 + 1)).mono ?_
    rintro nbr s₂ ⟨h₂, hother₂, htype₂, hl₂, hnone₂⟩
    have hd : s₂.pendData d = s₁.pendData d := hother₂ d (not_mem_entriesFrom_succ d k)
    refine wp_pure.mpr ⟨h₂, fun x hx => ?_, fun o => (htype₂ o).trans (htype₁ o), fun l => ?_, fun h0 => ?_⟩
    · rw [entriesFrom, List.mem_cons, not_or] at hx
      rw [hother₂ x hx.2, hother x hx.1]
    · have hrow : s₂.rowsTook d (k + 1) l =
          (if b = true ∧ (s.obj o₁).type = .q ∧ l = .obj o₁ then [(s₁.pendData d).letter] else []) ++
            s₂.rowsTook (d.1, d.2 + 1) k l := by
        cases l with
        | tcb t => simp [OS.rowsTook]
        | obj o =>
          unfold OS.rowsTook
          dsimp only
          rw [OS.rowLetters_succ, hd, hrdy, htype₂, htype₁]
          by_cases ho : o = o₁
          · subst ho
            cases b <;> by_cases hq : (s.obj o).type = .q <;> simp [hq]
          · cases b <;> simp [ho, Ne.symm ho]
      rw [hrow, List.append_assoc, ← hl₂]
      exact hl₁.took l
    · cases b with
      | true => simp at h0
      | false =>
        obtain ⟨hs₂, hzero⟩ := hnone₂ (by simpa using h0)
        refine ⟨hs₂.trans hl₁.none.1, ?_⟩
        rw [entriesFrom]
        intro x hx o ho hq
        rcases List.mem_cons.mp hx with rfl | hx
        · obtain rfl : o₁ = o := Option.some.inj (ho₁.symm.trans ho)
          exact hl₁.none.2 hq
        · rw [← hl₁.none.1]
          exact hzero x hx o (by rwa [hobj]) (by rwa [htype₁])

theorem osPendMulti_letters (h : s.Mailed N) (i : ℕ) (objs : List (Option ObjId)) (timeout : Tick) (opt : Opt) :
    wp n cfg (osPendMulti (some i) objs timeout opt) (fun r s' => s'.Mailed N ∧
      Event.Mails s r s' (.call (.pendMulti (some i) objs timeout opt))) s := by
  rw [osPendMulti.eq_def, wp_bind, wp_get, wp_ite]
  constructor
  · intro hint
    refine wp_pure.mpr ⟨h, 0, fun h0 => absurd h0 (by omega), ?_⟩
    rw [if_neg (by simp [granted])]
    exact ⟨rfl, by simp⟩
  intro _
  dsimp only
  rw [wp_bind, wp_getCur]
  intro t ht
  rw [wp_bind]
  refine (storeTable_objs objs (t, i)).mono ?_
  rintro _ s₁ ⟨hgoods, -, hobjs⟩
  have h₁ : s₁.Mailed N := h.goods hgoods
  have hl₁ : s₁.letters = s.letters := OS.letters_goods hgoods
  have htype₁ (o : ObjId) : (s₁.obj o).type = (s.obj o).type :=
    congrArg Stock.type (congrFun (congrArg Goods.stock hgoods : s₁.stock = s.stock) o)
  have href (x : Ret) (hx : x.err ≠ .none) (s' : OS) (h' : s'.Mailed N) (hl' : s'.letters = s.letters) :
      s'.Mailed N ∧ Event.Mails s (some x) s' (.call (.pendMulti (some i) objs timeout opt)) := by
    refine ⟨h', t, fun _ => ht, ?_⟩
    rw [if_neg (by simpa [granted] using hx)]
    exact ⟨hl', by simp⟩
  refine wp_ite.mpr ⟨fun _ => wp_pure.mpr (href _ (by simp) s₁ h₁ hl₁), fun _ =>
    wp_ite.mpr ⟨fun _ => wp_pure.mpr (href _ (by simp) s₁ h₁ hl₁), fun _ => ?_⟩⟩
  rw [wp_bind]
  refine (keeps_pendMultiValidate objs.length (t, i) n cfg s₁ (v := fun s => s)).mono ?_
  rintro ok s₂ hs₂
  change s₂ = s₁ at hs₂
  subst hs₂
  rw [wp_ite]
  refine ⟨fun _ => wp_pure.mpr (href _ (by simp) s₂ h₁ hl₁), fun _ => ?_⟩
  rw [wp_bind]
  refine (pendMultiGetRdy_letters h₁ objs.length (t, i)).mono ?_
  rintro nbr s₃ ⟨h₃, -, htype₃, hl₃, hzero⟩
  rw [wp_ite]
  constructor
  · intro _
    refine wp_pure.mpr ⟨h₃, t, fun _ => ht, ?_⟩
    rw [if_pos (show granted (some { err := .none, val := nbr }) = true from rfl), ← hl₁]
    exact hl₃
  · intro h0
    obtain ⟨hs₃, hzero⟩ := hzero (by omega)
    refine wp_ite.mpr ⟨fun _ => wp_pure.mpr (href _ (by simp) s₃ h₃ (hs₃.trans hl₁)), fun _ =>
      wp_ite.mpr ⟨fun _ => wp_pure.mpr (href _ (by simp) s₃ h₃ (hs₃.trans hl₁)), fun _ => ?_⟩⟩
    rw [wp_bind]
    refine (keeps_goods_pendMultiWait _ _ _ n cfg s₃).mono fun _ s₄ h₄ => ?_
    refine ((keeps_goods_waitThen _ n cfg s₄).and (waitThen_file _)).mono ?_
    rintro _ s₅ ⟨h₅, rfl, -⟩
    have hs₅ := h₅.trans h₄
    refine ⟨h₃.goods hs₅, t, fun _ => ht, ?_⟩
    rw [if_neg (by simp [granted])]
    refine ⟨((OS.letters_goods hs₅).trans hs₃).trans hl₁, fun _ p hp o ho hq => ?_⟩
    rw [← hobjs] at hp
    obtain ⟨x, hx, rfl⟩ := List.mem_map.mp hp
    rw [← hl₁]
    exact hzero x hx o ho (by rwa [htype₁])

end several

section others

theorem Goods.noOwners_msgStore : Goods.NoOwners Goods.msgStore := by
  intro s o f hf
  rw [OS.goods_msgStore, OS.goods_msgStore, OS.msgStore_modObj, (hf _).2.2.2]
  exact congrArg OS.msgStore (OS.setMsgQ_self s (.obj o))

theorem keeps_msgStore_of_view {α : Type} {m : K α} (h : Keeps (fun s : OS => s.goods.msgStore) m) : Keeps OS.msgStore m := by
  intro n cfg s
  refine (h n cfg s).mono fun _ s' hs => ?_
  change s'.goods.msgStore = s.goods.msgStore at hs
  rwa [OS.goods_msgStore, OS.goods_msgStore] at hs

theorem keeps_msgStore_osSemPend (p : Option ObjId) (timeout : Tick) (opt : Opt) :
    Keeps OS.msgStore (osSemPend p timeout opt) := by
  refine keeps_bind keeps_get fun _ => keeps_ite (keeps_pure _) ?_
  cases p with
  | none => exact keeps_pure _
  | some o =>
    refine keeps_ite (keeps_pure _) (keeps_bind (keeps_getObj o) fun _ => keeps_ite (keeps_pure _) (keeps_ite ?_ ?_))
    · exact keeps_bind (keeps_msgStore_modObj (by intro b; rfl) o) fun _ => keeps_pure _
    · exact keeps_ite (keeps_pure _) (keeps_ite (keeps_pure _) (keeps_msgStore_of_goods (keeps_goods_pendThen _ _ _ _)))

theorem keeps_msgStore_osSemPost (p : Option ObjId) (opt : Opt) : Keeps OS.msgStore (osSemPost p opt) := by
  unfold osSemPost
  cases p with
  | none => exact keeps_pure _
  | some o =>
    refine keeps_ite (keeps_pure _) (keeps_bind (keeps_getObj o) fun _ => keeps_ite (keeps_pure _) ?_)
    refine keeps_bind keeps_tsGet fun ts => keeps_bind (keeps_getObj o) fun b => keeps_ite (keeps_ite (keeps_pure _) ?_) ?_
    · exact keeps_bind (keeps_msgStore_modObj (by intro b; rfl) o) fun _ => keeps_pure _
    · refine keeps_bind (keeps_msgStore_of_goods (keeps_goods_postLoop _ _ _ _ _ _)) fun _ => ?_
      refine keeps_bind (keeps_getObj o) fun _ => ?_
      exact keeps_bind (keeps_msgStore_of_goods (keeps_goods_schedOpt opt)) fun _ => keeps_pure _

theorem keeps_msgStore_osSemSet (p : Option ObjId) (cnt : ℕ) : Keeps OS.msgStore (osSemSet p cnt) := by
  refine keeps_bind keeps_get fun _ => keeps_ite (keeps_pure _) ?_
  cases p with
  | none => exact keeps_pure _
  | some o =>
    refine keeps_bind (keeps_getObj o) fun _ => keeps_ite (keeps_pure _) (keeps_ite ?_ (keeps_pure _))
    exact keeps_bind (keeps_msgStore_modObj (by intro b; rfl) o) fun _ => keeps_pure _

theorem keeps_msgStore_osFlagPend (p : Option ObjId) (flags : Flags) (timeout : Tick) (opt : Opt) :
    Keeps OS.msgStore (osFlagPend p flags timeout opt) := by
  refine keeps_bind keeps_get fun _ => keeps_ite (keeps_pure _) ?_
  cases p with
  | none => exact keeps_pure _
  | some o =>
    refine keeps_ite (keeps_pure _) (keeps_bind (keeps_getObj o) fun b => keeps_ite (keeps_pure _) ?_)
    dsimp only
    cases flagsReady (opt &&& optPendFlagMask) b.flags flags with
    | none => exact keeps_pure _
    | some x =>
      obtain ⟨flagsRdy, done⟩ := x
      cases done with
      | true =>
        have hset (x : Option Ret) : Keeps OS.msgStore (do
            modTcb (← getCur) fun c => { c with flagsRdy := flagsRdy }
            return x) :=
          keeps_bind keeps_getCur fun t => keeps_bind
            (keeps_msgStore_of_goods (keeps_goods_modTcb (by intro c; rfl) t)) fun _ => keeps_pure _
        exact keeps_ite (keeps_bind (keeps_msgStore_modObj (by intro b; rfl) o) fun _ => hset _) (hset _)
      | false =>
        exact keeps_ite (keeps_pure _) (keeps_ite (keeps_pure _) (keeps_msgStore_of_goods (keeps_goods_flagBlock _ _ _ _ _)))

theorem keeps_msgStore_osFlagPost (p : Option ObjId) (flags : Flags) (opt : Opt) :
    Keeps OS.msgStore (osFlagPost p flags opt) := by
  unfold osFlagPost
  cases p with
  | none => exact keeps_pure _
  | some o =>
    refine keeps_ite (keeps_pure _) (keeps_bind (keeps_getObj o) fun _ => keeps_ite (keeps_pure _) ?_)
    refine keeps_bind keeps_tsGet fun ts => keeps_ite ?_ ?_ <;>
      exact keeps_bind (keeps_msgStore_modObj (by intro b; rfl) o) fun _ =>
        keeps_msgStore_of_goods (keeps_goods_flagPostRest o opt ts)

theorem keeps_msgStore_finish : Keeps OS.msgStore finish := by
  refine keeps_bind keeps_getCur fun t => keeps_bind keeps_get fun s => keeps_bind (keeps_modify fun _ => rfl) fun _ => ?_
  have hread (k : TCB → K Ret) (hk : ∀ c, Keeps OS.msgStore (k c)) : Keeps OS.msgStore (do k (← getTcb (← getCur))) :=
    keeps_bind keeps_getCur fun x => keeps_bind (keeps_getTcb x) hk
  cases s.cont t with
  | none => exact keeps_pure _
  | semPend o =>
    refine keeps_always (hread _ fun c => keeps_bind (keeps_getObj o) fun b => ?_)
    cases c.pendStatus <;> exact keeps_pure _
  | qPend | taskSemPend | taskQPend | mutexPend o =>
    refine keeps_always (hread _ fun c => ?_)
    cases c.pendStatus <;> exact keeps_pure _
  | flagPost o => exact keeps_always (keeps_bind (keeps_getObj o) fun _ => keeps_pure _)
  | multiPend =>
    refine keeps_always (keeps_bind keeps_getCur fun x => keeps_bind (keeps_getTcb x) fun c => ?_)
    refine keeps_bind (keeps_msgStore_of_goods (keeps_goods_modTcb (by intro c; rfl) x)) fun _ => ?_
    cases c.pendStatus <;> exact keeps_pure _
  | flagPend o mode consume =>
    refine keeps_always (hread _ fun c => ?_)
    cases c.pendStatus with
    | abort | timeout | del => exact keeps_pure _
    | ok =>
      refine keeps_ite (keeps_pure _) (keeps_ite ?_ (keeps_pure _))
      exact keeps_bind (keeps_msgStore_modObj (by intro b; rfl) o) fun _ => keeps_pure _

end others

section events

theorem Call.exec_letters (c : Call) (h : s.Mailed N) (hup : ∀ l ∈ (Event.call c).setsUpQ, s.letters l = []) :
    wp n cfg c.exec (fun r s' => s'.Mailed N ∧ Event.Mails s r s' (.call c)) s := by
  have hg {m : K (Option Ret)} (hm : Keeps OS.goods m) (he : ∀ r s', s'.letters = s.letters → Event.Mails s r s' (.call c)) :
      wp n cfg m (fun r s' => s'.Mailed N ∧ Event.Mails s r s' (.call c)) s :=
    mails_of_store h (keeps_msgStore_of_goods hm) he
  have hcreate {m : K Err} (hm : Keeps OS.msgStore m) (he : ∀ r s', s'.letters = s.letters → Event.Mails s r s' (.call c)) :
      wp n cfg (errOnly do
        if (← Prog.get).intNestingCtr > 0 then return Err.createISR
        m) (fun r s' => s'.Mailed N ∧ Event.Mails s r s' (.call c)) s :=
    mails_of_store h (keeps_errOnly (keeps_bind keeps_get fun _ => keeps_ite (keeps_pure _) hm)) he
  cases c with
  | taskCreate a =>
    refine wp_errOnly.mpr (osTaskCreate_letters h a fun t ht => hup _ ?_)
    exact Option.mem_map.mpr ⟨t, ht, rfl⟩
  | taskDel p => exact wp_errOnly.mpr (osTaskDel_letters h p)
  | taskSuspend p => exact hg (keeps_errOnly (keeps_goods_osTaskSuspend p)) fun _ _ hl => hl
  | taskResume p => exact hg (keeps_errOnly (keeps_goods_osTaskResume p)) fun _ _ hl => hl
  | taskChangePrio p prioNew => exact hg (keeps_errOnly (keeps_goods_osTaskChangePrio p prioNew)) fun _ _ hl => hl
  | taskTimeQuantaSet p q => exact hg (keeps_errOnly (keeps_goods_osTaskTimeQuantaSet p q)) fun _ _ hl => hl
  | taskSemPend timeout opt => exact hg (keeps_goods_osTaskSemPend timeout opt) fun _ _ hl => hl
  | taskSemPendAbort p opt => exact hg (keeps_always (keeps_goods_taskPendAbort .taskSem p opt)) fun _ _ hl => hl
  | taskSemPost p opt => exact hg (keeps_always (keeps_goods_osTaskSemPost p opt)) fun _ _ hl => hl
  | taskSemSet p cnt => exact hg (keeps_always (keeps_goods_osTaskSemSet p cnt)) fun _ _ hl => hl
  | taskQPend timeout opt hasSize => exact osTaskQPend_letters h timeout opt hasSize
  | taskQPendAbort p opt => exact hg (keeps_always (keeps_goods_taskPendAbort .taskQ p opt)) fun _ _ hl => hl
  | taskQPost p pVoid msgSize opt => exact wp_errOnly.mpr (osTaskQPost_letters h p pVoid msgSize opt)
  | taskQFlush p => exact wp_always.mpr (osTaskQFlush_letters h p)
  | semPendAbort p opt => exact hg (keeps_always (keeps_goods_objPendAbort .sem p opt)) fun _ _ hl => hl
  | qPendAbort p opt => exact hg (keeps_always (keeps_goods_objPendAbort .q p opt)) fun _ _ hl => hl
  | flagPendGetFlagsRdy =>
    refine mails_of_store h (keeps_always (keeps_bind keeps_get fun _ => keeps_ite (keeps_pure _) ?_)) fun _ _ hl => hl
    exact keeps_bind keeps_getCur fun t => keeps_bind (keeps_getTcb t) fun _ => keeps_pure _
  | timeDly dly opt => exact hg (keeps_errOnly (keeps_goods_osTimeDly dly opt)) fun _ _ hl => hl
  | timeDlyHMSM a opt => exact hg (keeps_errOnly (keeps_goods_osTimeDlyHMSM a opt)) fun _ _ hl => hl
  | timeGet => exact hg (keeps_always (keeps_bind keeps_get fun _ => keeps_pure _)) fun _ _ hl => hl
  | timeSet ticks =>
    have hset : Keeps OS.goods (osTimeSet ticks) := keeps_bind (keeps_modify fun _ => rfl) fun _ => keeps_pure _
    exact hg (keeps_errOnly hset) fun _ _ hl => hl
  | schedLock => exact hg (keeps_errOnly keeps_goods_osSchedLock) fun _ _ hl => hl
  | schedUnlock => exact hg (keeps_errOnly keeps_goods_osSchedUnlock) fun _ _ hl => hl
  | schedRoundRobinCfg en q =>
    refine hg (keeps_errOnly (keeps_bind keeps_ask fun _ => ?_)) fun _ _ hl => hl
    exact keeps_bind (keeps_modify fun _ => rfl) fun _ => keeps_pure _
  | schedRoundRobinYield => exact hg (keeps_errOnly keeps_goods_osSchedRoundRobinYield) fun _ _ hl => hl
  | semPend p timeout opt => exact mails_of_store h (keeps_msgStore_osSemPend p timeout opt) fun _ _ hl => hl
  | semPost p opt => exact mails_of_store h (keeps_always (keeps_msgStore_osSemPost p opt)) fun _ _ hl => hl
  | semSet p cnt => exact mails_of_store h (keeps_errOnly (keeps_msgStore_osSemSet p cnt)) fun _ _ hl => hl
  | mutexPend p timeout opt =>
    exact mails_of_store h (keeps_msgStore_of_view (keeps_osMutexPend Goods.noOwners_msgStore p timeout opt)) fun _ _ hl => hl
  | mutexPost p opt =>
    refine mails_of_store h (keeps_errOnly (keeps_msgStore_of_view ?_)) fun _ _ hl => hl
    exact keeps_osMutexPost Goods.noOwners_msgStore p opt
  | flagPend p flags timeout opt => exact mails_of_store h (keeps_msgStore_osFlagPend p flags timeout opt) fun _ _ hl => hl
  | flagPost p flags opt => exact mails_of_store h (keeps_msgStore_osFlagPost p flags opt) fun _ _ hl => hl
  | semCreate p cnt =>
    cases p with
    | none => exact hcreate (keeps_pure _) fun _ _ hl => hl
    | some o => exact hcreate (keeps_bind (keeps_msgStore_modObj (by intro b; rfl) o) fun _ => keeps_pure _) fun _ _ hl => hl
  | mutexCreate p =>
    cases p with
    | none => exact hcreate (keeps_pure _) fun _ _ hl => hl
    | some o =>
      refine hcreate (keeps_bind keeps_ask fun _ => ?_) fun _ _ hl => hl
      exact keeps_bind (keeps_msgStore_modObj (by intro b; rfl) o) fun _ => keeps_pure _
  | flagCreate p flags =>
    cases p with
    | none => exact hcreate (keeps_pure _) fun _ _ hl => hl
    | some o => exact hcreate (keeps_bind (keeps_msgStore_modObj (by intro b; rfl) o) fun _ => keeps_pure _) fun _ _ hl => hl
  | qCreate p maxQty =>
    cases p with
    | none => exact hcreate (keeps_pure _) fun _ _ hl => hl
    | some o => exact wp_errOnly.mpr (osQCreate_letters h o maxQty (hup _ rfl))
  | qPend p timeout opt hasSize =>
    cases p with
    | none => exact hg (keeps_bind keeps_get fun _ => keeps_ite (keeps_pure _) (keeps_pure _)) fun _ _ hl => hl
    | some o => exact osQPend_letters h o timeout opt hasSize
  | qPost p pVoid msgSize opt =>
    cases p with
    | none => exact hg (keeps_errOnly (keeps_pure _)) fun _ _ hl => hl
    | some o => exact wp_errOnly.mpr (osQPost_letters h o pVoid msgSize opt)
  | pendMulti tbl objs timeout opt =>
    cases tbl with
    | none => exact hg (keeps_bind keeps_get fun _ => keeps_ite (keeps_pure _) (keeps_pure _)) fun _ _ hl => hl
    | some i => exact osPendMulti_letters h i objs timeout opt

theorem Event.exec_letters (e : Event) (h : s.Mailed N) (hup : ∀ l ∈ e.setsUpQ, s.letters l = []) :
    wp n cfg e.exec (fun r s' => s'.Mailed N ∧ e.Mails s r s') s := by
  have hg {m : K Unit} (hm : Keeps OS.goods m) (he : ∀ r s', s'.letters = s.letters → e.Mails s r s') :
      wp n cfg (noAnswer m) (fun r s' => s'.Mailed N ∧ e.Mails s r s') s :=
    mails_of_store h (keeps_msgStore_of_goods (keeps_bind hm fun _ => keeps_pure _)) he
  cases e with
  | call c => exact c.exec_letters h hup
  | finish => exact mails_of_store h keeps_msgStore_finish fun _ _ hl => hl
  | start => exact mails_of_store h (keeps_msgStore_of_goods (keeps_errOnly keeps_goods_osStart)) fun _ _ hl => hl
  | intEnter => exact hg keeps_goods_osIntEnter fun _ _ hl => hl
  | intExit => exact hg keeps_goods_osIntExit fun _ _ hl => hl
  | timeTick => exact hg keeps_goods_osTimeTick fun _ _ hl => hl
  | tickUpdate => exact hg keeps_goods_tickListUpdate fun _ _ hl => hl
  | clock ts => exact hg (keeps_modify fun _ => rfl) fun _ _ hl => hl

end events

section runs

variable {e : Event} {r : Option Ret}

/-- The event sets up a queue that holds messages: they are lost. -/
def Event.spills (s : OS) (e : Event) : Bool := match e with
  | .call (.qCreate (some o) _) => s.letters (.obj o) ≠ []
  | _ => false

theorem Event.Change.dormant {f f' : File} (hc : e.Change s r t f f') (hd : f'.state = .del) :
    f.state = .del ∨ f' = f.erased := by
  have hwoken (g : File) (st : PendStatus) : (g.woken st).state ≠ .del := by
    change g.state.woken ≠ .del
    unfold TaskState.woken
    split <;> simp
  cases hc.turn with
  | fresh => cases hd
  | erased => exact .inr rfl
  | suspended =>
    obtain ⟨st, c, hs, -, hdel⟩ := f.suspended_shape
    rw [hs] at hd
    exact .inl (hdel hd)
  | resumed =>
    obtain ⟨st, c, hs, -, hdel⟩ := f.resumed_shape
    rw [hs] at hd
    exact .inl (hdel hd)
  | signalled =>
    rcases f.signalled_shape s.tsNow with ⟨-, -, hs⟩ | ⟨-, c, hs⟩
    · rw [hs] at hd
      obtain ⟨tbl, row, x, hp⟩ := File.posted_shape { f with mail := { f.mail with ts := s.tsNow } } none ⟨none, 0, s.tsNow⟩
      rw [hp] at hd
      exact absurd hd (hwoken _ _)
    · rw [hs] at hd
      exact .inl hd
  | @posted o m =>
    obtain ⟨tbl, row, x, hp⟩ := f.posted_shape o m
    rw [hp] at hd
    exact absurd hd (hwoken _ _)
  | flagged => exact absurd hd (hwoken _ _)
  | @aborted o =>
    obtain ⟨tbl, row, x, hp⟩ := f.aborted_shape o s.tsNow
    rw [hp] at hd
    exact absurd hd (hwoken _ _)
  | expired =>
    rcases f.expired_shape s.tsNow with ⟨-, hs⟩ | ⟨st, hs, -, hdel⟩
    · rw [hs] at hd
      exact absurd hd (hwoken _ _)
    · rw [hs] at hd
      exact .inl (hdel hd)
  | delayed => cases hd
  | waits _ _ _ _ _ _ _ _ timed => cases timed <;> cases hd
  | waitsMulti _ _ _ timed => cases timed <;> cases hd
  | semSet | flagPosts | semTaken | msgs | rows | flagsRdy | finished => exact .inl hd

theorem OS.letters_nil (h : (s.msgQ l).nbrEntries = 0) : s.letters l = [] := by
  rw [OS.letters, OS.queued, h]
  rfl

theorem Event.Mails.dormant {e : Event} (hm : e.Mails s r s') (hd : (s.tcb t).taskState = .del)
    (h0 : s.letters (.tcb t) = []) : s'.letters (.tcb t) = [] := by
  have hsame (hl : s'.letters = s.letters) : s'.letters (.tcb t) = [] := by rw [hl, h0]
  have hclear (p : Option TcbId) (hm : if granted r then
      ∃ t, s.Target p t ∧ s'.letters = Function.update s.letters (.tcb t) [] else s'.letters = s.letters) :
      s'.letters (.tcb t) = [] := by
    split at hm
    · obtain ⟨u, -, hl⟩ := hm
      rw [hl, Function.update_apply]
      split
      · rfl
      · exact h0
    · exact hsame hm
  cases e with
  | call c =>
    cases c with
    | taskDel p | taskQFlush p => exact hclear p hm
    | taskQPend timeout opt hasSize =>
      rw [Event.Mails] at hm
      split at hm
      · obtain ⟨u, x, L, -, hx, -, hl⟩ := hm
        rw [hl, Function.update_apply]
        split
        · rename_i hu
          rw [← hu, h0] at hx
          cases hx
        · exact h0
      · exact hsame hm.1
    | taskQPost p v z opt =>
      rw [Event.Mails] at hm
      split at hm
      · obtain ⟨u, -, hu, hl⟩ := hm
        rw [hl]
        split
        · exact h0
        · rw [Function.update_of_ne, h0]
          intro hut
          cases hut
          exact hu hd
      · exact hsame hm
    | qPend p timeout opt hasSize =>
      cases p with
      | none => exact hsame hm
      | some o =>
        rw [Event.Mails] at hm
        split at hm
        · obtain ⟨-, x, L, -, -, hl⟩ := hm
          rw [hl, Function.update_of_ne (by simp), h0]
        · exact hsame hm.1
    | qPost p v z opt =>
      cases p with
      | none => exact hsame hm
      | some o =>
        rw [Event.Mails] at hm
        split at hm
        · rw [hm.2]
          split
          · rw [Function.update_of_ne (by simp), h0]
          · exact h0
        · exact hsame hm
    | pendMulti tbl objs timeout opt =>
      cases tbl with
      | none => exact hsame hm
      | some i =>
        obtain ⟨u, -, hm⟩ := hm
        split at hm
        · have := hm (.tcb t)
          rwa [h0, OS.rowsTook, List.nil_append, eq_comm] at this
        · exact hsame hm.1
    | _ => exact hsame hm
  | _ => exact hsame hm

structure OS.Posted (s : OS) (N : ℕ) : Prop where
  mailed : s.Mailed N
  dormant : ∀ t, (s.tcb t).taskState = .del → s.letters (.tcb t) = []

theorem OS.Posted.setsUp (h : s.Posted N) (he : Enabled s e) (hno : e.spills s = false) (l : QLoc) (hl : l ∈ e.setsUpQ) :
    s.letters l = [] := by
  unfold Event.setsUpQ at hl
  split at hl
  · cases hl
    simpa [Event.spills] using hno
  · rename_i a
    obtain ⟨t, ht, rfl⟩ := Option.mem_map.mp hl
    exact h.dormant t (he.1.1 t ht)
  · cases hl

theorem OS.Posted.step (h : s.Posted N) (he : Enabled s e) (hno : e.spills s = false) (hx : Runs cfg e.exec s r s')
    (hF : Filed s e r s') : s'.Posted N ∧ e.Mails s r s' := by
  obtain ⟨hM, hm⟩ := hx.wp fun n => e.exec_letters h.mailed (h.setsUp he hno)
  refine ⟨⟨hM, fun t hd => ?_⟩, hm⟩
  rcases hF t with hf | hc
  · have hd' : (s.tcb t).taskState = .del := (congrArg File.state hf).symm.trans hd
    exact hm.dormant hd' (h.dormant t hd')
  · rcases hc.dormant hd with hd' | hf
    · exact hm.dormant hd' (h.dormant t hd')
    · exact OS.letters_nil (congrArg File.msgs hf)

theorem boot_leads (cfg : Cfg) (k m : ℕ) (hk : m + k = cfg.msgPoolSize) (hpos : 0 < k) :
    Leads (OS.boot cfg).msgNext (some m) (List.range' m k) := by
  induction k generalizing m with
  | zero => omega
  | succ k ih =>
    refine ⟨rfl, ?_⟩
    rcases Nat.eq_zero_or_pos k with rfl | hk'
    · trivial
    · have hnext : (OS.boot cfg).msgNext m = some (m + 1) := by
        change (if m + 1 < cfg.msgPoolSize then some (m + 1) else none) = _
        rw [if_pos (by omega)]
      rw [hnext]
      exact ih (m + 1) (by omega) hk'

theorem osInit_letters : wp n cfg osInit (fun _ s => s.Mailed cfg.msgPoolSize ∧ ∀ l, s.letters l = []) (OS.boot cfg) := by
  have hboot : (OS.boot cfg).Mailed cfg.msgPoolSize := by
    have hpos : 0 < cfg.msgPoolSize := cfg.msgPoolSize_pos
    have hleads := boot_leads cfg cfg.msgPoolSize 0 (by omega) hpos
    rw [← List.range_eq_range'] at hleads
    have hempty (l : QLoc) : (OS.boot cfg).msgQ l = MsgQ.init 0 := by cases l <;> rfl
    exact ⟨_, MsgRep.fresh hleads hempty⟩
  have h0 (l : QLoc) : (OS.boot cfg).letters l = [] := by cases l <;> exact OS.letters_nil rfl
  have htask (s : OS) (hs : s.Mailed cfg.msgPoolSize ∧ ∀ l, s.letters l = []) (t : TcbId) (prio : ℕ) :
      wp n cfg (kernelTask t prio) (fun _ s' => s'.Mailed cfg.msgPoolSize ∧ ∀ l, s'.letters l = []) s := by
    refine (taskStart_letters hs.1 t _ (hs.2 _)).mono fun _ s' h' => ⟨h'.1, fun l => ?_⟩
    rw [h'.2, hs.2]
  rw [osInit, wp_bind, wp_ask, wp_bind]
  refine (htask _ ⟨hboot, h0⟩ _ _).mono fun _ s₁ h₁ => ?_
  rw [wp_bind]
  refine (htask _ h₁ _ _).mono fun _ s₂ h₂ => ?_
  rw [wp_bind]
  refine (htask _ h₂ _ _).mono fun _ s₃ h₃ => ?_
  exact htask _ h₃ _ _

theorem OS.Posted.init (hx : Runs cfg osInit (OS.boot cfg) () s) : s.Posted cfg.msgPoolSize := by
  obtain ⟨hM, h0⟩ := hx.wp fun n => osInit_letters
  exact ⟨hM, fun t _ => h0 _⟩

theorem run_posted {P : List Step → Step → Prop} {h : List Step} (run : Run cfg P h s)
    (hP : ∀ h x, P h x → ¬ PassedMatch cfg x.pre x.event ∧ x.event.spills x.pre = false) :
    s.Posted cfg.msgPoolSize := by
  refine (run.files_init (I := fun _ s => s.Posted cfg.msgPoolSize) (fun h x hx => (hP h x hx).1)
    (fun s hx _ => .init hx) ?_).2
  intro h s a e r s' a' _ hI he hk hx hF _ _
  exact (hI.step he (hP h _ hk).2 hx hF).1

end runs

end UcosIII
