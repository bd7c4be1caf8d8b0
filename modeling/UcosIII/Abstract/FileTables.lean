import UcosIII.Abstract.FileWaits

namespace UcosIII

open Prog

variable {n : ℕ} {cfg : Cfg} {s s' : OS} {a : Abs} {t x : TcbId} {o : Option ObjId} {e : Event} {r : Option Ret} {kind : PendOn}
  {k : Cont}

section several

def InTable (i k j : ℕ) : Prop := i ≤ j ∧ j < i + k

theorem storeTable_file (i : ℕ) (objs : List (Option ObjId)) :
    wp n cfg (storeTable (t, i) objs) (fun _ s' => s'.tcbCurPtr = s.tcbCurPtr ∧ ∃ row : ℕ → Option ObjId × Row,
      s'.file = Function.update s.file t { s.file t with row := row } ∧
      (∀ j (hj : j < objs.length), row (i + j) = (objs.get ⟨j, hj⟩, ((s.file t).row (i + j)).2)) ∧
      ∀ j, ¬ InTable i objs.length j → row j = (s.file t).row j) s := by
  induction objs generalizing i s with
  | nil =>
    refine wp_pure.mpr ⟨rfl, (s.file t).row, (Function.update_eq_self t s.file).symm, fun j hj => ?_, fun _ _ => rfl⟩
    simp at hj
  | cons o objs ih =>
    have hset : Alters t (fun f => f.setRow i (o, (f.row i).2)) (modPendData (t, i) fun e => { e with pendObjPtr := o }) :=
      alters_modPendData (g := fun x => (o, x.2)) (by intro e; rfl)
    rw [storeTable, wp_bind]
    refine ((hset n cfg s).and (keeps_cur_modPendData (t, i) _ n cfg s)).mono ?_
    rintro _ s₁ ⟨h₁, hc₁⟩
    refine (ih (i + 1)).mono ?_
    rintro _ s₂ ⟨hc₂, row, h₂, hin, hout⟩
    rw [h₁, Function.update_self] at hin hout
    refine ⟨hc₂.trans hc₁, row, ?_, fun j hj => ?_, fun j hj => ?_⟩
    · rw [h₂, h₁, Function.update_self, Function.update_idem]
      rfl
    · cases j with
      | zero =>
        rw [Nat.add_zero, hout i (by simp [InTable])]
        simp [File.setRow]
      | succ j =>
        rw [show i + (j + 1) = i + 1 + j by omega, hin j (by simpa using hj)]
        have hne : i + 1 + j ≠ i := by omega
        simp [File.setRow, hne]
    · have hne : j ≠ i := by
        rintro rfl
        exact hj ⟨le_rfl, by simp⟩
      rw [hout j (by simp only [InTable, List.length_cons] at hj ⊢; omega)]
      simp [File.setRow, hne]

def Row.empty : Row := ⟨none, none, 0, 0⟩

def Row.Tells (o : Option ObjId) (rdy : Bool) (w : Row) : Prop := if rdy then w.rdyObj = o ∧ o ≠ none else w = .empty

theorem pendMultiGetRdy1_file (i : ℕ) :
    wp n cfg (pendMultiGetRdy1 (t, i)) (fun rdy s' => s'.tcbCurPtr = s.tcbCurPtr ∧ ∃ w : Row,
      s'.file = Function.update s.file t ((s.file t).setRow i (((s.file t).row i).1, w)) ∧
      w.Tells ((s.file t).row i).1 rdy) s := by
  have hclear : Alters t (fun f => f.setRow i ((f.row i).1, .empty)) (modPendData (t, i) fun e =>
      { e with
        rdyObjPtr := none, rdyMsgPtr := none, rdyMsgSize := 0, rdyTS := 0, nextPtr := none, prevPtr := none,
        tcbPtr := none }) := alters_modPendData (g := fun x => (x.1, .empty)) (by intro e; rfl)
  rw [pendMultiGetRdy1, wp_bind]
  refine ((hclear n cfg s).and (keeps_cur_modPendData (t, i) _ n cfg s)).mono ?_
  rintro _ s₁ ⟨h₁, hc₁⟩
  have hobj : (s₁.pendData (t, i)).pendObjPtr = ((s.file t).row i).1 := by
    have hf := congrFun h₁ t
    rw [Function.update_self] at hf
    have hrow : (s₁.file t).row i = (((s.file t).row i).1, .empty) := by
      rw [hf]
      simp [File.setRow]
    exact (congrArg Prod.fst hrow :)
  have hempty (s₂ : OS) (h₂ : s₂.file = s₁.file) (hc₂ : s₂.tcbCurPtr = s₁.tcbCurPtr) : s₂.tcbCurPtr = s.tcbCurPtr ∧ ∃ w : Row,
      s₂.file = Function.update s.file t ((s.file t).setRow i (((s.file t).row i).1, w)) ∧
        w.Tells ((s.file t).row i).1 false := ⟨hc₂.trans hc₁, .empty, h₂.trans h₁, rfl⟩
  rw [wp_bind, wp_getPendData, hobj, wp_bind, wp_deref]
  intro o ho
  -- what was taken is told in the row
  have htell {g : PendData → PendData} {w : Option ObjId × Row → Row}
      (hg : ∀ e, ((g e).pendObjPtr, (g e).row) = (e.pendObjPtr, w (e.pendObjPtr, e.row))) (hw : ∀ x, (w x).rdyObj = x.1)
          {s₂ : OS}
      (h₂ : s₂.file = s₁.file) (hc₂ : s₂.tcbCurPtr = s₁.tcbCurPtr) :
      wp n cfg (modPendData (t, i) g >>= fun _ => return true) (fun rdy s' => s'.tcbCurPtr = s.tcbCurPtr ∧ ∃ w : Row,
        s'.file = Function.update s.file t ((s.file t).setRow i (((s.file t).row i).1, w)) ∧
        w.Tells ((s.file t).row i).1 rdy) s₂ := by
    have hput : Alters t (fun f => f.setRow i ((f.row i).1, w (f.row i))) (modPendData (t, i) g) :=
      alters_modPendData (g := fun x => (x.1, w x)) hg
    rw [wp_bind]
    refine ((hput.next (h₂.trans h₁)).and (keeps_cur_modPendData (t, i) g n cfg s₂)).mono ?_
    rintro _ s₃ ⟨h₃, hc₃⟩
    refine wp_pure.mpr ⟨hc₃.trans (hc₂.trans hc₁), w (((s.file t).row i).1, .empty), h₃.trans ?_, hw _, by simp [ho]⟩
    simp [File.setRow]
  rw [wp_bind, wp_getObj]
  cases (s₁.obj o).type with
  | none | flag | mutex => exact wp_pure.mpr (hempty s₁ rfl rfl)
  | q =>
    dsimp only
    rw [wp_bind]
    refine (msgQGet_file _).mono ?_
    rintro ⟨q, x⟩ s₂ ⟨h₂, hc₂⟩
    dsimp only
    rw [wp_bind, wp_modObj, wp_ite]
    refine ⟨fun _ => ?_, fun _ => wp_pure.mpr (hempty _ h₂ hc₂)⟩
    exact htell (w := fun y => ⟨y.1, x.msgPtr, x.msgSize, x.ts⟩) (by intro e; rfl) (by intro y; rfl) h₂ hc₂
  | sem =>
    dsimp only
    rw [wp_ite]
    refine ⟨fun _ => ?_, fun _ => wp_pure.mpr (hempty s₁ rfl rfl)⟩
    rw [wp_bind, wp_modObj]
    exact htell (w := fun y => { y.2 with rdyObj := y.1, ts := (s₁.obj o).ts }) (by intro e; rfl) (by intro y; rfl) rfl rfl

def rowsReady (row : ℕ → Option ObjId × Row) (i k : ℕ) : ℕ := (List.range k).countP fun j => (row (i + j)).2.rdyObj ≠ none

theorem rowsReady_succ (row : ℕ → Option ObjId × Row) (i k : ℕ) :
    rowsReady row i (k + 1) = rowsReady row (i + 1) k + if (row i).2.rdyObj ≠ none then 1 else 0 := by
  rw [rowsReady, List.range_succ_eq_map, List.countP_cons, List.countP_map, rowsReady]
  congr 1
  · apply List.countP_congr
    intro j _
    simp [show i + (j + 1) = i + 1 + j by omega]
  · simp

theorem Row.Tells.rdyObj_iff {o : Option ObjId} {rdy : Bool} {w : Row} (h : w.Tells o rdy) : w.rdyObj ≠ none ↔ rdy = true := by
  cases rdy with
  | false => simp [show w = .empty from h, Row.empty]
  | true =>
    obtain ⟨h₁, h₂⟩ : w.rdyObj = o ∧ o ≠ none := h
    simp [h₁, h₂]

theorem Row.Tells.empty {o : Option ObjId} {rdy : Bool} {w : Row} (h : w.Tells o rdy) (hw : w.rdyObj = none) : w = .empty := by
  cases rdy with
  | false => exact h
  | true => exact absurd hw (h.rdyObj_iff.mpr rfl)

theorem rowsReady_zero {row : ℕ → Option ObjId × Row} {i k j : ℕ} (h : rowsReady row i k = 0) (hj : InTable i k j) :
    (row j).2.rdyObj = none := by
  have hmem : j - i ∈ List.range k := by
    have := hj.1
    have := hj.2
    rw [List.mem_range]
    omega
  have hj' : i + (j - i) = j := by
    have := hj.1
    omega
  have hz := List.countP_eq_zero.mp h (j - i) hmem
  rw [hj'] at hz
  simpa using hz

theorem pendMultiGetRdy_file (k i : ℕ) :
    wp n cfg (pendMultiGetRdy k (t, i)) (fun nbr s' => s'.tcbCurPtr = s.tcbCurPtr ∧ ∃ row : ℕ → Option ObjId × Row,
      s'.file = Function.update s.file t { s.file t with row := row } ∧
      nbr = rowsReady row i k ∧ (∀ j, InTable i k j → (row j).1 = ((s.file t).row j).1 ∧ ∃ rdy, (row j).2.Tells (row j).1 rdy) ∧
      ∀ j, ¬ InTable i k j → row j = (s.file t).row j) s := by
  induction k generalizing i s with
  | zero =>
    refine wp_pure.mpr ⟨rfl, (s.file t).row, (Function.update_eq_self t s.file).symm, rfl, fun j hj => ?_, fun _ _ => rfl⟩
    simp only [InTable] at hj
    omega
  | succ k ih =>
    rw [pendMultiGetRdy, wp_bind]
    refine (pendMultiGetRdy1_file i).mono ?_
    rintro rdy s₁ ⟨hc₁, w, h₁, hw⟩
    rw [wp_bind]
    refine (ih (i + 1)).mono ?_
    rintro nbr s₂ ⟨hc₂, row, h₂, rfl, hin, hout⟩
    rw [h₁, Function.update_self] at hin hout
    have hrow : row i = (((s.file t).row i).1, w) := by
      rw [hout i (by simp [InTable])]
      simp [File.setRow]
    refine wp_pure.mpr ⟨hc₂.trans hc₁, row, ?_, ?_, fun j hj => ?_, fun j hj => ?_⟩
    · rw [h₂, h₁, Function.update_self, Function.update_idem]
      rfl
    · rw [rowsReady_succ, if_congr (show (row i).2.rdyObj ≠ none ↔ rdy = true by rw [hrow]; exact hw.rdyObj_iff) rfl rfl]
      split <;> rfl
    · by_cases hji : j = i
      · subst hji
        rw [hrow]
        exact ⟨rfl, rdy, hw⟩
      · obtain ⟨ho, hrdy⟩ := hin j (by simp only [InTable] at hj ⊢; omega)
        refine ⟨?_, hrdy⟩
        rw [ho]
        simp [File.setRow, hji]
    · have hji : j ≠ i := by
        rintro rfl
        exact hj ⟨le_rfl, by omega⟩
      rw [hout j (by simp only [InTable] at hj ⊢; omega)]
      simp [File.setRow, hji]

theorem keeps_pendMultiValidate {γ : Type} {v : OS → γ} (k : ℕ) (d : PdId) : Keeps v (pendMultiValidate k d) := by
  induction k generalizing d with
  | zero => exact keeps_pure _
  | succ k ih =>
    refine keeps_bind (keeps_getPendData d) fun x => ?_
    cases x.pendObjPtr with
    | none => exact keeps_pure _
    | some o => exact keeps_bind (keeps_getObj o) fun _ => keeps_ite (ih _) (keeps_pure _)

theorem File.setRow_self (f : File) (i : ℕ) : f.setRow i (f.row i) = f := by
  rw [setRow, Function.update_eq_self]

theorem pendMultiWait_file (ht : s.tcbCurPtr = some t) (i k : ℕ) (timeout : Tick) :
    wp n cfg (pendMultiWait (t, i) k timeout) (fun _ s' => s'.tcbCurPtr = some t ∧ ∃ timed : Bool,
      s'.file = Function.update s.file t { s.file t with
        state := if timed then .pendTimeout else .pend, pendOn := .multi, pendStatus := .ok,
        table := entriesFrom (t, i) k }) s := by
  have hset : Alters t (fun f => { f with pendOn := .multi, pendStatus := .ok, table := entriesFrom (t, i) k })
      (modTcb t fun c => { c with
        pendOn := .multi, pendStatus := .ok, pendDataTblEntries := k, pendDataTblPtr := some (t, i) }) :=
    alters_modTcb (by intro c r k; rfl)
  have hlink (d : PdId) : Keeps OS.file (pendMultiWait1 t d) := by
    have hown : Keeps OS.file (modPendData d fun e => { e with tcbPtr := some t }) := by
      refine keeps_modify fun s => ?_
      rw [OS.file_modPendData]
      change Function.update s.file d.1 ((s.file d.1).setRow d.2 ((s.file d.1).row d.2)) = s.file
      rw [File.setRow_self]
      exact Function.update_eq_self d.1 s.file
    refine keeps_bind hown fun _ => keeps_bind (keeps_getPendData d) fun _ => keeps_bind (keeps_deref _) fun o => ?_
    refine keeps_bind (keeps_getObj o) fun b => ?_
    cases b.type with
    | sem | q => exact keeps_file_pendListInsertPrio o d
    | none | flag | mutex => exact keeps_pure _
  have hcur (d : PdId) : Keeps OS.tcbCurPtr (pendMultiWait1 t d) := by
    refine keeps_bind (keeps_cur_modPendData d _) fun _ => keeps_bind (keeps_getPendData d) fun _ =>
      keeps_bind (keeps_deref _) fun o => ?_
    refine keeps_bind (keeps_getObj o) fun b => ?_
    cases b.type with
    | sem | q => exact (keeps_pendListInsertPrio d o).comp OS.tcbCurPtr
    | none | flag | mutex => exact keeps_pure _
  rw [pendMultiWait, wp_bind, wp_getCur, ht]
  rintro _ ⟨⟩
  rw [wp_bind]
  refine ((hset n cfg s).and (keeps_cur_modTcb t _ n cfg s)).mono ?_
  rintro _ s₁ ⟨h₁, hc₁⟩
  rw [wp_bind]
  refine ((taskBlock_file timeout).and (keeps_cur_taskBlock t timeout n cfg s₁)).mono ?_
  rintro _ s₂ ⟨⟨timed, h₂⟩, hc₂⟩
  rw [h₁, Function.update_self, Function.update_idem] at h₂
  refine ((keeps_forEntries hlink k (t, i) n cfg s₂).and (keeps_forEntries hcur k (t, i) n cfg s₂)).mono ?_
  rintro _ s₃ ⟨h₃, hc₃⟩
  exact ⟨hc₃.trans (hc₂.trans (hc₁.trans ht)), timed, h₃.trans h₂⟩

theorem osPendMulti_file (tbl : Option ℕ) (objs : List (Option ObjId)) (timeout : Tick) (opt : Opt) :
    wp n cfg (osPendMulti tbl objs timeout opt) (fun r s' => Filed s (.call (.pendMulti tbl objs timeout opt)) r s') s := by
  rw [osPendMulti.eq_def, wp_bind, wp_get, wp_ite]
  refine ⟨fun _ => wp_pure.mpr (.same rfl), fun _ => ?_⟩
  cases tbl with
  | none => exact wp_pure.mpr (.same rfl)
  | some i =>
    dsimp only
    rw [wp_bind, wp_getCur]
    intro t ht
    have hrows {s' : OS} {row : ℕ → Option ObjId × Row} (h' : s'.file = Function.update s.file t { s.file t with row := row })
        (r : Ret) : Filed s (.call (.pendMulti (some i) objs timeout opt)) (some r) s' := .one h' ⟨ht, row, rfl⟩
    rw [wp_bind]
    refine (storeTable_file i objs).mono ?_
    rintro _ s₁ ⟨hc₁, row, h₁, hin, hout⟩
    refine wp_ite.mpr ⟨fun _ => wp_pure.mpr (hrows h₁ _), fun _ => wp_ite.mpr ⟨fun _ => wp_pure.mpr (hrows h₁ _), fun _ => ?_⟩⟩
    rw [wp_bind]
    refine (keeps_pendMultiValidate objs.length (t, i) n cfg s₁ (v := fun s => s)).mono ?_
    rintro ok s₂ hs₂
    change s₂ = s₁ at hs₂
    subst hs₂
    refine wp_ite.mpr ⟨fun _ => wp_pure.mpr (hrows h₁ _), fun _ => ?_⟩
    rw [wp_bind]
    refine (pendMultiGetRdy_file objs.length i).mono ?_
    rintro nbr s₃ ⟨hc₃, row', h₃, hnbr, hin', hout'⟩
    rw [h₁, Function.update_self, Function.update_idem] at h₃
    rw [h₁, Function.update_self] at hin' hout'
    refine wp_ite.mpr ⟨fun _ => wp_pure.mpr (hrows h₃ _), fun h0 => wp_ite.mpr ⟨fun _ => wp_pure.mpr (hrows h₃ _), fun _ =>
      wp_ite.mpr ⟨fun _ => wp_pure.mpr (hrows h₃ _), fun _ => ?_⟩⟩⟩
    rw [wp_bind]
    refine (pendMultiWait_file (hc₃.trans (hc₁.trans ht)) i objs.length timeout).mono ?_
    rintro _ s₄ ⟨hc₄, timed, h₄⟩
    refine (waitThen_file .multiPend).mono ?_
    rintro _ s₅ ⟨rfl, x, hx, h₅⟩
    have hxt : t = x := by simpa [hc₄] using hx
    subst hxt
    rw [h₃, Function.update_self, Function.update_idem] at h₄
    rw [h₄, Function.update_self, Function.update_idem] at h₅
    refine .one h₅ ⟨ht, timed, ?_⟩
    have hrow : row' = ((s.file t).waitsMulti t i objs timed).row := by
      funext j
      simp only [File.waitsMulti]
      split
      · rename_i hj
        have hj' : InTable i objs.length j := ⟨hj.1, by omega⟩
        obtain ⟨ho, rdy, hrdy⟩ := hin' j hj'
        have hj'' : i + (j - i) = j := by omega
        have hobj := hin (j - i) hj.2
        rw [hj''] at hobj
        exact Prod.ext (ho.trans (congrArg Prod.fst hobj :)) (hrdy.empty (rowsReady_zero (hnbr.symm.trans (by omega)) hj'))
      · rename_i hj
        have hj' : ¬ InTable i objs.length j := fun h => hj ⟨h.1, by have := h.2; omega⟩
        rw [hout' j hj']
        exact hout j hj'
    rw [hrow]
    rfl

end several

end UcosIII
