import UcosIII.Kernel.PendList
import UcosIII.Lib.LinkedList
import Mathlib.Data.List.Perm.Basic

namespace UcosIII

open Prog

variable {n : ℕ} {cfg : Cfg} {s s' : OS} {W : ObjId → List PdId} {L : List PdId} {d d' : PdId} {o o' : ObjId} {t : TcbId}

namespace OS

def pdNext (s : OS) (d : PdId) : Option PdId := (s.pendData d).nextPtr

def pdPrev (s : OS) (d : PdId) : Option PdId := (s.pendData d).prevPtr

def pendList (s : OS) (o : ObjId) : PendList := (s.obj o).pendList

@[grind =] theorem pendData_nextPtr : (s.pendData d).nextPtr = s.pdNext d := rfl

@[grind =] theorem pendData_prevPtr : (s.pendData d).prevPtr = s.pdPrev d := rfl

@[grind =] theorem obj_pendList : (s.obj o).pendList = s.pendList o := rfl

@[grind =] theorem pdNext_modPendData (f : PendData → PendData) :
    (s.modPendData d f).pdNext d' = if d' = d then (f (s.pendData d)).nextPtr else s.pdNext d' := by
  by_cases h : d' = d <;> simp [pdNext, modPendData, h]

@[grind =] theorem pdPrev_modPendData (f : PendData → PendData) :
    (s.modPendData d f).pdPrev d' = if d' = d then (f (s.pendData d)).prevPtr else s.pdPrev d' := by
  by_cases h : d' = d <;> simp [pdPrev, modPendData, h]

@[grind =] theorem pendList_modPendData (f : PendData → PendData) :
    (s.modPendData d f).pendList o = s.pendList o := rfl

def modPendList (s : OS) (o : ObjId) (f : PendList → PendList) : OS :=
  s.modObj o fun b => { b with pendList := f b.pendList }

@[grind =] theorem pdNext_modPendList (f : PendList → PendList) : (s.modPendList o f).pdNext d = s.pdNext d := rfl

@[grind =] theorem pdPrev_modPendList (f : PendList → PendList) : (s.modPendList o f).pdPrev d = s.pdPrev d := rfl

@[grind =] theorem pendList_modPendList (f : PendList → PendList) :
    (s.modPendList o f).pendList o' = if o' = o then f (s.pendList o) else s.pendList o' := by
  by_cases h : o' = o <;> simp [pendList, modPendList, modObj, h]

end OS

@[simp] theorem wp_modPendList {f : PendList → PendList} {Q : Unit → OS → Prop} :
    wp n cfg (modPendList o f) Q s ↔ Q () (s.modPendList o f) := by
  simp [modPendList, OS.modPendList]

@[simp] theorem wp_incPendList {Q : Unit → OS → Prop} :
    wp n cfg (incPendList o) Q s ↔ Q () (s.modPendList o fun l => { l with nbrEntries := l.nbrEntries + 1 }) := by
  simp only [incPendList, wp_bind, wp_getObj, wp_objQtyInc, wp_modPendList]
  exact Iff.rfl

@[simp] theorem wp_decPendList {Q : Unit → OS → Prop} :
    wp n cfg (decPendList o) Q s ↔ Q () (s.modPendList o fun l => { l with nbrEntries := l.nbrEntries - 1 }) := by
  simp only [decPendList, wp_bind, wp_getObj, wp_objQtyDec, wp_modPendList]
  exact Iff.rfl

/-- `W o` is the list that the pend list of `o` leads to; from an entry in no list nothing is reached. -/
structure PendRep (s : OS) (W : ObjId → List PdId) : Prop where
  list : ∀ o, Listed s.pdNext s.pdPrev (s.pendList o).headPtr (s.pendList o).tailPtr (s.pendList o).nbrEntries (W o)
  disjoint : ∀ o o' d, d ∈ W o → d ∈ W o' → o = o'
  off : ∀ d, (∀ o, d ∉ W o) → s.pdNext d = none

namespace PendRep

theorem update (h : PendRep s W)
    (hl : Listed s'.pdNext s'.pdPrev (s'.pendList o).headPtr (s'.pendList o).tailPtr (s'.pendList o).nbrEntries L)
    (hr : ∀ o' ≠ o, s'.pendList o' = s.pendList o')
    (hx : ∀ o' ≠ o, ∀ x ∈ W o', s'.pdNext x = s.pdNext x ∧ s'.pdPrev x = s.pdPrev x)
    (hd : ∀ o' ≠ o, ∀ x ∈ L, x ∉ W o')
    (hoff : ∀ x, x ∉ L → (x ∈ W o ∨ s.pdNext x = none) → s'.pdNext x = none) : PendRep s' (Function.update W o L) where
  list := by
    intro o'
    by_cases ho : o' = o
    · subst ho
      simpa using hl
    · rw [Function.update_of_ne ho, hr o' ho]
      exact (h.list o').congr (hx o' ho)
  disjoint := by
    intro o₁ o₂ x h₁ h₂
    simp only [Function.update_apply] at h₁ h₂
    split at h₁ <;> split at h₂
    · simp_all
    · exact absurd h₂ (hd o₂ ‹_› x h₁)
    · exact absurd h₁ (hd o₁ ‹_› x h₂)
    · exact h.disjoint o₁ o₂ x h₁ h₂
  off := by
    intro x hx
    have hne : ∀ o' ≠ o, x ∉ W o' := fun o' ho => by simpa [Function.update_of_ne ho] using hx o'
    refine hoff x (by simpa using hx o) ?_
    by_cases hxo : x ∈ W o
    · exact .inl hxo
    · exact .inr (h.off x fun o' => if ho : o' = o then ho ▸ hxo else hne o' ho)

theorem congr (h : PendRep s W) (hn : s'.pdNext = s.pdNext) (hp : s'.pdPrev = s.pdPrev)
    (hl : s'.pendList = s.pendList) : PendRep s' W := by
  refine ⟨?_, h.disjoint, ?_⟩
  · intro o
    rw [hn, hp, hl]
    exact h.list o
  · intro d hd
    rw [hn]
    exact h.off d hd

end PendRep

theorem pendListRemove1_rep (h : PendRep s W) (hd : d ∈ W o) :
    wp n cfg (pendListRemove1 o d) (fun _ s' => PendRep s' (Function.update W o ((W o).erase d))) s := by
  have hl := h.list o
  obtain ⟨xs, ys, hxs, hxy, herase⟩ := List.exists_erase_eq hd
  rw [herase]
  rw [hxy] at hl
  have hnd := hl.dlist.nodup
  have hx : ∀ x ∈ xs ++ ys, x ∈ W o ∧ x ≠ d := by grind
  have hlast : ∀ x, xs.getLast? = some x → x ∈ W o ∧ x ≠ d := fun x h => hx x (by simp [List.mem_of_getLast? h])
  have hhead : ∀ x, ys.head? = some x → x ∈ W o ∧ x ≠ d := fun x h => hx x (by simp [List.mem_of_mem_head? h])
  have hmem : ∀ x ∈ W o, x ∈ xs ++ ys ∨ x = d := by grind
  have hlast' : ∀ x, xs.getLast? = some x → x ∈ xs := fun x => List.mem_of_getLast?
  have hother : ∀ o' ≠ o, ∀ x ∈ W o', x ∉ W o := fun o' ho x hx' hx => ho (h.disjoint o' o x hx' hx)
  have hnew : ∀ o' ≠ o, ∀ x ∈ xs ++ ys, x ∉ W o' := fun o' ho x hxy hxo => hother o' ho x hxo (hx x hxy).1
  have hone : (s.pendList o).nbrEntries = 1 ↔ xs.getLast? = none ∧ ys.head? = none := by
    rw [hl.nbr_eq, List.getLast?_eq_none_iff, List.head?_eq_none_iff, ← List.length_eq_zero_iff,
      ← List.length_eq_zero_iff]
    simp only [List.length_append, List.length_cons]
    omega
  have hn := hl.dlist.next_eq
  have hp := hl.dlist.prev_eq
  simp only [pendListRemove1, wp_bind, wp_getPendData, wp_getObj, wp_ite, wp_modPendList, wp_decPendList, wp_modPendData,
    wp_deref,
    OS.obj_pendList, OS.pendData_nextPtr, OS.pendData_prevPtr, hn, hp, hone]
  clear hxs hxy herase hnd
  refine ⟨fun h1 => ?_, fun h1 => ⟨fun h2 dn hdn => ?_, fun h2 => ⟨fun h3 dp hdp => ?_, fun h3 dp hdp dn hdn => ?_⟩⟩⟩
  all_goals
    refine h.update (hl.erase xs ys ?_ ?_ ?_ ?_ ?_) ?_ ?_ hnew ?_
  all_goals clear hl hn hp
  all_goals grind

/-- Where `OS_PendListInsertPrio` puts an entry: behind those of the same or of higher priority. -/
def insPrio (prio : PdId → ℕ) (d : PdId) (l : List PdId) : List PdId :=
  l.takeWhile (fun x => prio x ≤ prio d) ++ d :: l.dropWhile (fun x => prio x ≤ prio d)

theorem insPrio_perm (prio : PdId → ℕ) (d : PdId) (l : List PdId) : (insPrio prio d l).Perm (d :: l) := by
  refine List.perm_middle.trans ?_
  rw [List.takeWhile_append_dropWhile]

def OS.pdPrio (s : OS) (d : PdId) : ℕ := (s.tcb d.1).prio

theorem pendListFind_spec {head : Option PdId} (hl : DList s.pdNext s.pdPrev L) (hh : head = L.head?)
    (ht : ∀ x ∈ L, (s.pendData x).tcbPtr = some x.1) (prio : ℕ) :
    wp n cfg (Prog.loop (pendListFind prio) head)
      (fun p s' => s' = s ∧ p = (L.dropWhile fun x => s.pdPrio x ≤ prio).head?) s := by
  -- the walk has passed `xs`, whose tasks all have the same or a higher priority
  refine wp_loop (fun p s' => s' = s ∧ ∃ xs ys, L = xs ++ ys ∧ p = ys.head? ∧ ∀ x ∈ xs, s.pdPrio x ≤ prio)
    ?_ ⟨rfl, [], L, by simp [hh]⟩
  rintro p s' ⟨rfl, xs, ys, hW, rfl, hxs⟩
  have hdrop : L.dropWhile (fun x => s'.pdPrio x ≤ prio) = ys.dropWhile fun x => s'.pdPrio x ≤ prio := by
    rw [hW, List.dropWhile_append_of_pos (by simpa using hxs)]
  rw [hdrop]
  rcases ys with _ | ⟨y, ys⟩
  · simp [pendListFind]
  · have hy : y ∈ L := by simp [hW]
    have hnext : s'.pdNext y = ys.head? := (hl.links xs y ys hW).1
    simp only [pendListFind, List.head?_cons, wp_bind, wp_getPendData, wp_deref, ht y hy, Option.some_inj, wp_getTcb,
      wp_ite, wp_pure, Sum.elim_inl, Sum.elim_inr]
    rintro _ rfl
    constructor
    · intro hlt
      have hy' : ¬ s'.pdPrio y ≤ prio := by simpa [OS.pdPrio] using hlt
      simp [hy']
    · intro hle
      refine ⟨trivial, xs ++ [y], ys, by simp [hW], hnext, ?_⟩
      simp only [List.mem_append, List.mem_singleton]
      rintro x (hx | rfl)
      · exact hxs x hx
      · simpa [OS.pdPrio] using hle

theorem pendListInsertPrio_rep (h : PendRep s W) (hd : ∀ o', d ∉ W o')
    (ht : ∀ x ∈ d :: W o, (s.pendData x).tcbPtr = some x.1) :
    wp n cfg (pendListInsertPrio o d) (fun _ s' => PendRep s' (Function.update W o (insPrio s.pdPrio d (W o)))) s := by
  have hl := h.list o
  have hdis := h.disjoint
  simp only [pendListInsertPrio, wp_bind, wp_getPendData, wp_deref, ht d (by simp), Option.some_inj, wp_getTcb,
    wp_getObj, wp_ite, wp_modPendData, wp_modPendList, wp_incPendList]
  rintro _ rfl
  constructor
  · intro hz
    have hnil : W o = [] := hl.nbr_eq_zero.mp hz
    rw [hnil] at hl ⊢
    rw [show insPrio s.pdPrio d [] = [d] from rfl]
    refine h.update (hl.insert [] [] ?_ ?_ ?_ ?_ ?_ ?_ ?_ ?_) ?_ ?_ ?_ ?_
    all_goals grind
  · intro hz
    have hdl : DList (s.modPendList o fun l => { l with nbrEntries := l.nbrEntries + 1 }).pdNext
      (s.modPendList o fun l => { l with nbrEntries := l.nbrEntries + 1 }).pdPrev (W o) := hl.dlist
    refine (pendListFind_spec hdl hl.head_eq (fun x hx => ht x (by simp [hx])) (s.pdPrio d)).mono ?_
    rintro p _ ⟨rfl, hp⟩
    have hp' : p = ((W o).dropWhile fun x => s.pdPrio x ≤ s.pdPrio d).head? := hp
    have hsplit : W o = (W o).takeWhile (fun x => s.pdPrio x ≤ s.pdPrio d) ++
      (W o).dropWhile (fun x => s.pdPrio x ≤ s.pdPrio d) := by rw [List.takeWhile_append_dropWhile]
    rw [insPrio]
    clear hp hdl
    generalize (W o).takeWhile (fun x => s.pdPrio x ≤ s.pdPrio d) = xs at *
    generalize (W o).dropWhile (fun x => s.pdPrio x ≤ s.pdPrio d) = ys at *
    rw [hsplit] at hl
    have hx : ∀ x ∈ xs ++ ys, x ∈ W o ∧ x ≠ d := by grind
    have hlast : ∀ x, xs.getLast? = some x → x ∈ W o ∧ x ≠ d := fun x h => hx x (by simp [List.mem_of_getLast? h])
    have hhead : ∀ x, ys.head? = some x → x ∈ W o ∧ x ≠ d := fun x h => hx x (by simp [List.mem_of_mem_head? h])
    have hmem : ∀ x ∈ W o, x ∈ xs ++ ys := fun x hx => hsplit ▸ hx
    have hlast' : ∀ x, xs.getLast? = some x → x ∈ xs := fun x => List.mem_of_getLast?
    have hother : ∀ o' ≠ o, ∀ x ∈ W o', x ∉ W o := fun o' ho x hx' hx => ho (h.disjoint o' o x hx' hx)
    have hnew : ∀ o' ≠ o, ∀ x ∈ xs ++ d :: ys, x ∉ W o' := by grind
    have hda : d ∉ xs ++ ys := fun hd' => hd o (hsplit ▸ hd')
    have htail : ys.head? = none → (s.pendList o).tailPtr = xs.getLast? := by
      intro hy
      rw [hl.tail_eq, List.head?_eq_none_iff.mp hy, List.append_nil]
    have hne : ys.head? = none → xs.getLast? ≠ none := by
      intro hy hx'
      apply hz
      rw [OS.obj_pendList, hl.nbr_eq, List.getLast?_eq_none_iff.mp hx', List.head?_eq_none_iff.mp hy]
      rfl
    subst hp'
    rcases hy1 : ys.head? with _ | dn
    · simp only [wp_bind, wp_modPendData, wp_deref, wp_modPendList]
      intro dp hdp
      refine h.update (hl.insert xs ys hda ?_ ?_ ?_ ?_ ?_ ?_ ?_) ?_ ?_ hnew ?_
      all_goals clear hl hdis hsplit
      all_goals grind
    · have hprev : s.pdPrev dn = xs.getLast? := by
        obtain ⟨ys, rfl⟩ := List.head?_eq_some_iff.mp hy1
        exact hl.dlist.prev_eq
      simp only [wp_bind, wp_getPendData]
      rw [OS.pendData_prevPtr, OS.pdPrev_modPendList, hprev]
      rcases hx1 : xs.getLast? with _ | dp <;> simp only [wp_bind, wp_modPendData, wp_modPendList] <;>
        refine h.update (hl.insert xs ys hda ?_ ?_ ?_ ?_ ?_ ?_ ?_) ?_ ?_ hnew ?_
      all_goals clear hl hdis hsplit
      all_goals grind

section frame

@[grind =] def PendData.noPend (e : PendData) : PendData := { e with prevPtr := none, nextPtr := none }

@[grind =] def Obj.noPend (b : Obj) : Obj := { b with pendList := pendListEmpty }

def OS.noPend (s : OS) : OS :=
  { s with pendData := fun d => (s.pendData d).noPend, obj := fun o => (s.obj o).noPend }

@[grind ←] theorem OS.noPend_modPendData {f : PendData → PendData} (hf : ∀ e, (f e).noPend = e.noPend) :
    (s.modPendData d f).noPend = s.noPend := by
  simp only [noPend, modPendData, OS.mk.injEq, and_true, true_and]
  funext x
  by_cases hx : x = d
  · subst hx
    simpa using hf (s.pendData x)
  · simp [hx]

@[grind =] theorem OS.noPend_modPendList {f : PendList → PendList} : (s.modPendList o f).noPend = s.noPend := by
  simp only [noPend, modPendList, modObj, OS.mk.injEq, and_true, true_and]
  funext x
  by_cases hx : x = o
  · subst hx
    simp [Obj.noPend]
  · simp [hx]

variable (o d)

@[grind ←] theorem keeps_pendListFind (prio : ℕ) (p : Option PdId) {γ : Type} {v : OS → γ} :
    Keeps v (pendListFind prio p) := by
  cases p <;> grind [pendListFind]

@[grind ←] theorem keeps_pendListInsertPrio : Keeps OS.noPend (pendListInsertPrio o d) := by
  intro n cfg s
  simp only [pendListInsertPrio, wp_bind, wp_getPendData, wp_deref, wp_getTcb, wp_getObj, wp_ite, wp_modPendData,
    wp_modPendList, wp_incPendList]
  intro t _
  constructor
  · grind
  · intro _
    refine (keeps_loop (v := id) (fun b => keeps_pendListFind _ b) _ n cfg _).mono ?_
    rintro p _ rfl
    cases p with
    | none =>
      simp only [wp_bind, wp_modPendData, wp_deref, wp_modPendList, id]
      grind
    | some dn =>
      simp only [wp_bind, wp_getPendData, id]
      split <;> simp only [wp_bind, wp_modPendData, wp_modPendList] <;> grind

@[grind ←] theorem keeps_pendListRemove1 : Keeps OS.noPend (pendListRemove1 o d) := by
  intro n cfg s
  simp only [pendListRemove1, wp_bind, wp_getPendData, wp_getObj, wp_ite, wp_modPendList, wp_decPendList, wp_modPendData,
    wp_deref]
  grind

end frame

section table

def entriesFrom (d : PdId) : ℕ → List PdId
  | 0 => []
  | k + 1 => d :: entriesFrom (d.1, d.2 + 1) k

theorem mem_entriesFrom {k : ℕ} : d' ∈ entriesFrom d k ↔ d'.1 = d.1 ∧ d.2 ≤ d'.2 ∧ d'.2 < d.2 + k := by
  induction k generalizing d with
  | zero =>
    simp only [entriesFrom, List.not_mem_nil, false_iff]
    omega
  | succ k ih =>
    rw [entriesFrom, List.mem_cons, ih, Prod.ext_iff]
    constructor
    · rintro (⟨h1, h2⟩ | ⟨h1, h2, h3⟩)
      · exact ⟨h1, h2.ge, by omega⟩
      · exact ⟨h1, by omega, by omega⟩
    · rintro ⟨h1, h2, h3⟩
      rcases Nat.eq_or_lt_of_le h2 with h4 | h4
      · exact .inl ⟨h1, h4.symm⟩
      · exact .inr ⟨h1, h4, by omega⟩

theorem nodup_entriesFrom {k : ℕ} : (entriesFrom d k).Nodup := by
  induction k generalizing d with
  | zero => simp [entriesFrom]
  | succ k ih =>
    refine List.nodup_cons.mpr ⟨?_, ih⟩
    simp only [mem_entriesFrom]
    omega

def TCB.table (c : TCB) : List PdId :=
  match c.pendDataTblPtr with
  | none => []
  | some d => entriesFrom d c.pendDataTblEntries

def OS.table (s : OS) (t : TcbId) : List PdId := (s.tcb t).table

theorem TCB.nodup_table {c : TCB} : c.table.Nodup := by
  simp only [table]
  split
  · exact List.nodup_nil
  · exact nodup_entriesFrom

theorem wp_forEntries {body : PdId → K Unit} {k : ℕ} (I : List PdId → OS → Prop)
    (hbody : ∀ d ds s, I (d :: ds) s → wp n cfg (body d) (fun _ => I ds) s) (h0 : I (entriesFrom d k) s) :
    wp n cfg (forEntries body k d) (fun _ => I []) s := by
  induction k generalizing d s with
  | zero => simpa [forEntries, entriesFrom] using h0
  | succ k ih =>
    simp only [forEntries, wp_bind]
    exact (hbody d _ s h0).mono fun _ s' h' => ih h'

theorem wp_forTable {body : PdId → K Unit} (I : List PdId → OS → Prop)
    (hbody : ∀ d ds s, I (d :: ds) s → wp n cfg (body d) (fun _ => I ds) s) (h0 : I (s.table t) s) :
    wp n cfg (forTable body t) (fun _ => I []) s := by
  simp only [forTable, wp_bind, wp_getTcb, wp_ite, wp_pure, wp_deref]
  constructor
  · intro hz
    have hnil : s.table t = [] := by
      simp only [OS.table, TCB.table, hz]
      split <;> rfl
    rwa [hnil] at h0
  · intro _ d hd
    rw [OS.table, TCB.table, hd] at h0
    exact wp_forEntries I hbody h0

@[grind ←] theorem keeps_forEntries {body : PdId → K Unit} {γ : Type} {v : OS → γ} (h : ∀ d, Keeps v (body d)) (k : ℕ)
    (d : PdId) : Keeps v (forEntries body k d) := by
  induction k generalizing d with
  | zero => exact keeps_pure ()
  | succ k ih => exact keeps_bind (h d) fun _ => ih _

@[grind ←] theorem keeps_forTable {body : PdId → K Unit} {γ : Type} {v : OS → γ} (h : ∀ d, Keeps v (body d)) (t : TcbId) :
    Keeps v (forTable body t) := by
  grind [forTable]

def TCB.noTable (c : TCB) : TCB := { c with pendDataTblEntries := 0, pendDataTblPtr := none }

theorem pendListRemove_frame :
    wp n cfg (pendListRemove t) (fun _ s' => s'.noPend = (s.modTcb t TCB.noTable).noPend) s := by
  have hfor : Keeps OS.noPend (forTable (fun d => do
    let o ← Prog.deref (← getPendData d).pendObjPtr
    pendListRemove1 o d) t) := by grind
  simp only [pendListRemove, wp_bind]
  refine (hfor n cfg s).mono fun _ s' hs => ?_
  have htcb : s'.tcb = s.tcb := show s'.noPend.tcb = s.noPend.tcb by rw [hs]
  rw [wp_modTcb]
  calc (s'.modTcb t TCB.noTable).noPend
      = { s'.noPend with tcb := Function.update s'.tcb t (s'.tcb t).noTable } := rfl
    _ = { s.noPend with tcb := Function.update s.tcb t (s.tcb t).noTable } := by rw [hs, htcb]
    _ = (s.modTcb t TCB.noTable).noPend := rfl

theorem pendListRemove_rep (h : PendRep s W)
    (ht : ∀ d ∈ s.table t, ∃ o, (s.pendData d).pendObjPtr = some o ∧ d ∈ W o) :
    wp n cfg (pendListRemove t) (fun _ s' => PendRep s' fun o => (W o).filter (· ∉ s.table t)) s := by
  simp only [pendListRemove, wp_bind]
  -- `ds` is what is left of the table; the entries before it are unlinked
  refine (wp_forTable (fun ds s' => (∀ d ∈ ds, d ∈ s.table t) ∧ ds.Nodup ∧ s'.noPend = s.noPend ∧
    PendRep s' fun o => (W o).filter fun d => d ∈ ds ∨ d ∉ s.table t) ?_ ?_).mono ?_
  · rintro d ds s' ⟨hds, hnd, hs, hrep⟩
    obtain ⟨o, ho, hdo⟩ := ht d (hds d (by simp))
    have hobj : (s'.pendData d).pendObjPtr = some o :=
      (congrArg (fun x : OS => (x.pendData d).pendObjPtr) hs).trans ho
    simp only [wp_bind, wp_getPendData, wp_deref, hobj, Option.some_inj]
    rintro _ rfl
    refine ((pendListRemove1_rep hrep (by simp [hdo])).and (keeps_pendListRemove1 d o n cfg s')).mono ?_
    rintro _ s'' ⟨hrep', hs'⟩
    refine ⟨fun x hx => hds x (by simp [hx]), hnd.of_cons, hs'.trans hs, ?_⟩
    convert hrep' using 1
    funext o'
    by_cases ho' : o' = o
    · subst ho'
      rw [Function.update_self, ((h.list o').dlist.nodup.filter _).erase_eq_filter, List.filter_filter]
      refine List.filter_congr fun x _ => ?_
      have hd : d ∉ ds := (List.nodup_cons.mp hnd).1
      have hdt := hds d (by simp)
      grind
    · rw [Function.update_of_ne ho']
      refine List.filter_congr fun x hx => ?_
      have hxd : x ≠ d := fun e => ho' (h.disjoint o' o d (e ▸ hx) hdo)
      simp [hxd]
  · refine ⟨fun _ h => h, TCB.nodup_table, rfl, ?_⟩
    convert h using 1
    funext o
    exact List.filter_eq_self.mpr fun d _ => by simp [Classical.em]
  · rintro _ s' ⟨-, -, hs, hrep⟩
    simp only [wp_modTcb]
    refine PendRep.congr (s := s') ?_ rfl rfl rfl
    simpa using hrep

def reinsert (prio : PdId → ℕ) (obj : PdId → Option ObjId) (W : ObjId → List PdId) (d : PdId) : ObjId → List PdId :=
  match obj d with
  | none => W
  | some o => Function.update W o (insPrio prio d ((W o).erase d))

variable {prio : PdId → ℕ} {obj : PdId → Option ObjId} {ds : List PdId}

theorem update_insPrio_perm (hd : d ∈ W o) (o' : ObjId) :
    (Function.update W o (insPrio prio d ((W o).erase d)) o').Perm (W o') := by
  by_cases h : o' = o
  · subst h
    rw [Function.update_self]
    exact (insPrio_perm _ _ _).trans (List.perm_cons_erase hd).symm
  · rw [Function.update_of_ne h]

theorem reinsert_perm (hd : ∀ o, obj d = some o → d ∈ W o) (o : ObjId) : (reinsert prio obj W d o).Perm (W o) := by
  cases ho : obj d with
  | none => simp only [reinsert, ho, List.Perm.refl]
  | some o' =>
    simp only [reinsert, ho]
    exact update_insPrio_perm (hd o' ho) o

theorem foldl_reinsert_perm (hd : ∀ d ∈ ds, ∀ o, obj d = some o → d ∈ W o) (o : ObjId) :
    (ds.foldl (reinsert prio obj) W o).Perm (W o) := by
  induction ds generalizing W with
  | nil => rfl
  | cons d ds ih =>
    have h1 : ∀ o, (reinsert prio obj W d o).Perm (W o) := reinsert_perm fun o => hd d (by simp) o
    refine (ih ?_).trans (h1 o)
    intro x hx o ho
    exact (h1 o).mem_iff.mpr (hd x (by simp [hx]) o ho)

theorem pendListReinsert_rep (h : PendRep s W) (hd : d ∈ W o) (ht : ∀ x ∈ W o, (s.pendData x).tcbPtr = some x.1) :
    wp n cfg (do
      if 1 < (← getObj o).pendList.nbrEntries then
        pendListRemove1 o d
        pendListInsertPrio o d)
      (fun _ s' => PendRep s' (Function.update W o (insPrio s.pdPrio d ((W o).erase d))) ∧ s'.noPend = s.noPend) s := by
  have hl := h.list o
  simp only [wp_bind, wp_getObj, wp_ite, wp_pure]
  constructor
  · intro _
    refine ((pendListRemove1_rep h hd).and (keeps_pendListRemove1 d o n cfg s)).mono ?_
    rintro _ s₁ ⟨hrep, hs⟩
    have htcb : s₁.tcb = s.tcb := show s₁.noPend.tcb = s.noPend.tcb by rw [hs]
    have hptr : ∀ x, (s₁.pendData x).tcbPtr = (s.pendData x).tcbPtr := fun x =>
      show (s₁.noPend.pendData x).tcbPtr = (s.noPend.pendData x).tcbPtr by rw [hs]
    have hprio : s₁.pdPrio = s.pdPrio := by
      funext x
      rw [OS.pdPrio, htcb, OS.pdPrio]
    have hnot : ∀ o', d ∉ Function.update W o ((W o).erase d) o' := by
      intro o' hd'
      by_cases ho : o' = o
      · subst ho
        rw [Function.update_self] at hd'
        exact hl.dlist.nodup.not_mem_erase hd'
      · rw [Function.update_of_ne ho] at hd'
        exact ho (h.disjoint o' o d hd' hd)
    have htcb' : ∀ x ∈ d :: Function.update W o ((W o).erase d) o, (s₁.pendData x).tcbPtr = some x.1 := by
      intro x hx
      rw [hptr]
      rcases List.mem_cons.mp hx with rfl | hx
      · exact ht x hd
      · rw [Function.update_self] at hx
        exact ht x (List.mem_of_mem_erase hx)
    refine ((pendListInsertPrio_rep hrep hnot htcb').and (keeps_pendListInsertPrio d o n cfg s₁)).mono ?_
    rintro _ s₂ ⟨hrep', hs'⟩
    rw [Function.update_self, Function.update_idem, hprio] at hrep'
    exact ⟨hrep', hs'.trans hs⟩
  · -- an entry alone in its list stays where it is
    intro hlen
    rw [OS.obj_pendList, hl.nbr_eq] at hlen
    have hone : W o = [d] := by
      rcases hW : W o with _ | ⟨x, _ | ⟨y, l⟩⟩
      · simp [hW] at hd
      · simpa [hW, eq_comm] using hd
      · simp [hW] at hlen
    rw [hone, List.erase_cons_head, show insPrio s.pdPrio d [] = [d] from rfl, ← hone, Function.update_eq_self]
    exact ⟨h, trivial⟩

def TCB.setPrio (prio : ℕ) (c : TCB) : TCB := { c with prio := prio }

theorem pendListChangePrio_rep {p : ℕ} (h : PendRep s W)
    (ht : ∀ d ∈ s.table t, ∃ o, (s.pendData d).pendObjPtr = some o ∧ d ∈ W o)
    (hW : ∀ o, ∀ x ∈ W o, (s.pendData x).tcbPtr = some x.1) :
    wp n cfg (pendListChangePrio t p) (fun _ s' => s'.noPend = (s.modTcb t (TCB.setPrio p)).noPend ∧
      PendRep s' ((s.table t).foldl
        (reinsert (s.modTcb t (TCB.setPrio p)).pdPrio fun d => (s.pendData d).pendObjPtr) W)) s := by
  simp only [pendListChangePrio, wp_bind, wp_modTcb]
  have htable : (s.modTcb t (TCB.setPrio p)).table t = s.table t := by simp [OS.table, TCB.table, OS.modTcb, TCB.setPrio]
  have hrep₁ : PendRep (s.modTcb t (TCB.setPrio p)) W := h.congr rfl rfl rfl
  change wp n cfg _ _ (s.modTcb t (TCB.setPrio p))
  refine (wp_forTable (fun ds s' => (∀ d ∈ ds, d ∈ s.table t) ∧ s'.noPend = (s.modTcb t (TCB.setPrio p)).noPend ∧
    ∃ W', (∀ o, (W' o).Perm (W o)) ∧ PendRep s' W' ∧
      ds.foldl (reinsert (s.modTcb t (TCB.setPrio p)).pdPrio fun d => (s.pendData d).pendObjPtr) W' =
        (s.table t).foldl (reinsert (s.modTcb t (TCB.setPrio p)).pdPrio fun d => (s.pendData d).pendObjPtr) W)
    ?_ ?_).mono ?_
  · rintro d ds s' ⟨hds, hs, W', hperm, hrep, hfold⟩
    obtain ⟨o, ho, hdo⟩ := ht d (hds d (by simp))
    have hentry : ∀ x, (s'.pendData x).noPend = (s.pendData x).noPend := fun x =>
      show s'.noPend.pendData x = s.noPend.pendData x by rw [hs]; rfl
    have hobj : (s'.pendData d).pendObjPtr = some o := (congrArg PendData.pendObjPtr (hentry d)).trans ho
    have htcb : s'.tcb = (s.modTcb t (TCB.setPrio p)).tcb :=
      show s'.noPend.tcb = (s.modTcb t (TCB.setPrio p)).noPend.tcb by rw [hs]
    have hprio : s'.pdPrio = (s.modTcb t (TCB.setPrio p)).pdPrio := by
      funext x
      rw [OS.pdPrio, htcb, OS.pdPrio]
    rw [wp_bind, wp_getPendData, wp_bind, wp_deref, hobj]
    rintro _ ⟨⟩
    refine (pendListReinsert_rep hrep ((hperm o).mem_iff.mpr hdo) ?_).mono ?_
    · intro x hx
      exact (congrArg PendData.tcbPtr (hentry x)).trans (hW o x ((hperm o).mem_iff.mp hx))
    · rintro _ s'' ⟨hrep', hs'⟩
      refine ⟨fun x hx => hds x (by simp [hx]), hs'.trans hs, _, ?_, hrep', ?_⟩
      · intro o'
        exact (update_insPrio_perm ((hperm o).mem_iff.mpr hdo) o').trans (hperm o')
      · rw [← hfold, List.foldl_cons, reinsert, ho, hprio]
  · exact ⟨fun d hd => htable ▸ hd, rfl, W, fun _ => .refl _, hrep₁, by rw [htable]⟩
  · rintro _ s' ⟨-, hs, W', -, hrep, rfl⟩
    exact ⟨hs, hrep⟩

end table

end UcosIII
