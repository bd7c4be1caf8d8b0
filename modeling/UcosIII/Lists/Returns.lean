import UcosIII.Lists.Ready
import UcosIII.Lists.Pend
import UcosIII.Lists.Tick

namespace UcosIII

open Prog

def Returns {α : Type} (n : ℕ) (cfg : Cfg) (m : K α) (s : OS) : Prop := twp n cfg m (fun _ _ => True) s

variable {n : ℕ} {cfg : Cfg} {s s' : OS} {t : TcbId} {d : PdId} {o : ObjId} {α β : Type}

section rules

theorem Returns.twp {m : K α} {Q : α → OS → Prop} (h : Returns n cfg m s) (hQ : wp n cfg m Q s) : twp n cfg m Q s :=
  (h.and_wp hQ).mono fun _ _ h' => h'.2

theorem returns_pure (a : α) : Returns n cfg (pure a) s := twp_pure.mpr trivial

theorem Returns.bind {m : K β} {f : β → K α} {Q : β → OS → Prop} (h : Returns n cfg m s) (hQ : wp n cfg m Q s)
    (hf : ∀ b s', Q b s' → Returns n cfg (f b) s') : Returns n cfg (m >>= f) s :=
  twp_bind.mpr ((h.twp hQ).mono hf)

theorem returns_ite {c : Prop} [Decidable c] {m m' : K α} (h : c → Returns n cfg m s) (h' : ¬ c → Returns n cfg m' s) :
    Returns n cfg (if c then m else m') s := twp_ite.mpr ⟨h, h'⟩

@[simp] theorem twp_getTcb {n : Bound} {Q : TCB → OS → Prop} : twp n cfg (getTcb t) Q s ↔ Q (s.tcb t) s := by
  simp [getTcb]

@[simp] theorem twp_modTcb {n : Bound} {f : TCB → TCB} {Q : Unit → OS → Prop} :
    twp n cfg (modTcb t f) Q s ↔ Q () (s.modTcb t f) := by
  simp [modTcb]

@[simp] theorem twp_getObj {n : Bound} {Q : Obj → OS → Prop} : twp n cfg (getObj o) Q s ↔ Q (s.obj o) s := by
  simp [getObj]

@[simp] theorem twp_modObj {n : Bound} {f : Obj → Obj} {Q : Unit → OS → Prop} :
    twp n cfg (modObj o f) Q s ↔ Q () (s.modObj o f) := twp_modify

@[simp] theorem twp_getPendData {n : Bound} {Q : PendData → OS → Prop} :
    twp n cfg (getPendData d) Q s ↔ Q (s.pendData d) s := by
  simp [getPendData]

@[simp] theorem twp_modPendData {n : Bound} {f : PendData → PendData} {Q : Unit → OS → Prop} :
    twp n cfg (modPendData d f) Q s ↔ Q () (s.modPendData d f) := by
  simp [modPendData]

@[simp] theorem twp_modPendList {n : Bound} {f : PendList → PendList} {Q : Unit → OS → Prop} :
    twp n cfg (modPendList o f) Q s ↔ Q () (s.modPendList o f) := by
  simp [modPendList, modObj, OS.modPendList]

@[simp] theorem twp_getRdyList {n : Bound} {p : ℕ} {Q : RdyList → OS → Prop} :
    twp n cfg (getRdyList p) Q s ↔ p < cfg.prioMax ∧ Q (s.rdyList p) s := by
  simp [getRdyList, twp]

@[simp] theorem twp_modRdyList {n : Bound} {p : ℕ} {f : RdyList → RdyList} {Q : Unit → OS → Prop} :
    twp n cfg (modRdyList p f) Q s ↔ p < cfg.prioMax ∧ Q () (s.modRdyList p f) := by
  by_cases hp : p < cfg.prioMax
  · simp [modRdyList, hp]
  · simp [modRdyList, hp, twp]

@[simp] theorem twp_getSpoke {n : Bound} {i : ℕ} {Q : TickSpoke → OS → Prop} :
    twp n cfg (getSpoke i) Q s ↔ Q (s.tickWheel i) s := by
  simp [getSpoke]

@[simp] theorem twp_modSpoke {n : Bound} {i : ℕ} {f : TickSpoke → TickSpoke} {Q : Unit → OS → Prop} :
    twp n cfg (modSpoke i f) Q s ↔ Q () (s.modSpoke i f) := by
  simp [modSpoke]

@[simp] theorem twp_modPrioTbl {n : Bound} {ix : ℕ} {f : BitVec 32 → BitVec 32} {Q : Unit → OS → Prop} :
    twp n cfg (modPrioTbl ix f) Q s ↔ ix < prioTblSize cfg ∧ Q () (s.modPrioTbl ix f) := by
  by_cases hx : ix < prioTblSize cfg
  · simp [modPrioTbl, hx]
  · simp [modPrioTbl, hx, twp]

@[simp] theorem twp_tsGet {n : Bound} {Q : ℕ → OS → Prop} : twp n cfg tsGet Q s ↔ Q s.tsNow s := by
  simp [tsGet]

@[simp] theorem twp_getCur {n : Bound} {Q : TcbId → OS → Prop} :
    twp n cfg getCur Q s ↔ ∃ t, s.tcbCurPtr = some t ∧ Q t s := by
  simp [getCur]

@[simp] theorem twp_objQtyInc {k : ℕ} {Q : ℕ → OS → Prop} : twp n cfg (objQtyInc k) Q s ↔ Q (k + 1) s := twp_count

@[simp] theorem twp_objQtyDec {k : ℕ} {Q : ℕ → OS → Prop} : twp n cfg (objQtyDec k) Q s ↔ Q (k - 1) s := twp_count

@[simp] theorem twp_incRdyList {p : ℕ} {Q : Unit → OS → Prop} : twp n cfg (incRdyList p) Q s ↔
    p < cfg.prioMax ∧ Q () (s.modRdyList p fun l => { l with nbrEntries := l.nbrEntries + 1 }) := by
  simp only [incRdyList, twp_bind, twp_getRdyList, twp_objQtyInc, twp_modRdyList]
  exact and_self_left

@[simp] theorem twp_decSpoke {i : ℕ} {Q : Unit → OS → Prop} :
    twp n cfg (decSpoke i) Q s ↔ Q () (s.modSpoke i fun k => { k with nbrEntries := k.nbrEntries - 1 }) := by
  simp only [decSpoke, twp_bind, twp_getSpoke, twp_objQtyDec, twp_modSpoke]
  exact Iff.rfl

@[simp] theorem twp_decPendList {Q : Unit → OS → Prop} :
    twp n cfg (decPendList o) Q s ↔ Q () (s.modPendList o fun l => { l with nbrEntries := l.nbrEntries - 1 }) := by
  simp only [decPendList, twp_bind, twp_getObj, twp_objQtyDec, twp_modPendList]
  exact Iff.rfl

end rules

section ready

variable {R : ℕ → List TcbId}

theorem RdyRep.ends {p : ℕ} (h : RdyRep cfg s R) (hp : p < cfg.prioMax) (hn : (s.rdyList p).nbrEntries ≠ 0) :
    (∃ x, (s.rdyList p).headPtr = some x) ∧ ∃ x, (s.rdyList p).tailPtr = some x := by
  have hl := h.lists.list p hp
  have hne : R p ≠ [] := fun h0 => hn (by rw [hl.nbr_eq, h0]; rfl)
  rw [hl.head_eq, hl.tail_eq]
  exact ⟨⟨_, List.head?_eq_some_head hne⟩, _, List.getLast?_eq_some_getLast hne⟩

theorem rdyListInsert_returns (h : RdyRep cfg s R) (hp : (s.tcb t).prio < cfg.prioMax) :
    Returns n cfg (rdyListInsert t) s := by
  have hix : (s.tcb t).prio / 32 < prioTblSize cfg := by
    unfold prioTblSize
    omega
  have hends := h.ends hp
  rw [Returns, rdyListInsert, twp_bind, twp_getTcb, twp_bind, prioInsert, twp_modPrioTbl]
  refine ⟨hix, ?_⟩
  rw [twp_bind, twp_get, twp_ite]
  constructor
  · intro _
    rw [rdyListInsertTail, twp_bind, twp_getTcb, twp_bind, twp_getRdyList]
    refine ⟨hp, ?_⟩
    simp only [twp_ite, twp_bind, twp_modTcb, twp_modRdyList, twp_incRdyList, twp_deref, and_true]
    exact ⟨fun _ => hp, fun hn => ⟨hp, (hends hn).2.imp fun x hx => ⟨hx, hp⟩⟩⟩
  · intro _
    rw [rdyListInsertHead, twp_bind, twp_getTcb, twp_bind, twp_getRdyList]
    refine ⟨hp, ?_⟩
    simp only [twp_ite, twp_bind, twp_modTcb, twp_modRdyList, twp_incRdyList, twp_deref, and_true]
    exact ⟨fun _ => hp, fun hn => ⟨hp, (hends hn).1.imp fun x hx => ⟨hx, hp⟩⟩⟩

end ready

section tick

variable {w : TcbId → Bool}

theorem tickListRemove_returns (h : WheelRep cfg s w) : Returns n cfg (tickListRemove t) s := by
  obtain ⟨V, hV, -⟩ := h
  rw [Returns, tickListRemove, twp_bind, twp_getTcb, OS.tcb_tickSpokePtr]
  cases hsp : s.tickSpoke t with
  | none => exact twp_pure.mpr trivial
  | some i =>
    have hti := hV.mem_of_spoke hsp
    obtain ⟨tail, hl⟩ := hV.list i (hV.mem i t hti).1
    obtain ⟨xs, ys, hxs, hxy, -⟩ := List.exists_erase_eq hti
    rw [hxy] at hl
    have hprev : (s.tickWheel i).firstPtr ≠ some t → ∃ x, (s.tcb t).tickPrevPtr = some x := by
      intro hfirst
      cases hx : xs.getLast? with
      | none =>
        rw [List.getLast?_eq_none_iff] at hx
        subst hx
        exact absurd hl.head_eq hfirst
      | some x => exact ⟨x, hl.dlist.prev_eq.trans hx⟩
    rw [twp_bind, twp_modTcb, twp_bind, twp_getTcb, OS.modTcb_tcb, if_pos rfl, twp_bind, twp_getSpoke, twp_ite]
    constructor
    · intro _
      rw [twp_bind, twp_modSpoke]
      cases (s.tcb t).tickNextPtr <;> simp only [twp_bind, twp_modTcb, twp_decSpoke]
    · intro hfirst
      obtain ⟨x, hx⟩ := hprev hfirst
      rw [twp_bind, twp_deref]
      refine ⟨x, hx, ?_⟩
      rw [twp_bind, twp_modTcb]
      cases (s.tcb t).tickNextPtr <;> simp only [twp_bind, twp_modTcb, twp_decSpoke]

end tick

section pend

variable {W : ObjId → List PdId}

theorem pendListRemove1_returns (h : PendRep s W) (hd : d ∈ W o) : Returns n cfg (pendListRemove1 o d) s := by
  have hl := h.list o
  obtain ⟨xs, ys, hxs, hxy, -⟩ := List.exists_erase_eq hd
  rw [hxy] at hl
  have hnext : (s.pendData d).nextPtr = ys.head? := hl.dlist.next_eq
  have hprev : (s.pendData d).prevPtr = xs.getLast? := hl.dlist.prev_eq
  have hnbr : (s.obj o).pendList.nbrEntries = (xs ++ d :: ys).length := hl.nbr_eq
  simp only [Returns, pendListRemove1, twp_bind, twp_getPendData, twp_getObj, twp_ite, twp_modPendList,
    twp_modPendData, twp_decPendList, twp_deref, and_true, implies_true, true_and]
  intro hone
  refine ⟨fun h2 => ?_, fun h2 => ⟨fun _ => ?_, fun h3 => ?_⟩⟩
  · rw [hprev, List.getLast?_eq_none_iff] at h2
    have hys : ys ≠ [] := by
      rintro rfl
      rw [h2] at hnbr
      exact hone hnbr
    exact ⟨_, hnext.trans (List.head?_eq_some_head hys)⟩
  · exact Option.ne_none_iff_exists'.mp h2
  · obtain ⟨x, hx⟩ := Option.ne_none_iff_exists'.mp h2
    obtain ⟨y, hy⟩ := Option.ne_none_iff_exists'.mp h3
    exact ⟨x, hx, y, hy⟩

theorem returns_forEntries {body : PdId → K Unit} {k : ℕ} (I : List PdId → OS → Prop)
    (hret : ∀ d ds s, I (d :: ds) s → Returns n cfg (body d) s)
    (hbody : ∀ d ds s, I (d :: ds) s → wp n cfg (body d) (fun _ => I ds) s) (h0 : I (entriesFrom d k) s) :
    Returns n cfg (forEntries body k d) s := by
  induction k generalizing d s with
  | zero => exact returns_pure ()
  | succ k ih => exact (hret d _ s h0).bind (hbody d _ s h0) fun _ _ h' => ih h'

theorem returns_forTable {body : PdId → K Unit} (I : List PdId → OS → Prop) (ht : s.table t ≠ [])
    (hret : ∀ d ds s, I (d :: ds) s → Returns n cfg (body d) s)
    (hbody : ∀ d ds s, I (d :: ds) s → wp n cfg (body d) (fun _ => I ds) s) (h0 : I (s.table t) s) :
    Returns n cfg (forTable body t) s := by
  rw [OS.table, TCB.table] at ht h0
  cases hd : (s.tcb t).pendDataTblPtr with
  | none => simp [hd] at ht
  | some d =>
    rw [hd] at h0
    rw [Returns, forTable, twp_bind, twp_getTcb, twp_ite]
    refine ⟨fun _ => twp_pure.mpr trivial, fun _ => ?_⟩
    rw [twp_bind, twp_deref]
    exact ⟨d, hd, returns_forEntries I hret hbody h0⟩

theorem pendListRemove_returns (h : PendRep s W) (hne : s.table t ≠ [])
    (ht : ∀ d ∈ s.table t, ∃ o, (s.pendData d).pendObjPtr = some o ∧ d ∈ W o) : Returns n cfg (pendListRemove t) s := by
  -- the entries that are left are still linked
  let I : List PdId → OS → Prop := fun ds s' =>
    ds.Nodup ∧ ∃ W', PendRep s' W' ∧ ∀ d ∈ ds, ∃ o, (s'.pendData d).pendObjPtr = some o ∧ d ∈ W' o
  have hret : ∀ d ds s', I (d :: ds) s' → Returns n cfg (do
      let o ← Prog.deref (← getPendData d).pendObjPtr
      pendListRemove1 o d) s' := by
    rintro d ds s' ⟨-, W', hW', hd⟩
    obtain ⟨o, ho, hdo⟩ := hd d List.mem_cons_self
    rw [Returns, twp_bind, twp_getPendData, twp_bind, twp_deref]
    exact ⟨o, ho, pendListRemove1_returns hW' hdo⟩
  have hbody : ∀ d ds s', I (d :: ds) s' → wp n cfg (do
      let o ← Prog.deref (← getPendData d).pendObjPtr
      pendListRemove1 o d) (fun _ => I ds) s' := by
    rintro d ds s' ⟨hnd, W', hW', hd⟩
    obtain ⟨o, ho, hdo⟩ := hd d List.mem_cons_self
    rw [wp_bind, wp_getPendData, wp_bind, wp_deref, ho]
    rintro _ ⟨⟩
    refine ((pendListRemove1_rep hW' hdo).and (keeps_pendListRemove1 d o n cfg s')).mono ?_
    rintro _ s'' ⟨hrep, hs⟩
    refine ⟨hnd.of_cons, _, hrep, fun x hx => ?_⟩
    obtain ⟨o', ho', hxo⟩ := hd x (List.mem_cons_of_mem d hx)
    refine ⟨o', (congrArg (fun y : OS => (y.pendData x).pendObjPtr) hs).trans ho', ?_⟩
    have hxd : x ≠ d := fun e => (List.nodup_cons.mp hnd).1 (e ▸ hx)
    by_cases hoo : o' = o
    · subst hoo
      rw [Function.update_self]
      exact (List.mem_erase_of_ne hxd).mpr hxo
    · rwa [Function.update_of_ne hoo]
  rw [Returns, pendListRemove, twp_bind]
  refine (returns_forTable I hne hret hbody ⟨TCB.nodup_table, W, h, ht⟩).mono ?_
  intro _ s' _
  rw [twp_modTcb]
  trivial

end pend

end UcosIII
