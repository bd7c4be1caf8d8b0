import UcosIII.Kernel.ReadyList
import UcosIII.Lib.LinkedList
import Mathlib.Data.List.Rotate
import Mathlib.Data.Set.Insert

namespace UcosIII

open Prog

variable {n : ℕ} {cfg : Cfg} {s s' : OS} {R : ℕ → List TcbId} {S : Set ℕ} {L : List TcbId} {t t' : TcbId} {p q : ℕ}

def OS.rdyNext (s : OS) (t : TcbId) : Option TcbId := (s.tcb t).nextPtr

def OS.rdyPrev (s : OS) (t : TcbId) : Option TcbId := (s.tcb t).prevPtr

namespace OS

@[grind =] theorem tcb_nextPtr : (s.tcb t).nextPtr = s.rdyNext t := rfl

@[grind =] theorem tcb_prevPtr : (s.tcb t).prevPtr = s.rdyPrev t := rfl

@[simp, grind =] theorem rdyNext_modTcb (f : TCB → TCB) :
    (s.modTcb t f).rdyNext t' = if t' = t then (f (s.tcb t)).nextPtr else s.rdyNext t' := by
  by_cases h : t' = t <;> simp [rdyNext, modTcb, h]

@[simp, grind =] theorem rdyPrev_modTcb (f : TCB → TCB) :
    (s.modTcb t f).rdyPrev t' = if t' = t then (f (s.tcb t)).prevPtr else s.rdyPrev t' := by
  by_cases h : t' = t <;> simp [rdyPrev, modTcb, h]

@[simp, grind =] theorem rdyNext_modRdyList (f : RdyList → RdyList) : (s.modRdyList p f).rdyNext t = s.rdyNext t := rfl

@[simp, grind =] theorem rdyPrev_modRdyList (f : RdyList → RdyList) : (s.modRdyList p f).rdyPrev t = s.rdyPrev t := rfl

@[simp, grind =] theorem rdyNext_modPrioTbl (f : BitVec 32 → BitVec 32) :
    (s.modPrioTbl p f).rdyNext t = s.rdyNext t := rfl

@[simp, grind =] theorem rdyPrev_modPrioTbl (f : BitVec 32 → BitVec 32) :
    (s.modPrioTbl p f).rdyPrev t = s.rdyPrev t := rfl

@[simp, grind =] theorem rdyList_modPrioTbl (f : BitVec 32 → BitVec 32) :
    (s.modPrioTbl p f).rdyList q = s.rdyList q := rfl

@[simp, grind =] theorem rdyList_modTcb (f : TCB → TCB) : (s.modTcb t f).rdyList p = s.rdyList p := rfl

@[simp, grind =] theorem rdyList_modRdyList (f : RdyList → RdyList) :
    (s.modRdyList p f).rdyList q = if q = p then f (s.rdyList p) else s.rdyList q := modRdyList_rdyList s p q f

end OS

structure RdyLists (cfg : Cfg) (s : OS) (R : ℕ → List TcbId) : Prop where
  list : ∀ p < cfg.prioMax,
    Listed s.rdyNext s.rdyPrev (s.rdyList p).headPtr (s.rdyList p).tailPtr (s.rdyList p).nbrEntries (R p)
  beyond : ∀ p, cfg.prioMax ≤ p → R p = []
  disjoint : ∀ p q t, t ∈ R p → t ∈ R q → p = q

def PrioBits (cfg : Cfg) (s : OS) (S : Set ℕ) : Prop :=
  ∀ p, p / 32 < prioTblSize cfg → ((s.prioTbl (p / 32)).getLsbD (31 - p % 32) = true ↔ p ∈ S)

namespace RdyLists

theorem lt_of_mem (h : RdyLists cfg s R) (ht : t ∈ R p) : p < cfg.prioMax := by
  by_contra hp
  simp [h.beyond p (by omega)] at ht

theorem congr (h : RdyLists cfg s R) (hn : s'.rdyNext = s.rdyNext) (hp : s'.rdyPrev = s.rdyPrev)
    (hl : s'.rdyList = s.rdyList) : RdyLists cfg s' R := by
  refine ⟨fun p hlt => ?_, h.beyond, h.disjoint⟩
  rw [hn, hp, hl]
  exact h.list p hlt

theorem update (h : RdyLists cfg s R) (hp : p < cfg.prioMax)
    (hl : Listed s'.rdyNext s'.rdyPrev (s'.rdyList p).headPtr (s'.rdyList p).tailPtr (s'.rdyList p).nbrEntries L)
    (hr : ∀ q ≠ p, s'.rdyList q = s.rdyList q)
    (hx : ∀ q ≠ p, ∀ x ∈ R q, s'.rdyNext x = s.rdyNext x ∧ s'.rdyPrev x = s.rdyPrev x)
    (hd : ∀ q ≠ p, ∀ x ∈ L, x ∉ R q) : RdyLists cfg s' (Function.update R p L) where
  list := by
    intro q hq
    by_cases hqp : q = p
    · subst hqp
      simpa using hl
    · rw [Function.update_of_ne hqp, hr q hqp]
      exact (h.list q hq).congr (hx q hqp)
  beyond := by
    intro q hq
    rw [Function.update_of_ne (by omega)]
    exact h.beyond q hq
  disjoint := by
    intro q q' x hq hq'
    simp only [Function.update_apply] at hq hq'
    split at hq <;> split at hq'
    · omega
    · exact absurd hq' (hd q' ‹_› x hq)
    · exact absurd hq (hd q ‹_› x hq')
    · exact h.disjoint q q' x hq hq'

end RdyLists

@[simp] theorem wp_incRdyList {Q : Unit → OS → Prop} : wp n cfg (incRdyList p) Q s ↔
    (p < cfg.prioMax → Q () (s.modRdyList p fun l => { l with nbrEntries := l.nbrEntries + 1 })) := by
  simp only [incRdyList, wp_bind, wp_getRdyList, wp_objQtyInc, wp_modRdyList]
  exact ⟨fun h hp => h hp hp, fun h hp _ => h hp⟩

@[simp] theorem wp_decRdyList {Q : Unit → OS → Prop} : wp n cfg (decRdyList p) Q s ↔
    (p < cfg.prioMax → Q () (s.modRdyList p fun l => { l with nbrEntries := l.nbrEntries - 1 })) := by
  simp only [decRdyList, wp_bind, wp_getRdyList, wp_objQtyDec, wp_modRdyList]
  exact ⟨fun h hp => h hp hp, fun h hp _ => h hp⟩

theorem rdyListInsertHead_lists (h : RdyLists cfg s R) (ht : ∀ q, t ∉ R q) :
    wp n cfg (rdyListInsertHead t)
      (fun _ s' => RdyLists cfg s' (Function.update R (s.tcb t).prio (t :: R (s.tcb t).prio))) s := by
  simp only [rdyListInsertHead, wp_bind, wp_getTcb, wp_getRdyList, wp_ite, wp_modTcb, wp_modRdyList, wp_incRdyList, wp_deref]
  intro hp
  have hl := h.list _ hp
  have hdis := h.disjoint
  generalize (s.tcb t).prio = p at *
  have hh := hl.head_eq
  constructor
  · intro hz _
    have hnil : R p = [] := hl.nbr_eq_zero.mp hz
    rw [hnil] at hl ⊢
    refine h.update hp (hl.insert [] [] ?_ ?_ ?_ ?_ ?_ ?_ ?_ ?_) ?_ ?_ ?_
    all_goals grind
  · intro hz _ t2 ht2 _
    have hhead : (R p).head? = some t2 := hl.head_eq ▸ ht2
    have hmem : t2 ∈ R p := List.mem_of_mem_head? hhead
    refine h.update hp (hl.insert [] (R p) (ht p) ?_ ?_ ?_ ?_ ?_ ?_ ?_) ?_ ?_ ?_
    all_goals grind

theorem rdyListInsertTail_lists (h : RdyLists cfg s R) (ht : ∀ q, t ∉ R q) :
    wp n cfg (rdyListInsertTail t)
      (fun _ s' => RdyLists cfg s' (Function.update R (s.tcb t).prio (R (s.tcb t).prio ++ [t]))) s := by
  simp only [rdyListInsertTail, wp_bind, wp_getTcb, wp_getRdyList, wp_ite, wp_modTcb, wp_modRdyList, wp_incRdyList, wp_deref]
  intro hp
  have hl := h.list _ hp
  have hdis := h.disjoint
  generalize (s.tcb t).prio = p at *
  have htail := hl.tail_eq
  constructor
  · intro hz _
    have hnil : R p = [] := hl.nbr_eq_zero.mp hz
    rw [hnil] at hl ⊢
    refine h.update hp (hl.insert [] [] ?_ ?_ ?_ ?_ ?_ ?_ ?_ ?_) ?_ ?_ ?_
    all_goals grind
  · intro hz _ t2 ht2 _
    have htail : (R p).getLast? = some t2 := hl.tail_eq ▸ ht2
    have hmem : t2 ∈ R p := List.mem_of_getLast? htail
    rw [← List.append_nil (R p)] at hl
    refine h.update hp (hl.insert (R p) [] (by simpa using ht p) ?_ ?_ ?_ ?_ ?_ ?_ ?_) ?_ ?_ ?_
    all_goals grind

theorem rdyListRemove_lists (h : RdyLists cfg s R) (ht : t ∈ R (s.tcb t).prio) :
    wp n cfg (rdyListRemove t)
      (fun _ s' => RdyLists cfg s' (Function.update R (s.tcb t).prio ((R (s.tcb t).prio).erase t))) s := by
  have hp := h.lt_of_mem ht
  have hdis := h.disjoint
  have hl := h.list _ hp
  generalize hpe : (s.tcb t).prio = p at *
  obtain ⟨xs, ys, hxs, hxy, herase⟩ := List.exists_erase_eq ht
  rw [herase]
  rw [hxy] at hl
  have hnd := hl.dlist.nodup
  have hx : ∀ x ∈ xs ++ ys, x ∈ R p ∧ x ≠ t := by grind
  simp only [rdyListRemove, wp_bind, wp_getTcb]
  rw [OS.tcb_nextPtr, OS.tcb_prevPtr, hl.dlist.next_eq, hl.dlist.prev_eq]
  have hlast : ∀ x, xs.getLast? = some x → x ∈ R p ∧ x ≠ t := fun x h => hx x (by simp [List.mem_of_getLast? h])
  have hhead : ∀ x, ys.head? = some x → x ∈ R p ∧ x ≠ t := fun x h => hx x (by simp [List.mem_of_mem_head? h])
  have hother : ∀ q ≠ p, ∀ x ∈ R q, x ∉ R p := fun q hq x hxq hxp => hq (hdis q p x hxq hxp)
  have hnew : ∀ q ≠ p, ∀ x ∈ xs ++ ys, x ∉ R q := fun q hq x hxy hxq => hother q hq x hxq (hx x hxy).1
  have hone : xs.getLast? = none → ys.head? = none → (s.rdyList p).nbrEntries = 1 := by
    intro hx1 hy1
    rw [hl.nbr_eq, List.getLast?_eq_none_iff.mp hx1, List.head?_eq_none_iff.mp hy1]
    rfl
  rcases hx1 : xs.getLast? with _ | t1 <;> rcases hy1 : ys.head? with _ | t2 <;>
    simp only [wp_modRdyList, wp_decRdyList, wp_modTcb, wp_bind, prioRemove, wp_modPrioTbl, hpe] <;> intros <;>
    refine h.update hp (hl.erase xs ys ?_ ?_ ?_ ?_ ?_) ?_ ?_ hnew
  all_goals grind only [OS.rdyNext_modTcb, OS.rdyPrev_modTcb, OS.rdyNext_modRdyList, OS.rdyPrev_modRdyList,
    OS.rdyNext_modPrioTbl,
    OS.rdyPrev_modPrioTbl, OS.rdyList_modPrioTbl, OS.rdyList_modTcb, OS.rdyList_modRdyList, OS.tcb_nextPtr, OS.tcb_prevPtr]

theorem rdyListMoveHeadToTail_listed
    (hl : Listed s.rdyNext s.rdyPrev (s.rdyList p).headPtr (s.rdyList p).tailPtr (s.rdyList p).nbrEntries L) :
    wp n cfg (rdyListMoveHeadToTail p) (fun _ s' =>
      Listed s'.rdyNext s'.rdyPrev (s'.rdyList p).headPtr (s'.rdyList p).tailPtr (s.rdyList p).nbrEntries (L.rotate 1) ∧
      (s'.rdyList p).nbrEntries = (s.rdyList p).nbrEntries ∧ (∀ q ≠ p, s'.rdyList q = s.rdyList q) ∧
      (∀ x ∉ L, s'.rdyNext x = s.rdyNext x ∧ s'.rdyPrev x = s.rdyPrev x) ∧ s'.prioTbl = s.prioTbl) s := by
  simp only [rdyListMoveHeadToTail, wp_bind, wp_getRdyList]
  intro hp
  have hh := hl.head_eq
  have ht := hl.tail_eq
  have hnbr := hl.nbr_eq
  rw [hnbr] at hl ⊢
  have hsame (hrot : L.rotate 1 = L) :
      Listed s.rdyNext s.rdyPrev (s.rdyList p).headPtr (s.rdyList p).tailPtr L.length (L.rotate 1) ∧
      (s.rdyList p).nbrEntries = L.length ∧ (∀ q ≠ p, s.rdyList q = s.rdyList q) ∧
      (∀ x ∉ L, s.rdyNext x = s.rdyNext x ∧ s.rdyPrev x = s.rdyPrev x) ∧ s.prioTbl = s.prioTbl := by
    rw [hrot]
    exact ⟨hl, hnbr, fun _ _ => rfl, fun _ _ => ⟨rfl, rfl⟩, rfl⟩
  rcases L with _ | ⟨x, _ | ⟨y, l⟩⟩
  · exact wp_pure.mpr (hsame rfl)
  · exact wp_pure.mpr (hsame (List.rotate_singleton x 1))
  · clear hsame
    have hnd := hl.dlist.nodup
    have hrot : (x :: y :: l).rotate 1 = y :: l ++ [x] := by simp
    rw [hrot]
    rcases l with _ | ⟨z, l⟩
    · simp only [List.length_cons, List.length_nil, wp_bind, wp_deref, wp_modTcb, wp_modRdyList]
      intro t1 ht1 t2 ht2 _
      obtain rfl : x = t1 := by simpa [hh] using ht1
      obtain rfl : y = t2 := by simpa [ht] using ht2
      refine ⟨hl.moveHead ?_ ?_ ?_ ?_ ?_ ?_ ?_ ?_, ?_, ?_, ?_, rfl⟩
      all_goals grind
    · simp only [List.length_cons, wp_bind, wp_deref, wp_modTcb, wp_modRdyList, wp_getTcb]
      intro t1 ht1 t2 ht2 t3 ht3 _
      obtain rfl : x = t1 := by simpa [hh] using ht1
      have hnx : s.rdyNext x = some y := (hl.dlist.links [] x _ rfl).1
      obtain rfl : y = t3 := Option.some_inj.mp (hnx.symm.trans ht3)
      have ht2' : t2 ∈ y :: z :: l := by
        rw [ht, List.getLast?_cons_cons] at ht2
        exact List.mem_of_getLast? ht2
      refine ⟨hl.moveHead ?_ ?_ ?_ ?_ ?_ ?_ ?_ ?_, ?_, ?_, ?_, rfl⟩
      all_goals grind

theorem rdyListMoveHeadToTail_lists (h : RdyLists cfg s R) :
    wp n cfg (rdyListMoveHeadToTail p)
      (fun _ s' => RdyLists cfg s' (Function.update R p ((R p).rotate 1)) ∧ s'.prioTbl = s.prioTbl) s := by
  by_cases hp : p < cfg.prioMax
  · refine (rdyListMoveHeadToTail_listed (h.list p hp)).mono ?_
    rintro _ s' ⟨hl, hnbr, hothers, hlinks, hbits⟩
    rw [← hnbr] at hl
    have hother : ∀ q ≠ p, ∀ x ∈ R q, x ∉ R p := fun q hq x hxq hxp => hq (h.disjoint q p x hxq hxp)
    refine ⟨h.update hp hl hothers (fun q hq x hx => hlinks x (hother q hq x hx)) fun q hq x hx hxq => ?_, hbits⟩
    exact hother q hq x hxq (List.mem_rotate.mp hx)
  · simp only [rdyListMoveHeadToTail, wp_bind, wp_getRdyList]
    exact fun hlt => absurd hlt hp

theorem prioBit_getLsbD : (prioBit q).getLsbD (31 - p % 32) = decide (p % 32 = q % 32) := by
  simp only [prioBit, BitVec.getLsbD_shiftLeft, BitVec.getLsbD_one]
  grind

theorem PrioBits.insert (h : PrioBits cfg s S) :
    PrioBits cfg (s.modPrioTbl (p / 32) (· ||| prioBit p)) (insert p S) := by
  intro q hq
  have hbit := h q hq
  by_cases hqp : q / 32 = p / 32
  · have heq : q = p ↔ q % 32 = p % 32 := by omega
    rw [hqp] at hbit
    simp [OS.modPrioTbl, hqp, prioBit_getLsbD, hbit, heq, or_comm]
  · have hne : q ≠ p := fun h => hqp (h ▸ rfl)
    simp [OS.modPrioTbl, hqp, hne, hbit]

theorem PrioBits.remove (h : PrioBits cfg s S) :
    PrioBits cfg (s.modPrioTbl (p / 32) (· &&& ~~~ prioBit p)) (S \ {p}) := by
  intro q hq
  have hbit := h q hq
  by_cases hqp : q / 32 = p / 32
  · have heq : q = p ↔ q % 32 = p % 32 := by omega
    have hlt : decide (31 - q % 32 < 32) = true := by simp; omega
    rw [hqp] at hbit
    simp only [OS.modPrioTbl, hqp, Function.update_self, BitVec.getLsbD_and, BitVec.getLsbD_not, prioBit_getLsbD, hlt,
      Bool.true_and, Bool.and_eq_true, hbit, Bool.not_eq_true', decide_eq_false_iff_not, Set.mem_sdiff,
      Set.mem_singleton_iff, heq]
  · have hne : q ≠ p := fun h => hqp (h ▸ rfl)
    simp [OS.modPrioTbl, hqp, hne, hbit]

section frame

@[grind =] def TCB.noRdy (c : TCB) : TCB := { c with nextPtr := none, prevPtr := none }

def OS.noRdy (s : OS) : OS :=
  { s with tcb := fun t => (s.tcb t).noRdy, rdyList := fun _ => ⟨none, none, 0⟩, prioTbl := fun _ => 0 }

@[grind ←] theorem OS.noRdy_modTcb {f : TCB → TCB} (hf : ∀ c, (f c).noRdy = c.noRdy) :
    (s.modTcb t f).noRdy = s.noRdy := by
  simp only [noRdy, modTcb, OS.mk.injEq, and_true]
  funext x
  by_cases hx : x = t
  · subst hx
    simpa using hf (s.tcb x)
  · simp [hx]

@[grind =] theorem OS.noRdy_modRdyList {f : RdyList → RdyList} : (s.modRdyList p f).noRdy = s.noRdy := rfl

@[grind =] theorem OS.noRdy_modPrioTbl {f : BitVec 32 → BitVec 32} : (s.modPrioTbl p f).noRdy = s.noRdy := rfl

variable (t p)

@[grind ←] theorem keeps_rdyListInsertHead : Keeps OS.noRdy (rdyListInsertHead t) := by
  intro n cfg s
  simp only [rdyListInsertHead, wp_bind, wp_getTcb, wp_getRdyList, wp_ite, wp_modTcb, wp_modRdyList, wp_incRdyList, wp_deref]
  grind

@[grind ←] theorem keeps_rdyListInsertTail : Keeps OS.noRdy (rdyListInsertTail t) := by
  intro n cfg s
  simp only [rdyListInsertTail, wp_bind, wp_getTcb, wp_getRdyList, wp_ite, wp_modTcb, wp_modRdyList, wp_incRdyList, wp_deref]
  grind

@[grind ←] theorem keeps_prioInsert : Keeps OS.noRdy (prioInsert p) := by
  intro n cfg s
  simp only [prioInsert, wp_modPrioTbl]
  grind

@[grind ←] theorem keeps_rdyListInsert : Keeps OS.noRdy (rdyListInsert t) := by
  grind [rdyListInsert]

@[grind ←] theorem keeps_rdyListRemove : Keeps OS.noRdy (rdyListRemove t) := by
  intro n cfg s
  simp only [rdyListRemove, wp_bind, wp_getTcb]
  split <;> simp only [prioRemove, wp_bind, wp_modTcb, wp_modRdyList, wp_decRdyList, wp_modPrioTbl] <;> grind

@[grind ←] theorem keeps_rdyListMoveHeadToTail : Keeps OS.noRdy (rdyListMoveHeadToTail p) := by
  intro n cfg s
  simp only [rdyListMoveHeadToTail, wp_bind, wp_getRdyList]
  intro _
  split <;> simp only [wp_pure, wp_bind, wp_deref, wp_getTcb, wp_modTcb, wp_modRdyList] <;> grind

theorem keeps_prioTbl_insertHead : Keeps OS.prioTbl (rdyListInsertHead t) := by
  intro n cfg s
  simp +contextual [rdyListInsertHead, OS.modTcb, OS.modRdyList]

theorem keeps_prioTbl_insertTail : Keeps OS.prioTbl (rdyListInsertTail t) := by
  intro n cfg s
  simp +contextual [rdyListInsertTail, OS.modTcb, OS.modRdyList]

end frame

structure RdyRep (cfg : Cfg) (s : OS) (R : ℕ → List TcbId) : Prop where
  lists : RdyLists cfg s R
  bits : PrioBits cfg s {p | R p ≠ []}

namespace RdyRep

theorem congr (h : RdyRep cfg s R) (hn : s'.rdyNext = s.rdyNext) (hp : s'.rdyPrev = s.rdyPrev)
    (hl : s'.rdyList = s.rdyList) (hb : s'.prioTbl = s.prioTbl) : RdyRep cfg s' R where
  lists := h.lists.congr hn hp hl
  bits := by
    intro p hlt
    rw [hb]
    exact h.bits p hlt

theorem of_insert (h : RdyLists cfg s' (Function.update R p L)) (hL : L ≠ [])
    (hb : PrioBits cfg s (insert p {q | R q ≠ []})) (hs : s'.prioTbl = s.prioTbl) :
    RdyRep cfg s' (Function.update R p L) where
  lists := h
  bits := by
    intro q hq
    rw [hs, hb q hq]
    by_cases hqp : q = p <;> simp [hqp, hL]

end RdyRep

theorem rdyListInsertHead_rep (h : RdyLists cfg s R) (hb : PrioBits cfg s (insert (s.tcb t).prio {q | R q ≠ []}))
    (ht : ∀ q, t ∉ R q) : wp n cfg (rdyListInsertHead t)
      (fun _ s' => RdyRep cfg s' (Function.update R (s.tcb t).prio (t :: R (s.tcb t).prio))) s :=
  ((rdyListInsertHead_lists h ht).and (keeps_prioTbl_insertHead t n cfg s)).mono
    fun _ _ ⟨hl, hs⟩ => .of_insert hl (by simp) hb hs

theorem rdyListInsertTail_rep (h : RdyLists cfg s R) (hb : PrioBits cfg s (insert (s.tcb t).prio {q | R q ≠ []}))
    (ht : ∀ q, t ∉ R q) : wp n cfg (rdyListInsertTail t)
      (fun _ s' => RdyRep cfg s' (Function.update R (s.tcb t).prio (R (s.tcb t).prio ++ [t]))) s :=
  ((rdyListInsertTail_lists h ht).and (keeps_prioTbl_insertTail t n cfg s)).mono
    fun _ _ ⟨hl, hs⟩ => .of_insert hl (by simp) hb hs

theorem rdyListInsert_rep (h : RdyRep cfg s R) (ht : ∀ q, t ∉ R q) :
    wp n cfg (rdyListInsert t) (fun _ s' => RdyRep cfg s' (Function.update R (s.tcb t).prio
      (if (s.tcb t).prio = s.prioCur then R (s.tcb t).prio ++ [t] else t :: R (s.tcb t).prio))) s := by
  simp only [rdyListInsert, prioInsert, wp_bind, wp_getTcb, wp_modPrioTbl, wp_get, wp_ite]
  intro _
  have hl : RdyLists cfg (s.modPrioTbl ((s.tcb t).prio / 32) (· ||| prioBit (s.tcb t).prio)) R :=
    ⟨h.lists.list, h.lists.beyond, h.lists.disjoint⟩
  constructor
  · intro hp
    rw [if_pos (show (s.tcb t).prio = s.prioCur from hp)]
    exact rdyListInsertTail_rep hl h.bits.insert ht
  · intro hp
    rw [if_neg (show (s.tcb t).prio ≠ s.prioCur from hp)]
    exact rdyListInsertHead_rep hl h.bits.insert ht

theorem rdyListRemove_rep (h : RdyRep cfg s R) (ht : t ∈ R (s.tcb t).prio) :
    wp n cfg (rdyListRemove t)
      (fun _ s' => RdyRep cfg s' (Function.update R (s.tcb t).prio ((R (s.tcb t).prio).erase t))) s := by
  refine ((rdyListRemove_lists h.lists ht).and ?_).mono fun _ _ ⟨hl, hb⟩ => ⟨hl, hb⟩
  have hp := h.lists.lt_of_mem ht
  have hl := h.lists.list _ hp
  generalize hpe : (s.tcb t).prio = p at *
  obtain ⟨xs, ys, hxs, hxy, herase⟩ := List.exists_erase_eq ht
  rw [herase]
  rw [hxy] at hl
  simp only [rdyListRemove, wp_bind, wp_getTcb]
  rw [OS.tcb_nextPtr, OS.tcb_prevPtr, hl.dlist.next_eq, hl.dlist.prev_eq, hpe]
  -- the bit goes with the last task of the list, and only then
  have hkeep : xs ++ ys ≠ [] → PrioBits cfg s {q | Function.update R p (xs ++ ys) q ≠ []} := by
    intro hne q hq
    rw [h.bits q hq]
    by_cases hqp : q = p
    · simpa [hqp, hxy] using hne
    · simp [hqp]
  rcases hx1 : xs.getLast? with _ | t1 <;> rcases hy1 : ys.head? with _ | t2 <;>
    simp only [wp_modRdyList, wp_decRdyList, wp_modTcb, wp_bind, prioRemove, wp_modPrioTbl] <;> intros
  · rw [List.getLast?_eq_none_iff.mp hx1, List.head?_eq_none_iff.mp hy1]
    have hrem : PrioBits cfg (s.modPrioTbl (p / 32) (· &&& ~~~ prioBit p)) _ := h.bits.remove
    intro q hq
    refine (hrem q hq).trans ?_
    by_cases hqp : q = p <;> simp [hqp]
  all_goals
    refine hkeep fun he => ?_
    obtain ⟨rfl, rfl⟩ := List.append_eq_nil_iff.mp he
    simp at hx1 hy1

theorem rdyListMoveHeadToTail_rep (h : RdyRep cfg s R) :
    wp n cfg (rdyListMoveHeadToTail p) (fun _ s' => RdyRep cfg s' (Function.update R p ((R p).rotate 1))) s := by
  refine (rdyListMoveHeadToTail_lists h.lists).mono fun _ s' ⟨hl, hs⟩ => ⟨hl, ?_⟩
  intro q hq
  rw [hs, h.bits q hq]
  by_cases hqp : q = p <;> simp [hqp]

end UcosIII
