import Mathlib.Algebra.Group.Nat.Defs
import UcosIII.Kernel.RdyHeap
import UcosIII.Lists.Ready

namespace UcosIII

variable {h h' : RdyHeap} {t u : TcbId} {p q : ℕ} {L : List TcbId}

namespace RdyHeap

def rdyNext (h : RdyHeap) (t : TcbId) : Option TcbId := (h.tcb t).nextPtr

def rdyPrev (h : RdyHeap) (t : TcbId) : Option TcbId := (h.tcb t).prevPtr

def bit (h : RdyHeap) (p : ℕ) : Bool := (h.prioTbl (p / 32)).getLsbD (31 - p % 32)

section access

@[grind =] theorem nextPtr_eq : (h.tcb t).nextPtr = h.rdyNext t := rfl

@[grind =] theorem prevPtr_eq : (h.tcb t).prevPtr = h.rdyPrev t := rfl

@[grind =] theorem tcb_modTcb (f : RdyTCB → RdyTCB) : (h.modTcb t f).tcb u = if u = t then f (h.tcb t) else h.tcb u := by
  by_cases hu : u = t <;> simp [modTcb, hu]

@[grind =] theorem rdyNext_modTcb (f : RdyTCB → RdyTCB) :
    (h.modTcb t f).rdyNext u = if u = t then (f (h.tcb t)).nextPtr else h.rdyNext u := by
  by_cases hu : u = t <;> simp [rdyNext, modTcb, hu]

@[grind =] theorem rdyPrev_modTcb (f : RdyTCB → RdyTCB) :
    (h.modTcb t f).rdyPrev u = if u = t then (f (h.tcb t)).prevPtr else h.rdyPrev u := by
  by_cases hu : u = t <;> simp [rdyPrev, modTcb, hu]

@[grind =] theorem rdyList_modTcb (f : RdyTCB → RdyTCB) : (h.modTcb t f).rdyList q = h.rdyList q := rfl

@[grind =] theorem tcb_modRdyList (f : RdyList16 → RdyList16) : (h.modRdyList p f).tcb t = h.tcb t := rfl

@[grind =] theorem rdyNext_modRdyList (f : RdyList16 → RdyList16) : (h.modRdyList p f).rdyNext t = h.rdyNext t := rfl

@[grind =] theorem rdyPrev_modRdyList (f : RdyList16 → RdyList16) : (h.modRdyList p f).rdyPrev t = h.rdyPrev t := rfl

@[grind =] theorem rdyList_modRdyList (f : RdyList16 → RdyList16) :
    (h.modRdyList p f).rdyList q = if q = p then f (h.rdyList p) else h.rdyList q := by
  by_cases hq : q = p <;> simp [modRdyList, hq]

@[grind =] theorem tcb_prioRemove : (h.prioRemove p).tcb t = h.tcb t := rfl

@[grind =] theorem rdyNext_prioRemove : (h.prioRemove p).rdyNext t = h.rdyNext t := rfl

@[grind =] theorem rdyPrev_prioRemove : (h.prioRemove p).rdyPrev t = h.rdyPrev t := rfl

@[grind =] theorem rdyList_prioRemove : (h.prioRemove p).rdyList q = h.rdyList q := rfl

end access

/-- `OSRdyList[p]` is well formed, with the tasks of `L` in that order. -/
structure Rep (h : RdyHeap) (p : ℕ) (L : List TcbId) : Prop where
  list : Listed h.rdyNext h.rdyPrev (h.rdyList p).headPtr (h.rdyList p).tailPtr (h.rdyList p).nbrEntries.toNat L
  prio : ∀ t ∈ L, (h.tcb t).prio = p

/-- Nothing but the links of `L` and the record of `p` differs. -/
structure Only (h h' : RdyHeap) (p : ℕ) (L : List TcbId) : Prop where
  tcb : ∀ t ∉ L, h'.tcb t = h.tcb t
  prio : ∀ t, (h'.tcb t).prio = (h.tcb t).prio
  rdyList : ∀ q ≠ p, h'.rdyList q = h.rdyList q

theorem nbrEntries_add_one {b : BitVec 16} (hb : b.toNat + 1 < 2 ^ 16) : (b + 1).toNat = b.toNat + 1 := by
  have hone : (1 : BitVec 16).toNat = 1 := rfl
  rw [BitVec.toNat_add, hone]
  exact Nat.mod_eq_of_lt hb

theorem nbrEntries_sub_one {b : BitVec 16} (hb : 0 < b.toNat) : (b - 1).toNat = b.toNat - 1 := by
  have hone : (1 : BitVec 16).toNat = 1 := rfl
  rw [BitVec.toNat_sub_of_le, hone]
  rw [BitVec.le_def, hone]
  omega

theorem rdyListInsertHead_refines (hw : h.Rep p L) (ht : t ∉ L) (hp : (h.tcb t).prio = p) (hlen : L.length + 1 < 2 ^ 16) :
    ∃ h', h.rdyListInsertHead t = some h' ∧ h'.Rep p (t :: L) ∧ h.Only h' p (t :: L) ∧ h'.prioTbl = h.prioTbl := by
  have hl := hw.list
  have hh := hl.head_eq
  unfold rdyListInsertHead
  rw [hp]
  by_cases hz : (h.rdyList p).nbrEntries = 0
  · have hnil : L = [] := hl.nbr_eq_zero.mp (by simp [hz])
    subst hnil
    refine ⟨_, if_pos hz, ⟨hl.insert [] [] ?_ ?_ ?_ ?_ ?_ ?_ ?_ ?_, ?_⟩, ⟨?_, ?_, ?_⟩, rfl⟩
    all_goals grind
  · have hne : L ≠ [] := fun hnil => hz (BitVec.eq_of_toNat_eq (by simpa [hnil] using hl.nbr_eq))
    obtain ⟨t2, ht2⟩ : ∃ t2, L.head? = some t2 := ⟨_, List.head?_eq_some_head hne⟩
    have hmem : t2 ∈ L := List.mem_of_mem_head? ht2
    have hnbr := nbrEntries_add_one (hl.nbr_eq ▸ hlen)
    have hhead : (h.rdyList p).headPtr = some t2 := hh.trans ht2
    rw [if_neg hz, hhead, Option.map_some]
    clear hz
    refine ⟨_, rfl, ⟨hl.insert [] L ht ?_ ?_ ?_ ?_ ?_ ?_ ?_, ?_⟩, ⟨?_, ?_, ?_⟩, rfl⟩
    all_goals grind [hw.prio]

theorem rdyListInsertTail_refines (hw : h.Rep p L) (ht : t ∉ L) (hp : (h.tcb t).prio = p) (hlen : L.length + 1 < 2 ^ 16) :
    ∃ h', h.rdyListInsertTail t = some h' ∧ h'.Rep p (L ++ [t]) ∧ h.Only h' p (t :: L) ∧ h'.prioTbl = h.prioTbl := by
  have hl := hw.list
  have hh := hl.tail_eq
  unfold rdyListInsertTail
  rw [hp]
  by_cases hz : (h.rdyList p).nbrEntries = 0
  · have hnil : L = [] := hl.nbr_eq_zero.mp (by simp [hz])
    subst hnil
    refine ⟨_, if_pos hz, ⟨hl.insert [] [] ?_ ?_ ?_ ?_ ?_ ?_ ?_ ?_, ?_⟩, ⟨?_, ?_, ?_⟩, rfl⟩
    all_goals grind
  · have hne : L ≠ [] := fun hnil => hz (BitVec.eq_of_toNat_eq (by simpa [hnil] using hl.nbr_eq))
    obtain ⟨t2, ht2⟩ : ∃ t2, L.getLast? = some t2 := ⟨_, List.getLast?_eq_some_getLast hne⟩
    have hmem : t2 ∈ L := List.mem_of_getLast? ht2
    have hnbr := nbrEntries_add_one (hl.nbr_eq ▸ hlen)
    have htail : (h.rdyList p).tailPtr = some t2 := hh.trans ht2
    rw [← List.append_nil L] at hl
    rw [if_neg hz, htail, Option.map_some]
    clear hz
    refine ⟨_, rfl, ⟨hl.insert L [] (by simpa using ht) ?_ ?_ ?_ ?_ ?_ ?_ ?_, ?_⟩, ⟨?_, ?_, ?_⟩, rfl⟩
    all_goals grind [hw.prio]

theorem bit_prioRemove : (h.prioRemove p).bit q = true ↔ h.bit q = true ∧ q ≠ p := by
  unfold bit prioRemove
  by_cases hqp : q / 32 = p / 32
  · have hiff : q % 32 = p % 32 ↔ q = p := by omega
    have hlt : 31 - q % 32 < 32 := by omega
    simp only [hqp, Function.update_self, BitVec.getLsbD_and, BitVec.getLsbD_not, prioBit_getLsbD, hiff]
    simp [hlt]
  · have hne : q ≠ p := by
      rintro rfl
      exact hqp rfl
    simp [hqp, hne]

@[simp] theorem bit_modTcb (f : RdyTCB → RdyTCB) : (h.modTcb t f).bit q = h.bit q := rfl

@[simp] theorem bit_modRdyList (f : RdyList16 → RdyList16) : (h.modRdyList p f).bit q = h.bit q := rfl

theorem tcb_rdyListRemove : (h.rdyListRemove t).tcb u =
    { prio := (h.tcb u).prio
      nextPtr := if u = t then none else if h.rdyPrev t = some u then h.rdyNext t else h.rdyNext u
      prevPtr := if u = t then none else if h.rdyNext t = some u then h.rdyPrev t else h.rdyPrev u } := by
  unfold rdyListRemove
  rw [nextPtr_eq, prevPtr_eq, tcb_modTcb]
  by_cases hu : u = t
  · subst hu
    rw [if_pos rfl, if_pos rfl, if_pos rfl]
    congr 1
    cases h.rdyPrev u <;> cases h.rdyNext u <;> grind
  · rw [if_neg hu, if_neg hu, if_neg hu]
    cases h.rdyPrev t with
    | none =>
      cases h.rdyNext t with
      | none => rfl
      | some t2 =>
        by_cases h2 : u = t2
        · simp [tcb_modTcb, tcb_modRdyList, rdyNext, h2]
        · simp [tcb_modTcb, tcb_modRdyList, rdyNext, rdyPrev, h2, Ne.symm h2]
    | some t1 =>
      cases h.rdyNext t with
      | none =>
        by_cases h1 : u = t1
        · simp [tcb_modTcb, tcb_modRdyList, rdyPrev, h1]
        · simp [tcb_modTcb, tcb_modRdyList, rdyNext, rdyPrev, h1, Ne.symm h1]
      | some t2 =>
        have hcomm1 : t1 = u ↔ u = t1 := eq_comm
        have hcomm2 : t2 = u ↔ u = t2 := eq_comm
        simp only [tcb_modTcb, tcb_modRdyList, rdyNext, rdyPrev, Option.some.injEq, hcomm1, hcomm2]
        by_cases h2 : u = t2
        · subst h2
          by_cases h1 : u = t1 <;> simp [h1]
        · rw [if_neg h2, if_neg h2]
          by_cases h1 : u = t1 <;> simp [h1]

theorem rdyList_rdyListRemove (hp : (h.tcb t).prio = p) (hpos : 0 < (h.rdyList p).nbrEntries.toNat)
    (hone : h.rdyPrev t = none → h.rdyNext t = none → (h.rdyList p).nbrEntries.toNat = 1) :
    ((h.rdyListRemove t).rdyList p).headPtr = (if h.rdyPrev t = none then h.rdyNext t else (h.rdyList p).headPtr) ∧
    ((h.rdyListRemove t).rdyList p).tailPtr = (if h.rdyNext t = none then h.rdyPrev t else (h.rdyList p).tailPtr) ∧
    ((h.rdyListRemove t).rdyList p).nbrEntries.toNat = (h.rdyList p).nbrEntries.toNat - 1 := by
  have hsub := nbrEntries_sub_one hpos
  unfold rdyListRemove
  rw [nextPtr_eq, prevPtr_eq, hp]
  cases hx : h.rdyPrev t with
  | none => cases hy : h.rdyNext t <;> grind
  | some t1 => cases hy : h.rdyNext t <;> grind

theorem others_rdyListRemove (hp : (h.tcb t).prio = p) (hq : q ≠ p) : (h.rdyListRemove t).rdyList q = h.rdyList q := by
  unfold rdyListRemove
  rw [nextPtr_eq, prevPtr_eq, hp]
  cases hx : h.rdyPrev t with
  | none => cases hy : h.rdyNext t <;> grind
  | some t1 => cases hy : h.rdyNext t <;> grind

theorem bit_rdyListRemove (hp : (h.tcb t).prio = p) : (h.rdyListRemove t).bit q = true ↔
    h.bit q = true ∧ ¬ (q = p ∧ h.rdyPrev t = none ∧ h.rdyNext t = none) := by
  unfold rdyListRemove
  rw [nextPtr_eq, prevPtr_eq, hp]
  cases hx : h.rdyPrev t with
  | none => cases hy : h.rdyNext t <;> simp [bit_prioRemove]
  | some t1 => cases hy : h.rdyNext t <;> simp

theorem rdyListRemove_refines (hw : h.Rep p L) (ht : t ∈ L) :
    (h.rdyListRemove t).Rep p (L.erase t) ∧ h.Only (h.rdyListRemove t) p L ∧
      ∀ q, (h.rdyListRemove t).bit q = true ↔ h.bit q = true ∧ ¬ (q = p ∧ L.erase t = []) := by
  have hl := hw.list
  have hp := hw.prio t ht
  obtain ⟨xs, ys, hxs, rfl, herase⟩ := List.exists_erase_eq ht
  rw [herase]
  have hnd := hl.dlist.nodup
  have hnext : h.rdyNext t = ys.head? := hl.dlist.next_eq
  have hprev : h.rdyPrev t = xs.getLast? := hl.dlist.prev_eq
  have hx : ∀ x ∈ xs ++ ys, x ≠ t := by grind
  have hempty : xs ++ ys = [] ↔ h.rdyPrev t = none ∧ h.rdyNext t = none := by simp [hnext, hprev]
  have hlen := hl.nbr_eq
  rw [List.length_append, List.length_cons] at hlen
  obtain ⟨hhead, htail, hnbr⟩ := rdyList_rdyListRemove hp (by omega) fun h₁ h₂ => by
    have hnil := hempty.mpr ⟨h₁, h₂⟩
    have := congrArg List.length hnil
    rw [List.length_append, List.length_nil] at this
    omega
  refine ⟨⟨hl.erase xs ys ?_ ?_ ?_ ?_ hnbr, ?_⟩, ⟨?_, ?_, ?_⟩, ?_⟩
  · intro x hxm
    rw [rdyNext, tcb_rdyListRemove, if_neg (hx x hxm), hprev, hnext]
  · intro x hxm
    rw [rdyPrev, tcb_rdyListRemove, if_neg (hx x hxm), if_neg (hx x hxm), hprev, hnext]
  · rw [hhead, hprev, hnext]
  · rw [htail, hprev, hnext]
  · intro u hu
    rw [tcb_rdyListRemove]
    exact hw.prio u (by grind)
  · intro u hu
    have hne : u ≠ t := by
      rintro rfl
      exact hu (by simp)
    have hlast : h.rdyPrev t ≠ some u := by
      rw [hprev]
      intro e
      exact hu (List.mem_append_left _ (List.mem_of_getLast? e))
    have hfirst : h.rdyNext t ≠ some u := by
      rw [hnext]
      intro e
      exact hu (List.mem_append_right _ (List.mem_cons_of_mem t (List.mem_of_mem_head? e)))
    rw [tcb_rdyListRemove, if_neg hne, if_neg hne, if_neg hlast, if_neg hfirst]
    rfl
  · intro u
    rw [tcb_rdyListRemove]
  · intro q hq
    exact others_rdyListRemove hp hq
  · intro q
    rw [bit_rdyListRemove hp, hempty]

theorem rdyListMoveHeadToTail_refines (hw : h.Rep p L) : ∃ h', h.rdyListMoveHeadToTail p = some h' ∧
    h'.Rep p (L.rotate 1) ∧ h.Only h' p L ∧ h'.prioTbl = h.prioTbl := by
  have hl := hw.list
  have hh := hl.head_eq
  have ht := hl.tail_eq
  have hnbr := hl.nbr_eq
  have hp := hw.prio
  have heq : ∀ k < 2 ^ 16, (h.rdyList p).nbrEntries = BitVec.ofNat 16 k ↔ L.length = k := by
    intro k hk
    rw [← BitVec.toNat_inj, hnbr, BitVec.toNat_ofNat, Nat.mod_eq_of_lt hk]
  have h0 := heq 0 (by decide)
  have h1 := heq 1 (by decide)
  have h2 := heq 2 (by decide)
  have hsame : ∃ h', some h = some h' ∧ h'.Rep p L ∧ h.Only h' p L ∧ h'.prioTbl = h.prioTbl :=
    ⟨h, rfl, hw, ⟨fun _ _ => rfl, fun _ => rfl, fun _ _ => rfl⟩, rfl⟩
  unfold rdyListMoveHeadToTail
  simp only [BitVec.ofNat_eq_ofNat, h0, h1, h2]
  rcases L with _ | ⟨x, _ | ⟨y, l⟩⟩
  · simpa using hsame
  · simpa using hsame
  · have hnd := hl.dlist.nodup
    have hrot : (x :: y :: l).rotate 1 = y :: l ++ [x] := by simp
    rw [hrot]
    rcases l with _ | ⟨z, l⟩
    · have hh' : (h.rdyList p).headPtr = some x := hh
      have ht' : (h.rdyList p).tailPtr = some y := ht
      simp only [List.length_cons, List.length_nil, hh', ht']
      refine ⟨_, rfl, ⟨hl.moveHead ?_ ?_ ?_ ?_ ?_ ?_ ?_ ?_, ?_⟩, ⟨?_, ?_, ?_⟩, rfl⟩
      all_goals grind
    · obtain ⟨w, hw'⟩ : ∃ w, (y :: z :: l).getLast? = some w := ⟨_, List.getLast?_eq_some_getLast (by simp)⟩
      have hmem : w ∈ y :: z :: l := List.mem_of_getLast? hw'
      have hh' : (h.rdyList p).headPtr = some x := hh
      have ht' : (h.rdyList p).tailPtr = some w := by rw [ht, List.getLast?_cons_cons, hw']
      have hnx : (h.tcb x).nextPtr = some y := (hl.dlist.links [] x _ rfl).1
      rw [if_neg (by simp), if_neg (by simp), hh', ht', Option.bind_eq_bind, Option.bind_some, Option.bind_some, hnx,
        Option.bind_some]
      clear heq h0 h1 h2 hsame
      refine ⟨_, rfl, ⟨hl.moveHead ?_ ?_ ?_ ?_ ?_ ?_ ?_ ?_, ?_⟩, ⟨?_, ?_, ?_⟩, rfl⟩
      all_goals grind

def filled (n p : ℕ) : RdyHeap where
  tcb t := { prio := p, nextPtr := if t + 1 < n then some (t + 1) else none, prevPtr := if 0 < t then some (t - 1) else none }
  rdyList _ :=
    { headPtr := if 0 < n then some 0 else none, tailPtr := if 0 < n then some (n - 1) else none
      nbrEntries := BitVec.ofNat 16 n }
  prioTbl _ := 0xFFFFFFFF

theorem filled_rep {n : ℕ} (p : ℕ) (hn : n < 2 ^ 16) : (filled n p).Rep p (List.range n) where
  list := by
    refine ⟨⟨List.nodup_range, ?_⟩, ?_, ?_, ?_⟩
    · intro xs x ys e
      have hx : (List.range n)[xs.length]? = some x := by simp [e]
      have hy : (List.range n)[xs.length + 1]? = ys.head? := by
        rw [e, List.getElem?_append_right (by omega), List.head?_eq_getElem?]
        simp
      obtain ⟨hlt, hx⟩ := List.getElem?_eq_some_iff.mp hx
      rw [List.getElem_range] at hx
      subst hx
      refine ⟨?_, ?_⟩
      · rw [← hy]
        by_cases hlt' : xs.length + 1 < n <;> simp [filled, RdyHeap.rdyNext, hlt']
      · rcases List.eq_nil_or_concat xs with rfl | ⟨zs, z, rfl⟩
        · simp [filled, RdyHeap.rdyPrev]
        · have hz : (List.range n)[zs.length]? = some z := by simp [e]
          obtain ⟨_, hz⟩ := List.getElem?_eq_some_iff.mp hz
          rw [List.getElem_range] at hz
          subst hz
          simp [filled, RdyHeap.rdyPrev]
    · cases n <;> simp [filled, List.range_succ_eq_map]
    · cases n <;> simp [filled, List.range_succ]
    · simp only [filled, BitVec.toNat_ofNat, List.length_range]
      exact Nat.mod_eq_of_lt hn
  prio := by simp [filled]

end RdyHeap

theorem rdyList_refines (hw : h.Rep p L) :
    (∀ t ∉ L, (h.tcb t).prio = p → L.length + 1 < 2 ^ 16 →
      (∃ h', h.rdyListInsertHead t = some h' ∧ h'.Rep p (t :: L) ∧ h.Only h' p (t :: L) ∧ h'.prioTbl = h.prioTbl) ∧
      ∃ h', h.rdyListInsertTail t = some h' ∧ h'.Rep p (L ++ [t]) ∧ h.Only h' p (t :: L) ∧ h'.prioTbl = h.prioTbl) ∧
    (∀ t ∈ L, (h.rdyListRemove t).Rep p (L.erase t) ∧ h.Only (h.rdyListRemove t) p L ∧
      ∀ q, (h.rdyListRemove t).bit q = true ↔ h.bit q = true ∧ ¬ (q = p ∧ L.erase t = [])) ∧
    ∃ h', h.rdyListMoveHeadToTail p = some h' ∧ h'.Rep p (L.rotate 1) ∧ h.Only h' p L ∧ h'.prioTbl = h.prioTbl := by
  refine ⟨?_, ?_, RdyHeap.rdyListMoveHeadToTail_refines hw⟩
  · intro t ht hp hlen
    exact ⟨RdyHeap.rdyListInsertHead_refines hw ht hp hlen, RdyHeap.rdyListInsertTail_refines hw ht hp hlen⟩
  · intro t ht
    exact RdyHeap.rdyListRemove_refines hw ht

theorem rdyList_refines_three : ∃ h p L t u, L.length = 3 ∧ RdyHeap.Rep h p L ∧ t ∉ L ∧ u ∈ L ∧
    (∃ h', h.rdyListInsertHead t = some h' ∧ h'.Rep p (t :: L)) ∧
    (∃ h', h.rdyListInsertTail t = some h' ∧ h'.Rep p (L ++ [t])) ∧ (h.rdyListRemove u).Rep p (L.erase u) ∧
    ∃ h', h.rdyListMoveHeadToTail p = some h' ∧ h'.Rep p (L.rotate 1) := by
  have hw : (RdyHeap.filled 3 5).Rep 5 (List.range 3) := RdyHeap.filled_rep 5 (by decide)
  obtain ⟨hins, hrem, h', hmove, hmove', -⟩ := rdyList_refines hw
  obtain ⟨⟨h1, hh, hh', -⟩, h2, ht, ht', -⟩ := hins 7 (by decide) rfl (by decide)
  exact ⟨_, 5, List.range 3, 7, 1, rfl, hw, by decide, by decide, ⟨h1, hh, hh'⟩, ⟨h2, ht, ht'⟩, (hrem 1 (by decide)).1,
    h', hmove, hmove'⟩

/-- A list of 65535 tasks takes one more, but its counter does not. -/
theorem rdyListInsertHead_overflow : (RdyHeap.filled 65535 5).Rep 5 (List.range 65535) ∧ 65535 ∉ List.range 65535 ∧
    ((RdyHeap.filled 65535 5).tcb 65535).prio = 5 ∧
    ∀ h', (RdyHeap.filled 65535 5).rdyListInsertHead 65535 = some h' → ¬ h'.Rep 5 (65535 :: List.range 65535) := by
  refine ⟨RdyHeap.filled_rep 5 (by decide), by simp, rfl, ?_⟩
  intro h' _ hw
  have hn := hw.list.nbr_eq
  have hlt := (h'.rdyList 5).nbrEntries.isLt
  rw [hn, List.length_cons, List.length_range] at hlt
  omega

section kernel

open Prog

variable {n : ℕ} {cfg : Cfg} {s : OS}

def TCB.rdy (c : TCB) : RdyTCB := { prio := c.prio, nextPtr := c.nextPtr, prevPtr := c.prevPtr }

def RdyList.wrap (l : RdyList) : RdyList16 :=
  { headPtr := l.headPtr, tailPtr := l.tailPtr, nbrEntries := BitVec.ofNat 16 l.nbrEntries }

def OS.rdyHeap (s : OS) : RdyHeap where
  tcb t := (s.tcb t).rdy
  rdyList p := (s.rdyList p).wrap
  prioTbl := s.prioTbl

theorem rdyHeap_modTcb (f : TCB → TCB) (g : RdyTCB → RdyTCB) (hfg : ∀ c, (f c).rdy = g c.rdy) :
    (s.modTcb t f).rdyHeap = s.rdyHeap.modTcb t g := by
  have htcb : (fun u => ((s.modTcb t f).tcb u).rdy) = Function.update (fun u => (s.tcb u).rdy) t (g (s.tcb t).rdy) := by
    funext u
    by_cases hu : u = t
    · subst hu
      simp [OS.modTcb, hfg]
    · simp [OS.modTcb, hu]
  unfold OS.rdyHeap RdyHeap.modTcb
  rw [htcb]
  rfl

theorem rdyHeap_modRdyList (f : RdyList → RdyList) (g : RdyList16 → RdyList16)
    (hfg : (f (s.rdyList p)).wrap = g (s.rdyList p).wrap) : (s.modRdyList p f).rdyHeap = s.rdyHeap.modRdyList p g := by
  have hlist : (fun q => ((s.modRdyList p f).rdyList q).wrap) =
      Function.update (fun q => (s.rdyList q).wrap) p (g (s.rdyList p).wrap) := by
    funext q
    by_cases hq : q = p
    · subst hq
      simp [hfg]
    · simp [hq]
  unfold OS.rdyHeap RdyHeap.modRdyList
  rw [hlist]
  rfl

theorem rdyHeap_prioRemove : (s.modPrioTbl (p / 32) (· &&& ~~~ prioBit p)).rdyHeap = s.rdyHeap.prioRemove p := rfl

theorem RdyHeap.modRdyList_modRdyList (h : RdyHeap) (f g : RdyList16 → RdyList16) :
    (h.modRdyList p f).modRdyList p g = h.modRdyList p fun l => g (f l) := by
  simp [RdyHeap.modRdyList]

theorem RdyHeap.modTcb_modRdyList (h : RdyHeap) (f : RdyList16 → RdyList16) (g : RdyTCB → RdyTCB) :
    (h.modRdyList p f).modTcb t g = (h.modTcb t g).modRdyList p f := rfl

theorem wrap_nbrEntries_eq {l : RdyList} (hl : l.nbrEntries < 2 ^ 16) {k : ℕ} (hk : k < 2 ^ 16) :
    l.wrap.nbrEntries = BitVec.ofNat 16 k ↔ l.nbrEntries = k := by
  unfold RdyList.wrap
  rw [← BitVec.toNat_inj, BitVec.toNat_ofNat, BitVec.toNat_ofNat, Nat.mod_eq_of_lt hl, Nat.mod_eq_of_lt hk]

theorem wrap_add_one (k : ℕ) : BitVec.ofNat 16 (k + 1) = BitVec.ofNat 16 k + 1 := BitVec.ofNat_add ..

theorem wrap_sub_one {k : ℕ} (hk : 0 < k) : BitVec.ofNat 16 (k - 1) = BitVec.ofNat 16 k - 1 := by
  obtain ⟨j, rfl⟩ := Nat.exists_eq_add_of_le' hk
  rw [wrap_add_one, Nat.add_sub_cancel, BitVec.add_sub_cancel]

theorem rdyListInsertHead_heap (hn : (s.rdyList (s.tcb t).prio).nbrEntries < 2 ^ 16) :
    wp n cfg (rdyListInsertHead t) (fun _ s' => s.rdyHeap.rdyListInsertHead t = some s'.rdyHeap) s := by
  have hz : (s.rdyHeap.rdyList (s.tcb t).prio).nbrEntries = 0 ↔ (s.rdyList (s.tcb t).prio).nbrEntries = 0 :=
    wrap_nbrEntries_eq hn (by decide)
  simp only [rdyListInsertHead, wp_bind, wp_getTcb, wp_getRdyList, wp_ite, wp_modTcb, wp_modRdyList, wp_incRdyList,
    wp_deref]
  unfold RdyHeap.rdyListInsertHead
  intro hp
  constructor
  · intro h0 _
    rw [rdyHeap_modRdyList (g := fun _ => ⟨some t, some t, 1⟩), rdyHeap_modTcb (g := fun c => ⟨c.prio, none, none⟩)]
    · exact if_pos (hz.mpr h0)
    · exact fun _ => rfl
    · rfl
  · intro h0 _ t2 ht2 _
    have hhead : (s.rdyHeap.rdyList (s.rdyHeap.tcb t).prio).headPtr = some t2 := ht2
    rw [rdyHeap_modRdyList (g := fun l => ⟨some t, l.tailPtr, l.nbrEntries⟩),
      rdyHeap_modTcb (g := fun c => ⟨c.prio, c.nextPtr, some t⟩), rdyHeap_modTcb (g := fun c => ⟨c.prio, some t2, none⟩),
      rdyHeap_modRdyList (g := fun l => { l with nbrEntries := l.nbrEntries + 1 })]
    · refine (if_neg (hz.not.mpr h0)).trans ?_
      rw [hhead]
      simp only [RdyHeap.modTcb_modRdyList, RdyHeap.modRdyList_modRdyList]
      rfl
    · exact congrArg (RdyList16.mk _ _) (wrap_add_one _)
    · intro c
      rw [ht2]
      rfl
    · exact fun _ => rfl
    · rfl

theorem rdyListInsertTail_heap (hn : (s.rdyList (s.tcb t).prio).nbrEntries < 2 ^ 16) :
    wp n cfg (rdyListInsertTail t) (fun _ s' => s.rdyHeap.rdyListInsertTail t = some s'.rdyHeap) s := by
  have hz : (s.rdyHeap.rdyList (s.tcb t).prio).nbrEntries = 0 ↔ (s.rdyList (s.tcb t).prio).nbrEntries = 0 :=
    wrap_nbrEntries_eq hn (by decide)
  simp only [rdyListInsertTail, wp_bind, wp_getTcb, wp_getRdyList, wp_ite, wp_modTcb, wp_modRdyList, wp_incRdyList,
    wp_deref]
  unfold RdyHeap.rdyListInsertTail
  intro hp
  constructor
  · intro h0 _
    rw [rdyHeap_modRdyList (g := fun _ => ⟨some t, some t, 1⟩), rdyHeap_modTcb (g := fun c => ⟨c.prio, none, none⟩)]
    · exact if_pos (hz.mpr h0)
    · exact fun _ => rfl
    · rfl
  · intro h0 _ t2 ht2 _
    have htail : (s.rdyHeap.rdyList (s.rdyHeap.tcb t).prio).tailPtr = some t2 := ht2
    rw [rdyHeap_modRdyList (g := fun l => ⟨l.headPtr, some t, l.nbrEntries⟩),
      rdyHeap_modTcb (g := fun c => ⟨c.prio, some t, c.prevPtr⟩), rdyHeap_modTcb (g := fun c => ⟨c.prio, none, some t2⟩),
      rdyHeap_modRdyList (g := fun l => { l with nbrEntries := l.nbrEntries + 1 })]
    · refine (if_neg (hz.not.mpr h0)).trans ?_
      rw [htail]
      simp only [RdyHeap.modTcb_modRdyList, RdyHeap.modRdyList_modRdyList]
      rfl
    · exact congrArg (RdyList16.mk _ _) (wrap_add_one _)
    · intro c
      rw [ht2]
      rfl
    · exact fun _ => rfl
    · rfl

theorem rdyListMoveHeadToTail_heap (hn : (s.rdyList p).nbrEntries < 2 ^ 16) :
    wp n cfg (rdyListMoveHeadToTail p) (fun _ s' => s.rdyHeap.rdyListMoveHeadToTail p = some s'.rdyHeap) s := by
  have heq : ∀ k < 2 ^ 16, (s.rdyHeap.rdyList p).nbrEntries = BitVec.ofNat 16 k ↔ (s.rdyList p).nbrEntries = k :=
    fun k hk => wrap_nbrEntries_eq hn hk
  simp only [rdyListMoveHeadToTail, wp_bind, wp_getRdyList]
  unfold RdyHeap.rdyListMoveHeadToTail
  simp only [BitVec.ofNat_eq_ofNat, heq 0 (by decide), heq 1 (by decide), heq 2 (by decide)]
  intro hp
  split
  · simp_all
  · simp_all
  · rename_i h2
    simp only [wp_bind, wp_deref, wp_modTcb, wp_modRdyList, h2]
    intro t1 ht1 t2 ht2 _
    have hhead : (s.rdyHeap.rdyList p).headPtr = some t1 := ht1
    have htail : (s.rdyHeap.rdyList p).tailPtr = some t2 := ht2
    rw [rdyHeap_modRdyList (g := fun l => ⟨some t2, some t1, l.nbrEntries⟩),
      rdyHeap_modTcb (g := fun c => ⟨c.prio, some t1, none⟩), rdyHeap_modTcb (g := fun c => ⟨c.prio, none, some t2⟩),
      hhead, htail]
    · rfl
    · exact fun _ => rfl
    · exact fun _ => rfl
    · rfl
  · rename_i h0 h1 h2
    simp only [wp_bind, wp_deref, wp_modTcb, wp_modRdyList, wp_getTcb]
    intro t1 ht1 t2 ht2 t3 ht3 _
    have hhead : (s.rdyHeap.rdyList p).headPtr = some t1 := ht1
    have htail : (s.rdyHeap.rdyList p).tailPtr = some t2 := ht2
    have hnext : (s.rdyHeap.tcb t1).nextPtr = some t3 := ht3
    rw [rdyHeap_modRdyList (g := fun l => ⟨some t3, some t1, l.nbrEntries⟩),
      rdyHeap_modTcb (g := fun c => ⟨c.prio, some t1, c.prevPtr⟩), rdyHeap_modTcb (g := fun c => ⟨c.prio, none, some t2⟩),
      rdyHeap_modTcb (g := fun c => ⟨c.prio, c.nextPtr, none⟩), if_neg (not_or.mpr ⟨h0, h1⟩), if_neg h2, hhead, htail]
    · simp only [Option.bind_eq_bind, Option.bind_some, hnext]
    · exact fun _ => rfl
    · exact fun _ => rfl
    · exact fun _ => rfl
    · rfl

theorem rdyListRemove_heap (hn : 0 < (s.rdyList (s.tcb t).prio).nbrEntries) :
    wp n cfg (rdyListRemove t) (fun _ s' => s.rdyHeap.rdyListRemove t = s'.rdyHeap) s := by
  have hprev : (s.rdyHeap.tcb t).prevPtr = (s.tcb t).prevPtr := rfl
  have hnext : (s.rdyHeap.tcb t).nextPtr = (s.tcb t).nextPtr := rfl
  simp only [rdyListRemove, wp_bind, wp_getTcb]
  unfold RdyHeap.rdyListRemove
  rw [hprev, hnext]
  cases (s.tcb t).prevPtr with
  | none =>
    cases (s.tcb t).nextPtr with
    | none =>
      simp only [wp_modRdyList, wp_modTcb, wp_bind, prioRemove, wp_modPrioTbl]
      intro _ _
      rw [rdyHeap_modTcb (g := fun c => ⟨c.prio, none, none⟩), rdyHeap_prioRemove,
        rdyHeap_modRdyList (g := fun _ => ⟨none, none, 0⟩)]
      · rfl
      · rfl
      · exact fun _ => rfl
    | some t2 =>
      simp only [wp_modRdyList, wp_decRdyList, wp_modTcb, wp_bind]
      intro _ _
      rw [rdyHeap_modTcb (g := fun c => ⟨c.prio, none, none⟩),
        rdyHeap_modRdyList (g := fun l => ⟨some t2, l.tailPtr, l.nbrEntries⟩),
        rdyHeap_modTcb (g := fun c => ⟨c.prio, c.nextPtr, none⟩),
        rdyHeap_modRdyList (g := fun l => { l with nbrEntries := l.nbrEntries - 1 })]
      · simp only [RdyHeap.modTcb_modRdyList, RdyHeap.modRdyList_modRdyList]
        rfl
      · exact congrArg (RdyList16.mk _ _) (wrap_sub_one hn)
      · exact fun _ => rfl
      · rfl
      · exact fun _ => rfl
  | some t1 =>
    cases (s.tcb t).nextPtr with
    | none =>
      simp only [wp_modRdyList, wp_decRdyList, wp_modTcb, wp_bind]
      intro _ _
      rw [rdyHeap_modTcb (g := fun c => ⟨c.prio, none, none⟩),
        rdyHeap_modRdyList (g := fun l => ⟨l.headPtr, some t1, l.nbrEntries⟩),
        rdyHeap_modTcb (g := fun c => ⟨c.prio, none, c.prevPtr⟩),
        rdyHeap_modRdyList (g := fun l => { l with nbrEntries := l.nbrEntries - 1 })]
      · simp only [RdyHeap.modTcb_modRdyList, RdyHeap.modRdyList_modRdyList]
        rfl
      · exact congrArg (RdyList16.mk _ _) (wrap_sub_one hn)
      · exact fun _ => rfl
      · rfl
      · exact fun _ => rfl
    | some t2 =>
      simp only [wp_modTcb, wp_decRdyList, wp_bind]
      intro _
      rw [rdyHeap_modTcb (g := fun c => ⟨c.prio, none, none⟩),
        rdyHeap_modTcb (g := fun c => ⟨c.prio, c.nextPtr, some t1⟩),
        rdyHeap_modTcb (g := fun c => ⟨c.prio, some t2, c.prevPtr⟩),
        rdyHeap_modRdyList (g := fun l => { l with nbrEntries := l.nbrEntries - 1 })]
      · rfl
      · exact congrArg (RdyList16.mk _ _) (wrap_sub_one hn)
      · exact fun _ => rfl
      · exact fun _ => rfl
      · exact fun _ => rfl

end kernel

end UcosIII
