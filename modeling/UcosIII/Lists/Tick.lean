import UcosIII.Kernel.TickList
import UcosIII.Lib.LinkedList

namespace UcosIII

open Prog

variable {n : ℕ} {cfg : Cfg} {s s' : OS} {V : ℕ → List TcbId} {L : List TcbId} {t t' : TcbId} {i j : ℕ}

@[simp] theorem wp_incSpoke {Q : Unit → OS → Prop} :
    wp n cfg (incSpoke i) Q s ↔ Q () (s.modSpoke i fun k => { k with nbrEntries := k.nbrEntries + 1 }) := by
  simp only [incSpoke, wp_bind, wp_getSpoke, wp_objQtyInc, wp_modSpoke]
  exact Iff.rfl

@[simp] theorem wp_decSpoke {Q : Unit → OS → Prop} :
    wp n cfg (decSpoke i) Q s ↔ Q () (s.modSpoke i fun k => { k with nbrEntries := k.nbrEntries - 1 }) := by
  simp only [decSpoke, wp_bind, wp_getSpoke, wp_objQtyDec, wp_modSpoke]
  exact Iff.rfl

section frame

@[grind =] def TCB.noTick (c : TCB) : TCB :=
  { c with
    tickNextPtr := none, tickPrevPtr := none, tickSpokePtr := none, tickCtrPrev := 0, tickCtrMatch := 0,
    tickRemain := 0 }

def OS.noTick (s : OS) : OS := { s with tcb := fun t => (s.tcb t).noTick, tickWheel := fun _ => ⟨none, 0, 0⟩ }

theorem OS.noTick_modTcb_of {f : TCB → TCB} (hf : (f (s.tcb t)).noTick = (s.tcb t).noTick) :
    (s.modTcb t f).noTick = s.noTick := by
  simp only [noTick, modTcb, OS.mk.injEq, and_true]
  funext x
  by_cases hx : x = t
  · subst hx
    simpa using hf
  · simp [hx]

@[grind ←] theorem OS.noTick_modTcb {f : TCB → TCB} (hf : ∀ c, (f c).noTick = c.noTick) :
    (s.modTcb t f).noTick = s.noTick := noTick_modTcb_of (hf _)

@[grind =] theorem OS.noTick_modSpoke {f : TickSpoke → TickSpoke} : (s.modSpoke i f).noTick = s.noTick := rfl

theorem tickMatch_noTick {c c' : TCB} {now time : Tick} {opt : Opt} (h : tickMatch c now time opt = some c') :
    c'.noTick = c.noTick := by
  simp only [tickMatch] at h
  split at h
  · split at h
    · cases h
    · cases h
      rfl
  · split at h
    · split at h <;> cases h <;> rfl
    · cases h

variable (t i)

@[grind ←] theorem keeps_tickListWalk (t1 : TcbId) : Keeps OS.noTick (tickListWalk t i t1) := by
  intro n cfg s
  simp only [tickListWalk, wp_bind, wp_get, wp_modTcb, wp_getTcb, wp_ite]
  constructor <;> intro _ <;> split <;> simp only [wp_bind, wp_modTcb, wp_modSpoke, wp_pure] <;> grind

@[grind ←] theorem keeps_tickListLink : Keeps OS.noTick (tickListLink t) := by
  intro n cfg s
  simp only [tickListLink, wp_bind, wp_getTcb, wp_ask, wp_getSpoke, wp_ite, wp_modTcb, wp_modSpoke]
  constructor
  · grind
  · intro _
    split
    · simp only [wp_bind, wp_modSpoke, wp_incSpoke, wp_modTcb]
      grind
    · rw [wp_bind]
      refine (keeps_loop (keeps_tickListWalk t _) _ n cfg s).mono fun _ s' hs => ?_
      simp only [wp_bind, wp_modSpoke, wp_incSpoke, wp_modTcb]
      grind

@[grind ←] theorem keeps_tickListInsert (time : Tick) (opt : Opt) : Keeps OS.noTick (tickListInsert t time opt) := by
  intro n cfg s
  simp only [tickListInsert, wp_bind, wp_getTcb, wp_get]
  split
  · simp only [wp_bind, wp_modTcb, wp_pure]
    grind
  · rename_i c hc
    simp only [wp_bind, wp_modTcb]
    refine (keeps_tickListLink t n cfg _).mono fun _ s' hs => ?_
    rw [wp_pure, hs]
    exact OS.noTick_modTcb_of (tickMatch_noTick hc)

@[grind ←] theorem keeps_tickListRemove : Keeps OS.noTick (tickListRemove t) := by
  intro n cfg s
  simp only [tickListRemove, wp_bind, wp_getTcb]
  split
  · simp only [wp_pure]
  · simp only [wp_bind, wp_modTcb, wp_getTcb, wp_getSpoke, wp_ite, wp_modSpoke, wp_deref]
    constructor
    · intro _
      split <;> simp only [wp_bind, wp_modTcb, wp_decSpoke] <;> grind
    · intro _ t1 _
      split <;> simp only [wp_bind, wp_modTcb, wp_decSpoke] <;> grind

end frame

namespace OS

def tickNext (s : OS) (t : TcbId) : Option TcbId := (s.tcb t).tickNextPtr

def tickPrev (s : OS) (t : TcbId) : Option TcbId := (s.tcb t).tickPrevPtr

def tickSpoke (s : OS) (t : TcbId) : Option ℕ := (s.tcb t).tickSpokePtr

def tickDue (s : OS) (t : TcbId) : Tick := (s.tcb t).tickCtrMatch

@[grind =] theorem tcb_tickNextPtr : (s.tcb t).tickNextPtr = s.tickNext t := rfl

@[grind =] theorem tcb_tickPrevPtr : (s.tcb t).tickPrevPtr = s.tickPrev t := rfl

@[grind =] theorem tcb_tickSpokePtr : (s.tcb t).tickSpokePtr = s.tickSpoke t := rfl

@[grind =] theorem tcb_tickCtrMatch : (s.tcb t).tickCtrMatch = s.tickDue t := rfl

@[grind =] theorem tickNext_modTcb (f : TCB → TCB) :
    (s.modTcb t f).tickNext t' = if t' = t then (f (s.tcb t)).tickNextPtr else s.tickNext t' := by
  by_cases h : t' = t <;> simp [tickNext, modTcb, h]

@[grind =] theorem tickPrev_modTcb (f : TCB → TCB) :
    (s.modTcb t f).tickPrev t' = if t' = t then (f (s.tcb t)).tickPrevPtr else s.tickPrev t' := by
  by_cases h : t' = t <;> simp [tickPrev, modTcb, h]

@[grind =] theorem tickSpoke_modTcb (f : TCB → TCB) :
    (s.modTcb t f).tickSpoke t' = if t' = t then (f (s.tcb t)).tickSpokePtr else s.tickSpoke t' := by
  by_cases h : t' = t <;> simp [tickSpoke, modTcb, h]

@[grind =] theorem tickDue_modTcb (f : TCB → TCB) :
    (s.modTcb t f).tickDue t' = if t' = t then (f (s.tcb t)).tickCtrMatch else s.tickDue t' := by
  by_cases h : t' = t <;> simp [tickDue, modTcb, h]

@[grind =] theorem tickNext_modSpoke (f : TickSpoke → TickSpoke) : (s.modSpoke i f).tickNext t = s.tickNext t := rfl

@[grind =] theorem tickPrev_modSpoke (f : TickSpoke → TickSpoke) : (s.modSpoke i f).tickPrev t = s.tickPrev t := rfl

@[grind =] theorem tickSpoke_modSpoke (f : TickSpoke → TickSpoke) : (s.modSpoke i f).tickSpoke t = s.tickSpoke t := rfl

@[grind =] theorem tickDue_modSpoke (f : TickSpoke → TickSpoke) : (s.modSpoke i f).tickDue t = s.tickDue t := rfl

@[grind =] theorem tickWheel_modTcb (f : TCB → TCB) : (s.modTcb t f).tickWheel i = s.tickWheel i := rfl

attribute [grind =] modSpoke_tickWheel

end OS

structure SameWheel (s s' : OS) : Prop where
  next : ∀ x, s'.tickNext x = s.tickNext x
  prev : ∀ x, s'.tickPrev x = s.tickPrev x
  spoke : ∀ x, s'.tickSpoke x = s.tickSpoke x
  due : ∀ x, s'.tickDue x = s.tickDue x
  wheel : ∀ i, s'.tickWheel i = s.tickWheel i

theorem SameWheel.refl (s : OS) : SameWheel s s := ⟨fun _ => rfl, fun _ => rfl, fun _ => rfl, fun _ => rfl, fun _ => rfl⟩

theorem SameWheel.trans {s'' : OS} (h : SameWheel s s') (h' : SameWheel s' s'') : SameWheel s s'' where
  next x := (h'.next x).trans (h.next x)
  prev x := (h'.prev x).trans (h.prev x)
  spoke x := (h'.spoke x).trans (h.spoke x)
  due x := (h'.due x).trans (h.due x)
  wheel i := (h'.wheel i).trans (h.wheel i)

theorem SameWheel.modTcb {f : TCB → TCB} (hn : (f (s.tcb t)).tickNextPtr = (s.tcb t).tickNextPtr)
    (hp : (f (s.tcb t)).tickPrevPtr = (s.tcb t).tickPrevPtr) (hs : (f (s.tcb t)).tickSpokePtr = (s.tcb t).tickSpokePtr)
    (hd : (f (s.tcb t)).tickCtrMatch = (s.tcb t).tickCtrMatch) : SameWheel s (s.modTcb t f) := by
  refine ⟨?_, ?_, ?_, ?_, fun _ => rfl⟩
  all_goals
    intro x
    grind

/-- `V i` is the list of spoke `i`, and the task on it are those that wait for a tick of the spoke. -/
structure WheelLists (cfg : Cfg) (s : OS) (V : ℕ → List TcbId) : Prop where
  list : ∀ i < cfg.tickWheelSize, ∃ tail,
    Listed s.tickNext s.tickPrev (s.tickWheel i).firstPtr tail (s.tickWheel i).nbrEntries (V i)
  mem : ∀ i, ∀ x ∈ V i,
    i < cfg.tickWheelSize ∧ s.tickSpoke x = some i ∧ (s.tickDue x).toNat % cfg.tickWheelSize = i
  off : ∀ x, (∀ i, x ∉ V i) → s.tickSpoke x = none

namespace WheelLists

theorem disjoint (h : WheelLists cfg s V) (hi : t ∈ V i) (hj : t ∈ V j) : i = j :=
  Option.some_inj.mp ((h.mem i t hi).2.1.symm.trans (h.mem j t hj).2.1)

theorem update {tail : Option TcbId} (h : WheelLists cfg s V) (hi : i < cfg.tickWheelSize)
    (hl : Listed s'.tickNext s'.tickPrev (s'.tickWheel i).firstPtr tail (s'.tickWheel i).nbrEntries L)
    (hr : ∀ j ≠ i, s'.tickWheel j = s.tickWheel j)
    (hx : ∀ j ≠ i, ∀ x ∈ V j, s'.tickNext x = s.tickNext x ∧ s'.tickPrev x = s.tickPrev x)
    (hs : ∀ x ≠ t, s'.tickSpoke x = s.tickSpoke x ∧ s'.tickDue x = s.tickDue x) (hL : ∀ x ≠ t, x ∈ L ↔ x ∈ V i)
    (ht : ∀ j ≠ i, t ∉ V j) (hti : t ∈ L → s'.tickSpoke t = some i ∧ (s'.tickDue t).toNat % cfg.tickWheelSize = i)
    (hto : t ∉ L → s'.tickSpoke t = none) : WheelLists cfg s' (Function.update V i L) where
  list := by
    intro j hj
    by_cases hji : j = i
    · subst hji
      exact ⟨tail, by simpa using hl⟩
    · obtain ⟨tl, hlj⟩ := h.list j hj
      rw [Function.update_of_ne hji, hr j hji]
      exact ⟨tl, hlj.congr (hx j hji)⟩
  mem := by
    intro j x hxj
    have hmem := h.mem j x
    by_cases hji : j = i
    · subst hji
      rw [Function.update_self] at hxj
      by_cases hxt : x = t
      · subst hxt
        exact ⟨hi, hti hxj⟩
      · rw [(hs x hxt).1, (hs x hxt).2]
        exact hmem ((hL x hxt).mp hxj)
    · rw [Function.update_of_ne hji] at hxj
      have hxt : x ≠ t := fun e => ht j hji (e ▸ hxj)
      rw [(hs x hxt).1, (hs x hxt).2]
      exact hmem hxj
  off := by
    intro x hxo
    have hxi := hxo i
    rw [Function.update_self] at hxi
    by_cases hxt : x = t
    · subst hxt
      exact hto hxi
    · rw [(hs x hxt).1]
      refine h.off x fun j hj => ?_
      by_cases hji : j = i
      · subst hji
        exact hxi ((hL x hxt).mpr hj)
      · exact hxo j (by rwa [Function.update_of_ne hji])

theorem congr (h : WheelLists cfg s V) (e : SameWheel s s') : WheelLists cfg s' V := by
  refine ⟨?_, ?_, ?_⟩
  · rw [funext e.next, funext e.prev, funext e.wheel]
    exact h.list
  · rw [funext e.spoke, funext e.due]
    exact h.mem
  · rw [funext e.spoke]
    exact h.off

theorem mem_of_spoke (h : WheelLists cfg s V) (ht : s.tickSpoke t = some i) : t ∈ V i := by
  by_contra hcon
  have hoff := h.off t fun j hj => by
    have hj' := (h.mem j t hj).2.1
    rw [ht] at hj'
    cases hj'
    exact hcon hj
  rw [ht] at hoff
  cases hoff

end WheelLists

theorem tickListRemove_lists (h : WheelLists cfg s V) :
    wp n cfg (tickListRemove t) (fun _ s' => WheelLists cfg s' fun i => (V i).erase t) s := by
  rw [tickListRemove, wp_bind, wp_getTcb, OS.tcb_tickSpokePtr]
  cases hsp : s.tickSpoke t with
  | none =>
    rw [wp_pure]
    have hoff : ∀ i, t ∉ V i := by
      intro i hi
      rw [(h.mem i t hi).2.1] at hsp
      cases hsp
    simpa [List.erase_of_not_mem, hoff] using h
  | some i =>
    rw [wp_bind, wp_modTcb]
    have h := h.congr (SameWheel.modTcb (t := t) (f := fun c => { c with tickRemain := 0 }) rfl rfl rfl rfl)
    have hsp : (s.modTcb t fun c => { c with tickRemain := 0 }).tickSpoke t = some i := by
      rw [OS.tickSpoke_modTcb, if_pos rfl]
      exact hsp
    generalize s.modTcb t (fun c => { c with tickRemain := 0 }) = s at *
    have hti := h.mem_of_spoke hsp
    have hi := (h.mem i t hti).1
    have hV : (fun j => (V j).erase t) = Function.update V i ((V i).erase t) := by
      funext j
      by_cases hj : j = i
      · subst hj
        simp
      · rw [Function.update_of_ne hj, List.erase_of_not_mem fun h' => hj (h.disjoint h' hti)]
    obtain ⟨tail, hl⟩ := h.list i hi
    rw [hV]
    obtain ⟨xs, ys, hxs, hxy, herase⟩ := List.exists_erase_eq hti
    rw [herase]
    rw [hxy] at hl
    have hnd := hl.dlist.nodup
    have hx : ∀ x ∈ xs ++ ys, x ∈ V i ∧ x ≠ t := by grind
    have hlast : ∀ x, xs.getLast? = some x → x ∈ V i ∧ x ≠ t := fun x h => hx x (by simp [List.mem_of_getLast? h])
    have hhead : ∀ x, ys.head? = some x → x ∈ V i ∧ x ≠ t := fun x h => hx x (by simp [List.mem_of_mem_head? h])
    have hother : ∀ j ≠ i, ∀ x ∈ V j, x ∉ V i := fun j hj x hxj hxi => hj (h.disjoint hxj hxi)
    have hL : ∀ x ≠ t, x ∈ xs ++ ys ↔ x ∈ V i := by grind
    have htL : t ∉ xs ++ ys := fun h' => (hx t h').2 rfl
    have htj : ∀ j ≠ i, t ∉ V j := fun j hj h' => hj (h.disjoint h' hti)
    have hn := hl.dlist.next_eq
    have hp := hl.dlist.prev_eq
    have hfirst : (s.tickWheel i).firstPtr = some t ↔ xs.getLast? = none := by
      rw [hl.head_eq]
      cases xs with
      | nil => simp
      | cons x xs =>
        have : x ≠ t := by grind
        simp [this, List.getLast?_cons]
    simp only [wp_bind, wp_getTcb, wp_getSpoke, wp_ite, hfirst, OS.tcb_tickNextPtr, OS.tcb_tickPrevPtr, hn, hp,
      wp_deref, wp_modSpoke]
    clear hxs hxy herase hnd
    refine ⟨fun h1 => ?_, fun h1 t1 ht1 => ?_⟩
    all_goals
      cases hy : ys.head? <;> simp only [wp_bind, wp_modTcb, wp_decSpoke]
    all_goals
      refine h.update hi (hl.erase xs ys ?_ ?_ ?_ rfl ?_) ?_ ?_ ?_ hL htj ?_ ?_
    all_goals clear hl hn hp hL
    all_goals grind

def OS.tickLeft (s : OS) (t : TcbId) : Tick := s.tickDue t - s.tickCtr

/-- The walk of an insertion has linked `t` between `xs` and `ys`, the two parts of the list of spoke `i`. -/
structure TickLinked (s s' : OS) (t : TcbId) (i : ℕ) (xs ys : List TcbId) : Prop where
  next : ∀ x, s'.tickNext x = if x = t then ys.head? else if xs.getLast? = some x then some t else s.tickNext x
  prev : ∀ x, s'.tickPrev x = if x = t then xs.getLast? else if ys.head? = some x then some t else s.tickPrev x
  spoke : ∀ x, s'.tickSpoke x = s.tickSpoke x
  due : ∀ x, s'.tickDue x = s.tickDue x
  wheel : ∀ j, s'.tickWheel j =
    if j = i ∧ xs.getLast? = none then { s.tickWheel i with firstPtr := some t } else s.tickWheel j
  ctr : s'.tickCtr = s.tickCtr
  before : ∀ x ∈ xs, s.tickLeft x < (s.tcb t).tickRemain
  after : ∀ y, ys.head? = some y → (s.tcb t).tickRemain ≤ s.tickLeft y

theorem tickListWalk_step {t1 : TcbId} {xs ys : List TcbId} (hl : DList s.tickNext s.tickPrev (xs ++ t1 :: ys))
    (ht : t ∉ xs ++ t1 :: ys) (hxs : ∀ x ∈ xs, s.tickLeft x < (s.tcb t).tickRemain) (e : SameWheel s s')
    (hc : s'.tickCtr = s.tickCtr) (hr : (s'.tcb t).tickRemain = (s.tcb t).tickRemain) :
    wp n cfg (tickListWalk t i t1) (fun r s'' => Sum.elim
      (fun t2 => ys.head? = some t2 ∧ s.tickLeft t1 < (s.tcb t).tickRemain ∧ SameWheel s s'' ∧ s''.tickCtr = s.tickCtr ∧
        (s''.tcb t).tickRemain = (s.tcb t).tickRemain)
      (fun _ => TickLinked s s'' t i xs (t1 :: ys) ∨ ys = [] ∧ TickLinked s s'' t i (xs ++ [t1]) []) r) s' := by
  have hnext : s.tickNext t1 = ys.head? := hl.next_eq
  have hprev : s.tickPrev t1 = xs.getLast? := hl.prev_eq
  have hnd := hl.nodup
  have htt : t1 ≠ t := by
    rintro rfl
    simp at ht
  rw [tickListWalk, wp_bind, wp_get, wp_bind, wp_modTcb]
  -- the remaining time is noted first
  have hleft : ((s'.modTcb t1 fun c => { c with tickRemain := c.tickCtrMatch - s'.tickCtr }).tcb t1).tickRemain =
      s.tickLeft t1 := by
    rw [OS.modTcb_tcb, if_pos rfl, OS.tickLeft, ← e.due, ← hc]
    rfl
  replace hr : ((s'.modTcb t1 fun c => { c with tickRemain := c.tickCtrMatch - s'.tickCtr }).tcb t).tickRemain =
      (s.tcb t).tickRemain := by rw [OS.modTcb_tcb, if_neg (Ne.symm htt), hr]
  replace e : SameWheel s (s'.modTcb t1 fun c => { c with tickRemain := c.tickCtrMatch - s'.tickCtr }) :=
    e.trans (.modTcb rfl rfl rfl rfl)
  replace hc : (s'.modTcb t1 fun c => { c with tickRemain := c.tickCtrMatch - s'.tickCtr }).tickCtr = s.tickCtr := hc
  generalize s'.modTcb t1 _ = s₁ at *
  rw [wp_bind, wp_getTcb, wp_bind, wp_getTcb, wp_ite, hleft, hr, OS.tcb_tickNextPtr, OS.tcb_tickPrevPtr, e.next, e.prev,
    hnext, hprev]
  obtain ⟨en, ep, es, ed, ew⟩ := e
  constructor
  · intro hlt
    cases hy : ys.head? with
    | some t2 =>
      simp only [wp_pure, Sum.elim_inl]
      exact ⟨trivial, hlt, ⟨en, ep, es, ed, ew⟩, hc, hr⟩
    | none =>
      simp only [wp_bind, wp_modTcb, wp_pure, Sum.elim_inr]
      refine .inr ⟨List.head?_eq_none_iff.mp hy, ?_, ?_, ?_, ?_, ?_, hc, ?_, by simp⟩
      case refine_6 =>
        intro x hx
        rcases List.mem_append.mp hx with hx | hx
        · exact hxs x hx
        · rw [List.mem_singleton.mp hx]
          exact hlt
      all_goals clear hxs hl
      all_goals grind
  · intro hge
    have hafter : ∀ y, (t1 :: ys).head? = some y → (s.tcb t).tickRemain ≤ s.tickLeft y := by
      rintro y ⟨⟩
      exact BitVec.not_lt.mp hge
    cases hx : xs.getLast? with
    | none =>
      simp only [wp_bind, wp_modTcb, wp_modSpoke, wp_pure, Sum.elim_inr]
      refine .inl ⟨?_, ?_, ?_, ?_, ?_, hc, hxs, hafter⟩
      all_goals clear hxs hafter hl
      all_goals grind
    | some t0 =>
      simp only [wp_bind, wp_modTcb, wp_pure, Sum.elim_inr]
      have ht0 : t0 ∈ xs := List.mem_of_getLast? hx
      refine .inl ⟨?_, ?_, ?_, ?_, ?_, hc, hxs, hafter⟩
      all_goals clear hxs hafter hl
      all_goals grind

theorem tickListWalk_spec {t1 : TcbId} (hl : DList s.tickNext s.tickPrev L) (hh : L.head? = some t1) (ht : t ∉ L) :
    wp n cfg (Prog.loop (tickListWalk t i) t1) (fun _ s' => ∃ xs ys, L = xs ++ ys ∧ TickLinked s s' t i xs ys) s := by
  -- the walk stands on `t1`, all before it are due earlier, and only remaining times have been written
  refine wp_loop (fun t1 s' => (∃ xs ys, L = xs ++ t1 :: ys ∧ ∀ x ∈ xs, s.tickLeft x < (s.tcb t).tickRemain) ∧
    SameWheel s s' ∧ s'.tickCtr = s.tickCtr ∧ (s'.tcb t).tickRemain = (s.tcb t).tickRemain) ?_ ?_
  · rintro t1 s' ⟨⟨xs, ys, rfl, hxs⟩, e, hc, hr⟩
    refine (tickListWalk_step hl ht hxs e hc hr).mono ?_
    rintro (t2 | _) s'' h
    · obtain ⟨hy, hlt, hrest⟩ := h
      obtain ⟨ys, rfl⟩ := List.head?_eq_some_iff.mp hy
      refine ⟨⟨xs ++ [t1], ys, by simp, ?_⟩, hrest⟩
      intro x hx
      rcases List.mem_append.mp hx with hx | hx
      · exact hxs x hx
      · rw [List.mem_singleton.mp hx]
        exact hlt
    · rcases h with h | ⟨rfl, h⟩
      · exact ⟨xs, t1 :: ys, rfl, h⟩
      · exact ⟨xs ++ [t1], [], by simp, h⟩
  · obtain ⟨ys, rfl⟩ := List.head?_eq_some_iff.mp hh
    exact ⟨⟨[], ys, rfl, by simp⟩, .refl s, rfl, rfl⟩

/-- Where an insertion puts `t`: behind the tasks of its spoke that are due earlier. -/
structure TickInserted (cfg : Cfg) (s s' : OS) (V : ℕ → List TcbId) (t : TcbId) (xs ys : List TcbId) : Prop where
  split : V ((s.tickDue t).toNat % cfg.tickWheelSize) = xs ++ ys
  lists : WheelLists cfg s' (Function.update V ((s.tickDue t).toNat % cfg.tickWheelSize) (xs ++ t :: ys))
  due : ∀ x, s'.tickDue x = s.tickDue x
  ctr : s'.tickCtr = s.tickCtr
  before : ∀ x ∈ xs, s.tickLeft x < (s.tcb t).tickRemain
  after : ∀ y, ys.head? = some y → (s.tcb t).tickRemain ≤ s.tickLeft y

theorem tickListLink_lists (h : WheelLists cfg s V) (ht : ∀ i, t ∉ V i) :
    wp n cfg (tickListLink t) (fun _ s' => ∃ xs ys, TickInserted cfg s s' V t xs ys) s := by
  have hi : (s.tickDue t).toNat % cfg.tickWheelSize < cfg.tickWheelSize := Nat.mod_lt _ cfg.tickWheelSize_pos
  rw [tickListLink, wp_bind, wp_getTcb, wp_bind, wp_ask, OS.tcb_tickCtrMatch]
  generalize hie : (s.tickDue t).toNat % cfg.tickWheelSize = i at *
  obtain ⟨tail, hl⟩ := h.list i hi
  have hdis := fun x (hx : x ∈ V i) j (hj : x ∈ V j) => h.disjoint hx hj
  -- what is left to do once the links are in place
  have hfin : ∀ s₁ xs ys, V i = xs ++ ys → TickLinked s s₁ t i xs ys → ∀ f : TickSpoke → TickSpoke,
      (∀ k, (f k).firstPtr = k.firstPtr ∧ (f k).nbrEntries = k.nbrEntries + 1) → ∃ xs ys, TickInserted cfg s
        (((s₁.modSpoke i f).modSpoke i fun k => { k with nbrEntriesMax := max k.nbrEntriesMax k.nbrEntries }).modTcb t
          fun c => { c with tickSpokePtr := some i }) V t xs ys := by
    intro s₁ xs ys hxy hlk f hf
    obtain ⟨ln, lp, ls, ld, lw, lc, lb, la⟩ := hlk
    have hti := ht i
    rw [hxy] at hl hti
    have hL : ∀ x ≠ t, x ∈ xs ++ t :: ys ↔ x ∈ V i := by grind
    have hlast : ∀ x, xs.getLast? = some x → x ∈ V i := fun x h => by simp [hxy, List.mem_of_getLast? h]
    have hhead : ∀ x, ys.head? = some x → x ∈ V i := fun x h => by simp [hxy, List.mem_of_mem_head? h]
    refine ⟨xs, ys, ?_, ?_, ?_, lc, lb, la⟩
    · rw [hie, hxy]
    · rw [hie]
      refine h.update hi (hl.insert xs ys hti ?_ ?_ ?_ ?_ ?_ rfl ?_) ?_ ?_ ?_ hL (fun j _ => ht j) ?_ ?_
      all_goals clear hl hL
      all_goals grind
    · grind
  simp only [wp_bind, wp_getSpoke, wp_ite, wp_modTcb, wp_modSpoke]
  constructor
  · intro hz
    have hnil : V i = [] := hl.nbr_eq_zero.mp hz
    have hspoke : ((s.modTcb t fun c => { c with tickNextPtr := none, tickPrevPtr := none }).modSpoke i
        fun k => { k with firstPtr := some t, nbrEntries := 1 }) =
        ((s.modTcb t fun c => { c with tickNextPtr := none, tickPrevPtr := none }).modSpoke i
          fun k => { k with firstPtr := some t }).modSpoke i fun k => { k with nbrEntries := k.nbrEntries + 1 } := by
      simp [OS.modSpoke, OS.modTcb, hz]
    rw [hspoke]
    refine hfin _ [] [] hnil ?_ (fun k => { k with nbrEntries := k.nbrEntries + 1 }) fun _ => ⟨rfl, rfl⟩
    refine ⟨?_, ?_, ?_, ?_, ?_, rfl, by simp, by simp⟩
    all_goals grind
  · intro hz
    have hne : V i ≠ [] := fun h => hz (hl.nbr_eq_zero.mpr h)
    obtain ⟨t1, ht1⟩ := Option.ne_none_iff_exists'.mp (mt List.head?_eq_none_iff.mp hne)
    rw [hl.head_eq, ht1, wp_bind]
    refine (tickListWalk_spec hl.dlist ht1 (ht i)).mono ?_
    rintro _ s₁ ⟨xs, ys, hxy, hlk⟩
    simp only [wp_bind, wp_modSpoke, wp_incSpoke, wp_modTcb]
    exact hfin s₁ xs ys hxy hlk _ fun _ => ⟨rfl, rfl⟩

namespace WheelLists

theorem modTcb_off {f : TCB → TCB} (h : WheelLists cfg s V) (ht : ∀ i, t ∉ V i)
    (hf : (f (s.tcb t)).tickSpokePtr = none) : WheelLists cfg (s.modTcb t f) V where
  list := by
    intro i hi
    obtain ⟨tail, hl⟩ := h.list i hi
    refine ⟨tail, hl.congr fun x hx => ?_⟩
    have hxt : x ≠ t := fun e => ht i (e ▸ hx)
    grind
  mem := by
    intro i x hx
    have hxt : x ≠ t := fun e => ht i (e ▸ hx)
    have := h.mem i x hx
    grind
  off := by
    intro x hx
    by_cases hxt : x = t
    · subst hxt
      rw [OS.tickSpoke_modTcb, if_pos rfl]
      exact hf
    · rw [OS.tickSpoke_modTcb, if_neg hxt]
      exact h.off x hx

theorem nodup (h : WheelLists cfg s V) (i : ℕ) : (V i).Nodup := by
  by_cases hi : i < cfg.tickWheelSize
  · obtain ⟨tail, hl⟩ := h.list i hi
    exact hl.dlist.nodup
  · have hnil : V i = [] := List.eq_nil_iff_forall_not_mem.mpr fun x hx => hi (h.mem i x hx).1
    rw [hnil]
    exact List.nodup_nil

end WheelLists

def WheelRep (cfg : Cfg) (s : OS) (w : TcbId → Bool) : Prop :=
  ∃ V, WheelLists cfg s V ∧ ∀ t, w t = true ↔ ∃ i, t ∈ V i

section WheelRep

variable {w : TcbId → Bool}

theorem WheelRep.congr (h : WheelRep cfg s w) (e : SameWheel s s') : WheelRep cfg s' w := by
  obtain ⟨V, hV, hw⟩ := h
  exact ⟨V, hV.congr e, hw⟩

theorem WheelRep.modTcb_off {f : TCB → TCB} (h : WheelRep cfg s w) (ht : w t = false)
    (hf : (f (s.tcb t)).tickSpokePtr = none) : WheelRep cfg (s.modTcb t f) w := by
  obtain ⟨V, hV, hw⟩ := h
  refine ⟨V, hV.modTcb_off (fun i hi => ?_) hf, hw⟩
  have := (hw t).mpr ⟨i, hi⟩
  rw [ht] at this
  cases this

theorem tickListRemove_wheel (h : WheelRep cfg s w) :
    wp n cfg (tickListRemove t) (fun _ s' => WheelRep cfg s' (Function.update w t false)) s := by
  obtain ⟨V, hV, hw⟩ := h
  refine (tickListRemove_lists hV).mono fun _ s' h' => ⟨_, h', fun x => ?_⟩
  by_cases hx : x = t
  · subst hx
    simp [(hV.nodup _).mem_erase_iff]
  · simp [hx, hw, (hV.nodup _).mem_erase_iff]

theorem tickMatch_links {c c' : TCB} {now time : Tick} {opt : Opt} (h : tickMatch c now time opt = some c') :
    c'.tickSpokePtr = c.tickSpokePtr := by
  simp only [tickMatch] at h
  split at h
  · split at h
    · cases h
    · cases h
      rfl
  · split at h
    · split at h <;> cases h <;> rfl
    · cases h

theorem tickListInsert_wheel (h : WheelRep cfg s w) (ht : w t = false) (time : Tick) (opt : Opt) :
    wp n cfg (tickListInsert t time opt) (fun e s' =>
      (e = .none ∧ WheelRep cfg s' (Function.update w t true) ∨ e ≠ .none ∧ WheelRep cfg s' w)) s := by
  rw [tickListInsert, wp_bind, wp_getTcb, wp_bind, wp_get]
  cases hm : tickMatch (s.tcb t) s.tickCtr time opt with
  | none =>
    simp only [wp_bind, wp_modTcb, wp_pure]
    exact .inr ⟨by simp, h.modTcb_off ht rfl⟩
  | some c =>
    simp only [wp_bind, wp_modTcb]
    obtain ⟨V, hV, hw⟩ := h
    have hoff : ∀ i, t ∉ V i := by
      intro i hi
      have := (hw t).mpr ⟨i, hi⟩
      rw [ht] at this
      cases this
    have hV' : WheelLists cfg (s.modTcb t fun _ => c) V :=
      hV.modTcb_off hoff ((tickMatch_links hm).trans (hV.off t hoff))
    refine (tickListLink_lists hV' hoff).mono ?_
    rintro _ s' ⟨xs, ys, hins⟩
    rw [wp_pure]
    refine .inl ⟨rfl, _, hins.lists, fun x => ?_⟩
    by_cases hx : x = t
    · subst hx
      simp only [Function.update_self, true_iff]
      exact ⟨_, by rw [Function.update_self]; simp⟩
    · rw [Function.update_of_ne hx, hw]
      refine exists_congr fun i => ?_
      by_cases hi : i = ((s.modTcb t fun _ => c).tickDue t).toNat % cfg.tickWheelSize
      · subst hi
        rw [Function.update_self, hins.split]
        simp [hx]
      · rw [Function.update_of_ne hi]

theorem tickListInsert_err (time : Tick) (opt : Opt) :
    wp n cfg (tickListInsert t time opt) (fun e _ => e = .none ↔ tickMatch (s.tcb t) s.tickCtr time opt ≠ none) s := by
  rw [tickListInsert, wp_bind, wp_getTcb, wp_bind, wp_get]
  cases tickMatch (s.tcb t) s.tickCtr time opt with
  | none => simp
  | some c =>
    simp only [wp_bind, wp_modTcb]
    exact fun _ s' _ => wp_pure.mpr (by simp)

end WheelRep

end UcosIII
