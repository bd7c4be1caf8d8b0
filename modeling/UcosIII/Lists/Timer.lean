import UcosIII.Kernel.Timer
import UcosIII.Lib.LinkedList
import UcosIII.Lib.Wheel

namespace UcosIII

open Prog

variable {n : ℕ} {c : TmrCfg} {s s' : Sys} {V : ℕ → List TmrId} {L : List TmrId} {t t' : TmrId} {i j : ℕ}

section rules

variable {α : Type}

theorem wp_onKernel {m : K α} {Q : α → Sys → Prop} :
    wp n c (onKernel m) Q s ↔ wp n c.cfg m (fun a o => Q a { s with os := o }) s.os := wp_zoom

@[simp] theorem twp_onKernel {m : K α} {Q : α → Sys → Prop} :
    twp n c (onKernel m) Q s ↔ twp n c.cfg m (fun a o => Q a { s with os := o }) s.os := twp_zoom

@[simp] theorem twp_getTmr {Q : Tmr → Sys → Prop} : twp n c (getTmr t) Q s ↔ Q (s.tmr t) s := by
  simp [getTmr]

@[simp] theorem twp_modTmr {f : Tmr → Tmr} {Q : Unit → Sys → Prop} : twp n c (modTmr t f) Q s ↔ Q () (s.modTmr t f) := by
  simp [modTmr]

@[simp] theorem twp_getTmrSpoke {Q : TmrSpoke → Sys → Prop} : twp n c (getTmrSpoke i) Q s ↔ Q (s.tmrWheel i) s := by
  simp [getTmrSpoke]

@[simp] theorem twp_modTmrSpoke {f : TmrSpoke → TmrSpoke} {Q : Unit → Sys → Prop} :
    twp n c (modTmrSpoke i f) Q s ↔ Q () (s.modTmrSpoke i f) := by
  simp [modTmrSpoke]

end rules

namespace Sys

def next (s : Sys) (t : TmrId) : Option TmrId := (s.tmr t).nextPtr

def prev (s : Sys) (t : TmrId) : Option TmrId := (s.tmr t).prevPtr

def due (s : Sys) (t : TmrId) : Tick := (s.tmr t).matchCtr

def left (s : Sys) (t : TmrId) : Tick := s.due t - s.tmrTickCtr

theorem modTmr_tmr (f : Tmr → Tmr) : (s.modTmr t f).tmr t' = if t' = t then f (s.tmr t) else s.tmr t' := by
  simp [modTmr, Function.update_apply]

theorem modTmr_eq {f g : Tmr → Tmr} (h : f (s.tmr t) = g (s.tmr t)) : s.modTmr t f = s.modTmr t g := by
  simp [modTmr, h]

theorem modTmrSpoke_tmrWheel (f : TmrSpoke → TmrSpoke) :
    (s.modTmrSpoke i f).tmrWheel j = if j = i then f (s.tmrWheel i) else s.tmrWheel j := by
  simp [modTmrSpoke, Function.update_apply]

@[grind =] theorem next_modTmr (f : Tmr → Tmr) :
    (s.modTmr t f).next t' = if t' = t then (f (s.tmr t)).nextPtr else s.next t' := by
  simp only [next, modTmr_tmr]
  split <;> rfl

@[grind =] theorem prev_modTmr (f : Tmr → Tmr) :
    (s.modTmr t f).prev t' = if t' = t then (f (s.tmr t)).prevPtr else s.prev t' := by
  simp only [prev, modTmr_tmr]
  split <;> rfl

@[grind =] theorem tmrWheel_modTmr (f : Tmr → Tmr) : (s.modTmr t f).tmrWheel i = s.tmrWheel i := rfl

@[grind =] theorem next_modTmrSpoke (f : TmrSpoke → TmrSpoke) : (s.modTmrSpoke i f).next t = s.next t := rfl

@[grind =] theorem prev_modTmrSpoke (f : TmrSpoke → TmrSpoke) : (s.modTmrSpoke i f).prev t = s.prev t := rfl

@[grind =] theorem tmr_modTmrSpoke (f : TmrSpoke → TmrSpoke) : (s.modTmrSpoke i f).tmr t = s.tmr t := rfl

attribute [grind =] modTmr_tmr modTmrSpoke_tmrWheel

@[grind =] theorem tmr_nextPtr : (s.tmr t).nextPtr = s.next t := rfl

@[grind =] theorem tmr_prevPtr : (s.tmr t).prevPtr = s.prev t := rfl

theorem tmr_matchCtr : (s.tmr t).matchCtr = s.due t := rfl

end Sys

section frame

@[grind =] def Tmr.core (c : Tmr) : Tmr := { c with nextPtr := none, prevPtr := none, remain := 0 }

def Sys.core (s : Sys) : Sys := { s with tmr := fun t => (s.tmr t).core, tmrWheel := fun _ => ⟨none, 0, 0⟩ }

@[grind ←] theorem Sys.core_modTmr {f : Tmr → Tmr} (hf : (f (s.tmr t)).core = (s.tmr t).core) :
    (s.modTmr t f).core = s.core := by
  simp only [core, modTmr, Sys.mk.injEq, and_true, true_and]
  funext x
  by_cases hx : x = t
  · subst hx
    simpa using hf
  · simp [hx]

@[grind =] theorem Sys.core_modTmrSpoke {f : TmrSpoke → TmrSpoke} : (s.modTmrSpoke i f).core = s.core := rfl

theorem Sys.core_modTmr_congr {f : Tmr → Tmr} (h : s'.core = s.core) (hf : ∀ a b : Tmr, a.core = b.core →
    (f a).core = (f b).core) :
    (s'.modTmr t f).core = (s.modTmr t f).core := by
  have htmr : ∀ x, (s'.tmr x).core = (s.tmr x).core := fun x => (congrArg (fun y : Sys => y.tmr x) h :)
  have hrest : { s'.core with tmr := fun x => if x = t then (f (s'.tmr t)).core else (s'.tmr x).core } =
      { s.core with tmr := fun x => if x = t then (f (s.tmr t)).core else (s.tmr x).core } := by
    simp only [h, htmr, hf _ _ (htmr t)]
  have hmod : ∀ u : Sys, (u.modTmr t f).core =
      { u.core with tmr := fun x => if x = t then (f (u.tmr t)).core else (u.tmr x).core } := by
    intro u
    simp only [core, modTmr, Sys.mk.injEq, and_true, true_and]
    funext x
    by_cases hx : x = t
    · subst hx
      simp
    · simp [hx]
  rw [hmod, hmod, hrest]

theorem Sys.tmr_of_core {f : Tmr → Tmr} (h : s'.core = (s.modTmr t f).core) (x : TmrId) :
    (s'.tmr x).core = if x = t then (f (s.tmr t)).core else (s.tmr x).core := by
  have hx : (s'.tmr x).core = ((s.modTmr t f).tmr x).core := (congrArg (fun y : Sys => y.tmr x) h :)
  rw [hx, modTmr_tmr]
  split <;> rfl

theorem Sys.core_modTmr_comp {s₁ : Sys} {f g : Tmr → Tmr} (h : s₁.core = (s.modTmr t f).core)
    (hg : ∀ a b : Tmr, a.core = b.core → (g a).core = (g b).core) :
    (s₁.modTmr t g).core = (s.modTmr t fun a => g (f a)).core := by
  have htwice : (s.modTmr t f).modTmr t g = s.modTmr t fun a => g (f a) := by simp [modTmr]
  rw [← htwice]
  exact core_modTmr_congr h hg

end frame

section link

structure SameLinks (s s' : Sys) : Prop where
  next : ∀ x, s'.next x = s.next x
  prev : ∀ x, s'.prev x = s.prev x
  wheel : ∀ i, s'.tmrWheel i = s.tmrWheel i
  core : s'.core = s.core

theorem SameLinks.refl (s : Sys) : SameLinks s s := ⟨fun _ => rfl, fun _ => rfl, fun _ => rfl, rfl⟩

theorem SameLinks.due (h : s'.core = s.core) (x : TmrId) : s'.due x = s.due x := (congrArg (fun y : Sys => y.due x) h :)

theorem SameLinks.ctr (h : s'.core = s.core) : s'.tmrTickCtr = s.tmrTickCtr := (congrArg Sys.tmrTickCtr h :)

/-- The walk has linked `t` between `xs` and `ys`, the two parts of the list of spoke `i`. -/
structure TmrLinked (s s' : Sys) (t : TmrId) (i : ℕ) (xs ys : List TmrId) : Prop where
  next : ∀ x, s'.next x = if x = t then ys.head? else if xs.getLast? = some x then some t else s.next x
  prev : ∀ x, s'.prev x = if x = t then xs.getLast? else if ys.head? = some x then some t else s.prev x
  wheel : ∀ j, s'.tmrWheel j =
    if j = i ∧ xs.getLast? = none then { s.tmrWheel i with firstPtr := some t } else s.tmrWheel j
  core : s'.core = s.core
  before : ∀ x ∈ xs, s.left x < (s.tmr t).remain
  after : ∀ y, ys.head? = some y → (s.tmr t).remain ≤ s.left y

theorem tmrLinkWalk_step {t1 : TmrId} {xs ys : List TmrId} (hl : DList s.next s.prev (xs ++ t1 :: ys))
    (ht : t ∉ xs ++ t1 :: ys) (hxs : ∀ x ∈ xs, s.left x < (s.tmr t).remain) (e : SameLinks s s')
    (hr : (s'.tmr t).remain = (s.tmr t).remain) :
    twp n c (tmrLinkWalk t i t1) (fun r s'' => Sum.elim
      (fun t2 => ys.head? = some t2 ∧ s.left t1 < (s.tmr t).remain ∧ SameLinks s s'' ∧
        (s''.tmr t).remain = (s.tmr t).remain)
      (fun _ => TmrLinked s s'' t i xs (t1 :: ys) ∨ ys = [] ∧ TmrLinked s s'' t i (xs ++ [t1]) []) r) s' := by
  have hnext : s.next t1 = ys.head? := hl.next_eq
  have hprev : s.prev t1 = xs.getLast? := hl.prev_eq
  have hnd := hl.nodup
  have htt : t1 ≠ t := by
    rintro rfl
    simp at ht
  rw [tmrLinkWalk, twp_bind, twp_get, twp_bind, twp_modTmr]
  -- the remaining time is noted first
  have hleft : ((s'.modTmr t1 fun c => { c with remain := c.matchCtr - s'.tmrTickCtr }).tmr t1).remain = s.left t1 := by
    rw [Sys.modTmr_tmr, if_pos rfl, Sys.left, ← SameLinks.due e.core, ← SameLinks.ctr e.core]
    rfl
  replace hr : ((s'.modTmr t1 fun c => { c with remain := c.matchCtr - s'.tmrTickCtr }).tmr t).remain =
      (s.tmr t).remain := by rw [Sys.modTmr_tmr, if_neg (Ne.symm htt), hr]
  replace e : SameLinks s (s'.modTmr t1 fun c => { c with remain := c.matchCtr - s'.tmrTickCtr }) := by
    obtain ⟨en, ep, ew, ec⟩ := e
    refine ⟨fun x => ?_, fun x => ?_, ew, ?_⟩
    · grind
    · grind
    · rw [Sys.core_modTmr rfl, ec]
  generalize s'.modTmr t1 _ = s₁ at *
  rw [twp_bind, twp_getTmr, twp_bind, twp_getTmr, twp_ite, hleft, hr, Sys.tmr_nextPtr, Sys.tmr_prevPtr, e.next, e.prev,
    hnext, hprev]
  obtain ⟨en, ep, ew, ec⟩ := e
  constructor
  · intro hlt
    cases hy : ys.head? with
    | some t2 =>
      simp only [twp_pure, Sum.elim_inl]
      exact ⟨trivial, hlt, ⟨en, ep, ew, ec⟩, hr⟩
    | none =>
      simp only [twp_bind, twp_modTmr, twp_pure, Sum.elim_inr]
      refine .inr ⟨List.head?_eq_none_iff.mp hy, ?_, ?_, ?_, ?_, ?_, by simp⟩
      case refine_5 =>
        intro x hx
        rcases List.mem_append.mp hx with hx | hx
        · exact hxs x hx
        · rw [List.mem_singleton.mp hx]
          exact hlt
      case refine_4 => rw [Sys.core_modTmr rfl, Sys.core_modTmr rfl, ec]
      all_goals clear hxs hl
      all_goals grind
  · intro hge
    have hafter : ∀ y, (t1 :: ys).head? = some y → (s.tmr t).remain ≤ s.left y := by
      rintro y ⟨⟩
      exact BitVec.not_lt.mp hge
    cases hx : xs.getLast? with
    | none =>
      simp only [twp_bind, twp_modTmr, twp_modTmrSpoke, twp_pure, Sum.elim_inr]
      refine .inl ⟨?_, ?_, ?_, ?_, hxs, hafter⟩
      case refine_4 => rw [Sys.core_modTmrSpoke, Sys.core_modTmr rfl, Sys.core_modTmr rfl, ec]
      all_goals clear hxs hafter hl
      all_goals grind
    | some t0 =>
      simp only [twp_bind, twp_modTmr, twp_pure, Sum.elim_inr]
      have ht0 : t0 ∈ xs := List.mem_of_getLast? hx
      refine .inl ⟨?_, ?_, ?_, ?_, hxs, hafter⟩
      case refine_4 => rw [Sys.core_modTmr rfl, Sys.core_modTmr rfl, Sys.core_modTmr rfl, ec]
      all_goals clear hxs hafter hl
      all_goals grind

theorem tmrLinkWalk_spec {t1 : TmrId} (hl : DList s.next s.prev L) (hh : L.head? = some t1) (ht : t ∉ L) (hn : L.length < n) :
    twp n c (Prog.loop (tmrLinkWalk t i) t1) (fun _ s' => ∃ xs ys, L = xs ++ ys ∧ TmrLinked s s' t i xs ys) s := by
  -- the walk stands on `t1`, all before it are due earlier, and `ys` are the turns that may be left
  refine twp_loop (fun k t1 s' => (∃ xs ys, L = xs ++ t1 :: ys ∧ k = ys.length ∧
    ∀ x ∈ xs, s.left x < (s.tmr t).remain) ∧ SameLinks s s' ∧ (s'.tmr t).remain = (s.tmr t).remain) (k := L.length - 1)
    ?_ ?_ (show _ < n by omega)
  · rintro k t1 s' ⟨⟨xs, ys, rfl, rfl, hxs⟩, e, hr⟩
    refine (tmrLinkWalk_step hl ht hxs e hr).mono ?_
    rintro (t2 | _) s'' h
    · obtain ⟨hy, hlt, hrest⟩ := h
      obtain ⟨ys, rfl⟩ := List.head?_eq_some_iff.mp hy
      refine ⟨ys.length, by simp, ⟨xs ++ [t1], ys, by simp, rfl, ?_⟩, hrest⟩
      intro x hx
      rcases List.mem_append.mp hx with hx | hx
      · exact hxs x hx
      · rw [List.mem_singleton.mp hx]
        exact hlt
    · rcases h with h | ⟨rfl, h⟩
      · exact ⟨xs, t1 :: ys, rfl, h⟩
      · exact ⟨xs ++ [t1], [], by simp, h⟩
  · obtain ⟨ys, rfl⟩ := List.head?_eq_some_iff.mp hh
    exact ⟨⟨[], ys, rfl, by simp, by simp⟩, .refl s, rfl⟩

end link

/-- The running timers are those of the lists `V`, each on the spoke of the time it is due. -/
structure TmrLists (W : ℕ) (s : Sys) (V : ℕ → List TmrId) : Prop where
  list : ∀ i < W, ∃ tail, Listed s.next s.prev (s.tmrWheel i).firstPtr tail (V i).length (V i)
  count : ∀ i < W, (s.tmrWheel i).nbrEntries = BitVec.ofNat 16 (V i).length
  hash : ∀ i, ∀ x ∈ V i, (s.due x).toNat % W = i
  running : ∀ x, (s.tmr x).state = .running ↔ ∃ i, x ∈ V i

namespace TmrLists

variable {W : ℕ} {xs ys : List TmrId}

theorem disjoint (h : TmrLists W s V) {x : TmrId} (hi : x ∈ V i) (hj : x ∈ V j) : i = j :=
  (h.hash i x hi).symm.trans (h.hash j x hj)

theorem insert (h : TmrLists W s V) (ht : ∀ i, t ∉ V i) (hV : V i = xs ++ ys)
    (hnext : ∀ x, s'.next x = if x = t then ys.head? else if xs.getLast? = some x then some t else s.next x)
    (hprev : ∀ x, s'.prev x = if x = t then xs.getLast? else if ys.head? = some x then some t else s.prev x)
    (hfirst : (s'.tmrWheel i).firstPtr = if xs.getLast? = none then some t else (s.tmrWheel i).firstPtr)
    (hnbr : (s'.tmrWheel i).nbrEntries = (s.tmrWheel i).nbrEntries + 1) (hother : ∀ j ≠ i, s'.tmrWheel j = s.tmrWheel j)
    (hdue : ∀ x ≠ t, s'.due x = s.due x ∧ (s'.tmr x).state = (s.tmr x).state) (hi : (s'.due t).toNat % W = i)
    (hst : (s'.tmr t).state = .running) : TmrLists W s' (Function.update V i (xs ++ t :: ys)) := by
  have hne : ∀ j, ∀ x ∈ V j, x ≠ t := fun j x hx hxt => ht j (hxt ▸ hx)
  have hlen : (xs ++ t :: ys).length = (xs ++ ys).length + 1 := List.perm_middle.length_eq
  refine ⟨fun j hj => ?_, fun j hj => ?_, fun j x hx => ?_, fun x => ?_⟩
  · obtain ⟨tail, hl⟩ := h.list j hj
    by_cases hji : j = i
    · subst hji
      have htj := ht j
      rw [hV] at hl htj
      rw [Function.update_self]
      refine ⟨_, hl.insert xs ys htj ?_ ?_ ?_ ?_ hfirst rfl hlen⟩
      · rw [hnext, if_pos rfl]
      · rw [hprev, if_pos rfl]
      · intro x hx
        have hxt : x ≠ t := fun hxt => htj (hxt ▸ hx)
        rw [hnext, if_neg hxt]
      · intro x hx
        have hxt : x ≠ t := fun hxt => htj (hxt ▸ hx)
        rw [hprev, if_neg hxt]
    · rw [Function.update_of_ne hji, hother j hji]
      refine ⟨tail, hl.congr fun x hx => ?_⟩
      have hxi : x ∉ xs ++ ys := by
        rw [← hV]
        exact fun hxi => hji (h.disjoint hx hxi)
      rw [List.mem_append, not_or] at hxi
      have hlast : xs.getLast? ≠ some x := fun hl => hxi.1 (List.mem_of_getLast? hl)
      have hhead : ys.head? ≠ some x := fun hl => hxi.2 (List.mem_of_mem_head? hl)
      rw [hnext, if_neg (hne j x hx), if_neg hlast, hprev, if_neg (hne j x hx), if_neg hhead]
      exact ⟨rfl, rfl⟩
  · by_cases hji : j = i
    · subst hji
      rw [Function.update_self, hnbr, h.count j hj, hV, hlen, BitVec.ofNat_add]
      rfl
    · rw [Function.update_of_ne hji, hother j hji, h.count j hj]
  · by_cases hxt : x = t
    · subst hxt
      by_cases hji : j = i
      · rw [hi, hji]
      · rw [Function.update_of_ne hji] at hx
        exact absurd hx (ht j)
    · rw [(hdue x hxt).1]
      apply h.hash
      by_cases hji : j = i
      · subst hji
        rw [Function.update_self] at hx
        rw [hV]
        grind
      · rwa [Function.update_of_ne hji] at hx
  · by_cases hxt : x = t
    · subst hxt
      refine iff_of_true hst ⟨i, ?_⟩
      rw [Function.update_self]
      simp
    · rw [(hdue x hxt).2, h.running]
      refine exists_congr fun j => ?_
      by_cases hji : j = i
      · subst hji
        rw [Function.update_self, hV]
        simp [hxt]
      · rw [Function.update_of_ne hji]

theorem erase (h : TmrLists W s V) (hV : V i = xs ++ t :: ys)
    (hnext : ∀ x ≠ t, s'.next x = if xs.getLast? = some x then ys.head? else s.next x)
    (hprev : ∀ x ≠ t, s'.prev x = if ys.head? = some x then xs.getLast? else s.prev x)
    (hfirst : (s'.tmrWheel i).firstPtr = if xs.getLast? = none then ys.head? else (s.tmrWheel i).firstPtr)
    (hnbr : (s'.tmrWheel i).nbrEntries = (s.tmrWheel i).nbrEntries - 1) (hother : ∀ j ≠ i, s'.tmrWheel j = s.tmrWheel j)
    (hdue : ∀ x ≠ t, s'.due x = s.due x ∧ (s'.tmr x).state = (s.tmr x).state) (hst : (s'.tmr t).state ≠ .running)
    (hnd : (xs ++ t :: ys).Nodup) : TmrLists W s' (Function.update V i (xs ++ ys)) := by
  have hti : t ∈ V i := by simp [hV]
  have htxy : t ∉ xs ++ ys := (List.nodup_cons.mp (List.nodup_middle.mp hnd)).1
  have hmem : ∀ j x, x ∈ Function.update V i (xs ++ ys) j ↔ x ≠ t ∧ x ∈ V j := by
    intro j x
    by_cases hji : j = i
    · subst hji
      rw [Function.update_self, hV]
      by_cases hxt : x = t
      · subst hxt
        simp only [htxy, ne_eq, not_true_eq_false, false_and]
      · simp [hxt]
    · rw [Function.update_of_ne hji, and_iff_right_of_imp]
      rintro hx rfl
      exact hji (h.disjoint hx hti)
  have hlen : (xs ++ t :: ys).length = (xs ++ ys).length + 1 := List.perm_middle.length_eq
  refine ⟨fun j hj => ?_, fun j hj => ?_, fun j x hx => ?_, fun x => ?_⟩
  · obtain ⟨tail, hl⟩ := h.list j hj
    by_cases hji : j = i
    · subst hji
      rw [hV] at hl
      rw [Function.update_self]
      refine ⟨_, hl.erase xs ys ?_ ?_ hfirst rfl (by rw [hlen, Nat.add_sub_cancel])⟩
      · intro x hx
        exact hnext x fun hxt => htxy (hxt ▸ hx)
      · intro x hx
        exact hprev x fun hxt => htxy (hxt ▸ hx)
    · rw [Function.update_of_ne hji, hother j hji]
      refine ⟨tail, hl.congr fun x hx => ?_⟩
      have hxi : x ∉ V i := fun hxi => hji (h.disjoint hx hxi)
      rw [hV, List.mem_append, List.mem_cons, not_or, not_or] at hxi
      have hlast : xs.getLast? ≠ some x := fun hl => hxi.1 (List.mem_of_getLast? hl)
      have hhead : ys.head? ≠ some x := fun hl => hxi.2.2 (List.mem_of_mem_head? hl)
      rw [hnext x hxi.2.1, if_neg hlast, hprev x hxi.2.1, if_neg hhead]
      exact ⟨rfl, rfl⟩
  · by_cases hji : j = i
    · subst hji
      rw [Function.update_self, hnbr, h.count j hj, hV, hlen, BitVec.ofNat_add]
      exact BitVec.add_sub_cancel _ _
    · rw [Function.update_of_ne hji, hother j hji, h.count j hj]
  · rw [hmem] at hx
    rw [(hdue x hx.1).1]
    exact h.hash j x hx.2
  · simp only [hmem, exists_and_left]
    by_cases hxt : x = t
    · subst hxt
      simp [hst]
    · rw [(hdue x hxt).2, h.running]
      simp [hxt]

theorem modTmr_off {f : Tmr → Tmr} (h : TmrLists W s V) (ht : ∀ i, t ∉ V i) (hf : (f (s.tmr t)).state ≠ .running) :
    TmrLists W (s.modTmr t f) V := by
  have hne : ∀ i, ∀ x ∈ V i, x ≠ t := fun i x hx hxt => ht i (hxt ▸ hx)
  refine ⟨fun i hi => ?_, h.count, fun i x hx => ?_, fun x => ?_⟩
  · obtain ⟨tail, hl⟩ := h.list i hi
    refine ⟨tail, hl.congr fun x hx => ?_⟩
    rw [Sys.next_modTmr, if_neg (hne i x hx), Sys.prev_modTmr, if_neg (hne i x hx)]
    exact ⟨rfl, rfl⟩
  · rw [Sys.due, Sys.modTmr_tmr, if_neg (hne i x hx)]
    exact h.hash i x hx
  · rw [Sys.modTmr_tmr]
    split
    · rename_i hxt
      subst hxt
      exact iff_of_false hf fun ⟨i, hi⟩ => ht i hi
    · exact h.running x

end TmrLists

/-- The timer `t` has been linked between `xs` and `ys`, the two parts of the list of spoke `i`. -/
structure TmrSpliced (s s' : Sys) (t : TmrId) (i : ℕ) (xs ys : List TmrId) : Prop where
  next : ∀ x, s'.next x = if x = t then ys.head? else if xs.getLast? = some x then some t else s.next x
  prev : ∀ x, s'.prev x = if x = t then xs.getLast? else if ys.head? = some x then some t else s.prev x
  first : (s'.tmrWheel i).firstPtr = if xs.getLast? = none then some t else (s.tmrWheel i).firstPtr
  nbr : (s'.tmrWheel i).nbrEntries = (s.tmrWheel i).nbrEntries + 1
  other : ∀ j ≠ i, s'.tmrWheel j = s.tmrWheel j
  core : s'.core = s.core
  before : ∀ x ∈ xs, s.left x < s.left t
  after : ∀ y, ys.head? = some y → s.left t ≤ s.left y

theorem tmrLinkSpoke_spec {tail : Option TmrId}
    (hl : Listed s.next s.prev (s.tmrWheel i).firstPtr tail L.length L)
    (hc : (s.tmrWheel i).nbrEntries = BitVec.ofNat 16 L.length)
    (ht : t ∉ L) (hi : (s.due t).toNat % c.tmrWheelSize = i) (hn : L.length < n) :
    twp n c (tmrLinkSpoke t) (fun _ s' => ∃ xs ys, L = xs ++ ys ∧ TmrSpliced s s' t i xs ys) s := by
  rw [tmrLinkSpoke, twp_bind, twp_getTmr, twp_bind, twp_ask, twp_bind, twp_getTmrSpoke, Sys.tmr_matchCtr, hi, hl.head_eq]
  cases L with
  | nil =>
    have hnbr : (s.tmrWheel i).nbrEntries = 0#16 := hc
    simp only [List.head?_nil, twp_bind, twp_modTmr, twp_modTmrSpoke]
    refine ⟨[], [], rfl, ?_, ?_, ?_, ?_, ?_, ?_, by simp, by simp⟩
    case refine_6 => rw [Sys.core_modTmrSpoke, Sys.core_modTmrSpoke, Sys.core_modTmr rfl]
    all_goals grind
  | cons t1 L =>
    simp only [List.head?_cons, twp_bind, twp_get, twp_modTmr]
    have hrem : ((s.modTmr t fun a => { a with remain := a.matchCtr - s.tmrTickCtr }).tmr t).remain = s.left t := by
      rw [Sys.modTmr_tmr, if_pos rfl]
      rfl
    have hleft : ∀ x, (s.modTmr t fun a => { a with remain := a.matchCtr - s.tmrTickCtr }).left x = s.left x := by
      intro x
      rw [Sys.left, Sys.due, Sys.modTmr_tmr]
      split
      · rename_i hxt
        rw [hxt]
        rfl
      · rfl
    have hcore : (s.modTmr t fun a => { a with remain := a.matchCtr - s.tmrTickCtr }).core = s.core := Sys.core_modTmr rfl
    have hnext : ∀ x, (s.modTmr t fun a => { a with remain := a.matchCtr - s.tmrTickCtr }).next x = s.next x := by grind
    have hprev : ∀ x, (s.modTmr t fun a => { a with remain := a.matchCtr - s.tmrTickCtr }).prev x = s.prev x := by grind
    have hwheel : ∀ j, (s.modTmr t fun a => { a with remain := a.matchCtr - s.tmrTickCtr }).tmrWheel j = s.tmrWheel j :=
      fun _ => rfl
    generalize s.modTmr t (fun a => { a with remain := a.matchCtr - s.tmrTickCtr }) = s₁ at *
    have hl₁ : DList s₁.next s₁.prev (t1 :: L) := hl.dlist.congr fun x _ => ⟨hnext x, hprev x⟩
    refine (tmrLinkWalk_spec hl₁ rfl ht hn).mono ?_
    rintro _ s₂ ⟨xs, ys, hxy, ln, lp, lw, lc, lb, la⟩
    rw [twp_bind, twp_modTmrSpoke, twp_modTmrSpoke]
    refine ⟨xs, ys, hxy, ?_, ?_, ?_, ?_, ?_, ?_, fun x hx => ?_, fun y hy => ?_⟩
    case refine_6 => rw [Sys.core_modTmrSpoke, Sys.core_modTmrSpoke, lc, hcore]
    case refine_7 =>
      have := lb x hx
      rwa [hrem, hleft] at this
    case refine_8 =>
      have := la y hy
      rwa [hrem, hleft] at this
    all_goals grind

def Tmr.linked (a : Tmr) (opt : Opt) (now : Tick) : Tmr := { a with state := .running, matchCtr := linkTicks a opt + now }

/-- Where `OS_TmrLink` puts `t`: behind the timers of its spoke that are due earlier. -/
structure TmrAdded (W : ℕ) (s s' : Sys) (V : ℕ → List TmrId) (t : TmrId) (opt : Opt) (i : ℕ) (xs ys : List TmrId) : Prop where
  spoke : (s'.due t).toNat % W = i
  split : V i = xs ++ ys
  lists : TmrLists W s' (Function.update V i (xs ++ t :: ys))
  core : s'.core = (s.modTmr t fun a => a.linked opt s.tmrTickCtr).core
  before : ∀ x ∈ xs, s'.left x < s'.left t
  after : ∀ y, ys.head? = some y → s'.left t ≤ s'.left y

theorem tmrLink_spec {opt : Opt} (h : TmrLists c.tmrWheelSize s V) (ht : ∀ i, t ∉ V i) (hn : ∀ i, (V i).length < n) :
    twp n c (tmrLink t opt) (fun _ s' => ∃ i xs ys, TmrAdded c.tmrWheelSize s s' V t opt i xs ys) s := by
  rw [tmrLink, twp_bind, twp_get, twp_bind, twp_modTmr]
  change twp n c (tmrLinkSpoke t) _ (s.modTmr t fun a => a.linked opt s.tmrTickCtr)
  have hnext₀ : ∀ x, (s.modTmr t fun a => a.linked opt s.tmrTickCtr).next x = s.next x := by grind [Tmr.linked]
  have hprev₀ : ∀ x, (s.modTmr t fun a => a.linked opt s.tmrTickCtr).prev x = s.prev x := by grind [Tmr.linked]
  have hwheel₀ : (s.modTmr t fun a => a.linked opt s.tmrTickCtr).tmrWheel = s.tmrWheel := rfl
  have htmr₀ : ∀ x ≠ t, (s.modTmr t fun a => a.linked opt s.tmrTickCtr).tmr x = s.tmr x := by
    intro x hxt
    rw [Sys.modTmr_tmr, if_neg hxt]
  have hst₀ : ((s.modTmr t fun a => a.linked opt s.tmrTickCtr).tmr t).state = .running := by
    rw [Sys.modTmr_tmr, if_pos rfl]
    rfl
  generalize hs₀ : (s.modTmr t fun a => a.linked opt s.tmrTickCtr) = s₀ at *
  generalize hi : (s₀.due t).toNat % c.tmrWheelSize = i at *
  obtain ⟨tail, hl⟩ := h.list i (hi ▸ Nat.mod_lt _ c.tmrWheelSize_pos)
  have hl₀ : Listed s₀.next s₀.prev (s₀.tmrWheel i).firstPtr tail (V i).length (V i) := by
    rw [hwheel₀]
    exact hl.congr fun x _ => ⟨hnext₀ x, hprev₀ x⟩
  have hc₀ : (s₀.tmrWheel i).nbrEntries = BitVec.ofNat 16 (V i).length := by
    rw [hwheel₀]
    exact h.count i (hi ▸ Nat.mod_lt _ c.tmrWheelSize_pos)
  refine (tmrLinkSpoke_spec hl₀ hc₀ (ht i) hi (hn i)).mono ?_
  rintro _ s' ⟨xs, ys, hV, ln, lp, lf, lb, lo, lc, lbe, laf⟩
  have htmr : ∀ x, (s'.tmr x).core = (s₀.tmr x).core := fun x => (congrArg (fun y : Sys => y.tmr x) lc :)
  have hdue : ∀ x, s'.due x = s₀.due x := SameLinks.due lc
  have hleft : ∀ x, s'.left x = s₀.left x := by
    intro x
    rw [Sys.left, Sys.left, hdue, SameLinks.ctr lc]
  refine ⟨i, xs, ys, by rw [hdue, hi], hV, ?_, by rw [lc, hs₀], fun x hx => ?_, fun y hy => ?_⟩
  · refine h.insert ht hV ?_ ?_ ?_ ?_ ?_ (fun x hxt => ?_) (by rw [hdue, hi]) ?_
    · simpa only [hnext₀] using ln
    · simpa only [hprev₀] using lp
    · rw [lf, hwheel₀]
    · rw [lb, hwheel₀]
    · intro j hj
      rw [lo j hj, hwheel₀]
    · rw [hdue, Sys.due, htmr₀ x hxt]
      exact ⟨rfl, by rw [← htmr₀ x hxt]; exact (congrArg Tmr.state (htmr x) :)⟩
    · rw [← hst₀]
      exact (congrArg Tmr.state (htmr t) :)
  · rw [hleft, hleft]
    exact lbe x hx
  · rw [hleft, hleft]
    exact laf y hy

def Tmr.unlinked (a : Tmr) : Tmr := { a with state := .stopped }

theorem Sys.core_modTmr_unlinked {f : Tmr → Tmr} (hf : ∀ a, (f a).core = a.unlinked.core) :
    (s.modTmr t f).core = (s.modTmr t Tmr.unlinked).core := by
  have htwice : s.modTmr t f = (s.modTmr t Tmr.unlinked).modTmr t fun _ => f (s.tmr t) := by simp [modTmr]
  rw [htwice]
  apply core_modTmr
  rw [hf, modTmr_tmr, if_pos rfl]

theorem TmrLists.unlinked {W : ℕ} {xs ys : List TmrId} (h : TmrLists W s V) (hV : V i = xs ++ t :: ys)
    (hnd : (xs ++ t :: ys).Nodup)
    (hcore : s'.core = s.core) (hn : ∀ x ≠ t, s'.next x = if xs.getLast? = some x then ys.head? else s.next x)
    (hp : ∀ x ≠ t, s'.prev x = if ys.head? = some x then xs.getLast? else s.prev x)
    (hf : (s'.tmrWheel i).firstPtr = if xs.getLast? = none then ys.head? else (s.tmrWheel i).firstPtr)
    (hnbr : (s'.tmrWheel i).nbrEntries = (s.tmrWheel i).nbrEntries) (ho : ∀ j ≠ i, s'.tmrWheel j = s.tmrWheel j) :
    TmrLists W ((s'.modTmr t fun a => { a with state := .stopped, nextPtr := none, prevPtr := none }).modTmrSpoke i
      fun k => { k with nbrEntries := k.nbrEntries - 1 }) (Function.update V i (xs ++ ys)) ∧
    ((s'.modTmr t fun a => { a with state := .stopped, nextPtr := none, prevPtr := none }).modTmrSpoke i
      fun k => { k with nbrEntries := k.nbrEntries - 1 }).core = (s.modTmr t Tmr.unlinked).core := by
  have htmr : ∀ x, (s'.tmr x).core = (s.tmr x).core := fun x => (congrArg (fun y : Sys => y.tmr x) hcore :)
  constructor
  · refine h.erase hV ?_ ?_ ?_ ?_ ?_ (fun x hxt => ?_) ?_ hnd
    case refine_6 =>
      have hx : (((s'.modTmr t fun a => { a with state := .stopped, nextPtr := none, prevPtr := none }).modTmrSpoke i
          fun k => { k with nbrEntries := k.nbrEntries - 1 }).tmr x).core = (s.tmr x).core := by
        rw [Sys.tmr_modTmrSpoke, Sys.modTmr_tmr, if_neg hxt, htmr]
      exact ⟨(congrArg Tmr.matchCtr hx :), (congrArg Tmr.state hx :)⟩
    all_goals grind
  · have hsame : (s'.modTmr t Tmr.unlinked).core = (s.modTmr t Tmr.unlinked).core := by
      apply Sys.core_modTmr_congr hcore
      intro a b hab
      exact (congrArg Tmr.unlinked hab :)
    rw [Sys.core_modTmrSpoke, ← hsame]
    apply Sys.core_modTmr_unlinked
    intro a
    rfl

theorem tmrUnlink_spec (h : TmrLists c.tmrWheelSize s V) (ht : t ∈ V i) :
    twp n c (tmrUnlink t) (fun _ s' => TmrLists c.tmrWheelSize s' (Function.update V i ((V i).erase t)) ∧
      s'.core = (s.modTmr t Tmr.unlinked).core) s := by
  have hi := h.hash i t ht
  have hlt : i < c.tmrWheelSize := hi ▸ Nat.mod_lt _ c.tmrWheelSize_pos
  obtain ⟨tail, hl⟩ := h.list i hlt
  obtain ⟨xs, ys, hxs, hV, herase⟩ := List.exists_erase_eq ht
  rw [herase]
  rw [hV] at hl
  have hnd := hl.dlist.nodup
  have hnext : s.next t = ys.head? := hl.dlist.next_eq
  have hprev : s.prev t = xs.getLast? := hl.dlist.prev_eq
  have htxy : t ∉ xs ++ ys := (List.nodup_cons.mp (List.nodup_middle.mp hnd)).1
  have hfirst : (s.tmrWheel i).firstPtr = some t ↔ xs.getLast? = none := by
    rw [hl.head_eq]
    cases xs with
    | nil => simp
    | cons x xs =>
      have : x ≠ t := fun hxt => hxs (by simp [hxt])
      simp [this, List.getLast?_cons]
  have hlast : ∀ x, xs.getLast? = some x → x ≠ t ∧ ys.head? ≠ some x := by
    intro x hx
    have hmem : x ∈ xs := List.mem_of_getLast? hx
    refine ⟨fun hxt => hxs (hxt ▸ hmem), fun hy => ?_⟩
    have := (List.nodup_append.mp (List.nodup_cons.mp (List.nodup_middle.mp hnd)).2).2.2
    exact this x hmem x (List.mem_of_mem_head? hy) rfl
  have hhead : ∀ x, ys.head? = some x → x ≠ t := by
    rintro x hx rfl
    exact htxy (by simp [List.mem_of_mem_head? hx])
  rw [tmrUnlink, twp_bind, twp_getTmr, twp_bind, twp_ask, twp_bind, twp_getTmrSpoke, Sys.tmr_matchCtr, hi, Sys.tmr_nextPtr,
    Sys.tmr_prevPtr, hnext, hprev, twp_ite]
  constructor
  · intro hf
    rw [hfirst] at hf
    cases hy : ys.head? with
    | none =>
      simp only [twp_bind, twp_modTmrSpoke, twp_modTmr]
      refine h.unlinked hV hnd ?_ ?_ ?_ ?_ ?_ ?_
      · rw [Sys.core_modTmrSpoke]
      all_goals grind
    | some t1 =>
      simp only [twp_bind, twp_modTmrSpoke, twp_modTmr]
      refine h.unlinked hV hnd ?_ ?_ ?_ ?_ ?_ ?_
      · rw [Sys.core_modTmr rfl, Sys.core_modTmrSpoke]
      all_goals grind
  · intro hf
    rw [hfirst] at hf
    obtain ⟨t1, ht1⟩ := Option.ne_none_iff_exists'.mp hf
    rw [twp_bind, twp_deref]
    refine ⟨t1, ht1, ?_⟩
    cases hy : ys.head? with
    | none =>
      simp only [twp_bind, twp_modTmrSpoke, twp_modTmr]
      refine h.unlinked hV hnd ?_ ?_ ?_ ?_ ?_ ?_
      · rw [Sys.core_modTmr rfl]
      all_goals grind
    | some t2 =>
      simp only [twp_bind, twp_modTmrSpoke, twp_modTmr]
      refine h.unlinked hV hnd ?_ ?_ ?_ ?_ ?_ ?_
      · rw [Sys.core_modTmr rfl, Sys.core_modTmr rfl]
      all_goals grind

section beside

def Sys.beside (s : Sys) : OS × Tick × List Firing := (s.os, s.tmrTickCtr, s.firings)

theorem keeps_beside_modTmr (t : TmrId) (f : Tmr → Tmr) : Keeps Sys.beside (modTmr t f) := keeps_modify fun _ => rfl

theorem keeps_beside_modTmrSpoke (i : ℕ) (f : TmrSpoke → TmrSpoke) : Keeps Sys.beside (modTmrSpoke i f) :=
  keeps_modify fun _ => rfl

theorem keeps_beside_getTmr (t : TmrId) : Keeps Sys.beside (getTmr t) := keeps_bind keeps_get fun _ => keeps_pure _

theorem keeps_beside_getTmrSpoke (i : ℕ) : Keeps Sys.beside (getTmrSpoke i) := keeps_bind keeps_get fun _ => keeps_pure _

theorem keeps_beside_tmrUnlink (t : TmrId) : Keeps Sys.beside (tmrUnlink t) := by
  refine keeps_bind (keeps_beside_getTmr t) fun c => keeps_bind keeps_ask fun _ =>
    keeps_bind (keeps_beside_getTmrSpoke _) fun k => ?_
  have hend (i : ℕ) : Keeps Sys.beside (do
      modTmr t fun c => { c with state := .stopped, nextPtr := none, prevPtr := none }
      modTmrSpoke i fun k => { k with nbrEntries := k.nbrEntries - 1 }) :=
    keeps_bind (keeps_beside_modTmr _ _) fun _ => keeps_beside_modTmrSpoke _ _
  dsimp only
  apply keeps_ite
  · refine keeps_bind (keeps_beside_modTmrSpoke _ _) fun _ => ?_
    cases c.nextPtr with
    | none => exact hend _
    | some _ => exact keeps_bind (keeps_beside_modTmr _ _) fun _ => hend _
  · refine keeps_bind (keeps_deref _) fun _ => keeps_bind (keeps_beside_modTmr _ _) fun _ => ?_
    cases c.nextPtr with
    | none => exact hend _
    | some _ => exact keeps_bind (keeps_beside_modTmr _ _) fun _ => hend _

theorem keeps_beside_tmrLinkWalk (t : TmrId) (i : ℕ) (t1 : TmrId) : Keeps Sys.beside (tmrLinkWalk t i t1) := by
  unfold tmrLinkWalk
  refine keeps_bind keeps_get fun _ => keeps_bind (keeps_beside_modTmr _ _) fun _ =>
    keeps_bind (keeps_beside_getTmr _) fun c1 => keeps_bind (keeps_beside_getTmr _) fun c => ?_
  apply keeps_ite
  · cases c1.nextPtr with
    | some t2 => exact keeps_pure _
    | none => exact keeps_bind (keeps_beside_modTmr _ _) fun _ => keeps_bind (keeps_beside_modTmr _ _) fun _ => keeps_pure _
  · cases c1.prevPtr with
    | none =>
      exact keeps_bind (keeps_beside_modTmr _ _) fun _ => keeps_bind (keeps_beside_modTmr _ _) fun _ =>
        keeps_bind (keeps_beside_modTmrSpoke _ _) fun _ => keeps_pure _
    | some t0 =>
      exact keeps_bind (keeps_beside_modTmr _ _) fun _ => keeps_bind (keeps_beside_modTmr _ _) fun _ =>
        keeps_bind (keeps_beside_modTmr _ _) fun _ => keeps_pure _

theorem keeps_beside_tmrLink (t : TmrId) (opt : Opt) : Keeps Sys.beside (tmrLink t opt) := by
  refine keeps_bind keeps_get fun _ => keeps_bind (keeps_beside_modTmr _ _) fun _ => ?_
  refine keeps_bind (keeps_beside_getTmr _) fun _ => keeps_bind keeps_ask fun _ =>
    keeps_bind (keeps_beside_getTmrSpoke _) fun k => ?_
  cases k.firstPtr with
  | none =>
    exact keeps_bind (keeps_beside_modTmr _ _) fun _ => keeps_bind (keeps_beside_modTmrSpoke _ _) fun _ =>
      keeps_beside_modTmrSpoke _ _
  | some t1 =>
    exact keeps_bind keeps_get fun _ => keeps_bind (keeps_beside_modTmr _ _) fun _ =>
      keeps_bind (keeps_loop (keeps_beside_tmrLinkWalk _ _) _) fun _ => keeps_bind (keeps_beside_modTmrSpoke _ _) fun _ =>
        keeps_beside_modTmrSpoke _ _

end beside

end UcosIII
