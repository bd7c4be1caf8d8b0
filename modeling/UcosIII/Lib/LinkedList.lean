import Mathlib.Data.List.Nodup
import Mathlib.Tactic.Common
import UcosIII.Lib.Chain

/-!
Doubly linked lists in a heap of nodes: `DList next prev l` says that the two pointer fields of the
nodes of `l` link them in that order. Inserting a node anywhere and unlinking a node anywhere are
one lemma each; the ends of the list are the cases where there is nothing on one side.
-/

variable {α : Type} {next prev next' prev' : α → Option α} {l xs ys : List α} {a x : α}

structure DList (next prev : α → Option α) (l : List α) : Prop where
  nodup : l.Nodup
  links : ∀ xs x ys, l = xs ++ x :: ys → next x = ys.head? ∧ prev x = xs.getLast?

namespace DList

theorem nil : DList next prev [] where
  nodup := List.nodup_nil
  links := by
    intro xs x ys h
    simp at h

theorem congr (h : DList next prev l) (hl : ∀ x ∈ l, next' x = next x ∧ prev' x = prev x) : DList next' prev' l where
  nodup := h.nodup
  links := by
    intro xs x ys e
    have hx := hl x (by simp [e])
    rw [hx.1, hx.2]
    exact h.links xs x ys e

theorem next_eq (h : DList next prev (xs ++ x :: ys)) : next x = ys.head? := (h.links xs x ys rfl).1

theorem prev_eq (h : DList next prev (xs ++ x :: ys)) : prev x = xs.getLast? := (h.links xs x ys rfl).2

theorem split_cases {us vs : List α} (e : xs ++ a :: ys = us ++ x :: vs) :
    (∃ ms, xs = us ++ x :: ms ∧ vs = ms ++ a :: ys) ∨ (us = xs ∧ x = a ∧ vs = ys) ∨
      ∃ ms, ys = ms ++ x :: vs ∧ us = xs ++ a :: ms := by
  rcases List.append_eq_append_iff.mp e with ⟨ms, rfl, e'⟩ | ⟨ms, rfl, e'⟩ <;> cases ms <;>
    simp only [List.nil_append, List.cons_append, List.cons.injEq] at e' <;> obtain ⟨rfl, rfl⟩ := e' <;> simp

theorem ne_of_getLast? (h : (xs ++ ys).Nodup) (hx : x ∈ ys) : xs.getLast? ≠ some x := by
  intro hx'
  exact (List.nodup_append.mp h).2.2 x (List.mem_of_getLast? hx') x hx rfl

theorem ne_of_head? (h : (xs ++ ys).Nodup) (hx : x ∈ xs) : ys.head? ≠ some x := by
  intro hx'
  exact (List.nodup_append.mp h).2.2 x hx x (List.mem_of_mem_head? hx') rfl

theorem insert [DecidableEq α] (xs ys : List α) (h : DList next prev (xs ++ ys)) (ha : a ∉ xs ++ ys) (hna : next' a = ys.head?)
    (hpa : prev' a = xs.getLast?)
    (hn : ∀ x ∈ xs ++ ys, next' x = if xs.getLast? = some x then some a else next x)
    (hp : ∀ x ∈ xs ++ ys, prev' x = if ys.head? = some x then some a else prev x) :
    DList next' prev' (xs ++ a :: ys) where
  nodup := (List.nodup_middle.trans List.nodup_cons).mpr ⟨ha, h.nodup⟩
  links := by
    intro us x vs e
    obtain ⟨ms, rfl, rfl⟩ | ⟨rfl, rfl, rfl⟩ | ⟨ms, rfl, rfl⟩ := split_cases e
    · have hl := h.links us x (ms ++ ys) (by simp)
      have hx : x ∈ (us ++ x :: ms) ++ ys := by simp
      rw [hn x hx, hp x hx, if_neg (ne_of_head? h.nodup (by simp)), hl.1, hl.2]
      refine ⟨?_, rfl⟩
      cases ms with
      | nil => simp
      | cons m ms =>
        have hx' : x ∉ m :: ms := by
          have := (List.nodup_append.mp (List.nodup_append.mp h.nodup).1).2.1
          exact (List.nodup_cons.mp this).1
        have hne : (m :: ms).getLast? ≠ some x := fun e => hx' (List.mem_of_getLast? e)
        simp [hne]
    · exact ⟨hna, hpa⟩
    · have hl := h.links (xs ++ ms) x vs (by simp)
      have hx : x ∈ xs ++ (ms ++ x :: vs) := by simp
      rw [hn x hx, hp x hx, if_neg (ne_of_getLast? h.nodup (by simp)), hl.1, hl.2]
      refine ⟨rfl, ?_⟩
      cases ms with
      | nil => simp
      | cons m ms =>
        have hne : m ≠ x := by
          rintro rfl
          have := (List.nodup_append.mp h.nodup).2.1
          simp at this
        simp [hne, List.getLast?_append, List.getLast?_cons]

theorem erase [DecidableEq α] (xs ys : List α) (h : DList next prev (xs ++ a :: ys))
    (hn : ∀ x ∈ xs ++ ys, next' x = if xs.getLast? = some x then ys.head? else next x)
    (hp : ∀ x ∈ xs ++ ys, prev' x = if ys.head? = some x then xs.getLast? else prev x) :
    DList next' prev' (xs ++ ys) where
  nodup := ((List.nodup_middle.trans List.nodup_cons).mp h.nodup).2
  links := by
    intro us x vs e
    have hnd : (xs ++ ys).Nodup := ((List.nodup_middle.trans List.nodup_cons).mp h.nodup).2
    have hx : x ∈ xs ++ ys := by simp [e]
    rcases List.append_eq_append_iff.mp e with ⟨ms, rfl, rfl⟩ | ⟨ms, rfl, e'⟩
    · have hl := h.links (xs ++ a :: ms) x vs (by simp)
      rw [hn x hx, hp x hx, if_neg (ne_of_getLast? hnd (by simp)), hl.1, hl.2]
      refine ⟨rfl, ?_⟩
      cases ms with
      | nil => simp
      | cons m ms =>
        have hne : m ≠ x := by
          rintro rfl
          have := (List.nodup_append.mp hnd).2.1
          simp at this
        simp [hne, List.getLast?_append, List.getLast?_cons]
    · cases ms with
      | nil =>
        obtain rfl : x :: vs = ys := by simpa using e'
        have hl := h.links (us ++ [a]) x vs (by simp)
        rw [hn x hx, hp x hx, if_neg (ne_of_getLast? hnd (by simp)), hl.1]
        simp
      | cons m ms =>
        simp only [List.cons_append, List.cons.injEq] at e'
        obtain ⟨rfl, rfl⟩ := e'
        have hl := h.links us x (ms ++ a :: ys) (by simp)
        rw [hn x hx, hp x hx, if_neg (ne_of_head? hnd (by simp)), hl.1, hl.2]
        refine ⟨?_, rfl⟩
        cases ms with
        | nil => simp
        | cons m ms =>
          have hx' : x ∉ m :: ms := by
            have := (List.nodup_append.mp (List.nodup_append.mp hnd).1).2.1
            simpa using (List.nodup_cons.mp this).1
          have hne : (m :: ms).getLast? ≠ some x := fun e => hx' (List.mem_of_getLast? e)
          simp [hne]

end DList

structure Listed (next prev : α → Option α) (head tail : Option α) (nbr : ℕ) (l : List α) : Prop where
  dlist : DList next prev l
  head_eq : head = l.head?
  tail_eq : tail = l.getLast?
  nbr_eq : nbr = l.length

namespace Listed

variable {head tail : Option α} {nbr : ℕ}

theorem nil : Listed next prev none none 0 [] := ⟨DList.nil, rfl, rfl, rfl⟩

theorem congr (h : Listed next prev head tail nbr l) (hl : ∀ x ∈ l, next' x = next x ∧ prev' x = prev x) :
    Listed next' prev' head tail nbr l := ⟨h.dlist.congr hl, h.head_eq, h.tail_eq, h.nbr_eq⟩

theorem insert [DecidableEq α] {head' tail' : Option α} {nbr' : ℕ} (xs ys : List α)
    (h : Listed next prev head tail nbr (xs ++ ys)) (ha : a ∉ xs ++ ys) (hna : next' a = ys.head?)
    (hpa : prev' a = xs.getLast?)
    (hn : ∀ x ∈ xs ++ ys, next' x = if xs.getLast? = some x then some a else next x)
    (hp : ∀ x ∈ xs ++ ys, prev' x = if ys.head? = some x then some a else prev x)
    (hh : head' = if xs.getLast? = none then some a else head)
    (ht : tail' = if ys.head? = none then some a else tail) (hnbr : nbr' = nbr + 1) :
    Listed next' prev' head' tail' nbr' (xs ++ a :: ys) where
  dlist := h.dlist.insert xs ys ha hna hpa hn hp
  head_eq := by
    rw [hh, h.head_eq]
    cases xs <;> simp [List.getLast?_cons]
  tail_eq := by
    rw [ht, h.tail_eq]
    cases ys <;> simp [List.getLast?_append, List.getLast?_cons]
  nbr_eq := by
    rw [hnbr, h.nbr_eq]
    simp only [List.length_append, List.length_cons]
    omega

theorem erase [DecidableEq α] {head' tail' : Option α} {nbr' : ℕ} (xs ys : List α)
    (h : Listed next prev head tail nbr (xs ++ a :: ys))
    (hn : ∀ x ∈ xs ++ ys, next' x = if xs.getLast? = some x then ys.head? else next x)
    (hp : ∀ x ∈ xs ++ ys, prev' x = if ys.head? = some x then xs.getLast? else prev x)
    (hh : head' = if xs.getLast? = none then ys.head? else head)
    (ht : tail' = if ys.head? = none then xs.getLast? else tail) (hnbr : nbr' = nbr - 1) :
    Listed next' prev' head' tail' nbr' (xs ++ ys) where
  dlist := h.dlist.erase xs ys hn hp
  head_eq := by
    rw [hh, h.head_eq]
    cases xs <;> simp [List.getLast?_cons]
  tail_eq := by
    rw [ht, h.tail_eq]
    cases ys <;> simp [List.getLast?_append, List.getLast?_cons]
  nbr_eq := by
    rw [hnbr, h.nbr_eq]
    simp only [List.length_append, List.length_cons]
    omega

theorem moveHead [DecidableEq α] {y : α} {head' tail' : Option α} {nbr' : ℕ}
    (h : Listed next prev head tail nbr (x :: y :: l)) (hnx : next' x = none) (hpx : prev' x = tail)
    (hn : ∀ z ∈ y :: l, next' z = if tail = some z then some x else next z) (hpy : prev' y = none)
    (hp : ∀ z ∈ l, prev' z = prev z) (hh : head' = some y) (ht : tail' = some x) (hnbr : nbr' = nbr) :
    Listed next' prev' head' tail' nbr' (y :: l ++ [x]) := by
  have htail : tail = (y :: l).getLast? := by simpa [List.getLast?_cons] using h.tail_eq
  have hnd := List.nodup_cons.mp h.dlist.nodup
  have hmid : Listed next (fun z => if z = y then none else prev z) (some y) tail (nbr - 1) ((y :: l) ++ []) := by
    rw [List.append_nil]
    refine h.erase [] (y :: l) ?_ ?_ rfl rfl rfl
    · simp
    · simp [eq_comm]
  refine hmid.insert (y :: l) [] (by simpa using hnd.1) ?_ ?_ ?_ ?_ ?_ ?_ ?_
  · simpa using hnx
  · rw [hpx, htail]
  · intro z hz
    rw [hn z (by simpa using hz), htail]
  · intro z hz
    rcases List.mem_cons.mp (List.append_nil (y :: l) ▸ hz) with rfl | hz'
    · simpa using hpy
    · have hzy : z ≠ y := fun e => (List.nodup_cons.mp hnd.2).1 (e ▸ hz')
      simp [hp z hz', hzy]
  · simp [hh]
  · simp [ht]
  · rw [hnbr, h.nbr_eq]
    simp

theorem nbr_eq_zero (h : Listed next prev head tail nbr l) : nbr = 0 ↔ l = [] := by
  rw [h.nbr_eq, List.length_eq_zero_iff]

end Listed

def chainAt (next : α → Option α) (head : Option α) : ℕ → Option α
  | 0 => head
  | k + 1 => (chainAt next head k).bind next

theorem chainAt_cons (next : α → Option α) (x : α) (k : ℕ) : chainAt next (some x) (k + 1) = chainAt next (next x) k := by
  induction k with
  | zero => rfl
  | succ k ih =>
    rw [chainAt, ih]
    rfl

theorem chainAt_null (next : α → Option α) (k : ℕ) : chainAt next none k = none := by
  induction k with
  | zero => rfl
  | succ k ih =>
    rw [chainAt, ih]
    rfl

theorem chainAt_of_walk {next : α → Option α} {p : Option α} {l : List α} (h : Chain.walk next (l.length + 1) p = l) (k : ℕ) :
    chainAt next p k = l[k]? := by
  induction l generalizing p k with
  | nil =>
    cases p with
    | none => rw [chainAt_null, List.getElem?_nil]
    | some x => cases h
  | cons x l ih =>
    cases p with
    | none => cases h
    | some y =>
      obtain ⟨rfl, h⟩ := List.cons.inj h
      cases k with
      | zero => rfl
      | succ k =>
        rw [chainAt_cons, List.getElem?_cons_succ]
        exact ih h k

theorem chainAt_congr {next' : α → Option α} {p : Option α}
    (h : ∀ k x, chainAt next p k = some x → next' x = next x) (k : ℕ) : chainAt next' p k = chainAt next p k := by
  induction k with
  | zero => rfl
  | succ k ih =>
    rw [chainAt, ih, chainAt]
    cases hx : chainAt next p k with
    | none => rfl
    | some x => exact h k x hx

theorem DList.chainAt_eq (h : DList next prev l) (k : ℕ) : chainAt next l.head? k = l[k]? := by
  induction k with
  | zero => simp [chainAt, List.head?_eq_getElem?]
  | succ k ih =>
    rw [chainAt, ih]
    by_cases hk : k < l.length
    · have hsplit : l = l.take k ++ l[k] :: l.drop (k + 1) := by
        rw [← List.drop_eq_getElem_cons hk, List.take_append_drop]
      have hnext := (h.links _ _ _ hsplit).1
      rw [List.getElem?_eq_getElem hk, Option.bind_some, hnext, List.head?_drop]
    · rw [List.getElem?_eq_none (by omega), List.getElem?_eq_none (by omega)]
      rfl

namespace Listed

variable {head tail : Option α} {nbr : ℕ}

theorem chainAt_eq (h : Listed next prev head tail nbr l) (k : ℕ) : chainAt next head k = l[k]? := by
  rw [h.head_eq]
  exact h.dlist.chainAt_eq k

theorem walk_eq (h : Listed next prev head tail nbr l) : Chain.walk next nbr head = l := by
  have hlead : Chain.Leads next l.head? l := Chain.leads_of_links fun A x B hL => (h.dlist.links A x B hL).1
  rw [h.nbr_eq, h.head_eq, hlead.walk_eq]

theorem chainAt_some (h : Listed next prev head tail nbr l) : (∃ k, chainAt next head k = some x) ↔ x ∈ l := by
  simp only [h.chainAt_eq, List.mem_iff_getElem?]

theorem chainAt_unique (h : Listed next prev head tail nbr l) : (∃! k, chainAt next head k = some x) ↔ x ∈ l := by
  rw [← h.chainAt_some]
  refine ⟨fun h' => h'.exists, fun ⟨k, hk⟩ => ⟨k, hk, fun j hj => ?_⟩⟩
  simp only [h.chainAt_eq] at hk hj
  have hlt : j < l.length := (List.getElem?_eq_some_iff.mp hj).1
  exact (List.getElem?_inj hlt h.dlist.nodup).mp (hj.trans hk.symm)

end Listed

/-- The links lead from `p` over the nodes of the list, one way, to the null pointer. -/
def Threaded (next : α → Option α) : Option α → List α → Prop
  | p, [] => p = none
  | p, x :: l => p = some x ∧ Threaded next (next x) l

namespace Threaded

variable {p : Option α}

theorem congr (h : Threaded next p l) (hn : ∀ x ∈ l, next' x = next x) : Threaded next' p l := by
  induction l generalizing p with
  | nil => exact h
  | cons x l ih =>
    refine ⟨h.1, ?_⟩
    rw [hn x (by simp)]
    apply ih h.2
    intro y hy
    exact hn y (by simp [hy])

theorem head_eq (h : Threaded next p l) : p = l.head? := by
  cases l with
  | nil => exact h
  | cons x l => exact h.1

theorem chainAt_eq (h : Threaded next p l) (k : ℕ) : chainAt next p k = l[k]? := by
  induction k generalizing p l with
  | zero => rw [chainAt, h.head_eq, List.head?_eq_getElem?]
  | succ k ih =>
    cases l with
    | nil =>
      rw [chainAt, ih h]
      rfl
    | cons x l =>
      have hshift : ∀ k, chainAt next p (k + 1) = chainAt next (next x) k := by
        intro k
        induction k with
        | zero =>
          rw [chainAt, chainAt, h.1]
          rfl
        | succ k ih' => rw [chainAt, ih', ← chainAt]
      rw [hshift, ih h.2, List.getElem?_cons_succ]

end Threaded
