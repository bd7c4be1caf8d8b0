import Mathlib.Data.List.Nodup
import Mathlib.Data.Finset.Card
import Mathlib.Data.List.Range

/-!
Chains that are linked one way and are counted. Only the entries counted belong to a chain; the link of
its last entry may lead anywhere.
-/

namespace Chain

variable {ι : Type} {next next' : ι → Option ι} {p q : Option ι} {x : ι} {L M : List ι}

def Leads (next : ι → Option ι) : Option ι → List ι → Prop
  | _, [] => True
  | p, x :: L => p = some x ∧ Leads next (next x) L

def walk (next : ι → Option ι) : ℕ → Option ι → List ι
  | 0, _ | _ + 1, none => []
  | k + 1, some x => x :: walk next k (next x)

theorem Leads.walk_eq (h : Leads next p L) : walk next L.length p = L := by
  induction L generalizing p with
  | nil => cases p <;> rfl
  | cons x L ih =>
    obtain ⟨rfl, h⟩ := h
    rw [List.length_cons, walk, ih h]

theorem leads_of_links (h : ∀ A x B, L = A ++ x :: B → next x = B.head?) : Leads next L.head? L := by
  induction L with
  | nil => trivial
  | cons x L ih =>
    refine ⟨rfl, ?_⟩
    rw [h [] x L rfl]
    apply ih
    intro A y B hL
    exact h (x :: A) y B (by rw [hL, List.cons_append])

theorem Leads.head (h : Leads next p L) (hne : L ≠ []) : p = L.head? := by
  cases L with
  | nil => exact absurd rfl hne
  | cons x L => exact h.1

theorem Leads.congr (h : Leads next p L) (hn : ∀ x ∈ L, next' x = next x) : Leads next' p L := by
  induction L generalizing p with
  | nil => trivial
  | cons x L ih =>
    refine ⟨h.1, ?_⟩
    rw [hn x (by simp)]
    apply ih h.2
    intro y hy
    exact hn y (by simp [hy])

section update

variable [DecidableEq ι]

theorem Leads.update_of_notMem (h : Leads next p L) (hx : x ∉ L) : Leads (Function.update next x q) p L := by
  apply h.congr
  intro y hy
  rw [Function.update_of_ne]
  rintro rfl
  exact hx hy

theorem Leads.cons_update (h : Leads next p L) (hx : x ∉ L) : Leads (Function.update next x p) (some x) (x :: L) := by
  refine ⟨rfl, ?_⟩
  rw [Function.update_self]
  exact h.update_of_notMem hx

theorem Leads.append_update (h : Leads next p L) (hM : Leads next q M) (hL : L.Nodup) (hlast : L.getLast? = some x)
    (hx : x ∉ M) : Leads (Function.update next x q) p (L ++ M) := by
  induction L generalizing p with
  | nil => simp at hlast
  | cons y L ih =>
    obtain ⟨rfl, h⟩ := h
    obtain ⟨hy, hL⟩ := List.nodup_cons.mp hL
    refine ⟨rfl, ?_⟩
    cases L with
    | nil =>
      simp only [List.getLast?_singleton, Option.some.injEq] at hlast
      subst hlast
      rw [Function.update_self]
      exact hM.update_of_notMem hx
    | cons z L =>
      rw [List.getLast?_cons_cons] at hlast
      have hne : y ≠ x := by
        rintro rfl
        exact hy (List.mem_of_getLast? hlast)
      rw [Function.update_of_ne hne]
      exact ih h hL hlast

end update

theorem length_le {L : List ℕ} {n : ℕ} (hL : L.Nodup) (hn : ∀ x ∈ L, x < n) : L.length ≤ n := by
  have hsub : L ⊆ List.range n := fun x hx => List.mem_range.mpr (hn x hx)
  have hle := (hL.subperm hsub).length_le
  rwa [List.length_range] at hle

section partition

variable {κ : Type} {N : ℕ} {C : κ → List ℕ} {c c' : κ} {A F L : List ℕ}

structure Partition (N : ℕ) (C : κ → List ℕ) : Prop where
  nodup : ∀ c, (C c).Nodup
  disj : ∀ c c' x, x ∈ C c → x ∈ C c' → c = c'
  mem : ∀ x, x < N ↔ ∃ c, x ∈ C c

theorem Partition.length_add_le (h : Partition N C) (hcc : c ≠ c') : (C c).length + (C c').length ≤ N := by
  rw [← List.length_append]
  apply length_le
  · rw [List.nodup_append']
    refine ⟨h.nodup c, h.nodup c', fun x hx hx' => ?_⟩
    exact hcc (h.disj c c' x hx hx')
  · intro x hx
    rw [h.mem]
    rcases List.mem_append.mp hx with hx | hx
    · exact ⟨c, hx⟩
    · exact ⟨c', hx⟩

theorem Partition.move [DecidableEq κ] (h : Partition N C) (hc : C c = A ++ F) (hcc : c ≠ c') (hL : L.Perm (A ++ C c')) :
    Partition N (Function.update (Function.update C c F) c' L) := by
  have hmem : ∀ k x, x ∈ Function.update (Function.update C c F) c' L k ↔
      k = c' ∧ (x ∈ A ∨ x ∈ C c') ∨ k = c ∧ x ∈ F ∨ k ≠ c ∧ k ≠ c' ∧ x ∈ C k := by
    intro k x
    have := hL.mem_iff (a := x)
    simp only [Function.update_apply]
    grind
  have hcx : ∀ x, x ∈ C c ↔ x ∈ A ∨ x ∈ F := by simp [hc]
  have hAF : ∀ x, x ∈ A → x ∈ F → False := by
    have hnd := h.nodup c
    rw [hc] at hnd
    exact List.disjoint_of_nodup_append hnd
  refine ⟨fun k => ?_, fun k k' x hk hk' => ?_, fun x => ?_⟩
  · simp only [Function.update_apply]
    split
    · rw [hL.nodup_iff, List.nodup_append']
      have hnd := h.nodup c
      rw [hc] at hnd
      refine ⟨hnd.of_append_left, h.nodup c', fun x hx hx' => ?_⟩
      exact hcc (h.disj c c' x ((hcx x).mpr (.inl hx)) hx')
    · split
      · have hnd := h.nodup c
        rw [hc] at hnd
        exact hnd.of_append_right
      · exact h.nodup k
  · rw [hmem] at hk hk'
    have hd := fun k k' => h.disj k k' x
    have hx := hcx x
    have ha := hAF x
    grind
  · rw [h.mem]
    constructor
    · rintro ⟨k, hk⟩
      by_cases hkc : k = c
      · rw [hkc, hcx] at hk
        rcases hk with hk | hk
        · exact ⟨c', (hmem c' x).mpr (.inl ⟨rfl, .inl hk⟩)⟩
        · exact ⟨c, (hmem c x).mpr (.inr (.inl ⟨rfl, hk⟩))⟩
      · by_cases hkc' : k = c'
        · exact ⟨c', (hmem c' x).mpr (.inl ⟨rfl, .inr (hkc' ▸ hk)⟩)⟩
        · exact ⟨k, (hmem k x).mpr (.inr (.inr ⟨hkc, hkc', hk⟩))⟩
    · rintro ⟨k, hk⟩
      rw [hmem] at hk
      rcases hk with ⟨-, hk | hk⟩ | ⟨-, hk⟩ | ⟨-, -, hk⟩
      · exact ⟨c, (hcx x).mpr (.inl hk)⟩
      · exact ⟨c', hk⟩
      · exact ⟨c, (hcx x).mpr (.inr hk)⟩
      · exact ⟨k, hk⟩

end partition

end Chain
