import Mathlib.Data.List.Pairwise
import Mathlib.Data.BitVec
import Mathlib.Logic.Function.Basic
import Mathlib.Tactic.Common

/-!
Hashed timer wheels on a clock of 32 bits that wraps around. An entry is due at a time of the clock, waits on the spoke
of that time, and the entries of a spoke are in the order of the times left.
-/

namespace Wheel

variable {ι : Type} {W : ℕ} {now : BitVec 32} {due due' : ι → BitVec 32} {V V' : ℕ → List ι} {i : ℕ} {x : ι} {xs ys : List ι}

structure Sorted (W : ℕ) (now : BitVec 32) (due : ι → BitVec 32) (V : ℕ → List ι) : Prop where
  hash : ∀ i, ∀ x ∈ V i, (due x).toNat % W = i
  sorted : ∀ i, (V i).Pairwise fun x y => due x - now ≤ due y - now

def Ahead (now : BitVec 32) (due : ι → BitVec 32) (V : ℕ → List ι) : Prop := ∀ i, ∀ x ∈ V i, due x ≠ now

theorem Sorted.sub (h : Sorted W now due V) (hV : ∀ i, (V' i).Sublist (V i))
    (hdue : ∀ i, ∀ x ∈ V' i, due' x = due x) : Sorted W now due' V' := by
  refine ⟨fun i x hx => ?_, fun i => ?_⟩
  · rw [hdue i x hx]
    exact h.hash i x ((hV i).mem hx)
  · apply ((h.sorted i).sublist (hV i)).imp_of_mem
    intro x y hx hy hxy
    rwa [hdue i x hx, hdue i y hy]

theorem Ahead.sub (h : Ahead now due V) (hV : ∀ i, (V' i).Sublist (V i)) (hdue : ∀ i, ∀ x ∈ V' i, due' x = due x) :
    Ahead now due' V' := by
  intro i x hx
  rw [hdue i x hx]
  exact h i x ((hV i).mem hx)

theorem Sorted.congr (h : Sorted W now due V) (hdue : ∀ i, ∀ x ∈ V i, due' x = due x) : Sorted W now due' V :=
  h.sub (fun _ => List.Sublist.refl _) hdue

theorem Ahead.congr (h : Ahead now due V) (hdue : ∀ i, ∀ x ∈ V i, due' x = due x) : Ahead now due' V :=
  h.sub (fun _ => List.Sublist.refl _) hdue

theorem left_succ {d : BitVec 32} (h : d ≠ now) : (d - (now + 1)).toNat + 1 = (d - now).toNat := by
  have hne : d.toNat ≠ now.toNat := fun hn => h (BitVec.eq_of_toNat_eq hn)
  bv_omega

theorem left_eq_zero {d : BitVec 32} : (d - now).toNat = 0 ↔ d = now := by
  constructor
  · intro h
    apply BitVec.eq_of_toNat_eq
    bv_omega
  · rintro rfl
    simp

theorem Sorted.tick (h : Sorted W now due V) (ha : Ahead now due V) : Sorted W (now + 1) due V := by
  refine ⟨h.hash, fun i => ?_⟩
  apply (h.sorted i).imp_of_mem
  intro x y hx hy hxy
  have hl := left_succ (ha i x hx)
  have hr := left_succ (ha i y hy)
  rw [BitVec.le_def] at hxy ⊢
  omega

theorem Sorted.ahead (h : Sorted W now due V) (hh : ∀ x, (V (now.toNat % W)).head? = some x → due x ≠ now) :
    Ahead now due V := by
  intro i x hx hd
  have hi := h.hash i x hx
  rw [hd] at hi
  subst hi
  cases hl : V (now.toNat % W) with
  | nil => simp [hl] at hx
  | cons y ys =>
    have hy : due y ≠ now := hh y (by rw [hl, List.head?_cons])
    have hs := h.sorted (now.toNat % W)
    rw [hl] at hs hx
    rcases List.mem_cons.mp hx with rfl | hx
    · exact hy hd
    · have hle := (List.pairwise_cons.mp hs).1 x hx
      rw [hd, BitVec.sub_self, BitVec.le_def] at hle
      apply hy
      rw [← left_eq_zero]
      simpa using hle

theorem Sorted.insert (h : Sorted W now due V) (hV : V i = xs ++ ys) (hi : (due x).toNat % W = i)
    (hxs : ∀ y ∈ xs, due y - now ≤ due x - now) (hys : ∀ y, ys.head? = some y → due x - now ≤ due y - now) :
    Sorted W now due (Function.update V i (xs ++ x :: ys)) := by
  refine ⟨fun j y hy => ?_, fun j => ?_⟩
  · by_cases hj : j = i
    · subst hj
      rw [Function.update_self, List.mem_append, List.mem_cons] at hy
      rcases hy with hy | rfl | hy
      · exact h.hash j y (by simp [hV, hy])
      · exact hi
      · exact h.hash j y (by simp [hV, hy])
    · rw [Function.update_of_ne hj] at hy
      exact h.hash j y hy
  · by_cases hj : j = i
    · subst hj
      have hs := h.sorted j
      rw [hV, List.pairwise_append] at hs
      obtain ⟨hsx, hsy, hxy⟩ := hs
      have hall : ∀ y ∈ ys, due x - now ≤ due y - now := by
        cases ys with
        | nil => simp
        | cons z zs =>
          have hz := hys z rfl
          intro y hy
          rcases List.mem_cons.mp hy with rfl | hy
          · exact hz
          · exact BitVec.le_trans hz ((List.pairwise_cons.mp hsy).1 y hy)
      rw [Function.update_self, List.pairwise_append, List.pairwise_cons]
      refine ⟨hsx, ⟨hall, hsy⟩, fun y hy z hz => ?_⟩
      rcases List.mem_cons.mp hz with rfl | hz
      · exact hxs y hy
      · exact hxy y hy z hz
    · rw [Function.update_of_ne hj]
      exact h.sorted j

end Wheel
