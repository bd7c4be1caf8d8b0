import Mathlib.Data.List.Basic
import Mathlib.Logic.Function.Basic
import Mathlib.Tactic.Common

/-!
Rings of `n` slots. The entries are numbered from the first one ever put in, and entry `k` is in slot `k % n`.
-/

namespace Circular

variable {α : Type} {n lo i k : ℕ} {slot : ℕ → α} {x : α} {xs : List α}

def Holds (n : ℕ) (slot : ℕ → α) (lo : ℕ) (xs : List α) : Prop := ∀ i x, xs[i]? = some x → slot ((lo + i) % n) = x

theorem slot_ne (hi : i < k) (hk : k < n) : (lo + i) % n ≠ (lo + k) % n := by
  intro h
  have hd : n ∣ (lo + k) - (lo + i) := Nat.dvd_of_mod_eq_zero (Nat.sub_mod_eq_zero_of_mod_eq h.symm)
  have h0 := Nat.eq_zero_of_dvd_of_lt hd (by omega)
  omega

theorem next_slot (hn : 0 < n) : (k + 1) % n = if k % n + 1 = n then 0 else k % n + 1 := by
  rw [Nat.add_mod]
  split
  · rename_i h
    rcases Nat.lt_or_ge 1 n with h1 | h1
    · rw [Nat.mod_eq_of_lt h1, h, Nat.mod_self]
    · have : n = 1 := by omega
      subst this
      exact Nat.mod_one _
  · rename_i h
    have hk := Nat.mod_lt k hn
    have h1 : 1 < n := by omega
    rw [Nat.mod_eq_of_lt h1, Nat.mod_eq_of_lt (by omega)]

theorem Holds.nil : Holds n slot lo [] := by
  intro i x h
  cases h

theorem Holds.push (h : Holds n slot lo xs) (hn : xs.length < n) (x : α) :
    Holds n (Function.update slot ((lo + xs.length) % n) x) lo (xs ++ [x]) := by
  intro i y hi
  rcases Nat.lt_trichotomy i xs.length with hlt | rfl | hgt
  · rw [Function.update_of_ne (slot_ne hlt hn)]
    rw [List.getElem?_append_left hlt] at hi
    exact h i y hi
  · rw [Function.update_self]
    simpa using hi
  · rw [List.getElem?_eq_none (by simp; omega)] at hi
    cases hi

theorem Holds.head (h : Holds n slot lo (x :: xs)) : slot (lo % n) = x := h 0 x rfl

theorem Holds.tail (h : Holds n slot lo (x :: xs)) : Holds n slot (lo + 1) xs := by
  intro i y hi
  have := h (i + 1) y (by simpa using hi)
  rwa [show lo + 1 + i = lo + (i + 1) by omega]

end Circular
