import UcosIII.Lists.Ready
import Mathlib.Algebra.Group.Nat.Defs

namespace UcosIII

open Prog

variable {n : ℕ} {cfg : Cfg} {s : OS} {S : Set ℕ} {w : BitVec 32}

theorem cntLeadZerosTbl_getD : ∀ i < 256, i ≠ 0 → cntLeadZerosTbl.getD i 0 = 7 - i.log2 := by
  decide +kernel

theorem log2_div_two_pow {m k : ℕ} (h : 2 ^ k ≤ m) : (m / 2 ^ k).log2 = m.log2 - k := by
  have hm : m ≠ 0 := by
    rintro rfl
    exact absurd h (by simp)
  have hk : k ≤ m.log2 := (Nat.le_log2 hm).mpr h
  have hq : m / 2 ^ k ≠ 0 := by
    rw [Nat.div_ne_zero_iff]
    exact ⟨(Nat.two_pow_pos k).ne', h⟩
  rw [Nat.log2_eq_iff hq, Nat.le_div_iff_mul_le (Nat.two_pow_pos k), Nat.div_lt_iff_lt_mul (Nat.two_pow_pos k),
    ← Nat.pow_add, ← Nat.pow_add]
  have h1 : m.log2 - k + k = m.log2 := by omega
  have h2 : m.log2 - k + 1 + k = m.log2 + 1 := by omega
  rw [h1, h2]
  exact ⟨Nat.log2_self_le hm, Nat.lt_log2_self⟩

theorem cntLeadZerosTbl_byte {m k : ℕ} (h : 2 ^ k ≤ m) (h' : m < 2 ^ (k + 8)) :
    cntLeadZerosTbl.getD (m / 2 ^ k) 0 = 7 - (m.log2 - k) := by
  rw [← log2_div_two_pow h]
  refine cntLeadZerosTbl_getD _ ?_ ?_
  · rw [Nat.div_lt_iff_lt_mul (Nat.two_pow_pos k)]
    rwa [Nat.pow_add, Nat.mul_comm] at h'
  · rw [Nat.div_ne_zero_iff]
    exact ⟨(Nat.two_pow_pos k).ne', h⟩

theorem cntLeadZeros32_eq (hw : w ≠ 0) : cntLeadZeros32 w = 31 - w.toNat.log2 := by
  have h0 : w.toNat ≠ 0 := fun h => hw (BitVec.eq_of_toNat_eq (by simpa using h))
  have hlt := w.isLt
  have hbyte : ∀ k, 2 ^ k ≤ w.toNat → w.toNat < 2 ^ (k + 8) →
      cntLeadZerosTbl.getD (w >>> k).toNat 0 = 7 - (w.toNat.log2 - k) ∧ k ≤ w.toNat.log2 ∧ w.toNat.log2 < k + 8 := by
    intro k h h'
    rw [BitVec.toNat_ushiftRight, Nat.shiftRight_eq_div_pow]
    exact ⟨cntLeadZerosTbl_byte h h', (Nat.le_log2 h0).mpr h, (Nat.log2_lt h0).mpr h'⟩
  have h1 : (0x0000FFFF : BitVec 32).toNat = 2 ^ 16 - 1 := rfl
  have h2 : (0x00FFFFFF : BitVec 32).toNat = 2 ^ 24 - 1 := rfl
  have h3 : (0x000000FF : BitVec 32).toNat = 2 ^ 8 - 1 := rfl
  simp only [cntLeadZeros32, gt_iff_lt, BitVec.lt_def, h1, h2, h3]
  split
  · split
    · obtain ⟨h, h1, h2⟩ := hbyte 24 (by omega) (by omega)
      omega
    · obtain ⟨h, h1, h2⟩ := hbyte 16 (by omega) (by omega)
      omega
  · split
    · obtain ⟨h, h1, h2⟩ := hbyte 8 (by omega) (by omega)
      omega
    · obtain ⟨h, h1, h2⟩ := hbyte 0 (by omega) (by omega)
      omega

theorem cntLeadZeros32_spec (hw : w ≠ 0) :
    cntLeadZeros32 w < 32 ∧ w.getLsbD (31 - cntLeadZeros32 w) = true ∧
      ∀ k < cntLeadZeros32 w, w.getLsbD (31 - k) = false := by
  have h0 : w.toNat ≠ 0 := fun h => hw (BitVec.eq_of_toNat_eq (by simpa using h))
  have hlog : w.toNat.log2 < 32 := (Nat.log2_lt h0).mpr w.isLt
  rw [cntLeadZeros32_eq hw]
  refine ⟨by omega, ?_, ?_⟩
  · rw [show 31 - (31 - w.toNat.log2) = w.toNat.log2 by omega]
    exact Nat.testBit_log2 h0
  · intro k hk
    refine Nat.testBit_lt_two_pow ?_
    exact lt_of_lt_of_le Nat.lt_log2_self (Nat.pow_le_pow_right (by omega) (by omega))

theorem prioScan_spec (hb : PrioBits cfg s S) (fuel ix : ℕ) (hix : ∀ q ∈ S, 32 * ix ≤ q) :
    wp n cfg (prioScan fuel ix) (fun p s' => s' = s ∧ p ∈ S ∧ ∀ q ∈ S, q / 32 < prioTblSize cfg → p ≤ q) s := by
  induction fuel generalizing ix with
  | zero => simp [prioScan]
  | succ fuel ih =>
    simp only [prioScan, wp_bind, wp_getPrioTbl, wp_ite, wp_pure]
    intro hlt
    constructor
    · -- an empty word: the search goes on in the next one
      intro hz
      refine ih (ix + 1) fun q hq => ?_
      have hge := hix q hq
      by_contra hcon
      have hdiv : q / 32 = ix := by omega
      have hbit := hb q (by omega)
      rw [hdiv, hz] at hbit
      simp at hbit
      exact hbit hq
    · intro hw
      obtain ⟨hlz, hset, hclear⟩ := cntLeadZeros32_spec hw
      have hdiv : (32 * ix + cntLeadZeros32 (s.prioTbl ix)) / 32 = ix := by omega
      have hmod : (32 * ix + cntLeadZeros32 (s.prioTbl ix)) % 32 = cntLeadZeros32 (s.prioTbl ix) := by omega
      refine ⟨trivial, ?_, ?_⟩
      · rw [← hb _ (by omega), hdiv, hmod]
        exact hset
      · intro q hq hqt
        have hge := hix q hq
        by_contra hcon
        have hqdiv : q / 32 = ix := by omega
        have hbit := (hb q hqt).mpr hq
        rw [hqdiv, hclear (q % 32) (by omega)] at hbit
        cases hbit

def IsBest (R : ℕ → List TcbId) (p : ℕ) : Prop := R p ≠ [] ∧ ∀ q, R q ≠ [] → p ≤ q

theorem prioGetHighest_spec {R : ℕ → List TcbId} (h : RdyRep cfg s R) :
    wp n cfg prioGetHighest (fun p s' => s' = s ∧ IsBest R p) s := by
  rw [prioGetHighest, wp_bind, wp_ask]
  refine (prioScan_spec h.bits _ 0 (by simp)).mono ?_
  rintro p s' ⟨rfl, hp, hmin⟩
  refine ⟨rfl, hp, fun q hq => hmin q hq ?_⟩
  have hlt : q < cfg.prioMax := by
    by_contra hcon
    exact hq (h.lists.beyond q (by omega))
  rw [prioTblSize]
  omega

theorem prioScan_returns {p : ℕ} (hb : PrioBits cfg s S) (hp : p ∈ S) (fuel ix : ℕ) (hix : 32 * ix ≤ p)
    (hfuel : p / 32 < ix + fuel) (hsize : ix + fuel ≤ prioTblSize cfg) : (prioScan fuel ix n cfg s).isSome = true := by
  induction fuel generalizing ix with
  | zero => omega
  | succ fuel ih =>
    have hlt : ix < prioTblSize cfg := by omega
    simp only [prioScan, getPrioTbl, bind_apply, ask_apply, Prog.ite_apply, if_pos hlt, get_apply, pure_apply, Option.bind_some]
    split
    · rename_i hz
      refine ih (ix + 1) ?_ (by omega) (by omega)
      by_contra hcon
      have hdiv : p / 32 = ix := by omega
      have hbit := (hb p (by omega)).mpr hp
      simp [hdiv, hz] at hbit
    · rfl

theorem prioGetHighest_returns {R : ℕ → List TcbId} {p : ℕ} (h : RdyRep cfg s R) (hp : R p ≠ []) :
    ∃ q, prioGetHighest n cfg s = some (q, s) ∧ IsBest R q := by
  have hlt : p < cfg.prioMax := by
    by_contra hcon
    exact hp (h.lists.beyond p (by omega))
  have hret : (prioScan (prioTblSize cfg) 0 n cfg s).isSome = true :=
    prioScan_returns h.bits hp _ 0 (by omega) (by rw [prioTblSize]; omega) (by omega)
  obtain ⟨⟨q, s'⟩, hq⟩ := Option.isSome_iff_exists.mp hret
  obtain ⟨rfl, hbest⟩ := prioGetHighest_spec h q s' hq
  exact ⟨q, hq, hbest⟩

end UcosIII
