import UcosIII.Kernel.Stat
import Mathlib.Tactic.Ring
import Mathlib.Algebra.Order.BigOperators.Group.List
import Mathlib.Algebra.Order.Group.Nat

namespace UcosIII

section quotient

variable {mult div max m run : ℕ}

theorem scaled_max (hdiv : 0 < div) (hm : m = max / div) : m * div ≤ max ∧ max ≤ m * div + (div - 1) := by
  have h₁ := Nat.div_mul_le_self max div
  have h₂ := Nat.lt_div_mul_add (a := max) hdiv
  rw [← hm] at h₁ h₂
  omega

theorem scaled_quotient_le (hscale : mult * div = 10000) (hm : m = max / div) (hrun : run ≤ max)
    (hcut : 10000 * (div - 1) < m * div) : mult * run / m ≤ 10000 := by
  have hdiv : 0 < div := Nat.pos_of_ne_zero (by rintro rfl; simp at hscale)
  have hpos : 0 < m := Nat.pos_of_ne_zero (by rintro rfl; simp at hcut)
  obtain ⟨-, hmax⟩ := scaled_max hdiv hm
  apply Nat.le_of_lt_succ
  rw [Nat.div_lt_iff_lt_mul hpos]
  apply Nat.lt_of_mul_lt_mul_right (a := div)
  calc mult * run * div = 10000 * run := by rw [← hscale]; ring
    _ ≤ 10000 * (m * div + (div - 1)) := Nat.mul_le_mul_left _ (hrun.trans hmax)
    _ = 10000 * (m * div) + 10000 * (div - 1) := Nat.mul_add _ _ _
    _ < 10000 * (m * div) + m * div := by omega
    _ = (10000 + 1) * m * div := by ring

theorem scaled_quotient (hscale : mult * div = 10000) (hm : m = max / div) (hrun : run ≤ max)
    (hcut : 10000 * (div - 1) < m * div) :
    10000 * run / max ≤ mult * run / m ∧ mult * run / m ≤ 10000 * run / max + 1 := by
  have hdiv : 0 < div := Nat.pos_of_ne_zero (by rintro rfl; simp at hscale)
  have hpos : 0 < m := Nat.pos_of_ne_zero (by rintro rfl; simp at hcut)
  obtain ⟨hle, hmax⟩ := scaled_max hdiv hm
  have hmaxpos : 0 < max := lt_of_lt_of_le (Nat.mul_pos hpos hdiv) hle
  have hq := scaled_quotient_le hscale hm hrun hcut
  constructor
  · rw [Nat.le_div_iff_mul_le hpos]
    apply Nat.le_of_mul_le_mul_right _ hdiv
    calc 10000 * run / max * m * div = 10000 * run / max * (m * div) := Nat.mul_assoc _ _ _
      _ ≤ 10000 * run / max * max := Nat.mul_le_mul_left _ hle
      _ ≤ 10000 * run := Nat.div_mul_le_self _ _
      _ = mult * run * div := by rw [← hscale]; ring
  · generalize hx : mult * run / m = q at hq ⊢
    have hqm : q * m ≤ mult * run := by
      rw [← hx]
      exact Nat.div_mul_le_self _ _
    cases q with
    | zero => exact Nat.zero_le _
    | succ q =>
      apply Nat.succ_le_succ
      rw [Nat.le_div_iff_mul_le hmaxpos]
      have hcut' : q * (div - 1) ≤ m * div := by
        calc q * (div - 1) ≤ 10000 * (div - 1) := Nat.mul_le_mul_right _ (by omega)
          _ ≤ m * div := hcut.le
      calc q * max ≤ q * (m * div + (div - 1)) := Nat.mul_le_mul_left _ hmax
        _ = q * (m * div) + q * (div - 1) := Nat.mul_add _ _ _
        _ ≤ q * (m * div) + m * div := by omega
        _ = (q + 1) * m * div := by ring
        _ ≤ mult * run * div := Nat.mul_le_mul_right _ hqm
        _ = 10000 * run := by rw [← hscale]; ring

end quotient

section scale

variable {max run : BitVec 32}

/-- The computations with the scale of `max` stay in range: the product, the two divisors and the quotient. -/
structure ScaleSafe (max run : BitVec 32) : Prop where
  mul : (statScale max).1.toNat * run.toNat < 2 ^ 32
  div : (statScale max).2 ≠ 0
  divisor : max / (statScale max).2 ≠ 0
  quot : (statScale max).1 * run / (max / (statScale max).2) ≤ 10000

theorem statScale_band (hmax : max ≠ 0) : (statScale max).1.toNat * (statScale max).2.toNat = 10000 ∧
    (statScale max).1.toNat * max.toNat < 2 ^ 32 ∧
    10000 * ((statScale max).2.toNat - 1) < max.toNat / (statScale max).2.toNat * (statScale max).2.toNat := by
  have hpos : 0 < max.toNat := Nat.pos_of_ne_zero fun h => hmax (BitVec.eq_of_toNat_eq (by simpa using h))
  have hlt := max.isLt
  unfold statScale
  simp only [BitVec.lt_def]
  split
  · simp_all
    omega
  · split
    · simp_all
      omega
    · split
      · simp_all
        omega
      · split
        · simp_all
          omega
        · simp_all
          omega

theorem scaled_toNat (hmax : max ≠ 0) (hrun : run ≤ max) :
    ((statScale max).1 * run / (max / (statScale max).2)).toNat =
      (statScale max).1.toNat * run.toNat / (max.toNat / (statScale max).2.toNat) := by
  obtain ⟨-, hmul, -⟩ := statScale_band hmax
  have hle : (statScale max).1.toNat * run.toNat ≤ (statScale max).1.toNat * max.toNat :=
    Nat.mul_le_mul_left _ (BitVec.le_def.mp hrun)
  rw [BitVec.toNat_udiv, BitVec.toNat_udiv, BitVec.toNat_mul, Nat.mod_eq_of_lt (by omega)]

theorem scaleSafe (hmax : max ≠ 0) (hrun : run ≤ max) : ScaleSafe max run := by
  obtain ⟨hscale, hmul, hcut⟩ := statScale_band hmax
  have hrun' := BitVec.le_def.mp hrun
  have hle : (statScale max).1.toNat * run.toNat ≤ (statScale max).1.toNat * max.toNat := Nat.mul_le_mul_left _ hrun'
  have hdiv : (statScale max).2 ≠ 0 := by
    intro h
    rw [h] at hscale
    simp at hscale
  refine ⟨by omega, hdiv, ?_, ?_⟩
  · intro h
    have h0 : max.toNat / (statScale max).2.toNat = 0 := by
      rw [← BitVec.toNat_udiv, h]
      rfl
    rw [h0] at hcut
    omega
  · rw [BitVec.le_def, scaled_toNat hmax hrun]
    exact scaled_quotient_le hscale rfl hrun' hcut

end scale

section usage

def Near (a b : ℕ) : Prop := a ≤ b + 1 ∧ b ≤ a + 1

/-- The usage of one task, given the sum of the cycles of all tasks. -/
structure TaskUsageOk (total : BitVec 32) (c c' : TaskCycles) : Prop where
  safe : total ≠ 0 → ScaleSafe total c.cyclesTotal
  le : c'.cpuUsage.toNat ≤ 10000
  near : Near c'.cpuUsage.toNat (10000 * c.cyclesTotal.toNat / total.toNat)

theorem statCycles_spec (sum : BitVec 32) (cs : List TaskCycles)
    (hsum : sum.toNat + (cs.map fun c => c.cyclesTotal.toNat).sum < 2 ^ 32) :
    (statCycles sum cs).1.toNat = sum.toNat + (cs.map fun c => c.cyclesTotal.toNat).sum ∧
      (statCycles sum cs).2 = cs.map fun c => { c with cyclesTotalPrev := c.cyclesTotal, cyclesTotal := 0 } := by
  induction cs generalizing sum with
  | nil => exact ⟨rfl, rfl⟩
  | cons c cs ih =>
    rw [List.map_cons, List.sum_cons] at hsum ⊢
    have hadd : (sum + c.cyclesTotal).toNat = sum.toNat + c.cyclesTotal.toNat := by
      rw [BitVec.toNat_add, Nat.mod_eq_of_lt (by omega)]
    obtain ⟨h₁, h₂⟩ := ih (sum + c.cyclesTotal) (by omega)
    constructor
    · change (statCycles (sum + c.cyclesTotal) cs).1.toNat = _
      omega
    · change _ :: (statCycles (sum + c.cyclesTotal) cs).2 = _
      rw [h₂, List.map_cons]

theorem le_total {cs : List TaskCycles} {c : TaskCycles} (hc : c ∈ cs) :
    c.cyclesTotal.toNat ≤ (cs.map fun c => c.cyclesTotal.toNat).sum :=
  List.single_le_sum (by simp) _ (List.mem_map_of_mem hc)

theorem statTaskUsage_spec {total : BitVec 32} {c : TaskCycles} (hc : c.cyclesTotalPrev ≤ total) :
    (statTaskUsage (cyclesScale total).1 (cyclesScale total).2 c).cpuUsage.toNat ≤ 10000 ∧
      Near (statTaskUsage (cyclesScale total).1 (cyclesScale total).2 c).cpuUsage.toNat
        (10000 * c.cyclesTotalPrev.toNat / total.toNat) := by
  have husage {q : BitVec 32} (hq : q ≤ 10000) : (if q.setWidth 16 > (10000 : BitVec 16) then 10000 else q.setWidth 16).toNat =
      q.toNat := by
    have hq' : q.toNat ≤ 10000 := BitVec.le_def.mp hq
    have hw : (q.setWidth 16).toNat = q.toNat := by
      rw [BitVec.toNat_setWidth, Nat.mod_eq_of_lt (by omega)]
    rw [if_neg, hw]
    rw [gt_iff_lt, BitVec.lt_def, hw]
    exact not_lt.mpr hq'
  by_cases h0 : total = 0
  · -- no cycles have been counted, and the usage is 0
    subst h0
    have hz : c.cyclesTotalPrev = 0 := BitVec.eq_of_toNat_eq (Nat.le_zero.mp (BitVec.le_def.mp hc))
    rw [statTaskUsage, cyclesScale, if_neg (by simp), hz]
    exact ⟨Nat.zero_le _, Nat.zero_le _, Nat.zero_le _⟩
  · have hpos : total > 0 := by
      rw [gt_iff_lt, BitVec.lt_def]
      exact Nat.pos_of_ne_zero fun h => h0 (BitVec.eq_of_toNat_eq h)
    obtain ⟨hscale, -, hcut⟩ := statScale_band h0
    have hquot := (scaleSafe h0 hc).quot
    obtain ⟨h₁, h₂⟩ := scaled_quotient hscale rfl (BitVec.le_def.mp hc) hcut
    rw [statTaskUsage, cyclesScale, if_pos hpos]
    dsimp only
    rw [husage hquot]
    refine ⟨BitVec.le_def.mp hquot, ?_, ?_⟩
    · rw [scaled_toNat h0 hc]
      exact h₂
    · rw [scaled_toNat h0 hc]
      omega

structure OverallOk (c : StatCtrs) : Prop where
  safe : c.statTaskCtr < c.statTaskCtrMax → ScaleSafe c.statTaskCtrMax c.statTaskCtr
  le : (statOverall c).statTaskCPUUsage.toNat ≤ 10000
  near : c.statTaskCtr < c.statTaskCtrMax →
    Near (statOverall c).statTaskCPUUsage.toNat (10000 - 10000 * c.statTaskCtr.toNat / c.statTaskCtrMax.toNat)

theorem statOverall_spec (c : StatCtrs) : OverallOk c := by
  by_cases hlt : c.statTaskCtr < c.statTaskCtrMax
  · have hlt' := BitVec.lt_def.mp hlt
    have hmax : c.statTaskCtrMax ≠ 0 := by
      intro h
      rw [h] at hlt'
      exact absurd hlt' (Nat.not_lt_zero _)
    have hle : c.statTaskCtr ≤ c.statTaskCtrMax := BitVec.le_def.mpr hlt'.le
    have hsafe := scaleSafe hmax hle
    obtain ⟨hscale, -, hcut⟩ := statScale_band hmax
    obtain ⟨h₁, h₂⟩ := scaled_quotient hscale rfl hlt'.le hcut
    have hquot := scaled_toNat hmax hle
    have hq : ((statScale c.statTaskCtrMax).1 * c.statTaskCtr / (c.statTaskCtrMax / (statScale c.statTaskCtrMax).2)).toNat ≤ 10000 :=
      BitVec.le_def.mp hsafe.quot
    have husage : (statOverall c).statTaskCPUUsage.toNat = 10000 -
        ((statScale c.statTaskCtrMax).1 * c.statTaskCtr / (c.statTaskCtrMax / (statScale c.statTaskCtrMax).2)).toNat := by
      rw [statOverall]
      dsimp only
      rw [if_pos hlt]
      dsimp only
      rw [BitVec.toNat_setWidth, BitVec.toNat_sub_of_le hsafe.quot]
      exact Nat.mod_eq_of_lt (lt_of_le_of_lt (Nat.sub_le _ _) (by decide))
    refine ⟨fun _ => hsafe, by omega, fun _ => ?_⟩
    rw [husage, hquot]
    rw [hquot] at hq
    constructor <;> omega
  · refine ⟨fun h => absurd h hlt, ?_, fun h => absurd h hlt⟩
    rw [statOverall]
    dsimp only
    rw [if_neg hlt]
    exact le_rfl

/-- One pass of the statistics task over a list of tasks whose cycles fit in 32 bits together. -/
theorem statTask_usage (c : StatCtrs) (cs : List TaskCycles) (hsum : (cs.map fun c => c.cyclesTotal.toNat).sum < 2 ^ 32) :
    OverallOk c ∧ (statCycles 0 cs).1.toNat = (cs.map fun c => c.cyclesTotal.toNat).sum ∧
      List.Forall₂ (TaskUsageOk (statCycles 0 cs).1) cs (statTasks cs) := by
  have hzero : (0 : BitVec 32).toNat = 0 := rfl
  obtain ⟨htotal, hcs⟩ := statCycles_spec 0 cs (by rwa [hzero, Nat.zero_add])
  rw [hzero, Nat.zero_add] at htotal
  refine ⟨statOverall_spec c, htotal, ?_⟩
  rw [statTasks]
  dsimp only
  rw [hcs, List.map_map, List.forall₂_map_right_iff, List.forall₂_same]
  intro x hx
  have hle : x.cyclesTotal ≤ (statCycles 0 cs).1 := by
    rw [BitVec.le_def, htotal]
    exact le_total hx
  obtain ⟨h₁, h₂⟩ := statTaskUsage_spec (c := { x with cyclesTotalPrev := x.cyclesTotal, cyclesTotal := 0 }) hle
  exact ⟨fun h0 => scaleSafe h0 hle, h₁, h₂⟩

/-- Two tasks, with cycles on both sides of a band. -/
theorem statTask_usage_two : ∃ c cs, cs.length = 2 ∧ (cs.map fun c : TaskCycles => c.cyclesTotal.toNat).sum < 2 ^ 32 ∧
    OverallOk c ∧ List.Forall₂ (TaskUsageOk (statCycles 0 cs).1) cs (statTasks cs) := by
  have h := statTask_usage ⟨399999, 0, 400009, 0, 0⟩ [⟨399999, 0, 0, 0⟩, ⟨10, 0, 0, 0⟩] (by decide)
  exact ⟨_, _, rfl, by decide, h.1, h.2.2⟩

end usage

end UcosIII
