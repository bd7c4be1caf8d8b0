import UcosIII.Kernel.Time
import Mathlib.Algebra.Order.Round
import Mathlib.Data.Rat.Floor
import Mathlib.Tactic.Linarith
import Mathlib.Tactic.NormNum
import Mathlib.Tactic.FieldSimp

namespace UcosIII

open Prog

namespace HMSM

def wholeSeconds (a : HMSM) : ℕ := a.hours.toNat * 3600 + a.minutes.toNat * 60 + a.seconds.toNat

/-- The duration in ticks at `rate` ticks a second. -/
def exactTicks (rate : ℕ) (a : HMSM) : ℚ := (a.wholeSeconds + a.milli.toNat / 1000) * rate

structure NoOverflow (rate : ℕ) (a : HMSM) : Prop where
  hours : a.hours.toNat * 3600 < 2 ^ 32
  minutes : a.minutes.toNat * 60 < 2 ^ 32
  hoursMinutes : a.hours.toNat * 3600 + a.minutes.toNat * 60 < 2 ^ 32
  wholeSeconds : a.wholeSeconds < 2 ^ 32
  wholeTicks : a.wholeSeconds * rate < 2 ^ 32
  millis : a.milli.toNat + 500 / rate < 2 ^ 32
  milliTicks : rate * (a.milli.toNat + 500 / rate) < 2 ^ 32
  ticks : a.wholeSeconds * rate + rate * (a.milli.toNat + 500 / rate) / 1000 < 2 ^ 32

/-- The milliseconds are few enough for the product with the tick rate, and the fraction of a tick
that they leave is not one that the cut half tick fails to carry up. -/
def Rounds (rate : ℕ) (a : HMSM) : Prop :=
  a.milli.toNat ≤ (2 ^ 32 - 1) / rate - 500 / rate ∧
    ¬ (500 ≤ rate * a.milli.toNat % 1000 ∧ rate * a.milli.toNat % 1000 < 500 + 500 % rate)

theorem round_exactTicks (rate : ℕ) (a : HMSM) :
    round (a.exactTicks rate) =
      ((a.wholeSeconds * rate + (rate * a.milli.toNat + 500) / 1000 : ℕ) : ℤ) := by
  have hsplit : a.exactTicks rate + 1 / 2 =
      ((a.wholeSeconds * rate : ℕ) : ℤ) + ((rate * a.milli.toNat + 500 : ℕ) : ℚ) / ((1000 : ℕ) : ℚ) := by
    unfold exactTicks
    push_cast
    ring
  rw [round_eq, hsplit, Int.floor_intCast_add, Rat.floor_natCast_div_natCast]
  push_cast
  rfl

theorem wholeSeconds_lt (a : HMSM) : a.wholeSeconds < 2 ^ 28 := by
  have hh := a.hours.isLt
  have hm := a.minutes.isLt
  have hs := a.seconds.isLt
  unfold wholeSeconds
  omega

theorem cut_half (rate : ℕ) : rate * (500 / rate) = 500 - 500 % rate := by
  have h := Nat.div_add_mod 500 rate
  omega

theorem milli_le_iff {rate : ℕ} (hlo : 10 ≤ rate) (a : HMSM) :
    a.milli.toNat ≤ (2 ^ 32 - 1) / rate - 500 / rate ↔ rate * (a.milli.toNat + 500 / rate) < 2 ^ 32 := by
  have hle : 500 / rate ≤ (2 ^ 32 - 1) / rate := Nat.div_le_div_right (by norm_num)
  have hdiv : a.milli.toNat + 500 / rate ≤ (2 ^ 32 - 1) / rate ↔
      (a.milli.toNat + 500 / rate) * rate ≤ 2 ^ 32 - 1 := Nat.le_div_iff_mul_le (by omega)
  rw [Nat.mul_comm] at hdiv
  omega

theorem cut_rounding (rate m : ℕ) :
    rate * (m + 500 / rate) / 1000 = (rate * m + 500) / 1000 ↔
      ¬ (500 ≤ rate * m % 1000 ∧ rate * m % 1000 < 500 + 500 % rate) := by
  have hd : 500 % rate ≤ 500 := Nat.mod_le 500 rate
  rw [Nat.mul_add, cut_half]
  generalize rate * m = x
  generalize 500 % rate = d at hd
  omega

end HMSM

theorem hmsmTicks_toNat {rate : ℕ} (hhi : rate ≤ 1000) (a : HMSM) :
    (hmsmTicks (BitVec.ofNat 32 rate) a).toNat =
      (a.wholeSeconds * rate + rate * (a.milli.toNat + 500 / rate) % 2 ^ 32 / 1000) % 2 ^ 32 := by
  have hr : rate % 2 ^ 32 = rate := Nat.mod_eq_of_lt (by omega)
  simp only [hmsmTicks, BitVec.toNat_add, BitVec.toNat_mul, BitVec.toNat_udiv, BitVec.toNat_setWidth,
    BitVec.toNat_ofNat, hr, Nat.mod_add_mod, Nat.add_mod_mod, Nat.mod_mul_mod, Nat.mul_mod_mod]
  rfl

/-- The ticks that a call waits are the duration rounded to the nearest tick, a half upwards, and
no value on the way overflows. -/
def HMSM.Converted (rate : ℕ) (a : HMSM) : Prop :=
  ((hmsmTicks (BitVec.ofNat 32 rate) a).toNat : ℤ) = round (a.exactTicks rate) ∧ a.NoOverflow rate

theorem HMSM.converted_iff {rate : ℕ} (hlo : 10 ≤ rate) (hhi : rate ≤ 1000) (a : HMSM)
    (hfit : round (a.exactTicks rate) < 2 ^ 32) : a.Converted rate ↔ a.Rounds rate := by
  rw [Converted, Rounds, milli_le_iff hlo, ← cut_rounding, round_exactTicks, hmsmTicks_toNat hhi]
  rw [round_exactTicks] at hfit
  have hw := a.wholeSeconds_lt
  have hcut : rate * (a.milli.toNat + 500 / rate) / 1000 ≤ (rate * a.milli.toNat + 500) / 1000 := by
    rw [Nat.mul_add, cut_half]
    omega
  have hmil : a.milli.toNat + 500 / rate ≤ rate * (a.milli.toNat + 500 / rate) :=
    Nat.le_mul_of_pos_left _ (by omega)
  constructor
  · rintro ⟨heq, hno⟩
    have hm := hno.milliTicks
    have ht := hno.ticks
    rw [Nat.mod_eq_of_lt hm, Nat.mod_eq_of_lt ht] at heq
    exact ⟨hm, by omega⟩
  · rintro ⟨hm, heq⟩
    have ht : a.wholeSeconds * rate + rate * (a.milli.toNat + 500 / rate) / 1000 < 2 ^ 32 := by omega
    rw [Nat.mod_eq_of_lt hm, Nat.mod_eq_of_lt ht, heq]
    refine ⟨rfl, ?_⟩
    have hsum : a.hours.toNat * 3600 + a.minutes.toNat * 60 ≤ a.wholeSeconds := by
      unfold wholeSeconds
      omega
    exact {
      hours := by omega
      minutes := by omega
      hoursMinutes := by omega
      wholeSeconds := by omega
      wholeTicks := by omega
      millis := by omega
      milliTicks := hm
      ticks := ht }

theorem osTimeDlyHMSM_eq (cfg : Cfg) (a : HMSM) (opt : Opt) (hok : hmsmCheck a opt = none) (n : ℕ) (s : OS)
    (hint : s.intNestingCtr = 0) (hlock : s.schedLockNestingCtr = 0) :
    osTimeDlyHMSM a opt n cfg s =
      if hmsmTicks (BitVec.ofNat 32 cfg.tickRateHz) a > 0 then
        timeDly (hmsmTicks (BitVec.ofNat 32 cfg.tickRateHz) a) (opt &&& optTimeMask) n cfg s
      else some (.timeZeroDly, s) := by
  simp only [osTimeDlyHMSM, bind_apply, get_apply, Option.bind_some, hint, hlock, hok, gt_iff_lt, lt_self_iff_false,
    if_false, ask_apply]
  rw [Prog.ite_apply, pure_apply]

/-- A call that passes its checks waits for the ticks of the formula, and these are the rounded
duration exactly when the milliseconds keep to `HMSM.Rounds`. -/
theorem osTimeDlyHMSM_converts_iff (cfg : Cfg) (a : HMSM) (opt : Opt) (hlo : 10 ≤ cfg.tickRateHz)
    (hhi : cfg.tickRateHz ≤ 1000) (hok : hmsmCheck a opt = none)
    (hfit : round (a.exactTicks cfg.tickRateHz) < 2 ^ 32) :
    (∀ n (s : OS), s.intNestingCtr = 0 → s.schedLockNestingCtr = 0 →
      osTimeDlyHMSM a opt n cfg s =
        if hmsmTicks (BitVec.ofNat 32 cfg.tickRateHz) a > 0 then
          timeDly (hmsmTicks (BitVec.ofNat 32 cfg.tickRateHz) a) (opt &&& optTimeMask) n cfg s
        else some (.timeZeroDly, s)) ∧
      (a.Converted cfg.tickRateHz ↔ a.Rounds cfg.tickRateHz) :=
  ⟨osTimeDlyHMSM_eq cfg a opt hok, HMSM.converted_iff hlo hhi a hfit⟩

/-- One hour, two minutes, three seconds and four milliseconds at the tick rate of the repository. -/
theorem osTimeDlyHMSM_converts_repository :
    (HMSM.mk 1 2 3 4).Converted Cfg.repository.tickRateHz := by
  have hround : (HMSM.mk 1 2 3 4).Rounds Cfg.repository.tickRateHz := by
    unfold HMSM.Rounds
    decide
  have hfit : round ((HMSM.mk 1 2 3 4).exactTicks Cfg.repository.tickRateHz) < 2 ^ 32 := by
    rw [HMSM.round_exactTicks]
    decide
  exact (osTimeDlyHMSM_converts_iff Cfg.repository ⟨1, 2, 3, 4⟩ 0 (by decide) (by decide) (by decide) hfit).2.mpr
    hround

/-- 4294968 ms at 1000 Hz wrap the product to nothing, and 1 ms at 600 Hz is six tenths of a tick
that the formula drops: both calls are accepted, and neither waits at all. -/
theorem osTimeDlyHMSM_drops :
    (hmsmCheck ⟨0, 0, 0, 4294968⟩ optTimeHMSMNonStrict = none ∧
      round ((HMSM.mk 0 0 0 4294968).exactTicks 1000) = 4294968 ∧
      hmsmTicks (BitVec.ofNat 32 1000) ⟨0, 0, 0, 4294968⟩ = 0 ∧ ¬ (HMSM.mk 0 0 0 4294968).Converted 1000) ∧
    (hmsmCheck ⟨0, 0, 0, 1⟩ optTimeDly = none ∧ round ((HMSM.mk 0 0 0 1).exactTicks 600) = 1 ∧
      hmsmTicks (BitVec.ofNat 32 600) ⟨0, 0, 0, 1⟩ = 0 ∧ ¬ (HMSM.mk 0 0 0 1).Converted 600) := by
  simp only [HMSM.Converted, HMSM.round_exactTicks]
  refine ⟨⟨by decide, by decide, by decide, ?_⟩, by decide, by decide, by decide, ?_⟩
  · rintro ⟨h, -⟩
    revert h
    decide
  · rintro ⟨h, -⟩
    revert h
    decide

end UcosIII
