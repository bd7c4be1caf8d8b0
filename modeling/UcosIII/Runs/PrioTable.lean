import UcosIII.Lists.Search
import UcosIII.Lists.Returns
import UcosIII.Kernel.System
import Mathlib.Data.Finset.Basic
import Mathlib.Order.Bounds.Basic

namespace UcosIII

open Prog

variable {n : ℕ} {cfg : Cfg} {s s' : OS} {S : Set ℕ} {p : ℕ}

inductive PrioOp where
  | insert (prio : ℕ)
  | remove (prio : ℕ)
deriving DecidableEq

namespace PrioOp

def prio : PrioOp → ℕ
  | insert p => p
  | remove p => p

def exec : PrioOp → K Unit
  | insert p => prioInsert p
  | remove p => prioRemove p

def apply (S : Finset ℕ) : PrioOp → Finset ℕ
  | insert p => Insert.insert p S
  | remove p => S.erase p

end PrioOp

def prioSet : List PrioOp → Finset ℕ
  | [] => ∅
  | op :: h => op.apply (prioSet h)

def OS.prioHas (s : OS) (p : ℕ) : Bool := (s.prioTbl (p / 32)).getLsbD (31 - p % 32)

/-- Calls with priorities below the maximum, from `OS_PrioInit` on. -/
inductive PrioRun (cfg : Cfg) : List PrioOp → OS → Prop
  | init {s s' : OS} (exec : Runs cfg prioInit s () s') : PrioRun cfg [] s'
  | step {h : List PrioOp} {s s' : OS} {op : PrioOp} (run : PrioRun cfg h s) (lt : op.prio < cfg.prioMax)
      (exec : Runs cfg op.exec s () s') : PrioRun cfg (op :: h) s'

section table

theorem prio_word_lt (hp : p < cfg.prioMax) : p / 32 < prioTblSize cfg := by
  rw [prioTblSize]
  omega

theorem prioInitLoop_clears (fuel i : ℕ) (hz : ∀ j < i, s.prioTbl j = 0) :
    wp n cfg (prioInitLoop fuel i) (fun _ s' => ∀ j < i + fuel, s'.prioTbl j = 0) s := by
  induction fuel generalizing i s with
  | zero => exact wp_pure.mpr hz
  | succ fuel ih =>
    rw [prioInitLoop, wp_bind, wp_modPrioTbl]
    intro _
    rw [show i + (fuel + 1) = i + 1 + fuel by omega]
    apply ih
    intro j hj
    by_cases hji : j = i
    · simp [OS.modPrioTbl, hji]
    · simp only [OS.modPrioTbl, Function.update_of_ne hji]
      exact hz j (by omega)

theorem prioInit_empty : wp n cfg prioInit (fun _ s' => PrioBits cfg s' ∅) s := by
  rw [prioInit, wp_bind, wp_ask]
  refine (prioInitLoop_clears _ 0 (by simp)).mono fun _ s' hz p hp => ?_
  rw [hz _ (by omega)]
  simp

theorem prioHas_modPrioTbl {f : BitVec 32 → BitVec 32} {q : ℕ} (hq : q ≠ p)
    (hf : ∀ w : BitVec 32, q % 32 ≠ p % 32 → (f w).getLsbD (31 - q % 32) = w.getLsbD (31 - q % 32)) :
    (s.modPrioTbl (p / 32) f).prioHas q = s.prioHas q := by
  by_cases hw : q / 32 = p / 32
  · simp only [OS.prioHas, OS.modPrioTbl, hw, Function.update_self]
    exact hf _ (by omega)
  · simp only [OS.prioHas, OS.modPrioTbl, Function.update_of_ne hw]

theorem PrioOp.exec_spec (op : PrioOp) (hp : op.prio < cfg.prioMax) {F : Finset ℕ} (hb : PrioBits cfg s F) :
    twp n cfg op.exec (fun _ s' => PrioBits cfg s' (op.apply F) ∧ ∀ q, q ≠ op.prio → s'.prioHas q = s.prioHas q) s := by
  cases op with
  | insert p =>
    have hlt : p / 32 < prioTblSize cfg := prio_word_lt hp
    rw [exec, prioInsert, twp_modPrioTbl]
    refine ⟨hlt, ?_, fun q hq => ?_⟩
    · rw [apply, Finset.coe_insert]
      exact hb.insert
    · apply prioHas_modPrioTbl hq
      intro w hne
      rw [BitVec.getLsbD_or, prioBit_getLsbD]
      simp [show q % 32 ≠ p % 32 from hne]
  | remove p =>
    have hlt : p / 32 < prioTblSize cfg := prio_word_lt hp
    rw [exec, prioRemove, twp_modPrioTbl]
    refine ⟨hlt, ?_, fun q hq => ?_⟩
    · rw [apply, Finset.coe_erase]
      exact hb.remove
    · apply prioHas_modPrioTbl hq
      intro w hne
      have hk : 31 - q % 32 < 32 := by omega
      rw [BitVec.getLsbD_and, BitVec.getLsbD_not, prioBit_getLsbD]
      simp [show q % 32 ≠ p % 32 from hne, hk]

theorem prioGetHighest_least {F : Finset ℕ} (hb : PrioBits cfg s F) (hlt : ∀ q ∈ F, q < cfg.prioMax) (hF : F.Nonempty) :
    twp n cfg prioGetHighest (fun p s' => s' = s ∧ IsLeast F p) s := by
  obtain ⟨q, hq⟩ := hF
  have hret : (prioGetHighest n cfg s).isSome = true :=
    prioScan_returns hb hq _ 0 (by omega) (by rw [Nat.zero_add]; exact prio_word_lt (hlt q hq)) (Nat.zero_add _).le
  obtain ⟨⟨p, s'⟩, hp⟩ := Option.isSome_iff_exists.mp hret
  obtain ⟨rfl, hmem, hmin⟩ := prioScan_spec (n := n) hb (prioTblSize cfg) 0 (by simp) p s' hp
  exact ⟨p, s', hp, rfl, hmem, fun x hx => hmin x hx (prio_word_lt (hlt x hx))⟩

end table

section result

/-- The table represents the set that the calls make, with its minimum. -/
structure PrioTable (cfg : Cfg) (h : List PrioOp) (s : OS) : Prop where
  bits : ∀ p < cfg.prioMax, s.prioHas p = true ↔ p ∈ prioSet h
  call : ∀ op : PrioOp, op.prio < cfg.prioMax → Settles cfg op.exec s fun _ s' =>
    ∀ q, q ≠ op.prio → s'.prioHas q = s.prioHas q
  highest : (prioSet h).Nonempty → Settles cfg prioGetHighest s fun p s' => s' = s ∧ IsLeast (prioSet h) p

theorem prioRun_bits {h : List PrioOp} (run : PrioRun cfg h s) :
    PrioBits cfg s (prioSet h) ∧ ∀ q ∈ prioSet h, q < cfg.prioMax := by
  induction run with
  | init hx =>
    refine ⟨?_, by simp [prioSet]⟩
    rw [prioSet, Finset.coe_empty]
    exact hx.wp fun n => prioInit_empty
  | @step h s s' op _ hp hx ih =>
    obtain ⟨hb, hlt⟩ := ih
    obtain ⟨n, hx⟩ := hx
    obtain ⟨⟨⟩, s'', hx', hb', -⟩ := op.exec_spec (n := n) hp hb
    rw [hx] at hx'
    cases hx'
    refine ⟨hb', fun q hq => ?_⟩
    cases op with
    | insert p =>
      rcases Finset.mem_insert.mp hq with rfl | hq
      · exact hp
      · exact hlt q hq
    | remove p => exact hlt q (Finset.mem_of_mem_erase hq)

/-- For every sequence of calls the table is the set of the priorities inserted and not removed. -/
theorem prioRun_table {h : List PrioOp} (run : PrioRun cfg h s) : PrioTable cfg h s := by
  obtain ⟨hb, hlt⟩ := prioRun_bits run
  refine ⟨fun p hp => hb p (prio_word_lt hp), fun op hp => ⟨0, fun n _ => ?_⟩, fun hne => ⟨0, fun n _ => ?_⟩⟩
  · exact (op.exec_spec hp hb).mono fun _ _ h => h.2
  · exact prioGetHighest_least hb hlt hne

/-- Three insertions, one of them undone. -/
theorem prioRun_table_three : ∃ s, PrioRun Cfg.repository [.remove 7, .insert 20, .insert 8, .insert 7] s ∧
    PrioTable Cfg.repository [.remove 7, .insert 20, .insert 8, .insert 7] s ∧
    prioSet [.remove 7, .insert 20, .insert 8, .insert 7] = {8, 20} := by
  have run : PrioRun Cfg.repository [.remove 7, .insert 20, .insert 8, .insert 7] _ :=
    .step (.step (.step (.step (.init (s := OS.boot Cfg.repository) ⟨0, rfl⟩) (by decide) ⟨0, rfl⟩) (by decide) ⟨0, rfl⟩)
      (by decide) ⟨0, rfl⟩) (by decide) ⟨0, rfl⟩
  exact ⟨_, run, prioRun_table run, by decide⟩

end result

end UcosIII
