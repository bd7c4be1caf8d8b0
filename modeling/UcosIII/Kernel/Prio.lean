import UcosIII.Kernel.Types
import Mathlib.Data.List.Basic

/-!
The priority bitmap (`os_prio.c`) with the table-driven `CPU_CntLeadZeros32`. Bit `31 - p % 32` of
word `p / 32` stands for priority `p`.
-/

namespace UcosIII

def cntLeadZerosTbl : List ℕ :=
  [8, 7, 6, 6, 5, 5, 5, 5] ++ List.replicate 8 4 ++ List.replicate 16 3 ++ List.replicate 32 2 ++
    List.replicate 64 1 ++ List.replicate 128 0

def cntLeadZeros32 (val : BitVec 32) : ℕ :=
  if val > 0x0000FFFF then
    if val > 0x00FFFFFF then cntLeadZerosTbl.getD (val >>> 24).toNat 0
    else cntLeadZerosTbl.getD (val >>> 16).toNat 0 + 8
  else
    if val > 0x000000FF then cntLeadZerosTbl.getD (val >>> 8).toNat 0 + 16
    else cntLeadZerosTbl.getD (val >>> 0).toNat 0 + 24

def prioTblSize (cfg : Cfg) : ℕ := (cfg.prioMax - 1) / 32 + 1

def prioBit (prio : ℕ) : BitVec 32 := 1#32 <<< (31 - prio % 32)

def getPrioTbl (ix : ℕ) : K (BitVec 32) := do
  if ix < prioTblSize (← Prog.ask) then return (← Prog.get).prioTbl ix else Prog.fault

def modPrioTbl (ix : ℕ) (f : BitVec 32 → BitVec 32) : K Unit := do
  if ix < prioTblSize (← Prog.ask) then Prog.modify fun s => s.modPrioTbl ix f else Prog.fault

section wp

open Prog

variable {n : Bound} {cfg : Cfg} {s : OS}

@[simp] theorem wp_getPrioTbl {ix : ℕ} {Q : BitVec 32 → OS → Prop} :
    wp n cfg (getPrioTbl ix) Q s ↔ (ix < prioTblSize cfg → Q (s.prioTbl ix) s) := by
  simp [getPrioTbl]

@[simp] theorem wp_modPrioTbl {ix : ℕ} {f : BitVec 32 → BitVec 32} {Q : Unit → OS → Prop} :
    wp n cfg (modPrioTbl ix f) Q s ↔ (ix < prioTblSize cfg → Q () (s.modPrioTbl ix f)) := by
  simp [modPrioTbl]

@[simp, grind ←] theorem keeps_getPrioTbl {γ : Type} {v : OS → γ} (ix : ℕ) : Keeps v (getPrioTbl ix) := by
  grind [getPrioTbl]

end wp

/-- The loop of `OS_PrioInit` over `fuel` words from word `i` on. -/
def prioInitLoop : ℕ → ℕ → K Unit
  | 0, _ => pure ()
  | fuel + 1, i => do
    modPrioTbl i fun _ => 0
    prioInitLoop fuel (i + 1)

def prioInit : K Unit := do prioInitLoop (prioTblSize (← Prog.ask)) 0

/-- The search of `OS_PrioGetHighest` from word `ix` on, over `fuel` words. -/
def prioScan (fuel ix : ℕ) : K ℕ :=
  match fuel with
  | 0 => Prog.fault
  | fuel + 1 => do
    let w ← getPrioTbl ix
    if w = 0 then prioScan fuel (ix + 1) else return 32 * ix + cntLeadZeros32 w

def prioGetHighest : K ℕ := do prioScan (prioTblSize (← Prog.ask)) 0

def prioInsert (prio : ℕ) : K Unit := modPrioTbl (prio / 32) (· ||| prioBit prio)

def prioRemove (prio : ℕ) : K Unit := modPrioTbl (prio / 32) (· &&& ~~~ prioBit prio)

end UcosIII
