import UcosIII.Kernel.FlagClr
import Mathlib.Data.List.Basic
import Mathlib.Tactic.Common

namespace UcosIII

variable {d d' : FlagSys} {o o' : ObjId} {t u : TcbId} {e : FlagEvent} {flags : Flags} {opt : Opt} {ts : ℕ} {l : List TcbId}

def FlagSys.Met (d : FlagSys) (t : TcbId) (flags : Flags) : Prop :=
  ∃ flagsRdy, flagsReadyClr ((d.tcb t).flagsOpt &&& optPendFlagMask) flags (d.tcb t).flagsPend = some (flagsRdy, true)

/-- No task in a pend list waits for what the flags of its group meet. -/
def FlagSys.NoneStranded (d : FlagSys) : Prop := ∀ o, ∀ t ∈ (d.grp o).pendList, ¬ d.Met t (d.grp o).flags

def FlagEvent.consumes (d : FlagSys) : FlagEvent → Option (ObjId × Flags)
  | pend _ o flags opt _ =>
    if flagPendOptValid opt = true ∧ opt &&& optPendFlagConsume ≠ 0 then
      (flagsReadyClr (opt &&& optPendFlagMask) (d.grp o).flags flags).bind fun x =>
        if x.2 then (flagsConsumed (opt &&& optPendFlagMask) (d.grp o).flags x.1).map fun flags => (o, flags) else none
    else none
  | finish t o mode consume =>
    if consume = true ∧ (d.tcb t).pendStatus = .ok then
      (flagsConsumed mode (d.grp o).flags (d.tcb t).flagsRdy).map fun flags => (o, flags)
    else none
  | post .. | endWait .. => none

/-- Flags are consumed, and what is left is what some task in the pend list waits for. -/
def Strands (d : FlagSys) (e : FlagEvent) : Prop :=
  ∃ o flags, e.consumes d = some (o, flags) ∧ ∃ t ∈ (d.grp o).pendList, d.Met t flags

def FlagEvent.blocks (d : FlagSys) : FlagEvent → Bool
  | pend _ o flags opt locked =>
    flagPendOptValid opt && opt &&& optPendNonBlocking = 0 && !locked &&
      (flagsReadyClr (opt &&& optPendFlagMask) (d.grp o).flags flags).any fun x => !x.2
  | _ => false

/-- A task comes to wait in a list that has 65535 tasks already, as many as its counter can count. -/
def Overflows (d : FlagSys) : FlagEvent → Prop
  | .pend t o flags opt locked => FlagEvent.blocks d (.pend t o flags opt locked) = true ∧ (d.grp o).nbrEntries = 0xFFFF
  | _ => False

section step

def FlagSys.Unmet (d : FlagSys) (t : TcbId) (flags : Flags) : Prop :=
  ∃ flagsRdy, flagsReadyClr ((d.tcb t).flagsOpt &&& optPendFlagMask) flags (d.tcb t).flagsPend = some (flagsRdy, false)

structure FlagSys.Settled (d : FlagSys) : Prop where
  nbr : ∀ o, (d.grp o).nbrEntries.toNat = (d.grp o).pendList.length
  nodup : ∀ o, (d.grp o).pendList.Nodup
  linked : ∀ o, ∀ t ∈ (d.grp o).pendList, ∃ x, d.call t = some (o, x)
  unmet : ∀ o, ∀ t ∈ (d.grp o).pendList, d.Unmet t (d.grp o).flags

theorem FlagSys.Unmet.not_met (h : d.Unmet t flags) : ¬ d.Met t flags := by
  rintro ⟨r', h'⟩
  obtain ⟨r, h⟩ := h
  rw [h] at h'
  cases h'

theorem flagsReadyClr_some {mode : Opt} {f flags : Flags} (f' : Flags) (h : flagsReadyClr mode f flags ≠ none) :
    flagsReadyClr mode f' flags ≠ none := by
  unfold flagsReadyClr at h ⊢
  split_ifs at h ⊢ <;> first | exact absurd rfl h | simp

theorem flagsConsumed_some {mode : Opt} {f flags : Flags} {x : Flags × Bool} (f' r : Flags)
    (h : flagsReadyClr mode f flags = some x) : ∃ g, flagsConsumed mode f' r = some g := by
  unfold flagsReadyClr at h
  unfold flagsConsumed
  split_ifs at h with h₁ h₂ h₃ h₄
  · exact ⟨_, if_pos (.inl h₁)⟩
  · exact ⟨_, if_pos (.inr h₂)⟩
  · exact ⟨_, (if_neg (by simp [h₁, h₂])).trans (if_pos (.inl h₃))⟩
  · exact ⟨_, (if_neg (by simp [h₁, h₂])).trans (if_pos (.inr h₄))⟩

theorem FlagSys.Unmet.of_not_met {flags' : Flags} (h : d.Unmet t flags) (hn : ¬ d.Met t flags') : d.Unmet t flags' := by
  obtain ⟨r, h⟩ := h
  have hsome := flagsReadyClr_some flags' (by rw [h]; simp)
  obtain ⟨⟨r', b⟩, h'⟩ := Option.ne_none_iff_exists'.mp hsome
  cases b with
  | false => exact ⟨r', h'⟩
  | true => exact absurd ⟨r', h'⟩ hn

theorem FlagSys.insertPrioLoop_perm : (d.insertPrioLoop t l).Perm (t :: l) := by
  induction l with
  | nil => exact .refl _
  | cons u l ih =>
    rw [insertPrioLoop]
    split
    · exact .refl _
    · exact (ih.cons u).trans (.swap t u l)

variable {g : FlagGrp}

theorem FlagSys.pendListInsertPrio_perm (hn : g.nbrEntries.toNat = g.pendList.length) :
    (d.pendListInsertPrio t g).pendList.Perm (t :: g.pendList) := by
  unfold pendListInsertPrio
  dsimp only
  split
  · rename_i h0
    rw [h0] at hn
    rw [List.length_eq_zero_iff.mp hn.symm]
  · exact insertPrioLoop_perm

theorem FlagSys.pendListRemove1_of_mem (hn : g.nbrEntries.toNat = g.pendList.length) (ht : t ∈ g.pendList) :
    (pendListRemove1 t g).pendList = g.pendList.erase t ∧
      (pendListRemove1 t g).nbrEntries.toNat = (pendListRemove1 t g).pendList.length := by
  have hlen := List.length_erase_of_mem ht
  have hpos := List.length_pos_of_mem ht
  have hlist : (pendListRemove1 t g).pendList = g.pendList.erase t := by
    unfold pendListRemove1
    dsimp only
    split
    · rename_i h1
      rw [h1] at hn
      refine (List.length_eq_zero_iff.mp ?_).symm
      rw [hlen, ← hn]
      rfl
    · rfl
  refine ⟨hlist, ?_⟩
  rw [hlist, hlen]
  change (g.nbrEntries - 1).toNat = _
  bv_omega

structure FlagSys.Less (d d' : FlagSys) : Prop where
  call : d'.call = d.call
  flags : ∀ o, (d'.grp o).flags = (d.grp o).flags
  lists : ∀ o, (d'.grp o).pendList.Sublist (d.grp o).pendList
  waits : ∀ t, (d'.tcb t).flagsOpt = (d.tcb t).flagsOpt ∧ (d'.tcb t).flagsPend = (d.tcb t).flagsPend

theorem FlagSys.Less.refl (d : FlagSys) : d.Less d := ⟨rfl, fun _ => rfl, fun _ => .refl _, fun _ => ⟨rfl, rfl⟩⟩

theorem FlagSys.Less.trans {d'' : FlagSys} (h : d.Less d') (h' : d'.Less d'') : d.Less d'' where
  call := h'.call.trans h.call
  flags o := (h'.flags o).trans (h.flags o)
  lists o := (h'.lists o).trans (h.lists o)
  waits t := ⟨(h'.waits t).1.trans (h.waits t).1, (h'.waits t).2.trans (h.waits t).2⟩

theorem FlagSys.Less.unmet (h : d.Less d') : d'.Unmet t flags ↔ d.Unmet t flags := by
  rw [Unmet, Unmet, (h.waits t).1, (h.waits t).2]

theorem FlagSys.Settled.less (H : d.Settled) (h : d.Less d')
    (hn : ∀ o, (d'.grp o).nbrEntries.toNat = (d'.grp o).pendList.length) : d'.Settled := by
  refine ⟨hn, fun o => (H.nodup o).sublist (h.lists o), fun o t ht => ?_, fun o t ht => ?_⟩
  · rw [h.call]
    exact H.linked o t ((h.lists o).mem ht)
  · rw [h.flags, h.unmet]
    exact H.unmet o t ((h.lists o).mem ht)

theorem FlagSys.grp_modGrp (d : FlagSys) (o o' : ObjId) (f : FlagGrp → FlagGrp) :
    (d.modGrp o f).grp o' = if o' = o then f (d.grp o) else d.grp o' := by
  simp [modGrp, Function.update_apply]

theorem FlagSys.less_modTcb (d : FlagSys) (t : TcbId) {f : FlagTcb → FlagTcb}
    (hf : (f (d.tcb t)).flagsOpt = (d.tcb t).flagsOpt ∧ (f (d.tcb t)).flagsPend = (d.tcb t).flagsPend) :
    d.Less (d.modTcb t f) := by
  refine ⟨rfl, fun _ => rfl, fun _ => .refl _, fun u => ?_⟩
  simp only [modTcb, Function.update_apply]
  split
  · rename_i h
    rw [h]
    exact hf
  · exact ⟨rfl, rfl⟩

theorem FlagSys.less_drop (d : FlagSys) (t : TcbId) (o : ObjId) {f : FlagTcb → FlagTcb}
    (hf : (f (d.tcb t)).flagsOpt = (d.tcb t).flagsOpt ∧ (f (d.tcb t)).flagsPend = (d.tcb t).flagsPend) :
    d.Less ((d.modTcb t f).modGrp o (pendListRemove1 t)) := by
  refine (d.less_modTcb t hf).trans ⟨rfl, fun o' => ?_, fun o' => ?_, fun u => ⟨rfl, rfl⟩⟩
  · rw [grp_modGrp]
    split
    · rename_i h
      rw [h]
      rfl
    · rfl
  · rw [grp_modGrp]
    split
    · rename_i h
      rw [h]
      unfold pendListRemove1
      dsimp only
      split
      · exact List.nil_sublist _
      · exact List.erase_sublist
    · exact .refl _

theorem FlagSys.nbr_drop {f : FlagTcb → FlagTcb} (hn : ∀ o, (d.grp o).nbrEntries.toNat = (d.grp o).pendList.length)
    (ht : t ∈ (d.grp o).pendList) (o' : ObjId) :
    (((d.modTcb t f).modGrp o (pendListRemove1 t)).grp o').nbrEntries.toNat =
      (((d.modTcb t f).modGrp o (pendListRemove1 t)).grp o').pendList.length := by
  rw [grp_modGrp]
  split
  · exact (pendListRemove1_of_mem (hn o) ht).2
  · exact hn o'

theorem FlagSys.less_flagTaskRdy (d : FlagSys) (o : ObjId) (t : TcbId) (flagsRdy : Flags) (ts : ℕ) :
    d.Less (d.flagTaskRdy o t flagsRdy ts) := d.less_drop t o ⟨rfl, rfl⟩

theorem FlagSys.flagTaskRdy_pendList {flagsRdy : Flags} (hn : (d.grp o).nbrEntries.toNat = (d.grp o).pendList.length)
    (ht : t ∈ (d.grp o).pendList) :
    ((d.flagTaskRdy o t flagsRdy ts).grp o).pendList = (d.grp o).pendList.erase t := by
  rw [flagTaskRdy, grp_modGrp, if_pos rfl]
  exact (pendListRemove1_of_mem hn ht).1

theorem FlagSys.flagPostLoop_spec (o : ObjId) (ts : ℕ) (l : List TcbId) (d : FlagSys)
    (hn : ∀ o, (d.grp o).nbrEntries.toNat = (d.grp o).pendList.length) (hnd : (d.grp o).pendList.Nodup) (hnl : l.Nodup)
    (hmode : ∀ t ∈ l, flagsReadyClr ((d.tcb t).flagsOpt &&& optPendFlagMask) (d.grp o).flags (d.tcb t).flagsPend ≠ none)
    (hsub : ∀ t ∈ l, t ∈ (d.grp o).pendList) (hl : ∀ t ∈ (d.grp o).pendList, t ∈ l ∨ d.Unmet t (d.grp o).flags) :
    (flagPostLoop o ts l d).1 = false ∧ d.Less (flagPostLoop o ts l d).2 ∧
      (∀ o', ((flagPostLoop o ts l d).2.grp o').nbrEntries.toNat = ((flagPostLoop o ts l d).2.grp o').pendList.length) ∧
      ∀ t ∈ ((flagPostLoop o ts l d).2.grp o).pendList, d.Unmet t (d.grp o).flags := by
  induction l generalizing d with
  | nil => exact ⟨rfl, .refl d, hn, fun t ht => (hl t ht).resolve_left (by simp)⟩
  | cons t l ih =>
    obtain ⟨htl, hnl⟩ := List.nodup_cons.mp hnl
    rw [flagPostLoop]
    cases hx : flagsReadyClr ((d.tcb t).flagsOpt &&& optPendFlagMask) (d.grp o).flags (d.tcb t).flagsPend with
    | none => exact absurd hx (hmode t (by simp))
    | some x =>
      obtain ⟨flagsRdy, b⟩ := x
      cases b with
      | false =>
        refine ih d hn hnd hnl (fun u hu => hmode u (by simp [hu])) (fun u hu => hsub u (by simp [hu])) fun u hu => ?_
        rcases hl u hu with hu | hu
        · rcases List.mem_cons.mp hu with rfl | hu
          · exact .inr ⟨flagsRdy, hx⟩
          · exact .inl hu
        · exact .inr hu
      | true =>
        have ht := hsub t (by simp)
        have hless := d.less_flagTaskRdy o t flagsRdy ts
        have hlist : ((d.flagTaskRdy o t flagsRdy ts).grp o).pendList = (d.grp o).pendList.erase t :=
          flagTaskRdy_pendList (hn o) ht
        have hmode' : ∀ u ∈ l, flagsReadyClr (((d.flagTaskRdy o t flagsRdy ts).tcb u).flagsOpt &&& optPendFlagMask)
            ((d.flagTaskRdy o t flagsRdy ts).grp o).flags ((d.flagTaskRdy o t flagsRdy ts).tcb u).flagsPend ≠ none := by
          intro u hu
          rw [(hless.waits u).1, (hless.waits u).2, hless.flags]
          exact hmode u (by simp [hu])
        have hsub' : ∀ u ∈ l, u ∈ ((d.flagTaskRdy o t flagsRdy ts).grp o).pendList := by
          intro u hu
          rw [hlist, hnd.mem_erase_iff]
          refine ⟨?_, hsub u (by simp [hu])⟩
          rintro rfl
          exact htl hu
        have hnd' : ((d.flagTaskRdy o t flagsRdy ts).grp o).pendList.Nodup := by
          rw [hlist]
          exact hnd.erase t
        obtain ⟨h₁, h₂, h₃, h₄⟩ := ih (d.flagTaskRdy o t flagsRdy ts) (nbr_drop hn ht) hnd' hnl hmode' hsub' fun u hu => by
          rw [hlist, hnd.mem_erase_iff] at hu
          rw [hless.unmet, hless.flags]
          rcases hl u hu.2 with hu' | hu'
          · exact .inl ((List.mem_cons.mp hu').resolve_left hu.1)
          · exact .inr hu'
        refine ⟨h₁, hless.trans h₂, h₃, fun u hu => ?_⟩
        rw [← hless.unmet, ← hless.flags]
        exact h₄ u hu

theorem FlagSys.Settled.setFlags (H : d.Settled) {f : FlagGrp → FlagGrp}
    (hl : (f (d.grp o)).pendList = (d.grp o).pendList) (hnbr : (f (d.grp o)).nbrEntries = (d.grp o).nbrEntries)
    (hn : ∀ t ∈ (d.grp o).pendList, ¬ d.Met t (f (d.grp o)).flags) : (d.modGrp o f).Settled := by
  refine ⟨fun o' => ?_, fun o' => ?_, fun o' t ht => ?_, fun o' t ht => ?_⟩
  · rw [grp_modGrp]
    split
    · rw [hl, hnbr]
      exact H.nbr o
    · exact H.nbr o'
  · rw [grp_modGrp]
    split
    · rw [hl]
      exact H.nodup o
    · exact H.nodup o'
  · rw [grp_modGrp] at ht
    split at ht
    · rename_i h
      subst h
      exact H.linked o' t (hl ▸ ht)
    · exact H.linked o' t ht
  · rw [grp_modGrp] at ht ⊢
    split at ht
    · rename_i h
      subst h
      rw [hl] at ht
      rw [if_pos rfl]
      exact (H.unmet o' t ht).of_not_met (hn t ht)
    · rename_i h
      rw [if_neg h]
      exact H.unmet o' t ht

theorem FlagSys.Settled.flagPost (H : d.Settled) : (d.flagPost o flags opt ts).2.Settled := by
  rw [FlagSys.flagPost]
  split
  · exact H
  generalize hf : (fun g : FlagGrp =>
      if opt = optPostFlagSet ∨ opt = optPostFlagSet ||| optPostNoSched then { g with flags := g.flags ||| flags, ts := ts }
      else { g with flags := g.flags &&& ~~~ flags, ts := ts }) = f
  have hl : (f (d.grp o)).pendList = (d.grp o).pendList ∧ (f (d.grp o)).nbrEntries = (d.grp o).nbrEntries := by
    rw [← hf]
    dsimp only
    split <;> exact ⟨rfl, rfl⟩
  have hlist (o' : ObjId) : ((d.modGrp o f).grp o').pendList = (d.grp o').pendList ∧
      ((d.modGrp o f).grp o').nbrEntries = (d.grp o').nbrEntries := by
    rw [grp_modGrp]
    split
    · rename_i h
      rw [h]
      exact hl
    · exact ⟨rfl, rfl⟩
  have hn (o' : ObjId) : ((d.modGrp o f).grp o').nbrEntries.toNat = ((d.modGrp o f).grp o').pendList.length := by
    rw [(hlist o').1, (hlist o').2]
    exact H.nbr o'
  have hnd : ((d.modGrp o f).grp o).pendList.Nodup := by
    rw [(hlist o).1]
    exact H.nodup o
  dsimp only
  split
  · -- no task waits in the group
    rename_i h0
    have hempty : (d.grp o).pendList = [] := by
      rw [(hlist o).2] at h0
      refine List.length_eq_zero_iff.mp ?_
      rw [← H.nbr o, h0]
      rfl
    exact H.setFlags hl.1 hl.2 fun t ht => absurd ht (by simp [hempty])
  -- all the waits are looked at, since their modes exist
  have hmode : ∀ t ∈ ((d.modGrp o f).grp o).pendList, flagsReadyClr (((d.modGrp o f).tcb t).flagsOpt &&& optPendFlagMask)
      ((d.modGrp o f).grp o).flags ((d.modGrp o f).tcb t).flagsPend ≠ none := by
    intro t ht
    rw [(hlist o).1] at ht
    obtain ⟨r, hr⟩ := H.unmet o t ht
    exact flagsReadyClr_some _ (f := (d.grp o).flags) (by rw [show (d.modGrp o f).tcb = d.tcb from rfl, hr]; simp)
  obtain ⟨h₁, h₂, h₃, h₄⟩ := flagPostLoop_spec o ts _ (d.modGrp o f) hn hnd hnd hmode (fun t ht => ht) fun t ht => .inl ht
  generalize flagPostLoop o ts ((d.modGrp o f).grp o).pendList (d.modGrp o f) = x at h₁ h₂ h₃ h₄ ⊢
  obtain ⟨b, d₂⟩ := x
  have hsub (o' : ObjId) : (d₂.grp o').pendList.Sublist (d.grp o').pendList := by
    rw [← (hlist o').1]
    exact h₂.lists o'
  have hres : d₂.Settled := by
    refine ⟨h₃, fun o' => (H.nodup o').sublist (hsub o'), fun o' t ht => ?_, fun o' t ht => ?_⟩
    · rw [h₂.call]
      exact H.linked o' t ((hsub o').mem ht)
    · rw [h₂.flags, h₂.unmet]
      by_cases ho : o' = o
      · subst ho
        exact h₄ t ht
      · rw [grp_modGrp, if_neg ho]
        exact H.unmet o' t ((hsub o').mem ht)
  cases b with
  | true => exact hres
  | false => exact hres

theorem FlagSys.Settled.flagBlock (H : d.Settled) (hcall : d.call t = none) (hfull : (d.grp o).nbrEntries ≠ 0xFFFF)
    {x : Opt × Bool} {r : Flags} (hx : flagsReadyClr (opt &&& optPendFlagMask) (d.grp o).flags flags = some (r, false)) :
    ((d.flagBlock t o flags opt).setCall t (some (o, x))).Settled := by
  have hout (o' : ObjId) : t ∉ (d.grp o').pendList := by
    intro ht
    obtain ⟨y, hy⟩ := H.linked o' t ht
    rw [hcall] at hy
    cases hy
  have hgrp (o' : ObjId) : ((d.flagBlock t o flags opt).setCall t (some (o, x))).grp o' =
      if o' = o then d.pendListInsertPrio t (d.grp o) else d.grp o' := by
    rw [setCall, FlagSys.flagBlock, grp_modGrp]
    rfl
  have hperm := d.pendListInsertPrio_perm (t := t) (H.nbr o)
  have hlist (o' : ObjId) : ∀ u ∈ (((d.flagBlock t o flags opt).setCall t (some (o, x))).grp o').pendList,
      u = t ∧ o' = o ∨ u ∈ (d.grp o').pendList := by
    intro u hu
    rw [hgrp] at hu
    split at hu
    · rename_i h
      subst h
      rcases List.mem_cons.mp (hperm.mem_iff.mp hu) with h | h
      · exact .inl ⟨h, rfl⟩
      · exact .inr h
    · exact .inr hu
  have hflags (o' : ObjId) : (((d.flagBlock t o flags opt).setCall t (some (o, x))).grp o').flags = (d.grp o').flags := by
    rw [hgrp]
    split
    · rename_i h
      rw [h]
      rfl
    · rfl
  have htcb {u : TcbId} (hu : u ≠ t) : ((d.flagBlock t o flags opt).setCall t (some (o, x))).tcb u = d.tcb u :=
    Function.update_of_ne hu _ _
  have hne {u : TcbId} {o' : ObjId} (hu : u ∈ (d.grp o').pendList) : u ≠ t := by
    rintro rfl
    exact hout o' hu
  refine ⟨fun o' => ?_, fun o' => ?_, fun o' u hu => ?_, fun o' u hu => ?_⟩
  · rw [hgrp]
    split
    · have hnbr := H.nbr o
      rw [hperm.length_eq, List.length_cons, ← hnbr]
      change ((d.grp o).nbrEntries + 1).toNat = _
      bv_omega
    · exact H.nbr o'
  · rw [hgrp]
    split
    · exact hperm.nodup_iff.mpr (List.nodup_cons.mpr ⟨hout o, H.nodup o⟩)
    · exact H.nodup o'
  · rcases hlist o' u hu with ⟨rfl, rfl⟩ | hu
    · exact ⟨x, Function.update_self ..⟩
    · obtain ⟨y, hy⟩ := H.linked o' u hu
      exact ⟨y, (Function.update_of_ne (hne hu) _ _).trans hy⟩
  · rw [hflags]
    rcases hlist o' u hu with ⟨rfl, rfl⟩ | hu
    · refine ⟨r, ?_⟩
      simp only [setCall, FlagSys.flagBlock, modGrp, modTcb, Function.update_self]
      exact hx
    · rw [Unmet, htcb (hne hu)]
      exact H.unmet o' u hu

theorem FlagSys.Settled.modTcb (H : d.Settled) {f : FlagTcb → FlagTcb}
    (hf : (f (d.tcb t)).flagsOpt = (d.tcb t).flagsOpt ∧ (f (d.tcb t)).flagsPend = (d.tcb t).flagsPend) :
    (d.modTcb t f).Settled := H.less (d.less_modTcb t hf) H.nbr

theorem FlagSys.Settled.flagPend {locked : Bool} (H : d.Settled) (hcall : d.call t = none)
    (hs : ¬ Strands d (.pend t o flags opt locked)) (hover : ¬ Overflows d (.pend t o flags opt locked)) :
    (d.flagPend t o flags opt locked).2.Settled := by
  rw [FlagSys.flagPend]
  split
  · exact H
  rename_i hopt
  dsimp only
  cases hx : flagsReadyClr (opt &&& optPendFlagMask) (d.grp o).flags flags with
  | none => exact H
  | some x =>
    obtain ⟨r, b⟩ := x
    cases b with
    | false =>
      dsimp only
      split
      · exact H
      rename_i hblock
      split
      · exact H
      rename_i hlocked
      refine H.flagBlock hcall (fun hfull => hover ⟨?_, hfull⟩) hx
      simp [FlagEvent.blocks, hopt, hlocked, hx, not_not.mp hblock]
    | true =>
      dsimp only
      refine FlagSys.Settled.modTcb ?_ ⟨rfl, rfl⟩
      split
      · rename_i hc
        refine H.setFlags rfl rfl fun u hu hm => hs ?_
        have hc' : opt &&& optPendFlagConsume ≠ 0 := of_decide_eq_true hc
        obtain ⟨f, hf⟩ := flagsConsumed_some (d.grp o).flags r hx
        refine ⟨o, f, ?_, u, hu, ?_⟩
        · rw [FlagEvent.consumes, if_pos ⟨by simpa using hopt, hc'⟩, hx, Option.bind_some, if_pos rfl, hf, Option.map_some]
        · simpa [hf] using hm
      · exact H

theorem FlagSys.Settled.flagPendFinish {mode : Opt} {consume : Bool} (H : d.Settled)
    (hcall : d.call t = some (o, mode, consume)) (hout : t ∉ (d.grp o).pendList)
    (hs : ¬ Strands d (.finish t o mode consume)) : (d.flagPendFinish t o mode consume).2.Settled := by
  have hback : (d.setCall t none).Settled := by
    refine ⟨H.nbr, H.nodup, fun o' u hu => ?_, H.unmet⟩
    obtain ⟨y, hy⟩ := H.linked o' u hu
    refine ⟨y, (Function.update_of_ne ?_ _ _).trans hy⟩
    rintro rfl
    rw [hcall] at hy
    cases hy
    exact hout hu
  rw [FlagSys.flagPendFinish]
  cases hst : (d.tcb t).pendStatus with
  | abort | timeout | del => exact hback
  | ok =>
    dsimp only
    split
    · exact hback
    rename_i hc
    cases hf : flagsConsumed mode (d.grp o).flags (d.tcb t).flagsRdy with
    | none => exact hback
    | some f =>
      refine hback.setFlags (f := fun g => { g with flags := f }) rfl rfl fun u hu hm => hs ⟨o, f, ?_, u, hu, hm⟩
      simp [FlagEvent.consumes, hc, hst, hf]

theorem FlagSys.Settled.exec (H : d.Settled) (he : e.Enabled d) (hs : ¬ Strands d e) (hover : ¬ Overflows d e) :
    (e.exec d).Settled := by
  cases e with
  | pend t o flags opt locked => exact H.flagPend he hs hover
  | finish t o mode consume => exact H.flagPendFinish he.1 he.2 hs
  | post o flags opt ts => exact H.flagPost
  | endWait t o st => exact H.less (d.less_drop t o ⟨rfl, rfl⟩) (FlagSys.nbr_drop H.nbr he.1)

end step

/-- In a run in which what a pend consumes never leaves what another task waits for, and no counter overflows, no task in
a pend list waits for what the flags meet. -/
theorem flagRun_noneStranded (run : FlagRun (fun d e => ¬ Strands d e ∧ ¬ Overflows d e) d) : d.NoneStranded := by
  have H : d.Settled := by
    induction run with
    | @init d hl _ =>
      have hout (o : ObjId) (t : TcbId) (ht : t ∈ (d.grp o).pendList) : False := by
        rw [(hl o).1] at ht
        cases ht
      refine ⟨fun o => ?_, fun o => ?_, fun o t ht => (hout o t ht).elim, fun o t ht => (hout o t ht).elim⟩
      · rw [(hl o).1, (hl o).2]
        rfl
      · rw [(hl o).1]
        exact .nil
    | step _ he hs ih => exact ih.exec he hs.1 hs.2
  exact fun o t ht => (H.unmet o t ht).not_met

def strands (d : FlagSys) (e : FlagEvent) : Bool :=
  (e.consumes d).any fun x => (d.grp x.1).pendList.any fun t =>
    (flagsReadyClr ((d.tcb t).flagsOpt &&& optPendFlagMask) x.2 (d.tcb t).flagsPend).any fun y => y.2

theorem not_strands (h : strands d e = false) : ¬ Strands d e := by
  rintro ⟨o, f, hc, t, ht, r, hr⟩
  have hs : strands d e = true := by
    rw [strands, hc, Option.any_some, List.any_eq_true]
    exact ⟨t, ht, by rw [hr]; rfl⟩
  rw [h] at hs
  cases hs

instance : Decidable (Overflows d e) := by
  cases e <;> unfold Overflows <;> infer_instance

def FlagSys.start : FlagSys where
  grp _ := { flags := 1, ts := 0, pendList := [], nbrEntries := 0 }
  tcb _ := { prio := 5, flagsPend := 0, flagsRdy := 0, flagsOpt := 0, pendStatus := .ok, ts := 0 }
  call _ := none

/-- Task 5 waits for bit 0 to be cleared and task 6 for bit 1 to be set. Bit 1 is posted and task 6 consumes it. -/
theorem flagRun_noneStranded_five : ∃ d, FlagRun (fun d e => ¬ Strands d e ∧ ¬ Overflows d e) d ∧
    (d.grp 0).pendList = [5] ∧ (d.grp 0).flags = 1 ∧ d.NoneStranded := by
  have h₁ : FlagRun (fun d e => ¬ Strands d e ∧ ¬ Overflows d e) FlagSys.start := .init (fun _ => ⟨rfl, rfl⟩) fun _ => rfl
  have h₂ := h₁.step (e := .pend 5 0 1 optPendFlagClrAll false) rfl ⟨not_strands (by decide), by decide⟩
  have h₃ := h₂.step (e := .pend 6 0 2 (optPendFlagSetAny ||| optPendFlagConsume) false) rfl
    ⟨not_strands (by decide), by decide⟩
  have h₄ := h₃.step (e := .post 0 2 optPostFlagSet 7) trivial ⟨not_strands (by decide), by decide⟩
  have h₅ := h₄.step (e := .finish 6 0 optPendFlagSetAny true) ⟨by decide, by decide⟩ ⟨not_strands (by decide), by decide⟩
  exact ⟨_, h₅, by decide, by decide, flagRun_noneStranded h₅⟩

/-- Task 5 waits for bit 0 to be cleared. Task 4 consumes it, and task 5 stays where it is. -/
theorem flagPend_strands : ∃ d, FlagRun (fun d e => ¬ Overflows d e) d ∧ (d.grp 0).pendList = [5] ∧ (d.grp 0).flags = 0 ∧
    (d.tcb 5).flagsOpt = optPendFlagClrAll ∧ (d.tcb 5).flagsPend = 1 ∧ ¬ d.NoneStranded := by
  have h₁ : FlagRun (fun d e => ¬ Overflows d e) FlagSys.start := .init (fun _ => ⟨rfl, rfl⟩) fun _ => rfl
  have h₂ := h₁.step (e := .pend 5 0 1 optPendFlagClrAll false) rfl (by decide)
  have h₃ := h₂.step (e := .pend 4 0 1 (optPendFlagSetAll ||| optPendFlagConsume) false) rfl (by decide)
  have hl : (((FlagEvent.pend 4 0 1 (optPendFlagSetAll ||| optPendFlagConsume) false).exec
    ((FlagEvent.pend 5 0 1 optPendFlagClrAll false).exec .start)).grp 0).pendList = [5] := by decide
  refine ⟨_, h₃, hl, by decide, by decide, by decide, fun h => ?_⟩
  exact h 0 5 (by rw [hl]; simp) ⟨1, by decide⟩

end UcosIII
