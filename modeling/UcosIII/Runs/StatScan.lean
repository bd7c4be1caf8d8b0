import UcosIII.Kernel.StatTask
import UcosIII.Lib.LinkedList
import Mathlib.Data.Prod.Lex
import Mathlib.Tactic.Common

namespace UcosIII

variable {d d' : StatSys} {t u p : TcbId} {e : StatEvent} {l xs ys : List TcbId}

def StatPc.Scans (pc : StatPc) : Prop := pc = .base ∨ pc = .scan ∨ pc = .store

def Pulls (d : StatSys) (e : StatEvent) : Prop :=
  ∃ t, e = .del t ∧ t ≠ idleTaskTCB ∧ t ≠ statTaskTCB ∧ d.pTcb = some t ∧ d.pc.Scans

def Again (d : StatSys) (e : StatEvent) : Prop := ∃ t, e = .createLink t ∧ d.pTcb = some t ∧ d.pc ≠ .off

section frame

@[simp] theorem modTcb_self (f : StatTCB → StatTCB) : (d.modTcb t f).tcb t = f (d.tcb t) := Function.update_self ..

theorem modTcb_ne (f : StatTCB → StatTCB) (h : u ≠ t) : (d.modTcb t f).tcb u = d.tcb u := Function.update_of_ne h ..

def StatTCB.key (c : StatTCB) : Option ℕ × Option ℕ × BitVec 32 × Opt × Option TcbId × Option TcbId :=
  (c.stkPtr, c.stkBasePtr, c.stkSize, c.opt, c.dbgPrevPtr, c.dbgNextPtr)

structure StatSys.Same (d d' : StatSys) : Prop where
  key : ∀ t, (d'.tcb t).key = (d.tcb t).key
  stage : d'.stage = d.stage
  head : d'.taskDbgListPtr = d.taskDbgListPtr
  mem : d'.mem = d.mem

theorem StatSys.Same.goto (h : d.Same d') (pc : StatPc) : d.Same (d'.goto pc) := ⟨h.key, h.stage, h.head, h.mem⟩

theorem same_modTcb {f : StatTCB → StatTCB} (hf : ∀ c, (f c).key = c.key) (t : TcbId) : d.Same (d.modTcb t f) where
  key := by
    intro u
    unfold StatSys.modTcb
    by_cases hu : u = t
    · subst hu
      simp [hf]
    · simp [hu]
  stage := rfl
  head := rfl
  mem := rfl

theorem statStep_same (h : d.statStep = some d') : d.Same d' := by
  unfold StatSys.statStep at h
  split at h
  all_goals try split at h
  all_goals simp only [Option.some.injEq, Option.map_eq_some_iff] at h
  all_goals first | subst h | obtain ⟨p, -, rfl⟩ := h
  all_goals try split
  all_goals first
    | exact ⟨fun _ => rfl, rfl, rfl, rfl⟩
    | apply StatSys.Same.goto
      apply same_modTcb
      intro c
      rfl

end frame

section list

structure StatSys.Linked (d : StatSys) (l : List TcbId) : Prop where
  dlist : DList (fun t => (d.tcb t).dbgNextPtr) (fun t => (d.tcb t).dbgPrevPtr) l
  head : d.taskDbgListPtr = l.head?
  live : ∀ t, t ∈ l ↔ d.stage t = .live
  apart : ∀ t, d.stage t ≠ .live → (d.tcb t).dbgNextPtr = none

theorem StatSys.Same.linked (h : d.Same d') (hl : d.Linked l) : d'.Linked l where
  dlist := hl.dlist.congr fun t _ => by
    have := h.key t
    simp only [StatTCB.key, Prod.mk.injEq] at this
    exact ⟨this.2.2.2.2.2, this.2.2.2.2.1⟩
  head := by rw [h.head, hl.head]
  live := by
    rw [h.stage]
    exact hl.live
  apart := by
    intro t ht
    have := h.key t
    simp only [StatTCB.key, Prod.mk.injEq] at this
    rw [this.2.2.2.2.2]
    exact hl.apart t (by rwa [h.stage] at ht)

theorem linked_boot (mem : ℕ → BitVec 32) : (StatSys.boot mem).Linked [] where
  dlist := DList.nil
  head := rfl
  live := by simp [StatSys.boot]
  apart := by simp [StatSys.boot, StatTCB.init]

theorem linked_createLink (hl : d.Linked l) (ht : d.stage t = .made) : (d.taskCreateLink t).Linked (t :: l) := by
  have htl : t ∉ l := by simp [hl.live, ht]
  have hlinks : ∀ u, ((d.taskCreateLink t).tcb u).dbgNextPtr = (if u = t then l.head? else (d.tcb u).dbgNextPtr) ∧
      ((d.taskCreateLink t).tcb u).dbgPrevPtr =
        if u = t then none else if l.head? = some u then some t else (d.tcb u).dbgPrevPtr := by
    intro u
    cases l with
    | nil =>
      have hh := hl.head
      by_cases hu : u = t <;> simp_all [StatSys.taskCreateLink, StatSys.taskDbgListAdd, StatSys.modTcb, StatSys.setStage]
    | cons a l =>
      have hh := hl.head
      have hta : t ≠ a := by
        rintro rfl
        simp at htl
      by_cases hu : u = t <;> by_cases hua : u = a <;>
        simp_all [StatSys.taskCreateLink, StatSys.taskDbgListAdd, StatSys.modTcb, StatSys.setStage, eq_comm]
  have hne : ∀ u ∈ l, u ≠ t := by
    rintro u hu rfl
    exact htl hu
  have hstage : (d.taskCreateLink t).stage = Function.update d.stage t .live := by
    unfold StatSys.taskCreateLink StatSys.setStage StatSys.taskDbgListAdd
    cases hh : d.taskDbgListPtr <;> simp [StatSys.modTcb, hh]
  refine ⟨?_, rfl, ?_, ?_⟩
  · apply hl.dlist.insert [] l htl
    · simp [(hlinks t).1]
    · simp [(hlinks t).2]
    · intro u hu
      simp [(hlinks u).1, hne u hu]
    · intro u hu
      simp [(hlinks u).2, hne u hu]
  · intro u
    rw [hstage]
    by_cases hu : u = t
    · simp [hu]
    · simp [hu, hl.live]
  · intro u hu
    rw [hstage] at hu
    have hut : u ≠ t := by
      rintro rfl
      simp at hu
    rw [(hlinks u).1, if_neg hut]
    exact hl.apart u (by simpa [hut] using hu)

theorem linked_del (hl : d.Linked (xs ++ t :: ys)) :
    (((d.taskDbgListRemove t).taskInitTCB t).setStage t .dormant).Linked (xs ++ ys) := by
  have hprev : (d.tcb t).dbgPrevPtr = xs.getLast? := hl.dlist.prev_eq
  have hnext : (d.tcb t).dbgNextPtr = ys.head? := hl.dlist.next_eq
  have hnd := List.nodup_middle.trans List.nodup_cons |>.mp hl.dlist.nodup
  have hlinks : ∀ u ≠ t, ((d.taskDbgListRemove t).tcb u).dbgNextPtr =
        (if xs.getLast? = some u then ys.head? else (d.tcb u).dbgNextPtr) ∧
      ((d.taskDbgListRemove t).tcb u).dbgPrevPtr = if ys.head? = some u then xs.getLast? else (d.tcb u).dbgPrevPtr := by
    intro u hu
    have hxy : ∀ a, xs.getLast? = some a → ys.head? ≠ some a := by
      intro a hx
      exact DList.ne_of_head? hnd.2 (List.mem_of_getLast? hx)
    unfold StatSys.taskDbgListRemove
    rw [hprev, hnext]
    cases hx : xs.getLast? with
    | none =>
      cases hy : ys.head? with
      | none => simp [modTcb_ne _ hu]
      | some n =>
        by_cases hun : u = n
        · subst hun
          simp [modTcb_ne _ hu]
        · simp [modTcb_ne _ hu, modTcb_ne _ hun, Ne.symm hun]
    | some a =>
      cases hy : ys.head? with
      | none =>
        by_cases hua : u = a
        · subst hua
          simp [modTcb_ne _ hu]
        · simp [modTcb_ne _ hu, modTcb_ne _ hua, Ne.symm hua]
      | some n =>
        have han : a ≠ n := by
          rintro rfl
          exact hxy a hx hy
        by_cases hun : u = n
        · subst hun
          simp [modTcb_ne _ hu, modTcb_ne _ han.symm, han]
        · by_cases hua : u = a
          · subst hua
            simp [modTcb_ne _ hu, modTcb_ne _ hun, Ne.symm hun]
          · simp [modTcb_ne _ hu, modTcb_ne _ hua, modTcb_ne _ hun, Ne.symm hua, Ne.symm hun]
  have hhead : (d.taskDbgListRemove t).taskDbgListPtr = (xs ++ ys).head? := by
    have hh := hl.head
    unfold StatSys.taskDbgListRemove
    rw [hprev, hnext]
    cases hx : xs.getLast? with
    | none =>
      obtain rfl : xs = [] := List.getLast?_eq_none_iff.mp hx
      cases hy : ys.head? <;> simp [StatSys.modTcb, hy]
    | some a =>
      cases xs with
      | nil => simp at hx
      | cons b xs => cases hy : ys.head? <;> simpa [StatSys.modTcb] using hh
  have hstage : (d.taskDbgListRemove t).stage = d.stage := by
    unfold StatSys.taskDbgListRemove
    split <;> rfl
  have htcb : ∀ u ≠ t, (((d.taskDbgListRemove t).taskInitTCB t).setStage t .dormant).tcb u =
      (d.taskDbgListRemove t).tcb u := by
    intro u hu
    simp [StatSys.setStage, StatSys.taskInitTCB, modTcb_ne _ hu]
  have hne : ∀ u ∈ xs ++ ys, u ≠ t := by
    rintro u hu rfl
    exact hnd.1 hu
  refine ⟨?_, hhead, ?_, ?_⟩
  · apply hl.dlist.erase xs ys
    · intro u hu
      rw [htcb u (hne u hu), (hlinks u (hne u hu)).1]
    · intro u hu
      rw [htcb u (hne u hu), (hlinks u (hne u hu)).2]
  · intro u
    by_cases hu : u = t
    · subst hu
      simp [StatSys.setStage, hnd.1]
    · have := hl.live u
      simp only [List.mem_append, List.mem_cons, hu, false_or] at this
      simp [StatSys.setStage, StatSys.taskInitTCB, StatSys.modTcb, hu, hstage, this]
  · intro u hu
    by_cases hut : u = t
    · subst hut
      simp [StatSys.setStage, StatSys.taskInitTCB, StatTCB.init]
    · have hlive : d.stage u ≠ .live := by
        simpa [StatSys.setStage, StatSys.taskInitTCB, StatSys.modTcb, hut, hstage] using hu
      have hlast : xs.getLast? ≠ some u := by
        intro hx
        exact hlive ((hl.live u).mp (by simp [List.mem_of_getLast? hx]))
      rw [htcb u hut, (hlinks u hut).1, if_neg hlast]
      exact hl.apart u hlive

end list

section scan

def StatTCB.stk (c : StatTCB) : Option ℕ × Option ℕ × BitVec 32 := (c.stkPtr, c.stkBasePtr, c.stkSize)

structure StatSys.Stacked (d : StatSys) : Prop where
  exist : ∀ t, d.stage t ≠ .dormant → ∃ b, (d.tcb t).stkBasePtr = some b ∧ taskPtrWord < (d.tcb t).stkSize.toNat ∧
    d.mem (b + taskPtrWord) ≠ 0
  gone : ∀ t, d.stage t = .dormant → (d.tcb t).stkPtr = none

theorem StatSys.Stacked.frame (h : d.Stacked)
    (hlive : ∀ t, d'.stage t ≠ .dormant → d.stage t ≠ .dormant ∧ (d'.tcb t).stk = (d.tcb t).stk ∧
      ∀ b ∈ (d.tcb t).stkBasePtr, d.mem (b + taskPtrWord) ≠ 0 → d'.mem (b + taskPtrWord) ≠ 0)
    (hgone : ∀ t, d'.stage t = .dormant → (d'.tcb t).stkPtr = none ∨ d.stage t = .dormant ∧ (d'.tcb t).stk = (d.tcb t).stk) :
    d'.Stacked where
  exist := by
    intro t ht
    obtain ⟨hd, hs, hm⟩ := hlive t ht
    obtain ⟨b, hb, hsize, hw⟩ := h.exist t hd
    simp only [StatTCB.stk, Prod.mk.injEq] at hs
    exact ⟨b, hs.2.1.trans hb, by rwa [hs.2.2], hm b hb hw⟩
  gone := by
    intro t ht
    rcases hgone t ht with h' | ⟨hd, hs⟩
    · exact h'
    · simp only [StatTCB.stk, Prod.mk.injEq] at hs
      exact hs.1.trans (h.gone t hd)

theorem modTcb_stk {f : StatTCB → StatTCB} (hf : ∀ c, (f c).stk = c.stk) (t u : TcbId) :
    ((d.modTcb t f).tcb u).stk = (d.tcb u).stk := by
  by_cases hu : u = t
  · subst hu
    simp [hf]
  · rw [modTcb_ne _ hu]

theorem StatSys.Same.stk (h : d.Same d') (t : TcbId) : (d'.tcb t).stk = (d.tcb t).stk := by
  have := h.key t
  simp only [StatTCB.key, Prod.mk.injEq] at this
  simp only [StatTCB.stk, Prod.mk.injEq]
  exact ⟨this.1, this.2.1, this.2.2.1⟩

theorem StatSys.Same.stacked (h : d.Same d') (hd : d.Stacked) : d'.Stacked := by
  apply hd.frame
  · intro t ht
    rw [h.stage] at ht
    exact ⟨ht, h.stk t, by simp [h.mem]⟩
  · intro t ht
    rw [h.stage] at ht
    exact .inr ⟨ht, h.stk t⟩

theorem stk_dbgListAdd (t u : TcbId) : ((d.taskDbgListAdd t).tcb u).stk = (d.tcb u).stk := by
  unfold StatSys.taskDbgListAdd
  simp only
  split
  · rw [modTcb_stk, modTcb_stk] <;> exact fun _ => rfl
  · rw [modTcb_stk, modTcb_stk, modTcb_stk] <;> exact fun _ => rfl

theorem stk_dbgListRemove (t u : TcbId) : ((d.taskDbgListRemove t).tcb u).stk = (d.tcb u).stk := by
  unfold StatSys.taskDbgListRemove
  split
  · rw [modTcb_stk]
    exact fun _ => rfl
  · rw [modTcb_stk, modTcb_stk] <;> exact fun _ => rfl
  · rw [modTcb_stk, modTcb_stk] <;> exact fun _ => rfl
  · rw [modTcb_stk, modTcb_stk, modTcb_stk] <;> exact fun _ => rfl

def StatSys.rest (d : StatSys) : (TcbId → TaskStage) × (ℕ → BitVec 32) × StatPc × Option TcbId × Option ℕ × BitVec 32 ×
    Option ℕ × BitVec 32 :=
  (d.stage, d.mem, d.pc, d.pTcb, d.pStk, d.freeStk, d.scanned)

theorem rest_dbgListAdd (t : TcbId) : (d.taskDbgListAdd t).rest = d.rest := by
  unfold StatSys.taskDbgListAdd
  simp only
  split <;> rfl

theorem rest_dbgListRemove (t : TcbId) : (d.taskDbgListRemove t).rest = d.rest := by
  unfold StatSys.taskDbgListRemove
  split <;> rfl

structure StatSys.Made (d : StatSys) (t : TcbId) (a : StkArgs) (b : ℕ) (d' : StatSys) : Prop where
  base : a.stkBase = some b
  size : 64 ≤ a.stkSize.toNat
  tcb : ∀ u ≠ t, d'.tcb u = d.tcb u
  stk : (d'.tcb t).stk = (some b, some b, a.stkSize)
  next : (d'.tcb t).dbgNextPtr = none
  rest : d'.rest = (Function.update d.stage t .made, d'.mem, d.rest.2.2)
  head : d'.taskDbgListPtr = d.taskDbgListPtr
  word : d'.mem (b + taskPtrWord) ≠ 0
  mem : ∀ x, ¬ (b ≤ x ∧ x < b + a.stkSize.toNat) → d'.mem x = d.mem x

theorem taskCreateInit_made (t : TcbId) (a : StkArgs) :
    d.taskCreateInit t a = d ∨ ∃ b, d.Made t a b (d.taskCreateInit t a) := by
  unfold StatSys.taskCreateInit
  split
  · exact .inl rfl
  · rename_i htask
    split
    · exact .inl rfl
    · rename_i b hb
      split
      · exact .inl rfl
      · rename_i hsize
        have hsize : 64 ≤ a.stkSize.toNat := by
          simpa [stkSizeMin, BitVec.lt_def] using hsize
        refine .inr ⟨b, hb, hsize, ?_, ?_, ?_, rfl, rfl, ?_, ?_⟩
        · intro u hu
          simp [StatSys.setStage, StatSys.taskInitTCB, StatSys.modTcb, hu]
        · simp [StatSys.setStage, StatTCB.stk]
        · simp [StatSys.setStage, StatSys.taskInitTCB, StatTCB.init, StatSys.modTcb]
        · simpa [StatSys.setStage, StatSys.modTcb, StatSys.taskStkInit, taskPtrWord] using htask
        · intro x hx
          have h4 : x ≠ b + 4 := by omega
          have h5 : x ≠ b + 5 := by omega
          have h6 : x ≠ b + taskPtrWord := by
            unfold taskPtrWord
            omega
          have h12 : ¬ (b ≤ x ∧ x < b + 12) := by omega
          simp only [StatSys.setStage, StatSys.modTcb, StatSys.taskStkInit, StatSys.stkClear, h4, h5, h6, h12, if_false]
          rw [if_neg]
          rintro ⟨-, -, hx'⟩
          exact hx hx'

structure StatSys.Deleted (d : StatSys) (t : TcbId) (d' : StatSys) : Prop where
  idle : t ≠ idleTaskTCB
  exists_ : d.stage t ≠ .dormant
  stk : ∀ u ≠ t, (d'.tcb u).stk = (d.tcb u).stk
  gone : (d'.tcb t).stkPtr = none
  rest : d'.rest = (Function.update d.stage t .dormant, d.mem, if t = statTaskTCB then .off else d.pc, d.rest.2.2.2)

theorem taskDel_deleted (t : TcbId) : d.taskDel t = d ∨ d.Deleted t (d.taskDel t) := by
  unfold StatSys.taskDel
  by_cases hidle : t = idleTaskTCB
  · exact .inl (if_pos hidle)
  by_cases hdorm : d.stage t = .dormant
  · simp [hidle, hdorm]
  have hr := rest_dbgListRemove (d := d) t
  simp only [StatSys.rest, Prod.mk.injEq] at hr
  right
  rw [if_neg hidle, if_neg hdorm]
  refine ⟨hidle, hdorm, ?_, ?_, ?_⟩
  · intro u hu
    have hs := stk_dbgListRemove (d := d) t u
    rw [← hs]
    split <;> simp [StatSys.goto, StatSys.setStage, StatSys.taskInitTCB, modTcb_ne _ hu]
  · split <;> simp [StatSys.goto, StatSys.setStage, StatSys.taskInitTCB, StatTCB.init]
  · split <;> simp [StatSys.rest, StatSys.goto, StatSys.setStage, StatSys.taskInitTCB, StatSys.modTcb, hr]

end scan

section pass

def StatPc.InBody : StatPc → Prop
  | .sum | .next | .chk | .zero | .base | .scan | .store | .last => True
  | .off | .first | .cycles | .second | .usage => False

structure StatSys.Stands (d : StatSys) : Prop where
  body : d.pc.InBody → ∃ p, d.pTcb = some p
  alive : d.pc.Scans → ∀ p ∈ d.pTcb, d.stage p ≠ .dormant
  scan : d.pc = .scan ∨ d.pc = .store → ∀ p ∈ d.pTcb, d.scanned = ((d.tcb p).stkBasePtr, (d.tcb p).stkSize) ∧
    d.freeStk.toNat ≤ taskPtrWord ∧ (d.pc = .scan → d.pStk = (d.tcb p).stkBasePtr.map (· + d.freeStk.toNat))

theorem StatSys.Stands.frame (h : d.Stands) (hrest : d'.rest.2.2 = d.rest.2.2)
    (hp : d.pc.Scans → ∀ p ∈ d.pTcb, d'.stage p ≠ .dormant ∧ (d'.tcb p).stk = (d.tcb p).stk) : d'.Stands := by
  simp only [StatSys.rest, Prod.mk.injEq] at hrest
  obtain ⟨hpc, htcb, hstk, hfree, hscanned⟩ := hrest
  refine ⟨?_, ?_, ?_⟩
  · rw [hpc, htcb]
    exact h.body
  · rw [hpc, htcb]
    intro hs p hpp
    exact (hp hs p hpp).1
  · rw [hpc, htcb, hstk, hfree, hscanned]
    intro hs p hpp
    have hk := (hp (.inr hs) p hpp).2
    simp only [StatTCB.stk, Prod.mk.injEq] at hk
    rw [hk.2.1, hk.2.2]
    exact h.scan hs p hpp

theorem stands_off (h : d.pc = .off) : d.Stands := by
  constructor <;> simp [h, StatPc.InBody, StatPc.Scans]

theorem stands_of_not_scans (hs : ¬ d.pc.Scans) (hp : d.pc.InBody → ∃ p, d.pTcb = some p) : d.Stands where
  body := hp
  alive h := absurd h hs
  scan h := absurd (.inr h) hs

theorem freeStk_succ (h : d.freeStk.toNat ≤ taskPtrWord) : (d.freeStk + 1).toNat = d.freeStk.toNat + 1 := by
  have hone : (1 : BitVec 32).toNat = 1 := rfl
  unfold taskPtrWord at h
  rw [BitVec.toNat_add, hone]
  omega

theorem statStep_stands (hs : d.Stacked) (h : d.Stands) (hx : d.statStep = some d') : d'.Stands := by
  cases hpc : d.pc <;> simp only [StatSys.statStep, hpc, Option.some.injEq, Option.map_eq_some_iff] at hx
  case off =>
    subst hx
    exact h
  case first | second =>
    subst hx
    apply stands_of_not_scans <;> simp [StatSys.goto, StatPc.Scans, StatPc.InBody]
  case cycles | usage =>
    split at hx <;> cases hx <;> apply stands_of_not_scans <;>
      simp_all [StatSys.goto, StatPc.Scans, StatPc.InBody, StatSys.modTcb]
  case sum | next | zero | store | last =>
    obtain ⟨p, hp, rfl⟩ := hx
    apply stands_of_not_scans <;> simp [StatSys.goto, StatPc.Scans, StatPc.InBody, StatSys.modTcb, hp]
  case chk =>
    obtain ⟨p, hp, rfl⟩ := hx
    split_ifs with hstk hopt
    · apply stands_of_not_scans <;> simp [StatSys.goto, StatPc.Scans, StatPc.InBody, hp]
    · apply stands_of_not_scans <;> simp [StatSys.goto, StatPc.Scans, StatPc.InBody, hp]
    · refine ⟨fun _ => ⟨p, hp⟩, ?_, by simp [StatSys.goto]⟩
      rintro - q hq
      obtain rfl : q = p := by simpa [StatSys.goto, hp, eq_comm] using hq
      exact fun hd => hstk (hs.gone q hd)
  case base =>
    obtain ⟨p, hp, rfl⟩ := hx
    refine ⟨fun _ => ⟨p, hp⟩, ?_, ?_⟩
    · exact fun _ => h.alive (.inl hpc)
    · rintro - q hq
      obtain rfl : q = p := by simpa [StatSys.goto, hp, eq_comm] using hq
      simp [StatSys.goto]
  case scan =>
    obtain ⟨x, hxs, rfl⟩ := hx
    obtain ⟨p, hp⟩ := h.body (by simp [hpc, StatPc.InBody])
    have halive := h.alive (.inr (.inl hpc)) p hp
    obtain ⟨hsc, hfree, hstk⟩ := h.scan (.inl hpc) p hp
    obtain ⟨b, hb, hsize, hw⟩ := hs.exist p halive
    have hxb : x = b + d.freeStk.toNat := by
      have := hstk hpc
      rw [hb, hxs] at this
      simpa using this
    split_ifs with hmem
    · -- the word is free, so that it is not that of `TaskPtr`
      have hlt : d.freeStk.toNat < taskPtrWord := by
        rcases Nat.lt_or_eq_of_le hfree with hlt | heq
        · exact hlt
        · rw [hxb, heq] at hmem
          exact absurd hmem hw
      have hadd := freeStk_succ hfree
      refine ⟨fun _ => ⟨p, hp⟩, fun _ => h.alive (.inr (.inl hpc)), ?_⟩
      rintro - q hq
      obtain rfl : q = p := by simpa [hp, eq_comm] using hq
      refine ⟨hsc, by simp only [hadd]; omega, ?_⟩
      rintro -
      simp only [hadd, hb, hxb, Option.map_some, Option.some.injEq]
      omega
    · refine ⟨fun _ => ⟨p, hp⟩, fun _ => h.alive (.inr (.inl hpc)), ?_⟩
      rintro - q hq
      obtain rfl : q = p := by simpa [StatSys.goto, hp, eq_comm] using hq
      exact ⟨hsc, hfree, by simp [StatSys.goto]⟩

structure StatSys.Sound (d : StatSys) : Prop where
  linked : ∃ l, d.Linked l
  stacked : d.Stacked
  stands : d.Stands

theorem sound_boot (mem : ℕ → BitVec 32) : (StatSys.boot mem).Sound where
  linked := ⟨[], linked_boot mem⟩
  stacked := ⟨by simp [StatSys.boot], by simp [StatSys.boot, StatTCB.init]⟩
  stands := stands_off rfl

theorem createInit_linked {a : StkArgs} (hen : (StatEvent.createInit t a).Enabled d) (hl : d.Linked l) :
    (d.taskCreateInit t a).Linked l := by
  rcases taskCreateInit_made t a (d := d) with heq | ⟨b, hm⟩
  · rw [heq]
    exact hl
  have hr := hm.rest
  simp only [StatSys.rest, Prod.mk.injEq] at hr
  have htl : t ∉ l := by simp [hl.live, hen.1]
  refine ⟨?_, by rw [hm.head, hl.head], ?_, ?_⟩
  · apply hl.dlist.congr
    rintro u hu
    have hut : u ≠ t := by
      rintro rfl
      exact htl hu
    rw [hm.tcb u hut]
    exact ⟨rfl, rfl⟩
  · intro u
    rw [hl.live, hr.1]
    by_cases hu : u = t
    · simp [hu, hen.1]
    · simp [hu]
  · intro u hu
    rw [hr.1] at hu
    by_cases hut : u = t
    · rw [hut, hm.next]
    · rw [hm.tcb u hut]
      exact hl.apart u (by simpa [hut] using hu)

theorem createInit_sound {a : StkArgs} (hen : (StatEvent.createInit t a).Enabled d) (h : d.Sound) :
    (d.taskCreateInit t a).Sound := by
  obtain ⟨l, hl⟩ := h.linked
  have hl' := createInit_linked hen hl
  obtain ⟨hdorm, hfree⟩ := hen
  rcases taskCreateInit_made t a (d := d) with heq | ⟨b, hm⟩
  · rw [heq]
    exact h
  have hr := hm.rest
  simp only [StatSys.rest, Prod.mk.injEq] at hr
  refine ⟨⟨l, hl'⟩, ⟨?_, ?_⟩, ?_⟩
  · intro u hu
    by_cases hut : u = t
    · have hs := hm.stk
      simp only [StatTCB.stk, Prod.mk.injEq] at hs
      have hsize := hm.size
      rw [hut, hs.2.1, hs.2.2]
      exact ⟨b, rfl, by unfold taskPtrWord; omega, hm.word⟩
    · -- the stack of another task is elsewhere
      rw [hr.1, Function.update_of_ne hut] at hu
      obtain ⟨c, hc, hsize, hw⟩ := h.stacked.exist u hu
      have hout : ¬ (b ≤ c + taskPtrWord ∧ c + taskPtrWord < b + a.stkSize.toNat) := by
        intro hin
        exact hfree b hm.base _ hin.1 hin.2 u hu ⟨c, hc, by omega, by omega⟩
      rw [hm.tcb u hut]
      exact ⟨c, hc, hsize, by rwa [hm.mem _ hout]⟩
  · intro u hu
    have hut : u ≠ t := by
      rintro rfl
      simp [hr.1] at hu
    rw [hm.tcb u hut]
    exact h.stacked.gone u (by simpa [hr.1, hut] using hu)
  · apply h.stands.frame
    · simp only [StatSys.rest, Prod.mk.injEq]
      exact hr.2.2
    · intro hs p hp
      have hpt : p ≠ t := by
        rintro rfl
        exact h.stands.alive hs p hp hdorm
      rw [hr.1, Function.update_of_ne hpt, hm.tcb p hpt]
      exact ⟨h.stands.alive hs p hp, rfl⟩

theorem createLink_sound (hen : (StatEvent.createLink t).Enabled d) (h : d.Sound) : (d.taskCreateLink t).Sound := by
  obtain ⟨l, hl⟩ := h.linked
  have hr := rest_dbgListAdd (d := d) t
  simp only [StatSys.rest, Prod.mk.injEq] at hr
  have hstage : (d.taskCreateLink t).stage = Function.update d.stage t .live := by
    simp [StatSys.taskCreateLink, StatSys.setStage, hr.1]
  have hstk : ∀ u, ((d.taskCreateLink t).tcb u).stk = (d.tcb u).stk := stk_dbgListAdd t
  have hmade : d.stage t = .made := hen
  refine ⟨⟨_, linked_createLink hl hen⟩, ?_, ?_⟩
  · apply h.stacked.frame
    · intro u hu
      refine ⟨?_, hstk u, by simp [StatSys.taskCreateLink, StatSys.setStage, hr.2.1]⟩
      by_cases hut : u = t
      · simp [hut, hmade]
      · simpa [hstage, hut] using hu
    · intro u hu
      have hut : u ≠ t := by
        rintro rfl
        simp [hstage] at hu
      exact .inr ⟨by simpa [hstage, hut] using hu, hstk u⟩
  · apply h.stands.frame
    · simpa [StatSys.taskCreateLink, StatSys.setStage, StatSys.rest] using hr.2.2
    · intro hs p hp
      refine ⟨?_, hstk p⟩
      rw [hstage]
      by_cases hpt : p = t
      · simp [hpt]
      · simpa [hpt] using h.stands.alive hs p hp

theorem del_linked (hen : (StatEvent.del t).Enabled d) (hl : d.Linked l) :
    (d.taskDel t).Linked l ∨ ∃ xs ys, l = xs ++ t :: ys ∧ (d.taskDel t).Linked (xs ++ ys) := by
  unfold StatSys.taskDel
  by_cases hidle : t = idleTaskTCB
  · exact .inl (by rwa [if_pos hidle])
  by_cases hdorm : d.stage t = .dormant
  · exact .inl (by rwa [if_neg hidle, if_pos hdorm])
  have hlive : t ∈ l := by
    rw [hl.live]
    have hmade : d.stage t ≠ .made := hen
    cases hst : d.stage t <;> simp_all
  obtain ⟨xs, ys, rfl⟩ := List.append_of_mem hlive
  have hd := linked_del hl
  right
  refine ⟨xs, ys, rfl, ?_⟩
  rw [if_neg hidle, if_neg hdorm]
  split
  · exact ⟨hd.dlist, hd.head, hd.live, hd.apart⟩
  · exact hd

theorem del_sound (hen : (StatEvent.del t).Enabled d) (hk : ¬ Pulls d (.del t)) (h : d.Sound) : (d.taskDel t).Sound := by
  obtain ⟨l, hl⟩ := h.linked
  have hlinked : ∃ l, (d.taskDel t).Linked l := by
    rcases del_linked hen hl with hl' | ⟨xs, ys, -, hl'⟩
    · exact ⟨_, hl'⟩
    · exact ⟨_, hl'⟩
  rcases taskDel_deleted t (d := d) with heq | hdel
  · rw [heq]
    exact h
  have hr := hdel.rest
  simp only [StatSys.rest, Prod.mk.injEq] at hr
  refine ⟨hlinked, ?_, ?_⟩
  · apply h.stacked.frame
    · intro u hu
      have hut : u ≠ t := by
        rintro rfl
        simp [hr.1] at hu
      exact ⟨by simpa [hr.1, hut] using hu, hdel.stk u hut, by simp [hr.2.1]⟩
    · intro u hu
      by_cases hut : u = t
      · exact .inl (by rw [hut, hdel.gone])
      · exact .inr ⟨by simpa [hr.1, hut] using hu, hdel.stk u hut⟩
  · by_cases hstat : t = statTaskTCB
    · exact stands_off (by rw [hr.2.2.1, if_pos hstat])
    · apply h.stands.frame
      · simp only [StatSys.rest, Prod.mk.injEq]
        rw [hr.2.2.1, if_neg hstat]
        exact ⟨rfl, hr.2.2.2⟩
      · intro hs p hp
        have hpt : p ≠ t := by
          rintro rfl
          exact hk ⟨p, rfl, hdel.idle, hstat, hp, hs⟩
        rw [hr.1, Function.update_of_ne hpt]
        exact ⟨h.stands.alive hs p hp, hdel.stk p hpt⟩

theorem write_sound {x : ℕ} {v : BitVec 32} (hen : (StatEvent.write x v).Enabled d) (h : d.Sound) :
    (d.setMem x v).Sound := by
  obtain ⟨l, hl⟩ := h.linked
  refine ⟨⟨l, hl.dlist, hl.head, hl.live, hl.apart⟩, ?_, ?_⟩
  · apply h.stacked.frame
    · intro t ht
      refine ⟨ht, rfl, ?_⟩
      intro b hb hw
      by_cases hx : b + taskPtrWord = x
      · simpa [StatSys.setMem, hx] using hen t ht b hb hx.symm
      · simpa [StatSys.setMem, hx] using hw
    · exact fun t ht => .inr ⟨ht, rfl⟩
  · exact h.stands.frame rfl fun hs p hp => ⟨h.stands.alive hs p hp, rfl⟩

theorem exec_sound (hen : e.Enabled d) (hk : ¬ Pulls d e) (h : d.Sound) (hx : e.exec d = some d') : d'.Sound := by
  obtain ⟨l, hl⟩ := h.linked
  cases e with
  | pass =>
    cases hx
    refine ⟨⟨l, hl.dlist, hl.head, hl.live, hl.apart⟩, ⟨h.stacked.exist, h.stacked.gone⟩, ?_⟩
    apply stands_of_not_scans <;> simp [StatSys.goto, StatPc.Scans, StatPc.InBody]
  | stat =>
    have hsame := statStep_same hx
    exact ⟨⟨l, hsame.linked hl⟩, hsame.stacked h.stacked, statStep_stands h.stacked h.stands hx⟩
  | createInit t a =>
    cases hx
    exact createInit_sound hen h
  | createLink t =>
    cases hx
    exact createLink_sound hen h
  | del t =>
    cases hx
    exact del_sound hen hk h
  | write x v =>
    cases hx
    exact write_sound hen h
  | swHook t n =>
    cases hx
    have hsame : d.Same (d.modTcb t fun c =>
        { c with cycles := { c.cycles with cyclesTotal := c.cycles.cyclesTotal + n } }) := by
      apply same_modTcb
      exact fun _ => rfl
    refine ⟨⟨l, hsame.linked hl⟩, hsame.stacked h.stacked, ?_⟩
    exact h.stands.frame rfl fun hs p hp => ⟨h.stands.alive hs p hp, hsame.stk p⟩

end pass

end UcosIII
