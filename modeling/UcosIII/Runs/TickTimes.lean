import UcosIII.Runs.TickWheel
import UcosIII.Lists.Returns

namespace UcosIII

open Prog

variable {n : ℕ} {cfg : Cfg} {s s' : OS} {V : ℕ → List TcbId} {t f : TcbId} {i k : ℕ}

section runs

def OnWheel (cfg : Cfg) (s : OS) (t : TcbId) : Prop := ∃ i < cfg.tickWheelSize, ∃ k, s.spokeAt i k = some t

inductive TickEvent where
  | inserted (t : TcbId) (d : ℕ)
  | removed (t : TcbId)
  | updated

inductive ClockOp where
  | insert (t : TcbId) (time : Tick) (opt : Opt)
  | remove (t : TcbId)
  | update
  | set (ticks : Tick)
deriving DecidableEq

def ClockOp.Fits (cfg : Cfg) (s : OS) : ClockOp → Prop
  | insert t time opt => Prog.Fits cfg (tickListInsert t time opt) s
  | remove t => Prog.Fits cfg (tickListRemove t) s
  | update => Prog.Fits cfg tickListUpdate s
  | set ticks => Prog.Fits cfg (osTimeSet ticks) s

/-- The sequences of insertions, removals and updates from an empty wheel on, the last first. Every operation
keeps to `P`, insertions may be refused, and anything may happen in between that leaves the wheel and the clock
alone. -/
inductive TickRun (c : Reading) (cfg : Cfg) (P : OS → ClockOp → Prop) : List TickEvent → OS → Prop
  | init {s : OS} (hw : ∀ i, (s.tickWheel i).firstPtr = none ∧ (s.tickWheel i).nbrEntries = 0)
      (ht : ∀ t, s.tickSpoke t = none) : TickRun c cfg P [] s
  | insert {h : List TickEvent} {s s' : OS} {t : TcbId} {time : Tick} {opt : Opt} (run : TickRun c cfg P h s)
      (hP : P s (.insert t time opt)) (hoff : ¬ OnWheel cfg s t)
      (hx : Prog.RunsIn c cfg (tickListInsert t time opt) s .none s') :
      TickRun c cfg P (.inserted t (tickDistance (s.tcb t) s.tickCtr time opt) :: h) s'
  | refuse {h : List TickEvent} {s s' : OS} {t : TcbId} {time : Tick} {opt : Opt} {e : Err} (run : TickRun c cfg P h s)
      (hP : P s (.insert t time opt)) (hoff : ¬ OnWheel cfg s t)
      (hx : Prog.RunsIn c cfg (tickListInsert t time opt) s e s') (he : e ≠ .none) : TickRun c cfg P h s'
  | remove {h : List TickEvent} {s s' : OS} {t : TcbId} (run : TickRun c cfg P h s) (hP : P s (.remove t))
      (hx : Prog.RunsIn c cfg (tickListRemove t) s () s') : TickRun c cfg P (.removed t :: h) s'
  | update {h : List TickEvent} {s s' : OS} (run : TickRun c cfg P h s) (hP : P s .update)
      (hst : ∀ t, OnWheel cfg s t → (s.tcb t).taskState.isTimed = true)
      (hx : Prog.RunsIn c cfg tickListUpdate s () s') : TickRun c cfg P (.updated :: h) s'
  | other {h : List TickEvent} {s s' : OS} (run : TickRun c cfg P h s) (hw : SameWheel s s')
      (hc : s'.tickCtr = s.tickCtr) : TickRun c cfg P h s'

def sinceInsert (t : TcbId) : List TickEvent → Option (ℕ × ℕ)
  | [] => none
  | .inserted t' d :: h => if t' = t then some (d, 0) else sinceInsert t h
  | .removed t' :: h => if t' = t then none else sinceInsert t h
  | .updated :: h => (sinceInsert t h).map fun x => (x.1, x.2 + 1)

/-- The tasks on the wheel are those whose ticks have not all come, and the spokes are in order. -/
structure OnTime (cfg : Cfg) (h : List TickEvent) (s : OS) : Prop where
  onWheel_iff : ∀ t, OnWheel cfg s t ↔ ∃ d k, sinceInsert t h = some (d, k) ∧ k < d
  sorted : ∀ i < cfg.tickWheelSize, ∀ j k x y, j < k → s.spokeAt i j = some x → s.spokeAt i k = some y →
    s.tickDue x - s.tickCtr ≤ s.tickDue y - s.tickCtr

def Counted (s : OS) (V : ℕ → List TcbId) (t : TcbId) : Option (ℕ × ℕ) → Prop
  | none => ∀ i, t ∉ V i
  | some (d, k) => if k < d then (∃ i, t ∈ V i) ∧ (s.tickDue t - s.tickCtr).toNat = d - k else ∀ i, t ∉ V i

structure TickInv (cfg : Cfg) (h : List TickEvent) (s : OS) (V : ℕ → List TcbId) : Prop where
  lists : WheelLists cfg s V
  sorted : Wheel.Sorted cfg.tickWheelSize s.tickCtr s.tickDue V
  ahead : Wheel.Ahead s.tickCtr s.tickDue V
  counted : ∀ t, Counted s V t (sinceInsert t h)

variable {h : List TickEvent}

theorem WheelLists.spokeAt_eq (hV : WheelLists cfg s V) (hi : i < cfg.tickWheelSize) (k : ℕ) : s.spokeAt i k = (V i)[k]? := by
  obtain ⟨tail, hl⟩ := hV.list i hi
  exact hl.chainAt_eq k

theorem WheelLists.onWheel (hV : WheelLists cfg s V) : OnWheel cfg s t ↔ ∃ i, t ∈ V i := by
  constructor
  · rintro ⟨i, hi, k, hk⟩
    rw [hV.spokeAt_eq hi] at hk
    exact ⟨i, List.mem_of_getElem? hk⟩
  · rintro ⟨i, ht⟩
    have hi := (hV.mem i t ht).1
    obtain ⟨k, hk⟩ := List.mem_iff_getElem?.mp ht
    exact ⟨i, hi, k, (hV.spokeAt_eq hi k).trans hk⟩

theorem counted_some {x : ℕ × ℕ} : Counted s V t (some x) ↔
    if x.2 < x.1 then (∃ i, t ∈ V i) ∧ (s.tickDue t - s.tickCtr).toNat = x.1 - x.2 else ∀ i, t ∉ V i := Iff.rfl

theorem Counted.congr {V' : ℕ → List TcbId} {r : Option (ℕ × ℕ)} (hc : Counted s V t r) (hctr : s'.tickCtr = s.tickCtr)
    (hdue : s'.tickDue t = s.tickDue t) (hmem : (∃ i, t ∈ V' i) ↔ ∃ i, t ∈ V i) : Counted s' V' t r := by
  have hout : (∀ i, t ∉ V i) → ∀ i, t ∉ V' i := fun ho i hi => (hmem.mp ⟨i, hi⟩).elim ho
  cases r with
  | none => exact hout hc
  | some x =>
    rw [counted_some] at hc ⊢
    split
    · rename_i hlt
      rw [if_pos hlt] at hc
      exact ⟨hmem.mpr hc.1, by rw [hctr, hdue]; exact hc.2⟩
    · rename_i hlt
      rw [if_neg hlt] at hc
      exact hout hc

theorem Counted.tick {V' : ℕ → List TcbId} {r : Option (ℕ × ℕ)} (hc : Counted s V t r) (ha : Wheel.Ahead s.tickCtr s.tickDue V)
    (hctr : s'.tickCtr = s.tickCtr + 1) (hdue : (∃ i, t ∈ V' i) → s'.tickDue t = s.tickDue t)
    (hmem : (∃ i, t ∈ V' i) ↔ (∃ i, t ∈ V i) ∧ s.tickDue t ≠ s.tickCtr + 1) :
    Counted s' V' t (r.map fun x => (x.1, x.2 + 1)) := by
  have hout (ho : ¬ ((∃ i, t ∈ V i) ∧ s.tickDue t ≠ s.tickCtr + 1)) : ∀ i, t ∉ V' i := fun i hi => ho (hmem.mp ⟨i, hi⟩)
  cases r with
  | none =>
    apply hout
    rintro ⟨⟨i, hi⟩, -⟩
    exact hc i hi
  | some x =>
    obtain ⟨d, k⟩ := x
    rw [Option.map_some, counted_some]
    rw [counted_some] at hc
    dsimp only at hc ⊢
    by_cases hlt : k < d
    · rw [if_pos hlt] at hc
      obtain ⟨⟨i, hi⟩, hleft⟩ := hc
      have hsucc := Wheel.left_succ (ha i t hi)
      have hzero : (s.tickDue t - (s.tickCtr + 1)).toNat = 0 ↔ s.tickDue t = s.tickCtr + 1 := Wheel.left_eq_zero
      by_cases hlt' : k + 1 < d
      · rw [if_pos hlt']
        have hV' : ∃ i, t ∈ V' i := hmem.mpr ⟨⟨i, hi⟩, fun h0 => by rw [← hzero] at h0; omega⟩
        refine ⟨hV', ?_⟩
        rw [hdue hV', hctr]
        omega
      · rw [if_neg hlt']
        apply hout
        rintro ⟨-, hne⟩
        apply hne
        rw [← hzero]
        omega
    · rw [if_neg hlt] at hc
      rw [if_neg (by omega)]
      apply hout
      rintro ⟨⟨i, hi⟩, -⟩
      exact hc i hi

theorem tickInv_of_run {P : OS → ClockOp → Prop} (run : TickRun .nat cfg P h s) : ∃ V, TickInv cfg h s V := by
  induction run with
  | init hw ht =>
    refine ⟨fun _ => [], ⟨fun i _ => ⟨none, .nil, (hw i).1, rfl, (hw i).2⟩, by simp, fun x _ => ht x⟩, ⟨by simp, by simp⟩,
      fun i x hx => by simp at hx, fun t i => by simp⟩
  | @insert h s s' t time opt run hP hoff hx ih =>
    obtain ⟨V, hI⟩ := ih
    have ht : ∀ i, t ∉ V i := fun i hi => hoff (hI.lists.onWheel.mpr ⟨i, hi⟩)
    have hspec := hx.wp fun n => tickListInsert_added hI.lists hI.sorted hI.ahead ht time opt
    rw [if_pos rfl] at hspec
    obtain ⟨V', hadd⟩ := hspec
    refine ⟨V', hadd.lists, hadd.sorted, hadd.ahead, fun x => ?_⟩
    rw [sinceInsert]
    split
    · rename_i htx
      subst htx
      have hmem : ∃ i, t ∈ V' i := (hadd.mem t).mpr (.inl rfl)
      obtain ⟨i, hi⟩ := hmem
      have hne := mt Wheel.left_eq_zero.mp (hadd.ahead i t hi)
      rw [hadd.left] at hne
      refine (if_pos (Nat.pos_of_ne_zero hne)).mpr ?_
      exact ⟨⟨i, hi⟩, hadd.left⟩
    · rename_i htx
      have hxt : x ≠ t := fun h => htx h.symm
      apply (hI.counted x).congr hadd.ctr (hadd.others x hxt)
      rw [hadd.mem]
      simp [hxt]
  | @refuse h s s' t time opt e run hP hoff hx he ih =>
    obtain ⟨V, hI⟩ := ih
    have ht : ∀ i, t ∉ V i := fun i hi => hoff (hI.lists.onWheel.mpr ⟨i, hi⟩)
    have hspec := hx.wp fun n => tickListInsert_added hI.lists hI.sorted hI.ahead ht time opt
    rw [if_neg he] at hspec
    obtain ⟨hlists, hctr, hdue⟩ := hspec
    have hdue' : ∀ i, ∀ x ∈ V i, s'.tickDue x = s.tickDue x := by
      intro i x hi
      apply hdue
      rintro rfl
      exact ht i hi
    refine ⟨V, hlists, ?_, ?_, fun x => ?_⟩
    · rw [hctr]
      exact hI.sorted.congr hdue'
    · rw [hctr]
      exact hI.ahead.congr hdue'
    · have hc := hI.counted x
      by_cases hxt : x = t
      · subst hxt
        cases hr : sinceInsert x h with
        | none => exact ht
        | some y =>
          rw [hr, counted_some] at hc
          rw [counted_some]
          split
          · rename_i hlt
            rw [if_pos hlt] at hc
            exact hc.1.elim fun i hi => absurd hi (ht i)
          · exact ht
      · exact hc.congr hctr (hdue x hxt) Iff.rfl
  | @remove h s s' t run hP hx ih =>
    obtain ⟨V, hI⟩ := ih
    obtain ⟨hlists, ho⟩ := hx.wp fun n => (tickListRemove_lists hI.lists).and (keeps_others_tickListRemove n cfg s)
    have hctr : s'.tickCtr = s.tickCtr := congrArg Prod.fst ho
    have hdue : ∀ x ≠ t, s'.tickDue x = s.tickDue x := by
      intro x hxt
      have hx₂ := congrFun (congrArg Prod.snd ho) x
      simp only [OS.tickOthers, if_neg hxt, Option.some.injEq, Prod.mk.injEq] at hx₂
      exact hx₂.2
    have hmem : ∀ i x, x ∈ (V i).erase t ↔ x ≠ t ∧ x ∈ V i := fun i x => (hI.lists.nodup i).mem_erase_iff
    have hdue' : ∀ i, ∀ x ∈ (V i).erase t, s'.tickDue x = s.tickDue x := fun i x hx => hdue x ((hmem i x).mp hx).1
    refine ⟨_, hlists, ?_, ?_, fun x => ?_⟩
    · rw [hctr]
      exact hI.sorted.sub (fun i => List.erase_sublist) hdue'
    · rw [hctr]
      exact hI.ahead.sub (fun i => List.erase_sublist) hdue'
    · rw [sinceInsert]
      split
      · rename_i htx
        intro i hi
        exact ((hmem i x).mp hi).1 htx.symm
      · rename_i htx
        have hxt : x ≠ t := fun h => htx h.symm
        apply (hI.counted x).congr hctr (hdue x hxt)
        simp [hmem, hxt]
  | @update h s s' run hP hst hx ih =>
    obtain ⟨V, hI⟩ := ih
    have hst' : ∀ i, ∀ t ∈ V i, (s.tcb t).taskState.isTimed = true := fun i t ht => hst t (hI.lists.onWheel.mpr ⟨i, ht⟩)
    obtain ⟨hctr, V', hlists, hsorted, hahead, hmem, hdue, -⟩ :=
      hx.wp fun n => tickListUpdate_spec hI.lists hI.sorted hI.ahead hst'
    refine ⟨V', hlists, hsorted, hahead, fun x => ?_⟩
    apply (hI.counted x).tick hI.ahead hctr
    · rintro ⟨i, hi⟩
      exact hdue i x hi
    · simp only [hmem, exists_and_right]
  | @other h s s' run hw hc ih =>
    obtain ⟨V, hI⟩ := ih
    refine ⟨V, hI.lists.congr hw, ?_, ?_, fun x => (hI.counted x).congr hc (hw.due x) Iff.rfl⟩
    · rw [hc]
      exact hI.sorted.congr fun _ x _ => hw.due x
    · rw [hc]
      exact hI.ahead.congr fun _ x _ => hw.due x

theorem TickInv.onTime (hI : TickInv cfg h s V) : OnTime cfg h s := by
  refine ⟨fun t => ?_, fun i hi j k x y hjk hx hy => ?_⟩
  · rw [hI.lists.onWheel]
    have hc := hI.counted t
    unfold Counted at hc
    split at hc
    · rename_i hn
      rw [hn]
      simp only [reduceCtorEq, false_and, exists_false, iff_false, not_exists]
      exact hc
    · rename_i d k hs
      rw [hs]
      split at hc
      · rename_i hlt
        exact iff_of_true hc.1 ⟨d, k, rfl, hlt⟩
      · rename_i hlt
        apply iff_of_false
        · rintro ⟨i, hi⟩
          exact hc i hi
        · rintro ⟨d', k', heq, hlt'⟩
          cases heq
          exact hlt hlt'
  · rw [hI.lists.spokeAt_eq hi] at hx hy
    obtain ⟨hj, rfl⟩ := List.getElem?_eq_some_iff.mp hx
    obtain ⟨hk, rfl⟩ := List.getElem?_eq_some_iff.mp hy
    exact List.pairwise_iff_getElem.mp (hI.sorted.sorted i) j k hj hk hjk

theorem TickRun.fits {c : Reading} (run : TickRun c cfg (ClockOp.Fits cfg) h s) (c' : Reading) :
    TickRun c' cfg (ClockOp.Fits cfg) h s := by
  induction run with
  | init hw ht => exact .init hw ht
  | insert _ hP hoff hx ih => exact .insert ih hP hoff (hx.fits hP c')
  | refuse _ hP hoff hx he ih => exact .refuse ih hP hoff (hx.fits hP c') he
  | remove _ hP hx ih => exact .remove ih hP (hx.fits hP c')
  | update _ hP hst hx ih => exact .update ih hP hst (hx.fits hP c')
  | other _ hw hc ih => exact .other ih hw hc

theorem TickRun.mono {c : Reading} {P P' : OS → ClockOp → Prop} (run : TickRun c cfg P h s)
    (hP : ∀ s op, P s op → P' s op) : TickRun c cfg P' h s := by
  induction run with
  | init hw ht => exact .init hw ht
  | insert _ h' hoff hx ih => exact .insert ih (hP _ _ h') hoff hx
  | refuse _ h' hoff hx he ih => exact .refuse ih (hP _ _ h') hoff hx he
  | remove _ h' hx ih => exact .remove ih (hP _ _ h') hx
  | update _ h' hst hx ih => exact .update ih (hP _ _ h') hst hx
  | other _ hw hc ih => exact .other ih hw hc

theorem TickRun.onTime {P : OS → ClockOp → Prop} (run : TickRun .nat cfg P h s) : OnTime cfg h s := by
  obtain ⟨V, hI⟩ := tickInv_of_run run
  exact hI.onTime

theorem tickRun_onTime (run : TickRun .word cfg (ClockOp.Fits cfg) h s) : OnTime cfg h s :=
  (run.fits .nat).onTime

def OS.lateBoot : OS :=
  { OS.boot Cfg.repository with
    tickCtr := 0xFFFFFFFF, tcb := fun _ => { TCB.dormant Cfg.repository with taskState := .dly, prio := 8 } }

/-- A delay of two ticks from just before the clock wraps around is over after two updates. -/
theorem tickRun_onTime_wrap : ∃ s₁ s₂ s₃,
    TickRun .word Cfg.repository (ClockOp.Fits Cfg.repository) [.inserted 4 2] s₁ ∧ OnTime Cfg.repository [.inserted 4 2] s₁ ∧
    TickRun .word Cfg.repository (ClockOp.Fits Cfg.repository) [.updated, .inserted 4 2] s₂ ∧ OnWheel Cfg.repository s₂ 4 ∧
    TickRun .word Cfg.repository (ClockOp.Fits Cfg.repository) [.updated, .updated, .inserted 4 2] s₃ ∧
    ¬ OnWheel Cfg.repository s₃ 4 := by
  have hplay : ((((tickListInsert 4 2 optTimeDly).checked 9 Cfg.repository OS.lateBoot).join.bind fun x =>
      (tickListUpdate.checked 9 Cfg.repository x.2).join.bind fun y =>
      (tickListUpdate.checked 9 Cfg.repository y.2).join.bind fun z => some (x, y, z)).any fun r =>
        r.1.1 = .none ∧ (r.1.2.tcb 4).taskState = .dly ∧ (r.2.1.2.tcb 4).taskState = .dly) = true := by
    decide +kernel
  obtain ⟨⟨⟨e, s₁⟩, ⟨⟨⟩, s₂⟩, ⟨⟨⟩, s₃⟩⟩, hb, hQ⟩ := (Option.any_eq_true _ _).mp hplay
  obtain ⟨x, hx, hb⟩ := Option.bind_eq_some_iff.mp hb
  obtain ⟨y, hy, hb⟩ := Option.bind_eq_some_iff.mp hb
  obtain ⟨z, hz, hb⟩ := Option.bind_eq_some_iff.mp hb
  cases hb
  rw [Option.join_eq_some_iff] at hx hy hz
  obtain ⟨he, h₁, h₂⟩ := of_decide_eq_true hQ
  dsimp only at he h₁ h₂
  subst he
  have run₀ : TickRun .word Cfg.repository (ClockOp.Fits Cfg.repository) [] OS.lateBoot :=
    .init (fun _ => ⟨rfl, rfl⟩) fun _ => rfl
  have hoff : ¬ OnWheel Cfg.repository OS.lateBoot 4 := by
    rw [(tickRun_onTime run₀).onWheel_iff]
    simp [sinceInsert]
  have run₁ : TickRun .word Cfg.repository (ClockOp.Fits Cfg.repository) [.inserted 4 2] s₁ :=
    .insert run₀ (fits_of_checked hx) hoff (runsIn_of_checked hx .word)
  have hst₁ : ∀ t, OnWheel Cfg.repository s₁ t → (s₁.tcb t).taskState.isTimed = true := by
    intro t ht
    obtain ⟨d, k, hs, -⟩ := ((tickRun_onTime run₁).onWheel_iff t).mp ht
    have h4 : 4 = t := by
      by_contra hne
      simp [sinceInsert, hne] at hs
    rw [← h4, h₁]
    rfl
  have run₂ : TickRun .word Cfg.repository (ClockOp.Fits Cfg.repository) [.updated, .inserted 4 2] s₂ :=
    .update run₁ (fits_of_checked hy) hst₁ (runsIn_of_checked hy .word)
  have hst₂ : ∀ t, OnWheel Cfg.repository s₂ t → (s₂.tcb t).taskState.isTimed = true := by
    intro t ht
    obtain ⟨d, k, hs, -⟩ := ((tickRun_onTime run₂).onWheel_iff t).mp ht
    have h4 : 4 = t := by
      by_contra hne
      simp [sinceInsert, hne] at hs
    rw [← h4, h₂]
    rfl
  have run₃ : TickRun .word Cfg.repository (ClockOp.Fits Cfg.repository) [.updated, .updated, .inserted 4 2] s₃ :=
    .update run₂ (fits_of_checked hz) hst₂ (runsIn_of_checked hz .word)
  refine ⟨s₁, s₂, s₃, run₁, tickRun_onTime run₁, run₂, ?_, run₃, ?_⟩
  · rw [(tickRun_onTime run₂).onWheel_iff]
    exact ⟨2, 1, rfl, by decide⟩
  · rw [(tickRun_onTime run₃).onWheel_iff]
    rintro ⟨d, k, hs, hlt⟩
    cases hs
    exact absurd hlt (by decide)

end runs

section crowd

theorem tickListInsert_alone (hctr : s.tickCtr = 0) (hnbr : (s.tickWheel 2).nbrEntries = 0) :
    twp ⟨.word, 1⟩ Cfg.repository (tickListInsert t 2 optTimeDly) (fun e s' => e = .none ∧ s'.tickCtr = 0 ∧
      s'.tickNext t = none ∧ s'.tickPrev t = none ∧ s'.tickDue t = 2 ∧ (s'.tickWheel 2).firstPtr = some t ∧
      (s'.tickWheel 2).nbrEntries = 1 ∧ (s'.tcb t).taskState = (s.tcb t).taskState ∧
      ∀ i, i ≠ 2 → s'.tickWheel i = s.tickWheel i) s := by
  have hmatch (c : TCB) : tickMatch c 0 2 optTimeDly = some { c with tickCtrMatch := 2, tickRemain := 2 } := rfl
  have hspoke : 2 % Cfg.repository.tickWheelSize = 2 := rfl
  rw [tickListInsert, twp_bind, twp_getTcb, twp_bind, twp_get, hctr, hmatch]
  dsimp only
  rw [twp_bind, twp_modTcb]
  generalize hs₁ : (s.modTcb t fun _ => { s.tcb t with tickCtrMatch := 2, tickRemain := 2 }) = s₁
  have hc : s₁.tickCtr = 0 := by rw [← hs₁]; exact hctr
  have hw : s₁.tickWheel = s.tickWheel := by rw [← hs₁]; rfl
  have ht : s₁.tcb t = { s.tcb t with tickCtrMatch := 2, tickRemain := 2 } := by
    rw [← hs₁, OS.modTcb_tcb, if_pos rfl]
  simp only [tickListLink, twp_bind, twp_getTcb, twp_ask, twp_getSpoke, ht]
  simp [hspoke, hw, hnbr]
  refine ⟨hc, ?_, ?_, ?_, ?_, ?_, ?_, ?_⟩
  · simp [OS.tickNext, OS.modTcb, OS.modSpoke]
  · simp [OS.tickPrev, OS.modTcb, OS.modSpoke]
  · simp [OS.tickDue, OS.modTcb, OS.modSpoke, ht]
  · simp [OS.modTcb, OS.modSpoke]
  · simp [OS.modTcb, OS.modSpoke]
  · simp [OS.modTcb, OS.modSpoke, ht]
  · intro i hi
    simp [OS.modTcb, OS.modSpoke, hi, hw]

theorem tickListInsert_first (hctr : s.tickCtr = 0) (hf : (s.tickWheel 2).firstPtr = some f) (htf : f ≠ t)
    (hnbr : (s.tickWheel 2).nbrEntries ≠ 0) (hdue : s.tickDue f = 2) (hprev : s.tickPrev f = none) :
    twp ⟨.word, 1⟩ Cfg.repository (tickListInsert t 2 optTimeDly) (fun e s' => e = .none ∧ s'.tickCtr = 0 ∧
      s'.tickNext = Function.update s.tickNext t (some f) ∧ s'.tickPrev t = none ∧ s'.tickDue t = 2 ∧
      (s'.tickWheel 2).firstPtr = some t ∧ (s'.tickWheel 2).nbrEntries = ((s.tickWheel 2).nbrEntries + 1) % 65536 ∧
      ∀ i, i ≠ 2 → s'.tickWheel i = s.tickWheel i) s := by
  have hmatch (c : TCB) : tickMatch c 0 2 optTimeDly = some { c with tickCtrMatch := 2, tickRemain := 2 } := rfl
  have hspoke : 2 % Cfg.repository.tickWheelSize = 2 := rfl
  rw [OS.tickDue] at hdue
  rw [OS.tickPrev] at hprev
  rw [tickListInsert, twp_bind, twp_getTcb, twp_bind, twp_get, hctr, hmatch]
  dsimp only
  rw [twp_bind, twp_modTcb]
  generalize hs₁ : (s.modTcb t fun _ => { s.tcb t with tickCtrMatch := 2, tickRemain := 2 }) = s₁
  have hc : s₁.tickCtr = 0 := by rw [← hs₁]; exact hctr
  have hw : s₁.tickWheel = s.tickWheel := by rw [← hs₁]; rfl
  have ht : s₁.tcb t = { s.tcb t with tickCtrMatch := 2, tickRemain := 2 } := by
    rw [← hs₁, OS.modTcb_tcb, if_pos rfl]
  have hx (x : TcbId) (hx : x ≠ t) : s₁.tcb x = s.tcb x := by rw [← hs₁, OS.modTcb_tcb, if_neg hx]
  simp only [tickListLink, twp_bind, twp_getTcb, twp_ask, twp_getSpoke, ht]
  simp [hspoke, hw, hnbr, hf]
  refine twp_loop_first ?_
  simp [tickListWalk, incSpoke, objQtyInc, OS.modTcb_tcb, htf.symm, ht, hc, hx f htf, hdue, hprev,
    OS.modSpoke_tickWheel]
  refine ⟨hc, ?_, ?_, ?_, ?_, ?_, ?_⟩
  · funext x
    by_cases hxt : x = t
    · simp [OS.tickNext, OS.modTcb, OS.modSpoke, hxt, htf.symm]
    · by_cases hxf : x = f <;> simp [OS.tickNext, OS.modTcb, OS.modSpoke, hxt, hxf, htf, hx]
  · simp [OS.tickPrev, OS.modTcb, OS.modSpoke, htf.symm]
  · simp [OS.tickDue, OS.modTcb, OS.modSpoke, htf.symm, ht]
  · simp [OS.modTcb, OS.modSpoke]
  · simp [OS.modTcb, OS.modSpoke, hw]
  · intro i hi
    simp [OS.modTcb, OS.modSpoke, hi, hw]

/-- The second spoke has the tasks from 10 on, the last one first, which wait for tick 2, and its counter has the lower
16 bits of their number. No other task waits. -/
structure SpokeCrowd (k : ℕ) (s : OS) : Prop where
  ctr : s.tickCtr = 0
  first : (s.tickWheel 2).firstPtr = some (9 + k)
  prev : s.tickPrev (9 + k) = none
  due : s.tickDue (9 + k) = 2
  nbr : (s.tickWheel 2).nbrEntries = k % 65536
  known : ∀ j x, s.spokeAt 2 j = some x → x < 10 + k
  others : ∀ i < Cfg.repository.tickWheelSize, i ≠ 2 → (s.tickWheel i).firstPtr = none

theorem onWheel_second (h : ∀ i < Cfg.repository.tickWheelSize, i ≠ 2 → (s.tickWheel i).firstPtr = none) :
    OnWheel Cfg.repository s t ↔ ∃ j, s.spokeAt 2 j = some t := by
  constructor
  · rintro ⟨i, hi, j, hj⟩
    by_cases hi2 : i = 2
    · exact ⟨j, hi2 ▸ hj⟩
    · rw [OS.spokeAt, h i hi hi2, chainAt_null] at hj
      cases hj
  · rintro ⟨j, hj⟩
    exact ⟨2, by decide, j, hj⟩

theorem SpokeCrowd.off (h : SpokeCrowd k s) : ¬ OnWheel Cfg.repository s (10 + k) := by
  rw [onWheel_second h.others]
  rintro ⟨j, hj⟩
  exact Nat.lt_irrefl _ (h.known j _ hj)

theorem spokeAt_alone (hf : (s.tickWheel i).firstPtr = some t) (hn : s.tickNext t = none) {j : ℕ} {x : TcbId}
    (hx : s.spokeAt i j = some x) : x = t := by
  rw [OS.spokeAt, hf] at hx
  cases j with
  | zero => exact (Option.some_inj.mp hx).symm
  | succ j =>
    rw [chainAt_cons, hn, chainAt_null] at hx
    cases hx

theorem SpokeCrowd.one (hctr : s.tickCtr = 0) (hf : (s.tickWheel 2).firstPtr = some 10) (hn : s.tickNext 10 = none)
    (hp : s.tickPrev 10 = none) (hd : s.tickDue 10 = 2) (hk : (s.tickWheel 2).nbrEntries = 1)
    (ho : ∀ i < Cfg.repository.tickWheelSize, i ≠ 2 → (s.tickWheel i).firstPtr = none) : SpokeCrowd 1 s := by
  refine ⟨hctr, hf, hp, hd, hk, fun j x hx => ?_, ho⟩
  rw [spokeAt_alone hf hn hx]
  decide

theorem SpokeCrowd.congr (h : SpokeCrowd k s) (hw : SameWheel s s') (hc : s'.tickCtr = s.tickCtr) : SpokeCrowd k s' := by
  have hat (j : ℕ) : s'.spokeAt 2 j = s.spokeAt 2 j := by
    rw [OS.spokeAt, hw.wheel, OS.spokeAt, show s'.tickNext = s.tickNext from funext hw.next]
  exact ⟨hc.trans h.ctr, (congrArg TickSpoke.firstPtr (hw.wheel 2)).trans h.first, (hw.prev _).trans h.prev,
    (hw.due _).trans h.due, (congrArg TickSpoke.nbrEntries (hw.wheel 2)).trans h.nbr,
    fun j x hx => h.known j x ((hat j).symm.trans hx),
    fun i hi hi2 => (congrArg TickSpoke.firstPtr (hw.wheel i)).trans (h.others i hi hi2)⟩

theorem SpokeCrowd.insert (h : SpokeCrowd k s) (hk : 0 < k) (hk' : k < 65536) :
    ∃ s', RunsIn .word Cfg.repository (tickListInsert (10 + k) 2 optTimeDly) s .none s' ∧ SpokeCrowd (k + 1) s' := by
  have hnbr : (s.tickWheel 2).nbrEntries ≠ 0 := by
    rw [h.nbr, Nat.mod_eq_of_lt hk']
    exact hk.ne'
  have hne : (9 + k : ℕ) ≠ 10 + k := by omega
  obtain ⟨_, s', hx, rfl, hctr, hnext, hprev, hdue, hfirst, hcount, hothers⟩ :=
    tickListInsert_first (t := 10 + k) h.ctr h.first hne hnbr h.due h.prev
  have hend : 9 + (k + 1) = 10 + k := by omega
  refine ⟨s', ⟨1, hx⟩, hctr, ?_, ?_, ?_, ?_, fun j x hj => ?_, fun i hi hi2 => ?_⟩
  · rw [hend, hfirst]
  · rw [hend, hprev]
  · rw [hend, hdue]
  · rw [hcount, h.nbr]
    omega
  · rw [OS.spokeAt, hfirst] at hj
    cases j with
    | zero => exact Option.some_inj.mp hj ▸ Nat.lt_succ_self (10 + k)
    | succ j =>
      -- the rest of the spoke is linked as before
      rw [chainAt_cons, hnext, Function.update_self, ← h.first] at hj
      rw [chainAt_congr fun i y hy => ?_] at hj
      · exact (h.known j x hj).trans (Nat.lt_succ_self _)
      · exact Function.update_of_ne (h.known i y hy).ne _ _
  · rw [hothers i hi2]
    exact h.others i hi hi2

theorem SpokeCrowd.overflow (h : SpokeCrowd 65536 s) : ∃ s', RunsIn .word Cfg.repository
    (tickListInsert 65546 2 optTimeDly) s .none s' ∧ s'.tickCtr = 0 ∧
    (s'.tcb 65546).taskState = (s.tcb 65546).taskState ∧ (s'.tickWheel 1).firstPtr = none ∧
    ∀ x, OnWheel Cfg.repository s' x → x = 65546 := by
  obtain ⟨_, s', hx, rfl, hctr, hnext, -, -, hfirst, -, hst, hothers⟩ := tickListInsert_alone (t := 65546) h.ctr h.nbr
  have ho (i : ℕ) (hi : i < Cfg.repository.tickWheelSize) (hi2 : i ≠ 2) : (s'.tickWheel i).firstPtr = none := by
    rw [hothers i hi2]
    exact h.others i hi hi2
  refine ⟨s', ⟨1, hx⟩, hctr, hst, ho 1 (by decide) (by decide), fun x hx => ?_⟩
  obtain ⟨j, hj⟩ := (onWheel_second ho).mp hx
  exact spokeAt_alone hfirst hnext hj

def crowdInserts : ℕ → List TickEvent
  | 0 => []
  | k + 1 => .inserted (10 + k) 2 :: crowdInserts k

theorem sinceInsert_crowd (k : ℕ) : sinceInsert 10 (crowdInserts (k + 1)) = some (2, 0) := by
  induction k with
  | zero => rfl
  | succ k ih => rw [crowdInserts, sinceInsert, if_neg (Nat.ne_of_gt (by omega : 10 < 10 + (k + 1))), ih]

theorem tickDistance_two {c : TCB} (hctr : s.tickCtr = 0) : tickDistance c s.tickCtr 2 optTimeDly = 2 := by
  rw [hctr]
  rfl

theorem tickRun_crowd {P : OS → ClockOp → Prop} (hP : ∀ s op, P s op) (hk : k < 65536) :
    ∃ s, TickRun .word Cfg.repository P (crowdInserts (k + 1)) s ∧ SpokeCrowd (k + 1) s := by
  induction k with
  | zero =>
    let s₀ : OS := { OS.lateBoot with tickCtr := 0 }
    have run : TickRun .word Cfg.repository P [] s₀ := .init (fun _ => ⟨rfl, rfl⟩) fun _ => rfl
    have hoff : ¬ OnWheel Cfg.repository s₀ 10 := by
      rintro ⟨i, -, j, hj⟩
      rw [OS.spokeAt, show (s₀.tickWheel i).firstPtr = none from rfl, chainAt_null] at hj
      cases hj
    obtain ⟨_, s, hx, rfl, hctr, hnext, hprev, hdue, hfirst, hnbr, -, hothers⟩ :=
      tickListInsert_alone (t := 10) (show s₀.tickCtr = 0 from rfl) rfl
    refine ⟨s, .insert run (hP _ _) hoff ⟨1, hx⟩, .one hctr hfirst hnext hprev hdue hnbr fun i _ hi => ?_⟩
    rw [hothers i hi]
    rfl
  | succ k ih =>
    obtain ⟨s, run, h⟩ := ih (by omega)
    obtain ⟨s', hx, h'⟩ := h.insert (by omega) hk
    have hrun := run.insert (hP _ _) h.off hx
    rw [tickDistance_two h.ctr] at hrun
    exact ⟨s', hrun, h'⟩

/-- 65536 tasks are too many for the counter of a spoke: when the next one comes, the others are lost and never
expire. -/
theorem tickRun_onTime_overflow :
    ∃ h s, TickRun .word Cfg.repository (fun _ _ => True) h s ∧ ¬ OnTime Cfg.repository h s := by
  obtain ⟨s, run, hs⟩ := tickRun_crowd (k := 65535) (P := fun _ _ => True) (fun _ _ => trivial) (by decide)
  obtain ⟨s', hx, -, -, -, honly⟩ := hs.overflow
  refine ⟨_, s', run.insert trivial hs.off hx, fun hok => ?_⟩
  have hon : OnWheel Cfg.repository s' 10 := by
    rw [hok.onWheel_iff]
    refine ⟨2, 0, ?_, by decide⟩
    rw [sinceInsert, if_neg (by decide)]
    exact sinceInsert_crowd 65535
  exact absurd (honly 10 hon) (by decide)

end crowd

end UcosIII
