import UcosIII.Runs.TickTimes

namespace UcosIII

open Prog

variable {cfg : Cfg} {s s' : OS} {V : ℕ → List TcbId} {t : TcbId} {i : ℕ}

/-- What has been done: the tick that an inserted task waits for is noted, and the states before and after an
update. -/
inductive ClockEvent where
  | inserted (t : TcbId) (tick : Tick)
  | removed (t : TcbId)
  | updated (pre post : OS)
  | set (ticks : Tick)

/-- The sequences of insertions, removals, updates and settings of the clock from an empty wheel on, the last
first. Every operation keeps to `P`, and anything may happen in between that leaves the wheel and the clock alone. -/
inductive ClockRun (c : Reading) (cfg : Cfg) (P : OS → ClockOp → Prop) : List ClockEvent → OS → Prop
  | init {s : OS} (hw : ∀ i, (s.tickWheel i).firstPtr = none ∧ (s.tickWheel i).nbrEntries = 0)
      (ht : ∀ t, s.tickSpoke t = none) : ClockRun c cfg P [] s
  | insert {h : List ClockEvent} {s s' : OS} {t : TcbId} {time : Tick} {opt : Opt} (run : ClockRun c cfg P h s)
      (hP : P s (.insert t time opt)) (hoff : ¬ OnWheel cfg s t)
      (hx : Prog.RunsIn c cfg (tickListInsert t time opt) s .none s') :
      ClockRun c cfg P
        (.inserted t (s.tickCtr + BitVec.ofNat 32 (tickDistance (s.tcb t) s.tickCtr time opt)) :: h) s'
  | refuse {h : List ClockEvent} {s s' : OS} {t : TcbId} {time : Tick} {opt : Opt} {e : Err} (run : ClockRun c cfg P h s)
      (hP : P s (.insert t time opt)) (hoff : ¬ OnWheel cfg s t)
      (hx : Prog.RunsIn c cfg (tickListInsert t time opt) s e s') (he : e ≠ .none) : ClockRun c cfg P h s'
  | remove {h : List ClockEvent} {s s' : OS} {t : TcbId} (run : ClockRun c cfg P h s) (hP : P s (.remove t))
      (hx : Prog.RunsIn c cfg (tickListRemove t) s () s') : ClockRun c cfg P (.removed t :: h) s'
  | update {h : List ClockEvent} {s s' : OS} (run : ClockRun c cfg P h s) (hP : P s .update)
      (hx : Prog.RunsIn c cfg tickListUpdate s () s') : ClockRun c cfg P (.updated s s' :: h) s'
  | set {h : List ClockEvent} {s s' : OS} {ticks : Tick} (run : ClockRun c cfg P h s) (hP : P s (.set ticks))
      (hx : Prog.RunsIn c cfg (osTimeSet ticks) s .none s') : ClockRun c cfg P (.set ticks :: h) s'
  | other {h : List ClockEvent} {s s' : OS} (run : ClockRun c cfg P h s) (hw : SameWheel s s')
      (hc : s'.tickCtr = s.tickCtr) : ClockRun c cfg P h s'

/-- The tick that the task waits for: the one it was last inserted for, until an update comes to that tick or
the task is removed. -/
def awaited (t : TcbId) : List ClockEvent → Option Tick
  | [] => none
  | .inserted t' tick :: h => if t' = t then some tick else awaited t h
  | .removed t' :: h => if t' = t then none else awaited t h
  | .updated _ post :: h => (awaited t h).filter fun tick => tick ≠ post.tickCtr
  | .set _ :: h => awaited t h

def Readied : List ClockEvent → Prop
  | [] => True
  | .updated pre post :: h =>
    (∀ t, awaited t h = some post.tickCtr → (post.tcb t).taskState = (pre.tcb t).taskState.expired) ∧ Readied h
  | _ :: h => Readied h

/-- The tasks on the wheel are those whose tick has not come yet, and none of the others was forgotten. -/
structure OnClock (cfg : Cfg) (h : List ClockEvent) (s : OS) : Prop where
  onWheel_iff : ∀ t, OnWheel cfg s t ↔ awaited t h ≠ none
  due : ∀ t tick, awaited t h = some tick → s.tickDue t = tick
  readied : Readied h

/-- The clock may be set to `ticks`: no task on the wheel waits for that very tick, and the tasks on every spoke
are in the order of the times left from there. -/
def SetInOrder (cfg : Cfg) (s : OS) (ticks : Tick) : Prop :=
  (∀ t, OnWheel cfg s t → s.tickDue t ≠ ticks) ∧
  ∀ i < cfg.tickWheelSize, ∀ j k x y, j < k → s.spokeAt i j = some x → s.spokeAt i k = some y →
    s.tickDue x - ticks ≤ s.tickDue y - ticks

def TimedOnly (cfg : Cfg) (s : OS) : Prop := ∀ t, OnWheel cfg s t → (s.tcb t).taskState.isTimed = true

def ClockOp.Harmless (cfg : Cfg) (s : OS) : ClockOp → Prop
  | update => TimedOnly cfg s
  | set ticks => SetInOrder cfg s ticks
  | _ => True

structure ClockInv (cfg : Cfg) (h : List ClockEvent) (s : OS) (V : ℕ → List TcbId) : Prop where
  lists : WheelLists cfg s V
  sorted : Wheel.Sorted cfg.tickWheelSize s.tickCtr s.tickDue V
  ahead : Wheel.Ahead s.tickCtr s.tickDue V
  waits : ∀ t tick, awaited t h = some tick ↔ (∃ i, t ∈ V i) ∧ s.tickDue t = tick
  readied : Readied h

theorem WheelLists.sorted_of_set {ticks : Tick} (hV : WheelLists cfg s V)
    (hash : ∀ i, ∀ x ∈ V i, (s.tickDue x).toNat % cfg.tickWheelSize = i) (hset : SetInOrder cfg s ticks) :
    Wheel.Sorted cfg.tickWheelSize ticks s.tickDue V ∧ Wheel.Ahead ticks s.tickDue V := by
  refine ⟨⟨hash, fun i => ?_⟩, fun i x hx => hset.1 x (hV.onWheel.mpr ⟨i, hx⟩)⟩
  rw [List.pairwise_iff_getElem]
  intro j k hj hk hjk
  have hi : i < cfg.tickWheelSize := (hV.mem i _ (List.getElem_mem hj)).1
  apply hset.2 i hi j k _ _ hjk
  · rw [hV.spokeAt_eq hi, List.getElem?_eq_getElem hj]
  · rw [hV.spokeAt_eq hi, List.getElem?_eq_getElem hk]

variable {h : List ClockEvent}

theorem waits_congr {V' : ℕ → List TcbId} (hw : ∀ tick, awaited t h = some tick ↔ (∃ i, t ∈ V i) ∧ s.tickDue t = tick)
    (hmem : (∃ i, t ∈ V' i) ↔ ∃ i, t ∈ V i) (hdue : (∃ i, t ∈ V i) → s'.tickDue t = s.tickDue t) (tick : Tick) :
    awaited t h = some tick ↔ (∃ i, t ∈ V' i) ∧ s'.tickDue t = tick := by
  rw [hw, hmem]
  constructor
  · rintro ⟨hV, ht⟩
    exact ⟨hV, (hdue hV).trans ht⟩
  · rintro ⟨hV, ht⟩
    exact ⟨hV, (hdue hV).symm.trans ht⟩

theorem clockInv_of_run (run : ClockRun .nat cfg (ClockOp.Harmless cfg) h s) : ∃ V, ClockInv cfg h s V := by
  induction run with
  | init hw ht =>
    refine ⟨fun _ => [], ⟨fun i _ => ⟨none, .nil, (hw i).1, rfl, (hw i).2⟩, by simp, fun x _ => ht x⟩, ⟨by simp, by simp⟩,
      fun i x hx => by simp at hx, fun t tick => ?_, trivial⟩
    simp [awaited]
  | @insert h s s' t time opt run hP hoff hx ih =>
    obtain ⟨V, hI⟩ := ih
    have ht : ∀ i, t ∉ V i := fun i hi => hoff (hI.lists.onWheel.mpr ⟨i, hi⟩)
    have hspec := hx.wp fun n => tickListInsert_added hI.lists hI.sorted hI.ahead ht time opt
    rw [if_pos rfl] at hspec
    obtain ⟨V', hadd⟩ := hspec
    refine ⟨V', hadd.lists, hadd.sorted, hadd.ahead, fun x tick => ?_, hI.readied⟩
    rw [awaited]
    split
    · rename_i htx
      subst htx
      have hleft := hadd.left
      have hdue : s'.tickDue t = s.tickCtr + BitVec.ofNat 32 (tickDistance (s.tcb t) s.tickCtr time opt) := by
        rw [← hleft, hadd.ctr, BitVec.ofNat_toNat, BitVec.setWidth_eq]
        bv_omega
      have hmem : ∃ i, t ∈ V' i := (hadd.mem t).mpr (.inl rfl)
      rw [hdue, Option.some.injEq]
      simp only [hmem, true_and]
    · rename_i htx
      have hxt : x ≠ t := fun h => htx h.symm
      refine waits_congr (hI.waits x) ?_ (fun _ => hadd.others x hxt) tick
      rw [hadd.mem]
      simp [hxt]
  | @refuse h s s' t time opt e run hP hoff hx he ih =>
    obtain ⟨V, hI⟩ := ih
    have ht : ∀ i, t ∉ V i := fun i hi => hoff (hI.lists.onWheel.mpr ⟨i, hi⟩)
    have hspec := hx.wp fun n => tickListInsert_added hI.lists hI.sorted hI.ahead ht time opt
    rw [if_neg he] at hspec
    obtain ⟨hlists, hctr, hdue⟩ := hspec
    have hdue' : ∀ i, ∀ x ∈ V i, s'.tickDue x = s.tickDue x := by
      intro i x hi
      apply hdue
      rintro rfl
      exact ht i hi
    refine ⟨V, hlists, ?_, ?_, fun x => waits_congr (hI.waits x) Iff.rfl ?_, hI.readied⟩
    · rw [hctr]
      exact hI.sorted.congr hdue'
    · rw [hctr]
      exact hI.ahead.congr hdue'
    · rintro ⟨i, hi⟩
      exact hdue' i x hi
  | @remove h s s' t run hP hx ih =>
    obtain ⟨V, hI⟩ := ih
    obtain ⟨hlists, ho⟩ := hx.wp fun n => (tickListRemove_lists hI.lists).and (keeps_others_tickListRemove n cfg s)
    have hctr : s'.tickCtr = s.tickCtr := congrArg Prod.fst ho
    have hdue : ∀ x ≠ t, s'.tickDue x = s.tickDue x := by
      intro x hxt
      have hx₂ := congrFun (congrArg Prod.snd ho) x
      simp only [OS.tickOthers, if_neg hxt, Option.some.injEq, Prod.mk.injEq] at hx₂
      exact hx₂.2
    have hmem : ∀ i x, x ∈ (V i).erase t ↔ x ≠ t ∧ x ∈ V i := fun i x => (hI.lists.nodup i).mem_erase_iff
    have hdue' : ∀ i, ∀ x ∈ (V i).erase t, s'.tickDue x = s.tickDue x := fun i x hx => hdue x ((hmem i x).mp hx).1
    refine ⟨_, hlists, ?_, ?_, fun x tick => ?_, hI.readied⟩
    · rw [hctr]
      exact hI.sorted.sub (fun i => List.erase_sublist) hdue'
    · rw [hctr]
      exact hI.ahead.sub (fun i => List.erase_sublist) hdue'
    · rw [awaited]
      split
      · rename_i htx
        subst htx
        simp [hmem]
      · rename_i htx
        have hxt : x ≠ t := fun h => htx h.symm
        refine waits_congr (hI.waits x) ?_ (fun _ => hdue x hxt) tick
        simp [hmem, hxt]
  | @update h s s' run hP hx ih =>
    obtain ⟨V, hI⟩ := ih
    have hst : ∀ i, ∀ t ∈ V i, (s.tcb t).taskState.isTimed = true := fun i t ht => hP t (hI.lists.onWheel.mpr ⟨i, ht⟩)
    obtain ⟨hctr, V', hlists, hsorted, hahead, hmem, hdue, hexp⟩ :=
      hx.wp fun n => tickListUpdate_spec hI.lists hI.sorted hI.ahead hst
    refine ⟨V', hlists, hsorted, hahead, fun x tick => ?_, fun x hx => ?_, hI.readied⟩
    · rw [awaited, Option.filter_eq_some_iff, hI.waits]
      constructor
      · rintro ⟨⟨⟨i, hi⟩, rfl⟩, hne⟩
        rw [hctr, decide_eq_true_eq] at hne
        have hi' := (hmem i x).mpr ⟨hi, hne⟩
        exact ⟨⟨i, hi'⟩, hdue i x hi'⟩
      · rintro ⟨⟨i, hi'⟩, rfl⟩
        obtain ⟨hi, hne⟩ := (hmem i x).mp hi'
        rw [hctr, hdue i x hi', decide_eq_true_eq]
        exact ⟨⟨⟨i, hi⟩, rfl⟩, hne⟩
    · obtain ⟨⟨i, hi⟩, hd⟩ := (hI.waits x _).mp hx
      exact hexp i x hi (hd.trans hctr)
  | @set h s s' ticks run hP hx ih =>
    obtain ⟨V, hI⟩ := ih
    obtain ⟨n, hx⟩ := hx
    cases hx
    obtain ⟨hsorted, hahead⟩ := hI.lists.sorted_of_set hI.sorted.hash hP
    exact ⟨V, hI.lists.congr ⟨fun _ => rfl, fun _ => rfl, fun _ => rfl, fun _ => rfl, fun _ => rfl⟩, hsorted, hahead,
      hI.waits, hI.readied⟩
  | @other h s s' run hw hc ih =>
    obtain ⟨V, hI⟩ := ih
    refine ⟨V, hI.lists.congr hw, ?_, ?_, fun x => waits_congr (hI.waits x) Iff.rfl fun _ => hw.due x, hI.readied⟩
    · rw [hc]
      exact hI.sorted.congr fun _ x _ => hw.due x
    · rw [hc]
      exact hI.ahead.congr fun _ x _ => hw.due x

theorem ClockInv.onClock (hI : ClockInv cfg h s V) : OnClock cfg h s := by
  refine ⟨fun t => ?_, fun t tick ht => ((hI.waits t tick).mp ht).2, hI.readied⟩
  rw [hI.lists.onWheel]
  constructor
  · intro hV
    rw [(hI.waits t _).mpr ⟨hV, rfl⟩]
    simp
  · intro hne
    obtain ⟨tick, ht⟩ := Option.ne_none_iff_exists'.mp hne
    exact ((hI.waits t tick).mp ht).1

/-- An operation that loses no task, in which no counter wraps. -/
def ClockOp.Safe (cfg : Cfg) (s : OS) (op : ClockOp) : Prop := op.Harmless cfg s ∧ op.Fits cfg s

theorem ClockRun.mono {c : Reading} {P P' : OS → ClockOp → Prop} (run : ClockRun c cfg P h s)
    (hP : ∀ s op, P s op → P' s op) : ClockRun c cfg P' h s := by
  induction run with
  | init hw ht => exact .init hw ht
  | insert _ h' hoff hx ih => exact .insert ih (hP _ _ h') hoff hx
  | refuse _ h' hoff hx he ih => exact .refuse ih (hP _ _ h') hoff hx he
  | remove _ h' hx ih => exact .remove ih (hP _ _ h') hx
  | update _ h' hx ih => exact .update ih (hP _ _ h') hx
  | set _ h' hx ih => exact .set ih (hP _ _ h') hx
  | other _ hw hc ih => exact .other ih hw hc

theorem ClockRun.harmless {c : Reading} (run : ClockRun c cfg (ClockOp.Safe cfg) h s) :
    ClockRun .nat cfg (ClockOp.Harmless cfg) h s := by
  induction run with
  | init hw ht => exact .init hw ht
  | insert _ hP hoff hx ih => exact .insert ih hP.1 hoff (hx.fits hP.2 .nat)
  | refuse _ hP hoff hx he ih => exact .refuse ih hP.1 hoff (hx.fits hP.2 .nat) he
  | remove _ hP hx ih => exact .remove ih hP.1 (hx.fits hP.2 .nat)
  | update _ hP hx ih => exact .update ih hP.1 (hx.fits hP.2 .nat)
  | set _ hP hx ih => exact .set ih hP.1 (hx.fits hP.2 .nat)
  | other _ hw hc ih => exact .other ih hw hc

theorem ClockRun.onClock {c : Reading} (run : ClockRun c cfg (ClockOp.Safe cfg) h s) : OnClock cfg h s := by
  obtain ⟨V, hI⟩ := clockInv_of_run run.harmless
  exact hI.onClock

/-- While the clock is only set so that the spokes stay in order, every task leaves the wheel in the first
update that comes to its tick, and not before. -/
theorem clockRun_onClock (run : ClockRun .word cfg (ClockOp.Safe cfg) h s) : OnClock cfg h s := by
  obtain ⟨V, hI⟩ := clockInv_of_run run.harmless
  exact hI.onClock

section examples

theorem ClockRun.lateBoot {P : OS → ClockOp → Prop} : ClockRun .word Cfg.repository P [] OS.lateBoot :=
  .init (fun _ => ⟨rfl, rfl⟩) fun _ => rfl

/-- A task that waits for tick 17 is made ready by the next update when the clock is set to 16. -/
theorem clockRun_onClock_set : ∃ s₁ s₂ s₃ : OS, ClockRun .word Cfg.repository (ClockOp.Safe Cfg.repository)
    [.updated s₂ s₃, .set 16, .inserted 4 17] s₃ ∧ s₁.tickCtr = 0xFFFFFFFF ∧
    OnClock Cfg.repository [.updated s₂ s₃, .set 16, .inserted 4 17] s₃ ∧
    ¬ OnWheel Cfg.repository s₃ 4 ∧ (s₃.tcb 4).taskState = .rdy := by
  have hplay : ((((tickListInsert 4 18 optTimeDly).checked 9 Cfg.repository OS.lateBoot).join.bind fun x =>
      ((osTimeSet 16).checked 9 Cfg.repository x.2).join.bind fun y =>
      (tickListUpdate.checked 9 Cfg.repository y.2).join.bind fun z => some (x, y, z)).any fun r =>
        r.1.1 = .none ∧ r.2.1.1 = .none ∧ (r.2.1.2.tcb 4).taskState = .dly ∧ r.2.2.2.tickCtr = 17 ∧
          r.1.2.tickCtr = 0xFFFFFFFF) = true := by
    decide +kernel
  obtain ⟨⟨⟨e, s₁⟩, ⟨e₂, s₂⟩, ⟨⟨⟩, s₃⟩⟩, hb, hQ⟩ := (Option.any_eq_true _ _).mp hplay
  obtain ⟨x, hx, hb⟩ := Option.bind_eq_some_iff.mp hb
  obtain ⟨y, hy, hb⟩ := Option.bind_eq_some_iff.mp hb
  obtain ⟨z, hz, hb⟩ := Option.bind_eq_some_iff.mp hb
  cases hb
  rw [Option.join_eq_some_iff] at hx hy hz
  obtain ⟨he, he₂, hst, hctr, hctr₁⟩ := of_decide_eq_true hQ
  dsimp only at he he₂ hst hctr hctr₁
  subst he he₂
  have hoff : ¬ OnWheel Cfg.repository OS.lateBoot 4 := by
    rw [(clockRun_onClock ClockRun.lateBoot).onWheel_iff]
    simp [awaited]
  have run₁ : ClockRun .word Cfg.repository (ClockOp.Safe Cfg.repository) [.inserted 4 17] s₁ :=
    .insert .lateBoot ⟨trivial, fits_of_checked hx⟩ hoff (runsIn_of_checked hx .word)
  have honly : ∀ t, OnWheel Cfg.repository s₁ t → t = 4 ∧ s₁.tickDue t = 17 := by
    intro t ht
    have hc := clockRun_onClock run₁
    have h4 : 4 = t := by
      by_contra hne
      exact (hc.onWheel_iff t).mp ht (by simp [awaited, hne])
    subst h4
    exact ⟨rfl, hc.due 4 17 rfl⟩
  have hin : SetInOrder Cfg.repository s₁ 16 := by
    refine ⟨fun t ht => ?_, fun i hi j k x y hjk hx hy => ?_⟩
    · rw [(honly t ht).2]
      decide
    · rw [(honly x ⟨i, hi, j, hx⟩).1, (honly y ⟨i, hi, k, hy⟩).1]
      exact BitVec.le_refl _
  have run₂ : ClockRun .word Cfg.repository (ClockOp.Safe Cfg.repository) [.set 16, .inserted 4 17] s₂ :=
    .set run₁ ⟨hin, fits_of_checked hy⟩ (runsIn_of_checked hy .word)
  have hc₂ := clockRun_onClock run₂
  have htimed : TimedOnly Cfg.repository s₂ := by
    intro t ht
    have h4 : 4 = t := by
      by_contra hne
      exact (hc₂.onWheel_iff t).mp ht (by simp [awaited, hne])
    rw [← h4, hst]
    rfl
  have run₃ := ClockRun.update run₂ ⟨htimed, fits_of_checked hz⟩ (runsIn_of_checked hz .word)
  have hc₃ := clockRun_onClock run₃
  refine ⟨s₁, s₂, s₃, run₃, hctr₁, hc₃, ?_, ?_⟩
  · rw [hc₃.onWheel_iff]
    simp [awaited, hctr]
  · rw [hc₃.readied.1 4 (by rw [hctr]; rfl), hst]
    rfl

/-- Tasks that wait for ticks 17 and 34 share a spoke. When the clock is set to 33, the second one is
not made ready at tick 34: the walk stops at the first. -/
theorem timeSet_loses : ∃ s₂ s₃ s₄ : OS, ClockRun .word Cfg.repository
      (fun s op => (op = .update → TimedOnly Cfg.repository s) ∧ op.Fits Cfg.repository s)
      [.updated s₃ s₄, .set 33, .inserted 5 34, .inserted 4 17] s₄ ∧
    Prog.RunsIn .word Cfg.repository (osTimeSet 33) s₂ .none s₃ ∧ s₄.tickCtr = 34 ∧
    OnWheel Cfg.repository s₄ 5 ∧ (s₄.tcb 5).taskState = .dly ∧
    ¬ OnClock Cfg.repository [.updated s₃ s₄, .set 33, .inserted 5 34, .inserted 4 17] s₄ := by
  have hplay : ((((tickListInsert 4 18 optTimeDly).checked 9 Cfg.repository OS.lateBoot).join.bind fun w =>
      ((tickListInsert 5 35 optTimeDly).checked 9 Cfg.repository w.2).join.bind fun x =>
      ((osTimeSet 33).checked 9 Cfg.repository x.2).join.bind fun y =>
      (tickListUpdate.checked 9 Cfg.repository y.2).join.bind fun z => some (w, x, y, z)).any fun r =>
        r.1.1 = .none ∧ r.2.1.1 = .none ∧ r.2.2.1.1 = .none ∧ r.1.2.tickCtr = 0xFFFFFFFF ∧
          (r.2.2.1.2.tcb 4).taskState = .dly ∧ (r.2.2.1.2.tcb 5).taskState = .dly ∧
          r.2.2.2.2.tickCtr = 34 ∧ r.2.2.2.2.spokeAt 0 1 = some 5 ∧ (r.2.2.2.2.tcb 5).taskState = .dly) = true := by
    decide +kernel
  obtain ⟨⟨⟨e₁, s₁⟩, ⟨e₂, s₂⟩, ⟨e₃, s₃⟩, ⟨⟨⟩, s₄⟩⟩, hb, hQ⟩ := (Option.any_eq_true _ _).mp hplay
  obtain ⟨w, hw, hb⟩ := Option.bind_eq_some_iff.mp hb
  obtain ⟨x, hx, hb⟩ := Option.bind_eq_some_iff.mp hb
  obtain ⟨y, hy, hb⟩ := Option.bind_eq_some_iff.mp hb
  obtain ⟨z, hz, hb⟩ := Option.bind_eq_some_iff.mp hb
  cases hb
  rw [Option.join_eq_some_iff] at hw hx hy hz
  obtain ⟨he₁, he₂, he₃, hctr₁, hst₄, hst₅, hctr, hat, hst⟩ := of_decide_eq_true hQ
  dsimp only at he₁ he₂ he₃ hctr₁ hst₄ hst₅ hctr hat hst
  subst he₁ he₂ he₃
  have hoff₁ : ¬ OnWheel Cfg.repository OS.lateBoot 4 := by
    rw [ClockRun.lateBoot.onClock.onWheel_iff]
    simp [awaited]
  have run₁ : ClockRun .word Cfg.repository (ClockOp.Safe Cfg.repository) [.inserted 4 17] s₁ :=
    .insert .lateBoot ⟨trivial, fits_of_checked hw⟩ hoff₁ (runsIn_of_checked hw .word)
  have hoff₂ : ¬ OnWheel Cfg.repository s₁ 5 := by
    rw [run₁.onClock.onWheel_iff]
    simp [awaited]
  have hins : ClockEvent.inserted 5 34 =
      .inserted 5 (s₁.tickCtr + BitVec.ofNat 32 (tickDistance (s₁.tcb 5) s₁.tickCtr 35 optTimeDly)) := by
    rw [hctr₁, tickDistance, if_neg (by decide), if_neg fun hp => absurd hp.1 (by decide)]
    rfl
  have run₂ : ClockRun .word Cfg.repository (ClockOp.Safe Cfg.repository) [.inserted 5 34, .inserted 4 17] s₂ := by
    rw [hins]
    exact .insert run₁ ⟨trivial, fits_of_checked hx⟩ hoff₂ (runsIn_of_checked hx .word)
  have hset : Prog.RunsIn .word Cfg.repository (osTimeSet 33) s₂ .none s₃ := runsIn_of_checked hy .word
  have honly : TimedOnly Cfg.repository s₃ := by
    obtain ⟨n, hset⟩ := hset
    cases hset
    intro t ht
    have hne := (run₂.onClock.onWheel_iff t).mp ht
    by_cases h4 : 4 = t
    · rw [← h4, hst₄]
      rfl
    · by_cases h5 : 5 = t
      · rw [← h5, hst₅]
        rfl
      · simp [awaited, h4, h5] at hne
  have honWheel : OnWheel Cfg.repository s₄ 5 := ⟨0, by decide, 1, hat⟩
  refine ⟨s₂, s₃, s₄, ?_, hset, hctr, honWheel, hst, fun hc => ?_⟩
  · have hsafe {s : OS} {op : ClockOp} (h : op.Safe Cfg.repository s) :
        (op = .update → TimedOnly Cfg.repository s) ∧ op.Fits Cfg.repository s := by
      refine ⟨?_, h.2⟩
      rintro rfl
      exact h.1
    refine .update (.set (run₂.mono fun _ _ => hsafe) ⟨?_, fits_of_checked hy⟩ hset)
      ⟨fun _ => honly, fits_of_checked hz⟩ (runsIn_of_checked hz .word)
    intro hop
    cases hop
  · have hne := (hc.onWheel_iff 5).mp honWheel
    simp [awaited, hctr] at hne

end examples

end UcosIII
