import UcosIII.Runs.TickTimes
import UcosIII.Abstract.Files
import Mathlib.Data.List.Chain
import Mathlib.Algebra.Group.Nat.Defs

namespace UcosIII

open Prog

variable {n : ℕ} {cfg : Cfg} {s s' : OS} {t x : TcbId}

section frame

def OS.ctrPrev (s : OS) (t : TcbId) : Tick := (s.tcb t).tickCtrPrev

def OS.ctrs (s : OS) (t : TcbId) : Tick × Tick := ((s.tcb t).tickCtrPrev, (s.tcb t).tickCtrMatch)

theorem OS.ctrPrev_modTcb {f : TCB → TCB} (hf : (f (s.tcb x)).tickCtrPrev = (s.tcb x).tickCtrPrev) :
    (s.modTcb x f).ctrPrev = s.ctrPrev := OS.each_modTcb TCB.tickCtrPrev hf

theorem keeps_ctrPrev_modTcb {f : TCB → TCB} (hf : ∀ c, (f c).tickCtrPrev = c.tickCtrPrev) :
    Keeps OS.ctrPrev (modTcb x f) := keeps_modify fun _ => OS.ctrPrev_modTcb (hf _)

theorem OS.ctrPrev_modSpoke (i : ℕ) (f : TickSpoke → TickSpoke) : (s.modSpoke i f).ctrPrev = s.ctrPrev := rfl

theorem keeps_ctrPrev_tickListRemove : Keeps OS.ctrPrev (tickListRemove t) := by
  have hmod (s : OS) (x : TcbId) (f : TCB → TCB) (hf : ∀ c, (f c).tickCtrPrev = c.tickCtrPrev) :
      (s.modTcb x f).ctrPrev = s.ctrPrev := OS.ctrPrev_modTcb (hf _)
  intro n cfg s
  simp only [tickListRemove, wp_bind, wp_getTcb]
  split
  · rw [wp_pure]
  · simp only [wp_bind, wp_modTcb, wp_getTcb, wp_getSpoke, wp_ite, wp_modSpoke, wp_deref]
    refine ⟨fun _ => ?_, fun _ t1 _ => ?_⟩ <;> split <;>
      simp only [wp_bind, wp_modTcb, wp_decSpoke, OS.ctrPrev_modSpoke, hmod, implies_true]

theorem keeps_ctrPrev_pendListRemove : Keeps OS.ctrPrev (pendListRemove t) := by
  intro n cfg s
  refine pendListRemove_frame.mono fun _ s' hs => ?_
  calc s'.ctrPrev = (s.modTcb t TCB.noTable).ctrPrev := (congrArg OS.ctrPrev hs :)
    _ = s.ctrPrev := OS.ctrPrev_modTcb rfl

theorem keeps_ctrPrev_taskRdy : Keeps OS.ctrPrev (taskRdy t) := by
  rw [taskRdy]
  refine keeps_bind keeps_ctrPrev_tickListRemove fun _ => keeps_bind (keeps_getTcb t) fun _ => ?_
  exact keeps_ite ((keeps_rdyListInsert t).comp OS.ctrPrev) (keeps_pure ())

theorem keeps_ctrPrev_tickListExpire : Keeps OS.ctrPrev (tickListExpire t) := by
  have hmod {f : TCB → TCB} (hf : ∀ c, (f c).tickCtrPrev = c.tickCtrPrev) : Keeps OS.ctrPrev (modTcb t f) :=
    keeps_ctrPrev_modTcb hf
  have hremain (x : Tick) : Keeps OS.ctrPrev (modTcb t fun c => { c with tickRemain := c.tickCtrMatch - x }) :=
    hmod fun _ => rfl
  rw [tickListExpire]
  refine keeps_bind keeps_get fun _ => keeps_bind (keeps_getTcb t) fun c => ?_
  cases c.taskState with
  | rdy | pend | suspended | pendSuspended | del => exact keeps_pure _
  | dly =>
    refine keeps_bind (hremain _) fun _ => keeps_ite ?_ (keeps_pure _)
    exact keeps_bind (hmod fun _ => rfl) fun _ => keeps_bind keeps_ctrPrev_taskRdy fun _ => keeps_pure _
  | dlySuspended =>
    refine keeps_bind (hremain _) fun _ => keeps_ite ?_ (keeps_pure _)
    exact keeps_bind (hmod fun _ => rfl) fun _ => keeps_bind keeps_ctrPrev_tickListRemove fun _ => keeps_pure _
  | pendTimeout =>
    refine keeps_bind (hremain _) fun _ => keeps_ite (keeps_bind keeps_tsGet fun _ => ?_) (keeps_pure _)
    refine keeps_bind (hmod fun _ => rfl) fun _ => keeps_bind keeps_ctrPrev_pendListRemove fun _ => ?_
    exact keeps_bind keeps_ctrPrev_taskRdy fun _ => keeps_bind (hmod fun _ => rfl) fun _ => keeps_pure _
  | pendTimeoutSuspended =>
    refine keeps_bind (hremain _) fun _ => keeps_ite (keeps_bind keeps_tsGet fun _ => ?_) (keeps_pure _)
    refine keeps_bind (hmod fun _ => rfl) fun _ => keeps_bind keeps_ctrPrev_pendListRemove fun _ => ?_
    exact keeps_bind keeps_ctrPrev_tickListRemove fun _ => keeps_bind (hmod fun _ => rfl) fun _ => keeps_pure _

theorem keeps_ctrPrev_tickListUpdate : Keeps OS.ctrPrev tickListUpdate := by
  have hstep (p : Option TcbId) : Keeps OS.ctrPrev (tickListUpdateStep p) := by
    cases p with
    | none => exact keeps_pure _
    | some t =>
      refine keeps_bind (keeps_getTcb t) fun _ => keeps_bind keeps_ctrPrev_tickListExpire fun _ => ?_
      exact keeps_ite (keeps_pure _) (keeps_pure _)
  rw [tickListUpdate]
  refine keeps_bind (keeps_modify fun _ => rfl) fun _ => keeps_bind keeps_get fun _ => keeps_bind keeps_ask fun _ => ?_
  exact keeps_bind (keeps_getSpoke _) fun _ => keeps_loop hstep _

theorem keeps_ctrs_tickListWalk (i : ℕ) (t1 : TcbId) : Keeps OS.ctrs (tickListWalk t i t1) := by
  have hmod (s : OS) (x : TcbId) (f : TCB → TCB)
      (hf : ∀ c, ((f c).tickCtrPrev, (f c).tickCtrMatch) = (c.tickCtrPrev, c.tickCtrMatch)) :
      (s.modTcb x f).ctrs = s.ctrs := OS.each_modTcb (fun c => (c.tickCtrPrev, c.tickCtrMatch)) (hf _)
  have hspoke (s : OS) (i : ℕ) (f : TickSpoke → TickSpoke) : (s.modSpoke i f).ctrs = s.ctrs := rfl
  intro n cfg s
  simp only [tickListWalk, wp_bind, wp_get, wp_modTcb, wp_getTcb, wp_ite]
  constructor <;> intro _ <;> split <;>
    simp only [wp_bind, wp_modTcb, wp_modSpoke, wp_pure, hspoke, hmod, implies_true]

theorem keeps_ctrs_tickListLink : Keeps OS.ctrs (tickListLink t) := by
  have hmod {f : TCB → TCB} (hf : ∀ c, ((f c).tickCtrPrev, (f c).tickCtrMatch) = (c.tickCtrPrev, c.tickCtrMatch)) :
      Keeps OS.ctrs (modTcb t f) :=
    keeps_modify fun _ => OS.each_modTcb (fun c => (c.tickCtrPrev, c.tickCtrMatch)) (hf _)
  have hspoke (i : ℕ) (f : TickSpoke → TickSpoke) : Keeps OS.ctrs (modSpoke i f) := keeps_modify fun _ => rfl
  rw [tickListLink]
  refine keeps_bind (keeps_getTcb t) fun _ => keeps_bind keeps_ask fun _ => keeps_bind (keeps_getSpoke _) fun k => ?_
  have hinc (i : ℕ) : Keeps OS.ctrs (incSpoke i) :=
    keeps_bind (keeps_getSpoke i) fun _ => keeps_bind (keeps_objQtyInc _) fun _ => hspoke _ _
  have hend (i : ℕ) (f : TickSpoke → TickSpoke) : Keeps OS.ctrs (do
      modSpoke i f
      modTcb t fun c => { c with tickSpokePtr := some i }) :=
    keeps_bind (hspoke _ _) fun _ => hmod fun _ => rfl
  refine keeps_ite ?_ ?_
  · exact keeps_bind (hmod fun _ => rfl) fun _ => keeps_bind (hspoke _ _) fun _ => hend _ _
  · cases k.firstPtr with
    | none => exact keeps_bind (hinc _) fun _ => hend _ _
    | some t1 =>
      refine keeps_bind (keeps_loop (keeps_ctrs_tickListWalk _) _) fun _ => ?_
      exact keeps_bind (hinc _) fun _ => hend _ _

end frame

section insert

def OS.Remains (s : OS) (t : TcbId) : Prop := (s.tcb t).tickRemain = (s.tcb t).tickCtrMatch - s.tickCtr

theorem OS.Remains.modTcb {f : TCB → TCB} (h : s.Remains t) (hm : ∀ c, (f c).tickCtrMatch = c.tickCtrMatch)
    (hr : ∀ c, (f c).tickRemain = c.tickRemain ∨ (f c).tickRemain = c.tickCtrMatch - s.tickCtr) :
    (s.modTcb x f).Remains t := by
  rw [OS.Remains, OS.modTcb_tcb]
  change _ = _ - s.tickCtr
  split
  · rename_i htx
    rw [hm]
    rcases hr (s.tcb x) with hr | hr <;> rw [hr]
    rw [← htx]
    exact h
  · exact h

theorem OS.Remains.modSpoke (h : s.Remains t) (i : ℕ) (f : TickSpoke → TickSpoke) : (s.modSpoke i f).Remains t := h

theorem tickListWalk_remains (i : ℕ) (t1 : TcbId) (h : s.Remains x) :
    wp n cfg (tickListWalk t i t1) (fun _ s' => s'.Remains x) s := by
  have h₁ : (s.modTcb t1 fun c => { c with tickRemain := c.tickCtrMatch - s.tickCtr }).Remains x :=
    h.modTcb (fun _ => rfl) fun _ => .inr rfl
  have hlink {s : OS} {y : TcbId} {f : TCB → TCB} (h : s.Remains x) (hm : ∀ c, (f c).tickCtrMatch = c.tickCtrMatch)
      (hr : ∀ c, (f c).tickRemain = c.tickRemain) : (s.modTcb y f).Remains x := h.modTcb hm fun c => .inl (hr c)
  rw [tickListWalk, wp_bind, wp_get, wp_bind, wp_modTcb, wp_bind, wp_getTcb, wp_bind, wp_getTcb, wp_ite]
  constructor
  · intro _
    split
    · exact wp_pure.mpr h₁
    · rw [wp_bind, wp_modTcb, wp_bind, wp_modTcb]
      exact wp_pure.mpr (hlink (hlink h₁ (fun _ => rfl) fun _ => rfl) (fun _ => rfl) fun _ => rfl)
  · intro _
    split
    · rw [wp_bind, wp_modTcb, wp_bind, wp_modTcb, wp_bind, wp_modSpoke]
      refine wp_pure.mpr (OS.Remains.modSpoke ?_ _ _)
      exact hlink (hlink h₁ (fun _ => rfl) fun _ => rfl) (fun _ => rfl) fun _ => rfl
    · rw [wp_bind, wp_modTcb, wp_bind, wp_modTcb, wp_bind, wp_modTcb]
      exact wp_pure.mpr
        (hlink (hlink (hlink h₁ (fun _ => rfl) fun _ => rfl) (fun _ => rfl) fun _ => rfl) (fun _ => rfl) fun _ => rfl)

theorem tickListLink_remains (h : s.Remains x) : wp n cfg (tickListLink t) (fun _ s' => s'.Remains x) s := by
  have hend {s : OS} (i : ℕ) (g : TickSpoke → TickSpoke) (h : s.Remains x) : wp n cfg (do
      modSpoke i g
      modTcb t fun c => { c with tickSpokePtr := some i }) (fun _ s' => s'.Remains x) s := by
    rw [wp_bind, wp_modSpoke, wp_modTcb]
    exact (h.modSpoke i g).modTcb (fun _ => rfl) fun _ => .inl rfl
  rw [tickListLink, wp_bind, wp_getTcb, wp_bind, wp_ask, wp_bind, wp_getSpoke, wp_ite]
  constructor
  · intro _
    rw [wp_bind, wp_modTcb, wp_bind, wp_modSpoke]
    refine hend _ _ (OS.Remains.modSpoke ?_ _ _)
    exact h.modTcb (fun _ => rfl) fun _ => .inl rfl
  · intro _
    split
    · rw [wp_bind, wp_incSpoke]
      exact hend _ _ (h.modSpoke _ _)
    · rw [wp_bind]
      refine (wp_loop (Q := fun _ s' => s'.Remains x) (fun _ s' => s'.Remains x) ?_ h).mono fun _ s₁ h₁ => ?_
      · intro t1 s₁ h₁
        refine (tickListWalk_remains _ t1 h₁).mono fun y s₂ h₂ => ?_
        cases y <;> exact h₂
      · rw [wp_bind, wp_incSpoke]
        exact hend _ _ (h₁.modSpoke _ _)

theorem tickListInsert_accepts {time : Tick} (h0 : time ≠ 0) :
    wp n cfg (tickListInsert t time optTimePeriodic) (fun e _ => e = .none) s := by
  rw [tickListInsert, wp_bind, wp_getTcb, wp_bind, wp_get]
  cases hm : tickMatch (s.tcb t) s.tickCtr time optTimePeriodic with
  | none =>
    have hpos : time > 0 := by bv_omega
    rw [tickMatch, if_neg (by decide), if_pos hpos, if_pos rfl] at hm
    cases hm
  | some c =>
    dsimp only
    rw [wp_bind, wp_modTcb, wp_bind]
    exact (keeps_ctrs_tickListLink n cfg _).mono fun _ _ _ => wp_pure.mpr rfl

theorem tickListInsert_times (time : Tick) (opt : Opt) : wp n cfg (tickListInsert t time opt) (fun e s' =>
    (∀ y ≠ t, s'.ctrPrev y = s.ctrPrev y) ∧ (e = .none → s'.Remains t)) s := by
  rw [tickListInsert, wp_bind, wp_getTcb, wp_bind, wp_get]
  have hothers (f : TCB → TCB) (y : TcbId) (hy : y ≠ t) : (s.modTcb t f).ctrPrev y = s.ctrPrev y := by
    rw [OS.ctrPrev, OS.modTcb_tcb, if_neg hy]
    rfl
  cases hm : tickMatch (s.tcb t) s.tickCtr time opt with
  | none =>
    dsimp only
    rw [wp_bind, wp_modTcb]
    exact wp_pure.mpr ⟨fun y hy => hothers _ y hy, fun h => absurd h (by simp)⟩
  | some c =>
    obtain ⟨hrem, -⟩ := tickMatch_distance hm
    dsimp only
    rw [wp_bind, wp_modTcb, wp_bind]
    have h₁ : (s.modTcb t fun _ => c).Remains t := by
      rw [OS.Remains, OS.modTcb_tcb, if_pos rfl]
      exact hrem
    refine ((keeps_ctrs_tickListLink n cfg _).and (tickListLink_remains h₁)).mono ?_
    rintro _ s' ⟨hctrs, h'⟩
    refine wp_pure.mpr ⟨fun y hy => ?_, fun _ => h'⟩
    calc s'.ctrPrev y = (s.modTcb t fun _ => c).ctrPrev y := (congrArg (fun v : TcbId → Tick × Tick => (v y).1) hctrs :)
      _ = s.ctrPrev y := hothers _ y hy

theorem tickListInsert_periodic (time : Tick) : wp n cfg (tickListInsert t time optTimePeriodic) (fun e s' =>
    e = .none → s'.ctrPrev t = s'.tickDue t) s := by
  rw [tickListInsert, wp_bind, wp_getTcb, wp_bind, wp_get]
  cases hm : tickMatch (s.tcb t) s.tickCtr time optTimePeriodic with
  | none =>
    dsimp only
    rw [wp_bind, wp_modTcb]
    exact wp_pure.mpr fun h => absurd h (by simp)
  | some c =>
    have hc : c.tickCtrPrev = c.tickCtrMatch := by
      rw [tickMatch, if_neg (by decide)] at hm
      split at hm
      · rw [if_pos rfl] at hm
        cases hm
        rfl
      · cases hm
    dsimp only
    rw [wp_bind, wp_modTcb, wp_bind]
    refine (keeps_ctrs_tickListLink n cfg _).mono fun _ s' hctrs => wp_pure.mpr fun _ => ?_
    have ht : (s'.ctrPrev t, s'.tickDue t) = (c.tickCtrPrev, c.tickCtrMatch) := by
      calc (s'.ctrPrev t, s'.tickDue t) = (s.modTcb t fun _ => c).ctrs t := congrFun hctrs t
        _ = (c.tickCtrPrev, c.tickCtrMatch) := by rw [OS.ctrs, OS.modTcb_tcb, if_pos rfl]
    rw [(Prod.mk.inj ht).1, (Prod.mk.inj ht).2, hc]

end insert

section call

def OS.timing (s : OS) := (s.tcb, s.tickWheel, s.tickCtr)

theorem SameWheel.of_timing (h : s'.timing = s.timing) : SameWheel s s' := by
  obtain ⟨htcb, hwheel, -⟩ : s'.tcb = s.tcb ∧ s'.tickWheel = s.tickWheel ∧ s'.tickCtr = s.tickCtr := by
    simpa [OS.timing] using h
  refine ⟨fun x => ?_, fun x => ?_, fun x => ?_, fun x => ?_, fun i => congrFun hwheel i⟩
  · rw [OS.tickNext, htcb]
    rfl
  · rw [OS.tickPrev, htcb]
    rfl
  · rw [OS.tickSpoke, htcb]
    rfl
  · rw [OS.tickDue, htcb]
    rfl

def OS.toDelay (s : OS) (t : TcbId) : OS := s.modTcb t fun c => { c with taskState := .dly }

theorem osTimeDly_inserts (hcur : s.tcbCurPtr = some t) (dly : Tick) (opt : Opt) :
    wp n cfg (osTimeDly dly opt) (fun e s' => e = .none → ∃ s₁, Runs cfg (tickListInsert t dly opt) (s.toDelay t) .none s₁ ∧
      SameWheel s₁ s' ∧ s'.tickCtr = s₁.tickCtr ∧ s'.ctrPrev = s₁.ctrPrev ∧
      (s'.tcb t).tickRemain = (s₁.tcb t).tickRemain) s := by
  rw [osTimeDly, wp_bind, wp_get]
  refine wp_ite.mpr ⟨fun _ => wp_pure.mpr fun h => absurd h (by simp), fun _ => ?_⟩
  refine wp_ite.mpr ⟨fun _ => wp_pure.mpr fun h => absurd h (by simp), fun _ => ?_⟩
  refine wp_ite.mpr ⟨fun _ => wp_pure.mpr fun h => absurd h (by simp), fun _ => ?_⟩
  refine wp_ite.mpr ⟨fun _ => wp_pure.mpr fun h => absurd h (by simp), fun _ => ?_⟩
  rw [timeDly, wp_bind, wp_getCur, hcur]
  rintro _ ⟨⟩
  rw [wp_bind, wp_modTcb, wp_bind]
  intro e s₁ hins
  refine wp_ite.mpr ⟨fun he => wp_pure.mpr fun h => absurd h he, fun he => ?_⟩
  have he : e = .none := not_not.mp he
  subst he
  rw [wp_bind]
  refine (keeps_rdyListRemove t n cfg s₁).mono fun _ s₂ h₂ => ?_
  rw [wp_bind]
  refine (keeps_osSched (v := OS.timing) (fun _ _ _ => rfl) (fun _ _ _ => rfl) n cfg s₂).mono fun _ s₃ h₃ => ?_
  refine wp_pure.mpr fun _ => ⟨s₁, ⟨n, hins⟩, (SameWheel.of_noRdy h₂).trans (.of_timing h₃), ?_, ?_, ?_⟩
  · calc s₃.tickCtr = s₂.tickCtr := (congrArg (fun v : (TcbId → TCB) × (ℕ → TickSpoke) × Tick => v.2.2) h₃ :)
      _ = s₁.tickCtr := (congrArg OS.tickCtr h₂ :)
  · calc s₃.ctrPrev = s₂.ctrPrev :=
        (congrArg (fun v : (TcbId → TCB) × (ℕ → TickSpoke) × Tick => fun y => (v.1 y).tickCtrPrev) h₃ :)
      _ = s₁.ctrPrev := (congrArg OS.ctrPrev h₂ :)
  · calc (s₃.tcb t).tickRemain = (s₂.tcb t).tickRemain :=
        (congrArg (fun v : (TcbId → TCB) × (ℕ → TickSpoke) × Tick => (v.1 t).tickRemain) h₃ :)
      _ = (s₁.tcb t).tickRemain := (congrArg (fun y : OS => (y.tcb t).tickRemain) h₂ :)

theorem osTimeDly_accepts (hcur : s.tcbCurPtr = some t) {p : Tick} (hp : p ≠ 0) :
    wp n cfg (osTimeDly p optTimePeriodic) (fun e _ => e = .timeDlyISR ∨ e = .schedLocked ∨ e = .none) s := by
  rw [osTimeDly, wp_bind, wp_get]
  refine wp_ite.mpr ⟨fun _ => wp_pure.mpr (.inl rfl), fun _ => ?_⟩
  refine wp_ite.mpr ⟨fun _ => wp_pure.mpr (.inr (.inl rfl)), fun _ => ?_⟩
  refine wp_ite.mpr ⟨fun h => absurd h.2 hp, fun _ => ?_⟩
  refine wp_ite.mpr ⟨fun h => absurd h.1 (by decide), fun _ => ?_⟩
  rw [timeDly, wp_bind, wp_getCur, hcur]
  rintro _ ⟨⟩
  rw [wp_bind, wp_modTcb, wp_bind]
  refine (tickListInsert_accepts hp).mono fun e s₁ he => ?_
  refine wp_ite.mpr ⟨fun h => absurd he h, fun _ => ?_⟩
  rw [wp_bind]
  intro _ s₂ _
  rw [wp_bind]
  intro _ s₃ _
  exact wp_pure.mpr (.inr (.inr rfl))

end call

section arithmetic

variable {c : TCB} {c₀ n p : Tick}

theorem tickDistance_prompt {τ τ₀ : ℕ} (hnow : n = c₀ + BitVec.ofNat 32 τ)
    (hprev : c.tickCtrPrev = c₀ + BitVec.ofNat 32 τ₀) (hle : τ₀ ≤ τ) (hlt : τ - τ₀ < p.toNat) :
    tickDistance c n p optTimePeriodic = p.toNat - (τ - τ₀) := by
  have hsum : (c.tickCtrPrev + p - n).toNat = p.toNat - (τ - τ₀) := by
    rw [hprev, hnow]
    bv_omega
  rw [tickDistance, if_neg (by decide), if_pos, hsum]
  refine ⟨rfl, ?_⟩
  bv_omega

theorem tickDistance_late {j : ℕ} (hj : j ≤ 2 ^ 32 - 1 - p.toNat)
    (hnow : n = c.tickCtrPrev + p + BitVec.ofNat 32 j) : tickDistance c n p optTimePeriodic = p.toNat := by
  rw [tickDistance, if_neg (by decide), if_neg]
  rintro ⟨-, hlt⟩
  rw [hnow] at hlt
  bv_omega

theorem tickDistance_le (hp : p ≠ 0) :
    1 ≤ tickDistance c n p optTimePeriodic ∧ tickDistance c n p optTimePeriodic ≤ p.toNat := by
  rw [tickDistance, if_neg (by decide)]
  split
  · rename_i h
    obtain ⟨-, h⟩ := h
    bv_omega
  · bv_omega

end arithmetic

section runs

/-- What happens to the task: a call, with the time left after it, and a wake-up, each with the number of the tick. -/
inductive PeriodEvent where
  | called (τ d : ℕ)
  | woke (τ : ℕ)

/-- What is done in such a run: a delay of the task, or an operation on the wheel. -/
inductive PeriodOp where
  | delay
  | wheel (op : ClockOp)

def PeriodOp.Fits (cfg : Cfg) (p : Tick) (s : OS) : PeriodOp → Prop
  | delay => Prog.Fits cfg (osTimeDly p optTimePeriodic) s
  | wheel op => op.Fits cfg s

/-- The runs of a task `t` that makes periodic delays of `p` ticks, from tick `c₀` on, with the number of ticks so far
and the calls and wake-ups, the last first. Every operation keeps to `P`; the other tasks may do anything. -/
inductive PeriodicRun (c : Reading) (cfg : Cfg) (P : OS → PeriodOp → Prop) (t : TcbId) (p c₀ : Tick) :
    ℕ → List PeriodEvent → OS → Prop
  | init {g : List TickEvent} {s : OS} (run : TickRun c cfg (fun s op => P s (.wheel op)) g s) (hoff : ¬ OnWheel cfg s t)
      (hc : s.tickCtr = c₀) : PeriodicRun c cfg P t p c₀ 0 [] s
  | call {τ : ℕ} {h : List PeriodEvent} {s s' : OS} (run : PeriodicRun c cfg P t p c₀ τ h s) (hP : P s .delay)
      (hcur : s.tcbCurPtr = some t) (hoff : ¬ OnWheel cfg s t)
      (hx : RunsIn c cfg (osTimeDly p optTimePeriodic) s .none s') :
      PeriodicRun c cfg P t p c₀ τ (.called τ (s'.tcb t).tickRemain.toNat :: h) s'
  | tick {τ : ℕ} {h : List PeriodEvent} {s s' : OS} (run : PeriodicRun c cfg P t p c₀ τ h s) (hP : P s (.wheel .update))
      (hst : ∀ t, OnWheel cfg s t → (s.tcb t).taskState.isTimed = true) (hx : RunsIn c cfg tickListUpdate s () s')
      (hsame : OnWheel cfg s' t ↔ OnWheel cfg s t) : PeriodicRun c cfg P t p c₀ (τ + 1) h s'
  | wake {τ : ℕ} {h : List PeriodEvent} {s s' : OS} (run : PeriodicRun c cfg P t p c₀ τ h s) (hP : P s (.wheel .update))
      (hst : ∀ t, OnWheel cfg s t → (s.tcb t).taskState.isTimed = true) (hx : RunsIn c cfg tickListUpdate s () s')
      (hon : OnWheel cfg s t) (hoff : ¬ OnWheel cfg s' t) :
      PeriodicRun c cfg P t p c₀ (τ + 1) (.woke (τ + 1) :: h) s'
  | insert {τ : ℕ} {h : List PeriodEvent} {s s' : OS} {x : TcbId} {time : Tick} {opt : Opt} {e : Err}
      (run : PeriodicRun c cfg P t p c₀ τ h s) (hP : P s (.wheel (.insert x time opt))) (hne : x ≠ t)
      (hoff : ¬ OnWheel cfg s x) (hx : RunsIn c cfg (tickListInsert x time opt) s e s') :
      PeriodicRun c cfg P t p c₀ τ h s'
  | remove {τ : ℕ} {h : List PeriodEvent} {s s' : OS} {x : TcbId} (run : PeriodicRun c cfg P t p c₀ τ h s)
      (hP : P s (.wheel (.remove x))) (hne : x ≠ t) (hx : RunsIn c cfg (tickListRemove x) s () s') :
      PeriodicRun c cfg P t p c₀ τ h s'
  | other {τ : ℕ} {h : List PeriodEvent} {s s' : OS} (run : PeriodicRun c cfg P t p c₀ τ h s) (hw : SameWheel s s')
      (hc : s'.tickCtr = s.tickCtr) (hp : s'.ctrPrev t = s.ctrPrev t) : PeriodicRun c cfg P t p c₀ τ h s'

/-- Every call leaves between 1 and `p` ticks, a call less than `p` ticks after the wake-up before it leaves those up to
`p` ticks after that wake-up, a later one leaves `p`, and the ticks left are those up to the next wake-up. -/
def Paced (p : ℕ) : List PeriodEvent → Prop
  | [] => True
  | [.called _ d] => 1 ≤ d ∧ d ≤ p
  | .called τ d :: .woke τ₀ :: h => 1 ≤ d ∧ d ≤ p ∧ (τ - τ₀ < p → τ + d = τ₀ + p) ∧
    (∀ j ≤ 2 ^ 32 - 1 - p, τ = τ₀ + p + j → d = p) ∧ Paced p (.woke τ₀ :: h)
  | .woke τ :: .called τ₁ d :: h => τ = τ₁ + d ∧ Paced p (.called τ₁ d :: h)
  | _ => False

def Prompt (p : ℕ) : List PeriodEvent → Prop
  | [] => True
  | .called τ _ :: .woke τ₀ :: h => τ - τ₀ < p ∧ Prompt p (.woke τ₀ :: h)
  | _ :: h => Prompt p h

def wakes : List PeriodEvent → List ℕ
  | [] => []
  | .called .. :: h => wakes h
  | .woke τ :: h => τ :: wakes h

def PeriodState (cfg : Cfg) (t : TcbId) (c₀ : Tick) (τ : ℕ) (g : List TickEvent) (s : OS) : List PeriodEvent → Prop
  | [] => ¬ OnWheel cfg s t
  | .woke τ₀ :: _ => ¬ OnWheel cfg s t ∧ s.ctrPrev t = c₀ + BitVec.ofNat 32 τ₀ ∧ τ₀ ≤ τ
  | .called τ₁ d :: _ =>
    sinceInsert t g = some (d, τ - τ₁) ∧ τ₁ ≤ τ ∧ τ - τ₁ < d ∧ s.ctrPrev t = c₀ + BitVec.ofNat 32 (τ₁ + d)

structure PeriodInv (cfg : Cfg) (t : TcbId) (p c₀ : Tick) (τ : ℕ) (h : List PeriodEvent) (g : List TickEvent) (s : OS) :
    Prop where
  run : TickRun .nat cfg (fun _ _ => True) g s
  clock : s.tickCtr = c₀ + BitVec.ofNat 32 τ
  state : PeriodState cfg t c₀ τ g s h
  paced : Paced p.toNat h

theorem PeriodInv.onWheel {p c₀ : Tick} {τ : ℕ} {h : List PeriodEvent} {g : List TickEvent}
    (hI : PeriodInv cfg t p c₀ τ h g s) : OnWheel cfg s t ↔ ∃ τ₁ d h', h = .called τ₁ d :: h' := by
  have hon := hI.run.onTime.onWheel_iff t
  have hst := hI.state
  cases h with
  | nil =>
    change ¬ OnWheel cfg s t at hst
    simpa using hst
  | cons e h =>
    cases e with
    | woke τ₀ => simpa using hst.1
    | called τ₁ d =>
      obtain ⟨hsince, -, hlt, -⟩ := hst
      rw [hon]
      exact iff_of_true ⟨d, _, hsince, hlt⟩ ⟨τ₁, d, h, rfl⟩

variable {p c₀ : Tick} {τ : ℕ} {h : List PeriodEvent} {g g' : List TickEvent}

theorem PeriodInv.keep (hI : PeriodInv cfg t p c₀ τ h g s) (run' : TickRun .nat cfg (fun _ _ => True) g' s')
    (hc : s'.tickCtr = s.tickCtr)
    (hp : s'.ctrPrev t = s.ctrPrev t) (hg : sinceInsert t g' = sinceInsert t g) : PeriodInv cfg t p c₀ τ h g' s' := by
  have hon : OnWheel cfg s' t ↔ OnWheel cfg s t := by
    rw [run'.onTime.onWheel_iff, hI.run.onTime.onWheel_iff, hg]
  refine ⟨run', hc.trans hI.clock, ?_, hI.paced⟩
  have hst := hI.state
  cases h with
  | nil =>
    change ¬ OnWheel cfg s' t
    rw [hon]
    exact hst
  | cons e h =>
    cases e with
    | woke τ₀ =>
      obtain ⟨hoff, hprev, hle⟩ := hst
      exact ⟨by rwa [hon], hp.trans hprev, hle⟩
    | called τ₁ d =>
      obtain ⟨hsince, hle, hlt, hprev⟩ := hst
      exact ⟨hg.trans hsince, hle, hlt, hp.trans hprev⟩

theorem tickListUpdate_ctr {P : OS → ClockOp → Prop} (run : TickRun .nat cfg P g s)
    (hst : ∀ t, OnWheel cfg s t → (s.tcb t).taskState.isTimed = true) :
    wp n cfg tickListUpdate (fun _ s' => s'.tickCtr = s.tickCtr + 1) s := by
  obtain ⟨V, hI⟩ := tickInv_of_run run
  have hst' : ∀ i, ∀ t ∈ V i, (s.tcb t).taskState.isTimed = true := fun i t ht => hst t (hI.lists.onWheel.mpr ⟨i, ht⟩)
  exact (tickListUpdate_spec hI.lists hI.sorted hI.ahead hst').mono fun _ _ h => h.1

theorem onWheel_of_update {P : OS → ClockOp → Prop} (run : TickRun .nat cfg P g s)
    (run' : TickRun .nat cfg P (.updated :: g) s') (h : OnWheel cfg s' t) : OnWheel cfg s t := by
  rw [run'.onTime.onWheel_iff] at h
  rw [run.onTime.onWheel_iff]
  obtain ⟨d, k, hs, hlt⟩ := h
  rw [sinceInsert] at hs
  obtain ⟨⟨d', k'⟩, hs', heq⟩ := Option.map_eq_some_iff.mp hs
  cases heq
  exact ⟨d', k', hs', Nat.lt_of_succ_lt hlt⟩

theorem PeriodInv.ticked (hI : PeriodInv cfg t p c₀ τ h g s)
    (hst : ∀ t, OnWheel cfg s t → (s.tcb t).taskState.isTimed = true) (hx : Runs cfg tickListUpdate s () s') :
    TickRun .nat cfg (fun _ _ => True) (.updated :: g) s' ∧ s'.tickCtr = c₀ + BitVec.ofNat 32 (τ + 1) ∧
      s'.ctrPrev t = s.ctrPrev t := by
  refine ⟨.update hI.run trivial hst hx, ?_, ?_⟩
  · rw [hx.wp fun n => tickListUpdate_ctr hI.run hst, hI.clock, BitVec.ofNat_add, BitVec.add_assoc]
    rfl
  · exact congrFun (hx.wp fun n => keeps_ctrPrev_tickListUpdate n cfg s) t

theorem PeriodInv.leaves {τ₁ d : ℕ} (hI : PeriodInv cfg t p c₀ τ (.called τ₁ d :: h) g s)
    (hst : ∀ t, OnWheel cfg s t → (s.tcb t).taskState.isTimed = true) (hx : Runs cfg tickListUpdate s () s') :
    sinceInsert t (.updated :: g) = some (d, τ - τ₁ + 1) ∧ (OnWheel cfg s' t ↔ τ + 1 < τ₁ + d) := by
  obtain ⟨run', -, -⟩ := hI.ticked hst hx
  obtain ⟨hsince, hle, -, -⟩ := hI.state
  have hsince' : sinceInsert t (.updated :: g) = some (d, τ - τ₁ + 1) := by
    rw [sinceInsert, hsince]
    rfl
  refine ⟨hsince', ?_⟩
  rw [run'.onTime.onWheel_iff t, hsince']
  constructor
  · rintro ⟨d', k, hdk, hkd⟩
    cases hdk
    omega
  · intro hlt
    exact ⟨d, _, rfl, by omega⟩

theorem PeriodInv.tick (hI : PeriodInv cfg t p c₀ τ h g s)
    (hst : ∀ t, OnWheel cfg s t → (s.tcb t).taskState.isTimed = true) (hx : Runs cfg tickListUpdate s () s')
    (hsame : OnWheel cfg s' t ↔ OnWheel cfg s t) : PeriodInv cfg t p c₀ (τ + 1) h (.updated :: g) s' := by
  obtain ⟨run', hclock, hp⟩ := hI.ticked hst hx
  refine ⟨run', hclock, ?_, hI.paced⟩
  have hold := hI.state
  cases h with
  | nil =>
    change ¬ OnWheel cfg s' t
    rw [hsame]
    exact hold
  | cons e h =>
    cases e with
    | woke τ₀ =>
      obtain ⟨hoff, hprev, hle⟩ := hold
      exact ⟨by rwa [hsame], hp.trans hprev, by omega⟩
    | called τ₁ d =>
      obtain ⟨hsince, hle, hlt, hprev⟩ := hold
      obtain ⟨hsince', hleaves⟩ := hI.leaves hst hx
      have hlt' := hleaves.mp (hsame.mpr (hI.onWheel.mpr ⟨τ₁, d, h, rfl⟩))
      have hτ : τ + 1 - τ₁ = τ - τ₁ + 1 := by omega
      exact ⟨by rw [hsince', hτ], by omega, by omega, hp.trans hprev⟩

theorem PeriodInv.wake (hI : PeriodInv cfg t p c₀ τ h g s)
    (hst : ∀ t, OnWheel cfg s t → (s.tcb t).taskState.isTimed = true) (hx : Runs cfg tickListUpdate s () s')
    (hon : OnWheel cfg s t) (hoff : ¬ OnWheel cfg s' t) :
    PeriodInv cfg t p c₀ (τ + 1) (.woke (τ + 1) :: h) (.updated :: g) s' := by
  obtain ⟨run', hclock, hp⟩ := hI.ticked hst hx
  obtain ⟨τ₁, d, h', rfl⟩ := hI.onWheel.mp hon
  obtain ⟨hsince, hle, hlt, hprev⟩ := hI.state
  have hdue := mt (hI.leaves hst hx).2.mpr hoff
  have hτ : τ + 1 = τ₁ + d := by omega
  refine ⟨run', hclock, ⟨hoff, ?_, le_rfl⟩, hτ, hI.paced⟩
  rw [hp, hprev, hτ]

theorem PeriodInv.called (hI : PeriodInv cfg t p c₀ τ h g s) (hp : p ≠ 0) (hcur : s.tcbCurPtr = some t)
    (hoff : ¬ OnWheel cfg s t)
    (hx : Runs cfg (osTimeDly p optTimePeriodic) s .none s') :
    TickRun .nat cfg (fun _ _ => True) (.inserted t (tickDistance (s.tcb t) s.tickCtr p optTimePeriodic) :: g) s' ∧
      s'.tickCtr = s.tickCtr ∧
      (s'.tcb t).tickRemain.toNat = tickDistance (s.tcb t) s.tickCtr p optTimePeriodic ∧
      s'.ctrPrev t = s.tickCtr + (s'.tcb t).tickRemain := by
  have hins := hx.wp fun n => osTimeDly_inserts hcur p optTimePeriodic
  obtain ⟨s₁, hins, hw, hc, hprev, hrem⟩ := hins rfl
  have hmark : SameWheel s (s.toDelay t) := by
    have hfield {γ : Type} (f : TCB → γ) (hf : ∀ c, f { c with taskState := .dly } = f c) (x : TcbId) :
        f ((s.toDelay t).tcb x) = f (s.tcb x) := congrFun (OS.each_modTcb f (hf _)) x
    exact ⟨hfield _ fun _ => rfl, hfield _ fun _ => rfl, hfield _ fun _ => rfl, hfield _ fun _ => rfl, fun _ => rfl⟩
  have run₀ : TickRun .nat cfg (fun _ _ => True) g (s.toDelay t) := .other hI.run hmark rfl
  have hoff₀ : ¬ OnWheel cfg (s.toDelay t) t := by
    rwa [run₀.onTime.onWheel_iff, ← hI.run.onTime.onWheel_iff]
  have hdist : tickDistance ((s.toDelay t).tcb t) s.tickCtr p optTimePeriodic =
      tickDistance (s.tcb t) s.tickCtr p optTimePeriodic := by
    rw [OS.toDelay, OS.modTcb_tcb, if_pos rfl]
    rfl
  have run₁ := TickRun.insert run₀ trivial hoff₀ hins
  have hctr : s₁.tickCtr = s.tickCtr := (congrArg OS.tickCtr (hins.wp fun n => keeps_tickListInsert _ _ _ n cfg _) :)
  change TickRun .nat cfg _ (.inserted t (tickDistance ((s.toDelay t).tcb t) s.tickCtr p optTimePeriodic) :: g) s₁ at run₁
  rw [hdist] at run₁
  -- the remaining time is the distance, and the tick waited for is the one remembered
  obtain ⟨hremains, hdue⟩ := hins.wp fun n => (tickListInsert_times p optTimePeriodic).and (tickListInsert_periodic p)
  have hremains := hremains.2 rfl
  have hdue := hdue rfl
  have hleft : (s₁.tcb t).tickRemain.toNat = tickDistance (s.tcb t) s.tickCtr p optTimePeriodic := by
    obtain ⟨V, hV⟩ := tickInv_of_run run₁
    have hcount := hV.counted t
    rw [sinceInsert, if_pos rfl] at hcount
    rw [hremains]
    have hpos := (tickDistance_le (c := s.tcb t) (n := s.tickCtr) hp).1
    rw [counted_some, if_pos (Nat.lt_of_succ_le hpos)] at hcount
    exact hcount.2
  refine ⟨.other run₁ hw hc, hc.trans hctr, by rw [hrem, hleft], ?_⟩
  calc s'.ctrPrev t = s₁.tickDue t := by rw [hprev, hdue]
    _ = s.tickCtr + (s₁.tcb t).tickRemain := by
      rw [hremains, ← hctr]
      change s₁.tickDue t = s₁.tickCtr + (s₁.tickDue t - s₁.tickCtr)
      bv_omega
    _ = s.tickCtr + (s'.tcb t).tickRemain := by rw [hrem]

theorem PeriodInv.call (hI : PeriodInv cfg t p c₀ τ h g s) (hp : p ≠ 0) (hcur : s.tcbCurPtr = some t)
    (hoff : ¬ OnWheel cfg s t) (hx : Runs cfg (osTimeDly p optTimePeriodic) s .none s') :
    PeriodInv cfg t p c₀ τ (.called τ (s'.tcb t).tickRemain.toNat :: h)
      (.inserted t (tickDistance (s.tcb t) s.tickCtr p optTimePeriodic) :: g) s' := by
  obtain ⟨run', hc, hleft, hprev⟩ := hI.called hp hcur hoff hx
  have hclock : s'.tickCtr = c₀ + BitVec.ofNat 32 τ := hc.trans hI.clock
  obtain ⟨hpos, hle⟩ := tickDistance_le (c := s.tcb t) (n := s.tickCtr) hp
  rw [← hleft] at hpos hle
  refine ⟨run', hclock, ⟨?_, le_rfl, by omega, ?_⟩, ?_⟩
  · rw [sinceInsert, if_pos rfl, hleft, Nat.sub_self]
  · rw [hprev, ← hc, hclock, BitVec.ofNat_add, BitVec.ofNat_toNat, BitVec.setWidth_eq, BitVec.add_assoc]
  · have hold := hI.state
    have hpaced := hI.paced
    cases h with
    | nil => exact ⟨hpos, hle⟩
    | cons e h =>
      cases e with
      | called τ₁ d => exact absurd (hI.onWheel.mpr ⟨τ₁, d, h, rfl⟩) hoff
      | woke τ₀ =>
        obtain ⟨-, hprev₀, hτ⟩ := hold
        refine ⟨hpos, hle, fun hlt => ?_, fun j hj hjτ => ?_, hpaced⟩
        · rw [hleft, tickDistance_prompt hI.clock hprev₀ hτ hlt]
          omega
        · rw [hleft]
          refine tickDistance_late hj ?_
          change s.tickCtr = s.ctrPrev t + p + _
          rw [hprev₀, hI.clock, hjτ, BitVec.ofNat_add, BitVec.ofNat_add, BitVec.ofNat_toNat, BitVec.setWidth_eq]
          simp only [BitVec.add_assoc]

theorem periodInv_of_run (hp : p ≠ 0) {P : OS → PeriodOp → Prop} (run : PeriodicRun .nat cfg P t p c₀ τ h s) :
    ∃ g, PeriodInv cfg t p c₀ τ h g s := by
  induction run with
  | @init g s run hoff hc =>
    refine ⟨g, run.mono fun _ _ _ => trivial, ?_, hoff, trivial⟩
    rw [hc]
    simp
  | call run _ hcur hoff hx ih =>
    obtain ⟨g, hI⟩ := ih
    exact ⟨_, hI.call hp hcur hoff hx⟩
  | tick run _ hst hx hsame ih =>
    obtain ⟨g, hI⟩ := ih
    exact ⟨_, hI.tick hst hx hsame⟩
  | wake run _ hst hx hon hoff ih =>
    obtain ⟨g, hI⟩ := ih
    exact ⟨_, hI.wake hst hx hon hoff⟩
  | @insert τ h s s' x time opt e run _ hne hoff hx ih =>
    obtain ⟨g, hI⟩ := ih
    have hctr : s'.tickCtr = s.tickCtr := (congrArg OS.tickCtr (hx.wp fun n => keeps_tickListInsert _ _ _ n cfg _) :)
    have hprev := (hx.wp fun n => tickListInsert_times time opt).1 t hne.symm
    by_cases he : e = .none
    · subst he
      refine ⟨_, hI.keep (.insert hI.run trivial hoff hx) hctr hprev ?_⟩
      rw [sinceInsert, if_neg hne]
    · exact ⟨g, hI.keep (.refuse hI.run trivial hoff hx he) hctr hprev rfl⟩
  | @remove τ h s s' x run _ hne hx ih =>
    obtain ⟨g, hI⟩ := ih
    have hctr : s'.tickCtr = s.tickCtr := (congrArg OS.tickCtr (hx.wp fun n => keeps_tickListRemove _ n cfg _) :)
    have hprev := congrFun (hx.wp fun n => keeps_ctrPrev_tickListRemove n cfg s) t
    refine ⟨_, hI.keep (.remove hI.run trivial hx) hctr hprev ?_⟩
    rw [sinceInsert, if_neg hne]
  | other run hw hc hprev ih =>
    obtain ⟨g, hI⟩ := ih
    exact ⟨g, hI.keep (.other hI.run hw hc) hc hprev rfl⟩

theorem PeriodicRun.fits {c : Reading} (run : PeriodicRun c cfg (PeriodOp.Fits cfg p) t p c₀ τ h s) (c' : Reading) :
    PeriodicRun c' cfg (PeriodOp.Fits cfg p) t p c₀ τ h s := by
  induction run with
  | init run hoff hc => exact .init (run.fits c') hoff hc
  | call _ hP hcur hoff hx ih => exact .call ih hP hcur hoff (hx.fits hP c')
  | tick _ hP hst hx hsame ih => exact .tick ih hP hst (hx.fits hP c') hsame
  | wake _ hP hst hx hon hoff ih => exact .wake ih hP hst (hx.fits hP c') hon hoff
  | insert _ hP hne hoff hx ih => exact .insert ih hP hne hoff (hx.fits hP c')
  | remove _ hP hne hx ih => exact .remove ih hP hne (hx.fits hP c')
  | other _ hw hc hprev ih => exact .other ih hw hc hprev

theorem Paced.wakes_chain {q : ℕ} : ∀ {h : List PeriodEvent}, Paced q h → Prompt q h →
    (wakes h).IsChain fun w w' => w = w' + q
  | [], _, _ => .nil
  | [.called _ _], _, _ => .nil
  | .called _ _ :: .woke τ₀ :: h, hpaced, hprompt => Paced.wakes_chain (h := .woke τ₀ :: h) hpaced.2.2.2.2 hprompt.2
  | [.woke _, .called _ _], _, _ => .singleton _
  | .woke τ :: .called τ₁ d :: .woke τ₀ :: h, ⟨hτ, hpaced⟩, hprompt => by
    obtain ⟨-, -, hnext, -, hpaced⟩ := hpaced
    obtain ⟨hlt, hprompt⟩ : τ₁ - τ₀ < q ∧ Prompt q (.woke τ₀ :: h) := hprompt
    exact .cons_cons (hτ.trans (hnext hlt)) (Paced.wakes_chain (h := .woke τ₀ :: h) hpaced hprompt)

theorem Paced.steady {q : ℕ} {h : List PeriodEvent} (hpaced : Paced q h) (hprompt : Prompt q h) {w₀ : ℕ}
    (h0 : (wakes h).reverse[0]? = some w₀) : ∀ {k w : ℕ}, (wakes h).reverse[k]? = some w → w = w₀ + k * q
  | 0, w, hw => by
    rw [h0] at hw
    cases hw
    simp
  | k + 1, w, hw => by
    have hchain := List.isChain_reverse.mpr (hpaced.wakes_chain hprompt)
    obtain ⟨hk, hw⟩ := List.getElem?_eq_some_iff.mp hw
    have hstep := List.isChain_iff_getElem.mp hchain k hk
    have hprev := Paced.steady hpaced hprompt h0 (List.getElem?_eq_getElem (Nat.lt_of_succ_lt hk))
    rw [← hw, hstep, hprev, Nat.succ_mul]
    omega

/-- What holds in every run of a task with period `p`, after `τ` ticks, of the ticks and calls to come those in which
no counter wraps. -/
structure Undrifting (cfg : Cfg) (t : TcbId) (p c₀ : Tick) (τ : ℕ) (h : List PeriodEvent) (s : OS) : Prop where
  clock : s.tickCtr = c₀ + BitVec.ofNat 32 τ
  paced : Paced p.toNat h
  steady : Prompt p.toNat h → ∀ k w₀ w, (wakes h).reverse[0]? = some w₀ → (wakes h).reverse[k]? = some w →
    w = w₀ + k * p.toNat
  due : ∀ τ₁ d h', h = .called τ₁ d :: h' → (∀ t, OnWheel cfg s t → (s.tcb t).taskState.isTimed = true) →
    Fits cfg tickListUpdate s → ∀ s', RunsIn .word cfg tickListUpdate s () s' → (OnWheel cfg s' t ↔ τ + 1 < τ₁ + d)
  next : s.tcbCurPtr = some t → ¬ OnWheel cfg s t → Fits cfg (osTimeDly p optTimePeriodic) s →
    ∀ e s', RunsIn .word cfg (osTimeDly p optTimePeriodic) s e s' →
    e = .timeDlyISR ∨ e = .schedLocked ∨ e = .none ∧ 1 ≤ (s'.tcb t).tickRemain.toNat ∧ (s'.tcb t).tickRemain ≤ p ∧
      ∀ j ≤ 2 ^ 32 - 1 - p.toNat, s.tickCtr = s.ctrPrev t + p + BitVec.ofNat 32 j → (s'.tcb t).tickRemain = p

/-- Periodic delays do not drift. -/
theorem periodicRun_undrifting (hp : p ≠ 0) (run : PeriodicRun .word cfg (PeriodOp.Fits cfg p) t p c₀ τ h s) :
    Undrifting cfg t p c₀ τ h s := by
  obtain ⟨g, hI⟩ := periodInv_of_run hp (run.fits .nat)
  refine ⟨hI.clock, hI.paced, fun hprompt k w₀ w h0 hw => hI.paced.steady hprompt h0 hw, ?_, ?_⟩
  · rintro τ₁ d h' rfl hst hfit s' hx
    exact (hI.leaves hst (hx.fits hfit .nat)).2
  intro hcur hoff hfit e s' hx
  replace hx := hx.fits hfit .nat
  rcases hx.wp fun n => osTimeDly_accepts hcur hp with he | he | he
  · exact .inl he
  · exact .inr (.inl he)
  · subst he
    obtain ⟨-, -, hleft, -⟩ := hI.called hp hcur hoff hx
    obtain ⟨hpos, hle⟩ := tickDistance_le (c := s.tcb t) (n := s.tickCtr) hp
    refine .inr (.inr ⟨rfl, by rw [hleft]; exact hpos, BitVec.le_def.mpr (by rw [hleft]; exact hle), ?_⟩)
    intro j hj hlate
    apply BitVec.eq_of_toNat_eq
    rw [hleft]
    exact tickDistance_late hj hlate

theorem PeriodInv.timed (hI : PeriodInv cfg t p c₀ τ h g s) (hg : ∀ x ≠ t, sinceInsert x g = none)
    (hst : (s.tcb t).taskState.isTimed = true) (x : TcbId) (hx : OnWheel cfg s x) :
    (s.tcb x).taskState.isTimed = true := by
  obtain ⟨d, k, hs, -⟩ := (hI.run.onTime.onWheel_iff x).mp hx
  by_cases hxt : x = t
  · rw [hxt]
    exact hst
  · rw [hg x hxt] at hs
    cases hs

/-- A task with a period of two ticks is woken four ticks after its first call although its second call comes late. -/
theorem periodicRun_undrifting_two : ∃ s, PeriodicRun .word Cfg.repository (PeriodOp.Fits Cfg.repository 2) 4 2 0xFFFFFFFF 4
    [.woke 4, .called 3 1, .woke 2, .called 0 2] s ∧
    Undrifting Cfg.repository 4 2 0xFFFFFFFF 4 [.woke 4, .called 3 1, .woke 2, .called 0 2] s := by
  have hplay : (((rdyListInsert 4).checked 9 Cfg.repository { OS.lateBoot with tcbCurPtr := some 4 }).join.bind fun a =>
      ((rdyListInsert 0).checked 9 Cfg.repository a.2).join.bind fun b =>
      ((osTimeDly 2 optTimePeriodic).checked 9 Cfg.repository b.2).join.bind fun x₁ =>
      (tickListUpdate.checked 9 Cfg.repository x₁.2).join.bind fun x₂ =>
      (tickListUpdate.checked 9 Cfg.repository x₂.2).join.bind fun x₃ =>
      (tickListUpdate.checked 9 Cfg.repository x₃.2).join.bind fun x₄ =>
      ((osTimeDly 2 optTimePeriodic).checked 9 Cfg.repository { x₄.2 with tcbCurPtr := some 4 }).join.bind fun x₅ =>
      (tickListUpdate.checked 9 Cfg.repository x₅.2).join.bind fun x₆ => some (a, b, x₁, x₂, x₃, x₄, x₅, x₆)).any (fun r =>
        r.2.1.2.tcbCurPtr = some 4 ∧ r.2.2.1.1 = .none ∧ (r.2.2.1.2.tcb 4).tickRemain.toNat = 2 ∧
        (r.2.2.1.2.tcb 4).taskState = .dly ∧ (r.2.2.2.1.2.tcb 4).taskState = .dly ∧ r.2.2.2.2.2.2.1.1 = .none ∧
        (r.2.2.2.2.2.2.1.2.tcb 4).tickRemain.toNat = 1 ∧ (r.2.2.2.2.2.2.1.2.tcb 4).taskState = .dly) = true := by
    decide +kernel
  obtain ⟨⟨⟨⟨⟩, a⟩, ⟨⟨⟩, b⟩, ⟨e₁, s₁⟩, ⟨⟨⟩, s₂⟩, ⟨⟨⟩, s₃⟩, ⟨⟨⟩, s₄⟩, ⟨e₅, s₅⟩, ⟨⟨⟩, s₆⟩⟩, hb, hQ⟩ :=
    (Option.any_eq_true _ _).mp hplay
  obtain ⟨x, ha, hb⟩ := Option.bind_eq_some_iff.mp hb
  obtain ⟨x, hb', hb⟩ := Option.bind_eq_some_iff.mp hb
  obtain ⟨x, h₁, hb⟩ := Option.bind_eq_some_iff.mp hb
  obtain ⟨x, h₂, hb⟩ := Option.bind_eq_some_iff.mp hb
  obtain ⟨x, h₃, hb⟩ := Option.bind_eq_some_iff.mp hb
  obtain ⟨x, h₄, hb⟩ := Option.bind_eq_some_iff.mp hb
  obtain ⟨x, h₅, hb⟩ := Option.bind_eq_some_iff.mp hb
  obtain ⟨x, h₆, hb⟩ := Option.bind_eq_some_iff.mp hb
  cases hb
  rw [Option.join_eq_some_iff] at ha hb' h₁ h₂ h₃ h₄ h₅ h₆
  obtain ⟨hcur, he₁, hd₁, hst₁, hst₂, he₅, hd₅, hst₅⟩ := of_decide_eq_true hQ
  dsimp only at hcur he₁ hd₁ hst₁ hst₂ he₅ hd₅ hst₅ ha hb' h₁ h₂ h₃ h₄ h₅ h₆
  subst he₁ he₅
  have ran {α : Type} {m : K α} {s s' : OS} {a : α} (h : m.checked 9 Cfg.repository s = some (some (a, s'))) :
      RunsIn .nat Cfg.repository m s a s' ∧ RunsIn .word Cfg.repository m s a s' ∧ Fits Cfg.repository m s :=
    ⟨runsIn_of_checked h .nat, runsIn_of_checked h .word, fits_of_checked h⟩
  have hmove {s s' : OS} {x : TcbId} (h : Runs Cfg.repository (rdyListInsert x) s () s') :
      SameWheel s s' ∧ s'.tickCtr = s.tickCtr := by
    have hk := h.wp fun n => keeps_rdyListInsert x n Cfg.repository s
    exact ⟨.of_noRdy hk, (congrArg OS.tickCtr hk :)⟩
  obtain ⟨N₁, W₁, F₁⟩ := ran h₁
  obtain ⟨N₂, W₂, F₂⟩ := ran h₂
  obtain ⟨N₃, W₃, F₃⟩ := ran h₃
  obtain ⟨N₄, W₄, F₄⟩ := ran h₄
  obtain ⟨N₅, W₅, F₅⟩ := ran h₅
  obtain ⟨N₆, W₆, F₆⟩ := ran h₆
  -- from the boot to the first call
  have hwa := hmove (runsIn_of_checked ha .nat)
  have hwb := hmove (runsIn_of_checked hb' .nat)
  have runb {c : Reading} {P : OS → ClockOp → Prop} : TickRun c Cfg.repository P [] b :=
    .other (.other (.init (fun _ => ⟨rfl, rfl⟩) fun _ => rfl) hwa.1 hwa.2) hwb.1 hwb.2
  have hclear : ¬ OnWheel Cfg.repository b 4 := by
    rw [(runb (P := fun _ _ => True)).onTime.onWheel_iff]
    simp [sinceInsert]
  have hctr : b.tickCtr = 0xFFFFFFFF := hwb.2.trans hwa.2
  have R₀ : PeriodicRun .word Cfg.repository (PeriodOp.Fits Cfg.repository 2) 4 2 0xFFFFFFFF 0 [] b := .init runb hclear hctr
  have I₀ : PeriodInv Cfg.repository 4 2 0xFFFFFFFF 0 [] [] b := ⟨runb, by simp [hctr], hclear, trivial⟩
  have only {x : TcbId} {d : ℕ} {g : List TickEvent} (hne : x ≠ 4) (hg : sinceInsert x g = none) :
      sinceInsert x (.inserted 4 d :: g) = none := by rwa [sinceInsert, if_neg hne.symm]
  have onlyTick {x : TcbId} {g : List TickEvent} (hg : sinceInsert x g = none) :
      sinceInsert x (.updated :: g) = none := by rw [sinceInsert, hg]; rfl
  -- the first call, a tick in which the task stays, and the tick that wakes it
  have R₁ := R₀.call F₁ hcur hclear W₁
  have I₁ := I₀.call (by decide) hcur hclear N₁
  rw [hd₁] at R₁ I₁
  have T₁ := I₁.timed (fun x hx => only hx rfl) (by rw [hst₁]; rfl)
  have on₁ := I₁.onWheel.mpr ⟨0, 2, [], rfl⟩
  have on₂ := (I₁.leaves T₁ N₂).2.mpr (by decide)
  have R₂ := R₁.tick F₂ T₁ W₂ (iff_of_true on₂ on₁)
  have I₂ := I₁.tick T₁ N₂ (iff_of_true on₂ on₁)
  have T₂ := I₂.timed (fun x hx => onlyTick (only hx rfl)) (by rw [hst₂]; rfl)
  have off₃ := mt (I₂.leaves T₂ N₃).2.mp (by decide)
  have R₃ := R₂.wake F₃ T₂ W₃ on₂ off₃
  have I₃ := I₂.wake T₂ N₃ on₂ off₃
  -- a tick passes before the second call, which leaves a tick less
  have T₃ (x : TcbId) (hx : OnWheel Cfg.repository s₃ x) : (s₃.tcb x).taskState.isTimed = true := by
    obtain ⟨d, k, hs, -⟩ := (I₃.run.onTime.onWheel_iff x).mp hx
    by_cases hx4 : x = 4
    · rw [hx4] at hx
      exact absurd hx off₃
    · rw [onlyTick (onlyTick (only hx4 rfl))] at hs
      cases hs
  have off₄ := mt (onWheel_of_update I₃.run (.update I₃.run trivial T₃ N₄)) off₃
  have hturn : SameWheel s₄ { s₄ with tcbCurPtr := some 4 } :=
    ⟨fun _ => rfl, fun _ => rfl, fun _ => rfl, fun _ => rfl, fun _ => rfl⟩
  have R₄ := (R₃.tick F₄ T₃ W₄ (iff_of_false off₄ off₃)).other hturn rfl rfl
  have I₄ := I₃.tick T₃ N₄ (iff_of_false off₄ off₃)
  have I₄ := I₄.keep (.other I₄.run hturn rfl) rfl rfl rfl
  have R₅ := R₄.call F₅ rfl off₄ W₅
  have I₅ := I₄.call (by decide) rfl off₄ N₅
  rw [hd₅] at R₅ I₅
  have T₅ := I₅.timed (fun x hx => only hx (onlyTick (onlyTick (onlyTick (only hx rfl))))) (by rw [hst₅]; rfl)
  have on₅ := I₅.onWheel.mpr ⟨3, 1, _, rfl⟩
  have R₆ := R₅.wake F₆ T₅ W₆ on₅ (mt (I₅.leaves T₅ N₆).2.mp (by decide))
  exact ⟨s₆, R₆, periodicRun_undrifting (by decide) R₆⟩

def OS.earlyBoot : OS :=
  { OS.boot Cfg.repository with
    tcb := fun t => { TCB.dormant Cfg.repository with taskState := .rdy, prio := if t = idleTaskTCB then 31 else 5 }
    rdyList := fun p =>
      if p = 5 then { headPtr := some 10, tailPtr := some 10, nbrEntries := 1 }
      else if p = 31 then { headPtr := some idleTaskTCB, tailPtr := some idleTaskTCB, nbrEntries := 1 }
      else { headPtr := none, tailPtr := none, nbrEntries := 0 }
    prioTbl := fun _ => prioBit 5 ||| prioBit 31
    tcbCurPtr := some 10 }

theorem periodicRun_crowd {k : ℕ} (hk : k < 65536) : ∃ s,
    PeriodicRun .word Cfg.repository (fun _ _ => True) 10 2 0 0 [.called 0 2] s ∧ SpokeCrowd (k + 1) s := by
  induction k with
  | zero =>
    have hplay : ((osTimeDly 2 optTimePeriodic).run .word 9 Cfg.repository OS.earlyBoot).any (fun x => x.1 = .none ∧
        (x.2.tcb 10).tickRemain.toNat = 2 ∧ x.2.tickCtr = 0 ∧ (x.2.tickWheel 2).firstPtr = some 10 ∧
        x.2.tickNext 10 = none ∧ x.2.tickPrev 10 = none ∧ x.2.tickDue 10 = 2 ∧ (x.2.tickWheel 2).nbrEntries = 1 ∧
        ∀ i < Cfg.repository.tickWheelSize, i ≠ 2 → (x.2.tickWheel i).firstPtr = none) = true := by
      decide +kernel
    obtain ⟨⟨e, s⟩, hx, hQ⟩ := (Option.any_eq_true _ _).mp hplay
    obtain ⟨he, hleft, hctr, hfirst, hnext, hprev, hdue, hnbr, hothers⟩ := of_decide_eq_true hQ
    dsimp only at he hleft
    subst he
    have run : TickRun .word Cfg.repository (fun _ _ => True) [] OS.earlyBoot := .init (fun _ => ⟨rfl, rfl⟩) fun _ => rfl
    have hoff : ¬ OnWheel Cfg.repository OS.earlyBoot 10 := by
      rintro ⟨i, -, j, hj⟩
      rw [OS.spokeAt, show (OS.earlyBoot.tickWheel i).firstPtr = none from rfl, chainAt_null] at hj
      cases hj
    have hrun := (PeriodicRun.init (P := fun _ _ => True) (t := 10) (p := 2) run hoff rfl).call trivial rfl hoff ⟨9, hx⟩
    rw [hleft] at hrun
    exact ⟨s, hrun, .one hctr hfirst hnext hprev hdue hnbr hothers⟩
  | succ k ih =>
    obtain ⟨s, run, h⟩ := ih (by omega)
    obtain ⟨s', hx, h'⟩ := h.insert (by omega) hk
    exact ⟨s', run.insert trivial (Nat.ne_of_gt (by omega : 10 < 10 + (k + 1))) h.off hx, h'⟩

theorem tickListUpdate_idle (hctr : s.tickCtr = 0) (hf : (s.tickWheel 1).firstPtr = none) :
    tickListUpdate.checked 1 Cfg.repository s = some (some ((), { s with tickCtr := 1 })) := by
  change (loop tickListUpdateStep (s.tickWheel ((s.tickCtr + 1).toNat % Cfg.repository.tickWheelSize)).firstPtr).checked 1
    Cfg.repository { s with tickCtr := s.tickCtr + 1 } = _
  rw [hctr, show ((0 + 1 : Tick).toNat % Cfg.repository.tickWheelSize) = 1 from rfl, hf]
  rfl

/-- A task makes a delay of two ticks and 65536 other tasks come to wait for the same tick: the task is lost from the
wheel. -/
theorem periodicRun_undrifting_overflow : ∃ s,
    PeriodicRun .word Cfg.repository (fun _ _ => True) 10 2 0 0 [.called 0 2] s ∧
    ¬ Undrifting Cfg.repository 10 2 0 0 [.called 0 2] s := by
  obtain ⟨s, run, h⟩ := periodicRun_crowd (k := 65535) (by decide)
  let s₁ := s.modTcb 65546 fun c => { c with taskState := .dly }
  have hw : SameWheel s s₁ := .modTcb rfl rfl rfl rfl
  obtain ⟨s', hx, hctr, hst, hidle, honly⟩ := (h.congr hw rfl).overflow
  have hprev : s₁.ctrPrev 10 = s.ctrPrev 10 := congrFun (OS.ctrPrev_modTcb rfl) 10
  refine ⟨s', (run.other hw rfl hprev).insert trivial (by decide) (h.congr hw rfl).off hx, fun hok => ?_⟩
  have htimed (t : TcbId) (ht : OnWheel Cfg.repository s' t) : (s'.tcb t).taskState.isTimed = true := by
    rw [honly t ht, hst, OS.modTcb_tcb, if_pos rfl]
    rfl
  have hupd := tickListUpdate_idle hctr hidle
  have hon := hok.due 0 2 [] rfl htimed (fits_of_checked hupd) _ (runsIn_of_checked hupd .word)
  -- the update finds nothing, and the task is still lost
  exact absurd (honly 10 (hon.mpr (by decide))) (by decide)

end runs

end UcosIII
