import UcosIII.Runs.Waking
import Mathlib.Data.List.Rotate

namespace UcosIII

open Prog

variable {n p : ℕ} {cfg : Cfg} {s s' : OS} {t u : TcbId} {L l : List TcbId}

section turn

def OS.slices (s : OS) : (TcbId → Tick) × Bool × Tick :=
  (fun t => (s.tcb t).timeQuanta, s.schedRoundRobinEn, s.schedRoundRobinDfltTimeQuanta)

def OS.quantum (s : OS) (t : TcbId) : Tick :=
  if (s.tcb t).timeQuanta = 0 then s.schedRoundRobinDfltTimeQuanta else (s.tcb t).timeQuanta

theorem OS.quantum_of_slices (h : s'.slices = s.slices) : s'.quantum = s.quantum := by
  funext t
  have ht : (s'.tcb t).timeQuanta = (s.tcb t).timeQuanta := congrFun (congrArg Prod.fst h) t
  have hd : s'.schedRoundRobinDfltTimeQuanta = s.schedRoundRobinDfltTimeQuanta := congrArg (fun x => x.2.2) h
  rw [OS.quantum, ht, hd]
  rfl

theorem OS.slices_modTcb {f : TCB → TCB} (hf : ∀ c, (f c).timeQuanta = c.timeQuanta) :
    (s.modTcb t f).slices = s.slices :=
  congrArg (fun x => (x, s.schedRoundRobinEn, s.schedRoundRobinDfltTimeQuanta)) (OS.each_modTcb TCB.timeQuanta (hf _))

/-- The tasks of `L` are linked in the list of priority `p`, and its counter has their number in 16 bits. -/
structure Ring (p : ℕ) (s : OS) (L : List TcbId) : Prop where
  list : Listed s.rdyNext s.rdyPrev (s.rdyList p).headPtr (s.rdyList p).tailPtr L.length L
  nbr : (s.rdyList p).nbrEntries = L.length % 2 ^ 16

theorem Ring.congr (h : Ring p s L) (hn : s'.rdyNext = s.rdyNext) (hp : s'.rdyPrev = s.rdyPrev)
    (hl : s'.rdyList = s.rdyList) : Ring p s' L := by
  obtain ⟨hlist, hnbr⟩ := h
  rw [← hn, ← hp, ← hl] at hlist
  rw [← hl] at hnbr
  exact ⟨hlist, hnbr⟩

theorem Ring.modTcb_timeQuantaCtr (h : Ring p s L) (f : TCB → Tick) :
    Ring p (s.modTcb t fun c => { c with timeQuantaCtr := f c }) L :=
  h.congr (OS.each_modTcb TCB.nextPtr rfl) (OS.each_modTcb TCB.prevPtr rfl) rfl

theorem Ring.headPtr (h : Ring p s (t :: l)) : (s.rdyList p).headPtr = some t := h.list.head_eq

theorem rdyListMoveHeadToTail_ring (h : Ring p s L) (hlen : L.length < 2 ^ 16) :
    wp n cfg (rdyListMoveHeadToTail p) (fun _ s' => Ring p s' (L.rotate 1)) s := by
  have hnbr : (s.rdyList p).nbrEntries = L.length := h.nbr.trans (Nat.mod_eq_of_lt hlen)
  have hl := h.list
  rw [← hnbr] at hl
  refine (rdyListMoveHeadToTail_listed hl).mono ?_
  rintro _ s' ⟨hl', hn', -⟩
  rw [hnbr, ← List.length_rotate L 1] at hl'
  exact ⟨hl', by rw [hn', h.nbr, List.length_rotate]⟩

theorem loadTimeQuanta_head (h : Ring p s (u :: l)) : wp n cfg (loadTimeQuanta p) (fun _ s' =>
    s'.slices = s.slices ∧ Ring p s' (u :: l) ∧ (s'.tcb u).timeQuantaCtr = s.quantum u) s := by
  rw [loadTimeQuanta, wp_bind, wp_getRdyList]
  intro _
  rw [wp_bind, h.headPtr, wp_deref]
  rintro _ ⟨⟩
  rw [wp_bind, wp_get, wp_modTcb]
  refine ⟨OS.slices_modTcb fun _ => rfl, h.modTcb_timeQuantaCtr _, ?_⟩
  rw [OS.modTcb_tcb, if_pos rfl]
  rfl

def Turned (p : ℕ) (t u : TcbId) (l : List TcbId) (s s' : OS) : Prop :=
  s'.slices = s.slices ∧
    if (s.tcb t).timeQuantaCtr.toNat ≤ 1 ∧ s.schedLockNestingCtr = 0 then
      Ring p s' (u :: l ++ [t]) ∧ (s'.tcb u).timeQuantaCtr = s.quantum u
    else Ring p s' (t :: u :: l) ∧ (s'.tcb t).timeQuantaCtr.toNat = (s.tcb t).timeQuantaCtr.toNat - 1

theorem schedRoundRobin_turn (h : Ring p s (t :: u :: l)) (hlen : (t :: u :: l).length < 2 ^ 16)
    (hen : s.schedRoundRobinEn = true) (hidle : t ≠ idleTaskTCB) :
    wp n cfg (schedRoundRobin p) (fun _ s' => Turned p t u l s s') s := by
  rw [schedRoundRobin, wp_bind, wp_get, if_neg (by simp [hen]), wp_bind, wp_getRdyList]
  intro _
  rw [h.headPtr]
  dsimp only
  -- what follows once the slice is counted down
  have hrest {s₁ : OS} (hs : s₁.slices = s.slices) (h₁ : Ring p s₁ (t :: u :: l))
      (hctr : (s₁.tcb t).timeQuantaCtr.toNat = (s.tcb t).timeQuantaCtr.toNat - 1) : wp n cfg (do
        if (← getTcb t).timeQuantaCtr > 0 then return ()
        if (s.rdyList p).nbrEntries < 2 then return ()
        if s.schedLockNestingCtr > 0 then return ()
        rdyListMoveHeadToTail p
        loadTimeQuanta p) (fun _ s' => Turned p t u l s s') s₁ := by
    rw [wp_bind, wp_getTcb]
    refine wp_ite.mpr ⟨fun hpos => wp_pure.mpr ⟨hs, ?_⟩, fun hzero => ?_⟩
    · have hpos : 0 < (s₁.tcb t).timeQuantaCtr.toNat := BitVec.lt_def.mp hpos
      rw [if_neg (by omega)]
      exact ⟨h₁, hctr⟩
    have hzero : ¬ 0 < (s₁.tcb t).timeQuantaCtr.toNat := fun h => hzero (BitVec.lt_def.mpr h)
    have hmany : ¬ (s.rdyList p).nbrEntries < 2 := by
      rw [h.nbr, Nat.mod_eq_of_lt hlen]
      simp
    rw [if_neg hmany]
    refine wp_ite.mpr ⟨fun hlock => wp_pure.mpr ⟨hs, ?_⟩, fun hlock => ?_⟩
    · rw [if_neg (by omega)]
      exact ⟨h₁, hctr⟩
    rw [wp_bind]
    refine ((keeps_rdyListMoveHeadToTail p n cfg s₁).and (rdyListMoveHeadToTail_ring h₁ hlen)).mono ?_
    rintro _ s₂ ⟨hk, h₂⟩
    have hs₂ : s₂.slices = s₁.slices := (congrArg OS.slices hk :)
    have hrot : (t :: u :: l).rotate 1 = u :: (l ++ [t]) := by simp
    rw [hrot] at h₂
    refine (loadTimeQuanta_head h₂).mono ?_
    rintro _ s₃ ⟨hs₃, h₃, hq⟩
    refine ⟨hs₃.trans (hs₂.trans hs), ?_⟩
    rw [if_pos (by omega)]
    refine ⟨h₃, ?_⟩
    rw [hq, OS.quantum_of_slices hs₂, OS.quantum_of_slices hs]
  rw [if_neg hidle, wp_bind, wp_getTcb]
  refine wp_ite.mpr ⟨fun hpos => ?_, fun hzero => ?_⟩
  · rw [wp_bind, wp_modTcb]
    refine hrest (OS.slices_modTcb fun _ => rfl) (h.modTcb_timeQuantaCtr _) ?_
    rw [OS.modTcb_tcb, if_pos rfl]
    dsimp only
    bv_omega
  · exact hrest rfl h (by bv_omega)

theorem countless_rdyListMoveHeadToTail : Countless (rdyListMoveHeadToTail p) := by
  refine countless_bind countless_getRdyList fun l => ?_
  split <;> grind

theorem countless_schedRoundRobin : Countless (schedRoundRobin p) := by
  have hrest : Countless (rdyListMoveHeadToTail p >>= fun _ => loadTimeQuanta p) :=
    countless_bind countless_rdyListMoveHeadToTail fun _ => by grind [loadTimeQuanta]
  refine countless_bind countless_get fun s => countless_ite countless_pure ?_
  refine countless_bind countless_getRdyList fun l => ?_
  split <;> grind

end turn

section runs

/-- A tick: the task at the head of the list before it, whether the scheduler was locked, and whether the head went
to the end of the list. -/
structure RRTick where
  head : Option TcbId
  locked : Bool
  rotated : Bool

def turns : List RRTick → ℕ
  | [] => 0
  | r :: h => if r.rotated then turns h + 1 else turns h

def ticksIn : List RRTick → ℕ
  | [] => 0
  | r :: h => if r.rotated then 0 else ticksIn h + 1

/-- A step that leaves the list of priority `p` and the slices of its tasks alone: no task enters or leaves it. -/
structure SameRing (p : ℕ) (s s' : OS) : Prop where
  ring : ∀ L, Ring p s L → Ring p s' L ∧
    ∀ t ∈ L, (s'.tcb t).timeQuantaCtr = (s.tcb t).timeQuantaCtr ∧ s'.quantum t = s.quantum t
  enabled : s'.schedRoundRobinEn = s.schedRoundRobinEn

/-- The ticks that the list of priority `p` gets, the last first. At first the list has the tasks `L`, with the slices
`q`, and `c` ticks of its slice are left to the head. In between the scheduler may be locked and unlocked, and anything
may happen that leaves the list alone. -/
inductive RRRun (cfg : Cfg) (p : ℕ) (L : List TcbId) (q : TcbId → Tick) (c : Tick) : List RRTick → OS → Prop
  | init {s : OS} (hL : Ring p s L) (hen : s.schedRoundRobinEn = true) (hq : ∀ t ∈ L, s.quantum t = q t)
      (hc : ∀ t, L.head? = some t → (s.tcb t).timeQuantaCtr = c) : RRRun cfg p L q c [] s
  | tick {h : List RRTick} {s s' : OS} (run : RRRun cfg p L q c h s) (hx : RunsIn .word cfg (schedRoundRobin p) s () s') :
      RRRun cfg p L q c (⟨(s.rdyList p).headPtr, s.schedLockNestingCtr > 0,
        (s'.rdyList p).headPtr ≠ (s.rdyList p).headPtr⟩ :: h) s'
  | other {h : List RRTick} {s s' : OS} (run : RRRun cfg p L q c h s) (hs : SameRing p s s') : RRRun cfg p L q c h s'

def headSlice (q : TcbId → Tick) (c : Tick) (h : List RRTick) (t : TcbId) : Tick := if turns h = 0 then c else q t

/-- The tasks come to the head in cyclic order. A task is rotated away in a tick if and only if the tick finds the
scheduler unlocked and is at least the last one of its slice. -/
def Fairly (L : List TcbId) (q : TcbId → Tick) (c : Tick) : List RRTick → Prop
  | [] => True
  | r :: h => r.head = L[turns h % L.length]? ∧
    (∀ t, r.head = some t → (r.rotated = true ↔ r.locked = false ∧ (headSlice q c h t).toNat ≤ ticksIn h + 1)) ∧
    Fairly L q c h

structure RRInv (p : ℕ) (L : List TcbId) (q : TcbId → Tick) (c : Tick) (h : List RRTick) (s : OS) : Prop where
  ring : Ring p s (L.rotate (turns h))
  enabled : s.schedRoundRobinEn = true
  quantum : ∀ t ∈ L, s.quantum t = q t
  ctr : ∀ t, (s.rdyList p).headPtr = some t → (s.tcb t).timeQuantaCtr.toNat = (headSlice q c h t).toNat - ticksIn h
  fairly : Fairly L q c h

variable {q : TcbId → Tick} {c : Tick} {h : List RRTick}

theorem headSlice_cons {r : RRTick} : headSlice q c (r :: h) t = if r.rotated then q t else headSlice q c h t := by
  rw [headSlice, turns]
  split
  · rw [if_neg (Nat.succ_ne_zero _)]
  · rfl

theorem RRInv.split (hI : RRInv p L q c h s) (hk : 2 ≤ L.length) :
    ∃ t u l, L.rotate (turns h) = t :: u :: l ∧ t ≠ u := by
  have hlen : 2 ≤ (L.rotate (turns h)).length := by rwa [List.length_rotate]
  have hnd := hI.ring.list.dlist.nodup
  rcases hR : L.rotate (turns h) with _ | ⟨t, _ | ⟨u, l⟩⟩
  · rw [hR] at hlen
    exact absurd hlen (by simp)
  · rw [hR] at hlen
    exact absurd hlen (by simp)
  · rw [hR] at hnd
    refine ⟨t, u, l, rfl, ?_⟩
    rintro rfl
    simp at hnd

theorem RRInv.tick (hI : RRInv p L q c h s) (hk : 2 ≤ L.length) (hlen : L.length < 2 ^ 16) (hidle : idleTaskTCB ∉ L)
    (hx : RunsIn .word cfg (schedRoundRobin p) s () s') :
    RRInv p L q c (⟨(s.rdyList p).headPtr, s.schedLockNestingCtr > 0,
      (s'.rdyList p).headPtr ≠ (s.rdyList p).headPtr⟩ :: h) s' := by
  obtain ⟨t, u, l, hrot, htu⟩ := hI.split hk
  have hring := hI.ring
  rw [hrot] at hring
  have hmem : ∀ x ∈ t :: u :: l, x ∈ L := by
    intro x hx
    rw [← hrot] at hx
    exact List.mem_rotate.mp hx
  have ht : t ≠ idleTaskTCB := by
    rintro rfl
    exact hidle (hmem _ (by simp))
  have hlen' : (t :: u :: l).length < 2 ^ 16 := by rwa [← hrot, List.length_rotate]
  have hhead := hring.headPtr
  obtain ⟨hs, hturn⟩ := (hx.fits (countless_schedRoundRobin _ _) .nat).wp fun n =>
    schedRoundRobin_turn hring hlen' hI.enabled ht
  have hen : s'.schedRoundRobinEn = true := (congrArg (fun x => x.2.1) hs).trans hI.enabled
  have hq : ∀ x ∈ L, s'.quantum x = q x := by
    intro x hx
    rw [OS.quantum_of_slices hs]
    exact hI.quantum x hx
  have hfirst : some t = L[turns h % L.length]? := by
    rw [← Nat.zero_add (turns h), ← List.getElem?_rotate (by omega), hrot]
    rfl
  have hc := hI.ctr t hhead
  split at hturn
  · rename_i hdue
    obtain ⟨h', hctr⟩ := hturn
    have hhead' := h'.headPtr
    have hne : (s'.rdyList p).headPtr ≠ (s.rdyList p).headPtr := by
      rw [hhead, hhead']
      exact fun h => htu (Option.some_inj.mp h).symm
    have hlist : u :: (l ++ [t]) = L.rotate (turns h + 1) := by
      rw [← List.rotate_rotate, hrot]
      simp
    refine ⟨?_, hen, hq, ?_, ?_, ?_, hI.fairly⟩
    · rw [turns, if_pos (by simp [hne]), ← hlist]
      exact h'
    · intro x hx
      rw [hhead'] at hx
      cases hx
      rw [hctr, hI.quantum u (hmem u (by simp)), headSlice_cons, if_pos (by simp [hne]), ticksIn, if_pos (by simp [hne]),
        Nat.sub_zero]
    · exact hhead.trans hfirst
    · intro x hx
      rw [hhead] at hx
      cases hx
      simp only [hne, ne_eq, not_false_eq_true, decide_true, hdue.2, gt_iff_lt, lt_self_iff_false, decide_false, true_and,
        true_iff]
      omega
  · rename_i hdue
    obtain ⟨h', hctr⟩ := hturn
    have hhead' := h'.headPtr
    have heq : (s'.rdyList p).headPtr = (s.rdyList p).headPtr := by rw [hhead, hhead']
    refine ⟨?_, hen, hq, ?_, ?_, ?_, hI.fairly⟩
    · rw [turns, if_neg (by simp [heq]), hrot]
      exact h'
    · intro x hx
      rw [hhead'] at hx
      cases hx
      rw [headSlice_cons, if_neg (by simp [heq]), ticksIn, if_neg (by simp [heq]), hctr, hc]
      omega
    · exact hhead.trans hfirst
    · intro x hx
      rw [hhead] at hx
      cases hx
      simp only [heq, ne_eq, not_true_eq_false, decide_false, Bool.false_eq_true, decide_eq_false_iff_not, not_lt,
        Nat.le_zero, false_iff, gt_iff_lt]
      omega

theorem RRInv.other (hI : RRInv p L q c h s) (hk : 2 ≤ L.length) (hs : SameRing p s s') : RRInv p L q c h s' := by
  obtain ⟨t, u, l, hrot, -⟩ := hI.split hk
  obtain ⟨h', hsame⟩ := hs.ring _ hI.ring
  refine ⟨h', hs.enabled.trans hI.enabled, ?_, ?_, hI.fairly⟩
  · intro x hx
    rw [(hsame x (List.mem_rotate.mpr hx)).2, hI.quantum x hx]
  · have hring := hI.ring
    rw [hrot] at h' hring hsame
    intro x hx
    rw [h'.headPtr] at hx
    cases hx
    rw [(hsame t (by simp)).1]
    exact hI.ctr t hring.headPtr

theorem rrInv_of_run (hk : 2 ≤ L.length) (hlen : L.length < 2 ^ 16) (hidle : idleTaskTCB ∉ L)
    (run : RRRun cfg p L q c h s) : RRInv p L q c h s := by
  induction run with
  | @init s hL hen hq hc =>
    refine ⟨?_, hen, hq, fun t ht => ?_, trivial⟩
    · rwa [turns, List.rotate_zero]
    · rw [hc t (hL.list.head_eq.symm.trans ht)]
      rfl
  | tick run hx ih => exact ih.tick hk hlen hidle hx
  | other run hs ih => exact ih.other hk hs

/-- Round robin is fair: after every tick the list is a rotation of the original one, the tasks come to the head in
cyclic order, and each stays there for its slice. -/
theorem rrRun_fair (hk : 2 ≤ L.length) (hlen : L.length < 2 ^ 16) (hidle : idleTaskTCB ∉ L)
    (run : RRRun cfg p L q c h s) : Ring p s (L.rotate (turns h)) ∧ Fairly L q c h := by
  have hI := rrInv_of_run hk hlen hidle run
  exact ⟨hI.ring, hI.fairly⟩

/-- Three tasks with slices of one and two ticks take turns; the second slice ends under the scheduler lock. -/
theorem rrRun_fair_three : ∃ h s, RRRun Cfg.repository 5 [5, 6, 4] (fun t => if t = 5 then 2 else 1) 2 h s ∧
    h.map RRTick.head = [some 6, some 6, some 5, some 5] ∧ h.map RRTick.rotated = [true, false, true, false] ∧
    Ring 5 s ([5, 6, 4].rotate (turns h)) ∧ Fairly [5, 6, 4] (fun t => if t = 5 then 2 else 1) 2 h := by
  obtain ⟨h, s, run, hfit, hR, hen, hq5, hq6, hq4, hc5, hplay⟩ := RunIn.of_play .word Cfg.repository
    (fun _ x => ¬ PassedMatch Cfg.repository x.pre x.event) 60
    (fun _ s => s.rdyTasks 5 = [5, 6, 4] ∧ s.schedRoundRobinEn = true ∧
      s.quantum 5 = 2 ∧ s.quantum 6 = 1 ∧ s.quantum 4 = 1 ∧ (s.tcb 5).timeQuantaCtr = 2 ∧
      (((schedRoundRobin 5).checked 9 Cfg.repository s).join.bind fun a =>
        ((schedRoundRobin 5).checked 9 Cfg.repository a.2).join.bind fun b =>
        ((schedRoundRobin 5).checked 9 Cfg.repository { b.2 with schedLockNestingCtr := 1 }).join.bind fun c =>
        ((schedRoundRobin 5).checked 9 Cfg.repository { c.2 with schedLockNestingCtr := 0 }).join.bind fun d =>
          some (a, b, c, d)).any
          (fun r => (s.rdyList 5).headPtr = some 5 ∧ (r.1.2.rdyList 5).headPtr = some 5 ∧
            (r.2.1.2.rdyList 5).headPtr = some 6 ∧ (r.2.2.1.2.rdyList 5).headPtr = some 6 ∧
            (r.2.2.2.2.rdyList 5).headPtr = some 4) = true)
    [.newTask 4 5, .newTask 5 5, .newTask 6 5, .start, .call (.schedRoundRobinCfg true 1),
      .call (.taskTimeQuantaSet (some 5) 2), .call .schedRoundRobinYield] (by decide +kernel)
  obtain ⟨⟨⟨⟨⟩, s₁⟩, ⟨⟨⟩, s₂⟩, ⟨⟨⟩, s₃⟩, ⟨⟨⟩, s₄⟩⟩, hb, hQ⟩ := (Option.any_eq_true _ _).mp hplay
  obtain ⟨x, h₁, hb⟩ := Option.bind_eq_some_iff.mp hb
  obtain ⟨x, h₂, hb⟩ := Option.bind_eq_some_iff.mp hb
  obtain ⟨x, h₃, hb⟩ := Option.bind_eq_some_iff.mp hb
  obtain ⟨x, h₄, hb⟩ := Option.bind_eq_some_iff.mp hb
  cases hb
  obtain ⟨e₀, e₁, e₂, e₃, e₄⟩ := of_decide_eq_true hQ
  rw [Option.join_eq_some_iff] at h₁ h₂ h₃ h₄
  dsimp only at e₁ e₂ e₃ e₄ h₁ h₂ h₃ h₄
  replace run : Run Cfg.repository _ h s := run.fits hfit .nat
  obtain ⟨a, H, -⟩ := run.invariant (I := fun _ _ => True) (fun _ _ hP => hP) trivial
    fun _ _ _ _ _ _ _ _ _ _ _ => trivial
  have hlock (s : OS) (k : ℕ) : SameRing 5 s { s with schedLockNestingCtr := k } :=
    ⟨fun L hL => ⟨hL.congr rfl rfl rfl, fun _ _ => ⟨rfl, rfl⟩⟩, rfl⟩
  have hring : Ring 5 s [5, 6, 4] := by
    have hl := H.rep.rdy.lists.list 5 (by decide)
    rw [← H.rep.rdyTasks_eq (by decide), hR] at hl
    have hn := hl.nbr_eq
    rw [hn] at hl
    exact ⟨hl, hn⟩
  have R₀ : RRRun Cfg.repository 5 [5, 6, 4] (fun t => if t = 5 then 2 else 1) 2 [] s := by
    refine .init hring hen ?_ ?_
    · simp [hq4, hq5, hq6]
    · rintro _ ⟨⟩
      exact hc5
  have R₄ := ((((R₀.tick (runsIn_of_checked h₁ .word)).tick (runsIn_of_checked h₂ .word)).other (hlock s₂ 1)).tick
    (runsIn_of_checked h₃ .word)).other (hlock s₃ 0) |>.tick (runsIn_of_checked h₄ .word)
  refine ⟨_, _, R₄, ?_, ?_, rrRun_fair (by decide) (by decide) (by decide) R₄⟩
  · simp [e₀, e₁, e₂, e₃]
  · simp [e₀, e₁, e₂, e₃, e₄]

def OS.rrCrowd : OS :=
  OS.rdyCrowd { OS.boot Cfg.repository with schedRoundRobinEn := true, schedRoundRobinDfltTimeQuanta := 1 } 65536

/-- The list of 65536 tasks is never turned, since its counter is 0. -/
theorem rrRun_fair_overflow : ∃ L q c h s, 2 ≤ L.length ∧ idleTaskTCB ∉ L ∧ RRRun Cfg.repository 5 L q c h s ∧
    ¬ Fairly L q c h := by
  have hplay : ((schedRoundRobin 5).run .word 1 Cfg.repository OS.rrCrowd).any (fun x =>
      (x.2.rdyList 5).headPtr = some 10) = true := by decide +kernel
  obtain ⟨⟨⟨⟩, s⟩, hx, hQ⟩ := (Option.any_eq_true _ _).mp hplay
  have hhead : (s.rdyList 5).headPtr = some 10 := of_decide_eq_true hQ
  have hhead₀ : (OS.rrCrowd.rdyList 5).headPtr = some 10 := rfl
  have hmem {t : TcbId} (ht : t ∈ List.range' 10 65536) : OS.rrCrowd.tcb t = crowdTCB 1 (if t = 10 then none else some (t - 1))
      (if t + 1 < 10 + 65536 then some (t + 1) else none) := if_pos (List.mem_range'_1.mp ht)
  have hring : Ring 5 OS.rrCrowd (List.range' 10 65536) := by
    refine ⟨?_, by rw [List.length_range']; rfl⟩
    rw [List.length_range']
    exact rdyCrowd_listed _ (by decide)
  have run : RRRun Cfg.repository 5 (List.range' 10 65536) (fun _ => 1) 1 [] OS.rrCrowd := by
    refine .init hring rfl (fun t ht => ?_) fun t ht => ?_
    · rw [OS.quantum, hmem ht]
      rfl
    · rw [List.head?_range', if_neg (by decide)] at ht
      rw [← Option.some_inj.mp ht]
      rfl
  refine ⟨_, _, _, _, s, ?_, ?_, run.tick ⟨1, hx⟩, ?_⟩
  · rw [List.length_range']
    decide
  · rw [List.mem_range'_1]
    decide
  · rintro ⟨-, hturn, -⟩
    have hrot := (hturn 10 hhead₀).mpr ⟨rfl, by decide⟩
    rw [hhead, hhead₀] at hrot
    exact absurd hrot (by decide)

end runs

end UcosIII
