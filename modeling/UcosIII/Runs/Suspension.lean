import UcosIII.Runs.Deadlines
import UcosIII.Runs.Waiting
import UcosIII.Runs.Waking

namespace UcosIII

open Prog

variable {n : ℕ} {cfg : Cfg} {s s' : OS} {a : Abs} {t : TcbId} {e : Event} {r : Option Ret} {h : List Step} {k : ℕ}

def TaskState.unsuspended : TaskState → TaskState
  | suspended => rdy
  | dlySuspended => dly
  | pendSuspended => pend
  | pendTimeoutSuspended => pendTimeout
  | rdy => rdy
  | dly => dly
  | pend => pend
  | pendTimeout => pendTimeout
  | del => del

/-- The number of suspensions of `t` that are outstanding after the step, if there were `k` before it. -/
def Step.outstanding (x : Step) (t : TcbId) (k : ℕ) : ℕ :=
  if (x.ret.any fun r => r.err = .none) = true then
    match x.event with
    | .call (.taskSuspend p) => if x.pre.Target p t then k + 1 else k
    | .call (.taskResume p) => if p = some t then k - 1 else k
    | .call (.taskDel p) => if x.pre.Target p t then 0 else k
    | .call (.taskCreate args) => if args.tcb = some t then 0 else k
    | _ => k
  else k

def suspensions (t : TcbId) : List Step → ℕ
  | [] => 0
  | x :: h => x.outstanding t (suspensions t h)

def suspendedSince (t : TcbId) : List Step → Option OS
  | [] => none
  | x :: h =>
    if suspensions t (x :: h) = 0 then none else if suspensions t h = 0 then some x.pre else suspendedSince t h

def Oversuspends (h : List Step) (x : Step) : Prop :=
  match x.event with
  | .call (.taskSuspend (some t)) => x.pre.intNestingCtr = 0 ∧ 256 ≤ suspensions t h
  | _ => False

instance (h : List Step) (x : Step) : Decidable (Oversuspends h x) := by
  unfold Oversuspends
  split <;> infer_instance

section files

variable {f f' : File}

namespace TaskState

theorem isHeld_woken {st : TaskState} (hp : st.isPend = true) : st.woken.isHeld = st.isHeld := by
  cases st <;> first | rfl | cases hp

theorem woken_of_isHeld {st : TaskState} (hp : st.isPend = true) (hh : st.isHeld = true) : st.woken = .suspended := by
  cases st <;> simp_all [woken, isPend, isHeld, isSuspended]

end TaskState

theorem File.expired_held (f : File) (ts : ℕ) (hh : f.state.isHeld = true) :
    (f.expired ts).suspendCtr = f.suspendCtr ∧ ((f.expired ts).state = .suspended ∨ f.expired ts = f) := by
  cases hs : f.state <;> simp_all [expired, TaskState.expired, woken, TaskState.woken, TaskState.isHeld, TaskState.isSuspended]

def Event.counts : Event → Bool
  | call (.taskSuspend _) | call (.taskResume _) | call (.taskDel _) | call (.taskCreate _) => true
  | _ => false

theorem File.Turn.held (hT : f.Turn s e r t f') (he : e.counts = false) (hcur : s.tcbCurPtr ≠ some t)
    (hh : f.state.isHeld = true) : f'.suspendCtr = f.suspendCtr ∧
      (f'.state = .suspended ∨ ∃ m c k, f' = { f with mail := m, semCtr := c, msgs := k }) := by
  cases hT with
  | fresh hc | erased hc | suspended hc | resumed hc =>
    rw [hc] at he
    cases he
  | flagPosts _ hc | delayed _ hc | semTaken _ hc | waits _ hc | waitsMulti _ hc | rows _ hc | flagsRdy _ hc | finished _ hc =>
    exact absurd hc hcur
  | semSet | msgs => exact ⟨rfl, .inr ⟨f.mail, _, _, rfl⟩⟩
  | posted _ hp =>
    obtain ⟨_, _, _, h₁⟩ := f.posted_shape _ _
    rw [h₁]
    exact ⟨rfl, .inl (TaskState.woken_of_isHeld hp hh)⟩
  | flagged _ hp => exact ⟨rfl, .inl (TaskState.woken_of_isHeld hp hh)⟩
  | aborted _ hp =>
    obtain ⟨_, _, _, h₁⟩ := f.aborted_shape _ _
    rw [h₁]
    exact ⟨rfl, .inl (TaskState.woken_of_isHeld hp hh)⟩
  | signalled =>
    rcases f.signalled_shape s.tsNow with ⟨hp, -, h₁⟩ | ⟨-, c, h₁⟩
    · obtain ⟨_, _, _, h₂⟩ := File.posted_shape { f with mail := { f.mail with ts := s.tsNow } } none ⟨none, 0, s.tsNow⟩
      rw [h₁, h₂]
      exact ⟨rfl, .inl (TaskState.woken_of_isHeld hp hh)⟩
    · rw [h₁]
      exact ⟨rfl, .inr ⟨_, c, f.msgs, rfl⟩⟩
  | expired =>
    obtain ⟨hc, hs | hf⟩ := f.expired_held s.tsNow hh
    · exact ⟨hc, .inl hs⟩
    · rw [hf]
      exact ⟨rfl, .inr ⟨f.mail, f.semCtr, f.msgs, rfl⟩⟩

theorem File.Turn.free (hT : f.Turn s e r t f') (he : e.counts = false) (hh : f.state.isHeld = false) :
    f'.state.isHeld = false := by
  cases hT with
  | fresh hc | erased hc | suspended hc | resumed hc =>
    rw [hc] at he
    cases he
  | flagPosts | semTaken | rows | flagsRdy | finished | semSet | msgs => exact hh
  | delayed => rfl
  | waits _ _ _ _ _ _ _ _ timed => cases timed <;> rfl
  | waitsMulti _ _ _ timed => cases timed <;> rfl
  | posted _ hp =>
    obtain ⟨_, _, _, h₁⟩ := f.posted_shape _ _
    rw [h₁]
    exact (TaskState.isHeld_woken hp).trans hh
  | flagged _ hp => exact (TaskState.isHeld_woken hp).trans hh
  | aborted _ hp =>
    obtain ⟨_, _, _, h₁⟩ := f.aborted_shape _ _
    rw [h₁]
    exact (TaskState.isHeld_woken hp).trans hh
  | signalled =>
    rcases f.signalled_shape s.tsNow with ⟨hp, -, h₁⟩ | ⟨-, c, h₁⟩
    · obtain ⟨_, _, _, h₂⟩ := File.posted_shape { f with mail := { f.mail with ts := s.tsNow } } none ⟨none, 0, s.tsNow⟩
      rw [h₁, h₂]
      exact (TaskState.isHeld_woken hp).trans hh
    · rw [h₁]
      exact hh
  | expired =>
    cases hs : f.state <;> simp_all [File.expired, TaskState.expired, File.woken, TaskState.woken, TaskState.isHeld,
      TaskState.isSuspended]

end files

section count

variable {f f' : File}

structure File.Held (k : ℕ) (f : File) : Prop where
  iff : f.state.isHeld = true ↔ 0 < k
  ctr : 0 < k → f.suspendCtr = BitVec.ofNat 8 k
  le : k ≤ 256

theorem File.held_zero (hh : f.state.isHeld = false) : f.Held 0 := ⟨by simp [hh], by simp, by simp⟩

theorem File.Held.suspended (hf : f.Held k) (hd : f.state ≠ .del) (hk : k < 256) : f.suspended.Held (k + 1) := by
  have hstate : f.suspended.state.isHeld = true := by
    cases hs : f.state <;> simp_all [File.suspended, TaskState.isHeld]
  refine ⟨by simp [hstate], fun _ => ?_, hk⟩
  cases hh : f.state.isHeld with
  | false =>
    have h0 : k = 0 := by
      by_contra h0
      have := hf.iff.mpr (by omega)
      rw [hh] at this
      cases this
    subst h0
    cases hs : f.state <;> simp_all [File.suspended, TaskState.isHeld]
  | true =>
    have hctr := hf.ctr (hf.iff.mp hh)
    have hsum : BitVec.ofNat 8 (k + 1) = BitVec.ofNat 8 k + 1 := BitVec.ofNat_add k 1
    rw [hsum, ← hctr]
    cases hs : f.state <;> simp_all [File.suspended, TaskState.isHeld]

theorem File.Held.resumed_shape (hf : f.Held k) (hh : f.state.isHeld = true) :
    f.resumed = { f with
      suspendCtr := BitVec.ofNat 8 (k - 1), state := if k = 1 then f.state.unsuspended else f.state } := by
  have hk := hf.iff.mp hh
  have hle := hf.le
  have hctr : f.suspendCtr - 1 = BitVec.ofNat 8 (k - 1) := by
    rw [hf.ctr hk]
    apply BitVec.eq_of_toNat_eq
    simp
    omega
  have hzero : f.suspendCtr - 1 = 0 ↔ k = 1 := by
    rw [hctr, BitVec.toNat_eq]
    simp
    omega
  have hcase (st : TaskState) (hst : f.state.unsuspended = st) (hr : f.resumed = f.lessSuspended st) :
      f.resumed = { f with
        suspendCtr := BitVec.ofNat 8 (k - 1), state := if k = 1 then f.state.unsuspended else f.state } := by
    rw [hr, lessSuspended, hctr, hst]
    congr 1
    exact if_congr (by rw [← hctr]; exact hzero) rfl rfl
  cases hs : f.state with
  | rdy | dly | pend | pendTimeout | del =>
    rw [hs] at hh
    cases hh
  | suspended => exact hs ▸ hcase .rdy (by rw [hs]; rfl) (by simp only [File.resumed, hs])
  | dlySuspended => exact hs ▸ hcase .dly (by rw [hs]; rfl) (by simp only [File.resumed, hs])
  | pendSuspended => exact hs ▸ hcase .pend (by rw [hs]; rfl) (by simp only [File.resumed, hs])
  | pendTimeoutSuspended => exact hs ▸ hcase .pendTimeout (by rw [hs]; rfl) (by simp only [File.resumed, hs])

theorem File.Held.resumed (hf : f.Held k) (hh : f.state.isHeld = true) : f.resumed.Held (k - 1) := by
  have hk := hf.iff.mp hh
  have hle := hf.le
  rw [hf.resumed_shape hh]
  refine ⟨?_, fun _ => rfl, by omega⟩
  by_cases h1 : k = 1
  · subst h1
    simp only [if_pos]
    cases hs : f.state <;> simp_all [TaskState.isHeld, TaskState.unsuspended]
  · simp only [if_neg h1, hh, true_iff]
    omega

/-- Since `f₀` the task has been suspended: its wait or delay is over, or it is the one that it was in. -/
def File.Since (f₀ f : File) : Prop :=
  f.state = .suspended ∨ f.state.unsuspended = f₀.state ∧
    ∃ m c k, f = { f₀ with state := f.state, suspendCtr := f.suspendCtr, mail := m, semCtr := c, msgs := k }

theorem File.since_suspended (hh : f.state.isHeld = false) (hd : f.state ≠ .del) : File.Since f f.suspended := by
  cases hs : f.state with
  | rdy => exact .inl (by simp [File.suspended, hs])
  | dly | pend | pendTimeout =>
    refine .inr ⟨by simp [File.suspended, hs, TaskState.unsuspended], f.mail, f.semCtr, f.msgs, ?_⟩
    simp [File.suspended, hs]
  | del => exact absurd hs hd
  | suspended | dlySuspended | pendSuspended | pendTimeoutSuspended =>
    rw [hs] at hh
    cases hh

theorem File.Since.count {f₀ : File} (hf : f₀.Since f) (c : BitVec 8) : f₀.Since { f with suspendCtr := c } := by
  rcases hf with h | ⟨h₁, m, j, k, h₂⟩
  · exact .inl h
  · refine .inr ⟨h₁, m, j, k, ?_⟩
    dsimp only
    rw [h₂]

theorem File.Since.mail {f₀ : File} (hf : f₀.Since f) (m : Mail) (c k : ℕ) :
    f₀.Since { f with mail := m, semCtr := c, msgs := k } := by
  rcases hf with h | ⟨h₁, _, _, _, h₂⟩
  · exact .inl h
  · refine .inr ⟨h₁, m, c, k, ?_⟩
    dsimp only
    rw [h₂]

theorem File.suspended_of_held (hh : f.state.isHeld = true) : f.suspended = { f with suspendCtr := f.suspendCtr + 1 } := by
  cases hs : f.state <;> simp_all [File.suspended, TaskState.isHeld]

end count

section runs

structure Tallied (t : TcbId) (h : List Step) (s : OS) : Prop where
  held : (s.file t).Held (suspensions t h)
  since : 0 < suspensions t h →
    ∃ s₀, suspendedSince t h = some s₀ ∧ (s₀.file t).Since (s.file t) ∧ DueKept (s₀.deadline t) (s.deadline t)

theorem Step.outstanding_of_not_counts {x : Step} (he : x.event.counts = false) : x.outstanding t k = k := by
  unfold Step.outstanding
  split
  · split <;> first | rfl | (rename_i hx; rw [hx] at he; cases he)
  · rfl

theorem suspendedSince_cons {x : Step} (h₁ : suspensions t (x :: h) ≠ 0) (h₀ : suspensions t h ≠ 0) :
    suspendedSince t (x :: h) = suspendedSince t h := by
  rw [suspendedSince, if_neg h₁, if_neg h₀]

theorem Tallied.keep (hT : Tallied t h s) {x : Step} (hk : x.outstanding t (suspensions t h) = suspensions t h)
    (hheld : (s'.file t).Held (suspensions t h)) (hdue : 0 < suspensions t h → DueKept (s.deadline t) (s'.deadline t))
    (hsince : 0 < suspensions t h → ∀ f₀, File.Since f₀ (s.file t) → File.Since f₀ (s'.file t)) : Tallied t (x :: h) s' := by
  have hcount : suspensions t (x :: h) = suspensions t h := hk
  refine ⟨by rw [hcount]; exact hheld, fun hpos => ?_⟩
  rw [hcount] at hpos
  obtain ⟨s₀, h₀, hs₀, hd₀⟩ := hT.since hpos
  exact ⟨s₀, by rw [suspendedSince_cons (by omega) (by omega), h₀], hsince hpos _ hs₀, IsTrans.trans _ _ _ hd₀ (hdue hpos)⟩

theorem Tallied.same (hT : Tallied t h s) {x : Step} (hk : x.outstanding t (suspensions t h) = suspensions t h)
    (hdue : 0 < suspensions t h → DueKept (s.deadline t) (s'.deadline t)) (hf : s'.file t = s.file t) : Tallied t (x :: h) s' :=
  hT.keep hk (hf ▸ hT.held) hdue fun _ _ h₀ => hf ▸ h₀

theorem Ready.cur_not_held (H : Ready cfg s a) (hcur : s.tcbCurPtr = some t) : (s.file t).state.isHeld = false := by
  rcases H.cur_state hcur with hs | hs <;> rw [hs] <;> rfl

theorem Tallied.due (H : Ready cfg s a) (hT : Tallied t h s) (hx : Prog.Runs cfg e.exec s r s')
    (hpos : 0 < suspensions t h) : DueKept (s.deadline t) (s'.deadline t) := by
  refine Event.deadline hx fun hc => ?_
  have hh := hT.held.iff.mpr hpos
  rw [H.cur_not_held hc] at hh
  cases hh

theorem Tallied.other (H : Ready cfg s a) (hT : Tallied t h s) (hx : Prog.Runs cfg e.exec s r s') (hF : Filed s e r s')
    (he : e.counts = false) : Tallied t (⟨s, e, r⟩ :: h) s' := by
  have hk : Step.outstanding ⟨s, e, r⟩ t (suspensions t h) = suspensions t h := Step.outstanding_of_not_counts he
  have hdue (hpos : 0 < suspensions t h) := hT.due H hx hpos
  rcases hF t with hf | hf
  · exact hT.same hk hdue hf
  · have hturn := hf.turn
    cases hh : (s.file t).state.isHeld with
    | false =>
      have h0 : suspensions t h = 0 := by
        by_contra h0
        rw [hT.held.iff.mpr (by omega)] at hh
        cases hh
      have hfree := hturn.free he hh
      refine hT.keep hk ?_ hdue (by omega)
      rw [h0]
      exact File.held_zero hfree
    | true =>
      have hpos := hT.held.iff.mp hh
      have hcur : s.tcbCurPtr ≠ some t := by
        intro hc
        rw [H.cur_not_held hc] at hh
        cases hh
      obtain ⟨hctr, hs⟩ := hturn.held he hcur hh
      have hstate : (s'.file t).state.isHeld = true := by
        rcases hs with hs | ⟨_, _, _, hs⟩ <;> rw [hs]
        · rfl
        · exact hh
      refine hT.keep hk ⟨by simp [hstate, hpos], fun _ => hctr.trans (hT.held.ctr hpos), hT.held.le⟩ hdue fun _ f₀ h₀ => ?_
      rcases hs with hs | ⟨m, c, k, hs⟩
      · exact .inl hs
      · rw [hs]
        exact h₀.mail m c k

theorem Answers.about {g : File → File} {W : TcbId → Prop} {x : Err} (hA : Answers g W x s s') (t : TcbId) :
    x ≠ .none ∧ s'.file t = s.file t ∨ (∃ u, W u ∧ u ≠ t) ∧ s'.file t = s.file t ∨
      x = .none ∧ W t ∧ s'.file t = g (s.file t) := by
  rcases hA with ⟨hx, u, hu, hf⟩ | ⟨hx, hf⟩
  · right
    by_cases ht : u = t
    · subst ht
      exact .inr ⟨hx, hu, by rw [hf, Function.update_self]⟩
    · refine .inl ⟨⟨u, hu, ht⟩, ?_⟩
      rw [hf, Function.update_of_ne (Ne.symm ht)]
  · exact .inl ⟨hx, congrFun hf t⟩

theorem Tallied.suspend (hT : Tallied t h s) {p : Option TcbId} {x : Err} (H : Ready cfg s a)
    (ho : ¬ Oversuspends h ⟨s, .call (.taskSuspend p), some { err := x }⟩) (hdue : DueKept (s.deadline t) (s'.deadline t))
    (hA : Answers File.suspended (fun t => s.Target p t ∧ (s.file t).state ≠ .del ∧ s.intNestingCtr = 0) x s s') :
    Tallied t (⟨s, .call (.taskSuspend p), some { err := x }⟩ :: h) s' := by
  rcases hA.about t with ⟨hx, hf⟩ | ⟨⟨u, hu, hne⟩, hf⟩ | ⟨rfl, ⟨ht, hd, hint⟩, hf⟩
  · exact hT.same (by simp [Step.outstanding, hx]) (fun _ => hdue) hf
  · have hnot : ¬ s.Target p t := fun ht => hne (hu.1.unique ht)
    exact hT.same (by simp [Step.outstanding, hnot]) (fun _ => hdue) hf
  · have hk : suspensions t (⟨s, .call (.taskSuspend p), some { err := .none }⟩ :: h) = suspensions t h + 1 := by
      simp [suspensions, Step.outstanding, ht]
    have hlt : suspensions t h < 256 := by
      rcases ht with rfl | ⟨rfl, hcur⟩
      · by_contra hge
        exact ho ⟨hint, by omega⟩
      · have hfree := H.cur_not_held hcur
        by_contra hge
        rw [hT.held.iff.mpr (by omega)] at hfree
        cases hfree
    refine ⟨by rw [hk, hf]; exact hT.held.suspended hd hlt, fun _ => ?_⟩
    cases hh : (s.file t).state.isHeld with
    | false =>
      have h0 : suspensions t h = 0 := by
        by_contra h0
        rw [hT.held.iff.mpr (by omega)] at hh
        cases hh
      refine ⟨s, by rw [suspendedSince, if_neg (by omega), if_pos h0], ?_, hdue⟩
      rw [hf]
      exact File.since_suspended hh hd
    | true =>
      have hpos := hT.held.iff.mp hh
      obtain ⟨s₀, h₀, hs₀, hd₀⟩ := hT.since hpos
      refine ⟨s₀, by rw [suspendedSince_cons (by omega) (by omega), h₀], ?_, IsTrans.trans _ _ _ hd₀ hdue⟩
      rw [hf, File.suspended_of_held hh]
      exact hs₀.count _

theorem Tallied.resume (hT : Tallied t h s) {p : Option TcbId} {x : Err} (hdue : DueKept (s.deadline t) (s'.deadline t))
    (hA : Answers File.resumed (fun t => p = some t ∧ (s.file t).state.isHeld = true) x s s') :
    Tallied t (⟨s, .call (.taskResume p), some { err := x }⟩ :: h) s' := by
  rcases hA.about t with ⟨hx, hf⟩ | ⟨⟨u, hu, hne⟩, hf⟩ | ⟨rfl, ⟨rfl, hh⟩, hf⟩
  · exact hT.same (by simp [Step.outstanding, hx]) (fun _ => hdue) hf
  · exact hT.same (by simp [Step.outstanding, hu.1, hne]) (fun _ => hdue) hf
  · have hk : suspensions t (⟨s, .call (.taskResume (some t)), some { err := .none }⟩ :: h) = suspensions t h - 1 := by
      simp [suspensions, Step.outstanding]
    refine ⟨by rw [hk, hf]; exact hT.held.resumed hh, fun hpos => ?_⟩
    rw [hk] at hpos
    obtain ⟨s₀, h₀, hs₀, hd₀⟩ := hT.since (by omega)
    refine ⟨s₀, by rw [suspendedSince_cons (by omega) (by omega), h₀], ?_, IsTrans.trans _ _ _ hd₀ hdue⟩
    rw [hf, hT.held.resumed_shape hh, if_neg (by omega)]
    exact hs₀.count _

theorem Tallied.anew (hT : Tallied t h s) {e : Event} {g : File → File} {W : TcbId → Prop} {x : Err}
    (hA : Answers g W x s s') (hdue : DueKept (s.deadline t) (s'.deadline t)) (hW : ∀ u, W u → u ≠ t → ¬ W t)
    (hg : ∀ f, (g f).state.isHeld = false)
    (hin : W t → Step.outstanding ⟨s, e, some { err := .none }⟩ t (suspensions t h) = 0)
    (hout : x ≠ .none ∨ ¬ W t → Step.outstanding ⟨s, e, some { err := x }⟩ t (suspensions t h) = suspensions t h) :
    Tallied t (⟨s, e, some { err := x }⟩ :: h) s' := by
  rcases hA.about t with ⟨hx, hf⟩ | ⟨⟨u, hu, hne⟩, hf⟩ | ⟨rfl, ht, hf⟩
  · exact hT.same (hout (.inl hx)) (fun _ => hdue) hf
  · exact hT.same (hout (.inr (hW u hu hne))) (fun _ => hdue) hf
  · have hk : suspensions t (⟨s, e, some { err := .none }⟩ :: h) = 0 := hin ht
    refine ⟨?_, by omega⟩
    rw [hk, hf]
    exact File.held_zero (hg _)

theorem runs_errOnly {m : K Err} {Q : Err → OS → Prop} (hx : Prog.Runs cfg (errOnly m) s r s')
    (hm : ∀ n : ℕ, wp n cfg m Q s) : ∃ x, r = some { err := x } ∧ Q x s' := by
  apply hx.wp (Q := fun r s' => ∃ x, r = some { err := x } ∧ Q x s')
  exact fun n => wp_errOnly.mpr ((hm n).mono fun x _ h => ⟨x, rfl, h⟩)

theorem Tallied.step (H : Ready cfg s a) (hT : Tallied t h s) (ho : ¬ Oversuspends h ⟨s, e, r⟩)
    (hx : Prog.Runs cfg e.exec s r s') (hF : Filed s e r s') : Tallied t (⟨s, e, r⟩ :: h) s' := by
  by_cases he : e.counts = false
  · exact hT.other H hx hF he
  · match e, he with
    | .call (.taskSuspend p), _ =>
      obtain ⟨x, rfl, hA, hdue⟩ := runs_errOnly hx fun n => (osTaskSuspend_file p).and (defers_osTaskSuspend (t := t) p n cfg s)
      exact hT.suspend H ho hdue hA
    | .call (.taskResume p), _ =>
      obtain ⟨x, rfl, hA, hdue⟩ := runs_errOnly hx fun n => (osTaskResume_file p).and (defers_osTaskResume (t := t) p n cfg s)
      exact hT.resume hdue hA
    | .call (.taskDel p), _ =>
      obtain ⟨x, rfl, hA, hdue⟩ := runs_errOnly hx fun n => (osTaskDel_file p).and (defers_osTaskDel (t := t) p n cfg s)
      refine hT.anew hA hdue (fun u hu hne ht => hne (hu.unique ht)) (fun _ => rfl) (fun ht => ?_) fun hn => ?_
      · simp [Step.outstanding, ht]
      · rcases hn with hn | hn <;> simp [Step.outstanding, hn]
    | .call (.taskCreate args), _ =>
      obtain ⟨x, rfl, hA, hdue⟩ := runs_errOnly hx fun n => (osTaskCreate_file args).and
        (defers_osTaskCreate (t := t) args n cfg s)
      refine hT.anew hA hdue (fun u hu hne ht => hne (Option.some_inj.mp (hu.symm.trans ht))) (fun _ => rfl)
        (fun ht => ?_) fun hn => ?_
      · simp [Step.outstanding, ht]
      · rcases hn with hn | hn <;> simp [Step.outstanding, hn]

end runs

section resume

def OS.unscheduled (s : OS) := (s.tcb, s.obj, s.pendData, s.tickWheel)

theorem keeps_unscheduled_osSched : Keeps OS.unscheduled osSched := keeps_osSched (fun _ _ _ => rfl) fun _ _ _ => rfl

def OS.Resumed (s s' : OS) (t : TcbId) : Prop :=
  ∃ st c, s'.unscheduled = (s.modTcb t fun b => { b with taskState := st, suspendCtr := c }).unscheduled

theorem resumeInto_resumed (st : TaskState) : wp n cfg (resumeInto t st) (fun _ s' => s.Resumed s' t) s := by
  rw [resumeInto, wp_bind, wp_modTcb, wp_bind, wp_getTcb, wp_ite]
  constructor
  · intro _
    exact wp_modTcb.mpr ⟨st, (s.tcb t).suspendCtr - 1, by simp [OS.unscheduled, OS.modTcb]⟩
  · intro _
    exact wp_pure.mpr ⟨(s.tcb t).taskState, (s.tcb t).suspendCtr - 1, by simp [OS.unscheduled, OS.modTcb]⟩

theorem osTaskResume_resumed : wp n cfg (osTaskResume (some t)) (fun x s' => x = .none →
    (s.tcb t).taskState ≠ .suspended → s.Resumed s' t) s := by
  have hout {x : Err} (hx : x ≠ .none) (s' : OS) : x = .none → (s.tcb t).taskState ≠ .suspended → s.Resumed s' t :=
    fun h => absurd h hx
  rw [osTaskResume, wp_bind, wp_get, wp_ite]
  refine ⟨fun _ => wp_pure.mpr (hout (by simp) s), fun _ => wp_ite.mpr ⟨fun _ => wp_pure.mpr (hout (by simp) s), fun _ => ?_⟩⟩
  rw [wp_bind, wp_deref]
  rintro _ ⟨⟩
  rw [taskResume, wp_bind, resumeTcb, wp_bind, wp_getTcb]
  have hend {x : Err} {s₁ : OS} (hR : x = .none → (s.tcb t).taskState ≠ .suspended → s.Resumed s₁ t) :
      wp n cfg (if x = .stateInvalid then pure x else osSched >>= fun _ => pure x)
        (fun x s' => x = .none → (s.tcb t).taskState ≠ .suspended → s.Resumed s' t) s₁ := by
    rw [wp_ite]
    refine ⟨fun _ => wp_pure.mpr hR, fun _ => ?_⟩
    rw [wp_bind]
    refine (keeps_unscheduled_osSched n cfg s₁).mono fun _ s₂ h₂ => wp_pure.mpr fun hx hs => ?_
    obtain ⟨st, c, h₁⟩ := hR hx hs
    exact ⟨st, c, h₂.trans h₁⟩
  cases hst : (s.tcb t).taskState with
  | rdy | dly | pend | pendTimeout | del => exact wp_pure.mpr (hst ▸ hend (hout (by simp) s))
  | suspended => exact fun _ _ _ _ _ _ _ hs => absurd rfl hs
  | dlySuspended =>
    rw [wp_bind]
    exact (resumeInto_resumed .dly).mono fun _ s₁ h₁ => wp_pure.mpr (hst ▸ hend fun _ _ => h₁)
  | pendSuspended =>
    rw [wp_bind]
    exact (resumeInto_resumed .pend).mono fun _ s₁ h₁ => wp_pure.mpr (hst ▸ hend fun _ _ => h₁)
  | pendTimeoutSuspended =>
    rw [wp_bind]
    exact (resumeInto_resumed .pendTimeout).mono fun _ s₁ h₁ => wp_pure.mpr (hst ▸ hend fun _ _ => h₁)

end resume

section result

structure Placed (cfg : Cfg) (s : OS) (t : TcbId) : Prop where
  timed : (s.tcb t).taskState.isTimed = true →
    (s.tcb t).tickSpokePtr = some ((s.tcb t).tickCtrMatch.toNat % cfg.tickWheelSize) ∧
    ∃! k, s.spokeAt ((s.tcb t).tickCtrMatch.toNat % cfg.tickWheelSize) k = some t
  untimed : (s.tcb t).taskState.isTimed = false → (s.tcb t).tickSpokePtr = none
  on : ∀ i < cfg.tickWheelSize, (∃ k, s.spokeAt i k = some t) ↔
    (s.tcb t).taskState.isTimed = true ∧ (s.tcb t).tickCtrMatch.toNat % cfg.tickWheelSize = i

theorem Ready.placed (H : Ready cfg s a) (hW : a.WheelOk) : Placed cfg s t := by
  have hagree := H.wheelAgrees hW
  refine ⟨fun ht => ⟨(hagree.linked t ht).1, (hagree.linked t ht).2.1⟩, fun ht => ?_, fun i hi => ⟨fun ⟨k, hk⟩ => ?_, ?_⟩⟩
  · obtain ⟨V, hV, hon⟩ := H.rep.wheel hW.ok
    refine hV.off t fun i hi => ?_
    have htw := (hon t).mpr ⟨i, hi⟩
    rw [hW.iff, ← H.rep.state, ht] at htw
    cases htw
  · cases ht : (s.tcb t).taskState.isTimed with
    | false => exact absurd hk (hagree.off t ht i hi k)
    | true =>
      refine ⟨rfl, ?_⟩
      by_contra hne
      exact (hagree.linked t ht).2.2 i hi (Ne.symm hne) k hk
  · rintro ⟨ht, rfl⟩
    exact (hagree.linked t ht).2.1.exists

/-- The task waits as it did in `s₀`: in the same way, for the same objects with the same entries, until the same tick
and in the same place of the tick wheel. -/
structure SameWait (cfg : Cfg) (s₀ s : OS) (t : TcbId) : Prop where
  state : (s.tcb t).taskState = (s₀.tcb t).taskState
  pendOn : (s.tcb t).pendOn = (s₀.tcb t).pendOn
  table : (s.tcb t).table = (s₀.tcb t).table
  objs : ∀ i, (s.pendData (t, i)).pendObjPtr = (s₀.pendData (t, i)).pendObjPtr
  flags : (s.tcb t).flagsPend = (s₀.tcb t).flagsPend ∧ (s.tcb t).flagsOpt = (s₀.tcb t).flagsOpt
  due : (s.tcb t).taskState.isTimed = true → (s.tcb t).tickCtrMatch = (s₀.tcb t).tickCtrMatch
  spoke : (s.tcb t).tickSpokePtr = (s₀.tcb t).tickSpokePtr
  wheel : ∀ i < cfg.tickWheelSize, (∃ k, s.spokeAt i k = some t) ↔ ∃ k, s₀.spokeAt i k = some t
  linked : (s.tcb t).taskState.isTimed = true →
    ∃! k, s.spokeAt ((s.tcb t).tickCtrMatch.toNat % cfg.tickWheelSize) k = some t

/-- The suspensions of `t` have nested up to the state `s`. -/
structure Nested (cfg : Cfg) (t : TcbId) (h : List Step) (s : OS) : Prop where
  off : 0 < suspensions t h → ∀ p < cfg.prioMax, t ∉ s.rdyTasks p
  last : ∀ s₁ x h', h = ⟨s₁, .call (.taskResume (some t)), some x⟩ :: h' → x.err = .none → suspensions t h' = 1 →
    if (s₁.tcb t).taskState = .suspended then (s.tcb t).taskState = .rdy ∧ (s.rdyTasks (s.tcb t).prio).count t = 1
    else s₁.Resumed s t ∧ ∃ s₀, suspendedSince t h' = some s₀ ∧ SameWait cfg s₀ s t

theorem File.Since.sameWait {s₀ : OS} (hS : (s₀.file t).Since (s.file t)) (hs : (s.file t).state ≠ .suspended)
    (hf : s'.file t = { s.file t with suspendCtr := 0, state := (s.file t).state.unsuspended })
    (hk : DueKept (s₀.deadline t) (s'.deadline t)) (h₀ : Placed cfg s₀ t) (h' : Placed cfg s' t) : SameWait cfg s₀ s' t := by
  obtain ⟨hst, m, c, k, hfile⟩ := hS.resolve_left hs
  rw [hfile] at hf
  have hstate : (s'.tcb t).taskState = (s₀.tcb t).taskState := (congrArg File.state hf :).trans hst
  have hdue (ht : (s'.tcb t).taskState.isTimed = true) : s'.deadline t = s₀.deadline t := by
    refine hk.resolve_left fun hnone => ?_
    have hspoke : (s'.tcb t).tickSpokePtr = none := hnone
    rw [(h'.timed ht).1] at hspoke
    cases hspoke
  have hmatch (ht : (s'.tcb t).taskState.isTimed = true) : (s'.tcb t).tickCtrMatch = (s₀.tcb t).tickCtrMatch :=
    (congrArg Prod.snd (hdue ht) :)
  refine ⟨hstate, (congrArg File.pendOn hf :), (congrArg File.table hf :),
    fun i => (congrArg (fun f : File => (f.row i).1) hf :), ⟨(congrArg File.flagsPend hf :), (congrArg File.flagsOpt hf :)⟩,
    hmatch, ?_, fun i hi => ?_, fun ht => (h'.timed ht).2⟩
  · cases ht : (s'.tcb t).taskState.isTimed with
    | true => exact (congrArg Prod.fst (hdue ht) :)
    | false => rw [h'.untimed ht, h₀.untimed (hstate ▸ ht)]
  · rw [h'.on i hi, h₀.on i hi, ← hstate]
    exact and_congr_right fun ht => by rw [hmatch ht]

/-- What the steps of such a run keep to: no delay until a passed tick, no flag post that ends the timed wait of a
suspended task, and no 257th suspension at once. -/
def Nests (cfg : Cfg) (h : List Step) (x : Step) : Prop :=
  ¬ PassedMatch cfg x.pre x.event ∧ ¬ FlagHit x.pre x.event ∧ ¬ Oversuspends h x

theorem Run.placed (run : Run cfg (Nests cfg) h s) : Placed cfg s t := by
  obtain ⟨a, H, hW⟩ := run.invariant (I := fun _ => Abs.WheelOk) (fun _ _ => And.left) Abs.wheelOk_init
    fun _ _ _ _ _ _ H hW _ hk hstep => hstep.wheelOk H hk.1 hk.2.1 hW
  exact H.placed hW

theorem Run.placed_since (run : Run cfg (Nests cfg) h s) {s₀ : OS} (h₀ : suspendedSince t h = some s₀) : Placed cfg s₀ t := by
  induction run with
  | init => cases h₀
  | step run _ _ _ ih =>
    rw [suspendedSince] at h₀
    split at h₀
    · cases h₀
    · split at h₀
      · cases h₀
        exact Run.placed run
      · exact ih h₀

theorem Run.tallied (run : Run cfg (Nests cfg) h s) : (∃ a, Ready cfg s a) ∧ Tallied t h s := by
  apply run.files (I := Tallied t) (fun _ _ hP => hP.1)
  · intro s h0
    refine ⟨File.held_zero ?_, by simp [suspensions]⟩
    rcases (h0 t).1 with hs | hs <;> rw [hs] <;> rfl
  · intro h s a e r s' a' H hT _ hP hx hF _ _
    exact hT.step H hP.2.2 hx hF

/-- In a run in which no task is suspended more than 256 times at once, suspensions nest. -/
theorem run_suspensions (run : CodeRun cfg (Nests cfg) h s) (hfit : NoWrap cfg h) : Nested cfg t h s := by
  replace run : Run cfg (Nests cfg) h s := run.fits hfit .nat
  obtain ⟨⟨a, H⟩, hT⟩ := run.tallied (t := t)
  have hready (hs : (s.tcb t).taskState = .rdy) : (s.rdyTasks (s.tcb t).prio).count t = 1 := by
    have hmem : t ∈ a.ready (s.tcb t).prio := (H.sound.ready t _).mpr ⟨(H.rep.state t).symm.trans hs, (H.rep.prio t).symm⟩
    have hp := H.rep.rdy.lists.lt_of_mem hmem
    rw [H.rep.rdyTasks_eq hp]
    exact List.count_eq_one_of_mem (H.rep.rdy.lists.list _ hp).dlist.nodup hmem
  refine ⟨fun hpos p hp hmem => ?_, ?_⟩
  · rw [H.rep.rdyTasks_eq hp] at hmem
    have hst : (s.file t).state = .rdy := (H.rep.state t).trans ((H.sound.ready t p).mp hmem).1
    have hh := hT.held.iff.mpr hpos
    rw [hst] at hh
    cases hh
  · rintro s₁ x h' rfl hx h1
    have hplaced : Placed cfg s t := run.placed
    obtain _ | ⟨run', -, hexec, -⟩ := run
    obtain ⟨-, hT'⟩ := Run.tallied (t := t) run'
    have hh : (s₁.file t).state.isHeld = true := hT'.held.iff.mpr (by omega)
    obtain ⟨y, hy, ⟨hA, hR⟩, hdue⟩ := runs_errOnly hexec fun n =>
      ((osTaskResume_file (some t)).and osTaskResume_resumed).and (defers_osTaskResume (t := t) (some t) n cfg s₁)
    have hy0 : y = .none := by
      cases hy
      exact hx
    have hfile : s.file t = { s₁.file t with suspendCtr := 0, state := (s₁.file t).state.unsuspended } := by
      rcases hA.about t with ⟨hn, -⟩ | ⟨⟨u, hu, hne⟩, -⟩ | ⟨-, -, hf⟩
      · exact absurd hy0 hn
      · exact absurd (Option.some_inj.mp hu.1).symm hne
      · rw [hf, hT'.held.resumed_shape hh, h1]
        rfl
    split
    · rename_i hs
      have hst : (s.tcb t).taskState = .rdy := by
        have hun : (s.tcb t).taskState = (s₁.tcb t).taskState.unsuspended := congrArg File.state hfile
        rw [hun, hs]
        rfl
      exact ⟨hst, hready hst⟩
    · rename_i hs
      obtain ⟨s₀, h₀, hS, hd₀⟩ := hT'.since (by omega)
      have hkept : DueKept (s₀.deadline t) (s.deadline t) := IsTrans.trans _ _ _ hd₀ hdue
      exact ⟨hR hy0 hs, s₀, h₀, hS.sameWait hs hfile hkept (Run.placed_since run' h₀) hplaced⟩

/-- A task that waits with a timeout is suspended twice and resumed twice, and waits on. -/
theorem run_suspensions_twice : ∃ h s, CodeRun Cfg.repository (Nests Cfg.repository) h s ∧ NoWrap Cfg.repository h ∧
    suspensions 4 h = 0 ∧ suspensions 4 h.tail = 1 ∧ (s.tcb 4).taskState = .pendTimeout ∧ Nested Cfg.repository 4 h s := by
  let script : List Event := [.newTask 4 5, .newTask 5 6, .call (.semCreate (some 0) 0), .start,
    .call (.semPend (some 0) 7 optPendBlocking), .call (.taskSuspend (some 4)), .call (.taskSuspend (some 4)),
    .call (.taskResume (some 4)), .call (.taskResume (some 4))]
  obtain ⟨h, s, run, hfit, h0, h1, hs⟩ := RunIn.of_play .word Cfg.repository
    (fun h x => (¬ PassedMatch Cfg.repository x.pre x.event ∧ ¬ Oversuspends h x) ∧ x.event ∈ script) 60
    (fun h s => suspensions 4 h = 0 ∧ suspensions 4 h.tail = 1 ∧ (s.tcb 4).taskState = .pendTimeout) script (by decide +kernel)
  have run' : CodeRun Cfg.repository (Nests Cfg.repository) h s := by
    apply run.mono
    rintro _ ⟨s₀, e, r⟩ ⟨⟨hp, ho⟩, hmem⟩
    change e ∈ script at hmem
    simp only [script, List.mem_cons, List.not_mem_nil, or_false] at hmem
    obtain rfl | rfl | rfl | rfl | rfl | rfl | rfl | rfl | rfl := hmem <;> exact ⟨hp, id, ho⟩
  exact ⟨h, s, run', hfit, h0, h1, hs, run_suspensions run' hfit⟩

/-- The first resumption after 257 suspensions makes the task ready. -/
theorem suspensions_wrap : ∃ h s, CodeRun Cfg.repository (fun _ _ => True) h s ∧ suspensions 5 h = 256 ∧ 5 ∈ s.rdyTasks 6 ∧
    ¬ Nested Cfg.repository 5 h s := by
  obtain ⟨h, s, run, -, hn, hmem⟩ := RunIn.of_play .word Cfg.repository (fun _ _ => True) 60
    (fun h s => suspensions 5 h = 256 ∧ 5 ∈ s.rdyTasks 6)
    ([.newTask 4 5, .newTask 5 6, .start] ++
      List.replicate 257 (.call (.taskSuspend (some 5))) ++ [.call (.taskResume (some 5))]) (by decide +kernel)
  exact ⟨h, s, run, hn, hmem, fun hN => hN.off (by omega) 6 (by decide) hmem⟩

end result

end UcosIII
