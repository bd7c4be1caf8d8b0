import UcosIII.Abstract.FileCalls
import UcosIII.Kernel.Script

namespace UcosIII

open Prog

variable {cfg : Cfg} {s s' : OS} {a : Abs} {t : TcbId} {e : Event} {r : Option Ret} {h : List Step} {f f' : File}

/-- Nothing is there for the tasks that wait for their own semaphore or queue. -/
def OS.NothingThere (s : OS) : Prop :=
  ∀ t, ((s.tcb t).pendOn = .taskSem → (s.tcb t).semCtr = 0) ∧ ((s.tcb t).pendOn = .taskQ → (s.tcb t).msgQ.nbrEntries = 0)

/-- `OSTaskSemSet` at task level gives signals to a task that waits for one. -/
def SetsWaiter (s : OS) : Event → Prop
  | .call (.taskSemSet p cnt) => s.intNestingCtr = 0 ∧ cnt ≠ 0 ∧ ∃ t, s.Target p t ∧ (s.tcb t).pendOn = .taskSem
  | _ => False

section step

namespace File

def Empty (f : File) : Prop := (f.pendOn = .taskSem → f.semCtr = 0) ∧ (f.pendOn = .taskQ → f.msgs = 0)

theorem empty_of_nothing (h : f.pendOn = .nothing) : f.Empty := by
  constructor
  · intro hp
    rw [h] at hp
    cases hp
  · intro hp
    rw [h] at hp
    cases hp

theorem empty_woken (f : File) (st : PendStatus) : (f.woken st).Empty := empty_of_nothing rfl

theorem Empty.state (hf : f.Empty) (st : TaskState) (c : BitVec 8) : Empty { f with state := st, suspendCtr := c } := hf

theorem Empty.turn (hf : f.Empty) (hT : f.Turn s e r t f') (hpend : f.pendOn ≠ .nothing ↔ f.state.isPend = true)
    (hcur : s.tcbCurPtr = some t → f.state.isPend = false)
    (hset : ∀ p cnt, e = .call (.taskSemSet p cnt) → s.intNestingCtr = 0 → s.Target p t → f.pendOn = .taskSem → cnt = 0) :
    f'.Empty := by
  have hidle (hc : s.tcbCurPtr = some t) : f.pendOn = .nothing := by
    by_contra hne
    have hp := hpend.mp hne
    rw [hcur hc] at hp
    cases hp
  cases hT with
  | fresh | erased => exact empty_of_nothing rfl
  | posted | flagged | aborted => exact empty_woken _ _
  | flagPosts _ hc | delayed _ hc | semTaken _ hc | rows _ hc | flagsRdy _ hc | finished _ hc =>
    exact empty_of_nothing (hidle hc)
  | semSet he h0 ht => exact ⟨hset _ _ he h0 ht, hf.2⟩
  | msgs _ hk =>
    refine ⟨hf.1, fun hp => ?_⟩
    have hq : f.state.isPend = true ∧ f.pendOn = .taskQ := ⟨hpend.mp (by rw [show f.pendOn = _ from hp]; simp), hp⟩
    rcases hk with h0 | hc | hn
    · exact h0
    · rw [hidle hc] at hq
      cases hq.2
    · exact absurd hq hn
  | waits _ _ _ _ _ hsem hq => exact ⟨hsem, hq⟩
  | waitsMulti => exact ⟨by simp [waitsMulti], by simp [waitsMulti]⟩
  | suspended =>
    obtain ⟨st, c, h₁, -⟩ := f.suspended_shape
    rw [h₁]
    exact hf.state st c
  | resumed =>
    obtain ⟨st, c, h₁, -⟩ := f.resumed_shape
    rw [h₁]
    exact hf.state st c
  | signalled =>
    rcases f.signalled_shape s.tsNow with ⟨-, -, h₁⟩ | ⟨hn, c, h₁⟩
    · rw [h₁]
      exact empty_woken _ _
    · rw [h₁]
      refine ⟨fun hp => ?_, hf.2⟩
      exact absurd ⟨hpend.mp (by rw [show f.pendOn = _ from hp]; simp), hp⟩ hn
  | expired =>
    rcases f.expired_shape s.tsNow with ⟨-, h₁⟩ | ⟨st, h₁, -⟩
    · rw [h₁]
      exact empty_woken _ _
    · rw [h₁]
      exact hf.state st f.suspendCtr

end File

theorem nothingThere_iff : s.NothingThere ↔ ∀ t, (s.file t).Empty := Iff.rfl

theorem OS.NothingThere.step (hS : s.NothingThere) (H : Ready cfg s a) (hset : ¬ SetsWaiter s e) (hF : Filed s e r s') :
    s'.NothingThere := by
  rw [nothingThere_iff] at hS ⊢
  intro t
  rcases hF t with h | h
  · rw [h]
    exact hS t
  · apply (hS t).turn h.turn (H.pendOn_iff t) H.not_pend
    rintro p cnt rfl h0 ht hp
    by_contra hne
    exact hset ⟨h0, hne, t, ht, hp⟩

end step

def Event.setsSem : Event → Bool
  | call (.taskSemSet ..) => true
  | _ => false

theorem not_setsWaiter (he : e.setsSem = false) : ¬ SetsWaiter s e := by
  cases e with
  | call c =>
    cases c with
    | taskSemSet => cases he
    | _ => exact id
  | _ => exact id

end UcosIII
