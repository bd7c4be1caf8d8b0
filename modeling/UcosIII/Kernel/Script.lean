import UcosIII.Kernel.System

/-!
Runs that can be computed: a script is the list of the events of a run, the first event first, and is
played with a bound on the iterations of the loops.
-/

namespace UcosIII

instance (s : OS) (c : Call) : Decidable (c.Fair s) := inferInstanceAs (Decidable (_ ∧ _))

instance (s : OS) : Decidable s.atTask := inferInstanceAs (Decidable (_ ∧ _))

instance (s : OS) : (e : Event) → Decidable (Enabled s e)
  | .call c => inferInstanceAs (Decidable (c.Fair s ∧ _))
  | .finish => inferInstanceAs (Decidable (s.running = true ∧ s.intNestingCtr = 0 ∧ ∃ t ∈ s.tcbCurPtr, s.cont t ≠ .none))
  | .start => inferInstanceAs (Decidable (s.running = false))
  | .intEnter => inferInstanceAs (Decidable (s.running = true))
  | .intExit | .timeTick => inferInstanceAs (Decidable (s.running = true ∧ 0 < s.intNestingCtr))
  | .tickUpdate => inferInstanceAs (Decidable (s.atTask ∧ s.tcbCurPtr = some tickTaskTCB))
  | .clock _ => inferInstanceAs (Decidable True)

def Event.newTask (t : TcbId) (prio : ℕ) : Event :=
  .call (.taskCreate
    { tcb := some t, hasTask := true, prio := prio, hasStk := true, stkLimit := 10, stkSize := 100, qSize := 0,
      timeQuanta := 0 })

section script

variable (cfg : Cfg) (P : List Step → Step → Prop) [∀ h x, Decidable (P h x)] (n : ℕ)

def playFrom : List Event → List Step → OS → Option (List Step × OS)
  | [], h, s => some (h, s)
  | e :: es, h, s =>
    if Enabled s e then
      (e.exec.checked n cfg s).join.bind fun x => if P h ⟨s, e, x.1⟩ then playFrom es (⟨s, e, x.1⟩ :: h) x.2 else none
    else none

/-- The run of a script, if every event is possible and keeps to `P`, and no counter wraps. -/
def play (es : List Event) : Option (List Step × OS) :=
  (osInit.checked n cfg (OS.boot cfg)).join.bind fun x => playFrom cfg P n es [] x.2

variable {cfg P n}

theorem RunIn.of_playFrom {c : Reading} {es : List Event} {h h' : List Step} {s s' : OS} (run : RunIn c cfg P h s)
    (hfit : NoWrap cfg h) (hp : playFrom cfg P n es h s = some (h', s')) :
    RunIn c cfg P h' s' ∧ NoWrap cfg h' := by
  induction es generalizing h s with
  | nil =>
    cases hp
    exact ⟨run, hfit⟩
  | cons e es ih =>
    rw [playFrom] at hp
    split at hp
    · rename_i he
      obtain ⟨⟨r, s₁⟩, hx, hp⟩ := Option.bind_eq_some_iff.mp hp
      rw [Option.join_eq_some_iff] at hx
      split at hp
      · rename_i hk
        refine ih (.step run he (Prog.runsIn_of_checked hx c) hk) ?_ hp
        exact List.forall_mem_cons.mpr ⟨Prog.fits_of_checked hx, hfit⟩
      · cases hp
    · cases hp

theorem RunIn.of_play (c : Reading) (cfg : Cfg) (P : List Step → Step → Prop) [∀ h x, Decidable (P h x)] (n : ℕ)
    (Q : List Step → OS → Prop) [∀ h s, Decidable (Q h s)] (es : List Event)
    (hp : ((play cfg P n es).any fun x => Q x.1 x.2) = true) :
    ∃ h s, RunIn c cfg P h s ∧ NoWrap cfg h ∧ Q h s := by
  obtain ⟨⟨h, s⟩, hes, hQ⟩ := (Option.any_eq_true _ _).mp hp
  obtain ⟨⟨⟨⟩, s₀⟩, h0, hp⟩ := Option.bind_eq_some_iff.mp hes
  rw [Option.join_eq_some_iff] at h0
  obtain ⟨run, hfit⟩ := RunIn.of_playFrom (.init (Prog.runsIn_of_checked h0 c)) (fun x hx => by cases hx) hp
  exact ⟨h, s, run, hfit, of_decide_eq_true hQ⟩

/-- As `RunIn.of_play`, where the counters do not matter. -/
theorem Run.of_play (cfg : Cfg) (P : List Step → Step → Prop) [∀ h x, Decidable (P h x)] (n : ℕ)
    (Q : List Step → OS → Prop) [∀ h s, Decidable (Q h s)] (es : List Event)
    (hp : ((play cfg P n es).any fun x => Q x.1 x.2) = true) : ∃ h s, Run cfg P h s ∧ Q h s := by
  obtain ⟨h, s, run, -, hQ⟩ := RunIn.of_play .nat cfg P n Q es hp
  exact ⟨h, s, run, hQ⟩

end script

section codeScript

variable (cfg : Cfg) (P : Step → Prop) [DecidablePred P] (n : ℕ)

def codePlay : List Event → List Step → OS → Option (List Step × OS)
  | [], h, s => some (h, s)
  | e :: es, h, s =>
    if Enabled s e then
      (e.exec.run .word n cfg s).bind fun x => if P ⟨s, e, x.1⟩ then codePlay es (⟨s, e, x.1⟩ :: h) x.2 else none
    else none

variable {cfg P n}

theorem RunIn.of_codePlay {es : List Event} {h h' h₀ : List Step} {s s' : OS} (run : RunIn .word cfg (fun _ => P) (h ++ h₀) s)
    (hp : codePlay cfg P n es h s = some (h', s')) : RunIn .word cfg (fun _ => P) (h' ++ h₀) s' := by
  induction es generalizing h s with
  | nil =>
    cases hp
    exact run
  | cons e es ih =>
    rw [codePlay] at hp
    split at hp
    · rename_i he
      obtain ⟨⟨r, s₁⟩, hx, hp⟩ := Option.bind_eq_some_iff.mp hp
      split at hp
      · rename_i hk
        exact ih (h := ⟨s, e, r⟩ :: h) (.step run he ⟨n, hx⟩ hk) hp
      · cases hp
    · cases hp

theorem codePlay_events {es : List Event} {h h' : List Step} {s s' : OS} (hp : codePlay cfg P n es h s = some (h', s')) :
    h'.map Step.event = es.reverse ++ h.map Step.event := by
  induction es generalizing h s with
  | nil =>
    cases hp
    rfl
  | cons e es ih =>
    rw [codePlay] at hp
    split at hp
    · obtain ⟨⟨r, s₁⟩, -, hp⟩ := Option.bind_eq_some_iff.mp hp
      split at hp
      · rw [ih hp, List.map_cons, List.reverse_cons, List.append_assoc, List.singleton_append]
      · cases hp
    · cases hp

end codeScript

end UcosIII
