import Mathlib.Data.Set.Basic
import Mathlib.Tactic.Common
import Mathlib.Logic.Function.Basic

/-!
Programs on a state `σ` that may fault or fail to return, and that count. A program reads a bound on the
iterations of its loops and a constant environment `ρ`; it answers `none` when it faults (a null
dereference, an index past a table) or when a loop does not end within the bound. A program
returns when some bound gives an answer. Its counters are read as the words of the machine, which wrap, or as
natural numbers; where no counter wraps, the two readings agree.
-/

inductive Reading where
  | word
  | nat

/-- `checked` follows the program as long as its counters do not wrap, and answers `none` where one does. -/
structure Prog (ρ σ α : Type) where
  run : Reading → ℕ → ρ → σ → Option (α × σ)
  checked : ℕ → ρ → σ → Option (Option (α × σ))
  agree {n r s x} : checked n r s = some x → ∀ c, run c n r s = x
  more {c n n' r s x} : n ≤ n' → run c n r s = some x → run c n' r s = some x
  more_checked {n n' r s} : n ≤ n' → checked n r s ≠ some none → checked n' r s = checked n r s

namespace Prog

variable {ρ ρ' σ τ α β γ : Type}

instance : CoeFun (Prog ρ σ α) fun _ => ℕ → ρ → σ → Option (α × σ) := ⟨fun m => m.run .nat⟩

def plain (f : ρ → σ → Option (α × σ)) : Prog ρ σ α where
  run _ _ r s := f r s
  checked _ r s := some (f r s)
  agree h _ := Option.some.inj h
  more _ h := h
  more_checked _ _ := rfl

def fault : Prog ρ σ α := plain fun _ _ => none

def get : Prog ρ σ σ := plain fun _ s => some (s, s)

def ask : Prog ρ σ ρ := plain fun r s => some (r, s)

def modify (f : σ → σ) : Prog ρ σ Unit := plain fun _ s => some ((), f s)

def deref (p : Option α) : Prog ρ σ α := plain fun _ s => p.map fun a => (a, s)

def count (w k : ℕ) : Prog ρ σ ℕ where
  run c _ _ s := match c with
    | .word => some (w, s)
    | .nat => some (k, s)
  checked _ _ s := if w = k then some (some (k, s)) else none
  agree h c := by
    split at h
    · rename_i hw
      cases h
      cases c
      · rw [hw]
      · rfl
    · cases h
  more _ h := h
  more_checked _ _ := rfl

def andThen (m : Prog ρ σ α) (f : α → Prog ρ σ β) : Prog ρ σ β where
  run c n r s := (m.run c n r s).bind fun x => (f x.1).run c n r x.2
  checked n r s := (m.checked n r s).bind fun o => o.elim (some none) fun x => (f x.1).checked n r x.2
  agree {n r s x} h c := by
    obtain ⟨o, ho, hx⟩ := Option.bind_eq_some_iff.mp h
    rw [m.agree ho c]
    cases o with
    | none => exact Option.some.inj hx
    | some y => exact (f y.1).agree hx c
  more hn h := by
    obtain ⟨y, hy, hx⟩ := Option.bind_eq_some_iff.mp h
    rw [m.more hn hy]
    exact (f y.1).more hn hx
  more_checked {n n' r s} hn h := by
    have hm : m.checked n r s ≠ some none := fun hm => h (by rw [hm]; rfl)
    rw [m.more_checked hn hm]
    match hy : m.checked n r s with
    | none => rfl
    | some none => exact absurd hy hm
    | some (some y) =>
      rw [hy] at h
      exact (f y.1).more_checked hn h

instance : Monad (Prog ρ σ) where
  pure a := plain fun _ s => some (a, s)
  bind := andThen

/-- What `m` finds out with a bound, `m'` finds out too with the same bound or a larger one. -/
structure Below (m m' : Prog ρ σ α) : Prop where
  more {c n n' r s x} : n ≤ n' → m.run c n r s = some x → m'.run c n' r s = some x
  more_checked {n n' r s} : n ≤ n' → m.checked n r s ≠ some none → m'.checked n' r s = m.checked n r s

theorem below_refl (m : Prog ρ σ α) : Below m m := ⟨m.more, m.more_checked⟩

theorem below_fault (m : Prog ρ σ α) : Below fault m where
  more _ h := by cases h
  more_checked _ h := absurd rfl h

theorem below_bind {m m' : Prog ρ σ β} {f f' : β → Prog ρ σ α} (hm : Below m m') (hf : ∀ b, Below (f b) (f' b)) :
    Below (m >>= f) (m' >>= f') where
  more hn h := by
    obtain ⟨y, hy, hx⟩ := Option.bind_eq_some_iff.mp h
    exact Option.bind_eq_some_iff.mpr ⟨y, hm.more hn hy, (hf y.1).more hn hx⟩
  more_checked {n n' r s} hn h := by
    have hne : m.checked n r s ≠ some none := fun hm => h (by change Option.bind _ _ = _; rw [hm]; rfl)
    change Option.bind _ _ = Option.bind _ _
    rw [hm.more_checked hn hne]
    match hy : m.checked n r s with
    | none => rfl
    | some none => exact absurd hy hne
    | some (some y) => exact (hf y.1).more_checked hn fun hx => h (by change Option.bind _ _ = _; rw [hy]; exact hx)

theorem below_ite {c : Prop} [Decidable c] {m m' m₁ m₁' : Prog ρ σ α} (h : Below m m₁) (h' : Below m' m₁') :
    Below (if c then m else m') (if c then m₁ else m₁') := by
  split
  · exact h
  · exact h'

def bounded (f : ℕ → Prog ρ σ α) (h : ∀ {k k'}, k ≤ k' → Below (f k) (f k')) : Prog ρ σ α where
  run c n := (f n).run c n
  checked n := (f n).checked n
  agree hx := (f _).agree hx
  more hn := (h hn).more hn
  more_checked hn := (h hn).more_checked hn

def loopN (body : β → Prog ρ σ (β ⊕ α)) : ℕ → β → Prog ρ σ α
  | 0, _ => fault
  | k + 1, b => body b >>= fun
    | .inl b' => loopN body k b'
    | .inr a => pure a

theorem below_loopN (body : β → Prog ρ σ (β ⊕ α)) {k k' : ℕ} (hk : k ≤ k') (b : β) :
    Below (loopN body k b) (loopN body k' b) := by
  induction k generalizing k' b with
  | zero => exact below_fault _
  | succ k ih =>
    obtain ⟨k', rfl⟩ : ∃ j, k' = j + 1 := ⟨k' - 1, by omega⟩
    refine below_bind (below_refl _) fun
      | .inl b' => ih (by omega) b'
      | .inr a => below_refl _

def loop (body : β → Prog ρ σ (β ⊕ α)) (b : β) : Prog ρ σ α :=
  bounded (fun k => loopN body k b) fun hk => below_loopN body hk b

def zoom (env : ρ → ρ') (view : σ → τ) (put : τ → σ → σ) (m : Prog ρ' τ α) : Prog ρ σ α where
  run c n r s := (m.run c n (env r) (view s)).map fun x => (x.1, put x.2 s)
  checked n r s := (m.checked n (env r) (view s)).map fun o => o.map fun x => (x.1, put x.2 s)
  agree {n r s x} h c := by
    obtain ⟨o, ho, rfl⟩ := Option.map_eq_some_iff.mp h
    rw [m.agree ho c]
  more hn h := by
    obtain ⟨y, hy, rfl⟩ := Option.map_eq_some_iff.mp h
    exact Option.map_eq_some_iff.mpr ⟨y, m.more hn hy, rfl⟩
  more_checked {n n' r s} hn h := by
    have hm : m.checked n (env r) (view s) ≠ some none := fun hm => h (by rw [hm]; rfl)
    rw [m.more_checked hn hm]

/-- `m` run from `s` returns `a` and leaves `s'`, with the counters read in the one way or the other. -/
def RunsIn (c : Reading) (r : ρ) (m : Prog ρ σ α) (s : σ) (a : α) (s' : σ) : Prop := ∃ n, m.run c n r s = some (a, s')

/-- As `RunsIn`, with the counters as natural numbers. -/
abbrev Runs (r : ρ) (m : Prog ρ σ α) (s : σ) (a : α) (s' : σ) : Prop := RunsIn .nat r m s a s'

def Fits (r : ρ) (m : Prog ρ σ α) (s : σ) : Prop := ∀ n, m.checked n r s ≠ none

section fits

variable {r : ρ} {m : Prog ρ σ α} {s s' : σ} {a : α} {c c' : Reading} {n : ℕ}

theorem Fits.run_eq (h : Fits r m s) (c c' : Reading) (n : ℕ) : m.run c n r s = m.run c' n r s := by
  obtain ⟨x, hx⟩ := Option.ne_none_iff_exists'.mp (h n)
  rw [m.agree hx c, m.agree hx c']

theorem RunsIn.fits (hx : RunsIn c r m s a s') (h : Fits r m s) (c' : Reading) : RunsIn c' r m s a s' := by
  obtain ⟨n, hn⟩ := hx
  exact ⟨n, (h.run_eq c' c n).trans hn⟩

theorem fits_of_checked (h : m.checked n r s = some (some (a, s'))) : Fits r m s := by
  intro n' h'
  rcases le_total n n' with hn | hn
  · rw [m.more_checked hn (by rw [h]; simp), h] at h'
    cases h'
  · have hn' := m.more_checked hn (by rw [h']; simp)
    rw [h, h'] at hn'
    cases hn'

theorem fits_of_isSome (h : (m.checked n r s).join.isSome = true) : Fits r m s := by
  obtain ⟨⟨a, s'⟩, hx⟩ := Option.isSome_iff_exists.mp h
  exact fits_of_checked (Option.join_eq_some_iff.mp hx)

theorem runsIn_of_checked (h : m.checked n r s = some (some (a, s'))) (c : Reading) : RunsIn c r m s a s' :=
  ⟨n, m.agree h c⟩

theorem runsIn_of_any {p : α × σ → Bool} (h : (m.checked n r s).join.any p = true) (c : Reading) :
    ∃ a s', RunsIn c r m s a s' ∧ Fits r m s ∧ p (a, s') = true := by
  obtain ⟨⟨a, s'⟩, hx, hp⟩ := (Option.any_eq_true _ _).mp h
  rw [Option.join_eq_some_iff] at hx
  exact ⟨a, s', runsIn_of_checked hx c, fits_of_checked hx, hp⟩

end fits

section run

variable {c : Reading} {n : ℕ} {r : ρ} {s : σ}

@[simp] theorem pure_apply (a : α) : (pure a : Prog ρ σ α).run c n r s = some (a, s) := rfl

@[simp] theorem bind_apply (m : Prog ρ σ α) (f : α → Prog ρ σ β) :
    (m >>= f).run c n r s = (m.run c n r s).bind fun x => (f x.1).run c n r x.2 := rfl

@[simp] theorem fault_apply : (fault : Prog ρ σ α).run c n r s = none := rfl

@[simp] theorem get_apply : (get : Prog ρ σ σ).run c n r s = some (s, s) := rfl

@[simp] theorem ask_apply : (ask : Prog ρ σ ρ).run c n r s = some (r, s) := rfl

@[simp] theorem modify_apply (f : σ → σ) : (modify f : Prog ρ σ Unit).run c n r s = some ((), f s) := rfl

@[simp] theorem deref_apply (p : Option α) : (deref p : Prog ρ σ α).run c n r s = p.map fun a => (a, s) := rfl

@[simp] theorem count_apply (w k : ℕ) : (count w k : Prog ρ σ ℕ).run .nat n r s = some (k, s) := rfl

@[simp] theorem count_word (w k : ℕ) : (count w k : Prog ρ σ ℕ).run .word n r s = some (w, s) := rfl

@[simp] theorem ite_apply (p : Prop) [Decidable p] (m m' : Prog ρ σ α) :
    (if p then m else m').run c n r s = if p then m.run c n r s else m'.run c n r s := by
  split <;> rfl

end run

structure Bound where
  reading : Reading
  depth : ℕ

instance : Coe ℕ Bound := ⟨fun n => ⟨.nat, n⟩⟩

def wp (n : Bound) (r : ρ) (m : Prog ρ σ α) (Q : α → σ → Prop) (s : σ) : Prop :=
  ∀ a s', m.run n.reading n.depth r s = some (a, s') → Q a s'

section wp

variable {n : Bound} {r : ρ} {Q : α → σ → Prop} {s : σ}

@[simp] theorem wp_pure {a : α} : wp n r (pure a) Q s ↔ Q a s := by
  simp [wp]

@[simp] theorem wp_bind {m : Prog ρ σ β} {f : β → Prog ρ σ α} :
    wp n r (m >>= f) Q s ↔ wp n r m (fun b => wp n r (f b) Q) s := by
  simp only [wp, bind_apply]
  constructor
  · intro h b s' hm a s'' hf
    exact h a s'' (by simp [hm, hf])
  · intro h a s'' hmf
    obtain ⟨⟨b, s'⟩, hm, hf⟩ := Option.bind_eq_some_iff.mp hmf
    exact h b s' hm a s'' hf

@[simp] theorem wp_fault : wp n r (fault : Prog ρ σ α) Q s := by
  simp [wp]

@[simp] theorem wp_get {Q : σ → σ → Prop} : wp n r get Q s ↔ Q s s := by
  simp [wp]

@[simp] theorem wp_ask {Q : ρ → σ → Prop} : wp n r ask Q s ↔ Q r s := by
  simp [wp]

@[simp] theorem wp_modify {f : σ → σ} {Q : Unit → σ → Prop} : wp n r (modify f) Q s ↔ Q () (f s) := by
  constructor
  · intro h
    exact h () (f s) rfl
  · rintro h ⟨⟩ s' ⟨⟩
    exact h

@[simp] theorem wp_deref {p : Option α} : wp n r (deref p) Q s ↔ ∀ a, p = some a → Q a s := by
  cases p <;> simp [wp]

@[simp] theorem wp_count {n w k : ℕ} {Q : ℕ → σ → Prop} : wp n r (count w k) Q s ↔ Q k s := by
  simp [wp]

@[simp] theorem wp_count_word {n w k : ℕ} {Q : ℕ → σ → Prop} : wp ⟨.word, n⟩ r (count w k) Q s ↔ Q w s := by
  simp [wp]

@[simp] theorem wp_ite {c : Prop} [Decidable c] {m m' : Prog ρ σ α} :
    wp n r (if c then m else m') Q s ↔ (c → wp n r m Q s) ∧ (¬ c → wp n r m' Q s) := by
  split <;> simp [*]

theorem wp_zoom {env : ρ → ρ'} {view : σ → τ} {put : τ → σ → σ} {m : Prog ρ' τ α} :
    wp n r (zoom env view put m) Q s ↔ wp n (env r) m (fun a x => Q a (put x s)) (view s) := by
  constructor
  · intro h a x hm
    exact h a _ (Option.map_eq_some_iff.mpr ⟨(a, x), hm, rfl⟩)
  · rintro h a s' hm
    obtain ⟨⟨b, x⟩, hb, hx⟩ := Option.map_eq_some_iff.mp hm
    cases hx
    exact h b x hb

theorem wp.mono {m : Prog ρ σ α} {Q' : α → σ → Prop} (h : wp n r m Q s) (hQ : ∀ a s', Q a s' → Q' a s') :
    wp n r m Q' s := fun a s' hm => hQ a s' (h a s' hm)

/-- Whatever `m` does, what follows is right. -/
theorem wp_bind_any {m : Prog ρ σ β} {f : β → Prog ρ σ α} (h : ∀ b s', wp n r (f b) Q s') : wp n r (m >>= f) Q s :=
  wp_bind.mpr fun b s' _ => h b s'

theorem wp_bind_pure {m : Prog ρ σ β} {f : β → α} :
    wp n r (m >>= fun b => pure (f b)) Q s ↔ wp n r m (fun b => Q (f b)) s := by
  rw [wp_bind]
  constructor <;> exact fun h => h.mono fun _ _ h' => by simpa using h'

theorem wp.and {m : Prog ρ σ α} {Q' : α → σ → Prop} (h : wp n r m Q s) (h' : wp n r m Q' s) :
    wp n r m (fun a s' => Q a s' ∧ Q' a s') s := fun a s' hm => ⟨h a s' hm, h' a s' hm⟩

theorem wp_loop {body : β → Prog ρ σ (β ⊕ α)} (I : β → σ → Prop)
    (hbody : ∀ b s, I b s → wp n r (body b) (fun x s' => Sum.elim (fun b' => I b' s') (fun a => Q a s') x) s)
    {b : β} (hb : I b s) : wp n r (loop body b) Q s := by
  -- the bound on the iterations and the bound passed on to the body are separate in `loopN`
  suffices h : ∀ k b s, I b s → wp n r (loopN body k b) Q s from h n.depth b s hb
  intro k
  induction k with
  | zero => simp [loopN]
  | succ k ih =>
    intro b s hb
    rw [loopN, wp_bind]
    refine (hbody b s hb).mono ?_
    rintro (b' | a) s' h
    · exact ih b' s' h
    · simpa using h

end wp

theorem RunsIn.wp {r : ρ} {m : Prog ρ σ α} {s s' : σ} {a : α} {Q : α → σ → Prop} (h : Runs r m s a s')
    (hQ : ∀ n : ℕ, wp n r m Q s) : Q a s' := by
  obtain ⟨n, hn⟩ := h
  exact hQ n a s' hn

section fits

variable {r : ρ} {s : σ}

@[simp] theorem fits_plain {f : ρ → σ → Option (α × σ)} : Fits r (plain f) s := fun _ h => by cases h

@[simp] theorem fits_pure {a : α} : Fits r (pure a) s := fits_plain

theorem fits_count {w k : ℕ} (h : w = k) : Fits r (count w k) s := by
  intro n hn
  simp [count, h] at hn

theorem fits_bind {m : Prog ρ σ β} {f : β → Prog ρ σ α} (hm : Fits r m s)
    (hf : ∀ n : ℕ, wp n r m (fun b s' => Fits r (f b) s') s) : Fits r (m >>= f) s := by
  intro n h
  obtain ⟨x, hx⟩ := Option.ne_none_iff_exists'.mp (hm n)
  change Option.bind (m.checked n r s) _ = none at h
  rw [hx] at h
  cases x with
  | none => cases h
  | some y => exact hf n y.1 y.2 (m.agree hx .nat) n h

theorem fits_ite {c : Prop} [Decidable c] {m m' : Prog ρ σ α} (h : c → Fits r m s) (h' : ¬ c → Fits r m' s) :
    Fits r (if c then m else m') s := by
  split
  · exact h ‹_›
  · exact h' ‹_›

theorem fits_loop {body : β → Prog ρ σ (β ⊕ α)} (I : β → σ → Prop) (hfit : ∀ b s, I b s → Fits r (body b) s)
    (hbody : ∀ (n : ℕ) b s, I b s → wp n r (body b) (fun x s' => ∀ b', x = .inl b' → I b' s') s) {b : β} (hb : I b s) :
    Fits r (loop body b) s := by
  have h (k : ℕ) (b : β) (s : σ) (hb : I b s) : Fits r (loopN body k b) s := by
    induction k generalizing b s with
    | zero => exact fits_plain
    | succ k ih =>
      refine fits_bind (hfit b s hb) fun n => (hbody n b s hb).mono fun x s' hx => ?_
      cases x with
      | inl b' => exact ih b' s' (hx b' rfl)
      | inr a => exact fits_pure
  exact fun n => h n b s hb n

def Countless (m : Prog ρ σ α) : Prop := ∀ r s, Fits r m s

@[simp, grind ←] theorem countless_plain {f : ρ → σ → Option (α × σ)} : Countless (plain f) := fun _ _ => fits_plain

@[simp, grind ←] theorem countless_pure {a : α} : Countless (pure a : Prog ρ σ α) := fun _ _ => fits_pure

@[simp, grind ←] theorem countless_get : Countless (get : Prog ρ σ σ) := countless_plain

@[simp, grind ←] theorem countless_ask : Countless (ask : Prog ρ σ ρ) := countless_plain

@[simp, grind ←] theorem countless_modify {f : σ → σ} : Countless (modify f : Prog ρ σ Unit) := countless_plain

@[simp, grind ←] theorem countless_deref {p : Option α} : Countless (deref p : Prog ρ σ α) := countless_plain

@[simp, grind ←] theorem countless_fault : Countless (fault : Prog ρ σ α) := countless_plain

@[simp, grind ←] theorem countless_bind {m : Prog ρ σ β} {f : β → Prog ρ σ α} (hm : Countless m) (hf : ∀ b, Countless (f b)) :
    Countless (m >>= f) := fun r s => fits_bind (hm r s) fun _ b s' _ => hf b r s'

@[simp] theorem countless_ite {c : Prop} [Decidable c] {m m' : Prog ρ σ α} (h : Countless m) (h' : Countless m') :
    Countless (if c then m else m') := fun r s => fits_ite (fun _ => h r s) fun _ => h' r s

@[simp, grind ←] theorem countless_loop {body : β → Prog ρ σ (β ⊕ α)} (h : ∀ b, Countless (body b)) (b : β) :
    Countless (loop body b) := fun r _ => fits_loop (fun _ _ => True) (fun b s _ => h b r s)
      (fun _ _ _ _ _ _ _ _ _ => trivial) trivial

end fits

theorem wp_of_checked {r : ρ} {m : Prog ρ σ α} {s s' : σ} {a : α} {k : ℕ} (h : m.checked k r s = some (some (a, s')))
    (n : Bound) : wp n r m (fun b s'' => b = a ∧ s'' = s') s := by
  intro b s'' hb
  have ha := m.more (le_max_left k n.depth) (m.agree h n.reading)
  rw [m.more (le_max_right k n.depth) hb] at ha
  cases ha
  exact ⟨rfl, rfl⟩

def Keeps (v : σ → γ) (m : Prog ρ σ α) : Prop := ∀ (n : ℕ) r s, wp n r m (fun _ s' => v s' = v s) s

section Keeps

variable {v : σ → γ} {δ : Type}

theorem Keeps.comp {m : Prog ρ σ α} (h : Keeps v m) (g : γ → δ) : Keeps (fun s => g (v s)) m := by
  intro n r s
  exact (h n r s).mono fun _ _ h' => by simp only [h']

@[simp, grind ←] theorem keeps_pure (a : α) : Keeps v (pure a : Prog ρ σ α) := by
  intro n r s
  simp

@[simp, grind ←] theorem keeps_bind {m : Prog ρ σ β} {f : β → Prog ρ σ α} (hm : Keeps v m) (hf : ∀ b, Keeps v (f b)) :
    Keeps v (m >>= f) := by
  intro n r s
  rw [wp_bind]
  refine (hm n r s).mono ?_
  intro b s' h
  exact (hf b n r s').mono fun _ _ h' => h'.trans h

@[simp, grind ←] theorem keeps_fault : Keeps v (fault : Prog ρ σ α) := by
  intro n r s
  simp

@[simp, grind ←] theorem keeps_get : Keeps v (get : Prog ρ σ σ) := by
  intro n r s
  simp

@[simp, grind ←] theorem keeps_ask : Keeps v (ask : Prog ρ σ ρ) := by
  intro n r s
  simp

@[simp, grind ←] theorem keeps_deref (p : Option α) : Keeps v (deref p : Prog ρ σ α) := by
  intro n r s
  simp

@[simp, grind ←] theorem keeps_count (w k : ℕ) : Keeps v (count w k : Prog ρ σ ℕ) := by
  intro n r s
  simp

theorem keeps_modify {f : σ → σ} (h : ∀ s, v (f s) = v s) : Keeps v (modify f : Prog ρ σ Unit) := by
  intro n r s
  simp [h]

@[simp] theorem keeps_ite {c : Prop} [Decidable c] {m m' : Prog ρ σ α} (h : Keeps v m) (h' : Keeps v m') :
    Keeps v (if c then m else m') := by
  split
  · exact h
  · exact h'

@[simp, grind ←] theorem keeps_loop {body : β → Prog ρ σ (β ⊕ α)} (h : ∀ b, Keeps v (body b)) (b : β) :
    Keeps v (loop body b) := by
  intro n r s
  refine wp_loop (fun _ s' => v s' = v s) ?_ rfl
  intro b s₁ hb
  refine (h b n r s₁).mono ?_
  rintro (b' | a) s' h' <;> exact h'.trans hb

end Keeps

/-- Whatever the run of `m`, what the part `v` of the state was is related by `R` to what it is then. -/
def Grows (R : γ → γ → Prop) (v : σ → γ) (m : Prog ρ σ α) : Prop := ∀ (n : ℕ) r s, wp n r m (fun _ s' => R (v s) (v s')) s

section Grows

variable {R : γ → γ → Prop} {v : σ → γ}

theorem Keeps.grows [Std.Refl R] {m : Prog ρ σ α} (h : Keeps v m) : Grows R v m := by
  intro n r s
  refine (h n r s).mono fun _ s' h' => ?_
  rw [h']
  exact Std.Refl.refl (v s)

theorem grows_bind [IsTrans γ R] {m : Prog ρ σ β} {f : β → Prog ρ σ α} (hm : Grows R v m) (hf : ∀ b, Grows R v (f b)) :
    Grows R v (m >>= f) := by
  intro n r s
  rw [wp_bind]
  refine (hm n r s).mono fun b s' h => ?_
  exact (hf b n r s').mono fun _ _ h' => IsTrans.trans _ _ _ h h'

theorem grows_modify {f : σ → σ} (h : ∀ s, R (v s) (v (f s))) : Grows R v (modify f : Prog ρ σ Unit) := by
  intro n r s
  exact wp_modify.mpr (h s)

theorem grows_ite {c : Prop} [Decidable c] {m m' : Prog ρ σ α} (h : Grows R v m) (h' : Grows R v m') :
    Grows R v (if c then m else m') := by
  split
  · exact h
  · exact h'

theorem grows_loop [Std.Refl R] [IsTrans γ R] {body : β → Prog ρ σ (β ⊕ α)} (h : ∀ b, Grows R v (body b)) (b : β) :
    Grows R v (loop body b) := by
  intro n r s
  refine wp_loop (fun _ s' => R (v s) (v s')) ?_ (Std.Refl.refl (v s))
  intro b s₁ hb
  refine (h b n r s₁).mono ?_
  rintro (b' | a) s' h' <;> exact IsTrans.trans _ _ _ hb h'

end Grows

def twp (n : Bound) (r : ρ) (m : Prog ρ σ α) (Q : α → σ → Prop) (s : σ) : Prop :=
  ∃ a s', m.run n.reading n.depth r s = some (a, s') ∧ Q a s'

section twp

variable {n : Bound} {r : ρ} {Q : α → σ → Prop} {s : σ}

@[simp] theorem twp_pure {a : α} : twp n r (pure a) Q s ↔ Q a s := by
  simp [twp]

@[simp] theorem twp_bind {m : Prog ρ σ β} {f : β → Prog ρ σ α} :
    twp n r (m >>= f) Q s ↔ twp n r m (fun b => twp n r (f b) Q) s := by
  simp only [twp, bind_apply]
  constructor
  · rintro ⟨a, s'', hmf, hQ⟩
    obtain ⟨⟨b, s'⟩, hm, hf⟩ := Option.bind_eq_some_iff.mp hmf
    exact ⟨b, s', hm, a, s'', hf, hQ⟩
  · rintro ⟨b, s', hm, a, s'', hf, hQ⟩
    exact ⟨a, s'', by simp [hm, hf], hQ⟩

@[simp] theorem twp_get {Q : σ → σ → Prop} : twp n r get Q s ↔ Q s s := by
  simp [twp]

@[simp] theorem twp_ask {Q : ρ → σ → Prop} : twp n r ask Q s ↔ Q r s := by
  simp [twp]

@[simp] theorem twp_modify {f : σ → σ} {Q : Unit → σ → Prop} : twp n r (modify f) Q s ↔ Q () (f s) := by
  constructor
  · rintro ⟨⟨⟩, s', ⟨⟩, h⟩
    exact h
  · intro h
    exact ⟨(), f s, rfl, h⟩

@[simp] theorem twp_deref {p : Option α} : twp n r (deref p) Q s ↔ ∃ a, p = some a ∧ Q a s := by
  cases p <;> simp [twp]

@[simp] theorem twp_count {n w k : ℕ} {Q : ℕ → σ → Prop} : twp n r (count w k) Q s ↔ Q k s := by
  simp [twp]

@[simp] theorem twp_count_word {n w k : ℕ} {Q : ℕ → σ → Prop} : twp ⟨.word, n⟩ r (count w k) Q s ↔ Q w s := by
  simp [twp]

@[simp] theorem twp_ite {c : Prop} [Decidable c] {m m' : Prog ρ σ α} :
    twp n r (if c then m else m') Q s ↔ (c → twp n r m Q s) ∧ (¬ c → twp n r m' Q s) := by
  split <;> simp [*]

theorem twp_zoom {env : ρ → ρ'} {view : σ → τ} {put : τ → σ → σ} {m : Prog ρ' τ α} :
    twp n r (zoom env view put m) Q s ↔ twp n (env r) m (fun a x => Q a (put x s)) (view s) := by
  constructor
  · rintro ⟨a, s', hm, hQ⟩
    obtain ⟨⟨b, x⟩, hb, hx⟩ := Option.map_eq_some_iff.mp hm
    cases hx
    exact ⟨b, x, hb, hQ⟩
  · rintro ⟨a, x, hm, hQ⟩
    exact ⟨a, _, Option.map_eq_some_iff.mpr ⟨(a, x), hm, rfl⟩, hQ⟩

theorem twp.mono {m : Prog ρ σ α} {Q' : α → σ → Prop} (h : twp n r m Q s) (hQ : ∀ a s', Q a s' → Q' a s') :
    twp n r m Q' s := by
  obtain ⟨a, s', hm, h'⟩ := h
  exact ⟨a, s', hm, hQ a s' h'⟩

theorem twp.and_wp {m : Prog ρ σ α} {Q' : α → σ → Prop} (h : twp n r m Q s) (h' : wp n r m Q' s) :
    twp n r m (fun a s' => Q a s' ∧ Q' a s') s := by
  obtain ⟨a, s', hm, hQ⟩ := h
  exact ⟨a, s', hm, hQ, h' a s' hm⟩

theorem twp.and {m : Prog ρ σ α} {Q' : α → σ → Prop} (h : twp n r m Q s) (h' : twp n r m Q' s) :
    twp n r m (fun a s' => Q a s' ∧ Q' a s') s := by
  obtain ⟨a, s', hm, hQ⟩ := h
  obtain ⟨b, s'', hm', hQ'⟩ := h'
  rw [hm] at hm'
  cases hm'
  exact ⟨a, s', hm, hQ, hQ'⟩

theorem twp.wp_bind {m : Prog ρ σ β} {f : β → Prog ρ σ α} {Q' : β → σ → Prop} (h : twp n r m Q' s)
    (hf : ∀ b s', Q' b s' → wp n r (f b) Q s') : wp n r (m >>= f) Q s := by
  obtain ⟨b, s', hm, hQ⟩ := h
  intro a s'' hx
  rw [bind_apply, hm] at hx
  exact hf b s' hQ a s'' hx

/-- The invariant `I` bounds the number of turns that are left. -/
theorem twp_loop {body : β → Prog ρ σ (β ⊕ α)} (I : ℕ → β → σ → Prop)
    (hbody : ∀ k b s, I k b s →
      twp n r (body b) (fun x s' => Sum.elim (fun b' => ∃ k' < k, I k' b' s') (fun a => Q a s') x) s)
    {b : β} {k : ℕ} (hb : I k b s) (hk : k < n.depth) : twp n r (loop body b) Q s := by
  suffices h : ∀ j k b s, k < j → I k b s → twp n r (loopN body j b) Q s from h n.depth k b s hk hb
  intro j
  induction j with
  | zero =>
    intro k b s hk
    omega
  | succ j ih =>
    intro k b s hk hb
    rw [loopN, twp_bind]
    refine (hbody k b s hb).mono ?_
    rintro (b' | a) s' h
    · obtain ⟨k', hk', h'⟩ := h
      exact ih k' b' s' (by omega) h'
    · simpa using h

theorem twp_loop_first {c : Reading} {k : ℕ} {body : β → Prog ρ σ (β ⊕ α)} {b : β}
    (h : twp ⟨c, k + 1⟩ r (body b) (fun x s' => ∃ a, x = .inr a ∧ Q a s') s) : twp ⟨c, k + 1⟩ r (loop body b) Q s := by
  obtain ⟨_, s', hx, a, rfl, hQ⟩ := h
  refine ⟨a, s', ?_, hQ⟩
  change Option.bind _ _ = _
  rw [hx]
  rfl

end twp

/-- With every bound that is large enough the program answers, and the answer meets `Q`. -/
def Settles (r : ρ) (m : Prog ρ σ α) (s : σ) (Q : α → σ → Prop) : Prop := ∃ k, ∀ n : ℕ, k ≤ n → twp n r m Q s

theorem Settles.both {r : ρ} {m : Prog ρ σ α} {s : σ} {Q Q' : α → σ → Prop} (h : Settles r m s Q)
    (h' : Settles r m s Q') : ∃ a s', Q a s' ∧ Q' a s' := by
  obtain ⟨k, hk⟩ := h
  obtain ⟨k', hk'⟩ := h'
  obtain ⟨a, s', ha, hQ⟩ := hk (max k k') (le_max_left k k')
  obtain ⟨b, s'', hb, hQ'⟩ := hk' (max k k') (le_max_right k k')
  rw [ha] at hb
  cases hb
  exact ⟨a, s', hQ, hQ'⟩

theorem Settles.mono {r : ρ} {m : Prog ρ σ α} {s : σ} {Q Q' : α → σ → Prop} (h : Settles r m s Q)
    (hQ : ∀ a s', Q a s' → Q' a s') : Settles r m s Q' := by
  obtain ⟨k, hk⟩ := h
  exact ⟨k, fun n hn => (hk n hn).mono hQ⟩

/-- As `Settles`, with the counters read in the one way or the other. -/
def SettlesIn (c : Reading) (r : ρ) (m : Prog ρ σ α) (s : σ) (Q : α → σ → Prop) : Prop :=
  ∃ k, ∀ n, k ≤ n → ∃ a s', m.run c n r s = some (a, s') ∧ Q a s'

theorem Fits.settlesIn_iff {c : Reading} {r : ρ} {m : Prog ρ σ α} {s : σ} {Q : α → σ → Prop} (h : Fits r m s) :
    SettlesIn c r m s Q ↔ Settles r m s Q := by
  unfold SettlesIn Settles Prog.twp
  simp only [h.run_eq c .nat]

theorem RunsIn.twp {r : ρ} {m : Prog ρ σ α} {s s' : σ} {a : α} {k : ℕ} {Q : α → σ → Prop} (h : Runs r m s a s')
    (hQ : ∀ n : ℕ, k ≤ n → Prog.twp n r m Q s) : Q a s' := by
  obtain ⟨n, hn⟩ := h
  obtain ⟨b, s'', hb, hQ'⟩ := hQ (max n k) (le_max_right n k)
  rw [m.more (le_max_left n k) hn] at hb
  cases hb
  exact hQ'

end Prog
