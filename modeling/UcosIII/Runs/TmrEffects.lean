import UcosIII.Abstract.Files
import UcosIII.Kernel.TmrCallback
import UcosIII.Runs.Timers

namespace UcosIII

open Prog

variable {n : ℕ} {c : TmrCfg} {s s' : Sys} {V : ℕ → List TmrId} {t x : TmrId} {script : TmrScript} {now : Tick}

section effect

structure Acc where
  tmr : TmrId → Tmr
  calls : ℕ

def Touches (ops : List TmrOp) (x : TmrId) : Prop := .start (some x) ∈ ops ∨ ∃ opt arg, .stop (some x) opt arg ∈ ops

/-- The calls, or the entries of the script from `i` on and before `j`, start or stop the timer. -/
def TouchedIn (script : TmrScript) (ops : List TmrOp) (i j : ℕ) (x : TmrId) : Prop :=
  Touches ops x ∨ ∃ k, i ≤ k ∧ k < j ∧ Touches (script.getD k []) x

namespace Acc

def Pend (now : Tick) (A : Acc) (t : TmrId) : Prop :=
  (A.tmr t).isTmr = true ∧ (A.tmr t).state = .running ∧ (A.tmr t).matchCtr = now

instance (A : Acc) (t : TmrId) : Decidable (A.Pend now t) := inferInstanceAs (Decidable (_ ∧ _))

def set (A : Acc) (t : TmrId) (a : Tmr) : Acc := { A with tmr := Function.update A.tmr t a }

def start (now : Tick) (A : Acc) : Option TmrId → Acc
  | none => A
  | some t =>
    if (A.tmr t).isTmr = true ∧ (A.tmr t).state ≠ .unused then A.set t ((A.tmr t).linked optLinkDly now) else A

def stop (call : Acc → Acc) (A : Acc) (opt : Opt) : Option TmrId → Acc
  | none => A
  | some t =>
    if (A.tmr t).isTmr = true ∧ (A.tmr t).state = .running then
      if (opt = optTmrCallback ∨ opt = optTmrCallbackArg) ∧ (A.tmr t).callbackPtr ≠ none then call (A.set t (A.tmr t).unlinked)
      else A.set t (A.tmr t).unlinked
    else A

def op (call : Acc → Acc) (now : Tick) (A : Acc) : TmrOp → Acc
  | .start p => A.start now p
  | .stop p opt _ => A.stop call opt p

def callback (script : TmrScript) (now : Tick) : ℕ → Acc → Acc
  | 0, A => A
  | k + 1, A => (script.getD A.calls []).foldl (op (callback script now k) now) { A with calls := A.calls + 1 }

def fire (script : TmrScript) (now : Tick) (A : Acc) (t : TmrId) : Acc :=
  if (A.tmr t).callbackPtr = none then A.set t ((A.tmr t).fired now)
  else callback script now (script.length + 1) (A.set t ((A.tmr t).fired now))

def firing (A : Acc) (t : TmrId) : Option Firing := (A.tmr t).callbackPtr.map fun f => ⟨f, t, (A.tmr t).callbackPtrArg⟩

def Valid (A : Acc) : Prop := ∀ x, (A.tmr x).isTmr = true → (A.tmr x).Valid

theorem set_tmr (A : Acc) (t x : TmrId) (a : Tmr) : (A.set t a).tmr x = if x = t then a else A.tmr x :=
  Function.update_apply A.tmr t a x

structure Later (script : TmrScript) (now : Tick) (ops : List TmrOp) (A B : Acc) : Prop where
  calls : A.calls ≤ B.calls
  args : ∀ x, (B.tmr x).args = (A.tmr x).args
  pend : ∀ x, B.Pend now x → A.Pend now x ∧ ¬ TouchedIn script ops A.calls B.calls x
  same : ∀ x, ¬ TouchedIn script ops A.calls B.calls x → B.tmr x = A.tmr x
  due : ∀ x, (A.tmr x).matchCtr ≠ now → (B.tmr x).matchCtr ≠ now

variable {A B C : Acc} {ops ops' : List TmrOp}

theorem Valid.args (h : A.Valid) (hargs : ∀ x, (B.tmr x).args = (A.tmr x).args) : B.Valid := by
  intro x hx
  apply (h x _).congr (hargs x)
  rw [← hx]
  exact (congrArg Tmr.isTmr (hargs x).symm :)

theorem Later.valid (h : Later script now ops A B) (hv : A.Valid) : B.Valid := hv.args h.args

theorem Later.refl (A : Acc) : Later script now [] A A := by
  refine ⟨le_refl _, fun _ => rfl, fun x hx => ⟨hx, ?_⟩, fun _ _ => rfl, fun _ => id⟩
  rintro ((h | ⟨_, _, h⟩) | ⟨k, h1, h2, -⟩)
  · simp at h
  · simp at h
  · omega

theorem touches_append : Touches (ops ++ ops') x ↔ Touches ops x ∨ Touches ops' x := by
  simp only [Touches, List.mem_append]
  constructor
  · rintro ((h | h) | ⟨opt, arg, h | h⟩)
    · exact .inl (.inl h)
    · exact .inr (.inl h)
    · exact .inl (.inr ⟨opt, arg, h⟩)
    · exact .inr (.inr ⟨opt, arg, h⟩)
  · rintro ((h | ⟨opt, arg, h⟩) | (h | ⟨opt, arg, h⟩))
    · exact .inl (.inl h)
    · exact .inr ⟨opt, arg, .inl h⟩
    · exact .inl (.inr h)
    · exact .inr ⟨opt, arg, .inr h⟩

theorem touchedIn_append {i j k : ℕ} (hij : i ≤ j) (hjk : j ≤ k) :
    TouchedIn script (ops ++ ops') i k x ↔ TouchedIn script ops i j x ∨ TouchedIn script ops' j k x := by
  simp only [TouchedIn, touches_append]
  constructor
  · rintro ((h | h) | ⟨l, h1, h2, h⟩)
    · exact .inl (.inl h)
    · exact .inr (.inl h)
    · by_cases hl : l < j
      · exact .inl (.inr ⟨l, h1, hl, h⟩)
      · exact .inr (.inr ⟨l, by omega, h2, h⟩)
  · rintro ((h | ⟨l, h1, h2, h⟩) | (h | ⟨l, h1, h2, h⟩))
    · exact .inl (.inl h)
    · exact .inr ⟨l, h1, by omega, h⟩
    · exact .inl (.inr h)
    · exact .inr ⟨l, by omega, h2, h⟩

theorem Later.trans (h : Later script now ops A B) (h' : Later script now ops' B C) : Later script now (ops ++ ops') A C := by
  have htouch (x : TmrId) : TouchedIn script (ops ++ ops') A.calls C.calls x ↔
      TouchedIn script ops A.calls B.calls x ∨ TouchedIn script ops' B.calls C.calls x := touchedIn_append h.calls h'.calls
  refine ⟨h.calls.trans h'.calls, fun x => (h'.args x).trans (h.args x), fun x hx => ?_, fun x hx => ?_,
    fun x hx => h'.due x (h.due x hx)⟩
  · obtain ⟨hB, hno'⟩ := h'.pend x hx
    obtain ⟨hA, hno⟩ := h.pend x hB
    rw [htouch]
    exact ⟨hA, not_or.mpr ⟨hno, hno'⟩⟩
  · rw [htouch, not_or] at hx
    rw [h'.same x hx.2, h.same x hx.1]

theorem later_set {a : Tmr} {o : TmrOp} (ho : Touches [o] t) (hargs : a.args = (A.tmr t).args)
    (hpend : a.state = .running → a.matchCtr ≠ now) (hdue : (A.tmr t).matchCtr ≠ now → a.matchCtr ≠ now)
    (hother : ∀ x, Touches [o] x → x = t) : Later script now [o] A (A.set t a) := by
  refine ⟨le_refl _, fun x => ?_, fun x hx => ?_, fun x hx => ?_, fun x hx => ?_⟩
  · rw [set_tmr]
    split
    · rename_i h
      rw [h, hargs]
    · rfl
  · rw [Pend, set_tmr] at hx
    split at hx
    · exact absurd hx.2.2 (hpend hx.2.1)
    · rename_i hxt
      refine ⟨hx, ?_⟩
      rintro (h | ⟨k, h1, h2, -⟩)
      · exact hxt (hother x h)
      · exact absurd h2 (not_lt.mpr h1)
  · rw [set_tmr, if_neg]
    rintro rfl
    exact hx (.inl ho)
  · rw [set_tmr]
    split
    · rename_i h
      exact hdue (h ▸ hx)
    · exact hx

theorem Later.idle {o : TmrOp} (h : ∀ x, A.Pend now x → ¬ Touches [o] x) : Later script now [o] A A := by
  refine ⟨le_refl _, fun _ => rfl, fun x hx => ⟨hx, ?_⟩, fun _ _ => rfl, fun _ => id⟩
  rintro (ht | ⟨k, h1, h2, -⟩)
  · exact h x hx ht
  · omega

theorem touches_start {p : Option TmrId} : Touches [.start p] x ↔ p = some x := by
  simp [Touches, eq_comm]

theorem touches_stop {p : Option TmrId} {opt : Opt} {arg : Option ℕ} : Touches [.stop p opt arg] x ↔ p = some x := by
  simp [Touches, eq_comm]

theorem linked_due_ne {a : Tmr} {opt : Opt} (h : linkTicks a opt ≠ 0) : (a.linked opt now).matchCtr ≠ now := by
  change linkTicks a opt + now ≠ now
  intro he
  apply h
  simpa using he

theorem op_later {call : Acc → Acc} {o : TmrOp} (hcall : ∀ B, B.Valid → Later script now [] B (call B)) (hv : A.Valid) :
    Later script now [o] A (A.op call now o) := by
  cases o with
  | start p =>
    cases p with
    | none => exact .idle fun x _ h => by simp [touches_start] at h
    | some t =>
      rw [op, start]
      split
      · rename_i ht
        refine later_set (touches_start.mpr rfl) rfl (fun _ => ?_) (fun _ => ?_) fun x hx => ?_
        · exact linked_due_ne (linkTicks_ne_zero (hv t ht.1))
        · exact linked_due_ne (linkTicks_ne_zero (hv t ht.1))
        · exact (Option.some.inj (touches_start.mp hx)).symm
      · rename_i ht
        apply Later.idle
        intro x hx htouch
        obtain rfl := Option.some.inj (touches_start.mp htouch)
        apply ht
        refine ⟨hx.1, ?_⟩
        rw [hx.2.1]
        decide
  | stop p opt arg =>
    cases p with
    | none => exact .idle fun x _ h => by simp [touches_stop] at h
    | some t =>
      rw [op, stop]
      split
      · have hset : Later script now [.stop (some t) opt arg] A (A.set t (A.tmr t).unlinked) := by
          refine later_set (touches_stop.mpr rfl) rfl ?_ (fun h => h) fun x hx => ?_
          · intro h
            cases h
          · exact (Option.some.inj (touches_stop.mp hx)).symm
        split
        · exact hset.trans (hcall _ (hset.valid hv))
        · exact hset
      · rename_i ht
        apply Later.idle
        intro x hx htouch
        obtain rfl := Option.some.inj (touches_stop.mp htouch)
        exact ht ⟨hx.1, hx.2.1⟩

theorem foldl_later {call : Acc → Acc} (hcall : ∀ B, B.Valid → Later script now [] B (call B)) (hv : A.Valid) :
    Later script now ops A (ops.foldl (op call now) A) := by
  induction ops generalizing A with
  | nil => exact .refl A
  | cons o ops ih =>
    have ho : Later script now [o] A (A.op call now o) := op_later hcall hv
    exact ho.trans (ih (ho.valid hv))

theorem Later.entry (h : Later script now (script.getD A.calls []) { A with calls := A.calls + 1 } B) :
    Later script now [] A B := by
  have htouch (x : TmrId) : TouchedIn script [] A.calls B.calls x ↔
      TouchedIn script (script.getD A.calls []) (A.calls + 1) B.calls x := by
    have hlt : A.calls + 1 ≤ B.calls := h.calls
    simp only [TouchedIn, Touches, List.not_mem_nil, exists_false, or_self, false_or]
    constructor
    · rintro ⟨k, h1, h2, hk⟩
      by_cases hkA : k = A.calls
      · exact .inl (hkA ▸ hk)
      · exact .inr ⟨k, by omega, h2, hk⟩
    · rintro (hk | ⟨k, h1, h2, hk⟩)
      · exact ⟨A.calls, le_refl _, by omega, hk⟩
      · exact ⟨k, by omega, h2, hk⟩
  refine ⟨(Nat.le_succ _).trans h.calls, h.args, fun x hx => ?_, fun x hx => ?_, h.due⟩
  · rw [htouch]
    exact h.pend x hx
  · rw [htouch] at hx
    exact h.same x hx

theorem callback_later (k : ℕ) (hv : A.Valid) : Later script now [] A (callback script now k A) := by
  induction k generalizing A with
  | zero => exact .refl A
  | succ k ih => exact Later.entry (foldl_later (fun B hB => ih hB) hv)

end Acc

end effect

section loose

def Loose (s : Sys) : Prop := ∀ x, (s.tmr x).state ≠ .running → s.prev x = none

theorem tmrUnlink_prev : wp n c (tmrUnlink t) (fun _ s' => s'.prev t = none ∧
    ∀ x ≠ t, s.next t ≠ some x → s'.prev x = s.prev x) s := by
  unfold tmrUnlink getTmr getTmrSpoke modTmr modTmrSpoke
  simp only [wp_bind, wp_get, wp_pure, wp_ask, wp_ite, wp_modify, wp_deref]
  constructor
  · intro _
    cases h : (s.tmr t).nextPtr <;> simp only [wp_bind, wp_modify] <;> grind
  · intro _ t1 ht1
    cases h : (s.tmr t).nextPtr <;> simp only [wp_bind, wp_modify] <;> grind

theorem tmrLink_prev {opt : Opt} (h : TmrLists c.tmrWheelSize s V) (ht : ∀ i, t ∉ V i) (hn : ∀ i, (V i).length < n) :
    twp n c (tmrLink t opt) (fun _ s' => ∀ x ≠ t, (∀ i, x ∉ V i) → s'.prev x = s.prev x) s := by
  rw [tmrLink, twp_bind, twp_get, twp_bind, twp_modTmr]
  generalize hs₀ : s.modTmr t _ = s₀
  have hnext₀ : ∀ x, s₀.next x = s.next x := by grind
  have hprev₀ : ∀ x, s₀.prev x = s.prev x := by grind
  have hwheel₀ : s₀.tmrWheel = s.tmrWheel := by
    rw [← hs₀]
    rfl
  generalize hi : (s₀.due t).toNat % c.tmrWheelSize = i
  obtain ⟨tail, hl⟩ := h.list i (hi ▸ Nat.mod_lt _ c.tmrWheelSize_pos)
  have hl₀ : Listed s₀.next s₀.prev (s₀.tmrWheel i).firstPtr tail (V i).length (V i) := by
    rw [hwheel₀]
    exact hl.congr fun x _ => ⟨hnext₀ x, hprev₀ x⟩
  have hc₀ : (s₀.tmrWheel i).nbrEntries = BitVec.ofNat 16 (V i).length := by
    rw [hwheel₀]
    exact h.count i (hi ▸ Nat.mod_lt _ c.tmrWheelSize_pos)
  refine (tmrLinkSpoke_spec hl₀ hc₀ (ht i) hi (hn i)).mono ?_
  rintro _ s' ⟨xs, ys, hV, hsp⟩ x hxt hx
  rw [hsp.prev, if_neg hxt, if_neg, hprev₀]
  intro hhead
  apply hx i
  rw [hV]
  exact List.mem_append_right _ (List.mem_of_mem_head? hhead)

end loose

end UcosIII
