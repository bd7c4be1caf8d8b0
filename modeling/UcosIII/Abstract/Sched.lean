import UcosIII.Abstract.TaskEffects
import UcosIII.Lists.Search

namespace UcosIII

open Prog

namespace Abs

def Best (a : Abs) (p : ℕ) (t : TcbId) : Prop := (a.ready p).head? = some t ∧ ∀ q, a.ready q ≠ [] → p ≤ q

def switch (a : Abs) (p : ℕ) (t : TcbId) : Abs :=
  { a with cur := some t, prioCur := if a.cur = some t then a.prioCur else p }

def Resched (a a' : Abs) : Prop := ∃ p t, a.Best p t ∧ a' = a.switch p t

def Sched (a a' : Abs) : Prop :=
  0 < a.intNesting ∧ a' = a ∨ 0 < a.lockNesting ∧ a' = a ∨ a.intNesting = 0 ∧ a.lockNesting = 0 ∧ a.Resched a'

def restore (a : Abs) (t : TcbId) (p : ℕ) : Abs :=
  if (a.task t).prio = p then a else { a.move t p false with prioCur := p }

def handOff (a : Abs) (o : ObjId) (w : TcbId) : Abs :=
  (a.modObj o fun b => { b with owner := some w, ownerPrio := (a.task w).prio, nesting := 1 }).wake w .ok

variable {cfg : Cfg} {a a' : Abs} {t : TcbId} {p : ℕ}

theorem Sound.switch (h : a.Sound cfg) : (a.switch p t).Sound cfg := h.congr rfl rfl rfl rfl rfl

theorem Sound.sched (h : a.Sound cfg) (hs : a.Sched a') : a'.Sound cfg := by
  obtain ⟨-, rfl⟩ | ⟨-, rfl⟩ | ⟨-, -, p, t, -, rfl⟩ := hs
  · exact h
  · exact h
  · exact h.switch

theorem Sound.restore (h : a.Sound cfg) (hnd : ∀ p, (a.ready p).Nodup)
    (hs : (a.task t).prio ≠ p → (a.task t).state = .rdy) : (a.restore t p).Sound cfg := by
  rw [Abs.restore]
  split
  · exact h
  · exact (h.move hnd (hs ‹_›) p false).congr rfl rfl rfl rfl rfl

theorem Sound.handOff (h : a.Sound cfg) (o : ObjId) (w : TcbId) : (a.handOff o w).Sound cfg :=
  (h.modObj rfl).wake w .ok

end Abs

variable {n : ℕ} {cfg : Cfg} {s s' : OS} {a : Abs} {t : TcbId} {o : ObjId} {ts : ℕ}

theorem Rep.head (h : Rep cfg s a) {p : ℕ} (hp : p < cfg.prioMax) : (s.rdyList p).headPtr = (a.ready p).head? :=
  (h.rdy.lists.list p hp).head_eq

theorem Rep.intNesting (h : Rep cfg s a) : a.intNesting = s.intNestingCtr := by rw [← h.abs]; rfl

theorem Rep.lockNesting (h : Rep cfg s a) : a.lockNesting = s.schedLockNestingCtr := by rw [← h.abs]; rfl

theorem Rep.running (h : Rep cfg s a) : a.running = s.running := by rw [← h.abs]; rfl

theorem Rep.cont (h : Rep cfg s a) : a.cont = s.cont := by rw [← h.abs]; rfl

theorem reschedule_spec (h : Rep cfg s a) :
    wp n cfg reschedule (fun _ s' => ∃ a', Rep cfg s' a' ∧ a.Resched a') s := by
  rw [reschedule, wp_bind]
  refine (prioGetHighest_spec h.rdy).mono ?_
  rintro p s₁ ⟨hs, hbest⟩
  subst hs
  rw [wp_bind, wp_getRdyList]
  intro hp
  rw [h.head hp]
  obtain ⟨t, ht⟩ : ∃ t, (a.ready p).head? = some t := ⟨_, List.head?_eq_some_head hbest.1⟩
  have hb : a.Best p t := ⟨ht, hbest.2⟩
  simp only [ht, wp_bind, wp_modify, wp_get, wp_ite, wp_pure, wp_deref, ctxSw, Option.some_inj]
  constructor
  · intro hcur
    refine ⟨a.switch p t, h.of_globals rfl rfl ?_, p, t, hb, rfl⟩
    rw [Abs.switch, if_pos (h.cur.trans hcur.symm)]
    rw [hcur]
    exact (congrArg (fun x : Abs => { x with cur := s₁.tcbCurPtr }) h.globals_eq :)
  · rintro hcur _ rfl
    refine ⟨a.switch p t, h.of_globals rfl rfl ?_, p, t, hb, rfl⟩
    rw [Abs.switch, if_neg fun e => hcur (e.symm.trans h.cur)]
    exact (congrArg (fun x : Abs => { x with cur := some t, prioCur := p }) h.globals_eq :)

theorem osSched_spec (h : Rep cfg s a) : wp n cfg osSched (fun _ s' => ∃ a', Rep cfg s' a' ∧ a.Sched a') s := by
  simp only [osSched, wp_bind, wp_get, wp_ite, wp_pure]
  rw [← h.intNesting, ← h.lockNesting]
  refine ⟨fun hi => ⟨a, h, .inl ⟨hi, rfl⟩⟩, fun hi => ⟨fun hl => ⟨a, h, .inr (.inl ⟨hl, rfl⟩)⟩, fun hl => ?_⟩⟩
  refine (reschedule_spec h).mono ?_
  rintro _ s' ⟨a', h', hr⟩
  exact ⟨a', h', .inr (.inr ⟨by omega, by omega, hr⟩)⟩

theorem waitThen_spec (h : Rep cfg s a) (hc : a.cur = some t) (k : Cont) :
    wp n cfg (waitThen k) (fun r s' => r = none ∧ ∃ a', Rep cfg s' a' ∧ (a.setCont t k).Sched a') s := by
  rw [waitThen, wp_bind, wp_getCur, ← h.cur, hc]
  rintro _ ⟨⟩
  rw [wp_bind, wp_modify, wp_bind]
  refine (osSched_spec (h.setCont t k)).mono fun _ s' h' => ?_
  rw [wp_pure]
  exact ⟨rfl, h'⟩

theorem schedOpt_spec (h : Rep cfg s a) (opt : Opt) :
    wp n cfg (schedOpt opt) (fun _ s' => ∃ a', Rep cfg s' a' ∧
      if opt &&& optPostNoSched = 0 then a.Sched a' else a' = a) s := by
  rw [schedOpt, wp_ite]
  constructor
  · intro hopt
    simp only [if_pos hopt]
    exact osSched_spec h
  · intro hopt
    simp only [wp_pure, if_neg hopt]
    exact ⟨a, h, rfl⟩

theorem wp_rdyListRemove_beyond {Q : Unit → OS → Prop} (hp : cfg.prioMax ≤ (s.tcb t).prio) :
    wp n cfg (rdyListRemove t) Q s := by
  rw [rdyListRemove, wp_bind, wp_getTcb]
  split <;> simp only [wp_bind, wp_modRdyList, wp_decRdyList] <;> omega

theorem mutexRestore_spec (h : Rep cfg s a) (hI : a.Sound cfg)
    (hs : (a.task t).state = .rdy ∨ (a.task t).state = .del) :
    wp n cfg (mutexRestore o t) (fun _ s' => Rep cfg s' (a.restore t (a.obj o).ownerPrio) ∧
      ((a.task t).prio ≠ (a.obj o).ownerPrio → (a.task t).state = .rdy)) s := by
  have ho : (s.obj o).ownerOriginalPrio = (a.obj o).ownerPrio := (congrArg Sync.ownerPrio (h.obj o)).symm
  rw [mutexRestore, wp_bind, wp_getObj, wp_bind, wp_getTcb, ho, h.prio, wp_ite]
  constructor
  · intro hne
    rw [Abs.restore, if_neg hne]
    rcases hs with hs | hs
    · rw [wp_bind]
      refine (rdyChangePrio_spec h hI hs _ false).mono fun _ s₁ h₁ => ?_
      rw [wp_modify]
      refine ⟨h₁.of_globals rfl rfl ?_, fun _ => hs⟩
      exact (congrArg (fun x : Abs => { x with prioCur := (a.obj o).ownerPrio }) h₁.globals_eq :)
    · rw [rdyChangePrio, wp_bind, wp_bind]
      refine wp_rdyListRemove_beyond ?_
      rw [h.prio]
      exact hI.del_prio t hs
  · intro heq
    rw [wp_pure, Abs.restore, if_pos (not_not.mp heq)]
    exact ⟨h, fun hne => absurd hne heq⟩

theorem Rep.pendHead (h : Rep cfg s a) (o : ObjId) : (s.obj o).pendList.headPtr = (a.waiting o).head? :=
  (h.pend.list o).head_eq

theorem Rep.nbrEntries (h : Rep cfg s a) (o : ObjId) : (s.obj o).pendList.nbrEntries = 0 ↔ a.waiting o = [] := by
  rw [show (s.obj o).pendList.nbrEntries = (a.waiting o).length from (h.pend.list o).nbr_eq, List.length_eq_zero_iff]

theorem Abs.Sound.accepts (hI : a.Sound cfg) {d : PdId} (hd : d ∈ a.waiting o) :
    (a.task d.1).pendOn.accepts (a.obj o).type = true := by
  obtain ⟨hmem, hobj⟩ := (hI.wait.mem_iff o d).mp hd
  obtain ⟨o', ho', hacc⟩ := hI.wait.obj d.1 d hmem
  rw [hobj] at ho'
  cases ho'
  exact hacc

theorem mutexHandOff_spec (h : Rep cfg s a) (hI : a.Sound cfg) :
    wp n cfg (mutexHandOff o ts)
      (fun _ s' => ∃ d, (a.waiting o).head? = some d ∧ Rep cfg s' (a.handOff o d.1)) s := by
  rw [mutexHandOff, wp_bind, wp_getObj, wp_bind, wp_deref, h.pendHead]
  intro d hd
  have hmem : d ∈ a.waiting o := List.mem_of_mem_head? hd
  have htcb : (s.pendData d).tcbPtr = some d.1 := (congrArg Entry.tcb (h.entry d)).symm.trans (hI.wait.back o d hmem)
  rw [wp_bind, wp_getPendData, wp_bind, wp_deref, htcb]
  rintro _ ⟨⟩
  rw [wp_bind, wp_getTcb, wp_bind, wp_modObj, h.prio]
  have h₁ : Rep cfg (s.modObj o fun b =>
      { b with ownerTCBPtr := some d.1, ownerOriginalPrio := (a.task d.1).prio, ownerNestingCtr := 1 })
      (a.modObj o fun b => { b with owner := some d.1, ownerPrio := (a.task d.1).prio, nesting := 1 }) :=
    h.modObj rfl rfl
  refine (post_spec h₁ (hI.modObj rfl) (by simp) none 0 ts).mono fun _ s' h' => ?_
  exact ⟨d, hd, h'⟩

end UcosIII
