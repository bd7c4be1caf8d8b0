import UcosIII.Runs.PendOrder

namespace UcosIII

open Prog

variable {n : ℕ} {cfg : Cfg} {s s' : OS} {a a' : Abs} {h : List Step} {t : TcbId} {d : PdId} {e : Event} {r : Option Ret}

def Event.reprio : Event → Option (TcbId × ℕ)
  | .call (.taskChangePrio (some t) q) => some (t, q)
  | _ => none

/-- The priority `q` is worse than that of an entry behind those of `t` in the list of `o`, or better than that of one
in front of them. -/
def OutOfPlace (s : OS) (o : ObjId) (t : TcbId) (q : ℕ) : Prop :=
  ∃ j < (s.obj o).pendList.nbrEntries, ∃ i < j, ∃ x ∈ s.pendAt o i, ∃ y ∈ s.pendAt o j,
    x.1 = t ∧ y.1 ≠ t ∧ s.pdPrio y < q ∨ x.1 ≠ t ∧ y.1 = t ∧ q < s.pdPrio x

instance (s : OS) (o : ObjId) (t : TcbId) (q : ℕ) : Decidable (OutOfPlace s o t q) :=
  inferInstanceAs (Decidable (∃ j < _, ∃ i < j, ∃ x ∈ _, ∃ y ∈ _, _))

/-- The event gives a task that waits on a flag group a priority that its place in the list does not fit. -/
def Misplaces (cfg : Cfg) (s : OS) (e : Event) : Prop :=
  ∃ x ∈ e.reprio, x.2 < cfg.prioMax - 1 ∧ s.intNestingCtr = 0 ∧ (s.tcb x.1).pendOn = .flag ∧
    ∃ o ∈ (s.pendData (x.1, 0)).pendObjPtr, OutOfPlace s o x.1 x.2

instance (cfg : Cfg) (s : OS) (e : Event) : Decidable (Misplaces cfg s e) :=
  inferInstanceAs (Decidable (∃ x ∈ _, _ ∧ _ ∧ _ ∧ ∃ o ∈ _, _))

def FlagsOrdered (s : OS) : Prop := ∀ o i j x y, (s.obj o).type = .flag → i < j → s.pendAt o i = some x →
  s.pendAt o j = some y → s.pdPrio x ≤ s.pdPrio y

/-- The lists are in order, and the task whose wait is ended first has the best priority. -/
structure FlagsServed (cfg : Cfg) (s : OS) : Prop where
  ordered : FlagsOrdered s
  best : ∀ o d opt r s', (s.obj o).type = .flag → s.running = true → s.pendAt o 0 = some d → opt ≠ optPendAbortAll →
    Fits cfg (osFlagPendAbort (some o) opt) s → RunsIn .word cfg (osFlagPendAbort (some o) opt) s r s' → r.err = .none →
      ServesBest s s' o d

theorem Abs.Sorted.setPrio_inPlace (hO : a.Sorted (· = .flag) fun _ => False) {q : ℕ}
    (hfit : ∀ o, (a.obj o).type = .flag → ∀ i j : ℕ, ∀ x y, i < j → (a.waiting o)[i]? = some x → (a.waiting o)[j]? = some y →
      ¬ (x.1 = t ∧ y.1 ≠ t ∧ a.pdPrio y < q ∨ x.1 ≠ t ∧ y.1 = t ∧ q < a.pdPrio x)) :
    (a.modTask t fun c => { c with prio := q }).Sorted (· = .flag) fun _ => False := by
  have hprio (x : PdId) : (a.modTask t fun c => { c with prio := q }).pdPrio x = if x.1 = t then q else a.pdPrio x := by
    rw [pdPrio, task_modTask]
    split <;> rfl
  intro o ho
  have hold := List.pairwise_iff_getElem.mp (hO o ho)
  refine List.pairwise_iff_getElem.mpr fun i j hi hj hij => (rank_le_iff (T := fun _ => False) id).mpr ?_
  have hle := (rank_le_iff (T := fun _ => False) id).mp (hold i j hi hj hij)
  have hno := hfit o ho i j _ _ hij (List.getElem?_eq_getElem hi) (List.getElem?_eq_getElem hj)
  rw [hprio, hprio]
  change a.pdPrio (a.waiting o)[i] ≤ a.pdPrio (a.waiting o)[j] at hle
  change (if (a.waiting o)[i].1 = t then q else a.pdPrio (a.waiting o)[i]) ≤
    if (a.waiting o)[j].1 = t then q else a.pdPrio (a.waiting o)[j]
  by_cases hx : (a.waiting o)[i].1 = t <;> by_cases hy : (a.waiting o)[j].1 = t
  · rw [if_pos hx, if_pos hy]
  · rw [if_pos hx, if_neg hy]
    exact not_lt.mp fun hlt => hno (.inl ⟨hx, hy, hlt⟩)
  · rw [if_neg hx, if_pos hy]
    exact not_lt.mp fun hlt => hno (.inr ⟨hx, hy, hlt⟩)
  · rw [if_neg hx, if_neg hy]
    exact hle

theorem AStep.flagsSorted (hstep : AStep cfg s a e r a') (H : Ready cfg s a) (hp : ¬ PassedMatch cfg s e)
    (hm : ¬ Misplaces cfg s e) (hO : a.Sorted (· = .flag) fun _ => False) : a'.Sorted (· = .flag) fun _ => False := by
  by_cases hk : LeavesPlace cfg a a' e
  · obtain ⟨t, q, rfl, hfl, hq, hint, hs⟩ := hk
    refine Abs.Sorted.sched ?_ hs
    have hre : a.reprio t q false = a.modTask t fun c => { c with prio := q } := by
      have hpend := H.sound.wait.pendOn_iff t
      rw [Abs.reprio]
      cases hst : (a.task t).state <;> simp [hfl, hst, TaskState.isPend] at hpend ⊢
    rw [hre]
    refine hO.setPrio_inPlace fun o ho i j x y hij hx hy hout => hm ⟨(t, q), rfl, hq, ?_, ?_, o, ?_, ?_⟩
    · exact H.rep.intNesting.symm.trans hint
    · exact (H.rep.pendOn t).trans hfl
    · -- the entry of `t` in the list is its only one
      obtain ⟨d, hd, hdt⟩ : ∃ d ∈ a.waiting o, d.1 = t := by
        rcases hout with ⟨hxt, -⟩ | ⟨-, hyt, -⟩
        · exact ⟨x, List.mem_of_getElem? hx, hxt⟩
        · exact ⟨y, List.mem_of_getElem? hy, hyt⟩
      obtain ⟨hmem, hobj⟩ := (H.sound.wait.mem_iff o d).mp hd
      rw [hdt] at hmem
      have hd0 := H.sound.wait.single t (by simp [hfl]) d hmem
      rw [hd0, H.rep.entry] at hobj
      exact hobj
    · rw [← H.rep.pendAt_eq] at hx hy
      have hj : j < (s.obj o).pendList.nbrEntries := by
        change j < (s.pendList o).nbrEntries
        rw [(H.rep.pend.list o).nbr_eq]
        exact (List.getElem?_eq_some_iff.mp ((H.rep.pendAt_eq o j).symm.trans hy)).1
      refine ⟨j, hj, i, hij, x, hx, y, hy, ?_⟩
      rw [H.rep.pdPrio, H.rep.pdPrio]
      exact hout
  · exact (hstep.placed H hp (fun _ => hk) hO).elim fun _ hP => hP.ordered.of_rank

theorem Rep.flagsOrdered (h : Rep cfg s a) (hO : a.Sorted (· = .flag) fun _ => False) : FlagsOrdered s := by
  intro o i j x y ho hij hx hy
  have hle := h.inOrder hO ho hij hx hy
  rw [h.pdPrio, h.pdPrio]
  exact (Abs.rank_le_iff (T := fun _ => False) id).mp hle

/-- The pend lists of the flag groups are in order in every run in which no task that waits on one is given a priority
that its place does not fit. -/
theorem run_flagsServed (run : CodeRun cfg (fun _ x => ¬ PassedMatch cfg x.pre x.event ∧
    ¬ Misplaces cfg x.pre x.event) h s) (hfit : NoWrap cfg h) : FlagsServed cfg s := by
  replace run : Run cfg _ h s := run.fits hfit .nat
  obtain ⟨a, H, hO⟩ := run.invariant (I := fun _ a => a.Sorted (· = .flag) fun _ => False) (fun _ _ hP => hP.1)
    (fun _ _ => List.Pairwise.nil) fun h s a e r a' H hO he hP hstep => hstep.flagsSorted H hP.1 hP.2 hO
  refine ⟨H.rep.flagsOrdered hO, ?_⟩
  intro o d opt r s' ho hrun hd hopt hf hx hr
  replace hx := hx.fits hf .nat
  have hhead : (a.waiting o).head? = some d := by
    rw [List.head?_eq_getElem?, ← H.rep.pendAt_eq]
    exact hd
  obtain ⟨b, h', hw⟩ := (hx.wp fun n => objPendAbort_one H.rep H.sound hhead hopt) hr
  have hrun' : a.running = true := H.rep.running.trans hrun
  obtain ⟨a', h'', hstep⟩ := hx.wp fun n =>
    objPendAbort_sim (c := .semPendAbort (some o) opt) H hrun' (by simp) (fun _ => id) (some o) opt fun h => by
      simpa [Call.noSched] using h
  exact H.servesBest hO ho hd h'' (hstep.sound H.sound H.rep.nodup id) (hw.of_rep h' h'')

/-- Two tasks wait on a flag group, and the last is given a worse priority. -/
theorem run_flagsServed_last : ∃ h s, CodeRun Cfg.repository
    (fun _ x => ¬ PassedMatch Cfg.repository x.pre x.event ∧ ¬ Misplaces Cfg.repository x.pre x.event) h s ∧
    NoWrap Cfg.repository h ∧
    (s.obj 0).type = .flag ∧ s.pendAt 0 0 = some (4, 0) ∧ s.pendAt 0 1 = some (5, 0) ∧ (s.tcb 5).prio = 9 ∧
    FlagsServed Cfg.repository s := by
  obtain ⟨h, s, run, hfit, hf, h4, h5, hp⟩ := RunIn.of_play .word Cfg.repository
    (fun _ x => ¬ PassedMatch Cfg.repository x.pre x.event ∧ ¬ Misplaces Cfg.repository x.pre x.event) 60
    (fun _ s => (s.obj 0).type = .flag ∧ s.pendAt 0 0 = some (4, 0) ∧ s.pendAt 0 1 = some (5, 0) ∧ (s.tcb 5).prio = 9)
    [.newTask 4 5, .newTask 5 6, .newTask 6 7, .call (.flagCreate (some 0) 0), .start,
      .call (.flagPend (some 0) 1 0 optPendFlagSetAll), .call (.flagPend (some 0) 2 0 optPendFlagSetAll),
      .call (.taskChangePrio (some 5) 9)] (by decide +kernel)
  exact ⟨h, s, run, hfit, hf, h4, h5, hp, run_flagsServed run hfit⟩

/-- The task at the head of the list is given a worse priority than the one behind it, and stays at the head. -/
theorem changePrio_misplaces : ∃ h s, CodeRun Cfg.repository (fun _ x => ¬ PassedMatch Cfg.repository x.pre x.event) h s ∧
    ¬ FlagsOrdered s := by
  obtain ⟨h, s, run, -, hf, h4, h5, hlt⟩ := RunIn.of_play .word Cfg.repository
    (fun _ x => ¬ PassedMatch Cfg.repository x.pre x.event) 60
    (fun _ s => (s.obj 0).type = .flag ∧ s.pendAt 0 0 = some (4, 0) ∧ s.pendAt 0 1 = some (5, 0) ∧
      s.pdPrio (5, 0) < s.pdPrio (4, 0))
    [.newTask 4 5, .newTask 5 6, .newTask 6 7, .call (.flagCreate (some 0) 0), .start,
      .call (.flagPend (some 0) 1 0 optPendFlagSetAll), .call (.flagPend (some 0) 2 0 optPendFlagSetAll),
      .call (.taskChangePrio (some 4) 9)] (by decide +kernel)
  exact ⟨h, s, run, fun hO => absurd (hO 0 0 1 _ _ hf (by decide) h4 h5) (by omega)⟩

end UcosIII
