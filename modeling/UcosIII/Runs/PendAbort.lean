import UcosIII.Runs.Waking

namespace UcosIII

open Prog

variable {n : ℕ} {cfg : Cfg} {s s' : OS} {a b : Abs} {h : List Step} {t : TcbId} {o : ObjId} {d : PdId} {opt : Opt}
  {ts : ℕ} {S : Finset TcbId}

section loop

/-- The loop has ended the waits of the tasks of `S`, each of which had an entry in the list of `o`. -/
structure Aborting (cfg : Cfg) (a : Abs) (o : ObjId) (S : Finset TcbId) (s' : OS) : Prop where
  state : ∃ b, Fit cfg s' b ∧ a.Ended S .abort b
  sub : ∀ t ∈ S, t ∈ (a.waiting o).map Prod.fst

def Abs.others (a : Abs) (o : ObjId) (S : Finset TcbId) : List PdId := (a.waiting o).filter fun d => d.1 ∉ S

theorem Abs.others_insert (a : Abs) (o : ObjId) (S : Finset TcbId) (t : TcbId) :
    a.others o (insert t S) = (a.others o S).filter fun d => d.1 ≠ t := by
  rw [others, others, List.filter_filter]
  apply List.filter_congr
  intro x _
  simp [Finset.mem_insert]

theorem Aborting.start (F : Fit cfg s a) : Aborting cfg a o ∅ s := ⟨⟨a, F, .refl _ a⟩, by simp⟩

theorem Aborting.step_done (h : Aborting cfg a o S s') (hnil : a.others o S = []) :
    twp n cfg (pendAbortStep o opt ts S.card) (fun x s'' => x = .inr S.card ∧ s'' = s') s' := by
  obtain ⟨⟨b, F, hE⟩, -⟩ := h
  rw [pendAbortStep, twp_bind, twp_getObj, if_pos, twp_pure]
  · exact ⟨rfl, rfl⟩
  · rw [F.rep.nbrEntries, hE.waiting]
    exact hnil

theorem Aborting.step_next (h : Aborting cfg a o S s') (hd : (a.others o S).head? = some d) :
    twp n cfg (pendAbortStep o opt ts S.card) (fun x s'' => Aborting cfg a o (insert d.1 S) s'' ∧
      x = if opt ≠ optPendAbortAll then .inr (insert d.1 S).card else .inl (insert d.1 S).card) s' := by
  obtain ⟨⟨b, F, hE⟩, hsub⟩ := h
  rw [Abs.others, ← hE.waiting] at hd
  have hmem : d ∈ b.waiting o := List.mem_of_mem_head? hd
  have hnot : d.1 ∉ S := hE.not_mem hmem
  have hcard : (insert d.1 S).card = S.card + 1 := Finset.card_insert_of_notMem hnot
  have hz : ¬ (s'.obj o).pendList.nbrEntries = 0 := F.rep.pendNbr_ne hd
  obtain ⟨hprio, htab⟩ := F.waiter hmem
  rw [pendAbortStep, twp_bind, twp_getObj, if_neg hz, twp_bind, twp_deref]
  refine ⟨d, (F.rep.pendHead o).trans hd, ?_⟩
  rw [twp_bind, twp_getPendData, twp_bind, twp_deref]
  refine ⟨d.1, F.rep.tcbPtr F.sound hmem, ?_⟩
  rw [twp_bind]
  refine ((pendAbort_returns F.rep F.sound F.wheelOk hprio htab ts).twp
    (pendAbort_spec F.rep F.sound (by simp) ts)).mono fun _ s'' h'' => ?_
  have hA : Aborting cfg a o (insert d.1 S) s'' := by
    refine ⟨⟨_, F.wake h'', hE.wake F.sound hnot⟩, fun t ht => ?_⟩
    rcases Finset.mem_insert.mp ht with rfl | ht
    · exact List.mem_map_of_mem (hE.mem hmem)
    · exact hsub t ht
  rw [hcard]
  split
  · exact twp_pure.mpr ⟨hA, rfl⟩
  · exact twp_pure.mpr ⟨hA, rfl⟩

theorem pendAbortLoop_first (F : Fit cfg s a) (hd : (a.waiting o).head? = some d) (hopt : opt ≠ optPendAbortAll)
    (hn : 0 < n) :
    twp n cfg (Prog.loop (pendAbortStep o opt ts) 0) (fun k s' => k = 1 ∧ Aborting cfg a o {d.1} s') s := by
  refine twp_loop (fun j k s' => j = 0 ∧ k = 0 ∧ s' = s) ?_ ⟨rfl, rfl, rfl⟩ hn
  rintro _ _ s' ⟨rfl, rfl, rfl⟩
  have hd' : (a.others o ∅).head? = some d := by simpa [Abs.others] using hd
  refine ((Aborting.start F).step_next hd').mono ?_
  rintro x s'' ⟨hA, rfl⟩
  rw [if_pos hopt]
  exact ⟨by simp, by simpa using hA⟩

theorem pendAbortLoop_all (F : Fit cfg s a) (hn : (a.waiting o).length < n) :
    twp n cfg (Prog.loop (pendAbortStep o optPendAbortAll ts) 0) (fun k s' =>
      k = ((a.waiting o).map Prod.fst).toFinset.card ∧ Aborting cfg a o ((a.waiting o).map Prod.fst).toFinset s') s := by
  -- the entries that are left become fewer with every turn
  refine twp_loop (fun j k s' => ∃ S, k = S.card ∧ Aborting cfg a o S s' ∧ (a.others o S).length = j) ?_
    ⟨∅, rfl, .start F, by simp [Abs.others]⟩ hn
  rintro j _ s' ⟨S, rfl, hA, rfl⟩
  cases hl : a.others o S with
  | nil =>
    refine (hA.step_done hl).mono ?_
    rintro x s'' ⟨rfl, rfl⟩
    have hS : S = ((a.waiting o).map Prod.fst).toFinset := by
      ext t
      rw [List.mem_toFinset]
      refine ⟨hA.sub t, fun ht => ?_⟩
      obtain ⟨d, hd, rfl⟩ := List.mem_map.mp ht
      by_contra hnot
      have hmem : d ∈ a.others o S := List.mem_filter.mpr ⟨hd, by simpa using hnot⟩
      rw [hl] at hmem
      cases hmem
    subst hS
    exact ⟨rfl, hA⟩
  | cons d l =>
    refine (hA.step_next (d := d) (by rw [hl]; rfl)).mono ?_
    rintro x s'' ⟨hA', rfl⟩
    rw [if_neg (by simp)]
    refine ⟨_, ?_, insert d.1 S, rfl, hA', rfl⟩
    rw [Abs.others_insert, hl]
    apply List.length_filter_lt_length_iff_exists.mpr
    exact ⟨d, List.mem_cons_self, by simp⟩

end loop

section call

/-- The waits of the tasks of `T`, and of no others, have been aborted: they are off the list of `o`, where the other
entries keep their order. -/
structure Aborted (s s' : OS) (o : ObjId) (T : Finset TcbId) : Prop where
  served : ∀ t ∈ T, (s'.tcb t).taskState = (s.tcb t).taskState.woken ∧ (s'.tcb t).pendStatus = .abort ∧
    (s'.tcb t).pendOn = .nothing
  kept : ∀ t, t ∉ T → (s'.tcb t).taskState = (s.tcb t).taskState ∧ (s'.tcb t).pendStatus = (s.tcb t).pendStatus ∧
    (s'.tcb t).pendOn = (s.tcb t).pendOn
  list : s'.pendTasks o = (s.pendTasks o).filter (· ∉ T)

/-- The tasks that the option names: all that wait on `o`, or the first of them. -/
def OS.toAbort (s : OS) (o : ObjId) (opt : Opt) : Finset TcbId :=
  if opt = optPendAbortAll ∨ opt = optPendAbortAll ||| optPostNoSched then (s.pendTasks o).toFinset
  else ((s.pendTasks o).take 1).toFinset

/-- The call aborts the waits of the tasks of `T`, and returns their number. -/
def Aborts (s : OS) (o : ObjId) (T : Finset TcbId) (r : Ret) (s' : OS) : Prop :=
  r.err = .none ∧ r.val = T.card ∧ Aborted s s' o T

theorem Aborting.finish (H : Ready cfg s a) (hrun : s.running = true) (hA : Aborting cfg a o S s') :
    twp n cfg (do schedOpt opt; return ({ err := .none, val := S.card } : Ret)) (Aborts s o S) s' := by
  obtain ⟨⟨b, F, hE⟩, hsub⟩ := hA
  rw [twp_bind]
  refine (H.schedOpt_ended hrun hE F opt).mono ?_
  rintro _ s'' ⟨b', h', hI', htask, hwait⟩
  have hview (t : TcbId) : (s''.tcb t).view = if t ∈ S then ((s.tcb t).view).woken .abort else (s.tcb t).view := by
    rw [← h'.task, htask, H.rep.task]
  refine twp_pure.mpr ⟨rfl, rfl, fun t ht => ?_, fun t ht => ?_, ?_⟩
  · obtain ⟨d, hd, rfl⟩ := List.mem_map.mp (hsub t ht)
    have hp : (s.tcb d.1).view.state.isPend = true := by
      rw [← H.rep.task]
      exact H.sound.isPend_of_mem hd
    have hv := hview d.1
    rw [if_pos ht, Task.woken, if_pos hp] at hv
    exact ⟨(congrArg Task.state hv :), (congrArg Task.pendStatus hv :), (congrArg Task.pendOn hv :)⟩
  · have hv := hview t
    rw [if_neg ht] at hv
    exact ⟨(congrArg Task.state hv :), (congrArg Task.pendStatus hv :), (congrArg Task.pendOn hv :)⟩
  · rw [h'.pendTasks_eq hI', H.rep.pendTasks_eq H.sound, hwait, List.filter_map]
    rfl

theorem objPendAbort_loop {type : ObjType} {Q : Ret → OS → Prop} (hint : s.intNestingCtr = 0)
    (hopt : pendAbortOptValid opt = true) (htype : (s.obj o).type = type) (hne : (s.obj o).pendList.nbrEntries ≠ 0)
    (hQ : twp n cfg (Prog.loop (pendAbortStep o opt s.tsNow) 0) (fun k s' =>
      twp n cfg (do schedOpt opt; return ({ err := .none, val := k } : Ret)) Q s') s) :
    twp n cfg (objPendAbort type (some o) opt) Q s := by
  rw [objPendAbort, twp_bind, twp_get, if_neg (by omega)]
  dsimp only
  rw [if_neg (by simp [hopt]), twp_bind, twp_getObj, if_neg (by simp [htype]), twp_bind, twp_getObj, if_neg hne, twp_bind]
  exact hQ

theorem objPendAbort_settles {type : ObjType} (H : Ready cfg s a) (F : Fit cfg s a) (hat : s.atTask)
    (hopt : pendAbortOptValid opt = true) (htype : (s.obj o).type = type) (hne : s.pendTasks o ≠ []) :
    Settles cfg (objPendAbort type (some o) opt) s
      (Aborts s o (if opt = optPendAbortAll then (s.pendTasks o).toFinset else ((s.pendTasks o).take 1).toFinset)) := by
  obtain ⟨hrun, hint, -⟩ := hat
  have hlist := F.rep.pendTasks_eq F.sound o
  cases hw : a.waiting o with
  | nil =>
    rw [hw] at hlist
    exact absurd hlist hne
  | cons d l =>
    have hd : (a.waiting o).head? = some d := by rw [hw]; rfl
    refine ⟨(a.waiting o).length + 1, fun n hn => objPendAbort_loop hint hopt htype (F.rep.pendNbr_ne hd) ?_⟩
    split
    · rename_i hall
      rw [hall, hlist]
      refine (pendAbortLoop_all F (by omega)).mono ?_
      rintro _ s' ⟨rfl, hA⟩
      exact hA.finish H hrun
    · rename_i hall
      refine (pendAbortLoop_first F hd hall (by omega)).mono ?_
      rintro _ s' ⟨rfl, hA⟩
      have hhead : ((s.pendTasks o).take 1).toFinset = {d.1} := by
        rw [hlist, hw]
        rfl
      rw [hhead]
      exact hA.finish H hrun

/-- The call serves the tasks that its option names, unless it is `OS_OPT_PEND_ABORT_ALL` together with
`OS_OPT_POST_NO_SCHED`, and there is more than one task: then it serves only the first. -/
theorem objPendAbort_serves_iff {type : ObjType}
    (run : CodeRun cfg (fun _ x => ¬ PassedMatch cfg x.pre x.event ∧ ¬ FlagHit x.pre x.event) h s) (hfit : NoWrap cfg h)
    (hat : s.atTask) (hopt : pendAbortOptValid opt = true) (htype : (s.obj o).type = type) (hne : s.pendTasks o ≠ [])
    (hx : Fits cfg (objPendAbort type (some o) opt) s) :
    SettlesIn .word cfg (objPendAbort type (some o) opt) s (fun _ _ => True) ∧
      (SettlesIn .word cfg (objPendAbort type (some o) opt) s (Aborts s o (s.toAbort o opt)) ↔
        ¬ (opt = optPendAbortAll ||| optPostNoSched ∧ 1 < (s.pendTasks o).toFinset.card)) := by
  obtain ⟨a, H, F⟩ := run_fit (run.fits hfit .nat)
  have hset := objPendAbort_settles H F hat hopt htype hne
  rw [hx.settlesIn_iff, hx.settlesIn_iff]
  refine ⟨hset.mono fun _ _ _ => trivial, fun hnamed => ?_, fun hcond => ?_⟩
  · -- the two numbers of tasks differ
    rintro ⟨rfl, hmany⟩
    obtain ⟨r, s', ⟨-, hval, -⟩, -, hval', -⟩ := hset.both hnamed
    rw [hval, if_neg (by decide), OS.toAbort, if_pos (by simp)] at hval'
    have hone : ((s.pendTasks o).take 1).toFinset.card ≤ 1 :=
      (List.toFinset_card_le _).trans (by simp)
    omega
  · rw [OS.toAbort]
    by_cases hall : opt = optPendAbortAll
    · rw [if_pos (.inl hall)]
      rwa [if_pos hall] at hset
    · rw [if_neg hall] at hset
      split
      · rename_i hno
        have hno' : opt = optPendAbortAll ||| optPostNoSched := hno.resolve_left hall
        have hle : (s.pendTasks o).toFinset.card ≤ 1 := by
          by_contra hgt
          exact hcond ⟨hno', by omega⟩
        -- with one task the first is all of them
        have hsub : ((s.pendTasks o).take 1).toFinset = (s.pendTasks o).toFinset := by
          apply Finset.eq_of_subset_of_card_le
          · intro t ht
            rw [List.mem_toFinset] at ht ⊢
            exact List.mem_of_mem_take ht
          · refine hle.trans (Finset.card_pos.mpr ?_)
            obtain ⟨t, l, hl⟩ := List.exists_cons_of_ne_nil hne
            exact ⟨t, by simp [hl]⟩
        rwa [hsub] at hset
      · exact hset

/-- Two tasks wait for a semaphore, and both waits are aborted. -/
theorem objPendAbort_serves_two : ∃ h s, CodeRun Cfg.repository
    (fun _ x => ¬ PassedMatch Cfg.repository x.pre x.event ∧ ¬ FlagHit x.pre x.event) h s ∧ NoWrap Cfg.repository h ∧
    s.pendTasks 0 = [4, 5] ∧
    SettlesIn .word Cfg.repository (osSemPendAbort (some 0) optPendAbortAll) s (Aborts s 0 {4, 5}) := by
  obtain ⟨h, s, run, hfit, hat, htype, hlist, hx⟩ := CodeRun.of_play_flagless Cfg.repository 60
    (fun _ s => s.atTask ∧ (s.obj 0).type = .sem ∧ s.pendTasks 0 = [4, 5] ∧
      ((osSemPendAbort (some 0) optPendAbortAll).checked 60 Cfg.repository s).join.isSome = true)
    [.newTask 4 5, .newTask 5 6, .newTask 6 7, .call (.semCreate (some 0) 0), .start,
      .call (.semPend (some 0) 0 optPendBlocking), .call (.semPend (some 0) 10 optPendBlocking)] (by decide +kernel)
  have hopt : pendAbortOptValid optPendAbortAll = true := by decide
  have hserve := (objPendAbort_serves_iff run hfit hat hopt htype (by simp [hlist]) (fits_of_isSome hx)).2.mpr
    fun hno => absurd hno.1 (by decide)
  have hall : s.toAbort 0 optPendAbortAll = {4, 5} := by
    rw [OS.toAbort, if_pos (.inl rfl), hlist]
    rfl
  rw [hall] at hserve
  exact ⟨h, s, run, hfit, hlist, hserve⟩

/-- With `OS_OPT_PEND_ABORT_ALL` and `OS_OPT_POST_NO_SCHED` only one of the two waits is aborted. -/
theorem pendAbort_all_serves_one : ∃ h s, CodeRun Cfg.repository (fun _ _ => True) h s ∧ s.atTask ∧
    (s.obj 0).type = .sem ∧ pendAbortOptValid (optPendAbortAll ||| optPostNoSched) = true ∧ s.pendTasks 0 = [4, 5] ∧
    (∃ r s', RunsIn .word Cfg.repository (osSemPendAbort (some 0) (optPendAbortAll ||| optPostNoSched)) s r s' ∧
      r.err = .none ∧ r.val = 1 ∧ s'.pendTasks 0 = [5] ∧ (s'.tcb 5).taskState = .pendTimeout) ∧
    ¬ SettlesIn .word Cfg.repository (osSemPendAbort (some 0) (optPendAbortAll ||| optPostNoSched)) s
      (Aborts s 0 (s.toAbort 0 (optPendAbortAll ||| optPostNoSched))) := by
  obtain ⟨h, s, run, hfit, hat, htype, hlist, hone⟩ := CodeRun.of_play_flagless Cfg.repository 60
    (fun _ s => s.atTask ∧ (s.obj 0).type = .sem ∧ s.pendTasks 0 = [4, 5] ∧
      (((osSemPendAbort (some 0) (optPendAbortAll ||| optPostNoSched)).checked 60 Cfg.repository s).join.any fun x =>
        x.1.err = .none ∧ x.1.val = 1 ∧ x.2.pendTasks 0 = [5] ∧ (x.2.tcb 5).taskState = .pendTimeout) = true)
    [.newTask 4 5, .newTask 5 6, .newTask 6 7, .call (.semCreate (some 0) 0), .start,
      .call (.semPend (some 0) 0 optPendBlocking), .call (.semPend (some 0) 10 optPendBlocking)] (by decide +kernel)
  obtain ⟨⟨r, s'⟩, hx, hr⟩ := (Option.any_eq_true _ _).mp hone
  rw [Option.join_eq_some_iff] at hx
  refine ⟨h, s, run.mono fun _ _ _ => trivial, hat, htype, by decide, hlist,
    ⟨r, s', runsIn_of_checked hx _, of_decide_eq_true hr⟩, ?_⟩
  rw [(fits_of_checked hx).settlesIn_iff]
  intro hnamed
  obtain ⟨a, H, F⟩ := run_fit (run.fits hfit .nat)
  have hopt : pendAbortOptValid (optPendAbortAll ||| optPostNoSched) = true := by decide
  have hset := objPendAbort_settles H F hat hopt htype (by simp [hlist])
  obtain ⟨r, s', ⟨-, hval, -⟩, -, hval', -⟩ := hset.both hnamed
  rw [hval, if_neg (by decide), OS.toAbort, if_pos (by simp), hlist] at hval'
  revert hval'
  decide

end call

end UcosIII
