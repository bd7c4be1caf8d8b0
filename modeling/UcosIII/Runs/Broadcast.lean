import UcosIII.Abstract.FileSteps
import UcosIII.Runs.Waking

namespace UcosIII

open Prog

variable {n : ℕ} {cfg : Cfg} {s s' : OS} {a b : Abs} {h : List Step} {t : TcbId} {o : ObjId} {d : PdId} {opt : Opt}
  {m : Mail} {S : Finset TcbId}

section walkable

/-- No task has two entries in the list, or only the last two entries are of one task. -/
def Walkable (l : List TcbId) : Prop := l.Nodup ∨ ∃ L t, l = L ++ [t, t] ∧ (L ++ [t]).Nodup

theorem walkable_cons {l : List TcbId} : Walkable (t :: l) ↔ t ∉ l ∧ Walkable l ∨ l = [t] := by
  constructor
  · rintro (hn | ⟨L, u, hl, hn⟩)
    · exact .inl ⟨(List.nodup_cons.mp hn).1, .inl (List.nodup_cons.mp hn).2⟩
    cases L with
    | nil =>
      simp only [List.nil_append, List.cons.injEq] at hl
      obtain ⟨rfl, rfl⟩ := hl
      exact .inr rfl
    | cons x L =>
      simp only [List.cons_append, List.cons.injEq] at hl
      obtain ⟨rfl, rfl⟩ := hl
      obtain ⟨hx, hn⟩ := List.nodup_cons.mp hn
      refine .inl ⟨?_, .inr ⟨L, u, rfl, hn⟩⟩
      simpa using hx
  · rintro (⟨ht, hn | ⟨L, u, rfl, hn⟩⟩ | rfl)
    · exact .inl (List.nodup_cons.mpr ⟨ht, hn⟩)
    · refine .inr ⟨t :: L, u, rfl, List.nodup_cons.mpr ⟨?_, hn⟩⟩
      simpa using ht
    · exact .inr ⟨[], t, rfl, List.nodup_singleton t⟩

end walkable

section post

/-- The loop has ended the waits of the tasks of `S` from the state `s` on, and left them the message. -/
structure Posting (cfg : Cfg) (s : OS) (a : Abs) (o : ObjId) (m : Mail) (S : Finset TcbId) (b : Abs) (s' : OS) : Prop where
  fit : Fit cfg s' b
  ended : a.Ended S .ok b
  sub : ∀ t ∈ S, t ∈ (a.waiting o).map Prod.fst
  file : ∀ t, s'.file t = if t ∈ S then (s.file t).posted (some o) m else s.file t

theorem Posting.start (F : Fit cfg s a) : Posting cfg s a o m ∅ a s :=
  ⟨F, .refl _ a, by simp, fun t => by simp⟩

theorem Posting.next (h : Posting cfg s a o m S b s') (hd : d ∈ b.waiting o) :
    twp n cfg (post (some o) d.1 m.msgPtr m.msgSize m.ts)
      (fun _ s'' => Posting cfg s a o m (insert d.1 S) (b.wake d.1 .ok) s'') s' := by
  have F := h.fit
  have hnot : d.1 ∉ S := h.ended.not_mem hd
  obtain ⟨hprio, htab⟩ := F.waiter hd
  have hpend : (s'.file d.1).state.isPend = true := by
    change (s'.tcb d.1).taskState.isPend = true
    rw [F.rep.state]
    exact F.sound.isPend_of_mem hd
  refine ((post_returns F.rep F.sound F.wheelOk hprio htab _ _ _).twp
    ((post_spec F.rep F.sound (by simp) _ _ _).and (post_file (F.rep.own F.sound _) _ _ _))).mono ?_
  rintro _ s'' ⟨h'', hfile⟩
  refine ⟨F.wake h'', h.ended.wake F.sound hnot, fun t ht => ?_, fun t => ?_⟩
  · rcases Finset.mem_insert.mp ht with rfl | ht
    · exact List.mem_map_of_mem (h.ended.mem hd)
    · exact h.sub t ht
  · rw [hfile, if_pos hpend, h.file, if_neg hnot, Function.update_apply]
    by_cases ht : t = d.1
    · subst ht
      simp
    · rw [if_neg ht, h.file]
      simp [ht]

theorem post_idle (hp : (s.tcb t).taskState.isPend = false) (o : Option ObjId) (pVoid : Option ℕ) (msgSize ts : ℕ) :
    twp n cfg (post o t pVoid msgSize ts) (fun _ s' => s' = s) s := by
  rw [post, twp_bind, twp_getTcb]
  cases hs : (s.tcb t).taskState with
  | rdy | dly | suspended | dlySuspended | del => exact twp_pure.mpr rfl
  | pend | pendTimeout | pendSuspended | pendTimeoutSuspended =>
    rw [hs] at hp
    cases hp

end post

section loop

variable {rest : List PdId}

theorem Rep.nextPtr (hrep : Rep cfg s b) (hw : b.waiting o = d :: rest) : (s.pendData d).nextPtr = rest.head? :=
  ((hrep.pend.list o).dlist.links [] d rest hw).1

theorem postLoop_turn {Q : Unit → OS → Prop} {cnt : ℕ} (h : Posting cfg s a o m S b s') (hw : b.waiting o = d :: rest)
    (hQ : ∀ s'', Posting cfg s a o m (insert d.1 S) (b.wake d.1 .ok) s'' →
      twp n cfg (postLoop o m.msgPtr m.msgSize m.ts cnt rest.head?) Q s'') :
    twp n cfg (postLoop o m.msgPtr m.msgSize m.ts (cnt + 1) (some d)) Q s' := by
  have hmem : d ∈ b.waiting o := by rw [hw]; exact List.mem_cons_self
  rw [postLoop, twp_bind, twp_deref]
  refine ⟨d, rfl, ?_⟩
  rw [twp_bind, twp_getPendData, twp_bind, twp_deref]
  refine ⟨d.1, h.fit.rep.tcbPtr h.fit.sound hmem, ?_⟩
  rw [twp_bind, h.fit.rep.nextPtr hw]
  exact (h.next hmem).mono fun _ s'' h'' => hQ s'' h''

theorem postLoop_walks (h : Posting cfg s a o m S b s')
    (hwalk : Walkable ((b.waiting o).map Prod.fst)) :
    twp n cfg (postLoop o m.msgPtr m.msgSize m.ts (b.waiting o).length (b.waiting o).head?)
      (fun _ s'' => ∃ b', Posting cfg s a o m (S ∪ ((b.waiting o).map Prod.fst).toFinset) b' s'') s' := by
  -- along the entries that are left: each turn takes one, and the last may take two
  induction hw : b.waiting o generalizing b S s' with
  | nil => exact twp_pure.mpr ⟨b, by simpa using h⟩
  | cons d rest ih =>
    have F := h.fit
    rw [hw, List.map_cons, walkable_cons] at hwalk
    refine postLoop_turn h hw fun s'' h'' => ?_
    rcases hwalk with ⟨hnot, hwalk⟩ | hlast
    · have hrest : (b.wake d.1 .ok).waiting o = rest := by
        rw [F.sound.waiting_wake, hw, List.filter_cons_of_neg (by simp), List.filter_eq_self]
        intro x hx
        rw [decide_eq_true_eq]
        rintro hxd
        exact hnot (hxd ▸ List.mem_map_of_mem hx)
      refine (ih h'' (by rwa [hrest]) hrest).mono ?_
      rintro _ s₂ ⟨b', h₂⟩
      refine ⟨b', ?_⟩
      have hset : insert d.1 S ∪ (rest.map Prod.fst).toFinset = S ∪ ((d :: rest).map Prod.fst).toFinset := by
        ext x
        simp only [Finset.mem_union, Finset.mem_insert, List.mem_toFinset, List.map_cons, List.mem_cons]
        tauto
      rwa [hset] at h₂
    · obtain ⟨e, rfl, he⟩ := List.map_eq_singleton_iff.mp hlast
      have hidle : (s''.tcb e.1).taskState.isPend = false := by
        rw [h''.fit.rep.state, he, Abs.task_wake, if_pos rfl]
        grind
      have htcb : (s''.pendData e).tcbPtr = some e.1 := by
        have hback := F.sound.wait.back o e (by rw [hw]; simp)
        have hent := h''.fit.rep.entry e
        rw [Abs.entry_wake] at hent
        rw [← hback, hent]
        rfl
      rw [List.length_singleton, postLoop, List.head?_cons, twp_bind, twp_deref]
      refine ⟨e, rfl, ?_⟩
      rw [twp_bind, twp_getPendData, twp_bind, twp_deref]
      refine ⟨e.1, htcb, ?_⟩
      rw [twp_bind]
      refine (post_idle hidle _ _ _ _).mono ?_
      rintro _ s₂ rfl
      refine twp_pure.mpr ⟨b.wake d.1 .ok, ?_⟩
      have hset : S ∪ ([d, e].map Prod.fst).toFinset = insert d.1 S := by
        ext x
        simp only [Finset.mem_union, Finset.mem_insert, List.mem_toFinset, List.map_cons, List.map_nil, List.mem_cons,
          List.not_mem_nil, he]
        tauto
      rwa [hset]

theorem postLoop_past {cnt : ℕ} (hcnt : 0 < cnt) :
    wp n cfg (postLoop o m.msgPtr m.msgSize m.ts cnt none) (fun _ _ => False) s := by
  obtain ⟨k, rfl⟩ : ∃ k, cnt = k + 1 := ⟨cnt - 1, by omega⟩
  rw [postLoop, wp_bind, wp_deref]
  rintro _ ⟨⟩

theorem postLoop_dead {cnt : ℕ} (hrep : Rep cfg s b) (hI : b.Sound cfg) (hoff : ∀ o, d ∉ b.waiting o) (hcnt : 1 < cnt) :
    wp n cfg (postLoop o m.msgPtr m.msgSize m.ts cnt (some d)) (fun _ _ => False) s := by
  obtain ⟨k, rfl⟩ : ∃ k, cnt = k + 1 := ⟨cnt - 1, by omega⟩
  have hnone : (s.pendData d).nextPtr = none := hrep.pend.off d hoff
  rw [postLoop, wp_bind, wp_deref]
  rintro _ ⟨⟩
  rw [wp_bind, wp_getPendData, wp_bind, wp_deref]
  rintro t -
  rw [wp_bind, hnone]
  exact (post_spec hrep hI (by simp) _ _ _).mono fun _ _ _ => postLoop_past (by omega)

theorem postLoop_faults {cnt : ℕ} (hrep : Rep cfg s b) (hI : b.Sound cfg) (hcnt : (b.waiting o).length < cnt ∨
      (b.waiting o).length = cnt ∧ ¬ Walkable ((b.waiting o).map Prod.fst)) :
    wp n cfg (postLoop o m.msgPtr m.msgSize m.ts cnt (b.waiting o).head?) (fun _ _ => False) s := by
  induction cnt generalizing s b with
  | zero =>
    rcases hcnt with hlt | ⟨hz, hno⟩
    · omega
    · rw [List.length_eq_zero_iff.mp hz] at hno
      exact absurd (.inl List.nodup_nil) hno
  | succ cnt ih =>
    cases hw : b.waiting o with
    | nil => exact postLoop_past (by omega)
    | cons d rest =>
      have hmem : d ∈ b.waiting o := by rw [hw]; exact List.mem_cons_self
      rw [hw] at hcnt
      simp only [List.length_cons, List.map_cons] at hcnt
      rw [postLoop, List.head?_cons, wp_bind, wp_deref]
      rintro _ ⟨⟩
      rw [wp_bind, wp_getPendData, wp_bind, wp_deref, hrep.tcbPtr hI hmem, hrep.nextPtr hw]
      rintro _ ⟨⟩
      rw [wp_bind]
      refine (post_spec hrep hI (by simp) _ _ _).mono fun _ s₁ h₁ => ?_
      have hI₁ : (b.wake d.1 .ok).Sound cfg := hI.wake d.1 .ok
      have hwait : (b.wake d.1 .ok).waiting o = rest.filter fun x => x.1 ≠ d.1 := by
        rw [hI.waiting_wake, hw, List.filter_cons_of_neg (by simp)]
      cases hr : rest with
      | nil =>
        refine postLoop_past ?_
        rw [hr] at hcnt
        rcases hcnt with hlt | ⟨-, hno⟩
        · simpa using hlt
        · exact absurd (.inl (by simp)) hno
      | cons e l =>
        by_cases he : e.1 = d.1
        · -- the next entry has gone with the wait of its task
          refine postLoop_dead h₁ hI₁ (hI.off_wake d.1 he) ?_
          rw [hr] at hcnt
          rcases hcnt with hlt | ⟨heq, hno⟩
          · simp only [List.length_cons] at hlt
            omega
          · cases l with
            | nil => exact absurd (walkable_cons.mpr (.inr (by simp [he]))) hno
            | cons x l =>
              simp only [List.length_cons] at heq
              omega
        · have hhead : (e :: l).head? = ((b.wake d.1 .ok).waiting o).head? := by
            rw [hwait, hr, List.filter_cons_of_pos (by simpa using he)]
            rfl
          rw [hhead]
          apply ih h₁ hI₁
          rw [hwait]
          have hle := List.length_filter_le (fun x : PdId => decide (x.1 ≠ d.1)) rest
          rcases hcnt with hlt | ⟨heq, hno⟩
          · left
            omega
          by_cases hd : d.1 ∈ rest.map Prod.fst
          · left
            obtain ⟨x, hx, hxd⟩ := List.mem_map.mp hd
            have hlt : (rest.filter fun x : PdId => decide (x.1 ≠ d.1)).length < rest.length :=
              List.length_filter_lt_length_iff_exists.mpr ⟨x, hx, by simpa using hxd⟩
            omega
          · right
            have hself : (rest.filter fun x : PdId => decide (x.1 ≠ d.1)) = rest := by
              rw [List.filter_eq_self]
              intro x hx
              rw [decide_eq_true_eq]
              rintro hxd
              exact hd (hxd ▸ List.mem_map_of_mem hx)
            rw [hself]
            exact ⟨by omega, fun hwalk => hno (walkable_cons.mpr (.inl ⟨hd, hwalk⟩))⟩

end loop

section call

/-- The post has woken every task of the list of `o` once, with the message, and no other task. -/
structure Broadcast (cfg : Cfg) (s s' : OS) (o : ObjId) (m : Mail) : Prop where
  woken : ∀ t ∈ s.pendTasks o, (s'.tcb t).taskState = (s.tcb t).taskState.woken ∧ (s'.tcb t).pendStatus = .ok ∧
    (s'.tcb t).pendOn = .nothing
  once : ∀ t ∈ s.pendTasks o, ∀ p < cfg.prioMax,
    (s'.rdyTasks p).count t = if (s'.tcb t).taskState = .rdy ∧ (s'.tcb t).prio = p then 1 else 0
  told : ∀ t ∈ s.pendTasks o,
    if (s.tcb t).pendOn = .multi then
      ∃ i, (s.file t).firstRow (some o) = some i ∧ (s'.pendData (t, i)).row = ⟨some o, m.msgPtr, m.msgSize, m.ts⟩
    else (s'.tcb t).mail = m
  kept : ∀ t, t ∉ s.pendTasks o → (s'.tcb t).taskState = (s.tcb t).taskState ∧
    (s'.tcb t).pendStatus = (s.tcb t).pendStatus ∧ (s'.tcb t).pendOn = (s.tcb t).pendOn ∧ (s'.tcb t).mail = (s.tcb t).mail
  empty : s'.pendTasks o = []

theorem Ready.firstRow (H : Ready cfg s a) (hd : d ∈ a.waiting o) : ∃ i, (s.file d.1).firstRow (some o) = some i := by
  obtain ⟨htab, hobj⟩ := (H.sound.wait.mem_iff o d).mp hd
  rw [H.rep.task] at htab
  rw [H.rep.entry] at hobj
  have hfind : ((s.file d.1).table.find? fun x => ((s.file d.1).row x.2).1 = some o).isSome := by
    rw [List.find?_isSome]
    exact ⟨d, htab, decide_eq_true hobj⟩
  obtain ⟨x, hx⟩ := Option.isSome_iff_exists.mp hfind
  exact ⟨x.2, by rw [File.firstRow, hx]; rfl⟩

theorem Posting.finish (H : Ready cfg s a) (hrun : s.running = true)
    (h : Posting cfg s a o m ((a.waiting o).map Prod.fst).toFinset b s') :
    twp n cfg (schedOpt opt) (fun _ s'' => Broadcast cfg s s'' o m) s' := by
  have hmem (t : TcbId) : t ∈ s.pendTasks o ↔ t ∈ ((a.waiting o).map Prod.fst).toFinset := by
    rw [H.rep.pendTasks_eq H.sound, List.mem_toFinset]
  refine ((H.schedOpt_ended hrun h.ended h.fit opt).and_wp (keeps_file_schedOpt opt n cfg s')).mono ?_
  rintro _ s'' ⟨⟨b', h', hI', htask, hwait⟩, hkeep⟩
  have hfile (t : TcbId) : s''.file t = if t ∈ s.pendTasks o then (s.file t).posted (some o) m else s.file t := by
    rw [hkeep, h.file]
    simp only [hmem]
  have hview (t : TcbId) : (s''.tcb t).view =
      if t ∈ s.pendTasks o then ((s.tcb t).view).woken .ok else (s.tcb t).view := by
    rw [← h'.task, htask, H.rep.task]
    simp only [hmem]
  refine ⟨fun t ht => ?_, fun t ht p hp => ?_, fun t ht => ?_, fun t ht => ?_, ?_⟩
  · obtain ⟨d, hd, rfl⟩ := List.mem_map.mp (List.mem_toFinset.mp ((hmem t).mp ht))
    have hp : (s.tcb d.1).view.state.isPend = true := by
      rw [← H.rep.task]
      exact H.sound.isPend_of_mem hd
    have hv := hview d.1
    rw [if_pos ht, Task.woken, if_pos hp] at hv
    exact ⟨(congrArg Task.state hv :), (congrArg Task.pendStatus hv :), (congrArg Task.pendOn hv :)⟩
  · rw [h'.rdyTasks_eq hp, List.Nodup.count (h'.rdy.lists.list p hp).dlist.nodup, h'.state, h'.prio]
    exact if_congr (hI'.ready t p) rfl rfl
  · obtain ⟨d, hd, rfl⟩ := List.mem_map.mp (List.mem_toFinset.mp ((hmem t).mp ht))
    have hf := hfile d.1
    rw [if_pos ht, File.posted] at hf
    split
    · rename_i hm
      obtain ⟨i, hi⟩ := H.firstRow hd
      rw [if_pos (show (s.file d.1).pendOn = .multi from hm), File.mark, hi] at hf
      refine ⟨i, hi, ?_⟩
      calc (s''.pendData (d.1, i)).row = ((s''.file d.1).row i).2 := rfl
        _ = _ := by simp [hf, File.setRow, File.unpend, File.woken]
    · rename_i hm
      rw [if_neg (show ¬ (s.file d.1).pendOn = .multi from hm)] at hf
      exact (congrArg File.mail hf :)
  · have hv := hview t
    rw [if_neg ht] at hv
    have hf := hfile t
    rw [if_neg ht] at hf
    exact ⟨(congrArg Task.state hv :), (congrArg Task.pendStatus hv :), (congrArg Task.pendOn hv :), (congrArg File.mail hf :)⟩
  · rw [h'.pendTasks_eq hI', hwait, List.map_eq_nil_iff, List.filter_eq_nil_iff]
    intro d hd
    simpa using ⟨d.2, hd⟩

theorem broadcast_settles_iff {α : Type} {p : K α} {k : Unit → K α} {Q : α → OS → Prop} (H : Ready cfg s a)
    (F : Fit cfg s a)
    (hp : ∀ n, p n cfg s = (postLoop o m.msgPtr m.msgSize m.ts (s.obj o).pendList.nbrEntries
      (s.obj o).pendList.headPtr >>= k) n cfg s)
    (hk : ∀ (n : ℕ) b s', Posting cfg s a o m ((a.waiting o).map Prod.fst).toFinset b s' → twp n cfg (k ()) Q s') :
    Settles cfg p s Q ↔ Walkable (s.pendTasks o) := by
  have hnbr : (s.obj o).pendList.nbrEntries = (a.waiting o).length := (H.rep.pend.list o).nbr_eq
  rw [hnbr, H.rep.pendHead] at hp
  rw [H.rep.pendTasks_eq H.sound]
  constructor
  · rintro ⟨j, hj⟩
    by_contra hno
    obtain ⟨x, s', hx, -⟩ := hj j le_rfl
    rw [hp, bind_apply] at hx
    obtain ⟨⟨y, s₁⟩, hy, -⟩ := Option.bind_eq_some_iff.mp hx
    exact postLoop_faults H.rep H.sound (.inr ⟨rfl, hno⟩) y s₁ hy
  · intro hwalk
    refine ⟨0, fun n _ => ?_⟩
    have hloop : twp n cfg (postLoop o m.msgPtr m.msgSize m.ts (a.waiting o).length (a.waiting o).head? >>= k) Q s := by
      rw [twp_bind]
      refine (postLoop_walks (.start F) hwalk).mono ?_
      rintro _ s' ⟨b, h⟩
      rw [Finset.empty_union] at h
      exact hk n b s' h
    obtain ⟨x, s', hx, hQ⟩ := hloop
    exact ⟨x, s', (hp n).trans hx, hQ⟩

theorem osSemPost_eq (hopt : semPostOptValid opt = true) (hall : opt &&& optPostAll ≠ 0) (htype : (s.obj o).type = .sem)
    (hne : (s.obj o).pendList.nbrEntries ≠ 0) {c : Reading} (n : ℕ) :
    (osSemPost (some o) opt).run c n cfg s =
      (postLoop o none 0 s.tsNow (s.obj o).pendList.nbrEntries (s.obj o).pendList.headPtr >>= fun _ => do
        let ctr := (← getObj o).ctr
        schedOpt opt
        return { err := .none, val := ctr } : K Ret).run c n cfg s := by
  have hget : (getObj o).run c n cfg s = some (s.obj o, s) := rfl
  have hts : tsGet.run c n cfg s = some (s.tsNow, s) := rfl
  have hall' : ¬ opt &&& optPostAll = 0#16 := hall
  simp [osSemPost, semPost, hget, hts, hopt, htype, hne, hall']

theorem osQPost_eq {pVoid : Option ℕ} {msgSize : ℕ} (hopt : qPostOptValid opt = true) (hall : opt &&& optPostAll ≠ 0)
    (htype : (s.obj o).type = .q) (hne : (s.obj o).pendList.nbrEntries ≠ 0) (n : ℕ) :
    osQPost (some o) pVoid msgSize opt n cfg s =
      (postLoop o pVoid msgSize s.tsNow (s.obj o).pendList.nbrEntries (s.obj o).pendList.headPtr >>= fun _ => do
        schedOpt opt
        return .none) n cfg s := by
  have hget : getObj o n cfg s = some (s.obj o, s) := rfl
  have hts : tsGet n cfg s = some (s.tsNow, s) := rfl
  have hall' : ¬ opt &&& optPostAll = 0#16 := hall
  simp [osQPost, qPost, hget, hts, hopt, htype, hne, hall']

theorem Ready.nbrEntries_ne (H : Ready cfg s a) (hne : s.pendTasks o ≠ []) : (s.obj o).pendList.nbrEntries ≠ 0 := by
  have hlen : (s.obj o).pendList.nbrEntries = (a.waiting o).length := (H.rep.pend.list o).nbr_eq
  rw [H.rep.pendTasks_eq H.sound] at hne
  rw [hlen, Ne, List.length_eq_zero_iff]
  exact fun hnil => hne (by rw [hnil]; rfl)

/-- Posts to all the tasks that wait on a semaphore or a queue wake every one of them once, exactly if no task has two
entries in the list, the last two entries apart. -/
theorem broadcast_wakes_iff
    (run : CodeRun cfg (fun _ x => ¬ PassedMatch cfg x.pre x.event ∧ ¬ FlagHit x.pre x.event) h s) (hfit : NoWrap cfg h)
    (hrun : s.running = true) (hne : s.pendTasks o ≠ []) :
    (∀ opt, (s.obj o).type = .sem → semPostOptValid opt = true → opt &&& optPostAll ≠ 0 →
      Fits cfg (osSemPost (some o) opt) s →
      (SettlesIn .word cfg (osSemPost (some o) opt) s (fun r s' =>
        r.err = .none ∧ Broadcast cfg s s' o ⟨none, 0, s.tsNow⟩) ↔ Walkable (s.pendTasks o))) ∧
    ∀ opt pVoid msgSize, (s.obj o).type = .q → qPostOptValid opt = true → opt &&& optPostAll ≠ 0 →
      Fits cfg (osQPost (some o) pVoid msgSize opt) s →
      (SettlesIn .word cfg (osQPost (some o) pVoid msgSize opt) s (fun e s' => e = .none ∧
        Broadcast cfg s s' o ⟨pVoid, msgSize, s.tsNow⟩) ↔ Walkable (s.pendTasks o)) := by
  obtain ⟨a, H, F⟩ := run_fit (run.fits hfit .nat)
  have hnbr := H.nbrEntries_ne hne
  refine ⟨fun opt htype hopt hall hx => ?_, fun opt pVoid msgSize htype hopt hall hx => ?_⟩
  · rw [hx.settlesIn_iff]
    refine broadcast_settles_iff (m := ⟨none, 0, s.tsNow⟩) H F (osSemPost_eq hopt hall htype hnbr) fun n b s' h' => ?_
    rw [twp_bind, twp_getObj, twp_bind]
    exact (h'.finish H hrun).mono fun _ s'' h'' => twp_pure.mpr ⟨rfl, h''⟩
  · rw [hx.settlesIn_iff]
    refine broadcast_settles_iff (m := ⟨pVoid, msgSize, s.tsNow⟩) H F (osQPost_eq hopt hall htype hnbr) fun n b s' h' => ?_
    rw [twp_bind]
    exact (h'.finish H hrun).mono fun _ s'' h'' => twp_pure.mpr ⟨rfl, h''⟩

/-- One task waits for a semaphore, and another waits for it in two rows of a table: both are woken. -/
theorem broadcast_wakes_two_rows : ∃ h s, CodeRun Cfg.repository
    (fun _ x => ¬ PassedMatch Cfg.repository x.pre x.event ∧ ¬ FlagHit x.pre x.event) h s ∧ NoWrap Cfg.repository h ∧
    s.pendTasks 0 = [4, 5, 5] ∧ SettlesIn .word Cfg.repository (osSemPost (some 0) optPostAll) s (fun r s' =>
      r.err = .none ∧ Broadcast Cfg.repository s s' 0 ⟨none, 0, s.tsNow⟩) := by
  obtain ⟨h, s, run, hfit, hrun, htype, hlist, hx⟩ := CodeRun.of_play_flagless Cfg.repository 60
    (fun _ s => s.running = true ∧ (s.obj 0).type = .sem ∧ s.pendTasks 0 = [4, 5, 5] ∧
      ((osSemPost (some 0) optPostAll).checked 60 Cfg.repository s).join.isSome = true)
    [.newTask 4 5, .newTask 5 6, .newTask 6 7, .call (.semCreate (some 0) 0), .start,
      .call (.semPend (some 0) 0 optPendBlocking), .call (.pendMulti (some 0) [some 0, some 0] 10 optPendBlocking)]
    (by decide +kernel)
  refine ⟨h, s, run, hfit, hlist, ((broadcast_wakes_iff run hfit hrun (by simp [hlist])).1 optPostAll htype (by decide)
    (by decide) (fits_of_isSome hx)).mpr ?_⟩
  rw [hlist]
  exact .inr ⟨[4], 5, rfl, by simp⟩

/-- With the two rows before another entry the post follows a null pointer. -/
theorem broadcast_follows_null : ∃ h s, CodeRun Cfg.repository (fun _ _ => True) h s ∧ s.running = true ∧
    (s.obj 0).type = .sem ∧ s.pendTasks 0 = [4, 4, 5] ∧
    ∀ n, (osSemPost (some 0) optPostAll).run .word n Cfg.repository s = none := by
  -- the second row has been taken off the list when the loop comes to it
  let turns (s : OS) : K (Option PdId) := do
    post (some 0) 4 none 0 s.tsNow
    let e ← getPendData (4, 1)
    let t ← deref e.tcbPtr
    post (some 0) t none 0 s.tsNow
    return e.nextPtr
  obtain ⟨h, s, run, -, hrun, htype, hlist, hnbr, hhead, hrow, hturns⟩ := CodeRun.of_play_flagless Cfg.repository 60
    (fun _ s => s.running = true ∧ (s.obj 0).type = .sem ∧ s.pendTasks 0 = [4, 4, 5] ∧ (s.obj 0).pendList.nbrEntries = 3 ∧
      (s.obj 0).pendList.headPtr = some (4, 0) ∧
      ((s.pendData (4, 0)).tcbPtr = some 4 ∧ (s.pendData (4, 0)).nextPtr = some (4, 1)) ∧
      ((turns s).checked 60 Cfg.repository s).join.any (fun x => x.1 = none) = true)
    [.newTask 4 5, .newTask 5 6, .newTask 6 7, .call (.semCreate (some 0) 0), .start,
      .call (.pendMulti (some 0) [some 0, some 0] 10 optPendBlocking), .call (.semPend (some 0) 0 optPendBlocking)]
    (by decide +kernel)
  refine ⟨h, s, run.mono fun _ _ _ => trivial, hrun, htype, hlist, fun n => ?_⟩
  obtain ⟨⟨p, s'⟩, hx, hp⟩ := (Option.any_eq_true _ _).mp hturns
  have hfaults : wp ⟨.word, n⟩ Cfg.repository (turns s >>= postLoop 0 none 0 s.tsNow 1) (fun _ _ => False) s := by
    rw [wp_bind]
    refine (wp_of_checked (Option.join_eq_some_iff.mp hx) _).mono ?_
    rintro q _ ⟨hq, -⟩
    rw [hq.trans (of_decide_eq_true hp), postLoop, wp_bind, wp_deref]
    simp
  rw [osSemPost_eq (by decide) (by decide) htype (by simp [hnbr]), hnbr, hhead, bind_apply, Option.bind_eq_none_iff]
  rintro ⟨x, s₁⟩ hx'
  have hloop : wp ⟨.word, n⟩ Cfg.repository (postLoop 0 none 0 s.tsNow 3 (some (4, 0))) (fun _ _ => False) s := by
    rw [postLoop, wp_bind, wp_deref]
    rintro _ ⟨⟩
    rw [wp_bind, wp_getPendData, wp_bind, wp_deref, hrow.1, hrow.2]
    rintro _ ⟨⟩
    refine wp_bind.mpr ((wp_bind.mp (wp_bind.mp hfaults)).mono fun _ s₂ h₂ => ?_)
    rw [postLoop, wp_bind, wp_deref]
    rintro _ ⟨⟩
    rw [wp_bind, wp_getPendData, wp_bind, wp_deref] at h₂ ⊢
    intro t ht
    refine wp_bind.mpr ((wp_bind.mp (h₂ t ht)).mono fun _ _ h₃ => ?_)
    rwa [wp_pure] at h₃
  exact (hloop x s₁ hx').elim

end call

end UcosIII
