import UcosIII.Runs.OwnTokens

namespace UcosIII

open Prog

variable {n : ℕ} {cfg : Cfg} {s s' : OS} {a b a' : Abs} {t : TcbId} {o : ObjId} {d : PdId} {e : Event} {r : Option Ret}
  {h : List Step}

def Step.created (x : Step) (o : ObjId) : Option ℕ :=
  match x.event with
  | .call (.semCreate (some o') cnt) => if o' = o ∧ granted x.ret = true then some cnt else none
  | _ => none

def initialCtr (o : ObjId) : List Step → ℕ
  | [] => 0
  | x :: h => (x.created o).getD (initialCtr o h)

def sinceCreated (o : ObjId) : List Step → OS → List (Step × OS)
  | [], _ => []
  | x :: h, s => if (x.created o).isSome then [] else (x, s) :: sinceCreated o h x.pre

def SemBalance (h : List Step) (s : OS) (o : ObjId) : Prop :=
  initialCtr o h + ((sinceCreated o h s).map fun y => y.1.event.posts y.1.ret o).sum =
    (s.obj o).ctr + ((sinceCreated o h s).map fun y => y.1.event.takes y.1.pre y.1.ret y.2 o).sum

def sinceStarted (t : TcbId) : List Step → OS → List (Step × OS)
  | [], _ => []
  | x :: h, s => if x.event.restarts x.pre x.ret t then [] else (x, s) :: sinceStarted t h x.pre

def TaskBalance (h : List Step) (s : OS) (t : TcbId) : Prop :=
  ((sinceStarted t h s).map fun y => y.1.event.signals y.1.pre y.1.ret t).sum =
    (s.tcb t).semCtr + ((sinceStarted t h s).map fun y => y.1.event.takesOwn y.1.pre y.1.ret y.2 t).sum

/-- The counts of the semaphores and of the tasks, in the state `s` at the end of the run `h`. -/
structure TokensKept (cfg : Cfg) (h : List Step) (s : OS) : Prop where
  spare : ∀ o, (s.obj o).type = .sem → 0 < (s.obj o).ctr → (s.obj o).pendList.nbrEntries = 0 ∧ ∀ k, s.pendAt o k = none
  balance : ∀ o, (s.obj o).type = .sem → (∀ y ∈ sinceCreated o h s, ¬ y.1.event.resets y.1.ret o) → SemBalance h s o
  full : ∀ o opt, (s.obj o).type = .sem → (s.obj o).ctr = 0xFFFFFFFF → semPostOptValid opt = true →
    SettlesIn .word cfg (osSemPost (some o) opt) s fun x s' => x.err = .semOvf ∧ s' = s
  own : ∀ t, (∀ y ∈ sinceStarted t h s, ¬ y.1.event.resetsOwn y.1.pre y.1.ret t) → TaskBalance h s t

section runs

def Balanced (h : List Step) (s : OS) : Prop := ∀ o, (s.obj o).type = .sem →
  (∀ y ∈ sinceCreated o h s, ¬ y.1.event.resets y.1.ret o) → SemBalance h s o

theorem Step.created_eq (hD : e.Deals s r s') (ho : (s'.obj o).type = .sem) :
    (∃ cnt, Step.created ⟨s, e, r⟩ o = some cnt ∧ (s'.obj o).ctr = cnt) ∨
      Step.created ⟨s, e, r⟩ o = none ∧ (s.obj o).type = .sem := by
  rcases hD.count o with ⟨c, k, rfl, hc, hg, htype, hctr⟩ | ⟨htype, -⟩
  · have hk : k = .sem := htype.symm.trans ho
    subst hk
    cases c with
    | semCreate p cnt =>
      cases p with
      | none => cases hc
      | some o' =>
        cases hc
        exact .inl ⟨cnt, by simp [Step.created, hg], hctr cnt rfl⟩
    | _ => simp [Call.creates] at hc
  · have ho' : (s.obj o).type = .sem := htype.symm.trans ho
    unfold Step.created
    dsimp only
    split
    · rename_i o' cnt
      by_cases hoo : o' = o ∧ granted r = true
      · obtain ⟨rfl, hg⟩ := hoo
        rw [Event.Deals, if_pos hg] at hD
        refine .inl ⟨cnt, if_pos ⟨rfl, hg⟩, ?_⟩
        change (s'.stock o').ctr = cnt
        rw [hD, Function.update_self]
      · exact .inr ⟨if_neg hoo, ho'⟩
    · exact .inr ⟨rfl, ho'⟩

theorem Balanced.step (hB : Balanced h s) (H : Ready cfg s a) (hU : s.Unreported) (he : Enabled s e)
    (hx : Runs cfg e.exec s r s') (hF : Filed s e r s') (hone : e.postsAll = false) : Balanced (⟨s, e, r⟩ :: h) s' := by
  have hD : e.Deals s r s' := hx.wp fun n => Event.exec_deals e
  intro o ho hset
  rcases Step.created_eq hD ho with ⟨cnt, hc, hctr⟩ | ⟨hc, ho'⟩
  · simp [SemBalance, initialCtr, sinceCreated, hc, hctr]
  · simp only [sinceCreated, hc, Option.isSome_none, Bool.false_eq_true, ↓reduceIte, List.forall_mem_cons] at hset
    have hb := H.balance hU ho' he hx hF hone hset.1
    have hold : SemBalance h s o := hB o ho' hset.2
    simp only [SemBalance, initialCtr, sinceCreated, hc, Option.getD_none, Option.isSome_none, Bool.false_eq_true,
      ↓reduceIte, List.map_cons, List.sum_cons] at hold ⊢
    omega

def OwnBalanced (h : List Step) (s : OS) : Prop :=
  ∀ t, (∀ y ∈ sinceStarted t h s, ¬ y.1.event.resetsOwn y.1.pre y.1.ret t) → TaskBalance h s t

theorem Event.restarts_semCtr (hx : Runs cfg e.exec s r s') (hr : e.restarts s r t = true) : (s'.tcb t).semCtr = 0 := by
  unfold Event.restarts at hr
  split at hr
  · rename_i args
    refine hx.wp (Q := fun r s' => args.tcb = some t ∧ granted r = true → (s'.file t).semCtr = 0) (fun n => wp_errOnly.mpr ?_)
      (of_decide_eq_true hr)
    refine (osTaskCreate_file args).mono fun x s' h' ht => ?_
    rcases h' with ⟨-, t', ht', h'⟩ | ⟨hx, -⟩
    · obtain rfl : t' = t := Option.some.inj (ht'.symm.trans ht.1)
      rw [h', Function.update_self]
      rfl
    · exact absurd (by simpa [granted] using ht.2) hx
  · rename_i p
    refine hx.wp (Q := fun r s' => s.Target p t ∧ granted r = true → (s'.file t).semCtr = 0) (fun n => wp_errOnly.mpr ?_)
      (of_decide_eq_true hr)
    refine (osTaskDel_file p).mono fun x s' h' ht => ?_
    rcases h' with ⟨-, t', ht', h'⟩ | ⟨hx, -⟩
    · obtain rfl : t' = t := ht'.unique ht.1
      rw [h', Function.update_self]
      rfl
    · exact absurd (by simpa [granted] using ht.2) hx
  · cases hr

theorem OwnBalanced.step (hB : OwnBalanced h s) (H : Ready cfg s a) (he : Enabled s e) (hx : Runs cfg e.exec s r s')
    (hF : Filed s e r s') : OwnBalanced (⟨s, e, r⟩ :: h) s' := by
  intro t hset
  cases hr : e.restarts s r t with
  | true => simp [TaskBalance, sinceStarted, hr, Event.restarts_semCtr hx hr]
  | false =>
    simp only [sinceStarted, hr, Bool.false_eq_true, ↓reduceIte, List.forall_mem_cons] at hset
    have hb := H.balanceOwn he hx hF hr hset.1
    have hold : TaskBalance h s t := hB t hset.2
    simp only [TaskBalance, sinceStarted, hr, Bool.false_eq_true, ↓reduceIte, List.map_cons, List.sum_cons] at hold ⊢
    omega

theorem osSemPost_full {opt : Opt} (ho : (s.obj o).type = .sem) (h0 : (s.obj o).pendList.nbrEntries = 0)
    (hmax : (s.obj o).ctr = 0xFFFFFFFF) (hopt : semPostOptValid opt = true) :
    SettlesIn .word cfg (osSemPost (some o) opt) s fun x s' => x.err = .semOvf ∧ s' = s := by
  refine ⟨0, fun n _ => ?_⟩
  change twp ⟨.word, n⟩ cfg (osSemPost (some o) opt) _ s
  rw [osSemPost, if_neg (by simp [hopt]), twp_bind, twp_getObj, if_neg (not_not.mpr ho), twp_bind, twp_tsGet, semPost, twp_bind,
    twp_getObj, if_pos h0, if_pos hmax]
  exact twp_pure.mpr ⟨rfl, rfl⟩

theorem osInit_none (hx : Runs cfg osInit (OS.boot cfg) () s) (o : ObjId) : (s.obj o).type = .none := by
  have hs : s.stock = (OS.boot cfg).stock := hx.wp fun n => keeps_stock_osInit n cfg (OS.boot cfg)
  exact congrArg Stock.type (congrFun hs o)

/-- In every run without posts to all, counts are neither lost nor made. -/
theorem run_tokensKept (run : CodeRun cfg (fun _ x => ¬ PassedMatch cfg x.pre x.event ∧
    x.event.postsAll = false) h s) (hfit : NoWrap cfg h) : TokensKept cfg h s := by
  replace run : Run cfg _ h s := run.fits hfit .nat
  have hinit (s : OS) (hx : Runs cfg osInit (OS.boot cfg) () s) (h0 : ∀ t, (s.file t).AtStart) :
      s.Spare ∧ s.Unreported ∧ Balanced [] s ∧ OwnBalanced [] s := by
    have hnone {o : ObjId} (ho : (s.obj o).type = .sem) : False := by
      rw [osInit_none hx o] at ho
      cases ho
    refine ⟨fun o ho => (hnone ho).elim, fun t hp => ?_, fun o ho => (hnone ho).elim, fun t _ => ?_⟩
    · rcases (h0 t).1 with hs | hs <;> rw [hs] at hp <;> cases hp
    · have hctr : (s.tcb t).semCtr = 0 := (h0 t).2.2.2.2.2.1
      simp [TaskBalance, sinceStarted, hctr]
  obtain ⟨⟨a, H⟩, hS, -, hB, hO⟩ := run.files_init
    (I := fun h s => s.Spare ∧ s.Unreported ∧ Balanced h s ∧ OwnBalanced h s) (fun _ _ hP => hP.1) hinit (by
      intro h s a e r s' a' H hI he hP hx hF H' _
      obtain ⟨hS, hU, hB, hO⟩ := hI
      exact ⟨hS.step H H' he hx hF, hU.step H hF, hB.step H hU he hx hF hP.2, hO.step H he hx hF⟩)
  have hempty (o : ObjId) (ho : (s.obj o).type = .sem) (hpos : 0 < (s.obj o).ctr) : (s.obj o).pendList.nbrEntries = 0 :=
    H.nbr_eq_zero.mpr (hS o ho hpos)
  refine ⟨fun o ho hpos => ⟨hempty o ho hpos, H.rep.pendAt_none (hempty o ho hpos)⟩, hB, fun o opt ho hmax hopt => ?_, hO⟩
  exact osSemPost_full ho (hempty o ho (by omega)) hmax hopt

/-- Task 4 gets the count of the semaphore by its wait, and task 5, which lists it twice, a count of one row; the third
count stays. -/
theorem run_tokensKept_three : ∃ h s, CodeRun Cfg.repository
    (fun _ x => ¬ PassedMatch Cfg.repository x.pre x.event ∧ x.event.postsAll = false) h s ∧
    NoWrap Cfg.repository h ∧ (s.obj 0).type = .sem ∧
    (s.obj 0).ctr = 1 ∧ (s.tcb 4).taskState = .rdy ∧ (s.tcb 5).taskState = .rdy ∧ TokensKept Cfg.repository h s := by
  obtain ⟨h, s, run, hfit, ho, hc, h4, h5⟩ := RunIn.of_play .word Cfg.repository
    (fun _ x => ¬ PassedMatch Cfg.repository x.pre x.event ∧ x.event.postsAll = false) 60
    (fun _ s => (s.obj 0).type = .sem ∧ (s.obj 0).ctr = 1 ∧ (s.tcb 4).taskState = .rdy ∧ (s.tcb 5).taskState = .rdy)
    [.newTask 4 5, .newTask 5 6, .newTask 6 7, .call (.semCreate (some 0) 0), .start,
      .call (.semPend (some 0) 10 optPendBlocking), .call (.pendMulti (some 0) [some 0, some 0] 0 optPendBlocking),
      .intEnter, .call (.semPost (some 0) 0), .call (.semPost (some 0) 0), .call (.semPost (some 0) 0)]
    (by decide +kernel)
  exact ⟨h, s, run, hfit, ho, hc, h4, h5, run_tokensKept run hfit⟩

/-- A post to a semaphore with 65536 waiting tasks goes to the count. -/
theorem run_tokensKept_overflow : ∃ h s, CodeRun Cfg.repository
    (fun _ x => ¬ PassedMatch Cfg.repository x.pre x.event ∧ x.event.postsAll = false) h s ∧
    ¬ TokensKept Cfg.repository h s := by
  obtain ⟨h, h₀, s, run, -, htype, hctr, hhead⟩ := RunIn.of_crowd Cfg.repository 40
    [.newTask 4 7, .call (.semCreate (some 0) 0), .start] [.call (.semPost (some 0) optPost1)]
    (P := fun x => ¬ PassedMatch Cfg.repository x.pre x.event ∧ x.event.postsAll = false)
    (F := fun B => B.pendCrowd 0 .sem (.semPend 0) 65536) (H := fun B => B.HostsSem 0)
    (Q := fun _ s => (s.obj 0).type = .sem ∧ (s.obj 0).ctr = 1 ∧ (s.obj 0).pendList.headPtr = some (10, 0))
    (fun _ hP => hP.1) (fun h B run hB hdel => semCrowd_gathers run hB hdel (fun _ _ _ => ⟨id, rfl⟩) fun _ _ => ⟨id, rfl⟩)
    (by decide +kernel)
  refine ⟨_, s, run, fun hok => ?_⟩
  have hnone : s.pendAt 0 0 = none := (hok.spare 0 htype (by rw [hctr]; decide)).2 0
  rw [OS.pendAt, chainAt, hhead] at hnone
  cases hnone

end runs

end UcosIII
