import UcosIII.Runs.StatScan

namespace UcosIII

variable {d d' : StatSys} {t u p : TcbId} {e : StatEvent} {l xs ys : List TcbId}

section termination

/-- The number of tasks from `p` to the end of the list; a task that is not listed has no next one. -/
def ahead (p : TcbId) : List TcbId → ℕ
  | [] => 1
  | t :: l => if t = p then l.length + 1 else ahead p l

theorem ahead_pos (p : TcbId) (l : List TcbId) : 0 < ahead p l := by
  induction l with
  | nil => simp [ahead]
  | cons t l ih =>
    unfold ahead
    split
    · omega
    · exact ih

theorem ahead_of_notMem (h : p ∉ l) : ahead p l = 1 := by
  induction l with
  | nil => rfl
  | cons t l ih =>
    simp only [List.mem_cons, not_or] at h
    rw [ahead, if_neg (Ne.symm h.1), ih h.2]

theorem ahead_append (h : p ∉ xs) (ys : List TcbId) : ahead p (xs ++ ys) = ahead p ys := by
  induction xs with
  | nil => rfl
  | cons t xs ih =>
    simp only [List.mem_cons, not_or] at h
    rw [List.cons_append, ahead, if_neg (Ne.symm h.1), ih h.2]

theorem ahead_erase (p t : TcbId) (xs ys : List TcbId) (hnd : (xs ++ t :: ys).Nodup) :
    ahead p (xs ++ ys) ≤ ahead p (xs ++ t :: ys) := by
  induction xs with
  | nil =>
    rw [List.nil_append, List.nil_append, ahead]
    split
    · rename_i htp
      have htys : t ∉ ys := (List.nodup_cons.mp hnd).1
      rw [ahead_of_notMem (by rwa [← htp])]
      omega
    · exact Nat.le_refl _
  | cons x xs ih =>
    rw [List.cons_append, List.cons_append, ahead, ahead]
    split
    · simp
    · exact ih (List.nodup_cons.mp hnd).2

def aheadOf (l : List TcbId) : Option TcbId → ℕ
  | none => 0
  | some p => ahead p l

theorem aheadOf_next (hl : d.Linked l) (p : TcbId) : aheadOf l (d.tcb p).dbgNextPtr + 1 = ahead p l := by
  by_cases hp : p ∈ l
  · obtain ⟨xs, ys, rfl⟩ := List.append_of_mem hp
    have hnd := hl.dlist.nodup
    have hnext : (d.tcb p).dbgNextPtr = ys.head? := hl.dlist.next_eq
    have hxs : p ∉ xs := fun h => (List.nodup_append.mp hnd).2.2 p h p (by simp) rfl
    rw [hnext, ahead_append hxs, ahead, if_pos rfl]
    cases ys with
    | nil => rfl
    | cons y ys =>
      have hyp : p ≠ y := by
        rintro rfl
        simp [List.nodup_append] at hnd
      have hy : y ∉ xs := fun h => (List.nodup_append.mp hnd).2.2 y h y (by simp) rfl
      simp only [List.head?_cons, aheadOf, ahead_append hy]
      rw [ahead, if_neg hyp, ahead, if_pos rfl]
      rfl
  · have hlive : d.stage p ≠ .live := fun h => hp ((hl.live p).mpr h)
    rw [hl.apart p hlive, ahead_of_notMem hp]
    rfl

def StatPc.walks : StatPc → ℕ
  | .off => 0
  | .usage | .chk | .zero | .base | .scan | .store | .last => 1
  | .second => 2
  | .cycles | .sum | .next => 3
  | .first => 4

/-- A bound on the steps of the walk that goes on. The scan of a stack ends at `TaskPtr`. -/
def StatSys.left (d : StatSys) (l : List TcbId) : ℕ :=
  let r := aheadOf l d.pTcb
  match d.pc with
  | .off | .first | .second => 0
  | .cycles => 3 * r + 1
  | .sum => 3 * r
  | .next => 3 * r - 1
  | .usage => 20 * r + 1
  | .chk => 20 * r
  | .base => 20 * r - 1
  | .scan => 20 * r - 2 - d.freeStk.toNat
  | .zero | .store => 20 * r - 15
  | .last => 20 * r - 16

def StatSys.rank (d : StatSys) (l : List TcbId) : ℕ ×ₗ ℕ := toLex (d.pc.walks, d.left l)

theorem rank_lt (h : d'.pc.walks < d.pc.walks ∨ d'.pc.walks = d.pc.walks ∧ d'.left l < d.left l) : d'.rank l < d.rank l :=
  Prod.Lex.toLex_lt_toLex.mpr h

theorem statStep_rank (hl : d.Linked l) (h : d.Stands) (hpc : d.pc ≠ .off) (hx : d.statStep = some d') :
    d'.rank l < d.rank l := by
  apply rank_lt
  have hbody : d.pc.InBody → 0 < aheadOf l d.pTcb := by
    intro hb
    obtain ⟨p, hp⟩ := h.body hb
    rw [hp]
    exact ahead_pos p l
  cases hd : d.pc <;> simp only [StatSys.statStep, hd, Option.some.injEq, Option.map_eq_some_iff] at hx
  case off => exact absurd hd hpc
  case first | second =>
    subst hx
    simp [StatSys.goto, StatPc.walks]
  case cycles | usage =>
    split at hx
    · cases hx
      simp [StatSys.goto, StatPc.walks]
    · rename_i p hp
      cases hx
      simp [StatSys.goto, StatPc.walks, StatSys.left, StatSys.modTcb, hd]
  case sum | zero | store =>
    obtain ⟨p, hp, rfl⟩ := hx
    have := hbody (by simp [hd, StatPc.InBody])
    simp only [StatSys.goto, StatPc.walks, StatSys.left, StatSys.modTcb, hd, true_and]
    omega
  case next | last =>
    obtain ⟨p, hp, rfl⟩ := hx
    have := aheadOf_next hl p
    simp only [StatSys.goto, StatPc.walks, StatSys.left, hd, hp, true_and]
    have hr : aheadOf l (some p) = ahead p l := rfl
    omega
  case chk =>
    obtain ⟨p, hp, rfl⟩ := hx
    have := hbody (by simp [hd, StatPc.InBody])
    split_ifs <;> simp only [StatSys.goto, StatPc.walks, StatSys.left, hd, true_and] <;> omega
  case base =>
    obtain ⟨p, hp, rfl⟩ := hx
    have := hbody (by simp [hd, StatPc.InBody])
    simp only [StatSys.goto, StatPc.walks, StatSys.left, hd, true_and]
    omega
  case scan =>
    obtain ⟨x, hxs, rfl⟩ := hx
    have hb : d.pc.InBody := by simp [hd, StatPc.InBody]
    obtain ⟨p, hp⟩ := h.body hb
    have hf : d.freeStk.toNat ≤ 6 := (h.scan (.inl hd) p hp).2.1
    have := hbody hb
    split_ifs with hmem
    · have hadd := freeStk_succ hf
      simp only [StatPc.walks, StatSys.left, hd, hadd, true_and]
      omega
    · simp only [StatSys.goto, StatPc.walks, StatSys.left, hd, true_and]
      omega

theorem rank_le (hpc : d'.pc = d.pc ∨ d'.pc = .off) (hfree : d'.freeStk = d.freeStk)
    (hr : aheadOf xs d'.pTcb ≤ aheadOf l d.pTcb) : d'.rank xs ≤ d.rank l := by
  unfold StatSys.rank
  rw [Prod.Lex.toLex_le_toLex]
  rcases hpc with hpc | hpc
  · right
    refine ⟨by rw [hpc], ?_⟩
    unfold StatSys.left
    rw [hpc, hfree]
    cases d.pc <;> simp only <;> omega
  · rw [hpc]
    cases hd : d.pc <;> simp [StatPc.walks, StatSys.left, hpc, hd]

/-- What another task does leaves the end of the pass as near as it was, unless the task the pass stands on comes again. -/
theorem exec_rank (hen : e.Enabled d) (hs : d.Sound) (hl : d.Linked l) (hpc : d.pc ≠ .off) (hk : ¬ Again d e)
    (hx : e.exec d = some d') : ∃ l', d'.Linked l' ∧ d'.rank l' ≤ d.rank l ∧ (e = .stat → d'.rank l' < d.rank l) := by
  cases e with
  | pass => exact absurd hen.1 hpc
  | stat =>
    have hlt := statStep_rank hl hs.stands hpc hx
    exact ⟨l, (statStep_same hx).linked hl, hlt.le, fun _ => hlt⟩
  | createInit t a =>
    cases hx
    refine ⟨l, createInit_linked hen hl, ?_, by simp⟩
    rcases taskCreateInit_made t a (d := d) with heq | ⟨b, hm⟩
    · rw [heq]
    · have hr := hm.rest
      simp only [StatSys.rest, Prod.mk.injEq] at hr
      exact rank_le (.inl hr.2.2.1) hr.2.2.2.2.2.1 (by rw [hr.2.2.2.1])
  | createLink t =>
    cases hx
    refine ⟨t :: l, linked_createLink hl hen, ?_, by simp⟩
    have hr := rest_dbgListAdd (d := d) t
    simp only [StatSys.rest, Prod.mk.injEq] at hr
    refine rank_le (.inl hr.2.2.1) hr.2.2.2.2.2.1 ?_
    have hp : (d.taskCreateLink t).pTcb = d.pTcb := hr.2.2.2.1
    rw [hp]
    cases hdp : d.pTcb with
    | none => exact Nat.le_refl _
    | some p =>
      have htp : t ≠ p := by
        rintro rfl
        exact hk ⟨t, rfl, hdp, hpc⟩
      rw [aheadOf, aheadOf, ahead, if_neg htp]
  | del t =>
    cases hx
    have hloc : ((d.taskDel t).pc = d.pc ∨ (d.taskDel t).pc = .off) ∧ (d.taskDel t).freeStk = d.freeStk ∧
        (d.taskDel t).pTcb = d.pTcb := by
      rcases taskDel_deleted t (d := d) with heq | hdel
      · rw [heq]
        exact ⟨.inl rfl, rfl, rfl⟩
      · have hr := hdel.rest
        simp only [StatSys.rest, Prod.mk.injEq] at hr
        refine ⟨?_, hr.2.2.2.2.2.1, hr.2.2.2.1⟩
        rw [hr.2.2.1]
        split
        · exact .inr rfl
        · exact .inl rfl
    rcases del_linked hen hl with hl' | ⟨xs, ys, rfl, hl'⟩
    · exact ⟨l, hl', rank_le hloc.1 hloc.2.1 (by rw [hloc.2.2]), by simp⟩
    · refine ⟨xs ++ ys, hl', rank_le hloc.1 hloc.2.1 ?_, by simp⟩
      rw [hloc.2.2]
      cases d.pTcb with
      | none => exact Nat.le_refl _
      | some p => exact ahead_erase p t xs ys hl.dlist.nodup
  | write x v =>
    cases hx
    exact ⟨l, ⟨hl.dlist, hl.head, hl.live, hl.apart⟩, rank_le (.inl rfl) rfl (Nat.le_refl _), by simp⟩
  | swHook t n =>
    cases hx
    refine ⟨l, (same_modTcb ?_ t).linked hl, rank_le (.inl rfl) rfl (Nat.le_refl _), by simp⟩
    exact fun _ => rfl

structure StatForever (P : StatSys → StatEvent → Prop) (d : StatSys) (f : ℕ → StatSys) (es : ℕ → StatEvent) : Prop where
  start : f 0 = d
  enabled : ∀ n, (es n).Enabled (f n)
  exec : ∀ n, (es n).exec (f n) = some (f (n + 1))
  keeps : ∀ n, P (f n) (es n)

theorem StatForever.sound {f : ℕ → StatSys} {es : ℕ → StatEvent} (hf : StatForever (fun d e => ¬ Pulls d e) d f es)
    (hd : d.Sound) (n : ℕ) : (f n).Sound := by
  induction n with
  | zero =>
    rw [hf.start]
    exact hd
  | succ n ih => exact exec_sound (hf.enabled n) (hf.keeps n) ih (hf.exec n)

theorem StatForever.rank_le {f : ℕ → StatSys} {es : ℕ → StatEvent} (hf : StatForever (fun d e => ¬ Pulls d e) d f es)
    (hd : d.Sound) {n : ℕ} (hagain : ∀ m ≥ n, ¬ Again (f m) (es m)) (hoff : ∀ m, (f m).pc ≠ .off)
    (hl : (f n).Linked l) (k : ℕ) : ∃ l', (f (n + k)).Linked l' ∧ (f (n + k)).rank l' ≤ (f n).rank l := by
  induction k with
  | zero => exact ⟨l, hl, le_refl _⟩
  | succ k ih =>
    obtain ⟨l', hl', hle⟩ := ih
    obtain ⟨l'', hl'', hle', -⟩ := exec_rank (hf.enabled (n + k)) (hf.sound hd (n + k)) hl' (hoff (n + k))
      (hagain (n + k) (Nat.le_add_right n k)) (hf.exec (n + k))
    exact ⟨l'', hl'', hle'.trans hle⟩

theorem StatForever.ends {f : ℕ → StatSys} {es : ℕ → StatEvent} (hf : StatForever (fun d e => ¬ Pulls d e) d f es)
    (hd : d.Sound) (hfair : ∀ n, (f n).pc ≠ .off → ∃ m ≥ n, es m = .stat)
    (hagain : ∃ n, ∀ m ≥ n, ¬ Again (f m) (es m)) : ∃ n, (f n).pc = .off := by
  by_contra hoff
  rw [not_exists] at hoff
  obtain ⟨N, hN⟩ := hagain
  have hnone : ∀ r : ℕ ×ₗ ℕ, ∀ n ≥ N, ∀ l, (f n).Linked l → (f n).rank l = r → False := by
    intro r
    induction r using WellFoundedLT.induction with
    | ind r ih =>
      intro n hn l hl hr
      obtain ⟨m, hm, hstat⟩ := hfair n (hoff n)
      obtain ⟨k, rfl⟩ := Nat.exists_eq_add_of_le hm
      obtain ⟨l', hl', hle⟩ := hf.rank_le hd (fun m hm => hN m (hn.trans hm)) hoff hl k
      obtain ⟨l'', hl'', -, hlt⟩ := exec_rank (hf.enabled (n + k)) (hf.sound hd (n + k)) hl' (hoff (n + k))
        (hN (n + k) (hn.trans hm)) (hf.exec (n + k))
      have hrank := (hlt hstat).trans_le hle
      rw [hr] at hrank
      exact ih _ hrank (n + k + 1) (by omega) l'' hl'' rfl
  obtain ⟨l, hl⟩ := (hf.sound hd N).linked
  exact hnone _ N (Nat.le_refl N) l hl rfl

end termination

section runs

/-- The statistics task does not read through a null pointer, its scan is at a word of the stack that the task has had since
the scan started, and what it stores afterwards adds up to the size of that stack. -/
structure StatSys.PassOk (d : StatSys) : Prop where
  reads : ∃ d', d.statStep = some d'
  alive : d.pc.Scans → ∃ p, d.pTcb = some p ∧ d.stage p ≠ .dormant
  inside : d.pc = .scan → ∃ p b, d.pTcb = some p ∧ (d.tcb p).stkBasePtr = some b ∧
    d.scanned = (some b, (d.tcb p).stkSize) ∧ d.pStk = some (b + d.freeStk.toNat) ∧ (d.tcb p).Holds (b + d.freeStk.toNat)
  stored : d.pc = .store → ∃ p d', d.pTcb = some p ∧ d.statStep = some d' ∧ d.scanned.2 = (d'.tcb p).stkSize ∧
    (d'.tcb p).stkFree.toNat + (d'.tcb p).stkUsed.toNat = (d'.tcb p).stkSize.toNat

/-- A pass ends in any run in which the statistics task goes on, unless the task it stands on comes again without end. -/
def StatSys.Ends (P : StatSys → StatEvent → Prop) (d : StatSys) : Prop :=
  ∀ f es, StatForever P d f es → (∀ n, (f n).pc ≠ .off → ∃ m ≥ n, es m = .stat) →
    (∃ n, ∀ m ≥ n, ¬ Again (f m) (es m)) → ∃ n, (f n).pc = .off

theorem StatRun.sound (run : StatRun (fun d e => ¬ Pulls d e) d) : d.Sound := by
  induction run with
  | boot mem => exact sound_boot mem
  | step _ hen hx hk ih => exact exec_sound hen hk ih hx

theorem StatSys.Sound.scan (h : d.Sound) (hs : d.pc = .scan ∨ d.pc = .store) : ∃ p b, d.pTcb = some p ∧
    d.stage p ≠ .dormant ∧ (d.tcb p).stkBasePtr = some b ∧ d.scanned = (some b, (d.tcb p).stkSize) ∧
    d.freeStk.toNat < (d.tcb p).stkSize.toNat ∧ (d.pc = .scan → d.pStk = some (b + d.freeStk.toNat)) := by
  obtain ⟨p, hp⟩ := h.stands.body (by rcases hs with hs | hs <;> simp [hs, StatPc.InBody])
  have halive := h.stands.alive (.inr hs) p hp
  obtain ⟨b, hb, hsize, -⟩ := h.stacked.exist p halive
  obtain ⟨hsc, hfree, hstk⟩ := h.stands.scan hs p hp
  refine ⟨p, b, hp, halive, hb, by rw [hsc, hb], by omega, ?_⟩
  intro hpc
  rw [hstk hpc, hb]
  rfl

theorem StatSys.Sound.reads (h : d.Sound) : ∃ d', d.statStep = some d' := by
  have hbody := h.stands.body
  cases hpc : d.pc <;> simp only [hpc, StatPc.InBody, forall_const, false_implies] at hbody
  case scan =>
    obtain ⟨p, b, -, -, -, -, -, hstk⟩ := h.scan (.inl hpc)
    simp [StatSys.statStep, hpc, hstk hpc]
  case off | first | second => simp [StatSys.statStep, hpc]
  case cycles | usage => cases hp : d.pTcb <;> simp [StatSys.statStep, hpc, hp]
  all_goals
    obtain ⟨p, hp⟩ := hbody
    simp [StatSys.statStep, hpc, hp]

theorem StatSys.Sound.passOk (h : d.Sound) : d.PassOk where
  reads := h.reads
  alive := by
    intro hs
    obtain ⟨p, hp⟩ := h.stands.body (by rcases hs with hs | hs | hs <;> simp [hs, StatPc.InBody])
    exact ⟨p, hp, h.stands.alive hs p hp⟩
  inside := by
    intro hs
    obtain ⟨p, b, hp, -, hb, hsc, hlt, hstk⟩ := h.scan (.inl hs)
    exact ⟨p, b, hp, hb, hsc, hstk hs, b, hb, by omega, by omega⟩
  stored := by
    intro hs
    obtain ⟨p, b, hp, -, hb, hsc, hlt, -⟩ := h.scan (.inr hs)
    obtain ⟨d', hx⟩ := h.reads
    refine ⟨p, d', hp, hx, ?_⟩
    simp only [StatSys.statStep, hs, hp, Option.map_some, Option.some.injEq] at hx
    subst hx
    constructor
    · simp [StatSys.goto, hsc]
    · simp only [StatSys.goto, modTcb_self]
      have hle : d.freeStk ≤ (d.tcb p).stkSize := BitVec.le_def.mpr hlt.le
      rw [BitVec.toNat_sub_of_le hle]
      omega

theorem statRun_survives (run : StatRun (fun d e => ¬ Pulls d e) d) : d.PassOk ∧ d.Ends fun d e => ¬ Pulls d e := by
  refine ⟨run.sound.passOk, ?_⟩
  intro f es hf hfair hagain
  exact hf.ends run.sound hfair hagain

section examples

variable {P : StatSys → StatEvent → Prop}

def stkArgs (b : ℕ) : StkArgs where
  task := 1
  arg := 0
  stkBase := some b
  stkSize := 64
  opt := optTaskStkChk ||| optTaskStkClr

def StatSys.statSteps : ℕ → StatSys → Option StatSys
  | 0, d => some d
  | n + 1, d => if d.pc = .off then none else d.statStep.bind (statSteps n)

theorem StatRun.stats (run : StatRun P d) (hP : ∀ d, P d .stat) {n : ℕ} (h : d.statSteps n = some d') : StatRun P d' := by
  induction n generalizing d with
  | zero =>
    cases h
    exact run
  | succ n ih =>
    rw [StatSys.statSteps] at h
    split at h
    · cases h
    · rename_i hpc
      obtain ⟨d₁, hx, h⟩ := Option.bind_eq_some_iff.mp h
      exact ih (run.step (e := .stat) hpc hx (hP d)) h

def statAlone : StatSys :=
  ((StatSys.boot fun _ => 0).taskCreateInit statTaskTCB (stkArgs 100)).taskCreateLink statTaskTCB

def statPair : StatSys := (statAlone.taskCreateInit 5 (stkArgs 200)).taskCreateLink 5

theorem statRun_alone (hP : ∀ d e, (∀ t, e ≠ .del t) → P d e) : StatRun P statAlone := by
  have h0 : StatRun P (StatSys.boot fun _ => 0) := .boot _
  have h1 := h0.step (e := .createInit statTaskTCB (stkArgs 100)) ⟨rfl, by simp [StatSys.boot]⟩ rfl (hP _ _ (by simp))
  exact h1.step (e := .createLink statTaskTCB) rfl rfl (hP _ _ (by simp))

theorem statRun_pair (hP : ∀ d e, (∀ t, e ≠ .del t) → P d e) : StatRun P statPair := by
  have hfree : ∀ b ∈ (stkArgs 200).stkBase, ∀ x, b ≤ x → x < b + (stkArgs 200).stkSize.toNat →
      ∀ u, statAlone.stage u ≠ .dormant → ¬ (statAlone.tcb u).Holds x := by
    rintro b hb x hx - u hu ⟨c, hc, -, hlt⟩
    obtain rfl : 200 = b := by simpa [stkArgs] using hb
    by_cases hut : u = statTaskTCB
    · subst hut
      have hc' : (statAlone.tcb statTaskTCB).stkBasePtr = some 100 := rfl
      have hs : (statAlone.tcb statTaskTCB).stkSize.toNat = 64 := rfl
      rw [hs] at hlt
      obtain rfl : 100 = c := by simpa [hc'] using hc
      omega
    · have hst : statAlone.stage = Function.update (Function.update (fun _ => .dormant) statTaskTCB .made) statTaskTCB .live :=
        rfl
      exact hu (by simp [hst, hut])
  have h1 := (statRun_alone hP).step (e := .createInit 5 (stkArgs 200)) ⟨rfl, hfree⟩ rfl (hP _ _ (by simp))
  exact h1.step (e := .createLink 5) rfl rfl (hP _ _ (by simp))

end examples

theorem statRun_survives_scan : ∃ d, StatRun (fun d e => ¬ Pulls d e) d ∧ d.pc = .scan ∧ d.PassOk ∧
    d.Ends fun d e => ¬ Pulls d e := by
  have hP : ∀ d e, (∀ t, e ≠ .del t) → ¬ Pulls d e := by
    rintro d e he ⟨t, rfl, -⟩
    exact he t rfl
  have hrun := (statRun_pair hP).step (e := .pass) ⟨rfl, rfl⟩ rfl (hP _ _ (by simp))
  have hstep : ((statPair.goto .first).statSteps 12).any (fun d => d.pc = .scan) = true := by decide
  obtain ⟨d, hd, hpc⟩ := (Option.any_eq_true _ _).mp hstep
  have run := hrun.stats (fun d => hP d _ (by simp)) hd
  exact ⟨d, run, by simpa using hpc, statRun_survives run⟩

/-- The task at the head of the list is deleted after it has been found to exist. -/
theorem stkChk_reads_null : ∃ d, StatRun (fun _ _ => True) d ∧ d.pc = .scan ∧ d.pStk = none ∧ ¬ d.PassOk := by
  have hP : ∀ (d : StatSys) e, (∀ t, e ≠ StatEvent.del t) → True := fun _ _ _ => trivial
  have hrun := (statRun_pair hP).step (e := .pass) ⟨rfl, rfl⟩ rfl trivial
  have hstep : ((statPair.goto .first).statSteps 11).any (fun d => d.stage 5 ≠ .made ∧ d.pc = .base ∧
      (d.taskDel 5).pc = .base ∧
      (d.taskDel 5).statStep.any fun d' => d'.pc = .scan ∧ d'.pStk = none) = true := by decide
  obtain ⟨d, hd, h⟩ := (Option.any_eq_true _ _).mp hstep
  simp only [decide_eq_true_eq] at h
  obtain ⟨hmade, -, hpc, h⟩ := h
  obtain ⟨d', hd', h'⟩ := (Option.any_eq_true _ _).mp h
  simp only [decide_eq_true_eq] at h'
  have run := (hrun.stats (fun _ => trivial) hd).step (e := .del 5) hmade rfl trivial
  have run' := run.step (e := .stat) (by simp [StatEvent.Enabled, hpc]) hd' trivial
  refine ⟨d', run', h'.1, h'.2, ?_⟩
  intro hok
  obtain ⟨p, b, -, -, -, hstk, -⟩ := hok.inside h'.1
  rw [h'.2] at hstk
  cases hstk

end runs

end UcosIII
