import Mathlib.Data.List.TakeWhile
import UcosIII.Runs.Waiting

namespace UcosIII

open Prog

section insertion

variable {key : PdId → ℕ} {d : PdId} {m R ds : List PdId} {obj : PdId → Option ObjId} {W : ObjId → List PdId} {o : ObjId}

def InOrder (key : PdId → ℕ) (l : List PdId) : Prop := l.Pairwise fun x y => key x ≤ key y

theorem InOrder.insPrio_filter (hm : InOrder key (m.filter (· ∉ R))) (hR : ∀ x ∈ R, key x ≤ key d) (hd : d ∉ R) :
    InOrder key ((insPrio key d m).filter (· ∉ R)) := by
  have hsplit : m.filter (· ∉ R) = (m.takeWhile (fun x => key x ≤ key d)).filter (· ∉ R) ++
      (m.dropWhile (fun x => key x ≤ key d)).filter (· ∉ R) := by
    rw [← List.filter_append, List.takeWhile_append_dropWhile]
  unfold InOrder at hm
  rw [hsplit, List.pairwise_append] at hm
  obtain ⟨hleft, hright, hlr⟩ := hm
  have hle : ∀ x ∈ (m.takeWhile (fun x => key x ≤ key d)).filter (· ∉ R), key x ≤ key d := by
    intro x hx
    have := List.mem_takeWhile_imp (List.mem_filter.mp hx).1
    simpa using this
  -- the first entry after the place of `d` is not one of those still to come
  have hge : ∀ y ∈ (m.dropWhile (fun x => key x ≤ key d)).filter (· ∉ R), key d ≤ key y := by
    intro y hy
    cases hdw : m.dropWhile (fun x => key x ≤ key d) with
    | nil => simp [hdw] at hy
    | cons z zs =>
      have hz : ¬ key z ≤ key d := by
        have := List.head?_dropWhile_not (fun x => decide (key x ≤ key d)) m
        simpa [hdw] using this
      have hzR : z ∉ R := fun h => hz (hR z h)
      rw [hdw, List.filter_cons_of_pos (by simpa using hzR)] at hy hright
      rcases List.mem_cons.mp hy with rfl | hy
      · omega
      · have := (List.pairwise_cons.mp hright).1 y hy
        omega
  unfold InOrder insPrio
  rw [List.filter_append, List.filter_cons_of_pos (by simpa using hd), List.pairwise_append, List.pairwise_cons]
  refine ⟨hleft, ⟨hge, hright⟩, fun x hx y hy => ?_⟩
  rcases List.mem_cons.mp hy with rfl | hy
  · exact hle x hx
  · exact hlr x hx y hy

theorem InOrder.insPrio (hm : InOrder key m) : InOrder key (insPrio key d m) := by
  have := InOrder.insPrio_filter (R := []) (d := d) (m := m) (by simpa using hm) (by simp) (by simp)
  simpa using this

theorem foldl_reinsert_congr {key' : PdId → ℕ} (h : ∀ d ∈ ds, ∀ l, insPrio key d l = insPrio key' d l) :
    ds.foldl (reinsert key obj) W = ds.foldl (reinsert key' obj) W := by
  induction ds generalizing W with
  | nil => rfl
  | cons d ds ih =>
    have hre : reinsert key obj W d = reinsert key' obj W d := by
      unfold reinsert
      split
      · rfl
      · rw [h d (by simp)]
    rw [List.foldl_cons, List.foldl_cons, hre]
    apply ih
    intro x hx
    exact h x (by simp [hx])

theorem InOrder.foldl_reinsert (ho : InOrder key ((W o).filter (· ∉ ds))) (hnd : ds.Nodup) (hW : (W o).Nodup)
    (hkey : ∀ x ∈ ds, ∀ y ∈ ds, key x ≤ key y) (hobj : ∀ x ∈ ds, ∀ o, x ∈ W o ↔ obj x = some o) :
    InOrder key (ds.foldl (reinsert key obj) W o) := by
  induction ds generalizing W with
  | nil => simpa using ho
  | cons d ds ih =>
    obtain ⟨hd, hnd'⟩ := List.nodup_cons.mp hnd
    have hperm : ∀ o', (reinsert key obj W d o').Perm (W o') := reinsert_perm fun o' h' => (hobj d (by simp) o').mpr h'
    rw [List.foldl_cons]
    apply ih
    · by_cases hdo : obj d = some o
      · have herase : ((W o).erase d).filter (· ∉ ds) = (W o).filter (· ∉ d :: ds) := by
          rw [hW.erase_eq_filter, List.filter_filter]
          apply List.filter_congr
          intro x _
          by_cases hxd : x = d <;> simp [hxd]
        have hre : reinsert key obj W d o = UcosIII.insPrio key d ((W o).erase d) := by
          simp [reinsert, hdo]
        rw [hre]
        apply InOrder.insPrio_filter
        · rwa [herase]
        · intro x hx
          exact hkey x (by simp [hx]) d (by simp)
        · exact hd
      · have hre : reinsert key obj W d o = W o := by
          cases hd' : obj d with
          | none => simp [reinsert, hd']
          | some o' =>
            have : o ≠ o' := fun h => hdo (by rw [hd', h])
            simp [reinsert, hd', this]
        have hdW : d ∉ W o := fun h => hdo ((hobj d (by simp) o).mp h)
        have hfilter : (W o).filter (· ∉ ds) = (W o).filter (· ∉ d :: ds) := by
          apply List.filter_congr
          intro x hx
          have : x ≠ d := fun h => hdW (h ▸ hx)
          simp [this]
        rwa [hre, hfilter]
    · exact hnd'
    · exact (hperm o).nodup_iff.mpr hW
    · intro x hx y hy
      exact hkey x (by simp [hx]) y (by simp [hy])
    · intro x hx o'
      rw [(hperm o').mem_iff]
      exact hobj x (by simp [hx]) o'

end insertion

variable {cfg : Cfg} {s : OS} {a a' b : Abs} {K : ObjType → Prop} {T T' : TcbId → Prop} {h : List Step} {t : TcbId}
  {d : PdId} {e : Event} {r : Option Ret} {E : Env}

namespace Abs

open Classical in
/-- The rank of an entry where, of the entries with equal priorities, those of the tasks `T` come last. -/
noncomputable def rank (T : TcbId → Prop) (a : Abs) (d : PdId) : ℕ := 2 * a.pdPrio d + if T d.1 then 1 else 0

theorem rank_congr (hp : b.pdPrio d = a.pdPrio d) (hT : T d.1 ↔ T' d.1) : b.rank T d = a.rank T' d := by
  unfold rank
  rw [hp]
  by_cases h : T d.1
  · rw [if_pos h, if_pos (hT.mp h)]
  · rw [if_neg h, if_neg (mt hT.mpr h)]

theorem rank_le_iff {x : PdId} (hT : T x.1 → T d.1) : a.rank T x ≤ a.rank T d ↔ a.pdPrio x ≤ a.pdPrio d := by
  unfold rank
  by_cases hx : T x.1
  · rw [if_pos hx, if_pos (hT hx)]
    omega
  · rw [if_neg hx]
    split <;> omega

theorem insPrio_rank {l : List PdId} (hT : ∀ x, T x → T d.1) : insPrio a.pdPrio d l = insPrio (a.rank T) d l := by
  unfold insPrio
  simp only [rank_le_iff (a := a) (hT _)]

def Sorted (K : ObjType → Prop) (T : TcbId → Prop) (a : Abs) : Prop :=
  ∀ o, K (a.obj o).type → InOrder (a.rank T) (a.waiting o)

def Ordered (T : TcbId → Prop) (a : Abs) : Prop := a.Sorted (· ≠ .flag) T

theorem Sorted.sub (h : a.Sorted K T) (hobj : b.obj = a.obj) (hsub : ∀ o, (b.waiting o).Sublist (a.waiting o))
    (hp : ∀ o, K (a.obj o).type → ∀ x ∈ b.waiting o, b.pdPrio x = a.pdPrio x) : b.Sorted K T := by
  intro o ho
  rw [hobj] at ho
  apply List.Pairwise.imp_of_mem _ ((h o ho).sublist (hsub o))
  intro x y hx hy hxy
  rwa [rank_congr (hp o ho x hx) .rfl, rank_congr (hp o ho y hy) .rfl]

theorem Sorted.congr (h : a.Sorted K T) (hobj : b.obj = a.obj) (hw : b.waiting = a.waiting)
    (hp : ∀ x, b.pdPrio x = a.pdPrio x) : b.Sorted K T :=
  h.sub hobj (fun o => by rw [hw]) fun _ _ x _ => hp x

theorem Sorted.of_agree (h : a.Sorted K T') (hT : ∀ o, K (a.obj o).type → ∀ x ∈ a.waiting o, (T x.1 ↔ T' x.1)) :
    a.Sorted K T := by
  intro o ho
  apply List.Pairwise.imp_of_mem _ (h o ho)
  intro x y hx hy hxy
  rwa [rank_congr rfl (hT o ho x hx), rank_congr rfl (hT o ho y hy)]

theorem Sorted.attach (h : a.Sorted K T) (hT : ∀ x, T x → T d.1) : (attach t a d).Sorted K T := by
  have hkey : (Abs.attach t a d).rank T = a.rank T := by
    funext x
    apply rank_congr _ .rfl
    rw [pdPrio, attach_task]
    rfl
  intro o ho
  rw [attach_obj] at ho
  rw [hkey, Abs.attach]
  split
  · exact h o ho
  · rename_i o' _
    by_cases hoo : o = o'
    · subst hoo
      change InOrder (a.rank T) (Function.update a.waiting o (insPrio a.pdPrio d (a.waiting o)) o)
      rw [Function.update_self, insPrio_rank hT]
      exact (h o ho).insPrio
    · change InOrder (a.rank T) (Function.update a.waiting o' (insPrio a.pdPrio d (a.waiting o')) o)
      rw [Function.update_of_ne hoo]
      exact h o ho

theorem Sorted.foldl_attach {ds : List PdId} (h : a.Sorted K T) (hT : ∀ x, T x → T t) (hds : ∀ d ∈ ds, d.1 = t) :
    (ds.foldl (Abs.attach t) a).Sorted K T := by
  induction ds generalizing a with
  | nil => exact h
  | cons d ds ih =>
    rw [List.foldl_cons]
    apply ih
    · apply h.attach
      rwa [hds d (by simp)]
    · intro x hx
      exact hds x (by simp [hx])

theorem waiting_wake_sublist (a : Abs) (t : TcbId) (st : PendStatus) (o : ObjId) :
    ((a.wake t st).waiting o).Sublist (a.waiting o) := by
  by_cases hp : (a.task t).state.isPend = true
  · rw [a.waiting_wake t st hp]
    exact List.filter_sublist
  · rw [wake_of_not_pend (by simpa using hp)]

theorem waiting_flagWake_sublist (a : Abs) (t : TcbId) (o : ObjId) :
    ((a.flagWake t).waiting o).Sublist (a.waiting o) := by
  rw [flagWake]
  split
  · exact List.filter_sublist
  · exact a.waiting_wake_sublist t .ok o

theorem waiting_expire_sublist (a : Abs) (t : TcbId) (o : ObjId) : ((a.expire t).waiting o).Sublist (a.waiting o) := by
  rw [expire]
  cases (a.task t).state <;> first | exact a.waiting_wake_sublist t .timeout o | exact List.Sublist.refl _

theorem waiting_suspend (a : Abs) (t : TcbId) : (a.suspend t).waiting = a.waiting := by
  rw [suspend]
  repeat' split
  all_goals rfl

theorem waiting_resume (a : Abs) (t : TcbId) : (a.resume t).waiting = a.waiting := by
  rw [resume]
  repeat' split
  all_goals rfl

theorem pdPrio_block (a : Abs) (kind : PendOn) (timed : Bool) (ds : List PdId) (x : PdId) :
    (a.block t kind timed ds).pdPrio x = a.pdPrio x := by
  rw [pdPrio, task_block, pdPrio]
  split
  · rename_i hx
    rw [hx]
  · rfl

theorem Sorted.pendOn (h : a.Sorted K T) (hT : ∀ x, T x → T t) (o : Option ObjId) (kind : PendOn) (timed : Bool) :
    (a.pendOn t o kind timed).Sorted K T := by
  cases o with
  | none => exact h.congr rfl rfl (a.pdPrio_block kind timed [])
  | some o =>
    apply Sorted.attach _ hT
    exact h.congr rfl rfl (pdPrio_block (a.modEntry (t, 0) fun e => { e with obj := some o }) kind timed [(t, 0)])

theorem Sorted.act {x : Act} (h : a.Sorted K T) (hv : x.Valid E a) (hT : ∀ y t, a.cur = some t → T y → T t) :
    (x.apply a).Sorted K T := by
  have hframe := x.frame a
  have hobj : (x.apply a).obj = a.obj := (congrArg (fun y : Abs => y.obj) hframe :)
  have hp : ∀ d, (x.apply a).pdPrio d = a.pdPrio d := fun d => (congrArg (fun y : Abs => (y.task d.1).prio) hframe :)
  cases x with
  | wake t st => exact h.sub hobj (a.waiting_wake_sublist t st) fun _ _ d _ => hp d
  | flagWake t => exact h.sub hobj (a.waiting_flagWake_sublist t) fun _ _ d _ => hp d
  | expire t => exact h.sub hobj (a.waiting_expire_sublist t) fun _ _ d _ => hp d
  | suspend t => exact h.congr hobj (a.waiting_suspend t) hp
  | resume t => exact h.congr hobj (a.waiting_resume t) hp
  | pendOn t o kind timed => exact h.pendOn (fun y => hT y t hv.1.1) o kind timed
  | pendMulti t timed ds =>
    refine Sorted.foldl_attach ?_ (fun y => hT y t hv.1.1) hv.2.2.1
    exact h.congr rfl rfl (a.pdPrio_block .multi timed ds)
  | rotate | delay | flagsOpt | pendStatus | store => exact h.congr hobj rfl hp

theorem Sorted.acts {S : Act → Prop} (h : a.Sorted K T) (hT : ∀ y t, a.cur = some t → T y → T t) (hacts : a.Acts E S b) :
    b.Sorted K T := by
  induction hacts with
  | refl => exact h
  | snoc hacts _ hv _ ih =>
    apply ih.act hv
    rwa [hacts.cur]

theorem Sorted.sched (h : a.Sorted K T) (hs : a.Sched a') : a'.Sorted K T := by
  obtain ⟨-, rfl⟩ | ⟨-, rfl⟩ | ⟨-, -, p, t, -, rfl⟩ := hs
  · exact h
  · exact h
  · exact h.congr rfl rfl fun _ => rfl

theorem Sorted.reset (h : a.Sorted K T) (hobj : b.obj = a.obj) (hw : ∀ o, (b.waiting o).Sublist (a.waiting o))
    (ht : ∀ x ≠ t, (b.task x).prio = (a.task x).prio)
    (hno : ∀ o, K (a.obj o).type → ∀ d ∈ b.waiting o, d.1 ≠ t) : b.Sorted K T := by
  apply h.sub hobj hw
  intro o ho d hd
  exact ht d.1 (hno o ho d hd)

theorem Sound.not_waiting (hI : a.Sound cfg) (hs : (a.task t).state.isPend = false) (o : ObjId) {d : PdId}
    (hd : d ∈ a.waiting o) : d.1 ≠ t := by
  rintro rfl
  exact hI.wait.not_mem hs o d.2 hd

/-- The entries of `t` are put back behind those of the other tasks with the same priority. -/
theorem Sorted.repend (h : a.Sorted K T') (hI : a.Sound cfg) (hnd : ∀ o, (a.waiting o).Nodup) (htab : (a.task t).table.Nodup)
    (hT : ∀ x, T x → T t) (hT' : ∀ x ≠ t, (T x ↔ T' x)) (p : ℕ) : (a.repend t p).Sorted K T := by
  have hown : ∀ x ∈ (a.task t).table, x.1 = t := fun x hx => (hI.wait.own t x hx).1
  have hprio : ∀ x, (a.repend t p).pdPrio x = if x.1 = t then p else a.pdPrio x := by
    intro x
    rw [pdPrio, task_repend]
    split <;> rfl
  have hkey : (a.repend t p).waiting = (a.task t).table.foldl (reinsert ((a.repend t p).rank T) fun d => (a.entry d).obj)
      a.waiting := by
    apply foldl_reinsert_congr
    intro x hx l
    apply insPrio_rank (a := a.repend t p)
    rwa [hown x hx]
  intro o ho
  rw [hkey]
  apply InOrder.foldl_reinsert
  · -- the entries of the other tasks are in order
    have hsub : InOrder (a.rank T') ((a.waiting o).filter (· ∉ (a.task t).table)) := (h o ho).sublist List.filter_sublist
    apply List.Pairwise.imp_of_mem _ hsub
    have hrank : ∀ x ∈ (a.waiting o).filter (· ∉ (a.task t).table), (a.repend t p).rank T x = a.rank T' x := by
      intro x hx
      have hxt : x.1 ≠ t := by
        intro hxt
        rw [List.mem_filter] at hx
        have hmem := ((hI.wait.mem_iff o x).mp hx.1).1
        rw [hxt] at hmem
        simp [hmem] at hx
      apply rank_congr _ (hT' x.1 hxt)
      rw [hprio, if_neg hxt]
    intro x y hx hy hxy
    rwa [hrank x hx, hrank y hy]
  · exact htab
  · exact hnd o
  · intro x hx y hy
    unfold rank
    rw [hprio, hprio, hown x hx, hown y hy, if_pos rfl, if_pos rfl]
  · intro x hx o'
    rw [hI.wait.mem_iff, hown x hx]
    exact and_iff_right hx

theorem waiting_move (a : Abs) (t : TcbId) (p : ℕ) (atHead : Bool) : (a.move t p atHead).waiting = a.waiting := by
  cases atHead <;> rfl

theorem obj_move (a : Abs) (t : TcbId) (p : ℕ) (atHead : Bool) : (a.move t p atHead).obj = a.obj := by
  cases atHead <;> rfl

theorem Sorted.move (h : a.Sorted K T) (hI : a.Sound cfg) (hs : (a.task t).state.isPend = false) (p : ℕ) (atHead : Bool) :
    (a.move t p atHead).Sorted K T := by
  apply h.reset (t := t) (a.obj_move t p atHead)
  · intro o
    rw [waiting_move]
  · intro x hx
    rw [task_move, if_neg hx]
  · intro o _ d hd
    rw [waiting_move] at hd
    exact hI.not_waiting hs o hd

theorem Sorted.setPrio (h : a.Sorted K T) (p : ℕ) (hno : ∀ o, K (a.obj o).type → ∀ d ∈ a.waiting o, d.1 ≠ t) :
    (a.modTask t fun c => { c with prio := p }).Sorted K T := by
  refine h.reset (t := t) rfl (fun _ => List.Sublist.refl _) (fun x hx => ?_) hno
  rw [task_modTask, if_neg hx]

theorem Sorted.reprio (h : a.Sorted K T') (hI : a.Sound cfg) (hnd : ∀ o, (a.waiting o).Nodup) (htab : (a.task t).table.Nodup)
    (hT : ∀ x, T x → T t) (hT' : ∀ x ≠ t, (T x ↔ T' x)) (p : ℕ) (self : Bool) (hK : K .flag → (a.task t).pendOn ≠ .flag) :
    (a.reprio t p self).Sorted K T := by
  have hout (hno : ∀ o, K (a.obj o).type → ∀ d ∈ a.waiting o, d.1 ≠ t) : a.Sorted K T :=
    h.of_agree fun o ho x hx => hT' x.1 (hno o ho x hx)
  have hnp (hs : (a.task t).state.isPend = false) : ∀ o, K (a.obj o).type → ∀ d ∈ a.waiting o, d.1 ≠ t :=
    fun o _ d hd => hI.not_waiting hs o hd
  rw [Abs.reprio]
  cases hs : (a.task t).state with
  | rdy => exact (hout (hnp (by rw [hs]; rfl))).move hI (by rw [hs]; rfl) p self
  | del => exact hout (hnp (by rw [hs]; rfl))
  | dly | suspended | dlySuspended => exact (hout (hnp (by rw [hs]; rfl))).setPrio p (hnp (by rw [hs]; rfl))
  | pend | pendTimeout | pendSuspended | pendTimeoutSuspended =>
    cases hk : (a.task t).pendOn with
    | taskQ | taskSem | flag =>
      have hno : ∀ o, K (a.obj o).type → ∀ d ∈ a.waiting o, d.1 ≠ t := by
        intro o ho d hd hdt
        have hacc := hI.accepts hd
        rw [hdt, hk] at hacc
        cases hty : (a.obj o).type <;> simp [hty, PendOn.accepts] at hacc
        all_goals
          rw [hty] at ho
          exact hK ho hk
      exact (hout hno).setPrio p hno
    | mutex | multi | q | sem => exact h.repend hI hnd htab hT hT' p
    | nothing =>
      have := hI.wait.pendOn_iff t
      simp [hk, hs, TaskState.isPend] at this

theorem mem_waiting_reprio (h : a.WaitOk) (t : TcbId) (p : ℕ) (self : Bool) (o : ObjId) (x : PdId) :
    x ∈ (a.reprio t p self).waiting o ↔ x ∈ a.waiting o := by
  rw [Abs.reprio]
  cases (a.task t).state <;> cases (a.task t).pendOn <;>
    first | exact Iff.rfl | rw [waiting_move] | exact mem_waiting_repend h t p o x

theorem mem_waiting_boost (h : a.WaitOk) (t : TcbId) (p : ℕ) (o : ObjId) (x : PdId) :
    x ∈ (a.boost t p).waiting o ↔ x ∈ a.waiting o := by
  rw [Abs.boost]
  cases (a.task t).state <;> first | exact Iff.rfl | rw [waiting_move] | exact mem_waiting_repend h t p o x

theorem Sorted.boost (h : a.Sorted K T') (hI : a.Sound cfg) (hnd : ∀ o, (a.waiting o).Nodup) (htab : (a.task t).table.Nodup)
    (hT : ∀ x, T x → T t) (hT' : ∀ x ≠ t, (T x ↔ T' x)) (p : ℕ) : (a.boost t p).Sorted K T := by
  have hout (hno : ∀ o, K (a.obj o).type → ∀ d ∈ a.waiting o, d.1 ≠ t) : a.Sorted K T :=
    h.of_agree fun o ho x hx => hT' x.1 (hno o ho x hx)
  have hnp (hs : (a.task t).state.isPend = false) : ∀ o, K (a.obj o).type → ∀ d ∈ a.waiting o, d.1 ≠ t :=
    fun o _ d hd => hI.not_waiting hs o hd
  rw [Abs.boost]
  cases hs : (a.task t).state with
  | rdy => exact (hout (hnp (by rw [hs]; rfl))).move hI (by rw [hs]; rfl) p true
  | del => exact hout (hnp (by rw [hs]; rfl))
  | dly | suspended | dlySuspended => exact (hout (hnp (by rw [hs]; rfl))).setPrio p (hnp (by rw [hs]; rfl))
  | pend | pendTimeout | pendSuspended | pendTimeoutSuspended => exact h.repend hI hnd htab hT hT' p

theorem waiting_unlink_sublist (a : Abs) (t : TcbId) (o : ObjId) : ((a.unlink t).waiting o).Sublist (a.waiting o) := by
  rw [unlink]
  cases (a.task t).state <;> first | exact List.filter_sublist | exact List.Sublist.refl _

theorem obj_unlink (a : Abs) (t : TcbId) : (a.unlink t).obj = a.obj := by
  rw [unlink]
  cases (a.task t).state <;> rfl

theorem Sorted.erase (h : a.Sorted K T) (hI : a.Sound cfg) (hnd : ∀ p, (a.ready p).Nodup) :
    (a.erase t cfg.prioMax).Sorted K T := by
  refine h.reset (t := t) (a.obj_unlink t) (a.waiting_unlink_sublist t) (fun x hx => ?_) fun o _ d hd => ?_
  · rw [task_erase, if_neg hx]
  · apply (hI.erase hnd t).not_waiting _ o hd
    rw [task_erase, if_pos rfl]
    rfl

theorem Sorted.restore (h : a.Sorted K T) (hI : a.Sound cfg) {p : ℕ} (hs : (a.task t).prio ≠ p → (a.task t).state = .rdy) :
    (a.restore t p).Sorted K T := by
  rw [Abs.restore]
  split
  · exact h
  · have hm := h.move hI (t := t) (by rw [hs ‹_›]; rfl) p false
    exact hm.congr rfl rfl fun _ => rfl

theorem Sorted.modObj (h : a.Sorted K T) {o : ObjId} {f : Sync → Sync} (hf : (f (a.obj o)).type = (a.obj o).type) :
    (a.modObj o f).Sorted K T := by
  intro o' ho'
  apply h o'
  rw [obj_modObj] at ho'
  split at ho'
  · rename_i hoo
    rwa [hoo, ← hf]
  · exact ho'

theorem obj_wake (a : Abs) (t : TcbId) (st : PendStatus) : (a.wake t st).obj = a.obj :=
  (congrArg (fun y : Abs => y.obj) (a.frame_wake t st) :)

theorem Sorted.wake (h : a.Sorted K T) (t : TcbId) (st : PendStatus) : (a.wake t st).Sorted K T := by
  apply h.sub (a.obj_wake t st) (a.waiting_wake_sublist t st)
  intro _ _ d _
  exact (congrArg (fun y : Abs => (y.task d.1).prio) (a.frame_wake t st) :)

theorem Sorted.handOff (h : a.Sorted K T) (o : ObjId) (w : TcbId) : (a.handOff o w).Sorted K T := by
  apply Sorted.wake
  exact h.modObj rfl

section placed

/-- The entry has been put into the list of `o` between `a` and `b`, or put back with a new priority. -/
def Newly (a b : Abs) (o : ObjId) (x : PdId) : Prop := x ∉ a.waiting o ∨ b.pdPrio x ≠ a.pdPrio x

/-- The lists of `b` are in order, with the entries put in since `a` last: they are those of the tasks `T`. -/
structure Placed (a b : Abs) (K : ObjType → Prop) (T : TcbId → Prop) : Prop where
  ordered : b.Sorted K T
  newly : ∀ o, ∀ x ∈ b.waiting o, (a.Newly b o x ↔ T x.1)

def Thinned (a b : Abs) : Prop := ∀ o, ∀ x ∈ b.waiting o, x ∈ a.waiting o ∧ b.pdPrio x = a.pdPrio x

theorem Thinned.trans {c : Abs} (h : a.Thinned b) (h' : b.Thinned c) : a.Thinned c := by
  intro o x hx
  obtain ⟨hb, hp⟩ := h' o x hx
  obtain ⟨ha, hp'⟩ := h o x hb
  exact ⟨ha, hp.trans hp'⟩

theorem Thinned.placed (h : a.Thinned b) (hO : b.Sorted K fun _ => False) : a.Placed b K fun _ => False := by
  refine ⟨hO, fun o x hx => ?_⟩
  obtain ⟨ha, hp⟩ := h o x hx
  simp [Newly, ha, hp]

theorem Placed.congr {c : Abs} (h : a.Placed b K T) (hobj : c.obj = b.obj) (hw : c.waiting = b.waiting)
    (hp : ∀ x, c.pdPrio x = b.pdPrio x) : a.Placed c K T := by
  refine ⟨h.ordered.congr hobj hw hp, fun o x hx => ?_⟩
  rw [hw] at hx
  rw [← h.newly o x hx, Newly, hp, Newly]

theorem Placed.sched (h : a.Placed b K T) (hs : b.Sched a') : a.Placed a' K T := by
  obtain ⟨-, rfl⟩ | ⟨-, rfl⟩ | ⟨-, -, p, t, -, rfl⟩ := hs
  · exact h
  · exact h
  · exact h.congr rfl rfl fun _ => rfl

theorem Acts.mem_waiting {S : Act → Prop} (hacts : a.Acts E S b) {o : ObjId} (hd : d ∈ b.waiting o) :
    d ∈ a.waiting o ∨ a.cur = some d.1 := by
  induction hacts with
  | refl => exact .inl hd
  | @snoc b x hacts _ hv _ ih =>
    cases x with
    | wake t st => exact ih ((b.waiting_wake_sublist t st o).mem hd)
    | flagWake t => exact ih ((b.waiting_flagWake_sublist t o).mem hd)
    | expire t => exact ih ((b.waiting_expire_sublist t o).mem hd)
    | suspend t =>
      rw [Act.apply, waiting_suspend] at hd
      exact ih hd
    | resume t =>
      rw [Act.apply, waiting_resume] at hd
      exact ih hd
    | pendOn t o' kind timed =>
      cases o' with
      | none => exact ih hd
      | some o' =>
        rw [Act.apply, pendOn, mem_attach_waiting] at hd
        rcases hd with hd | ⟨rfl, -⟩
        · exact ih hd
        · right
          rw [← hacts.cur]
          exact hv.1.1
    | pendMulti t timed ds =>
      rw [Act.apply, mem_foldl_attach_waiting] at hd
      rcases hd with hd | ⟨hd, -⟩
      · exact ih hd
      · right
        rw [← hacts.cur, hv.2.2.1 d hd]
        exact hv.1.1
    | rotate | delay | flagsOpt | pendStatus | store => exact ih hd

end placed

end Abs

theorem Rep.nodup_waiting (h : Rep cfg s a) (o : ObjId) : (a.waiting o).Nodup := (h.pend.list o).dlist.nodup

theorem Rep.nodup_table (h : Rep cfg s a) (t : TcbId) : (a.task t).table.Nodup := by
  rw [h.table]
  exact TCB.nodup_table

theorem Abs.CurOk.not_waiting (hC : a.CurOk) (hI : a.Sound cfg) (hc : a.cur = some t) (o : ObjId) {x : PdId}
    (hx : x ∈ a.waiting o) : x.1 ≠ t := by
  apply hI.not_waiting _ o hx
  cases hr : a.running with
  | false =>
    rw [(hC.stopped hr).2.2] at hc
    cases hc
  | true =>
    obtain ⟨c, hc', hs⟩ := hC.runs hr
    rw [hc] at hc'
    cases hc'
    rcases hs with hs | ⟨hs, -⟩ <;> rw [hs] <;> rfl

theorem Abs.Acts.placed {S : Act → Prop} (hacts : a.Acts E S b) (hI : a.Sound cfg) (hC : a.CurOk)
    (hO : a.Sorted K fun _ => False) : a.Placed b K fun t => a.cur = some t := by
  have hout : ∀ o, ∀ x ∈ a.waiting o, a.cur ≠ some x.1 := fun o x hx hc => hC.not_waiting hI hc o hx rfl
  refine ⟨Abs.Sorted.acts ?_ ?_ hacts, fun o x hx => ?_⟩
  · apply hO.of_agree
    intro o _ x hx
    simp [hout o x hx]
  · intro y t ht hy
    exact ht
  · have hp : b.pdPrio x = a.pdPrio x := hacts.prio x.1
    constructor
    · rintro (hn | hn)
      · exact (hacts.mem_waiting hx).resolve_left hn
      · exact absurd hp hn
    · intro hc
      left
      intro hm
      exact hout o x hm hc

theorem Abs.Thinned.wake (a : Abs) (t : TcbId) (st : PendStatus) : a.Thinned (a.wake t st) := by
  intro o x hx
  refine ⟨(a.waiting_wake_sublist t st o).mem hx, ?_⟩
  exact (congrArg (fun y : Abs => (y.task x.1).prio) (a.frame_wake t st) :)

theorem Abs.Thinned.restore {p : ℕ} (hI : a.Sound cfg) (hs : (a.task t).prio ≠ p → (a.task t).state = .rdy) :
    a.Thinned (a.restore t p) := by
  intro o x hx
  rw [waiting_restore] at hx
  refine ⟨hx, ?_⟩
  rw [pdPrio, task_restore]
  split
  · rename_i hxt
    by_contra hne
    have hrdy := hs fun h => hne (by rw [pdPrio, hxt, h])
    exact hI.not_waiting (t := t) (by rw [hrdy]; rfl) o hx hxt
  · rfl

theorem AStep.placed_wait {o : ObjId} {w : TcbId} {timed : Bool} (H : Ready cfg s a) (hO : a.Sorted K fun _ => False)
    (hcur : a.cur = some t)
    (hb : if (a.task t).prio < (a.task w).prio then (a.task w).state ≠ .del ∧ b = a.boost w (a.task t).prio else b = a) :
    ∃ T, a.Placed (b.pendOn t (some o) .mutex timed) K T := by
  have hout : ∀ o, ∀ x ∈ a.waiting o, x.1 ≠ t := fun o x => H.cur.not_waiting H.sound hcur o
  -- the tasks with new entries: `t`, and `w` if it has been boosted
  let T : TcbId → Prop := fun x => x = t ∨ x = w ∧ (a.task t).prio < (a.task w).prio
  have hmem : ∀ o x, x ∈ b.waiting o ↔ x ∈ a.waiting o := by
    intro o x
    split at hb
    · rw [hb.2]
      exact Abs.mem_waiting_boost H.sound.wait w _ o x
    · rw [hb]
  have hprio : ∀ x, x ≠ t → ((b.task x).prio ≠ (a.task x).prio ↔ T x) := by
    intro x hx
    split at hb
    · rename_i hlt
      rw [hb.2, Abs.task_boost]
      split
      · rename_i hxw
        have : (a.task t).prio ≠ (a.task w).prio := by omega
        simp [T, hxw.1, hlt, this]
      · rename_i hxw
        simp [T, hx]
        intro hw
        exact absurd ⟨hw, hb.1⟩ hxw
    · rename_i hlt
      simp [hb, T, hx, hlt]
  have hOb : b.Sorted K T := by
    split at hb
    · rename_i hlt
      rw [hb.2]
      have hO' : a.Sorted K (· = t) := hO.of_agree fun o _ x hx => by simp [hout o x hx]
      apply hO'.boost H.sound H.rep.nodup_waiting (H.rep.nodup_table _)
      · intro x _
        exact .inr ⟨rfl, hlt⟩
      · intro x hx
        simp [T, hx]
    · rename_i hlt
      rw [hb]
      exact hO.of_agree fun o _ x hx => by simp [T, hout o x hx, hlt]
  refine ⟨T, hOb.pendOn (fun x _ => .inl rfl) (some o) .mutex timed, fun o' x hx => ?_⟩
  rw [Abs.pendOn, Abs.mem_attach_waiting] at hx
  by_cases hxt : x.1 = t
  · have : x ∉ a.waiting o' := fun hm => hout o' x hm hxt
    simp [T, Abs.Newly, this, hxt]
  · have hm : x ∈ a.waiting o' := (hmem o' x).mp (hx.resolve_right fun h => hxt (by rw [h.1]))
    have hp : (b.pendOn t (some o) .mutex timed).pdPrio x = (b.task x.1).prio := by
      rw [Abs.pdPrio, Abs.task_pendOn, if_neg hxt]
    rw [Abs.Newly, hp]
    simp only [hm, not_true_eq_false, false_or]
    exact hprio x.1 hxt

def LeavesPlace (cfg : Cfg) (a a' : Abs) (e : Event) : Prop := ∃ t q, e = .call (.taskChangePrio (some t) q) ∧
  (a.task t).pendOn = .flag ∧ q < cfg.prioMax - 1 ∧ a.intNesting = 0 ∧ (a.reprio t q false).Sched a'

theorem Abs.CurOk.pendOn_cur (hC : a.CurOk) (hI : a.Sound cfg) (hrun : a.running = true) (hc : a.cur = some t) :
    (a.task t).pendOn = .nothing := by
  obtain ⟨c, hc', hs⟩ := hC.runs hrun
  rw [hc] at hc'
  cases hc'
  have hiff := hI.wait.pendOn_iff t
  rcases hs with hs | ⟨hs, -⟩
  · simpa [hs, TaskState.isPend] using hiff
  · simpa [hs, TaskState.isPend] using hiff

theorem AStep.placed (hstep : AStep cfg s a e r a') (H : Ready cfg s a) (hp : ¬ PassedMatch cfg s e)
    (hK : K .flag → ¬ LeavesPlace cfg a a' e) (hO : a.Sorted K fun _ => False) : ∃ T, a.Placed a' K T := by
  have hself : a.Placed a K fun _ => False := Abs.Thinned.placed (fun o x hx => ⟨hx, rfl⟩) hO
  cases hstep with
  | still _ h => exact ⟨_, h.placed H.sound H.cur hO⟩
  | acts _ h => exact ⟨_, h.placed H.sound H.cur hO⟩
  | sched _ _ h hs => exact ⟨_, (h.placed H.sound H.cur hO).sched hs⟩
  | leave _ _ _ _ h hs =>
    refine ⟨_, Abs.Placed.sched (Abs.Placed.congr (h.placed H.sound H.cur hO) ?_ ?_ ?_) hs⟩
    · rfl
    · rfl
    · intro x
      rfl
  | @finish t _ _ _ _ h =>
    have hP := h.placed (H.sound.congr rfl rfl rfl rfl rfl) (H.cur.setCont t .none) (hO.congr rfl rfl fun _ => rfl)
    exact ⟨_, hP.ordered, hP.newly⟩
  | mutexReturn | lock | intEnter | start =>
    refine ⟨_, hself.congr ?_ ?_ ?_⟩
    · rfl
    · rfl
    · intro x
      rfl
  | @create args t _ _ hd _ _ hs =>
    have hout : ∀ o, ∀ x ∈ a.waiting o, x.1 ≠ t := fun o x => H.sound.not_waiting (by rw [hd]; rfl) o
    have hO' : (a.start t args.prio).Sorted K fun _ => False := by
      refine hO.reset (t := t) rfl (fun _ => List.Sublist.refl _) (fun x hx => ?_) fun o _ x hm => hout o x hm
      rw [Abs.task_start, if_neg hx]
    have hP : a.Placed (a.start t args.prio) K fun _ => False := by
      apply Abs.Thinned.placed _ hO'
      intro o x hx
      refine ⟨hx, ?_⟩
      rw [Abs.pdPrio, Abs.task_start, if_neg (hout o x hx)]
      rfl
    split at hs
    · exact ⟨_, hP.sched hs⟩
    · exact ⟨_, hs ▸ hP⟩
  | @delete p t _ _ _ _ _ _ hs =>
    refine ⟨_, Abs.Placed.sched (Abs.Thinned.placed ?_ (hO.erase H.sound H.rep.nodup)) hs⟩
    intro o x hx
    have hxt : x.1 ≠ t := by
      apply (H.sound.erase H.rep.nodup t).not_waiting _ o hx
      rw [Abs.task_erase, if_pos rfl]
      rfl
    refine ⟨(a.waiting_unlink_sublist t o).mem hx, ?_⟩
    rw [Abs.pdPrio, Abs.task_erase, if_neg hxt]
    rfl
  | @changePrio p q t _ hrun ht hd hint hq hs =>
    refine ⟨fun x => x = t ∧ q ≠ (a.task t).prio, Abs.Placed.sched ⟨?_, fun o x hx => ?_⟩ hs⟩
    · apply hO.reprio H.sound H.rep.nodup_waiting (H.rep.nodup_table _)
      · rintro x ⟨-, hq⟩
        exact ⟨rfl, hq⟩
      · intro x hx
        simp [hx]
      · intro hk
        rcases ht with rfl | ⟨rfl, hc⟩
        · exact fun hfl => hK hk ⟨t, q, rfl, hfl, hq, hint, hs⟩
        · simp [H.cur.pendOn_cur H.sound hrun hc]
    · have hm : x ∈ a.waiting o := (Abs.mem_waiting_reprio H.sound.wait t q _ o x).mp hx
      rw [Abs.Newly, Abs.pdPrio, Abs.task_reprio H.sound.wait]
      by_cases hxt : x.1 = t
      · simp [hm, hxt, hd, Abs.pdPrio]
      · simp [hm, hxt, Abs.pdPrio]
  | refuse _ _ _ h => exact absurd h hp
  | @object c r o k _ hw =>
    refine ⟨_, Abs.Thinned.placed (fun o x hx => ⟨hx, rfl⟩) fun o' ho' => ?_⟩
    by_cases hoo : o' = o
    · change InOrder _ (a.waiting o')
      rw [hoo, hw]
      exact List.Pairwise.nil
    · apply hO o'
      rwa [Abs.obj_modObj, if_neg hoo] at ho'
  | take | nest | unnest | release => exact ⟨_, Abs.Thinned.placed (fun o x hx => ⟨hx, rfl⟩) (hO.modObj rfl)⟩
  | @wait o t w timed _ _ b _ hstop _ _ _ _ hb _ hs =>
    obtain ⟨T, hP⟩ := AStep.placed_wait (o := o) H hO hstop.1 hb
    refine ⟨T, Abs.Placed.sched (Abs.Placed.congr hP ?_ ?_ ?_) hs⟩
    · rfl
    · rfl
    · intro x
      rfl
  | @handOff o t d _ _ _ _ _ _ _ _ hrdy hs =>
    have hP : a.Placed ((a.restore t (a.obj o).ownerPrio).handOff o d.1) K fun _ => False := by
      apply Abs.Thinned.placed _ ((hO.restore H.sound hrdy).handOff o d.1)
      apply (Abs.Thinned.restore H.sound hrdy).trans
      exact Abs.Thinned.wake (Abs.modObj (a.restore t (a.obj o).ownerPrio) o _) d.1 .ok
    split at hs
    · exact ⟨_, hP.sched hs⟩
    · exact ⟨_, hs ▸ hP⟩
  | unlock _ _ _ hs | intExit _ hs =>
    refine ⟨_, Abs.Placed.sched (hself.congr ?_ ?_ ?_) hs⟩
    · rfl
    · rfl
    · intro x
      rfl

theorem Abs.Sorted.of_rank (h : a.Sorted K T) : a.Sorted K fun _ => False := by
  intro o ho
  apply List.Pairwise.imp _ (h o ho)
  intro x y hxy
  unfold Abs.rank at hxy ⊢
  rw [if_neg id]
  split at hxy <;> split at hxy <;> omega

end UcosIII
