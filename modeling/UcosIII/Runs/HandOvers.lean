import Mathlib.Algebra.BigOperators.Group.Finset.Piecewise
import Mathlib.Algebra.Order.Group.Multiset
import UcosIII.Runs.MultiPend
import UcosIII.Runs.PendOrder

namespace UcosIII

open Prog

variable {n N : ℕ} {cfg : Cfg} {s s' : OS} {a a' : Abs} {t : TcbId} {o : ObjId} {d : PdId} {e : Event} {r : Option Ret}
  {h : List Step} {l : QLoc}

def Ret.item (x : Ret) : Item := ⟨x.msgPtr, x.msgSize, x.ts⟩

def Event.sends (s : OS) (r : Option Ret) (l : QLoc) : Event → Multiset Item
  | .call (.qPost (some o) v z _) => if l = .obj o ∧ granted r = true then {⟨v, z, s.tsNow⟩} else 0
  | .call (.taskQPost p v z _) =>
    match l with
    | .obj _ => 0
    | .tcb t => if s.Target p t ∧ granted r = true then {⟨v, z, s.tsNow⟩} else 0
  | _ => 0

def Event.fetches (s : OS) (r : Option Ret) (s' : OS) (l : QLoc) : Event → Multiset Item
  | .call (.qPend (some o) ..) => if l = .obj o ∧ granted r = true then r.elim 0 fun x => {x.item} else 0
  | .call (.taskQPend ..) =>
    if (∃ t ∈ s.tcbCurPtr, l = .tcb t) ∧ granted r = true then r.elim 0 fun x => {x.item} else 0
  | .call (.pendMulti (some i) objs ..) =>
    if granted r = true then s.tcbCurPtr.elim 0 fun t => (s'.rowsTook (t, i) objs.length l : List Item) else 0
  | _ => 0

def OS.EndsOk (s s' : OS) (t : TcbId) : Prop :=
  (s.tcb t).taskState.isPend = true ∧ (s'.tcb t).taskState.isPend = false ∧ (s'.tcb t).taskState ≠ .del ∧
    (s'.tcb t).pendStatus = .ok

instance (s s' : OS) (t : TcbId) : Decidable (s.EndsOk s' t) := inferInstanceAs (Decidable (_ ∧ _))

/-- The messages of the queue `o` that `t`, which waits on it, is given with the end of its wait. -/
def OS.receives (s s' : OS) (o : ObjId) (t : TcbId) : Multiset Item :=
  if s.EndsOk s' t then
    if (s.tcb t).pendOn = .multi then ((s.tcb t).table.filterMap fun d =>
      if (s'.pendData d).rdyObjPtr = some o then some (s'.pendData d).letter else none : List Item)
    else {(s'.tcb t).mail.item}
  else 0

def OS.handed (s s' : OS) : QLoc → Multiset Item
  | .obj o => ∑ t ∈ (s.pendTasks o).toFinset, s.receives s' o t
  | .tcb t => if (s.tcb t).WaitsLetter ∧ s.EndsOk s' t then {(s'.tcb t).mail.item} else 0

def Event.delivers (s : OS) (r : Option Ret) (s' : OS) (l : QLoc) (e : Event) : Multiset Item :=
  e.fetches s r s' l + s.handed s' l

def Event.empties (s : OS) (r : Option Ret) (l : QLoc) : Event → Bool
  | .call (.qCreate p _) => granted r = true ∧ p.map .obj = some l
  | .call (.taskCreate args) => granted r = true ∧ args.tcb.map .tcb = some l
  | .call (.taskDel p) | .call (.taskQFlush p) =>
    match l with
    | .obj _ => false
    | .tcb t => granted r = true ∧ s.Target p t
  | _ => false

def Event.copies : Event → Bool
  | .call (.qPost _ _ _ opt) => opt &&& optPostAll ≠ 0
  | _ => false

section hands

theorem filterMap_of_unique {α β : Type} {f : α → Option β} {L : List α} {x : α} (hL : L.Nodup) (hx : x ∈ L)
    (hother : ∀ y ∈ L, y ≠ x → f y = none) : L.filterMap f = (f x).toList := by
  obtain ⟨A, B, rfl⟩ := List.append_of_mem hx
  obtain ⟨-, hB, hAB⟩ := List.nodup_append.mp hL
  have hA : A.filterMap f = [] := by
    refine List.filterMap_eq_nil_iff.mpr fun y hy => hother y (List.mem_append_left _ hy) ?_
    exact hAB y hy x (List.mem_cons_self ..)
  have hB' : B.filterMap f = [] := by
    refine List.filterMap_eq_nil_iff.mpr fun y hy => hother y (List.mem_append_right _ (List.mem_cons_of_mem _ hy)) ?_
    rintro rfl
    exact (List.nodup_cons.mp hB).1 hy
  rw [List.filterMap_append, hA, List.filterMap_cons, hB']
  cases f x <;> rfl

theorem Ready.osQPost_hands (H : Ready cfg s a) {v : Option ℕ} {z : ℕ} {opt : Opt} (hopt : opt &&& optPostAll = 0) :
    wp n cfg (osQPost (some o) v z opt) (fun x s' => s'.file = if x = .none then (a.waiting o).head?.elim s.file fun d =>
      Function.update s.file d.1 ((s.file d.1).posted (some o) ⟨v, z, s.tsNow⟩) else s.file) s := by
  rw [osQPost]
  refine wp_ite.mpr ⟨fun _ => wp_pure.mpr rfl, fun _ => ?_⟩
  rw [wp_bind, wp_getObj]
  refine wp_ite.mpr ⟨fun _ => wp_pure.mpr rfl, fun _ => ?_⟩
  rw [wp_bind, wp_tsGet, qPost, wp_bind, wp_getObj, wp_ite]
  constructor
  · intro h0
    have hnil : a.waiting o = [] := (H.rep.pend.list o).nbr_eq_zero.mp h0
    rw [wp_bind]
    refine ((keeps_noMsgs_msgQPut _ v z _ _).comp OS.file n cfg s).mono fun x s₁ h₁ => ?_
    have hf₁ : s₁.file = s.file := h₁
    rw [wp_bind, wp_modObj]
    refine wp_pure.mpr ?_
    rw [hnil, List.head?_nil]
    change s₁.file = _
    rw [hf₁]
    split <;> rfl
  · intro hne
    rw [wp_bind, if_neg (by simpa using hopt), postLoop, wp_bind, wp_deref, H.rep.pendHead]
    intro d hd
    have hmem := List.mem_of_mem_head? hd
    have hp : (s.file d.1).state.isPend = true :=
      (congrArg TaskState.isPend (H.rep.state d.1)).trans (H.sound.isPend_of_mem hmem)
    rw [wp_bind, wp_getPendData, wp_bind, wp_deref, H.rep.tcbPtr H.sound hmem]
    rintro _ ⟨⟩
    rw [wp_bind]
    refine (post_file (H.rep.own H.sound d.1) v z s.tsNow).mono fun _ s₁ h₁ => wp_pure.mpr ?_
    rw [wp_bind]
    refine (keeps_file_schedOpt opt n cfg s₁).mono fun _ s₂ h₂ => wp_pure.mpr ?_
    rw [h₂, h₁, if_pos hp, if_pos rfl, hd]
    rfl

theorem OS.receives_of_pend (hp : (s'.file t).state.isPend = true) : s.receives s' o t = 0 := by
  rw [OS.receives, if_neg]
  rintro ⟨-, hend, -⟩
  have hp' : (s'.tcb t).taskState.isPend = true := hp
  rw [hp'] at hend
  cases hend

theorem OS.receives_of_status (hst : (s'.file t).pendStatus ≠ .ok) : s.receives s' o t = 0 := by
  rw [OS.receives, if_neg]
  rintro ⟨-, -, -, hok⟩
  exact hst hok

theorem OS.endsOk_posted {o : Option ObjId} {m : Mail} (hp : (s.file t).state.isPend = true)
    (hf : s'.file t = (s.file t).posted o m) : s.EndsOk s' t := by
  obtain ⟨tbl, row, x, hshape⟩ := (s.file t).posted_shape o m
  have hf' := hf.trans hshape
  refine ⟨hp, ?_, ?_, (congrArg File.pendStatus hf' :)⟩
  · exact (congrArg (fun f : File => f.state.isPend) hf').trans (File.isPend_woken _ _)
  · have hst : (s'.tcb t).taskState = (s.file t).state.woken := (congrArg File.state hf' :)
    rw [hst, TaskState.woken]
    split <;> simp

theorem Ready.receives_posted {o' : ObjId} {m : Mail} (H : Ready cfg s a) (hU : s.Unreported) (ht : t ∈ s.pendTasks o)
    (ht' : t ∈ s.pendTasks o') (hf : s'.file t = (s.file t).posted (some o') m) :
    s.receives s' o t = if o' = o then {m.item} else 0 := by
  obtain ⟨hp, -⟩ := H.mem_pendTasks.mp ht
  rw [OS.receives, if_pos (OS.endsOk_posted hp hf)]
  by_cases hk : (s.file t).pendOn = .multi
  · rw [if_pos (show (s.tcb t).pendOn = .multi from hk)]
    obtain ⟨-, d, hmark, hrow⟩ := File.marked_mark (g := fun _ => ⟨some o', m.msgPtr, m.msgSize, m.ts⟩) (fun _ => rfl)
      (hU t hp hk) (H.mem_pendTasks.mp ht').2
    have hrow' : (s'.file t).row = _ := (congrArg File.row hf).trans (File.row_posted hk m)
    obtain ⟨hd, -, hrdy, hother⟩ := hmark.congr hrow'
    have hown := H.rep.own H.sound t
    have hnd : (s.tcb t).table.Nodup := by
      have htab := H.rep.nodup_table t
      rwa [H.rep.task] at htab
    have hkey (x : PdId) (hx : x ∈ (s.tcb t).table) : s'.pendData x = s'.pendData (t, x.2) := by
      rw [show x = (t, x.2) from Prod.ext (hown x hx) rfl]
    rw [filterMap_of_unique hnd hd fun x hx hne => if_neg ?_]
    · have hrdy' : (s'.pendData (t, d.2)).rdyObjPtr = some o' := hrdy
      have hletter : (s'.pendData (t, d.2)).letter = m.item := by
        have hr : ((s'.file t).row d.2).2 = ⟨some o', m.msgPtr, m.msgSize, m.ts⟩ := by rw [hrow', hrow]
        change ((s'.file t).row d.2).2.letter = _
        rw [hr]
        rfl
      rw [hkey d hd, hrdy', hletter]
      by_cases hoo : o' = o
      · simp [hoo]
      · simp [hoo]
    · have hnone : (s'.pendData (t, x.2)).rdyObjPtr = none := by
        refine hother x hx fun hxd => hne (Prod.ext ?_ hxd)
        exact (hown x hx).trans (hown d hd).symm
      rw [hkey x hx, hnone]
      simp
  · rw [if_neg (show ¬ (s.tcb t).pendOn = .multi from hk), if_pos (H.on_one hk ht ht')]
    have hmail : (s'.tcb t).mail = m := (congrArg File.mail hf).trans (File.posted_mail hk _ _)
    rw [hmail]

theorem Ready.receives_other (H : Ready cfg s a) (hU : s.Unreported) (ho : (s.obj o).type = .q) (ht : t ∈ s.pendTasks o)
    (he : Enabled s e) (hx : Runs cfg e.exec s r s') (hF : Filed s e r s')
    (hno : ∀ o' v z opt, e ≠ .call (.qPost (some o') v z opt)) : s.receives s' o t = 0 := by
  by_cases hend : s.EndsOk s' t
  · obtain ⟨hp, hp', hdel, hok⟩ := hend
    have hacc := H.accepts ht
    rw [ho] at hacc
    have hstatus {f' : File} (hf : s'.file t = f') (hst : f'.pendStatus ≠ .ok) : s.receives s' o t = 0 := by
      apply OS.receives_of_status
      rw [hf]
      exact hst
    rcases H.wait_ends he hx hF hp hp' with hf | ⟨o', m, hm, ht', hf⟩ | ⟨o', -, -, hf⟩ | ⟨-, hf⟩ | hon | hon | ⟨hon, -⟩
    · exact absurd (congrArg File.state hf) hdel
    · rw [H.receives_posted hU ht ht' hf, if_neg]
      rintro rfl
      have hkind : (s.obj o').type = e.postKind := by
        by_contra hne
        have hpost : e.postObj = some o' := by
          unfold Event.mailTo at hm
          split at hm <;> cases hm <;> rfl
        have hsame := congrFun (Event.post_refused hx hpost hne) t
        have hp₁ : (s.file t).state.isPend = false := by
          rw [← hsame]
          exact hp'
        have hp₂ : (s.file t).state.isPend = true := hp
        rw [hp₁] at hp₂
        cases hp₂
      rw [ho] at hkind
      unfold Event.mailTo at hm
      split at hm
      · cases hkind
      · cases hkind
      · exact hno _ _ _ _ rfl
      · cases hm
    · obtain ⟨tbl, row, x, hs⟩ := (s.file t).aborted_shape (some o') s.tsNow
      exact hstatus (hf.trans hs) (by simp [File.woken])
    · exact hstatus hf (by simp [File.woken])
    all_goals
      rw [hon] at hacc
      cases hacc
  · rw [OS.receives, if_neg hend]

theorem Ready.receives_eq (H : Ready cfg s a) (hU : s.Unreported) (ho : (s.obj o).type = .q) (ht : t ∈ s.pendTasks o)
    (he : Enabled s e) (hx : Runs cfg e.exec s r s') (hF : Filed s e r s') (hone : e.copies = false) :
    s.receives s' o t = if (s.pendTasks o).head? = some t then e.sends s r (.obj o) else 0 := by
  have hp : (s.file t).state.isPend = true := (H.mem_pendTasks.mp ht).1
  have hsame (hf : s'.file t = s.file t) : s.receives s' o t = 0 := OS.receives_of_pend (by rw [hf]; exact hp)
  by_cases hq : ∃ o' v z opt, e = .call (.qPost (some o') v z opt)
  · obtain ⟨o', v, z, opt, rfl⟩ := hq
    have hopt : opt &&& optPostAll = 0 := by simpa [Event.copies] using hone
    have hf : s'.file = if granted r = true then (a.waiting o').head?.elim s.file fun d =>
        Function.update s.file d.1 ((s.file d.1).posted (some o') ⟨v, z, s.tsNow⟩) else s.file := by
      refine hx.wp (Q := fun r s' => s'.file = if granted r = true then (a.waiting o').head?.elim s.file fun d =>
        Function.update s.file d.1 ((s.file d.1).posted (some o') ⟨v, z, s.tsNow⟩) else s.file) fun n => ?_
      exact wp_errOnly.mpr ((H.osQPost_hands hopt).mono fun x s' h' => by simpa [granted] using h')
    have hhead : (s.pendTasks o').head? = (a.waiting o').head?.map Prod.fst := by
      rw [H.rep.pendTasks_eq H.sound, List.head?_map]
    rw [Event.sends]
    by_cases hg : granted r = true
    · rw [if_pos hg] at hf
      cases hd : (a.waiting o').head? with
      | none =>
        rw [hd] at hf hhead
        rw [hsame (by rw [hf]; rfl)]
        split
        · rename_i hh
          rw [if_neg]
          rintro ⟨hoo, -⟩
          cases hoo
          rw [hhead] at hh
          cases hh
        · rfl
      | some d =>
        rw [hd, Option.map_some] at hhead
        rw [hd] at hf
        by_cases htd : t = d.1
        · subst htd
          have ht' : d.1 ∈ s.pendTasks o' := List.mem_of_mem_head? hhead
          rw [H.receives_posted hU ht ht' (by rw [hf]; exact Function.update_self ..)]
          by_cases hoo : o' = o
          · subst hoo
            rw [if_pos rfl, if_pos hhead, if_pos ⟨rfl, hg⟩]
            rfl
          · rw [if_neg hoo, if_neg (c := QLoc.obj o = .obj o' ∧ _)]
            · split <;> rfl
            · rintro ⟨h', -⟩
              cases h'
              exact hoo rfl
        · rw [hsame (by rw [hf]; exact Function.update_of_ne htd _ _)]
          split
          · rename_i hh
            rw [if_neg]
            rintro ⟨hoo, -⟩
            cases hoo
            rw [hhead] at hh
            exact htd (Option.some.inj hh).symm
          · rfl
    · rw [if_neg hg] at hf
      rw [hsame (by rw [hf]), if_neg (c := QLoc.obj o = .obj o' ∧ _) fun h' => hg h'.2]
      split <;> rfl
  · rw [H.receives_other hU ho ht he hx hF fun o' v z opt he' => hq ⟨o', v, z, opt, he'⟩]
    have hsends : e.sends s r (.obj o) = 0 := by
      unfold Event.sends
      split
      · exact absurd ⟨_, _, _, _, rfl⟩ hq
      · rfl
      · rfl
    rw [hsends]
    split <;> rfl

theorem Ready.handed_obj (H : Ready cfg s a) (hU : s.Unreported) (ho : (s.obj o).type = .q)
    (he : Enabled s e) (hx : Runs cfg e.exec s r s') (hF : Filed s e r s') (hone : e.copies = false) :
    s.handed s' (.obj o) = if s.pendTasks o = [] then 0 else e.sends s r (.obj o) := by
  rw [OS.handed]
  have hsum : ∑ t ∈ (s.pendTasks o).toFinset, s.receives s' o t =
      ∑ t ∈ (s.pendTasks o).toFinset, if (s.pendTasks o).head? = some t then e.sends s r (.obj o) else 0 := by
    refine Finset.sum_congr rfl fun t ht => ?_
    exact H.receives_eq hU ho (List.mem_toFinset.mp ht) he hx hF hone
  rw [hsum]
  cases hL : s.pendTasks o with
  | nil => rfl
  | cons t L => simp

theorem Ready.osTaskQPost_hands (H : Ready cfg s a) {p : Option TcbId} {v : Option ℕ} {z : ℕ} {opt : Opt}
    (hT : s.Target p t) (hw : (s.tcb t).WaitsLetter) : wp n cfg (osTaskQPost p v z opt) (fun x s' =>
      s'.file t = if x = .none then (s.file t).posted none ⟨v, z, s.tsNow⟩ else s.file t) s := by
  rw [osTaskQPost]
  refine wp_ite.mpr ⟨fun _ => wp_pure.mpr rfl, fun _ => ?_⟩
  rw [wp_bind, wp_tsGet, taskQPost, wp_bind, wp_target]
  intro t' ht'
  obtain rfl : t' = t := OS.Target.unique ht' hT
  rw [wp_bind, wp_getTcb]
  have hp : (s.file t').state.isPend = true := hw.1
  have hpost : wp n cfg (do
      if (s.tcb t').pendOn = .taskQ then
        post none t' v z s.tsNow
        schedOpt opt
        return .none
      else taskQPut t' v z opt s.tsNow) (fun x s' =>
        s'.file t' = if x = .none then (s.file t').posted none ⟨v, z, s.tsNow⟩ else s.file t') s := by
    rw [if_pos hw.2, wp_bind]
    refine (post_file (H.rep.own H.sound t') v z s.tsNow).mono fun _ s₁ h₁ => ?_
    rw [wp_bind]
    refine (keeps_file_schedOpt opt n cfg s₁).mono fun _ s₂ h₂ => wp_pure.mpr ?_
    rw [h₂, h₁, if_pos hp, if_pos rfl, Function.update_self]
  have hst := hw.1
  cases hs : (s.tcb t').taskState with
  | rdy | dly | suspended | dlySuspended | del =>
    rw [hs] at hst
    cases hst
  | pend | pendTimeout | pendSuspended | pendTimeoutSuspended => exact hpost

theorem Ready.handed_own (H : Ready cfg s a) (he : Enabled s e) (hx : Runs cfg e.exec s r s') (hF : Filed s e r s') :
    s.handed s' (.tcb t) = if (s.tcb t).WaitsLetter then e.sends s r (.tcb t) else 0 := by
  rw [OS.handed]
  by_cases hw : (s.tcb t).WaitsLetter
  · have hp : (s.file t).state.isPend = true := hw.1
    have hon : (s.file t).pendOn = .taskQ := hw.2
    rw [if_pos hw]
    by_cases hq : ∃ p v z opt, e = .call (.taskQPost p v z opt) ∧ s.Target p t
    · obtain ⟨p, v, z, opt, rfl, hT⟩ := hq
      have hf : s'.file t = if granted r = true then (s.file t).posted none ⟨v, z, s.tsNow⟩ else s.file t := by
        refine hx.wp (Q := fun r s' => s'.file t = if granted r = true then
          (s.file t).posted none ⟨v, z, s.tsNow⟩ else s.file t) fun n => ?_
        exact wp_errOnly.mpr ((H.osTaskQPost_hands hT hw).mono fun x s' h' => by simpa [granted] using h')
      rw [Event.sends]
      by_cases hg : granted r = true
      · rw [if_pos hg] at hf
        have hmail : (s'.tcb t).mail = ⟨v, z, s.tsNow⟩ :=
          (congrArg File.mail hf).trans (File.posted_mail (by rw [hon]; simp) _ _)
        rw [if_pos ⟨hw, OS.endsOk_posted hp hf⟩, if_pos ⟨hT, hg⟩, hmail]
        rfl
      · rw [if_neg hg] at hf
        have hp' : (s'.file t).state.isPend = true := by
          rw [hf]
          exact hp
        have hp'' : (s'.tcb t).taskState.isPend = true := hp'
        rw [if_neg (c := s.Target p t ∧ _) fun h' => hg h'.2, if_neg]
        rintro ⟨-, -, hend, -⟩
        rw [hp''] at hend
        cases hend
    · have hsends : e.sends s r (.tcb t) = 0 := by
        unfold Event.sends
        split
        · rw [if_neg]
          rintro ⟨h', -⟩
          cases h'
        · exact if_neg fun h' => hq ⟨_, _, _, _, rfl, h'.1⟩
        · rfl
      rw [hsends, if_neg]
      rintro ⟨-, -, hp', hdel, hok⟩
      have hacc {o : ObjId} (ht : t ∈ s.pendTasks o) : False := by
        have hacc := H.accepts ht
        rw [hon] at hacc
        cases (s.obj o).type <;> cases hacc
      rcases H.wait_ends he hx hF hp hp' with hf | ⟨o', m, -, ht', -⟩ | ⟨o', -, ht', -⟩ | ⟨-, hf⟩ | hno | hno |
        ⟨-, ⟨p, v, z, opt, he', hT, -⟩ | hf⟩
      · exact hdel (congrArg File.state hf)
      · exact hacc ht'
      · exact hacc ht'
      · have hst : (s'.tcb t).pendStatus = .timeout := (congrArg File.pendStatus hf :)
        rw [hst] at hok
        cases hok
      · rw [hon] at hno
        cases hno
      · rw [hon] at hno
        cases hno
      · exact hq ⟨p, v, z, opt, he', hT⟩
      · obtain ⟨tbl, row, x, hs⟩ := (s.file t).aborted_shape none s.tsNow
        have hst : (s'.tcb t).pendStatus = .abort := (congrArg File.pendStatus (hf.trans hs) :)
        rw [hst] at hok
        cases hok
  · rw [if_neg hw, if_neg fun h' => hw h'.1]

end hands

section balance

def OS.Awaited (s : OS) : QLoc → Prop
  | .obj o => s.pendTasks o ≠ []
  | .tcb t => (s.tcb t).WaitsLetter

theorem putLetter_coe (opt : Opt) (x : Item) (L : List Item) : (putLetter opt x L : Multiset Item) = L + {x} := by
  unfold putLetter
  split
  · rw [← Multiset.coe_add, Multiset.coe_singleton]
  · rw [← Multiset.cons_coe, ← Multiset.singleton_add, add_comm]

theorem Event.Mails.moves (hm : e.Mails s r s') (H : Ready cfg s a) (hx : Runs cfg e.exec s r s')
    (hne : e.empties s r l = false) :
    (s.Awaited l → (s.letters l : Multiset Item) = s'.letters l + e.fetches s r s' l) ∧
    (¬ s.Awaited l → (s.letters l : Multiset Item) + e.sends s r l = s'.letters l + e.fetches s r s' l) := by
  have hsame (hl : s'.letters = s.letters) (hs : e.sends s r l = 0) (hf : e.fetches s r s' l = 0) :
      (s.Awaited l → (s.letters l : Multiset Item) = s'.letters l + e.fetches s r s' l) ∧
      (¬ s.Awaited l → (s.letters l : Multiset Item) + e.sends s r l = s'.letters l + e.fetches s r s' l) := by
    rw [hl, hs, hf]
    exact ⟨fun _ => (add_zero _).symm, fun _ => rfl⟩
  have htakes {l' : QLoc} {x : Item} {L : List Item} (hL : s.letters l' = x :: L)
      (hl : s'.letters = Function.update s.letters l' L) (hs : e.sends s r l = 0)
      (hf : e.fetches s r s' l = if l = l' then {x} else 0) :
      (s.Awaited l → (s.letters l : Multiset Item) = s'.letters l + e.fetches s r s' l) ∧
      (¬ s.Awaited l → (s.letters l : Multiset Item) + e.sends s r l = s'.letters l + e.fetches s r s' l) := by
    have heq : (s.letters l : Multiset Item) = s'.letters l + e.fetches s r s' l := by
      rw [hl, hf]
      by_cases hll : l = l'
      · subst hll
        rw [hL, Function.update_self, if_pos rfl, ← Multiset.cons_coe, ← Multiset.singleton_add, add_comm]
      · rw [Function.update_of_ne hll, if_neg hll, add_zero]
    rw [hs, add_zero]
    exact ⟨fun _ => heq, fun _ => heq⟩
  cases e with
  | call c =>
    cases c with
    | taskDel p | taskQFlush p =>
      rw [Event.Mails] at hm
      split at hm
      · rename_i hg
        obtain ⟨t, hT, hl⟩ := hm
        have hlt : l ≠ .tcb t := by
          rintro rfl
          simp [Event.empties, hg, hT] at hne
        simp [Event.sends, Event.fetches, hl, hlt]
      · exact hsame hm rfl rfl
    | taskQPend timeout opt hasSize =>
      rw [Event.Mails] at hm
      split at hm
      · rename_i hg
        obtain ⟨t, x, L, hcur, hL, hr, hl⟩ := hm
        refine htakes hL hl rfl ?_
        rw [Event.fetches, hr]
        by_cases hlt : l = .tcb t
        · rw [if_pos ⟨⟨t, hcur, hlt⟩, by rfl⟩, if_pos hlt]
          rfl
        · rw [if_neg hlt, if_neg]
          rintro ⟨⟨u, hu, hlu⟩, -⟩
          obtain rfl : t = u := Option.some.inj (hcur.symm.trans hu)
          exact hlt hlu
      · rename_i hg
        exact hsame hm.1 rfl (if_neg fun h' => hg h'.2)
    | taskQPost p v z opt =>
      rw [Event.Mails] at hm
      split at hm
      · rename_i hg
        obtain ⟨t, hT, -, hl⟩ := hm
        by_cases hlt : l = .tcb t
        · subst hlt
          have hs : Event.sends s r (.tcb t) (.call (.taskQPost p v z opt)) = {⟨v, z, s.tsNow⟩} := if_pos ⟨hT, hg⟩
          rw [hs, hl]
          refine ⟨fun hw => ?_, fun hw => ?_⟩
          · rw [if_pos (show (s.tcb t).WaitsLetter from hw)]
            exact (add_zero _).symm
          · rw [if_neg (show ¬ (s.tcb t).WaitsLetter from hw), Function.update_self, putLetter_coe]
            exact (add_zero _).symm
        · have hs : Event.sends s r l (.call (.taskQPost p v z opt)) = 0 := by
            cases l with
            | obj o => rfl
            | tcb u =>
              refine if_neg fun h' => hlt ?_
              rw [OS.Target.unique h'.1 hT]
          have hl' : s'.letters l = s.letters l := by
            rw [hl]
            split
            · rfl
            · exact Function.update_of_ne hlt _ _
          rw [hs, hl']
          exact ⟨fun _ => (add_zero _).symm, fun _ => rfl⟩
      · rename_i hg
        refine hsame hm ?_ rfl
        cases l with
        | obj o => rfl
        | tcb u => exact if_neg fun h' => hg h'.2
    | qPend p timeout opt hasSize =>
      cases p with
      | none => exact hsame hm rfl rfl
      | some o =>
        rw [Event.Mails] at hm
        split at hm
        · obtain ⟨-, x, L, hL, hr, hl⟩ := hm
          refine htakes hL hl rfl ?_
          rw [Event.fetches, hr]
          by_cases hlo : l = .obj o
          · rw [if_pos ⟨hlo, by rfl⟩, if_pos hlo]
            rfl
          · rw [if_neg hlo, if_neg fun h' => hlo h'.1]
        · rename_i hg
          exact hsame hm.1 rfl (if_neg fun h' => hg h'.2)
    | qPost p v z opt =>
      cases p with
      | none => exact hsame hm rfl rfl
      | some o =>
        rw [Event.Mails] at hm
        split at hm
        · rename_i hg
          by_cases hlo : l = .obj o
          · subst hlo
            have hs : Event.sends s r (.obj o) (.call (.qPost (some o) v z opt)) = {⟨v, z, s.tsNow⟩} := if_pos ⟨rfl, hg⟩
            rw [hs, hm.2]
            refine ⟨fun hw => ?_, fun hw => ?_⟩
            · rw [if_neg fun h0 => hw (H.nbr_eq_zero.mp h0)]
              exact (add_zero _).symm
            · rw [if_pos (H.nbr_eq_zero.mpr (not_not.mp hw)), Function.update_self, putLetter_coe]
              exact (add_zero _).symm
          · have hs : Event.sends s r l (.call (.qPost (some o) v z opt)) = 0 := if_neg fun h' => hlo h'.1
            have hl' : s'.letters l = s.letters l := by
              rw [hm.2]
              split
              · exact Function.update_of_ne hlo _ _
              · rfl
            rw [hs, hl']
            exact ⟨fun _ => (add_zero _).symm, fun _ => rfl⟩
        · rename_i hg
          exact hsame hm (if_neg fun h' => hg h'.2) rfl
    | pendMulti tbl objs timeout opt =>
      cases tbl with
      | none => exact hsame hm rfl rfl
      | some i =>
        obtain ⟨t, hcur, hm⟩ := hm
        split at hm
        · rename_i hg
          have hint : s.intNestingCtr = 0 := (hx.wp fun n => osPendMulti_task (some i) objs timeout opt) hg
          have hf : Event.fetches s r s' l (.call (.pendMulti (some i) objs timeout opt)) =
              (s'.rowsTook (t, i) objs.length l : List Item) := by
            rw [Event.fetches, if_pos hg, hcur hint]
            rfl
          have heq : (s.letters l : Multiset Item) = s'.letters l + (s'.rowsTook (t, i) objs.length l : List Item) := by
            rw [hm l, ← Multiset.coe_add, add_comm]
          rw [hf]
          exact ⟨fun _ => heq, fun _ => (add_zero _).trans heq⟩
        · rename_i hg
          exact hsame hm.1 rfl (if_neg hg)
    | _ => exact hsame hm rfl rfl
  | _ => exact hsame hm rfl rfl

def OS.IsQueue (s : OS) : QLoc → Prop
  | .obj o => (s.obj o).type = .q
  | .tcb _ => True

theorem Ready.handed_eq (H : Ready cfg s a) (hU : s.Unreported) (hq : s.IsQueue l) (he : Enabled s e)
    (hx : Runs cfg e.exec s r s') (hF : Filed s e r s') (hone : e.copies = false) :
    (s.Awaited l → s.handed s' l = e.sends s r l) ∧ (¬ s.Awaited l → s.handed s' l = 0) := by
  cases l with
  | obj o =>
    rw [H.handed_obj hU hq he hx hF hone]
    exact ⟨fun hw => if_neg hw, fun hw => if_pos (not_not.mp hw)⟩
  | tcb t =>
    rw [H.handed_own he hx hF]
    exact ⟨fun hw => if_pos hw, fun hw => if_neg hw⟩

theorem Ready.mail_balance (H : Ready cfg s a) (hU : s.Unreported) (hm : e.Mails s r s') (hq : s.IsQueue l)
    (he : Enabled s e) (hx : Runs cfg e.exec s r s') (hF : Filed s e r s') (hone : e.copies = false)
    (hne : e.empties s r l = false) :
    (s.letters l : Multiset Item) + e.sends s r l = s'.letters l + e.delivers s r s' l := by
  obtain ⟨hwait, hidle⟩ := hm.moves H hx hne
  obtain ⟨hwait', hidle'⟩ := H.handed_eq hU hq he hx hF hone
  rw [Event.delivers, ← add_assoc]
  by_cases hw : s.Awaited l
  · rw [hwait hw, hwait' hw]
  · rw [hidle hw, hidle' hw, add_zero]

theorem OS.Posted.emptied (hP : s.Posted N) (he : Enabled s e) (hno : e.spills s = false) (hm : e.Mails s r s')
    (hemp : e.empties s r l = true) : s'.letters l = [] := by
  have hclear {p : Option TcbId} {t : TcbId} (hm : if granted r then
      ∃ t, s.Target p t ∧ s'.letters = Function.update s.letters (.tcb t) [] else s'.letters = s.letters)
      (hg : granted r = true) (hT : s.Target p t) : s'.letters (.tcb t) = [] := by
    rw [if_pos hg] at hm
    obtain ⟨u, hu, hl⟩ := hm
    rw [hl, hu.unique hT, Function.update_self]
  unfold Event.empties at hemp
  split at hemp
  · obtain ⟨-, hl⟩ := of_decide_eq_true hemp
    have hl' : s'.letters = s.letters := hm
    rw [hl']
    refine hP.setsUp he hno l ?_
    rename_i p _
    cases p with
    | none => cases hl
    | some o => exact hl
  · obtain ⟨-, hl⟩ := of_decide_eq_true hemp
    have hl' : s'.letters = s.letters := hm
    rw [hl']
    exact hP.setsUp he hno l hl
  · split at hemp
    · cases hemp
    · obtain ⟨hg, hT⟩ := of_decide_eq_true hemp
      exact hclear hm hg hT
  · split at hemp
    · cases hemp
    · obtain ⟨hg, hT⟩ := of_decide_eq_true hemp
      exact hclear hm hg hT
  · cases hemp

theorem OS.IsQueue.before (hq : s'.IsQueue l) (hx : Runs cfg e.exec s r s') (hne : e.empties s r l = false) :
    s.IsQueue l := by
  cases l with
  | tcb t => trivial
  | obj o =>
    have hD : e.Deals s r s' := hx.wp fun n => Event.exec_deals e
    have hq' : (s'.obj o).type = .q := hq
    rcases hD.count o with ⟨c, k, rfl, hc, hg, htype, -⟩ | ⟨htype, -⟩
    · obtain rfl : k = .q := htype.symm.trans hq'
      cases c with
      | qCreate p maxQty =>
        cases p with
        | none => cases hc
        | some o' =>
          cases hc
          simp [Event.empties, hg] at hne
      | _ => simp [Call.creates] at hc
    · exact htype.symm.trans hq'

def OS.Idle (s : OS) : Prop := ∀ l, s.IsQueue l → s.Awaited l → s.letters l = []

theorem OS.Idle.step (hI : s.Idle) (hP : s.Posted N) (H : Ready cfg s a) (H' : Ready cfg s' a') (he : Enabled s e)
    (hno : e.spills s = false) (hx : Runs cfg e.exec s r s') (hF : Filed s e r s') (hm : e.Mails s r s') : s'.Idle := by
  intro l hq hw
  cases hemp : e.empties s r l with
  | true => exact hP.emptied he hno hm hemp
  | false =>
    have hq₀ := hq.before hx hemp
    have hold (hw₀ : s.Awaited l) : s'.letters l = [] := by
      have hsum := (hm.moves H hx hemp).1 hw₀
      rw [hI l hq₀ hw₀] at hsum
      exact (Multiset.coe_eq_zero _).mp (Multiset.le_zero.mp ((Multiset.le_add_right _ _).trans_eq hsum.symm))
    cases l with
    | obj o =>
      obtain ⟨t, ht⟩ := List.exists_mem_of_ne_nil _ hw
      rcases H.on_step hF (H'.mem_pendTasks.mp ht) with hon | ⟨rfl, ⟨c, kind, rfl, hc, hkind⟩ | ⟨i, objs, timeout, opt, rfl, hmem⟩⟩
      · exact hold (List.ne_nil_of_mem (H.mem_pendTasks.mpr hon))
      · have hacc := H'.accepts ht
        rw [show (s'.obj o).type = .q from hq, hkind] at hacc
        unfold Call.waitsFor at hc
        split at hc <;> cases hc <;> try cases hacc
        rw [Event.Mails, if_neg (by simp [granted])] at hm
        rw [hm.1]
        exact (hm.2 rfl).2
      · obtain ⟨t', -, hm⟩ := hm
        rw [if_neg (by simp [granted])] at hm
        rw [hm.1]
        exact hm.2 rfl (some o) hmem o rfl hq₀
    | tcb t =>
      have hw' : (s'.file t).state.isPend = true ∧ (s'.file t).pendOn = .taskQ := hw
      rcases hF t with hsame | hc
      · rw [hsame] at hw'
        exact hold hw'
      by_cases hp : (s.file t).state.isPend = true
      · obtain ⟨hon, -⟩ := hc.sameWait (fun hcur => H.not_pend hcur) hp hw'.1
        exact hold ⟨hp, hon.symm.trans hw'.2⟩
      · obtain ⟨rfl, hcur, ⟨c, kind, p, rfl, hwf, hkind, -⟩ | ⟨i, objs, timeout, opt, timed, -, hf⟩⟩ :=
          hc.newWait (by simpa using hp) hw'.1
        · rw [hw'.2] at hkind
          subst hkind
          unfold Call.waitsFor at hwf
          split at hwf <;> cases hwf
          rw [Event.Mails, if_neg (by simp [granted])] at hm
          obtain ⟨u, hu, hnil⟩ := hm.2 rfl
          obtain rfl : t = u := Option.some.inj (hcur.symm.trans hu)
          rw [hm.1, hnil]
        · rw [hf] at hw'
          cases hw'.2

end balance

end UcosIII
