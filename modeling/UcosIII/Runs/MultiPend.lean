import UcosIII.Runs.Letters
import UcosIII.Runs.Tokens

namespace UcosIII

open Prog

variable {n : ℕ} {cfg : Cfg} {s s' : OS} {a b a' : Abs} {t : TcbId} {o : ObjId} {d : PdId} {e : Event} {r : Option Ret}
  {h : List Step}

section reach

theorem Ready.pendAbortLoop_reaches (H : Ready cfg s a) (opt : Opt) (ts : ℕ) :
    wp n cfg (Prog.loop (pendAbortStep o opt ts) 0) (fun _ s' => ∀ t ∉ s.pendTasks o, s'.file t = s.file t) s := by
  refine wp_loop (fun _ s' => (∃ b, Rep cfg s' b ∧ b.Sound cfg ∧ ∀ d ∈ b.waiting o, d.1 ∈ s.pendTasks o) ∧
    ∀ t ∉ s.pendTasks o, s'.file t = s.file t) ?_ ⟨⟨a, H.rep, H.sound, fun d hd => ?_⟩, fun _ _ => rfl⟩
  · rintro k s₁ ⟨⟨b, h₁, hI₁, hsub⟩, hfile⟩
    rw [pendAbortStep, wp_bind, wp_getObj, wp_ite]
    refine ⟨fun _ => wp_pure.mpr hfile, fun _ => ?_⟩
    rw [wp_bind, wp_deref, h₁.pendHead]
    intro d hd
    have hmem : d ∈ b.waiting o := List.mem_of_mem_head? hd
    rw [wp_bind, wp_getPendData, wp_bind, wp_deref, h₁.tcbPtr hI₁ hmem]
    rintro _ ⟨⟩
    rw [wp_bind]
    refine ((pendAbort_spec h₁ hI₁ (by simp) ts).and (pendAbort_file (h₁.own hI₁ d.1) ts)).mono ?_
    rintro _ s₂ ⟨h₂, hf₂⟩
    have hfile₂ : ∀ t ∉ s.pendTasks o, s₂.file t = s.file t := by
      intro t ht
      rw [hf₂, Function.update_of_ne, hfile t ht]
      rintro rfl
      exact ht (hsub d hmem)
    refine wp_ite.mpr ⟨fun _ => wp_pure.mpr hfile₂, fun _ => wp_pure.mpr ⟨⟨_, h₂, hI₁.wake d.1 .abort, fun x hx => ?_⟩, hfile₂⟩⟩
    rw [hI₁.waiting_wake] at hx
    exact hsub x (List.mem_filter.mp hx).1
  · rw [H.rep.pendTasks_eq H.sound]
    exact List.mem_map_of_mem hd

theorem Ready.objPendAbort_reaches (H : Ready cfg s a) (type : ObjType) (opt : Opt) :
    wp n cfg (objPendAbort type (some o) opt) (fun _ s' => ∀ t ∉ s.pendTasks o, s'.file t = s.file t) s := by
  rw [objPendAbort, wp_bind, wp_get]
  refine wp_ite.mpr ⟨fun _ => wp_pure.mpr fun _ _ => rfl, fun _ => ?_⟩
  dsimp only
  refine wp_ite.mpr ⟨fun _ => wp_pure.mpr fun _ _ => rfl, fun _ => ?_⟩
  rw [wp_bind, wp_getObj]
  refine wp_ite.mpr ⟨fun _ => wp_pure.mpr fun _ _ => rfl, fun _ => ?_⟩
  rw [wp_bind, wp_getObj]
  refine wp_ite.mpr ⟨fun _ => wp_pure.mpr fun _ _ => rfl, fun _ => ?_⟩
  rw [wp_bind]
  refine (H.pendAbortLoop_reaches opt s.tsNow).mono fun _ s₁ h₁ => ?_
  rw [wp_bind]
  refine (keeps_file_schedOpt opt n cfg s₁).mono fun _ s₂ h₂ => wp_pure.mpr fun t ht => ?_
  rw [h₂, h₁ t ht]

end reach

section waits

def Event.mailTo (s : OS) : Event → Option (ObjId × Mail)
  | .call (.semPost (some o) _) | .call (.mutexPost (some o) _) => some (o, ⟨none, 0, s.tsNow⟩)
  | .call (.qPost (some o) v z _) => some (o, ⟨v, z, s.tsNow⟩)
  | _ => none

def Event.abortObj : Event → Option ObjId
  | .call (.semPendAbort p _) | .call (.qPendAbort p _) => p
  | _ => none

theorem Ready.unaborted (H : Ready cfg s a) (hx : Runs cfg e.exec s r s') (he : e.abortObj = some o) (ht : t ∉ s.pendTasks o) :
    s'.file t = s.file t := by
  unfold Event.abortObj at he
  split at he
  · subst he
    exact hx.wp (Q := fun _ s' => s'.file t = s.file t) fun n =>
      wp_always.mpr ((H.objPendAbort_reaches .sem _).mono fun _ _ h' => h' t ht)
  · subst he
    exact hx.wp (Q := fun _ s' => s'.file t = s.file t) fun n =>
      wp_always.mpr ((H.objPendAbort_reaches .q _).mono fun _ _ h' => h' t ht)
  · cases he

theorem Ready.wait_ends (H : Ready cfg s a) (he : Enabled s e) (hx : Runs cfg e.exec s r s') (hF : Filed s e r s')
    (hp : (s.file t).state.isPend = true) (hend : (s'.file t).state.isPend = false) :
    s'.file t = (s.file t).erased ∨
    (∃ o m, e.mailTo s = some (o, m) ∧ t ∈ s.pendTasks o ∧ s'.file t = (s.file t).posted (some o) m) ∨
    (∃ o, e.abortObj = some o ∧ t ∈ s.pendTasks o ∧ s'.file t = (s.file t).aborted (some o) s.tsNow) ∨
    (e = .tickUpdate ∧ s'.file t = { s.file t with mail := ⟨none, 0, s.tsNow⟩, table := [] }.woken .timeout) ∨
    (s.file t).pendOn = .flag ∨ (s.file t).pendOn = .taskSem ∨
    ((s.file t).pendOn = .taskQ ∧ ((∃ p v z opt, e = .call (.taskQPost p v z opt) ∧ s.Target p t ∧
      s'.file t = (s.file t).posted none ⟨v, z, s.tsNow⟩) ∨ s'.file t = (s.file t).aborted none s.tsNow)) := by
  have hold {f' : File} (hf : s'.file t = f') (hst : f'.state.isPend = (s.file t).state.isPend) : False := by
    rw [hf, hst, hp] at hend
    cases hend
  have hmem {o : ObjId} (ho : e.postObj = some o) : t ∈ s.pendTasks o := by
    by_contra ht
    obtain ⟨k, hk⟩ := H.unreached hx ho ht
    exact hold hk rfl
  have hidle (hcur : s.tcbCurPtr = some t) : False := by
    rw [H.not_pend hcur] at hp
    cases hp
  have hflag {o : ObjId} (ho : e.postObj = some o) (hk : e.postKind = .flag) : (s.file t).pendOn = .flag := by
    by_cases htype : (s.obj o).type = e.postKind
    · have hacc := H.accepts (hmem ho)
      rw [htype, hk] at hacc
      cases hon : (s.file t).pendOn <;> simp [hon, PendOn.accepts] at hacc ⊢
    · exact (hold (congrFun (Event.post_refused hx ho htype) t) rfl).elim
  rcases hF t with hsame | hc
  · exact (hold hsame rfl).elim
  have hsignal (hs : s'.file t = (s.file t).signalled s.tsNow) : (s.file t).pendOn = .taskSem := by
    rcases (s.file t).signalled_shape s.tsNow with ⟨-, hk, -⟩ | ⟨-, c, hs'⟩
    · exact hk
    · exact (hold (hs.trans hs') rfl).elim
  have hturn := hc.turn
  obtain ⟨f', hf⟩ : ∃ f', s'.file t = f' := ⟨_, rfl⟩
  rw [hf] at hturn
  cases hturn with
  | fresh he' ht' =>
    subst he'
    have hdel : (s.file t).state = .del := he.1.1 t ht'
    rw [hdel] at hp
    cases hp
  | erased => exact .inl hf
  | suspended =>
    obtain ⟨st, c, hs, hst, -⟩ := (s.file t).suspended_shape
    exact (hold (hf.trans hs) hst).elim
  | resumed =>
    obtain ⟨st, c, hs, hst, -⟩ := (s.file t).resumed_shape
    exact (hold (hf.trans hs) hst).elim
  | semSet | msgs => exact (hold hf rfl).elim
  | signalled hs => exact .inr (.inr (.inr (.inr (.inr (.inl (hsignal hf))))))
  | posted he' _ _ hnone =>
    unfold Event.isPost at he'
    split at he'
    · rename_i p _
      cases p with
      | none => exact hc.elim
      | some o' => exact .inr (.inl ⟨o', _, rfl, hmem rfl, hc.2⟩)
    · rename_i p _ _ _
      cases p with
      | none => exact hc.elim
      | some o' => exact .inr (.inl ⟨o', _, rfl, hmem rfl, hc.2⟩)
    · rename_i p _
      cases p with
      | none => exact hc.elim
      | some o' => exact .inr (.inl ⟨o', _, rfl, hmem rfl, hc.2⟩)
    · rename_i p _ _
      cases p with
      | none => exact hc.elim
      | some o' => exact .inr (.inr (.inr (.inr (.inl (hflag rfl rfl)))))
    · exact .inr (.inr (.inr (.inr (.inr (.inl (hsignal hc.2.2))))))
    · rename_i p v z opt
      rcases hc with ⟨htgt, ⟨-, hk, hs⟩ | ⟨-, k, hs⟩⟩
      · exact .inr (.inr (.inr (.inr (.inr (.inr ⟨hk, .inl ⟨p, v, z, opt, rfl, htgt, hs⟩⟩)))))
      · exact (hold hs rfl).elim
    · exact .inr (.inr (.inr (.inr (.inr (.inl (hsignal hc.2))))))
    · cases he'
  | flagged he' =>
    subst he'
    exact .inr (.inr (.inr (.inr (.inl (hflag rfl rfl)))))
  | flagPosts _ hcur => exact (hidle hcur).elim
  | aborted he' _ hnone =>
    unfold Event.isAbort at he'
    have hab {o : ObjId} (ho : e.abortObj = some o) (hf : s'.file t = (s.file t).aborted (some o) s.tsNow) :
        ∃ o, e.abortObj = some o ∧ t ∈ s.pendTasks o ∧ s'.file t = (s.file t).aborted (some o) s.tsNow := by
      refine ⟨o, ho, ?_, hf⟩
      by_contra ht
      exact hold (H.unaborted hx ho ht) rfl
    split at he'
    · rename_i p _
      cases p with
      | none => exact hc.elim
      | some o' => exact .inr (.inr (.inl (hab rfl hc.2)))
    · rename_i p _
      cases p with
      | none => exact hc.elim
      | some o' => exact .inr (.inr (.inl (hab rfl hc.2)))
    · exact .inr (.inr (.inr (.inr (.inr (.inl hc.2.2.1)))))
    · exact .inr (.inr (.inr (.inr (.inr (.inr ⟨hc.2.2.1, .inr hc.2.2.2⟩)))))
    · cases he'
  | expired he' =>
    rcases (s.file t).expired_shape s.tsNow with ⟨-, hs⟩ | ⟨st, hs, hst, -⟩
    · exact .inr (.inr (.inr (.inl ⟨he', hf.trans hs⟩)))
    · exact (hold (hf.trans hs) hst).elim
  | delayed _ hcur | semTaken _ hcur | waits _ hcur | waitsMulti _ hcur | rows _ hcur | flagsRdy _ hcur | finished _ hcur =>
    exact (hidle hcur).elim

end waits

section returning

def Call.pends : Call → Bool
  | taskSemPend .. | taskQPend .. | semPend .. | qPend .. | mutexPend .. | flagPend .. | pendMulti .. => true
  | _ => false

theorem Call.pends_refused {c : Call} (hc : c.pends = true) (hint : 0 < s.intNestingCtr) :
    wp n cfg c.exec (fun _ s' => s' = s) s := by
  cases c with
  | taskSemPend timeout opt | taskQPend timeout opt hasSize | semPend p timeout opt | qPend p timeout opt hasSize
  | mutexPend p timeout opt | flagPend p flags timeout opt | pendMulti tbl objs timeout opt =>
    exact wp_bind.mpr (wp_get.mpr (wp_ite.mpr ⟨fun _ => wp_pure.mpr rfl, fun h0 => absurd hint h0⟩))
  | _ => cases hc

def File.left (f : File) : PendStatus × Option ℕ × ℕ × (ℕ → Option ObjId × Row) :=
  (f.pendStatus, f.mail.msgPtr, f.mail.msgSize, f.row)

theorem Ready.returning (H : Ready cfg s a) (he : Enabled s e) (hx : Runs cfg e.exec s r s') (hF : Filed s e r s')
    (hk : s.cont t ≠ .none) (hk' : s'.cont t = s.cont t) (hp : (s.file t).state.isPend = false)
    (hd : (s.file t).state ≠ .del) :
    (s'.file t).left = (s.file t).left ∧ (s'.file t).state.isPend = false ∧ (s'.file t).state ≠ .del := by
  have hkeep {f' : File} (hf : s'.file t = f') (hl : f'.left = (s.file t).left)
      (hst : f'.state.isPend = (s.file t).state.isPend) (hdel : f'.state = .del → (s.file t).state = .del) :
      (s'.file t).left = (s.file t).left ∧ (s'.file t).state.isPend = false ∧ (s'.file t).state ≠ .del := by
    rw [hf]
    exact ⟨hl, hst.trans hp, fun hd' => hd (hdel hd')⟩
  have hsame (hf : s'.file t = s.file t) := hkeep hf rfl rfl id
  have hwaits (hw : (s.file t).state.isPend = true) : False := by
    rw [hp] at hw
    cases hw
  -- in the middle of a call, a task can only be interrupted
  have hcall {c : Call} (he' : e = .call c) (hcur : s.tcbCurPtr = some t) : 0 < s.intNestingCtr := by
    subst he'
    rcases he.2 with hat | ⟨-, hi⟩ | ⟨hrun, -⟩
    · exact absurd (hat.2.2 t hcur) hk
    · exact hi
    · have hnone := (H.cur.stopped (H.rep.running.trans hrun)).2.2
      rw [H.rep.cur, hcur] at hnone
      cases hnone
  have hpends {c : Call} (he' : e = .call c) (hc : c.pends = true) (hcur : s.tcbCurPtr = some t) :
      (s'.file t).left = (s.file t).left ∧ (s'.file t).state.isPend = false ∧ (s'.file t).state ≠ .del := by
    have hi := hcall he' hcur
    subst he'
    have hs : s' = s := hx.wp fun n => Call.pends_refused hc hi
    exact hsame (by rw [hs])
  have hsignal (hs : s'.file t = (s.file t).signalled s.tsNow) :
      (s'.file t).left = (s.file t).left ∧ (s'.file t).state.isPend = false ∧ (s'.file t).state ≠ .del := by
    rcases (s.file t).signalled_shape s.tsNow with ⟨hw, -⟩ | ⟨-, c, hs'⟩
    · exact (hwaits hw).elim
    · exact hkeep (hs.trans hs') rfl rfl id
  rcases hF t with hf | hc
  · exact hsame hf
  cases e with
  | start | intEnter | intExit | clock ts => exact hc.elim
  | timeTick => exact hsignal hc.2
  | tickUpdate =>
    rcases (s.file t).expired_shape s.tsNow with ⟨hw, -⟩ | ⟨st, hs, hst, hdel⟩
    · exact (hwaits hw).elim
    · exact hkeep (Eq.trans hc hs) rfl hst hdel
  | finish =>
    have hk₀ : s'.cont t = .none := (congrArg File.cont hc.2 :)
    exact absurd (hk'.symm.trans hk₀) hk
  | call c =>
    cases c with
    | taskCreate args => exact absurd (he.1.1 t hc.1) hd
    | taskDel p =>
      have hk₀ : s'.cont t = .none := (congrArg File.cont hc.2 :)
      exact absurd (hk'.symm.trans hk₀) hk
    | taskSuspend p =>
      obtain ⟨st, c, hs, hst, hdel⟩ := (s.file t).suspended_shape
      exact hkeep (hc.2.trans hs) rfl hst hdel
    | taskResume p =>
      obtain ⟨st, c, hs, hst, hdel⟩ := (s.file t).resumed_shape
      exact hkeep (hc.2.trans hs) rfl hst hdel
    | taskSemSet p cnt => exact hkeep hc.2.2 rfl rfl id
    | taskSemPost p opt => exact hsignal hc.2.2
    | taskQPost p v z opt =>
      rcases hc with ⟨-, ⟨hw, -⟩ | ⟨-, k, hs⟩⟩
      · exact (hwaits hw).elim
      · exact hkeep hs rfl rfl id
    | taskQFlush p => exact hkeep hc.2 rfl rfl id
    | semPost p opt | mutexPost p opt | semPendAbort p opt | qPendAbort p opt =>
      cases p with
      | none => exact hc.elim
      | some o => exact (hwaits hc.1).elim
    | qPost p v z opt =>
      cases p with
      | none => exact hc.elim
      | some o => exact (hwaits hc.1).elim
    | flagPost p flags opt =>
      cases p with
      | none => exact hc.elim
      | some o =>
        rcases hc with ⟨hw, -⟩ | ⟨-, -, hs⟩
        · exact (hwaits hw).elim
        · exact hkeep hs rfl rfl id
    | taskSemPendAbort p opt | taskQPendAbort p opt => exact (hwaits hc.2.1).elim
    | timeDly dly opt | timeDlyHMSM args opt =>
      refine hkeep hc.2 rfl ?_ ?_
      · rw [hp]
        rfl
      · intro hdel
        cases hdel
    | taskSemPend timeout opt | taskQPend timeout opt hasSize => exact hpends rfl rfl hc.1
    | semPend p timeout opt | mutexPend p timeout opt =>
      cases p with
      | none => exact hc.elim
      | some o => exact hpends rfl rfl hc.1
    | qPend p timeout opt hasSize =>
      cases p with
      | none => exact hc.elim
      | some o => exact hpends rfl rfl hc.1
    | flagPend p flags timeout opt =>
      cases p with
      | none => exact hc.elim
      | some o => exact hpends rfl rfl hc.1
    | pendMulti tbl objs timeout opt =>
      cases tbl with
      | none => exact hc.elim
      | some i => exact hpends rfl rfl hc.1
    | _ => exact hc.elim

end returning

section rows

namespace File

def Marked (f : File) (D : List PdId) (d : PdId) (o : ObjId) : Prop :=
  d ∈ D ∧ (f.row d.2).1 = some o ∧ (f.row d.2).2.rdyObj = some o ∧ ∀ x ∈ D, x.2 ≠ d.2 → (f.row x.2).2.rdyObj = none

theorem Marked.congr {f f' : File} {D : List PdId} (hm : f.Marked D d o) (hrow : f'.row = f.row) : f'.Marked D d o := by
  rw [Marked, hrow]
  exact hm

theorem marked_mark {f : File} {g : Row → Row} (hg : ∀ x, (g x).rdyObj = some o)
    (hnone : ∀ d ∈ f.table, (f.row d.2).2.rdyObj = none) (hmem : ∃ d ∈ f.table, (f.row d.2).1 = some o) :
    (∀ j, ((f.mark (some o) g).row j).1 = (f.row j).1) ∧
      ∃ d, (f.mark (some o) g).Marked f.table d o ∧ ((f.mark (some o) g).row d.2).2 = g (f.row d.2).2 := by
  have hfind : (f.table.find? fun d => (f.row d.2).1 = some o).isSome := by
    obtain ⟨d, hd, hobj⟩ := hmem
    rw [List.find?_isSome]
    exact ⟨d, hd, decide_eq_true hobj⟩
  obtain ⟨d, hd⟩ := Option.isSome_iff_exists.mp hfind
  have hfirst : f.firstRow (some o) = some d.2 := by
    rw [File.firstRow, hd]
    rfl
  have hrow : (f.mark (some o) g).row = Function.update f.row d.2 ((f.row d.2).1, g (f.row d.2).2) := by
    rw [File.mark, hfirst]
    rfl
  have hobj : (f.row d.2).1 = some o := of_decide_eq_true (List.find?_some hd :)
  unfold Marked
  rw [hrow]
  refine ⟨fun j => ?_, d, ⟨List.mem_of_find?_eq_some hd, ?_, ?_, fun x hx hne => ?_⟩, ?_⟩
  · rw [Function.update_apply]
    split
    · rename_i hj
      rw [hj]
    · rfl
  · rw [Function.update_self]
    exact hobj
  · rw [Function.update_self]
    exact hg _
  · rw [Function.update_of_ne hne]
    exact hnone x hx
  · rw [Function.update_self]

theorem row_posted {f : File} (hk : f.pendOn = .multi) (m : Mail) :
    (f.posted (some o) m).row = (f.mark (some o) fun _ => ⟨some o, m.msgPtr, m.msgSize, m.ts⟩).row := by
  rw [posted, if_pos hk]
  rfl

theorem row_aborted {f : File} (hk : f.pendOn = .multi) (ts : ℕ) :
    (f.aborted (some o) ts).row = (f.mark (some o) fun x => { x with rdyObj := some o, ts := ts }).row := by
  rw [aborted, if_pos hk]
  rfl

end File

def OS.rdyRows (s : OS) (d : PdId) (k : ℕ) : ℕ := (entriesFrom d k).countP fun d => (s.pendData d).rdyObjPtr ≠ none

theorem OS.rdyRows_marked {i k : ℕ} (hm : (s.file t).Marked (entriesFrom (t, i) k) d o) : s.rdyRows (t, i) k = 1 := by
  obtain ⟨hd, -, hrdy, hother⟩ := hm
  have hpred : ∀ x ∈ entriesFrom (t, i) k, (decide ((s.pendData x).rdyObjPtr ≠ none) = true ↔ decide (x = d) = true) := by
    intro x hx
    obtain ⟨t₁, j₁⟩ := x
    obtain ⟨t₂, j₂⟩ := d
    obtain rfl : t₁ = t := (mem_entriesFrom.mp hx).1
    obtain rfl : t₂ = t₁ := (mem_entriesFrom.mp hd).1
    by_cases hj : j₁ = j₂
    · subst hj
      have hrdy' : (s.pendData (t₂, j₁)).rdyObjPtr = some o := hrdy
      simp [hrdy']
    · have hnone : (s.pendData (t₂, j₁)).rdyObjPtr = none := hother (t₂, j₁) hx hj
      simp [hnone, hj]
  rw [OS.rdyRows, List.countP_congr hpred]
  have hcount : ((entriesFrom (t, i) k).countP fun x => x = d) = (entriesFrom (t, i) k).count d := by
    rw [List.count]
    apply List.countP_congr
    simp
  rw [hcount]
  exact List.count_eq_one_of_mem nodup_entriesFrom hd

end rows

section report

def OS.SameStore (s s' : OS) : Prop := (∀ o, (s'.obj o).ctr = (s.obj o).ctr) ∧ s'.letters = s.letters

/-- The last step at which `t` began to wait for the end of a call, and the state it left. -/
def opened (t : TcbId) : List Step → OS → Option (Step × OS)
  | [], _ => none
  | x :: h, s => if x.pre.cont t = .none ∧ s.cont t ≠ .none then some (x, s) else opened t h x.pre

def wokenBy (t : TcbId) : List Step → OS → Option (Step × OS)
  | [], _ => none
  | x :: h, s =>
    if (x.pre.tcb t).taskState.isPend = true ∧ (s.tcb t).taskState.isPend = false then some (x, s) else wokenBy t h x.pre

/-- The step is a granted post to `o`, and gives `m` to `t`; nothing goes into the object. -/
structure HandsOver (y : Step × OS) (t : TcbId) (o : ObjId) (m : Item) : Prop where
  posts : (∃ opt, y.1.event = .call (.semPost (some o) opt)) ∧ m.ptr = none ∧ m.size = 0 ∨
    ∃ opt, y.1.event = .call (.qPost (some o) m.ptr m.size opt)
  ts : m.ts = y.1.pre.tsNow
  granted : granted y.1.ret = true
  waited : (y.1.pre.tcb t).taskState.isPend = true ∧ (y.2.tcb t).taskState.isPend = false
  kept : y.1.pre.SameStore y.2

/-- What `OSPendMulti` is to answer at once: the rows report what has been taken, and a call that is refused has taken
nothing. -/
structure ReportsNow (s : OS) (t : TcbId) (i : ℕ) (objs : List (Option ObjId)) (x : Ret) (s' : OS) : Prop where
  nbr : x.err = .none ∨ x.err = .pendWouldBlock ∨ x.err = .schedLocked → x.val = s'.rdyRows (t, i) objs.length
  own : x.err = .none ∨ x.err = .pendWouldBlock ∨ x.err = .schedLocked → ∀ d ∈ entriesFrom (t, i) objs.length,
    ∀ o, (s'.pendData d).rdyObjPtr = some o → (s'.pendData d).pendObjPtr = some o
  counts : x.err = .none → ∀ o, (s.obj o).ctr =
    (s'.obj o).ctr + if (s.obj o).type = .sem then s'.reports (t, i) objs.length o else 0
  letters : x.err = .none → ∀ l, s.letters l = s'.rowsTook (t, i) objs.length l ++ s'.letters l
  refused : x.err ≠ .none → x.val = 0 ∧ s.SameStore s'

structure ReportsLater (h : List Step) (s : OS) (t : TcbId) (i : ℕ) (objs : List (Option ObjId)) (x : Ret) (s' : OS) :
    Prop where
  nbr : x.val = s'.rdyRows (t, i) objs.length
  own : ∀ d ∈ entriesFrom (t, i) objs.length,
    ∀ o, (s'.pendData d).rdyObjPtr = some o → (s'.pendData d).pendObjPtr = some o
  given : x.err = .none → ∃ d ∈ entriesFrom (t, i) objs.length, ∃ o y,
    (s'.pendData d).rdyObjPtr = some o ∧ wokenBy t h s = some y ∧ HandsOver y t o (s'.pendData d).letter
  kept : s.SameStore s'
  timeout : x.err = .timeout → x.val = 0

/-- How the calls of `OSPendMulti` end in the state `s`: at once, with a wait, and after one. Those that end after a wait
report as they should if and only if the wait did not end by its timeout. -/
structure MultiPendReports (cfg : Cfg) (h : List Step) (s : OS) : Prop where
  now : ∀ t i objs timeout opt x s', s.tcbCurPtr = some t → Enabled s (.call (.pendMulti (some i) objs timeout opt)) →
    Fits cfg (Event.call (.pendMulti (some i) objs timeout opt)).exec s →
    RunsIn .word cfg (Event.call (.pendMulti (some i) objs timeout opt)).exec s (some x) s' → ReportsNow s t i objs x s'
  waits : ∀ i objs timeout opt s', Enabled s (.call (.pendMulti (some i) objs timeout opt)) →
    Fits cfg (Event.call (.pendMulti (some i) objs timeout opt)).exec s →
    RunsIn .word cfg (Event.call (.pendMulti (some i) objs timeout opt)).exec s none s' → s.SameStore s'
  later : ∀ t x s', s.tcbCurPtr = some t → s.cont t = .multiPend → Enabled s .finish →
    RunsIn .word cfg Event.finish.exec s (some x) s' → ∃ y i objs timeout opt, opened t h s = some y ∧
      y.1.event = .call (.pendMulti (some i) objs timeout opt) ∧ y.1.pre.SameStore y.2 ∧
      (ReportsLater h s t i objs x s' ↔ (s.tcb t).pendStatus ≠ .timeout)

end report

section now

theorem OS.rdyRows_succ (d : PdId) (k : ℕ) : s.rdyRows d (k + 1) =
    s.rdyRows (d.1, d.2 + 1) k + if (s.pendData d).rdyObjPtr = none then 0 else 1 := by
  unfold OS.rdyRows
  rw [entriesFrom, List.countP_cons]
  by_cases hn : (s.pendData d).rdyObjPtr = none <;> simp [hn]

theorem pendMultiGetRdy_rows (k : ℕ) (d : PdId) : wp n cfg (pendMultiGetRdy k d) (fun nbr s' =>
    nbr = s'.rdyRows d k ∧ (∀ x, (s'.pendData x).pendObjPtr = (s.pendData x).pendObjPtr) ∧
      (∀ x ∉ entriesFrom d k, s'.pendData x = s.pendData x) ∧
      ∀ x ∈ entriesFrom d k, ∀ o, (s'.pendData x).rdyObjPtr = some o → (s'.pendData x).pendObjPtr = some o) s := by
  induction k generalizing d s with
  | zero => exact wp_pure.mpr ⟨rfl, fun _ => rfl, fun _ _ => rfl, by simp [entriesFrom]⟩
  | succ k ih =>
    rw [pendMultiGetRdy, wp_bind]
    refine (pendMultiGetRdy1_stock d).mono ?_
    rintro b s₁ ⟨o₁, ho₁, hobj, hother, hrdy, -⟩
    rw [wp_bind]
    refine (ih (d.1, d.2 + 1)).mono ?_
    rintro nbr s₂ ⟨hnbr, hobj₂, hother₂, hown₂⟩
    have hd : s₂.pendData d = s₁.pendData d := hother₂ d (not_mem_entriesFrom_succ d k)
    refine wp_pure.mpr ⟨?_, fun x => (hobj₂ x).trans (hobj x), fun x hx => ?_, ?_⟩
    · rw [OS.rdyRows_succ, hd, hrdy, hnbr]
      cases b <;> rfl
    · rw [entriesFrom, List.mem_cons, not_or] at hx
      rw [hother₂ x hx.2, hother x hx.1]
    · rw [entriesFrom]
      intro x hx o ho
      rcases List.mem_cons.mp hx with rfl | hx
      · rw [hd, hrdy] at ho
        cases b with
        | false => cases ho
        | true =>
          cases ho
          rw [hobj₂, hobj, ho₁]
      · exact hown₂ x hx o ho

theorem OS.SameStore.of_goods (hs : s'.goods = s.goods) : s.SameStore s' := by
  refine ⟨fun o => ?_, OS.letters_goods hs⟩
  rw [OS.goods_eq hs o]

theorem osPendMulti_rows (i : ℕ) (objs : List (Option ObjId)) (timeout : Tick) (opt : Opt) (ht : s.tcbCurPtr = some t) :
    wp n cfg (osPendMulti (some i) objs timeout opt) (fun r s' => ∀ x, r = some x →
      (x.err = .none ∨ x.err = .pendWouldBlock ∨ x.err = .schedLocked → x.val = s'.rdyRows (t, i) objs.length ∧
        ∀ d ∈ entriesFrom (t, i) objs.length,
          ∀ o, (s'.pendData d).rdyObjPtr = some o → (s'.pendData d).pendObjPtr = some o) ∧
      (x.err ≠ .none → x.val = 0)) s := by
  have href (x : Ret) (hx : ¬ (x.err = .none ∨ x.err = .pendWouldBlock ∨ x.err = .schedLocked)) (hv : x.val = 0) (s' : OS) :
      ∀ y, some x = some y → (y.err = .none ∨ y.err = .pendWouldBlock ∨ y.err = .schedLocked →
        y.val = s'.rdyRows (t, i) objs.length ∧ ∀ d ∈ entriesFrom (t, i) objs.length,
          ∀ o, (s'.pendData d).rdyObjPtr = some o → (s'.pendData d).pendObjPtr = some o) ∧ (y.err ≠ .none → y.val = 0) := by
    rintro _ ⟨⟩
    exact ⟨fun h => absurd h hx, fun _ => hv⟩
  rw [osPendMulti.eq_def, wp_bind, wp_get]
  refine wp_ite.mpr ⟨fun _ => wp_pure.mpr (href _ (by simp) rfl s), fun _ => ?_⟩
  dsimp only
  rw [wp_bind, wp_getCur]
  intro t' ht'
  obtain rfl : t = t' := Option.some.inj (ht.symm.trans ht')
  rw [wp_bind]
  refine (storeTable_objs objs (t, i)).mono ?_
  rintro _ s₁ -
  refine wp_ite.mpr ⟨fun _ => wp_pure.mpr (href _ (by simp) rfl s₁), fun _ => ?_⟩
  refine wp_ite.mpr ⟨fun _ => wp_pure.mpr (href _ (by simp) rfl s₁), fun _ => ?_⟩
  rw [wp_bind]
  refine (keeps_pendMultiValidate objs.length (t, i) n cfg s₁ (v := fun s => s)).mono ?_
  rintro ok s₂ hs₂
  change s₂ = s₁ at hs₂
  subst hs₂
  refine wp_ite.mpr ⟨fun _ => wp_pure.mpr (href _ (by simp) rfl s₂), fun _ => ?_⟩
  rw [wp_bind]
  refine (pendMultiGetRdy_rows objs.length (t, i)).mono ?_
  rintro nbr s₃ ⟨hnbr, -, -, hown⟩
  refine wp_ite.mpr ⟨fun _ => wp_pure.mpr ?_, fun h0 => ?_⟩
  · rintro _ ⟨⟩
    exact ⟨fun _ => ⟨hnbr, hown⟩, fun hne => absurd rfl hne⟩
  have hzero (x : Ret) (hx : x.val = 0) : ∀ y, some x = some y →
      (y.err = .none ∨ y.err = .pendWouldBlock ∨ y.err = .schedLocked → y.val = s₃.rdyRows (t, i) objs.length ∧
        ∀ d ∈ entriesFrom (t, i) objs.length,
          ∀ o, (s₃.pendData d).rdyObjPtr = some o → (s₃.pendData d).pendObjPtr = some o) ∧ (y.err ≠ .none → y.val = 0) := by
    rintro _ ⟨⟩
    refine ⟨fun _ => ⟨?_, hown⟩, fun _ => hx⟩
    omega
  refine wp_ite.mpr ⟨fun _ => wp_pure.mpr (hzero _ rfl), fun _ => ?_⟩
  refine wp_ite.mpr ⟨fun _ => wp_pure.mpr (hzero _ rfl), fun _ => ?_⟩
  rw [wp_bind]
  refine (keeps_goods_pendMultiWait _ _ _ n cfg s₃).mono fun _ s₄ _ => ?_
  refine (waitThen_file _).mono ?_
  rintro _ s₅ ⟨rfl, -⟩ x hx
  cases hx

variable {N : ℕ}

theorem pendMulti_keeps {i : ℕ} {objs : List (Option ObjId)} {timeout : Tick} {opt : Opt} (hM : s.Mailed N)
    (hx : Runs cfg (Event.call (.pendMulti (some i) objs timeout opt)).exec s r s') (hr : granted r = false) :
    s.SameStore s' := by
  obtain ⟨-, _, -, hm⟩ := hx.wp fun n => osPendMulti_letters hM i objs timeout opt
  obtain ⟨_, -, hd⟩ := hx.wp fun n => osPendMulti_deals i objs timeout opt
  rw [if_neg (by simp [hr])] at hm hd
  refine ⟨fun o => ?_, hm.1⟩
  exact congrArg Stock.ctr (congrFun hd.1 o)

theorem pendMulti_reportsNow {i : ℕ} {objs : List (Option ObjId)} {timeout : Tick} {opt : Opt} {x : Ret} (hM : s.Mailed N)
    (ht : s.tcbCurPtr = some t) (hx : Runs cfg (Event.call (.pendMulti (some i) objs timeout opt)).exec s (some x) s') :
    ReportsNow s t i objs x s' := by
  have hrows := (hx.wp fun n => osPendMulti_rows i objs timeout opt ht) x rfl
  refine ⟨fun he => (hrows.1 he).1, fun he => (hrows.1 he).2, fun he o => ?_, fun he l => ?_, fun he => ⟨hrows.2 he, ?_⟩⟩
  · have hint : s.intNestingCtr = 0 :=
      (hx.wp fun n => osPendMulti_task (some i) objs timeout opt) (by simpa [granted] using he)
    obtain ⟨t', ht', hd⟩ := hx.wp fun n => osPendMulti_deals i objs timeout opt
    obtain rfl : t = t' := Option.some.inj (ht.symm.trans (ht' hint))
    rw [if_pos (by simpa [granted] using he)] at hd
    exact (hd o).2.2
  · have hint : s.intNestingCtr = 0 :=
      (hx.wp fun n => osPendMulti_task (some i) objs timeout opt) (by simpa [granted] using he)
    obtain ⟨-, t', ht', hm⟩ := hx.wp fun n => osPendMulti_letters hM i objs timeout opt
    obtain rfl : t = t' := Option.some.inj (ht.symm.trans (ht' hint))
    rw [if_pos (by simpa [granted] using he)] at hm
    exact hm l
  · exact pendMulti_keeps hM hx (by simpa [granted] using he)

end now

section later

variable {N : ℕ}

theorem osSemPost_refused (o : ObjId) (opt : Opt) :
    wp n cfg (osSemPost (some o) opt) (fun x s' => x.err ≠ .none → s'.file = s.file) s := by
  rw [osSemPost]
  refine wp_ite.mpr ⟨fun _ => wp_pure.mpr fun _ => rfl, fun _ => ?_⟩
  rw [wp_bind, wp_getObj]
  refine wp_ite.mpr ⟨fun _ => wp_pure.mpr fun _ => rfl, fun _ => ?_⟩
  rw [wp_bind, wp_tsGet, semPost, wp_bind, wp_getObj, wp_ite]
  constructor
  · intro _
    refine wp_ite.mpr ⟨fun _ => wp_pure.mpr fun _ => rfl, fun _ => ?_⟩
    rw [wp_bind, wp_modObj]
    exact wp_pure.mpr fun _ => rfl
  · intro _
    rw [wp_bind]
    intro _ s₁ _
    rw [wp_bind, wp_getObj, wp_bind]
    intro _ s₂ _
    exact wp_pure.mpr fun hne => absurd rfl hne

theorem osQPost_refused (o : ObjId) (pVoid : Option ℕ) (msgSize : ℕ) (opt : Opt) :
    wp n cfg (osQPost (some o) pVoid msgSize opt) (fun x s' => x ≠ .none → s'.file = s.file) s := by
  rw [osQPost]
  refine wp_ite.mpr ⟨fun _ => wp_pure.mpr fun _ => rfl, fun _ => ?_⟩
  rw [wp_bind, wp_getObj]
  refine wp_ite.mpr ⟨fun _ => wp_pure.mpr fun _ => rfl, fun _ => ?_⟩
  rw [wp_bind, wp_tsGet, qPost, wp_bind, wp_getObj, wp_ite]
  constructor
  · intro _
    rw [wp_bind]
    refine ((keeps_noMsgs_msgQPut _ pVoid msgSize _ _).comp OS.file n cfg s).mono fun _ s₁ h₁ => ?_
    rw [wp_bind, wp_modObj]
    exact wp_pure.mpr fun _ => h₁
  · intro _
    rw [wp_bind]
    intro _ s₁ _
    rw [wp_bind]
    intro _ s₂ _
    exact wp_pure.mpr fun hne => absurd rfl hne

def Mail.item (m : Mail) : Item := ⟨m.msgPtr, m.msgSize, m.ts⟩

def Row.letter (w : Row) : Item := ⟨w.msgPtr, w.msgSize, w.ts⟩

theorem Ready.handsOver {m : Mail} (H : Ready cfg s a) (hM : s.Mailed N) (hx : Runs cfg e.exec s r s')
    (hm : e.mailTo s = some (o, m)) (ht : t ∈ s.pendTasks o) (hk : (s.file t).pendOn = .multi)
    (hf : s'.file t = (s.file t).posted (some o) m) : HandsOver (⟨s, e, r⟩, s') t o m.item := by
  have hp : (s.file t).state.isPend = true := (H.mem_pendTasks.mp ht).1
  have hend : (s'.file t).state.isPend = false := by
    rw [hf]
    exact File.isPend_posted _ _ _
  have hne : s'.file ≠ s.file := by
    intro hsame
    rw [hsame, hp] at hend
    cases hend
  have hlist : (s.obj o).pendList.nbrEntries ≠ 0 := by
    rw [Ne, H.nbr_eq_zero]
    exact List.ne_nil_of_mem ht
  have hD : e.Deals s r s' := hx.wp fun n => Event.exec_deals e
  unfold Event.mailTo at hm
  split at hm
  · rename_i o' opt
    obtain ⟨rfl, rfl⟩ := Prod.mk.inj (Option.some.inj hm)
    have hg : granted r = true := by
      by_contra hno
      refine hne (hx.wp (Q := fun r s' => granted r ≠ true → s'.file = s.file) (fun n => wp_always.mpr ?_) hno)
      exact (osSemPost_refused o' opt).mono fun x s' h' hx => h' (by simpa [granted] using hx)
    have hletters : s'.letters = s.letters := hx.wp (Q := fun _ s' => s'.letters = s.letters) fun n =>
      (keeps_always (keeps_msgStore_osSemPost (some o') opt) n cfg s).mono fun _ _ hs => OS.letters_of_msgStore hs
    rw [Event.Deals, if_pos hg, if_neg hlist] at hD
    exact ⟨.inl ⟨⟨opt, rfl⟩, rfl, rfl⟩, rfl, hg, ⟨hp, hend⟩, fun x => congrArg Stock.ctr (congrFun hD.2 x), hletters⟩
  · rename_i o' opt
    obtain ⟨rfl, rfl⟩ := Prod.mk.inj (Option.some.inj hm)
    -- a mutex is in no table
    have htype : (s.obj o').type = .mutex := by
      by_contra hno
      exact hne (Event.post_refused hx (e := .call (.mutexPost (some o') opt)) rfl hno)
    have hacc := H.accepts ht
    rw [htype, hk] at hacc
    cases hacc
  · rename_i o' v z opt
    obtain ⟨rfl, rfl⟩ := Prod.mk.inj (Option.some.inj hm)
    have hg : granted r = true := by
      by_contra hno
      refine hne (hx.wp (Q := fun r s' => granted r ≠ true → s'.file = s.file) (fun n => wp_errOnly.mpr ?_) hno)
      exact (osQPost_refused o' v z opt).mono fun x s' h' hx => h' (by simpa [granted] using hx)
    obtain ⟨-, hl⟩ := hx.wp fun n => (Event.call (.qPost (some o') v z opt)).exec_letters hM (by simp [Event.setsUpQ])
    rw [Event.Mails, if_pos hg, if_neg hlist] at hl
    exact ⟨.inr ⟨opt, rfl⟩, rfl, hg, ⟨hp, hend⟩, fun x => congrArg Stock.ctr (congrFun hD x), hl.2⟩
  · cases hm

def MultiStage (h : List Step) (s : OS) (t : TcbId) (i k : ℕ) : Prop :=
  (s.file t).state.isPend = true ∧ (s.file t).pendOn = .multi ∧ (s.file t).table = entriesFrom (t, i) k ∧
      (∀ d ∈ entriesFrom (t, i) k, ((s.file t).row d.2).2.rdyObj = none) ∨
    (s.file t).state.isPend = false ∧ (s.file t).state ≠ .del ∧
      ((s.file t).pendStatus = .ok ∧ (∃ d o y, (s.file t).Marked (entriesFrom (t, i) k) d o ∧ wokenBy t h s = some y ∧
          HandsOver y t o ((s.file t).row d.2).2.letter) ∨
        (s.file t).pendStatus = .abort ∧ (∃ d o, (s.file t).Marked (entriesFrom (t, i) k) d o) ∨
        (s.file t).pendStatus = .timeout ∧ ∀ d ∈ entriesFrom (t, i) k, ((s.file t).row d.2).2.rdyObj = none)

def MultiWaits (h : List Step) (s : OS) : Prop := ∀ t, s.cont t = .multiPend → ∃ y i objs timeout opt,
  opened t h s = some y ∧ y.1.event = .call (.pendMulti (some i) objs timeout opt) ∧ y.1.pre.SameStore y.2 ∧
    MultiStage h s t i objs.length

theorem wokenBy_same (hst : (s.tcb t).taskState.isPend = false ∨ (s'.tcb t).taskState.isPend = true) :
    wokenBy t (⟨s, e, r⟩ :: h) s' = wokenBy t h s := by
  rw [wokenBy, if_neg]
  rcases hst with hst | hst <;> simp [hst]

theorem MultiStage.step {i k : ℕ} (hS : MultiStage h s t i k) (H : Ready cfg s a) (hM : s.Mailed N) (he : Enabled s e)
    (hx : Runs cfg e.exec s r s') (hF : Filed s e r s') (hk : s.cont t = .multiPend) (hk' : s'.cont t = .multiPend) :
    MultiStage (⟨s, e, r⟩ :: h) s' t i k := by
  rcases hS with ⟨hp, hon, htab, hnone⟩ | ⟨hp, hd, hS⟩
  · -- the wait goes on, or it has come to its end
    cases hp' : (s'.file t).state.isPend with
    | true =>
      rcases hF t with hsame | hc
      · rw [MultiStage, hsame]
        exact .inl ⟨hp, hon, htab, hnone⟩
      · obtain ⟨hon', htab', hrow', -⟩ := hc.sameWait (fun hcur => H.not_pend hcur) hp hp'
        refine .inl ⟨hp', hon'.trans hon, htab'.trans htab, ?_⟩
        rw [hrow']
        exact hnone
    | false =>
      have hwoken {st : PendStatus} {f : File} (hf : s'.file t = f.woken st) :
          (s'.file t).state ≠ .del ∧ (s'.file t).pendStatus = st := by
        rw [hf]
        refine ⟨?_, rfl⟩
        change f.state.woken ≠ .del
        unfold TaskState.woken
        split <;> simp
      have hmem {o : ObjId} (ht : t ∈ s.pendTasks o) : ∃ d ∈ (s.file t).table, ((s.file t).row d.2).1 = some o :=
        (H.mem_pendTasks.mp ht).2
      rw [← htab] at hnone
      rcases H.wait_ends he hx hF hp hp' with hf | ⟨o, m, hm, ht, hf⟩ | ⟨o, ho, ht, hf⟩ | ⟨-, hf⟩ | hno | hno | ⟨hno, -⟩
      · have hk₀ : s'.cont t = .none := (congrArg File.cont hf :)
        rw [hk'] at hk₀
        cases hk₀
      · obtain ⟨tbl, row, x, hshape⟩ := (s.file t).posted_shape (some o) m
        obtain ⟨hdel, hst⟩ := hwoken (hf.trans hshape)
        obtain ⟨-, d, hmark, hrow⟩ := File.marked_mark (g := fun _ => ⟨some o, m.msgPtr, m.msgSize, m.ts⟩) (fun _ => rfl)
          hnone (hmem ht)
        have hrow' : (s'.file t).row = _ := (congrArg File.row hf).trans (File.row_posted hon m)
        have hgive := H.handsOver hM hx hm ht hon hf
        refine .inr ⟨hp', hdel, .inl ⟨hst, d, o, (⟨s, e, r⟩, s'), ?_, ?_, ?_⟩⟩
        · rw [← htab]
          exact hmark.congr hrow'
        · rw [wokenBy, if_pos]
          exact hgive.waited
        · rw [hrow', hrow]
          exact hgive
      · obtain ⟨tbl, row, x, hshape⟩ := (s.file t).aborted_shape (some o) s.tsNow
        obtain ⟨hdel, hst⟩ := hwoken (hf.trans hshape)
        obtain ⟨-, d, hmark, -⟩ := File.marked_mark (g := fun x => { x with rdyObj := some o, ts := s.tsNow }) (fun _ => rfl)
          hnone (hmem ht)
        have hrow' : (s'.file t).row = _ := (congrArg File.row hf).trans (File.row_aborted hon s.tsNow)
        refine .inr ⟨hp', hdel, .inr (.inl ⟨hst, d, o, ?_⟩)⟩
        rw [← htab]
        exact hmark.congr hrow'
      · obtain ⟨hdel, hst⟩ := hwoken hf
        refine .inr ⟨hp', hdel, .inr (.inr ⟨hst, ?_⟩)⟩
        rw [hf, ← htab]
        exact hnone
      all_goals
        rw [hon] at hno
        cases hno
  · obtain ⟨hl, hp', hd'⟩ := H.returning he hx hF (by rw [hk]; simp) (hk'.trans hk.symm) hp hd
    have hst : (s'.file t).pendStatus = (s.file t).pendStatus := congrArg Prod.fst hl
    have hrow : (s'.file t).row = (s.file t).row := congrArg (fun x => x.2.2.2) hl
    refine .inr ⟨hp', hd', ?_⟩
    rw [hst, hrow, wokenBy_same (.inl hp)]
    rcases hS with ⟨h1, d, o, y, hm, h2⟩ | ⟨h1, d, o, hm⟩ | h1
    · exact .inl ⟨h1, d, o, y, hm.congr hrow, h2⟩
    · exact .inr (.inl ⟨h1, d, o, hm.congr hrow⟩)
    · exact .inr (.inr h1)

theorem Call.opens {c : Call} (hc : c.pends = true) (he : Enabled s (.call c)) (hx : Runs cfg (Event.call c).exec s r s')
    (hcur : s.tcbCurPtr = some t) (hk : s'.cont t ≠ s.cont t) : s.cont t = .none := by
  rcases he.2 with hat | ⟨-, hi⟩ | ⟨-, hno⟩
  · exact hat.2.2 t hcur
  · have hs : s' = s := hx.wp (Q := fun _ s' => s' = s) fun n => Call.pends_refused hc hi
    rw [hs] at hk
    exact absurd rfl hk
  · cases c <;> cases hno <;> cases hc

theorem Filed.multi_begins (hF : Filed s e r s') (he : Enabled s e) (hx : Runs cfg e.exec s r s')
    (hk : s.cont t ≠ .multiPend) (hk' : s'.cont t = .multiPend) : s.cont t = .none ∧ r = none ∧
      ∃ i objs timeout opt timed, e = .call (.pendMulti (some i) objs timeout opt) ∧
        s'.file t = (s.file t).waitsMulti t i objs timed := by
  have hold {f' : File} (hf : s'.file t = f') (hc : f'.cont = (s.file t).cont) : False := by
    have hcont : s'.cont t = s.cont t := (congrArg File.cont hf).trans hc
    exact hk (hcont.symm.trans hk')
  rcases hF t with hsame | hc
  · exact (hold hsame rfl).elim
  have hnew {f' : File} (hf : s'.file t = f') (hc : f'.cont ≠ .multiPend) : False := by
    have hcont : s'.cont t = f'.cont := congrArg File.cont hf
    exact hc (hcont.symm.trans hk')
  have hturn := hc.turn
  obtain ⟨f', hf⟩ : ∃ f', s'.file t = f' := ⟨_, rfl⟩
  rw [hf] at hturn
  cases hturn with
  | fresh => exact (hold hf rfl).elim
  | erased | flagPosts | finished => exact (hnew hf (by simp [File.erased])).elim
  | suspended =>
    obtain ⟨st, c, hs, -, -⟩ := (s.file t).suspended_shape
    exact (hold (hf.trans hs) rfl).elim
  | resumed =>
    obtain ⟨st, c, hs, -, -⟩ := (s.file t).resumed_shape
    exact (hold (hf.trans hs) rfl).elim
  | signalled =>
    rcases (s.file t).signalled_shape s.tsNow with ⟨-, -, hs⟩ | ⟨-, c, hs⟩
    · obtain ⟨tbl, row, x, hp⟩ :=
        File.posted_shape { s.file t with mail := { (s.file t).mail with ts := s.tsNow } } none ⟨none, 0, s.tsNow⟩
      exact (hold ((hf.trans hs).trans hp) rfl).elim
    · exact (hold (hf.trans hs) rfl).elim
  | @posted o m =>
    obtain ⟨tbl, row, x, hp⟩ := (s.file t).posted_shape o m
    exact (hold (hf.trans hp) rfl).elim
  | @aborted o =>
    obtain ⟨tbl, row, x, hp⟩ := (s.file t).aborted_shape o s.tsNow
    exact (hold (hf.trans hp) rfl).elim
  | expired =>
    rcases (s.file t).expired_shape s.tsNow with ⟨-, hs⟩ | ⟨st, hs, -, -⟩
    · exact (hold (hf.trans hs) rfl).elim
    · exact (hold (hf.trans hs) rfl).elim
  | waits _ _ _ _ hne => exact (hnew hf hne.1).elim
  | @waitsMulti i objs timeout opt he' hcur hr timed =>
    subst he'
    refine ⟨Call.opens rfl he hx hcur ?_, hr, i, objs, timeout, opt, timed, rfl, hf⟩
    rw [hk']
    exact hk.symm
  | semSet | flagged | delayed | semTaken | msgs | rows | flagsRdy => exact (hold hf rfl).elim

theorem MultiWaits.step (hW : MultiWaits h s) (H : Ready cfg s a) (hM : s.Mailed N) (he : Enabled s e)
    (hx : Runs cfg e.exec s r s') (hF : Filed s e r s') : MultiWaits (⟨s, e, r⟩ :: h) s' := by
  intro t hk'
  by_cases hk : s.cont t = .multiPend
  · obtain ⟨y, i, objs, timeout, opt, hopen, hy, hkept, hS⟩ := hW t hk
    refine ⟨y, i, objs, timeout, opt, ?_, hy, hkept, hS.step H hM he hx hF hk hk'⟩
    rw [opened, if_neg, hopen]
    rintro ⟨hnone, -⟩
    rw [hk] at hnone
    cases hnone
  · obtain ⟨hnone, rfl, i, objs, timeout, opt, timed, rfl, hf⟩ := hF.multi_begins he hx hk hk'
    refine ⟨(⟨s, _, none⟩, s'), i, objs, timeout, opt, ?_, rfl, pendMulti_keeps hM hx rfl, .inl ?_⟩
    · rw [opened, if_pos ⟨hnone, by rw [hk']; simp⟩]
    · rw [hf]
      refine ⟨?_, rfl, rfl, fun d hd => ?_⟩
      · cases timed <;> rfl
      · have hd' := mem_entriesFrom.mp hd
        dsimp only at hd'
        have hrow : i ≤ d.2 ∧ d.2 - i < objs.length := by omega
        simp only [File.waitsMulti, dif_pos hrow]

theorem finish_multi (hcur : s.tcbCurPtr = some t) (hk : s.cont t = .multiPend) :
    wp n cfg Event.finish.exec (fun r s' => s'.goods = s.goods ∧ s'.pendData = s.pendData ∧ ∀ x ∈ r, x.val = 1 ∧
      (x.err = .none ↔ (s.tcb t).pendStatus = .ok) ∧ (x.err = .timeout ↔ (s.tcb t).pendStatus = .timeout)) s := by
  rw [Event.exec, UcosIII.finish, wp_bind, wp_getCur, hcur]
  rintro _ ⟨⟩
  rw [wp_bind, wp_get, wp_bind, wp_modify, hk, Cont.run, wp_always, multiPendFinish, wp_bind, wp_getCur]
  intro u hu
  obtain rfl : t = u := Option.some.inj (hcur.symm.trans hu)
  rw [wp_bind, wp_getTcb, wp_bind, wp_modTcb]
  dsimp only
  have hgoods : (OS.modTcb { s with cont := Function.update s.cont t .none } t fun c => { c with pendStatus := .ok }).goods =
      s.goods := OS.goods_modTcb (by intro c; rfl) t
  cases hst : (s.tcb t).pendStatus <;> exact wp_pure.mpr ⟨hgoods, rfl, by simp⟩

theorem MultiWaits.later {x : Ret} (hW : MultiWaits h s) (H : Ready cfg s a) (hcur : s.tcbCurPtr = some t)
    (hk : s.cont t = .multiPend) (hx : Runs cfg Event.finish.exec s (some x) s') : ∃ y i objs timeout opt,
      opened t h s = some y ∧ y.1.event = .call (.pendMulti (some i) objs timeout opt) ∧ y.1.pre.SameStore y.2 ∧
        (ReportsLater h s t i objs x s' ↔ (s.tcb t).pendStatus ≠ .timeout) := by
  obtain ⟨y, i, objs, timeout, opt, hopen, hy, hkept, hS⟩ := hW t hk
  refine ⟨y, i, objs, timeout, opt, hopen, hy, hkept, ?_⟩
  obtain ⟨hgoods, hpd, hx'⟩ := hx.wp fun n => finish_multi hcur hk
  obtain ⟨hval, hok, htime⟩ := hx' x rfl
  have hrows : s'.rdyRows (t, i) objs.length = s.rdyRows (t, i) objs.length := by rw [OS.rdyRows, hpd]; rfl
  have hdone : (s.file t).state.isPend = false := H.not_pend hcur
  rcases hS with ⟨hp, -⟩ | ⟨-, -, hS⟩
  · rw [hdone] at hp
    cases hp
  -- a row that is marked reports the object it names
  have hreport {d : PdId} {o : ObjId} (hm : (s.file t).Marked (entriesFrom (t, i) objs.length) d o)
      (hst : (s.tcb t).pendStatus ≠ .timeout)
      (hgiven : x.err = .none → ∃ y, wokenBy t h s = some y ∧ HandsOver y t o (s.pendData d).letter) :
      ReportsLater h s t i objs x s' := by
    have hd : d.1 = t := (mem_entriesFrom.mp hm.1).1
    have hrow (x : PdId) (hx : x ∈ entriesFrom (t, i) objs.length) : (s.file t).row x.2 =
        ((s.pendData x).pendObjPtr, (s.pendData x).row) := by
      obtain ⟨u, j⟩ := x
      obtain rfl : u = t := (mem_entriesFrom.mp hx).1
      rfl
    refine ⟨?_, fun x hx o' ho' => ?_, fun he => ?_, .of_goods hgoods, fun he => absurd (htime.mp he) hst⟩
    · rw [hrows, hval, OS.rdyRows_marked hm]
    · rw [hpd] at ho' ⊢
      by_cases hxd : x.2 = d.2
      · obtain rfl : x = d := Prod.ext ((mem_entriesFrom.mp hx).1.trans hd.symm) hxd
        have h1 : (s.pendData x).pendObjPtr = some o := by rw [← hm.2.1, hrow x hx]
        have h2 : (s.pendData x).rdyObjPtr = some o := by
          rw [← hm.2.2.1, hrow x hx]
          rfl
        rw [h1, ← h2, ho']
      · have hnone := hm.2.2.2 x hx hxd
        rw [hrow x hx] at hnone
        have hnone' : (s.pendData x).rdyObjPtr = none := hnone
        rw [hnone'] at ho'
        cases ho'
    · obtain ⟨y, hy, hgive⟩ := hgiven he
      refine ⟨d, hm.1, o, y, ?_, hy, ?_⟩
      · rw [hpd, ← hm.2.2.1, hrow d hm.1]
        rfl
      · rw [hpd]
        exact hgive
  rcases hS with ⟨hst, d, o, y, hm, hy, hgive⟩ | ⟨hst, d, o, hm⟩ | ⟨hst, hnone⟩
  · have hst' : (s.tcb t).pendStatus = .ok := hst
    refine iff_of_true (hreport hm (by rw [hst']; simp) fun _ => ⟨y, hy, ?_⟩) (by rw [hst']; simp)
    obtain ⟨u, j⟩ := d
    obtain rfl : u = t := (mem_entriesFrom.mp hm.1).1
    exact hgive
  · have hst' : (s.tcb t).pendStatus = .abort := hst
    refine iff_of_true (hreport hm (by rw [hst']; simp) fun he => ?_) (by rw [hst']; simp)
    have hno := hok.mp he
    rw [hst'] at hno
    cases hno
  · have hst' : (s.tcb t).pendStatus = .timeout := hst
    refine iff_of_false (fun hR => ?_) fun hne => hne hst'
    have := hR.timeout (htime.mpr hst')
    omega

end later

/-- The calls of `OSPendMulti` report what they have got, unless they end by their timeout. -/
theorem run_multiPendReports
    (run : CodeRun cfg (fun _ x => ¬ PassedMatch cfg x.pre x.event ∧ x.event.spills x.pre = false) h s)
    (hfit : NoWrap cfg h) : MultiPendReports cfg h s := by
  replace run : Run cfg _ h s := run.fits hfit .nat
  obtain ⟨⟨a, H⟩, hP, hW⟩ := run.files_init (I := fun h s => s.Posted cfg.msgPoolSize ∧ MultiWaits h s)
    (fun _ _ hP => hP.1) (fun s hx h0 => by
      refine ⟨.init hx, fun t hk => ?_⟩
      have hnone : s.cont t = .none := (h0 t).2.2.2.2.2.2
      rw [hnone] at hk
      cases hk) (by
      intro h s a e r s' a' H hI he hP hx hF _ _
      exact ⟨(hI.1.step he hP.2 hx hF).1, hI.2.step H hI.1.mailed he hx hF⟩)
  exact ⟨fun t i objs timeout opt x s' ht _ hf hx => pendMulti_reportsNow hP.mailed ht (hx.fits hf .nat),
    fun i objs timeout opt s' _ hf hx => pendMulti_keeps hP.mailed (hx.fits hf .nat) rfl,
    fun t x s' hcur hk _ hx => hW.later H hcur hk (hx.fits (countless_finish _ _) .nat)⟩

/-- Task 4 waits on a semaphore and on a queue, which it lists twice; a message is posted to the queue. -/
theorem run_multiPendReports_message : ∃ h s, CodeRun Cfg.repository
    (fun _ x => ¬ PassedMatch Cfg.repository x.pre x.event ∧ x.event.spills x.pre = false) h s ∧
    NoWrap Cfg.repository h ∧ s.tcbCurPtr = some 4 ∧ s.cont 4 = .multiPend ∧ Enabled s .finish ∧
    (s.tcb 4).pendStatus = .ok ∧
    (s.pendData (4, 1)).rdyMsgPtr = some 77 ∧ MultiPendReports Cfg.repository h s := by
  obtain ⟨h, s, run, hfit, hcur, hk, he, hst, hm⟩ := RunIn.of_play .word Cfg.repository
    (fun _ x => ¬ PassedMatch Cfg.repository x.pre x.event ∧ x.event.spills x.pre = false) 60
    (fun _ s => s.tcbCurPtr = some 4 ∧ s.cont 4 = .multiPend ∧ Enabled s .finish ∧ (s.tcb 4).pendStatus = .ok ∧
      (s.pendData (4, 1)).rdyMsgPtr = some 77)
    [.newTask 4 5, .newTask 5 6, .call (.semCreate (some 0) 0), .call (.qCreate (some 1) 3), .start,
      .call (.pendMulti (some 0) [some 0, some 1, some 1] 10 optPendBlocking),
      .call (.qPost (some 1) (some 77) 4 optPostFifo)] (by decide +kernel)
  exact ⟨h, s, run, hfit, hcur, hk, he, hst, hm, run_multiPendReports run hfit⟩

/-- The call of task 4 ends by its timeout. It answers 1, and no row reports an object. -/
theorem pendMulti_timeout_answers_one : ∃ h s s', CodeRun Cfg.repository (fun _ _ => True) h s ∧ s.tcbCurPtr = some 4 ∧
    s.cont 4 = .multiPend ∧ RunsIn .word Cfg.repository Event.finish.exec s (some { err := .timeout, val := 1 }) s' ∧
    s'.rdyRows (4, 0) 2 = 0 := by
  obtain ⟨h, s, run, -, hcur, hk, hx⟩ := RunIn.of_play .word Cfg.repository (fun _ _ => True) 60
    (fun _ s => s.tcbCurPtr = some 4 ∧ s.cont 4 = .multiPend ∧
      ((Event.finish.exec.checked 60 Cfg.repository s).join.any fun y =>
        y.1 = some { err := .timeout, val := 1 } ∧ y.2.rdyRows (4, 0) 2 = 0) = true)
    [.newTask 4 5, .call (.semCreate (some 0) 0), .call (.qCreate (some 1) 3), .start,
      .call (.pendMulti (some 0) [some 0, some 1] 1 optPendBlocking), .tickUpdate, .call (.taskSemPend 0 optPendBlocking)]
    (by decide +kernel)
  obtain ⟨x, s', hx, -, hr⟩ := runsIn_of_any hx .word
  obtain ⟨hx', hrows⟩ := of_decide_eq_true hr
  obtain rfl : x = some { err := .timeout, val := 1 } := hx'
  exact ⟨h, s, s', run, hcur, hk, hx, hrows⟩

end UcosIII
