import UcosIII.Abstract.Step

namespace UcosIII

@[grind =] def TaskState.woken (st : TaskState) : TaskState := if st.isSuspended then suspended else rdy

@[grind =] def Task.woken (st : PendStatus) (c : Task) : Task :=
  if c.state.isPend then { c with state := c.state.woken, pendStatus := st, pendOn := .nothing, table := [] } else c

@[grind =] def TaskState.expired : TaskState → TaskState
  | dly | pendTimeout => rdy
  | dlySuspended | pendTimeoutSuspended => suspended
  | x => x

@[grind =] def Task.expired (c : Task) : Task :=
  match c.state with
  | .dly | .dlySuspended => { c with state := c.state.expired }
  | .pendTimeout | .pendTimeoutSuspended => c.woken .timeout
  | .rdy | .pend | .suspended | .pendSuspended | .del => c

namespace Abs

variable {cfg : Cfg} {E : Env} {a b a' : Abs} {t x c : TcbId}

section tasks

@[grind =] theorem task_enqueue (a : Abs) (t x : TcbId) : (a.enqueue t).task x = a.task x := rfl

@[grind =] theorem task_dequeue (a : Abs) (t x : TcbId) : (a.dequeue t).task x = a.task x := rfl

@[grind =] theorem task_offWheel (a : Abs) (t x : TcbId) : (a.offWheel t).task x = a.task x := rfl

@[grind =] theorem task_toWheel (a : Abs) (t x : TcbId) : (a.toWheel t).task x = a.task x := rfl

theorem task_wake (a : Abs) (t x : TcbId) (st : PendStatus) :
    (a.wake t st).task x = if x = t then (a.task t).woken st else a.task x := by
  rw [wake]
  grind

theorem task_flagWake (a : Abs) (t x : TcbId) :
    (a.flagWake t).task x = if x = t then (a.task t).woken .ok else a.task x := by
  rw [flagWake]
  split
  · grind
  · exact task_wake a t x .ok

theorem task_expire (a : Abs) (t x : TcbId) :
    (a.expire t).task x = if x = t then (a.task t).expired else a.task x := by
  have hwake := task_wake a t x .timeout
  rw [expire]
  cases hs : (a.task t).state <;> grind

theorem task_suspend (a : Abs) (t x : TcbId) :
    (a.suspend t).task x = if x = t ∧ (a.task t).state ≠ .del then (a.task t).suspend else a.task x := by
  rw [suspend]
  grind

theorem task_resume (a : Abs) (t x : TcbId) : (a.resume t).task x =
    if x = t ∧ (a.task t).state.isSuspended = true ∧ (a.task t).state ≠ .del then (a.task t).resume else a.task x := by
  rw [resume]
  cases hs : (a.task t).state <;> grind

theorem task_pendOn (a : Abs) (t x : TcbId) (o : Option ObjId) (kind : PendOn) (timed : Bool) :
    (a.pendOn t o kind timed).task x =
      if x = t then
        { a.task t with
          pendOn := kind, pendStatus := .ok, state := if timed then .pendTimeout else .pend,
          table := if o = none then [] else [(t, 0)] }
      else a.task x := by
  cases o with
  | none => exact task_block kind timed [] x
  | some o => rw [pendOn, attach_task]; exact task_block kind timed [(t, 0)] x

theorem task_delay (a : Abs) (t x : TcbId) :
    (a.delay t).task x = if x = t then { a.task t with state := .dly } else a.task x := by
  grind [delay]

theorem task_move (a : Abs) (t x : TcbId) (p : ℕ) (atHead : Bool) :
    (a.move t p atHead).task x = if x = t then { a.task t with prio := p } else a.task x := by
  cases atHead <;> exact task_modTask (a.dequeue t) t x fun c => { c with prio := p }

theorem task_repend (a : Abs) (t x : TcbId) (p : ℕ) :
    (a.repend t p).task x = if x = t then { a.task t with prio := p } else a.task x :=
  task_modTask a t x fun c => { c with prio := p }

theorem task_boost (a : Abs) (t x : TcbId) (p : ℕ) :
    (a.boost t p).task x = if x = t ∧ (a.task t).state ≠ .del then { a.task t with prio := p } else a.task x := by
  rw [boost]
  cases hs : (a.task t).state <;> grind [task_move, task_repend]

theorem obj_boost (a : Abs) (t : TcbId) (p : ℕ) : (a.boost t p).obj = a.obj := by
  rw [boost]
  cases (a.task t).state <;> rfl

theorem task_reprio (hw : a.WaitOk) (t x : TcbId) (p : ℕ) (self : Bool) :
    (a.reprio t p self).task x = if x = t ∧ (a.task t).state ≠ .del then { a.task t with prio := p } else a.task x := by
  have hp := hw.pendOn_iff t
  rw [reprio]
  cases hs : (a.task t).state <;> cases hk : (a.task t).pendOn <;> grind [task_move, task_repend]

theorem task_restore (a : Abs) (t x : TcbId) (p : ℕ) :
    (a.restore t p).task x = if x = t then { a.task t with prio := p } else a.task x := by
  rw [restore]
  split
  · rename_i hp
    subst hp
    by_cases hx : x = t <;> simp [hx]
  · exact task_move a t x p false

theorem task_start (a : Abs) (t x : TcbId) (p : ℕ) :
    (a.start t p).task x = if x = t then Task.fresh p else a.task x :=
  task_modTask a t x fun _ => Task.fresh p

theorem task_erase (a : Abs) (t x : TcbId) (p : ℕ) :
    (a.erase t p).task x = if x = t then { Task.fresh p with state := .del } else a.task x := by
  have hx : (a.erase t p).task x = if x = t then { Task.fresh p with state := .del } else (a.unlink t).task x :=
    task_modTask (a.unlink t) t x fun _ => { Task.fresh p with state := .del }
  rw [hx, unlink]
  cases hs : (a.task t).state <;> grind

theorem task_handOff (a : Abs) (o : ObjId) (w x : TcbId) :
    (a.handOff o w).task x = if x = w then (a.task w).woken .ok else a.task x := task_wake _ w x .ok

end tasks

section sound

variable {S : Act → Prop}

theorem Sound.act {x : Act} (h : a.Sound cfg) (hnd : ∀ p, (a.ready p).Nodup) (hv : x.Valid E a) :
    (x.apply a).Sound cfg := by
  cases x with
  | wake t st => exact h.wake t st
  | flagWake t => exact h.flagWake t
  | expire t => exact h.expire t
  | rotate p => exact h.rotate p
  | suspend t => exact h.suspend hnd t
  | resume t => exact h.resume t
  | pendOn t o kind timed =>
    obtain ⟨⟨-, hs, -⟩, hk, -, -, ho, hacc, hmode⟩ := hv
    exact h.pendOn hnd hs hk ho hacc hmode
  | pendMulti t timed ds =>
    obtain ⟨⟨-, hs, -⟩, hne, hown, hobj⟩ := hv
    refine h.blockAll hnd hs (by simp) ?_ hown hobj (by simp) (by simp)
    simp [hne, PendOn.onObject]
  | delay t => exact h.delay hnd hv.2.1
  | flagsOpt t opt =>
    have hk : (a.task t).pendOn ≠ .flag := hv
    have hdel := h.del_prio
    obtain ⟨hr, ⟨h1, h2, h3, h4, h5, h6, h7⟩, -⟩ := h
    change (a.modTask t fun c => { c with flagsOpt := opt }).Sound cfg
    refine ⟨hr.modTask Iff.rfl rfl, ⟨?_, ?_, ?_, ?_, ?_, ?_, ?_⟩, ?_⟩
    all_goals grind
  | pendStatus t st =>
    have hdel := h.del_prio
    change (a.modTask t fun c => { c with pendStatus := st }).Sound cfg
    refine ⟨h.ready.modTask Iff.rfl rfl, h.wait.modTask rfl rfl rfl rfl, ?_⟩
    grind
  | store d e =>
    change (a.modEntry d fun _ => e).Sound cfg
    refine h.modEntry ?_
    rw [h.wait.table_nil hv]
    exact List.not_mem_nil

theorem Sound.acts (h : a.Sound cfg) (hacts : a.Acts E S b) : b.Sound cfg := by
  induction hacts with
  | refl => exact h
  | snoc _ _ hv hnd ih => exact ih.act hnd hv

end sound

section running

variable {S : Act → Prop}

def who (a : Abs) : Option TcbId × ℕ × ℕ × Bool := (a.cur, a.intNesting, a.lockNesting, a.running)

theorem who_of_frame (h : b.frame = a.frame) : b.who = a.who := (congrArg who h :)

theorem who_erase (a : Abs) (t : TcbId) (p : ℕ) : (a.erase t p).who = a.who := by
  have h : (a.erase t p).who = (a.unlink t).who := rfl
  rw [h, unlink]
  cases (a.task t).state <;> rfl

theorem who_move (a : Abs) (t : TcbId) (p : ℕ) (atHead : Bool) : (a.move t p atHead).who = a.who := by
  cases atHead <;> rfl

theorem who_reprio (a : Abs) (t : TcbId) (p : ℕ) (self : Bool) : (a.reprio t p self).who = a.who := by
  rw [reprio]
  cases (a.task t).state <;> cases (a.task t).pendOn <;> first | exact who_move a t p self | rfl

theorem who_boost (a : Abs) (t : TcbId) (p : ℕ) : (a.boost t p).who = a.who := by
  rw [boost]
  cases (a.task t).state <;> rfl

theorem who_restore (a : Abs) (t : TcbId) (p : ℕ) : (a.restore t p).who = a.who := by
  rw [restore]
  split
  · rfl
  · exact who_move a t p false

theorem who_handOff (a : Abs) (o : ObjId) (w : TcbId) : (a.handOff o w).who = a.who :=
  who_of_frame (a := a.modObj o _) (frame_wake w .ok)

theorem cont_setCont (a : Abs) (t t' : TcbId) (k : Cont) :
    (a.setCont t k).cont t' = if t' = t then k else a.cont t' := Function.update_apply ..

theorem cont_unlink (a : Abs) (t : TcbId) : (a.unlink t).cont = a.cont := by
  rw [unlink]
  cases (a.task t).state <;> rfl

theorem cont_move (a : Abs) (t : TcbId) (p : ℕ) (atHead : Bool) : (a.move t p atHead).cont = a.cont := by
  cases atHead <;> rfl

theorem cont_reprio (a : Abs) (t : TcbId) (p : ℕ) (self : Bool) : (a.reprio t p self).cont = a.cont := by
  rw [reprio]
  cases (a.task t).state <;> cases (a.task t).pendOn <;> first | rfl | rw [cont_move]

theorem cont_boost (a : Abs) (t : TcbId) (p : ℕ) : (a.boost t p).cont = a.cont := by
  rw [boost]
  cases (a.task t).state <;> rfl

theorem cont_restore (a : Abs) (t : TcbId) (p : ℕ) : (a.restore t p).cont = a.cont := by
  rw [restore]
  split
  · rfl
  · exact a.cont_move t p false

theorem cont_wake (a : Abs) (t : TcbId) (st : PendStatus) : (a.wake t st).cont = a.cont :=
  (congrArg (fun y : Abs => y.cont) (a.frame_wake t st) :)

theorem cont_pendOn (a : Abs) (t : TcbId) (o : Option ObjId) (kind : PendOn) (timed : Bool) :
    (a.pendOn t o kind timed).cont = a.cont := (congrArg (fun y : Abs => y.cont) (a.frame_pendOn t o kind timed) :)

structure CurOk (a : Abs) : Prop where
  runs : a.running = true →
    ∃ c, a.cur = some c ∧ ((a.task c).state = .rdy ∨ (a.task c).state = .del ∧ 0 < a.lockNesting)
  stopped : a.running = false → a.intNesting = 0 ∧ a.lockNesting = 0 ∧ a.cur = none

theorem act_state_cur {x : Act} (hv : x.Valid E a) (hc : a.cur = some c)
    (hs : (a.task c).state = .rdy ∨ (a.task c).state = .del)
    (hx : x.Wakes ∨ x.Still ∨ 0 < a.intNesting ∨ 0 < a.lockNesting) :
    ((x.apply a).task c).state = (a.task c).state := by
  cases x with
  | wake t st => grind [Act.apply, task_wake]
  | flagWake t => grind [Act.apply, task_flagWake]
  | expire t => grind [Act.apply, task_expire]
  | rotate p => rfl
  | suspend t =>
    obtain ⟨hi, hl, -⟩ := hv
    grind [Act.apply, task_suspend, Act.Wakes, Act.Still]
  | resume t => grind [Act.apply, task_resume]
  | pendOn t o kind timed =>
    obtain ⟨⟨-, -, hi, hl, -⟩, -⟩ := hv
    grind [Act.Wakes, Act.Still]
  | pendMulti t timed ds =>
    obtain ⟨⟨-, -, hi, hl, -⟩, -⟩ := hv
    grind [Act.Wakes, Act.Still]
  | delay t =>
    obtain ⟨-, -, hi, hl, -⟩ := hv
    grind [Act.Wakes, Act.Still]
  | flagsOpt t opt => grind [Act.apply]
  | pendStatus t st => grind [Act.apply]
  | store d e => rfl

theorem Acts.cur (h : a.Acts E S b) : b.cur = a.cur := (congrArg (fun y : Abs => y.cur) h.frame :)

theorem Acts.obj (h : a.Acts E S b) : b.obj = a.obj := (congrArg (fun y : Abs => y.obj) h.frame :)

theorem Acts.intNesting (h : a.Acts E S b) : b.intNesting = a.intNesting := (congrArg (fun y : Abs => y.intNesting) h.frame :)

theorem Acts.lockNesting (h : a.Acts E S b) : b.lockNesting = a.lockNesting :=
  (congrArg (fun y : Abs => y.lockNesting) h.frame :)

theorem Acts.running (h : a.Acts E S b) : b.running = a.running := (congrArg (fun y : Abs => y.running) h.frame :)

theorem Acts.cont (h : a.Acts E S b) : b.cont = a.cont := (congrArg (fun y : Abs => y.cont) h.frame :)

theorem Acts.prio (h : a.Acts E S b) (x : TcbId) : (b.task x).prio = (a.task x).prio :=
  (congrArg (fun y : Abs => (y.task x).prio) h.frame :)

theorem Acts.state_cur (h : a.Acts E S b) (hc : a.cur = some c)
    (hs : (a.task c).state = .rdy ∨ (a.task c).state = .del)
    (hS : (∀ x, S x → x.Wakes ∨ x.Still) ∨ 0 < a.intNesting ∨ 0 < a.lockNesting) :
    (b.task c).state = (a.task c).state := by
  induction h with
  | refl => rfl
  | @snoc b x h hx hv hnd ih =>
    rw [act_state_cur hv (h.cur.trans hc) (ih ▸ hs), ih]
    rcases hS with hS | hS
    · exact (hS x hx).elim .inl fun h' => .inr (.inl h')
    · rw [h.intNesting, h.lockNesting]
      exact .inr (.inr hS)

theorem CurOk.sched (hC : a.CurOk) (hI : b.Sound cfg) (hrun : a.running = true) (hwho : b.who = a.who)
    (hst : 0 < a.intNesting ∨ 0 < a.lockNesting → ∀ c, a.cur = some c →
      (a.task c).state = .rdy ∨ (a.task c).state = .del → (b.task c).state = (a.task c).state ∨
        (b.task c).state = .rdy ∨ (b.task c).state = .del ∧ 0 < a.lockNesting)
    (hs : b.Sched a') : a'.CurOk := by
  obtain ⟨hcur, hint, hlock, hr⟩ : b.cur = a.cur ∧ b.intNesting = a.intNesting ∧ b.lockNesting = a.lockNesting ∧
    b.running = a.running := by simpa [who] using hwho
  have hheld : 0 < a.intNesting ∨ 0 < a.lockNesting → b.CurOk := by
    intro h
    refine ⟨fun _ => ?_, by simp [hr, hrun]⟩
    obtain ⟨c, hc, hsc⟩ := hC.runs hrun
    refine ⟨c, hcur.trans hc, ?_⟩
    rw [hlock]
    rcases hst h c hc (hsc.imp id And.left) with h' | h'
    · rw [h']
      exact hsc
    · exact h'
  obtain ⟨hi, rfl⟩ | ⟨hl, rfl⟩ | ⟨-, -, p, t, hb, rfl⟩ := hs
  · exact hheld (.inl (hint ▸ hi))
  · exact hheld (.inr (hlock ▸ hl))
  · refine ⟨fun _ => ⟨t, rfl, .inl ?_⟩, by simp [switch, hr, hrun]⟩
    exact ((hI.ready t p).mp (List.mem_of_mem_head? hb.1)).1

theorem CurOk.of_state (h : a.CurOk) (hwho : b.who = a.who)
    (hst : ∀ c, a.cur = some c → (a.task c).state = .rdy ∨ (a.task c).state = .del →
      (b.task c).state = (a.task c).state) : b.CurOk := by
  obtain ⟨hcur, hint, hlock, hrun⟩ : b.cur = a.cur ∧ b.intNesting = a.intNesting ∧ b.lockNesting = a.lockNesting ∧
    b.running = a.running := by simpa [who] using hwho
  refine ⟨fun hr => ?_, fun hr => ?_⟩
  · obtain ⟨c, hc, hs⟩ := h.runs (hrun ▸ hr)
    refine ⟨c, hcur.trans hc, ?_⟩
    rw [hst c hc (hs.imp id And.left), hlock]
    exact hs
  · rw [hint, hlock, hcur]
    exact h.stopped (hrun ▸ hr)

theorem CurOk.acts (h : a.CurOk) (hacts : a.Acts E S b)
    (hS : (∀ x, S x → x.Wakes ∨ x.Still) ∨ 0 < a.intNesting ∨ 0 < a.lockNesting) : b.CurOk :=
  h.of_state (who_of_frame hacts.frame) fun _ hc hs => hacts.state_cur hc hs hS

theorem CurOk.setCont (h : a.CurOk) (t : TcbId) (k : Cont) : (a.setCont t k).CurOk :=
  h.of_state rfl fun _ _ _ => rfl

theorem CurOk.modObj (h : a.CurOk) (o : ObjId) (f : Sync → Sync) : (a.modObj o f).CurOk :=
  h.of_state rfl fun _ _ _ => rfl

end running

end Abs

namespace AStep

variable {cfg : Cfg} {s : OS} {a a' : Abs} {e : Event} {r : Option Ret}

theorem sound_waiting {o : ObjId} {t w : TcbId} {b : Abs} {timed : Bool} (hI : a.Sound cfg)
    (hnd : ∀ p, (a.ready p).Nodup) (hs : (a.task t).state = .rdy) (hm : (a.obj o).type = .mutex) (hne : w ≠ t)
    (hb : if (a.task t).prio < (a.task w).prio then (a.task w).state ≠ .del ∧ b = a.boost w (a.task t).prio else b = a)
    (hnd' : ∀ p, (b.ready p).Nodup) : (b.pendOn t (some o) .mutex timed).Sound cfg := by
  have hready : (b.task t).state = .rdy ∧ b.obj = a.obj ∧ b.Sound cfg := by
    split at hb
    · rw [hb.2]
      exact ⟨by simp [Abs.task_boost, hne.symm, hs], Abs.obj_boost _ _ _, hI.boost hnd w _⟩
    · rw [hb]
      exact ⟨hs, rfl, hI⟩
  obtain ⟨hs', hobj, hI'⟩ := hready
  refine hI'.pendOn hnd' hs' (by simp) (by simp [PendOn.onObject]) ?_ (by simp)
  intro x hx
  rw [← Option.mem_some.mp hx, hobj, hm]
  rfl

theorem sound (hstep : AStep cfg s a e r a') (hI : a.Sound cfg) (hnd : ∀ p, (a.ready p).Nodup)
    (hp : ¬ PassedMatch cfg s e) : a'.Sound cfg := by
  cases hstep with
  | still _ h => exact hI.acts h
  | acts _ h => exact hI.acts h
  | sched _ _ h hs => exact (hI.acts h).sched hs
  | leave _ _ _ _ h hs => exact ((hI.acts h).setCont _ _).sched hs
  | finish _ _ h => exact (hI.setCont _ _).acts h
  | mutexReturn => exact hI.setCont _ _
  | create _ hd _ _ hs =>
    split at hs
    · exact (hI.start hd _).sched hs
    · exact hs ▸ hI.start hd _
  | delete _ _ _ _ _ hs => exact (hI.erase hnd _).sched hs
  | changePrio _ _ _ _ _ hs => exact (hI.reprio hnd _ _ _).sched hs
  | refuse _ _ _ h => exact absurd h hp
  | object _ hw => exact hI.create hw
  | take | nest | unnest | release => exact hI.modObj rfl
  | wait hstop hm _ _ hne hb hnd' hs =>
    exact ((sound_waiting hI hnd hstop.2.1 hm hne hb hnd').setCont _ _).sched hs
  | handOff _ _ _ _ _ _ hrdy hs =>
    have h' := (hI.restore hnd hrdy).handOff
    split at hs
    · exact (h' _ _).sched hs
    · exact hs ▸ h' _ _
  | lock | intEnter | start => exact hI.congr rfl rfl rfl rfl rfl
  | unlock _ _ _ hs =>
    have h' : Abs.Sound cfg { a with lockNesting := a.lockNesting - 1 } := hI.congr rfl rfl rfl rfl rfl
    exact h'.sched hs
  | intExit _ hs =>
    have h' : Abs.Sound cfg { a with intNesting := a.intNesting - 1 } := hI.congr rfl rfl rfl rfl rfl
    exact h'.sched hs

theorem running_of_cur {c : TcbId} (hC : a.CurOk) (hc : a.cur = some c) : a.running = true := by
  by_contra hr
  simp [(hC.stopped (by simpa using hr)).2.2] at hc

theorem curOk (hstep : AStep cfg s a e r a') (hI : a.Sound cfg) (hC : a.CurOk) (hnd : ∀ p, (a.ready p).Nodup)
    (hp : ¬ PassedMatch cfg s e) : a'.CurOk := by
  cases hstep with
  | still _ h => exact hC.acts h (.inl fun _ => .inr)
  | acts _ h => exact hC.acts h (.inl fun _ => .inl)
  | sched _ hrun h hs =>
    exact hC.sched (hI.acts h) hrun (Abs.who_of_frame h.frame)
      (fun hheld c hc hsc => .inl (h.state_cur hc hsc (.inr hheld))) hs
  | leave _ hcur _ _ h hs =>
    have hwho := Abs.who_of_frame h.frame
    exact hC.sched ((hI.acts h).setCont _ _) (running_of_cur hC hcur) hwho
      (fun hheld c hc hsc => .inl (h.state_cur hc hsc (.inr hheld))) hs
  | finish _ _ h => exact (hC.setCont _ _).acts h (.inl fun _ => .inr)
  | mutexReturn => exact hC.setCont _ _
  | create _ hd _ _ hs =>
    split at hs
    · refine hC.sched (hI.start hd _) ‹_› rfl (fun _ c hc _ => ?_) hs
      grind [Abs.task_start]
    · subst hs
      refine ⟨fun hr => absurd hr ‹_›, fun hr => hC.stopped hr⟩
  | delete hrun _ _ hint _ hs =>
    refine hC.sched (hI.erase hnd _) hrun (Abs.who_erase _ _ _) (fun hheld c hc hsc => ?_) hs
    grind [Abs.task_erase]
  | changePrio hrun _ _ _ _ hs =>
    refine hC.sched (hI.reprio hnd _ _ _) hrun (Abs.who_reprio _ _ _ _) (fun _ c hc _ => .inl ?_) hs
    rw [Abs.task_reprio hI.wait]
    grind
  | refuse _ _ _ h => exact absurd h hp
  | object | take | nest | unnest | release => exact hC.modObj _ _
  | wait hstop hm _ _ hne hb hnd' hs =>
    obtain ⟨hcur, hrdy, hint, hlock, -⟩ := hstop
    refine hC.sched ((sound_waiting hI hnd hrdy hm hne hb hnd').setCont _ _) (running_of_cur hC hcur)
      ((Abs.who_of_frame (Abs.frame_pendOn _ _ _ _)).trans ?_) (fun hheld => by omega) hs
    split at hb
    · rw [hb.2, Abs.who_boost]
    · rw [hb]
  | @handOff o t d opt a' hcur _ _ _ _ _ hrdy hs =>
    have hwho : ((a.restore t (a.obj o).ownerPrio).handOff o d.1).who = a.who :=
      (Abs.who_handOff _ _ _).trans (Abs.who_restore _ _ _)
    have hst : ∀ c, (a.task c).state = .rdy ∨ (a.task c).state = .del →
        (((a.restore t (a.obj o).ownerPrio).handOff o d.1).task c).state = (a.task c).state := by
      intro c hc
      rw [Abs.task_handOff, Abs.task_restore, Abs.task_restore]
      grind
    split at hs
    · exact hC.sched ((hI.restore hnd hrdy).handOff _ _) (running_of_cur hC hcur) hwho
        (fun _ c _ hsc => .inl (hst c hsc)) hs
    · subst hs
      exact hC.of_state hwho fun c _ hsc => hst c hsc
  | lock hrun hint _ =>
    refine ⟨fun _ => ?_, by simp [hrun]⟩
    obtain ⟨c, hc, hsc⟩ := hC.runs hrun
    exact ⟨c, hc, hsc.imp id fun h' => ⟨h'.1, Nat.succ_pos _⟩⟩
  | intEnter hrun =>
    refine ⟨fun _ => hC.runs hrun, by simp [hrun]⟩
  | start hrun hb =>
    refine ⟨fun _ => ⟨_, rfl, .inl ?_⟩, by simp⟩
    exact ((hI.ready _ _).mp (List.mem_of_mem_head? hb.1)).1
  | unlock hint hlock _ hs =>
    have hrun : a.running = true := by
      by_contra hr
      have := (hC.stopped (by simpa using hr)).2.1
      omega
    have hI' : Abs.Sound cfg { a with lockNesting := a.lockNesting - 1 } := hI.congr rfl rfl rfl rfl rfl
    obtain ⟨hi, rfl⟩ | ⟨hl, rfl⟩ | ⟨-, -, p, t, hb, rfl⟩ := hs
    · exact absurd hi (by simp [hint])
    · refine ⟨fun _ => ?_, by simp [hrun]⟩
      obtain ⟨c, hc, hsc⟩ := hC.runs hrun
      exact ⟨c, hc, hsc.imp id fun h' => ⟨h'.1, hl⟩⟩
    · refine ⟨fun _ => ⟨t, rfl, .inl ?_⟩, by simp [Abs.switch, hrun]⟩
      exact ((hI'.ready t p).mp (List.mem_of_mem_head? hb.1)).1
  | intExit hint hs =>
    have hrun : a.running = true := by
      by_contra hr
      have := (hC.stopped (by simpa using hr)).1
      omega
    have hI' : Abs.Sound cfg { a with intNesting := a.intNesting - 1 } := hI.congr rfl rfl rfl rfl rfl
    have hC' : Abs.CurOk { a with intNesting := a.intNesting - 1 } := ⟨fun _ => hC.runs hrun, by simp [hrun]⟩
    exact hC'.sched hI' hrun rfl (fun _ _ _ _ => .inl rfl) hs

end AStep

end UcosIII
