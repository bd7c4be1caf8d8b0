import UcosIII.Abstract.Sched
import UcosIII.Kernel.System

namespace UcosIII

section conditions

def postedFlags (opt : Opt) (grpFlags flags : Flags) : Flags :=
  if opt = optPostFlagSet ∨ opt = optPostFlagSet ||| optPostNoSched then grpFlags ||| flags else grpFlags &&& ~~~ flags

/-- The event is a delay until a tick that `OS_TickListInsert` takes for one already passed. -/
def PassedMatch (cfg : Cfg) (s : OS) : Event → Prop
  | .call (.timeDly dly opt) =>
    s.intNestingCtr = 0 ∧ s.schedLockNestingCtr = 0 ∧ opt = optTimeMatch ∧ dly - s.tickCtr - 1 > tickThRdy
  | .call (.timeDlyHMSM a opt) =>
    s.intNestingCtr = 0 ∧ s.schedLockNestingCtr = 0 ∧ hmsmCheck a opt = none ∧ opt &&& optTimeMask = optTimeMatch ∧
      hmsmTicks (BitVec.ofNat 32 cfg.tickRateHz) a > 0 ∧
      hmsmTicks (BitVec.ofNat 32 cfg.tickRateHz) a - s.tickCtr - 1 > tickThRdy
  | _ => False

instance (cfg : Cfg) (s : OS) (e : Event) : Decidable (PassedMatch cfg s e) := by
  unfold PassedMatch
  split <;> infer_instance

/-- The event is a flag post that ends the timed wait of a suspended task. -/
def FlagHit (s : OS) : Event → Prop
  | .call (.flagPost (some o) flags opt) => flagPostOptValid opt = true ∧ ∃ t flagsRdy,
    (s.tcb t).taskState = .pendTimeoutSuspended ∧ (s.tcb t).pendOn = .flag ∧ (s.pendData (t, 0)).pendObjPtr = some o ∧
    flagsReady ((s.tcb t).flagsOpt &&& optPendFlagMask) (postedFlags opt (s.obj o).flags flags) (s.tcb t).flagsPend =
      some (flagsRdy, true)
  | _ => False

def Call.stops : Call → Option Ret → Prop
  | taskSemPend .., r | taskQPend .., r | semPend .., r | qPend .., r | mutexPend .., r | flagPend .., r
  | pendMulti .., r => r = none
  | taskDel none, r | taskSuspend none, r | timeDly .., r | timeDlyHMSM .., r => ∃ x ∈ r, x.err = .none
  | _, _ => False

instance : (c : Call) → (r : Option Ret) → Decidable (c.stops r)
  | .taskSemPend .., r | .taskQPend .., r | .semPend .., r | .qPend .., r | .mutexPend .., r | .flagPend .., r
  | .pendMulti .., r => inferInstanceAs (Decidable (r = none))
  | .taskDel none, r | .taskSuspend none, r | .timeDly .., r | .timeDlyHMSM .., r =>
    inferInstanceAs (Decidable (∃ x ∈ r, x.err = .none))
  | .taskDel (some _), _ | .taskSuspend (some _), _ | .taskCreate _, _ | .taskResume _, _ | .taskChangePrio .., _
  | .taskTimeQuantaSet .., _ | .taskSemPendAbort .., _ | .taskSemPost .., _ | .taskSemSet .., _ | .taskQPendAbort .., _
  | .taskQPost .., _ | .taskQFlush _, _ | .semCreate .., _ | .semPendAbort .., _ | .semPost .., _ | .semSet .., _
  | .qCreate .., _ | .qPendAbort .., _ | .qPost .., _ | .mutexCreate _, _ | .mutexPost .., _ | .flagCreate .., _
  | .flagPendGetFlagsRdy, _ | .flagPost .., _ | .timeGet, _ | .timeSet _, _ | .schedLock, _ | .schedUnlock, _
  | .schedRoundRobinCfg .., _ | .schedRoundRobinYield, _ => inferInstanceAs (Decidable False)

/-- The event is a call by which the idle task stops. -/
def IdleStops (s : OS) (e : Event) (r : Option Ret) : Prop :=
  s.tcbCurPtr = some idleTaskTCB ∧ ∃ c, e = .call c ∧ c.stops r

instance (s : OS) (r : Option Ret) : (e : Event) → Decidable (IdleStops s e r)
  | .call c => decidable_of_iff (s.tcbCurPtr = some idleTaskTCB ∧ c.stops r) (by simp [IdleStops])
  | .finish | .start | .intEnter | .intExit | .timeTick | .tickUpdate | .clock _ => .isFalse (by simp [IdleStops])

/-- The call is made with `OS_OPT_POST_NO_SCHED`. -/
def Call.noSched : Call → Bool
  | taskSemPendAbort _ opt | taskSemPost _ opt | taskQPendAbort _ opt | taskQPost _ _ _ opt | semPendAbort _ opt
  | semPost _ opt | qPendAbort _ opt | qPost _ _ _ opt | mutexPost _ opt | flagPost _ _ opt =>
    opt &&& optPostNoSched ≠ 0
  | _ => false

def Event.noSched : Event → Bool
  | call c => c.noSched
  | _ => false

/-- The answers that count in the history of a run: a task was created or given a priority, it took or
gave back a mutex, or it locked or unlocked the scheduler. -/
def Counts : Event → Option Ret → Prop
  | .call (.taskCreate _), some r | .call (.taskChangePrio ..), some r => r.err = .none
  | .call (.mutexPend ..), some r => r.err = .none ∨ r.err = .mutexOwner
  | .call (.mutexPost ..), some r => r.err = .none ∨ r.err = .mutexNesting
  | .call .schedLock, some r => r.err = .none
  | .call .schedUnlock, some r => r.err = .none ∨ r.err = .schedLocked
  | .finish, _ => True
  | _, _ => False

end conditions

/-- What the circumstances of an event allow: to leave a timer running, to stop the idle task, and to stop the
running task at all, which only calls do. -/
structure Env where
  flagHit : Prop
  idleStops : Prop
  isCall : Prop

def env (s : OS) (e : Event) (r : Option Ret) : Env := ⟨FlagHit s e, IdleStops s e r, ∃ c, e = .call c⟩

inductive Act where
  | wake (t : TcbId) (st : PendStatus)
  | flagWake (t : TcbId)
  | expire (t : TcbId)
  | rotate (p : ℕ)
  | suspend (t : TcbId)
  | resume (t : TcbId)
  | pendOn (t : TcbId) (o : Option ObjId) (kind : PendOn) (timed : Bool)
  | pendMulti (t : TcbId) (timed : Bool) (ds : List PdId)
  | delay (t : TcbId)
  | flagsOpt (t : TcbId) (opt : Opt)
  | pendStatus (t : TcbId) (st : PendStatus)
  | store (d : PdId) (e : Entry)

namespace Act

def apply (a : Abs) : Act → Abs
  | wake t st => a.wake t st
  | flagWake t => a.flagWake t
  | expire t => a.expire t
  | rotate p => a.rotate p
  | suspend t => a.suspend t
  | resume t => a.resume t
  | pendOn t o kind timed => a.pendOn t o kind timed
  | pendMulti t timed ds => ds.foldl (Abs.attach t) (a.block t .multi timed ds)
  | delay t => a.delay t
  | flagsOpt t opt => a.modTask t fun c => { c with flagsOpt := opt }
  | pendStatus t st => a.modTask t fun c => { c with pendStatus := st }
  | store d e => a.modEntry d fun _ => e

def Still : Act → Prop
  | flagsOpt .. | pendStatus .. | store .. => True
  | _ => False

def Wakes : Act → Prop
  | wake .. | flagWake _ | expire _ | rotate _ => True
  | _ => False

def MayStop (E : Env) (a : Abs) (t : TcbId) : Prop :=
  a.cur = some t ∧ (a.task t).state = .rdy ∧ a.intNesting = 0 ∧ a.lockNesting = 0 ∧ (t = idleTaskTCB → E.idleStops) ∧
    E.isCall

def Valid (E : Env) (a : Abs) : Act → Prop
  | wake t _ => (a.task t).pendOn ≠ .mutex
  | flagWake t => (a.task t).pendOn = .flag ∧ ((a.task t).state = .pendTimeoutSuspended → E.flagHit)
  | expire _ | rotate _ | resume _ => True
  | suspend t => a.intNesting = 0 ∧ (a.cur = some t → a.lockNesting = 0) ∧ (t = idleTaskTCB → E.idleStops)
  | pendOn t o kind _ =>
    MayStop E a t ∧ kind ≠ .nothing ∧ kind ≠ .mutex ∧ kind ≠ .multi ∧ (o ≠ none ↔ kind.onObject = true) ∧
      (∀ x ∈ o, kind.accepts (a.obj x).type = true) ∧
      (kind = .flag → (a.task t).flagsOpt &&& optPendFlagMask = optPendFlagSetAll ∨
        (a.task t).flagsOpt &&& optPendFlagMask = optPendFlagSetAny)
  | pendMulti t _ ds =>
    MayStop E a t ∧ ds ≠ [] ∧ (∀ d ∈ ds, d.1 = t) ∧
      ∀ d ∈ ds, ∃ o, (a.entry d).obj = some o ∧ PendOn.accepts .multi (a.obj o).type = true
  | delay t => MayStop E a t
  | flagsOpt t _ => (a.task t).pendOn ≠ .flag
  | pendStatus t _ => (a.task t).state.isPend = false ∧ a.cont t = .none
  | store d _ => (a.task d.1).state.isPend = false

end Act

namespace Abs

inductive Acts (E : Env) (S : Act → Prop) (a : Abs) : Abs → Prop
  | refl : Acts E S a a
  | snoc {b : Abs} {x : Act} (h : Acts E S a b) (hS : S x) (hv : x.Valid E b) (hnd : ∀ p, (b.ready p).Nodup) :
      Acts E S a (x.apply b)

theorem Acts.mono {E : Env} {S S' : Act → Prop} {a b : Abs} (h : a.Acts E S b) (hS : ∀ x, S x → S' x) :
    a.Acts E S' b := by
  induction h with
  | refl => exact .refl
  | snoc _ hx hv hnd ih => exact .snoc ih (hS _ hx) hv hnd

def Target (a : Abs) (p : Option TcbId) (t : TcbId) : Prop := p = some t ∨ p = none ∧ a.cur = some t

end Abs

def Sync.create (cfg : Cfg) (k : ObjType) (b : Sync) : Sync :=
  if k = .mutex then { type := .mutex, owner := none, ownerPrio := cfg.prioMax, nesting := 0 } else { b with type := k }

def PendStatus.mutexErr : PendStatus → Err
  | ok => .none
  | abort => .pendAbort
  | timeout => .timeout
  | del => .objDel

inductive AStep (cfg : Cfg) (s : OS) (a : Abs) : Event → Option Ret → Abs → Prop
  | still {e r a'} (hc : ¬ Counts e r) (h : a.Acts (env s e r) Act.Still a') : AStep cfg s a e r a'
  | acts {e r a'} (hc : ¬ Counts e r) (h : a.Acts (env s e r) Act.Wakes a')
      (hno : 0 < a.intNesting ∨ e.noSched = true ∨ e = .tickUpdate) : AStep cfg s a e r a'
  | sched {e r b a'} (hc : ¬ Counts e r) (hrun : a.running = true) (h : a.Acts (env s e r) (fun _ => True) b)
      (hs : b.Sched a') : AStep cfg s a e r a'
  | leave {e t k b a'} (hc : ¬ Counts e none) (hcur : a.cur = some t) (hint : a.intNesting = 0) (hk : ∀ o, k ≠ .mutexPend o)
      (h : a.Acts (env s e none) (fun _ => True) b) (hs : (b.setCont t k).Sched a') (hcall : ∃ c, e = .call c) :
      AStep cfg s a e none a'
  | finish {t r a'} (hcur : a.cur = some t) (hk : ∀ o, a.cont t ≠ .mutexPend o)
      (h : (a.setCont t .none).Acts (env s .finish r) Act.Still a') : AStep cfg s a .finish r a'
  | mutexReturn {t o r} (hcur : a.cur = some t) (hk : a.cont t = .mutexPend o)
      (hr : r.err = (a.task t).pendStatus.mutexErr) : AStep cfg s a .finish (some r) (a.setCont t .none)
  | create {args t a'} (ht : args.tcb = some t) (hd : (a.task t).state = .del) (hp : args.prio < cfg.prioMax)
      (hint : a.intNesting = 0)
      (hs : if a.running = true then (a.start t args.prio).Sched a' else a' = a.start t args.prio) :
      AStep cfg s a (.call (.taskCreate args)) (some { err := .none }) a'
  | delete {p t a'} (hrun : a.running = true) (ht : a.Target p t) (hd : (a.task t).state ≠ .del) (hint : a.intNesting = 0)
      (hidle : t = idleTaskTCB → IdleStops s (.call (.taskDel p)) (some { err := .none }))
      (hs : (a.erase t cfg.prioMax).Sched a') : AStep cfg s a (.call (.taskDel p)) (some { err := .none }) a'
  | changePrio {p q t a'} (hrun : a.running = true) (ht : a.Target p t) (hd : (a.task t).state ≠ .del)
      (hint : a.intNesting = 0) (hq : q < cfg.prioMax - 1) (hs : (a.reprio t q (p = none)).Sched a') :
      AStep cfg s a (.call (.taskChangePrio p q)) (some { err := .none }) a'
  | refuse {e r t} (hc : ¬ Counts e r) (hcur : a.cur = some t) (hs : (a.task t).state = .rdy) (hp : PassedMatch cfg s e) :
      AStep cfg s a e r ((a.modTask t fun c => { c with state := .dly }).resetWheel t)
  | object {c r o k} (ho : c.creates = some (o, k)) (hw : a.waiting o = []) :
      AStep cfg s a (.call c) r (a.modObj o (Sync.create cfg k))
  | take {o t timeout opt r} (hcur : a.cur = some t) (hm : (a.obj o).type = .mutex) (hz : (a.obj o).nesting = 0)
      (hr : r.err = .none) (hint : a.intNesting = 0) (hopt : pendOptValid opt = true) :
      AStep cfg s a (.call (.mutexPend (some o) timeout opt)) (some r)
        (a.modObj o fun b => { b with owner := some t, ownerPrio := (a.task t).prio, nesting := 1 })
  | nest {o t timeout opt r} (hcur : a.cur = some t) (hm : (a.obj o).type = .mutex) (hz : (a.obj o).nesting ≠ 0)
      (ho : (a.obj o).owner = some t) (hint : a.intNesting = 0) (hopt : pendOptValid opt = true) (hr : r.err = .mutexOwner) :
      AStep cfg s a (.call (.mutexPend (some o) timeout opt)) (some r)
        (a.modObj o fun b => { b with nesting := b.nesting + 1 })
  | wait {o t w timed timeout opt b a'} (hstop : Act.MayStop (env s (.call (.mutexPend (some o) timeout opt)) none) a t)
      (hm : (a.obj o).type = .mutex) (hz : (a.obj o).nesting ≠ 0) (ho : (a.obj o).owner = some w) (hne : w ≠ t)
      (hb : if (a.task t).prio < (a.task w).prio then (a.task w).state ≠ .del ∧ b = a.boost w (a.task t).prio else b = a)
      (hnd : ∀ p, (b.ready p).Nodup) (hs : ((b.pendOn t (some o) .mutex timed).setCont t (.mutexPend o)).Sched a')
      (hopt : pendOptValid opt = true) (hblock : opt &&& optPendNonBlocking = 0) :
      AStep cfg s a (.call (.mutexPend (some o) timeout opt)) none a'
  | unnest {o t opt} (hcur : a.cur = some t) (hm : (a.obj o).type = .mutex) (ho : (a.obj o).owner = some t)
      (hz : (a.obj o).nesting - 1 ≠ 0) (hint : a.intNesting = 0) :
      AStep cfg s a (.call (.mutexPost (some o) opt)) (some { err := .mutexNesting })
        (a.modObj o fun b => { b with nesting := b.nesting - 1 })
  | release {o t opt} (hcur : a.cur = some t) (hm : (a.obj o).type = .mutex) (ho : (a.obj o).owner = some t)
      (hz : (a.obj o).nesting - 1 = 0) (hw : a.waiting o = []) (hint : a.intNesting = 0)
      (hopt : postOptValid opt = true) :
      AStep cfg s a (.call (.mutexPost (some o) opt)) (some { err := .none })
        (a.modObj o fun b => { b with owner := none, nesting := 0 })
  | handOff {o t d opt a'} (hcur : a.cur = some t) (hint : a.intNesting = 0) (hm : (a.obj o).type = .mutex)
      (ho : (a.obj o).owner = some t) (hz : (a.obj o).nesting - 1 = 0) (hw : (a.waiting o).head? = some d)
      (hrdy : (a.task t).prio ≠ (a.obj o).ownerPrio → (a.task t).state = .rdy)
      (hs : if opt &&& optPostNoSched = 0 then ((a.restore t (a.obj o).ownerPrio).handOff o d.1).Sched a'
        else a' = (a.restore t (a.obj o).ownerPrio).handOff o d.1) (hopt : postOptValid opt = true) :
      AStep cfg s a (.call (.mutexPost (some o) opt)) (some { err := .none }) a'
  | lock (hrun : a.running = true) (hint : a.intNesting = 0) (hlock : a.lockNesting < 250) :
      AStep cfg s a (.call .schedLock) (some { err := .none }) { a with lockNesting := a.lockNesting + 1 }
  | unlock {x a'} (hint : a.intNesting = 0) (hlock : 0 < a.lockNesting)
      (hx : x = if a.lockNesting - 1 > 0 then .schedLocked else .none)
      (hs : Abs.Sched { a with lockNesting := a.lockNesting - 1 } a') :
      AStep cfg s a (.call .schedUnlock) (some { err := x }) a'
  | intEnter (hrun : a.running = true) : AStep cfg s a .intEnter none { a with intNesting := a.intNesting + 1 }
  | intExit {a'} (hint : 0 < a.intNesting) (hs : Abs.Sched { a with intNesting := a.intNesting - 1 } a') :
      AStep cfg s a .intExit none a'
  | start {r p t} (hrun : a.running = false) (hb : a.Best p t) :
      AStep cfg s a .start r { a with cur := some t, prioCur := p, running := true }

section frame

namespace Abs

def frame (a : Abs) : Abs :=
  { a with
    task := fun t => Task.fresh (a.task t).prio, entry := fun _ => ⟨none, none⟩, ready := fun _ => [],
    waiting := fun _ => [], onWheel := fun _ => false, wheelOk := true }

variable {a b : Abs} {t : TcbId}

theorem frame_modTask {f : Task → Task} (hf : (f (a.task t)).prio = (a.task t).prio) :
    (a.modTask t f).frame = a.frame := by
  simp only [frame, modTask, mk.injEq, and_true]
  funext x
  by_cases hx : x = t
  · subst hx
    simp [hf]
  · simp [hx]

theorem frame_setReady (p : ℕ) (L : List TcbId) : (a.setReady p L).frame = a.frame := rfl

theorem frame_enqueue (t : TcbId) : (a.enqueue t).frame = a.frame := rfl

theorem frame_dequeue (t : TcbId) : (a.dequeue t).frame = a.frame := rfl

theorem frame_offWheel (t : TcbId) : (a.offWheel t).frame = a.frame := rfl

theorem frame_timer (t : TcbId) (timed : Bool) : (a.timer t timed).frame = a.frame := rfl

theorem frame_modEntry (d : PdId) (f : Entry → Entry) : (a.modEntry d f).frame = a.frame := rfl

theorem frame_unpend (t : TcbId) : (a.unpend t).frame = a.frame :=
  (frame_modTask (f := fun c => { c with table := [] }) rfl :)

theorem frame_wake (t : TcbId) (st : PendStatus) : (a.wake t st).frame = a.frame := by
  rw [wake]
  split
  · rfl
  split
  · rw [frame_offWheel, frame_modTask rfl, frame_enqueue, frame_unpend]
  · rw [frame_offWheel, frame_modTask rfl, frame_unpend]

theorem frame_flagWake (t : TcbId) : (a.flagWake t).frame = a.frame := by
  rw [flagWake]
  split
  · rw [frame_modTask rfl, frame_unpend]
  · exact frame_wake t .ok

theorem frame_expire (t : TcbId) : (a.expire t).frame = a.frame := by
  rw [expire]
  split
  · rw [frame_offWheel, frame_enqueue, frame_modTask rfl]
  · rw [frame_offWheel, frame_modTask rfl]
  · exact frame_wake t .timeout
  · exact frame_wake t .timeout
  all_goals rfl

theorem frame_suspend (t : TcbId) : (a.suspend t).frame = a.frame := by
  rw [suspend]
  split
  · rfl
  split
  · rw [frame_dequeue, frame_modTask rfl]
  · rw [frame_modTask rfl]

theorem frame_resume (t : TcbId) : (a.resume t).frame = a.frame := by
  rw [resume]
  split
  · split
    · rw [frame_offWheel, frame_enqueue, frame_modTask rfl]
    · rw [frame_modTask rfl]
  iterate 3 rw [frame_modTask rfl]
  all_goals rfl

theorem frame_block (t : TcbId) (kind : PendOn) (timed : Bool) (ds : List PdId) :
    (a.block t kind timed ds).frame = a.frame := by
  rw [block, frame_timer, frame_dequeue, frame_modTask rfl]

theorem frame_attach (t : TcbId) (d : PdId) : (attach t a d).frame = a.frame := by
  rw [attach]
  split <;> rfl

theorem frame_foldl_attach (t : TcbId) (ds : List PdId) : (ds.foldl (attach t) a).frame = a.frame := by
  induction ds generalizing a with
  | nil => rfl
  | cons d ds ih => rw [List.foldl_cons, ih, frame_attach]

theorem frame_pendOn (t : TcbId) (o : Option ObjId) (kind : PendOn) (timed : Bool) :
    (a.pendOn t o kind timed).frame = a.frame := by
  cases o with
  | none => exact frame_block t kind timed []
  | some o =>
    rw [pendOn, frame_attach, frame_block, frame_modEntry]

end Abs

theorem Act.frame (x : Act) (a : Abs) : (x.apply a).frame = a.frame := by
  cases x with
  | wake t st => exact Abs.frame_wake t st
  | flagWake t => exact Abs.frame_flagWake t
  | expire t => exact Abs.frame_expire t
  | rotate p => exact Abs.frame_setReady p _
  | suspend t => exact Abs.frame_suspend t
  | resume t => exact Abs.frame_resume t
  | pendOn t o kind timed => exact Abs.frame_pendOn t o kind timed
  | pendMulti t timed ds => exact (Abs.frame_foldl_attach t ds).trans (Abs.frame_block t .multi timed ds)
  | delay t => exact Abs.frame_modTask (f := fun c => { c with state := .dly }) rfl
  | flagsOpt t opt => exact Abs.frame_modTask (f := fun c => { c with flagsOpt := opt }) rfl
  | pendStatus t st => exact Abs.frame_modTask (f := fun c => { c with pendStatus := st }) rfl
  | store d e => rfl

variable {E : Env} {S : Act → Prop} {a b : Abs}

theorem Abs.Acts.frame (h : a.Acts E S b) : b.frame = a.frame := by
  induction h with
  | refl => rfl
  | snoc _ _ _ _ ih => exact (Act.frame _ _).trans ih

end frame

end UcosIII
