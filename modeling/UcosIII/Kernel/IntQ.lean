import UcosIII.Kernel.Flag

/-!
The interrupt queue (`os_int.c`), for the build in which the posts of interrupts are deferred. `OS_IntQPost` puts a post
into a ring, and `OS_IntQTask`, the only task of priority 0, makes the posts again. The task leaves the critical section
between the test for an entry and the release of its slot, so that interrupts come between any two of its steps.
`OS_IntQTaskInit` refuses rings of fewer than two entries; the ring here may have any number of them.
-/

namespace UcosIII

inductive PostType where
  | none | flag | q | sem | taskMsg | taskResume | taskSignal | taskSuspend | tick
deriving DecidableEq

/-- `OS_INT_Q` without its link. The object is a kernel object, a task, or for a tick a ready list. -/
structure IntQEntry where
  type : PostType
  objPtr : Option ℕ
  msgPtr : Option ℕ
  msgSize : ℕ
  flags : Flags
  opt : Opt
  ts : ℕ
deriving DecidableEq

/-- The ring: the entry and the link of each slot, and `OSIntQInPtr`, `OSIntQOutPtr` and the counters. -/
structure IntQ where
  entry : ℕ → IntQEntry
  nextPtr : ℕ → ℕ
  inPtr : ℕ
  outPtr : ℕ
  nbrEntries : ℕ
  nbrEntriesMax : ℕ
  ovfCtr : BitVec 16

def intQTaskTCB : TcbId := 4

inductive IntQField where
  | objPtr | msgPtr | msgSize | flags | opt | ts
deriving DecidableEq

/-- What the call of `OS_IntQRePost` for the type takes of the entry. -/
def PostType.fields : PostType → List IntQField
  | none => []
  | flag => [.objPtr, .flags, .opt, .ts]
  | q | taskMsg => [.objPtr, .msgPtr, .msgSize, .opt, .ts]
  | sem | taskSignal => [.objPtr, .opt, .ts]
  | taskResume | taskSuspend => [.objPtr]
  | tick => [.ts]

namespace IntQEntry

def blank (type : PostType) : IntQEntry := ⟨type, none, none, 0, 0, 0, 0⟩

def read (e : IntQEntry) (f : IntQField) (got : IntQEntry) : IntQEntry :=
  match f with
  | .objPtr => { got with objPtr := e.objPtr }
  | .msgPtr => { got with msgPtr := e.msgPtr }
  | .msgSize => { got with msgSize := e.msgSize }
  | .flags => { got with flags := e.flags }
  | .opt => { got with opt := e.opt }
  | .ts => { got with ts := e.ts }

def rePost (e : IntQEntry) : K Unit :=
  match e.type with
  | .none => return ()
  | .flag => do
    let _ ← flagPost (← Prog.deref e.objPtr) e.flags e.opt e.ts
  | .q => do
    let _ ← qPost (← Prog.deref e.objPtr) e.msgPtr e.msgSize e.opt e.ts
  | .sem => do
    let _ ← semPost (← Prog.deref e.objPtr) e.opt e.ts
  | .taskMsg => do
    let _ ← taskQPost e.objPtr e.msgPtr e.msgSize e.opt e.ts
  | .taskResume => do
    let _ ← taskResume (← Prog.deref e.objPtr)
  | .taskSignal => do
    let _ ← taskSemPost e.objPtr e.opt e.ts
  | .taskSuspend => do
    let _ ← taskSuspend e.objPtr
  | .tick => do
    let _ ← taskSemPost (some tickTaskTCB) optPostNone e.ts

end IntQEntry

/-- The loop of `OS_IntQTaskInit` over `fuel` slots from slot `i` on. -/
def intQInitLoop : ℕ → ℕ → IntQ → IntQ
  | 0, _, q => q
  | fuel + 1, i, q => intQInitLoop fuel (i + 1)
      { q with
        entry := Function.update q.entry i { IntQEntry.blank .none with ts := (q.entry i).ts }
        nextPtr := Function.update q.nextPtr i (i + 1) }

def intQInit (size : ℕ) (q : IntQ) : IntQ :=
  let q := intQInitLoop size 0 q
  { q with
    nextPtr := Function.update q.nextPtr (size - 1) 0
    inPtr := 0, outPtr := 0, nbrEntries := 0, nbrEntriesMax := 0, ovfCtr := 0 }

inductive IntQPhase where
  | check
  | sched
  | select
  | roundRobin
  | load (todo : List IntQField) (got : IntQEntry)
  | tmr
  | release

structure IntSys where
  os : OS
  q : IntQ
  prioSaved : ℕ
  phase : IntQPhase

abbrev KI := Prog Cfg IntSys

def onOS {α : Type} (m : K α) : KI α := Prog.zoom id IntSys.os (fun s d => { d with os := s }) m

def modIntQ (f : IntQ → IntQ) : KI Unit := Prog.modify fun d => { d with q := f d.q }

def goTo (p : IntQPhase) : KI Unit := Prog.modify fun d => { d with phase := p }

def intQPost (size : ℕ) (e : IntQEntry) : KI Err := do
  let d ← Prog.get
  if d.q.nbrEntries < size then
    modIntQ fun q => { q with nbrEntries := q.nbrEntries + 1 }
    modIntQ fun q => { q with nbrEntriesMax := max q.nbrEntriesMax q.nbrEntries }
    modIntQ fun q => { q with entry := Function.update q.entry q.inPtr e }
    modIntQ fun q => { q with inPtr := q.nextPtr q.inPtr }
    onOS (modRdyList 0 fun _ => { headPtr := some intQTaskTCB, tailPtr := some intQTaskTCB, nbrEntries := 1 })
    onOS (prioInsert 0)
    Prog.modify fun d => { d with prioSaved := if d.os.prioCur ≠ 0 then d.os.prioCur else d.prioSaved }
    return .none
  else
    modIntQ fun q => { q with ovfCtr := q.ovfCtr + 1 }
    return .intQFull

def intQTmrSignal : K Unit := do
  Prog.modify fun s => { s with tmrUpdateCtr := s.tmrUpdateCtr - 1 }
  if (← Prog.get).tmrUpdateCtr = 0 then
    Prog.modify fun s => { s with tmrUpdateCtr := s.tmrUpdateCnt }
    let _ ← taskSemPost (some tmrTaskTCB) optPostNone (← tsGet)

/-- What a step shows: the answer to a post, the call that is made again, the release of a slot. -/
inductive IntLabel where
  | quiet
  | post (e : IntQEntry) (err : Err)
  | repost (e : IntQEntry)
  | release
deriving DecidableEq

/-- The next step of `OS_IntQTask`. The arguments of a call are read in any order; `f` is the next one. -/
def intQTaskStep (f : IntQField) : KI IntLabel := do
  let d ← Prog.get
  match d.phase with
  | .check =>
    if d.q.nbrEntries = 0 then
      onOS (modRdyList 0 fun _ => { headPtr := none, tailPtr := none, nbrEntries := 0 })
      onOS (prioRemove 0)
      goTo .sched
      return .quiet
    else
      goTo .select
      return .quiet
  | .sched =>
    onOS osSched
    goTo .check
    return .quiet
  | .select =>
    let type := (d.q.entry d.q.outPtr).type
    goTo (if type = .tick then .roundRobin else .load type.fields (.blank type))
    return .quiet
  | .roundRobin =>
    onOS (schedRoundRobin d.prioSaved)
    goTo (.load PostType.tick.fields (.blank .tick))
    return .quiet
  | .load [] got =>
    onOS got.rePost
    goTo (if got.type = .tick then .tmr else .release)
    return .repost got
  | .load todo got =>
    if f ∈ todo then
      goTo (.load (todo.erase f) ((d.q.entry d.q.outPtr).read f got))
      return .quiet
    else Prog.fault
  | .tmr =>
    onOS intQTmrSignal
    goTo .release
    return .quiet
  | .release =>
    modIntQ fun q => { q with outPtr := q.nextPtr q.outPtr, nbrEntries := q.nbrEntries - 1 }
    goTo .check
    return .release

inductive IntEvent where
  | intEnter
  | intExit
  | post (e : IntQEntry)
  | task (f : IntQField)

def IntEvent.exec (size : ℕ) : IntEvent → KI IntLabel
  | intEnter => do
    onOS osIntEnter
    return .quiet
  | intExit => do
    onOS osIntExit
    return .quiet
  | post e => do
    let x ← intQPost size e
    return .post e x
  | task f => intQTaskStep f

/-- An interrupt posts one of the known types, and the task runs when no interrupt does. -/
def IntEvent.Enabled (d : IntSys) : IntEvent → Prop
  | intEnter => True
  | intExit => 0 < d.os.intNestingCtr
  | post e => 0 < d.os.intNestingCtr ∧ e.type ≠ .none
  | task _ => d.os.intNestingCtr = 0 ∧ d.os.tcbCurPtr = some intQTaskTCB

instance IntEvent.decidableEnabled (d : IntSys) (e : IntEvent) : Decidable (e.Enabled d) :=
  match e with
  | .intEnter => inferInstanceAs (Decidable True)
  | .intExit => inferInstanceAs (Decidable (0 < d.os.intNestingCtr))
  | .post e => inferInstanceAs (Decidable (0 < d.os.intNestingCtr ∧ e.type ≠ .none))
  | .task _ => inferInstanceAs (Decidable (d.os.intNestingCtr = 0 ∧ d.os.tcbCurPtr = some intQTaskTCB))

/-- Priority 0 is the task's own (`OSTaskCreate` and `OSTaskChangePrio` refuse it to any other task), and the task never
waits. -/
structure OS.IntQApart (s : OS) : Prop where
  prio : ∀ t, t ≠ intQTaskTCB → (s.tcb t).prio ≠ 0
  rdy : (s.tcb intQTaskTCB).taskState = .rdy

/-- The task is on the ready list of priority 0 and its bit of the priority table is set. -/
structure OS.IntQListed (s : OS) : Prop where
  list : s.rdyList 0 = { headPtr := some intQTaskTCB, tailPtr := some intQTaskTCB, nbrEntries := 1 }
  bit : (s.prioTbl 0).getLsbD 31 = true

/-- The runs from the start of the task on, the last step first. Every post keeps to `P`. -/
inductive IntRun (cfg : Cfg) (size : ℕ) (P : IntQEntry → Prop) : List IntLabel → IntSys → Prop
  | init {s : OS} {q : IntQ} {p : ℕ} (apart : s.IntQApart) (listed : s.IntQListed) :
      IntRun cfg size P [] ⟨s, intQInit size q, p, .check⟩
  | step {ls : List IntLabel} {d d' : IntSys} {e : IntEvent} {l : IntLabel} (run : IntRun cfg size P ls d)
      (enabled : e.Enabled d) (exec : Prog.Runs cfg (e.exec size) d l d') (keeps : ∀ x, e = .post x → P x) :
      IntRun cfg size P (l :: ls) d'

def accepted : List IntLabel → List IntQEntry
  | [] => []
  | .post e .none :: ls => accepted ls ++ [e]
  | _ :: ls => accepted ls

def reposted : List IntLabel → List IntQEntry
  | [] => []
  | .repost e :: ls => reposted ls ++ [e]
  | _ :: ls => reposted ls

def released : List IntLabel → ℕ
  | [] => 0
  | .release :: ls => released ls + 1
  | _ :: ls => released ls

end UcosIII
