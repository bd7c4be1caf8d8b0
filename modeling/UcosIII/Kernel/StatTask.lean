import UcosIII.Kernel.Types
import UcosIII.Kernel.Stat
import Mathlib.Logic.Function.Basic

/-!
The walks of the statistics task over the list of all tasks (`os_stat.c`), with the check of their stacks
(`OSTaskStkChk`), while other tasks create and delete tasks. A step of the statistics task is one of its critical
sections, or what it does between two of them; between any two steps the other tasks may do anything.
-/

namespace UcosIII

/-- What the walks read and write of a task control block, and `OSTaskCreate` and `OSTaskDel` with them. -/
structure StatTCB where
  stkPtr : Option ℕ
  stkBasePtr : Option ℕ
  stkSize : BitVec 32
  stkFree : BitVec 32
  stkUsed : BitVec 32
  opt : Opt
  cycles : TaskCycles
  dbgPrevPtr : Option TcbId
  dbgNextPtr : Option TcbId

/-- How far a task is: not created or deleted, set up by `OSTaskCreate`, and in the lists of the kernel. -/
inductive TaskStage where
  | dormant | made | live
deriving DecidableEq

/-- Where the statistics task is. Between two passes it is `off`; the code of `OSTaskStkChk` is from `chk` to `store`. -/
inductive StatPc where
  | off | first | cycles | sum | next | second | usage | chk | zero | base | scan | store | last
deriving DecidableEq

/-- `mem` are the words of the stacks, by address. The variables from `pTcb` to `freeStk` are those of the statistics task;
`scanned` is the stack as it is when its scan starts, which no code reads. -/
structure StatSys where
  tcb : TcbId → StatTCB
  stage : TcbId → TaskStage
  taskDbgListPtr : Option TcbId
  mem : ℕ → BitVec 32
  pc : StatPc
  pTcb : Option TcbId
  cyclesTotal : BitVec 32
  cyclesMult : BitVec 32
  cyclesMax : BitVec 32
  pStk : Option ℕ
  freeStk : BitVec 32
  scanned : Option ℕ × BitVec 32

def optTaskStkChk : Opt := 0x0001
def optTaskStkClr : Opt := 0x0002

def stkSizeMin : BitVec 32 := 64

/-- The word of the stack in which the port keeps `TaskPtr`. -/
def taskPtrWord : ℕ := 6

def StatTCB.init (cyclesTotalPrev : BitVec 32) : StatTCB where
  stkPtr := none
  stkBasePtr := none
  stkSize := 0
  stkFree := 0
  stkUsed := 0
  opt := 0
  cycles := { cyclesTotal := 0, cyclesTotalPrev := cyclesTotalPrev, cpuUsage := 0, cpuUsageMax := 0 }
  dbgPrevPtr := none
  dbgNextPtr := none

def StatTCB.Holds (c : StatTCB) (x : ℕ) : Prop := ∃ b ∈ c.stkBasePtr, b ≤ x ∧ x < b + c.stkSize.toNat

/-- The arguments of `OSTaskCreate` that are about the stack. -/
structure StkArgs where
  task : BitVec 32
  arg : BitVec 32
  stkBase : Option ℕ
  stkSize : BitVec 32
  opt : Opt

namespace StatSys

def modTcb (d : StatSys) (t : TcbId) (f : StatTCB → StatTCB) : StatSys :=
  { d with tcb := Function.update d.tcb t (f (d.tcb t)) }

def setStage (d : StatSys) (t : TcbId) (u : TaskStage) : StatSys := { d with stage := Function.update d.stage t u }

def goto (d : StatSys) (pc : StatPc) : StatSys := { d with pc := pc }

def setMem (d : StatSys) (a : ℕ) (v : BitVec 32) : StatSys := { d with mem := Function.update d.mem a v }

section tasks

def taskDbgListAdd (d : StatSys) (t : TcbId) : StatSys :=
  let d := d.modTcb t fun c => { c with dbgPrevPtr := none }
  let d := match d.taskDbgListPtr with
    | none => d.modTcb t fun c => { c with dbgNextPtr := none }
    | some u =>
      (d.modTcb t fun c => { c with dbgNextPtr := some u }).modTcb u fun c => { c with dbgPrevPtr := some t }
  { d with taskDbgListPtr := some t }

def taskDbgListRemove (d : StatSys) (t : TcbId) : StatSys :=
  match (d.tcb t).dbgPrevPtr, (d.tcb t).dbgNextPtr with
  | none, none => { d with taskDbgListPtr := none }.modTcb t fun c => { c with dbgNextPtr := none }
  | none, some n =>
    ({ d with taskDbgListPtr := some n }.modTcb n fun c => { c with dbgPrevPtr := none }).modTcb t fun c =>
      { c with dbgNextPtr := none }
  | some p, none =>
    (d.modTcb p fun c => { c with dbgNextPtr := none }).modTcb t fun c => { c with dbgPrevPtr := none }
  | some p, some n =>
    ((d.modTcb p fun c => { c with dbgNextPtr := some n }).modTcb n fun c => { c with dbgPrevPtr := some p }).modTcb t
      fun c => { c with dbgNextPtr := none, dbgPrevPtr := none }

def taskInitTCB (d : StatSys) (t : TcbId) : StatSys := d.modTcb t fun c => StatTCB.init c.cycles.cyclesTotalPrev

/-- `OSTaskStkInit`: the record of the port at the base of the stack. `TaskOpt` is half a word. -/
def taskStkInit (mem : ℕ → BitVec 32) (b : ℕ) (a : StkArgs) : ℕ → BitVec 32 := fun x =>
  if x = b + 4 then a.arg
  else if x = b + 5 then (mem x &&& 0xFFFF0000) ||| a.opt.setWidth 32
  else if x = b + taskPtrWord then a.task
  else if b ≤ x ∧ x < b + 12 then 0
  else mem x

def stkClear (mem : ℕ → BitVec 32) (b : ℕ) (a : StkArgs) : ℕ → BitVec 32 := fun x =>
  if a.opt &&& optTaskStkChk ≠ 0 ∧ a.opt &&& optTaskStkClr ≠ 0 ∧ b ≤ x ∧ x < b + a.stkSize.toNat then 0 else mem x

def taskCreateInit (d : StatSys) (t : TcbId) (a : StkArgs) : StatSys :=
  if a.task = 0 then d
  else match a.stkBase with
  | none => d
  | some b =>
    if a.stkSize < stkSizeMin then d
    else
      let d := { d.taskInitTCB t with mem := taskStkInit (stkClear d.mem b a) b a }
      (d.modTcb t fun c =>
        { c with stkPtr := some b, stkBasePtr := some b, stkSize := a.stkSize, opt := a.opt }).setStage t .made

def taskCreateLink (d : StatSys) (t : TcbId) : StatSys := (d.taskDbgListAdd t).setStage t .live

/-- `OSTaskDel`. With the statistics task its pass is gone. -/
def taskDel (d : StatSys) (t : TcbId) : StatSys :=
  if t = idleTaskTCB then d
  else if d.stage t = .dormant then d
  else
    let d := ((d.taskDbgListRemove t).taskInitTCB t).setStage t .dormant
    if t = statTaskTCB then d.goto .off else d

end tasks

def statStep (d : StatSys) : Option StatSys :=
  match d.pc with
  | .off => some d
  | .first => some ({ d with pTcb := d.taskDbgListPtr, cyclesTotal := 0 }.goto .cycles)
  | .cycles =>
    match d.pTcb with
    | none =>
      let (cyclesMult, cyclesMax) := cyclesScale d.cyclesTotal
      some ({ d with cyclesMult := cyclesMult, cyclesMax := cyclesMax }.goto .second)
    | some p =>
      some ((d.modTcb p fun c =>
        { c with cycles := { c.cycles with cyclesTotalPrev := c.cycles.cyclesTotal, cyclesTotal := 0 } }).goto .sum)
  | .sum => d.pTcb.map fun p =>
    { d with cyclesTotal := d.cyclesTotal + (d.tcb p).cycles.cyclesTotalPrev }.goto .next
  | .next => d.pTcb.map fun p => { d with pTcb := (d.tcb p).dbgNextPtr }.goto .cycles
  | .second => some ({ d with pTcb := d.taskDbgListPtr }.goto .usage)
  | .usage =>
    match d.pTcb with
    | none => some (d.goto .off)
    | some p =>
      some ((d.modTcb p fun c => { c with cycles := statTaskUsage d.cyclesMult d.cyclesMax c.cycles }).goto .chk)
  | .chk => d.pTcb.map fun p =>
    d.goto (if (d.tcb p).stkPtr = none then .zero else if (d.tcb p).opt &&& optTaskStkChk = 0 then .zero else .base)
  | .zero => d.pTcb.map fun p => (d.modTcb p fun c => { c with stkFree := 0, stkUsed := 0 }).goto .last
  | .base => d.pTcb.map fun p =>
    let c := d.tcb p
    { d with freeStk := 0, pStk := c.stkBasePtr, scanned := (c.stkBasePtr, c.stkSize) }.goto .scan
  | .scan => d.pStk.map fun x =>
    if d.mem x = 0 then { d with pStk := some (x + 1), freeStk := d.freeStk + 1 } else d.goto .store
  | .store => d.pTcb.map fun p =>
    (d.modTcb p fun c => { c with stkFree := d.freeStk, stkUsed := c.stkSize - d.freeStk }).goto .last
  | .last => d.pTcb.map fun p => { d with pTcb := (d.tcb p).dbgNextPtr }.goto .usage

def boot (mem : ℕ → BitVec 32) : StatSys where
  tcb _ := StatTCB.init 0
  stage _ := .dormant
  taskDbgListPtr := none
  mem := mem
  pc := .off
  pTcb := none
  cyclesTotal := 0
  cyclesMult := 0
  cyclesMax := 0
  pStk := none
  freeStk := 0
  scanned := (none, 0)

end StatSys

/-- The statistics task starts a pass and goes on with it; other tasks create and delete tasks, and run on their stacks. -/
inductive StatEvent where
  | pass
  | stat
  | createInit (t : TcbId) (a : StkArgs)
  | createLink (t : TcbId)
  | del (t : TcbId)
  | write (x : ℕ) (v : BitVec 32)
  | swHook (t : TcbId) (cycles : BitVec 32)

namespace StatEvent

def exec (d : StatSys) : StatEvent → Option StatSys
  | pass => some (d.goto .first)
  | stat => d.statStep
  | createInit t a => some (d.taskCreateInit t a)
  | createLink t => some (d.taskCreateLink t)
  | del t => some (d.taskDel t)
  | write x v => some (d.setMem x v)
  | swHook t n => some (d.modTcb t fun c => { c with cycles := { c.cycles with cyclesTotal := c.cycles.cyclesTotal + n } })

/-- A task control block is set up while it is dormant and not deleted before that is done, for a stack that no other task
uses; and the port keeps `TaskPtr` of a task until it is deleted. -/
def Enabled (d : StatSys) : StatEvent → Prop
  | pass => d.pc = .off ∧ d.stage statTaskTCB = .live
  | stat => d.pc ≠ .off
  | createInit t a => d.stage t = .dormant ∧
      ∀ b ∈ a.stkBase, ∀ x, b ≤ x → x < b + a.stkSize.toNat → ∀ u, d.stage u ≠ .dormant → ¬ (d.tcb u).Holds x
  | createLink t => d.stage t = .made
  | del t => d.stage t ≠ .made
  | write x v => ∀ t, d.stage t ≠ .dormant → ∀ b ∈ (d.tcb t).stkBasePtr, x = b + taskPtrWord → v ≠ 0
  | swHook .. => True

end StatEvent

/-- The runs from before the first task on in which every step keeps to `P`. -/
inductive StatRun (P : StatSys → StatEvent → Prop) : StatSys → Prop
  | boot (mem : ℕ → BitVec 32) : StatRun P (StatSys.boot mem)
  | step {d d' : StatSys} {e : StatEvent} (run : StatRun P d) (enabled : e.Enabled d) (exec : e.exec d = some d')
      (keeps : P d e) : StatRun P d'

end UcosIII
