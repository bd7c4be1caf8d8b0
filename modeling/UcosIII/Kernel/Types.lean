import UcosIII.Lib.Program
import Mathlib.Data.Nat.Notation

/-!
The data model of the kernel: the records of `os.h`, the constants of the options and errors that
the services use, and the global variables. Pointers are `Option`s of identifiers, `none` being the
null pointer. The fields that only serve debuggers and profiling are left out.
-/

namespace UcosIII

abbrev TcbId := ℕ
abbrev ObjId := ℕ
abbrev MsgId := ℕ
abbrev Tick := BitVec 32
abbrev Flags := BitVec 32
abbrev Opt := BitVec 16

/-- The entry `k` of a pend-data table (or the on-stack entry, for `k = 0`) of a task. -/
abbrev PdId := TcbId × ℕ

inductive TaskState where
  | rdy | dly | pend | pendTimeout | suspended | dlySuspended | pendSuspended | pendTimeoutSuspended | del
deriving DecidableEq, Repr

inductive PendOn where
  | nothing | flag | taskQ | multi | mutex | q | sem | taskSem
deriving DecidableEq, Repr

inductive PendStatus where
  | ok | abort | del | timeout
deriving DecidableEq, Repr

inductive ObjType where
  | none | flag | mutex | q | sem
deriving DecidableEq, Repr

inductive Err where
  | none | createISR | flagPendOpt | flushISR | lockNestingOvf | msgPoolEmpty | mutexNesting
  | mutexNotOwner | mutexOwner | objPtrNull | objType | optInvalid | osNotRunning | osRunning
  | fatalReturn | pendAbort | pendAbortISR | pendAbortNone | pendAbortSelf | pendISR | pendWouldBlock
  | postISR | prioInvalid | ptrInvalid | qEmpty | qMax | qSize | objDel | roundRobin1 | roundRobinDisabled
  | schedLocked | schedLockISR | schedNotLocked | schedUnlockISR | semOvf | setISR | stateInvalid
  | statusInvalid | stkInvalid | stkLimitInvalid | stkSizeInvalid | taskChangePrioISR | taskCreateISR
  | taskDelIdle | taskDelISR | taskInvalid | taskNotSuspended | taskResumeISR | taskResumeSelf
  | taskSuspendIdle | taskSuspendISR | taskWaiting | tcbInvalid | timeDlyISR | timeInvalidHours
  | timeInvalidMinutes | timeInvalidSeconds | timeInvalidMilliseconds | timeZeroDly | timeout | yieldISR
  | tmrInactive | tmrInvalid | tmrInvalidDly | tmrInvalidPeriod | tmrISR | tmrNoCallback | tmrStopped
  | intQFull | memCreateISR | memFull | memInvalidBlks | memInvalidPAddr | memInvalidPBlk | memInvalidPMem
  | memInvalidSize | memNoFreeBlks
deriving DecidableEq, Repr

def optPendFlagMask : Opt := 0x000F
def optPendFlagClrAll : Opt := 0x0001
def optPendFlagClrAny : Opt := 0x0002
def optPendFlagSetAll : Opt := 0x0004
def optPendFlagSetAny : Opt := 0x0008
def optPendFlagConsume : Opt := 0x0100
def optPendBlocking : Opt := 0x0000
def optPendNonBlocking : Opt := 0x8000
def optPendAbort1 : Opt := 0x0000
def optPendAbortAll : Opt := 0x0100
def optPostNone : Opt := 0x0000
def optPostFlagSet : Opt := 0x0000
def optPostFlagClr : Opt := 0x0001
def optPostFifo : Opt := 0x0000
def optPostLifo : Opt := 0x0010
def optPost1 : Opt := 0x0000
def optPostAll : Opt := 0x0200
def optPostNoSched : Opt := 0x8000
def optTimeDly : Opt := 0x0000
def optTimeTimeout : Opt := 0x0002
def optTimeMatch : Opt := 0x0004
def optTimePeriodic : Opt := 0x0008
def optTimeHMSMNonStrict : Opt := 0x0010
def optTimeMask : Opt := 0x000E
def optTimeOptsMask : Opt := 0x001E

/-- `OS_TICK_TH_RDY`: a match time whose distance exceeds it has already occurred. -/
def tickThRdy : Tick := 0xFFFF0000

def tickThInit : Tick := 0x80000000

structure MsgQ where
  inPtr : Option MsgId
  outPtr : Option MsgId
  nbrEntriesSize : ℕ
  nbrEntries : ℕ
  nbrEntriesMax : ℕ
deriving DecidableEq

structure Msg where
  nextPtr : Option MsgId
  msgPtr : Option ℕ
  msgSize : ℕ
  msgTS : ℕ

structure MsgPool where
  nextPtr : Option MsgId
  nbrFree : ℕ
  nbrUsed : ℕ
  nbrUsedMax : ℕ

structure TCB where
  nextPtr : Option TcbId
  prevPtr : Option TcbId
  tickNextPtr : Option TcbId
  tickPrevPtr : Option TcbId
  tickSpokePtr : Option ℕ
  pendDataTblPtr : Option PdId
  pendDataTblEntries : ℕ
  pendOn : PendOn
  pendStatus : PendStatus
  taskState : TaskState
  prio : ℕ
  timeQuanta : Tick
  timeQuantaCtr : Tick
  msgPtr : Option ℕ
  msgSize : ℕ
  msgQ : MsgQ
  ts : ℕ
  semCtr : ℕ
  tickCtrPrev : Tick
  tickCtrMatch : Tick
  tickRemain : Tick
  flagsPend : Flags
  flagsRdy : Flags
  flagsOpt : Opt
  suspendCtr : BitVec 8

structure PendData where
  prevPtr : Option PdId
  nextPtr : Option PdId
  tcbPtr : Option TcbId
  pendObjPtr : Option ObjId
  rdyObjPtr : Option ObjId
  rdyMsgPtr : Option ℕ
  rdyMsgSize : ℕ
  rdyTS : ℕ

structure PendList where
  headPtr : Option PdId
  tailPtr : Option PdId
  nbrEntries : ℕ

/-- A kernel object: `OS_SEM`, `OS_Q`, `OS_MUTEX` and `OS_FLAG_GRP` share the type tag and the pend
list, and every service tests the tag before it touches the fields of its own kind. -/
structure Obj where
  type : ObjType
  pendList : PendList
  ctr : ℕ
  msgQ : MsgQ
  ownerTCBPtr : Option TcbId
  ownerOriginalPrio : ℕ
  ownerNestingCtr : BitVec 8
  flags : Flags
  ts : ℕ

structure RdyList where
  headPtr : Option TcbId
  tailPtr : Option TcbId
  nbrEntries : ℕ

structure TickSpoke where
  firstPtr : Option TcbId
  nbrEntries : ℕ
  nbrEntriesMax : ℕ

inductive Cont where
  | none
  | semPend (sem : ObjId)
  | qPend
  | mutexPend (mutex : ObjId)
  | flagPend (grp : ObjId) (mode : Opt) (consume : Bool)
  | flagPost (grp : ObjId)
  | multiPend
  | taskSemPend
  | taskQPend
deriving DecidableEq

/-- The configuration (`os_cfg.h`, `os_cfg_app.h`), with the limits that its types and the checks of
the initialisation put on it. -/
structure Cfg where
  prioMax : ℕ
  tickWheelSize : ℕ
  tickRateHz : ℕ
  tickTaskPrio : ℕ
  statTaskPrio : ℕ
  tmrTaskPrio : ℕ
  tmrTaskRateHz : ℕ
  stkSizeMin : ℕ
  msgPoolSize : ℕ
  prioMax_lt : prioMax < 256
  tickTaskPrio_lt : tickTaskPrio < prioMax - 1
  statTaskPrio_lt : statTaskPrio < prioMax - 1
  tmrTaskPrio_lt : tmrTaskPrio < prioMax - 1
  tickWheelSize_pos : 0 < tickWheelSize
  msgPoolSize_pos : 0 < msgPoolSize

def Cfg.repository : Cfg where
  prioMax := 32
  tickWheelSize := 17
  tickRateHz := 1000
  tickTaskPrio := 10
  statTaskPrio := 11
  tmrTaskPrio := 11
  tmrTaskRateHz := 10
  stkSizeMin := 64
  msgPoolSize := 100
  prioMax_lt := by decide
  tickTaskPrio_lt := by decide
  statTaskPrio_lt := by decide
  tmrTaskPrio_lt := by decide
  tickWheelSize_pos := by decide
  msgPoolSize_pos := by decide

/-- The global variables. `tsNow` is what `OS_TS_GET()` reads, and `cont` says where each task is
inside the kernel. -/
structure OS where
  tcb : TcbId → TCB
  obj : ObjId → Obj
  pendData : PdId → PendData
  msg : MsgId → Msg
  msgPool : MsgPool
  prioTbl : ℕ → BitVec 32
  rdyList : ℕ → RdyList
  tickWheel : ℕ → TickSpoke
  tickCtr : Tick
  tcbCurPtr : Option TcbId
  tcbHighRdyPtr : Option TcbId
  prioCur : ℕ
  prioHighRdy : ℕ
  intNestingCtr : ℕ
  schedLockNestingCtr : ℕ
  running : Bool
  schedRoundRobinEn : Bool
  schedRoundRobinDfltTimeQuanta : Tick
  tmrUpdateCtr : BitVec 32
  tmrUpdateCnt : BitVec 32
  tsNow : ℕ
  cont : TcbId → Cont

/-- What a call gives back: the error code, and the values returned or stored through pointers. -/
structure Ret where
  err : Err
  val : ℕ := 0
  msgPtr : Option ℕ := none
  msgSize : ℕ := 0
  ts : ℕ := 0
deriving DecidableEq

def idleTaskTCB : TcbId := 0
def tickTaskTCB : TcbId := 1
def statTaskTCB : TcbId := 2
def tmrTaskTCB : TcbId := 3

abbrev K := Prog Cfg OS

def objQtyInc (k : ℕ) : K ℕ := Prog.count ((k + 1) % 65536) (k + 1)

def objQtyDec (k : ℕ) : K ℕ := Prog.count ((k + 65535) % 65536) (k - 1)

namespace OS

def modTcb (s : OS) (t : TcbId) (f : TCB → TCB) : OS :=
  { s with tcb := Function.update s.tcb t (f (s.tcb t)) }

def modObj (s : OS) (o : ObjId) (f : Obj → Obj) : OS :=
  { s with obj := Function.update s.obj o (f (s.obj o)) }

def modPendData (s : OS) (d : PdId) (f : PendData → PendData) : OS :=
  { s with pendData := Function.update s.pendData d (f (s.pendData d)) }

def modMsg (s : OS) (m : MsgId) (f : Msg → Msg) : OS :=
  { s with msg := Function.update s.msg m (f (s.msg m)) }

def modRdyList (s : OS) (p : ℕ) (f : RdyList → RdyList) : OS :=
  { s with rdyList := Function.update s.rdyList p (f (s.rdyList p)) }

def modPrioTbl (s : OS) (ix : ℕ) (f : BitVec 32 → BitVec 32) : OS :=
  { s with prioTbl := Function.update s.prioTbl ix (f (s.prioTbl ix)) }

def modSpoke (s : OS) (i : ℕ) (f : TickSpoke → TickSpoke) : OS :=
  { s with tickWheel := Function.update s.tickWheel i (f (s.tickWheel i)) }

section fields

variable (s : OS) (t t' : TcbId) (o o' : ObjId) (d d' : PdId) (p p' i i' : ℕ)

theorem modTcb_tcb (f : TCB → TCB) : (s.modTcb t f).tcb t' = if t' = t then f (s.tcb t) else s.tcb t' := by
  simp [modTcb, Function.update_apply]

theorem each_modTcb {s : OS} {t : TcbId} {γ : Type} (g : TCB → γ) {f : TCB → TCB} (hf : g (f (s.tcb t)) = g (s.tcb t)) :
    (fun y => g ((s.modTcb t f).tcb y)) = fun y => g (s.tcb y) := by
  funext y
  rw [modTcb_tcb]
  split
  · rename_i h
    rw [h]
    exact hf
  · rfl

theorem modObj_obj (f : Obj → Obj) : (s.modObj o f).obj o' = if o' = o then f (s.obj o) else s.obj o' := by
  simp [modObj, Function.update_apply]

theorem modPendData_pendData (f : PendData → PendData) :
    (s.modPendData d f).pendData d' = if d' = d then f (s.pendData d) else s.pendData d' := by
  simp [modPendData, Function.update_apply]

theorem modRdyList_rdyList (f : RdyList → RdyList) :
    (s.modRdyList p f).rdyList p' = if p' = p then f (s.rdyList p) else s.rdyList p' := by
  simp [modRdyList, Function.update_apply]

theorem modSpoke_tickWheel (f : TickSpoke → TickSpoke) :
    (s.modSpoke i f).tickWheel i' = if i' = i then f (s.tickWheel i) else s.tickWheel i' := by
  simp [modSpoke, Function.update_apply]

end fields

end OS

def getTcb (t : TcbId) : K TCB := do return (← Prog.get).tcb t

def modTcb (t : TcbId) (f : TCB → TCB) : K Unit := Prog.modify fun s => s.modTcb t f

def getObj (o : ObjId) : K Obj := do return (← Prog.get).obj o

def modObj (o : ObjId) (f : Obj → Obj) : K Unit := Prog.modify fun s => s.modObj o f

def getPendData (d : PdId) : K PendData := do return (← Prog.get).pendData d

def modPendData (d : PdId) (f : PendData → PendData) : K Unit := Prog.modify fun s => s.modPendData d f

def getMsg (m : MsgId) : K Msg := do return (← Prog.get).msg m

def modMsg (m : MsgId) (f : Msg → Msg) : K Unit := Prog.modify fun s => s.modMsg m f

def getRdyList (p : ℕ) : K RdyList := do
  if p < (← Prog.ask).prioMax then return (← Prog.get).rdyList p else Prog.fault

def modRdyList (p : ℕ) (f : RdyList → RdyList) : K Unit := do
  if p < (← Prog.ask).prioMax then Prog.modify fun s => s.modRdyList p f else Prog.fault

def getSpoke (i : ℕ) : K TickSpoke := do return (← Prog.get).tickWheel i

def modSpoke (i : ℕ) (f : TickSpoke → TickSpoke) : K Unit := Prog.modify fun s => s.modSpoke i f

section wp

open Prog

variable {n : Bound} {cfg : Cfg} {s : OS}

@[simp] theorem wp_getTcb {t : TcbId} {Q : TCB → OS → Prop} : wp n cfg (getTcb t) Q s ↔ Q (s.tcb t) s := by
  simp [getTcb]

@[simp] theorem wp_modTcb {t : TcbId} {f : TCB → TCB} {Q : Unit → OS → Prop} :
    wp n cfg (modTcb t f) Q s ↔ Q () (s.modTcb t f) := by
  simp [modTcb]

@[simp] theorem wp_getObj {o : ObjId} {Q : Obj → OS → Prop} : wp n cfg (getObj o) Q s ↔ Q (s.obj o) s := by
  simp [getObj]

@[simp] theorem wp_modObj {o : ObjId} {f : Obj → Obj} {Q : Unit → OS → Prop} :
    wp n cfg (modObj o f) Q s ↔ Q () (s.modObj o f) := by
  simp [modObj]

@[simp] theorem wp_getPendData {d : PdId} {Q : PendData → OS → Prop} :
    wp n cfg (getPendData d) Q s ↔ Q (s.pendData d) s := by
  simp [getPendData]

@[simp] theorem wp_modPendData {d : PdId} {f : PendData → PendData} {Q : Unit → OS → Prop} :
    wp n cfg (modPendData d f) Q s ↔ Q () (s.modPendData d f) := by
  simp [modPendData]

@[simp] theorem wp_getRdyList {p : ℕ} {Q : RdyList → OS → Prop} :
    wp n cfg (getRdyList p) Q s ↔ (p < cfg.prioMax → Q (s.rdyList p) s) := by
  simp [getRdyList]

@[simp] theorem wp_modRdyList {p : ℕ} {f : RdyList → RdyList} {Q : Unit → OS → Prop} :
    wp n cfg (modRdyList p f) Q s ↔ (p < cfg.prioMax → Q () (s.modRdyList p f)) := by
  simp [modRdyList]

@[simp] theorem wp_getSpoke {i : ℕ} {Q : TickSpoke → OS → Prop} :
    wp n cfg (getSpoke i) Q s ↔ Q (s.tickWheel i) s := by
  simp [getSpoke]

@[simp] theorem wp_modSpoke {i : ℕ} {f : TickSpoke → TickSpoke} {Q : Unit → OS → Prop} :
    wp n cfg (modSpoke i f) Q s ↔ Q () (s.modSpoke i f) := by
  simp [modSpoke]

@[simp] theorem wp_objQtyInc {n k : ℕ} {Q : ℕ → OS → Prop} : wp n cfg (objQtyInc k) Q s ↔ Q (k + 1) s := wp_count

@[simp] theorem wp_objQtyDec {n k : ℕ} {Q : ℕ → OS → Prop} : wp n cfg (objQtyDec k) Q s ↔ Q (k - 1) s := wp_count

end wp

section Keeps

open Prog

variable {γ : Type} {v : OS → γ}

@[simp, grind ←] theorem keeps_getTcb (t : TcbId) : Keeps v (getTcb t) := by grind [getTcb]

@[simp, grind ←] theorem keeps_getObj (o : ObjId) : Keeps v (getObj o) := by grind [getObj]

@[simp, grind ←] theorem keeps_getPendData (d : PdId) : Keeps v (getPendData d) := by grind [getPendData]

@[simp, grind ←] theorem keeps_getRdyList (p : ℕ) : Keeps v (getRdyList p) := by grind [getRdyList]

@[simp, grind ←] theorem keeps_getSpoke (i : ℕ) : Keeps v (getSpoke i) := by grind [getSpoke]

@[simp, grind ←] theorem keeps_getMsg (m : MsgId) : Keeps v (getMsg m) := by grind [getMsg]

@[simp, grind ←] theorem keeps_objQtyInc (k : ℕ) : Keeps v (objQtyInc k) := keeps_count _ _

@[simp, grind ←] theorem keeps_objQtyDec (k : ℕ) : Keeps v (objQtyDec k) := keeps_count _ _

end Keeps

def getCur : K TcbId := do Prog.deref (← Prog.get).tcbCurPtr

def tsGet : K ℕ := do return (← Prog.get).tsNow

@[simp] theorem wp_getCur {n : Prog.Bound} {cfg : Cfg} {s : OS} {Q : TcbId → OS → Prop} :
    Prog.wp n cfg getCur Q s ↔ ∀ t, s.tcbCurPtr = some t → Q t s := by
  simp [getCur]

@[simp] theorem wp_tsGet {n : Prog.Bound} {cfg : Cfg} {s : OS} {Q : ℕ → OS → Prop} :
    Prog.wp n cfg tsGet Q s ↔ Q s.tsNow s := by
  simp [tsGet]

@[simp, grind ←] theorem keeps_getCur {γ : Type} {v : OS → γ} : Prog.Keeps v getCur := by grind [getCur]

@[simp, grind ←] theorem keeps_tsGet {γ : Type} {v : OS → γ} : Prog.Keeps v tsGet := by grind [tsGet]

end UcosIII
