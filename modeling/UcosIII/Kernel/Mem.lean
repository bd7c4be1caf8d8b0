import UcosIII.Lib.Program
import UcosIII.Kernel.Types

/-!
Memory partitions (`os_mem.c`). The free blocks of a partition are linked through their own first bytes, so the model
has the bytes of the memory.
-/

namespace UcosIII

abbrev Addr := BitVec 32

abbrev MemId := ℕ

structure Mem where
  isMem : Bool
  addrPtr : Addr
  freeListPtr : Addr
  blkSize : BitVec 16
  nbrMax : BitVec 16
  nbrFree : BitVec 16
  dbgPrevPtr : Option MemId
  dbgNextPtr : Option MemId

/-- The memory, the partitions, and the variables of the kernel that the partitions need. -/
structure MemSys where
  byte : Addr → BitVec 8
  mem : MemId → Mem
  memQty : BitVec 16
  memDbgListPtr : Option MemId
  intNestingCtr : ℕ

namespace MemSys

variable (s : MemSys)

/-- `*(void **)p`: a pointer has four bytes, the least significant first. -/
def readPtr (p : Addr) : Addr := s.byte (p + 3) ++ s.byte (p + 2) ++ s.byte (p + 1) ++ s.byte p

def writePtr (p v : Addr) : MemSys :=
  { s with byte := fun a =>
      if a = p then v.extractLsb' 0 8 else if a = p + 1 then v.extractLsb' 8 8
      else if a = p + 2 then v.extractLsb' 16 8 else if a = p + 3 then v.extractLsb' 24 8 else s.byte a }

def modMem (q : MemId) (f : Mem → Mem) : MemSys := { s with mem := Function.update s.mem q (f (s.mem q)) }

end MemSys

abbrev MemProg := Prog Unit MemSys

def loadPtr (p : Addr) : MemProg Addr := do
  if p = 0 then Prog.fault
  else return (← Prog.get).readPtr p

def storePtr (p v : Addr) : MemProg Unit := do
  if p = 0 then Prog.fault
  else Prog.modify fun s => s.writePtr p v

def modMem (q : MemId) (f : Mem → Mem) : MemProg Unit := Prog.modify fun s => s.modMem q f

def memDbgListAdd (q : MemId) : MemProg Unit := do
  modMem q fun m => { m with dbgPrevPtr := none }
  match (← Prog.get).memDbgListPtr with
  | none => modMem q fun m => { m with dbgNextPtr := none }
  | some d =>
    modMem q fun m => { m with dbgNextPtr := some d }
    modMem d fun m => { m with dbgPrevPtr := some q }
  Prog.modify fun s => { s with memDbgListPtr := some q }

def alignMsk : BitVec 32 := 3

def memCreateCheck (addr : Addr) (nBlks blkSize : BitVec 16) : Option Err :=
  if addr = 0 then some .memInvalidPAddr
  else if nBlks < 2 then some .memInvalidBlks
  else if blkSize < 4 then some .memInvalidSize
  else if addr &&& alignMsk ≠ 0 then some .memInvalidPAddr
  else if blkSize.setWidth 32 &&& alignMsk ≠ 0 then some .memInvalidSize
  else none

/-- The loop of `OSMemCreate` with `loops` turns left, where `p_link` and `p_blk` are the last block reached. -/
def memCreateLoop (blkSize : BitVec 16) : ℕ → Addr → MemProg Addr
  | 0, link => return link
  | loops + 1, link => do
    let blk := link + blkSize.setWidth 32
    storePtr link blk
    memCreateLoop blkSize loops blk

def osMemCreate (q : MemId) (addr : Addr) (nBlks blkSize : BitVec 16) : MemProg Err := do
  if (← Prog.get).intNestingCtr > 0 then return .memCreateISR
  match memCreateCheck addr nBlks blkSize with
  | some e => return e
  | none =>
    let link ← memCreateLoop blkSize (nBlks - 1).toNat addr
    storePtr link 0
    modMem q fun m =>
      { m with isMem := true, addrPtr := addr, freeListPtr := addr, nbrFree := nBlks, nbrMax := nBlks, blkSize := blkSize }
    memDbgListAdd q
    Prog.modify fun s => { s with memQty := s.memQty + 1 }
    return .none

def osMemGet (p : Option MemId) : MemProg (Addr × Err) := do
  match p with
  | none => return (0, .memInvalidPMem)
  | some q =>
    let m := (← Prog.get).mem q
    if m.nbrFree = 0 then return (0, .memNoFreeBlks)
    let blk := m.freeListPtr
    let next ← loadPtr blk
    modMem q fun m => { m with freeListPtr := next, nbrFree := m.nbrFree - 1 }
    return (blk, .none)

def osMemPut (p : Option MemId) (blk : Addr) : MemProg Err := do
  match p with
  | none => return .memInvalidPMem
  | some q =>
    if blk = 0 then return .memInvalidPBlk
    let m := (← Prog.get).mem q
    if m.nbrFree ≥ m.nbrMax then return .memFull
    storePtr blk m.freeListPtr
    modMem q fun m => { m with freeListPtr := blk, nbrFree := m.nbrFree + 1 }
    return .none

end UcosIII
