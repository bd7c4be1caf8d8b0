import UcosIII.Lists.Message

namespace UcosIII

open Prog Chain

inductive MsgOp where
  | put (l : QLoc) (x : Item) (opt : Opt)
  | get (l : QLoc)
  | freeAll (l : QLoc)

namespace MsgOp

def exec : MsgOp → K Ret
  | put l x opt => do
    let (q, e) ← msgQPut ((← Prog.get).msgQ l) x.ptr x.size opt x.ts
    Prog.modify fun s => s.setMsgQ l q
    return { err := e }
  | get l => do
    let (q, r) ← msgQGet ((← Prog.get).msgQ l)
    Prog.modify fun s => s.setMsgQ l q
    return r
  | freeAll l => do
    let (q, qty) ← msgQFreeAll ((← Prog.get).msgQ l)
    Prog.modify fun s => s.setMsgQ l q
    return { err := .none, val := qty }

def execAll : List MsgOp → K (List Ret)
  | [] => return []
  | op :: ops => do
    let r ← op.exec
    let rs ← execAll ops
    return r :: rs

end MsgOp

/-- What the queues hold, and how many messages are free. -/
structure Deques where
  contents : QLoc → List Item
  free : ℕ

namespace Deques

/-- One operation on the deques, with its answer. The deque at `l` has room for `cap l` messages. -/
def step (cap : QLoc → ℕ) (D : Deques) : MsgOp → Deques × Ret
  | .put l x opt =>
    if cap l ≤ (D.contents l).length then (D, { err := .qMax })
    else if D.free = 0 then (D, { err := .msgPoolEmpty })
    else
      ({ contents := Function.update D.contents l
          (if opt &&& optPostLifo = optPostFifo then D.contents l ++ [x] else x :: D.contents l),
         free := D.free - 1 }, { err := .none })
  | .get l =>
    match D.contents l with
    | [] => (D, { err := .qEmpty })
    | x :: L => ({ contents := Function.update D.contents l L, free := D.free + 1 }, x.ret)
  | .freeAll l =>
    ({ contents := Function.update D.contents l [], free := D.free + (D.contents l).length },
      { err := .none, val := (D.contents l).length })

def steps (cap : QLoc → ℕ) (D : Deques) : List MsgOp → Deques × List Ret
  | [] => (D, [])
  | op :: ops =>
    let (D', r) := D.step cap op
    let (D'', rs) := D'.steps cap ops
    (D'', r :: rs)

def init (N : ℕ) : Deques := ⟨fun _ => [], N⟩

end Deques

namespace OS

def queued (s : OS) (l : QLoc) : List MsgId := walk s.msgNext (s.msgQ l).nbrEntries (s.msgQ l).outPtr

def freeMsgs (s : OS) : List MsgId := walk s.msgNext s.msgPool.nbrFree s.msgPool.nextPtr

def chain (s : OS) : Option QLoc → List MsgId
  | none => s.freeMsgs
  | some l => s.queued l

end OS

/-- The state `s`, with a pool of `N` messages, is one of the deques `D`. -/
structure MsgsRefine (N : ℕ) (cap : QLoc → ℕ) (s : OS) (D : Deques) : Prop where
  contents : ∀ l, (s.queued l).map s.item = D.contents l
  nbr : ∀ l, (s.msgQ l).nbrEntries = (D.contents l).length
  last : ∀ l, (s.msgQ l).nbrEntries ≠ 0 → (s.msgQ l).inPtr = (s.queued l).getLast?
  size : ∀ l, (s.msgQ l).nbrEntriesSize = cap l
  nbrFree : s.msgPool.nbrFree = D.free
  free : s.freeMsgs.length = s.msgPool.nbrFree
  total : s.msgPool.nbrFree + s.msgPool.nbrUsed = N
  part : Partition N s.chain

section simulation

variable {N : ℕ} {cap : QLoc → ℕ} {C : Option QLoc → List MsgId} {cfg : Cfg} {n : ℕ} {s s' : OS} {D : Deques} {l : QLoc}

structure Deqs (N : ℕ) (cap : QLoc → ℕ) (s : OS) (C : Option QLoc → List MsgId) (D : Deques) : Prop where
  msgs : s.Msgs N C
  size : ∀ l, (s.msgQ l).nbrEntriesSize = cap l
  contents : ∀ l, D.contents l = (C (some l)).map s.item
  free : D.free = (C none).length

theorem Deqs.refines (h : Deqs N cap s C D) : MsgsRefine N cap s D := by
  have hq : ∀ l, s.queued l = C (some l) := by
    intro l
    rw [OS.queued, h.msgs.nbr]
    exact (h.msgs.leads l).walk_eq
  have hf : s.freeMsgs = C none := by
    rw [OS.freeMsgs, h.msgs.nbrFree]
    exact h.msgs.free.walk_eq
  have hc : s.chain = C := by
    funext c
    cases c with
    | none => exact hf
    | some l => exact hq l
  refine ⟨fun l => ?_, fun l => ?_, fun l hne => ?_, h.size, ?_, ?_, h.msgs.total, ?_⟩
  · rw [hq, h.contents]
  · rw [h.msgs.nbr, h.contents, List.length_map]
  · rw [hq]
    apply h.msgs.last
    rw [h.msgs.nbr] at hne
    intro hnil
    simp [hnil] at hne
  · rw [h.msgs.nbrFree, h.free]
  · rw [hf, h.msgs.nbrFree]
  · rw [hc]
    exact h.msgs.part

theorem Deqs.store {C' : Option QLoc → List MsgId} {D' : Deques} {q : MsgQ} (h : Deqs N cap s C D) (hsame : s.SameButMsgs s')
    (hsize : q.nbrEntriesSize = (s.msgQ l).nbrEntriesSize)
    (hm : MsgRep N s'.msgNext s'.msgPool (Function.update s.msgQ l q) C')
    (hD : ∀ l, D'.contents l = (C' (some l)).map s'.item) (hfree : D'.free = (C' none).length) :
    Deqs N cap (s'.setMsgQ l q) C' D' := by
  have hmsgQ : s'.msgQ = s.msgQ := by
    rw [hsame]
    funext l
    cases l <;> rfl
  have hitem : (s'.setMsgQ l q).item = s'.item := by cases l <;> rfl
  have hnext : (s'.setMsgQ l q).msgNext = s'.msgNext := by cases l <;> rfl
  have hpool : (s'.setMsgQ l q).msgPool = s'.msgPool := by cases l <;> rfl
  refine ⟨?_, fun l' => ?_, ?_, hfree⟩
  · rwa [OS.Msgs, hnext, hpool, OS.msgQ_setMsgQ, hmsgQ]
  · rw [OS.msgQ_setMsgQ, hmsgQ]
    by_cases hl : l' = l
    · rw [hl, Function.update_self, hsize, h.size]
    · rw [Function.update_of_ne hl, h.size]
  · rw [hitem]
    exact hD

theorem OS.setMsgQ_self (s : OS) (l : QLoc) : s.setMsgQ l (s.msgQ l) = s := by
  cases l with
  | obj o =>
    change { s with obj := Function.update s.obj o (s.obj o) } = s
    rw [Function.update_eq_self]
  | tcb t =>
    change { s with tcb := Function.update s.tcb t (s.tcb t) } = s
    rw [Function.update_eq_self]

theorem map_item_update {L : List MsgId} {m : MsgId} {x : Item} (hm : m ∉ L) :
    L.map (Function.update s.item m x) = L.map s.item := by
  apply List.map_congr_left
  intro y hy
  rw [Function.update_of_ne]
  rintro rfl
  exact hm hy

theorem Deqs.put (h : Deqs N cap s C D) (x : Item) (opt : Opt) :
    ∃ s' C', (MsgOp.put l x opt).exec n cfg s = some ((D.step cap (.put l x opt)).2, s') ∧
      Deqs N cap s' C' (D.step cap (.put l x opt)).1 ∧ ((D.step cap (.put l x opt)).2.err ≠ .none → s' = s) := by
  have hlen : (s.msgQ l).nbrEntries = (D.contents l).length := by rw [h.msgs.nbr, h.contents, List.length_map]
  have hexec {q : MsgQ} {e : Err} {s' : OS} (hrun : msgQPut (s.msgQ l) x.ptr x.size opt x.ts n cfg s = some ((q, e), s')) :
      (MsgOp.put l x opt).exec n cfg s = some ({ err := e }, s'.setMsgQ l q) := by
    simp [MsgOp.exec, hrun]
  rw [Deques.step]
  split
  · rename_i hfull
    refine ⟨s, C, ?_, h, fun _ => rfl⟩
    rw [hexec (msgQPut_full (by rw [hlen, h.size]; exact hfull)), OS.setMsgQ_self]
  · rename_i hfull
    have hsize : ¬ (s.msgQ l).nbrEntries ≥ (s.msgQ l).nbrEntriesSize := by
      rw [hlen, h.size]
      exact hfull
    split
    · rename_i hz
      refine ⟨s, C, ?_, h, fun _ => rfl⟩
      have hzero : s.msgPool.nbrFree = 0 := by rw [h.msgs.nbrFree, ← h.free, hz]
      rw [hexec (msgQPut_noFree hsize hzero), OS.setMsgQ_self]
    · rename_i hz
      have hfree := h.free
      obtain ⟨m, F, hF⟩ : ∃ m F, C none = m :: F := by
        apply List.exists_cons_of_ne_nil
        intro hnil
        simp [hnil] at hfree
        exact hz hfree
      rw [hF, List.length_cons] at hfree
      obtain ⟨q, s', hrun, hsame, hq, hitem, hm⟩ :
          ∃ q s', msgQPut (s.msgQ l) x.ptr x.size opt x.ts n cfg s = some ((q, .none), s') ∧ _ := msgQPut_ok h.msgs hF hsize
      refine ⟨_, _, hexec hrun, h.store hsame hq hm (fun l' => ?_) ?_, fun hne => absurd rfl hne⟩
      · have hnot : ∀ l', m ∉ C (some l') := by
          intro l' hm'
          have := h.msgs.part.disj none (some l') m (by simp [hF]) hm'
          simp at this
        rw [hitem]
        dsimp only
        by_cases hl : l' = l
        · subst hl
          rw [Function.update_self, Function.update_self, putAt, h.contents]
          split <;> simp [map_item_update (hnot l')]
        · have hl' : some l' ≠ some l := by simpa using hl
          rw [Function.update_of_ne hl, Function.update_of_ne hl', Function.update_of_ne (by simp : some l' ≠ none),
            map_item_update (hnot l'), h.contents]
      · rw [Function.update_of_ne (by simp : (none : Option QLoc) ≠ some l), Function.update_self]
        change D.free - 1 = F.length
        omega

theorem Deqs.get (h : Deqs N cap s C D) :
    ∃ s' C', (MsgOp.get l).exec n cfg s = some ((D.step cap (.get l)).2, s') ∧
      Deqs N cap s' C' (D.step cap (.get l)).1 := by
  have hD := h.contents l
  have hexec {q : MsgQ} {r : Ret} {s' : OS} (hrun : msgQGet (s.msgQ l) n cfg s = some ((q, r), s')) :
      (MsgOp.get l).exec n cfg s = some (r, s'.setMsgQ l q) := by
    simp [MsgOp.exec, hrun]
  rw [Deques.step]
  cases hL : C (some l) with
  | nil =>
    rw [hL] at hD
    have hz : (s.msgQ l).nbrEntries = 0 := by rw [h.msgs.nbr, hL, List.length_nil]
    rw [hD]
    refine ⟨s, C, ?_, h⟩
    rw [hexec (msgQGet_empty hz), OS.setMsgQ_self]
    rfl
  | cons m L =>
    rw [hL] at hD
    obtain ⟨q, s', hrun, hsame, hq, hitem, hm⟩ :
      ∃ q s', msgQGet (s.msgQ l) n cfg s = some ((q, (s.item m).ret), s') ∧ _ := msgQGet_ok h.msgs hL
    rw [hD]
    refine ⟨_, _, hexec hrun, h.store hsame hq hm (fun l' => ?_) ?_⟩
    · rw [hitem, Function.update_of_ne (by simp : some l' ≠ none)]
      by_cases hl : l' = l
      · subst hl
        simp
      · have hl' : some l' ≠ some l := by simpa using hl
        simp only [List.map_cons]
        rw [Function.update_of_ne hl, Function.update_of_ne hl', h.contents]
    · rw [Function.update_self, List.length_cons, ← h.free]
      rfl

theorem Deqs.freeAll (h : Deqs N cap s C D) :
    ∃ s' C', (MsgOp.freeAll l).exec n cfg s = some ((D.step cap (.freeAll l)).2, s') ∧
      Deqs N cap s' C' (D.step cap (.freeAll l)).1 := by
  have hlen : (C (some l)).length = (D.contents l).length := by rw [h.contents, List.length_map]
  have hexec {q : MsgQ} {k : ℕ} {s' : OS} (hrun : msgQFreeAll (s.msgQ l) n cfg s = some ((q, k), s')) :
      (MsgOp.freeAll l).exec n cfg s = some ({ err := .none, val := k }, s'.setMsgQ l q) := by
    simp [MsgOp.exec, hrun]
  rw [Deques.step]
  by_cases hL : C (some l) = []
  · have hD : D.contents l = [] := by rw [h.contents, hL, List.map_nil]
    have hz : (s.msgQ l).nbrEntries = 0 := by rw [h.msgs.nbr, hL, List.length_nil]
    refine ⟨s, C, ?_, h.msgs, h.size, fun l' => ?_, ?_⟩
    · rw [hexec (msgQFreeAll_empty hz), OS.setMsgQ_self, hD]
      rfl
    · rw [← h.contents]
      dsimp only
      rw [← hD, Function.update_eq_self]
    · rw [← h.free, hD]
      rfl
  · obtain ⟨q, s', hrun, hsame, hq, hitem, hm⟩ :
      ∃ q s', msgQFreeAll (s.msgQ l) n cfg s = some ((q, (C (some l)).length), s') ∧ _ := msgQFreeAll_ok h.msgs hL
    rw [← hlen]
    refine ⟨_, _, hexec hrun, h.store hsame hq hm (fun l' => ?_) ?_⟩
    · rw [hitem, Function.update_of_ne (by simp : some l' ≠ none)]
      by_cases hl : l' = l
      · subst hl
        simp
      · have hl' : some l' ≠ some l := by simpa using hl
        dsimp only
        rw [Function.update_of_ne hl, Function.update_of_ne hl', h.contents]
    · rw [Function.update_self, List.length_append, ← h.free]
      exact Nat.add_comm _ _

theorem Deqs.step (h : Deqs N cap s C D) (op : MsgOp) :
    ∃ s' C', op.exec n cfg s = some ((D.step cap op).2, s') ∧ Deqs N cap s' C' (D.step cap op).1 ∧
      ((D.step cap op).2.err = .qMax ∨ (D.step cap op).2.err = .msgPoolEmpty → s' = s) := by
  cases op with
  | put l x opt =>
    obtain ⟨s', C', hrun, h', hno⟩ := h.put (l := l) (n := n) x opt
    refine ⟨s', C', hrun, h', fun he => hno ?_⟩
    rcases he with he | he <;> simp [he]
  | get l =>
    obtain ⟨s', C', hrun, h'⟩ := h.get (l := l) (n := n)
    refine ⟨s', C', hrun, h', fun he => ?_⟩
    rw [Deques.step] at he
    cases hD : D.contents l <;> simp [hD, Item.ret] at he
  | freeAll l =>
    obtain ⟨s', C', hrun, h'⟩ := h.freeAll (l := l) (n := n)
    exact ⟨s', C', hrun, h', fun he => by simp [Deques.step] at he⟩

theorem Deqs.steps (h : Deqs N cap s C D) (ops : List MsgOp) :
    ∃ s' C', MsgOp.execAll ops n cfg s = some ((D.steps cap ops).2, s') ∧ Deqs N cap s' C' (D.steps cap ops).1 := by
  induction ops generalizing s C D with
  | nil => exact ⟨s, C, rfl, h⟩
  | cons op ops ih =>
    obtain ⟨s₁, C₁, hrun, h₁, -⟩ : ∃ s₁ C₁, op.exec n cfg s = some ((D.step cap op).2, s₁) ∧ _ := h.step op
    obtain ⟨s', C', hruns, h'⟩ := ih h₁
    refine ⟨s', C', ?_, h'⟩
    simp [MsgOp.execAll, hrun, hruns, Deques.steps]

end simulation

section initial

variable {cfg : Cfg} {s : OS} {n : ℕ} {cap : QLoc → ℕ}

/-- Every queue is empty and has room for `cap` messages. -/
def OS.initQueues (s : OS) (cap : QLoc → ℕ) : OS :=
  { s with
    obj := fun o => { s.obj o with msgQ := MsgQ.init (cap (.obj o)) }
    tcb := fun t => { s.tcb t with msgQ := MsgQ.init (cap (.tcb t)) } }

theorem msgPoolInit_run : ∃ s' C, msgPoolInit n cfg (s.initQueues cap) = some ((), s') ∧
    Deqs cfg.msgPoolSize cap s' C (Deques.init cfg.msgPoolSize) := by
  have hpos := cfg.msgPoolSize_pos
  obtain ⟨s₁, hrun, hsame, -, hlead, -⟩ :
    ∃ s₁, msgPoolCreateLoop (cfg.msgPoolSize - 1) 0 n cfg (s.initQueues cap) = some ((), s₁) ∧ _ :=
      msgPoolCreateLoop_run (cfg.msgPoolSize - 1) 0
  rw [Nat.sub_add_cancel hpos, ← List.range_eq_range'] at hlead
  let s' : OS := { s₁ with
    msgPool := { nextPtr := some 0, nbrFree := cfg.msgPoolSize, nbrUsed := 0, nbrUsedMax := 0 } }
  have hq : ∀ l, s'.msgQ l = MsgQ.init (cap l) := by
    intro l
    have hl : s'.msgQ l = s₁.msgQ l := by cases l <;> rfl
    rw [hl, hsame]
    cases l <;> rfl
  refine ⟨s', fun c => if c = none then List.range cfg.msgPoolSize else [], ?_, MsgRep.fresh hlead hq, fun l => ?_,
    fun l => rfl, ?_⟩
  · simp only [msgPoolInit, msgPoolCreate, bind_apply, ask_apply, Option.bind_some, hrun, modMsgPool, modify_apply]
    rfl
  · exact congrArg MsgQ.nbrEntriesSize (hq l)
  · simp [Deques.init]

/-- From the initialisation on, every sequence of operations runs to its end, answers as the deques do and leaves
what they become. A put that is refused then changes nothing. -/
theorem msgQueues_refine (cfg : Cfg) (s : OS) (cap : QLoc → ℕ) (ops : List MsgOp) : ∃ s₀ s',
    Prog.Runs cfg msgPoolInit (s.initQueues cap) () s₀ ∧
    Prog.Runs cfg (MsgOp.execAll ops) s₀ ((Deques.init cfg.msgPoolSize).steps cap ops).2 s' ∧
    MsgsRefine cfg.msgPoolSize cap s' ((Deques.init cfg.msgPoolSize).steps cap ops).1 ∧
    ∀ op r s'', Prog.Runs cfg (MsgOp.exec op) s' r s'' → r.err = .qMax ∨ r.err = .msgPoolEmpty → s'' = s' := by
  obtain ⟨s₀, C₀, hinit, h₀⟩ : ∃ s₀ C₀, msgPoolInit 0 cfg (s.initQueues cap) = some ((), s₀) ∧ _ := msgPoolInit_run
  obtain ⟨s', C, hrun, h⟩ : ∃ s' C, MsgOp.execAll ops 0 cfg s₀ = some (_, s') ∧ _ := h₀.steps ops
  refine ⟨s₀, s', ⟨0, hinit⟩, ⟨0, hrun⟩, h.refines, ?_⟩
  rintro op r s'' ⟨n, hn⟩ he
  obtain ⟨s₁, C₁, hrun₁, -, hno⟩ : ∃ s₁ C₁, op.exec n cfg s' = some (_, s₁) ∧ _ := h.step op
  rw [hn] at hrun₁
  cases hrun₁
  exact hno he

end initial

end UcosIII
