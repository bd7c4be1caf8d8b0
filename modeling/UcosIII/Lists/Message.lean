import UcosIII.Kernel.Message
import UcosIII.Lib.Chain

namespace UcosIII

open Prog Chain

variable {N : ℕ} {next : MsgId → Option MsgId} {pool : MsgPool} {Q : QLoc → MsgQ} {C : Option QLoc → List MsgId}
  {l : QLoc} {m : MsgId} {L F : List MsgId}

structure MsgRep (N : ℕ) (next : MsgId → Option MsgId) (pool : MsgPool) (Q : QLoc → MsgQ) (C : Option QLoc → List MsgId) :
    Prop where
  leads : ∀ l, Leads next (Q l).outPtr (C (some l))
  last : ∀ l, C (some l) ≠ [] → (Q l).inPtr = (C (some l)).getLast?
  nbr : ∀ l, (Q l).nbrEntries = (C (some l)).length
  free : Leads next pool.nextPtr (C none)
  nbrFree : pool.nbrFree = (C none).length
  total : pool.nbrFree + pool.nbrUsed = N
  part : Partition N C

namespace MsgRep

theorem put {next' : MsgId → Option MsgId} {q : MsgQ} {k : ℕ} (h : MsgRep N next pool Q C) (hF : C none = m :: F)
    (hL : L.Perm (m :: C (some l))) (hout : Leads next' q.outPtr L) (hin : q.inPtr = L.getLast?)
    (hnbr : q.nbrEntries = (Q l).nbrEntries + 1)
    (hnext : ∀ x, x ≠ m → x ∉ C (some l) → next' x = next x) :
    MsgRep N next' { nextPtr := next m, nbrFree := pool.nbrFree - 1, nbrUsed := pool.nbrUsed + 1, nbrUsedMax := k }
      (Function.update Q l q) (Function.update (Function.update C none F) (some l) L) := by
  have hnd : m ∉ F := by
    have := h.part.nodup none
    rw [hF] at this
    exact (List.nodup_cons.mp this).1
  have hother : ∀ c x, c ≠ some l → x ∈ C c → x ≠ m → next' x = next x := by
    intro c x hc hx hxm
    apply hnext x hxm
    intro hx'
    exact hc (h.part.disj c (some l) x hx hx')
  have hfree := h.free
  have hcount := h.nbrFree
  rw [hF] at hfree
  rw [hF, List.length_cons] at hcount
  have hl : Function.update (Function.update C none F) (some l) L (some l) = L := by simp
  have hne : ∀ l' ≠ l, Function.update (Function.update C none F) (some l) L (some l') = C (some l') := by
    intro l' hl'
    simp [hl']
  have hnone : Function.update (Function.update C none F) (some l) L none = F := by simp
  refine ⟨fun l' => ?_, fun l' hL' => ?_, fun l' => ?_, ?_, ?_, ?_, ?_⟩
  · by_cases hl' : l' = l
    · rw [hl', hl, Function.update_self]
      exact hout
    · rw [hne l' hl', Function.update_of_ne hl']
      apply (h.leads l').congr
      intro x hx
      apply hother (some l') x (by simpa using hl') hx
      rintro rfl
      have := h.part.disj (some l') none x hx (by simp [hF])
      simp at this
  · by_cases hl' : l' = l
    · rw [hl', hl, Function.update_self]
      exact hin
    · rw [hne l' hl'] at hL' ⊢
      rw [Function.update_of_ne hl']
      exact h.last l' hL'
  · by_cases hl' : l' = l
    · rw [hl', hl, Function.update_self, hL.length_eq, hnbr, h.nbr, List.length_cons]
    · rw [hne l' hl', Function.update_of_ne hl']
      exact h.nbr l'
  · rw [hnone]
    apply hfree.2.congr
    intro x hx
    apply hother none x (by simp) (by simp [hF, hx])
    rintro rfl
    exact hnd hx
  · rw [hnone]
    change pool.nbrFree - 1 = F.length
    omega
  · have := h.total
    change pool.nbrFree - 1 + (pool.nbrUsed + 1) = N
    omega
  · exact h.part.move (A := [m]) hF (by simp) hL

theorem give {next' : MsgId → Option MsgId} {q : MsgQ} {pool' : MsgPool} {A : List MsgId} (h : MsgRep N next pool Q C)
    (hA : C (some l) = A ++ L) (hout : Leads next' q.outPtr L) (hin : L ≠ [] → q.inPtr = L.getLast?)
    (hnbr : q.nbrEntries = L.length) (hfree : Leads next' pool'.nextPtr (A ++ C none))
    (hpool : pool'.nbrFree = pool.nbrFree + A.length ∧ pool'.nbrUsed = pool.nbrUsed - A.length)
    (hnext : ∀ x, x ∉ A → next' x = next x) :
    MsgRep N next' pool' (Function.update Q l q)
      (Function.update (Function.update C (some l) L) none (A ++ C none)) := by
  have hcount := h.nbrFree
  have hl : Function.update (Function.update C (some l) L) none (A ++ C none) (some l) = L := by simp
  have hne : ∀ l' ≠ l, Function.update (Function.update C (some l) L) none (A ++ C none) (some l') = C (some l') := by
    intro l' hl'
    simp [hl']
  refine ⟨fun l' => ?_, fun l' hL' => ?_, fun l' => ?_, ?_, ?_, ?_, ?_⟩
  · by_cases hl' : l' = l
    · rw [hl', hl, Function.update_self]
      exact hout
    · rw [hne l' hl', Function.update_of_ne hl']
      apply (h.leads l').congr
      intro x hx
      apply hnext
      intro hxA
      have := h.part.disj (some l') (some l) x hx (by simp [hA, hxA])
      exact hl' (Option.some_inj.mp this)
  · by_cases hl' : l' = l
    · rw [hl', hl] at hL' ⊢
      rw [Function.update_self]
      exact hin hL'
    · rw [hne l' hl'] at hL' ⊢
      rw [Function.update_of_ne hl']
      exact h.last l' hL'
  · by_cases hl' : l' = l
    · rw [hl', hl, Function.update_self]
      exact hnbr
    · rw [hne l' hl', Function.update_of_ne hl']
      exact h.nbr l'
  · rw [Function.update_self]
    exact hfree
  · rw [Function.update_self, List.length_append, hpool.1]
    omega
  · -- the messages of the queue have been counted as used
    have htotal := h.total
    have hle := h.part.length_add_le (c := none) (by simp : none ≠ some l)
    rw [hA, List.length_append] at hle
    omega
  · exact h.part.move hA (by simp) (List.Perm.refl _)

theorem fresh {k : ℕ} {cap : QLoc → ℕ} (hnext : Leads next (some 0) (List.range N)) (hQ : ∀ l, Q l = MsgQ.init (cap l)) :
    MsgRep N next { nextPtr := some 0, nbrFree := N, nbrUsed := 0, nbrUsedMax := k } Q
      (fun c => if c = none then List.range N else []) := by
  refine ⟨fun l => ?_, fun l hne => ?_, fun l => ?_, ?_, ?_, rfl, fun c => ?_, fun c c' x hx hx' => ?_, fun x => ?_⟩
  · trivial
  · exact absurd rfl hne
  · rw [hQ]
    rfl
  · exact hnext
  · simp
  · split
    · exact List.nodup_range
    · exact List.nodup_nil
  · split at hx <;> split at hx'
    · rename_i hc hc'
      rw [hc, hc']
    all_goals simp at hx hx'
  · constructor
    · intro hx
      exact ⟨none, by simpa using hx⟩
    · rintro ⟨c, hx⟩
      split at hx
      · simpa using hx
      · simp at hx

end MsgRep

structure Item where
  ptr : Option ℕ
  size : ℕ
  ts : ℕ
deriving DecidableEq

namespace OS

def msgNext (s : OS) (m : MsgId) : Option MsgId := (s.msg m).nextPtr

def item (s : OS) (m : MsgId) : Item := ⟨(s.msg m).msgPtr, (s.msg m).msgSize, (s.msg m).msgTS⟩

def link (s : OS) (m : MsgId) (p : Option MsgId) : OS := s.modMsg m fun g => { g with nextPtr := p }

def fill (s : OS) (m : MsgId) (x : Item) : OS := s.modMsg m fun g => { g with msgPtr := x.ptr, msgSize := x.size, msgTS := x.ts }

def takeFree (s : OS) (m : MsgId) : OS :=
  { s with
    msgPool :=
      { nextPtr := s.msgNext m, nbrFree := s.msgPool.nbrFree - 1, nbrUsed := s.msgPool.nbrUsed + 1,
        nbrUsedMax := max s.msgPool.nbrUsedMax (s.msgPool.nbrUsed + 1) } }

@[simp] theorem msgNext_link (s : OS) (m : MsgId) (p : Option MsgId) :
    (s.link m p).msgNext = Function.update s.msgNext m p := by
  funext x
  by_cases h : x = m <;> simp [msgNext, link, modMsg, h]

@[simp] theorem item_link (s : OS) (m : MsgId) (p : Option MsgId) : (s.link m p).item = s.item := by
  funext x
  by_cases h : x = m <;> simp [item, link, modMsg, h]

@[simp] theorem msgNext_fill (s : OS) (m : MsgId) (x : Item) : (s.fill m x).msgNext = s.msgNext := by
  funext y
  by_cases h : y = m <;> simp [msgNext, fill, modMsg, h]

@[simp] theorem item_fill (s : OS) (m : MsgId) (x : Item) : (s.fill m x).item = Function.update s.item m x := by
  funext y
  by_cases h : y = m <;> simp [item, fill, modMsg, h]

@[simp] theorem msgNext_takeFree (s : OS) (m : MsgId) : (s.takeFree m).msgNext = s.msgNext := rfl

@[simp] theorem item_takeFree (s : OS) (m : MsgId) : (s.takeFree m).item = s.item := rfl

def SameButMsgs (s s' : OS) : Prop := s' = { s with msg := s'.msg, msgPool := s'.msgPool }

def Msgs (s : OS) (N : ℕ) (C : Option QLoc → List MsgId) : Prop := MsgRep N s.msgNext s.msgPool s.msgQ C

end OS

section operations

variable {cfg : Cfg} {n : ℕ} {s : OS} {x : Item} {opt : Opt}

theorem msgQPut_full {q : MsgQ} (h : q.nbrEntries ≥ q.nbrEntriesSize) :
    msgQPut q x.ptr x.size opt x.ts n cfg s = some ((q, .qMax), s) := by
  simp [msgQPut, h]

theorem msgQPut_noFree {q : MsgQ} (h : ¬ q.nbrEntries ≥ q.nbrEntriesSize) (hz : s.msgPool.nbrFree = 0) :
    msgQPut q x.ptr x.size opt x.ts n cfg s = some ((q, .msgPoolEmpty), s) := by
  simp [msgQPut, h, getMsgPool, hz]

def putAt (opt : Opt) (m : MsgId) (L : List MsgId) : List MsgId :=
  if opt &&& optPostLifo = optPostFifo then L ++ [m] else m :: L

theorem putAt_perm : (putAt opt m L).Perm (m :: L) := by
  unfold putAt
  split
  · exact List.perm_append_singleton m L
  · exact List.Perm.refl _

theorem msgQPut_run {q : MsgQ} (hsize : ¬ q.nbrEntries ≥ q.nbrEntriesSize) (hne : s.msgPool.nbrFree ≠ 0)
    (hpool : s.msgPool.nextPtr = some m) : msgQPut q x.ptr x.size opt x.ts n cfg s =
      if q.nbrEntries = 0 then
        some (({ q with inPtr := some m, outPtr := some m, nbrEntries := 1, nbrEntriesMax := max q.nbrEntriesMax 1 }, .none),
          (s.takeFree m).fill m x)
      else if opt &&& optPostLifo = optPostFifo then
        q.inPtr.map fun k =>
          (({ q with inPtr := some m, nbrEntries := q.nbrEntries + 1, nbrEntriesMax := max q.nbrEntriesMax (q.nbrEntries + 1) },
            .none), (((s.takeFree m).link k (some m)).link m none).fill m x)
      else
        some (({ q with outPtr := some m, nbrEntries := q.nbrEntries + 1,
                        nbrEntriesMax := max q.nbrEntriesMax (q.nbrEntries + 1) }, .none),
          ((s.takeFree m).link m q.outPtr).fill m x) := by
  simp only [msgQPut, if_neg hsize, getMsgPool, bind_apply, get_apply, pure_apply, Option.bind_some, Prog.ite_apply, if_neg hne,
    hpool, deref_apply, Option.map_some, getMsg, modMsgPool, modify_apply]
  split
  · rfl
  · split
    · cases q.inPtr <;> rfl
    · rfl

theorem msgQPut_ok (h : s.Msgs N C) (hF : C none = m :: F) (hsize : ¬ (s.msgQ l).nbrEntries ≥ (s.msgQ l).nbrEntriesSize) :
    ∃ q s', msgQPut (s.msgQ l) x.ptr x.size opt x.ts n cfg s = some ((q, .none), s') ∧ s.SameButMsgs s' ∧
      q.nbrEntriesSize = (s.msgQ l).nbrEntriesSize ∧ s'.item = Function.update s.item m x ∧
      MsgRep N s'.msgNext s'.msgPool (Function.update s.msgQ l q)
        (Function.update (Function.update C none F) (some l) (putAt opt m (C (some l)))) := by
  have hfree := h.free
  have hnbr := h.nbrFree
  rw [hF] at hfree
  rw [hF, List.length_cons] at hnbr
  have hm : m ∉ C (some l) := by
    intro hm
    have := h.part.disj none (some l) m (by simp [hF]) hm
    simp at this
  rw [msgQPut_run hsize (by omega) hfree.1]
  by_cases hz : (s.msgQ l).nbrEntries = 0
  · -- the message keeps the link it had
    have hL : C (some l) = [] := by
      rw [h.nbr, List.length_eq_zero_iff] at hz
      exact hz
    have hput : putAt opt m (C (some l)) = [m] := by
      rw [hL, putAt]
      split <;> rfl
    rw [if_pos hz]
    refine ⟨_, _, rfl, rfl, rfl, by simp, ?_⟩
    apply h.put hF putAt_perm
    · rw [hput]
      exact ⟨rfl, trivial⟩
    · rw [hput]
      rfl
    · rw [hz]
    · intro y _ _
      simp
  · have hL : C (some l) ≠ [] := by
      rw [h.nbr, List.length_eq_zero_iff] at hz
      exact hz
    rw [if_neg hz]
    by_cases hopt : opt &&& optPostLifo = optPostFifo
    · obtain ⟨k, hk⟩ : ∃ k, (C (some l)).getLast? = some k := Option.ne_none_iff_exists'.mp (by simpa using hL)
      have hin : (s.msgQ l).inPtr = some k := (h.last l hL).trans hk
      have hkL : k ∈ C (some l) := List.mem_of_getLast? hk
      have hkm : k ≠ m := fun hkm => hm (hkm ▸ hkL)
      have hput : putAt opt m (C (some l)) = C (some l) ++ [m] := if_pos hopt
      rw [if_pos hopt, hin]
      refine ⟨_, _, rfl, rfl, rfl, by simp, ?_⟩
      apply h.put hF putAt_perm
      · rw [hput]
        have hcomm : ((((s.takeFree m).link k (some m)).link m none).fill m x).msgNext =
            Function.update (Function.update s.msgNext m none) k (some m) := by
          simp [Function.update_comm hkm]
        have hend : Leads (Function.update s.msgNext m none) (some m) [m] := ⟨rfl, trivial⟩
        rw [hcomm]
        apply ((h.leads l).update_of_notMem hm).append_update hend (h.part.nodup _) hk
        simpa using hkm
      · rw [hput]
        simp
      · rfl
      · intro y hym hyL
        have hyk : y ≠ k := fun hyk => hyL (hyk ▸ hkL)
        simp [Function.update_of_ne hym, Function.update_of_ne hyk]
    · have hput : putAt opt m (C (some l)) = m :: C (some l) := if_neg hopt
      rw [if_neg hopt]
      refine ⟨_, _, rfl, rfl, rfl, by simp, ?_⟩
      apply h.put hF putAt_perm
      · rw [hput]
        simpa using (h.leads l).cons_update hm
      · rw [hput]
        have hlast := h.last l hL
        obtain ⟨k, hk⟩ : ∃ k, (C (some l)).getLast? = some k := Option.ne_none_iff_exists'.mp (by simpa using hL)
        simp [hlast, List.getLast?_cons, hk]
      · rfl
      · intro y hym _
        simp [Function.update_of_ne hym]

theorem msgQGet_empty {q : MsgQ} (h : q.nbrEntries = 0) : msgQGet q n cfg s = some ((q, { err := .qEmpty }), s) := by
  simp [msgQGet, h]

def Item.ret (x : Item) : Ret := { err := .none, msgPtr := x.ptr, msgSize := x.size, ts := x.ts }

theorem msgQGet_run {q : MsgQ} (hne : q.nbrEntries ≠ 0) (hout : q.outPtr = some m) : msgQGet q n cfg s =
      some ((if s.msgNext m = none then { q with outPtr := none, inPtr := none, nbrEntries := 0 }
          else { q with outPtr := s.msgNext m, nbrEntries := q.nbrEntries - 1 }, (s.item m).ret),
        { s.link m s.msgPool.nextPtr with
          msgPool :=
            { s.msgPool with nextPtr := some m, nbrFree := s.msgPool.nbrFree + 1, nbrUsed := s.msgPool.nbrUsed - 1 } }) := by
  simp only [msgQGet, if_neg hne, getMsgPool, bind_apply, get_apply, pure_apply, Option.bind_some, hout, deref_apply,
    Option.map_some, getMsg, modMsgPool, modify_apply]
  rfl

theorem msgQGet_ok (h : s.Msgs N C) (hL : C (some l) = m :: L) :
    ∃ q s', msgQGet (s.msgQ l) n cfg s = some ((q, (s.item m).ret), s') ∧ s.SameButMsgs s' ∧
      q.nbrEntriesSize = (s.msgQ l).nbrEntriesSize ∧ s'.item = s.item ∧
      MsgRep N s'.msgNext s'.msgPool (Function.update s.msgQ l q)
        (Function.update (Function.update C (some l) L) none (m :: C none)) := by
  have hlead := h.leads l
  have hnbr := h.nbr l
  have hnd := h.part.nodup (some l)
  rw [hL] at hlead hnd
  rw [hL, List.length_cons] at hnbr
  obtain ⟨hm, -⟩ := List.nodup_cons.mp hnd
  have hfree : m ∉ C none := by
    intro hm
    have := h.part.disj none (some l) m hm (by simp [hL])
    simp at this
  rw [msgQGet_run (by omega) hlead.1]
  refine ⟨_, _, rfl, rfl, ?_, OS.item_link s m s.msgPool.nextPtr, ?_⟩
  · split <;> rfl
  · have hnext : ∀ y, y ∉ [m] → (s.link m s.msgPool.nextPtr).msgNext y = s.msgNext y := by
      intro y hy
      rw [OS.msgNext_link, Function.update_of_ne (by simpa using hy)]
    have hpool : Leads (s.link m s.msgPool.nextPtr).msgNext (some m) ([m] ++ C none) := by
      rw [OS.msgNext_link]
      exact h.free.cons_update hfree
    -- the link of the last message may lead anywhere
    have hlast : L = [] ∨ s.msgNext m ≠ none := by
      cases L with
      | nil => exact .inl rfl
      | cons y L =>
        right
        rw [hlead.2.1]
        simp
    have hrest : Leads (s.link m s.msgPool.nextPtr).msgNext (s.msgNext m) L := by
      rw [OS.msgNext_link]
      exact hlead.2.update_of_notMem hm
    apply h.give (A := [m]) hL _ _ _ hpool ⟨rfl, rfl⟩ hnext
    · split
      · have := hlast.resolve_right (not_not.mpr ‹_›)
        rw [this]
        trivial
      · exact hrest
    · intro hne
      rw [if_neg (hlast.resolve_left hne)]
      have := h.last l (by simp [hL])
      rw [hL, List.getLast?_cons_of_ne_nil hne] at this
      exact this
    · split
      · rw [hlast.resolve_right (not_not.mpr ‹_›)]
        rfl
      · change (s.msgQ l).nbrEntries - 1 = L.length
        omega

theorem msgQFreeAll_empty {q : MsgQ} (h : q.nbrEntries = 0) : msgQFreeAll q n cfg s = some ((q, 0), s) := by
  simp [msgQFreeAll, h]

theorem msgQFreeAll_ok (h : s.Msgs N C) (hL : C (some l) ≠ []) :
    ∃ q s', msgQFreeAll (s.msgQ l) n cfg s = some ((q, (C (some l)).length), s') ∧ s.SameButMsgs s' ∧
      q.nbrEntriesSize = (s.msgQ l).nbrEntriesSize ∧ s'.item = s.item ∧
      MsgRep N s'.msgNext s'.msgPool (Function.update s.msgQ l q)
        (Function.update (Function.update C (some l) []) none (C (some l) ++ C none)) := by
  obtain ⟨k, hk⟩ : ∃ k, (C (some l)).getLast? = some k := Option.ne_none_iff_exists'.mp (by simpa using hL)
  have hnbr := h.nbr l
  have hpos : (s.msgQ l).nbrEntries > 0 := by
    rw [hnbr]
    exact List.length_pos_iff.mpr hL
  have hin : (s.msgQ l).inPtr = some k := (h.last l hL).trans hk
  have hfree : k ∉ C none := by
    intro hkF
    have := h.part.disj none (some l) k hkF (List.mem_of_getLast? hk)
    simp at this
  have hrun : msgQFreeAll (s.msgQ l) n cfg s =
      some (({ s.msgQ l with nbrEntries := 0, nbrEntriesMax := 0, inPtr := none, outPtr := none }, (s.msgQ l).nbrEntries),
        { s.link k s.msgPool.nextPtr with
          msgPool :=
            { s.msgPool with
              nextPtr := (s.msgQ l).outPtr, nbrUsed := s.msgPool.nbrUsed - (s.msgQ l).nbrEntries,
              nbrFree := s.msgPool.nbrFree + (s.msgQ l).nbrEntries } }) := by
    simp only [msgQFreeAll, if_pos hpos, getMsgPool, bind_apply, get_apply, pure_apply, Option.bind_some, hin, deref_apply,
      Option.map_some, modMsgPool, modify_apply]
    rfl
  rw [hrun, hnbr]
  refine ⟨_, _, rfl, rfl, rfl, OS.item_link s k s.msgPool.nextPtr, ?_⟩
  apply h.give (A := C (some l)) (List.append_nil _).symm
  · trivial
  · simp
  · rfl
  · change Leads (s.link k s.msgPool.nextPtr).msgNext (s.msgQ l).outPtr (C (some l) ++ C none)
    rw [OS.msgNext_link]
    exact (h.leads l).append_update h.free (h.part.nodup _) hk hfree
  · exact ⟨rfl, rfl⟩
  · intro y hy
    change (s.link k s.msgPool.nextPtr).msgNext y = s.msgNext y
    rw [OS.msgNext_link, Function.update_of_ne]
    rintro rfl
    exact hy (List.mem_of_getLast? hk)

end operations

section pool

variable {cfg : Cfg} {n : ℕ} {s : OS}

theorem msgPoolCreateLoop_run (k m : ℕ) : ∃ s', msgPoolCreateLoop k m n cfg s = some ((), s') ∧ s.SameButMsgs s' ∧
    s'.msgPool = s.msgPool ∧ Leads s'.msgNext (some m) (List.range' m (k + 1)) ∧ ∀ x < m, s'.msg x = s.msg x := by
  induction k generalizing m s with
  | zero =>
    refine ⟨_, rfl, rfl, rfl, ⟨rfl, trivial⟩, fun x hx => ?_⟩
    exact Function.update_of_ne (Nat.ne_of_lt hx) _ _
  | succ k ih =>
    obtain ⟨s', hrun, hsame, hpool, hlead, hlow⟩ :=
      ih (s := s.modMsg m fun _ => { nextPtr := some (m + 1), msgPtr := none, msgSize := 0, msgTS := 0 }) (m + 1)
    refine ⟨s', hrun, hsame, hpool, ⟨rfl, ?_⟩, fun x hx => ?_⟩
    · have hm : s'.msgNext m = some (m + 1) := by
        rw [OS.msgNext, hlow m (Nat.lt_succ_self m)]
        simp [OS.modMsg]
      rw [hm]
      exact hlead
    · rw [hlow x (by omega)]
      exact Function.update_of_ne (Nat.ne_of_lt hx) _ _

end pool

end UcosIII
