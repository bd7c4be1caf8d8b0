import UcosIII.Kernel.Mem
import UcosIII.Lib.LinkedList
import Mathlib.Data.BitVec
import Mathlib.Data.List.Perm.Basic
import Mathlib.Data.List.Range
import Mathlib.Algebra.Group.Nat.Defs
import Mathlib.Algebra.Order.Ring.Nat

namespace UcosIII

open Prog

variable {n : ℕ} {s s' : MemSys} {q : MemId} {a b p v : Addr}

section memory

theorem MemSys.readPtr_congr (h : ∀ i : ℕ, i < 4 → s'.byte (b + BitVec.ofNat 32 i) = s.byte (b + BitVec.ofNat 32 i)) :
    s'.readPtr b = s.readPtr b := by
  have h0 : s'.byte b = s.byte b := by simpa using h 0 (by decide)
  have h1 : s'.byte (b + 1) = s.byte (b + 1) := h 1 (by decide)
  have h2 : s'.byte (b + 2) = s.byte (b + 2) := h 2 (by decide)
  have h3 : s'.byte (b + 3) = s.byte (b + 3) := h 3 (by decide)
  rw [MemSys.readPtr, h0, h1, h2, h3]
  rfl

theorem MemSys.readPtr_writePtr (s : MemSys) (p v : Addr) : (s.writePtr p v).readPtr p = v := by
  have h1 : p + 1 ≠ p := by bv_omega
  have h2 : p + 2 ≠ p ∧ p + 2 ≠ p + 1 := by constructor <;> bv_omega
  have h3 : p + 3 ≠ p ∧ p + 3 ≠ p + 1 ∧ p + 3 ≠ p + 2 := by refine ⟨?_, ?_, ?_⟩ <;> bv_omega
  simp only [readPtr, writePtr, if_neg h1, if_neg h2.1, if_neg h2.2, if_neg h3.1, if_neg h3.2.1, if_neg h3.2.2, ↓reduceIte]
  ext i hi
  simp only [BitVec.getElem_append, BitVec.getElem_extractLsb']
  split
  · simp [BitVec.getLsbD_eq_getElem hi]
  · split
    · rw [show 8 + (i - 8) = i by omega, BitVec.getLsbD_eq_getElem hi]
    · split
      · rw [show 16 + (i - 8 - 8) = i by omega, BitVec.getLsbD_eq_getElem hi]
      · rw [show 24 + (i - 8 - 8 - 8) = i by omega, BitVec.getLsbD_eq_getElem hi]

theorem MemSys.readPtr_writePtr_of_apart (h : p.toNat + 4 ≤ b.toNat ∨ b.toNat + 4 ≤ p.toNat) (hp : p.toNat + 4 ≤ 2 ^ 32)
    (hb : b.toNat + 4 ≤ 2 ^ 32) : (s.writePtr p v).readPtr b = s.readPtr b := by
  apply MemSys.readPtr_congr
  intro i hi
  have hi' : (b + BitVec.ofNat 32 i).toNat = b.toNat + i := by
    rw [BitVec.toNat_add, BitVec.toNat_ofNat]
    omega
  have h0 : b + BitVec.ofNat 32 i ≠ p := by bv_omega
  have h1 : b + BitVec.ofNat 32 i ≠ p + 1 := by bv_omega
  have h2 : b + BitVec.ofNat 32 i ≠ p + 2 := by bv_omega
  have h3 : b + BitVec.ofNat 32 i ≠ p + 3 := by bv_omega
  simp only [writePtr, if_neg h0, if_neg h1, if_neg h2, if_neg h3]

def ptr (p : Addr) : Option Addr := if p = 0 then none else some p

def MemSys.link (s : MemSys) (b : Addr) : Option Addr := ptr (s.readPtr b)

def MemSys.freeAt (s : MemSys) (q : MemId) (k : ℕ) : Option Addr := chainAt s.link (ptr (s.mem q).freeListPtr) k

theorem MemSys.link_modMem (f : Mem → Mem) : (s.modMem q f).link = s.link := rfl

theorem MemSys.modMem_self (f : Mem → Mem) : (s.modMem q f).mem q = f (s.mem q) := Function.update_self ..

theorem ptr_of_ne (h : p ≠ 0) : ptr p = some p := if_neg h

end memory

section blocks

variable {base : Addr} {nBlks sz : BitVec 16} {i j : ℕ}

def block (base : Addr) (sz : BitVec 16) (i : ℕ) : Addr := base + BitVec.ofNat 32 (i * sz.toNat)

def blockList (base : Addr) (nBlks sz : BitVec 16) : List Addr := (List.range nBlks.toNat).map (block base sz)

/-- The area that `OSMemCreate` is given is a part of the memory, and its arguments pass the checks. -/
structure BlocksFit (base : Addr) (nBlks sz : BitVec 16) : Prop where
  base_ne : base ≠ 0
  two_le : 2 ≤ nBlks.toNat
  four_le : 4 ≤ sz.toNat
  fit : base.toNat + nBlks.toNat * sz.toNat ≤ 2 ^ 32

theorem BlocksFit.block_end (h : BlocksFit base nBlks sz) (hi : i < nBlks.toNat) :
    base.toNat + i * sz.toNat + sz.toNat ≤ 2 ^ 32 := by
  have hle : (i + 1) * sz.toNat ≤ nBlks.toNat * sz.toNat := Nat.mul_le_mul_right _ hi
  rw [Nat.succ_mul] at hle
  have := h.fit
  omega

theorem BlocksFit.block_toNat (h : BlocksFit base nBlks sz) (hi : i < nBlks.toNat) :
    (block base sz i).toNat = base.toNat + i * sz.toNat := by
  have hend := h.block_end hi
  have h4 := h.four_le
  rw [block, BitVec.toNat_add, BitVec.toNat_ofNat]
  omega

theorem BlocksFit.block_ne_zero (h : BlocksFit base nBlks sz) (hi : i < nBlks.toNat) : block base sz i ≠ 0 := by
  have hto := h.block_toNat hi
  have hb := h.base_ne
  bv_omega

theorem BlocksFit.block_apart (h : BlocksFit base nBlks sz) (hi : i < nBlks.toNat) (hj : j < nBlks.toNat) (hij : i ≠ j) :
    (block base sz i).toNat + sz.toNat ≤ (block base sz j).toNat ∨
      (block base sz j).toNat + sz.toNat ≤ (block base sz i).toNat := by
  rw [h.block_toNat hi, h.block_toNat hj]
  rcases Nat.lt_or_gt_of_ne hij with hlt | hlt
  · have hle : (i + 1) * sz.toNat ≤ j * sz.toNat := Nat.mul_le_mul_right _ hlt
    rw [Nat.succ_mul] at hle
    omega
  · have hle : (j + 1) * sz.toNat ≤ i * sz.toNat := Nat.mul_le_mul_right _ hlt
    rw [Nat.succ_mul] at hle
    omega

theorem mem_blockList : b ∈ blockList base nBlks sz ↔ ∃ i < nBlks.toNat, block base sz i = b := by
  simp [blockList]

theorem BlocksFit.blockList_nodup (h : BlocksFit base nBlks sz) : (blockList base nBlks sz).Nodup := by
  refine List.Nodup.map_on ?_ List.nodup_range
  intro i hi j hj hij
  by_contra hne
  have hapart := h.block_apart (List.mem_range.mp hi) (List.mem_range.mp hj) hne
  have h4 := h.four_le
  rw [hij] at hapart
  omega

theorem BlocksFit.link_writePtr (h : BlocksFit base nBlks sz) (hi : i < nBlks.toNat) (hj : j < nBlks.toNat) (hij : i ≠ j) :
    (s.writePtr (block base sz i) v).link (block base sz j) = s.link (block base sz j) := by
  have hapart := h.block_apart hi hj hij
  have h4 := h.four_le
  have hei := h.block_end hi
  have hej := h.block_end hj
  rw [← h.block_toNat hi] at hei
  rw [← h.block_toNat hj] at hej
  rw [MemSys.link, MemSys.readPtr_writePtr_of_apart (by omega) (by omega) (by omega)]
  rfl

end blocks

section create

variable {base : Addr} {nBlks sz : BitVec 16} {i : ℕ}

theorem block_succ (base : Addr) (sz : BitVec 16) (i : ℕ) :
    block base sz i + sz.setWidth 32 = block base sz (i + 1) := by
  rw [block, block, Nat.succ_mul, BitVec.ofNat_add, BitVec.add_assoc]
  congr 1
  congr 1
  exact (BitVec.ofNat_toNat ..).symm

def LinkedTo (base : Addr) (sz : BitVec 16) (i : ℕ) (s : MemSys) : Prop :=
  ∀ j < i, s.link (block base sz j) = some (block base sz (j + 1))

theorem LinkedTo.writePtr (h : LinkedTo base sz i s) (hfit : BlocksFit base nBlks sz) (hi : i < nBlks.toNat) :
    LinkedTo base sz i (s.writePtr (block base sz i) v) := by
  intro j hj
  rw [hfit.link_writePtr hi (by omega) (by omega)]
  exact h j hj

theorem memCreateLoop_linked (hfit : BlocksFit base nBlks sz) (k : ℕ) : ∀ (i : ℕ) (s : MemSys), i + k < nBlks.toNat →
    LinkedTo base sz i s → wp n () (memCreateLoop sz k (block base sz i)) (fun link s' => link = block base sz (i + k) ∧
      LinkedTo base sz (i + k) s') s := by
  induction k with
  | zero =>
    intro i s hi h
    exact wp_pure.mpr ⟨rfl, h⟩
  | succ k ih =>
    intro i s hi h
    have hne := hfit.block_ne_zero (i := i) (by omega)
    rw [memCreateLoop, wp_bind, storePtr, if_neg hne, wp_modify, block_succ]
    refine (ih (i + 1) _ (by omega) ?_).mono fun link s' h' => by rwa [Nat.add_right_comm] at h'
    intro j hj
    by_cases hji : j < i
    · exact (h.writePtr hfit (by omega)) j hji
    · obtain rfl : j = i := by omega
      rw [MemSys.link, MemSys.readPtr_writePtr, ptr_of_ne (hfit.block_ne_zero (by omega))]

theorem LinkedTo.threaded (h : LinkedTo base sz (nBlks.toNat - 1) s) (hlast : s.link (block base sz (nBlks.toNat - 1)) = none)
    (k i : ℕ) (hik : i + k = nBlks.toNat) (hk : 0 < k) :
    Threaded s.link (some (block base sz i)) ((List.range' i k).map (block base sz)) := by
  induction k generalizing i with
  | zero => omega
  | succ k ih =>
    rw [List.range'_succ, List.map_cons]
    refine ⟨rfl, ?_⟩
    cases k with
    | zero =>
      obtain rfl : i = nBlks.toNat - 1 := by omega
      exact hlast
    | succ k =>
      rw [h i (by omega)]
      exact ih (i + 1) (by omega) (by omega)

end create

section inv

variable {base : Addr} {nBlks sz : BitVec 16} {F held : List Addr}

structure MemInv (q : MemId) (base : Addr) (nBlks sz : BitVec 16) (F held : List Addr) (s : MemSys) : Prop where
  fits : BlocksFit base nBlks sz
  free : Threaded s.link (ptr (s.mem q).freeListPtr) F
  nbrFree : (s.mem q).nbrFree.toNat = F.length
  nbrMax : (s.mem q).nbrMax = nBlks
  blocks : (F ++ held).Perm (blockList base nBlks sz)

theorem MemInv.length (h : MemInv q base nBlks sz F held s) : F.length + held.length = nBlks.toNat := by
  have hlen := h.blocks.length_eq
  rwa [List.length_append, blockList, List.length_map, List.length_range] at hlen

theorem MemInv.nodup (h : MemInv q base nBlks sz F held s) : (F ++ held).Nodup :=
  h.blocks.nodup_iff.mpr h.fits.blockList_nodup

theorem MemInv.mem_iff (h : MemInv q base nBlks sz F held s) :
    b ∈ F ∨ b ∈ held ↔ ∃ i < nBlks.toNat, block base sz i = b := by
  rw [← mem_blockList, ← h.blocks.mem_iff, List.mem_append]

theorem MemInv.ne_zero (h : MemInv q base nBlks sz F held s) (hb : b ∈ F ∨ b ∈ held) : b ≠ 0 := by
  obtain ⟨i, hi, rfl⟩ := h.mem_iff.mp hb
  exact h.fits.block_ne_zero hi

def MemSys.ofPart (q : MemId) (s : MemSys) :=
  (s.byte, (s.mem q).freeListPtr, (s.mem q).nbrFree, (s.mem q).nbrMax)

theorem MemSys.ofPart_modMem {x : MemId} {f : Mem → Mem}
    (hf : ∀ m : Mem, ((f m).freeListPtr, (f m).nbrFree, (f m).nbrMax) = (m.freeListPtr, m.nbrFree, m.nbrMax)) :
    (s.modMem x f).ofPart q = s.ofPart q := by
  by_cases hx : q = x
  · subst hx
    simp only [MemSys.ofPart, MemSys.modMem, Function.update_self]
    rw [hf]
  · simp only [MemSys.ofPart, MemSys.modMem, Function.update_of_ne hx]

theorem keeps_memDbgListAdd {x : MemId} : Keeps (MemSys.ofPart q) (memDbgListAdd x) := by
  have hm {x : MemId} {f : Mem → Mem}
      (hf : ∀ m : Mem, ((f m).freeListPtr, (f m).nbrFree, (f m).nbrMax) = (m.freeListPtr, m.nbrFree, m.nbrMax)) :
      Keeps (MemSys.ofPart q) (modMem x f) := keeps_modify fun _ => MemSys.ofPart_modMem hf
  rw [memDbgListAdd]
  refine keeps_bind (hm fun _ => rfl) fun _ => keeps_bind keeps_get fun y => ?_
  cases y.memDbgListPtr with
  | none => exact keeps_bind (hm fun _ => rfl) fun _ => keeps_modify fun _ => rfl
  | some d =>
    refine keeps_bind (hm fun _ => rfl) fun _ => keeps_bind (hm fun _ => rfl) fun _ => ?_
    exact keeps_modify fun _ => rfl

theorem MemInv.congr (h : MemInv q base nBlks sz F held s) (hs : s'.ofPart q = s.ofPart q) :
    MemInv q base nBlks sz F held s' := by
  obtain ⟨hbyte, hfree, hnbr, hmax⟩ : s'.byte = s.byte ∧ (s'.mem q).freeListPtr = (s.mem q).freeListPtr ∧
      (s'.mem q).nbrFree = (s.mem q).nbrFree ∧ (s'.mem q).nbrMax = (s.mem q).nbrMax := by
    simpa [MemSys.ofPart] using hs
  have hlink : s'.link = s.link := by
    funext b
    rw [MemSys.link, MemSys.readPtr, hbyte]
    rfl
  exact ⟨h.fits, by rw [hlink, hfree]; exact h.free, by rw [hnbr, h.nbrFree], hmax.trans h.nbrMax, h.blocks⟩

theorem memCreateCheck_none (hfit : base.toNat + nBlks.toNat * sz.toNat ≤ 2 ^ 32)
    (h : memCreateCheck base nBlks sz = none) : BlocksFit base nBlks sz := by
  rw [memCreateCheck] at h
  split at h
  · cases h
  · rename_i h0
    split at h
    · cases h
    · rename_i h2
      split at h
      · cases h
      · rename_i h4
        exact ⟨h0, by bv_omega, by bv_omega, hfit⟩

theorem memCreateCheck_error : memCreateCheck base nBlks sz ≠ some .none := by
  rw [memCreateCheck]
  intro h
  split at h
  · cases h
  · split at h
    · cases h
    · split at h
      · cases h
      · split at h
        · cases h
        · split at h <;> cases h

theorem osMemCreate_inv (hfit : base.toNat + nBlks.toNat * sz.toNat ≤ 2 ^ 32) : wp n () (osMemCreate q base nBlks sz)
    (fun e s' => e = .none → MemInv q base nBlks sz (blockList base nBlks sz) [] s') s := by
  rw [osMemCreate, wp_bind, wp_get]
  refine wp_ite.mpr ⟨fun _ => wp_pure.mpr fun h => absurd h (by simp), fun _ => ?_⟩
  cases hc : memCreateCheck base nBlks sz with
  | some e =>
    refine wp_pure.mpr fun he => ?_
    rw [he] at hc
    exact absurd hc memCreateCheck_error
  | none =>
    have hF := memCreateCheck_none hfit hc
    have h2 := hF.two_le
    have hloops : (nBlks - 1).toNat = nBlks.toNat - 1 := by bv_omega
    have hbase : block base sz 0 = base := by simp [block]
    have hloop := memCreateLoop_linked (n := n) hF (nBlks - 1).toNat 0 s (by omega) fun j hj => absurd hj (by omega)
    rw [hbase, hloops, Nat.zero_add] at hloop
    dsimp only
    rw [wp_bind, hloops]
    refine hloop.mono ?_
    rintro _ s₁ ⟨rfl, h₁⟩
    have hlast : nBlks.toNat - 1 < nBlks.toNat := by omega
    rw [wp_bind, storePtr, if_neg (hF.block_ne_zero hlast), wp_modify, wp_bind, modMem, wp_modify, wp_bind]
    refine (keeps_memDbgListAdd (q := q) n () _).mono fun _ s₂ h₂ => ?_
    rw [wp_bind, wp_modify]
    refine wp_pure.mpr fun _ => MemInv.congr (MemInv.congr ?_ h₂) rfl
    refine ⟨hF, ?_, ?_, ?_, by simp⟩
    · have hthr := (h₁.writePtr (v := 0) hF hlast).threaded (by rw [MemSys.link, MemSys.readPtr_writePtr]; rfl)
        nBlks.toNat 0 (Nat.zero_add _) (by omega)
      rw [hbase, ← List.range_eq_range', ← ptr_of_ne hF.base_ne] at hthr
      rw [MemSys.link_modMem, MemSys.modMem_self]
      exact hthr
    · rw [MemSys.modMem_self, blockList, List.length_map, List.length_range]
    · rw [MemSys.modMem_self]

theorem MemInv.get (h : MemInv q base nBlks sz F held s) : twp n () (osMemGet (some q)) (fun r s' =>
    (F = [] ∧ r.2 = .memNoFreeBlks ∧ s' = s) ∨
      ∃ b F', F = b :: F' ∧ r = (b, .none) ∧ MemInv q base nBlks sz F' (b :: held) s') s := by
  rw [osMemGet, twp_bind, twp_get]
  refine twp_ite.mpr ⟨fun h0 => ?_, fun h0 => ?_⟩
  · refine twp_pure.mpr (.inl ⟨?_, rfl, rfl⟩)
    have hlen := h.nbrFree
    rw [h0] at hlen
    exact List.length_eq_zero_iff.mp hlen.symm
  · have hlen := h.nbrFree
    have hfree := h.free
    cases F with
    | nil =>
      refine absurd ?_ h0
      exact BitVec.eq_of_toNat_eq hlen
    | cons b F =>
      have hb : b ≠ 0 := h.ne_zero (by simp)
      obtain ⟨hhead, hfree⟩ := hfree
      have hptr : (s.mem q).freeListPtr = b := by
        rw [ptr] at hhead
        split at hhead
        · cases hhead
        · exact Option.some_inj.mp hhead
      rw [twp_bind, loadPtr, hptr, if_neg hb, twp_bind, twp_get, twp_pure, twp_bind, modMem, twp_modify, twp_pure]
      refine .inr ⟨b, F, rfl, rfl, h.fits, ?_, ?_, ?_, ?_⟩
      · rw [MemSys.link_modMem, MemSys.modMem_self]
        exact hfree
      · rw [MemSys.modMem_self]
        rw [List.length_cons] at hlen
        dsimp only
        bv_omega
      · rw [MemSys.modMem_self]
        exact h.nbrMax
      · exact List.perm_middle.trans h.blocks

theorem MemInv.put (h : MemInv q base nBlks sz F held s) (hb : b ∈ held) : twp n () (osMemPut (some q) b) (fun e s' =>
    e = .none ∧ MemInv q base nBlks sz (b :: F) (held.erase b) s') s := by
  have hne := h.ne_zero (.inr hb)
  have hlen := h.length
  have hpos : 0 < held.length := List.length_pos_of_mem hb
  have hroom : ¬ (s.mem q).nbrFree ≥ (s.mem q).nbrMax := by
    have hnbr := h.nbrFree
    rw [h.nbrMax]
    bv_omega
  rw [osMemPut, if_neg hne, twp_bind, twp_get, if_neg hroom, storePtr, if_neg hne, twp_bind, twp_modify, twp_bind, modMem,
    twp_modify, twp_pure]
  refine ⟨rfl, h.fits, ?_, ?_, ?_, ?_⟩
  · rw [MemSys.link_modMem, MemSys.modMem_self]
    refine ⟨ptr_of_ne hne, ?_⟩
    rw [MemSys.link, MemSys.readPtr_writePtr]
    apply h.free.congr
    intro x hx
    obtain ⟨i, hi, rfl⟩ := h.mem_iff.mp (.inr hb)
    obtain ⟨j, hj, rfl⟩ := h.mem_iff.mp (.inl hx)
    apply h.fits.link_writePtr hi hj
    rintro rfl
    exact List.disjoint_of_nodup_append h.nodup hx hb
  · rw [MemSys.modMem_self, List.length_cons, ← h.nbrFree]
    change ((s.mem q).nbrFree + 1).toNat = _
    have hmax := h.nbrMax
    bv_omega
  · rw [MemSys.modMem_self]
    exact h.nbrMax
  · calc ((b :: F) ++ held.erase b).Perm (F ++ b :: held.erase b) := List.perm_middle.symm
      _ |>.Perm (F ++ held) := ((List.perm_cons_erase hb).symm.append_left F)
      _ |>.Perm _ := h.blocks

def InBlock (sz : BitVec 16) (b a : Addr) : Prop := b.toNat ≤ a.toNat ∧ a.toNat < b.toNat + sz.toNat

def InArea (base : Addr) (nBlks sz : BitVec 16) (a : Addr) : Prop :=
  base.toNat ≤ a.toNat ∧ a.toNat < base.toNat + nBlks.toNat * sz.toNat

theorem MemInv.write (h : MemInv q base nBlks sz F held s) (hmem : s'.mem q = s.mem q)
    (hbyte : ∀ a, InArea base nBlks sz a → (∀ b ∈ held, ¬ InBlock sz b a) → s'.byte a = s.byte a) :
    MemInv q base nBlks sz F held s' := by
  have h4 := h.fits.four_le
  refine ⟨h.fits, ?_, by rw [hmem, h.nbrFree], by rw [hmem, h.nbrMax], h.blocks⟩
  rw [hmem]
  apply h.free.congr
  intro x hx
  obtain ⟨j, hj, rfl⟩ := h.mem_iff.mp (.inl hx)
  have hto := h.fits.block_toNat hj
  have hend := h.fits.block_end hj
  refine congrArg ptr (MemSys.readPtr_congr fun k hk => ?_)
  have hk' : (block base sz j + BitVec.ofNat 32 k).toNat = (block base sz j).toNat + k := by
    rw [BitVec.toNat_add, BitVec.toNat_ofNat]
    omega
  have hle : (j + 1) * sz.toNat ≤ nBlks.toNat * sz.toNat := Nat.mul_le_mul_right _ hj
  rw [Nat.succ_mul] at hle
  refine hbyte _ ⟨by omega, by omega⟩ fun b hb hin => ?_
  obtain ⟨i, hi, rfl⟩ := h.mem_iff.mp (.inr hb)
  have hij : i ≠ j := by
    rintro rfl
    exact List.disjoint_of_nodup_append h.nodup hx hb
  have hapart := h.fits.block_apart hi hj hij
  obtain ⟨h1, h2⟩ := hin
  omega

end inv

section runs

variable {base : Addr} {nBlks sz : BitVec 16} {held : List Addr}

/-- The runs of a partition from its creation on, with the blocks that the clients hold. A client puts back a block
that it holds; in between, the clients write to the blocks that they hold, and anything is written elsewhere. -/
inductive MemRun (q : MemId) (base : Addr) (nBlks sz : BitVec 16) : List Addr → MemSys → Prop
  | create {s s' : MemSys} (hfit : base.toNat + nBlks.toNat * sz.toNat ≤ 2 ^ 32)
      (hx : Runs () (osMemCreate q base nBlks sz) s .none s') : MemRun q base nBlks sz [] s'
  | get {held : List Addr} {s s' : MemSys} {b : Addr} {e : Err} (run : MemRun q base nBlks sz held s)
      (hx : Runs () (osMemGet (some q)) s (b, e) s') : MemRun q base nBlks sz (if e = .none then b :: held else held) s'
  | put {held : List Addr} {s s' : MemSys} {b : Addr} {e : Err} (run : MemRun q base nBlks sz held s) (hb : b ∈ held)
      (hx : Runs () (osMemPut (some q) b) s e s') : MemRun q base nBlks sz (if e = .none then held.erase b else held) s'
  | write {held : List Addr} {s s' : MemSys} (run : MemRun q base nBlks sz held s) (hmem : s'.mem q = s.mem q)
      (hbyte : ∀ a, InArea base nBlks sz a → (∀ b ∈ held, ¬ InBlock sz b a) → s'.byte a = s.byte a) :
      MemRun q base nBlks sz held s'

theorem memInv_of_run (run : MemRun q base nBlks sz held s) : ∃ F, MemInv q base nBlks sz F held s := by
  induction run with
  | create hfit hx => exact ⟨_, (hx.wp fun n => osMemCreate_inv hfit) rfl⟩
  | @get held s s' b e run hx ih =>
    obtain ⟨F, hI⟩ := ih
    obtain ⟨n, hx⟩ := hx
    obtain ⟨r, s₁, hr, hQ⟩ := hI.get (n := n)
    rw [hx] at hr
    cases hr
    rcases hQ with ⟨-, he, rfl⟩ | ⟨b', F', -, hr, hI'⟩
    · dsimp only at he
      rw [he, if_neg (by simp)]
      exact ⟨F, hI⟩
    · cases hr
      exact ⟨F', hI'⟩
  | @put held s s' b e run hb hx ih =>
    obtain ⟨F, hI⟩ := ih
    obtain ⟨n, hx⟩ := hx
    obtain ⟨r, s₁, hr, he, hI'⟩ := hI.put hb (n := n)
    rw [hx] at hr
    cases hr
    subst he
    exact ⟨_, hI'⟩
  | write run hmem hbyte ih =>
    obtain ⟨F, hI⟩ := ih
    exact ⟨F, hI.write hmem hbyte⟩

/-- The free blocks `F` and the blocks held are the blocks of the partition, and the calls answer accordingly. -/
structure Partitioned (q : MemId) (base : Addr) (nBlks sz : BitVec 16) (F held : List Addr) (s : MemSys) : Prop where
  free : ∀ k, s.freeAt q k = F[k]?
  nbrFree : F.length = (s.mem q).nbrFree.toNat
  distinct : F.Nodup ∧ held.Nodup ∧ ∀ b ∈ F, b ∉ held
  blocks : ∀ b, b ∈ F ∨ b ∈ held ↔ ∃ i < nBlks.toNat, b.toNat = base.toNat + i * sz.toNat
  inside : ∀ b, b ∈ F ∨ b ∈ held → ∀ a, InBlock sz b a → InArea base nBlks sz a
  get : (∃ r s', Runs () (osMemGet (some q)) s r s') ∧
    ∀ b e s', Runs () (osMemGet (some q)) s (b, e) s' → (e ≠ .none ↔ F = [])
  put : ∀ b ∈ held, (∃ e s', Runs () (osMemPut (some q) b) s e s') ∧
    ∀ e s', Runs () (osMemPut (some q) b) s e s' → e = .none

/-- A partition never hands one block to two holders. -/
theorem memRun_partitioned (run : MemRun q base nBlks sz held s) : ∃ F, Partitioned q base nBlks sz F held s := by
  obtain ⟨F, hI⟩ := memInv_of_run run
  have hblocks : ∀ b, b ∈ F ∨ b ∈ held ↔ ∃ i < nBlks.toNat, b.toNat = base.toNat + i * sz.toNat := by
    intro b
    rw [hI.mem_iff]
    constructor
    · rintro ⟨i, hi, rfl⟩
      exact ⟨i, hi, hI.fits.block_toNat hi⟩
    · rintro ⟨i, hi, hb⟩
      exact ⟨i, hi, BitVec.eq_of_toNat_eq ((hI.fits.block_toNat hi).trans hb.symm)⟩
  obtain ⟨hF, hH, hdisj⟩ := List.nodup_append'.mp hI.nodup
  refine ⟨F, hI.free.chainAt_eq, hI.nbrFree.symm, ⟨hF, hH, fun b hb hb' => hdisj hb hb'⟩, hblocks, ?_, ?_, ?_⟩
  · rintro b hb a ⟨h1, h2⟩
    obtain ⟨i, hi, hb⟩ := (hblocks b).mp hb
    have hle : (i + 1) * sz.toNat ≤ nBlks.toNat * sz.toNat := Nat.mul_le_mul_right _ hi
    rw [Nat.succ_mul] at hle
    exact ⟨by omega, by omega⟩
  · refine ⟨?_, ?_⟩
    · obtain ⟨r, s', hx, -⟩ := hI.get (n := 0)
      exact ⟨r, s', 0, hx⟩
    · rintro b e s' ⟨n, hx⟩
      obtain ⟨r, s₁, hr, hQ⟩ := hI.get (n := n)
      rw [hx] at hr
      cases hr
      rcases hQ with ⟨hF, he, -⟩ | ⟨b', F', hF, hr, -⟩
      · dsimp only at he
        rw [he]
        exact iff_of_true (by simp) hF
      · cases hr
        rw [hF]
        simp
  · intro b hb
    refine ⟨?_, ?_⟩
    · obtain ⟨e, s', hx, -⟩ := hI.put hb (n := 0)
      exact ⟨e, s', 0, hx⟩
    · rintro e s' ⟨n, hx⟩
      obtain ⟨r, s₁, hr, he, -⟩ := hI.put hb (n := n)
      rw [hx] at hr
      cases hr
      exact he

def MemSys.blank : MemSys where
  byte := fun _ => 0xFF
  mem := fun _ => ⟨false, 0, 0, 0, 0, 0, none, none⟩
  memQty := 0
  memDbgListPtr := none
  intNestingCtr := 0

/-- Both blocks of a partition are taken, the second is overwritten, and the first is put back. -/
theorem memRun_partitioned_two : ∃ s F, MemRun 0 0x1000 2 4 [0x1004] s ∧ Partitioned 0 0x1000 2 4 F [0x1004] s := by
  have hplay : ((osMemCreate 0 0x1000 2 4 0 () MemSys.blank).bind fun a => (osMemGet (some 0) 0 () a.2).bind fun b =>
      (osMemGet (some 0) 0 () b.2).bind fun c =>
      (osMemPut (some 0) 0x1000 0 () (c.2.writePtr 0x1004 0xFFFFFFFF)).bind fun d => some (a, b, c, d)).any (fun r =>
        r.1.1 = .none ∧ r.2.1.1 = (0x1000, .none) ∧ r.2.2.1.1 = (0x1004, .none) ∧ r.2.2.2.1 = .none) = true := by
    decide +kernel
  obtain ⟨⟨⟨e₁, s₁⟩, ⟨r₂, s₂⟩, ⟨r₃, s₃⟩, ⟨e₄, s₄⟩⟩, hb, hQ⟩ := (Option.any_eq_true _ _).mp hplay
  obtain ⟨x, h₁, hb⟩ := Option.bind_eq_some_iff.mp hb
  obtain ⟨x, h₂, hb⟩ := Option.bind_eq_some_iff.mp hb
  obtain ⟨x, h₃, hb⟩ := Option.bind_eq_some_iff.mp hb
  obtain ⟨x, h₄, hb⟩ := Option.bind_eq_some_iff.mp hb
  cases hb
  obtain ⟨he₁, hr₂, hr₃, he₄⟩ := of_decide_eq_true hQ
  dsimp only at he₁ hr₂ hr₃ he₄ h₁ h₂ h₃ h₄
  subst he₁ hr₂ hr₃ he₄
  have R₁ : MemRun 0 0x1000 2 4 [] s₁ := .create (by decide) ⟨0, h₁⟩
  have R₂ := R₁.get ⟨0, h₂⟩
  have R₃ := R₂.get ⟨0, h₃⟩
  have R₄ : MemRun 0 0x1000 2 4 [0x1004, 0x1000] (s₃.writePtr 0x1004 0xFFFFFFFF) := by
    refine R₃.write rfl fun a _ ha => ?_
    have hout := ha 0x1004 (by decide)
    have h0 : a ≠ 0x1004 ∧ a ≠ 0x1004 + 1 ∧ a ≠ 0x1004 + 2 ∧ a ≠ 0x1004 + 3 := by
      refine ⟨?_, ?_, ?_, ?_⟩ <;> rintro rfl <;> exact hout ⟨by decide, by decide⟩
    simp only [MemSys.writePtr, if_neg h0.1, if_neg h0.2.1, if_neg h0.2.2.1, if_neg h0.2.2.2]
  have R₅ := R₄.put (by decide) ⟨0, h₄⟩
  obtain ⟨F, hF⟩ := memRun_partitioned R₅
  exact ⟨s₄, F, R₅, hF⟩

end runs

end UcosIII
