import Dosix.Malloc.Impl
import Dosix.SearchTree.Lemmas
import Dosix.Transition.Basic
import Mathlib.Data.List.Perm.Basic
import Mathlib.Data.Nat.Basic

/-!
This module contains the registry law of the heap: as long as `realloc` moves no block past another
one, the tree is ordered and has exactly one entry for every live pointer.
-/

namespace Dosix
namespace Malloc

open SearchTree Transition

theorem heapEntryinfoCmp_seeks (a : Addr)
    : Seeks (BitVec.toNat (w := 64)) a.toNat (heapEntryinfoCmp a) where
  eq_zero x := by unfold heapEntryinfoCmp; omega
  neg x := by unfold heapEntryinfoCmp; omega

theorem eq_of_heapEntryinfoCmp_eq_zero {a b : Addr} (h : heapEntryinfoCmp a b = 0) : b = a := by
  apply BitVec.eq_of_toNat_eq
  unfold heapEntryinfoCmp at h
  omega

theorem header_add (a : Addr) : a + sizeofHeapInfo - sizeofHeapInfo = a := by
  exact BitVec.add_sub_cancel a sizeofHeapInfo

theorem add_sizeofHeapInfo_ne_zero {a : Addr} (h : a.toNat + sizeofHeapInfo.toNat < 2 ^ 64)
    : a + sizeofHeapInfo ≠ 0 := by
  intro hzero
  have := congrArg BitVec.toNat hzero
  rw [BitVec.toNat_add, Nat.mod_eq_of_lt h] at this
  simp [sizeofHeapInfo] at this

theorem Heap.free_ok {h h' : Heap} {a : Addr} (hfree : h.free a = .ok h')
    : h'.heapTree = h.heapTree ∧ h'.warnings = h.warnings ∧ h'.frees = h.frees ++ [a]
      ∧ h'.blocks = Memory.write h.blocks a none := by
  unfold Heap.free at hfree
  split at hfree
  . simp at hfree
  . injection hfree with hfree
    subst hfree
    exact ⟨rfl, rfl, rfl, rfl⟩

theorem dosixFree_registered {env : Choices} {p : Addr} {h h' : Heap} {slot : Nat} (hp : p ≠ 0)
    (hfind : h.heapTree.tfind (heapEntryinfoCmp (p - sizeofHeapInfo)) = some slot)
    (hcall : dosixFree env p h = .ok h')
    : ∃ freed tree a,
        h.heapTree.tdelete env.bal (heapEntryinfoCmp (p - sizeofHeapInfo)) = some (freed, tree)
          ∧ (if freed = slot then env.stale else tree.slot slot) = some a
          ∧ Heap.free { h with heapTree := tree } a = .ok h' := by
  unfold dosixFree at hcall
  rw [if_neg hp] at hcall
  dsimp only at hcall
  rw [hfind] at hcall
  dsimp only at hcall
  split at hcall
  . simp at hcall
  . split at hcall
    . split at hcall
      . simp at hcall
      . next freed tree hdelete =>
        split at hcall
        . simp at hcall
        . next a hread => exact ⟨freed, tree, a, hdelete, hread, hcall⟩
    . simp at hcall

theorem dosixRealloc_registered {env : Choices} {p q : Addr} {size : Size} {h h' : Heap}
    {slot : Nat} (hp : p ≠ 0) (hsize : size ≠ 0)
    (hfind : h.heapTree.tfind (heapEntryinfoCmp (p - sizeofHeapInfo)) = some slot)
    (hcall : dosixRealloc env p size h = .ok (q, h'))
    : h'.warnings = h.warnings
        ∧ (q = 0 ∧ h'.heapTree = h.heapTree
          ∨ env.block ≠ 0 ∧ q = env.block + sizeofHeapInfo
            ∧ h'.heapTree = h.heapTree.setSlot slot env.block) := by
  -- a `realloc` that returns and whose block is registered either fails or overwrites the key
  unfold dosixRealloc at hcall
  rw [if_neg hp, if_neg hsize] at hcall
  dsimp only at hcall
  rw [hfind] at hcall
  dsimp only at hcall
  split at hcall
  . simp at hcall
  . split at hcall
    . split at hcall
      . split at hcall
        . simp at hcall
        . injection hcall with hcall
          obtain ⟨rfl, rfl⟩ := Prod.mk.inj hcall
          exact ⟨rfl, .inl ⟨rfl, rfl⟩⟩
      . split at hcall
        . injection hcall with hcall
          obtain ⟨rfl, rfl⟩ := Prod.mk.inj hcall
          exact ⟨rfl, .inl ⟨rfl, rfl⟩⟩
        . next hblock =>
          split at hcall
          . simp at hcall
          . injection hcall with hcall
            obtain ⟨rfl, rfl⟩ := Prod.mk.inj hcall
            exact ⟨rfl, .inr ⟨hblock, rfl, rfl⟩⟩
    . simp at hcall

theorem dosixMsize_registered {p : Addr} {size : Size} {h h' : Heap} {slot : Nat}
    (hfind : h.heapTree.tfind (heapEntryinfoCmp (p - sizeofHeapInfo)) = some slot)
    (hcall : dosixMsize p h = .ok (size, h'))
    : h' = h := by
  unfold dosixMsize at hcall
  dsimp only at hcall
  rw [hfind] at hcall
  dsimp only at hcall
  split at hcall
  . simp at hcall
  . split at hcall
    . injection hcall with hcall
      exact (Prod.mk.inj hcall).2.symm
    . simp at hcall

/--
A property of the tree that survives what the calls do to it.
-/
structure Survives (inv : SearchTree Addr → Prop) : Prop where
  searched : ∀ {t t' a memory slot}, inv t → a ≠ 0 →
    Searched (heapEntryinfoCmp a) a memory t slot t' → inv t'
  deleted : ∀ {t t' a id freed}, inv t → Deleted (heapEntryinfoCmp a) t id freed t' → inv t'
  setSlot : ∀ {t a} id, inv t → a ≠ 0 → inv (t.setSlot id a)

section

variable {inv : SearchTree Addr → Prop} (hinv : Survives inv) {env : Choices} {h h' : Heap}

include hinv

theorem Survives.malloc {size : Size} {q : Addr} (hh : inv h.heapTree)
    (hcall : dosixMalloc env size h = .ok (q, h'))
    : inv h'.heapTree := by
  unfold dosixMalloc at hcall
  dsimp only [Heap.setBlock] at hcall
  split at hcall
  . injection hcall with hcall
    exact (Prod.mk.inj hcall).2 ▸ hh
  . next hblock =>
    have hspec := tsearch_spec env.bal (heapEntryinfoCmp env.block) env.block env.memory h.heapTree
    split at hcall
    . simp only [Heap.free, Memory.write_same] at hcall
      injection hcall with hcall
      exact (Prod.mk.inj hcall).2 ▸ hh
    . next hsearch =>
      rw [hsearch] at hspec
      split at hcall
      . injection hcall with hcall
        exact (Prod.mk.inj hcall).2 ▸ hinv.searched hh hblock hspec
      . simp at hcall

theorem Survives.free {p : Addr} (hh : inv h.heapTree) (hcall : dosixFree env p h = .ok h')
    : inv h'.heapTree := by
  by_cases hp : p = 0
  . rw [dosixFree, if_pos hp] at hcall
    injection hcall with hcall
    exact hcall ▸ hh
  . cases hfind : h.heapTree.tfind (heapEntryinfoCmp (p - sizeofHeapInfo)) with
    | none =>
      simp only [dosixFree, hp, ↓reduceIte, hfind] at hcall
      injection hcall with hcall
      exact hcall ▸ hh
    | some slot =>
      obtain ⟨freed, tree, a, hdelete, -, hfree⟩ := dosixFree_registered hp hfind hcall
      obtain ⟨id, -, hdeleted⟩ := tdelete_spec hdelete
      rw [(Heap.free_ok hfree).1]
      exact hinv.deleted hh hdeleted

theorem Survives.realloc {p q : Addr} {size : Size} (hh : inv h.heapTree)
    (hcall : dosixRealloc env p size h = .ok (q, h'))
    : inv h'.heapTree := by
  by_cases hp : p = 0
  . rw [dosixRealloc, if_pos hp] at hcall
    exact hinv.malloc hh hcall
  . by_cases hsize : size = 0
    . rw [dosixRealloc, if_neg hp, if_pos hsize] at hcall
      split at hcall
      . simp at hcall
      . next hfree =>
        injection hcall with hcall
        exact (Prod.mk.inj hcall).2 ▸ hinv.free hh hfree
    . cases hfind : h.heapTree.tfind (heapEntryinfoCmp (p - sizeofHeapInfo)) with
      | none =>
        simp only [dosixRealloc, hp, hsize, ↓reduceIte, hfind] at hcall
        injection hcall with hcall
        exact (Prod.mk.inj hcall).2 ▸ hh
      | some slot =>
        obtain ⟨-, ⟨-, htree⟩ | ⟨hblock, -, htree⟩⟩ := dosixRealloc_registered hp hsize hfind hcall
        . exact htree ▸ hh
        . rw [htree]
          exact hinv.setSlot slot hh hblock

theorem Survives.step {s s' : Session} {call : Call} (hs : inv s.heap.heapTree)
    (hstep : s.step call = .ok s')
    : inv s'.heap.heapTree := by
  unfold Session.step at hstep
  split at hstep
  . split at hstep
    . simp at hstep
    . next hcall =>
      injection hstep with hstep
      exact hstep ▸ hinv.malloc hs hcall
  . split at hstep
    . simp at hstep
    . next hcall =>
      have := hinv.realloc hs hcall
      split at hstep
      all_goals
        injection hstep with hstep
        exact hstep ▸ this
  . split at hstep
    . simp at hstep
    . next hcall =>
      injection hstep with hstep
      exact hstep ▸ hinv.free hs hcall

theorem Survives.run (hinit : inv .leaf) {calls : List Call} {s : Session}
    (hrun : Transition.run Session.step {} calls = .ok s)
    : inv s.heap.heapTree := by
  have hpreserved : ∀ (s : Session) (call : Call) (s' : Session), inv s.heap.heapTree → True →
      s.step call = .ok s' → inv s'.heap.heapTree :=
    fun s call s' hs _ hstep => hinv.step hs hstep
  exact run_invariant hpreserved hinit (.of_forall (fun _ _ => trivial) _ _) hrun

end

theorem survives_ids_nodup : Survives fun t => t.ids.Nodup where
  searched := fun ht _ hsearched => hsearched.ids_nodup ht
  deleted := fun ht hdeleted => (hdeleted.ids_nodup ht).2
  setSlot := fun id ht _ => by rwa [setSlot_ids]

theorem dosixFree_warnings {env : Choices} {p : Addr} {h h' : Heap} {slot : Nat} (hp : p ≠ 0)
    (hfind : h.heapTree.tfind (heapEntryinfoCmp (p - sizeofHeapInfo)) = some slot)
    (hcall : dosixFree env p h = .ok h')
    : h'.warnings = h.warnings := by
  obtain ⟨_, _, _, -, -, hfree⟩ := dosixFree_registered hp hfind hcall
  exact (Heap.free_ok hfree).2.1

theorem dosixRealloc_warnings {env : Choices} {p q : Addr} {size : Size} {h h' : Heap}
    {slot : Nat} (hp : p ≠ 0)
    (hfind : h.heapTree.tfind (heapEntryinfoCmp (p - sizeofHeapInfo)) = some slot)
    (hcall : dosixRealloc env p size h = .ok (q, h'))
    : h'.warnings = h.warnings := by
  by_cases hsize : size = 0
  . unfold dosixRealloc at hcall
    rw [if_neg hp, if_pos hsize] at hcall
    split at hcall
    . simp at hcall
    . next hfree =>
      injection hcall with hcall
      obtain ⟨rfl, rfl⟩ := Prod.mk.inj hcall
      exact dosixFree_warnings hp hfind hfree
  . exact (dosixRealloc_registered hp hsize hfind hcall).1

namespace Session

def ValidArgs (s : Session) (call : Call) : Prop :=
  match call.op with
  | .malloc _ => True
  | .realloc p _ => p = 0 ∨ p ∈ s.live
  | .free p => p = 0 ∨ p ∈ s.live

/--
What the underlying allocator promises: a block that does not end the address space, and that is
none of the live ones. A `realloc` may stay where it is.
-/
def AllocatorContract (s : Session) (call : Call) : Prop :=
  call.env.block = 0 ∨
    call.env.block.toNat + sizeofHeapInfo.toNat < 2 ^ 64 ∧
      match call.op with
      | .realloc p _ => ∀ q ∈ s.live, q ≠ p → q - sizeofHeapInfo ≠ call.env.block
      | _ => ∀ q ∈ s.live, q - sizeofHeapInfo ≠ call.env.block

/--
A `realloc` that moves its block moves it past no other live block.
-/
def KeepsOrder (s : Session) (call : Call) : Prop :=
  match call.op with
  | .realloc p size =>
    p ≠ 0 → size ≠ 0 → call.env.block ≠ 0 → ∀ q ∈ s.live, q ≠ p →
      (q - sizeofHeapInfo < p - sizeofHeapInfo ↔ q - sizeofHeapInfo < call.env.block)
  | _ => True

instance (s : Session) (call : Call) : Decidable (s.ValidArgs call) :=
  match call with
  | ⟨.malloc _, _⟩ => .isTrue trivial
  | ⟨.realloc p _, _⟩ => inferInstanceAs (Decidable (p = 0 ∨ p ∈ s.live))
  | ⟨.free p, _⟩ => inferInstanceAs (Decidable (p = 0 ∨ p ∈ s.live))

instance (s : Session) (call : Call) : Decidable (s.AllocatorContract call) :=
  match call with
  | ⟨.malloc _, env⟩ =>
    have : Decidable (∀ q ∈ s.live, q - sizeofHeapInfo ≠ env.block) := List.decidableBAll _ _
    inferInstanceAs (Decidable (_ ∨ _ ∧ _))
  | ⟨.realloc p _, env⟩ =>
    have : Decidable (∀ q ∈ s.live, q ≠ p → q - sizeofHeapInfo ≠ env.block) :=
      List.decidableBAll _ _
    inferInstanceAs (Decidable (_ ∨ _ ∧ _))
  | ⟨.free _, env⟩ =>
    have : Decidable (∀ q ∈ s.live, q - sizeofHeapInfo ≠ env.block) := List.decidableBAll _ _
    inferInstanceAs (Decidable (_ ∨ _ ∧ _))

instance (s : Session) (call : Call) : Decidable (s.KeepsOrder call) :=
  match call with
  | ⟨.malloc _, _⟩ => .isTrue trivial
  | ⟨.realloc p _, env⟩ =>
    have : Decidable (∀ q ∈ s.live, q ≠ p →
        (q - sizeofHeapInfo < p - sizeofHeapInfo ↔ q - sizeofHeapInfo < env.block)) :=
      List.decidableBAll _ _
    inferInstanceAs (Decidable (_ → _ → _ → _))
  | ⟨.free _, _⟩ => .isTrue trivial

/--
The heap tree is a search tree with exactly one entry per live pointer, so that a search for the
header of a live pointer succeeds and no call on a live pointer complains about it.
-/
structure Registry (s : Session) : Prop where
  ordered : s.heap.heapTree.IsSearchTree BitVec.toNat
  exact : s.heap.heapTree.keys.Perm (s.live.map (· - sizeofHeapInfo))
  found : ∀ p ∈ s.live, (s.heap.heapTree.tfind (heapEntryinfoCmp (p - sizeofHeapInfo))).isSome
  free_accepts : ∀ p ∈ s.live, ∀ env h, dosixFree env p s.heap = .ok h →
    h.warnings = s.heap.warnings
  realloc_accepts : ∀ p ∈ s.live, ∀ env size q h, dosixRealloc env p size s.heap = .ok (q, h) →
    h.warnings = s.heap.warnings
  msize_accepts : ∀ p ∈ s.live, ∀ size h, dosixMsize p s.heap = .ok (size, h) →
    h.warnings = s.heap.warnings

structure Inv (s : Session) : Prop where
  ordered : s.heap.heapTree.IsSearchTree BitVec.toNat
  exact : s.heap.heapTree.keys.Perm (s.live.map (· - sizeofHeapInfo))
  ids_nodup : s.heap.heapTree.ids.Nodup
  live_ne_zero : ∀ p ∈ s.live, p ≠ 0

namespace Inv

variable {s : Session}

theorem init : Inv {} where
  ordered := trivial
  exact := by simp
  ids_nodup := by simp
  live_ne_zero := by simp

theorem header_mem (hs : Inv s) {p : Addr} (hp : p ∈ s.live)
    : p - sizeofHeapInfo ∈ s.heap.heapTree.keys := by
  rw [hs.exact.mem_iff]
  exact List.mem_map.mpr ⟨p, hp, rfl⟩

theorem found (hs : Inv s) {p : Addr} (hp : p ∈ s.live)
    : (s.heap.heapTree.tfind (heapEntryinfoCmp (p - sizeofHeapInfo))).isSome := by
  apply hs.ordered.tfind_isSome
  . apply heapEntryinfoCmp_seeks
  . exact hs.header_mem hp
  . rfl

theorem tfind_eq_none (hs : Inv s) {a : Addr} (ha : ∀ q ∈ s.live, q - sizeofHeapInfo ≠ a)
    : s.heap.heapTree.tfind (heapEntryinfoCmp a) = none := by
  cases hfind : s.heap.heapTree.tfind (heapEntryinfoCmp a) with
  | none => rfl
  | some id =>
    obtain ⟨xs, k, ys, hnodes, hk⟩ := tfind_spec hfind
    have hmem : a ∈ s.heap.heapTree.keys := by
      rw [keys_of_nodes_eq hnodes, eq_of_heapEntryinfoCmp_eq_zero hk]
      simp
    rw [hs.exact.mem_iff, List.mem_map] at hmem
    obtain ⟨q, hq, heq⟩ := hmem
    exact absurd heq (ha q hq)

theorem erase_zero (hs : Inv s) : s.live.erase 0 = s.live := by
  apply List.erase_of_not_mem
  intro hmem
  exact hs.live_ne_zero 0 hmem rfl

theorem exchange_zero (hs : Inv s) {h : Heap} (htree : h.heapTree = s.heap.heapTree)
    : Inv (s.exchange 0 0 h) where
  ordered := by
    simp only [exchange, htree]
    exact hs.ordered
  exact := by
    simp only [exchange, htree, ↓reduceIte, hs.erase_zero]
    exact hs.exact
  ids_nodup := by
    simp only [exchange, htree]
    exact hs.ids_nodup
  live_ne_zero := by
    simp only [exchange, ↓reduceIte, hs.erase_zero]
    exact hs.live_ne_zero

theorem malloc (hs : Inv s) {env : Choices} {size : Size} {q : Addr} {h : Heap}
    (hblock : env.block = 0 ∨ env.block.toNat + sizeofHeapInfo.toNat < 2 ^ 64
      ∧ ∀ p ∈ s.live, p - sizeofHeapInfo ≠ env.block)
    (hcall : dosixMalloc env size s.heap = .ok (q, h))
    : Inv (s.exchange 0 q h) := by
  have hids := survives_ids_nodup.malloc hs.ids_nodup hcall
  unfold dosixMalloc at hcall
  dsimp only at hcall
  split at hcall
  . injection hcall with hcall
    obtain ⟨rfl, rfl⟩ := Prod.mk.inj hcall
    exact hs.exchange_zero rfl
  . next hne =>
    obtain ⟨htop, hfresh⟩ := hblock.resolve_left hne
    have hnone := hs.tfind_eq_none hfresh
    have hspec := tsearch_spec env.bal (heapEntryinfoCmp env.block) env.block env.memory
      s.heap.heapTree
    simp only [Heap.setBlock] at hcall
    generalize s.heap.heapTree.tsearch env.bal (heapEntryinfoCmp env.block) env.block env.memory
      = res at hcall hspec
    obtain ⟨slot, tree⟩ := res
    cases hspec with
    | found id _ hfind => simp [hnone] at hfind
    | failed =>
      simp only [Heap.free, Memory.write_same] at hcall
      injection hcall with hcall
      obtain ⟨rfl, rfl⟩ := Prod.mk.inj hcall
      exact hs.exchange_zero rfl
    | inserted _ _ _ hnodes =>
      dsimp at hcall
      split at hcall
      . injection hcall with hcall
        obtain ⟨rfl, rfl⟩ := Prod.mk.inj hcall
        have hq := add_sizeofHeapInfo_ne_zero htop
        have hseeks := heapEntryinfoCmp_seeks env.block
        refine ⟨(hs.ordered.insertNode hseeks hnone).of_nodes_eq hnodes, ?_, ?_, ?_⟩
        . simp only [exchange, hq, ↓reduceIte, hs.erase_zero, List.map_cons, header_add]
          have := insertNode_keys_perm s.heap.heapTree.freshId env.block hnone
          rw [keys, hnodes]
          exact this.trans (hs.exact.cons _)
        . exact hids
        . simp only [exchange, hq, ↓reduceIte, hs.erase_zero, List.mem_cons, forall_eq_or_imp]
          exact ⟨hq, hs.live_ne_zero⟩
      . simp at hcall

theorem headers_perm {p : Addr} (hlive : p ∈ s.live)
    : (s.live.map (· - sizeofHeapInfo)).Perm
        ((p - sizeofHeapInfo) :: (s.live.erase p).map (· - sizeofHeapInfo)) :=
  (List.perm_cons_erase hlive).map _

theorem free (hs : Inv s) {env : Choices} {p : Addr} {h : Heap} (hp : p = 0 ∨ p ∈ s.live)
    (hcall : dosixFree env p s.heap = .ok h)
    : Inv (s.exchange p 0 h) := by
  by_cases hzero : p = 0
  . subst hzero
    injection hcall with hcall
    exact hs.exchange_zero (by rw [hcall])
  . have hlive := hp.resolve_left hzero
    obtain ⟨slot, hfind⟩ := Option.isSome_iff_exists.mp (hs.found hlive)
    obtain ⟨freed, tree, a, hdelete, -, hfree⟩ := dosixFree_registered hzero hfind hcall
    have htree : h.heapTree = tree := (Heap.free_ok hfree).1
    obtain ⟨id, -, hdeleted⟩ := tdelete_spec hdelete
    obtain ⟨xs, k, ys, hbefore, hk, hafter⟩ := hdeleted.keys
    have hk := eq_of_heapEntryinfoCmp_eq_zero hk
    refine ⟨?_, ?_, ?_, ?_⟩
    . simp only [exchange, htree]
      exact hdeleted.isSearchTree hs.ordered
    . have hkeys : (k :: (xs ++ ys)).Perm (s.live.map (· - sizeofHeapInfo)) :=
        List.perm_middle.symm.trans (hbefore ▸ hs.exact)
      simp only [exchange, htree, ↓reduceIte, hafter]
      rw [hk] at hkeys
      exact (hkeys.trans (headers_perm hlive)).cons_inv
    . exact survives_ids_nodup.free hs.ids_nodup hcall
    . simp only [exchange, ↓reduceIte]
      exact fun q hq => hs.live_ne_zero q (List.mem_of_mem_erase hq)

theorem moved (hs : Inv s) {p block : Addr} {slot : Nat} {h : Heap} (hlive : p ∈ s.live)
    (hfind : s.heap.heapTree.tfind (heapEntryinfoCmp (p - sizeofHeapInfo)) = some slot)
    (htop : block.toNat + sizeofHeapInfo.toNat < 2 ^ 64)
    (hfresh : ∀ q ∈ s.live, q ≠ p → q - sizeofHeapInfo ≠ block)
    (horder : ∀ q ∈ s.live, q ≠ p →
      (q - sizeofHeapInfo < p - sizeofHeapInfo ↔ q - sizeofHeapInfo < block))
    (htree : h.heapTree = s.heap.heapTree.setSlot slot block)
    : Inv (s.exchange p (block + sizeofHeapInfo) h) := by
  have hq := add_sizeofHeapInfo_ne_zero htop
  obtain ⟨xs, k, ys, hnodes, hk⟩ := tfind_spec hfind
  have hk := eq_of_heapEntryinfoCmp_eq_zero hk
  subst hk
  have hkeys := keys_of_nodes_eq hnodes
  have hkeys' := keys_of_nodes_eq (setSlot_nodes_of_nodes_eq block hs.ids_nodup hnodes)
  have hrest : (xs.map Prod.snd ++ ys.map Prod.snd).Perm
      ((s.live.erase p).map (· - sizeofHeapInfo)) :=
    (List.perm_middle.symm.trans ((hkeys ▸ hs.exact).trans (headers_perm hlive))).cons_inv
  -- a neighbour in the tree is another live block, which the move has not passed
  have hother : ∀ x ∈ xs.map Prod.snd ++ ys.map Prod.snd,
      x ≠ block ∧ (x < p - sizeofHeapInfo ↔ x < block) := by
    intro x hx
    have hmem : x ∈ s.heap.heapTree.keys := by
      rw [hkeys]
      exact List.perm_middle.mem_iff.mpr (List.mem_cons_of_mem _ hx)
    have hne : x ≠ p - sizeofHeapInfo := by
      have hnodup := hs.ordered.keys_nodup
      rw [hkeys, List.nodup_middle] at hnodup
      intro heq
      exact (List.nodup_cons.mp hnodup).1 (heq ▸ hx)
    rw [hs.exact.mem_iff, List.mem_map] at hmem
    obtain ⟨q, hq, rfl⟩ := hmem
    have hqp : q ≠ p := fun heq => hne (by rw [heq])
    exact ⟨hfresh q hq hqp, horder q hq hqp⟩
  refine ⟨?_, ?_, ?_, ?_⟩
  . simp only [exchange, htree]
    apply hs.ordered.setSlot hs.ids_nodup hnodes
    intro x hx
    obtain ⟨hne, hlt⟩ := hother x hx
    exact ⟨fun heq => hne (BitVec.eq_of_toNat_eq heq), hlt⟩
  . simp only [exchange, htree, hq, ↓reduceIte, hkeys', List.map_cons, header_add]
    exact List.perm_middle.trans (hrest.cons block)
  . simp only [exchange, htree, setSlot_ids]
    exact hs.ids_nodup
  . simp only [exchange, hq, ↓reduceIte, List.mem_cons, forall_eq_or_imp]
    exact ⟨hq, fun q hq => hs.live_ne_zero q (List.mem_of_mem_erase hq)⟩

theorem realloc (hs : Inv s) {env : Choices} {p q : Addr} {size : Size} {h : Heap}
    (hp : p = 0 ∨ p ∈ s.live) (hcontract : s.AllocatorContract ⟨.realloc p size, env⟩)
    (horder : s.KeepsOrder ⟨.realloc p size, env⟩)
    (hcall : dosixRealloc env p size s.heap = .ok (q, h))
    : Inv (if q = 0 ∧ size ≠ 0 then { s with heap := h } else s.exchange p q h) := by
  by_cases hzero : p = 0
  . -- a realloc of no block is a malloc
    subst hzero
    have hmalloc : dosixMalloc env size s.heap = .ok (q, h) := by
      simpa [dosixRealloc] using hcall
    have hfresh := hcontract.imp_right fun ⟨htop, hfresh⟩ =>
      And.intro htop fun r hr => hfresh r hr (hs.live_ne_zero r hr)
    have hinv := hs.malloc hfresh hmalloc
    split
    . next hfail =>
      simp only [hfail.1, exchange, ↓reduceIte, hs.erase_zero] at hinv
      exact hinv
    . exact hinv
  . have hlive := hp.resolve_left hzero
    obtain ⟨slot, hfind⟩ := Option.isSome_iff_exists.mp (hs.found hlive)
    by_cases hsize : size = 0
    . -- a realloc to no bytes is a free
      unfold dosixRealloc at hcall
      rw [if_neg hzero, if_pos hsize] at hcall
      split at hcall
      . simp at hcall
      . next h' hfree =>
        injection hcall with hcall
        obtain ⟨rfl, rfl⟩ := Prod.mk.inj hcall
        rw [if_neg (fun h => h.2 hsize)]
        exact hs.free hp hfree
    . obtain ⟨-, hres⟩ := dosixRealloc_registered hzero hsize hfind hcall
      rcases hres with ⟨rfl, htree⟩ | ⟨hblock, rfl, htree⟩
      . rw [if_pos ⟨rfl, hsize⟩]
        exact ⟨htree ▸ hs.ordered, htree ▸ hs.exact, htree ▸ hs.ids_nodup, hs.live_ne_zero⟩
      . obtain ⟨htop, hfresh⟩ := hcontract.resolve_left hblock
        rw [if_neg (fun h => add_sizeofHeapInfo_ne_zero htop h.1)]
        exact hs.moved hlive hfind htop hfresh (horder hzero hsize hblock) htree

theorem registry (hs : Inv s) : Registry s where
  ordered := hs.ordered
  exact := hs.exact
  found _ hp := hs.found hp
  free_accepts p hp env h hcall := by
    obtain ⟨slot, hfind⟩ := Option.isSome_iff_exists.mp (hs.found hp)
    exact dosixFree_warnings (hs.live_ne_zero p hp) hfind hcall
  realloc_accepts p hp env size q h hcall := by
    obtain ⟨slot, hfind⟩ := Option.isSome_iff_exists.mp (hs.found hp)
    exact dosixRealloc_warnings (hs.live_ne_zero p hp) hfind hcall
  msize_accepts p hp size h hcall := by
    obtain ⟨slot, hfind⟩ := Option.isSome_iff_exists.mp (hs.found hp)
    rw [dosixMsize_registered hfind hcall]

theorem step (hs : Inv s) {call : Call} {s' : Session} (hvalid : s.ValidArgs call)
    (hcontract : s.AllocatorContract call) (horder : s.KeepsOrder call)
    (hstep : s.step call = .ok s')
    : Inv s' := by
  obtain ⟨op, env⟩ := call
  unfold Session.step at hstep
  cases op with
  | malloc size =>
    dsimp only at hstep
    split at hstep
    . simp at hstep
    . next q h hcall =>
      injection hstep with hstep
      exact hstep ▸ hs.malloc hcontract hcall
  | free p =>
    dsimp only at hstep
    split at hstep
    . simp at hstep
    . next h hcall =>
      injection hstep with hstep
      exact hstep ▸ hs.free hvalid hcall
  | realloc p size =>
    dsimp only at hstep
    split at hstep
    . simp at hstep
    . next q h hcall =>
      have hinv := hs.realloc hvalid hcontract horder hcall
      rw [← apply_ite Except.ok] at hstep
      injection hstep with hstep
      exact hstep ▸ hinv

end Inv

/--
The registry law over whole runs. Nothing is asked of `malloc` and `free`, and of `realloc` only
that it moves no block past another live one.
-/
theorem registry_of_keepsOrder {calls : List Call} {s : Session}
    (hcalls : Always step (fun s call =>
      s.ValidArgs call ∧ s.AllocatorContract call ∧ s.KeepsOrder call) {} calls)
    (hrun : run step {} calls = .ok s)
    : Registry s := by
  apply Inv.registry
  apply run_invariant _ Inv.init hcalls hrun
  intro s call s' hs ⟨hvalid, hcontract, horder⟩ hstep
  exact hs.step hvalid hcontract horder hstep

def orderlyCalls : List Call :=
  [
    ⟨.malloc 8, { block := 0x1000 }⟩,
    ⟨.malloc 8, { block := 0x2000 }⟩,
    ⟨.realloc 0x1018 16, { block := 0x1800 }⟩,
    ⟨.free 0x2018, { stale := some 0x2000 }⟩
  ]

theorem registry_of_keepsOrder_orderlyCalls
    : ∃ s, run step {} orderlyCalls = .ok s ∧ Registry s := by
  obtain ⟨s, hrun, -⟩ := exists_of_any (r := run step {} orderlyCalls) (q := fun _ => true)
    (by decide +kernel)
  exact ⟨s, hrun, registry_of_keepsOrder (by decide +kernel) hrun⟩

def overtakingCalls : List Call :=
  [
    ⟨.malloc 8, { block := 0x1000 }⟩,
    ⟨.malloc 8, { block := 0x2000 }⟩,
    ⟨.realloc 0x1018 16, { block := 0x3000 }⟩
  ]

theorem not_registry_of_overtakingCalls
    : Always step (fun s call => s.ValidArgs call ∧ s.AllocatorContract call) {} overtakingCalls
      ∧ ∃ s, run step {} overtakingCalls = .ok s ∧ 0x2018 ∈ s.live
        ∧ s.heap.heapTree.tfind (heapEntryinfoCmp (0x2018 - sizeofHeapInfo)) = none
        ∧ ¬ Registry s := by
  -- the search for the second block, which is live, fails
  refine ⟨by decide +kernel, ?_⟩
  obtain ⟨s, hrun, hlost⟩ := exists_of_any (r := run step {} overtakingCalls)
    (q := fun s => 0x2018 ∈ s.live
      ∧ s.heap.heapTree.tfind (heapEntryinfoCmp (0x2018 - sizeofHeapInfo)) = none)
    (by decide +kernel)
  obtain ⟨hlive, hfind⟩ := of_decide_eq_true hlost
  refine ⟨s, hrun, hlive, hfind, ?_⟩
  intro h
  have := h.found 0x2018 hlive
  rw [hfind] at this
  simp at this

end Session
end Malloc
end Dosix
