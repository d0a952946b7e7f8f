import Dosix.Malloc.Lemmas.Registry

/-!
This module contains what the heap functions leave behind when they fail: the blocks and the tree
stay as they were, from any heap whose tree is an ordered registry, unless a `realloc` asks for so much
that header and data together have no size.
-/

namespace Dosix
namespace Malloc

open SearchTree

namespace Heap

structure WellOrdered (h : Heap) : Prop where
  ordered : h.heapTree.IsSearchTree BitVec.toNat
  ids_nodup : h.heapTree.ids.Nodup
  registered : ∀ a ∈ h.heapTree.keys, ∃ b, h.blocks a = some b ∧ b.info.pentry = a

structure Kept (h h' : Heap) : Prop where
  blocks : h'.blocks = h.blocks
  heapTree : h'.heapTree = h.heapTree

/--
What the underlying allocator promises: a block that does not end the address space, and that is a
new one or, for a `realloc`, the old one.
-/
def Allocates (h : Heap) (memblock : Addr) (env : Choices) : Prop :=
  env.block ≠ 0 →
    env.block.toNat + sizeofHeapInfo.toNat < 2 ^ 64 ∧
      (h.blocks env.block = none ∨ memblock ≠ 0 ∧ env.block = memblock - sizeofHeapInfo)

structure FailsCleanly (h : Heap) (p : Addr) (size : Size) : Prop where
  malloc : ∀ env h', h.Allocates 0 env → dosixMalloc env size h = .ok (0, h') → h.Kept h'
  malloc_failed : ∀ env, h.Allocates 0 env → env.block = 0 ∨ env.memory = false →
    ∃ h', dosixMalloc env size h = .ok (0, h')
  realloc : ∀ env h', h.Allocates p env → size ≠ 0 →
    dosixRealloc env p size h = .ok (0, h') → h.Kept h'
  realloc_failed : ∀ env, p ≠ 0 → p - sizeofHeapInfo ∈ h.heapTree.keys → size ≠ 0 →
    env.block = 0 →
    ∃ h' n, dosixRealloc env p size h = .ok (0, h') ∧ dosixMsize p h = .ok (n, h)
      ∧ dosixMsize p h' = .ok (n, h')
  realloc_unregistered : ∀ env, p ≠ 0 → p - sizeofHeapInfo ∉ h.heapTree.keys → size ≠ 0 →
    ∃ h', dosixRealloc env p size h = .ok (0, h') ∧ h.Kept h' ∧ h'.errno = some .EINVAL
  free_unregistered : ∀ env, p ≠ 0 → p - sizeofHeapInfo ∉ h.heapTree.keys →
    ∃ h', dosixFree env p h = .ok h' ∧ h.Kept h' ∧ h'.errno = some .EINVAL

namespace WellOrdered

variable {h : Heap} {a p : Addr} {size : Size}

theorem tfind_eq_none (h : Heap) (ha : a ∉ h.heapTree.keys)
    : h.heapTree.tfind (heapEntryinfoCmp a) = none := by
  cases hfind : h.heapTree.tfind (heapEntryinfoCmp a) with
  | none => rfl
  | some id =>
    obtain ⟨xs, k, ys, hnodes, hk⟩ := tfind_spec hfind
    apply absurd _ ha
    rw [keys_of_nodes_eq hnodes, eq_of_heapEntryinfoCmp_eq_zero hk]
    simp

theorem entryAt (hh : h.WellOrdered) (ha : a ∈ h.heapTree.keys)
    : ∃ slot b, h.heapTree.tfind (heapEntryinfoCmp a) = some slot
        ∧ h.entryAt slot = .ok (a, b.info) ∧ h.blocks a = some b ∧ b.info.pentry = a := by
  have hsome := hh.ordered.tfind_isSome (heapEntryinfoCmp_seeks a) ha rfl
  obtain ⟨slot, hfind⟩ := Option.isSome_iff_exists.mp hsome
  obtain ⟨xs, k, ys, hnodes, hk⟩ := tfind_spec hfind
  rw [eq_of_heapEntryinfoCmp_eq_zero hk] at hnodes
  have hslot := slot_of_nodes_eq hh.ids_nodup hnodes
  obtain ⟨b, hb, hpentry⟩ := hh.registered a ha
  refine ⟨slot, b, hfind, ?_, hb, hpentry⟩
  unfold Heap.entryAt
  rw [hslot]
  dsimp only
  rw [hb]

/-! The four failures. -/

theorem malloc_kept {env : Choices} {h' : Heap}
    (hos : h.Allocates 0 env) (hcall : dosixMalloc env size h = .ok (0, h'))
    : h.Kept h' := by
  unfold dosixMalloc at hcall
  dsimp only at hcall
  split at hcall
  . injection hcall with hcall
    obtain ⟨-, rfl⟩ := Prod.mk.inj hcall
    exact ⟨rfl, rfl⟩
  . next hne =>
    obtain ⟨htop, hfresh⟩ := hos hne
    have hfresh : h.blocks env.block = none := by
      apply hfresh.resolve_right
      simp
    split at hcall
    . -- the block was allocated in vain, and is freed
      simp only [Heap.free, Heap.setBlock, Memory.write_same] at hcall
      injection hcall with hcall
      obtain ⟨-, rfl⟩ := Prod.mk.inj hcall
      refine ⟨?_, rfl⟩
      funext x
      by_cases hx : x = env.block
      . simp [hx, hfresh]
      . simp [hx]
    . split at hcall
      . injection hcall with hcall
        have hzero := (Prod.mk.inj hcall).1
        exact absurd hzero (add_sizeofHeapInfo_ne_zero htop)
      . simp at hcall

theorem malloc_failed (hh : h.WellOrdered) {env : Choices} (size : Size)
    (hos : h.Allocates 0 env) (hfail : env.block = 0 ∨ env.memory = false)
    : ∃ h', dosixMalloc env size h = .ok (0, h') := by
  unfold dosixMalloc
  dsimp only
  by_cases hzero : env.block = 0
  . rw [if_pos hzero]
    exact ⟨_, rfl⟩
  . rw [if_neg hzero]
    have hmemory := hfail.resolve_left hzero
    have hfresh : h.blocks env.block = none := by
      apply (hos hzero).2.resolve_right
      simp
    have hnone := tfind_eq_none h (a := env.block) (by
      intro hmem
      obtain ⟨b, hb, -⟩ := hh.registered env.block hmem
      simp [hfresh] at hb)
    simp [tsearch, Heap.setBlock, hnone, hmemory, Heap.free]

theorem realloc_unregistered (env : Choices) (hp : p ≠ 0)
    (hmem : p - sizeofHeapInfo ∉ h.heapTree.keys) (hsize : size ≠ 0)
    : ∃ h', dosixRealloc env p size h = .ok (0, h') ∧ h.Kept h' ∧ h'.errno = some .EINVAL := by
  unfold dosixRealloc
  rw [if_neg hp, if_neg hsize]
  dsimp only
  rw [tfind_eq_none h hmem]
  exact ⟨_, rfl, ⟨rfl, rfl⟩, rfl⟩

theorem realloc_kept {env : Choices} {h' : Heap} (hos : h.Allocates p env) (hsize : size ≠ 0)
    (htotal : p ≠ 0 → p - sizeofHeapInfo ∈ h.heapTree.keys → sizeofHeapInfo + size ≠ 0)
    (hcall : dosixRealloc env p size h = .ok (0, h'))
    : h.Kept h' := by
  by_cases hp : p = 0
  . subst hp
    rw [dosixRealloc, if_pos rfl] at hcall
    exact malloc_kept hos hcall
  by_cases hmem : p - sizeofHeapInfo ∈ h.heapTree.keys
  . have htotal := htotal hp hmem
    unfold dosixRealloc at hcall
    rw [if_neg hp, if_neg hsize] at hcall
    dsimp only at hcall
    split at hcall
    . injection hcall with hcall
      obtain ⟨-, rfl⟩ := Prod.mk.inj hcall
      exact ⟨rfl, rfl⟩
    . split at hcall
      . simp at hcall
      . split at hcall
        . split at hcall
          . injection hcall with hcall
            obtain ⟨-, rfl⟩ := Prod.mk.inj hcall
            exact ⟨rfl, rfl⟩
          . next hne =>
            split at hcall
            . simp at hcall
            . injection hcall with hcall
              have hzero := (Prod.mk.inj hcall).1
              exact absurd hzero (add_sizeofHeapInfo_ne_zero (hos hne).1)
        . simp at hcall
  . obtain ⟨h'', hcall', hkept, -⟩ := realloc_unregistered env hp hmem hsize
    rw [hcall'] at hcall
    injection hcall with hcall
    exact (Prod.mk.inj hcall).2 ▸ hkept

theorem msize (hh : h.WellOrdered) (hp : p - sizeofHeapInfo ∈ h.heapTree.keys)
    : ∃ b, h.blocks (p - sizeofHeapInfo) = some b ∧ dosixMsize p h = .ok (b.info.size, h) := by
  obtain ⟨slot, b, hfind, hentry, hb, hpentry⟩ := hh.entryAt hp
  refine ⟨b, hb, ?_⟩
  unfold dosixMsize
  dsimp only
  rw [hfind]
  dsimp only
  rw [hentry]
  dsimp only
  rw [if_pos hpentry]

theorem congr {h' : Heap} (hh : h.WellOrdered) (hkept : h.Kept h') : h'.WellOrdered where
  ordered := hkept.heapTree ▸ hh.ordered
  ids_nodup := hkept.heapTree ▸ hh.ids_nodup
  registered := by
    rw [hkept.heapTree, hkept.blocks]
    apply hh.registered

theorem realloc_failed (hh : h.WellOrdered) {env : Choices} (hp : p ≠ 0)
    (hmem : p - sizeofHeapInfo ∈ h.heapTree.keys) (hsize : size ≠ 0)
    (htotal : sizeofHeapInfo + size ≠ 0) (hblock : env.block = 0)
    : ∃ h', dosixRealloc env p size h = .ok (0, h') ∧ h.Kept h' := by
  obtain ⟨slot, b, hfind, hentry, -, hpentry⟩ := hh.entryAt hmem
  unfold dosixRealloc
  rw [if_neg hp, if_neg hsize]
  dsimp only
  rw [hfind]
  dsimp only
  rw [hentry]
  dsimp only
  rw [if_pos hpentry, if_neg htotal, if_pos hblock]
  exact ⟨_, rfl, rfl, rfl⟩

/--
A `realloc` to no bytes at all, header included, releases the block and leaves its entry in the tree.
-/
theorem realloc_released (hh : h.WellOrdered) (env : Choices) (hp : p ≠ 0)
    (hmem : p - sizeofHeapInfo ∈ h.heapTree.keys) (htotal : sizeofHeapInfo + size = 0)
    : dosixRealloc env p size h = .ok (0, h.setBlock (p - sizeofHeapInfo) none) := by
  obtain ⟨slot, b, hfind, hentry, hblock, hpentry⟩ := hh.entryAt hmem
  have hsize : size ≠ 0 := by
    rintro rfl
    exact absurd htotal (by decide)
  unfold dosixRealloc
  rw [if_neg hp, if_neg hsize]
  dsimp only
  rw [hfind]
  dsimp only
  rw [hentry]
  dsimp only
  rw [if_pos hpentry, if_pos htotal, hblock]

theorem free_unregistered {env : Choices} (hp : p ≠ 0)
    (hmem : p - sizeofHeapInfo ∉ h.heapTree.keys)
    : ∃ h', dosixFree env p h = .ok h' ∧ h.Kept h' ∧ h'.errno = some .EINVAL := by
  unfold dosixFree
  rw [if_neg hp]
  dsimp only
  rw [tfind_eq_none h hmem]
  exact ⟨_, rfl, ⟨rfl, rfl⟩, rfl⟩

end WellOrdered

theorem WellOrdered.realloc_failed_msize {h : Heap} (hh : h.WellOrdered) {env : Choices} {p : Addr}
    {size : Size} (hp : p ≠ 0) (hmem : p - sizeofHeapInfo ∈ h.heapTree.keys) (hsize : size ≠ 0)
    (htotal : sizeofHeapInfo + size ≠ 0) (hblock : env.block = 0)
    : ∃ h' n, dosixRealloc env p size h = .ok (0, h') ∧ dosixMsize p h = .ok (n, h)
        ∧ dosixMsize p h' = .ok (n, h') := by
  obtain ⟨h', hcall, hkept⟩ := hh.realloc_failed hp hmem hsize htotal hblock
  obtain ⟨b, hb, hmsize⟩ := hh.msize hmem
  obtain ⟨b', hb', hmsize'⟩ := (hh.congr hkept).msize (hkept.heapTree ▸ hmem)
  rw [hkept.blocks, hb] at hb'
  obtain rfl := Option.some.inj hb'
  exact ⟨h', b.info.size, hcall, hmsize, hmsize'⟩

/--
The failures of any call leave the heap alone, except for the size of a registered block that makes the
sum with the header wrap around to `0`.
-/
theorem failsCleanly_iff {h : Heap} (hh : h.WellOrdered) (p : Addr) (size : Size)
    : h.FailsCleanly p size
        ↔ (p ≠ 0 → p - sizeofHeapInfo ∈ h.heapTree.keys → sizeofHeapInfo + size ≠ 0) := by
  constructor
  . intro hclean hp hmem htotal
    have hsize : size ≠ 0 := by
      rintro rfl
      exact absurd htotal (by decide)
    have hkept := hclean.realloc {} _ (fun hne => absurd rfl hne) hsize
      (hh.realloc_released {} hp hmem htotal)
    obtain ⟨b, hb, -⟩ := hh.registered _ hmem
    have hgone := congrFun hkept.blocks (p - sizeofHeapInfo)
    simp [setBlock, hb] at hgone
  . intro htotal
    constructor
    case malloc => exact fun _ _ hos hcall => WellOrdered.malloc_kept hos hcall
    case malloc_failed => exact fun _ hos hfail => hh.malloc_failed size hos hfail
    case realloc => exact fun _ _ hos hsize hcall => WellOrdered.realloc_kept hos hsize htotal hcall
    case realloc_failed =>
      exact fun _ hp hmem hsize hblock =>
        hh.realloc_failed_msize hp hmem hsize (htotal hp hmem) hblock
    case realloc_unregistered =>
      exact fun env hp hmem hsize => WellOrdered.realloc_unregistered env hp hmem hsize
    case free_unregistered => exact fun _ hp hmem => WellOrdered.free_unregistered hp hmem

def oneBlock : Heap where
  heapTree := .node .leaf 0 0x1000 .leaf
  blocks := Memory.write (fun _ => none) 0x1000 (some ⟨32, ⟨0x1000, 32, USEDENTRY⟩, fun _ => 0⟩)

theorem oneBlock_wellOrdered : oneBlock.WellOrdered := by
  refine ⟨⟨trivial, trivial, by simp, by simp⟩, by simp [oneBlock], ?_⟩
  intro a ha
  have ha : a = 0x1000 := by simpa [oneBlock] using ha
  subst ha
  exact ⟨_, rfl, rfl⟩

theorem failsCleanly_iff_oneBlock
    : oneBlock.FailsCleanly 0x1018 16 ∧ oneBlock.FailsCleanly 0x2018 (-24) :=
  ⟨(failsCleanly_iff oneBlock_wellOrdered 0x1018 16).mpr fun _ _ => by decide,
    (failsCleanly_iff oneBlock_wellOrdered 0x2018 (-24)).mpr fun _ hmem =>
      absurd hmem (by simp [oneBlock, sizeofHeapInfo])⟩

theorem not_failsCleanly_oneBlock
    : oneBlock.WellOrdered ∧ 0x1018 - sizeofHeapInfo ∈ oneBlock.heapTree.keys
        ∧ (∃ h', dosixRealloc {} 0x1018 (BitVec.ofNat 64 (2 ^ 64 - 24)) oneBlock = .ok (0, h')
          ∧ h'.blocks 0x1000 = none ∧ 0x1000 ∈ h'.heapTree.keys)
        ∧ ¬ oneBlock.FailsCleanly 0x1018 (BitVec.ofNat 64 (2 ^ 64 - 24)) := by
  have hmem : 0x1018 - sizeofHeapInfo ∈ oneBlock.heapTree.keys := by
    simp [oneBlock, sizeofHeapInfo]
  have hcall : dosixRealloc {} 0x1018 (BitVec.ofNat 64 (2 ^ 64 - 24)) oneBlock
      = .ok (0, oneBlock.setBlock (0x1018 - sizeofHeapInfo) none) :=
    oneBlock_wellOrdered.realloc_released {} (by decide) hmem (by decide)
  refine ⟨oneBlock_wellOrdered, hmem, ⟨_, hcall, rfl, hmem⟩, ?_⟩
  intro hclean
  have hkept := hclean.realloc {} _ (fun hne => absurd rfl hne) (by decide) hcall
  exact absurd (congrArg Option.isSome (congrFun hkept.blocks 0x1000)) (by decide)

end Heap
end Malloc
end Dosix
