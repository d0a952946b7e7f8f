import Dosix.Malloc.Lemmas.Registry

/-!
This module contains what `free` releases. `_dosix_free` keeps the pointer into the tree across
`tdelete`: a node with at most one child is gone by then, and the slot of a node with two children
holds the successor.
-/

namespace Dosix
namespace Malloc

open SearchTree Transition

/--
`_dosix_free (memblock)` has handed the block of `memblock` to the underlying `free`, once, has
removed the one entry, and every block that is still registered is still allocated.
-/
structure ReleasesExactly (memblock : Addr) (h h' : Heap) : Prop where
  frees_eq : h'.frees = h.frees ++ [memblock - sizeofHeapInfo]
  removed : h.heapTree.keys.Perm ((memblock - sizeofHeapInfo) :: h'.heapTree.keys)
  others : ∀ a ∈ h'.heapTree.keys, (h'.blocks a).isSome

theorem dosixFree_outer (env : Choices) {p : Addr} {h : Heap} (hp : p ≠ 0)
    (hnodup : h.heapTree.ids.Nodup) (hstale : env.stale = none)
    (hfind : (h.heapTree.tfind (heapEntryinfoCmp (p - sizeofHeapInfo))).isSome)
    (hinner : h.heapTree.innerAt (heapEntryinfoCmp (p - sizeofHeapInfo)) = false)
    : ∀ h', dosixFree env p h ≠ .ok h' := by
  -- the slot of a node with at most one child is read after the node has been freed
  intro h' hcall
  obtain ⟨slot, hfind⟩ := Option.isSome_iff_exists.mp hfind
  obtain ⟨freed, tree, a, hdelete, hread, -⟩ := dosixFree_registered hp hfind hcall
  obtain ⟨id, hfind', hdeleted⟩ := tdelete_spec hdelete
  rw [hfind] at hfind'
  injection hfind' with hid
  subst hid
  rw [hstale, hdeleted.slot_outer hnodup hinner] at hread
  simp at hread

theorem dosixFree_inner {env : Choices} {p : Addr} {h h' : Heap} (hp : p ≠ 0)
    (hnodup : h.heapTree.ids.Nodup)
    (hinner : h.heapTree.innerAt (heapEntryinfoCmp (p - sizeofHeapInfo)) = true)
    (hfind : (h.heapTree.tfind (heapEntryinfoCmp (p - sizeofHeapInfo))).isSome)
    (hcall : dosixFree env p h = .ok h')
    : ∃ a ∈ h'.heapTree.keys, h'.frees = h.frees ++ [a] ∧ h'.blocks a = none := by
  -- the slot of a node with two children holds the successor, whose block is freed instead
  obtain ⟨slot, hfind⟩ := Option.isSome_iff_exists.mp hfind
  obtain ⟨freed, tree, a, hdelete, hread, hfree⟩ := dosixFree_registered hp hfind hcall
  obtain ⟨id, hfind', hdeleted⟩ := tdelete_spec hdelete
  rw [hfind] at hfind'
  injection hfind' with hid
  subst hid
  obtain ⟨hne, sk, hmem, hslot⟩ := hdeleted.slot_inner hnodup hinner
  rw [if_neg hne, hslot] at hread
  injection hread with hread
  subst hread
  obtain ⟨htree, -, hfrees, hblocks⟩ := Heap.free_ok hfree
  refine ⟨sk, htree ▸ hmem, hfrees, ?_⟩
  rw [hblocks]
  apply Memory.write_same

namespace Session

/--
When the slot of a freed node may not be read, no `_dosix_free` of any pointer in any reachable heap
releases what it should.
-/
theorem not_releasesExactly {calls : List Call} {s : Session} (env : Choices) (p : Addr)
    (hrun : run step {} calls = .ok s)
    : ¬ ∃ h, dosixFree { env with stale := none } p s.heap = .ok h
        ∧ ReleasesExactly p s.heap h := by
  rintro ⟨h, hcall, hreleases⟩
  have hnodup := survives_ids_nodup.run List.nodup_nil hrun
  by_cases hzero : p = 0
  . rw [dosixFree, if_pos hzero] at hcall
    injection hcall with hcall
    have := hreleases.frees_eq
    simp [hcall] at this
  . cases hfind : s.heap.heapTree.tfind (heapEntryinfoCmp (p - sizeofHeapInfo)) with
    | none =>
      simp only [dosixFree, hzero, ↓reduceIte, hfind] at hcall
      injection hcall with hcall
      have := hreleases.frees_eq
      simp [← hcall] at this
    | some slot =>
      have hfind : (s.heap.heapTree.tfind (heapEntryinfoCmp (p - sizeofHeapInfo))).isSome := by
        simp [hfind]
      cases hinner : s.heap.heapTree.innerAt (heapEntryinfoCmp (p - sizeofHeapInfo)) with
      | false =>
        exact dosixFree_outer { env with stale := none } hzero hnodup rfl hfind hinner h hcall
      | true =>
        obtain ⟨a, hmem, -, hgone⟩ := dosixFree_inner hzero hnodup hinner hfind hcall
        have := hreleases.others a hmem
        simp [hgone] at this

def threeBlocks : List Call :=
  [
    ⟨.malloc 8, { block := 0x2000 }⟩,
    ⟨.malloc 8, { block := 0x1000 }⟩,
    ⟨.malloc 8, { block := 0x3000 }⟩
  ]

theorem not_releasesExactly_threeBlocks
    : ∃ s, run step {} threeBlocks = .ok s ∧ 0x2018 ∈ s.live
        ∧ ¬ ∃ h, dosixFree {} 0x2018 s.heap = .ok h ∧ ReleasesExactly 0x2018 s.heap h := by
  obtain ⟨s, hrun, hlive⟩ := exists_of_any (r := run step {} threeBlocks)
    (q := fun s => 0x2018 ∈ s.live) (by decide +kernel)
  have hlive := of_decide_eq_true hlive
  exact ⟨s, hrun, hlive, not_releasesExactly {} 0x2018 hrun⟩

theorem threeBlocks_frees_successor
    : ∃ s, run step {} threeBlocks = .ok s ∧ 0x2018 ∈ s.live
        ∧ ∃ h, dosixFree {} 0x2018 s.heap = .ok h ∧ s.heap.frees = [] ∧ h.frees = [0x3000]
          ∧ 0x3000 ∈ h.heapTree.keys ∧ ¬ ReleasesExactly 0x2018 s.heap h := by
  -- the block at `2000h` is to be freed, and the one at `3000h` is, which is still registered
  obtain ⟨s, hrun, hs⟩ := exists_of_any (r := run step {} threeBlocks)
    (q := fun s => 0x2018 ∈ s.live ∧ s.heap.frees = []
      ∧ (dosixFree {} 0x2018 s.heap).toOption.any fun h =>
        h.frees = [0x3000] ∧ 0x3000 ∈ h.heapTree.keys)
    (by decide +kernel)
  obtain ⟨hlive, hnone, hfree⟩ := of_decide_eq_true hs
  obtain ⟨h, hcall, hh⟩ := exists_of_any hfree
  obtain ⟨hfrees, hmem⟩ := of_decide_eq_true hh
  refine ⟨s, hrun, hlive, h, hcall, hnone, hfrees, hmem, ?_⟩
  intro hreleases
  have := hreleases.frees_eq
  rw [hfrees, hnone] at this
  exact absurd this (by decide)

end Session
end Malloc
end Dosix
