import Dosix.Buffers.Basic
import Dosix.Malloc.Lemmas.Failure
import Dosix.Malloc.Lemmas.Size
import Dosix.Registry.Lemmas
import Dosix.SearchTree.Comparison

/-!
This module contains what a program sees of the heap: a store of independent buffers, where a pointer
is the name of its buffer. The heap implements it as long as the headers lie where
`heap_entryinfo_cmp` can tell which one is above the other, `realloc` moves no block past another one,
and `free` releases the block that it is asked to.
-/

namespace Dosix
namespace Malloc

open Buffers Function SearchTree Transition

/--
The block of a buffer: behind the header there is room for it, and there stands what the program has
written.
-/
structure Backs (a : Addr) (block : Block) (b : Buffers.Buffer Byte) : Prop where
  pentry : block.info.pentry = a
  length : block.length.toNat = sizeofHeapInfo.toNat + b.size
  data : ∀ i x, b.data i = some x → block.data i = x

/--
The live pointers are the names of the buffers, each has its block, and there are no other blocks.
-/
structure Holds (live : List Addr) (blocks : Addr → Option Block) (A : Store Addr Byte) : Prop where
  named : ∀ p, p ∈ live ↔ (A p).isSome
  backed : ∀ p b, A p = some b →
    ∃ block, blocks (p - sizeofHeapInfo) = some block ∧ Backs (p - sizeofHeapInfo) block b
  owned : ∀ a, (blocks a).isSome → a + sizeofHeapInfo ∈ live

namespace Holds

variable {live live' : List Addr} {blocks : Addr → Option Block} {A : Store Addr Byte} {p q : Addr}
  {b : Buffers.Buffer Byte} {block : Block}

theorem init : Holds [] (fun _ => none) fun _ => none where
  named := by simp
  backed := by simp
  owned := by simp

theorem put (h : Holds live blocks A) (hb : Backs (p - sizeofHeapInfo) block b)
    (hlive : ∀ q, q ∈ live' ↔ q = p ∨ q ∈ live)
    : Holds live' (Memory.write blocks (p - sizeofHeapInfo) (some block)) (update A p (some b)) where
  named q := by
    rw [hlive]
    by_cases hq : q = p
    . simp [hq]
    . rw [update_of_ne hq, h.named]
      simp [hq]
  backed q c hc := by
    by_cases hq : q = p
    . subst hq
      rw [update_self] at hc
      obtain rfl := Option.some.inj hc
      exact ⟨block, Memory.write_same _ _ _, hb⟩
    . rw [update_of_ne hq] at hc
      rw [Memory.write_other _ _ (mt eq_of_header_eq hq)]
      exact h.backed q c hc
  owned a ha := by
    rw [hlive]
    by_cases hap : a = p - sizeofHeapInfo
    . left
      rw [hap, BitVec.sub_add_cancel]
    . rw [Memory.write_other _ _ hap] at ha
      exact .inr (h.owned a ha)

theorem drop (h : Holds live blocks A) (hlive : ∀ q, q ∈ live' ↔ q ≠ p ∧ q ∈ live)
    : Holds live' (Memory.write blocks (p - sizeofHeapInfo) none) (update A p none) where
  named q := by
    rw [hlive]
    by_cases hq : q = p
    . simp [hq]
    . rw [update_of_ne hq, h.named]
      simp [hq]
  backed q c hc := by
    by_cases hq : q = p
    . rw [hq, update_self] at hc
      cases hc
    . rw [update_of_ne hq] at hc
      rw [Memory.write_other _ _ (mt eq_of_header_eq hq)]
      exact h.backed q c hc
  owned a ha := by
    rw [hlive]
    by_cases hap : a = p - sizeofHeapInfo
    . rw [hap, Memory.write_same] at ha
      cases ha
    . rw [Memory.write_other _ _ hap] at ha
      refine ⟨?_, h.owned a ha⟩
      rintro rfl
      rw [header_add] at hap
      exact hap rfl

theorem exists_buffer (h : Holds live blocks A) (hp : p ∈ live)
    : ∃ b block, A p = some b ∧ blocks (p - sizeofHeapInfo) = some block
        ∧ Backs (p - sizeofHeapInfo) block b := by
  obtain ⟨b, hb⟩ := Option.isSome_iff_exists.mp ((h.named p).mp hp)
  obtain ⟨block, hblock, hbacks⟩ := h.backed p b hb
  exact ⟨b, block, hb, hblock, hbacks⟩

theorem eq_none (h : Holds live blocks A) (hp : p ∉ live) : A p = none := by
  rw [h.named, Option.not_isSome_iff_eq_none] at hp
  exact hp

end Holds

/-! The three functions return, and what they make of the blocks. -/

/--
A `free` of `memblock` finds it at a node with at most one child, whose slot still reads as it did
when the node has been freed. Where `tdelete` hands its nodes to `free`, as that of glibc does, nothing
is released so.
-/
def Heap.FreesOwn (h : Heap) (env : Choices) (memblock : Addr) : Prop :=
  h.heapTree.innerAt (heapEntryinfoCmp (memblock - sizeofHeapInfo)) = false
    ∧ env.stale = some (memblock - sizeofHeapInfo)

theorem dosixMalloc_returns (env : Choices) (size : Size) {h : Heap} (hids : h.heapTree.ids.Nodup)
    : ∃ q h', dosixMalloc env size h = .ok (q, h') := by
  unfold dosixMalloc
  dsimp only
  split
  . exact ⟨0, _, rfl⟩
  . have hspec := tsearch_spec env.bal (heapEntryinfoCmp env.block) env.block env.memory h.heapTree
    simp only [Heap.setBlock]
    generalize h.heapTree.tsearch env.bal (heapEntryinfoCmp env.block) env.block env.memory = res
      at hspec
    obtain ⟨slot, tree⟩ := res
    cases slot with
    | none =>
      simp only [Heap.free, Memory.write_same]
      exact ⟨0, _, rfl⟩
    | some slot =>
      have hslot := hspec.slot (fun _ hx => eq_of_heapEntryinfoCmp_eq_zero hx) hids
      dsimp only at hslot ⊢
      rw [if_pos hslot]
      exact ⟨_, _, rfl⟩

section

variable {h : Heap} {env : Choices} {p : Addr}

theorem dosixFree_returns (hh : h.WellOrdered) (hp : p ≠ 0)
    (hmem : p - sizeofHeapInfo ∈ h.heapTree.keys) (hown : h.FreesOwn env p)
    : ∃ h', dosixFree env p h = .ok h'
        ∧ h'.blocks = Memory.write h.blocks (p - sizeofHeapInfo) none := by
  obtain ⟨hinner, hstale⟩ := hown
  obtain ⟨slot, block, hfind, hentry, hblock, hpentry⟩ := hh.entryAt hmem
  have hsome : (h.heapTree.tdelete env.bal (heapEntryinfoCmp (p - sizeofHeapInfo))).isSome := by
    unfold tdelete
    rw [Option.isSome_map, tdelete.go_isSome, hfind]
    rfl
  obtain ⟨⟨freed, tree⟩, hdelete⟩ := Option.isSome_iff_exists.mp hsome
  obtain ⟨id, hfind', hdeleted⟩ := tdelete_spec hdelete
  obtain rfl := Option.some.inj (hfind.symm.trans hfind')
  have hfreed := hdeleted.freed_outer hinner
  unfold dosixFree
  rw [if_neg hp]
  dsimp only
  rw [hfind]
  dsimp only
  rw [hentry]
  dsimp only
  rw [if_pos hpentry, hdelete]
  dsimp only
  rw [if_pos hfreed, hstale]
  unfold Heap.free
  dsimp only
  rw [hblock]
  exact ⟨_, rfl, rfl⟩

theorem dosixRealloc_returns (env : Choices) (hh : h.WellOrdered) (hp : p ≠ 0) {size : Size}
    (hsize : size ≠ 0) (hmem : p - sizeofHeapInfo ∈ h.heapTree.keys)
    : ∃ q h', dosixRealloc env p size h = .ok (q, h') := by
  obtain ⟨slot, block, hfind, hentry, hblock, hpentry⟩ := hh.entryAt hmem
  unfold dosixRealloc
  rw [if_neg hp, if_neg hsize]
  dsimp only
  rw [hfind]
  dsimp only
  rw [hentry]
  dsimp only
  rw [if_pos hpentry]
  split
  . rw [hblock]
    exact ⟨0, _, rfl⟩
  . split
    . exact ⟨0, _, rfl⟩
    . rw [hblock]
      exact ⟨_, _, rfl⟩

end

/-! A program that uses the heap and stores bytes in its blocks. -/

/--
What an operation that returns `q` does to the buffers.
-/
def Op.actions (op : Op) (q : Addr) : List (Action Addr Byte) :=
  match op with
  | .malloc size => if q = 0 then [] else [.allocate q size.toNat]
  | .realloc p size =>
    if p = 0 then
      if q = 0 then [] else [.allocate q size.toNat]
    else if size = 0 then
      [.release p]
    else if q = 0 then
      []
    else
      [.resize p q size.toNat]
  | .free p => if p = 0 then [] else [.release p]

/--
The headers that the searches of a call compare with those in the registry.
-/
def Call.sought (c : Call) : List Addr :=
  match c.op with
  | .malloc _ => if c.env.block = 0 then [] else [c.env.block]
  | .realloc p _ =>
    if p ≠ 0 then
      [p - sizeofHeapInfo]
    else if c.env.block = 0 then
      []
    else
      [c.env.block]
  | .free p => if p = 0 then [] else [p - sizeofHeapInfo]

inductive Event where
  | call (c : Call)
  | store (p : Addr) (i : Nat) (x : Byte)

structure Trace where
  session : Session := {}
  -- what the buffers have gone through so far
  actions : List (Action Addr Byte) := []

namespace Session

theorem answered_heap (s : Session) (op : Op) (q : Addr) (h : Heap)
    : (s.answered op q h).heap = h := by
  unfold answered exchange
  cases op with
  | malloc size => rfl
  | realloc p size =>
    dsimp only
    split
    . rfl
    . rfl
  | free p => rfl

theorem step_eq (s : Session) (c : Call)
    : s.step c = (c.answer s.heap).map fun r => s.answered c.op r.1 r.2 := by
  obtain ⟨op, env⟩ := c
  unfold step Call.answer
  cases op with
  | malloc size =>
    dsimp only
    cases dosixMalloc env size s.heap with
    | error e => rfl
    | ok r => rfl
  | realloc p size =>
    dsimp only
    cases dosixRealloc env p size s.heap with
    | error e => rfl
    | ok r => exact (apply_ite Except.ok _ _ _).symm
  | free p =>
    dsimp only
    cases dosixFree env p s.heap with
    | error e => rfl
    | ok h => rfl

/--
Two headers that `heap_entryinfo_cmp` compares as their addresses: it divides the difference by the
size of a header, which C leaves undefined but for multiples, and cuts the quotient to an `int`.
-/
def Comparable (a b : Addr) : Prop :=
  Dosix.Registry.Near sizeofHeapInfo.toNat a b
    ∧ (sizeofHeapInfo.toNat : Int) ∣ (a.toNat : Int) - b.toNat

def Compares (s : Session) (c : Call) : Prop :=
  ∀ a ∈ c.sought, ∀ b ∈ s.heap.heapTree.keys, Comparable a b

/--
The searches of the call come to the same by `heap_entryinfo_cmp` and by the exact addresses.
-/
def SearchesExactly (s : Session) (c : Call) : Prop :=
  ∀ info : HeapInfo, info.pentry ∈ c.sought →
    SameSearches (Dosix.Registry.heapEntryinfoCmpAt s.heap info) (heapEntryinfoCmp info.pentry)
      s.heap.heapTree

instance (a b : Addr) : Decidable (Comparable a b) :=
  inferInstanceAs (Decidable ((_ ∨ _ ∧ _ ∨ _ ∧ _) ∧ _))

instance (s : Session) (c : Call) : Decidable (s.Compares c) :=
  have (a : Addr) : Decidable (∀ b ∈ s.heap.heapTree.keys, Comparable a b) := List.decidableBAll _ _
  List.decidableBAll _ _

end Session

namespace Trace

def step (t : Trace) (e : Event) : Except Fault Trace :=
  match e with
  | .call c =>
    match c.answer t.session.heap with
    | .error f => .error f
    | .ok (q, h) => .ok ⟨t.session.answered c.op q h, t.actions ++ c.op.actions q⟩
  | .store p i x =>
    match t.session.store p i x with
    | .error f => .error f
    | .ok s => .ok ⟨s, t.actions ++ [.write p i x]⟩

/--
The program keeps to the rules: it hands back live pointers only, and stores inside the buffers.
-/
def Valid (t : Trace) (e : Event) : Prop :=
  match e with
  | .call c => t.session.ValidArgs c
  | .store p i x => (run Buffers.step (fun _ => none) (t.actions ++ [.write p i x])).isOk

/--
What is relied on: the underlying allocator keeps its promises, the headers can be compared, no
`realloc` overtakes another block, no `free` takes another block, and header and data together have a
size.
-/
def Covered (t : Trace) (e : Event) : Prop :=
  match e with
  | .call c =>
    t.session.AllocatorContract c ∧ t.session.KeepsOrder c ∧ t.session.Compares c
      ∧ match c.op with
        | .malloc size => sizeofHeapInfo.toNat + size.toNat < 2 ^ 64
        | .realloc p size =>
          sizeofHeapInfo.toNat + size.toNat < 2 ^ 64
            ∧ (p ≠ 0 → size = 0 → t.session.heap.FreesOwn c.env p)
        | .free p => p ≠ 0 → t.session.heap.FreesOwn c.env p
  | .store _ _ _ => True

instance (h : Heap) (env : Choices) (memblock : Addr) : Decidable (h.FreesOwn env memblock) :=
  inferInstanceAs (Decidable (_ ∧ _))

instance (t : Trace) (e : Event) : Decidable (t.Valid e) :=
  match e with
  | .call c => inferInstanceAs (Decidable (t.session.ValidArgs c))
  | .store p i x =>
    inferInstanceAs (Decidable
      ((run Buffers.step (fun _ => none) (t.actions ++ [.write p i x])).isOk = true))

instance (t : Trace) (e : Event) : Decidable (t.Covered e) :=
  match e with
  | .call ⟨.malloc _, _⟩ => inferInstanceAs (Decidable (_ ∧ _ ∧ _ ∧ _))
  | .call ⟨.realloc _ _, _⟩ => inferInstanceAs (Decidable (_ ∧ _ ∧ _ ∧ _ ∧ (_ → _ → _)))
  | .call ⟨.free _, _⟩ => inferInstanceAs (Decidable (_ ∧ _ ∧ _ ∧ (_ → _)))
  | .store _ _ _ => .isTrue trivial

def SearchesExactly (t : Trace) (e : Event) : Prop :=
  match e with
  | .call c => t.session.SearchesExactly c
  | .store _ _ _ => True

end Trace

/-! The heap implements the buffers. -/

/--
The call returns, and leaves the blocks of the buffers that it should.
-/
def Implements (s : Session) (A : Store Addr Byte) (c : Call) : Prop :=
  ∃ q h A', c.answer s.heap = .ok (q, h)
    ∧ run Buffers.step A (c.op.actions q) = .ok A'
    ∧ Holds (s.answered c.op q h).live h.blocks A'

section

open Session

variable {s : Session} {A : Store Addr Byte} {env : Choices} {size : Size} {p : Addr}

theorem toNat_totalSize (hfits : sizeofHeapInfo.toNat + size.toNat < 2 ^ 64)
    : (sizeofHeapInfo + size).toNat = sizeofHeapInfo.toNat + size.toNat := by
  rw [BitVec.toNat_add, Nat.mod_eq_of_lt hfits]

theorem totalSize_ne_zero (hfits : sizeofHeapInfo.toNat + size.toNat < 2 ^ 64)
    : sizeofHeapInfo + size ≠ 0 := by
  intro hzero
  have htotal := toNat_totalSize hfits
  rw [hzero] at htotal
  exact absurd htotal.symm (by simp [sizeofHeapInfo])

theorem Holds.wellOrdered (hA : Holds s.live s.heap.blocks A) (hs : Inv s)
    : s.heap.WellOrdered where
  ordered := hs.ordered
  ids_nodup := hs.ids_nodup
  registered a ha := by
    rw [hs.exact.mem_iff, List.mem_map] at ha
    obtain ⟨p, hp, rfl⟩ := ha
    obtain ⟨b, block, -, hblock, hbacks⟩ := hA.exists_buffer hp
    exact ⟨block, hblock, hbacks.pentry⟩

theorem Session.Inv.congr (hs : Inv s) {s' : Session} (htree : s'.heap.heapTree = s.heap.heapTree)
    (hlive : s'.live = s.live)
    : Inv s' where
  ordered := htree ▸ hs.ordered
  exact := by
    rw [htree, hlive]
    exact hs.exact
  ids_nodup := htree ▸ hs.ids_nodup
  live_ne_zero := hlive ▸ hs.live_ne_zero

theorem Session.Inv.live_nodup (hs : Inv s) : s.live.Nodup :=
  (hs.exact.nodup_iff.mp hs.ordered.keys_nodup).of_map

theorem Session.Inv.mem_erase_iff (hs : Inv s) {q : Addr}
    : q ∈ s.live.erase p ↔ q ≠ p ∧ q ∈ s.live :=
  hs.live_nodup.mem_erase_iff

theorem Holds.block_none (hA : Holds s.live s.heap.blocks A) {a : Addr}
    (hfresh : ∀ q ∈ s.live, q - sizeofHeapInfo ≠ a)
    : s.heap.blocks a = none := by
  rw [← Option.not_isSome_iff_eq_none]
  intro hsome
  exact hfresh _ (hA.owned a hsome) (header_add a)

theorem Holds.handOut {live live' : List Addr} {blocks : Addr → Option Block}
    (hA : Holds live blocks A) {a : Addr} {b : Buffers.Buffer Byte} {data : Nat → Byte}
    (hfits : sizeofHeapInfo.toNat + size.toNat < 2 ^ 64) (hsize : b.size = size.toNat)
    (hdata : ∀ i x, b.data i = some x → data i = x)
    (hlive : ∀ q, q ∈ live' ↔ q = a + sizeofHeapInfo ∨ q ∈ live)
    : Holds live' (Memory.write blocks a
        (some ⟨sizeofHeapInfo + size, ⟨a, sizeofHeapInfo + size, USEDENTRY⟩, data⟩))
        (update A (a + sizeofHeapInfo) (some b)) := by
  have hheader := header_add a
  have hbacks : Backs (a + sizeofHeapInfo - sizeofHeapInfo)
      ⟨sizeofHeapInfo + size, ⟨a, sizeofHeapInfo + size, USEDENTRY⟩, data⟩ b := by
    refine ⟨hheader.symm, ?_, hdata⟩
    rw [hsize]
    exact toNat_totalSize hfits
  have hput := hA.put hbacks hlive
  rwa [hheader] at hput

theorem malloc_implements (hs : Inv s) (hA : Holds s.live s.heap.blocks A)
    (hblock : env.block = 0 ∨ env.block.toNat + sizeofHeapInfo.toNat < 2 ^ 64
      ∧ ∀ q ∈ s.live, q - sizeofHeapInfo ≠ env.block)
    (hfits : sizeofHeapInfo.toNat + size.toNat < 2 ^ 64)
    : Implements s A ⟨.malloc size, env⟩ := by
  obtain ⟨q, h, hcall⟩ := dosixMalloc_returns env size hs.ids_nodup
  unfold Implements Op.actions answered exchange
  rcases dosixMalloc_blocks hcall with ⟨hne, rfl, hblocks⟩ | ⟨rfl, -⟩
  . obtain ⟨htop, hfresh⟩ := hblock.resolve_left hne
    have hq := add_sizeofHeapInfo_ne_zero htop
    have hnone : A (env.block + sizeofHeapInfo) = none := by
      apply hA.eq_none
      intro hmem
      exact hfresh _ hmem (header_add env.block)
    refine ⟨_, h, update A (env.block + sizeofHeapInfo) (some (.fresh size.toNat)), hcall, ?_, ?_⟩
    . dsimp only
      rw [if_neg hq]
      simp only [run, Buffers.step, hnone]
    . dsimp only
      rw [hblocks, if_neg hq, hs.erase_zero]
      apply hA.handOut hfits rfl
      . intro i x hx
        cases hx
      . intro q
        exact List.mem_cons
  . -- a block that gets no node is freed, and was none of the blocks before
    have hkept := Heap.WellOrdered.malloc_kept (fun hne =>
      (hblock.resolve_left hne).imp_right fun hfresh => .inl (hA.block_none hfresh)) hcall
    refine ⟨0, h, A, hcall, rfl, ?_⟩
    dsimp only
    rw [hkept.blocks, if_pos rfl, hs.erase_zero]
    exact hA

theorem Holds.released (hA : Holds s.live s.heap.blocks A) (hs : Inv s) (hzero : p ≠ 0)
    (hlive : p ∈ s.live) (hown : s.heap.FreesOwn env p)
    : ∃ h, dosixFree env p s.heap = .ok h
        ∧ run Buffers.step A [.release p] = .ok (update A p none)
        ∧ Holds (s.live.erase p) h.blocks (update A p none) := by
  obtain ⟨h, hcall, hblocks⟩ :=
    dosixFree_returns (hA.wellOrdered hs) hzero (hs.header_mem hlive) hown
  obtain ⟨b, -, hb, -, -⟩ := hA.exists_buffer hlive
  refine ⟨h, hcall, ?_, ?_⟩
  . simp only [run, Buffers.step, hb]
  . rw [hblocks]
    exact hA.drop fun q => hs.mem_erase_iff

theorem free_implements (hs : Inv s) (hA : Holds s.live s.heap.blocks A) (hp : p = 0 ∨ p ∈ s.live)
    (hown : p ≠ 0 → s.heap.FreesOwn env p)
    : Implements s A ⟨.free p, env⟩ := by
  unfold Implements Call.answer Op.actions answered exchange
  dsimp only
  by_cases hzero : p = 0
  . refine ⟨0, s.heap, A, ?_, ?_, ?_⟩
    . rw [hzero]
      rfl
    . rw [if_pos hzero]
      rfl
    . rw [hzero, if_pos rfl, hs.erase_zero]
      exact hA
  . obtain ⟨h, hcall, hrun, hholds⟩ :=
      hA.released hs hzero (hp.resolve_left hzero) (hown hzero)
    refine ⟨0, h, update A p none, ?_, ?_, ?_⟩
    . rw [hcall]
      rfl
    . rwa [if_neg hzero]
    . rwa [if_pos rfl]

theorem resize_implements (hs : Inv s) (hA : Holds s.live s.heap.blocks A) (hzero : p ≠ 0)
    (hlive : p ∈ s.live) (hsize : size ≠ 0)
    (hcontract : s.AllocatorContract ⟨.realloc p size, env⟩)
    (hfits : sizeofHeapInfo.toNat + size.toNat < 2 ^ 64)
    : Implements s A ⟨.realloc p size, env⟩ := by
  obtain ⟨q, h, hcall⟩ :=
    dosixRealloc_returns env (hA.wellOrdered hs) hzero hsize (hs.header_mem hlive)
  obtain ⟨b, block, hb, hblock, hbacks⟩ := hA.exists_buffer hlive
  unfold Implements Op.actions answered exchange
  dsimp only
  simp only [if_neg hzero, if_neg hsize]
  rcases dosixRealloc_blocks hzero hsize hcall with
    ⟨hne, rfl, old, data, hold, hdata, hblocks⟩ | ⟨rfl, hblocks⟩ | ⟨-, htotal, -⟩
  . obtain ⟨htop, hfresh⟩ := hcontract.resolve_left hne
    have hq := add_sizeofHeapInfo_ne_zero htop
    obtain rfl := Option.some.inj (hblock.symm.trans hold)
    have hdropped := hA.drop (p := p) fun q => hs.mem_erase_iff
    have hnone : update A p none (env.block + sizeofHeapInfo) = none := by
      apply hdropped.eq_none
      intro hmem
      obtain ⟨hqp, hmem⟩ := hs.mem_erase_iff.mp hmem
      exact hfresh _ hmem hqp (header_add env.block)
    refine ⟨_, h, update (update A p none) (env.block + sizeofHeapInfo) (some (b.resize size.toNat)),
      hcall, ?_, ?_⟩
    . rw [if_neg hq]
      simp only [run, Buffers.step, hb, hnone]
    . rw [hblocks, if_neg fun h => hq h.1, if_neg hq]
      apply hdropped.handOut hfits rfl
      . intro i x hx
        -- what fits into the new buffer has been written inside the old one, and is copied
        obtain ⟨hi, hx⟩ := Option.ite_none_right_eq_some.mp hx
        have hlt := Buffers.Buffer.lt_size hx
        rw [hdata i, hbacks.data i x hx]
        rw [hbacks.length, toNat_totalSize hfits]
        omega
      . intro q
        exact List.mem_cons
  . refine ⟨0, h, A, hcall, rfl, ?_⟩
    rw [if_pos ⟨rfl, hsize⟩, hblocks]
    exact hA
  . exact absurd htotal (totalSize_ne_zero hfits)

theorem realloc_implements (hs : Inv s) (hA : Holds s.live s.heap.blocks A)
    (hp : p = 0 ∨ p ∈ s.live) (hcontract : s.AllocatorContract ⟨.realloc p size, env⟩)
    (hfits : sizeofHeapInfo.toNat + size.toNat < 2 ^ 64)
    (hown : p ≠ 0 → size = 0 → s.heap.FreesOwn env p)
    : Implements s A ⟨.realloc p size, env⟩ := by
  by_cases hzero : p = 0
  . -- a realloc of no block is a malloc
    subst hzero
    have hblock := hcontract.imp_right fun ⟨htop, hfresh⟩ =>
      And.intro htop fun r hr => hfresh r hr (hs.live_ne_zero r hr)
    obtain ⟨q, h, A', hcall, hrun, hholds⟩ := malloc_implements hs hA hblock hfits
    refine ⟨q, h, A', hcall, hrun, ?_⟩
    unfold answered at hholds ⊢
    dsimp only at hholds ⊢
    split
    . next hfail =>
      rw [hfail.1, exchange, if_pos rfl, hs.erase_zero] at hholds
      exact hholds
    . exact hholds
  . have hlive := hp.resolve_left hzero
    by_cases hsize : size = 0
    . -- a realloc to no bytes is a free
      subst hsize
      obtain ⟨h, hcall, hrun, hholds⟩ := hA.released hs hzero hlive (hown hzero rfl)
      unfold Implements Call.answer Op.actions answered exchange dosixRealloc
      dsimp only
      refine ⟨0, h, update A p none, ?_, ?_, ?_⟩
      . rw [if_neg hzero, if_pos rfl, hcall]
      . rwa [if_neg hzero, if_pos rfl]
      . rwa [if_neg fun h => h.2 rfl, if_pos rfl]
    . exact resize_implements hs hA hzero hlive hsize hcontract hfits

theorem Holds.stored (hA : Holds s.live s.heap.blocks A) {b : Buffers.Buffer Byte} {i : Nat}
    (hb : A p = some b) (hi : i < b.size) (x : Byte)
    : ∃ s', s.store p i x = .ok s' ∧ s'.heap.heapTree = s.heap.heapTree ∧ s'.live = s.live
        ∧ Holds s'.live s'.heap.blocks (update A p (some (b.write ⟨i, hi⟩ x))) := by
  have hlive : p ∈ s.live := by
    rw [hA.named, hb]
    rfl
  obtain ⟨block, hblock, hbacks⟩ := hA.backed p b hb
  have hroom : sizeofHeapInfo.toNat + i < block.length.toNat := by
    rw [hbacks.length]
    omega
  have hwritten : Backs (p - sizeofHeapInfo) { block with data := update block.data i x }
      (b.write ⟨i, hi⟩ x) := by
    refine ⟨hbacks.pentry, hbacks.length, ?_⟩
    intro j y hy
    unfold Buffers.Buffer.write at hy
    dsimp only at hy ⊢
    by_cases hj : j = i
    . subst hj
      rw [update_self] at hy ⊢
      exact Option.some.inj hy
    . rw [update_of_ne hj] at hy ⊢
      exact hbacks.data j y hy
  unfold Session.store
  rw [hblock]
  dsimp only
  rw [if_pos hroom]
  refine ⟨_, rfl, rfl, rfl, ?_⟩
  apply hA.put hwritten
  intro q
  exact ⟨.inr, fun hq => hq.elim (fun heq => heq ▸ hlive) id⟩

theorem Holds.load_eq (hA : Holds s.live s.heap.blocks A) {i : Nat} {x : Byte}
    (hx : A.byte p i = some x)
    : s.load p i = some x := by
  obtain ⟨b, hb, hdata⟩ := Option.bind_eq_some_iff.mp hx
  obtain ⟨block, hblock, hbacks⟩ := hA.backed p b hb
  have hroom : sizeofHeapInfo.toNat + i < block.length.toNat := by
    rw [hbacks.length]
    exact Nat.add_lt_add_left (Buffers.Buffer.lt_size hdata) _
  unfold Session.load
  rw [hblock]
  dsimp only
  rw [if_pos hroom, hbacks.data i x hdata]

end

/-! Runs. -/

namespace Trace

/--
The buffers of the trace are those of the store, and the heap holds them.
-/
structure Refines (t : Trace) (A : Store Addr Byte) : Prop where
  inv : t.session.Inv
  ran : run Buffers.step (fun _ => none) t.actions = .ok A
  holds : Holds t.session.live t.session.heap.blocks A

variable {t t' : Trace} {A : Store Addr Byte} {p : Addr} {i : Nat} {x : Byte}

theorem Refines.run_append (h : t.Refines A) (as : List (Action Addr Byte))
    : run Buffers.step (fun _ => none) (t.actions ++ as) = run Buffers.step A as := by
  rw [Transition.run_append, h.ran]
  rfl

theorem implements (h : t.Refines A) {c : Call} (hvalid : t.Valid (.call c))
    (hcovered : t.Covered (.call c))
    : Implements t.session A c := by
  obtain ⟨op, env⟩ := c
  obtain ⟨hcontract, -, -, hfits⟩ := hcovered
  cases op with
  | malloc size => exact malloc_implements h.inv h.holds hcontract hfits
  | realloc p size => exact realloc_implements h.inv h.holds hvalid hcontract hfits.1 hfits.2
  | free p => exact free_implements h.inv h.holds hvalid hfits

theorem Refines.step (h : t.Refines A) {e : Event} (hvalid : t.Valid e) (hcovered : t.Covered e)
    : ∃ t' A', t.step e = .ok t' ∧ t'.Refines A' := by
  cases e with
  | call c =>
    obtain ⟨q, heap, A', hcall, hrun, hholds⟩ := implements h hvalid hcovered
    refine ⟨⟨t.session.answered c.op q heap, t.actions ++ c.op.actions q⟩, A', ?_, ?_, ?_, ?_⟩
    . unfold Trace.step
      dsimp only
      rw [hcall]
    . apply h.inv.step hvalid hcovered.1 hcovered.2.1
      rw [Session.step_eq, hcall]
      rfl
    . exact (h.run_append _).trans hrun
    . dsimp only
      rw [Session.answered_heap]
      exact hholds
  | store p i x =>
    have hwrite : (run Buffers.step A [.write p i x]).isOk := by
      rw [← h.run_append]
      exact hvalid
    cases hstep : Buffers.step A (.write p i x) with
    | error e => simp [run, hstep, Except.isOk, Except.toBool] at hwrite
    | ok A' =>
      obtain ⟨b, hb, hi, rfl⟩ := step_write hstep
      obtain ⟨s', hstore, htree, hlive, hholds⟩ := h.holds.stored hb hi x
      refine ⟨⟨s', t.actions ++ [.write p i x]⟩, _, ?_, ?_, ?_, hholds⟩
      . unfold Trace.step
        dsimp only
        rw [hstore]
      . exact h.inv.congr htree hlive
      . dsimp only
        rw [h.run_append]
        simp only [run, hstep]

theorem Refines.valid_store (h : t.Refines A) {s : Session}
    (hstore : t.session.store p i x = .ok s)
    : t.Valid (.store p i x) := by
  unfold Session.store at hstore
  split at hstore
  . cases hstore
  . next block hblock =>
    split at hstore
    . next hi =>
      have hsome : (t.session.heap.blocks (p - sizeofHeapInfo)).isSome := by
        rw [hblock]
        rfl
      have hlive := h.holds.owned _ hsome
      rw [BitVec.sub_add_cancel] at hlive
      obtain ⟨b, block', hb, hblock', hbacks⟩ := h.holds.exists_buffer hlive
      obtain rfl := Option.some.inj (hblock.symm.trans hblock')
      rw [hbacks.length, Nat.add_lt_add_iff_left] at hi
      unfold Valid
      dsimp only
      rw [h.run_append]
      simp only [Transition.run, Buffers.step, hb, dif_pos hi]
      rfl
    . cases hstore

theorem actions_of_store (h : t.step (.store p i x) = .ok t')
    : t'.actions = t.actions ++ [.write p i x] := by
  unfold step at h
  dsimp only at h
  split at h
  . simp at h
  . rw [← Except.ok.inj h]

theorem step_actions {e : Event} (h : t.step e = .ok t') : ∃ as, t'.actions = t.actions ++ as := by
  unfold step at h
  cases e with
  | call c =>
    dsimp only at h
    split at h
    . simp at h
    . rw [← Except.ok.inj h]
      exact ⟨_, rfl⟩
  | store p i x =>
    dsimp only at h
    split at h
    . simp at h
    . rw [← Except.ok.inj h]
      exact ⟨_, rfl⟩

theorem run_actions {es : List Event} (h : run step t es = .ok t')
    : ∃ as, t'.actions = t.actions ++ as := by
  have hstep (u : Trace) (e : Event) (u' : Trace) (hu : ∃ as, u.actions = t.actions ++ as)
      (_ : True) (h : u.step e = .ok u') : ∃ as, u'.actions = t.actions ++ as := by
    obtain ⟨as, has⟩ := hu
    obtain ⟨as', has'⟩ := step_actions h
    exact ⟨as ++ as', by rw [has', has, List.append_assoc]⟩
  exact run_invariant hstep ⟨[], (List.append_nil _).symm⟩ (.of_forall (fun _ _ => trivial) _ _) h

theorem Refines.run {es : List Event} (h : t.Refines A)
    (hes : Always Trace.step (fun t e => t.Valid e ∧ t.Covered e) t es)
    : ∃ t' A', Transition.run Trace.step t es = .ok t' ∧ t'.Refines A' := by
  have hstep (u : Trace) (e : Event) (hu : ∃ A, u.Refines A) (he : u.Valid e ∧ u.Covered e)
      : Meets (fun u => ∃ A, Refines u A) (fun _ => False) (u.step e) := by
    obtain ⟨B, hB⟩ := hu
    obtain ⟨u', B', hu', hB'⟩ := hB.step he.1 he.2
    rw [hu']
    exact ⟨B', hB'⟩
  have hmeets := run_meets hstep ⟨A, h⟩ hes
  cases hrun : Transition.run Trace.step t es with
  | error f => exact (hmeets.of_error hrun).elim
  | ok t' =>
    obtain ⟨A', hA'⟩ := hmeets.of_ok hrun
    exact ⟨t', A', rfl, hA'⟩

theorem Refines.searchesExactly (h : t.Refines A) {e : Event} (hcovered : t.Covered e)
    : t.SearchesExactly e := by
  cases e with
  | store p i x => trivial
  | call c =>
    intro info hinfo
    apply Dosix.Registry.heapTree_sameSearches
    . intro ptr hptr
      -- each registered header is that of a live pointer, and holds its own address
      obtain ⟨q, hq, rfl⟩ := List.mem_map.mp (h.inv.exact.mem_iff.mp hptr)
      obtain ⟨b, block, -, hblock, hbacks⟩ := h.holds.exists_buffer hq
      exact ⟨block, hblock, hbacks.pentry⟩
    . intro ptr hptr
      exact (hcovered.2.2.1 _ hinfo ptr hptr).1

theorem always_searchesExactly {es : List Event} (h : t.Refines A)
    (hes : Always Trace.step (fun t e => t.Valid e ∧ t.Covered e) t es)
    : Always Trace.step SearchesExactly t es := by
  have hstep (u : Trace) (e : Event) (u' : Trace) (hu : ∃ A, u.Refines A)
      (he : u.Valid e ∧ u.Covered e) (hrun : u.step e = .ok u') : ∃ A, u'.Refines A := by
    obtain ⟨B, hB⟩ := hu
    obtain ⟨v, B', hv, hB'⟩ := hB.step he.1 he.2
    obtain rfl := Except.ok.inj (hrun.symm.trans hv)
    exact ⟨B', hB'⟩
  have hexact (u : Trace) (e : Event) (hu : ∃ A, u.Refines A) (he : u.Valid e ∧ u.Covered e)
      : u.SearchesExactly e ↔ True := by
    obtain ⟨B, hB⟩ := hu
    exact iff_true_intro (hB.searchesExactly he.2)
  exact (Always.congr (∃ A, Refines · A) hstep hexact ⟨A, h⟩ hes).mpr
    (.of_forall (fun _ _ => trivial) _ _)

theorem Refines.init : Refines {} fun _ => none where
  inv := .init
  ran := rfl
  holds := .init

/--
Where the program keeps to the rules, every call returns and every store is one to memory that is
there, and the heap is a store of independent buffers: a pointer that `malloc` and `realloc` return
is the name of no other buffer, and what has been written to a buffer is what is read from its block.
The searches in the registry are those that `heap_entryinfo_cmp` makes.
-/
theorem heap_refines_buffers {es : List Event}
    (hes : Always step (fun t e => t.Valid e ∧ t.Covered e) {} es)
    : Always step SearchesExactly {} es
        ∧ ∃ t A, run step {} es = .ok t ∧ run Buffers.step (fun _ => none) t.actions = .ok A
        ∧ Holds t.session.live t.session.heap.blocks A
        ∧ ∀ p i x, A.byte p i = some x → t.session.load p i = some x := by
  refine ⟨always_searchesExactly .init hes, ?_⟩
  obtain ⟨t, A, hrun, hA⟩ := Refines.init.run hes
  exact ⟨t, A, hrun, hA.ran, hA.holds, fun p i x hx => hA.holds.load_eq hx⟩

def mallocFirst : List Event :=
  [.call ⟨.malloc 8, { block := 0x1000 }⟩]

def movesAndFails : List Event :=
  [
    .call ⟨.malloc 8, { block := 0x1600 }⟩,
    .store 0x1618 0 0x2a,
    .call ⟨.realloc 0x1018 16, { block := 0x1300 }⟩,
    .call ⟨.realloc 0x1618 64, {}⟩
  ]

theorem heap_refines_buffers_movesAndFails
    : Always step SearchesExactly {} (mallocFirst ++ .store 0x1018 3 0x7f :: movesAndFails)
        ∧ ∃ t A, run step {} (mallocFirst ++ .store 0x1018 3 0x7f :: movesAndFails) = .ok t
        ∧ run Buffers.step (fun _ => none) t.actions = .ok A
        ∧ Holds t.session.live t.session.heap.blocks A
        ∧ ∀ p i x, A.byte p i = some x → t.session.load p i = some x :=
  heap_refines_buffers (by decide +kernel)

/--
A byte that the program has stored is read from its block, wherever `realloc` has moved it, until
the program overwrites it, cuts it off or frees the block.
-/
theorem load_stored {before after : List Event}
    (hes : Always step (fun t e => t.Valid e ∧ t.Covered e) {} (before ++ .store p i x :: after))
    : ∃ t t' as, run step {} (before ++ [.store p i x]) = .ok t ∧ run step t after = .ok t'
        ∧ t'.actions = t.actions ++ as
        ∧ (SparedBy p i as → t'.session.load (renamedBy p as) i = some x) := by
  obtain ⟨t₀, A₀, hrun₀, hA₀⟩ := Refines.init.run hes.of_append_left
  obtain ⟨-, ⟨hvalid, hcovered⟩, hafter⟩ := hes.of_append hrun₀
  obtain ⟨t, A, hstep, hA⟩ := hA₀.step hvalid hcovered
  rw [hstep] at hafter
  obtain ⟨t', A', hrun, hA'⟩ := hA.run hafter
  obtain ⟨as, has⟩ := run_actions hrun
  refine ⟨t, t', as, ?_, hrun, has, ?_⟩
  . rw [run_append, hrun₀]
    simp only [Except.bind, run, hstep]
  . intro hspared
    -- the write, and from it on what the buffers go through
    have hwrite : Buffers.step A₀ (.write p i x) = .ok A := by
      have hran := hA.ran
      rw [actions_of_store hstep, hA₀.run_append] at hran
      exact of_run_single hran
    have hlater : run Buffers.step A as = .ok A' := by
      rw [← hA.run_append, ← has]
      exact hA'.ran
    exact hA'.holds.load_eq (run_byte hlater (byte_written hwrite) hspared)

theorem load_stored_movesAndFails
    : ∃ t, run step {} (mallocFirst ++ .store 0x1018 3 0x7f :: movesAndFails) = .ok t
        ∧ t.session.load 0x1318 3 = some 0x7f := by
  have hes : Always step (fun t e => t.Valid e ∧ t.Covered e) {}
      (mallocFirst ++ .store 0x1018 3 0x7f :: movesAndFails) := by
    decide +kernel
  obtain ⟨t, t', as, hrun, hrun', has, hload⟩ := load_stored hes
  obtain ⟨u, hu, hactions⟩ := exists_of_any (r := run step {} (mallocFirst ++ [.store 0x1018 3 0x7f]))
    (q := fun t => t.actions = [.allocate 0x1018 8, .write 0x1018 3 0x7f]) (by decide +kernel)
  obtain ⟨u', hu', hactions'⟩ := exists_of_any
    (r := run step {} (mallocFirst ++ .store 0x1018 3 0x7f :: movesAndFails))
    (q := fun t => t.actions = [.allocate 0x1018 8, .write 0x1018 3 0x7f, .allocate 0x1618 8,
      .write 0x1618 0 0x2a, .resize 0x1018 0x1318 16]) (by decide +kernel)
  have hwhole : run step {} (mallocFirst ++ .store 0x1018 3 0x7f :: movesAndFails) = .ok t' := by
    rw [List.append_cons, run_append, hrun]
    exact hrun'
  obtain rfl := Except.ok.inj (hrun.symm.trans hu)
  obtain rfl := Except.ok.inj (hwhole.symm.trans hu')
  rw [of_decide_eq_true hactions, of_decide_eq_true hactions'] at has
  obtain rfl : as = [.allocate 0x1618 8, .write 0x1618 0 0x2a, .resize 0x1018 0x1318 16] := by
    simpa using has.symm
  exact ⟨t', hwhole, hload (by decide)⟩

end Trace

end Malloc
end Dosix
