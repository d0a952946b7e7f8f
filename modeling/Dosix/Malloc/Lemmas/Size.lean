import Dosix.Malloc.Lemmas.Registry

/-!
This module contains the sizes of the blocks: whether a block has room for its header and for what
the program has asked for, and what `_msize` reports. The header is part of the recorded size.
-/

namespace Dosix
namespace Malloc

open SearchTree Transition

/-! What the functions do to the blocks. -/

theorem dosixMalloc_blocks {env : Choices} {size : Size} {q : Addr} {h h' : Heap}
    (hcall : dosixMalloc env size h = .ok (q, h'))
    : env.block ≠ 0 ∧ q = env.block + sizeofHeapInfo
        ∧ h'.blocks = Memory.write h.blocks env.block
          (some ⟨sizeofHeapInfo + size, ⟨env.block, sizeofHeapInfo + size, USEDENTRY⟩, env.data⟩)
      ∨ q = 0 ∧ ∀ a b, h'.blocks a = some b → h.blocks a = some b := by
  unfold dosixMalloc at hcall
  dsimp only at hcall
  split at hcall
  . injection hcall with hcall
    obtain ⟨rfl, rfl⟩ := Prod.mk.inj hcall
    exact .inr ⟨rfl, fun _ _ hb => hb⟩
  . next hne =>
    split at hcall
    . simp only [Heap.free, Heap.setBlock, Memory.write_same] at hcall
      injection hcall with hcall
      obtain ⟨rfl, rfl⟩ := Prod.mk.inj hcall
      refine .inr ⟨rfl, ?_⟩
      intro a b hb
      by_cases ha : a = env.block
      . simp [ha] at hb
      . simpa [ha] using hb
    . split at hcall
      . injection hcall with hcall
        obtain ⟨rfl, rfl⟩ := Prod.mk.inj hcall
        exact .inl ⟨hne, rfl, rfl⟩
      . simp at hcall

theorem dosixFree_blocks {env : Choices} {p : Addr} {h h' : Heap}
    (hcall : dosixFree env p h = .ok h')
    : ∀ a b, h'.blocks a = some b → h.blocks a = some b := by
  intro a b hb
  by_cases hp : p = 0
  . rw [dosixFree, if_pos hp] at hcall
    injection hcall with hcall
    rwa [hcall]
  . cases hfind : h.heapTree.tfind (heapEntryinfoCmp (p - sizeofHeapInfo)) with
    | none =>
      simp only [dosixFree, hp, ↓reduceIte, hfind] at hcall
      injection hcall with hcall
      rw [← hcall] at hb
      exact hb
    | some slot =>
      obtain ⟨_, _, x, -, -, hfree⟩ := dosixFree_registered hp hfind hcall
      rw [(Heap.free_ok hfree).2.2.2] at hb
      by_cases hx : a = x
      . simp [hx] at hb
      . rwa [Memory.write_other _ _ hx] at hb

theorem dosixRealloc_blocks {env : Choices} {p q : Addr} {size : Size} {h h' : Heap} (hp : p ≠ 0)
    (hsize : size ≠ 0) (hcall : dosixRealloc env p size h = .ok (q, h'))
    : (env.block ≠ 0 ∧ q = env.block + sizeofHeapInfo
        ∧ ∃ old data, h.blocks (p - sizeofHeapInfo) = some old
          ∧ (∀ i, i < min old.length.toNat (sizeofHeapInfo + size).toNat - sizeofHeapInfo.toNat →
              data i = old.data i)
          ∧ h'.blocks = Memory.write (Memory.write h.blocks (p - sizeofHeapInfo) none) env.block
            (some ⟨sizeofHeapInfo + size, ⟨env.block, sizeofHeapInfo + size, USEDENTRY⟩, data⟩))
      ∨ q = 0 ∧ h'.blocks = h.blocks
      ∨ q = 0 ∧ sizeofHeapInfo + size = 0
        ∧ h'.blocks = Memory.write h.blocks (p - sizeofHeapInfo) none := by
  unfold dosixRealloc at hcall
  rw [if_neg hp, if_neg hsize] at hcall
  dsimp only at hcall
  split at hcall
  . injection hcall with hcall
    obtain ⟨rfl, rfl⟩ := Prod.mk.inj hcall
    exact .inr (.inl ⟨rfl, rfl⟩)
  . split at hcall
    . simp at hcall
    . split at hcall
      . split at hcall
        . next htotal =>
          split at hcall
          . simp at hcall
          . injection hcall with hcall
            obtain ⟨rfl, rfl⟩ := Prod.mk.inj hcall
            exact .inr (.inr ⟨rfl, htotal, rfl⟩)
        . split at hcall
          . injection hcall with hcall
            obtain ⟨rfl, rfl⟩ := Prod.mk.inj hcall
            exact .inr (.inl ⟨rfl, rfl⟩)
          . next hne =>
            split at hcall
            . simp at hcall
            . next old hold =>
              injection hcall with hcall
              obtain ⟨rfl, rfl⟩ := Prod.mk.inj hcall
              refine .inl ⟨hne, rfl, old, _, hold, ?_, rfl⟩
              intro i hi
              exact if_pos hi
      . simp at hcall

/-! Room for what has been asked for. -/

namespace Heap

/--
The block behind `q` holds the header and `size` bytes, and its header says so.
-/
def Delivers (h : Heap) (q : Addr) (size : Size) : Prop :=
  ∃ b, h.blocks (q - sizeofHeapInfo) = some b
    ∧ sizeofHeapInfo.toNat + size.toNat ≤ b.length.toNat
    ∧ b.info.size.toNat = sizeofHeapInfo.toNat + size.toNat

/--
The bytes of the old block are those of the new one, as many as both of them have.
-/
def Carries (h h' : Heap) (p q : Addr) (size : Size) : Prop :=
  ∀ old new, h.blocks (p - sizeofHeapInfo) = some old → h'.blocks (q - sizeofHeapInfo) = some new →
    ∀ i, i < min (old.length.toNat - sizeofHeapInfo.toNat) size.toNat → new.data i = old.data i

theorem delivers_iff {h : Heap} {a : Addr} {size : Size} {b : Block}
    (hblock : h.blocks a = some b) (hlength : b.length = sizeofHeapInfo + size)
    (hsize : b.info.size = sizeofHeapInfo + size)
    : h.Delivers (a + sizeofHeapInfo) size ↔ sizeofHeapInfo.toNat + size.toNat < 2 ^ 64 := by
  unfold Delivers
  rw [header_add]
  constructor
  . rintro ⟨b', hb', hroom, -⟩
    have := b'.length.isLt
    omega
  . intro hsum
    have htotal : (sizeofHeapInfo + size).toNat = sizeofHeapInfo.toNat + size.toNat := by
      rw [BitVec.toNat_add, Nat.mod_eq_of_lt hsum]
    refine ⟨b, hblock, ?_, ?_⟩
    . rw [hlength, htotal]
    . rw [hsize, htotal]

end Heap

theorem dosixMalloc_delivers_iff {env : Choices} {size : Size} {q : Addr} {h h' : Heap}
    (hcall : dosixMalloc env size h = .ok (q, h')) (hq : q ≠ 0)
    : h'.Delivers q size ↔ sizeofHeapInfo.toNat + size.toNat < 2 ^ 64 := by
  rcases dosixMalloc_blocks hcall with ⟨-, rfl, hblocks⟩ | ⟨rfl, -⟩
  . have hnew := congrFun hblocks env.block
    rw [Memory.write_same] at hnew
    exact Heap.delivers_iff hnew rfl rfl
  . exact absurd rfl hq

theorem dosixRealloc_delivers_iff {env : Choices} {p q : Addr} {size : Size} {h h' : Heap}
    (hp : p ≠ 0) (hsize : size ≠ 0) (hcall : dosixRealloc env p size h = .ok (q, h'))
    (hq : q ≠ 0)
    : h'.Delivers q size ∧ h.Carries h' p q size
        ↔ sizeofHeapInfo.toNat + size.toNat < 2 ^ 64 := by
  rcases dosixRealloc_blocks hp hsize hcall with
    ⟨-, rfl, old, data, hold, hdata, hblocks⟩ | ⟨rfl, -⟩ | ⟨rfl, -⟩
  . have hnew : h'.blocks env.block
        = some ⟨sizeofHeapInfo + size, ⟨env.block, sizeofHeapInfo + size, USEDENTRY⟩, data⟩ := by
      rw [hblocks, Memory.write_same]
    rw [Heap.delivers_iff hnew rfl rfl]
    apply and_iff_left_of_imp
    intro hsum old' new' hold' hnew' i hi
    rw [hold] at hold'
    rw [header_add, hnew] at hnew'
    obtain rfl := Option.some.inj hold'
    obtain rfl := Option.some.inj hnew'
    apply hdata
    rw [BitVec.toNat_add, Nat.mod_eq_of_lt hsum]
    omega
  . exact absurd rfl hq
  . exact absurd rfl hq

/--
The sum of the header and of the size asked for must not wrap around. Nothing else keeps a block
from being large enough.
-/
theorem heap_delivers_iff (env : Choices) (size : Size) (h : Heap)
    : (∀ q h', dosixMalloc env size h = .ok (q, h') → q ≠ 0 →
        (h'.Delivers q size ↔ sizeofHeapInfo.toNat + size.toNat < 2 ^ 64))
      ∧ ∀ p q h', size ≠ 0 → dosixRealloc env p size h = .ok (q, h') → q ≠ 0 →
        (h'.Delivers q size ∧ (p ≠ 0 → h.Carries h' p q size)
          ↔ sizeofHeapInfo.toNat + size.toNat < 2 ^ 64) := by
  constructor
  . intro q h' hcall hq
    exact dosixMalloc_delivers_iff hcall hq
  . intro p q h' hsize hcall hq
    by_cases hp : p = 0
    . rw [dosixRealloc, if_pos hp] at hcall
      simp only [hp, ne_eq, not_true_eq_false, false_imp_iff, and_true]
      exact dosixMalloc_delivers_iff hcall hq
    . simp only [hp, ne_eq, not_false_eq_true, true_imp_iff]
      exact dosixRealloc_delivers_iff hp hsize hcall hq

theorem heap_delivers_iff_eight
    : ∃ h q h', dosixMalloc { block := 0x1000 } 8 {} = .ok (0x1018, h)
        ∧ dosixRealloc { block := 0x2000 } 0x1018 16 h = .ok (q, h')
        ∧ h.Delivers 0x1018 8 ∧ h'.Delivers q 16 ∧ h.Carries h' 0x1018 q 16 := by
  obtain ⟨⟨q₀, h⟩, hmalloc, hq₀⟩ := exists_of_any (r := dosixMalloc { block := 0x1000 } 8 {})
    (q := fun r => r.1 = 0x1018 ∧ (dosixRealloc { block := 0x2000 } 0x1018 16 r.2).toOption.any
      fun r => r.1 ≠ 0) (by decide +kernel)
  obtain ⟨rfl, hrealloc⟩ := of_decide_eq_true hq₀
  obtain ⟨⟨q, h'⟩, hrealloc, hq⟩ := exists_of_any hrealloc
  have hdelivers := (heap_delivers_iff { block := 0x1000 } 8 {}).1 _ _ hmalloc (by decide)
  have hcarries := (heap_delivers_iff { block := 0x2000 } 16 h).2 0x1018 q h' (by decide) hrealloc
    (of_decide_eq_true hq)
  obtain ⟨hroom, hbytes⟩ := hcarries.mpr (by decide)
  exact ⟨h, q, h', hmalloc, hrealloc, hdelivers.mpr (by decide), hroom, hbytes (by decide)⟩

theorem not_heap_delivers_max
    : ∃ q h, dosixMalloc { block := 0x1000 } (BitVec.allOnes 64) {} = .ok (q, h) ∧ q ≠ 0
        ∧ ¬ h.Delivers q (BitVec.allOnes 64) := by
  obtain ⟨⟨q, h⟩, hmalloc, hq⟩ := exists_of_any
    (r := dosixMalloc { block := 0x1000 } (BitVec.allOnes 64) {}) (q := fun r => r.1 ≠ 0)
    (by decide +kernel)
  have hq := of_decide_eq_true hq
  refine ⟨q, h, hmalloc, hq, ?_⟩
  rw [dosixMalloc_delivers_iff hmalloc hq]
  decide

/-! What `_msize` reports, in a session that also remembers what was asked for. -/

structure Sized where
  session : Session := {}
  -- the size that the last successful `malloc` or `realloc` for a pointer was called with
  requested : Addr → Option Size := fun _ => none

namespace Sized

def exchange (t : Sized) (old new : Addr) (size : Size) (h : Heap) : Sized where
  session := t.session.exchange old new h
  requested := Memory.write t.requested new (some size)

def step (t : Sized) (call : Call) : Except Fault Sized :=
  match call.op with
  | .malloc size =>
    match dosixMalloc call.env size t.session.heap with
    | .error e => .error e
    | .ok (q, h) => .ok (t.exchange 0 q size h)
  | .realloc p size =>
    match dosixRealloc call.env p size t.session.heap with
    | .error e => .error e
    | .ok (q, h) =>
      if q = 0 ∧ size ≠ 0 then
        .ok { t with session := { t.session with heap := h } }
      else
        .ok (t.exchange p q size h)
  | .free p =>
    match dosixFree call.env p t.session.heap with
    | .error e => .error e
    | .ok h => .ok (t.exchange p 0 0 h)

theorem step_session (t : Sized) (call : Call)
    : (t.step call).map session = t.session.step call := by
  obtain ⟨op, env⟩ := call
  unfold step Session.step
  cases op with
  | malloc size =>
    dsimp only
    rcases dosixMalloc env size t.session.heap with e | ⟨q, h⟩
    . rfl
    . rfl
  | realloc p size =>
    dsimp only
    rcases dosixRealloc env p size t.session.heap with e | ⟨q, h⟩
    . rfl
    . dsimp only
      split
      . rfl
      . rfl
  | free p =>
    dsimp only
    rcases dosixFree env p t.session.heap with e | h
    . rfl
    . rfl

theorem run_session (t : Sized) (calls : List Call)
    : (run step t calls).map session = run Session.step t.session calls :=
  run_map step_session t calls

/--
The header of a live pointer, if its block is still there, has the size of header and data together.
-/
structure Recorded (t : Sized) : Prop where
  ids_nodup : t.session.heap.heapTree.ids.Nodup
  live_ne_zero : ∀ p ∈ t.session.live, p ≠ 0
  header : ∀ p ∈ t.session.live, ∃ size, t.requested p = some size
    ∧ ∀ b, t.session.heap.blocks (p - sizeofHeapInfo) = some b →
      b.length = sizeofHeapInfo + size
        ∧ b.info = ⟨p - sizeofHeapInfo, sizeofHeapInfo + size, USEDENTRY⟩

namespace Recorded

variable {t : Sized} {p q : Addr} {size : Size} {h : Heap} {env : Choices}

theorem init : Recorded {} where
  ids_nodup := by simp
  live_ne_zero := by simp
  header := by simp

theorem failed (ht : Recorded t) (hids : h.heapTree.ids.Nodup)
    (hblocks : ∀ a b, a + sizeofHeapInfo ≠ 0 → h.blocks a = some b →
      t.session.heap.blocks a = some b)
    : Recorded { t with session := { t.session with heap := h } } where
  ids_nodup := hids
  live_ne_zero := ht.live_ne_zero
  header p hp := by
    obtain ⟨size, hsize, hheader⟩ := ht.header p hp
    refine ⟨size, hsize, ?_⟩
    intro b hb
    apply hheader
    apply hblocks _ _ _ hb
    rw [BitVec.sub_add_cancel]
    exact ht.live_ne_zero p hp

theorem released (ht : Recorded t) (hids : h.heapTree.ids.Nodup)
    (hblocks : ∀ a b, h.blocks a = some b → t.session.heap.blocks a = some b)
    : Recorded (t.exchange p 0 size h) where
  ids_nodup := hids
  live_ne_zero := by
    simp only [exchange, Session.exchange, ↓reduceIte]
    intro q hq
    exact ht.live_ne_zero q (List.mem_of_mem_erase hq)
  header := by
    simp only [exchange, Session.exchange, ↓reduceIte]
    intro q hq
    have hlive := List.mem_of_mem_erase hq
    obtain ⟨size', hsize, hheader⟩ := ht.header q hlive
    refine ⟨size', ?_, ?_⟩
    . rw [Memory.write_other _ _ (ht.live_ne_zero q hlive)]
      exact hsize
    . intro b hb
      exact hheader b (hblocks _ _ hb)

theorem handedOut (ht : Recorded t) {a : Addr} {blocks : Addr → Option Block} {data : Nat → BitVec 8}
    (hids : h.heapTree.ids.Nodup)
    (hkept : ∀ a b, blocks a = some b → t.session.heap.blocks a = some b)
    (hblocks : h.blocks = Memory.write blocks a
      (some ⟨sizeofHeapInfo + size, ⟨a, sizeofHeapInfo + size, USEDENTRY⟩, data⟩))
    : Recorded (t.exchange p (a + sizeofHeapInfo) size h) where
  ids_nodup := hids
  live_ne_zero := by
    simp only [exchange, Session.exchange]
    intro q hq
    split at hq
    . exact ht.live_ne_zero q (List.mem_of_mem_erase hq)
    . rcases List.mem_cons.mp hq with rfl | hq
      . assumption
      . exact ht.live_ne_zero q (List.mem_of_mem_erase hq)
  header := by
    simp only [exchange, Session.exchange, hblocks]
    intro q hq
    by_cases hqa : q = a + sizeofHeapInfo
    . subst hqa
      refine ⟨size, Memory.write_same _ _ _, ?_⟩
      intro b hb
      rw [header_add, Memory.write_same] at hb
      obtain rfl := Option.some.inj hb
      rw [header_add]
      exact ⟨rfl, rfl⟩
    . -- any other live pointer is an old one, and its block is not the new one
      have hlive : q ∈ t.session.live := by
        split at hq
        . exact List.mem_of_mem_erase hq
        . exact List.mem_of_mem_erase ((List.mem_cons.mp hq).resolve_left hqa)
      have hne : q - sizeofHeapInfo ≠ a := by
        rintro rfl
        rw [BitVec.sub_add_cancel] at hqa
        exact hqa rfl
      obtain ⟨size', hsize, hheader⟩ := ht.header q hlive
      refine ⟨size', ?_, ?_⟩
      . rw [Memory.write_other _ _ hqa]
        exact hsize
      . intro b hb
        rw [Memory.write_other _ _ hne] at hb
        exact hheader b (hkept _ _ hb)

theorem malloc (ht : Recorded t) (hcall : dosixMalloc env size t.session.heap = .ok (q, h))
    : Recorded (t.exchange p q size h) := by
  have hids := survives_ids_nodup.malloc ht.ids_nodup hcall
  rcases dosixMalloc_blocks hcall with ⟨-, rfl, hblocks⟩ | ⟨rfl, hblocks⟩
  . exact ht.handedOut hids (fun _ _ hb => hb) hblocks
  . exact ht.released hids hblocks

theorem free (ht : Recorded t) (hcall : dosixFree env p t.session.heap = .ok h)
    : Recorded (t.exchange p 0 size h) :=
  ht.released (survives_ids_nodup.free ht.ids_nodup hcall) (dosixFree_blocks hcall)

theorem nowhere (ht : Recorded t) {a : Addr} {blocks : Addr → Option Block} {block : Option Block}
    (hids : h.heapTree.ids.Nodup) (ha : a + sizeofHeapInfo = 0)
    (hkept : ∀ a b, blocks a = some b → t.session.heap.blocks a = some b)
    (hblocks : h.blocks = Memory.write blocks a block)
    : Recorded { t with session := { t.session with heap := h } } := by
  apply ht.failed hids
  intro x b hx hb
  rw [hblocks, Memory.write_other] at hb
  . exact hkept x b hb
  . rintro rfl
    exact hx ha

theorem realloc (ht : Recorded t) (hcall : dosixRealloc env p size t.session.heap = .ok (q, h))
    : Recorded (if q = 0 ∧ size ≠ 0 then { t with session := { t.session with heap := h } }
        else t.exchange p q size h) := by
  have hids := survives_ids_nodup.realloc ht.ids_nodup hcall
  by_cases hp : p = 0
  . rw [dosixRealloc, if_pos hp] at hcall
    split
    . next hfail =>
      rcases dosixMalloc_blocks hcall with ⟨-, hq, hblocks⟩ | ⟨-, hblocks⟩
      . exact ht.nowhere hids (hq ▸ hfail.1) (fun _ _ hb => hb) hblocks
      . exact ht.failed hids fun a b _ hb => hblocks a b hb
    . exact ht.malloc hcall
  . by_cases hsize : size = 0
    . rw [dosixRealloc, if_neg hp, if_pos hsize] at hcall
      split at hcall
      . simp at hcall
      . next hfree =>
        injection hcall with hcall
        obtain ⟨rfl, rfl⟩ := Prod.mk.inj hcall
        rw [if_neg (fun h => h.2 hsize)]
        exact ht.free hfree
    . have hkept : ∀ a b,
          Memory.write t.session.heap.blocks (p - sizeofHeapInfo) none a = some b →
            t.session.heap.blocks a = some b := by
        intro a b hb
        by_cases ha : a = p - sizeofHeapInfo
        . simp [ha] at hb
        . rwa [Memory.write_other _ _ ha] at hb
      rcases dosixRealloc_blocks hp hsize hcall with
        ⟨-, rfl, old, data, -, -, hblocks⟩ | ⟨rfl, hblocks⟩ | ⟨rfl, -, hblocks⟩
      . split
        . next hfail => exact ht.nowhere hids hfail.1 hkept hblocks
        . exact ht.handedOut hids hkept hblocks
      . rw [if_pos ⟨rfl, hsize⟩]
        exact ht.failed hids fun a b _ hb => hblocks ▸ hb
      . rw [if_pos ⟨rfl, hsize⟩]
        exact ht.failed hids fun a b _ hb => hkept a b (hblocks ▸ hb)

theorem step (ht : Recorded t) {call : Call} {t' : Sized} (hstep : t.step call = .ok t')
    : Recorded t' := by
  obtain ⟨op, env⟩ := call
  unfold Sized.step at hstep
  cases op with
  | malloc size =>
    dsimp only at hstep
    split at hstep
    . simp at hstep
    . next q h hcall =>
      injection hstep with hstep
      exact hstep ▸ ht.malloc hcall
  | free p =>
    dsimp only at hstep
    split at hstep
    . simp at hstep
    . next h hcall =>
      injection hstep with hstep
      exact hstep ▸ ht.free hcall
  | realloc p size =>
    dsimp only at hstep
    split at hstep
    . simp at hstep
    . next q h hcall =>
      rw [← apply_ite Except.ok] at hstep
      injection hstep with hstep
      exact hstep ▸ ht.realloc hcall

theorem run {calls : List Call} (hrun : Transition.run Sized.step {} calls = .ok t)
    : Recorded t := by
  apply run_invariant (p := fun _ _ => True) _ init (.of_forall (fun _ _ => trivial) _ _) hrun
  intro t call t' ht _ hstep
  exact ht.step hstep

theorem dosixMsize_found (ht : Recorded t) (hp : p ∈ t.session.live) {slot : Nat}
    (hfind : t.session.heap.heapTree.tfind (heapEntryinfoCmp (p - sizeofHeapInfo)) = some slot)
    {h' : Heap} (hcall : dosixMsize p t.session.heap = .ok (size, h'))
    : ∃ n, t.requested p = some n ∧ size = sizeofHeapInfo + n := by
  obtain ⟨n, hn, hheader⟩ := ht.header p hp
  refine ⟨n, hn, ?_⟩
  obtain ⟨xs, k, ys, hnodes, hk⟩ := tfind_spec hfind
  obtain rfl := eq_of_heapEntryinfoCmp_eq_zero hk
  have hslot := slot_of_nodes_eq ht.ids_nodup hnodes
  simp only [dosixMsize, hfind, Heap.entryAt, hslot] at hcall
  cases hblock : t.session.heap.blocks (p - sizeofHeapInfo) with
  | none => simp [hblock] at hcall
  | some b =>
    obtain ⟨-, hinfo⟩ := hheader b hblock
    simp only [hblock, hinfo, ↓reduceIte] at hcall
    injection hcall with hcall
    exact (Prod.mk.inj hcall).1.symm

end Recorded

theorem dosixMsize_lost {p : Addr} {h : Heap}
    (hlost : h.heapTree.tfind (heapEntryinfoCmp (p - sizeofHeapInfo)) = none)
    : dosixMsize p h
        = .ok (0, { h with errno := some .EINVAL, warnings := h.warnings ++ [.msize p] }) := by
  simp only [dosixMsize, hlost]

/--
A program that keeps a block at the size that `_msize` reports for it.
-/
def refit (r : Addr × Heap) (env : Choices) : Except Fault (Addr × Heap) :=
  match dosixMsize r.1 r.2 with
  | .error e => .error e
  | .ok (size, h) =>
    match dosixRealloc env r.1 size h with
    | .error e => .error e
    | .ok (q, h) => .ok (if q = 0 then r.1 else q, h)

structure ReportsUsable (t : Sized) (p : Addr) : Prop where
  requested : ∃ size, t.requested p = some size
    ∧ ∃ h, dosixMsize p t.session.heap = .ok (size, h)
      ∧ (∀ seg, dosixBmsize seg p t.session.heap = .ok (size, h))
      ∧ dosixFmsize p t.session.heap = .ok (size, h)
      ∧ dosixNmsize p t.session.heap = .ok (size, h)
  usable : ∀ size h, dosixMsize p t.session.heap = .ok (size, h) →
    ∀ b, t.session.heap.blocks (p - sizeofHeapInfo) = some b →
      sizeofHeapInfo.toNat + size.toNat ≤ b.length.toNat
  stable : ∀ size h, dosixMsize p t.session.heap = .ok (size, h) →
    ∀ envs q h', run refit (p, t.session.heap) envs = .ok (q, h') →
      ∀ size' h'', dosixMsize q h' = .ok (size', h'') → size' = size

/--
The program holds `p`, and the tree has lost it.
-/
def Lost (p : Addr) (r : Addr × Heap) : Prop :=
  r.1 = p ∧ r.2.heapTree.tfind (heapEntryinfoCmp (p - sizeofHeapInfo)) = none

theorem Lost.refit {r r' : Addr × Heap} {p : Addr} {env : Choices} (hr : Lost p r) (hp : p ≠ 0)
    (hstep : refit r env = .ok r')
    : Lost p r' := by
  obtain ⟨q, h⟩ := r
  obtain ⟨hq, hlost⟩ := hr
  obtain rfl : q = p := hq
  dsimp only at hlost
  simp only [Sized.refit, dosixMsize_lost hlost, dosixRealloc, dosixFree, hp, hlost, ↓reduceIte]
    at hstep
  injection hstep with hstep
  rw [← hstep]
  exact ⟨rfl, hlost⟩

theorem Lost.run {r r' : Addr × Heap} {p : Addr} {envs : List Choices} (hr : Lost p r)
    (hp : p ≠ 0) (hrun : Transition.run Sized.refit r envs = .ok r')
    : Lost p r' := by
  apply run_invariant (p := fun _ _ => True) _ hr (.of_forall (fun _ _ => trivial) _ _) hrun
  intro r env r' hr _ hstep
  exact hr.refit hp hstep

/--
The header is counted in: the one block whose size is reported as it was asked for is the empty one
that the tree has lost.
-/
theorem reportsUsable_iff {calls : List Call} {t : Sized} {p : Addr}
    (hrun : run step {} calls = .ok t) (hp : p ∈ t.session.live)
    : t.ReportsUsable p ↔ t.requested p = some 0
        ∧ t.session.heap.heapTree.tfind (heapEntryinfoCmp (p - sizeofHeapInfo)) = none := by
  have ht := Recorded.run hrun
  constructor
  . rintro ⟨⟨size, hsize, h, hcall, -⟩, -, -⟩
    cases hfind : t.session.heap.heapTree.tfind (heapEntryinfoCmp (p - sizeofHeapInfo)) with
    | some slot =>
      obtain ⟨n, hn, hadd⟩ := ht.dosixMsize_found hp hfind hcall
      rw [hn] at hsize
      obtain rfl := Option.some.inj hsize
      simp [sizeofHeapInfo] at hadd
    | none =>
      rw [dosixMsize_lost hfind] at hcall
      injection hcall with hcall
      rw [hsize, (Prod.mk.inj hcall).1]
      exact ⟨rfl, rfl⟩
  . rintro ⟨hsize, hlost⟩
    have hcall := dosixMsize_lost hlost
    refine ⟨⟨0, hsize, _, hcall, fun _ => hcall, hcall, hcall⟩, ?_, ?_⟩
    . intro size h hsome b hb
      rw [hcall] at hsome
      injection hsome with hsome
      obtain ⟨n, hn, hheader⟩ := ht.header p hp
      rw [hsize] at hn
      rw [(hheader b hb).1, ← (Prod.mk.inj hsome).1, ← Option.some.inj hn]
      decide
    . intro size h hsome envs q h' hrefit size' h'' hsome'
      have hinv : Lost p (q, h') := Lost.run ⟨rfl, hlost⟩ (ht.live_ne_zero p hp) hrefit
      obtain ⟨rfl, hlost'⟩ := hinv
      rw [hcall] at hsome
      rw [dosixMsize_lost hlost'] at hsome'
      injection hsome with hsome
      injection hsome' with hsome'
      rw [← (Prod.mk.inj hsome).1, ← (Prod.mk.inj hsome').1]

def lostEmptyCalls : List Call :=
  [
    ⟨.malloc 8, { block := 0x1000 }⟩,
    ⟨.malloc 0, { block := 0x2000 }⟩,
    ⟨.realloc 0x1018 16, { block := 0x3000 }⟩
  ]

theorem reportsUsable_iff_lostEmptyCalls
    : ∃ t, run step {} lostEmptyCalls = .ok t ∧ 0x2018 ∈ t.session.live
        ∧ t.ReportsUsable 0x2018 ∧ ¬ t.ReportsUsable 0x3018 := by
  obtain ⟨t, hrun, hsome⟩ := exists_of_any (r := run step {} lostEmptyCalls)
    (q := fun t => 0x2018 ∈ t.session.live ∧ 0x3018 ∈ t.session.live
      ∧ t.requested 0x2018 = some 0 ∧ t.requested 0x3018 = some 16
      ∧ t.session.heap.heapTree.tfind (heapEntryinfoCmp (0x2018 - sizeofHeapInfo)) = none)
    (by decide +kernel)
  obtain ⟨hlive, hother, hempty, hsize, hlost⟩ := of_decide_eq_true hsome
  refine ⟨t, hrun, hlive, (reportsUsable_iff hrun hlive).mpr ⟨hempty, hlost⟩, ?_⟩
  rw [reportsUsable_iff hrun hother, hsize]
  simp

theorem not_reportsUsable_malloc
    : ∃ t h, run step {} [⟨.malloc 8, { block := 0x1000 }⟩] = .ok t ∧ 0x1018 ∈ t.session.live
        ∧ t.requested 0x1018 = some 8 ∧ dosixMsize 0x1018 t.session.heap = .ok (32, h)
        ∧ ¬ t.ReportsUsable 0x1018 := by
  obtain ⟨t, hrun, hsome⟩ := exists_of_any
    (r := run step {} [⟨.malloc 8, { block := 0x1000 }⟩])
    (q := fun t => 0x1018 ∈ t.session.live ∧ t.requested 0x1018 = some 8
      ∧ (dosixMsize 0x1018 t.session.heap).toOption.any fun r => r.1 = 32)
    (by decide +kernel)
  obtain ⟨hlive, hsize, hmsize⟩ := of_decide_eq_true hsome
  obtain ⟨⟨size, h⟩, hcall, hthirtytwo⟩ := exists_of_any hmsize
  obtain rfl := of_decide_eq_true hthirtytwo
  refine ⟨t, h, hrun, hlive, hsize, hcall, ?_⟩
  rintro ⟨⟨n, hn, h', hcall', -⟩, -, -⟩
  rw [hcall] at hcall'
  injection hcall' with hcall'
  rw [hsize] at hn
  have := Option.some.inj hn
  rw [← (Prod.mk.inj hcall').1] at this
  simp at this

end Sized

end Malloc
end Dosix
