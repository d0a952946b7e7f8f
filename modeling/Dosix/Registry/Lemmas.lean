import Dosix.Circular.Basic
import Dosix.Dos.Lemmas.AllocMem
import Dosix.Registry.Impl
import Dosix.SearchTree.Comparison
import Dosix.Stdio.Lemmas.Streams

/-!
This module contains which objects the comparison functions of the registries order. The difference of
two pointers loses its upper half when it becomes an `int`, so that the objects are compared by their
places on a circle of `2 ^ 32` objects.
-/

namespace Dosix
namespace Registry

open SearchTree Circular Malloc

variable {α : Type} {size : Nat}

theorem orders_intDifference_iff (hsize : 0 < size) {f : α → Addr} {s : List α}
    (hinj : ∀ a ∈ s, ∀ b ∈ s, f a = f b → a = b)
    : Orders (fun a b => intDifference size (f a) (f b)) s
        ↔ OnArc (2 ^ 31) size (s.map fun a => ((f a).toNat : Int)) := by
  have hmap : Orders (Stdio.streamCmp (Stdio.quotient size)) (s.map f)
      ↔ Orders (fun a b => intDifference size (f a) (f b)) s :=
    orders_map_iff hinj
  rw [← hmap, Stdio.orders_streamCmp_iff, List.map_map, orders_iff (by decide) hsize]
  rfl

/--
The registries get the orders that they need exactly of objects on one half of the circle, of which no
two are a multiple of `2 ^ 31` whole objects apart.
-/
theorem comparators_order_iff (sizeofFile : Nat) (hsize : 0 < sizeofFile)
    : (∀ records : List AllocMem,
          (∀ a ∈ records, ∀ b ∈ records, a.address = b.address → a = b) →
          (Orders allocmemCmp records
            ↔ OnArc (2 ^ 31) 1 (records.map fun a => (a.address.toNat : Int))))
        ∧ (∀ entries : List HeapInfo,
          (∀ a ∈ entries, ∀ b ∈ entries, a.pentry = b.pentry → a = b) →
          (Orders heapEntryinfoCmp entries
            ↔ OnArc (2 ^ 31) 24 (entries.map fun a => (a.pentry.toNat : Int))))
        ∧ ∀ streams : List Addr,
          Orders (streamCmp sizeofFile) streams
            ↔ OnArc (2 ^ 31) sizeofFile (streams.map fun a => (a.toNat : Int)) := by
  refine ⟨?_, ?_, ?_⟩
  . intro records hdistinct
    exact orders_intDifference_iff (by decide) hdistinct
  . intro entries hdistinct
    exact orders_intDifference_iff (by decide) hdistinct
  . intro streams
    exact orders_intDifference_iff hsize fun a _ b _ h => h

/--
Three blocks of DOS, three entries of the heap and three streams that are close together.
-/
theorem comparators_order_iff_near
    : Orders allocmemCmp [⟨0x7f0000002000, 0x1000⟩, ⟨0x7f0000000000, 0x2000⟩, ⟨0x7f0000003000, 0x10⟩]
        ∧ Orders heapEntryinfoCmp [⟨0x5500000030, 32, 1⟩, ⟨0x5500000000, 32, 1⟩, ⟨0x5500000120, 64, 1⟩]
        ∧ Orders (streamCmp 216) [0x5500000300, 0x55000004b0, 0x5500000660] := by
  obtain ⟨hrecords, hentries, hstreams⟩ := comparators_order_iff 216 (by decide)
  refine ⟨(hrecords _ (by decide)).mpr ?_, (hentries _ (by decide)).mpr ?_, (hstreams _).mpr ?_⟩
  . exact ⟨by decide, 0x7f0000000000, by decide⟩
  . exact ⟨by decide, 0x5500000000, by decide⟩
  . exact ⟨by decide, 0x5500000300, by decide⟩

/--
Of two blocks that are 4 GiB apart the one is found in the place of the other. Of three entries of the
heap each one is below the next, and the last one below the first. Two streams with room for `2 ^ 31`
between them are each below the other.
-/
theorem not_comparators_order_far
    : (allocmemCmp ⟨0x7f0100000000, 0x1000⟩ ⟨0x7f0000000000, 0x1000⟩ = 0
          ∧ (SearchTree.node .leaf 0 ⟨0x7f0000000000, 0x1000⟩ .leaf).tfind
            (allocmemCmp ⟨0x7f0100000000, 0x1000⟩) = some 0
          ∧ ¬ Orders allocmemCmp
            [⟨0x7f0000000000, 0x1000⟩, ⟨0x7f0000001000, 0x1000⟩, ⟨0x7f0100000000, 0x1000⟩])
        ∧ ¬ Orders heapEntryinfoCmp
          [⟨0x550000000000, 32, 1⟩, ⟨0x550900000000, 32, 1⟩, ⟨0x551200000000, 32, 1⟩]
        ∧ ¬ Orders (streamCmp 216) [0x550000000000, 0x5500000010e0, 0x556c00000000] := by
  decide

/--
The condition on the runs of `fopen` and `fclose` that keep the registry of streams, in terms of
addresses.
-/
theorem stream_ordered_iff (hsize : 0 < size) (s : Stdio.Session) (call : Stdio.Call)
    : Stdio.Ordered (Stdio.quotient size) s call
        ↔ match call.op with
          | .fopen =>
            call.env.stream = 0
              ∨ OnArc (2 ^ 31) size ((call.env.stream :: s.live).map fun a => (a.toNat : Int))
          | .fclose stream => OnArc (2 ^ 31) size ((stream :: s.live).map fun a => (a.toNat : Int))
          | .fcloseall => True := by
  have horders (streams : List Addr) : Orders (Stdio.streamCmp (Stdio.quotient size)) streams
      ↔ OnArc (2 ^ 31) size (streams.map fun a => (a.toNat : Int)) :=
    orders_intDifference_iff hsize fun a _ b _ h => h
  obtain ⟨op, env⟩ := call
  cases op with
  | fopen => exact or_congr Iff.rfl (horders _)
  | fclose stream => exact horders _
  | fcloseall => exact Iff.rfl

/-! Objects that are near each other. -/

/--
The pointers are the same, or to objects that do not overlap, and less than `2 ^ 31` objects apart.
-/
def Near (size : Nat) (a b : Addr) : Prop :=
  a = b ∨ (a.toNat + size ≤ b.toNat ∧ b.toNat < a.toNat + 2 ^ 31 * size)
    ∨ (b.toNat + size ≤ a.toNat ∧ a.toNat < b.toNat + 2 ^ 31 * size)

theorem intDifference_eq (size : Nat) (a b : Addr)
    : intDifference size a b = Circular.cmp (2 ^ 31) size a.toNat b.toNat :=
  congrFun (congrFun (Stdio.streamCmp_quotient size) a) b

theorem Near.intDifference {a b : Addr} (hsize : 0 < size) (h : Near size a b)
    : (intDifference size a b = 0 ↔ (a.toNat : Int) - b.toNat = 0)
        ∧ (intDifference size a b < 0 ↔ (a.toNat : Int) - b.toNat < 0) := by
  have hhalf : 0 < 2 ^ 31 := by decide
  rw [intDifference_eq]
  rcases h with rfl | ⟨hle, hlt⟩ | ⟨hle, hlt⟩
  . simp
  . have := cmp_near hhalf hsize (x := b.toNat) (y := a.toNat) (by omega) (by omega)
    omega
  . have := cmp_near hhalf hsize (x := a.toNat) (y := b.toNat) (by omega) (by omega)
    omega

variable {σ : Type}

/--
The comparison by which `dos.c` searches is the computed one where an `int` keeps the lower 32 bits.
-/
theorem allocmemCmp_eq {px : Posix σ} (hint : ∀ x, px.intOf x = (BitVec.ofInt 32 x).toInt) (s : Dos σ)
    (a : AllocMem)
    : Dosix.allocmemCmp px s a.address = allocmemCmpAt s a := by
  funext ptr
  unfold Dosix.allocmemCmp allocmemCmpAt allocmemCmp intDifference Stdio.quotient
  cases s.allocmem ptr with
  | none => rfl
  | some b =>
    dsimp only
    rw [hint]
    congr 1
    apply BitVec.eq_of_toNat_eq
    rw [BitVec.toNat_setWidth, BitVec.toNat_ofInt, BitVec.toNat_ofInt, Nat.cast_one, Int.tdiv_one]
    omega

/--
Among blocks of DOS that are less than 2 GiB apart, the searches go by the exact addresses.
-/
theorem allocmemTree_sameSearches (s : Dos σ) (a : AllocMem)
    (hnear : ∀ ptr ∈ s.allocmemTree.keys, ∀ b, s.allocmem ptr = some b → Near 1 a.address b.address)
    : SameSearches (allocmemCmpAt s a) (recordCmp s.allocmem a.address) s.allocmemTree := by
  apply Alike.sameSearches
  intro ptr hptr
  unfold allocmemCmpAt recordCmp recordAddress
  cases hrecord : s.allocmem ptr with
  | none => simp
  | some b => exact (hnear ptr hptr b hrecord).intDifference (by decide)

/--
This is how the comparison comes to be exact, as the law of the memory blocks takes it to be.
-/
theorem comparesExactly_of_near {px : Posix σ} (hint : ∀ x, -2 ^ 31 ≤ x → x < 2 ^ 31 → px.intOf x = x)
    (s : Dos σ) (address : Addr)
    (hnear : ∀ ptr ∈ s.allocmemTree.keys, ∀ b, s.allocmem ptr = some b → Near 1 address b.address)
    : s.ComparesExactly px address = true := by
  unfold Dos.ComparesExactly
  rw [List.all_eq_true]
  intro ptr hptr
  rw [decide_eq_true_eq]
  unfold Dosix.allocmemCmp recordCmp recordAddress
  cases hrecord : s.allocmem ptr with
  | none => simp
  | some b =>
    apply hint
    all_goals
      rcases hnear ptr hptr b hrecord with heq | ⟨hle, hlt⟩ | ⟨hle, hlt⟩
      . simp [heq]
      . omega
      . omega

/--
So do those of the heap among entries, each of which holds its own address, that are less than 48 GiB
apart.
-/
theorem heapTree_sameSearches (h : Heap) (a : HeapInfo)
    (hpentry : ∀ ptr ∈ h.heapTree.keys, ∃ b, h.blocks ptr = some b ∧ b.info.pentry = ptr)
    (hnear : ∀ ptr ∈ h.heapTree.keys, Near 24 a.pentry ptr)
    : SameSearches (heapEntryinfoCmpAt h a) (Malloc.heapEntryinfoCmp a.pentry) h.heapTree := by
  apply Alike.sameSearches
  intro ptr hptr
  obtain ⟨b, hblock, hb⟩ := hpentry ptr hptr
  unfold heapEntryinfoCmpAt heapEntryinfoCmp Malloc.heapEntryinfoCmp
  rw [hblock]
  dsimp only
  rw [hb]
  exact (hnear ptr hptr).intDifference (by decide)

end Registry
end Dosix
