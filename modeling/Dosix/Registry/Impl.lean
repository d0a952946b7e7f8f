import Dosix.Dos.Impl.AllocMem
import Dosix.Malloc.Impl
import Dosix.Stdio.Impl

/-!
This module contains the functions by which `tsearch`, `tfind` and `tdelete` compare the blocks of DOS,
the entries of the heap and the streams, as they are computed: each one returns a difference of two
pointers as an `int`.
-/

namespace Dosix
namespace Registry

open Malloc Stdio

variable {σ : Type}

/--
The difference of two pointers to objects of `size` bytes as an `int`, which keeps its lower 32 bits.
-/
def intDifference (size : Nat) (a b : Addr) : Int :=
  ((quotient size a b).setWidth 32).toInt

/--
`allocmem_cmp`. The addresses are `void` pointers.
-/
def allocmemCmp (a b : AllocMem) : Int :=
  intDifference 1 a.address b.address

/--
`allocmem_cmp` as the searches call it, with a pointer to a record in the tree.
-/
def allocmemCmpAt (s : Dos σ) (a : AllocMem) (ptr : Addr) : Int :=
  match s.allocmem ptr with
  | none => a.address.toNat
  | some b => allocmemCmp a b

/--
`heap_entryinfo_cmp`.
-/
def heapEntryinfoCmp (a b : HeapInfo) : Int :=
  intDifference sizeofHeapInfo.toNat a.pentry b.pentry

/--
`heap_entryinfo_cmp` as the searches call it, with a pointer to a registered entry.
-/
def heapEntryinfoCmpAt (h : Heap) (a : HeapInfo) (ptr : Addr) : Int :=
  match h.blocks ptr with
  | none => a.pentry.toNat
  | some b => heapEntryinfoCmp a b.info

/--
`stream_cmp`. What a `FILE` takes up is left to the C library.
-/
def streamCmp (sizeofFile : Nat) (a b : Addr) : Int :=
  intDifference sizeofFile a b

end Registry
end Dosix
