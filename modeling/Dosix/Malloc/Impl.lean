import Dosix.Libc.Basic
import Dosix.SearchTree.Basic
import Dosix.SearchTree.Walk
import Mathlib.Algebra.Group.Nat.Defs
import Mathlib.Logic.Function.Basic

/-!
This module contains the heap functions of `malloc.c`: `malloc`, `realloc`, `free`, `_msize` and
`_heapchk` on top of those of the underlying C library, with a registry of all blocks in a search
tree.
-/

namespace Dosix
namespace Malloc

abbrev Byte := BitVec 8

def sizeofHeapInfo : Size := 24

theorem eq_of_header_eq {p q : Addr} (h : p - sizeofHeapInfo = q - sizeofHeapInfo) : p = q := by
  rw [← BitVec.sub_add_cancel p sizeofHeapInfo, h, BitVec.sub_add_cancel]

def USEDENTRY : BitVec 32 := 1

structure HeapInfo where
  pentry : Addr
  size : Size
  useflag : BitVec 32
  deriving Repr, DecidableEq

structure Block where
  length : Size
  info : HeapInfo
  data : Nat → BitVec 8

inductive Warning where
  | realloc (memblock : Addr) (size : Size)
  | free (memblock : Addr)
  | msize (memblock : Addr)
  deriving Repr, DecidableEq

structure Heap where
  heapTree : SearchTree Addr := .leaf
  -- the blocks that the underlying allocator has handed out and not taken back
  blocks : Addr → Option Block := fun _ => none
  errno : Option Errno := none
  warnings : List Warning := []
  -- the addresses handed to the underlying `free`, in this order
  frees : List Addr := []

structure Choices where
  -- the result of the underlying `malloc` or `realloc`, `0` on failure
  block : Addr := 0
  -- the bytes that a fresh block happens to hold
  data : Nat → BitVec 8 := fun _ => 0
  -- whether `tsearch` gets memory for a node
  memory : Bool := true
  -- what the key slot of a freed node still reads as, if it can be read at all
  stale : Option Addr := none
  bal : SearchTree.Balancing Addr := .id

/--
`heap_entryinfo_cmp`, read as the comparison of the exact addresses.
-/
def heapEntryinfoCmp (a b : Addr) : Int :=
  a.toNat - b.toNat

namespace Heap

def setBlock (h : Heap) (a : Addr) (b : Option Block) : Heap :=
  { h with blocks := Memory.write h.blocks a b }

def free (h : Heap) (a : Addr) : Except Fault Heap :=
  match h.blocks a with
  | none => .error .undefined
  | some _ => .ok { h.setBlock a none with frees := h.frees ++ [a] }

def entryAt (h : Heap) (slot : Nat) : Except Fault (Addr × HeapInfo) :=
  match h.heapTree.slot slot with
  | none => .error .undefined
  | some a =>
    match h.blocks a with
    | none => .error .undefined
    | some b => .ok (a, b.info)

end Heap

def dosixMalloc (env : Choices) (size : Size) (h : Heap) : Except Fault (Addr × Heap) :=
  let totalSize := sizeofHeapInfo + size
  let entryinfo := env.block
  if entryinfo = 0 then
    .ok (0, { h with errno := some .ENOMEM })
  else
    let info := { pentry := entryinfo, size := totalSize, useflag := USEDENTRY }
    let h := h.setBlock entryinfo (some ⟨totalSize, info, env.data⟩)
    match h.heapTree.tsearch env.bal (heapEntryinfoCmp entryinfo) entryinfo env.memory with
    | (none, _) =>
      match h.free entryinfo with
      | .error e => .error e
      | .ok h => .ok (0, { h with errno := some .ENOMEM })
    | (some slot, tree) =>
      if tree.slot slot = some entryinfo then
        .ok (entryinfo + sizeofHeapInfo, { h with heapTree := tree })
      else
        .error .assertion

def dosixFree (env : Choices) (memblock : Addr) (h : Heap) : Except Fault Heap :=
  if memblock = 0 then
    .ok h
  else
    let pentry := memblock - sizeofHeapInfo
    match h.heapTree.tfind (heapEntryinfoCmp pentry) with
    | none =>
      .ok { h with errno := some .EINVAL, warnings := h.warnings ++ [.free memblock] }
    | some slot =>
      match h.entryAt slot with
      | .error e => .error e
      | .ok (_, info) =>
        if info.pentry = pentry then
          match h.heapTree.tdelete env.bal (heapEntryinfoCmp pentry) with
          | none => .error .assertion
          | some (freed, tree) =>
            -- the slot is read once more, after `tdelete` has freed a node
            let read := if freed = slot then env.stale else tree.slot slot
            match read with
            | none => .error .undefined
            | some a => { h with heapTree := tree }.free a
        else
          .error .assertion

def dosixRealloc (env : Choices) (memblock : Addr) (size : Size) (h : Heap)
    : Except Fault (Addr × Heap) :=
  if memblock = 0 then
    dosixMalloc env size h
  else if size = 0 then
    match dosixFree env memblock h with
    | .error e => .error e
    | .ok h => .ok (0, h)
  else
    let pentry := memblock - sizeofHeapInfo
    let totalSize := sizeofHeapInfo + size
    match h.heapTree.tfind (heapEntryinfoCmp pentry) with
    | none =>
      .ok (0, { h with
        errno := some .EINVAL
        warnings := h.warnings ++ [.realloc memblock size] })
    | some slot =>
      match h.entryAt slot with
      | .error e => .error e
      | .ok (_, info) =>
        if info.pentry = pentry then
          if totalSize = 0 then
            -- `realloc (pentry, 0)` frees the block and returns `NULL`
            match h.blocks pentry with
            | none => .error .undefined
            | some _ => .ok (0, h.setBlock pentry none)
          else if env.block = 0 then
            .ok (0, { h with errno := some .ENOMEM })
          else
            match h.blocks pentry with
            | none => .error .undefined
            | some old =>
              let kept := min old.length.toNat totalSize.toNat - sizeofHeapInfo.toNat
              let data := fun i => if i < kept then old.data i else env.data i
              let info := { pentry := env.block, size := totalSize, useflag := USEDENTRY }
              let h := (h.setBlock pentry none).setBlock env.block (some ⟨totalSize, info, data⟩)
              -- the key of the node is overwritten where it stands
              let tree := h.heapTree.setSlot slot env.block
              .ok (env.block + sizeofHeapInfo, { h with heapTree := tree })
        else
          .error .assertion

def dosixMsize (memblock : Addr) (h : Heap) : Except Fault (Size × Heap) :=
  let pentry := memblock - sizeofHeapInfo
  match h.heapTree.tfind (heapEntryinfoCmp pentry) with
  | none =>
    .ok (0, { h with errno := some .EINVAL, warnings := h.warnings ++ [.msize memblock] })
  | some slot =>
    match h.entryAt slot with
    | .error e => .error e
    | .ok (_, info) =>
      if info.pentry = pentry then
        .ok (info.size, h)
      else
        .error .assertion

def dosixBmsize (_seg : Addr) (memblock : Addr) (h : Heap) : Except Fault (Size × Heap) :=
  dosixMsize memblock h

def dosixFmsize (memblock : Addr) (h : Heap) : Except Fault (Size × Heap) :=
  dosixMsize memblock h

def dosixNmsize (memblock : Addr) (h : Heap) : Except Fault (Size × Heap) :=
  dosixMsize memblock h

/-! The heap check. -/

def HEAPEMPTY : Int := -1
def HEAPOK : Int := -2
def HEAPBADBEGIN : Int := -3
def HEAPBADNODE : Int := -4

inductive McheckStatus where
  | disabled
  | ok
  | head
  | tail
  | free
  deriving Repr, DecidableEq

/--
The memory that a walk from the address of `heap_tree` comes across.
-/
structure Image where
  -- the value of `heap_tree`, which is the address of the root node or `NULL`
  heapTree : Addr
  -- the nodes that the words after `heap_tree` lead to, if they can be taken for links
  links : Option (SearchTree Addr × SearchTree Addr)
  -- the pointer at an address, if one can be read there
  load : Addr → Option Addr

structure Check where
  heapstatus : Int := HEAPOK
  -- the addresses handed to `mprobe`, in this order
  probes : List Addr := []
  deriving Repr, DecidableEq

def heapStatusOf (status : McheckStatus) : Int :=
  match status with
  | .disabled => HEAPEMPTY
  | .ok => HEAPOK
  | .head => HEAPBADBEGIN
  | .tail => HEAPBADNODE
  | .free => HEAPBADNODE

def bheapchkBlock (probe : Addr → McheckStatus) (seg : Addr) (c : Check) : Int × Check :=
  (heapStatusOf (probe seg), { c with probes := c.probes ++ [seg] })

/--
`bheapchk`, where `entryinfo` is the key of the node.
-/
def bheapchk (image : Image) (probe : Addr → McheckStatus) (entryinfo : Addr)
    (value : SearchTree.Visit) (c : Check)
    : Except Fault Check :=
  if value ≠ .leaf ∧ value ≠ .preorder ∨ c.heapstatus ≠ HEAPOK then
    .ok c
  else
    -- `_pentry` is the first field
    match image.load entryinfo with
    | none => .error .undefined
    | some pentry =>
      if pentry = 0 then
        .error .assertion
      else
        let (status, c) := bheapchkBlock probe pentry c
        .ok (if status ≠ HEAPOK then { c with heapstatus := status } else c)

/--
`_bheapchk`, which hands `twalk` the address of `heap_tree`, not the root.
-/
def dosixBheapchk (image : Image) (probe : Addr → McheckStatus) (seg : Addr) (c : Check)
    : Except Fault (Int × Check) :=
  if seg = 0 then
    let c := { c with heapstatus := HEAPOK }
    match image.links with
    | none => .error .undefined
    | some links =>
      match Transition.run (fun c v => bheapchk image probe v.2 v.1 c) c
          (SearchTree.misrooted image.heapTree links).twalk with
      | .error f => .error f
      | .ok c => .ok (c.heapstatus, c)
  else
    .ok (bheapchkBlock probe seg c)

def dosixHeapchk (image : Image) (probe : Addr → McheckStatus) (c : Check)
    : Except Fault (Int × Check) :=
  dosixBheapchk image probe 0 c

def dosixFheapchk (image : Image) (probe : Addr → McheckStatus) (c : Check)
    : Except Fault (Int × Check) :=
  dosixHeapchk image probe c

def dosixNheapchk (image : Image) (probe : Addr → McheckStatus) (c : Check)
    : Except Fault (Int × Check) :=
  dosixHeapchk image probe c

/-!
A program that uses the heap: the pointers it was handed and has not given back are its live ones.
-/

inductive Op where
  | malloc (size : Size)
  | realloc (memblock : Addr) (size : Size)
  | free (memblock : Addr)
  deriving Repr, DecidableEq

structure Call where
  op : Op
  env : Choices

structure Session where
  heap : Heap := {}
  live : List Addr := []

namespace Session

def exchange (s : Session) (old new : Addr) (h : Heap) : Session where
  heap := h
  live := if new = 0 then s.live.erase old else new :: s.live.erase old

def step (s : Session) (call : Call) : Except Fault Session :=
  match call.op with
  | .malloc size =>
    match dosixMalloc call.env size s.heap with
    | .error e => .error e
    | .ok (q, h) => .ok (s.exchange 0 q h)
  | .realloc p size =>
    match dosixRealloc call.env p size s.heap with
    | .error e => .error e
    | .ok (q, h) =>
      if q = 0 ∧ size ≠ 0 then
        .ok { s with heap := h }
      else
        .ok (s.exchange p q h)
  | .free p =>
    match dosixFree call.env p s.heap with
    | .error e => .error e
    | .ok h => .ok (s.exchange p 0 h)

def answered (s : Session) (op : Op) (q : Addr) (h : Heap) : Session :=
  match op with
  | .malloc _ => s.exchange 0 q h
  | .realloc p size => if q = 0 ∧ size ≠ 0 then { s with heap := h } else s.exchange p q h
  | .free p => s.exchange p 0 h

/--
The byte `i` of the block behind `p`, if the block is there and long enough.
-/
def load (s : Session) (p : Addr) (i : Nat) : Option Byte :=
  match s.heap.blocks (p - sizeofHeapInfo) with
  | none => none
  | some block =>
    if sizeofHeapInfo.toNat + i < block.length.toNat then some (block.data i) else none

def store (s : Session) (p : Addr) (i : Nat) (x : Byte) : Except Fault Session :=
  match s.heap.blocks (p - sizeofHeapInfo) with
  | none => .error .undefined
  | some block =>
    if sizeofHeapInfo.toNat + i < block.length.toNat then
      let block := { block with data := Function.update block.data i x }
      .ok { s with heap := s.heap.setBlock (p - sizeofHeapInfo) (some block) }
    else
      .error .undefined

end Session

def Call.answer (c : Call) (h : Heap) : Except Fault (Addr × Heap) :=
  match c.op with
  | .malloc size => dosixMalloc c.env size h
  | .realloc p size => dosixRealloc c.env p size h
  | .free p => (dosixFree c.env p h).map fun h => (0, h)

end Malloc
end Dosix
