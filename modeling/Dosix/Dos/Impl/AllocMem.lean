import Dosix.Dos.Impl.ExtErr

/-!
This module contains the memory blocks of DOS: a block is a mapping of the kernel, and a record of
its address and length in a search tree.
-/

namespace Dosix

variable {σ : Type}

def INT21_AH_ALLOCMEM : BitVec 56 := 0x48
def INT21_AH_FREEMEM : BitVec 56 := 0x49
def INT21_AH_SETBLOCK : BitVec 56 := 0x4a

def sysconf (px : Posix σ) (name : Sysconf) (s : Dos σ) : BitVec 64 × Dos σ :=
  match px.sysconf name s.os with
  | (.ok v, os) => (v, s.setOs os)
  | (.error none, os) => (-1, s.setOs os)
  | (.error (some e), os) => (-1, (s.setOs os).setErrno (some e))

def freeParagraphs (px : Posix σ) (s : Dos σ) : Except Fault (Result σ (BitVec 64)) :=
  match sysconf px .avphysPages s with
  | (freePages, s) =>
    if freePages = -1 then
      failed s
    else
      match sysconf px .pagesize s with
      | (pageSize, s) =>
        if pageSize = -1 then
          failed s
        else
          .ok ⟨0, some (freePages * pageSize / 16), s⟩

def allocmemError (px : Posix σ) (s : Dos σ) : Except Fault (Result σ (BitVec 64)) :=
  match freeParagraphs px s with
  | .error f => .error f
  | .ok r =>
    if r.code ≠ 0 then
      .ok r
    else
      match dosixDosexterr r.state with
      | .error f => .error f
      | .ok (errorinfo, s) => .ok ⟨errorinfo.exterror, r.out, s⟩

/--
`allocmem_cmp`, whose second argument points to a record in the tree.
-/
def allocmemCmp (px : Posix σ) (s : Dos σ) (address : Addr) (b : Addr) : Int :=
  match s.allocmem b with
  | none => address.toNat
  | some b => px.intOf (address.toNat - b.address.toNat)

def readable (px : Posix σ) (s : Dos σ) (address : Addr) : Bool :=
  -- a search reads the records on its path
  (s.allocmemTree.searchPath (allocmemCmp px s address)).all fun b => (s.allocmem b).isSome

def freeAllocmem (ptr : Addr) (s : Dos σ) : Except Fault (Dos σ) :=
  -- to free what is not allocated is undefined
  match s.allocmem ptr with
  | none => .error .undefined
  | some _ => .ok (s.setAllocmem (Memory.write s.allocmem ptr none))

def allocmemInsert (px : Posix σ) (ptr address : Addr) (s : Dos σ)
    : Except Fault (Result σ (BitVec 64)) :=
  if readable px s address then
    match px.tsearch s.os with
    | (memory, os) =>
      match s.allocmemTree.tsearch (px.bal os) (allocmemCmp px s address) ptr memory with
      | (none, _) =>
        match freeAllocmem ptr ((s.setOs os).setErrno (some .ENOMEM)) with
        | .error f => .error f
        | .ok s => allocmemError px s
      | (some slot, tree) =>
        if tree.slot slot = some ptr then
          .ok ⟨0, some address, (s.setOs os).setAllocmemTree tree⟩
        else
          .error .assertion
  else
    .error .undefined

def dosixDosAllocmem (px : Posix σ) (size : Size) (s : Dos σ)
    : Except Fault (Result σ (BitVec 64)) :=
  -- without a size nothing is assigned
  if size = 0 then
    .ok ⟨0, none, s⟩
  else
    match px.malloc s.os with
    | (ptr, os) =>
      if ptr = 0 then
        allocmemError px ((s.setOs os).setErrno (some .ENOMEM))
      else
        let length := size * 16
        match (s.setOs os).call (px.mmap length) with
        | (none, s) =>
          -- the record, which is not yet in use otherwise, is freed
          allocmemError px s
        | (some address, s) =>
          let s := s.setAllocmem (Memory.write s.allocmem ptr (some ⟨address, length⟩))
          let s := s.setMappings (Memory.write s.mappings address (some length))
          allocmemInsert px ptr address s

def dosixDosSetblock (px : Posix σ) (size : Size) (seg : Addr) (s : Dos σ)
    : Except Fault (Result σ (BitVec 64)) :=
  if size = 0 then
    .ok ⟨0, none, s⟩
  else if readable px s seg then
    match s.allocmemTree.tfind (allocmemCmp px s seg) with
    | none => failed (s.setErrno (some .EFAULT))
    | some slot =>
      match s.allocmemTree.slot slot with
      | none => .error .undefined
      | some ptr =>
        match s.allocmem ptr with
        | none => .error .undefined
        | some old =>
          if seg = old.address then
            let length := 16 * size
            match s.call (px.mremap seg old.length length) with
            | (none, s) => allocmemError px s
            | (some address, s) =>
              if address = seg then
                let s := s.setAllocmem (Memory.write s.allocmem ptr (some ⟨address, length⟩))
                .ok ⟨0, none, s.setMappings (Memory.write s.mappings address (some length))⟩
              else
                .error .assertion
          else
            .error .assertion
  else
    .error .undefined

/--
The part of `_dosix__dos_freemem` that follows a successful `munmap`. The slot that `tfind` found is
read once more, after `tdelete` has freed a node.
-/
def freememDelete (px : Posix σ) (seg : Addr) (slot : Nat) (s : Dos σ)
    : Except Fault (Result σ Unit) :=
  match s.allocmemTree.tdelete (px.bal s.os) (allocmemCmp px s seg) with
  | none => .error .assertion
  | some (freed, tree) =>
    match if freed = slot then px.stale s.os else tree.slot slot with
    | none => .error .undefined
    | some ptr =>
      match freeAllocmem ptr (s.setAllocmemTree tree) with
      | .error f => .error f
      | .ok s => .ok ⟨0, none, s⟩

def dosixDosFreemem (px : Posix σ) (seg : Addr) (s : Dos σ) : Except Fault (Result σ Unit) :=
  if seg = 0 then
    .error .assertion
  else if readable px s seg then
    match s.allocmemTree.tfind (allocmemCmp px s seg) with
    | none => failed (s.setErrno (some .EFAULT))
    | some slot =>
      match s.allocmemTree.slot slot with
      | none => .error .undefined
      | some ptr =>
        match s.allocmem ptr with
        | none => .error .undefined
        | some old =>
          if seg = old.address then
            match s.call (px.munmap seg old.length) with
            | (none, s) =>
              .ok (exterrSet
                ⟨EXTERR_MCB_DESTROYED, ERRCLASS_INTERN_SYS_ERROR, ERRACT_IMMEDIATE_ABORT,
                  ERRLOCUS_MEM_RELATED⟩ (some .EINVAL) s)
            | (some _, s) =>
              freememDelete px seg slot (s.setMappings (Memory.write s.mappings seg none))
          else
            .error .assertion
  else
    .error .undefined

def cpuAllocmem (px : Posix σ) (cpu : Cpu) (s : Dos σ) : Except Fault (Cpu × Dos σ) := do
  assertThat (cpu.ah = INT21_AH_ALLOCMEM)
  let r ← dosixDosAllocmem px cpu.bx s
  let seg := r.out.getD px.uninit
  let cpu := cpu.setCode r.code
  if cpu.flags ≠ 0 then
    return ({ cpu with bx := seg }, r.state)
  else
    return ({ cpu with ax := seg }, r.state)

def cpuSetblock (px : Posix σ) (cpu : Cpu) (s : Dos σ) : Except Fault (Cpu × Dos σ) := do
  assertThat (cpu.ah = INT21_AH_SETBLOCK)
  let r ← dosixDosSetblock px cpu.bx cpu.es s
  let maxsize := r.out.getD px.uninit
  let cpu := cpu.setCode r.code
  return ({ cpu with bx := if cpu.flags ≠ 0 then maxsize else cpu.bx }, r.state)

def cpuFreemem (px : Posix σ) (cpu : Cpu) (s : Dos σ) : Except Fault (Cpu × Dos σ) := do
  assertThat (cpu.ah = INT21_AH_FREEMEM)
  let r ← dosixDosFreemem px cpu.es s
  return (cpu.setCode r.code, r.state)

end Dosix
