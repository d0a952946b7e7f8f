import Dosix.Dos.Impl.File

/-!
This module contains processes that open and close one file, on a kernel that keeps the descriptors
and the advisory locks of each of them. The locks are on the whole file.
-/

namespace Dosix

namespace Sharing

variable {ι : Type} [DecidableEq ι]

inductive Access where
  | rdonly
  | wronly
  | rdwr
  deriving Repr, DecidableEq

namespace Access

def word (a : Access) : BitVec 32 :=
  match a with
  | .rdonly => _O_RDONLY
  | .wronly => _O_WRONLY
  | .rdwr => _O_RDWR

def ofFlags (flags : BitVec 32) : Option Access :=
  if flags = O_RDONLY then
    some .rdonly
  else if flags = O_WRONLY then
    some .wronly
  else if flags = O_RDWR then
    some .rdwr
  else
    none

def reads (a : Access) : Bool :=
  a ≠ .wronly

def writes (a : Access) : Bool :=
  a ≠ .rdonly

end Access

inductive Lock where
  | read
  | write
  deriving Repr, DecidableEq

namespace Lock

def ofType (type : BitVec 16) : Option Lock :=
  if type = F_RDLCK then
    some .read
  else if type = F_WRLCK then
    some .write
  else
    none

def excludes (l l' : Lock) : Bool :=
  l = .write ∨ l' = .write

def carriedBy (l : Lock) (a : Access) : Bool :=
  match l with
  | .read => a.reads
  | .write => a.writes

end Lock

structure Kernel (ι : Type) where
  descriptors : ι → BitVec 32 → Option Access := fun _ _ => none
  -- the processes that have a lock
  locks : List (ι × Lock) := []

namespace Kernel

def setDescriptor (k : Kernel ι) (p : ι) (fd : BitVec 32) (a : Option Access) : Kernel ι :=
  { k with
    descriptors := fun q fd' => if q = p ∧ fd' = fd then a else k.descriptors q fd' }

def unlock (k : Kernel ι) (p : ι) : Kernel ι :=
  { k with locks := k.locks.filter fun x => x.1 ≠ p }

def setLock (k : Kernel ι) (p : ι) (l : Lock) : Kernel ι :=
  { k with locks := (p, l) :: k.locks.filter fun x => x.1 ≠ p }

def Granted (k : Kernel ι) (p : ι) (l : Lock) : Prop :=
  ∀ x ∈ k.locks, x.1 ≠ p → l.excludes x.2 = false

instance (k : Kernel ι) (p : ι) (l : Lock) : Decidable (k.Granted p l) :=
  inferInstanceAs (Decidable (∀ x ∈ k.locks, _))

/-- The calls of the process `p`, with `next` for the descriptor that the kernel picks. -/
def posix (p : ι) (next : BitVec 32) : Posix (Kernel ι) where
  __ := (default : Posix (Kernel ι))
  openFile := fun _ flags _ k =>
    match Access.ofFlags flags with
    | none => (.error .EINVAL, k)
    | some a =>
      if k.descriptors p next = none then
        (.ok next, k.setDescriptor p next (some a))
      else
        (.error .EMFILE, k)
  setlk := fun fd type k =>
    match k.descriptors p fd, Lock.ofType type with
    | none, _ => (.error .EBADF, k)
    | some _, none => (.error .EINVAL, k)
    | some a, some l =>
      if l.carriedBy a = false then
        (.error .EBADF, k)
      else if k.Granted p l then
        (.ok (), k.setLock p l)
      else
        (.error .EAGAIN, k)
  getfd := fun fd k => (if k.descriptors p fd = none then .error .EBADF else .ok 0, k)
  setfd := fun fd _ k => (if k.descriptors p fd = none then .error .EBADF else .ok (), k)
  -- closing any descriptor of the file removes the lock of the process
  close := fun fd k =>
    if k.descriptors p fd = none then
      (.error .EBADF, k)
    else
      (.ok (), (k.setDescriptor p fd none).unlock p)

end Kernel

inductive Share where
  | compat
  | denyrw
  | denywr
  | denyrd
  | denyno
  deriving Repr, DecidableEq

namespace Share

def word (share : Share) : BitVec 32 :=
  match share with
  | .compat => 0x00
  | .denyrw => _SH_DENYRW
  | .denywr => _SH_DENYWR
  | .denyrd => _SH_DENYRD
  | .denyno => _SH_DENYNO

def denies (share : Share) (a : Access) : Bool :=
  match share with
  | .denyrw => true
  | .denywr => a.writes
  | .denyrd => a.reads
  | _ => false

end Share

def openMode (a : Access) (share : Share) (noinherit : Bool) : BitVec 32 :=
  a.word ||| share.word ||| if noinherit then _O_NOINHERIT else 0

structure Handle (ι : Type) where
  process : ι
  fd : BitVec 32
  access : Access
  share : Share
  deriving Repr, DecidableEq

/--
The processes, of which each one has static variables of its own, and the handles that `_dos_open`
has given them and `_dos_close` has not taken back.
-/
structure System (ι : Type) where
  kernel : Kernel ι := {}
  dos : ι → Dos (Kernel ι) := fun _ => { os := {} }
  handles : List (Handle ι) := []

namespace System

def enter (sys : System ι) (p : ι) : Dos (Kernel ι) :=
  (sys.dos p).setOs sys.kernel

def leave (sys : System ι) (p : ι) (s : Dos (Kernel ι)) : System ι :=
  { sys with kernel := s.os, dos := fun q => if q = p then s else sys.dos q }

end System

inductive Call (ι : Type) where
  | dosOpen (p : ι) (path : String) (a : Access) (share : Share) (noinherit : Bool) (next : BitVec 32)
  | dosClose (p : ι) (fd : BitVec 32)

def step (sys : System ι) (c : Call ι) : Except Fault (System ι) :=
  match c with
  | .dosOpen p path a share noinherit next => do
    let mode := openMode a share noinherit
    let r ← dosixDosOpen (Kernel.posix p next) (some path) mode (sys.enter p)
    let sys := sys.leave p r.state
    match r.out with
    | none => return sys
    | some fd => return { sys with handles := ⟨p, fd, a, share⟩ :: sys.handles }
  | .dosClose p fd => do
    let r ← dosixDosClose (Kernel.posix p 0) fd (sys.enter p)
    let sys := sys.leave p r.state
    if r.code = 0 then
      return { sys with handles := sys.handles.filter fun h => h.process ≠ p ∨ h.fd ≠ fd }
    else
      return sys

end Sharing

end Dosix
