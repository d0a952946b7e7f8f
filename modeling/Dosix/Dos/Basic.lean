import Dosix.Dos.ErrorTable
import Dosix.SearchTree.Basic
import Mathlib.Tactic.Simps.Basic

/-!
This module contains the state that `dos.c` works on: the CPU registers, the static variables, and
the POSIX system below them. Here and in the modules that follow, functions, types and fields have
their names of the source, in the case of Lean and without underscores.
-/

namespace Dosix

/-! The CPU. -/

structure Cpu where
  ax : BitVec 64 := 0
  bx : BitVec 64 := 0
  cx : BitVec 64 := 0
  dx : BitVec 64 := 0
  si : BitVec 64 := 0
  di : BitVec 64 := 0
  bp : BitVec 64 := 0
  sp : BitVec 64 := 0
  ip : BitVec 64 := 0
  cs : BitVec 64 := 0
  ds : BitVec 64 := 0
  es : BitVec 64 := 0
  ss : BitVec 64 := 0
  flags : BitVec 64 := 0
  deriving Repr, DecidableEq

def lowByte (x : BitVec 64) : BitVec 8 :=
  x.setWidth 8

def highPart (x : BitVec 64) : BitVec 56 :=
  -- the bit-field `h`, which is all the rest of the register
  x.extractLsb' 8 56

def setLow (x : BitVec 64) (v : BitVec 8) : BitVec 64 :=
  highPart x ++ v

def setHigh (x : BitVec 64) (v : BitVec 56) : BitVec 64 :=
  v ++ lowByte x

@[simp]
theorem lowByte_setLow (x : BitVec 64) (v : BitVec 8) : lowByte (setLow x v) = v :=
  BitVec.setWidth_append_eq_right

@[simp]
theorem highPart_setLow (x : BitVec 64) (v : BitVec 8) : highPart (setLow x v) = highPart x :=
  BitVec.extractLsb'_append_eq_left

@[simp]
theorem lowByte_setHigh (x : BitVec 64) (v : BitVec 56) : lowByte (setHigh x v) = lowByte x :=
  BitVec.setWidth_append_eq_right

@[simp]
theorem highPart_setHigh (x : BitVec 64) (v : BitVec 56) : highPart (setHigh x v) = v :=
  BitVec.extractLsb'_append_eq_left

namespace Cpu

def al (cpu : Cpu) : BitVec 8 := lowByte cpu.ax
def ah (cpu : Cpu) : BitVec 56 := highPart cpu.ax
def bl (cpu : Cpu) : BitVec 8 := lowByte cpu.bx
def bh (cpu : Cpu) : BitVec 56 := highPart cpu.bx
def cl (cpu : Cpu) : BitVec 8 := lowByte cpu.cx
def ch (cpu : Cpu) : BitVec 56 := highPart cpu.cx
def dl (cpu : Cpu) : BitVec 8 := lowByte cpu.dx
def dh (cpu : Cpu) : BitVec 56 := highPart cpu.dx

def setCode (cpu : Cpu) (code : BitVec 32) : Cpu :=
  let ax := code.setWidth 64
  { cpu with ax := ax, flags := if ax ≠ 0 then 1 else 0 }

def setHandle (cpu : Cpu) (code handle : BitVec 32) : Cpu :=
  let cpu := cpu.setCode code
  { cpu with ax := if cpu.ax ≠ 0 then cpu.ax else handle.signExtend 64 }

end Cpu

def MK_FP (_seg offset : BitVec 64) : Addr := offset

def FP_SEG (_address : Addr) : BitVec 64 := 0

def FP_OFF (address : Addr) : BitVec 64 := address

/-! The POSIX system. -/

abbrev CString := Option String

structure Stat where
  mode : BitVec 32 := 0
  size : Int := 0
  atime : Int := 0
  atimeNsec : Nat := 0
  mtime : Int := 0
  mtimeNsec : Nat := 0
  deriving Repr, DecidableEq

structure Timeval where
  sec : Int
  usec : Int
  deriving Repr, DecidableEq

structure Tm where
  sec : Int := 0
  min : Int := 0
  hour : Int := 0
  mday : Int := 0
  mon : Int := 0
  year : Int := 0
  wday : Int := 0
  isdst : Int := 0
  deriving Repr, DecidableEq

inductive GlobResult where
  | success (paths : List String)
  | aborted (error : Errno) (paths : List String)
  | nomatch
  | nospace (paths : List String)
  deriving Repr, DecidableEq

inductive Sysconf where
  | avphysPages
  | pagesize
  deriving Repr, DecidableEq

/--
The C library and the kernel, with `σ` for everything behind them. A call that fails gives the value
that it stores in `errno`.
-/
structure Posix (σ : Type) where
  -- the string at an address of the program's memory, `none` for `NULL`
  cstring : σ → Addr → CString
  -- the `struct _DOSERROR` at an address
  doserror : σ → Addr → DosError
  -- the bytes from an address up to the first `$`
  text : σ → Addr → List (BitVec 8)
  -- what a variable holds that has not been assigned
  uninit : BitVec 64
  -- the `int` that a number becomes, which the compiler decides where the number does not fit
  intOf : Int → Int
  -- the address of the static `media_id`
  mediaId : Addr
  -- the result of `malloc`, `0` on failure
  malloc : σ → Addr × σ
  -- whether `tsearch` gets memory for a node
  tsearch : σ → Bool × σ
  bal : σ → SearchTree.Balancing Addr
  -- what the key slot of a freed node still reads as, if it can be read at all
  stale : σ → Option Addr
  mmap : Size → σ → Except Errno Addr × σ
  mremap : Addr → Size → Size → σ → Except Errno Addr × σ
  munmap : Addr → Size → σ → Except Errno Unit × σ
  -- `sysconf` may also fail without an `errno`
  sysconf : Sysconf → σ → Except (Option Errno) (BitVec 64) × σ
  openFile : CString → BitVec 32 → BitVec 32 → σ → Except Errno (BitVec 32) × σ
  close : BitVec 32 → σ → Except Errno Unit × σ
  -- `fcntl (fd, F_SETLK, ..)` on the whole file
  setlk : BitVec 32 → BitVec 16 → σ → Except Errno Unit × σ
  getfd : BitVec 32 → σ → Except Errno (BitVec 32) × σ
  setfd : BitVec 32 → BitVec 32 → σ → Except Errno Unit × σ
  stat : CString → σ → Except Errno Stat × σ
  fstat : BitVec 32 → σ → Except Errno Stat × σ
  -- `access (path, W_OK)`
  accessW : CString → σ → Except Errno Unit × σ
  chmod : CString → BitVec 32 → σ → Except Errno Unit × σ
  futimes : BitVec 32 → Timeval → Timeval → σ → Except Errno Unit × σ
  glob : CString → σ → GlobResult × σ
  gettimeofday : σ → Except Errno Timeval × σ
  settimeofday : Timeval → σ → Except Errno Unit × σ
  isatty : BitVec 32 → σ → Except Errno Unit × σ
  -- the `c_lflag` of the terminal
  tcgetattr : BitVec 32 → σ → Except Errno (BitVec 32) × σ
  tcsetattr : BitVec 32 → BitVec 32 → σ → Except Errno Unit × σ
  -- `read` of one byte, which is missing at the end of the file
  readByte : BitVec 32 → σ → Except Errno (Option (BitVec 8)) × σ
  -- `write` of one byte, repeated while it is interrupted or writes nothing
  writeByte : BitVec 32 → BitVec 8 → σ → Except Errno Unit × σ
  putchar : BitVec 8 → σ → Except Errno Unit × σ
  localtime : Int → Option Tm
  -- `mktime`, which answers `-1` when it fails
  mktime : Tm → Int

instance {σ : Type} : Inhabited (Posix σ) where
  default := {
    cstring := fun _ _ => none
    doserror := fun _ _ => {}
    text := fun _ _ => []
    uninit := 0
    intOf := fun x => (BitVec.ofInt 32 x).toInt
    mediaId := 0
    malloc := fun os => (0, os)
    tsearch := fun os => (false, os)
    bal := fun _ => .id
    stale := fun _ => none
    mmap := fun _ os => (.error .ENOMEM, os)
    mremap := fun _ _ _ os => (.error .ENOMEM, os)
    munmap := fun _ _ os => (.error .EINVAL, os)
    sysconf := fun _ os => (.error none, os)
    openFile := fun _ _ _ os => (.error .ENOENT, os)
    close := fun _ os => (.error .EBADF, os)
    setlk := fun _ _ os => (.error .EBADF, os)
    getfd := fun _ os => (.error .EBADF, os)
    setfd := fun _ _ os => (.error .EBADF, os)
    stat := fun _ os => (.error .ENOENT, os)
    fstat := fun _ os => (.error .EBADF, os)
    accessW := fun _ os => (.error .ENOENT, os)
    chmod := fun _ _ os => (.error .ENOENT, os)
    futimes := fun _ _ _ os => (.error .EBADF, os)
    glob := fun _ os => (.nomatch, os)
    gettimeofday := fun os => (.error .EFAULT, os)
    settimeofday := fun _ os => (.error .EPERM, os)
    isatty := fun _ os => (.error .ENOTTY, os)
    tcgetattr := fun _ os => (.error .ENOTTY, os)
    tcsetattr := fun _ _ os => (.error .ENOTTY, os)
    readByte := fun _ os => (.error .EBADF, os)
    writeByte := fun _ _ os => (.error .EBADF, os)
    putchar := fun _ os => (.error .EBADF, os)
    localtime := fun _ => none
    mktime := fun _ => -1
  }

/-! The static variables of `dos.c`. -/

structure AllocMem where
  address : Addr
  length : Size
  deriving Repr, DecidableEq

def NAME_MAX : Nat := 255

/--
`struct _find_t`, with the `glob_t` in it as the count `glPathc` and the vector `glPathv`, which is
`none` where it is `NULL` or not a vector at all.
-/
structure FindT where
  _attrib : BitVec 32 := 0
  glPathc : Nat := 0
  glPathv : Option (List String) := none
  _glPathi : Nat := 0
  attrib : BitVec 32 := 0
  wrTime : BitVec 32 := 0
  wrDate : BitVec 32 := 0
  size : Int := 0
  name : List UInt8 := List.replicate NAME_MAX 0
  deriving Repr, DecidableEq

structure Dos (σ : Type) where
  os : σ
  errno : Option Errno := none
  doserrno : BitVec 32 := 0
  errorinfo : DosError := {}
  allocmemTree : SearchTree Addr := .leaf
  -- the `struct allocmem` records that are allocated
  allocmem : Addr → Option AllocMem := fun _ => none
  -- the mappings that `mmap` made and `munmap` has not removed, with their lengths
  mappings : Addr → Option Size := fun _ => none
  -- the `struct _find_t` objects of the program, and the static one
  findT : Addr → FindT := fun _ => {}
  currentDta : Addr := 0
  -- function pointers by interrupt number
  intVect : Nat → Addr := fun _ => 0
  -- of `conio.c`
  ungetchFull : Bool := false
  ungetchChar : BitVec 8 := 0

namespace Dos

variable {σ : Type}

@[simps]
def setOs (s : Dos σ) (x : σ) : Dos σ := { s with os := x }

@[simps]
def setErrno (s : Dos σ) (x : Option Errno) : Dos σ := { s with errno := x }

@[simps]
def setDoserrno (s : Dos σ) (x : BitVec 32) : Dos σ := { s with doserrno := x }

@[simps]
def setErrorinfo (s : Dos σ) (x : DosError) : Dos σ := { s with errorinfo := x }

@[simps]
def setAllocmemTree (s : Dos σ) (x : SearchTree Addr) : Dos σ := { s with allocmemTree := x }

@[simps]
def setAllocmem (s : Dos σ) (x : Addr → Option AllocMem) : Dos σ := { s with allocmem := x }

@[simps]
def setMappings (s : Dos σ) (x : Addr → Option Size) : Dos σ := { s with mappings := x }

@[simps]
def setFindT (s : Dos σ) (x : Addr → FindT) : Dos σ := { s with findT := x }

@[simps]
def setCurrentDta (s : Dos σ) (x : Addr) : Dos σ := { s with currentDta := x }

@[simps]
def setIntVect (s : Dos σ) (x : Nat → Addr) : Dos σ := { s with intVect := x }

@[simps]
def setUngetchFull (s : Dos σ) (x : Bool) : Dos σ := { s with ungetchFull := x }

@[simps]
def setUngetchChar (s : Dos σ) (x : BitVec 8) : Dos σ := { s with ungetchChar := x }

end Dos

/--
What a DOS function leaves behind: the code that it returns, what it stored through its pointer
argument, if anything, and the state.
-/
structure Result (σ α : Type) where
  code : BitVec 32
  out : Option α
  state : Dos σ

variable {σ α : Type}

def Dos.call (s : Dos σ) (f : σ → Except Errno α × σ) : Option α × Dos σ :=
  match f s.os with
  | (.ok a, os) => (some a, s.setOs os)
  | (.error e, os) => (none, (s.setOs os).setErrno (some e))

def assertThat (p : Prop) [Decidable p] : Except Fault Unit :=
  if p then .ok () else .error .assertion

theorem assertThat_of {p : Prop} [Decidable p] (h : p) : assertThat p = .ok () :=
  if_pos h

end Dosix
