import Dosix.Dos.Impl.ExtErr

/-!
This module contains the file services of `dos.c` that work on names and handles.
-/

namespace Dosix

variable {σ : Type}

def INT21_AH_CREAT : BitVec 56 := 0x3c
def INT21_AH_OPEN : BitVec 56 := 0x3d
def INT21_AH_CLOSE : BitVec 56 := 0x3e
def INT21_AH_CREATNEW : BitVec 56 := 0x5b
def INT21_AH_FILE_METADATA : BitVec 56 := 0x43
def INT21_AL_FILE_METADATA_GETFILEATTR : BitVec 8 := 0x00
def INT21_AL_FILE_METADATA_SETFILEATTR : BitVec 8 := 0x01

def _A_NORMAL : BitVec 32 := 0x00
def _A_RDONLY : BitVec 32 := 0x01
def _A_HIDDEN : BitVec 32 := 0x02
def _A_SYSTEM : BitVec 32 := 0x04
def _A_SUBDIR : BitVec 32 := 0x10
def _A_ARCH : BitVec 32 := 0x20

def _O_RDONLY : BitVec 32 := 0x0000
def _O_WRONLY : BitVec 32 := 0x0001
def _O_RDWR : BitVec 32 := 0x0002
def _O_NOINHERIT : BitVec 32 := 0x0080

def _SH_DENYRW : BitVec 32 := 0x10
def _SH_DENYWR : BitVec 32 := 0x20
def _SH_DENYRD : BitVec 32 := 0x30
def _SH_DENYNO : BitVec 32 := 0x40

/-! Constants of the kernel below. -/

def O_RDONLY : BitVec 32 := 0
def O_WRONLY : BitVec 32 := 1
def O_RDWR : BitVec 32 := 2
def O_CREAT : BitVec 32 := 0x40
def O_EXCL : BitVec 32 := 0x80
def O_TRUNC : BitVec 32 := 0x200

def S_IFMT : BitVec 32 := 0xf000
def S_IFDIR : BitVec 32 := 0x4000
def S_IRWXU : BitVec 32 := 0x1c0
def S_IWUSR : BitVec 32 := 0x80
def S_IWGRP : BitVec 32 := 0x10
def S_IWOTH : BitVec 32 := 0x02

def F_RDLCK : BitVec 16 := 0
def F_WRLCK : BitVec 16 := 1
def FD_CLOEXEC : BitVec 32 := 1

def S_ISDIR (mode : BitVec 32) : Bool :=
  mode &&& S_IFMT = S_IFDIR

def dosCreat (px : Posix σ) (filename : CString) (attrib flags : BitVec 32) (s : Dos σ)
    : Except Fault (Result σ (BitVec 32)) :=
  if filename = none then
    .error .assertion
  else
    let mode := S_IRWXU &&& if attrib &&& _A_RDONLY ≠ 0 then ~~~S_IWUSR else ~~~0
    match s.call (px.openFile filename flags mode) with
    | (none, s) => failed s
    | (some fd, s) => .ok ⟨0, some fd, s⟩

def dosixDosCreat (px : Posix σ) (filename : CString) (attrib : BitVec 32) (s : Dos σ)
    : Except Fault (Result σ (BitVec 32)) :=
  dosCreat px filename attrib (O_RDWR ||| O_CREAT ||| O_TRUNC) s

def dosixDosCreatnew (px : Posix σ) (filename : CString) (attrib : BitVec 32) (s : Dos σ)
    : Except Fault (Result σ (BitVec 32)) :=
  dosCreat px filename attrib (O_RDWR ||| O_CREAT ||| O_TRUNC ||| O_EXCL) s

def openLock (px : Posix σ) (mode fd : BitVec 32) (s : Dos σ) : Option Unit × Dos σ :=
  if mode &&& _SH_DENYNO = 0 then
    let type := (if mode &&& _SH_DENYRW ≠ 0 then F_WRLCK else 0)
      ||| (if mode &&& _SH_DENYWR ≠ 0 then F_RDLCK else 0)
      ||| (if mode &&& _SH_DENYRD ≠ 0 then F_WRLCK else 0)
    s.call (px.setlk fd type)
  else
    (some (), s)

def openNoinherit (px : Posix σ) (mode fd : BitVec 32) (s : Dos σ) : Option Unit × Dos σ :=
  if mode &&& _O_NOINHERIT ≠ 0 then
    match s.call (px.getfd fd) with
    | (none, s) => (none, s)
    | (some flags, s) => s.call (px.setfd fd (flags ||| FD_CLOEXEC))
  else
    (some (), s)

def dosixDosOpen (px : Posix σ) (path : CString) (mode : BitVec 32) (s : Dos σ)
    : Except Fault (Result σ (BitVec 32)) :=
  if path = none then
    .error .assertion
  else
    let flags := (if mode &&& _O_RDONLY ≠ 0 then O_RDONLY else 0)
      ||| (if mode &&& _O_WRONLY ≠ 0 then O_WRONLY else 0)
      ||| (if mode &&& _O_RDWR ≠ 0 then O_RDWR else 0)
    match s.call (px.openFile path flags 0) with
    | (none, s) => failed s
    | (some fd, s) =>
      match openLock px mode fd s with
      | (none, s) => failed s
      | (some (), s) =>
        match openNoinherit px mode fd s with
        | (none, s) => failed s
        | (some (), s) => .ok ⟨0, some fd, s⟩

def dosixDosClose (px : Posix σ) (handle : BitVec 32) (s : Dos σ)
    : Except Fault (Result σ Unit) :=
  match s.call (px.close handle) with
  | (none, s) => failed s
  | (some (), s) => .ok ⟨0, none, s⟩

def dosixDosGetfileattr (px : Posix σ) (path : CString) (s : Dos σ)
    : Except Fault (Result σ (BitVec 32)) :=
  match s.call (px.stat path) with
  | (none, s) => failed s
  | (some fs, s) =>
    if S_ISDIR fs.mode then
      .ok ⟨0, some _A_SUBDIR, s⟩
    else
      let attrib := _A_NORMAL ||| _A_ARCH
      match s.call (px.accessW path) with
      | (some (), s) => .ok ⟨0, some attrib, s⟩
      | (none, s) =>
        match s.errno with
        | some .EROFS => .ok ⟨0, some (attrib ||| _A_RDONLY), s⟩
        | some .EACCES => .ok ⟨0, some (attrib ||| _A_RDONLY), s⟩
        | _ => failed s

def dosixDosSetfileattr (px : Posix σ) (path : CString) (attrib : BitVec 32) (s : Dos σ)
    : Except Fault (Result σ Unit) :=
  match s.call (px.stat path) with
  | (none, s) => failed s
  | (some fs, s) =>
    let mode :=
      if attrib &&& _A_RDONLY ≠ 0 then
        fs.mode &&& ~~~(S_IWUSR ||| S_IWGRP ||| S_IWOTH)
      else
        fs.mode ||| (S_IWUSR ||| S_IWGRP ||| S_IWOTH)
    match s.call (px.chmod path mode) with
    | (none, s) => failed s
    | (some (), s) => .ok ⟨0, none, s⟩

def cpuCreat (px : Posix σ) (cpu : Cpu) (s : Dos σ) : Except Fault (Cpu × Dos σ) := do
  assertThat (cpu.ah = INT21_AH_CREAT)
  let r ← dosixDosCreat px (px.cstring s.os (MK_FP cpu.ds cpu.dx)) (cpu.cx.setWidth 32) s
  return (cpu.setHandle r.code (r.out.getD (px.uninit.setWidth 32)), r.state)

def cpuCreatnew (px : Posix σ) (cpu : Cpu) (s : Dos σ) : Except Fault (Cpu × Dos σ) := do
  -- not `_dosix__dos_creatnew`
  assertThat (cpu.ah = INT21_AH_CREATNEW)
  let r ← dosixDosCreat px (px.cstring s.os (MK_FP cpu.ds cpu.dx)) (cpu.cx.setWidth 32) s
  return (cpu.setHandle r.code (r.out.getD (px.uninit.setWidth 32)), r.state)

def cpuOpen (px : Posix σ) (cpu : Cpu) (s : Dos σ) : Except Fault (Cpu × Dos σ) := do
  assertThat (cpu.ah = INT21_AH_OPEN)
  let r ← dosixDosOpen px (px.cstring s.os (MK_FP cpu.ds cpu.dx)) (cpu.al.setWidth 32) s
  return (cpu.setHandle r.code (r.out.getD (px.uninit.setWidth 32)), r.state)

def cpuClose (px : Posix σ) (cpu : Cpu) (s : Dos σ) : Except Fault (Cpu × Dos σ) := do
  assertThat (cpu.ah = INT21_AH_CLOSE)
  let r ← dosixDosClose px (cpu.bx.setWidth 32) s
  return (cpu.setCode r.code, r.state)

def cpuGetfileattr (px : Posix σ) (cpu : Cpu) (s : Dos σ) : Except Fault (Cpu × Dos σ) := do
  assertThat (cpu.ah = INT21_AH_FILE_METADATA)
  assertThat (cpu.al = INT21_AL_FILE_METADATA_GETFILEATTR)
  let r ← dosixDosGetfileattr px (px.cstring s.os (MK_FP cpu.ds cpu.dx)) s
  let attrib := r.out.getD (px.uninit.setWidth 32)
  return ({ cpu.setCode r.code with cx := attrib.setWidth 64 }, r.state)

def cpuSetfileattr (px : Posix σ) (cpu : Cpu) (s : Dos σ) : Except Fault (Cpu × Dos σ) := do
  assertThat (cpu.ah = INT21_AH_FILE_METADATA)
  assertThat (cpu.al = INT21_AL_FILE_METADATA_SETFILEATTR)
  let r ← dosixDosSetfileattr px (px.cstring s.os (MK_FP cpu.ds cpu.dx)) (cpu.cx.setWidth 32) s
  return (cpu.setCode r.code, r.state)

end Dosix
