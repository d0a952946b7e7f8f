import Dosix.Dos.Impl.AllocMem
import Dosix.Dos.Impl.Console
import Dosix.Dos.Impl.Find

/-!
This module contains the software interrupts: the vector table, the dispatch of the two interrupts
that are installed by default, and the functions by which a program raises one.
-/

namespace Dosix

variable {σ : Type}

def INT21_MAIN_DOS_API : BitVec 8 := 0x21
def INT2F_MULTIPLEX : BitVec 8 := 0x2f
def INT21_AH_SETVECT : BitVec 56 := 0x25
def INT21_AH_GETVECT : BitVec 56 := 0x35

def UINT8_MAX : Nat := 255

abbrev Syscall (σ : Type) := Cpu → Dos σ → Except Fault (Cpu × Dos σ)

def dosGetvect (intnum : Nat) (s : Dos σ) : Except Fault Addr := do
  assertThat (intnum < UINT8_MAX)
  return s.intVect intnum

def dosixDosSetvect (intnum : Nat) (syscall : Addr) (s : Dos σ) : Except Fault (Dos σ) := do
  assertThat (syscall ≠ 0)
  assertThat (intnum < UINT8_MAX)
  return s.setIntVect fun n => if n = intnum then syscall else s.intVect n

def cpuGetvect (cpu : Cpu) (s : Dos σ) : Except Fault (Cpu × Dos σ) := do
  assertThat (cpu.ah = INT21_AH_GETVECT)
  let syscall ← dosGetvect cpu.al.toNat s
  return ({ cpu with es := FP_SEG syscall, bx := FP_OFF syscall }, s)

def cpuSetvect (cpu : Cpu) (s : Dos σ) : Except Fault (Cpu × Dos σ) := do
  assertThat (cpu.ah = INT21_AH_SETVECT)
  let s ← dosixDosSetvect cpu.al.toNat (MK_FP cpu.ds cpu.dx) s
  return (cpu, s)

def callSyscall (syscall : Option (Syscall σ)) : Syscall σ :=
  fun cpu s =>
    match syscall with
    | none => .error (.exit 86)
    | some syscall => syscall cpu s

def int21Service (px : Posix σ) (cpu : Cpu) : Option (Syscall σ) :=
  if cpu.ah = INT21_AH_FILE_METADATA then
    if cpu.al = INT21_AL_FILE_METADATA_GETFILEATTR then
      some (cpuGetfileattr px)
    else if cpu.al = INT21_AL_FILE_METADATA_SETFILEATTR then
      some (cpuSetfileattr px)
    else
      none
  else if cpu.ah = INT21_AH_FILE_TIME then
    if cpu.al = INT21_AL_FILE_TIME_GETFTIME then
      some (cpuGetftime px)
    else if cpu.al = INT21_AL_FILE_TIME_SETFTIME then
      some (cpuSetftime px)
    else
      none
  else if cpu.ah = INT21_AH_GETCHE then
    some (cpuGetche px)
  else if cpu.ah = INT21_AH_PUTCH then
    some (cpuPutch px)
  else if cpu.ah = INT21_AH_GETCH then
    some (cpuGetch px)
  else if cpu.ah = INT21_AH_WRITE_STDOUT then
    some (cpuWriteStdout px)
  else if cpu.ah = INT21_AH_SET_DTA_ADDR then
    some cpuSetDtaAddr
  else if cpu.ah = INT21_AH_SETVECT then
    some cpuSetvect
  else if cpu.ah = INT21_AH_GETDATE then
    some (cpuGetdate px)
  else if cpu.ah = INT21_AH_SETDATE then
    some (cpuSetdate px)
  else if cpu.ah = INT21_AH_GETTIME then
    some (cpuGettime px)
  else if cpu.ah = INT21_AH_SETTIME then
    some (cpuSettime px)
  else if cpu.ah = INT21_AH_GET_DTA_ADDR then
    some cpuGetDtaAddr
  else if cpu.ah = INT21_AH_GETVECT then
    some cpuGetvect
  else if cpu.ah = INT21_AH_CREAT then
    some (cpuCreat px)
  else if cpu.ah = INT21_AH_OPEN then
    some (cpuOpen px)
  else if cpu.ah = INT21_AH_CLOSE then
    some (cpuClose px)
  else if cpu.ah = INT21_AH_ALLOCMEM then
    some (cpuAllocmem px)
  else if cpu.ah = INT21_AH_FREEMEM then
    some (cpuFreemem px)
  else if cpu.ah = INT21_AH_SETBLOCK then
    some (cpuSetblock px)
  else if cpu.ah = INT21_AH_FINDFIRST then
    some (cpuFindfirst px)
  else if cpu.ah = INT21_AH_FINDNEXT then
    some (cpuFindnext px)
  else if cpu.ah = INT21_AH_EXTERR then
    if cpu.bh = INT21_BH_EXTERR ∧ cpu.bl = INT21_BL_EXTERR then
      some (cpuExterr px)
    else
      none
  else if cpu.ah = INT21_AH_CREATNEW then
    some (cpuCreatnew px)
  else
    none

def int21MainDosApi (px : Posix σ) : Syscall σ :=
  fun cpu s => callSyscall (int21Service px cpu) cpu s

def int2fMultiplex (px : Posix σ) : Syscall σ :=
  fun cpu s =>
    let syscall :=
      if cpu.ah = INT2F_AH_DOS_INTERNAL ∧ cpu.al = INT2F_AL_DOS_INTERNAL_EXTERR_SET then
        some (cpuExterrSet px)
      else
        none
    callSyscall syscall cpu s

/-- `interrupt`, where `code` has the functions that the addresses in the vector table stand for -/
def interrupt (code : Addr → Syscall σ) (intnum : BitVec 8) : Syscall σ :=
  fun cpu s => do
    let syscall ← dosGetvect intnum.toNat s
    callSyscall (if syscall = 0 then none else some (code syscall)) cpu s

structure Regpack where
  ax : BitVec 64 := 0
  bx : BitVec 64 := 0
  cx : BitVec 64 := 0
  dx : BitVec 64 := 0
  bp : BitVec 64 := 0
  si : BitVec 64 := 0
  di : BitVec 64 := 0
  ds : BitVec 64 := 0
  es : BitVec 64 := 0
  flags : BitVec 64 := 0
  deriving Repr, DecidableEq

structure Regs where
  ax : BitVec 64 := 0
  bx : BitVec 64 := 0
  cx : BitVec 64 := 0
  dx : BitVec 64 := 0
  si : BitVec 64 := 0
  di : BitVec 64 := 0
  cflag : BitVec 64 := 0
  deriving Repr, DecidableEq

structure Sregs where
  es : BitVec 64 := 0
  cs : BitVec 64 := 0
  ss : BitVec 64 := 0
  ds : BitVec 64 := 0
  deriving Repr, DecidableEq

/-- `_dosix_intr`, with `none` for `NULL`. It has no results, and leaves `*regs` as it is. -/
def dosixIntr (code : Addr → Syscall σ) (intnum : BitVec 32) (regs : Option Regpack) (s : Dos σ)
    : Except Fault (Option Regpack × Dos σ) := do
  let cpu : Cpu :=
    match regs with
    | none => {}
    | some x =>
      { ax := x.ax, bx := x.bx, cx := x.cx, dx := x.dx, bp := x.bp, si := x.si, di := x.di,
        ds := x.ds, es := x.es, flags := x.flags }
  let (_, s) ← interrupt code (intnum.setWidth 8) cpu s
  return (regs, s)

structure Int86x where
  ret : BitVec 32
  outregs : Option Regs
  segregs : Option Sregs
  deriving Repr, DecidableEq

def dosixInt86x (code : Addr → Syscall σ) (intnum : BitVec 32) (inregs : Option Regs)
    (outregs : Bool) (segregs : Option Sregs) (s : Dos σ)
    : Except Fault (Int86x × Dos σ) := do
  let cpu : Cpu :=
    match inregs with
    | none => {}
    | some x =>
      { ax := x.ax, bx := x.bx, cx := x.cx, dx := x.dx, si := x.si, di := x.di,
        flags := x.cflag }
  let cpu : Cpu :=
    match segregs with
    | none => cpu
    | some x => { cpu with cs := x.cs, ds := x.ds, es := x.es, ss := x.ss }
  let (cpu, s) ← interrupt code (intnum.setWidth 8) cpu s
  let out : Regs :=
    { ax := cpu.ax, bx := cpu.bx, cx := cpu.cx, dx := cpu.dx, si := cpu.si, di := cpu.di,
      cflag := cpu.flags }
  let s := if outregs ∧ cpu.flags ≠ 0 then s.setDoserrno (cpu.ax.setWidth 32) else s
  return ({
    ret := cpu.ax.setWidth 32
    outregs := if outregs then some out else none
    segregs := segregs.map fun _ => { es := cpu.es, cs := cpu.cs, ss := cpu.ss, ds := cpu.ds }
  }, s)

def dosixInt86 (code : Addr → Syscall σ) (intnum : BitVec 32) (inregs : Option Regs)
    (outregs : Bool) (s : Dos σ) : Except Fault (Int86x × Dos σ) :=
  dosixInt86x code intnum inregs outregs none s

def dosixIntdosx (code : Addr → Syscall σ) (inregs : Option Regs) (outregs : Bool)
    (segregs : Option Sregs) (s : Dos σ) : Except Fault (Int86x × Dos σ) :=
  dosixInt86x code (INT21_MAIN_DOS_API.setWidth 32) inregs outregs segregs s

def dosixIntdos (code : Addr → Syscall σ) (inregs : Option Regs) (outregs : Bool) (s : Dos σ)
    : Except Fault (Int86x × Dos σ) :=
  dosixIntdosx code inregs outregs none s

/--
The `inregs` of `_bdos`, where `uninit` is what they happen to hold.
-/
def bdosInregs (uninit : Regs) (dosfunc dosdx dosal : BitVec 32) : Regs :=
  let inregs := { uninit with ax := setHigh uninit.ax (dosfunc.signExtend 56) }
  let inregs := { inregs with dx := dosdx.setWidth 64 }
  { inregs with ax := setLow inregs.ax (dosal.setWidth 8) }

def dosixBdos (code : Addr → Syscall σ) (uninit : Regs) (dosfunc dosdx dosal : BitVec 32)
    (s : Dos σ) : Except Fault (BitVec 32 × Dos σ) := do
  let (r, s) ← dosixIntdos code (some (bdosInregs uninit dosfunc dosdx dosal)) true s
  return (r.ret, s)

end Dosix
