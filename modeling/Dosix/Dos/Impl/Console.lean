import Dosix.Dos.Basic

/-!
This module contains the console functions of `conio.c` that DOS services are made of, with the
character that `_ungetch` pushes back, and these services.
-/

namespace Dosix

variable {σ : Type}

def INT21_AH_GETCHE : BitVec 56 := 0x01
def INT21_AH_PUTCH : BitVec 56 := 0x02
def INT21_AH_GETCH : BitVec 56 := 0x08
def INT21_AH_WRITE_STDOUT : BitVec 56 := 0x09

def STDIN_FILENO : BitVec 32 := 0
def STDOUT_FILENO : BitVec 32 := 1
def ICANON : BitVec 32 := 0x2
def ECHO : BitVec 32 := 0x8
def EOF : BitVec 32 := -1

def getchSetup (px : Posix σ) (echo : Bool) (s : Dos σ) : Option (BitVec 32) × Dos σ :=
  match s.call (px.isatty STDIN_FILENO) with
  | (none, s) => (none, s)
  | (some (), s) =>
    match s.call (px.tcgetattr STDIN_FILENO) with
    | (lflag, s) =>
      -- a failure is ignored
      let prev := lflag.getD (px.uninit.setWidth 32)
      let curr := prev &&& ~~~ICANON
      let curr := if echo then curr ||| ECHO else curr &&& ~~~ECHO
      (some prev, (s.call (px.tcsetattr STDIN_FILENO curr)).2)

def getch (px : Posix σ) (echo : Bool) (s : Dos σ) : BitVec 32 × Dos σ :=
  if s.ungetchFull then
    (s.ungetchChar.signExtend 32, s.setUngetchFull false)
  else
    match getchSetup px echo s with
    | (prev, s) =>
      match s.call (px.readByte STDIN_FILENO) with
      | (c, s) =>
        let ret := match c with
          | some (some c) => c.signExtend 32
          | _ => EOF
        match prev with
        | none => (ret, s)
        | some prev => (ret, (s.call (px.tcsetattr STDIN_FILENO prev)).2)

def dosixGetch (px : Posix σ) (s : Dos σ) : BitVec 32 × Dos σ :=
  getch px false s

def dosixGetche (px : Posix σ) (s : Dos σ) : BitVec 32 × Dos σ :=
  getch px true s

def ungetch (c : BitVec 32) (s : Dos σ) : BitVec 32 × Dos σ :=
  if s.ungetchFull then
    (EOF, s)
  else
    (c, (s.setUngetchFull true).setUngetchChar (c.setWidth 8))

def dosixPutch (px : Posix σ) (c : BitVec 32) (s : Dos σ) : BitVec 32 × Dos σ :=
  match s.call (px.writeByte STDOUT_FILENO (c.setWidth 8)) with
  | (none, s) => (EOF, s)
  | (some (), s) => (c, s)

/--
The loop of `_cputs` and `_cprintf`: how many characters it has got past, and whether it has stopped
before the end of the string.
-/
def putchLoop (px : Posix σ) (string : List (BitVec 8)) (s : Dos σ) : Nat × Bool × Dos σ :=
  match string with
  | [] => (0, false, s)
  | c :: string =>
    match dosixPutch px (c.signExtend 32) s with
    | (ret, s) =>
      if ret = EOF then
        (0, true, s)
      else
        match putchLoop px string s with
        | (count, stopped, s) => (count + 1, stopped, s)

def dosixCputs (px : Posix σ) (string : List (BitVec 8)) (s : Dos σ) : BitVec 32 × Dos σ :=
  match putchLoop px string s with
  | (_, stopped, s) => (if stopped then -1 else 0, s)

/--
`_cprintf`, where `string` is what `vasprintf` has made of the format and the arguments.
-/
def dosixCprintf (px : Posix σ) (string : Option (List (BitVec 8))) (s : Dos σ)
    : BitVec 32 × Dos σ :=
  match string with
  | none => (0, s)
  | some string =>
    match putchLoop px string s with
    | (count, _, s) => (.ofNat 32 count, s)

def writeStdout (px : Posix σ) (string : List (BitVec 8)) (s : Dos σ) : BitVec 32 × Dos σ :=
  match string with
  | [] => (0x24, s)
  | c :: string =>
    match s.call (px.putchar c) with
    | (none, s) => (0x24, s)
    | (some (), s) => writeStdout px string s

def cpuWriteStdout (px : Posix σ) (cpu : Cpu) (s : Dos σ) : Except Fault (Cpu × Dos σ) := do
  assertThat (cpu.ah = INT21_AH_WRITE_STDOUT)
  let (ret, s) := writeStdout px (px.text s.os (MK_FP cpu.ds cpu.dx)) s
  return ({ cpu with ax := ret.setWidth 64 }, s)

def cpuGetch (px : Posix σ) (cpu : Cpu) (s : Dos σ) : Except Fault (Cpu × Dos σ) := do
  assertThat (cpu.ah = INT21_AH_GETCH)
  let (c, s) := dosixGetch px s
  return ({ cpu with ax := setLow cpu.ax (c.setWidth 8) }, s)

def cpuGetche (px : Posix σ) (cpu : Cpu) (s : Dos σ) : Except Fault (Cpu × Dos σ) := do
  assertThat (cpu.ah = INT21_AH_GETCHE)
  let (c, s) := dosixGetche px s
  return ({ cpu with ax := setLow cpu.ax (c.setWidth 8) }, s)

def cpuPutch (px : Posix σ) (cpu : Cpu) (s : Dos σ) : Except Fault (Cpu × Dos σ) := do
  assertThat (cpu.ah = INT21_AH_PUTCH)
  let (c, s) := dosixPutch px (cpu.dl.setWidth 32) s
  return ({ cpu with ax := setLow cpu.ax (c.setWidth 8) }, s)

end Dosix
