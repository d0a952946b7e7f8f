import Dosix.Dos.Impl.ExtErr

/-!
This module contains the conversions between the times of DOS and of the kernel, and the services
that read and set the time of a file and the clock.
-/

namespace Dosix

variable {σ : Type}

def INT21_AH_FILE_TIME : BitVec 56 := 0x57
def INT21_AL_FILE_TIME_GETFTIME : BitVec 8 := 0x00
def INT21_AL_FILE_TIME_SETFTIME : BitVec 8 := 0x01
def INT21_AH_GETDATE : BitVec 56 := 0x2a
def INT21_AH_SETDATE : BitVec 56 := 0x2b
def INT21_AH_GETTIME : BitVec 56 := 0x2c
def INT21_AH_SETTIME : BitVec 56 := 0x2d

structure Dosdate where
  day : BitVec 8
  month : BitVec 8
  year : BitVec 32
  dayofweek : BitVec 8 := 0
  deriving Repr, DecidableEq

structure Dostime where
  hour : BitVec 8
  minute : BitVec 8
  second : BitVec 8
  hsecond : BitVec 8
  deriving Repr, DecidableEq

def badArguments : DosError :=
  ⟨EXTERR_BAD_ARGUMENTS, ERRCLASS_APP_PROG_ERROR, ERRACT_ABORT_AFTER_CLEANUP, ERRLOCUS_UNKNOWN⟩

def unixtimeStruct (px : Posix σ) (date : Dosdate) (time : Dostime) (s : Dos σ)
    : Result σ Timeval :=
  let tm : Tm := {
    sec := time.second.toNat
    min := time.minute.toNat
    hour := time.hour.toNat
    mday := date.day.toNat
    mon := (date.month.toNat : Int) - 1
    year := (date.year - 1900).toInt
    wday := date.dayofweek.toNat
  }
  let utime := px.mktime tm
  if utime = -1 then
    exterrSet badArguments (some .EINVAL) s
  else
    ⟨0, some ⟨utime, time.hsecond.toNat * 10000⟩, s⟩

/--
`dostime_struct`. Where only the date or only the time is asked for, the other one is dropped.
-/
def dostimeStruct (px : Posix σ) (tv : Timeval) (s : Dos σ) : Result σ (Dosdate × Dostime) :=
  match px.localtime tv.sec with
  | none => exterrSet badArguments none s
  | some tm =>
    let date : Dosdate := {
      day := .ofInt 8 tm.mday
      month := .ofInt 8 (tm.mon + 1)
      year := .ofInt 32 (1900 + tm.year)
      dayofweek := .ofInt 8 tm.wday
    }
    let time : Dostime := {
      hour := .ofInt 8 tm.hour
      minute := .ofInt 8 tm.min
      second := .ofInt 8 tm.sec
      hsecond := .ofInt 8 (tv.usec.tdiv 10000)
    }
    ⟨0, some (date, time), s⟩

def unixtimeIntTm (date time : BitVec 32) : Tm where
  sec := ((time &&& ((1 <<< 5) - 1)) * 2).toInt
  min := (time >>> 5 &&& ((1 <<< 6) - 1)).toInt
  hour := (time >>> 11).toInt
  mday := (date &&& ((1 <<< 5) - 1)).toInt
  mon := ((date >>> 5 &&& ((1 <<< 4) - 1)) - 1).toInt
  year := ((date >>> 9) + (1980 - 1900)).toInt
  isdst := -1

def unixtimeInt (px : Posix σ) (date time : BitVec 32) (s : Dos σ) : Result σ Int :=
  let utime := px.mktime (unixtimeIntTm date time)
  if utime = -1 then
    exterrSet badArguments none s
  else
    ⟨0, some utime, s⟩

def dostimeIntDate (tm : Tm) : BitVec 32 :=
  BitVec.ofInt 32 (tm.year - (1980 - 1900)) <<< 9
    ||| BitVec.ofInt 32 (tm.mon + 1) <<< 5
    ||| BitVec.ofInt 32 tm.mday

def dostimeIntTime (tm : Tm) : BitVec 32 :=
  BitVec.ofInt 32 tm.hour <<< 11
    ||| BitVec.ofInt 32 tm.min <<< 5
    ||| BitVec.ofInt 32 (tm.sec.tdiv 2)

def dostimeInt (px : Posix σ) (utime : Int) (s : Dos σ) : Result σ (BitVec 32 × BitVec 32) :=
  match px.localtime utime with
  | none => exterrSet badArguments none s
  | some tm => ⟨0, some (dostimeIntDate tm, dostimeIntTime tm), s⟩

def dosixDosGetftime (px : Posix σ) (handle : BitVec 32) (s : Dos σ)
    : Except Fault (Result σ (BitVec 32 × BitVec 32)) :=
  match s.call (px.fstat handle) with
  | (none, s) => failed s
  | (some fs, s) => .ok (dostimeInt px fs.mtime s)

def dosixDosSetftime (px : Posix σ) (handle date time : BitVec 32) (s : Dos σ)
    : Except Fault (Result σ Unit) :=
  match unixtimeInt px date time s with
  | ⟨code, none, s⟩ => .ok ⟨code, none, s⟩
  | ⟨_, some utime, s⟩ =>
    match s.call (px.fstat handle) with
    | (none, s) => failed s
    | (some fs, s) =>
      match s.call (px.futimes handle ⟨fs.atime, 0⟩ ⟨utime, 0⟩) with
      | (none, s) => failed s
      | (some (), s) => .ok ⟨0, none, s⟩

def dosixDosGetdate (px : Posix σ) (date : Dosdate) (s : Dos σ) : Dosdate × Dos σ :=
  -- a failure is silent, and leaves the date as it is
  match s.call px.gettimeofday with
  | (none, s) => (date, s)
  | (some tv, s) =>
    match dostimeStruct px tv s with
    | ⟨_, none, s⟩ => (date, s)
    | ⟨_, some (date, _), s⟩ => (date, s)

def dosixDosGettime (px : Posix σ) (time : Dostime) (s : Dos σ) : Dostime × Dos σ :=
  match s.call px.gettimeofday with
  | (none, s) => (time, s)
  | (some tv, s) =>
    match dostimeStruct px tv s with
    | ⟨_, none, s⟩ => (time, s)
    | ⟨_, some (_, time), s⟩ => (time, s)

def uninitDate (px : Posix σ) : Dosdate :=
  -- not assigned yet
  ⟨px.uninit.setWidth 8, px.uninit.setWidth 8, px.uninit.setWidth 32, px.uninit.setWidth 8⟩

def uninitTime (px : Posix σ) : Dostime :=
  ⟨px.uninit.setWidth 8, px.uninit.setWidth 8, px.uninit.setWidth 8, px.uninit.setWidth 8⟩

def setClock (px : Posix σ) (date : Dosdate) (time : Dostime) (s : Dos σ)
    : Except Fault (Result σ Unit) :=
  match unixtimeStruct px date time s with
  | ⟨code, none, s⟩ => .ok ⟨code, none, s⟩
  | ⟨_, some tv, s⟩ =>
    match s.call (px.settimeofday tv) with
    | (none, s) => failed s
    | (some (), s) => .ok ⟨0, none, s⟩

def dosixDosSetdate (px : Posix σ) (date : Dosdate) (s : Dos σ) : Except Fault (Result σ Unit) :=
  match dosixDosGettime px (uninitTime px) s with
  | (time, s) => setClock px date time s

def dosixDosSettime (px : Posix σ) (time : Dostime) (s : Dos σ) : Except Fault (Result σ Unit) :=
  match dosixDosGetdate px (uninitDate px) s with
  | (date, s) => setClock px date time s

def cpuGetftime (px : Posix σ) (cpu : Cpu) (s : Dos σ) : Except Fault (Cpu × Dos σ) := do
  assertThat (cpu.ah = INT21_AH_FILE_TIME)
  assertThat (cpu.al = INT21_AL_FILE_TIME_GETFTIME)
  let r ← dosixDosGetftime px (cpu.bx.setWidth 32) s
  let (date, time) := r.out.getD (px.uninit.setWidth 32, px.uninit.setWidth 32)
  return ({ cpu.setCode r.code with cx := time.setWidth 64, dx := date.setWidth 64 }, r.state)

def cpuSetftime (px : Posix σ) (cpu : Cpu) (s : Dos σ) : Except Fault (Cpu × Dos σ) := do
  assertThat (cpu.ah = INT21_AH_FILE_TIME)
  assertThat (cpu.al = INT21_AL_FILE_TIME_SETFTIME)
  let r ← dosixDosSetftime px (cpu.bx.setWidth 32) (cpu.dx.setWidth 32) (cpu.cx.setWidth 32) s
  return (cpu.setCode r.code, r.state)

def cpuGetdate (px : Posix σ) (cpu : Cpu) (s : Dos σ) : Except Fault (Cpu × Dos σ) := do
  assertThat (cpu.ah = INT21_AH_GETDATE)
  let (date, s) := dosixDosGetdate px (uninitDate px) s
  let cpu := { cpu with cx := date.year.setWidth 64 }
  let cpu := { cpu with dx := setHigh cpu.dx (date.month.setWidth 56) }
  let cpu := { cpu with dx := setLow cpu.dx date.day }
  return ({ cpu with ax := setLow cpu.ax date.dayofweek }, s)

def cpuSetdate (px : Posix σ) (cpu : Cpu) (s : Dos σ) : Except Fault (Cpu × Dos σ) := do
  assertThat (cpu.ah = INT21_AH_SETDATE)
  let date := { year := cpu.cx.setWidth 32, month := cpu.dh.setWidth 8, day := cpu.dl }
  let r ← dosixDosSetdate px date s
  return ({ cpu with ax := setLow cpu.ax (if r.code ≠ 0 then 0xff else 0x00) }, r.state)

def cpuGettime (px : Posix σ) (cpu : Cpu) (s : Dos σ) : Except Fault (Cpu × Dos σ) := do
  assertThat (cpu.ah = INT21_AH_GETTIME)
  let (time, s) := dosixDosGettime px (uninitTime px) s
  let cpu := { cpu with cx := setHigh cpu.cx (time.hour.setWidth 56) }
  let cpu := { cpu with cx := setLow cpu.cx time.minute }
  let cpu := { cpu with dx := setHigh cpu.dx (time.second.setWidth 56) }
  return ({ cpu with dx := setLow cpu.dx time.hsecond }, s)

def cpuSettime (px : Posix σ) (cpu : Cpu) (s : Dos σ) : Except Fault (Cpu × Dos σ) := do
  assertThat (cpu.ah = INT21_AH_SETTIME)
  let time := {
    hour := cpu.ch.setWidth 8
    minute := cpu.cl
    second := cpu.dh.setWidth 8
    hsecond := cpu.dl
  }
  let r ← dosixDosSettime px time s
  return ({ cpu with ax := setLow cpu.ax (if r.code ≠ 0 then 0xff else 0x00) }, r.state)

end Dosix
