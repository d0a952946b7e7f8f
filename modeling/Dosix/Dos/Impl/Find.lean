import Dosix.Dos.Impl.File
import Dosix.Dos.Impl.Time

/-!
This module contains the disk transfer area and the directory search that works on it.
-/

namespace Dosix

variable {σ : Type}

def INT21_AH_SET_DTA_ADDR : BitVec 56 := 0x1a
def INT21_AH_GET_DTA_ADDR : BitVec 56 := 0x2f
def INT21_AH_FINDFIRST : BitVec 56 := 0x4e
def INT21_AH_FINDNEXT : BitVec 56 := 0x4f

def getDtaAddr (s : Dos σ) : Addr :=
  s.currentDta

def setDtaAddr (target : Addr) (s : Dos σ) : Dos σ :=
  s.setCurrentDta target

def Dos.modifyFindT (s : Dos σ) (a : Addr) (f : FindT → FindT) : Dos σ :=
  s.setFindT fun x => if x = a then f (s.findT x) else s.findT x

def FindT.matches (find : FindT) (attrib : BitVec 32) (mode : BitVec 32) : Bool :=
  find._attrib &&& attrib ≠ 0
    || (!S_ISDIR mode
      && (find._attrib &&& (_A_HIDDEN ||| _A_RDONLY ||| _A_SUBDIR ||| _A_SYSTEM) ≠ 0
        || find._attrib = 0))

def memccpy (dst : List UInt8) (src : String) : List UInt8 :=
  let copied := (src.toUTF8.data.toList ++ [0]).take dst.length
  copied ++ dst.drop copied.length

def noMoreFiles : DosError :=
  ⟨EXTERR_NO_MORE_FILES, ERRCLASS_NOT_FOUND, ERRACT_IGNORE, ERRLOCUS_BLOCK_DEV⟩

def findnextMatch (px : Posix σ) (cdta : Addr) (filename : String) (attrib : BitVec 32) (fs : Stat)
    (s : Dos σ)
    : Result σ Unit :=
  let s := s.modifyFindT cdta fun f => { f with attrib := attrib }
  match dostimeInt px fs.mtime s with
  | ⟨code, none, s⟩ => ⟨code, none, s⟩
  | ⟨_, some (date, time), s⟩ =>
    ⟨0, none, s.modifyFindT cdta fun f =>
      { f with
        wrDate := date
        wrTime := time
        size := fs.size
        name := memccpy f.name filename
        _glPathi := f._glPathi + 1 }⟩

/--
The loop of `findnext`, of which `left` rounds are left. It ends with the result of a return from
within, if there is one. The vector cannot be read when it has been freed, nor past its end.
-/
def findnextLoop (px : Posix σ) (cdta : Addr) (left : Nat) (s : Dos σ)
    : Except Fault (Option (Result σ Unit) × Dos σ) :=
  match left with
  | 0 => .ok (none, s)
  | left + 1 =>
    match (s.findT cdta).glPathv with
    | none => .error .undefined
    | some pathv =>
      match pathv[(s.findT cdta)._glPathi]? with
      | none => .error .undefined
      | some filename =>
        let next (s : Dos σ) := s.modifyFindT cdta fun f => { f with _glPathi := f._glPathi + 1 }
        match dosixDosGetfileattr px (some filename) s with
        | .error f => .error f
        | .ok ⟨code, attrib, s⟩ =>
          if code ≠ 0 then
            findnextLoop px cdta left (next s)
          else
            let attrib := attrib.getD (px.uninit.setWidth 32)
            match s.call (px.stat (some filename)) with
            | (none, s) => findnextLoop px cdta left (next s)
            | (some fs, s) =>
              if (s.findT cdta).matches attrib fs.mode then
                let r := findnextMatch px cdta filename attrib fs s
                .ok (some r, r.state)
              else
                findnextLoop px cdta left (next s)

def globfree (s : Dos σ) (a : Addr) : Dos σ :=
  s.modifyFindT a fun f => { f with glPathv := none }

def findnext (px : Posix σ) (s : Dos σ) : Except Fault (Result σ Unit) :=
  let cdta := s.currentDta
  match findnextLoop px cdta ((s.findT cdta).glPathc - (s.findT cdta)._glPathi) s with
  | .error f => .error f
  | .ok (some r, _) => .ok r
  | .ok (none, s) =>
    if (s.findT cdta)._glPathi = (s.findT cdta).glPathc then
      .ok (exterrSet noMoreFiles none ((globfree s cdta).setErrorinfo noMoreFiles))
    else
      .error .assertion

def dosixDosFindnext (px : Posix σ) (fileinfo : Addr) (s : Dos σ)
    : Except Fault (Result σ Unit) :=
  let prevDta := getDtaAddr s
  match findnext px (setDtaAddr fileinfo s) with
  | .error f => .error f
  | .ok ⟨ret, out, s⟩ =>
    let s := setDtaAddr prevDta s
    .ok ⟨ret, out, if ret ≠ 0 then s.setErrno (some .ENOENT) else s⟩

def errfunc (errorCode : Errno) (s : Dos σ) : Dos σ :=
  -- the result, which is never zero, makes `glob` stop
  let set (new : DosError) := (exterrSet new none s : Result σ Unit).state
  match errorCode with
  | .EACCES =>
    set ⟨EXTERR_ACCESS_DENIED, ERRCLASS_ACCESS_DENIED, ERRACT_ABORT_AFTER_CLEANUP,
      ERRLOCUS_BLOCK_DEV⟩
  | .ENOENT =>
    set ⟨EXTERR_PATH_NOT_FOUND, ERRCLASS_NOT_FOUND, ERRACT_PROMPT_USR_REENTER_INPUT,
      ERRLOCUS_BLOCK_DEV⟩
  | Errno.EIO =>
    set ⟨EXTERR_READ_FAULT, ERRCLASS_MEDIA_ERROR, ERRACT_RETRY_AFTER_USR_INTERV,
      ERRLOCUS_BLOCK_DEV⟩
  | e => s.setErrno (some e)

def globbed (s : Dos σ) (a : Addr) (paths : List String) : Dos σ :=
  s.modifyFindT a fun f => { f with glPathc := paths.length, glPathv := some paths }

def findfirst (px : Posix σ) (filename : CString) (attrib : BitVec 32) (s : Dos σ)
    : Except Fault (Result σ Unit) :=
  let cdta := s.currentDta
  if filename = none then
    -- `glob` rejects it with a value that is none of the expected ones
    .error .unreachable
  else
    match px.glob filename s.os with
    | (.success paths, os) =>
      let s := globbed (s.setOs os) cdta paths
      if 0 < paths.length then
        findnext px (s.modifyFindT cdta fun f => { f with _glPathi := 0, _attrib := attrib })
      else
        .error .assertion
    | (.aborted e paths, os) => failed (globfree (globbed (errfunc e (s.setOs os)) cdta paths) cdta)
    | (.nomatch, os) =>
      .ok (exterrSet
        ⟨EXTERR_FILE_NOT_FOUND, ERRCLASS_NOT_FOUND, ERRACT_PROMPT_USR_REENTER_INPUT,
          ERRLOCUS_BLOCK_DEV⟩
        none (globfree (globbed (s.setOs os) cdta []) cdta))
    | (.nospace paths, os) =>
      .ok (exterrSet
        ⟨EXTERR_INSUF_MEM, ERRCLASS_OUT_OF_RESOURCE, ERRACT_IMMEDIATE_ABORT,
          ERRLOCUS_MEM_RELATED⟩
        none (globfree (globbed (s.setOs os) cdta paths) cdta))

def dosixDosFindfirst (px : Posix σ) (filename : CString) (attrib : BitVec 32) (fileinfo : Addr)
    (s : Dos σ)
    : Except Fault (Result σ Unit) :=
  let prevDta := getDtaAddr s
  match findfirst px filename attrib (setDtaAddr fileinfo s) with
  | .error f => .error f
  | .ok ⟨ret, out, s⟩ =>
    let s := setDtaAddr prevDta s
    .ok ⟨ret, out, if ret ≠ 0 then s.setErrno (some .ENOENT) else s⟩

def cpuGetDtaAddr (cpu : Cpu) (s : Dos σ) : Except Fault (Cpu × Dos σ) := do
  assertThat (cpu.ah = INT21_AH_GET_DTA_ADDR)
  let dta := getDtaAddr s
  return ({ cpu with es := FP_SEG dta, bx := FP_OFF dta }, s)

def cpuSetDtaAddr (cpu : Cpu) (s : Dos σ) : Except Fault (Cpu × Dos σ) := do
  assertThat (cpu.ah = INT21_AH_SET_DTA_ADDR)
  return (cpu, setDtaAddr (MK_FP cpu.ds cpu.dx) s)

def cpuFindfirst (px : Posix σ) (cpu : Cpu) (s : Dos σ) : Except Fault (Cpu × Dos σ) := do
  assertThat (cpu.ah = INT21_AH_FINDFIRST)
  let r ← findfirst px (px.cstring s.os (MK_FP cpu.ds cpu.dx)) (cpu.cx.setWidth 32) s
  return (cpu.setCode r.code, r.state)

def cpuFindnext (px : Posix σ) (cpu : Cpu) (s : Dos σ) : Except Fault (Cpu × Dos σ) := do
  assertThat (cpu.ah = INT21_AH_FINDNEXT)
  let r ← findnext px s
  return (cpu.setCode r.code, r.state)

end Dosix
