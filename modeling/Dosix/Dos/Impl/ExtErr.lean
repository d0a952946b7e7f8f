import Dosix.Dos.Basic

/-!
This module contains the extended error of `dos.c`: `_dosexterr`, `exterr_set` and their interrupt
services.
-/

namespace Dosix

variable {σ α : Type}

def INT21_AH_EXTERR : BitVec 56 := 0x59
def INT21_BH_EXTERR : BitVec 56 := 0x00
def INT21_BL_EXTERR : BitVec 8 := 0x00
def INT2F_AH_DOS_INTERNAL : BitVec 56 := 0x12
def INT2F_AL_DOS_INTERNAL_EXTERR_SET : BitVec 8 := 0x22

def dosixDosexterr (s : Dos σ) : Except Fault (DosError × Dos σ) :=
  match s.errno with
  | none => .ok (s.errorinfo, s)
  | some e =>
    match e.doserror with
    | none => .error .unreachable
    | some info => .ok (info, s.setErrorinfo info)

def failed (s : Dos σ) : Except Fault (Result σ α) :=
  match dosixDosexterr s with
  | .error f => .error f
  | .ok (info, s) => .ok ⟨info.exterror, none, s⟩

/--
The fields of `new` that are not marked, and those of `old` where they are.
-/
def DosError.merge (old new : DosError) : DosError where
  exterror := if new.exterror.toInt ≠ EXTERR_DONT_CHANGE then new.exterror else old.exterror
  errclass := if new.errclass.toInt ≠ ERRCLASS_DONT_CHANGE then new.errclass else old.errclass
  action := if new.action.toInt ≠ ERRACT_DONT_CHANGE then new.action else old.action
  locus := if new.locus.toInt ≠ ERRLOCUS_DONT_CHANGE then new.locus else old.locus

def exterrSet (new : DosError) (errno : Option Errno) (s : Dos σ) : Result σ α :=
  let errorinfo := s.errorinfo.merge new
  ⟨errorinfo.exterror, none,
    ((s.setErrorinfo errorinfo).setDoserrno errorinfo.exterror).setErrno errno⟩

def cpuExterr (px : Posix σ) (cpu : Cpu) (s : Dos σ) : Except Fault (Cpu × Dos σ) := do
  assertThat (cpu.ah = INT21_AH_EXTERR)
  assertThat (cpu.bh = INT21_BH_EXTERR)
  assertThat (cpu.bl = INT21_BL_EXTERR)
  let (errorinfo, s) ← dosixDosexterr s
  let cpu := { cpu with ax := errorinfo.exterror.signExtend 64 }
  let cpu := { cpu with bx := setHigh cpu.bx (errorinfo.errclass.signExtend 56) }
  let cpu := { cpu with bx := setLow cpu.bx errorinfo.action }
  let cpu := { cpu with cx := setHigh cpu.cx (errorinfo.locus.signExtend 56) }
  if errorinfo.exterror = EXTERR_DSK_CHANGE_INVAL then
    return ({ cpu with es := FP_SEG px.mediaId, di := FP_OFF px.mediaId }, s)
  else
    return (cpu, s)

def cpuExterrSet (px : Posix σ) (cpu : Cpu) (s : Dos σ) : Except Fault (Cpu × Dos σ) := do
  assertThat (cpu.ah = INT2F_AH_DOS_INTERNAL)
  assertThat (cpu.al = INT2F_AL_DOS_INTERNAL_EXTERR_SET)
  let r : Result σ Unit := exterrSet (px.doserror s.os (MK_FP cpu.ss cpu.si)) none s
  return (cpu, r.state)

end Dosix
