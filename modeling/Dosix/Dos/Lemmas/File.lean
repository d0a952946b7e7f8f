import Dosix.Dos.Impl.Interrupt
import Dosix.Dos.Lemmas.ExtErr

/-!
This module contains the refinement of the file functions by the register services, and where the
code breaks it.
-/

namespace Dosix

variable {σ α β : Type}

def Result.map (f : α → β) (r : Result σ α) : Result σ β :=
  ⟨r.code, r.out.map f, r.state⟩

inductive FileService where
  | creat
  | creatnew
  | openFile
  | close
  | getfileattr
  | setfileattr
  | getftime
  | setftime
  deriving Repr, DecidableEq

inductive FileOut where
  | nothing
  | handle (fd : BitVec 32)
  | attrib (bits : BitVec 32)
  | stamp (date time : BitVec 32)
  deriving Repr, DecidableEq

def FileOut.InRegisters (cpu : Cpu) (out : FileOut) : Prop :=
  match out with
  | .nothing => True
  | .handle fd => cpu.ax = fd.signExtend 64
  | .attrib bits => cpu.cx = bits.setWidth 64
  | .stamp date time => cpu.cx = time.setWidth 64 ∧ cpu.dx = date.setWidth 64

namespace FileService

def Selected (f : FileService) (cpu : Cpu) : Prop :=
  match f with
  | .creat => cpu.ah = INT21_AH_CREAT
  | .creatnew => cpu.ah = INT21_AH_CREATNEW
  | .openFile => cpu.ah = INT21_AH_OPEN
  | .close => cpu.ah = INT21_AH_CLOSE
  | .getfileattr =>
    cpu.ah = INT21_AH_FILE_METADATA ∧ cpu.al = INT21_AL_FILE_METADATA_GETFILEATTR
  | .setfileattr =>
    cpu.ah = INT21_AH_FILE_METADATA ∧ cpu.al = INT21_AL_FILE_METADATA_SETFILEATTR
  | .getftime => cpu.ah = INT21_AH_FILE_TIME ∧ cpu.al = INT21_AL_FILE_TIME_GETFTIME
  | .setftime => cpu.ah = INT21_AH_FILE_TIME ∧ cpu.al = INT21_AL_FILE_TIME_SETFTIME

def path (px : Posix σ) (cpu : Cpu) (s : Dos σ) : CString :=
  px.cstring s.os (MK_FP cpu.ds cpu.dx)

def call (px : Posix σ) (f : FileService) (cpu : Cpu) (s : Dos σ)
    : Except Fault (Result σ FileOut) :=
  match f with
  | .creat => (dosixDosCreat px (path px cpu s) (cpu.cx.setWidth 32) s).map (.map .handle)
  | .creatnew => (dosixDosCreatnew px (path px cpu s) (cpu.cx.setWidth 32) s).map (.map .handle)
  | .openFile => (dosixDosOpen px (path px cpu s) (cpu.al.setWidth 32) s).map (.map .handle)
  | .close => (dosixDosClose px (cpu.bx.setWidth 32) s).map (.map fun _ => .nothing)
  | .getfileattr => (dosixDosGetfileattr px (path px cpu s) s).map (.map .attrib)
  | .setfileattr =>
    (dosixDosSetfileattr px (path px cpu s) (cpu.cx.setWidth 32) s).map (.map fun _ => .nothing)
  | .getftime =>
    (dosixDosGetftime px (cpu.bx.setWidth 32) s).map (.map fun (date, time) => .stamp date time)
  | .setftime =>
    (dosixDosSetftime px (cpu.bx.setWidth 32) (cpu.dx.setWidth 32) (cpu.cx.setWidth 32) s).map
      (.map fun _ => .nothing)

def Agrees (hw : Except Fault (Cpu × Dos σ)) (c : Except Fault (Result σ FileOut)) : Prop :=
  match hw, c with
  | .ok (cpu, s), .ok r =>
    s = r.state
      ∧ cpu.flags = (if r.code ≠ 0 then 1 else 0)
      ∧ (r.code ≠ 0 → cpu.ax = r.code.setWidth 64)
      ∧ (r.code = 0 → ∀ out ∈ r.out, out.InRegisters cpu)
  | .error f, .error f' => f = f'
  | _, _ => False

def Refines (px : Posix σ) (f : FileService) (cpu : Cpu) (s : Dos σ) : Prop :=
  Agrees (int21MainDosApi px cpu s) (f.call px cpu s)

end FileService

/-! The registers that a service sets. -/

namespace Cpu

variable (cpu : Cpu) (code handle : BitVec 32)

theorem setWidth_code_ne_zero : code.setWidth 64 ≠ 0 ↔ code ≠ 0 := by
  rw [ne_eq, ne_eq, not_iff_not]
  constructor
  . intro h
    apply BitVec.eq_of_toNat_eq
    have := congrArg BitVec.toNat h
    have := code.isLt
    simp only [BitVec.toNat_setWidth, BitVec.ofNat_eq_ofNat, BitVec.toNat_ofNat] at *
    omega
  . intro h
    simp [h]

theorem setCode_flags : (cpu.setCode code).flags = if code ≠ 0 then 1 else 0 := by
  unfold setCode
  dsimp only
  simp only [setWidth_code_ne_zero]

theorem setCode_ax : (cpu.setCode code).ax = code.setWidth 64 := rfl

theorem setHandle_flags : (cpu.setHandle code handle).flags = if code ≠ 0 then 1 else 0 :=
  setCode_flags cpu code

theorem setHandle_ax
    : (cpu.setHandle code handle).ax = if code ≠ 0 then code.setWidth 64 else handle.signExtend 64 := by
  unfold setHandle
  dsimp only
  rw [setCode_ax]
  simp only [setWidth_code_ne_zero]

end Cpu

namespace FileService

variable {px : Posix σ} {cpu : Cpu} {s : Dos σ}

theorem agrees_handle (x : Except Fault (Result σ (BitVec 32))) (uninit : BitVec 32)
    : Agrees (x >>= fun r => pure (cpu.setHandle r.code (r.out.getD uninit), r.state))
        (x.map (.map .handle)) := by
  cases x with
  | error f => rfl
  | ok r =>
    refine ⟨rfl, cpu.setHandle_flags _ _, ?_, ?_⟩
    . intro (hcode : r.code ≠ 0)
      rw [cpu.setHandle_ax, if_pos hcode]
      rfl
    . intro (hcode : r.code = 0) out hout
      obtain ⟨handle, hhandle, rfl⟩ := Option.map_eq_some_iff.mp hout
      unfold FileOut.InRegisters
      dsimp only
      rw [cpu.setHandle_ax, if_neg (not_not.mpr hcode), hhandle]
      rfl

theorem agrees_code (x : Except Fault (Result σ Unit))
    : Agrees (x >>= fun r => pure (cpu.setCode r.code, r.state)) (x.map (.map fun _ => .nothing)) := by
  cases x with
  | error f => rfl
  | ok r =>
    refine ⟨rfl, cpu.setCode_flags _, fun _ => rfl, ?_⟩
    intro hcode out hout
    obtain ⟨_, -, rfl⟩ := Option.map_eq_some_iff.mp hout
    exact True.intro

/-! The dispatch. -/

def handler (px : Posix σ) (f : FileService) : Syscall σ :=
  match f with
  | .creat => cpuCreat px
  | .creatnew => cpuCreatnew px
  | .openFile => cpuOpen px
  | .close => cpuClose px
  | .getfileattr => cpuGetfileattr px
  | .setfileattr => cpuSetfileattr px
  | .getftime => cpuGetftime px
  | .setftime => cpuSetftime px

theorem int21_of_selected {f : FileService} (h : f.Selected cpu)
    : int21MainDosApi px cpu s = f.handler px cpu s := by
  have hservice : int21Service px cpu = some (f.handler px) := by
    unfold int21Service
    unfold Selected at h
    cases f
    case getfileattr | setfileattr | getftime | setftime =>
      rw [h.1, h.2]
      rfl
    all_goals
      dsimp only at h
      rw [h]
      rfl
  unfold int21MainDosApi
  rw [hservice]
  rfl

theorem refines_getfileattr (h : Selected .getfileattr cpu) : Refines px .getfileattr cpu s := by
  unfold Refines
  rw [int21_of_selected h]
  unfold handler cpuGetfileattr
  dsimp only
  rw [assertThat_of h.1, assertThat_of h.2]
  change Agrees (dosixDosGetfileattr px (path px cpu s) s >>= _)
    ((dosixDosGetfileattr px (path px cpu s) s).map _)
  cases dosixDosGetfileattr px (path px cpu s) s with
  | error f => rfl
  | ok r =>
    refine ⟨rfl, cpu.setCode_flags _, fun _ => rfl, ?_⟩
    intro hcode out hout
    obtain ⟨bits, hbits, rfl⟩ := Option.map_eq_some_iff.mp hout
    change _ = _
    rw [hbits]
    rfl

theorem refines_getftime (h : Selected .getftime cpu) : Refines px .getftime cpu s := by
  unfold Refines
  rw [int21_of_selected h]
  unfold handler cpuGetftime
  dsimp only
  rw [assertThat_of h.1, assertThat_of h.2]
  change Agrees (dosixDosGetftime px (cpu.bx.setWidth 32) s >>= _)
    ((dosixDosGetftime px (cpu.bx.setWidth 32) s).map _)
  cases dosixDosGetftime px (cpu.bx.setWidth 32) s with
  | error f => rfl
  | ok r =>
    refine ⟨rfl, cpu.setCode_flags _, fun _ => rfl, ?_⟩
    intro hcode out hout
    obtain ⟨⟨date, time⟩, hstamp, rfl⟩ := Option.map_eq_some_iff.mp hout
    change _ = _ ∧ _ = _
    rw [hstamp]
    exact ⟨rfl, rfl⟩

theorem refines_of_ne_creatnew {f : FileService} (hf : f ≠ .creatnew) (h : f.Selected cpu)
    : Refines px f cpu s := by
  cases f with
  | creatnew => exact absurd rfl hf
  | getfileattr => exact refines_getfileattr h
  | getftime => exact refines_getftime h
  | creat | openFile =>
    unfold Refines
    rw [int21_of_selected h]
    unfold Selected at h
    dsimp only at h
    unfold handler
    dsimp only
    first
    | unfold cpuCreat
    | unfold cpuOpen
    rw [assertThat_of h]
    exact agrees_handle _ _
  | close =>
    unfold Refines
    rw [int21_of_selected h]
    unfold Selected at h
    dsimp only at h
    unfold handler cpuClose
    dsimp only
    rw [assertThat_of h]
    exact agrees_code _
  | setfileattr =>
    unfold Refines
    rw [int21_of_selected h]
    unfold handler cpuSetfileattr
    dsimp only
    rw [assertThat_of h.1, assertThat_of h.2]
    exact agrees_code _
  | setftime =>
    unfold Refines
    rw [int21_of_selected h]
    unfold handler cpuSetftime
    dsimp only
    rw [assertThat_of h.1, assertThat_of h.2]
    exact agrees_code _

/--
What `open` promises about `O_EXCL` where a file is created: it refuses a file that is `present`,
and makes no difference to one that is not. Without `O_EXCL` no file is refused for being there.
-/
structure CreatContract (px : Posix σ) (present : σ → String → Prop) : Prop where
  excl_present : ∀ os file mode, present os file →
    (px.openFile (some file) (O_RDWR ||| O_CREAT ||| O_TRUNC ||| O_EXCL) mode os).1
      = .error .EEXIST
  excl_absent : ∀ os file mode, ¬ present os file →
    px.openFile (some file) (O_RDWR ||| O_CREAT ||| O_TRUNC ||| O_EXCL) mode os
      = px.openFile (some file) (O_RDWR ||| O_CREAT ||| O_TRUNC) mode os
  no_excl : ∀ os file mode,
    (px.openFile (some file) (O_RDWR ||| O_CREAT ||| O_TRUNC) mode os).1 ≠ .error .EEXIST

theorem int21_creatnew (h : Selected .creatnew cpu)
    : int21MainDosApi px cpu s
        = (dosixDosCreat px (path px cpu s) (cpu.cx.setWidth 32) s >>= fun r =>
          pure (cpu.setHandle r.code (r.out.getD (px.uninit.setWidth 32)), r.state)) := by
  rw [int21_of_selected h]
  unfold Selected at h
  dsimp only at h
  unfold handler cpuCreatnew
  dsimp only
  rw [assertThat_of h]
  rfl

theorem dosCreat_congr {flags flags' attrib : BitVec 32} {file : String}
    (h : ∀ mode, px.openFile (some file) flags mode s.os = px.openFile (some file) flags' mode s.os)
    : dosCreat px (some file) attrib flags s = dosCreat px (some file) attrib flags' s := by
  unfold dosCreat Dos.call
  simp only [h]

theorem dosCreat_refused {flags : BitVec 32} (attrib : BitVec 32) {file : String}
    (h : ∀ mode, (px.openFile (some file) flags mode s.os).1 = .error .EEXIST)
    : ∃ r, dosCreat px (some file) attrib flags s = .ok r ∧ r.code ≠ 0
        ∧ r.state.errno = some .EEXIST := by
  -- what `open` answers to a `dos_creat` is in the error that it leaves behind
  unfold dosCreat
  simp only [reduceCtorEq, ↓reduceIte]
  rw [Dos.call_of_error (h _)]
  dsimp only
  refine ⟨_, failed_eq rfl rfl, ?_, rfl⟩
  change EXTERR_FILE_EXISTS ≠ 0
  decide

theorem dosCreat_not_refused {flags attrib : BitVec 32} {file : String} {r : Result σ (BitVec 32)}
    (h : ∀ mode, (px.openFile (some file) flags mode s.os).1 ≠ .error .EEXIST)
    (hcreat : dosCreat px (some file) attrib flags s = .ok r) (hcode : r.code ≠ 0)
    : r.state.errno ≠ some .EEXIST := by
  unfold dosCreat at hcreat
  simp only [reduceCtorEq, ↓reduceIte] at hcreat
  split at hcreat
  . next t ht =>
    obtain ⟨e, os, hopen, rfl⟩ := Dos.call_none ht
    rw [failed_errno hcreat]
    intro heq
    apply h
    rw [hopen, Option.some.inj heq]
  . injection hcreat with hcreat
    simp [← hcreat] at hcode

theorem refines_creatnew_iff {present : σ → String → Prop} (hpx : CreatContract px present)
    (h : Selected .creatnew cpu)
    : Refines px .creatnew cpu s ↔ ∀ file, path px cpu s = some file → ¬ present s.os file := by
  unfold Refines
  rw [int21_creatnew h]
  unfold call dosixDosCreatnew
  dsimp only
  cases hpath : path px cpu s with
  | none =>
    simp only [reduceCtorEq, false_implies, implies_true, iff_true]
    rfl
  | some file =>
    constructor
    . intro hrefines file' hfile hpresent
      obtain rfl := Option.some.inj hfile
      obtain ⟨r, hc, hcode, herrno⟩ := dosCreat_refused (cpu.cx.setWidth 32)
        (hpx.excl_present s.os file · hpresent)
      rw [hc] at hrefines
      cases hcreat : dosCreat px (some file) (cpu.cx.setWidth 32) (O_RDWR ||| O_CREAT ||| O_TRUNC) s with
      | error f =>
        unfold dosixDosCreat at hrefines
        rw [hcreat] at hrefines
        exact hrefines
      | ok r' =>
        unfold dosixDosCreat at hrefines
        rw [hcreat] at hrefines
        obtain ⟨hstate, hflags, -, -⟩ := hrefines
        have hcode' : r'.code ≠ 0 := by
          intro hzero
          change _ = if r.code ≠ 0 then 1 else 0 at hflags
          rw [cpu.setHandle_flags, if_pos hcode, if_neg (not_not.mpr hzero)] at hflags
          simp at hflags
        apply dosCreat_not_refused (hpx.no_excl s.os file) hcreat hcode'
        change r'.state = r.state at hstate
        rw [hstate, herrno]
    . intro habsent
      rw [dosCreat_congr (hpx.excl_absent s.os file · (habsent file rfl))]
      exact agrees_handle _ _

/--
Which register services refine their function: all, but the creation of a new file only where the
file is not there yet.
-/
theorem refines_iff {present : σ → String → Prop} (hpx : CreatContract px present)
    {f : FileService} (h : f.Selected cpu)
    : Refines px f cpu s
        ↔ (f = .creatnew → ∀ file, path px cpu s = some file → ¬ present s.os file) := by
  by_cases hf : f = .creatnew
  . subst hf
    simp only [forall_const]
    exact refines_creatnew_iff hpx h
  . simp only [hf, false_implies, iff_true]
    exact refines_of_ne_creatnew hf h

def directory : Posix (List (String × String)) where
  __ := (default : Posix (List (String × String)))
  cstring := fun _ a => if a = 0 then none else some "A.TXT"
  openFile := fun path flags _ os =>
    match path with
    | none => (.error .EFAULT, os)
    | some file =>
      if (os.lookup file).isSome then
        if flags &&& O_CREAT ≠ 0 ∧ flags &&& O_EXCL ≠ 0 then
          (.error .EEXIST, os)
        else if flags &&& O_TRUNC ≠ 0 then
          (.ok 3, os.map fun f => if f.1 = file then (file, "") else f)
        else
          (.ok 3, os)
      else if flags &&& O_CREAT ≠ 0 then
        (.ok 3, (file, "") :: os)
      else
        (.error .ENOENT, os)

theorem directory_creatContract
    : CreatContract directory (fun os file => (os.lookup file).isSome) where
  excl_present := by
    intro os file mode h
    simp [directory, h, O_RDWR, O_CREAT, O_TRUNC, O_EXCL]
  excl_absent := by
    intro os file mode h
    simp [directory, h, O_RDWR, O_CREAT, O_TRUNC, O_EXCL]
  no_excl := by
    intro os file mode
    cases h : (os.lookup file).isSome
    all_goals simp [directory, h, O_RDWR, O_CREAT, O_TRUNC, O_EXCL]

def creatnewCpu : Cpu :=
  { ax := 0x5b00, dx := 0x100 }

theorem selected_creatnewCpu : Selected .creatnew creatnewCpu := by
  unfold Selected
  decide

theorem refines_iff_newFile : Refines directory .creatnew creatnewCpu { os := [("B.TXT", "b")] } := by
  rw [refines_iff directory_creatContract selected_creatnewCpu]
  intro _ file hfile
  obtain rfl : "A.TXT" = file := Option.some.inj hfile
  decide

theorem not_refines_existingFile
    : Selected .creatnew creatnewCpu
      ∧ (int21MainDosApi directory creatnewCpu { os := [("A.TXT", "a")] }).map
        (fun r => (r.1.flags, r.2.os)) = .ok (0, [("A.TXT", "")])
      ∧ ¬ Refines directory .creatnew creatnewCpu { os := [("A.TXT", "a")] } := by
  -- an existing file loses its contents
  refine ⟨selected_creatnewCpu, by decide, ?_⟩
  rw [refines_creatnew_iff directory_creatContract selected_creatnewCpu]
  intro h
  exact h "A.TXT" rfl (by decide)

end FileService
end Dosix
