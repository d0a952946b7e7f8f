import Dosix.Dos.Lemmas.Pending
import Mathlib.Logic.Function.Basic

/-!
This module contains the descriptors and the locks of the process, and what opening a file makes of
them: an open that fails after the kernel has picked a descriptor keeps it.
-/

namespace Dosix

open Transition

structure Descriptor (ι : Type) where
  file : ι
  closeOnExec : Bool
  deriving Repr, DecidableEq

/--
The open descriptors of a process, and the types of its locks, each on a whole file.
-/
@[ext]
structure OpenFiles (ι : Type) where
  descriptors : BitVec 32 → Option (Descriptor ι)
  locks : ι → Option (BitVec 16)

namespace OpenFiles

variable {ι : Type} (files : OpenFiles ι)

def setDescriptor (fd : BitVec 32) (d : Descriptor ι) : OpenFiles ι :=
  { files with descriptors := Function.update files.descriptors fd (some d) }

def lock [DecidableEq ι] (file : ι) (type : BitVec 16) : OpenFiles ι :=
  { files with locks := Function.update files.locks file (some type) }

def lockAll [DecidableEq ι] (file : ι) (type : Option (BitVec 16)) : OpenFiles ι :=
  match type with
  | none => files
  | some type => files.lock file type

@[simp]
theorem setDescriptor_same (fd : BitVec 32) (d : Descriptor ι)
    : (files.setDescriptor fd d).descriptors fd = some d := by
  simp [setDescriptor]

@[simp]
theorem setDescriptor_setDescriptor (fd : BitVec 32) (d d' : Descriptor ι)
    : (files.setDescriptor fd d).setDescriptor fd d' = files.setDescriptor fd d' := by
  simp [setDescriptor]

variable {files} in
theorem setDescriptor_of_some {fd : BitVec 32} {d : Descriptor ι} (h : files.descriptors fd = some d)
    : files.setDescriptor fd d = files := by
  unfold setDescriptor
  rw [← h, Function.update_eq_self]

variable [DecidableEq ι]

@[simp]
theorem lockAll_descriptors (file : ι) (type : Option (BitVec 16))
    : (files.lockAll file type).descriptors = files.descriptors := by
  unfold lockAll
  split
  . rfl
  . rfl

theorem lockAll_setDescriptor (file : ι) (type : Option (BitVec 16)) (fd : BitVec 32)
    (d : Descriptor ι)
    : (files.lockAll file type).setDescriptor fd d
        = (files.setDescriptor fd d).lockAll file type := by
  unfold lockAll
  split
  . rfl
  . rfl

/--
From `files` to `files'` the new descriptor `fd` has been added, with the lock of the type, if any,
and the flag as asked for, and nothing else has changed.
-/
def Opened (files' : OpenFiles ι) (fd : BitVec 32) (type : Option (BitVec 16)) (noinherit : Bool)
    : Prop :=
  files.descriptors fd = none
    ∧ ∃ file, files' = (files.setDescriptor fd ⟨file, noinherit⟩).lockAll file type

end OpenFiles

def O_CLOEXEC : BitVec 32 := 0x80000
def F_UNLCK : BitVec 16 := 2

/--
What the kernel does to the descriptors and the locks of the process: a call that fails changes
none, and `open` picks a descriptor that is not in use.
-/
structure DescriptorContract {σ ι : Type} [DecidableEq ι] (px : Posix σ) (view : σ → OpenFiles ι)
    : Prop where
  openFile_error : ∀ {path flags mode os e os'}, px.openFile path flags mode os = (.error e, os') →
    view os' = view os
  openFile_ok : ∀ {path flags mode os fd os'}, px.openFile path flags mode os = (.ok fd, os') →
    (view os).descriptors fd = none
      ∧ ∃ file, view os' = (view os).setDescriptor fd ⟨file, flags &&& O_CLOEXEC ≠ 0⟩
  setlk_error : ∀ {fd type os e os'}, px.setlk fd type os = (.error e, os') → view os' = view os
  setlk_ok : ∀ {fd type os os' d}, px.setlk fd type os = (.ok (), os') → type ≠ F_UNLCK →
    (view os).descriptors fd = some d → view os' = (view os).lock d.file type
  getfd : ∀ {fd os r os'}, px.getfd fd os = (r, os') → view os' = view os
  setfd_error : ∀ {fd flags os e os'}, px.setfd fd flags os = (.error e, os') → view os' = view os
  setfd_ok : ∀ {fd flags os os' d}, px.setfd fd flags os = (.ok (), os') →
    (view os).descriptors fd = some d →
    view os' = (view os).setDescriptor fd { d with closeOnExec := flags &&& FD_CLOEXEC ≠ 0 }

variable {σ : Type}

/-! What opening asks the kernel for. -/

/--
The error, if any, of the calls that follow once the kernel has opened the file.
-/
def setupFailure (px : Posix σ) (mode fd : BitVec 32) (os : σ) : Option Errno :=
  match lockCall px mode fd os with
  | (.error e, _) => some e
  | (.ok (), os) =>
    match noinheritCall px mode fd os with
    | (.error e, _) => some e
    | (.ok (), _) => none

def openFlags (mode : BitVec 32) : BitVec 32 :=
  (if mode &&& _O_RDONLY ≠ 0 then O_RDONLY else 0)
    ||| (if mode &&& _O_WRONLY ≠ 0 then O_WRONLY else 0)
    ||| (if mode &&& _O_RDWR ≠ 0 then O_RDWR else 0)

def lateFailure (px : Posix σ) (path : CString) (mode : BitVec 32) (os : σ) : Option Errno :=
  if path = none then
    none
  else
    match px.openFile path (openFlags mode) 0 os with
    | (.error _, _) => none
    | (.ok fd, os) => setupFailure px mode fd os

theorem openFlags_cloexec (mode : BitVec 32) : openFlags mode &&& O_CLOEXEC = 0 := by
  unfold openFlags
  split
  all_goals
    split
    all_goals
      split
      all_goals rfl

theorem requestedLock_ne_unlock {mode : BitVec 32} {type : BitVec 16}
    (h : requestedLock mode = some type)
    : type ≠ F_UNLCK := by
  unfold requestedLock at h
  split at h
  . simp at h
  . split at h
    . obtain rfl := Option.some.inj h
      decide
    . obtain rfl := Option.some.inj h
      decide

/-! The descriptors and locks behind each call. -/

section Calls

variable {ι : Type} [DecidableEq ι] {px : Posix σ} {view : σ → OpenFiles ι}
  {mode fd : BitVec 32} {os os' : σ} {d : Descriptor ι}

theorem lockCall_error (hpx : DescriptorContract px view) {e : Errno}
    (h : lockCall px mode fd os = (.error e, os'))
    : view os' = view os := by
  unfold lockCall at h
  split at h
  . simp at h
  . exact hpx.setlk_error h

theorem lockCall_ok (hpx : DescriptorContract px view) (hfd : (view os).descriptors fd = some d)
    (h : lockCall px mode fd os = (.ok (), os'))
    : view os' = (view os).lockAll d.file (requestedLock mode) := by
  unfold lockCall at h
  split at h
  . next hlock =>
    obtain rfl := (Prod.mk.inj h).2
    rw [hlock]
    rfl
  . next hlock =>
    rw [hlock]
    exact hpx.setlk_ok h (requestedLock_ne_unlock hlock) hfd

theorem noinheritCall_error (hpx : DescriptorContract px view) {e : Errno}
    (h : noinheritCall px mode fd os = (.error e, os'))
    : view os' = view os := by
  unfold noinheritCall at h
  split at h
  . split at h
    . next hgetfd =>
      obtain rfl := (Prod.mk.inj h).2
      exact hpx.getfd hgetfd
    . next hgetfd =>
      rw [hpx.setfd_error h]
      exact hpx.getfd hgetfd
  . simp at h

theorem noinheritCall_ok (hpx : DescriptorContract px view)
    (hfd : (view os).descriptors fd = some d) (hd : d.closeOnExec = false)
    (h : noinheritCall px mode fd os = (.ok (), os'))
    : view os' = (view os).setDescriptor fd ⟨d.file, requestsNoinherit mode⟩ := by
  unfold noinheritCall at h
  split at h
  . next hnoinherit =>
    split at h
    . simp at h
    . next flags os'' hgetfd =>
      have hsame := hpx.getfd hgetfd
      rw [← hsame] at hfd
      rw [hpx.setfd_ok h hfd, hsame, hnoinherit]
      congr 2
      have hcloexec : (flags ||| FD_CLOEXEC) &&& FD_CLOEXEC = FD_CLOEXEC := by
        ext i
        simp only [BitVec.getElem_and, BitVec.getElem_or]
        grind
      rw [hcloexec]
      rfl
  . next hnoinherit =>
    obtain rfl := (Prod.mk.inj h).2
    rw [Bool.not_eq_true] at hnoinherit
    rw [hnoinherit, ← hd]
    exact (OpenFiles.setDescriptor_of_some hfd).symm

end Calls

/-! What the program gets. -/

section Outcome

variable {ι : Type} [DecidableEq ι] {px : Posix σ} {view : σ → OpenFiles ι} {s t : Dos σ}
  {type : Option (BitVec 16)} {noinherit : Bool}

/--
A call that fails has changed no descriptor and no lock, and has stored no handle; a call that
succeeds has opened one descriptor, which is the handle that it stores.
-/
def OpensCleanly (view : σ → OpenFiles ι) (s : Dos σ) (type : Option (BitVec 16)) (noinherit : Bool)
    (r : Result σ (BitVec 32)) : Prop :=
  (r.code ≠ 0 → view r.state.os = view s.os ∧ r.out = none)
    ∧ (r.code = 0 → ∃ fd, r.out = some fd
      ∧ (view s.os).Opened (view r.state.os) fd type noinherit)

/--
The same for a service, which leaves the code or the handle in `AX`.
-/
def OpensCleanlyCpu (view : σ → OpenFiles ι) (s : Dos σ) (type : Option (BitVec 16))
    (noinherit : Bool) (p : Cpu × Dos σ) : Prop :=
  (p.1.flags ≠ 0 → view p.2.os = view s.os)
    ∧ (p.1.flags = 0 → ∃ fd : BitVec 32, p.1.ax = fd.signExtend 64
      ∧ (view s.os).Opened (view p.2.os) fd type noinherit)

theorem failed_out {α : Type} {r : Result σ α} (h : failed t = .ok r) : r.out = none := by
  unfold failed at h
  split at h
  . simp at h
  . injection h with h
    rw [← h]

theorem failed_opensCleanly_iff {e : Errno} (h : t.errno = some e)
    : Meets (OpensCleanly view s type noinherit) (fun _ => True) (failed t)
        ↔ (e.doserror = none ∨ view t.os = view s.os) := by
  have hne := failed_ne_zero (α := BitVec 32) (s := t) (by simp [h])
  cases hinfo : e.doserror with
  | none =>
    have hfailed : failed t = (.error .unreachable : Except Fault (Result σ (BitVec 32))) := by
      simp [failed, dosixDosexterr, h, hinfo]
    rw [hfailed]
    exact iff_of_true trivial (.inl rfl)
  | some info =>
    have hfailed := failed_eq (α := BitVec 32) h hinfo
    rw [hfailed] at hne
    rw [hfailed, meets_ok]
    constructor
    . intro hclean
      exact .inr (hclean.1 hne).1
    . rintro (hnone | hsame)
      . simp at hnone
      . exact ⟨fun _ => ⟨hsame, rfl⟩, fun hzero => absurd hzero hne⟩

theorem failed_late_iff {fd : BitVec 32} {d : Descriptor ι} {e : Errno} (h : t.errno = some e)
    (hfree : (view s.os).descriptors fd = none) (hfd : (view t.os).descriptors fd = some d)
    : Meets (OpensCleanly view s type noinherit) (fun _ => True) (failed t) ↔ e.doserror = none := by
  rw [failed_opensCleanly_iff h]
  constructor
  . rintro (hnone | hsame)
    . exact hnone
    . -- the descriptor is still there
      rw [hsame, hfree] at hfd
      simp at hfd
  . exact .inl

theorem dosCreat_opensCleanly (hpx : DescriptorContract px view) (filename : CString)
    (attrib flags : BitVec 32) (hflags : flags &&& O_CLOEXEC = 0)
    : Meets (OpensCleanly view s none false) (fun _ => True)
        (dosCreat px filename attrib flags s) := by
  unfold dosCreat
  split
  . trivial
  . dsimp only
    split
    . next h =>
      obtain ⟨e, os, hopen, rfl⟩ := Dos.call_none h
      rw [failed_opensCleanly_iff rfl]
      exact .inr (hpx.openFile_error hopen)
    . next h =>
      obtain ⟨os, hopen, rfl⟩ := Dos.call_some h
      obtain ⟨hfree, file, hview⟩ := hpx.openFile_ok hopen
      refine ⟨fun hne => absurd rfl hne, fun _ => ⟨_, rfl, hfree, file, ?_⟩⟩
      rw [Dos.setOs_os, hview, hflags]
      rfl

theorem dosixDosOpen_opensCleanly_iff (hpx : DescriptorContract px view) (path : CString)
    (mode : BitVec 32)
    : Meets (OpensCleanly view s (requestedLock mode) (requestsNoinherit mode)) (fun _ => True)
          (dosixDosOpen px path mode s)
        ↔ ∀ e ∈ lateFailure px path mode s.os, e.doserror = none := by
  unfold dosixDosOpen lateFailure
  by_cases hpath : path = none
  . rw [if_pos hpath, if_pos hpath]
    simp
  . rw [if_neg hpath, if_neg hpath]
    dsimp only
    rw [← openFlags]
    cases hopen : px.openFile path (openFlags mode) 0 s.os with
    | mk r os =>
      cases r with
      | error e =>
        simp only [Dos.call, hopen]
        rw [failed_opensCleanly_iff rfl]
        exact iff_of_true (.inr (hpx.openFile_error hopen)) (by simp)
      | ok fd =>
        obtain ⟨hfree, file, hview⟩ := hpx.openFile_ok hopen
        rw [openFlags_cloexec] at hview
        have hfd : (view os).descriptors fd = some ⟨file, false⟩ := by
          rw [hview, OpenFiles.setDescriptor_same]
          rfl
        simp only [Dos.call, hopen, openLock_eq_call, setupFailure, Dos.setOs_os]
        cases hlock : lockCall px mode fd os with
        | mk r os' =>
          cases r with
          | error e =>
            dsimp only
            rw [failed_late_iff rfl hfree (d := ⟨file, false⟩)]
            . simp
            . change (view os').descriptors fd = _
              rw [lockCall_error hpx hlock, hfd]
          | ok u =>
            have hlocked := lockCall_ok hpx hfd hlock
            have hfd' : (view os').descriptors fd = some ⟨file, false⟩ := by
              rw [hlocked, OpenFiles.lockAll_descriptors, hfd]
            simp only [Dos.call, openNoinherit_eq_call, Dos.setOs_os]
            cases hnoinherit : noinheritCall px mode fd os' with
            | mk r os'' =>
              cases r with
              | error e =>
                dsimp only
                rw [failed_late_iff rfl hfree (d := ⟨file, false⟩)]
                . simp
                . change (view os'').descriptors fd = _
                  rw [noinheritCall_error hpx hnoinherit, hfd']
              | ok u =>
                refine iff_of_true ⟨fun hne => absurd rfl hne, fun _ => ?_⟩ (by simp)
                refine ⟨fd, rfl, hfree, file, ?_⟩
                change view os'' = _
                rw [noinheritCall_ok hpx hfd' rfl hnoinherit, hlocked,
                  OpenFiles.lockAll_setDescriptor, hview, OpenFiles.setDescriptor_setDescriptor]

theorem failed_out_iff (h : t.errno ≠ none)
    : Meets (fun r : Result σ (BitVec 32) => r.out = none ↔ r.code ≠ 0) (fun _ => True)
        (failed t) := by
  have hne := failed_ne_zero (α := BitVec 32) h
  cases hr : failed (α := BitVec 32) t with
  | error f => trivial
  | ok r => exact iff_of_true (failed_out hr) (hne.of_ok hr)

theorem dosixDosOpen_out (px : Posix σ) (s : Dos σ) (path : CString) (mode : BitVec 32)
    : Meets (fun r => r.out = none ↔ r.code ≠ 0) (fun _ => True) (dosixDosOpen px path mode s) := by
  unfold dosixDosOpen
  split
  . trivial
  . dsimp only
    split
    . next h => exact failed_out_iff (Dos.call_none_errno h)
    . split
      . next h => exact failed_out_iff (openLock_errno h)
      . split
        . next h => exact failed_out_iff (openNoinherit_errno h)
        . simp

theorem signExtend_injective {fd fd' : BitVec 32} (h : fd.signExtend 64 = fd'.signExtend 64)
    : fd = fd' := by
  apply BitVec.eq_of_toInt_eq
  have := congrArg BitVec.toInt h
  rwa [BitVec.toInt_signExtend_of_le (by decide), BitVec.toInt_signExtend_of_le (by decide)] at this

theorem int21_open_opensCleanly_iff {cpu : Cpu} (hah : cpu.ah = INT21_AH_OPEN)
    : Meets (OpensCleanlyCpu view s type noinherit) (fun _ => True) (int21MainDosApi px cpu s)
        ↔ Meets (OpensCleanly view s type noinherit) (fun _ => True)
          (dosixDosOpen px (px.cstring s.os (MK_FP cpu.ds cpu.dx)) (cpu.al.setWidth 32) s) := by
  rw [DosService.int21_of_selected (d := .file .openFile) hah]
  unfold DosService.handler FileService.handler cpuOpen
  dsimp only
  rw [assertThat_of hah]
  have hout := dosixDosOpen_out px s (px.cstring s.os (MK_FP cpu.ds cpu.dx)) (cpu.al.setWidth 32)
  cases hcall : dosixDosOpen px (px.cstring s.os (MK_FP cpu.ds cpu.dx)) (cpu.al.setWidth 32) s with
  | error e => rfl
  | ok r =>
    replace hout := hout.of_ok hcall
    change OpensCleanlyCpu view s type noinherit
      (cpu.setHandle r.code (r.out.getD (px.uninit.setWidth 32)), r.state) ↔ OpensCleanly _ _ _ _ r
    unfold OpensCleanlyCpu OpensCleanly
    dsimp only
    rw [cpu.setHandle_flags, cpu.setHandle_ax]
    by_cases hcode : r.code ≠ 0
    . rw [if_pos hcode]
      have hnone := hout.mpr hcode
      constructor
      . intro ⟨hsame, _⟩
        exact ⟨fun _ => ⟨hsame (by decide), hnone⟩, fun hzero => absurd hzero hcode⟩
      . intro ⟨hsame, _⟩
        exact ⟨fun _ => (hsame hcode).1, fun hzero => absurd hzero (by decide)⟩
    . obtain ⟨fd, hfd⟩ := Option.ne_none_iff_exists'.mp (mt hout.mp hcode)
      rw [if_neg hcode, if_neg hcode, hfd, Option.getD_some]
      constructor
      . intro ⟨_, hopened⟩
        refine ⟨fun hne => absurd hne hcode, fun _ => ?_⟩
        obtain ⟨fd', hfd', hopened⟩ := hopened rfl
        exact ⟨fd, rfl, signExtend_injective hfd' ▸ hopened⟩
      . intro ⟨_, hopened⟩
        refine ⟨fun hne => absurd rfl hne, fun _ => ?_⟩
        obtain ⟨fd', hfd', hopened⟩ := hopened (not_not.mp hcode)
        obtain rfl := Option.some.inj hfd'
        exact ⟨fd, rfl, hopened⟩

/--
When a failed open leaves nothing behind: none of the calls after the kernel's `open` must fail with
an error that is reported. The functions that create a file make no such call.
-/
theorem opened_cleanly_iff (hpx : DescriptorContract px view) (s : Dos σ)
    : (∀ path mode,
        Meets (OpensCleanly view s (requestedLock mode) (requestsNoinherit mode)) (fun _ => True)
            (dosixDosOpen px path mode s)
          ↔ ∀ e ∈ lateFailure px path mode s.os, e.doserror = none)
      ∧ (∀ cpu mode, cpu.ah = INT21_AH_OPEN → mode = cpu.al.setWidth 32 →
        (Meets (OpensCleanlyCpu view s (requestedLock mode) (requestsNoinherit mode)) (fun _ => True)
            (int21MainDosApi px cpu s)
          ↔ ∀ e ∈ lateFailure px (px.cstring s.os (MK_FP cpu.ds cpu.dx)) mode s.os,
            e.doserror = none))
      ∧ (∀ filename attrib,
        Meets (OpensCleanly view s none false) (fun _ => True) (dosixDosCreat px filename attrib s))
      ∧ ∀ filename attrib,
        Meets (OpensCleanly view s none false) (fun _ => True)
          (dosixDosCreatnew px filename attrib s) := by
  refine ⟨?_, ?_, ?_, ?_⟩
  . intro path mode
    exact dosixDosOpen_opensCleanly_iff hpx path mode
  . rintro cpu mode hah rfl
    rw [int21_open_opensCleanly_iff hah]
    exact dosixDosOpen_opensCleanly_iff hpx _ _
  . intro filename attrib
    exact dosCreat_opensCleanly hpx filename attrib _ (by decide)
  . intro filename attrib
    exact dosCreat_opensCleanly hpx filename attrib _ (by decide)

end Outcome

/--
A kernel with one file, which may refuse the locks.
-/
def tableKernel (refusal : Option Errno) : Posix (OpenFiles Nat) where
  __ := (default : Posix (OpenFiles Nat))
  openFile := fun _ flags _ files =>
    match files.descriptors 3 with
    | none => (.ok 3, files.setDescriptor 3 ⟨0, flags &&& O_CLOEXEC ≠ 0⟩)
    | some _ => (.error .EMFILE, files)
  setlk := fun fd type files =>
    match refusal, files.descriptors fd with
    | some e, _ => (.error e, files)
    | none, none => (.error .EBADF, files)
    | none, some d => (.ok (), files.lock d.file type)
  getfd := fun fd files =>
    match files.descriptors fd with
    | none => (.error .EBADF, files)
    | some d => (.ok (if d.closeOnExec then FD_CLOEXEC else 0), files)
  setfd := fun fd flags files =>
    match files.descriptors fd with
    | none => (.error .EBADF, files)
    | some d => (.ok (), files.setDescriptor fd { d with closeOnExec := flags &&& FD_CLOEXEC ≠ 0 })

theorem tableKernel_contract (refusal : Option Errno)
    : DescriptorContract (tableKernel refusal) id where
  openFile_error := by
    intro path flags mode files e files' h
    unfold tableKernel at h
    dsimp only at h
    split at h
    . simp at h
    . exact (Prod.mk.inj h).2.symm
  openFile_ok := by
    intro path flags mode files fd files' h
    unfold tableKernel at h
    dsimp only at h
    split at h
    . next hfree =>
      obtain ⟨hfd, rfl⟩ := Prod.mk.inj h
      obtain rfl := Except.ok.inj hfd
      exact ⟨hfree, 0, rfl⟩
    . simp at h
  setlk_error := by
    intro fd type files e files' h
    unfold tableKernel at h
    dsimp only at h
    split at h
    . exact (Prod.mk.inj h).2.symm
    . exact (Prod.mk.inj h).2.symm
    . simp at h
  setlk_ok := by
    intro fd type files files' d h htype hfd
    unfold tableKernel at h
    dsimp only [id] at h hfd
    rw [hfd] at h
    split at h
    . simp at h
    . simp at h
    . next hsome =>
      obtain rfl := Option.some.inj hsome
      exact (Prod.mk.inj h).2.symm
  getfd := by
    intro fd files r files' h
    unfold tableKernel at h
    dsimp only at h
    split at h
    . exact (Prod.mk.inj h).2.symm
    . exact (Prod.mk.inj h).2.symm
  setfd_error := by
    intro fd flags files e files' h
    unfold tableKernel at h
    dsimp only at h
    split at h
    . exact (Prod.mk.inj h).2.symm
    . simp at h
  setfd_ok := by
    intro fd flags files files' d h hfd
    unfold tableKernel at h
    dsimp only [id] at h hfd
    rw [hfd] at h
    exact (Prod.mk.inj h).2.symm

def noFiles : OpenFiles Nat := ⟨fun _ => none, fun _ => none⟩

theorem opened_cleanly_iff_lockGranted
    : ∃ r, dosixDosOpen (tableKernel none) (some "A.TXT") 0x80 { os := noFiles } = .ok r
        ∧ r.code = 0 ∧ OpensCleanly id { os := noFiles } (some F_RDLCK) true r := by
  obtain ⟨r, hcall, hcode⟩ := exists_of_any
    (r := dosixDosOpen (tableKernel none) (some "A.TXT") 0x80 { os := noFiles })
    (q := fun r => r.code = 0) (by decide +kernel)
  have hclean := ((opened_cleanly_iff (tableKernel_contract none) { os := noFiles }).1
    (some "A.TXT") 0x80).mpr
  refine ⟨r, hcall, of_decide_eq_true hcode, (hclean ?_).of_ok hcall⟩
  intro e he
  rw [show lateFailure (tableKernel none) (some "A.TXT") 0x80 noFiles = none by decide +kernel] at he
  simp at he

/--
A file that another process has locked.
-/
theorem not_opened_cleanly_lockRefused
    : ∃ r, dosixDosOpen (tableKernel (some .EAGAIN)) (some "A.TXT") 0 { os := noFiles } = .ok r
        ∧ r.code ≠ 0 ∧ r.out = none
        ∧ noFiles.descriptors 3 = none ∧ r.state.os.descriptors 3 = some ⟨0, false⟩
        ∧ ¬ OpensCleanly id { os := noFiles } (requestedLock 0) (requestsNoinherit 0) r := by
  obtain ⟨r, hcall, hr⟩ := exists_of_any
    (r := dosixDosOpen (tableKernel (some .EAGAIN)) (some "A.TXT") 0 { os := noFiles })
    (q := fun r => r.code ≠ 0 ∧ r.out = none ∧ r.state.os.descriptors 3 = some ⟨0, false⟩)
    (by decide +kernel)
  obtain ⟨hcode, hout, hopen⟩ := of_decide_eq_true hr
  refine ⟨r, hcall, hcode, hout, rfl, hopen, ?_⟩
  intro ⟨hsame, _⟩
  have hclosed : r.state.os.descriptors 3 = none :=
    congrArg (fun files => files.descriptors 3) (hsame hcode).1
  rw [hclosed] at hopen
  simp at hopen

end Dosix
