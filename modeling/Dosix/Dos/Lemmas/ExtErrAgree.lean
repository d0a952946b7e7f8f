import Dosix.Dos.Lemmas.ExtErrSet
import Dosix.Dos.Lemmas.File
import Dosix.Dos.Lemmas.Find
import Dosix.Dos.Lemmas.Open

/-!
This module contains the agreement of the extended error with the code that a call has returned:
where `_dosexterr`, or `AH=59h`, repeats the code of the call before it, and where the code breaks
it. The error is kept in `errno` and in a record, of which `errno` takes precedence.
-/

namespace Dosix

open Transition

variable {σ α β : Type}

namespace Dos

variable {s t : Dos σ} {code : BitVec 32} {c : Prop}

def Reports (s : Dos σ) (code : BitVec 32) : Prop :=
  Meets (fun r => r.1.exterror = code) (fun _ => False) (dosixDosexterr s)

theorem reports_of_errno {e : Errno} {info : DosError} (he : s.errno = some e)
    (hinfo : e.doserror = some info)
    : s.Reports code ↔ info.exterror = code := by
  unfold Reports dosixDosexterr
  rw [he]
  dsimp only
  rw [hinfo]
  rfl

theorem reports_of_errno_none (he : s.errno = none)
    : s.Reports code ↔ s.errorinfo.exterror = code := by
  unfold Reports
  rw [dosixDosexterr_of_errno_none he]
  rfl

/--
A call has returned `code` and left `s` behind. If it has failed, `_dosexterr` repeats the code if
and only if `c` holds. The code itself is small, so that registers of any width hold it.
-/
def Reported (c : Prop) (s : Dos σ) (code : BitVec 32) : Prop :=
  code ≠ 0 → code.msb = false ∧ (s.Reports code ↔ c)

theorem reported_zero : Reported c s 0 :=
  fun h => absurd rfl h

theorem Reported.iff {d : Prop} (h : Reported c s code) (hcd : code ≠ 0 → (c ↔ d))
    : Reported d s code := by
  intro hcode
  obtain ⟨hmsb, hreports⟩ := h hcode
  exact ⟨hmsb, hreports.trans (hcd hcode)⟩

end Dos

/-! The two ways in which a call fails. -/

theorem Errno.doserror_exterror_msb {e : Errno} {info : DosError} (h : e.doserror = some info)
    : info.exterror.msb = false := by
  cases e with
  | unlisted n => simp [Errno.doserror] at h
  | _ =>
    injection h with h
    rw [← h]
    decide

theorem dosixDosexterr_reported {s : Dos σ} (h : s.errno = none → s.errorinfo.exterror.msb = false)
    : Meets (fun r => r.2.errno = s.errno ∧ r.2.Reported True r.1.exterror) (fun _ => True)
        (dosixDosexterr s) := by
  cases he : s.errno with
  | none =>
    rw [dosixDosexterr_of_errno_none he]
    refine ⟨he, fun _ => ⟨h he, ?_⟩⟩
    rw [Dos.reports_of_errno_none he]
    exact iff_of_true rfl trivial
  | some e =>
    unfold dosixDosexterr
    rw [he]
    dsimp only
    split
    . trivial
    . next info hinfo =>
      refine ⟨he, fun _ => ⟨Errno.doserror_exterror_msb hinfo, ?_⟩⟩
      rw [Dos.reports_of_errno (s := s.setErrorinfo info) he hinfo]
      exact iff_of_true rfl trivial

theorem failed_reported {s : Dos σ} (h : s.errno = none → s.errorinfo.exterror.msb = false)
    : Meets (fun r : Result σ α => r.state.errno = s.errno ∧ r.state.Reported True r.code)
        (fun _ => True) (failed s) := by
  have hexterr := dosixDosexterr_reported h
  unfold failed
  split
  . trivial
  . next h' => exact hexterr.of_ok h'

theorem failed_reported_of_errno {s : Dos σ} (h : s.errno ≠ none)
    : Meets (fun r : Result σ α => r.state.Reported True r.code) (fun _ => True) (failed s) :=
  (failed_reported fun he => absurd he h).imp fun _ hr => hr.2

theorem Dos.call_none_errno {s t : Dos σ} {f : σ → Except Errno α × σ} (h : s.call f = (none, t))
    : t.errno ≠ none := by
  obtain ⟨e, os, -, rfl⟩ := Dos.call_none h
  simp

theorem exterrSet_reported {new : DosError} (s : Dos σ)
    (hmark : new.exterror.toInt ≠ EXTERR_DONT_CHANGE) (hmsb : new.exterror.msb = false)
    : (exterrSet new none s : Result σ α).state.Reported True
        (exterrSet new none s : Result σ α).code := by
  intro _
  rw [exterrSet_code none s hmark, Dos.reports_of_errno_none rfl]
  exact ⟨hmsb, iff_of_true (exterrSet_code (α := α) none s hmark) trivial⟩

theorem exterrSet_reported_errno {new info : DosError} {e : Errno} (s : Dos σ)
    (hmark : new.exterror.toInt ≠ EXTERR_DONT_CHANGE) (hmsb : new.exterror.msb = false)
    (hinfo : e.doserror = some info)
    : (exterrSet new (some e) s : Result σ α).state.Reported (info.exterror = new.exterror)
        (exterrSet new (some e) s : Result σ α).code := by
  -- the `errno` hides the record that is stored with it, unless both stand for the same code
  intro _
  rw [exterrSet_code (some e) s hmark, Dos.reports_of_errno rfl hinfo]
  exact ⟨hmsb, Iff.rfl⟩

/-! The file functions. -/

section File

variable (px : Posix σ) (s : Dos σ)

theorem dosCreat_reported (filename : CString) (attrib flags : BitVec 32)
    : Meets (fun r => r.state.Reported True r.code) (fun _ => True)
        (dosCreat px filename attrib flags s) := by
  unfold dosCreat
  split
  . trivial
  . dsimp only
    split
    . next h => exact failed_reported_of_errno (Dos.call_none_errno h)
    . exact Dos.reported_zero

theorem openLock_errno {px : Posix σ} {mode fd : BitVec 32} {s t : Dos σ}
    (h : openLock px mode fd s = (none, t))
    : t.errno ≠ none := by
  rw [openLock_eq_call] at h
  exact Dos.call_none_errno h

theorem openNoinherit_errno {px : Posix σ} {mode fd : BitVec 32} {s t : Dos σ}
    (h : openNoinherit px mode fd s = (none, t))
    : t.errno ≠ none := by
  rw [openNoinherit_eq_call] at h
  exact Dos.call_none_errno h

theorem dosixDosOpen_reported (path : CString) (mode : BitVec 32)
    : Meets (fun r => r.state.Reported True r.code) (fun _ => True)
        (dosixDosOpen px path mode s) := by
  unfold dosixDosOpen
  split
  . trivial
  . dsimp only
    split
    . next h => exact failed_reported_of_errno (Dos.call_none_errno h)
    . split
      . next h => exact failed_reported_of_errno (openLock_errno h)
      . split
        . next h => exact failed_reported_of_errno (openNoinherit_errno h)
        . exact Dos.reported_zero

theorem dosixDosClose_reported (handle : BitVec 32)
    : Meets (fun r => r.state.Reported True r.code) (fun _ => True)
        (dosixDosClose px handle s) := by
  unfold dosixDosClose
  split
  . next h => exact failed_reported_of_errno (Dos.call_none_errno h)
  . exact Dos.reported_zero

theorem dosixDosGetfileattr_reported (path : CString)
    : Meets (fun r => r.state.Reported True r.code) (fun _ => True)
        (dosixDosGetfileattr px path s) := by
  unfold dosixDosGetfileattr
  split
  . next h => exact failed_reported_of_errno (Dos.call_none_errno h)
  . split
    . exact Dos.reported_zero
    . dsimp only
      split
      . exact Dos.reported_zero
      . next h =>
        split
        . exact Dos.reported_zero
        . exact Dos.reported_zero
        . exact failed_reported_of_errno (Dos.call_none_errno h)

theorem dosixDosSetfileattr_reported (path : CString) (attrib : BitVec 32)
    : Meets (fun r => r.state.Reported True r.code) (fun _ => True)
        (dosixDosSetfileattr px path attrib s) := by
  unfold dosixDosSetfileattr
  split
  . next h => exact failed_reported_of_errno (Dos.call_none_errno h)
  . dsimp only
    split
    . next h => exact failed_reported_of_errno (Dos.call_none_errno h)
    . exact Dos.reported_zero

end File

/-! The functions for times and dates. -/

section Time

variable (px : Posix σ) (s : Dos σ)

theorem badArguments_reported
    : (exterrSet badArguments none s : Result σ α).state.Reported True
        (exterrSet badArguments none s : Result σ α).code :=
  exterrSet_reported s (by decide) (by decide)

theorem badArguments_reported_EINVAL
    : (exterrSet badArguments (some .EINVAL) s : Result σ α).state.Reported True
        (exterrSet badArguments (some .EINVAL) s : Result σ α).code :=
  -- `EINVAL` stands for the same code
  (exterrSet_reported_errno s (by decide) (by decide) rfl).iff fun _ => iff_of_true rfl trivial

theorem unixtimeStruct_reported (date : Dosdate) (time : Dostime)
    : (unixtimeStruct px date time s).state.Reported True (unixtimeStruct px date time s).code := by
  unfold unixtimeStruct
  dsimp only
  split
  . exact badArguments_reported_EINVAL s
  . exact Dos.reported_zero

theorem unixtimeInt_reported (date time : BitVec 32)
    : (unixtimeInt px date time s).state.Reported True (unixtimeInt px date time s).code := by
  unfold unixtimeInt
  dsimp only
  split
  . exact badArguments_reported s
  . exact Dos.reported_zero

theorem dostimeInt_reported (utime : Int)
    : (dostimeInt px utime s).state.Reported True (dostimeInt px utime s).code := by
  unfold dostimeInt
  split
  . exact badArguments_reported s
  . exact Dos.reported_zero

theorem dosixDosGetftime_reported (handle : BitVec 32)
    : Meets (fun r => r.state.Reported True r.code) (fun _ => True)
        (dosixDosGetftime px handle s) := by
  unfold dosixDosGetftime
  split
  . next h => exact failed_reported_of_errno (Dos.call_none_errno h)
  . exact dostimeInt_reported px _ _

theorem dosixDosSetftime_reported (handle date time : BitVec 32)
    : Meets (fun r => r.state.Reported True r.code) (fun _ => True)
        (dosixDosSetftime px handle date time s) := by
  have hutime := unixtimeInt_reported px s date time
  unfold dosixDosSetftime
  split
  . next h =>
    rw [h] at hutime
    exact hutime
  . split
    . next h => exact failed_reported_of_errno (Dos.call_none_errno h)
    . split
      . next h => exact failed_reported_of_errno (Dos.call_none_errno h)
      . exact Dos.reported_zero

theorem setClock_reported (date : Dosdate) (time : Dostime)
    : Meets (fun r => r.state.Reported True r.code) (fun _ => True)
        (setClock px date time s) := by
  have htv := unixtimeStruct_reported px s date time
  unfold setClock
  split
  . next h =>
    rw [h] at htv
    exact htv
  . split
    . next h => exact failed_reported_of_errno (Dos.call_none_errno h)
    . exact Dos.reported_zero

end Time

/-! The memory functions. -/

section Memory

variable {px : Posix σ} {s : Dos σ}

theorem sysconf_errno (px : Posix σ) (name : Sysconf) (h : s.errno ≠ none)
    : (sysconf px name s).2.errno ≠ none := by
  unfold sysconf
  split
  . exact h
  . exact h
  . simp

theorem freeParagraphs_reported (px : Posix σ) (h : s.errno ≠ none)
    : Meets (fun r => r.state.errno ≠ none ∧ r.state.Reported True r.code) (fun _ => True)
        (freeParagraphs px s) := by
  have hfailed {t : Dos σ} (ht : t.errno ≠ none)
      : Meets (fun r : Result σ (BitVec 64) => r.state.errno ≠ none ∧ r.state.Reported True r.code)
          (fun _ => True) (failed t) :=
    (failed_reported fun he => absurd he ht).imp fun r hr => ⟨hr.1 ▸ ht, hr.2⟩
  have hpages := sysconf_errno px .avphysPages h
  unfold freeParagraphs
  dsimp only
  split
  . exact hfailed hpages
  . have hsize := sysconf_errno px .pagesize hpages
    split
    . exact hfailed hsize
    . exact ⟨hsize, Dos.reported_zero⟩

theorem allocmemError_reported (h : s.errno ≠ none)
    : Meets (fun r => r.state.Reported True r.code) (fun _ => True) (allocmemError px s) := by
  have hfree := freeParagraphs_reported px h
  unfold allocmemError
  split
  . trivial
  . next r hr =>
    rw [hr] at hfree
    obtain ⟨herrno, hreported⟩ := hfree
    split
    . exact hreported
    . have hexterr := dosixDosexterr_reported fun he => absurd he herrno
      split
      . trivial
      . next h' => exact (hexterr.of_ok h').2

theorem freeAllocmem_errno {ptr : Addr} {t : Dos σ} (h : freeAllocmem ptr s = .ok t)
    : t.errno = s.errno := by
  unfold freeAllocmem at h
  split at h
  . simp at h
  . injection h with h
    rw [← h]
    rfl

theorem allocmemInsert_reported (ptr address : Addr)
    : Meets (fun r => r.state.Reported True r.code) (fun _ => True)
        (allocmemInsert px ptr address s) := by
  unfold allocmemInsert
  dsimp only
  split
  . split
    . split
      . trivial
      . next h =>
        apply allocmemError_reported
        rw [freeAllocmem_errno h]
        simp
    . split
      . exact Dos.reported_zero
      . trivial
  . trivial

theorem dosixDosAllocmem_reported (px : Posix σ) (s : Dos σ) (size : Size)
    : Meets (fun r => r.state.Reported True r.code) (fun _ => True)
        (dosixDosAllocmem px size s) := by
  unfold dosixDosAllocmem
  dsimp only
  split
  . exact Dos.reported_zero
  . split
    . apply allocmemError_reported
      simp
    . split
      . next h => exact allocmemError_reported (Dos.call_none_errno h)
      . exact allocmemInsert_reported _ _

theorem dosixDosSetblock_reported (px : Posix σ) (s : Dos σ) (size : Size) (seg : Addr)
    : Meets (fun r => r.state.Reported True r.code) (fun _ => True)
        (dosixDosSetblock px size seg s) := by
  unfold dosixDosSetblock
  dsimp only
  split
  . exact Dos.reported_zero
  . split
    . split
      . apply failed_reported_of_errno
        simp
      . split
        . trivial
        . split
          . trivial
          . split
            . split
              . next h => exact allocmemError_reported (Dos.call_none_errno h)
              . split
                . exact Dos.reported_zero
                . trivial
            . trivial
    . trivial

theorem freememDelete_code (px : Posix σ) (seg : Addr) (slot : Nat) (s : Dos σ)
    : Meets (fun r => r.code = 0) (fun _ => True) (freememDelete px seg slot s) := by
  unfold freememDelete
  split
  . trivial
  . split
    . trivial
    . split
      . trivial
      . rfl

theorem dosixDosFreemem_reported (px : Posix σ) (s : Dos σ) (seg : Addr)
    : Meets (fun r => r.state.Reported (s.allocmemTree.tfind (allocmemCmp px s seg) = none) r.code)
        (fun _ => True) (dosixDosFreemem px seg s) := by
  -- the code for a mapping that is not removed is not that of the `errno` stored with it
  unfold dosixDosFreemem
  split
  . trivial
  . split
    . split
      . next h =>
        rw [h]
        have hfailed : (s.setErrno (some .EFAULT)).errno ≠ none := by simp
        exact (failed_reported_of_errno hfailed).imp
          fun r hr => hr.iff fun _ => iff_of_true trivial rfl
      . next h =>
        rw [h]
        split
        . trivial
        . split
          . trivial
          . split
            . split
              . exact (exterrSet_reported_errno _ (by decide) (by decide) rfl).iff
                  fun _ => iff_of_false (by decide) (by simp)
              . refine (freememDelete_code px seg _ _).imp fun r hr => ?_
                rw [hr]
                exact Dos.reported_zero
            . trivial
    . trivial

end Memory

/-! The search. -/

section Find

variable (px : Posix σ) (s : Dos σ)

def FindnextReported (r : Result σ α) : Prop :=
  r.state.Reported True r.code ∧ r.code ≠ EXTERR_FILE_NOT_FOUND

theorem findnextMatch_reported (cdta : Addr) (filename : String) (attrib : BitVec 32) (fs : Stat)
    : FindnextReported (findnextMatch px cdta filename attrib fs s) := by
  have hreported := dostimeInt_reported px
    (s.modifyFindT cdta fun f => { f with attrib := attrib }) fs.mtime
  have hcode := dostimeInt_code px fs.mtime (s.modifyFindT cdta fun f => { f with attrib := attrib })
  unfold findnextMatch
  dsimp only
  split
  . next code t h =>
    rw [h] at hreported hcode
    refine ⟨hreported, ?_⟩
    obtain (rfl | rfl) : code = 0 ∨ code = EXTERR_BAD_ARGUMENTS := hcode
    all_goals
      dsimp only
      decide
  . refine ⟨Dos.reported_zero, ?_⟩
    dsimp only
    decide

theorem findnextLoop_reported {cdta : Addr} {left : Nat} {s t : Dos σ} {r : Result σ Unit}
    (h : findnextLoop px cdta left s = .ok (some r, t))
    : FindnextReported r := by
  induction left generalizing s with
  | zero => simp [findnextLoop] at h
  | succ left ih =>
    obtain ⟨_, filename, u, found, -, -, -, h⟩ := findnextLoop_ok h
    cases found with
    | none => exact ih h
    | some found =>
      obtain ⟨hr, -⟩ := Prod.mk.inj (Except.ok.inj h)
      obtain rfl := Option.some.inj hr
      apply findnextMatch_reported

theorem findnext_reported : Meets FindnextReported (fun _ => True) (findnext px s) := by
  unfold findnext
  dsimp only
  split
  . trivial
  . next h => exact findnextLoop_reported px h
  . split
    . refine ⟨exterrSet_reported _ (by decide) (by decide), ?_⟩
      rw [exterrSet_code none _ (by decide)]
      decide
    . trivial

theorem Errno.doserror_eq_file_not_found {e : Errno} {info : DosError} (h : e.doserror = some info)
    : info.exterror = EXTERR_FILE_NOT_FOUND ↔ e = .ENOENT ∨ e = .EISDIR := by
  cases e with
  | unlisted n => simp [Errno.doserror] at h
  | _ =>
    injection h with h
    rw [← h]
    decide

theorem errfunc_eq (e : Errno) (s : Dos σ)
    : (e ≠ .EISDIR ∧ ∃ new : DosError, errfunc e s = (exterrSet new none s : Result σ Unit).state
          ∧ new.exterror.toInt ≠ EXTERR_DONT_CHANGE ∧ new.exterror.msb = false
          ∧ new.exterror ≠ EXTERR_FILE_NOT_FOUND)
        ∨ (e ≠ .ENOENT ∧ errfunc e s = s.setErrno (some e)) := by
  unfold errfunc
  dsimp only
  split
  . exact .inl ⟨by decide, _, rfl, by decide, by decide, by decide⟩
  . exact .inl ⟨by decide, _, rfl, by decide, by decide, by decide⟩
  . exact .inl ⟨by decide, _, rfl, by decide, by decide, by decide⟩
  . next h _ => exact .inr ⟨h, rfl⟩

theorem aborted_reported (e : Errno) {s t : Dos σ} (herrno : t.errno = (errfunc e s).errno)
    (herrorinfo : t.errorinfo = (errfunc e s).errorinfo)
    : Meets (fun r : Result σ α => r.state.Reported True r.code
          ∧ (r.code = EXTERR_FILE_NOT_FOUND ↔ e = .EISDIR))
        (fun _ => True) (failed t) := by
  obtain (⟨he, new, heq, hmark, hmsb, hcode⟩ | ⟨he, heq⟩) := errfunc_eq e s
  . rw [heq] at herrno herrorinfo
    have hnew : t.errorinfo.exterror = new.exterror :=
      (congrArg DosError.exterror herrorinfo).trans (exterrSet_code (α := Unit) none s hmark)
    have hfailed : (failed t : Except Fault (Result σ α)) = .ok ⟨new.exterror, none, t⟩ := by
      unfold failed
      rw [dosixDosexterr_of_errno_none herrno, ← hnew]
    rw [hfailed]
    refine ⟨fun _ => ⟨hmsb, ?_⟩, iff_of_false hcode he⟩
    rw [Dos.reports_of_errno_none (s := t) herrno]
    exact iff_of_true hnew trivial
  . rw [heq] at herrno
    cases hinfo : e.doserror with
    | none => simp [failed, dosixDosexterr, herrno, hinfo]
    | some info =>
      have hreported := failed_reported_of_errno (α := α) (s := t) (by simp [herrno])
      rw [failed_eq herrno hinfo] at hreported ⊢
      refine ⟨hreported, ?_⟩
      rw [Errno.doserror_eq_file_not_found hinfo]
      exact or_iff_right he

/--
`glob` finds nothing, or it stops at a directory with the one error that is also reported as a file
that is not found.
-/
def GlobResult.NotFound (result : GlobResult) : Prop :=
  match result with
  | .nomatch => True
  | .aborted e _ => e = .EISDIR
  | _ => False

theorem findfirst_reported (filename : CString) (attrib : BitVec 32)
    : Meets (fun r => r.state.Reported True r.code
          ∧ (r.code ≠ 0 → (r.code = EXTERR_FILE_NOT_FOUND ↔ (px.glob filename s.os).1.NotFound)))
        (fun _ => True) (findfirst px filename attrib s) := by
  unfold findfirst
  dsimp only
  split
  . trivial
  . split
    . next h =>
      rw [h]
      split
      . refine (findnext_reported px _).imp fun r hr => ?_
        exact ⟨hr.1, fun _ => iff_of_false hr.2 not_false⟩
      . trivial
    . next e paths os h =>
      rw [h]
      have haborted := aborted_reported (α := Unit) e (s := s.setOs os)
        (t := globfree (globbed (errfunc e (s.setOs os)) s.currentDta paths) s.currentDta) rfl rfl
      exact haborted.imp fun r hr => ⟨hr.1, fun _ => hr.2⟩
    . next h =>
      rw [h]
      refine ⟨exterrSet_reported _ (by decide) (by decide), fun _ => ?_⟩
      exact iff_of_true (exterrSet_code none _ (by decide)) trivial
    . next h =>
      rw [h]
      refine ⟨exterrSet_reported _ (by decide) (by decide), fun _ => ?_⟩
      rw [exterrSet_code none _ (by decide)]
      exact iff_of_false (by decide) not_false

theorem reported_ENOENT {s t : Dos σ} {code : BitVec 32} (h : s.Reported True code)
    (ht : code ≠ 0 → t.errno = some .ENOENT)
    : t.Reported (code = EXTERR_FILE_NOT_FOUND) code := by
  -- the functions for C replace the `errno` of a failure
  intro hcode
  refine ⟨(h hcode).1, ?_⟩
  rw [Dos.reports_of_errno (ht hcode) rfl]
  exact eq_comm

theorem dosixDosFindfirst_reported (filename : CString) (attrib : BitVec 32) (fileinfo : Addr)
    : Meets (fun r => r.state.Reported ((px.glob filename s.os).1.NotFound) r.code) (fun _ => True)
        (dosixDosFindfirst px filename attrib fileinfo s) := by
  have hfind := findfirst_reported px (setDtaAddr fileinfo s) filename attrib
  unfold dosixDosFindfirst
  dsimp only
  split
  . trivial
  . next ret out t h =>
    obtain ⟨hreported, hcode⟩ := hfind.of_ok h
    refine (reported_ENOENT hreported fun hret => ?_).iff hcode
    rw [if_pos hret]
    rfl

theorem dosixDosFindnext_reported (fileinfo : Addr)
    : Meets (fun r => r.state.Reported False r.code) (fun _ => True)
        (dosixDosFindnext px fileinfo s) := by
  have hfind := findnext_reported px (setDtaAddr fileinfo s)
  unfold dosixDosFindnext
  dsimp only
  split
  . trivial
  . next ret out t h =>
    obtain ⟨hreported, hcode⟩ := hfind.of_ok h
    refine (reported_ENOENT hreported fun hret => ?_).iff fun _ => iff_of_false hcode not_false
    rw [if_pos hret]
    rfl

end Find

/-! The calls from C. -/

inductive DosCall where
  | allocmem (size : Size)
  | setblock (size : Size) (seg : Addr)
  | freemem (seg : Addr)
  | creat (filename : CString) (attrib : BitVec 32)
  | creatnew (filename : CString) (attrib : BitVec 32)
  | openFile (path : CString) (mode : BitVec 32)
  | close (handle : BitVec 32)
  | getfileattr (path : CString)
  | setfileattr (path : CString) (attrib : BitVec 32)
  | getftime (handle : BitVec 32)
  | setftime (handle date time : BitVec 32)
  | setdate (date : Dosdate)
  | settime (time : Dostime)
  | findfirst (filename : CString) (attrib : BitVec 32) (fileinfo : Addr)
  | findnext (fileinfo : Addr)
  deriving Repr, DecidableEq

def Result.codeOnly (r : Result σ α) : Result σ Unit :=
  r.map fun _ => ()

namespace DosCall

def run (px : Posix σ) (call : DosCall) (s : Dos σ) : Except Fault (Result σ Unit) :=
  match call with
  | .allocmem size => (dosixDosAllocmem px size s).map Result.codeOnly
  | .setblock size seg => (dosixDosSetblock px size seg s).map Result.codeOnly
  | .freemem seg => dosixDosFreemem px seg s
  | .creat filename attrib => (dosixDosCreat px filename attrib s).map Result.codeOnly
  | .creatnew filename attrib => (dosixDosCreatnew px filename attrib s).map Result.codeOnly
  | .openFile path mode => (dosixDosOpen px path mode s).map Result.codeOnly
  | .close handle => dosixDosClose px handle s
  | .getfileattr path => (dosixDosGetfileattr px path s).map Result.codeOnly
  | .setfileattr path attrib => dosixDosSetfileattr px path attrib s
  | .getftime handle => (dosixDosGetftime px handle s).map Result.codeOnly
  | .setftime handle date time => dosixDosSetftime px handle date time s
  | .setdate date => dosixDosSetdate px date s
  | .settime time => dosixDosSettime px time s
  | .findfirst filename attrib fileinfo => dosixDosFindfirst px filename attrib fileinfo s
  | .findnext fileinfo => dosixDosFindnext px fileinfo s

def Repeated (px : Posix σ) (call : DosCall) (s : Dos σ) : Prop :=
  match call with
  | .freemem seg => s.allocmemTree.tfind (allocmemCmp px s seg) = none
  | .findfirst filename _ _ => (px.glob filename s.os).1.NotFound
  | .findnext _ => False
  | _ => True

theorem run_reported (px : Posix σ) (call : DosCall) (s : Dos σ)
    : Meets (fun r => r.state.Reported (call.Repeated px s) r.code) (fun _ => True)
        (call.run px s) := by
  cases call with
  | allocmem size => exact meets_map.mpr (dosixDosAllocmem_reported px s size)
  | setblock size seg => exact meets_map.mpr (dosixDosSetblock_reported px s size seg)
  | freemem seg => exact dosixDosFreemem_reported px s seg
  | creat filename attrib => exact meets_map.mpr (dosCreat_reported px s filename attrib _)
  | creatnew filename attrib => exact meets_map.mpr (dosCreat_reported px s filename attrib _)
  | openFile path mode => exact meets_map.mpr (dosixDosOpen_reported px s path mode)
  | close handle => exact dosixDosClose_reported px s handle
  | getfileattr path => exact meets_map.mpr (dosixDosGetfileattr_reported px s path)
  | setfileattr path attrib => exact dosixDosSetfileattr_reported px s path attrib
  | getftime handle => exact meets_map.mpr (dosixDosGetftime_reported px s handle)
  | setftime handle date time => exact dosixDosSetftime_reported px s handle date time
  | setdate date => exact setClock_reported px _ date _
  | settime time => exact setClock_reported px _ _ time
  | findfirst filename attrib fileinfo =>
    exact dosixDosFindfirst_reported px s filename attrib fileinfo
  | findnext fileinfo => exact dosixDosFindnext_reported px s fileinfo

end DosCall

/-! The calls from the registers. -/

inductive DosService where
  | file (f : FileService)
  | allocmem
  | setblock
  | freemem
  | setdate
  | settime
  | findfirst
  | findnext
  deriving Repr, DecidableEq

namespace DosService

def Selected (d : DosService) (cpu : Cpu) : Prop :=
  match d with
  | .file f => f.Selected cpu
  | .allocmem => cpu.ah = INT21_AH_ALLOCMEM
  | .setblock => cpu.ah = INT21_AH_SETBLOCK
  | .freemem => cpu.ah = INT21_AH_FREEMEM
  | .setdate => cpu.ah = INT21_AH_SETDATE
  | .settime => cpu.ah = INT21_AH_SETTIME
  | .findfirst => cpu.ah = INT21_AH_FINDFIRST
  | .findnext => cpu.ah = INT21_AH_FINDNEXT

def call (px : Posix σ) (d : DosService) (cpu : Cpu) (s : Dos σ) : Except Fault (Result σ Unit) :=
  match d with
  | .file .creatnew =>
    (dosixDosCreat px (FileService.path px cpu s) (cpu.cx.setWidth 32) s).map Result.codeOnly
  | .file f => (f.call px cpu s).map Result.codeOnly
  | .allocmem => (dosixDosAllocmem px cpu.bx s).map Result.codeOnly
  | .setblock => (dosixDosSetblock px cpu.bx cpu.es s).map Result.codeOnly
  | .freemem => dosixDosFreemem px cpu.es s
  | .setdate =>
    dosixDosSetdate px { year := cpu.cx.setWidth 32, month := cpu.dh.setWidth 8, day := cpu.dl } s
  | .settime =>
    dosixDosSettime px
      { hour := cpu.ch.setWidth 8, minute := cpu.cl, second := cpu.dh.setWidth 8, hsecond := cpu.dl }
      s
  | .findfirst => Dosix.findfirst px (FileService.path px cpu s) (cpu.cx.setWidth 32) s
  | .findnext => Dosix.findnext px s

/--
The registers say whether the function has failed, and with which code where they have room for it.
-/
def Signals (d : DosService) (code : BitVec 32) (cpu : Cpu) : Prop :=
  match d with
  | .setdate | .settime => cpu.al = if code ≠ 0 then 0xff else 0
  | _ => cpu.flags = (if code ≠ 0 then 1 else 0) ∧ (code ≠ 0 → cpu.ax = code.setWidth 64)

def Repeated (px : Posix σ) (d : DosService) (cpu : Cpu) (s : Dos σ) : Prop :=
  match d with
  | .freemem => s.allocmemTree.tfind (allocmemCmp px s cpu.es) = none
  | _ => True

variable {px : Posix σ} {cpu : Cpu} {s : Dos σ}

theorem call_reported (px : Posix σ) (d : DosService) (cpu : Cpu) (s : Dos σ)
    : Meets (fun r => r.state.Reported (d.Repeated px cpu s) r.code) (fun _ => True)
        (d.call px cpu s) := by
  cases d with
  | file f =>
    cases f with
    | creatnew => exact meets_map.mpr (dosCreat_reported px s _ _ _)
    | creat => exact meets_map.mpr (meets_map.mpr (dosCreat_reported px s _ _ _))
    | openFile => exact meets_map.mpr (meets_map.mpr (dosixDosOpen_reported px s _ _))
    | close => exact meets_map.mpr (meets_map.mpr (dosixDosClose_reported px s _))
    | getfileattr => exact meets_map.mpr (meets_map.mpr (dosixDosGetfileattr_reported px s _))
    | setfileattr => exact meets_map.mpr (meets_map.mpr (dosixDosSetfileattr_reported px s _ _))
    | getftime => exact meets_map.mpr (meets_map.mpr (dosixDosGetftime_reported px s _))
    | setftime => exact meets_map.mpr (meets_map.mpr (dosixDosSetftime_reported px s _ _ _))
  | allocmem => exact meets_map.mpr (dosixDosAllocmem_reported px s _)
  | setblock => exact meets_map.mpr (dosixDosSetblock_reported px s _ _)
  | freemem => exact dosixDosFreemem_reported px s _
  | setdate => exact setClock_reported px _ _ _
  | settime => exact setClock_reported px _ _ _
  | findfirst => exact (findfirst_reported px s _ _).imp fun r hr => hr.1
  | findnext => exact (findnext_reported px s).imp fun r hr => hr.1

def Serves (px : Posix σ) (d : DosService) (cpu : Cpu) (s : Dos σ) : Prop :=
  Meets (fun p => ∃ r, d.call px cpu s = .ok r ∧ r.state = p.2 ∧ d.Signals r.code p.1)
    (fun _ => True) (int21MainDosApi px cpu s)

def handler (px : Posix σ) (d : DosService) : Syscall σ :=
  match d with
  | .file f => f.handler px
  | .allocmem => cpuAllocmem px
  | .setblock => cpuSetblock px
  | .freemem => cpuFreemem px
  | .setdate => cpuSetdate px
  | .settime => cpuSettime px
  | .findfirst => cpuFindfirst px
  | .findnext => cpuFindnext px

theorem int21_of_selected {d : DosService} (h : d.Selected cpu)
    : int21MainDosApi px cpu s = d.handler px cpu s := by
  unfold Selected at h
  cases d
  case file f => exact FileService.int21_of_selected h
  all_goals
    dsimp only at h
    unfold int21MainDosApi int21Service
    rw [h]
    rfl

theorem serves_of_bind {d : DosService} {x : Except Fault (Result σ α)} {f : Result σ α → Cpu}
    (h : d.Selected cpu) (hhandler : d.handler px cpu s = x >>= fun r => pure (f r, r.state))
    (hcall : d.call px cpu s = x.map Result.codeOnly) (hsignals : ∀ r, d.Signals r.code (f r))
    : Serves px d cpu s := by
  unfold Serves
  rw [int21_of_selected h, hhandler, hcall]
  cases x with
  | error e => trivial
  | ok r => exact ⟨r.codeOnly, rfl, rfl, hsignals r⟩

theorem map_codeOnly (x : Except Fault (Result σ Unit)) : x = x.map Result.codeOnly := by
  cases x with
  | error e => rfl
  | ok r =>
    unfold Result.codeOnly Result.map
    simp [Except.map]

theorem serves_of_agrees {f : FileService} {x : Except Fault (Result σ FileOut)}
    (h : FileService.Agrees (int21MainDosApi px cpu s) x)
    (hcall : call px (.file f) cpu s = x.map Result.codeOnly)
    : Serves px (.file f) cpu s := by
  unfold Serves
  rw [hcall]
  cases hint21 : int21MainDosApi px cpu s with
  | error e => trivial
  | ok p =>
    rw [hint21] at h
    cases x with
    | error e => exact h.elim
    | ok r => exact ⟨r.codeOnly, rfl, h.1.symm, h.2.1, h.2.2.1⟩

theorem serves_file {f : FileService} (h : f.Selected cpu) : Serves px (.file f) cpu s := by
  by_cases hf : f = .creatnew
  . subst hf
    apply serves_of_bind (d := .file .creatnew) h
    . rw [← int21_of_selected (d := .file .creatnew) h]
      exact FileService.int21_creatnew h
    . rfl
    . intro r
      refine ⟨cpu.setHandle_flags _ _, fun hcode => ?_⟩
      rw [cpu.setHandle_ax, if_pos hcode]
  . apply serves_of_agrees (FileService.refines_of_ne_creatnew hf h)
    cases f with
    | creatnew => exact absurd rfl hf
    | _ => rfl

theorem serves_allocmem (h : cpu.ah = INT21_AH_ALLOCMEM) : Serves px .allocmem cpu s := by
  unfold Serves
  rw [int21_of_selected (d := .allocmem) h]
  unfold handler cpuAllocmem call
  dsimp only
  rw [assertThat_of h]
  cases dosixDosAllocmem px cpu.bx s with
  | error e => trivial
  | ok r =>
    dsimp only [bind, Except.bind]
    have hflags := cpu.setCode_flags r.code
    split
    . exact ⟨r.codeOnly, rfl, rfl, hflags, fun _ => rfl⟩
    . next hzero =>
      refine ⟨r.codeOnly, rfl, rfl, hflags, fun (hcode : r.code ≠ 0) => ?_⟩
      rw [hflags, if_pos hcode] at hzero
      exact absurd (by decide) hzero

/--
A handler that checks `AH` first.
-/
theorem serves_of_checked {d : DosService} {ah : BitVec 56} {x : Except Fault (Result σ α)}
    {f : Result σ α → Cpu} (h : d.Selected cpu) (hah : cpu.ah = ah)
    (hhandler : d.handler px cpu s = do
      assertThat (cpu.ah = ah)
      let r ← x
      return (f r, r.state))
    (hcall : d.call px cpu s = x.map Result.codeOnly) (hsignals : ∀ r, d.Signals r.code (f r))
    : Serves px d cpu s := by
  apply serves_of_bind h _ hcall hsignals
  rw [hhandler, assertThat_of hah]
  rfl

theorem serves {d : DosService} (h : d.Selected cpu) : Serves px d cpu s := by
  cases d with
  | file f => exact serves_file h
  | allocmem => exact serves_allocmem h
  | setblock =>
    apply serves_of_checked (d := .setblock) h h rfl rfl
    exact fun r => ⟨cpu.setCode_flags r.code, fun _ => rfl⟩
  | freemem =>
    apply serves_of_checked (d := .freemem) h h rfl (map_codeOnly _)
    exact fun r => ⟨cpu.setCode_flags r.code, fun _ => rfl⟩
  | setdate =>
    apply serves_of_checked (d := .setdate) h h rfl (map_codeOnly _)
    exact fun r => lowByte_setLow _ _
  | settime =>
    apply serves_of_checked (d := .settime) h h rfl (map_codeOnly _)
    exact fun r => lowByte_setLow _ _
  | findfirst =>
    apply serves_of_checked (d := .findfirst) h h rfl (map_codeOnly _)
    exact fun r => ⟨cpu.setCode_flags r.code, fun _ => rfl⟩
  | findnext =>
    apply serves_of_checked (d := .findnext) h h rfl (map_codeOnly _)
    exact fun r => ⟨cpu.setCode_flags r.code, fun _ => rfl⟩

theorem int21_exterr_iff {code : BitVec 32} (h : ExtErr.ReadsRecord cpu) (hmsb : code.msb = false)
    : Meets (fun p => p.1.ax = code.setWidth 64) (fun _ => False) (int21MainDosApi px cpu s)
        ↔ s.Reports code := by
  unfold Dos.Reports
  cases hinfo : dosixDosexterr s with
  | error e =>
    rw [ExtErr.int21_of_readsRecord px s h]
    unfold cpuExterr
    rw [assertThat_of h.1, assertThat_of h.2.1, assertThat_of h.2.2, hinfo]
    exact Iff.rfl
  | ok p =>
    obtain ⟨cpu', hcpu', hax, -⟩ := ExtErr.cpuExterr_ok px h hinfo
    rw [hcpu', meets_ok, meets_ok, hax, ExtErr.signExtend_eq_setWidth_iff (by omega)]
    exact and_iff_left_of_imp fun heq => heq ▸ hmsb

end DosService

namespace DosCall

/--
Where the extended error agrees with the code that a call has returned, for the functions and for
the services. It does for all of them but the search, and for a block that has been found.
-/
theorem reports_iff_repeated (px : Posix σ) (s : Dos σ)
    : (∀ (call : DosCall) r, call.run px s = .ok r → r.code ≠ 0 →
        (r.state.Reports r.code ↔ call.Repeated px s))
      ∧ ∀ (d : DosService) cpu cpu' s', d.Selected cpu → int21MainDosApi px cpu s = .ok (cpu', s') →
        ∃ r, d.call px cpu s = .ok r ∧ r.state = s' ∧ d.Signals r.code cpu' ∧
          (r.code ≠ 0 → ∀ exterr, ExtErr.ReadsRecord exterr →
            (Meets (fun p => p.1.ax = r.code.setWidth 64) (fun _ => False)
              (int21MainDosApi px exterr s') ↔ d.Repeated px cpu s)) := by
  constructor
  . intro call r hr hcode
    exact ((run_reported px call s).of_ok hr hcode).2
  . intro d cpu cpu' s' hselected hint21
    obtain ⟨r, hr, hstate, hsignals⟩ := (DosService.serves hselected).of_ok hint21
    refine ⟨r, hr, hstate, hsignals, ?_⟩
    intro hcode exterr hexterr
    obtain ⟨hmsb, hreports⟩ := (DosService.call_reported px d cpu s).of_ok hr hcode
    rw [DosService.int21_exterr_iff hexterr hmsb, ← show r.state = s' from hstate]
    exact hreports

theorem reports_iff_repeated_close
    : (∃ r, (DosCall.close 5).run (default : Posix Unit) { os := () } = .ok r
        ∧ r.code = EXTERR_INVAL_HANDLE ∧ r.state.Reports r.code)
      ∧ ∃ cpu s, int21MainDosApi (default : Posix Unit) { ax := 0x3e00, bx := 5 } { os := () }
          = .ok (cpu, s)
        ∧ Meets (fun p => p.1.ax = EXTERR_INVAL_HANDLE.setWidth 64) (fun _ => False)
          (int21MainDosApi default ExtErr.readCpu s) := by
  obtain ⟨hcalls, hservices⟩ := reports_iff_repeated (default : Posix Unit) { os := () }
  refine ⟨⟨_, rfl, rfl, (hcalls (.close 5) _ rfl (by decide)).mpr trivial⟩, _, _, rfl, ?_⟩
  obtain ⟨r, hr, -, -, hexterr⟩ :=
    hservices (.file .close) { ax := 0x3e00, bx := 5 } _ _ (by change _ = _; decide) rfl
  have hcode : r.code = EXTERR_INVAL_HANDLE := by
    injection hr with hr
    rw [← hr]
    rfl
  rw [hcode] at hexterr
  exact (hexterr (by decide) _ ExtErr.readsRecord_readCpu).mpr trivial

def stickyKernel : Posix Unit where
  __ := (default : Posix Unit)
  malloc := fun os => (0x2000, os)
  mmap := fun _ os => (.ok 0x10000, os)
  tsearch := fun os => (true, os)

theorem not_reports_endOfSearch
    : (do
        let px := Search.globKernel fun _ => .success ["A.TXT"]
        let r ← (DosCall.findfirst (some "*.TXT") 0 0x100).run px { os := 0 }
        let r ← (DosCall.findnext 0x100).run px r.state
        let (errorinfo, _) ← dosixDosexterr r.state
        return (r.code, errorinfo.exterror)) = .ok (EXTERR_NO_MORE_FILES, EXTERR_FILE_NOT_FOUND)
      ∧ (do
        let r ← (DosCall.allocmem 1).run stickyKernel { os := () }
        let (cpu, s) ← int21MainDosApi stickyKernel { ax := 0x4900, es := 0x10000 } r.state
        let (exterr, _) ← int21MainDosApi stickyKernel ExtErr.readCpu s
        return (cpu.flags, cpu.ax, exterr.ax)) = .ok (1, 0x07, 0xa0) := by
  -- the end of a search is reported as a missing file, and a broken block as a bad argument
  constructor
  . decide +kernel
  . decide +kernel

end DosCall
end Dosix
