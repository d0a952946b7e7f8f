import Dosix.Dos.Lemmas.BlockSize
import Dosix.Dos.Lemmas.FindName

/-!
This module contains the extended error that is pending, and what calls that succeed make of it: a
test that may fail leaves its error behind.
-/

namespace Dosix

open Transition

variable {σ α : Type}

/--
What `_dosexterr` answers: a record, unless it stops at an `errno` that it does not know.
-/
abbrev Report := Except Fault DosError

def Errno.report (e : Errno) : Report :=
  match e.doserror with
  | none => .error .unreachable
  | some info => .ok info

namespace Dos

variable {s t u : Dos σ}

def pending (s : Dos σ) : Report :=
  (dosixDosexterr s).map Prod.fst

theorem pending_of_errno {e : Errno} (h : s.errno = some e) : s.pending = e.report := by
  unfold pending dosixDosexterr Errno.report
  rw [h]
  dsimp only
  cases e.doserror with
  | none => rfl
  | some info => rfl

theorem pending_of_errno_none (h : s.errno = none) : s.pending = .ok s.errorinfo := by
  unfold pending
  rw [dosixDosexterr_of_errno_none h]
  rfl

theorem pending_congr (herrno : t.errno = s.errno) (hinfo : t.errorinfo = s.errorinfo)
    : t.pending = s.pending := by
  cases he : s.errno with
  | some e => rw [pending_of_errno he, pending_of_errno (herrno.trans he)]
  | none => rw [pending_of_errno_none he, pending_of_errno_none (herrno.trans he), hinfo]

/--
From `s` to `t` the reports of these failures have become pending, one after the other.
-/
def Swallows (s t : Dos σ) (reports : List Report) : Prop :=
  t.pending = reports.getLast?.getD s.pending

namespace Swallows

variable {reports reports' : List Report}

theorem of_same (herrno : t.errno = s.errno) (hinfo : t.errorinfo = s.errorinfo)
    : s.Swallows t [] :=
  pending_congr herrno hinfo

theorem of_errno {e : Errno} (h : t.errno = some e) : s.Swallows t [e.report] :=
  pending_of_errno h

theorem trans (hst : s.Swallows t reports) (htu : t.Swallows u reports')
    : s.Swallows u (reports ++ reports') := by
  unfold Swallows at *
  rw [htu, hst, List.getLast?_append]
  cases reports'.getLast? with
  | none => rfl
  | some report => rfl

theorem nil_trans (hst : s.Swallows t []) (htu : t.Swallows u reports) : s.Swallows u reports :=
  hst.trans htu

theorem trans_nil (hst : s.Swallows t reports) (htu : t.Swallows u []) : s.Swallows u reports := by
  have := hst.trans htu
  rwa [List.append_nil] at this

theorem iff (h : s.Swallows t reports)
    : t.pending = s.pending ↔ ∀ report ∈ reports.getLast?, report = s.pending := by
  unfold Swallows at h
  rw [h]
  cases reports.getLast? with
  | none => simp
  | some report => simp

end Swallows

theorem setOs_swallows (s : Dos σ) (os : σ) : s.Swallows (s.setOs os) [] :=
  .of_same rfl rfl

theorem modifyFindT_swallows (s : Dos σ) (a : Addr) (f : FindT → FindT)
    : s.Swallows (s.modifyFindT a f) [] :=
  .of_same rfl rfl

theorem call_some_swallows {f : σ → Except Errno α × σ} {a : α} (h : s.call f = (some a, t))
    : s.Swallows t [] := by
  obtain ⟨os, -, rfl⟩ := call_some h
  exact s.setOs_swallows os

/--
A call that reports success leaves the reports of these failures behind.
-/
def Succeeds (s : Dos σ) (reports : List Report) (x : Except Fault (Result σ α)) : Prop :=
  Meets (fun r => r.code = 0 → s.Swallows r.state reports) (fun _ => True) x

theorem Succeeds.nil_trans {reports : List Report} {x : Except Fault (Result σ α)}
    (hst : s.Swallows t []) (h : t.Succeeds reports x)
    : s.Succeeds reports x :=
  Meets.imp h fun _ hr hcode => hst.nil_trans (hr hcode)

theorem succeeds_of_ne_zero {reports : List Report} {x : Except Fault (Result σ α)}
    (h : Meets (fun r => r.code ≠ 0) (fun _ => True) x)
    : s.Succeeds reports x :=
  h.imp fun _ hne hzero => absurd hzero hne

theorem succeeds_failed {reports : List Report} (h : t.errno ≠ none)
    : s.Succeeds reports (failed t : Except Fault (Result σ α)) :=
  succeeds_of_ne_zero (failed_ne_zero h)

theorem succeeds_failed_call {reports : List Report} {β : Type} {f : σ → Except Errno β × σ}
    (h : s.call f = (none, t))
    : u.Succeeds reports (failed t : Except Fault (Result σ α)) :=
  succeeds_failed (call_none_errno h)

end Dos

open Dos

/-! The calls that swallow no failure. -/

section Plain

variable (px : Posix σ) (s : Dos σ)

theorem dosCreat_succeeds (filename : CString) (attrib flags : BitVec 32)
    : s.Succeeds [] (dosCreat px filename attrib flags s) := by
  unfold dosCreat
  split
  . trivial
  . dsimp only
    split
    . next h => exact succeeds_failed_call h
    . next h => exact fun _ => call_some_swallows h

theorem openLock_swallows {mode fd : BitVec 32} {s t : Dos σ}
    (h : openLock px mode fd s = (some (), t))
    : s.Swallows t [] := by
  rw [openLock_eq_call] at h
  exact call_some_swallows h

theorem openNoinherit_swallows {mode fd : BitVec 32} {s t : Dos σ}
    (h : openNoinherit px mode fd s = (some (), t))
    : s.Swallows t [] := by
  rw [openNoinherit_eq_call] at h
  exact call_some_swallows h

theorem dosixDosOpen_succeeds (path : CString) (mode : BitVec 32)
    : s.Succeeds [] (dosixDosOpen px path mode s) := by
  unfold dosixDosOpen
  split
  . trivial
  . dsimp only
    split
    . next h => exact succeeds_failed_call h
    . next hopen =>
      split
      . next h => exact succeeds_failed (openLock_errno h)
      . next hlock =>
        split
        . next h => exact succeeds_failed (openNoinherit_errno h)
        . next hnoinherit =>
          intro _
          apply (call_some_swallows hopen).nil_trans
          exact (openLock_swallows px hlock).nil_trans (openNoinherit_swallows px hnoinherit)

theorem dosixDosClose_succeeds (handle : BitVec 32)
    : s.Succeeds [] (dosixDosClose px handle s) := by
  unfold dosixDosClose
  split
  . next h => exact succeeds_failed_call h
  . next h => exact fun _ => call_some_swallows h

theorem dosixDosSetfileattr_succeeds (path : CString) (attrib : BitVec 32)
    : s.Succeeds [] (dosixDosSetfileattr px path attrib s) := by
  unfold dosixDosSetfileattr
  split
  . next h => exact succeeds_failed_call h
  . next hstat =>
    dsimp only
    split
    . next h => exact succeeds_failed_call h
    . next hchmod =>
      intro _
      exact (call_some_swallows hstat).nil_trans (call_some_swallows hchmod)

theorem dostimeInt_succeeds (utime : Int)
    : s.Succeeds [] (.ok (dostimeInt px utime s)) := by
  unfold dostimeInt
  split
  . exact succeeds_of_ne_zero (badArguments_ne_zero none s)
  . exact fun _ => .of_same rfl rfl

theorem dosixDosGetftime_succeeds (handle : BitVec 32)
    : s.Succeeds [] (dosixDosGetftime px handle s) := by
  unfold dosixDosGetftime
  split
  . next h => exact succeeds_failed_call h
  . next t h => exact .nil_trans (call_some_swallows h) (dostimeInt_succeeds px t _)

theorem unixtimeInt_none {date time : BitVec 32} {code : BitVec 32} {s t : Dos σ}
    (h : unixtimeInt px date time s = ⟨code, none, t⟩)
    : code ≠ 0 := by
  unfold unixtimeInt at h
  dsimp only at h
  split at h
  . have := badArguments_ne_zero (α := Int) none s
    rwa [h] at this
  . simp at h

theorem unixtimeInt_some {date time : BitVec 32} {code : BitVec 32} {utime : Int} {s t : Dos σ}
    (h : unixtimeInt px date time s = ⟨code, some utime, t⟩)
    : t = s := by
  unfold unixtimeInt at h
  dsimp only at h
  split at h
  . simp [exterrSet] at h
  . simp only [Result.mk.injEq] at h
    exact h.2.2.symm

theorem dosixDosSetftime_succeeds (handle date time : BitVec 32)
    : s.Succeeds [] (dosixDosSetftime px handle date time s) := by
  unfold dosixDosSetftime
  split
  . next h => exact succeeds_of_ne_zero (unixtimeInt_none px h)
  . next h =>
    rw [unixtimeInt_some px h]
    split
    . next h => exact succeeds_failed_call h
    . next hfstat =>
      split
      . next h => exact succeeds_failed_call h
      . next hfutimes =>
        intro _
        exact (call_some_swallows hfstat).nil_trans (call_some_swallows hfutimes)

theorem allocmemInsert_succeeds (ptr address : Addr)
    : s.Succeeds [] (allocmemInsert px ptr address s) := by
  unfold allocmemInsert
  split
  . dsimp only
    split
    . split
      . trivial
      . next t hfree =>
        have herrno : t.errno ≠ none := by simp [freeAllocmem_errno hfree]
        exact succeeds_of_ne_zero (allocmemError_ne_zero herrno)
    . split
      . exact fun _ => .of_same rfl rfl
      . trivial
  . trivial

theorem dosixDosAllocmem_succeeds (size : Size)
    : s.Succeeds [] (dosixDosAllocmem px size s) := by
  unfold dosixDosAllocmem
  split
  . exact fun _ => .of_same rfl rfl
  . dsimp only
    split
    . exact succeeds_of_ne_zero (allocmemError_ne_zero (by simp))
    . split
      . next h => exact succeeds_of_ne_zero (allocmemError_ne_zero (call_none_errno h))
      . next h =>
        apply Succeeds.nil_trans _ (allocmemInsert_succeeds px _ _ _)
        apply (s.setOs_swallows _).nil_trans
        exact (call_some_swallows h).nil_trans (.of_same rfl rfl)

theorem dosixDosSetblock_succeeds (size : Size) (seg : Addr)
    : s.Succeeds [] (dosixDosSetblock px size seg s) := by
  unfold dosixDosSetblock
  split
  . exact fun _ => .of_same rfl rfl
  . split
    . split
      . exact succeeds_failed (by simp)
      . split
        . trivial
        . split
          . trivial
          . split
            . dsimp only
              split
              . next h => exact succeeds_of_ne_zero (allocmemError_ne_zero (call_none_errno h))
              . next h =>
                split
                . exact fun _ => (call_some_swallows h).nil_trans (.of_same rfl rfl)
                . trivial
            . trivial
    . trivial

theorem freememDelete_succeeds (seg : Addr) (slot : Nat)
    : s.Succeeds [] (freememDelete px seg slot s) := by
  unfold freememDelete
  split
  . trivial
  . split
    . trivial
    . split
      . trivial
      . next hfree =>
        intro _
        unfold freeAllocmem at hfree
        split at hfree
        . simp at hfree
        . injection hfree with hfree
          rw [← hfree]
          exact .of_same rfl rfl

theorem dosixDosFreemem_succeeds (seg : Addr)
    : s.Succeeds [] (dosixDosFreemem px seg s) := by
  unfold dosixDosFreemem
  split
  . trivial
  . split
    . split
      . exact succeeds_failed (by simp)
      . split
        . trivial
        . split
          . trivial
          . split
            . split
              . apply succeeds_of_ne_zero
                rw [meets_ok, exterrSet_code _ _ (by decide)]
                decide
              . next h =>
                apply Succeeds.nil_trans _ (freememDelete_succeeds px _ _ _)
                exact (call_some_swallows h).nil_trans (.of_same rfl rfl)
            . trivial
    . trivial

end Plain

/-! The clock. -/

/--
The failures that the functions for one half of the clock swallow when they ask for the other half.
-/
def clockReports (px : Posix σ) (os : σ) : List Report :=
  match px.gettimeofday os with
  | (.error e, _) => [e.report]
  | (.ok tv, _) =>
    match px.localtime tv.sec with
    | none => [.ok badArguments]
    | some _ => []

theorem merge_badArguments (old : DosError) : old.merge badArguments = badArguments := by
  unfold DosError.merge
  rw [if_pos (by decide), if_pos (by decide), if_pos (by decide), if_pos (by decide)]

theorem dostimeStruct_swallows (px : Posix σ) (tv : Timeval) (s : Dos σ)
    : s.Swallows (dostimeStruct px tv s).state
        (match px.localtime tv.sec with
          | none => [.ok badArguments]
          | some _ => []) := by
  unfold dostimeStruct
  cases px.localtime tv.sec with
  | none =>
    unfold Swallows
    rw [pending_of_errno_none rfl]
    change Except.ok (s.errorinfo.merge badArguments) = _
    rw [merge_badArguments]
    rfl
  | some tm => exact .of_same rfl rfl

theorem dosixDosGettime_swallows (px : Posix σ) (time : Dostime) (s : Dos σ)
    : s.Swallows (dosixDosGettime px time s).2 (clockReports px s.os) := by
  unfold dosixDosGettime clockReports
  cases hclock : px.gettimeofday s.os with
  | mk r os =>
    cases r with
    | error e =>
      rw [call_of_error (by rw [hclock])]
      exact .of_errno rfl
    | ok tv =>
      have hstruct := (s.setOs_swallows os).nil_trans (dostimeStruct_swallows px tv (s.setOs os))
      simp only [Dos.call, hclock]
      split
      . next h =>
        rw [h] at hstruct
        exact hstruct
      . next h =>
        rw [h] at hstruct
        exact hstruct

theorem dosixDosGetdate_state (px : Posix σ) (date : Dosdate) (time : Dostime) (s : Dos σ)
    : (dosixDosGetdate px date s).2 = (dosixDosGettime px time s).2 := by
  unfold dosixDosGetdate dosixDosGettime
  split
  . rfl
  . split
    . rfl
    . rfl

theorem unixtimeStruct_none {px : Posix σ} {date : Dosdate} {time : Dostime} {code : BitVec 32}
    {s t : Dos σ} (h : unixtimeStruct px date time s = ⟨code, none, t⟩)
    : code ≠ 0 := by
  unfold unixtimeStruct at h
  dsimp only at h
  split at h
  . have := badArguments_ne_zero (α := Timeval) (some .EINVAL) s
    rwa [h] at this
  . simp at h

theorem unixtimeStruct_some {px : Posix σ} {date : Dosdate} {time : Dostime} {code : BitVec 32}
    {tv : Timeval} {s t : Dos σ} (h : unixtimeStruct px date time s = ⟨code, some tv, t⟩)
    : t = s := by
  unfold unixtimeStruct at h
  dsimp only at h
  split at h
  . simp [exterrSet] at h
  . simp only [Result.mk.injEq] at h
    exact h.2.2.symm

theorem setClock_succeeds (px : Posix σ) (date : Dosdate) (time : Dostime) (s : Dos σ)
    : s.Succeeds [] (setClock px date time s) := by
  unfold setClock
  split
  . next h => exact succeeds_of_ne_zero (unixtimeStruct_none h)
  . next h =>
    rw [unixtimeStruct_some h]
    split
    . next h => exact succeeds_failed_call h
    . next h => exact fun _ => call_some_swallows h

theorem Dos.Swallows.then_succeeds {s t : Dos σ} {reports : List Report}
    {x : Except Fault (Result σ α)} (hst : s.Swallows t reports) (h : t.Succeeds [] x)
    : s.Succeeds reports x :=
  Meets.imp h fun _ hr hcode => hst.trans_nil (hr hcode)

theorem dosixDosSetdate_succeeds (px : Posix σ) (date : Dosdate) (s : Dos σ)
    : s.Succeeds (clockReports px s.os) (dosixDosSetdate px date s) := by
  unfold dosixDosSetdate
  exact (dosixDosGettime_swallows px (uninitTime px) s).then_succeeds (setClock_succeeds px _ _ _)

theorem dosixDosSettime_succeeds (px : Posix σ) (time : Dostime) (s : Dos σ)
    : s.Succeeds (clockReports px s.os) (dosixDosSettime px time s) := by
  have hdate := dosixDosGettime_swallows px (uninitTime px) s
  rw [← dosixDosGetdate_state px (uninitDate px)] at hdate
  unfold dosixDosSettime
  exact hdate.then_succeeds (setClock_succeeds px _ _ _)

/-! The attributes of a file. -/

/--
What the test for the attributes of a file finds out, the errors on its way, and the system behind.
-/
structure AttributeTest (σ : Type) where
  attrib : Option (BitVec 32)
  errors : List Errno
  os : σ

def attributeTest (px : Posix σ) (path : CString) (os : σ) : AttributeTest σ :=
  match px.stat path os with
  | (.error e, os) => ⟨none, [e], os⟩
  | (.ok fs, os) =>
    if S_ISDIR fs.mode then
      ⟨some _A_SUBDIR, [], os⟩
    else
      match px.accessW path os with
      | (.ok (), os) => ⟨some (_A_NORMAL ||| _A_ARCH), [], os⟩
      | (.error e, os) =>
        if e = .EROFS ∨ e = .EACCES then
          ⟨some (_A_NORMAL ||| _A_ARCH ||| _A_RDONLY), [e], os⟩
        else
          ⟨none, [e], os⟩

/--
`r` is what the test has found out.
-/
structure AttributeTest.Agrees (test : AttributeTest σ) (s : Dos σ) (r : Result σ (BitVec 32))
    : Prop where
  attrib : match test.attrib with
    | none => r.code ≠ 0
    | some attrib => r.code = 0 ∧ r.out = some attrib
  os : r.state.os = test.os
  swallows : s.Swallows r.state (test.errors.map Errno.report)

theorem failed_ok {s : Dos σ} {r : Result σ α} (h : failed s = .ok r)
    : r.state.os = s.os ∧ s.Swallows r.state [] := by
  cases he : s.errno with
  | none =>
    simp only [failed, dosixDosexterr_of_errno_none he] at h
    injection h with h
    rw [← h]
    exact ⟨rfl, .of_same rfl rfl⟩
  | some e =>
    cases hinfo : e.doserror with
    | none => simp [failed, dosixDosexterr, he, hinfo] at h
    | some info =>
      rw [failed_eq he hinfo] at h
      injection h with h
      rw [← h]
      refine ⟨rfl, ?_⟩
      unfold Swallows
      rw [pending_of_errno he]
      exact pending_of_errno (e := e) he

theorem failed_agrees {s t : Dos σ} (errors : List Errno)
    (hswallows : s.Swallows t (errors.map Errno.report)) (herrno : t.errno ≠ none)
    : Meets (AttributeTest.Agrees ⟨none, errors, t.os⟩ s) (fun _ => True) (failed t) := by
  have hne := failed_ne_zero (α := BitVec 32) herrno
  cases hr : failed (α := BitVec 32) t with
  | error f => trivial
  | ok r =>
    obtain ⟨hos, hsame⟩ := failed_ok hr
    exact ⟨hne.of_ok hr, hos, hswallows.trans_nil hsame⟩

theorem dosixDosGetfileattr_agrees (px : Posix σ) (path : CString) (s : Dos σ)
    : Meets ((attributeTest px path s.os).Agrees s) (fun _ => True)
        (dosixDosGetfileattr px path s) := by
  unfold dosixDosGetfileattr attributeTest
  cases hstat : px.stat path s.os with
  | mk r os =>
    cases r with
    | error e =>
      rw [call_of_error (by rw [hstat])]
      simp only [hstat]
      apply failed_agrees [e]
      . exact .of_errno rfl
      . simp
    | ok fs =>
      simp only [Dos.call, hstat]
      split
      . exact ⟨⟨rfl, rfl⟩, rfl, s.setOs_swallows os⟩
      . rw [Dos.setOs_os]
        cases haccess : px.accessW path os with
        | mk r os' =>
          cases r with
          | ok u =>
            exact ⟨⟨rfl, rfl⟩, rfl, .of_same rfl rfl⟩
          | error e =>
            dsimp only
            split
            . next hreadOnly =>
              rcases hreadOnly with rfl | rfl
              . exact ⟨⟨rfl, rfl⟩, rfl, .of_errno rfl⟩
              . exact ⟨⟨rfl, rfl⟩, rfl, .of_errno rfl⟩
            . next hreadOnly =>
              split
              . next h => exact absurd (.inl (Option.some.inj h)) hreadOnly
              . next h => exact absurd (.inr (Option.some.inj h)) hreadOnly
              . apply failed_agrees [e]
                . exact .of_errno rfl
                . simp

/-! Searches. -/

/--
The errors that a search leaves behind on its way from the first of these paths to the match.
-/
def searchErrors (px : Posix σ) (mask : BitVec 32) (paths : List String) (os : σ) : List Errno :=
  match paths with
  | [] => []
  | path :: paths =>
    let test := attributeTest px (some path) os
    match test.attrib with
    | none => test.errors ++ searchErrors px mask paths test.os
    | some attrib =>
      match px.stat (some path) test.os with
      | (.error e, os) => test.errors ++ e :: searchErrors px mask paths os
      | (.ok fs, os) =>
        if ({ _attrib := mask } : FindT).matches attrib fs.mode then
          test.errors
        else
          test.errors ++ searchErrors px mask paths os

section Search

variable {px : Posix σ} {s t : Dos σ} {a : Addr} {mask : BitVec 32} {pathv : List String}
  {r : Result σ Unit}

theorem matches_congr {f : FindT} (h : f._attrib = mask) (attrib mode : BitVec 32)
    : f.matches attrib mode = ({ _attrib := mask } : FindT).matches attrib mode := by
  unfold FindT.matches
  rw [h]

theorem dostimeInt_some {utime : Int} {code : BitVec 32} {stamp : BitVec 32 × BitVec 32}
    (h : dostimeInt px utime s = ⟨code, some stamp, t⟩)
    : t = s := by
  unfold dostimeInt at h
  split at h
  . simp [exterrSet] at h
  . simp only [Result.mk.injEq] at h
    exact h.2.2.symm

theorem findnextMatch_swallows {filename : String} {attrib : BitVec 32} {fs : Stat}
    (hcode : (findnextMatch px a filename attrib fs s).code = 0)
    : s.Swallows (findnextMatch px a filename attrib fs s).state [] := by
  unfold findnextMatch at hcode ⊢
  dsimp only at hcode ⊢
  split
  . next h =>
    rw [h] at hcode
    exact absurd hcode (dostimeInt_none h)
  . next h =>
    rw [dostimeInt_some h]
    exact .of_same rfl rfl

theorem AttributeTest.Agrees.attrib_eq_none {test : AttributeTest σ} {r : Result σ (BitVec 32)}
    (h : test.Agrees s r) (hcode : r.code ≠ 0) : test.attrib = none := by
  have hattrib := h.attrib
  cases hnone : test.attrib with
  | none => rfl
  | some attrib =>
    rw [hnone] at hattrib
    exact absurd hattrib.1 hcode

theorem AttributeTest.Agrees.attrib_eq_some {test : AttributeTest σ} {r : Result σ (BitVec 32)}
    (h : test.Agrees s r) (hcode : r.code = 0)
    : ∃ attrib, test.attrib = some attrib ∧ r.out = some attrib := by
  have hattrib := h.attrib
  cases hsome : test.attrib with
  | none =>
    rw [hsome] at hattrib
    exact absurd hcode hattrib
  | some attrib =>
    rw [hsome] at hattrib
    exact ⟨attrib, rfl, hattrib.2⟩

/--
A round swallows what the file at the head of the paths adds to the errors of the search.
-/
theorem Round.swallows {filename : String} {u : Dos σ} {found : Option (BitVec 32 × Stat)}
    (h : Round px a filename s u found) (hmask : (s.findT a)._attrib = mask) (paths : List String)
    : ∃ errors, s.Swallows u (errors.map Errno.report)
        ∧ searchErrors px mask (filename :: paths) s.os
          = errors ++ if found = none then searchErrors px mask paths u.os else [] := by
  have hagrees := dosixDosGetfileattr_agrees px (some filename) s
  have hmatches (fs : Stat) (attrib : BitVec 32)
      : (u.findT a).matches attrib fs.mode
        = ({ _attrib := mask } : FindT).matches attrib fs.mode :=
    matches_congr (by rw [h.quiet.findT, hmask]) attrib fs.mode
  rw [searchErrors]
  cases h with
  | refused hattr hcode =>
    have htest := hagrees.of_ok hattr
    rw [htest.attrib_eq_none hcode, ← htest.os, if_pos rfl]
    exact ⟨_, htest.swallows, rfl⟩
  | gone hattr hstat =>
    have htest := hagrees.of_ok hattr
    obtain ⟨attrib, hattrib, -⟩ := htest.attrib_eq_some rfl
    obtain ⟨e, os, hos, rfl⟩ := call_none hstat
    rw [hattrib, ← htest.os]
    dsimp only
    rw [hos, if_pos rfl]
    refine ⟨_ ++ [e], ?_, List.append_cons ..⟩
    rw [List.map_append]
    exact htest.swallows.trans (.of_errno rfl)
  | passed hattr hstat hnot =>
    have htest := hagrees.of_ok hattr
    obtain ⟨attrib, hattrib, rfl⟩ := htest.attrib_eq_some rfl
    rw [hmatches, Option.getD_some] at hnot
    obtain ⟨os, hos, rfl⟩ := call_some hstat
    rw [hattrib, ← htest.os]
    dsimp only
    rw [hos]
    dsimp only
    rw [if_neg hnot, if_pos rfl]
    exact ⟨_, htest.swallows.trans_nil (setOs_swallows _ os), rfl⟩
  | matched hattr hstat hyes =>
    have htest := hagrees.of_ok hattr
    obtain ⟨attrib, hattrib, rfl⟩ := htest.attrib_eq_some rfl
    rw [hmatches, Option.getD_some] at hyes
    obtain ⟨os, hos, rfl⟩ := call_some hstat
    rw [hattrib, ← htest.os]
    dsimp only
    rw [hos]
    dsimp only
    rw [if_pos hyes, if_neg (by simp)]
    exact ⟨_, htest.swallows.trans_nil (setOs_swallows _ os), (List.append_nil _).symm⟩

theorem findnextLoop_swallows {left : Nat} (hpathv : (s.findT a).glPathv = some pathv)
    (hmask : (s.findT a)._attrib = mask) (hloop : findnextLoop px a left s = .ok (some r, t))
    (hcode : r.code = 0)
    : s.Swallows r.state
        ((searchErrors px mask (pathv.drop (s.findT a)._glPathi) s.os).map Errno.report) := by
  induction left generalizing s with
  | zero => simp [findnextLoop] at hloop
  | succ left ih =>
    obtain ⟨_, filename, u, found, hpathv', hfilename, hround, hloop⟩ := findnextLoop_ok hloop
    obtain rfl := Option.some.inj (hpathv.symm.trans hpathv')
    have hquiet := hround.quiet
    obtain ⟨hlt, hget⟩ := List.getElem?_eq_some_iff.mp hfilename
    rw [List.drop_eq_getElem_cons hlt, hget]
    obtain ⟨errors, hswallows, herrors⟩ :=
      hround.swallows hmask (pathv.drop ((s.findT a)._glPathi + 1))
    rw [herrors]
    cases found with
    | none =>
      -- going on to the next round
      have hrest := ih (by simp [hquiet.findT, hpathv]) (by simp [hquiet.findT, hmask]) hloop
      simp only [modifyFindT_findT, hquiet.findT] at hrest
      rw [if_pos rfl, List.map_append]
      exact (hswallows.trans_nil (u.modifyFindT_swallows a _)).trans hrest
    | some found =>
      obtain ⟨hr, -⟩ := Prod.mk.inj (Except.ok.inj hloop)
      obtain rfl := Option.some.inj hr
      rw [if_neg (by simp), List.append_nil]
      exact hswallows.trans_nil (findnextMatch_swallows hcode)

/--
The errors that `findnext` leaves behind on its way to the next match.
-/
def FindT.errors (px : Posix σ) (f : FindT) (os : σ) : List Errno :=
  searchErrors px f._attrib ((f.glPathv.getD []).drop f._glPathi) os

theorem findnext_succeeds (px : Posix σ) (s : Dos σ)
    : s.Succeeds (((s.findT s.currentDta).errors px s.os).map Errno.report) (findnext px s) := by
  unfold findnext
  dsimp only
  split
  . trivial
  . next left hloop =>
    intro hcode
    cases hpathv : (s.findT s.currentDta).glPathv with
    | some pathv =>
      unfold FindT.errors
      rw [hpathv]
      exact findnextLoop_swallows hpathv rfl hloop hcode
    | none =>
      unfold findnextLoop at hloop
      split at hloop
      . simp at hloop
      . rw [hpathv] at hloop
        simp at hloop
  . split
    . apply succeeds_of_ne_zero
      rw [meets_ok, exterrSet_code _ _ (by decide)]
      decide
    . trivial

def globErrors (px : Posix σ) (filename : CString) (attrib : BitVec 32) (os : σ) : List Errno :=
  match px.glob filename os with
  | (.success paths, os) => searchErrors px attrib paths os
  | _ => []

theorem findfirst_succeeds (px : Posix σ) (filename : CString) (attrib : BitVec 32) (s : Dos σ)
    : s.Succeeds ((globErrors px filename attrib s.os).map Errno.report)
        (findfirst px filename attrib s) := by
  unfold findfirst globErrors
  dsimp only
  by_cases hfilename : filename = none
  . rw [if_pos hfilename]
    trivial
  . rw [if_neg hfilename]
    rcases px.glob filename s.os with ⟨paths | ⟨e, paths⟩ | _ | paths, os⟩
    . dsimp only
      split
      . have hnext := findnext_succeeds px
          ((globbed (s.setOs os) s.currentDta paths).modifyFindT s.currentDta
            fun f => { f with _glPathi := 0, _attrib := attrib })
        simp only [FindT.errors, modifyFindT_currentDta] at hnext
        simp only [globbed, modifyFindT_currentDta, modifyFindT_findT, Dos.setOs_currentDta,
          Option.getD_some, List.drop_zero] at hnext
        apply Succeeds.nil_trans _ hnext
        apply ((s.setOs_swallows os).nil_trans (modifyFindT_swallows _ _ _)).nil_trans
        apply modifyFindT_swallows
      . trivial
    . have hne := failed_code_ne_zero (α := Unit)
        (s := globfree (globbed (errfunc e (s.setOs os)) s.currentDta paths) s.currentDta)
        (errfunc_error e (s.setOs os))
      exact succeeds_of_ne_zero (hne.mono (fun _ h => h) fun _ _ => trivial)
    . apply succeeds_of_ne_zero
      rw [meets_ok, exterrSet_code _ _ (by decide)]
      decide
    . apply succeeds_of_ne_zero
      rw [meets_ok, exterrSet_code _ _ (by decide)]
      decide

theorem Dos.setDtaAddr_swallows (s : Dos σ) (a : Addr) : s.Swallows (setDtaAddr a s) [] :=
  .of_same rfl rfl

theorem succeeds_restoreDta {reports : List Report} {x : Except Fault (Result σ Unit)}
    (h : (setDtaAddr a s).Succeeds reports x)
    : s.Succeeds reports (restoreDta s x) := by
  unfold restoreDta Succeeds
  rw [meets_map]
  apply Meets.imp h
  intro r hr
  dsimp only
  intro hcode
  rw [if_neg (by simp [hcode])]
  apply (s.setDtaAddr_swallows a).nil_trans
  exact (hr hcode).trans_nil (r.state.setDtaAddr_swallows _)

end Search

/-! All calls. -/

namespace DosCall

/--
The reports of the failures that a call swallows: of the access test for a file that cannot be
written, of the tests for the entries that a search passes by, and of the other half of the clock.
-/
def swallowed (px : Posix σ) (call : DosCall) (s : Dos σ) : List Report :=
  match call with
  | .getfileattr path => (attributeTest px path s.os).errors.map Errno.report
  | .setdate _ | .settime _ => clockReports px s.os
  | .findfirst filename attrib _ => (globErrors px filename attrib s.os).map Errno.report
  | .findnext fileinfo => ((s.findT fileinfo).errors px s.os).map Errno.report
  | _ => []

theorem succeeds_map {β : Type} {s : Dos σ} {reports : List Report}
    {x : Except Fault (Result σ β)} (h : s.Succeeds reports x)
    : s.Succeeds reports (x.map Result.codeOnly) :=
  meets_map.mpr h

theorem run_succeeds (px : Posix σ) (call : DosCall) (s : Dos σ)
    : s.Succeeds (call.swallowed px s) (call.run px s) := by
  cases call with
  | allocmem size => exact succeeds_map (dosixDosAllocmem_succeeds px s size)
  | setblock size seg => exact succeeds_map (dosixDosSetblock_succeeds px s size seg)
  | freemem seg => exact dosixDosFreemem_succeeds px s seg
  | creat filename attrib => exact succeeds_map (dosCreat_succeeds px s filename attrib _)
  | creatnew filename attrib => exact succeeds_map (dosCreat_succeeds px s filename attrib _)
  | openFile path mode => exact succeeds_map (dosixDosOpen_succeeds px s path mode)
  | close handle => exact dosixDosClose_succeeds px s handle
  | getfileattr path =>
    apply succeeds_map
    apply (dosixDosGetfileattr_agrees px path s).imp
    exact fun _ hagrees _ => hagrees.swallows
  | setfileattr path attrib => exact dosixDosSetfileattr_succeeds px s path attrib
  | getftime handle => exact succeeds_map (dosixDosGetftime_succeeds px s handle)
  | setftime handle date time => exact dosixDosSetftime_succeeds px s handle date time
  | setdate date => exact dosixDosSetdate_succeeds px date s
  | settime time => exact dosixDosSettime_succeeds px time s
  | findfirst filename attrib fileinfo =>
    change s.Succeeds _ (dosixDosFindfirst px filename attrib fileinfo s)
    rw [dosixDosFindfirst_eq]
    exact succeeds_restoreDta (findfirst_succeeds px filename attrib (setDtaAddr fileinfo s))
  | findnext fileinfo =>
    change s.Succeeds _ (dosixDosFindnext px fileinfo s)
    rw [dosixDosFindnext_eq]
    exact succeeds_restoreDta (findnext_succeeds px (setDtaAddr fileinfo s))

/--
A call that succeeds keeps the pending error if and only if it swallows no failure, or the last one
is reported as the error that was pending before.
-/
theorem pending_iff_swallowed (px : Posix σ) (s : Dos σ) (call : DosCall) {r : Result σ Unit}
    (hrun : call.run px s = .ok r) (hcode : r.code = 0)
    : r.state.pending = s.pending
        ↔ ∀ report ∈ (call.swallowed px s).getLast?, report = s.pending :=
  ((run_succeeds px call s).of_ok hrun hcode).iff

theorem pending_iff_swallowed_writable
    : ∃ r, (DosCall.getfileattr (some "A.TXT")).run smallDirectory.kernel { os := () } = .ok r
        ∧ r.state.pending = ({ os := () } : Dos Unit).pending := by
  obtain ⟨r, hrun, hcode⟩ := exists_of_any
    (r := (DosCall.getfileattr (some "A.TXT")).run smallDirectory.kernel { os := () })
    (q := fun r => r.code = 0) (by decide +kernel)
  refine ⟨r, hrun, ?_⟩
  rw [pending_iff_swallowed smallDirectory.kernel { os := () } (.getfileattr (some "A.TXT")) hrun
    (of_decide_eq_true hcode)]
  intro report hreport
  simp [swallowed, attributeTest, Files.kernel, smallDirectory, S_ISDIR, S_IFMT, S_IFDIR] at hreport

theorem not_pending_readOnly
    : ∃ r, (DosCall.getfileattr (some "B.TXT")).run smallDirectory.kernel { os := () } = .ok r
        ∧ r.code = 0 ∧ r.state.pending.toOption.any (·.exterror = EXTERR_ACCESS_DENIED)
        ∧ r.state.pending ≠ ({ os := () } : Dos Unit).pending := by
  obtain ⟨r, hrun, hr⟩ := exists_of_any
    (r := (DosCall.getfileattr (some "B.TXT")).run smallDirectory.kernel { os := () })
    (q := fun r => r.code = 0
      ∧ r.state.pending.toOption.any (·.exterror = EXTERR_ACCESS_DENIED)) (by decide +kernel)
  obtain ⟨hcode, hdenied⟩ := of_decide_eq_true hr
  refine ⟨r, hrun, hcode, hdenied, ?_⟩
  intro h
  rw [h] at hdenied
  exact absurd hdenied (by decide)

end DosCall

end Dosix
