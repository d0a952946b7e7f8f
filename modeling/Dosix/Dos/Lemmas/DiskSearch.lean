import Dosix.Dos.Lemmas.Disk
import Dosix.Dos.Lemmas.FindApart

/-!
This module contains what a search tells of the disk: the file that it has stopped at, with its
attributes and its time. It changes nothing.
-/

namespace Dosix

open Transition

variable {σ ι : Type} {px : Posix σ} {disk : σ → Disk ι} {s t : Dos σ} {a : Addr}
  {r : Result σ Unit}

/--
The search has stopped at the path and tells of its file what the disk has.
-/
structure FindT.Tells (px : Posix σ) (d : Disk ι) (f : FindT) (path : String) (file : ι)
    : Prop where
  matched : f.Matched path
  name : d.names path = some file
  stamp : ∃ tm, px.localtime (d.contents file).mtime = some tm ∧ f.wrDate = dostimeIntDate tm
    ∧ f.wrTime = dostimeIntTime tm
  attrib : (d.contents file).Attributes f.attrib

/--
The call has left the disk alone, and if it has found a file, tells of it.
-/
def Searches (px : Posix σ) (disk : σ → Disk ι) (a : Addr) (s : Dos σ) (r : Result σ Unit) : Prop :=
  disk r.state.os = disk s.os
    ∧ (r.code = 0 → ∃ path file, (r.state.findT a).Tells px (disk s.os) path file)

theorem Searches.of_eq (h : Searches px disk a t r) (hos : disk t.os = disk s.os)
    : Searches px disk a s r := by
  unfold Searches
  rw [← hos]
  exact h

theorem searches_refused (hcode : r.code ≠ 0) (hos : disk r.state.os = disk s.os)
    : Searches px disk a s r :=
  ⟨hos, fun hzero => absurd hzero hcode⟩

theorem findnextMatch_searches {filename : String} {attrib : BitVec 32} {fs : Stat} {file : ι}
    {pathv : List String} (hpathv : (s.findT a).glPathv = some pathv)
    (hfilename : pathv[(s.findT a)._glPathi]? = some filename)
    (hname : (disk s.os).names filename = some file)
    (hmtime : ((disk s.os).contents file).mtime = fs.mtime)
    (hattrib : ((disk s.os).contents file).Attributes attrib)
    : Searches px disk a s (findnextMatch px a filename attrib fs s) := by
  unfold findnextMatch dostimeInt
  dsimp only
  cases htm : px.localtime fs.mtime with
  | none => exact searches_refused (badArguments_ne_zero (α := Unit) none s) rfl
  | some tm =>
    refine ⟨rfl, fun _ => ⟨filename, file, ?_, hname, ⟨tm, ?_, ?_, ?_⟩, ?_⟩⟩
    . simp only [Dos.modifyFindT_findT]
      exact ⟨pathv, _, hpathv, rfl, hfilename⟩
    . rw [hmtime]
      exact htm
    all_goals simp only [Dos.modifyFindT_findT]
    exact hattrib

theorem restoreDta_searches {x : Except Fault (Result σ Unit)}
    (hx : ∀ r, x = .ok r → Searches px disk a (setDtaAddr a s) r) (h : restoreDta s x = .ok r)
    : Searches px disk a s r := by
  obtain ⟨r', hr', rfl⟩ := exists_of_map h
  obtain ⟨hsame, htells⟩ := hx r' hr'
  constructor
  . dsimp only
    split
    . exact hsame
    . exact hsame
  . intro hcode
    dsimp only at hcode ⊢
    rw [if_neg (not_not.mpr hcode)]
    exact htells hcode

theorem serviceResult_searches {cpu : Cpu} {x : Except Fault (Result σ Unit)}
    (hx : ∀ r, x = .ok r → Searches px disk a s r)
    (h : serviceResult (x.map fun r => (cpu.setCode r.code, r.state)) = .ok r)
    : Searches px disk a s r := by
  obtain ⟨p, hp, rfl⟩ := exists_of_map h
  obtain ⟨r', hr', rfl⟩ := exists_of_map hp
  obtain ⟨hsame, htells⟩ := hx r' hr'
  refine ⟨hsame, ?_⟩
  dsimp only
  rw [cpu.setCode_ax_setWidth]
  exact htells

/-! On the disk. -/

variable [DecidableEq ι]

theorem round_disk {filename : String} {found : Option (BitVec 32 × Stat)}
    (hpx : DiskContract px disk) (h : Round px a filename s t found)
    : disk t.os = disk s.os
      ∧ ∀ attrib fs, found = some (attrib, fs) → ∃ file, (disk s.os).names filename = some file
        ∧ ((disk s.os).contents file).mtime = fs.mtime
        ∧ ((disk s.os).contents file).Attributes attrib := by
  cases h with
  | refused hattr hcode => exact ⟨(dosixDosGetfileattr_effect hpx hattr).1, by simp⟩
  | gone hattr hstat =>
    obtain ⟨e, os, hos, rfl⟩ := Dos.call_none hstat
    exact ⟨(hpx.stat hos).trans (dosixDosGetfileattr_effect hpx hattr).1, by simp⟩
  | passed hattr hstat hmatches =>
    obtain ⟨os, hos, rfl⟩ := Dos.call_some hstat
    exact ⟨(hpx.stat hos).trans (dosixDosGetfileattr_effect hpx hattr).1, by simp⟩
  | matched hattr hstat hmatches =>
    obtain ⟨hsame, htells⟩ := dosixDosGetfileattr_effect hpx hattr
    obtain ⟨name, file, bits, hpath, hname, hout, hbits⟩ := htells rfl
    obtain ⟨os, hos, rfl⟩ := Dos.call_some hstat
    refine ⟨(hpx.stat hos).trans hsame, ?_⟩
    intro attrib fs hfound
    obtain ⟨rfl, rfl⟩ := Prod.mk.inj (Option.some.inj hfound)
    obtain rfl := Option.some.inj hpath
    -- both calls of the kernel find the file of this path
    obtain ⟨name, file', hpath', hname', hfile⟩ := hpx.stat_ok hos
    obtain rfl := Option.some.inj hpath'
    simp only at hsame
    rw [hsame, hname] at hname'
    obtain rfl := Option.some.inj hname'
    refine ⟨file, hname, ?_, ?_⟩
    . rw [← hsame, hfile]
    . obtain ⟨attrib, hattrib, hattrib'⟩ := Option.map_eq_some_iff.mp hout
      injection hattrib' with hattrib'
      subst hattrib'
      simp only at hattrib
      rw [hattrib]
      exact hbits

theorem findnextLoop_searches (hpx : DiskContract px disk) {left : Nat}
    {found : Option (Result σ Unit)} (h : findnextLoop px a left s = .ok (found, t))
    : disk t.os = disk s.os ∧ ∀ r, found = some r → Searches px disk a s r := by
  induction left generalizing s with
  | zero =>
    obtain ⟨rfl, rfl⟩ := Prod.mk.inj (Except.ok.inj h)
    exact ⟨rfl, by simp⟩
  | succ left ih =>
    obtain ⟨pathv, filename, u, file, hpathv, hfilename, hround, hloop⟩ := findnextLoop_ok h
    obtain ⟨hsame, hfile⟩ := round_disk hpx hround
    cases file with
    | none =>
      obtain ⟨hdisk, hsearches⟩ := ih hloop
      exact ⟨hdisk.trans hsame, fun r hr => (hsearches r hr).of_eq hsame⟩
    | some file =>
      obtain ⟨hr, rfl⟩ := Prod.mk.inj (Except.ok.inj hloop)
      obtain ⟨i, hname, hmtime, hattrib⟩ := hfile _ _ rfl
      rw [← hsame] at hname hmtime hattrib
      rw [← hround.quiet.findT] at hpathv hfilename
      have hmatch : Searches px disk a u (findnextMatch px a filename _ _ u) :=
        findnextMatch_searches hpathv hfilename hname hmtime hattrib
      refine ⟨hmatch.1.trans hsame, ?_⟩
      rintro r rfl
      obtain rfl := Option.some.inj hr
      exact hmatch.of_eq hsame

theorem findnext_searches (hpx : DiskContract px disk) (h : findnext px s = .ok r)
    : Searches px disk s.currentDta s r := by
  unfold findnext at h
  dsimp only at h
  split at h
  . simp at h
  . next hloop =>
    obtain rfl := Except.ok.inj h
    exact (findnextLoop_searches hpx hloop).2 _ rfl
  . next hloop =>
    split at h
    . obtain rfl := Except.ok.inj h
      apply searches_refused
      . rw [exterrSet_code _ _ (by decide)]
        decide
      . exact (findnextLoop_searches hpx hloop).1
    . simp at h

theorem findfirst_searches (hpx : DiskContract px disk) {filename : CString} {attrib : BitVec 32}
    (h : findfirst px filename attrib s = .ok r)
    : Searches px disk s.currentDta s r := by
  unfold findfirst at h
  dsimp only at h
  split at h
  . simp at h
  . split at h
    . next paths os hglob =>
      split at h
      . exact (findnext_searches hpx h).of_eq (hpx.glob hglob)
      . simp at h
    . next e paths os hglob =>
      have hne := failed_code_ne_zero (α := Unit)
        (s := globfree (globbed (errfunc e (s.setOs os)) s.currentDta paths) s.currentDta)
        (errfunc_error e (s.setOs os))
      apply searches_refused (hne.of_ok h)
      rw [(failed_ok h).1]
      change disk (errfunc e (s.setOs os)).os = _
      rw [errfunc_os]
      exact hpx.glob hglob
    . next os hglob =>
      obtain rfl := Except.ok.inj h
      apply searches_refused
      . rw [exterrSet_code _ _ (by decide)]
        decide
      . exact hpx.glob hglob
    . next paths os hglob =>
      obtain rfl := Except.ok.inj h
      apply searches_refused
      . rw [exterrSet_code _ _ (by decide)]
        decide
      . exact hpx.glob hglob

/--
A search by either interface leaves the disk alone and tells of the file that it finds what the disk
has.
-/
theorem searchCall_searches (hpx : DiskContract px disk) {call : SearchCall}
    (hcall : call.On s.currentDta a) (h : searchCall px s a call = .ok r)
    : Searches px disk a s r := by
  unfold searchCall at h
  cases call with
  | findfirst filename attrib =>
    dsimp only at h
    rw [dosixDosFindfirst_eq] at h
    exact restoreDta_searches (fun r hr => findfirst_searches hpx hr) h
  | findnext =>
    dsimp only at h
    rw [dosixDosFindnext_eq] at h
    exact restoreDta_searches (fun r hr => findnext_searches hpx hr) h
  | cpuFindfirst cpu =>
    obtain ⟨hah, rfl⟩ := hcall
    dsimp only at h
    rw [int21_findfirst px hah] at h
    exact serviceResult_searches (fun r hr => findfirst_searches hpx hr) h
  | cpuFindnext cpu =>
    obtain ⟨hah, rfl⟩ := hcall
    dsimp only at h
    rw [int21_findnext px hah] at h
    exact serviceResult_searches (fun r hr => findnext_searches hpx hr) h

end Dosix
