import Dosix.Dos.Lemmas.FindEnum
import Mathlib.Data.List.TakeWhile

/-!
This module contains the names that a search reports: when the name of a match is what follows the
last separator of its path, and ends within its array.
-/

namespace Dosix

open Transition

/-! Paths, as their bytes. -/

section Path

variable {α : Type} [DecidableEq α] (sep : α)

def finalComponent (path : List α) : List α :=
  (path.reverse.takeWhile (· ≠ sep)).reverse

def dirPrefix (path : List α) : List α :=
  (path.reverse.dropWhile (· ≠ sep)).reverse

variable {sep} {path : List α}

theorem dirPrefix_append_finalComponent (sep : α) (path : List α)
    : dirPrefix sep path ++ finalComponent sep path = path := by
  unfold dirPrefix finalComponent
  rw [← List.reverse_append, List.takeWhile_append_dropWhile, List.reverse_reverse]

theorem not_mem_finalComponent (sep : α) (path : List α) : sep ∉ finalComponent sep path := by
  unfold finalComponent
  rw [List.mem_reverse]
  intro h
  simpa using List.mem_takeWhile_imp h

theorem finalComponent_eq_self_iff : finalComponent sep path = path ↔ sep ∉ path := by
  constructor
  . intro h
    rw [← h]
    exact not_mem_finalComponent sep path
  . intro h
    unfold finalComponent
    rw [List.takeWhile_eq_self_iff.mpr, List.reverse_reverse]
    intro c hc
    simp only [ne_eq, decide_eq_true_eq]
    rintro rfl
    exact h (List.mem_reverse.mp hc)

theorem dirPrefix_eq_nil (h : sep ∉ path) : dirPrefix sep path = [] := by
  have happend := dirPrefix_append_finalComponent sep path
  rw [finalComponent_eq_self_iff.mpr h] at happend
  exact List.append_left_eq_self.mp happend

end Path

def SLASH : UInt8 := 0x2f

def pathBytes (path : String) : List UInt8 :=
  path.toUTF8.data.toList

/-! What a search writes into its object. -/

variable {σ : Type} {px : Posix σ} {s t : Dos σ} {a : Addr} {pattern : String}

/--
The search has stopped at `path`.
-/
def FindT.Matched (f : FindT) (path : String) : Prop :=
  ∃ pathv i, f.glPathv = some pathv ∧ f._glPathi = i + 1 ∧ pathv[i]? = some path

/--
From `f` to `g` the search has found a match.
-/
def FindT.Finds (f g : FindT) : Prop :=
  g.glPathv = f.glPathv ∧ ∃ path, g.Matched path ∧ g.name = memccpy f.name path

theorem badArguments_ne_zero {α : Type} (errno : Option Errno) (s : Dos σ)
    : (exterrSet badArguments errno s : Result σ α).code ≠ 0 := by
  rw [exterrSet_code _ _ (by decide)]
  decide

theorem dostimeInt_none {utime : Int} {code : BitVec 32}
    (h : dostimeInt px utime s = ⟨code, none, t⟩)
    : code ≠ 0 := by
  unfold dostimeInt at h
  split at h
  . have := badArguments_ne_zero (α := BitVec 32 × BitVec 32) none s
    rwa [h] at this
  . simp at h

theorem findnextMatch_finds {filename : String} {attrib : BitVec 32} {fs : Stat} {pathv : List String}
    (hpathv : (s.findT a).glPathv = some pathv)
    (hfilename : pathv[(s.findT a)._glPathi]? = some filename)
    (hcode : (findnextMatch px a filename attrib fs s).code = 0)
    : (s.findT a).Finds ((findnextMatch px a filename attrib fs s).state.findT a) := by
  unfold findnextMatch at hcode ⊢
  dsimp only at hcode ⊢
  have hquiet := dostimeInt_quiet px fs.mtime (s.modifyFindT a fun f => { f with attrib := attrib })
  split
  . next h =>
    rw [h] at hcode
    exact absurd hcode (dostimeInt_none h)
  . next h =>
    rw [h] at hquiet
    have hfindT := hquiet.findT
    dsimp only at hfindT
    simp only [FindT.Finds, FindT.Matched, Dos.modifyFindT_findT, hfindT]
    exact ⟨trivial, filename, ⟨pathv, _, hpathv, rfl, hfilename⟩, rfl⟩

theorem FindT.Finds.of_same {f f' g : FindT} (h : f'.Finds g) (hpathv : f'.glPathv = f.glPathv)
    (hname : f'.name = f.name)
    : f.Finds g := by
  obtain ⟨hsame, path, hmatched, hcopied⟩ := h
  exact ⟨hsame.trans hpathv, path, hmatched, hname ▸ hcopied⟩

theorem findnextLoop_finds {left : Nat} {r : Result σ Unit}
    (hloop : findnextLoop px a left s = .ok (some r, t)) (hcode : r.code = 0)
    : (s.findT a).Finds (r.state.findT a) := by
  induction left generalizing s with
  | zero => simp [findnextLoop] at hloop
  | succ left ih =>
    obtain ⟨pathv, filename, u, found, hpathv, hfilename, hround, hloop⟩ := findnextLoop_ok hloop
    have hquiet := hround.quiet
    cases found with
    | none =>
      apply (ih hloop).of_same
      . simp [hquiet.findT]
      . simp [hquiet.findT]
    | some found =>
      obtain ⟨hr, -⟩ := Prod.mk.inj (Except.ok.inj hloop)
      obtain rfl := Option.some.inj hr
      rw [← hquiet.findT] at hpathv hfilename ⊢
      exact findnextMatch_finds hpathv hfilename hcode

theorem findnext_finds {r : Result σ Unit} (hcall : findnext px s = .ok r) (hcode : r.code = 0)
    : (s.findT s.currentDta).Finds (r.state.findT s.currentDta) := by
  unfold findnext at hcall
  dsimp only at hcall
  split at hcall
  . simp at hcall
  . next hloop =>
    injection hcall with hcall
    subst hcall
    exact findnextLoop_finds hloop hcode
  . split at hcall
    . injection hcall with hcall
      rw [← hcall, exterrSet_code _ _ (by decide)] at hcode
      exact absurd hcode (by decide)
    . simp at hcall

theorem findfirst_finds {attrib : BitVec 32} {r : Result σ Unit}
    (hcall : findfirst px (some pattern) attrib s = .ok r) (hcode : r.code = 0)
    : ∃ paths os, ∃ f : FindT, px.glob (some pattern) s.os = (.success paths, os) ∧ f.glPathv = some paths
        ∧ f.name = (s.findT s.currentDta).name ∧ f.Finds (r.state.findT s.currentDta) := by
  unfold findfirst at hcall
  dsimp only at hcall
  rw [if_neg (by simp)] at hcall
  split at hcall
  . next paths os hglob =>
    split at hcall
    . have hfinds := findnext_finds hcall hcode
      refine ⟨paths, os, _, hglob, ?_, ?_, hfinds⟩
      . simp [globbed]
      . simp [globbed]
    . simp at hcall
  . next e paths os hglob =>
    -- what `errfunc` has set is no success
    have hne := failed_code_ne_zero (α := Unit)
      (s := globfree (globbed (errfunc e (s.setOs os)) s.currentDta paths) s.currentDta)
      (errfunc_error e (s.setOs os))
    exact absurd hcode (hne.of_ok hcall)
  . injection hcall with hcall
    rw [← hcall, exterrSet_code _ _ (by decide)] at hcode
    exact absurd hcode (by decide)
  . injection hcall with hcall
    rw [← hcall, exterrSet_code _ _ (by decide)] at hcode
    exact absurd hcode (by decide)

/-! Whole searches. -/

def FirstCall (px : Posix σ) (pattern : String) (attrib : BitVec 32) (a : Addr) (s : Dos σ)
    (r : Result σ Unit) : Prop :=
  dosixDosFindfirst px (some pattern) attrib a s = .ok r
    ∨ s.currentDta = a ∧ findfirst px (some pattern) attrib s = .ok r

def NextCall (px : Posix σ) (a : Addr) (s : Dos σ) (r : Result σ Unit) : Prop :=
  dosixDosFindnext px a s = .ok r ∨ s.currentDta = a ∧ findnext px s = .ok r

/--
A search for `pattern` with its object at `a` has just found a file. Between two calls the program
may do what it likes, but of the object it only changes the name.
-/
inductive Found (px : Posix σ) (pattern : String) (a : Addr) : Dos σ → Prop where
  | first {s : Dos σ} {r : Result σ Unit} {attrib : BitVec 32}
    (hname : (s.findT a).name.length = NAME_MAX) (hcall : FirstCall px pattern attrib a s r)
    (hcode : r.code = 0)
    : Found px pattern a r.state
  | next {s t : Dos σ} {r : Result σ Unit} (hs : Found px pattern a s) (name : List UInt8)
    (hname : name.length = NAME_MAX) (ht : t.findT a = { s.findT a with name := name })
    (hcall : NextCall px a t r) (hcode : r.code = 0)
    : Found px pattern a r.state

/--
What the manual page of `glob` says: a wildcard matches no separator, so that a match of a pattern
with separators has some; and the matches are strings.
-/
structure GlobPaths (px : Posix σ) : Prop where
  noNul : ∀ pattern os paths os', px.glob (some pattern) os = (.success paths, os') →
    ∀ path ∈ paths, 0 ∉ pathBytes path
  separator : ∀ pattern os paths os', px.glob (some pattern) os = (.success paths, os') →
    ∀ path ∈ paths, SLASH ∈ pathBytes pattern → SLASH ∈ pathBytes path

/--
The name is the bare name of the file at `path`, with its null, and can be put after the directory
prefix of the pattern.
-/
structure FindT.Names (f : FindT) (pattern path : String) : Prop where
  terminated : 0 ∈ f.name
  bare : f.name.takeWhile (· ≠ 0) = finalComponent SLASH (pathBytes path)
  located : dirPrefix SLASH (pathBytes pattern) ++ f.name.takeWhile (· ≠ 0) = pathBytes path

structure FindT.Holds (f : FindT) (px : Posix σ) (pattern path : String) : Prop where
  globbed : ∃ paths os os', px.glob (some pattern) os = (.success paths, os')
    ∧ f.glPathv = some paths
  matched : f.Matched path
  copied : ∃ old : List UInt8, old.length = NAME_MAX ∧ f.name = memccpy old path

theorem firstCall_eq {attrib : BitVec 32} {r : Result σ Unit}
    (hcall : FirstCall px pattern attrib a s r)
    : ∃ r', findfirst px (some pattern) attrib (setDtaAddr a s) = .ok r' ∧ r'.code = r.code
        ∧ r'.state.findT = r.state.findT := by
  rcases hcall with hcall | ⟨rfl, hcall⟩
  . rw [dosixDosFindfirst_eq] at hcall
    unfold restoreDta at hcall
    cases hfind : findfirst px (some pattern) attrib (setDtaAddr a s) with
    | error f => simp [hfind, Except.map] at hcall
    | ok r' =>
      rw [hfind] at hcall
      injection hcall with hcall
      refine ⟨r', rfl, by rw [← hcall], ?_⟩
      rw [← hcall]
      dsimp only
      split
      . rfl
      . rfl
  . exact ⟨r, hcall, rfl, rfl⟩

theorem nextCall_eq {r : Result σ Unit} (hcall : NextCall px a s r)
    : ∃ r', findnext px (setDtaAddr a s) = .ok r' ∧ r'.code = r.code
        ∧ r'.state.findT = r.state.findT := by
  rcases hcall with hcall | ⟨rfl, hcall⟩
  . rw [dosixDosFindnext_eq] at hcall
    unfold restoreDta at hcall
    cases hfind : findnext px (setDtaAddr a s) with
    | error f => simp [hfind, Except.map] at hcall
    | ok r' =>
      rw [hfind] at hcall
      injection hcall with hcall
      refine ⟨r', rfl, by rw [← hcall], ?_⟩
      rw [← hcall]
      dsimp only
      split
      . rfl
      . rfl
  . exact ⟨r, hcall, rfl, rfl⟩

theorem Found.holds (h : Found px pattern a s) : ∃ path, (s.findT a).Holds px pattern path := by
  induction h with
  | first hname hcall hcode =>
    obtain ⟨r', hfind, hcode', hfindT⟩ := firstCall_eq hcall
    obtain ⟨paths, os, f, hglob, hpathv, hold, hsame, path, hmatched, hcopied⟩ :=
      findfirst_finds hfind (hcode'.trans hcode)
    rw [← hfindT]
    refine ⟨path, ⟨paths, _, os, hglob, hsame.trans hpathv⟩, hmatched, f.name, ?_, hcopied⟩
    rw [hold]
    exact hname
  | @next s t r hs name hname ht hcall hcode ih =>
    obtain ⟨r', hfind, hcode', hfindT⟩ := nextCall_eq hcall
    obtain ⟨hsame, path, hmatched, hcopied⟩ := findnext_finds hfind (hcode'.trans hcode)
    obtain ⟨path', ⟨paths, os, os', hglob, hpathv⟩, -, -⟩ := ih
    have hobject : (setDtaAddr a t).findT (setDtaAddr a t).currentDta
        = { s.findT a with name := name } := ht
    rw [hobject] at hsame hcopied
    rw [← hfindT]
    exact ⟨path, ⟨paths, os, os', hglob, hsame.trans hpathv⟩, hmatched, name, hname, hcopied⟩

theorem zero_mem_memccpy_iff {old : List UInt8} {path : String} (hnul : 0 ∉ pathBytes path)
    : 0 ∈ memccpy old path ↔ (pathBytes path).length < old.length := by
  unfold memccpy
  rw [show path.toUTF8.data.toList = pathBytes path from rfl]
  dsimp only
  by_cases hlength : (pathBytes path).length < old.length
  . rw [List.take_of_length_le (by rw [List.length_append, List.length_singleton]; omega)]
    simp [hlength]
  . rw [List.take_append_of_le_length (by omega), List.drop_eq_nil_of_le, List.append_nil]
    . simp only [hlength, iff_false]
      exact fun h => hnul (List.mem_of_mem_take h)
    . rw [List.length_take]
      omega

theorem FindT.Holds.names_iff {f : FindT} {path : String} (h : f.Holds px pattern path)
    (hpx : GlobPaths px)
    : f.Names pattern path ↔ SLASH ∉ pathBytes path ∧ (pathBytes path).length < NAME_MAX := by
  obtain ⟨⟨paths, os, os', hglob, hpathv⟩, ⟨pathv, i, hpathv', -, hget⟩, old, hold, hname⟩ := h
  rw [hpathv] at hpathv'
  obtain rfl := Option.some.inj hpathv'
  have hmem := List.mem_of_getElem? hget
  have hnul := hpx.noNul pattern os paths os' hglob path hmem
  have hterminated : 0 ∈ f.name ↔ (pathBytes path).length < NAME_MAX := by
    rw [hname, zero_mem_memccpy_iff hnul, hold]
  have hread : (pathBytes path).length < NAME_MAX →
      f.name.takeWhile (· ≠ 0) = pathBytes path := by
    intro hlength
    rw [hname, takeWhile_memccpy, List.take_of_length_le (by change (pathBytes path).length ≤ _; omega)]
    apply List.takeWhile_eq_self_iff.mpr
    intro c hc
    simp only [ne_eq, decide_eq_true_eq]
    rintro rfl
    exact hnul hc
  constructor
  . rintro ⟨hzero, hbare, -⟩
    have hlength := hterminated.mp hzero
    rw [hread hlength] at hbare
    exact ⟨finalComponent_eq_self_iff.mp hbare.symm, hlength⟩
  . rintro ⟨hslash, hlength⟩
    have hpattern : SLASH ∉ pathBytes pattern :=
      fun hmem' => hslash (hpx.separator pattern os paths os' hglob path hmem hmem')
    refine ⟨hterminated.mpr hlength, ?_, ?_⟩
    . rw [hread hlength, finalComponent_eq_self_iff.mpr hslash]
    . rw [hread hlength, dirPrefix_eq_nil hpattern]
      rfl

theorem FindT.Matched.unique {f : FindT} {path path' : String} (h : f.Matched path)
    (h' : f.Matched path')
    : path = path' := by
  obtain ⟨pathv, i, hpathv, hi, hget⟩ := h
  obtain ⟨pathv', i', hpathv', hi', hget'⟩ := h'
  rw [hpathv] at hpathv'
  obtain rfl := Option.some.inj hpathv'
  obtain rfl : i = i' := by omega
  exact Option.some.inj (hget.symm.trans hget')

/--
The whole path is copied: the name is right for the matches in the current directory only, and for
those only that leave room for the null.
-/
theorem found_names_iff (hpx : GlobPaths px) (h : Found px pattern a s)
    : (∃ path, (s.findT a).Matched path)
      ∧ ∀ path, (s.findT a).Matched path →
        ((s.findT a).Names pattern path
          ↔ SLASH ∉ pathBytes path ∧ (pathBytes path).length < NAME_MAX) := by
  obtain ⟨path, hholds⟩ := h.holds
  refine ⟨⟨path, hholds.matched⟩, ?_⟩
  intro path' hmatched
  obtain rfl := hholds.matched.unique hmatched
  exact hholds.names_iff hpx

def twoDirectories : Files where
  glob := fun pattern =>
    if pattern = "*.TXT" then
      .success ["A.TXT", "B.TXT"]
    else if pattern = "SUB/*.TXT" then
      .success ["SUB/C.TXT"]
    else
      .nomatch
  stat := fun _ => .ok { mode := 0x81a4 }
  accessW := fun _ => .ok ()
  cstring := fun _ => none

theorem globPaths_twoDirectories : GlobPaths twoDirectories.kernel := by
  have hglob : ∀ pattern os paths os',
      twoDirectories.kernel.glob (some pattern) os = (.success paths, os') →
      pattern = "*.TXT" ∧ paths = ["A.TXT", "B.TXT"]
        ∨ pattern = "SUB/*.TXT" ∧ paths = ["SUB/C.TXT"] := by
    intro pattern os paths os' h
    obtain ⟨h, -⟩ := Prod.mk.inj h
    simp only [twoDirectories, Option.elim] at h
    split at h
    . next hpattern => exact .inl ⟨hpattern, (GlobResult.success.inj h).symm⟩
    . split at h
      . next hpattern => exact .inr ⟨hpattern, (GlobResult.success.inj h).symm⟩
      . simp at h
  constructor
  . intro pattern os paths os' h
    rcases hglob pattern os paths os' h with ⟨rfl, rfl⟩ | ⟨rfl, rfl⟩
    all_goals decide +kernel
  . intro pattern os paths os' h
    rcases hglob pattern os paths os' h with ⟨rfl, rfl⟩ | ⟨rfl, rfl⟩
    all_goals decide +kernel

theorem found_names_iff_twoFiles
    : ∃ r r', dosixDosFindfirst twoDirectories.kernel (some "*.TXT") 0 0x100 { os := () } = .ok r
        ∧ dosixDosFindnext twoDirectories.kernel 0x100 r.state = .ok r'
        ∧ (r'.state.findT 0x100).Names "*.TXT" "B.TXT" := by
  obtain ⟨r, hfirst, hr⟩ := exists_of_any
    (r := dosixDosFindfirst twoDirectories.kernel (some "*.TXT") 0 0x100 { os := () })
    (q := fun r => r.code = 0 ∧ (r.state.findT 0x100).name.length = NAME_MAX
      ∧ (dosixDosFindnext twoDirectories.kernel 0x100 r.state).toOption.any fun r' =>
        r'.code = 0 ∧ (r'.state.findT 0x100).glPathv = some ["A.TXT", "B.TXT"]
          ∧ (r'.state.findT 0x100)._glPathi = 2) (by decide +kernel)
  obtain ⟨hcode, hname, hr'⟩ := of_decide_eq_true hr
  obtain ⟨r', hnext, hr'⟩ := exists_of_any hr'
  obtain ⟨hcode', hpathv, hpathi⟩ := of_decide_eq_true hr'
  have hfound : Found twoDirectories.kernel "*.TXT" 0x100 r'.state :=
    .next (.first List.length_replicate (.inl hfirst) hcode) _ hname rfl (.inl hnext) hcode'
  have hmatched : (r'.state.findT 0x100).Matched "B.TXT" := ⟨_, 1, hpathv, hpathi, rfl⟩
  refine ⟨r, r', hfirst, hnext, ?_⟩
  exact ((found_names_iff globPaths_twoDirectories hfound).2 "B.TXT" hmatched).mpr
    (by decide +kernel)

theorem not_found_names_subdirectory
    : ∃ r, dosixDosFindfirst twoDirectories.kernel (some "SUB/*.TXT") 0 0x100 { os := () } = .ok r
        ∧ r.code = 0 ∧ (r.state.findT 0x100).Matched "SUB/C.TXT"
        ∧ ¬ (r.state.findT 0x100).Names "SUB/*.TXT" "SUB/C.TXT" := by
  obtain ⟨r, hfirst, hr⟩ := exists_of_any
    (r := dosixDosFindfirst twoDirectories.kernel (some "SUB/*.TXT") 0 0x100 { os := () })
    (q := fun r => r.code = 0 ∧ (r.state.findT 0x100).glPathv = some ["SUB/C.TXT"]
      ∧ (r.state.findT 0x100)._glPathi = 1
      ∧ (r.state.findT 0x100).name.takeWhile (· ≠ 0) = pathBytes "SUB/C.TXT") (by decide +kernel)
  obtain ⟨hcode, hpathv, hpathi, hname⟩ := of_decide_eq_true hr
  refine ⟨r, hfirst, hcode, ⟨_, 0, hpathv, hpathi, rfl⟩, ?_⟩
  rintro ⟨-, hbare, -⟩
  rw [hname] at hbare
  exact absurd hbare (by decide +kernel)

end Dosix
