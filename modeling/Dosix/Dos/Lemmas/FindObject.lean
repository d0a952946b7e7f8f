import Dosix.Dos.Lemmas.Find

/-!
This module contains the directory search as a function of the `struct _find_t` that it works on. As
long as the files do not change, this is all that a search depends on, and all that it changes but for
`errno` and the extended error.
-/

namespace Dosix

open Transition

variable {σ : Type}

/--
Files that do not change, and the strings in the memory of the program.
-/
structure Files where
  glob : String → GlobResult
  stat : String → Except Errno Stat
  accessW : String → Except Errno Unit
  cstring : Addr → CString

/--
The calls of the kernel answer for the files wherever `holds`, which they preserve.
-/
structure Files.Unchanged (fs : Files) (px : Posix σ) (holds : σ → Prop) : Prop where
  glob : ∀ path os, holds os →
    (px.glob (some path) os).1 = fs.glob path ∧ holds (px.glob (some path) os).2
  stat : ∀ path os, holds os →
    (px.stat (some path) os).1 = fs.stat path ∧ holds (px.stat (some path) os).2
  accessW : ∀ path os, holds os →
    (px.accessW (some path) os).1 = fs.accessW path ∧ holds (px.accessW (some path) os).2
  cstring : ∀ a os, holds os → px.cstring os a = fs.cstring a

def FindT.next (f : FindT) : FindT :=
  { f with _glPathi := f._glPathi + 1 }

namespace Files

variable (fs : Files) (localtime : Int → Option Tm)

def failure (e : Errno) : Except Fault (BitVec 32) :=
  match e.doserror with
  | none => .error .unreachable
  | some info => .ok info.exterror

/--
The attributes of a file, `none` where they cannot be queried.
-/
def getfileattr (path : String) : Except Fault (Option (BitVec 32)) :=
  match fs.stat path with
  | .error e => (failure e).map fun _ => none
  | .ok st =>
    if S_ISDIR st.mode then
      .ok (some _A_SUBDIR)
    else
      match fs.accessW path with
      | .ok () => .ok (some (_A_NORMAL ||| _A_ARCH))
      | .error .EROFS => .ok (some (_A_NORMAL ||| _A_ARCH ||| _A_RDONLY))
      | .error .EACCES => .ok (some (_A_NORMAL ||| _A_ARCH ||| _A_RDONLY))
      | .error e => (failure e).map fun _ => none

def findnextMatch (filename : String) (attrib : BitVec 32) (st : Stat) (f : FindT)
    : BitVec 32 × FindT :=
  match localtime st.mtime with
  | none => (EXTERR_BAD_ARGUMENTS, { f with attrib := attrib })
  | some tm =>
    (0, { f with
      attrib := attrib
      wrDate := dostimeIntDate tm
      wrTime := dostimeIntTime tm
      size := st.size
      name := memccpy f.name filename
      _glPathi := f._glPathi + 1 })

def findnextLoop (left : Nat) (f : FindT) : Except Fault (Option (BitVec 32) × FindT) :=
  match left with
  | 0 => .ok (none, f)
  | left + 1 =>
    match f.glPathv with
    | none => .error .undefined
    | some pathv =>
      match pathv[f._glPathi]? with
      | none => .error .undefined
      | some filename =>
        match fs.getfileattr filename with
        | .error e => .error e
        | .ok none => findnextLoop left f.next
        | .ok (some attrib) =>
          match fs.stat filename with
          | .error _ => findnextLoop left f.next
          | .ok st =>
            if f.matches attrib st.mode then
              let (code, f) := findnextMatch localtime filename attrib st f
              .ok (some code, f)
            else
              findnextLoop left f.next

def findnext (f : FindT) : Except Fault (BitVec 32 × FindT) :=
  match fs.findnextLoop localtime (f.glPathc - f._glPathi) f with
  | .error e => .error e
  | .ok (some code, f) => .ok (code, f)
  | .ok (none, f) =>
    if f._glPathi = f.glPathc then
      .ok (EXTERR_NO_MORE_FILES, { f with glPathv := none })
    else
      .error .assertion

def errfunc (e : Errno) : Except Fault (BitVec 32) :=
  match e with
  | .EACCES => .ok EXTERR_ACCESS_DENIED
  | .ENOENT => .ok EXTERR_PATH_NOT_FOUND
  | Errno.EIO => .ok EXTERR_READ_FAULT
  | e => failure e

def findfirst (filename : CString) (attrib : BitVec 32) (f : FindT)
    : Except Fault (BitVec 32 × FindT) :=
  match filename with
  | none => .error .unreachable
  | some filename =>
    match fs.glob filename with
    | .success paths =>
      if 0 < paths.length then
        fs.findnext localtime { f with
          glPathc := paths.length
          glPathv := some paths
          _glPathi := 0
          _attrib := attrib }
      else
        .error .assertion
    | .aborted e paths =>
      (errfunc e).map fun code => (code, { f with glPathc := paths.length, glPathv := none })
    | .nomatch => .ok (EXTERR_FILE_NOT_FOUND, { f with glPathc := 0, glPathv := none })
    | .nospace paths =>
      .ok (EXTERR_INSUF_MEM, { f with glPathc := paths.length, glPathv := none })

end Files

theorem Dos.modifyFindT_apply (s : Dos σ) (a x : Addr) (m : FindT → FindT)
    : (s.modifyFindT a m).findT x = if x = a then m (s.findT x) else s.findT x := rfl

/--
From `s` to `t`, the search has changed the object at `a` into `f`, and no other one.
-/
structure Leaves (holds : σ → Prop) (s t : Dos σ) (a : Addr) (f : FindT) : Prop where
  findT : t.findT = (s.modifyFindT a fun _ => f).findT
  currentDta : t.currentDta = s.currentDta
  holds : holds t.os

def Agrees (holds : σ → Prop) (s : Dos σ) (a : Addr) (r : Except Fault (Result σ Unit))
    (r' : Except Fault (BitVec 32 × FindT)) : Prop :=
  Meets (fun r => ∃ f, r' = .ok (r.code, f) ∧ Leaves holds s r.state a f)
    (fun e => r' = .error e) r

theorem Agrees.exists_ok {holds : σ → Prop} {s : Dos σ} {a : Addr} {r : Except Fault (Result σ Unit)}
    {code : BitVec 32} {f : FindT} (h : Agrees holds s a r (.ok (code, f)))
    : ∃ r', r = .ok r' ∧ r'.code = code ∧ Leaves holds s r'.state a f := by
  cases r with
  | error e => simpa using h.of_error rfl
  | ok r =>
    obtain ⟨f', hf', hleaves⟩ := h
    injection hf' with hf'
    rw [Prod.mk.injEq] at hf'
    obtain ⟨hcode, rfl⟩ := hf'
    exact ⟨r, rfl, hcode.symm, hleaves⟩

namespace Leaves

variable {holds : σ → Prop} {s t u : Dos σ} {a : Addr} {f g : FindT}

theorem of_quiet (h : s.Quiet t) (hos : holds t.os) : Leaves holds s t a (s.findT a) where
  findT := by
    rw [h.findT]
    funext x
    rw [Dos.modifyFindT_apply]
    split
    . next hx => rw [hx]
    . rfl
  currentDta := h.currentDta
  holds := hos

theorem findT_same (h : Leaves holds s t a f) : t.findT a = f := by
  rw [h.findT]
  exact Dos.modifyFindT_findT s a _

theorem trans (h : Leaves holds s t a f) (h' : Leaves holds t u a g) : Leaves holds s u a g where
  findT := by
    rw [h'.findT]
    funext x
    rw [Dos.modifyFindT_apply, Dos.modifyFindT_apply]
    split
    . rfl
    . next hx =>
      rw [h.findT]
      exact if_neg hx
  currentDta := h'.currentDta.trans h.currentDta
  holds := h'.holds

theorem quiet (h : Leaves holds s t a f) (h' : t.Quiet u) (hos : holds u.os)
    : Leaves holds s u a f := by
  have := h.trans (of_quiet (a := a) h' hos)
  rwa [h.findT_same] at this

theorem modifyFindT (hos : holds s.os) (m : FindT → FindT)
    : Leaves holds s (s.modifyFindT a m) a (m (s.findT a)) where
  findT := by
    funext x
    rw [Dos.modifyFindT_apply, Dos.modifyFindT_apply]
    split
    . next hx => rw [hx]
    . rfl
  currentDta := rfl
  holds := hos

end Leaves

/-! The calls of the kernel. -/

section

variable {α : Type} {fs : Files} {px : Posix σ} {holds : σ → Prop} {s t : Dos σ} {e : Errno}

theorem failed_of_failure_error (he : t.errno = some e) {f : Fault}
    (hf : Files.failure e = .error f)
    : failed t = (.error f : Except Fault (Result σ α)) := by
  unfold Files.failure at hf
  split at hf
  . next hinfo =>
    injection hf with hf
    simp [failed, dosixDosexterr, he, hinfo, hf]
  . simp at hf

theorem failed_of_failure_ok (he : t.errno = some e) {code : BitVec 32}
    (hcode : Files.failure e = .ok code)
    : ∃ info, failed t = .ok (⟨code, none, t.setErrorinfo info⟩ : Result σ α) ∧ code ≠ 0 := by
  unfold Files.failure at hcode
  split at hcode
  . simp at hcode
  . next info hinfo =>
    injection hcode with hcode
    subst hcode
    exact ⟨info, failed_eq he hinfo, Errno.doserror_exterror_ne_zero hinfo⟩

/--
The result of `_dosix__dos_getfileattr`, of which only the attributes of a success matter.
-/
def AttribAgrees (holds : σ → Prop) (s : Dos σ) (r : Except Fault (Result σ (BitVec 32)))
    (r' : Except Fault (Option (BitVec 32))) : Prop :=
  Meets
    (fun r => (s.Quiet r.state ∧ holds r.state.os)
      ∧ (r.code ≠ 0 ∧ r' = .ok none ∨ r.code = 0 ∧ ∃ attrib, r.out = some attrib ∧ r' = .ok r.out))
    (fun e => r' = .error e) r

theorem attribAgrees_failed (hquiet : s.Quiet t) (hos : holds t.os) (he : t.errno = some e)
    : AttribAgrees holds s (failed t) ((Files.failure e).map fun _ => none) := by
  cases hf : Files.failure e with
  | error f =>
    rw [failed_of_failure_error he hf]
    rfl
  | ok code =>
    obtain ⟨info, hfailed, hcode⟩ := failed_of_failure_ok (α := BitVec 32) he hf
    rw [hfailed]
    exact ⟨⟨hquiet.trans (.setErrorinfo t info), hos⟩, .inl ⟨hcode, rfl⟩⟩

theorem attribAgrees_ok (hquiet : s.Quiet t) (hos : holds t.os) (attrib : BitVec 32)
    : AttribAgrees holds s (.ok ⟨0, some attrib, t⟩) (.ok (some attrib)) :=
  ⟨⟨hquiet, hos⟩, .inr ⟨rfl, attrib, rfl, rfl⟩⟩

theorem getfileattr_agrees (hfs : fs.Unchanged px holds) (hos : holds s.os) (path : String)
    : AttribAgrees holds s (dosixDosGetfileattr px (some path) s) (fs.getfileattr path) := by
  obtain ⟨hstat, hos'⟩ := hfs.stat path s.os hos
  unfold dosixDosGetfileattr Files.getfileattr
  cases hst : fs.stat path with
  | error e =>
    rw [Dos.call_of_error (hstat.trans hst)]
    exact attribAgrees_failed (.trans (.setOs _ _) (.setErrno _ _)) hos' rfl
  | ok st =>
    rw [Dos.call_eq_ok (hstat.trans hst)]
    dsimp only
    split
    . exact attribAgrees_ok (.setOs _ _) hos' _
    . obtain ⟨haccess, hos''⟩ := hfs.accessW path _ hos'
      cases hacc : fs.accessW path with
      | ok u =>
        rw [Dos.call_eq_ok (s := s.setOs _) (haccess.trans hacc)]
        exact attribAgrees_ok (.trans (.setOs _ _) (.setOs _ _)) hos'' _
      | error e =>
        rw [Dos.call_of_error (s := s.setOs _) (haccess.trans hacc)]
        have hquiet : s.Quiet (((s.setOs (px.stat (some path) s.os).2).setOs
            (px.accessW (some path) (px.stat (some path) s.os).2).2).setErrno (some e)) :=
          .trans (.setOs _ _) (.trans (.setOs _ _) (.setErrno _ _))
        cases e
        case EROFS => exact attribAgrees_ok hquiet hos'' _
        case EACCES => exact attribAgrees_ok hquiet hos'' _
        all_goals exact attribAgrees_failed hquiet hos'' rfl

theorem AttribAgrees.of_zero {attrib : Option (BitVec 32)} {r : Except Fault (Result σ (BitVec 32))}
    {r' : Except Fault (Option (BitVec 32))} (h : AttribAgrees holds s r r')
    (hr : r = .ok ⟨0, attrib, t⟩)
    : holds t.os ∧ ∃ a, attrib = some a ∧ r' = .ok (some a) := by
  obtain ⟨⟨-, hos⟩, hcode⟩ := h.of_ok hr
  obtain ⟨hcode, -⟩ | ⟨-, a, rfl, hr'⟩ := hcode
  . exact absurd rfl hcode
  . exact ⟨hos, a, rfl, hr'⟩

/-! The search. -/

/--
What a round of the loop comes to for the object.
-/
theorem Round.agrees (hfs : fs.Unchanged px holds) {a : Addr} {filename : String}
    {found : Option (BitVec 32 × Stat)} (h : Round px a filename s t found) (hos : holds s.os)
    {pathv : List String} (hpathv : (s.findT a).glPathv = some pathv)
    (hfilename : pathv[(s.findT a)._glPathi]? = some filename) (left : Nat)
    : holds t.os
        ∧ fs.findnextLoop px.localtime (left + 1) (s.findT a)
          = match found with
            | none => fs.findnextLoop px.localtime left (s.findT a).next
            | some (attrib, st) =>
              .ok (some (Files.findnextMatch px.localtime filename attrib st (s.findT a)).1,
                (Files.findnextMatch px.localtime filename attrib st (s.findT a)).2) := by
  have hattrib := getfileattr_agrees hfs hos filename
  have hfindT : t.findT = s.findT := h.quiet.findT
  rw [Files.findnextLoop, hpathv]
  dsimp only
  rw [hfilename]
  dsimp only
  cases h with
  | refused hattr hcode =>
    obtain ⟨⟨-, hos'⟩, hagrees⟩ := hattrib.of_ok hattr
    obtain ⟨-, hr⟩ | ⟨hcode', -⟩ := hagrees
    . rw [hr]
      exact ⟨hos', rfl⟩
    . exact absurd hcode' hcode
  | gone hattr hstat =>
    obtain ⟨hos', attrib, -, hr⟩ := hattrib.of_zero hattr
    obtain ⟨hstat', hos''⟩ := hfs.stat filename _ hos'
    obtain ⟨e, os, hcall, rfl⟩ := Dos.call_none hstat
    rw [hcall] at hstat' hos''
    rw [hr]
    dsimp only
    rw [← hstat']
    exact ⟨hos'', rfl⟩
  | passed hattr hstat hnot =>
    obtain ⟨hos', attrib, rfl, hr⟩ := hattrib.of_zero hattr
    obtain ⟨hstat', hos''⟩ := hfs.stat filename _ hos'
    obtain ⟨os, hcall, rfl⟩ := Dos.call_some hstat
    rw [hcall] at hstat' hos''
    rw [hfindT] at hnot
    rw [hr]
    dsimp only
    rw [← hstat']
    exact ⟨hos'', if_neg hnot⟩
  | matched hattr hstat hyes =>
    obtain ⟨hos', attrib, rfl, hr⟩ := hattrib.of_zero hattr
    obtain ⟨hstat', hos''⟩ := hfs.stat filename _ hos'
    obtain ⟨os, hcall, rfl⟩ := Dos.call_some hstat
    rw [hcall] at hstat' hos''
    rw [hfindT] at hyes
    rw [hr]
    dsimp only
    rw [← hstat']
    exact ⟨hos'', if_pos hyes⟩

def LoopAgrees (holds : σ → Prop) (s : Dos σ) (a : Addr)
    (r : Except Fault (Option (Result σ Unit) × Dos σ))
    (r' : Except Fault (Option (BitVec 32) × FindT)) : Prop :=
  Meets
    (fun p => (∀ r ∈ p.1, r.state = p.2)
      ∧ ∃ f, r' = .ok (p.1.map Result.code, f) ∧ Leaves holds s p.2 a f)
    (fun e => r' = .error e) r

theorem LoopAgrees.trans {a : Addr} {f : FindT} {r : Except Fault (Option (Result σ Unit) × Dos σ)}
    {r' : Except Fault (Option (BitVec 32) × FindT)} (h : Leaves holds s t a f)
    (h' : LoopAgrees holds t a r r')
    : LoopAgrees holds s a r r' := by
  apply h'.imp
  rintro p ⟨hstate, g, hr, hleaves⟩
  exact ⟨hstate, g, hr, h.trans hleaves⟩

theorem Agrees.trans {a : Addr} {f : FindT} {r : Except Fault (Result σ Unit)}
    {r' : Except Fault (BitVec 32 × FindT)} (h : Leaves holds s t a f) (h' : Agrees holds t a r r')
    : Agrees holds s a r r' := by
  apply h'.imp
  rintro p ⟨g, hr, hleaves⟩
  exact ⟨g, hr, h.trans hleaves⟩

theorem findnextMatch_agrees (px : Posix σ) (hos : holds s.os) (a : Addr) (filename : String)
    (attrib : BitVec 32) (st : Stat)
    : (findnextMatch px a filename attrib st s).code
          = (Files.findnextMatch px.localtime filename attrib st (s.findT a)).1
        ∧ Leaves holds s (findnextMatch px a filename attrib st s).state a
          (Files.findnextMatch px.localtime filename attrib st (s.findT a)).2 := by
  have hattrib := Leaves.modifyFindT (a := a) hos fun f => { f with attrib := attrib }
  unfold findnextMatch Files.findnextMatch dostimeInt
  dsimp only
  cases px.localtime st.mtime with
  | none =>
    constructor
    . exact exterrSet_code _ _ (by decide)
    . exact hattrib.quiet (exterrSet_quiet _ _ _) hos
  | some tm =>
    refine ⟨rfl, ?_⟩
    have hmatch := Leaves.modifyFindT (a := a) hattrib.holds fun f =>
      { f with
        wrDate := dostimeIntDate tm
        wrTime := dostimeIntTime tm
        size := st.size
        name := memccpy f.name filename
        _glPathi := f._glPathi + 1 }
    have := hattrib.trans hmatch
    rwa [hattrib.findT_same] at this

theorem findnextLoop_agrees (hfs : fs.Unchanged px holds) (a : Addr) (left : Nat) (s : Dos σ)
    (hos : holds s.os)
    : LoopAgrees holds s a (findnextLoop px a left s)
        (fs.findnextLoop px.localtime left (s.findT a)) := by
  induction left generalizing s with
  | zero => exact ⟨by simp, _, rfl, .of_quiet (.refl s) hos⟩
  | succ left ih =>
    cases hpathv : (s.findT a).glPathv with
    | none =>
      unfold findnextLoop Files.findnextLoop
      rw [hpathv]
      rfl
    | some pathv =>
      cases hfilename : pathv[(s.findT a)._glPathi]? with
      | none =>
        unfold findnextLoop Files.findnextLoop
        rw [hpathv]
        dsimp only
        rw [hfilename]
        rfl
      | some filename =>
        obtain ⟨f, hattr, hloop⟩ | ⟨t, found, hround, hloop⟩ :=
          findnextLoop_round px left hpathv hfilename
        . rw [hloop, Files.findnextLoop, hpathv]
          dsimp only
          rw [hfilename]
          dsimp only
          rw [(getfileattr_agrees hfs hos filename).of_error hattr]
          rfl
        . obtain ⟨hos', hobject⟩ := hround.agrees hfs hos hpathv hfilename left
          have hquiet := Leaves.of_quiet (a := a) hround.quiet hos'
          rw [hloop, hobject]
          cases found with
          | none =>
            have hleaves := hquiet.trans (Leaves.modifyFindT hos' FindT.next)
            have hnext := ih _ hleaves.holds
            rw [hleaves.findT_same, hround.quiet.findT] at hnext
            exact hnext.trans hleaves
          | some entry =>
            have hmatch := findnextMatch_agrees px hos' a filename entry.1 entry.2
            rw [hround.quiet.findT] at hmatch
            obtain ⟨hcode, hleaves⟩ := hmatch
            refine ⟨by simp, _, ?_, hquiet.trans hleaves⟩
            dsimp only [afterRound, Option.map_some]
            rw [hcode]

theorem findnext_agrees (hfs : fs.Unchanged px holds) (hos : holds s.os)
    : Agrees holds s s.currentDta (findnext px s)
        (fs.findnext px.localtime (s.findT s.currentDta)) := by
  have hloop := findnextLoop_agrees hfs s.currentDta
    ((s.findT s.currentDta).glPathc - (s.findT s.currentDta)._glPathi) s hos
  unfold findnext Files.findnext
  dsimp only
  cases hr : findnextLoop px s.currentDta
      ((s.findT s.currentDta).glPathc - (s.findT s.currentDta)._glPathi) s with
  | error e =>
    rw [hloop.of_error hr]
    rfl
  | ok p =>
    obtain ⟨hstate, f, hf, hleaves⟩ := hloop.of_ok hr
    rw [hf]
    obtain ⟨ret, t⟩ := p
    cases ret with
    | some r =>
      refine ⟨f, rfl, ?_⟩
      rw [hstate r rfl]
      exact hleaves
    | none =>
      dsimp only [Option.map_none] at hleaves ⊢
      rw [hleaves.findT_same]
      split
      . refine ⟨{ f with glPathv := none }, ?_, ?_⟩
        . rw [exterrSet_code _ _ (by decide)]
          rfl
        . have hfree := Leaves.modifyFindT (a := s.currentDta) hleaves.holds fun f =>
            { f with glPathv := none }
          have := hleaves.trans hfree
          rw [hleaves.findT_same] at this
          exact this.quiet (.trans (.setErrorinfo _ _) (exterrSet_quiet _ _ _)) hleaves.holds
      . rfl

/--
What `findfirst` makes of an error that `glob` has reported to its callback.
-/
def ErrfuncAgrees (e : Errno) (t : Dos σ) : Prop :=
  Meets
    (fun r : Result σ Unit => Files.errfunc e = .ok r.code ∧ t.Quiet r.state ∧ r.state.os = t.os)
    (fun f => Files.errfunc e = .error f) (failed t)

theorem errfuncAgrees_of_errno_none (he : t.errno = none)
    (hcode : Files.errfunc e = .ok t.errorinfo.exterror)
    : ErrfuncAgrees e t := by
  unfold ErrfuncAgrees failed
  rw [dosixDosexterr_of_errno_none he]
  exact ⟨hcode, .refl t, rfl⟩

theorem errfuncAgrees_of_errno (he : t.errno = some e) (hcode : Files.errfunc e = Files.failure e)
    : ErrfuncAgrees e t := by
  unfold ErrfuncAgrees
  rw [hcode]
  cases hf : Files.failure e with
  | error f =>
    rw [failed_of_failure_error he hf]
    rfl
  | ok code =>
    obtain ⟨info, hfailed, -⟩ := failed_of_failure_ok (α := Unit) he hf
    rw [hfailed]
    exact ⟨rfl, .setErrorinfo t info, rfl⟩

theorem errfunc_agrees (e : Errno) (s : Dos σ) (herrno : t.errno = (errfunc e s).errno)
    (hinfo : t.errorinfo = (errfunc e s).errorinfo)
    : ErrfuncAgrees e t := by
  cases e
  case EACCES => exact errfuncAgrees_of_errno_none herrno (by rw [hinfo]; rfl)
  case ENOENT => exact errfuncAgrees_of_errno_none herrno (by rw [hinfo]; rfl)
  case EIO => exact errfuncAgrees_of_errno_none herrno (by rw [hinfo]; rfl)
  all_goals exact errfuncAgrees_of_errno herrno rfl

theorem globbed_leaves (hos : holds s.os) (a : Addr) (paths : List String)
    : Leaves holds s (globfree (globbed s a paths) a) a
        { s.findT a with glPathc := paths.length, glPathv := none } := by
  have hglobbed := Leaves.modifyFindT (a := a) hos fun f =>
    { f with glPathc := paths.length, glPathv := some paths }
  have hfree := Leaves.modifyFindT (a := a) hglobbed.holds fun f => { f with glPathv := none }
  have := hglobbed.trans hfree
  rwa [hglobbed.findT_same] at this

theorem globbed_start (hos : holds s.os) (a : Addr) (paths : List String) (attrib : BitVec 32)
    : Leaves holds s
        ((globbed s a paths).modifyFindT a fun f => { f with _glPathi := 0, _attrib := attrib }) a
        { s.findT a with
          glPathc := paths.length
          glPathv := some paths
          _glPathi := 0
          _attrib := attrib } := by
  have hglobbed := Leaves.modifyFindT (a := a) hos fun f =>
    { f with glPathc := paths.length, glPathv := some paths }
  have := hglobbed.trans (Leaves.modifyFindT hglobbed.holds fun f =>
    { f with _glPathi := 0, _attrib := attrib })
  rwa [hglobbed.findT_same] at this

theorem errfunc_os (e : Errno) (s : Dos σ) : (errfunc e s).os = s.os := by
  cases e
  all_goals rfl

theorem aborted_agrees (hos : holds s.os) (e : Errno) (a : Addr) (paths : List String)
    : Agrees holds s a (failed (globfree (globbed (errfunc e s) a paths) a))
        ((Files.errfunc e).map fun code =>
          (code, { s.findT a with glPathc := paths.length, glPathv := none })) := by
  have herrfunc := errfunc_quiet e s
  have hos' : holds (errfunc e s).os := errfunc_os e s ▸ hos
  have hfree := (Leaves.of_quiet (a := a) herrfunc hos').trans (globbed_leaves hos' a paths)
  rw [herrfunc.findT] at hfree
  have hagrees := errfunc_agrees (e := e) (s := s)
    (t := globfree (globbed (errfunc e s) a paths) a) rfl rfl
  apply Meets.mono hagrees
  . rintro r ⟨hcode, hquiet, hos''⟩
    rw [hcode]
    exact ⟨_, rfl, hfree.quiet hquiet (hos'' ▸ hos')⟩
  . intro f hf
    rw [hf]
    rfl

theorem findfirst_agrees (hfs : fs.Unchanged px holds) (hos : holds s.os) (filename : CString)
    (attrib : BitVec 32)
    : Agrees holds s s.currentDta (findfirst px filename attrib s)
        (fs.findfirst px.localtime filename attrib (s.findT s.currentDta)) := by
  cases filename with
  | none => rfl
  | some filename =>
    obtain ⟨hglob, hos'⟩ := hfs.glob filename s.os hos
    unfold findfirst Files.findfirst
    dsimp only
    rw [if_neg (by simp)]
    cases hcall : px.glob (some filename) s.os with
    | mk answer os =>
      rw [hcall] at hglob hos'
      dsimp only at hglob hos'
      subst hglob
      have hquiet : Leaves holds s (s.setOs os) s.currentDta (s.findT s.currentDta) :=
        .of_quiet (.setOs s os) hos'
      generalize fs.glob filename = answer
      rcases answer with paths | ⟨e, paths⟩ | _ | paths
      . dsimp only
        split
        . have hstart := hquiet.trans (globbed_start (s := s.setOs os) hos' s.currentDta paths attrib)
          have hnext := findnext_agrees hfs hstart.holds
          rw [hstart.currentDta, hstart.findT_same] at hnext
          exact hnext.trans hstart
        . rfl
      . exact (aborted_agrees (s := s.setOs os) hos' e s.currentDta paths).trans hquiet
      . exact ⟨_, rfl, (hquiet.trans (globbed_leaves hos' s.currentDta [])).quiet
          (exterrSet_quiet _ _ _) hos'⟩
      . exact ⟨_, rfl, (hquiet.trans (globbed_leaves hos' s.currentDta paths)).quiet
          (exterrSet_quiet _ _ _) hos'⟩

/--
What the C functions do after the search on their object: they put the DTA address back.
-/
def restoreDta (s : Dos σ) (ret : Except Fault (Result σ Unit)) : Except Fault (Result σ Unit) :=
  ret.map fun r =>
    ⟨r.code, r.out,
      if r.code ≠ 0 then (setDtaAddr (getDtaAddr s) r.state).setErrno (some .ENOENT)
      else setDtaAddr (getDtaAddr s) r.state⟩

theorem dosixDosFindnext_eq (px : Posix σ) (a : Addr) (s : Dos σ)
    : dosixDosFindnext px a s = restoreDta s (findnext px (setDtaAddr a s)) := by
  unfold dosixDosFindnext restoreDta
  cases findnext px (setDtaAddr a s)
  all_goals rfl

theorem dosixDosFindfirst_eq (px : Posix σ) (filename : CString) (attrib : BitVec 32) (a : Addr)
    (s : Dos σ)
    : dosixDosFindfirst px filename attrib a s
        = restoreDta s (findfirst px filename attrib (setDtaAddr a s)) := by
  unfold dosixDosFindfirst restoreDta
  cases findfirst px filename attrib (setDtaAddr a s)
  all_goals rfl

theorem agrees_restoreDta {a : Addr} {ret : Except Fault (Result σ Unit)}
    {r' : Except Fault (BitVec 32 × FindT)} (h : Agrees holds (setDtaAddr a s) a ret r')
    : Agrees holds s a (restoreDta s ret) r' := by
  unfold restoreDta Agrees
  rw [meets_map]
  apply Meets.imp h
  rintro r ⟨f, hf, hleaves⟩
  have hrestored : Leaves holds s (setDtaAddr (getDtaAddr s) r.state) a f :=
    ⟨hleaves.findT, rfl, hleaves.holds⟩
  refine ⟨f, hf, ?_⟩
  dsimp only
  split
  . exact hrestored.quiet (.setErrno _ _) hrestored.holds
  . exact hrestored

theorem dosixDosFindnext_agrees (hfs : fs.Unchanged px holds) (hos : holds s.os) (a : Addr)
    : Agrees holds s a (dosixDosFindnext px a s) (fs.findnext px.localtime (s.findT a)) := by
  rw [dosixDosFindnext_eq]
  exact agrees_restoreDta (findnext_agrees hfs (s := setDtaAddr a s) hos)

theorem dosixDosFindfirst_agrees (hfs : fs.Unchanged px holds) (hos : holds s.os) (a : Addr)
    (filename : CString) (attrib : BitVec 32)
    : Agrees holds s a (dosixDosFindfirst px filename attrib a s)
        (fs.findfirst px.localtime filename attrib (s.findT a)) := by
  rw [dosixDosFindfirst_eq]
  exact agrees_restoreDta (findfirst_agrees hfs (s := setDtaAddr a s) hos filename attrib)

theorem restoreDta_dta (s : Dos σ) (ret : Except Fault (Result σ Unit))
    : Meets (fun r => getDtaAddr r.state = getDtaAddr s) (fun _ => True) (restoreDta s ret) := by
  unfold restoreDta
  rw [meets_map]
  cases ret with
  | error f => trivial
  | ok r =>
    rw [meets_ok]
    split
    . rfl
    . rfl

end

end Dosix
