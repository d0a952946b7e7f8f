import Dosix.Dos.Impl.Interrupt
import Dosix.Dos.Lemmas.ExtErr

/-!
This module contains the consistency of the state of a directory search over whole runs, and where
the code breaks it.
-/

namespace Dosix

open Transition

variable {σ : Type}

theorem getfileattr_quiet (px : Posix σ) (path : CString) (s : Dos σ)
    : Meets (fun r => s.Quiet r.state) (· = .unreachable) (dosixDosGetfileattr px path s) := by
  unfold dosixDosGetfileattr
  split
  . next t ht => exact (failed_quiet t).imp fun r hr => (Dos.Quiet.of_call ht).trans hr
  . next fs t ht =>
    have hstat := Dos.Quiet.of_call ht
    split
    . exact hstat
    . dsimp only
      split
      . next u hu => exact hstat.trans (.of_call hu)
      . next u hu =>
        have haccess := hstat.trans (.of_call hu)
        split
        . exact haccess
        . exact haccess
        . exact (failed_quiet u).imp fun r hr => haccess.trans hr

namespace Dos

variable {a : Addr}

@[simp]
theorem modifyFindT_findT (s : Dos σ) (a : Addr) (f : FindT → FindT)
    : (s.modifyFindT a f).findT a = f (s.findT a) := by
  simp [modifyFindT]

@[simp]
theorem modifyFindT_currentDta (s : Dos σ) (a : Addr) (f : FindT → FindT)
    : (s.modifyFindT a f).currentDta = s.currentDta := rfl

/--
The vector of the search at `a` can be read, and the position in it is none past its end.
-/
def Live (s : Dos σ) (a : Addr) : Prop :=
  ∃ pathv, (s.findT a).glPathv = some pathv ∧ pathv.length = (s.findT a).glPathc
    ∧ (s.findT a)._glPathi ≤ (s.findT a).glPathc

def AtEnd (s : Dos σ) (a : Addr) : Prop :=
  (s.findT a)._glPathi = (s.findT a).glPathc

instance (s : Dos σ) (a : Addr) : Decidable (s.AtEnd a) :=
  inferInstanceAs (Decidable (_ = _))

structure SameScan (s t : Dos σ) (a : Addr) : Prop where
  glPathv : (t.findT a).glPathv = (s.findT a).glPathv
  glPathc : (t.findT a).glPathc = (s.findT a).glPathc
  currentDta : t.currentDta = s.currentDta

namespace SameScan

theorem trans {s t u : Dos σ} (hst : SameScan s t a) (htu : SameScan t u a) : SameScan s u a where
  glPathv := htu.glPathv.trans hst.glPathv
  glPathc := htu.glPathc.trans hst.glPathc
  currentDta := htu.currentDta.trans hst.currentDta

theorem of_quiet {s t : Dos σ} (h : s.Quiet t) (a : Addr) : SameScan s t a where
  glPathv := by rw [h.findT]
  glPathc := by rw [h.findT]
  currentDta := h.currentDta

end SameScan
end Dos

open Dos

theorem dostimeInt_quiet (px : Posix σ) (utime : Int) (s : Dos σ)
    : s.Quiet (dostimeInt px utime s).state := by
  unfold dostimeInt
  split
  . apply exterrSet_quiet
  . exact .refl s

theorem dostimeInt_code (px : Posix σ) (utime : Int) (s : Dos σ)
    : (dostimeInt px utime s).code = 0 ∨ (dostimeInt px utime s).code = EXTERR_BAD_ARGUMENTS := by
  unfold dostimeInt
  split
  . exact .inr (exterrSet_code _ _ (by decide))
  . exact .inl rfl

theorem findnextMatch_spec (px : Posix σ) (cdta : Addr) (filename : String) (attrib : BitVec 32)
    (fs : Stat) (s : Dos σ)
    : SameScan s (findnextMatch px cdta filename attrib fs s).state cdta
      ∧ (findnextMatch px cdta filename attrib fs s).code ≠ EXTERR_NO_MORE_FILES
      ∧ ((findnextMatch px cdta filename attrib fs s).state.findT cdta)._glPathi
        ≤ (s.findT cdta)._glPathi + 1 := by
  unfold findnextMatch
  dsimp only
  have hquiet := dostimeInt_quiet px fs.mtime (s.modifyFindT cdta fun f => { f with attrib := attrib })
  have hfindT := hquiet.findT
  have hdta := hquiet.currentDta
  have hcode := dostimeInt_code px fs.mtime (s.modifyFindT cdta fun f => { f with attrib := attrib })
  split
  . next h =>
    rw [h] at hfindT hdta hcode
    dsimp only at hfindT hdta hcode
    refine ⟨⟨?_, ?_, hdta⟩, ?_, ?_⟩
    . simp [hfindT]
    . simp [hfindT]
    . intro (hmore : _ = EXTERR_NO_MORE_FILES)
      rcases hcode with hcode | hcode
      . exact absurd (hcode.symm.trans hmore) (by decide)
      . exact absurd (hcode.symm.trans hmore) (by decide)
    . simp [hfindT]
  . next h =>
    rw [h] at hfindT hdta
    dsimp only at hfindT hdta
    refine ⟨⟨?_, ?_, hdta⟩, ?_, ?_⟩
    . simp [hfindT]
    . simp [hfindT]
    . change (0 : BitVec 32) ≠ EXTERR_NO_MORE_FILES
      decide
    . simp [hfindT]

/--
What the loop of `findnext` leaves: it has either come to the end of the vector, or returned from a
position before it.
-/
def Scanned (cdta : Addr) (s : Dos σ) (p : Option (Result σ Unit) × Dos σ) : Prop :=
  SameScan s p.2 cdta ∧
    match p.1 with
    | none => p.2.AtEnd cdta
    | some r => r.state = p.2 ∧ r.code ≠ EXTERR_NO_MORE_FILES
      ∧ (p.2.findT cdta)._glPathi ≤ (p.2.findT cdta).glPathc

theorem Dos.SameScan.next {s t : Dos σ} (h : s.Quiet t) (cdta : Addr)
    : SameScan s (t.modifyFindT cdta fun f => { f with _glPathi := f._glPathi + 1 }) cdta := by
  refine ⟨?_, ?_, h.currentDta⟩
  all_goals simp [h.findT]

/--
What a round of the loop of `findnext` does about a file: the state that it leads to, and the
attributes and the status of the file if it is the one that is found.
-/
inductive Round (px : Posix σ) (cdta : Addr) (filename : String) (s : Dos σ)
    : Dos σ → Option (BitVec 32 × Stat) → Prop where
  | refused {code : BitVec 32} {attrib : Option (BitVec 32)} {t : Dos σ}
      (hattr : dosixDosGetfileattr px (some filename) s = .ok ⟨code, attrib, t⟩) (hcode : code ≠ 0)
      : Round px cdta filename s t none
  | gone {attrib : Option (BitVec 32)} {t u : Dos σ}
      (hattr : dosixDosGetfileattr px (some filename) s = .ok ⟨0, attrib, t⟩)
      (hstat : t.call (px.stat (some filename)) = (none, u))
      : Round px cdta filename s u none
  | passed {attrib : Option (BitVec 32)} {t u : Dos σ} {fs : Stat}
      (hattr : dosixDosGetfileattr px (some filename) s = .ok ⟨0, attrib, t⟩)
      (hstat : t.call (px.stat (some filename)) = (some fs, u))
      (hmatches : ¬ (u.findT cdta).matches (attrib.getD (px.uninit.setWidth 32)) fs.mode)
      : Round px cdta filename s u none
  | matched {attrib : Option (BitVec 32)} {t u : Dos σ} {fs : Stat}
      (hattr : dosixDosGetfileattr px (some filename) s = .ok ⟨0, attrib, t⟩)
      (hstat : t.call (px.stat (some filename)) = (some fs, u))
      (hmatches : (u.findT cdta).matches (attrib.getD (px.uninit.setWidth 32)) fs.mode)
      : Round px cdta filename s u (some (attrib.getD (px.uninit.setWidth 32), fs))

theorem Round.quiet {px : Posix σ} {cdta : Addr} {filename : String} {s t : Dos σ}
    {found : Option (BitVec 32 × Stat)} (h : Round px cdta filename s t found) : s.Quiet t := by
  have hquiet := getfileattr_quiet px (some filename) s
  cases h with
  | refused hattr => exact hquiet.of_ok hattr
  | gone hattr hstat => exact (hquiet.of_ok hattr).trans (.of_call hstat)
  | passed hattr hstat => exact (hquiet.of_ok hattr).trans (.of_call hstat)
  | matched hattr hstat => exact (hquiet.of_ok hattr).trans (.of_call hstat)

/--
How the loop goes on after a round.
-/
def afterRound (px : Posix σ) (cdta : Addr) (left : Nat) (filename : String) (t : Dos σ)
    (found : Option (BitVec 32 × Stat)) : Except Fault (Option (Result σ Unit) × Dos σ) :=
  match found with
  | none =>
    findnextLoop px cdta left (t.modifyFindT cdta fun f => { f with _glPathi := f._glPathi + 1 })
  | some (attrib, fs) =>
    .ok (some (findnextMatch px cdta filename attrib fs t),
      (findnextMatch px cdta filename attrib fs t).state)

theorem findnextLoop_round (px : Posix σ) {cdta : Addr} (left : Nat) {s : Dos σ}
    {pathv : List String} {filename : String} (hpathv : (s.findT cdta).glPathv = some pathv)
    (hfilename : pathv[(s.findT cdta)._glPathi]? = some filename)
    : (∃ f, dosixDosGetfileattr px (some filename) s = .error f
          ∧ findnextLoop px cdta (left + 1) s = .error f)
      ∨ ∃ t found, Round px cdta filename s t found
          ∧ findnextLoop px cdta (left + 1) s = afterRound px cdta left filename t found := by
  have hloop : findnextLoop px cdta (left + 1) s = findnextLoop px cdta (left + 1) s := rfl
  conv at hloop =>
    rhs
    unfold findnextLoop
  rw [hpathv] at hloop
  dsimp only at hloop
  rw [hfilename] at hloop
  dsimp only at hloop
  rw [hloop]
  cases hattr : dosixDosGetfileattr px (some filename) s with
  | error f => exact .inl ⟨f, rfl, rfl⟩
  | ok r =>
    obtain ⟨code, attrib, t⟩ := r
    right
    dsimp only
    by_cases hcode : code = 0
    . subst hcode
      rw [if_neg (not_not.mpr rfl)]
      cases hstat : t.call (px.stat (some filename)) with
      | mk fs u =>
        cases fs with
        | none => exact ⟨u, none, .gone hattr hstat, rfl⟩
        | some fs =>
          dsimp only
          split
          . next hmatches => exact ⟨u, _, .matched hattr hstat hmatches, rfl⟩
          . next hmatches => exact ⟨u, none, .passed hattr hstat hmatches, rfl⟩
    . rw [if_pos hcode]
      exact ⟨t, none, .refused hattr hcode, rfl⟩

theorem findnextLoop_ok {px : Posix σ} {cdta : Addr} {left : Nat} {s : Dos σ}
    {p : Option (Result σ Unit) × Dos σ} (h : findnextLoop px cdta (left + 1) s = .ok p)
    : ∃ pathv filename t found, (s.findT cdta).glPathv = some pathv
        ∧ pathv[(s.findT cdta)._glPathi]? = some filename ∧ Round px cdta filename s t found
        ∧ afterRound px cdta left filename t found = .ok p := by
  cases hpathv : (s.findT cdta).glPathv with
  | none => simp [findnextLoop, hpathv] at h
  | some pathv =>
    cases hfilename : pathv[(s.findT cdta)._glPathi]? with
    | none => simp [findnextLoop, hpathv, hfilename] at h
    | some filename =>
      rcases findnextLoop_round px left hpathv hfilename with
        ⟨f, -, hloop⟩ | ⟨t, found, hround, hloop⟩
      . rw [hloop] at h
        cases h
      . exact ⟨pathv, filename, t, found, rfl, hfilename, hround, hloop ▸ h⟩

theorem findnextLoop_spec (px : Posix σ) {cdta : Addr} {pathv : List String} {left : Nat}
    {s : Dos σ} (hpathv : (s.findT cdta).glPathv = some pathv)
    (hlength : pathv.length = (s.findT cdta).glPathc)
    (hleft : (s.findT cdta)._glPathi + left = (s.findT cdta).glPathc)
    : Meets (Scanned cdta s) (· = .unreachable) (findnextLoop px cdta left s) := by
  induction left generalizing s with
  | zero => exact ⟨⟨rfl, rfl, rfl⟩, hleft⟩
  | succ left ih =>
    have hlt : (s.findT cdta)._glPathi < pathv.length := by omega
    rcases findnextLoop_round px left hpathv (List.getElem?_eq_getElem hlt) with
      ⟨f, hattr, hloop⟩ | ⟨t, found, hround, hloop⟩
    . rw [hloop]
      exact (getfileattr_quiet px _ s).of_error hattr
    have ht := hround.quiet
    rw [hloop]
    cases found with
    | none =>
      have hsame := SameScan.next ht cdta
      apply (ih _ _ _).imp
      . intro p h
        exact ⟨hsame.trans h.1, h.2⟩
      . rw [hsame.glPathv, hpathv]
      . rw [hsame.glPathc, hlength]
      . simp only [modifyFindT_findT, ht.findT]
        omega
    | some found =>
      have hmatch := findnextMatch_spec px cdta pathv[(s.findT cdta)._glPathi] found.1 found.2 t
      have hsame := (SameScan.of_quiet ht cdta).trans hmatch.1
      refine ⟨hsame, rfl, hmatch.2.1, ?_⟩
      rw [hsame.glPathc]
      have := hmatch.2.2
      rw [ht.findT] at this
      dsimp only
      omega

theorem findnext_atEnd (px : Posix σ) {s : Dos σ} (h : s.AtEnd s.currentDta)
    : ∃ r, findnext px s = .ok r ∧ r.code = EXTERR_NO_MORE_FILES ∧ r.state.AtEnd s.currentDta
        ∧ r.state.currentDta = s.currentDta := by
  have hleft : (s.findT s.currentDta).glPathc - (s.findT s.currentDta)._glPathi = 0 := by
    rw [h]
    omega
  unfold findnext
  dsimp only
  rw [hleft]
  unfold findnextLoop
  unfold AtEnd at h ⊢
  dsimp only
  rw [if_pos h]
  refine ⟨_, rfl, rfl, ?_, rfl⟩
  simpa [exterrSet, globfree] using h

theorem findnext_live (px : Posix σ) {s : Dos σ} (h : s.Live s.currentDta)
    : Meets
        (fun r => r.state.currentDta = s.currentDta
          ∧ (r.code ≠ EXTERR_NO_MORE_FILES ∧ r.state.Live s.currentDta
            ∨ r.code = EXTERR_NO_MORE_FILES ∧ r.state.AtEnd s.currentDta))
        (· = .unreachable) (findnext px s) := by
  obtain ⟨pathv, hpathv, hlength, hle⟩ := h
  have hloop := findnextLoop_spec px hpathv hlength
    (Nat.add_sub_of_le hle)
  unfold findnext
  dsimp only
  split
  . next h => exact hloop.of_error h
  . next r t h =>
    obtain ⟨hsame, rfl, hcode, hpathi⟩ := hloop.of_ok h
    refine ⟨hsame.currentDta, .inl ⟨hcode, pathv, ?_, ?_, hpathi⟩⟩
    . rw [hsame.glPathv, hpathv]
    . rw [hsame.glPathc, hlength]
  . next t h =>
    obtain ⟨hsame, hend⟩ := hloop.of_ok h
    unfold AtEnd at hend ⊢
    dsimp only at hend
    rw [if_pos hend]
    refine ⟨hsame.currentDta, .inr ⟨rfl, ?_⟩⟩
    simpa [exterrSet, globfree] using hend

theorem errfunc_error (e : Errno) (s : Dos σ)
    : (errfunc e s).errno = none → (errfunc e s).errorinfo.exterror ≠ 0 := by
  unfold errfunc
  dsimp only
  split
  . intro _
    change EXTERR_ACCESS_DENIED ≠ 0
    decide
  . intro _
    change EXTERR_PATH_NOT_FOUND ≠ 0
    decide
  . intro _
    change EXTERR_READ_FAULT ≠ 0
    decide
  . intro h
    simp at h

theorem errfunc_quiet (e : Errno) (s : Dos σ) : s.Quiet (errfunc e s) := by
  unfold errfunc
  dsimp only
  split
  . apply exterrSet_quiet
  . apply exterrSet_quiet
  . apply exterrSet_quiet
  . apply Quiet.setErrno

theorem findfirst_spec (px : Posix σ) (filename : CString) (attrib : BitVec 32) (s : Dos σ)
    (hglob : ∀ os paths os', px.glob filename os = (.success paths, os') → paths ≠ [])
    : Meets
        (fun r => r.state.currentDta = s.currentDta
          ∧ (r.code = 0 → r.state.Live s.currentDta))
        (· = .unreachable) (findfirst px filename attrib s) := by
  unfold findfirst
  dsimp only
  split
  . rfl
  split
  . next paths os h =>
    have hpos : 0 < paths.length := List.length_pos_iff.mpr (hglob s.os paths os h)
    rw [if_pos hpos]
    have hlive := findnext_live px (s := (globbed (s.setOs os) s.currentDta paths).modifyFindT
      s.currentDta fun f => { f with _glPathi := 0, _attrib := attrib }) (by
        refine ⟨paths, ?_, ?_, ?_⟩
        all_goals simp [globbed])
    apply hlive.imp
    intro r ⟨hdta, h⟩
    refine ⟨hdta, ?_⟩
    intro hcode
    rcases h with ⟨_, hlive⟩ | ⟨hmore, _⟩
    . exact hlive
    . rw [hcode] at hmore
      simp [EXTERR_NO_MORE_FILES] at hmore
  . next e paths os h =>
    have hquiet := errfunc_quiet e (s.setOs os)
    have hfailed := failed_quiet (α := Unit)
      (globfree (globbed (errfunc e (s.setOs os)) s.currentDta paths) s.currentDta)
    have hcode := failed_code_ne_zero (α := Unit)
      (s := globfree (globbed (errfunc e (s.setOs os)) s.currentDta paths) s.currentDta)
      (errfunc_error e (s.setOs os))
    cases hr : failed (α := Unit)
        (globfree (globbed (errfunc e (s.setOs os)) s.currentDta paths) s.currentDta) with
    | error f => exact hcode.of_error hr
    | ok r =>
      refine ⟨(hfailed.of_ok hr).currentDta.trans hquiet.currentDta, ?_⟩
      intro hzero
      exact absurd hzero (hcode.of_ok hr)
  . refine ⟨rfl, ?_⟩
    intro hcode
    rw [exterrSet_code _ _ (by decide)] at hcode
    simp [EXTERR_FILE_NOT_FOUND] at hcode
  . refine ⟨rfl, ?_⟩
    intro hcode
    rw [exterrSet_code _ _ (by decide)] at hcode
    simp [EXTERR_INSUF_MEM] at hcode

/--
What a `glob` that fails leaves of the paths that it has collected.
-/
def GlobResult.left (r : GlobResult) : Option (List String) :=
  match r with
  | .success _ => none
  | .aborted _ paths | .nospace paths => some paths
  | .nomatch => some []

/--
A `findfirst` that `glob` refuses leaves the record at its end just if the search before it had gone
through as many paths as `glob` leaves.
-/
theorem findfirst_atEnd_iff (px : Posix σ) {filename : CString} {attrib : BitVec 32} {s : Dos σ}
    {left : List String} (hleft : (px.glob filename s.os).1.left = some left) {r : Result σ Unit}
    (h : findfirst px filename attrib s = .ok r)
    : r.state.AtEnd s.currentDta ↔ (s.findT s.currentDta)._glPathi = left.length := by
  unfold findfirst at h
  dsimp only at h
  split at h
  . cases h
  split at h
  . next paths os hglob =>
    rw [hglob] at hleft
    cases hleft
  . next e paths os hglob =>
    rw [hglob] at hleft
    obtain rfl := Option.some.inj hleft
    have hquiet := (failed_quiet _).of_ok h
    unfold AtEnd
    rw [hquiet.findT]
    simp [globfree, globbed, (errfunc_quiet e (s.setOs os)).findT]
  . next os hglob =>
    rw [hglob] at hleft
    obtain rfl := Option.some.inj hleft
    obtain rfl := Except.ok.inj h
    simp [AtEnd, exterrSet, globfree, globbed]
  . next paths os hglob =>
    rw [hglob] at hleft
    obtain rfl := Option.some.inj hleft
    obtain rfl := Except.ok.inj h
    simp [AtEnd, exterrSet, globfree, globbed]

/-! The functions and the services. -/

theorem Dos.Live.congr {s t : Dos σ} {a : Addr} (h : s.Live a) (ht : t.findT = s.findT)
    : t.Live a := by
  unfold Live
  rw [ht]
  exact h

theorem Dos.AtEnd.congr {s t : Dos σ} {a : Addr} (h : s.AtEnd a) (ht : t.findT = s.findT)
    : t.AtEnd a := by
  unfold AtEnd
  rw [ht]
  exact h

section

variable (px : Posix σ) {a : Addr} {s : Dos σ}

theorem dosixDosFindfirst_spec (filename : CString) (attrib : BitVec 32) (a : Addr) (s : Dos σ)
    (hglob : ∀ os paths os', px.glob filename os = (.success paths, os') → paths ≠ [])
    : Meets
        (fun r => r.state.currentDta = s.currentDta ∧ (r.code = 0 → r.state.Live a))
        (· = .unreachable) (dosixDosFindfirst px filename attrib a s) := by
  have hfind := findfirst_spec px filename attrib (setDtaAddr a s) hglob
  unfold dosixDosFindfirst
  dsimp only
  split
  . next h => exact hfind.of_error h
  . next ret out t h =>
    obtain ⟨-, hlive⟩ := hfind.of_ok h
    refine ⟨?_, fun hcode => (hlive hcode).congr ?_⟩
    all_goals
      dsimp only
      split
      all_goals rfl

theorem dosixDosFindnext_live (h : s.Live a)
    : Meets
        (fun r => r.state.currentDta = s.currentDta
          ∧ (r.code ≠ EXTERR_NO_MORE_FILES ∧ r.state.Live a
            ∨ r.code = EXTERR_NO_MORE_FILES ∧ r.state.AtEnd a))
        (· = .unreachable) (dosixDosFindnext px a s) := by
  have hfind := findnext_live px (s := setDtaAddr a s) h
  unfold dosixDosFindnext
  dsimp only
  split
  . next h => exact hfind.of_error h
  . next ret out t h =>
    obtain ⟨-, hnext⟩ := hfind.of_ok h
    constructor
    . dsimp only
      split
      all_goals rfl
    . apply hnext.imp
      . intro ⟨hcode, hlive⟩
        refine ⟨hcode, hlive.congr ?_⟩
        dsimp only
        split
        all_goals rfl
      . intro ⟨hcode, hend⟩
        refine ⟨hcode, hend.congr ?_⟩
        dsimp only
        split
        all_goals rfl

theorem dosixDosFindnext_atEnd (h : s.AtEnd a)
    : Meets
        (fun r => r.state.currentDta = s.currentDta ∧ r.code = EXTERR_NO_MORE_FILES
          ∧ r.state.AtEnd a)
        (· = .unreachable) (dosixDosFindnext px a s) := by
  obtain ⟨⟨ret, out, t⟩, hfind, hcode, hend, -⟩ := findnext_atEnd px (s := setDtaAddr a s) h
  unfold dosixDosFindnext
  dsimp only
  rw [hfind]
  dsimp only
  refine ⟨?_, hcode, hend.congr ?_⟩
  all_goals
    dsimp only
    split
    all_goals rfl

theorem int21_findfirst {cpu : Cpu} (h : cpu.ah = INT21_AH_FINDFIRST)
    : int21MainDosApi px cpu s
        = (findfirst px (px.cstring s.os (MK_FP cpu.ds cpu.dx)) (cpu.cx.setWidth 32) s).map
          fun r => (cpu.setCode r.code, r.state) := by
  have hservice : int21Service px cpu = some (cpuFindfirst px) := by
    unfold int21Service
    rw [h]
    rfl
  unfold int21MainDosApi callSyscall
  rw [hservice]
  unfold cpuFindfirst
  dsimp only
  rw [assertThat_of h]
  rfl

theorem int21_findnext {cpu : Cpu} (h : cpu.ah = INT21_AH_FINDNEXT)
    : int21MainDosApi px cpu s
        = (findnext px s).map fun r => (cpu.setCode r.code, r.state) := by
  have hservice : int21Service px cpu = some (cpuFindnext px) := by
    unfold int21Service
    rw [h]
    rfl
  unfold int21MainDosApi callSyscall
  rw [hservice]
  unfold cpuFindnext
  dsimp only
  rw [assertThat_of h]
  rfl

end

theorem Cpu.setCode_ax_setWidth (cpu : Cpu) (code : BitVec 32)
    : (cpu.setCode code).ax.setWidth 32 = code := by
  unfold setCode
  dsimp only
  rw [BitVec.setWidth_setWidth_of_le _ (by omega)]
  simp

/-! Runs of a search. -/

inductive SearchCall where
  | findfirst (filename : CString) (attrib : BitVec 32)
  | findnext
  | cpuFindfirst (cpu : Cpu)
  | cpuFindnext (cpu : Cpu)
  deriving Repr, DecidableEq

def SearchCall.isFindfirst (call : SearchCall) : Bool :=
  match call with
  | .findfirst .. => true
  | .cpuFindfirst _ => true
  | _ => false

inductive SearchStatus where
  | live
  | failed
  | exhausted
  deriving Repr, DecidableEq

/--
The state, with what the last `findfirst` and the calls after it have reported: whether the search is
live, and the codes of every `findnext` that was issued when it was not.
-/
structure Search (σ : Type) where
  dos : Dos σ
  status : SearchStatus := .live
  codes : List (BitVec 32) := []

namespace Search

def afterFindfirst (t : Search σ) (code : BitVec 32) (s : Dos σ) : Search σ :=
  { t with dos := s, status := if code = 0 then .live else .failed }

def afterFindnext (t : Search σ) (code : BitVec 32) (s : Dos σ) : Search σ :=
  match t.status with
  | .live => { t with dos := s, status := if code = EXTERR_NO_MORE_FILES then .exhausted else .live }
  | status => ⟨s, status, t.codes ++ [code]⟩

def step (px : Posix σ) (a : Addr) (t : Search σ) (call : SearchCall)
    : Except Fault (Search σ) :=
  match call with
  | .findfirst filename attrib =>
    (dosixDosFindfirst px filename attrib a t.dos).map fun r => t.afterFindfirst r.code r.state
  | .findnext => (dosixDosFindnext px a t.dos).map fun r => t.afterFindnext r.code r.state
  | .cpuFindfirst cpu =>
    (int21MainDosApi px cpu t.dos).map fun (cpu, s) => t.afterFindfirst (cpu.ax.setWidth 32) s
  | .cpuFindnext cpu =>
    (int21MainDosApi px cpu t.dos).map fun (cpu, s) => t.afterFindnext (cpu.ax.setWidth 32) s

def Valid (a : Addr) (t : Search σ) (call : SearchCall) : Prop :=
  match call with
  | .cpuFindfirst cpu => cpu.ah = INT21_AH_FINDFIRST ∧ t.dos.currentDta = a
  | .cpuFindnext cpu => cpu.ah = INT21_AH_FINDNEXT ∧ t.dos.currentDta = a
  | _ => True

/--
A `findnext` after a failed `findfirst` finds the position at the end of whatever `glob` left.
-/
def FindsEnd (a : Addr) (t : Search σ) (call : SearchCall) : Prop :=
  match call with
  | .findnext => t.status = .failed → t.dos.AtEnd a
  | .cpuFindnext _ => t.status = .failed → t.dos.AtEnd a
  | _ => True

instance (a : Addr) (t : Search σ) (call : SearchCall) : Decidable (t.Valid a call) :=
  match call with
  | .cpuFindfirst _ => inferInstanceAs (Decidable (_ ∧ _))
  | .cpuFindnext _ => inferInstanceAs (Decidable (_ ∧ _))
  | .findfirst .. => .isTrue trivial
  | .findnext => .isTrue trivial

instance (a : Addr) (t : Search σ) (call : SearchCall) : Decidable (t.FindsEnd a call) :=
  match call with
  | .cpuFindnext _ => inferInstanceAs (Decidable (_ → _))
  | .findnext => inferInstanceAs (Decidable (_ → _))
  | .findfirst .. => .isTrue trivial
  | .cpuFindfirst _ => .isTrue trivial

/--
All that was reported to a `findnext` on a search that is not live is that there are no more files.
-/
def NoMoreFiles (t : Search σ) : Prop :=
  ∀ code ∈ t.codes, code = EXTERR_NO_MORE_FILES

structure Inv (a : Addr) (t : Search σ) : Prop where
  live : t.status = .live → t.dos.Live a
  exhausted : t.status = .exhausted → t.dos.AtEnd a
  codes : t.NoMoreFiles

namespace Inv

variable {px : Posix σ} {a : Addr} {t : Search σ}

theorem findfirst (ht : t.NoMoreFiles) {code : BitVec 32} {s : Dos σ} (h : code = 0 → s.Live a)
    : Inv a (t.afterFindfirst code s) := by
  unfold afterFindfirst
  constructor
  . intro hstatus
    apply h
    simpa using hstatus
  . intro hstatus
    dsimp only at hstatus
    split at hstatus
    all_goals simp at hstatus
  . exact ht

theorem findnext_live (ht : t.NoMoreFiles) (hstatus : t.status = .live) {code : BitVec 32}
    {s : Dos σ}
    (h : code ≠ EXTERR_NO_MORE_FILES ∧ s.Live a ∨ code = EXTERR_NO_MORE_FILES ∧ s.AtEnd a)
    : Inv a (t.afterFindnext code s) := by
  unfold afterFindnext
  rw [hstatus]
  dsimp only
  rcases h with ⟨hcode, hlive⟩ | ⟨hcode, hend⟩
  . rw [if_neg hcode]
    exact ⟨fun _ => hlive, fun h => by simp at h, ht⟩
  . rw [if_pos hcode]
    exact ⟨fun h => by simp at h, fun _ => hend, ht⟩

theorem atEnd (ht : Inv a t) (hstatus : t.status ≠ .live) (h : t.status = .failed → t.dos.AtEnd a)
    : t.dos.AtEnd a := by
  cases hs : t.status with
  | live => exact absurd hs hstatus
  | failed => exact h hs
  | exhausted => exact ht.exhausted hs

theorem findnext_atEnd (ht : t.NoMoreFiles) (hstatus : t.status ≠ .live) {code : BitVec 32}
    {s : Dos σ} (hcode : code = EXTERR_NO_MORE_FILES) (h : s.AtEnd a)
    : Inv a (t.afterFindnext code s) := by
  unfold afterFindnext
  split
  . next hlive => exact absurd hlive hstatus
  . refine ⟨fun hlive => absurd hlive hstatus, fun _ => h, ?_⟩
    intro c hc
    rcases List.mem_append.mp hc with hc | hc
    . exact ht c hc
    . rw [List.mem_singleton.mp hc, hcode]

variable (hglob : ∀ filename os paths os',
  px.glob filename os = (.success paths, os') → paths ≠ [])

include hglob

theorem step_findfirst {call : SearchCall} (ht : t.NoMoreFiles) (hvalid : t.Valid a call)
    (hfirst : call.isFindfirst)
    : Meets (Inv a) (· = .unreachable) (step px a t call) := by
  unfold Search.step
  cases call with
  | findfirst filename attrib =>
    dsimp only
    rw [meets_map]
    apply (dosixDosFindfirst_spec px filename attrib a t.dos (hglob filename)).imp
    exact fun r hr => findfirst ht hr.2
  | cpuFindfirst cpu =>
    obtain ⟨hah, hdta⟩ := hvalid
    dsimp only
    rw [int21_findfirst px hah, meets_map, meets_map]
    apply (findfirst_spec px _ _ t.dos (hglob _)).imp
    intro r hr
    dsimp only
    rw [cpu.setCode_ax_setWidth]
    exact findfirst ht (hdta ▸ hr.2)
  | findnext => simp [SearchCall.isFindfirst] at hfirst
  | cpuFindnext cpu => simp [SearchCall.isFindfirst] at hfirst

theorem step {call : SearchCall} (ht : Inv a t) (hvalid : t.Valid a call)
    (hend : t.FindsEnd a call)
    : Meets (Inv a) (· = .unreachable) (step px a t call) := by
  cases call with
  | findfirst => exact step_findfirst hglob ht.codes hvalid rfl
  | cpuFindfirst => exact step_findfirst hglob ht.codes hvalid rfl
  | findnext =>
    unfold Search.step
    dsimp only
    rw [meets_map]
    by_cases hstatus : t.status = .live
    . apply (dosixDosFindnext_live px (ht.live hstatus)).imp
      exact fun r hr => findnext_live ht.codes hstatus hr.2
    . apply (dosixDosFindnext_atEnd px (ht.atEnd hstatus hend)).imp
      exact fun r hr => findnext_atEnd ht.codes hstatus hr.2.1 hr.2.2
  | cpuFindnext cpu =>
    obtain ⟨hah, hdta⟩ := hvalid
    unfold Search.step
    dsimp only
    rw [int21_findnext px hah, meets_map, meets_map]
    dsimp only
    by_cases hstatus : t.status = .live
    . apply (Dosix.findnext_live px (hdta ▸ ht.live hstatus)).imp
      intro r hr
      rw [cpu.setCode_ax_setWidth]
      exact findnext_live ht.codes hstatus (hdta ▸ hr.2)
    . obtain ⟨r, hr, hcode, hatEnd, -⟩ :=
        Dosix.findnext_atEnd px (s := t.dos) (hdta ▸ ht.atEnd hstatus hend)
      rw [hr, meets_ok, cpu.setCode_ax_setWidth]
      exact findnext_atEnd ht.codes hstatus hcode (hdta ▸ hatEnd)

end Inv

/--
The law over whole runs. Such a run reads no vector that has been freed, nor past the end of one,
and fails no assertion but those that mark an impossible branch.
-/
theorem noMoreFiles_of_findsEnd {px : Posix σ} {a : Addr} {s : Dos σ} {first : SearchCall}
    {calls : List SearchCall}
    (hglob : ∀ filename os paths os',
      px.glob filename os = (.success paths, os') → paths ≠ [])
    (hfirst : first.isFindfirst)
    (hcalls : Always (step px a) (fun t call => t.Valid a call ∧ t.FindsEnd a call) ⟨s, .live, []⟩
      (first :: calls))
    : Meets NoMoreFiles (· = .unreachable) (run (step px a) ⟨s, .live, []⟩ (first :: calls)) := by
  obtain ⟨⟨hvalid, -⟩, hcalls⟩ := hcalls
  have hstep := Inv.step_findfirst hglob (t := ⟨s, .live, []⟩) (fun _ h => by simp at h) hvalid hfirst
  unfold run
  cases ht : step px a ⟨s, .live, []⟩ first with
  | error f => exact hstep.of_error ht
  | ok t =>
    rw [ht] at hcalls
    have hrun : Meets (Inv a) (· = .unreachable) (run (step px a) t calls) := by
      apply run_meets _ (hstep.of_ok ht) hcalls
      intro t call hinv hcall
      exact Inv.step hglob hinv hcall.1 hcall.2
    exact hrun.imp fun t h => h.codes

def globKernel (answer : Nat → GlobResult) : Posix Nat where
  __ := (default : Posix Nat)
  glob := fun _ n => (answer n, n + 1)
  stat := fun _ n => (.ok {}, n)
  accessW := fun _ n => (.ok (), n)
  localtime := fun _ => some { mday := 1, year := 80 }

theorem noMoreFiles_of_findsEnd_orderly
    : Meets NoMoreFiles (· = .unreachable)
        (run (step (globKernel fun n => if n = 0 then .success ["A.TXT"] else .nomatch) 0x100)
          ⟨{ os := 0 }, .live, []⟩
          [.findfirst (some "*.TXT") 0, .findnext, .findnext]) := by
  refine noMoreFiles_of_findsEnd ?_ rfl (by decide +kernel)
  intro _ n paths n' h
  simp only [globKernel, Prod.mk.injEq] at h
  split at h
  . simp [← GlobResult.success.inj h.1]
  . simp at h

theorem not_noMoreFiles_staleSearch
    : run (step (globKernel fun n => if n = 0 then .success ["A.TXT"] else .nomatch) 0x100)
        ⟨{ os := 0 }, .live, []⟩
        [.findfirst (some "*.TXT") 0, .findfirst (some "*.COM") 0, .findnext]
        = .error .assertion
      ∧ run (step (globKernel fun _ => .aborted .EACCES ["A/A.TXT"]) 0x100)
        ⟨{ os := 0 }, .live, []⟩
        [.findfirst (some "*/A.TXT") 0, .findnext]
        = .error .undefined :=
  -- a position of an earlier search is left behind, or a vector that has been freed
  ⟨eq_error_of_errorOf (by decide +kernel), eq_error_of_errorOf (by decide +kernel)⟩

end Search
end Dosix
