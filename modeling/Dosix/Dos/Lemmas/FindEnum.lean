import Dosix.Dos.Lemmas.FindObject
import Dosix.Dos.Lemmas.Time
import Dosix.Mask.Basic

/-!
This module contains what a directory search enumerates: the files that match the pattern and pass
the attribute mask, in the order of `glob` and each of them once.
-/

namespace Dosix

open Transition

variable {σ : Type}

/--
What a search reports. The name ends at the first null, or at the end of the array.
-/
structure FindEntry where
  attrib : BitVec 32
  size : Int
  wrDate : BitVec 32
  wrTime : BitVec 32
  name : List UInt8
  deriving Repr, DecidableEq

def FindT.entry (f : FindT) : FindEntry where
  attrib := f.attrib
  size := f.size
  wrDate := f.wrDate
  wrTime := f.wrTime
  name := f.name.takeWhile (· ≠ 0)

/--
A file of this kind passes the attribute mask.
-/
def Passes (mask mode : BitVec 32) : Prop :=
  if S_ISDIR mode then
    mask &&& _A_SUBDIR ≠ 0
  else
    mask = 0
      ∨ mask &&& (_A_RDONLY ||| _A_HIDDEN ||| _A_SYSTEM ||| _A_SUBDIR ||| _A_ARCH) ≠ 0

instance (mask mode : BitVec 32) : Decidable (Passes mask mode) := by
  unfold Passes
  infer_instance

namespace Files

variable (fs : Files) (localtime : Int → Option Tm)

/--
What is to be reported of a file, if anything.
-/
def entry (mask : BitVec 32) (path : String) : Option FindEntry :=
  match fs.getfileattr path, fs.stat path with
  | .ok (some attrib), .ok st =>
    if Passes mask st.mode then
      (localtime st.mtime).map fun tm => {
        attrib := attrib
        size := st.size
        wrDate := dostimeIntDate tm
        wrTime := dostimeIntTime tm
        name := (path.toUTF8.data.toList.take NAME_MAX).takeWhile (· ≠ 0)
      }
    else
      none
  | _, _ => none

/--
The calls on the file fail only with an error that they can have.
-/
structure Listed (path : String) : Prop where
  stat : ∀ e, fs.stat path = .error e → e.doserror ≠ none
  accessW : ∀ e, fs.accessW path = .error e → e.doserror ≠ none

structure Usual (path : String) : Prop extends fs.Listed path where
  localtime : ∀ st, fs.stat path = .ok st → localtime st.mtime ≠ none

end Files

/-! The words. -/

/--
The words of an entry stand for the date and the time of day at which the file was last written.
-/
theorem entry_words {fs : Files} {localtime : Int → Option Tm}
    (hutc : ∀ t, DosTime t → localtime t = some (.ofTime t)) {mask : BitVec 32} {path : String}
    {e : FindEntry} (h : fs.entry localtime mask path = some e) {st : Stat}
    (hst : fs.stat path = .ok st) (ht : DosTime st.mtime)
    : DateWord e.wrDate (Calendar.dateOf st.mtime)
        ∧ TimeWord e.wrTime (evenClock (Calendar.clockOf st.mtime)) := by
  unfold Files.entry at h
  rw [hst] at h
  split at h
  . next hst' =>
    obtain rfl := Except.ok.inj hst'
    split at h
    . rw [hutc _ ht, Option.map_some] at h
      obtain rfl := Option.some.inj h
      exact ⟨dateWord_dostimeIntDate ht, timeWord_dostimeIntTime st.mtime⟩
    . cases h
  . cases h

/-! The mask. -/

theorem failure_map_ne (e : Errno) (attrib : BitVec 32)
    : (Files.failure e).map (fun _ => none) ≠ .ok (some attrib) := by
  cases Files.failure e
  all_goals simp [Except.map]

theorem getfileattr_spec {fs : Files} {path : String} {attrib : BitVec 32} {st : Stat}
    (h : fs.getfileattr path = .ok (some attrib)) (hst : fs.stat path = .ok st)
    : if S_ISDIR st.mode then attrib = _A_SUBDIR
      else attrib = _A_ARCH ∨ attrib = _A_ARCH ||| _A_RDONLY := by
  unfold Files.getfileattr at h
  rw [hst] at h
  dsimp only at h
  split
  . next hdir =>
    rw [if_pos hdir] at h
    injection h with h
    injection h with h
    exact h.symm
  . next hdir =>
    rw [if_neg hdir] at h
    split at h
    . injection h with h
      injection h with h
      exact .inl h.symm
    . injection h with h
      injection h with h
      exact .inr h.symm
    . injection h with h
      injection h with h
      exact .inr h.symm
    . exact absurd h (failure_map_ne _ _)

theorem matches_iff_passes {fs : Files} {path : String} {attrib : BitVec 32} {st : Stat}
    (hattrib : fs.getfileattr path = .ok (some attrib)) (hst : fs.stat path = .ok st) (f : FindT)
    : f.matches attrib st.mode = true ↔ Passes f._attrib st.mode := by
  have hspec := getfileattr_spec hattrib hst
  unfold FindT.matches Passes
  by_cases hdir : S_ISDIR st.mode = true
  . rw [if_pos hdir] at hspec ⊢
    simp [hspec, hdir]
  . rw [if_neg hdir] at hspec ⊢
    -- a file is in the archive, and may be read-only
    have hor : attrib ||| (_A_HIDDEN ||| _A_RDONLY ||| _A_SUBDIR ||| _A_SYSTEM)
        = _A_RDONLY ||| _A_HIDDEN ||| _A_SYSTEM ||| _A_SUBDIR ||| _A_ARCH := by
      obtain hspec | hspec := hspec
      . rw [hspec]
        rfl
      . rw [hspec]
        rfl
    simp only [hdir, Bool.or_eq_true, Bool.and_eq_true, decide_eq_true_eq, Bool.not_false, true_and]
    rw [← hor, Mask.and_or_ne_zero f._attrib attrib]
    tauto

/-! The search on its object. -/

theorem length_memccpy (dst : List UInt8) (src : String) : (memccpy dst src).length = dst.length := by
  unfold memccpy
  dsimp only
  rw [List.length_append, List.length_drop, List.length_take]
  omega

theorem takeWhile_memccpy (dst : List UInt8) (src : String)
    : (memccpy dst src).takeWhile (· ≠ 0)
        = (src.toUTF8.data.toList.take dst.length).takeWhile (· ≠ 0) := by
  unfold memccpy
  dsimp only
  generalize src.toUTF8.data.toList = bytes
  by_cases h : bytes.length < dst.length
  . -- the null is copied as well
    rw [List.take_of_length_le (show (bytes ++ [0]).length ≤ dst.length by simp; omega),
      List.take_of_length_le (show bytes.length ≤ dst.length by omega), List.append_assoc,
      List.takeWhile_append]
    split
    . next hall =>
      rw [(List.takeWhile_prefix _).eq_of_length hall]
      simp
    . rfl
  . rw [List.take_append_of_le_length (by omega), List.length_take,
      List.drop_eq_nil_of_le (by omega), List.append_nil]

/--
The search goes through the paths, and is at none past the last one.
-/
structure FindT.Scanning (f : FindT) (pathv : List String) (mask : BitVec 32) : Prop where
  glPathv : f.glPathv = some pathv
  glPathc : f.glPathc = pathv.length
  _glPathi : f._glPathi ≤ f.glPathc
  _attrib : f._attrib = mask
  name : f.name.length = NAME_MAX

namespace FindT.Scanning

variable {localtime : Int → Option Tm} {pathv : List String} {mask : BitVec 32} {f : FindT}

theorem next (h : f.Scanning pathv mask) (hlt : f._glPathi < f.glPathc)
    : f.next.Scanning pathv mask where
  glPathv := h.glPathv
  glPathc := h.glPathc
  _glPathi := hlt
  _attrib := h._attrib
  name := h.name

theorem findnextMatch (path : String) (attrib : BitVec 32) {st : Stat} {tm : Tm}
    (h : f.Scanning pathv mask) (hlt : f._glPathi < f.glPathc) (htm : localtime st.mtime = some tm)
    : (Files.findnextMatch localtime path attrib st f).2.Scanning pathv mask := by
  unfold Files.findnextMatch
  rw [htm]
  exact {
    glPathv := h.glPathv
    glPathc := h.glPathc
    _glPathi := hlt
    _attrib := h._attrib
    name := by
      dsimp only
      rw [length_memccpy, h.name]
  }

end FindT.Scanning

namespace Files

variable {fs : Files} {localtime : Int → Option Tm} {pathv : List String} {mask : BitVec 32}
  {f : FindT}

/--
What is still to be reported.
-/
def remaining (fs : Files) (localtime : Int → Option Tm) (pathv : List String) (mask : BitVec 32)
    (f : FindT) : List FindEntry :=
  (pathv.drop f._glPathi).filterMap (fs.entry localtime mask)

theorem getfileattr_listed {path : String} (h : fs.Listed path)
    : ∃ attrib, fs.getfileattr path = .ok attrib := by
  have hfailure : ∀ e : Errno, e.doserror ≠ none →
      ∃ attrib, (failure e).map (fun _ => (none : Option (BitVec 32))) = .ok attrib := by
    intro e he
    unfold failure
    split
    . next h => exact absurd h he
    . exact ⟨none, rfl⟩
  unfold getfileattr
  split
  . next e he => exact hfailure e (h.stat e he)
  . split
    . exact ⟨_, rfl⟩
    . split
      . exact ⟨_, rfl⟩
      . exact ⟨_, rfl⟩
      . exact ⟨_, rfl⟩
      . next e _ _ he => exact hfailure e (h.accessW e he)

theorem remaining_next (fs : Files) (localtime : Int → Option Tm) (mask : BitVec 32) {path : String}
    (hpath : pathv[f._glPathi]? = some path)
    : fs.remaining localtime pathv mask f
        = (fs.entry localtime mask path).toList ++ fs.remaining localtime pathv mask f.next := by
  obtain ⟨hlt, hpath⟩ := List.getElem?_eq_some_iff.mp hpath
  unfold remaining FindT.next
  rw [List.drop_eq_getElem_cons hlt, hpath, List.filterMap_cons]
  cases fs.entry localtime mask path
  all_goals rfl

theorem entry_of_failed {path : String} (h : fs.getfileattr path = .ok none)
    : fs.entry localtime mask path = none := by
  unfold entry
  rw [h]

theorem entry_of_stat_error {path : String} {e : Errno} (h : fs.stat path = .error e)
    : fs.entry localtime mask path = none := by
  unfold entry
  rw [h]
  split
  . next h => simp at h
  . rfl

theorem entry_of_not_passes {path : String} {st : Stat} (hst : fs.stat path = .ok st)
    (h : ¬ Passes mask st.mode)
    : fs.entry localtime mask path = none := by
  unfold entry
  rw [hst]
  split
  . next h' =>
    injection h' with h'
    rw [if_neg (h' ▸ h)]
  . rfl

theorem entry_of_passes {path : String} {attrib : BitVec 32} {st : Stat} {tm : Tm}
    (hattrib : fs.getfileattr path = .ok (some attrib)) (hst : fs.stat path = .ok st)
    (htm : localtime st.mtime = some tm) (h : Passes mask st.mode)
    : fs.entry localtime mask path = some {
        attrib := attrib
        size := st.size
        wrDate := dostimeIntDate tm
        wrTime := dostimeIntTime tm
        name := (path.toUTF8.data.toList.take NAME_MAX).takeWhile (· ≠ 0)
      } := by
  unfold entry
  rw [hattrib, hst]
  dsimp only
  rw [if_pos h, htm]
  rfl

/--
One round of the loop of `findnext` at a file that can be queried: it goes on without an entry, or it
stops at a file that passes.
-/
theorem findnextLoop_round (localtime : Int → Option Tm) {path : String} (left : Nat)
    (hpathv : f.glPathv = some pathv) (hpath : pathv[f._glPathi]? = some path)
    (hlisted : fs.Listed path)
    : (fs.entry localtime f._attrib path = none
          ∧ fs.findnextLoop localtime (left + 1) f = fs.findnextLoop localtime left f.next)
        ∨ ∃ attrib st, fs.getfileattr path = .ok (some attrib) ∧ fs.stat path = .ok st
          ∧ Passes f._attrib st.mode
          ∧ fs.findnextLoop localtime (left + 1) f
            = .ok (some (findnextMatch localtime path attrib st f).1,
              (findnextMatch localtime path attrib st f).2) := by
  obtain ⟨attrib, hattrib⟩ := getfileattr_listed hlisted
  rw [findnextLoop, hpathv]
  dsimp only
  rw [hpath]
  dsimp only
  rw [hattrib]
  cases attrib with
  | none => exact .inl ⟨entry_of_failed hattrib, rfl⟩
  | some attrib =>
    dsimp only
    cases hst : fs.stat path with
    | error e => exact .inl ⟨entry_of_stat_error hst, rfl⟩
    | ok st =>
      have hmatches := matches_iff_passes hattrib hst f
      dsimp only
      split
      . next hmatch => exact .inr ⟨attrib, st, rfl, rfl, hmatches.mp hmatch, rfl⟩
      . next hmatch =>
        exact .inl ⟨entry_of_not_passes hst fun hpasses => hmatch (hmatches.mpr hpasses), rfl⟩

/--
The object holds the entry of the file that the loop stops at.
-/
theorem findnextMatch_entry {path : String} {attrib : BitVec 32} {st : Stat} {tm : Tm}
    (hattrib : fs.getfileattr path = .ok (some attrib)) (hst : fs.stat path = .ok st)
    (hpasses : Passes mask st.mode) (htm : localtime st.mtime = some tm)
    (hname : f.name.length = NAME_MAX)
    : (findnextMatch localtime path attrib st f).1 = 0
        ∧ fs.entry localtime mask path = some (findnextMatch localtime path attrib st f).2.entry := by
  rw [entry_of_passes hattrib hst htm hpasses]
  unfold findnextMatch FindT.entry
  rw [htm]
  refine ⟨rfl, ?_⟩
  dsimp only
  rw [takeWhile_memccpy, hname]

theorem findnextLoop_enum (husual : ∀ path ∈ pathv, fs.Usual localtime path) {left : Nat}
    (h : f.Scanning pathv mask) (hleft : f._glPathi + left = f.glPathc)
    : (fs.remaining localtime pathv mask f = []
          ∧ ∃ f', fs.findnextLoop localtime left f = .ok (none, f') ∧ f'._glPathi = f'.glPathc)
        ∨ ∃ f', fs.findnextLoop localtime left f = .ok (some 0, f') ∧ f'.Scanning pathv mask
          ∧ fs.remaining localtime pathv mask f
            = f'.entry :: fs.remaining localtime pathv mask f' := by
  induction left generalizing f with
  | zero =>
    refine .inl ⟨?_, f, rfl, hleft⟩
    unfold remaining
    rw [List.drop_eq_nil_of_le]
    . rfl
    . rw [← h.glPathc]
      omega
  | succ left ih =>
    have hlt : f._glPathi < f.glPathc := by omega
    have hmem : f._glPathi < pathv.length := h.glPathc ▸ hlt
    have hpath : pathv[f._glPathi]? = some pathv[f._glPathi] := List.getElem?_eq_getElem hmem
    have husual' := husual _ (List.getElem_mem hmem)
    rw [remaining_next fs localtime mask hpath]
    obtain ⟨hentry, hloop⟩ | ⟨attrib, st, hattrib, hst, hpasses, hloop⟩ :=
      findnextLoop_round localtime left h.glPathv hpath husual'.toListed
    . rw [← h._attrib, hentry, h._attrib, hloop]
      exact ih (h.next hlt) (show f._glPathi + 1 + left = f.glPathc by omega)
    . obtain ⟨tm, htm⟩ := Option.ne_none_iff_exists'.mp (husual'.localtime st hst)
      rw [h._attrib] at hpasses
      obtain ⟨hcode, hentry⟩ := findnextMatch_entry hattrib hst hpasses htm h.name
      refine .inr ⟨_, ?_, h.findnextMatch pathv[f._glPathi] attrib hlt htm, ?_⟩
      . rw [hloop, hcode]
      . rw [hentry]
        unfold Files.findnextMatch
        rw [htm]
        rfl

/--
What one call comes to.
-/
def Reports (fs : Files) (localtime : Int → Option Tm) (pathv : List String) (mask : BitVec 32)
    (r : Except Fault (BitVec 32 × FindT)) (left : List FindEntry) : Prop :=
  (left = [] ∧ ∃ f, r = .ok (EXTERR_NO_MORE_FILES, f))
    ∨ ∃ f, r = .ok (0, f) ∧ f.Scanning pathv mask
      ∧ left = f.entry :: fs.remaining localtime pathv mask f

theorem findnext_enum (husual : ∀ path ∈ pathv, fs.Usual localtime path)
    (h : f.Scanning pathv mask)
    : fs.Reports localtime pathv mask (fs.findnext localtime f)
        (fs.remaining localtime pathv mask f) := by
  have hloop := findnextLoop_enum husual h (Nat.add_sub_of_le h._glPathi)
  unfold findnext
  obtain ⟨hnil, f', hf', hend⟩ | ⟨f', hf', hscanning, hcons⟩ := hloop
  . rw [hf']
    dsimp only
    rw [if_pos hend]
    exact .inl ⟨hnil, _, rfl⟩
  . rw [hf']
    exact .inr ⟨f', rfl, hscanning, hcons⟩

theorem findfirst_enum {pattern : String} (hglob : fs.glob pattern = .success pathv)
    (hpathv : pathv ≠ []) (husual : ∀ path ∈ pathv, fs.Usual localtime path)
    (hname : f.name.length = NAME_MAX)
    : fs.Reports localtime pathv mask (fs.findfirst localtime (some pattern) mask f)
        (pathv.filterMap (fs.entry localtime mask)) := by
  unfold findfirst
  dsimp only
  rw [hglob]
  dsimp only
  rw [if_pos (List.length_pos_iff.mpr hpathv)]
  exact findnext_enum husual ⟨rfl, rfl, Nat.zero_le _, rfl, hname⟩

end Files

/-! Whole searches. -/

/--
The entries that are reported up to the first call that fails, and its code. The search is followed
for `fuel` calls of `findnext`.
-/
def collect (next : Dos σ → Except Fault (Result σ Unit)) (a : Addr) (fuel : Nat) (r : Result σ Unit)
    : Except Fault (List FindEntry × BitVec 32) :=
  if r.code ≠ 0 then
    .ok ([], r.code)
  else
    match fuel with
    | 0 => .error .unfinished
    | fuel + 1 =>
      match next r.state with
      | .error e => .error e
      | .ok r' => (collect next a fuel r').map fun p => ((r.state.findT a).entry :: p.1, p.2)

def enumerate (first next : Dos σ → Except Fault (Result σ Unit)) (a : Addr) (fuel : Nat) (s : Dos σ)
    : Except Fault (List FindEntry × BitVec 32) :=
  match first s with
  | .error e => .error e
  | .ok r => collect next a fuel r

section

variable {fs : Files} {px : Posix σ} {holds : σ → Prop} {pathv : List String} {mask : BitVec 32}
  {a d : Addr} {next : Dos σ → Except Fault (Result σ Unit)} {s : Dos σ}

theorem enumerate_of_failed {first : Dos σ → Except Fault (Result σ Unit)} {code : BitVec 32}
    {f : FindT} (h : Agrees holds s a (first s) (.ok (code, f))) (hcode : code ≠ 0) (fuel : Nat)
    : enumerate first next a fuel s = .ok ([], code) := by
  obtain ⟨r, hr, hcode', -⟩ := h.exists_ok
  unfold enumerate
  rw [hr]
  dsimp only
  unfold collect
  rw [if_pos (hcode' ▸ hcode), hcode']

theorem enumerate_of_found {first : Dos σ → Except Fault (Result σ Unit)} {r : Result σ Unit}
    (h : first s = .ok r) (hcode : r.code = 0) (fuel : Nat)
    : enumerate first next a (fuel + 1) s
        = (enumerate next next a fuel r.state).map fun p => ((r.state.findT a).entry :: p.1, p.2) := by
  unfold enumerate
  rw [h]
  dsimp only
  rw [collect, if_neg (not_not.mpr hcode)]
  cases next r.state
  all_goals rfl

theorem enumerate_reports (husual : ∀ path ∈ pathv, fs.Usual px.localtime path)
    (hnext : ∀ t : Dos σ, holds t.os → t.currentDta = d →
      Agrees holds t a (next t) (fs.findnext px.localtime (t.findT a)))
    {fuel : Nat} {first : Dos σ → Except Fault (Result σ Unit)}
    {r' : Except Fault (BitVec 32 × FindT)} {left : List FindEntry}
    (hfirst : Agrees holds s a (first s) r') (hdta : s.currentDta = d)
    (hreports : fs.Reports px.localtime pathv mask r' left) (hfuel : left.length ≤ fuel)
    : enumerate first next a fuel s = .ok (left, EXTERR_NO_MORE_FILES) := by
  -- by induction on the entries that are left, with any call in the place of the first one
  induction fuel generalizing s first r' left with
  | zero =>
    obtain ⟨rfl, f, rfl⟩ | ⟨f, -, -, rfl⟩ := hreports
    . exact enumerate_of_failed hfirst (by decide) 0
    . simp at hfuel
  | succ fuel ih =>
    obtain ⟨rfl, f, rfl⟩ | ⟨f, rfl, hscanning, rfl⟩ := hreports
    . exact enumerate_of_failed hfirst (by decide) (fuel + 1)
    . obtain ⟨r, hr, hcode, hleaves⟩ := hfirst.exists_ok
      have hdta' := hleaves.currentDta.trans hdta
      have hagrees := hnext r.state hleaves.holds hdta'
      rw [hleaves.findT_same] at hagrees
      have hrest := ih hagrees hdta' (Files.findnext_enum husual hscanning)
        (Nat.le_of_succ_le_succ hfuel)
      rw [enumerate_of_found hr hcode, hrest, hleaves.findT_same]
      rfl

def serviceResult (p : Except Fault (Cpu × Dos σ)) : Except Fault (Result σ Unit) :=
  p.map fun p => ⟨p.1.ax.setWidth 32, none, p.2⟩

theorem agrees_serviceResult {cpu : Cpu} {r : Except Fault (Result σ Unit)}
    {r' : Except Fault (BitVec 32 × FindT)} (h : Agrees holds s a r r')
    : Agrees holds s a (serviceResult (r.map fun r => (cpu.setCode r.code, r.state))) r' := by
  unfold serviceResult Agrees
  rw [meets_map, meets_map]
  simp only [Cpu.setCode_ax_setWidth]
  exact h

theorem search_enumerates (hfs : fs.Unchanged px holds) {pattern : String}
    (hglob : fs.glob pattern = .success pathv) (hpathv : pathv ≠ [])
    (husual : ∀ path ∈ pathv, fs.Usual px.localtime path) (hos : holds s.os) {fuel : Nat}
    (hfuel : pathv.length ≤ fuel)
    : (∀ mask a, (s.findT a).name.length = NAME_MAX →
        enumerate (dosixDosFindfirst px (some pattern) mask a) (dosixDosFindnext px a) a fuel s
          = .ok (pathv.filterMap (fs.entry px.localtime mask), EXTERR_NO_MORE_FILES))
      ∧ ((s.findT s.currentDta).name.length = NAME_MAX →
        (∀ mask, enumerate (findfirst px (some pattern) mask) (findnext px) s.currentDta fuel s
          = .ok (pathv.filterMap (fs.entry px.localtime mask), EXTERR_NO_MORE_FILES))
        ∧ ∀ cpu cpu', cpu.ah = INT21_AH_FINDFIRST → cpu'.ah = INT21_AH_FINDNEXT →
          fs.cstring (MK_FP cpu.ds cpu.dx) = some pattern →
            enumerate (fun s => serviceResult (int21MainDosApi px cpu s))
                (fun s => serviceResult (int21MainDosApi px cpu' s)) s.currentDta fuel s
              = .ok (pathv.filterMap (fs.entry px.localtime (cpu.cx.setWidth 32)),
                EXTERR_NO_MORE_FILES)) := by
  have hleft : ∀ mask, (pathv.filterMap (fs.entry px.localtime mask)).length ≤ fuel :=
    fun mask => (List.length_filterMap_le _ _).trans hfuel
  have hnext : ∀ t : Dos σ, holds t.os → t.currentDta = s.currentDta →
      Agrees holds t s.currentDta (findnext px t)
        (fs.findnext px.localtime (t.findT s.currentDta)) := by
    intro t ht hdta
    rw [← hdta]
    exact findnext_agrees hfs ht
  refine ⟨?_, fun hname => ⟨?_, ?_⟩⟩
  . intro mask a hname
    have hnext' : ∀ t : Dos σ, holds t.os → t.currentDta = s.currentDta →
        Agrees holds t a (dosixDosFindnext px a t) (fs.findnext px.localtime (t.findT a)) :=
      fun t ht _ => dosixDosFindnext_agrees hfs ht a
    exact enumerate_reports husual hnext' (dosixDosFindfirst_agrees hfs hos a (some pattern) mask)
      rfl (Files.findfirst_enum hglob hpathv husual hname) (hleft mask)
  . intro mask
    exact enumerate_reports husual hnext (findfirst_agrees hfs hos (some pattern) mask) rfl
      (Files.findfirst_enum hglob hpathv husual hname) (hleft mask)
  . intro cpu cpu' hah hah' hpattern
    have hnext' : ∀ t : Dos σ, holds t.os → t.currentDta = s.currentDta →
        Agrees holds t s.currentDta (serviceResult (int21MainDosApi px cpu' t))
          (fs.findnext px.localtime (t.findT s.currentDta)) := by
      intro t ht hdta
      rw [int21_findnext px hah']
      exact agrees_serviceResult (hnext t ht hdta)
    have hfirst : Agrees holds s s.currentDta (serviceResult (int21MainDosApi px cpu s))
        (fs.findfirst px.localtime (some pattern) (cpu.cx.setWidth 32) (s.findT s.currentDta)) := by
      rw [int21_findfirst px hah, hfs.cstring _ _ hos, hpattern]
      exact agrees_serviceResult (findfirst_agrees hfs hos (some pattern) _)
    exact enumerate_reports husual hnext' hfirst rfl
      (Files.findfirst_enum hglob hpathv husual hname) (hleft _)

end

/-! A directory with a file, a directory, a dangling link and a read-only file. -/

def smallDirectory : Files where
  glob := fun pattern =>
    if pattern = "*" then .success ["A.TXT", "SUB", "GONE", "B.TXT"] else .nomatch
  stat := fun path =>
    if path = "A.TXT" then
      .ok { mode := 0x81a4, size := 12 }
    else if path = "SUB" then
      .ok { mode := 0x41ed, size := 4096 }
    else if path = "B.TXT" then
      .ok { mode := 0x8124, size := 7 }
    else
      .error .ENOENT
  accessW := fun path => if path = "B.TXT" then .error .EACCES else .ok ()
  cstring := fun a => if a = 0x100 then some "*" else none

def Files.kernel (fs : Files) : Posix Unit where
  __ := (default : Posix Unit)
  glob := fun pattern os => (pattern.elim .nomatch fs.glob, os)
  stat := fun path os => (path.elim (.error .EFAULT) fs.stat, os)
  accessW := fun path os => (path.elim (.error .EFAULT) fs.accessW, os)
  cstring := fun _ a => fs.cstring a
  localtime := fun _ => some { mday := 1, mon := 1, year := 96, hour := 12 }

theorem Files.kernel_unchanged (fs : Files) : fs.Unchanged fs.kernel fun _ => True where
  glob := fun _ _ _ => ⟨rfl, trivial⟩
  stat := fun _ _ _ => ⟨rfl, trivial⟩
  accessW := fun _ _ _ => ⟨rfl, trivial⟩
  cstring := fun _ _ _ => rfl

theorem smallDirectory_usual (path : String)
    : smallDirectory.Usual smallDirectory.kernel.localtime path where
  localtime := fun _ _ => Option.some_ne_none _
  stat := by
    intro e h
    unfold smallDirectory at h
    dsimp only at h
    split at h
    . cases h
    . split at h
      . cases h
      . split at h
        all_goals cases h
        exact Option.some_ne_none _
  accessW := by
    intro e h
    unfold smallDirectory at h
    dsimp only at h
    split at h
    all_goals cases h
    exact Option.some_ne_none _

theorem search_enumerates_smallDirectory
    : enumerate (dosixDosFindfirst smallDirectory.kernel (some "*") _A_SUBDIR 0x200)
          (dosixDosFindnext smallDirectory.kernel 0x200) 0x200 4 { os := () }
        = .ok ([⟨0x20, 12, 0x2041, 0x6000, [65, 46, 84, 88, 84]⟩,
            ⟨0x10, 4096, 0x2041, 0x6000, [83, 85, 66]⟩,
            ⟨0x21, 7, 0x2041, 0x6000, [66, 46, 84, 88, 84]⟩], EXTERR_NO_MORE_FILES)
      ∧ enumerate
          (fun s => serviceResult
            (int21MainDosApi smallDirectory.kernel { ax := 0x4e00, dx := 0x100 } s))
          (fun s => serviceResult (int21MainDosApi smallDirectory.kernel { ax := 0x4f00 } s))
          0 4 { os := () }
        = .ok ([⟨0x20, 12, 0x2041, 0x6000, [65, 46, 84, 88, 84]⟩,
            ⟨0x21, 7, 0x2041, 0x6000, [66, 46, 84, 88, 84]⟩], EXTERR_NO_MORE_FILES) := by
  obtain ⟨hobject, hdta⟩ := search_enumerates (s := { os := () })
    smallDirectory.kernel_unchanged (show smallDirectory.glob "*" = _ from rfl) (by simp)
    (fun path _ => smallDirectory_usual path) trivial (Nat.le_refl 4)
  obtain ⟨-, hservice⟩ := hdta List.length_replicate
  constructor
  . rw [hobject _A_SUBDIR 0x200 List.length_replicate]
    decide +kernel
  . refine (hservice { ax := 0x4e00, dx := 0x100 } { ax := 0x4f00 } rfl rfl rfl).trans ?_
    decide +kernel

end Dosix
