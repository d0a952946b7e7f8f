import Dosix.Attrib.Impl.Traversal
import Mathlib.Data.List.Perm.Basic

/-!
This module contains what the traversal of directories comes to: each file that is looked for is
said once, however the nested searches share the path.
-/

namespace Dosix
namespace Attrib

variable {φ : Type}

/-! Trees of directories. -/

/--
What a directory lists. The content is that of a directory, if it is one.
-/
inductive Entry where
  | mk (name : Text) (attrib : BitVec 32) (content : List Entry)

namespace Entry

def name (e : Entry) : Text :=
  match e with
  | .mk name _ _ => name

def attrib (e : Entry) : BitVec 32 :=
  match e with
  | .mk _ attrib _ => attrib

def content (e : Entry) : List Entry :=
  match e with
  | .mk _ _ content => content

def isDir (e : Entry) : Bool :=
  e.attrib &&& _A_SUBDIR ≠ 0

end Entry

structure Hit where
  path : Text
  attrib : BitVec 32
  deriving DecidableEq

/--
What a name and attributes have to be like to match.
-/
structure Matching where
  name : Text → Text → Bool
  attrib : BitVec 32 → BitVec 32 → Bool
  name_star : ∀ n, name (.ofString "*.*") n = true
  attrib_dir : ∀ a, a &&& _A_SUBDIR ≠ 0 → attrib (DIR_ATTR.setWidth 32) a = true

/--
What is looked for, and which directories are gone into.
-/
structure Search where
  matching : Matching
  mask : Text
  findattr : ATTR
  enters : Text → Bool

namespace Search

variable (S : Search)

def hit (p : Text) (e : Entry) : Hit :=
  ⟨p ++ e.name, e.attrib⟩

def sub (p : Text) (name : Text) : Text :=
  p ++ name ++ .ofString "\\"

def wants (e : Entry) : Bool :=
  S.matching.name S.mask e.name && S.matching.attrib (S.findattr.setWidth 32) e.attrib

def named (p : Text) (es : List Entry) : List Hit :=
  (es.filter fun e => !isDots e.name).map (hit p)

def here (p : Text) (es : List Entry) : List Hit :=
  named p (es.filter S.wants)

mutual

def belowEntry (p : Text) (e : Entry) : List Hit :=
  match e with
  | .mk name attrib content =>
    if (Entry.mk name attrib content).isDir = true ∧ S.enters name = true then
      S.here (sub p name) content ++ below (sub p name) content
    else
      []

def below (p : Text) (es : List Entry) : List Hit :=
  match es with
  | [] => []
  | e :: es => belowEntry p e ++ below p es

end

def hits (recurse : BitVec 8) (p : Text) (es : List Entry) : List Hit :=
  S.here p es ++ if recurse = 0 then [] else S.below p es

end Search

/-! The contract of the search functions. -/

/--
A search in this state has the entries still to come. The first component is the code of the call
that led to it.
-/
inductive Enumerates (F : Finder φ) : BitVec 32 × φ → List Entry → Prop where
  | done (code : BitVec 32) (f : φ) (h : code ≠ 0) : Enumerates F (code, f) []
  | found (f : φ) (e : Entry) (es : List Entry) (hname : F.name f = e.name)
      (hattrib : F.attrib f = e.attrib) (hrest : Enumerates F (F.findnext f) es)
      : Enumerates F (0, f) (e :: es)

def isSeparator (c : Char) : Bool :=
  c = '\\' || c = '/' || c = ':'

def IsComponent (m : Text) : Prop :=
  ∀ c ∈ m.chars, isSeparator c = false

theorem isComponent_of_all {m : Text} (h : m.chars.all (!isSeparator ·) = true)
    : IsComponent m := by
  rw [List.all_eq_true] at h
  intro c hc
  simpa using h c hc

theorem isComponent_star : IsComponent (.ofString "*.*") :=
  isComponent_of_all (by decide)

/--
A search in the directory named by the path prefix returns once each the entries that match.
-/
def Lists (F : Finder φ) (M : Matching) (p : Text) (es : List Entry) : Prop :=
  ∀ m, IsComponent m → ∀ attr f, ∃ found : List Entry,
    found.Perm (es.filter fun e => M.name m e.name && M.attrib attr e.attrib)
      ∧ Enumerates F (F.findfirst (p ++ m) attr f) found

/--
The path prefix names a directory with these entries, and so it is for all directories below it
that are gone into.
-/
inductive Directory (F : Finder φ) (S : Search) : Text → List Entry → Prop where
  | mk (p : Text) (es : List Entry) (hlists : Lists F S.matching p es)
      (hbelow : ∀ e ∈ es, e.isDir = true → S.enters e.name = true →
        Directory F S (Search.sub p e.name) e.content)
      : Directory F S p es

/--
The array of the path has room for all that is written to it.
-/
inductive Fits (size : Nat) (recurse : BitVec 8) (S : Search) : Text → List Entry → Prop where
  | mk (p : Text) (es : List Entry) (hmask : p.length + S.mask.length < size)
      (hstar : p.length + 3 < size) (hname : ∀ e ∈ es, p.length + e.name.length + 1 < size)
      (hbelow : recurse ≠ 0 → ∀ e ∈ es, e.isDir = true → S.enters e.name = true →
        Fits size recurse S (Search.sub p e.name) e.content)
      : Fits size recurse S p es

/-! What a call does to the global variables. -/

theorem letters_noNul (attr : ATTR) : NUL ∉ letters attr := by
  unfold letters
  simp only [List.mem_cons, List.not_mem_nil, or_false, not_or]
  refine ⟨?_, ?_, ?_, ?_, ?_⟩
  all_goals
    split
    . decide
    . decide

def bracketed (attr : ATTR) : Text where
  chars := '[' :: letters attr
  noNul := by
    rw [List.mem_cons, not_or]
    exact ⟨by decide, letters_noNul attr⟩

/--
The line for a file. The rest of `info` follows its attributes.
-/
def Hit.line (info : Buffer) (h : Hit) : Output :=
  .say (bracketed (h.attrib.setWidth 8) ++ .ofChars (info.drop 6)) h.path

structure Framed (info : Buffer) : Prop where
  open_ : info.take 1 = ['[']
  length : 6 ≤ info.length
  nul : NUL ∈ info.drop 6

/--
The variables that the traversal does not change.
-/
structure Settings where
  recurse : BitVec 8
  useattr : ATTR
  attrKeep : ATTR
  attrSet : ATTR
  findattr : ATTR
  mask : Buffer
  retcode : BitVec 8
  iscomma : BitVec 8

def State.settings (s : State φ) : Settings :=
  ⟨s.recurse, s.useattr, s.attrKeep, s.attrSet, s.findattr, s.mask, s.retcode, s.iscomma⟩

structure Visited (p : Text) (hits : List Hit) (s s' : State φ) : Prop where
  length : s'.path.length = s.path.length
  begins : p.chars <+: s'.path
  settings : s'.settings = s.settings
  framed : Framed s'.info
  info : s'.info.drop 6 = s.info.drop 6
  found : s'.found = s.found + BitVec.ofNat 32 hits.length
  output : ∃ lines, s'.output = s.output ++ lines ∧ lines.Perm (hits.map (Hit.line s.info))

namespace Visited

variable {p : Text} {h h' : List Hit} {s t u : State φ}

theorem refl (hs : p.chars <+: s.path) (hinfo : Framed s.info) : Visited p [] s s where
  length := rfl
  begins := hs
  settings := rfl
  framed := hinfo
  info := rfl
  found := by simp
  output := ⟨[], by simp, by simp⟩

theorem line_congr (hst : Visited p h s t) : Hit.line t.info = Hit.line s.info := by
  funext hit
  unfold Hit.line
  rw [hst.info]

theorem trans (hst : Visited p h s t) (htu : Visited p h' t u) : Visited p (h ++ h') s u where
  length := htu.length.trans hst.length
  begins := htu.begins
  settings := htu.settings.trans hst.settings
  framed := htu.framed
  info := htu.info.trans hst.info
  found := by
    rw [htu.found, hst.found, List.length_append, BitVec.add_assoc, BitVec.ofNat_add]
  output := by
    obtain ⟨lines, hlines, hperm⟩ := hst.output
    obtain ⟨lines', hlines', hperm'⟩ := htu.output
    refine ⟨lines ++ lines', ?_, ?_⟩
    . rw [hlines', hlines, List.append_assoc]
    . rw [List.map_append]
      rw [hst.line_congr] at hperm'
      exact hperm.append hperm'

theorem perm (hst : Visited p h s t) (hperm : h.Perm h') : Visited p h' s t where
  length := hst.length
  begins := hst.begins
  settings := hst.settings
  framed := hst.framed
  info := hst.info
  found := hperm.length_eq ▸ hst.found
  output := by
    obtain ⟨lines, hlines, hlinesPerm⟩ := hst.output
    exact ⟨lines, hlines, hlinesPerm.trans (hperm.map _)⟩

end Visited

/--
The path begins with the prefix, and the other variables are as `nsplit` and `main` have left them.
-/
structure Ready (S : Search) (size : Nat) (recurse : BitVec 8) (p : Text) (s : State φ)
    : Prop where
  begins : p.chars <+: s.path
  framed : Framed s.info
  mask : s.mask.read 0 = .ok S.mask
  findattr : s.findattr = S.findattr
  recurse : s.recurse = recurse
  size : s.path.length = size

theorem Visited.ready {S : Search} {size : Nat} {recurse : BitVec 8} {p : Text} {h : List Hit}
    {s t : State φ} (hst : Visited p h s t) (hs : Ready S size recurse p s)
    : Ready S size recurse p t where
  begins := hst.begins
  framed := hst.framed
  mask := by
    rw [show t.mask = s.mask from congrArg Settings.mask hst.settings]
    exact hs.mask
  findattr := (congrArg Settings.findattr hst.settings).trans hs.findattr
  recurse := (congrArg Settings.recurse hst.settings).trans hs.recurse
  size := hst.length.trans hs.size

/-! `do_mask`. -/

variable {F : Finder φ} {S : Search} {p : Text} {s : State φ}

theorem attr2str_framed {info : Buffer} (attr : ATTR) (h : Framed info)
    : ∃ info', attr2str OLD_ATTR attr info = .ok (attr, info') ∧ Framed info'
        ∧ info'.drop 6 = info.drop 6
        ∧ info'.read 0 = .ok (bracketed attr ++ .ofChars (info.drop 6)) := by
  have hinfo : info.take OLD_ATTR ++ letters attr ++ info.drop (OLD_ATTR + 5)
      = (bracketed attr).chars ++ info.drop 6 := by
    rw [show info.take OLD_ATTR = ['['] from h.open_]
    rfl
  have hdrop : ((bracketed attr).chars ++ info.drop 6).drop 6 = info.drop 6 :=
    List.drop_left' rfl
  have hlength : OLD_ATTR + 5 ≤ info.length := h.length
  unfold attr2str
  rw [if_pos hlength, hinfo]
  refine ⟨_, rfl, ⟨rfl, ?_, ?_⟩, hdrop, ?_⟩
  . rw [List.length_append]
    exact Nat.le_add_right 6 _
  . rw [hdrop]
    exact h.nul
  . unfold Buffer.read
    rw [List.drop_zero, if_pos (List.mem_append_right _ h.nul), Text.ofChars_chars_append]

theorem newAttr_eq (attr : ATTR) (s : State φ)
    : ∃ computed, newAttr attr s = { s with computed := computed } := by
  unfold newAttr
  split
  . exact ⟨_, rfl⟩
  . exact ⟨_, rfl⟩

theorem sayFile_spec {e : Entry} (hname : F.name s.fi = e.name) (hattrib : F.attrib s.fi = e.attrib)
    (hbegins : p.chars <+: s.path) (hinfo : Framed s.info)
    (hlt : p.length + e.name.length < s.path.length)
    : ∃ s', sayFile F p.length s = .ok s' ∧ Visited p [Search.hit p e] s s' ∧ s'.fi = s.fi := by
  obtain ⟨path, hadds, hlength, hpath, hread⟩ := Buffer.stpcpy_eq e.name hbegins hlt
  obtain ⟨info, hattr, hframed, hdrop, hinfoRead⟩ :=
    attr2str_framed ((F.attrib s.fi).setWidth 8) hinfo
  have hbegins' : p.chars <+: path := (List.prefix_append _ _).trans hpath
  unfold sayFile adds
  rw [hname, hadds]
  dsimp only [bind, Except.bind]
  rw [hattr]
  dsimp only
  obtain ⟨computed, hcomputed⟩ := newAttr_eq ((F.attrib s.fi).setWidth 8)
    { s with path := path, found := s.found + 1, info := info }
  rw [hcomputed]
  dsimp only
  rw [hinfoRead, hread, hattrib]
  exact ⟨_, rfl, ⟨hlength, hbegins', rfl, hframed, hdrop, rfl, _, rfl, .refl _⟩, rfl⟩

theorem doMaskLoop_spec {e : Entry} {es : List Entry} {fuel : Nat} (hname : F.name s.fi = e.name)
    (hattrib : F.attrib s.fi = e.attrib) (hrest : Enumerates F (F.findnext s.fi) es)
    (hbegins : p.chars <+: s.path) (hinfo : Framed s.info)
    (hfits : ∀ e' ∈ e :: es, p.length + e'.name.length < s.path.length) (hfuel : es.length < fuel)
    : ∃ s', doMaskLoop F p.length fuel s = .ok s'
        ∧ Visited p (Search.named p (e :: es)) s s' := by
  induction fuel generalizing e es s with
  | zero => simp at hfuel
  | succ fuel ih =>
    -- what the body of the loop does about this entry
    have hbody : ∃ t, doMaskBody F p.length s = .ok t ∧ Visited p (Search.named p [e]) s t
        ∧ t.fi = s.fi := by
      unfold doMaskBody
      rw [hname]
      cases hdots : isDots e.name with
      | true =>
        refine ⟨s, rfl, ?_, rfl⟩
        rw [Search.named, List.filter_cons_of_neg (by simp [hdots])]
        exact .refl hbegins hinfo
      | false =>
        rw [Search.named, List.filter_cons_of_pos (by simp [hdots])]
        exact sayFile_spec hname hattrib hbegins hinfo (hfits e (by simp))
    obtain ⟨t, ht, hvisited, hfi⟩ := hbody
    have hnamed : Search.named p (e :: es) = Search.named p [e] ++ Search.named p es := by
      unfold Search.named
      rw [← List.map_append, ← List.filter_append]
      rfl
    have hvisited' : ∀ f, Visited p (Search.named p [e]) s { t with fi := f } := fun _ =>
      ⟨hvisited.length, hvisited.begins, hvisited.settings, hvisited.framed, hvisited.info,
        hvisited.found, hvisited.output⟩
    cases hnext : F.findnext s.fi with
    | mk code f =>
      rw [hnext] at hrest
      unfold doMaskLoop
      rw [ht]
      simp only [bind, Except.bind, hfi, hnext]
      cases hrest with
      | done _ _ hcode =>
        rw [if_neg hcode]
        exact ⟨_, rfl, hvisited' f⟩
      | found _ e' es hname' hattrib' hrest' =>
        rw [if_pos rfl]
        obtain ⟨u, hu, htu⟩ := ih (s := { t with fi := f }) hname' hattrib' hrest'
          (hvisited' f).begins (hvisited' f).framed
          (fun e'' he'' => (hvisited' f).length.symm ▸ hfits e'' (List.mem_cons_of_mem _ he''))
          (by simpa using hfuel)
        refine ⟨u, hu, ?_⟩
        rw [hnamed]
        exact (hvisited' f).trans htu

theorem doMask_spec {es : List Entry} {size : Nat} {recurse : BitVec 8}
    (hlists : Lists F S.matching p es) (hcomponent : IsComponent S.mask)
    (hready : Ready S size recurse p s) (hfits : Fits size recurse S p es) {fuel : Nat}
    (hfuel : es.length < fuel)
    : ∃ s', doMask F p.length fuel s = .ok s' ∧ Visited p (S.here p es) s s' := by
  obtain ⟨hbegins, hinfo, hmask, hfindattr, _, hsize⟩ := hready
  obtain ⟨_, _, hfitsMask, _, hfitsName, _⟩ := hfits
  rw [← hsize] at hfitsMask hfitsName
  obtain ⟨path, hadds, hlength, hpath, hread⟩ := Buffer.stpcpy_eq S.mask hbegins hfitsMask
  have hbegins' : p.chars <+: path := (List.prefix_append _ _).trans hpath
  obtain ⟨found, hperm, hfound⟩ := hlists S.mask hcomponent (s.findattr.setWidth 32) s.fi
  have hperm' : (Search.named p found).Perm (S.here p es) := by
    rw [hfindattr] at hperm
    exact (hperm.filter _).map _
  cases hfirst : F.findfirst (p ++ S.mask) (s.findattr.setWidth 32) s.fi with
  | mk code f =>
    rw [hfirst] at hfound
    have hstart : Visited p [] s { s with path := path, fi := f } :=
      ⟨hlength, hbegins', rfl, hinfo, rfl, by simp, [], by simp, by simp⟩
    unfold doMask adds
    simp only [bind, Except.bind, hmask, hadds, hread, hfirst]
    cases hfound with
    | done _ _ hcode =>
      rw [if_pos hcode]
      exact ⟨_, rfl, hstart.perm hperm'⟩
    | found _ e rest hname hattrib hrest =>
      have hmem : ∀ e' ∈ e :: rest, e' ∈ es :=
        fun e' he' => (List.mem_filter.mp (hperm.mem_iff.mp he')).1
      have hlen : rest.length < es.length :=
        (hperm.length_eq).trans_le (List.length_filter_le _ es)
      rw [if_neg (by simp)]
      obtain ⟨u, hu, htu⟩ := doMaskLoop_spec (s := { s with path := path, fi := f }) hname hattrib
        hrest hbegins' hinfo
        (fun e' he' => hlength.symm ▸ Nat.lt_of_succ_lt (hfitsName e' (hmem e' he')))
        (Nat.lt_trans hlen hfuel)
      exact ⟨u, hu, (hstart.trans htu).perm hperm'⟩

/-! `do_path`. -/

namespace Search

variable (S : Search)

theorem below_eq_flatMap (p : Text) (es : List Entry)
    : S.below p es = es.flatMap (S.belowEntry p) := by
  induction es with
  | nil => rfl
  | cons e es ih =>
    unfold below
    rw [ih]
    rfl

theorem belowEntry_eq (p : Text) (e : Entry)
    : S.belowEntry p e
        = if e.isDir = true ∧ S.enters e.name = true then
            S.here (sub p e.name) e.content ++ S.below (sub p e.name) e.content
          else
            [] := by
  cases e with
  | mk name attrib content => rfl

theorem below_filter (p : Text) (es : List Entry)
    : S.below p (es.filter fun e => S.matching.name (.ofString "*.*") e.name
        && S.matching.attrib (DIR_ATTR.setWidth 32) e.attrib) = S.below p es := by
  rw [below_eq_flatMap, below_eq_flatMap]
  induction es with
  | nil => rfl
  | cons e es ih =>
    rw [List.filter_cons, S.matching.name_star, Bool.true_and, List.flatMap_cons]
    split
    . rw [List.flatMap_cons, ih]
    . next hattrib =>
      have hfile : S.belowEntry p e = [] := by
        rw [belowEntry_eq, if_neg]
        intro ⟨hdir, _⟩
        exact hattrib (S.matching.attrib_dir e.attrib (by simpa [Entry.isDir] using hdir))
      rw [ih, hfile, List.nil_append]

end Search

theorem doPathBody_spec {size : Nat} {recurse : BitVec 8} {e : Entry} {fi : φ}
    {again : Nat → State φ → Except Fault (State φ)} (henters : ∀ n, S.enters n = !isDots n)
    (hname : F.name fi = e.name) (hattrib : F.attrib fi = e.attrib)
    (hready : Ready S size recurse p s) (hlt : p.length + e.name.length + 1 < size)
    (hagain : e.isDir = true → S.enters e.name = true → ∀ t,
      Ready S size recurse (Search.sub p e.name) t → ∃ u,
        again (Search.sub p e.name).length t = .ok u
          ∧ Visited (Search.sub p e.name)
              (S.here (Search.sub p e.name) e.content ++ S.below (Search.sub p e.name) e.content)
              t u)
    : ∃ t, doPathBody F again p.length fi s = .ok t ∧ Visited p (S.belowEntry p e) s t := by
  rw [S.belowEntry_eq]
  unfold doPathBody
  rw [hname, hattrib]
  by_cases hdir : e.attrib &&& _A_SUBDIR = 0
  . rw [if_pos hdir, if_neg (by simp [Entry.isDir, hdir])]
    exact ⟨s, rfl, .refl hready.begins hready.framed⟩
  rw [if_neg hdir]
  have hisDir : e.isDir = true := by simpa [Entry.isDir] using hdir
  cases hdots : isDots e.name with
  | true =>
    rw [if_pos rfl, if_neg (by simp [henters, hdots])]
    exact ⟨s, rfl, .refl hready.begins hready.framed⟩
  | false =>
    have hgoes : S.enters e.name = true := by simp [henters, hdots]
    rw [if_neg (by simp), if_pos ⟨hisDir, hgoes⟩]
    have hsize := hready.size
    obtain ⟨path, hadds, hlength, hpath, -⟩ :=
      Buffer.stpcpy_eq e.name hready.begins (by omega)
    have hback : (Text.ofString "\\").length = 1 := by decide
    obtain ⟨path', hadds', hlength', hpath', -⟩ :=
      Buffer.stpcpy_eq (.ofString "\\") hpath (by rw [hback, Text.length_append]; omega)
    unfold adds
    simp only [bind, Except.bind, hadds, hadds']
    have hsub : Ready S size recurse (Search.sub p e.name) { s with path := path' } :=
      ⟨hpath', hready.framed, hready.mask, hready.findattr, hready.recurse,
        hlength'.trans (hlength.trans hsize)⟩
    obtain ⟨u, hu, hvisited⟩ := hagain hisDir hgoes _ hsub
    have hprefix : p.chars <+: (Search.sub p e.name).chars :=
      (List.prefix_append p.chars e.name.chars).trans (List.prefix_append _ _)
    exact ⟨u, hu, hvisited.length.trans (hlength'.trans hlength), hprefix.trans hvisited.begins,
      hvisited.settings, hvisited.framed, hvisited.info, hvisited.found, hvisited.output⟩

theorem doPathLoop_spec {size : Nat} {recurse : BitVec 8} {e : Entry} {es : List Entry} {fi : φ}
    {fuel : Nat} {again : Nat → State φ → Except Fault (State φ)}
    (henters : ∀ n, S.enters n = !isDots n) (hname : F.name fi = e.name)
    (hattrib : F.attrib fi = e.attrib) (hrest : Enumerates F (F.findnext fi) es)
    (hready : Ready S size recurse p s)
    (hfits : ∀ e' ∈ e :: es, p.length + e'.name.length + 1 < size)
    (hagain : ∀ e' ∈ e :: es, e'.isDir = true → S.enters e'.name = true → ∀ t,
      Ready S size recurse (Search.sub p e'.name) t → ∃ u,
        again (Search.sub p e'.name).length t = .ok u
          ∧ Visited (Search.sub p e'.name)
              (S.here (Search.sub p e'.name) e'.content ++ S.below (Search.sub p e'.name) e'.content)
              t u)
    (hfuel : es.length < fuel)
    : ∃ t, doPathLoop F again p.length fuel fi s = .ok t
        ∧ Visited p ((e :: es).flatMap (S.belowEntry p)) s t := by
  induction fuel generalizing e es fi s with
  | zero => simp at hfuel
  | succ fuel ih =>
    obtain ⟨t, ht, hvisited⟩ := doPathBody_spec henters hname hattrib hready (hfits e (by simp))
      (hagain e (by simp))
    rw [List.flatMap_cons]
    cases hnext : F.findnext fi with
    | mk code f =>
      rw [hnext] at hrest
      unfold doPathLoop
      simp only [bind, Except.bind, ht, hnext]
      cases hrest with
      | done _ _ hcode =>
        rw [if_neg hcode, List.flatMap_nil, List.append_nil]
        exact ⟨t, rfl, hvisited⟩
      | found _ e' es hname' hattrib' hrest' =>
        rw [if_pos rfl]
        obtain ⟨u, hu, htu⟩ := ih hname' hattrib' hrest' (hvisited.ready hready)
          (fun e'' he'' => hfits e'' (List.mem_cons_of_mem _ he''))
          (fun e'' he'' => hagain e'' (List.mem_cons_of_mem _ he'')) (by simpa using hfuel)
        exact ⟨u, hu, hvisited.trans htu⟩

theorem exists_bound {α : Type} {q : α → Nat → Prop} {l : List α}
    (h : ∀ a ∈ l, ∃ N, ∀ n, N ≤ n → q a n)
    : ∃ N, ∀ n, N ≤ n → ∀ a ∈ l, q a n := by
  induction l with
  | nil => exact ⟨0, by simp⟩
  | cons a l ih =>
    obtain ⟨N, hN⟩ := h a (by simp)
    obtain ⟨N', hN'⟩ := ih fun b hb => h b (List.mem_cons_of_mem a hb)
    refine ⟨max N N', ?_⟩
    intro n hn b hb
    rcases List.mem_cons.mp hb with rfl | hb
    . exact hN n (by omega)
    . exact hN' n (by omega) b hb

theorem doPath_zero {size : Nat} {es : List Entry} (hcomponent : IsComponent S.mask)
    (hlists : Lists F S.matching p es) (hfits : Fits size 0 S p es) (hready : Ready S size 0 p s)
    {fuel : Nat} (hfuel : es.length < fuel)
    : ∃ s', doPath F (fuel + 1) p.length s = .ok s' ∧ Visited p (S.hits 0 p es) s s' := by
  obtain ⟨t, ht, hvisited⟩ := doMask_spec hlists hcomponent hready hfits hfuel
  unfold doPath
  simp only [bind, Except.bind, ht]
  rw [if_pos (hvisited.ready hready).recurse]
  refine ⟨t, rfl, ?_⟩
  rw [Search.hits, if_pos rfl, List.append_nil]
  exact hvisited

theorem doPath_recurse {size : Nat} {recurse : BitVec 8} {es : List Entry}
    (henters : ∀ n, S.enters n = !isDots n) (hrecurse : recurse ≠ 0)
    (hcomponent : IsComponent S.mask) (hlists : Lists F S.matching p es)
    (hfits : Fits size recurse S p es) (hready : Ready S size recurse p s) {fuel : Nat}
    (hfuel : es.length < fuel)
    (hagain : ∀ e ∈ es, e.isDir = true → S.enters e.name = true → ∀ t,
      Ready S size recurse (Search.sub p e.name) t → ∃ u,
        doPath F fuel (Search.sub p e.name).length t = .ok u
          ∧ Visited (Search.sub p e.name)
              (S.here (Search.sub p e.name) e.content ++ S.below (Search.sub p e.name) e.content)
              t u)
    : ∃ s', doPath F (fuel + 1) p.length s = .ok s' ∧ Visited p (S.hits recurse p es) s s' := by
  obtain ⟨t, ht, hvisited⟩ := doMask_spec hlists hcomponent hready hfits hfuel
  have hready' := hvisited.ready hready
  obtain ⟨_, _, _, hstar, hname, _⟩ := hfits
  obtain ⟨path, hadds, hlength, hpath, hread⟩ := Buffer.stpcpy_eq (.ofString "*.*")
    hready'.begins (by rw [hready'.size]; exact hstar)
  obtain ⟨found, hperm, hfound⟩ := hlists (.ofString "*.*") isComponent_star
    (DIR_ATTR.setWidth 32) F.uninit
  have hperm' : (found.flatMap (S.belowEntry p)).Perm (S.below p es) := by
    rw [← S.below_filter, S.below_eq_flatMap]
    exact hperm.flatMap_right _
  have hmem : ∀ e ∈ found, e ∈ es := fun e he => (List.mem_filter.mp (hperm.mem_iff.mp he)).1
  have hbegins : p.chars <+: path := (List.prefix_append _ _).trans hpath
  have hstart : Visited p [] t { t with path := path } :=
    ⟨hlength, hbegins, rfl, hvisited.framed, rfl, by simp, [], by simp, by simp⟩
  rw [Search.hits, if_neg hrecurse]
  unfold doPath adds
  simp only [bind, Except.bind, ht]
  rw [if_neg (by rw [hready'.recurse]; exact hrecurse)]
  cases hfirst : F.findfirst (p ++ .ofString "*.*") (DIR_ATTR.setWidth 32) F.uninit with
  | mk code f =>
    rw [hfirst] at hfound
    simp only [hadds, hread, hfirst]
    cases hfound with
    | done _ _ hcode =>
      rw [if_pos hcode]
      exact ⟨_, rfl, hvisited.trans (hstart.perm hperm')⟩
    | found _ e rest hname' hattrib hrest =>
      have hlen : rest.length < es.length :=
        (hperm.length_eq).trans_le (List.length_filter_le _ es)
      obtain ⟨u, hu, htu⟩ := doPathLoop_spec henters hname' hattrib hrest (hstart.ready hready')
        (fun e' he' => hname e' (hmem e' he')) (fun e' he' => hagain e' (hmem e' he'))
        (Nat.lt_trans hlen hfuel)
      rw [if_neg (by simp)]
      exact ⟨u, hu, hvisited.trans ((hstart.trans htu).perm hperm')⟩

theorem doPath_spec {size : Nat} {recurse : BitVec 8} {es : List Entry}
    (henters : ∀ n, S.enters n = !isDots n) (hcomponent : IsComponent S.mask)
    (hdir : Directory F S p es) (hfits : Fits size recurse S p es)
    : ∃ N, ∀ fuel, N ≤ fuel → ∀ s, Ready S size recurse p s → ∃ s',
        doPath F fuel p.length s = .ok s' ∧ Visited p (S.hits recurse p es) s s' := by
  -- on the tree: there is a bound for the directory once there are bounds for those below it
  induction hdir with
  | mk p es hlists hbelow ih =>
    by_cases hrecurse : recurse = 0
    . subst hrecurse
      refine ⟨es.length + 2, ?_⟩
      intro fuel hfuel s hready
      obtain ⟨fuel, rfl⟩ := Nat.exists_eq_add_of_le' (Nat.one_le_of_lt hfuel)
      exact doPath_zero hcomponent hlists hfits hready (by omega)
    . have hbounds : ∃ N, ∀ fuel, N ≤ fuel → ∀ e ∈ es,
          e.isDir = true → S.enters e.name = true → ∀ t,
            Ready S size recurse (Search.sub p e.name) t → ∃ u,
              doPath F fuel (Search.sub p e.name).length t = .ok u
                ∧ Visited (Search.sub p e.name)
                    (S.hits recurse (Search.sub p e.name) e.content) t u := by
        apply exists_bound
        intro e he
        by_cases hgoes : e.isDir = true ∧ S.enters e.name = true
        . obtain ⟨_, _, _, _, _, hfitsBelow⟩ := hfits
          obtain ⟨N, hN⟩ := ih e he hgoes.1 hgoes.2 (hfitsBelow hrecurse e he hgoes.1 hgoes.2)
          exact ⟨N, fun fuel hfuel _ _ t ht => hN fuel hfuel t ht⟩
        . exact ⟨0, fun _ _ hisDir henter => absurd ⟨hisDir, henter⟩ hgoes⟩
      obtain ⟨N, hN⟩ := hbounds
      refine ⟨max (es.length + 2) (N + 1), ?_⟩
      intro fuel hfuel s hready
      obtain ⟨fuel, rfl⟩ := Nat.exists_eq_add_of_le' (show 1 ≤ fuel by omega)
      apply doPath_recurse henters hrecurse hcomponent hlists hfits hready (by omega)
      intro e he hisDir henter t ht
      have hagain := hN fuel (by omega) e he hisDir henter t ht
      rw [Search.hits, if_neg hrecurse] at hagain
      exact hagain

/--
The bound says that `do_path` comes to its end. The directories that it goes into are those whose
names are not all dots.
-/
theorem doPath_visits {M : Matching} {mask : Text} {findattr : ATTR} {es : List Entry}
    (hdir : Directory F ⟨M, mask, findattr, fun n => !isDots n⟩ p es)
    (hcomponent : IsComponent mask) (hmask : s.mask.read 0 = .ok mask)
    (hfindattr : s.findattr = findattr) (hpath : p.chars <+: s.path) (hinfo : Framed s.info)
    (hfits : Fits s.path.length s.recurse ⟨M, mask, findattr, fun n => !isDots n⟩ p es)
    : ∃ N, ∀ fuel, N ≤ fuel → ∃ s', doPath F fuel p.length s = .ok s'
        ∧ (∃ lines, s'.output = s.output ++ lines
          ∧ lines.Perm (((⟨M, mask, findattr, fun n => !isDots n⟩ : Search).hits s.recurse p es).map
              (Hit.line s.info)))
        ∧ s'.found = s.found + BitVec.ofNat 32
            ((⟨M, mask, findattr, fun n => !isDots n⟩ : Search).hits s.recurse p es).length
        ∧ s'.path.take p.length = s.path.take p.length := by
  obtain ⟨N, hN⟩ := doPath_spec (fun _ => rfl) hcomponent hdir hfits
  refine ⟨N, ?_⟩
  intro fuel hfuel
  obtain ⟨s', hs', hvisited⟩ := hN fuel hfuel s ⟨hpath, hinfo, hmask, hfindattr, rfl, rfl⟩
  have htake : s'.path.take p.length = s.path.take p.length :=
    (List.prefix_iff_eq_take.mp hvisited.begins).symm.trans (List.prefix_iff_eq_take.mp hpath)
  exact ⟨s', hs', hvisited.output, hvisited.found, htake⟩

/-! A disk that meets the contract. -/

def dosMatching : Matching where
  name m n := m = .ofString "*.*" || m = n
  attrib mask a := a &&& ~~~mask &&& (_A_HIDDEN ||| _A_SYSTEM ||| _A_SUBDIR) = 0
  name_star n := by simp
  attrib_dir a _ := by
    have hnone : ~~~(DIR_ATTR.setWidth 32) &&& (_A_HIDDEN ||| _A_SYSTEM ||| _A_SUBDIR) = 0#32 := by
      decide
    rw [BitVec.and_assoc, hnone]
    simp

/--
The search functions on a disk with these directories. A record has the entries still to come.
-/
def diskFinder (M : Matching) (disk : List Char → List Entry) : Finder (List (Text × BitVec 32)) where
  findfirst path attr _ :=
    let m := Text.ofChars (path.chars.reverse.takeWhile (!isSeparator ·)).reverse
    let dir := disk (path.chars.reverse.dropWhile (!isSeparator ·)).reverse
    let found := dir.filter fun e => M.name m e.name && M.attrib attr e.attrib
    (if found.isEmpty then 18 else 0, found.map fun e => (e.name, e.attrib))
  findnext f := (if f.tail.isEmpty then 18 else 0, f.tail)
  name f := (f.head?.map Prod.fst).getD .empty
  attrib f := (f.head?.map Prod.snd).getD 0
  uninit := []

theorem diskFinder_enumerates (M : Matching) (disk : List Char → List Entry) (es : List Entry)
    : Enumerates (diskFinder M disk)
        (if es.isEmpty then 18 else 0, es.map fun e => (e.name, e.attrib)) es := by
  induction es with
  | nil => exact .done 18 [] (by decide)
  | cons e es ih =>
    refine .found _ e es rfl rfl ?_
    unfold diskFinder
    simp only [List.map_cons, List.tail_cons, List.isEmpty_map]
    exact ih

theorem splitAtSeparator {p m : List Char} (hp : ∀ c ∈ p.getLast?, isSeparator c = true)
    (hm : ∀ c ∈ m, isSeparator c = false)
    : ((p ++ m).reverse.takeWhile (!isSeparator ·)).reverse = m
        ∧ ((p ++ m).reverse.dropWhile (!isSeparator ·)).reverse = p := by
  have hall : ∀ c ∈ m.reverse, (!isSeparator c) = true := by
    intro c hc
    rw [hm c (List.mem_reverse.mp hc)]
    rfl
  have hlast : p.reverse.takeWhile (!isSeparator ·) = []
      ∧ p.reverse.dropWhile (!isSeparator ·) = p.reverse := by
    rw [← List.head?_reverse] at hp
    cases hrev : p.reverse with
    | nil => exact ⟨rfl, rfl⟩
    | cons c cs =>
      rw [hrev] at hp
      have hc := hp c rfl
      constructor
      . rw [List.takeWhile_cons_of_neg (by simp [hc])]
      . rw [List.dropWhile_cons_of_neg (by simp [hc])]
  rw [List.reverse_append, List.takeWhile_append_of_pos hall, List.dropWhile_append_of_pos hall,
    hlast.1, hlast.2]
  simp

theorem separator_of_all {p : Text} (h : p.chars.getLast?.all isSeparator = true)
    : ∀ c ∈ p.chars.getLast?, isSeparator c = true := by
  intro c hc
  rw [Option.mem_def] at hc
  rw [hc] at h
  exact h

theorem diskFinder_lists (M : Matching) (disk : List Char → List Entry) {p : Text}
    (hp : ∀ c ∈ p.chars.getLast?, isSeparator c = true)
    : Lists (diskFinder M disk) M p (disk p.chars) := by
  intro m hm attr f
  refine ⟨_, .refl _, ?_⟩
  obtain ⟨htake, hdrop⟩ := splitAtSeparator hp hm
  have hfirst : (diskFinder M disk).findfirst (p ++ m) attr f
      = (if ((disk p.chars).filter fun e => M.name m e.name && M.attrib attr e.attrib).isEmpty
          then 18 else 0,
        ((disk p.chars).filter fun e => M.name m e.name && M.attrib attr e.attrib).map
          fun e => (e.name, e.attrib)) := by
    unfold diskFinder
    simp only [Text.chars_append, htake, hdrop, Text.ofChars_chars]
  rw [hfirst]
  exact diskFinder_enumerates M disk _

def file (name : String) (attrib : BitVec 32) : Entry :=
  .mk (.ofString name) attrib []

def dir (name : String) (content : List Entry) : Entry :=
  .mk (.ofString name) _A_SUBDIR content

def smallSub : List Entry :=
  [file "G" 0x20, file "F" 0x22]

def smallRoot : List Entry :=
  [dir "." [], file "F" 0x21, dir "SUB" smallSub]

def smallDisk (cs : List Char) : List Entry :=
  if cs = "C:\\".toList then smallRoot else if cs = "C:\\SUB\\".toList then smallSub else []

theorem smallDisk_directory
    : Directory (diskFinder dosMatching smallDisk)
        ⟨dosMatching, .ofString "F", ALL_ATTR, fun n => !isDots n⟩ (.ofString "C:\\") smallRoot := by
  refine .mk _ _ (diskFinder_lists dosMatching smallDisk (separator_of_all (by decide))) ?_
  intro e he hisDir henters
  simp only [smallRoot, List.mem_cons, List.not_mem_nil, or_false] at he
  rcases he with rfl | rfl | rfl
  . exact absurd henters (by decide)
  . exact absurd hisDir (by decide)
  . refine .mk _ _ (diskFinder_lists dosMatching smallDisk (separator_of_all (by decide))) ?_
    intro e he hisDir _
    simp only [dir, Entry.content, smallSub, List.mem_cons, List.not_mem_nil, or_false] at he
    rcases he with rfl | rfl
    . exact absurd hisDir (by decide)
    . exact absurd hisDir (by decide)

theorem smallDisk_fits
    : Fits 23 1 ⟨dosMatching, .ofString "F", ALL_ATTR, fun n => !isDots n⟩ (.ofString "C:\\")
        smallRoot := by
  refine .mk _ _ (by decide) (by decide) (by decide) ?_
  intro _ e he hisDir henters
  simp only [smallRoot, List.mem_cons, List.not_mem_nil, or_false] at he
  rcases he with rfl | rfl | rfl
  . exact absurd henters (by decide)
  . exact absurd hisDir (by decide)
  . refine .mk _ _ (by decide) (by decide) (by decide) ?_
    intro _ e he hisDir _
    simp only [dir, Entry.content, smallSub, List.mem_cons, List.not_mem_nil, or_false] at he
    rcases he with rfl | rfl
    . exact absurd hisDir (by decide)
    . exact absurd hisDir (by decide)

def smallState : State (List (Text × BitVec 32)) where
  recurse := 1
  findattr := ALL_ATTR
  path := "C:\\".toList ++ List.replicate 20 NUL
  mask := ['F', NUL]
  fi := []

theorem doPath_visits_smallDisk
    : ∃ N, ∀ fuel, N ≤ fuel → ∃ s',
        doPath (diskFinder dosMatching smallDisk) fuel 3 smallState = .ok s'
          ∧ (∃ lines, s'.output = lines
            ∧ lines.Perm [.say (.ofString "[---RA] -> [-----] ") (.ofString "C:\\F"),
                .say (.ofString "[-H--A] -> [-----] ") (.ofString "C:\\SUB\\F")])
          ∧ s'.found = 2
          ∧ s'.path.take 3 = "C:\\".toList :=
  doPath_visits (s := smallState) smallDisk_directory (isComponent_of_all (by decide)) rfl rfl
    ⟨_, rfl⟩ ⟨by decide, by decide, by decide⟩ smallDisk_fits

def dotsDisk (cs : List Char) : List Entry :=
  if cs = [] then [dir "..." [file "F" 0x20]] else if cs = "...\\".toList then [file "F" 0x20] else []

/--
A directory that has a name of three dots is not gone into.
-/
theorem not_doPath_visits_threeDots
    : Directory (diskFinder dosMatching dotsDisk)
          ⟨dosMatching, .ofString "F", ALL_ATTR, fun n => n ≠ .ofString "." ∧ n ≠ .ofString ".."⟩
          .empty (dotsDisk [])
      ∧ (⟨dosMatching, .ofString "F", ALL_ATTR, fun n => n ≠ .ofString "." ∧ n ≠ .ofString ".."⟩
          : Search).hits 1 .empty (dotsDisk []) = [⟨.ofString "...\\F", 0x20⟩]
      ∧ (doPath (diskFinder dosMatching dotsDisk) 8 0
          { smallState with path := List.replicate 20 NUL }).toOption.map State.output
        = some [] := by
  refine ⟨?_, by decide, by decide⟩
  refine .mk _ _ (diskFinder_lists dosMatching dotsDisk (separator_of_all (by decide))) ?_
  intro e he _ _
  simp only [dotsDisk, List.mem_cons, List.not_mem_nil, or_false, ↓reduceIte] at he
  subst he
  refine .mk _ _ (diskFinder_lists dosMatching dotsDisk (separator_of_all (by decide))) ?_
  intro e he hisDir _
  simp only [dir, Entry.content, List.mem_cons, List.not_mem_nil, or_false] at he
  subst he
  exact absurd hisDir (by decide)

end Attrib
end Dosix
