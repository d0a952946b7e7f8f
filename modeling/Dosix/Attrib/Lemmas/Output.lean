import Dosix.Attrib.Lemmas.Options
import Dosix.Attrib.Lemmas.Room
import Dosix.DepthFirst.Basic

/-!
This module contains what `process` prints for a target on a given disk, line by line: the files that
match in the directories that the traversal visits, or the error when there are none.
-/

namespace Dosix
namespace Attrib

open Transition

variable {φ ω : Type}

/-! What there is to print. -/

namespace Traversal

variable (T : Traversal)

def enters (e : Entry) : Bool :=
  e.isDir && !isDots e.name

/--
The path prefixes of the directories that are gone into from this one.
-/
def subs (p : Text) : List Text :=
  if T.recurse = 0 then [] else ((T.entries p).filter enters).map fun e => Search.sub p e.name

def here (p : Text) : List Hit :=
  Search.named p (T.matching p)

/--
The files that match in a directory and in those at most `depth` levels below it.
-/
def hitsTo (depth : Nat) (p : Text) : List Hit :=
  (DepthFirst.visit T.subs depth p).flatMap T.here

/--
No path that fits has more levels than it has characters.
-/
def hits : List Hit :=
  T.hitsTo size (startOf T.target)

theorem enters_iff {e : Entry} : enters e = true ↔ Entered e := by
  unfold enters Entered
  rw [Bool.and_eq_true, Bool.not_eq_true']

theorem hitsTo_succ (depth : Nat) (p : Text)
    : T.hitsTo (depth + 1) p = T.here p ++ (T.subs p).flatMap (T.hitsTo depth) := by
  unfold hitsTo
  rw [DepthFirst.visit, List.flatMap_cons, List.flatMap_assoc]

end Traversal

inductive Report where
  | file (h : Hit)
  | noTargets (target : Text)
  | noList (name : Text)
  deriving DecidableEq

namespace Report

def code (r : Report) : BitVec 8 :=
  match r with
  | .file _ => EXIT_OK
  | .noTargets _ => E_TARGET
  | .noList _ => E_LIST

def output (info : Buffer) (r : Report) : Output :=
  match r with
  | .file h => h.line info
  | .noTargets target => .error "no targets" target
  | .noList name => .error "error open file" name

/--
The attributes that are computed for what is reported.
-/
def computed (masks : Mask.Collected 8) (r : Report) : List ATTR :=
  match r with
  | .file h => [masks.apply (h.attrib.setWidth 8)]
  | .noTargets _ | .noList _ => []

end Report

def raise (code : BitVec 8) (r : Report) : BitVec 8 :=
  if code < r.code then r.code else code

/--
What `process` reports about a target.
-/
def Traversal.reports (T : Traversal) : List Report :=
  T.hits.map Report.file ++
    if BitVec.ofNat 32 T.hits.length = 0 then [.noTargets T.target] else []

/-! The relation of the states. -/

def computedFor (s : State φ) (rs : List Report) : List ATTR :=
  if s.info[NEW_PART]? = some NUL then [] else rs.flatMap (Report.computed s.masks)

/--
From `s` to `t` this has been reported, and nothing else. What `world` sees of the search record is
as it was.
-/
structure Tells (world : φ → ω) (rs : List Report) (s t : State φ) : Prop where
  recurse : t.recurse = s.recurse
  useattr : t.useattr = s.useattr
  masks : t.masks = s.masks
  info : t.info.drop 6 = s.info.drop 6
  retcode : t.retcode = rs.foldl raise s.retcode
  output : t.output = s.output ++ rs.map (Report.output s.info)
  computed : t.computed = s.computed ++ computedFor s rs
  world : world t.fi = world s.fi

theorem output_congr {info info' : Buffer} (h : info'.drop 6 = info.drop 6)
    : Report.output info' = Report.output info := by
  funext r
  cases r with
  | file hit =>
    unfold Report.output Hit.line
    rw [h]
  | noTargets target => rfl
  | noList name => rfl

theorem newPart_congr {info info' : Buffer} (h : info'.drop 6 = info.drop 6)
    : info'[NEW_PART]? = info[NEW_PART]? := by
  have hget (b : Buffer) : b[NEW_PART]? = (b.drop 6)[2]? := by
    rw [List.getElem?_drop]
    rfl
  rw [hget, hget, h]

namespace Tells

variable {world : φ → ω} {rs rs' : List Report} {s t u : State φ}

theorem refl (s : State φ) : Tells world [] s s where
  recurse := rfl
  useattr := rfl
  masks := rfl
  info := rfl
  retcode := rfl
  output := by simp
  computed := by simp [computedFor]
  world := rfl

theorem trans (hst : Tells world rs s t) (htu : Tells world rs' t u)
    : Tells world (rs ++ rs') s u where
  recurse := htu.recurse.trans hst.recurse
  useattr := htu.useattr.trans hst.useattr
  masks := htu.masks.trans hst.masks
  info := htu.info.trans hst.info
  retcode := by rw [htu.retcode, hst.retcode, List.foldl_append]
  output := by
    rw [htu.output, hst.output, output_congr hst.info, List.map_append, List.append_assoc]
  computed := by
    have hfor : computedFor t rs' = computedFor s rs' := by
      unfold computedFor
      rw [newPart_congr hst.info, hst.masks]
    rw [htu.computed, hst.computed, hfor, List.append_assoc]
    unfold computedFor
    split
    . rfl
    . rw [List.flatMap_append]
  world := htu.world.trans hst.world

end Tells

/--
The search functions do not touch what `world` sees.
-/
structure Finder.Keeps (F : Finder φ) (world : φ → ω) : Prop where
  findfirst : ∀ path attr f, world (F.findfirst path attr f).2 = world f
  findnext : ∀ f, world (F.findnext f).2 = world f

namespace Traversal

variable {T : Traversal} {F : Finder φ} {world : φ → ω} {p : Text} {hits hits' : List Hit}
  {s t : State φ} {e : Entry}

/--
The lines of these files have been printed, and they have been counted.
-/
structure Shows (world : φ → ω) (hits : List Hit) (s t : State φ) : Prop
    extends Tells world (hits.map .file) s t where
  found : t.found = s.found + BitVec.ofNat 32 hits.length

namespace Shows

variable {u : State φ}

theorem refl (s : State φ) : Shows world [] s s where
  toTells := .refl s
  found := by simp

theorem trans (hst : Shows world hits s t) (htu : Shows world hits' t u)
    : Shows world (hits ++ hits') s u where
  toTells := by
    rw [List.map_append]
    exact hst.toTells.trans htu.toTells
  found := by
    rw [htu.found, hst.found, List.length_append, BitVec.add_assoc, BitVec.ofNat_add]

theorem withPath (h : Shows world hits s t) (path : Buffer)
    : Shows world hits s { t with path := path } :=
  ⟨⟨h.recurse, h.useattr, h.masks, h.info, h.retcode, h.output, h.computed, h.world⟩, h.found⟩

theorem withFi (h : Shows world hits s t) {fi : φ} (hfi : world fi = world t.fi)
    : Shows world hits s { t with fi := fi } :=
  ⟨⟨h.recurse, h.useattr, h.masks, h.info, h.retcode, h.output, h.computed, hfi.trans h.world⟩,
    h.found⟩

end Shows

/--
If the call returns, it has printed the lines of these files.
-/
def Prints (T : Traversal) (world : φ → ω) (p : Text) (hits : List Hit) (s : State φ)
    (x : Except Fault (State φ)) : Prop :=
  Meets (fun t => T.Usable p t ∧ Shows world hits s t) (fun _ => True) x

theorem Prints.after {x : Except Fault (State φ)} (hst : Shows world hits s t)
    (h : Prints T world p hits' t x)
    : Prints T world p (hits ++ hits') s x :=
  Meets.imp h fun _ hu => ⟨hu.1, hst.trans hu.2⟩

theorem Prints.of_path {x : Except Fault (State φ)} {path : Buffer}
    (h : Prints T world p hits { s with path := path } x)
    : Prints T world p hits s x :=
  .after ((Shows.refl s).withPath path) h

theorem Prints.bind {x : Except Fault (State φ)} {k : State φ → Except Fault (State φ)}
    (hx : Prints T world p hits s x) (hk : ∀ t, T.Usable p t → Prints T world p hits' t (k t))
    : Prints T world p (hits ++ hits') s (x >>= k) := by
  cases x with
  | error f => trivial
  | ok t => exact .after hx.2 (hk t hx.1)

/-! `do_mask`. -/

theorem adds_returns (h : T.Usable p s) {src : Text} {m : Nat × Buffer}
    (hrun : adds p.length src s.path = .ok m)
    : m.1 = (p ++ src).length ∧ m.2.read 0 = .ok (p ++ src)
        ∧ T.Usable (p ++ src) { s with path := m.2 } ∧ p.length + src.length < size := by
  have hadds : Settles True _ _ (adds p.length src s.path) := adds_settles h src
  obtain ⟨⟨hend, hread, husable⟩, hlt⟩ := hadds.of_ok hrun
  exact ⟨hend, hread, husable, hlt⟩

theorem sayFile_prints (world : φ → ω) (h : T.Usable p s) (hname : F.name s.fi = e.name)
    (hattrib : F.attrib s.fi = e.attrib)
    : Meets (fun t => (T.Usable p t ∧ Shows world [Search.hit p e] s t) ∧ t.fi = s.fi)
        (fun _ => True) (sayFile F p.length s) := by
  by_cases hlt : p.length + e.name.length < s.path.length
  case neg =>
    unfold sayFile adds Buffer.stpcpy
    rw [hname, if_neg hlt]
    trivial
  obtain ⟨path, hadds, hlength, hpath, hread⟩ := Buffer.stpcpy_eq e.name h.begins hlt
  obtain ⟨info, hattr, hframed, hdrop, hinfoRead⟩ :=
    attr2str_framed ((F.attrib s.fi).setWidth 8) h.framed
  have hnew := newPart_congr hdrop
  unfold sayFile adds
  rw [hname, hadds]
  dsimp only [bind, Except.bind]
  rw [hattr]
  unfold newAttr
  dsimp only
  rw [hnew]
  have hbegins : p.chars <+: path := (List.prefix_append _ _).trans hpath
  have husable : T.Usable p { s with path := path, info := info } :=
    ⟨⟨hlength.trans h.path, h.mask, hframed, h.recurse, h.useattr⟩, hbegins, h.reads, h.findattr⟩
  by_cases hcut : s.info[NEW_PART]? = some NUL
  . rw [if_neg (not_not.mpr hcut)]
    dsimp only
    rw [hinfoRead, hread, hattrib]
    refine ⟨⟨⟨⟨husable.path, husable.mask, hframed, h.recurse, h.useattr⟩, hbegins, h.reads,
      h.findattr⟩, ⟨rfl, rfl, rfl, hdrop, rfl, rfl, ?_, rfl⟩, rfl⟩, rfl⟩
    simp [say, computedFor, hcut]
  . rw [if_pos hcut]
    dsimp only
    rw [hinfoRead, hread, hattrib]
    refine ⟨⟨⟨⟨husable.path, husable.mask, hframed, h.recurse, h.useattr⟩, hbegins, h.reads,
      h.findattr⟩, ⟨rfl, rfl, rfl, hdrop, rfl, rfl, ?_, rfl⟩, rfl⟩, rfl⟩
    simp [say, computedFor, hcut, Report.computed, State.masks, Mask.Collected.apply, Search.hit]

theorem named_cons_dots {es : List Entry} (h : isDots e.name = true)
    : Search.named p (e :: es) = Search.named p es := by
  unfold Search.named
  rw [List.filter_cons_of_neg (by simp [h])]

theorem named_cons {es : List Entry} (h : isDots e.name = false)
    : Search.named p (e :: es) = Search.hit p e :: Search.named p es := by
  unfold Search.named
  rw [List.filter_cons_of_pos (by simp [h]), List.map_cons]

theorem doMaskBody_prints (world : φ → ω) (h : T.Usable p s) (hname : F.name s.fi = e.name)
    (hattrib : F.attrib s.fi = e.attrib)
    : Meets (fun t => (T.Usable p t ∧ Shows world (Search.named p [e]) s t) ∧ t.fi = s.fi)
        (fun _ => True) (doMaskBody F p.length s) := by
  unfold doMaskBody
  rw [hname]
  cases hdots : isDots e.name with
  | true =>
    rw [named_cons_dots hdots]
    exact ⟨⟨h, .refl s⟩, rfl⟩
  | false =>
    rw [named_cons hdots]
    exact sayFile_prints world h hname hattrib

theorem doMaskLoop_prints (hkeeps : F.Keeps world) {es : List Entry} (fuel : Nat)
    (h : T.Usable p s) (hname : F.name s.fi = e.name) (hattrib : F.attrib s.fi = e.attrib)
    (hrest : Enumerates F (F.findnext s.fi) es)
    : Prints T world p (Search.named p (e :: es)) s (doMaskLoop F p.length fuel s) := by
  induction fuel generalizing e es s with
  | zero => trivial
  | succ fuel ih =>
    have hbody := doMaskBody_prints world h hname hattrib
    unfold doMaskLoop
    cases hrun : doMaskBody F p.length s with
    | error f => trivial
    | ok t =>
      obtain ⟨⟨ht, hshows⟩, hfi⟩ := hbody.of_ok hrun
      have hnamed : Search.named p (e :: es) = Search.named p [e] ++ Search.named p es := by
        unfold Search.named
        rw [← List.singleton_append, List.filter_append, List.map_append]
      have hworld := hkeeps.findnext s.fi
      cases hnext : F.findnext s.fi with
      | mk code f =>
        rw [hnext] at hrest hworld
        have hstart := ht.withFound f
        have hstep : Shows world (Search.named p [e]) s { t with fi := f } :=
          hshows.withFi (hworld.trans (congrArg world hfi.symm))
        simp only [bind, Except.bind, hfi, hnext]
        rw [hnamed]
        cases hrest with
        | done _ _ hcode =>
          rw [if_neg hcode]
          exact .after hstep ⟨hstart, .refl _⟩
        | found _ e' es hname' hattrib' hrest' =>
          rw [if_pos rfl]
          exact .after hstep (ih hstart hname' hattrib' hrest')

theorem doMask_prints (hF : T.AnswersAt F p) (hkeeps : F.Keeps world) (fuel : Nat)
    (h : T.Usable p s)
    : Meets (fun t => (T.Usable p t ∧ Shows world (T.here p) s t) ∧ p.length < size)
        (fun _ => True) (doMask F p.length fuel s) := by
  unfold doMask
  rw [h.reads]
  cases hrun : adds p.length T.mask s.path with
  | error f =>
    simp only [bind, Except.bind, hrun]
    trivial
  | ok m =>
    obtain ⟨-, hread, ht, hlt⟩ := adds_returns h hrun
    have hfound := hF.matching s.fi
    have hworld := hkeeps.findfirst (p ++ T.mask) (s.findattr.setWidth 32) s.fi
    unfold here
    rw [← h.findattr] at hfound
    generalize T.matching p = found at hfound ⊢
    cases hfirst : F.findfirst (p ++ T.mask) (s.findattr.setWidth 32) s.fi with
    | mk code f =>
      rw [hfirst] at hfound hworld
      have hstart := (ht.shorten (List.prefix_append _ _)).withFound f
      have hstep : Shows world [] s { s with path := m.2, fi := f } :=
        ((Shows.refl s).withPath m.2).withFi hworld
      have hroom : p.length < size := Nat.lt_of_le_of_lt (Nat.le_add_right _ _) hlt
      simp only [bind, Except.bind, hrun, hread, hfirst]
      cases hfound with
      | done _ _ hcode =>
        rw [if_pos hcode]
        exact ⟨⟨hstart, hstep⟩, hroom⟩
      | found _ e es hname hattrib hrest =>
        rw [if_neg (by simp)]
        have hloop := doMaskLoop_prints hkeeps fuel hstart hname hattrib hrest
        exact (Prints.after hstep hloop).imp fun _ hu => ⟨hu, hroom⟩

/-! `do_path`. -/

section

variable {again : Nat → State φ → Except Fault (State φ)} {fi : φ} {below : Text → List Hit}

theorem doPathBody_prints (below : Text → List Hit) (h : T.Usable p s) (hname : F.name fi = e.name)
    (hattrib : F.attrib fi = e.attrib)
    (hagain : enters e = true → ∀ t, T.Usable (Search.sub p e.name) t →
      Prints T world (Search.sub p e.name) (below (Search.sub p e.name)) t
        (again (Search.sub p e.name).length t))
    : Prints T world p (if enters e then below (Search.sub p e.name) else []) s
        (doPathBody F again p.length fi s) := by
  unfold doPathBody
  rw [hname, hattrib]
  by_cases hdir : e.attrib &&& _A_SUBDIR = 0
  . rw [if_pos hdir, if_neg (by simp [enters, Entry.isDir, hdir])]
    exact ⟨h, .refl s⟩
  rw [if_neg hdir]
  cases hdots : isDots e.name with
  | true =>
    rw [if_pos rfl, if_neg (by simp [enters, hdots])]
    exact ⟨h, .refl s⟩
  | false =>
    have henters : enters e = true := enters_iff.mpr ⟨by simpa [Entry.isDir] using hdir, hdots⟩
    rw [if_pos henters, if_neg Bool.false_ne_true]
    cases hrun : adds p.length e.name s.path with
    | error f =>
      simp only [bind, Except.bind]
      trivial
    | ok m =>
      obtain ⟨pend, path⟩ := m
      obtain ⟨rfl, -, ht, -⟩ := adds_returns h hrun
      simp only [bind, Except.bind]
      cases hrun' : adds (p ++ e.name).length (.ofString "\\") path with
      | error f => trivial
      | ok m =>
        obtain ⟨pend', path'⟩ := m
        obtain ⟨rfl, -, hu, -⟩ := adds_returns ht hrun'
        exact (hagain henters _ hu).of_path.of_path.imp fun _ hu => ⟨hu.1.shorten (prefix_sub p e.name), hu.2⟩

theorem doPathLoop_prints {es : List Entry} (fuel : Nat) (h : T.Usable p s)
    (hname : F.name fi = e.name) (hattrib : F.attrib fi = e.attrib)
    (hrest : Enumerates F (F.findnext fi) es)
    (hagain : ∀ e' ∈ e :: es, enters e' = true → ∀ t, T.Usable (Search.sub p e'.name) t →
      Prints T world (Search.sub p e'.name) (below (Search.sub p e'.name)) t
        (again (Search.sub p e'.name).length t))
    : Prints T world p ((((e :: es).filter enters).map fun e => Search.sub p e.name).flatMap below) s
        (doPathLoop F again p.length fuel fi s) := by
  induction fuel generalizing e es fi s with
  | zero => trivial
  | succ fuel ih =>
    have hbody := doPathBody_prints below h hname hattrib (hagain e (by simp))
    have hsplit : ((((e :: es).filter enters).map fun e => Search.sub p e.name).flatMap below)
        = (if enters e then below (Search.sub p e.name) else [])
          ++ ((es.filter enters).map fun e => Search.sub p e.name).flatMap below := by
      rw [List.filter_cons]
      split
      . simp
      . rfl
    unfold doPathLoop
    rw [hsplit]
    apply hbody.bind
    intro t ht
    cases hnext : F.findnext fi with
    | mk code f =>
      rw [hnext] at hrest
      dsimp only
      cases hrest with
      | done _ _ hcode =>
        rw [if_neg hcode]
        exact ⟨ht, .refl t⟩
      | found _ e' es hname' hattrib' hrest' =>
        rw [if_pos rfl]
        exact ih ht hname' hattrib' hrest' fun e'' he'' => hagain e'' (.tail _ he'')

end

theorem doPath_prints (hF : T.AnswersBelow F p) (hkeeps : F.Keeps world) (fuel : Nat) {depth : Nat}
    (hdepth : size ≤ p.length + depth) (h : T.Usable p s)
    : Prints T world p (T.hitsTo depth p) s (doPath F fuel p.length s) := by
  induction fuel generalizing p s depth with
  | zero => trivial
  | succ fuel ih =>
    have hmask := doMask_prints (hF p (.start p)) hkeeps fuel h
    unfold doPath
    cases hrun : doMask F p.length fuel s with
    | error f => trivial
    | ok t =>
      obtain ⟨⟨ht, hshows⟩, hlt⟩ := hmask.of_ok hrun
      obtain ⟨depth, rfl⟩ : ∃ n, depth = n + 1 := ⟨depth - 1, by omega⟩
      rw [hitsTo_succ]
      apply Prints.after hshows
      unfold subs
      simp only [bind, Except.bind]
      rw [← ht.recurse]
      by_cases hrecurse : t.recurse = 0
      . rw [if_pos hrecurse, if_pos hrecurse]
        exact ⟨ht, .refl t⟩
      rw [if_neg hrecurse, if_neg hrecurse]
      cases hstar : adds p.length (.ofString "*.*") t.path with
      | error f => trivial
      | ok m =>
        obtain ⟨pend, path⟩ := m
        obtain ⟨-, hread, hu, -⟩ := adds_returns ht hstar
        have hbelow : T.recurse ≠ 0 := ht.recurse ▸ hrecurse
        have hfound := (hF p (.start p)).entries hbelow
        have hsub : ∀ e ∈ T.entries p, Entered e → T.AnswersBelow F (Search.sub p e.name) :=
          fun e he henters => hF.sub hbelow he henters
        generalize T.entries p = found at hfound hsub ⊢
        dsimp only at hread hu
        have hstart := hu.shorten (List.prefix_append _ _)
        apply Prints.of_path
        cases hfirst : F.findfirst (p ++ star) (DIR_ATTR.setWidth 32) F.uninit with
        | mk code f =>
          rw [hfirst] at hfound
          simp only [hread]
          change F.findfirst (p ++ .ofString "*.*") _ _ = _ at hfirst
          simp only [hfirst]
          cases hfound with
          | done _ _ hcode =>
            rw [if_pos hcode]
            exact ⟨hstart, .refl _⟩
          | found _ e es hname hattrib hrest =>
            rw [if_neg (by simp)]
            apply doPathLoop_prints fuel hstart hname hattrib hrest
            intro e' he' henters u hu
            apply ih (hsub e' he' (enters_iff.mp henters)) _ hu
            rw [length_sub]
            omega

/-! `process`. -/

theorem Shows.tells_reports (h : Shows world T.hits s t) (hs : s.found = 0)
    : Tells world T.reports s
        (if t.found = 0 then error E_TARGET T.target "no targets" t else t) := by
  have hfound : t.found = BitVec.ofNat 32 T.hits.length := by
    rw [h.found, hs]
    exact BitVec.zero_add _
  unfold reports
  rw [hfound]
  split
  . apply h.toTells.trans
    exact ⟨rfl, rfl, rfl, rfl, rfl, rfl, by simp [error, computedFor, Report.computed], rfl⟩
  . rw [List.append_nil]
    exact h.toTells

theorem process_tells (hF : T.AnswersBelow F (startOf T.target)) (hkeeps : F.Keeps world) (fuel : Nat)
    (hs : Intact T.recurse T.useattr s)
    : Meets (fun t => Intact T.recurse T.useattr t ∧ Tells world T.reports s t) (fun _ => True)
        (process F fuel T.target s) := by
  obtain ⟨N, hN⟩ := process_settles (T := T) hF
  cases hrun : process F fuel T.target s with
  | error f => trivial
  | ok u =>
    -- there is room, and `nsplit` has left what the traversal needs
    obtain ⟨hu, hroom⟩ := (hN fuel s hs).of_ok hrun
    obtain ⟨path, s', hadds, hsplit, hs', hpath', hmask', hbegins, hreads⟩ :=
      nsplit_spec hroom.path hroom.mask { s with found := 0 } hs.path hs.mask
    generalize s'.path = path' at hs' hpath' hbegins
    generalize s'.mask = mask' at hs' hmask' hreads
    subst hs'
    have husable : T.Usable (startOf T.target) { s with
        found := 0, path := path', mask := mask', findattr := findattrOf s.useattr T.target } :=
      ⟨⟨hpath', hmask', hs.framed, hs.recurse, hs.useattr⟩, hbegins, hreads, by rw [hs.useattr]⟩
    have hprints := doPath_prints hF hkeeps fuel (Nat.le_add_left size _) husable
    unfold process at hrun
    simp only [hadds, bind, Except.bind, hsplit] at hrun
    generalize doPath F fuel (startOf T.target).length _ = x at hprints hrun
    cases x with
    | error f => cases hrun
    | ok t =>
      have htells := hprints.2.tells_reports rfl
      dsimp only at hrun
      split at hrun
      . next hnone =>
        rw [if_pos hnone] at htells
        injection hrun with hrun
        subst hrun
        exact ⟨hu, { htells with }⟩
      . next hsome =>
        rw [if_neg hsome] at htells
        injection hrun with hrun
        subst hrun
        exact ⟨hu, { htells with }⟩

end Traversal

/-! What the traversal comes to. -/

namespace Traversal

variable {T : Traversal} {p q : Text}

theorem mem_subs_iff : q ∈ T.subs p ↔ T.recurse ≠ 0 ∧ ∃ e ∈ T.entries p, Entered e
    ∧ q = Search.sub p e.name := by
  unfold subs
  by_cases hrecurse : T.recurse = 0
  . simp [hrecurse]
  . rw [if_neg hrecurse, List.mem_map]
    simp only [List.mem_filter, enters_iff, hrecurse, ne_eq, not_false_eq_true, true_and, and_assoc,
      eq_comm (a := q)]

theorem reached_iff : T.Reached p q ↔ DepthFirst.Below T.subs p q := by
  constructor
  . intro h
    induction h with
    | start p => exact .refl
    | sub hrecurse he henters _ ih => exact .head (mem_subs_iff.mpr ⟨hrecurse, _, he, henters, rfl⟩) ih
  . intro h
    induction h using Relation.ReflTransGen.head_induction_on with
    | refl => exact .start q
    | head hsub _ ih =>
      obtain ⟨hrecurse, e, he, henters, rfl⟩ := mem_subs_iff.mp hsub
      exact .sub hrecurse he henters ih

theorem Room.ranked (h : T.Room p) : DepthFirst.Ranked T.subs (fun q => size - q.length) p := by
  intro q hq r hr
  obtain ⟨hrecurse, e, he, henters, rfl⟩ := mem_subs_iff.mp hr
  have hlt := (h q (reached_iff.mpr hq)).forSubs hrecurse e he henters
  dsimp only
  rw [length_sub]
  omega

/--
The files that are found for a target are those that match in the directories that are reached.
-/
theorem HasRoom.mem_hits_iff (h : T.HasRoom) {hit : Hit}
    : hit ∈ T.hits ↔ ∃ q, T.Reached (startOf T.target) q
        ∧ ∃ e ∈ T.matching q, isDots e.name = false ∧ hit = Search.hit q e := by
  have hvisit := fun q => (Room.ranked h.below).mem_visit_iff (b := q) (Nat.sub_le size _)
  unfold hits hitsTo
  simp only [List.mem_flatMap, hvisit, ← reached_iff, here, Search.named, List.mem_map,
    List.mem_filter, Bool.not_eq_true', and_assoc, eq_comm (a := hit)]

end Traversal

/-! Runs of `process`. -/

open Traversal

variable {F : Finder φ} {disk : Listing} {recurse : BitVec 8} {useattr : ATTR} {world : φ → ω}
  {s : State φ}

/--
What is reported about one target after the other.
-/
def reportsOf (disk : Listing) (recurse : BitVec 8) (useattr : ATTR) (targets : List Text)
    : List Report :=
  targets.flatMap fun target => Traversal.reports ⟨disk, recurse, useattr, target⟩

theorem processAll_tells (hF : Answers F disk) (hkeeps : F.Keeps world) (fuel : Nat)
    (targets : List Text) (hs : Intact recurse useattr s)
    : Meets (fun t => Intact recurse useattr t
          ∧ Tells world (reportsOf disk recurse useattr targets) s t)
        (fun _ => True) (processAll (process F fuel) targets s) := by
  induction targets generalizing s with
  | nil => exact ⟨hs, .refl s⟩
  | cons target targets ih =>
    have hprocess := process_tells (T := ⟨disk, recurse, useattr, target⟩) (answersBelow hF _)
      hkeeps fuel hs
    unfold processAll reportsOf
    rw [List.foldlM_cons, List.flatMap_cons]
    cases hrun : process F fuel target s with
    | error f => trivial
    | ok t =>
      obtain ⟨ht, htells⟩ := hprocess.of_ok hrun
      exact (ih ht).imp fun u hu => ⟨hu.1, htells.trans hu.2⟩

theorem processAll_reports (hF : Answers F disk) (hkeeps : F.Keeps world) (recurse : BitVec 8)
    (useattr : ATTR) {targets : List Text}
    (hroom : ∀ target ∈ targets, HasRoom ⟨disk, recurse, useattr, target⟩)
    : ∃ N, ∀ fuel, N ≤ fuel → ∀ s, Intact recurse useattr s →
        ∃ t, processAll (process F fuel) targets s = .ok t ∧ Intact recurse useattr t
          ∧ Tells world (reportsOf disk recurse useattr targets) s t := by
  obtain ⟨N, hN⟩ := processAll_settles hF recurse useattr targets
  refine ⟨N, ?_⟩
  intro fuel hfuel s hs
  have hrun := hN fuel s hs
  cases h : processAll (process F fuel) targets s with
  | ok t => exact ⟨t, rfl, (processAll_tells hF hkeeps fuel targets hs).of_ok h⟩
  | error f =>
    rcases hrun.of_error h with ⟨-, hnot⟩ | ⟨-, hnot⟩
    . exact absurd hfuel hnot
    . exact absurd hroom hnot

theorem process_reports {T : Traversal} (hF : T.AnswersBelow F (startOf T.target))
    (hroom : T.HasRoom)
    : ∃ N, ∀ fuel, N ≤ fuel → ∀ s, Intact T.recurse T.useattr s →
        ∃ t, process F fuel T.target s = .ok t
          ∧ t.output = s.output ++ T.reports.map (Report.output s.info) := by
  have hkeeps : F.Keeps (fun _ => ()) := ⟨fun _ _ _ => rfl, fun _ => rfl⟩
  obtain ⟨N, hN⟩ := process_settles hF
  refine ⟨N, ?_⟩
  intro fuel hfuel s hs
  have hrun := hN fuel s hs
  cases h : process F fuel T.target s with
  | ok t => exact ⟨t, rfl, ((process_tells hF hkeeps fuel hs).of_ok h).2.output⟩
  | error f =>
    rcases hrun.of_error h with ⟨-, hnot⟩ | ⟨-, hnot⟩
    . exact absurd hfuel hnot
    . exact absurd hroom hnot

theorem Traversal.HasRoom.mem_lines_iff {T : Traversal} (hroom : T.HasRoom) (info : Buffer)
    {line : Output}
    : line ∈ T.reports.map (Report.output info) ↔
        (∃ q, T.Reached (startOf T.target) q
          ∧ ∃ e ∈ T.matching q, isDots e.name = false ∧ line = (Search.hit q e).line info)
        ∨ BitVec.ofNat 32 T.hits.length = 0 ∧ line = .error "no targets" T.target := by
  have hfile : line ∈ (T.hits.map Report.file).map (Report.output info)
      ↔ ∃ q, T.Reached (startOf T.target) q
        ∧ ∃ e ∈ T.matching q, isDots e.name = false ∧ line = (Search.hit q e).line info := by
    rw [List.map_map, List.mem_map]
    constructor
    . rintro ⟨hit, hhit, rfl⟩
      obtain ⟨q, hq, e, he, hdots, rfl⟩ := hroom.mem_hits_iff.mp hhit
      exact ⟨q, hq, e, he, hdots, rfl⟩
    . rintro ⟨q, hq, e, he, hdots, rfl⟩
      exact ⟨Search.hit q e, hroom.mem_hits_iff.mpr ⟨q, hq, e, he, hdots, rfl⟩, rfl⟩
  unfold reports
  rw [List.map_append, List.mem_append, hfile]
  apply or_congr_right
  by_cases hnone : BitVec.ofNat 32 T.hits.length = 0
  . simp [hnone, Report.output]
  . rw [if_neg hnone]
    exact iff_of_false List.not_mem_nil fun h => hnone h.1

/--
What is printed about a target: a line for each file that matches in a directory that is reached, or
an error if their number is counted as 0.
-/
theorem process_says_iff {T : Traversal} (hF : Answers F T.disk) (hroom : T.HasRoom)
    : ∃ N, ∀ fuel, N ≤ fuel → ∀ s, Intact T.recurse T.useattr s →
        ∃ t lines, process F fuel T.target s = .ok t ∧ t.output = s.output ++ lines
          ∧ ∀ line, line ∈ lines ↔
            (∃ q, T.Reached (startOf T.target) q
              ∧ ∃ e ∈ T.matching q, isDots e.name = false ∧ line = (Search.hit q e).line s.info)
            ∨ BitVec.ofNat 32 T.hits.length = 0 ∧ line = .error "no targets" T.target := by
  obtain ⟨N, hN⟩ := process_reports (answersBelow hF _) hroom
  refine ⟨N, ?_⟩
  intro fuel hfuel s hs
  obtain ⟨t, hprocess, houtput⟩ := hN fuel hfuel s hs
  exact ⟨t, _, hprocess, houtput, fun line => hroom.mem_lines_iff s.info⟩

theorem process_says_iff_smallTraversal
    : ∃ N, ∀ fuel, N ≤ fuel → ∃ t lines,
        process (diskFinder dosMatching smallDisk) fuel smallTraversal.target { recurse := 1, fi := [] }
            = .ok t
          ∧ t.output = [] ++ lines
          ∧ ∀ line, line ∈ lines ↔
            (∃ q, smallTraversal.Reached (startOf smallTraversal.target) q
              ∧ ∃ e ∈ smallTraversal.matching q, isDots e.name = false
                ∧ line = (Search.hit q e).line ("[-----] -> [-----] ".toList ++ [NUL]))
            ∨ BitVec.ofNat 32 smallTraversal.hits.length = 0
              ∧ line = .error "no targets" smallTraversal.target := by
  obtain ⟨N, hN⟩ := process_says_iff (T := smallTraversal)
    (diskFinder_answers dosMatching smallDisk) smallTraversal_hasRoom
  exact ⟨N, fun fuel hfuel => hN fuel hfuel _ (intact_start 1 [])⟩

end Attrib
end Dosix
