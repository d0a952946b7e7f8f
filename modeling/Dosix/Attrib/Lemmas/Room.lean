import Dosix.Attrib.Lemmas.ListFile
import Dosix.Attrib.Lemmas.Split
import Dosix.Transition.Basic

/-!
This module contains the room in the array of the path: which targets and directories the traversal
can deal with, and that it writes past the end of the array on all others.
-/

namespace Dosix
namespace Attrib

open Transition

variable {φ α β : Type}

/-! Runs that stay within the arrays. -/

/--
Where the condition holds the run leaves a good result, where it does not it leaves the arrays, and
it is followed to its end if that is enough.
-/
def Settles (enough c : Prop) (good : α → Prop) (r : Except Fault α) : Prop :=
  Meets (fun a => good a ∧ c) (fun f => f = .unfinished ∧ ¬ enough ∨ f = .undefined ∧ ¬ c) r

namespace Settles

variable {enough c d : Prop} {good : α → Prop} {good' : β → Prop} {x : Except Fault α}
  {k : α → Except Fault β}

theorem bind (h : Settles enough c good x) (hk : ∀ a, good a → c → Settles enough d good' (k a))
    : Settles enough (c ∧ d) good' (x >>= k) := by
  cases x with
  | error f =>
    rcases h with hf | ⟨hf, hc⟩
    . exact .inl hf
    . exact .inr ⟨hf, fun h => hc h.1⟩
  | ok a =>
    exact (hk a h.1 h.2).mono (fun b hb => ⟨hb.1, h.2, hb.2⟩) fun f hf =>
      hf.imp_right fun ⟨hf, hd⟩ => ⟨hf, fun h => hd h.2⟩

theorem congr (h : Settles enough c good x) (hcd : c ↔ d) : Settles enough d good x := by
  rwa [propext hcd] at h

theorem mono {enough' : Prop} {good' : α → Prop} (h : Settles enough c good x)
    (henough : enough' → enough) (hgood : ∀ a, good a → good' a)
    : Settles enough' c good' x :=
  Meets.mono h (fun _ ha => ⟨hgood _ ha.1, ha.2⟩) fun _ hf =>
    hf.imp_left fun ⟨hf, hnot⟩ => ⟨hf, mt henough hnot⟩

theorem ok (hc : c) {a : α} (h : good a) : Settles enough c good (.ok a) := ⟨h, hc⟩

theorem undefined (hc : ¬ c) : Settles enough c good (.error .undefined : Except Fault α) :=
  .inr ⟨rfl, hc⟩

theorem unfinished (h : ¬ enough) : Settles enough c good (.error .unfinished : Except Fault α) :=
  .inl ⟨rfl, h⟩

end Settles

/-! Directories. -/

/--
What a search for this path and these attributes returns, one after the other.
-/
abbrev Listing := Text → BitVec 32 → List Entry

def Answers (F : Finder φ) (disk : Listing) : Prop :=
  ∀ path attrib f, Enumerates F (F.findfirst path attrib f) (disk path attrib)

def Entered (e : Entry) : Prop :=
  e.isDir = true ∧ isDots e.name = false

/--
What a target is looked for on, and with which options.
-/
structure Traversal where
  disk : Listing
  recurse : BitVec 8
  useattr : ATTR
  target : Text

namespace Traversal

variable (T : Traversal)

def size : Nat := PATHLEN + 4

def mask : Text := maskOf T.target

def matching (p : Text) : List Entry :=
  T.disk (p ++ T.mask) ((findattrOf T.useattr T.target).setWidth 32)

def entries (p : Text) : List Entry :=
  T.disk (p ++ star) (DIR_ATTR.setWidth 32)

/--
The path prefixes that the traversal comes to.
-/
inductive Reached : Text → Text → Prop where
  | start (p : Text) : Reached p p
  | sub {p q : Text} {e : Entry} (hrecurse : T.recurse ≠ 0) (he : e ∈ T.entries p)
      (henters : Entered e) (hreached : Reached (Search.sub p e.name) q) : Reached p q

/--
The array has room for what is put behind the prefix: the mask, the names that match it, and if the
traversal goes on from there, `*.*` and the names of directories with a backslash.
-/
structure RoomAt (p : Text) : Prop where
  forMask : p.length + T.mask.length < size
  forNames : ∀ e ∈ T.matching p, isDots e.name = false → p.length + e.name.length < size
  forStar : T.recurse ≠ 0 → p.length + star.length < size
  forSubs : T.recurse ≠ 0 → ∀ e ∈ T.entries p, Entered e → p.length + e.name.length + 1 < size

/--
There is room wherever the traversal comes to.
-/
def Room (p : Text) : Prop :=
  ∀ q, T.Reached p q → T.RoomAt q

/--
The paths that the traversal starts searches for.
-/
inductive Asks : Text → Prop where
  | mask {q : Text} (hq : T.Reached (startOf T.target) q) : Asks (q ++ T.mask)
  | star {q : Text} (hq : T.Reached (startOf T.target) q) (hrecurse : T.recurse ≠ 0)
    : Asks (q ++ star)

/--
The search functions answer what the traversal asks for behind a prefix.
-/
structure AnswersAt (F : Finder φ) (p : Text) : Prop where
  matching : ∀ f, Enumerates F
    (F.findfirst (p ++ T.mask) ((findattrOf T.useattr T.target).setWidth 32) f) (T.matching p)
  entries : T.recurse ≠ 0 →
    Enumerates F (F.findfirst (p ++ star) (DIR_ATTR.setWidth 32) F.uninit) (T.entries p)

/--
They do so wherever the traversal comes to.
-/
def AnswersBelow (F : Finder φ) (p : Text) : Prop :=
  ∀ q, T.Reached p q → T.AnswersAt F q

theorem room_iff {p : Text} : T.Room p ↔ (p.length + T.mask.length < size
      ∧ ∀ e ∈ T.matching p, isDots e.name = false → p.length + e.name.length < size)
    ∧ (T.recurse ≠ 0 → p.length + star.length < size ∧ ∀ e ∈ T.entries p, Entered e →
      p.length + e.name.length + 1 < size ∧ T.Room (Search.sub p e.name)) := by
  constructor
  . intro h
    have hhere := h p (.start p)
    exact ⟨⟨hhere.forMask, hhere.forNames⟩, fun hrecurse => ⟨hhere.forStar hrecurse,
      fun e he henters => ⟨hhere.forSubs hrecurse e he henters,
        fun q hq => h q (.sub hrecurse he henters hq)⟩⟩⟩
  . rintro ⟨⟨hmask, hnames⟩, hbelow⟩ q hq
    cases hq with
    | start =>
      exact ⟨hmask, hnames, fun hrecurse => (hbelow hrecurse).1,
        fun hrecurse e he henters => ((hbelow hrecurse).2 e he henters).1⟩
    | sub hrecurse he henters hq => exact ((hbelow hrecurse).2 _ he henters).2 q hq

/-! The state. -/

/--
The arrays as they are declared, and the options.
-/
structure Intact (recurse : BitVec 8) (useattr : ATTR) (s : State φ) : Prop where
  path : s.path.length = size
  mask : s.mask.length = PATHLEN
  framed : Framed s.info
  recurse : s.recurse = recurse
  useattr : s.useattr = useattr

/--
The path begins with the prefix, and the other variables are as `nsplit` has left them.
-/
structure Usable (p : Text) (s : State φ) : Prop
    extends Intact T.recurse T.useattr s where
  begins : p.chars <+: s.path
  reads : s.mask.read 0 = .ok T.mask
  findattr : s.findattr = findattrOf T.useattr T.target

variable {T} {p q : Text} {F : Finder φ} {s s' : State φ} {enough : Prop}

theorem answersBelow (hF : Answers F T.disk) (p : Text) : T.AnswersBelow F p :=
  fun _ _ => ⟨fun f => hF _ _ f, fun _ => hF _ _ F.uninit⟩

theorem AnswersBelow.sub (h : T.AnswersBelow F p) (hrecurse : T.recurse ≠ 0) {e : Entry}
    (he : e ∈ T.entries p) (henters : Entered e) : T.AnswersBelow F (Search.sub p e.name) :=
  fun q hq => h q (.sub hrecurse he henters hq)

theorem Intact.visited {recurse : BitVec 8} {useattr : ATTR} (h : Intact recurse useattr s)
    {hits : List Hit} (hs : Visited p hits s s') : Intact recurse useattr s' where
  path := hs.length.trans h.path
  mask := (congrArg List.length (congrArg Settings.mask hs.settings)).trans h.mask
  framed := hs.framed
  recurse := (congrArg Settings.recurse hs.settings).trans h.recurse
  useattr := (congrArg Settings.useattr hs.settings).trans h.useattr

theorem Usable.visited (h : T.Usable p s) {hits : List Hit} (hs : Visited p hits s s')
    : T.Usable p s' where
  toIntact := h.toIntact.visited hs
  begins := hs.begins
  reads := by
    rw [show s'.mask = s.mask from congrArg Settings.mask hs.settings]
    exact h.reads
  findattr := (congrArg Settings.findattr hs.settings).trans h.findattr

theorem Usable.shorten (h : T.Usable q s) (hpq : p.chars <+: q.chars) : T.Usable p s :=
  { h with begins := hpq.trans h.begins }

theorem Usable.withFound (h : T.Usable p s) (fi : φ) : T.Usable p { s with fi := fi } :=
  ⟨⟨h.path, h.mask, h.framed, h.recurse, h.useattr⟩, h.begins, h.reads, h.findattr⟩

theorem Usable.withPath (h : T.Usable p s) {path : Buffer} (hpath : path.length = size)
    (hbegins : q.chars <+: path) : T.Usable q { s with path := path } :=
  ⟨⟨hpath, h.mask, h.framed, h.recurse, h.useattr⟩, hbegins, h.reads, h.findattr⟩

theorem prefix_sub (p name : Text) : p.chars <+: (Search.sub p name).chars :=
  (List.prefix_append p.chars name.chars).trans (List.prefix_append _ _)

theorem length_sub (p name : Text) : (Search.sub p name).length = p.length + name.length + 1 := by
  unfold Search.sub
  rw [Text.length_append, Text.length_append]
  rfl

/--
Copying a string behind the prefix.
-/
theorem adds_settles (h : T.Usable p s) (src : Text)
    : Settles enough (p.length + src.length < size)
        (fun m : Nat × Buffer => m.1 = (p ++ src).length ∧ m.2.read 0 = .ok (p ++ src)
          ∧ T.Usable (p ++ src) { s with path := m.2 })
        (adds p.length src s.path) := by
  by_cases hlt : p.length + src.length < size
  . obtain ⟨path, hadds, hlength, hbegins, hread⟩ :=
      Buffer.stpcpy_eq src h.begins (h.path.symm ▸ hlt)
    unfold adds
    rw [hadds]
    exact .ok hlt ⟨rfl, hread, h.withPath (hlength.trans h.path) hbegins⟩
  . unfold adds Buffer.stpcpy
    rw [h.path, if_neg hlt]
    exact .undefined hlt

/-! `do_mask`. -/

theorem sayFile_settles {e : Entry} (h : T.Usable p s) (hname : F.name s.fi = e.name)
    (hattrib : F.attrib s.fi = e.attrib)
    : Settles enough (p.length + e.name.length < size) (fun s' => T.Usable p s' ∧ s'.fi = s.fi)
        (sayFile F p.length s) := by
  by_cases hlt : p.length + e.name.length < size
  . obtain ⟨s', hs', hvisited, hfi⟩ :=
      sayFile_spec hname hattrib h.begins h.framed (h.path.symm ▸ hlt)
    rw [hs']
    exact .ok hlt ⟨h.visited hvisited, hfi⟩
  . unfold sayFile adds Buffer.stpcpy
    rw [hname, h.path, if_neg hlt]
    exact .undefined hlt

theorem doMaskBody_settles {e : Entry} (h : T.Usable p s) (hname : F.name s.fi = e.name)
    (hattrib : F.attrib s.fi = e.attrib)
    : Settles enough (isDots e.name = false → p.length + e.name.length < size)
        (fun s' => T.Usable p s' ∧ s'.fi = s.fi) (doMaskBody F p.length s) := by
  unfold doMaskBody
  rw [hname]
  cases isDots e.name with
  | true => exact .ok nofun ⟨h, rfl⟩
  | false => exact (sayFile_settles h hname hattrib).congr ⟨fun h _ => h, fun h => h rfl⟩

theorem doMaskLoop_settles {e : Entry} {es : List Entry} (fuel : Nat) (h : T.Usable p s)
    (hname : F.name s.fi = e.name) (hattrib : F.attrib s.fi = e.attrib)
    (hrest : Enumerates F (F.findnext s.fi) es)
    : Settles (es.length < fuel)
        (∀ e' ∈ e :: es, isDots e'.name = false → p.length + e'.name.length < size)
        (T.Usable p) (doMaskLoop F p.length fuel s) := by
  induction fuel generalizing e es s with
  | zero => exact .unfinished (Nat.not_lt_zero _)
  | succ fuel ih =>
    unfold doMaskLoop
    simp only [List.forall_mem_cons]
    apply (doMaskBody_settles h hname hattrib).bind
    rintro t ⟨ht, hfi⟩ -
    cases hnext : F.findnext s.fi with
    | mk code f =>
      rw [hnext] at hrest
      simp only [hfi, hnext]
      cases hrest with
      | done _ _ hcode =>
        rw [if_neg hcode]
        exact .ok (by simp) (ht.withFound f)
      | found _ e' es hname' hattrib' hrest' =>
        rw [if_pos rfl]
        exact (ih (ht.withFound f) hname' hattrib' hrest').mono Nat.lt_of_succ_lt_succ fun _ hu => hu

theorem doMask_settles (hF : T.AnswersAt F p) (fuel : Nat) (h : T.Usable p s)
    : Settles ((T.matching p).length ≤ fuel)
        (p.length + T.mask.length < size
          ∧ ∀ e ∈ T.matching p, isDots e.name = false → p.length + e.name.length < size)
        (T.Usable p) (doMask F p.length fuel s) := by
  unfold doMask
  rw [h.reads]
  apply (adds_settles h T.mask).bind
  rintro ⟨_, path⟩ ⟨-, hread, ht⟩ -
  have hfound := hF.matching s.fi
  rw [← h.findattr] at hfound
  dsimp only at hread ht
  generalize T.matching p = found at hfound ⊢
  cases hfirst : F.findfirst (p ++ T.mask) (s.findattr.setWidth 32) s.fi with
  | mk code f =>
    rw [hfirst] at hfound
    have hstart := (ht.shorten (List.prefix_append _ _)).withFound f
    simp only [bind, Except.bind, hread, hfirst]
    cases hfound with
    | done _ _ hcode =>
      rw [if_pos hcode]
      exact .ok (by simp) hstart
    | found _ e es hname hattrib hrest =>
      rw [if_neg (by simp)]
      exact doMaskLoop_settles fuel hstart hname hattrib hrest

/-! `do_path`. -/

section

variable {again : Nat → State φ → Except Fault (State φ)} {fi : φ} {e : Entry}

theorem doPathBody_settles (h : T.Usable p s) (hname : F.name fi = e.name)
    (hattrib : F.attrib fi = e.attrib)
    (hagain : Entered e → p.length + e.name.length + 1 < size → ∀ t,
      T.Usable (Search.sub p e.name) t → Settles enough (T.Room (Search.sub p e.name))
        (T.Usable (Search.sub p e.name)) (again (Search.sub p e.name).length t))
    : Settles enough
        (Entered e → p.length + e.name.length + 1 < size ∧ T.Room (Search.sub p e.name))
        (T.Usable p) (doPathBody F again p.length fi s) := by
  unfold doPathBody
  rw [hname, hattrib]
  by_cases hdir : e.attrib &&& _A_SUBDIR = 0
  . rw [if_pos hdir]
    exact .ok (fun henters => absurd henters.1 (by simp [Entry.isDir, hdir])) h
  rw [if_neg hdir]
  cases hdots : isDots e.name with
  | true =>
    rw [if_pos rfl]
    exact .ok (fun henters => absurd henters.2 (by simp [hdots])) h
  | false =>
    have henters : Entered e := ⟨by simpa [Entry.isDir] using hdir, hdots⟩
    have hback : (Text.ofString "\\").length = 1 := by decide
    have hcond : (p.length + e.name.length < size
          ∧ (p ++ e.name).length + (Text.ofString "\\").length < size
          ∧ T.Room (Search.sub p e.name))
        ↔ (Entered e → p.length + e.name.length + 1 < size ∧ T.Room (Search.sub p e.name)) := by
      rw [Text.length_append, hback]
      exact ⟨fun h _ => h.2, fun h => ⟨Nat.lt_of_succ_lt (h henters).1, h henters⟩⟩
    rw [if_neg (by simp)]
    refine Settles.congr ?_ hcond
    apply (adds_settles h e.name).bind
    rintro ⟨_, path⟩ ⟨rfl, -, ht⟩ -
    apply (adds_settles ht (.ofString "\\")).bind
    rintro ⟨_, path'⟩ ⟨rfl, -, hu⟩ hlt
    rw [Text.length_append, hback] at hlt
    exact (hagain henters hlt _ hu).mono id fun u hu => hu.shorten (prefix_sub p e.name)

theorem doPathLoop_settles {es : List Entry} (fuel : Nat) (h : T.Usable p s)
    (hname : F.name fi = e.name) (hattrib : F.attrib fi = e.attrib)
    (hrest : Enumerates F (F.findnext fi) es)
    (hagain : ∀ e' ∈ e :: es, Entered e' → p.length + e'.name.length + 1 < size → ∀ t,
      T.Usable (Search.sub p e'.name) t → Settles enough (T.Room (Search.sub p e'.name))
        (T.Usable (Search.sub p e'.name)) (again (Search.sub p e'.name).length t))
    : Settles (enough ∧ es.length < fuel)
        (∀ e' ∈ e :: es, Entered e' →
          p.length + e'.name.length + 1 < size ∧ T.Room (Search.sub p e'.name))
        (T.Usable p) (doPathLoop F again p.length fuel fi s) := by
  induction fuel generalizing e es fi s with
  | zero => exact .unfinished fun h => Nat.not_lt_zero _ h.2
  | succ fuel ih =>
    have hbody := doPathBody_settles h hname hattrib (hagain e (by simp))
    unfold doPathLoop
    simp only [List.forall_mem_cons]
    apply (hbody.mono And.left fun _ ht => ht).bind
    intro t ht _
    cases hnext : F.findnext fi with
    | mk code f =>
      rw [hnext] at hrest
      simp only [hnext]
      cases hrest with
      | done _ _ hcode =>
        rw [if_neg hcode]
        exact .ok (by simp) ht
      | found _ e' es hname' hattrib' hrest' =>
        rw [if_pos rfl]
        exact (ih ht hname' hattrib' hrest' fun e'' he'' => hagain e'' (.tail _ he'')).mono
          (fun h => ⟨h.1, Nat.lt_of_succ_lt_succ h.2⟩) fun _ hu => hu

end

/--
One level of directories, if that is enough for those below it.
-/
theorem doPath_step (hF : T.AnswersAt F p) (fuel : Nat) (h : T.Usable p s)
    (hagain : T.recurse ≠ 0 → ∀ e ∈ T.entries p, Entered e → p.length + e.name.length + 1 < size →
      ∀ t, T.Usable (Search.sub p e.name) t → Settles enough (T.Room (Search.sub p e.name))
        (T.Usable (Search.sub p e.name)) (doPath F fuel (Search.sub p e.name).length t))
    : Settles (enough ∧ (T.matching p).length ≤ fuel ∧ (T.entries p).length ≤ fuel) (T.Room p)
        (T.Usable p) (doPath F (fuel + 1) p.length s) := by
  refine Settles.congr ?_ T.room_iff.symm
  unfold doPath
  apply ((doMask_settles hF fuel h).mono (fun h => h.2.1) fun _ ht => ht).bind
  intro t ht _
  by_cases hrecurse : t.recurse = 0
  . rw [if_pos hrecurse]
    exact .ok (fun h => absurd (ht.recurse ▸ hrecurse) h) ht
  rw [if_neg hrecurse]
  have hbelow : T.recurse ≠ 0 := ht.recurse ▸ hrecurse
  refine Settles.congr ?_ (forall_prop_of_true hbelow).symm
  apply (adds_settles ht star).bind
  rintro ⟨_, path⟩ ⟨-, hread, hu⟩ -
  have hfound := hF.entries hbelow
  replace hagain := hagain hbelow
  generalize T.entries p = found at hfound hagain ⊢
  dsimp only at hread hu
  cases hfirst : F.findfirst (p ++ star) (DIR_ATTR.setWidth 32) F.uninit with
  | mk code f =>
    rw [hfirst] at hfound
    have hstart := hu.shorten (List.prefix_append _ _)
    simp only [bind, Except.bind, hread, hfirst]
    cases hfound with
    | done _ _ hcode =>
      rw [if_pos hcode]
      exact .ok (by simp) hstart
    | found _ e es hname hattrib hrest =>
      rw [if_neg (by simp)]
      exact (doPathLoop_settles fuel hstart hname hattrib hrest hagain).mono
        (fun h => ⟨h.1, h.2.2⟩) fun _ hv => hv

theorem doPath_settles (p : Text) (hF : T.AnswersBelow F p)
    : ∃ N, ∀ fuel s, T.Usable p s →
        Settles (N ≤ fuel) (T.Room p) (T.Usable p) (doPath F fuel p.length s) := by
  -- on what is left of the array: a directory is gone into only if its path is longer and fits
  induction hleft : size - p.length using Nat.strong_induction_on generalizing p with
  | _ left ih =>
    have hbounds : ∃ N, ∀ n, N ≤ n → ∀ e ∈ T.entries p, T.recurse ≠ 0 → Entered e →
        p.length + e.name.length + 1 < size → ∀ fuel t, T.Usable (Search.sub p e.name) t →
          Settles (n ≤ fuel) (T.Room (Search.sub p e.name)) (T.Usable (Search.sub p e.name))
            (doPath F fuel (Search.sub p e.name).length t) := by
      apply exists_bound
      intro e he
      by_cases hgoes : T.recurse ≠ 0 ∧ Entered e ∧ p.length + e.name.length + 1 < size
      . obtain ⟨hrecurse, henters, hlt⟩ := hgoes
        have hless : size - (Search.sub p e.name).length < left := by
          rw [length_sub]
          omega
        obtain ⟨N, hN⟩ := ih _ hless _ (hF.sub hrecurse he henters) rfl
        exact ⟨N, fun n hn _ _ _ fuel t ht => (hN fuel t ht).mono hn.trans fun _ hu => hu⟩
      . exact ⟨0, fun _ _ hrecurse henters hlt => absurd ⟨hrecurse, henters, hlt⟩ hgoes⟩
    obtain ⟨N, hN⟩ := hbounds
    refine ⟨max N (max (T.matching p).length (T.entries p).length) + 1, ?_⟩
    intro fuel s hs
    cases fuel with
    | zero => exact .unfinished (Nat.not_succ_le_zero _)
    | succ fuel =>
      have hstep := doPath_step (hF p (.start p)) fuel hs fun hrecurse e he henters hlt =>
        hN N le_rfl e he hrecurse henters hlt fuel
      exact hstep.mono (fun h => by omega) fun _ hu => hu

/-! `process`. -/

/--
Both arrays have room for the target, and the first one for whatever the traversal comes to.
-/
structure HasRoom (T : Traversal) : Prop where
  path : T.target.length < size
  mask : T.mask.length < PATHLEN
  below : T.Room (startOf T.target)

theorem process_settles (hF : T.AnswersBelow F (startOf T.target))
    : ∃ N, ∀ fuel s, Intact T.recurse T.useattr s →
        Settles (N ≤ fuel) T.HasRoom (Intact T.recurse T.useattr) (process F fuel T.target s) := by
  obtain ⟨N, hN⟩ := doPath_settles (startOf T.target) hF
  refine ⟨N, ?_⟩
  intro fuel s hs
  unfold process
  by_cases hpath : T.target.length < size
  case neg =>
    have hadds : adds 0 T.target s.path = .error .undefined := by
      rw [adds_zero, hs.path, if_neg hpath]
    simp only [hadds]
    exact .undefined fun h => hpath h.path
  by_cases hmask : T.mask.length < PATHLEN
  case neg =>
    have hadds : adds 0 T.target s.path
        = .ok (T.target.length, T.target.chars ++ NUL :: s.path.drop (T.target.length + 1)) := by
      rw [adds_zero, hs.path, if_pos hpath]
    have haddsMask : adds 0 (maskOf T.target) s.mask = .error .undefined := by
      rw [adds_zero, hs.mask]
      exact if_neg hmask
    simp only [hadds, bind, Except.bind]
    rw [nsplit_eq _ _ { s with found := 0 }, haddsMask]
    exact .undefined fun h => hmask h.mask
  obtain ⟨path, s', hadds, hsplit, hs', hpath', hmask', hbegins, hreads⟩ :=
    nsplit_spec hpath hmask { s with found := 0 } hs.path hs.mask
  have husable : T.Usable (startOf T.target) s' := by
    refine ⟨⟨hpath', hmask', ?_, ?_, ?_⟩, hbegins, hreads, ?_⟩
    . rw [hs']
      exact hs.framed
    . rw [hs']
      exact hs.recurse
    . rw [hs']
      exact hs.useattr
    . rw [hs', ← hs.useattr]
  have hroom : T.HasRoom ↔ T.Room (startOf T.target) := ⟨HasRoom.below, fun h => ⟨hpath, hmask, h⟩⟩
  simp only [hadds, bind, Except.bind, hsplit]
  refine Settles.congr ?_ ((and_iff_left trivial).trans hroom.symm)
  apply (hN fuel s' husable).bind
  intro t ht _
  split
  . exact .ok trivial ⟨ht.path, ht.mask, ht.framed, ht.recurse, ht.useattr⟩
  . exact .ok trivial ht.toIntact

end Traversal

/-! Runs. -/

open Traversal

variable {F : Finder φ} {disk : Listing} {recurse : BitVec 8} {useattr : ATTR}

theorem processAll_settles (hF : Answers F disk) (recurse : BitVec 8) (useattr : ATTR)
    (targets : List Text)
    : ∃ N, ∀ fuel s, Intact recurse useattr s →
        Settles (N ≤ fuel) (∀ target ∈ targets, HasRoom ⟨disk, recurse, useattr, target⟩)
          (Intact recurse useattr) (processAll (process F fuel) targets s) := by
  induction targets with
  | nil => exact ⟨0, fun _ _ hs => .ok (by simp) hs⟩
  | cons target targets ih =>
    obtain ⟨N, hN⟩ := process_settles (T := ⟨disk, recurse, useattr, target⟩) (answersBelow hF _)
    obtain ⟨N', hN'⟩ := ih
    refine ⟨max N N', ?_⟩
    intro fuel s hs
    unfold processAll
    rw [List.foldlM_cons]
    simp only [List.forall_mem_cons]
    apply ((hN fuel s hs).mono (le_max_left N N').trans fun _ ht => ht).bind
    intro t ht _
    exact (hN' fuel t ht).mono (le_max_right N N').trans fun _ hu => hu

/--
The targets that reach `process` on any disk stay within `path` and `mask` just if there is room for
each of them and for all that is found below it.
-/
theorem processAll_within_iff (hF : Answers F disk) {s : State φ} (hs : Intact recurse useattr s)
    (targets : List Text)
    : (∀ fuel, processAll (process F fuel) targets s ≠ .error .undefined)
      ↔ ∀ target ∈ targets, HasRoom ⟨disk, recurse, useattr, target⟩ := by
  obtain ⟨N, hN⟩ := processAll_settles hF recurse useattr targets
  constructor
  . intro hwithin
    have hrun := hN N s hs
    cases h : processAll (process F N) targets s with
    | ok t => exact (hrun.of_ok h).2
    | error f =>
      rcases hrun.of_error h with ⟨-, hfuel⟩ | ⟨rfl, -⟩
      . exact absurd le_rfl hfuel
      . exact absurd h (hwithin N)
  . intro hroom fuel hundefined
    rcases (hN fuel s hs).of_error hundefined with ⟨hf, -⟩ | ⟨-, hnot⟩
    . cases hf
    . exact hnot hroom

/--
With room for all of them they are dealt with to the end.
-/
theorem processAll_returns (hF : Answers F disk) {s : State φ} (hs : Intact recurse useattr s)
    {targets : List Text} (hroom : ∀ target ∈ targets, HasRoom ⟨disk, recurse, useattr, target⟩)
    : ∃ N, ∀ fuel, N ≤ fuel → ∃ s', processAll (process F fuel) targets s = .ok s'
        ∧ Intact recurse useattr s' := by
  obtain ⟨N, hN⟩ := processAll_settles hF recurse useattr targets
  refine ⟨N, ?_⟩
  intro fuel hfuel
  have hrun := hN fuel s hs
  cases h : processAll (process F fuel) targets s with
  | ok t => exact ⟨t, rfl, (hrun.of_ok h).1⟩
  | error f =>
    rcases hrun.of_error h with ⟨-, hnot⟩ | ⟨-, hnot⟩
    . exact absurd hfuel hnot
    . exact absurd hroom hnot

/-! A disk. -/

def listed (M : Matching) (disk : List Char → List Entry) : Listing := fun path attrib =>
  (disk (path.chars.reverse.dropWhile (!isSeparator ·)).reverse).filter fun e =>
    M.name (.ofChars (path.chars.reverse.takeWhile (!isSeparator ·)).reverse) e.name
      && M.attrib attrib e.attrib

theorem diskFinder_answers (M : Matching) (disk : List Char → List Entry)
    : Answers (diskFinder M disk) (listed M disk) :=
  fun path attrib _ => diskFinder_enumerates M disk (listed M disk path attrib)

theorem framed_info : Framed ("[-----] -> [-----] ".toList ++ [NUL]) :=
  ⟨by decide, by decide, by decide⟩

theorem intact_start (recurse : BitVec 8) (f : φ)
    : Intact recurse ALL_FILE ({ recurse := recurse, fi := f } : State φ) :=
  ⟨List.length_replicate, List.length_replicate, framed_info, rfl, rfl⟩

def smallTraversal : Traversal :=
  ⟨listed dosMatching smallDisk, 1, ALL_FILE, .ofString "C:\\F"⟩

theorem smallTraversal_hasRoom : smallTraversal.HasRoom := by
  refine ⟨by decide, by decide, ?_⟩
  rw [room_iff]
  refine ⟨by decide, fun _ => ⟨by decide, ?_⟩⟩
  intro e he henters
  have hroot : e ∈ smallRoot := (List.mem_filter.mp he).1
  simp only [smallRoot, List.mem_cons, List.not_mem_nil, or_false] at hroot
  rcases hroot with rfl | rfl | rfl
  . exact absurd henters.2 (by decide)
  . exact absurd henters.1 (by decide)
  refine ⟨by decide, ?_⟩
  rw [room_iff]
  refine ⟨by decide, fun _ => ⟨by decide, ?_⟩⟩
  intro e he henters
  have hsub : e ∈ smallSub := (List.mem_filter.mp he).1
  simp only [smallSub, List.mem_cons, List.not_mem_nil, or_false] at hsub
  rcases hsub with rfl | rfl
  . exact absurd henters.1 (by decide)
  . exact absurd henters.1 (by decide)

theorem processAll_within_smallDisk
    : smallTraversal.HasRoom
      ∧ ((∀ fuel, processAll (process (diskFinder dosMatching smallDisk) fuel) [smallTraversal.target]
            { recurse := 1, fi := [] } ≠ .error .undefined)
          ↔ ∀ target ∈ [smallTraversal.target], HasRoom { smallTraversal with target := target }) :=
  ⟨smallTraversal_hasRoom,
    processAll_within_iff (diskFinder_answers dosMatching smallDisk) (intact_start 1 []) _⟩

def longTarget : Text where
  chars := List.replicate 264 'A'
  noNul := fun h => absurd (List.eq_of_mem_replicate h) (by decide)

/--
A target as long as the array, which leaves no room for its NUL.
-/
theorem not_processAll_within_longTarget
    : Answers (diskFinder dosMatching smallDisk) (listed dosMatching smallDisk)
      ∧ processAll (process (diskFinder dosMatching smallDisk) 8) [longTarget] { fi := [] }
        = .error .undefined := by
  refine ⟨diskFinder_answers dosMatching smallDisk, ?_⟩
  have hadds : adds 0 longTarget (List.replicate (PATHLEN + 4) NUL) = .error .undefined := by
    rw [adds_zero, List.length_replicate]
    exact if_neg (by unfold Text.length longTarget; rw [List.length_replicate]; decide)
  unfold processAll process
  simp only [List.foldlM_cons, hadds]
  rfl

end Attrib
end Dosix
