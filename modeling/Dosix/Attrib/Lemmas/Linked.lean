import Dosix.Attrib.Lemmas.Program
import Dosix.Dos.Lemmas.FindApart
import Dosix.Strings.Lemmas.Texts

/-!
This module contains `attrib.c` on top of this library. The search functions of `dos.c` meet the contract
that the traversal relies on, where the name of an entry is the whole path that `glob` has returned, and
`_strupr` of `string.c` is the `strupr` that the arguments go through.
-/

namespace Dosix

open Transition

variable {σ : Type}

/-! Names. A character of the program is a byte. -/

def Text.string (t : Text) : String :=
  .ofList t.chars

def Text.ofBytes (bs : List UInt8) : Text :=
  .ofChars (bs.map fun b => Char.ofNat b.toNat)

theorem char_eq_nul_iff (b : UInt8) : Char.ofNat b.toNat = NUL ↔ b = 0 := by
  constructor
  . intro h
    have hlt := b.toNat_lt
    have hvalid : b.toNat.isValidChar := .inl (by omega)
    rw [Char.ofNat, dif_pos hvalid] at h
    exact UInt8.toNat_inj.mp (congrArg Char.toNat h)
  . rintro rfl
    rfl

theorem Text.ofBytes_takeWhile (bs : List UInt8)
    : Text.ofBytes (bs.takeWhile (· ≠ 0)) = Text.ofBytes bs := by
  apply Text.ext_chars
  unfold Text.ofBytes Text.ofChars
  dsimp only
  rw [List.takeWhile_map, List.takeWhile_map]
  congr 1
  have hpred : ((fun c : Char => decide (c ≠ NUL)) ∘ fun b : UInt8 => Char.ofNat b.toNat)
      = fun b => decide (b ≠ 0) := by
    funext b
    simp [char_eq_nul_iff]
  rw [hpred]
  apply List.takeWhile_eq_self_iff.mpr
  intro b hb
  simpa using List.mem_takeWhile_imp hb

/--
An ASCII path that fits into the array of a `struct _find_t`.
-/
structure Fits (path : String) : Prop where
  ascii : ∀ c ∈ path.toList, c.toNat < 128
  length : path.toList.length < NAME_MAX

theorem toUTF8_of_ascii {s : String} (h : ∀ c ∈ s.toList, c.toNat < 128)
    : s.toUTF8.data.toList = s.toList.map fun c => UInt8.ofNat c.toNat := by
  have hencode : ∀ cs : List Char, (∀ c ∈ cs, c.toNat < 128) →
      cs.flatMap String.utf8EncodeChar = cs.map fun c => UInt8.ofNat c.toNat := by
    intro cs hcs
    induction cs with
    | nil => rfl
    | cons c cs ih =>
      rw [List.forall_mem_cons] at hcs
      have hc : c.val.toNat ≤ 127 := Nat.le_of_lt_succ hcs.1
      rw [List.flatMap_cons, List.map_cons, ih hcs.2]
      unfold String.utf8EncodeChar
      dsimp only
      rw [if_pos hc]
      rfl
  rw [← String.ofList_toList (s := s), String.toUTF8_eq_toByteArray, String.toByteArray_ofList,
    String.toList_ofList]
  unfold List.utf8Encode
  rw [List.toList_data_toByteArray]
  exact hencode s.toList h

theorem Fits.ofBytes {path : String} (h : Fits path)
    : Text.ofBytes (path.toUTF8.data.toList.take NAME_MAX) = .ofString path := by
  rw [toUTF8_of_ascii h.ascii, List.take_of_length_le (by rw [List.length_map]; exact h.length.le)]
  unfold Text.ofBytes Text.ofString
  rw [List.map_map]
  congr 1
  refine (List.map_congr_left ?_).trans path.toList.map_id
  intro c hc
  have hlt := h.ascii c hc
  rw [Function.comp_apply, UInt8.toNat_ofNat', Nat.mod_eq_of_lt (by omega), Char.ofNat_toNat]
  rfl

/-! A `struct _find_t` with its array. -/

abbrev FindRecord := { f : FindT // f.name.length = NAME_MAX }

section

variable {fs : Files} {localtime : Int → Option Tm} {f g : FindT} {code : BitVec 32}

theorem findnextMatch_name (localtime : Int → Option Tm) (path : String) (attrib : BitVec 32)
    (st : Stat) (f : FindT)
    : (Files.findnextMatch localtime path attrib st f).2.name.length = f.name.length := by
  unfold Files.findnextMatch
  split
  . rfl
  . exact length_memccpy f.name path

theorem findnextLoop_name {left : Nat} {ret : Option (BitVec 32)}
    (h : fs.findnextLoop localtime left f = .ok (ret, g))
    : g.name.length = f.name.length := by
  induction left generalizing f with
  | zero =>
    obtain ⟨-, rfl⟩ := Prod.mk.inj (Except.ok.inj h)
    rfl
  | succ left ih =>
    have ih : fs.findnextLoop localtime left f.next = .ok (ret, g) →
        g.name.length = f.name.length := ih
    unfold Files.findnextLoop at h
    split at h
    . simp at h
    . split at h
      . simp at h
      . split at h
        . simp at h
        . exact ih h
        . split at h
          . exact ih h
          . split at h
            . obtain ⟨-, rfl⟩ := Prod.mk.inj (Except.ok.inj h)
              apply findnextMatch_name
            . exact ih h

theorem findnext_name (h : fs.findnext localtime f = .ok (code, g))
    : g.name.length = f.name.length := by
  unfold Files.findnext at h
  split at h
  . simp at h
  . next hloop =>
    obtain ⟨-, rfl⟩ := Prod.mk.inj (Except.ok.inj h)
    exact findnextLoop_name hloop
  . next hloop =>
    split at h
    . obtain ⟨-, rfl⟩ := Prod.mk.inj (Except.ok.inj h)
      exact (findnextLoop_name hloop :)
    . simp at h

theorem findfirst_name {filename : CString} {attrib : BitVec 32}
    (h : fs.findfirst localtime filename attrib f = .ok (code, g))
    : g.name.length = f.name.length := by
  unfold Files.findfirst at h
  split at h
  . simp at h
  . split at h
    . split at h
      . exact (findnext_name h :)
      . simp at h
    . next e paths _ =>
      cases he : Files.errfunc e with
      | error e' => simp [he, Except.map] at h
      | ok code' =>
        rw [he] at h
        obtain ⟨-, rfl⟩ := Prod.mk.inj (Except.ok.inj h)
        rfl
    . obtain ⟨-, rfl⟩ := Prod.mk.inj (Except.ok.inj h)
      rfl
    . obtain ⟨-, rfl⟩ := Prod.mk.inj (Except.ok.inj h)
      rfl

end

namespace FindRecord

/--
The record after a call. One that does not return leaves nothing to go on with.
-/
def after (f : FindRecord) (r : Except Fault (BitVec 32 × FindT))
    (hr : ∀ code g, r = .ok (code, g) → g.name.length = f.1.name.length) : BitVec 32 × FindRecord :=
  match r, hr with
  | .ok (code, g), hr => (code, ⟨g, (hr code g rfl).trans f.2⟩)
  | .error _, _ => (EXTERR_NO_MORE_FILES, f)

theorem after_ok {f : FindRecord} {r : Except Fault (BitVec 32 × FindT)} {code : BitVec 32}
    {g : FindT} (h : r = .ok (code, g))
    (hr : ∀ code g, r = .ok (code, g) → g.name.length = f.1.name.length)
    : f.after r hr = (code, ⟨g, (hr code g h).trans f.2⟩) := by
  subst h
  rfl

end FindRecord

/--
The search functions of `dos.c`, where the files do not change.
-/
def Files.finder (fs : Files) (localtime : Int → Option Tm) : Attrib.Finder FindRecord where
  findfirst path attrib f :=
    f.after (fs.findfirst localtime (some path.string) attrib f.1) fun _ _ => findfirst_name
  findnext f := f.after (fs.findnext localtime f.1) fun _ _ => findnext_name
  name f := .ofBytes f.1.name
  attrib f := f.1.attrib
  uninit := ⟨{}, List.length_replicate⟩

namespace Files

/--
What a search reports: the paths that `glob` returns and that pass, as names.
-/
def listing (fs : Files) (localtime : Int → Option Tm) : Attrib.Listing :=
  fun path mask =>
    match fs.glob path.string with
    | .success paths =>
      paths.filterMap fun p =>
        (fs.entry localtime mask p).map fun e => .mk (.ofString p) e.attrib []
    | _ => []

/--
For what is asked `glob` succeeds with paths only, which are short and ASCII, and it fails with known
errors, as the calls on these paths do.
-/
structure Orderly (fs : Files) (localtime : Int → Option Tm) (asked : Text → Prop) : Prop where
  nonempty : ∀ {path paths}, asked path → fs.glob path.string = .success paths → paths ≠ []
  fits : ∀ {path paths}, asked path → fs.glob path.string = .success paths → ∀ p ∈ paths, Fits p
  usual : ∀ {path paths}, asked path → fs.glob path.string = .success paths →
    ∀ p ∈ paths, fs.Usual localtime p
  aborted : ∀ {path e paths}, asked path → fs.glob path.string = .aborted e paths →
    e.doserror ≠ none

/--
A search that has been started and has not ended.
-/
def Underway (fs : Files) (localtime : Int → Option Tm) (f : FindT) : Prop :=
  ∃ paths mask, f.Scanning paths mask ∧ ∀ p ∈ paths, fs.Usual localtime p

end Files

section

open Attrib Attrib.Traversal

variable {fs : Files} {localtime : Int → Option Tm} {paths : List String} {mask : BitVec 32}
  {asked : Text → Prop}

theorem name_of_entry {f : FindRecord} {e : FindEntry} (h : f.1.entry = e)
    : (fs.finder localtime).name f = .ofBytes e.name := by
  rw [← h]
  exact (Text.ofBytes_takeWhile f.1.name).symm

theorem ofBytes_entry {p : String} {e : FindEntry} (hp : Fits p)
    (h : fs.entry localtime mask p = some e)
    : Text.ofBytes e.name = .ofString p := by
  unfold Files.entry at h
  split at h
  . split at h
    . obtain ⟨tm, -, rfl⟩ := Option.map_eq_some_iff.mp h
      dsimp only
      rw [Text.ofBytes_takeWhile, hp.ofBytes]
    . cases h
  . cases h

theorem listing_eq (hfits : ∀ p ∈ paths, Fits p)
    : (paths.filterMap fun p =>
        (fs.entry localtime mask p).map fun e => Entry.mk (.ofString p) e.attrib [])
      = (paths.filterMap (fs.entry localtime mask)).map fun e =>
          Entry.mk (.ofBytes e.name) e.attrib [] := by
  rw [List.map_filterMap]
  apply List.filterMap_congr
  intro p hp
  cases he : fs.entry localtime mask p with
  | none => rfl
  | some e =>
    rw [Option.map_some, Option.map_some, ofBytes_entry (hfits p hp) he]

theorem enumerates_of_reports (husual : ∀ path ∈ paths, fs.Usual localtime path)
    {r : Except Fault (BitVec 32 × FindT)} {left : List FindEntry} (f : FindRecord)
    (hr : ∀ code g, r = .ok (code, g) → g.name.length = f.1.name.length)
    (h : fs.Reports localtime paths mask r left)
    : Enumerates (fs.finder localtime) (f.after r hr)
        (left.map fun e => Entry.mk (.ofBytes e.name) e.attrib []) := by
  induction left generalizing r f with
  | nil =>
    obtain ⟨-, g, rfl⟩ | ⟨g, -, -, hnil⟩ := h
    . exact .done _ _ (by decide)
    . cases hnil
  | cons e left ih =>
    obtain ⟨hnil, -⟩ | ⟨g, rfl, hscanning, hcons⟩ := h
    . cases hnil
    . obtain ⟨rfl, rfl⟩ := List.cons.inj hcons
      refine .found _ _ _ (name_of_entry rfl) rfl ?_
      exact ih _ _ (Files.findnext_enum husual hscanning)

theorem errfunc_returns {e : Errno} (h : e.doserror ≠ none)
    : ∃ code, Files.errfunc e = .ok code := by
  unfold Files.errfunc
  split
  . exact ⟨_, rfl⟩
  . exact ⟨_, rfl⟩
  . exact ⟨_, rfl⟩
  . unfold Files.failure
    split
    . next hnone => exact absurd hnone h
    . exact ⟨_, rfl⟩

theorem findfirst_refused (ho : fs.Orderly localtime asked) {path : Text} (hpath : asked path)
    (hglob : ∀ paths, fs.glob path.string ≠ .success paths) (mask : BitVec 32) (f : FindT)
    : ∃ code g, fs.findfirst localtime (some path.string) mask f = .ok (code, g) ∧ code ≠ 0 := by
  unfold Files.findfirst
  dsimp only
  split
  . next paths h => exact absurd h (hglob paths)
  . next e paths h =>
    obtain ⟨code, hcode⟩ := errfunc_returns (ho.aborted hpath h)
    rw [hcode]
    exact ⟨code, _, rfl, errfunc_ne_zero hcode⟩
  . exact ⟨_, _, rfl, by decide⟩
  . exact ⟨_, _, rfl, by decide⟩

theorem findfirst_found (ho : fs.Orderly localtime asked) {path : Text} (hpath : asked path)
    (hglob : fs.glob path.string = .success paths) (mask : BitVec 32) (f : FindRecord)
    : fs.Reports localtime paths mask (fs.findfirst localtime (some path.string) mask f.1)
        (paths.filterMap (fs.entry localtime mask)) :=
  Files.findfirst_enum hglob (ho.nonempty hpath hglob) (ho.usual hpath hglob) f.2

theorem finder_enumerates (ho : fs.Orderly localtime asked) {path : Text} (hpath : asked path)
    (mask : BitVec 32) (f : FindRecord)
    : Enumerates (fs.finder localtime) ((fs.finder localtime).findfirst path mask f)
        (fs.listing localtime path mask) := by
  unfold Files.listing
  by_cases hglob : ∃ paths, fs.glob path.string = .success paths
  . obtain ⟨paths, hglob⟩ := hglob
    rw [hglob]
    dsimp only
    rw [listing_eq (ho.fits hpath hglob)]
    exact enumerates_of_reports (ho.usual hpath hglob) f _ (findfirst_found ho hpath hglob mask f)
  . have hrefused : ∀ paths, fs.glob path.string ≠ .success paths :=
      fun paths h => hglob ⟨paths, h⟩
    obtain ⟨code, g, hfindfirst, hcode⟩ := findfirst_refused ho hpath hrefused mask f.1
    split
    . next paths h => exact absurd h (hrefused paths)
    . rw [show (fs.finder localtime).findfirst path mask f = _ from FindRecord.after_ok hfindfirst _]
      exact .done _ _ hcode

/--
The finder answers all that the traversal asks.
-/
theorem finder_answers {T : Traversal} (ho : fs.Orderly localtime T.Asks)
    (hdisk : T.disk = fs.listing localtime)
    : T.AnswersBelow (fs.finder localtime) (startOf T.target) := by
  intro q hq
  constructor
  . intro f
    unfold Traversal.matching
    rw [hdisk]
    exact finder_enumerates ho (.mask hq) _ f
  . intro hrecurse
    unfold Traversal.entries
    rw [hdisk]
    exact finder_enumerates ho (.star hq hrecurse) _ _

/-! The C functions. -/

theorem underway_of_reports (husual : ∀ path ∈ paths, fs.Usual localtime path)
    {r : Except Fault (BitVec 32 × FindT)} {left : List FindEntry}
    (h : fs.Reports localtime paths mask r left)
    : ∃ code g, r = .ok (code, g) ∧ (code = 0 → fs.Underway localtime g) := by
  obtain ⟨-, g, rfl⟩ | ⟨g, rfl, hscanning, -⟩ := h
  . exact ⟨_, g, rfl, fun h => absurd h (by decide)⟩
  . exact ⟨_, g, rfl, fun _ => ⟨paths, mask, hscanning, husual⟩⟩

theorem findfirst_returns (ho : fs.Orderly localtime asked) {path : Text} (hpath : asked path)
    (mask : BitVec 32) (f : FindRecord)
    : ∃ code g, fs.findfirst localtime (some path.string) mask f.1 = .ok (code, g)
        ∧ (code = 0 → fs.Underway localtime g) := by
  by_cases hglob : ∃ paths, fs.glob path.string = .success paths
  . obtain ⟨paths, hglob⟩ := hglob
    exact underway_of_reports (ho.usual hpath hglob) (findfirst_found ho hpath hglob mask f)
  . obtain ⟨code, g, hg, hcode⟩ :=
      findfirst_refused ho hpath (fun paths h => hglob ⟨paths, h⟩) mask f.1
    exact ⟨code, g, hg, fun h => absurd h hcode⟩

theorem findnext_returns {f : FindT} (h : fs.Underway localtime f)
    : ∃ code g, fs.findnext localtime f = .ok (code, g)
        ∧ (code = 0 → fs.Underway localtime g) := by
  obtain ⟨paths, mask, hscanning, husual⟩ := h
  exact underway_of_reports husual (Files.findnext_enum husual hscanning)

/--
The C functions do to the object at an address what the finder does to the record, whatever else there
is: `findfirst` with each path that is asked for, and `findnext` in a search that is underway.
-/
structure Implements (px : Posix σ) (holds : σ → Prop) (F : Finder FindRecord)
    (asked : Text → Prop) (underway : FindT → Prop) : Prop where
  findfirst : ∀ (s : Dos σ) a path mask f, asked path → holds s.os → s.findT a = f.1 →
    ∃ r, dosixDosFindfirst px (some path.string) mask a s = .ok r
      ∧ r.code = (F.findfirst path mask f).1
      ∧ Leaves holds s r.state a (F.findfirst path mask f).2.1
  findnext : ∀ (s : Dos σ) a f, underway f.1 → holds s.os → s.findT a = f.1 →
    ∃ r, dosixDosFindnext px a s = .ok r
      ∧ r.code = (F.findnext f).1 ∧ Leaves holds s r.state a (F.findnext f).2.1
  underway_findfirst : ∀ path mask f, asked path → (F.findfirst path mask f).1 = 0 →
    underway (F.findfirst path mask f).2.1
  underway_findnext : ∀ f, underway f.1 → (F.findnext f).1 = 0 → underway (F.findnext f).2.1

theorem finder_implements {px : Posix σ} {holds : σ → Prop} (hfs : fs.Unchanged px holds)
    (ho : fs.Orderly px.localtime asked)
    : Implements px holds (fs.finder px.localtime) asked (fs.Underway px.localtime) where
  findfirst s a path mask f hpath hos hf := by
    obtain ⟨code, g, hreturns, -⟩ := findfirst_returns ho hpath mask f
    have hagrees := dosixDosFindfirst_agrees hfs hos a (some path.string) mask
    rw [hf, hreturns] at hagrees
    rw [show (fs.finder px.localtime).findfirst path mask f = _ from FindRecord.after_ok hreturns _]
    exact hagrees.exists_ok
  findnext s a f hunderway hos hf := by
    obtain ⟨code, g, hreturns, -⟩ := findnext_returns hunderway
    have hagrees := dosixDosFindnext_agrees hfs hos a
    rw [hf, hreturns] at hagrees
    rw [show (fs.finder px.localtime).findnext f = _ from FindRecord.after_ok hreturns _]
    exact hagrees.exists_ok
  underway_findfirst path mask f hpath := by
    obtain ⟨code, g, hreturns, hunderway⟩ := findfirst_returns ho hpath mask f
    rw [show (fs.finder px.localtime).findfirst path mask f = _ from FindRecord.after_ok hreturns _]
    exact hunderway
  underway_findnext f hf := by
    obtain ⟨code, g, hreturns, hunderway⟩ := findnext_returns hf
    rw [show (fs.finder px.localtime).findnext f = _ from FindRecord.after_ok hreturns _]
    exact hunderway

theorem mem_listing_iff {path : Text} {e : Entry}
    : e ∈ fs.listing localtime path mask ↔
        ∃ paths, fs.glob path.string = .success paths ∧ ∃ p ∈ paths, ∃ found,
          fs.entry localtime mask p = some found ∧ e = .mk (.ofString p) found.attrib [] := by
  unfold Files.listing
  cases hglob : fs.glob path.string with
  | success paths =>
    simp only [List.mem_filterMap, Option.map_eq_some_iff, GlobResult.success.injEq,
      exists_eq_left', eq_comm (a := e)]
  | _ => simp

/--
The lines about a target: a line for each path that `glob` returns for the mask in a directory that is
reached, behind the path of this directory once more, or an error if their number is counted as 0.
-/
def IsLine (fs : Files) (localtime : Int → Option Tm) (T : Traversal) (info : Buffer)
    (line : Output) : Prop :=
  (∃ q, T.Reached (startOf T.target) q
      ∧ ∃ paths, fs.glob (q ++ T.mask).string = .success paths
      ∧ ∃ p ∈ paths, isDots (.ofString p) = false
      ∧ ∃ found, fs.entry localtime ((findattrOf T.useattr T.target).setWidth 32) p = some found
        ∧ line = Hit.line info ⟨q ++ .ofString p, found.attrib⟩)
    ∨ BitVec.ofNat 32 T.hits.length = 0 ∧ line = .error "no targets" T.target

theorem process_lists {px : Posix σ} {T : Traversal} (ho : fs.Orderly px.localtime T.Asks)
    (hdisk : T.disk = fs.listing px.localtime) (hroom : T.HasRoom)
    : ∃ N, ∀ fuel, N ≤ fuel → ∀ s, Intact T.recurse T.useattr s →
        ∃ t lines, process (fs.finder px.localtime) fuel T.target s = .ok t
          ∧ t.output = s.output ++ lines
          ∧ ∀ line, line ∈ lines ↔ IsLine fs px.localtime T s.info line := by
  obtain ⟨N, hN⟩ := process_reports (finder_answers ho hdisk) hroom
  refine ⟨N, ?_⟩
  intro fuel hfuel s hs
  obtain ⟨t, hprocess, houtput⟩ := hN fuel hfuel s hs
  refine ⟨t, _, hprocess, houtput, ?_⟩
  intro line
  rw [hroom.mem_lines_iff]
  unfold IsLine
  apply or_congr_left
  apply exists_congr
  intro q
  apply and_congr_right
  intro _
  unfold Traversal.matching
  rw [hdisk]
  constructor
  . rintro ⟨e, he, hdots, rfl⟩
    obtain ⟨paths, hglob, p, hp, found, hfound, rfl⟩ := mem_listing_iff.mp he
    exact ⟨paths, hglob, p, hp, hdots, found, hfound, rfl⟩
  . rintro ⟨paths, hglob, p, hp, hdots, found, hfound, rfl⟩
    exact ⟨_, mem_listing_iff.mpr ⟨paths, hglob, p, hp, found, hfound, rfl⟩, hdots, rfl⟩

/--
What `attrib` prints about a target when it is linked with this library: the paths that `glob` returns
for the mask in each directory that is reached, and each of them behind that directory once more.
-/
theorem process_linked {px : Posix σ} {holds : σ → Prop} (hfs : fs.Unchanged px holds)
    {T : Traversal} (ho : fs.Orderly px.localtime T.Asks)
    (hdisk : T.disk = fs.listing px.localtime) (hroom : T.HasRoom)
    : Implements px holds (fs.finder px.localtime) T.Asks (fs.Underway px.localtime)
      ∧ ∃ N, ∀ fuel, N ≤ fuel → ∀ s, Intact T.recurse T.useattr s →
        ∃ t lines, process (fs.finder px.localtime) fuel T.target s = .ok t
          ∧ t.output = s.output ++ lines
          ∧ ∀ line, line ∈ lines ↔ IsLine fs px.localtime T s.info line :=
  ⟨finder_implements hfs ho, process_lists ho hdisk hroom⟩

def oneFile : Files where
  glob := fun pattern => if pattern = "SUB\\F" then .success ["SUB\\F"] else .nomatch
  stat := fun path =>
    if path = "SUB\\F" then .ok { mode := 0x81a4, size := 12 } else .error .ENOENT
  accessW := fun _ => .ok ()
  cstring := fun _ => none

theorem oneFile_glob {pattern : String} (h : oneFile.glob pattern = .success paths)
    : paths = ["SUB\\F"] := by
  unfold oneFile at h
  dsimp only at h
  split at h
  . injection h with h
    exact h.symm
  . cases h

theorem oneFile_orderly (asked : Text → Prop)
    : oneFile.Orderly oneFile.kernel.localtime asked where
  usual _ _ path _ := {
    stat := by
      intro e h
      unfold oneFile at h
      dsimp only at h
      split at h
      . cases h
      . cases h
        exact Option.some_ne_none _
    accessW := fun e h => by cases h
    localtime := fun _ _ => Option.some_ne_none _
  }
  nonempty _ h := by
    rw [oneFile_glob h]
    exact List.cons_ne_nil _ _
  fits _ h p hp := by
    rw [oneFile_glob h, List.mem_singleton] at hp
    subst hp
    exact ⟨by simp, by decide⟩
  aborted _ h := by
    unfold oneFile at h
    dsimp only at h
    split at h
    . cases h
    . cases h

def linkedTraversal : Traversal where
  disk := oneFile.listing oneFile.kernel.localtime
  recurse := 0
  useattr := ALL_FILE
  target := .ofString "SUB\\F"

theorem linkedTraversal_hasRoom : linkedTraversal.HasRoom := by
  refine ⟨by decide, by decide, ?_⟩
  rw [room_iff]
  refine ⟨⟨by decide, ?_⟩, fun h => absurd rfl h⟩
  intro e he _
  have hdisk : linkedTraversal.disk = oneFile.listing oneFile.kernel.localtime := rfl
  rw [Traversal.matching, hdisk] at he
  obtain ⟨paths, hglob, p, hp, found, -, rfl⟩ := mem_listing_iff.mp he
  rw [oneFile_glob hglob, List.mem_singleton] at hp
  subst hp
  change (startOf linkedTraversal.target).length + (Text.ofString "SUB\\F").length < size
  decide

theorem process_linked_oneFile
    : Implements oneFile.kernel (fun _ => True) (oneFile.finder oneFile.kernel.localtime)
          linkedTraversal.Asks (oneFile.Underway oneFile.kernel.localtime)
      ∧ ∃ N, ∀ fuel, N ≤ fuel →
        ∃ t lines, process (oneFile.finder oneFile.kernel.localtime) fuel (.ofString "SUB\\F")
            { fi := ⟨{}, List.length_replicate⟩ } = .ok t
          ∧ t.output = [] ++ lines
          ∧ Hit.line ("[-----] -> [-----] ".toList ++ [NUL])
              ⟨.ofString "SUB\\SUB\\F", _A_ARCH⟩ ∈ lines := by
  obtain ⟨himplements, N, hN⟩ := process_linked oneFile.kernel_unchanged
    (oneFile_orderly linkedTraversal.Asks) rfl linkedTraversal_hasRoom
  refine ⟨himplements, N, ?_⟩
  intro fuel hfuel
  obtain ⟨t, lines, hrun, houtput, hlines⟩ := hN fuel hfuel _ (intact_start 0 _)
  refine ⟨t, lines, hrun, houtput, (hlines _).mpr (.inl ⟨startOf linkedTraversal.target, .start _,
    ["SUB\\F"], rfl, _, List.mem_singleton_self _, by decide, _, rfl, rfl⟩)⟩

end

/-! `strupr`. -/

section

open Objects Strings

def charOfByte (b : BitVec 8) : Char :=
  .ofNat b.toNat

theorem charOfByte_eq_nul_iff (b : BitVec 8) : charOfByte b = NUL ↔ b = 0 := by
  revert b
  decide +kernel

theorem charOfByte_converted (b : BitVec 8)
    : charOfByte (converted Ctype.c.toupper b) = toupper (charOfByte b) := by
  revert b
  decide +kernel

/--
What `_strupr` makes of an array with a string in it is what `strupr` makes of its characters.
-/
theorem strupr_linked {μ ω : Type} [Objects.Memory μ ω (BitVec 8)] {m : μ} {p : Pointer ω}
    {bs : List (BitVec 8)} (hr : Reads m p.object p.offset bs) (hnul : 0 ∈ bs)
    : ∃ m' bs', dosixStrupr .c (some p) m = .ok (some p, m') ∧ Reads m' p.object p.offset bs'
        ∧ bs'.map charOfByte = strupr (bs.map charOfByte)
        ∧ ∀ o i, Apart p.object p.offset bs.length o i 1 → Memory.load m' o i = Memory.load m o i := by
  obtain ⟨cs, rest, rfl, hcs⟩ := List.eq_append_cons_of_mem hnul
  obtain ⟨hfirst, hend⟩ := reads_append.mp hr
  have hstring : IsString m p cs := ⟨reads_append.mpr ⟨hfirst, hend.1, trivial⟩, hcs⟩
  obtain ⟨m', hcall, hwrites, -⟩ := convertAll_spec Ctype.c.toupper hstring
  refine ⟨m', cs.map (converted Ctype.c.toupper) ++ 0 :: rest, hcall, ?_, ?_, ?_⟩
  . rw [reads_append, List.length_map]
    refine ⟨hwrites.reads, ?_⟩
    apply hwrites.keeps _ hend
    intro _
    left
    simp
  . have hchars : NUL ∉ cs.map charOfByte := by
      rw [List.mem_map]
      rintro ⟨b, hb, hnul⟩
      exact hcs ((charOfByte_eq_nul_iff b).mp hnul ▸ hb)
    have hconverted : (cs.map (converted Ctype.c.toupper)).map charOfByte
        = (cs.map charOfByte).map toupper := by
      rw [List.map_map, List.map_map]
      exact List.map_congr_left fun b _ => charOfByte_converted b
    rw [List.map_append, List.map_append, List.map_cons, (charOfByte_eq_nul_iff 0).mpr rfl,
      hconverted]
    exact (Attrib.strupr_append ⟨cs.map charOfByte, hchars⟩ (rest.map charOfByte)).symm
  . intro o i hapart
    apply hwrites.other
    intro ho
    have := hapart ho
    rw [List.length_append] at this
    rw [List.length_map]
    omega

end

end Dosix
