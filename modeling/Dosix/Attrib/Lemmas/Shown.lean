import Dosix.Attrib.Lemmas.Linked
import Dosix.Dos.Lemmas.DiskLasts

/-!
This module contains what `attrib.c` shows of the disk when it is linked with this library: the
attributes of each file that it prints are those that the disk has, and so a file that a program has
protected is shown as read-only.
-/

namespace Dosix

open Attrib Attrib.Traversal Transition

variable {σ ι : Type} [DecidableEq ι] {px : Posix σ} {disk : σ → Disk ι} {fs : Files}
  {holds : σ → Prop} {os : σ}

theorem getfileattr_shows (hpx : DiskContract px disk) (hfs : fs.Unchanged px holds)
    (hos : holds os) {path : String} {attrib : BitVec 32}
    (h : fs.getfileattr path = .ok (some attrib))
    : ∃ file, (disk os).names path = some file
        ∧ ((disk os).contents file).Attributes attrib := by
  unfold Files.getfileattr at h
  split at h
  . exact absurd h (failure_map_ne _ _)
  . next st hst =>
    have hstat : px.stat (some path) os = (.ok st, (px.stat (some path) os).2) :=
      Prod.ext ((hfs.stat path os hos).1.trans hst) rfl
    obtain ⟨name, file, hpath, hname, hfile⟩ := hpx.stat_ok hstat
    obtain rfl := Option.some.inj hpath
    have hmode : ((disk os).contents file).mode = st.mode := by rw [hfile]
    refine ⟨file, hname, ?_⟩
    unfold Inode.Attributes
    rw [hmode]
    split at h
    . next hdir =>
      rw [if_pos hdir]
      exact (Option.some.inj (Except.ok.inj h)).symm
    . next hdir =>
      rw [if_neg hdir]
      have haccess := (hfs.accessW path os hos).1
      split at h
      . next hok =>
        have hwritable := hpx.accessW_ok (Prod.ext (haccess.trans hok) rfl) hname
        exact .inr ⟨(Option.some.inj (Except.ok.inj h)).symm, hwritable⟩
      . exact .inl (Option.some.inj (Except.ok.inj h)).symm
      . exact .inl (Option.some.inj (Except.ok.inj h)).symm
      . exact absurd h (failure_map_ne _ _)

theorem entry_shows (hpx : DiskContract px disk) (hfs : fs.Unchanged px holds) (hos : holds os)
    {localtime : Int → Option Tm} {mask : BitVec 32} {path : String} {found : FindEntry}
    (h : fs.entry localtime mask path = some found)
    : ∃ file, (disk os).names path = some file
        ∧ ((disk os).contents file).Attributes found.attrib := by
  unfold Files.entry at h
  split at h
  . next hattrib hstat =>
    split at h
    . obtain ⟨tm, -, rfl⟩ := Option.map_eq_some_iff.mp h
      exact getfileattr_shows hpx hfs hos hattrib
    . cases h
  . cases h

/--
How the line of a file begins that is shown as read-only and to be archived, and nothing else.
-/
theorem line_rdonly (info : Buffer) (path : Text)
    : ∃ s, Hit.line info ⟨path, _A_NORMAL ||| _A_ARCH ||| _A_RDONLY⟩ = .say s path
        ∧ ['[', '-', '-', '-', 'R', 'A'] <+: s.chars := by
  refine ⟨_, rfl, ?_⟩
  have hchars : (bracketed ((_A_NORMAL ||| _A_ARCH ||| _A_RDONLY).setWidth 8)).chars
      = ['[', '-', '-', '-', 'R', 'A'] := by
    decide
  rw [Text.chars_append, ← hchars]
  exact List.prefix_append _ _

/--
What `attrib` prints for a target tells of files of the disk, each with its attributes, and a file that
a program has protected is found as a read-only file and printed so, whatever the program has done
since but to take the protection away.
-/
theorem protection_shown (hpx : DiskContract px disk) {s t : FileSession σ} {r : FileRequest σ}
    {c : FileCall} {a : FileAnswer} {name : String} (hset : r.Answers px s c a t) (ha : a.code = 0)
    (hc : c.Protects (disk s.dos.os) name)
    : ∃ file, (disk t.dos.os).names name = some file
        ∧ ∀ rs u, Always (FileRequest.serve px) (fun s r => r.Allowed disk s) t rs →
          Always (FileRequest.serve px)
            (fun s r => ¬ r.Comes px disk (FileCall.Unprotects · · file) s) t rs →
          run (FileRequest.serve px) t rs = .ok u →
          (disk u.dos.os).names name = some file
          ∧ ∀ (fs : Files) (holds : σ → Prop) (T : Traversal), fs.Unchanged px holds →
            fs.Orderly px.localtime T.Asks → holds u.dos.os → T.disk = fs.listing px.localtime →
            T.HasRoom →
            (∃ N, ∀ fuel, N ≤ fuel → ∀ w, Intact T.recurse T.useattr w →
              ∃ v lines, process (fs.finder px.localtime) fuel T.target w = .ok v
                ∧ v.output = w.output ++ lines
                ∧ ∀ line, line ∈ lines ↔ IsLine fs px.localtime T w.info line)
            ∧ ∀ mask p found, fs.entry px.localtime mask p = some found →
              ∃ file', (disk u.dos.os).names p = some file'
                ∧ ((disk u.dos.os).contents file').Attributes found.attrib
                ∧ (file' = file → S_ISDIR ((disk t.dos.os).contents file).mode = false →
                  ∀ info path, ∃ s, Hit.line info ⟨path, found.attrib⟩ = .say s path
                    ∧ ['[', '-', '-', '-', 'R', 'A'] <+: s.chars) := by
  obtain ⟨file, hname, hfile⟩ := (hset.effect hpx).protects ha hc
  refine ⟨file, hname, fun rs u hallowed hkept hrun => ?_⟩
  have hfile := run_readOnly hpx hallowed hrun hname hfile hkept
  have htype := run_type hpx hallowed hrun hname
  refine ⟨run_name hpx hallowed hrun hname, fun fs holds T hfs ho hos hdisk hroom => ?_⟩
  refine ⟨process_lists ho hdisk hroom, fun mask p found hfound => ?_⟩
  obtain ⟨file', hname', hattrib⟩ := entry_shows hpx hfs hos hfound
  refine ⟨file', hname', hattrib, ?_⟩
  rintro rfl hdir info path
  have hdir' : S_ISDIR ((disk u.dos.os).contents file').mode = false := by
    unfold S_ISDIR at hdir ⊢
    rw [htype]
    exact hdir
  rw [hattrib.eq_rdonly hfile hdir']
  exact line_rdonly info path

/-! A protected file. -/

namespace Volume

/--
The files of a volume as the search functions find them: each path is the only one that it matches.
-/
def files (v : Volume) : Files where
  glob := fun name => if v.disk.names name = none then .nomatch else .success [name]
  stat := fun path => v.fileStat (v.disk.names path)
  accessW := fun path =>
    match v.disk.names path with
    | none => .error .ENOENT
    | some o => if (v.disk.contents o).mode &&& WRITE = 0 then .error .EACCES else .ok ()
  cstring := fun _ => some "A.TXT"

variable {v : Volume}

theorem files_unchanged (v : Volume) : v.files.Unchanged kernel (· = v) where
  glob := by
    rintro path os rfl
    exact ⟨rfl, rfl⟩
  stat := by
    rintro path os rfl
    exact ⟨rfl, rfl⟩
  accessW := by
    rintro path os rfl
    unfold kernel files
    dsimp only [Option.bind]
    cases os.disk.names path with
    | none => exact ⟨rfl, rfl⟩
    | some o => exact ⟨rfl, rfl⟩
  cstring := fun _ _ _ => rfl

theorem files_glob {pattern : String} {paths : List String}
    (h : v.files.glob pattern = .success paths)
    : paths = [pattern] ∧ v.disk.names pattern ≠ none := by
  unfold files at h
  dsimp only at h
  split at h
  . cases h
  . next hname =>
    injection h with h
    exact ⟨h.symm, hname⟩

theorem files_orderly (hv : ∀ name, v.disk.names name ≠ none → Fits name) (asked : Text → Prop)
    : v.files.Orderly kernel.localtime asked where
  usual _ _ path _ := {
    stat := by
      intro e h
      unfold files fileStat at h
      dsimp only at h
      split at h
      . cases h
        exact Option.some_ne_none _
      . cases h
    accessW := by
      intro e h
      unfold files at h
      dsimp only at h
      split at h
      . cases h
        exact Option.some_ne_none _
      . split at h
        . cases h
          exact Option.some_ne_none _
        . cases h
    localtime := fun _ _ => Option.some_ne_none _
  }
  nonempty _ h := by
    rw [(files_glob h).1]
    exact List.cons_ne_nil _ _
  fits _ h p hp := by
    obtain ⟨rfl, hname⟩ := files_glob h
    rw [List.mem_singleton] at hp
    subst hp
    exact hv _ hname
  aborted _ h := by
    unfold files at h
    dsimp only at h
    split at h
    . cases h
    . cases h

def protectedFile : Volume :=
  textFile.put 0 { mode := S_IFREG ||| 0x124 }

end Volume


def protectedTraversal : Traversal where
  disk := (Volume.protectedFile.release 3).files.listing Volume.kernel.localtime
  recurse := 0
  useattr := ALL_FILE
  target := .ofString "A.TXT"

theorem protectedTraversal_hasRoom : protectedTraversal.HasRoom := by
  refine ⟨by decide, by decide, ?_⟩
  rw [room_iff]
  refine ⟨⟨by decide, ?_⟩, fun h => absurd rfl h⟩
  intro e he _
  have hdisk : protectedTraversal.disk
      = (Volume.protectedFile.release 3).files.listing Volume.kernel.localtime := rfl
  rw [Traversal.matching, hdisk] at he
  obtain ⟨paths, hglob, p, hp, found, -, rfl⟩ := mem_listing_iff.mp he
  rw [(Volume.files_glob hglob).1, List.mem_singleton] at hp
  subst hp
  change (startOf protectedTraversal.target).length
    + (Text.ofString (startOf protectedTraversal.target ++ protectedTraversal.mask).string).length
    < size
  decide

theorem protection_shown_textFile
    : ∃ N, ∀ fuel, N ≤ fuel →
        ∃ v lines s, process ((Volume.protectedFile.release 3).files.finder Volume.kernel.localtime)
            fuel (.ofString "A.TXT") { fi := ⟨{}, List.length_replicate⟩ } = .ok v
          ∧ v.output = [] ++ lines
          ∧ .say s (.ofString "A.TXT") ∈ lines
          ∧ ['[', '-', '-', '-', 'R', 'A'] <+: s.chars := by
  have hanswers : (FileRequest.call (.setfileattr (some "A.TXT") _A_RDONLY)).Answers Volume.kernel
      ⟨{ os := Volume.textFile }, []⟩ (.setfileattr (some "A.TXT") _A_RDONLY) ⟨0, none⟩
      ⟨{ os := Volume.protectedFile }, [(.setfileattr (some "A.TXT") _A_RDONLY, ⟨0, none⟩)]⟩ :=
    ⟨rfl, rfl, rfl⟩
  have hprotects : (FileCall.setfileattr (some "A.TXT") _A_RDONLY).Protects Volume.textFile.disk
      "A.TXT" :=
    ⟨rfl, by decide⟩
  obtain ⟨file, hname, hlasts⟩ := protection_shown Volume.kernel_contract hanswers rfl hprotects
  obtain rfl : (0 : Nat) = file := Option.some.inj hname
  obtain ⟨-, hshown⟩ := hlasts [.call (.close 3)]
    ⟨{ os := Volume.protectedFile.release 3 },
      [(.setfileattr (some "A.TXT") _A_RDONLY, ⟨0, none⟩), (.close 3, ⟨0, none⟩)]⟩
    (.of_mem (by simp [FileRequest.Allowed]) _)
    (.of_mem (by simp [FileRequest.Comes, FileRequest.asCall, FileCall.Unprotects]) _) rfl
  have hfits (name : String) (h : (Volume.protectedFile.release 3).disk.names name ≠ none)
      : Fits name := by
    obtain rfl : name = "A.TXT" := by
      by_contra hne
      exact h (if_neg hne)
    exact ⟨by simp, by decide⟩
  obtain ⟨⟨N, hN⟩, hprotected⟩ := hshown _ _ protectedTraversal
    (Volume.files_unchanged _) (Volume.files_orderly hfits _) rfl rfl protectedTraversal_hasRoom
  refine ⟨N, fun fuel hfuel => ?_⟩
  obtain ⟨v, lines, hprocess, houtput, hlines⟩ := hN fuel hfuel _ (intact_start 0 _)
  have hfound : (Volume.protectedFile.release 3).files.entry Volume.kernel.localtime
      ((findattrOf ALL_FILE (.ofString "A.TXT")).setWidth 32) "A.TXT" = some _ := rfl
  obtain ⟨file', hfile', -, hrdonly⟩ := hprotected _ _ _ hfound
  obtain rfl : (0 : Nat) = file' := Option.some.inj hfile'
  obtain ⟨s, hsay, hchars⟩ := hrdonly rfl (by decide) ("[-----] -> [-----] ".toList ++ [NUL])
    (.ofString "A.TXT")
  refine ⟨v, lines, s, hprocess, houtput, (hlines _).mpr (.inl ?_), hchars⟩
  exact ⟨startOf protectedTraversal.target, .start _, ["A.TXT"], rfl, _,
    List.mem_singleton_self _, by decide, _, hfound, hsay.symm⟩

end Dosix
