import Dosix.Attrib.Impl.Program
import Dosix.Attrib.Lemmas.ListFile
import Dosix.Attrib.Lemmas.Output
import Dosix.Attrib.Lemmas.Switches

/-!
This module contains what `attrib.c` as a program does: what it prints, which attributes it computes
and what it returns, from the command line, the files with targets and the disk alone.
-/

namespace Dosix
namespace Attrib

open Traversal

variable {φ ω : Type}

/-! The search functions. -/

theorem beside_enumerates {F : Finder φ} {v : ω} {r : BitVec 32 × φ} {es : List Entry}
    (h : Enumerates F r es) (w : ω)
    : Enumerates (F.beside v) (r.1, r.2, w) es := by
  induction h with
  | done code f hcode => exact .done code (f, w) hcode
  | found f e es hname hattrib _ ih => exact .found (f, w) e es hname hattrib ih

theorem beside_answers {F : Finder φ} {disk : Listing} (hF : Answers F disk) (v : ω)
    : Answers (F.beside v) disk :=
  fun path attrib f => beside_enumerates (hF path attrib f.1) f.2

theorem beside_keeps (F : Finder φ) (v : ω) : (F.beside v).Keeps Prod.snd where
  findfirst := fun _ _ _ => rfl
  findnext := fun _ => rfl

/-! One use after the other. -/

/--
What a use of an argument comes to: targets, or a file that cannot be opened.
-/
inductive Job where
  | targets (ts : List Text)
  | noList (name : Text)

namespace Job

def reports (disk : Listing) (recurse : BitVec 8) (useattr : ATTR) (j : Job) : List Report :=
  match j with
  | .targets ts => reportsOf disk recurse useattr ts
  | .noList name => [.noList name]

/--
There is room for each target, and for all that is found below it.
-/
def HasRoom (disk : Listing) (recurse : BitVec 8) (useattr : ATTR) (j : Job) : Prop :=
  match j with
  | .targets ts => ∀ target ∈ ts, Traversal.HasRoom ⟨disk, recurse, useattr, target⟩
  | .noList _ => True

end Job

/--
What a use comes to where this is left of `stdin`, and what it leaves of it.
-/
def job (fopen : Text → Option (List Char)) (stdin : List Char) (u : Use) : Job × List Char :=
  match u with
  | .nothing | .help => (.targets [], stdin)
  | .target t => (.targets [t], stdin)
  | .list name =>
    if name.chars = [] then
      (.targets (readTargets stdin), [])
    else
      match fopen name with
      | none => (.noList name, stdin)
      | some content => (.targets (readTargets content), stdin)

def jobs (fopen : Text → Option (List Char)) (stdin : List Char) (us : List Use) : List Job :=
  match us with
  | [] => []
  | u :: us => (job fopen stdin u).1 :: jobs fopen (job fopen stdin u).2 us

section

variable {F : Finder φ} {disk : Listing} {recurse : BitVec 8} {useattr : ATTR}
  {stdin stdin' stdin'' : List Char} {fopen : Text → Option (List Char)} {v : Static}

/--
The arrays as they are declared, the options, and what is left of `stdin`.
-/
structure Between (recurse : BitVec 8) (useattr : ATTR) (stdin : List Char) (s : State (φ × Static))
    : Prop extends Intact recurse useattr s where
  stdin : s.fi.2.stdin = stdin
  line : s.fi.2.line.length = PATHLEN

/--
With enough fuel the step ends, and has reported this.
-/
def Ends (recurse : BitVec 8) (useattr : ATTR) (stdin stdin' : List Char) (rs : List Report)
    (k : Nat → State (φ × Static) → Except Fault (State (φ × Static))) : Prop :=
  ∃ N, ∀ fuel, N ≤ fuel → ∀ s, Between recurse useattr stdin s →
    ∃ t, k fuel s = .ok t ∧ Between recurse useattr stdin' t ∧ Tells (fun _ => ()) rs s t

theorem Tells.forget {world : φ → ω} {rs : List Report} {s t : State φ} (h : Tells world rs s t)
    : Tells (fun _ => ()) rs s t :=
  { h with world := rfl }

namespace Ends

variable {rs rs' : List Report}
  {k k' : Nat → State (φ × Static) → Except Fault (State (φ × Static))}

theorem ok : Ends recurse useattr stdin stdin [] fun _ (s : State (φ × Static)) => .ok s :=
  ⟨0, fun _ _ s hs => ⟨s, rfl, hs, .refl s⟩⟩

theorem bind (h : Ends recurse useattr stdin stdin' rs k)
    (h' : Ends recurse useattr stdin' stdin'' rs' k')
    : Ends recurse useattr stdin stdin'' (rs ++ rs') fun fuel s => k fuel s >>= k' fuel := by
  obtain ⟨N, hN⟩ := h
  obtain ⟨N', hN'⟩ := h'
  refine ⟨max N N', ?_⟩
  intro fuel hfuel s hs
  obtain ⟨t, hk, ht, hst⟩ := hN fuel (le_trans (le_max_left N N') hfuel) s hs
  obtain ⟨u, hk', hu, htu⟩ := hN' fuel (le_trans (le_max_right N N') hfuel) t ht
  refine ⟨u, ?_, hu, hst.trans htu⟩
  dsimp only
  rw [hk]
  exact hk'

end Ends

variable (hF : Answers F disk)

include hF

section

variable (stdin fopen v)

theorem processAll_ends {targets : List Text}
    (hroom : ∀ target ∈ targets, HasRoom ⟨disk, recurse, useattr, target⟩)
    : Ends recurse useattr stdin stdin (reportsOf disk recurse useattr targets) fun fuel =>
        processAll (process (F.beside v) fuel) targets := by
  obtain ⟨N, hN⟩ := processAll_reports (beside_answers hF v) (beside_keeps F v) recurse useattr hroom
  refine ⟨N, ?_⟩
  intro fuel hfuel s hs
  obtain ⟨t, hrun, ht, htells⟩ := hN fuel hfuel s hs.toIntact
  refine ⟨t, hrun, ⟨ht, ?_, ?_⟩, htells.forget⟩
  . rw [htells.world]
    exact hs.stdin
  . rw [htells.world]
    exact hs.line

theorem listNext_ends (name : Text) {content : List Char} (hnul : NUL ∉ content)
    (hfp : (if name.chars = [] then some stdin else fopen name) = some content)
    (hroom : ∀ target ∈ readTargets content, HasRoom ⟨disk, recurse, useattr, target⟩)
    : Ends recurse useattr stdin (if name.chars = [] then [] else stdin)
        (reportsOf disk recurse useattr (readTargets content)) fun fuel =>
          listNext (process (F.beside v) fuel) fopen fuel name := by
  obtain ⟨N, hN⟩ := processAll_ends stdin v hF hroom
  refine ⟨max N (content.length + 1), ?_⟩
  intro fuel hfuel s hs
  obtain ⟨hprocess, hread⟩ := Nat.max_le.mp hfuel
  obtain ⟨t, hrun, ht, htells⟩ := hN fuel hprocess s hs
  obtain ⟨line', hline', hloop⟩ :=
    listLoop_run (process (F.beside v) fuel) hnul hs.line (Nat.lt_of_succ_le hread) s
  dsimp only at hrun
  rw [hrun] at hloop
  refine ⟨{ t with fi := (t.fi.1, { stdin := if name.chars = [] then [] else stdin, line := line' }) },
    ?_, ⟨⟨ht.path, ht.mask, ht.framed, ht.recurse, ht.useattr⟩, rfl, hline'⟩, { htells with }⟩
  unfold listNext
  dsimp only
  rw [hs.stdin, hfp]
  dsimp only
  rw [hloop]
  rfl

end

variable (hfopen : ∀ name content, fopen name = some content → NUL ∉ content)

include hfopen

theorem carryOut_ends (hstdin : NUL ∉ stdin) (u : Use)
    (hroom : (job fopen stdin u).1.HasRoom disk recurse useattr)
    : Ends recurse useattr stdin (job fopen stdin u).2
        ((job fopen stdin u).1.reports disk recurse useattr) fun fuel =>
          carryOut (process (F.beside v) fuel) (listNext (process (F.beside v) fuel) fopen fuel) u := by
  cases u with
  | nothing => exact .ok
  | help => exact .ok
  | target t =>
    obtain ⟨N, hN⟩ := processAll_ends stdin v hF hroom
    refine ⟨N, ?_⟩
    intro fuel hfuel s hs
    obtain ⟨t', hrun, ht'⟩ := hN fuel hfuel s hs
    refine ⟨t', ?_, ht'⟩
    rw [← hrun]
    exact (bind_pure (process (F.beside v) fuel t s)).symm
  | list name =>
    unfold job at hroom ⊢
    by_cases hname : name.chars = []
    . simp only [if_pos hname] at hroom ⊢
      have hends := listNext_ends stdin fopen v hF name hstdin (if_pos hname) hroom
      rw [if_pos hname] at hends
      exact hends
    . simp only [if_neg hname] at hroom ⊢
      cases hfp : fopen name with
      | none =>
        refine ⟨0, ?_⟩
        intro fuel _ s hs
        refine ⟨error E_LIST name "error open file" s, ?_,
          ⟨⟨hs.path, hs.mask, hs.framed, hs.recurse, hs.useattr⟩, hs.stdin, hs.line⟩,
          rfl, rfl, rfl, rfl, rfl, rfl, ?_, rfl⟩
        . unfold carryOut listNext
          dsimp only
          rw [if_neg hname, hfp]
        . simp [error, computedFor, Job.reports, Report.computed]
      | some content =>
        rw [hfp] at hroom
        have hends := listNext_ends stdin fopen v hF name (hfopen name content hfp)
          ((if_neg hname).trans hfp) hroom
        rw [if_neg hname] at hends
        exact hends

theorem foldlM_ends (hstdin : NUL ∉ stdin) (us : List Use)
    (hroom : ∀ j ∈ jobs fopen stdin us, j.HasRoom disk recurse useattr)
    : ∃ stdin', Ends recurse useattr stdin stdin'
        ((jobs fopen stdin us).flatMap (Job.reports disk recurse useattr)) fun fuel s =>
          us.foldlM (fun s u => carryOut (process (F.beside v) fuel)
            (listNext (process (F.beside v) fuel) fopen fuel) u s) s := by
  induction us generalizing stdin with
  | nil => exact ⟨stdin, .ok⟩
  | cons u us ih =>
    rw [jobs, List.forall_mem_cons] at hroom
    have hleft : NUL ∉ (job fopen stdin u).2 := by
      unfold job
      split
      . exact hstdin
      . exact hstdin
      . exact hstdin
      . split
        . exact List.not_mem_nil
        . split
          . exact hstdin
          . exact hstdin
    obtain ⟨stdin', hrest⟩ := ih hleft hroom.2
    refine ⟨stdin', ?_⟩
    simp only [List.foldlM_cons]
    rw [jobs, List.flatMap_cons]
    exact (carryOut_ends (v := v) hF hfopen hstdin u hroom.1).bind hrest

end

/-! The program. -/

/--
The masks that `main` hands on to `do_mask`.
-/
def masksOf (args : List Text) : Mask.Collected 8 :=
  if options args = [] ∧ args.any hasComma then
    ⟨~~~ALL_FILE, 0⟩
  else
    Mask.collect (options args)

/--
No new attributes are asked for.
-/
abbrev ShowsOnly (args : List Text) : Prop :=
  options args = [] ∧ ¬ args.any hasComma

def infoOf (args : List Text) : Buffer :=
  let info := "[-----] -> [-----] ".toList ++ [NUL]
  if ShowsOnly args then info.set NEW_PART NUL else info

section

variable {args : List Text} {fi : φ} {s : State φ}

theorem adjust_masks (h : Parses { fi := fi } args s) : (adjust s).masks = masksOf args := by
  have hmasks : s.masks = Mask.collect (options args) := (parses_adds h).masks
  unfold masksOf adjust
  by_cases hnone : options args = []
  . rw [if_pos ((parses_keep_iff h).mpr hnone)]
    by_cases hany : args.any hasComma = true
    . rw [if_pos ((parses_iscomma h).mpr hany), if_pos ⟨hnone, hany⟩]
      have hset : s.attrSet = 0 := by
        have := congrArg Mask.Collected.set hmasks
        rwa [hnone] at this
      exact congrArg (Mask.Collected.mk _) hset
    . rw [if_neg (mt (parses_iscomma h).mp hany), if_neg fun hboth => hany hboth.2]
      exact hmasks
  . rw [if_neg (mt (parses_keep_iff h).mp hnone), if_neg fun hboth => hnone hboth.1]
    exact hmasks

theorem adjust_info (h : Parses { fi := fi } args s) : (adjust s).info = infoOf args := by
  have hinfo : s.info = "[-----] -> [-----] ".toList ++ [NUL] := (parses_adds h).info
  unfold infoOf adjust
  by_cases hnone : options args = []
  . rw [if_pos ((parses_keep_iff h).mpr hnone)]
    by_cases hany : args.any hasComma = true
    . rw [if_pos ((parses_iscomma h).mpr hany), if_neg fun hshows => hshows.2 hany]
      exact hinfo
    . rw [if_neg (mt (parses_iscomma h).mp hany), if_pos ⟨hnone, hany⟩]
      exact congrArg (List.set · NEW_PART NUL) hinfo
  . rw [if_neg (mt (parses_keep_iff h).mp hnone), if_neg fun hshows => hnone hshows.1]
    exact hinfo

theorem adjust_same (h : Parses { fi := fi } args s)
    : adjust s = { ({ fi := fi } : State φ) with
        recurse := recurseOf args
        useattr := useattrOf args
        attrKeep := (masksOf args).keep
        attrSet := (masksOf args).set
        info := infoOf args
        iscomma := s.iscomma } := by
  have hsets := parses_sets h rfl
  have hrecurse : s.recurse = recurseOf args := hsets.recurse
  have huseattr : s.useattr = useattrOf args := hsets.useattr
  have hsame : adjust s = { s with attrKeep := (adjust s).attrKeep, info := (adjust s).info } := by
    unfold adjust
    split
    . split
      . rfl
      . rfl
    . rfl
  have hkeep : (adjust s).attrKeep = (masksOf args).keep :=
    congrArg Mask.Collected.keep (adjust_masks h)
  have hset : s.attrSet = (masksOf args).set :=
    (congrArg State.attrSet hsame).symm.trans (congrArg Mask.Collected.set (adjust_masks h))
  rw [hsame, hkeep, adjust_info h, hset, hrecurse, huseattr, hsets.same]

end

theorem framed_infoOf (args : List Text) : Framed (infoOf args) := by
  unfold infoOf
  split
  . exact ⟨by decide, by decide, by decide⟩
  . exact framed_info

/--
The program deals with all that its command line names, in this order: it prints a line for each
file that it finds, an error for each target without files and each file with targets that it cannot
open, and returns the code of the worst of it.
-/
theorem run_reports {F : Finder φ} {disk : Listing} (hF : Answers F disk) {args : List Text}
    {us : List Use} (hread : Read args us) {fopen : Text → Option (List Char)} {stdin : List Char}
    (hstdin : NUL ∉ stdin) (hfopen : ∀ name content, fopen name = some content → NUL ∉ content)
    (hroom : ∀ j ∈ jobs fopen stdin (targets us), j.HasRoom disk (recurseOf args) (useattrOf args))
    (name : Text) (fi : φ)
    : ∃ N, ∀ fuel, N ≤ fuel →
        let reports := (jobs fopen stdin (targets us)).flatMap
          (Job.reports disk (recurseOf args) (useattrOf args))
        ∃ s, run F fopen stdin fuel (name :: args) fi = .ok (reports.foldl raise EXIT_OK, s)
          ∧ s.output = reports.map (Report.output (infoOf args))
          ∧ s.computed
            = if ShowsOnly args then [] else reports.flatMap (Report.computed (masksOf args)) := by
  obtain ⟨s₁, hparses, hmain⟩ :=
    main_read (s := { fi := (fi, ({ stdin := stdin } : Static)) }) hread name rfl
  obtain ⟨stdin', N, hN⟩ := foldlM_ends (v := { stdin := stdin }) hF hfopen hstdin (targets us) hroom
  have hstart : Between (recurseOf args) (useattrOf args) stdin (adjust s₁) := by
    rw [adjust_same hparses]
    exact ⟨⟨List.length_replicate, List.length_replicate, framed_infoOf args, rfl, rfl⟩, rfl,
      List.length_replicate⟩
  refine ⟨N, ?_⟩
  intro fuel hfuel
  dsimp only
  obtain ⟨s, hfold, -, htells⟩ := hN fuel hfuel (adjust s₁) hstart
  dsimp only at hfold
  refine ⟨s, ?_, ?_, ?_⟩
  . unfold run
    rw [hmain, hfold]
    have hretcode := htells.retcode
    rw [adjust_same hparses] at hretcode
    exact congrArg (fun code => Except.ok (code, s)) hretcode
  . have houtput := htells.output
    rw [adjust_same hparses] at houtput
    exact houtput
  . have hcomputed := htells.computed
    unfold computedFor at hcomputed
    rw [if_congr (adjust_newPart hparses) rfl rfl, adjust_masks hparses] at hcomputed
    rw [hcomputed, adjust_same hparses]
    rfl

theorem uses_recursive : Uses (.ofString "/s") .nothing := by
  have hchars : withoutComma ((Text.ofString "/s").chars.map toupper) = '/' :: ['S'] := by decide
  unfold Uses
  rw [hchars]
  exact .options (.letter (.inl rfl))

theorem uses_smallTarget : Uses (.ofString "c:\\f") (.target smallTraversal.target) := by
  have hchars : withoutComma ((Text.ofString "c:\\f").chars.map toupper)
      = 'C' :: [':', '\\', 'F'] := by decide
  unfold Uses
  rw [hchars]
  exact .target _ (by decide) (by simp [Sign]) (by decide)

theorem uses_listNamed : Uses (.ofString "/@l") (.list (.ofString "L")) := by
  have hchars : withoutComma ((Text.ofString "/@l").chars.map toupper)
      = '/' :: '@' :: (Text.ofString "L").chars := by decide
  unfold Uses
  rw [hchars]
  exact .options (.list _)

theorem run_reports_smallDisk
    : ∃ N, ∀ fuel, N ≤ fuel →
        ∃ s, run (diskFinder dosMatching smallDisk) (fun _ => none) [] fuel
            [.ofString "attrib", .ofString "c:\\f", .ofString "/s", .ofString "/@l"] []
            = .ok ((smallTraversal.reports ++ [Report.noList (.ofString "L")]).foldl raise EXIT_OK, s)
          ∧ s.output = (smallTraversal.reports ++ [Report.noList (.ofString "L")]).map
              (Report.output ("[-----] ".toList ++ NUL :: "> [-----] ".toList ++ [NUL]))
          ∧ s.computed = [] := by
  let args := [Text.ofString "c:\\f", .ofString "/s", .ofString "/@l"]
  have hread : Read args [.target smallTraversal.target, .nothing, .list (.ofString "L")] :=
    ⟨.cons uses_smallTarget (.cons uses_recursive (.cons uses_listNamed .nil)), by simp⟩
  have hrecurse : recurseOf args = 1 := by decide
  have huseattr : useattrOf args = ALL_FILE := by decide
  have hinfo : infoOf args = "[-----] ".toList ++ NUL :: "> [-----] ".toList ++ [NUL] := by decide
  have hshows : ShowsOnly args := by decide
  have hjobs : jobs (fun _ => none) []
      (targets [.target smallTraversal.target, .nothing, .list (.ofString "L")])
      = [.targets [smallTraversal.target], .noList (.ofString "L")] := rfl
  have hroom : ∀ j ∈ jobs (fun _ => none) []
      (targets [.target smallTraversal.target, .nothing, .list (.ofString "L")]),
      j.HasRoom smallTraversal.disk (recurseOf args) (useattrOf args) := by
    rw [hjobs, hrecurse, huseattr]
    simp only [List.forall_mem_cons, Job.HasRoom]
    exact ⟨⟨smallTraversal_hasRoom, by simp⟩, trivial, by simp⟩
  have hruns := run_reports (diskFinder_answers dosMatching smallDisk) hread (by simp) (by simp)
    hroom (.ofString "attrib") []
  rw [hjobs, hrecurse, huseattr, hinfo] at hruns
  simp only [if_pos hshows] at hruns
  exact hruns

end Attrib
end Dosix
