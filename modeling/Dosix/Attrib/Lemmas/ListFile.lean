import Dosix.Attrib.Lemmas.CommandLine
import Dosix.Attrib.Lemmas.Trim
import Dosix.Trim.Pieces

/-!
This module contains the targets that `list` finds in a file: they are those of the lines, as long
as no target goes on where the array for the line ends.
-/

namespace Dosix
namespace Attrib

open Trim

variable {φ : Type}

/-! What is read at a time. -/

def LINELEN : Nat := PATHLEN - 1

/--
A line as it is read into the array. The last piece is shorter than the others, and may be empty.
-/
def pieces (line : List Char) : List (List Char) :=
  (List.range (line.length / LINELEN + 1)).map fun k => (line.drop (LINELEN * k)).take LINELEN

theorem pieces_short {line : List Char} (h : line.length < LINELEN) : pieces line = [line] := by
  unfold pieces
  rw [Nat.div_eq_of_lt h]
  change [(line.drop 0).take LINELEN] = [line]
  rw [List.drop_zero, List.take_of_length_le (Nat.le_of_lt h)]

theorem pieces_append {piece : List Char} (h : piece.length = LINELEN) (rest : List Char)
    : pieces (piece ++ rest) = piece :: pieces rest := by
  have hrange : (piece ++ rest).length / LINELEN + 1 = (rest.length / LINELEN + 1) + 1 := by
    rw [List.length_append, h, Nat.add_div_left rest.length (by decide)]
  unfold pieces
  rw [hrange, List.range_succ_eq_map, List.map_cons, List.map_map]
  congr 1
  . rw [Nat.mul_zero, List.drop_zero, List.take_left' h]
  . apply List.map_congr_left
    intro k _
    rw [Function.comp_apply, Nat.mul_succ, Nat.add_comm, ← h, ← List.drop_drop, List.drop_left]

theorem flatten_pieces (line : List Char) : (pieces line).flatten = line := by
  induction hlength : line.length using Nat.strong_induction_on generalizing line with
  | _ n ih =>
    by_cases h : line.length < LINELEN
    . rw [pieces_short h]
      simp
    . have hpiece : (line.take LINELEN).length = LINELEN := by
        rw [List.length_take]
        omega
      have hless : (line.drop LINELEN).length < n := by
        have hpos : 0 < LINELEN := by decide
        rw [List.length_drop]
        omega
      rw [← List.take_append_drop LINELEN line, pieces_append hpiece, List.flatten_cons,
        ih _ hless _ rfl]

/--
The start of a file: its last line, a line, or as much of a line as is read at a time.
-/
inductive Start : List Char → Prop where
  | last (line : List Char) (hline : '\n' ∉ line) (h : line.length < LINELEN) : Start line
  | line (line rest : List Char) (hline : '\n' ∉ line) (h : line.length < LINELEN)
      : Start (line ++ '\n' :: rest)
  | piece (piece rest : List Char) (hpiece : '\n' ∉ piece) (h : piece.length = LINELEN)
      : Start (piece ++ rest)

theorem start (content : List Char) : Start content := by
  have hsplit : content.takeWhile (· ≠ '\n') ++ content.dropWhile (· ≠ '\n') = content :=
    List.takeWhile_append_dropWhile
  have hnewline : '\n' ∉ content.takeWhile (· ≠ '\n') := by
    intro h
    simpa using List.mem_takeWhile_imp h
  generalize content.takeWhile (· ≠ '\n') = line at hsplit hnewline
  by_cases h : line.length < LINELEN
  . cases hrest : content.dropWhile (· ≠ '\n') with
    | nil =>
      rw [hrest, List.append_nil] at hsplit
      rw [← hsplit]
      exact .last line hnewline h
    | cons c rest =>
      have hc := List.head?_dropWhile_not (· ≠ '\n') content
      rw [hrest] at hc hsplit
      obtain rfl : c = '\n' := by simpa using hc
      rw [← hsplit]
      exact .line line rest hnewline h
  . have htake : (line.take LINELEN).length = LINELEN := by
      rw [List.length_take]
      omega
    rw [← hsplit, ← List.take_append_drop LINELEN line, List.append_assoc]
    exact .piece _ _ (fun h => hnewline (List.mem_of_mem_take h)) htake

/-! `fill`. -/

theorem fill_store {pre suf : List Char} {x c : Char} (fp : List Char) (hc : c ≠ '\n')
    : fill pre.length (pre ++ x :: suf) (c :: fp)
        = if pre.length + 1 < LINELEN then fill (pre ++ [c]).length (pre ++ [c] ++ suf) fp
          else .ok (some c, (pre ++ [c]).length, pre ++ [c] ++ suf, fp) := by
  have hset : (pre ++ x :: suf).set pre.length c = pre ++ [c] ++ suf := by simp
  rw [fill, if_neg hc, if_pos (by simp), hset, List.length_append]
  rfl

theorem fill_append (pre : List Char) {suf piece : List Char} (fp : List Char) (hpiece : '\n' ∉ piece)
    (hlength : (pre ++ suf).length = PATHLEN) (h : pre.length + piece.length < LINELEN)
    : fill pre.length (pre ++ suf) (piece ++ fp)
        = fill (pre ++ piece).length (pre ++ piece ++ suf.drop piece.length) fp := by
  induction piece generalizing pre suf with
  | nil => simp
  | cons c piece ih =>
    rw [List.mem_cons, not_or] at hpiece
    rw [List.length_cons] at h
    have hsuf : suf ≠ [] := by
      rintro rfl
      rw [List.append_nil] at hlength
      unfold LINELEN at h
      omega
    obtain ⟨x, suf, rfl⟩ := List.exists_cons_of_ne_nil hsuf
    rw [List.cons_append, fill_store _ (Ne.symm hpiece.1), if_pos (by omega),
      ih _ hpiece.2 (by simpa using hlength) (by rw [List.length_append, List.length_singleton]; omega)]
    simp

section

variable {line piece : List Char} (hlength : line.length = PATHLEN) (hpiece : '\n' ∉ piece)

include hlength hpiece

theorem fill_last (h : piece.length < LINELEN)
    : fill 0 line piece = .ok (none, piece.length, piece ++ line.drop piece.length, []) := by
  have happend := fill_append [] [] hpiece hlength (by simpa using h)
  rw [List.append_nil] at happend
  exact happend

theorem fill_line (h : piece.length < LINELEN) (rest : List Char)
    : fill 0 line (piece ++ '\n' :: rest)
        = .ok (some '\n', piece.length, piece ++ line.drop piece.length, rest) :=
  fill_append [] ('\n' :: rest) hpiece hlength (by simpa using h)

theorem fill_piece (h : piece.length = LINELEN) (rest : List Char)
    : ∃ c, fill 0 line (piece ++ rest)
        = .ok (some c, piece.length, piece ++ line.drop piece.length, rest) := by
  have hne : piece ≠ [] := by
    rintro rfl
    cases h
  obtain ⟨init, c, rfl⟩ := (List.eq_nil_or_concat' piece).resolve_left hne
  rw [List.length_append, List.length_singleton] at h
  rw [List.mem_append, not_or, List.mem_singleton] at hpiece
  have hlt : init.length < line.length := by
    rw [hlength]
    unfold LINELEN at h
    omega
  have happend := fill_append [] (c :: rest) hpiece.1 hlength
    (show 0 + init.length < LINELEN by omega)
  rw [List.nil_append, List.nil_append, List.drop_eq_getElem_cons hlt,
    fill_store _ (Ne.symm hpiece.2), if_neg (by omega)] at happend
  refine ⟨c, ?_⟩
  rw [List.length_append] at happend ⊢
  rw [List.append_assoc]
  exact happend

end

/-! One turn. -/

section

variable (process : Text → State φ → Except Fault (State φ))

/--
Targets one after the other.
-/
def processAll (targets : List Text) (s : State φ) : Except Fault (State φ) :=
  targets.foldlM (fun s target => process target s) s

theorem processAll_append (ts us : List Text) (s : State φ)
    : processAll process (ts ++ us) s = processAll process ts s >>= processAll process us :=
  List.foldlM_append

def targetOf (text : List Char) : Text :=
  upper (.ofChars text)

/--
The targets that these pieces of the file make, each by itself.
-/
def targetsOf (pieces : List (List Char)) : List Text :=
  (texts isBlank '"' pieces).map targetOf

theorem processLine_eq {line : Buffer} {p pend : Nat} (hp : p ≤ pend) (hpend : pend < line.length)
    (t : Text) (ht : (line.take pend).drop p = t.chars) (s : State φ)
    : ∃ line', line'.length = line.length
        ∧ processLine process p (line.set pend NUL) s
          = if t.chars = [] then .ok (line', s) else (process (upper t) s).map (line', ·) := by
  have hdrop : (line.set pend NUL).drop p = t.chars ++ NUL :: line.drop (pend + 1) := by
    rw [List.set_eq_take_append_cons_drop, if_pos hpend, List.drop_append_of_le_length, ht]
    rw [List.length_take]
    omega
  have htake : ((line.set pend NUL).take p).length = p := by
    rw [List.length_take, List.length_set]
    omega
  unfold processLine
  rw [hdrop]
  by_cases hnil : t.chars = []
  . refine ⟨line.set pend NUL, List.length_set, ?_⟩
    rw [if_pos hnil, hnil]
    rfl
  obtain ⟨c, cs, hchars⟩ := List.exists_cons_of_ne_nil hnil
  have hderef : Buffer.deref (t.chars ++ NUL :: line.drop (pend + 1)) = .ok c := by
    rw [hchars]
    rfl
  have hc : c ≠ NUL := by
    rintro rfl
    exact t.noNul (hchars ▸ List.mem_cons_self)
  have hread : Buffer.read ((line.set pend NUL).take p
      ++ ((upper t).chars ++ NUL :: line.drop (pend + 1))) p = .ok (upper t) := by
    unfold Buffer.read
    rw [List.drop_left' htake, if_pos (by simp), Text.ofChars_append]
  refine ⟨(line.set pend NUL).take p ++ ((upper t).chars ++ NUL :: line.drop (pend + 1)), ?_, ?_⟩
  . have hupper : (upper t).chars.length = t.chars.length := List.length_map _
    have hsplit := congrArg List.length (List.take_append_drop p (line.set pend NUL))
    rw [hdrop, List.length_append, List.length_append, List.length_set] at hsplit
    rw [List.length_append, List.length_append, hupper]
    exact hsplit
  . rw [if_neg hnil, hderef]
    dsimp only [bind, Except.bind]
    rw [if_pos hc, strupr_append, hread]
    dsimp only
    cases process (upper t) s with
    | ok s => rfl
    | error f => rfl

theorem piece_eq {line piece : List Char} (hlength : line.length = PATHLEN)
    (hpiece : piece <+: line) (hshort : piece.length < PATHLEN) (hnul : NUL ∉ piece) (s : State φ)
    : ∃ p trimmed line', trimsq 0 piece.length { buf := line } = .ok (p, trimmed)
        ∧ line'.length = PATHLEN
        ∧ processLine process p trimmed.buf s
          = (processAll process (targetsOf [piece]) s).map (line', ·) := by
  obtain ⟨p, pend, reads, htrimsq, hp, hpend, -, htext⟩ := trimsq_trims hlength hshort
  have htake : line.take piece.length = piece := (List.prefix_iff_eq_take.mp hpiece).symm
  rw [htake] at htext
  have hnul' : NUL ∉ unquote '"' (trim isBlank piece) := fun h =>
    hnul (trim_subset isBlank piece (unquote_subset '"' _ h))
  obtain ⟨line', hlength', hprocess⟩ := processLine_eq process hp (by omega)
    ⟨unquote '"' (trim isBlank piece), hnul'⟩ htext s
  refine ⟨p, _, line', htrimsq, hlength'.trans hlength, ?_⟩
  rw [hprocess]
  have htarget : targetOf (unquote '"' (trim isBlank piece))
      = upper ⟨unquote '"' (trim isBlank piece), hnul'⟩ :=
    congrArg upper (Text.ofChars_chars ⟨_, hnul'⟩)
  unfold processAll targetsOf texts
  by_cases hnil : unquote '"' (trim isBlank piece) = []
  . simp [hnil]
    rfl
  . simp [hnil, htarget]

theorem turn_eq {fp line piece rest : List Char} {ch : Option Char}
    (hlength : line.length = PATHLEN) (hshort : piece.length < PATHLEN) (hnul : NUL ∉ piece)
    (hfill : fill 0 line fp = .ok (ch, piece.length, piece ++ line.drop piece.length, rest))
    (s : State φ)
    : ∃ line', line'.length = PATHLEN
        ∧ ∀ fuel, listLoop process (fuel + 1) fp line s
          = processAll process (targetsOf [piece]) s >>= fun s =>
            if ch = none then .ok (rest, line', s) else listLoop process fuel rest line' s := by
  have hfilled : (piece ++ line.drop piece.length).length = PATHLEN := by
    rw [List.length_append, List.length_drop]
    omega
  obtain ⟨p, trimmed, line', htrimsq, hlength', hprocess⟩ :=
    piece_eq process hfilled (List.prefix_append _ _) hshort hnul s
  refine ⟨line', hlength', ?_⟩
  intro fuel
  rw [listLoop, hfill]
  dsimp only [bind, Except.bind]
  rw [htrimsq]
  dsimp only
  rw [hprocess]
  cases processAll process (targetsOf [piece]) s with
  | error f => rfl
  | ok s =>
    dsimp only [Except.map]
    cases ch with
    | none => rfl
    | some ch =>
      have heof : (ch.toNat : Int) - EOF ≠ 0 := by
        unfold EOF
        omega
      rw [if_pos heof, if_neg (by simp)]

/-! `list`. -/

/--
The targets of a file as it is read, one for each piece of a line.
-/
def readTargets (content : List Char) : List Text :=
  targetsOf ((content.splitOn '\n').flatMap pieces)

/--
The targets of a file with one target for each line.
-/
def lineTargets (content : List Char) : List Text :=
  targetsOf (content.splitOn '\n')

theorem targetsOf_append (ps qs : List (List Char))
    : targetsOf (ps ++ qs) = targetsOf ps ++ targetsOf qs := by
  unfold targetsOf
  rw [texts_append, List.map_append]

theorem readTargets_last {line : List Char} (hline : '\n' ∉ line) (h : line.length < LINELEN)
    : readTargets line = targetsOf [line] := by
  unfold readTargets
  rw [List.splitOn_eq_singleton hline, List.flatMap_singleton, pieces_short h]

theorem readTargets_line {line : List Char} (hline : '\n' ∉ line) (h : line.length < LINELEN)
    (rest : List Char)
    : readTargets (line ++ '\n' :: rest) = targetsOf [line] ++ readTargets rest := by
  unfold readTargets
  rw [List.splitOn_append_cons_self_of_not_mem hline, List.flatMap_cons, pieces_short h,
    targetsOf_append]

theorem splitOn_append {piece : List Char} (hpiece : '\n' ∉ piece) (rest : List Char)
    : (piece ++ rest).splitOn '\n' = (rest.splitOn '\n').modifyHead (piece ++ ·) := by
  induction piece with
  | nil => exact (congrFun List.modifyHead_id (rest.splitOn '\n')).symm
  | cons c piece ih =>
    rw [List.mem_cons, not_or] at hpiece
    rw [List.cons_append, List.splitOn_cons_eq_if_modifyHead, if_neg (by simp [Ne.symm hpiece.1]),
      ih hpiece.2, List.modifyHead_modifyHead]
    rfl

theorem readTargets_piece {piece : List Char} (hpiece : '\n' ∉ piece) (h : piece.length = LINELEN)
    (rest : List Char)
    : readTargets (piece ++ rest) = targetsOf [piece] ++ readTargets rest := by
  obtain ⟨line, lines, hlines⟩ := List.exists_cons_of_ne_nil (List.splitOn_ne_nil '\n' rest)
  unfold readTargets
  rw [splitOn_append hpiece, hlines, List.modifyHead_cons, List.flatMap_cons, List.flatMap_cons,
    pieces_append h, ← targetsOf_append]
  rfl

/--
The loop reads the file to its end, and no further, and hands on the targets of the pieces.
-/
theorem listLoop_run {content line : List Char} {fuel : Nat} (hnul : NUL ∉ content)
    (hlength : line.length = PATHLEN) (hfuel : content.length < fuel) (s : State φ)
    : ∃ line', line'.length = PATHLEN ∧ listLoop process fuel content line s
        = (processAll process (readTargets content) s).map fun t => ([], line', t) := by
  induction fuel generalizing content line s with
  | zero => exact absurd hfuel (Nat.not_lt_zero _)
  | succ fuel ih =>
    have hlinelen : LINELEN < PATHLEN := by decide
    cases start content with
    | last _ hline h =>
      obtain ⟨line', hlength', hturn⟩ := turn_eq process hlength (Nat.lt_trans h hlinelen) hnul
        (fill_last hlength hline h) s
      refine ⟨line', hlength', ?_⟩
      rw [hturn, readTargets_last hline h]
      cases processAll process (targetsOf [content]) s with
      | error f => rfl
      | ok s => rfl
    | line piece rest hline h =>
      simp only [List.mem_append, List.mem_cons, not_or] at hnul
      obtain ⟨line', hlength', hturn⟩ := turn_eq process hlength (Nat.lt_trans h hlinelen) hnul.1
        (fill_line hlength hline h rest) s
      rw [hturn, readTargets_line hline h, processAll_append]
      cases processAll process (targetsOf [piece]) s with
      | error f => exact ⟨line', hlength', rfl⟩
      | ok s =>
        refine ih hnul.2.2 hlength' ?_ s
        rw [List.length_append, List.length_cons] at hfuel
        omega
    | piece piece rest hpiece h =>
      rw [List.mem_append, not_or] at hnul
      obtain ⟨c, hfill⟩ := fill_piece hlength hpiece h rest
      obtain ⟨line', hlength', hturn⟩ := turn_eq process hlength (h ▸ hlinelen) hnul.1 hfill s
      rw [hturn, readTargets_piece hpiece h, processAll_append]
      cases processAll process (targetsOf [piece]) s with
      | error f => exact ⟨line', hlength', rfl⟩
      | ok s =>
        refine ih hnul.2 hlength' ?_ s
        have hpos : 0 < LINELEN := by decide
        rw [List.length_append, h] at hfuel
        omega

theorem listLoop_eq {content line : List Char} {fuel : Nat} (hnul : NUL ∉ content)
    (hlength : line.length = PATHLEN) (hfuel : content.length < fuel) (s : State φ)
    : (listLoop process fuel content line s).map (fun r => (r.1, r.2.2))
        = (processAll process (readTargets content) s).map ([], ·) := by
  obtain ⟨line', -, hrun⟩ := listLoop_run process hnul hlength hfuel s
  rw [hrun]
  cases processAll process (readTargets content) s with
  | error f => rfl
  | ok s => rfl

end

/-! The targets of the lines. -/

theorem mem_of_mem_splitOn {content line : List Char} {c : Char}
    (hline : line ∈ content.splitOn '\n') (hc : c ∈ line) : c ∈ content := by
  induction content generalizing line with
  | nil =>
    rw [List.splitOn_nil, List.mem_singleton] at hline
    rw [hline] at hc
    cases hc
  | cons d content ih =>
    rw [List.splitOn_cons_eq_if_modifyHead] at hline
    obtain ⟨first, lines, hlines⟩ :=
      List.exists_cons_of_ne_nil (List.splitOn_ne_nil '\n' content)
    rw [hlines] at ih hline
    split at hline
    . rcases List.mem_cons.mp hline with rfl | hline
      . cases hc
      . exact .tail d (ih hline hc)
    . rcases List.mem_cons.mp hline with rfl | hline
      . rcases List.mem_cons.mp hc with rfl | hc
        . exact List.mem_cons_self
        . exact .tail d (ih List.mem_cons_self hc)
      . exact .tail d (ih (.tail first hline) hc)

theorem noNul_texts {ps : List (List Char)} (hnul : ∀ p ∈ ps, NUL ∉ p)
    : ∀ t ∈ texts isBlank '"' ps, NUL ∉ t := by
  intro t ht
  simp only [texts, List.mem_filter, List.mem_map] at ht
  obtain ⟨⟨p, hp, rfl⟩, -⟩ := ht
  exact fun h => hnul p hp (trim_subset isBlank p (unquote_subset '"' _ h))

theorem chars_targetOf {text : List Char} (hnul : NUL ∉ text)
    : (targetOf text).chars = text.map toupper :=
  congrArg (fun t => (upper t).chars) (Text.ofChars_chars ⟨text, hnul⟩)

theorem isBlank_toupper (c : Char) : isBlank (toupper c) = isBlank c := by
  unfold isBlank
  rw [decide_eq_decide.mpr (toupper_eq_iff (d := ' ') (by decide)),
    decide_eq_decide.mpr (toupper_eq_iff (d := '\t') (by decide))]

theorem toupper_quote (c : Char) : toupper c = '"' ↔ c = '"' :=
  toupper_eq_iff (by decide)

theorem chars_targetsOf {ps : List (List Char)} (hnul : ∀ p ∈ ps, NUL ∉ p)
    : (targetsOf ps).map Text.chars = texts isBlank '"' (ps.map (List.map toupper)) := by
  rw [texts_map isBlank_toupper toupper_quote]
  unfold targetsOf
  rw [List.map_map]
  apply List.map_congr_left
  intro t ht
  exact chars_targetOf (noNul_texts hnul t ht)

theorem readTargets_eq_iff {content : List Char} (hnul : NUL ∉ content)
    : readTargets content = lineTargets content
      ↔ ∀ line ∈ content.splitOn '\n', Whole isBlank '"' (pieces line) := by
  have hlines : ∀ line ∈ content.splitOn '\n', NUL ∉ line :=
    fun line hline h => hnul (mem_of_mem_splitOn hline h)
  have hpieces : ∀ piece ∈ (content.splitOn '\n').flatMap pieces, NUL ∉ piece := by
    intro piece hpiece h
    obtain ⟨line, hline, hpiece⟩ := List.mem_flatMap.mp hpiece
    refine hlines line hline ?_
    rw [← flatten_pieces line]
    exact List.mem_flatten.mpr ⟨piece, hpiece, h⟩
  have hinj : Function.Injective Text.chars := fun _ _ => Text.ext_chars
  unfold readTargets lineTargets
  rw [← (List.map_injective_iff.mpr hinj).eq_iff, chars_targetsOf hpieces, chars_targetsOf hlines]
  have hread : texts isBlank '"' (((content.splitOn '\n').flatMap pieces).map (List.map toupper))
      = ((content.splitOn '\n').map fun line => (pieces line).map (List.map toupper)).flatMap
          (texts isBlank '"') := by
    rw [List.map_flatMap, texts_flatMap, List.flatMap_map]
  have hwhole : texts isBlank '"' ((content.splitOn '\n').map (List.map toupper))
      = ((content.splitOn '\n').map fun line => (pieces line).map (List.map toupper)).flatMap
          fun ps => texts isBlank '"' [ps.flatten] := by
    rw [List.flatMap_map, ← texts_flatMap, List.map_eq_flatMap]
    simp only [← List.map_flatten, flatten_pieces]
  rw [hread, hwhole, texts_flatMap_iff (by decide), List.forall_mem_map]
  simp only [whole_map isBlank_toupper toupper_quote]

/--
A file is dealt with line by line: the targets are those of the lines, in order, and the loop ends
at the end of the file.
-/
structure ByLines (fopen : Text → Option (List Char)) (stdin : List Char) (name : Text)
    (content : List Char) (s : State φ) : Prop where
  targets : ∀ process line fuel, line.length = PATHLEN → content.length < fuel →
    list process fopen stdin line fuel name s = processAll process (lineTargets content) s
  ends : ∀ process line fuel, line.length = PATHLEN → content.length < fuel → ∀ r,
    listLoop process fuel content line s = .ok r → r.1 = []

section

variable {fopen : Text → Option (List Char)} {stdin content line : List Char} {name : Text}

theorem list_eq (process : Text → State φ → Except Fault (State φ))
    (hfile : (if name.chars = [] then some stdin else fopen name) = some content)
    (hnul : NUL ∉ content) (hlength : line.length = PATHLEN) {fuel : Nat}
    (hfuel : content.length < fuel) (s : State φ)
    : list process fopen stdin line fuel name s = processAll process (readTargets content) s := by
  have hcomp (x : Except Fault (List Char × Buffer × State φ))
      : x.map (fun p => p.2.2) = (x.map fun r => (r.1, r.2.2)).map Prod.snd := by
    cases x with
    | ok r => rfl
    | error f => rfl
  unfold list
  rw [hfile]
  dsimp only
  rw [hcomp, listLoop_eq process hnul hlength hfuel]
  cases processAll process (readTargets content) s with
  | ok t => rfl
  | error f => rfl

theorem listLoop_ends (process : Text → State φ → Except Fault (State φ)) (hnul : NUL ∉ content)
    (hlength : line.length = PATHLEN) {fuel : Nat} (hfuel : content.length < fuel) (s : State φ)
    {r : List Char × Buffer × State φ} (hr : listLoop process fuel content line s = .ok r)
    : r.1 = [] := by
  have hloop := listLoop_eq process hnul hlength hfuel s
  rw [hr] at hloop
  cases hrun : processAll process (readTargets content) s with
  | error f =>
    rw [hrun] at hloop
    cases hloop
  | ok t =>
    rw [hrun] at hloop
    exact congrArg Prod.fst (Except.ok.inj hloop)

/--
Hand on nothing, but note the target.
-/
def note (target : Text) (s : State φ) : Except Fault (State φ) :=
  .ok (say target .empty s)

theorem processAll_note (targets : List Text) (s : State φ)
    : ∃ s', processAll note targets s = .ok s'
        ∧ s'.output = s.output ++ targets.map (Output.say · .empty) := by
  induction targets generalizing s with
  | nil => exact ⟨s, rfl, by simp⟩
  | cons target targets ih =>
    obtain ⟨s', hs', houtput⟩ := ih (say target .empty s)
    refine ⟨s', hs', ?_⟩
    rw [houtput]
    unfold say
    simp

theorem ByLines.readTargets_eq {s : State φ}
    (hfile : (if name.chars = [] then some stdin else fopen name) = some content)
    (hnul : NUL ∉ content) (h : ByLines fopen stdin name content s)
    : readTargets content = lineTargets content := by
  have hlength : (List.replicate PATHLEN NUL).length = PATHLEN := List.length_replicate
  have hlist := h.targets note _ _ hlength (Nat.lt_succ_self _)
  rw [list_eq note hfile hnul hlength (Nat.lt_succ_self _)] at hlist
  obtain ⟨t, ht, houtput⟩ := processAll_note (readTargets content) s
  obtain ⟨u, hu, houtput'⟩ := processAll_note (lineTargets content) s
  rw [ht, hu] at hlist
  have hsame := congrArg State.output (Except.ok.inj hlist)
  rw [houtput, houtput'] at hsame
  have hinj : Function.Injective (Output.say · .empty) := by
    intro a b hab
    exact (Output.say.inj hab).1
  exact List.map_injective_iff.mpr hinj (List.append_cancel_left hsame)

/--
The lines make their targets just if none of them is split into several that are not blank, or it
is one of three quotes.
-/
theorem list_byLines_iff
    (hfile : (if name.chars = [] then some stdin else fopen name) = some content)
    (hnul : NUL ∉ content) (s : State φ)
    : ByLines fopen stdin name content s
      ↔ ∀ line ∈ content.splitOn '\n', Whole isBlank '"' (pieces line) := by
  rw [← readTargets_eq_iff hnul]
  constructor
  . exact ByLines.readTargets_eq hfile hnul
  . intro h
    refine ⟨?_, ?_⟩
    . intro process line fuel hlength hfuel
      rw [list_eq process hfile hnul hlength hfuel, h]
    . intro process line fuel hlength hfuel r hr
      exact listLoop_ends process hnul hlength hfuel s hr

end

/--
A line that the array has room for is not split.
-/
theorem whole_pieces {line : List Char} (h : line.length ≤ LINELEN)
    : Whole isBlank '"' (pieces line) := by
  rcases Nat.lt_or_eq_of_le h with h | h
  . rw [pieces_short h]
    exact .inl (List.length_filter_le _ _)
  . have hpieces := pieces_append h []
    rw [List.append_nil, pieces_short (show ([] : List Char).length < LINELEN by decide)] at hpieces
    have hnone : parts isBlank [([] : List Char)] = [] := by simp [parts]
    rw [hpieces]
    left
    rw [parts_cons, hnone]
    split
    . exact Nat.zero_le 1
    . exact Nat.le_refl 1

def smallList : List Char :=
  "\t\"a b\" \n\n+r".toList

theorem list_byLines_smallList
    : ByLines (fun _ => some smallList) [] (.ofString "F") smallList ({ fi := () } : State Unit)
      ∧ lineTargets smallList = [.ofString "A B", .ofString "+R"] :=
  ⟨(list_byLines_iff rfl (by decide) _).mpr fun line hline => whole_pieces
    ((by decide : ∀ line ∈ smallList.splitOn '\n', line.length ≤ LINELEN) line hline), by decide⟩

def longLine : List Char :=
  List.replicate 259 'a' ++ ['a']

theorem mem_longLine {c : Char} (hc : c ∈ longLine) : c = 'a' := by
  rcases List.mem_append.mp hc with hc | hc
  . exact List.eq_of_mem_replicate hc
  . exact List.mem_singleton.mp hc

/--
The last character of the line becomes a target of its own.
-/
theorem not_whole_longLine : ¬ Whole isBlank '"' (pieces longLine) := by
  have hlength : (List.replicate 259 'a').length = LINELEN := List.length_replicate
  have hpieces : pieces longLine = [List.replicate 259 'a', ['a']] := by
    unfold longLine
    rw [pieces_append hlength, pieces_short (by decide)]
  have hne {n : Nat} : trim isBlank (List.replicate (n + 1) 'a') ≠ [] := by
    rw [ne_eq, trim_eq_nil_iff]
    intro h
    exact absurd (h 'a' (by simp [List.replicate_succ])) (by decide)
  have hparts : parts isBlank (pieces longLine)
      = [trim isBlank (List.replicate 259 'a'), ['a']] := by
    rw [hpieces, parts_cons, if_neg hne]
    rfl
  rintro (h | ⟨-, h⟩)
  . rw [hparts] at h
    exact Nat.not_succ_le_self 1 h
  . have hother : hasOther isBlank '"' (trim isBlank (pieces longLine).flatten) = true := by
      refine hasOther_trim.mpr ⟨['a'], ?_, by decide⟩
      rw [hparts]
      exact .tail _ List.mem_cons_self
    rw [h] at hother
    exact absurd hother (by decide)

theorem not_list_byLines_longLine
    : ¬ ByLines (fun _ => none) (longLine ++ ['\n']) .empty (longLine ++ ['\n'])
      ({ fi := () } : State Unit) := by
  have hnul : NUL ∉ longLine ++ ['\n'] := by
    intro h
    rcases List.mem_append.mp h with h | h
    . exact absurd (mem_longLine h) (by decide)
    . exact absurd h (by decide)
  have hnewline : '\n' ∉ longLine := fun h => absurd (mem_longLine h) (by decide)
  intro h
  refine not_whole_longLine ((readTargets_eq_iff hnul).mp (h.readTargets_eq rfl hnul) longLine ?_)
  rw [List.splitOn_append_cons_self_of_not_mem hnewline]
  exact List.mem_cons_self

end Attrib
end Dosix
