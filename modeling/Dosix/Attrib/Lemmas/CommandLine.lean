import Dosix.Attrib.Impl.CommandLine
import Mathlib.Data.List.Forall2

/-!
This module contains the grammar of the command line of `attrib.c` and the verification that `main`
reads it: which arguments it accepts, and what it does with them.
-/

namespace Dosix
namespace Attrib

/-! The grammar. -/

/--
What an accepted argument asks for beside the attributes and options that it sets.
-/
inductive Use where
  | nothing
  | target (t : Text)
  | list (name : Text)
  | help
  deriving DecidableEq

/--
The items of an option part, behind the `/` of the first one.
-/
inductive Items : List Char → Use → Prop where
  | letter {c : Char} (hc : c = 'S' ∨ c = 'D') : Items [c] .nothing
  | list (name : Text) : Items ('@' :: name.chars) (.list name)
  | help (cs : List Char) : Items ('?' :: cs) .help
  | next {c : Char} {cs : List Char} {u : Use} (hc : c = 'S' ∨ c = 'D') (hcs : Items cs u)
    : Items (c :: cs) u
  | slash {c : Char} {cs : List Char} {u : Use} (hc : c = 'S' ∨ c = 'D') (hcs : Items cs u)
    : Items (c :: '/' :: cs) u

def Sign (c : Char) : Prop := c = '+' ∨ c = '-'

def Letters (cs : List Char) : Prop := cs ≠ [] ∧ ∀ c ∈ cs, c ∈ ['H', 'S', 'R', 'A']

/--
The grammar of an argument in upper case and without the comma.
-/
inductive Reads : List Char → Use → Prop where
  | empty : Reads [] .nothing
  | target {c : Char} {cs : List Char} (t : Text) (ht : t.chars = c :: cs)
      (hsign : ¬Sign c) (hslash : c ≠ '/')
    : Reads (c :: cs) (.target t)
  | attributes {c : Char} {cs : List Char} (hc : Sign c) (hcs : Letters cs)
    : Reads (c :: cs) .nothing
  | both {c : Char} {cs os : List Char} {u : Use} (hc : Sign c) (hcs : Letters cs)
      (hos : Items os u)
    : Reads (c :: cs ++ '/' :: os) u
  | options {os : List Char} {u : Use} (hos : Items os u) : Reads ('/' :: os) u

def withoutComma (cs : List Char) : List Char :=
  if cs.head? = some ',' then cs.tail else cs

/--
The argument is accepted, with this use.
-/
def Uses (arg : Text) (u : Use) : Prop := Reads (withoutComma (arg.chars.map toupper)) u

/-! What the functions return for a use, or for none. -/

variable {φ : Type}

/--
The text that is left of an argument.
-/
def Use.text (u : Use) : Text :=
  match u with
  | .nothing | .help => .empty
  | .target t => t
  | .list name => .ofString "/" ++ name

inductive Yields : Option Use → Parsed φ → Prop where
  | refused {s : State φ} (hs : s.retcode = E_OPTION) : Yields none (.returned s)
  | help {s : State φ} (hs : s.retcode = EXIT_OK) : Yields (some .help) (.returned s)
  | rest {s : State φ} {u : Use} {arg : Buffer} (hs : s.retcode = EXIT_OK) (hu : u ≠ .help)
      (harg : arg = u.text.array)
    : Yields (some u) (.rest arg s)

/--
The result is right for everything that a part of the grammar reads.
-/
def Right (reads : Use → Prop) (result : Except Fault (Parsed φ)) : Prop :=
  ∃ o r, result = .ok r ∧ Yields o r ∧ ∀ u, reads u ↔ o = some u

theorem Right.congr {reads reads' : Use → Prop} {result : Except Fault (Parsed φ)}
    (h : Right reads result) (heq : ∀ u, reads' u ↔ reads u) : Right reads' result := by
  cases h with
  | intro o h =>
    cases h with
    | intro r h => exact ⟨o, r, h.1, h.2.1, fun u => (heq u).trans (h.2.2 u)⟩

theorem sayerror_eq {s : State φ} (hs : s.retcode = EXIT_OK) (cs : List Char) (err : String)
    : ∃ s', sayerror (cs ++ [NUL]) err s = .ok (.returned s') ∧ s'.retcode = E_OPTION := by
  have hread : Buffer.read (cs ++ [NUL]) 0 = .ok (.ofChars (cs ++ [NUL])) := by
    unfold Buffer.read
    rw [List.drop_zero, if_pos (by simp)]
  refine ⟨error E_OPTION (.ofChars (cs ++ [NUL])) err s, ?_, ?_⟩
  . unfold sayerror
    rw [hread]
    rfl
  . simp [error, hs, EXIT_OK, E_OPTION]

theorem right_refused {reads : Use → Prop} {s : State φ} (hs : s.retcode = E_OPTION)
    (hnot : ∀ u, ¬reads u) : Right reads (.ok (.returned s)) := by
  refine ⟨none, .returned s, rfl, .refused hs, ?_⟩
  intro u
  simp [hnot u]

theorem right_sayerror {reads : Use → Prop} {s : State φ} (hs : s.retcode = EXIT_OK)
    (cs : List Char) (err : String) (hnot : ∀ u, ¬reads u)
    : Right reads (sayerror (cs ++ [NUL]) err s) := by
  obtain ⟨s', heq, hs'⟩ := sayerror_eq hs cs err
  rw [heq]
  exact right_refused hs' hnot

theorem right_rest {reads : Use → Prop} {s : State φ} (hs : s.retcode = EXIT_OK) {u : Use}
    {arg : Buffer} (harg : arg = u.text.array) (hu : u ≠ .help) (hreads : ∀ v, reads v ↔ v = u)
    : Right reads (.ok (.rest arg s)) := by
  refine ⟨some u, .rest arg s, rfl, .rest hs hu harg, ?_⟩
  intro v
  rw [hreads, Option.some.injEq, eq_comm]

/-! The option part. -/

/--
Items that a `/` may precede.
-/
def Later (cs : List Char) (u : Use) : Prop := Items cs u ∨ ∃ ds, cs = '/' :: ds ∧ Items ds u

theorem not_items_nil (u : Use) : ¬Items [] u := by
  intro h
  cases h

theorem items_cons {c : Char} {cs : List Char} {u : Use}
    : Items (c :: cs) u ↔
        (c = '?' ∧ u = .help)
        ∨ (c = '@' ∧ ∃ name : Text, name.chars = cs ∧ u = .list name)
        ∨ ((c = 'S' ∨ c = 'D') ∧ ((cs = [] ∧ u = .nothing) ∨ Later cs u)) := by
  constructor
  . intro h
    cases h with
    | letter hc => exact .inr (.inr ⟨hc, .inl ⟨rfl, rfl⟩⟩)
    | list name => exact .inr (.inl ⟨rfl, name, rfl, rfl⟩)
    | help => exact .inl ⟨rfl, rfl⟩
    | next hc hcs => exact .inr (.inr ⟨hc, .inr (.inl hcs)⟩)
    | slash hc hcs => exact .inr (.inr ⟨hc, .inr (.inr ⟨_, rfl, hcs⟩)⟩)
  . rintro (⟨rfl, rfl⟩ | ⟨rfl, name, rfl, rfl⟩ | ⟨hc, ⟨rfl, rfl⟩ | h | ⟨ds, rfl, h⟩⟩)
    . exact .help cs
    . exact .list name
    . exact .letter hc
    . exact .next hc h
    . exact .slash hc h

theorem not_items_slash (cs : List Char) (u : Use) : ¬Items ('/' :: cs) u := by
  rw [items_cons]
  simp

theorem items_list {cs : List Char} (hnul : NUL ∉ cs) {u : Use}
    : Items ('@' :: cs) u ↔ u = .list ⟨cs, hnul⟩ := by
  rw [items_cons]
  constructor
  . rintro (⟨h, _⟩ | ⟨_, name, hname, rfl⟩ | ⟨h, _⟩)
    . simp at h
    . rw [Use.list.injEq]
      exact Text.ext_chars hname
    . simp at h
  . rintro rfl
    exact .inr (.inl ⟨rfl, _, rfl, rfl⟩)

theorem items_letter {c : Char} (hc : c = 'S' ∨ c = 'D') {cs : List Char} {u : Use}
    : Items (c :: cs) u ↔ (cs = [] ∧ u = .nothing) ∨ Later cs u := by
  rw [items_cons]
  cases hc with
  | inl hc => simp [hc]
  | inr hc => simp [hc]

/--
What `optionLoop` is to read: with the `/` behind it, or with one that may come.
-/
def Rest (passed : Bool) (cs : List Char) (u : Use) : Prop :=
  if passed then Items cs u else Later cs u

theorem rest_cons {passed : Bool} {c : Char} {cs : List Char} {u : Use}
    (hc : ¬(c = '/' ∧ ¬passed)) : Rest passed (c :: cs) u ↔ Items (c :: cs) u := by
  cases passed with
  | true => rfl
  | false =>
    simp only [Bool.false_eq_true, not_false_eq_true, and_true] at hc
    simp [Rest, Later, hc]

theorem rest_slash {cs : List Char} {u : Use} : Rest false ('/' :: cs) u ↔ Items cs u := by
  simp [Rest, Later, not_items_slash]

theorem not_rest_nil (passed : Bool) (u : Use) : ¬Rest passed [] u := by
  cases passed <;> simp [Rest, Later, not_items_nil]

theorem ne_nul_of_not_mem {c : Char} {cs : List Char} (h : NUL ∉ c :: cs) : c ≠ NUL :=
  fun heq => h (heq ▸ List.mem_cons_self)

theorem deref_nul : Buffer.deref [NUL] = .ok NUL := rfl

theorem deref_cons (c : Char) (cs : Buffer) : Buffer.deref (c :: cs) = .ok c := rfl

theorem retcode_setOption (c : Char) (s : State φ) : (setOption c s).retcode = s.retcode := by
  unfold setOption
  split <;> rfl

theorem not_rest_other {passed : Bool} {c : Char} {cs : List Char} (hslash : ¬(c = '/' ∧ ¬passed))
    (hhelp : c ≠ '?') (hlist : c ≠ '@') (hletter : c ≠ 'S' ∧ c ≠ 'D') (u : Use)
    : ¬Rest passed (c :: cs) u := by
  rw [rest_cons hslash, items_cons]
  rintro (⟨h, _⟩ | ⟨h, _⟩ | ⟨h, _⟩)
  . exact hhelp h
  . exact hlist h
  . exact h.elim hletter.1 hletter.2

theorem right_letter {passed : Bool} {c : Char} {cs : List Char} (hslash : ¬(c = '/' ∧ ¬passed))
    (hletter : c = 'S' ∨ c = 'D') (hnul : NUL ∉ cs) {s : State φ} (hs : s.retcode = EXIT_OK)
    (hloop : Right (Rest false cs) (optionLoop false (cs ++ [NUL]) s))
    : Right (Rest passed (c :: cs)) (do
        let next ← Buffer.deref (cs ++ [NUL])
        if next ≠ NUL then
          optionLoop false (cs ++ [NUL]) s
        else
          return .rest (cs ++ [NUL]) s) := by
  cases cs with
  | nil =>
    apply right_rest hs (u := .nothing) rfl (by simp)
    intro u
    rw [rest_cons hslash, items_letter hletter]
    simp [Later, not_items_nil]
  | cons d ds =>
    simp only [List.cons_append, deref_cons, bind, Except.bind, ne_eq, ne_nul_of_not_mem hnul,
      not_false_eq_true, if_true]
    apply hloop.congr
    intro u
    rw [rest_cons hslash, items_letter hletter]
    simp [Rest]

theorem right_optionLoop {cs : List Char} (hnul : NUL ∉ cs)
    : ∀ (passed : Bool) {s : State φ}, s.retcode = EXIT_OK →
        Right (Rest passed cs) (optionLoop passed (cs ++ [NUL]) s) := by
  induction cs with
  | nil =>
    intro passed s hs
    -- the NUL is neither of the letters
    have hloop : optionLoop passed ([] ++ [NUL]) s = sayerror ([] ++ [NUL]) "invalid option" s := by
      simp [optionLoop, NUL]
    rw [hloop]
    exact right_sayerror hs [] _ (not_rest_nil passed)
  | cons c cs ih =>
    intro passed s hs
    have hnul' := mt (List.mem_cons_of_mem c) hnul
    rw [List.cons_append, optionLoop]
    split_ifs with hslash hhelp hlist hoption
    . -- one `/` is passed over
      have hstart := hslash
      rw [hslash.1]
      cases passed with
      | true => simp at hstart
      | false =>
        apply (ih hnul' true hs).congr
        intro u
        exact rest_slash
    . subst hhelp
      refine ⟨some .help, _, rfl, .help hs, ?_⟩
      intro u
      rw [rest_cons hslash, items_cons]
      simp [eq_comm]
    . subst hlist
      apply right_rest hs (u := .list ⟨cs, hnul'⟩) rfl (by simp)
      intro u
      rw [rest_cons hslash, items_list hnul']
    . exact right_sayerror hs (c :: cs) _ (not_rest_other hslash hhelp hlist hoption)
    . have hletter : c = 'S' ∨ c = 'D' := by
        by_contra hno
        rw [not_or] at hno
        exact hoption hno
      have hs' : (setOption c s).retcode = EXIT_OK := (retcode_setOption c s).trans hs
      exact right_letter hslash hletter hnul' hs' (ih hnul' false hs')

/-! The attribute part. -/

theorem reads_nil {u : Use} : Reads [] u ↔ u = .nothing := by
  constructor
  . intro h
    cases h
    rfl
  . rintro rfl
    exact .empty

theorem reads_cons {c : Char} {cs : List Char} {u : Use}
    : Reads (c :: cs) u ↔
        (¬Sign c ∧ c ≠ '/' ∧ ∃ t : Text, t.chars = c :: cs ∧ u = .target t)
        ∨ (Sign c ∧ Letters cs ∧ u = .nothing)
        ∨ (Sign c ∧ ∃ ls os, cs = ls ++ '/' :: os ∧ Letters ls ∧ Items os u)
        ∨ (c = '/' ∧ Items cs u) := by
  constructor
  . intro h
    cases h with
    | target t ht hsign hslash => exact .inl ⟨hsign, hslash, t, ht, rfl⟩
    | attributes hc hcs => exact .inr (.inl ⟨hc, hcs, rfl⟩)
    | both hc hcs hos => exact .inr (.inr (.inl ⟨hc, _, _, rfl, hcs, hos⟩))
    | options hos => exact .inr (.inr (.inr ⟨rfl, hos⟩))
  . rintro (⟨hsign, hslash, t, ht, rfl⟩ | ⟨hc, hcs, rfl⟩ | ⟨hc, ls, os, rfl, hls, hos⟩ | ⟨rfl, hos⟩)
    . exact .target t ht hsign hslash
    . exact .attributes hc hcs
    . exact .both hc hls hos
    . exact .options hos

theorem reads_slash {cs : List Char} {u : Use} : Reads ('/' :: cs) u ↔ Items cs u := by
  rw [reads_cons]
  simp [Sign]

theorem reads_target {c : Char} {cs : List Char} (hsign : ¬Sign c) (hslash : c ≠ '/')
    (hnul : NUL ∉ c :: cs) {u : Use} : Reads (c :: cs) u ↔ u = .target ⟨c :: cs, hnul⟩ := by
  rw [reads_cons]
  constructor
  . rintro (⟨_, _, t, ht, rfl⟩ | ⟨h, _⟩ | ⟨h, _⟩ | ⟨h, _⟩)
    . rw [Use.target.injEq]
      exact Text.ext_chars ht
    . exact absurd h hsign
    . exact absurd h hsign
    . exact absurd h hslash
  . rintro rfl
    exact .inl ⟨hsign, hslash, _, rfl, rfl⟩

theorem ne_slash_of_letter {c : Char} (hc : c ∈ ['H', 'S', 'R', 'A']) : c ≠ '/' := by
  rintro rfl
  simp at hc

theorem head_dropWhile {cs : List Char} {d : Char}
    (h : (cs.dropWhile (· ≠ '/')).head? = some d) : d = '/' := by
  have hnot := List.head?_dropWhile_not (fun d => decide (d ≠ '/')) cs
  rw [h] at hnot
  simpa using hnot

/--
The letters end at the first `/`.
-/
theorem reads_sign {c : Char} (hc : Sign c) {cs : List Char} {u : Use}
    : Reads (c :: cs) u ↔
        Letters (cs.takeWhile (· ≠ '/')) ∧ Reads (cs.dropWhile (· ≠ '/')) u := by
  have hne : ∀ ls, Letters ls → ∀ d ∈ ls, decide (d ≠ '/') = true := by
    intro ls hls d hd
    rw [decide_eq_true_eq]
    exact ne_slash_of_letter (hls.2 d hd)
  have hslash : c ≠ '/' := by
    rintro rfl
    simp [Sign] at hc
  rw [reads_cons]
  constructor
  . rintro (⟨h, _⟩ | ⟨_, hcs, rfl⟩ | ⟨_, ls, os, rfl, hls, hos⟩ | ⟨h, _⟩)
    . exact absurd hc h
    . rw [List.takeWhile_eq_self_iff.mpr (hne cs hcs), List.dropWhile_eq_nil_iff.mpr (hne cs hcs)]
      exact ⟨hcs, .empty⟩
    . rw [List.takeWhile_append_of_pos (hne ls hls), List.dropWhile_append_of_pos (hne ls hls)]
      simp only [ne_eq, not_true_eq_false, decide_false, Bool.false_eq_true, not_false_eq_true,
        List.takeWhile_cons_of_neg, List.append_nil, List.dropWhile_cons_of_neg]
      exact ⟨hls, .options hos⟩
    . exact absurd h hslash
  . rintro ⟨hls, hrest⟩
    have happend := List.takeWhile_append_dropWhile (p := fun d => decide (d ≠ '/')) (l := cs)
    cases hdrop : cs.dropWhile (· ≠ '/') with
    | nil =>
      rw [hdrop, List.append_nil] at happend
      rw [hdrop, reads_nil] at hrest
      rw [happend] at hls
      exact .inr (.inl ⟨hc, hls, hrest⟩)
    | cons d ds =>
      have hd : d = '/' := head_dropWhile (congrArg List.head? hdrop)
      subst hd
      rw [hdrop] at happend
      rw [hdrop, reads_slash] at hrest
      exact .inr (.inr (.inl ⟨hc, _, ds, happend.symm, hls, hrest⟩))

theorem letterMask_eq_zero {c : Char} : letterMask c = 0 ↔ c ∉ ['H', 'S', 'R', 'A'] := by
  unfold letterMask
  split_ifs <;> simp_all [_A_ARCH, _A_RDONLY, _A_SYSTEM, _A_HIDDEN]

theorem letters_cons {c : Char} {cs : List Char} (hc : c ∈ ['H', 'S', 'R', 'A'])
    : Letters (c :: cs) ↔ cs = [] ∨ Letters cs := by
  unfold Letters
  rw [List.forall_mem_cons]
  by_cases hcs : cs = []
  . simp [hcs, hc]
  . simp [hcs, hc]

/--
The loop goes to the first `/` or reports what is not a letter.
-/
inductive Stops (cs : List Char) : Parsed φ → Prop where
  | rest {s : State φ} (hls : Letters (cs.takeWhile (· ≠ '/'))) (hs : s.retcode = EXIT_OK)
    : Stops cs (.rest (cs.dropWhile (· ≠ '/') ++ [NUL]) s)
  | refused {s : State φ} (hls : ¬Letters (cs.takeWhile (· ≠ '/'))) (hs : s.retcode = E_OPTION)
    : Stops cs (.returned s)

theorem stops_sayerror {s : State φ} (hs : s.retcode = EXIT_OK) (cs : List Char)
    (hls : ¬Letters (cs.takeWhile (· ≠ '/'))) (err : String)
    : ∃ r, sayerror (cs ++ [NUL]) err s = .ok r ∧ Stops cs r := by
  obtain ⟨s', heq, hs'⟩ := sayerror_eq hs cs err
  exact ⟨.returned s', heq, .refused hls hs'⟩

theorem stops_last {c : Char} (hc : c ∈ ['H', 'S', 'R', 'A']) {cs : List Char}
    (htake : cs.takeWhile (· ≠ '/') = []) {s : State φ} (hs : s.retcode = EXIT_OK)
    : Stops (c :: cs) (.rest (cs ++ [NUL]) s) := by
  have hslash := ne_slash_of_letter hc
  have hdrop : (c :: cs).dropWhile (· ≠ '/') = cs := by
    have happend := List.takeWhile_append_dropWhile (p := fun d => decide (d ≠ '/')) (l := cs)
    rw [htake, List.nil_append] at happend
    rw [List.dropWhile_cons_of_pos (by simp [hslash]), happend]
  have hls : Letters ((c :: cs).takeWhile (· ≠ '/')) := by
    rw [List.takeWhile_cons_of_pos (by simp [hslash]), htake]
    exact (letters_cons hc).mpr (.inl rfl)
  have h := Stops.rest hls hs
  rw [hdrop] at h
  exact h

theorem stops_cons {c : Char} {cs : List Char} (hc : c ∈ ['H', 'S', 'R', 'A'])
    (hcs : cs.takeWhile (· ≠ '/') ≠ []) {r : Parsed φ} (h : Stops cs r) : Stops (c :: cs) r := by
  have hslash := ne_slash_of_letter hc
  have hiff : Letters ((c :: cs).takeWhile (· ≠ '/')) ↔ Letters (cs.takeWhile (· ≠ '/')) := by
    rw [List.takeWhile_cons_of_pos (by simp [hslash]), letters_cons hc]
    exact or_iff_right hcs
  have hdrop : (c :: cs).dropWhile (· ≠ '/') = cs.dropWhile (· ≠ '/') :=
    List.dropWhile_cons_of_pos (by simp [hslash])
  cases h with
  | rest hls hs =>
    rw [← hdrop]
    exact .rest (hiff.mpr hls) hs
  | refused hls hs => exact .refused (mt hiff.mp hls) hs

theorem retcode_addMask (ch0 : Char) (mask : ATTR) (s : State φ)
    : (addMask ch0 mask s).retcode = s.retcode := rfl

theorem stops_attributeLoop (ch0 : Char) {cs : List Char} (hnul : NUL ∉ cs)
    : ∀ {s : State φ}, s.retcode = EXIT_OK →
        ∃ r, attributeLoop ch0 (cs ++ [NUL]) s = .ok r ∧ Stops cs r := by
  induction cs with
  | nil =>
    intro s hs
    have hloop : attributeLoop ch0 ([] ++ [NUL]) s
        = sayerror ([] ++ [NUL]) "invalid attribute" s := by
      rw [List.nil_append, attributeLoop, if_pos (letterMask_eq_zero.mpr (by simp [NUL]))]
    rw [hloop]
    exact stops_sayerror hs [] (by simp [Letters]) _
  | cons c cs ih =>
    intro s hs
    have hnul' := mt (List.mem_cons_of_mem c) hnul
    rw [List.cons_append, attributeLoop]
    by_cases hc : c ∈ ['H', 'S', 'R', 'A']
    . rw [if_neg (mt letterMask_eq_zero.mp (not_not_intro hc))]
      have hs' := (retcode_addMask ch0 (letterMask c) s).trans hs
      cases cs with
      | nil => exact ⟨_, rfl, stops_last hc rfl hs'⟩
      | cons d ds =>
        simp only [List.cons_append, deref_cons, bind, Except.bind, ne_eq,
          ne_nul_of_not_mem hnul', not_false_eq_true, true_and]
        by_cases hnext : d = '/'
        . simp only [hnext, not_true_eq_false, if_false]
          exact ⟨_, rfl, stops_last hc rfl hs'⟩
        . simp only [hnext, not_false_eq_true, if_true]
          obtain ⟨r, heq, hr⟩ := ih hnul' hs'
          refine ⟨r, heq, stops_cons hc ?_ hr⟩
          simp [hnext]
    . rw [if_pos (letterMask_eq_zero.mpr hc)]
      apply stops_sayerror hs (c :: cs)
      intro hls
      by_cases hslash : c = '/'
      . simp [hslash, Letters] at hls
      . rw [List.takeWhile_cons_of_pos (by simp [hslash])] at hls
        exact hc (hls.2 c List.mem_cons_self)

/-! An argument. -/

theorem right_optionPart {cs : List Char} (hnul : NUL ∉ cs)
    (hsign : ∀ c, cs.head? = some c → ¬Sign c) {s : State φ} (hs : s.retcode = EXIT_OK)
    : Right (Reads cs) (optionPart (cs ++ [NUL]) s) := by
  unfold optionPart
  cases cs with
  | nil =>
    apply right_rest hs (u := .nothing) rfl (by simp)
    intro u
    exact reads_nil
  | cons c cs =>
    simp only [List.cons_append, deref_cons, bind, Except.bind]
    split_ifs with hc
    . subst hc
      apply (right_optionLoop hnul false hs).congr
      intro u
      rw [reads_slash, rest_slash]
    . apply right_rest hs (u := .target ⟨c :: cs, hnul⟩) rfl (by simp)
      intro u
      exact reads_target (hsign c rfl) hc hnul

theorem commaPart_eq (cs : List Char) {s : State φ} (hs : s.retcode = EXIT_OK)
    : ∃ s', commaPart (cs ++ [NUL]) s = .ok (withoutComma cs ++ [NUL], s')
        ∧ s'.retcode = EXIT_OK := by
  cases cs with
  | nil => exact ⟨s, rfl, hs⟩
  | cons c cs =>
    by_cases hc : c = ','
    . subst hc
      exact ⟨{ s with iscomma := 1 }, rfl, hs⟩
    . refine ⟨s, ?_, hs⟩
      simp [commaPart, deref_cons, withoutComma, hc, bind, Except.bind, pure, Except.pure]

theorem right_parts {cs : List Char} (hnul : NUL ∉ cs) {s : State φ} (hs : s.retcode = EXIT_OK)
    : Right (Reads cs) (do
        match ← attributePart (cs ++ [NUL]) s with
        | .returned s => return .returned s
        | .rest arg s => optionPart arg s) := by
  by_cases hsign : ∃ c ds, cs = c :: ds ∧ Sign c
  . obtain ⟨c, ds, rfl, hc⟩ := hsign
    obtain ⟨r, heq, hr⟩ := stops_attributeLoop c (mt (List.mem_cons_of_mem c) hnul) hs
    have hpart : attributePart (c :: ds ++ [NUL]) s = .ok r := by
      simp only [attributePart, List.cons_append, deref_cons, bind, Except.bind, List.tail_cons]
      exact (if_pos hc).trans heq
    simp only [hpart, bind, Except.bind]
    cases hr with
    | rest hls hs' =>
      have hnul' : NUL ∉ ds.dropWhile (· ≠ '/') := by
        intro h
        exact hnul (List.mem_cons_of_mem c ((List.dropWhile_sublist _).subset h))
      have hslash : ∀ d, (ds.dropWhile (· ≠ '/')).head? = some d → ¬Sign d := by
        intro d hd
        simp [head_dropWhile hd, Sign]
      apply (right_optionPart hnul' hslash hs').congr
      intro u
      rw [reads_sign hc]
      exact and_iff_right hls
    | refused hls hs' =>
      apply right_refused hs'
      intro u
      rw [reads_sign hc]
      exact fun h => hls h.1
  . have hnot : ∀ c, cs.head? = some c → ¬Sign c := by
      intro c hc hs
      rw [List.head?_eq_some_iff] at hc
      obtain ⟨ds, hds⟩ := hc
      exact hsign ⟨c, ds, hds, hs⟩
    have hpart : attributePart (cs ++ [NUL]) s = .ok (.rest (cs ++ [NUL]) s) := by
      cases cs with
      | nil => rfl
      | cons c ds =>
        simp only [attributePart, List.cons_append, deref_cons, bind, Except.bind]
        exact if_neg (hnot c rfl)
    simp only [hpart, bind, Except.bind]
    exact right_optionPart hnul hnot hs

theorem withoutComma_noNul {cs : List Char} (hnul : NUL ∉ cs) : NUL ∉ withoutComma cs := by
  unfold withoutComma
  split
  . exact mt List.mem_of_mem_tail hnul
  . exact hnul

theorem right_parseArg {cs : List Char} (hnul : NUL ∉ cs) {s : State φ}
    (hs : s.retcode = EXIT_OK)
    : Right (Reads (withoutComma cs)) (parseArg (cs ++ [NUL]) s) := by
  obtain ⟨s', heq, hs'⟩ := commaPart_eq cs hs
  unfold parseArg
  simp only [heq, bind, Except.bind]
  exact right_parts (withoutComma_noNul hnul) hs'

/-! Upper case. -/

/--
Only letters become letters.
-/
theorem toupper_eq_iff {c d : Char} (hd : d.val.toNat < 65) : toupper c = d ↔ c = d := by
  unfold toupper Char.toUpper
  split_ifs with hlower
  . have hle := UInt32.le_iff_toNat_le.mp hlower.1
    have hge := UInt32.le_iff_toNat_le.mp hlower.2
    have hshift : ('A'.val - 'a'.val).toNat = 2 ^ 32 - 32 := by decide
    have hfirst : 'a'.val.toNat = 97 := by decide
    have hlast : 'z'.val.toNat = 122 := by decide
    constructor
    . intro h
      have heq := congrArg (fun c => c.val.toNat) h
      dsimp only at heq
      rw [UInt32.toNat_add, hshift] at heq
      omega
    . rintro rfl
      omega
  . exact Iff.rfl

theorem toupper_ne_nul {c : Char} (hc : c ≠ NUL) : toupper c ≠ NUL :=
  mt (toupper_eq_iff (by decide)).mp hc

def upper (t : Text) : Text where
  chars := t.chars.map toupper
  noNul := by
    intro h
    rw [List.mem_map] at h
    obtain ⟨c, hc, heq⟩ := h
    exact toupper_ne_nul (fun hnul => t.noNul (hnul ▸ hc)) heq

theorem strupr_append (t : Text) (cs : List Char)
    : strupr (t.chars ++ NUL :: cs) = (upper t).chars ++ NUL :: cs := by
  have hne : ∀ c ∈ t.chars, decide (c ≠ NUL) = true := by
    intro c hc
    rw [decide_eq_true_eq]
    exact fun hnul => t.noNul (hnul ▸ hc)
  unfold strupr
  rw [List.takeWhile_append_of_pos hne, List.dropWhile_append_of_pos hne]
  simp [upper]

theorem strupr_array (t : Text) : strupr t.array = (upper t).array :=
  strupr_append t []

/-! The array of pointers. -/

namespace Arguments

theorem text_setArray_of_ne {m : Arguments} {arg arg' : Pointer} (h : arg'.array ≠ arg.array)
    (buf : Buffer) : (m.setArray arg buf).text arg' = m.text arg' := by
  unfold text array setArray
  rw [List.getElem?_set_ne (Ne.symm h)]

theorem text_setArray (m : Arguments) (arg : Pointer) (hlt : arg.array < m.arrays.length)
    (before : Buffer) (t : Text)
    : (m.setArray arg (before ++ t.array)).text ⟨arg.array, before.length⟩ = .ok t := by
  unfold text array setArray
  rw [List.getElem?_set_self hlt]
  simp only [bind, Except.bind, Buffer.read, List.drop_left]
  rw [if_pos (by simp [Text.array])]
  exact congrArg Except.ok (Text.ofChars_append t [])

theorem setSlot_eq {m : Arguments} {q : Nat} (hlt : q < m.argv.length) (arg : Pointer)
    : m.setSlot q arg = .ok { m with argv := m.argv.set q arg } := if_pos hlt

theorem slot_eq_ok {m : Arguments} {p : Nat} {arg : Pointer}
    : m.slot p = .ok arg ↔ m.argv[p]? = some arg := by
  unfold slot
  cases m.argv[p]? <;> simp

end Arguments

/--
After the argument with index `p`: what is still to be read is as it was, and the first slots hold
what has been kept.
-/
structure Kept (args : List Text) (p : Nat) (slots : List Text) (m : Arguments) : Prop where
  count : slots.length ≤ p
  length : m.argv.length = args.length
  arrays : m.arrays.length = args.length + 1
  argv : ∀ i, p < i → i < args.length → m.argv[i]? = some ⟨i, 0⟩
  come : ∀ i, p < i → m.arrays[i]? = (Arguments.ofTexts args).arrays[i]?
  holds : ∀ (j : Nat) (t : Text), slots[j]? = some t →
    ∃ arg, m.argv[j]? = some arg ∧ arg.array ≤ p ∧ m.text arg = .ok t

theorem kept_ofTexts (args : List Text) : Kept args 0 [] (.ofTexts args) where
  count := Nat.le_refl 0
  length := by simp [Arguments.ofTexts]
  arrays := by simp [Arguments.ofTexts]
  argv := by
    intro i _ hlt
    simp [Arguments.ofTexts, hlt]
  come := fun _ _ => rfl
  holds := by
    intro j t h
    simp at h

theorem Kept.setArray {args : List Text} {p : Nat} {slots : List Text} {m : Arguments}
    (h : Kept args p slots m) {arg : Pointer} (harg : arg.array = p + 1) (buf : Buffer)
    : Kept args (p + 1) slots (m.setArray arg buf) where
  count := Nat.le_succ_of_le h.count
  length := h.length
  arrays := by
    unfold Arguments.setArray
    rw [List.length_set, h.arrays]
  argv := fun i hi => h.argv i (by omega)
  come := by
    intro i hi
    unfold Arguments.setArray
    rw [List.getElem?_set_ne (by omega)]
    exact h.come i (by omega)
  holds := by
    intro j t hj
    obtain ⟨arg', hslot, hle, htext⟩ := h.holds j t hj
    refine ⟨arg', hslot, by omega, ?_⟩
    rw [Arguments.text_setArray_of_ne (by omega), htext]

theorem Kept.setSlot {args : List Text} {p : Nat} {slots : List Text} {m : Arguments}
    (h : Kept args p slots m) (hlt : slots.length < p) (arg : Pointer) (harg : arg.array ≤ p)
    {t : Text} (ht : m.text arg = .ok t) (hargv : slots.length < m.argv.length)
    : Kept args p (slots ++ [t]) { m with argv := m.argv.set slots.length arg } where
  count := by
    rw [List.length_append]
    exact hlt
  length := by
    rw [List.length_set]
    exact h.length
  arrays := h.arrays
  argv := by
    intro i hi
    rw [List.getElem?_set_ne (by omega)]
    exact h.argv i hi
  come := h.come
  holds := by
    intro j t' hj
    by_cases hlast : j = slots.length
    . subst hlast
      rw [List.getElem?_append_right (Nat.le_refl _)] at hj
      simp only [Nat.sub_self, List.getElem?_cons_zero, Option.some.injEq] at hj
      subst hj
      exact ⟨arg, List.getElem?_set_self hargv, harg, ht⟩
    . have hj' : j < slots.length := by
        have h := (List.getElem?_eq_some_iff.mp hj).1
        rw [List.length_append, List.length_singleton] at h
        omega
      rw [List.getElem?_append_left hj'] at hj
      obtain ⟨arg', hslot, hle, htext⟩ := h.holds j t' hj
      refine ⟨arg', ?_, hle, htext⟩
      rw [List.getElem?_set_ne (by omega)]
      exact hslot

/-! The loop over the arguments. -/

def kept (t : Text) : List Text := if t = .empty then [] else [t]

theorem Kept.keep {args : List Text} {p : Nat} {slots : List Text} {m : Arguments}
    (h : Kept args p slots m) (hlt : p + 1 < args.length) (arg : Pointer)
    (harg : arg.array = p + 1) (before : Buffer) (t : Text)
    : ∃ m', Attrib.keep t.array ⟨arg.array, before.length⟩ slots.length
            (m.setArray arg (before ++ t.array)) = .ok ((slots ++ kept t).length, m')
        ∧ Kept args (p + 1) (slots ++ kept t) m' := by
  have hset := h.setArray harg (before ++ t.array)
  have hcount := h.count
  cases ht : t.chars with
  | nil =>
    have hempty : t = .empty := Text.ext_chars ht
    subst hempty
    refine ⟨_, ?_, by simpa [kept] using hset⟩
    simp [Attrib.keep, Text.array, Text.empty, deref_nul, kept, bind, Except.bind, pure,
      Except.pure]
  | cons c cs =>
    have hne : t ≠ .empty := by
      rintro rfl
      simp [Text.empty] at ht
    have hc : c ≠ NUL := ne_nul_of_not_mem (ht ▸ t.noNul)
    have hargv : slots.length < (m.setArray arg (before ++ t.array)).argv.length := by
      rw [hset.length]
      omega
    have htext := Arguments.text_setArray m arg (by rw [h.arrays]; omega) before t
    have hslot := hset.setSlot (by omega) ⟨arg.array, before.length⟩ (by simp [harg])
      htext hargv
    have hkept : kept t = [t] := if_neg hne
    rw [hkept]
    refine ⟨_, ?_, hslot⟩
    simp only [Attrib.keep, Text.array, ht, List.cons_append, deref_cons, bind, Except.bind,
      ne_eq, hc, not_false_eq_true, if_true, List.length_append, List.length_singleton]
    rw [Arguments.setSlot_eq (by simpa [Text.array, ht] using hargv)]
    rfl

variable {args : List Text} {p : Nat} {slots : List Text} {m : Arguments} {arg : Text}

theorem Kept.reads (h : Kept args p slots m) (harg : args[p + 1]? = some arg)
    : m.slot (p + 1) = .ok ⟨p + 1, 0⟩ ∧ m.array ⟨p + 1, 0⟩ = .ok arg.array := by
  have hlt := (List.getElem?_eq_some_iff.mp harg).1
  constructor
  . exact Arguments.slot_eq_ok.mpr (h.argv (p + 1) (Nat.lt_succ_self p) hlt)
  . have hcome := h.come (p + 1) (Nat.lt_succ_self p)
    unfold Arguments.ofTexts at hcome
    rw [List.getElem?_append_left (by simpa using hlt), List.getElem?_map, harg] at hcome
    unfold Arguments.array
    rw [hcome]
    rfl

theorem parseLoop_returned (h : Kept args p slots m) (harg : args[p + 1]? = some arg)
    {s s' : State φ} (hparse : parseArg (upper arg).array s = .ok (.returned s')) (argc q : Nat)
    : parseLoop (argc + 1) p q m s = .ok (.returned s') := by
  obtain ⟨hslot, harray⟩ := h.reads harg
  rw [parseLoop]
  simp only [hslot, harray, bind, Except.bind, List.drop_zero, strupr_array, hparse]
  rfl

theorem parseLoop_rest (h : Kept args p slots m) (harg : args[p + 1]? = some arg)
    {s s' : State φ} {t : Text} (hparse : parseArg (upper arg).array s = .ok (.rest t.array s'))
    : ∃ m', Kept args (p + 1) (slots ++ kept t) m'
        ∧ ∀ argc, parseLoop (argc + 1) p slots.length m s
            = parseLoop argc (p + 1) (slots ++ kept t).length m' s' := by
  have hlt := (List.getElem?_eq_some_iff.mp harg).1
  obtain ⟨hslot, harray⟩ := h.reads harg
  let moved := (upper arg).array.length - t.array.length
  have hlength : ((upper arg).array.take moved).length = moved := by
    rw [List.length_take]
    exact Nat.min_eq_left (Nat.sub_le _ _)
  obtain ⟨m', hkeep, hkept⟩ := h.keep hlt ⟨p + 1, 0⟩ rfl ((upper arg).array.take moved) t
  rw [hlength] at hkeep
  refine ⟨m', hkept, ?_⟩
  intro argc
  rw [parseLoop]
  simp only [hslot, harray, bind, Except.bind, List.drop_zero, strupr_array, hparse,
    List.take_zero, List.nil_append, Nat.zero_add]
  simp only [hkeep, moved]

theorem right_uses (arg : Text) {s : State φ} (hs : s.retcode = EXIT_OK)
    : Right (Uses arg) (parseArg (upper arg).array s) :=
  right_parseArg (upper arg).noNul hs

theorem parseLoop_refused (h : Kept args p slots m) (harg : args[p + 1]? = some arg)
    {s : State φ} (hs : s.retcode = EXIT_OK) (hnot : ∀ u, ¬Uses arg u) (argc q : Nat)
    : ∃ s', s'.retcode = E_OPTION ∧ parseLoop (argc + 1) p q m s = .ok (.returned s') := by
  obtain ⟨o, r, hparse, hr, hiff⟩ := right_uses arg hs
  cases hr with
  | refused hs' => exact ⟨_, hs', parseLoop_returned h harg hparse argc q⟩
  | help _ => exact absurd ((hiff _).mpr rfl) (hnot _)
  | rest _ _ _ => exact absurd ((hiff _).mpr rfl) (hnot _)

theorem parseLoop_help (h : Kept args p slots m) (harg : args[p + 1]? = some arg)
    {s : State φ} (hs : s.retcode = EXIT_OK) (huse : Uses arg .help) (argc q : Nat)
    : ∃ s', s'.retcode = EXIT_OK ∧ parseLoop (argc + 1) p q m s = .ok (.returned s') := by
  obtain ⟨o, r, hparse, hr, hiff⟩ := right_uses arg hs
  rw [hiff] at huse
  cases hr with
  | refused _ => simp at huse
  | help hs' => exact ⟨_, hs', parseLoop_returned h harg hparse argc q⟩
  | rest _ hu _ => exact absurd (Option.some.inj huse) hu

/--
From `s` to `s'` the arguments have been parsed, one after the other.
-/
inductive Parses : State φ → List Text → State φ → Prop where
  | nil (s : State φ) : Parses s [] s
  | cons {s s' s'' : State φ} {arg : Text} {args : List Text} {rest : Buffer}
      (harg : parseArg (upper arg).array s = .ok (.rest rest s')) (hargs : Parses s' args s'')
    : Parses s (arg :: args) s''

theorem parseLoop_use (h : Kept args p slots m) (harg : args[p + 1]? = some arg)
    {s : State φ} (hs : s.retcode = EXIT_OK) {u : Use} (huse : Uses arg u) (hu : u ≠ .help)
    : ∃ m' s', Kept args (p + 1) (slots ++ kept u.text) m' ∧ s'.retcode = EXIT_OK
        ∧ parseArg (upper arg).array s = .ok (.rest u.text.array s')
        ∧ ∀ argc, parseLoop (argc + 1) p slots.length m s
            = parseLoop argc (p + 1) (slots ++ kept u.text).length m' s' := by
  obtain ⟨o, r, hparse, hr, hiff⟩ := right_uses arg hs
  rw [hiff] at huse
  cases hr with
  | refused _ => simp at huse
  | help _ => exact absurd (Option.some.inj huse).symm hu
  | rest hs' _ hrest =>
    cases huse
    subst hrest
    obtain ⟨m', hkept, heq⟩ := parseLoop_rest h harg hparse
    exact ⟨m', _, hkept, hs', hparse, heq⟩

def Read (args : List Text) (us : List Use) : Prop :=
  List.Forall₂ Uses args us ∧ .help ∉ us

def keptAll (us : List Use) : List Text := us.flatMap (fun u => kept u.text)

theorem parseLoop_append {before : List Text} {us : List Use} (hread : Read before us)
    : ∀ {p slots m} {s : State φ} (after : List Text), Kept args p slots m →
        args.drop (p + 1) = before ++ after → s.retcode = EXIT_OK →
        ∃ m' s', Kept args (p + before.length) (slots ++ keptAll us) m' ∧ s'.retcode = EXIT_OK
          ∧ Parses s before s'
          ∧ ∀ argc, parseLoop (before.length + argc) p slots.length m s
              = parseLoop argc (p + before.length) (slots ++ keptAll us).length m' s' := by
  obtain ⟨hread, hhelp⟩ := hread
  induction hread with
  | nil =>
    intro p slots m s after h _ hs
    refine ⟨m, s, by simpa [keptAll] using h, hs, .nil s, ?_⟩
    intro argc
    simp [keptAll]
  | @cons arg u before us huse _ ih =>
    intro p slots m s after h hdrop hs
    rw [List.mem_cons, not_or] at hhelp
    have harg : args[p + 1]? = some arg := by
      have h := congrArg List.head? hdrop
      rwa [List.head?_drop] at h
    obtain ⟨m₁, s₁, h₁, hs₁, hparse, heq₁⟩ := parseLoop_use h harg hs huse (Ne.symm hhelp.1)
    have hdrop₁ : args.drop (p + 1 + 1) = before ++ after := by
      rw [← List.tail_drop, hdrop]
      rfl
    obtain ⟨m', s', h', hs', hparses, heq'⟩ := ih hhelp.2 after h₁ hdrop₁ hs₁
    have hslots : slots ++ kept u.text ++ keptAll us = slots ++ keptAll (u :: us) := by
      unfold keptAll
      rw [List.flatMap_cons, List.append_assoc]
    have hp : p + 1 + before.length = p + (arg :: before).length := by
      rw [List.length_cons]
      omega
    rw [hslots, hp] at h' heq'
    refine ⟨m', s', h', hs', .cons hparse hparses, ?_⟩
    intro argc
    rw [← heq', ← heq₁]
    congr 1
    rw [List.length_cons]
    omega

/-! The last loop. -/

section

variable (process list : Text → State φ → Except Fault (State φ))

theorem performLoop_eq {m : Arguments} (t : Text) (ts : List Text)
    : ∀ (p : Nat) (s : State φ),
        (∀ (j : Nat) (t' : Text), (t :: ts)[j]? = some t' →
          ∃ arg, m.argv[p + j]? = some arg ∧ m.text arg = .ok t') →
        performLoop process list ts.length p m s
          = (t :: ts).foldlM (fun s t => perform process list t s) s := by
  induction ts generalizing t with
  | nil =>
    intro p s h
    obtain ⟨arg, hslot, htext⟩ := h 0 t rfl
    rw [Nat.add_zero] at hslot
    rw [List.length_nil, performLoop]
    simp only [Arguments.slot_eq_ok.mpr hslot, htext, bind, Except.bind, List.foldlM_cons,
      List.foldlM_nil]
  | cons t₁ ts ih =>
    intro p s h
    obtain ⟨arg, hslot, htext⟩ := h 0 t rfl
    rw [Nat.add_zero] at hslot
    rw [List.length_cons, performLoop]
    simp only [Arguments.slot_eq_ok.mpr hslot, htext, bind, Except.bind, List.foldlM_cons]
    cases perform process list t s with
    | error f => rfl
    | ok s =>
      apply ih t₁ (p + 1) s
      intro j t' hj
      have h' := h (j + 1) t' hj
      rwa [Nat.add_assoc, Nat.add_comm 1 j]

def carryOut (u : Use) (s : State φ) : Except Fault (State φ) :=
  match u with
  | .nothing | .help => .ok s
  | .target t => process t s
  | .list name => list name s

theorem not_items_target {cs : List Char} (t : Text) : ¬Items cs (.target t) := by
  generalize hu : Use.target t = u
  intro h
  induction h with
  | letter _ => cases hu
  | list _ => cases hu
  | help _ => cases hu
  | next _ _ ih => exact ih hu
  | slash _ _ ih => exact ih hu

theorem chars_of_reads_target {cs : List Char} {t : Text} (h : Reads cs (.target t))
    : ∃ c ds, t.chars = c :: ds ∧ c ≠ '/' := by
  cases h with
  | target _ ht _ hslash => exact ⟨_, _, ht, hslash⟩
  | both _ _ hos => exact absurd hos (not_items_target t)
  | options hos => exact absurd hos (not_items_target t)

theorem perform_slash (name : Text) (s : State φ)
    : perform process list (.ofString "/" ++ name) s = list name s := by
  have hslash : (Text.ofString "/").chars = ['/'] := by decide
  have htail : (Text.ofString "/" ++ name).tail = name := by
    apply Text.ext_chars
    simp [Text.tail, hslash]
  unfold perform
  rw [if_pos (by simp [hslash]), htail]

theorem perform_text {arg : Text} {u : Use} (huse : Uses arg u) (hu : u ≠ .help)
    (hne : u ≠ .nothing) (s : State φ)
    : perform process list u.text s = carryOut process list u s := by
  cases u with
  | nothing => exact absurd rfl hne
  | help => exact absurd rfl hu
  | list name => exact perform_slash process list name s
  | target t =>
    obtain ⟨c, ds, ht, hslash⟩ := chars_of_reads_target huse
    exact if_neg (by simpa [Use.text, ht] using hslash)

end

theorem kept_text {arg : Text} {u : Use} (huse : Uses arg u) (hu : u ≠ .help)
    : kept u.text = if u = .nothing then [] else [u.text] := by
  cases u with
  | nothing => rfl
  | help => exact absurd rfl hu
  | list name =>
    have hslash : (Text.ofString "/").chars = ['/'] := by decide
    have hne : Text.ofString "/" ++ name ≠ .empty := by
      intro h
      have h := congrArg Text.chars h
      simp [hslash, Text.empty] at h
    exact if_neg hne
  | target t =>
    obtain ⟨c, ds, ht, _⟩ := chars_of_reads_target huse
    have hne : t ≠ .empty := by
      rintro rfl
      simp [Text.empty] at ht
    exact if_neg hne

def asked (us : List Use) : List Use := us.filter (· ≠ .nothing)

/--
What `main` is to carry out.
-/
def targets (us : List Use) : List Use :=
  if asked us = [] then [.target (.ofString "*.*")] else asked us

theorem keptAll_cons {arg : Text} {u : Use} (huse : Uses arg u) (hu : u ≠ .help) (us : List Use)
    : keptAll (u :: us) = if u = .nothing then keptAll us else u.text :: keptAll us := by
  unfold keptAll
  rw [List.flatMap_cons, kept_text huse hu]
  split <;> rfl

theorem asked_cons (u : Use) (us : List Use)
    : asked (u :: us) = if u = .nothing then asked us else u :: asked us := by
  unfold asked
  rw [List.filter_cons]
  by_cases hu : u = .nothing <;> simp [hu]

theorem keptAll_eq_nil {args : List Text} {us : List Use} (h : Read args us)
    : keptAll us = [] ↔ asked us = [] := by
  obtain ⟨hread, hhelp⟩ := h
  induction hread with
  | nil => exact iff_of_true rfl rfl
  | @cons arg u args us huse _ ih =>
    rw [List.mem_cons, not_or] at hhelp
    rw [keptAll_cons huse (Ne.symm hhelp.1), asked_cons]
    split
    . exact ih hhelp.2
    . simp

theorem foldlM_keptAll (process list : Text → State φ → Except Fault (State φ))
    {args : List Text} {us : List Use} (h : Read args us) (s : State φ)
    : (keptAll us).foldlM (fun s t => perform process list t s) s
        = (asked us).foldlM (fun s u => carryOut process list u s) s := by
  obtain ⟨hread, hhelp⟩ := h
  induction hread generalizing s with
  | nil => rfl
  | @cons arg u args us huse _ ih =>
    rw [List.mem_cons, not_or] at hhelp
    rw [keptAll_cons huse (Ne.symm hhelp.1), asked_cons]
    split
    . exact ih s hhelp.2
    . rename_i hu
      rw [List.foldlM_cons, List.foldlM_cons,
        perform_text process list huse (Ne.symm hhelp.1) hu]
      congr 1
      funext s
      exact ih s hhelp.2

/-! `main`. -/

theorem Kept.mono {args : List Text} {p p' : Nat} {slots : List Text} {m : Arguments}
    (h : Kept args p slots m) (hle : p ≤ p') : Kept args p' slots m where
  count := h.count.trans hle
  length := h.length
  arrays := h.arrays
  argv := fun i hi => h.argv i (by omega)
  come := fun i hi => h.come i (by omega)
  holds := by
    intro j t hj
    obtain ⟨arg, hslot, harray, htext⟩ := h.holds j t hj
    exact ⟨arg, hslot, harray.trans hle, htext⟩

theorem Kept.literal {args : List Text} {p : Nat} {slots : List Text} {m : Arguments}
    (h : Kept args p slots m) (hlt : p < args.length)
    : ∃ m', m.setSlot slots.length m.literal = .ok m'
        ∧ Kept args args.length (slots ++ [.ofString "*.*"]) m' := by
  have hcount := h.count
  have htext : m.text m.literal = .ok (.ofString "*.*") := by
    have hcome := h.come args.length hlt
    unfold Arguments.ofTexts at hcome
    rw [List.getElem?_append_right (by simp), List.length_map, Nat.sub_self,
      List.getElem?_cons_zero] at hcome
    unfold Arguments.text Arguments.array Arguments.literal
    rw [h.arrays, Nat.add_sub_cancel, hcome]
    simp only [bind, Except.bind, Buffer.read, List.drop_zero]
    rw [if_pos (by simp [Text.array])]
    exact congrArg Except.ok (Text.ofChars_append _ [])
  have hargv : slots.length < m.argv.length := by
    rw [h.length]
    omega
  refine ⟨_, Arguments.setSlot_eq hargv m.literal, ?_⟩
  apply (h.mono hlt.le).setSlot (by omega) m.literal _ htext hargv
  unfold Arguments.literal
  rw [h.arrays, Nat.add_sub_cancel]

theorem performLoop_kept (process list : Text → State φ → Except Fault (State φ))
    {args : List Text} {p : Nat} {slots : List Text} {m : Arguments}
    (h : Kept args p (slots ++ [.ofString "*.*"]) m) (s : State φ)
    : performLoop process list (slots.length - 1) 0 m s
        = (if slots = [] then [.ofString "*.*"] else slots).foldlM
            (fun s t => perform process list t s) s := by
  have hholds : ∀ (j : Nat) (t : Text), (slots ++ [.ofString "*.*"])[j]? = some t →
      ∃ arg, m.argv[0 + j]? = some arg ∧ m.text arg = .ok t := by
    intro j t hj
    obtain ⟨arg, hslot, _, htext⟩ := h.holds j t hj
    rw [Nat.zero_add]
    exact ⟨arg, hslot, htext⟩
  cases slots with
  | nil => exact performLoop_eq process list _ [] 0 s hholds
  | cons t ts =>
    apply performLoop_eq process list t ts 0 s
    intro j t' hj
    apply hholds
    rw [List.getElem?_append_left (List.getElem?_eq_some_iff.mp hj).1]
    exact hj

/--
The parser reports the argument.
-/
def Refuses (arg : Text) (s : State φ) : Prop :=
  ∃ s', parseArg (strupr arg.array) s = .ok (.returned s') ∧ s'.retcode = E_OPTION

theorem refuses_iff (arg : Text) {s : State φ} (hs : s.retcode = EXIT_OK)
    : Refuses arg s ↔ ∀ u, ¬Uses arg u := by
  obtain ⟨o, r, hparse, hr, hiff⟩ := right_uses arg hs
  unfold Refuses
  rw [strupr_array, hparse]
  simp only [hiff, Except.ok.injEq]
  cases hr with
  | refused hs' => simpa using hs'
  | help hs' => simp [hs', EXIT_OK, E_OPTION]
  | rest _ _ _ => simp

theorem main_returned (process list : Text → State φ → Except Fault (State φ)) {name : Text}
    {args : List Text} {s s' : State φ}
    (h : parseLoop args.length 0 0 (.ofTexts (name :: args)) s = .ok (.returned s'))
    : main process list (name :: args) s = .ok (s'.retcode, s') := by
  unfold main
  rw [List.length_cons, Nat.add_sub_cancel, h]
  rfl

theorem parseLoop_before {before after : List Text} {arg : Text} {us : List Use}
    (hread : Read before us) (name : Text) {s : State φ} (hs : s.retcode = EXIT_OK)
    : ∃ m' s', Kept (name :: (before ++ arg :: after)) before.length (keptAll us) m'
        ∧ s'.retcode = EXIT_OK
        ∧ (name :: (before ++ arg :: after))[before.length + 1]? = some arg
        ∧ parseLoop (before ++ arg :: after).length 0 0
              (.ofTexts (name :: (before ++ arg :: after))) s
            = parseLoop (after.length + 1) before.length (keptAll us).length m' s' := by
  obtain ⟨m', s', h', hs', -, heq⟩ := parseLoop_append hread (arg :: after)
    (kept_ofTexts (name :: (before ++ arg :: after))) rfl hs
  rw [Nat.zero_add, List.nil_append] at h' heq
  refine ⟨m', s', h', hs', ?_, ?_⟩
  . rw [List.getElem?_cons_succ, List.getElem?_append_right (Nat.le_refl _), Nat.sub_self]
    rfl
  . rw [← heq, List.length_append, List.length_cons, List.length_nil]

theorem main_refused {before after : List Text} {arg : Text} {us : List Use}
    (hread : Read before us) (hnot : ∀ u, ¬Uses arg u) (name : Text) {s : State φ}
    (hs : s.retcode = EXIT_OK)
    : ∃ s', ∀ process list,
        main process list (name :: (before ++ arg :: after)) s = .ok (E_OPTION, s') := by
  obtain ⟨m₁, s₁, h₁, hs₁, harg, heq⟩ := parseLoop_before hread name hs
  obtain ⟨s', hs', hreturned⟩ :=
    parseLoop_refused h₁ harg hs₁ hnot after.length (keptAll us).length
  refine ⟨s', ?_⟩
  intro process list
  rw [← hs']
  exact main_returned process list (heq.trans hreturned)

theorem main_help {before after : List Text} {arg : Text} {us : List Use}
    (hread : Read before us) (huse : Uses arg .help) (name : Text) {s : State φ}
    (hs : s.retcode = EXIT_OK)
    : ∃ s', ∀ process list,
        main process list (name :: (before ++ arg :: after)) s = .ok (EXIT_OK, s') := by
  obtain ⟨m₁, s₁, h₁, hs₁, harg, heq⟩ := parseLoop_before hread name hs
  obtain ⟨s', hs', hreturned⟩ :=
    parseLoop_help h₁ harg hs₁ huse after.length (keptAll us).length
  refine ⟨s', ?_⟩
  intro process list
  rw [← hs']
  exact main_returned process list (heq.trans hreturned)

theorem foldlM_targets (process list : Text → State φ → Except Fault (State φ))
    {args : List Text} {us : List Use} (h : Read args us) (s : State φ)
    : (if keptAll us = [] then [.ofString "*.*"] else keptAll us).foldlM
          (fun s t => perform process list t s) s
        = (targets us).foldlM (fun s u => carryOut process list u s) s := by
  unfold targets
  by_cases hnil : asked us = []
  . rw [if_pos ((keptAll_eq_nil h).mpr hnil), if_pos hnil]
    rfl
  . rw [if_neg (mt (keptAll_eq_nil h).mp hnil), if_neg hnil]
    exact foldlM_keptAll process list h s

theorem main_read {args : List Text} {us : List Use} (hread : Read args us) (name : Text)
    {s : State φ} (hs : s.retcode = EXIT_OK)
    : ∃ s', Parses s args s' ∧ ∀ process list,
        main process list (name :: args) s = do
          let s ← (targets us).foldlM (fun s u => carryOut process list u s) (adjust s')
          return (s.retcode, s) := by
  have hdrop : (name :: args).drop (0 + 1) = args ++ [] := (List.append_nil args).symm
  obtain ⟨m₁, s₁, h₁, _, hparses, heq⟩ :=
    parseLoop_append hread [] (kept_ofTexts (name :: args)) hdrop hs
  rw [Nat.zero_add, List.nil_append] at h₁ heq
  obtain ⟨m₂, hset, h₂⟩ := h₁.literal (Nat.lt_succ_self args.length)
  have hparse : parseLoop args.length 0 0 (.ofTexts (name :: args)) s
      = .ok (.parsed (keptAll us).length m₁ s₁) := heq 0
  refine ⟨s₁, hparses, ?_⟩
  intro process list
  have hperform := performLoop_kept process list h₂ (adjust s₁)
  rw [foldlM_targets process list hread] at hperform
  unfold main
  rw [List.length_cons, Nat.add_sub_cancel, hparse]
  simp only [bind, Except.bind, hset, hperform]

theorem main_commandLine (name : Text) (args : List Text) (fi : φ)
    : (∀ (arg : Text) (s : State φ), s.retcode = EXIT_OK → (Refuses arg s ↔ ∀ u, ¬Uses arg u))
      ∧ (∀ before arg after us, args = before ++ arg :: after → Read before us →
          (∀ u, ¬Uses arg u) →
          ∃ s, ∀ process list,
            main process list (name :: args) { fi := fi } = .ok (E_OPTION, s))
      ∧ (∀ before arg after us, args = before ++ arg :: after → Read before us →
          Uses arg .help →
          ∃ s, ∀ process list,
            main process list (name :: args) { fi := fi } = .ok (EXIT_OK, s))
      ∧ (∀ us, Read args us →
          ∃ s, ∀ process list,
            main process list (name :: args) { fi := fi } = do
              let s ← (targets us).foldlM (fun s u => carryOut process list u s) s
              return (s.retcode, s)) := by
  refine ⟨?_, ?_, ?_, ?_⟩
  . intro arg s hs
    exact refuses_iff arg hs
  . rintro before arg after us rfl hread hnot
    exact main_refused hread hnot name rfl
  . rintro before arg after us rfl hread huse
    exact main_help hread huse name rfl
  . intro us hread
    obtain ⟨s, -, hmain⟩ := main_read (s := { fi := fi }) hread name rfl
    exact ⟨adjust s, hmain⟩

theorem uses_target : Uses (.ofString "f") (.target (.ofString "F")) := by
  have hchars : withoutComma ((Text.ofString "f").chars.map toupper) = ['F'] := by decide
  unfold Uses
  rw [hchars]
  exact .target _ (by decide) (by simp [Sign]) (by decide)

theorem uses_list : Uses (.ofString "+r/s/@x") (.list (.ofString "X")) := by
  have hchars : withoutComma ((Text.ofString "+r/s/@x").chars.map toupper)
      = '+' :: ['R'] ++ '/' :: 'S' :: '/' :: '@' :: (Text.ofString "X").chars := by decide
  unfold Uses
  rw [hchars]
  exact .both (.inl rfl) (by simp [Letters]) (.slash (.inl rfl) (.list _))

theorem uses_help : Uses (.ofString "/d?") .help := by
  have hchars : withoutComma ((Text.ofString "/d?").chars.map toupper)
      = '/' :: 'D' :: '?' :: [] := by decide
  unfold Uses
  rw [hchars]
  exact .options (.next (.inr rfl) (.help []))

theorem not_uses_slashes (u : Use) : ¬Uses (.ofString "//s") u := by
  have hchars : withoutComma ((Text.ofString "//s").chars.map toupper)
      = '/' :: '/' :: ['S'] := by decide
  unfold Uses
  rw [hchars, reads_slash]
  exact not_items_slash ['S'] u

theorem main_commandLine_mixed
    : (¬Refuses (.ofString "f") (φ := Unit) { fi := () })
      ∧ (∃ s, ∀ process list,
          main process list [.ofString "attrib", .ofString "f", .ofString "//s"] { fi := () }
            = .ok (E_OPTION, s))
      ∧ (∃ s, ∀ process list,
          main process list [.ofString "attrib", .ofString "f", .ofString "/d?"] { fi := () }
            = .ok (EXIT_OK, s))
      ∧ (∃ s, ∀ process list,
          main process list [.ofString "attrib", .ofString "f", .ofString "+r/s/@x"] { fi := () }
            = do
              let s ← process (.ofString "F") s
              let s ← list (.ofString "X") s
              return (s.retcode, s)) := by
  have hf : Read [.ofString "f"] [.target (.ofString "F")] :=
    ⟨.cons uses_target .nil, by simp⟩
  have hboth : Read [.ofString "f", .ofString "+r/s/@x"]
      [.target (.ofString "F"), .list (.ofString "X")] :=
    ⟨.cons uses_target (.cons uses_list .nil), by simp⟩
  refine ⟨?_, ?_, ?_, ?_⟩
  . intro h
    have hiff := (main_commandLine (.ofString "attrib") [] ()).1 (.ofString "f") { fi := () } rfl
    exact hiff.mp h _ uses_target
  . exact (main_commandLine (.ofString "attrib") [.ofString "f", .ofString "//s"] ()).2.1
      [.ofString "f"] _ [] _ rfl hf not_uses_slashes
  . exact (main_commandLine (.ofString "attrib") [.ofString "f", .ofString "/d?"] ()).2.2.1
      [.ofString "f"] _ [] _ rfl hf uses_help
  . obtain ⟨s, h⟩ := (main_commandLine (.ofString "attrib")
      [.ofString "f", .ofString "+r/s/@x"] ()).2.2.2 _ hboth
    refine ⟨s, ?_⟩
    intro process list
    rw [h process list]
    simp [targets, asked, carryOut]

end Attrib
end Dosix
