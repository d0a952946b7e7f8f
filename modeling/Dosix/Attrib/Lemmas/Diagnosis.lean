import Dosix.Attrib.Lemmas.Switches
import Dosix.ViablePrefix.Basic

/-!
This module contains what `main` of `attrib.c` says about an argument that it does not accept: it
prints the rest of the argument from the first character on that no accepted argument has there.
-/

namespace Dosix
namespace Attrib

open ViablePrefix

variable {φ : Type}

/--
The arguments in upper case that are accepted.
-/
def Accepted (cs : List Char) : Prop :=
  ∃ u, Reads (withoutComma cs) u

/--
The message about an argument that is in order so far.
-/
def complaint (before : List Char) : String :=
  if '/' ∈ before then "invalid option" else "invalid attribute"

/--
The last thing that has been printed is the error where the argument leaves the language, and what is
in order before that is so.
-/
def Diagnoses (L q : List Char → Prop) (cs : List Char) (err : String) (s s' : State φ) : Prop :=
  ∃ before, ∃ rest : Text, cs = before ++ rest.chars ∧ ErrorAt L before rest.chars ∧ q before
    ∧ s'.output = s.output ++ [.error err rest]

section

variable {L M q q' : List Char → Prop} {cs : List Char} {err : String} {s s' t : State φ}

theorem Diagnoses.of_output (h : Diagnoses L q cs err t s') (hst : t.output = s.output)
    : Diagnoses L q cs err s s' := by
  obtain ⟨before, rest, hcs, herror, hq, houtput⟩ := h
  exact ⟨before, rest, hcs, herror, hq, hst ▸ houtput⟩

theorem Diagnoses.prepend (h : Diagnoses M q cs err s s') (start : List Char)
    (hiff : ∀ xs, L (start ++ xs) ↔ M xs) (hq : ∀ before, q before → q' (start ++ before))
    : Diagnoses L q' (start ++ cs) err s s' := by
  obtain ⟨before, rest, rfl, herror, hbefore, houtput⟩ := h
  exact ⟨start ++ before, rest, (List.append_assoc ..).symm, herror.prepend start hiff,
    hq before hbefore, houtput⟩

theorem sayerror_diagnoses (hnul : NUL ∉ cs) (h : sayerror (cs ++ [NUL]) err s = .ok (.returned s'))
    (herror : ErrorAt L [] cs) (hq : q [])
    : Diagnoses L q cs err s s' := by
  have htext : Text.ofChars (cs ++ [NUL]) = ⟨cs, hnul⟩ := Text.ofChars_append ⟨cs, hnul⟩ []
  unfold sayerror Buffer.read at h
  rw [List.drop_zero, if_pos (by simp), htext] at h
  injection h with h
  injection h with h
  subst h
  exact ⟨[], ⟨cs, hnul⟩, rfl, herror, hq, rfl⟩

end

/-! The attribute part. -/

theorem takeWhile_letters {ls : List Char} (hls : ∀ c ∈ ls, c ∈ ['H', 'S', 'R', 'A'])
    (xs : List Char)
    : (ls ++ xs).takeWhile (· ≠ '/') = ls ++ xs.takeWhile (· ≠ '/') := by
  apply List.takeWhile_append_of_pos
  intro c hc
  rw [decide_eq_true_eq]
  exact ne_slash_of_letter (hls c hc)

theorem dropWhile_letters {ls : List Char} (hls : ∀ c ∈ ls, c ∈ ['H', 'S', 'R', 'A'])
    (xs : List Char)
    : (ls ++ xs).dropWhile (· ≠ '/') = xs.dropWhile (· ≠ '/') := by
  apply List.dropWhile_append_of_pos
  intro c hc
  rw [decide_eq_true_eq]
  exact ne_slash_of_letter (hls c hc)

/--
The language of what follows a sign and these letters.
-/
def AfterLetters (ch0 : Char) (ls cs : List Char) : Prop :=
  ∃ u, Reads (ch0 :: (ls ++ cs)) u

theorem not_viable_letter {ch0 c : Char} (hch0 : Sign ch0) {ls : List Char}
    (hls : ∀ c ∈ ls, c ∈ ['H', 'S', 'R', 'A']) (hslash : c = '/' → ls = [])
    (hc : c ∉ ['H', 'S', 'R', 'A'])
    : ¬ Viable (AfterLetters ch0 ls) [c] := by
  rintro ⟨more, u, hu⟩
  have hletters := ((reads_sign hch0).mp hu).1
  rw [takeWhile_letters hls, List.singleton_append] at hletters
  by_cases heq : c = '/'
  . rw [hslash heq, heq, List.takeWhile_cons_of_neg (by simp)] at hletters
    exact hletters.1 rfl
  . rw [List.takeWhile_cons_of_pos (by simpa using heq)] at hletters
    exact hc (hletters.2 c (by simp))

theorem errorAt_letters {ch0 : Char} (hch0 : Sign ch0) {ls cs : List Char}
    (hls : ∀ c ∈ ls, c ∈ ['H', 'S', 'R', 'A'])
    (hstops : ∀ c cs', cs = c :: cs' → c ∉ ['H', 'S', 'R', 'A'] ∧ (c = '/' → ls = []))
    (hends : cs = [] → ls = [])
    : ErrorAt (AfterLetters ch0 ls) [] cs where
  viable := by
    refine ⟨['H'], .nothing, .attributes hch0 ⟨by simp, ?_⟩⟩
    intro c hc
    rw [List.nil_append, List.mem_append, List.mem_singleton] at hc
    rcases hc with hc | rfl
    . exact hls c hc
    . simp
  stops := by
    intro c cs' hcs
    obtain ⟨hc, hslash⟩ := hstops c cs' hcs
    exact not_viable_letter hch0 hls hslash hc
  ends := by
    rintro hcs ⟨u, hu⟩
    rw [hends hcs] at hu
    exact ((reads_sign hch0).mp hu).1.1 rfl

theorem attributeLoop_diagnoses {ch0 : Char} (hch0 : Sign ch0) (ls : List Char) {cs : List Char}
    (hnul : NUL ∉ cs) (hls : ∀ c ∈ ls, c ∈ ['H', 'S', 'R', 'A'])
    (hnext : ls ≠ [] → ∃ c cs', cs = c :: cs' ∧ c ≠ '/') {s s' : State φ}
    (h : attributeLoop ch0 (cs ++ [NUL]) s = .ok (.returned s'))
    : Diagnoses (AfterLetters ch0 ls) ('/' ∉ ·) cs "invalid attribute" s s' := by
  induction cs generalizing ls s with
  | nil =>
    rw [List.nil_append, attributeLoop, if_pos (letterMask_eq_zero.mpr (by simp [NUL]))] at h
    refine sayerror_diagnoses hnul h (errorAt_letters hch0 hls (by simp) ?_) (by simp)
    intro _
    by_contra hne
    obtain ⟨c, cs', hcs, -⟩ := hnext hne
    cases hcs
  | cons c cs ih =>
    have hnul' := mt (List.mem_cons_of_mem c) hnul
    rw [List.cons_append, attributeLoop] at h
    dsimp only at h
    split at h
    . next hmask =>
      refine sayerror_diagnoses hnul h (errorAt_letters hch0 hls ?_ (by simp)) (by simp)
      intro c' cs' hcs
      obtain ⟨rfl, -⟩ := List.cons.inj hcs
      refine ⟨letterMask_eq_zero.mp hmask, ?_⟩
      intro hslash
      by_contra hne
      obtain ⟨d, ds, hd, hne'⟩ := hnext hne
      exact hne' ((List.cons.inj hd).1 ▸ hslash)
    . next hmask =>
      have hc : c ∈ ['H', 'S', 'R', 'A'] := by
        by_contra hc
        exact hmask (letterMask_eq_zero.mpr hc)
      cases cs with
      | nil => cases h
      | cons d ds =>
        simp only [List.cons_append, deref_cons, bind, Except.bind, ne_eq,
          ne_nul_of_not_mem hnul', not_false_eq_true, true_and] at h
        split at h
        . next hd =>
          have hls' : ∀ c' ∈ ls ++ [c], c' ∈ ['H', 'S', 'R', 'A'] := by
            intro c' hc'
            rw [List.mem_append, List.mem_singleton] at hc'
            rcases hc' with hc' | rfl
            . exact hls c' hc'
            . exact hc
          have hloop := ih (ls ++ [c]) hnul' hls' (fun _ => ⟨d, ds, rfl, hd⟩) h
          refine (hloop.prepend [c] ?_ ?_).of_output rfl
          . intro xs
            unfold AfterLetters
            rw [List.append_assoc]
          . intro before hbefore
            rw [List.singleton_append, List.mem_cons, not_or]
            exact ⟨(ne_slash_of_letter hc).symm, hbefore⟩
        . cases h

/-! The option part. -/

theorem viable_rest (passed : Bool) : Viable (fun cs => ∃ u, Rest passed cs u) [] := by
  have hitems : Items ['S'] .nothing := .letter (.inl rfl)
  refine ⟨['S'], .nothing, ?_⟩
  cases passed with
  | true => exact hitems
  | false => exact .inl hitems

theorem optionLoop_diagnoses {passed : Bool} {cs : List Char} (hnul : NUL ∉ cs) {s s' : State φ}
    (hs : s.retcode = EXIT_OK) (h : optionLoop passed (cs ++ [NUL]) s = .ok (.returned s'))
    (hs' : s'.retcode = E_OPTION)
    : Diagnoses (fun cs => ∃ u, Rest passed cs u) (fun _ => True) cs "invalid option" s s' := by
  induction cs generalizing passed s with
  | nil =>
    have hloop : optionLoop passed ([] ++ [NUL]) s = sayerror ([] ++ [NUL]) "invalid option" s := by
      cases passed <;> rfl
    refine sayerror_diagnoses hnul (hloop ▸ h) ⟨viable_rest passed, by simp, ?_⟩ trivial
    rintro - ⟨u, hu⟩
    exact not_rest_nil passed u hu
  | cons c cs ih =>
    have hnul' := mt (List.mem_cons_of_mem c) hnul
    rw [List.cons_append, optionLoop] at h
    split_ifs at h with hslash hhelp hlist hoption
    . obtain ⟨rfl, hpassed⟩ := hslash
      obtain rfl := Bool.eq_false_iff.mpr hpassed
      exact (ih hnul' hs h).prepend ['/'] (fun xs => exists_congr fun u => rest_slash) fun _ _ => trivial
    . injection h with h
      injection h with h
      rw [← h] at hs'
      exact absurd (hs.symm.trans hs') (by decide)
    . cases h
    . refine sayerror_diagnoses hnul h ⟨viable_rest passed, ?_, by simp⟩ trivial
      rintro c' cs' hcs ⟨more, u, hu⟩
      obtain ⟨rfl, -⟩ := List.cons.inj hcs
      exact not_rest_other hslash hhelp hlist hoption u hu
    . have hletter : c = 'S' ∨ c = 'D' := by
        rw [not_and_or, not_not, not_not] at hoption
        exact hoption
      cases cs with
      | nil => cases h
      | cons d ds =>
        simp only [List.cons_append, deref_cons, bind, Except.bind, ne_eq,
          ne_nul_of_not_mem hnul', not_false_eq_true, if_true] at h
        have houtput : (setOption c s).output = s.output := by rw [(setOption_sets hletter s).same]
        have hretcode := (setOption_sets hletter s).retcode.trans hs
        obtain ⟨before, rest, hcs, herror, -, hout⟩ := (ih hnul' hretcode h).of_output houtput
        refine ⟨[c] ++ before, rest, congrArg (c :: ·) hcs, ?_, trivial, hout⟩
        refine herror.prepend_of_ne_nil [c] ?_ ?_ (hcs ▸ by simp)
        . intro xs hxs
          apply exists_congr
          intro u
          rw [List.singleton_append, rest_cons hslash, items_letter hletter]
          exact or_iff_right fun h => hxs h.1
        . rintro ⟨u, hu⟩
          exact not_rest_nil false u hu

/-! An argument. -/

section

variable {L : List Char → Prop} {cs : List Char} {s s' : State φ}

theorem optionPart_returned {cs : List Char}
    (h : optionPart (cs ++ [NUL]) s = .ok (.returned s'))
    : ∃ ds, cs = '/' :: ds ∧ optionLoop true (ds ++ [NUL]) s = .ok (.returned s') := by
  unfold optionPart at h
  cases cs with
  | nil =>
    simp only [List.nil_append, deref_nul, bind, Except.bind] at h
    rw [if_neg (by decide)] at h
    cases h
  | cons c ds =>
    simp only [List.cons_append, deref_cons, bind, Except.bind] at h
    split at h
    . next hc =>
      subst hc
      exact ⟨ds, rfl, h⟩
    . cases h

/--
What is in front of an option part that is looked at: nothing, or a sign and letters.
-/
theorem attributePart_start {rest : Buffer} (hnul : NUL ∉ cs) (hs : s.retcode = EXIT_OK)
    (h : attributePart (cs ++ [NUL]) s = .ok (.rest rest s'))
    : ∃ start, cs = start ++ optionsFrom cs ∧ (∀ c ∈ start.head?, Sign c)
        ∧ ∀ xs u, Reads (start ++ '/' :: xs) u ↔ Items xs u := by
  unfold attributePart at h
  cases cs with
  | nil => exact ⟨[], rfl, by simp, fun xs u => reads_slash⟩
  | cons c cs =>
    simp only [List.cons_append, deref_cons, bind, Except.bind, List.tail_cons] at h
    unfold optionsFrom
    dsimp only
    split at h
    . next hsign =>
      rw [if_pos hsign]
      obtain ⟨r, hloop, hstops⟩ := stops_attributeLoop c (mt (List.mem_cons_of_mem c) hnul) hs
      obtain rfl : r = .rest rest s' := Except.ok.inj (hloop.symm.trans h)
      cases hstops with
      | rest hletters _ =>
        refine ⟨c :: cs.takeWhile (· ≠ '/'), ?_, fun c' hc' => Option.some.inj hc' ▸ hsign, ?_⟩
        . rw [List.cons_append, List.takeWhile_append_dropWhile]
        . intro xs u
          rw [List.cons_append, reads_sign hsign, takeWhile_letters hletters.2,
            dropWhile_letters hletters.2, List.takeWhile_cons_of_neg (by simp),
            List.dropWhile_cons_of_neg (by simp), List.append_nil, reads_slash]
          exact and_iff_right hletters
    . next hsign =>
      rw [if_neg hsign]
      exact ⟨[], rfl, by simp, fun xs u => reads_slash⟩

/--
The language may be another one than that of the grammar where no sign and no slash comes first.
-/
theorem parts_diagnoses (hL : ∀ c xs, Sign c ∨ c = '/' → (L (c :: xs) ↔ ∃ u, Reads (c :: xs) u))
    (hnul : NUL ∉ cs) (hs : s.retcode = EXIT_OK) (hs' : s'.retcode = E_OPTION)
    (h : (do
      match ← attributePart (cs ++ [NUL]) s with
      | .returned s => return .returned s
      | .rest arg s => optionPart arg s : Except Fault (Parsed φ)) = .ok (.returned s'))
    : ∃ err, Diagnoses L (err = complaint ·) cs err s s' := by
  cases hpart : attributePart (cs ++ [NUL]) s with
  | error f => simp [hpart, bind, Except.bind] at h
  | ok r =>
    simp only [hpart, bind, Except.bind] at h
    cases r with
    | returned t =>
      obtain rfl : t = s' := Parsed.returned.inj (Except.ok.inj h)
      refine ⟨"invalid attribute", ?_⟩
      unfold attributePart at hpart
      cases cs with
      | nil =>
        simp only [List.nil_append, deref_nul, bind, Except.bind] at hpart
        rw [if_neg (by decide)] at hpart
        cases hpart
      | cons c cs =>
        simp only [List.cons_append, deref_cons, bind, Except.bind, List.tail_cons] at hpart
        split at hpart
        . next hsign =>
          have hloop := attributeLoop_diagnoses hsign [] (mt (List.mem_cons_of_mem c) hnul)
            (by simp) (by simp) hpart
          refine hloop.prepend [c] (fun xs => hL c xs (.inl hsign)) ?_
          intro before hbefore
          have hc : c ≠ '/' := by
            rcases hsign with rfl | rfl
            . decide
            . decide
          unfold complaint
          rw [if_neg (by simp [hc.symm, hbefore])]
        . cases hpart
    | rest arg t =>
      obtain ⟨hsets, rfl⟩ := attributePart_sets hnul hs hpart
      obtain ⟨start, hcs, hstart, hiff⟩ := attributePart_start hnul hs hpart
      obtain ⟨ds, hds, hloop⟩ := optionPart_returned h
      rw [hds] at hcs
      subst hcs
      have hnul' : NUL ∉ ds := fun hmem => hnul (by simp [hmem])
      have hoption := optionLoop_diagnoses hnul' (hsets.retcode.trans hs) hloop hs'
      have houtput : t.output = s.output := by rw [hsets.same]
      refine ⟨"invalid option", ?_⟩
      rw [← List.singleton_append, ← List.append_assoc]
      refine (hoption.prepend (start ++ ['/']) ?_ ?_).of_output houtput
      . intro xs
        rw [List.append_assoc, List.singleton_append]
        have hgrammar : L (start ++ '/' :: xs) ↔ ∃ u, Reads (start ++ '/' :: xs) u := by
          cases start with
          | nil => exact hL '/' xs (.inr rfl)
          | cons c start => exact hL c _ (.inl (hstart c rfl))
        rw [hgrammar]
        exact exists_congr fun u => hiff xs u
      . intro before _
        unfold complaint
        rw [if_pos (by simp)]

end

theorem parseArg_diagnoses {arg : Text} {s s' : State φ} (hs : s.retcode = EXIT_OK)
    (h : parseArg (upper arg).array s = .ok (.returned s')) (hs' : s'.retcode = E_OPTION)
    : ∃ err, Diagnoses Accepted (err = complaint ·) (upper arg).chars err s s' := by
  have hnul := (upper arg).noNul
  unfold parseArg Text.array at h
  by_cases hcomma : (upper arg).chars.head? = some ','
  . obtain ⟨cs, hcs⟩ := List.head?_eq_some_iff.mp hcomma
    rw [hcs] at h hnul ⊢
    have hparts : ∃ err, Diagnoses (fun cs => ∃ u, Reads cs u) (err = complaint ·) cs err
        { s with iscomma := 1 } s' :=
      parts_diagnoses (fun _ _ _ => Iff.rfl) (mt (List.mem_cons_of_mem ',') hnul) hs hs' h
    obtain ⟨err, hparts⟩ := hparts
    refine ⟨err, (hparts.prepend [','] (fun xs => Iff.rfl) ?_).of_output rfl⟩
    intro before hbefore
    rw [hbefore]
    unfold complaint
    exact if_congr (by simp) rfl rfl
  . have hnone : commaPart ((upper arg).chars ++ [NUL]) s = .ok ((upper arg).chars ++ [NUL], s) := by
      cases hcs : (upper arg).chars with
      | nil => rfl
      | cons c cs =>
        have hc : c ≠ ',' := by simpa [hcs] using hcomma
        simp [commaPart, deref_cons, hc, bind, Except.bind, pure, Except.pure]
    rw [hnone] at h
    refine parts_diagnoses ?_ hnul hs hs' h
    intro c xs hc
    have hne : (c :: xs).head? ≠ some ',' := by
      rcases hc with (rfl | rfl) | rfl
      all_goals simp
    unfold Accepted withoutComma
    rw [if_neg hne]

theorem parseLoop_refused_says {before after : List Text} {arg : Text} {us : List Use}
    (hread : Read before us) (hnot : ∀ u, ¬Uses arg u) (name : Text) {s : State φ}
    (hs : s.retcode = EXIT_OK)
    : ∃ s', parseLoop (before ++ arg :: after).length 0 0
            (.ofTexts (name :: (before ++ arg :: after))) s = .ok (.returned s')
        ∧ s'.retcode = E_OPTION
        ∧ ∃ err, Diagnoses Accepted (err = complaint ·) (upper arg).chars err s s' := by
  obtain ⟨m₁, s₁, h₁, hs₁, hparses, heq⟩ := parseLoop_append hread (arg :: after)
    (kept_ofTexts (name :: (before ++ arg :: after))) rfl hs
  rw [Nat.zero_add, List.nil_append] at h₁ heq
  have harg : (name :: (before ++ arg :: after))[before.length + 1]? = some arg := by
    rw [List.getElem?_cons_succ, List.getElem?_append_right (Nat.le_refl _), Nat.sub_self]
    rfl
  obtain ⟨o, r, hparse, hr, hiff⟩ := right_uses arg hs₁
  cases hr with
  | help _ => exact absurd ((hiff _).mpr rfl) (hnot _)
  | rest _ _ _ => exact absurd ((hiff _).mpr rfl) (hnot _)
  | @refused s' hs' =>
    have houtput : s₁.output = s.output := by rw [(parses_sets hparses hs).same]
    obtain ⟨err, hsays⟩ := parseArg_diagnoses hs₁ hparse hs'
    refine ⟨s', ?_, hs', err, hsays.of_output houtput⟩
    rw [List.length_append, List.length_cons, ← parseLoop_returned h₁ harg hparse after.length]
    exact heq (after.length + 1)

/--
A command line with an argument that is refused has one line printed about it: the rest of the
first such argument, in upper case, from where it leaves the grammar.
-/
theorem main_refused_says {before after : List Text} {arg : Text} {us : List Use}
    (hread : Read before us) (hnot : ∀ u, ¬Uses arg u) (name : Text) (fi : φ)
    : ∃ s start, ∃ rest : Text,
        (∀ process list,
          main process list (name :: (before ++ arg :: after)) { fi := fi } = .ok (E_OPTION, s))
        ∧ (upper arg).chars = start ++ rest.chars
        ∧ ErrorAt Accepted start rest.chars
        ∧ s.output = [.error (complaint start) rest] := by
  obtain ⟨s, hloop, hs, err, start, rest, hchars, herror, rfl, houtput⟩ :=
    parseLoop_refused_says hread hnot name (s := { fi := fi }) rfl
  refine ⟨s, start, rest, ?_, hchars, herror, houtput⟩
  intro process list
  rw [← hs]
  exact main_returned process list hloop

theorem main_refused_says_slashes
    : ∃ s start, ∃ rest : Text,
        (∀ process list,
          main process list [.ofString "attrib", .ofString "f", .ofString "//s"] { fi := () }
            = .ok (E_OPTION, s))
        ∧ (upper (.ofString "//s")).chars = start ++ rest.chars
        ∧ ErrorAt Accepted start rest.chars
        ∧ s.output = [.error (complaint start) rest] := by
  have hread : Read [.ofString "f"] [.target (.ofString "F")] := ⟨.cons uses_target .nil, by simp⟩
  exact main_refused_says hread not_uses_slashes (.ofString "attrib") ()

end Attrib
end Dosix
