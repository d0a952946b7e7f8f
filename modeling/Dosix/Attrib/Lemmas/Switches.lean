import Dosix.Attrib.Lemmas.Options

/-!
This module contains the options of `attrib.c` beside the attributes: what `main` makes of `/S` and
`/D`, and that an accepted argument changes nothing but the options.
-/

namespace Dosix
namespace Attrib

variable {φ : Type}

/--
Where the option part of an argument in upper case and without the comma begins, if it has one.
-/
def optionsFrom (cs : List Char) : List Char :=
  match cs with
  | [] => []
  | c :: cs => if c = '+' ∨ c = '-' then cs.dropWhile (· ≠ '/') else c :: cs

def switches (cs : List Char) : List Char :=
  let os := optionsFrom cs
  if os.head? = some '/' then os.takeWhile (· ≠ '@') else []

def argSwitches (arg : Text) : List Char :=
  switches (withoutComma (arg.chars.map toupper))

def recurseOf (args : List Text) : BitVec 8 :=
  if 'S' ∈ args.flatMap argSwitches then 1 else 0

def useattrOf (args : List Text) : ATTR :=
  if 'D' ∈ args.flatMap argSwitches then ALL_ATTR else ALL_FILE

/--
From `s` to `t` the options have been set by these switches, and only the attribute options may have
changed besides.
-/
structure Sets (letters : List Char) (s t : State φ) : Prop where
  recurse : t.recurse = if 'S' ∈ letters then 1 else s.recurse
  useattr : t.useattr = if 'D' ∈ letters then ALL_ATTR else s.useattr
  same : t = { s with
    recurse := t.recurse
    useattr := t.useattr
    attrKeep := t.attrKeep
    attrSet := t.attrSet
    iscomma := t.iscomma }

namespace Sets

variable {letters letters' : List Char} {s t u : State φ}

theorem refl (s : State φ) : Sets [] s s := ⟨rfl, rfl, rfl⟩

theorem trans (hst : Sets letters s t) (htu : Sets letters' t u) : Sets (letters ++ letters') s u where
  recurse := by
    rw [htu.recurse, hst.recurse]
    by_cases h : 'S' ∈ letters'
    . simp [h]
    . simp [h]
  useattr := by
    rw [htu.useattr, hst.useattr]
    by_cases h : 'D' ∈ letters'
    . simp [h]
    . simp [h]
  same := by
    have hu := htu.same
    rw [hst.same] at hu
    exact hu

theorem congr (h : Sets letters s t) (hS : 'S' ∈ letters' ↔ 'S' ∈ letters)
    (hD : 'D' ∈ letters' ↔ 'D' ∈ letters)
    : Sets letters' s t where
  recurse := by rw [h.recurse, if_congr hS rfl rfl]
  useattr := by rw [h.useattr, if_congr hD rfl rfl]
  same := h.same

end Sets

/-! The parts of an argument. -/

theorem setOption_sets {c : Char} (hc : c = 'S' ∨ c = 'D') (s : State φ)
    : Sets [c] s (setOption c s) := by
  rcases hc with rfl | rfl
  . exact ⟨rfl, rfl, rfl⟩
  . exact ⟨rfl, rfl, rfl⟩

theorem optionLoop_sets {passed : Bool} {cs : List Char} (hnul : NUL ∉ cs) {rest : Buffer}
    {s s' : State φ} (h : optionLoop passed (cs ++ [NUL]) s = .ok (.rest rest s'))
    : Sets (cs.takeWhile (· ≠ '@')) s s' := by
  induction cs generalizing passed s with
  | nil =>
    have hloop : optionLoop passed ([] ++ [NUL]) s = sayerror ([] ++ [NUL]) "invalid option" s := by
      cases passed <;> rfl
    exact absurd (hloop ▸ h) sayerror_ne_rest
  | cons c cs ih =>
    have hnul' := mt (List.mem_cons_of_mem c) hnul
    rw [List.cons_append, optionLoop] at h
    split_ifs at h with hslash hhelp hlist hoption
    . obtain ⟨rfl, -⟩ := hslash
      exact (ih hnul' h).congr (by simp) (by simp)
    . simp at h
    . subst hlist
      obtain rfl := state_of_rest h
      exact .refl s
    . exact absurd h sayerror_ne_rest
    . have hletter : c = 'S' ∨ c = 'D' := by
        rw [not_and_or, not_not, not_not] at hoption
        exact hoption
      have hset := setOption_sets hletter s
      rw [List.takeWhile_cons_of_pos (by simpa using hlist), ← List.singleton_append]
      cases cs with
      | nil =>
        obtain rfl := state_of_rest h
        exact hset
      | cons d ds =>
        simp only [List.cons_append, deref_cons, bind, Except.bind, ne_eq,
          ne_nul_of_not_mem hnul', not_false_eq_true, if_true] at h
        exact hset.trans (ih hnul' h)

theorem optionPart_sets {cs : List Char} (hnul : NUL ∉ cs) {rest : Buffer} {s s' : State φ}
    (h : optionPart (cs ++ [NUL]) s = .ok (.rest rest s'))
    : Sets (if cs.head? = some '/' then cs.takeWhile (· ≠ '@') else []) s s' := by
  unfold optionPart at h
  cases cs with
  | nil =>
    simp only [List.nil_append, deref_nul, bind, Except.bind] at h
    rw [if_neg (by decide)] at h
    obtain rfl := state_of_rest h
    exact .refl s
  | cons c cs =>
    simp only [List.cons_append, deref_cons, bind, Except.bind] at h
    simp only [List.head?_cons, Option.some.injEq]
    split at h
    . next hc =>
      rw [if_pos hc]
      exact optionLoop_sets hnul h
    . next hc =>
      rw [if_neg hc]
      obtain rfl := state_of_rest h
      exact .refl s

theorem addMask_sets (ch0 : Char) (mask : ATTR) (s : State φ) : Sets [] s (addMask ch0 mask s) :=
  ⟨rfl, rfl, rfl⟩

theorem attributeLoop_sets {ch0 : Char} {arg rest : Buffer} {s s' : State φ}
    (h : attributeLoop ch0 arg s = .ok (.rest rest s'))
    : Sets [] s s' := by
  induction arg generalizing s with
  | nil => cases h
  | cons c arg ih =>
    rw [attributeLoop] at h
    dsimp only at h
    split at h
    . exact absurd h sayerror_ne_rest
    . have hadd := addMask_sets ch0 (letterMask c) s
      cases hderef : Buffer.deref arg with
      | error f => simp [hderef, bind, Except.bind] at h
      | ok next =>
        simp only [hderef, bind, Except.bind] at h
        split at h
        . exact hadd.trans (ih h)
        . obtain rfl := state_of_rest h
          exact hadd

theorem attributePart_sets {cs : List Char} (hnul : NUL ∉ cs) {rest : Buffer} {s s' : State φ}
    (hs : s.retcode = EXIT_OK) (h : attributePart (cs ++ [NUL]) s = .ok (.rest rest s'))
    : Sets [] s s' ∧ rest = optionsFrom cs ++ [NUL] := by
  unfold attributePart at h
  cases cs with
  | nil =>
    simp only [List.nil_append, deref_nul, bind, Except.bind] at h
    rw [if_neg (by decide)] at h
    injection h with h
    injection h with hrest hstate
    subst hrest hstate
    exact ⟨.refl s, rfl⟩
  | cons c cs =>
    simp only [List.cons_append, deref_cons, bind, Except.bind, List.tail_cons] at h
    unfold optionsFrom
    dsimp only
    split at h
    . next hsign =>
      rw [if_pos hsign]
      obtain ⟨r, hloop, hstops⟩ := stops_attributeLoop c (mt (List.mem_cons_of_mem c) hnul) hs
      have hr : r = .rest rest s' := Except.ok.inj (hloop.symm.trans h)
      subst hr
      cases hstops with
      | rest _ _ => exact ⟨attributeLoop_sets h, rfl⟩
    . next hsign =>
      rw [if_neg hsign]
      injection h with h
      injection h with hrest hstate
      subst hrest hstate
      exact ⟨.refl s, rfl⟩

theorem Sets.retcode {letters : List Char} {s t : State φ} (h : Sets letters s t)
    : t.retcode = s.retcode := by
  rw [h.same]

theorem parseArg_sets {arg : Text} {rest : Buffer} {s s' : State φ} (hs : s.retcode = EXIT_OK)
    (h : parseArg (upper arg).array s = .ok (.rest rest s'))
    : Sets (argSwitches arg) s s' := by
  have hnul := withoutComma_noNul (upper arg).noNul
  have hcomma : ∃ s₁, commaPart ((upper arg).chars ++ [NUL]) s
      = .ok (withoutComma (upper arg).chars ++ [NUL], s₁) ∧ Sets [] s s₁ := by
    cases (upper arg).chars with
    | nil => exact ⟨s, rfl, .refl s⟩
    | cons c cs =>
      by_cases hc : c = ','
      . subst hc
        exact ⟨{ s with iscomma := 1 }, rfl, rfl, rfl, rfl⟩
      . refine ⟨s, ?_, .refl s⟩
        simp [commaPart, deref_cons, withoutComma, hc, bind, Except.bind, pure, Except.pure]
  obtain ⟨s₁, hcomma, hs₁⟩ := hcomma
  unfold parseArg Text.array at h
  simp only [hcomma, bind, Except.bind] at h
  cases hpart : attributePart (withoutComma (upper arg).chars ++ [NUL]) s₁ with
  | error f => simp [hpart] at h
  | ok r =>
    simp only [hpart] at h
    cases r with
    | returned s₂ => simp [pure, Except.pure] at h
    | rest arg' s₂ =>
      obtain ⟨hs₂, rfl⟩ := attributePart_sets hnul (hs₁.retcode.trans hs) hpart
      have hfrom : NUL ∉ optionsFrom (withoutComma (upper arg).chars) := by
        intro hmem
        apply hnul
        unfold optionsFrom at hmem
        split at hmem
        . exact absurd hmem List.not_mem_nil
        . next c cs hcs =>
          rw [hcs]
          split at hmem
          . exact List.mem_cons_of_mem c ((List.dropWhile_sublist _).subset hmem)
          . exact hmem
      exact (hs₁.trans hs₂).trans (optionPart_sets hfrom h)

theorem parses_sets {args : List Text} {s s' : State φ} (h : Parses s args s')
    (hs : s.retcode = EXIT_OK)
    : Sets (args.flatMap argSwitches) s s' := by
  induction h with
  | nil s => exact .refl s
  | cons harg _ ih =>
    have hsets := parseArg_sets hs harg
    rw [List.flatMap_cons]
    exact hsets.trans (ih (hsets.retcode.trans hs))

end Attrib
end Dosix
