import Dosix.Attrib.Lemmas.CommandLine
import Dosix.Attrib.Lemmas.Traversal
import Dosix.Mask.Basic
import Dosix.Transition.Basic

/-!
This module contains the attribute options of `attrib.c`: the two masks that `main` collects from
them, and the new attributes that `do_mask` computes with these.
-/

namespace Dosix
namespace Attrib

variable {φ : Type}

/-! The options of an argument. -/

def letterWrite (ch0 ch : Char) : Mask.Write 8 where
  mask := letterMask ch
  set := ch0 = '+'

/--
The attribute options that an argument in upper case and without the comma starts with.
-/
def clusterOptions (cs : List Char) : List (Mask.Write 8) :=
  match cs with
  | [] => []
  | ch0 :: cs =>
    if ch0 = '+' ∨ ch0 = '-' then
      (cs.takeWhile (· ≠ '/')).map (letterWrite ch0)
    else
      []

def argOptions (arg : Text) : List (Mask.Write 8) :=
  clusterOptions (withoutComma (arg.chars.map toupper))

/--
The attribute options of a command line, in their order.
-/
def options (args : List Text) : List (Mask.Write 8) :=
  args.flatMap argOptions

def hasComma (arg : Text) : Bool :=
  (arg.chars.map toupper).head? = some ','

/-! What the parts of the parser do to the masks. -/

def State.masks (s : State φ) : Mask.Collected 8 := ⟨s.attrKeep, s.attrSet⟩

/--
From `s` to `t` the options have been added to the masks, and a comma has been seen if there was
one. `info` is as it was.
-/
structure Adds (os : List (Mask.Write 8)) (comma : Bool) (s t : State φ) : Prop where
  masks : t.masks = os.foldl Mask.Collected.add s.masks
  iscomma : t.iscomma = if comma then 1 else s.iscomma
  info : t.info = s.info
  named : ∀ o ∈ os, o.mask ≠ 0

namespace Adds

variable {os os' : List (Mask.Write 8)} {comma comma' : Bool} {s t u : State φ}

theorem refl (s : State φ) : Adds [] false s s where
  masks := rfl
  iscomma := rfl
  info := rfl
  named := by simp

theorem trans (hst : Adds os comma s t) (htu : Adds os' comma' t u)
    : Adds (os ++ os') (comma || comma') s u where
  masks := by rw [htu.masks, hst.masks, List.foldl_append]
  iscomma := by
    rw [htu.iscomma, hst.iscomma]
    cases comma
    all_goals
      cases comma'
      all_goals rfl
  info := htu.info.trans hst.info
  named := by
    intro o ho
    rcases List.mem_append.mp ho with ho | ho
    . exact hst.named o ho
    . exact htu.named o ho

theorem trans_refl (hst : Adds os comma s t) (htu : Adds [] false t u) : Adds os comma s u := by
  have := hst.trans htu
  rwa [List.append_nil, Bool.or_false] at this

end Adds

theorem addMask_adds (ch0 : Char) {ch : Char} (h : letterMask ch ≠ 0) (s : State φ)
    : Adds [letterWrite ch0 ch] false s (addMask ch0 (letterMask ch) s) where
  masks := by
    by_cases hset : ch0 = '+'
    . simp [State.masks, addMask, letterWrite, Mask.Collected.add, hset]
    . simp [State.masks, addMask, letterWrite, Mask.Collected.add, hset]
  iscomma := rfl
  info := rfl
  named := by simpa [letterWrite] using h

theorem sayerror_ne_rest {arg rest : Buffer} {err : String} {s s' : State φ}
    : sayerror arg err s ≠ .ok (.rest rest s') := by
  unfold sayerror
  cases arg.read 0 with
  | error f => simp [bind, Except.bind]
  | ok arg => simp [bind, Except.bind, pure, Except.pure]

theorem state_of_rest {arg rest : Buffer} {s s' : State φ}
    (h : (pure (.rest arg s) : Except Fault (Parsed φ)) = .ok (.rest rest s'))
    : s = s' :=
  (Parsed.rest.inj (Except.ok.inj h)).2

theorem attributeLoop_adds {ch0 : Char} {cs : List Char} (hnul : NUL ∉ cs) {rest : Buffer}
    {s s' : State φ} (h : attributeLoop ch0 (cs ++ [NUL]) s = .ok (.rest rest s'))
    : Adds ((cs.takeWhile (· ≠ '/')).map (letterWrite ch0)) false s s' := by
  induction cs generalizing s with
  | nil =>
    rw [List.nil_append, attributeLoop, if_pos (letterMask_eq_zero.mpr (by simp [NUL]))] at h
    exact absurd h sayerror_ne_rest
  | cons c cs ih =>
    have hnul' := mt (List.mem_cons_of_mem c) hnul
    rw [List.cons_append, attributeLoop] at h
    dsimp only at h
    split at h
    . exact absurd h sayerror_ne_rest
    . next hmask =>
      have hc : c ≠ '/' := by
        rintro rfl
        exact hmask (letterMask_eq_zero.mpr (by simp))
      have hadds := addMask_adds ch0 hmask s
      rw [List.takeWhile_cons_of_pos (by simp [hc]), List.map_cons, ← List.singleton_append]
      cases cs with
      | nil =>
        obtain rfl := state_of_rest h
        exact hadds
      | cons d ds =>
        simp only [List.cons_append, deref_cons, bind, Except.bind, ne_eq,
          ne_nul_of_not_mem hnul', not_false_eq_true, true_and] at h
        split at h
        . exact hadds.trans (ih hnul' h)
        . next hslash =>
          obtain rfl := state_of_rest h
          rw [List.takeWhile_cons_of_neg (by simpa using hslash), List.map_nil]
          exact hadds

theorem setOption_adds (ch : Char) (s : State φ)
    : Adds [] false s (setOption ch s) := by
  unfold setOption
  split
  . exact ⟨rfl, rfl, rfl, by simp⟩
  . exact ⟨rfl, rfl, rfl, by simp⟩

theorem optionLoop_adds {passed : Bool} {arg rest : Buffer} {s s' : State φ}
    (h : optionLoop passed arg s = .ok (.rest rest s'))
    : Adds [] false s s' := by
  induction arg generalizing passed s with
  | nil => simp [optionLoop] at h
  | cons c cs ih =>
    rw [optionLoop] at h
    split_ifs at h with hslash hhelp hlist hoption
    . exact ih h
    . simp at h
    . obtain rfl := state_of_rest h
      exact .refl s
    . exact absurd h sayerror_ne_rest
    . have hset := setOption_adds c s
      cases hderef : Buffer.deref cs with
      | error f => simp [hderef, bind, Except.bind] at h
      | ok next =>
        simp only [hderef, bind, Except.bind] at h
        split at h
        . exact hset.trans (ih h)
        . obtain rfl := state_of_rest h
          exact hset

theorem optionPart_adds {arg rest : Buffer} {s s' : State φ}
    (h : optionPart arg s = .ok (.rest rest s'))
    : Adds [] false s s' := by
  unfold optionPart at h
  cases hderef : arg.deref with
  | error f => simp [hderef, bind, Except.bind] at h
  | ok ch =>
    simp only [hderef, bind, Except.bind] at h
    split at h
    . exact optionLoop_adds h
    . obtain rfl := state_of_rest h
      exact .refl s

theorem attributePart_adds {cs : List Char} (hnul : NUL ∉ cs) {rest : Buffer} {s s' : State φ}
    (h : attributePart (cs ++ [NUL]) s = .ok (.rest rest s'))
    : Adds (clusterOptions cs) false s s' := by
  unfold attributePart at h
  cases cs with
  | nil =>
    simp only [List.nil_append, deref_nul, bind, Except.bind] at h
    rw [if_neg (by decide)] at h
    obtain rfl := state_of_rest h
    exact .refl s
  | cons c cs =>
    simp only [List.cons_append, deref_cons, bind, Except.bind, List.tail_cons] at h
    unfold clusterOptions
    dsimp only
    split at h
    . next hsign =>
      rw [if_pos hsign]
      exact attributeLoop_adds (mt (List.mem_cons_of_mem c) hnul) h
    . next hsign =>
      rw [if_neg hsign]
      obtain rfl := state_of_rest h
      exact .refl s

theorem commaPart_adds (cs : List Char) (s : State φ)
    : ∃ s', commaPart (cs ++ [NUL]) s = .ok (withoutComma cs ++ [NUL], s')
        ∧ Adds [] (cs.head? = some ',') s s' := by
  cases cs with
  | nil => exact ⟨s, rfl, .refl s⟩
  | cons c cs =>
    by_cases hc : c = ','
    . subst hc
      exact ⟨{ s with iscomma := 1 }, rfl, rfl, by simp, rfl, by simp⟩
    . refine ⟨s, ?_, rfl, by simp [hc], rfl, by simp⟩
      simp [commaPart, deref_cons, withoutComma, hc, bind, Except.bind, pure, Except.pure]

theorem parseArg_adds {arg : Text} {rest : Buffer} {s s' : State φ}
    (h : parseArg (upper arg).array s = .ok (.rest rest s'))
    : Adds (argOptions arg) (hasComma arg) s s' := by
  have hnul := withoutComma_noNul (upper arg).noNul
  obtain ⟨s₁, hcomma, hadds⟩ := commaPart_adds (upper arg).chars s
  unfold parseArg Text.array at h
  simp only [hcomma, bind, Except.bind] at h
  cases hpart : attributePart (withoutComma (upper arg).chars ++ [NUL]) s₁ with
  | error f => simp [hpart] at h
  | ok r =>
    simp only [hpart] at h
    cases r with
    | returned s₂ => simp [pure, Except.pure] at h
    | rest arg' s₂ =>
      have hboth := hadds.trans (attributePart_adds hnul hpart)
      rw [List.nil_append, Bool.or_false] at hboth
      exact hboth.trans_refl (optionPart_adds h)

theorem parses_adds {args : List Text} {s s' : State φ} (h : Parses s args s')
    : Adds (options args) (args.any hasComma) s s' := by
  induction h with
  | nil s => exact .refl s
  | cons harg _ ih =>
    unfold options at ih ⊢
    rw [List.flatMap_cons, List.any_cons]
    exact (parseArg_adds harg).trans ih

/-! What the traversal computes with the masks. -/

open Transition

/--
From `s` to `t` the traversal has printed one line for each of some files, and computed one new
attribute for each, unless `main` has cut off the second part of the line.
-/
structure Computes (F : Finder φ) (s t : State φ) : Prop where
  masks : t.masks = s.masks
  newPart : t.info[NEW_PART]? = s.info[NEW_PART]?
  computed : ∃ files : List φ, t.output.length = s.output.length + files.length
    ∧ t.computed = s.computed ++
      if s.info[NEW_PART]? = some NUL then
        []
      else
        files.map fun fi => s.masks.apply ((F.attrib fi).setWidth 8)

/--
Neither the lines nor what is computed for them has changed.
-/
structure SameLines (s t : State φ) : Prop where
  masks : t.masks = s.masks
  info : t.info = s.info
  output : t.output = s.output
  computed : t.computed = s.computed

section Traversal

variable {F : Finder φ} {s t u : State φ}

namespace Computes

theorem trans (hst : Computes F s t) (htu : Computes F t u) : Computes F s u where
  masks := htu.masks.trans hst.masks
  newPart := htu.newPart.trans hst.newPart
  computed := by
    obtain ⟨files, hlength, hcomputed⟩ := hst.computed
    obtain ⟨files', hlength', hcomputed'⟩ := htu.computed
    refine ⟨files ++ files', ?_, ?_⟩
    . rw [hlength', hlength, List.length_append, Nat.add_assoc]
    . rw [hcomputed', hcomputed, hst.newPart, hst.masks, List.append_assoc]
      split
      . rfl
      . rw [List.map_append]

theorem of_same (h : SameLines s t) : Computes F s t where
  masks := h.masks
  newPart := by rw [h.info]
  computed := ⟨[], by rw [h.output]; rfl, by rw [h.computed]; simp⟩

theorem refl (s : State φ) : Computes F s s :=
  of_same ⟨rfl, rfl, rfl, rfl⟩

end Computes

/--
The call leaves a state that `Computes` relates to `s`, if any.
-/
def Goes (F : Finder φ) (s : State φ) (x : Except Fault (State φ)) : Prop :=
  Meets (Computes F s) (fun _ => True) x

theorem Goes.of_same {x : Except Fault (State φ)} (h : Goes F t x) (hst : SameLines s t)
    : Goes F s x :=
  Meets.imp h fun _ hu => (Computes.of_same hst).trans hu

theorem goes_bind {α : Type} {x : Except Fault α} {k : α → Except Fault (State φ)}
    (hk : ∀ a, x = .ok a → Goes F s (k a))
    : Goes F s (x >>= k) := by
  cases x with
  | error f => trivial
  | ok a => exact hk a rfl

theorem Goes.bind {x : Except Fault (State φ)} {k : State φ → Except Fault (State φ)}
    (hx : Goes F s x) (hk : ∀ t, Goes F t (k t))
    : Goes F s (x >>= k) := by
  apply goes_bind
  intro t ht
  exact Meets.imp (hk t) fun _ hu => (hx.of_ok ht).trans hu

theorem attr2str_newPart {attr attr' : ATTR} {info info' : Buffer}
    (h : attr2str OLD_ATTR attr info = .ok (attr', info'))
    : attr' = attr ∧ info'[NEW_PART]? = info[NEW_PART]? := by
  unfold attr2str at h
  split at h
  . next hle =>
    injection h with h
    obtain ⟨rfl, rfl⟩ := Prod.mk.inj h
    refine ⟨rfl, ?_⟩
    have hlength : (info.take OLD_ATTR ++ letters attr).length = 6 := by
      rw [List.length_append, List.length_take_of_le (by omega)]
      rfl
    rw [List.getElem?_append_right (by rw [hlength]; decide), hlength, List.getElem?_drop]
    rfl
  . simp at h

theorem sayFile_goes (pathend : Nat) : Goes F s (sayFile F pathend s) := by
  unfold sayFile
  apply goes_bind
  rintro ⟨-, path⟩ -
  dsimp only
  apply goes_bind
  rintro ⟨attr, info⟩ hattr
  obtain ⟨rfl, hnew⟩ := attr2str_newPart hattr
  dsimp only
  apply goes_bind
  intro line _
  apply goes_bind
  intro target _
  unfold newAttr
  dsimp only
  rw [hnew]
  by_cases hcut : s.info[NEW_PART]? = some NUL
  . rw [if_neg (not_not.mpr hcut)]
    refine ⟨rfl, hnew, [s.fi], by simp [say], ?_⟩
    rw [if_pos hcut, List.append_nil]
    rfl
  . rw [if_pos hcut]
    refine ⟨rfl, hnew, [s.fi], by simp [say], ?_⟩
    rw [if_neg hcut]
    rfl

theorem doMaskBody_goes (pathend : Nat) : Goes F s (doMaskBody F pathend s) := by
  unfold doMaskBody
  split
  . exact Computes.refl s
  . exact sayFile_goes pathend

theorem doMaskLoop_goes (pathend fuel : Nat) : Goes F s (doMaskLoop F pathend fuel s) := by
  induction fuel generalizing s with
  | zero => trivial
  | succ fuel ih =>
    rw [doMaskLoop]
    apply (doMaskBody_goes pathend).bind
    intro t
    dsimp only
    split
    . exact ih.of_same ⟨rfl, rfl, rfl, rfl⟩
    . exact Computes.of_same ⟨rfl, rfl, rfl, rfl⟩

theorem doMask_goes (pathend fuel : Nat) : Goes F s (doMask F pathend fuel s) := by
  unfold doMask
  apply goes_bind
  intro mask _
  apply goes_bind
  rintro ⟨-, path⟩ -
  dsimp only
  apply goes_bind
  intro path _
  split
  . exact Computes.of_same ⟨rfl, rfl, rfl, rfl⟩
  . exact (doMaskLoop_goes pathend fuel).of_same ⟨rfl, rfl, rfl, rfl⟩

section Again

variable {again : Nat → State φ → Except Fault (State φ)}

theorem doPathBody_goes (hagain : ∀ pathend s, Goes F s (again pathend s)) (pathend : Nat) (fi : φ)
    : Goes F s (doPathBody F again pathend fi s) := by
  unfold doPathBody
  split
  . exact Computes.refl s
  . split
    . exact Computes.refl s
    . apply goes_bind
      rintro ⟨pend, path⟩ -
      dsimp only
      apply goes_bind
      rintro ⟨pend, path⟩ -
      exact (hagain pend _).of_same ⟨rfl, rfl, rfl, rfl⟩

theorem doPathLoop_goes (hagain : ∀ pathend s, Goes F s (again pathend s)) (pathend fuel : Nat)
    (fi : φ)
    : Goes F s (doPathLoop F again pathend fuel fi s) := by
  induction fuel generalizing s fi with
  | zero => trivial
  | succ fuel ih =>
    rw [doPathLoop]
    apply (doPathBody_goes hagain pathend fi).bind
    intro t
    dsimp only
    split
    . exact ih _
    . exact Computes.refl t

end Again

theorem doPath_goes (fuel pathend : Nat) : Goes F s (doPath F fuel pathend s) := by
  induction fuel generalizing s pathend with
  | zero => trivial
  | succ fuel ih =>
    rw [doPath]
    apply (doMask_goes pathend fuel).bind
    intro t
    split
    . exact Computes.refl t
    . apply goes_bind
      rintro ⟨-, path⟩ -
      dsimp only
      apply goes_bind
      intro path _
      split
      . exact Computes.of_same ⟨rfl, rfl, rfl, rfl⟩
      . exact (doPathLoop_goes (fun pathend s => ih pathend) pathend fuel _).of_same
          ⟨rfl, rfl, rfl, rfl⟩

end Traversal

/-! What the options ask for. -/

/--
The attribute `v` is what the options make of `a`: each bit is as the last option has it that names
it, if there is one. A comma without any option clears the four attributes.
-/
def Wanted (args : List Text) (a v : ATTR) : Prop :=
  if options args = [] ∧ args.any hasComma then
    v = a &&& ~~~ALL_FILE
  else
    ∀ i, v.getLsbD i = (Mask.lastWrite (options args) i).getD (a.getLsbD i)

/--
Every attribute that a `+` sets is set by the last option that names it.
-/
def PlusLast (args : List Text) : Prop :=
  ∀ i, Mask.Sets (options args) i → Mask.lastWrite (options args) i = some true

section Adjust

variable {args : List Text} {fi : φ} {s : State φ}

theorem parses_keep_iff (h : Parses { fi := fi } args s)
    : s.attrKeep = ~~~0 ↔ options args = [] := by
  have hadds := parses_adds h
  rw [← Mask.collect_keep_eq_iff hadds.named]
  exact iff_of_eq (congrArg (fun m => m.keep = ~~~0) hadds.masks)

theorem parses_iscomma (h : Parses { fi := fi } args s)
    : s.iscomma ≠ 0 ↔ args.any hasComma = true := by
  rw [(parses_adds h).iscomma]
  change (if args.any hasComma then (1 : BitVec 8) else 0) ≠ 0 ↔ _
  cases args.any hasComma
  all_goals decide

theorem adjust_newPart (h : Parses { fi := fi } args s)
    : (adjust s).info[NEW_PART]? = some NUL ↔ options args = [] ∧ ¬ args.any hasComma := by
  have hinfo : s.info = "[-----] -> [-----] ".toList ++ [NUL] := (parses_adds h).info
  have hwhole : s.info[NEW_PART]? ≠ some NUL := by
    rw [hinfo]
    decide
  unfold adjust
  by_cases hnone : options args = []
  . rw [if_pos ((parses_keep_iff h).mpr hnone)]
    by_cases hany : args.any hasComma = true
    . rw [if_pos ((parses_iscomma h).mpr hany)]
      exact iff_of_false hwhole fun hcut => hcut.2 hany
    . rw [if_neg (mt (parses_iscomma h).mp hany)]
      apply iff_of_true
      . change (s.info.set NEW_PART NUL)[NEW_PART]? = some NUL
        rw [hinfo]
        decide
      . exact ⟨hnone, hany⟩
  . rw [if_neg (mt (parses_keep_iff h).mp hnone)]
    exact iff_of_false hwhole fun hcut => hnone hcut.1

theorem adjust_wanted_iff (h : Parses { fi := fi } args s) (a : ATTR)
    : Wanted args a ((adjust s).masks.apply a) ↔ PlusLast args := by
  have hmasks : s.masks = Mask.collect (options args) := (parses_adds h).masks
  unfold Wanted
  by_cases hcleared : options args = [] ∧ args.any hasComma
  . rw [if_pos hcleared]
    obtain ⟨hnone, hany⟩ := hcleared
    apply iff_of_true
    . unfold adjust
      rw [if_pos ((parses_keep_iff h).mpr hnone), if_pos ((parses_iscomma h).mpr hany)]
      have hset : s.attrSet = 0 := by
        have := congrArg Mask.Collected.set hmasks
        rwa [hnone] at this
      simp [State.masks, Mask.Collected.apply, hset]
    . simp [PlusLast, hnone, Mask.Sets]
  . rw [if_neg hcleared]
    have hsame : (adjust s).masks = s.masks := by
      unfold adjust
      split
      . next hall =>
        have hnone := (parses_keep_iff h).mp hall
        rw [if_neg (mt (parses_iscomma h).mp fun hany => hcleared ⟨hnone, hany⟩)]
        rfl
      . rfl
    rw [hsame, hmasks]
    apply forall_congr'
    intro i
    rw [← Mask.getLsbD_writeAll]
    exact Mask.getLsbD_collect_apply_iff (options args) a i

end Adjust

/--
When the last option that names an attribute wins: no attribute that a `+` sets is cleared by the
last option that names it.
-/
theorem lastOption_wins_iff {args : List Text} {us : List Use} (hread : Read args us) (name : Text)
    (fi : φ)
    : ∃ s, (∀ process list,
          main process list (name :: args) { fi := fi } = do
            let s ← (targets us).foldlM (fun s u => carryOut process list u s) s
            return (s.retcode, s))
        ∧ (∀ F fuel pathend s₁ t, s₁.masks = s.masks → s₁.info[NEW_PART]? = s.info[NEW_PART]? →
          doPath F fuel pathend s₁ = .ok t →
          t.masks = s.masks ∧ t.info[NEW_PART]? = s.info[NEW_PART]?
            ∧ ∃ files : List φ, t.output.length = s₁.output.length + files.length
              ∧ t.computed = s₁.computed ++
                if options args = [] ∧ ¬ args.any hasComma then
                  []
                else
                  files.map fun fi => s.masks.apply ((F.attrib fi).setWidth 8))
        ∧ ∀ a, Wanted args a (s.masks.apply a) ↔ PlusLast args := by
  obtain ⟨s, hparses, hmain⟩ := main_read (s := { fi := fi }) hread name rfl
  refine ⟨adjust s, hmain, ?_, ?_⟩
  . intro F fuel pathend s₁ t hmasks hnewPart hpath
    have hgoes := (doPath_goes (F := F) (s := s₁) fuel pathend).of_ok hpath
    obtain ⟨files, hlength, hcomputed⟩ := hgoes.computed
    refine ⟨hgoes.masks.trans hmasks, hgoes.newPart.trans hnewPart, files, hlength, ?_⟩
    rw [hcomputed, hnewPart, hmasks]
    congr 1
    exact if_congr (adjust_newPart hparses) rfl rfl
  . intro a
    exact adjust_wanted_iff hparses a

def readOnlyWrite (set : Bool) : Mask.Write 8 where
  mask := _A_RDONLY.setWidth 8
  set := set

theorem uses_readOnly {sign : String} (h : sign = "+r" ∨ sign = "-r")
    : Uses (.ofString sign) .nothing := by
  unfold Uses
  rcases h with rfl | rfl
  . rw [show withoutComma ((Text.ofString "+r").chars.map toupper) = '+' :: ['R'] by decide]
    exact .attributes (.inl rfl) (by simp [Letters])
  . rw [show withoutComma ((Text.ofString "-r").chars.map toupper) = '-' :: ['R'] by decide]
    exact .attributes (.inr rfl) (by simp [Letters])

/--
The attribute cleared first and then set.
-/
theorem lastOption_wins_iff_setAgain
    : ∃ s : State Unit,
        (∀ process list,
          main process list
              [.ofString "attrib", .ofString "-r", .ofString "+r", .ofString "f"] { fi := () }
            = do
              let s ← process (.ofString "F") s
              return (s.retcode, s))
        ∧ ∀ a, Wanted [.ofString "-r", .ofString "+r", .ofString "f"] a (s.masks.apply a) := by
  have hread : Read [.ofString "-r", .ofString "+r", .ofString "f"]
      [.nothing, .nothing, .target (.ofString "F")] :=
    ⟨.cons (uses_readOnly (.inr rfl)) (.cons (uses_readOnly (.inl rfl)) (.cons uses_target .nil)),
      by simp⟩
  obtain ⟨s, hmain, -, hwanted⟩ := lastOption_wins_iff hread (.ofString "attrib") ()
  refine ⟨s, ?_, ?_⟩
  . intro process list
    rw [hmain process list]
    simp [targets, asked, carryOut]
  . intro a
    apply (hwanted a).mpr
    unfold PlusLast
    rw [show options [.ofString "-r", .ofString "+r", .ofString "f"]
      = [readOnlyWrite false, readOnlyWrite true] by decide]
    rintro i ⟨o, ho, hset, hmask⟩
    rw [show [readOnlyWrite false, readOnlyWrite true] = [readOnlyWrite false] ++ [readOnlyWrite true]
      from rfl, Mask.lastWrite_concat]
    have hread : o.mask = (readOnlyWrite true).mask := by
      rcases List.mem_pair.mp ho with rfl | rfl
      . rfl
      . rfl
    rw [← hread, if_pos hmask]
    rfl

/--
The attribute set first and then cleared, for a file without attributes.
-/
theorem not_lastOption_wins_clearedAgain
    : (∃ s : State Unit,
          main (fun _ s => .ok (newAttr 0 s)) (fun _ s => .ok s)
              [.ofString "attrib", .ofString "+r", .ofString "-r", .ofString "f"] { fi := () }
            = .ok (EXIT_OK, s)
          ∧ s.computed = [_A_RDONLY.setWidth 8])
      ∧ ¬ Wanted [.ofString "+r", .ofString "-r", .ofString "f"] 0 (_A_RDONLY.setWidth 8) := by
  constructor
  . obtain ⟨⟨code, s⟩, hmain, hs⟩ := exists_of_any
      (r := main (fun _ s => .ok (newAttr 0 s)) (fun _ s => .ok s)
        [.ofString "attrib", .ofString "+r", .ofString "-r", .ofString "f"] { fi := () })
      (q := fun p => p.1 = EXIT_OK ∧ p.2.computed = [_A_RDONLY.setWidth 8]) (by decide +kernel)
    obtain ⟨rfl, hcomputed⟩ := of_decide_eq_true hs
    exact ⟨s, hmain, hcomputed⟩
  . unfold Wanted
    rw [show options [.ofString "+r", .ofString "-r", .ofString "f"]
      = [readOnlyWrite true, readOnlyWrite false] by decide, if_neg (by simp)]
    intro h
    exact absurd (h 0) (by decide)

end Attrib
end Dosix
