import Dosix.Attrib.Impl.Target
import Dosix.Attrib.Lemmas.Traversal
import Mathlib.Data.List.DropRight

/-!
This module contains the splitting of a target by `nsplit`: what the position that it returns and
the mask are made of.
-/

namespace Dosix
namespace Attrib

variable {φ : Type}

/-! Targets. -/

def isPlain (c : Char) : Bool :=
  !isSeparator c

def isWild (c : Char) : Bool :=
  c = '*' || c = '?'

/--
What follows the last separator.
-/
def component (t : Text) : Text where
  chars := t.chars.rtakeWhile isPlain
  noNul := fun h => t.noNul ((List.rtakeWhile_suffix _ _).subset h)

def parent (t : Text) : Text where
  chars := t.chars.rdropWhile isPlain
  noNul := fun h => t.noNul ((List.rdropWhile_prefix _ _).subset h)

def isName (t : Text) : Bool :=
  (component t).chars.any (· ≠ '.')

def backslash : Text := .ofString "\\"

def star : Text := .ofString "*.*"

/--
Where the traversal of a target begins.
-/
def startOf (t : Text) : Text :=
  if isName t then parent t else if (component t).chars = [] then t else t ++ backslash

def maskOf (t : Text) : Text :=
  if isName t then component t else star

def findattrOf (useattr : ATTR) (t : Text) : ATTR :=
  if isName t ∧ (component t).chars.any isWild = false then ALL_ATTR else useattr

theorem parent_append_component (t : Text) : parent t ++ component t = t :=
  Text.ext_chars List.rdropWhile_append_rtakeWhile

theorem isComponent_component (t : Text) : IsComponent (component t) := by
  intro c hc
  simpa [isPlain] using List.mem_rtakeWhile_imp hc

theorem isComponent_maskOf (t : Text) : IsComponent (maskOf t) := by
  unfold maskOf
  split
  . exact isComponent_component t
  . exact isComponent_star

/-! The loop. -/

theorem nsplitLoop_eq (useattr : ATTR) (path : Buffer) {p : Nat} (pend : Option Nat) (fattr : ATTR)
    (hp : p ≤ path.length)
    : nsplitLoop useattr path p pend fattr
        = .ok (((path.take p).rdropWhile isPlain).length,
          if ((path.take p).rtakeWhile isPlain).any (· ≠ '.') then none else pend,
          if ((path.take p).rtakeWhile isPlain).any isWild then useattr else fattr) := by
  induction p generalizing pend fattr with
  | zero => rfl
  | succ p ih =>
    have htake : path.take (p + 1) = path.take p ++ [path[p]] :=
      (List.take_append_getElem hp).symm
    unfold nsplitLoop
    rw [List.getElem?_eq_getElem hp, htake]
    dsimp only
    have hsep : isSeparator path[p] = false
        ↔ path[p] ≠ '\\' ∧ path[p] ≠ '/' ∧ path[p] ≠ ':' := by
      simp [isSeparator, and_assoc]
    have hplain (h : isSeparator path[p] = false) : isPlain path[p] = true := by
      simp [isPlain, h]
    by_cases hdot : path[p] = '.'
    . have hpos := hplain (hsep.mpr (by simp [hdot]))
      rw [if_pos hdot, ih _ _ (Nat.le_of_succ_le hp),
        List.rdropWhile_concat_pos isPlain _ _ hpos, List.rtakeWhile_concat_pos isPlain _ _ hpos,
        hdot]
      simp [isWild]
    . rw [if_neg hdot]
      by_cases hname : path[p] ≠ '\\' ∧ path[p] ≠ '/' ∧ path[p] ≠ ':'
      . have hpos := hplain (hsep.mpr hname)
        rw [if_pos hname, ih _ _ (Nat.le_of_succ_le hp),
          List.rdropWhile_concat_pos isPlain _ _ hpos,
          List.rtakeWhile_concat_pos isPlain _ _ hpos]
        simp only [List.any_append, List.any_cons, List.any_nil, Bool.or_false, hdot, ite_self,
          ne_eq, not_false_eq_true, decide_true, Bool.or_true, if_true, isWild, Bool.or_eq_true,
          decide_eq_true_eq]
        congr 3
        split
        . next h => rw [if_pos (.inl h)]
        . next h =>
          congr 1
          simp [h]
      . have hneg : ¬ isPlain path[p] = true := by
          unfold isPlain
          rw [Bool.not_eq_true', hsep]
          exact hname
        rw [if_neg hname, List.rdropWhile_concat_neg isPlain _ _ hneg,
          List.rtakeWhile_concat_neg isPlain _ _ hneg, List.length_append, List.length_take,
          Nat.min_eq_left (Nat.le_of_succ_le hp)]
        simp

/-! `nsplit`. -/

theorem adds_zero (t : Text) (buf : Buffer)
    : adds 0 t buf = if t.length < buf.length then
        .ok (t.length, t.chars ++ NUL :: buf.drop (t.length + 1)) else .error .undefined := by
  unfold adds Buffer.stpcpy
  rw [Nat.zero_add, List.take_zero, List.nil_append]

theorem length_parent_add (t : Text) : (parent t).length + (component t).length = t.length := by
  rw [← Text.length_append, parent_append_component]

theorem read_component (t : Text) (cs : List Char)
    : Buffer.read (t.chars ++ NUL :: cs) (parent t).length = .ok (component t) := by
  have hdrop : (t.chars ++ NUL :: cs).drop (parent t).length = (component t).chars ++ NUL :: cs := by
    have hchars : t.chars = (parent t).chars ++ (component t).chars :=
      congrArg Text.chars (parent_append_component t).symm
    rw [hchars, List.append_assoc]
    exact List.drop_left
  unfold Buffer.read
  rw [hdrop, if_pos (by simp), Text.ofChars_append]

/--
The path that `nsplit` leaves.
-/
def pathOf (t : Text) (cs : List Char) : Buffer :=
  t.chars ++ (if isName t ∨ (component t).chars = [] then NUL else '\\') :: cs

theorem startOf_prefix (t : Text) (cs : List Char) : (startOf t).chars <+: pathOf t cs := by
  unfold startOf pathOf
  by_cases hname : isName t = true
  . rw [if_pos hname]
    exact (List.rdropWhile_prefix isPlain _).trans (List.prefix_append _ _)
  . rw [if_neg hname]
    by_cases hempty : (component t).chars = []
    . rw [if_pos hempty]
      exact List.prefix_append _ _
    . rw [if_neg hempty, if_neg (not_or.mpr ⟨hname, hempty⟩)]
      exact ⟨cs, List.append_assoc ..⟩

theorem nsplit_eq (t : Text) (cs : List Char) (s : State φ)
    : nsplit t.length { s with path := t.chars ++ NUL :: cs }
        = (adds 0 (maskOf t) s.mask).map fun m => ((startOf t).length,
          { s with path := pathOf t cs, mask := m.2, findattr := findattrOf s.useattr t }) := by
  have htake : (t.chars ++ NUL :: cs).take t.length = t.chars := List.take_left
  have hlength : t.length < (t.chars ++ NUL :: cs).length := by
    unfold Text.length
    simp
  unfold nsplit
  rw [nsplitLoop_eq s.useattr _ _ _ (Nat.le_of_lt hlength), htake]
  dsimp only [bind, Except.bind]
  have hparent : (t.chars.rdropWhile isPlain).length = (parent t).length := rfl
  have hany : (t.chars.rtakeWhile isPlain).any (· ≠ '.') = isName t := rfl
  have hwild : t.chars.rtakeWhile isPlain = (component t).chars := rfl
  rw [hparent, hany, hwild]
  unfold maskOf startOf findattrOf pathOf
  cases isName t with
  | true =>
    simp only [if_true, true_or, true_and]
    rw [read_component]
    dsimp only
    cases adds 0 (component t) s.mask with
    | error f => rfl
    | ok m =>
      cases (component t).chars.any isWild with
      | true => rfl
      | false => rfl
  | false =>
    have hsum := length_parent_add t
    simp only [Bool.false_eq_true, if_false, false_or, false_and]
    by_cases hempty : (component t).chars = []
    . have hzero : (component t).length = 0 := congrArg List.length hempty
      have hstart : (parent t).length = t.length := by omega
      rw [if_neg (by omega), if_pos hempty, if_pos hempty, hstart]
      change (adds 0 star s.mask >>= _) = _
      cases adds 0 star s.mask <;> rfl
    . have hpos : 0 < (component t).length := List.length_pos_iff.mpr hempty
      have hset : (t.chars ++ NUL :: cs).set t.length '\\' = t.chars ++ '\\' :: cs := by
        unfold Text.length
        simp
      rw [if_pos (by omega), if_pos hlength, if_neg hempty, if_neg hempty, hset,
        Text.length_append]
      change (adds 0 star s.mask >>= _) = _
      cases adds 0 star s.mask <;> rfl

/-! Targets that fit. -/

/--
Both arrays have room for what `nsplit` puts there.
-/
structure SplitFits (t : Text) : Prop where
  path : t.length < PATHLEN + 4
  mask : (component t).length < PATHLEN

/--
The position and the mask are made of the target, and `findattr` is chosen, as the last component
asks for.
-/
structure Splits (t : Text) (p : Nat) (mask : Text) (s : State φ) : Prop where
  name : (∃ c ∈ (component t).chars, c ≠ '.') →
    s.path.take p ++ mask.chars = t.chars ∧ mask = component t
      ∧ s.findattr = if '*' ∈ (component t).chars ∨ '?' ∈ (component t).chars then s.useattr
        else ALL_ATTR
  noName : (∀ c ∈ (component t).chars, c = '.') →
    mask = .ofString "*.*" ∧ s.findattr = s.useattr
      ∧ s.path.take p = if (component t).chars = [] then t.chars else t.chars ++ ['\\']
  plain : ∀ c ∈ mask.chars, isSeparator c = false
  ends : ∀ c ∈ (s.path.take p).getLast?, isSeparator c = true

theorem any_isWild (cs : List Char) : cs.any isWild = true ↔ '*' ∈ cs ∨ '?' ∈ cs := by
  simp only [List.any_eq_true, isWild, Bool.or_eq_true, decide_eq_true_eq]
  constructor
  . rintro ⟨c, hc, rfl | rfl⟩
    . exact .inl hc
    . exact .inr hc
  . rintro (h | h)
    . exact ⟨_, h, .inl rfl⟩
    . exact ⟨_, h, .inr rfl⟩

theorem startOf_getLast? (t : Text) : ∀ c ∈ (startOf t).chars.getLast?, isSeparator c = true := by
  have hparent : ∀ c ∈ (parent t).chars.getLast?, isSeparator c = true := by
    intro c hc
    obtain ⟨hne, rfl⟩ := List.mem_getLast?_eq_getLast hc
    have : ¬ isPlain ((parent t).chars.getLast hne) = true :=
      List.rdropWhile_last_not isPlain t.chars hne
    simpa [isPlain] using this
  unfold startOf
  split
  . exact hparent
  . split
    . next hempty =>
      have hchars := congrArg Text.chars (parent_append_component t)
      rw [Text.chars_append, hempty, List.append_nil] at hchars
      rw [← hchars]
      exact hparent
    . intro c hc
      rw [Text.chars_append, show backslash.chars = ['\\'] from rfl, List.getLast?_concat] at hc
      obtain rfl := Option.some.inj hc
      decide

theorem nsplit_spec {t : Text} (hfits : t.length < PATHLEN + 4)
    (hmaskFits : (maskOf t).length < PATHLEN) (s : State φ) (hpath : s.path.length = PATHLEN + 4)
    (hmask : s.mask.length = PATHLEN)
    : ∃ path s', adds 0 t s.path = .ok (t.length, path)
        ∧ nsplit t.length { s with path := path } = .ok ((startOf t).length, s')
        ∧ s' = { s with path := s'.path, mask := s'.mask, findattr := findattrOf s.useattr t }
        ∧ s'.path.length = PATHLEN + 4 ∧ s'.mask.length = PATHLEN
        ∧ (startOf t).chars <+: s'.path ∧ s'.mask.read 0 = .ok (maskOf t) := by
  have hadds : adds 0 t s.path
      = .ok (t.length, t.chars ++ NUL :: s.path.drop (t.length + 1)) := by
    rw [adds_zero, if_pos (hpath ▸ hfits)]
  have haddsMask : adds 0 (maskOf t) s.mask
      = .ok ((maskOf t).length,
        (maskOf t).chars ++ NUL :: s.mask.drop ((maskOf t).length + 1)) := by
    rw [adds_zero, if_pos (hmask ▸ hmaskFits)]
  have hlength (u : Text) {n : Nat} {buf : Buffer} (c : Char) (hbuf : buf.length = n)
      (hu : u.length < n) : (u.chars ++ c :: buf.drop (u.length + 1)).length = n := by
    rw [List.length_append, List.length_cons, List.length_drop, hbuf]
    unfold Text.length at hu ⊢
    omega
  refine ⟨_, { s with
    path := pathOf t (s.path.drop (t.length + 1))
    mask := (maskOf t).chars ++ NUL :: s.mask.drop ((maskOf t).length + 1)
    findattr := findattrOf s.useattr t }, hadds, ?_, rfl, ?_, ?_, ?_, ?_⟩
  . rw [nsplit_eq, haddsMask]
    rfl
  . exact hlength t _ hpath hfits
  . exact hlength (maskOf t) NUL hmask hmaskFits
  . apply startOf_prefix
  . apply Buffer.read_append

/--
The target that is handed to `process`, as it is split up.
-/
theorem nsplit_splits {t : Text} (hfits : SplitFits t) (s : State φ)
    (hpath : s.path.length = PATHLEN + 4) (hmask : s.mask.length = PATHLEN)
    : ∃ path p mask s', adds 0 t s.path = .ok (t.length, path)
        ∧ nsplit t.length { s with path := path } = .ok (p, s')
        ∧ s'.useattr = s.useattr ∧ s'.mask.read 0 = .ok mask ∧ Splits t p mask s' := by
  have hmaskFits : (maskOf t).length < PATHLEN := by
    unfold maskOf
    split
    . exact hfits.mask
    . decide
  obtain ⟨path, s', hadds, hrun, hs', -, -, hprefix, hread⟩ :=
    nsplit_spec hfits.path hmaskFits s hpath hmask
  have htake : s'.path.take (startOf t).length = (startOf t).chars :=
    (List.prefix_iff_eq_take.mp hprefix).symm
  have huseattr : s'.useattr = s.useattr := by rw [hs']
  have hfindattr : s'.findattr = findattrOf s'.useattr t := by
    rw [huseattr, hs']
  refine ⟨path, (startOf t).length, maskOf t, s', hadds, hrun, huseattr, hread, ?_⟩
  have hisName : isName t = true ↔ ∃ c ∈ (component t).chars, c ≠ '.' := by
    simp [isName]
  constructor
  . intro hname
    rw [htake, hfindattr]
    unfold startOf maskOf findattrOf
    rw [if_pos (hisName.mpr hname), if_pos (hisName.mpr hname)]
    refine ⟨congrArg Text.chars (parent_append_component t), rfl, ?_⟩
    by_cases hwild : '*' ∈ (component t).chars ∨ '?' ∈ (component t).chars
    . rw [if_pos hwild, if_neg fun h => Bool.eq_false_iff.mp h.2 ((any_isWild _).mpr hwild)]
    . rw [if_neg hwild, if_pos ⟨hisName.mpr hname, Bool.eq_false_iff.mpr (mt (any_isWild _).mp hwild)⟩]
  . intro hdots
    have hnot : ¬ isName t = true := by
      rw [hisName]
      rintro ⟨c, hc, hne⟩
      exact hne (hdots c hc)
    rw [htake, hfindattr]
    unfold startOf maskOf findattrOf
    rw [if_neg hnot, if_neg hnot, if_neg fun h => hnot h.1]
    refine ⟨rfl, rfl, ?_⟩
    split <;> rfl
  . exact isComponent_maskOf t
  . rw [htake]
    exact startOf_getLast? t

theorem nsplit_splits_dots
    : ∃ path p mask s', adds 0 (.ofString "C:..") (List.replicate (PATHLEN + 4) NUL) = .ok (4, path)
        ∧ nsplit 4 ({ path := path, fi := () } : State Unit) = .ok (p, s')
        ∧ s'.useattr = ALL_FILE ∧ s'.mask.read 0 = .ok mask
        ∧ Splits (.ofString "C:..") p mask s' :=
  nsplit_splits ⟨by decide, by decide⟩ ({ fi := () } : State Unit) List.length_replicate
    List.length_replicate

end Attrib
end Dosix
