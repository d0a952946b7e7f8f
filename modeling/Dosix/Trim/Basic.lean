import Mathlib.Data.List.DropRight
import Mathlib.Data.List.TakeWhile

/-!
This module contains the trimming of lists: the blanks at both ends go, and then one pair of quotes.
-/

namespace Trim

variable {α : Type}

def trim (blank : α → Bool) (l : List α) : List α :=
  (l.rdropWhile blank).dropWhile blank

def IsQuoted (quote : α) (l : List α) : Prop :=
  2 ≤ l.length ∧ l.head? = some quote ∧ l.getLast? = some quote

instance [DecidableEq α] (quote : α) (l : List α) : Decidable (IsQuoted quote l) :=
  inferInstanceAs (Decidable (_ ∧ _ ∧ _))

def unquote [DecidableEq α] (quote : α) (l : List α) : List α :=
  if IsQuoted quote l then l.tail.dropLast else l

variable {blank : α → Bool} {l m : List α} {a : α}

@[simp]
theorem trim_nil (blank : α → Bool) : trim blank [] = [] := by
  simp [trim]

theorem trim_concat_blank (l : List α) (h : blank a = true)
    : trim blank (l ++ [a]) = trim blank l := by
  unfold trim
  rw [List.rdropWhile_concat_pos _ _ _ h]

theorem trim_concat (l : List α) (h : blank a = false)
    : trim blank (l ++ [a]) = (l ++ [a]).dropWhile blank := by
  unfold trim
  rw [List.rdropWhile_concat_neg _ _ _ (by simp [h])]

theorem trim_eq_nil_iff : trim blank l = [] ↔ ∀ a ∈ l, blank a = true := by
  unfold trim
  rw [List.dropWhile_eq_nil_iff]
  constructor
  . intro h
    by_contra hne
    rw [← List.rdropWhile_eq_nil_iff] at hne
    exact List.rdropWhile_last_not blank l hne (h _ (List.getLast_mem hne))
  . intro h a ha
    exact h a ((List.rdropWhile_prefix blank l).subset ha)

/-! What trimming leaves. -/

/--
Neither end is blank.
-/
def Tight (blank : α → Bool) (l : List α) : Prop :=
  (∀ a ∈ l.head?, blank a = false) ∧ ∀ a ∈ l.getLast?, blank a = false

theorem tight_trim (blank : α → Bool) (l : List α) : Tight blank (trim blank l) := by
  constructor
  . intro a ha
    have hhead := List.head?_dropWhile_not blank (l.rdropWhile blank)
    rw [show ((l.rdropWhile blank).dropWhile blank).head? = some a from ha] at hhead
    exact hhead
  . intro a ha
    obtain ⟨b, hb⟩ := List.dropWhile_suffix (l := l.rdropWhile blank) blank
    have hlast : a ∈ (l.rdropWhile blank).getLast? := by
      rw [← hb, List.getLast?_append,
        show ((l.rdropWhile blank).dropWhile blank).getLast? = some a from ha]
      rfl
    obtain ⟨hne, rfl⟩ := List.mem_getLast?_eq_getLast hlast
    simpa using List.rdropWhile_last_not blank l hne

theorem exists_append_trim (blank : α → Bool) (l : List α)
    : ∃ a b, (∀ x ∈ a, blank x = true) ∧ (∀ x ∈ b, blank x = true)
        ∧ l = a ++ trim blank l ++ b := by
  refine ⟨(l.rdropWhile blank).takeWhile blank, l.rtakeWhile blank,
    fun _ => List.mem_takeWhile_imp, fun _ => List.mem_rtakeWhile_imp, ?_⟩
  unfold trim
  rw [List.takeWhile_append_dropWhile, List.rdropWhile_append_rtakeWhile]

theorem trim_subset (blank : α → Bool) (l : List α) : trim blank l ⊆ l := by
  intro a ha
  obtain ⟨_, _, -, -, hl⟩ := exists_append_trim blank l
  rw [hl]
  simp [ha]

theorem rdropWhile_append_of_all {b : List α} (hb : ∀ a ∈ b, blank a = true)
    : (l ++ b).rdropWhile blank = l.rdropWhile blank := by
  unfold List.rdropWhile
  rw [List.reverse_append, List.dropWhile_append_of_pos]
  intro a ha
  exact hb a (List.mem_reverse.mp ha)

theorem trim_append_of_tight {a b : List α} (ha : ∀ x ∈ a, blank x = true)
    (hb : ∀ x ∈ b, blank x = true) (hm : Tight blank m)
    : trim blank (a ++ m ++ b) = m := by
  unfold trim
  rw [rdropWhile_append_of_all hb]
  by_cases hne : m = []
  . subst hne
    rw [List.append_nil, List.rdropWhile_eq_nil_iff.mpr ha, List.dropWhile_nil]
  . have hlast : (a ++ m).rdropWhile blank = a ++ m := by
      rw [List.rdropWhile_eq_self_iff]
      intro hne'
      rw [List.getLast_append_of_ne_nil hne' hne]
      simp [hm.2 _ (List.getLast?_eq_getLast_of_ne_nil hne)]
    rw [hlast, List.dropWhile_append_of_pos ha]
    obtain ⟨x, m, rfl⟩ := List.exists_cons_of_ne_nil hne
    rw [List.dropWhile_cons_of_neg (by simp [hm.1 x rfl])]

theorem trim_map {β : Type} {blank' : β → Bool} {f : α → β} (hf : ∀ a, blank' (f a) = blank a)
    (l : List α) : trim blank' (l.map f) = (trim blank l).map f := by
  have hcomp : blank' ∘ f = blank := funext hf
  unfold trim List.rdropWhile
  rw [← List.map_reverse, List.dropWhile_map, hcomp, ← List.map_reverse, List.dropWhile_map, hcomp]

/-! Quotes. -/

section

variable {quote : α}

theorem isQuoted_iff : IsQuoted quote l ↔ ∃ t, l = quote :: (t ++ [quote]) := by
  constructor
  . rintro ⟨hlength, hhead, hlast⟩
    obtain ⟨m, rfl⟩ : ∃ m, l = quote :: m := by
      cases l with
      | nil => cases hhead
      | cons a m => exact ⟨m, by rw [Option.some.inj hhead]⟩
    have hne : m ≠ [] := by
      rintro rfl
      simp at hlength
    refine ⟨m.dropLast, ?_⟩
    rw [List.getLast?_cons_of_ne_nil hne, List.getLast?_eq_getLast_of_ne_nil hne] at hlast
    rw [← Option.some.inj hlast, List.dropLast_append_getLast hne]
  . rintro ⟨t, rfl⟩
    exact ⟨by simp, rfl, List.getLast?_concat (l := quote :: t)⟩

variable [DecidableEq α] {t : List α}

theorem unquote_quoted (quote : α) (t : List α) : unquote quote (quote :: (t ++ [quote])) = t := by
  unfold unquote
  rw [if_pos (isQuoted_iff.mpr ⟨t, rfl⟩), List.tail_cons, List.dropLast_concat]

theorem unquote_of_length_lt (h : l.length < 2) : unquote quote l = l :=
  if_neg fun hquoted => Nat.not_le_of_lt h hquoted.1

/--
Either there is nothing to take off, or a pair of quotes.
-/
theorem unquote_cases (quote : α) (l : List α)
    : unquote quote l = l ∨ l = quote :: (unquote quote l ++ [quote]) := by
  by_cases h : IsQuoted quote l
  . obtain ⟨t, rfl⟩ := isQuoted_iff.mp h
    rw [unquote_quoted]
    exact .inr rfl
  . exact .inl (if_neg h)

theorem unquote_subset (quote : α) (l : List α) : unquote quote l ⊆ l := by
  intro a ha
  rcases unquote_cases quote l with h | h
  . rwa [h] at ha
  . rw [h]
    simp [ha]

theorem length_unquote_le (quote : α) (l : List α) : (unquote quote l).length ≤ l.length := by
  rcases unquote_cases quote l with h | h
  . rw [h]
  . rw [congrArg List.length h, List.length_cons, List.length_append]
    omega

theorem length_le_unquote (quote : α) (l : List α) : l.length ≤ (unquote quote l).length + 2 := by
  rcases unquote_cases quote l with h | h
  . rw [h]
    exact Nat.le_add_right _ _
  . rw [congrArg List.length h, List.length_cons, List.length_append]
    rfl

theorem unquote_map {f : α → α} (hf : ∀ a, f a = quote ↔ a = quote) (l : List α)
    : unquote quote (l.map f) = (unquote quote l).map f := by
  have hquote (o : Option α) : o.map f = some quote ↔ o = some quote := by
    cases o with
    | none => simp
    | some a => simp [hf]
  have hquoted : IsQuoted quote (l.map f) ↔ IsQuoted quote l := by
    unfold IsQuoted
    rw [List.length_map, List.head?_map, List.getLast?_map, hquote, hquote]
  unfold unquote
  by_cases h : IsQuoted quote l
  . rw [if_pos h, if_pos (hquoted.mpr h), List.map_dropLast, List.map_tail]
  . rw [if_neg h, if_neg (mt hquoted.mp h)]

end

end Trim
