/-!
This module contains prefixes of the words of a language, and the place where a word that is not in
the language cannot go on.
-/

namespace ViablePrefix

variable {α : Type}

/--
Some word of the language starts so.
-/
def Viable (L : List α → Prop) (before : List α) : Prop :=
  ∃ more, L (before ++ more)

/--
The word `before ++ rest` is in order up to `rest`, and no word of the language goes on as it does
there.
-/
structure ErrorAt (L : List α → Prop) (before rest : List α) : Prop where
  viable : Viable L before
  stops : ∀ c cs, rest = c :: cs → ¬ Viable L (before ++ [c])
  ends : rest = [] → ¬ L before

variable {L M : List α → Prop} {before rest : List α}

theorem ErrorAt.prepend (h : ErrorAt M before rest) (start : List α)
    (hiff : ∀ xs, L (start ++ xs) ↔ M xs)
    : ErrorAt L (start ++ before) rest where
  viable := by
    obtain ⟨more, hmore⟩ := h.viable
    refine ⟨more, ?_⟩
    rw [List.append_assoc]
    exact (hiff _).mpr hmore
  stops := by
    rintro c cs hrest ⟨more, hmore⟩
    rw [List.append_assoc, List.append_assoc] at hmore
    refine h.stops c cs hrest ⟨more, ?_⟩
    rw [List.append_assoc]
    exact (hiff _).mp hmore
  ends := fun hrest hstart => h.ends hrest ((hiff before).mp hstart)

/--
It need not be for the end of the word, if that is no word of the other language.
-/
theorem ErrorAt.prepend_of_ne_nil (h : ErrorAt M before rest) (start : List α)
    (hiff : ∀ xs, xs ≠ [] → (L (start ++ xs) ↔ M xs)) (hnil : ¬ M []) (hne : before ++ rest ≠ [])
    : ErrorAt L (start ++ before) rest where
  viable := by
    obtain ⟨more, hmore⟩ := h.viable
    refine ⟨more, ?_⟩
    rw [List.append_assoc]
    refine (hiff _ ?_).mpr hmore
    intro heq
    exact hnil (heq ▸ hmore)
  stops := by
    rintro c cs hrest ⟨more, hmore⟩
    rw [List.append_assoc, List.append_assoc] at hmore
    refine h.stops c cs hrest ⟨more, ?_⟩
    rw [List.append_assoc]
    exact (hiff _ (by simp)).mp hmore
  ends := by
    rintro rfl hstart
    rw [List.append_nil] at hne
    exact h.ends rfl ((hiff before hne).mp hstart)

end ViablePrefix
