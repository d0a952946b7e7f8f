import Dosix.Trim.Basic
import Mathlib.Data.List.Basic

/-!
This module contains the trimming of texts that come in pieces: when what trimming leaves of the
pieces is what it leaves of the texts.
-/

namespace Trim

section

variable {α : Type} {blank : α → Bool} {l m : List α}

theorem trim_append_of_blank (hl : trim blank l = []) : trim blank (l ++ m) = trim blank m := by
  obtain ⟨a, b, ha, hb, hm⟩ := exists_append_trim blank m
  rw [trim_eq_nil_iff] at hl
  have hblank : ∀ x ∈ l ++ a, blank x = true := by
    intro x hx
    rcases List.mem_append.mp hx with hx | hx
    . exact hl x hx
    . exact ha x hx
  have htrim := trim_append_of_tight hblank hb (tight_trim blank m)
  rwa [List.append_assoc l, List.append_assoc l, ← hm] at htrim

theorem trim_append_blank (hm : trim blank m = []) : trim blank (l ++ m) = trim blank l := by
  obtain ⟨a, b, ha, hb, hl⟩ := exists_append_trim blank l
  rw [trim_eq_nil_iff] at hm
  have hblank : ∀ x ∈ b ++ m, blank x = true := by
    intro x hx
    rcases List.mem_append.mp hx with hx | hx
    . exact hb x hx
    . exact hm x hx
  have htrim := trim_append_of_tight ha hblank (tight_trim blank l)
  rwa [← List.append_assoc, ← hl] at htrim

theorem trim_append (hl : trim blank l ≠ []) (hm : trim blank m ≠ [])
    : ∃ b, (∀ x ∈ b, blank x = true)
        ∧ trim blank (l ++ m) = trim blank l ++ b ++ trim blank m := by
  obtain ⟨a, b, ha, hb, hl'⟩ := exists_append_trim blank l
  obtain ⟨c, d, hc, hd, hm'⟩ := exists_append_trim blank m
  refine ⟨b ++ c, ?_, ?_⟩
  . intro x hx
    rcases List.mem_append.mp hx with hx | hx
    . exact hb x hx
    . exact hc x hx
  have htight : Tight blank (trim blank l ++ (b ++ c) ++ trim blank m) := by
    constructor
    . intro x hx
      rw [List.append_assoc, List.head?_append_of_ne_nil _ hl] at hx
      exact (tight_trim blank l).1 x hx
    . intro x hx
      rw [List.getLast?_append_of_ne_nil _ hm] at hx
      exact (tight_trim blank m).2 x hx
  have htrim := trim_append_of_tight ha hd htight
  have hlist : a ++ (trim blank l ++ (b ++ c) ++ trim blank m) ++ d = l ++ m := by
    rw [congrArg (· ++ m) hl', congrArg (a ++ trim blank l ++ b ++ ·) hm']
    simp only [List.append_assoc]
  rwa [hlist] at htrim

/--
A text whose parts these are, with blanks between them.
-/
inductive Joined (blank : α → Bool) : List (List α) → List α → Prop where
  | nil : Joined blank [] []
  | single (m : List α) : Joined blank [m] m
  | cons (m b : List α) {n : List α} {ms : List (List α)} {l : List α}
      (hb : ∀ a ∈ b, blank a = true) (hrest : Joined blank (n :: ms) l)
      : Joined blank (m :: n :: ms) (m ++ b ++ l)

/--
What is left of the pieces that are not blank.
-/
def parts [DecidableEq α] (blank : α → Bool) (pieces : List (List α)) : List (List α) :=
  (pieces.map (trim blank)).filter (· ≠ [])

variable [DecidableEq α]

theorem parts_cons (blank : α → Bool) (l : List α) (pieces : List (List α))
    : parts blank (l :: pieces)
        = if trim blank l = [] then parts blank pieces
          else trim blank l :: parts blank pieces := by
  unfold parts
  rw [List.map_cons, List.filter_cons]
  simp

theorem parts_eq_nil_iff {pieces : List (List α)}
    : parts blank pieces = [] ↔ trim blank pieces.flatten = [] := by
  simp only [parts, List.filter_eq_nil_iff, List.mem_map, trim_eq_nil_iff, List.mem_flatten,
    decide_not, Bool.not_eq_eq_eq_not, Bool.not_true, decide_eq_false_iff_not, not_not,
    forall_exists_index, and_imp, forall_apply_eq_imp_iff₂]
  exact ⟨fun h a l hl ha => h l hl a ha, fun h l hl a ha => h a l hl ha⟩

theorem joined_parts (blank : α → Bool) (pieces : List (List α))
    : Joined blank (parts blank pieces) (trim blank pieces.flatten) := by
  induction pieces with
  | nil =>
    rw [List.flatten_nil, trim_nil]
    exact .nil
  | cons l pieces ih =>
    rw [parts_cons, List.flatten_cons]
    by_cases hl : trim blank l = []
    . rw [if_pos hl, trim_append_of_blank hl]
      exact ih
    rw [if_neg hl]
    cases hparts : parts blank pieces with
    | nil =>
      rw [trim_append_blank (parts_eq_nil_iff.mp hparts)]
      exact .single _
    | cons m ms =>
      rw [hparts] at ih
      have hne : trim blank pieces.flatten ≠ [] :=
        mt parts_eq_nil_iff.mpr (hparts ▸ List.cons_ne_nil m ms)
      obtain ⟨b, hb, htrim⟩ := trim_append hl hne
      rw [htrim]
      exact .cons _ b hb ih

theorem mem_parts {pieces : List (List α)} (hm : m ∈ parts blank pieces)
    : m ≠ [] ∧ Tight blank m := by
  simp only [parts, List.mem_filter, List.mem_map, decide_eq_true_eq] at hm
  obtain ⟨⟨l, -, rfl⟩, hne⟩ := hm
  exact ⟨hne, tight_trim blank l⟩

namespace Joined

variable {ms : List (List α)}

omit [DecidableEq α]

theorem sublist (h : Joined blank ms l) : ms.flatten.Sublist l := by
  induction h with
  | nil => exact .refl _
  | single m => simp
  | cons m b _ _ ih =>
    rw [List.flatten_cons]
    exact (List.sublist_append_left m b).append ih

theorem blank_or_mem (h : Joined blank ms l) {a : α} (ha : a ∈ l)
    : blank a = true ∨ ∃ m ∈ ms, a ∈ m := by
  induction h with
  | nil => cases ha
  | single m => exact .inr ⟨m, by simp, ha⟩
  | cons m b hb _ ih =>
    simp only [List.mem_append, or_assoc] at ha
    rcases ha with ha | ha | ha
    . exact .inr ⟨m, by simp, ha⟩
    . exact .inl (hb a ha)
    . exact (ih ha).imp_right fun ⟨n, hn, ha⟩ => ⟨n, .tail _ hn, ha⟩

theorem two {n : List α} (h : Joined blank [m, n] l)
    : ∃ b, (∀ a ∈ b, blank a = true) ∧ l = m ++ b ++ n := by
  cases h with
  | cons _ b hb hrest =>
    cases hrest with
    | single => exact ⟨b, hb, rfl⟩

theorem append_of_length_le {n : List α} (h : Joined blank [m, n] l)
    (hle : l.length ≤ m.length + n.length) : l = m ++ n := by
  obtain ⟨b, -, rfl⟩ := h.two
  rw [List.length_append, List.length_append] at hle
  obtain rfl : b = [] := List.length_eq_zero_iff.mp (by omega)
  rw [List.append_nil]

end Joined

end

/-! Quotes. -/

section

variable {α : Type} [DecidableEq α] (blank : α → Bool) (quote : α)

/--
What trimming leaves of the pieces, but for those of which it leaves nothing.
-/
def texts (pieces : List (List α)) : List (List α) :=
  (pieces.map fun l => unquote quote (trim blank l)).filter (· ≠ [])

/--
No text is split, but for three quotes, which leave one of them either way.
-/
def Whole (pieces : List (List α)) : Prop :=
  (parts blank pieces).length ≤ 1
    ∨ (parts blank pieces).length = 2 ∧ trim blank pieces.flatten = [quote, quote, quote]

def hasOther (l : List α) : Bool :=
  l.any fun a => !blank a && a ≠ quote

variable {blank quote} {l m t : List α} {pieces : List (List α)}

theorem texts_eq (blank : α → Bool) (quote : α) (pieces : List (List α))
    : texts blank quote pieces
        = ((parts blank pieces).map (unquote quote)).filter (· ≠ []) := by
  induction pieces with
  | nil => rfl
  | cons l pieces ih =>
    rw [parts_cons]
    unfold texts at ih ⊢
    rw [List.map_cons, List.filter_cons, ih]
    by_cases hl : trim blank l = []
    . rw [if_pos hl, hl, if_neg]
      simp [unquote_of_length_lt]
    . rw [if_neg hl, List.map_cons, List.filter_cons]

theorem texts_append (blank : α → Bool) (quote : α) (pieces pieces' : List (List α))
    : texts blank quote (pieces ++ pieces')
        = texts blank quote pieces ++ texts blank quote pieces' := by
  unfold texts
  rw [List.map_append, List.filter_append]

theorem texts_flatMap {β : Type} (blank : α → Bool) (quote : α) (f : β → List (List α))
    (l : List β)
    : texts blank quote (l.flatMap f) = l.flatMap fun b => texts blank quote (f b) := by
  induction l with
  | nil => rfl
  | cons b l ih => rw [List.flatMap_cons, List.flatMap_cons, texts_append, ih]

section

variable {f : α → α} (hblank : ∀ a, blank (f a) = blank a) (hquote : ∀ a, f a = quote ↔ a = quote)
  (pieces : List (List α))

include hblank

theorem parts_map
    : parts blank (pieces.map (List.map f)) = (parts blank pieces).map (List.map f) := by
  induction pieces with
  | nil => rfl
  | cons l pieces ih =>
    rw [List.map_cons, parts_cons, parts_cons, ih, trim_map hblank]
    simp only [List.map_eq_nil_iff]
    split
    . rfl
    . rw [List.map_cons]

include hquote

theorem texts_map : texts blank quote (pieces.map (List.map f))
    = (texts blank quote pieces).map (List.map f) := by
  have hne : (fun t : List α => decide (t ≠ [])) ∘ List.map f = fun t => decide (t ≠ []) := by
    funext t
    simp
  have hunquote : unquote quote ∘ List.map f = List.map f ∘ unquote quote := by
    funext l
    exact unquote_map hquote l
  rw [texts_eq, texts_eq, parts_map hblank, List.map_map, hunquote, ← List.map_map, List.filter_map,
    hne]

theorem whole_map : Whole blank quote (pieces.map (List.map f)) ↔ Whole blank quote pieces := by
  have hthree (l : List α) : l.map f = [quote, quote, quote] ↔ l = [quote, quote, quote] := by
    match l with
    | [] | [_] | [_, _] => simp
    | [a, b, c] => simp [hquote]
    | a :: b :: c :: d :: l => simp
  unfold Whole
  rw [parts_map hblank, List.length_map, ← List.map_flatten, trim_map hblank, hthree]

end

omit [DecidableEq α] in
/--
Three quotes in two parts, as one and two of them or the other way round.
-/
theorem three_quotes {m n b : List α} (hquote : blank quote = false) (hm : m ≠ []) (hn : n ≠ [])
    (hb : ∀ a ∈ b, blank a = true) (h : m ++ b ++ n = [quote, quote, quote])
    : m = [quote] ∧ n = [quote, quote] ∨ m = [quote, quote] ∧ n = [quote] := by
  have hall : ∀ a ∈ m ++ b ++ n, a = quote := by simp [h]
  have hnone : b = [] := by
    rw [List.eq_nil_iff_forall_not_mem]
    intro a ha
    have := hall a (by simp [ha])
    rw [← this, hb a ha] at hquote
    cases hquote
  subst hnone
  rw [List.append_nil] at h
  match m, n with
  | [], _ => exact absurd rfl hm
  | _, [] => exact absurd rfl hn
  | [a], c :: n => simp_all
  | [a, b], c :: n => simp_all
  | a :: b :: c :: m, d :: n => simp_all

theorem texts_of_whole (hquote : blank quote = false) (h : Whole blank quote pieces)
    : texts blank quote pieces = texts blank quote [pieces.flatten] := by
  have hjoined := joined_parts blank pieces
  have hmem (m : List α) (hm : m ∈ parts blank pieces) := mem_parts hm
  have hparts : parts blank [pieces.flatten]
      = if trim blank pieces.flatten = [] then [] else [trim blank pieces.flatten] :=
    parts_cons blank _ []
  unfold Whole at h
  rw [texts_eq, texts_eq, hparts]
  generalize parts blank pieces = ms at *
  generalize trim blank pieces.flatten = l at *
  cases hjoined with
  | nil => rw [if_pos rfl]
  | single => rw [if_neg (hmem l (by simp)).1]
  | @cons m b n ms l hb hrest =>
    rcases h with hlength | ⟨hlength, hthree⟩
    . simp at hlength
    . obtain rfl : ms = [] := by simpa using hlength
      have hjoined := Joined.cons m b hb hrest
      obtain ⟨b', hb', hl⟩ := hjoined.two
      rw [hl] at hthree
      have hm := (hmem m (by simp)).1
      have hn := (hmem n (by simp)).1
      rw [hl, hthree]
      have hone : unquote quote [quote] = [quote] := unquote_of_length_lt (by simp)
      have htwo : unquote quote [quote, quote] = [] := unquote_quoted quote []
      have hthree' : unquote quote [quote, quote, quote] = [quote] := unquote_quoted quote [quote]
      rcases three_quotes hquote hm hn hb' hthree with ⟨rfl, rfl⟩ | ⟨rfl, rfl⟩
      . simp [hone, htwo, hthree']
      . simp [hone, htwo, hthree']

theorem mem_texts : t ∈ texts blank quote pieces
    ↔ (∃ m ∈ parts blank pieces, unquote quote m = t) ∧ t ≠ [] := by
  rw [texts_eq, List.mem_filter, List.mem_map, decide_eq_true_eq]

theorem mem_texts_single : t ∈ texts blank quote [l]
    ↔ unquote quote (trim blank l) = t ∧ t ≠ [] := by
  simp only [texts, List.map_cons, List.map_nil, List.mem_filter, List.mem_singleton,
    decide_eq_true_eq]
  exact and_congr_left' eq_comm

theorem hasOther_unquote (blank : α → Bool) (quote : α) (l : List α)
    : hasOther blank quote (unquote quote l) = hasOther blank quote l := by
  rcases unquote_cases quote l with h | h
  . rw [h]
  . rw [congrArg (hasOther blank quote) h]
    simp [hasOther]

theorem hasOther_trim : hasOther blank quote (trim blank pieces.flatten) = true
    ↔ ∃ m ∈ parts blank pieces, hasOther blank quote m = true := by
  have hjoined := joined_parts blank pieces
  simp only [hasOther, List.any_eq_true]
  constructor
  . rintro ⟨a, ha, hother⟩
    rcases hjoined.blank_or_mem ha with hblank | ⟨m, hm, ham⟩
    . simp [hblank] at hother
    . exact ⟨m, hm, a, ham, hother⟩
  . rintro ⟨m, hm, a, ha, hother⟩
    exact ⟨a, hjoined.sublist.subset (List.mem_flatten.mpr ⟨m, hm, ha⟩), hother⟩

/--
Quotes and blanks, with quotes at both ends.
-/
theorem quotes_of_tight (hne : m ≠ []) (htight : Tight blank m)
    (hother : hasOther blank quote m = false)
    : m = [quote] ∨ ∃ t, m = quote :: (t ++ [quote]) := by
  have hquote {a : α} (ha : a ∈ m) (hblank : blank a = false) : a = quote := by
    simp only [hasOther, List.any_eq_false] at hother
    simpa [hblank] using hother a ha
  obtain ⟨a, m', rfl⟩ := List.exists_cons_of_ne_nil hne
  obtain rfl : a = quote := hquote (by simp) (htight.1 a rfl)
  by_cases hm' : m' = []
  . exact .inl (by rw [hm'])
  . have hlast : (a :: m').getLast? = some (m'.getLast hm') := by
      rw [List.getLast?_cons_of_ne_nil hm', List.getLast?_eq_getLast_of_ne_nil hm']
    have hend : m'.getLast hm' = a :=
      hquote (.tail _ (List.getLast_mem hm')) (htight.2 _ hlast)
    refine .inr ⟨m'.dropLast, ?_⟩
    rw [← congrArg (fun x => m'.dropLast ++ [x]) hend, List.dropLast_append_getLast hm']

/-! Texts that are split. -/

theorem length_texts_single (l : List α) : (texts blank quote [l]).length ≤ 1 :=
  List.length_filter_le _ _

theorem filter_texts_le {p : List α → Bool}
    (h : ∀ t ∈ texts blank quote [l], p t = true → ∃ t' ∈ texts blank quote pieces, p t' = true)
    : ((texts blank quote [l]).filter p).length ≤ ((texts blank quote pieces).filter p).length := by
  cases hfilter : (texts blank quote [l]).filter p with
  | nil => exact Nat.zero_le _
  | cons t ts =>
    obtain ⟨ht, hp⟩ := List.mem_filter.mp (hfilter ▸ List.mem_cons_self : t ∈ List.filter p _)
    obtain ⟨t', ht', hp'⟩ := h t ht hp
    rw [← hfilter]
    calc _ ≤ (texts blank quote [l]).length := List.length_filter_le _ _
      _ ≤ 1 := length_texts_single l
      _ ≤ _ := List.length_pos_of_mem (List.mem_filter.mpr ⟨ht', hp'⟩)

theorem filter_hasOther_le (blank : α → Bool) (quote : α) (pieces : List (List α))
    : ((texts blank quote [pieces.flatten]).filter (hasOther blank quote)).length
        ≤ ((texts blank quote pieces).filter (hasOther blank quote)).length := by
  apply filter_texts_le
  intro t ht hother
  obtain ⟨rfl, -⟩ := mem_texts_single.mp ht
  rw [hasOther_unquote, hasOther_trim] at hother
  obtain ⟨m, hm, hother⟩ := hother
  rw [← hasOther_unquote] at hother
  refine ⟨unquote quote m, mem_texts.mpr ⟨⟨m, hm, rfl⟩, ?_⟩, hother⟩
  intro hnil
  rw [hnil] at hother
  cases hother

/--
The parts of a text of so many characters, of which there are at least two.
-/
theorem split_length (h : ¬ Whole blank quote pieces)
    : ∃ m n ms, parts blank pieces = m :: n :: ms ∧ 1 ≤ m.length ∧ 1 ≤ n.length
        ∧ m.length + n.length + ms.flatten.length ≤ (trim blank pieces.flatten).length
        ∧ (ms = [] → trim blank pieces.flatten ≠ [quote, quote, quote]) := by
  have hsub := (joined_parts blank pieces).sublist.length_le
  have hmem (m : List α) (hm : m ∈ parts blank pieces) := (mem_parts hm).1
  unfold Whole at h
  match hparts : parts blank pieces with
  | [] => simp [hparts] at h
  | [_] => simp [hparts] at h
  | m :: n :: ms =>
    rw [hparts] at hsub hmem h
    refine ⟨m, n, ms, rfl, List.length_pos_iff.mpr (hmem m (by simp)),
      List.length_pos_iff.mpr (hmem n (by simp)), ?_, ?_⟩
    . rw [List.flatten_cons, List.flatten_cons, List.length_append, List.length_append] at hsub
      omega
    . rintro rfl hthree
      exact h (.inr ⟨rfl, hthree⟩)

theorem parts_of_quote (h : ¬ Whole blank quote pieces)
    (hone : unquote quote (trim blank pieces.flatten) = [quote])
    : ∃ ms, parts blank pieces = [quote] :: [quote] :: ms := by
  obtain ⟨m, n, ms, hparts, hm, hn, hlength, hthree⟩ := split_length h
  have hsub := (joined_parts blank pieces).sublist
  rw [hparts] at hsub
  rcases unquote_cases quote (trim blank pieces.flatten) with htrim | htrim
  . rw [← htrim, hone, List.length_singleton] at hlength
    omega
  rw [hone] at htrim
  have hms : ms ≠ [] := fun hms => hthree hms htrim
  obtain ⟨k, ms, rfl⟩ := List.exists_cons_of_ne_nil hms
  have hk : 1 ≤ k.length := List.length_pos_iff.mpr (mem_parts (by rw [hparts]; simp)).1
  rw [htrim, List.flatten_cons, List.length_append] at hlength
  simp only [List.length_cons, List.length_append, List.length_nil] at hlength
  have hall {l : List α} (hl : l ∈ m :: n :: k :: ms) (hlen : l.length = 1) : l = [quote] := by
    obtain ⟨a, rfl⟩ := List.length_eq_one_iff.mp hlen
    have ha := hsub.subset (List.mem_flatten.mpr ⟨_, hl, List.mem_singleton_self a⟩)
    rw [htrim] at ha
    simp only [List.singleton_append, List.mem_cons, List.not_mem_nil, or_false, or_self] at ha
    rw [ha]
  refine ⟨k :: ms, ?_⟩
  rw [hparts, hall (by simp) (show m.length = 1 by omega),
    hall (l := n) (by simp) (by omega)]

theorem filter_quote_le (hquote : blank quote = false) (pieces : List (List α))
    : ((texts blank quote [pieces.flatten]).filter (· = [quote])).length
        ≤ ((texts blank quote pieces).filter (· = [quote])).length := by
  by_cases hwhole : Whole blank quote pieces
  . rw [texts_of_whole hquote hwhole]
  apply filter_texts_le
  intro t ht hone
  rw [decide_eq_true_eq] at hone
  subst hone
  obtain ⟨ms, hparts⟩ := parts_of_quote hwhole (mem_texts_single.mp ht).1
  refine ⟨[quote], mem_texts.mpr ⟨⟨[quote], ?_, ?_⟩, by simp⟩, by simp⟩
  . rw [hparts]
    exact List.mem_cons_self
  . exact unquote_of_length_lt (by simp)

/--
A part without anything else is in quotes, if it is not a quote by itself.
-/
theorem part_quoted (hm : m ∈ parts blank pieces) (hother : hasOther blank quote m = false)
    (hne : unquote quote m ≠ [quote]) : ∃ t, m = quote :: (t ++ [quote]) := by
  obtain ⟨hnil, htight⟩ := mem_parts hm
  refine (quotes_of_tight hnil htight hother).resolve_left ?_
  rintro rfl
  exact hne (unquote_of_length_lt (by simp))

theorem flatten_texts (blank : α → Bool) (quote : α) (pieces : List (List α))
    : (texts blank quote pieces).flatten
        = ((parts blank pieces).map (unquote quote)).flatten := by
  rw [texts_eq, List.flatten_filter_ne_nil]

theorem flatten_texts_single (blank : α → Bool) (quote : α) (l : List α)
    : (texts blank quote [l]).flatten = unquote quote (trim blank l) := by
  unfold texts
  rw [List.flatten_filter_ne_nil]
  simp

theorem length_flatten_unquote_le (quote : α) (ms : List (List α))
    : (ms.map (unquote quote)).flatten.length ≤ ms.flatten.length := by
  induction ms with
  | nil => exact Nat.le_refl _
  | cons m ms ih =>
    rw [List.map_cons, List.flatten_cons, List.flatten_cons, List.length_append,
      List.length_append]
    exact Nat.add_le_add (length_unquote_le quote m) ih

omit [DecidableEq α] in
theorem all_quotes {t : List α} (h : quote :: t = t ++ [quote]) : ∀ a ∈ t, a = quote := by
  induction t with
  | nil => simp
  | cons x t ih =>
    rw [List.cons_append, List.cons.injEq] at h
    obtain ⟨rfl, h⟩ := h
    intro a ha
    rcases List.mem_cons.mp ha with rfl | ha
    . rfl
    . exact ih h a ha

/--
Two quotes behind or before a text make it another one, unless it consists of quotes.
-/
theorem all_quotes_of_unquote (hl : l = m ++ [quote, quote] ∨ l = [quote, quote] ++ m)
    (h : unquote quote m = unquote quote l) : ∀ a ∈ m, a = quote := by
  have hlength : l.length = m.length + 2 := by
    rcases hl with rfl | rfl
    . simp
    . simp
  have hle := length_unquote_le quote m
  rcases unquote_cases quote l with hsame | hquoted
  . rw [h, hsame] at hle
    omega
  have hmlength := congrArg List.length hquoted
  rw [← h, List.length_cons, List.length_append, List.length_singleton, hlength] at hmlength
  have hm : unquote quote m = m := by
    rcases unquote_cases quote m with hm | hm
    . exact hm
    . have := congrArg List.length hm
      rw [List.length_cons, List.length_append] at this
      omega
  rw [← h, hm] at hquoted
  apply all_quotes
  rcases hl with hl | hl
  . rw [hl, ← List.cons_append] at hquoted
    have hcancel : (quote :: m) ++ [quote] = (m ++ [quote]) ++ [quote] := by simpa using hquoted.symm
    exact List.append_cancel_right hcancel
  . exact (List.cons.inj (hl.symm.trans hquoted)).2

theorem filter_hasOther_texts (blank : α → Bool) (quote : α) (pieces : List (List α))
    : (texts blank quote pieces).filter (hasOther blank quote)
        = ((parts blank pieces).filter (hasOther blank quote)).map (unquote quote) := by
  rw [texts_eq, List.filter_filter, List.filter_map]
  congr 1
  apply List.filter_congr
  intro m _
  rw [Function.comp_apply, hasOther_unquote]
  cases hother : hasOther blank quote m with
  | false => rfl
  | true =>
    rw [Bool.true_and, decide_eq_true_eq]
    intro hnil
    rw [← hasOther_unquote, hnil] at hother
    cases hother

section

variable (hsplit : ¬ Whole blank quote pieces)
  (hlone : (texts blank quote pieces).filter (· = [quote])
    = (texts blank quote [pieces.flatten]).filter (· = [quote]))

include hsplit hlone

theorem unquote_trim_ne : unquote quote (trim blank pieces.flatten) ≠ [quote] := by
  intro hone
  obtain ⟨ms, hparts⟩ := parts_of_quote hsplit hone
  have hunquote : unquote quote [quote] = [quote] := unquote_of_length_lt (by simp)
  have hle : ((texts blank quote [pieces.flatten]).filter (· = [quote])).length ≤ 1 :=
    (List.length_filter_le _ _).trans (length_texts_single _)
  rw [← hlone, texts_eq, hparts] at hle
  simp [hunquote] at hle

theorem unquote_parts_ne {m : List α} (hm : m ∈ parts blank pieces)
    : unquote quote m ≠ [quote] := by
  intro hone
  have hmem : [quote] ∈ (texts blank quote pieces).filter (· = [quote]) :=
    List.mem_filter.mpr ⟨mem_texts.mpr ⟨⟨m, hm, hone⟩, by simp⟩, by simp⟩
  rw [hlone, List.mem_filter, mem_texts_single] at hmem
  exact unquote_trim_ne hsplit hlone hmem.1.1

/--
Quotes that are split lose more of them.
-/
theorem length_lt_of_quotes (hother : hasOther blank quote (trim blank pieces.flatten) = false)
    : (texts blank quote pieces).flatten.length
        < (unquote quote (trim blank pieces.flatten)).length := by
  obtain ⟨m, n, ms, hparts, -, -, hlength, -⟩ := split_length hsplit
  have hquotes {m : List α} (hm : m ∈ parts blank pieces)
      : (unquote quote m).length + 2 = m.length := by
    have hmother : hasOther blank quote m = false := by
      rw [← Bool.not_eq_true]
      intro hm'
      rw [hasOther_trim.mpr ⟨m, hm, hm'⟩] at hother
      cases hother
    obtain ⟨t, rfl⟩ := part_quoted hm hmother (unquote_parts_ne hsplit hlone hm)
    rw [unquote_quoted]
    simp
  have hm := hquotes (m := m) (by simp [hparts])
  have hn := hquotes (m := n) (by simp [hparts])
  have hms := length_flatten_unquote_le quote ms
  have htrim := length_le_unquote quote (trim blank pieces.flatten)
  rw [flatten_texts, hparts, List.map_cons, List.map_cons, List.flatten_cons, List.flatten_cons,
    List.length_append, List.length_append]
  omega

/--
The part that makes the same text as the whole, and what the other parts are like.
-/
theorem exists_part (hother : hasOther blank quote (trim blank pieces.flatten) = true)
    (hothers : (texts blank quote pieces).filter (hasOther blank quote)
      = (texts blank quote [pieces.flatten]).filter (hasOther blank quote))
    : ∃ as m bs, parts blank pieces = as ++ m :: bs ∧ hasOther blank quote m = true
        ∧ unquote quote m = unquote quote (trim blank pieces.flatten)
        ∧ ∀ n, n ∈ as ∨ n ∈ bs → ∃ t, n = quote :: (t ++ [quote]) := by
  obtain ⟨m, hm, hunquote⟩ : ∃ m ∈ parts blank pieces,
      unquote quote m = unquote quote (trim blank pieces.flatten) := by
    have hne : unquote quote (trim blank pieces.flatten) ≠ [] := by
      intro hnil
      rw [← hasOther_unquote, hnil] at hother
      cases hother
    have hmem := List.mem_filter.mpr ⟨mem_texts_single.mpr ⟨rfl, hne⟩,
      (hasOther_unquote blank quote _).trans hother⟩
    rw [← hothers, List.mem_filter, mem_texts] at hmem
    exact hmem.1.1
  have hmother : hasOther blank quote m = true := by
    rw [← hasOther_unquote, hunquote, hasOther_unquote]
    exact hother
  have hone : ((parts blank pieces).filter (hasOther blank quote)).length ≤ 1 := by
    rw [← List.length_map (unquote quote), ← filter_hasOther_texts, hothers]
    exact (List.length_filter_le _ _).trans (length_texts_single _)
  obtain ⟨as, bs, hparts⟩ := List.append_of_mem hm
  refine ⟨as, m, bs, hparts, hmother, hunquote, ?_⟩
  intro n hn
  rw [hparts, List.filter_append, List.filter_cons_of_pos hmother, List.length_append,
    List.length_cons] at hone
  have hmem : n ∈ parts blank pieces := by
    rw [hparts]
    simp only [List.mem_append, List.mem_cons]
    exact hn.imp_right .inr
  refine part_quoted hmem ?_ (unquote_parts_ne hsplit hlone hmem)
  rw [← Bool.not_eq_true]
  intro hn'
  rcases hn with hn | hn
  . have := List.length_pos_of_mem (List.mem_filter.mpr ⟨hn, hn'⟩)
    omega
  . have := List.length_pos_of_mem (List.mem_filter.mpr ⟨hn, hn'⟩)
    omega

/--
There is one other part only, and it is a pair of quotes.
-/
theorem quotes_around (hother : hasOther blank quote (trim blank pieces.flatten) = true)
    (hothers : (texts blank quote pieces).filter (hasOther blank quote)
      = (texts blank quote [pieces.flatten]).filter (hasOther blank quote))
    : ∃ m, hasOther blank quote m = true
        ∧ unquote quote m = unquote quote (trim blank pieces.flatten)
        ∧ (trim blank pieces.flatten = m ++ [quote, quote]
          ∨ trim blank pieces.flatten = [quote, quote] ++ m) := by
  obtain ⟨as, m, bs, hparts, hmother, hunquote, hpair⟩ := exists_part hsplit hlone hother hothers
  refine ⟨m, hmother, hunquote, ?_⟩
  have hjoined := joined_parts blank pieces
  have hsub := hjoined.sublist.length_le
  have hle := length_le_unquote quote (trim blank pieces.flatten)
  have hmle := length_unquote_le quote m
  rw [← hunquote] at hle
  rw [hparts, List.flatten_append, List.flatten_cons, List.length_append,
    List.length_append] at hsub
  have hnil {ks : List (List α)} (hks : ∀ k ∈ ks, k ∈ parts blank pieces)
      (hlen : ks.flatten.length = 0) : ks = [] := by
    rw [List.eq_nil_iff_forall_not_mem]
    intro k hk
    rw [List.length_eq_zero_iff, List.flatten_eq_nil_iff] at hlen
    exact (mem_parts (hks k hk)).1 (hlen k hk)
  match as, bs with
  | [], [] => exact absurd (.inl (by simp [hparts])) hsplit
  | [], n :: bs =>
    obtain ⟨t, rfl⟩ := hpair n (.inr List.mem_cons_self)
    simp only [List.length_append, List.length_cons, List.length_nil, List.flatten_nil,
      List.flatten_cons] at hsub
    obtain rfl : t = [] := List.length_eq_zero_iff.mp (by omega)
    obtain rfl : bs = [] := hnil (fun k hk => by simp [hparts, hk]) (by omega)
    rw [hparts] at hjoined
    refine .inl (hjoined.append_of_length_le ?_)
    simp only [List.length_append, List.length_cons, List.length_nil]
    omega
  | n :: as, bs =>
    obtain ⟨t, rfl⟩ := hpair n (.inl List.mem_cons_self)
    simp only [List.length_append, List.length_cons, List.length_nil,
      List.flatten_cons] at hsub
    obtain rfl : t = [] := List.length_eq_zero_iff.mp (by omega)
    obtain rfl : as = [] := hnil (fun k hk => by simp [hparts, hk]) (by omega)
    obtain rfl : bs = [] := hnil (fun k hk => by simp [hparts, hk]) (by omega)
    rw [hparts] at hjoined
    refine .inr (hjoined.append_of_length_le ?_)
    simp only [List.length_append, List.length_cons, List.length_nil]
    omega

/--
A text with anything else cannot be split unnoticed.
-/
theorem not_hasOther
    (hothers : (texts blank quote pieces).filter (hasOther blank quote)
      = (texts blank quote [pieces.flatten]).filter (hasOther blank quote))
    : hasOther blank quote (trim blank pieces.flatten) = false := by
  rw [← Bool.not_eq_true]
  intro hother
  obtain ⟨m, hmother, hunquote, hquotes⟩ := quotes_around hsplit hlone hother hothers
  have hall := all_quotes_of_unquote hquotes hunquote
  simp only [hasOther, List.any_eq_true] at hmother
  obtain ⟨a, ha, hother⟩ := hmother
  simp [hall a ha] at hother

end

end

/-! Texts one after the other. -/

section

theorem length_flatMap_le {β γ : Type} {f g : β → List γ} {l : List β}
    (hle : ∀ a ∈ l, (g a).length ≤ (f a).length)
    : (l.flatMap g).length ≤ (l.flatMap f).length := by
  induction l with
  | nil => exact Nat.le_refl _
  | cons a l ih =>
    rw [List.flatMap_cons, List.flatMap_cons, List.length_append, List.length_append]
    exact Nat.add_le_add (hle a (by simp)) (ih fun b hb => hle b (.tail _ hb))

/--
Lists that are the same altogether are the same one by one, if none of them is longer.
-/
theorem flatMap_inj {β γ : Type} {f g : β → List γ} {l : List β}
    (hle : ∀ a ∈ l, (g a).length ≤ (f a).length) (h : l.flatMap f = l.flatMap g)
    : ∀ a ∈ l, f a = g a := by
  induction l with
  | nil => simp
  | cons a l ih =>
    have hrest := length_flatMap_le fun b hb => hle b (.tail a hb)
    have ha := hle a (by simp)
    have hlength := congrArg List.length h
    rw [List.flatMap_cons, List.flatMap_cons] at h
    rw [List.flatMap_cons, List.flatMap_cons, List.length_append, List.length_append] at hlength
    obtain ⟨hfirst, htail⟩ := List.append_inj h (by omega)
    intro b hb
    rcases List.mem_cons.mp hb with rfl | hb
    . exact hfirst
    . exact ih (fun c hc => hle c (.tail a hc)) htail b hb

variable {α : Type} [DecidableEq α] {blank : α → Bool} {quote : α}

theorem flatMap_filter {β γ : Type} {f g : β → List γ} {l : List β} (p : γ → Bool)
    (h : l.flatMap f = l.flatMap g)
    : (l.flatMap fun a => (f a).filter p) = l.flatMap fun a => (g a).filter p := by
  rw [← List.filter_flatMap, ← List.filter_flatMap, h]

theorem texts_flatMap_iff (hquote : blank quote = false) (lines : List (List (List α)))
    : lines.flatMap (texts blank quote)
          = (lines.flatMap fun pieces => texts blank quote [pieces.flatten])
      ↔ ∀ pieces ∈ lines, Whole blank quote pieces := by
  constructor
  . intro h
    have hothers := flatMap_inj (fun pieces _ => filter_hasOther_le blank quote pieces)
      (flatMap_filter _ h)
    have hquotes := flatMap_inj (fun pieces _ => filter_quote_le hquote pieces)
      (flatMap_filter _ h)
    have hlt {pieces : List (List α)} (hmem : pieces ∈ lines) (hsplit : ¬ Whole blank quote pieces)
        : (texts blank quote pieces).flatten.length
          < (texts blank quote [pieces.flatten]).flatten.length := by
      have hlone := hquotes pieces hmem
      rw [flatten_texts_single]
      exact length_lt_of_quotes hsplit hlone
        (not_hasOther hsplit hlone (hothers pieces hmem))
    have hle : ∀ pieces ∈ lines, (texts blank quote pieces).flatten.length
        ≤ (texts blank quote [pieces.flatten]).flatten.length := by
      intro pieces hmem
      by_cases hwhole : Whole blank quote pieces
      . rw [texts_of_whole hquote hwhole]
      . exact Nat.le_of_lt (hlt hmem hwhole)
    have hflatten := congrArg (List.flatMap id) h.symm
    simp only [List.flatMap_assoc, List.flatMap_id] at hflatten
    intro pieces hmem
    by_contra hsplit
    exact Nat.ne_of_lt (hlt hmem hsplit)
      (congrArg List.length (flatMap_inj hle hflatten pieces hmem)).symm
  . intro h
    exact List.flatMap_congr fun pieces hmem => texts_of_whole hquote (h pieces hmem)

end

end Trim
