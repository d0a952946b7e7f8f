import Mathlib.Data.List.Basic

/-!
This module contains memory that consists of objects, each of them an array of cells, and what loops over
the cells of an object read and leave.
-/

namespace Objects

/--
What loads and stores promise: a cell of an object holds what has been stored in it last.
-/
class Memory (μ : Type) (ω β : outParam Type) where
  size : μ → ω → Nat
  load : μ → ω → Nat → Option β
  store : μ → ω → Nat → β → Option μ
  load_isSome : ∀ m o i, (load m o i).isSome ↔ i < size m o
  store_isSome : ∀ m o i x, (store m o i x).isSome ↔ i < size m o
  size_store : ∀ {m o i x m'}, store m o i x = some m' → size m' = size m
  load_same : ∀ {m o i x m'}, store m o i x = some m' → load m' o i = some x
  load_other : ∀ {m o i x m' o' j}, store m o i x = some m' → ¬(o' = o ∧ j = i) →
    load m' o' j = load m o' j

open Memory

variable {μ ω β : Type} [Memory μ ω β] {m m' m'' : μ} {o o' : ω} {i j : Nat} {x : β} {xs : List β}

theorem lt_size (h : load m o i = some x) : i < size m o := by
  rw [← load_isSome, h]
  rfl

theorem exists_store (h : i < size m o) (x : β) : ∃ m' : μ, store m o i x = some m' := by
  rwa [← store_isSome m o i x, Option.isSome_iff_exists] at h

/--
The cells of an object from an index on.
-/
def Reads (m : μ) (o : ω) (i : Nat) (xs : List β) : Prop :=
  match xs with
  | [] => True
  | x :: xs => load m o i = some x ∧ Reads m o (i + 1) xs

/--
Two ranges of cells have none in common.
-/
def Apart (o : ω) (i n : Nat) (o' : ω) (j n' : Nat) : Prop :=
  o' = o → i + n ≤ j ∨ j + n' ≤ i

theorem reads_append {ys : List β}
    : Reads m o i (xs ++ ys) ↔ Reads m o i xs ∧ Reads m o (i + xs.length) ys := by
  induction xs generalizing i with
  | nil => simp [Reads]
  | cons x xs ih =>
    rw [List.cons_append, Reads, Reads, ih, and_assoc, List.length_cons, Nat.add_right_comm i 1,
      Nat.add_assoc i]

theorem Reads.of_getElem (h : ∀ j x, xs[j]? = some x → load m o (i + j) = some x)
    : Reads m o i xs := by
  induction xs generalizing i with
  | nil => exact trivial
  | cons x xs ih =>
    refine ⟨h 0 x rfl, ?_⟩
    apply ih
    intro j y hy
    rw [Nat.add_assoc, Nat.add_comm 1]
    exact h (j + 1) y hy

theorem Reads.congr (h : ∀ j, i ≤ j → j < i + xs.length → load m' o j = load m o j)
    (hr : Reads m o i xs)
    : Reads m' o i xs := by
  induction xs generalizing i with
  | nil => exact trivial
  | cons x xs ih =>
    rw [List.length_cons] at h
    constructor
    . rw [h i (by omega) (by omega)]
      exact hr.1
    . apply ih
      . intro j hj hlt
        apply h
        . omega
        . omega
      . exact hr.2

theorem Reads.le_size (h : Reads m o i xs) (hne : xs ≠ []) : i + xs.length ≤ size m o := by
  induction xs generalizing i with
  | nil => exact absurd rfl hne
  | cons x xs ih =>
    have hlt := lt_size h.1
    cases xs with
    | nil => exact hlt
    | cons y xs =>
      have htail := ih h.2 (List.cons_ne_nil y xs)
      simp only [List.length_cons] at htail ⊢
      omega

/--
The memory after cells have been stored from an index on: they are there, and nothing else changes.
-/
structure Writes (m : μ) (o : ω) (i : Nat) (xs : List β) (m' : μ) : Prop where
  size : size m' = size m
  reads : Reads m' o i xs
  other : ∀ {o' j}, Apart o i xs.length o' j 1 → load m' o' j = load m o' j

theorem Writes.nil : Writes m o i [] m where
  size := rfl
  reads := trivial
  other _ := rfl

theorem Writes.cons (h : store m o i x = some m') (hw : Writes m' o (i + 1) xs m'')
    : Writes m o i (x :: xs) m'' where
  size := hw.size.trans (size_store h)
  reads := by
    refine ⟨?_, hw.reads⟩
    rw [hw.other]
    . exact load_same h
    . intro _
      omega
  other {o' j} hj := by
    rw [List.length_cons] at hj
    rw [hw.other, load_other h]
    . rintro ⟨rfl, rfl⟩
      have := hj rfl
      omega
    . intro ho
      have := hj ho
      omega

theorem Writes.keeps (hw : Writes m o i xs m') {ys : List β}
    (hapart : Apart o i xs.length o' j ys.length) (hr : Reads m o' j ys)
    : Reads m' o' j ys := by
  apply hr.congr
  intro k hk hlt
  apply hw.other
  intro ho
  have := hapart ho
  omega

theorem Writes.of_store (h : store m o i x = some m') : Writes m o i [x] m' :=
  .cons h .nil

/-! A terminated sequence. -/

/--
The cells up to the first one that is `nul`, which is there.
-/
structure Terminated (m : μ) (nul : β) (o : ω) (i : Nat) (xs : List β) : Prop where
  reads : Reads m o i (xs ++ [nul])
  not_mem : nul ∉ xs

theorem Terminated.lt_size {nul : β} (h : Terminated m nul o i xs) : i + xs.length < size m o := by
  have := h.reads.le_size (List.append_ne_nil_of_right_ne_nil _ (List.cons_ne_nil nul []))
  rw [List.length_append, List.length_singleton] at this
  omega

theorem Terminated.takeWhile [DecidableEq β] {nul : β} (h : Reads m o i (xs ++ [nul]))
    : Terminated m nul o i (xs.takeWhile (· ≠ nul)) := by
  induction xs generalizing i with
  | nil => exact ⟨h, List.not_mem_nil⟩
  | cons x xs ih =>
    obtain ⟨hreads, hnul⟩ := ih h.2
    by_cases hx : x = nul
    . subst hx
      rw [List.takeWhile_cons_of_neg (by simp)]
      exact ⟨⟨h.1, trivial⟩, List.not_mem_nil⟩
    . rw [List.takeWhile_cons_of_pos (by simpa using hx)]
      refine ⟨⟨h.1, hreads⟩, ?_⟩
      rw [List.mem_cons, not_or]
      exact ⟨Ne.symm hx, hnul⟩

/--
A sequence whose end has been replaced from an index on.
-/
theorem Terminated.overwrite {nul : β} (h : Terminated m nul o i xs) {n : Nat} (hn : n ≤ xs.length)
    {ys : List β} (hw : Writes m o (i + n) (ys ++ [nul]) m') (hys : nul ∉ ys)
    : Terminated m' nul o i (xs.take n ++ ys) := by
  have hlength : (xs.take n).length = n := List.length_take_of_le hn
  have hfirst : Reads m o i (xs.take n) := by
    have hreads := h.reads
    rw [← List.take_append_drop n xs, List.append_assoc] at hreads
    exact (reads_append.mp hreads).1
  constructor
  . rw [List.append_assoc, reads_append, hlength]
    refine ⟨?_, hw.reads⟩
    apply hw.keeps _ hfirst
    intro _
    right
    omega
  . rw [List.mem_append, not_or]
    refine ⟨?_, hys⟩
    intro hmem
    exact h.not_mem (List.mem_of_mem_take hmem)

end Objects
