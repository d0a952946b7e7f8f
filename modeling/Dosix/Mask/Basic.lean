import Mathlib.Data.List.Induction

/-!
This module contains words of which some bits are written: a write sets or clears the bits under a
mask. A sequence of writes can be carried out one by one, or collected into two masks first.
-/

namespace Mask

variable {w : Nat}

structure Write (w : Nat) where
  mask : BitVec w
  set : Bool
  deriving Repr, DecidableEq

def Write.apply (o : Write w) (x : BitVec w) : BitVec w :=
  if o.set then x ||| o.mask else x &&& ~~~o.mask

theorem eq_iff_getLsbD {x y : BitVec w} : x = y ↔ ∀ i, x.getLsbD i = y.getLsbD i := by
  constructor
  . rintro rfl _
    rfl
  . exact fun h => BitVec.eq_of_getLsbD_eq fun i _ => h i

theorem getLsbD_and_not (x y : BitVec w) (i : Nat)
    : (x &&& ~~~y).getLsbD i = (x.getLsbD i && !y.getLsbD i) := by
  rw [BitVec.getLsbD_and, BitVec.getLsbD_not]
  by_cases hi : i < w
  . simp [hi]
  . rw [BitVec.getLsbD_of_ge x i (Nat.le_of_not_lt hi)]
    simp

theorem and_or_ne_zero (x y z : BitVec w)
    : x &&& (y ||| z) ≠ 0 ↔ x &&& y ≠ 0 ∨ x &&& z ≠ 0 := by
  rw [BitVec.and_or_distrib_left, ← not_and_or]
  exact not_congr BitVec.or_eq_zero_iff

namespace Write

variable (o : Write w) (x : BitVec w)

theorem getLsbD_apply (i : Nat)
    : (o.apply x).getLsbD i = if o.mask.getLsbD i then o.set else x.getLsbD i := by
  unfold apply
  cases o.set with
  | true =>
    rw [if_pos rfl, BitVec.getLsbD_or]
    cases o.mask.getLsbD i
    all_goals simp
  | false =>
    rw [if_neg (by simp), getLsbD_and_not]
    cases o.mask.getLsbD i
    all_goals simp

theorem apply_apply {o o' : Write w} (h : o'.mask = o.mask) (x : BitVec w)
    : o'.apply (o.apply x) = o'.apply x := by
  rw [eq_iff_getLsbD]
  intro i
  simp only [getLsbD_apply, h]
  split
  . rfl
  . rfl

theorem apply_eq_self_iff
    : o.apply x = x ↔ x &&& o.mask = if o.set then o.mask else 0 := by
  simp only [eq_iff_getLsbD, getLsbD_apply, BitVec.getLsbD_and]
  apply forall_congr'
  intro i
  cases hset : o.set
  all_goals
    cases hmask : o.mask.getLsbD i
    all_goals
      cases hx : x.getLsbD i
      all_goals simp [hmask]

/--
Under the mask the write sets no bit that was not set.
-/
theorem apply_gains_iff
    : o.apply x &&& o.mask &&& ~~~x = 0 ↔ (o.set = true → x &&& o.mask = o.mask) := by
  simp only [eq_iff_getLsbD, getLsbD_and_not]
  simp only [getLsbD_apply, BitVec.getLsbD_and]
  cases o.set with
  | false =>
    apply iff_of_true
    . intro i
      cases hmask : o.mask.getLsbD i
      all_goals simp
    . simp
  | true =>
    simp only [true_implies]
    apply forall_congr'
    intro i
    cases hmask : o.mask.getLsbD i
    all_goals
      cases hx : x.getLsbD i
      all_goals simp

theorem apply_and {part : BitVec w} (h : o.mask &&& part = o.mask)
    : o.apply x &&& part = o.apply (x &&& part) := by
  rw [eq_iff_getLsbD] at h
  rw [eq_iff_getLsbD]
  intro i
  have hmask := h i
  rw [BitVec.getLsbD_and] at hmask
  simp only [getLsbD_apply, BitVec.getLsbD_and]
  split
  . next hset =>
    rw [hset, Bool.true_and] at hmask
    rw [hmask, Bool.and_true]
  . rfl

end Write

/-! Writes one after the other. -/

def writeAll (os : List (Write w)) (x : BitVec w) : BitVec w :=
  os.foldl (fun x o => o.apply x) x

theorem writeAll_cons (o : Write w) (os : List (Write w)) (x : BitVec w)
    : writeAll (o :: os) x = writeAll os (o.apply x) := rfl

theorem writeAll_concat (os : List (Write w)) (o : Write w) (x : BitVec w)
    : writeAll (os ++ [o]) x = o.apply (writeAll os x) := by
  unfold writeAll
  rw [List.foldl_append]
  rfl

theorem writeAll_same {mask : BitVec w} {os : List (Write w)} (h : ∀ o ∈ os, o.mask = mask)
    {o : Write w} (ho : o.mask = mask) (x : BitVec w)
    : writeAll (os ++ [o]) x = o.apply x := by
  rw [writeAll_concat]
  induction os generalizing x with
  | nil => rfl
  | cons o' os ih =>
    obtain ⟨ho', hos⟩ := List.forall_mem_cons.mp h
    rw [writeAll_cons, ih hos, Write.apply_apply (ho.trans ho'.symm)]

/--
What the last write to a bit makes of it.
-/
def lastWrite (os : List (Write w)) (i : Nat) : Option Bool :=
  ((os.filter fun o => o.mask.getLsbD i).getLast?).map Write.set

theorem lastWrite_concat (os : List (Write w)) (o : Write w) (i : Nat)
    : lastWrite (os ++ [o]) i = if o.mask.getLsbD i then some o.set else lastWrite os i := by
  unfold lastWrite
  rw [List.filter_append]
  cases h : o.mask.getLsbD i with
  | true =>
    simp only [List.filter_cons, h, if_true, List.filter_nil, List.getLast?_append,
      List.getLast?_singleton, Option.some_or, Option.map_some]
  | false => simp [h]

theorem getLsbD_writeAll (os : List (Write w)) (x : BitVec w) (i : Nat)
    : (writeAll os x).getLsbD i = (lastWrite os i).getD (x.getLsbD i) := by
  induction os using List.reverseRecOn with
  | nil => rfl
  | append_singleton os o ih =>
    rw [writeAll_concat, lastWrite_concat, Write.getLsbD_apply, ih]
    split
    . rfl
    . rfl

/-! The bits that no write writes, and those that some write sets. -/

structure Collected (w : Nat) where
  keep : BitVec w := ~~~0
  set : BitVec w := 0
  deriving Repr, DecidableEq

def Collected.add (m : Collected w) (o : Write w) : Collected w where
  keep := m.keep &&& ~~~o.mask
  set := if o.set then m.set ||| o.mask else m.set

def Collected.apply (m : Collected w) (x : BitVec w) : BitVec w :=
  (x &&& m.keep) ||| m.set

def collect (os : List (Write w)) : Collected w :=
  os.foldl Collected.add {}

theorem collect_concat (os : List (Write w)) (o : Write w)
    : collect (os ++ [o]) = (collect os).add o := by
  unfold collect
  rw [List.foldl_append]
  rfl

/--
Some write sets the bit.
-/
def Sets (os : List (Write w)) (i : Nat) : Prop :=
  ∃ o ∈ os, o.set = true ∧ o.mask.getLsbD i = true

theorem sets_concat (os : List (Write w)) (o : Write w) (i : Nat)
    : Sets (os ++ [o]) i ↔ Sets os i ∨ (o.set = true ∧ o.mask.getLsbD i = true) := by
  unfold Sets
  simp only [List.mem_append, List.mem_singleton, or_and_right, exists_or, exists_eq_left]

theorem getLsbD_collect_keep (os : List (Write w)) {i : Nat} (hi : i < w)
    : (collect os).keep.getLsbD i = (lastWrite os i).isNone := by
  induction os using List.reverseRecOn with
  | nil => simp [collect, lastWrite, hi]
  | append_singleton os o ih =>
    rw [collect_concat, lastWrite_concat]
    unfold Collected.add
    rw [getLsbD_and_not, ih]
    cases o.mask.getLsbD i
    all_goals simp

theorem collect_keep_eq_iff {os : List (Write w)} (h : ∀ o ∈ os, o.mask ≠ 0)
    : (collect os).keep = ~~~0 ↔ os = [] := by
  constructor
  . intro hkeep
    cases os using List.reverseRecOn with
    | nil => rfl
    | append_singleton before o =>
      exfalso
      apply h o (by simp)
      rw [collect_concat] at hkeep
      rw [eq_iff_getLsbD] at hkeep ⊢
      intro i
      have hbit := hkeep i
      unfold Collected.add at hbit
      rw [getLsbD_and_not, BitVec.getLsbD_not] at hbit
      by_cases hi : i < w
      . simp only [hi, decide_true, BitVec.ofNat_eq_ofNat, BitVec.getLsbD_zero, Bool.not_false,
          Bool.and_true, Bool.and_eq_true, Bool.not_eq_true'] at hbit
        rw [hbit.2, BitVec.ofNat_eq_ofNat, BitVec.getLsbD_zero]
      . rw [BitVec.getLsbD_of_ge _ i (Nat.le_of_not_lt hi), BitVec.getLsbD_of_ge _ i
          (Nat.le_of_not_lt hi)]
  . rintro rfl
    rfl

theorem getLsbD_collect_set (os : List (Write w)) (i : Nat)
    : (collect os).set.getLsbD i = true ↔ Sets os i := by
  induction os using List.reverseRecOn with
  | nil => simp [collect, Sets]
  | append_singleton os o ih =>
    rw [collect_concat, sets_concat, ← ih]
    unfold Collected.add
    cases o.set
    all_goals simp

theorem Sets.lastWrite_ne_none {os : List (Write w)} {i : Nat} (h : Sets os i)
    : lastWrite os i ≠ none := by
  induction os using List.reverseRecOn with
  | nil => simp [Sets] at h
  | append_singleton os o ih =>
    rw [lastWrite_concat]
    split
    . simp
    . next hmask =>
      rcases (sets_concat os o i).mp h with h | ⟨-, h⟩
      . exact ih h
      . exact absurd h hmask

theorem sets_of_lastWrite {os : List (Write w)} {i : Nat} (h : lastWrite os i = some true)
    : Sets os i := by
  induction os using List.reverseRecOn with
  | nil => simp [lastWrite] at h
  | append_singleton os o ih =>
    rw [lastWrite_concat] at h
    rw [sets_concat]
    split at h
    . next hmask => exact .inr ⟨Option.some.inj h, hmask⟩
    . exact .inl (ih h)

/--
When the collected masks do to a bit what the writes do one after the other: they forget that a bit
which some write sets is cleared by a later one.
-/
theorem getLsbD_collect_apply_iff (os : List (Write w)) (x : BitVec w) (i : Nat)
    : ((collect os).apply x).getLsbD i = (writeAll os x).getLsbD i
        ↔ (Sets os i → lastWrite os i = some true) := by
  rw [getLsbD_writeAll]
  unfold Collected.apply
  rw [BitVec.getLsbD_or, BitVec.getLsbD_and]
  by_cases hi : i < w
  . rw [getLsbD_collect_keep os hi]
    have hset := getLsbD_collect_set os i
    cases hlast : lastWrite os i with
    | none =>
      have hnot : ¬ Sets os i := fun h => h.lastWrite_ne_none hlast
      rw [Bool.eq_false_iff.mpr (mt hset.mp hnot)]
      simp [hnot]
    | some set =>
      cases set with
      | true => simp [hset.mpr (sets_of_lastWrite hlast)]
      | false =>
        simp only [Option.isNone_some, Bool.and_false, Bool.false_or, Option.getD_some,
          Option.some.injEq, Bool.false_eq_true, imp_false]
        rw [← hset, Bool.not_eq_true]
  . have hbeyond : ∀ y : BitVec w, y.getLsbD i = false := fun y =>
      BitVec.getLsbD_of_ge y i (Nat.le_of_not_lt hi)
    have hnone : lastWrite os i = none := by
      unfold lastWrite
      simp [hbeyond]
    simp [hbeyond, hnone, Sets]

end Mask
