import Dosix.Transition.Basic
import Mathlib.Logic.Function.Basic

/-!
This module contains independent buffers with names: what an allocator is for. A buffer keeps what
has been written to it until it is overwritten, cut off or released, whatever name it goes by then.
-/

namespace Buffers

open Function Transition

variable {ν β : Type}

structure Buffer (β : Type) where
  size : Nat
  -- what has been written where
  data : Nat → Option β
  data_eq_none : ∀ i, size ≤ i → data i = none

namespace Buffer

def fresh (n : Nat) : Buffer β where
  size := n
  data _ := none
  data_eq_none _ _ := rfl

def resize (b : Buffer β) (n : Nat) : Buffer β where
  size := n
  data i := if i < n then b.data i else none
  data_eq_none _ hi := if_neg (Nat.not_lt.mpr hi)

def write (b : Buffer β) (i : Fin b.size) (x : β) : Buffer β where
  size := b.size
  data := update b.data i (some x)
  data_eq_none j hj := by
    rw [update_of_ne (by omega)]
    exact b.data_eq_none j hj

theorem lt_size {b : Buffer β} {i : Nat} {x : β} (h : b.data i = some x) : i < b.size := by
  apply Nat.lt_of_not_le
  intro hi
  simp [b.data_eq_none i hi] at h

end Buffer

inductive Action (ν β : Type) where
  | allocate (p : ν) (n : Nat)
  | resize (p q : ν) (n : Nat)
  | release (p : ν)
  | write (p : ν) (i : Nat) (x : β)
  deriving Repr, DecidableEq

abbrev Store (ν β : Type) := ν → Option (Buffer β)

def Store.byte (A : Store ν β) (p : ν) (i : Nat) : Option β :=
  (A p).bind fun b => b.data i

variable [DecidableEq ν]

/--
What an action does, if it is one for these buffers: a name is free or stands for a buffer, and a
write stays inside.
-/
def step (A : Store ν β) (a : Action ν β) : Except Unit (Store ν β) :=
  match a with
  | .allocate p n =>
    match A p with
    | some _ => .error ()
    | none => .ok (update A p (some (.fresh n)))
  | .resize p q n =>
    match A p with
    | none => .error ()
    | some b =>
      match update A p none q with
      | some _ => .error ()
      | none => .ok (update (update A p none) q (some (b.resize n)))
  | .release p =>
    match A p with
    | none => .error ()
    | some _ => .ok (update A p none)
  | .write p i x =>
    match A p with
    | none => .error ()
    | some b => if h : i < b.size then .ok (update A p (some (b.write ⟨i, h⟩ x))) else .error ()

/-! Where a byte is. -/

/--
The name after the action of the buffer that is named `p` before it.
-/
def renamed (p : ν) (a : Action ν β) : ν :=
  match a with
  | .allocate _ _ => p
  | .resize q r _ => if q = p then r else p
  | .release _ => p
  | .write _ _ _ => p

def Spares (p : ν) (i : Nat) (a : Action ν β) : Prop :=
  match a with
  | .allocate _ _ => True
  | .resize q _ n => q = p → i < n
  | .release q => q ≠ p
  | .write q j _ => q = p → j ≠ i

instance (p : ν) (i : Nat) (a : Action ν β) : Decidable (Spares p i a) :=
  match a with
  | .allocate _ _ => .isTrue trivial
  | .resize _ _ _ => inferInstanceAs (Decidable (_ → _))
  | .release _ => inferInstanceAs (Decidable (_ ≠ _))
  | .write _ _ _ => inferInstanceAs (Decidable (_ → _ ≠ _))

variable {A A' : Store ν β} {p : ν} {i : Nat} {x : β}

theorem byte_update_of_ne {q : ν} (h : p ≠ q) (A : Store ν β) (b : Option (Buffer β)) (i : Nat)
    : Store.byte (update A q b) p i = A.byte p i := by
  unfold Store.byte
  rw [update_of_ne h]

omit [DecidableEq ν] in
theorem ne_of_byte {q : ν} (hx : A.byte p i = some x) (hq : A q = none) : p ≠ q := by
  rintro rfl
  simp [Store.byte, hq] at hx

theorem step_byte {a : Action ν β} (h : step A a = .ok A') (hx : A.byte p i = some x)
    (ha : Spares p i a)
    : A'.byte (renamed p a) i = some x := by
  unfold step at h
  cases a with
  | allocate q n =>
    dsimp only at h
    split at h
    . simp at h
    . next hnone =>
      rw [← Except.ok.inj h, renamed, byte_update_of_ne (ne_of_byte hx hnone)]
      exact hx
  | resize q r n =>
    dsimp only at h
    split at h
    . simp at h
    . next b hb =>
      split at h
      . simp at h
      . next hnone =>
        rw [← Except.ok.inj h, renamed]
        by_cases hqp : q = p
        . subst hqp
          rw [Store.byte, hb] at hx
          rw [if_pos rfl, Store.byte, update_self]
          exact (if_pos (ha rfl)).trans hx
        . have hmoved : Store.byte (update A q none) p i = some x := by
            rwa [byte_update_of_ne (Ne.symm hqp)]
          rw [if_neg hqp, byte_update_of_ne (ne_of_byte hmoved hnone)]
          exact hmoved
  | release q =>
    dsimp only at h
    split at h
    . simp at h
    . rw [← Except.ok.inj h, renamed, byte_update_of_ne (Ne.symm ha)]
      exact hx
  | write q j y =>
    dsimp only at h
    split at h
    . simp at h
    . next b hb =>
      split at h
      . rw [← Except.ok.inj h, renamed]
        by_cases hqp : q = p
        . subst hqp
          rw [Store.byte, hb] at hx
          rw [Store.byte, update_self]
          exact (update_of_ne (Ne.symm (ha rfl)) _ _).trans hx
        . rw [byte_update_of_ne (Ne.symm hqp)]
          exact hx
      . simp at h

theorem step_write (h : step A (.write p i x) = .ok A')
    : ∃ b, A p = some b ∧ ∃ hi : i < b.size, A' = update A p (some (b.write ⟨i, hi⟩ x)) := by
  unfold step at h
  dsimp only at h
  split at h
  . simp at h
  . next b hb =>
    split at h
    . next hi => exact ⟨b, hb, hi, (Except.ok.inj h).symm⟩
    . simp at h

theorem byte_written (h : step A (.write p i x) = .ok A') : A'.byte p i = some x := by
  obtain ⟨b, -, hi, rfl⟩ := step_write h
  unfold Store.byte
  rw [update_self]
  exact update_self i (some x) b.data

/-! Runs. -/

def renamedBy (p : ν) (as : List (Action ν β)) : ν :=
  as.foldl renamed p

/--
No action of the list overwrites the byte, cuts it off or releases its buffer.
-/
def SparedBy (p : ν) (i : Nat) (as : List (Action ν β)) : Prop :=
  match as with
  | [] => True
  | a :: as => Spares p i a ∧ SparedBy (renamed p a) i as

def SparedBy.decide (p : ν) (i : Nat) (as : List (Action ν β)) : Decidable (SparedBy p i as) :=
  match as with
  | [] => .isTrue trivial
  | a :: as =>
    have := SparedBy.decide (renamed p a) i as
    inferInstanceAs (Decidable (_ ∧ _))

instance (p : ν) (i : Nat) (as : List (Action ν β)) : Decidable (SparedBy p i as) :=
  SparedBy.decide p i as

theorem run_byte {as : List (Action ν β)} (h : run step A as = .ok A') (hx : A.byte p i = some x)
    (has : SparedBy p i as)
    : A'.byte (renamedBy p as) i = some x := by
  induction as generalizing A p with
  | nil =>
    rw [← Except.ok.inj h]
    exact hx
  | cons a as ih =>
    unfold run at h
    cases hs : step A a with
    | error e => simp [hs] at h
    | ok B =>
      simp only [hs] at h
      exact ih h (step_byte hs hx has.1) has.2

/-! Writing one element after the other. -/

def writes (p : ν) (i : Nat) (xs : List β) : List (Action ν β) :=
  match xs with
  | [] => []
  | x :: xs => .write p i x :: writes p (i + 1) xs

theorem renamedBy_writes (p q : ν) (i : Nat) (xs : List β) : renamedBy q (writes p i xs) = q := by
  induction xs generalizing i with
  | nil => rfl
  | cons x xs ih => exact ih (i + 1)

theorem sparedBy_writes {j : Nat} (hij : i < j) (p : ν) (xs : List β)
    : SparedBy p i (writes p j xs) := by
  induction xs generalizing j with
  | nil => trivial
  | cons x xs ih =>
    refine ⟨?_, ih (Nat.lt_succ_of_lt hij)⟩
    intro _
    omega

theorem run_writes {xs : List β} (h : run step A (writes p i xs) = .ok A') {j : Nat}
    (hx : xs[j]? = some x)
    : A'.byte p (i + j) = some x := by
  induction xs generalizing A i j with
  | nil => simp at hx
  | cons y xs ih =>
    unfold writes run at h
    cases hwrite : step A (.write p i y) with
    | error e => simp [hwrite] at h
    | ok B =>
      simp only [hwrite] at h
      cases j with
      | zero =>
        -- the writes that follow are to later elements
        obtain rfl : y = x := by simpa using hx
        have hkept := run_byte h (byte_written hwrite) (sparedBy_writes (Nat.lt_succ_self i) p xs)
        rwa [renamedBy_writes] at hkept
      | succ j =>
        rw [← Nat.add_assoc, Nat.add_right_comm]
        exact ih h (by simpa using hx)

end Buffers
