/-!
This module contains a stream into which one item at a time can be pushed back: what its operations
return, and that nothing that is in it gets lost or comes out twice.
-/

namespace Pushback

variable {α : Type}

structure Stream (α : Type) where
  pushed : Option α
  input : List α
  deriving Repr, DecidableEq

inductive Op (α : Type) where
  -- the input can be read, or not at this time
  | get (readable : Bool)
  | unget (a : α)
  deriving Repr, DecidableEq

inductive Outcome (α : Type) where
  | pushed (a : α)
  | read (a : α)
  | eof
  | kept (a : α)
  | full
  deriving Repr, DecidableEq

namespace Outcome

def pushed? (r : Outcome α) : Option α :=
  match r with
  | .pushed a => some a
  | _ => none

def read? (r : Outcome α) : Option α :=
  match r with
  | .read a => some a
  | _ => none

def kept? (r : Outcome α) : Option α :=
  match r with
  | .kept a => some a
  | _ => none

/--
The item that comes out of the stream.
-/
def delivered? (r : Outcome α) : Option α :=
  match r with
  | .pushed a | .read a => some a
  | .eof | .kept _ | .full => none

end Outcome

namespace Stream

def step (s : Stream α) (op : Op α) : Outcome α × Stream α :=
  match op, s.pushed with
  | .get _, some a => (.pushed a, { s with pushed := none })
  | .get true, none =>
    match s.input with
    | [] => (.eof, s)
    | a :: input => (.read a, { s with input := input })
  | .get false, none => (.eof, s)
  | .unget a, none => (.kept a, { s with pushed := some a })
  | .unget _, some _ => (.full, s)

def outcomes (s : Stream α) (ops : List (Op α)) : List (Outcome α) :=
  match ops with
  | [] => []
  | op :: ops => (s.step op).1 :: (s.step op).2.outcomes ops

def final (s : Stream α) (ops : List (Op α)) : Stream α :=
  match ops with
  | [] => s
  | op :: ops => (s.step op).2.final ops

theorem step_input (s : Stream α) (op : Op α)
    : (s.step op).1.read?.toList ++ (s.step op).2.input = s.input := by
  obtain ⟨pushed, input⟩ := s
  cases op with
  | unget a =>
    cases pushed with
    | none => rfl
    | some b => rfl
  | get readable =>
    cases pushed with
    | some b => rfl
    | none =>
      cases readable with
      | false => rfl
      | true =>
        cases input with
        | nil => rfl
        | cons a input => rfl

theorem step_pushed (s : Stream α) (op : Op α)
    : (s.step op).1.pushed?.toList ++ (s.step op).2.pushed.toList
        = s.pushed.toList ++ (s.step op).1.kept?.toList := by
  obtain ⟨pushed, input⟩ := s
  cases op with
  | unget a =>
    cases pushed with
    | none => rfl
    | some b => rfl
  | get readable =>
    cases pushed with
    | some b => rfl
    | none =>
      cases readable with
      | false => rfl
      | true =>
        cases input with
        | nil => rfl
        | cons a input => rfl

theorem filterMap_cons_toList {β γ : Type} (f : β → Option γ) (b : β) (bs : List β)
    : (b :: bs).filterMap f = (f b).toList ++ bs.filterMap f := by
  rw [List.filterMap_cons]
  cases f b with
  | none => rfl
  | some c => rfl

/--
What has been read and what is still to be read are the input.
-/
theorem outcomes_input (s : Stream α) (ops : List (Op α))
    : (s.outcomes ops).filterMap Outcome.read? ++ (s.final ops).input = s.input := by
  induction ops generalizing s with
  | nil => rfl
  | cons op ops ih =>
    rw [outcomes, final, filterMap_cons_toList, List.append_assoc, ih]
    exact s.step_input op

/--
What has been pushed back has come out again in the same order, but for the last item.
-/
theorem outcomes_pushed (s : Stream α) (ops : List (Op α))
    : (s.outcomes ops).filterMap Outcome.pushed? ++ (s.final ops).pushed.toList
        = s.pushed.toList ++ (s.outcomes ops).filterMap Outcome.kept? := by
  induction ops generalizing s with
  | nil => simp [outcomes, final]
  | cons op ops ih =>
    rw [outcomes, final, filterMap_cons_toList, filterMap_cons_toList, List.append_assoc, ih,
      ← List.append_assoc, ← List.append_assoc, s.step_pushed op]

end Stream
end Pushback
