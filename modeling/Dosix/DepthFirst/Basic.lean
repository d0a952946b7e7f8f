import Mathlib.Logic.Relation
import Mathlib.Data.List.Basic

/-!
This module contains depth-first traversals of whatever has finitely many successors: the nodes that
are visited, and that these are all there are once the traversal goes deep enough.
-/

namespace DepthFirst

open Relation

variable {α : Type}

/--
The node and all those at most `depth` levels below it, each one before what is below it.
-/
def visit (children : α → List α) (depth : Nat) (a : α) : List α :=
  match depth with
  | 0 => [a]
  | depth + 1 => a :: (children a).flatMap (visit children depth)

abbrev Below (children : α → List α) : α → α → Prop :=
  ReflTransGen fun a b => b ∈ children a

/--
From `a` on, every level leaves less.
-/
def Ranked (children : α → List α) (left : α → Nat) (a : α) : Prop :=
  ∀ b, Below children a b → ∀ c ∈ children b, left c < left b

variable {children : α → List α} {left : α → Nat} {a b : α} {depth : Nat}

theorem below_of_mem_visit (h : b ∈ visit children depth a) : Below children a b := by
  induction depth generalizing a with
  | zero =>
    obtain rfl := List.mem_singleton.mp h
    exact .refl
  | succ depth ih =>
    unfold visit at h
    rcases List.mem_cons.mp h with rfl | h
    . exact .refl
    . obtain ⟨c, hc, hb⟩ := List.mem_flatMap.mp h
      exact .head hc (ih hb)

namespace Ranked

theorem child (h : Ranked children left a) (hb : b ∈ children a) : Ranked children left b :=
  fun c hc => h c (.head hb hc)

theorem mem_visit_iff (h : Ranked children left a) (hdepth : left a ≤ depth)
    : b ∈ visit children depth a ↔ Below children a b := by
  refine ⟨below_of_mem_visit, ?_⟩
  intro hb
  induction hb using ReflTransGen.head_induction_on generalizing depth with
  | refl =>
    cases depth with
    | zero => exact List.mem_singleton_self b
    | succ depth => exact List.mem_cons_self
  | @head a c hc _ ih =>
    have hlt := h a .refl c hc
    cases depth with
    | zero => omega
    | succ depth =>
      refine List.mem_cons_of_mem a (List.mem_flatMap.mpr ⟨c, hc, ?_⟩)
      exact ih (h.child hc) (by omega)

end Ranked
end DepthFirst
