import Dosix.SearchTree.Lemmas
import Dosix.Transition.Basic
import Mathlib.Data.List.Perm.Basic

/-!
This module contains the walk of POSIX `<search.h>` over a tree, and what is left of it for an
action that takes each node once.
-/

namespace SearchTree

open Transition

variable {α σ ε : Type}

inductive Visit where
  | preorder
  | postorder
  | endorder
  | leaf
  deriving Repr, DecidableEq

def Visit.first (v : Visit) : Bool :=
  match v with
  | .preorder | .leaf => true
  | .postorder | .endorder => false

/--
The calls of its action that `twalk` makes. A node without children has one, every other node three.
-/
def twalk (t : SearchTree α) : List (Visit × α) :=
  match t with
  | .leaf => []
  | .node .leaf _ k .leaf => [(.leaf, k)]
  | .node l _ k r =>
    (.preorder, k) :: l.twalk ++ (.postorder, k) :: r.twalk ++ [(.endorder, k)]

def preorder (t : SearchTree α) : List α :=
  match t with
  | .leaf => []
  | .node l _ k r => k :: (l.preorder ++ r.preorder)

/--
What `twalk` takes for the tree if it is handed the address of the variable that holds the root,
instead of the root: a node at that address. Its key is the pointer in the variable, and its links
are the words that come after the variable.
-/
def misrooted (root : α) (links : SearchTree α × SearchTree α) : SearchTree α :=
  .node links.1 0 root links.2

theorem preorder_misrooted (root : α) (links : SearchTree α × SearchTree α)
    : (misrooted root links).preorder = root :: (links.1.preorder ++ links.2.preorder) := rfl

theorem preorder_eq_nil_iff {t : SearchTree α} : t.preorder = [] ↔ t = .leaf := by
  cases t with
  | leaf => simp [preorder]
  | node l id k r => simp [preorder]

theorem preorder_perm (t : SearchTree α) : t.preorder.Perm t.keys := by
  induction t with
  | leaf => exact .refl _
  | node l id k r lih rih =>
    rw [preorder, keys_node]
    exact ((lih.append rih).cons k).trans List.perm_middle.symm

def firsts (visits : List (Visit × α)) : List α :=
  (visits.filter fun v => v.1.first).map Prod.snd

theorem firsts_twalk (t : SearchTree α) : firsts t.twalk = t.preorder := by
  induction t using twalk.induct with
  | case1 => rfl
  | case2 id k => rfl
  | case3 l id k r hinner lih rih =>
    rw [twalk, preorder, ← lih, ← rih]
    . simp [firsts, Visit.first]
    . exact hinner

theorem run_firsts {step : σ → Visit × α → Except ε σ} {take : σ → α → Except ε σ}
    (hfirst : ∀ s v a, v.first = true → step s (v, a) = take s a)
    (hother : ∀ s v a, v.first = false → step s (v, a) = .ok s) (s : σ)
    (visits : List (Visit × α))
    : run step s visits = run take s (firsts visits) := by
  induction visits generalizing s with
  | nil => rfl
  | cons visit visits ih =>
    obtain ⟨v, a⟩ := visit
    cases hv : v.first with
    | false =>
      have hskip : firsts ((v, a) :: visits) = firsts visits := by simp [firsts, hv]
      rw [hskip, ← ih, run, hother s v a hv]
    | true =>
      have htake : firsts ((v, a) :: visits) = a :: firsts visits := by simp [firsts, hv]
      rw [htake, run, run, hfirst s v a hv]
      cases take s a with
      | error e => rfl
      | ok t => exact ih t

/--
A walk whose action takes each node at its first visit goes through the nodes in preorder.
-/
theorem run_twalk {step : σ → Visit × α → Except ε σ} {take : σ → α → Except ε σ}
    (hfirst : ∀ s v a, v.first = true → step s (v, a) = take s a)
    (hother : ∀ s v a, v.first = false → step s (v, a) = .ok s) (t : SearchTree α) (s : σ)
    : run step s t.twalk = run take s t.preorder := by
  rw [run_firsts hfirst hother, firsts_twalk]

end SearchTree
