import Mathlib.Data.List.Basic
import Mathlib.Order.Lattice

/-!
This module contains binary search trees in the manner of POSIX `<search.h>`. A node has an identity
(its address) and a key slot, and a caller may keep a pointer to that slot across later calls, so
both are part of the tree. The operations are driven by a comparison `c` of the sought key against
the key of a node: negative, zero or positive as the sought key is below, at or above it.
-/

inductive SearchTree (α : Type) where
  | leaf
  | node (left : SearchTree α) (id : Nat) (key : α) (right : SearchTree α)
  deriving Repr, DecidableEq

namespace SearchTree

variable {α : Type}

def nodes (t : SearchTree α) : List (Nat × α) :=
  match t with
  | .leaf => []
  | .node l id k r => l.nodes ++ (id, k) :: r.nodes

def keys (t : SearchTree α) : List α :=
  t.nodes.map Prod.snd

def ids (t : SearchTree α) : List Nat :=
  t.nodes.map Prod.fst

def slot (t : SearchTree α) (id : Nat) : Option α :=
  t.nodes.lookup id

def setSlot (t : SearchTree α) (id : Nat) (k : α) : SearchTree α :=
  match t with
  | .leaf => .leaf
  | .node l i x r => .node (l.setSlot id k) i (if i = id then k else x) (r.setSlot id k)

def freshId (t : SearchTree α) : Nat :=
  t.ids.foldr (fun i n => max (i + 1) n) 0

def tfind (c : α → Int) (t : SearchTree α) : Option Nat :=
  match t with
  | .leaf => none
  | .node l id k r =>
    if c k = 0 then
      some id
    else if c k < 0 then
      l.tfind c
    else
      r.tfind c

def searchPath (c : α → Int) (t : SearchTree α) : List α :=
  match t with
  | .leaf => []
  | .node l _ k r =>
    if c k = 0 then
      [k]
    else if c k < 0 then
      k :: l.searchPath c
    else
      k :: r.searchPath c

def insertNode (c : α → Int) (id : Nat) (k : α) (t : SearchTree α) : SearchTree α :=
  match t with
  | .leaf => .node .leaf id k .leaf
  | .node l i x r =>
    if c x = 0 then
      .node l i x r
    else if c x < 0 then
      .node (l.insertNode c id k) i x r
    else
      .node l i x (r.insertNode c id k)

/--
A way of restoring balance: it may move the nodes about, but it never changes their sequence.
-/
structure Balancing (α : Type) where
  apply : SearchTree α → SearchTree α
  nodes_apply : ∀ t, (apply t).nodes = t.nodes

def Balancing.id : Balancing α where
  apply t := t
  nodes_apply _ := rfl

instance : Inhabited (Balancing α) where
  default := .id

/--
Find the node of a key or insert a new one. `memory` says whether there is memory for a new node;
without it `tsearch` fails on an absent key.
-/
def tsearch (bal : Balancing α) (c : α → Int) (k : α) (memory : Bool) (t : SearchTree α)
    : Option Nat × SearchTree α :=
  match t.tfind c with
  | some id => (some id, bal.apply t)
  | none =>
    if memory then
      (some t.freshId, bal.apply (t.insertNode c t.freshId k))
    else
      (none, t)

def popMin (l : SearchTree α) (id : Nat) (k : α) (r : SearchTree α)
    : (Nat × α) × SearchTree α :=
  match l with
  | .leaf => ((id, k), r)
  | .node ll lid lk lr =>
    let ⟨m, l⟩ := popMin ll lid lk lr
    (m, .node l id k r)

/--
Delete the key of the root `id` with subtrees `l` and `r`. A root with at most one child
is unlinked and freed. A root with two children takes over the key of its in-order successor, and
the node of the successor is the one that is freed. The result is the identity of the freed node and
the rest.
-/
def unlink (l : SearchTree α) (id : Nat) (r : SearchTree α) : Nat × SearchTree α :=
  match l, r with
  | .leaf, r => (id, r)
  | l, .leaf => (id, l)
  | l, .node rl rid rk rr =>
    let ⟨⟨sid, sk⟩, r⟩ := popMin rl rid rk rr
    (sid, .node l id sk r)

def tdelete.go (c : α → Int) (t : SearchTree α) : Option (Nat × SearchTree α) :=
  match t with
  | .leaf => none
  | .node l id k r =>
    if c k = 0 then
      some (unlink l id r)
    else if c k < 0 then
      (go c l).map fun ⟨freed, l⟩ => (freed, .node l id k r)
    else
      (go c r).map fun ⟨freed, r⟩ => (freed, .node l id k r)

def tdelete (bal : Balancing α) (c : α → Int) (t : SearchTree α)
    : Option (Nat × SearchTree α) :=
  (tdelete.go c t).map fun ⟨freed, t⟩ => (freed, bal.apply t)

def innerAt (c : α → Int) (t : SearchTree α) : Bool :=
  match t with
  | .leaf => false
  | .node l _ k r =>
    if c k = 0 then
      match l, r with
      | .node .., .node .. => true
      | _, _ => false
    else if c k < 0 then
      l.innerAt c
    else
      r.innerAt c

variable {ι : Type} [LinearOrder ι]

def IsSearchTree (rank : α → ι) (t : SearchTree α) : Prop :=
  match t with
  | .leaf => True
  | .node l _ k r =>
    l.IsSearchTree rank ∧ r.IsSearchTree rank
      ∧ (∀ x ∈ l.keys, rank x < rank k) ∧ (∀ x ∈ r.keys, rank k < rank x)

structure Seeks (rank : α → ι) (i : ι) (c : α → Int) : Prop where
  eq_zero : ∀ x, c x = 0 ↔ i = rank x
  neg : ∀ x, c x < 0 ↔ i < rank x

end SearchTree
