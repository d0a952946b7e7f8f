import Dosix.Libc.Basic
import Dosix.SearchTree.Basic
import Dosix.SearchTree.Walk
import Mathlib.Algebra.Group.Nat.Defs

/-!
This module contains the functions of `stdio.c` that open and close streams: `fopen`, `fclose` and
`_fcloseall` on top of those of the underlying C library, with a registry of streams in a search
tree.
-/

namespace Dosix
namespace Stdio

open SearchTree Transition

inductive Event where
  | fopen (stream : Addr)
  | fclose (stream : Addr)
  deriving Repr, DecidableEq

structure Streams where
  streamTree : SearchTree Addr := .leaf
  streamCloseCount : Size := 0
  -- the streams that are open in the C library
  opened : List Addr := []
  -- the streams that its `fopen` has returned, and those that its `fclose` has been called with
  log : List Event := []

structure Choices where
  -- the result of the underlying `fopen`, `0` on failure
  stream : Addr := 0
  -- those of the underlying `fclose` and `fcloseall`
  fclose : Addr → Int := fun _ => 0
  fcloseall : Int := 0
  -- whether `tsearch` gets memory for a node
  memory : Bool := true
  bal : Balancing Addr := .id
  -- the value of `stream_tree`, which is the address of the root node or `NULL`
  root : Addr := 0
  -- the nodes that the words after `stream_tree` lead to, if they can be taken for links
  links : Option (SearchTree Addr × SearchTree Addr) := none

/--
`stream_cmp`, which returns a difference of pointers as an `int`. C leaves the difference open
where the pointers do not point into one array: it is `diff`.
-/
def streamCmp (diff : Addr → Addr → BitVec 64) (a b : Addr) : Int :=
  ((diff a b).setWidth 32).toInt

/--
The difference of pointers to objects of `size` bytes as the distance divided by `size`.
-/
def quotient (size : Nat) (a b : Addr) : BitVec 64 :=
  BitVec.ofInt 64 (((a.toNat : Int) - b.toNat).tdiv size)

namespace Streams

def fopen (env : Choices) (s : Streams) : Addr × Streams :=
  if env.stream = 0 then
    (0, s)
  else
    (env.stream, { s with
      opened := env.stream :: s.opened
      log := s.log ++ [.fopen env.stream] })

/--
The stream is gone whatever `fclose` returns, and it must not be closed again.
-/
def fclose (env : Choices) (stream : Addr) (s : Streams) : Except Fault (Int × Streams) :=
  if stream ∈ s.opened then
    .ok (env.fclose stream, { s with
      opened := s.opened.erase stream
      log := s.log ++ [.fclose stream] })
  else
    .error .undefined

def fcloseall (env : Choices) (s : Streams) : Int × Streams :=
  (env.fcloseall, { s with opened := [] })

end Streams

def fcloseTwalk (env : Choices) (stream : Addr) (value : Visit) (s : Streams)
    : Except Fault Streams :=
  if value ≠ .leaf ∧ value ≠ .preorder then
    .ok s
  else
    match s.fclose env stream with
    | .error f => .error f
    | .ok (ret, s) =>
      if ret = 0 then
        .ok { s with streamCloseCount := s.streamCloseCount + 1 }
      else
        .ok s

def dosixFopen (diff : Addr → Addr → BitVec 64) (env : Choices) (s : Streams)
    : Except Fault (Addr × Streams) :=
  let (stream, s) := s.fopen env
  if stream = 0 then
    .ok (0, s)
  else
    match s.streamTree.tsearch env.bal (streamCmp diff stream) stream env.memory with
    | (none, _) =>
      match s.fclose env stream with
      | .error f => .error f
      | .ok (_, s) => .ok (0, s)
    | (some slot, tree) =>
      if tree.slot slot = some stream then
        .ok (stream, { s with streamTree := tree })
      else
        .error .assertion

def dosixFclose (diff : Addr → Addr → BitVec 64) (env : Choices) (stream : Addr) (s : Streams)
    : Except Fault (Int × Streams) :=
  match s.streamTree.tsearch env.bal (streamCmp diff stream) stream env.memory with
  | (none, _) => s.fclose env stream
  | (some slot, tree) =>
    if tree.slot slot = some stream then
      match tree.tdelete env.bal (streamCmp diff stream) with
      | none => .error .assertion
      | some (_, tree) => { s with streamTree := tree }.fclose env stream
    else
      .error .assertion

/--
`_fcloseall`, which hands `twalk` the address of `stream_tree`, not the root.
-/
def dosixFcloseall (env : Choices) (s : Streams) : Except Fault (Int × Streams) :=
  let s := { s with streamCloseCount := 0 }
  match env.links with
  | none => .error .undefined
  | some links =>
    match run (fun s v => fcloseTwalk env v.2 v.1 s) s (misrooted env.root links).twalk with
    | .error f => .error f
    | .ok s => .ok (s.fcloseall env)

/-!
A program that uses streams: those that it got from `fopen` and has not closed are its live ones.
-/

inductive Op where
  | fopen
  | fclose (stream : Addr)
  | fcloseall
  deriving Repr, DecidableEq

structure Call where
  op : Op
  env : Choices := {}

structure Session where
  streams : Streams := {}
  live : List Addr := []

def step (diff : Addr → Addr → BitVec 64) (s : Session) (call : Call) : Except Fault Session :=
  match call.op with
  | .fopen =>
    match dosixFopen diff call.env s.streams with
    | .error f => .error f
    | .ok (stream, streams) =>
      .ok ⟨streams, if stream = 0 then s.live else stream :: s.live⟩
  | .fclose stream =>
    match dosixFclose diff call.env stream s.streams with
    | .error f => .error f
    | .ok (_, streams) => .ok ⟨streams, s.live.erase stream⟩
  | .fcloseall =>
    match dosixFcloseall call.env s.streams with
    | .error f => .error f
    | .ok (_, streams) => .ok ⟨streams, []⟩

end Stdio
end Dosix
