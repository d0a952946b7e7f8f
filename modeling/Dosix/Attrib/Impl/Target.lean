import Dosix.Attrib.Impl.Traversal

/-!
This module contains `nsplit` and `process` of `attrib.c`: a target is copied to the path, its last
component becomes the mask, and the rest of the path is where the traversal begins.
-/

namespace Dosix
namespace Attrib

variable {φ : Type}

/--
The loop of `nsplit`, in which `pend` is `none` once it is `NULL`.
-/
def nsplitLoop (useattr : ATTR) (path : Buffer) (p : Nat) (pend : Option Nat) (fattr : ATTR)
    : Except Fault (Nat × Option Nat × ATTR) :=
  match p with
  | 0 => .ok (0, pend, fattr)
  | p + 1 =>
    match path[p]? with
    | none => .error .undefined
    | some c =>
      if c = '.' then
        nsplitLoop useattr path p pend fattr
      else if c ≠ '\\' ∧ c ≠ '/' ∧ c ≠ ':' then
        nsplitLoop useattr path p none (if c = '*' ∨ c = '?' then useattr else fattr)
      else
        .ok (p + 1, pend, fattr)

def nsplit (p : Nat) (s : State φ) : Except Fault (Nat × State φ) := do
  let (p, pend, fattr) ← nsplitLoop s.useattr s.path p (some p) ALL_ATTR
  match pend with
  | none =>
    let name ← s.path.read p
    let (_, mask) ← adds 0 name s.mask
    return (p, { s with findattr := fattr, mask := mask })
  | some pend =>
    let (p, path) ←
      if p < pend then
        if pend < s.path.length then
          pure (pend + 1, s.path.set pend '\\')
        else
          .error .undefined
      else
        pure (p, s.path)
    let (_, mask) ← adds 0 (.ofString "*.*") s.mask
    return (p, { s with path := path, findattr := s.useattr, mask := mask })

def process (F : Finder φ) (fuel : Nat) (target : Text) (s : State φ) : Except Fault (State φ) := do
  -- the check of the length of the target is commented out
  let s := { s with found := 0 }
  let (pathend, path) ← adds 0 target s.path
  let (p, s) ← nsplit pathend { s with path := path }
  let s ← doPath F fuel p s
  if s.found = 0 then
    return error E_TARGET target "no targets" s
  else
    return s

end Attrib
end Dosix
