import Dosix.Attrib.Impl.ListFile
import Dosix.Attrib.Impl.Target

/-!
This module contains `attrib.c` as a program: its functions put together, with what is left of
`stdin` and what the static array of `list` holds from one call of `list` to the next one.
-/

namespace Dosix
namespace Attrib

variable {φ ω : Type}

/--
The search functions, in a state in which something is kept beside their records.
-/
def Finder.beside (F : Finder φ) (v : ω) : Finder (φ × ω) where
  findfirst := fun path attrib f =>
    let (code, fi) := F.findfirst path attrib f.1
    (code, fi, f.2)
  findnext := fun f =>
    let (code, fi) := F.findnext f.1
    (code, fi, f.2)
  name := fun f => F.name f.1
  attrib := fun f => F.attrib f.1
  uninit := (F.uninit, v)

structure Static where
  stdin : List Char
  line : Buffer := List.replicate PATHLEN NUL

/--
`list` as the program calls it, one time after the other.
-/
def listNext (process : Text → State (φ × Static) → Except Fault (State (φ × Static)))
    (fopen : Text → Option (List Char)) (fuel : Nat) (name : Text) (s : State (φ × Static))
    : Except Fault (State (φ × Static)) :=
  match if name.chars = [] then some s.fi.2.stdin else fopen name with
  | none => .ok (error E_LIST name "error open file" s)
  | some fp => do
    let (fp, line, t) ← listLoop process fuel fp s.fi.2.line s
    let stdin := if name.chars = [] then fp else s.fi.2.stdin
    return { t with fi := (t.fi.1, { stdin := stdin, line := line }) }

/--
The program, from the values that the variables are declared with.
-/
def run (F : Finder φ) (fopen : Text → Option (List Char)) (stdin : List Char) (fuel : Nat)
    (argv : List Text) (fi : φ) : Except Fault (BitVec 8 × State (φ × Static)) :=
  let process := process (F.beside { stdin := stdin }) fuel
  main process (listNext process fopen fuel) argv { fi := (fi, { stdin := stdin }) }

end Attrib
end Dosix
