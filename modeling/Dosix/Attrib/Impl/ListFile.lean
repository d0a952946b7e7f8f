import Dosix.Attrib.Impl.CommandLine
import Dosix.Libc.Traced

/-!
This module contains `trimsq` and `list` of `attrib.c`: the lines of a file are read into an array,
trimmed and handed to `process` as targets.
-/

namespace Dosix
namespace Attrib

variable {φ : Type}

def isBlank (c : Char) : Bool :=
  c = ' ' || c = '\t'

/--
The first loop of `trimsq`. It returns from `trimsq`, which is `none`, or ends at an index.
-/
def trailing (p : Nat) (pend : Nat) (line : Traced) : Except Fault (Option Nat × Traced) :=
  if pend = p then do
    let line ← line.store pend NUL
    return (none, line)
  else
    match pend with
    | 0 => .error .undefined
    | pend + 1 => do
      let (c, line) ← line.load pend
      if isBlank c then
        trailing p pend line
      else
        return (some pend, line)

/--
The second loop, with `left` characters left in the array.
-/
def leading (left : Nat) (p : Nat) (line : Traced) : Except Fault (Nat × Traced) := do
  let (c, line) ← line.load p
  if isBlank c then
    match left with
    | 0 => .error .undefined
    | left + 1 => leading left (p + 1) line
  else
    return (p, line)

def quotes (p pend : Nat) (line : Traced) : Except Fault ((Nat × Nat) × Traced) := do
  if p < pend then
    let (c, line) ← line.load p
    if c = '"' then
      let (d, line) ← line.load pend
      if d = '"' then
        return ((p + 1, pend - 1), line)
      else
        return ((p, pend), line)
    else
      return ((p, pend), line)
  else
    return ((p, pend), line)

def trimsq (p pend : Nat) (line : Traced) : Except Fault (Nat × Traced) := do
  match ← trailing p pend line with
  | (none, line) => return (p, line)
  | (some pend, line) =>
    let (p, line) ← leading (line.buf.length - p) p line
    let ((p, pend), line) ← quotes p pend line
    let line ← line.store (pend + 1) NUL
    return (p, line)

/--
The loop that fills the line, with the last character that `fgetc` has returned, or `none` for
`EOF`.
-/
def fill (p : Nat) (line : Buffer) (fp : List Char)
    : Except Fault (Option Char × Nat × Buffer × List Char) :=
  match fp with
  | [] => .ok (none, p, line, [])
  | ch :: fp =>
    if ch = '\n' then
      .ok (some ch, p, line, fp)
    else if p < line.length then
      let line := line.set p ch
      if p + 1 < PATHLEN - 1 then
        fill (p + 1) line fp
      else
        .ok (some ch, p + 1, line, fp)
    else
      .error .undefined

def EOF : Int := -1

section

variable (process : Text → State φ → Except Fault (State φ))

def processLine (p : Nat) (line : Buffer) (s : State φ) : Except Fault (Buffer × State φ) := do
  let c ← Buffer.deref (line.drop p)
  if c ≠ NUL then
    let line := line.take p ++ strupr (line.drop p)
    let target ← Buffer.read line p
    let s ← process target s
    return (line, s)
  else
    return (line, s)

/--
The loop of `list`, with what is left of the file.
-/
def listLoop (fuel : Nat) (fp : List Char) (line : Buffer) (s : State φ)
    : Except Fault (List Char × Buffer × State φ) :=
  match fuel with
  | 0 => .error .unfinished
  | fuel + 1 => do
    let (ch, p, line, fp) ← fill 0 line fp
    let eof : Int := match ch with
      | none => EOF
      | some ch => ch.toNat
    let (p, line) ← trimsq 0 p { buf := line }
    let (line, s) ← processLine process p line.buf s
    let eof := eof - EOF
    if eof ≠ 0 then
      listLoop fuel fp line s
    else
      return (fp, line, s)

/--
`list`, with the contents of the files that `fopen` finds and of `stdin`, and what the static `line`
holds.
-/
def list (fopen : Text → Option (List Char)) (stdin : List Char) (line : Buffer) (fuel : Nat)
    (name : Text) (s : State φ) : Except Fault (State φ) :=
  match if name.chars = [] then some stdin else fopen name with
  | none => .ok (error E_LIST name "error open file" s)
  | some fp => (listLoop process fuel fp line s).map fun p => p.2.2

end

end Attrib
end Dosix
