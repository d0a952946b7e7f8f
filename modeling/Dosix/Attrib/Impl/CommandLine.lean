import Dosix.Attrib.Basic

/-!
This module contains `main` of `attrib.c`: it parses the command line and hands the targets to
`process` and the names of the files with targets to `list`.
-/

namespace Dosix

def Text.array (t : Text) : Buffer := t.chars ++ [NUL]

def Text.tail (t : Text) : Text where
  chars := t.chars.tail
  noNul := fun h => t.noNul (List.mem_of_mem_tail h)

def toupper (c : Char) : Char := c.toUpper

def strupr (string : Buffer) : Buffer :=
  (string.takeWhile (· ≠ NUL)).map toupper ++ string.dropWhile (· ≠ NUL)

/--
The character that a pointer points to, where `arg` is the array from the pointer on.
-/
def Buffer.deref (arg : Buffer) : Except Fault Char :=
  match arg with
  | [] => .error .undefined
  | ch :: _ => .ok ch

namespace Attrib

variable {φ : Type}

def VERSION : String := "2.1"

def HELP (s : State φ) : State φ :=
  say (.ofString ("ATTRIB v" ++ VERSION ++ " - Displays or changes file attributes.\n" ++
    "Copyright (c) 1998-2003, licensed under GPL2.\n\n" ++
    "Syntax: ATTRIB \x7b options | [path][file] | /@[list] \x7d\n\n" ++
    "Options:\n\n" ++
    "  +H  Sets the Hidden attribute.     -H  Clears the Hidden attribute.\n" ++
    "  +S  Sets the System attribute.     -S  Clears the System attribute.\n" ++
    "  +R  Sets the Read-only attribute.  -R  Clears the Read-only attribute.\n" ++
    "  +A  Sets the Archive attribute.    -A  Clears the Archive attribute.\n\n" ++
    "  /S  Process files in all directories in the specified path(es).\n" ++
    "  /D  Process directory names for arguments with wildcards.\n" ++
    "  /@  Process files, listed in the specified file [or in stdin].\n\n" ++
    "Examples:\n\n" ++
    "  attrib file -rhs\n" ++
    "  attrib +a -r dir1\\ dir2\\*.dat /s\n" ++
    "  attrib -hs/sd /@list.txt *.*")) .empty s

/-! The argument that `arg` points into. -/

inductive Parsed (φ : Type) where
  -- `main` has returned
  | returned (s : State φ)
  | rest (arg : Buffer) (s : State φ)

def sayerror (arg : Buffer) (err : String) (s : State φ) : Except Fault (Parsed φ) := do
  let arg ← arg.read 0
  return .returned (error E_OPTION arg err s)

def letterMask (ch : Char) : ATTR :=
  if ch = 'A' then
    _A_ARCH.setWidth 8
  else if ch = 'R' then
    _A_RDONLY.setWidth 8
  else if ch = 'S' then
    _A_SYSTEM.setWidth 8
  else if ch = 'H' then
    _A_HIDDEN.setWidth 8
  else
    0

def addMask (ch0 : Char) (mask : ATTR) (s : State φ) : State φ :=
  { s with
    attrSet := if ch0 = '+' then s.attrSet ||| mask else s.attrSet
    attrKeep := s.attrKeep &&& ~~~mask }

def attributeLoop (ch0 : Char) (arg : Buffer) (s : State φ) : Except Fault (Parsed φ) :=
  match arg with
  | [] => .error .undefined
  | ch :: arg =>
    let mask := letterMask ch
    if mask = 0 then
      sayerror (ch :: arg) "invalid attribute" s
    else do
      let s := addMask ch0 mask s
      let next ← Buffer.deref arg
      if next ≠ NUL ∧ next ≠ '/' then
        attributeLoop ch0 arg s
      else
        return .rest arg s

def setOption (ch : Char) (s : State φ) : State φ :=
  if ch = 'S' then
    { s with recurse := 1 }
  else
    { s with useattr := ALL_ATTR }

/--
The loop for the options. `passed` says that the `/` which the next one may have is behind it.
-/
def optionLoop (passed : Bool) (arg : Buffer) (s : State φ) : Except Fault (Parsed φ) :=
  match arg with
  | [] => .error .undefined
  | ch :: arg =>
    if ch = '/' ∧ ¬passed then
      optionLoop true arg s
    else if ch = '?' then
      .ok (.returned (HELP s))
    else if ch = '@' then
      .ok (.rest ('/' :: arg) s)
    else if ch ≠ 'S' ∧ ch ≠ 'D' then
      sayerror (ch :: arg) "invalid option" s
    else do
      let s := setOption ch s
      let next ← Buffer.deref arg
      if next ≠ NUL then
        optionLoop false arg s
      else
        return .rest arg s

def commaPart (arg : Buffer) (s : State φ) : Except Fault (Buffer × State φ) := do
  let ch ← arg.deref
  if ch = ',' then
    return (arg.tail, { s with iscomma := 1 })
  else
    return (arg, s)

def attributePart (arg : Buffer) (s : State φ) : Except Fault (Parsed φ) := do
  let ch0 ← arg.deref
  if ch0 = '+' ∨ ch0 = '-' then
    attributeLoop ch0 arg.tail s
  else
    return .rest arg s

def optionPart (arg : Buffer) (s : State φ) : Except Fault (Parsed φ) := do
  let ch ← arg.deref
  if ch = '/' then
    optionLoop false arg s
  else
    return .rest arg s

def parseArg (arg : Buffer) (s : State φ) : Except Fault (Parsed φ) := do
  let (arg, s) ← commaPart arg s
  match ← attributePart arg s with
  | .returned s => return .returned s
  | .rest arg s => optionPart arg s

/-! The array of pointers, which `main` rewrites, and the arrays of characters behind them. -/

structure Pointer where
  array : Nat
  offset : Nat
  deriving Repr, DecidableEq

structure Arguments where
  arrays : List Buffer
  argv : List Pointer

namespace Arguments

/--
Each argument has an array of its own. The last array is that of the literal `"*.*"`.
-/
def ofTexts (args : List Text) : Arguments where
  arrays := args.map Text.array ++ [(Text.ofString "*.*").array]
  argv := (List.range args.length).map (⟨·, 0⟩)

def literal (m : Arguments) : Pointer := ⟨m.arrays.length - 1, 0⟩

def slot (m : Arguments) (p : Nat) : Except Fault Pointer :=
  match m.argv[p]? with
  | some arg => .ok arg
  | none => .error .undefined

def setSlot (m : Arguments) (q : Nat) (arg : Pointer) : Except Fault Arguments :=
  if q < m.argv.length then
    .ok { m with argv := m.argv.set q arg }
  else
    .error .undefined

def array (m : Arguments) (arg : Pointer) : Except Fault Buffer :=
  match m.arrays[arg.array]? with
  | some buf => .ok buf
  | none => .error .undefined

def setArray (m : Arguments) (arg : Pointer) (buf : Buffer) : Arguments :=
  { m with arrays := m.arrays.set arg.array buf }

def text (m : Arguments) (arg : Pointer) : Except Fault Text := do
  let buf ← m.array arg
  buf.read arg.offset

end Arguments

/-! The loops of `main`. -/

inductive Line (φ : Type) where
  | returned (s : State φ)
  | parsed (q : Nat) (m : Arguments) (s : State φ)

/--
`if (*arg) *q++ = arg`
-/
def keep (arg : Buffer) (pointer : Pointer) (q : Nat) (m : Arguments)
    : Except Fault (Nat × Arguments) := do
  let ch ← arg.deref
  if ch ≠ NUL then
    let m ← m.setSlot q pointer
    return (q + 1, m)
  else
    return (q, m)

/--
The loop over the arguments, with `argc` of them to come.
-/
def parseLoop (argc : Nat) (p q : Nat) (m : Arguments) (s : State φ) : Except Fault (Line φ) :=
  match argc with
  | 0 => .ok (.parsed q m s)
  | argc + 1 => do
    let p := p + 1
    let arg ← m.slot p
    let buf ← m.array arg
    let string := strupr (buf.drop arg.offset)
    match ← parseArg string s with
    | .returned s => return .returned s
    | .rest rest s =>
      -- how far the pointer has moved
      let moved := string.length - rest.length
      let m := m.setArray arg (buf.take arg.offset ++ string.take moved ++ rest)
      let (q, m) ← keep rest ⟨arg.array, arg.offset + moved⟩ q m
      parseLoop argc p q m s

def adjust (s : State φ) : State φ :=
  if s.attrKeep = ~~~0 then
    if s.iscomma ≠ 0 then
      { s with attrKeep := ~~~ALL_FILE }
    else
      { s with info := s.info.set NEW_PART NUL }
  else
    s

section

variable (process list : Text → State φ → Except Fault (State φ))

def perform (target : Text) (s : State φ) : Except Fault (State φ) :=
  if target.chars.head? = some '/' then
    list target.tail s
  else
    process target s

/--
The last loop, with `turns` turns after the first one.
-/
def performLoop (turns : Nat) (p : Nat) (m : Arguments) (s : State φ)
    : Except Fault (State φ) := do
  let arg ← m.slot p
  let target ← m.text arg
  let s ← perform process list target s
  match turns with
  | 0 => return s
  | turns + 1 => performLoop turns (p + 1) m s

def main (argv : List Text) (s : State φ) : Except Fault (BitVec 8 × State φ) := do
  match ← parseLoop (argv.length - 1) 0 0 (.ofTexts argv) s with
  | .returned s => return (s.retcode, s)
  | .parsed q m s =>
    let m ← m.setSlot q m.literal
    let s ← performLoop process list (q - 1) 0 m (adjust s)
    return (s.retcode, s)

end

end Attrib
end Dosix
