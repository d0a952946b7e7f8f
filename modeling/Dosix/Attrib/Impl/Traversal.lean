import Dosix.Attrib.Basic

/-!
This module contains the traversal of directories in `attrib.c`: `do_mask` looks for the files of
one directory, `do_path` does so for it and the directories below it.
-/

namespace Dosix
namespace Attrib

variable {φ : Type}

def adds (dst : Nat) (src : Text) (buf : Buffer) : Except Fault (Nat × Buffer) :=
  buf.stpcpy dst src

def letters (attr : ATTR) : List Char :=
  [if attr &&& _A_SUBDIR.setWidth 8 ≠ 0 then 'D' else '-',
    if attr &&& _A_HIDDEN.setWidth 8 ≠ 0 then 'H' else '-',
    if attr &&& _A_SYSTEM.setWidth 8 ≠ 0 then 'S' else '-',
    if attr &&& _A_RDONLY.setWidth 8 ≠ 0 then 'R' else '-',
    if attr &&& _A_ARCH.setWidth 8 ≠ 0 then 'A' else '-']

def attr2str (str : Nat) (attr : ATTR) (buf : Buffer) : Except Fault (ATTR × Buffer) :=
  if str + 5 ≤ buf.length then
    .ok (attr, buf.take str ++ letters attr ++ buf.drop (str + 5))
  else
    .error .undefined

/--
The name consists of dots only, as those of a directory itself and of the one above it.
-/
def isDots (name : Text) : Bool :=
  name.chars.dropWhile (· = '.') = []

def newAttr (attr : ATTR) (s : State φ) : State φ :=
  if s.info[NEW_PART]? ≠ some NUL then
    -- the call of `_dos_setfileattr` with this attribute is commented out
    { s with computed := s.computed ++ [(attr &&& s.attrKeep) ||| s.attrSet] }
  else
    s

def sayFile (F : Finder φ) (pathend : Nat) (s : State φ) : Except Fault (State φ) := do
  let (_, path) ← adds pathend (F.name s.fi) s.path
  let s := { s with path := path, found := s.found + 1 }
  let (attr, info) ← attr2str OLD_ATTR ((F.attrib s.fi).setWidth 8) s.info
  let s := newAttr attr { s with info := info }
  let info ← s.info.read 0
  let path ← s.path.read 0
  return say info path s

/--
The loop of `do_mask` up to its condition.
-/
def doMaskBody (F : Finder φ) (pathend : Nat) (s : State φ) : Except Fault (State φ) :=
  if isDots (F.name s.fi) then
    .ok s
  else
    sayFile F pathend s

def doMaskLoop (F : Finder φ) (pathend : Nat) (fuel : Nat) (s : State φ)
    : Except Fault (State φ) :=
  match fuel with
  | 0 => .error .unfinished
  | fuel + 1 => do
    let s ← doMaskBody F pathend s
    let (code, fi) := F.findnext s.fi
    let s := { s with fi := fi }
    if code = 0 then
      doMaskLoop F pathend fuel s
    else
      return s

def doMask (F : Finder φ) (pathend : Nat) (fuel : Nat) (s : State φ)
    : Except Fault (State φ) := do
  let mask ← s.mask.read 0
  let (_, path) ← adds pathend mask s.path
  let s := { s with path := path }
  let path ← s.path.read 0
  let (code, fi) := F.findfirst path (s.findattr.setWidth 32) s.fi
  let s := { s with fi := fi }
  if code ≠ 0 then
    return s
  else
    doMaskLoop F pathend fuel s

/--
The loop of `do_path` up to its condition. The recursive call is that of `again`.
-/
def doPathBody (F : Finder φ) (again : Nat → State φ → Except Fault (State φ)) (pathend : Nat)
    (fi : φ) (s : State φ) : Except Fault (State φ) :=
  if F.attrib fi &&& _A_SUBDIR = 0 then
    .ok s
  else if isDots (F.name fi) then
    .ok s
  else do
    let (pend, path) ← adds pathend (F.name fi) s.path
    let (pend, path) ← adds pend (.ofString "\\") path
    again pend { s with path := path }

def doPathLoop (F : Finder φ) (again : Nat → State φ → Except Fault (State φ)) (pathend : Nat)
    (fuel : Nat) (fi : φ) (s : State φ) : Except Fault (State φ) :=
  match fuel with
  | 0 => .error .unfinished
  | fuel + 1 => do
    let s ← doPathBody F again pathend fi s
    let (code, fi) := F.findnext fi
    if code = 0 then
      doPathLoop F again pathend fuel fi s
    else
      return s

/--
`do_path`, followed for `fuel` levels of directories and turns of a loop.
-/
def doPath (F : Finder φ) (fuel : Nat) (pathend : Nat) (s : State φ)
    : Except Fault (State φ) :=
  match fuel with
  | 0 => .error .unfinished
  | fuel + 1 => do
    let s ← doMask F pathend fuel s
    if s.recurse = 0 then
      return s
    else
      let (_, path) ← adds pathend (.ofString "*.*") s.path
      let s := { s with path := path }
      let path ← s.path.read 0
      let (code, fi) := F.findfirst path (DIR_ATTR.setWidth 32) F.uninit
      if code ≠ 0 then
        return s
      else
        doPathLoop F (doPath F fuel) pathend fuel fi s

end Attrib
end Dosix
