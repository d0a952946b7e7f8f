import Dosix.Libc.Basic
import Dosix.Libc.Text
import Dosix.Dos.Impl.File

/-!
This module contains the constants and the global variables of `attrib.c`, what it prints, and the
search functions that it calls.
-/

namespace Dosix
namespace Attrib

abbrev ATTR := BitVec 8

def EXIT_OK : BitVec 8 := 0
def E_TARGET : BitVec 8 := 2
def E_LIST : BitVec 8 := 3
def E_OPTION : BitVec 8 := 4

def ALL_FILE : ATTR := (_A_RDONLY ||| _A_HIDDEN ||| _A_SYSTEM ||| _A_ARCH).setWidth 8
def ALL_ATTR : ATTR := ALL_FILE ||| _A_SUBDIR.setWidth 8
def DIR_ATTR : ATTR := ALL_ATTR

def PATHLEN : Nat := 260

-- the indices of the parts of `info`
def OLD_ATTR : Nat := 1
def NEW_PART : Nat := 8

inductive Output where
  -- to `stdout`
  | say (s1 s2 : Text)
  -- to `stderr`
  | error (err : String) (arg : Text)
  deriving Repr, DecidableEq

/--
The global variables, with the search record of `do_mask`, of some type `φ`.
-/
structure State (φ : Type) where
  recurse : BitVec 8 := 0
  useattr : ATTR := ALL_FILE
  attrKeep : ATTR := ~~~0
  attrSet : ATTR := 0
  findattr : ATTR := 0
  path : Buffer := List.replicate (PATHLEN + 4) NUL
  mask : Buffer := List.replicate PATHLEN NUL
  info : Buffer := "[-----] -> [-----] ".toList ++ [NUL]
  found : BitVec 32 := 0
  retcode : BitVec 8 := EXIT_OK
  iscomma : BitVec 8 := 0
  fi : φ
  output : List Output := []
  -- the attributes that `do_mask` has computed for `_dos_setfileattr`, which it does not call
  computed : List ATTR := []

/--
The search functions with their records, the public part of a record, and what an automatic one
happens to hold.
-/
structure Finder (φ : Type) where
  findfirst : Text → BitVec 32 → φ → BitVec 32 × φ
  findnext : φ → BitVec 32 × φ
  name : φ → Text
  attrib : φ → BitVec 32
  uninit : φ

variable {φ : Type}

def say (s1 s2 : Text) (s : State φ) : State φ :=
  { s with output := s.output ++ [.say s1 s2] }

def error (errcode : BitVec 8) (arg : Text) (err : String) (s : State φ) : State φ :=
  { s with
    retcode := if s.retcode < errcode then errcode else s.retcode
    output := s.output ++ [.error err arg] }

end Attrib
end Dosix
