import Dosix.Libc.Text

/-!
This module contains arrays of characters that keep a record of the accesses to them.
-/

namespace Dosix

structure Traced where
  buf : Buffer
  -- the indices that have been read, and what has been written where, the last access first
  reads : List Nat := []
  writes : List (Nat × Char) := []
  deriving Repr, DecidableEq

namespace Traced

def load (i : Nat) (m : Traced) : Except Fault (Char × Traced) :=
  match m.buf[i]? with
  | none => .error .undefined
  | some c => .ok (c, { m with reads := i :: m.reads })

def store (i : Nat) (c : Char) (m : Traced) : Except Fault Traced :=
  if i < m.buf.length then
    .ok { m with buf := m.buf.set i c, writes := (i, c) :: m.writes }
  else
    .error .undefined

end Traced
end Dosix
