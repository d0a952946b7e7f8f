import Dosix.Libc.Basic
import Mathlib.Data.List.TakeWhile

/-!
This module contains the strings of C and the arrays of characters that hold them.
-/

namespace Dosix

def NUL : Char := Char.ofNat 0

/--
A string without the NUL that ends it.
-/
structure Text where
  chars : List Char
  noNul : NUL ∉ chars
  deriving DecidableEq, Repr

namespace Text

def empty : Text := ⟨[], List.not_mem_nil⟩

def length (t : Text) : Nat := t.chars.length

def append (t u : Text) : Text where
  chars := t.chars ++ u.chars
  noNul := by
    rw [List.mem_append, not_or]
    exact ⟨t.noNul, u.noNul⟩

instance : Append Text := ⟨append⟩

instance : Inhabited Text := ⟨empty⟩

@[simp]
theorem chars_append (t u : Text) : (t ++ u).chars = t.chars ++ u.chars := rfl

@[simp]
theorem length_append (t u : Text) : (t ++ u).length = t.length + u.length := by
  simp [length]

theorem ext_chars {t u : Text} (h : t.chars = u.chars) : t = u := by
  cases t
  cases u
  simpa using h

/--
The characters up to the first NUL.
-/
def ofChars (cs : List Char) : Text where
  chars := cs.takeWhile (· ≠ NUL)
  noNul := by
    intro h
    simpa using List.mem_takeWhile_imp h

theorem ofChars_chars_append (t : Text) (cs : List Char)
    : ofChars (t.chars ++ cs) = t ++ ofChars cs := by
  apply ext_chars
  unfold ofChars
  dsimp only [chars_append]
  rw [List.takeWhile_append_of_pos]
  intro c hc
  simp only [ne_eq, decide_eq_true_eq]
  exact fun heq => t.noNul (heq ▸ hc)

def ofString (s : String) : Text := ofChars s.toList

@[simp]
theorem ofChars_chars (t : Text) : ofChars t.chars = t := by
  have h := ofChars_chars_append t []
  rw [List.append_nil] at h
  rw [h]
  apply ext_chars
  simp [ofChars]

theorem ofChars_append (t : Text) (cs : List Char)
    : ofChars (t.chars ++ NUL :: cs) = t := by
  rw [ofChars_chars_append]
  apply ext_chars
  simp [ofChars]

end Text

/-! Arrays. -/

abbrev Buffer := List Char

namespace Buffer

/--
The string that starts at index `i`. Without a NUL behind it there is none.
-/
def read (buf : Buffer) (i : Nat) : Except Fault Text :=
  if NUL ∈ buf.drop i then
    .ok (.ofChars (buf.drop i))
  else
    .error .undefined

/--
Copy a string to the index `dst`. The result is the index of its NUL.
-/
def stpcpy (buf : Buffer) (dst : Nat) (src : Text) : Except Fault (Nat × Buffer) :=
  if dst + src.length < buf.length then
    .ok (dst + src.length, buf.take dst ++ src.chars ++ NUL :: buf.drop (dst + src.length + 1))
  else
    .error .undefined

theorem read_append (t : Text) (cs : List Char)
    : read (t.chars ++ NUL :: cs) 0 = .ok t := by
  unfold read
  rw [List.drop_zero, if_pos (by simp), Text.ofChars_append]

/--
Appending to the string that the array starts with.
-/
theorem stpcpy_eq {buf : Buffer} {t : Text} (src : Text) (ht : t.chars <+: buf)
    (hlt : t.length + src.length < buf.length)
    : ∃ buf', stpcpy buf t.length src = .ok ((t ++ src).length, buf') ∧ buf'.length = buf.length
        ∧ (t ++ src).chars <+: buf' ∧ read buf' 0 = .ok (t ++ src) := by
  have htake : buf.take t.length = t.chars := (List.prefix_iff_eq_take.mp ht).symm
  have hbuf : buf.take t.length ++ src.chars ++ NUL :: buf.drop (t.length + src.length + 1)
      = (t ++ src).chars ++ NUL :: buf.drop (t.length + src.length + 1) := by
    rw [htake]
    rfl
  unfold stpcpy
  rw [if_pos hlt, hbuf]
  refine ⟨_, by rw [Text.length_append], ?_, List.prefix_append _ _, read_append _ _⟩
  have hsum : (t ++ src).chars.length = t.length + src.length := Text.length_append t src
  rw [List.length_append, hsum, List.length_cons, List.length_drop]
  omega

end Buffer
end Dosix
