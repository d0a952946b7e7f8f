import Dosix.Malloc.Impl
import Dosix.Objects.Basic

/-!
This module contains the string functions of `string.c`, over memory that consists of objects, and
`_strdup` on top of the heap of `malloc.c`.
-/

namespace Dosix
namespace Strings

open Function Malloc Objects

structure Pointer (ω : Type) where
  object : ω
  offset : Nat
  deriving Repr, DecidableEq

/--
The functions of `<ctype.h>` that convert letters.
-/
structure Ctype where
  tolower : BitVec 32 → BitVec 32
  toupper : BitVec 32 → BitVec 32

/--
The letters are those of ASCII.
-/
def Ctype.c : Ctype where
  tolower c := if 0x41 ≤ c ∧ c ≤ 0x5a then c + 0x20 else c
  toupper c := if 0x61 ≤ c ∧ c ≤ 0x7a then c - 0x20 else c

section

variable {μ ω : Type} [Objects.Memory μ ω Byte]

def strlenLoop (string : Pointer ω) (m : μ) (left i : Nat) : Except Fault Nat :=
  match left with
  | 0 => .error .undefined
  | left + 1 =>
    match Memory.load m string.object (string.offset + i) with
    | none => .error .undefined
    | some c => if c = 0 then .ok i else strlenLoop string m left (i + 1)

/--
`strlen` of `<string.h>`, which finds no NUL behind the end of the object.
-/
def strlen (string : Pointer ω) (m : μ) : Except Fault Nat :=
  strlenLoop string m (Memory.size m string.object - string.offset) 0

/-! The functions of `string.c`, where `none` stands for `NULL`. -/

def dosixStrlen (string : Option (Pointer ω)) (m : μ) : Except Fault Nat :=
  match string with
  | none => .error .assertion
  | some string => strlen string m

/--
The loop of `_strlwr` and `_strupr`, with the function that converts a character.
-/
def convertLoop (convert : BitVec 32 → BitVec 32) (string : Pointer ω) (left i : Nat) (m : μ)
    : Except Fault μ :=
  match left with
  | 0 => .ok m
  | left + 1 =>
    match Memory.load m string.object (string.offset + i) with
    | none => .error .undefined
    | some c =>
      -- a `char` is signed
      let c := (convert (c.signExtend 32)).setWidth 8
      match Memory.store m string.object (string.offset + i) c with
      | none => .error .undefined
      | some m => convertLoop convert string left (i + 1) m

def convertAll (convert : BitVec 32 → BitVec 32) (string : Option (Pointer ω)) (m : μ)
    : Except Fault (Option (Pointer ω) × μ) :=
  match string with
  | none => .error .assertion
  | some p =>
    match dosixStrlen string m with
    | .error e => .error e
    | .ok len => (convertLoop convert p len 0 m).map fun m => (string, m)

def dosixStrlwr (ctype : Ctype) (string : Option (Pointer ω)) (m : μ)
    : Except Fault (Option (Pointer ω) × μ) :=
  convertAll ctype.tolower string m

def dosixStrupr (ctype : Ctype) (string : Option (Pointer ω)) (m : μ)
    : Except Fault (Option (Pointer ω) × μ) :=
  convertAll ctype.toupper string m

def strcpyLoop (string1 string2 : Pointer ω) (left i : Nat) (m : μ) : Except Fault μ :=
  match left with
  | 0 => .ok m
  | left + 1 =>
    match Memory.load m string2.object (string2.offset + i) with
    | none => .error .undefined
    | some c =>
      match Memory.store m string1.object (string1.offset + i) c with
      | none => .error .undefined
      | some m => strcpyLoop string1 string2 left (i + 1) m

variable [DecidableEq ω]

/--
`strcpy` of `<string.h>`, which leaves open what it does where the strings overlap.
-/
def strcpy (string1 string2 : Pointer ω) (m : μ) : Except Fault μ :=
  match strlen string2 m with
  | .error e => .error e
  | .ok len =>
    if string1.object = string2.object ∧ string1.offset ≤ string2.offset + len
        ∧ string2.offset ≤ string1.offset + len then
      .error .undefined
    else
      strcpyLoop string1 string2 (len + 1) 0 m

def dosixStrcpy (string1 string2 : Option (Pointer ω)) (m : μ)
    : Except Fault (Option (Pointer ω) × μ) :=
  match string1, string2 with
  | some p, some q => (strcpy p q m).map fun m => (string1, m)
  | _, _ => .error .assertion

/--
`strcat` of `<string.h>`.
-/
def strcat (string1 string2 : Pointer ω) (m : μ) : Except Fault μ :=
  match strlen string1 m with
  | .error e => .error e
  | .ok len => strcpy ⟨string1.object, string1.offset + len⟩ string2 m

def dosixStrcat (string1 string2 : Option (Pointer ω)) (m : μ)
    : Except Fault (Option (Pointer ω) × μ) :=
  match string1, string2 with
  | some p, some q => (strcat p q m).map fun m => (string1, m)
  | _, _ => .error .assertion

end

/-! The memory of a program: the blocks of the heap, and the arrays that are not in the heap. -/

inductive Object where
  | block (p : Addr)
  | array (n : Nat)
  deriving Repr, DecidableEq

structure State where
  session : Session := {}
  arrays : Nat → List Byte := fun _ => []

namespace State

def size (s : State) (o : Object) : Nat :=
  match o with
  | .block p =>
    match s.session.heap.blocks (p - sizeofHeapInfo) with
    | none => 0
    | some block => block.length.toNat - sizeofHeapInfo.toNat
  | .array n => (s.arrays n).length

def load (s : State) (o : Object) (i : Nat) : Option Byte :=
  match o with
  | .block p => s.session.load p i
  | .array n => (s.arrays n)[i]?

def store (s : State) (o : Object) (i : Nat) (x : Byte) : Option State :=
  match o with
  | .block p =>
    match s.session.store p i x with
    | .error _ => none
    | .ok session => some { s with session := session }
  | .array n =>
    if i < (s.arrays n).length then
      some { s with arrays := update s.arrays n ((s.arrays n).set i x) }
    else
      none

theorem load_isSome (s : State) (o : Object) (i : Nat) : (s.load o i).isSome ↔ i < s.size o := by
  cases o with
  | block p =>
    unfold load size Session.load
    dsimp only
    cases s.session.heap.blocks (p - sizeofHeapInfo) with
    | none => simp
    | some block =>
      dsimp only
      split
      . simp only [Option.isSome_some, true_iff]
        omega
      . simp only [Option.isSome_none, Bool.false_eq_true, false_iff]
        omega
  | array n => simp [load, size]

theorem store_isSome (s : State) (o : Object) (i : Nat) (x : Byte)
    : (s.store o i x).isSome ↔ i < s.size o := by
  rw [← load_isSome]
  cases o with
  | block p =>
    unfold store load Session.store Session.load
    dsimp only
    cases s.session.heap.blocks (p - sizeofHeapInfo) with
    | none => simp
    | some block =>
      dsimp only
      by_cases hi : sizeofHeapInfo.toNat + i < block.length.toNat
      . simp [hi]
      . simp [hi]
  | array n =>
    unfold store load
    by_cases hi : i < (s.arrays n).length
    . simp [hi]
    . simp [hi]

variable {s s' : State} {o o' : Object} {i j : Nat} {x : Byte}

theorem store_block {p : Addr} (h : s.store (.block p) i x = some s')
    : ∃ block, s.session.heap.blocks (p - sizeofHeapInfo) = some block
        ∧ sizeofHeapInfo.toNat + i < block.length.toNat
        ∧ s'.arrays = s.arrays
        ∧ s'.session.heap.blocks = Memory.write s.session.heap.blocks (p - sizeofHeapInfo)
            (some { block with data := update block.data i x }) := by
  unfold store Session.store at h
  dsimp only at h
  split at h
  . cases h
  . next hstore =>
    split at hstore
    . cases hstore
    . next block hblock =>
      split at hstore
      . next hi =>
        obtain rfl := Option.some.inj h
        obtain rfl := Except.ok.inj hstore
        exact ⟨block, hblock, hi, rfl, rfl⟩
      . cases hstore

theorem store_array {n : Nat} (h : s.store (.array n) i x = some s')
    : i < (s.arrays n).length ∧ s'.session = s.session
        ∧ s'.arrays = update s.arrays n ((s.arrays n).set i x) := by
  unfold store at h
  dsimp only at h
  split at h
  . next hi =>
    obtain rfl := Option.some.inj h
    exact ⟨hi, rfl, rfl⟩
  . cases h

theorem load_same (h : s.store o i x = some s') : s'.load o i = some x := by
  cases o with
  | block p =>
    obtain ⟨block, -, hi, -, hblocks⟩ := store_block h
    unfold load Session.load
    dsimp only
    rw [hblocks, Memory.write_same]
    dsimp only
    rw [if_pos hi, update_self]
  | array n =>
    obtain ⟨hi, -, harrays⟩ := store_array h
    unfold load
    dsimp only
    rw [harrays, update_self, List.getElem?_set_self hi]

theorem load_other (h : s.store o i x = some s') (hne : ¬(o' = o ∧ j = i))
    : s'.load o' j = s.load o' j := by
  cases o with
  | block p =>
    obtain ⟨block, hblock, -, harrays, hblocks⟩ := store_block h
    cases o' with
    | block q =>
      unfold load Session.load
      dsimp only
      by_cases hq : q = p
      . subst hq
        have hj : j ≠ i := fun hj => hne ⟨rfl, hj⟩
        rw [hblocks, Memory.write_same, hblock]
        dsimp only
        rw [update_of_ne hj]
      . rw [hblocks, Memory.write_other _ _ (mt eq_of_header_eq hq)]
    | array n =>
      unfold load
      dsimp only
      rw [harrays]
  | array n =>
    obtain ⟨-, hsession, harrays⟩ := store_array h
    cases o' with
    | block q =>
      unfold load
      dsimp only
      rw [hsession]
    | array k =>
      unfold load
      dsimp only
      rw [harrays]
      by_cases hk : k = n
      . subst hk
        have hj : i ≠ j := fun hj => hne ⟨rfl, hj.symm⟩
        rw [update_self, List.getElem?_set_ne hj]
      . rw [update_of_ne hk]

theorem size_store (h : s.store o i x = some s') : s'.size = s.size := by
  funext o'
  unfold size
  cases o with
  | block p =>
    obtain ⟨block, hblock, -, harrays, hblocks⟩ := store_block h
    cases o' with
    | block q =>
      dsimp only
      by_cases hq : q = p
      . subst hq
        rw [hblocks, Memory.write_same, hblock]
      . rw [hblocks, Memory.write_other _ _ (mt eq_of_header_eq hq)]
    | array n =>
      dsimp only
      rw [harrays]
  | array n =>
    obtain ⟨-, hsession, harrays⟩ := store_array h
    cases o' with
    | block q =>
      dsimp only
      rw [hsession]
    | array k =>
      dsimp only
      rw [harrays]
      by_cases hk : k = n
      . subst hk
        rw [update_self, List.length_set]
      . rw [update_of_ne hk]

instance : Objects.Memory State Object Byte where
  size := size
  load := load
  store := store
  load_isSome := load_isSome
  store_isSome := store_isSome
  size_store := size_store
  load_same := load_same
  load_other := load_other

/--
A `malloc` of the program.
-/
def malloc (s : State) (env : Choices) (size : Size)
    : Except Fault (Option (Pointer Object) × State) :=
  match dosixMalloc env size s.session.heap with
  | .error e => .error e
  | .ok (q, h) =>
    .ok (if q = 0 then none else some ⟨.block q, 0⟩,
      { s with session := s.session.answered (.malloc size) q h })

end State

def dosixStrdup (env : Choices) (string : Option (Pointer Object)) (s : State)
    : Except Fault (Option (Pointer Object) × State) :=
  match dosixStrlen string s with
  | .error e => .error e
  | .ok len =>
    match s.malloc env (.ofNat 64 len + 1) with
    | .error e => .error e
    | .ok (newString, s) => dosixStrcpy newString string s

end Strings
end Dosix
