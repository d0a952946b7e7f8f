import Dosix.Strings.Impl
import Dosix.Transition.Basic

/-!
This module contains what the string functions do to the strings in memory, and runs of them: buffers
that are apart from each other go through what their texts go through.
-/

namespace Dosix
namespace Strings

open Function Malloc Objects Transition

section

variable {μ ω : Type} [Objects.Memory μ ω Byte] {m m' : μ} {p q : Pointer ω} {cs ds : List Byte}

/--
The string at a pointer.
-/
abbrev IsString (m : μ) (p : Pointer ω) (cs : List Byte) : Prop :=
  Terminated m 0 p.object p.offset cs

theorem strlenLoop_spec {left i : Nat}
    (hr : Reads m p.object (p.offset + i) (cs ++ [0])) (hnul : 0 ∉ cs) (hleft : cs.length < left)
    : strlenLoop p m left i = .ok (i + cs.length) := by
  induction cs generalizing left i with
  | nil =>
    cases left with
    | zero => cases hleft
    | succ left =>
      unfold strlenLoop
      rw [hr.1]
      rfl
  | cons c cs ih =>
    cases left with
    | zero => cases hleft
    | succ left =>
      rw [List.mem_cons, not_or] at hnul
      unfold strlenLoop
      rw [hr.1]
      dsimp only
      rw [if_neg (Ne.symm hnul.1), ih hr.2 hnul.2 (Nat.lt_of_succ_lt_succ hleft), List.length_cons,
        Nat.add_right_comm, Nat.add_assoc]

theorem strlen_eq (h : IsString m p cs) : strlen p m = .ok cs.length := by
  have hlt := h.lt_size
  unfold strlen
  rw [strlenLoop_spec h.reads h.not_mem (by omega), Nat.zero_add]

/-! The functions that change a string. -/

/--
What becomes of a character when a function of `<ctype.h>` converts it.
-/
def converted (f : BitVec 32 → BitVec 32) (c : Byte) : Byte :=
  (f (c.signExtend 32)).setWidth 8

theorem convertLoop_spec (f : BitVec 32 → BitVec 32) {i : Nat}
    (hr : Reads m p.object (p.offset + i) cs)
    : ∃ m', convertLoop f p cs.length i m = .ok m'
        ∧ Writes m p.object (p.offset + i) (cs.map (converted f)) m' := by
  induction cs generalizing m i with
  | nil => exact ⟨m, rfl, .nil⟩
  | cons c cs ih =>
    obtain ⟨m₁, hstore⟩ := exists_store (lt_size hr.1) (converted f c)
    have hrest : Reads m₁ p.object (p.offset + (i + 1)) cs := by
      apply (Writes.of_store hstore).keeps _ hr.2
      intro _
      left
      exact Nat.le_refl _
    obtain ⟨m', hloop, hwrites⟩ := ih hrest
    refine ⟨m', ?_, .cons hstore hwrites⟩
    rw [List.length_cons]
    unfold convertLoop
    rw [hr.1]
    dsimp only
    rw [show Memory.store m p.object (p.offset + i) ((f (c.signExtend 32)).setWidth 8) = some m₁
      from hstore]
    exact hloop

/--
The string that is left when its characters are converted: it ends where one becomes NUL.
-/
def convertedText (f : BitVec 32 → BitVec 32) (cs : List Byte) : List Byte :=
  (cs.map (converted f)).takeWhile (· ≠ 0)

theorem convertAll_spec (f : BitVec 32 → BitVec 32) (h : IsString m p cs)
    : ∃ m', convertAll f (some p) m = .ok (some p, m')
        ∧ Writes m p.object p.offset (cs.map (converted f)) m'
        ∧ IsString m' p (convertedText f cs) := by
  obtain ⟨hreads, hend⟩ := reads_append.mp h.reads
  obtain ⟨m', hloop, hwrites⟩ := convertLoop_spec (p := p) (i := 0) f hreads
  refine ⟨m', ?_, hwrites, ?_⟩
  . unfold convertAll dosixStrlen
    dsimp only
    rw [strlen_eq h]
    dsimp only
    rw [hloop]
    rfl
  . apply Terminated.takeWhile
    rw [reads_append]
    refine ⟨hwrites.reads, ?_⟩
    -- the NUL is behind what has been converted
    rw [List.length_map]
    apply hwrites.keeps _ hend
    intro _
    left
    simp

theorem strcpyLoop_spec {i : Nat} (hr : Reads m q.object (q.offset + i) cs)
    (hroom : p.offset + i + cs.length ≤ Memory.size m p.object)
    (hapart : Apart p.object (p.offset + i) cs.length q.object (q.offset + i) cs.length)
    : ∃ m', strcpyLoop p q cs.length i m = .ok m' ∧ Writes m p.object (p.offset + i) cs m' := by
  induction cs generalizing m i with
  | nil => exact ⟨m, rfl, .nil⟩
  | cons c cs ih =>
    rw [List.length_cons] at hroom hapart
    obtain ⟨m₁, hstore⟩ := exists_store (m := m) (o := p.object) (i := p.offset + i) (by omega) c
    have hrest : Reads m₁ q.object (q.offset + (i + 1)) cs := by
      apply (Writes.of_store hstore).keeps _ hr.2
      intro ho
      have := hapart ho
      rw [List.length_singleton]
      omega
    have hsize := Memory.size_store hstore
    obtain ⟨m', hloop, hwrites⟩ := ih hrest (by rw [hsize]; omega) fun ho => by
      have := hapart ho
      omega
    refine ⟨m', ?_, .cons hstore hwrites⟩
    rw [List.length_cons]
    unfold strcpyLoop
    rw [hr.1]
    dsimp only
    rw [hstore]
    exact hloop

theorem strcpyLoop_noRoom {i : Nat} (hr : Reads m q.object (q.offset + i) cs)
    (hroom : Memory.size m p.object < p.offset + i + cs.length)
    (hle : p.offset + i ≤ Memory.size m p.object) (hapart : p.object ≠ q.object)
    : strcpyLoop p q cs.length i m = .error .undefined := by
  induction cs generalizing m i with
  | nil => simp at hroom; omega
  | cons c cs ih =>
    rw [List.length_cons] at hroom ⊢
    unfold strcpyLoop
    rw [hr.1]
    dsimp only
    cases hstore : Memory.store m p.object (p.offset + i) c with
    | none => rfl
    | some m₁ =>
      have hlt : p.offset + i < Memory.size m p.object := by
        rw [← Memory.store_isSome m p.object (p.offset + i) c, hstore]
        rfl
      have hsize := Memory.size_store hstore
      apply ih
      . apply (Writes.of_store hstore).keeps _ hr.2
        intro ho
        exact absurd ho.symm hapart
      . rw [hsize]
        omega
      . rw [hsize]
        omega

variable [DecidableEq ω]

theorem strcpy_eq (h : IsString m q cs)
    (hapart : Apart p.object p.offset (cs.length + 1) q.object q.offset (cs.length + 1))
    : strcpy p q m = strcpyLoop p q (cs ++ [0]).length 0 m := by
  unfold strcpy
  rw [strlen_eq h, List.length_append]
  apply if_neg
  rintro ⟨ho, hle, hle'⟩
  have := hapart ho.symm
  omega

theorem strcpy_spec (h : IsString m q cs) (hroom : p.offset + cs.length < Memory.size m p.object)
    (hapart : Apart p.object p.offset (cs.length + 1) q.object q.offset (cs.length + 1))
    : ∃ m', strcpy p q m = .ok m' ∧ Writes m p.object p.offset (cs ++ [0]) m' := by
  have hlength : (cs ++ [0]).length = cs.length + 1 := List.length_append
  rw [strcpy_eq h hapart]
  apply strcpyLoop_spec h.reads
  . rw [hlength]
    exact hroom
  . rw [hlength]
    exact hapart

theorem strcpy_overlap (h : IsString m q cs) (ho : p.object = q.object)
    (hle : p.offset ≤ q.offset + cs.length) (hle' : q.offset ≤ p.offset + cs.length)
    : strcpy p q m = .error .undefined := by
  unfold strcpy
  rw [strlen_eq h]
  dsimp only
  rw [if_pos ⟨ho, hle, hle'⟩]

theorem strcpy_noRoom (h : IsString m q cs) (hp : p.offset ≤ Memory.size m p.object)
    (hroom : ¬p.offset + cs.length < Memory.size m p.object) (hapart : p.object ≠ q.object)
    : strcpy p q m = .error .undefined := by
  have hlength : (cs ++ [0]).length = cs.length + 1 := List.length_append
  rw [strcpy_eq h fun ho => absurd ho.symm hapart]
  apply strcpyLoop_noRoom h.reads
  . rw [hlength]
    omega
  . exact hp
  . exact hapart

end

/-! Runs. -/

inductive Op (ν : Type) where
  | strlwr (a : ν)
  | strupr (a : ν)
  | strcpy (a b : ν)
  | strcat (a b : ν)
  deriving Repr, DecidableEq

namespace Op

variable {μ ω ν : Type} [Objects.Memory μ ω Byte] [DecidableEq ω]

def target (op : Op ν) : ν :=
  match op with
  | .strlwr a => a
  | .strupr a => a
  | .strcpy a _ => a
  | .strcat a _ => a

/--
The call of the function, where each variable points to its string.
-/
def call (ctype : Ctype) (place : ν → Pointer ω) (m : μ) (op : Op ν)
    : Except Fault (Option (Pointer ω) × μ) :=
  match op with
  | .strlwr a => dosixStrlwr ctype (some (place a)) m
  | .strupr a => dosixStrupr ctype (some (place a)) m
  | .strcpy a b => dosixStrcpy (some (place a)) (some (place b)) m
  | .strcat a b => dosixStrcat (some (place a)) (some (place b)) m

/--
The text that the function is to leave in its first argument.
-/
def text (ctype : Ctype) (texts : ν → List Byte) (op : Op ν) : List Byte :=
  match op with
  | .strlwr a => convertedText ctype.tolower (texts a)
  | .strupr a => convertedText ctype.toupper (texts a)
  | .strcpy _ b => texts b
  | .strcat a b => texts a ++ texts b

def Separate (op : Op ν) : Prop :=
  match op with
  | .strlwr _ => True
  | .strupr _ => True
  | .strcpy a b => a ≠ b
  | .strcat a b => a ≠ b

instance [DecidableEq ν] (op : Op ν) : Decidable op.Separate :=
  match op with
  | .strlwr _ => .isTrue trivial
  | .strupr _ => .isTrue trivial
  | .strcpy a b => inferInstanceAs (Decidable (a ≠ b))
  | .strcat a b => inferInstanceAs (Decidable (a ≠ b))

end Op

section

variable {μ ω ν : Type} [Objects.Memory μ ω Byte]

/--
Each variable points to its text, and nothing else has changed since `m₀`.
-/
structure Keeps (place : ν → Pointer ω) (m₀ m : μ) (texts : ν → List Byte) : Prop where
  strings : ∀ a, IsString m (place a) (texts a)
  size : Memory.size m = Memory.size m₀
  other : ∀ {o i}, (∀ a, (place a).object = o → i < (place a).offset) →
    Memory.load m o i = Memory.load m₀ o i

/--
How many cells there are from the pointer on.
-/
def room (place : ν → Pointer ω) (m : μ) (a : ν) : Nat :=
  Memory.size m (place a).object - (place a).offset

variable {place : ν → Pointer ω} {texts : ν → List Byte} {m₀ m m' : μ} {a b : ν}

theorem Keeps.lt_room (h : Keeps place m₀ m texts) (a : ν) : (texts a).length < room place m₀ a := by
  have hlt := (h.strings a).lt_size
  rw [h.size] at hlt
  unfold room
  omega

theorem Keeps.strcpy [DecidableEq ω] (h : Keeps place m₀ m texts)
    (hplace : Injective fun a => (place a).object) (hab : a ≠ b) {n : Nat}
    (hn : n ≤ (texts a).length)
    : if n + (texts b).length < room place m₀ a then
        ∃ m', strcpy ⟨(place a).object, (place a).offset + n⟩ (place b) m = .ok m'
          ∧ Writes m (place a).object ((place a).offset + n) (texts b ++ [0]) m'
      else
        Strings.strcpy ⟨(place a).object, (place a).offset + n⟩ (place b) m
          = .error .undefined := by
  have hlt := (h.strings a).lt_size
  have hobject : (place a).object ≠ (place b).object := fun ho => hab (hplace ho)
  unfold room
  rw [← h.size]
  split
  . next hfits =>
    apply strcpy_spec (h.strings b)
    . dsimp only
      omega
    . intro ho
      exact absurd ho.symm hobject
  . next hfits =>
    apply strcpy_noRoom (h.strings b)
    . dsimp only
      omega
    . dsimp only
      omega
    . exact hobject

variable [DecidableEq ν]

theorem Keeps.writes (h : Keeps place m₀ m texts) (hplace : Injective fun a => (place a).object)
    {i : Nat} {xs ds : List Byte} (hw : Writes m (place a).object i xs m')
    (hi : (place a).offset ≤ i) (hds : IsString m' (place a) ds)
    : Keeps place m₀ m' (update texts a ds) where
  strings b := by
    by_cases hb : b = a
    . subst hb
      rwa [update_self]
    . rw [update_of_ne hb]
      obtain ⟨hreads, hnul⟩ := h.strings b
      refine ⟨hw.keeps ?_ hreads, hnul⟩
      intro ho
      exact absurd (hplace ho) hb
  size := hw.size.trans h.size
  other {o j} hj := by
    rw [hw.other, h.other hj]
    intro ho
    right
    have := hj a ho.symm
    omega

theorem length_convertedText_le (f : BitVec 32 → BitVec 32) (cs : List Byte)
    : (convertedText f cs).length ≤ cs.length := by
  have hle := (List.takeWhile_sublist (l := cs.map (converted f)) (· ≠ 0)).length_le
  rwa [List.length_map] at hle

theorem Keeps.convertAll (h : Keeps place m₀ m texts) (hplace : Injective fun a => (place a).object)
    (f : BitVec 32 → BitVec 32) (a : ν)
    : ∃ m', convertAll f (some (place a)) m = .ok (some (place a), m')
        ∧ Keeps place m₀ m' (update texts a (convertedText f (texts a)))
        ∧ (convertedText f (texts a)).length < room place m₀ a := by
  obtain ⟨m', hcall, hwrites, hstring⟩ := convertAll_spec f (h.strings a)
  refine ⟨m', hcall, h.writes hplace hwrites (Nat.le_refl _) hstring, ?_⟩
  exact Nat.lt_of_le_of_lt (length_convertedText_le f (texts a)) (h.lt_room a)

/--
What is to become of the texts: there is room for the text and its NUL, and no text is copied to
itself.
-/
def textStep (ctype : Ctype) (room : ν → Nat) (texts : ν → List Byte) (op : Op ν)
    : Except Fault (ν → List Byte) :=
  if op.Separate ∧ (op.text ctype texts).length < room op.target then
    .ok (update texts op.target (op.text ctype texts))
  else
    .error .undefined

variable [DecidableEq ω]

def step (ctype : Ctype) (place : ν → Pointer ω) (m : μ) (op : Op ν) : Except Fault μ :=
  (op.call ctype place m).map Prod.snd

theorem call_agree (ctype : Ctype) (hplace : Injective fun a => (place a).object)
    (h : Keeps place m₀ m texts) (op : Op ν)
    : Agree (fun r texts' => r.1 = some (place op.target) ∧ Keeps place m₀ r.2 texts')
        (op.call ctype place m) (textStep ctype (room place m₀) texts op) := by
  unfold textStep
  cases op with
  | strlwr a =>
    obtain ⟨m', hcall, hkeeps, hfits⟩ := h.convertAll hplace ctype.tolower a
    rw [Op.call, dosixStrlwr, hcall, if_pos ⟨trivial, hfits⟩]
    exact ⟨rfl, hkeeps⟩
  | strupr a =>
    obtain ⟨m', hcall, hkeeps, hfits⟩ := h.convertAll hplace ctype.toupper a
    rw [Op.call, dosixStrupr, hcall, if_pos ⟨trivial, hfits⟩]
    exact ⟨rfl, hkeeps⟩
  | strcpy a b =>
    unfold Op.call dosixStrcpy Op.text Op.target Op.Separate
    dsimp only
    by_cases hab : a = b
    . subst hab
      rw [strcpy_overlap (h.strings a) rfl (Nat.le_add_right _ _) (Nat.le_add_right _ _),
        if_neg fun hsep => hsep.1 rfl]
      rfl
    . have hcopy := h.strcpy hplace hab (Nat.zero_le _)
      rw [Nat.zero_add] at hcopy
      by_cases hfits : (texts b).length < room place m₀ a
      . rw [if_pos hfits] at hcopy
        obtain ⟨m', hcall, hwrites⟩ := hcopy
        rw [show Strings.strcpy (place a) (place b) m = _ from hcall, if_pos ⟨hab, hfits⟩]
        refine ⟨rfl, h.writes hplace hwrites (Nat.le_refl _) ?_⟩
        exact (h.strings a).overwrite (Nat.zero_le _) hwrites (h.strings b).not_mem
      . rw [if_neg hfits] at hcopy
        rw [show Strings.strcpy (place a) (place b) m = _ from hcopy, if_neg fun hsep => hfits hsep.2]
        rfl
  | strcat a b =>
    unfold Op.call dosixStrcat strcat Op.text Op.target Op.Separate
    dsimp only
    rw [strlen_eq (h.strings a), List.length_append]
    dsimp only
    by_cases hab : a = b
    . subst hab
      have hend : (place a).offset ≤ (place a).offset + (texts a).length + (texts a).length := by
        omega
      rw [strcpy_overlap (p := ⟨(place a).object, (place a).offset + (texts a).length⟩)
        (h.strings a) rfl (Nat.le_refl _) hend, if_neg fun hsep => hsep.1 rfl]
      rfl
    . have hcopy := h.strcpy hplace hab (Nat.le_refl _)
      by_cases hfits : (texts a).length + (texts b).length < room place m₀ a
      . rw [if_pos hfits] at hcopy
        obtain ⟨m', hcall, hwrites⟩ := hcopy
        rw [hcall, if_pos ⟨hab, hfits⟩]
        refine ⟨rfl, h.writes hplace hwrites (Nat.le_add_right _ _) ?_⟩
        have hstring :=
          (h.strings a).overwrite (Nat.le_refl _) hwrites (h.strings b).not_mem
        rwa [List.take_length] at hstring
      . rw [if_neg hfits] at hcopy
        rw [hcopy, if_neg fun hsep => hfits hsep.2]
        rfl

theorem step_agree (ctype : Ctype) (hplace : Injective fun a => (place a).object)
    (h : Keeps place m₀ m texts) (op : Op ν)
    : Agree (Keeps place m₀) (step ctype place m op) (textStep ctype (room place m₀) texts op) := by
  apply (call_agree ctype hplace h op).map_left
  intro r texts' hr
  exact hr.2

/--
Strings in objects of their own go through what their texts go through: a run of calls is defined
exactly if every text fits and none is copied to itself, and then `strlen` finds each text, and no
other cell has changed.
-/
theorem run_agrees (ctype : Ctype) (hplace : Injective fun a => (place a).object)
    (h : ∀ a, IsString m (place a) (texts a)) (ops : List (Op ν))
    : Agree
        (fun m' texts' =>
          (∀ a, IsString m' (place a) (texts' a)
            ∧ dosixStrlen (some (place a)) m' = .ok (texts' a).length)
          ∧ ∀ o i, (∀ a, (place a).object = o → i < (place a).offset) →
            Memory.load m' o i = Memory.load m o i)
        (run (step ctype place) m ops) (run (textStep ctype (room place m)) texts ops) := by
  have hinit : Keeps place m m texts := ⟨h, rfl, fun _ => rfl⟩
  have hagree := run_agree (fun m' texts' op hkeeps => step_agree ctype hplace hkeeps op) hinit ops
  apply hagree.imp
  intro m' texts' hkeeps
  refine ⟨?_, fun o i hi => hkeeps.other hi⟩
  intro a
  exact ⟨hkeeps.strings a, strlen_eq (hkeeps.strings a)⟩

end

/--
`"aB"` in an array of six bytes and `"Cd"` in one of three.
-/
def twoArrays : State where
  arrays n := if n = 0 then [0x61, 0x42, 0, 0, 0, 0] else [0x43, 0x64, 0]

def arrayOf (a : Bool) : Pointer Object :=
  ⟨.array a.toNat, 0⟩

def textOf (a : Bool) : List Byte :=
  if a then [0x43, 0x64] else [0x61, 0x42]

theorem run_agrees_twoArrays
    : ∃ m', run (step .c arrayOf) twoArrays [.strcat false true, .strupr false, .strlwr true]
          = .ok m'
        ∧ IsString m' (arrayOf false) [0x41, 0x42, 0x43, 0x44]
        ∧ IsString m' (arrayOf true) [0x63, 0x64] := by
  have hplace : Injective fun a => (arrayOf a).object := by
    have hinj : ∀ a b : Bool, a.toNat = b.toNat → a = b := by decide
    intro a b h
    exact hinj a b (Object.array.inj h)
  have hstrings : ∀ a, IsString twoArrays (arrayOf a) (textOf a) := by
    intro a
    cases a with
    | false => exact ⟨⟨rfl, rfl, rfl, trivial⟩, by decide⟩
    | true => exact ⟨⟨rfl, rfl, rfl, trivial⟩, by decide⟩
  obtain ⟨m', hrun, hm', -⟩ := (run_agrees .c hplace hstrings
    [.strcat false true, .strupr false, .strlwr true]).exists_ok rfl
  exact ⟨m', hrun, (hm' false).1, (hm' true).1⟩

end Strings
end Dosix
