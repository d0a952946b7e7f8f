import Dosix.Dos.Impl.Console
import Dosix.Dos.Lemmas.ExtErr
import Dosix.Pushback.Basic

/-!
This module contains the refinement of a stream with push-back by the console functions. The states
agree throughout, but a character is handed out as a `char`, which has a sign.
-/

namespace Dosix

open Pushback

variable {σ : Type}

inductive ConsoleOp where
  | getch
  | getche
  | ungetch (c : BitVec 8)
  deriving Repr, DecidableEq

/--
What the kernel does to the bytes that are to be read from the standard input.
-/
structure InputContract (px : Posix σ) (input : σ → List (BitVec 8)) : Prop where
  isatty : ∀ {os r os'}, px.isatty STDIN_FILENO os = (r, os') → input os' = input os
  tcgetattr : ∀ {os r os'}, px.tcgetattr STDIN_FILENO os = (r, os') → input os' = input os
  tcsetattr : ∀ {lflag os r os'}, px.tcsetattr STDIN_FILENO lflag os = (r, os') →
    input os' = input os
  read_byte : ∀ {b os os'}, px.readByte STDIN_FILENO os = (.ok (some b), os') →
    input os = b :: input os'
  read_end : ∀ {os os'}, px.readByte STDIN_FILENO os = (.ok none, os') →
    input os = [] ∧ input os' = []
  read_error : ∀ {e os os'}, px.readByte STDIN_FILENO os = (.error e, os') → input os' = input os

/-! The functions, and the stream that they work on. -/

def inputReadable (px : Posix σ) (echo : Bool) (s : Dos σ) : Bool :=
  ((getchSetup px echo s).2.call (px.readByte STDIN_FILENO)).1.isSome

namespace ConsoleOp

def call (px : Posix σ) (op : ConsoleOp) (s : Dos σ) : BitVec 32 × Dos σ :=
  match op with
  | .getch => dosixGetch px s
  | .getche => dosixGetche px s
  | .ungetch c => Dosix.ungetch (c.setWidth 32) s

def attempt (px : Posix σ) (op : ConsoleOp) (s : Dos σ) : Op (BitVec 8) :=
  match op with
  | .getch => .get (inputReadable px false s)
  | .getche => .get (inputReadable px true s)
  | .ungetch c => .unget c

end ConsoleOp

def returned (px : Posix σ) (s : Dos σ) (ops : List ConsoleOp) : List (BitVec 32) :=
  match ops with
  | [] => []
  | op :: ops => (op.call px s).1 :: returned px (op.call px s).2 ops

def reached (px : Posix σ) (s : Dos σ) (ops : List ConsoleOp) : Dos σ :=
  match ops with
  | [] => s
  | op :: ops => reached px (op.call px s).2 ops

/--
The operations on the stream, with which reads fail.
-/
def attempts (px : Posix σ) (s : Dos σ) (ops : List ConsoleOp) : List (Op (BitVec 8)) :=
  match ops with
  | [] => []
  | op :: ops => op.attempt px s :: attempts px (op.call px s).2 ops

def consoleStream (input : σ → List (BitVec 8)) (s : Dos σ) : Stream (BitVec 8) where
  pushed := if s.ungetchFull then some s.ungetchChar else none
  input := input s.os

/--
The value that is to be returned. A byte is one from `0` to `255`.
-/
def valueOf (r : Outcome (BitVec 8)) : BitVec 32 :=
  match r with
  | .pushed a | .read a | .kept a => a.setWidth 32
  | .eof | .full => EOF

/--
The value that the code returns.
-/
def charOf (r : Outcome (BitVec 8)) : BitVec 32 :=
  match r with
  | .pushed a | .read a => a.signExtend 32
  | .kept a => a.setWidth 32
  | .eof | .full => EOF

theorem signExtend_eq_setWidth_iff (a : BitVec 8) : a.signExtend 32 = a.setWidth 32 ↔ a < 0x80 := by
  have hlt := a.isLt
  rw [← BitVec.toInt_inj, BitVec.toInt_signExtend_of_le (by decide), BitVec.lt_def]
  have hnat : (a.setWidth 32).toNat = a.toNat := BitVec.toNat_setWidth_of_le (by decide)
  have hzero : (a.setWidth 32).toInt = a.toNat := by
    rw [BitVec.toInt_eq_toNat_of_lt (by omega), hnat]
  rw [hzero, BitVec.toInt_eq_toNat_cond]
  change _ ↔ a.toNat < 128
  split
  . omega
  . omega

theorem charOf_eq_valueOf_iff (r : Outcome (BitVec 8))
    : charOf r = valueOf r ↔ ∀ a ∈ r.delivered?, a < 0x80 := by
  cases r with
  | pushed a | read a => simpa [charOf, valueOf, Outcome.delivered?] using signExtend_eq_setWidth_iff a
  | eof | kept a | full => simp [charOf, valueOf, Outcome.delivered?]

section

variable {px : Posix σ} {input : σ → List (BitVec 8)}

theorem call_stream {α : Type} {f : σ → Except Errno α × σ} {s : Dos σ}
    (h : ∀ {r os'}, f s.os = (r, os') → input os' = input s.os)
    : consoleStream input (s.call f).2 = consoleStream input s := by
  unfold Dos.call
  split
  . next hcall =>
    unfold consoleStream
    rw [Dos.setOs_os, h hcall]
    rfl
  . next hcall =>
    unfold consoleStream
    rw [Dos.setErrno_os, Dos.setOs_os, h hcall]
    rfl

variable (hpx : InputContract px input)

include hpx

theorem getchSetup_stream (echo : Bool) (s : Dos σ)
    : consoleStream input (getchSetup px echo s).2 = consoleStream input s := by
  have hisatty : consoleStream input (s.call (px.isatty STDIN_FILENO)).2 = consoleStream input s :=
    call_stream hpx.isatty
  unfold getchSetup
  split
  . next t hcall =>
    rw [hcall] at hisatty
    exact hisatty
  . next t hcall =>
    rw [hcall] at hisatty
    have htcgetattr := call_stream (s := t) hpx.tcgetattr
    split
    next lflag u hcall' =>
      rw [hcall'] at htcgetattr
      dsimp only
      rw [call_stream hpx.tcsetattr, htcgetattr]
      exact hisatty

/--
The read, and what it makes of the stream.
-/
theorem read_stream {s : Dos σ} (hfull : s.ungetchFull = false)
    : (match (s.call (px.readByte STDIN_FILENO)).1 with
        | some (some c) => c.signExtend 32
        | _ => EOF)
        = charOf ((consoleStream input s).step
          (.get (s.call (px.readByte STDIN_FILENO)).1.isSome)).1
      ∧ consoleStream input (s.call (px.readByte STDIN_FILENO)).2
        = ((consoleStream input s).step (.get (s.call (px.readByte STDIN_FILENO)).1.isSome)).2 := by
  cases hread : px.readByte STDIN_FILENO s.os with
  | mk r os =>
    unfold Dos.call
    rw [hread]
    cases r with
    | error e =>
      have hinput := hpx.read_error hread
      simp [consoleStream, hfull, Stream.step, hinput, charOf]
    | ok c =>
      cases c with
      | none =>
        obtain ⟨hinput, hinput'⟩ := hpx.read_end hread
        simp [consoleStream, hfull, Stream.step, hinput, hinput', charOf]
      | some b =>
        have hinput := hpx.read_byte hread
        simp [consoleStream, hfull, Stream.step, hinput, charOf]

theorem getch_stream (echo : Bool) (s : Dos σ)
    : (getch px echo s).1 = charOf ((consoleStream input s).step (.get (inputReadable px echo s))).1
        ∧ consoleStream input (getch px echo s).2
          = ((consoleStream input s).step (.get (inputReadable px echo s))).2 := by
  cases hfull : s.ungetchFull with
  | true =>
    unfold getch
    rw [if_pos hfull]
    simp [consoleStream, hfull, Stream.step, charOf]
  | false =>
    have hsetup := getchSetup_stream hpx echo s
    unfold getch inputReadable
    rw [if_neg (by simp [hfull]), ← hsetup]
    have hfull' : (getchSetup px echo s).2.ungetchFull = false := by
      have hpushed := congrArg Stream.pushed hsetup
      simpa [consoleStream, hfull] using hpushed
    obtain ⟨hvalue, hstream⟩ := read_stream hpx hfull'
    dsimp only
    rw [← hstream]
    split
    . exact ⟨hvalue, rfl⟩
    . exact ⟨hvalue, call_stream hpx.tcsetattr⟩

theorem call_spec (op : ConsoleOp) (s : Dos σ)
    : (op.call px s).1 = charOf ((consoleStream input s).step (op.attempt px s)).1
        ∧ consoleStream input (op.call px s).2
          = ((consoleStream input s).step (op.attempt px s)).2 := by
  cases op with
  | getch => exact getch_stream hpx false s
  | getche => exact getch_stream hpx true s
  | ungetch c =>
    unfold ConsoleOp.call ConsoleOp.attempt Dosix.ungetch
    cases hfull : s.ungetchFull with
    | true => simp [consoleStream, hfull, Stream.step, charOf]
    | false => simp [consoleStream, hfull, Stream.step, charOf]

theorem returned_eq (s : Dos σ) (ops : List ConsoleOp)
    : returned px s ops = ((consoleStream input s).outcomes (attempts px s ops)).map charOf := by
  induction ops generalizing s with
  | nil => rfl
  | cons op ops ih =>
    obtain ⟨hvalue, hstream⟩ := call_spec hpx op s
    rw [returned, attempts, Stream.outcomes, List.map_cons, hvalue, ih, hstream]

theorem reached_stream (s : Dos σ) (ops : List ConsoleOp)
    : consoleStream input (reached px s ops)
        = (consoleStream input s).final (attempts px s ops) := by
  induction ops generalizing s with
  | nil => rfl
  | cons op ops ih =>
    rw [reached, attempts, Stream.final, ih, (call_spec hpx op s).2]

/--
The console agrees with the stream in its state after any operations, and neither a byte of the
input nor one that was pushed back gets lost. It agrees in what it returns if all that comes out is
below `0x80`.
-/
theorem console_faithful_iff (s : Dos σ) (ops : List ConsoleOp)
    : (returned px s ops = ((consoleStream input s).outcomes (attempts px s ops)).map valueOf
          ↔ ∀ a ∈ ((consoleStream input s).outcomes (attempts px s ops)).filterMap
            Outcome.delivered?, a < 0x80)
        ∧ consoleStream input (reached px s ops)
          = (consoleStream input s).final (attempts px s ops)
        ∧ ((consoleStream input s).outcomes (attempts px s ops)).filterMap Outcome.read?
          ++ input (reached px s ops).os = input s.os
        ∧ ((consoleStream input s).outcomes (attempts px s ops)).filterMap Outcome.pushed?
          ++ (consoleStream input (reached px s ops)).pushed.toList
          = (consoleStream input s).pushed.toList
            ++ ((consoleStream input s).outcomes (attempts px s ops)).filterMap Outcome.kept? := by
  have hinput := (consoleStream input s).outcomes_input (attempts px s ops)
  have hpushed := (consoleStream input s).outcomes_pushed (attempts px s ops)
  have hreached := reached_stream hpx s ops
  rw [← hreached] at hinput hpushed
  refine ⟨?_, hreached, hinput, hpushed⟩
  rw [returned_eq hpx, List.map_inj_left]
  simp only [charOf_eq_valueOf_iff, List.mem_filterMap]
  constructor
  . rintro h a ⟨r, hr, ha⟩
    exact h r hr a ha
  . intro h r hr a ha
    exact h a ⟨r, hr, ha⟩

end

/--
A kernel whose standard input is a file with these bytes.
-/
def piped : Posix (List (BitVec 8)) where
  __ := (default : Posix (List (BitVec 8)))
  readByte := fun _ os =>
    match os with
    | [] => (.ok none, [])
    | b :: os => (.ok (some b), os)

theorem piped_contract : InputContract piped id where
  isatty := by
    rintro os r os' h
    exact (Prod.mk.inj h).2.symm
  tcgetattr := by
    rintro os r os' h
    exact (Prod.mk.inj h).2.symm
  tcsetattr := by
    rintro lflag os r os' h
    exact (Prod.mk.inj h).2.symm
  read_byte := by
    rintro b os os' h
    cases os with
    | nil => simp [piped] at h
    | cons b' os =>
      obtain ⟨hb, rfl⟩ := Prod.mk.inj h
      injection hb with hb
      injection hb with hb
      rw [← hb]
      rfl
  read_end := by
    rintro os os' h
    cases os with
    | nil => exact ⟨rfl, (Prod.mk.inj h).2.symm⟩
    | cons b' os => simp [piped] at h
  read_error := by
    rintro e os os' h
    cases os with
    | nil => simp [piped] at h
    | cons b' os => simp [piped] at h

theorem console_faithful_iff_ascii
    : returned piped { os := [0x41, 0x42] } [.getch, .ungetch 0x7f, .ungetch 0x43, .getche, .getch, .getch]
        = [0x41, 0x7f, EOF, 0x7f, 0x42, EOF] := by
  have hiff := (console_faithful_iff piped_contract { os := [0x41, 0x42] }
    [.getch, .ungetch 0x7f, .ungetch 0x43, .getche, .getch, .getch]).1
  exact hiff.mpr (by decide)

/--
A byte `0xff` is returned as `EOF`, and a byte `0xe9` that is pushed back comes out negative.
-/
theorem not_console_faithful_high
    : returned piped { os := [0xff] } [.getch] = [EOF]
      ∧ returned piped { os := [] } [.ungetch 0xe9, .getch] = [0xe9, 0xffffffe9]
      ∧ returned piped { os := [0xff] } [.getch]
        ≠ ((consoleStream id ({ os := [0xff] } : Dos (List (BitVec 8)))).outcomes
          (attempts piped { os := [0xff] } [.getch])).map valueOf := by
  decide

end Dosix
