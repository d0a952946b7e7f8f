import Dosix.Dos.Impl.Time
import Dosix.Strings.Impl

/-!
This module contains the functions of `time.c`, which write the date and the time of day as strings.
-/

namespace Dosix

open Objects Strings

variable {σ : Type}

/--
What `%02d` of `<stdio.h>` makes of a number that is not negative.
-/
def padded (n : Nat) : List (BitVec 8) :=
  let digits := (Nat.toDigits 10 n).map fun c => BitVec.ofNat 8 c.toNat
  List.replicate (2 - digits.length) 0x30 ++ digits

def dateText (date : Dosdate) : List (BitVec 8) :=
  padded date.month.toNat ++ 0x2f :: padded date.day.toNat ++ 0x2f :: padded (date.year % 100).toNat

def timeText (time : Dostime) : List (BitVec 8) :=
  padded time.hour.toNat ++ 0x3a :: padded time.minute.toNat ++ 0x3a :: padded time.second.toNat

section

variable {μ ω : Type} [Objects.Memory μ ω (BitVec 8)]

def storeAll (p : Pointer ω) (i : Nat) (cs : List (BitVec 8)) (m : μ) : Except Fault μ :=
  match cs with
  | [] => .ok m
  | c :: cs =>
    match Memory.store m p.object (p.offset + i) c with
    | none => .error .undefined
    | some m => storeAll p (i + 1) cs m

/--
`sprintf` of `<stdio.h>`, where `text` is what the format comes to.
-/
def sprintf (string : Pointer ω) (text : List (BitVec 8)) (m : μ) : Except Fault μ :=
  storeAll string 0 (text ++ [0]) m

def dosixStrdate (px : Posix σ) (datestr : Option (Pointer ω)) (s : Dos σ) (m : μ)
    : Except Fault (Option (Pointer ω) × Dos σ × μ) :=
  match datestr with
  | none => .error .assertion
  | some p =>
    match dosixDosGetdate px (uninitDate px) s with
    | (date, s) => (sprintf p (dateText date) m).map fun m => (datestr, s, m)

def dosixStrtime (px : Posix σ) (timestr : Option (Pointer ω)) (s : Dos σ) (m : μ)
    : Except Fault (Option (Pointer ω) × Dos σ × μ) :=
  match timestr with
  | none => .error .assertion
  | some p =>
    match dosixDosGettime px (uninitTime px) s with
    | (time, s) => (sprintf p (timeText time) m).map fun m => (timestr, s, m)

end
end Dosix
