import Dosix.Dos.Impl.File
import Dosix.Mask.Basic

/-!
This module contains what `_dos_open` asks the kernel for behind `open`: a lock on the file and the
flag that closes the descriptor.
-/

namespace Dosix

variable {σ : Type}

/--
The type of the lock that the code asks for: with `_SH_DENYNO` none, with any of the other bits a
write lock.
-/
def requestedLock (mode : BitVec 32) : Option (BitVec 16) :=
  if mode &&& _SH_DENYNO ≠ 0 then
    none
  else if mode &&& _SH_DENYRD ≠ 0 then
    some F_WRLCK
  else
    some F_RDLCK

def requestsNoinherit (mode : BitVec 32) : Bool :=
  mode &&& _O_NOINHERIT ≠ 0

def lockCall (px : Posix σ) (mode fd : BitVec 32) (os : σ) : Except Errno Unit × σ :=
  match requestedLock mode with
  | none => (.ok (), os)
  | some type => px.setlk fd type os

def noinheritCall (px : Posix σ) (mode fd : BitVec 32) (os : σ) : Except Errno Unit × σ :=
  if requestsNoinherit mode then
    match px.getfd fd os with
    | (.error e, os) => (.error e, os)
    | (.ok flags, os) => px.setfd fd (flags ||| FD_CLOEXEC) os
  else
    (.ok (), os)

theorem openLock_eq_call (px : Posix σ) (mode fd : BitVec 32) (s : Dos σ)
    : openLock px mode fd s = s.call (lockCall px mode fd) := by
  unfold openLock lockCall requestedLock
  by_cases hdenyno : mode &&& _SH_DENYNO = 0
  . rw [if_pos hdenyno, if_neg (not_not.mpr hdenyno)]
    have hdenyrd := Mask.and_or_ne_zero mode _SH_DENYRW _SH_DENYWR
    rw [show _SH_DENYRW ||| _SH_DENYWR = _SH_DENYRD by decide] at hdenyrd
    -- both bits are bits of `_SH_DENYRD`, whose lock is that of `_SH_DENYRW`
    by_cases hset : mode &&& _SH_DENYRD ≠ 0
    . rw [if_pos hset]
      dsimp only
      rw [if_pos hset]
      congr 2
      split
      all_goals
        split
        all_goals rfl
    . rw [if_neg hset]
      dsimp only
      obtain ⟨hdenyrw, hdenywr⟩ := not_or.mp (mt hdenyrd.mpr hset)
      rw [if_neg hset, if_neg hdenyrw, if_neg hdenywr]
      rfl
  . rw [if_neg hdenyno, if_pos hdenyno]
    rfl

theorem openNoinherit_eq_call (px : Posix σ) (mode fd : BitVec 32) (s : Dos σ)
    : openNoinherit px mode fd s = s.call (noinheritCall px mode fd) := by
  unfold openNoinherit noinheritCall requestsNoinherit
  by_cases hnoinherit : mode &&& _O_NOINHERIT ≠ 0
  . rw [if_pos hnoinherit]
    simp only [Dos.call, decide_eq_true hnoinherit, if_true]
    cases hgetfd : px.getfd fd s.os with
    | mk r os =>
      cases r with
      | error e => rfl
      | ok flags => rfl
  . rw [if_neg hnoinherit]
    simp only [Dos.call, decide_eq_false hnoinherit]
    rfl

end Dosix
