import Dosix.Dos.Impl.ExtErr
import Dosix.Transition.Basic

/-!
This module contains what the error paths of `dos.c` leave alone: a system call, `_dosexterr` and
`exterr_set` change the system and the error, but none of the other variables.
-/

namespace Dosix

open Transition

variable {σ α : Type}

/--
From `s` to `s'` only the system and the error have changed.
-/
structure Dos.Quiet (s s' : Dos σ) : Prop where
  allocmemTree : s'.allocmemTree = s.allocmemTree
  allocmem : s'.allocmem = s.allocmem
  mappings : s'.mappings = s.mappings
  findT : s'.findT = s.findT
  currentDta : s'.currentDta = s.currentDta
  intVect : s'.intVect = s.intVect
  ungetchFull : s'.ungetchFull = s.ungetchFull
  ungetchChar : s'.ungetchChar = s.ungetchChar

namespace Dos.Quiet

variable {s t u : Dos σ}

theorem refl (s : Dos σ) : Quiet s s where
  allocmemTree := rfl
  allocmem := rfl
  mappings := rfl
  findT := rfl
  currentDta := rfl
  intVect := rfl
  ungetchFull := rfl
  ungetchChar := rfl

theorem trans (hst : Quiet s t) (htu : Quiet t u) : Quiet s u where
  allocmemTree := htu.allocmemTree.trans hst.allocmemTree
  allocmem := htu.allocmem.trans hst.allocmem
  mappings := htu.mappings.trans hst.mappings
  findT := htu.findT.trans hst.findT
  currentDta := htu.currentDta.trans hst.currentDta
  intVect := htu.intVect.trans hst.intVect
  ungetchFull := htu.ungetchFull.trans hst.ungetchFull
  ungetchChar := htu.ungetchChar.trans hst.ungetchChar

theorem setOs (s : Dos σ) (x : σ) : Quiet s (s.setOs x) := ⟨rfl, rfl, rfl, rfl, rfl, rfl, rfl, rfl⟩

theorem setErrno (s : Dos σ) (x : Option Errno) : Quiet s (s.setErrno x) :=
  ⟨rfl, rfl, rfl, rfl, rfl, rfl, rfl, rfl⟩

theorem setErrorinfo (s : Dos σ) (x : DosError) : Quiet s (s.setErrorinfo x) :=
  ⟨rfl, rfl, rfl, rfl, rfl, rfl, rfl, rfl⟩

end Dos.Quiet

theorem Dos.call_quiet (s : Dos σ) (f : σ → Except Errno α × σ) : Dos.Quiet s (s.call f).2 := by
  unfold Dos.call
  split
  . exact .setOs s _
  . exact (Quiet.setOs s _).trans (.setErrno _ _)

theorem Dos.Quiet.of_call {s t : Dos σ} {f : σ → Except Errno α × σ} {a : Option α}
    (h : s.call f = (a, t)) : s.Quiet t := by
  have := s.call_quiet f
  rwa [h] at this

theorem Dos.call_some {s s' : Dos σ} {f : σ → Except Errno α × σ} {a : α}
    (h : s.call f = (some a, s'))
    : ∃ os, f s.os = (.ok a, os) ∧ s' = s.setOs os := by
  unfold Dos.call at h
  split at h
  . next os hf =>
    simp only [Prod.mk.injEq, Option.some.injEq] at h
    exact ⟨os, h.1 ▸ hf, h.2.symm⟩
  . simp at h

theorem Dos.call_none {s s' : Dos σ} {f : σ → Except Errno α × σ} (h : s.call f = (none, s'))
    : ∃ e os, f s.os = (.error e, os) ∧ s' = (s.setOs os).setErrno (some e) := by
  unfold Dos.call at h
  split at h
  . simp at h
  . next e os hf =>
    simp only [Prod.mk.injEq, true_and] at h
    exact ⟨e, os, hf, h.symm⟩

theorem Dos.call_eq_ok {s : Dos σ} {f : σ → Except Errno α × σ} {a : α}
    (h : (f s.os).1 = .ok a)
    : s.call f = (some a, s.setOs (f s.os).2) := by
  unfold Dos.call
  split
  . next h' =>
    rw [h'] at h
    injection h with h
    rw [h, h']
  . next h' => simp [h'] at h

theorem Dos.call_of_error {s : Dos σ} {f : σ → Except Errno α × σ} {e : Errno}
    (h : (f s.os).1 = .error e)
    : s.call f = (none, (s.setOs (f s.os).2).setErrno (some e)) := by
  unfold Dos.call
  split
  . next h' => simp [h'] at h
  . next e' os h' =>
    rw [h'] at h
    injection h with h
    rw [h, h']

theorem Errno.doserror_exterror_ne_zero {e : Errno} {info : DosError} (h : e.doserror = some info)
    : info.exterror ≠ 0 := by
  cases e with
  | unlisted n => simp [Errno.doserror] at h
  | _ =>
    injection h with h
    rw [← h]
    decide

theorem dosixDosexterr_of_errno_none {s : Dos σ} (h : s.errno = none)
    : dosixDosexterr s = .ok (s.errorinfo, s) := by
  unfold dosixDosexterr
  rw [h]

theorem failed_eq {s : Dos σ} {e : Errno} {info : DosError} (he : s.errno = some e)
    (hinfo : e.doserror = some info)
    : failed s = .ok (⟨info.exterror, none, s.setErrorinfo info⟩ : Result σ α) := by
  simp [failed, dosixDosexterr, he, hinfo]

theorem failed_code_ne_zero {s : Dos σ} (h : s.errno = none → s.errorinfo.exterror ≠ 0)
    : Meets (fun r : Result σ α => r.code ≠ 0) (· = .unreachable) (failed s) := by
  cases he : s.errno with
  | none =>
    simp only [failed, dosixDosexterr, he]
    exact h he
  | some e =>
    cases hinfo : e.doserror with
    | none => simp [failed, dosixDosexterr, he, hinfo]
    | some info =>
      rw [failed_eq he hinfo]
      exact Errno.doserror_exterror_ne_zero hinfo

theorem failed_errno {s : Dos σ} {r : Result σ α} (h : failed s = .ok r)
    : r.state.errno = s.errno := by
  unfold failed dosixDosexterr at h
  split at h
  . simp at h
  . next info t hexterr =>
    injection h with h
    subst h
    split at hexterr
    . injection hexterr with hexterr
      exact congrArg (fun p => p.2.errno) hexterr.symm
    . split at hexterr
      . simp at hexterr
      . injection hexterr with hexterr
        exact congrArg (fun p => p.2.errno) hexterr.symm

theorem dosixDosexterr_quiet (s : Dos σ)
    : Meets (fun r => Dos.Quiet s r.2) (· = .unreachable) (dosixDosexterr s) := by
  unfold dosixDosexterr
  split
  . exact .refl s
  . split
    . rfl
    . exact .setErrorinfo s _

theorem failed_quiet (s : Dos σ)
    : Meets (fun r : Result σ α => Dos.Quiet s r.state) (· = .unreachable) (failed s) := by
  have hquiet := dosixDosexterr_quiet s
  unfold failed
  split
  . next h => exact hquiet.of_error h
  . next h => exact hquiet.of_ok h

theorem exterrSet_code {new : DosError} (errno : Option Errno) (s : Dos σ)
    (h : new.exterror.toInt ≠ EXTERR_DONT_CHANGE)
    : (exterrSet new errno s : Result σ α).code = new.exterror := by
  simp only [exterrSet, DosError.merge]
  rw [if_pos h]

theorem exterrSet_quiet (new : DosError) (errno : Option Errno) (s : Dos σ)
    : Dos.Quiet s (exterrSet new errno s : Result σ α).state :=
  ⟨rfl, rfl, rfl, rfl, rfl, rfl, rfl, rfl⟩

end Dosix
