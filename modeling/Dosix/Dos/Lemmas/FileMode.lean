import Dosix.Dos.Lemmas.Pending
import Dosix.Mask.Basic

/-!
This module contains the permissions of a file under its attribute word: what writing attributes
makes of them, and when writing back the attributes that have been read restores them.
-/

namespace Dosix

open Transition

variable {σ : Type}

def S_IFREG : BitVec 32 := 0x8000

/-- The read, write and execute bits of the user, the group and the others. -/
def PERMISSIONS : BitVec 32 := 0x1ff

/-- The write bits of the three classes. -/
def WRITE : BitVec 32 := S_IWUSR ||| S_IWGRP ||| S_IWOTH

/--
What the kernel does to the mode of the file with this path: the calls that ask for it leave it
alone, and `chmod` sets its permissions.
-/
structure ModeContract (px : Posix σ) (path : CString) (mode : σ → BitVec 32) : Prop where
  stat : ∀ {os r os'}, px.stat path os = (r, os') → mode os' = mode os
  stat_ok : ∀ {os fs os'}, px.stat path os = (.ok fs, os') → fs.mode = mode os
  accessW : ∀ {os r os'}, px.accessW path os = (r, os') → mode os' = mode os
  chmod_ok : ∀ {m os os'}, px.chmod path m os = (.ok (), os') →
    mode os' &&& PERMISSIONS = m &&& PERMISSIONS

def attribWrite (attrib : BitVec 32) : Mask.Write 32 where
  mask := WRITE
  set := attrib &&& _A_RDONLY = 0

theorem attribWrite_permissions {attrib : BitVec 32}
    : (attribWrite attrib).mask &&& PERMISSIONS = (attribWrite attrib).mask := by
  change WRITE &&& PERMISSIONS = WRITE
  decide

/--
A call of `_dos_setfileattr` that must succeed.
-/
def setfileattrStep (px : Posix σ) (path : CString) (s : Dos σ) (attrib : BitVec 32)
    : Except Unit (Dos σ) :=
  match dosixDosSetfileattr px path attrib s with
  | .error _ => .error ()
  | .ok r => if r.code = 0 then .ok r.state else .error ()

/--
Whether the kernel denies the access test for writing, when it comes after `stat`.
-/
def writeDenied (px : Posix σ) (path : CString) (os : σ) : Bool :=
  match px.accessW path (px.stat path os).2 with
  | (.ok (), _) => false
  | (.error _, _) => true

variable {px : Posix σ} {path : CString} {mode : σ → BitVec 32} {s t : Dos σ}

theorem setfileattrStep_mode (hpx : ModeContract px path mode) {attrib : BitVec 32}
    (h : setfileattrStep px path s attrib = .ok t)
    : mode t.os &&& PERMISSIONS = (attribWrite attrib).apply (mode s.os &&& PERMISSIONS) := by
  unfold setfileattrStep at h
  cases hcall : dosixDosSetfileattr px path attrib s with
  | error f => simp [hcall] at h
  | ok r =>
    simp only [hcall] at h
    split at h
    . next hcode =>
      injection h with h
      obtain rfl := h
      unfold dosixDosSetfileattr at hcall
      split at hcall
      . next hstat => exact absurd hcode ((failed_ne_zero (Dos.call_none_errno hstat)).of_ok hcall)
      . next fs u hcall' =>
        obtain ⟨os, hstat, rfl⟩ := Dos.call_some hcall'
        dsimp only at hcall
        split at hcall
        . next hchmod =>
          exact absurd hcode ((failed_ne_zero (Dos.call_none_errno hchmod)).of_ok hcall)
        . next hcall' =>
          obtain ⟨os', hchmod, rfl⟩ := Dos.call_some hcall'
          injection hcall with hcall
          rw [← hcall]
          change mode os' &&& PERMISSIONS = _
          rw [hpx.chmod_ok hchmod, hpx.stat_ok hstat, ← Mask.Write.apply_and _ _ attribWrite_permissions]
          congr 1
          unfold attribWrite Mask.Write.apply
          by_cases hrdonly : attrib &&& _A_RDONLY = 0
          . simp [hrdonly, WRITE]
          . rw [if_pos hrdonly, decide_eq_false hrdonly]
            rfl
    . simp at h

/--
The permissions behind a run of calls are those that the attributes have written.
-/
theorem run_setfileattr_mode (hpx : ModeContract px path mode) {attribs : List (BitVec 32)}
    (h : run (setfileattrStep px path) s attribs = .ok t)
    : mode t.os &&& PERMISSIONS
        = Mask.writeAll (attribs.map attribWrite) (mode s.os &&& PERMISSIONS) := by
  induction attribs generalizing s with
  | nil =>
    obtain rfl := Except.ok.inj h
    rfl
  | cons attrib attribs ih =>
    unfold run at h
    split at h
    . next hstep =>
      rw [ih h, setfileattrStep_mode hpx hstep, List.map_cons, Mask.writeAll_cons]
    . simp at h

theorem run_concat_mode (hpx : ModeContract px path mode) {attribs : List (BitVec 32)}
    {attrib : BitVec 32} (h : run (setfileattrStep px path) s (attribs ++ [attrib]) = .ok t)
    : mode t.os &&& PERMISSIONS = (attribWrite attrib).apply (mode s.os &&& PERMISSIONS) := by
  rw [run_setfileattr_mode hpx h, List.map_append, List.map_singleton]
  have hmask : ∀ attrib, (attribWrite attrib).mask = WRITE := fun _ => rfl
  refine Mask.writeAll_same ?_ (hmask attrib) _
  intro o ho
  obtain ⟨attrib', -, rfl⟩ := List.mem_map.mp ho
  exact hmask attrib'

/-! Reading the attributes. -/

theorem getfileattr_regular (hpx : ModeContract px path mode)
    (hregular : mode s.os &&& S_IFMT = S_IFREG) {a : BitVec 32} {r : Result σ (BitVec 32)}
    (hget : dosixDosGetfileattr px path s = .ok r) (hcode : r.code = 0) (hout : r.out = some a)
    : mode r.state.os = mode s.os
        ∧ ((attribWrite a).set = true ↔ writeDenied px path s.os = false) := by
  obtain ⟨hattrib, hos, -⟩ := (dosixDosGetfileattr_agrees px path s).of_ok hget
  rw [hos]
  unfold attributeTest at hattrib ⊢
  unfold writeDenied
  cases hstat : px.stat path s.os with
  | mk r' os =>
    cases r' with
    | error e =>
      simp only [hstat] at hattrib
      exact absurd hcode hattrib
    | ok fs =>
      have hdir : S_ISDIR fs.mode = false := by
        unfold S_ISDIR
        rw [hpx.stat_ok hstat, hregular]
        decide
      simp only [hstat, hdir, Bool.false_eq_true, if_false] at hattrib ⊢
      cases haccess : px.accessW path os with
      | mk r' os' =>
        have hmode := (hpx.accessW haccess).trans (hpx.stat hstat)
        cases r' with
        | ok u =>
          simp only [haccess, hout, Option.some.injEq] at hattrib ⊢
          obtain ⟨-, rfl⟩ := hattrib
          exact ⟨hmode, by decide⟩
        | error e =>
          simp only [haccess] at hattrib ⊢
          split at hattrib
          . next hnone =>
            split at hnone
            . simp at hnone
            . exact absurd hcode hattrib
          . next attrib hsome =>
            split at hsome
            . next hreadOnly =>
              rw [if_pos hreadOnly]
              rw [hout] at hattrib
              obtain rfl := Option.some.inj hattrib.2
              obtain rfl := Option.some.inj hsome
              exact ⟨hmode, by decide⟩
            . simp at hsome

/-! Writing back the attributes. -/

/--
The run from `start` that writes `attribs` ends with the permissions of `s`, and none of the states
that it goes through gives a class a write permission that it does not have in `s`.
-/
def Restores (px : Posix σ) (path : CString) (mode : σ → BitVec 32) (s start : Dos σ)
    (attribs : List (BitVec 32)) : Prop :=
  (∀ t, run (setfileattrStep px path) start attribs = .ok t →
      mode t.os &&& PERMISSIONS = mode s.os &&& PERMISSIONS)
    ∧ ∀ written u, written <+: attribs → run (setfileattrStep px path) start written = .ok u →
      (mode u.os &&& PERMISSIONS) &&& WRITE &&& ~~~(mode s.os &&& PERMISSIONS) = 0

theorem and_permissions_and_write (m : BitVec 32) : m &&& PERMISSIONS &&& WRITE = m &&& WRITE := by
  rw [BitVec.and_assoc, show PERMISSIONS &&& WRITE = WRITE by decide]

theorem run_before {attribs : List (BitVec 32)}
    (h : run (setfileattrStep px path) s attribs = .ok t) {written : List (BitVec 32)}
    (hbefore : written <+: attribs)
    : ∃ u, run (setfileattrStep px path) s written = .ok u := by
  obtain ⟨rest, rfl⟩ := hbefore
  rw [run_append] at h
  cases hwritten : run (setfileattrStep px path) s written with
  | ok u => exact ⟨u, rfl⟩
  | error e => simp [hwritten, Except.bind] at h

/--
What no state of the run gains, by the attributes that it writes.
-/
theorem gains_nothing_iff (hpx : ModeContract px path mode) {start : Dos σ}
    (hstart : mode start.os = mode s.os) {attribs : List (BitVec 32)}
    (hrun : run (setfileattrStep px path) start attribs = .ok t)
    : (∀ written u, written <+: attribs → run (setfileattrStep px path) start written = .ok u →
        (mode u.os &&& PERMISSIONS) &&& WRITE &&& ~~~(mode s.os &&& PERMISSIONS) = 0)
      ↔ ∀ attrib ∈ attribs, attrib &&& _A_RDONLY = 0 → mode s.os &&& WRITE = WRITE := by
  have hgains : ∀ attrib, (attribWrite attrib).apply (mode s.os &&& PERMISSIONS) &&& WRITE
      &&& ~~~(mode s.os &&& PERMISSIONS) = 0
      ↔ (attrib &&& _A_RDONLY = 0 → mode s.os &&& WRITE = WRITE) := by
    intro attrib
    have h := (attribWrite attrib).apply_gains_iff (mode s.os &&& PERMISSIONS)
    rw [show (attribWrite attrib).mask = WRITE from rfl, and_permissions_and_write] at h
    rw [h]
    exact imp_congr_left decide_eq_true_iff
  constructor
  . intro h attrib hattrib
    obtain ⟨before, rest, rfl⟩ := List.append_of_mem hattrib
    have hbefore : before ++ [attrib] <+: before ++ attrib :: rest := ⟨rest, by simp⟩
    obtain ⟨u, hu⟩ := run_before hrun hbefore
    have hgain := h _ u hbefore hu
    rw [run_concat_mode hpx hu, hstart] at hgain
    exact (hgains attrib).mp hgain
  . intro h written u hbefore hu
    rcases List.eq_nil_or_concat' written with rfl | ⟨before, attrib, rfl⟩
    . obtain rfl := Except.ok.inj hu
      rw [hstart]
      have hself : ∀ x : BitVec 32, x &&& WRITE &&& ~~~x = 0 := by
        intro x
        rw [BitVec.and_assoc, BitVec.and_comm WRITE, ← BitVec.and_assoc]
        simp
      exact hself _
    . rw [run_concat_mode hpx hu, hstart]
      exact (hgains attrib).mpr (h attrib (hbefore.subset (by simp)))

/--
When writing back the attribute word that has been read restores the permissions: a file that the
caller may write must be writable for all classes, and one that it may not write for none of them,
and then no word of the sequence must make it writable.
-/
theorem restores_iff (hpx : ModeContract px path mode) (hregular : mode s.os &&& S_IFMT = S_IFREG)
    {a : BitVec 32} {r : Result σ (BitVec 32)} (hget : dosixDosGetfileattr px path s = .ok r)
    (hcode : r.code = 0) (hout : r.out = some a) (attribs : List (BitVec 32))
    (hrun : run (setfileattrStep px path) r.state (attribs ++ [a]) = .ok t)
    : Restores px path mode s r.state (attribs ++ [a])
        ↔ if writeDenied px path s.os then
            mode s.os &&& WRITE = 0 ∧ ∀ attrib ∈ attribs, attrib &&& _A_RDONLY ≠ 0
          else
            mode s.os &&& WRITE = WRITE := by
  obtain ⟨hstart, hset⟩ := getfileattr_regular hpx hregular hget hcode hout
  have hend : (∀ t, run (setfileattrStep px path) r.state (attribs ++ [a]) = .ok t →
      mode t.os &&& PERMISSIONS = mode s.os &&& PERMISSIONS)
      ↔ mode s.os &&& WRITE = if (attribWrite a).set then WRITE else 0 := by
    have h := (attribWrite a).apply_eq_self_iff (mode s.os &&& PERMISSIONS)
    rw [show (attribWrite a).mask = WRITE from rfl, and_permissions_and_write] at h
    rw [← h, ← hstart]
    constructor
    . intro h
      rw [← run_concat_mode hpx hrun]
      exact h t hrun
    . intro h u hu
      rw [run_concat_mode hpx hu, h]
  unfold Restores
  rw [hend, gains_nothing_iff hpx hstart hrun]
  have ha : (attribWrite a).set = true ↔ a &&& _A_RDONLY = 0 := decide_eq_true_iff
  cases hdenied : writeDenied px path s.os with
  | false =>
    rw [if_pos (hset.mpr hdenied), if_neg (by simp)]
    exact and_iff_left_of_imp fun h _ _ _ => h
  | true =>
    have hreadOnly : ¬ (attribWrite a).set = true := by
      intro h
      rw [hset.mp h] at hdenied
      simp at hdenied
    rw [if_neg hreadOnly, if_pos rfl]
    apply and_congr_right
    intro hzero
    -- no bit is set, so that a word which is not read-only would set one
    have hne : ¬ mode s.os &&& WRITE = WRITE := by
      rw [hzero]
      decide
    constructor
    . intro h attrib hattrib hwritable
      exact hne (h attrib (List.mem_append_left _ hattrib) hwritable)
    . intro h attrib hattrib hwritable
      rcases List.mem_append.mp hattrib with hmem | hmem
      . exact absurd hwritable (h attrib hmem)
      . rw [List.mem_singleton.mp hmem] at hwritable
        exact absurd (ha.mpr hwritable) hreadOnly

/--
A kernel with one file, of which the caller is the owner.
-/
def modeKernel : Posix (BitVec 32) where
  __ := (default : Posix (BitVec 32))
  stat := fun _ mode => (.ok { mode := mode }, mode)
  accessW := fun _ mode => (if mode &&& S_IWUSR ≠ 0 then .ok () else .error .EACCES, mode)
  chmod := fun _ m mode => (.ok (), (mode &&& ~~~PERMISSIONS) ||| (m &&& PERMISSIONS))

theorem modeKernel_contract (path : CString) : ModeContract modeKernel path id where
  stat := by
    rintro os r os' h
    exact (Prod.mk.inj h).2.symm
  stat_ok := by
    rintro os fs os' h
    obtain ⟨h, -⟩ := Prod.mk.inj h
    rw [← Except.ok.inj h]
    rfl
  accessW := by
    rintro os r os' h
    exact (Prod.mk.inj h).2.symm
  chmod_ok := by
    rintro m os os' h
    rw [← (Prod.mk.inj h).2]
    change (os &&& ~~~PERMISSIONS ||| m &&& PERMISSIONS) &&& PERMISSIONS = m &&& PERMISSIONS
    rw [Mask.eq_iff_getLsbD]
    intro i
    rw [BitVec.getLsbD_and, BitVec.getLsbD_or, Mask.getLsbD_and_not, BitVec.getLsbD_and]
    cases PERMISSIONS.getLsbD i
    all_goals simp

/--
A file that all may write, made read-only in between.
-/
theorem restores_iff_writable
    : ∃ r t, dosixDosGetfileattr modeKernel (some "A.TXT") { os := 0x81b6 } = .ok r
        ∧ r.out = some _A_ARCH
        ∧ run (setfileattrStep modeKernel (some "A.TXT")) r.state [_A_RDONLY, _A_ARCH] = .ok t
        ∧ Restores modeKernel (some "A.TXT") id { os := 0x81b6 } r.state [_A_RDONLY, _A_ARCH] := by
  obtain ⟨r, hget, hr⟩ := exists_of_any
    (r := dosixDosGetfileattr modeKernel (some "A.TXT") { os := 0x81b6 })
    (q := fun r => r.code = 0 ∧ r.out = some _A_ARCH
      ∧ (run (setfileattrStep modeKernel (some "A.TXT")) r.state [_A_RDONLY, _A_ARCH]).toOption.any
        fun _ => true) (by decide +kernel)
  obtain ⟨hcode, hout, hrun⟩ := of_decide_eq_true hr
  obtain ⟨t, hrun, -⟩ := exists_of_any hrun
  refine ⟨r, t, hget, hout, hrun, ?_⟩
  apply (restores_iff (modeKernel_contract _) (by decide) hget hcode hout [_A_RDONLY] hrun).mpr
  rw [if_neg (by decide)]
  decide

/--
Reading and writing back the attributes of a file with the mode 0644 makes it one with the mode
0666.
-/
theorem not_restores_ownerWritable
    : ∃ r t, dosixDosGetfileattr modeKernel (some "A.TXT") { os := 0x81a4 } = .ok r
        ∧ r.code = 0 ∧ r.out = some _A_ARCH
        ∧ run (setfileattrStep modeKernel (some "A.TXT")) r.state [_A_ARCH] = .ok t
        ∧ t.os = 0x81b6
        ∧ ¬ Restores modeKernel (some "A.TXT") id { os := 0x81a4 } r.state [_A_ARCH] := by
  obtain ⟨r, hget, hr⟩ := exists_of_any
    (r := dosixDosGetfileattr modeKernel (some "A.TXT") { os := 0x81a4 })
    (q := fun r => r.code = 0 ∧ r.out = some _A_ARCH
      ∧ (run (setfileattrStep modeKernel (some "A.TXT")) r.state [_A_ARCH]).toOption.any
        fun t => t.os = 0x81b6) (by decide +kernel)
  obtain ⟨hcode, hout, hrun⟩ := of_decide_eq_true hr
  obtain ⟨t, hrun, hos⟩ := exists_of_any hrun
  have hos := of_decide_eq_true hos
  refine ⟨r, t, hget, hcode, hout, hrun, hos, ?_⟩
  intro h
  have hend := h.1 t hrun
  rw [hos] at hend
  exact absurd hend (by decide)

end Dosix
