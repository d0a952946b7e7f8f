import Dosix.Dos.Lemmas.ExtErr
import Dosix.Dos.Lemmas.Open
import Dosix.Sharing.Impl

/-!
This module contains how far the sharing modes are enforced between processes. The code takes a read
lock for the compatibility mode and a write lock for every mode that denies something, and none for
`_SH_DENYNO`.
-/

namespace Dosix

namespace Sharing

open Transition

variable {ι : Type} [DecidableEq ι]

namespace Share

def lock (share : Share) : Option Lock :=
  match share with
  | .compat => some .read
  | .denyno => none
  | _ => some .write

/--
The lock that each mode is written with in the code, where the modes are taken for single flags.
-/
def flagLock (share : Share) : Option Lock :=
  match share with
  | .compat => some .read
  | .denyrw => some .write
  | .denywr => some .read
  | .denyrd => some .write
  | .denyno => none

end Share

/--
The descriptor can carry the lock that the code takes, and no other process has one that excludes it.
-/
def Kernel.Lockable (k : Kernel ι) (p : ι) (a : Access) (share : Share) : Prop :=
  ∀ l ∈ share.lock, l.carriedBy a = true ∧ k.Granted p l

instance (k : Kernel ι) (p : ι) (a : Access) (share : Share) : Decidable (k.Lockable p a share) :=
  inferInstanceAs (Decidable (∀ l ∈ share.lock, _))

namespace System

variable (sys : System ι) (p : ι) (a : Access) (share : Share)

/--
A handle that another process holds denies the access.
-/
def Denied : Prop :=
  ∃ h ∈ sys.handles, h.process ≠ p ∧ h.share.denies a = true

instance : Decidable (sys.Denied p a) :=
  inferInstanceAs (Decidable (∃ h ∈ sys.handles, _))

def ConflictFree : Prop :=
  ∀ h ∈ sys.handles, h.process ≠ p → h.share.denies a = false ∧ share.denies h.access = false

instance : Decidable (sys.ConflictFree p a share) :=
  inferInstanceAs (Decidable (∀ h ∈ sys.handles, _))

end System

def Enforced (sys : System ι) (c : Call ι) : Prop :=
  match c with
  | .dosOpen p path a share noinherit next =>
    ∃ r, dosixDosOpen (Kernel.posix p next) (some path) (openMode a share noinherit) (sys.enter p)
        = .ok r
      ∧ (sys.Denied p a → r.code ≠ 0) ∧ (sys.ConflictFree p a share → r.code = 0)
  | .dosClose _ _ => True

def Fresh (sys : System ι) (c : Call ι) : Prop :=
  match c with
  | .dosOpen p _ _ _ _ next => sys.kernel.descriptors p next = none
  | .dosClose _ _ => True

def Covered (sys : System ι) (c : Call ι) : Prop :=
  match c with
  | .dosOpen p _ a share _ _ =>
    (sys.Denied p a → ¬ sys.kernel.Lockable p a share)
      ∧ (sys.ConflictFree p a share → sys.kernel.Lockable p a share)
  | .dosClose _ _ => True

instance (sys : System ι) (c : Call ι) : Decidable (Fresh sys c) :=
  match c with
  | .dosOpen _ _ _ _ _ _ => inferInstanceAs (Decidable (_ = _))
  | .dosClose _ _ => inferInstanceAs (Decidable True)

instance (sys : System ι) (c : Call ι) : Decidable (Covered sys c) :=
  match c with
  | .dosOpen _ _ _ _ _ _ => inferInstanceAs (Decidable ((_ → ¬ _) ∧ (_ → _)))
  | .dosClose _ _ => inferInstanceAs (Decidable True)

/-! The mode words. -/

theorem openMode_access (a : Access) (share : Share) (noinherit : Bool)
    : Access.ofFlags ((if openMode a share noinherit &&& _O_RDONLY ≠ 0 then O_RDONLY else 0)
          ||| (if openMode a share noinherit &&& _O_WRONLY ≠ 0 then O_WRONLY else 0)
          ||| (if openMode a share noinherit &&& _O_RDWR ≠ 0 then O_RDWR else 0))
        = some a := by
  cases a
  all_goals
    cases share
    all_goals
      cases noinherit
      all_goals decide

/-! The calls of the kernel. -/

section

variable {k : Kernel ι} {p : ι} {a : Access} {next fd : BitVec 32} {l : Lock}

@[simp]
theorem setDescriptor_same (k : Kernel ι) (p : ι) (fd : BitVec 32) (a : Option Access)
    : (k.setDescriptor p fd a).descriptors p fd = a := by
  simp [Kernel.setDescriptor]

theorem posix_openFile {flags : BitVec 32} (hflags : Access.ofFlags flags = some a)
    (hfree : k.descriptors p next = none) (path : CString) (mode : BitVec 32)
    : (Kernel.posix p next).openFile path flags mode k
        = (.ok next, k.setDescriptor p next (some a)) := by
  simp [Kernel.posix, hflags, hfree]

def Lock.type (l : Lock) : BitVec 16 :=
  match l with
  | .read => F_RDLCK
  | .write => F_WRLCK

theorem ofType_type (l : Lock) : Lock.ofType l.type = some l := by
  cases l
  all_goals rfl

theorem posix_setlk (h : k.descriptors p fd = some a)
    : (Kernel.posix p next).setlk fd l.type k
        = if l.carriedBy a = false then
            (.error .EBADF, k)
          else if k.Granted p l then
            (.ok (), k.setLock p l)
          else
            (.error .EAGAIN, k) := by
  unfold Kernel.posix
  dsimp only
  rw [h, ofType_type]

theorem posix_setlk_ok (h : k.descriptors p fd = some a) (hcarried : l.carriedBy a = true)
    (hgranted : k.Granted p l)
    : (Kernel.posix p next).setlk fd l.type k
        = (.ok (), k.setLock p l) := by
  rw [posix_setlk h, if_neg (by simp [hcarried]), if_pos hgranted]

theorem posix_setlk_error (next : BitVec 32) (h : k.descriptors p fd = some a)
    (hrefused : ¬ (l.carriedBy a = true ∧ k.Granted p l))
    : ∃ e info, (Kernel.posix p next).setlk fd l.type k = (.error e, k)
        ∧ e.doserror = some info := by
  rw [posix_setlk h]
  split
  . exact ⟨_, _, rfl, rfl⟩
  . next hcarried =>
    rw [if_neg fun hgranted => hrefused ⟨by simpa using hcarried, hgranted⟩]
    exact ⟨_, _, rfl, rfl⟩

end

theorem requestedLock_openMode (a : Access) (share : Share) (noinherit : Bool)
    : requestedLock (openMode a share noinherit) = share.lock.map Lock.type := by
  cases share
  all_goals
    cases a
    all_goals
      cases noinherit
      all_goals rfl

/--
The bit of `_SH_DENYWR` is one of `_SH_DENYRD` too, and so this mode alone does not get its own lock.
-/
theorem requestedLock_eq_flagLock_iff (a : Access) (share : Share) (noinherit : Bool)
    : requestedLock (openMode a share noinherit) = share.flagLock.map Lock.type
        ↔ share ≠ .denywr := by
  rw [requestedLock_openMode]
  cases share
  all_goals decide

theorem openLock_eq {σ : Type} (px : Posix σ) (a : Access) (share : Share) (noinherit : Bool)
    (fd : BitVec 32) (s : Dos σ)
    : openLock px (openMode a share noinherit) fd s
        = match share.lock with
          | none => (some (), s)
          | some l => s.call (px.setlk fd l.type) := by
  rw [openLock_eq_call]
  unfold lockCall
  rw [requestedLock_openMode]
  cases share.lock with
  | none => rfl
  | some l => rfl

/-! Opening. -/

namespace Kernel

def lockFor (k : Kernel ι) (p : ι) (share : Share) : Kernel ι :=
  match share.lock with
  | none => k
  | some l => k.setLock p l

theorem lockFor_descriptors (k : Kernel ι) (p : ι) (share : Share)
    : (k.lockFor p share).descriptors = k.descriptors := by
  unfold lockFor
  split
  . rfl
  . rfl

end Kernel

section

variable {s : Dos (Kernel ι)} {p : ι} {a : Access} {share : Share} {next fd : BitVec 32}

theorem call_openFile (noinherit : Bool) (path : CString) (h : s.os.descriptors p next = none)
    : s.call ((Kernel.posix p next).openFile path
          ((if openMode a share noinherit &&& _O_RDONLY ≠ 0 then O_RDONLY else 0)
            ||| (if openMode a share noinherit &&& _O_WRONLY ≠ 0 then O_WRONLY else 0)
            ||| (if openMode a share noinherit &&& _O_RDWR ≠ 0 then O_RDWR else 0)) 0)
        = (some next, s.setOs (s.os.setDescriptor p next (some a))) := by
  unfold Dos.call
  rw [posix_openFile (openMode_access a share noinherit) h]

theorem openNoinherit_open {mode : BitVec 32} (h : s.os.descriptors p fd ≠ none)
    : openNoinherit (Kernel.posix p next) mode fd s = (some (), s) := by
  unfold openNoinherit
  split
  . simp [Dos.call, Kernel.posix, h, Dos.setOs]
  . rfl

theorem openLock_lockable {noinherit : Bool} (h : s.os.descriptors p fd = some a)
    (hlockable : s.os.Lockable p a share)
    : openLock (Kernel.posix p next) (openMode a share noinherit) fd s
        = (some (), s.setOs (s.os.lockFor p share)) := by
  rw [openLock_eq]
  unfold Kernel.lockFor
  cases hl : share.lock with
  | none => rfl
  | some l =>
    obtain ⟨hcarried, hgranted⟩ := hlockable l hl
    dsimp only
    unfold Dos.call
    rw [posix_setlk_ok h hcarried hgranted]

theorem openLock_not_lockable (next : BitVec 32) (noinherit : Bool)
    (h : s.os.descriptors p fd = some a)
    (hlockable : ¬ s.os.Lockable p a share)
    : ∃ e info, openLock (Kernel.posix p next) (openMode a share noinherit) fd s
          = (none, (s.setOs s.os).setErrno (some e))
        ∧ e.doserror = some info := by
  rw [openLock_eq]
  cases hl : share.lock with
  | none =>
    refine absurd ?_ hlockable
    intro l hl'
    simp [hl] at hl'
  | some l =>
    have hrefused : ¬ (l.carriedBy a = true ∧ s.os.Granted p l) := by
      intro hl'
      apply hlockable
      intro l' hl''
      obtain rfl : l = l' := by simpa [hl] using hl''
      exact hl'
    obtain ⟨e, info, he, hinfo⟩ := posix_setlk_error next h hrefused
    refine ⟨e, info, ?_, hinfo⟩
    dsimp only
    unfold Dos.call
    rw [he]

/--
What opening comes to. Where the lock is not to be had, the descriptor stays open.
-/
theorem dosixDosOpen_lockable (path : String) (noinherit : Bool)
    (hfree : s.os.descriptors p next = none) (hlockable : s.os.Lockable p a share)
    : ∃ r, dosixDosOpen (Kernel.posix p next) (some path) (openMode a share noinherit) s = .ok r
        ∧ r.code = 0 ∧ r.out = some next
        ∧ r.state.os = (s.os.setDescriptor p next (some a)).lockFor p share := by
  have hlock : (s.setOs (s.os.setDescriptor p next (some a))).os.Lockable p a share := hlockable
  unfold dosixDosOpen
  rw [if_neg (by simp)]
  dsimp only
  rw [call_openFile noinherit (some path) hfree]
  dsimp only
  rw [openLock_lockable (setDescriptor_same s.os p next (some a)) hlock]
  dsimp only
  rw [openNoinherit_open]
  . exact ⟨_, rfl, rfl, rfl, rfl⟩
  . simp [Kernel.lockFor_descriptors]

theorem dosixDosOpen_not_lockable (path : String) (noinherit : Bool)
    (hfree : s.os.descriptors p next = none) (hlockable : ¬ s.os.Lockable p a share)
    : ∃ r, dosixDosOpen (Kernel.posix p next) (some path) (openMode a share noinherit) s = .ok r
        ∧ r.code ≠ 0 ∧ r.out = none ∧ r.state.os = s.os.setDescriptor p next (some a) := by
  have hlock : ¬ (s.setOs (s.os.setDescriptor p next (some a))).os.Lockable p a share := hlockable
  obtain ⟨e, info, he, hinfo⟩ := openLock_not_lockable next noinherit
    (setDescriptor_same s.os p next (some a)) hlock
  unfold dosixDosOpen
  rw [if_neg (by simp)]
  dsimp only
  rw [call_openFile noinherit (some path) hfree]
  dsimp only
  rw [he]
  exact ⟨_, failed_eq rfl hinfo, Errno.doserror_exterror_ne_zero hinfo, rfl, rfl⟩

end

theorem enforced_iff_covered {sys : System ι} {c : Call ι} (h : Fresh sys c)
    : Enforced sys c ↔ Covered sys c := by
  cases c with
  | dosClose p fd => rfl
  | dosOpen p path a share noinherit next =>
    unfold Enforced Covered
    dsimp only
    by_cases hlockable : sys.kernel.Lockable p a share
    . obtain ⟨r, hr, hcode, -⟩ :=
        dosixDosOpen_lockable (s := sys.enter p) path noinherit h hlockable
      constructor
      . rintro ⟨r', hr', hdenied, -⟩
        rw [hr] at hr'
        injection hr' with hr'
        exact ⟨fun hd => absurd (hr' ▸ hcode) (hdenied hd), fun _ => hlockable⟩
      . rintro ⟨hdenied, -⟩
        exact ⟨r, hr, fun hd => absurd hlockable (hdenied hd), fun _ => hcode⟩
    . obtain ⟨r, hr, hcode, -⟩ :=
        dosixDosOpen_not_lockable (s := sys.enter p) path noinherit h hlockable
      constructor
      . rintro ⟨r', hr', -, hfree⟩
        rw [hr] at hr'
        injection hr' with hr'
        exact ⟨fun _ => hlockable, fun hf => absurd (hfree hf) (hr' ▸ hcode)⟩
      . rintro ⟨-, hfree⟩
        exact ⟨r, hr, fun _ => hcode, fun hf => absurd (hfree hf) hlockable⟩

theorem always_enforced_iff {sys : System ι} {cs : List (Call ι)} (h : Always step Fresh sys cs)
    : Always step Enforced sys cs ↔ Always step Covered sys cs := by
  refine Always.congr (fun _ => True) ?_ ?_ trivial h
  . intros
    trivial
  . intro sys c _ hc
    exact enforced_iff_covered hc

/-! Processes that open the file once at a time. -/

/--
The process has no descriptor for the file, be it that of a handle or one that was left open.
-/
def Alone (sys : System ι) (c : Call ι) : Prop :=
  match c with
  | .dosOpen p _ _ _ _ _ => ∀ fd, sys.kernel.descriptors p fd = none
  | .dosClose _ _ => True

/--
Two sharing modes of which both can be locked.
-/
def Share.compatible (share share' : Share) : Bool :=
  share = .denyno ∨ share' = .denyno ∨ share = .compat ∧ share' = .compat

def Admissible (sys : System ι) (c : Call ι) : Prop :=
  match c with
  | .dosOpen p _ a share _ _ =>
    (sys.Denied p a → share ≠ .denyno)
      ∧ (sys.ConflictFree p a share → (∀ l ∈ share.lock, l.carriedBy a = true)
        ∧ ∀ h ∈ sys.handles, h.process ≠ p → share.compatible h.share = true)
  | .dosClose _ _ => True

/--
The locks are those of the handles.
-/
structure Disciplined (sys : System ι) : Prop where
  locks : ∀ p l, (p, l) ∈ sys.kernel.locks
    ↔ ∃ h ∈ sys.handles, h.process = p ∧ h.share.lock = some l
  opened : ∀ h ∈ sys.handles, sys.kernel.descriptors h.process h.fd ≠ none
  single : ∀ p fd fd', sys.kernel.descriptors p fd ≠ none → sys.kernel.descriptors p fd' ≠ none →
    fd = fd'

theorem step_dosOpen_lockable {sys : System ι} {p : ι} {a : Access} {share : Share}
    {next : BitVec 32} (path : String) (noinherit : Bool)
    (hfree : sys.kernel.descriptors p next = none)
    (hlockable : sys.kernel.Lockable p a share)
    : ∃ sys', step sys (.dosOpen p path a share noinherit next) = .ok sys'
        ∧ sys'.kernel = (sys.kernel.setDescriptor p next (some a)).lockFor p share
        ∧ sys'.handles = ⟨p, next, a, share⟩ :: sys.handles := by
  obtain ⟨r, hr, -, hout, hos⟩ :=
    dosixDosOpen_lockable (s := sys.enter p) path noinherit hfree hlockable
  unfold step
  dsimp only
  rw [hr]
  dsimp only [bind, Except.bind]
  rw [hout]
  exact ⟨_, rfl, hos, rfl⟩

theorem step_dosOpen_not_lockable {sys : System ι} {p : ι} {a : Access} {share : Share}
    {next : BitVec 32} (path : String) (noinherit : Bool)
    (hfree : sys.kernel.descriptors p next = none) (hlockable : ¬ sys.kernel.Lockable p a share)
    : ∃ sys', step sys (.dosOpen p path a share noinherit next) = .ok sys'
        ∧ sys'.kernel = sys.kernel.setDescriptor p next (some a) ∧ sys'.handles = sys.handles := by
  obtain ⟨r, hr, -, hout, hos⟩ :=
    dosixDosOpen_not_lockable (s := sys.enter p) path noinherit hfree hlockable
  unfold step
  dsimp only
  rw [hr]
  dsimp only [bind, Except.bind]
  rw [hout]
  exact ⟨_, rfl, hos, rfl⟩

theorem step_dosClose_open {sys : System ι} {p : ι} {fd : BitVec 32}
    (hopen : sys.kernel.descriptors p fd ≠ none)
    : ∃ sys', step sys (.dosClose p fd) = .ok sys'
        ∧ sys'.kernel = (sys.kernel.setDescriptor p fd none).unlock p
        ∧ sys'.handles = sys.handles.filter fun h => h.process ≠ p ∨ h.fd ≠ fd := by
  have hclose : (Kernel.posix p 0).close fd (sys.enter p).os
      = (.ok (), (sys.kernel.setDescriptor p fd none).unlock p) :=
    if_neg hopen
  unfold step dosixDosClose Dos.call
  dsimp only
  rw [hclose]
  exact ⟨_, rfl, rfl, rfl⟩

theorem step_dosClose_closed {sys : System ι} {p : ι} {fd : BitVec 32}
    (hclosed : sys.kernel.descriptors p fd = none)
    : ∃ sys', step sys (.dosClose p fd) = .ok sys'
        ∧ sys'.kernel = sys.kernel ∧ sys'.handles = sys.handles := by
  have hclose : (Kernel.posix p 0).close fd (sys.enter p).os = (.error .EBADF, sys.kernel) :=
    if_pos hclosed
  unfold step dosixDosClose Dos.call
  dsimp only
  rw [hclose]
  exact ⟨_, rfl, rfl, rfl⟩

theorem mem_lockFor {k : Kernel ι} {p q : ι} {share : Share} {l : Lock}
    (hunlocked : ∀ l, (p, l) ∉ k.locks)
    : (q, l) ∈ (k.lockFor p share).locks ↔ (q = p ∧ share.lock = some l) ∨ (q, l) ∈ k.locks := by
  unfold Kernel.lockFor
  split
  . next h => simp [h]
  . next l' h =>
    simp only [Kernel.setLock, List.mem_cons, Prod.mk.injEq, List.mem_filter, h, Option.some.injEq,
      decide_eq_true_eq]
    constructor
    . rintro (⟨rfl, rfl⟩ | ⟨hmem, -⟩)
      . exact .inl ⟨rfl, rfl⟩
      . exact .inr hmem
    . rintro (⟨rfl, rfl⟩ | hmem)
      . exact .inl ⟨rfl, rfl⟩
      . refine .inr ⟨hmem, ?_⟩
        rintro rfl
        exact hunlocked l hmem

namespace Disciplined

variable {sys sys' : System ι} {p : ι} {a : Access} {share : Share} {next fd : BitVec 32}

omit [DecidableEq ι] in
theorem process_ne (h : Disciplined sys) (halone : ∀ fd, sys.kernel.descriptors p fd = none)
    {x : Handle ι} (hx : x ∈ sys.handles)
    : x.process ≠ p := by
  rintro rfl
  exact h.opened x hx (halone x.fd)

omit [DecidableEq ι] in
theorem unlocked (h : Disciplined sys) (halone : ∀ fd, sys.kernel.descriptors p fd = none)
    (l : Lock)
    : (p, l) ∉ sys.kernel.locks := by
  intro hl
  obtain ⟨x, hx, hp, -⟩ := (h.locks p l).mp hl
  exact h.process_ne halone hx hp

theorem descriptors_setDescriptor (k : Kernel ι) (p q : ι) (fd fd' : BitVec 32) (a : Option Access)
    : (k.setDescriptor p fd a).descriptors q fd'
        = if q = p ∧ fd' = fd then a else k.descriptors q fd' := rfl

theorem single_setDescriptor (h : Disciplined sys)
    (halone : ∀ fd, sys.kernel.descriptors p fd = none) {q : ι} {fd fd' : BitVec 32}
    (hfd : (sys.kernel.setDescriptor p next (some a)).descriptors q fd ≠ none)
    (hfd' : (sys.kernel.setDescriptor p next (some a)).descriptors q fd' ≠ none)
    : fd = fd' := by
  rw [descriptors_setDescriptor] at hfd hfd'
  by_cases hq : q = p
  . subst hq
    simp only [true_and, halone] at hfd hfd'
    by_cases hnext : fd = next
    . by_cases hnext' : fd' = next
      . rw [hnext, hnext']
      . simp [hnext'] at hfd'
    . simp [hnext] at hfd
  . simp only [hq, false_and, if_false] at hfd hfd'
    exact h.single q fd fd' hfd hfd'

theorem opened_setDescriptor (h : Disciplined sys)
    (halone : ∀ fd, sys.kernel.descriptors p fd = none) {x : Handle ι} (hx : x ∈ sys.handles)
    : (sys.kernel.setDescriptor p next (some a)).descriptors x.process x.fd ≠ none := by
  have hp := h.process_ne halone hx
  rw [descriptors_setDescriptor, if_neg fun h => hp h.1]
  exact h.opened x hx

theorem dosOpen (h : Disciplined sys) (halone : ∀ fd, sys.kernel.descriptors p fd = none)
    (hkernel : sys'.kernel = (sys.kernel.setDescriptor p next (some a)).lockFor p share)
    (hhandles : sys'.handles = ⟨p, next, a, share⟩ :: sys.handles)
    : Disciplined sys' where
  locks := by
    intro q l
    rw [hkernel, hhandles, mem_lockFor (k := sys.kernel.setDescriptor p next (some a)) (h.unlocked halone)]
    constructor
    . rintro (⟨rfl, hl⟩ | hl)
      . exact ⟨_, .head _, rfl, hl⟩
      . obtain ⟨x, hx, hxl⟩ := (h.locks q l).mp hl
        exact ⟨x, .tail _ hx, hxl⟩
    . rintro ⟨x, hx, hp, hl⟩
      obtain rfl | hx := List.mem_cons.mp hx
      . exact .inl ⟨hp.symm, hl⟩
      . exact .inr ((h.locks q l).mpr ⟨x, hx, hp, hl⟩)
  opened := by
    intro x hx
    rw [hhandles] at hx
    rw [hkernel, Kernel.lockFor_descriptors]
    obtain rfl | hx := List.mem_cons.mp hx
    . simp
    . exact h.opened_setDescriptor halone hx
  single := by
    intro q fd fd' hfd hfd'
    rw [hkernel, Kernel.lockFor_descriptors] at hfd hfd'
    exact h.single_setDescriptor halone hfd hfd'

theorem dosOpen_failed (h : Disciplined sys) (halone : ∀ fd, sys.kernel.descriptors p fd = none)
    (hkernel : sys'.kernel = sys.kernel.setDescriptor p next (some a))
    (hhandles : sys'.handles = sys.handles)
    : Disciplined sys' where
  locks := by
    intro q l
    rw [hkernel, hhandles]
    exact h.locks q l
  opened := by
    intro x hx
    rw [hhandles] at hx
    rw [hkernel]
    exact h.opened_setDescriptor halone hx
  single := by
    intro q fd fd' hfd hfd'
    rw [hkernel] at hfd hfd'
    exact h.single_setDescriptor halone hfd hfd'

theorem dosClose (h : Disciplined sys) (hopen : sys.kernel.descriptors p fd ≠ none)
    (hkernel : sys'.kernel = (sys.kernel.setDescriptor p fd none).unlock p)
    (hhandles : sys'.handles = sys.handles.filter fun h => h.process ≠ p ∨ h.fd ≠ fd)
    : Disciplined sys' where
  locks := by
    -- the only handle of the process is the one that is closed
    have hother : ∀ x ∈ sys.handles, x.process = p → x.fd = fd := by
      rintro x hx rfl
      exact h.single x.process x.fd fd (h.opened x hx) hopen
    intro q l
    rw [hkernel, hhandles]
    simp only [Kernel.unlock, Kernel.setDescriptor, List.mem_filter, decide_eq_true_eq]
    rw [h.locks q l]
    constructor
    . rintro ⟨⟨x, hx, rfl, hl⟩, hq⟩
      exact ⟨x, ⟨hx, .inl hq⟩, rfl, hl⟩
    . rintro ⟨x, ⟨hx, hne⟩, rfl, hl⟩
      refine ⟨⟨x, hx, rfl, hl⟩, ?_⟩
      rintro rfl
      obtain hne | hne := hne
      . exact hne rfl
      . exact hne (hother x hx rfl)
  opened := by
    intro x hx
    rw [hhandles, List.mem_filter, decide_eq_true_eq] at hx
    rw [hkernel]
    change (sys.kernel.setDescriptor p fd none).descriptors x.process x.fd ≠ none
    rw [descriptors_setDescriptor, if_neg ?_]
    . exact h.opened x hx.1
    . rintro ⟨hp, hfd⟩
      obtain hne | hne := hx.2
      . exact hne hp
      . exact hne hfd
  single := by
    intro q fd' fd'' hfd' hfd''
    rw [hkernel] at hfd' hfd''
    change (sys.kernel.setDescriptor p fd none).descriptors q fd' ≠ none at hfd'
    change (sys.kernel.setDescriptor p fd none).descriptors q fd'' ≠ none at hfd''
    rw [descriptors_setDescriptor] at hfd' hfd''
    split at hfd'
    . exact absurd rfl hfd'
    . split at hfd''
      . exact absurd rfl hfd''
      . exact h.single q fd' fd'' hfd' hfd''

end Disciplined

omit [DecidableEq ι] in
theorem Alone.fresh {sys : System ι} {c : Call ι} (h : Alone sys c) : Fresh sys c := by
  cases c with
  | dosOpen p path a share noinherit next => exact h next
  | dosClose p fd => trivial

theorem Disciplined.step {sys sys' : System ι} {c : Call ι} (h : Disciplined sys)
    (halone : Alone sys c) (hstep : Sharing.step sys c = .ok sys')
    : Disciplined sys' := by
  cases c with
  | dosOpen p path a share noinherit next =>
    by_cases hlockable : sys.kernel.Lockable p a share
    . obtain ⟨t, ht, hkernel, hhandles⟩ :=
        step_dosOpen_lockable path noinherit (halone next) hlockable
      rw [hstep] at ht
      injection ht with ht
      exact ht ▸ h.dosOpen halone hkernel hhandles
    . obtain ⟨t, ht, hkernel, hhandles⟩ :=
        step_dosOpen_not_lockable path noinherit (halone next) hlockable
      rw [hstep] at ht
      injection ht with ht
      exact ht ▸ h.dosOpen_failed halone hkernel hhandles
  | dosClose p fd =>
    by_cases hclosed : sys.kernel.descriptors p fd = none
    . obtain ⟨t, ht, hkernel, hhandles⟩ := step_dosClose_closed hclosed
      rw [hstep] at ht
      injection ht with ht
      subst ht
      refine ⟨?_, ?_, ?_⟩
      all_goals
        rw [hkernel]
      . rw [hhandles]
        exact h.locks
      . rw [hhandles]
        exact h.opened
      . exact h.single
    . obtain ⟨t, ht, hkernel, hhandles⟩ := step_dosClose_open hclosed
      rw [hstep] at ht
      injection ht with ht
      exact ht ▸ h.dosClose hclosed hkernel hhandles

theorem Share.lock_of_denies {share : Share} {a : Access} (h : share.denies a = true)
    : share.lock = some .write := by
  cases share
  case compat => simp [denies] at h
  case denyno => simp [denies] at h
  all_goals rfl

theorem Share.compatible_iff (share share' : Share)
    : share.compatible share' = true
        ↔ ∀ l ∈ share.lock, ∀ l' ∈ share'.lock, l.excludes l' = false := by
  cases share
  all_goals
    cases share'
    all_goals simp [compatible, lock, Lock.excludes]

omit [DecidableEq ι] in
theorem Disciplined.granted_iff {sys : System ι} (h : Disciplined sys) (p : ι) (l : Lock)
    : sys.kernel.Granted p l
        ↔ ∀ x ∈ sys.handles, x.process ≠ p → ∀ l' ∈ x.share.lock, l.excludes l' = false := by
  constructor
  . intro hgranted x hx hp l' hl'
    exact hgranted (x.process, l') ((h.locks x.process l').mpr ⟨x, hx, rfl, hl'⟩) hp
  . rintro hhandles ⟨q, l'⟩ hl hq
    obtain ⟨x, hx, rfl, hxl⟩ := (h.locks q l').mp hl
    exact hhandles x hx hq l' hxl

omit [DecidableEq ι] in
theorem Disciplined.covered_iff {sys : System ι} {c : Call ι} (h : Disciplined sys)
    : Covered sys c ↔ Admissible sys c := by
  cases c with
  | dosClose p fd => rfl
  | dosOpen p path a share noinherit next =>
    unfold Covered Admissible
    dsimp only
    apply and_congr
    . apply imp_congr_right
      rintro ⟨x, hx, hp, hdenies⟩
      unfold Kernel.Lockable
      constructor
      . rintro hlockable rfl
        apply hlockable
        intro l hl
        simp [Share.lock] at hl
      . -- the handle that denies has a write lock
        intro hshare hlockable
        cases hl : share.lock with
        | none => cases share <;> simp [Share.lock] at hl hshare
        | some l =>
          have := (h.granted_iff p l).mp (hlockable l hl).2 x hx hp .write
            (Share.lock_of_denies hdenies)
          simp [Lock.excludes] at this
    . apply imp_congr_right
      intro hfree
      unfold Kernel.Lockable
      simp only [h.granted_iff, Share.compatible_iff]
      constructor
      . intro hlockable
        exact ⟨fun l hl => (hlockable l hl).1,
          fun x hx hp l hl l' hl' => (hlockable l hl).2 x hx hp l' hl'⟩
      . rintro ⟨hcarried, hcompatible⟩ l hl
        exact ⟨hcarried l hl, fun x hx hp l' hl' => hcompatible x hx hp l hl l' hl'⟩

omit [DecidableEq ι] in
theorem disciplined_empty : Disciplined ({} : System ι) where
  locks := by simp
  opened := by simp
  single := by simp

/--
The sharing modes are enforced in a run as long as no call asks for more or less than its lock
gives. Where no process opens the file twice at a time, the handles tell which calls these are.
-/
theorem enforced_iff (cs : List (Call ι))
    : (∀ sys, Always step Fresh sys cs →
        (Always step Enforced sys cs ↔ Always step Covered sys cs))
      ∧ (Always step Alone {} cs → (Always step Enforced {} cs ↔ Always step Admissible {} cs)) := by
  constructor
  . intro sys hfresh
    exact always_enforced_iff hfresh
  . intro halone
    refine Always.congr Disciplined ?_ ?_ disciplined_empty halone
    . intro sys c sys' h hc hstep
      exact h.step hc hstep
    . intro sys c h hc
      exact (enforced_iff_covered hc.fresh).trans h.covered_iff

instance (sys : System ι) (c : Call ι) : Decidable (Admissible sys c) :=
  match c with
  | .dosOpen _ _ _ _ _ _ => inferInstanceAs (Decidable ((_ → _) ∧ (_ → _ ∧ _)))
  | .dosClose _ _ => inferInstanceAs (Decidable True)

/--
The second process does not get the file before the first one has closed it.
-/
def orderlyOpens : List (Call Nat) :=
  [.dosOpen 1 "A.DAT" .rdwr .denyrw false 3,
   .dosOpen 2 "A.DAT" .rdonly .compat true 4,
   .dosClose 1 3,
   .dosOpen 3 "A.DAT" .rdonly .compat false 3,
   .dosOpen 4 "A.DAT" .rdwr .denyno false 3]

theorem alone_orderlyOpens : Always step Alone {} orderlyOpens :=
  ⟨fun _ => rfl, fun _ => rfl, trivial, fun _ => rfl, fun _ => rfl, trivial⟩

/--
The descriptor of an attempt that failed stays open, and the next attempt gets another one.
-/
def repeatedOpens : List (Call Nat) :=
  [.dosOpen 1 "A.DAT" .rdwr .denyrw false 3,
   .dosOpen 2 "A.DAT" .rdwr .denyrw false 3,
   .dosClose 1 3,
   .dosOpen 2 "A.DAT" .rdwr .denyrw false 4,
   .dosOpen 1 "A.DAT" .wronly .denywr false 3]

theorem enforced_iff_orderlyOpens
    : Always step Enforced {} orderlyOpens ∧ Always step Enforced {} repeatedOpens := by
  constructor
  . apply ((enforced_iff orderlyOpens).2 alone_orderlyOpens).mpr
    decide +kernel
  . apply ((enforced_iff repeatedOpens).1 {} (by decide +kernel)).mpr
    decide +kernel

/--
With `_SH_DENYNO` a process gets the file that another one has denied.
-/
def intrudingOpen : List (Call Nat) :=
  [.dosOpen 1 "A.DAT" .rdwr .denyrw false 3, .dosOpen 2 "A.DAT" .rdwr .denyno false 3]

/--
A read-only handle that denies writing cannot be had at all.
-/
def readerOpen : List (Call Nat) :=
  [.dosOpen 1 "A.DAT" .rdonly .denywr false 3]

/--
The lock does not outlast the close of another handle of the process.
-/
def forgottenLock : List (Call Nat) :=
  [.dosOpen 1 "A.DAT" .rdwr .denyrw false 3, .dosOpen 1 "A.DAT" .rdonly .denyno false 4,
   .dosClose 1 4, .dosOpen 2 "A.DAT" .rdwr .denyrw false 3]

theorem not_enforced_intrudingOpen
    : ¬ Always step Enforced {} intrudingOpen ∧ ¬ Always step Enforced {} readerOpen
      ∧ ¬ Always step Enforced {} forgottenLock := by
  refine ⟨?_, ?_, ?_⟩
  all_goals
    rw [always_enforced_iff (by decide +kernel)]
    decide +kernel

end Sharing

end Dosix
