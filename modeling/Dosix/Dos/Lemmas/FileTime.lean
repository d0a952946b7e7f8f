import Dosix.Dos.Lemmas.File
import Dosix.Dos.Lemmas.Pending
import Dosix.Dos.Lemmas.Time

/-!
This module contains the frame of `_dos_setftime`: whether the time of the last access to a file
survives that the time of its last modification is set.
-/

namespace Dosix

variable {σ : Type}

structure FileTimes where
  atime : Int
  atimeNsec : Nat
  mtime : Int
  mtimeNsec : Nat
  deriving Repr, DecidableEq

def Stat.times (fs : Stat) : FileTimes where
  atime := fs.atime
  atimeNsec := fs.atimeNsec
  mtime := fs.mtime
  mtimeNsec := fs.mtimeNsec

/--
What the kernel does to the times of the file behind a handle: `fstat` tells them, and `futimes`
sets them, both or none.
-/
structure TimesContract (px : Posix σ) (times : σ → BitVec 32 → FileTimes) : Prop where
  fstat : ∀ {handle os r os'}, px.fstat handle os = (r, os') → times os' = times os
  fstat_ok : ∀ {handle os fs os'}, px.fstat handle os = (.ok fs, os') → fs.times = times os handle
  futimes_ok : ∀ {handle atime mtime os os'}, px.futimes handle atime mtime os = (.ok (), os') →
    times os' handle
      = ⟨atime.sec, (atime.usec * 1000).toNat, mtime.sec, (mtime.usec * 1000).toNat⟩
  futimes_error : ∀ {handle atime mtime os e os'},
    px.futimes handle atime mtime os = (.error e, os') → times os' = times os

/--
One of the three ways in which the call can fail.
-/
inductive SetftimeFails (px : Posix σ) (handle date time : BitVec 32) (os : σ) : Prop where
  | conversion (h : px.mktime (unixtimeIntTm date time) = -1)
  | fstat (e : Errno) (os' : σ) (h : px.fstat handle os = (.error e, os'))
  | futimes (fs : Stat) (os' : σ) (e : Errno) (os'' : σ) (hstat : px.fstat handle os = (.ok fs, os'))
      (h : px.futimes handle ⟨fs.atime, 0⟩ ⟨px.mktime (unixtimeIntTm date time), 0⟩ os'
        = (.error e, os''))

/--
The call that has returned `code` and left `t` behind has set the time of modification to the one
that the words stand for, and nothing else; or it has failed, and set nothing.
-/
def SetsMtime (px : Posix σ) (times : σ → BitVec 32 → FileTimes) (handle date time : BitVec 32)
    (s : Dos σ) (code : BitVec 32) (t : Dos σ) : Prop :=
  if code = 0 then
    ∃ utime, (unixtimeInt px date time s).out = some utime
      ∧ times t.os handle = { times s.os handle with mtime := utime, mtimeNsec := 0 }
  else
    times t.os handle = times s.os handle

variable {px : Posix σ} {times : σ → BitVec 32 → FileTimes} {handle date time : BitVec 32}
  {s : Dos σ}

theorem failed_times {t : Dos σ} (herrno : t.errno ≠ none) (h : times t.os = times s.os)
    : Transition.Meets (fun r : Result σ Unit => r.code ≠ 0 ∧ times r.state.os = times s.os)
        (fun _ => True) (failed t) := by
  have hne := failed_ne_zero (α := Unit) herrno
  cases hr : failed (α := Unit) t with
  | error f => trivial
  | ok r =>
    refine ⟨hne.of_ok hr, ?_⟩
    rw [(failed_ok hr).1, h]

theorem unixtimeInt_failed (h : px.mktime (unixtimeIntTm date time) = -1) (s : Dos σ)
    : ∃ code t, unixtimeInt px date time s = ⟨code, none, t⟩ ∧ code ≠ 0 ∧ t.os = s.os := by
  unfold unixtimeInt
  rw [if_pos h]
  refine ⟨_, _, rfl, ?_, rfl⟩
  change (exterrSet (α := Int) badArguments none s).code ≠ 0
  rw [exterrSet_code _ _ (by decide)]
  decide

theorem unixtimeInt_done (h : px.mktime (unixtimeIntTm date time) ≠ -1) (s : Dos σ)
    : unixtimeInt px date time s = ⟨0, some (px.mktime (unixtimeIntTm date time)), s⟩ := by
  unfold unixtimeInt
  exact if_neg h

theorem setftime_failed (hpx : TimesContract px times) (s : Dos σ)
    (h : SetftimeFails px handle date time s.os)
    : Transition.Meets (fun r => r.code ≠ 0 ∧ times r.state.os = times s.os) (fun _ => True)
        (dosixDosSetftime px handle date time s) := by
  by_cases hmktime : px.mktime (unixtimeIntTm date time) = -1
  . obtain ⟨code, t, hfail, hcode, hos⟩ := unixtimeInt_failed hmktime s
    unfold dosixDosSetftime
    rw [hfail]
    exact ⟨hcode, congrArg times hos⟩
  . unfold dosixDosSetftime
    rw [unixtimeInt_done hmktime]
    dsimp only
    cases h with
    | conversion h => exact absurd h hmktime
    | fstat e os' hstat =>
      rw [Dos.call_of_error (e := e) (by rw [hstat])]
      apply failed_times
      . simp
      . simp [hstat, hpx.fstat hstat]
    | futimes fs os' e os'' hstat h =>
      rw [Dos.call_eq_ok (a := fs) (by rw [hstat]), hstat]
      dsimp only
      rw [Dos.call_of_error (e := e) (by simp [h])]
      apply failed_times
      . simp
      . simp [h, hpx.futimes_error h, hpx.fstat hstat]

theorem setftime_done (hpx : TimesContract px times) (s : Dos σ)
    (h : ¬ SetftimeFails px handle date time s.os)
    : ∃ t, dosixDosSetftime px handle date time s = .ok ⟨0, none, t⟩
        ∧ times t.os handle
          = ⟨(times s.os handle).atime, 0, px.mktime (unixtimeIntTm date time), 0⟩ := by
  have hmktime : px.mktime (unixtimeIntTm date time) ≠ -1 := fun hfail => h (.conversion hfail)
  unfold dosixDosSetftime
  rw [unixtimeInt_done hmktime]
  dsimp only
  cases hstat : px.fstat handle s.os with
  | mk r os' =>
    cases r with
    | error e => exact absurd (.fstat e os' hstat) h
    | ok fs =>
      rw [Dos.call_eq_ok (a := fs) (by rw [hstat]), hstat]
      dsimp only
      cases hset : px.futimes handle ⟨fs.atime, 0⟩ ⟨px.mktime (unixtimeIntTm date time), 0⟩ os' with
      | mk r' os'' =>
        cases r' with
        | error e => exact absurd (.futimes fs os' e os'' hstat hset) h
        | ok u =>
          rw [Dos.call_eq_ok (a := u) (by simp [hset])]
          refine ⟨_, rfl, ?_⟩
          simp only [Dos.setOs_os, hset]
          rw [hpx.futimes_ok hset, ← hpx.fstat_ok hstat]
          rfl

theorem setsMtime_done_iff {t : Dos σ} (hmktime : px.mktime (unixtimeIntTm date time) ≠ -1)
    (h : times t.os handle
      = ⟨(times s.os handle).atime, 0, px.mktime (unixtimeIntTm date time), 0⟩)
    : SetsMtime px times handle date time s 0 t ↔ (times s.os handle).atimeNsec = 0 := by
  unfold SetsMtime
  rw [if_pos rfl, h, unixtimeInt_done hmktime]
  constructor
  . rintro ⟨utime, -, htimes⟩
    exact (congrArg FileTimes.atimeNsec htimes).symm
  . intro hnsec
    refine ⟨_, rfl, ?_⟩
    rw [← hnsec]

theorem dosixDosSetftime_setsMtime_iff (hpx : TimesContract px times) (handle date time : BitVec 32)
    (s : Dos σ)
    : (∀ r, dosixDosSetftime px handle date time s = .ok r →
        SetsMtime px times handle date time s r.code r.state)
      ↔ SetftimeFails px handle date time s.os ∨ (times s.os handle).atimeNsec = 0 := by
  by_cases hfails : SetftimeFails px handle date time s.os
  . refine iff_of_true ?_ (.inl hfails)
    intro r hr
    obtain ⟨hcode, htimes⟩ := (setftime_failed hpx s hfails).of_ok hr
    unfold SetsMtime
    rw [if_neg hcode, htimes]
  . obtain ⟨t, hr, htimes⟩ := setftime_done hpx s hfails
    have hmktime : px.mktime (unixtimeIntTm date time) ≠ -1 := fun hfail =>
      hfails (.conversion hfail)
    rw [← setsMtime_done_iff hmktime htimes, or_iff_right hfails, hr]
    constructor
    . intro h
      exact h _ rfl
    . rintro h r hr
      injection hr with hr
      exact hr ▸ h

theorem int21_setftime {cpu : Cpu} (h : FileService.Selected .setftime cpu) (s : Dos σ)
    : int21MainDosApi px cpu s
        = (dosixDosSetftime px (cpu.bx.setWidth 32) (cpu.dx.setWidth 32) (cpu.cx.setWidth 32) s
          >>= fun r => pure (cpu.setCode r.code, r.state)) := by
  rw [FileService.int21_of_selected h]
  unfold FileService.handler cpuSetftime
  dsimp only
  rw [assertThat_of h.1, assertThat_of h.2]
  rfl

/--
The access time stays what it is if the call fails, or if there is nothing behind its seconds: the
code passes the seconds of the access time on to `futimes`, with no microseconds.
-/
theorem setftime_setsMtime_iff (hpx : TimesContract px times) (s : Dos σ)
    : (∀ handle date time,
        (∀ r, dosixDosSetftime px handle date time s = .ok r →
          SetsMtime px times handle date time s r.code r.state)
        ↔ SetftimeFails px handle date time s.os ∨ (times s.os handle).atimeNsec = 0)
      ∧ ∀ cpu, FileService.Selected .setftime cpu →
        ((∀ cpu' t, int21MainDosApi px cpu s = .ok (cpu', t) →
          SetsMtime px times (cpu.bx.setWidth 32) (cpu.dx.setWidth 32) (cpu.cx.setWidth 32) s
            (cpu'.ax.setWidth 32) t)
        ↔ SetftimeFails px (cpu.bx.setWidth 32) (cpu.dx.setWidth 32) (cpu.cx.setWidth 32) s.os
          ∨ (times s.os (cpu.bx.setWidth 32)).atimeNsec = 0) := by
  refine ⟨fun handle date time => dosixDosSetftime_setsMtime_iff hpx handle date time s, ?_⟩
  intro cpu h
  rw [← dosixDosSetftime_setsMtime_iff hpx, int21_setftime h]
  constructor
  . intro hset r hr
    rw [hr] at hset
    have := hset _ _ rfl
    rwa [cpu.setCode_ax_setWidth] at this
  . intro hset cpu' t hcall
    cases hr : dosixDosSetftime px (cpu.bx.setWidth 32) (cpu.dx.setWidth 32) (cpu.cx.setWidth 32) s with
    | error f => simp [hr] at hcall
    | ok r =>
      rw [hr] at hcall
      obtain ⟨rfl, rfl⟩ := Prod.mk.inj (Except.ok.inj hcall)
      rw [cpu.setCode_ax_setWidth]
      exact hset r hr

/--
A kernel with one file behind all handles.
-/
def touched : Posix FileTimes where
  __ := (default : Posix FileTimes)
  fstat := fun _ os =>
    (.ok { atime := os.atime, atimeNsec := os.atimeNsec, mtime := os.mtime,
           mtimeNsec := os.mtimeNsec }, os)
  futimes := fun _ atime mtime _ =>
    (.ok (), ⟨atime.sec, (atime.usec * 1000).toNat, mtime.sec, (mtime.usec * 1000).toNat⟩)
  mktime := Tm.toTime

theorem touched_contract : TimesContract touched fun os _ => os where
  fstat := by
    rintro handle os r os' h
    rw [(Prod.mk.inj h).2]
  fstat_ok := by
    rintro handle os fs os' h
    obtain ⟨h, -⟩ := Prod.mk.inj h
    rw [← Except.ok.inj h]
    rfl
  futimes_ok := by
    rintro handle atime mtime os os' h
    exact (Prod.mk.inj h).2.symm
  futimes_error := by
    rintro handle atime mtime os e os' h
    exact absurd (Prod.mk.inj h).1 (by simp)

theorem setftime_setsMtime_iff_wholeSeconds
    : ∃ r, dosixDosSetftime touched 5 0x278f 0x48e0 { os := ⟨951823353, 0, 951823353, 5⟩ } = .ok r
        ∧ r.code = 0
        ∧ SetsMtime touched (fun os _ => os) 5 0x278f 0x48e0
          { os := ⟨951823353, 0, 951823353, 5⟩ } r.code r.state := by
  obtain ⟨r, hr, hcode⟩ := Transition.exists_of_any
    (r := dosixDosSetftime touched 5 0x278f 0x48e0 { os := ⟨951823353, 0, 951823353, 5⟩ })
    (q := fun r => r.code = 0) (by decide +kernel)
  refine ⟨r, hr, of_decide_eq_true hcode, ?_⟩
  exact ((setftime_setsMtime_iff touched_contract _).1 5 0x278f 0x48e0).mpr (.inr rfl) r hr

/--
The half second that was behind the seconds of the access time is gone.
-/
theorem not_setsMtime_halfSecond
    : ∃ r, dosixDosSetftime touched 5 0x278f 0x48e0
          { os := ⟨951823353, 500000000, 951823353, 5⟩ } = .ok r
        ∧ r.code = 0
        ∧ r.state.os = ⟨951823353, 0, 945248820, 0⟩
        ∧ ¬ SetsMtime touched (fun os _ => os) 5 0x278f 0x48e0
          { os := ⟨951823353, 500000000, 951823353, 5⟩ } r.code r.state := by
  obtain ⟨r, hr, hend⟩ := Transition.exists_of_any
    (r := dosixDosSetftime touched 5 0x278f 0x48e0
      { os := ⟨951823353, 500000000, 951823353, 5⟩ })
    (q := fun r => r.code = 0 ∧ r.state.os = ⟨951823353, 0, 945248820, 0⟩) (by decide +kernel)
  obtain ⟨hcode, hos⟩ := of_decide_eq_true hend
  refine ⟨r, hr, hcode, hos, ?_⟩
  unfold SetsMtime
  rw [if_pos hcode, hos]
  rintro ⟨utime, -, htimes⟩
  have hnsec : (0 : Nat) = 500000000 := congrArg FileTimes.atimeNsec htimes
  simp at hnsec

end Dosix
