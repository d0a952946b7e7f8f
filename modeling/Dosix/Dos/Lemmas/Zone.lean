import Dosix.Dos.Lemmas.SetClock

/-!
This module contains the clock in a time zone with daylight saving time. The fields of DOS do not
say whether it is in force, and `unixtime_struct` takes them for standard time.
-/

namespace Dosix

open Calendar

variable {σ : Type}

/--
What a zone adds to the time of Greenwich at an instant: its standard time, and the daylight saving
that is in force.
-/
structure Zone where
  standard : Int → Int
  saving : Int → Int
  near : ∀ t, -172800 < standard t + saving t ∧ standard t + saving t < 172800

namespace Zone

def localTime (z : Zone) (t : Int) : Int :=
  t + z.standard t + z.saving t

def Unambiguous (z : Zone) (t : Int) : Prop :=
  ∀ t', z.localTime t' = z.localTime t → t' = t

/--
`localtime` applies the offset in force, and `mktime` takes the fields for standard time where
`tm_isdst` is zero.
-/
structure Kept (px : Posix σ) (z : Zone) : Prop where
  localtime : ∀ t, Representable (z.localTime t) →
    px.localtime t
      = some { Tm.ofTime (z.localTime t) with isdst := if z.saving t = 0 then 0 else 1 }
  mktime : ∀ tm t, tm.isdst = 0 → tm.toTime = z.localTime t → Representable (z.localTime t) →
    z.Unambiguous t → px.mktime tm = tm.toTime - z.standard t

end Zone

def WithinDos (tv : Timeval) : Prop :=
  (1980 ≤ (dateOf tv.sec).year ∧ (dateOf tv.sec).year ≤ 2099) ∧ 0 ≤ tv.usec ∧ tv.usec < 1000000

instance (tv : Timeval) : Decidable (WithinDos tv) :=
  inferInstanceAs (Decidable ((_ ∧ _) ∧ 0 ≤ tv.usec ∧ _))

def roundDown (tv : Timeval) : Timeval where
  sec := tv.sec
  usec := tv.usec / 10000 * 10000

def Near (tv tv' : Timeval) : Prop :=
  (1000000 * (tv'.sec - tv.sec) + (tv'.usec - tv.usec)).natAbs < 10000

/--
The fields of an instant stand for this instant.
-/
def ReadsBack (px : Posix σ) (tv : Timeval) (s : Dos σ) : Prop :=
  ∃ date time, dostimeStruct px tv s = ⟨0, some (date, time), s⟩
    ∧ unixtimeStruct px date time s = ⟨0, some (roundDown tv), s⟩

def DateRestored (px : Posix σ) (now : σ → Timeval) (date : Dosdate) (s : Dos σ) : Prop :=
  ∃ r, dosixDosSetdate px (dosixDosGetdate px date s).1 (dosixDosGetdate px date s).2 = .ok r
    ∧ r.code = 0 ∧ Near (now s.os) (now r.state.os)

def TimeRestored (px : Posix σ) (now : σ → Timeval) (time : Dostime) (s : Dos σ) : Prop :=
  ∃ r, dosixDosSettime px (dosixDosGettime px time s).1 (dosixDosGettime px time s).2 = .ok r
    ∧ r.code = 0 ∧ Near (now s.os) (now r.state.os)

section

variable {px : Posix σ} {z : Zone} {now : σ → Timeval} {settable : Timeval → Prop} {s : Dos σ}
  {tv : Timeval}

theorem WithinDos.representable (h : WithinDos tv) (z : Zone)
    : Representable (z.localTime tv.sec) := by
  obtain ⟨hmin, hmax⟩ := bounds_of_year h.1.1 h.1.2
  have := z.near tv.sec
  apply representable_of_bounds
  all_goals
    unfold Zone.localTime
    omega

theorem Zone.Kept.localtime_of_within (hzone : z.Kept px) (h : WithinDos tv)
    : px.localtime tv.sec = some { Tm.ofTime (z.localTime tv.sec) with
        isdst := if z.saving tv.sec = 0 then 0 else 1 } :=
  hzone.localtime tv.sec (h.representable z)

theorem Zone.Kept.mktime_of_fields (hzone : z.Kept px) (h : WithinDos tv)
    (hunamb : z.Unambiguous tv.sec)
    : px.mktime (unixtimeStructTm (.ofTime (z.localTime tv.sec))
          (.ofTimeval ⟨z.localTime tv.sec, tv.usec⟩))
        = tv.sec + z.saving tv.sec := by
  have htm : (unixtimeStructTm (.ofTime (z.localTime tv.sec))
      (.ofTimeval ⟨z.localTime tv.sec, tv.usec⟩)).toTime = z.localTime tv.sec := by
    rw [unixtimeStructTm_toTime, instant_ofTime (h.representable z) h.2.1 h.2.2]
  rw [hzone.mktime _ tv.sec rfl htm (h.representable z) hunamb, htm]
  unfold Zone.localTime
  omega

theorem instant_fields (h : WithinDos tv) (z : Zone)
    : (instant (.ofTime (z.localTime tv.sec)) (.ofTimeval ⟨z.localTime tv.sec, tv.usec⟩)).usec
        = (roundDown tv).usec := by
  rw [instant_ofTime (h.representable z) h.2.1 h.2.2]
  rfl

theorem readsBack_iff (hzone : z.Kept px) (h : WithinDos tv) (hunamb : z.Unambiguous tv.sec)
    : ReadsBack px tv s ↔ z.saving tv.sec = 0 := by
  have hfields := dostimeStruct_eq (hzone.localtime_of_within h) h.2.1 s
  have hmktime := hzone.mktime_of_fields h hunamb
  have hpos := (bounds_of_year h.1.1 h.1.2).1
  constructor
  . rintro ⟨date, time, hread, hwrite⟩
    rw [hfields] at hread
    simp only [Result.mk.injEq, Option.some.injEq, Prod.mk.injEq, true_and, and_true] at hread
    obtain ⟨rfl, rfl⟩ := hread
    rw [unixtimeStruct_eq, hmktime] at hwrite
    split at hwrite
    . have hout := congrArg Result.out hwrite
      simp [exterrSet] at hout
    . have hout := congrArg (fun r => r.out.map Timeval.sec) hwrite
      have hsec : tv.sec + z.saving tv.sec = tv.sec := Option.some.inj hout
      omega
  . intro hsaving
    refine ⟨_, _, hfields, ?_⟩
    rw [unixtimeStruct_eq, hmktime, hsaving, if_neg (by omega), instant_fields h z, Int.add_zero]
    rfl

theorem near_roundDown (tv : Timeval) : Near tv (roundDown tv) := by
  unfold Near roundDown
  dsimp only
  omega

theorem not_near {tv tv' : Timeval} (h : tv'.sec ≠ tv.sec)
    (husec : tv'.usec ≤ tv.usec ∧ tv.usec < tv'.usec + 10000)
    : ¬ Near tv tv' := by
  unfold Near
  omega

/--
The fields that were read, written back.
-/
theorem setClock_near_iff (hzone : z.Kept px) (hclock : ClockContract px now settable)
    (h : WithinDos tv) (hunamb : z.Unambiguous tv.sec) (s : Dos σ)
    : (∃ r, setClock px (.ofTime (z.localTime tv.sec))
            (.ofTimeval ⟨z.localTime tv.sec, tv.usec⟩) s = .ok r
          ∧ r.code = 0 ∧ Near tv (now r.state.os))
        ↔ z.saving tv.sec = 0 := by
  have hmktime := hzone.mktime_of_fields h hunamb
  have hpos := (bounds_of_year h.1.1 h.1.2).1
  have husec := instant_fields h z
  constructor
  . rintro ⟨r, hr, hcode, hnear⟩
    by_contra hsaving
    by_cases hneg : tv.sec + z.saving tv.sec = -1
    . obtain ⟨r', hr', hcode', -⟩ := setClock_failed px s (hmktime.trans hneg)
      rw [hr] at hr'
      injection hr' with hr'
      exact hcode' (hr' ▸ hcode)
    . by_cases hsettable : settable ⟨tv.sec + z.saving tv.sec, (roundDown tv).usec⟩
      . rw [← husec] at hsettable
        obtain ⟨r', hr', -, hset⟩ := setClock_settable hclock s hmktime hneg hsettable
        rw [hr] at hr'
        injection hr' with hr'
        rw [hr', hset, husec] at hnear
        refine not_near ?_ ?_ hnear
        . change tv.sec + z.saving tv.sec ≠ tv.sec
          omega
        . unfold roundDown
          dsimp only
          omega
      . rw [← husec] at hsettable
        obtain ⟨r', hr', hcode', -⟩ := setClock_not_settable hclock s hmktime hneg hsettable
        rw [hr] at hr'
        injection hr' with hr'
        exact hcode' (hr' ▸ hcode)
  . intro hsaving
    rw [hsaving, Int.add_zero] at hmktime
    have hsettable : settable (roundDown tv) := by
      apply hclock.permitted
      . exact h.1.1
      . exact h.1.2
      all_goals
        have := h.2
        unfold roundDown
        dsimp only
        omega
    obtain ⟨r, hr, hcode, hset⟩ := setClock_settable hclock s hmktime (by omega) (husec ▸ hsettable)
    refine ⟨r, hr, hcode, ?_⟩
    rw [hset, husec]
    exact near_roundDown tv

theorem dateRestored_iff (hzone : z.Kept px) (hclock : ClockContract px now settable)
    (h : WithinDos (now s.os)) (hunamb : z.Unambiguous (now s.os).sec) (date : Dosdate)
    : DateRestored px now date s ↔ z.saving (now s.os).sec = 0 := by
  obtain ⟨os, hgetdate, hnow⟩ := dosixDosGetdate_eq hclock (hzone.localtime_of_within h) date
  have hwithin : WithinDos (now os) := hnow ▸ h
  have hlocaltime := hzone.localtime_of_within hwithin
  obtain ⟨os', hgettime, hnow'⟩ := dosixDosGettime_eq (s := s.setOs os) hclock hlocaltime
    (uninitTime px)
  rw [show (s.setOs os).os = os from rfl, hnow] at hgettime
  unfold DateRestored dosixDosSetdate
  rw [hgetdate]
  dsimp only
  rw [hgettime]
  exact setClock_near_iff hzone hclock h hunamb _

theorem timeRestored_iff (hzone : z.Kept px) (hclock : ClockContract px now settable)
    (h : WithinDos (now s.os)) (hunamb : z.Unambiguous (now s.os).sec) (time : Dostime)
    : TimeRestored px now time s ↔ z.saving (now s.os).sec = 0 := by
  obtain ⟨os, hgettime, hnow⟩ := dosixDosGettime_eq hclock (hzone.localtime_of_within h) time
  have hwithin : WithinDos (now os) := hnow ▸ h
  have hlocaltime := hzone.localtime_of_within hwithin
  obtain ⟨os', hgetdate, hnow'⟩ := dosixDosGetdate_eq (s := s.setOs os) hclock hlocaltime
    (uninitDate px)
  rw [hnow] at hgetdate
  unfold TimeRestored dosixDosSettime
  rw [hgettime]
  dsimp only
  rw [hgetdate]
  exact setClock_near_iff hzone hclock h hunamb _

/--
Writing back what was read is the identity as long as no daylight saving time is in force, and moves
the clock otherwise.
-/
theorem clockRestored_iff (hzone : z.Kept px)
    : (∀ tv, WithinDos tv → z.Unambiguous tv.sec → ∀ s,
        ReadsBack px tv s ↔ z.saving tv.sec = 0)
      ∧ ∀ now settable, ClockContract px now settable → ∀ s, WithinDos (now s.os) →
        z.Unambiguous (now s.os).sec →
          (∀ date, DateRestored px now date s ↔ z.saving (now s.os).sec = 0)
            ∧ ∀ time, TimeRestored px now time s ↔ z.saving (now s.os).sec = 0 := by
  constructor
  . intro tv h hunamb s
    exact readsBack_iff hzone h hunamb
  . intro now settable hclock s h hunamb
    constructor
    . exact dateRestored_iff hzone hclock h hunamb
    . exact timeRestored_iff hzone hclock h hunamb

end

/-! A zone one hour ahead, with one more hour from March 31st to October 27th 2024. -/

def summerZone : Zone where
  standard := fun _ => 3600
  saving := fun t => if 1711846800 ≤ t ∧ t < 1729990800 then 3600 else 0
  near := by
    intro t
    split
    all_goals decide

def summerMachine : Posix { tv : Timeval // KernelTime tv } where
  __ := clockMachine
  localtime := fun t =>
    if Representable (summerZone.localTime t) then
      some { Tm.ofTime (summerZone.localTime t) with
        isdst := if summerZone.saving t = 0 then 0 else 1 }
    else
      none
  mktime := fun tm =>
    if tm.isdst = 0 ∨ tm.isdst < 0 ∧ summerZone.saving (tm.toTime - 7200) = 0 then
      tm.toTime - 3600
    else
      tm.toTime - 7200

theorem summerMachine_zone : summerZone.Kept summerMachine where
  localtime := fun _ h => if_pos h
  mktime := fun _ _ h _ _ _ => if_pos (.inl h)

theorem summerMachine_contract : ClockContract summerMachine Subtype.val KernelTime where
  get := clockMachine_contract.get
  set := clockMachine_contract.set
  refuse := clockMachine_contract.refuse
  permitted := clockMachine_contract.permitted
  sec := clockMachine_contract.sec
  usec := clockMachine_contract.usec

theorem summerZone_unambiguous {t : Int} (h : t < 1729987200 ∨ 1729994400 ≤ t)
    : summerZone.Unambiguous t := by
  intro t' ht
  unfold Zone.localTime summerZone at ht
  dsimp only at ht
  split at ht
  . split at ht
    all_goals omega
  . split at ht
    all_goals omega

theorem clockRestored_winter
    : ReadsBack summerMachine ⟨1000000000, 123456⟩ billennium
      ∧ DateRestored summerMachine Subtype.val ⟨0, 0, 0, 0⟩ billennium
      ∧ TimeRestored summerMachine Subtype.val ⟨0, 0, 0, 0⟩ billennium := by
  obtain ⟨hreads, hrestored⟩ := clockRestored_iff summerMachine_zone
  have hunamb : summerZone.Unambiguous 1000000000 :=
    summerZone_unambiguous (by decide)
  have hsaving : summerZone.saving 1000000000 = 0 := by decide
  obtain ⟨hdate, htime⟩ := hrestored Subtype.val KernelTime summerMachine_contract billennium
    (by decide +kernel) hunamb
  refine ⟨?_, ?_, ?_⟩
  . exact (hreads ⟨1000000000, 123456⟩ (by decide +kernel) hunamb billennium).mpr hsaving
  . exact (hdate _).mpr hsaving
  . exact (htime _).mpr hsaving

def summerDay : Dos { tv : Timeval // KernelTime tv } where
  os := ⟨⟨1719830096, 500000⟩, by decide⟩

theorem not_clockRestored_summer
    : summerZone.Unambiguous 1719830096
      ∧ ¬ ReadsBack summerMachine ⟨1719830096, 500000⟩ summerDay
      ∧ ¬ DateRestored summerMachine Subtype.val ⟨0, 0, 0, 0⟩ summerDay
      ∧ ¬ TimeRestored summerMachine Subtype.val ⟨0, 0, 0, 0⟩ summerDay := by
  have hwithin : WithinDos ⟨1719830096, 500000⟩ := by decide +kernel
  have hunamb : summerZone.Unambiguous 1719830096 :=
    summerZone_unambiguous (by decide)
  refine ⟨hunamb, ?_, ?_, ?_⟩
  . rw [readsBack_iff summerMachine_zone hwithin hunamb]
    decide
  . rw [dateRestored_iff (s := summerDay) summerMachine_zone summerMachine_contract hwithin hunamb]
    decide
  . rw [timeRestored_iff (s := summerDay) summerMachine_zone summerMachine_contract hwithin hunamb]
    decide

end Dosix
