import Dosix.Dos.Lemmas.ExtErrAgree
import Dosix.Dos.Lemmas.Time
import Mathlib.Algebra.Order.Ring.Int

/-!
This module contains which dates and times of day the clock accepts. The functions leave the check
to `mktime`, which takes the fields of a date that does not exist for those of another one.
-/

namespace Dosix

open Calendar Transition

variable {σ : Type}

namespace Dosdate

def Valid (d : Dosdate) : Prop :=
  (1980 ≤ d.year.toNat ∧ d.year.toNat ≤ 2099)
    ∧ (1 ≤ d.month.toNat ∧ d.month.toNat ≤ 12)
    ∧ (1 ≤ d.day.toNat ∧ d.day.toNat ≤ daysInMonth d.year.toNat (d.month.toNat - 1))

instance (d : Dosdate) : Decidable d.Valid :=
  inferInstanceAs (Decidable (_ ∧ _))

def Denotes (d : Dosdate) (date : Date) : Prop :=
  date.year = d.year.toNat ∧ date.month + 1 = d.month.toNat ∧ date.day = d.day.toNat

instance (d : Dosdate) (date : Date) : Decidable (d.Denotes date) :=
  inferInstanceAs (Decidable (_ ∧ _))

def ofTime (t : Int) : Dosdate where
  day := .ofNat 8 (dateOf t).day
  month := .ofNat 8 ((dateOf t).month + 1)
  year := .ofInt 32 (dateOf t).year
  dayofweek := .ofInt 8 ((t / 86400 + 4) % 7)

end Dosdate

namespace Dostime

def Valid (t : Dostime) : Prop :=
  t.hour.toNat ≤ 23 ∧ t.minute.toNat ≤ 59 ∧ t.second.toNat ≤ 59 ∧ t.hsecond.toNat ≤ 99

instance (t : Dostime) : Decidable t.Valid :=
  inferInstanceAs (Decidable (_ ∧ _))

def Denotes (t : Dostime) (c : Clock) (usec : Int) : Prop :=
  c.hour = t.hour.toNat ∧ c.minute = t.minute.toNat ∧ c.second = t.second.toNat
    ∧ usec / 10000 = t.hsecond.toNat

instance (t : Dostime) (c : Clock) (usec : Int) : Decidable (t.Denotes c usec) :=
  inferInstanceAs (Decidable (_ ∧ _))

def ofTimeval (tv : Timeval) : Dostime where
  hour := .ofNat 8 (clockOf tv.sec).hour
  minute := .ofNat 8 (clockOf tv.sec).minute
  second := .ofNat 8 (clockOf tv.sec).second
  hsecond := .ofInt 8 (tv.usec / 10000)

end Dostime

/--
The instant that the fields come to, whether or not they are those of a date and of a time of day.
-/
def instant (d : Dosdate) (t : Dostime) : Timeval where
  sec := normalized (1900 + (d.year - 1900).toInt) (d.month.toNat - 1) d.day.toNat t.hour.toNat
    t.minute.toNat t.second.toNat
  usec := t.hsecond.toNat * 10000

def Representable (t : Int) : Prop :=
  -2 ^ 31 ≤ (dateOf t).year - 1900 ∧ (dateOf t).year - 1900 < 2 ^ 31

instance (t : Int) : Decidable (Representable t) :=
  inferInstanceAs (Decidable (_ ∧ _))

structure UtcZone (px : Posix σ) : Prop where
  localtime : ∀ t, Representable t → px.localtime t = some (.ofTime t)
  mktime : ∀ tm, px.mktime tm = if Representable tm.toTime then tm.toTime else -1

/--
What the kernel promises about its clock, which stands at `now` as long as it is not set. It takes
the instants that are `settable`, those of the years that DOS knows among them.
-/
structure ClockContract (px : Posix σ) (now : σ → Timeval) (settable : Timeval → Prop) : Prop where
  get : ∀ os, (px.gettimeofday os).1 = .ok (now os) ∧ now (px.gettimeofday os).2 = now os
  set : ∀ tv os, settable tv →
    (px.settimeofday tv os).1 = .ok () ∧ now (px.settimeofday tv os).2 = tv
  refuse : ∀ tv os, ¬ settable tv →
    (px.settimeofday tv os).1 = .error .EINVAL ∧ now (px.settimeofday tv os).2 = now os
  permitted : ∀ tv, 1980 ≤ (dateOf tv.sec).year → (dateOf tv.sec).year ≤ 2099 →
    0 ≤ tv.usec → tv.usec < 1000000 → settable tv
  sec : ∀ os, Representable (now os).sec
  usec : ∀ os, 0 ≤ (now os).usec ∧ (now os).usec < 1000000

/--
The instant is one that `mktime` or the kernel does not accept.
-/
def Refused (settable : Timeval → Prop) (tv : Timeval) : Prop :=
  ¬ Representable tv.sec ∨ tv.sec = -1 ∨ ¬ settable tv

instance (settable : Timeval → Prop) [DecidablePred settable] (tv : Timeval)
    : Decidable (Refused settable tv) :=
  inferInstanceAs (Decidable (_ ∨ _))

/-! The instants of the years that DOS knows. -/

theorem representable_of_bounds {t : Int} (hmin : -2 ^ 35 ≤ t) (hmax : t < 2 ^ 35)
    : Representable t := by
  obtain ⟨hyear, hyear'⟩ := yearOf_spec (t / 86400)
  unfold daysBeforeYear at hyear hyear'
  have hdate : (dateOf t).year = yearOf (t / 86400) := rfl
  unfold Representable
  omega

theorem bounds_of_year {t : Int} (hmin : 1980 ≤ (dateOf t).year) (hmax : (dateOf t).year ≤ 2099)
    : 3652 * 86400 ≤ t ∧ t < 47482 * 86400 := by
  have ht := timestamp_dateOf_clockOf t
  have hclock := (clockOf t).secondNumber_lt
  obtain ⟨hyear, hyear'⟩ := (dateOf t).dayNumber_inYear
  have hfirst := daysBeforeYear_mono hmin
  have hlast := daysBeforeYear_mono (show (dateOf t).year + 1 ≤ 2100 by omega)
  rw [show daysBeforeYear 1980 = 3652 from rfl] at hfirst
  rw [show daysBeforeYear 2100 = 47482 from rfl] at hlast
  unfold timestamp at ht
  omega

/-! The fields that the clock is read into. -/

theorem toNat_ofNat_eight {n : Nat} (h : n < 256) : (BitVec.ofNat 8 n).toNat = n := by
  rw [BitVec.toNat_ofNat]
  exact Nat.mod_eq_of_lt h

theorem toInt_ofInt_sub {year : Int} (hmin : -2 ^ 31 ≤ year - 1900) (hmax : year - 1900 < 2 ^ 31)
    : (BitVec.ofInt 32 year - 1900).toInt = year - 1900 := by
  rw [BitVec.toInt_sub, BitVec.toInt_ofInt, show (1900 : BitVec 32).toInt = 1900 from rfl,
    Int.bmod_sub_bmod]
  apply Int.bmod_eq_of_le
  . omega
  . omega

/--
The fields are those of the date, with the year as `mktime` gets it.
-/
structure Dosdate.Holds (d : Dosdate) (date : Date) : Prop where
  year : 1900 + (d.year - 1900).toInt = date.year
  month : date.month + 1 = d.month.toNat
  day : date.day = d.day.toNat

structure Dostime.Holds (t : Dostime) (c : Clock) : Prop where
  hour : c.hour = t.hour.toNat
  minute : c.minute = t.minute.toNat
  second : c.second = t.second.toNat

theorem Dosdate.ofTime_holds {t : Int} (h : Representable t) : (ofTime t).Holds (dateOf t) where
  year := by
    have := toInt_ofInt_sub h.1 h.2
    change 1900 + (BitVec.ofInt 32 (dateOf t).year - 1900).toInt = _
    omega
  month := by
    have := (dateOf t).month_lt
    exact (toNat_ofNat_eight (by omega)).symm
  day := by
    have := (dateOf t).day_le_31
    exact (toNat_ofNat_eight (by omega)).symm

theorem Dostime.ofTimeval_holds (tv : Timeval) : (ofTimeval tv).Holds (clockOf tv.sec) where
  hour := by
    have := (clockOf tv.sec).hour_lt
    exact (toNat_ofNat_eight (by omega)).symm
  minute := by
    have := (clockOf tv.sec).minute_lt
    exact (toNat_ofNat_eight (by omega)).symm
  second := by
    have := (clockOf tv.sec).second_lt
    exact (toNat_ofNat_eight (by omega)).symm

theorem Dostime.ofTimeval_hsecond {tv : Timeval} (h : 0 ≤ tv.usec) (h' : tv.usec < 1000000)
    : ((ofTimeval tv).hsecond.toNat : Int) = tv.usec / 10000 := by
  obtain ⟨n, hn⟩ := Int.eq_ofNat_of_zero_le (show 0 ≤ tv.usec / 10000 by omega)
  unfold ofTimeval
  dsimp only
  rw [hn, BitVec.ofInt_natCast, toNat_ofNat_eight (by omega)]

theorem Timeval.ext_fields {tv tv' : Timeval} (hsec : tv.sec = tv'.sec) (husec : tv.usec = tv'.usec)
    : tv = tv' := by
  cases tv
  cases tv'
  simp_all

theorem instant_sec {d : Dosdate} {t : Dostime} {date : Date} {c : Clock} (hd : d.Holds date)
    (ht : t.Holds c)
    : (instant d t).sec = timestamp date c := by
  have hmonth : (d.month.toNat : Int) - 1 = date.month := by
    have := hd.month
    omega
  unfold instant
  dsimp only
  rw [hd.year, hmonth, ← hd.day, ← ht.hour, ← ht.minute, ← ht.second, normalized_eq_timestamp]

theorem instant_ofTime {t usec : Int} (h : Representable t) (hmin : 0 ≤ usec) (hmax : usec < 1000000)
    : instant (.ofTime t) (.ofTimeval ⟨t, usec⟩) = ⟨t, usec / 10000 * 10000⟩ := by
  apply Timeval.ext_fields
  . rw [instant_sec (Dosdate.ofTime_holds h) (Dostime.ofTimeval_holds ⟨t, usec⟩),
      timestamp_dateOf_clockOf]
  . unfold instant
    dsimp only
    rw [Dostime.ofTimeval_hsecond hmin hmax]

theorem dostimeStruct_eq {px : Posix σ} {tv : Timeval} {t dst : Int}
    (hlocal : px.localtime tv.sec = some { Tm.ofTime t with isdst := dst }) (husec : 0 ≤ tv.usec)
    (s : Dos σ)
    : dostimeStruct px tv s = ⟨0, some (.ofTime t, .ofTimeval ⟨t, tv.usec⟩), s⟩ := by
  have hyear : (1900 : Int) + ((dateOf t).year - 1900) = (dateOf t).year := by omega
  unfold dostimeStruct
  rw [hlocal]
  dsimp only [Tm.ofTime]
  rw [hyear, Int.tdiv_eq_ediv_of_nonneg husec]
  rfl

def unixtimeStructTm (d : Dosdate) (t : Dostime) : Tm where
  sec := t.second.toNat
  min := t.minute.toNat
  hour := t.hour.toNat
  mday := d.day.toNat
  mon := (d.month.toNat : Int) - 1
  year := (d.year - 1900).toInt
  wday := d.dayofweek.toNat

theorem unixtimeStructTm_toTime (d : Dosdate) (t : Dostime)
    : (unixtimeStructTm d t).toTime = (instant d t).sec := rfl

theorem unixtimeStruct_eq (px : Posix σ) (d : Dosdate) (t : Dostime) (s : Dos σ)
    : unixtimeStruct px d t s
        = if px.mktime (unixtimeStructTm d t) = -1 then
            exterrSet badArguments (some .EINVAL) s
          else
            ⟨0, some ⟨px.mktime (unixtimeStructTm d t), (instant d t).usec⟩, s⟩ := rfl

/-! The clock. -/

section

variable {px : Posix σ} {now : σ → Timeval} {settable : Timeval → Prop} {d : Dosdate} {t : Dostime}
  {s : Dos σ}

theorem call_gettimeofday (hclock : ClockContract px now settable) (s : Dos σ)
    : ∃ os, s.call px.gettimeofday = (some (now s.os), s.setOs os) ∧ now os = now s.os := by
  obtain ⟨hget, hnow⟩ := hclock.get s.os
  dsimp only [Dos.call]
  cases hcall : px.gettimeofday s.os with
  | mk r os =>
    rw [hcall] at hget hnow
    subst hget
    exact ⟨os, rfl, hnow⟩

theorem setClock_failed (px : Posix σ) (s : Dos σ) (h : px.mktime (unixtimeStructTm d t) = -1)
    : ∃ r, setClock px d t s = .ok r ∧ r.code ≠ 0 ∧ r.state.os = s.os := by
  unfold setClock
  rw [unixtimeStruct_eq, if_pos h]
  refine ⟨_, rfl, ?_, rfl⟩
  change (exterrSet (α := Timeval) badArguments (some .EINVAL) s).code ≠ 0
  rw [exterrSet_code _ _ (by decide)]
  decide

theorem setClock_not_settable (hclock : ClockContract px now settable) {sec : Int} (s : Dos σ)
    (hmktime : px.mktime (unixtimeStructTm d t) = sec) (hneg : sec ≠ -1)
    (h : ¬ settable ⟨sec, (instant d t).usec⟩)
    : ∃ r, setClock px d t s = .ok r ∧ r.code ≠ 0 ∧ now r.state.os = now s.os := by
  obtain ⟨hset, hnow⟩ := hclock.refuse ⟨sec, (instant d t).usec⟩ s.os h
  unfold setClock
  rw [unixtimeStruct_eq, hmktime, if_neg hneg]
  dsimp only
  rw [Dos.call_of_error hset]
  exact ⟨_, failed_eq rfl rfl, show EXTERR_BAD_ARGUMENTS ≠ 0 by decide, hnow⟩

theorem setClock_settable (hclock : ClockContract px now settable) {sec : Int} (s : Dos σ)
    (hmktime : px.mktime (unixtimeStructTm d t) = sec) (hneg : sec ≠ -1)
    (h : settable ⟨sec, (instant d t).usec⟩)
    : ∃ r, setClock px d t s = .ok r ∧ r.code = 0
        ∧ now r.state.os = ⟨sec, (instant d t).usec⟩ := by
  obtain ⟨hset, hnow⟩ := hclock.set ⟨sec, (instant d t).usec⟩ s.os h
  unfold setClock
  rw [unixtimeStruct_eq, hmktime, if_neg hneg]
  dsimp only [Dos.call]
  cases hcall : px.settimeofday ⟨sec, (instant d t).usec⟩ s.os with
  | mk r os =>
    rw [hcall] at hset hnow
    subst hset
    exact ⟨_, rfl, rfl, hnow⟩

theorem mktime_of_representable (hzone : UtcZone px) (h : Representable (instant d t).sec)
    : px.mktime (unixtimeStructTm d t) = (instant d t).sec := by
  rw [hzone.mktime, unixtimeStructTm_toTime, if_pos h]

theorem setClock_refused (hzone : UtcZone px) (hclock : ClockContract px now settable) (s : Dos σ)
    (h : Refused settable (instant d t))
    : ∃ r, setClock px d t s = .ok r ∧ r.code ≠ 0 ∧ now r.state.os = now s.os := by
  by_cases hmktime : px.mktime (unixtimeStructTm d t) = -1
  . obtain ⟨r, hr, hcode, hos⟩ := setClock_failed px s hmktime
    exact ⟨r, hr, hcode, congrArg now hos⟩
  . have hrep : Representable (instant d t).sec := by
      by_contra hrep
      apply hmktime
      rw [hzone.mktime, unixtimeStructTm_toTime, if_neg hrep]
    rw [mktime_of_representable hzone hrep] at hmktime
    apply setClock_not_settable hclock s (mktime_of_representable hzone hrep) hmktime
    obtain h | h | h := h
    . exact absurd hrep h
    . exact absurd h hmktime
    . exact h

theorem setClock_accepted (hzone : UtcZone px) (hclock : ClockContract px now settable) (s : Dos σ)
    (h : ¬ Refused settable (instant d t))
    : ∃ r, setClock px d t s = .ok r ∧ r.code = 0 ∧ now r.state.os = instant d t := by
  unfold Refused at h
  obtain ⟨hrep, hneg, hsettable⟩ : Representable (instant d t).sec ∧ (instant d t).sec ≠ -1
      ∧ settable (instant d t) := by
    simpa only [not_or, not_not] using h
  exact setClock_settable hclock s (mktime_of_representable hzone hrep) hneg hsettable

theorem dosixDosGettime_eq (hclock : ClockContract px now settable) {l dst : Int}
    (hlocal : px.localtime (now s.os).sec = some { Tm.ofTime l with isdst := dst }) (time : Dostime)
    : ∃ os, dosixDosGettime px time s = (.ofTimeval ⟨l, (now s.os).usec⟩, s.setOs os)
        ∧ now os = now s.os := by
  obtain ⟨os, hcall, hnow⟩ := call_gettimeofday hclock s
  refine ⟨os, ?_, hnow⟩
  unfold dosixDosGettime
  rw [hcall]
  dsimp only
  rw [dostimeStruct_eq hlocal (hclock.usec s.os).1]

theorem dosixDosGetdate_eq (hclock : ClockContract px now settable) {l dst : Int}
    (hlocal : px.localtime (now s.os).sec = some { Tm.ofTime l with isdst := dst }) (date : Dosdate)
    : ∃ os, dosixDosGetdate px date s = (.ofTime l, s.setOs os) ∧ now os = now s.os := by
  obtain ⟨os, hcall, hnow⟩ := call_gettimeofday hclock s
  refine ⟨os, ?_, hnow⟩
  unfold dosixDosGetdate
  rw [hcall]
  dsimp only
  rw [dostimeStruct_eq hlocal (hclock.usec s.os).1]

/-! The dates and times of day that exist. -/

theorem Dosdate.Valid.exists_date (h : d.Valid)
    : ∃ date : Date, d.Holds date ∧ d.Denotes date
        ∧ 1980 ≤ date.year ∧ date.year ≤ 2099 := by
  obtain ⟨⟨hmin, hmax⟩, ⟨hjan, hdec⟩, hday, hlast⟩ := h
  refine ⟨⟨d.year.toNat, d.month.toNat - 1, d.day.toNat, by omega, hday, hlast⟩, ?_, ?_, ?_, ?_⟩
  . refine ⟨?_, ?_, rfl⟩
    . change 1900 + (d.year - 1900).toInt = d.year.toNat
      rw [BitVec.toInt_eq_toNat_of_lt]
      all_goals
        rw [BitVec.toNat_sub, show (1900 : BitVec 32).toNat = 1900 from rfl]
        omega
    . dsimp only
      omega
  . refine ⟨rfl, ?_, rfl⟩
    dsimp only
    omega
  . dsimp only
    omega
  . dsimp only
    omega

theorem Dostime.Valid.exists_clock (h : t.Valid)
    : ∃ c : Clock, t.Holds c ∧ ∀ usec : Int, usec / 10000 = t.hsecond.toNat → t.Denotes c usec := by
  obtain ⟨hhour, hminute, hsecond, -⟩ := h
  refine ⟨⟨t.hour.toNat, t.minute.toNat, t.second.toNat, by omega, by omega, by omega⟩, ?_, ?_⟩
  . exact ⟨rfl, rfl, rfl⟩
  . intro usec husec
    exact ⟨rfl, rfl, rfl, husec⟩

theorem not_refused (hclock : ClockContract px now settable) {date : Date} {c : Clock} {tv : Timeval}
    (hsec : tv.sec = timestamp date c) (hmin : 1980 ≤ date.year) (hmax : date.year ≤ 2099)
    (husec : 0 ≤ tv.usec ∧ tv.usec < 1000000)
    : ¬ Refused settable tv := by
  have hdate : dateOf tv.sec = date := by rw [hsec, dateOf_timestamp]
  rintro (hrep | hneg | hsettable)
  . apply hrep
    unfold Representable
    rw [hdate]
    omega
  . have := DosTime.pos c hmin
    omega
  . apply hsettable
    apply hclock.permitted
    . rwa [hdate]
    . rwa [hdate]
    . exact husec.1
    . exact husec.2

/-! The calls. -/

def SetsDate (d : Dosdate) (before after : Timeval) : Prop :=
  d.Denotes (dateOf after.sec) ∧ clockOf after.sec = clockOf before.sec
    ∧ after.usec / 10000 = before.usec / 10000

def SetsTime (t : Dostime) (before after : Timeval) : Prop :=
  t.Denotes (clockOf after.sec) after.usec ∧ dateOf after.sec = dateOf before.sec

/--
A call that takes the valid values, and no others, `succeeds` or `fails` as it should, and sets the
clock or leaves it alone.
-/
def Checked (valid succeeds fails : Prop) (sets : Timeval → Timeval → Prop)
    (before after : Timeval) : Prop :=
  (valid → succeeds ∧ sets before after) ∧ (¬ valid → fails ∧ after = before)

def SetdateChecked (px : Posix σ) (now : σ → Timeval) (d : Dosdate) (s : Dos σ) : Prop :=
  ∃ r, dosixDosSetdate px d s = .ok r
    ∧ Checked d.Valid (r.code = 0) (r.code ≠ 0) (SetsDate d) (now s.os) (now r.state.os)

def SettimeChecked (px : Posix σ) (now : σ → Timeval) (t : Dostime) (s : Dos σ) : Prop :=
  ∃ r, dosixDosSettime px t s = .ok r
    ∧ Checked t.Valid (r.code = 0) (r.code ≠ 0) (SetsTime t) (now s.os) (now r.state.os)

def cpuDate (cpu : Cpu) : Dosdate where
  year := cpu.cx.setWidth 32
  month := cpu.dh.setWidth 8
  day := cpu.dl

def cpuTime (cpu : Cpu) : Dostime where
  hour := cpu.ch.setWidth 8
  minute := cpu.cl
  second := cpu.dh.setWidth 8
  hsecond := cpu.dl

def Int21SetdateChecked (px : Posix σ) (now : σ → Timeval) (cpu : Cpu) (s : Dos σ) : Prop :=
  ∃ p, int21MainDosApi px cpu s = .ok p
    ∧ Checked (cpuDate cpu).Valid (p.1.al = 0) (p.1.al = 0xff) (SetsDate (cpuDate cpu)) (now s.os)
      (now p.2.os)

def Int21SettimeChecked (px : Posix σ) (now : σ → Timeval) (cpu : Cpu) (s : Dos σ) : Prop :=
  ∃ p, int21MainDosApi px cpu s = .ok p
    ∧ Checked (cpuTime cpu).Valid (p.1.al = 0) (p.1.al = 0xff) (SetsTime (cpuTime cpu)) (now s.os)
      (now p.2.os)

theorem Checked.congr {valid succeeds fails succeeds' fails' : Prop}
    {sets : Timeval → Timeval → Prop} {before after : Timeval} (hsucceeds : succeeds ↔ succeeds')
    (hfails : fails ↔ fails')
    : Checked valid succeeds fails sets before after
        ↔ Checked valid succeeds' fails' sets before after := by
  unfold Checked
  rw [hsucceeds, hfails]

theorem al_of_code (cpu : Cpu) (code : BitVec 32)
    : (({ cpu with ax := setLow cpu.ax (if code ≠ 0 then 0xff else 0x00) } : Cpu).al = 0 ↔ code = 0)
      ∧ (({ cpu with ax := setLow cpu.ax (if code ≠ 0 then 0xff else 0x00) } : Cpu).al = 0xff
        ↔ code ≠ 0) := by
  unfold Cpu.al
  rw [lowByte_setLow]
  split
  . next h => exact ⟨iff_of_false (by decide) h, iff_of_true rfl h⟩
  . next h => exact ⟨iff_of_true rfl (not_not.mp h), iff_of_false (by decide) h⟩

theorem checked_bind (cpu : Cpu) (x : Except Fault (Result σ Unit)) (valid : Prop)
    (sets : Timeval → Timeval → Prop) (before : Timeval)
    : (∃ p, (x >>= fun r => pure ({ cpu with
            ax := setLow cpu.ax (if r.code ≠ 0 then 0xff else 0x00) }, r.state)) = .ok p
          ∧ Checked valid (p.1.al = 0) (p.1.al = 0xff) sets before (now p.2.os))
        ↔ ∃ r, x = .ok r ∧ Checked valid (r.code = 0) (r.code ≠ 0) sets before
            (now r.state.os) := by
  cases x with
  | error e => simp [bind, Except.bind]
  | ok r =>
    obtain ⟨hzero, hff⟩ := al_of_code cpu r.code
    constructor
    . rintro ⟨p, hp, hchecked⟩
      injection hp with hp
      subst hp
      exact ⟨r, rfl, (Checked.congr hzero hff).mp hchecked⟩
    . rintro ⟨r', hr, hchecked⟩
      injection hr with hr
      subst hr
      exact ⟨_, rfl, (Checked.congr hzero hff).mpr hchecked⟩

theorem int21SetdateChecked_iff {cpu : Cpu} (h : cpu.ah = INT21_AH_SETDATE)
    : Int21SetdateChecked px now cpu s ↔ SetdateChecked px now (cpuDate cpu) s := by
  unfold Int21SetdateChecked
  rw [DosService.int21_of_selected (d := .setdate) h]
  dsimp only [DosService.handler]
  unfold cpuSetdate
  rw [assertThat_of h]
  exact checked_bind cpu (dosixDosSetdate px (cpuDate cpu) s) _ _ _

theorem int21SettimeChecked_iff {cpu : Cpu} (h : cpu.ah = INT21_AH_SETTIME)
    : Int21SettimeChecked px now cpu s ↔ SettimeChecked px now (cpuTime cpu) s := by
  unfold Int21SettimeChecked
  rw [DosService.int21_of_selected (d := .settime) h]
  dsimp only [DosService.handler]
  unfold cpuSettime
  rw [assertThat_of h]
  exact checked_bind cpu (dosixDosSettime px (cpuTime cpu) s) _ _ _

theorem setClock_checked_iff (hzone : UtcZone px) (hclock : ClockContract px now settable)
    {valid : Prop} {sets : Timeval → Timeval → Prop} (hsets : valid → sets (now s.os) (instant d t))
    : (∃ r, setClock px d t s = .ok r
          ∧ Checked valid (r.code = 0) (r.code ≠ 0) sets (now s.os) (now r.state.os))
        ↔ (valid ↔ ¬ Refused settable (instant d t)) := by
  by_cases hrefused : Refused settable (instant d t)
  . obtain ⟨r, hr, hcode, hsame⟩ := setClock_refused hzone hclock s hrefused
    rw [iff_false_right (not_not.mpr hrefused), hr]
    constructor
    . rintro ⟨r', hr', hvalid, -⟩ h
      injection hr' with hr'
      subst hr'
      exact hcode (hvalid h).1
    . intro hinvalid
      exact ⟨r, rfl, fun h => absurd h hinvalid, fun _ => ⟨hcode, hsame⟩⟩
  . obtain ⟨r, hr, hcode, hset⟩ := setClock_accepted hzone hclock s hrefused
    rw [iff_true_right hrefused, hr]
    constructor
    . rintro ⟨r', hr', -, hinvalid⟩
      injection hr' with hr'
      subst hr'
      by_contra h
      exact (hinvalid h).1 hcode
    . intro hvalid
      exact ⟨r, rfl, fun _ => ⟨hcode, hset ▸ hsets hvalid⟩, fun h => absurd hvalid h⟩

theorem instant_usec (hclock : ClockContract px now settable) (os : σ)
    : (instant d (.ofTimeval (now os))).usec = (now os).usec / 10000 * 10000 := by
  have := Dostime.ofTimeval_hsecond (hclock.usec os).1 (hclock.usec os).2
  unfold instant
  dsimp only
  rw [this]

theorem Dosdate.Valid.not_refused (hclock : ClockContract px now settable) (h : d.Valid) (os : σ)
    : ¬ Refused settable (instant d (.ofTimeval (now os))) := by
  obtain ⟨date, hholds, -, hmin, hmax⟩ := h.exists_date
  have hsec := instant_sec hholds (Dostime.ofTimeval_holds (now os))
  apply Dosix.not_refused hclock hsec hmin hmax
  have := hclock.usec os
  rw [instant_usec hclock os]
  omega

theorem Dosdate.Valid.setsDate (hclock : ClockContract px now settable) (h : d.Valid) (os : σ)
    : SetsDate d (now os) (instant d (.ofTimeval (now os))) := by
  obtain ⟨date, hholds, hdenotes, -, -⟩ := h.exists_date
  have hsec := instant_sec hholds (Dostime.ofTimeval_holds (now os))
  refine ⟨?_, ?_, ?_⟩
  . rwa [hsec, dateOf_timestamp]
  . rw [hsec, clockOf_timestamp]
  . rw [instant_usec hclock os, Int.mul_ediv_cancel _ (by decide)]

theorem Dostime.Valid.setsTime (h : t.Valid) {tv : Timeval} (hrep : Representable tv.sec)
    : SetsTime t tv (instant (.ofTime tv.sec) t) := by
  obtain ⟨c, hholds, hdenotes⟩ := h.exists_clock
  have hsec := instant_sec (Dosdate.ofTime_holds hrep) hholds
  constructor
  . rw [hsec, clockOf_timestamp]
    apply hdenotes
    exact Int.mul_ediv_cancel _ (by decide)
  . rw [hsec, dateOf_timestamp]

theorem setdateChecked_iff (hzone : UtcZone px) (hclock : ClockContract px now settable)
    (d : Dosdate) (s : Dos σ)
    : SetdateChecked px now d s
        ↔ d.Valid ∨ Refused settable (instant d (.ofTimeval (now s.os))) := by
  obtain ⟨os, hgettime, hnow⟩ :=
    dosixDosGettime_eq hclock (hzone.localtime _ (hclock.sec s.os)) (uninitTime px)
  have hchecked := setClock_checked_iff (s := s.setOs os) (d := d) (t := .ofTimeval (now os)) hzone
    hclock fun h : d.Valid => h.setsDate hclock os
  have hnot : d.Valid → ¬ Refused settable (instant d (.ofTimeval (now os))) :=
    fun h => h.not_refused hclock os
  rw [show (s.setOs os).os = os from rfl, hnow] at hchecked
  rw [hnow] at hnot
  unfold SetdateChecked dosixDosSetdate
  rw [hgettime]
  apply hchecked.trans
  by_cases hvalid : d.Valid
  . exact iff_of_true (iff_of_true hvalid (hnot hvalid)) (.inl hvalid)
  . rw [iff_false_left hvalid, not_not, or_iff_right hvalid]

theorem settimeChecked_iff (hzone : UtcZone px) (hclock : ClockContract px now settable)
    (t : Dostime) (s : Dos σ)
    : SettimeChecked px now t s
        ↔ (t.Valid ↔ ¬ Refused settable (instant (.ofTime (now s.os).sec) t)) := by
  obtain ⟨os, hgetdate, hnow⟩ :=
    dosixDosGetdate_eq hclock (hzone.localtime _ (hclock.sec s.os)) (uninitDate px)
  have hchecked := setClock_checked_iff (s := s.setOs os) (d := .ofTime (now os).sec) (t := t) hzone
    hclock fun h : t.Valid => h.setsTime (hclock.sec os)
  rw [show (s.setOs os).os = os from rfl, hnow] at hchecked
  unfold SettimeChecked dosixDosSettime
  rw [hgetdate]
  exact hchecked

/--
`mktime` takes a field that is out of range for a later or an earlier time, which the clock is set
to. A value that is not valid is refused only where there is no such time.
-/
theorem clockChecked_iff (hzone : UtcZone px) (hclock : ClockContract px now settable) (s : Dos σ)
    : (∀ d, SetdateChecked px now d s
          ↔ d.Valid ∨ Refused settable (instant d (.ofTimeval (now s.os))))
      ∧ (∀ t, SettimeChecked px now t s
          ↔ (t.Valid ↔ ¬ Refused settable (instant (.ofTime (now s.os).sec) t)))
      ∧ (∀ cpu, cpu.ah = INT21_AH_SETDATE → (Int21SetdateChecked px now cpu s
          ↔ (cpuDate cpu).Valid ∨ Refused settable (instant (cpuDate cpu) (.ofTimeval (now s.os)))))
      ∧ ∀ cpu, cpu.ah = INT21_AH_SETTIME → (Int21SettimeChecked px now cpu s
          ↔ ((cpuTime cpu).Valid
            ↔ ¬ Refused settable (instant (.ofTime (now s.os).sec) (cpuTime cpu)))) := by
  refine ⟨?_, ?_, ?_, ?_⟩
  . intro d
    exact setdateChecked_iff hzone hclock d s
  . intro t
    exact settimeChecked_iff hzone hclock t s
  . intro cpu h
    exact (int21SetdateChecked_iff h).trans (setdateChecked_iff hzone hclock _ s)
  . intro cpu h
    exact (int21SettimeChecked_iff h).trans (settimeChecked_iff hzone hclock _ s)

end

/-! A clock that counts the seconds from 1970 on. -/

def KernelTime (tv : Timeval) : Prop :=
  (0 ≤ tv.sec ∧ tv.sec < 2 ^ 33) ∧ 0 ≤ tv.usec ∧ tv.usec < 1000000

instance : DecidablePred KernelTime := fun tv =>
  inferInstanceAs (Decidable ((_ ∧ _) ∧ 0 ≤ tv.usec ∧ _))

def clockMachine : Posix { tv : Timeval // KernelTime tv } where
  __ := (default : Posix { tv : Timeval // KernelTime tv })
  gettimeofday := fun os => (.ok os.val, os)
  settimeofday := fun tv os =>
    if h : KernelTime tv then (.ok (), ⟨tv, h⟩) else (.error .EINVAL, os)
  localtime := fun t => if Representable t then some (.ofTime t) else none
  mktime := fun tm => if Representable tm.toTime then tm.toTime else -1

theorem clockMachine_zone : UtcZone clockMachine where
  localtime := fun _ h => if_pos h
  mktime := fun _ => rfl

theorem clockMachine_contract : ClockContract clockMachine Subtype.val KernelTime where
  get := fun _ => ⟨rfl, rfl⟩
  set := by
    intro tv os h
    simp [clockMachine, h]
  refuse := by
    intro tv os h
    simp [clockMachine, h]
  permitted := by
    intro tv hmin hmax husec husec'
    obtain ⟨hpos, hlt⟩ := bounds_of_year hmin hmax
    exact ⟨⟨by omega, by omega⟩, husec, husec'⟩
  sec := by
    intro os
    obtain ⟨⟨hpos, hlt⟩, -⟩ := os.property
    apply representable_of_bounds
    . omega
    . omega
  usec := fun os => os.property.2

def billennium : Dos { tv : Timeval // KernelTime tv } where
  os := ⟨⟨1000000000, 0⟩, by decide⟩

theorem clockChecked_billennium
    : SetdateChecked clockMachine Subtype.val ⟨29, 2, 2000, 0⟩ billennium
      ∧ SettimeChecked clockMachine Subtype.val ⟨23, 59, 59, 99⟩ billennium
      ∧ Int21SetdateChecked clockMachine Subtype.val { ax := 0x2b00, cx := 2000, dx := 0x021d }
        billennium
      ∧ Int21SettimeChecked clockMachine Subtype.val { ax := 0x2d00, cx := 0x173b, dx := 0x3b63 }
        billennium := by
  obtain ⟨hdate, htime, hcpudate, hcputime⟩ :=
    clockChecked_iff clockMachine_zone clockMachine_contract billennium
  refine ⟨?_, ?_, ?_, ?_⟩
  . apply (hdate _).mpr
    decide +kernel
  . apply (htime _).mpr
    decide +kernel
  . apply (hcpudate _ rfl).mpr
    decide +kernel
  . apply (hcputime _ rfl).mpr
    decide +kernel

/--
February 30th and the hour 25 are taken.
-/
theorem not_clockChecked_billennium
    : ¬ SetdateChecked clockMachine Subtype.val ⟨30, 2, 2001, 0⟩ billennium
      ∧ ¬ SettimeChecked clockMachine Subtype.val ⟨25, 0, 0, 0⟩ billennium
      ∧ ¬ Int21SetdateChecked clockMachine Subtype.val { ax := 0x2b00, cx := 2001, dx := 0x021e }
        billennium
      ∧ ¬ Int21SettimeChecked clockMachine Subtype.val { ax := 0x2d00, cx := 0x1900 } billennium := by
  rw [int21SetdateChecked_iff rfl, int21SettimeChecked_iff rfl,
    setdateChecked_iff clockMachine_zone clockMachine_contract,
    setdateChecked_iff clockMachine_zone clockMachine_contract,
    settimeChecked_iff clockMachine_zone clockMachine_contract,
    settimeChecked_iff clockMachine_zone clockMachine_contract]
  decide +kernel

end Dosix
