import Dosix.Dos.Lemmas.SetClock
import Dosix.Time.Impl

/-!
This module contains what the strings of `_strdate` and `_strtime` show: what the clock has been set to,
whatever calls have set it.
-/

namespace Dosix

open Calendar Objects Strings Transition

section

variable {μ ω : Type} [Objects.Memory μ ω (BitVec 8)] {m : μ} {p : Pointer ω}

theorem storeAll_spec {i : Nat} {cs : List (BitVec 8)}
    (hroom : p.offset + i + cs.length ≤ Memory.size m p.object)
    : ∃ m', storeAll p i cs m = .ok m' ∧ Writes m p.object (p.offset + i) cs m' := by
  induction cs generalizing m i with
  | nil => exact ⟨m, rfl, .nil⟩
  | cons c cs ih =>
    rw [List.length_cons] at hroom
    obtain ⟨m₁, hstore⟩ := exists_store (m := m) (o := p.object) (i := p.offset + i) (by omega) c
    have hsize := Memory.size_store hstore
    obtain ⟨m', hrest, hwrites⟩ := ih (m := m₁) (i := i + 1) (by rw [hsize]; omega)
    refine ⟨m', ?_, .cons hstore hwrites⟩
    unfold storeAll
    rw [hstore]
    exact hrest

/-! Two digits. -/

theorem padded_eq {n : Nat} (h : n < 100)
    : padded n = [.ofNat 8 (0x30 + n / 10), .ofNat 8 (0x30 + n % 10)] := by
  have hall : ∀ n < 100, padded n = [.ofNat 8 (0x30 + n / 10), .ofNat 8 (0x30 + n % 10)] := by
    decide +kernel
  exact hall n h

theorem length_padded {n : Nat} (h : n < 100) : (padded n).length = 2 := by
  rw [padded_eq h]
  rfl

end

/--
The fields that the strings show have two digits.
-/
def Dosdate.Short (d : Dosdate) : Prop :=
  d.month.toNat < 100 ∧ d.day.toNat < 100

def Dostime.Short (t : Dostime) : Prop :=
  t.hour.toNat < 100 ∧ t.minute.toNat < 100 ∧ t.second.toNat < 100

theorem year_lt (year : BitVec 32) : (year % 100).toNat < 100 := by
  rw [BitVec.toNat_umod]
  exact Nat.mod_lt _ (by decide)

theorem length_dateText {d : Dosdate} (h : d.Short) : (dateText d).length = 8 := by
  unfold dateText
  simp only [List.length_append, List.length_cons, length_padded h.1, length_padded h.2,
    length_padded (year_lt d.year)]

theorem length_timeText {t : Dostime} (h : t.Short) : (timeText t).length = 8 := by
  unfold timeText
  simp only [List.length_append, List.length_cons, length_padded h.1, length_padded h.2.1,
    length_padded h.2.2]

theorem dateText_congr {d e : Dosdate} (hmonth : d.month = e.month) (hday : d.day = e.day)
    (hyear : d.year = e.year)
    : dateText d = dateText e := by
  unfold dateText
  rw [hmonth, hday, hyear]

theorem Dosdate.ofTime_short (t : Int) : (ofTime t).Short := by
  have hmonth := (dateOf t).month_lt
  have hday := (dateOf t).day_le_31
  constructor
  . change (BitVec.ofNat 8 ((dateOf t).month + 1)).toNat < 100
    rw [toNat_ofNat_eight (by omega)]
    omega
  . change (BitVec.ofNat 8 (dateOf t).day).toNat < 100
    rw [toNat_ofNat_eight (by omega)]
    omega

theorem Dostime.ofTimeval_short (tv : Timeval) : (ofTimeval tv).Short := by
  have hholds := ofTimeval_holds tv
  have hhour := (clockOf tv.sec).hour_lt
  have hminute := (clockOf tv.sec).minute_lt
  have hsecond := (clockOf tv.sec).second_lt
  refine ⟨?_, ?_, ?_⟩
  . rw [← hholds.hour]
    omega
  . rw [← hholds.minute]
    omega
  . rw [← hholds.second]
    omega

theorem dateText_of_denotes {d : Dosdate} {t : Int} (h : d.Denotes (dateOf t))
    : dateText (.ofTime t) = dateText d := by
  obtain ⟨hyear, hmonth, hday⟩ := h
  apply dateText_congr
  . change BitVec.ofNat 8 ((dateOf t).month + 1) = d.month
    rw [hmonth, BitVec.ofNat_toNat, BitVec.setWidth_eq]
  . change BitVec.ofNat 8 (dateOf t).day = d.day
    rw [hday, BitVec.ofNat_toNat, BitVec.setWidth_eq]
  . change BitVec.ofInt 32 (dateOf t).year = d.year
    rw [hyear, BitVec.ofInt_natCast, BitVec.ofNat_toNat, BitVec.setWidth_eq]

theorem dateText_of_dateOf_eq {t u : Int} (h : dateOf t = dateOf u)
    : dateText (.ofTime t) = dateText (.ofTime u) := by
  apply dateText_congr
  . unfold Dosdate.ofTime
    rw [h]
  . unfold Dosdate.ofTime
    rw [h]
  . unfold Dosdate.ofTime
    rw [h]

theorem timeText_of_denotes {t : Dostime} {tv : Timeval} (h : t.Denotes (clockOf tv.sec) tv.usec)
    : timeText (.ofTimeval tv) = timeText t := by
  obtain ⟨hhour, hminute, hsecond, -⟩ := h
  have hholds := Dostime.ofTimeval_holds tv
  unfold timeText
  rw [← hholds.hour, ← hholds.minute, ← hholds.second, hhour, hminute, hsecond]

theorem timeText_of_clockOf_eq {tv tv' : Timeval} (h : clockOf tv.sec = clockOf tv'.sec)
    : timeText (.ofTimeval tv) = timeText (.ofTimeval tv') := by
  have hholds := Dostime.ofTimeval_holds tv
  have hholds' := Dostime.ofTimeval_holds tv'
  unfold timeText
  rw [← hholds.hour, ← hholds.minute, ← hholds.second, ← hholds'.hour, ← hholds'.minute,
    ← hholds'.second, h]

/-! Calls that set the clock. -/

inductive ClockCall where
  | setdate (date : Dosdate)
  | settime (time : Dostime)

namespace ClockCall

variable {σ : Type}

def Valid (c : ClockCall) : Prop :=
  match c with
  | .setdate date => date.Valid
  | .settime time => time.Valid

instance (c : ClockCall) : Decidable c.Valid :=
  match c with
  | .setdate date => inferInstanceAs (Decidable date.Valid)
  | .settime time => inferInstanceAs (Decidable time.Valid)

def step (px : Posix σ) (s : Dos σ) (c : ClockCall) : Except Fault (Dos σ) :=
  match c with
  | .setdate date => (dosixDosSetdate px date s).map Result.state
  | .settime time => (dosixDosSettime px time s).map Result.state

/--
The strings after the call, where those before it are `texts`.
-/
def shows (texts : List (BitVec 8) × List (BitVec 8)) (c : ClockCall)
    : List (BitVec 8) × List (BitVec 8) :=
  match c with
  | .setdate date => (dateText date, texts.2)
  | .settime time => (texts.1, timeText time)

end ClockCall

def clockTexts (tv : Timeval) : List (BitVec 8) × List (BitVec 8) :=
  (dateText (.ofTime tv.sec), timeText (.ofTimeval tv))

/--
The clock is in the years that DOS knows.
-/
def InDosYears (tv : Timeval) : Prop :=
  1980 ≤ (dateOf tv.sec).year ∧ (dateOf tv.sec).year ≤ 2099

instance (tv : Timeval) : Decidable (InDosYears tv) :=
  inferInstanceAs (Decidable (_ ∧ _))

section

variable {σ μ ω : Type} [Objects.Memory μ ω (BitVec 8)] {px : Posix σ} {now : σ → Timeval}
  {settable : Timeval → Prop} {d : Dosdate} {t : Dostime} {s : Dos σ} {m : μ} {p q : Pointer ω}

theorem setdate_shows (hzone : UtcZone px) (hclock : ClockContract px now settable) (h : d.Valid)
    (s : Dos σ)
    : ∃ r, dosixDosSetdate px d s = .ok r ∧ InDosYears (now r.state.os)
        ∧ clockTexts (now r.state.os) = (dateText d, (clockTexts (now s.os)).2) := by
  obtain ⟨r, hr, hvalid, -⟩ := (setdateChecked_iff hzone hclock d s).mpr (.inl h)
  obtain ⟨-, hdenotes, hclockOf, -⟩ := hvalid h
  refine ⟨r, hr, ?_, ?_⟩
  . have hyear := hdenotes.1
    obtain ⟨⟨hmin, hmax⟩, -⟩ := h
    unfold InDosYears
    omega
  . unfold clockTexts
    rw [dateText_of_denotes hdenotes, timeText_of_clockOf_eq hclockOf]

theorem Dostime.Valid.not_refused (hclock : ClockContract px now settable) (h : t.Valid) {os : σ}
    (hyears : InDosYears (now os))
    : ¬Refused settable (instant (.ofTime (now os).sec) t) := by
  obtain ⟨c, hholds, -⟩ := h.exists_clock
  apply Dosix.not_refused hclock (instant_sec (Dosdate.ofTime_holds (hclock.sec os)) hholds)
    hyears.1 hyears.2
  have hhundredths := h.2.2.2
  unfold instant
  dsimp only
  omega

theorem settime_shows (hzone : UtcZone px) (hclock : ClockContract px now settable) (h : t.Valid)
    (hyears : InDosYears (now s.os))
    : ∃ r, dosixDosSettime px t s = .ok r ∧ InDosYears (now r.state.os)
        ∧ clockTexts (now r.state.os) = ((clockTexts (now s.os)).1, timeText t) := by
  have hiff : t.Valid ↔ ¬Refused settable (instant (.ofTime (now s.os).sec) t) :=
    iff_of_true h (h.not_refused hclock hyears)
  obtain ⟨r, hr, hvalid, -⟩ := (settimeChecked_iff hzone hclock t s).mpr hiff
  obtain ⟨-, hdenotes, hdateOf⟩ := hvalid h
  refine ⟨r, hr, ?_, ?_⟩
  . unfold InDosYears
    rwa [hdateOf]
  . unfold clockTexts
    rw [timeText_of_denotes hdenotes, dateText_of_dateOf_eq hdateOf]

theorem step_shows (hzone : UtcZone px) (hclock : ClockContract px now settable) {c : ClockCall}
    (hc : c.Valid) (hyears : InDosYears (now s.os))
    : ∃ s', c.step px s = .ok s' ∧ InDosYears (now s'.os)
        ∧ clockTexts (now s'.os) = c.shows (clockTexts (now s.os)) := by
  unfold ClockCall.step ClockCall.shows
  cases c with
  | setdate date =>
    obtain ⟨r, hr, hshows⟩ := setdate_shows hzone hclock hc s
    dsimp only
    rw [hr]
    exact ⟨r.state, rfl, hshows⟩
  | settime time =>
    obtain ⟨r, hr, hshows⟩ := settime_shows hzone hclock hc hyears
    dsimp only
    rw [hr]
    exact ⟨r.state, rfl, hshows⟩

theorem run_shows (hzone : UtcZone px) (hclock : ClockContract px now settable)
    {cs : List ClockCall} (hcs : ∀ c ∈ cs, c.Valid) (hyears : InDosYears (now s.os))
    : ∃ s', run (ClockCall.step px) s cs = .ok s'
        ∧ clockTexts (now s'.os) = cs.foldl ClockCall.shows (clockTexts (now s.os)) := by
  have hstep (s : Dos σ) (texts : List (BitVec 8) × List (BitVec 8)) (c : ClockCall)
      (hs : InDosYears (now s.os) ∧ clockTexts (now s.os) = texts) (hc : c.Valid)
      : ∃ s' texts', c.step px s = .ok s' ∧ (.ok (c.shows texts) : Except Fault _) = .ok texts'
        ∧ InDosYears (now s'.os) ∧ clockTexts (now s'.os) = texts' := by
    obtain ⟨s', hs', hyears', htexts⟩ := step_shows hzone hclock hc hs.1
    rw [hs.2] at htexts
    exact ⟨s', _, hs', rfl, hyears', htexts⟩
  obtain ⟨s', texts', hrun, hfold, -, htexts⟩ := run_related hstep ⟨hyears, rfl⟩ hcs
  refine ⟨s', hrun, ?_⟩
  rw [run_total] at hfold
  rw [htexts]
  exact (Except.ok.inj hfold).symm

/-! The strings. -/

theorem sprintf_spec {text : List (BitVec 8)} (hroom : p.offset + text.length < Memory.size m p.object)
    : ∃ m', sprintf p text m = .ok m' ∧ Writes m p.object p.offset (text ++ [0]) m' := by
  apply storeAll_spec
  rw [List.length_append, List.length_singleton]
  exact hroom

theorem strdate_spec (hzone : UtcZone px) (hclock : ClockContract px now settable) (s : Dos σ)
    (hroom : p.offset + 8 < Memory.size m p.object)
    : ∃ s' m', dosixStrdate px (some p) s m = .ok (some p, s', m') ∧ now s'.os = now s.os
        ∧ Writes m p.object p.offset ((clockTexts (now s.os)).1 ++ [0]) m' := by
  obtain ⟨os, hgetdate, hnow⟩ :=
    dosixDosGetdate_eq hclock (hzone.localtime _ (hclock.sec s.os)) (uninitDate px)
  have hlength := length_dateText (Dosdate.ofTime_short (now s.os).sec)
  obtain ⟨m', hprint, hwrites⟩ :=
    sprintf_spec (m := m) (p := p) (show p.offset + (clockTexts (now s.os)).1.length < _ by
      unfold clockTexts
      rwa [hlength])
  refine ⟨s.setOs os, m', ?_, hnow, hwrites⟩
  unfold dosixStrdate
  dsimp only
  rw [hgetdate]
  dsimp only
  rw [show sprintf p (dateText (.ofTime (now s.os).sec)) m = _ from hprint]
  rfl

theorem strtime_spec (hzone : UtcZone px) (hclock : ClockContract px now settable) (s : Dos σ)
    (hroom : p.offset + 8 < Memory.size m p.object)
    : ∃ s' m', dosixStrtime px (some p) s m = .ok (some p, s', m') ∧ now s'.os = now s.os
        ∧ Writes m p.object p.offset ((clockTexts (now s.os)).2 ++ [0]) m' := by
  obtain ⟨os, hgettime, hnow⟩ :=
    dosixDosGettime_eq hclock (hzone.localtime _ (hclock.sec s.os)) (uninitTime px)
  have hlength := length_timeText (Dostime.ofTimeval_short (now s.os))
  obtain ⟨m', hprint, hwrites⟩ :=
    sprintf_spec (m := m) (p := p) (show p.offset + (clockTexts (now s.os)).2.length < _ by
      unfold clockTexts
      rwa [hlength])
  refine ⟨s.setOs os, m', ?_, hnow, hwrites⟩
  unfold dosixStrtime
  dsimp only
  rw [hgettime]
  dsimp only
  rw [show sprintf p (timeText (.ofTimeval (now s.os))) m = _ from hprint]
  rfl

end

def twoStrings : State where
  arrays _ := List.replicate 9 0xff

def asBytes (text : String) : List (BitVec 8) :=
  text.toList.map fun c => .ofNat 8 c.toNat

end Dosix
