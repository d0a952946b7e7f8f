import Dosix.Dos.Lemmas.Find
import Dosix.Dos.Lemmas.Time

/-!
This module contains what the stamp of a file tells about its time: the order of two times, rounded
to two seconds, and nothing reliable about a time of a year that the words cannot hold.
-/

namespace Dosix

open Calendar

variable {σ : Type}

/-! The order. -/

def stamp (date time : BitVec 32) : Nat :=
  date.toNat * 65536 + time.toNat

theorem secondNumber_evenClock (c : Clock)
    : (evenClock c).secondNumber = c.secondNumber / 2 * 2 := by
  unfold Clock.secondNumber evenClock
  dsimp only
  omega

section

variable {date date' time time' : BitVec 32} {d d' : Date} {c c' : Clock}

theorem DateWord.lt (h : DateWord date d) (h' : DateWord date' d') (hlt : d.Before d')
    : date.toNat < date'.toNat := by
  obtain ⟨hword, hyear, hmonth, hday⟩ := h
  obtain ⟨hword', hyear', hmonth', hday'⟩ := h'
  obtain hlt | ⟨heq, hlt | ⟨heq', hlt⟩⟩ := hlt
  . omega
  . omega
  . omega

theorem TimeWord.lt (h : TimeWord time c) (h' : TimeWord time' c')
    (hlt : c.secondNumber < c'.secondNumber)
    : time.toNat < time'.toNat := by
  obtain ⟨hword, hhour, hminute, hsecond⟩ := h
  obtain ⟨hword', hhour', hminute', hsecond'⟩ := h'
  have := c.minute_lt
  have := c.second_lt
  have := c'.minute_lt
  have := c'.second_lt
  have : time.toNat / 2 ^ 5 / 2 ^ 6 = time.toNat / 2 ^ 11 := Nat.div_div_eq_div_mul _ _ _
  have : time'.toNat / 2 ^ 5 / 2 ^ 6 = time'.toNat / 2 ^ 11 := Nat.div_div_eq_div_mul _ _ _
  unfold Clock.secondNumber at hlt
  omega

end

section

variable {t t' : Int} (ht : DosTime t) (ht' : DosTime t')

include ht ht'

theorem stamp_lt (h : t / 2 < t' / 2)
    : stamp (dostimeIntDate (.ofTime t)) (dostimeIntTime (.ofTime t))
        < stamp (dostimeIntDate (.ofTime t')) (dostimeIntTime (.ofTime t')) := by
  have hdate := dateWord_dostimeIntDate ht
  have hdate' := dateWord_dostimeIntDate ht'
  have htime := timeWord_dostimeIntTime t
  have htime' := timeWord_dostimeIntTime t'
  unfold stamp
  by_cases hday : t / 86400 < t' / 86400
  . -- the time of day does not reach into the date
    have hlt := hdate.lt hdate' (dateOf_before hday)
    have := htime.word
    omega
  . have hday : t / 86400 = t' / 86400 := by omega
    have hsame : dateOf t = dateOf t' := congrArg Date.ofDayNumber hday
    rw [hdate.unique (hsame ▸ hdate')]
    have hlt : (evenClock (clockOf t)).secondNumber < (evenClock (clockOf t')).secondNumber := by
      have hsecond := secondNumber_clockOf t
      have hsecond' := secondNumber_clockOf t'
      rw [secondNumber_evenClock, secondNumber_evenClock]
      omega
    have := htime.lt htime' hlt
    omega

theorem stamp_congr (h : t / 2 = t' / 2)
    : stamp (dostimeIntDate (.ofTime t)) (dostimeIntTime (.ofTime t))
        = stamp (dostimeIntDate (.ofTime t')) (dostimeIntTime (.ofTime t')) := by
  have hdate : dateOf t = dateOf t' := by
    apply congrArg Date.ofDayNumber
    omega
  have hclock : evenClock (clockOf t) = evenClock (clockOf t') := by
    have hsecond := secondNumber_clockOf t
    have hsecond' := secondNumber_clockOf t'
    rw [← Clock.ofSecondNumber_secondNumber (evenClock (clockOf t)),
      ← Clock.ofSecondNumber_secondNumber (evenClock (clockOf t'))]
    apply congrArg Clock.ofSecondNumber
    rw [secondNumber_evenClock, secondNumber_evenClock]
    omega
  have hdate' := dateWord_dostimeIntDate ht'
  have htime' := timeWord_dostimeIntTime t'
  rw [(dateWord_dostimeIntDate ht).unique (hdate ▸ hdate'),
    (timeWord_dostimeIntTime t).unique (hclock ▸ htime')]

end

/--
The order of the stamps is that of the times, of which two have the same stamp if they fall into the
same two seconds.
-/
theorem stamp_ordered {px : Posix σ} (hlocal : ∀ t, DosTime t → px.localtime t = some (.ofTime t))
    {t t' : Int} (ht : DosTime t) (ht' : DosTime t') (h : t ≤ t') (s s' : Dos σ)
    : ∃ date time date' time', dostimeInt px t s = ⟨0, some (date, time), s⟩
        ∧ dostimeInt px t' s' = ⟨0, some (date', time'), s'⟩
        ∧ stamp date time ≤ stamp date' time'
        ∧ (stamp date time = stamp date' time' ↔ t - t % 2 = t' - t' % 2) := by
  refine ⟨_, _, _, _, dostimeInt_eq (hlocal t ht) s, dostimeInt_eq (hlocal t' ht') s', ?_⟩
  obtain hlt | heq := Int.lt_or_eq_of_le (show t / 2 ≤ t' / 2 by omega)
  . have hstamp := stamp_lt ht ht' hlt
    refine ⟨Nat.le_of_lt hstamp, ?_⟩
    constructor
    . intro heq
      omega
    . intro heq
      omega
  . have hstamp := stamp_congr ht ht' heq
    refine ⟨Nat.le_of_eq hstamp, ?_⟩
    constructor
    . intro _
      omega
    . intro _
      exact hstamp

theorem stamp_ordered_greenwich
    : ∃ date time date' time',
        dostimeInt greenwich 951868799 { os := () } = ⟨0, some (date, time), { os := () }⟩
        ∧ dostimeInt greenwich 951868800 { os := () } = ⟨0, some (date', time'), { os := () }⟩
        ∧ stamp date time ≤ stamp date' time'
        ∧ (stamp date time = stamp date' time' ↔ (951868799 : Int) - 951868799 % 2
          = 951868800 - 951868800 % 2) := by
  have ht : DosTime 951868799 := by
    unfold DosTime
    decide +kernel
  have ht' : DosTime 951868800 := by
    unfold DosTime
    decide +kernel
  exact stamp_ordered (fun _ _ => rfl) ht ht' (by decide) { os := () } { os := () }

/-! The years that the words cannot hold. -/

namespace Tm

/--
The fields are in the ranges of `<time.h>`.
-/
structure InRange (tm : Tm) : Prop where
  sec : 0 ≤ tm.sec ∧ tm.sec ≤ 60
  min : 0 ≤ tm.min ∧ tm.min ≤ 59
  hour : 0 ≤ tm.hour ∧ tm.hour ≤ 23
  mday : 1 ≤ tm.mday ∧ tm.mday ≤ 31
  mon : 0 ≤ tm.mon ∧ tm.mon ≤ 11

def DosYear (tm : Tm) : Prop :=
  1980 ≤ 1900 + tm.year ∧ 1900 + tm.year ≤ 2107

instance (tm : Tm) : Decidable tm.DosYear :=
  inferInstanceAs (Decidable (_ ∧ _))

/--
The words fit, and the date in them is that of the fields.
-/
structure Stamped (tm : Tm) (date time : BitVec 32) : Prop where
  date_word : date.toNat < 2 ^ 16
  time_word : time.toNat < 2 ^ 16
  year : 1900 + tm.year = 1980 + (date.toNat / 2 ^ 9 : Nat)
  month : tm.mon + 1 = (date.toNat / 2 ^ 5 % 2 ^ 4 : Nat)
  day : tm.mday = (date.toNat % 2 ^ 5 : Nat)

theorem Stamped.dosYear {tm : Tm} {date time : BitVec 32} (h : tm.Stamped date time)
    : tm.DosYear := by
  have := h.date_word
  have := h.year
  unfold DosYear
  omega

theorem stamped_iff {tm : Tm} (h : tm.InRange)
    : tm.Stamped (dostimeIntDate tm) (dostimeIntTime tm) ↔ tm.DosYear := by
  constructor
  . exact Stamped.dosYear
  . intro ⟨hmin, hmax⟩
    obtain ⟨y, hy⟩ := Int.eq_ofNat_of_zero_le (show 0 ≤ tm.year - 80 by omega)
    obtain ⟨m, hm⟩ := Int.eq_ofNat_of_zero_le h.mon.1
    obtain ⟨d, hd⟩ := Int.eq_ofNat_of_zero_le (show 0 ≤ tm.mday from Int.le_trans (by decide) h.mday.1)
    obtain ⟨hr, hhr⟩ := Int.eq_ofNat_of_zero_le h.hour.1
    obtain ⟨mi, hmi⟩ := Int.eq_ofNat_of_zero_le h.min.1
    obtain ⟨sc, hsc⟩ := Int.eq_ofNat_of_zero_le h.sec.1
    obtain ⟨hsec, hminute, hhour, hmday, hmon⟩ := h
    have hdate := toNat_dostimeIntDate tm (show tm.year = (80 + y : Nat) by omega) hm hd (by omega)
      (by omega) (by omega)
    have htime := toNat_dostimeIntTime tm hhr hmi hsc (by omega) (by omega) (by omega)
    constructor
    . omega
    . omega
    . omega
    . omega
    . omega

theorem ofTime_inRange (t : Int) : (ofTime t).InRange := by
  have := (clockOf t).hour_lt
  have := (clockOf t).minute_lt
  have := (clockOf t).second_lt
  have := (dateOf t).day_pos
  have := (dateOf t).day_le_31
  have := (dateOf t).month_lt
  constructor
  all_goals
    unfold ofTime
    dsimp only
    omega

end Tm

theorem findnextLoop_found {px : Posix σ} {cdta : Addr} {left : Nat} {s s' : Dos σ}
    {r : Result σ Unit} (h : findnextLoop px cdta left s = .ok (some r, s'))
    : ∃ filename attrib fs t os, (px.stat (some filename) os).1 = .ok fs
        ∧ r = findnextMatch px cdta filename attrib fs t := by
  induction left generalizing s with
  | zero => simp [findnextLoop] at h
  | succ left ih =>
    obtain ⟨_, filename, t, found, -, -, hround, h⟩ := findnextLoop_ok h
    cases hround with
    | refused | gone | passed => exact ih h
    | matched _ hstat _ =>
      obtain ⟨os, hos, -⟩ := Dos.call_some hstat
      obtain ⟨hr, -⟩ := Prod.mk.inj (Except.ok.inj h)
      exact ⟨filename, _, _, t, _, congrArg Prod.fst hos, (Option.some.inj hr).symm⟩

/--
The search stops at a file with this status, and leaves `r`.
-/
def FindsFile (px : Posix σ) (s : Dos σ) (fs : Stat) (r : Result σ Unit) : Prop :=
  findnext px s = .ok r
    ∧ ∃ filename attrib t os, (px.stat (some filename) os).1 = .ok fs
      ∧ r = findnextMatch px s.currentDta filename attrib fs t

theorem findnext_findsFile {px : Posix σ} {s : Dos σ} {r : Result σ Unit}
    (h : findnext px s = .ok r) (hcode : r.code = 0)
    : ∃ fs, FindsFile px s fs r := by
  have hfind := h
  unfold findnext at h
  dsimp only at h
  split at h
  . simp at h
  . next hloop =>
    injection h with h
    subst h
    obtain ⟨filename, attrib, fs, t, os, hstat, hr⟩ := findnextLoop_found hloop
    exact ⟨fs, hfind, filename, attrib, t, os, hstat, hr⟩
  . split at h
    . injection h with h
      subst h
      rw [exterrSet_code _ _ (by decide)] at hcode
      exact absurd hcode (by decide)
    . simp at h

theorem findnextMatch_words {px : Posix σ} {fs : Stat} {tm : Tm}
    (hlocal : px.localtime fs.mtime = some tm) (cdta : Addr) (filename : String)
    (attrib : BitVec 32) (s : Dos σ)
    : (findnextMatch px cdta filename attrib fs s).code = 0
      ∧ ((findnextMatch px cdta filename attrib fs s).state.findT cdta).wrDate = dostimeIntDate tm
      ∧ ((findnextMatch px cdta filename attrib fs s).state.findT cdta).wrTime
        = dostimeIntTime tm := by
  unfold findnextMatch
  dsimp only
  rw [dostimeInt_eq hlocal]
  dsimp only
  rw [Dos.modifyFindT_findT]
  exact ⟨rfl, rfl, rfl⟩

/--
No year is refused. For the years that the words can hold, they are right, and for the others they
are stored and the call reports success all the same.
-/
theorem refuses_iff_dosYear {px : Posix σ} (hrange : ∀ t tm, px.localtime t = some tm → tm.InRange)
    {t : Int} {tm : Tm} (hlocal : px.localtime t = some tm)
    : (∀ s, (¬ tm.DosYear → (dostimeInt px t s).code ≠ 0) ↔ tm.DosYear)
      ∧ (∀ handle s s' fs, s.call (px.fstat handle) = (some fs, s') → fs.mtime = t →
        ∃ date time, dosixDosGetftime px handle s = .ok ⟨0, some (date, time), s'⟩
          ∧ (tm.Stamped date time ↔ tm.DosYear))
      ∧ (∀ s fs r, FindsFile px s fs r → fs.mtime = t →
        r.code = 0 ∧ (tm.Stamped (r.state.findT s.currentDta).wrDate
          (r.state.findT s.currentDta).wrTime ↔ tm.DosYear))
      ∧ ∀ s r, findnext px s = .ok r → r.code = 0 → ∃ fs, FindsFile px s fs r := by
  have hstamped := Tm.stamped_iff (hrange t tm hlocal)
  refine ⟨?_, ?_, ?_, fun s r h hcode => findnext_findsFile h hcode⟩
  . intro s
    rw [dostimeInt_eq hlocal]
    constructor
    . intro h
      by_contra hyear
      exact h hyear rfl
    . intro hyear h
      exact absurd hyear h
  . intro handle s s' fs hstat hmtime
    refine ⟨_, _, ?_, hstamped⟩
    unfold dosixDosGetftime
    rw [hstat]
    dsimp only
    rw [hmtime, dostimeInt_eq hlocal]
  . rintro s fs r ⟨-, filename, attrib, t', os, -, rfl⟩ hmtime
    subst hmtime
    obtain ⟨hcode, hdate, htime⟩ := findnextMatch_words hlocal s.currentDta filename attrib t'
    rw [hdate, htime]
    exact ⟨hcode, hstamped⟩

def oldFile : Posix Unit where
  __ := greenwich
  fstat := fun _ _ => (.ok { mtime := 315532798 }, ())

/--
The last two seconds of 1979. The word for the date does not fit.
-/
theorem not_refuses_oldFile
    : oldFile.localtime 315532798 = some (.ofTime 315532798)
      ∧ ¬ (Tm.ofTime 315532798).DosYear
      ∧ (dostimeInt oldFile 315532798 { os := () }).code = 0
      ∧ (∃ r, dosixDosGetftime oldFile 5 { os := () } = .ok r ∧ r.code = 0
        ∧ r.out = some (0xffffff9f, 0xbf7d)) := by
  refine ⟨rfl, by decide +kernel, rfl, _, rfl, rfl, ?_⟩
  decide +kernel

theorem refuses_iff_dosYear_oldFile
    : ((¬ (Tm.ofTime 315532798).DosYear → (dostimeInt oldFile 315532798 { os := () }).code ≠ 0)
        ↔ (Tm.ofTime 315532798).DosYear)
      ∧ ∃ date time, dosixDosGetftime oldFile 5 { os := () }
          = .ok ⟨0, some (date, time), { os := () }⟩
        ∧ ((Tm.ofTime 315532798).Stamped date time ↔ (Tm.ofTime 315532798).DosYear) := by
  have hrange : ∀ t tm, oldFile.localtime t = some tm → tm.InRange := by
    intro t tm h
    injection h with h
    subst h
    exact Tm.ofTime_inRange t
  obtain ⟨hrefuses, hgetftime, -⟩ := refuses_iff_dosYear hrange (t := 315532798) rfl
  exact ⟨hrefuses { os := () }, hgetftime 5 { os := () } { os := () } _ rfl rfl⟩

end Dosix
