import Dosix.Calendar.Lemmas
import Dosix.Dos.Impl.Time
import Mathlib.Algebra.Group.Nat.Defs

/-!
This module contains the round trip of the words in which DOS keeps the date and the time of a file:
encoding and decoding are inverse to each other on the dates that the words can hold.
-/

namespace Dosix

open Calendar

variable {σ : Type}

/-! The words. -/

theorem toNat_pack {a b c i j : Nat} (hb : b * 2 ^ j + c < 2 ^ i) (hc : c < 2 ^ j)
    (h : a * 2 ^ i + b * 2 ^ j + c < 2 ^ 32)
    : (BitVec.ofNat 32 a <<< i ||| BitVec.ofNat 32 b <<< j ||| BitVec.ofNat 32 c).toNat
        = a * 2 ^ i + b * 2 ^ j + c := by
  -- three fields, of which the lower ones do not reach into the higher ones, are just added
  have ha : a * 1 ≤ a * 2 ^ i := Nat.mul_le_mul_left a (Nat.two_pow_pos i)
  have hb' : b * 1 ≤ b * 2 ^ j := Nat.mul_le_mul_left b (Nat.two_pow_pos j)
  simp only [BitVec.toNat_or, BitVec.toNat_shiftLeft, BitVec.toNat_ofNat]
  rw [Nat.mod_eq_of_lt (show a < 2 ^ 32 by omega), Nat.mod_eq_of_lt (show b < 2 ^ 32 by omega),
    Nat.mod_eq_of_lt (show c < 2 ^ 32 by omega), Nat.shiftLeft_eq, Nat.shiftLeft_eq,
    Nat.mod_eq_of_lt (show a * 2 ^ i < 2 ^ 32 by omega),
    Nat.mod_eq_of_lt (show b * 2 ^ j < 2 ^ 32 by omega), Nat.or_assoc]
  rw [Nat.mul_comm b, ← Nat.two_pow_add_eq_or_of_lt hc, Nat.mul_comm a,
    ← Nat.two_pow_add_eq_or_of_lt (by rwa [Nat.mul_comm])]
  omega

/--
The date word stands for the date `d`: the day from bit 0, the month from bit 5, and the years since
1980 from bit 9.
-/
structure DateWord (date : BitVec 32) (d : Date) : Prop where
  word : date.toNat < 2 ^ 16
  year : d.year = 1980 + (date.toNat / 2 ^ 9 : Nat)
  month : d.month + 1 = date.toNat / 2 ^ 5 % 2 ^ 4
  day : d.day = date.toNat % 2 ^ 5

/--
The time word stands for the time of day `c`: the count of two seconds from bit 0, the minutes from
bit 5, and the hours from bit 11.
-/
structure TimeWord (time : BitVec 32) (c : Clock) : Prop where
  word : time.toNat < 2 ^ 16
  hour : c.hour = time.toNat / 2 ^ 11
  minute : c.minute = time.toNat / 2 ^ 5 % 2 ^ 6
  second : c.second = time.toNat % 2 ^ 5 * 2

theorem DateWord.unique {date date' : BitVec 32} {d : Date} (h : DateWord date d)
    (h' : DateWord date' d)
    : date = date' := by
  apply BitVec.eq_of_toNat_eq
  have := h.year
  have := h'.year
  have := h.month
  have := h'.month
  have := h.day
  have := h'.day
  have := h.word
  have := h'.word
  omega

theorem TimeWord.unique {time time' : BitVec 32} {c : Clock} (h : TimeWord time c)
    (h' : TimeWord time' c)
    : time = time' := by
  apply BitVec.eq_of_toNat_eq
  have := h.hour
  have := h'.hour
  have := h.minute
  have := h'.minute
  have := h.second
  have := h'.second
  omega

/-! The clock. -/

def Tm.ofTime (t : Int) : Tm where
  sec := (clockOf t).second
  min := (clockOf t).minute
  hour := (clockOf t).hour
  mday := (dateOf t).day
  mon := (dateOf t).month
  year := (dateOf t).year - 1900
  wday := (t / 86400 + 4) % 7

def Tm.toTime (tm : Tm) : Int :=
  normalized (1900 + tm.year) tm.mon tm.mday tm.hour tm.min tm.sec

def DosTime (t : Int) : Prop :=
  1980 ≤ (dateOf t).year ∧ (dateOf t).year ≤ 2107

structure Utc (px : Posix σ) : Prop where
  localtime : ∀ t, DosTime t → px.localtime t = some (.ofTime t)
  mktime : ∀ tm, px.mktime tm = tm.toTime

/-! The encoding. -/

def evenClock (c : Clock) : Clock where
  hour := c.hour
  minute := c.minute
  second := c.second / 2 * 2
  hour_lt := c.hour_lt
  minute_lt := c.minute_lt
  second_lt := by
    have := c.second_lt
    omega

theorem toNat_dostimeIntDate (tm : Tm) {y m d : Nat} (hyear : tm.year = (80 + y : Nat))
    (hmon : tm.mon = m) (hmday : tm.mday = d) (hy : y ≤ 127) (hm : m < 12) (hd : d ≤ 31)
    : (dostimeIntDate tm).toNat = y * 2 ^ 9 + (m + 1) * 2 ^ 5 + d := by
  have hyear' : tm.year - (1980 - 1900) = (y : Int) := by omega
  have hmon' : tm.mon + 1 = ((m + 1 : Nat) : Int) := by omega
  unfold dostimeIntDate
  rw [hyear', hmon', hmday, BitVec.ofInt_natCast, BitVec.ofInt_natCast, BitVec.ofInt_natCast]
  apply toNat_pack
  . omega
  . omega
  . omega

theorem toNat_dostimeIntTime (tm : Tm) {hr mi sc : Nat} (hhour : tm.hour = hr) (hmin : tm.min = mi)
    (hsec : tm.sec = sc) (hh : hr < 24) (hm : mi < 60) (hs : sc < 62)
    : (dostimeIntTime tm).toNat = hr * 2 ^ 11 + mi * 2 ^ 5 + sc / 2 := by
  have hsec' : tm.sec.tdiv 2 = ((sc / 2 : Nat) : Int) := by
    rw [hsec]
    rfl
  unfold dostimeIntTime
  rw [hhour, hmin, hsec', BitVec.ofInt_natCast, BitVec.ofInt_natCast, BitVec.ofInt_natCast]
  apply toNat_pack
  . omega
  . omega
  . omega

theorem dateWord_dostimeIntDate {t : Int} (h : DosTime t)
    : DateWord (dostimeIntDate (.ofTime t)) (dateOf t) := by
  obtain ⟨hmin, hmax⟩ := h
  obtain ⟨y, hy⟩ := Int.eq_ofNat_of_zero_le (show 0 ≤ (dateOf t).year - 1980 by omega)
  have hmonth := (dateOf t).month_lt
  have hday := (dateOf t).day_le_31
  have hyear : (Tm.ofTime t).year = (80 + y : Nat) := by
    change (dateOf t).year - 1900 = _
    omega
  have hword := toNat_dostimeIntDate (.ofTime t) hyear rfl rfl (by omega) hmonth hday
  constructor
  . omega
  . omega
  . omega
  . omega

theorem timeWord_dostimeIntTime (t : Int)
    : TimeWord (dostimeIntTime (.ofTime t)) (evenClock (clockOf t)) := by
  have hhour := (clockOf t).hour_lt
  have hminute := (clockOf t).minute_lt
  have hsecond := (clockOf t).second_lt
  have hword := toNat_dostimeIntTime (.ofTime t) rfl rfl rfl hhour hminute (by omega)
  constructor
  . omega
  all_goals
    unfold evenClock
    dsimp only
    omega

/-! The decoding. -/

theorem toNat_and_mask (x mask : BitVec 32) {n : Nat} (hmask : mask.toNat = 2 ^ n - 1)
    : (x &&& mask).toNat = x.toNat % 2 ^ n := by
  rw [BitVec.toNat_and, hmask, Nat.and_two_pow_sub_one_eq_mod]

theorem toInt_of_toNat {x : BitVec 32} {n : Nat} (h : x.toNat = n) (hn : n < 2 ^ 16)
    : x.toInt = n := by
  rw [BitVec.toInt_eq_toNat_of_lt (by omega), h]

theorem unixtimeIntTm_toTime {date time : BitVec 32} {d : Date} {c : Clock} (hdate : DateWord date d)
    (htime : TimeWord time c)
    : (unixtimeIntTm date time).toTime = timestamp d c := by
  have hsec : (unixtimeIntTm date time).sec = c.second := by
    apply toInt_of_toNat
    . rw [BitVec.toNat_mul, toNat_and_mask time _ (n := 5) (by decide), htime.second]
      exact Nat.mod_eq_of_lt (show time.toNat % 2 ^ 5 * 2 < 2 ^ 32 by omega)
    . have := c.second_lt
      omega
  have hmin : (unixtimeIntTm date time).min = c.minute := by
    apply toInt_of_toNat
    . rw [toNat_and_mask _ _ (n := 6) (by decide), BitVec.toNat_ushiftRight,
        Nat.shiftRight_eq_div_pow, htime.minute]
    . have := c.minute_lt
      omega
  have hhour : (unixtimeIntTm date time).hour = c.hour := by
    apply toInt_of_toNat
    . rw [BitVec.toNat_ushiftRight, Nat.shiftRight_eq_div_pow, htime.hour]
    . have := c.hour_lt
      omega
  have hmday : (unixtimeIntTm date time).mday = d.day := by
    apply toInt_of_toNat
    . rw [toNat_and_mask _ _ (n := 5) (by decide), hdate.day]
    . have := d.day_le_31
      omega
  have hmon : (unixtimeIntTm date time).mon = d.month := by
    apply toInt_of_toNat
    . rw [BitVec.toNat_sub, toNat_and_mask _ _ (n := 4) (by decide), BitVec.toNat_ushiftRight,
        Nat.shiftRight_eq_div_pow, ← hdate.month]
      have := d.month_lt
      change (2 ^ 32 - 1 + (d.month + 1)) % 2 ^ 32 = d.month
      omega
    . have := d.month_lt
      omega
  have hyear : 1900 + (unixtimeIntTm date time).year = d.year := by
    have hlt := hdate.word
    have hyear : (unixtimeIntTm date time).year = (date.toNat / 2 ^ 9 + 80 : Nat) := by
      apply toInt_of_toNat
      . rw [BitVec.toNat_add, BitVec.toNat_ushiftRight, Nat.shiftRight_eq_div_pow]
        exact Nat.mod_eq_of_lt (show date.toNat / 2 ^ 9 + 80 < 2 ^ 32 by omega)
      . omega
    rw [hyear, hdate.year]
    omega
  unfold Tm.toTime
  rw [hsec, hmin, hhour, hmday, hmon, hyear]
  exact normalized_eq_timestamp d c

theorem TimeWord.evenClock_eq {time : BitVec 32} {c : Clock} (h : TimeWord time c)
    : evenClock c = c := by
  refine Clock.ext_fields rfl rfl ?_
  change c.second / 2 * 2 = c.second
  have := h.second
  omega

theorem timestamp_evenClock (d : Date) (c : Clock)
    : timestamp d (evenClock c) = timestamp d c - timestamp d c % 2 := by
  unfold timestamp Clock.secondNumber evenClock
  dsimp only
  omega

theorem DosTime.of_dateWord {date : BitVec 32} {d : Date} (h : DateWord date d) (c : Clock)
    : DosTime (timestamp d c) := by
  have := h.word
  have := h.year
  unfold DosTime
  rw [dateOf_timestamp]
  omega

theorem DosTime.pos {d : Date} (c : Clock) (h : 1980 ≤ d.year) : 0 < timestamp d c := by
  -- no time that DOS can hold is the `-1` with which `mktime` fails
  have hyear := d.dayNumber_inYear.1
  have hmono := daysBeforeYear_mono h
  have hepoch : daysBeforeYear 1980 = 3652 := by decide
  unfold timestamp
  omega

section

variable {px : Posix σ} (hpx : Utc px)

include hpx

theorem unixtimeInt_eq {date time : BitVec 32} {d : Date} {c : Clock} (hdate : DateWord date d)
    (htime : TimeWord time c) (s : Dos σ)
    : unixtimeInt px date time s = ⟨0, some (timestamp d c), s⟩ := by
  have hpos : 0 < timestamp d c := by
    apply DosTime.pos
    have := hdate.year
    omega
  unfold unixtimeInt
  rw [hpx.mktime, unixtimeIntTm_toTime hdate htime]
  exact if_neg (by omega)

end

theorem dostimeInt_eq {px : Posix σ} {t : Int} {tm : Tm} (h : px.localtime t = some tm) (s : Dos σ)
    : dostimeInt px t s = ⟨0, some (dostimeIntDate tm, dostimeIntTime tm), s⟩ := by
  unfold dostimeInt
  rw [h]

structure DocumentedWords (date time : BitVec 32) : Prop where
  date_word : date.toNat < 2 ^ 16
  time_word : time.toNat < 2 ^ 16
  day : 1 ≤ date.toNat % 2 ^ 5 ∧ date.toNat % 2 ^ 5 ≤ 31
  month : 1 ≤ date.toNat / 2 ^ 5 % 2 ^ 4 ∧ date.toNat / 2 ^ 5 % 2 ^ 4 ≤ 12
  year : date.toNat / 2 ^ 9 ≤ 127
  hours : time.toNat / 2 ^ 11 ≤ 23
  minutes : time.toNat / 2 ^ 5 % 2 ^ 6 ≤ 59
  seconds : time.toNat % 2 ^ 5 ≤ 29

theorem documentedWords {date time : BitVec 32} {d : Date} {c : Clock} (hdate : DateWord date d)
    (htime : TimeWord time c)
    : DocumentedWords date time := by
  have := d.day_pos
  have := d.day_le_31
  have := d.month_lt
  have := c.hour_lt
  have := c.minute_lt
  have := c.second_lt
  obtain ⟨hword, hyear, hmonth, hday⟩ := hdate
  obtain ⟨hword', hhour, hminute, hsecond⟩ := htime
  constructor
  all_goals omega

/--
The round trip. A time loses no more than an odd second, and the words of a real date and time
nothing.
-/
theorem dostimeInt_roundTrip {px : Posix σ} (hpx : Utc px)
    : (∀ t, DosTime t → ∀ s s', ∃ date time,
        dostimeInt px t s = ⟨0, some (date, time), s⟩ ∧ DocumentedWords date time
          ∧ unixtimeInt px date time s' = ⟨0, some (t - t % 2), s'⟩)
      ∧ ∀ date time d c, DateWord date d → TimeWord time c → ∀ s s', ∃ t,
        unixtimeInt px date time s = ⟨0, some t, s⟩
          ∧ dostimeInt px t s' = ⟨0, some (date, time), s'⟩ := by
  constructor
  . intro t ht s s'
    have hdate := dateWord_dostimeIntDate ht
    have htime := timeWord_dostimeIntTime t
    refine ⟨_, _, dostimeInt_eq (hpx.localtime t ht) s, documentedWords hdate htime, ?_⟩
    rw [unixtimeInt_eq hpx hdate htime, timestamp_evenClock, timestamp_dateOf_clockOf]
  . intro date time d c hdate htime s s'
    have ht := DosTime.of_dateWord hdate c
    refine ⟨_, unixtimeInt_eq hpx hdate htime s, ?_⟩
    have hdate' := dateWord_dostimeIntDate ht
    have htime' := timeWord_dostimeIntTime (timestamp d c)
    rw [dateOf_timestamp] at hdate'
    rw [clockOf_timestamp, htime.evenClock_eq] at htime'
    rw [dostimeInt_eq (hpx.localtime _ ht), hdate'.unique hdate, htime'.unique htime]

def greenwich : Posix Unit where
  __ := (default : Posix Unit)
  localtime := fun t => some (.ofTime t)
  mktime := Tm.toTime

theorem dostimeInt_roundTrip_greenwich
    : (∃ date time, dostimeInt greenwich 951823353 { os := () } = ⟨0, some (date, time), { os := () }⟩
        ∧ unixtimeInt greenwich date time { os := () } = ⟨0, some 951823352, { os := () }⟩)
      ∧ ∃ t, unixtimeInt greenwich 0xff9f 0xbf7d { os := () } = ⟨0, some t, { os := () }⟩
        ∧ dostimeInt greenwich t { os := () } = ⟨0, some (0xff9f, 0xbf7d), { os := () }⟩ := by
  have hutc : Utc greenwich := ⟨fun _ _ => rfl, fun _ => rfl⟩
  obtain ⟨hencode, hdecode⟩ := dostimeInt_roundTrip hutc
  constructor
  . have ht : DosTime 951823353 := by
      unfold DosTime
      decide +kernel
    obtain ⟨date, time, hwords, -, ht⟩ := hencode 951823353 ht { os := () } { os := () }
    exact ⟨date, time, hwords, ht⟩
  . let d : Date := ⟨2107, 11, 31, by decide, by decide, by decide⟩
    let c : Clock := ⟨23, 59, 58, by decide, by decide, by decide⟩
    exact hdecode 0xff9f 0xbf7d d c ⟨by decide, by decide, by decide, by decide⟩
      ⟨by decide, by decide, by decide, by decide⟩ { os := () } { os := () }

end Dosix
