import Snippet.Instant

/-!
# Days and dates

The date of a day tells the day (`toDays_ofDays`), and its parts are within the bounds of a calendar
(`month_ofDays`, `day_ofDays`). A day is in one of the eras of 400 years, and in
an era it has a century, a group of four years in that, a year of the group, and a number in the
year: its `YearParts`. Years start with March, so a leap day is the last day of its year, and the
divisions in `CalendarDate.ofDays` find the year although they count days by the thousand.
-/

namespace Snippet.CalendarDate

/-! ### The years of an era -/

/-- The century of a day of an era, the group of four years in it, the year of that group, and the
number of the day in the year. Only the last year of a group has 366 days, and that of the last
group of a century only where the era ends. -/
structure YearParts (dayOfEra : Nat) where
  century : Nat
  group : Nat
  year : Nat
  day : Nat
  century_lt : century < 4
  group_lt : group < 25
  year_lt : year < 4
  day_lt : day < 366
  leap : day = 365 → year = 3 ∧ (group = 24 → century = 3)
  total : dayOfEra = 36524 * century + 1461 * group + 365 * year + day

/-- Every day of an era has such parts. -/
theorem exists_yearParts {dayOfEra : Nat} (h : dayOfEra < 146097) :
    Nonempty (YearParts dayOfEra) := by
  -- the last day of a longer year or era does not start another one
  obtain ⟨century, hcentury⟩ : ∃ c, c = min (dayOfEra / 36524) 3 := ⟨_, rfl⟩
  obtain ⟨dayOfCentury, hdayOfCentury⟩ : ∃ d, d = dayOfEra - 36524 * century := ⟨_, rfl⟩
  obtain ⟨group, hgroup⟩ : ∃ g, g = dayOfCentury / 1461 := ⟨_, rfl⟩
  obtain ⟨dayOfGroup, hdayOfGroup⟩ : ∃ d, d = dayOfCentury % 1461 := ⟨_, rfl⟩
  obtain ⟨year, hyear⟩ : ∃ y, y = min (dayOfGroup / 365) 3 := ⟨_, rfl⟩
  exact ⟨⟨century, group, year, dayOfGroup - 365 * year, by omega, by omega, by omega, by omega,
    by omega, by omega⟩⟩

namespace YearParts

variable {dayOfEra : Nat} (p : YearParts dayOfEra)

/-- The number of the year in its era. -/
def yearOfEra : Nat :=
  100 * p.century + 4 * p.group + p.year

theorem yearOfEra_lt : p.yearOfEra < 400 := by
  have := p.century_lt
  have := p.group_lt
  have := p.year_lt
  rw [yearOfEra]
  omega

/-- The days taken off before the division are the leap days before the year, and perhaps one more.
That one is taken off on a leap day, and never on the first day of a year. -/
theorem yearOfEra_eq :
    (dayOfEra - dayOfEra / 1460 + dayOfEra / 36524 - dayOfEra / 146096) / 365 = p.yearOfEra := by
  obtain ⟨century, group, year, day, hcentury, hgroup, hyear, hday, hleap, htotal⟩ := p
  rw [yearOfEra]
  dsimp only
  obtain ⟨more, hmore⟩ : ∃ n, n = (24 * century + group + 365 * year + day) / 1460 := ⟨_, rfl⟩
  have hfirst : more ≤ day := by omega
  have hlast : day - more < 365 := by omega
  have hcenturies : dayOfEra / 36524 = century + dayOfEra / 146096 := by
    obtain hend | hend : dayOfEra < 36524 * (century + 1) ∨ dayOfEra = 146096 := by omega
    · rw [Nat.div_eq_of_lt_le (k := century) (by omega) (by omega),
        Nat.div_eq_of_lt (by omega : dayOfEra < 146096)]
      rfl
    · omega
  have hgroups : dayOfEra / 1460 = 25 * century + group + more := by
    have hrest : dayOfEra =
        (24 * century + group + 365 * year + day) + 1460 * (25 * century + group) := by
      omega
    rw [hrest, Nat.add_mul_div_left _ _ (by decide : 0 < 1460), ← hmore, Nat.add_comm]
  have hdays : dayOfEra - dayOfEra / 1460 + dayOfEra / 36524 - dayOfEra / 146096 =
      365 * (100 * century + 4 * group + year) + (day - more) := by
    rw [hgroups, hcenturies]
    generalize dayOfEra / 146096 = e
    clear hmore hgroups hcenturies hleap
    omega
  rw [hdays, Nat.mul_add_div (by decide), Nat.div_eq_of_lt hlast, Nat.add_zero]

/-- The days before a year are those of its years and their leap days. -/
theorem total_eq :
    dayOfEra = 365 * p.yearOfEra + p.yearOfEra / 4 - p.yearOfEra / 100 + p.day := by
  obtain ⟨century, group, year, day, hcentury, hgroup, hyear, hday, hleap, htotal⟩ := p
  rw [yearOfEra]
  dsimp only
  omega

end YearParts

/-! ### The months of a year -/

/-- The month of a day of a year that starts with March. -/
def monthFromMarch (day : Nat) : Nat :=
  (5 * day + 2) / 153

/-- The number of days before a month. -/
def daysBefore (month : Nat) : Nat :=
  (153 * month + 2) / 5

section Months

variable {day : Nat}

theorem monthFromMarch_lt (h : day < 366) : monthFromMarch day < 12 := by
  rw [monthFromMarch]
  omega

theorem daysBefore_le (day : Nat) : daysBefore (monthFromMarch day) ≤ day := by
  rw [daysBefore, monthFromMarch]
  omega

theorem lt_daysBefore (day : Nat) : day < daysBefore (monthFromMarch day) + 31 := by
  rw [daysBefore, monthFromMarch]
  omega

end Months

/-- The date of a day by its year, if that starts with March, its month and its place in the month.
The last two months belong to the next year. -/
def ofMarch (year : Int) (month day : Nat) : CalendarDate :=
  if month < 10 then ⟨year, month + 3, day⟩ else ⟨year + 1, month - 9, day⟩

theorem toDays_ofMarch (year : Int) {month : Nat} (hmonth : month < 12) (day : Nat) :
    (ofMarch year month day).toDays =
      year / 400 * 146097 + (year % 400 * 365 + year % 400 / 4 - year % 400 / 100 +
        (daysBefore month + day - 1)) - 719468 := by
  have hbefore : (daysBefore month : Int) = (153 * (month : Int) + 2) / 5 := by
    rw [daysBefore]
    omega
  rw [ofMarch]
  split
  · have hmonth : ((month + 3 : Nat) : Int) - 3 = month := by omega
    rw [toDays]
    dsimp only
    rw [if_neg (by omega), if_neg (by omega), hmonth, hbefore]
  · have hmonth : ((month - 9 : Nat) : Int) + 9 = month := by omega
    rw [toDays]
    dsimp only
    rw [if_pos (by omega), if_pos (by omega), hmonth, hbefore, Int.add_sub_cancel]

/-! ### Dates of days -/

/-- What the date of a day is put together from: the era, and the parts of the day in it. -/
theorem exists_ofDays (days : Int) :
    ∃ (dayOfEra : Nat) (p : YearParts dayOfEra),
      (dayOfEra : Int) = (days + 719468) % 146097 ∧
      ofDays days = ofMarch (p.yearOfEra + (days + 719468) / 146097 * 400) (monthFromMarch p.day)
        (p.day - daysBefore (monthFromMarch p.day) + 1) := by
  obtain ⟨dayOfEra, hdayOfEra⟩ := Int.eq_ofNat_of_zero_le
    (Int.emod_nonneg (days + 719468) (by decide : (146097 : Int) ≠ 0))
  have hlt : dayOfEra < 146097 := by omega
  obtain ⟨p⟩ := exists_yearParts hlt
  refine ⟨dayOfEra, p, hdayOfEra.symm, ?_⟩
  have hday : dayOfEra - (365 * p.yearOfEra + p.yearOfEra / 4 - p.yearOfEra / 100) = p.day := by
    have := p.total_eq
    omega
  have hmonth := monthFromMarch_lt p.day_lt
  rw [ofDays, hdayOfEra, Int.toNat_natCast, p.yearOfEra_eq, hday, ← monthFromMarch, ← daysBefore,
    ofMarch]
  split
  · rw [if_neg (by omega)]
  · rw [if_pos (by omega)]

/-- The date of a day tells the day. -/
theorem toDays_ofDays (days : Int) : (ofDays days).toDays = days := by
  obtain ⟨dayOfEra, p, hdayOfEra, hdate⟩ := exists_ofDays days
  have htotal := p.total_eq
  have hlt := p.yearOfEra_lt
  have hbefore := daysBefore_le p.day
  obtain ⟨year, hyear⟩ : ∃ y : Int, y = p.yearOfEra + (days + 719468) / 146097 * 400 := ⟨_, rfl⟩
  have hera : year / 400 = (days + 719468) / 146097 := by omega
  have hyearOfEra : year % 400 = p.yearOfEra := by omega
  rw [hdate, ← hyear, toDays_ofMarch year (monthFromMarch_lt p.day_lt), hera, hyearOfEra]
  omega

theorem month_ofDays (days : Int) : 1 ≤ (ofDays days).month ∧ (ofDays days).month ≤ 12 := by
  obtain ⟨_, p, -, hdate⟩ := exists_ofDays days
  have hmonth := monthFromMarch_lt p.day_lt
  rw [hdate, ofMarch]
  split <;> dsimp only <;> omega

theorem day_ofDays (days : Int) : 1 ≤ (ofDays days).day ∧ (ofDays days).day ≤ 31 := by
  obtain ⟨_, p, -, hdate⟩ := exists_ofDays days
  have hday := lt_daysBefore p.day
  rw [hdate, ofMarch]
  split <;> dsimp only <;> omega

end Snippet.CalendarDate
