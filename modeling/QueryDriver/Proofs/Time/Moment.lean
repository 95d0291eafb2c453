import QueryDriver.Proofs.Effect
import QueryDriver.Proofs.Number.Whole
import QueryDriver.Proofs.Time.Calendar
import QueryDriver.Value.Literal

/-!
# Moments and points in time

A moment whose parts are within their bounds is found back from the reading of its own clock. From
the point in time it is found back on the clock of its offset, as long as the point itself is in a
year of at most four digits: the moment is made on the universal clock first. A point in time at a
whole second passes through the double of its seconds.
-/

namespace QueryDriver

namespace Moment

/-- The parts of the moment are within their bounds, and its day is a day of its month. -/
structure WellFormed (t : Moment) : Prop where
  year : 1 ≤ t.year ∧ t.year ≤ 9999
  month : 1 ≤ t.month ∧ t.month ≤ 12
  day : 1 ≤ t.day ∧ t.day ≤ Calendar.daysInMonth t.year t.month
  hour : t.hour < 24
  minute : t.minute < 60
  second : t.second < 60
  micro : t.micro < 1000000

/-- The point in time is in a year of at most four digits on the universal clock. -/
def InYears (micros : Int) : Prop :=
  Calendar.daysOfDate 1 1 1 ≤ micros / 86400000000 ∧
    micros / 86400000000 < Calendar.daysOfDate 10000 1 1

end Moment

namespace Value

theorem checkPart_eq_ok {part : String} {least most : Nat} {n : Int} {k : Nat}
    (h : checkPart part least most n = .ok k) : least ≤ k ∧ k ≤ most := by
  unfold checkPart at h
  split at h <;> cases h
  omega

/-- The moments that can be written are well formed. -/
theorem wellFormed_of_momentOf {year month day hour minute second micro : Int} {offset : Offset}
    {t : Moment}
    (h : momentOf year month day hour minute second micro offset = .ok (.moment t)) :
    t.WellFormed := by
  unfold momentOf at h
  split at h
  next => cases h
  next hyear =>
    obtain ⟨month, hmonth, h⟩ := bind_ok h
    split at h
    next => cases h
    next hday =>
      obtain ⟨hour, hhour, h⟩ := bind_ok h
      obtain ⟨minute, hminute, h⟩ := bind_ok h
      obtain ⟨second, hsecond, h⟩ := bind_ok h
      obtain ⟨micro, hmicro, h⟩ := bind_ok h
      cases h
      have hyear' : (year.toNat : Int) = year := by omega
      rw [← hyear'] at hday
      exact ⟨by dsimp only; omega, checkPart_eq_ok hmonth, by dsimp only; omega,
        Nat.lt_succ_of_le (checkPart_eq_ok hhour).2,
        Nat.lt_succ_of_le (checkPart_eq_ok hminute).2,
        Nat.lt_succ_of_le (checkPart_eq_ok hsecond).2,
        Nat.lt_succ_of_le (checkPart_eq_ok hmicro).2⟩

end Value

namespace Moment

variable {t : Moment}

/-- A moment is found back from the reading of its own clock. -/
theorem ofLocalMicros_localMicros (ht : t.WellFormed) (offset : Offset) :
    ofLocalMicros t.localMicros offset = some { t with offset := offset } := by
  obtain ⟨⟨hyear, hyear'⟩, ⟨hmonth, hmonth'⟩, ⟨hday, hday'⟩, hhour, hminute, hsecond, hmicro⟩ := ht
  obtain ⟨days, hdays⟩ : ∃ days, days = Calendar.daysOfDate t.year t.month t.day := ⟨_, rfl⟩
  have hseconds : t.localMicros / 1000000 =
      days * 86400 + (t.hour * 3600 + t.minute * 60 + t.second : Nat) := by
    rw [localMicros, ← hdays]
    omega
  have hmicros : (t.localMicros % 1000000).toNat = t.micro := by
    rw [localMicros, ← hdays]
    omega
  have hdate : Calendar.dateOfDays (t.localMicros / 1000000 / 86400) =
      ((t.year : Int), t.month, t.day) := by
    have hday : t.localMicros / 1000000 / 86400 = days := by omega
    rw [hday, hdays]
    exact Calendar.dateOfDays_daysOfDate hmonth hmonth' ‹_› hday'
  have hclock : (t.localMicros / 1000000 % 86400).toNat =
      t.hour * 3600 + t.minute * 60 + t.second := by omega
  have hhours : (t.hour * 3600 + t.minute * 60 + t.second) / 3600 = t.hour := by omega
  have hminutes : (t.hour * 3600 + t.minute * 60 + t.second) / 60 % 60 = t.minute := by omega
  have hrest : (t.hour * 3600 + t.minute * 60 + t.second) % 60 = t.second := by omega
  simp only [ofLocalMicros, hdate, hclock, hmicros, hhours, hminutes, hrest, Int.toNat_natCast]
  rw [if_pos (by omega)]

/-- Every point in time within the years of the calendar has a reading on the universal clock. -/
theorem ofLocalMicros_isSome {micros : Int} (h : InYears micros) (offset : Offset) :
    (ofLocalMicros micros offset).isSome = true := by
  have hdays : micros / 1000000 / 86400 = micros / 86400000000 := by omega
  have hyear := Calendar.year_dateOfDays h.1 h.2
  simp only [ofLocalMicros, hdays, hyear, and_self, if_true, Option.isSome_some]

/-- A moment is found back from its point in time on the clock of its offset. -/
theorem ofEpochMicros_epochMicros {east : Duration} (ht : t.WellFormed)
    (hoffset : t.offset = .fixed east) (hyears : InYears (t.epochMicros east)) :
    ofEpochMicros (t.epochMicros east) east = some t := by
  obtain ⟨u, hu⟩ := Option.isSome_iff_exists.1 (ofLocalMicros_isSome hyears .naive)
  have hclock : t.epochMicros east + east.micros = t.localMicros := Int.sub_add_cancel _ _
  have hback := ofLocalMicros_localMicros ht t.offset
  rw [← hclock] at hback
  unfold ofEpochMicros
  rw [hu]
  dsimp only
  rw [← hoffset]
  exact hback

/-- A point in time at a whole second is found back from the double of its seconds, and the double
is a finite one. -/
theorem ofDouble_epochSeconds {east : Duration} (hyears : InYears (t.epochMicros east))
    (hwhole : 1000000 ∣ t.epochMicros east) : (t.epochSeconds east).isFinite = true ∧
      Duration.ofDouble (t.epochSeconds east) = ⟨t.epochMicros east⟩ := by
  obtain ⟨n, hn⟩ := hwhole
  have hfirst : Calendar.daysOfDate 1 1 1 = -719162 := by decide
  have hend : Calendar.daysOfDate 10000 1 1 = 2932897 := by decide
  obtain ⟨hlower, hupper⟩ := hyears
  rw [hfirst] at hlower
  rw [hend] at hupper
  have hmagnitude : (t.epochMicros east).natAbs = n.natAbs * 1000000 := by omega
  obtain ⟨x, hx, hxn⟩ := Double.isWhole_ofRatio (decide (t.epochMicros east < 0))
    (show n.natAbs < 2 ^ 53 by omega) (show 1000000 ≠ 0 by decide)
  have hseconds : t.epochSeconds east = x := by
    rw [epochSeconds, hmagnitude, hx, Option.getD_some]
  refine ⟨hseconds ▸ hxn.finite, ?_⟩
  rw [hseconds, Duration.ofDouble_of_isWhole hxn, Duration.ofSeconds, Duration.mk.injEq]
  by_cases hneg : t.epochMicros east < 0
  · rw [decide_eq_true hneg, if_pos rfl]
    omega
  · rw [decide_eq_false hneg, if_neg Bool.false_ne_true]
    omega

end Moment

end QueryDriver
