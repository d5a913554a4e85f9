import Mathlib.Order.Bounds.Basic
import Mathlib.Algebra.Order.Ring.Int

/-! The trading hours of the exchanges.

An instant is counted in microseconds from the start of the year 1, whose first day is a
Monday, and all times are in UTC.
-/

set_option autoImplicit false

namespace MiniHedge.MockExchange

structure TimeOfDay where
  micros : Int
  nonneg : 0 ≤ micros
  inDay : micros < 86400000000

/-- `time(hour, minute)`. -/
def time (hour minute : ℕ) (valid : hour < 24 ∧ minute < 60 := by decide) : TimeOfDay where
  micros := (hour * 60 + minute) * 60000000
  nonneg := by omega
  inDay := by omega

def weekday (now : Int) : Int := now / 86400000000 % 7

def timeOf (now : Int) : Int := now % 86400000000

/-- `datetime.combine(now.date(), t)`. -/
def combine (now : Int) (t : TimeOfDay) : Int := now / 86400000000 * 86400000000 + t.micros

structure ExchangeSchedule where
  exchangeId : String
  openUtc : TimeOfDay
  closeUtc : TimeOfDay
  tradingDays : List Int := [0, 1, 2, 3, 4]

namespace ExchangeSchedule

variable (s : ExchangeSchedule)

def IsOpen (now : Int) : Prop :=
  weekday now ∈ s.tradingDays ∧ s.openUtc.micros ≤ timeOf now ∧ timeOf now < s.closeUtc.micros

instance (now : Int) : Decidable (s.IsOpen now) := inferInstanceAs (Decidable (_ ∧ _))

def minutesSinceOpen (now : Int) : Int :=
  if s.IsOpen now then (now - combine now s.openUtc).tdiv 60000000 else -1

def tradingMinutes : Int := (s.closeUtc.micros - s.openUtc.micros).tdiv 60000000

/-- The loop over the days that are no trading days, so many times at most. -/
def skipDays : ℕ → Int → Option Int
  | 0, _ => none
  | fuel + 1, candidate =>
    if weekday candidate ∈ s.tradingDays then some candidate else skipDays fuel (candidate + 86400000000)

/-- The time of opening today, or tomorrow where it has passed. -/
def candidate (now : Int) : Int :=
  if combine now s.openUtc ≤ now then combine now s.openUtc + 86400000000 else combine now s.openUtc

def nextOpen (fuel : ℕ) (now : Int) : Option Int := s.skipDays fuel (s.candidate now)

end ExchangeSchedule

def exchangeSchedules : List ExchangeSchedule := [
  { exchangeId := "NYSE", openUtc := time 14 30, closeUtc := time 21 0 },
  { exchangeId := "NASDAQ", openUtc := time 14 30, closeUtc := time 21 0 },
  { exchangeId := "LSE", openUtc := time 8 0, closeUtc := time 16 30 },
  { exchangeId := "XETRA", openUtc := time 8 0, closeUtc := time 16 30 },
  { exchangeId := "EURONEXT", openUtc := time 8 0, closeUtc := time 16 30 },
  { exchangeId := "CPH", openUtc := time 8 0, closeUtc := time 16 0 },
  { exchangeId := "TSE", openUtc := time 0 0, closeUtc := time 6 0 },
  { exchangeId := "SIX", openUtc := time 8 0, closeUtc := time 16 30 },
  { exchangeId := "KRX", openUtc := time 0 0, closeUtc := time 6 30 },
  { exchangeId := "TWSE", openUtc := time 1 0, closeUtc := time 5 30 },
  { exchangeId := "HKEX", openUtc := time 1 30, closeUtc := time 8 0 },
  { exchangeId := "ASX", openUtc := time 0 0, closeUtc := time 6 0 },
  { exchangeId := "TSX", openUtc := time 14 30, closeUtc := time 21 0 },
  { exchangeId := "B3", openUtc := time 13 0, closeUtc := time 20 0 }]

def getSchedule (exchange : String) : Option ExchangeSchedule :=
  exchangeSchedules.find? (·.exchangeId = exchange)

/-- An exchange that is not known is taken to be open. -/
def isMarketOpen (exchange : String) (now : Int) : Bool :=
  ((getSchedule exchange).map fun s => decide (s.IsOpen now)).getD true

/-! ## Openings -/

namespace ExchangeSchedule

/-- The exchange opens at this instant. -/
def Opening (s : ExchangeSchedule) (o : Int) : Prop := timeOf o = s.openUtc.micros ∧ weekday o ∈ s.tradingDays

variable {s : ExchangeSchedule}

theorem weekday_add_days (t : Int) (k : ℕ) : weekday (t + k * 86400000000) = (weekday t + k) % 7 := by
  rw [weekday, weekday]
  omega

/-- An exchange is open for the length of its session from each opening on. -/
theorem isOpen_iff {now : Int} :
    s.IsOpen now ↔ ∃ o, s.Opening o ∧ o ≤ now ∧ now < o + (s.closeUtc.micros - s.openUtc.micros) := by
  have opens := s.openUtc.nonneg
  have opens' := s.openUtc.inDay
  have closes := s.closeUtc.inDay
  constructor
  · rintro ⟨trades, later, earlier⟩
    rw [timeOf] at later earlier
    have same : weekday (combine now s.openUtc) = weekday now := by
      rw [weekday, weekday, combine]
      omega
    refine ⟨combine now s.openUtc, ⟨?_, same ▸ trades⟩, ?_, ?_⟩
    · rw [timeOf, combine]
      omega
    · rw [combine]
      omega
    · rw [combine]
      omega
  · rintro ⟨o, ⟨at_open, trades⟩, later, earlier⟩
    rw [timeOf] at at_open
    have same : weekday now = weekday o := by
      rw [weekday, weekday]
      omega
    refine ⟨same ▸ trades, ?_, ?_⟩
    · rw [timeOf]
      omega
    · rw [timeOf]
      omega

/-- What is skipped to is the first opening from the candidate on. -/
theorem skipDays_least {fuel : ℕ} {candidate found : Int} (at_open : timeOf candidate = s.openUtc.micros)
    (reached : s.skipDays fuel candidate = some found) : IsLeast {o | s.Opening o ∧ candidate ≤ o} found := by
  induction fuel generalizing candidate with
  | zero => cases reached
  | succ fuel ih =>
    rw [skipDays] at reached
    split at reached
    · rename_i trades
      cases reached
      exact ⟨⟨⟨at_open, trades⟩, le_rfl⟩, fun o opening => opening.2⟩
    · rename_i rests
      have next_at_open : timeOf (candidate + 86400000000) = s.openUtc.micros := by
        rw [timeOf] at at_open ⊢
        omega
      obtain ⟨⟨opening, later⟩, least⟩ := ih next_at_open reached
      refine ⟨⟨opening, by omega⟩, ?_⟩
      rintro o ⟨opening', later'⟩
      apply least
      refine ⟨opening', ?_⟩
      -- the day of the candidate has no other opening
      by_contra earlier
      have same : o = candidate := by
        have at_open' := opening'.1
        rw [timeOf] at at_open at_open'
        omega
      exact rests (same ▸ opening'.2)

theorem isSome_skipDays {fuel k : ℕ} {candidate : Int} (within : k < fuel)
    (trades : weekday (candidate + k * 86400000000) ∈ s.tradingDays) : (s.skipDays fuel candidate).isSome := by
  induction fuel generalizing candidate k with
  | zero => exact absurd within (Nat.not_lt_zero k)
  | succ fuel ih =>
    rw [skipDays]
    split
    · rfl
    · rename_i rests
      cases k with
      | zero =>
        rw [Nat.cast_zero, zero_mul, add_zero] at trades
        exact absurd trades rests
      | succ k =>
        apply ih (Nat.lt_of_succ_lt_succ within)
        rwa [show candidate + 86400000000 + (k : Int) * 86400000000 = candidate + (k + 1 : ℕ) * 86400000000 by
          push_cast; omega]

theorem candidate_next (s : ExchangeSchedule) (now : Int) :
    timeOf (s.candidate now) = s.openUtc.micros ∧ now < s.candidate now ∧ s.candidate now ≤ now + 86400000000 := by
  have opens := s.openUtc.nonneg
  have opens' := s.openUtc.inDay
  rw [candidate, timeOf, combine]
  split <;> omega

theorem isSome_nextOpen (trades : ∃ d ∈ s.tradingDays, 0 ≤ d ∧ d < 7) {fuel : ℕ} (week : 7 ≤ fuel) (now : Int) :
    (s.nextOpen fuel now).isSome := by
  obtain ⟨d, among, nonneg, below⟩ := trades
  have later : 0 ≤ (d - weekday (s.candidate now)) % 7 := Int.emod_nonneg _ (by decide)
  have soon : (d - weekday (s.candidate now)) % 7 < 7 := Int.emod_lt_of_pos _ (by decide)
  apply isSome_skipDays (k := ((d - weekday (s.candidate now)) % 7).toNat) (by omega)
  rw [weekday_add_days, Int.toNat_of_nonneg later]
  rwa [show (weekday (s.candidate now) + (d - weekday (s.candidate now)) % 7) % 7 = d by omega]

theorem nextOpen_least {fuel : ℕ} {now next : Int} (found : s.nextOpen fuel now = some next) :
    IsLeast {o | s.Opening o ∧ now < o} next := by
  obtain ⟨at_open, after, soon⟩ := candidate_next s now
  obtain ⟨⟨opening, later⟩, least⟩ := skipDays_least at_open found
  refine ⟨⟨opening, after.trans_le later⟩, ?_⟩
  rintro o ⟨opening', later'⟩
  apply least
  refine ⟨opening', ?_⟩
  have at_open' := opening'.1
  rw [timeOf] at at_open at_open'
  omega

/-- The next opening is found within a week and is the first one after the instant: the exchange opens then, and one
that is closed stays closed up to it. -/
theorem next_open_first (trades : ∃ d ∈ s.tradingDays, 0 ≤ d ∧ d < 7) {fuel : ℕ} (week : 7 ≤ fuel) (now : Int) :
    ∃ next, s.nextOpen fuel now = some next ∧ IsLeast {o | s.Opening o ∧ now < o} next ∧
      (s.openUtc.micros < s.closeUtc.micros → s.IsOpen next) ∧
      (¬ s.IsOpen now → ∀ t, now ≤ t → t < next → ¬ s.IsOpen t) := by
  obtain ⟨next, found⟩ := Option.isSome_iff_exists.mp (isSome_nextOpen trades week now)
  have first := nextOpen_least found
  refine ⟨next, found, first, ?_, ?_⟩
  · intro session
    exact isOpen_iff.mpr ⟨next, first.1.1, le_rfl, by omega⟩
  · intro closed t from_now before isOpen
    obtain ⟨o, opening, started, running⟩ := isOpen_iff.mp isOpen
    by_cases later : now < o
    · exact absurd (first.2 ⟨opening, later⟩) (by omega)
    · exact closed (isOpen_iff.mpr ⟨o, opening, by omega, by omega⟩)

/-- Every exchange of the table has a session and days to trade on. -/
theorem exchangeSchedules_trade : ∀ s ∈ exchangeSchedules,
    s.openUtc.micros < s.closeUtc.micros ∧ ∃ d ∈ s.tradingDays, 0 ≤ d ∧ d < 7 := by
  decide

/-- On a Saturday at noon, New York stays closed up to Monday at half past two. -/
theorem new_york_opens_on_monday : ∃ s, getSchedule "NYSE" = some s ∧ s.nextOpen 7 475200000000 = some 657000000000 ∧
    ∀ t, 475200000000 ≤ t → t < 657000000000 → ¬ s.IsOpen t := by
  let s : ExchangeSchedule := { exchangeId := "NYSE", openUtc := time 14 30, closeUtc := time 21 0 }
  have found : s.nextOpen 7 475200000000 = some 657000000000 := by decide
  obtain ⟨next, found', -, -, closed⟩ := next_open_first (s := s) (by decide) le_rfl 475200000000
  cases found.symm.trans found'
  exact ⟨s, rfl, found, closed (by decide)⟩

/-- The minutes of a session are counted from its opening. -/
theorem minutesSinceOpen_eq {now : Int} (isOpen : s.IsOpen now) :
    ∃ o, s.Opening o ∧ o + s.minutesSinceOpen now * 60000000 ≤ now ∧
      now < o + (s.minutesSinceOpen now + 1) * 60000000 ∧ 0 ≤ s.minutesSinceOpen now ∧
      s.minutesSinceOpen now ≤ s.tradingMinutes := by
  have opens := s.openUtc.nonneg
  have opens' := s.openUtc.inDay
  have counted : s.minutesSinceOpen now = (now - combine now s.openUtc).tdiv 60000000 := if_pos isOpen
  obtain ⟨trades, later, earlier⟩ := isOpen
  have same : weekday (combine now s.openUtc) = weekday now := by
    rw [weekday, weekday, combine]
    omega
  have at_open : timeOf (combine now s.openUtc) = s.openUtc.micros := by
    rw [timeOf, combine]
    omega
  have split : now = combine now s.openUtc + (timeOf now - s.openUtc.micros) := by
    rw [combine, timeOf]
    omega
  refine ⟨combine now s.openUtc, ⟨at_open, same ▸ trades⟩, ?_⟩
  rw [counted, tradingMinutes, Int.tdiv_eq_ediv_of_nonneg (by omega), Int.tdiv_eq_ediv_of_nonneg (by omega)]
  omega

end ExchangeSchedule

end MiniHedge.MockExchange
