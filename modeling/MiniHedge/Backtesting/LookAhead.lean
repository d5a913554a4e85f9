import MiniHedge.Backtesting.Books

/-! What a backtest has done up to a date depends on the prices up to that date alone. -/

set_option autoImplicit false

namespace MiniHedge.Backtesting

open MiniHedge.Python MiniHedge.Library

/-! ## The past of a date -/

section Past

variable (last : CivilDate)

def History.upTo (hist : History) : History := hist.filter fun pt => pt.1.toordinal ≤ last.toordinal

def tradesUpTo (trades : List BacktestTrade) : List BacktestTrade :=
  trades.filter fun t => t.date.toordinal ≤ last.toordinal

def curveUpTo (curve : List EquityCurvePoint) : List EquityCurvePoint :=
  curve.filter fun pt => pt.date.toordinal ≤ last.toordinal

/-- The trades and the points of the curve up to a date. -/
def BacktestResult.upTo (result : BacktestResult) : List BacktestTrade × List EquityCurvePoint :=
  (tradesUpTo last result.trades, curveUpTo last result.equityCurve)

def State.upTo (s : State) : List BacktestTrade × List EquityCurvePoint :=
  (tradesUpTo last s.trades, curveUpTo last s.equityCurve)

/-- Each instrument has the same price in both data sets, on each date up to this one. -/
def SamePrices (p q : PriceData) : Prop :=
  ∀ inst date, date.toordinal ≤ last.toordinal → priceOn p inst date = priceOn q inst date

/-- The points up to a date, in the order of the data: of each instrument, and of the instruments that have any. -/
def seen (p : PriceData) : List (String × History) :=
  (p.items.map fun entry => (entry.1, entry.2.upTo last)).filter fun entry => entry.2 ≠ []

end Past

section Seen

variable {last : CivilDate} {p q : PriceData}

theorem mem_seen {inst : String} {hist : History} :
    (inst, hist) ∈ seen last p ↔ hist ≠ [] ∧ (p.get inst []).upTo last = hist := by
  rw [seen, List.mem_filter, decide_eq_true_iff, List.mem_map, and_comm]
  apply and_congr_right
  intro nonempty
  constructor
  · rintro ⟨⟨key, whole⟩, member, same⟩
    obtain ⟨rfl, rfl⟩ := Prod.mk.inj same
    rw [Dictionary.get_of_mem [] member]
  · -- an instrument without points has no key to be found by
    rintro rfl
    have held : inst ∈ p.keys := by
      by_contra absent
      rw [Dictionary.get_absent [] absent] at nonempty
      exact nonempty rfl
    obtain ⟨whole, found⟩ := p.mem_keys.mp held
    have member := p.mem_items.mpr found
    exact ⟨(inst, whole), member, by rw [Dictionary.get_of_mem [] member]⟩

theorem upTo_eq_of_seen (same : seen last p = seen last q) (inst : String) :
    (p.get inst []).upTo last = (q.get inst []).upTo last := by
  by_cases empty : (p.get inst []).upTo last = []
  · by_contra other
    rw [empty] at other
    have member := mem_seen.mpr ⟨Ne.symm other, rfl⟩
    rw [← same] at member
    exact (mem_seen.mp member).1 ((mem_seen.mp member).2.symm.trans empty)
  · have member := mem_seen.mpr ⟨empty, rfl⟩
    rw [same] at member
    exact (mem_seen.mp member).2.symm

/-- A filter that looks no further than a date sees the same of the points up to the date. -/
theorem filter_upTo (hist : History) {keeps : CivilDate × Decimal → Bool}
    (early : ∀ pt, keeps pt = true → pt.1.toordinal ≤ last.toordinal) :
    (hist.upTo last).filter keeps = hist.filter keeps := by
  rw [History.upTo, List.filter_filter]
  apply List.filter_congr
  intro pt _
  cases kept : keeps pt with
  | false => rw [Bool.false_and]
  | true => rw [Bool.true_and, decide_eq_true (early pt kept)]

theorem samePrices_of_seen (same : seen last p = seen last q) : SamePrices last p q := by
  intro inst date within
  have early : ∀ pt : CivilDate × Decimal, decide (pt.1 = date) = true → pt.1.toordinal ≤ last.toordinal := by
    intro pt dated
    rwa [of_decide_eq_true dated]
  rw [priceOn, priceOn, ← filter_upTo _ early, upTo_eq_of_seen same, filter_upTo _ early]

/-- A return is of the points up to the date. -/
theorem periodReturn_upTo (lookback : Nat) {date : CivilDate} (within : date.toordinal ≤ last.toordinal)
    (hist : History) : periodReturn lookback date (hist.upTo last) = periodReturn lookback date hist := by
  have early : ∀ pt : CivilDate × Decimal,
      decide (pt.1.toordinal ≤ date.toordinal) = true → pt.1.toordinal ≤ last.toordinal :=
    fun pt before => (of_decide_eq_true before).trans within
  rw [periodReturn, filter_upTo hist early, periodReturn]

theorem periodReturns_seen (lookback : Nat) {date : CivilDate} (within : date.toordinal ≤ last.toordinal)
    (p : PriceData) : periodReturns lookback date p =
      (seen last p).filterMap fun entry => (periodReturn lookback date entry.2).map (entry.1, ·) := by
  rw [periodReturns, seen, List.filterMap_filter, List.filterMap_map]
  apply List.filterMap_congr
  intro entry _
  -- without points up to the date, the history is too short for any lookback
  by_cases empty : entry.2.upTo last = []
  · rw [← periodReturn_upTo lookback within, empty]
    simp [empty, periodReturn]
  · simp [empty, periodReturn_upTo lookback within]

theorem halfSignal_seen (rank : List (String × Decimal) → List (String × Decimal)) (lookback : Nat)
    (same : seen last p = seen last q) {date : CivilDate} (within : date.toordinal ≤ last.toordinal)
    (prices positions : Amounts) :
    halfSignal rank lookback (some p) date prices positions = halfSignal rank lookback (some q) date prices positions := by
  rw [halfSignal, halfSignal, periodReturns_seen lookback within, periodReturns_seen lookback within, same]

end Seen

/-! ## The dates up to a date -/

section Runs

variable {last : CivilDate} {config : BacktestConfig} {p q : PriceData} {signal signal' : Signal}

theorem early_dates (same : SamePrices last p q) :
    (Backtest.mk config p signal).dates.filter (fun d => d.toordinal ≤ last.toordinal) =
      (Backtest.mk config q signal').dates.filter fun d => d.toordinal ≤ last.toordinal := by
  have ordered := fun b : Backtest => (b.dates_increasing.filter fun d => d.toordinal ≤ last.toordinal)
  have distinct := fun b : Backtest => (ordered b).imp fun {d d'} (before : d.toordinal < d'.toordinal) =>
    fun equal : d = d' => before.ne (congrArg CivilDate.toordinal equal)
  -- increasing lists with the same dates are the same
  refine List.Perm.eq_of_pairwise ?_ (ordered _) (ordered _) ((List.perm_ext_iff_of_nodup (distinct _) (distinct _)).mpr ?_)
  · intro d d' _ _ before after
    exact absurd after before.asymm
  · intro d
    rw [List.mem_filter, List.mem_filter, Backtest.mem_dates, Backtest.mem_dates, decide_eq_true_iff]
    apply and_congr_left
    intro within
    apply and_congr_right
    intro _
    apply exists_congr
    intro inst
    rw [same inst d within]

/-- A date up to this one is done alike with both data sets. -/
theorem day_same (same : SamePrices last p q)
    (signals : ∀ date, date.toordinal ≤ last.toordinal → signal date = signal' date) (e : Enumeration) (s : State)
    {date : CivilDate} (within : date.toordinal ≤ last.toordinal) :
    (Backtest.mk config p signal).day e s date = (Backtest.mk config q signal').day e s date := by
  have prices : (Backtest.mk config p signal).prices date = (Backtest.mk config q signal').prices date := by
    dsimp only [Backtest.prices, currentPrices]
    congr 1
    funext inst
    exact same inst date within
  have rebalancing :
      (Backtest.mk config p signal).rebalancing s date = (Backtest.mk config q signal').rebalancing s date := by
    rw [Backtest.rebalancing, Backtest.rebalancing, prices]
    dsimp only
    rw [signals date within]
  rw [Backtest.day, Backtest.day, Backtest.traded, Backtest.traded, Backtest.instruments, Backtest.instruments, prices,
    rebalancing]

/-- A later date leaves what was done up to this one. -/
theorem upTo_day (b : Backtest) (e : Enumeration) (s : State) {date : CivilDate}
    (late : last.toordinal < date.toordinal) : (b.day e s date).upTo last = s.upTo last := by
  rw [Backtest.day]
  split
  · rfl
  · have none_early : tradesUpTo last ((b.rebalancing s date).made s (b.instruments e s date)) = [] := by
      rw [tradesUpTo, List.filter_eq_nil_iff]
      intro t member
      rw [Rebalancing.made_dated s _ t member]
      exact fun within => not_le.mpr late (of_decide_eq_true within)
    rw [State.upTo, State.upTo, State.record, Backtest.traded, Rebalancing.trades_trades, Rebalancing.equityCurve_trades]
    apply Prod.ext
    · rw [tradesUpTo, List.filter_append, ← tradesUpTo, ← tradesUpTo, none_early, List.append_nil]
    · simp [curveUpTo, State.point, late]

theorem upTo_days (b : Backtest) (e : Enumeration) (s : State) {dates : List CivilDate}
    (late : ∀ date ∈ dates, last.toordinal < date.toordinal) : (dates.foldl (b.day e) s).upTo last = s.upTo last := by
  induction dates generalizing s with
  | nil => rfl
  | cons date rest ih =>
    obtain ⟨first, later⟩ := List.forall_mem_cons.mp late
    rw [List.foldl_cons, ih _ later, upTo_day b e s first]

/-- What was done up to a date is what its own dates have done. -/
theorem upTo_final (b : Backtest) (e : Enumeration) :
    (b.final e).upTo last = (b.after e (b.dates.filter fun d => d.toordinal ≤ last.toordinal)).upTo last := by
  have sorted : b.dates.Pairwise fun d d' => d.toordinal ≤ d'.toordinal :=
    b.dates_increasing.imp fun before => before.le
  have late : ∀ date ∈ b.dates.filter fun d => last.toordinal < d.toordinal, last.toordinal < date.toordinal :=
    fun date member => of_decide_eq_true (List.mem_filter.mp member).2
  rw [Backtest.final, Backtest.after, Backtest.after]
  conv_lhs => rw [← filter_append_of_sorted CivilDate.toordinal sorted last.toordinal]
  -- the dates in order: those up to this one, then the later ones
  rw [List.foldl_append, upTo_days b e _ late]

theorem upTo_run (b : Backtest) (e : Enumeration) (floats : Floats) :
    (b.run floats e).upTo last = (b.final e).upTo last := by
  rw [BacktestResult.upTo, Backtest.trades_run, Backtest.equityCurve_run, State.upTo]

theorem run_same (same : SamePrices last p q)
    (signals : ∀ date, date.toordinal ≤ last.toordinal → signal date = signal' date) (e : Enumeration)
    (floats : Floats) : ((Backtest.mk config p signal).run floats e).upTo last =
      ((Backtest.mk config q signal').run floats e).upTo last := by
  have dates := @early_dates last config p q signal signal' same
  rw [upTo_run, upTo_run, upTo_final, upTo_final, dates, Backtest.after, Backtest.after]
  congr 1
  apply List.foldl_ext
  intro s date member
  exact day_same same signals e s (of_decide_eq_true (List.mem_filter.mp member).2)

end Runs

/-- A backtest does not look ahead. With the equal weights it is enough that the prices up to the date are the same;
the signals that rank instruments put equal ones in the order of the data. -/
theorem no_look_ahead (last : CivilDate) (config : BacktestConfig) (p q : PriceData) (e : Enumeration)
    (floats : Floats) :
    (SamePrices last p q →
      ((Backtest.mk config p equalWeightSignal).run floats e).upTo last =
        ((Backtest.mk config q equalWeightSignal).run floats e).upTo last) ∧
    (seen last p = seen last q → ∀ lookback,
      ((Backtest.mk config p (momentumSignal lookback (some p))).run floats e).upTo last =
          ((Backtest.mk config q (momentumSignal lookback (some q))).run floats e).upTo last ∧
        ((Backtest.mk config p (meanReversionSignal lookback (some p))).run floats e).upTo last =
          ((Backtest.mk config q (meanReversionSignal lookback (some q))).run floats e).upTo last) := by
  refine ⟨fun same => run_same same (fun _ _ => rfl) e floats, ?_⟩
  intro same lookback
  constructor
  · apply run_same (samePrices_of_seen same)
    intro date within
    funext prices positions
    exact halfSignal_seen _ lookback same within prices positions
  · apply run_same (samePrices_of_seen same)
    intro date within
    funext prices positions
    exact halfSignal_seen _ lookback same within prices positions

/-- Two instruments whose prices move after the third of the month, in one of two ways. -/
def risen : PriceData :=
  ⟨[("A", [(jan 2, 100), (jan 3, 110), (jan 6, 130)]), ("B", [(jan 2, 10), (jan 3, 10), (jan 6, 5)])], by decide⟩

def fallen : PriceData :=
  ⟨[("A", [(jan 2, 100), (jan 3, 110)]), ("C", [(jan 7, 1)]), ("B", [(jan 2, 10), (jan 3, 10), (jan 6, 20)])], by decide⟩

theorem third_of_january :
    ((Backtest.mk (daily ["A", "B"] 1000) risen equalWeightSignal).run roughFloats .listed).upTo (jan 3) =
        ((Backtest.mk (daily ["A", "B"] 1000) fallen equalWeightSignal).run roughFloats .listed).upTo (jan 3) ∧
      ((Backtest.mk (daily ["A", "B"] 1000) risen (momentumSignal 1 (some risen))).run roughFloats .listed).upTo
          (jan 3) =
        ((Backtest.mk (daily ["A", "B"] 1000) fallen (momentumSignal 1 (some fallen))).run roughFloats .listed).upTo
          (jan 3) :=
  have same : seen (jan 3) risen = seen (jan 3) fallen := by decide +kernel
  have causal := no_look_ahead (jan 3) (daily ["A", "B"] 1000) risen fallen .listed roughFloats
  ⟨causal.1 (samePrices_of_seen same), (causal.2 same 1).1⟩

/-- Prices that stand still, of two instruments in either order. -/
def level : PriceData := ⟨[("A", [(jan 2, 100), (jan 3, 100)]), ("B", [(jan 2, 100), (jan 3, 100)])], by decide⟩

def levelReversed : PriceData := ⟨level.items.reverse, by decide⟩

/-- Of instruments with equal returns, the one that is listed first is bought. -/
theorem first_listed_bought :
    ¬ ∀ (last : CivilDate) (config : BacktestConfig) (p q : PriceData) (e : Enumeration) (floats : Floats)
      (lookback : Nat),
      (∀ inst pt, pt.1.toordinal ≤ last.toordinal → (pt ∈ p.get inst [] ↔ pt ∈ q.get inst [])) →
        ((Backtest.mk config p (momentumSignal lookback (some p))).run floats e).upTo last =
          ((Backtest.mk config q (momentumSignal lookback (some q))).run floats e).upTo last := by
  intro causal
  have points : ∀ inst, level.get inst [] = levelReversed.get inst [] := fun inst =>
    Dictionary.get_perm (List.reverse_perm level.items).symm inst []
  have alike := causal (jan 3) (daily ["A", "B"] 1000) level levelReversed .listed roughFloats 1
    fun inst pt _ => by rw [points]
  rw [upTo_run, upTo_run] at alike
  revert alike
  decide +kernel

end MiniHedge.Backtesting
