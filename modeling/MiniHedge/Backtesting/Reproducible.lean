import MiniHedge.Backtesting.Books

/-! Whether a backtest depends on the order in which the instruments of a day are enumerated. -/

set_option autoImplicit false

namespace MiniHedge.Backtesting

open MiniHedge.Python MiniHedge.Library

/-! ## The instruments that are traded -/

namespace Rebalancing

variable (r : Rebalancing) (s : State)

/-- A price, and a value that is off its target by at least one: below it, or above it where there is some to sell. -/
def due (inst : String) : Bool :=
  match r.prices.get? inst with
  | none => false
  | some price =>
    let diff := r.diffValue s inst price
    price ≠ 0 ∧ 1 ≤ |diff| ∧ (0 < diff ∨ 0 < price ∧ 0 < s.held inst)

variable {r s}

theorem isSome_order (inst : String) : (r.order s inst).isSome = r.due s inst := by
  rw [order, due]
  cases r.prices.get? inst with
  | none => rfl
  | some price =>
    dsimp only [Option.bind_eq_bind, Option.bind_some]
    by_cases nonzero : price = 0
    · simp [nonzero]
    · by_cases large : 1 ≤ |r.diffValue s inst price|
      · -- what can be sold is positive where the price and the holding are
        have some_left : 0 < min (|r.diffValue s inst price| / price) (s.held inst) ↔ 0 < price ∧ 0 < s.held inst := by
          rw [lt_min_iff, div_pos_iff_of_pos_left (zero_lt_one.trans_le large)]
        rw [if_neg nonzero, if_neg (not_lt.mpr large)]
        by_cases missing : 0 < r.diffValue s inst price
        · simp [nonzero, large, missing]
        · rw [if_neg missing]
          by_cases held : 0 < price ∧ 0 < s.held inst
          · rw [if_neg (not_le.mpr (some_left.mpr held))]
            simp [nonzero, large, held]
          · rw [if_pos (not_lt.mp (mt some_left.mp held))]
            simp [nonzero, large, missing, held]
      · simp [nonzero, large, not_le.mp large]

theorem get?_settle_other {t : BacktestTrade} {inst : String} (other : inst ≠ t.instrumentId) :
    (settle s t).holdings.get? inst = s.holdings.get? inst := by
  rw [settle]
  split
  · simp [other]
  · dsimp only
    split
    · simp [other]
    · simp [other]

/-- The holding of an instrument is left to its own trade. -/
theorem get?_trade_other {inst other : String} (apart : other ≠ inst) :
    (r.trade s inst).holdings.get? other = s.holdings.get? other := by
  rw [trade]
  split
  · rename_i t traded
    apply get?_settle_other
    rwa [(order_ids traded).2]
  · rfl

theorem held_trade_other {inst other : String} (apart : other ≠ inst) : (r.trade s inst).held other = s.held other :=
  congrArg (·.getD 0) (get?_trade_other apart)

theorem due_congr {s' : State} {inst : String} (same : s'.held inst = s.held inst) : r.due s' inst = r.due s inst := by
  rw [due, due]
  cases r.prices.get? inst with
  | none => rfl
  | some price => exact decide_eq_decide.mpr (by rw [diffValue, diffValue, same])

theorem due_trade_other {inst other : String} (apart : other ≠ inst) :
    r.due (r.trade s inst) other = r.due s other :=
  due_congr (held_trade_other apart)

theorem filter_due_trade {inst : String} {rest : List String} (absent : inst ∉ rest) :
    rest.filter (r.due (r.trade s inst)) = rest.filter (r.due s) :=
  List.filter_congr fun _ member => due_trade_other fun same => absent (same ▸ member)

/-- The trades are those of the instruments that are due, one after the other. -/
theorem made_ids {insts : List String} (distinct : insts.Nodup) :
    (r.made s insts).map (·.instrumentId) = insts.filter (r.due s) := by
  induction insts generalizing s with
  | nil => rfl
  | cons inst rest ih =>
    obtain ⟨absent, distinct⟩ := List.nodup_cons.mp distinct
    rw [made, List.map_append, ih distinct, filter_due_trade absent, List.filter_cons, ← isSome_order]
    cases traded : r.order s inst with
    | none => simp
    | some t => simp [(order_ids traded).2]

/-- The other instruments may be left out. -/
theorem trades_due {insts : List String} (distinct : insts.Nodup) :
    insts.foldl r.trade s = (insts.filter (r.due s)).foldl r.trade s := by
  induction insts generalizing s with
  | nil => rfl
  | cons inst rest ih =>
    obtain ⟨absent, distinct⟩ := List.nodup_cons.mp distinct
    rw [List.foldl_cons, ih distinct, filter_due_trade absent, List.filter_cons, ← isSome_order inst]
    cases traded : r.order s inst with
    -- not due: the state is left as it is
    | none =>
      have untouched : r.trade s inst = s := by rw [trade, traded]
      simp [untouched]
    | some t => simp

end Rebalancing

/-! ## Enumerations -/

/-- The same but for one date, on which the instruments are enumerated backwards. -/
def Enumeration.reversedOn (e : Enumeration) (date : CivilDate) : Enumeration where
  order d insts := if d = date then (e.order d insts).reverse else e.order d insts
  complete d insts := by
    split
    · exact (List.reverse_perm _).trans (e.complete d insts)
    · exact e.complete d insts

namespace Backtest

variable {b : Backtest} {e e' : Enumeration}

theorem instruments_perm (e e' : Enumeration) (s : State) (date : CivilDate) :
    (b.instruments e s date).Perm (b.instruments e' s date) := by
  rw [instruments, instruments]
  split
  · exact (e.complete date _).trans (e'.complete date _).symm
  · exact .nil

theorem instruments_nodup (e : Enumeration) (s : State) (date : CivilDate) : (b.instruments e s date).Nodup := by
  rw [instruments]
  split
  · exact (e.complete date _).nodup_iff.mpr (nodup_eraseDups _)
  · exact List.nodup_nil

/-- The instruments that are traded on a date, if they are gone through as they are listed. -/
def dueOn (b : Backtest) (s : State) (date : CivilDate) : List String :=
  (b.instruments .listed s date).filter ((b.rebalancing s date).due s)

theorem due_perm (e : Enumeration) (s : State) (date : CivilDate) :
    ((b.instruments e s date).filter ((b.rebalancing s date).due s)).Perm (b.dueOn s date) :=
  (instruments_perm e .listed s date).filter _

/-- A date on which at most one instrument is traded. -/
theorem day_eq {s : State} {date : CivilDate} (one : (b.dueOn s date).length ≤ 1) (e e' : Enumeration) :
    b.day e s date = b.day e' s date := by
  have each : ∀ e, b.traded e s date = (b.dueOn s date).foldl (b.rebalancing s date).trade s := by
    intro e
    rw [traded, Rebalancing.trades_due (instruments_nodup e s date), eq_of_perm_of_length_le_one (due_perm e s date) one]
  rw [day, day, each e, each e']

/-- Only the enumeration of the date itself counts. -/
theorem day_congr {date : CivilDate} (same : e.order date = e'.order date) (s : State) :
    b.day e s date = b.day e' s date := by
  rw [day, day, traded, traded, instruments, instruments, same]

theorem after_congr {dates : List CivilDate} (same : ∀ d ∈ dates, e.order d = e'.order d) :
    b.after e dates = b.after e' dates := by
  rw [after, after]
  apply List.foldl_ext
  intro s d member
  exact day_congr (same d member) s

/-! ## The trades of a date -/

theorem trades_day (s : State) (date : CivilDate) :
    (b.day e s date).trades = s.trades ++ (b.rebalancing s date).made s (b.instruments e s date) := by
  rw [day]
  split
  · rename_i unpriced
    have none_due : (b.instruments e s date).filter ((b.rebalancing s date).due s) = [] := by
      rw [List.filter_eq_nil_iff]
      intro inst _
      have unquoted : (b.rebalancing s date).prices.get? inst = none := by
        change (b.prices date).items.lookup inst = none
        rw [unpriced]
        rfl
      rw [Rebalancing.due, unquoted]
      exact Bool.false_ne_true
    rw [← Rebalancing.made_ids (instruments_nodup e s date), List.map_eq_nil_iff] at none_due
    rw [none_due, List.append_nil]
  · rw [State.record, traded, Rebalancing.trades_trades]

theorem trades_days (dates : List CivilDate) (s : State) :
    ∃ more, (dates.foldl (b.day e) s).trades = s.trades ++ more ∧ ∀ t ∈ more, t.date ∈ dates := by
  induction dates generalizing s with
  | nil => exact ⟨[], (List.append_nil _).symm, by simp⟩
  | cons date rest ih =>
    obtain ⟨more, later, dated⟩ := ih (b.day e s date)
    rw [List.foldl_cons, later, trades_day, List.append_assoc]
    refine ⟨_, rfl, ?_⟩
    intro t member
    rcases List.mem_append.mp member with first | other
    · rw [Rebalancing.made_dated s _ t first]
      exact List.mem_cons_self
    · exact List.mem_cons_of_mem date (dated t other)

/-- The trades of a date, in a run. -/
theorem trades_on {date : CivilDate} (member : date ∈ b.dates) :
    (b.final e).trades.filter (·.date = date) =
      (b.rebalancing (b.before e date) date).made (b.before e date) (b.instruments e (b.before e date) date) := by
  obtain ⟨first, rest, split⟩ := List.append_of_mem member
  have increasing := b.dates_increasing
  rw [split] at increasing
  obtain ⟨-, later, earlier⟩ := List.pairwise_append.mp increasing
  have before_eq : b.before e date = first.foldl (b.day e) b.opening := by
    rw [before, split, filter_before increasing, after]
  obtain ⟨former, formerly, dated⟩ := trades_days (b := b) (e := e) first b.opening
  obtain ⟨more, afterwards, dated'⟩ := trades_days (b := b) (e := e) rest (b.day e (b.before e date) date)
  have absent : ∀ ts : List BacktestTrade, (∀ t ∈ ts, t.date ≠ date) → ts.filter (·.date = date) = [] := fun ts other =>
    List.filter_eq_nil_iff.mpr fun t member same => other t member (of_decide_eq_true same)
  have none_former := absent former fun t member same =>
    (earlier t.date (dated t member) date List.mem_cons_self).ne (congrArg CivilDate.toordinal same)
  have none_later := absent more fun t member same =>
    ((List.pairwise_cons.mp later).1 t.date (dated' t member)).ne' (congrArg CivilDate.toordinal same)
  have own : ((b.rebalancing (b.before e date) date).made (b.before e date)
      (b.instruments e (b.before e date) date)).filter (·.date = date) = _ :=
    List.filter_eq_self.mpr fun t member => decide_eq_true (Rebalancing.made_dated _ _ t member)
  rw [final, split, after, List.foldl_append, List.foldl_cons, ← before_eq, afterwards, trades_day, before_eq, formerly,
    ← before_eq, List.filter_append, List.filter_append, List.filter_append, none_former, none_later, own]
  simp [opening]

theorem ids_on {date : CivilDate} (member : date ∈ b.dates) :
    ((b.final e).trades.filter (·.date = date)).map (·.instrumentId) =
      (b.instruments e (b.before e date) date).filter ((b.rebalancing (b.before e date) date).due (b.before e date)) := by
  rw [trades_on member, Rebalancing.made_ids (instruments_nodup e _ date)]

/-! ## Runs -/

/-- What holds when a run begins, and after each date where it did after the dates before, holds in the end. -/
theorem along_dates {motive : List CivilDate → Prop} (nil : motive [])
    (step : ∀ first date, date ∈ b.dates → (∀ e, b.before e date = b.after e first) → motive first →
      motive (first ++ [date])) : motive b.dates := by
  suffices prefixes : ∀ first rest, first ++ rest = b.dates → motive first from prefixes b.dates [] (List.append_nil _)
  intro first
  induction first using List.reverseRecOn with
  | nil => exact fun _ _ => nil
  | append_singleton first date ih =>
    intro rest split
    rw [List.append_assoc, List.singleton_append] at split
    have increasing := b.dates_increasing
    rw [← split] at increasing
    have member : date ∈ b.dates := by
      rw [← split]
      exact List.mem_append_right first List.mem_cons_self
    refine step first date member ?_ (ih _ split)
    intro e
    rw [before, ← split, filter_before increasing]

theorem final_eq (one : ∀ date ∈ b.dates, (b.dueOn (b.before .listed date) date).length ≤ 1) (e : Enumeration) :
    b.final e = b.final .listed := by
  apply along_dates (motive := fun dates => b.after e dates = b.after .listed dates)
  · rfl
  · intro first date member before_eq same
    have one := one date member
    rw [before_eq] at one
    rw [after, after, List.foldl_concat, List.foldl_concat, ← after, ← after, same]
    exact day_eq one e .listed

theorem one_due (same : ∀ e e' : Enumeration, (b.final e).trades = (b.final e').trades) {date : CivilDate}
    (member : date ∈ b.dates) : (b.dueOn (b.before .listed date) date).length ≤ 1 := by
  -- the dates before are enumerated alike
  have before_eq : b.before (Enumeration.listed.reversedOn date) date = b.before .listed date := by
    apply after_congr
    intro d earlier
    have other : d ≠ date := by
      rintro rfl
      exact lt_irrefl _ (of_decide_eq_true (List.mem_filter.mp earlier).2)
    funext insts
    exact if_neg other
  have forwards := ids_on (e := .listed) member
  have backwards := ids_on (e := Enumeration.listed.reversedOn date) member
  have reversed : b.instruments (Enumeration.listed.reversedOn date) (b.before .listed date) date =
      (b.instruments .listed (b.before .listed date) date).reverse := by
    rw [instruments, instruments]
    split
    · exact if_pos rfl
    · rfl
  -- the trades of the date read the same backwards
  rw [same _ .listed, forwards, before_eq, reversed, List.filter_reverse] at backwards
  exact length_le_one_of_reverse ((instruments_nodup _ _ _).filter _) backwards.symm

end Backtest

/-! ## Days on which the cash pays for all buys -/

namespace BacktestTrade

/-- What a trade brings to the cash. -/
def flow (t : BacktestTrade) : Decimal :=
  match t.side with
  | .buy => -t.buyNet
  | .sell => t.sellNet

/-- What is left of a holding. -/
def left (held : Decimal) (t : BacktestTrade) : Option Decimal :=
  match t.side with
  | .buy => some (held + t.quantity)
  | .sell => if held - t.quantity ≤ 0 then none else some (held - t.quantity)

end BacktestTrade

namespace Rebalancing

section Orders

variable (r : Rebalancing) (s : State)

/-- The trade of an instrument, where the cash does not run short. -/
def wanted (inst : String) : Option BacktestTrade := do
  let price ← r.prices.get? inst
  let diff := r.diffValue s inst price
  if r.due s inst then
    return if 0 < diff then r.tradeOf inst .buy price (|diff| / price)
      else r.tradeOf inst .sell price (min (|diff| / price) (s.held inst))
  else none

/-- What is to be paid for it. -/
def outlay (inst : String) : Decimal :=
  match r.wanted s inst with
  | some t => if t.side = .buy then t.buyNet else 0
  | none => 0

end Orders

variable {r : Rebalancing} {s : State} {inst : String}

/-- What there is to say of a trade that is wanted. -/
theorem wanted_cases {t : BacktestTrade} (due : r.wanted s inst = some t) :
    ∃ price, r.prices.get? inst = some price ∧
      (t = r.tradeOf inst .buy price (|r.diffValue s inst price| / price) ∨
        t = r.tradeOf inst .sell price (min (|r.diffValue s inst price| / price) (s.held inst)) ∧ 0 < s.held inst) := by
  obtain ⟨price, quoted, due⟩ := Option.bind_eq_some_iff.mp due
  refine ⟨price, quoted, ?_⟩
  dsimp only at due
  split at due
  · rename_i isDue
    obtain rfl := Option.some.inj due
    by_cases missing : 0 < r.diffValue s inst price
    · exact .inl (if_pos missing)
    · rw [Rebalancing.due, quoted] at isDue
      have held := ((of_decide_eq_true isDue).2.2.resolve_left missing).2
      exact .inr ⟨if_neg missing, held⟩
  · cases due

theorem order_of_paid (paid : r.outlay s inst ≤ s.cash) : r.order s inst = r.wanted s inst := by
  cases made : r.order s inst with
  | none =>
    have none_due := isSome_order (r := r) (s := s) inst
    rw [made] at none_due
    rw [wanted, ← none_due]
    cases r.prices.get? inst <;> rfl
  | some t =>
    have isDue := isSome_order (r := r) (s := s) inst
    rw [made] at isDue
    obtain ⟨price, quoted, -, -, ⟨missing, rfl⟩ | ⟨above, -, rfl⟩⟩ := order_cases made
    · have whole : r.wanted s inst = some (r.tradeOf inst .buy price (|r.diffValue s inst price| / price)) := by
        rw [wanted, quoted, ← isDue]
        exact congrArg some (if_pos missing)
      have enough : (r.tradeOf inst .buy price (|r.diffValue s inst price| / price)).buyNet ≤ s.cash := by
        rw [outlay, whole] at paid
        exact paid
      rw [whole, affordable, if_neg (not_lt.mpr enough)]
    · rw [wanted, quoted, ← isDue]
      exact (congrArg some (if_neg (not_lt.mpr above))).symm

/-- What is wanted depends on the holding of the instrument and on its weight alone. -/
theorem wanted_congr {r' : Rebalancing} {s' : State} (config : r.config = r'.config) (date : r.date = r'.date)
    (prices : r.prices = r'.prices) (value : r.portfolioValue = r'.portfolioValue)
    (weight : r.targetWeights.get inst 0 = r'.targetWeights.get inst 0) (held : s.held inst = s'.held inst) :
    r.wanted s inst = r'.wanted s' inst := by
  have diff : ∀ price, r.diffValue s inst price = r'.diffValue s' inst price := by
    intro price
    rw [diffValue, diffValue, value, weight, held]
  have due : r.due s inst = r'.due s' inst := by
    rw [Rebalancing.due, Rebalancing.due, prices]
    cases r'.prices.get? inst with
    | none => rfl
    | some price => exact decide_eq_decide.mpr (by rw [diff, held])
  have trades : ∀ side price quantity, r.tradeOf inst side price quantity = r'.tradeOf inst side price quantity := by
    intro side price quantity
    rw [tradeOf, tradeOf, config, date]
  simp only [wanted, prices, due, diff, trades, held]

theorem wanted_of_held {s' : State} (held : s.held inst = s'.held inst) : r.wanted s inst = r.wanted s' inst :=
  wanted_congr rfl rfl rfl rfl rfl held

theorem outlay_congr {r' : Rebalancing} {s' : State} (same : r.wanted s inst = r'.wanted s' inst) :
    r.outlay s inst = r'.outlay s' inst := by
  rw [outlay, outlay, same]

/-! ### What the trades of a day leave -/

theorem cash_trades (insts : List String) (s : State) :
    (insts.foldl r.trade s).cash = s.cash + ((r.made s insts).map (·.flow)).sum := by
  induction insts generalizing s with
  | nil => exact (add_zero _).symm
  | cons inst rest ih =>
    rw [List.foldl_cons, ih, made, List.map_append, List.sum_append, ← add_assoc]
    congr 1
    rw [trade]
    cases r.order s inst with
    | none => exact (add_zero _).symm
    | some t =>
      cases t with
      | mk _ _ side _ _ _ _ => cases side <;> simp [settle, BacktestTrade.flow, sub_eq_add_neg]

theorem get?_settle (s : State) (t : BacktestTrade) :
    (settle s t).holdings.get? t.instrumentId = t.left (s.held t.instrumentId) := by
  cases t with
  | mk _ inst side _ _ _ _ =>
    cases side with
    | buy => simp [settle, BacktestTrade.left]
    | sell =>
      dsimp only [settle, BacktestTrade.left]
      split <;> simp

/-- The holdings that are not traded. -/
theorem get?_trades_other {insts : List String} {k : String} (absent : k ∉ insts) (s : State) :
    (insts.foldl r.trade s).holdings.get? k = s.holdings.get? k := by
  induction insts generalizing s with
  | nil => rfl
  | cons inst rest ih =>
    rw [List.mem_cons, not_or] at absent
    rw [List.foldl_cons, ih absent.2, get?_trade_other absent.1]

section Paid

variable (rates : r.config.Rates) (positive : ∀ inst price, r.prices.get? inst = some price → 0 < price)
include rates positive

theorem outlay_nonneg (s : State) (inst : String) : 0 ≤ r.outlay s inst := by
  rw [outlay]
  split
  · rename_i t due
    obtain ⟨price, quoted, rfl | ⟨rfl, -⟩⟩ := wanted_cases due
    · have above := positive inst price quoted
      change 0 ≤ (r.tradeOf inst .buy price _).buyNet
      rw [buyNet_tradeOf]
      have factor := add_nonneg (add_nonneg zero_le_one rates.commission_nonneg) rates.slippage_nonneg
      exact mul_nonneg (div_nonneg (abs_nonneg _) above.le) (mul_nonneg above.le factor)
    · exact le_refl 0
  · exact le_refl 0

/-- A trade takes no more than its outlay. -/
theorem flow_bound {t : BacktestTrade} (due : r.wanted s inst = some t) : 0 ≤ r.outlay s inst + t.flow := by
  rw [outlay, due]
  obtain ⟨price, quoted, rfl | ⟨rfl, held⟩⟩ := wanted_cases due
  · exact (add_neg_cancel _).ge
  · have above := positive inst price quoted
    have sold := le_min (div_nonneg (abs_nonneg (r.diffValue s inst price)) above.le) held.le
    change 0 ≤ 0 + (r.tradeOf inst .sell price _).sellNet
    rw [zero_add, sellNet_tradeOf]
    exact mul_nonneg (mul_nonneg sold above.le) (sub_nonneg.mpr rates.below_one)

/-- A trade that is paid for leaves the cash for the others. -/
theorem trade_paid {more : Decimal} (others : 0 ≤ more) (paid : r.outlay s inst + more ≤ s.cash) :
    r.order s inst = r.wanted s inst ∧ more ≤ (r.trade s inst).cash := by
  have own : r.order s inst = r.wanted s inst := order_of_paid ((le_add_of_nonneg_right others).trans paid)
  refine ⟨own, ?_⟩
  have cash := cash_trades (r := r) [inst] s
  rw [List.foldl_cons, List.foldl_nil, made, made, List.append_nil] at cash
  rw [cash, own]
  cases due : r.wanted s inst with
  | none =>
    have nonneg := outlay_nonneg rates positive s inst
    simp only [Option.toList_none, List.map_nil, List.sum_nil]
    linarith
  | some t =>
    -- a buy takes its outlay, a sell only brings
    have bound := flow_bound rates positive due
    simp only [Option.toList_some, List.map_cons, List.map_nil, List.sum_cons, List.sum_nil]
    linarith

/-- Where the cash pays for all buys, each instrument is traded as is wanted when the day begins. -/
theorem trades_wanted {day : State} {insts : List String} (distinct : insts.Nodup)
    (held : ∀ inst ∈ insts, s.held inst = day.held inst) (paid : (insts.map (r.outlay day)).sum ≤ s.cash) :
    r.made s insts = insts.filterMap (r.wanted day) ∧
      ∀ k ∈ insts, (insts.foldl r.trade s).holdings.get? k =
        match r.wanted day k with
        | some t => t.left (day.held k)
        | none => s.holdings.get? k := by
  -- over the instruments: the outlays of those to come are covered by what is left
  induction insts generalizing s with
  | nil => exact ⟨rfl, by simp⟩
  | cons inst rest ih =>
    obtain ⟨absent, distinct⟩ := List.nodup_cons.mp distinct
    obtain ⟨own, others⟩ := List.forall_mem_cons.mp held
    have wanted := wanted_of_held (r := r) own
    rw [List.map_cons, List.sum_cons, ← outlay_congr wanted] at paid
    have nonneg : 0 ≤ (rest.map (r.outlay day)).sum := by
      apply List.sum_nonneg
      intro x member
      obtain ⟨other, -, rfl⟩ := List.mem_map.mp member
      exact outlay_nonneg rates positive day other
    obtain ⟨order, left⟩ := trade_paid rates positive nonneg paid
    rw [wanted] at order
    have apart : ∀ k ∈ rest, k ≠ inst := by
      rintro k member rfl
      exact absent member
    obtain ⟨made_rest, held_rest⟩ := ih distinct (s := r.trade s inst)
      (fun k member => (held_trade_other (apart k member)).trans (others k member)) left
    constructor
    · rw [made, order, made_rest, List.filterMap_cons]
      cases r.wanted day inst <;> rfl
    · rw [List.forall_mem_cons]
      constructor
      · rw [List.foldl_cons, get?_trades_other absent, trade, order]
        cases due : r.wanted day inst with
        | none => rfl
        | some t =>
          rw [due] at order
          obtain ⟨-, rfl⟩ := order_ids order
          dsimp only
          rw [get?_settle, own]
      · intro k member
        rw [List.foldl_cons, held_rest k member, get?_trade_other (apart k member)]

end Paid

end Rebalancing

/-! ## States and results that differ in order -/

/-- A signal that goes by the positions, and not by their order; its weights may be in any order. -/
def Insensitive (signal : Signal) : Prop :=
  ∀ date prices (first second : Amounts), first.items.Perm second.items →
    (signal date prices first).items.Perm (signal date prices second).items

/-- Two states that differ at most in the order of the holdings, and of the trades in different instruments. -/
structure Alike (s s' : State) : Prop where
  cash : s.cash = s'.cash
  holdings : ∀ inst, s.holdings.get? inst = s'.holdings.get? inst
  equityCurve : s.equityCurve = s'.equityCurve
  trades : ∀ inst, tradesIn inst s.trades = tradesIn inst s'.trades
  peak : s.peak = s'.peak
  prevDate : s.prevDate = s'.prevDate

/-- The same but for the order of the trades in different instruments. -/
def BacktestResult.SameButOrder (first second : BacktestResult) : Prop :=
  { first with trades := [] } = { second with trades := [] } ∧
    ∀ inst, tradesIn inst first.trades = tradesIn inst second.trades

theorem resultOf_same (floats : Floats) (capital : Decimal) (nDays : Nat) (curve : List EquityCurvePoint)
    {trades trades' : List BacktestTrade} (same : ∀ inst, tradesIn inst trades = tradesIn inst trades') :
    (resultOf floats capital nDays curve trades).SameButOrder (resultOf floats capital nDays curve trades') := by
  refine ⟨?_, same⟩
  simp only [resultOf, computeWinRate_eq same, computeProfitFactor_eq same, (perm_of_tradesIn same).length_eq]

namespace Alike

variable {s s' : State} (alike : Alike s s')
include alike

theorem held (inst : String) : s.held inst = s'.held inst := congrArg (·.getD 0) (alike.holdings inst)

theorem items_perm : s.holdings.items.Perm s'.holdings.items := Dictionary.perm_of_get? alike.holdings

theorem value (prices : Amounts) : s.value prices = s'.value prices := by
  rw [State.value, State.value, alike.cash, (alike.items_perm.map _).sum_eq]

theorem positions_perm (prices : Amounts) : (s.positions prices).items.Perm (s'.positions prices).items := by
  apply Dictionary.perm_of_get?
  intro inst
  rw [State.positions, State.positions, Dictionary.get?_ofKeys, Dictionary.get?_ofKeys, alike.held]
  exact if_congr (alike.items_perm.map Prod.fst).mem_iff rfl rfl

theorem peakAt (portfolioValue : Decimal) : s.peakAt portfolioValue = s'.peakAt portfolioValue := by
  rw [State.peakAt, State.peakAt, alike.peak]

theorem record (date : CivilDate) (prices : Amounts) : Alike (s.record date prices) (s'.record date prices) where
  cash := alike.cash
  holdings := alike.holdings
  equityCurve := by
    have point : s.point date prices = s'.point date prices := by
      rw [State.point, State.point, alike.value, alike.peakAt]
    rw [State.record, State.record, alike.equityCurve, point]
  trades := alike.trades
  peak := by rw [State.record, State.record, alike.value, alike.peakAt]
  prevDate := rfl

end Alike

/-! ## Runs in which the cash pays for all buys -/

namespace Backtest

variable {b : Backtest}

/-- What the buys of a date cost in full. -/
def outlayOn (b : Backtest) (s : State) (date : CivilDate) : Decimal :=
  ((b.instruments .listed s date).map ((b.rebalancing s date).outlay s)).sum

section Alike

variable {s s' : State} (alike : Alike s s') (insensitive : Insensitive b.signal) (date : CivilDate)
include alike insensitive

theorem weights_perm : (b.rebalancing s date).targetWeights.items.Perm (b.rebalancing s' date).targetWeights.items :=
  insensitive date (b.prices date) _ _ (alike.positions_perm (b.prices date))

theorem wanted_alike (inst : String) :
    (b.rebalancing s date).wanted s inst = (b.rebalancing s' date).wanted s' inst :=
  Rebalancing.wanted_congr rfl rfl rfl (alike.value (b.prices date))
    (Dictionary.get_perm (weights_perm alike insensitive date) inst 0) (alike.held inst)

theorem instruments_alike (e e' : Enumeration) :
    (b.instruments e s date).Perm (b.instruments e' s' date) := by
  rw [instruments, instruments, alike.prevDate]
  split
  · refine (e.complete date _).trans (List.Perm.trans ?_ (e'.complete date _).symm)
    rw [List.perm_ext_iff_of_nodup (nodup_eraseDups _) (nodup_eraseDups _)]
    intro inst
    have held := (alike.items_perm.map Prod.fst).mem_iff (a := inst)
    have weighted := ((weights_perm alike insensitive date).map Prod.fst).mem_iff (a := inst)
    rw [List.mem_eraseDups, List.mem_eraseDups, List.mem_append, List.mem_append]
    exact or_congr held weighted
  · exact .nil

theorem outlayOn_alike : b.outlayOn s date = b.outlayOn s' date := by
  have same : (b.rebalancing s date).outlay s = (b.rebalancing s' date).outlay s' := by
    funext inst
    exact Rebalancing.outlay_congr (wanted_alike alike insensitive date inst)
  rw [outlayOn, outlayOn, same, ((instruments_alike alike insensitive date .listed .listed).map _).sum_eq]

end Alike

section Paid

variable (posed : b.WellPosed) (insensitive : Insensitive b.signal) {s s' : State} (alike : Alike s s')
  {date : CivilDate}
include posed

/-- Where the cash pays for all buys, the trades are those that are wanted, in any enumeration. -/
theorem made_paid (paid : b.outlayOn s date ≤ s.cash) (e : Enumeration) :
    (b.rebalancing s date).made s (b.instruments e s date) =
        (b.instruments e s date).filterMap ((b.rebalancing s date).wanted s) ∧
      ∀ inst ∈ b.instruments e s date, (b.traded e s date).holdings.get? inst =
        match (b.rebalancing s date).wanted s inst with
        | some t => t.left (s.held inst)
        | none => s.holdings.get? inst := by
  apply Rebalancing.trades_wanted posed.rates (fun _ _ => posed.price_pos) (instruments_nodup e s date)
  · exact fun _ _ => rfl
  · rwa [((instruments_perm e .listed s date).map _).sum_eq]

include insensitive alike

theorem made_alike (paid : b.outlayOn s date ≤ s.cash) (paid' : b.outlayOn s' date ≤ s'.cash) (e e' : Enumeration) :
    ((b.rebalancing s date).made s (b.instruments e s date)).Perm
      ((b.rebalancing s' date).made s' (b.instruments e' s' date)) := by
  have wanted : (b.rebalancing s date).wanted s = (b.rebalancing s' date).wanted s' :=
    funext (wanted_alike alike insensitive date)
  rw [(made_paid posed paid e).1, (made_paid posed paid' e').1, wanted]
  exact (instruments_alike alike insensitive date e e').filterMap _

theorem traded_alike (paid : b.outlayOn s date ≤ s.cash) (e e' : Enumeration) :
    Alike (b.traded e s date) (b.traded e' s' date) := by
  have paid' : b.outlayOn s' date ≤ s'.cash := by
    rwa [← outlayOn_alike alike insensitive, ← alike.cash]
  have perm := instruments_alike alike insensitive date e e'
  have mades := made_alike posed insensitive alike paid paid' e e'
  have untouched := Rebalancing.untouched_trades (r := b.rebalancing s date) (b.instruments e s date) s
  have untouched' := Rebalancing.untouched_trades (r := b.rebalancing s' date) (b.instruments e' s' date) s'
  constructor
  · rw [traded, traded, Rebalancing.cash_trades, Rebalancing.cash_trades, alike.cash, (mades.map _).sum_eq]
  · intro inst
    by_cases inside : inst ∈ b.instruments e s date
    · rw [(made_paid posed paid e).2 inst inside, (made_paid posed paid' e').2 inst (perm.mem_iff.mp inside),
        wanted_alike alike insensitive, alike.held, alike.holdings]
    · rw [traded, traded, Rebalancing.get?_trades_other inside,
        Rebalancing.get?_trades_other (mt perm.mem_iff.mpr inside), alike.holdings]
  · exact untouched.1.trans (alike.equityCurve.trans untouched'.1.symm)
  · intro inst
    -- an instrument is traded once a day at most
    have one : (tradesIn inst ((b.rebalancing s' date).made s' (b.instruments e' s' date))).length ≤ 1 := by
      apply length_filter_key
      rw [Rebalancing.made_ids (instruments_nodup e' s' date)]
      exact (instruments_nodup e' s' date).filter _
    have own := eq_of_perm_of_length_le_one (mades.filter fun t : BacktestTrade => t.instrumentId = inst) one
    have former := alike.trades inst
    rw [tradesIn, tradesIn] at former
    rw [traded, traded, Rebalancing.trades_trades, Rebalancing.trades_trades, tradesIn, tradesIn, List.filter_append,
      List.filter_append, former, own]
  · exact untouched.2.1.trans (alike.peak.trans untouched'.2.1.symm)
  · exact untouched.2.2.trans (alike.prevDate.trans untouched'.2.2.symm)

/-- A date on which the cash pays for all buys leaves like states alike, in whichever order the instruments are. -/
theorem day_alike (paid : b.outlayOn s date ≤ s.cash) (e e' : Enumeration) :
    Alike (b.day e s date) (b.day e' s' date) := by
  rw [day, day]
  split
  · exact alike
  · exact (traded_alike posed insensitive alike paid e e').record date _

end Paid

theorem final_alike (posed : b.WellPosed) (insensitive : Insensitive b.signal)
    (paid : ∀ date ∈ b.dates, b.outlayOn (b.before .listed date) date ≤ (b.before .listed date).cash)
    (e : Enumeration) : Alike (b.final .listed) (b.final e) := by
  apply along_dates (motive := fun dates => Alike (b.after .listed dates) (b.after e dates))
  · exact ⟨rfl, fun _ => rfl, rfl, fun _ => rfl, rfl, rfl⟩
  · intro first date member before_eq alike
    have paid := paid date member
    rw [before_eq] at paid
    rw [after, after, List.foldl_concat, List.foldl_concat]
    exact day_alike posed insensitive alike paid .listed e

end Backtest

/-- A fifth in each of two instruments, so that the cash pays for what is bought. -/
def steady : Backtest where
  config := daily ["A", "B"] 1000
  priceData := crossing.priceData
  signal := fun _ _ _ => ⟨[("A", 1 / 5), ("B", 1 / 5)], by decide⟩

theorem steady_wellPosed : steady.WellPosed where
  capital_nonneg := by decide +kernel
  rates := ⟨by decide +kernel, by decide +kernel, by decide +kernel⟩
  positive := by decide +kernel

/-- One instrument. -/
def alone : Backtest where
  config := daily ["A"] 1000
  priceData := crossing.priceData
  signal := equalWeightSignal

end MiniHedge.Backtesting
