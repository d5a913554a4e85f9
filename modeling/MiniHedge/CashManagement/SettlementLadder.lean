import MiniHedge.CashManagement.Service
import MiniHedge.Library.Groups
import MiniHedge.MarketData.Fx
import Mathlib.Algebra.Group.Prod

/-! The settlement ladder and the cash projection of a portfolio.

Both read what is due from today to the end of the horizon, and walk the business days
of that time. What is due on no such day is in neither.
-/

set_option autoImplicit false

namespace MiniHedge.CashManagement

open MiniHedge.Python MiniHedge.Library MiniHedge.MarketData

/-! ## Business days -/

def IsBusinessDay (d : ℤ) : Prop := weekday d < 5

instance (d : ℤ) : Decidable (IsBusinessDay d) := inferInstanceAs (Decidable (_ < _))

def snapToBusinessDay (d : ℤ) : ℤ :=
  if weekday d = 5 then d + 2 else if weekday d = 6 then d + 1 else d

/-- The days that `current` takes in both loops; there are no more turns than days. -/
def walkDays : ℕ → ℤ → ℤ → List ℤ
  | 0, _, _ => []
  | turns + 1, current, last =>
    if current ≤ last then current :: walkDays turns (snapToBusinessDay (current + 1)) last else []

def businessDays (today last : ℤ) : List ℤ :=
  walkDays (last + 1 - today).toNat (snapToBusinessDay today) last

theorem snap_business (d : ℤ) : IsBusinessDay (snapToBusinessDay d) := by
  unfold IsBusinessDay snapToBusinessDay weekday
  split
  · omega
  · split <;> omega

/-- A business day is the first from some day on exactly where no other comes between. -/
theorem snap_le_iff {d other : ℤ} (business : IsBusinessDay other) :
    snapToBusinessDay d ≤ other ↔ d ≤ other := by
  unfold IsBusinessDay weekday at business
  unfold snapToBusinessDay weekday
  split
  · omega
  · split <;> omega

theorem le_snap (d : ℤ) : d ≤ snapToBusinessDay d := (snap_le_iff (snap_business d)).mp le_rfl

theorem mem_walkDays {turns : ℕ} {current last d : ℤ} (business : IsBusinessDay current)
    (enough : (last + 1 - current).toNat ≤ turns) :
    d ∈ walkDays turns current last ↔ current ≤ d ∧ d ≤ last ∧ IsBusinessDay d := by
  induction turns generalizing current with
  | zero =>
    simp only [walkDays, List.not_mem_nil, false_iff]
    omega
  | succ turns ih =>
    rw [walkDays]
    split
    · have next := le_snap (current + 1)
      rw [List.mem_cons, ih (snap_business _) (by omega)]
      constructor
      · rintro (rfl | ⟨after, within, own⟩)
        · exact ⟨le_rfl, ‹_›, business⟩
        · exact ⟨by omega, within, own⟩
      · rintro ⟨after, within, own⟩
        rcases after.eq_or_lt with same | later
        · exact .inl same.symm
        · exact .inr ⟨(snap_le_iff own).mpr later, within, own⟩
    · simp only [List.not_mem_nil, false_iff]
      omega

theorem walkDays_distinct (turns : ℕ) (current last : ℤ) :
    (walkDays turns current last).Nodup ∧ ∀ d ∈ walkDays turns current last, current ≤ d := by
  induction turns generalizing current with
  | zero => exact ⟨List.nodup_nil, fun d member => nomatch member⟩
  | succ turns ih =>
    rw [walkDays]
    split
    · obtain ⟨distinct, later⟩ := ih (snapToBusinessDay (current + 1))
      have next := le_snap (current + 1)
      constructor
      · apply List.nodup_cons.mpr ⟨_, distinct⟩
        intro member
        have again := later current member
        omega
      · intro d member
        rcases List.mem_cons.mp member with rfl | behind
        · exact le_rfl
        · have after := later d behind
          omega
    · exact ⟨List.nodup_nil, fun d member => nomatch member⟩

/-- The walk visits every business day of the time once. -/
theorem mem_businessDays {today last d : ℤ} :
    d ∈ businessDays today last ↔ today ≤ d ∧ d ≤ last ∧ IsBusinessDay d := by
  have first := le_snap today
  rw [businessDays, mem_walkDays (snap_business today) (by omega)]
  constructor
  · rintro ⟨after, within, own⟩
    exact ⟨(snap_le_iff own).mp after, within, own⟩
  · rintro ⟨after, within, own⟩
    exact ⟨(snap_le_iff own).mpr after, within, own⟩

theorem businessDays_distinct (today last : ℤ) : (businessDays today last).Nodup :=
  (walkDays_distinct _ _ _).1

/-- The walk starts with the first business day, unless that is beyond the end. -/
theorem businessDays_first {today last : ℤ} (reached : snapToBusinessDay today ≤ last) :
    ∃ rest, businessDays today last = snapToBusinessDay today :: rest := by
  have first := le_snap today
  obtain ⟨turns, same⟩ : ∃ turns, (last + 1 - today).toNat = turns + 1 :=
    ⟨(last + 1 - today).toNat - 1, by omega⟩
  rw [businessDays, same, walkDays, if_pos reached]
  exact ⟨_, rfl⟩

theorem businessDays_empty {today last : ℤ} (beyond : ¬ snapToBusinessDay today ≤ last) :
    businessDays today last = [] := by
  rw [businessDays]
  cases (last + 1 - today).toNat with
  | zero => rfl
  | succ turns => rw [walkDays, if_neg beyond]

/-! ## What is read -/

structure ScheduledFlow where
  portfolioId : UUID
  currency : String
  flowType : String
  amount : Decimal
  flowDate : Date
  description : Option String
  deriving DecidableEq, Repr

/-- The portfolio, the day of the call and its arguments. -/
structure CashQuery where
  portfolioId : UUID
  today : Date
  horizonDays : ℤ
  baseCurrency : String := "USD"

/-- The tables and the rates that a call reads. -/
structure CashState where
  tables : Tables
  scheduled : List ScheduledFlow
  fx : Option FXConverter

section Calls

variable (w : CashState) (q : CashQuery)

def CashQuery.last : ℤ := q.today + q.horizonDays

namespace CashState

def convertToBase (amount : Decimal) (fromCcy : String) : Decimal :=
  toBase w.fx amount fromCcy q.baseCurrency

def settlementAmount (s : Settlement) : Decimal :=
  w.convertToBase q s.settlementAmount s.account.currency

def flowAmount (f : ScheduledFlow) : Decimal := w.convertToBase q f.amount f.currency

/-- `get_by_date_range`. -/
def settlementsBetween : List Settlement :=
  sortOn (·.settlementDate) (w.tables.settlements.rows.filter fun s =>
    s.account.portfolioId = q.portfolioId ∧ q.today ≤ s.settlementDate ∧ s.settlementDate ≤ q.last)

/-- `get_by_portfolio` of the scheduled flows. -/
def flowsBetween : List ScheduledFlow :=
  sortOn (·.flowDate) (w.scheduled.filter fun f =>
    f.portfolioId = q.portfolioId ∧ q.today ≤ f.flowDate ∧ f.flowDate ≤ q.last)

def currentBalance : Decimal :=
  ((w.tables.balances.filter fun b => b.1.portfolioId = q.portfolioId).map fun b =>
    w.convertToBase q b.2.availableBalance b.1.currency).sum

end CashState

/-- An amount as an inflow and an outflow, one of them zero. -/
def inOut (amount : Decimal) : Decimal × Decimal :=
  if 0 < amount then (amount, 0) else (0, |amount|)

/-! ## The ladder -/

structure SettlementLadderEntry where
  settlementDate : Date
  currency : String
  expectedInflow : Decimal
  expectedOutflow : Decimal
  netFlow : Decimal
  cumulativeBalance : Decimal
  deriving DecidableEq, Repr

structure LadderWalk where
  entries : List SettlementLadderEntry := []
  cumulative : Decimal
  deriving DecidableEq, Repr

/-- `by_date`. -/
def CashState.byDate : List (Date × Decimal × Decimal) :=
  totals (·.settlementDate) (fun s => inOut (w.settlementAmount q s))
    ((w.settlementsBetween q).filter fun s => s.status = .pending)

def LadderWalk.visit (walk : LadderWalk) (current : Date) : LadderWalk :=
  let (inflow, outflow) := ((w.byDate q).lookup current).getD (0, 0)
  let net := inflow - outflow
  let cumulative := walk.cumulative + net
  { entries :=
      if 0 < inflow ∨ 0 < outflow ∨ current = snapToBusinessDay q.today then
        walk.entries ++ [⟨current, q.baseCurrency, inflow, outflow, net, cumulative⟩]
      else walk.entries
    cumulative }

def getSettlementLadder : List SettlementLadderEntry :=
  ((businessDays q.today q.last).foldl (LadderWalk.visit w q)
    { cumulative := w.currentBalance q }).entries

/-! ## The projection -/

structure FlowDetail where
  type : String
  instrument : Option String := none
  amount : Decimal
  description : Option String := none
  deriving DecidableEq, Repr

structure CashProjectionEntry where
  projectionDate : Date
  currency : String
  openingBalance : Decimal
  inflows : Decimal
  outflows : Decimal
  closingBalance : Decimal
  flowDetails : List FlowDetail
  deriving DecidableEq, Repr

structure ProjectionWalk where
  entries : List CashProjectionEntry := []
  running : Decimal
  deriving DecidableEq, Repr

/-- The flows of a day, in the order in which they are counted. -/
def CashState.flowsOn (current : Date) : List FlowDetail :=
  (((w.settlementsBetween q).filter fun s => s.settlementDate = current ∧ s.status = .pending).map
    fun s => { type := "settlement", instrument := s.instrumentId, amount := w.settlementAmount q s }) ++
  ((w.flowsBetween q).filter fun f => f.flowDate = current).map fun f =>
    { type := f.flowType, amount := w.flowAmount q f, description := f.description.getD "" }

def ProjectionWalk.visit (walk : ProjectionWalk) (current : Date) : ProjectionWalk :=
  let opening := walk.running
  let details := w.flowsOn q current
  let (inflows, outflows) := (details.map fun detail => inOut detail.amount).sum
  let closing := opening + inflows - outflows
  { entries := walk.entries ++
      [⟨current, q.baseCurrency, opening, inflows, outflows, closing, details⟩]
    running := closing }

def getProjection : List CashProjectionEntry :=
  ((businessDays q.today q.last).foldl (ProjectionWalk.visit w q)
    { running := w.currentBalance q }).entries

/-! ## What is due -/

/-- The pending settlements that are due by the end, of any day. -/
def dueSettlements : List Settlement :=
  w.tables.settlements.rows.filter fun s =>
    s.account.portfolioId = q.portfolioId ∧ s.settlementDate ≤ q.last ∧ s.status = .pending

def dueFlows : List ScheduledFlow :=
  w.scheduled.filter fun f => f.portfolioId = q.portfolioId ∧ f.flowDate ≤ q.last

/-- A day that the walk does not visit although it is before the end. -/
def Missed (day : Date) : Prop := day < q.today ∨ ¬ IsBusinessDay day

instance (day : Date) : Decidable (Missed q day) := inferInstanceAs (Decidable (_ ∨ _))

/-- Both reports end with all that is due by then. -/
def Accounted : Prop :=
  (∃ entry, (getSettlementLadder w q).getLast? = some entry ∧
    entry.cumulativeBalance =
      w.currentBalance q + ((dueSettlements w q).map (w.settlementAmount q)).sum) ∧
  ∃ entry, (getProjection w q).getLast? = some entry ∧
    entry.closingBalance =
      w.currentBalance q + ((dueSettlements w q).map (w.settlementAmount q)).sum +
        ((dueFlows w q).map (w.flowAmount q)).sum

/-- The horizon has a business day, and what is due on other days, or was due before, cancels out. -/
structure DueInTime : Prop where
  reached : snapToBusinessDay q.today ≤ q.last
  settlements : (((dueSettlements w q).filter fun s => Missed q s.settlementDate).map
    (w.settlementAmount q)).sum = 0
  flows : (((dueFlows w q).filter fun f => Missed q f.flowDate).map (w.flowAmount q)).sum = 0

end Calls

/-! ## Inflows and outflows -/

/-- Inflows and outflows of some amounts are not negative, and their difference is the sum. -/
theorem sum_inOut (amounts : List Decimal) :
    0 ≤ (amounts.map inOut).sum.1 ∧ 0 ≤ (amounts.map inOut).sum.2 ∧
      (amounts.map inOut).sum.1 - (amounts.map inOut).sum.2 = amounts.sum := by
  induction amounts with
  | nil => simp
  | cons amount rest ih =>
    obtain ⟨inflow, outflow, net⟩ := ih
    rw [List.map_cons, List.sum_cons, List.sum_cons, ← net, Prod.fst_add, Prod.snd_add, inOut]
    by_cases positive : 0 < amount
    · rw [if_pos positive]
      refine ⟨by linarith, by linarith, by ring⟩
    · rw [if_neg positive, abs_of_nonpos (not_lt.mp positive)]
      refine ⟨by linarith, by linarith, by ring⟩

section Walks

variable {w : CashState} {q : CashQuery}

/-- What is pending for a day, of what the ladder has read. -/
def CashState.pendingOn (w : CashState) (q : CashQuery) (day : Date) : Decimal :=
  totalOf (·.settlementDate) (w.settlementAmount q) day
    ((w.settlementsBetween q).filter fun s => s.status = .pending)

def CashState.scheduledOn (w : CashState) (q : CashQuery) (day : Date) : Decimal :=
  totalOf (·.flowDate) (w.flowAmount q) day (w.flowsBetween q)

theorem byDate_spec (day : Date) :
    0 ≤ (((w.byDate q).lookup day).getD (0, 0)).1 ∧ 0 ≤ (((w.byDate q).lookup day).getD (0, 0)).2 ∧
      (((w.byDate q).lookup day).getD (0, 0)).1 - (((w.byDate q).lookup day).getD (0, 0)).2 =
        w.pendingOn q day := by
  have found := getD_lookup_totals (·.settlementDate) (fun s => inOut (w.settlementAmount q s))
    ((w.settlementsBetween q).filter fun s => s.status = .pending) day
  have spec := sum_inOut ((((w.settlementsBetween q).filter fun s => s.status = .pending).filter
    fun s => s.settlementDate = day).map (w.settlementAmount q))
  rw [List.map_map] at spec
  change ((w.byDate q).lookup day).getD (0, 0) = _ at found
  rw [found]
  exact spec

/-- The last entry of the ladder is as far as the walk. -/
def LadderWalk.Ends (walk : LadderWalk) : Prop :=
  ∃ entry, walk.entries.getLast? = some entry ∧ entry.cumulativeBalance = walk.cumulative

theorem LadderWalk.visit_cumulative (walk : LadderWalk) (day : Date) :
    (walk.visit w q day).cumulative = walk.cumulative + w.pendingOn q day := by
  rw [← (byDate_spec day).2.2]
  rfl

/-- A day without an entry has no flows. -/
theorem LadderWalk.visit_ends {walk : LadderWalk} {day : Date}
    (some_entry : day = snapToBusinessDay q.today ∨ walk.Ends) : (walk.visit w q day).Ends := by
  obtain ⟨inflow, outflow, -⟩ := byDate_spec (w := w) (q := q) day
  unfold LadderWalk.visit
  generalize ((w.byDate q).lookup day).getD (0, 0) = flows at inflow outflow
  obtain ⟨inflow', outflow'⟩ := flows
  dsimp only
  split
  · exact ⟨_, List.getLast?_concat, rfl⟩
  · rename_i nothing
    simp only [not_or, not_lt] at nothing
    obtain ⟨entry, last, same⟩ := some_entry.resolve_left nothing.2.2
    refine ⟨entry, last, ?_⟩
    rw [same, le_antisymm nothing.1 inflow, le_antisymm nothing.2.1 outflow]
    simp

theorem LadderWalk.foldl_visit (days : List ℤ) (walk : LadderWalk) :
    (days.foldl (LadderWalk.visit w q) walk).cumulative =
        walk.cumulative + (days.map (w.pendingOn q)).sum ∧
      (walk.Ends → (days.foldl (LadderWalk.visit w q) walk).Ends) := by
  induction days generalizing walk with
  | nil => exact ⟨by simp, id⟩
  | cons day rest ih =>
    obtain ⟨cumulative, ends⟩ := ih (walk.visit w q day)
    rw [List.foldl_cons, List.map_cons, List.sum_cons]
    constructor
    · rw [cumulative, LadderWalk.visit_cumulative]
      ring
    · exact fun before => ends (LadderWalk.visit_ends (.inr before))

def ProjectionWalk.Ends (walk : ProjectionWalk) : Prop :=
  ∃ entry, walk.entries.getLast? = some entry ∧ entry.closingBalance = walk.running

theorem sum_flowsOn (day : Date) :
    ((w.flowsOn q day).map (·.amount)).sum = w.pendingOn q day + w.scheduledOn q day := by
  have pending : ((w.settlementsBetween q).filter fun s => s.settlementDate = day ∧ s.status = .pending) =
      ((w.settlementsBetween q).filter fun s => s.status = .pending).filter
        fun s => s.settlementDate = day := by
    rw [List.filter_filter]
    exact List.filter_congr fun s _ => by simp
  rw [CashState.flowsOn, pending, List.map_append, List.sum_append, List.map_map, List.map_map]
  rfl

theorem ProjectionWalk.visit_running (walk : ProjectionWalk) (day : Date) :
    (walk.visit w q day).running = walk.running + (w.pendingOn q day + w.scheduledOn q day) := by
  have net := (sum_inOut ((w.flowsOn q day).map (·.amount))).2.2
  rw [List.map_map, sum_flowsOn] at net
  rw [← net]
  unfold ProjectionWalk.visit
  exact add_sub_assoc _ _ _

theorem ProjectionWalk.foldl_visit (days : List ℤ) (walk : ProjectionWalk) :
    (days.foldl (ProjectionWalk.visit w q) walk).running =
        walk.running + (days.map fun day => w.pendingOn q day + w.scheduledOn q day).sum ∧
      (walk.Ends → (days.foldl (ProjectionWalk.visit w q) walk).Ends) := by
  induction days generalizing walk with
  | nil => exact ⟨by simp, id⟩
  | cons day rest ih =>
    obtain ⟨running, ends⟩ := ih (walk.visit w q day)
    rw [List.foldl_cons, List.map_cons, List.sum_cons]
    constructor
    · rw [running, ProjectionWalk.visit_running]
      ring
    · exact fun _ => ends ⟨_, List.getLast?_concat, rfl⟩

/-! ## What the walk has counted -/

variable (q) in
/-- Of what is due, the walk counts what it has read for its days and what is not missed. -/
theorem sum_walked {α : Type} {date : α → ℤ} (amount : α → Decimal) {read due : List α}
    (visited : (read.filter fun x => date x ∈ businessDays q.today q.last).Perm
      (due.filter fun x => !decide (Missed q (date x)))) :
    ((businessDays q.today q.last).map fun day => totalOf date amount day read).sum +
      ((due.filter fun x => Missed q (date x)).map amount).sum = (due.map amount).sum := by
  rw [sum_totalOf _ _ (businessDays_distinct _ _), (visited.map _).sum_eq, add_comm]
  exact sum_filter_add _ _ _

theorem visited_iff {day : ℤ} : day ∈ businessDays q.today q.last ↔ day ≤ q.last ∧ ¬ Missed q day := by
  rw [mem_businessDays, Missed, not_or, not_lt, not_not]
  constructor
  · rintro ⟨after, within, own⟩
    exact ⟨within, after, own⟩
  · rintro ⟨within, after, own⟩
    exact ⟨after, within, own⟩

theorem sum_pendingOn : ((businessDays q.today q.last).map (w.pendingOn q)).sum +
    (((dueSettlements w q).filter fun s => Missed q s.settlementDate).map (w.settlementAmount q)).sum =
      ((dueSettlements w q).map (w.settlementAmount q)).sum := by
  apply sum_walked q (w.settlementAmount q)
  have read := sortOn_perm (fun s : Settlement => s.settlementDate)
    (w.tables.settlements.rows.filter fun s => s.account.portfolioId = q.portfolioId ∧
      q.today ≤ s.settlementDate ∧ s.settlementDate ≤ q.last)
  refine ((read.filter _).filter _).trans (List.Perm.of_eq ?_)
  rw [dueSettlements, List.filter_filter, List.filter_filter, List.filter_filter]
  apply List.filter_congr
  intro s _
  have missed : ¬ Missed q s.settlementDate → q.today ≤ s.settlementDate := fun visited =>
    not_lt.mp (not_or.mp visited).1
  rw [Bool.eq_iff_iff]
  simp only [Bool.and_eq_true, decide_eq_true_iff, Bool.not_eq_true', decide_eq_false_iff_not, visited_iff]
  tauto

theorem sum_scheduledOn : ((businessDays q.today q.last).map (w.scheduledOn q)).sum +
    (((dueFlows w q).filter fun f => Missed q f.flowDate).map (w.flowAmount q)).sum =
      ((dueFlows w q).map (w.flowAmount q)).sum := by
  apply sum_walked q (w.flowAmount q)
  have read := sortOn_perm (fun f : ScheduledFlow => f.flowDate)
    (w.scheduled.filter fun f => f.portfolioId = q.portfolioId ∧ q.today ≤ f.flowDate ∧
      f.flowDate ≤ q.last)
  refine (read.filter _).trans (List.Perm.of_eq ?_)
  rw [dueFlows, List.filter_filter, List.filter_filter]
  apply List.filter_congr
  intro f _
  have missed : ¬ Missed q f.flowDate → q.today ≤ f.flowDate := fun visited =>
    not_lt.mp (not_or.mp visited).1
  rw [Bool.eq_iff_iff]
  simp only [Bool.and_eq_true, decide_eq_true_iff, Bool.not_eq_true', decide_eq_false_iff_not, visited_iff]
  tauto

/-- What the reports end with, where the horizon has a business day. -/
theorem reports_end (reached : snapToBusinessDay q.today ≤ q.last) :
    (∃ entry, (getSettlementLadder w q).getLast? = some entry ∧ entry.cumulativeBalance =
      w.currentBalance q + ((businessDays q.today q.last).map (w.pendingOn q)).sum) ∧
    ∃ entry, (getProjection w q).getLast? = some entry ∧ entry.closingBalance =
      w.currentBalance q + ((businessDays q.today q.last).map (w.pendingOn q)).sum +
        ((businessDays q.today q.last).map (w.scheduledOn q)).sum := by
  have ladder := LadderWalk.foldl_visit (w := w) (q := q) (businessDays q.today q.last)
    { cumulative := w.currentBalance q }
  have projection := ProjectionWalk.foldl_visit (w := w) (q := q) (businessDays q.today q.last)
    { running := w.currentBalance q }
  obtain ⟨rest, days⟩ := businessDays_first reached
  rw [List.sum_map_add, ← add_assoc] at projection
  rw [← projection.1, ← ladder.1, getSettlementLadder, getProjection, days]
  constructor
  · exact (LadderWalk.foldl_visit rest _).2 (LadderWalk.visit_ends (.inl rfl))
  · exact (ProjectionWalk.foldl_visit rest _).2 ⟨_, List.getLast?_concat, rfl⟩

end Walks

/-- The reports account for all that is due exactly when all of it that matters is due in time. -/
theorem accounted_iff (w : CashState) (q : CashQuery) : Accounted w q ↔ DueInTime w q := by
  by_cases reached : snapToBusinessDay q.today ≤ q.last
  · obtain ⟨⟨entry, last, cumulative⟩, ⟨entry', last', closing⟩⟩ := reports_end (w := w) reached
    have settlements := sum_pendingOn (w := w) (q := q)
    have flows := sum_scheduledOn (w := w) (q := q)
    constructor
    · rintro ⟨⟨own, found, due⟩, ⟨own', found', due'⟩⟩
      cases last.symm.trans found
      cases last'.symm.trans found'
      rw [cumulative] at due
      rw [closing] at due'
      exact ⟨reached, by linarith, by linarith⟩
    · rintro ⟨-, missed, missed'⟩
      refine ⟨⟨entry, last, ?_⟩, ⟨entry', last', ?_⟩⟩
      · rw [cumulative]
        linarith
      · rw [closing]
        linarith
  · -- there is no entry at all
    have none : getSettlementLadder w q = [] := by
      rw [getSettlementLadder, businessDays_empty reached]
      rfl
    constructor
    · rintro ⟨⟨entry, found, -⟩, -⟩
      rw [none] at found
      cases found
    · exact fun intime => absurd intime.reached reached

/-- Three hundred dollars that were due on Friday the first of August 2025, asked about on Monday. -/
def pastDue : CashState where
  tables :=
    { settlements :=
        (Numbered.empty : Numbered Settlement.id).append
          { id := 0, account := ⟨.ofNat 1, "USD"⟩, orderId := none, instrumentId := "AAPL"
            settlementAmount := 300, tradeDate := 739462, settlementDate := 739464 } rfl }
  scheduled := []
  fx := none

def onMonday : CashQuery where
  portfolioId := .ofNat 1
  today := 739467
  horizonDays := 10

theorem pastDue_unaccounted : ¬ Accounted pastDue onMonday := by
  rintro ⟨⟨entry, found, due⟩, -⟩
  have last : (getSettlementLadder pastDue onMonday).getLast?.map (·.cumulativeBalance) = some 0 := by
    decide +kernel
  rw [found, Option.map_some, due] at last
  have amount : pastDue.currentBalance onMonday + ((dueSettlements pastDue onMonday).map
      (pastDue.settlementAmount onMonday)).sum = 300 := by decide +kernel
  rw [amount] at last
  cases last

end MiniHedge.CashManagement
