import MiniHedge.Eod.NavPerShare
import MiniHedge.Eod.TradeAtMark

/-! `PnLSnapshotService`, and what capital allocation distributes over the days.

A snapshot adds up the unrealized P&L that the positions have by then; what has
been realized is taken to be zero. The records of the single positions are left
out. In a run nothing of it reaches capital allocation.
-/

set_option autoImplicit false

namespace MiniHedge.Eod

open MiniHedge.Python MiniHedge.Library
open MiniHedge.MarketData
open MiniHedge.CashManagement (Date)
open MiniHedge.Positions (CurrentPositionRecord)

structure PnLSnapshotService where
  businessDate : Date
  baseCurrency : String := "USD"
  fx : Option FXConverter := none

namespace PnLSnapshotService

variable (service : PnLSnapshotService) (books : FundBooks) (portfolioId : UUID)

def totalUnrealized : Decimal :=
  ((books.getByPortfolio portfolioId).map fun p =>
    toBase service.fx p.unrealizedPnl p.currency service.baseCurrency).sum

def record : PnLSnapshotRecord :=
  let totalRealized := 0
  { portfolioId
    businessDate := service.businessDate
    totalRealizedPnl := totalRealized
    totalUnrealizedPnl := service.totalUnrealized books portfolioId
    totalPnl := totalRealized + service.totalUnrealized books portfolioId
    positionCount := (books.getByPortfolio portfolioId).length }

/-- The caller gets the total. -/
def snapshotPnl : Program FundBooks Decimal := do
  let books ← get
  set (books.upsertPnl (service.record books portfolioId))
  return (service.record books portfolioId).totalPnl

/-- The realized and unrealized P&L of the positions of the portfolios, in the base currency. -/
def fundPnl (portfolioIds : List UUID) : Decimal :=
  (portfolioIds.map fun pid => ((books.getByPortfolio pid).map fun p =>
    toBase service.fx (p.realizedPnl + p.unrealizedPnl) p.currency service.baseCurrency).sum).sum

end PnLSnapshotService

/-- The services, with the snapshots of the P&L. -/
def EodServices.withPnl (services : EodServices FundBooks) (service : PnLSnapshotService) :
    EodServices FundBooks :=
  { services with snapshotPnl := service.snapshotPnl }

/-! ## One step after the other -/

section Handed

variable {services : EodServices FundBooks} {service : PnLSnapshotService}
variable {portfolioIds : List UUID}

theorem pnlSnapshot_run (stepData : StepData) (books : FundBooks) : ∃ books',
    executeStep (services.withPnl service) portfolioIds .pnlSnapshot stepData books =
      .ok { stepData with
        fundPnl := some (portfolioIds.map (service.totalUnrealized books)).sum } books' := by
  suffices general : ∀ (rest : List UUID) (total : Decimal) (now : FundBooks),
      now.positions = books.positions → ∃ books', (rest.foldlM (fun total pid => do
          return total + (← (services.withPnl service).snapshotPnl pid)) total :
            Program FundBooks Decimal) now =
        .ok (total + (rest.map (service.totalUnrealized books)).sum) books' by
    obtain ⟨books', ran⟩ := general portfolioIds 0 books rfl
    refine ⟨books', ?_⟩
    rw [zero_add] at ran
    change EStateM.bind _ _ books = _
    rw [EStateM.bind, ran]
    rfl
  intro rest
  induction rest with
  | nil => exact fun total now _ => ⟨now, by rw [List.map_nil, List.sum_nil, add_zero]; rfl⟩
  | cons pid rest ih =>
    intro total now same
    have snapshot : (service.record now pid).totalPnl = service.totalUnrealized books pid := by
      simp only [PnLSnapshotService.record, PnLSnapshotService.totalUnrealized,
        FundBooks.getByPortfolio, same, zero_add]
    obtain ⟨books', ran⟩ := ih (total + service.totalUnrealized books pid)
      (now.upsertPnl (service.record now pid)) same
    refine ⟨books', ?_⟩
    rw [List.map_cons, List.sum_cons, ← add_assoc, ← ran, ← snapshot]
    rfl

/-- Where the dictionary is handed on, what is allocated is all that is unrealized by then,
on each day anew, and nothing of what has been realized. -/
theorem allocated_cumulative {stepData stored : StepData} {books books' : FundBooks}
    (ran : executeStep (services.withPnl service) portfolioIds .pnlSnapshot stepData books =
      .ok stored books') (s : FundBooks) :
    ∀ a ∈ (stepTrace (services.withPnl service) portfolioIds stored s
        .capitalAllocation).allocations,
      a.fundPnl = (portfolioIds.map (service.totalUnrealized books)).sum := by
  obtain ⟨_, ran'⟩ : ∃ books', executeStep (services.withPnl service) portfolioIds .pnlSnapshot
      stepData books = .ok _ books' := pnlSnapshot_run stepData books
  obtain ⟨rfl, -⟩ := EStateM.Result.ok.inj (ran'.symm.trans ran)
  rw [stepTrace_allocation]
  split
  · simp [StepData.allocation]
  · simp

end Handed

/-! ## One day after the other -/

section Days

/-- The trades and prices of a day, and the run that follows them. -/
structure EodDay where
  trading : FundBooks → FundBooks
  services : EodServices FundBooks
  service : PnLSnapshotService

variable (portfolioIds : List UUID)

/-- The traces of the runs of the days, and the P&L that each day ends with. -/
def runDays : List EodDay → FundBooks → List (Trace × Decimal)
  | [], _ => []
  | day :: rest, books =>
    let services := day.services.withPnl day.service
    let run := (runAll services.traced portfolioIds { state := day.trading books }).2
    (run.trace, day.service.fundPnl run.state portfolioIds) :: runDays rest run.state

/-- What capital allocation has distributed of P&L. -/
def distributed (days : List (Trace × Decimal)) : Decimal :=
  ((days.flatMap (·.1.allocations)).map (·.fundPnl)).sum

/-- What is distributed over the days is what the P&L has changed by from the first of them
to the last. -/
def Telescopes (days : List EodDay) (books : FundBooks) : Prop :=
  ∀ first last, (runDays portfolioIds days books).head? = some first →
    (runDays portfolioIds days books).getLast? = some last →
      distributed (runDays portfolioIds days books) = last.2 - first.2

variable {portfolioIds}

/-- No run allocates anything. -/
theorem distributed_runDays (days : List EodDay) (books : FundBooks) :
    distributed (runDays portfolioIds days books) = 0 := by
  induction days generalizing books with
  | nil => rfl
  | cons day rest ih =>
    have idle : Idle (runAll (day.services.withPnl day.service).traced portfolioIds
        { state := day.trading books }).2 := idle_runSteps portfolioIds stepOrder (.start _)
    rw [runDays, distributed, List.flatMap_cons, idle.allocations, List.nil_append]
    exact ih _

/-- Over any days, whatever happens on them: what is distributed is the change of the P&L
exactly if the last day ends with the P&L of the first. -/
theorem telescopes_iff (days : List EodDay) (books : FundBooks) :
    Telescopes portfolioIds days books ↔
      ((runDays portfolioIds days books).getLast?.map (·.2)) =
        ((runDays portfolioIds days books).head?.map (·.2)) := by
  rw [Telescopes, distributed_runDays]
  cases ran : runDays portfolioIds days books with
  | nil => simp
  | cons first rest =>
    obtain ⟨last, ends⟩ : ∃ last, (first :: rest).getLast? = some last :=
      Option.isSome_iff_exists.mp (by simp)
    simp only [List.head?_cons, ends, Option.map_some, Option.some.injEq]
    constructor
    · intro telescopes
      exact sub_eq_zero.mp (telescopes first last rfl rfl).symm
    · rintro same _ _ rfl rfl
      exact (sub_eq_zero.mpr same).symm

end Days

/-! ## A gain that is not distributed -/

section Gain

/-- Ten shares are bought at 100 on the first day, and the price comes in. -/
def buyingDay : EodDay where
  trading books := (firstTraded (tenAtHundred .buy)).getD books
  services := allocating
  service := { businessDate := 1 }

/-- The price is 110. -/
def risingDay : EodDay where
  trading books := { books with
    positions := books.positions.handlePriceUpdate equities "AAPL" 110 }
  services := allocating
  service := { businessDate := 2 }

/-- The P&L goes from 0 to 100, and nothing is distributed. -/
theorem gain_kept : ¬ Telescopes [⟨1, by decide⟩] [buyingDay, risingDay] {} := by
  intro telescopes
  have start : (runDays [⟨1, by decide⟩] [buyingDay, risingDay] {}).head?.map (·.2) = some 0 := by
    decide +kernel
  have finish : (runDays [⟨1, by decide⟩] [buyingDay, risingDay] {}).getLast?.map (·.2) =
      some 100 := by
    decide +kernel
  obtain ⟨first, opens, none⟩ := Option.map_eq_some_iff.mp start
  obtain ⟨last, ends, gained⟩ := Option.map_eq_some_iff.mp finish
  have change := telescopes first last opens ends
  rw [distributed_runDays, none, gained] at change
  norm_num at change

end Gain

end MiniHedge.Eod
