import MiniHedge.Eod.DataFlow
import MiniHedge.Eod.NavCalculator

/-! The NAV per share of a fund with several portfolios.

`_execute_step` divides the NAVs that the NAV step has stored by the shares that
it has stored with them. Each of them has all the shares of the fund.
-/

set_option autoImplicit false

namespace MiniHedge.Eod

open MiniHedge.Python MiniHedge.Library
open MiniHedge.CapitalAccounts (CapitalAccountRecord)

/-! ## What is passed on -/

section Passed

variable {σ : Type} (services : EodServices σ) (portfolioIds : List UUID) (stepData : StepData)
variable (s : σ)

/-- What one step asks the services, from a state. -/
def stepTrace (step : EODStepName) : Trace :=
  (ended (executeStep services.traced portfolioIds step stepData) { state := s }).trace

def Trace.navPerShares (t : Trace) : List Decimal :=
  t.allocations.map (·.navPerShare) ++ t.subscriptions.map (·.1) ++ t.redemptions.map (·.1)

/-- The NAVs per share that capital allocation and dealing are called with. -/
def passed : List Decimal :=
  (stepTrace services portfolioIds stepData s .capitalAllocation).navPerShares ++
    (stepTrace services portfolioIds stepData s .dealingDateExecution).navPerShares

/-- Something is called with a NAV per share. -/
def Configured : Prop :=
  services.allocateDaily.isSome ∨ services.executeSubscriptions.isSome ∨
    services.executeRedemptions.isSome

instance : Decidable (Configured services) := inferInstanceAs (Decidable (_ ∨ _))

/-- The quotient that the two steps compute. -/
def StepData.navPerShare : Decimal :=
  totalNav (stepData.navSnapshots.getD []) / totalShares (stepData.navSnapshots.getD [])

/-- What `allocate_daily` is called with. -/
def StepData.allocation : DailyAllocation where
  fundPnl := stepData.fundPnl.getD 0
  managementFee := stepData.managementFee.getD 0
  performanceFee := stepData.performanceFee.getD 0
  navPerShare := stepData.navPerShare
  classFees := stepData.classFees

variable {services portfolioIds stepData}

/-- A call is noted, whether it answers or raises. -/
theorem ended_noted {α : Type} (note : Trace → Trace) (x : Program σ α) (t : Traced σ) :
    (ended (noted (·.note note) x fun _ => id) t).trace = note t.trace := by
  unfold noted
  cases ran : x t.state <;>
    simp [ended, untraced, ran, Traced.note, Bind.bind, EStateM.bind, modify_eq, Pure.pure, EStateM.pure]

/-- The program after a noted call runs from a state where that is noted, if it runs at all. -/
theorem ended_noted_bind {α β : Type} (note : Trace → Trace) (x : Program σ α)
    (next : α → Program (Traced σ) β) (t : Traced σ) :
    (ended (noted (·.note note) x (fun _ => id) >>= next) t).trace = note t.trace ∨
      ∃ a t', t'.trace = note t.trace ∧
        ended (noted (·.note note) x (fun _ => id) >>= next) t = ended (next a) t' := by
  have noting : (ended (noted (·.note note) x fun _ => id) t).trace = note t.trace :=
    ended_noted note x t
  cases ran : noted (·.note note) x (fun _ => id) t with
  | ok a t' =>
    simp only [ended, ran] at noting
    exact .inr ⟨a, t', noting, by simp only [ended, Bind.bind, EStateM.bind, ran]⟩
  | error e t' =>
    simp only [ended, ran] at noting
    exact .inl (by simp only [ended, Bind.bind, EStateM.bind, ran, noting])

/-- Capital is allocated once, where there are shares. -/
theorem stepTrace_allocation : stepTrace services portfolioIds stepData s .capitalAllocation =
    if 0 < totalShares (stepData.navSnapshots.getD []) ∧ services.allocateDaily.isSome then
      { allocations := [stepData.allocation] } else {} := by
  unfold stepTrace executeStep
  dsimp only
  rw [ended_bind_pure, capitalAllocation]
  cases wired : services.allocateDaily with
  | none => simp [EodServices.traced, wired, ended_pure]
  | some allocateDaily =>
    simp only [EodServices.traced, wired, Option.map_some]
    by_cases shares : totalShares (stepData.navSnapshots.getD []) ≤ 0
    · simp [shares, ended_pure]
    · rw [if_neg shares, ended_bind_pure, ended_noted]
      simp [StepData.allocation, StepData.navPerShare, not_le.mp shares]

theorem mem_allocated {n : Decimal} :
    n ∈ (stepTrace services portfolioIds stepData s .capitalAllocation).navPerShares ↔
      n = stepData.navPerShare ∧ 0 < totalShares (stepData.navSnapshots.getD []) ∧
        services.allocateDaily.isSome := by
  rw [stepTrace_allocation]
  split
  · rename_i wired
    simp [Trace.navPerShares, StepData.allocation, wired.1, wired.2]
  · rename_i unwired
    simp [Trace.navPerShares, unwired]

theorem mem_dealt {n : Decimal} :
    n ∈ (stepTrace services portfolioIds stepData s .dealingDateExecution).navPerShares ↔
      n = stepData.navPerShare ∧ 0 < totalShares (stepData.navSnapshots.getD []) ∧
        portfolioIds ≠ [] ∧
        (services.executeSubscriptions.isSome ∨ services.executeRedemptions.isSome) := by
  unfold stepTrace executeStep
  dsimp only
  rw [ended_bind_pure, dealingDateExecution]
  by_cases unwired : services.executeSubscriptions = none ∧ services.executeRedemptions = none
  · simp [EodServices.traced, unwired, ended_pure, Trace.navPerShares]
  have wired : ¬ (services.traced.executeSubscriptions.isNone ∧
      services.traced.executeRedemptions.isNone) := by
    simpa [EodServices.traced] using unwired
  rw [if_neg wired]
  by_cases shares : totalShares (stepData.navSnapshots.getD []) ≤ 0
  · rw [if_pos shares]
    simp [shares, ended_pure, Trace.navPerShares]
  rw [if_neg shares]
  cases portfolioIds with
  | nil => simp [ended_pure, Trace.navPerShares]
  | cons first rest =>
    have positive := not_le.mp shares
    cases subscribes : services.executeSubscriptions with
    | none =>
      cases redeems : services.executeRedemptions with
      | none => exact absurd ⟨subscribes, redeems⟩ unwired
      | some redeem =>
        simp only [EodServices.traced, subscribes, redeems, Option.map_some, Option.map_none]
        rw [ended_bind_pure, ended_noted]
        simp [Trace.navPerShares, StepData.navPerShare, positive]
    | some subscribe =>
      cases redeems : services.executeRedemptions with
      | none =>
        simp only [EodServices.traced, subscribes, redeems, Option.map_some, Option.map_none]
        rw [ended_bind_pure, ended_noted]
        simp [Trace.navPerShares, StepData.navPerShare, positive]
      | some redeem =>
        simp only [EodServices.traced, subscribes, redeems, Option.map_some]
        -- the redemptions are not executed when the subscriptions raise
        rcases ended_noted_bind _ _ _ _ with raised | ⟨_, t', noting, onward⟩
        · rw [raised]
          simp [Trace.navPerShares, StepData.navPerShare, positive]
        · rw [onward, ended_bind_pure, ended_noted, noting]
          simp [Trace.navPerShares, StepData.navPerShare, positive]

/-- What is passed is the one quotient, where there is something to pass it to. -/
theorem mem_passed {n : Decimal} : n ∈ passed services portfolioIds stepData s ↔
    n = stepData.navPerShare ∧ 0 < totalShares (stepData.navSnapshots.getD []) ∧
      (services.allocateDaily.isSome ∨ portfolioIds ≠ [] ∧
        (services.executeSubscriptions.isSome ∨ services.executeRedemptions.isSome)) := by
  rw [passed, List.mem_append, mem_allocated, mem_dealt]
  tauto

end Passed

/-! ## The NAVs of the fund -/

section Fund

variable (services : EodServices FundBooks) (calculator : NAVCalculator) (books : FundBooks)
variable (portfolioIds : List UUID)

/-- The services, with the calculator. -/
def EodServices.withNav : EodServices FundBooks :=
  { services with calculateNav := calculator.calculateNav }

def fundNav : Decimal := (portfolioIds.map (calculator.nav books)).sum

/-- Every NAV per share that is passed on after the NAV step is the NAV of the portfolios
over the shares of the fund, counted once. -/
def PassesFundNav (stepData : StepData) : Prop :=
  ∃ stored books', executeStep (services.withNav calculator) portfolioIds .navCalculation stepData
      books = .ok stored books' ∧
    ∀ s, ∀ n ∈ passed (services.withNav calculator) portfolioIds stored s,
      n * CapitalAccounts.totalShares books.accounts = fundNav calculator books portfolioIds

variable {services calculator books portfolioIds}

theorem navCalculation_run (stepData : StepData) : ∃ books',
    executeStep (services.withNav calculator) portfolioIds .navCalculation stepData books =
      .ok { stepData with navSnapshots := some (portfolioIds.foldl (fun snapshots pid =>
        setItem pid (calculator.snapshot books pid) snapshots) []) } books' := by
  suffices general : ∀ (rest : List UUID) (done : List (UUID × NAVSnapshot)) (now : FundBooks),
      (∀ pid, calculator.snapshot now pid = calculator.snapshot books pid) →
      ∃ books', (rest.foldlM (fun snapshots pid => do
          return setItem pid (← (services.withNav calculator).calculateNav pid) snapshots) done :
            Program FundBooks (List (UUID × NAVSnapshot))) now =
        .ok (rest.foldl (fun snapshots pid => setItem pid (calculator.snapshot books pid) snapshots)
          done) books' by
    obtain ⟨books', ran⟩ := general portfolioIds [] books fun _ => rfl
    refine ⟨books', ?_⟩
    change EStateM.bind _ _ books = _
    rw [EStateM.bind, ran]
    rfl
  intro rest
  induction rest with
  | nil => exact fun done now _ => ⟨now, rfl⟩
  | cons pid rest ih =>
    intro done now same
    have kept : ∀ other, calculator.snapshot (now.upsertNav (calculator.record now pid)) other =
        calculator.snapshot books other := fun other => same other
    obtain ⟨books', ran⟩ := ih (setItem pid (calculator.snapshot books pid) done) _ kept
    refine ⟨books', ?_⟩
    rw [List.foldl_cons, ← ran, ← same pid]
    rfl

theorem totalNav_snapshots (portfolioIds : List UUID) :
    totalNav (portfolioIds.map fun pid => (pid, calculator.snapshot books pid)) =
      fundNav calculator books portfolioIds := by
  rw [totalNav, List.map_map]
  rfl

theorem totalShares_snapshots (portfolioIds : List UUID) :
    totalShares (portfolioIds.map fun pid => (pid, calculator.snapshot books pid)) =
      (portfolioIds.map fun pid => if calculator.ReadsShares books pid then
        CapitalAccounts.totalShares books.accounts else defaultShares).sum := by
  rw [totalShares, List.map_map]
  refine congrArg List.sum (List.map_congr_left fun pid _ => ?_)
  exact calculator.sharesOutstanding_eq books pid

theorem totalShares_pos (some_portfolio : portfolioIds ≠ []) :
    0 < totalShares (portfolioIds.map fun pid => (pid, calculator.snapshot books pid)) := by
  rw [totalShares, List.map_map]
  refine List.sum_pos _ (fun shares member => ?_) (by simpa using some_portfolio)
  obtain ⟨pid, -, rfl⟩ := List.mem_map.mp member
  exact calculator.sharesOutstanding_pos books pid

/-- Exactly then: nothing is passed on, the NAVs cancel out, or the shares that are counted
for the portfolios are together those of the fund. -/
theorem passesFundNav_iff (distinct : portfolioIds.Nodup) (stepData : StepData) :
    PassesFundNav services calculator books portfolioIds stepData ↔
      portfolioIds = [] ∨ ¬ Configured services ∨ fundNav calculator books portfolioIds = 0 ∨
        (portfolioIds.map fun pid => if calculator.ReadsShares books pid then
          CapitalAccounts.totalShares books.accounts else defaultShares).sum =
            CapitalAccounts.totalShares books.accounts := by
  obtain ⟨books', ran⟩ : ∃ books', executeStep (services.withNav calculator) portfolioIds
      .navCalculation stepData books = .ok _ books' := navCalculation_run stepData
  have snapshots : portfolioIds.foldl (fun snapshots pid =>
      setItem pid (calculator.snapshot books pid) snapshots) [] =
        portfolioIds.map fun pid => (pid, calculator.snapshot books pid) :=
    foldl_setItem (fun pid => pid) (calculator.snapshot books) (by simpa using distinct)
  rw [snapshots] at ran
  have passes : ∀ (s : FundBooks) (n : Decimal), n ∈ passed (services.withNav calculator)
      portfolioIds { stepData with navSnapshots := some (portfolioIds.map fun pid =>
        (pid, calculator.snapshot books pid)) } s ↔
      n = fundNav calculator books portfolioIds / totalShares (portfolioIds.map fun pid =>
        (pid, calculator.snapshot books pid)) ∧ portfolioIds ≠ [] ∧ Configured services := by
    intro s n
    rw [mem_passed, StepData.navPerShare, Option.getD_some, totalNav_snapshots]
    refine and_congr_right fun _ => ⟨fun ⟨positive, wired⟩ => ?_, fun ⟨some_portfolio, wired⟩ =>
      ⟨totalShares_pos some_portfolio, wired.imp id fun wired => ⟨some_portfolio, wired⟩⟩⟩
    have some_portfolio : portfolioIds ≠ [] := by
      rintro rfl
      exact lt_irrefl _ positive
    exact ⟨some_portfolio, wired.imp id (·.2)⟩
  rw [← totalShares_snapshots]
  constructor
  · rintro ⟨stored, _, ran', all⟩
    obtain ⟨rfl, rfl⟩ := EStateM.Result.ok.inj (ran.symm.trans ran')
    rw [or_iff_not_imp_left, or_iff_not_imp_left]
    intro some_portfolio wired
    have counted := all books _ ((passes books _).mpr ⟨rfl, some_portfolio, not_not.mp wired⟩)
    have positive : totalShares (portfolioIds.map fun pid =>
        (pid, calculator.snapshot books pid)) ≠ 0 := (totalShares_pos some_portfolio).ne'
    rw [div_mul_eq_mul_div, div_eq_iff positive] at counted
    exact (mul_eq_mul_left_iff.mp counted).symm.imp id Eq.symm
  · intro holds
    refine ⟨_, books', ran, fun s n passed => ?_⟩
    obtain ⟨rfl, some_portfolio, wired⟩ := (passes s n).mp passed
    rcases holds with none | unwired | zero | same
    · exact absurd none some_portfolio
    · exact absurd wired unwired
    · rw [zero, zero_div, zero_mul]
    · rw [same, div_mul_cancel₀]
      rw [← same]
      exact (totalShares_pos some_portfolio).ne'

end Fund

/-! ## Two portfolios and ten shares -/

section Counted

def secondPortfolio : UUID := .ofNat 2

/-- Capital is allocated, and nothing else is wired. -/
def allocating : EodServices FundBooks where
  finalizePrices := pure ()
  fetchAndProcess := none
  reconcile _ := pure ()
  calculateNav _ := pure ⟨0, 0⟩
  snapshotPnl _ := pure 0
  accrueDailyFees := none
  capitalService := none
  allocateDaily := some fun _ => pure 1
  executeSubscriptions := none
  executeRedemptions := none
  takeSnapshot _ := pure ()
  calculateBrinsonFachler := none
  generateReport := none

def readingShares : NAVCalculator where
  businessDate := 1
  capitalService := some fun _ => .ok ()

/-- Each of two portfolios has 100 in cash, and an investor has ten shares. -/
def tenShares : FundBooks where
  cash := {
    balances := [(⟨firstPortfolio, "USD"⟩, { availableBalance := 100 }),
      (⟨secondPortfolio, "USD"⟩, { availableBalance := 100 })] }
  accounts := [{
    investorId := .ofNat 3
    shareClass := "default"
    sharesHeld := 10
    effectiveDate := 1 }]

/-- What the NAV step stores for both. -/
def tenSharesTwice : StepData where
  navSnapshots := some [(firstPortfolio, ⟨100, 10⟩), (secondPortfolio, ⟨100, 10⟩)]

/-- With one portfolio, the shares are counted once. -/
theorem passesFundNav_one : PassesFundNav allocating readingShares tenShares [firstPortfolio] {} :=
  (passesFundNav_iff (by decide) {}).mpr (.inr (.inr (.inr (by decide +kernel))))

/-- A NAV of 200 and ten shares are 10 per share. -/
theorem shares_counted_twice :
    ¬ PassesFundNav allocating readingShares tenShares [firstPortfolio, secondPortfolio] {} := by
  rintro ⟨stored, books', ran, all⟩
  have snapshots : stored = tenSharesTwice := by
    have calculated : (match executeStep (allocating.withNav readingShares)
        [firstPortfolio, secondPortfolio] .navCalculation {} tenShares with
        | .ok stored _ => some stored
        | .error _ _ => none) = some tenSharesTwice := by
      decide +kernel
    rw [ran] at calculated
    exact Option.some.inj calculated
  subst snapshots
  have counted := all tenShares 10 (by decide +kernel)
  exact absurd counted (by decide +kernel)

end Counted

end MiniHedge.Eod
