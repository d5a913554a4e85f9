import MiniHedge.Library.Raising
import MiniHedge.Eod.Orchestrator

/-! What the steps of a run hand on.

The trace of a run holds what the services were asked and what they answered.
The dictionary of a run is empty when the first step gets it, and then no step
ever stores anything in it: fees are accrued on no NAV, and neither is capital
allocated nor are dealings executed.
-/

set_option autoImplicit false

namespace MiniHedge.Eod

open MiniHedge.Python MiniHedge.Library

/-- A call of `accrue_daily_fees`, and what was read of the capital before it. -/
structure Accrual where
  portfolioId : UUID
  nav : Decimal
  shareClass : String
  clsAum : Option Decimal
  endingCapitals : Option (List Decimal)
  deriving DecidableEq, Repr

/-- The part of a NAV that the accrual is for. -/
def Accrual.share (a : Accrual) (nav : Decimal) : Decimal :=
  match a.clsAum, a.endingCapitals with
  | some clsAum, some endingCapitals => classNav nav clsAum endingCapitals.sum
  | _, _ => nav

structure Trace where
  snapshots : List (UUID × NAVSnapshot) := []
  pnl : List Decimal := []
  accruals : List Accrual := []
  accrued : FeeTotals := {}
  allocations : List DailyAllocation := []
  subscriptions : List (Decimal × UUID) := []
  redemptions : List (Decimal × UUID) := []
  deriving DecidableEq, Repr

/-! ## Services that are traced -/

section Traced

variable {σ α : Type}

structure Traced (σ : Type) where
  state : σ
  trace : Trace := {}
  clsAum : Option Decimal := none
  endingCapitals : Option (List Decimal) := none

def untraced (x : Program σ α) : Program (Traced σ) α := fun s =>
  match x s.state with
  | .ok a state => .ok a { s with state }
  | .error e state => .error e { s with state }

/-- What is noted before the call and after its answer. -/
def noted (asked : Traced σ → Traced σ) (x : Program σ α) (answered : α → Traced σ → Traced σ) :
    Program (Traced σ) α := do
  modify asked
  let a ← untraced x
  modify (answered a)
  return a

def Traced.note (s : Traced σ) (note : Trace → Trace) : Traced σ := { s with trace := note s.trace }

def Traced.accrue (s : Traced σ) (portfolioId : UUID) (nav : Decimal) (shareClass : String) :
    Traced σ where
  state := s.state
  trace := { s.trace with accruals := s.trace.accruals ++
    [⟨portfolioId, nav, shareClass, s.clsAum, s.endingCapitals⟩] }

def CapitalService.traced (capital : CapitalService σ) : CapitalService (Traced σ) where
  listShareClasses := untraced capital.listShareClasses
  shareClassAum cls := noted id (capital.shareClassAum cls) fun clsAum s =>
    { s with clsAum := some clsAum }
  latestEndingCapitals := noted id capital.latestEndingCapitals fun endingCapitals s =>
    { s with endingCapitals := some endingCapitals }

def EodServices.traced (services : EodServices σ) : EodServices (Traced σ) where
  finalizePrices := untraced services.finalizePrices
  fetchAndProcess := services.fetchAndProcess.map fun x pid => untraced (x pid)
  reconcile pid := untraced (services.reconcile pid)
  calculateNav pid := noted id (services.calculateNav pid) fun snapshot s =>
    s.note fun t => { t with snapshots := setItem pid snapshot t.snapshots }
  snapshotPnl pid := noted id (services.snapshotPnl pid) fun pnl s =>
    s.note fun t => { t with pnl := t.pnl ++ [pnl] }
  accrueDailyFees := services.accrueDailyFees.map fun x pid nav cls =>
    noted (·.accrue pid nav cls) (x pid nav cls) fun accruals s =>
      s.note fun t => { t with accrued := t.accrued.add cls accruals }
  capitalService := services.capitalService.map CapitalService.traced
  allocateDaily := services.allocateDaily.map fun x request =>
    noted (·.note fun t => { t with allocations := t.allocations ++ [request] }) (x request)
      fun _ => id
  executeSubscriptions := services.executeSubscriptions.map fun x navPerShare pid =>
    noted (·.note fun t => { t with subscriptions := t.subscriptions ++ [(navPerShare, pid)] })
      (x navPerShare pid) fun _ => id
  executeRedemptions := services.executeRedemptions.map fun x navPerShare pid =>
    noted (·.note fun t => { t with redemptions := t.redemptions ++ [(navPerShare, pid)] })
      (x navPerShare pid) fun _ => id
  takeSnapshot pid := untraced (services.takeSnapshot pid)
  calculateBrinsonFachler := services.calculateBrinsonFachler.map fun x pid => untraced (x pid)
  generateReport := services.generateReport.map fun x stepData => untraced (x stepData)

/-- The run, traced. -/
def traceOf (services : EodServices σ) (portfolioIds : List UUID) (s : σ) : Trace :=
  (runAll services.traced portfolioIds { state := s }).2.trace

end Traced

/-! ## The data flow -/

section Flow

variable {σ : Type} (services : EodServices σ) (portfolioIds : List UUID) (t : Trace)

/-- What `allocate_daily` is to be called with. -/
def Trace.allocation : DailyAllocation where
  fundPnl := t.pnl.sum
  managementFee := t.accrued.managementFee
  performanceFee := t.accrued.performanceFee
  navPerShare := totalNav t.snapshots / totalShares t.snapshots
  classFees := services.accrueDailyFees.map fun _ => t.accrued.classFees

/-- The dealings that are to be executed, in the first portfolio. -/
def Trace.dealings : List (Decimal × UUID) :=
  portfolioIds.head?.toList.map fun pid => (totalNav t.snapshots / totalShares t.snapshots, pid)

/-- Fees are accrued on the NAV of the portfolio in this run; capital is
allocated and dealings are executed with what the earlier steps have produced,
unless there are no shares. -/
structure DataFlow : Prop where
  fees : ∀ a ∈ t.accruals, ∃ snapshot, t.snapshots.lookup a.portfolioId = some snapshot ∧
    a.nav = a.share snapshot.nav
  allocation : services.allocateDaily.isSome → 0 < totalShares t.snapshots →
    t.allocations = [t.allocation services]
  subscriptions : services.executeSubscriptions.isSome → 0 < totalShares t.snapshots →
    t.subscriptions = t.dealings portfolioIds
  redemptions : services.executeRedemptions.isSome → 0 < totalShares t.snapshots →
    t.redemptions = t.dealings portfolioIds

/-- Nothing depends on what is handed on: a NAV of zero gives the same share,
and what needs shares is not configured or finds none. -/
structure Unneeded : Prop where
  fees : ∀ a ∈ t.accruals, ∃ snapshot, t.snapshots.lookup a.portfolioId = some snapshot ∧
    a.share 0 = a.share snapshot.nav
  allocation : services.allocateDaily.isSome → totalShares t.snapshots ≤ 0
  subscriptions : services.executeSubscriptions.isSome →
    totalShares t.snapshots ≤ 0 ∨ portfolioIds = []
  redemptions : services.executeRedemptions.isSome →
    totalShares t.snapshots ≤ 0 ∨ portfolioIds = []

end Flow

/-! ## Nothing is handed on -/

section Idle

variable {σ α : Type} {services : EodServices σ}

/-- No fee has been accrued on a NAV, and nothing has been allocated or executed. -/
structure Idle (s : Traced σ) : Prop where
  accruals : ∀ a ∈ s.trace.accruals, a.nav = a.share 0
  unread : s.endingCapitals = none
  allocations : s.trace.allocations = []
  subscriptions : s.trace.subscriptions = []
  redemptions : s.trace.redemptions = []

theorem Idle.start (s : σ) : Idle { state := s } := ⟨nofun, rfl, rfl, rfl, rfl⟩

theorem triple_untraced (x : Program σ α) {mid : Traced σ → Prop}
    (stable : ∀ s state, mid s → mid { s with state }) :
    Triple mid (untraced x) (fun _ => mid) mid := by
  intro s met
  unfold untraced
  cases x s.state <;> exact stable s _ met

theorem triple_noted {x : Program σ α} {asked : Traced σ → Traced σ}
    {answered : α → Traced σ → Traced σ} {pre mid raised : Traced σ → Prop}
    {post : α → Traced σ → Prop} (before : ∀ s, pre s → mid (asked s))
    (stable : ∀ s state, mid s → mid { s with state }) (after : ∀ a s, mid s → post a (answered a s))
    (failed : ∀ s, mid s → raised s) : Triple pre (noted asked x answered) post raised := by
  refine Triple.bind (fun _ => mid) (Triple.modify before) fun _ => ?_
  refine Triple.bind (fun _ => mid) ?_ fun a => ?_
  · exact (triple_untraced x stable).weaken (fun _ met => met) (fun _ _ met => met) failed
  · exact Triple.bind (fun _ => post a) (Triple.modify (after a)) fun _ => Triple.pure

theorem Idle.stable (s : Traced σ) (state : σ) (idle : Idle s) : Idle { s with state } :=
  ⟨idle.accruals, idle.unread, idle.allocations, idle.subscriptions, idle.redemptions⟩

theorem keeps_untraced (x : Program σ α) : Keeps Idle (untraced x) :=
  triple_untraced x Idle.stable

theorem keeps_noted {x : Program σ α} {asked : Traced σ → Traced σ}
    {answered : α → Traced σ → Traced σ} (before : ∀ s, Idle s → Idle (asked s))
    (after : ∀ a s, Idle s → Idle (answered a s)) : Keeps Idle (noted asked x answered) :=
  triple_noted before Idle.stable after fun _ idle => idle

theorem keeps_calculateNav (pid : UUID) : Keeps Idle (services.traced.calculateNav pid) :=
  keeps_noted (fun _ idle => idle) fun _ _ idle => ⟨idle.accruals, idle.unread, idle.allocations,
    idle.subscriptions, idle.redemptions⟩

theorem keeps_snapshotPnl (pid : UUID) : Keeps Idle (services.traced.snapshotPnl pid) :=
  keeps_noted (fun _ idle => idle) fun _ _ idle => ⟨idle.accruals, idle.unread, idle.allocations,
    idle.subscriptions, idle.redemptions⟩

/-- The accrual that is called for next would be on a share of nothing. -/
def Shares (nav : Decimal) (s : Traced σ) : Prop :=
  Idle { s with endingCapitals := none } ∧
    ∀ pid cls, nav = Accrual.share ⟨pid, nav, cls, s.clsAum, s.endingCapitals⟩ 0

theorem Shares.of_idle {s : Traced σ} (idle : Idle s) : Shares 0 s := by
  refine ⟨⟨idle.accruals, rfl, idle.allocations, idle.subscriptions, idle.redemptions⟩, ?_⟩
  intro pid cls
  rw [idle.unread]
  cases s.clsAum <;> rfl

theorem Shares.accrue {s : Traced σ} {nav : Decimal} (shares : Shares nav s) (pid : UUID)
    (cls : String) : Idle (s.accrue pid nav cls) := by
  obtain ⟨idle, share⟩ := shares
  refine ⟨fun a member => ?_, rfl, idle.allocations, idle.subscriptions, idle.redemptions⟩
  rcases List.mem_append.mp member with earlier | last
  · exact idle.accruals a earlier
  · rw [List.mem_singleton.mp last]
    exact share pid cls

/-- What is read of the capital leaves a share of nothing. -/
theorem triple_classNav (capital : CapitalService σ) (cls : String) :
    Triple Idle (do
      let clsAum ← capital.traced.shareClassAum cls
      let endingCapitals ← capital.traced.latestEndingCapitals
      pure (classNav 0 clsAum endingCapitals.sum)) Shares Idle := by
  refine Triple.bind (fun clsAum s => Idle s ∧ s.clsAum = some clsAum) ?_ fun clsAum => ?_
  · refine triple_noted (fun _ idle => idle) Idle.stable ?_ fun _ idle => idle
    exact fun _ _ idle => ⟨⟨idle.accruals, idle.unread, idle.allocations, idle.subscriptions,
      idle.redemptions⟩, rfl⟩
  · refine Triple.bind (fun endingCapitals => Shares (classNav 0 clsAum endingCapitals.sum)) ?_
      fun _ => Triple.pure
    have read : ∀ (s : Traced σ) (state : σ), Idle s ∧ s.clsAum = some clsAum →
        Idle { s with state } ∧ s.clsAum = some clsAum :=
      fun s state met => ⟨met.1.stable s state, met.2⟩
    refine triple_noted (fun _ met => met) read ?_ fun _ met => met.1
    rintro endingCapitals s ⟨idle, read⟩
    refine ⟨⟨idle.accruals, rfl, idle.allocations, idle.subscriptions, idle.redemptions⟩, ?_⟩
    intro pid cls
    simp only [Accrual.share, read]

theorem keeps_attempt {x : Program (Traced σ) α} (keeps : Keeps Idle x) :
    Keeps Idle (attempt x) :=
  (keeps.bind fun _ => Keeps.pure _).tryCatch fun _ => Keeps.pure _

theorem keeps_suppress {x : Program (Traced σ) Unit} (keeps : Keeps Idle x) :
    Keeps Idle (suppress x) :=
  keeps.tryCatch fun _ => Keeps.pure _

theorem keeps_shareClasses : Keeps Idle (shareClasses services.traced) := by
  unfold shareClasses
  cases configured : services.traced.capitalService with
  | none => exact Keeps.pure _
  | some traced =>
    obtain ⟨capital, _, rfl⟩ := Option.map_eq_some_iff.mp configured
    refine (keeps_attempt (keeps_untraced capital.listShareClasses)).bind fun result => ?_
    split <;> exact Keeps.pure _

/-- One share class, with no NAV to accrue on. -/
theorem keeps_accrueClass {traced : UUID → Decimal → String → Program (Traced σ) (List FeeAccrual)}
    (accrues : services.traced.accrueDailyFees = some traced) (classes : List String) (pid : UUID)
    (cls : String) : Keeps Idle (accrueClass services.traced traced classes pid 0 cls) := by
  obtain ⟨accrue, _, rfl⟩ := Option.map_eq_some_iff.mp accrues
  refine Triple.bind Shares ?_ fun nav => ?_
  · have whole : Triple Idle (pure 0 : Program (Traced σ) Decimal) Shares Idle :=
      fun _ idle => Shares.of_idle idle
    unfold shareClassNav
    cases configured : services.traced.capitalService with
    | none => exact whole
    | some traced =>
      obtain ⟨capital, _, rfl⟩ := Option.map_eq_some_iff.mp configured
      dsimp only
      split
      · exact triple_classNav capital cls
      · exact whole
  · refine triple_noted (fun _ shares => shares.accrue pid cls) Idle.stable ?_ fun _ idle => idle
    exact fun _ _ idle => ⟨idle.accruals, idle.unread, idle.allocations, idle.subscriptions,
      idle.redemptions⟩

theorem keeps_accrueClasses
    {traced : UUID → Decimal → String → Program (Traced σ) (List FeeAccrual)}
    (accrues : services.traced.accrueDailyFees = some traced) (classes : List String) (pid : UUID)
    (rest : List String) (totals : FeeTotals) :
    Keeps Idle (accrueClasses services.traced traced classes pid 0 rest totals) := by
  induction rest generalizing totals with
  | nil => exact Keeps.pure _
  | cons cls rest ih =>
    refine (keeps_attempt (keeps_accrueClass accrues classes pid cls)).bind fun result => ?_
    cases result with
    | error e => exact Keeps.pure _
    | ok accruals => exact ih _

theorem keeps_feeAccrual (portfolioIds : List UUID) :
    Keeps Idle (feeAccrual services.traced portfolioIds {}) := by
  unfold feeAccrual
  cases accrues : services.traced.accrueDailyFees with
  | none => exact Keeps.pure _
  | some traced =>
    refine keeps_shareClasses.bind fun classes => Keeps.bind ?_ fun _ => Keeps.pure _
    -- there are no snapshots, so that each portfolio has a NAV of zero
    refine Keeps.foldlM (fun totals pid => ?_) _ _
    exact keeps_accrueClasses accrues classes pid classes totals

/-- A step that is given an empty dictionary. -/
theorem keeps_executeStep (portfolioIds : List UUID) (step : EODStepName) :
    Keeps Idle (executeStep services.traced portfolioIds step {}) := by
  cases step with
  | marketClose => exact Keeps.pure _
  | priceFinalization => exact (keeps_untraced _).bind fun _ => Keeps.pure _
  | corporateActionProcessing =>
    unfold executeStep
    cases configured : services.traced.fetchAndProcess with
    | none => exact Keeps.pure _
    | some traced =>
      obtain ⟨fetchAndProcess, _, rfl⟩ := Option.map_eq_some_iff.mp configured
      exact (Keeps.forM (fun pid => keeps_untraced (fetchAndProcess pid)) _).bind fun _ =>
        Keeps.pure _
  | positionRecon =>
    exact (Keeps.forM (fun pid => keeps_untraced (services.reconcile pid)) _).bind fun _ =>
      Keeps.pure _
  | navCalculation =>
    exact (Keeps.foldlM (fun _ pid => (keeps_calculateNav pid).bind fun _ => Keeps.pure _) _ _).bind
      fun _ => Keeps.pure _
  | pnlSnapshot =>
    exact (Keeps.foldlM (fun _ pid => (keeps_snapshotPnl pid).bind fun _ => Keeps.pure _) _ _).bind
      fun _ => Keeps.pure _
  | eodRisk =>
    refine (Keeps.forM (fun pid => keeps_suppress ?_) _).bind fun _ => Keeps.pure _
    exact keeps_untraced (services.takeSnapshot pid)
  | feeAccrual => exact keeps_feeAccrual portfolioIds
  | capitalAllocation =>
    refine Keeps.bind ?_ fun _ => Keeps.pure _
    unfold capitalAllocation
    split
    · exact Keeps.pure _
    · exact Keeps.pure _
  | dealingDateExecution =>
    refine Keeps.bind ?_ fun _ => Keeps.pure _
    unfold dealingDateExecution
    split
    · exact Keeps.pure _
    · exact Keeps.pure _
  | performanceAttribution =>
    unfold executeStep
    cases configured : services.traced.calculateBrinsonFachler with
    | none => exact Keeps.pure _
    | some traced =>
      obtain ⟨calculate, _, rfl⟩ := Option.map_eq_some_iff.mp configured
      refine (Keeps.forM (fun pid => keeps_suppress ?_) _).bind fun _ => Keeps.pure _
      exact keeps_untraced (calculate pid)
  | reportGeneration =>
    unfold executeStep
    cases configured : services.traced.generateReport with
    | none => exact Keeps.pure _
    | some traced =>
      obtain ⟨generate, _, rfl⟩ := Option.map_eq_some_iff.mp configured
      exact (keeps_untraced (generate {})).bind fun _ => Keeps.pure _

/-- The dictionary stays empty, and the next step gets a new one again. -/
theorem idle_runStep (portfolioIds : List UUID) (step : EODStepName) {s : Traced σ}
    (idle : Idle s) : (runStep services.traced portfolioIds step {} s).2.1 = {} ∧
      Idle (runStep services.traced portfolioIds step {} s).2.2 := by
  unfold runStep
  cases ran : executeStep services.traced portfolioIds step {} s with
  | ok stored s' =>
    refine ⟨?_, (keeps_executeStep portfolioIds step).ok idle ran⟩
    dsimp only
    rw [if_pos rfl]
  | error e s' => exact ⟨rfl, (keeps_executeStep portfolioIds step).error idle ran⟩

theorem idle_runSteps (portfolioIds : List UUID) (steps : List EODStepName) {s : Traced σ}
    (idle : Idle s) : Idle (runSteps services.traced portfolioIds steps {} s).2 := by
  induction steps generalizing s with
  | nil => exact idle
  | cons step rest ih =>
    obtain ⟨empty, kept⟩ : (runStep services.traced portfolioIds step {} s).2.1 = {} ∧
        Idle (runStep services.traced portfolioIds step {} s).2.2 :=
      idle_runStep portfolioIds step idle
    unfold runSteps
    dsimp only
    split
    · exact kept
    · rw [empty]
      exact ih kept

theorem dealings_eq_nil {portfolioIds : List UUID} (t : Trace) :
    [] = t.dealings portfolioIds ↔ portfolioIds = [] := by
  cases portfolioIds <;> simp [Trace.dealings]

/-- In every run, whatever its services do: the steps work on what the earlier
ones have produced exactly if nothing depends on it. -/
theorem dataFlow_iff_unneeded (services : EodServices σ) (portfolioIds : List UUID) (s : σ) :
    DataFlow services portfolioIds (traceOf services portfolioIds s) ↔
      Unneeded services portfolioIds (traceOf services portfolioIds s) := by
  have idle : Idle (runAll services.traced portfolioIds { state := s }).2 :=
    idle_runSteps portfolioIds stepOrder (.start s)
  constructor
  · intro flow
    refine ⟨fun a member => ?_, fun configured => ?_, fun configured => ?_, fun configured => ?_⟩
    · obtain ⟨snapshot, found, same⟩ := flow.fees a member
      exact ⟨snapshot, found, (idle.accruals a member).symm.trans same⟩
    · by_contra positive
      have allocated := flow.allocation configured (not_le.mp positive)
      rw [traceOf, idle.allocations] at allocated
      cases allocated
    · rw [or_iff_not_imp_left]
      intro positive
      have executed := flow.subscriptions configured (not_le.mp positive)
      exact (dealings_eq_nil _).mp (idle.subscriptions.symm.trans executed)
    · rw [or_iff_not_imp_left]
      intro positive
      have executed := flow.redemptions configured (not_le.mp positive)
      exact (dealings_eq_nil _).mp (idle.redemptions.symm.trans executed)
  · intro unneeded
    refine ⟨fun a member => ?_, fun configured positive => ?_, fun configured positive => ?_,
      fun configured positive => ?_⟩
    · obtain ⟨snapshot, found, same⟩ := unneeded.fees a member
      exact ⟨snapshot, found, (idle.accruals a member).trans same⟩
    · exact absurd positive (not_lt.mpr (unneeded.allocation configured))
    · have none := (unneeded.subscriptions configured).resolve_left (not_le.mpr positive)
      exact idle.subscriptions.trans ((dealings_eq_nil _).mpr none)
    · have none := (unneeded.redemptions configured).resolve_left (not_le.mpr positive)
      exact idle.redemptions.trans ((dealings_eq_nil _).mpr none)

end Idle

/-! ## A NAV that is lost -/

section Lost

/-- One portfolio of ten shares with a NAV of 100, on which 1 of fees accrues. -/
def wellBehaved : EodServices Unit where
  finalizePrices := pure ()
  fetchAndProcess := none
  reconcile _ := pure ()
  calculateNav _ := pure ⟨100, 10⟩
  snapshotPnl _ := pure 5
  accrueDailyFees := some fun _ nav _ => pure [⟨"management", nav / 100⟩]
  capitalService := none
  allocateDaily := some fun _ => pure 1
  executeSubscriptions := some fun _ _ => pure 0
  executeRedemptions := none
  takeSnapshot _ := pure ()
  calculateBrinsonFachler := none
  generateReport := none

def firstPortfolio : UUID := .ofNat 1

/-- Every step completes, and fees are accrued on a NAV of zero. -/
theorem nav_lost :
    isSuccessful (runAll wellBehaved.traced [firstPortfolio] { state := () }).1 ∧
    ¬ DataFlow wellBehaved [firstPortfolio] (traceOf wellBehaved [firstPortfolio] ()) := by
  have accrued : (⟨firstPortfolio, 0, "default", none, none⟩ : Accrual) ∈
      (traceOf wellBehaved [firstPortfolio] ()).accruals := by decide +kernel
  have calculated : (traceOf wellBehaved [firstPortfolio] ()).snapshots.lookup firstPortfolio =
      some ⟨100, 10⟩ := by decide +kernel
  refine ⟨by decide +kernel, fun flow => ?_⟩
  obtain ⟨snapshot, found, same⟩ := flow.fees _ accrued
  cases calculated.symm.trans found
  exact absurd same (by decide)

end Lost

end MiniHedge.Eod
