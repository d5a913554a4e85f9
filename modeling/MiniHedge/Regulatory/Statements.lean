import MiniHedge.CapitalAccounts.Service
import MiniHedge.Library.Latest
import MiniHedge.Library.StableSort
import MiniHedge.Library.Groups
import Mathlib.Data.String.Basic
import Mathlib.Order.OrderDual

/-! The statement of an investor over a period, made of the snapshots of its capital accounts.

The table lists the rows as they were inserted. A query that orders by date may come upon
the rows of one date in any order: `found` is the table in such an order.
-/

set_option autoImplicit false

namespace MiniHedge.Regulatory

open MiniHedge.Python MiniHedge.Library
open MiniHedge.CapitalAccounts (CapitalAccountRecord)
open MiniHedge.CashManagement (Date)

structure InvestorStatement where
  investorId : UUID
  investorName : String
  shareClass : String
  periodStart : Date
  periodEnd : Date
  beginningCapital : Decimal
  contributions : Decimal
  withdrawals : Decimal
  grossReturn : Decimal
  managementFees : Decimal
  performanceFees : Decimal
  netReturn : Decimal
  endingCapital : Decimal
  ownershipPct : Decimal
  sharesHeld : Decimal
  navPerShare : Decimal
  grossReturnPct : Decimal
  netReturnPct : Decimal
  ytdReturnPct : Decimal
  itdReturnPct : Decimal
  deriving DecidableEq, Repr

/-- `get_by_investor`, without dates. -/
def getByInvestor (found : List CapitalAccountRecord) (investorId : UUID) (limit : Nat := 90) :
    List CapitalAccountRecord :=
  (sortOn (fun a => OrderDual.toDual a.effectiveDate) (found.filter (·.investorId = investorId))).take limit

/-- The rows of the history that are dated in the period, the newest first. -/
def periodAccounts (found : List CapitalAccountRecord) (investorId : UUID) (periodStart periodEnd : Date) :
    List CapitalAccountRecord :=
  (getByInvestor found investorId).filter fun a => periodStart ≤ a.effectiveDate ∧ a.effectiveDate ≤ periodEnd

/-- `quantize(_4)`. -/
def quantize4 (x : Decimal) : Decimal := quantize 4 .halfEven x

def ratio (x y : Decimal) : Decimal := if 0 < y then quantize4 (x / y) else 0

/-- What the service is given: whether there are capital accounts, the name of the investor, and the session. -/
structure Environment where
  hasCapital : Bool := true
  investorName : Option String := none
  session : Option Nat := none

def generateInvestorStatement (env : Environment) (found : List CapitalAccountRecord) (investorId : UUID)
    (periodStart periodEnd : Date) : Option InvestorStatement :=
  if env.hasCapital then do
    let accounts := periodAccounts found investorId periodStart periodEnd
    let latest ← accounts.head?
    let earliest ← accounts.getLast?
    let mgmtFees := (accounts.map (·.managementFeeAllocation)).sum
    let perfFees := (accounts.map (·.performanceFeeAllocation)).sum
    let pnl := (accounts.map (·.pnlAllocation)).sum
    let netRet := pnl - mgmtFees - perfFees
    return {
      investorId
      investorName := env.investorName.getD "Unknown"
      shareClass := latest.shareClass
      periodStart
      periodEnd
      beginningCapital := earliest.beginningCapital
      contributions := (accounts.map (·.contributions)).sum
      withdrawals := (accounts.map (·.withdrawals)).sum
      grossReturn := pnl
      managementFees := mgmtFees
      performanceFees := perfFees
      netReturn := netRet
      endingCapital := latest.endingCapital
      ownershipPct := latest.ownershipSeen env.session
      sharesHeld := latest.sharesHeld
      navPerShare := ratio latest.endingCapital latest.sharesHeld
      grossReturnPct := ratio pnl earliest.beginningCapital
      netReturnPct := ratio netRet earliest.beginningCapital
      ytdReturnPct := ratio netRet earliest.beginningCapital
      itdReturnPct := ratio netRet earliest.beginningCapital }
  else none

/-! ## What a statement is to say -/

def InvestorStatement.Reconciles (s : InvestorStatement) : Prop :=
  s.beginningCapital + s.contributions - s.withdrawals + s.netReturn = s.endingCapital

section Capital

variable (accounts : List CapitalAccountRecord) (investorId : UUID) (periodStart periodEnd : Date)

/-- The rows of the investor up to the end of the period. -/
def rowsUpTo : List CapitalAccountRecord :=
  accounts.filter fun a => a.investorId = investorId ∧ a.effectiveDate ≤ periodEnd

/-- Those of a class by their dates, and the rows of one date as they were inserted. -/
def classRows (shareClass : String) : List CapitalAccountRecord :=
  sortOn (·.effectiveDate) ((rowsUpTo accounts investorId periodEnd).filter (·.shareClass = shareClass))

/-- What the last of the rows of a class leaves. -/
def capitalOf (shareClass : String) : Decimal :=
  ((classRows accounts investorId periodEnd shareClass).getLast?.map (·.endingCapital)).getD 0

def classes : List String := ((rowsUpTo accounts investorId periodEnd).map (·.shareClass)).eraseDups

/-- The capital of the investor in all classes. -/
def totalCapital : Decimal := ((classes accounts investorId periodEnd).map (capitalOf accounts investorId periodEnd)).sum

/-- The rows of its class that come before a row. -/
def rowsBefore (a : CapitalAccountRecord) : List CapitalAccountRecord :=
  (classRows accounts investorId periodEnd a.shareClass).takeWhile (· ≠ a)

def rowsThrough (a : CapitalAccountRecord) : List CapitalAccountRecord := rowsBefore accounts investorId periodEnd a ++ [a]

/-- The rows answered are as many of the newest as the limit allows, the newest first. -/
structure Newest (limit : Nat) (answered : List CapitalAccountRecord) : Prop where
  first : ∃ rest, (answered ++ rest).Perm (accounts.filter (·.investorId = investorId)) ∧
    (answered ++ rest).Pairwise fun a b => b.effectiveDate ≤ a.effectiveDate
  many : answered.length = min limit (accounts.filter (·.investorId = investorId)).length

/-- The rows read are those of the newest 90 that are dated in the period. -/
def Read (rows : List CapitalAccountRecord) : Prop :=
  ∃ answered, Newest accounts investorId 90 answered ∧
    rows = answered.filter fun a => periodStart ≤ a.effectiveDate ∧ a.effectiveDate ≤ periodEnd

end Capital

/-- What a row moves. -/
def moved (a : CapitalAccountRecord) : Decimal :=
  a.contributions - a.withdrawals + (a.pnlAllocation - a.managementFeeAllocation - a.performanceFeeAllocation)

def movedBy (rows : List CapitalAccountRecord) : Decimal := (rows.map moved).sum

/-- What the rows of a class come to beside what they move. -/
def broken (rows : List CapitalAccountRecord) : Decimal := breaks (·.beginningCapital) moved (·.endingCapital) 0 rows

section Capital

variable (accounts : List CapitalAccountRecord) (investorId : UUID) (periodEnd : Date)

/-- Each row of a class opens at what the one before it left, nothing at first, and leaves that and what it moves. -/
def Continued : Prop :=
  ∀ shareClass, CarriesOn (·.beginningCapital) moved (·.endingCapital) 0 (classRows accounts investorId periodEnd shareClass)

def brokenOff : Decimal :=
  ((classes accounts investorId periodEnd).map fun c => broken (classRows accounts investorId periodEnd c)).sum

/-- The rows come to what those of one class come to, up to the newest that is read, and those that
are not read to what those of one class come to, before the oldest that is read. -/
structure Accounted (read : List CapitalAccountRecord) : Prop where
  closing : ∀ latest ∈ read.head?,
    movedBy (rowsUpTo accounts investorId periodEnd) + brokenOff accounts investorId periodEnd =
      movedBy (rowsThrough accounts investorId periodEnd latest) + broken (rowsThrough accounts investorId periodEnd latest)
  opening : ∀ earliest ∈ read.getLast?,
    movedBy (rowsUpTo accounts investorId periodEnd) - movedBy read + brokenOff accounts investorId periodEnd =
      movedBy (rowsBefore accounts investorId periodEnd earliest) + broken (rowsBefore accounts investorId periodEnd earliest) +
        (earliest.beginningCapital -
          leftBy (·.endingCapital) 0 (rowsBefore accounts investorId periodEnd earliest))

end Capital

/-! ## Where it says so -/

section Statement

variable {env : Environment} {accounts found : List CapitalAccountRecord} {investorId : UUID}
  {periodStart periodEnd : Date} {s : InvestorStatement}

/-- Where a statement comes from. -/
theorem statement_rows (generated : generateInvestorStatement env found investorId periodStart periodEnd = some s) :
    ∃ latest earliest, (periodAccounts found investorId periodStart periodEnd).head? = some latest ∧
      (periodAccounts found investorId periodStart periodEnd).getLast? = some earliest ∧
      s.endingCapital = latest.endingCapital ∧
      s.beginningCapital = earliest.beginningCapital ∧
      s.contributions - s.withdrawals + s.netReturn =
        movedBy (periodAccounts found investorId periodStart periodEnd) := by
  unfold generateInvestorStatement at generated
  split at generated
  · obtain ⟨latest, head, generated⟩ := Option.bind_eq_some_iff.mp generated
    obtain ⟨earliest, last, generated⟩ := Option.bind_eq_some_iff.mp generated
    cases generated
    refine ⟨latest, earliest, head, last, rfl, rfl, ?_⟩
    generalize periodAccounts found investorId periodStart periodEnd = rows
    dsimp only [movedBy]
    -- the flows of all rows, row after row
    clear head last
    induction rows with
    | nil => simp
    | cons a rows ih =>
      simp only [List.map_cons, List.sum_cons, ← ih, moved]
      ring
  · cases generated

theorem getByInvestor_newest (rearranged : found.Perm accounts) (investorId : UUID) (limit : Nat) :
    Newest accounts investorId limit (getByInvestor found investorId limit) := by
  let newestFirst (a : CapitalAccountRecord) := OrderDual.toDual a.effectiveDate
  have whole : (sortOn newestFirst (found.filter (·.investorId = investorId))).Perm
      (accounts.filter (·.investorId = investorId)) :=
    (sortOn_perm newestFirst _).trans (rearranged.filter _)
  constructor
  · refine ⟨(sortOn newestFirst (found.filter (·.investorId = investorId))).drop limit, ?_, ?_⟩
    · rw [getByInvestor, List.take_append_drop]
      exact whole
    · rw [getByInvestor, List.take_append_drop]
      exact sortOn_sorted newestFirst _
  · rw [getByInvestor, List.length_take, whole.length_eq]

theorem periodAccounts_read (rearranged : found.Perm accounts) :
    Read accounts investorId periodStart periodEnd (periodAccounts found investorId periodStart periodEnd) :=
  ⟨getByInvestor found investorId, getByInvestor_newest rearranged investorId 90, rfl⟩

theorem Read.mem_classRows {read : List CapitalAccountRecord} (is_read : Read accounts investorId periodStart periodEnd read)
    {a : CapitalAccountRecord} (member : a ∈ read) : a ∈ classRows accounts investorId periodEnd a.shareClass := by
  obtain ⟨answered, ⟨⟨rest, whole, -⟩, -⟩, rfl⟩ := is_read
  obtain ⟨inside, dated⟩ := List.mem_filter.mp member
  obtain ⟨stored, own⟩ := List.mem_filter.mp (whole.subset (List.mem_append_left rest inside))
  have before := (of_decide_eq_true dated).2
  rw [classRows, mem_sortOn]
  exact List.mem_filter.mpr
    ⟨List.mem_filter.mpr ⟨stored, decide_eq_true ⟨of_decide_eq_true own, before⟩⟩, decide_eq_true rfl⟩

/-- The rows of all classes move what the rows move. -/
theorem movedBy_classRows (accounts : List CapitalAccountRecord) (investorId : UUID) (periodEnd : Date) :
    ((classes accounts investorId periodEnd).map fun c => movedBy (classRows accounts investorId periodEnd c)).sum =
      movedBy (rowsUpTo accounts investorId periodEnd) := by
  have each : ∀ c, movedBy (classRows accounts investorId periodEnd c) =
      totalOf (·.shareClass) moved c (rowsUpTo accounts investorId periodEnd) := fun c =>
    ((sortOn_perm (fun a : CapitalAccountRecord => a.effectiveDate) _).map moved).sum_eq
  simp only [each]
  exact sum_totalOf_support _ _ (nodup_eraseDups _) fun a member _ =>
    List.mem_eraseDups.mpr (List.mem_map_of_mem member)

theorem leftBy_rows (rows : List CapitalAccountRecord) :
    leftBy (·.endingCapital) 0 rows = movedBy rows + broken rows := by
  have left : leftBy (·.endingCapital) 0 rows = 0 + movedBy rows + broken rows := leftBy_eq 0 rows
  rwa [zero_add] at left

theorem totalCapital_eq (accounts : List CapitalAccountRecord) (investorId : UUID) (periodEnd : Date) :
    totalCapital accounts investorId periodEnd =
      movedBy (rowsUpTo accounts investorId periodEnd) + brokenOff accounts investorId periodEnd := by
  have each : ∀ c, capitalOf accounts investorId periodEnd c =
      movedBy (classRows accounts investorId periodEnd c) + broken (classRows accounts investorId periodEnd c) :=
    fun c => leftBy_rows _
  rw [totalCapital, brokenOff, ← movedBy_classRows, ← List.sum_map_add]
  exact congrArg List.sum (List.map_congr_left fun c _ => each c)

theorem endingCapital_eq (a : CapitalAccountRecord) : a.endingCapital =
    movedBy (rowsThrough accounts investorId periodEnd a) + broken (rowsThrough accounts investorId periodEnd a) := by
  rw [← leftBy_rows, rowsThrough, leftBy_append_singleton]

theorem reconciles_iff_accounted
    (generated : generateInvestorStatement env found investorId periodStart periodEnd = some s) :
    (s.Reconciles ∧ s.endingCapital = totalCapital accounts investorId periodEnd) ↔
      Accounted accounts investorId periodEnd (periodAccounts found investorId periodStart periodEnd) := by
  obtain ⟨latest, earliest, head, last, ending, beginning, flows⟩ := statement_rows generated
  have opened := leftBy_rows (rowsBefore accounts investorId periodEnd earliest)
  rw [totalCapital_eq]
  constructor
  · rintro ⟨balanced, whole⟩
    rw [InvestorStatement.Reconciles] at balanced
    constructor
    · intro other newest
      cases head.symm.trans newest
      rw [← whole, ending, ← endingCapital_eq]
    · intro other oldest
      cases last.symm.trans oldest
      linarith
  · rintro ⟨closing, opening⟩
    have whole := closing latest head
    have start := opening earliest last
    rw [← endingCapital_eq] at whole
    refine ⟨?_, by rw [ending, whole]⟩
    rw [InvestorStatement.Reconciles]
    linarith

/-- Nothing breaks off, up to any row. -/
theorem Continued.row (continued : Continued accounts investorId periodEnd) {a : CapitalAccountRecord}
    (member : a ∈ classRows accounts investorId periodEnd a.shareClass) :
    broken (rowsBefore accounts investorId periodEnd a) = 0 ∧ broken (rowsThrough accounts investorId periodEnd a) = 0 ∧
      a.beginningCapital = leftBy (·.endingCapital) 0 (rowsBefore accounts investorId periodEnd a) := by
  obtain ⟨after, split⟩ : ∃ after, classRows accounts investorId periodEnd a.shareClass =
      rowsBefore accounts investorId periodEnd a ++ a :: after := by
    obtain ⟨before, after, split, first⟩ := List.eq_append_cons_of_mem member
    have others : ∀ b ∈ before, decide (b ≠ a) = true := fun b inside =>
      decide_eq_true fun same => first (same ▸ inside)
    refine ⟨after, ?_⟩
    rw [rowsBefore, split, List.takeWhile_append_of_pos others]
    simp
  have carried := continued a.shareClass
  rw [split, carriesOn_append] at carried
  obtain ⟨before, opened, closed, -⟩ := carried
  refine ⟨before.breaks_eq_zero, CarriesOn.breaks_eq_zero ?_, opened⟩
  exact carriesOn_append.mpr ⟨before, opened, closed, trivial⟩

theorem Continued.brokenOff_eq_zero (continued : Continued accounts investorId periodEnd) :
    brokenOff accounts investorId periodEnd = 0 := by
  apply List.sum_eq_zero
  intro x member
  obtain ⟨c, -, rfl⟩ := List.mem_map.mp member
  exact (continued c).breaks_eq_zero

/-- Where the rows continue one another, what they move alone counts. -/
theorem Read.accounted_of_continued {read : List CapitalAccountRecord} (is_read : Read accounts investorId periodStart periodEnd read)
    (continued : Continued accounts investorId periodEnd) : Accounted accounts investorId periodEnd read ↔
      (∀ latest ∈ read.head?, movedBy (rowsUpTo accounts investorId periodEnd) =
        movedBy (rowsThrough accounts investorId periodEnd latest)) ∧
      ∀ earliest ∈ read.getLast?, movedBy (rowsUpTo accounts investorId periodEnd) - movedBy read =
        movedBy (rowsBefore accounts investorId periodEnd earliest) := by
  have closes : ∀ latest ∈ read.head?, broken (rowsThrough accounts investorId periodEnd latest) = 0 :=
    fun latest newest => (continued.row (is_read.mem_classRows (List.mem_of_head? newest))).2.1
  have opens : ∀ earliest ∈ read.getLast?, broken (rowsBefore accounts investorId periodEnd earliest) = 0 ∧
      earliest.beginningCapital = leftBy (·.endingCapital) 0 (rowsBefore accounts investorId periodEnd earliest) := by
    intro earliest oldest
    obtain ⟨before, -, opened⟩ := continued.row (is_read.mem_classRows (List.mem_of_getLast? oldest))
    exact ⟨before, opened⟩
  constructor
  · intro accounted
    constructor
    · intro latest newest
      simpa only [continued.brokenOff_eq_zero, closes latest newest, add_zero] using accounted.closing latest newest
    · intro earliest oldest
      obtain ⟨before, opened⟩ := opens earliest oldest
      simpa only [continued.brokenOff_eq_zero, before, ← opened, sub_self, add_zero] using
        accounted.opening earliest oldest
  · rintro ⟨closing, opening⟩
    constructor
    · intro latest newest
      rw [continued.brokenOff_eq_zero, closes latest newest, add_zero, add_zero]
      exact closing latest newest
    · intro earliest oldest
      obtain ⟨before, opened⟩ := opens earliest oldest
      rw [continued.brokenOff_eq_zero, before, ← opened, sub_self, add_zero, add_zero, add_zero]
      exact opening earliest oldest

end Statement

def investor : UUID := .ofNat 1

/-- Capital that is paid in, and a day's profit and fee on it. -/
def oneClass : List CapitalAccountRecord :=
  [{ investorId := investor, shareClass := "A", contributions := 100, endingCapital := 100, effectiveDate := 1 },
    { investorId := investor, shareClass := "A", beginningCapital := 100, pnlAllocation := 10
      managementFeeAllocation := 1, endingCapital := 109, effectiveDate := 2 }]

/-- The statement of a first quarter. -/
def quarter (accounts : List CapitalAccountRecord) : Option InvestorStatement :=
  generateInvestorStatement {} accounts investor 1 90

/-- Capital that is paid into one class and, the day after, into another. -/
def twoClasses : List CapitalAccountRecord :=
  [{ investorId := investor, shareClass := "A", contributions := 100, endingCapital := 100, effectiveDate := 1 },
    { investorId := investor, shareClass := "B", contributions := 50, endingCapital := 50, effectiveDate := 2 }]

end MiniHedge.Regulatory
