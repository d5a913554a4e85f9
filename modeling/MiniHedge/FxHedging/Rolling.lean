import MiniHedge.FxHedging.Service
import MiniHedge.Library.Interleaving

/-! `close_forward` and `roll_forward`, as callers that take turns.

A turn is a statement, with its commit where it has one, or an event that is
published; each may raise, before or after it has had its effect. A call that is
given a session reads a row once: later reads answer the object that it holds.
-/

set_option autoImplicit false

namespace MiniHedge.FxHedging

open MiniHedge.Python MiniHedge.Library

/-! ## The repository -/

/-- What an update of the status writes; values that are not given stay. -/
def FXForwardRecord.withStatus (fwd : FXForwardRecord) (status : FXForwardStatus)
    (closeRate closeSpot : Option Decimal) (closedAt : Option Datetime)
    (realizedPnl : Option Decimal) : FXForwardRecord :=
  { fwd with
    status
    closeRate := (closeRate.map (numeric 8)).or fwd.closeRate
    closeSpot := (closeSpot.map (numeric 8)).or fwd.closeSpot
    closedAt := closedAt.or fwd.closedAt
    realizedPnl := (realizedPnl.map (numeric 4)).or fwd.realizedPnl }

section Repository

variable (table : List FXForwardRecord) (id : Nat)

def getById : Option FXForwardRecord := table.find? (·.id = id)

def updateStatus (status : FXForwardStatus) (closeRate closeSpot : Option Decimal := none)
    (closedAt : Option Datetime := none) (realizedPnl : Option Decimal := none) :
    List FXForwardRecord :=
  table.map fun fwd =>
    if fwd.id = id then fwd.withStatus status closeRate closeSpot closedAt realizedPnl else fwd

/-- The forwards that another one was rolled to. -/
def successors : List FXForwardRecord := table.filter (·.rollFromId = some id)

variable {table id}

theorem getById_updateStatus (status : FXForwardStatus) (closeRate closeSpot : Option Decimal)
    (closedAt : Option Datetime) (realizedPnl : Option Decimal) :
    getById (updateStatus table id status closeRate closeSpot closedAt realizedPnl) id =
      (getById table id).map (·.withStatus status closeRate closeSpot closedAt realizedPnl) := by
  unfold getById updateStatus
  induction table with
  | nil => rfl
  | cons fwd rest ih =>
    by_cases own : fwd.id = id
    · simp [own, FXForwardRecord.withStatus]
    · simpa [own] using ih

theorem successors_updateStatus (none : successors table id = []) (status : FXForwardStatus)
    (closeRate closeSpot : Option Decimal) (closedAt : Option Datetime)
    (realizedPnl : Option Decimal) :
    successors (updateStatus table id status closeRate closeSpot closedAt realizedPnl) id = [] := by
  unfold successors updateStatus at *
  rw [List.filter_eq_nil_iff] at none ⊢
  intro fwd member
  obtain ⟨old, inside, rfl⟩ := List.mem_map.mp member
  have absent := none old inside
  split
  · exact absent
  · exact absent

theorem getById_insert {fwd : FXForwardRecord} (found : getById table id = some fwd)
    (new : FXForwardRecord) : getById (insert table new) id = some fwd := by
  unfold getById at *
  rw [insert, List.find?_append, found]
  rfl

theorem successors_insert {new : FXForwardRecord} (rolled : new.rollFromId = some id) :
    successors (insert table new) id = successors table id ++ [new.columns] := by
  have own : [new.columns].filter (·.rollFromId = some id) = [new.columns] := by
    simp [FXForwardRecord.columns, rolled]
  rw [successors, insert, List.filter_append, own]
  rfl

end Repository

/-! ## Calls -/

inductive ForwardCall where
  | close (closeRate closeSpot : Decimal)
  | roll (newMaturityDate : Int) (newContractRate currentSpot : Decimal)
  deriving DecidableEq, Repr

/-- The `close_spot` of the forward that is closed. -/
def ForwardCall.closeSpot : ForwardCall → Decimal
  | close _ closeSpot => closeSpot
  | roll _ _ currentSpot => currentSpot

/-- What a call is about to do, with the row that it has read first. -/
inductive CallStage where
  | called
  | found (record : FXForwardRecord)
  | priced (record : FXForwardRecord) (closeRate : Decimal)
  | checked (record own : FXForwardRecord) (closeRate : Decimal)
  | closed (record : FXForwardRecord)
  | rolling (record : FXForwardRecord)
  | replacing (record : FXForwardRecord)
  | inserted
  | returned
  | raised
  deriving DecidableEq, Repr

structure ForwardCaller where
  call : ForwardCall
  session : Bool
  stage : CallStage := .called
  deriving DecidableEq, Repr

/-- The table, and the P&L that was written for the forward so far. -/
structure Forwards where
  table : List FXForwardRecord
  realized : List Decimal := []
  deriving DecidableEq, Repr

/-- What a turn meets: how it ends, the interest rates, the day and time, and a new id. -/
structure ForwardInput where
  ending : Ending := .returned
  service : FXHedgingService
  today : Int := 0
  now : Datetime := 0
  id : Nat := 0
  deriving DecidableEq, Repr

def realizedPnl (record : FXForwardRecord) (closeRate : Decimal) : Decimal :=
  quantize 2 .halfEven
    (record.direction.sign * record.notional * (closeRate - record.contractRate))

/-- The forward that replaces the one with the id `rolled`. -/
def rolledTo (rolled : Nat) (record : FXForwardRecord) (newMaturityDate : Int)
    (newContractRate currentSpot : Decimal) (today : Int) (id : Nat) : FXForwardRecord where
  id := id
  portfolioId := record.portfolioId
  baseCurrency := record.baseCurrency
  quoteCurrency := record.quoteCurrency
  direction := record.direction
  notional := record.notional
  contractRate := newContractRate
  spotAtInception := currentSpot
  tradeDate := today
  maturityDate := newMaturityDate
  status := .opened
  counterparty := record.counterparty
  rollFromId := some rolled

section Turns

variable (id : Nat) (s : Forwards) (p : ForwardCaller) (input : ForwardInput)

/-- The turn has its effect and goes on, or raises with or without it. -/
def ForwardCaller.finish (effect : Forwards) (next : CallStage) : Forwards × ForwardCaller :=
  match input.ending with
  | .returned => (effect, { p with stage := next })
  | .raisedBefore => (s, { p with stage := .raised })
  | .raisedAfter => (effect, { p with stage := .raised })

/-- The check of `close_forward` on the row that it has read. -/
def check (record : FXForwardRecord) (own : Option FXForwardRecord) (closeRate : Decimal) :
    CallStage :=
  match own with
  | none => .raised
  | some own => if own.status = .opened then .checked record own closeRate else .raised

/-- What a call makes of its first read. -/
def ForwardCall.first (call : ForwardCall) : Option FXForwardRecord → CallStage
  | none => .raised
  | some record =>
    match call with
    | .close closeRate _ => check record (some record) closeRate
    | .roll .. => .found record

/-- The rate that a forward is rolled at. -/
def rollRate (record : FXForwardRecord) (currentSpot : Decimal) : Except Exc ForwardRate :=
  calculateForwardRate currentSpot input.service.getDomesticRate
    (input.service.getRateForCurrency record.baseCurrency)
    (max (record.maturityDate - input.today) 0)

def advance : Option (Forwards × ForwardCaller) :=
  match p.stage with
  | .called => some (p.finish s input s (p.call.first (getById s.table id)))
  | .found record =>
    match rollRate input record p.call.closeSpot with
    | .error _ => some (s, { p with stage := .raised })
    | .ok closeFwd => some (p.finish s input s (.priced record closeFwd.forward))
  | .priced record closeRate =>
    -- the object that a session holds is not refreshed by the second read
    let own := if p.session then some record else getById s.table id
    some (p.finish s input s (check record own closeRate))
  | .checked record own closeRate =>
    let pnl := realizedPnl own closeRate
    let table := updateStatus s.table id .closed (some closeRate) (some p.call.closeSpot)
      (some input.now) (some pnl)
    some (p.finish s input ⟨table, s.realized ++ [pnl]⟩ (.closed record))
  | .closed record =>
    match p.call with
    | .close .. => some (p.finish s input s .returned)
    | .roll .. => some (p.finish s input s (.rolling record))
  | .rolling record =>
    some (p.finish s input { s with table := updateStatus s.table id .rolled } (.replacing record))
  | .replacing record =>
    match p.call with
    | .close .. => none
    | .roll newMaturityDate newContractRate currentSpot =>
      -- the database draws an id that no row has
      if input.id ∈ s.table.map (·.id) then none
      else
        let new := rolledTo id record newMaturityDate newContractRate currentSpot input.today
          input.id
        some (p.finish s input { s with table := insert s.table new } .inserted)
  | .inserted => some (p.finish s input s .returned)
  | .returned | .raised => none

end Turns

/-! ## What a turn does -/

/-- The call has closed the forward, and has still to replace it if it is a roll. -/
def CallStage.Active : CallStage → Prop
  | .closed _ | .rolling _ | .replacing _ => True
  | _ => False

/-- The first row that the call has read. -/
def CallStage.record : CallStage → Option FXForwardRecord
  | .found record | .priced record _ | .checked record _ _ | .closed record | .rolling record
  | .replacing record => some record
  | _ => none

/-- The ways in which a turn changes the rows and the stage of its caller. -/
inductive Turned (id : Nat) (s : Forwards) (p : ForwardCaller) (input : ForwardInput) :
    Forwards → CallStage → Prop
  | waits {stage : CallStage} (quiet : ¬ stage.Active)
      (read : ∀ record ∈ stage.record, p.stage.record = some record ∨
        getById s.table id = some record)
      (failed : ∀ record, p.stage = .replacing record → input.ending = .raisedBefore) :
      Turned id s p input s stage
  | goesOn {record : FXForwardRecord} (own : p.stage = .closed record) :
      Turned id s p input s (.rolling record)
  | closes {record own : FXForwardRecord} {closeRate : Decimal} {stage : CallStage}
      (passed : p.stage = .checked record own closeRate) (effective : input.ending ≠ .raisedBefore)
      (next : stage = .closed record ∨ stage = .raised) :
      Turned id s p input
        ⟨updateStatus s.table id .closed (some closeRate) (some p.call.closeSpot) (some input.now)
          (some (realizedPnl own closeRate)), s.realized ++ [realizedPnl own closeRate]⟩ stage
  | rolls {record : FXForwardRecord} {stage : CallStage} (own : p.stage = .rolling record)
      (next : stage = .replacing record ∨ input.ending = .raisedAfter ∧ stage = .raised) :
      Turned id s p input { s with table := updateStatus s.table id .rolled } stage
  | replaces {record new : FXForwardRecord} {stage : CallStage} (own : p.stage = .replacing record)
      (rolled : new.rollFromId = some id) (opened : new.status = .opened)
      (notional : new.notional = record.notional) (direction : new.direction = record.direction)
      (next : stage = .inserted ∨ stage = .raised) :
      Turned id s p input { s with table := insert s.table new } stage

section Spec

variable {id : Nat} {s s' : Forwards} {p p' : ForwardCaller} {input : ForwardInput}

theorem finish_cases {effect : Forwards} {next : CallStage}
    (finished : p.finish s input effect next = (s', p')) :
    (input.ending = .returned ∧ s' = effect ∧ p'.stage = next) ∨
      (input.ending = .raisedBefore ∧ s' = s ∧ p'.stage = .raised) ∨
      (input.ending = .raisedAfter ∧ s' = effect ∧ p'.stage = .raised) := by
  unfold ForwardCaller.finish at finished
  cases ending : input.ending with
  | returned =>
    rw [ending] at finished
    cases finished
    exact .inl ⟨rfl, rfl, rfl⟩
  | raisedBefore =>
    rw [ending] at finished
    cases finished
    exact .inr (.inl ⟨rfl, rfl, rfl⟩)
  | raisedAfter =>
    rw [ending] at finished
    cases finished
    exact .inr (.inr ⟨rfl, rfl, rfl⟩)

/-- A turn that only reads or publishes. -/
theorem finish_same {next : CallStage} (finished : p.finish s input s next = (s', p')) :
    s' = s ∧ (p'.stage = next ∨ p'.stage = .raised) := by
  rcases finish_cases finished with ⟨-, rfl, stage⟩ | ⟨-, rfl, stage⟩ | ⟨-, rfl, stage⟩
  · exact ⟨rfl, .inl stage⟩
  · exact ⟨rfl, .inr stage⟩
  · exact ⟨rfl, .inr stage⟩

theorem check_cases (record : FXForwardRecord) (own : Option FXForwardRecord)
    (closeRate : Decimal) : (∃ read, check record own closeRate = .checked record read closeRate) ∨
      check record own closeRate = .raised := by
  unfold check
  cases own with
  | none => exact .inr rfl
  | some own =>
    dsimp only
    split
    · exact .inl ⟨own, rfl⟩
    · exact .inr rfl

theorem check_quiet (record : FXForwardRecord) (own : Option FXForwardRecord)
    (closeRate : Decimal) : ¬ (check record own closeRate).Active ∧
      ∀ r ∈ (check record own closeRate).record, r = record := by
  rcases check_cases record own closeRate with ⟨read, same⟩ | same
  · rw [same]
    exact ⟨not_false, fun r member => (Option.some.inj member).symm⟩
  · rw [same]
    exact ⟨not_false, fun r member => absurd member (Option.not_mem_none r)⟩

theorem first_quiet (call : ForwardCall) (own : Option FXForwardRecord) :
    ¬ (call.first own).Active ∧ ∀ r ∈ (call.first own).record, own = some r := by
  cases own with
  | none => exact ⟨not_false, fun r member => absurd member (Option.not_mem_none r)⟩
  | some record =>
    cases call with
    | close closeRate _ =>
      obtain ⟨quiet, same⟩ := check_quiet record (some record) closeRate
      exact ⟨quiet, fun r member => congrArg some (same r member).symm⟩
    | roll => exact ⟨not_false, fun r member => member⟩

theorem turned (advanced : advance id s p input = some (s', p')) :
    Turned id s p input s' p'.stage := by
  -- a call that raises before its statement has written nothing
  have raises : p'.stage = .raised → s' = s →
      (∀ record, p.stage = .replacing record → input.ending = .raisedBefore) →
      Turned id s p input s' p'.stage := by
    rintro raised rfl failed
    rw [raised]
    exact .waits not_false (fun r member => absurd member (Option.not_mem_none r)) failed
  -- neither has one whose statement only reads
  have quietly : ∀ {next : CallStage}, p.finish s input s next = (s', p') →
      (∀ record, p.stage ≠ .replacing record) → ¬ next.Active →
      (∀ record ∈ next.record, p.stage.record = some record ∨ getById s.table id = some record) →
      Turned id s p input s' p'.stage := by
    intro next finished apart quiet read
    obtain ⟨rfl, same | raised⟩ := finish_same finished
    · rw [same]
      exact .waits quiet read fun record own => absurd own (apart record)
    · exact raises raised rfl fun record own => absurd own (apart record)
  unfold advance at advanced
  split at advanced
  · rename_i stage
    have first := first_quiet p.call (getById s.table id)
    exact quietly (Option.some.inj advanced) (by simp [stage]) first.1 fun r member =>
      .inr (first.2 r member)
  · rename_i record stage
    split at advanced
    · cases advanced
      exact raises rfl rfl (by simp [stage])
    · exact quietly (Option.some.inj advanced) (by simp [stage]) not_false fun r member =>
        .inl (stage ▸ member)
  · rename_i record closeRate stage
    have checked := check_quiet record (if p.session then some record else getById s.table id)
      closeRate
    exact quietly (Option.some.inj advanced) (by simp [stage]) checked.1 fun r member =>
      .inl (by rw [stage, checked.2 r member]; rfl)
  · rename_i record own closeRate stage
    rcases finish_cases (Option.some.inj advanced) with
      ⟨ending, rfl, next⟩ | ⟨ending, rfl, next⟩ | ⟨ending, rfl, next⟩
    · -- the update takes effect, and then returns or raises
      exact .closes stage (by simp [ending]) (.inl next)
    · exact raises next rfl (by simp [stage])
    · exact .closes stage (by simp [ending]) (.inr next)
  · rename_i record stage
    split at advanced
    · exact quietly (Option.some.inj advanced) (by simp [stage]) not_false fun r member =>
        absurd member (Option.not_mem_none r)
    · obtain ⟨rfl, same | raised⟩ := finish_same (Option.some.inj advanced)
      · rw [same]
        exact .goesOn stage
      · exact raises raised rfl (by simp [stage])
  · rename_i record stage
    rcases finish_cases (Option.some.inj advanced) with
      ⟨ending, rfl, next⟩ | ⟨ending, rfl, next⟩ | ⟨ending, rfl, next⟩
    · exact .rolls stage (.inl next)
    · exact raises next rfl (by simp [stage])
    · exact .rolls stage (.inr ⟨ending, next⟩)
  · rename_i record stage
    split at advanced
    · cases advanced
    · split at advanced
      · cases advanced
      · rcases finish_cases (Option.some.inj advanced) with
          ⟨ending, rfl, next⟩ | ⟨ending, rfl, next⟩ | ⟨ending, rfl, next⟩
        · -- the row is inserted, and then the statement returns or raises
          exact .replaces stage rfl rfl rfl rfl (.inl next)
        · exact raises next rfl fun _ _ => ending
        · exact .replaces stage rfl rfl rfl rfl (.inr next)
  · rename_i stage
    exact quietly (Option.some.inj advanced) (by simp [stage]) not_false fun r member =>
        absurd member (Option.not_mem_none r)
  · cases advanced
  · cases advanced

end Spec

/-- Calls to close or to roll the forward with that id. -/
def forwardCalls (id : Nat) : Processes Forwards ForwardCaller ForwardInput where
  advance s _ p input := advance id s p input

end MiniHedge.FxHedging
