import MiniHedge.Library.Groups
import MiniHedge.Library.Mapping
import MiniHedge.Library.StableSort
import MiniHedge.Library.RecordSchema
import MiniHedge.Positions.MarkToMarket
import MiniHedge.Python.Decimal
import Mathlib.Data.String.Basic

/-! What-if analysis: what hypothetical trades make of the positions of a portfolio, and of its worth.

The calculator takes floats for the values of the portfolio; they are taken here for the numbers
that they stand for.
-/

set_option autoImplicit false

namespace MiniHedge.AlphaEngine

open MiniHedge.Python MiniHedge.Library MiniHedge.Positions

/-! ## The calculator -/

structure HypotheticalTrade where
  instrumentId : String
  side : String
  quantity : Decimal
  price : Decimal
  deriving DecidableEq, Repr

structure WhatIfPosition where
  instrumentId : String
  currentQuantity : Decimal
  proposedQuantity : Decimal
  currentValue : Decimal
  proposedValue : Decimal
  currentWeight : Decimal
  proposedWeight : Decimal
  deriving DecidableEq, Repr

structure WhatIfResult where
  currentNav : Decimal
  proposedNav : Decimal
  navChange : Decimal
  navChangePct : Decimal
  positions : List WhatIfPosition
  deriving DecidableEq, Repr

def HypotheticalTrade.signedQuantity (trade : HypotheticalTrade) : Decimal :=
  if trade.side = "buy" then trade.quantity else -trade.quantity

/-- The quantities and market values of the positions, by instrument. -/
abbrev CurrentPositions := List (String × Decimal × Decimal)

/-- The loop over the trades, which starts with the current quantities. -/
def proposedQuantities (current : CurrentPositions) (trades : List HypotheticalTrade) : List (String × Decimal) :=
  writeEach (·.instrumentId) (fun held trade => held.getD 0 + trade.signedQuantity)
    (current.map fun item => (item.1, item.2.1)) trades

section Calculator

variable (current : CurrentPositions) (trades : List HypotheticalTrade) (prices : List (String × Decimal))

def allIds : List String :=
  sortOn id (current.map (·.1) ++ (proposedQuantities current trades).map (·.1)).eraseDups

def currentOf (instrumentId : String) : Decimal × Decimal := (current.lookup instrumentId).getD (0, 0)

def proposedOf (instrumentId : String) : Decimal := ((proposedQuantities current trades).lookup instrumentId).getD 0

def priceOf (instrumentId : String) : Decimal := (prices.lookup instrumentId).getD 0

def proposedNav : Decimal :=
  ((allIds current trades).map fun iid => proposedOf current trades iid * priceOf prices iid).sum

def whatIfPosition (nav : Decimal) (iid : String) : WhatIfPosition :=
  let value := quantize 4 .halfEven (proposedOf current trades iid * priceOf prices iid)
  let total := proposedNav current trades prices
  { instrumentId := iid
    currentQuantity := (currentOf current iid).1
    proposedQuantity := proposedOf current trades iid
    currentValue := (currentOf current iid).2
    proposedValue := value
    currentWeight := quantize 6 .halfEven (if 0 < nav then (currentOf current iid).2 / nav else 0)
    proposedWeight := quantize 6 .halfEven (if 0 < total then value / total else 0) }

def runWhatIf (nav : Decimal) : WhatIfResult :=
  let change := proposedNav current trades prices - nav
  { currentNav := quantize 4 .halfEven nav
    proposedNav := quantize 4 .halfEven (proposedNav current trades prices)
    navChange := quantize 4 .halfEven change
    navChangePct := quantize 6 .halfEven (if 0 < nav then change / nav else 0)
    positions := (allIds current trades).map (whatIfPosition current trades prices nav) }

end Calculator

/-! ## The service -/

section Service

variable (db : Database) (portfolioId : UUID)

/-- The open positions, in the order of `get_by_portfolio`. -/
def openPositions : List CurrentPositionRecord :=
  (sortOn (·.instrumentId) (db.positions.filter (·.portfolioId = portfolioId))).filter (·.quantity ≠ 0)

def currentPositions : CurrentPositions :=
  (openPositions db portfolioId).map fun p => (p.instrumentId, p.quantity, p.marketValue)

/-- The price of a position is its value for each unit, where it has a value. -/
def heldPrices : List (String × Decimal) :=
  ((openPositions db portfolioId).filter (·.marketValue ≠ 0)).map fun p => (p.instrumentId, p.marketValue / p.quantity)

/-- The trades give the prices that the positions do not. -/
def whatIfPrices (trades : List HypotheticalTrade) : List (String × Decimal) :=
  writeEach (·.instrumentId) (fun held trade => held.getD trade.price) (heldPrices db portfolioId) trades

def currentNav : Decimal := ((openPositions db portfolioId).map (·.marketValue)).sum

def whatIf (trades : List HypotheticalTrade) : WhatIfResult :=
  runWhatIf (currentPositions db portfolioId) trades (whatIfPrices db portfolioId trades) (currentNav db portfolioId)

end Service

/-! ## One row for each position -/

/-- The primary key of the positions. -/
def OneRowEach (db : Database) : Prop := (db.positions.map fun row => (row.portfolioId, row.instrumentId)).Nodup

theorem oneRowEach_put {row : CurrentPositionRecord} {rows : List CurrentPositionRecord}
    (distinct : (rows.map fun row => (row.portfolioId, row.instrumentId)).Nodup) :
    ((putPosition row rows).map fun row => (row.portfolioId, row.instrumentId)).Nodup := by
  rcases putPosition_cases row rows with ⟨none, put⟩ | ⟨before, old, after, found, rfl, put⟩
  · rw [put, List.map_append, List.map_singleton, List.nodup_append]
    refine ⟨distinct, List.nodup_singleton _, fun key inside other alone same => ?_⟩
    obtain ⟨r, member, rfl⟩ := List.mem_map.mp inside
    cases List.mem_singleton.mp alone
    rw [Prod.mk.injEq] at same
    exact absurd (decide_eq_true (p := r.At row.portfolioId row.instrumentId) same)
      (List.find?_eq_none.mp none r member)
  · have own : old.At row.portfolioId row.instrumentId := by simpa using List.find?_some found
    rw [put]
    rw [List.map_append, List.map_cons] at distinct ⊢
    rwa [own.1, own.2] at distinct

section Handled

variable {db next : Database}

theorem submitted_positions (consistent : Consistent db) (submitted : Submitted db next) :
    next.positions = db.positions ∨ ∃ row, next.positions = putPosition row db.positions := by
  rcases submitted with rfl | ⟨c, starts, downstream, own, submitted⟩
  · exact .inl rfl
  · cases downstream with
    | some downstream =>
      obtain ⟨row, put, -⟩ := submit_row consistent own submitted
      exact .inr ⟨row, put⟩
    | none =>
      obtain ⟨createdAt, attempted⟩ := submit_cases submitted
      obtain ⟨history, settled⟩ := consistent.settled c.portfolioId c.instrumentId
      rcases attempt_cases settled.toStored own attempted with ⟨-, rfl, -⟩ | ⟨-, some⟩
      · exact .inl rfl
      · exact absurd rfl some

theorem oneRowEach_submitted (consistent : Consistent db) (distinct : OneRowEach db) (submitted : Submitted db next) :
    OneRowEach next := by
  rcases submitted_positions consistent submitted with same | ⟨row, put⟩
  · rwa [OneRowEach, same]
  · rw [OneRowEach, put]
    exact oneRowEach_put distinct

theorem oneRowEach_handle (consistent : Consistent db) (distinct : OneRowEach db) (call : HandlerCall) :
    OneRowEach (handle db call) := by
  cases call with
  | trade clock context trade key =>
    rw [handle]
    split
    · exact distinct
    · exact oneRowEach_submitted consistent distinct (handleTrade_submitted ‹_›)
  | event clock fresh event =>
    rw [handle]
    split
    · exact distinct
    · exact oneRowEach_submitted consistent distinct (handleTradeEvent_submitted ‹_›)

theorem oneRowEach_handleAll (calls : List HandlerCall) : OneRowEach (handleAll calls) := by
  have kept : ∀ db, Consistent db → OneRowEach db → OneRowEach (calls.foldl handle db) := by
    induction calls with
    | nil => exact fun db _ distinct => distinct
    | cons call rest ih =>
      intro db consistent distinct
      exact ih _ (consistent.handle call) (oneRowEach_handle consistent distinct call)
  exact kept {} Consistent.start List.nodup_nil

theorem oneRowEach_priceUpdate (getAssetClass : String → Option AssetClass) (instrumentId : String)
    (newPrice : Decimal) (distinct : OneRowEach db) :
    OneRowEach (db.handlePriceUpdate getAssetClass instrumentId newPrice) := by
  rw [Database.handlePriceUpdate]
  split
  · exact distinct
  · rename_i strategy _
    have same : ((db.updatePositionsForInstrument strategy instrumentId newPrice).positions.map fun row =>
        (row.portfolioId, row.instrumentId)) = db.positions.map fun row => (row.portfolioId, row.instrumentId) := by
      rw [Database.updatePositionsForInstrument, List.map_map]
      refine List.map_congr_left fun row _ => ?_
      rw [Function.comp_apply]
      split <;> rfl
    rwa [OneRowEach, same]

end Handled

/-! ## What the trades make of the positions -/

/-- What a quantity is after the trades of one instrument. -/
theorem getD_foldl_signed (own : List HypotheticalTrade) (held : Option Decimal) :
    (own.foldl (fun held trade => some (held.getD 0 + trade.signedQuantity)) held).getD 0 =
      held.getD 0 + (own.map (·.signedQuantity)).sum := by
  induction own generalizing held with
  | nil => simp
  | cons trade rest ih =>
    rw [List.foldl_cons, ih, List.map_cons, List.sum_cons, Option.getD_some, add_assoc]

/-- A price that is given stays. -/
theorem foldl_given (own : List HypotheticalTrade) (x : Decimal) :
    own.foldl (fun held trade => some (held.getD trade.price)) (some x) = some x := by
  induction own with
  | nil => rfl
  | cons trade rest ih => exact ih

theorem isSome_foldl {α ν : Type} (step : Option ν → α → ν) {xs : List α} (nonempty : xs ≠ []) (held : Option ν) :
    (xs.foldl (fun held x => some (step held x)) held).isSome := by
  cases xs using List.reverseRecOn with
  | nil => exact absurd rfl nonempty
  | append_singleton earlier last _ =>
    rw [List.foldl_concat]
    rfl

theorem proposedOf_eq (current : CurrentPositions) (trades : List HypotheticalTrade) (iid : String) :
    proposedOf current trades iid =
      (currentOf current iid).1 + totalOf (·.instrumentId) (·.signedQuantity) iid trades := by
  have held : (current.map fun item => (item.1, item.2.1)).lookup iid = (current.lookup iid).map (·.1) := by
    induction current with
    | nil => rfl
    | cons item rest ih =>
      rw [List.map_cons, lookup_cons_ite, lookup_cons_ite, ih]
      split <;> rfl
  have quantity : ((current.lookup iid).map (·.1)).getD 0 = ((current.lookup iid).getD (0, 0)).1 := by
    cases current.lookup iid <;> rfl
  rw [proposedOf, proposedQuantities, lookup_writeEach, getD_foldl_signed, held, quantity]
  rfl

section Ids

variable (current : CurrentPositions) (trades : List HypotheticalTrade)

theorem allIds_nodup : (allIds current trades).Nodup :=
  (sortOn_perm id _).nodup_iff.mpr (nodup_eraseDups _)

/-- The rows are for the instruments that are held or traded. -/
theorem mem_allIds {iid : String} :
    iid ∈ allIds current trades ↔ iid ∈ current.map (·.1) ∨ ∃ t ∈ trades, t.instrumentId = iid := by
  have keys : iid ∈ (proposedQuantities current trades).map (·.1) ↔
      iid ∈ current.map (·.1) ∨ ∃ t ∈ trades, t.instrumentId = iid := by
    rw [← not_iff_not, ← RecordSchema.lookup_eq_none_iff, proposedQuantities, lookup_writeEach]
    have held : (current.map fun item => (item.1, item.2.1)).lookup iid = none ↔ iid ∉ current.map (·.1) := by
      rw [RecordSchema.lookup_eq_none_iff, List.map_map]
      rfl
    cases own : trades.filter (·.instrumentId = iid) with
    | nil =>
      have untraded : ¬ ∃ t ∈ trades, t.instrumentId = iid := by
        rintro ⟨t, member, same⟩
        exact absurd (decide_eq_true same) (List.filter_eq_nil_iff.mp own t member)
      rw [List.foldl_nil, held, not_or, and_iff_left untraded]
    | cons first rest =>
      have written := isSome_foldl (fun (held : Option Decimal) (t : HypotheticalTrade) =>
        held.getD 0 + t.signedQuantity) (List.cons_ne_nil first rest)
        ((current.map fun item => (item.1, item.2.1)).lookup iid)
      have traded : ∃ t ∈ trades, t.instrumentId = iid := by
        have inside : first ∈ trades.filter (·.instrumentId = iid) := own ▸ List.mem_cons_self
        exact ⟨first, List.mem_of_mem_filter inside, of_decide_eq_true (List.mem_filter.mp inside).2⟩
      exact iff_of_false (Option.isSome_iff_ne_none.mp written) fun neither => neither (.inr traded)
  rw [allIds, mem_sortOn, List.mem_eraseDups, List.mem_append, keys]
  tauto

end Ids

theorem mem_currentPositions {db : Database} {portfolioId : UUID} {iid : String} :
    iid ∈ (currentPositions db portfolioId).map (·.1) ↔
      ∃ p ∈ openPositions db portfolioId, p.instrumentId = iid := by
  rw [currentPositions, List.map_map]
  exact List.mem_map

/-- A total at the price of its key is the total of what each element is worth there. -/
theorem totalOf_mul {α : Type} (key : α → String) (amount : α → Decimal) (price : String → Decimal) (k : String)
    (xs : List α) : totalOf key amount k xs * price k = totalOf key (fun x => amount x * price (key x)) k xs := by
  induction xs with
  | nil => simp
  | cons x rest ih =>
    rw [totalOf_cons, totalOf_cons, add_mul, ih]
    congr 1
    split
    · rename_i own
      rw [own]
    · exact zero_mul _

/-- Where no position gives a price, the first trade in the instrument does. -/
theorem price_unvalued {db : Database} {portfolioId : UUID} (trades : List HypotheticalTrade) {iid : String}
    (unvalued : ∀ p ∈ openPositions db portfolioId, p.instrumentId = iid → p.marketValue = 0) :
    priceOf (whatIfPrices db portfolioId trades) iid =
      ((trades.find? (·.instrumentId = iid)).map (·.price)).getD 0 := by
  have none : (heldPrices db portfolioId).lookup iid = none := by
    refine RecordSchema.lookup_eq_none_iff.mpr fun held => ?_
    rw [heldPrices, List.map_map] at held
    obtain ⟨p, inside, own⟩ := List.mem_map.mp held
    obtain ⟨member, valued⟩ := List.mem_filter.mp inside
    exact absurd (unvalued p member own) (by simpa using valued)
  rw [priceOf, whatIfPrices, lookup_writeEach, none, ← List.head?_filter]
  cases trades.filter (·.instrumentId = iid) with
  | nil => rfl
  | cons first rest => rw [List.foldl_cons, foldl_given]; rfl

section Change

variable {db : Database} (distinct : OneRowEach db) (portfolioId : UUID) (trades : List HypotheticalTrade)
include distinct

theorem openPositions_distinct : ((openPositions db portfolioId).map (·.instrumentId)).Nodup := by
  have ours : ((db.positions.filter (·.portfolioId = portfolioId)).map (·.instrumentId)).Nodup := by
    refine (distinct.of_map.filter _).map_on fun p inside q other same => ?_
    have own := of_decide_eq_true (List.mem_filter.mp inside).2
    have own' := of_decide_eq_true (List.mem_filter.mp other).2
    exact List.inj_on_of_nodup_map distinct (List.mem_filter.mp inside).1 (List.mem_filter.mp other).1
      (Prod.ext (own.trans own'.symm) same)
  have sorted := (sortOn_perm (fun p : CurrentPositionRecord => p.instrumentId)
    (db.positions.filter (·.portfolioId = portfolioId))).map (·.instrumentId)
  exact (sorted.nodup_iff.mpr ours).sublist (List.filter_sublist.map _)

theorem currentOf_eq (iid : String) : (currentOf (currentPositions db portfolioId) iid).1 =
    totalOf (·.instrumentId) (·.quantity) iid (openPositions db portfolioId) := by
  have distinct' := openPositions_distinct distinct portfolioId
  have keys : ((currentPositions db portfolioId).map (·.1)) = (openPositions db portfolioId).map (·.instrumentId) := by
    rw [currentPositions, List.map_map]
    rfl
  by_cases held : iid ∈ (openPositions db portfolioId).map (·.instrumentId)
  · obtain ⟨p, member, rfl⟩ := List.mem_map.mp held
    have found : (currentPositions db portfolioId).lookup p.instrumentId = some (p.quantity, p.marketValue) := by
      rw [← mem_iff_lookup (keys ▸ distinct')]
      exact List.mem_map.mpr ⟨p, member, rfl⟩
    rw [currentOf, found, totalOf_unique _ _ distinct' member]
    rfl
  · have absent := RecordSchema.lookup_eq_none_iff.mpr (keys ▸ held)
    rw [currentOf, absent, totalOf_absent _ _ held]
    rfl

theorem price_valued {p : CurrentPositionRecord} (member : p ∈ openPositions db portfolioId)
    (valued : p.marketValue ≠ 0) :
    priceOf (whatIfPrices db portfolioId trades) p.instrumentId = p.marketValue / p.quantity := by
  have keys : ((heldPrices db portfolioId).map (·.1)).Nodup := by
    rw [heldPrices, List.map_map]
    exact (openPositions_distinct distinct portfolioId).sublist (List.filter_sublist.map _)
  have found : (heldPrices db portfolioId).lookup p.instrumentId = some (p.marketValue / p.quantity) := by
    rw [← mem_iff_lookup keys]
    exact List.mem_map.mpr ⟨p, List.mem_filter.mpr ⟨member, by simpa using valued⟩, rfl⟩
  rw [priceOf, whatIfPrices, lookup_writeEach, found, foldl_given, Option.getD_some]

/-- What the proposed positions are worth: what the open ones are worth, what the trades add at the prices in use,
and what an open position that has no value comes to at the price of the trades in it. -/
theorem proposedNav_eq :
    proposedNav (currentPositions db portfolioId) trades (whatIfPrices db portfolioId trades) =
      currentNav db portfolioId +
        ((trades.map fun t => t.signedQuantity * priceOf (whatIfPrices db portfolioId trades) t.instrumentId).sum +
          (((openPositions db portfolioId).filter (·.marketValue = 0)).map fun p =>
            p.quantity * priceOf (whatIfPrices db portfolioId trades) p.instrumentId).sum) := by
  have distinct' := allIds_nodup (currentPositions db portfolioId) trades
  have held : ∀ p ∈ openPositions db portfolioId,
      p.instrumentId ∈ allIds (currentPositions db portfolioId) trades := by
    intro p member
    rw [mem_allIds, mem_currentPositions]
    exact .inl ⟨p, member, rfl⟩
  generalize chosen : whatIfPrices db portfolioId trades = prices
  have each : ∀ iid, proposedOf (currentPositions db portfolioId) trades iid * priceOf prices iid =
      totalOf (·.instrumentId) (fun p => p.quantity * priceOf prices p.instrumentId) iid
          (openPositions db portfolioId) +
        totalOf (·.instrumentId) (fun t => t.signedQuantity * priceOf prices t.instrumentId) iid trades := by
    intro iid
    rw [proposedOf_eq, currentOf_eq distinct, add_mul, totalOf_mul, totalOf_mul]
  have worth := sum_totalOf_support (·.instrumentId) (fun p => p.quantity * priceOf prices p.instrumentId) distinct'
    fun p member _ => held p member
  have added := sum_totalOf_support (·.instrumentId) (fun t => t.signedQuantity * priceOf prices t.instrumentId)
    distinct' fun t member _ => (mem_allIds (currentPositions db portfolioId) trades).mpr (.inr ⟨t, member, rfl⟩)
  have valued : ((openPositions db portfolioId).filter fun p => !decide (p.marketValue = 0)).map
      (fun p => p.quantity * priceOf prices p.instrumentId) =
      ((openPositions db portfolioId).filter fun p => !decide (p.marketValue = 0)).map (·.marketValue) := by
    refine List.map_congr_left fun p inside => ?_
    obtain ⟨member, value⟩ := List.mem_filter.mp inside
    have nonzero : p.marketValue ≠ 0 := by simpa using value
    have quantity : p.quantity ≠ 0 := by simpa using (List.mem_filter.mp member).2
    rw [← chosen, price_valued distinct portfolioId trades member nonzero, mul_div_cancel₀ _ quantity]
  have unvalued : (((openPositions db portfolioId).filter (·.marketValue = 0)).map (·.marketValue)).sum = 0 := by
    apply List.sum_eq_zero
    intro value inside
    obtain ⟨p, member, rfl⟩ := List.mem_map.mp inside
    exact of_decide_eq_true (List.mem_filter.mp member).2
  have parts := sum_filter_add (fun p : CurrentPositionRecord => p.quantity * priceOf prices p.instrumentId)
    (fun p => decide (p.marketValue = 0)) (openPositions db portfolioId)
  have nav := sum_filter_add (fun p : CurrentPositionRecord => p.marketValue)
    (fun p => decide (p.marketValue = 0)) (openPositions db portfolioId)
  rw [unvalued, zero_add] at nav
  simp only [proposedNav, each, List.sum_map_add]
  rw [worth, added, ← parts, valued, nav, currentNav]
  ring

end Change

/-- Ten shares that are worth a thousand, and two that have no value yet. -/
def twoPositions : Database where
  positions :=
    [⟨.ofNat 7, "AAPL", 10, 90, 900, 0, 100, 1000, 100, "USD"⟩, ⟨.ofNat 7, "NEW", 2, 50, 100, 0, 0, 0, 0, "USD"⟩]

/-- One more of each is bought for 120 and for 60. -/
def oneOfEach : List HypotheticalTrade := [⟨"AAPL", "buy", 1, 120⟩, ⟨"NEW", "buy", 1, 60⟩]

end MiniHedge.AlphaEngine
