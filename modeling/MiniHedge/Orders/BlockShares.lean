import MiniHedge.Library.Rows
import MiniHedge.Orders.Allocation

/-! The shares of a block.

A fill publishes its shares for the fund of the execution order, and what the
order or its algo parent has filled moves by as much. `allocate_fills` publishes
all that is filled once more, over the legs, under new trade ids: a block keeps
its shares as long as no call finds any.
-/

set_option autoImplicit false

namespace MiniHedge.Orders

open MiniHedge.Python MiniHedge.Positions MiniHedge.Library

namespace Block

variable (e : Placement)

/-- The shares of the trades of the execution order, and of those of the legs. -/
def ownQuantity (b : Block) : Decimal :=
  ((b.trades.filter (·.leg = none)).map (·.quantity)).sum

def allocatedQuantity (b : Block) : Decimal :=
  ((b.trades.filter (·.leg ≠ none)).map (·.quantity)).sum

/-- The execution order has filled what was published for it. -/
structure Counts (b : Block) : Prop where
  unique : ((b.world.schemas e.fundSlug).orders.map (·.id)).Nodup
  order : ∃ row, b.world.order e.fundSlug e.orderId = some row ∧ row.parentOrderId = none ∧
    b.ownQuantity = row.filledQuantity ∧
    if row.isParent then row.filledQuantity = filledOf (b.world.childrenOf e.fundSlug e.orderId)
    else b.world.childrenOf e.fundSlug e.orderId = []
  distinct : b.trades.Pairwise fun s t => s.tradeId ≠ t.tradeId
  legs : b.legs ≠ []

/-- Nothing has been allocated. -/
structure Untouched (b : Block) : Prop where
  trades : ∀ t ∈ b.trades, t.leg = none
  legs : ∀ leg ∈ b.legs, leg.filledQuantity = 0

variable {e} {b next : Block}

theorem sum_trades (trades : List BlockTrade) : (trades.map (·.quantity)).sum =
    ((trades.filter (·.leg = none)).map (·.quantity)).sum +
      ((trades.filter (·.leg ≠ none)).map (·.quantity)).sum := by
  induction trades with
  | nil => simp
  | cons t trades ih =>
    by_cases own : t.leg = none
    · simp only [List.map_cons, List.sum_cons, ih, List.filter_cons, own, decide_true, if_true,
        ne_eq, not_true_eq_false, decide_false, Bool.false_eq_true, if_false]
      ring
    · simp only [List.map_cons, List.sum_cons, ih, List.filter_cons, own, decide_false,
        Bool.false_eq_true, if_false, ne_eq, not_false_eq_true, decide_true, if_true]
      ring

theorem Counts.distinctTrades (counts : Counts e b) : b.distinctTrades = b.trades :=
  List.pwFilter_eq_self.mpr counts.distinct

theorem Counts.executedQuantity (counts : Counts e b) :
    b.executedQuantity = b.ownQuantity + b.allocatedQuantity := by
  rw [Block.executedQuantity, counts.distinctTrades]
  exact sum_trades b.trades

theorem Untouched.allocatedQuantity (untouched : b.Untouched) : b.allocatedQuantity = 0 := by
  have none : b.trades.filter (·.leg ≠ none) = [] := by
    simpa using untouched.trades
  rw [Block.allocatedQuantity, none]
  rfl

theorem Untouched.conserved (untouched : b.Untouched) (counts : Counts e b) :
    b.Conserved e := by
  obtain ⟨row, found, -, own, -⟩ := counts.order
  refine ⟨⟨row, found, ?_⟩, fun leg member => ?_⟩
  · rw [counts.executedQuantity, untouched.allocatedQuantity, own, add_zero]
  · have none : b.trades.filter (·.leg = some leg.id) = [] := by
      refine List.filter_eq_nil_iff.mpr fun t held => ?_
      simp [untouched.trades t held]
    rw [legQuantity, counts.distinctTrades, none, untouched.legs leg member]
    rfl

theorem Conserved.unallocated (conserved : b.Conserved e) (counts : Counts e b) :
    b.allocatedQuantity = 0 := by
  obtain ⟨⟨row, found, executed⟩, -⟩ := conserved
  obtain ⟨row', found', -, own, -⟩ := counts.order
  cases found.symm.trans found'
  rw [counts.executedQuantity, own] at executed
  simpa using executed

/-! ## The distribution of a total over the legs -/

def legTrade (allocation : BlockAllocationRecord) (avgPrice : Decimal) (fill : LegFill) :
    BlockTrade :=
  ⟨some fill.leg.id, allocatedTrade allocation fill.leg fill.fillQty avgPrice fill.tradeId⟩

@[simp] theorem legTrade_quantity (allocation : BlockAllocationRecord) (avgPrice : Decimal)
    (fill : LegFill) : (legTrade allocation avgPrice fill).quantity = fill.fillQty := rfl

@[simp] theorem legTrade_tradeId (allocation : BlockAllocationRecord) (avgPrice : Decimal)
    (fill : LegFill) :
    (legTrade allocation avgPrice fill).tradeId = some (.text fill.tradeId.str) := rfl

theorem foldl_fillLeg (avgPrice : Decimal) (fills : List LegFill) (b : Block) :
    let filled := fills.foldl (fillLeg avgPrice) b
    filled.trades = b.trades ++
      (fills.filter fun fill => 0 < fill.fillQty).map (legTrade b.allocation avgPrice) ∧
    filled.world.schemas = b.world.schemas ∧ filled.allocation = b.allocation ∧
    filled.legs.length = b.legs.length := by
  induction fills generalizing b with
  | nil => simp
  | cons fill fills ih =>
    obtain ⟨trades, schemas, allocation, legs⟩ := ih (b.fillLeg avgPrice fill)
    simp only [List.foldl_cons]
    rw [trades, schemas, allocation, legs]
    by_cases positive : 0 < fill.fillQty
    · simp [fillLeg, not_le.mpr positive, positive, legTrade, World.publish]
    · simp [fillLeg, not_lt.mp positive, positive]

theorem legFills_quantities {draws : List UUID} (enough : draws.length = b.legs.length)
    (totalFilled : Decimal) : (b.legFills totalFilled draws).map (·.fillQty) =
      apportion (fun leg : AllocationLegRecord =>
        quantize 8 .halfEven (totalFilled * leg.targetPct)) totalFilled 0 b.legs := by
  have all := length_apportion (fun leg : AllocationLegRecord =>
    quantize 8 .halfEven (totalFilled * leg.targetPct)) totalFilled 0 b.legs
  have quantities : (b.legFills totalFilled draws).map (·.fillQty) =
      ((b.legs.zip ((apportion (fun leg : AllocationLegRecord =>
        quantize 8 .halfEven (totalFilled * leg.targetPct)) totalFilled 0 b.legs).zip draws)).map
          Prod.snd).map Prod.fst := by
    simp [legFills, Function.comp_def]
  rw [quantities, List.map_snd_zip, List.map_fst_zip]
  · omega
  · rw [List.length_zip]
    omega

theorem legFills_draws {draws : List UUID} (enough : draws.length = b.legs.length)
    (totalFilled : Decimal) : (b.legFills totalFilled draws).map (·.tradeId) = draws := by
  have all := length_apportion (fun leg : AllocationLegRecord =>
    quantize 8 .halfEven (totalFilled * leg.targetPct)) totalFilled 0 b.legs
  have ids : (b.legFills totalFilled draws).map (·.tradeId) =
      ((b.legs.zip ((apportion (fun leg : AllocationLegRecord =>
        quantize 8 .halfEven (totalFilled * leg.targetPct)) totalFilled 0 b.legs).zip draws)).map
          Prod.snd).map Prod.snd := by
    simp [legFills, Function.comp_def]
  rw [ids, List.map_snd_zip, List.map_snd_zip]
  · omega
  · rw [List.length_zip]
    omega

/-- What a call adds: nothing when it finds no shares, else trades for at least as many. -/
structure Allocates (b next : Block) (found : Decimal) : Prop where
  trades : ∃ added, next.trades = b.trades ++ added ∧ (∀ t ∈ added, t.leg ≠ none) ∧
    (b.trades.Pairwise (fun s t => s.tradeId ≠ t.tradeId) →
      (b.trades ++ added).Pairwise fun s t => s.tradeId ≠ t.tradeId) ∧
    found ≤ (added.map (·.quantity)).sum
  schemas : next.world.schemas = b.world.schemas
  legs : next.legs.length = b.legs.length

theorem allocateFills_allocates {draws : List UUID} (enough : draws.length = b.legs.length)
    (new : b.New draws) (legs : b.legs ≠ []) {order : OrderRecord}
    (found : b.execOrder = some order) (filled : 0 < order.filledQuantity) :
    Allocates b (b.allocateFills draws) order.filledQuantity := by
  have opened : b.allocateFills draws = { (b.legFills order.filledQuantity draws).foldl
      (fillLeg (order.avgFillPrice.getD 0)) b with
        allocation := { ((b.legFills order.filledQuantity draws).foldl
          (fillLeg (order.avgFillPrice.getD 0)) b).allocation with
            state := .allocated
            filledQuantity := order.filledQuantity
            avgFillPrice := some (order.avgFillPrice.getD 0) } } := by
    simp [allocateFills, found, not_le.mpr filled]
  obtain ⟨trades, schemas, -, length⟩ :=
    foldl_fillLeg (order.avgFillPrice.getD 0) (b.legFills order.filledQuantity draws) b
  rw [opened]
  refine ⟨⟨_, trades, ?_, ?_, ?_⟩, schemas, length⟩
  · intro t added
    obtain ⟨fill, -, rfl⟩ := List.mem_map.mp added
    exact Option.some_ne_none _
  · intro distinct
    have drawn : ∀ fill ∈ b.legFills order.filledQuantity draws, fill.tradeId ∈ draws := by
      intro fill member
      rw [← legFills_draws enough order.filledQuantity]
      exact List.mem_map_of_mem member
    have apart : (b.legFills order.filledQuantity draws).Pairwise (·.tradeId ≠ ·.tradeId) := by
      rw [← List.pairwise_map (f := LegFill.tradeId), legFills_draws enough]
      exact new.1
    refine List.pairwise_append.mpr ⟨distinct, ?_, ?_⟩
    · refine List.pairwise_map.mpr ((apart.sublist List.filter_sublist).imp fun {x y} other same => ?_)
      simp only [legTrade_tradeId, Option.some.injEq, Field.text.injEq] at same
      exact other (UUID.str_injective same)
    · intro t held s added
      obtain ⟨fill, member, rfl⟩ := List.mem_map.mp added
      exact new.2 fill.tradeId (drawn fill (List.mem_filter.mp member).1) t held
  · have total : ((b.legFills order.filledQuantity draws).map (·.fillQty)).sum =
        order.filledQuantity := by
      rw [legFills_quantities enough, sum_apportion _ _ _ legs, sub_zero]
    calc order.filledQuantity
        = ((b.legFills order.filledQuantity draws).map (·.fillQty)).sum := total.symm
      _ ≤ (((b.legFills order.filledQuantity draws).map (·.fillQty)).filter (0 < ·)).sum :=
          sum_le_sum_positive _
      _ = _ := by
          rw [List.filter_map, List.map_map]
          rfl

theorem allocateFills_none {draws : List UUID}
    (none : ∀ order ∈ b.execOrder, order.filledQuantity ≤ 0) : b.allocateFills draws = b := by
  cases found : b.execOrder with
  | none => simp [allocateFills, found]
  | some order => simp [allocateFills, found, none order found]

theorem Allocates.ownQuantity {found : Decimal} (allocates : Allocates b next found) :
    next.ownQuantity = b.ownQuantity := by
  obtain ⟨added, trades, legs, -, -⟩ := allocates.trades
  have none : added.filter (·.leg = none) = [] := by simpa using legs
  rw [Block.ownQuantity, trades, List.filter_append, none, List.append_nil]
  rfl

theorem Allocates.allocatedQuantity {found : Decimal} (allocates : Allocates b next found) :
    b.allocatedQuantity + found ≤ next.allocatedQuantity := by
  obtain ⟨added, trades, legs, -, enough⟩ := allocates.trades
  have all : added.filter (·.leg ≠ none) = added := by simpa using legs
  rw [Block.allocatedQuantity, Block.allocatedQuantity, trades, List.filter_append, all,
    List.map_append, List.sum_append]
  exact add_le_add_right enough _

theorem Counts.allocate {found : Decimal} (counts : Counts e b)
    (allocates : Allocates b next found) : Counts e next := by
  have same : (next.world.schemas e.fundSlug).orders = (b.world.schemas e.fundSlug).orders := by
    rw [allocates.schemas]
  obtain ⟨row, read, orphan, own, children⟩ := counts.order
  refine ⟨same ▸ counts.unique, ⟨row, (World.order_congr same).trans read, orphan, ?_, ?_⟩, ?_, ?_⟩
  · rw [allocates.ownQuantity, own]
  · rw [World.childrenOf_congr same]
    exact children
  · obtain ⟨added, trades, -, distinct, -⟩ := allocates.trades
    rw [trades]
    exact distinct counts.distinct
  · intro empty
    have length := allocates.legs
    rw [empty, List.length_nil] at length
    exact counts.legs (List.length_eq_zero_iff.mp length.symm)


/-! ## The fills -/

theorem processFill_same {f : Fill} (input : Input) (read : b.world.order f.fundSlug f.order.id =
    some f.order) :
    ((∀ slug, ((b.processFill f input).world.schemas slug).orders = (b.world.schemas slug).orders) ∧
      (b.processFill f input).trades = b.trades) ∨
    ∃ u stored, f.update = .ok u ∧
      b.world.insertFill f.fundSlug (f.record input.draw input.now) = .ok stored ∧
      (b.processFill f input).world = (stored.updateState f.fundSlug f.order.id u).reportFill f
        input.draw (u.set f.order) ∧
      (b.processFill f input).trades = b.trades ++
        [⟨none, tradeExecuted f.fundSlug (u.set f.order) input.draw f.quantity f.price⟩] := by
  rcases processFill_cases input read with
    ⟨rows, published⟩ | ⟨u, stored, updated, inserted, written⟩
  · refine .inl ⟨rows, ?_⟩
    simp [Block.processFill, published]
  · refine .inr ⟨u, stored, updated, inserted, written, ?_⟩
    obtain ⟨-, rfl⟩ := World.insertFill_cases inserted
    have apart : fundTopic f.fundSlug "orders.filled" ≠ fundTopic f.fundSlug "trades.executed" := by
      simp [fundTopic_inj]
    simp [Block.processFill, written, World.published_reportFill, World.updateState, World.set,
      tradeExecuted, orderFilled, apart]

theorem ownQuantity_append {t : BlockTrade} (trades : next.trades = b.trades ++ [t])
    (own : t.leg = none) : next.ownQuantity = b.ownQuantity + t.quantity := by
  simp [Block.ownQuantity, trades, own]

theorem Counts.distinct_append {draw : UUID} {t : BlockTrade} (counts : Counts e b)
    (new : b.New [draw]) (id : t.tradeId = some (.text draw.str)) :
    (b.trades ++ [t]).Pairwise fun s t => s.tradeId ≠ t.tradeId := by
  refine List.pairwise_append.mpr ⟨counts.distinct, List.pairwise_singleton _ _, ?_⟩
  intro s held s' added
  rw [List.mem_singleton.mp added, id]
  exact new.2 draw (List.mem_singleton_self draw) s held

/-- A fill of an execution order that is submitted itself. -/
theorem Counts.fillOrder {f : Fill} {u : Update} {stored : World} {draw : UUID} {now : Datetime}
    (counts : Counts e b) (fund : f.fundSlug = e.fundSlug)
    (read : b.world.order e.fundSlug e.orderId = some f.order) (plain : f.order.isParent = false)
    (updated : f.update = .ok u) (new : b.New [draw])
    (inserted : b.world.insertFill f.fundSlug (f.record draw now) = .ok stored)
    (written : next.world = (stored.updateState f.fundSlug f.order.id u).reportFill f draw
      (u.set f.order))
    (trades : next.trades = b.trades ++
      [⟨none, tradeExecuted f.fundSlug (u.set f.order) draw f.quantity f.price⟩])
    (legs : next.legs = b.legs) : Counts e next := by
  obtain ⟨row, found, orphan, own, children⟩ := counts.order
  cases read.symm.trans found
  have rows : next.world.schemas = (stored.updateState f.fundSlug f.order.id u).schemas := by
    have plain : (u.set f.order).parentOrderId = none := orphan
    rw [written, World.schemas_reportFill, World.updateParent_orphan plain]
  have schema : (next.world.schemas e.fundSlug).orders =
      ((stored.updateState f.fundSlug f.order.id u).schemas e.fundSlug).orders := by rw [rows]
  have id : f.order.id = e.orderId := World.id_of_order read
  refine ⟨?_, ⟨u.set f.order, ?_, orphan, ?_, ?_⟩, ?_, legs ▸ counts.legs⟩
  · rw [schema, World.ids_updateState, World.orders_insertFill inserted]
    exact counts.unique
  · rw [World.order_congr schema, fund, id, World.order_updateState_own,
      World.order_insertFill inserted, read]
    rfl
  · rw [ownQuantity_append trades rfl, own, (Fill.update_sets updated _).1]
    rfl
  · have same : (u.set f.order).isParent = false := plain
    simp only [plain, same, Bool.false_eq_true, if_false] at children ⊢
    rw [World.childrenOf_congr schema, World.childrenOf_updateState,
      World.childrenOf_congr (World.orders_insertFill inserted e.fundSlug), children]
    rfl
  · rw [trades]
    exact counts.distinct_append new rfl

/-- What the fill of one of the rows adds to what they have filled. -/
theorem Fill.filledOf_changeRow {f : Fill} {u : Update} {rows : List OrderRecord}
    (updated : f.update = .ok u) (unique : (rows.map (·.id)).Nodup) (member : f.order ∈ rows) :
    filledOf (changeRow (·.id) u.set f.order.id rows) = filledOf rows + f.quantity := by
  have moved : ((changeRow (·.id) u.set f.order.id rows).map (·.filledQuantity)).sum =
      (rows.map (·.filledQuantity)).sum + ((u.set f.order).filledQuantity - f.order.filledQuantity) :=
    sum_changeRow OrderRecord.filledQuantity unique member
  rw [filledOf, moved, (Fill.update_sets updated _).1, filledOf]
  ring

theorem Fill.states_changeRow {f : Fill} {u : Update} (updated : f.update = .ok u)
    (rows : List OrderRecord) :
    (changeRow (·.id) u.set f.order.id rows).map (·.state) =
      rows.map fun o => if o.id = f.order.id then f.targetState else o.state := by
  simp only [changeRow, List.map_map]
  refine List.map_congr_left fun o _ => ?_
  simp only [Function.comp_apply]
  split
  · exact (Fill.update_sets updated f.order).2
  · rfl

/-- A fill of a child, with the parent taking what follows. -/
theorem Counts.fillChild {f : Fill} {u : Update} {stored : World} {draw : UUID} {now : Datetime}
    (counts : Counts e b) (fund : f.fundSlug = e.fundSlug)
    (read : b.world.order e.fundSlug f.order.id = some f.order)
    (child : f.order.parentOrderId = some e.orderId)
    (taken : ∀ parent ∈ b.world.order e.fundSlug e.orderId,
      parent.state.Accepts ((b.world.childrenOf e.fundSlug e.orderId).map fun o =>
        if o.id = f.order.id then f.targetState else o.state))
    (updated : f.update = .ok u) (new : b.New [draw])
    (inserted : b.world.insertFill f.fundSlug (f.record draw now) = .ok stored)
    (written : next.world = (stored.updateState f.fundSlug f.order.id u).reportFill f draw
      (u.set f.order))
    (trades : next.trades = b.trades ++
      [⟨none, tradeExecuted f.fundSlug (u.set f.order) draw f.quantity f.price⟩])
    (legs : next.legs = b.legs) : Counts e next := by
  obtain ⟨row, found, orphan, own, children⟩ := counts.order
  -- the parent of the block has no parent itself
  have other : e.orderId ≠ f.order.id := by
    intro same
    rw [← same] at read
    cases found.symm.trans read
    rw [orphan] at child
    cases child
  have member : f.order ∈ b.world.childrenOf e.fundSlug e.orderId :=
    World.mem_childrenOf.mpr ⟨List.mem_of_find?_eq_some read, child⟩
  have parent : row.isParent = true := by
    by_contra plain
    rw [if_neg plain] at children
    rw [children] at member
    cases member
  rw [if_pos parent] at children
  -- the child is written first, and its parent from the children then
  let filled := stored.updateState f.fundSlug f.order.id u
  let family := changeRow (·.id) u.set f.order.id (b.world.childrenOf e.fundSlug e.orderId)
  have siblings : filled.childrenOf e.fundSlug e.orderId = family := by
    rw [World.childrenOf_updateState,
      World.childrenOf_congr (World.orders_insertFill inserted e.fundSlug)]
    simp [family, changeRow, fund]
  have total : filledOf family = row.filledQuantity + f.quantity := by
    have unique : ((b.world.childrenOf e.fundSlug e.orderId).map (·.id)).Nodup :=
      (List.filter_sublist.map _).nodup counts.unique
    rw [Fill.filledOf_changeRow updated unique member, children]
  have states : family.map (·.state) = (b.world.childrenOf e.fundSlug e.orderId).map fun o =>
      if o.id = f.order.id then f.targetState else o.state :=
    Fill.states_changeRow updated _
  have nonempty : family ≠ [] := by
    simpa [family, changeRow] using List.ne_nil_of_mem member
  -- the parent accepts the state that its children give
  obtain ⟨u', derived⟩ := parentUpdate_of_accepts nonempty (states ▸ taken row found)
  have kept : filled.order e.fundSlug e.orderId = some row := by
    rw [World.order_updateState_other u fun same => other same.2.symm,
      World.order_insertFill inserted, found]
  have id : row.id = e.orderId := World.id_of_order found
  have rows : next.world.schemas = (filled.updateState e.fundSlug e.orderId u').schemas := by
    have link : (u.set f.order).parentOrderId.bind (filled.order f.fundSlug) = some row := by
      rw [Update.set_parentOrderId, child, fund]
      exact kept
    have update : parentUpdate row (filled.childrenOf f.fundSlug row.id) = some u' := by
      rw [fund, id, siblings]
      exact derived
    rw [written, World.schemas_reportFill, World.updateParent_taken link update, fund, id]
  have schema : (next.world.schemas e.fundSlug).orders =
      ((filled.updateState e.fundSlug e.orderId u').schemas e.fundSlug).orders := by rw [rows]
  obtain ⟨-, sum, -⟩ := parentUpdate_eq_some derived
  refine ⟨?_, ⟨u'.set row, ?_, orphan, ?_, ?_⟩, ?_, legs ▸ counts.legs⟩
  · rw [schema, World.ids_updateState, World.ids_updateState, World.orders_insertFill inserted]
    exact counts.unique
  · rw [World.order_congr schema, World.order_updateState_own, kept]
    rfl
  · rw [ownQuantity_append trades rfl, own]
    simp [Update.set, sum, total]
    rfl
  · have same : (u'.set row).isParent = true := parent
    rw [if_pos same, World.childrenOf_congr schema, World.childrenOf_updateState, siblings, filledOf_map]
    · simp [Update.set, sum]
    · intro o held
      -- no child is its own parent, so that the last update leaves the children
      have apart : o.id ≠ e.orderId := by
        intro loop
        rw [← siblings] at held
        exact o.notOwnParent (loop ▸ (World.mem_childrenOf.mp held).2)
      simp [apart]
  · rw [trades]
    exact counts.distinct_append new rfl

/-! ## Other writes -/

theorem Counts.createChild {parent : OrderRecord} {draw : UUID} {quantity : Decimal}
    {new : e.orderId ≠ draw} {w : World} (counts : Counts e b)
    (read : b.world.order e.fundSlug e.orderId = some parent) (algo : parent.isParent = true)
    (inserted : b.world.insert e.fundSlug
      (childOf parent ⟨e.fundSlug, e.orderId, quantity⟩ draw new) = .ok w) :
    Counts e { b with world := w } := by
  obtain ⟨row, found, orphan, own, children⟩ := counts.order
  cases read.symm.trans found
  obtain ⟨absent, orders⟩ := World.insert_cases inserted
  rw [if_pos algo] at children
  refine ⟨?_, ⟨parent, ?_, orphan, own, ?_⟩, counts.distinct, counts.legs⟩
  · have fresh : draw ∉ (b.world.schemas e.fundSlug).orders.map (·.id) := by
      intro held
      obtain ⟨o, member, same⟩ := List.mem_map.mp held
      have missing := List.find?_eq_none.mp absent o member
      simp [same, childOf] at missing
    rw [orders, if_pos rfl, List.map_append]
    exact counts.unique.append (List.nodup_singleton _) (by simpa [childOf] using fresh)
  · rw [World.order_insert inserted, read, Option.some_or]
  · rw [if_pos algo, World.childrenOf_insert inserted, children]
    split
    · exact (totals_append rfl).1.symm
    · rw [List.append_nil]

theorem Counts.writeState {slug : String} {key : UUID} {u : Update} (counts : Counts e b)
    (keeps : u.KeepsTotals) : Counts e { b with world := b.world.updateState slug key u } := by
  obtain ⟨row, found, orphan, own, children⟩ := counts.order
  have same : ∀ (o : OrderRecord) (hit : Prop) [Decidable hit],
      (if hit then u.set o else o).totals = o.totals ∧
        (if hit then u.set o else o).isParent = o.isParent ∧
        (if hit then u.set o else o).parentOrderId = o.parentOrderId := by
    intro o hit _
    split
    · exact ⟨keeps.totals o, rfl, rfl⟩
    · exact ⟨rfl, rfl, rfl⟩
  obtain ⟨totals, isParent, parent⟩ := same row (slug = e.fundSlug ∧ e.orderId = key)
  have filled := congrArg Prod.fst totals
  refine ⟨?_, ⟨if slug = e.fundSlug ∧ e.orderId = key then u.set row else row, ?_, ?_, ?_, ?_⟩,
    counts.distinct, counts.legs⟩
  · rw [World.ids_updateState]
    exact counts.unique
  · rw [World.order_updateState, found]
    rfl
  · rw [parent, orphan]
  · exact own.trans filled.symm
  · rw [isParent, World.childrenOf_updateState]
    by_cases algo : row.isParent = true
    · rw [if_pos algo] at children ⊢
      rw [filledOf_map fun o _ => (same o _).1, ← children]
      exact filled
    · rw [if_neg algo] at children ⊢
      rw [children]
      rfl

/-! ## Runs -/

theorem Counts.congr (counts : Counts e b) (rows : (next.world.schemas e.fundSlug).orders =
    (b.world.schemas e.fundSlug).orders) (trades : next.trades = b.trades)
    (legs : next.legs = b.legs) : Counts e next := by
  obtain ⟨row, found, orphan, own, children⟩ := counts.order
  refine ⟨rows ▸ counts.unique, ⟨row, (World.order_congr rows).trans found, orphan, ?_, ?_⟩,
    trades ▸ counts.distinct, legs ▸ counts.legs⟩
  · rw [Block.ownQuantity, trades]
    exact own
  · rw [World.childrenOf_congr rows]
    exact children

theorem Counts.step {label : BlockStep} (counts : Counts e b) (taken : Taken e b label)
    (stepped : step e b label = some next) : Counts e next := by
  cases label with
  | executing =>
    cases stepped
    exact counts.congr rfl rfl rfl
  | fill orderId price quantity brokerId filledAt input =>
    simp only [Block.step] at stepped
    split at stepped
    · cases stepped
    · rename_i order read
      split at stepped
      · rename_i allowed
        cases stepped
        have id : order.id = orderId := World.id_of_order read
        subst id
        let f : Fill := ⟨order, price, quantity, e.fundSlug, brokerId, filledAt⟩
        have row : b.world.order f.fundSlug f.order.id = some f.order := read
        rcases processFill_same input row with
          ⟨rows, trades⟩ | ⟨u, stored, updated, inserted, written, trades⟩
        · exact counts.congr (rows _) trades rfl
        · by_cases child : order.parentOrderId = some e.orderId
          · exact counts.fillChild rfl read child (taken order read child) updated allowed.2 inserted
              written trades rfl
          · obtain ⟨own, plain⟩ := allowed.1.resolve_right child
            rw [own] at read
            exact counts.fillOrder rfl read plain updated allowed.2 inserted written trades rfl
      · cases stepped
  | createChild draw quantity =>
    simp only [Block.step] at stepped
    split at stepped
    · cases stepped
    · rename_i parent read
      split at stepped
      · rename_i new
        split at stepped
        · cases stepped
        · rename_i w inserted
          cases stepped
          exact counts.createChild read new.1 inserted
      · cases stepped
  | writeState fundSlug orderId state rejectionReason brokerId =>
    cases stepped
    exact counts.writeState ⟨rfl, rfl⟩
  | allocateFills draws =>
    simp only [Block.step] at stepped
    split at stepped
    · rename_i drawn
      cases stepped
      by_cases none : ∀ order ∈ b.execOrder, order.filledQuantity ≤ 0
      · rw [allocateFills_none none]
        exact counts
      · simp only [not_forall, not_le] at none
        obtain ⟨order, found, filled⟩ := none
        exact counts.allocate (allocateFills_allocates drawn.1 drawn.2 counts.legs found filled)
    · cases stepped

theorem Untouched.step {label : BlockStep} (untouched : b.Untouched)
    (unallocated : b.Unallocated label) (stepped : step e b label = some next) :
    next.Untouched := by
  cases label with
  | executing =>
    cases stepped
    exact ⟨untouched.trades, untouched.legs⟩
  | fill orderId price quantity brokerId filledAt input =>
    simp only [Block.step] at stepped
    split at stepped
    · cases stepped
    · split at stepped
      · cases stepped
        refine ⟨fun t held => ?_, untouched.legs⟩
        rcases List.mem_append.mp held with old | added
        · exact untouched.trades t old
        · obtain ⟨message, -, rfl⟩ := List.mem_map.mp added
          rfl
      · cases stepped
  | createChild draw quantity =>
    simp only [Block.step] at stepped
    split at stepped
    · cases stepped
    · split at stepped
      · split at stepped <;> cases stepped
        exact ⟨untouched.trades, untouched.legs⟩
      · cases stepped
  | writeState fundSlug orderId state rejectionReason brokerId =>
    cases stepped
    exact ⟨untouched.trades, untouched.legs⟩
  | allocateFills draws =>
    simp only [Block.step] at stepped
    split at stepped <;> cases stepped
    rw [allocateFills_none unallocated]
    exact untouched

theorem allocatedQuantity_own {added : List BlockTrade} (trades : next.trades = b.trades ++ added)
    (own : ∀ t ∈ added, t.leg = none) : next.allocatedQuantity = b.allocatedQuantity := by
  have none : added.filter (·.leg ≠ none) = [] := by simpa using own
  rw [Block.allocatedQuantity, trades, List.filter_append, none, List.append_nil]
  rfl

/-- The trades of the legs only become more, and a call that finds shares adds some. -/
theorem step_allocatedQuantity {label : BlockStep} (counts : Counts e b)
    (stepped : step e b label = some next) :
    b.allocatedQuantity ≤ next.allocatedQuantity ∧
      (¬ b.Unallocated label → b.allocatedQuantity < next.allocatedQuantity) := by
  cases label with
  | executing | writeState fundSlug orderId state rejectionReason brokerId =>
    cases stepped
    exact ⟨le_rfl, fun some => (some trivial).elim⟩
  | fill orderId price quantity brokerId filledAt input =>
    refine ⟨?_, fun some => (some trivial).elim⟩
    simp only [Block.step] at stepped
    split at stepped
    · cases stepped
    · split at stepped
      · cases stepped
        refine le_of_eq (allocatedQuantity_own rfl fun t added => ?_).symm
        obtain ⟨message, -, rfl⟩ := List.mem_map.mp added
        rfl
      · cases stepped
  | createChild draw quantity =>
    refine ⟨?_, fun some => (some trivial).elim⟩
    simp only [Block.step] at stepped
    split at stepped
    · cases stepped
    · split at stepped
      · split at stepped <;> cases stepped
        exact le_rfl
      · cases stepped
  | allocateFills draws =>
    simp only [Block.step] at stepped
    split at stepped <;> cases stepped
    rename_i drawn
    by_cases none : ∀ order ∈ b.execOrder, order.filledQuantity ≤ 0
    · rw [allocateFills_none none]
      exact ⟨le_rfl, fun some => (some none).elim⟩
    · simp only [not_forall, not_le] at none
      obtain ⟨order, found, filled⟩ := none
      have more := (allocateFills_allocates drawn.1 drawn.2 counts.legs found filled).allocatedQuantity
      have less : b.allocatedQuantity < (b.allocateFills draws).allocatedQuantity := by linarith
      exact ⟨less.le, fun _ => less⟩

theorem run_allocatedQuantity {s final : Block} {labels : List BlockStep} (counts : Counts e s)
    (taken : (system e).Along (Taken e) s labels) (ran : (system e).run s labels = some final) :
    s.allocatedQuantity ≤ final.allocatedQuantity ∧
      (¬ (system e).Along Unallocated s labels → s.allocatedQuantity < final.allocatedQuantity) := by
  induction labels generalizing s with
  | nil =>
    cases ran
    exact ⟨le_rfl, fun some => (some trivial).elim⟩
  | cons label rest ih =>
    cases stepped : (system e).step s label with
    | none => simp [stepped] at ran
    | some next =>
      simp only [System.run_cons, stepped, Option.bind_some] at ran
      have first := step_allocatedQuantity counts stepped
      have later := ih (counts.step taken.head stepped) (taken.tail stepped) ran
      refine ⟨first.1.trans later.1, fun some => ?_⟩
      by_cases none : s.Unallocated label
      · refine first.1.trans_lt (later.2 fun along => some ⟨none, ?_⟩)
        simpa only [stepped] using along
      · exact (first.2 none).trans_le later.1

theorem conserved_iff {s final : Block} {labels : List BlockStep} (counts : Counts e s)
    (untouched : s.Untouched) (taken : (system e).Along (Taken e) s labels)
    (ran : (system e).run s labels = some final) :
    final.Conserved e ↔ (system e).Along Unallocated s labels := by
  have kept : ∀ b label next, Counts e b → Taken e b label →
      (system e).step b label = some next → Counts e next :=
    fun b label next counts taken stepped => counts.step taken stepped
  have counted := System.invariant_along kept taken ran counts
  constructor
  · intro conserved
    by_contra some
    have more := (run_allocatedQuantity counts taken ran).2 some
    rw [untouched.allocatedQuantity, conserved.unallocated counted] at more
    exact lt_irrefl _ more
  · intro unallocated
    have clean : ∀ b label next, b.Untouched → b.Unallocated label →
        (system e).step b label = some next → next.Untouched :=
      fun b label next untouched unallocated stepped => untouched.step unallocated stepped
    exact (System.invariant_along clean unallocated ran untouched).conserved counted

end Block

/-! ## A new block -/

/-- The keys of the orders: the identifiers are unique, and the parent of an order exists. -/
structure Schema.Keyed (s : Schema) : Prop where
  unique : (s.orders.map (·.id)).Nodup
  references : ∀ o ∈ s.orders, ∀ parent, o.parentOrderId = some parent → parent ∈ s.orders.map (·.id)

theorem createBlockAllocation_placed {gateway : TradeCheckRequest → Bool} {w : World}
    {request : CreateBlockAllocationRequest} {ids : BlockIds} {b : Block} {e : Placement}
    (keyed : (w.schemas e.fundSlug).Keyed)
    (created : createBlockAllocation gateway w request ids = .ok (b, some e)) :
    Block.Counts e b ∧ b.Untouched := by
  simp only [createBlockAllocation, Bind.bind, Except.bind, Pure.pure, Except.pure] at created
  cases checked : request.check with
  | error exc => simp [checked] at created
  | ok done =>
    simp only [checked] at created
    split at created
    · cases created
    · split at created
      · cases created
      · split at created
        · cases created
        · rename_i executionLeg largest
          cases inserted : w.insert executionLeg.fundSlug
              (request.executionOrder executionLeg ids.order) with
          | error exc => simp [inserted] at created
          | ok placed =>
            simp only [inserted, Except.ok.injEq, Prod.mk.injEq, Option.some.injEq] at created
            obtain ⟨rfl, rfl⟩ := created
            obtain ⟨absent, orders⟩ := World.insert_cases inserted
            have fresh : ids.order ∉ (w.schemas executionLeg.fundSlug).orders.map (·.id) := by
              intro held
              obtain ⟨o, member, same⟩ := List.mem_map.mp held
              have missing := List.find?_eq_none.mp absent o member
              simp [same, CreateBlockAllocationRequest.executionOrder] at missing
            have childless : w.childrenOf executionLeg.fundSlug ids.order = [] := by
              refine List.filter_eq_nil_iff.mpr fun o member child => fresh ?_
              exact keyed.references o member ids.order (by simpa using child)
            have children : placed.childrenOf executionLeg.fundSlug ids.order = [] := by
              rw [World.childrenOf_insert inserted, childless]
              simp [CreateBlockAllocationRequest.executionOrder]
            refine ⟨⟨?_, ⟨request.executionOrder executionLeg ids.order, ?_, rfl, rfl, ?_⟩,
              List.Pairwise.nil, ?_⟩, ⟨by simp, ?_⟩⟩
            · rw [orders, if_pos rfl, List.map_append]
              exact keyed.unique.append (List.nodup_singleton _)
                (by simpa [CreateBlockAllocationRequest.executionOrder] using fresh)
            · have missing : w.order executionLeg.fundSlug ids.order = none := absent
              rw [World.order_insert inserted, missing, Option.none_or]
              exact if_pos ⟨rfl, rfl⟩
            · rw [children]
              split <;> rfl
            · have some := CreateBlockAllocationRequest.legs_of_check checked
              intro empty
              have length := congrArg List.length empty
              rw [List.length_map, CreateBlockAllocationRequest.length_createLegs] at length
              exact some (List.length_eq_zero_iff.mp length)
            · intro leg member
              obtain ⟨old, held, rfl⟩ := List.mem_map.mp member
              have unfilled : old.filledQuantity = 0 :=
                CreateBlockAllocationRequest.unfilled_createLegs held
              exact unfilled

/-- A block keeps its shares exactly when no call of `allocate_fills` finds any. -/
theorem conserved_iff_unallocated {gateway : TradeCheckRequest → Bool} {w : World}
    {request : CreateBlockAllocationRequest} {ids : BlockIds} {b final : Block} {e : Placement}
    {labels : List BlockStep} (keyed : (w.schemas e.fundSlug).Keyed)
    (created : createBlockAllocation gateway w request ids = .ok (b, some e))
    (taken : (Block.system e).Along (Block.Taken e) b labels)
    (ran : (Block.system e).run b labels = some final) :
    final.Conserved e ↔ (Block.system e).Along Block.Unallocated b labels := by
  obtain ⟨counts, untouched⟩ := createBlockAllocation_placed keyed created
  exact Block.conserved_iff counts untouched taken ran

section Runs

/-- Ten shares for two funds, sixty to forty. -/
def aBlock : CreateBlockAllocationRequest where
  instrumentId := "ACME"
  side := .buy
  totalQuantity := 10
  legs := [⟨"alpha", .ofNat 8, 3 / 5⟩, ⟨"beta", .ofNat 9, 2 / 5⟩]

def blockIds : BlockIds where
  allocation := .ofNat 1
  legs i := if i = 0 then .ofNat 2 else .ofNat 3
  order := .ofNat 4

def noOrders : World where
  schemas _ := {}

def aPlacement : Placement := ⟨"alpha", .ofNat 4⟩

/-- The order is sent and linked, and the fill of a share count comes in. -/
def sentAndFilled (quantities : List (UUID × Decimal)) : List BlockStep :=
  [.executing, .writeState "alpha" (.ofNat 4) .sent none none] ++
    quantities.map fun (draw, quantity) => .fill (.ofNat 4) 5 quantity none none ⟨draw, 0, .acknowledged⟩

/-- The shares that a run of the block has published and filled, and whether it
allocates any of them. -/
def sharesOf (labels : List BlockStep) :
    Option (Placement × Decimal × Option Decimal × Bool × Bool) :=
  match createBlockAllocation (fun _ => true) noOrders aBlock blockIds with
  | .ok (b, some e) => ((Block.system e).run b labels).map fun final =>
    (e, final.executedQuantity, (final.world.order e.fundSlug e.orderId).map (·.filledQuantity),
      decide ((Block.system e).Along (Block.Taken e) b labels),
      decide ((Block.system e).Along Block.Unallocated b labels))
  | _ => none

theorem sharesOf_eq_some {labels : List BlockStep} {e : Placement} {executed : Decimal}
    {filled : Option Decimal} {taken unallocated : Bool}
    (values : sharesOf labels = some (e, executed, filled, taken, unallocated)) :
    ∃ b final, createBlockAllocation (fun _ => true) noOrders aBlock blockIds = .ok (b, some e) ∧
      (Block.system e).run b labels = some final ∧ final.executedQuantity = executed ∧
      (final.world.order e.fundSlug e.orderId).map (·.filledQuantity) = filled ∧
      decide ((Block.system e).Along (Block.Taken e) b labels) = taken ∧
      decide ((Block.system e).Along Block.Unallocated b labels) = unallocated := by
  unfold sharesOf at values
  split at values
  · rename_i b e' created
    obtain ⟨final, ran, same⟩ := Option.map_eq_some_iff.mp values
    simp only [Prod.mk.injEq] at same
    obtain ⟨rfl, executed, filled, taken, unallocated⟩ := same
    exact ⟨b, final, created, ran, executed, filled, taken, unallocated⟩
  · cases values

theorem noOrders_keyed (fundSlug : String) : (noOrders.schemas fundSlug).Keyed :=
  ⟨List.nodup_nil, fun _ member => by cases member⟩

theorem conserved_of_filled_twice : ∃ b final e,
    createBlockAllocation (fun _ => true) noOrders aBlock blockIds = .ok (b, some e) ∧
      (Block.system e).run b (sentAndFilled [(⟨5, by decide⟩, 4), (⟨6, by decide⟩, 6)]) =
        some final ∧ final.Conserved e := by
  have values : sharesOf (sentAndFilled [(⟨5, by decide⟩, 4), (⟨6, by decide⟩, 6)]) =
      some (aPlacement, 10, some 10, true, true) := by decide +kernel
  obtain ⟨b, final, created, ran, -, -, taken, unallocated⟩ := sharesOf_eq_some values
  have conserved := conserved_iff_unallocated (noOrders_keyed _) created (of_decide_eq_true taken) ran
  exact ⟨b, final, aPlacement, created, ran, conserved.mpr (of_decide_eq_true unallocated)⟩

/-- The ten shares of an order that is filled at once and allocated are
published twice: for the order in its fund, and for the legs. -/
theorem published_twice : ∃ b final e,
    createBlockAllocation (fun _ => true) noOrders aBlock blockIds = .ok (b, some e) ∧
      (Block.system e).run b (sentAndFilled [(⟨5, by decide⟩, 10)] ++
        [.allocateFills [⟨6, by decide⟩, ⟨7, by decide⟩]]) = some final ∧
      final.executedQuantity = 20 ∧ ¬ final.Conserved e := by
  have values : sharesOf (sentAndFilled [(⟨5, by decide⟩, 10)] ++
      [.allocateFills [⟨6, by decide⟩, ⟨7, by decide⟩]]) =
      some (aPlacement, 20, some 10, true, false) := by decide +kernel
  obtain ⟨b, final, created, ran, executed, filled, -, -⟩ := sharesOf_eq_some values
  refine ⟨b, final, aPlacement, created, ran, executed, ?_⟩
  rintro ⟨⟨order, found, same⟩, -⟩
  rw [found, Option.map_some, Option.some.injEq, ← same, executed] at filled
  norm_num at filled

end Runs

end MiniHedge.Orders
