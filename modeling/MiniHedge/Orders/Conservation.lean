import MiniHedge.Orders.Own
import Mathlib.Algebra.Group.Prod

/-! Fills and totals.

A fill is stored by one statement and counted by another, which overwrites the
totals with a sum that starts from the order as it was read. What is stored is
what the row says and what the calls between the two statements still owe it,
as long as nobody writes the totals between the read and the write.
-/

set_option autoImplicit false

namespace MiniHedge.Orders

open MiniHedge.Python MiniHedge.Library

/-- A quantity, and what was paid for it. -/
abbrev Totals := Decimal × Decimal

def OrderRecord.totals (o : OrderRecord) : Totals := (o.filledQuantity, o.cost)

def Fill.totals (f : Fill) : Totals := (f.quantity, f.quantity * f.price)

def booked (fills : List OrderFillRecord) : Totals :=
  ((fills.map (·.quantity)).sum, (fills.map OrderFillRecord.cost).sum)

@[simp] theorem booked_nil : booked [] = 0 := rfl

@[simp] theorem booked_append (fills rest : List OrderFillRecord) :
    booked (fills ++ rest) = booked fills + booked rest := by
  simp [booked]

@[simp] theorem booked_record (f : Fill) (draw : UUID) (now : Datetime) :
    booked [f.record draw now] = f.totals := by
  simp [booked, Fill.record, Fill.totals, OrderFillRecord.cost]

theorem Update.KeepsTotals.totals {u : Update} (keeps : u.KeepsTotals) (o : OrderRecord) :
    (u.set o).totals = o.totals :=
  Prod.ext (keeps.filledQuantity o) (keeps.cost o)

/-- What the order has filled cost so much: the average is what was paid for a share, but
for the final rounding, which is to 28 digits and then to the places of the column. -/
def OrderRecord.AveragesTo (o : OrderRecord) (cost : Decimal) : Prop :=
  if o.filledQuantity = 0 then cost = 0
  else o.avgFillPrice = some (numeric 8 (significant (cost / o.filledQuantity)))

instance (o : OrderRecord) (cost : Decimal) : Decidable (o.AveragesTo cost) :=
  inferInstanceAs (Decidable (if o.filledQuantity = 0 then cost = 0
    else o.avgFillPrice = some (numeric 8 (significant (cost / o.filledQuantity)))))

/-- The filled quantity and the average price of the order are those of its
fills, and it is not filled beyond its quantity. -/
def Conserved (w : World) (fundSlug : String) (id : UUID) : Prop :=
  ∃ o, w.order fundSlug id = some o ∧
    o.filledQuantity = ((w.fillsOf fundSlug id).map (·.quantity)).sum ∧
    o.filledQuantity ≤ o.quantity ∧
    o.AveragesTo ((w.fillsOf fundSlug id).map fun f => f.quantity * f.price).sum

instance (w : World) (fundSlug : String) (id : UUID) : Decidable (Conserved w fundSlug id) :=
  match found : w.order fundSlug id with
  | none => isFalse (by simp [Conserved, found])
  | some o =>
    decidable_of_iff (o.filledQuantity = ((w.fillsOf fundSlug id).map (·.quantity)).sum ∧
      o.filledQuantity ≤ o.quantity ∧
      o.AveragesTo ((w.fillsOf fundSlug id).map fun f => f.quantity * f.price).sum)
      (by simp [Conserved, found])

/-- What the call has stored of the order and is still to write. -/
def Process.owed (fundSlug : String) (id : UUID) (p : Process) : Totals :=
  match p.unwritten with
  | some f => if f.fundSlug = fundSlug ∧ f.order.id = id then f.totals else 0
  | none => 0

/-- The fills that no call is still to write. -/
def counted (fundSlug : String) (id : UUID) (w : World) (calls : List Process) : Totals :=
  booked (w.fillsOf fundSlug id) - (calls.map (Process.owed fundSlug id)).sum

/-- The column keeps the number as it is. -/
def Storable (x : Decimal) : Prop := numeric 8 (significant x) = x

instance (x : Decimal) : Decidable (Storable x) := inferInstanceAs (Decidable (_ = _))

/-- Whoever writes totals has read those that are there and can continue their average,
which has not been rounded: what the fills before have cost for a share is a number that
the column keeps. -/
def CurrentTotals (w : World) (others : List Process) (p : Process) (_ : Input) : Prop :=
  ∀ f ∈ p.unwritten, f.Averageable ∧ f.Precise ∧
    (∀ o ∈ w.order f.fundSlug f.order.id, o.totals = f.order.totals) ∧
    Storable ((counted f.fundSlug f.order.id w (p :: others)).2 /
      (counted f.fundSlug f.order.id w (p :: others)).1)

instance (w : World) (others : List Process) (p : Process) (input : Input) :
    Decidable (CurrentTotals w others p input) :=
  inferInstanceAs (Decidable (∀ f ∈ p.unwritten, _))

/-- The totals of the row are these. -/
def OrderRecord.Counts (o : OrderRecord) (totals : Totals) : Prop :=
  o.filledQuantity = totals.1 ∧ o.AveragesTo totals.2

theorem Update.KeepsTotals.counts {u : Update} (keeps : u.KeepsTotals) {o : OrderRecord}
    {totals : Totals} (counts : o.Counts totals) : (u.set o).Counts totals := by
  simpa [OrderRecord.Counts, OrderRecord.AveragesTo, Update.set, keeps.1, keeps.2] using counts

theorem OrderRecord.Counts.cost_eq {o : OrderRecord} {totals : Totals} (counts : o.Counts totals)
    (storable : Storable (totals.2 / totals.1)) : o.cost = totals.2 := by
  obtain ⟨filled, average⟩ := counts
  unfold OrderRecord.AveragesTo at average
  split at average
  · rename_i zero
    rw [OrderRecord.cost, zero, mul_zero, average]
  · rename_i some_filled
    have kept : numeric 8 (significant (totals.2 / totals.1)) = totals.2 / totals.1 := storable
    rw [OrderRecord.cost, average, Option.getD_some, filled, kept,
      div_mul_cancel₀ _ (filled ▸ some_filled)]

/-- A write counts the fill to what was counted. -/
theorem Fill.update_counts {f : Fill} {u : Update} {o : OrderRecord} {totals : Totals}
    (updated : f.update = .ok u) (averageable : f.Averageable) (precise : f.Precise)
    (current : o.totals = f.order.totals) (counts : o.Counts totals)
    (storable : Storable (totals.2 / totals.1)) : (u.set o).Counts (totals + f.totals) := by
  have before : f.order.filledQuantity = totals.1 :=
    (congrArg Prod.fst current).symm.trans counts.1
  have cost : f.order.cost = totals.2 :=
    (congrArg Prod.snd current).symm.trans (counts.cost_eq storable)
  obtain ⟨filled, avg, priced, average⟩ := Fill.update_totals updated o
  refine ⟨by rw [filled, Fill.newFilled, before]; rfl, ?_⟩
  unfold OrderRecord.AveragesTo
  rw [filled, average]
  split
  · -- nothing is filled, before or after
    rename_i zero
    rcases averageable with unfilled | ⟨-, -, nonzero⟩
    · have quantity : f.quantity = 0 := by rwa [Fill.newFilled, unfilled, zero_add] at zero
      rw [Prod.snd_add, ← cost, Fill.totals, OrderRecord.cost, unfilled, quantity]
      ring
    · exact absurd zero nonzero
  · rename_i some_filled
    rw [Fill.avgPrice_eq averageable precise priced some_filled, cost]
    rfl

section OneOrder

variable (fundSlug : String) (id : UUID)

def Within (w : World) : Prop :=
  ∃ o, w.order fundSlug id = some o ∧ o.filledQuantity ≤ o.quantity

/-- What the checks before a fill have seen. -/
def Fill.Ready (f : Fill) (w : World) : Prop :=
  f.order.state.TakesFill ∧ f.quantity ≤ f.order.remaining ∧
    (f.fundSlug = fundSlug → (w.order fundSlug id).map (·.quantity) = some f.order.quantity)

def FillStage.Ready (w : World) (f : Fill) : FillStage → Prop
  | .raised _ => True
  | .insert | .stored _ _ => f.Ready fundSlug id w

def Process.Ready (w : World) : Process → Prop
  | .report _ (.filling f stage) => stage.Ready fundSlug id w f
  | .report _ (.locating _) | .report _ .ignored | .report _ (.raised _) | .cancel _ _ => True
  | .execution _ | .submission _ _ | .slice _ _ => False

/-- A call for the order that has passed its checks. -/
def Process.Checked (w : World) (p : Process) : Prop := p.Own id ∧ p.Ready fundSlug id w

variable {fundSlug id} {w w' : World} {p p' : Process} {input : Input}

theorem Process.Own.unwritten {f : Fill} (own : p.Own id) (held : f ∈ p.unwritten) :
    f.order.id = id := by
  obtain ⟨⟨f', stage⟩, filling, stored⟩ := Option.bind_eq_some_iff.mp held
  have same : f' = f := by
    simp only [FillStage.unwritten] at stored
    split at stored
    · exact Option.some.inj stored
    · cases stored
  subst same
  unfold Process.filling at filling
  split at filling
  · cases filling
    exact own.2.1
  · cases filling
    exact own.2.1
  · exact own.elim
  · cases filling

theorem Process.Ready.unwritten {f : Fill} (ready : p.Ready fundSlug id w)
    (held : p.unwritten = some f) : f.Ready fundSlug id w := by
  obtain ⟨⟨f', stage⟩, filling, stored⟩ := Option.bind_eq_some_iff.mp held
  simp only [FillStage.unwritten] at stored
  split at stored
  · cases stored
    unfold Process.filling at filling
    split at filling
    · cases filling
      exact ready
    · exact ready.elim
    · exact ready.elim
    · cases filling
  · cases stored

theorem OwnTurn.quantity {unwritten unwritten' : Option Fill}
    {writing : Option (String × OrderRecord)} (turn : OwnTurn id w w' unwritten writing unwritten') :
    (w'.order fundSlug id).map (·.quantity) = (w.order fundSlug id).map (·.quantity) := by
  cases turn with
  | quiet orders fills same => rw [orders]
  | failed f exc before failed untouched => rw [untouched]
  | insert f draw now order before after inserted => rw [World.order_insertFill inserted]
  | write slug o u read valid written totals after =>
    rw [written]
    by_cases same : slug = fundSlug
    · rw [same, World.order_updateState_own, Option.map_map]
      rfl
    · rw [World.order_updateState_other u fun hit => same hit.1]

theorem FillStage.Ready.mono {f : Fill} {stage : FillStage} (ready : stage.Ready fundSlug id w f)
    (same : (w'.order fundSlug id).map (·.quantity) = (w.order fundSlug id).map (·.quantity)) :
    stage.Ready fundSlug id w' f := by
  cases stage with
  | insert => exact ⟨ready.1, ready.2.1, fun own => same.trans (ready.2.2 own)⟩
  | stored tradeId step => exact ⟨ready.1, ready.2.1, fun own => same.trans (ready.2.2 own)⟩
  | raised exc => trivial

theorem Process.Ready.mono (ready : p.Ready fundSlug id w)
    (same : (w'.order fundSlug id).map (·.quantity) = (w.order fundSlug id).map (·.quantity)) :
    p.Ready fundSlug id w' := by
  cases p with
  | report r stage =>
    cases stage with
    | filling f stage => exact FillStage.Ready.mono ready same
    | locating pending => trivial
    | ignored => trivial
    | raised exc => trivial
  | cancel c stage => trivial
  | execution r => exact ready.elim
  | submission s stage => exact ready.elim
  | slice s stage => exact ready.elim

/-- What a report finds when it locates the order is what it fills. -/
theorem Report.fill_ready {r : Report} {slug : String} {o : OrderRecord} {key : UUID}
    (asked : key = id) (found : w.order slug key = some o) (takes : o.state.TakesFill) :
    (r.fill slug o).start.Ready fundSlug id w (r.fill slug o) := by
  unfold Fill.start
  split
  · trivial
  · rename_i checked
    refine ⟨takes, Fill.check_ok_iff.mp checked, fun same => ?_⟩
    subst asked same
    exact congrArg (Option.map (·.quantity)) found

theorem Report.advance_ready {r : Report} {stage stage' : ReportStage}
    (parsed : UUID.parse r.clientOrderId = some id)
    (ready : (Process.report r stage).Ready fundSlug id w)
    (advanced : r.advance w input stage = some (w', stage')) :
    (Process.report r stage').Ready fundSlug id w := by
  cases stage with
  | locating pending =>
    cases pending with
    | nil => cases advanced
    | cons slug pending =>
      simp only [Report.advance, parsed] at advanced
      split at advanced
      · cases advanced
        trivial
      · rename_i o found
        split at advanced
        · rename_i takes
          cases advanced
          exact Report.fill_ready rfl found takes
        · cases advanced
          trivial
  | filling f stage =>
    simp only [Report.advance, Option.map_eq_some_iff, Prod.mk.injEq] at advanced
    obtain ⟨⟨next, stage'⟩, moved, rfl, rfl⟩ := advanced
    cases stage' with
    | raised exc => trivial
    | insert =>
      cases stage with
      | insert => exact ready
      | stored tradeId step => exact ready
      | raised exc => cases moved
    | stored tradeId' step' =>
      cases stage with
      | insert => exact ready
      | stored tradeId step => exact ready
      | raised exc => cases moved
  | ignored => cases advanced
  | raised exc => cases advanced

theorem Process.Checked.advance {fundSlugs : List String} (checked : p.Checked fundSlug id w)
    (advanced : p.advance fundSlugs w input = some (w', p')) : p'.Checked fundSlug id w' := by
  obtain ⟨own, ready⟩ := checked
  refine ⟨own.advance advanced, Process.Ready.mono ?_ (own.turn advanced).quantity⟩
  cases p with
  | execution r => exact ready.elim
  | report r stage =>
    simp only [Process.advance, Option.map_eq_some_iff, Prod.mk.injEq] at advanced
    obtain ⟨⟨next, stage'⟩, moved, rfl, rfl⟩ := advanced
    exact Report.advance_ready own.1 ready moved
  | cancel c stage =>
    simp only [Process.advance, Option.map_eq_some_iff, Prod.mk.injEq] at advanced
    obtain ⟨⟨next, stage'⟩, moved, rfl, rfl⟩ := advanced
    trivial
  | submission s stage => exact ready.elim
  | slice s stage => exact ready.elim

theorem Fill.Ready.update_ok {f : Fill} (ready : f.Ready fundSlug id w)
    (averageable : f.Averageable) : ∃ u, f.update = .ok u := by
  refine Fill.update_ok ready.1 fun positive => ?_
  rcases averageable with zero | ⟨-, -, nonzero⟩
  · exact absurd zero (ne_of_gt positive)
  · exact nonzero

/-- A turn of a call leaves the row with the totals of the fills that are not owed. -/
theorem advance_counts {fundSlugs : List String} {others : List Process}
    (checked : p.Checked fundSlug id w) (within : Within fundSlug id w)
    (current : CurrentTotals w others p input)
    (counts : ∀ o ∈ w.order fundSlug id, o.Counts (counted fundSlug id w (p :: others)))
    (advanced : p.advance fundSlugs w input = some (w', p')) :
    ∀ o ∈ w'.order fundSlug id, o.Counts (counted fundSlug id w' (p' :: others)) := by
  obtain ⟨own, ready⟩ := checked
  obtain ⟨o, found, -⟩ := within
  cases own.turn advanced with
  | quiet orders fills same =>
    rw [orders fundSlug]
    simpa [counted, Process.owed, fills, same] using counts
  | failed f exc before failed untouched =>
    obtain ⟨u, updated⟩ := (ready.unwritten before).update_ok (current f before).1
    simp [updated] at failed
  | insert f draw now order before after inserted =>
    have grown := World.fillsOf_insertFill inserted fundSlug id
    rw [World.order_insertFill inserted]
    have same : counted fundSlug id w' (p' :: others) = counted fundSlug id w (p :: others) := by
      simp only [counted, List.map_cons, List.sum_cons, Process.owed, before, after, grown]
      by_cases slug : f.fundSlug = fundSlug
      · have recorded : f.fundSlug = fundSlug ∧ (f.record draw now).orderId = id := ⟨slug, order⟩
        rw [if_pos recorded, if_pos ⟨slug, order⟩, booked_append, booked_record]
        abel
      · rw [if_neg fun hit => slug hit.1, if_neg fun hit => slug hit.1, List.append_nil]
    rw [same]
    exact counts
  | write slug read u writing valid written totals after =>
    subst written
    rcases totals with ⟨before, keeps⟩ | ⟨f, before, rfl, rfl, updated⟩
    · have same : counted fundSlug id (w.updateState slug id u) (p' :: others) =
          counted fundSlug id w (p :: others) := by
        simp only [counted, List.map_cons, Process.owed, before, after, World.fillsOf_updateState]
      rw [same]
      by_cases elsewhere : slug = fundSlug
      · subst elsewhere
        rw [World.order_updateState_own, found, Option.map_some]
        rintro row ⟨⟩
        exact keeps.counts (counts o found)
      · rw [World.order_updateState_other u fun hit => elsewhere hit.1]
        exact counts
    · obtain ⟨averageable, precise, current, storable⟩ := current f before
      have order := own.unwritten before
      by_cases same : f.fundSlug = fundSlug
      · subst same order
        rw [World.order_updateState_own, found, Option.map_some]
        rintro row ⟨⟩
        have next : counted f.fundSlug f.order.id (w.updateState f.fundSlug f.order.id u)
            (p' :: others) = counted f.fundSlug f.order.id w (p :: others) + f.totals := by
          simp only [counted, List.map_cons, List.sum_cons, Process.owed, before, after,
            World.fillsOf_updateState, and_self, if_true]
          abel
        rw [next]
        exact Fill.update_counts updated averageable precise (current o found) (counts o found)
          storable
      · have next : counted fundSlug id (w.updateState f.fundSlug id u) (p' :: others) =
            counted fundSlug id w (p :: others) := by
          simp only [counted, List.map_cons, Process.owed, before, after,
            World.fillsOf_updateState, same, false_and, if_false]
        rw [next, World.order_updateState_other u fun hit => same hit.1]
        exact counts

theorem advance_within {fundSlugs : List String} (checked : p.Checked fundSlug id w)
    (within : Within fundSlug id w) (advanced : p.advance fundSlugs w input = some (w', p')) :
    Within fundSlug id w' := by
  obtain ⟨own, ready⟩ := checked
  obtain ⟨o, found, bound⟩ := within
  cases own.turn advanced with
  | quiet orders fills same => exact ⟨o, (orders fundSlug).trans found, bound⟩
  | failed f exc before failed untouched => exact ⟨o, untouched ▸ found, bound⟩
  | insert f draw now order before after inserted =>
    exact ⟨o, (World.order_insertFill inserted fundSlug id).trans found, bound⟩
  | write slug read u writing valid written totals after =>
    subst written
    by_cases same : slug = fundSlug
    · subst same
      refine ⟨u.set o, by rw [World.order_updateState_own, found]; rfl, ?_⟩
      rcases totals with ⟨before, keeps⟩ | ⟨f, before, rfl, rfl, updated⟩
      · rw [keeps.filledQuantity]
        exact bound
      · obtain ⟨-, fits, quantity⟩ := ready.unwritten before
        have read : o.quantity = f.order.quantity := by simpa [found] using quantity rfl
        rw [(Fill.update_totals updated o).1, Update.set_quantity, read, Fill.newFilled]
        have room : f.quantity ≤ f.order.quantity - f.order.filledQuantity := fits
        linarith
    · exact ⟨o, (World.order_updateState_other u fun hit => same hit.1).trans found, bound⟩

theorem conserved_iff : Conserved w fundSlug id ↔ Within fundSlug id w ∧
    ∀ o ∈ w.order fundSlug id, o.Counts (booked (w.fillsOf fundSlug id)) := by
  unfold Conserved Within
  cases found : w.order fundSlug id with
  | none => simp
  | some o =>
    simp only [Option.some.injEq, exists_eq_left', Option.mem_def, forall_eq']
    exact ⟨fun ⟨filled, bound, average⟩ => ⟨bound, filled, average⟩,
      fun ⟨bound, filled, average⟩ => ⟨filled, bound, average⟩⟩

end OneOrder

theorem Process.owed_finished {fundSlug : String} {id : UUID} {p : Process}
    (finished : p.finished) : p.owed fundSlug id = 0 := by
  have nothing : p.unwritten = none := by
    refine Option.bind_eq_none_iff.mpr fun ⟨f, stage⟩ filling => ?_
    have through : stage.finished = true := by
      unfold Process.filling at filling
      split at filling
      · cases filling
        exact finished
      · cases filling
        exact finished
      · cases filling
        exact finished
      · cases filling
    cases stage with
    | insert => cases through
    | raised exc => rfl
    | stored tradeId step =>
      cases step with
      | update => cases through
      | _ => rfl
  simp [Process.owed, nothing]

section Runs

variable {fundSlugs : List String} {fundSlug : String} {id : UUID}
  {s next : Processes.State World Process} {turn : Processes.Turn Input}

/-- The calls for the order on a world that holds it within its quantity. -/
def Serving (fundSlug : String) (id : UUID) (s : Processes.State World Process) : Prop :=
  Processes.Holds (Within fundSlug id) (Process.Checked fundSlug id) (fun _ _ => True) s

/-- The row counts the fills that no call is still to write. -/
def Accounted (fundSlug : String) (id : UUID) (s : Processes.State World Process) : Prop :=
  ∀ o ∈ s.shared.order fundSlug id, o.Counts (counted fundSlug id s.shared s.processes)

theorem step_serving (serving : Serving fundSlug id s)
    (stepped : (orders fundSlugs).system.step s turn = some next) : Serving fundSlug id next := by
  have unconditional : Processes.When (fun _ _ _ _ => True) s turn := fun _ _ => trivial
  refine Processes.step_keeps (fun _ _ _ => trivial) ?_ serving unconditional stepped
  intro w w' others p p' input within checked apart _ advanced
  refine ⟨advance_within checked within advanced, checked.advance advanced, ?_⟩
  intro q member
  obtain ⟨own, ready⟩ := (apart q member).1
  exact ⟨⟨own, ready.mono (checked.1.turn advanced).quantity⟩, trivial⟩

theorem counted_middle (w : World) (before after : List Process) (p : Process) :
    counted fundSlug id w (before ++ p :: after) =
      counted fundSlug id w (p :: (before ++ after)) := by
  simp only [counted, List.map_append, List.map_cons, List.sum_append, List.sum_cons]
  abel

theorem step_accounted (serving : Serving fundSlug id s)
    (met : Processes.When CurrentTotals s turn) (accounted : Accounted fundSlug id s)
    (stepped : (orders fundSlugs).system.step s turn = some next) :
    Accounted fundSlug id next := by
  obtain ⟨before, p, after, w', p', split, found, rest, advanced, rfl⟩ :=
    Processes.step_cases _ stepped
  have own : p ∈ s.processes := by simp [split]
  have current := met p found
  rw [rest] at current
  unfold Accounted at accounted ⊢
  rw [split, counted_middle] at accounted
  dsimp only
  rw [counted_middle]
  exact advance_counts (serving.each p own) serving.shared current accounted advanced

theorem serve_serving {w : World} {calls : List Call}
    (asked : ∀ call ∈ calls, call.orderId = some id) (within : Within fundSlug id w) :
    Serving fundSlug id (serve fundSlugs w calls) := by
  refine ⟨within, fun p member => ⟨serve_own asked p member, ?_⟩,
    List.pairwise_of_forall fun _ _ => trivial⟩
  obtain ⟨call, among, rfl⟩ := List.mem_map.mp member
  cases call <;> trivial

/-- When no call owes anything, all fills are counted. -/
theorem counted_none {w : World} {calls : List Process}
    (none_owed : ∀ p ∈ calls, p.owed fundSlug id = 0) :
    counted fundSlug id w calls = booked (w.fillsOf fundSlug id) := by
  have nothing : (calls.map (Process.owed fundSlug id)).sum = 0 := by
    refine List.sum_eq_zero fun owed member => ?_
    obtain ⟨p, held, rfl⟩ := List.mem_map.mp member
    exact none_owed p held
  rw [counted, nothing, sub_zero]

theorem owed_serve (w : World) (calls : List Call) :
    ∀ p ∈ (serve fundSlugs w calls).processes, p.owed fundSlug id = 0 := by
  intro p held
  obtain ⟨call, -, rfl⟩ := List.mem_map.mp held
  cases call <;> rfl

end Runs

/-- Where every write of totals starts from the totals that are there and an average that
has not been rounded, the totals are those of the fills whenever no call is under way. -/
theorem conserved_of_currentTotals (fundSlugs : List String) {w : World} {fundSlug : String}
    {id : UUID} {calls : List Call} (asked : ∀ call ∈ calls, call.orderId = some id)
    (conserved : Conserved w fundSlug id) {turns : List (Processes.Turn Input)}
    {final : Processes.State World Process}
    (along : (orders fundSlugs).system.Along (Processes.When CurrentTotals)
      (serve fundSlugs w calls) turns)
    (ran : (orders fundSlugs).system.run (serve fundSlugs w calls) turns = some final)
    (finished : ∀ p ∈ final.processes, p.finished) : Conserved final.shared fundSlug id := by
  obtain ⟨within, counts⟩ := conserved_iff.mp conserved
  have initially : Accounted fundSlug id (serve fundSlugs w calls) := by
    unfold Accounted
    rw [counted_none (owed_serve w calls)]
    exact counts
  have kept : ∀ s turn next, Serving fundSlug id s ∧ Accounted fundSlug id s →
      Processes.When CurrentTotals s turn → (orders fundSlugs).system.step s turn = some next →
      Serving fundSlug id next ∧ Accounted fundSlug id next :=
    fun s turn next inv met stepped => ⟨step_serving inv.1 stepped,
      step_accounted inv.1 met inv.2 stepped⟩
  obtain ⟨serving, accounted⟩ :=
    System.invariant_along kept along ran ⟨serve_serving asked within, initially⟩
  unfold Accounted at accounted
  rw [counted_none fun p member => Process.owed_finished (finished p member)] at accounted
  exact conserved_iff.mpr ⟨serving.shared, accounted⟩

def anOrder (state : OrderState) : OrderRecord where
  id := .ofNat 1
  portfolioId := .ofNat 7
  instrumentId := "AAPL"
  side := .buy
  quantity := 10
  state := state

/-- A fund with one order. -/
def holding (o : OrderRecord) : World where
  schemas slug := if slug = "alpha" then { orders := [o] } else {}

def aReport (quantity price : Decimal) : Report where
  clientOrderId := (UUID.ofNat 1).str
  fillPrice := price
  fillQuantity := quantity

/-- Two fills and a cancellation of one order. -/
def twoFillsAndCancel : List Call :=
  [.processExecutionReport (aReport 5 100), .processExecutionReport (aReport 3 120),
    .cancelOrder ⟨"alpha", .ofNat 1⟩]

/-- Turns of the processes with these indices; the draws are all different. -/
def schedule (order : List Nat) : List (Processes.Turn Input) :=
  order.zipIdx.map fun (index, i) =>
    ⟨index, { draw := .ofNat (100 + i % 2 ^ 64), now := 0 }⟩

/-- The cancellation reads the order before the fills and writes between them. -/
theorem conserved_of_sequential_fills :
    ∃ final, (orders ["alpha"]).system.run
        (serve ["alpha"] (holding (anOrder .sent)) twoFillsAndCancel)
        (schedule ([2] ++ List.replicate 6 0 ++ [1, 2, 2] ++ List.replicate 5 1)) = some final ∧
      (final.shared.order "alpha" ⟨1, by decide⟩).map (·.filledQuantity) = some 8 ∧
      Conserved final.shared "alpha" ⟨1, by decide⟩ := by
  have ran : ((orders ["alpha"]).system.run
      (serve ["alpha"] (holding (anOrder .sent)) twoFillsAndCancel)
      (schedule ([2] ++ List.replicate 6 0 ++ [1, 2, 2] ++ List.replicate 5 1))).map (fun final =>
        (final.processes.all Process.finished,
          (final.shared.order "alpha" ⟨1, by decide⟩).map (·.filledQuantity))) =
      some (true, some 8) := by
    decide +kernel
  have along : (orders ["alpha"]).system.Along (Processes.When CurrentTotals)
      (serve ["alpha"] (holding (anOrder .sent)) twoFillsAndCancel)
      (schedule ([2] ++ List.replicate 6 0 ++ [1, 2, 2] ++ List.replicate 5 1)) := by
    decide +kernel
  obtain ⟨final, reached, values⟩ := Option.map_eq_some_iff.mp ran
  simp only [Prod.mk.injEq, List.all_eq_true] at values
  exact ⟨final, reached, values.2, conserved_of_currentTotals ["alpha"] (by decide +kernel)
    (by decide +kernel) along reached values.1⟩

/-- Both fills read the order before either writes its totals: both are stored,
and the second overwrites what the first has counted. -/
theorem second_fill_overwrites_totals :
    (∀ call ∈ twoFillsAndCancel, call.orderId = some ⟨1, by decide⟩) ∧
      Conserved (holding (anOrder .sent)) "alpha" ⟨1, by decide⟩ ∧
      ∃ final, (orders ["alpha"]).system.run
          (serve ["alpha"] (holding (anOrder .sent)) twoFillsAndCancel)
          (schedule ([0, 1] ++ List.replicate 5 0 ++ List.replicate 5 1 ++ [2, 2, 2])) =
          some final ∧
        final.processes.all Process.finished ∧
        (final.shared.fillsOf "alpha" ⟨1, by decide⟩).map (·.quantity) = [5, 3] ∧
        (final.shared.order "alpha" ⟨1, by decide⟩).map (·.filledQuantity) = some 3 ∧
        ¬ Conserved final.shared "alpha" ⟨1, by decide⟩ := by
  have ran : ((orders ["alpha"]).system.run
      (serve ["alpha"] (holding (anOrder .sent)) twoFillsAndCancel)
      (schedule ([0, 1] ++ List.replicate 5 0 ++ List.replicate 5 1 ++ [2, 2, 2]))).map
        (fun final => (final.processes.all Process.finished,
          (final.shared.fillsOf "alpha" ⟨1, by decide⟩).map (·.quantity),
          (final.shared.order "alpha" ⟨1, by decide⟩).map (·.filledQuantity),
          decide (Conserved final.shared "alpha" ⟨1, by decide⟩))) =
      some (true, [5, 3], some 3, false) := by
    decide +kernel
  obtain ⟨final, reached, values⟩ := Option.map_eq_some_iff.mp ran
  simp only [Prod.mk.injEq, decide_eq_false_iff_not] at values
  exact ⟨by decide +kernel, by decide +kernel, final, reached, values⟩

end MiniHedge.Orders
