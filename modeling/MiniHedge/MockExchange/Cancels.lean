import MiniHedge.MockExchange.Reports

/-! Whether an order that the exchange has cancelled stays as it is.

The fill task is scheduled when an order is submitted, and it does not look at the
order's status when it wakes. What decides is whether it still sleeps when the
cancel comes.
-/

set_option autoImplicit false

namespace MiniHedge.MockExchange

open MiniHedge.Python MiniHedge.Library

/-! ## What is to hold -/

def Exchange.order (s : Exchange) (k : ℕ) : Option OrderState := s.orders[k]?.map Prod.fst

def ExecutionReport.about : ExecutionReport → ℕ
  | .rejected exchangeOrderId .. => exchangeOrderId
  | .fill report => report.exchangeOrderId

def Exchange.reportsOf (s : Exchange) (k : ℕ) : List ExecutionReport :=
  s.reports.filter fun report => report.about = k

/-- `cancel_order` of the order answers `True`. -/
def Exchange.Cancels (s : Exchange) (k : ℕ) : Prop := ∃ order ∈ s.order k, order.cancel.1 = true

instance (s : Exchange) (k : ℕ) : Decidable (s.Cancels k) :=
  match found : s.order k with
  | none => isFalse (by simp [Exchange.Cancels, found])
  | some order => decidable_of_iff (order.cancel.1 = true) (by simp [Exchange.Cancels, found])

/-- Between a cancel and a later state: no fill more, none reported, and still cancelled. -/
structure Sticks (k : ℕ) (cancelled later : Exchange) : Prop where
  fills : (later.order k).map (·.fills) = (cancelled.order k).map (·.fills)
  reports : later.reportsOf k = cancelled.reportsOf k
  status : (later.order k).map (·.status) = some .cancelled

/-! ## Steps -/

section Steps

variable {engine : ExecutionEngine} {s next : Exchange} {event : ExchangeEvent} {k : ℕ}

/-- What a step of the exchange does to its orders and reports. -/
inductive Exchange.Stepped (engine : ExecutionEngine) (s : Exchange) : ExchangeEvent → Exchange → Prop where
  | submitted {request isMarketOpen quote draw published} :
      Stepped engine s (.submits request isMarketOpen quote draw published)
        { s with
          orders := s.orders ++ [(engine.submitOrder s request isMarketOpen quote draw).1]
          reports := s.reports ++ if published then
            (engine.submitOrder s request isMarketOpen quote draw).2.toList else [] }
  | woken {j w published order books} :
      s.orders[j]? = some (order, .sleeping) →
      Stepped engine s (.wakes j w published)
        { books
          orders := s.orders.set j ((engine.doFill order (s.books order.instrumentId) w).order, .ended)
          reports := s.reports ++ if published then
            [.fill (engine.doFill order (s.books order.instrumentId) w).report] else [] }
  | failed {j books order} : s.orders[j]? = some (order, .sleeping) →
      Stepped engine s (.fails j books) { s with books, orders := s.orders.set j (order, .ended) }
  | cancelled {j order task} : s.orders[j]? = some (order, task) →
      Stepped engine s (.cancels j) { s with orders := s.orders.set j (order.cancel.2, task) }
  | unknown {j} : s.orders[j]? = none → Stepped engine s (.cancels j) s
  | moved {books} : Stepped engine s (.moves books) { s with books }

theorem exchange_stepped (stepped : (exchange engine).step s event = some next) :
    Exchange.Stepped engine s event next := by
  cases event with
  | submits request isMarketOpen quote draw published =>
    cases stepped
    exact .submitted
  | wakes k w published =>
    simp only [exchange] at stepped
    split at stepped
    · rename_i order found
      cases stepped
      exact .woken found
    · cases stepped
  | fails k books =>
    simp only [exchange] at stepped
    split at stepped
    · rename_i order found
      cases stepped
      exact .failed found
    · cases stepped
  | cancels k =>
    simp only [exchange] at stepped
    split at stepped
    · rename_i order task found
      cases stepped
      exact .cancelled found
    · rename_i missing
      cases stepped
      exact .unknown missing
  | moves books =>
    cases stepped
    exact .moved

/-! ## Orders and their tasks -/

/-- An order without a task was rejected, and one whose task sleeps has no fills. -/
structure Kept (k : ℕ) (entry : OrderState × FillTask) : Prop where
  id : entry.1.exchangeOrderId = k
  rejected : entry.2 = .unscheduled → entry.1.status = .rejected
  unfilled : entry.2 = .sleeping → entry.1.fills = []

def Exchange.Sound (s : Exchange) : Prop := ∀ k entry, s.orders[k]? = some entry → Kept k entry

theorem Kept.ended {order filled : OrderState} {task : FillTask} (kept : Kept k (order, task))
    (same : filled.exchangeOrderId = order.exchangeOrderId) : Kept k (filled, .ended) :=
  ⟨same.trans kept.id, nofun, nofun⟩

theorem cancel_same (order : OrderState) :
    order.cancel.2.exchangeOrderId = order.exchangeOrderId ∧ order.cancel.2.fills = order.fills := by
  unfold OrderState.cancel
  split <;> exact ⟨rfl, rfl⟩

theorem cancel_accepted {order : OrderState} (accepted : order.cancel.1 = true) :
    order.cancel.2 = { order with status := .cancelled } ∧ order.status ≠ .rejected := by
  unfold OrderState.cancel at accepted ⊢
  cases status : order.status <;> simp_all

theorem cancel_cancelled {order : OrderState} (cancelled : order.status = .cancelled) :
    order.cancel.2 = order := by
  simp [OrderState.cancel, cancelled]

theorem submitOrder_kept (request : OrderRequest) (isMarketOpen : Bool) (quote : Option Decimal)
    (draw : ℚ) : Kept s.orders.length (engine.submitOrder s request isMarketOpen quote draw).1 := by
  have accepted : Kept s.orders.length
      (ExecutionEngine.submitOrder.accepted engine s request quote draw s.orders.length) := by
    unfold ExecutionEngine.submitOrder.accepted
    dsimp only
    split
    · split <;> exact ⟨rfl, by simp, by simp⟩
    · split <;> exact ⟨rfl, by simp, by simp⟩
  unfold ExecutionEngine.submitOrder
  dsimp only
  split
  · split
    · exact ⟨rfl, by simp, by simp⟩
    · exact accepted
  · exact accepted

theorem submitOrder_report {request : OrderRequest} {isMarketOpen : Bool} {quote : Option Decimal}
    {draw : ℚ} {report : ExecutionReport}
    (made : report ∈ (engine.submitOrder s request isMarketOpen quote draw).2) :
    report.about = s.orders.length := by
  unfold ExecutionEngine.submitOrder at made
  dsimp only at made
  split at made
  · split at made
    · cases made
      rfl
    · cases made
  · cases made

theorem Exchange.Sound.append {entry : OrderState × FillTask} (sound : s.Sound)
    (kept : Kept s.orders.length entry) {books : String → Option SimulatedOrderBook}
    {reports : List ExecutionReport} : Exchange.Sound ⟨books, s.orders ++ [entry], reports⟩ := by
  intro k other found
  dsimp only at found
  rw [List.getElem?_append] at found
  split at found
  · exact sound k other found
  · rw [List.getElem?_singleton] at found
    split at found
    · cases found
      rwa [show k = s.orders.length by omega]
    · cases found

theorem Exchange.Sound.set {entry : OrderState × FillTask} (sound : s.Sound) (kept : Kept k entry)
    {books : String → Option SimulatedOrderBook} {reports : List ExecutionReport} :
    Exchange.Sound ⟨books, s.orders.set k entry, reports⟩ := by
  intro j other found
  rw [List.getElem?_set] at found
  split at found
  · rename_i same
    subst same
    split at found
    · cases found
      exact kept
    · cases found
  · exact sound j other found

theorem Exchange.Sound.step (sound : s.Sound) (stepped : (exchange engine).step s event = some next) :
    next.Sound := by
  cases exchange_stepped stepped with
  | submitted => exact sound.append (submitOrder_kept _ _ _ _)
  | @woken j w published order books found =>
    have ended : Kept j ((engine.doFill order (s.books order.instrumentId) w).order, .ended) :=
      (sound _ _ found).ended rfl
    exact sound.set ended
  | failed found => exact sound.set ((sound _ _ found).ended rfl)
  | @cancelled j order task found =>
    have kept := sound _ _ found
    refine sound.set ⟨(cancel_same order).1.trans kept.id, fun unscheduled => ?_, fun sleeping => ?_⟩
    · have rejected : order.status = .rejected := kept.rejected unscheduled
      simp [OrderState.cancel, rejected]
    · exact (cancel_same order).2.trans (kept.unfilled sleeping)
  | unknown => exact sound
  | moved => exact sound

/-! ## A cancelled order without a task -/

theorem reportsOf_append (published : Bool) {reports : List ExecutionReport}
    (others : ∀ report ∈ reports, report.about ≠ k) {books : String → Option SimulatedOrderBook}
    {orders : List (OrderState × FillTask)} :
    Exchange.reportsOf ⟨books, orders, s.reports ++ if published then reports else []⟩ k =
      s.reportsOf k := by
  have nothing : (if published then reports else []).filter (fun report => report.about = k) = [] := by
    rw [List.filter_eq_nil_iff]
    intro report member
    cases published with
    | false => cases member
    | true => simpa using others report member
  rw [Exchange.reportsOf, List.filter_append, nothing, List.append_nil]
  rfl

/-- No step changes an order that is cancelled and whose task has ended, or reports on it. -/
theorem cancelled_step (sound : s.Sound) {order : OrderState}
    (found : s.orders[k]? = some (order, .ended)) (cancelled : order.status = .cancelled)
    (stepped : (exchange engine).step s event = some next) :
    next.orders[k]? = some (order, .ended) ∧ next.reportsOf k = s.reportsOf k := by
  have inside := (List.getElem?_eq_some_iff.mp found).1
  cases exchange_stepped stepped with
  | submitted =>
    refine ⟨by rw [List.getElem?_append_left inside, found], reportsOf_append _ fun report made => ?_⟩
    have own := submitOrder_report (Option.mem_toList.mp made)
    omega
  | @woken j w published other books sleeping =>
    have apart : j ≠ k := by
      rintro rfl
      cases sleeping.symm.trans found
    refine ⟨by rw [List.getElem?_set_ne apart, found], reportsOf_append _ fun report made => ?_⟩
    obtain rfl := List.mem_singleton.mp made
    have own := (sound _ _ sleeping).id
    intro same
    exact apart (own.symm.trans same)
  | @failed j books other sleeping =>
    have apart : j ≠ k := by
      rintro rfl
      cases sleeping.symm.trans found
    exact ⟨by rw [List.getElem?_set_ne apart, found], rfl⟩
  | @cancelled j other task held =>
    refine ⟨?_, rfl⟩
    by_cases same : j = k
    · subst same
      cases held.symm.trans found
      rw [cancel_cancelled cancelled, List.getElem?_set_self inside]
    · rw [List.getElem?_set_ne same, found]
  | unknown => exact ⟨found, rfl⟩
  | moved => exact ⟨found, rfl⟩

end Steps

section Runs

variable {engine : ExecutionEngine} {s next : Exchange} {k : ℕ}

theorem sound_reachable {events : List ExchangeEvent}
    (ran : (exchange engine).run {} events = some s) : s.Sound :=
  System.invariant_run (fun _ _ _ sound stepped => sound.step stepped) ran (by simp [Exchange.Sound])

/-- A fill task finds its order without fills. -/
theorem sleeping_unfilled {events : List ExchangeEvent} (ran : (exchange engine).run {} events = some s)
    {order : OrderState} (found : s.orders[k]? = some (order, .sleeping)) : order.fills = [] :=
  (sound_reachable ran _ _ found).unfilled rfl

theorem sticks_of_ended (sound : s.Sound) {order : OrderState}
    (found : s.orders[k]? = some (order, .ended)) (cancelled : order.status = .cancelled)
    {later : List ExchangeEvent} {final : Exchange}
    (ran : (exchange engine).run s later = some final) : Sticks k s final := by
  have kept : ∀ (t : Exchange) event u,
      t.Sound ∧ t.orders[k]? = some (order, .ended) ∧ t.reportsOf k = s.reportsOf k →
      (exchange engine).step t event = some u →
        u.Sound ∧ u.orders[k]? = some (order, .ended) ∧ u.reportsOf k = s.reportsOf k := by
    rintro t event u ⟨sound, here, reports⟩ stepped
    obtain ⟨stays, nothing⟩ := cancelled_step sound here cancelled stepped
    exact ⟨sound.step stepped, stays, nothing.trans reports⟩
  obtain ⟨-, here, reports⟩ := System.invariant_run kept ran ⟨sound, found, rfl⟩
  exact ⟨by simp [Exchange.order, here, found], reports, by simp [Exchange.order, here, cancelled]⟩

/-- A task that wakes fills its order, cancelled or not. -/
theorem woken_not_sticks (engine : ExecutionEngine) {order : OrderState}
    (found : s.orders[k]? = some (order, .sleeping)) (w : Wake) :
    ∃ final, (exchange engine).run s [.wakes k w true] = some final ∧ ¬ Sticks k s final := by
  have inside := (List.getElem?_eq_some_iff.mp found).1
  refine ⟨_, by simp only [System.run_cons, exchange, found, Option.bind_some, System.run_nil]; rfl, ?_⟩
  intro sticks
  have fills := sticks.fills
  simp only [Exchange.order, List.getElem?_set_self inside, found, Option.map_some,
    Option.some.injEq] at fills
  have more := congrArg List.length fills
  simp [ExecutionEngine.doFill] at more

/-- Whatever the exchange has done so far, a cancel that is accepted sticks in all that can come
after it exactly if the fill task of the order has ended. -/
theorem sticks_iff_ended {events : List ExchangeEvent} (ran : (exchange engine).run {} events = some s)
    (accepted : s.Cancels k) (stepped : (exchange engine).step s (.cancels k) = some next) :
    (∀ later final, (exchange engine).run next later = some final → Sticks k next final) ↔
      (s.orders[k]?).map Prod.snd = some .ended := by
  have sound := sound_reachable ran
  obtain ⟨order, held, accepted⟩ := accepted
  obtain ⟨⟨order, task⟩, found, rfl⟩ := Option.map_eq_some_iff.mp held
  obtain ⟨same, notRejected⟩ := cancel_accepted accepted
  have here : next.orders[k]? = some ({ order with status := .cancelled }, task) := by
    have inside := (List.getElem?_eq_some_iff.mp found).1
    cases exchange_stepped stepped with
    | cancelled held =>
      cases held.symm.trans found
      rw [List.getElem?_set_self inside, same]
    | unknown missing => cases missing.symm.trans found
  rw [found, Option.map_some, Option.some.injEq]
  constructor
  · intro sticks
    cases task with
    | unscheduled => exact absurd ((sound _ _ found).rejected rfl) notRejected
    | sleeping =>
      obtain ⟨final, woken, broken⟩ := woken_not_sticks engine here { draw := 0 }
      exact absurd (sticks _ final woken) broken
    | ended => rfl
  · rintro rfl later final woken
    exact sticks_of_ended (sound.step stepped) here rfl woken

end Runs

/-! ## A cancel after a partial fill, and one while the task sleeps -/

def submitted : ExchangeEvent := .submits (limitBuy 101).toOrderRequest true none (1 / 2) true

def partlyFilled : List ExchangeEvent := [submitted, .wakes 0 { draw := 1 } true]

theorem partlyFilled_sticks : ∃ s next, (exchange goldmanOnly).run {} partlyFilled = some s ∧
    (exchange goldmanOnly).step s (.cancels 0) = some next ∧
      ∀ later final, (exchange goldmanOnly).run next later = some final → Sticks 0 next final := by
  obtain ⟨s, ran⟩ := Option.isSome_iff_exists.mp
    (by decide +kernel : ((exchange goldmanOnly).run {} partlyFilled).isSome)
  have facts : ∀ s ∈ (exchange goldmanOnly).run {} partlyFilled,
      s.Cancels 0 ∧ (s.orders[0]?).map Prod.snd = some .ended := by decide +kernel
  obtain ⟨accepted, ended⟩ := facts s ran
  obtain ⟨next, stepped⟩ : ∃ next, (exchange goldmanOnly).step s (.cancels 0) = some next := by
    simp only [exchange]
    split <;> exact ⟨_, rfl⟩
  exact ⟨s, next, ran, stepped, (sticks_iff_ended ran accepted stepped).mpr ended⟩

/-- The order is cancelled while its task sleeps, and filled when it wakes. -/
theorem cancelled_then_filled : ¬ ∀ engine events s k next,
    (exchange engine).run {} events = some s → s.Cancels k →
      (exchange engine).step s (.cancels k) = some next →
        ∀ later final, (exchange engine).run next later = some final → Sticks k next final := by
  intro sticks
  obtain ⟨final, ran⟩ := Option.isSome_iff_exists.mp
    (by decide +kernel : ((exchange goldmanOnly).run {}
      [submitted, .cancels 0, .wakes 0 { draw := 1 / 2 } true]).isSome)
  have filled : ∀ final ∈ (exchange goldmanOnly).run {}
      [submitted, .cancels 0, .wakes 0 { draw := 1 / 2 } true],
        (final.order 0).map (·.status) ≠ some .cancelled := by decide +kernel
  exact filled final ran (sticks goldmanOnly [submitted] _ 0 _ rfl (by decide +kernel) rfl
    [.wakes 0 { draw := 1 / 2 } true] final ran).status

end MiniHedge.MockExchange
