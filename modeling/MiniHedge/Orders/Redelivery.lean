import MiniHedge.Orders.Executions

/-! Execution reports that are delivered at least once.

The adapter takes one message after the other and awaits the service; whatever
the service raises is logged. The identifier of the execution stays in the
message, so that a report that comes again is taken for another execution
unless the order refuses it.
-/

set_option autoImplicit false

namespace MiniHedge.Orders

open MiniHedge.Python MiniHedge.Positions MiniHedge.Library

/-! ## A report on its own -/

def FillStep.turnsLeft : FillStep → Nat
  | .update => 8
  | .reread => 7
  | .publishTrade _ => 6
  | .publishFilled _ => 5
  | .readParent _ => 4
  | .readChildren _ _ => 3
  | .updateParent _ _ _ => 2
  | .rereadParent _ _ => 1
  | .returned _ | .raised _ => 0

def FillStage.turnsLeft : FillStage → Nat
  | .insert => 9
  | .stored _ step => step.turnsLeft
  | .raised _ => 0

def ReportStage.turnsLeft : ReportStage → Nat
  | .locating pending => pending.length + 9
  | .filling _ stage => stage.turnsLeft
  | .ignored | .raised _ => 0

def Process.turnsLeft : Process → Nat
  | .report _ stage => stage.turnsLeft
  | _ => 0

variable {w w' : World} {input : Input}

theorem advanceFill_turnsLeft {f : Fill} {draw : UUID} {now : Datetime} {stage stage' : FillStage}
    (advanced : advanceFill w f draw now stage = some (w', stage')) :
    stage'.turnsLeft < stage.turnsLeft := by
  cases stage with
  | insert =>
    simp only [advanceFill] at advanced
    split at advanced <;> cases advanced <;> simp [FillStage.turnsLeft, FillStep.turnsLeft]
  | stored tradeId step =>
    simp only [advanceFill, Option.map_eq_some_iff, Prod.mk.injEq] at advanced
    obtain ⟨⟨next, step'⟩, moved, rfl, rfl⟩ := advanced
    cases step with
    | publishFilled order =>
      simp only [advanceStep, Option.some.injEq, Prod.mk.injEq] at moved
      obtain ⟨-, rfl⟩ := moved
      split <;> simp [FillStage.turnsLeft, FillStep.turnsLeft]
    | publishTrade order | updateParent order parent u =>
      cases moved
      simp [FillStage.turnsLeft, FillStep.turnsLeft]
    | update | reread | readParent order | readChildren order parent | rereadParent order parent =>
      simp only [advanceStep] at moved
      split at moved <;> cases moved <;> simp [FillStage.turnsLeft, FillStep.turnsLeft]
    | returned order | raised exc => cases moved
  | raised exc => cases advanced

theorem Fill.start_turnsLeft (f : Fill) : f.start.turnsLeft ≤ 9 := by
  unfold Fill.start
  split <;> simp [FillStage.turnsLeft]

theorem Report.advance_turnsLeft {r : Report} {stage stage' : ReportStage}
    (advanced : r.advance w input stage = some (w', stage')) :
    stage'.turnsLeft < stage.turnsLeft := by
  cases stage with
  | locating pending =>
    cases pending with
    | nil => cases advanced
    | cons fundSlug pending =>
      simp only [Report.advance] at advanced
      split at advanced
      · cases advanced
        simp [ReportStage.turnsLeft]
      · split at advanced
        · cases advanced
          simp [ReportStage.turnsLeft]
        · rename_i order found
          split at advanced
          · cases advanced
            have start := Fill.start_turnsLeft (r.fill fundSlug order)
            simp only [ReportStage.turnsLeft, List.length_cons]
            omega
          · cases advanced
            simp [ReportStage.turnsLeft]
  | filling f stage =>
    simp only [Report.advance, Option.map_eq_some_iff, Prod.mk.injEq] at advanced
    obtain ⟨⟨next, stage'⟩, moved, rfl, rfl⟩ := advanced
    exact advanceFill_turnsLeft moved
  | ignored => cases advanced
  | raised exc => cases advanced

/-- A report on its own, to its end. -/
def Report.process (fundSlugs : List String) (w : World) (r : Report) (input : Input) :
    World × Process :=
  let start := Report.start fundSlugs
  (orders fundSlugs).alone start.turnsLeft w (.report r start) input

theorem Process.report_advance {fundSlugs : List String} {r : Report} {p p' : Process}
    (report : ∃ stage, p = .report r stage)
    (advanced : p.advance fundSlugs w input = some (w', p')) :
    (∃ stage, p' = .report r stage) ∧ p'.turnsLeft < p.turnsLeft := by
  obtain ⟨stage, rfl⟩ := report
  simp only [Process.advance, Option.map_eq_some_iff, Prod.mk.injEq] at advanced
  obtain ⟨⟨next, stage'⟩, moved, rfl, rfl⟩ := advanced
  exact ⟨⟨stage', rfl⟩, Report.advance_turnsLeft moved⟩

/-- The call has returned or raised. -/
theorem Report.process_complete (fundSlugs : List String) (w : World) (r : Report)
    (input : Input) : (r.process fundSlugs w input).2.finished := by
  have lowered : ∀ (s : World) (p : Process) (s' : World) (p' : Process),
      (∃ stage, p = .report r stage) → (orders fundSlugs).advance s [] p input = some (s', p') →
      (∃ stage, p' = .report r stage) ∧ p'.turnsLeft < p.turnsLeft :=
    fun _ _ _ _ report advanced => Process.report_advance report advanced
  have complete := Processes.alone_complete lowered
    (⟨_, rfl⟩ : ∃ stage, Process.report r (Report.start fundSlugs) = .report r stage)
    (le_refl (Process.report r (Report.start fundSlugs)).turnsLeft)
  obtain ⟨⟨stage, report⟩, done⟩ := complete w
  exact (Call.finished_iff (.inl ⟨r, stage, report⟩)).mpr done

/-! ## What a report does -/

/-- The first schema with the order, and the order there. -/
def Report.located (w : World) (r : Report) (pending : List String) :
    Option (String × OrderRecord) :=
  (UUID.parse r.clientOrderId).bind fun id =>
    pending.findSome? fun fundSlug => (w.order fundSlug id).map fun o => (fundSlug, o)

/-- The order takes no fill of this quantity, or there is none. -/
def Report.Refused (fundSlugs : List String) (w : World) (r : Report) : Prop :=
  ∀ found ∈ r.located w fundSlugs, ¬ (found.2.state.TakesFill ∧
    r.fillQuantity ≤ found.2.remaining)

instance (fundSlugs : List String) (w : World) (r : Report) : Decidable (r.Refused fundSlugs w) :=
  inferInstanceAs (Decidable (∀ found ∈ r.located w fundSlugs, _))

theorem Report.located_rounds (w : World) (r : Report) (fundSlugs : List String) :
    r.located w (List.replicate 3 fundSlugs).flatten = r.located w fundSlugs := by
  cases parsed : UUID.parse r.clientOrderId with
  | none => simp [Report.located, parsed]
  | some id =>
    simp only [Report.located, parsed, Option.bind_some, List.replicate, List.flatten_cons,
      List.flatten_nil, List.append_nil, List.findSome?_append]
    cases (fundSlugs.findSome? fun fundSlug => (w.order fundSlug id).map fun o => (fundSlug, o)) <;>
      rfl

/-- Searching writes nothing and ends with the order, or without one. -/
theorem Report.alone_locating (fundSlugs : List String) (w : World) (r : Report) (input : Input)
    (pending : List String) (limit : Nat) :
    (∃ fundSlug o limit', r.located w pending = some (fundSlug, o) ∧ limit ≤ limit' ∧
      (orders fundSlugs).alone (pending.length + limit) w (.report r (.locating pending)) input =
        (orders fundSlugs).alone limit' w
          (.report r (if o.state.TakesFill then
            .filling (r.fill fundSlug o) (r.fill fundSlug o).start else .ignored)) input) ∨
    (r.located w pending = none ∧
      ((orders fundSlugs).alone (pending.length + limit) w
        (.report r (.locating pending)) input).1 = w) := by
  induction pending with
  | nil =>
    have done : (orders fundSlugs).advance w [] (.report r (.locating [])) input = none := rfl
    refine .inr ⟨?_, by rw [Processes.alone_done done]⟩
    cases parsed : UUID.parse r.clientOrderId <;> simp [Report.located, parsed]
  | cons slug pending ih =>
    rw [List.length_cons, Nat.add_right_comm]
    cases parsed : UUID.parse r.clientOrderId with
    | none =>
      have raised : (orders fundSlugs).advance w [] (.report r (.locating (slug :: pending)))
          input = some (w, .report r
            (.raised (.valueError "badly formed hexadecimal UUID string"))) := by
        simp [orders, Process.advance, Report.advance, parsed]
      have done : (orders fundSlugs).advance w [] (.report r
          (.raised (.valueError "badly formed hexadecimal UUID string"))) input = none := rfl
      refine .inr ⟨by simp [Report.located, parsed], ?_⟩
      rw [Processes.alone_step raised, Processes.alone_done done]
    | some id =>
      cases found : w.order slug id with
      | none =>
        have missed : (orders fundSlugs).advance w [] (.report r (.locating (slug :: pending)))
            input = some (w, .report r (.locating pending)) := by
          simp [orders, Process.advance, Report.advance, parsed, found]
        have same : r.located w (slug :: pending) = r.located w pending := by
          simp [Report.located, parsed, found]
        rw [Processes.alone_step missed, same]
        exact ih
      | some o =>
        have located : (orders fundSlugs).advance w [] (.report r (.locating (slug :: pending)))
            input = some (w, .report r (if o.state.TakesFill then
              .filling (r.fill slug o) (r.fill slug o).start else .ignored)) := by
          simp only [orders, Process.advance, Report.advance, parsed, found]
          split <;> rfl
        refine .inl ⟨slug, o, pending.length + limit, ?_, Nat.le_add_left _ _, ?_⟩
        · simp [Report.located, parsed, found]
        · rw [Processes.alone_step located]

theorem Report.process_cases (fundSlugs : List String) (w : World) (r : Report) (input : Input) :
    (∃ fundSlug o limit, r.located w fundSlugs = some (fundSlug, o) ∧
      r.process fundSlugs w input = (orders fundSlugs).alone (limit + 1) w
        (.report r (if o.state.TakesFill then
          .filling (r.fill fundSlug o) (r.fill fundSlug o).start else .ignored)) input) ∨
    (r.located w fundSlugs = none ∧ (r.process fundSlugs w input).1 = w) := by
  have searched := Report.alone_locating fundSlugs w r input
    (List.replicate 3 fundSlugs).flatten 9
  rw [Report.located_rounds] at searched
  rcases searched with ⟨fundSlug, o, limit, located, room, same⟩ | ⟨missing, untouched⟩
  · obtain ⟨more, rfl⟩ : ∃ more, limit = more + 1 := ⟨limit - 1, by omega⟩
    exact .inl ⟨fundSlug, o, more, located, same⟩
  · exact .inr ⟨missing, untouched⟩

/-- A refused report leaves everything as it is. -/
theorem Report.process_refused {fundSlugs : List String} {r : Report}
    (refused : r.Refused fundSlugs w) : (r.process fundSlugs w input).1 = w := by
  rcases r.process_cases fundSlugs w input with ⟨fundSlug, o, limit, located, same⟩ |
    ⟨-, untouched⟩
  · have closed := refused (fundSlug, o) located
    rw [same]
    by_cases takes : o.state.TakesFill
    · have excess : ¬ (r.fill fundSlug o).quantity ≤ (r.fill fundSlug o).order.remaining :=
        fun fits => closed ⟨takes, fits⟩
      obtain ⟨exc, start⟩ := Fill.start_over excess
      have done : (orders fundSlugs).advance w []
          (.report r (.filling (r.fill fundSlug o) (.raised exc))) input = none := rfl
      rw [if_pos takes, start, Processes.alone_done done]
    · have done : (orders fundSlugs).advance w [] (.report r .ignored) input = none := rfl
      rw [if_neg takes, Processes.alone_done done]
  · exact untouched

theorem alone_grows (fundSlugs : List String) (w : World) (p : Process) (input : Input)
    (limit : Nat) : Grows w ((orders fundSlugs).alone limit w p input).1 := by
  have kept : ∀ s p s' p', Grows w s → (orders fundSlugs).advance s [] p input = some (s', p') →
      Grows w s' :=
    fun s p s' p' grown advanced => grown.trans (Process.advance_grows advanced)
  exact Processes.alone_invariant kept (Grows.refl w) limit

/-- A report that is not refused stores its fill under the new identifier. -/
theorem Report.process_stored {fundSlugs : List String} {r : Report}
    (accepted : ¬ r.Refused fundSlugs w)
    (fresh : ∀ slug, ∀ f ∈ (w.schemas slug).fills, f.id ≠ input.draw) :
    ∃ slug, ∃ f ∈ ((r.process fundSlugs w input).1.schemas slug).fills, f.id = input.draw := by
  simp only [Report.Refused, not_forall, not_not] at accepted
  obtain ⟨⟨slug, o⟩, found, takes, fits⟩ := accepted
  rcases r.process_cases fundSlugs w input with ⟨fundSlug, o', limit, located, same⟩ |
    ⟨missing, -⟩
  · have both := (Option.mem_def.mp found).symm.trans located
    obtain ⟨rfl, rfl⟩ : slug = fundSlug ∧ o = o' := by simpa using both
    obtain ⟨next, inserted, held⟩ := World.insertFill_ok
      ((r.fill slug o).record input.draw input.now) (fresh slug)
    have room : (r.fill slug o).quantity ≤ (r.fill slug o).order.remaining := fits
    have start := Fill.start_fits room
    have stored : (orders fundSlugs).advance w [] (.report r (.filling (r.fill slug o) .insert))
        input = some (next, .report r (.filling (r.fill slug o) (.stored input.draw .update))) := by
      have own : (r.fill slug o).fundSlug = slug := rfl
      simp [orders, Process.advance, Report.advance, advanceFill, own, inserted]
    rw [same, if_pos takes, start, Processes.alone_step stored]
    exact ⟨slug, _, (alone_grows fundSlugs next _ input limit).fills slug _ held, rfl⟩
  · simp [missing] at found

/-- The fills are those that were there and one under the new identifier. -/
def OnlyDraw (draw : UUID) (w w' : World) : Prop :=
  ∀ slug, ∀ f ∈ (w'.schemas slug).fills, f ∈ (w.schemas slug).fills ∨ f.id = draw

theorem OnlyDraw.updateState (draw : UUID) (w : World) (fundSlug : String) (id : UUID)
    (u : Update) : OnlyDraw draw w (w.updateState fundSlug id u) := by
  intro slug f held
  by_cases same : slug = fundSlug
  · subst same
    refine .inl ?_
    simpa [World.updateState, World.set, Schema.updateState] using held
  · refine .inl ?_
    simpa [World.updateState, World.set, Function.update_of_ne same] using held

theorem OnlyDraw.refl (draw : UUID) (w : World) : OnlyDraw draw w w := fun _ _ held => .inl held

theorem advanceFill_onlyDraw {f : Fill} {draw : UUID} {now : Datetime} {stage stage' : FillStage}
    (advanced : advanceFill w f draw now stage = some (w', stage')) : OnlyDraw draw w w' := by
  cases stage with
  | insert =>
    simp only [advanceFill] at advanced
    split at advanced
    · cases advanced
      exact .refl draw w
    · rename_i next inserted
      cases advanced
      obtain ⟨-, rfl⟩ := World.insertFill_cases inserted
      intro slug r held
      by_cases same : slug = f.fundSlug
      · subst same
        have either : r ∈ (w.schemas f.fundSlug).fills ∨ r = f.record draw now := by
          simpa [World.set] using held
        rcases either with old | rfl
        · exact .inl old
        · exact .inr rfl
      · refine .inl ?_
        simpa [World.set, Function.update_of_ne same] using held
  | stored tradeId step =>
    simp only [advanceFill, Option.map_eq_some_iff, Prod.mk.injEq] at advanced
    obtain ⟨⟨next, step'⟩, moved, rfl, rfl⟩ := advanced
    cases step with
    | update =>
      simp only [advanceStep] at moved
      split at moved <;> cases moved
      · exact .refl draw w
      · exact OnlyDraw.updateState draw w _ _ _
    | updateParent order parent u =>
      cases moved
      exact OnlyDraw.updateState draw w _ _ _
    | publishTrade order | publishFilled order =>
      cases moved
      exact .refl draw w
    | reread | readParent order | readChildren order parent | rereadParent order parent =>
      simp only [advanceStep] at moved
      split at moved <;> cases moved <;> exact .refl draw w
    | returned order | raised exc => cases moved
  | raised exc => cases advanced

theorem Report.advance_onlyDraw {r : Report} {stage stage' : ReportStage}
    (advanced : r.advance w input stage = some (w', stage')) : OnlyDraw input.draw w w' := by
  cases stage with
  | locating pending =>
    cases pending with
    | nil => cases advanced
    | cons fundSlug pending =>
      simp only [Report.advance] at advanced
      (repeat' split at advanced) <;> cases advanced <;> exact .refl _ w
  | filling f stage =>
    simp only [Report.advance, Option.map_eq_some_iff, Prod.mk.injEq] at advanced
    obtain ⟨⟨next, stage'⟩, moved, rfl, rfl⟩ := advanced
    exact advanceFill_onlyDraw moved
  | ignored | raised exc => cases advanced

theorem Report.process_onlyDraw (fundSlugs : List String) (w : World) (r : Report)
    (input : Input) : OnlyDraw input.draw w (r.process fundSlugs w input).1 := by
  have kept : ∀ (s : World) (p : Process) (s' : World) (p' : Process),
      (OnlyDraw input.draw w s ∧ ∃ stage, p = .report r stage) →
      (orders fundSlugs).advance s [] p input = some (s', p') →
      OnlyDraw input.draw w s' ∧ ∃ stage, p' = .report r stage := by
    rintro s p s' p' ⟨only, stage, rfl⟩ advanced
    simp only [orders, Process.advance, Option.map_eq_some_iff, Prod.mk.injEq] at advanced
    obtain ⟨⟨next, stage'⟩, moved, rfl, rfl⟩ := advanced
    refine ⟨fun slug f held => ?_, stage', rfl⟩
    rcases Report.advance_onlyDraw moved slug f held with old | new
    · exact only slug f old
    · exact .inr new
  exact (Processes.alone_invariant kept ⟨.refl _ w, _, rfl⟩ _).1

/-! ## The adapter -/

/-- The `data` of a message on the topic of execution reports. -/
structure ReportData where
  status : String
  clientOrderId : Option String
  fillId : Option String := none
  fillPrice : Option Decimal := none
  fillQuantity : Option Decimal := none
  filledAt : Option Datetime := none
  brokerId : Option String := none
  deriving DecidableEq, Repr

def required {α : Type} (key : String) : Option α → Except Exc α
  | some value => .ok value
  | none => .error (.keyError key)

/-- The call that `_consume_execution_reports` makes, if it makes one: messages
that are no fills are skipped. -/
def ReportData.report (data : ReportData) : Except Exc (Option Report) := do
  if data.status ≠ "filled" ∧ data.status ≠ "partially_filled" then return none
  let clientOrderId ← required "client_order_id" data.clientOrderId
  let fillPrice ← required "fill_price" data.fillPrice
  let fillQuantity ← required "fill_quantity" data.fillQuantity
  return some { clientOrderId, fillPrice, fillQuantity, filledAt := data.filledAt,
                brokerId := data.brokerId }

/-- A message as it comes in, with what the service draws while it handles it. -/
structure Delivery where
  data : ReportData
  input : Input
  deriving DecidableEq, Repr

def deliver (fundSlugs : List String) (w : World) (d : Delivery) : World :=
  match d.data.report with
  | .ok (some r) => (r.process fundSlugs w d.input).1
  | .ok none | .error _ => w

def deliverAll (fundSlugs : List String) (w : World) (ds : List Delivery) : World :=
  ds.foldl (deliver fundSlugs) w

/-- The message is no fill, or its report is refused. -/
def Delivery.Refused (fundSlugs : List String) (w : World) (d : Delivery) : Prop :=
  match d.data.report with
  | .ok (some r) => r.Refused fundSlugs w
  | .ok none | .error _ => True

instance (fundSlugs : List String) (w : World) (d : Delivery) :
    Decidable (d.Refused fundSlugs w) := by
  unfold Delivery.Refused
  split <;> infer_instance

/-- The execution has been delivered before. -/
def Delivery.Again (seen : List String) (d : Delivery) : Prop := ∃ id ∈ d.data.fillId, id ∈ seen

instance (seen : List String) (d : Delivery) : Decidable (d.Again seen) :=
  inferInstanceAs (Decidable (∃ id ∈ d.data.fillId, id ∈ seen))

/-- The sequence with duplicates removed: each execution where it comes first. -/
def withoutDuplicates : List String → List Delivery → List Delivery
  | _, [] => []
  | seen, d :: rest =>
    let rest := withoutDuplicates (d.data.fillId.toList ++ seen) rest
    if d.Again seen then rest else d :: rest

/-- Every delivery of an execution that has come before is refused. -/
def RedeliveriesRefused (fundSlugs : List String) :
    List String → World → List Delivery → Prop
  | _, _, [] => True
  | seen, w, d :: rest => (d.Again seen → d.Refused fundSlugs w) ∧
      RedeliveriesRefused fundSlugs (d.data.fillId.toList ++ seen) (deliver fundSlugs w d) rest

instance RedeliveriesRefused.decidable (fundSlugs : List String) :
    (seen : List String) → (w : World) → (ds : List Delivery) →
      Decidable (RedeliveriesRefused fundSlugs seen w ds)
  | _, _, [] => isTrue trivial
  | seen, w, d :: rest =>
    haveI := RedeliveriesRefused.decidable fundSlugs (d.data.fillId.toList ++ seen)
      (deliver fundSlugs w d) rest
    inferInstanceAs (Decidable (_ ∧ _))

/-! ## The sequence and the sequence without duplicates -/

section

variable {fundSlugs : List String}

theorem deliver_refused {d : Delivery} (refused : d.Refused fundSlugs w) :
    deliver fundSlugs w d = w := by
  unfold Delivery.Refused at refused
  unfold deliver
  cases read : d.data.report with
  | error exc => rfl
  | ok message =>
    cases message with
    | none => rfl
    | some r =>
      rw [read] at refused
      exact Report.process_refused refused

theorem deliver_stored {d : Delivery} (accepted : ¬ d.Refused fundSlugs w)
    (fresh : ∀ slug, ∀ f ∈ (w.schemas slug).fills, f.id ≠ d.input.draw) :
    ∃ slug, ∃ f ∈ ((deliver fundSlugs w d).schemas slug).fills, f.id = d.input.draw := by
  unfold Delivery.Refused at accepted
  unfold deliver
  cases read : d.data.report with
  | error exc => simp [read] at accepted
  | ok message =>
    cases message with
    | none => simp [read] at accepted
    | some r =>
      rw [read] at accepted
      exact Report.process_stored accepted fresh

theorem deliver_onlyDraw (w : World) (d : Delivery) :
    OnlyDraw d.input.draw w (deliver fundSlugs w d) := by
  unfold deliver
  split
  · exact Report.process_onlyDraw fundSlugs w _ d.input
  · exact .refl _ w
  · exact .refl _ w

theorem deliver_grows (w : World) (d : Delivery) : Grows w (deliver fundSlugs w d) := by
  unfold deliver
  split
  · exact alone_grows ..
  · exact .refl w
  · exact .refl w

theorem deliverAll_grows (fundSlugs : List String) (w : World) (ds : List Delivery) :
    Grows w (deliverAll fundSlugs w ds) := by
  induction ds generalizing w with
  | nil => exact .refl w
  | cons d rest ih => exact (deliver_grows w d).trans (ih _)

/-- The fills of a run are those it started with and those of its draws. -/
theorem deliverAll_draws (w : World) (ds : List Delivery) (slug : String) :
    ∀ f ∈ ((deliverAll fundSlugs w ds).schemas slug).fills,
      f ∈ (w.schemas slug).fills ∨ ∃ d ∈ ds, f.id = d.input.draw := by
  induction ds generalizing w with
  | nil => exact fun f held => .inl held
  | cons d rest ih =>
    intro f held
    rcases ih (deliver fundSlugs w d) f held with before | ⟨d', member, drawn⟩
    · rcases deliver_onlyDraw w d slug f before with old | own
      · exact .inl old
      · exact .inr ⟨d, List.mem_cons_self .., own⟩
    · exact .inr ⟨d', List.mem_cons_of_mem d member, drawn⟩

theorem withoutDuplicates_sublist (seen : List String) (ds : List Delivery) :
    (withoutDuplicates seen ds).Sublist ds := by
  induction ds generalizing seen with
  | nil => exact List.Sublist.slnil
  | cons d rest ih =>
    simp only [withoutDuplicates]
    split
    · exact (ih _).cons d
    · exact (ih _).cons_cons d

end

/-- The trades that are published under the identifiers of the order's fills. -/
def World.tradesOf (w : World) (fundSlug : String) (id : UUID) : List Message :=
  w.published.filter fun m => m.topic = fundTopic fundSlug "trades.executed" ∧
    ∃ f ∈ w.fillsOf fundSlug id, m.event.data.get "trade_id" = some (.text f.id.str)

/-- Every order has the same fills, filled quantity and trades. -/
def SameBooks (w w' : World) : Prop :=
  ∀ fundSlug id, w.fillsOf fundSlug id = w'.fillsOf fundSlug id ∧
    (w.order fundSlug id).map (·.filledQuantity) = (w'.order fundSlug id).map (·.filledQuantity) ∧
    w.tradesOf fundSlug id = w'.tradesOf fundSlug id

theorem deliverAll_redeliveriesRefused {fundSlugs : List String} {seen : List String}
    {ds : List Delivery} (refused : RedeliveriesRefused fundSlugs seen w ds) :
    deliverAll fundSlugs w ds = deliverAll fundSlugs w (withoutDuplicates seen ds) := by
  induction ds generalizing seen w with
  | nil => rfl
  | cons d rest ih =>
    obtain ⟨first, later⟩ := refused
    have same := ih later
    simp only [withoutDuplicates]
    split
    · rename_i again
      rw [deliver_refused (first again)] at same
      rw [← same]
      exact congrArg (fun w => deliverAll fundSlugs w rest) (deliver_refused (first again))
    · exact same

theorem redeliveriesRefused_of_sameFills {fundSlugs : List String} {seen : List String}
    {ds : List Delivery} (draws : (ds.map (·.input.draw)).Nodup)
    (fresh : ∀ d ∈ ds, ∀ slug, ∀ f ∈ (w.schemas slug).fills, f.id ≠ d.input.draw)
    (same : ∀ slug id, (deliverAll fundSlugs w ds).fillsOf slug id =
      (deliverAll fundSlugs w (withoutDuplicates seen ds)).fillsOf slug id) :
    RedeliveriesRefused fundSlugs seen w ds := by
  induction ds generalizing seen w with
  | nil => trivial
  | cons d rest ih =>
    rw [List.map_cons, List.nodup_cons] at draws
    have others : ∀ d' ∈ rest, d'.input.draw ≠ d.input.draw := by
      intro d' member drawn
      exact draws.1 (drawn ▸ List.mem_map_of_mem member)
    have next : ∀ d' ∈ rest, ∀ slug, ∀ f ∈ ((deliver fundSlugs w d).schemas slug).fills,
        f.id ≠ d'.input.draw := by
      intro d' member slug f held
      rcases deliver_onlyDraw w d slug f held with old | own
      · exact fresh d' (List.mem_cons_of_mem d member) slug f old
      · rw [own]
        exact (others d' member).symm
    simp only [withoutDuplicates] at same
    by_cases again : d.Again seen
    · rw [if_pos again] at same
      have refused : d.Refused fundSlugs w := by
        by_contra accepted
        obtain ⟨slug, f, stored, drawn⟩ := deliver_stored accepted (fresh d (List.mem_cons_self ..))
        -- the fill stays in the one run and is in no other
        have kept := (deliverAll_grows fundSlugs (deliver fundSlugs w d) rest).fills slug f stored
        have there : f ∈ (deliverAll fundSlugs w (d :: rest)).fillsOf slug f.orderId :=
          List.mem_filter.mpr ⟨kept, by simp⟩
        rw [same slug f.orderId] at there
        rcases deliverAll_draws w _ slug f (List.mem_filter.mp there).1 with old | ⟨d', member, own⟩
        · exact fresh d (List.mem_cons_self ..) slug f old drawn
        · exact others d' ((withoutDuplicates_sublist _ _).subset member) (own.symm.trans drawn)
      refine ⟨fun _ => refused, ih draws.2 next fun slug id => ?_⟩
      have untouched := deliver_refused refused
      rw [untouched]
      have here := same slug id
      rwa [deliverAll, List.foldl_cons, untouched] at here
    · rw [if_neg again] at same
      exact ⟨fun hit => absurd hit again, ih draws.2 next same⟩

/-- The reports that come again change nothing if and only if the orders refuse
each of them. -/
theorem sameBooks_iff_redeliveriesRefused (fundSlugs : List String) {ds : List Delivery}
    (draws : (ds.map (·.input.draw)).Nodup)
    (fresh : ∀ d ∈ ds, ∀ slug, ∀ f ∈ (w.schemas slug).fills, f.id ≠ d.input.draw) :
    SameBooks (deliverAll fundSlugs w ds) (deliverAll fundSlugs w (withoutDuplicates [] ds)) ↔
      RedeliveriesRefused fundSlugs [] w ds := by
  constructor
  · intro same
    exact redeliveriesRefused_of_sameFills draws fresh fun slug id => (same slug id).1
  · intro refused
    rw [deliverAll_redeliveriesRefused refused]
    exact fun _ _ => ⟨rfl, rfl, rfl⟩

/-- An execution of the order of the other examples. -/
def anExecution (fillId : String) (quantity : Decimal) (draw : Nat) : Delivery where
  data := {
    status := "partially_filled"
    clientOrderId := some (UUID.ofNat 1).str
    fillId := some fillId
    fillPrice := some 100
    fillQuantity := some quantity }
  input := { draw := .ofNat (draw % 2 ^ 64), now := 0 }

theorem holding_fresh (o : OrderRecord) (slug : String) (draw : UUID) :
    ∀ f ∈ ((holding o).schemas slug).fills, f.id ≠ draw := by
  intro f held
  unfold holding at held
  simp only at held
  split at held <;> cases held

/-- The whole order is executed, and the report comes twice: the order is filled
when it comes again. -/
theorem sameBooks_of_filled_twice :
    SameBooks
      (deliverAll ["alpha"] (holding (anOrder .sent)) [anExecution "a" 10 1, anExecution "a" 10 2])
      (deliverAll ["alpha"] (holding (anOrder .sent)) (withoutDuplicates []
        [anExecution "a" 10 1, anExecution "a" 10 2])) :=
  (sameBooks_iff_redeliveriesRefused ["alpha"] (by decide +kernel)
    fun _ _ slug => holding_fresh _ slug _).mpr (by decide +kernel)

/-- Half of the order is executed, and the report comes twice: both are booked. -/
theorem partial_fill_booked_twice :
    ((deliverAll ["alpha"] (holding (anOrder .sent)) [anExecution "a" 5 1, anExecution "a" 5 2]).order
        "alpha" ⟨1, by decide⟩).map (fun o => (o.filledQuantity, o.state)) = some (10, .filled) ∧
      ((deliverAll ["alpha"] (holding (anOrder .sent)) (withoutDuplicates []
        [anExecution "a" 5 1, anExecution "a" 5 2])).order "alpha" ⟨1, by decide⟩).map
          (fun o => (o.filledQuantity, o.state)) = some (5, .partiallyFilled) ∧
      ¬ SameBooks
        (deliverAll ["alpha"] (holding (anOrder .sent)) [anExecution "a" 5 1, anExecution "a" 5 2])
        (deliverAll ["alpha"] (holding (anOrder .sent)) (withoutDuplicates []
          [anExecution "a" 5 1, anExecution "a" 5 2])) := by
  have twice : ((deliverAll ["alpha"] (holding (anOrder .sent))
      [anExecution "a" 5 1, anExecution "a" 5 2]).order "alpha" ⟨1, by decide⟩).map
        (fun o => (o.filledQuantity, o.state)) = some (10, .filled) := by
    decide +kernel
  have once : ((deliverAll ["alpha"] (holding (anOrder .sent)) (withoutDuplicates []
      [anExecution "a" 5 1, anExecution "a" 5 2])).order "alpha" ⟨1, by decide⟩).map
        (fun o => (o.filledQuantity, o.state)) = some (5, .partiallyFilled) := by
    decide +kernel
  refine ⟨twice, once, fun same => ?_⟩
  have filled := (same "alpha" ⟨1, by decide⟩).2.1
  have left : ((deliverAll ["alpha"] (holding (anOrder .sent))
      [anExecution "a" 5 1, anExecution "a" 5 2]).order "alpha" ⟨1, by decide⟩).map
        (·.filledQuantity) = some 10 := by
    decide +kernel
  have right : ((deliverAll ["alpha"] (holding (anOrder .sent)) (withoutDuplicates []
      [anExecution "a" 5 1, anExecution "a" 5 2])).order "alpha" ⟨1, by decide⟩).map
        (·.filledQuantity) = some 5 := by
    decide +kernel
  rw [left, right] at filled
  exact absurd filled (by decide)

end MiniHedge.Orders
