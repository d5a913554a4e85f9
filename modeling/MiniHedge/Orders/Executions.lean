import MiniHedge.Orders.Conservation

/-! The stored state of an order, and what the broker executes.

Each transition is checked on the order as it was read and written without a
guard. The state machine holds of the stored states as long as the state that is
overwritten still allows all that the state that was read allowed.
-/

set_option autoImplicit false

namespace MiniHedge.Orders

open MiniHedge.Python MiniHedge.Library MiniHedge.Positions

def World.stateOf (w : World) (fundSlug : String) (id : UUID) : Option OrderState :=
  (w.order fundSlug id).map (·.state)

/-- Whoever writes a state overwrites one with all the transitions of the one it has read. -/
def Undiminished (w : World) (_ : List Process) (p : Process) (_ : Input) : Prop :=
  ∀ read ∈ p.writing, ∀ row ∈ w.order read.1 read.2.id,
    ∀ target ∈ read.2.state.transitions, target ∈ row.state.transitions

instance (w : World) (others : List Process) (p : Process) (input : Input) :
    Decidable (Undiminished w others p input) :=
  inferInstanceAs (Decidable (∀ read ∈ p.writing, _))

section Runs

variable (fundSlugs : List String) (fundSlug : String) (id : UUID)

/-- The turn leaves the stored state, or makes a transition from it. -/
def Lawful (s : Processes.State World Process) (turn : Processes.Turn Input) : Prop :=
  ∀ next ∈ (orders fundSlugs).system.step s turn, ∀ old ∈ s.shared.stateOf fundSlug id,
    ∃ new, next.shared.stateOf fundSlug id = some new ∧ (new = old ∨ new ∈ old.transitions)

variable {fundSlugs fundSlug id} {s next : Processes.State World Process}
  {turn : Processes.Turn Input} {w w' : World} {p p' : Process} {input : Input}

/-- The order that a call writes next is the one it is for. -/
theorem Process.Own.writing {read : String × OrderRecord} (own : p.Own id)
    (held : read ∈ p.writing) : read.2.id = id := by
  unfold Process.writing at held
  split at held
  · cases held
    exact own.2.1
  · cases held
    exact own.2
  · cases held
    exact own.2
  · obtain ⟨f, stored, rfl⟩ := Option.map_eq_some_iff.mp held
    exact own.unwritten stored

theorem advance_state (own : p.Own id) (undiminished : Undiminished w [] p input)
    (advanced : p.advance fundSlugs w input = some (w', p')) {old : OrderState}
    (stored : w.stateOf fundSlug id = some old) :
    ∃ new, w'.stateOf fundSlug id = some new ∧ (new = old ∨ new ∈ old.transitions) := by
  cases own.turn advanced with
  | quiet orders fills same => exact ⟨old, by rwa [World.stateOf, orders], .inl rfl⟩
  | failed f exc before failed untouched => exact ⟨old, by rwa [untouched], .inl rfl⟩
  | insert f draw now order before after inserted =>
    exact ⟨old, by rwa [World.stateOf, World.order_insertFill inserted], .inl rfl⟩
  | write slug read u writing valid written totals after =>
    subst written
    by_cases same : slug = fundSlug
    · subst same
      obtain ⟨row, found, rfl⟩ := Option.map_eq_some_iff.mp stored
      refine ⟨u.state, ?_, .inr ?_⟩
      · rw [World.stateOf, World.order_updateState_own, found]
        rfl
      · have target := undiminished _ writing row (by rw [own.writing writing]; exact found)
        exact target u.state valid
    · refine ⟨old, ?_, .inl rfl⟩
      rwa [World.stateOf, World.order_updateState_other u fun hit => same hit.1]

theorem step_lawful (own : ∀ p ∈ s.processes, p.Own id)
    (met : Processes.When Undiminished s turn) : Lawful fundSlugs fundSlug id s turn := by
  intro next stepped old stored
  obtain ⟨before, p, after, w', p', split, found, rest, advanced, rfl⟩ :=
    Processes.step_cases _ stepped
  exact advance_state (own p (by simp [split])) (met p found) advanced stored

/-- A terminal state stays through lawful turns. -/
theorem terminal_kept {turns : List (Processes.Turn Input)}
    {final : Processes.State World Process}
    (lawful : (orders fundSlugs).system.Along (Lawful fundSlugs fundSlug id) s turns)
    (ran : (orders fundSlugs).system.run s turns = some final) {state : OrderState}
    (terminal : state.Terminal) (stored : s.shared.stateOf fundSlug id = some state) :
    final.shared.stateOf fundSlug id = some state := by
  have kept : ∀ s turn next, s.shared.stateOf fundSlug id = some state →
      Lawful fundSlugs fundSlug id s turn → (orders fundSlugs).system.step s turn = some next →
      next.shared.stateOf fundSlug id = some state := by
    intro s turn next inv lawful stepped
    obtain ⟨new, reached, same | moved⟩ := lawful next stepped state inv
    · rw [reached, same]
    · rw [(OrderState.terminal_iff state).mp terminal] at moved
      cases moved
  exact System.invariant_along kept lawful ran stored

end Runs

/-- Where every state that is overwritten allows what the state that was read
allowed, every change is a transition of the state machine and no terminal
state is left. -/
theorem absorbing_of_undiminished (fundSlugs : List String) {s : Processes.State World Process}
    (fundSlug : String) {id : UUID} (own : ∀ p ∈ s.processes, p.Own id)
    {turns : List (Processes.Turn Input)}
    (along : (orders fundSlugs).system.Along (Processes.When Undiminished) s turns) :
    (orders fundSlugs).system.Along (Lawful fundSlugs fundSlug id) s turns ∧
      ∀ before after middle final state, turns = before ++ after →
        (orders fundSlugs).system.run s before = some middle →
        (orders fundSlugs).system.run middle after = some final → state.Terminal →
        middle.shared.stateOf fundSlug id = some state →
        final.shared.stateOf fundSlug id = some state := by
  have lawful : (orders fundSlugs).system.Along (Lawful fundSlugs fundSlug id) s turns :=
    along.imp (fun s turn next inv _ stepped => step_own inv stepped)
      (fun s turn inv met => step_lawful inv met) own
  refine ⟨lawful, ?_⟩
  rintro before after middle final state rfl first rest terminal stored
  exact terminal_kept (lawful.append first) rest terminal stored

/-- A fill of the whole order and a cancellation. -/
def fillAndCancel : List Call :=
  [.processExecutionReport (aReport 10 100), .cancelOrder ⟨"alpha", .ofNat 1⟩]

/-- The fill is through before the cancellation reads the order. -/
theorem absorbing_of_filled_first :
    ∃ final, (orders ["alpha"]).system.run
        (serve ["alpha"] (holding (anOrder .sent)) fillAndCancel)
        (schedule (List.replicate 6 0 ++ [1, 1])) = some final ∧
      final.processes.all Process.finished ∧
      final.shared.stateOf "alpha" ⟨1, by decide⟩ = some .filled := by
  have along : (orders ["alpha"]).system.Along (Processes.When Undiminished)
      (serve ["alpha"] (holding (anOrder .sent)) fillAndCancel)
      (schedule (List.replicate 6 0 ++ [1, 1])) := by
    decide +kernel
  have filled : ((orders ["alpha"]).system.run
      (serve ["alpha"] (holding (anOrder .sent)) fillAndCancel)
      (schedule (List.replicate 6 0))).map (fun middle =>
        middle.shared.stateOf "alpha" ⟨1, by decide⟩) = some (some .filled) := by
    decide +kernel
  have ran : ((orders ["alpha"]).system.run
      (serve ["alpha"] (holding (anOrder .sent)) fillAndCancel)
      (schedule (List.replicate 6 0 ++ [1, 1]))).map (fun final =>
        final.processes.all Process.finished) = some true := by
    decide +kernel
  obtain ⟨middle, first, stored⟩ := Option.map_eq_some_iff.mp filled
  obtain ⟨final, reached, finished⟩ := Option.map_eq_some_iff.mp ran
  have split : schedule (List.replicate 6 0 ++ [1, 1]) =
      schedule (List.replicate 6 0) ++ (schedule (List.replicate 6 0 ++ [1, 1])).drop 6 := by
    decide +kernel
  refine ⟨final, reached, finished, ?_⟩
  have rest : (orders ["alpha"]).system.run middle
      ((schedule (List.replicate 6 0 ++ [1, 1])).drop 6) = some final := by
    rwa [split, System.run_append, first] at reached
  exact (absorbing_of_undiminished ["alpha"] "alpha" (serve_own (by decide +kernel)) along).2 _ _
    middle final .filled split first rest (by decide) stored

/-- The cancellation reads the order before the fill and writes after it. -/
theorem cancel_overwrites_filled :
    (∀ call ∈ fillAndCancel, call.orderId = some ⟨1, by decide⟩) ∧
      ∃ middle final, (orders ["alpha"]).system.run
          (serve ["alpha"] (holding (anOrder .sent)) fillAndCancel)
          (schedule (1 :: List.replicate 6 0)) = some middle ∧
        (orders ["alpha"]).system.run middle (schedule [1, 1]) = some final ∧
        middle.shared.stateOf "alpha" ⟨1, by decide⟩ = some .filled ∧
        final.shared.stateOf "alpha" ⟨1, by decide⟩ = some .cancelled := by
  have ran : ((orders ["alpha"]).system.run
      (serve ["alpha"] (holding (anOrder .sent)) fillAndCancel)
      (schedule (1 :: List.replicate 6 0))).map (fun middle =>
        (middle.shared.stateOf "alpha" ⟨1, by decide⟩,
          ((orders ["alpha"]).system.run middle (schedule [1, 1])).map fun final =>
            final.shared.stateOf "alpha" ⟨1, by decide⟩)) =
      some (some .filled, some (some .cancelled)) := by
    decide +kernel
  obtain ⟨middle, first, values⟩ := Option.map_eq_some_iff.mp ran
  simp only [Prod.mk.injEq] at values
  obtain ⟨final, rest, last⟩ := Option.map_eq_some_iff.mp values.2
  exact ⟨by decide +kernel, middle, final, first, rest, values.1, last⟩

/-! ## What the broker executes

The service cancels an order by itself; the broker is not told and goes on
executing what it has accepted. An execution is booked when its report finds
the order open for it, and nothing books it otherwise.
-/

/-! ## Nothing is taken back -/

structure Grows (w w' : World) : Prop where
  fills : ∀ fundSlug, ∀ f ∈ (w.schemas fundSlug).fills, f ∈ (w'.schemas fundSlug).fills
  published : ∀ m ∈ w.published, m ∈ w'.published
  orders : ∀ fundSlug id, (w.order fundSlug id).isSome → (w'.order fundSlug id).isSome

namespace Grows

variable {w w' : World}

theorem refl (w : World) : Grows w w := ⟨fun _ _ held => held, fun _ held => held, fun _ _ h => h⟩

theorem trans {w'' : World} (first : Grows w w') (second : Grows w' w'') : Grows w w'' :=
  ⟨fun slug f held => second.fills slug f (first.fills slug f held),
    fun m held => second.published m (first.published m held),
    fun slug id there => second.orders slug id (first.orders slug id there)⟩

theorem updateState (w : World) (fundSlug : String) (id : UUID) (u : Update) :
    Grows w (w.updateState fundSlug id u) := by
  refine ⟨fun slug f held => ?_, fun _ held => held, fun slug key there => ?_⟩
  · by_cases same : slug = fundSlug
    · subst same
      simpa [World.updateState, World.set, Schema.updateState] using held
    · simpa [World.updateState, World.set, Function.update_of_ne same] using held
  · by_cases hit : fundSlug = slug ∧ id = key
    · obtain ⟨rfl, rfl⟩ := hit
      simpa [World.order_updateState_own] using there
    · rwa [World.order_updateState_other u hit]

theorem publish (w : World) (m : Message) : Grows w (w.publish m) :=
  ⟨fun _ _ held => held, fun _ held => List.mem_append_left _ held, fun _ _ there => there⟩

theorem submit (w : World) (o : OrderRecord) (ack : Ack) : Grows w (w.submit o ack) := by
  unfold World.submit
  split
  · exact refl w
  · exact ⟨fun _ _ held => held, fun _ held => held, fun _ _ there => there⟩

theorem insert {fundSlug : String} {o : OrderRecord} (inserted : w.insert fundSlug o = .ok w') :
    Grows w w' := by
  refine ⟨fun slug f held => ?_, fun m held => ?_, fun slug key there => ?_⟩
  · simp only [World.insert, Schema.insert] at inserted
    split at inserted
    · cases inserted
    · cases inserted
      by_cases same : slug = fundSlug
      · subst same
        simpa [World.set] using held
      · simpa [World.set, Function.update_of_ne same] using held
  · simp only [World.insert, Schema.insert] at inserted
    split at inserted
    · cases inserted
    · cases inserted
      exact held
  · rw [World.order_insert inserted]
    simp [there]

theorem insertFill {fundSlug : String} {f : OrderFillRecord}
    (inserted : w.insertFill fundSlug f = .ok w') : Grows w w' := by
  refine ⟨fun slug r held => ?_, fun m held => ?_, fun slug key there => ?_⟩
  · obtain ⟨-, rfl⟩ := World.insertFill_cases inserted
    by_cases same : slug = fundSlug
    · subst same
      simp [World.set, held]
    · simpa [World.set, Function.update_of_ne same] using held
  · obtain ⟨-, rfl⟩ := World.insertFill_cases inserted
    exact held
  · rwa [World.order_insertFill inserted]

end Grows

variable {w w' : World} {input : Input}

theorem advanceStep_grows {f : Fill} {tradeId : UUID} {step step' : FillStep}
    (advanced : advanceStep w f tradeId step = some (w', step')) : Grows w w' := by
  cases step with
  | update =>
    simp only [advanceStep] at advanced
    split at advanced <;> cases advanced
    · exact .refl w
    · exact .updateState ..
  | publishTrade order | publishFilled order =>
    cases advanced
    exact .publish ..
  | updateParent order parent u =>
    cases advanced
    exact .updateState ..
  | reread | readParent order | readChildren order parent | rereadParent order parent =>
    simp only [advanceStep] at advanced
    split at advanced <;> cases advanced <;> exact .refl w
  | returned order | raised exc => cases advanced

theorem advanceFill_grows {f : Fill} {draw : UUID} {now : Datetime} {stage stage' : FillStage}
    (advanced : advanceFill w f draw now stage = some (w', stage')) : Grows w w' := by
  cases stage with
  | insert =>
    simp only [advanceFill] at advanced
    split at advanced
    · cases advanced
      exact .refl w
    · rename_i next inserted
      cases advanced
      exact .insertFill inserted
  | stored tradeId step =>
    simp only [advanceFill, Option.map_eq_some_iff, Prod.mk.injEq] at advanced
    obtain ⟨⟨next, step'⟩, moved, rfl, rfl⟩ := advanced
    exact advanceStep_grows moved
  | raised exc => cases advanced

theorem Report.advance_grows {r : Report} {stage stage' : ReportStage}
    (advanced : r.advance w input stage = some (w', stage')) : Grows w w' := by
  cases stage with
  | locating pending =>
    cases pending with
    | nil => cases advanced
    | cons fundSlug pending =>
      simp only [Report.advance] at advanced
      (repeat' split at advanced) <;> cases advanced <;> exact .refl w
  | filling fill stage =>
    simp only [Report.advance, Option.map_eq_some_iff, Prod.mk.injEq] at advanced
    obtain ⟨⟨next, stage'⟩, moved, rfl, rfl⟩ := advanced
    exact advanceFill_grows moved
  | ignored | raised exc => cases advanced

theorem Cancel.advance_grows {c : Cancel} {stage stage' : CancelStage}
    (advanced : c.advance w stage = some (w', stage')) : Grows w w' := by
  cases stage with
  | read | reread =>
    simp only [Cancel.advance] at advanced
    split at advanced <;> cases advanced <;> exact .refl w
  | readChildren order | rereadChild order pending =>
    cases advanced
    exact .refl w
  | cancelChildren order pending =>
    cases pending <;> simp only [Cancel.advance] at advanced <;> split at advanced <;>
      cases advanced
    · exact .refl w
    · exact .updateState ..
    · exact .refl w
    · exact .updateState ..
  | returned order | raised exc => cases advanced

theorem Submission.advance_grows {s : Submission} {stage stage' : SubmissionStage}
    (advanced : s.advance w input stage = some (w', stage')) : Grows w w' := by
  cases stage with
  | transition order =>
    simp only [Submission.advance] at advanced
    split at advanced <;> cases advanced
    · exact .refl w
    · exact .updateState ..
  | submit order =>
    cases advanced
    exact .submit ..
  | acknowledge order ack =>
    cases ack with
    | rejected =>
      simp only [Submission.advance] at advanced
      split at advanced <;> cases advanced
      · exact .refl w
      · exact .updateState ..
    | acknowledged | filled avg quantity =>
      cases advanced
      exact .refl w
  | filling fill stage =>
    simp only [Submission.advance, Option.map_eq_some_iff, Prod.mk.injEq] at advanced
    obtain ⟨⟨next, stage'⟩, moved, rfl, rfl⟩ := advanced
    exact advanceFill_grows moved
  | rereadSent | rereadRejected =>
    simp only [Submission.advance] at advanced
    split at advanced <;> cases advanced <;> exact .refl w
  | returned order | raised exc => cases advanced

theorem Slice.advance_grows {s : Slice} {stage stage' : SliceStage}
    (advanced : s.advance w input stage = some (w', stage')) : Grows w w' := by
  cases stage with
  | insert parent =>
    simp only [Slice.advance] at advanced
    split at advanced
    · split at advanced
      · cases advanced
        exact .refl w
      · rename_i next inserted
        cases advanced
        exact .insert inserted
    · cases advanced
      exact .refl w
  | approve child | send child =>
    simp only [Slice.advance] at advanced
    split at advanced <;> cases advanced
    · exact .refl w
    · exact .updateState ..
  | submit child =>
    cases advanced
    exact .submit ..
  | acknowledge child ack =>
    cases ack <;> cases advanced <;> exact .refl w
  | filling fill stage =>
    simp only [Slice.advance, Option.map_eq_some_iff, Prod.mk.injEq] at advanced
    obtain ⟨⟨next, stage'⟩, moved, rfl, rfl⟩ := advanced
    exact advanceFill_grows moved
  | readParent | refresh childId | rereadApproved childId | rereadSent childId =>
    simp only [Slice.advance] at advanced
    split at advanced <;> cases advanced <;> exact .refl w
  | returned child | raised exc => cases advanced

theorem Process.advance_grows {fundSlugs : List String} {p p' : Process}
    (advanced : p.advance fundSlugs w input = some (w', p')) : Grows w w' := by
  cases p with
  | execution r =>
    simp only [Process.advance] at advanced
    split at advanced <;> cases advanced
    exact .refl w
  | report r stage =>
    simp only [Process.advance, Option.map_eq_some_iff, Prod.mk.injEq] at advanced
    obtain ⟨⟨next, stage'⟩, moved, rfl, rfl⟩ := advanced
    exact Report.advance_grows moved
  | cancel c stage =>
    simp only [Process.advance, Option.map_eq_some_iff, Prod.mk.injEq] at advanced
    obtain ⟨⟨next, stage'⟩, moved, rfl, rfl⟩ := advanced
    exact Cancel.advance_grows moved
  | submission s stage =>
    simp only [Process.advance, Option.map_eq_some_iff, Prod.mk.injEq] at advanced
    obtain ⟨⟨next, stage'⟩, moved, rfl, rfl⟩ := advanced
    exact Submission.advance_grows moved
  | slice s stage =>
    simp only [Process.advance, Option.map_eq_some_iff, Prod.mk.injEq] at advanced
    obtain ⟨⟨next, stage'⟩, moved, rfl, rfl⟩ := advanced
    exact Slice.advance_grows moved

/-! ## Booked executions -/

/-- The order takes the fill: it is open, has the quantity left, and its average
can be continued. -/
def Fill.Bookable (f : Fill) : Prop :=
  f.order.state.TakesFill ∧ f.quantity ≤ f.order.remaining ∧
    (0 < f.order.filledQuantity → f.newFilled ≠ 0)

instance (f : Fill) : Decidable f.Bookable := inferInstanceAs (Decidable (_ ∧ _ ∧ (_ → _)))

/-- The fill is stored under the identifier, which is that of its trade. -/
def Fill.Recorded (f : Fill) (w : World) (tradeId : UUID) : Prop :=
  ∃ r ∈ (w.schemas f.fundSlug).fills, r.id = tradeId ∧ r.orderId = f.order.id ∧
    r.quantity = f.quantity ∧ r.price = f.price

def Fill.Published (f : Fill) (w : World) (tradeId : UUID) : Prop :=
  ∃ o, o.id = f.order.id ∧
    tradeExecuted f.fundSlug o tradeId f.quantity f.price ∈ w.published

def FillStep.Booked (w : World) (f : Fill) (tradeId : UUID) : FillStep → Prop
  | .update | .reread => True
  | .publishTrade order => order.id = f.order.id
  | .publishFilled _ | .readParent _ | .readChildren _ _ | .updateParent _ _ _ | .rereadParent _ _
  | .returned _ | .raised _ => f.Published w tradeId

def FillStage.Booked (w : World) (f : Fill) : FillStage → Prop
  | .insert => f.Bookable ∧ (w.order f.fundSlug f.order.id).isSome
  | .stored tradeId step => f.Bookable ∧ (w.order f.fundSlug f.order.id).isSome ∧
      f.Recorded w tradeId ∧ step.Booked w f tradeId
  | .raised _ => False

theorem Fill.start_booked {f : Fill} (bookable : f.Bookable)
    (there : (w.order f.fundSlug f.order.id).isSome) : f.start.Booked w f := by
  rw [Fill.start_fits bookable.2.1]
  exact ⟨bookable, there⟩

section Mono

variable {f : Fill} {tradeId : UUID}

theorem Fill.Recorded.mono (recorded : f.Recorded w tradeId) (grows : Grows w w') :
    f.Recorded w' tradeId := by
  obtain ⟨r, held, own⟩ := recorded
  exact ⟨r, grows.fills _ r held, own⟩

theorem Fill.Published.mono (published : f.Published w tradeId) (grows : Grows w w') :
    f.Published w' tradeId := by
  obtain ⟨o, own, held⟩ := published
  exact ⟨o, own, grows.published _ held⟩

theorem FillStep.Booked.mono {step : FillStep} (booked : step.Booked w f tradeId)
    (grows : Grows w w') : step.Booked w' f tradeId := by
  cases step with
  | update | reread => trivial
  | publishTrade order => exact booked
  | publishFilled order => exact Fill.Published.mono booked grows
  | readParent order => exact Fill.Published.mono booked grows
  | readChildren order parent => exact Fill.Published.mono booked grows
  | updateParent order parent u => exact Fill.Published.mono booked grows
  | rereadParent order parent => exact Fill.Published.mono booked grows
  | returned order => exact Fill.Published.mono booked grows
  | raised exc => exact Fill.Published.mono booked grows

theorem FillStage.Booked.mono {stage : FillStage} (booked : stage.Booked w f)
    (grows : Grows w w') : stage.Booked w' f := by
  cases stage with
  | insert => exact ⟨booked.1, grows.orders _ _ booked.2⟩
  | stored tradeId step =>
    obtain ⟨bookable, there, recorded, published⟩ := booked
    exact ⟨bookable, grows.orders _ _ there, recorded.mono grows, published.mono grows⟩
  | raised exc => exact booked

end Mono

theorem advanceStep_booked {f : Fill} {tradeId : UUID} {step step' : FillStep}
    (bookable : f.Bookable) (there : (w.order f.fundSlug f.order.id).isSome)
    (booked : step.Booked w f tradeId)
    (advanced : advanceStep w f tradeId step = some (w', step')) : step'.Booked w' f tradeId := by
  cases step with
  | update =>
    obtain ⟨u, updated⟩ := Fill.update_ok bookable.1 bookable.2.2
    simp only [advanceStep, updated, Option.some.injEq, Prod.mk.injEq] at advanced
    obtain ⟨-, rfl⟩ := advanced
    trivial
  | reread =>
    obtain ⟨row, found⟩ := Option.isSome_iff_exists.mp there
    simp only [advanceStep, found, Option.some.injEq, Prod.mk.injEq] at advanced
    obtain ⟨-, rfl⟩ := advanced
    exact World.id_of_order found
  | publishTrade order =>
    cases advanced
    exact ⟨order, booked, List.mem_append_right _ (List.mem_singleton_self _)⟩
  | publishFilled order =>
    have grows := advanceStep_grows advanced
    simp only [advanceStep, Option.some.injEq, Prod.mk.injEq] at advanced
    obtain ⟨-, rfl⟩ := advanced
    split <;> exact Fill.Published.mono booked grows
  | readParent order =>
    simp only [advanceStep] at advanced
    split at advanced <;> cases advanced <;> exact booked
  | readChildren order parent =>
    simp only [advanceStep] at advanced
    split at advanced <;> cases advanced <;> exact booked
  | updateParent order parent u =>
    have grows := advanceStep_grows advanced
    cases advanced
    exact Fill.Published.mono booked grows
  | rereadParent order parent =>
    simp only [advanceStep] at advanced
    split at advanced <;> cases advanced <;> exact booked
  | returned order | raised exc => cases advanced

/-- The draw is none of the identifiers in the table. -/
def FillStage.FreshDraw (w : World) (f : Fill) (draw : UUID) : FillStage → Prop
  | .insert => ∀ r ∈ (w.schemas f.fundSlug).fills, r.id ≠ draw
  | .stored _ _ | .raised _ => True

instance (w : World) (f : Fill) (draw : UUID) (stage : FillStage) :
    Decidable (stage.FreshDraw w f draw) := by
  cases stage <;> unfold FillStage.FreshDraw <;> infer_instance

theorem World.insertFill_ok {fundSlug : String} (fill : OrderFillRecord)
    (fresh : ∀ r ∈ (w.schemas fundSlug).fills, r.id ≠ fill.id) :
    ∃ w', w.insertFill fundSlug fill = .ok w' ∧ fill ∈ (w'.schemas fundSlug).fills := by
  have new : (w.schemas fundSlug).fills.any (·.id = fill.id) = false := by simpa using fresh
  refine ⟨_, by simp only [World.insertFill, Schema.insertFill, new]; rfl, ?_⟩
  simp [World.set]

theorem advanceFill_booked {f : Fill} {draw : UUID} {now : Datetime} {stage stage' : FillStage}
    (booked : stage.Booked w f) (fresh : stage.FreshDraw w f draw)
    (advanced : advanceFill w f draw now stage = some (w', stage')) : stage'.Booked w' f := by
  have grows := advanceFill_grows advanced
  cases stage with
  | insert =>
    obtain ⟨next, inserted, held⟩ := World.insertFill_ok (f.record draw now) fresh
    simp only [advanceFill, inserted, Option.some.injEq, Prod.mk.injEq] at advanced
    obtain ⟨rfl, rfl⟩ := advanced
    exact ⟨booked.1, grows.orders _ _ booked.2, ⟨_, held, rfl, rfl, rfl, rfl⟩, trivial⟩
  | stored tradeId step =>
    obtain ⟨bookable, there, recorded, own⟩ := booked
    simp only [advanceFill, Option.map_eq_some_iff, Prod.mk.injEq] at advanced
    obtain ⟨⟨next, step'⟩, moved, rfl, rfl⟩ := advanced
    exact ⟨bookable, grows.orders _ _ there, recorded.mono grows,
      advanceStep_booked bookable there own moved⟩
  | raised exc => cases advanced

/-! ## Calls that book what they were told -/

section

variable (w : World)

def ReportStage.Sound (r : Report) : ReportStage → Prop
  | .locating pending => pending ≠ []
  | .filling f stage => UUID.parse r.clientOrderId = some f.order.id ∧
      f.quantity = r.fillQuantity ∧ f.price = r.fillPrice ∧ stage.Booked w f
  | .ignored | .raised _ => False

def SubmissionStage.Sound (s : Submission) : SubmissionStage → Prop
  | .submit o | .acknowledge o _ => (w.order s.fundSlug o.id).isSome
  | .filling f stage => stage.Booked w f
  | .transition _ | .rereadSent | .rereadRejected | .returned _ | .raised _ => True

def SliceStage.Sound (s : Slice) : SliceStage → Prop
  | .submit o | .acknowledge o _ => (w.order s.fundSlug o.id).isSome
  | .filling f stage => stage.Booked w f
  | .readParent | .insert _ | .refresh _ | .approve _ | .rereadApproved _ | .send _ | .rereadSent _
  | .returned _ | .raised _ => True

def Process.Sound : Process → Prop
  | .report r stage => stage.Sound w r
  | .submission s stage => stage.Sound w s
  | .slice s stage => stage.Sound w s
  | .execution _ | .cancel _ _ => True

/-- The next schema has the order and it takes the fill, or there are more to search. -/
def Report.Finds (r : Report) : List String → Prop
  | [] => True
  | fundSlug :: pending => (UUID.parse r.clientOrderId).isSome ∧
      ∀ id ∈ UUID.parse r.clientOrderId, (w.order fundSlug id = none → pending ≠ []) ∧
        ∀ o ∈ w.order fundSlug id, (r.fill fundSlug o).Bookable

instance (r : Report) (pending : List String) : Decidable (r.Finds w pending) := by
  cases pending <;> unfold Report.Finds <;> infer_instance

end

/-- A report finds its order open for the fill, and a fill that the broker
acknowledges at once does; the identifier drawn for a fill is new. -/
def TakesExecution (fundSlugs : List String) (w : World) (_ : List Process) (p : Process)
    (input : Input) : Prop :=
  match p with
  | .execution _ => fundSlugs ≠ []
  | .report r (.locating pending) => r.Finds w pending
  | .submission s (.acknowledge o (.filled avg quantity)) =>
    (syncFill o s.fundSlug s.brokerId avg quantity).Bookable
  | .slice s (.acknowledge o (.filled avg quantity)) =>
    (syncFill o s.fundSlug none avg quantity).Bookable
  | .report _ (.filling f stage) | .submission _ (.filling f stage) | .slice _ (.filling f stage) =>
    stage.FreshDraw w f input.draw
  | _ => True

instance (fundSlugs : List String) (w : World) (others : List Process) (p : Process)
    (input : Input) : Decidable (TakesExecution fundSlugs w others p input) := by
  unfold TakesExecution
  split <;> infer_instance

section Sound

variable {fundSlugs : List String} {p p' : Process}

theorem Process.Sound.mono (sound : p.Sound w) (grows : Grows w w') : p.Sound w' := by
  cases p with
  | execution r | cancel c stage => trivial
  | report r stage =>
    cases stage with
    | locating pending => exact sound
    | filling f stage =>
      obtain ⟨parsed, quantity, price, booked⟩ := sound
      exact ⟨parsed, quantity, price, booked.mono grows⟩
    | ignored | raised exc => exact sound
  | submission s stage =>
    cases stage with
    | submit o | acknowledge o ack => exact grows.orders _ _ sound
    | filling f stage => exact FillStage.Booked.mono sound grows
    | transition order | rereadSent | rereadRejected | returned order | raised exc => trivial
  | slice s stage =>
    cases stage with
    | submit o | acknowledge o ack => exact grows.orders _ _ sound
    | filling f stage => exact FillStage.Booked.mono sound grows
    | readParent | insert parent | refresh childId | approve child | rereadApproved childId
    | send child | rereadSent childId | returned child | raised exc => trivial

theorem Report.advance_sound {r : Report} {stage stage' : ReportStage}
    (sound : stage.Sound w r) (takes : TakesExecution fundSlugs w [] (.report r stage) input)
    (advanced : r.advance w input stage = some (w', stage')) : stage'.Sound w' r := by
  cases stage with
  | locating pending =>
    cases pending with
    | nil => cases advanced
    | cons fundSlug pending =>
      obtain ⟨readable, finds⟩ := takes
      obtain ⟨id, parsed⟩ := Option.isSome_iff_exists.mp readable
      obtain ⟨more, bookable⟩ := finds id parsed
      simp only [Report.advance, parsed] at advanced
      split at advanced
      · rename_i missing
        cases advanced
        exact more missing
      · rename_i o found
        have fits := bookable o found
        have takesFill : o.state.TakesFill := fits.1
        rw [if_pos takesFill] at advanced
        cases advanced
        have own : o.id = id := World.id_of_order found
        have there : (w.order (r.fill fundSlug o).fundSlug (r.fill fundSlug o).order.id).isSome := by
          change (w.order fundSlug o.id).isSome
          rw [own, found]
          rfl
        exact ⟨parsed.trans (congrArg some own.symm), rfl, rfl, Fill.start_booked fits there⟩
  | filling f stage =>
    obtain ⟨parsed, quantity, price, booked⟩ := sound
    simp only [Report.advance, Option.map_eq_some_iff, Prod.mk.injEq] at advanced
    obtain ⟨⟨next, stage'⟩, moved, rfl, rfl⟩ := advanced
    exact ⟨parsed, quantity, price, advanceFill_booked booked takes moved⟩
  | ignored => cases advanced
  | raised exc => cases advanced

theorem World.order_submit_isSome {o : OrderRecord} {ack : Ack} {fundSlug : String} {id : UUID}
    (there : (w.order fundSlug id).isSome) : ((w.submit o ack).order fundSlug id).isSome :=
  (Grows.submit w o ack).orders _ _ there

theorem Submission.advance_sound {s : Submission} {stage stage' : SubmissionStage}
    (sound : stage.Sound w s) (takes : TakesExecution fundSlugs w [] (.submission s stage) input)
    (advanced : s.advance w input stage = some (w', stage')) : stage'.Sound w' s := by
  cases stage with
  | transition order =>
    simp only [Submission.advance] at advanced
    split at advanced <;> cases advanced <;> trivial
  | rereadSent =>
    simp only [Submission.advance] at advanced
    split at advanced
    · cases advanced
      trivial
    · rename_i order found
      cases advanced
      change (w.order s.fundSlug order.id).isSome
      rw [World.id_of_order found, found]
      rfl
  | submit order =>
    cases advanced
    exact World.order_submit_isSome sound
  | acknowledge order ack =>
    cases ack with
    | acknowledged =>
      cases advanced
      trivial
    | filled avg quantity =>
      cases advanced
      exact Fill.start_booked takes sound
    | rejected =>
      simp only [Submission.advance] at advanced
      split at advanced <;> cases advanced <;> trivial
  | filling f stage =>
    simp only [Submission.advance, Option.map_eq_some_iff, Prod.mk.injEq] at advanced
    obtain ⟨⟨next, stage'⟩, moved, rfl, rfl⟩ := advanced
    exact advanceFill_booked sound takes moved
  | rereadRejected =>
    simp only [Submission.advance] at advanced
    split at advanced <;> cases advanced <;> trivial
  | returned order => cases advanced
  | raised exc => cases advanced

theorem Slice.advance_sound {s : Slice} {stage stage' : SliceStage}
    (sound : stage.Sound w s) (takes : TakesExecution fundSlugs w [] (.slice s stage) input)
    (advanced : s.advance w input stage = some (w', stage')) : stage'.Sound w' s := by
  cases stage with
  | readParent | refresh childId | approve child | rereadApproved childId | send child =>
    simp only [Slice.advance] at advanced
    split at advanced <;> cases advanced <;> trivial
  | insert parent =>
    simp only [Slice.advance] at advanced
    split at advanced
    · split at advanced <;> cases advanced <;> trivial
    · cases advanced
      trivial
  | rereadSent childId =>
    simp only [Slice.advance] at advanced
    split at advanced
    · cases advanced
      trivial
    · rename_i child found
      cases advanced
      change (w.order s.fundSlug child.id).isSome
      rw [World.id_of_order found, found]
      rfl
  | submit child =>
    cases advanced
    exact World.order_submit_isSome sound
  | acknowledge child ack =>
    cases ack with
    | acknowledged | rejected =>
      cases advanced
      trivial
    | filled avg quantity =>
      cases advanced
      exact Fill.start_booked takes sound
  | filling f stage =>
    simp only [Slice.advance, Option.map_eq_some_iff, Prod.mk.injEq] at advanced
    obtain ⟨⟨next, stage'⟩, moved, rfl, rfl⟩ := advanced
    exact advanceFill_booked sound takes moved
  | returned child => cases advanced
  | raised exc => cases advanced

theorem Report.start_sound (some : fundSlugs ≠ []) (w : World) (r : Report) :
    (Report.start fundSlugs).Sound w r := by
  obtain ⟨fundSlug, rest, rfl⟩ := List.exists_cons_of_ne_nil some
  exact List.cons_ne_nil _ _

theorem Process.Sound.advance (sound : p.Sound w) (takes : TakesExecution fundSlugs w [] p input)
    (advanced : p.advance fundSlugs w input = some (w', p')) : p'.Sound w' := by
  cases p with
  | execution r =>
    simp only [Process.advance] at advanced
    split at advanced <;> cases advanced
    exact Report.start_sound takes w r
  | report r stage =>
    simp only [Process.advance, Option.map_eq_some_iff, Prod.mk.injEq] at advanced
    obtain ⟨⟨next, stage'⟩, moved, rfl, rfl⟩ := advanced
    exact Report.advance_sound sound takes moved
  | cancel c stage =>
    simp only [Process.advance, Option.map_eq_some_iff, Prod.mk.injEq] at advanced
    obtain ⟨⟨next, stage'⟩, moved, rfl, rfl⟩ := advanced
    trivial
  | submission s stage =>
    simp only [Process.advance, Option.map_eq_some_iff, Prod.mk.injEq] at advanced
    obtain ⟨⟨next, stage'⟩, moved, rfl, rfl⟩ := advanced
    exact Submission.advance_sound sound takes moved
  | slice s stage =>
    simp only [Process.advance, Option.map_eq_some_iff, Prod.mk.injEq] at advanced
    obtain ⟨⟨next, stage'⟩, moved, rfl, rfl⟩ := advanced
    exact Slice.advance_sound sound takes moved

end Sound

/-! ## Every execution has a fill and a trade of its own -/

/-- The row that the call has stored. -/
def Process.booking (p : Process) : Option (String × UUID) :=
  p.filling.bind fun (f, stage) => match stage with
    | .stored tradeId _ => some (f.fundSlug, tradeId)
    | _ => none

def Apart (p q : Process) : Prop := ∀ row ∈ p.booking, row ∉ q.booking

theorem Apart.symm {p q : Process} (apart : Apart p q) : Apart q p :=
  fun row held other => apart row other held

/-- What the broker has executed: the order it knows, the quantity and the price. -/
structure Execution where
  clientOrderId : String
  quantity : Decimal
  price : Decimal
  deriving DecidableEq, Repr

/-- The execution that a call is about, once there is one. -/
def Process.executed : Process → Option Execution
  | .report r _ => some ⟨r.clientOrderId, r.fillQuantity, r.fillPrice⟩
  | .submission _ (.acknowledge o (.filled avg quantity))
  | .slice _ (.acknowledge o (.filled avg quantity)) => some ⟨o.id.str, quantity, avg.getD 0⟩
  | .submission _ (.filling f _) | .slice _ (.filling f _) =>
    some ⟨f.order.id.str, f.quantity, f.price⟩
  | _ => none

/-- The row of the fill and the trade that is published for it. -/
def Execution.Booked (e : Execution) (w : World) (row : String × UUID) : Prop :=
  ∃ orderId, UUID.parse e.clientOrderId = some orderId ∧
    (∃ r ∈ (w.schemas row.1).fills, r.id = row.2 ∧ r.orderId = orderId ∧
      r.quantity = e.quantity ∧ r.price = e.price) ∧
    ∃ o : OrderRecord, o.id = orderId ∧
      tradeExecuted row.1 o row.2 e.quantity e.price ∈ w.published

section

variable {fundSlugs : List String} {p p' : Process}

theorem FillStage.Booked.row {f : Fill} {tradeId : UUID} {step : FillStep}
    (booked : (FillStage.stored tradeId step).Booked w f) :
    ∃ r ∈ (w.schemas f.fundSlug).fills, r.id = tradeId := by
  obtain ⟨-, -, ⟨r, held, same, -⟩, -⟩ := booked
  exact ⟨r, held, same⟩

theorem FillStage.Booked.published {f : Fill} {stage : FillStage} (booked : stage.Booked w f)
    (finished : stage.finished) : ∃ tradeId step, stage = .stored tradeId step ∧
      f.Recorded w tradeId ∧ f.Published w tradeId := by
  cases stage with
  | insert => cases finished
  | raised exc => exact booked.elim
  | stored tradeId step =>
    obtain ⟨-, -, recorded, published⟩ := booked
    refine ⟨tradeId, step, rfl, recorded, ?_⟩
    cases step with
    | returned order => exact published
    | raised exc => exact published
    | _ => cases finished

theorem Process.Sound.filling (sound : p.Sound w) {f : Fill} {stage : FillStage}
    (filling : p.filling = some (f, stage)) : stage.Booked w f := by
  unfold Process.filling at filling
  split at filling
  · cases filling
    exact sound.2.2.2
  · cases filling
    exact sound
  · cases filling
    exact sound
  · cases filling

theorem Process.Sound.row (sound : p.Sound w) {row : String × UUID} (held : row ∈ p.booking) :
    ∃ r ∈ (w.schemas row.1).fills, r.id = row.2 := by
  obtain ⟨⟨f, stage⟩, filling, stored⟩ := Option.bind_eq_some_iff.mp held
  have booked := sound.filling filling
  cases stage with
  | stored tradeId step =>
    cases stored
    exact booked.row
  | insert => cases stored
  | raised exc => cases stored

theorem Fill.start_booking (f : Fill) (tradeId : UUID) (step : FillStep) :
    f.start ≠ .stored tradeId step := by
  unfold Fill.start
  split <;> exact fun same => by cases same

theorem booking_of_start {p : Process} {f : Fill} (filling : p.filling = some (f, f.start)) :
    p.booking = none := by
  unfold Process.booking
  rw [filling, Option.bind_some]
  cases started : f.start with
  | stored tradeId step => exact (Fill.start_booking f tradeId step started).elim
  | insert => rfl
  | raised exc => rfl

/-- A turn of a call is one of the fill that it processes, unless it has stored nothing. -/
def Process.Fills (p : Process) (w : World) (input : Input) (w' : World) (p' : Process) : Prop :=
  (∃ f stage stage', p.filling = some (f, stage) ∧ p'.filling = some (f, stage') ∧
    advanceFill w f input.draw input.now stage = some (w', stage')) ∨ p'.booking = none

theorem Report.advance_fills {r : Report} {stage stage' : ReportStage}
    (advanced : r.advance w input stage = some (w', stage')) :
    Process.Fills (.report r stage) w input w' (.report r stage') := by
  cases stage with
  | locating pending =>
    cases pending with
    | nil => cases advanced
    | cons fundSlug pending =>
      simp only [Report.advance] at advanced
      split at advanced
      · cases advanced
        exact .inr rfl
      · split at advanced
        · cases advanced
          exact .inr rfl
        · split at advanced
          · cases advanced
            -- a fill that starts has booked nothing
            exact .inr (booking_of_start rfl)
          · cases advanced
            exact .inr rfl
  | filling f stage =>
    simp only [Report.advance, Option.map_eq_some_iff, Prod.mk.injEq] at advanced
    obtain ⟨⟨next, stage'⟩, moved, rfl, rfl⟩ := advanced
    -- the step is one of the fill
    exact .inl ⟨f, stage, stage', rfl, rfl, moved⟩
  | ignored => cases advanced
  | raised exc => cases advanced

theorem Submission.advance_fills {s : Submission} {stage stage' : SubmissionStage}
    (advanced : s.advance w input stage = some (w', stage')) :
    Process.Fills (.submission s stage) w input w' (.submission s stage') := by
  cases stage with
  | filling f stage =>
    simp only [Submission.advance, Option.map_eq_some_iff, Prod.mk.injEq] at advanced
    obtain ⟨⟨next, stage'⟩, moved, rfl, rfl⟩ := advanced
    exact .inl ⟨f, stage, stage', rfl, rfl, moved⟩
  | acknowledge o ack =>
    cases ack with
    | acknowledged =>
      cases advanced
      exact .inr rfl
    | filled avg quantity =>
      cases advanced
      exact .inr (booking_of_start rfl)
    | rejected =>
      simp only [Submission.advance] at advanced
      split at advanced <;> cases advanced <;> exact .inr rfl
  -- these stages read or write the state of the order alone
  | transition o | rereadSent | rereadRejected =>
    simp only [Submission.advance] at advanced
    split at advanced <;> cases advanced <;> exact .inr rfl
  | submit o =>
    cases advanced
    exact .inr rfl
  | returned o | raised exc => cases advanced

theorem Slice.advance_fills {s : Slice} {stage stage' : SliceStage}
    (advanced : s.advance w input stage = some (w', stage')) :
    Process.Fills (.slice s stage) w input w' (.slice s stage') := by
  cases stage with
  | filling f stage =>
    simp only [Slice.advance, Option.map_eq_some_iff, Prod.mk.injEq] at advanced
    obtain ⟨⟨next, stage'⟩, moved, rfl, rfl⟩ := advanced
    exact .inl ⟨f, stage, stage', rfl, rfl, moved⟩
  | acknowledge o ack =>
    cases ack with
    | acknowledged | rejected =>
      cases advanced
      exact .inr rfl
    | filled avg quantity =>
      cases advanced
      exact .inr (booking_of_start rfl)
  | readParent | refresh childId | approve child | rereadApproved childId | send child
  | rereadSent childId =>
    simp only [Slice.advance] at advanced
    split at advanced <;> cases advanced <;> exact .inr rfl
  | insert parent =>
    simp only [Slice.advance] at advanced
    split at advanced
    · split at advanced <;> cases advanced <;> exact .inr rfl
    · cases advanced
      exact .inr rfl
  | submit o =>
    cases advanced
    exact .inr rfl
  | returned o | raised exc => cases advanced

theorem Process.advance_fills (advanced : p.advance fundSlugs w input = some (w', p')) :
    p.Fills w input w' p' := by
  cases p with
  | execution r =>
    simp only [Process.advance] at advanced
    split at advanced <;> cases advanced
    exact .inr rfl
  | report r stage =>
    simp only [Process.advance, Option.map_eq_some_iff, Prod.mk.injEq] at advanced
    obtain ⟨⟨next, stage'⟩, moved, rfl, rfl⟩ := advanced
    exact Report.advance_fills moved
  | cancel c stage =>
    simp only [Process.advance, Option.map_eq_some_iff, Prod.mk.injEq] at advanced
    obtain ⟨⟨next, stage'⟩, moved, rfl, rfl⟩ := advanced
    exact .inr rfl
  | submission s stage =>
    simp only [Process.advance, Option.map_eq_some_iff, Prod.mk.injEq] at advanced
    obtain ⟨⟨next, stage'⟩, moved, rfl, rfl⟩ := advanced
    exact Submission.advance_fills moved
  | slice s stage =>
    simp only [Process.advance, Option.map_eq_some_iff, Prod.mk.injEq] at advanced
    obtain ⟨⟨next, stage'⟩, moved, rfl, rfl⟩ := advanced
    exact Slice.advance_fills moved

/-- What a call has stored stays, and what it stores is a row that was not there. -/
theorem Process.advance_booking (advanced : p.advance fundSlugs w input = some (w', p'))
    {row : String × UUID} (held : row ∈ p'.booking) :
    row ∈ p.booking ∨ ∀ r ∈ (w.schemas row.1).fills, r.id ≠ row.2 := by
  rcases p.advance_fills advanced with ⟨f, stage, stage', before, after, moved⟩ | nothing
  · simp only [Process.booking, after, Option.bind_some] at held
    simp only [Process.booking, before, Option.bind_some]
    cases stage with
    | insert =>
      simp only [advanceFill] at moved
      split at moved
      · cases moved
        cases held
      · rename_i next inserted
        cases moved
        cases held
        exact .inr (World.insertFill_cases inserted).1
    | stored tradeId step =>
      simp only [advanceFill, Option.map_eq_some_iff, Prod.mk.injEq] at moved
      obtain ⟨⟨next, step'⟩, -, rfl, rfl⟩ := moved
      exact .inl held
    | raised exc => cases moved
  · rw [nothing] at held
    cases held

end

/-- The calls and the broker at the start: nothing is under way. -/
def Process.Starting : Process → Prop
  | .execution _ | .cancel _ .read | .submission _ (.transition _) | .slice _ .readParent => True
  | _ => False

instance (p : Process) : Decidable p.Starting := by
  unfold Process.Starting
  split <;> infer_instance

theorem Process.Starting.sound {p : Process} (starting : p.Starting) (w : World) :
    p.Sound w ∧ p.booking = none := by
  unfold Process.Starting at starting
  split at starting
  · exact ⟨trivial, rfl⟩
  · exact ⟨trivial, rfl⟩
  · exact ⟨trivial, rfl⟩
  · exact ⟨trivial, rfl⟩
  · exact starting.elim

theorem Process.Sound.booked {p : Process} {f : Fill} {stage : FillStage} (sound : p.Sound w)
    (filling : p.filling = some (f, stage)) (finished : stage.finished) {clientOrderId : String}
    (parsed : UUID.parse clientOrderId = some f.order.id) :
    ∃ row ∈ p.booking, Execution.Booked ⟨clientOrderId, f.quantity, f.price⟩ w row := by
  obtain ⟨tradeId, step, rfl, ⟨r, held, own, order, booked, paid⟩, published⟩ :=
    (sound.filling filling).published finished
  exact ⟨(f.fundSlug, tradeId), by simp [Process.booking, filling], f.order.id, parsed,
    ⟨r, held, own, order, booked, paid⟩, published⟩

theorem Process.Sound.executed {p : Process} {e : Execution} (sound : p.Sound w)
    (finished : p.finished) (executed : p.executed = some e) :
    ∃ row ∈ p.booking, e.Booked w row := by
  cases p with
  | execution r => cases executed
  | cancel c stage => cases executed
  | report r stage =>
    rw [← Option.some.inj executed]
    cases stage with
    | locating pending =>
      cases pending with
      | nil => exact absurd rfl sound
      | cons fundSlug pending => cases finished
    | filling f stage =>
      obtain ⟨parsed, quantity, price, -⟩ := id sound
      rw [← quantity, ← price]
      exact sound.booked rfl finished parsed
    | ignored => exact sound.elim
    | raised exc => exact sound.elim
  | submission s stage =>
    cases stage with
    | filling f stage =>
      rw [← Option.some.inj executed]
      exact sound.booked rfl finished (UUID.parse_str f.order.id)
    | acknowledge o ack => cases finished
    | transition o | submit o | returned o | rereadSent | rereadRejected | raised exc =>
      cases executed
  | slice s stage =>
    cases stage with
    | filling f stage =>
      rw [← Option.some.inj executed]
      exact sound.booked rfl finished (UUID.parse_str f.order.id)
    | acknowledge o ack => cases finished
    | readParent | insert o | refresh childId | approve o | rereadApproved childId | send o
    | rereadSent childId | submit o | returned o | raised exc => cases executed

/-- Where every report finds its order open for the fill, every execution has a
fill and a published trade of its own once its call is finished. -/
theorem booked_of_takesExecution (fundSlugs : List String) {w : World} {calls : List Process}
    (starting : ∀ p ∈ calls, p.Starting) {turns : List (Processes.Turn Input)}
    {final : Processes.State World Process}
    (along : (orders fundSlugs).system.Along (Processes.When (TakesExecution fundSlugs))
      ⟨w, calls⟩ turns)
    (ran : (orders fundSlugs).system.run ⟨w, calls⟩ turns = some final) :
    (∀ p ∈ final.processes, p.finished → ∀ e ∈ p.executed,
      ∃ row ∈ p.booking, e.Booked final.shared row) ∧ final.processes.Pairwise Apart := by
  have start : Processes.Holds (fun _ => True) (fun w p => p.Sound w) Apart ⟨w, calls⟩ := by
    refine ⟨trivial, fun p member => ((starting p member).sound w).1, ?_⟩
    refine List.Pairwise.imp_of_mem (fun {p q} left right _ row held => ?_)
      (List.pairwise_of_forall (fun _ _ => trivial) : calls.Pairwise fun _ _ => True)
    rw [((starting p left).sound w).2] at held
    cases held
  have kept : ∀ (w w' : World) (others : List Process) (p p' : Process) (input : Input), True →
      p.Sound w → (∀ q ∈ others, q.Sound w ∧ Apart p q) →
      TakesExecution fundSlugs w others p input →
      (orders fundSlugs).advance w others p input = some (w', p') →
      True ∧ p'.Sound w' ∧ ∀ q ∈ others, q.Sound w' ∧ Apart p' q := by
    intro w w' others p p' input _ sound apart takes advanced
    have grows := Process.advance_grows advanced
    refine ⟨trivial, sound.advance takes advanced, fun q member => ?_⟩
    obtain ⟨other, before⟩ := apart q member
    refine ⟨other.mono grows, fun row held theirs => ?_⟩
    rcases Process.advance_booking advanced held with old | new
    · exact before row old theirs
    · obtain ⟨r, stored, same⟩ := other.row theirs
      exact new r stored same
  have step : ∀ s turn next, Processes.Holds (fun _ => True) (fun w p => p.Sound w) Apart s →
      Processes.When (TakesExecution fundSlugs) s turn →
      (orders fundSlugs).system.step s turn = some next →
      Processes.Holds (fun _ => True) (fun w p => p.Sound w) Apart next :=
    fun s turn next inv met stepped =>
      Processes.step_keeps (fun _ _ => Apart.symm) kept inv met stepped
  have holds := System.invariant_along step along ran start
  exact ⟨fun p member finished e executed =>
    (holds.each p member).executed finished executed, holds.both⟩

/-- An order that is submitted, cancelled by a user, and executed by the broker. -/
def submittedAndCancelled : List Process :=
  [.submission ⟨"alpha", .ofNat 1, some "GS"⟩ (.transition (anOrder .approved)),
    .cancel ⟨"alpha", .ofNat 1⟩ .read, .execution (aReport 10 100)]

/-- The report finds the order before the cancellation is written, and is booked after it. -/
theorem booked_of_report_before_cancel :
    ∃ final p, (orders ["alpha"]).system.run ⟨holding (anOrder .approved), submittedAndCancelled⟩
        (schedule ([0, 0, 0, 2, 2, 0, 1, 1, 1] ++ List.replicate 5 2)) = some final ∧
      p ∈ final.processes ∧
      final.shared.stateOf "alpha" ⟨1, by decide⟩ = some .filled ∧
      ∃ row ∈ p.booking,
        Execution.Booked ⟨(⟨1, by decide⟩ : UUID).str, 10, 100⟩ final.shared row := by
  have ran : ((orders ["alpha"]).system.run
      ⟨holding (anOrder .approved), submittedAndCancelled⟩
      (schedule ([0, 0, 0, 2, 2, 0, 1, 1, 1] ++ List.replicate 5 2))).map (fun final =>
        (final.shared.stateOf "alpha" ⟨1, by decide⟩,
          final.processes.all Process.finished,
          final.processes.map Process.executed)) =
      some (some .filled, true,
        [none, none, some ⟨(⟨1, by decide⟩ : UUID).str, 10, 100⟩]) := by
    decide +kernel
  have along : (orders ["alpha"]).system.Along (Processes.When (TakesExecution ["alpha"]))
      ⟨holding (anOrder .approved), submittedAndCancelled⟩
      (schedule ([0, 0, 0, 2, 2, 0, 1, 1, 1] ++ List.replicate 5 2)) := by
    decide +kernel
  obtain ⟨final, reached, values⟩ := Option.map_eq_some_iff.mp ran
  simp only [Prod.mk.injEq, List.all_eq_true] at values
  obtain ⟨state, finished, executed⟩ := values
  obtain ⟨p, member, own⟩ : ∃ p ∈ final.processes,
      p.executed = some ⟨(⟨1, by decide⟩ : UUID).str, 10, 100⟩ := by
    refine List.mem_map.mp ?_
    rw [executed]
    simp
  exact ⟨final, p, reached, member, state, (booked_of_takesExecution ["alpha"] (by decide +kernel)
    along reached).1 p member (finished p member) _ own⟩

/-- The cancellation is accepted, the broker executes the whole order, and its
report is dropped: nothing is stored and nothing published. -/
theorem cancelled_execution_lost :
    ∃ final p, (orders ["alpha"]).system.run ⟨holding (anOrder .approved), submittedAndCancelled⟩
        (schedule [0, 0, 0, 0, 1, 1, 1, 2, 2]) = some final ∧
      p ∈ final.processes ∧ final.processes.all Process.finished ∧
      p.executed = some ⟨(⟨1, by decide⟩ : UUID).str, 10, 100⟩ ∧
      final.shared.fillsOf "alpha" ⟨1, by decide⟩ = [] ∧ final.shared.published = [] ∧
      ∀ row, ¬ Execution.Booked ⟨(⟨1, by decide⟩ : UUID).str, 10, 100⟩ final.shared row := by
  have ran : ((orders ["alpha"]).system.run
      ⟨holding (anOrder .approved), submittedAndCancelled⟩
      (schedule [0, 0, 0, 0, 1, 1, 1, 2, 2])).map (fun final =>
        (final.processes.all Process.finished, final.processes.map Process.executed,
          final.shared.fillsOf "alpha" ⟨1, by decide⟩, final.shared.published)) =
      some (true, [none, none, some ⟨(⟨1, by decide⟩ : UUID).str, 10, 100⟩], [], []) := by
    decide +kernel
  obtain ⟨final, reached, values⟩ := Option.map_eq_some_iff.mp ran
  simp only [Prod.mk.injEq] at values
  obtain ⟨finished, executed, fills, published⟩ := values
  obtain ⟨p, member, own⟩ : ∃ p ∈ final.processes,
      p.executed = some ⟨(⟨1, by decide⟩ : UUID).str, 10, 100⟩ := by
    refine List.mem_map.mp ?_
    rw [executed]
    simp
  refine ⟨final, p, reached, member, finished, own, fills, published, ?_⟩
  rintro row ⟨orderId, -, -, o, -, held⟩
  rw [published] at held
  cases held

end MiniHedge.Orders
