import MiniHedge.Compliance.Mirror

/-! The violations over whole runs of the monitor. -/

set_option autoImplicit false

namespace MiniHedge.Compliance

open MiniHedge.Python MiniHedge.Library

section Decisions

variable {fund : Fund} {state : PortfolioState} {existingByRuleId : List (UUID × Violation)}
  {rule : RuleDefinition} {result : EvaluationResult}

instance : Decidable (Fund.Writes existingByRuleId rule result) :=
  inferInstanceAs (Decidable (_ = _))

instance : Decidable (fund.Current state existingByRuleId rule) :=
  decidable_of_iff (fund.positions ≠ [] ∧
      (∃ record ∈ fund.rules.listActive, record.definition = .ok rule) ∧
      fund.actual = .ok state ∧
      existingByRuleId.lookup rule.id = (byRuleId fund.violations.listActive).lookup rule.id)
    ⟨fun ⟨held, active, built, listed⟩ => ⟨held, active, built, listed⟩,
      fun ⟨held, active, built, listed⟩ => ⟨held, active, built, listed⟩⟩

instance (h : Handler) (call : Call) : Decidable (h.Sound fund call) :=
  match h with
  | ⟨_, .starting⟩ => inferInstanceAs (Decidable (_ = _ ∧ ∃ _, _))
  | ⟨_, .loading _⟩ | ⟨_, .describing ..⟩ | ⟨_, .listing ..⟩ | ⟨_, .evaluating [] _ _⟩ =>
    inferInstanceAs (Decidable (_ = _ ∧ True))
  | ⟨_, .evaluating (_ :: _) _ _⟩ => inferInstanceAs (Decidable (_ = _ ∧ ∃ _, _))

end Decisions

/-- A violation that is open keeps its rule active and the portfolio from being
emptied, the rules change while a handler is still to start, and handlers are sound. -/
def Steady (s : Watch) : Happening → Prop
  | .portfolioChanged portfolio _ =>
    s.fund.violations.active ≠ [] → portfolio.positions.rows ≠ []
  | .rulesChanged rules => s.events ≠ [] ∧ ∀ v ∈ s.fund.violations.active,
      ∃ record ∈ rules.listActive, (Field.text record.id).asUuid = .ok v.ruleId
  | .delivered _ _ => True
  | .turn index call => ∀ h ∈ s.handlers[index]?, h.Sound s.fund call

instance (s : Watch) : (happening : Happening) → Decidable (Steady s happening)
  | .portfolioChanged .. => inferInstanceAs (Decidable (_ → _))
  | .rulesChanged _ => inferInstanceAs (Decidable (_ ∧ ∀ _ ∈ _, ∃ _ ∈ _, _))
  | .delivered .. => isTrue trivial
  | .turn .. => inferInstanceAs (Decidable (∀ _ ∈ _, _))

/-- Everything is in line, or a handler is to start, or one on current readings is under way. -/
structure Watch.Attended (s : Watch) : Prop where
  orderly : s.fund.Orderly
  attended : s.fund.Mirrors ∨ s.events ≠ [] ∨ ∃ h ∈ s.handlers, h.Fresh s.fund

namespace Watch

variable {s next : Watch}

theorem mem_turned {handlers : List Handler} {index : Nat} {own h : Handler}
    (found : handlers[index]? = some own) (member : h ∈ handlers) (replaced : List Handler) :
    h = own ∨ h ∈ handlers.take index ++ (replaced ++ handlers.drop (index + 1)) := by
  obtain ⟨inside, rfl⟩ := List.getElem?_eq_some_iff.mp found
  rw [← List.take_append_drop index handlers, ← List.getElem_cons_drop inside] at member
  simp only [List.mem_append, List.mem_cons] at member ⊢
  tauto

theorem Attended.step {happening : Happening} (attended : s.Attended) (steady : Steady s happening)
    (stepped : monitor.step s happening = some next) : next.Attended := by
  cases happening with
  | portfolioChanged portfolio isPassive =>
    cases stepped
    refine ⟨⟨attended.orderly.single, attended.orderly.owned, steady⟩, .inr (.inl ?_)⟩
    simp
  | rulesChanged rules =>
    cases stepped
    exact ⟨⟨attended.orderly.single, steady.2, attended.orderly.held⟩, .inr (.inl steady.1)⟩
  | delivered index again =>
    simp only [monitor, Option.bind_eq_bind, Option.bind_eq_some_iff, Option.pure_def,
      Option.some.injEq] at stepped
    obtain ⟨isPassive, -, rfl⟩ := stepped
    exact ⟨attended.orderly, .inr (.inr ⟨{ isPassive }, by simp, trivial⟩)⟩
  | turn index call =>
    simp only [monitor, Option.bind_eq_bind, Option.bind_eq_some_iff, Option.pure_def,
      Option.some.injEq] at stepped
    obtain ⟨own, found, rfl⟩ := stepped
    have sound := steady own found
    have improved := Handler.advance_improved attended.orderly sound
    refine ⟨improved.orderly, ?_⟩
    rcases attended.attended with mirrors | waiting | ⟨h, member, fresh⟩
    · exact .inl (mirrors.improved improved)
    · exact .inr (.inl waiting)
    · rcases mem_turned found member (own.advance s.fund call).2.toList with rfl | other
      · rcases Handler.advance_fresh attended.orderly sound fresh with ⟨h', moved, fresh'⟩ | mirrors
        · exact .inr (.inr ⟨h', by simp [moved], fresh'⟩)
        · exact .inl mirrors
      · exact .inr (.inr ⟨h, other, fresh.improved improved⟩)

end Watch

/-- In every run of such steps, from a fund whose violations are those of its
rules, they are again whenever every event is delivered and every handler has ended. -/
theorem mirrors_when_idle {fund : Fund} {happenings : List Happening} {final : Watch}
    (initial : fund.Mirrors) (along : monitor.Along Steady ⟨fund, [], []⟩ happenings)
    (ran : monitor.run ⟨fund, [], []⟩ happenings = some final) (delivered : final.events = [])
    (ended : final.handlers = []) : final.fund.Mirrors := by
  have kept := System.invariant_along
    (fun _ _ _ attended steady stepped => Watch.Attended.step attended steady stepped) along ran
    ⟨initial.orderly, .inl initial⟩
  rcases kept.attended with mirrors | waiting | ⟨h, member, -⟩
  · exact mirrors
  · exact absurd delivered waiting
  · rw [ended] at member
    cases member

/-! ## A fund that may not be short -/

section Short

def noShorts : RuleRecord where
  id := "00000000-0000-0000-0000-000000000001"
  name := "No shorts"
  ruleType := "short_selling"
  severity := "block"
  parameters := []
  isActive := true
  gracePeriodHours := none

def holding (quantity marketValue : Decimal) : Portfolio :=
  ⟨⟨[⟨"AAPL", quantity, marketValue⟩], by simp⟩, none, none⟩

def newFund : Fund where
  portfolioId := .ofNat 0
  rules := ⟨[noShorts], by simp⟩
  portfolio := ⟨⟨[], List.nodup_nil⟩, none, none⟩
  violations := .empty

def turns (indices : List Nat) : List Happening := indices.map (.turn · { now := 0 })

/-- A short is sold and bought back, and each event is handled at once. -/
def soldAndCovered : List Happening :=
  [.portfolioChanged (holding (-5) (-500)) false, .delivered 0 false] ++
    turns [0, 0, 0, 0, 0, 0, 0] ++
    [.portfolioChanged (holding 1 100) false, .delivered 0 false] ++ turns [0, 0, 0, 0, 0, 0, 0]

theorem newFund_mirrors : newFund.Mirrors :=
  Fund.mirrors_of_empty ⟨fun _ => Nat.zero_le 1, by decide, by decide⟩ rfl

theorem mirrors_soldAndCovered :
    ∃ final, monitor.run ⟨newFund, [], []⟩ soldAndCovered = some final ∧
      final.fund.violations.rows.length = 1 ∧ final.fund.Mirrors := by
  have ends : (monitor.run ⟨newFund, [], []⟩ soldAndCovered).isSome := by decide +kernel
  obtain ⟨final, ran⟩ := Option.isSome_iff_exists.mp ends
  have along : monitor.Along Steady ⟨newFund, [], []⟩ soldAndCovered := by decide +kernel
  have reached : (monitor.run ⟨newFund, [], []⟩ soldAndCovered).map (fun s =>
      (s.events, s.handlers, s.fund.violations.rows.length)) = some ([], [], 1) := by decide +kernel
  rw [ran, Option.map_some, Option.some.injEq, Prod.mk.injEq, Prod.mk.injEq] at reached
  obtain ⟨delivered, ended, recorded⟩ := reached
  exact ⟨final, ran, recorded, mirrors_when_idle newFund_mirrors along ran delivered ended⟩

/-- The events of a trade and of a price handled in turns. -/
def handledTogether : List Happening :=
  [.portfolioChanged (holding (-5) (-500)) false, .portfolioChanged (holding (-5) (-510)) true,
    .delivered 0 false, .delivered 0 false] ++
    turns [0, 1, 0, 1, 0, 1, 0, 1, 0, 1, 0, 1, 0, 0]

/-- Both handlers insert a violation of the one rule that fails. -/
theorem violation_doubled :
    ∃ final, monitor.run ⟨newFund, [], []⟩ handledTogether = some final ∧ final.events = [] ∧
      final.handlers = [] ∧ ¬ final.fund.Mirrors := by
  have ends : (monitor.run ⟨newFund, [], []⟩ handledTogether).isSome := by decide +kernel
  obtain ⟨final, ran⟩ := Option.isSome_iff_exists.mp ends
  have reached : (monitor.run ⟨newFund, [], []⟩ handledTogether).map (fun s =>
      (s.events, s.handlers, (s.fund.activeOf ⟨1, by decide⟩).length)) = some ([], [], 2) := by
    decide +kernel
  rw [ran, Option.map_some, Option.some.injEq, Prod.mk.injEq, Prod.mk.injEq] at reached
  obtain ⟨delivered, ended, doubled⟩ := reached
  refine ⟨final, ran, delivered, ended, fun mirrors => ?_⟩
  have single := mirrors.orderly.single ⟨1, by decide⟩
  rw [doubled] at single
  exact absurd single (by decide)

end Short

end MiniHedge.Compliance
