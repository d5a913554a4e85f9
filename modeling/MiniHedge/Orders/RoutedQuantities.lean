import MiniHedge.Orders.Routing
import Mathlib.Tactic.Positivity

/-! Whether the quantities of the routing decisions are those that are executed.

An order that is split has several decisions, and goes as a whole to the default
broker of the gateway.
-/

set_option autoImplicit false

namespace MiniHedge.Orders

open MiniHedge.Python MiniHedge.Library

/-! ## What is to hold -/

section Claim

variable {Adapter : Type} [DecidableEq Adapter] (registry : BrokerRegistry Adapter)
  (broker : Adapter) (routed : Routed Adapter)

/-- The quantity that the decisions give to a broker. -/
def recordedFor (adapter : Adapter) : Decimal :=
  ((routed.decisions.filter fun decision =>
    registry.resolve broker (some decision.brokerId) = adapter).map (·.quantity)).sum

def submittedTo (adapter : Adapter) : Decimal :=
  ((routed.submissions.filter fun submission => submission.1 = adapter).map (·.2)).sum

def ExecutedAsRecorded : Prop :=
  ∀ adapter, recordedFor registry broker routed adapter = submittedTo routed adapter

end Claim

/-! ## The condition -/

section Condition

variable {Adapter : Type} (registry : BrokerRegistry Adapter) (rules : List RoutingRule)
  (scorecards : String → Option BrokerScorecard) (quantity : Decimal)

/-- The scores of the brokers that an order may be split across. -/
def topScores : List Decimal := ((scored registry scorecards).take 3).map (·.2)

/-- No rule matches, the quantity is above the threshold, and the best broker's share of it is
not all. -/
structure Splits : Prop where
  several : 1 < registry.brokers.length
  unruled : matchingRule registry rules quantity = none
  large : splitThreshold < truncate quantity
  shared : ∃ best ∈ (topScores registry scorecards).head?,
    (topScores registry scorecards).sum ≠ 0 ∧
      quantize 0 .halfEven (quantity * best / (topScores registry scorecards).sum) < quantity

end Condition

/-! ## Shares -/

section Shares

variable {α : Type} {share : α → Decimal}

theorem shareOut_fst (xs : List α) (remaining : Decimal) :
    (shareOut share xs remaining).map (·.1) = xs := by
  induction xs generalizing remaining with
  | nil => rfl
  | cons x rest ih =>
    cases rest with
    | nil => rfl
    | cons y rest => simp [shareOut, ih]

theorem sum_shareOut {xs : List α} (nonempty : xs ≠ []) (remaining : Decimal) :
    ((shareOut share xs remaining).map (·.2)).sum = remaining := by
  induction xs generalizing remaining with
  | nil => exact absurd rfl nonempty
  | cons x rest ih =>
    cases rest with
    | nil => simp [shareOut]
    | cons y rest =>
      rw [shareOut, List.map_cons, List.sum_cons, ih (List.cons_ne_nil y rest)]
      ring

theorem shareOut_within {xs : List α} (nonneg : ∀ x ∈ xs, 0 ≤ share x) {remaining : Decimal}
    (left : 0 ≤ remaining) :
    ∀ part ∈ shareOut share xs remaining, 0 ≤ part.2 ∧ part.2 ≤ remaining := by
  induction xs generalizing remaining with
  | nil => exact fun part member => absurd member List.not_mem_nil
  | cons x rest ih =>
    cases rest with
    | nil =>
      intro part member
      rw [List.mem_singleton.mp member]
      exact ⟨left, le_rfl⟩
    | cons y rest =>
      intro part member
      have own : 0 ≤ min (share x) remaining := le_min (nonneg x List.mem_cons_self) left
      rcases List.mem_cons.mp member with rfl | later
      · exact ⟨own, min_le_right _ _⟩
      · have rest := ih (fun other inside => nonneg other (List.mem_cons_of_mem x inside))
          (sub_nonneg.mpr (min_le_right (share x) remaining)) part later
        exact ⟨rest.1, rest.2.trans (sub_le_self _ own)⟩

theorem shareOut_exists_pos {xs : List α} (nonempty : xs ≠ []) {remaining : Decimal}
    (positive : 0 < remaining) : ∃ part ∈ shareOut share xs remaining, 0 < part.2 := by
  -- parts that are all zero or less would not add up to the rest
  by_contra none
  push Not at none
  have bound : ((shareOut share xs remaining).map (·.2)).sum ≤ _ :=
    List.sum_le_card_nsmul _ 0 fun x inside => by
      obtain ⟨part, found, rfl⟩ := List.mem_map.mp inside
      exact none part found
  rw [sum_shareOut nonempty, nsmul_zero] at bound
  exact absurd positive (not_lt.mpr bound)

/-- Where nothing is shared out, all goes to the last. -/
theorem shareOut_zero {xs : List α} (zero : ∀ x ∈ xs, share x = 0) (nonempty : xs ≠ [])
    {remaining : Decimal} (positive : 0 < remaining) :
    ∃ last, (shareOut share xs remaining).filter (fun part => 0 < part.2) =
      [(last, remaining)] := by
  induction xs with
  | nil => exact absurd rfl nonempty
  | cons x rest ih =>
    cases rest with
    | nil => exact ⟨x, by simp [shareOut, positive]⟩
    | cons y rest =>
      obtain ⟨last, found⟩ := ih (fun other inside => zero other (List.mem_cons_of_mem x inside))
        (List.cons_ne_nil y rest)
      refine ⟨last, ?_⟩
      have none : min (share x) remaining = 0 := by
        rw [zero x List.mem_cons_self, min_eq_left positive.le]
      simpa [shareOut, none] using found

end Shares

/-! ## An order that may be split -/

theorem onGrid_whole (n : Int) : OnGrid 8 n := ⟨n * 10 ^ 8, by push_cast; ring⟩

section Top

variable {quantity : Decimal} {top : List (String × Decimal)} {best second : String × Decimal}
  {rest : List (String × Decimal)}

theorem proportion_nonneg (positive : 0 < quantity) (nonneg : ∀ b ∈ top, 0 ≤ b.2) :
    ∀ b ∈ top, 0 ≤ proportion quantity top b.2 := by
  intro b member
  have own := nonneg b member
  have total : 0 < totalScore top := by
    unfold totalScore
    split
    · exact one_pos
    · rename_i nonzero
      refine lt_of_le_of_ne (List.sum_nonneg fun s inside => ?_) (Ne.symm nonzero)
      obtain ⟨other, found, rfl⟩ := List.mem_map.mp inside
      exact nonneg other found
  exact quantize_nonneg (by positivity) 0 .halfEven

theorem proportion_eq (nonzero : (top.map (·.2)).sum ≠ 0) (score : Decimal) :
    proportion quantity top score =
      quantize 0 .halfEven (quantity * score / (top.map (·.2)).sum) := by
  rw [proportion, totalScore, if_neg nonzero]

/-- All goes to one broker where the best one's share is all, or nobody has a share. -/
theorem splitOrder_single (nonempty : top ≠ []) (positive : 0 < quantity)
    (nonneg : ∀ b ∈ top, 0 ≤ b.2)
    (covered : ∀ b ∈ top.head?, (top.map (·.2)).sum ≠ 0 →
      quantity ≤ quantize 0 .halfEven (quantity * b.2 / (top.map (·.2)).sum)) :
    ∃ slice, splitOrder quantity top = [slice] ∧ slice.quantity = quantity := by
  by_cases zero : (top.map (·.2)).sum = 0
  · have none : ∀ b ∈ top, proportion quantity top b.2 = 0 := by
      intro b member
      have nothing : b.2 = 0 := List.all_zero_of_le_zero_le_of_sum_eq_zero
        (fun s inside => by
          obtain ⟨other, found, rfl⟩ := List.mem_map.mp inside
          exact nonneg other found) zero (List.mem_map_of_mem member)
      rw [proportion, nothing, mul_zero, zero_div, quantize_zero]
    obtain ⟨last, found⟩ := shareOut_zero none nonempty positive
    rw [splitOrder, found]
    exact ⟨partSlice (last, quantity), rfl, rfl⟩
  · cases top with
    | nil => exact absurd rfl nonempty
    | cons best rest =>
      have all := covered best rfl zero
      rw [← proportion_eq zero] at all
      cases rest with
      | nil => exact ⟨partSlice (best, quantity), by simp [splitOrder, shareOut, positive], rfl⟩
      | cons second rest =>
        have shares := proportion_nonneg positive nonneg
        have left := shareOut_within (fun b inside => shares b (List.mem_cons_of_mem best inside))
          (le_refl (0 : Decimal))
        have gone : (shareOut (fun b => proportion quantity (best :: second :: rest) b.2)
            (second :: rest) 0).filter (fun part => 0 < part.2) = [] := by
          rw [List.filter_eq_nil_iff]
          intro part member
          simpa using (left part member).2
        refine ⟨partSlice (best, quantity), ?_, rfl⟩
        rw [splitOrder, shareOut, min_eq_right all, sub_self, List.filter_cons_of_pos
          (by simpa using positive), gone]
        rfl

theorem sum_top_pos (nonneg : ∀ b ∈ top, 0 ≤ b.2) (nonzero : (top.map (·.2)).sum ≠ 0) :
    0 < (top.map (·.2)).sum := by
  refine lt_of_le_of_ne (List.sum_nonneg fun s inside => ?_) (Ne.symm nonzero)
  obtain ⟨b, found, rfl⟩ := List.mem_map.mp inside
  exact nonneg b found

/-- The best of three has a third of the scores, and so a share. -/
theorem one_le_proportion (large : 50001 ≤ quantity) (few : top.length ≤ 3)
    (nonneg : ∀ b ∈ top, 0 ≤ b.2) (member : best ∈ top) (first : ∀ b ∈ top, b.2 ≤ best.2)
    (nonzero : (top.map (·.2)).sum ≠ 0) : 1 ≤ proportion quantity top best.2 := by
  have total := sum_top_pos nonneg nonzero
  have sum : (top.map (·.2)).sum ≤ 3 * best.2 := by
    have bound := List.sum_le_card_nsmul (top.map (·.2)) best.2 fun s inside => by
      obtain ⟨b, found, rfl⟩ := List.mem_map.mp inside
      exact first b found
    have length : ((top.map (·.2)).length : Decimal) ≤ 3 := by
      rw [List.length_map]
      exact_mod_cast few
    rw [nsmul_eq_mul] at bound
    exact bound.trans (mul_le_mul_of_nonneg_right length (nonneg best member))
  -- the best of at most three has a third of all scores
  have third : quantity / 3 ≤ quantity * best.2 / (top.map (·.2)).sum := by
    rw [div_le_div_iff₀ (by norm_num) total]
    nlinarith
  rw [proportion_eq nonzero]
  have bound := (quantize_bounds 0 .halfEven (quantity * best.2 / (top.map (·.2)).sum)).1
  norm_num at bound
  linarith

theorem numeric_proportion (score : Decimal) :
    numeric 8 (proportion quantity top score) = proportion quantity top score := by
  rw [proportion, quantize, pow_zero, div_one]
  exact (onGrid_whole _).numeric_eq

/-- Otherwise there are several slices, each with less than the quantity. -/
theorem splitOrder_several (large : 50001 ≤ quantity) (split : top = best :: second :: rest)
    (few : top.length ≤ 3) (nonneg : ∀ b ∈ top, 0 ≤ b.2) (first : ∀ b ∈ top, b.2 ≤ best.2)
    (nonzero : (top.map (·.2)).sum ≠ 0) (part : proportion quantity top best.2 < quantity) :
    1 < (splitOrder quantity top).length ∧
      ∀ slice ∈ splitOrder quantity top, numeric 8 slice.quantity < quantity := by
  have positive : 0 < quantity := by linarith
  have own := one_le_proportion large few nonneg (split ▸ List.mem_cons_self) first nonzero
  have parts : shareOut (fun b => proportion quantity top b.2) top quantity =
      (best, proportion quantity top best.2) ::
        shareOut (fun b => proportion quantity top b.2) (second :: rest)
          (quantity - proportion quantity top best.2) := by
    conv_lhs =>
      arg 2
      rw [split]
    rw [shareOut, min_eq_left part.le]
  have kept : (shareOut (fun b => proportion quantity top b.2) top quantity).filter
      (fun part => 0 < part.2) = (best, proportion quantity top best.2) ::
        (shareOut (fun b => proportion quantity top b.2) (second :: rest)
          (quantity - proportion quantity top best.2)).filter (fun part => 0 < part.2) := by
    rw [parts, List.filter_cons_of_pos (by simpa using one_pos.trans_le own)]
  rw [splitOrder, kept]
  -- the best broker's part leaves something, so that another part is positive as well
  constructor
  · obtain ⟨other, found, some⟩ : ∃ other ∈ shareOut (fun b => proportion quantity top b.2)
        (second :: rest) (quantity - proportion quantity top best.2), 0 < other.2 :=
      shareOut_exists_pos (List.cons_ne_nil second rest) (sub_pos.mpr part)
    have later : other ∈ (shareOut (fun b => proportion quantity top b.2) (second :: rest)
        (quantity - proportion quantity top best.2)).filter (fun part => 0 < part.2) :=
      List.mem_filter.mpr ⟨found, by simpa using some⟩
    have length := List.length_pos_of_mem later
    rw [List.map_cons, List.length_cons, List.length_map]
    omega
  · intro slice inside
    obtain ⟨p, found, rfl⟩ := List.mem_map.mp inside
    rcases List.mem_cons.mp found with rfl | later
    · change numeric 8 (proportion quantity top best.2) < quantity
      rw [numeric_proportion]
      exact part
    · have shares := proportion_nonneg positive nonneg
      have within := shareOut_within
        (fun b inside => shares b (split ▸ List.mem_cons_of_mem best inside))
        (sub_nonneg.mpr part.le) p (List.mem_filter.mp later).1
      have upper := (quantize_bounds 8 .halfUp p.2).2
      change quantize 8 .halfUp p.2 < quantity
      norm_num at upper
      linarith [within.2]

end Top

/-! ## The brokers of an order -/

section Scored

variable {Adapter : Type} {registry : BrokerRegistry Adapter} {rules : List RoutingRule}
  {scorecards : String → Option BrokerScorecard} {quantity : Decimal}

theorem scoreBroker_nonneg (card : Option BrokerScorecard) : 0 ≤ scoreBroker card := by
  cases card with
  | none => norm_num [scoreBroker]
  | some card =>
    have fillRate := card.fillRate_nonneg
    have slippage := card.slippage_nonneg
    have speed := card.speed_nonneg
    have cost := card.cost_nonneg
    exact quantize_nonneg (by positivity) 6 .halfEven

namespace RoutingEngine

variable {engine : RoutingEngine} {score : String → Decimal}

theorem scored_perm : (engine.scored score).Perm (engine.brokerIds.map fun id => (id, score id)) :=
  sortOn_perm _ _

theorem scored_ids : ((engine.scored score).map (·.1)).Perm engine.brokerIds := by
  have perm : ((engine.scored score).map (·.1)).Perm
      ((engine.brokerIds.map fun id => (id, score id)).map (·.1)) := scored_perm.map _
  rwa [List.map_map, show (·.1) ∘ (fun id => (id, score id)) = id from rfl, List.map_id] at perm

theorem scored_nonneg (nonneg : ∀ id ∈ engine.brokerIds, 0 ≤ score id) :
    ∀ b ∈ engine.scored score, 0 ≤ b.2 := by
  intro b member
  obtain ⟨id, inside, rfl⟩ := List.mem_map.mp (scored_perm.mem_iff.mp member)
  exact nonneg id inside

end RoutingEngine

theorem scored_nonneg : ∀ b ∈ scored registry scorecards, 0 ≤ b.2 :=
  RoutingEngine.scored_nonneg fun _ _ => scoreBroker_nonneg _

theorem length_scored : (scored registry scorecards).length = registry.brokers.length := by
  rw [scored, RoutingEngine.scored_perm.length_eq, List.length_map]
  exact List.length_map _

/-- Each broker is scored once, under its id. -/
theorem scored_ids : ((scored registry scorecards).map (·.1)).Nodup ∧
    ∀ b ∈ scored registry scorecards, b.1 ∈ registry.listBrokerIds := by
  have perm : ((scored registry scorecards).map (·.1)).Perm registry.listBrokerIds := RoutingEngine.scored_ids
  exact ⟨perm.nodup_iff.mpr registry.ids, fun b member => perm.mem_iff.mp (List.mem_map_of_mem member)⟩

theorem scored_first {best : String × Decimal} {rest : List (String × Decimal)}
    (same : scored registry scorecards = best :: rest) :
    ∀ b ∈ best :: rest, b.2 ≤ best.2 := by
  have listed : (registry.listBrokerIds.map fun id => (id, scoreBroker (scorecards id))).Pairwise
      fun _ _ => True := List.pairwise_of_forall fun _ _ => trivial
  have ordered := sortOn_pairwise (fun broker : String × Decimal => -broker.2) listed
  change (scored registry scorecards).Pairwise _ at ordered
  rw [same] at ordered
  intro b member
  rcases List.mem_cons.mp member with rfl | later
  · exact le_rfl
  · rcases (List.pairwise_cons.mp ordered).1 b later with less | ⟨equal, -⟩
    · exact (neg_lt_neg_iff.mp less).le
    · exact (neg_inj.mp equal).ge

theorem above_threshold (large : splitThreshold < truncate quantity) : 50001 ≤ quantity := by
  have whole : (50001 : Int) ≤ truncate quantity := large
  unfold truncate at whole
  split at whole
  · rename_i negative
    have below : quantity.ceil ≤ 0 := Rat.ceil_le_iff.mpr (by exact_mod_cast negative.le)
    omega
  · exact_mod_cast Rat.le_floor_iff.mp whole

/-- Where an order does not split, there is one slice of all of it. -/
theorem routeOrder_whole (whole : ¬ Splits registry rules scorecards quantity) :
    ∃ slice, routeOrder registry rules scorecards quantity = [slice] ∧
      slice.quantity = quantity := by
  have count : (RoutingEngine.ofRegistry registry).brokerIds.length = registry.brokers.length := List.length_map _
  unfold routeOrder RoutingEngine.routeOrder
  split
  · exact ⟨_, rfl, rfl⟩
  · exact ⟨_, rfl, rfl⟩
  · rename_i first second rest listed
    have several : 1 < registry.brokers.length := by
      rw [← count, listed, List.length_cons, List.length_cons]
      omega
    have scores : (scored registry scorecards).length = registry.brokers.length := length_scored
    split
    · exact ⟨_, rfl, rfl⟩
    · rename_i unruled
      dsimp only
      split
      · rename_i split
        have large := above_threshold split.1
        have kept : (scored registry scorecards).take 3 ≠ [] := by
          intro none
          have length := congrArg List.length none
          rw [List.length_take, List.length_nil] at length
          omega
        refine splitOrder_single kept (by linarith)
          (fun b inside => scored_nonneg b (List.mem_of_mem_take inside)) ?_
        intro best head nonzero
        by_contra part
        have first : best.2 ∈ (topScores registry scorecards).head? := by
          rw [topScores, List.head?_map]
          exact Option.mem_map_of_mem (·.2) head
        exact whole ⟨several, unruled, split.1, best.2, first, nonzero, not_le.mp part⟩
      · cases sorted : (RoutingEngine.ofRegistry registry).scored fun id => scoreBroker (scorecards id) with
        | nil =>
          rw [scored, sorted, List.length_nil] at scores
          omega
        | cons best others => exact ⟨_, rfl, rfl⟩

theorem mem_splitOrder {top : List (String × Decimal)} {slice : RoutingSlice}
    (member : slice ∈ splitOrder quantity top) : slice.brokerId ∈ top.map (·.1) := by
  obtain ⟨part, found, rfl⟩ := List.mem_map.mp member
  have inside := List.mem_map_of_mem (f := (·.1)) (List.mem_filter.mp found).1
  rw [shareOut_fst] at inside
  exact List.mem_map_of_mem inside

theorem splitOrder_ids {top : List (String × Decimal)} (distinct : (top.map (·.1)).Nodup) :
    ((splitOrder quantity top).map (·.brokerId)).Nodup := by
  refine List.Nodup.sublist ?_ distinct
  have shared : (shareOut (fun b => proportion quantity top b.2) top quantity).map (·.1) = top :=
    shareOut_fst top quantity
  rw [splitOrder, List.map_map]
  conv_rhs => rw [← shared, List.map_map]
  exact List.filter_sublist.map _

/-- Where an order splits, each slice has less than all of it. -/
theorem routeOrder_split (split : Splits registry rules scorecards quantity) :
    0 < quantity ∧ 1 < (routeOrder registry rules scorecards quantity).length ∧
      (∀ slice ∈ routeOrder registry rules scorecards quantity,
        numeric 8 slice.quantity < quantity ∧ slice.brokerId ∈ registry.listBrokerIds) ∧
      ((routeOrder registry rules scorecards quantity).map (·.brokerId)).Nodup := by
  obtain ⟨several, unruled, above, score, head, nonzero, part⟩ := split
  have large := above_threshold above
  have count : (RoutingEngine.ofRegistry registry).brokerIds.length = registry.brokers.length := List.length_map _
  have unruled' : (RoutingEngine.ofRegistry registry).matchingRule rules quantity = none := unruled
  have scores : (scored registry scorecards).length = registry.brokers.length := length_scored
  have route : routeOrder registry rules scorecards quantity =
      splitOrder quantity ((scored registry scorecards).take 3) := by
    unfold routeOrder RoutingEngine.routeOrder
    split
    · rename_i none
      rw [none, List.length_nil] at count
      omega
    · rename_i one
      rw [one, List.length_singleton] at count
      omega
    · rw [unruled']
      exact if_pos ⟨above, by rw [← scores] at several; exact several⟩
  have ids : ((scored registry scorecards).map (·.1)).Nodup ∧
      ∀ b ∈ scored registry scorecards, b.1 ∈ registry.listBrokerIds := scored_ids
  cases sorted : scored registry scorecards with
  | nil =>
    rw [sorted, List.length_nil] at scores
    omega
  | cons best others =>
    cases others with
    | nil =>
      rw [sorted, List.length_singleton] at scores
      omega
    | cons second rest =>
      have first : ∀ b ∈ (scored registry scorecards).take 3, b.2 ≤ best.2 := fun b inside =>
        scored_first sorted b (sorted ▸ List.mem_of_mem_take inside)
      have top : (scored registry scorecards).take 3 = best :: second :: rest.take 1 := by
        rw [sorted]
        rfl
      have share : score = best.2 := by
        rw [topScores, top] at head
        exact (Option.some.inj head).symm
      rw [topScores] at nonzero part
      rw [share, ← proportion_eq nonzero] at part
      obtain ⟨slices, less⟩ := splitOrder_several large top (List.length_take_le 3 _)
        (fun b inside => scored_nonneg b (List.mem_of_mem_take inside)) first nonzero part
      rw [route]
      refine ⟨by linarith, slices, fun slice inside => ⟨less slice inside, ?_⟩, ?_⟩
      · obtain ⟨b, scoredId, named⟩ := List.mem_map.mp (mem_splitOrder inside)
        exact named ▸ ids.2 b (List.mem_of_mem_take scoredId)
      · exact splitOrder_ids (ids.1.sublist ((List.take_sublist 3 _).map _))

end Scored

/-! ## Decisions -/

section Decisions

variable {Adapter : Type} {registry : BrokerRegistry Adapter} {broker : Adapter}
  {rules : List RoutingRule} {scorecards : String → Option BrokerScorecard}
  {saved : Nat → Bool} {orderId : String} {quantity : Decimal}

/-- Registered brokers have their own adapters. -/
theorem resolve_inj {first second : String} (left : first ∈ registry.listBrokerIds)
    (right : second ∈ registry.listBrokerIds)
    (same : registry.resolve broker (some first) = registry.resolve broker (some second)) :
    first = second := by
  obtain ⟨⟨id, adapter⟩, held, rfl⟩ := List.mem_map.mp left
  obtain ⟨⟨other, adapter'⟩, held', rfl⟩ := List.mem_map.mp right
  have found := (mem_iff_lookup registry.ids).mp held
  have found' := (mem_iff_lookup registry.ids).mp held'
  simp only [BrokerRegistry.resolve, Option.bind_some, found, found', Option.getD_some] at same
  exact congrArg Prod.fst (List.inj_on_of_nodup_map registry.own held held' same)

theorem recordDecisions_ids (slices : List RoutingSlice) :
    ((recordDecisions orderId saved slices).map (·.brokerId)).Sublist
      (slices.map (·.brokerId)) := by
  have slice : slices.map (·.brokerId) = slices.zipIdx.map fun slice => slice.1.brokerId := by
    conv_lhs => rw [← List.zipIdx_map_fst 0 slices, List.map_map]
    rfl
  rw [slice, recordDecisions, List.map_map]
  exact List.filter_sublist.map _

theorem mem_recordDecisions {slices : List RoutingSlice} {decision : RoutingDecisionRecord}
    (member : decision ∈ recordDecisions orderId saved slices) :
    ∃ slice ∈ slices, decision = slice.record orderId := by
  obtain ⟨⟨slice, index⟩, found, rfl⟩ := List.mem_map.mp member
  exact ⟨slice, List.fst_mem_of_mem_zipIdx (List.mem_filter.mp found).1, rfl⟩

variable [DecidableEq Adapter]

/-- The order goes as a whole to one broker. -/
theorem submittedTo_eq (adapter : Adapter) :
    submittedTo (routeAndSubmit registry broker rules scorecards saved orderId quantity) adapter =
      if registry.resolve broker
          (resolveBrokerId (routeOrder registry rules scorecards quantity)) = adapter then
        quantity else 0 := by
  unfold submittedTo routeAndSubmit
  split <;> simp_all

theorem recordedFor_single {slice : RoutingSlice}
    (route : routeOrder registry rules scorecards quantity = [slice])
    (all : slice.quantity = quantity) (adapter : Adapter) :
    recordedFor registry broker
        (routeAndSubmit registry broker rules scorecards saved orderId quantity) adapter =
      if saved 0 = true ∧ registry.resolve broker (some slice.brokerId) = adapter then
        numeric 8 quantity else 0 := by
  unfold recordedFor routeAndSubmit recordDecisions
  rw [route]
  by_cases kept : saved 0 = true
  · by_cases own : registry.resolve broker (some slice.brokerId) = adapter
    · simp [kept, own, RoutingSlice.record, all]
    · simp [kept, own, RoutingSlice.record]
  · simp [kept]

/-- At most one of several decisions is for the default broker. -/
theorem recordedFor_split (split : Splits registry rules scorecards quantity) :
    recordedFor registry broker
        (routeAndSubmit registry broker rules scorecards saved orderId quantity) broker <
      quantity := by
  obtain ⟨positive, -, slices, distinct⟩ := routeOrder_split split
  unfold recordedFor
  set decisions := (routeAndSubmit registry broker rules scorecards saved orderId
    quantity).decisions with recorded
  have ids : (decisions.map (·.brokerId)).Nodup :=
    distinct.sublist (recordDecisions_ids (routeOrder registry rules scorecards quantity))
  have from_slices : ∀ decision ∈ decisions, decision.quantity < quantity ∧
      decision.brokerId ∈ registry.listBrokerIds := by
    intro decision member
    obtain ⟨slice, inside, rfl⟩ := mem_recordDecisions member
    exact slices slice inside
  -- two decisions for one adapter would have one broker id
  cases own : decisions.filter fun decision =>
      registry.resolve broker (some decision.brokerId) = broker with
  | nil => simpa using positive
  | cons first others =>
    have held : ∀ decision ∈ first :: others, decision ∈ decisions ∧
        registry.resolve broker (some decision.brokerId) = broker := fun decision member => by
      have found := List.mem_filter.mp (own ▸ member)
      exact ⟨found.1, of_decide_eq_true found.2⟩
    have left := held first List.mem_cons_self
    cases others with
    | nil => simpa using (from_slices first left.1).1
    | cons second others =>
      have right := held second (List.mem_cons_of_mem first List.mem_cons_self)
      have same := resolve_inj (from_slices first left.1).2 (from_slices second right.1).2
        (left.2.trans right.2.symm)
      have kept := ids.sublist ((List.filter_sublist (p := fun decision : RoutingDecisionRecord =>
        registry.resolve broker (some decision.brokerId) = broker)).map (·.brokerId))
      rw [own, List.map_cons, List.map_cons, same] at kept
      exact absurd List.mem_cons_self (List.nodup_cons.mp kept).1

/-- What is executed is what is recorded for an order of one slice, whose quantity fits its
column, when the insert of its decision succeeds. -/
theorem executedAsRecorded_iff :
    ExecutedAsRecorded registry broker
        (routeAndSubmit registry broker rules scorecards saved orderId quantity) ↔
      (saved 0 = true ∨ quantity = 0) ∧ OnGrid 8 quantity ∧
        ¬ Splits registry rules scorecards quantity := by
  constructor
  · intro executed
    have whole : ¬ Splits registry rules scorecards quantity := by
      intro split
      have less : recordedFor registry broker
          (routeAndSubmit registry broker rules scorecards saved orderId quantity) broker <
            quantity := recordedFor_split split
      obtain ⟨-, several, -, -⟩ := routeOrder_split split
      have slices : resolveBrokerId (routeOrder registry rules scorecards quantity) = none := by
        match routeOrder registry rules scorecards quantity, several with
        | _ :: _ :: _, _ => rfl
      have unresolved : registry.resolve broker none = broker := rfl
      rw [executed broker, submittedTo_eq, slices, if_pos unresolved] at less
      exact lt_irrefl quantity less
    obtain ⟨slice, route, all⟩ := routeOrder_whole whole
    -- only the broker of the one slice tells whether its decision was stored
    have own := executed (registry.resolve broker (some slice.brokerId))
    rw [recordedFor_single route all, submittedTo_eq, route] at own
    by_cases kept : saved 0 = true
    · rw [if_pos ⟨kept, rfl⟩, resolveBrokerId, if_pos rfl] at own
      exact ⟨.inl kept, own ▸ onGrid_numeric 8 quantity, whole⟩
    · rw [if_neg (fun both => kept both.1), resolveBrokerId, if_pos rfl] at own
      exact ⟨.inr own.symm, own ▸ onGrid_zero, whole⟩
  · rintro ⟨kept, grid, whole⟩ adapter
    obtain ⟨slice, route, all⟩ := routeOrder_whole whole
    rw [recordedFor_single route all, submittedTo_eq, route, resolveBrokerId, grid.numeric_eq]
    rcases kept with kept | nothing
    · simp [kept]
    · simp [nothing]

end Decisions

def twoBrokers : BrokerRegistry String where
  brokers := [("GS", "goldman"), ("JPM", "jpmorgan")]
  ids := by decide
  own := by decide

/-- An order without rules and scorecards, whose default broker is simulated. -/
def splitOrderRouted : Routed String :=
  routeAndSubmit twoBrokers "simulated" [] (fun _ => none) (fun _ => true) "o1" 60000

/-- It has a decision of 30000 for either broker, and goes to neither. -/
theorem split_executed_elsewhere :
    splitOrderRouted.decisions.map (fun decision => (decision.brokerId, decision.quantity)) =
        [("GS", 30000), ("JPM", 30000)] ∧
      splitOrderRouted.submissions = [("simulated", 60000)] ∧
      ¬ ExecutedAsRecorded twoBrokers "simulated" splitOrderRouted := by
  refine ⟨by decide +kernel, by decide +kernel, fun executed => ?_⟩
  have own := executed "simulated"
  revert own
  decide +kernel

/-! ## An order is routed whole, whatever the threshold of the engine and the scores of the brokers

The engine is taken with its own split threshold and with any scores; `routeOrder` is
the engine with the default threshold and the scores of the scorecards.
-/

namespace RoutingEngine

variable (engine : RoutingEngine) (rules : List RoutingRule) (score : String → Decimal)
  (quantity : Decimal)

/-- Slices that place all of an order with brokers of the engine. -/
structure Places (slices : List RoutingSlice) : Prop where
  brokers : (slices.map (·.brokerId)).Nodup
  registered : ∀ slice ∈ slices, slice.brokerId ∈ engine.brokerIds
  some_each : ∀ slice ∈ slices, 0 < slice.quantity
  whole : (slices.map (·.quantity)).sum = quantity

variable {engine rules score quantity}

theorem Places.single {slice : RoutingSlice} (registered : slice.brokerId ∈ engine.brokerIds)
    (whole : slice.quantity = quantity) (positive : 0 < quantity) : engine.Places quantity [slice] where
  brokers := List.nodup_singleton _
  registered := List.forall_mem_singleton.mpr registered
  some_each := List.forall_mem_singleton.mpr (whole ▸ positive)
  whole := by simpa using whole

/-- What is skipped of the parts is nothing: no part is negative. -/
theorem sum_splitOrder {top : List (String × Decimal)} (nonempty : top ≠ []) (positive : 0 < quantity)
    (nonneg : ∀ b ∈ top, 0 ≤ b.2) : ((splitOrder quantity top).map (·.quantity)).sum = quantity := by
  have shares : ∀ b ∈ top, 0 ≤ proportion quantity top b.2 := fun b member =>
    proportion_nonneg positive nonneg b member
  have parts := shareOut_within shares positive.le
  have kept : ∀ part ∈ shareOut (fun b : String × Decimal => proportion quantity top b.2) top quantity,
      (if 0 < part.2 then part.2 else 0) = part.2 := by
    intro part member
    split
    · rfl
    · exact le_antisymm (parts part member).1 (not_lt.mp ‹_›)
  calc ((splitOrder quantity top).map (·.quantity)).sum
      = ((shareOut (fun b => proportion quantity top b.2) top quantity).map fun part =>
          if 0 < part.2 then part.2 else 0).sum := by
        rw [splitOrder, List.map_map]
        exact (sum_map_filter _ _ _).trans (by simp [partSlice])
    _ = ((shareOut (fun b => proportion quantity top b.2) top quantity).map (·.2)).sum :=
        congrArg List.sum (List.map_congr_left kept)
    _ = quantity := sum_shareOut nonempty quantity

theorem places_split (nonneg : ∀ id ∈ engine.brokerIds, 0 ≤ score id) (positive : 0 < quantity)
    (several : 1 < (engine.scored score).length) :
    engine.Places quantity (splitOrder quantity ((engine.scored score).take 3)) where
  brokers := by
    apply splitOrder_ids
    exact (scored_ids.nodup_iff.mpr engine.ids).sublist ((List.take_sublist 3 _).map _)
  registered := by
    intro slice member
    obtain ⟨b, inside, named⟩ := List.mem_map.mp (mem_splitOrder member)
    rw [← named]
    exact scored_ids.mem_iff.mp (List.mem_map_of_mem (List.mem_of_mem_take inside))
  some_each := by
    intro slice member
    obtain ⟨part, kept, rfl⟩ := List.mem_map.mp member
    exact of_decide_eq_true (List.mem_filter.mp kept).2
  whole := by
    apply sum_splitOrder _ positive fun b inside => scored_nonneg nonneg b (List.mem_of_mem_take inside)
    intro none
    have length := congrArg List.length none
    rw [List.length_take, List.length_nil] at length
    omega

/-- What matches fits the order, and prefers a registered broker. -/
theorem matchingRule_matches {rule : RoutingRule}
    (found : engine.matchingRule rules quantity = some rule) : rule.Matches engine.brokerIds quantity := by
  have holds := List.find?_some found
  simpa using holds

theorem routes_rule {rule : RoutingRule} (found : engine.matchingRule rules quantity = some rule) :
    ∃ slice, engine.routeOrder rules score quantity = [slice] ∧
      slice.brokerId = rule.preferredBrokerId ∧ slice.quantity = quantity := by
  have preferred := (matchingRule_matches found).1
  unfold routeOrder
  split
  · rename_i none
    rw [none] at preferred
    cases preferred
  · -- a rule matches only with a registered broker, of which there is one
    rename_i brokerId only
    rw [only, List.mem_singleton] at preferred
    exact ⟨_, rfl, preferred.symm, rfl⟩
  · rw [found]
    exact ⟨_, rfl, rfl, rfl⟩

theorem splits_above (several : 1 < (engine.routeOrder rules score quantity).length) :
    engine.splitThreshold < truncate quantity := by
  unfold routeOrder at several
  split at several
  · simp at several
  · simp at several
  · split at several
    · simp at several
    · dsimp only at several
      split at several
      · rename_i split
        exact split.1
      · cases sorted : (engine.scored score).head? with
        | none => simp [sorted] at several
        | some best => simp [sorted] at several

theorem places (nonneg : ∀ id ∈ engine.brokerIds, 0 ≤ score id) (registered : engine.brokerIds ≠ [])
    (positive : 0 < quantity) : engine.Places quantity (engine.routeOrder rules score quantity) := by
  have count : (engine.scored score).length = engine.brokerIds.length := by
    rw [scored_perm.length_eq, List.length_map]
  unfold routeOrder
  split
  · rename_i none
    exact absurd none registered
  · rename_i brokerId only
    exact .single (only ▸ List.mem_singleton_self brokerId) rfl positive
  · rename_i first second rest listed
    split
    · rename_i rule found
      exact .single (matchingRule_matches found).1 rfl positive
    · dsimp only
      split
      · rename_i split
        exact places_split nonneg positive split.2
      · cases sorted : engine.scored score with
        | nil =>
          rw [sorted, listed] at count
          cases count
        | cons best others =>
          exact .single (scored_ids.mem_iff.mp (sorted ▸ List.mem_map_of_mem List.mem_cons_self)) rfl
            positive

/-- Every order is placed whole, in parts only above the threshold, and with the broker that the
first matching rule prefers where there is one. -/
theorem routes_whole (engine : RoutingEngine) (rules : List RoutingRule) (score : String → Decimal)
    (quantity : Decimal) (registered : engine.brokerIds ≠ [])
    (nonneg : ∀ id ∈ engine.brokerIds, 0 ≤ score id) (positive : 0 < quantity) :
    engine.Places quantity (engine.routeOrder rules score quantity) ∧
      (1 < (engine.routeOrder rules score quantity).length →
        engine.splitThreshold < truncate quantity) ∧
      ∀ rule ∈ rules, rule.Matches engine.brokerIds quantity →
        ∃ first slice, engine.matchingRule rules quantity = some first ∧
          engine.routeOrder rules score quantity = [slice] ∧
          slice.brokerId = first.preferredBrokerId ∧ slice.quantity = quantity := by
  refine ⟨places nonneg registered positive, splits_above, fun rule listed fits => ?_⟩
  have matching : (engine.matchingRule rules quantity).isSome :=
    List.find?_isSome.mpr ⟨rule, listed, by simpa using fits⟩
  obtain ⟨first, found⟩ := Option.isSome_iff_exists.mp matching
  obtain ⟨slice, routed, taken⟩ := routes_rule found
  exact ⟨first, slice, found, routed, taken⟩

/-- Three brokers without a score share a large order. -/
def threeBrokers : RoutingEngine where
  brokerIds := ["alpha", "beta", "gamma"]
  ids := by decide
  splitThreshold := 100

theorem routes_whole_unscored :
    threeBrokers.Places 250 (threeBrokers.routeOrder [] (fun _ => 0) 250) :=
  (routes_whole threeBrokers [] (fun _ => 0) 250 (by decide) (by simp) (by norm_num)).1

end RoutingEngine

end MiniHedge.Orders
