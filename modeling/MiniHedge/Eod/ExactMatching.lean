import MiniHedge.Eod.ClosedBreaks
import MiniHedge.Library.Groups

/-! What the matching of positions reports about the three sources.

A break names a pair of sources. The difference of every break but one of the broker
with the administrator is taken between the internal quantity and the broker's, and an
instrument with two breaks counts twice among those that are not matched.
-/

set_option autoImplicit false

namespace MiniHedge.Eod

open MiniHedge.Python MiniHedge.Library

inductive Source where
  | internal
  | broker
  | admin
  deriving DecidableEq, Repr

/-- The sources that a break of positions is between. -/
def BreakType.pair : BreakType → Option (Source × Source)
  | .missingInternal | .missingBroker | .quantityMismatch => some (.internal, .broker)
  | .missingAdmin | .internalAdminMismatch => some (.internal, .admin)
  | .brokerAdminMismatch => some (.broker, .admin)
  | .cashMismatch => none

namespace Reconciliation

variable (r : Reconciliation)

/-- What a source has of an instrument, where the source is available. -/
def quantity (iid : String) : Source → Option Decimal
  | .internal => some (quantityOf r.internalMap iid)
  | .broker => some (quantityOf r.broker iid)
  | .admin => r.admin.map (quantityOf · iid)

/-- The available sources have the same of an instrument. -/
def Agree (iid : String) : Prop :=
  ∀ s t x y, r.quantity iid s = some x → r.quantity iid t = some y → x = y

def AllDiffer (iid : String) : Prop :=
  ∀ s t x y, s ≠ t → r.quantity iid s = some x → r.quantity iid t = some y → x ≠ y

/-- `matched_positions`, of the summary and of the result. -/
def matchedPositions : ℤ := r.allInstruments.length - r.matchPositions.length

/-- The breaks say what the sources disagree about, and no more. -/
structure ExactMatching : Prop where
  found : ∀ iid, (∃ p ∈ r.matchPositions, p.instrumentId = iid) ↔ ¬ r.Agree iid
  disagree : ∀ p ∈ r.matchPositions, ∃ s t x y, p.breakType.pair = some (s, t) ∧
    r.quantity p.instrumentId s = some x ∧ r.quantity p.instrumentId t = some y ∧ x ≠ y
  once : (r.matchPositions.map fun p => (p.instrumentId, p.breakType.pair)).Nodup
  allDiffer : ∀ p ∈ r.matchPositions, p.breakType = .brokerAdminMismatch → r.AllDiffer p.instrumentId
  difference : ∀ p ∈ r.matchPositions, ∀ s t x y, p.breakType.pair = some (s, t) →
    r.quantity p.instrumentId s = some x → r.quantity p.instrumentId t = some y →
      p.difference = x - y ∧ (p.isMaterial = true ↔ materialThreshold < |x - y|)
  matched : r.matchedPositions =
    (r.allInstruments.filter fun iid => ∀ p ∈ r.matchPositions, p.instrumentId ≠ iid).length

/-- The administrator has what the others agree about, and where they do not agree the broker and
the administrator have the same of it, or one of them nothing. -/
def AdminFits : Prop :=
  ∀ admin ∈ r.admin, ∀ iid,
    (quantityOf r.internalMap iid = quantityOf r.broker iid →
      quantityOf r.broker iid = quantityOf admin iid) ∧
    (quantityOf r.internalMap iid ≠ quantityOf r.broker iid →
      quantityOf r.broker iid = quantityOf admin iid ∨ quantityOf r.broker iid = 0 ∨
        quantityOf admin iid = 0)

/-- What the loop appends for an instrument. -/
def breaksAt (iid : String) : List ReconciliationBreak :=
  internalBreaks iid (quantityOf r.internalMap iid) (quantityOf r.broker iid)
      (r.admin.map (quantityOf · iid)) ++
    brokerBreaks iid (quantityOf r.internalMap iid) (quantityOf r.broker iid)
      (r.admin.map (quantityOf · iid))

variable {r}

theorem mem_breaksAt {iid : String} {p : ReconciliationBreak} : p ∈ r.breaksAt iid ↔
    (quantityOf r.internalMap iid ≠ quantityOf r.broker iid ∧
      p = breakOf iid (pairType (quantityOf r.internalMap iid) (quantityOf r.broker iid))
        (quantityOf r.internalMap iid) (quantityOf r.broker iid) (r.admin.map (quantityOf · iid))) ∨
    (quantityOf r.internalMap iid = quantityOf r.broker iid ∧ ∃ admin ∈ r.admin,
      quantityOf admin iid ≠ quantityOf r.internalMap iid ∧
        p = breakOf iid (if quantityOf admin iid = 0 then .missingAdmin else .internalAdminMismatch)
          (quantityOf r.internalMap iid) (quantityOf r.broker iid) (some (quantityOf admin iid))) ∨
    ∃ admin ∈ r.admin, quantityOf r.broker iid ≠ quantityOf admin iid ∧
      quantityOf r.internalMap iid ≠ quantityOf r.broker iid ∧ quantityOf r.broker iid ≠ 0 ∧
        quantityOf admin iid ≠ 0 ∧
        p = brokerAdmin iid (quantityOf r.internalMap iid) (quantityOf r.broker iid)
          (quantityOf admin iid) := by
  rw [breaksAt, List.mem_append, mem_internalBreaks, mem_brokerBreaks, or_assoc]
  cases given : r.admin with
  | none => simp
  | some admin => simp

theorem instrument_of_mem {iid : String} {p : ReconciliationBreak} (member : p ∈ r.breaksAt iid) :
    p.instrumentId = iid := by
  rcases mem_breaksAt.mp member with ⟨-, rfl⟩ | ⟨-, admin, -, -, rfl⟩ | ⟨admin, -, -, -, -, -, rfl⟩
  · rfl
  · rfl
  · rfl

/-- Only the instruments of some source are visited, and the others have no breaks. -/
theorem breaksAt_other {iid : String} (other : iid ∉ r.allInstruments) : r.breaksAt iid = [] := by
  have nothing : ∀ admin, r.admin = some admin ∨ admin = [] →
      quantityOf r.internalMap iid = 0 ∧ quantityOf r.broker iid = 0 ∧ quantityOf admin iid = 0 := by
    intro admin given
    refine ⟨?_, ?_, ?_⟩
    · by_contra held
      exact other (mem_allInstruments given (.inl held))
    · by_contra held
      exact other (mem_allInstruments given (.inr (.inl held)))
    · by_contra held
      exact other (mem_allInstruments given (.inr (.inr held)))
  rw [breaksAt]
  cases given : r.admin with
  | none =>
    obtain ⟨internal, broker, -⟩ := nothing [] (.inr rfl)
    simp [internal, broker, internalBreaks, brokerBreaks]
  | some admin =>
    obtain ⟨internal, broker, administrator⟩ := nothing admin (.inl given)
    simp [internal, broker, administrator, internalBreaks, brokerBreaks]

theorem mem_matched {p : ReconciliationBreak} :
    p ∈ r.matchPositions ↔ p ∈ r.breaksAt p.instrumentId := by
  have listed : r.matchPositions = r.allInstruments.flatMap r.breaksAt := rfl
  rw [listed, List.mem_flatMap]
  constructor
  · rintro ⟨iid, -, member⟩
    rwa [instrument_of_mem member]
  · intro member
    refine ⟨p.instrumentId, ?_, member⟩
    by_contra other
    rw [breaksAt_other other] at member
    cases member

theorem matched_of_mem {iid : String} {p : ReconciliationBreak} (member : p ∈ r.breaksAt iid) :
    p ∈ r.matchPositions := by
  rw [mem_matched, instrument_of_mem member]
  exact member

/-! ## What always holds -/

theorem agree_iff {iid : String} : r.Agree iid ↔
    quantityOf r.internalMap iid = quantityOf r.broker iid ∧
      ∀ admin ∈ r.admin, quantityOf admin iid = quantityOf r.internalMap iid := by
  constructor
  · intro agree
    refine ⟨agree .internal .broker _ _ rfl rfl, fun admin given => ?_⟩
    exact agree .admin .internal _ _ (by rw [quantity, given, Option.map_some]) rfl
  · rintro ⟨pair, admin⟩
    have same : ∀ s x, r.quantity iid s = some x → x = quantityOf r.internalMap iid := by
      intro s x held
      cases s with
      | internal => exact (Option.some.inj held).symm
      | broker => exact (Option.some.inj held).symm.trans pair.symm
      | admin =>
        obtain ⟨given, found, rfl⟩ := Option.map_eq_some_iff.mp held
        exact admin given found
    intro s t x y left right
    rw [same s x left, same t y right]

/-- An instrument has a break exactly when its sources do not agree. -/
theorem breaksAt_eq_nil {iid : String} : r.breaksAt iid = [] ↔ r.Agree iid := by
  rw [agree_iff, List.eq_nil_iff_forall_not_mem]
  constructor
  · intro none
    by_cases pair : quantityOf r.internalMap iid = quantityOf r.broker iid
    · refine ⟨pair, fun admin given => ?_⟩
      by_contra other
      exact none _ (mem_breaksAt.mpr (.inr (.inl ⟨pair, admin, given, other, rfl⟩)))
    · exact absurd (mem_breaksAt.mpr (.inl ⟨pair, rfl⟩)) (none _)
  · rintro ⟨pair, admin⟩ p member
    rcases mem_breaksAt.mp member with ⟨other, -⟩ | ⟨-, given, held, other, -⟩ | ⟨-, -, -, other, -⟩
    · exact other pair
    · exact other (admin given held)
    · exact other pair

theorem found_iff (iid : String) : (∃ p ∈ r.matchPositions, p.instrumentId = iid) ↔ ¬ r.Agree iid := by
  rw [← breaksAt_eq_nil]
  constructor
  · rintro ⟨p, member, rfl⟩
    exact List.ne_nil_of_mem (mem_matched.mp member)
  · intro some_found
    obtain ⟨p, member⟩ := List.exists_mem_of_ne_nil _ some_found
    exact ⟨p, matched_of_mem member, instrument_of_mem member⟩

theorem pair_pairType (x y : Decimal) : (pairType x y).pair = some (.internal, .broker) := by
  unfold pairType
  split
  · rfl
  · split <;> rfl

theorem disagree_of_mem {p : ReconciliationBreak} (member : p ∈ r.matchPositions) :
    ∃ s t x y, p.breakType.pair = some (s, t) ∧ r.quantity p.instrumentId s = some x ∧
      r.quantity p.instrumentId t = some y ∧ x ≠ y := by
  have own := mem_matched.mp member
  generalize p.instrumentId = iid at own
  rcases mem_breaksAt.mp own with ⟨other, rfl⟩ | ⟨-, admin, given, other, rfl⟩ |
    ⟨admin, given, other, -, -, -, rfl⟩
  · exact ⟨.internal, .broker, _, _, pair_pairType _ _, rfl, rfl, other⟩
  · refine ⟨.internal, .admin, _, _, ?_, rfl, ?_, other.symm⟩
    · unfold breakOf
      dsimp only
      split <;> rfl
    · rw [quantity, given, Option.map_some]
  · exact ⟨.broker, .admin, _, _, rfl, rfl, by rw [quantity, given, Option.map_some], other⟩

theorem length_internalBreaks (iid : String) (intQty brkQty : Decimal) (admQty : Option Decimal) :
    (internalBreaks iid intQty brkQty admQty).length ≤ 1 := by
  unfold internalBreaks
  split
  · exact le_rfl
  · split
    · exact le_rfl
    · split
      · exact le_rfl
      · split
        · exact Nat.zero_le 1
        · split
          · exact le_rfl
          · split
            · exact le_rfl
            · exact Nat.zero_le 1

theorem length_brokerBreaks (iid : String) (intQty brkQty : Decimal) (admQty : Option Decimal) :
    (brokerBreaks iid intQty brkQty admQty).length ≤ 1 := by
  unfold brokerBreaks
  split
  · exact Nat.zero_le 1
  · split
    · exact Nat.zero_le 1
    · split
      · exact le_rfl
      · exact Nat.zero_le 1

theorem nodup_of_length_le_one {α : Type} {xs : List α} (few : xs.length ≤ 1) : xs.Nodup := by
  match xs, few with
  | [], _ => exact List.nodup_nil
  | [x], _ => exact List.nodup_singleton x

theorem pairs_distinct (iid : String) : ((r.breaksAt iid).map fun p => p.breakType.pair).Nodup := by
  rw [breaksAt, List.map_append, List.nodup_append]
  refine ⟨?_, ?_, ?_⟩
  · apply nodup_of_length_le_one
    rw [List.length_map]
    exact length_internalBreaks _ _ _ _
  · apply nodup_of_length_le_one
    rw [List.length_map]
    exact length_brokerBreaks _ _ _ _
  · -- the first part is about the internal quantity, the second is not
    intro first left second right same
    obtain ⟨p, inFirst, rfl⟩ := List.mem_map.mp left
    obtain ⟨q, inSecond, rfl⟩ := List.mem_map.mp right
    obtain ⟨adm, -, -, -, -, -, rfl⟩ := mem_brokerBreaks.mp inSecond
    rcases mem_internalBreaks.mp inFirst with ⟨-, rfl⟩ | ⟨-, adm', -, -, rfl⟩
    · have pair := (pair_pairType _ _).symm.trans same
      cases pair
    · unfold breakOf at same
      dsimp only at same
      split at same <;> cases same

/-- No pair of sources is reported twice for an instrument. -/
theorem once : (r.matchPositions.map fun p => (p.instrumentId, p.breakType.pair)).Nodup := by
  have listed : r.matchPositions = r.allInstruments.flatMap r.breaksAt := rfl
  have distinct : r.allInstruments.Nodup :=
    (r.order.perm _).nodup_iff.mpr (nodup_eraseDups _)
  rw [listed, List.map_flatMap, List.nodup_flatMap]
  constructor
  · intro iid _
    exact List.Nodup.of_map Prod.snd (by simpa [Function.comp_def] using pairs_distinct iid)
  · apply distinct.imp
    intro first second apart
    rw [Function.onFun_apply, List.disjoint_left]
    intro entry left right
    obtain ⟨p, inFirst, rfl⟩ := List.mem_map.mp left
    obtain ⟨q, inSecond, same⟩ := List.mem_map.mp right
    apply apart
    rw [← instrument_of_mem inFirst, ← instrument_of_mem inSecond]
    exact (Prod.mk.inj same).1.symm

/-! ## What holds where the administrator fits -/

theorem length_breaksAt_iff {iid : String} : (r.breaksAt iid).length ≤ 1 ↔
    ∀ admin ∈ r.admin, quantityOf r.internalMap iid ≠ quantityOf r.broker iid →
      quantityOf r.broker iid = quantityOf admin iid ∨ quantityOf r.broker iid = 0 ∨
        quantityOf admin iid = 0 := by
  have first := length_internalBreaks iid (quantityOf r.internalMap iid) (quantityOf r.broker iid)
    (r.admin.map (quantityOf · iid))
  rw [breaksAt, List.length_append]
  constructor
  · intro few admin given pair
    by_contra fits
    simp only [not_or] at fits
    have pairBreak := List.length_pos_of_mem (mem_internalBreaks.mpr (.inl ⟨pair, rfl⟩) :
      _ ∈ internalBreaks iid (quantityOf r.internalMap iid) (quantityOf r.broker iid)
        (r.admin.map (quantityOf · iid)))
    have adminBreak := List.length_pos_of_mem (mem_brokerBreaks.mpr
      ⟨quantityOf admin iid, by rw [given, Option.map_some], fits.1, pair, fits.2.1, fits.2.2, rfl⟩ :
      _ ∈ brokerBreaks iid (quantityOf r.internalMap iid) (quantityOf r.broker iid)
        (r.admin.map (quantityOf · iid)))
    omega
  · intro fits
    have none : brokerBreaks iid (quantityOf r.internalMap iid) (quantityOf r.broker iid)
        (r.admin.map (quantityOf · iid)) = [] := by
      apply List.eq_nil_iff_forall_not_mem.mpr
      intro p member
      obtain ⟨adm, held, other, pair, broker, admin, -⟩ := mem_brokerBreaks.mp member
      obtain ⟨given, found, rfl⟩ := Option.map_eq_some_iff.mp held
      rcases fits given found pair with same | zero | zero
      · exact other same
      · exact broker zero
      · exact admin zero
    rw [none]
    simpa using first

/-- An instrument counts as matched exactly once, or not at all. -/
theorem matched_iff : r.matchedPositions =
      (r.allInstruments.filter fun iid => ∀ p ∈ r.matchPositions, p.instrumentId ≠ iid).length ↔
    ∀ iid ∈ r.allInstruments, (r.breaksAt iid).length ≤ 1 := by
  have broken : ∀ iid, (∀ p ∈ r.matchPositions, p.instrumentId ≠ iid) ↔ (r.breaksAt iid).length = 0 := by
    intro iid
    rw [List.length_eq_zero_iff, breaksAt_eq_nil]
    constructor
    · intro none
      by_contra apart
      obtain ⟨p, member, same⟩ := (found_iff iid).mpr apart
      exact none p member same
    · intro agree p member same
      exact (found_iff iid).mp ⟨p, member, same⟩ agree
  have counted := List.length_eq_length_filter_add (l := r.allInstruments)
    fun iid => decide ((r.breaksAt iid).length = 0)
  have listed : r.matchPositions = r.allInstruments.flatMap r.breaksAt := rfl
  have others : (r.allInstruments.filter fun iid => !decide ((r.breaksAt iid).length = 0)) =
      r.allInstruments.filter fun iid => (r.breaksAt iid).length ≠ 0 :=
    List.filter_congr fun iid _ => by simp
  rw [others] at counted
  simp only [broken]
  rw [← length_flatMap_eq_iff, ← listed, matchedPositions]
  omega

/-- The difference that is reported for an instrument, where the administrator agrees with what the
others agree about. -/
theorem difference_of_agreed {p : ReconciliationBreak} (member : p ∈ r.matchPositions)
    (agreed : ∀ admin ∈ r.admin,
      quantityOf r.internalMap p.instrumentId = quantityOf r.broker p.instrumentId →
        quantityOf r.broker p.instrumentId = quantityOf admin p.instrumentId)
    {s t : Source} {x y : Decimal} (pair : p.breakType.pair = some (s, t))
    (left : r.quantity p.instrumentId s = some x) (right : r.quantity p.instrumentId t = some y) :
    p.difference = x - y ∧ (p.isMaterial = true ↔ materialThreshold < |x - y|) := by
  have own := mem_matched.mp member
  generalize p.instrumentId = iid at own agreed left right
  rcases mem_breaksAt.mp own with ⟨-, rfl⟩ | ⟨same, admin, given, other, -⟩ |
    ⟨admin, given, -, -, -, -, rfl⟩
  · obtain ⟨rfl, rfl⟩ := Prod.mk.inj (Option.some.inj ((pair_pairType _ _).symm.trans pair))
    cases left
    cases right
    exact ⟨rfl, decide_eq_true_iff⟩
  · exact absurd ((agreed admin given same).symm.trans same.symm) other
  · cases pair
    cases left
    rw [quantity, given] at right
    cases right
    exact ⟨rfl, decide_eq_true_iff⟩

/-- What the administrator lacks or has otherwise is reported with the difference of the others. -/
theorem fits_of_difference (exact_differences : ∀ p ∈ r.matchPositions, ∀ s t x y,
      p.breakType.pair = some (s, t) → r.quantity p.instrumentId s = some x →
        r.quantity p.instrumentId t = some y → p.difference = x - y)
    {admin : List (String × Decimal)} (given : r.admin = some admin) {iid : String}
    (same : quantityOf r.internalMap iid = quantityOf r.broker iid) :
    quantityOf r.broker iid = quantityOf admin iid := by
  by_contra apart
  have other : quantityOf admin iid ≠ quantityOf r.internalMap iid := fun equal =>
    apart (same.symm.trans equal.symm)
  have member := matched_of_mem (mem_breaksAt.mpr (.inr (.inl ⟨same, admin, given, other, rfl⟩)))
  have pair : (if quantityOf admin iid = 0 then BreakType.missingAdmin
      else .internalAdminMismatch).pair = some (.internal, .admin) := by
    split <;> rfl
  have gap := exact_differences _ member .internal .admin _ _ pair rfl
    (by rw [quantity, given, Option.map_some])
  change quantityOf r.internalMap iid - quantityOf r.broker iid =
    quantityOf r.internalMap iid - quantityOf admin iid at gap
  apply apart
  linarith

theorem admin_of_mem {p : ReconciliationBreak} (member : p ∈ r.matchPositions)
    (type : p.breakType = .brokerAdminMismatch) : ∃ admin ∈ r.admin,
      quantityOf r.broker p.instrumentId ≠ quantityOf admin p.instrumentId ∧
      quantityOf r.internalMap p.instrumentId ≠ quantityOf r.broker p.instrumentId ∧
      quantityOf r.broker p.instrumentId ≠ 0 ∧ quantityOf admin p.instrumentId ≠ 0 := by
  have own := mem_matched.mp member
  generalize p.instrumentId = iid at own
  rcases mem_breaksAt.mp own with ⟨-, rfl⟩ | ⟨-, admin, -, -, rfl⟩ | ⟨admin, given, other, pair, broker,
    administrator, -⟩
  · have pair := pair_pairType (quantityOf r.internalMap iid) (quantityOf r.broker iid)
    rw [show pairType _ _ = _ from type] at pair
    cases pair
  · unfold breakOf at type
    dsimp only at type
    split at type <;> cases type
  · exact ⟨admin, given, other, pair, broker, administrator⟩

/-- What a reconciliation returns, whatever the breaks of other days. -/
theorem reconcile_returns {breaks after : Breaks} {result : ReconciliationResult}
    (returned : r.reconcile breaks = .ok result after) :
    result.breaks = r.matchPositions ∧ result.matchedPositions = r.matchedPositions := by
  unfold Reconciliation.reconcile at returned
  simp only [bind, EStateM.bind, modify_eq, pure, EStateM.pure] at returned
  split at returned
  · cases returned
    exact ⟨rfl, rfl⟩
  · cases returned

/-- The matching is exact exactly when the administrator fits. -/
theorem exactMatching_iff (r : Reconciliation) : r.ExactMatching ↔ r.AdminFits := by
  constructor
  · intro matching admin given iid
    constructor
    · exact fits_of_difference
        (fun p member s t x y pair left right => (matching.difference p member s t x y pair left right).1)
        given
    · by_cases listed : iid ∈ r.allInstruments
      · exact length_breaksAt_iff.mp (matched_iff.mp matching.matched iid listed) admin given
      · intro apart
        have agree := breaksAt_eq_nil.mp (breaksAt_other listed)
        exact absurd (agree_iff.mp agree).1 apart
  · intro fits
    constructor
    case found => exact found_iff
    case disagree => exact fun p => disagree_of_mem
    case once => exact once
    case allDiffer =>
      -- there are no such breaks
      intro p member type
      obtain ⟨admin, given, other, pair, broker, administrator⟩ := admin_of_mem member type
      rcases (fits admin given p.instrumentId).2 pair with same | zero | zero
      · exact absurd same other
      · exact absurd zero broker
      · exact absurd zero administrator
    case difference =>
      intro p member s t x y pair left right
      exact difference_of_agreed member (fun admin given => (fits admin given _).1) pair left right
    case matched =>
      rw [matched_iff]
      intro iid _
      exact length_breaksAt_iff.mpr fun admin given => (fits admin given iid).2

/-- A position that only the administrator lacks is reported with no difference. -/
theorem unadministered_inexact : ¬ unadministered.ExactMatching := by
  intro matching
  have lacking : quantityOf unadministered.broker "AAPL" = quantityOf [] "AAPL" :=
    fits_of_difference
      (fun p member s t x y pair left right => (matching.difference p member s t x y pair left right).1)
      rfl (by decide +kernel)
  exact absurd lacking (by decide +kernel)

end Reconciliation

end MiniHedge.Eod
