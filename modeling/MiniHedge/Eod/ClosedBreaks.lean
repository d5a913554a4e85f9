import MiniHedge.Eod.Reconciler
import MiniHedge.Library.Raising

/-! Which breaks a reconciliation closes.

The first four rules look at the difference and the materiality that a break
stores, and at the breaks of its instrument and type that were resolved lately.
The difference of a break with the administrator is stored as that of the
internal quantity and the broker's, which agree when such a break is found.
-/

set_option autoImplicit false

namespace MiniHedge.Eod

open MiniHedge.Python MiniHedge.Library
open MiniHedge.CashManagement (Date)

/-! ## Breaks that matter -/

namespace ReconciliationBreakRecord

/-- The difference of the two sources that the type names. -/
def disagreement (b : ReconciliationBreakRecord) : Decimal :=
  match b.breakType with
  | .quantityMismatch | .missingInternal | .missingBroker => b.internalQuantity - b.brokerQuantity
  | .missingAdmin | .internalAdminMismatch => b.internalQuantity - b.adminQuantity.getD 0
  | .brokerAdminMismatch => b.brokerQuantity - b.adminQuantity.getD 0
  | .cashMismatch => b.internalBalance.getD 0 - b.adminBalance.getD 0

/-- More than the threshold, and for cash not below the limit of the cash-timing rule. -/
def Matters (b : ReconciliationBreakRecord) : Prop :=
  match b.breakType with
  | .cashMismatch => cashMaterialThreshold < |b.disagreement| ∧ cashTimingThreshold ≤ |b.disagreement|
  | _ => materialThreshold < |b.disagreement|

def key (b : ReconciliationBreakRecord) : Option String × BreakType := (b.instrumentId, b.breakType)

/-- One of the rules that resolve applies. -/
def Closable (keys : List (Option String × BreakType)) (b : ReconciliationBreakRecord) : Prop :=
  |b.difference| ≤ roundingThreshold ∨ b.isMaterial = false ∨
    b.breakType = .cashMismatch ∧ |b.difference| < cashTimingThreshold ∨ b.key ∈ keys

end ReconciliationBreakRecord

/-- No break that matters and is not resolved ends the run resolved. A break that is found is taken
as it is found, and the others are as they are stored. -/
def Reconciliation.KeepsOpen (r : Reconciliation) (breaks : Breaks) : Prop :=
  ∀ (id : Nat) (b b' : ReconciliationBreakRecord),
    (breaks ++ r.found)[id]? = some b → b.status ≠ .resolved → b.Matters →
      (ended r.reconcile breaks)[id]? = some b' → b'.status ≠ .resolved

/-! ## The loop -/

section Loop

variable {rules : List AutoResolutionRule} {keys : List (Option String × BreakType)} {now : Datetime}
  {b : ReconciliationBreakRecord} {portfolioId : UUID} {breaks : Breaks}

/-- What the first rule that matches makes of a break. -/
def decided (rules : List AutoResolutionRule) (now : Datetime) (b : ReconciliationBreakRecord) :
    ReconciliationBreakRecord :=
  match rules.find? (·.applies b) with
  | some rule => updateStatus rule now b
  | none => b

/-- `list_open` lists the break. -/
def Listed (portfolioId : UUID) (b : ReconciliationBreakRecord) : Prop :=
  b.portfolioId = portfolioId ∧ (b.status = .opened ∨ b.status = .investigating ∨ b.status = .escalated)

instance : Decidable (Listed portfolioId b) := inferInstanceAs (Decidable (_ ∧ _))

theorem modify_congr_at {i : Nat} {f g : ReconciliationBreakRecord → ReconciliationBreakRecord}
    (here : breaks[i]? = some b) (same : f b = g b) : breaks.modify i f = breaks.modify i g := by
  apply List.ext_getElem?
  intro j
  rw [List.getElem?_modify, List.getElem?_modify]
  by_cases own : i = j
  · subst own
    simp [here, same]
  · simp [own]

theorem getElem?_applied {entries : List (ReconciliationBreakRecord × Nat)}
    (distinct : (entries.map (·.2)).Nodup) (own : ∀ entry ∈ entries, breaks[entry.2]? = some entry.1)
    (result : AutoResolutionResult) (id : Nat) :
    (entries.foldl (applyRules rules now) (breaks, result)).1[id]? = breaks[id]?.map fun b =>
      if id ∈ entries.map (·.2) then decided rules now b else b := by
  induction entries generalizing breaks result with
  | nil => simp
  | cons entry rest ih =>
    rw [List.map_cons, List.nodup_cons] at distinct
    have here := own entry List.mem_cons_self
    have later : ∀ other ∈ rest, other.2 ≠ entry.2 := fun other inside same =>
      distinct.1 (same ▸ List.mem_map_of_mem inside)
    have step : ∃ result', applyRules rules now (breaks, result) entry =
        (breaks.modify entry.2 (decided rules now), result') := by
      unfold applyRules
      cases found : rules.find? (·.applies entry.1) with
      | some rule =>
        refine ⟨result.count rule, congrArg (·, _) (modify_congr_at here ?_)⟩
        simp [decided, found]
      | none =>
        have unchanged : entry.1 = decided rules now entry.1 := by simp [decided, found]
        exact ⟨result, congrArg (·, _)
          ((List.modify_id _ _).symm.trans (modify_congr_at here unchanged))⟩
    obtain ⟨result', stepped⟩ := step
    rw [List.foldl_cons, stepped, ih distinct.2 fun other inside => ?_]
    · rw [List.getElem?_modify]
      cases breaks[id]? with
      | none => rfl
      | some b =>
        by_cases same : entry.2 = id
        · have absent : id ∉ rest.map (·.2) := same ▸ distinct.1
          simp [same, absent]
        · have others : id ∈ (entry :: rest).map (·.2) ↔ id ∈ rest.map (·.2) :=
            List.mem_cons.trans (or_iff_right (Ne.symm same))
          simp only [Option.map_eq_map, Option.map_some, same, if_false, if_congr others rfl rfl]
    · rw [List.getElem?_modify, own other (List.mem_cons_of_mem _ inside)]
      simp [Ne.symm (later other inside)]

theorem mem_listOpen {entry : ReconciliationBreakRecord × Nat} :
    entry ∈ listOpen portfolioId breaks ↔
      breaks[entry.2]? = some entry.1 ∧ Listed portfolioId entry.1 := by
  rw [listOpen, mem_sortOn, List.mem_filter, decide_eq_true_iff, List.mem_zipIdx_iff_getElem?]
  exact Iff.rfl

theorem listOpen_distinct : ((listOpen portfolioId breaks).map (·.2)).Nodup := by
  rw [listOpen, ((sortOn_perm _ _).map _).nodup_iff]
  refine (List.Sublist.map _ List.filter_sublist).nodup ?_
  rw [List.zipIdx_map_snd]
  exact List.nodup_range'

/-- The loop decides on each break that is listed, and leaves the others. -/
theorem getElem?_processed (id : Nat) :
    ((listOpen portfolioId breaks).foldl (applyRules rules now) (breaks, {})).1[id]? =
      breaks[id]?.map fun b => if Listed portfolioId b then decided rules now b else b := by
  rw [getElem?_applied listOpen_distinct fun entry member => (mem_listOpen.mp member).1]
  cases here : breaks[id]? with
  | none => rfl
  | some b =>
    have same : id ∈ (listOpen portfolioId breaks).map (·.2) ↔ Listed portfolioId b := by
      rw [List.mem_map]
      constructor
      · rintro ⟨entry, inside, rfl⟩
        obtain ⟨place, listed⟩ := mem_listOpen.mp inside
        cases here.symm.trans place
        exact listed
      · exact fun listed => ⟨(b, id), mem_listOpen.mpr ⟨here, listed⟩, rfl⟩
    rw [Option.map_some, Option.map_some, if_congr same rfl rfl]

/-- Of the default rules, those before the last one resolve. -/
theorem decided_resolved (unresolved : b.status ≠ .resolved) :
    (decided (defaultRules keys now) now b).status = .resolved ↔
      b.status = .opened ∧ b.Closable keys := by
  unfold decided
  -- the rules look at open breaks alone, and only the last of them escalates
  by_cases live : b.status = .opened
  · have first : b.Closable keys ↔ roundingDifferenceRule.applies b ∨ immaterialBreakRule.applies b ∨
        cashTimingRule.applies b ∨ (duplicateBreakRule keys).applies b := by
      simp [ReconciliationBreakRecord.Closable, roundingDifferenceRule, immaterialBreakRule,
        cashTimingRule, duplicateBreakRule, live, ReconciliationBreakRecord.key]
    rw [first]
    simp only [live, true_and, defaultRules, List.find?_cons, List.find?_nil]
    cases roundingDifferenceRule.applies b
    · cases immaterialBreakRule.applies b
      · cases cashTimingRule.applies b
        · cases (duplicateBreakRule keys).applies b
          · cases (staleBreakRule now).applies b
            · simp [live]
            · simp [updateStatus, staleBreakRule]
          · simp [updateStatus, duplicateBreakRule]
        · simp [updateStatus, cashTimingRule]
      · simp [updateStatus, immaterialBreakRule]
    · simp [updateStatus, roundingDifferenceRule]
  · have unmatched : (defaultRules keys now).find? (·.applies b) = none := by
      simp [defaultRules, roundingDifferenceRule, immaterialBreakRule, cashTimingRule,
        duplicateBreakRule, staleBreakRule, live]
    rw [unmatched]
    simp [live, unresolved]

end Loop

/-! ## The run -/

section Run

variable {r : Reconciliation} {breaks : Breaks} {b : ReconciliationBreakRecord}

/-- The keys of the breaks that were resolved lately. -/
def Reconciliation.recent (r : Reconciliation) (breaks : Breaks) : List (Option String × BreakType) :=
  resolvedKeys (recentlyResolved r.portfolioId (r.businessDate - 3) breaks)

theorem found_opened (member : b ∈ r.found) :
    b.status = .opened ∧ b.portfolioId = r.portfolioId := by
  rcases List.mem_append.mp member with position | cash
  · obtain ⟨b, -, rfl⟩ := List.mem_map.mp position
    exact ⟨rfl, rfl⟩
  · obtain ⟨b, -, rfl⟩ := List.mem_map.mp cash
    exact ⟨rfl, rfl⟩

theorem recent_stored : resolvedKeys (recentlyResolved r.portfolioId (r.businessDate - 3)
    (breaks ++ r.found.map ReconciliationBreakRecord.columns)) = r.recent breaks := by
  have unresolved : recentlyResolved r.portfolioId (r.businessDate - 3)
      (r.found.map ReconciliationBreakRecord.columns) = [] := by
    refine List.filter_eq_nil_iff.mpr fun b member => ?_
    obtain ⟨b, inside, rfl⟩ := List.mem_map.mp member
    have opened : b.columns.status = .opened := (found_opened inside).1
    simp [opened]
  rw [Reconciliation.recent, recentlyResolved, List.filter_append]
  rw [recentlyResolved] at unresolved
  rw [unresolved, List.append_nil]
  rfl

theorem ended_processBreaks (portfolioId : UUID) (businessDate : Date) (now : Datetime)
    (breaks : Breaks) : ended (processBreaks portfolioId businessDate now) breaks =
      if businessDate - 3 < 1 then breaks
      else
        let keys := resolvedKeys (recentlyResolved portfolioId (businessDate - 3) breaks)
        ((listOpen portfolioId breaks).foldl (applyRules (defaultRules keys now) now) (breaks, {})).1 := by
  by_cases early : businessDate - 3 < 1
  · rw [if_pos early]
    simp only [ended, processBreaks, early, if_true]
    rfl
  · rw [if_neg early]
    simp only [ended, processBreaks, early, if_false]
    rfl

/-- What a reconciliation leaves of each break. -/
theorem getElem?_reconciled (id : Nat) : (ended r.reconcile breaks)[id]? =
    (breaks ++ r.found.map ReconciliationBreakRecord.columns)[id]?.map fun b =>
      if ¬ r.businessDate - 3 < 1 ∧ Listed r.portfolioId b then
        decided (defaultRules (r.recent breaks) r.now) r.now b
      else b := by
  have stored : ended r.reconcile breaks = ended (processBreaks r.portfolioId r.businessDate r.now)
      (breaks ++ r.found.map ReconciliationBreakRecord.columns) :=
    ended_bind_pure (processBreaks r.portfolioId r.businessDate r.now) _ _
  rw [stored]
  rw [ended_processBreaks]
  by_cases early : r.businessDate - 3 < 1
  · simp [early]
  · rw [if_neg early, recent_stored, getElem?_processed]
    simp [early]

theorem after_resolved {early : Prop} [Decidable early] {keys : List (Option String × BreakType)}
    (unresolved : b.status ≠ .resolved) :
    (if ¬ early ∧ Listed r.portfolioId b then decided (defaultRules keys r.now) r.now b else b).status =
      .resolved ↔ ¬ early ∧ b.portfolioId = r.portfolioId ∧ b.status = .opened ∧ b.Closable keys := by
  split
  · rename_i listed
    rw [decided_resolved unresolved]
    exact ⟨fun closed => ⟨listed.1, listed.2.1, closed⟩, fun closed => closed.2.2⟩
  · rename_i unlisted
    refine ⟨fun resolved => absurd resolved unresolved, fun closed => absurd ?_ unlisted⟩
    exact ⟨closed.1, closed.2.1, .inl closed.2.2.1⟩

/-- A break that there was is stored as it is, and one that is found with its columns. -/
theorem stored_of_getElem? {id : Nat} (here : (breaks ++ r.found)[id]? = some b) :
    b ∈ breaks ∧ (breaks ++ r.found.map ReconciliationBreakRecord.columns)[id]? = some b ∨
      b ∈ r.found ∧ (breaks ++ r.found.map ReconciliationBreakRecord.columns)[id]? = some b.columns := by
  rw [List.getElem?_append] at here ⊢
  split at here
  · rename_i before
    rw [if_pos before]
    exact .inl ⟨List.mem_of_getElem? here, here⟩
  · rename_i behind
    rw [if_neg behind, List.getElem?_map, here]
    exact .inr ⟨List.mem_of_getElem? here, rfl⟩

/-- The rules that resolve, for each break that there is and that is found. -/
theorem keepsOpen_iff_each : r.KeepsOpen breaks ↔ r.businessDate - 3 < 1 ∨
    (∀ b ∈ breaks, b.portfolioId = r.portfolioId → b.status = .opened → b.Matters →
      ¬ b.Closable (r.recent breaks)) ∧
    ∀ b ∈ r.found, b.Matters → ¬ b.columns.Closable (r.recent breaks) := by
  unfold Reconciliation.KeepsOpen
  simp only [getElem?_reconciled]
  constructor
  · intro keeps
    refine or_iff_not_imp_left.mpr fun dated => ⟨fun b member own live matters closable => ?_,
      fun b member matters closable => ?_⟩
    · -- what is stored before is in its place still
      have unresolved : b.status ≠ .resolved := by simp [live]
      obtain ⟨id, before, rfl⟩ := List.mem_iff_getElem.mp member
      have here : (breaks ++ r.found)[id]? = some breaks[id] := by
        rw [List.getElem?_append_left before, List.getElem?_eq_getElem before]
      have stored : (breaks ++ r.found.map ReconciliationBreakRecord.columns)[id]? = some breaks[id] := by
        rw [List.getElem?_append_left before, List.getElem?_eq_getElem before]
      refine keeps id _ _ here unresolved matters (congrArg _ stored) ?_
      exact (after_resolved unresolved).mpr ⟨dated, own, live, closable⟩
    · -- and what is found comes behind it
      obtain ⟨live, own⟩ := found_opened member
      have unresolved : b.status ≠ .resolved := by simp [live]
      obtain ⟨id, within, rfl⟩ := List.mem_iff_getElem.mp member
      have here : (breaks ++ r.found)[breaks.length + id]? = some r.found[id] := by
        rw [List.getElem?_append_right (Nat.le_add_right _ _), Nat.add_sub_cancel_left,
          List.getElem?_eq_getElem within]
      have stored : (breaks ++ r.found.map ReconciliationBreakRecord.columns)[breaks.length + id]? =
          some r.found[id].columns := by
        rw [List.getElem?_append_right (Nat.le_add_right _ _), Nat.add_sub_cancel_left,
          List.getElem?_map, List.getElem?_eq_getElem within]
        rfl
      have same : r.found[id].columns.status ≠ .resolved := unresolved
      refine keeps _ _ _ here unresolved matters (congrArg _ stored) ?_
      exact (after_resolved same).mpr ⟨dated, own, live, closable⟩
  · intro kept id b b' here unresolved matters after
    rcases stored_of_getElem? here with ⟨member, stored⟩ | ⟨member, stored⟩
    · rw [stored, Option.map_some, Option.some.injEq] at after
      rw [← after]
      intro resolved
      obtain ⟨dated, own, live, closable⟩ := (after_resolved unresolved).mp resolved
      exact (kept.resolve_left dated).1 b member own live matters closable
    · have same : b.columns.status ≠ .resolved := unresolved
      rw [stored, Option.map_some, Option.some.injEq] at after
      rw [← after]
      intro resolved
      obtain ⟨dated, -, -, closable⟩ := (after_resolved same).mp resolved
      exact (kept.resolve_left dated).2 b member matters closable

end Run

/-! ## The breaks that are found -/

section Found

variable {r : Reconciliation} {breaks : Breaks} {b : ReconciliationBreakRecord} {iid : String}
  {intQty brkQty adm : Decimal} {admQty : Option Decimal} {keys : List (Option String × BreakType)}

/-- How the internal quantity and the broker's disagree. -/
def pairType (intQty brkQty : Decimal) : BreakType :=
  if intQty = 0 then .missingInternal else if brkQty = 0 then .missingBroker else .quantityMismatch

theorem mem_internalBreaks {p : ReconciliationBreak} : p ∈ internalBreaks iid intQty brkQty admQty ↔
    intQty ≠ brkQty ∧ p = breakOf iid (pairType intQty brkQty) intQty brkQty admQty ∨
      intQty = brkQty ∧ ∃ adm, admQty = some adm ∧ adm ≠ intQty ∧ p = breakOf iid
        (if adm = 0 then .missingAdmin else .internalAdminMismatch) intQty brkQty admQty := by
  unfold internalBreaks pairType
  by_cases same : intQty = brkQty
  · subst same
    cases admQty with
    | none => simp
    | some adm =>
      by_cases gone : adm = 0
      · subst gone
        by_cases nothing : intQty = 0
        · simp [nothing]
        · simp [nothing, Ne.symm nothing]
      · by_cases equal : adm = intQty
        · simp [equal]
        · simp [equal, gone]
  · by_cases nothing : intQty = 0
    · subst nothing
      simp [same, Ne.symm same]
    · by_cases gone : brkQty = 0
      · subst gone
        simp [nothing]
      · simp [same, nothing, gone]

/-- A break of the broker with the administrator. -/
def brokerAdmin (iid : String) (intQty brkQty adm : Decimal) : ReconciliationBreak :=
  ⟨iid, .brokerAdminMismatch, intQty, brkQty, some adm, brkQty - adm,
    materialThreshold < |brkQty - adm|⟩

theorem mem_brokerBreaks {p : ReconciliationBreak} : p ∈ brokerBreaks iid intQty brkQty admQty ↔
    ∃ adm, admQty = some adm ∧ brkQty ≠ adm ∧ intQty ≠ brkQty ∧ brkQty ≠ 0 ∧ adm ≠ 0 ∧
      p = brokerAdmin iid intQty brkQty adm := by
  unfold brokerBreaks brokerAdmin
  cases admQty with
  | none => simp
  | some adm =>
    by_cases same : intQty = brkQty
    · simp [same]
    · simp [same, and_assoc]

/-- Two quantities that disagree and whose difference is stored are closed only as duplicates. -/
theorem closable_of_pair (positions : b.breakType ≠ .cashMismatch)
    (apart : materialThreshold < |b.difference|) (material : b.isMaterial = true) :
    b.columns.Closable keys ↔ b.key ∈ keys := by
  have grid : OnGrid 8 materialThreshold := ⟨1000000, by norm_num [materialThreshold]⟩
  have large : roundingThreshold < |numeric 8 b.difference| :=
    lt_of_lt_of_le (by norm_num [roundingThreshold, materialThreshold]) (le_abs_numeric grid apart.le)
  unfold ReconciliationBreakRecord.Closable
  simp [ReconciliationBreakRecord.columns, ReconciliationBreakRecord.key, not_le.mpr large, material,
    positions]

theorem matters_pair : (r.positionRecord (breakOf iid (pairType intQty brkQty) intQty brkQty
    admQty)).Matters ↔ materialThreshold < |intQty - brkQty| := by
  unfold pairType
  split
  · exact Iff.rfl
  · split <;> exact Iff.rfl

theorem pairType_position : pairType intQty brkQty ≠ .cashMismatch := by
  unfold pairType
  split
  · exact nofun
  · split <;> exact nofun

theorem closable_pair (apart : materialThreshold < |intQty - brkQty|) :
    (r.positionRecord (breakOf iid (pairType intQty brkQty) intQty brkQty admQty)).columns.Closable
      keys ↔ (some iid, pairType intQty brkQty) ∈ keys := by
  have types : (r.positionRecord (breakOf iid (pairType intQty brkQty) intQty brkQty admQty)).breakType ≠
      .cashMismatch := pairType_position
  refine (closable_of_pair types apart ?_).trans Iff.rfl
  exact decide_eq_true apart

theorem matters_brokerAdmin : (r.positionRecord (brokerAdmin iid intQty brkQty adm)).Matters ↔
    materialThreshold < |brkQty - adm| :=
  Iff.rfl

theorem closable_brokerAdmin (apart : materialThreshold < |brkQty - adm|) :
    (r.positionRecord (brokerAdmin iid intQty brkQty adm)).columns.Closable keys ↔
      (some iid, .brokerAdminMismatch) ∈ keys := by
  have types : (r.positionRecord (brokerAdmin iid intQty brkQty adm)).breakType ≠ .cashMismatch := nofun
  refine (closable_of_pair types apart ?_).trans Iff.rfl
  exact decide_eq_true apart

theorem matters_admin (adm : Decimal) : (r.positionRecord (breakOf iid
    (if adm = 0 then .missingAdmin else .internalAdminMismatch) intQty brkQty (some adm))).Matters ↔
      materialThreshold < |intQty - adm| := by
  split <;> exact Iff.rfl

/-- The difference that such a break stores is nothing. -/
theorem closable_admin (type : BreakType) :
    (r.positionRecord (breakOf iid type intQty intQty admQty)).columns.Closable keys := by
  refine .inl ?_
  change |numeric 8 (intQty - intQty)| ≤ roundingThreshold
  rw [sub_self, onGrid_zero.numeric_eq, abs_zero]
  norm_num [roundingThreshold]

theorem mem_keys_of_quantityOf {m : List (String × Decimal)} {key : String}
    (held : quantityOf m key ≠ 0) : key ∈ m.map (·.1) := by
  unfold quantityOf at held
  cases found : m.lookup key with
  | none => simp [found] at held
  | some quantity =>
    obtain ⟨before, after, rfl, -⟩ := List.lookup_eq_some_iff.mp found
    simp

theorem mem_iterate (order : SetOrder) {keys : List String} {key : String} :
    key ∈ order.iterate keys ↔ key ∈ keys :=
  (order.perm keys).mem_iff.trans List.mem_eraseDups

/-- An instrument that two sources disagree about is matched. -/
theorem mem_allInstruments {admin : List (String × Decimal)} (given : r.admin = some admin ∨ admin = [])
    (apart : quantityOf r.internalMap iid ≠ 0 ∨ quantityOf r.broker iid ≠ 0 ∨ quantityOf admin iid ≠ 0) :
    iid ∈ r.allInstruments := by
  refine (mem_iterate r.order).mpr ?_
  rw [List.mem_append, List.mem_append]
  rcases apart with internal | broker | administrator
  · exact .inl (.inl (mem_keys_of_quantityOf internal))
  · exact .inl (.inr (mem_keys_of_quantityOf broker))
  · rcases given with given | rfl
    · rw [given]
      exact .inr (mem_keys_of_quantityOf administrator)
    · exact absurd rfl administrator

theorem mem_matchPositions {p : ReconciliationBreak} : p ∈ r.matchPositions ↔
    ∃ iid ∈ r.allInstruments,
      p ∈ internalBreaks iid (quantityOf r.internalMap iid) (quantityOf r.broker iid)
        (r.admin.map (quantityOf · iid)) ∨
      p ∈ brokerBreaks iid (quantityOf r.internalMap iid) (quantityOf r.broker iid)
        (r.admin.map (quantityOf · iid)) := by
  simp only [Reconciliation.matchPositions, List.mem_flatMap, List.mem_append]

end Found

/-! ## The condition -/

section Fits

variable {r : Reconciliation} {breaks : Breaks} {keys : List (Option String × BreakType)}

/-- The breaks of positions that matter are none of the administrator's alone, and none of them has
been resolved lately. -/
structure Reconciliation.PositionsFit (r : Reconciliation) (keys : List (Option String × BreakType)) :
    Prop where
  pairs : ∀ iid, materialThreshold < |quantityOf r.internalMap iid - quantityOf r.broker iid| →
    (some iid, pairType (quantityOf r.internalMap iid) (quantityOf r.broker iid)) ∉ keys
  admin : ∀ admin, r.admin = some admin → ∀ iid,
    quantityOf r.internalMap iid = quantityOf r.broker iid →
      |quantityOf r.internalMap iid - quantityOf admin iid| ≤ materialThreshold
  broker : ∀ admin, r.admin = some admin → ∀ iid,
    quantityOf r.internalMap iid ≠ quantityOf r.broker iid → quantityOf r.broker iid ≠ 0 →
      quantityOf admin iid ≠ 0 →
        materialThreshold < |quantityOf r.broker iid - quantityOf admin iid| →
          (some iid, .brokerAdminMismatch) ∉ keys

theorem positionsFit_iff : r.PositionsFit keys ↔ ∀ p ∈ r.matchPositions, (r.positionRecord p).Matters →
    ¬ (r.positionRecord p).columns.Closable keys := by
  have apart : ∀ {x y : Decimal}, materialThreshold < |x - y| → x ≠ y := by
    rintro x y large rfl
    rw [sub_self, abs_zero] at large
    exact absurd large (by norm_num [materialThreshold])
  constructor
  · intro fits p member matters
    obtain ⟨iid, -, internal | broker⟩ := mem_matchPositions.mp member
    · rcases mem_internalBreaks.mp internal with ⟨-, rfl⟩ | ⟨same, adm, given, -, rfl⟩
      · have large := matters_pair.mp matters
        rw [closable_pair large]
        exact fits.pairs iid large
      · obtain ⟨admin, here, rfl⟩ := Option.map_eq_some_iff.mp given
        rw [here, Option.map_some] at matters
        exact absurd ((matters_admin _).mp matters) (not_lt.mpr (fits.admin admin here iid same))
    · obtain ⟨adm, given, -, differ, held, own, rfl⟩ := mem_brokerBreaks.mp broker
      obtain ⟨admin, here, rfl⟩ := Option.map_eq_some_iff.mp given
      have large := matters_brokerAdmin.mp matters
      rw [closable_brokerAdmin large]
      exact fits.broker admin here iid differ held own large
  · intro each
    refine ⟨fun iid large => ?_, fun admin given iid same => ?_, fun admin given iid differ held own large => ?_⟩
    · have differ := apart large
      have inside : iid ∈ r.allInstruments := by
        refine mem_allInstruments (.inr rfl) ?_
        by_contra nothing
        simp only [not_or, not_not] at nothing
        exact differ (nothing.1.trans nothing.2.1.symm)
      have kept := each _ (mem_matchPositions.mpr ⟨iid, inside, .inl (mem_internalBreaks.mpr
        (.inl ⟨differ, rfl⟩))⟩) (matters_pair.mpr large)
      rwa [closable_pair large] at kept
    · -- such a break is stored with no difference, so that the first rule closes it
      by_contra large
      rw [not_le] at large
      have differ := apart large
      have inside : iid ∈ r.allInstruments := by
        refine mem_allInstruments (.inl given) ?_
        by_contra nothing
        simp only [not_or, not_not] at nothing
        exact differ (nothing.1.trans nothing.2.2.symm)
      have member := mem_matchPositions.mpr ⟨iid, inside, .inl (mem_internalBreaks.mpr
        (.inr ⟨same, _, congrArg (Option.map (quantityOf · iid)) given, Ne.symm differ, rfl⟩))⟩
      rw [given, Option.map_some, ← same] at member
      exact each _ member ((matters_admin _).mpr large) (closable_admin _)
    · have inside : iid ∈ r.allInstruments := mem_allInstruments (.inl given) (.inr (.inl held))
      have kept := each _ (mem_matchPositions.mpr ⟨iid, inside, .inr (mem_brokerBreaks.mpr
        ⟨quantityOf admin iid, congrArg (Option.map (quantityOf · iid)) given, apart large, differ, held,
          own, rfl⟩)⟩) (matters_brokerAdmin.mpr large)
      rwa [closable_brokerAdmin large] at kept

/-- No cash that matters is apart while another mismatch of cash was resolved lately. -/
def Reconciliation.CashFits (r : Reconciliation) (keys : List (Option String × BreakType)) : Prop :=
  ∀ balances adminCash, r.cash = some (balances, adminCash) → ∀ ccy,
    cashTimingThreshold ≤ |quantityOf (totals (·.1) (·.2) balances) ccy - quantityOf adminCash ccy| →
      (none, .cashMismatch) ∉ keys

/-- A break of cash that differs by more than the threshold. -/
def cashBreakOf (ccy : String) (intBal admBal : Decimal) : CashBreak :=
  ⟨ccy, intBal, admBal, intBal - admBal, true⟩

theorem mem_reconcileCash {b : CashBreak} : b ∈ r.reconcileCash ↔ ∃ balances adminCash ccy,
    r.cash = some (balances, adminCash) ∧
      cashMaterialThreshold < |quantityOf (totals (·.1) (·.2) balances) ccy - quantityOf adminCash ccy| ∧
      b = cashBreakOf ccy (quantityOf (totals (·.1) (·.2) balances) ccy) (quantityOf adminCash ccy) := by
  unfold Reconciliation.reconcileCash
  cases given : r.cash with
  | none => simp
  | some cash =>
    obtain ⟨balances, adminCash⟩ := cash
    simp only [List.mem_filterMap, mem_iterate, List.mem_append, Option.ite_none_right_eq_some,
      Option.some.injEq, Prod.mk.injEq]
    constructor
    · rintro ⟨ccy, -, large, rfl⟩
      exact ⟨balances, adminCash, ccy, ⟨rfl, rfl⟩, large, rfl⟩
    · rintro ⟨_, _, ccy, ⟨rfl, rfl⟩, large, rfl⟩
      refine ⟨ccy, ?_, large, rfl⟩
      by_contra nothing
      rw [not_or] at nothing
      have first : quantityOf (totals (·.1) (·.2) balances) ccy = 0 := by
        by_contra held
        exact nothing.1 (mem_keys_of_quantityOf held)
      have second : quantityOf adminCash ccy = 0 := by
        by_contra held
        exact nothing.2 (mem_keys_of_quantityOf held)
      rw [first, second, sub_zero, abs_zero] at large
      exact absurd large (by norm_num [cashMaterialThreshold])

theorem matters_cash {ccy : String} {intBal admBal : Decimal} :
    (r.cashRecord (cashBreakOf ccy intBal admBal)).Matters ↔
      cashMaterialThreshold < |intBal - admBal| ∧ cashTimingThreshold ≤ |intBal - admBal| :=
  Iff.rfl

theorem closable_cash {ccy : String} {intBal admBal : Decimal}
    (large : cashTimingThreshold ≤ |intBal - admBal|) :
    (r.cashRecord (cashBreakOf ccy intBal admBal)).columns.Closable keys ↔
      (none, .cashMismatch) ∈ keys := by
  have grid : OnGrid 8 cashTimingThreshold := ⟨10000000000, by norm_num [cashTimingThreshold]⟩
  have kept : cashTimingThreshold ≤ |numeric 8 (intBal - admBal)| := le_abs_numeric grid large
  have more : roundingThreshold < |numeric 8 (intBal - admBal)| :=
    lt_of_lt_of_le (by norm_num [roundingThreshold, cashTimingThreshold]) kept
  unfold ReconciliationBreakRecord.Closable
  simp [ReconciliationBreakRecord.columns, ReconciliationBreakRecord.key, Reconciliation.cashRecord,
    cashBreakOf, not_le.mpr more, not_lt.mpr kept]

theorem cashFits_iff : r.CashFits keys ↔ ∀ b ∈ r.reconcileCash, (r.cashRecord b).Matters →
    ¬ (r.cashRecord b).columns.Closable keys := by
  constructor
  · intro fits b member matters
    obtain ⟨balances, adminCash, ccy, given, -, rfl⟩ := mem_reconcileCash.mp member
    have large := (matters_cash.mp matters).2
    rw [closable_cash large]
    exact fits balances adminCash given ccy large
  · intro each balances adminCash given ccy large
    have material : cashMaterialThreshold <
        |quantityOf (totals (·.1) (·.2) balances) ccy - quantityOf adminCash ccy| :=
      lt_of_lt_of_le (by norm_num [cashMaterialThreshold, cashTimingThreshold]) large
    have kept := each _ (mem_reconcileCash.mpr ⟨balances, adminCash, ccy, given, material, rfl⟩)
      (matters_cash.mpr ⟨material, large⟩)
    rwa [closable_cash large] at kept

/-- The inputs and the history of a reconciliation that closes nothing that matters. -/
structure Reconciliation.Fits (r : Reconciliation) (breaks : Breaks) : Prop extends
    r.PositionsFit (r.recent breaks) where
  cash : r.CashFits (r.recent breaks)
  history : ∀ b ∈ breaks, b.portfolioId = r.portfolioId → b.status = .opened → b.Matters →
    roundingThreshold < |b.difference| ∧ b.isMaterial = true ∧
      (b.breakType = .cashMismatch → cashTimingThreshold ≤ |b.difference|) ∧ b.key ∉ r.recent breaks

theorem not_closable {b : ReconciliationBreakRecord} : ¬ b.Closable keys ↔
    roundingThreshold < |b.difference| ∧ b.isMaterial = true ∧
      (b.breakType = .cashMismatch → cashTimingThreshold ≤ |b.difference|) ∧ b.key ∉ keys := by
  simp [ReconciliationBreakRecord.Closable]

/-- A reconciliation closes no break that matters exactly where its date has no third day before it,
so that it raises, or where no instrument differs at the administrator alone and nothing that matters
recurs. -/
theorem keepsOpen_iff : r.KeepsOpen breaks ↔ r.businessDate - 3 < 1 ∨ r.Fits breaks := by
  have found : (∀ b ∈ r.found, b.Matters → ¬ b.columns.Closable (r.recent breaks)) ↔
      r.PositionsFit (r.recent breaks) ∧ r.CashFits (r.recent breaks) := by
    rw [positionsFit_iff, cashFits_iff, Reconciliation.found, List.forall_mem_append,
      List.forall_mem_map, List.forall_mem_map]
  rw [keepsOpen_iff_each, found]
  simp only [not_closable]
  refine or_congr Iff.rfl ⟨?_, ?_⟩
  · rintro ⟨history, positions, cash⟩
    exact { positions with cash, history }
  · rintro ⟨positions, cash, history⟩
    exact ⟨history, positions, cash⟩

/-- The administrator does not have a position that the others agree about. -/
def unadministered : Reconciliation where
  portfolioId := .ofNat 1
  businessDate := 739000
  order := ⟨List.eraseDups, fun _ => .refl _⟩
  positions := [("AAPL", 100)]
  broker := [("AAPL", 100)]
  admin := some []
  cash := none
  now := 0

theorem unadministered_closed : ¬ unadministered.KeepsOpen [] := by
  intro keeps
  have missing : (unadministered.found[0]?.map fun b => (b.breakType, b.disagreement)) =
      some (.missingAdmin, 100) := by decide +kernel
  have closed : ((ended unadministered.reconcile [])[0]?.map (·.status)) = some .resolved := by
    decide +kernel
  obtain ⟨b, here, matters⟩ := Option.map_eq_some_iff.mp missing
  obtain ⟨b', after, resolved⟩ := Option.map_eq_some_iff.mp closed
  obtain ⟨type, gap⟩ := Prod.mk.inj matters
  refine keeps 0 b b' here ?_ ?_ after resolved
  · rw [(found_opened (List.mem_of_getElem? here)).1]
    exact nofun
  · unfold ReconciliationBreakRecord.Matters
    rw [type, gap]
    norm_num [materialThreshold]

end Fits

end MiniHedge.Eod
