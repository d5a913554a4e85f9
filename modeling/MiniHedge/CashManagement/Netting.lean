import MiniHedge.CashManagement.Tables
import MiniHedge.Library.Buckets
import MiniHedge.Library.Groups
import Mathlib.Algebra.Order.Group.MinMax
import Mathlib.Data.Prod.Lex
import Mathlib.Data.String.Basic

/-! Settlements netted by counterparty and currency. -/

set_option autoImplicit false

namespace MiniHedge.CashManagement.Netting

open MiniHedge.Python MiniHedge.Library

structure NettingResult where
  counterparty : String
  currency : String
  grossPayable : Decimal
  grossReceivable : Decimal
  /-- Positive is receivable, negative is payable. -/
  netAmount : Decimal
  settlementCount : Nat
  settlementIds : List Nat
  deriving DecidableEq, Repr

/-- A counterparty and a currency. -/
abbrev Pair := String ×ₗ String

/-- `counterparty_map.get(s.instrument_id, "UNKNOWN")`. -/
def counterpartyOf (counterpartyMap : List (String × String)) (s : Settlement) : String :=
  (counterpartyMap.lookup s.instrumentId).getD "UNKNOWN"

def pairOf (counterpartyMap : List (String × String)) (s : Settlement) : Pair :=
  toLex (counterpartyOf counterpartyMap s, s.account.currency)

structure Gross where
  receivable : Decimal := 0
  payable : Decimal := 0

def Gross.add (gross : Gross) (s : Settlement) : Gross :=
  if 0 < s.settlementAmount then { gross with receivable := gross.receivable + s.settlementAmount }
  else { gross with payable := gross.payable + |s.settlementAmount| }

def grossOf (group : List Settlement) : Gross := group.foldl Gross.add {}

def netGroup (pair : Pair) (group : List Settlement) : NettingResult :=
  let gross := grossOf group
  { counterparty := (ofLex pair).1
    currency := (ofLex pair).2
    grossPayable := gross.payable
    grossReceivable := gross.receivable
    netAmount := gross.receivable - gross.payable
    settlementCount := group.length
    settlementIds := group.map (·.id) }

def computeNetting (counterpartyMap : List (String × String)) (settlements : List Settlement) :
    List NettingResult :=
  (sortedBuckets (pairOf counterpartyMap) settlements).map fun bucket => netGroup bucket.1 bucket.2

def computeBilateralNetting (settlements : List Settlement) (ourCounterparty theirCounterparty : String) :
    List NettingResult :=
  let filtered := settlements.filter fun s => s.instrumentId = theirCounterparty
  let cpMap := filtered.foldl (fun d s => setItem s.instrumentId theirCounterparty d) []
  (computeNetting cpMap filtered).map fun r =>
    { r with counterparty := ourCounterparty ++ "<>" ++ r.counterparty }

/-! ## One group -/

/-- What is receivable are the amounts above zero, what is payable are the others without their sign. -/
theorem grossOf_eq (group : List Settlement) :
    (grossOf group).receivable = (group.map fun s => max s.settlementAmount 0).sum ∧
      (grossOf group).payable = (group.map fun s => max (-s.settlementAmount) 0).sum := by
  suffices general : ∀ gross : Gross,
      (group.foldl Gross.add gross).receivable =
          gross.receivable + (group.map fun s => max s.settlementAmount 0).sum ∧
        (group.foldl Gross.add gross).payable =
          gross.payable + (group.map fun s => max (-s.settlementAmount) 0).sum by
    simpa [grossOf] using general {}
  induction group with
  | nil => simp
  | cons s group ih =>
    intro gross
    obtain ⟨receivable, payable⟩ := ih (gross.add s)
    rw [List.foldl_cons, receivable, payable, List.map_cons, List.map_cons, List.sum_cons, List.sum_cons,
      ← add_assoc, ← add_assoc]
    by_cases positive : 0 < s.settlementAmount
    · rw [Gross.add, if_pos positive, max_eq_left positive.le, max_eq_right (neg_nonpos.mpr positive.le), add_zero]
      exact ⟨rfl, rfl⟩
    · -- an amount of zero counts as payable and changes nothing
      have negative := not_lt.mp positive
      rw [Gross.add, if_neg positive, max_eq_right negative, max_eq_left (neg_nonneg.mpr negative), add_zero,
        abs_of_nonpos negative]
      exact ⟨rfl, rfl⟩

theorem netGroup_netAmount (pair : Pair) (group : List Settlement) :
    (netGroup pair group).netAmount = (group.map (·.settlementAmount)).sum := by
  obtain ⟨receivable, payable⟩ := grossOf_eq group
  have net : (netGroup pair group).netAmount = (grossOf group).receivable - (grossOf group).payable := rfl
  have parts : ∀ s : Settlement, max s.settlementAmount 0 = s.settlementAmount + max (-s.settlementAmount) 0 :=
    fun s => sub_eq_iff_eq_add.mp (max_zero_sub_max_neg_zero_eq_self s.settlementAmount)
  rw [net, receivable, payable, sub_eq_iff_eq_add, ← List.sum_map_add]
  simp only [← parts]

/-- The order of a group changes the order of its ids alone. -/
structure SameNetting (first second : NettingResult) : Prop where
  counterparty : first.counterparty = second.counterparty
  currency : first.currency = second.currency
  grossPayable : first.grossPayable = second.grossPayable
  grossReceivable : first.grossReceivable = second.grossReceivable
  netAmount : first.netAmount = second.netAmount
  settlementCount : first.settlementCount = second.settlementCount
  settlementIds : first.settlementIds.Perm second.settlementIds

theorem netGroup_perm (pair : Pair) {group group' : List Settlement} (perm : group.Perm group') :
    SameNetting (netGroup pair group) (netGroup pair group') := by
  have receivable : (grossOf group).receivable = (grossOf group').receivable := by
    rw [(grossOf_eq group).1, (grossOf_eq group').1]
    exact (perm.map _).sum_eq
  have payable : (grossOf group).payable = (grossOf group').payable := by
    rw [(grossOf_eq group).2, (grossOf_eq group').2]
    exact (perm.map _).sum_eq
  exact ⟨rfl, rfl, payable, receivable, congrArg₂ (· - ·) receivable payable, perm.length_eq, perm.map _⟩

/-! ## All groups -/

section Results

variable (counterpartyMap : List (String × String)) (settlements : List Settlement)

theorem computeNetting_eq :
    computeNetting counterpartyMap settlements =
      (sortedKeys (pairOf counterpartyMap) settlements).map fun pair =>
        netGroup pair (settlements.filter fun s => pairOf counterpartyMap s = pair) := by
  rw [computeNetting, sortedBuckets_eq, List.map_map]
  rfl

/-- The obligations are all netted, each with those of its counterparty and currency. -/
structure Netted (results : List NettingResult) : Prop where
  distinct : (results.map fun r => (r.counterparty, r.currency)).Nodup
  partitioned : (results.flatMap (·.settlementIds)).Perm (settlements.map (·.id))
  own : ∀ r ∈ results, r.settlementIds = (settlements.filter fun s =>
    counterpartyOf counterpartyMap s = r.counterparty ∧ s.account.currency = r.currency).map (·.id)
  placed : ∀ s ∈ settlements, ∃ r ∈ results,
    r.counterparty = counterpartyOf counterpartyMap s ∧ r.currency = s.account.currency
  counted : ∀ r ∈ results, r.settlementCount = r.settlementIds.length
  net : ∀ r ∈ results, r.netAmount = r.grossReceivable - r.grossPayable
  signed : ∀ r ∈ results, r.netAmount = ((settlements.filter fun s =>
    counterpartyOf counterpartyMap s = r.counterparty ∧ s.account.currency = r.currency).map
      (·.settlementAmount)).sum
  conserved : ∀ currency, ((results.filter fun r => r.currency = currency).map (·.netAmount)).sum =
    ((settlements.filter fun s => s.account.currency = currency).map (·.settlementAmount)).sum

variable {counterpartyMap settlements}

theorem pairOf_eq_iff {s : Settlement} {pair : Pair} :
    pairOf counterpartyMap s = pair ↔
      counterpartyOf counterpartyMap s = (ofLex pair).1 ∧ s.account.currency = (ofLex pair).2 := by
  rw [← Prod.mk.injEq, Prod.mk.eta]
  exact toLex.eq_symm_apply.symm

/-- The settlements of a pair. -/
theorem filter_pairOf (pair : Pair) :
    (settlements.filter fun s => pairOf counterpartyMap s = pair) =
      settlements.filter fun s =>
        counterpartyOf counterpartyMap s = (ofLex pair).1 ∧ s.account.currency = (ofLex pair).2 := by
  simp only [pairOf_eq_iff]

theorem mem_computeNetting {r : NettingResult} :
    r ∈ computeNetting counterpartyMap settlements ↔
      ∃ s ∈ settlements, r = netGroup (pairOf counterpartyMap s)
        (settlements.filter fun other => pairOf counterpartyMap other = pairOf counterpartyMap s) := by
  rw [computeNetting_eq, List.mem_map]
  constructor
  · rintro ⟨pair, inside, rfl⟩
    obtain ⟨s, member, rfl⟩ := List.mem_map.mp ((mem_sortedKeys _).mp inside)
    exact ⟨s, member, rfl⟩
  · rintro ⟨s, member, rfl⟩
    exact ⟨_, (mem_sortedKeys _).mpr (List.mem_map_of_mem member), rfl⟩

theorem conserved (currency : String) :
    (((computeNetting counterpartyMap settlements).filter fun r => r.currency = currency).map
        (·.netAmount)).sum =
      ((settlements.filter fun s => s.account.currency = currency).map (·.settlementAmount)).sum := by
  have amounts : ((computeNetting counterpartyMap settlements).filter fun r => r.currency = currency).map
        (·.netAmount) =
      ((sortedKeys (pairOf counterpartyMap) settlements).filter fun pair => (ofLex pair).2 = currency).map
        fun pair => totalOf (pairOf counterpartyMap) (·.settlementAmount) pair settlements := by
    rw [computeNetting_eq, List.filter_map, List.map_map]
    apply List.map_congr_left
    intro pair _
    exact netGroup_netAmount pair _
  rw [amounts, sum_totalOf _ _ ((nodup_sortedKeys _ settlements).filter _)]
  congr 2
  apply List.filter_congr
  intro s member
  have occurs := (mem_sortedKeys (pairOf counterpartyMap)).mpr (List.mem_map_of_mem member)
  rw [decide_eq_decide, List.mem_filter, and_iff_right occurs]
  exact decide_eq_true_iff

theorem netted : Netted counterpartyMap settlements (computeNetting counterpartyMap settlements) where
  distinct := by
    rw [computeNetting_eq, List.map_map]
    exact (nodup_sortedKeys _ settlements).map ofLex.injective
  partitioned := by
    have covered : ∀ s ∈ settlements, pairOf counterpartyMap s ∈ sortedKeys (pairOf counterpartyMap) settlements :=
      fun s member => (mem_sortedKeys _).mpr (List.mem_map_of_mem member)
    have groups := groups_perm (pairOf counterpartyMap) (nodup_sortedKeys _ settlements) covered
    rw [computeNetting_eq, List.flatMap_map]
    simp only [netGroup]
    rw [← List.map_flatMap]
    exact groups.map _
  own r member := by
    obtain ⟨s, _, rfl⟩ := mem_computeNetting.mp member
    exact congrArg (List.map (·.id)) (filter_pairOf _)
  placed s member := ⟨_, mem_computeNetting.mpr ⟨s, member, rfl⟩, rfl, rfl⟩
  counted r member := by
    obtain ⟨s, _, rfl⟩ := mem_computeNetting.mp member
    exact (List.length_map _).symm
  net r member := by
    obtain ⟨s, _, rfl⟩ := mem_computeNetting.mp member
    rfl
  signed r member := by
    obtain ⟨s, _, rfl⟩ := mem_computeNetting.mp member
    rw [netGroup_netAmount, filter_pairOf]
    rfl
  conserved := conserved

end Results

/-! ## Two counterparties -/

section Bilateral

variable {settlements : List Settlement} {ourCounterparty theirCounterparty : String}

/-- What is netted bilaterally bears the names of both. -/
theorem bilateral_counterparty {r : NettingResult}
    (member : r ∈ computeBilateralNetting settlements ourCounterparty theirCounterparty) :
    r.counterparty = ourCounterparty ++ "<>" ++ theirCounterparty := by
  obtain ⟨r, inside, rfl⟩ := List.mem_map.mp member
  obtain ⟨s, mine, rfl⟩ := mem_computeNetting.mp inside
  generalize group_eq : settlements.filter (fun s => s.instrumentId = theirCounterparty) = group at mine
  -- what the last settlement with an instrument writes is what the others wrote
  have written : (group.foldl (fun d s => setItem s.instrumentId theirCounterparty d) []).lookup s.instrumentId =
      (group.filter fun other => other.instrumentId = s.instrumentId).foldl (fun _ _ => some theirCounterparty) none :=
    lookup_writeEach Settlement.instrumentId (fun _ _ => theirCounterparty) [] group s.instrumentId
  have own : s ∈ group.filter fun other => other.instrumentId = s.instrumentId :=
    List.mem_filter.mpr ⟨mine, decide_eq_true rfl⟩
  obtain ⟨first, rest, eq⟩ := List.exists_cons_of_ne_nil (List.ne_nil_of_mem own)
  have kept : rest.foldl (fun _ _ => some theirCounterparty) (some theirCounterparty) = some theirCounterparty :=
    List.foldl_fixed' (fun _ => rfl) rest
  rw [eq, List.foldl_cons, kept] at written
  have named : counterpartyOf (group.foldl (fun d s => setItem s.instrumentId theirCounterparty d) []) s =
      theirCounterparty := by
    rw [counterpartyOf, written]
    rfl
  exact congrArg (ourCounterparty ++ "<>" ++ ·) named

/-- All settlements with the counterparty are netted, and no others. -/
theorem bilateral_conserved (currency : String) :
    (((computeBilateralNetting settlements ourCounterparty theirCounterparty).filter
        fun r => r.currency = currency).map (·.netAmount)).sum =
      ((settlements.filter fun s => s.instrumentId = theirCounterparty ∧ s.account.currency = currency).map
        (·.settlementAmount)).sum := by
  unfold computeBilateralNetting
  rw [List.filter_map, List.map_map]
  refine (conserved currency).trans ?_
  rw [List.filter_filter]
  simp only [Bool.decide_and, Bool.and_comm]

end Bilateral

/-- Netting conserves what is owed, and the order of the settlements does not matter to it. -/
theorem netting_conserves (counterpartyMap : List (String × String)) (settlements : List Settlement) :
    Netted counterpartyMap settlements (computeNetting counterpartyMap settlements) ∧
      ∀ permuted, settlements.Perm permuted →
        List.Forall₂ SameNetting (computeNetting counterpartyMap settlements)
          (computeNetting counterpartyMap permuted) := by
  constructor
  · exact netted
  · intro permuted perm
    rw [computeNetting_eq, computeNetting_eq, ← sortedKeys_perm _ perm, List.forall₂_map_left_iff,
      List.forall₂_map_right_iff, List.forall₂_same]
    intro pair _
    exact netGroup_perm pair (perm.filter _)

end MiniHedge.CashManagement.Netting
